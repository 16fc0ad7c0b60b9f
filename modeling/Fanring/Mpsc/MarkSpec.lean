import Fanring.Mpsc.BatchSpec

/-!
# The MPSC channel: the receiver marks a lane

`resume` and `try_recv_from` leave a lane with values in it, so the receiver itself does what a
sender does after a publication: it sets the lane's `PENDING` flag, the lane's bit in its page, and
the page's bit in its group. Between the last two steps the page is non-empty and no group says so;
that page is in the code's hands (`Scan.cp`), as if its bit had just been taken. The lane itself is
exempt from the index until it is back in the rotation.
-/

set_option autoImplicit false

namespace Fanring.Mpsc

open Conc Chan

variable {V : Type} {P : Params} {S : Setting} {s s' : Chan V} {ℓ : Nat} {x : Ctx V}
  {rx rx' : Receiver} {lane lane' : Lane} {key : LaneKey}

/-- Nothing is claimed of one lane's place in the index. -/
theorem View.exempted (hv : View S x rx s) (hx : x.exempt = none) (ℓ : Nat) :
    View S { x with exempt := some ℓ } rx s :=
  { hv with
    index := { hv.index with
      held := fun slot e he _ => hv.index.held slot e he (by simp [hx]) }
    budget := fun hst => { hv.budget hst with } }

/-! ## The flag -/

theorem Core.setResumed (h : Core P s) :
    Core P { s with resumed := Function.update s.resumed ℓ (s.ring ℓ).tail } :=
  { h with
    keys := { h.keys with }
    resumed_le := forall_update (p := fun ℓ' n => n ≤ (s.ring ℓ').tail) le_rfl
      fun ℓ' _ => h.resumed_le ℓ' }

theorem View.setResumed (hv : View S x rx s) (hl : CopyOf rx lane)
    (hex : x.exempt = some lane.ix) (n : Nat) :
    View S x rx { s with resumed := Function.update s.resumed lane.ix n } := by
  have hst := (hv.held hl).2.2.1
  exact
    { hv with
      roster := { hv.roster with }
      index := { hv.index with
        held := fun slot e he hx => by
          have hne : e.ix ≠ lane.ix := fun heq => hx (by rw [hex, heq])
          exact (hv.index.held slot e he hx).mono rfl id Iff.rfl rfl rfl rfl (by simp [hne]) le_rfl
        fresh := fun ℓ' hlt hst' => by
          have hne : ℓ' ≠ lane.ix := by
            rintro rfl
            exact absurd (hst.symm.trans hst') (by simp)
          exact (hv.index.fresh ℓ' hlt hst').mono rfl id Iff.rfl rfl rfl rfl (by simp [hne])
            le_rfl }
      counters := fun slot l hl hx => (hv.counters slot l hl hx).frame (.refl _)
      budget := fun hst => { hv.budget hst with }
      aim := hv.aim.step le_rfl rfl id (fun _ _ _ _ ht => { ht with }) fun _ hall => hall
      keep := fun ℓ n hk => { hv.keep ℓ n hk with } }

/-! ## The bits -/

theorem Indexed.markPage {slot slot' : Nat} {covered served : Prop}
    (h : Indexed s ℓ slot covered served) :
    Indexed (readyL.set (s.ready.markPage slot').2 s) ℓ slot covered served :=
  { h with
    marked := fun hp => by
      refine (h.marked hp).imp_right (Or.imp_left fun hb => ?_)
      exact (Ready.laneBit_markPage ..).trans (by simp [hb]) }

/-- What is in the code's hands once it set a lane's bit: the page, if that was its first one. -/
def Scan.marking (slot : Nat) (first : Bool) : Scan :=
  if first then ⟨[slot / lanesPerPage], [], [], Option.none⟩ else .none

theorem Scan.marking_eq (slot : Nat) (first : Bool) : Scan.marking slot first =
    ⟨if first then [slot / lanesPerPage] else [], [], [], Option.none⟩ := by
  cases first <;> rfl

theorem View.markPage {slot : Nat} (hv : View S x rx s) (hscan : x.scan = .none)
    (hswept : x.swept = false) (hquiet : x.quiet = false) (hfree : ∀ ℓ q, S.aim ≠ .target ℓ q) :
    View S { x with scan := .marking slot (s.ready.markPage slot).1 } rx
      (readyL.set (s.ready.markPage slot).2 s) := by
  have hi := hscan ▸ hv.index
  rw [Scan.marking_eq]
  refine hv.setReady ⟨fun slot' e he hx => (hi.held slot' e he hx).markPage,
    fun ℓ hℓ hst => (hi.fresh ℓ hℓ hst).markPage, fun p hp => ?_⟩ (by simp [hswept])
    (by simp [hquiet]) fun ℓ q ha => absurd ha (hfree ℓ q)
  by_cases hne : s.ready.page p = 0#64
  · -- the page was empty
    obtain rfl := ((Ready.page_markPage_ne_zero ..).mp hp).resolve_left (not_not.mpr hne)
    exact .inl (by simp [Ready.markPage, hne])
  · refine (hi.page p hne).imp_left fun hcp => ?_
    simp [Scan.none] at hcp

theorem View.markGroup {slot : Nat} {first : Bool} (hv : View S x rx s)
    (hscan : x.scan = .marking slot first)
    (hswept : x.swept = false) (hquiet : x.quiet = false) (hfree : ∀ ℓ q, S.aim ≠ .target ℓ q) :
    View S { x with scan := .none } rx
      (readyL.set (s.ready.markGroup (slot / lanesPerPage)).2 s) := by
  have hi := hscan ▸ hv.index
  rw [Scan.marking_eq] at hi
  refine hv.setReady ⟨fun slot' e he hx => { hi.held slot' e he hx with },
    fun ℓ hℓ hst => { hi.fresh ℓ hℓ hst with }, fun p hp => .inr ?_⟩ (by simp [hswept])
    (by simp [hquiet]) fun ℓ q ha => absurd ha (hfree ℓ q)
  rcases hi.page p hp with hcp | hb | hph
  · refine .inl ((Ready.pageBit_markGroup ..).trans ?_)
    cases first
    · simp at hcp
    · simp only [if_true, List.mem_singleton] at hcp
      simp [hcp]
  · exact .inl ((Ready.pageBit_markGroup ..).trans (by simp [hb]))
  · exact .inr hph

/-! ## Marking -/

/-- **The receiver marks a lane**: its flag is set, and the index is as good as it was. -/
theorem markLane_spec (hx : x.asleep = false) (hscan : x.scan = .none) (hswept : x.swept = false)
    (hquiet : x.quiet = false) (hex : x.exempt = some lane.ix) (hl : CopyOf rx lane)
    (hfree : ∀ ℓ q, S.aim ≠ .target ℓ q) :
    Triple (recvC P S) (fun s => View S x rx s ∧ LaneOk s lane) (Receiver.markLane lane)
      fun _ s => View S x rx s ∧ s.ready.pending lane.ix = true ∧ LaneOk s lane := by
  -- what is kept after the first step, whatever is in the code's hands
  have hkept : ∀ c, Kept P S { x with scan := c } rx fun s =>
      s.ready.pending lane.ix = true ∧ LaneOk s lane := fun c =>
    (Pending.kept hl).and (LaneOk.kept hl rfl)
  have hx₀ : ({ x with scan := .none } : Ctx V) = x := by rw [← hscan]
  have hstable := (hkept .none).stable
  rw [hx₀] at hstable
  refine Triple.bind (Q := fun _ s => View S x rx s ∧ s.ready.pending lane.ix = true ∧
    LaneOk s lane) ?_ fun _ => Triple.ret hstable fun _ _ h => h
  refine Triple.bind (recv_atomic (LaneOk.kept hl rfl).stable (fun _ => hstable)
    fun s hi hv => ?_) fun first => ?_
  · have hst := (hv.1.held hl).2.2.1
    have hcore : Core P (readyL.set (s.ready.swapPending lane.ix).2 s) :=
      hi.core.setReady fun _ hp => hp
    have hview : View S x rx (readyL.set (s.ready.swapPending lane.ix).2 s) := by
      have := hv.1.claimAfterEmpty hl hex hswept hquiet
      rwa [← hex] at this
    refine ⟨.of_view hi hv.1 hx (hcore.setResumed (ℓ := lane.ix)) { RecvAct.refl P s with } rfl rfl,
      hview.setResumed hl hex _, ?_, hv.2.frame (.refl _)⟩
    exact Function.update_self ..
  cases first with
  | false => exact Triple.ret hstable fun _ _ h => h
  | true =>
    refine Triple.bind (Q := fun first s =>
        View S { x with scan := .marking lane.key.slot first } rx s ∧
          s.ready.pending lane.ix = true ∧ LaneOk s lane)
      (recv_atomic hstable (fun _ => (hkept _).stable) fun s hi hv => ?_) fun first => ?_
    · obtain ⟨hk, hlt, -⟩ := hv.1.held hl
      have hcore := hi.core.markPage hlt
      rw [← hk] at hcore
      exact ⟨.of_view hi hv.1 hx hcore .setReady rfl rfl, hv.1.markPage hscan hswept hquiet hfree,
        hv.2.1, hv.2.2.frame (.refl _)⟩
    · have hgroup : Triple (recvC P S) (fun s =>
          View S { x with scan := .marking lane.key.slot first } rx s ∧
            s.ready.pending lane.ix = true ∧ LaneOk s lane)
          (readyL.accessWith (fun _ => Receiver.resumeGhost lane.ix .grouped)
            (Ready.markGroup (lane.key.slot / lanesPerPage)))
          fun _ s => View S x rx s ∧ s.ready.pending lane.ix = true ∧ LaneOk s lane := by
        refine recv_atomic (hkept _).stable (fun _ => hstable) fun s hi hv => ?_
        have hview :=
          hv.1.markGroup (show _ = Scan.marking lane.key.slot first from rfl) hswept hquiet hfree
        rw [hx₀] at hview
        exact ⟨.of_view hi hv.1 hx (hi.core.markGroup _) .setReady rfl rfl, hview, hv.2.1,
          hv.2.2.frame (.refl _)⟩
      cases first with
      | true => exact hgroup.bind fun _ => Triple.ret hstable fun _ _ h => h
      | false => exact Triple.ret hstable fun _ _ h => by rwa [← hx₀]

/-! ## The receiver's own cell -/

/-- A receiver that is not registered does not care what is in its cell. -/
theorem Told.setData {a : Aim} {c : WaitCell} (ha : a.Deaf) (h : Told a s) :
    Told a (dataL.set c s) := by
  match a with
  | .free w =>
    obtain rfl : w = .none := ha
    trivial
  | .target _ _ => trivial
  | .alone _ => exact h

theorem AimOk.setData {a : Aim} {k : Book} {scan : Scan} {caught : Bool} {c : WaitCell}
    (ha : a.Deaf) (h : AimOk a k scan caught s) : AimOk a k scan caught (dataL.set c s) := by
  match a with
  | .free w =>
    obtain rfl : w = .none := ha
    trivial
  | .target _ _ =>
    cases caught with
    | true => exact h
    | false => exact ⟨h.1, { h.2 with }⟩
  | .alone _ => exact h

theorem View.setData {c : WaitCell} (hv : View S x rx s) (ha : S.aim.Deaf)
    (hc : x.asleep = false → c.sleep ≠ .asleep) : View S x rx (dataL.set c s) :=
  { hv with
    awake := hc
    roster := { hv.roster with }
    index := { hv.index with
      held := fun slot e he hx => { hv.index.held slot e he hx with }
      fresh := fun ℓ hℓ hst => { hv.index.fresh ℓ hℓ hst with } }
    counters := fun slot l hl hx => (hv.counters slot l hl hx).frame (.refl _)
    budget := fun hst => { hv.budget hst with }
    swept := fun hs => (hv.swept hs).imp_left (Told.setData ha)
    quiet := fun hq => (hv.quiet hq).imp_left (Told.setData ha)
    aim := hv.aim.setData ha
    keep := fun ℓ n hk => { hv.keep ℓ n hk with } }

/-- One step of the receiver on its own cell, while it is awake. -/
theorem dataStep_spec {β : Type} {f : WaitCell → β × WaitCell} {R : Chan V → Prop}
    (hx : x.asleep = false) (ha : S.aim.Deaf)
    (hf : ∀ c, c.sleep ≠ .asleep → (f c).2.sleep ≠ .asleep) (hR : Kept P S x rx R)
    (hstep : ∀ s c, R s → R (dataL.set c s)) :
    Triple (recvC P S) (fun s => View S x rx s ∧ R s) (dataL.accessWith (fun _ s => s) f)
      fun _ s => View S x rx s ∧ R s :=
  recv_atomic hR.stable (fun _ => hR.stable) fun s hi hv => by
    have hc : (f s.data).2.sleep ≠ .asleep := hf _ (hv.1.awake hx)
    exact ⟨⟨hi.core.setData _, { RecvAct.refl P s with }, hc, hi.trace⟩,
      hv.1.setData ha fun _ => hc, hstep s _ hv.2⟩

theorem signal_sleep {c : WaitCell} (h : c.sleep ≠ .asleep) : c.signal.2.sleep ≠ .asleep := by
  simp only [WaitCell.signal]
  split
  · simp
  · exact h

/-- The receiver notifies itself. -/
theorem notifyOwn_spec (hx : x.asleep = false) (ha : S.aim.Deaf) :
    Triple (recvC P S) (View S x rx) (WaitCell.notify dataL fun _ s => s) fun _ => View S x rx := by
  have step : ∀ {β : Type} {f : WaitCell → β × WaitCell},
      (∀ c, c.sleep ≠ .asleep → (f c).2.sleep ≠ .asleep) →
      Triple (recvC P S) (View S x rx) (dataL.accessWith (fun _ s => s) f) fun _ => View S x rx :=
    fun hf => (dataStep_spec hx ha hf (R := fun _ => True) (.pure _) fun _ _ h => h).conseq
      (fun _ _ hv => ⟨hv, trivial⟩) fun _ _ _ hv => hv.1
  refine (step fun _ h => h).bind fun waiting => ?_
  refine (step fun _ h => h).bind fun _ => ?_
  cases waiting with
  | true => exact step fun _ => signal_sleep
  | false => exact Triple.ret View.stable fun _ _ h => h

end Fanring.Mpsc
