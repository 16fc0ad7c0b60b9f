import Fanring.Mpsc.MarkSpec

/-!
# The MPSC channel: lane control

Triples for `mpsc/receiver/lane_control.rs`: `pause`, `resume`, `try_recv_from` and `close_lane`.
Each looks its lane up after a refresh of the registry; an identity that names no lane of this
channel changes nothing but what the refresh adopted (`Adopts`). The receiver is after nothing in
particular while it controls lanes (`Setting.Plain`).
-/

set_option autoImplicit false

namespace Fanring.Mpsc

open Conc Chan

variable {V : Type} {P : Params} {S : Setting} {s s' : Chan V} {ℓ : Nat} {x : Ctx V}
  {rx rx' : Receiver} {lane lane' : Lane} {key : LaneKey} {h : List (Nat × V)} {c : Bool} {n : Nat}

/-- The receiver is not registered, and is after no lane. -/
structure Setting.Plain (S : Setting) : Prop where
  aim : S.aim = .free .none
  keep : S.keep = none
  scan : S.scan = none
  wait : S.wait = none

theorem Setting.Plain.no_target (hS : S.Plain) (ℓ : Nat) (q : Sought) : S.aim ≠ .target ℓ q := by
  simp [hS.aim]

theorem Setting.Plain.misses (hS : S.Plain) {caught : Bool} : Misses S.aim caught ℓ :=
  fun ℓ q ha => absurd ha (hS.no_target ℓ q)

theorem Setting.Plain.aimOk (hS : S.Plain) {k : Book} {c : Scan} {caught : Bool} :
    AimOk S.aim k c caught s := by
  simp [hS.aim, AimOk]

theorem Setting.Plain.passed (hS : S.Plain) {t : List (Event V)} : Passed S ℓ t := by
  simp [Passed, hS.scan]

theorem Setting.Plain.turned (hS : S.Plain) {t : List (Nat × V)} : Turned S ℓ t := by
  intro w hw
  cases hS.wait.symm.trans hw

theorem Setting.Plain.free (hS : S.Plain) : Free S rx lane :=
  .inr ⟨hS.keep, by simp [hS.aim]⟩

/-! ## Looking a lane up -/

/-- What a look-up answers: nothing, or the lane with that key. -/
structure Looked (P : Params) (id : LaneId) (rx : Receiver) (r : Option Lane × Receiver) :
    Prop where
  adopts : Adopts rx r.2
  found : ∀ lane, r.1 = some lane →
    id.channelId = P.channelId ∧ r.2.lanes id.key.slot = some lane ∧ lane.key = id.key

theorem lane?_some (hl : rx.lane? key = some lane) :
    rx.lanes key.slot = some lane ∧ lane.key = key := by
  simp only [Receiver.lane?, Option.filter_eq_some_iff, decide_eq_true_eq] at hl
  exact hl

theorem laneMut_spec {R : Chan V → Prop} (id : LaneId) (hR : ∀ x rx, Kept P S x rx R)
    (hstep : ∀ s, Core P s → R s → R (Receiver.takePending s).2) :
    Triple (recvC P S) (fun s => View S (.holding h c n) rx s ∧ R s) (rx.laneMut P id) fun r s =>
      Looked P id rx r ∧ View S (.holding h c n) r.2 s ∧ R s := by
  unfold Receiver.laneMut
  split
  · exact Triple.ret ((Contract.Stable.pure _).and (hR _ _).stable)
      fun s _ hv => ⟨⟨.refl rx, by simp⟩, hv⟩
  · next hid =>
    refine Triple.map (refreshRegistry_adopts (b := false) (Y := fun rx₁ s => Adopts rx rx₁ ∧
      View S (.holding h c n) rx₁ s ∧ R s) Ctx.holding_calm (List.Subset.refl _) (by simp)
      (hR _ _) hstep (fun _ => (Contract.Stable.pure _).and (hR _ _).stable)
      fun s rx₁ _ ha _ hv hr => ⟨ha, hv, hr⟩) fun rx₁ s _ hr => ?_
    refine ⟨⟨hr.1, fun lane hl => ⟨(not_not.mp hid).symm, lane?_some hl⟩⟩, hr.2⟩

/-! ## Pausing -/

/-- Which lane is queued does not concern the release of its slots. -/
theorem releasePending_queued (q : Bool)
    (hg : lane.fastLeft ≤ lane.unreleased ∧ lane.fastLeft ≤ lane.burst) :
    ({ lane with queued := q } : Lane).releasePending =
      (lane.releasePending (V := V)).bind fun r => .ret (r.1, { r.2 with queued := q }) := by
  have hensure : ensure (V := V) (lane.fastLeft ≤ lane.unreleased ∧ lane.fastLeft ≤ lane.burst) =
      .ret () := if_pos hg
  have hclose : lane.closing (V := V) = .ret lane.closeFast := by
    rw [Lane.closing, hensure]
    rfl
  have hclose' : ({ lane with queued := q } : Lane).closing (V := V) =
      .ret { lane.closeFast with queued := q } := by
    rw [Lane.closing, hensure]
    rfl
  unfold Lane.releasePending
  rw [hclose, hclose']
  simp only [Prog.bind_eq, Prog.bind]
  by_cases h₀ : lane.closeFast.unreleased = 0
  · rw [if_pos h₀, if_pos h₀]
    rfl
  · rw [if_neg h₀, if_neg h₀]
    rfl

/-- The receiver with one lane paused. -/
def Receiver.pausing (rx : Receiver) (key : LaneKey) (lane : Lane) : Receiver :=
  { rx.setLane lane with
    active := rx.active.filter (· ≠ key)
    paused := Function.update rx.paused key.slot true }

/-- The lane leaves the rotation. -/
theorem View.pause {l₀ : Lane} (hS : S.Plain)
    (hv : View S { Ctx.holding h c n with hot := some lane.ix } rx s)
    (hl₀ : rx.lanes lane.key.slot = some l₀) (hix : l₀.ix = lane.ix) (hkey : l₀.key = lane.key)
    (hq : lane.queued = false) (hok : LaneOk s lane) (hf : lane.fastLeft = 0) :
    View S (.holding h c n) (rx.pausing lane.key lane) s := by
  have hi := hix ▸ hv.indexed hl₀ rfl
  have hpa : Function.update rx.paused lane.key.slot true lane.key.slot = true :=
    Function.update_self ..
  refine hv.requeue lane none _ (Function.update rx.paused lane.key.slot true) hl₀ hix hkey
    (.inr rfl) (.inl rfl) (fun slot hs => Function.update_of_ne hs ..) (fun _ => hq)
    (hv.roster.nodup.filter _) (by simp) (by simp [hq]) (fun key hne => ?_) hok hf (.inl hpa)
    (fun key hne hf => head?_filter_ne hf hne)
    ⟨fun _ => .inl (.inl hpa), hi.idle, fun _ => .inl (.inl hpa), .inl (.inl hpa)⟩
    (fun hx => absurd hx (by simp [Ctx.holding, Ctx.base]))
    (fun hx => absurd hx (by simp [Ctx.holding, Ctx.base])) hS.aimOk (by simp [hS.keep])
    (.inr hS.passed) (.inl hS.wait)
  simp [hne, Ctx.holding, Ctx.base]

/-- What a successful `pause` leaves: the lane is paused, and holds no slots back. -/
def Paused (key : LaneKey) (rx : Receiver) : Prop :=
  rx.paused key.slot = true ∧ ∃ lane, rx.lanes key.slot = some lane ∧ lane.key = key ∧
    lane.unreleased = 0 ∧ lane.fastLeft = 0

theorem pause_spec (hS : S.Plain) (hsingle : S.single = none) (id : LaneId) :
    Triple (recvC P S) (View S (.holding h c n) rx) (rx.pause P id) fun r s =>
      (if r.1 then Paused id.key r.2 else Adopts rx r.2) ∧ View S (.holding h c n) r.2 s := by
  refine Triple.seq ((laneMut_spec (R := fun _ => True) id (fun _ _ => .pure _)
    fun _ _ h => h).pre fun _ _ hv => ⟨hv, trivial⟩) fun r => ?_
  refine Triple.given (fun s _ hr => hr.now.1) fun hlook => ?_
  match r with
  | (none, rx₁) => exact Triple.done fun s _ hr => ⟨hlook.adopts, hr.2.1⟩
  | (some lane, rx₁) =>
    obtain ⟨-, hl, hkey⟩ := hlook.found lane rfl
    rw [← hkey] at hl ⊢
    have hl : rx₁.lanes lane.key.slot = some lane := hl
    have hcopy : CopyOf rx₁ lane := ⟨lane, hl, rfl⟩
    refine Triple.given (fun s hi hr => (hr.now.2.1.counters _ lane hl
      (by simp [Ctx.holding, Ctx.base])).toLaneCounts.fast_refund hi.core) fun hg => ?_
    dsimp only
    rw [releasePending_queued _ hg]
    simp only [Prog.bind_eq, Prog.bind_assoc]
    let lane₁ : Lane := { lane.released with queued := false }
    refine (releaseLane_spec (x := { Ctx.holding h c n with hot := some lane.ix })
      (R := fun _ => True) (k := fun l : Lane =>
        if rx₁.paused lane.key.slot then .ret (true, rx₁.setLane { l with queued := false })
        else .ret (true, rx₁.pausing lane.key { l with queued := false })) rfl rfl rfl hcopy
      hsingle Framed.true.steady ?_).pre fun s _ hr => ?_
    · split
      · next hp =>
        refine Triple.done fun s _ hr => ⟨⟨hp, lane₁, setLane_self, rfl, rfl, rfl⟩, ?_⟩
        have hq := hr.1.roster.paused _ _ (Receiver.skel_lane hl) hp
        have hsk : lane₁.skel = lane.skel :=
          congrArg (Held.mk lane.ix lane.key) (show lane.queued = false from hq).symm
        have hcopy₁ : CopyOf rx₁ lane₁ := hcopy.of_skel hsk
        exact View.store (x := .holding h c n) (by exact hr.1) rfl hcopy₁
          (hr.2.1.of_queued false) (by simp [Lane.released, Lane.closeFast]) (.inl hp)
          (.inl hS.wait)
      · refine Triple.done fun s _ hr => ⟨⟨?_, lane₁, ?_, rfl, rfl, rfl⟩, ?_⟩
        · exact Function.update_self ..
        · exact Function.update_self ..
        · show View S (.holding h c n) (rx₁.pausing lane₁.key lane₁) s
          exact View.pause hS hr.1 hl rfl rfl rfl (hr.2.1.of_queued false) rfl
    · obtain ⟨-, hv, -⟩ := hr.now
      exact ⟨⟨hv.heat rfl rfl _, hv.counters _ lane hl (by simp [Ctx.holding, Ctx.base])⟩, trivial⟩

/-! ## Resuming -/

/-- A paused lane that was marked goes back to the end of the rotation. -/
theorem View.resume (hS : S.Plain)
    (hv : View S { Ctx.holding h c n with exempt := some lane.ix } rx s)
    (hl : rx.lanes lane.key.slot = some lane) (hp : rx.paused lane.key.slot = true)
    (hpending : s.ready.pending lane.ix = true) :
    View S (.holding h c n) (({ rx with
      paused := Function.update rx.paused lane.key.slot false } : Receiver).enqueue lane) s := by
  have he := Receiver.skel_lane hl
  have hq : lane.queued = false := hv.roster.paused _ _ he hp
  have hok := hv.counters _ lane hl (by simp [Ctx.holding, Ctx.base])
  have hf := hv.no_fast hl hq (by simp [Ctx.holding, Ctx.base])
  have hnot : lane.key ∉ rx.active := fun hm => by
    obtain ⟨e, he', -, hq'⟩ := (hv.roster.queued lane.key).mp (.inl hm)
    cases he.symm.trans he'
    exact absurd (hq'.symm.trans hq) (by simp)
  refine hv.requeue { lane with queued := true } none (rx.active ++ [lane.key])
    (Function.update rx.paused lane.key.slot false) hl rfl rfl (.inl rfl) (.inr rfl)
    (fun slot hs => Function.update_of_ne hs ..) (fun hp' => ?_) ?_ (by simp) (by simp)
    (fun key hne => ?_) (hok.of_queued true) hf (.inr (.inl rfl)) (fun key hne hf => ?_)
    ⟨fun _ => .inl (.inr (.inl rfl)), fun hp' => ?_, fun _ => .inl (.inr rfl), .inl (.inr rfl)⟩
    (fun hx => absurd hx (by simp [Ctx.holding, Ctx.base]))
    (fun hx => absurd hx (by simp [Ctx.holding, Ctx.base])) hS.aimOk (by simp [hS.keep])
    (.inl rfl) (.inl hS.wait)
  · simp at hp'
  · refine List.nodup_append.mpr ⟨hv.roster.nodup, by simp, fun a ha b hb heq => ?_⟩
    rw [List.mem_singleton.mp hb] at heq
    exact hnot (heq ▸ ha)
  · simp [hne, Ctx.holding, Ctx.base]
  · have hf : rx.active.head? = some key := hf
    cases hact : rx.active with
    | nil => simp [hact] at hf
    | cons key' rest => simpa [hact] using hf
  · exact absurd (hpending.symm.trans hp') (by simp)

/-- What a successful `resume` leaves: the lane is not paused, and if it was, it is in the
    rotation. -/
def Resumed (key : LaneKey) (rx rx' : Receiver) : Prop :=
  rx'.paused key.slot = false ∧
    ∀ l, rx.lanes key.slot = some l → rx.paused key.slot = true → key ∈ rx'.active

theorem resume_spec (hS : S.Plain) (id : LaneId) :
    Triple (recvC P S) (View S (.holding h c n) rx) (rx.resume P id) fun r s =>
      (if r.1 then Resumed id.key rx r.2 else Adopts rx r.2) ∧ View S (.holding h c n) r.2 s := by
  refine Triple.seq ((laneMut_spec (R := fun _ => True) id (fun _ _ => .pure _)
    fun _ _ h => h).pre fun _ _ hv => ⟨hv, trivial⟩) fun r => ?_
  refine Triple.given (fun s _ hr => hr.now.1) fun hlook => ?_
  match r with
  | (none, rx₁) => exact Triple.done fun s _ hr => ⟨hlook.adopts, hr.2.1⟩
  | (some lane, rx₁) =>
    obtain ⟨-, hl, hkey⟩ := hlook.found lane rfl
    rw [← hkey] at hl ⊢
    have hl : rx₁.lanes lane.key.slot = some lane := hl
    have hcopy : CopyOf rx₁ lane := ⟨lane, hl, rfl⟩
    dsimp only
    split
    · next hp =>
      refine Triple.seq ((markLane_spec (x := { Ctx.holding h c n with exempt := some lane.ix })
        rfl rfl rfl rfl rfl hcopy hS.no_target).pre fun s _ hr => ?_) fun _ => ?_
      · have hv := hr.now.2.1
        exact ⟨hv.exempted rfl _, hv.counters _ lane hl (by simp [Ctx.holding, Ctx.base])⟩
      · refine Triple.map ((notifyOwn_spec rfl (by rw [hS.aim]; rfl)).pre fun s _ hr =>
          View.resume hS hr.now.1 hl hp hr.now.2.1) fun _ s _ hv => ⟨⟨?_, fun _ _ _ => ?_⟩, hv⟩
        · exact Function.update_self ..
        · exact List.mem_append_right _ (List.mem_singleton_self _)
    · next hp =>
      refine Triple.done fun s _ hr => ⟨⟨by simpa using hp, fun l hl' hp' => ?_⟩, hr.2.1⟩
      exact absurd ((hlook.adopts.lanes _ l hl').2.trans hp') hp

/-! ## Targeted receives -/

/-- The context of a targeted receive: a lane that is neither paused nor in the rotation is not
    where the index says until it is back in the rotation. -/
def Ctx.targeting (h : List (Nat × V)) (c : Bool) (n : Nat) (rx : Receiver) (lane : Lane) : Ctx V :=
  { Ctx.holding h c n with
    hot := some lane.ix
    exempt := if rx.paused lane.key.slot || lane.queued then none else some lane.ix }

theorem View.targeting (hv : View S { Ctx.holding h c n with hot := some lane.ix } rx s) :
    View S (.targeting h c n rx lane) rx s := by
  unfold Ctx.targeting
  split
  · exact hv
  · exact hv.exempted rfl _

/-- A lane found empty that holds values again. -/
theorem Settled.targeting {l : Lane} (hl : rx.lanes lane.key.slot = some l)
    (hsk : l.skel = lane.skel)
    (hst : Settled S { Ctx.holding h c n with hot := some lane.ix } rx lane.skel (.keep false)
      lane' s) : View S (.targeting h c n rx lane) rx s := by
  have hv : View S { Ctx.holding h c n with hot := some lane.ix, exempt := some lane.ix } rx s :=
    hst.view
  unfold Ctx.targeting
  split
  · next hcov =>
    refine View.unexempt (x := { Ctx.holding h c n with hot := some lane.ix }) hv
      (fun slot e he hei => ?_) hst.verdict.2.2
    obtain ⟨l', hl', rfl⟩ := Option.map_eq_some_iff.mp he
    obtain rfl := hv.held_unique hl' hl (hei.trans (congrArg Held.ix hsk).symm)
    cases hl'.symm.trans hl
    rw [hsk]
    simpa [Lane.skel] using hcov
  · exact hv

theorem popFrom_spec (hS : S.Plain) (hl : CopyOf rx lane) (hf : lane.fastLeft = 0)
    (hpos : 0 < lane.cachedAvailable) :
    Triple (recvC P S) (fun s => View S (.targeting h c n rx lane) rx s ∧ LaneOk s lane)
      (rx.popFrom lane) fun r s =>
        lane.ix < s.count ∧ View S (.holding (h ++ [(lane.ix, r.1)]) true n) r.2 s := by
  refine Triple.seq (popTargeted_spec rfl rfl rfl rfl hl hf hpos hS.free hS.wait) fun r => ?_
  obtain ⟨⟨v, released⟩, lane₁⟩ := r
  refine Triple.given (φ := lane₁.skel = lane.skel ∧ lane₁.fastLeft = 0)
    (fun s _ hr => ⟨hr.now.1, hr.now.2.1⟩) fun ⟨hsk, hf₁⟩ => ?_
  have hix : lane₁.ix = lane.ix := congrArg Held.ix hsk
  have hkey : lane₁.key = lane.key := congrArg Held.key hsk
  have hqueued : lane₁.queued = lane.queued := congrArg Held.queued hsk
  have hl₁ : CopyOf rx lane₁ := hl.of_skel hsk
  have hctx : (Ctx.targeting h c n rx lane).pulled lane.ix [v] true =
      { Ctx.targeting (h ++ [(lane.ix, v)]) true n rx lane₁ with taken := 1 } := by
    simp [Ctx.pulled, Ctx.targeting, Ctx.holding, Ctx.base, hix, hkey, hqueued]
  rw [hctx, ← hix]
  refine (tell_spec (R := fun s => LaneOk s lane₁) rfl (fun _ => LaneOk.kept hl₁ rfl)
    (fun s c o hr => hr.frame (.refl _)) ?_).pre fun s _ hr => ⟨hr.now.2.2.2, hr.now.2.2.1⟩
  obtain ⟨l₀, hl₀, hsk₀⟩ := hl₁
  have hl₁ : CopyOf rx lane₁ := ⟨l₀, hl₀, hsk₀⟩
  split
  · next hout =>
    obtain ⟨hp, hq⟩ : rx.paused lane₁.key.slot = false ∧ lane₁.queued = false := by
      simpa using hout
    have hctx₁ :
        ({ Ctx.targeting (h ++ [(lane₁.ix, v)]) true n rx lane₁ with taken := 1 } : Ctx V) =
        { Ctx.holding (h ++ [(lane₁.ix, v)]) true n with
          hot := some lane₁.ix, taken := 1, exempt := some lane₁.ix } := by
      simp [Ctx.targeting, hp, hq]
    rw [hctx₁]
    refine Triple.map ((markLane_spec (x := { Ctx.holding (h ++ [(lane₁.ix, v)]) true n with
      hot := some lane₁.ix, taken := 1, exempt := some lane₁.ix }) rfl rfl rfl rfl rfl hl₁
      hS.no_target).pre fun s _ hr => hr.now) fun _ s _ hr => ?_
    obtain ⟨hv, hpending, hok⟩ := hr
    exact ⟨(hv.held hl₁).2.1, hv.enqueue hl₀ (congrArg Held.ix hsk₀) (congrArg Held.key hsk₀)
      ((congrArg Held.queued hsk₀).trans hq) (.inr rfl) (.inr ⟨rfl, hpending⟩) rfl rfl hp hok hf₁⟩
  · next hin =>
    have hin : rx.paused lane₁.key.slot = true ∨ lane₁.queued = true := by
      simpa [Decidable.or_iff_not_imp_left] using hin
    have hctx₁ :
        ({ Ctx.targeting (h ++ [(lane₁.ix, v)]) true n rx lane₁ with taken := 1 } : Ctx V) =
        { Ctx.holding (h ++ [(lane₁.ix, v)]) true n with hot := some lane₁.ix, taken := 1 } := by
      rcases hin with hp | hq
      · simp [Ctx.targeting, hp, Ctx.holding, Ctx.base]
      · simp [Ctx.targeting, hq, Ctx.holding, Ctx.base]
    rw [hctx₁]
    refine Triple.done fun s _ hr => ⟨(hr.1.held hl₁).2.1, ?_⟩
    exact View.store (x := .holding (h ++ [(lane₁.ix, v)]) true n) hr.1 rfl hl₁ hr.2
      (by simp [hf₁]) (hin.imp_right .inl) (.inl hS.wait)

/-- What a targeted receive leaves. -/
def Targeted (P : Params) (S : Setting) (h : List (Nat × V)) (c : Bool) (rx' : Receiver)
    (s : Chan V) : Except RecvError (Item V) → Prop
  | .ok item => ∃ n, Genuine P false item s ∧ View S (.holding (h ++ [item.pair]) true n) rx' s
  | .error _ => ∃ n, View S (.holding h c n) rx' s

theorem tryRecvFrom_spec (hS : S.Plain) (id : LaneId) :
    Triple (recvC P S) (View S (.holding h c n) rx) (rx.tryRecvFrom P id) fun r s =>
      Targeted P S h c r.2 s r.1 := by
  refine Triple.seq ((laneMut_spec (R := fun _ => True) id (fun _ _ => .pure _)
    fun _ _ h => h).pre fun _ _ hv => ⟨hv, trivial⟩) fun r => ?_
  refine Triple.given (fun s _ hr => hr.now.1) fun hlook => ?_
  obtain ⟨found, rx₁⟩ := r
  cases found with
  | none => exact Triple.done fun s _ hr => ⟨n, hr.2.1⟩
  | some lane =>
    obtain ⟨-, hl, hkey⟩ := hlook.found lane rfl
    rw [← hkey] at hl ⊢
    have hl : rx₁.lanes lane.key.slot = some lane := hl
    have hcopy : CopyOf rx₁ lane := ⟨lane, hl, rfl⟩
    refine Triple.seq ((refill_spec (x := { Ctx.holding h c n with hot := some lane.ix })
      rfl rfl rfl rfl rfl rfl hcopy).pre fun s _ hr => ⟨hr.now.2.1.heat rfl rfl _,
        hr.now.2.1.counters _ lane hl (by simp [Ctx.holding, Ctx.base])⟩) fun r => ?_
    have hpop : ∀ lane₁ : Lane, lane₁.skel = lane.skel → lane₁.fastLeft = 0 →
        0 < lane₁.cachedAvailable → Triple (recvC P S)
          (fun s => View S (.targeting h c n rx₁ lane₁) rx₁ s ∧ LaneOk s lane₁)
          ((rx₁.popFrom lane₁).bind fun r => .ret (.ok ⟨lane₁.ix, none, r.1⟩, r.2))
          fun r s => Targeted P S h c r.2 s r.1 := fun lane₁ hsk hf hpos =>
      Triple.map (popFrom_spec hS (hcopy.of_skel hsk) hf hpos) fun r s _ hr =>
        ⟨n, ⟨hr.1, rfl⟩, hr.2⟩
    obtain ⟨verdict, lane₁⟩ := r
    rcases verdict with _ | released | ⟨disconnected, released⟩
    · refine Triple.given (φ := lane₁.skel = lane.skel ∧ lane₁.fastLeft = 0 ∧
        0 < lane₁.cachedAvailable) (fun s _ hr => ⟨hr.now.1, hr.now.2.1, hr.now.2.2.1⟩) ?_
      rintro ⟨hsk, hf, hpos⟩
      refine (hpop lane₁ hsk hf hpos).pre fun s _ hr => ?_
      obtain ⟨-, -, -, hok, hv, -⟩ := hr.now
      rw [← show lane₁.ix = lane.ix from congrArg Held.ix hsk] at hv
      exact ⟨hv.targeting, hok⟩
    · -- values arrived while the lane was being settled
      refine Triple.given (φ := lane₁.ix = lane.ix ∧ lane₁.key = lane.key ∧
          lane₁.queued = lane.queued ∧ lane₁.fastLeft = 0 ∧ 0 < lane₁.cachedAvailable)
        (fun s _ hr => ⟨hr.now.2.ix, hr.now.2.key, hr.now.2.verdict.1, hr.now.2.fast,
          hr.now.2.verdict.2.1⟩) ?_
      rintro ⟨hix, hk, hq, hf, hpos⟩
      have hsk : lane₁.skel = lane.skel := by simp [Lane.skel, hix, hk, hq]
      refine (Settled.tell_spec (e := .keep released) rfl hcopy
        ((hpop lane₁ hsk hf hpos).pre fun s _ hst => ?_)).pre fun s _ hr => hr.now.2
      have hst := hst.now
      rw [← hsk, ← hix] at hst
      exact ⟨hst.targeting (by rw [hk]; exact hl) hsk.symm, hst.ok⟩
    · refine Triple.given (φ := lane₁.ix = lane.ix ∧ lane₁.key = lane.key)
        (fun s _ hr => ⟨hr.now.2.ix, hr.now.2.key⟩) ?_
      rintro ⟨hix, hk⟩
      refine (Settled.tell_spec (e := .idle disconnected released) rfl hcopy ?_).pre
        fun s _ hr => hr.now.2
      cases disconnected with
      | false =>
        refine Triple.done fun s hi hst => ⟨n, ?_⟩
        refine View.dequeue hst.view hi.core (by rw [hk]; exact hl) hix.symm hk.symm
          (by rw [hix]; rfl) (by rw [hix]; rfl) rfl rfl hst.verdict.1 hst.ok hst.fast hst.credit
          (by rw [hix, hk]; exact hst.verdict.2) hS.misses (by rw [hk]; rfl)
          (fun k hk' => by cases hk') (by rw [hix]; exact hst.passed _ _ rfl) hS.turned
      | true =>
        refine Triple.map ((retireLane_spec (R := fun _ => True)
          (x := { Ctx.holding h c n with hot := some lane.ix, exempt := some lane.ix }) rfl hl rfl
          (fun k hk' => by cases hk') (.inr rfl) (.inr rfl) (.inl rfl) rfl hS.misses .true
          (by rw [← hk]; exact setLane_self) hix ?_).pre fun s _ hst => ?_) fun rx' s _ hr => ?_
        · simp [Receiver.unlist, Receiver.setLane, Receiver.without, hk]
        · exact ⟨hst.now.view, ⟨hst.now.verdict.2, .inr (hst.now.passed _ _ rfl)⟩, trivial⟩
        · exact ⟨_, hr.2.1⟩

/-! ## Closing a lane -/

/-- The lane is being closed: it is given up, its key is not. -/
structure Closing (ℓ : Nat) (key : LaneKey) (s : Chan V) : Prop where
  lt : ℓ < s.count
  stage : s.stage ℓ = .adopted
  shut : s.shut ℓ = true
  key : s.key ℓ = key

theorem Closing.kept : Kept P S x rx (Closing ℓ key) := fun s s' ℓ' hc hℓ ha _ h => by
  have hf := ha.frame hc hℓ
  exact ⟨lt_of_lt_of_le h.lt hf.count, (hf.stage ℓ h.lt).trans h.stage,
    (hf.shut ℓ h.lt).trans h.shut, (hf.key ℓ h.lt).trans h.key⟩

/-- The context while a lane is closed. -/
def Ctx.closingLane (x : Ctx V) (ℓ : Nat) : Ctx V :=
  { x with closing := some ℓ, owed := some (ℓ, .due) }

theorem shutGhost_set {r : Ring V} (hsh : s.shut ℓ = true) :
    shutGhost ℓ ((ringL ℓ).set r s) =
      { (ringL ℓ).set r s with owed := Function.update s.owed ℓ .due } := by
  have : Function.update s.shut ℓ true = s.shut := by rw [← hsh, Function.update_eq_self]
  simp only [shutGhost, Chan.setOwed, ringL]
  rw [this]

/-- The first step of closing a lane gives it up. -/
theorem begins_closing (hS : S.Plain) (hl : rx.lanes lane.key.slot = some lane) :
    Begins P S lane.ix (closeGhost lane.ix) (View S (.holding h c n) rx) fun s =>
      View S ((Ctx.holding h c n).closingLane lane.ix) (rx.without lane.key) s ∧
        Closing lane.ix lane.key s := by
  intro s r hi hv hr hok
  obtain ⟨hk, hlt, hst, hsh⟩ := hv.held (hv.copyOf_lane hl).2
  refine ⟨.of_view hi hv rfl ((hi.core.shut (by simp [hst]) hr hok).closing _)
    (.closingLane hr hsh) rfl rfl, View.setClosings ?_ _, hlt, hst, Function.update_self ..,
    hk.symm⟩
  refine hv.without hi.core hl rfl (fun k hk' => by cases hk') (.inl rfl) (.inl rfl) rfl hS.misses
    (fun ℓ hne => Function.update_of_ne hne ..) (fun _ _ => rfl)
    (fun ℓ hne => Function.update_of_ne hne ..) (.inr ⟨hst, Function.update_self ..⟩)
    (fun ℓ hℓ hst' hsh' => ?_) (hv.owed.due (.inl rfl) hlt) (by simp [hS.keep])
    (.inr hS.passed) (.inr hS.turned) (by simp [hS.aim])
  by_cases hne : ℓ = lane.ix
  · rw [hne]
  · rw [Function.update_of_ne hne] at hsh'
    have := hv.closing ℓ hℓ hst' hsh'
    simp [Ctx.holding, Ctx.base] at this

/-- Every later one finds it given up. -/
theorem teardown_closing :
    Teardown P S lane.ix (shutGhost lane.ix) fun s =>
      View S ((Ctx.holding h c n).closingLane lane.ix) (rx.without lane.key) s ∧
        Closing lane.ix lane.key s := by
  rintro s r hi ⟨hv, hcl⟩ hr hok
  refine ⟨.of_view hi hv rfl (hi.core.shut (by simp [hcl.stage]) hr hok) (.shutting hr hcl.shut)
    rfl rfl, ?_⟩
  rw [shutGhost_set hcl.shut]
  refine ⟨?_, hcl.lt, hcl.stage, hcl.shut, hcl.key⟩
  exact hv.setRing (fun _ hsh => absurd (hcl.shut.symm.trans hsh) (by simp)) _ _
    (hv.owed.due (.inr ⟨_, rfl⟩) hcl.lt)

/-- The lane that was closed no longer counts as registered. -/
theorem View.unregister (hS : S.Plain)
    (hv : View S { Ctx.holding h c n with closing := some ℓ } rx s) (hsh : s.shut ℓ = true)
    (hst : s.stage ℓ = .adopted) : View S (.holding h c n) rx (Receiver.unregisterLane ℓ s) := by
  have hstage : ∀ ℓ', s.stage ℓ' ≠ .adopted ∨ s.shut ℓ' = false →
      Function.update s.stage ℓ .retired ℓ' = s.stage ℓ' := fun ℓ' h' => by
    refine Function.update_of_ne (fun heq => ?_) ..
    rw [heq, hst, hsh] at h'
    simp at h'
  have hother : ∀ ℓ' st, Function.update s.stage ℓ .retired ℓ' = st → st ≠ .retired →
      s.stage ℓ' = st := fun ℓ' st h' hne => by
    by_cases heq : ℓ' = ℓ
    · subst heq
      rw [Function.update_self] at h'
      exact absurd h'.symm hne
    · rwa [Function.update_of_ne heq] at h'
  exact
    { hv with
      roster := { hv.roster with
        held := fun slot e he => by
          obtain ⟨h₁, h₂, h₃, h₄, h₅⟩ := hv.roster.held slot e he
          exact ⟨h₁, h₂, h₃, (hstage e.ix (.inr h₅)).trans h₄, h₅⟩
        adopted := fun ℓ' hℓ' hst' => hv.roster.adopted ℓ' hℓ' (hother ℓ' _ hst' (by simp))
        fresh := fun ℓ' hℓ' hst' => hv.roster.fresh ℓ' hℓ' (hother ℓ' _ hst' (by simp)) }
      index := { hv.index with
        held := fun slot e he hx => { hv.index.held slot e he hx with }
        fresh := fun ℓ' hℓ' hst' =>
          { hv.index.fresh ℓ' hℓ' (hother ℓ' _ hst' (by simp)) with } }
      counters := fun slot l hl hx => (hv.counters slot l hl hx).frame (.refl _)
      closing := fun ℓ' hℓ' hst' hsh' => by
        have := hv.closing ℓ' hℓ' (hother ℓ' _ hst' (by simp)) hsh'
        obtain rfl : ℓ = ℓ' := Option.some.inj this
        simp [Receiver.unregisterLane] at hst'
      budget := fun hst => { hv.budget hst with }
      swept := fun hx => absurd hx (by simp [Ctx.holding, Ctx.base])
      quiet := fun hx => absurd hx (by simp [Ctx.holding, Ctx.base])
      aim := hS.aimOk
      keep := by simp [hS.keep]
      left := by simp [hS.aim]
      done := fun ho => ⟨(hv.done ho).1, by simp [Receiver.unregisterLane, (hv.done ho).2]⟩ }

/-- The lane no longer counts as registered, and its key is not given back yet. -/
structure Vacated (ℓ : Nat) (key : LaneKey) (s : Chan V) : Prop where
  lt : ℓ < s.count
  stage : s.stage ℓ = .retired
  key : s.key ℓ = key
  top : Top ℓ s

theorem Vacated.kept : Kept P S x rx (Vacated ℓ key) := fun s s' ℓ' hc hℓ ha _ h => by
  have hf := ha.frame hc hℓ
  exact ⟨lt_of_lt_of_le h.lt hf.count, (hf.stage ℓ h.lt).trans h.stage,
    (hf.key ℓ h.lt).trans h.key, h.top.sender hc h.lt ha⟩

theorem closeLane_spec (hS : S.Plain) (id : LaneId) :
    Triple (recvC P S) (View S (.holding h c n) rx) (rx.closeLane P id) fun r s =>
      (r.1 = false → Adopts rx r.2) ∧ View S (.holding h c n) r.2 s := by
  refine Triple.seq ((laneMut_spec (R := fun _ => True) id (fun _ _ => .pure _)
    fun _ _ h => h).pre fun _ _ hv => ⟨hv, trivial⟩) fun r => ?_
  refine Triple.given (fun s _ hr => hr.now.1) fun hlook => ?_
  match r with
  | (none, rx₁) => exact Triple.done fun s _ hr => ⟨fun _ => hlook.adopts, hr.2.1⟩
  | (some lane, rx₁) =>
    obtain ⟨-, hl, hkey⟩ := hlook.found lane rfl
    rw [← hkey] at hl ⊢
    have hl : rx₁.lanes lane.key.slot = some lane := hl
    refine Triple.given (φ := lane.isOpen = true) (fun s _ hr =>
      (hr.now.2.1.counters _ lane hl (by simp [Ctx.holding, Ctx.base])).isOpen) fun hopen => ?_
    have hJ : (recvC P S).Stable fun s =>
        View S ((Ctx.holding h c n).closingLane lane.ix) (rx₁.without lane.key) s ∧
          Closing lane.ix lane.key s := Closing.kept.stable
    unfold Receiver.shutLane
    simp only [hopen, if_true, Prog.bind_eq, Prog.bind_assoc]
    refine Triple.bind ((closeConsumer_spec View.stable hJ (Shut.stable hJ fun _ hj => hj.2.lt)
      (begins_closing hS hl) teardown_closing fun _ => rfl).pre fun s _ hr => hr.now.2.1)
      fun _ => ?_
    refine Triple.pre (P := fun s => View S ((Ctx.holding h c n).closingLane lane.ix)
      (rx₁.without lane.key) s ∧ Closing lane.ix lane.key s ∧ Shut P lane.ix s) ?_
      fun s _ hs => ⟨hs.1.1, hs.1.2, hs.2⟩
    · refine Triple.seq (notifySpace_spec (x := { Ctx.holding h c n with closing := some lane.ix })
        (R := fun s => Closing lane.ix lane.key s ∧ Shut P lane.ix s) rfl
        (fun o => ?_) fun s c o hr => ⟨⟨hr.1.lt, hr.1.stage, hr.1.shut, hr.1.key⟩, hr.2⟩)
        fun _ => ?_
      · intro s s' ℓ hc hℓ ha hv hr
        exact ⟨Closing.kept s s' ℓ hc hℓ ha hv hr.1, hr.2.sender hr.1.lt ha⟩
      have hlane :
          ((rx₁.setLane { lane with isOpen := false }).unlist lane.key).lanes lane.key.slot =
          some { lane with isOpen := false } := Function.update_self ..
      unfold Receiver.retireLane
      rw [hlane]
      simp only [Prog.bind_eq, Prog.bind_assoc]
      refine Triple.bind (Q := fun _ s => View S (.holding h c n) (rx₁.without lane.key) s ∧
          Vacated lane.ix lane.key s) (recv_atomic Contract.Lasting.stable
        (fun _ => Vacated.kept.stable) fun s hi hr => ?_) fun _ => ?_
      · obtain ⟨hv, hcl, hshut⟩ := hr.now
        refine ⟨.of_view hi hv rfl (hi.core.unregister hcl.lt hcl.stage ?_)
          { RecvAct.refl P s with registered := Nat.sub_le .. } rfl rfl,
          View.unregister hS hv hcl.shut hcl.stage,
          hcl.lt, Function.update_self .., hcl.key, ?_⟩
        · rw [hcl.shut]
          exact hshut
        · obtain ⟨h₁, h₂⟩ := hi.core.keys.top lane.ix hcl.lt (by simp [hcl.stage])
          refine ⟨fun ℓ hℓ hsl hne => ?_, h₂⟩
          simp only [Receiver.unregisterLane, Function.update_of_ne hne]
          exact h₁ ℓ hℓ hsl hne
      · refine Triple.bind (Q := fun _ => View S (.holding h c n) (rx₁.without lane.key))
          (recv_atomic Vacated.kept.stable (fun _ => View.stable) fun s hi hr => ?_) fun _ => ?_
        · have hcore := hi.core.retireKey hr.2.lt hr.2.top hr.2.stage
          rw [hr.2.key] at hcore
          exact ⟨.of_view hi hr.1 rfl hcore { RecvAct.refl P s with } rfl rfl, hr.1.retireKey _⟩
        · refine Triple.ret ((Contract.Stable.pure _).and View.stable) fun s _ hv => ⟨by simp, ?_⟩
          have hrx : ({ (rx₁.setLane { lane with isOpen := false }).unlist lane.key with
              lanes := Function.update ((rx₁.setLane { lane with isOpen := false }).unlist
                lane.key).lanes lane.key.slot none
              paused := Function.update rx₁.paused lane.key.slot false } : Receiver) =
              rx₁.without lane.key := by
            simp [Receiver.setLane, Receiver.unlist, Receiver.without]
          exact hrx ▸ hv

/-! ## Stale identities -/

/-- The identity names a lane that is retired, or a lane of another channel. -/
def Stale (P : Params) (id : LaneId) (s : Chan V) : Prop :=
  id.channelId ≠ P.channelId ∨ ∃ ℓ < s.count, s.key ℓ = id.key ∧ s.stage ℓ = .retired

theorem Stale.kept {id : LaneId} : Kept P S x rx (Stale P id) := fun s s' ℓ' hc hℓ ha _ h =>
  h.imp_right fun ⟨ℓ, hlt, hk, hst⟩ => by
    have hf := ha.frame hc hℓ
    exact ⟨ℓ, lt_of_lt_of_le hlt hf.count, (hf.key ℓ hlt).trans hk, (hf.stage ℓ hlt).trans hst⟩

theorem Stale.takePending {id : LaneId} (h : Stale P id s) (hc : Core P s) :
    Stale P id (Receiver.takePending s).2 :=
  h.imp_right fun ⟨ℓ, hlt, hk, hst⟩ => ⟨ℓ, hlt, hk, by
    simp only [Receiver.takePending]
    rw [if_neg fun hm => ?_]
    · exact hst
    · exact absurd (((hc.mem_pending ℓ).mp hm).2.symm.trans hst) (by simp)⟩

/-- A stale identity finds nothing. -/
theorem laneMut_stale {R : Chan V → Prop} (id : LaneId) (hR : ∀ x rx, Kept P S x rx R)
    (hstep : ∀ s, Core P s → R s → R (Receiver.takePending s).2) :
    Triple (recvC P S) (fun s => View S (.holding h c n) rx s ∧ Stale P id s ∧ R s)
      (rx.laneMut P id) fun r s =>
        r.1 = none ∧ Adopts rx r.2 ∧ View S (.holding h c n) r.2 s ∧ R s := by
  refine (laneMut_spec (R := fun s => Stale P id s ∧ R s) id
    (fun x rx => Kept.and Stale.kept (hR x rx))
    fun s hc hst => ⟨hst.1.takePending hc, hstep s hc hst.2⟩).post fun r s hi hr => ?_
  obtain ⟨hlook, hv, hstale, hr⟩ := hr
  refine ⟨Option.eq_none_iff_forall_ne_some.mpr fun lane hr => ?_, hlook.adopts, hv, hr⟩
  obtain ⟨hid, hl, hkey⟩ := hlook.found lane hr
  obtain ⟨hk, hlt, hst, -⟩ := hv.held (hv.copyOf_lane hl).2
  rcases hstale with hid' | ⟨ℓ, hℓ, hk', hst'⟩
  · exact hid' hid
  · have := hi.core.keys.distinct ℓ hℓ lane.ix hlt (hk'.trans (hkey.symm.trans hk))
    rw [this, hst] at hst'
    exact absurd hst' (by simp)

end Fanring.Mpsc
