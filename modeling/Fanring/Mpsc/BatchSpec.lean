import Fanring.Mpsc.ReceiveSpec

/-!
# The MPSC channel: bulk receives

Triples for slot release and for `mpsc/receiver/batch.rs`. A drain moves chunks from the front lane
until its limit is reached, its predicate rejects a value or there is nothing left; on the last way
out it has just made a full collection, which is what lets the caller decide between an empty and a
drained channel.
-/

set_option autoImplicit false

namespace Fanring.Mpsc

open Conc Chan

variable {V : Type} {P : Params} {S : Setting} {s s' : Chan V} {ℓ : Nat} {x : Ctx V}
  {rx rx' : Receiver} {lane lane' : Lane} {key : LaneKey} {h : List (Nat × V)} {c : Bool} {n : Nat}

/-! ## Slot release -/

/-- Something that is not concerned with rings and wait cells. -/
structure Steady (P : Params) (S : Setting) (R : Chan V → Prop) : Prop where
  kept : ∀ x rx, Kept P S x rx R
  step : ∀ s s', s'.gone = s.gone → s'.count = s.count → s'.key = s.key →
    s'.registeredLanes = s.registeredLanes → R s → R s'

theorem Framed.steady {R : Chan V → Prop} (hR : Framed P S R) : Steady P S R :=
  ⟨hR.kept, fun s s' h₁ h₂ h₃ _ => hR.step s s' h₁ h₂ h₃⟩

theorem Steady.over : Steady P S (Over : Chan V → Prop) :=
  ⟨fun _ _ => Over.kept, fun s s' h₁ h₂ h₃ h₄ ho => by
    refine ⟨Framed.allGone.step (P := P) (S := S) s s' h₁ h₂ h₃ ho.1, h₄.trans ho.2⟩⟩

theorem Framed.genuine {tagged : Bool} {item : Item V} : Framed P S (Genuine P tagged item) :=
  ⟨fun _ _ => Genuine.kept, fun s s' _ h₂ h₃ hg => by rwa [Genuine, h₂, h₃]⟩

/-- The rotation, the budget and the lanes held stay as they are. -/
structure SameRotation (rx rx' : Receiver) : Prop where
  active : rx'.active = rx.active
  items : rx'.itemsUntilReadyPoll = rx.itemsUntilReadyPoll
  lanesLen : rx'.lanesLen = rx.lanesLen
  skel : rx'.skel = rx.skel

theorem SameRotation.refl (rx : Receiver) : SameRotation rx rx := ⟨rfl, rfl, rfl, rfl⟩

theorem SameRotation.trans {rx₁ rx₂ rx₃ : Receiver} (h₁ : SameRotation rx₁ rx₂)
    (h₂ : SameRotation rx₂ rx₃) : SameRotation rx₁ rx₃ :=
  ⟨h₂.active.trans h₁.active, h₂.items.trans h₁.items, h₂.lanesLen.trans h₁.lanesLen,
    h₂.skel.trans h₁.skel⟩

/-- One lane's slots are given back and its sender is told. -/
theorem releaseLane_spec {α : Type} {R : Chan V → Prop} {T : α → Chan V → Prop}
    {k : Lane → Prog (Chan V) α} (hx : x.asleep = false) (hhot : x.hot = some lane.ix)
    (howed : x.owed = none) (hl : CopyOf rx lane) (hsingle : S.single = none) (hR : Steady P S R)
    (hk : Triple (recvC P S) ((recvC P S).Lasting fun s =>
        View S x rx s ∧ LaneOk s lane.released ∧ R s) (k lane.released) T) :
    Triple (recvC P S) (fun s => (View S x rx s ∧ LaneOk s lane) ∧ R s)
      (lane.releasePending.bind fun r =>
        if r.1 then (notifySpace r.2.ix).bind fun _ => k r.2 else k r.2) T := by
  refine Triple.given (φ := lane.burst < prefetchLimit) (fun s _ hv => hv.1.2.burst_lt) fun hb => ?_
  refine Triple.seq ((releasePending_spec hx hhot howed hl (.inl hsingle) (hR.kept _ _)
    (fun _ => hR.kept _ _) fun s _ hr => ?_).pre fun s _ hv =>
    ⟨⟨hv.1.1, hv.1.2.toLaneCounts⟩, hv.2⟩) fun r => ?_
  · exact hR.step s _ rfl rfl rfl rfl hr
  obtain ⟨released, lane₁⟩ := r
  refine Triple.given (fun s _ hr => hr.now.1) ?_
  rintro rfl
  have hx₀ : ({ x with owed := none } : Ctx V) = x := by rw [← howed]
  have hkept : ∀ o, Kept P S { x with owed := o } rx fun s => LaneCounts s lane.released ∧ R s :=
    fun _ => (show Kept P S _ rx fun s => LaneCounts s lane.released from
      LaneCounts.kept hl rfl).and (hR.kept _ _)
  refine (tell_spec (x := x) (b := released) (ℓ := lane.ix) hx hkept
    (fun s c o hr => ⟨{ hr.1 with }, hR.step s _ rfl rfl rfl rfl hr.2⟩) (hk.pre ?_)).pre
    fun s _ hr => ⟨hr.now.2.1.1, hr.now.2.1.2, hr.now.2.2⟩
  intro s hi hr s' he
  obtain ⟨hv, hn, hr'⟩ := hr s' he
  rw [hx₀] at hv
  exact ⟨hv, LaneOk.of_released hn (he.inv hi).core rfl (lt_of_le_of_lt (Nat.sub_le ..) hb), hr'⟩

theorem releaseLanes_spec {R : Chan V → Prop} (slots : List Nat) (hx : x.asleep = false)
    (howed : x.owed = none) (hhot : x.hot = none) (htaken : x.taken = 0) (hsingle : S.single = none)
    (hR : Steady P S R) :
    Triple (recvC P S) (fun s => View S x rx s ∧ R s) (Receiver.releaseLanes slots rx)
      fun rx' s => SameRotation rx rx' ∧ View S x rx' s ∧ R s := by
  induction slots generalizing rx with
  | nil =>
    exact Triple.ret ((Contract.Stable.pure _).and (hR.kept _ _).stable)
      fun s _ hv => ⟨.refl rx, hv⟩
  | cons slot slots ih =>
    rw [Receiver.releaseLanes]
    split
    · exact ih
    · next lane hl =>
      refine Triple.given (fun s _ hv => (hv.1.copyOf_lane hl).2) fun hcopy => ?_
      have hcopy' : CopyOf rx lane.released := hcopy.of_skel rfl
      have hsame : SameRotation rx (rx.setLane lane.released) := ⟨rfl, rfl, rfl, hcopy'.skel⟩
      refine (releaseLane_spec (x := { x with hot := some lane.ix })
        (k := fun lane => Receiver.releaseLanes slots (rx.setLane lane)) hx rfl howed hcopy
        hsingle hR
        (ih.conseq (fun s _ hv => ⟨?_, hv.now.2.2⟩) fun rx' s _ hr => ⟨hsame.trans hr.1, hr.2⟩)).pre
        fun s _ hv => ⟨⟨hv.1.heat hhot htaken _, hv.1.counters slot lane hl (by simp [hhot])⟩, hv.2⟩
      · have hv' : View S { x with hot := some lane.released.ix } rx s := hv.now.1
        refine hv'.store hhot hcopy' hv.now.2.1 (by simp [Lane.released, Lane.closeFast])
          (.inr (.inr rfl)) (.inr (.inr fun l₀ hl₀ => ?_))
        obtain ⟨rfl, -⟩ := hv.now.1.copyOf_lane hl
        cases hl.symm.trans hl₀
        exact (congrArg (lane.spent + ·) htaken).le

theorem releaseConsumed_spec {R : Chan V → Prop} (hx : x.asleep = false) (howed : x.owed = none)
    (hhot : x.hot = none) (htaken : x.taken = 0) (hsingle : S.single = none) (hR : Steady P S R) :
    Triple (recvC P S) (fun s => View S x rx s ∧ R s) rx.releaseConsumed
      fun rx' s => SameRotation rx rx' ∧ View S x rx' s ∧ R s :=
  releaseLanes_spec _ hx howed hhot htaken hsingle hR

/-! ## A lane of the rotation -/

/-- What `refresh_active` leaves of the rotation. -/
structure Refreshed (a : Aim) (c : Bool) (rx rx' : Receiver) : Prop where
  keep : rx.active ⊆ rx'.active
  solvent : rx.Solvent → rx'.itemsUntilReadyPoll ≠ 0
  due : rx'.itemsUntilReadyPoll = 0 → rx.active = []
  step : ∀ ℓ q, a = .target ℓ q → c = false → rx.active = [] ∧ q.key ∈ rx'.active ∨
    rx.itemsUntilReadyPoll = 0 ∧ rx'.itemsUntilReadyPoll ≠ 0 ∨ rx' = rx

theorem refreshActive_spec :
    Triple (recvC P S) (View S (.holding h c n) rx) rx.refreshActive fun r s =>
      Refreshed S.aim c rx r.2 ∧
        if r.1 then r.2.active ≠ [] ∧ View S (.holding h c n) r.2 s
        else r.2.active = [] ∧ View S ((Ctx.holding h c n).afterCollect true) r.2 s := by
  have hcalm : (Ctx.holding h c n).Calm := Ctx.holding_calm
  unfold Receiver.refreshActive
  split
  · next hnil =>
    refine Triple.map (collectReady_spec true hcalm rfl) fun rx₁ s _ hr => ?_
    obtain ⟨hg, hv, hf⟩ := hr
    have hfound : ∀ ℓ q, S.aim = .target ℓ q → c = false → q.key ∈ rx₁.active := fun ℓ q =>
      hv.queued_of_found rfl rfl hf
    refine ⟨⟨hg.active.subset, fun hs h₀ => hs (hg.items.symm.trans h₀) hnil, fun _ => hnil,
      fun ℓ q ha hc => .inl ⟨hnil, hfound ℓ q ha hc⟩⟩, ?_⟩
    by_cases hnil₁ : rx₁.active = []
    · simp only [hnil₁]
      exact ⟨trivial, hv⟩
    · simp only [ne_eq, hnil₁, not_false_eq_true, decide_true, if_true]
      exact ⟨trivial, hv.ofCollect⟩
  · next hne =>
    split
    · next h₀ =>
      refine Triple.map (collectReady_spec false hcalm rfl) fun rx₁ s _ hr => ?_
      obtain ⟨hg, hv, -⟩ := hr
      refine ⟨⟨hg.active.subset, fun _ => readyPollInterval_pos.ne', fun h₁ => ?_,
        fun ℓ q ha hc => .inr (.inl ⟨h₀, readyPollInterval_pos.ne'⟩)⟩, ?_, ?_⟩
      · exact absurd h₁ readyPollInterval_pos.ne'
      · exact fun hnil => hne (List.subset_nil.mp (hnil ▸ hg.active.subset))
      · exact (hv.reset rfl rfl rfl).stale
    · next h₀ =>
      exact Triple.ret ((Contract.Stable.pure _).and ((Contract.Stable.pure _).and View.stable))
        fun s _ hv => ⟨⟨List.Subset.refl _, fun _ => h₀, fun h₁ => absurd h₁ h₀,
          fun _ _ _ _ => .inr (.inr rfl)⟩, hne, hv⟩

section

variable {rest : List LaneKey}

theorem Front.copy (hf : Front rx key rest lane) : CopyOf rx lane :=
  ⟨lane, by rw [hf.named]; exact hf.held, rfl⟩

theorem Front.rest_eq (hf : Front rx key rest lane) : rest = rx.active.filter (· ≠ key) := by
  rw [hf.active, List.filter_cons_of_neg (by simp), hf.filter]

end

/-- The sender of a settled lane was told. -/
def EmptyLane.told : EmptyLane → EmptyLane
  | .keep _ => .keep false
  | .idle disconnected _ => .idle disconnected false

theorem Verdict.kept {e : EmptyLane} (hl : CopyOf rx lane) :
    Kept P S x rx fun s => Verdict lane.skel lane' s e := by
  match e with
  | .keep _ => exact (Kept.pure _).and ((Kept.pure _).and (Pending.kept hl))
  | .idle true _ => exact (Kept.pure _).and (Ended.kept hl)
  | .idle false _ => exact (Kept.pure _).and (Indexed.kept hl)

theorem Verdict.told {l : Held} {e : EmptyLane} (s' : Chan V) (hv : Verdict l lane s e)
    (hring : s'.ring = s.ring) (hready : s'.ready = s.ready) (hsig : s'.signaled = s.signaled)
    (hdrop : s'.dropMarked = s.dropMarked) (hphase : s'.phase = s.phase)
    (hcomp : s'.completed = s.completed) (hres : s'.resumed = s.resumed) :
    Verdict l lane s' e.told := by
  match e with
  | .keep _ => exact ⟨hv.1, hv.2.1, hready ▸ hv.2.2⟩
  | .idle true _ => exact ⟨hv.1, by simpa only [Ended, hring] using hv.2⟩
  | .idle false _ =>
    refine ⟨hv.1, ?_⟩
    have hi := hv.2
    constructor
    · simpa only [hready, hphase] using hi.marked
    · simpa only [hready, hsig, hring, hdrop] using hi.idle
    · simpa only [hphase, hcomp, hring] using hi.swapped
    · simpa only [hres, hring] using hi.resumed

/-- The sender of a lane that was found empty is told of what was given back. -/
theorem Settled.tell_spec {α : Type} {k : Prog (Chan V) α} {T : α → Chan V → Prop} {e : EmptyLane}
    (hx : x.asleep = false) (hl : CopyOf rx lane)
    (hk : Triple (recvC P S) ((recvC P S).Lasting (Settled S x rx lane.skel e.told lane')) k T) :
    Triple (recvC P S) (Settled S x rx lane.skel e lane')
      (if e.released then (notifySpace lane'.ix).bind fun _ => k else k) T := by
  refine Triple.given (φ := lane'.ix = lane.ix ∧ lane'.key = lane.key ∧ lane'.fastLeft = 0 ∧
      lane'.unreleased = 0 ∧ Misses S.aim x.caught lane.ix ∧
      ∀ dry, S.aim = .alone dry → ∃ released, e = .idle true released)
    (fun s _ hs => ⟨hs.ix, hs.key, hs.fast, hs.credit, hs.misses, hs.alone⟩)
    fun ⟨hix, hkey, hf, hu, hm, ha⟩ => ?_
  have hpassed : ∀ o, Kept P S { x with exempt := some lane.ix, owed := o } rx fun s =>
      ∀ d r, e = .idle d r → Passed S lane.ix s.trace := fun o s s' ℓ hc hℓ ha hv h d r he =>
    Passed.kept s s' ℓ hc hℓ ha hv (h d r he)
  have hkept : ∀ o, Kept P S { x with exempt := some lane.ix, owed := o } rx fun s =>
      (LaneOk s lane' ∧ Turned S lane.ix (popped s.trace) ∧
        ∀ d r, e = .idle d r → Passed S lane.ix s.trace) ∧
        Verdict lane.skel lane' s e.told := fun o =>
    ((LaneOk.kept hl hix).and (Turned.kept.and (hpassed o))).and (Verdict.kept hl)
  rw [hix]
  refine (Mpsc.tell_spec (x := { x with exempt := some lane.ix }) (b := e.released) (ℓ := lane.ix)
    hx hkept (fun s c o hr => ⟨⟨⟨{ hr.1.1.toLaneCounts with }, hr.1.1.unreleased_lt,
      hr.1.1.burst_lt⟩, hr.1.2⟩, ?_⟩)
    (hk.pre fun s _ hr s' he => ?_)).pre
    fun s _ hs => ⟨hs.view, ⟨hs.ok, hs.turned, hs.passed⟩, ?_⟩
  · have := hr.2.told (((spaceL lane.ix).set c s).setOwed lane.ix o) rfl rfl rfl rfl rfl rfl rfl
    match e, this with
    | .keep _, this => exact this
    | .idle _ _, this => exact this
  · obtain ⟨hv, ⟨hok, hturned, hpass⟩, hver⟩ := hr s' he
    refine ⟨hix, hkey, hf, hu, hok, hm, hturned, fun d r he => ?_, ?_, hver, fun dry hd => ?_⟩
    · match e with
      | .keep _ => cases he
      | .idle d' r' => exact hpass d' r' rfl
    · match e, hv with
      | .keep _, hv => exact hv
      | .idle _ _, hv => exact hv
    · obtain ⟨released, rfl⟩ := ha dry hd
      exact ⟨false, rfl⟩
  · match e, hs.verdict with
    | .keep _, hv => exact hv
    | .idle true _, hv => exact hv
    | .idle false _, hv => exact hv

section

variable {rest : List LaneKey}

theorem rotate_active {active : List LaneKey} (hact : rx.active = key :: active) :
    rx.rotate.active = active ++ [key] := by
  simp [Receiver.rotate, hact]

theorem Front.rotated_last (hf : Front rx key rest lane) :
    key ∉ ((none : Option LaneKey).toList ++ rx.rotate.active).dropLast := by
  rw [rotate_active hf.active]
  simpa using fun hm => hf.others key hm rfl

/-- **A front lane that was found empty** goes to the end of the rotation or leaves it. -/
theorem settleEmptyFront_spec {e : EmptyLane} (hf : Front rx key rest lane)
    (hempty : lane.cachedAvailable + lane.fastLeft = 0) :
    Triple (recvC P S)
      ((recvC P S).Lasting (Settled S { Ctx.holding h c n with hot := some lane.ix }
        rx lane.skel e.told lane'))
      (Receiver.settleEmptyFront P (rx.setLane lane') key e)
      fun rx' s => ∃ n', Closer S.aim c rx n rx' n' ∧ View S (.holding h c n') rx' s := by
  have hnamed : ∀ {x : Ctx V} {s}, View S x rx s → Named lane.ix key s :=
    fun hv => ⟨(hv.held hf.copy).2.1, (hv.held hf.copy).1.symm.trans hf.named⟩
  refine Triple.given (φ := lane'.ix = lane.ix ∧ lane'.key = lane.key ∧ lane'.fastLeft = 0 ∧
      Misses S.aim c lane.ix)
    (fun s _ hs => ⟨hs.now.ix, hs.now.key, hs.now.fast, hs.now.misses⟩)
    fun ⟨hix, hk, hfast, hmiss⟩ => ?_
  have hkey : lane'.key = key := hk.trans hf.named
  have hact : (rx.setLane lane').active = key :: rest := hf.active
  have hother : ∀ slot, slot ≠ key.slot → (rx.setLane lane').lanes slot = rx.lanes slot :=
    fun slot hs => setLane_other (hkey.symm ▸ hs)
  have hself : (rx.setLane lane').lane? key = some lane' :=
    lane?_eq (by rw [← hkey]; exact setLane_self) hkey
  match e with
  | .keep _ =>
    refine Triple.done fun s hi hst => ⟨n, ?_⟩
    have hsk : lane'.skel = lane.skel := by
      simp only [Lane.skel, Held.mk.injEq]
      exact ⟨hix, hk, hst.verdict.1⟩
    have hv : View S { Ctx.holding h c n with hot := some lane'.ix } rx s := by
      rw [hix]
      refine View.unexempt (ℓ := lane.ix) hst.view (fun slot e he hei => ?_) hst.verdict.2.2
      obtain ⟨l, hl, rfl⟩ := Option.map_eq_some_iff.mp he
      obtain rfl := hst.view.held_unique hl hf.held hei
      cases hl.symm.trans hf.held
      exact .inr hf.queued
    have hback := hv.rotate rfl fun key' l hk' hl => ?_
    · have hl' : CopyOf rx.rotate lane' := hf.copy.of_skel hsk
      have hv' : View S (.holding h c n) (rx.setLane lane').rotate s :=
        View.store (x := .holding h c n) hback rfl hl' hst.ok (by simp [hfast])
          (.inr (.inr hst.credit)) (.inr (.inl (hkey ▸ hf.rotated_last)))
      refine ⟨hf.closer n n hi.core hv' rfl (hnamed hst.view) hmiss ?_ rfl
        (hf.weight hempty hother (.inr ⟨rotate_active hact, lane', hself, hst.verdict.2.1⟩)) le_rfl
        fun dry ha => ?_, hv'⟩
      · rw [rotate_active hact]
        exact List.subset_append_left ..
      · obtain ⟨_, h⟩ := hst.alone dry ha
        cases h
    · rw [hf.active] at hk'
      cases hk'
      cases hl.symm.trans hf.held
      exact ⟨.inl (congrArg some hix), hst.turned⟩
  | .idle false _ =>
    refine Triple.done fun s hi hst => ⟨n, ?_⟩
    have hv : View S (.holding h c n) (rx.setLane lane').popActive s := by
      refine hst.view.dequeue hi.core (by rw [hkey]; exact hf.held) hix.symm
        (hf.named.trans hkey.symm)
        (by rw [hix]; rfl) (by rw [hix]; rfl) rfl rfl hst.verdict.1 hst.ok hst.fast hst.credit
        (by rw [hix, hkey, ← hf.named]; exact hst.verdict.2) (by rw [hix]; exact hst.misses) ?_
        (fun k hk => by cases hk) (by rw [hix]; exact hst.passed _ _ rfl)
        (by rw [hix]; exact hst.turned)
      rw [hkey, ← hf.rest_eq, hact]
      rfl
    have hpop : (rx.setLane lane').popActive.active = rest := by simp [Receiver.popActive, hact]
    refine ⟨hf.closer n n hi.core hv rfl (hnamed hst.view) hmiss ?_ rfl
      (hf.weight hempty hother (.inl hpop)) le_rfl fun dry ha => ?_, hv⟩
    · rw [hpop]
      exact List.Subset.refl _
    · obtain ⟨_, h⟩ := hst.alone dry ha
      cases h
  | .idle true _ =>
    refine (retireLane_spec (R := Named lane.ix key)
      (x := { Ctx.holding h c n with hot := some lane.ix, exempt := some lane.ix }) rfl
      hf.held hf.named (fun k hk => by cases hk) (.inr rfl) (.inr rfl) (.inl rfl) rfl
      hmiss .named (by rw [← hkey]; exact setLane_self) hix ?_).conseq
      (fun s _ hl => ⟨hl.now.view, ⟨hl.now.verdict.2, .inr (hl.now.passed _ _ rfl)⟩,
        hnamed hl.now.view⟩) fun rx' s hi hl => ?_
    · have htail : rx.active.tail = rx.active.filter (· ≠ key) := by
        rw [← hf.rest_eq, hf.active, List.tail_cons]
      simp only [Receiver.popActive, Receiver.setLane, Receiver.without, hkey, Function.update_idem,
        htail]
    · obtain ⟨rfl, hv, halone, hn⟩ := hl
      have hact' : (rx.without key).active = rest := hf.rest_eq.symm
      refine ⟨n - 1,
        hf.closer n (n - 1) hi.core hv rfl hn hmiss ?_ rfl (hf.weight hempty ?_ (.inl hact'))
        (Nat.sub_le ..) fun dry ha => Nat.sub_lt (halone dry ha) Nat.one_pos, hv⟩
      · rw [hact']
        exact List.Subset.refl _
      · exact fun slot hs => Function.update_of_ne hs ..

end

/-! ## Draining -/

/-- A drain under way: what it appended is in the receiver's hands. -/
def Ctx.draining (h : List (Nat × V)) (c : Bool) (n : Nat) (output : List (Item V)) : Ctx V :=
  .holding (h ++ output.map Item.pair) (c || !output.isEmpty) n

/-- What a drain appends: at most `limit` values, without ids. -/
def Plain (limit : Nat) (output : List (Item V)) : Prop :=
  output.length ≤ limit ∧ ∀ item ∈ output, item.id = none

/-- Values of a lane are appended. -/
theorem Ctx.draining_append (output : List (Item V)) (ix : Nat) (vs : List V) :
    Ctx.draining h c n (output ++ vs.map (⟨ix, none, ·⟩)) =
      .holding (h ++ output.map Item.pair ++ vs.map (ix, ·))
        (c || !output.isEmpty || !vs.isEmpty) n := by
  have hpair : (vs.map fun v => (⟨ix, none, v⟩ : Item V)).map Item.pair = vs.map (ix, ·) := by
    simp [Item.pair, Function.comp_def]
  have hempty : (output ++ vs.map fun v => (⟨ix, none, v⟩ : Item V)).isEmpty =
      (output.isEmpty && vs.isEmpty) := by
    cases output <;> simp
  rw [Ctx.draining, List.map_append, hpair, hempty, Bool.not_and, List.append_assoc, Bool.or_assoc]

/-- The receiver of a drain after one chunk. -/
def Receiver.chunked (rx : Receiver) (lane : Lane) (n : Nat) : Receiver :=
  if lane.endFullBurst.1 then ((rx.spend n).setLane lane.endFullBurst.2).rotate
  else (rx.spend n).setLane lane.endFullBurst.2

theorem chunked_active {rest : List LaneKey} (lane : Lane) (m : Nat)
    (hact : rx.active = key :: rest) :
    (rx.chunked lane m).active = key :: rest ∨ (rx.chunked lane m).active = rest ++ [key] := by
  have hact' : ((rx.spend m).setLane lane.endFullBurst.2).active = key :: rest := by
    rw [Receiver.setLane, Receiver.spend]
    exact hact
  unfold Receiver.chunked
  split
  · exact .inr (rotate_active hact')
  · exact .inl hact'

theorem chunked_items {m : Nat} :
    (rx.chunked lane m).itemsUntilReadyPoll = (rx.spend m).itemsUntilReadyPoll := by
  unfold Receiver.chunked
  split
  · rw [Receiver.rotate, Receiver.setLane]
  · rw [Receiver.setLane]

/-- The counters of the front lane are stored after a chunk of it was moved. -/
theorem View.endFullBurst {m : Nat} {rest : List LaneKey}
    (hv : View S { x with hot := some lane.ix, taken := m } rx s) (hhot : x.hot = none)
    (hout : x.out = none) (hact : rx.active = key :: rest) (hothers : key ∉ rest)
    (hl : CopyOf rx lane) (hkey : lane.key = key) (hq : lane.queued = true)
    (hn : LaneCounts s lane) (hu : lane.unreleased < lane.releaseBatch) (hf : lane.fastLeft = 0)
    (hturn : InTurn S none m rx lane) (hfull : lane.burst = prefetchLimit → 0 < m) :
    View S x (if lane.endFullBurst.1 then (rx.setLane lane.endFullBurst.2).rotate
      else rx.setLane lane.endFullBurst.2) s := by
  have hend := LaneOk.endFullBurst hn hu hf
  by_cases hb : lane.burst = prefetchLimit
  · -- the turn is over, so the lane goes to the end before its counters are stored
    rw [show lane.endFullBurst = (true, { lane with burst := 0 }) by simp [Lane.endFullBurst, hb]]
      at hend ⊢
    have hrot := hv.rotate hout fun key' l hk' hl₁ => ?_
    · rw [show ({ x with hot := some lane.ix, taken := m, out := none } : Ctx V) =
        { x with hot := some lane.ix, taken := m } by rw [← hout]] at hrot
      have hl₂ : CopyOf rx.rotate { lane with burst := 0 } := hl.of_skel rfl
      refine View.store (by exact hrot) hhot hl₂ hend.1 (fun hpos => ?_)
        (.inr (.inl hq)) (.inr (.inl ?_))
      · exact absurd hf hpos.ne'
      · rw [rotate_active hact, hout, hkey]
        simpa using hothers
    · rw [hact] at hk'
      cases hk'
      obtain ⟨l₀, hl₀, hsk₀⟩ := hl
      rw [hkey] at hl₀
      cases hl₀.symm.trans hl₁
      rw [show l.ix = lane.ix from congrArg Held.ix hsk₀]
      exact ⟨.inl rfl, hv.turned_of_taken rfl (hfull hb)⟩
  · rw [show lane.endFullBurst = (false, lane) by simp [Lane.endFullBurst, hb]] at hend ⊢
    refine hv.store hhot hl hend.1 (fun hpos => absurd hf hpos.ne') (.inr (.inl hq)) ?_
    rw [hout]
    exact hturn

/-- What one step of a drain on a lane that holds data leaves. -/
def Chunked (S : Setting) (limit : Nat) (accept : Option (List V → V → Bool)) (h : List (Nat × V))
    (c : Bool) (n : Nat) (rx : Receiver) (lane : Lane) (output : List (Item V)) (s : Chan V)
    (r : Receiver.Drain V ⊕ (Receiver.Drained V × Receiver)) : Prop :=
  let take := min (min (limit - output.length) rx.itemsUntilReadyPoll) lane.chunkLimit
  ∃ (vs : List V) (lane₁ : Lane), vs.length ≤ take ∧ (accept = none → vs.length = take) ∧
    View S { Ctx.draining h c n (output ++ vs.map (⟨lane.ix, none, ·⟩)) with
      refused := decide (vs.length < take) } (rx.chunked lane₁ vs.length) s ∧
    r = if vs.length < take
      then .inr (⟨output ++ vs.map (⟨lane.ix, none, ·⟩), true⟩, rx.chunked lane₁ vs.length)
      else .inl ⟨rx.chunked lane₁ vs.length, output ++ vs.map (⟨lane.ix, none, ·⟩)⟩

theorem drainLane_spec (rx : Receiver) {limit : Nat} {accept : Option (List V → V → Bool)}
    {output : List (Item V)} {rest : List LaneKey} (hact : rx.active = key :: rest)
    (hl : CopyOf rx lane) (hkey : lane.key = key) (hp : rx.paused key.slot = false)
    (hq : lane.queued = true) (hfast : lane.fastLeft = 0) (hturn : InTurn S none 0 rx lane)
    (hothers : key ∉ rest) :
    Triple (recvC P S)
      (fun s => View S { Ctx.draining h c n output with hot := some lane.ix } rx s ∧
        LaneOk s lane) (Receiver.drainLane limit accept rx lane output)
      fun r s => Chunked S limit accept h c n rx lane output s r := by
  unfold Receiver.drainLane
  refine Triple.given (fun s _ hs => And.intro hs.2.burst_lt hs.2.unreleased_lt.le)
    fun hguard => Triple.ensure ⟨hguard.1.le, hguard.2⟩ ?_
  extract_lets _ take
  have htake : take ≤ lane.chunkLimit := Nat.min_le_right ..
  have hitems : take ≤ rx.itemsUntilReadyPoll :=
    le_trans (Nat.min_le_left ..) (Nat.min_le_right ..)
  refine Triple.seq (moveChunk_spec (x := { Ctx.draining h c n output with hot := some lane.ix })
    rfl rfl rfl rfl hl hfast htake (.inl (by rw [hkey]; exact hp)) (by rw [hact, hkey]; rfl) ?_
    hturn) fun r => ?_
  · exact le_of_eq_of_le (Nat.zero_add _) hitems
  obtain ⟨vs, lane₁⟩ := r
  refine Triple.given (φ := vs.length ≤ take ∧ (accept = none → vs.length = take) ∧
      lane₁.skel = lane.skel ∧ lane₁.fastLeft = 0 ∧ lane₁.unreleased < lane₁.releaseBatch ∧
      lane₁.spent = lane.spent + vs.length) (fun s _ hm => ⟨hm.now.le, hm.now.all, hm.now.skel,
        hm.now.fast, hm.now.unreleased_lt, hm.now.spent⟩)
    fun ⟨hle, hall, hsk, hf₁, hu, hspent⟩ => ?_
  have hix : lane₁.ix = lane.ix := congrArg Held.ix hsk
  have hk₁ : lane₁.key = key := (congrArg Held.key hsk).trans hkey
  have hl' : CopyOf (rx.spend vs.length) lane := by
    obtain ⟨l₀, hl₀, hsk₀⟩ := hl
    exact ⟨l₀, by rw [spend_lanes]; exact hl₀, hsk₀⟩
  have hctx :
      ({ ({ Ctx.draining h c n output with hot := some lane.ix } : Ctx V).pulled lane.ix vs false
      with owed := none, refused := decide (vs.length < take) } : Ctx V) =
      { Ctx.draining h c n (output ++ vs.map (⟨lane.ix, none, ·⟩)) with
        hot := some lane.ix, taken := vs.length, unc := vs.length,
        refused := decide (vs.length < take) } := by
    rw [Ctx.draining_append]
    simp [Ctx.pulled, Ctx.draining, Ctx.holding, Ctx.base]
  refine Triple.map ((charge_spec rx vs.length (R := fun s => LaneCounts s lane₁)
    (x := { Ctx.draining h c n (output ++ vs.map (⟨lane.ix, none, ·⟩)) with
      hot := some lane.ix, taken := vs.length, unc := vs.length,
      refused := decide (vs.length < take) }) rfl rfl (LaneCounts.kept hl hix)
    (LaneCounts.kept hl' hix) fun s t hn => { hn with }).pre
    fun s _ hm => ⟨hctx ▸ hm.now.view, hm.now.counts⟩) fun rx₁ s _ hr => ?_
  obtain ⟨rfl, hv, hn⟩ := hr
  refine ⟨vs, lane₁, hle, hall, ?_, ?_⟩
  · unfold Receiver.chunked
    refine View.endFullBurst (m := vs.length)
      (x := { Ctx.draining h c n (output ++ vs.map (⟨lane.ix, none, ·⟩)) with
        refused := decide (vs.length < take) }) (by rw [hix]; exact hv) rfl rfl
      (by rw [Receiver.spend]; exact hact) hothers (hl'.of_skel hsk) hk₁
      ((congrArg Held.queued hsk).trans hq) hn hu hf₁ ?_ fun hfull => ?_
    · rw [InTurn, hk₁, ← hkey, spend_lanes, show (rx.spend vs.length).active = rx.active by
        rw [Receiver.spend]]
      refine hturn.imp_right (Or.imp_right fun hle l₀ hl₀ => ?_)
      have := hle l₀ hl₀
      omega
    · have := hguard.1
      simp only [Lane.spent] at hspent
      omega
  · rw [← hix]
    rfl

/-- A drain between two rounds; `σ` is what it was known to start from. -/
def Draining (S : Setting) (limit : Nat) (h : List (Nat × V)) (c : Bool) (σ : Prop) (n : Nat)
    (d : Receiver.Drain V) (s : Chan V) : Prop :=
  Plain limit d.output ∧ (σ → d.output = [] → d.rx.Solvent) ∧
    View S (.draining h c n d.output) d.rx s

/-- A predicate can have refused a value: there is one, and there was a value to offer to it. -/
def Refusable (a : Aim) (accept : Option (List V → V → Bool)) : Prop :=
  accept ≠ none ∧ ∀ dry, a ≠ .alone dry

/-- What a drain leaves: it was stopped, or there was nothing left. -/
def DrainEnd (S : Setting) (limit : Nat) (accept : Option (List V → V → Bool)) (h : List (Nat × V))
    (c : Bool) (σ : Prop) (rx' : Receiver) (s : Chan V) (r : Receiver.Drained V) : Prop :=
  Plain limit r.output ∧ (σ → r.output = [] → rx'.Solvent) ∧ ∃ n,
    ((r.rejected = true ∧ Refusable S.aim accept ∨
          r.rejected = false ∧ r.output.length = limit) ∧
        View S { Ctx.draining h c n r.output with refused := r.rejected } rx' s ∨
      r.rejected = false ∧ rx'.active = [] ∧
        View S ((Ctx.draining h c n r.output).afterCollect true) rx' s)

/-- What one round of a drain leaves; `i` is the rank it started from. -/
def DrainStep (S : Setting) (limit : Nat) (accept : Option (List V → V → Bool))
    (h : List (Nat × V)) (c : Bool) (σ : Prop) (i : Rank) (s : Chan V) :
    Receiver.Drain V ⊕ (Receiver.Drained V × Receiver) → Prop
  | .inl d => ∃ n, Nearer S.aim (c || !d.output.isEmpty) (rankOf S.aim n d.rx) i ∧
      Draining S limit h c σ n d s
  | .inr (r, rx) => DrainEnd S limit accept h c σ rx s r

/-- A lane with a window that is still to be popped is not one of those that were read to their
    end. -/
theorem View.not_alone (hv : View S x rx s) (hc : Core P s) (hl : CopyOf rx lane)
    (hok : LaneOk s lane) (hpos : 0 < lane.cachedAvailable) (hp : rx.paused lane.key.slot = false)
    {all : Bool} : S.aim ≠ .alone (some all) := by
  intro ha
  have haim := hv.aim
  rw [ha] at haim
  obtain ⟨hk, hlt, hst, hsh⟩ := hv.held hl
  have hread :=
    (haim.2 all rfl).2 lane.ix hlt (by simp [hst]) hsh (.inr (.inr (by rw [← hk]; exact hp)))
  have h₁ := hok.window
  have h₂ := (hc.lane lane.ix).ok.cachedTail_le
  have h₃ := (hc.lane lane.ix).ok.tail_le
  omega

/-- A chunk brings the drain closer to its end, whether it moved a value or not. -/
theorem Refreshed.nearer {a : Aim} {m : Nat} {rx₁ : Receiver} {rest : List LaneKey} {c' : Bool}
    (hr : Refreshed a c rx rx₁) (hact : rx₁.active = key :: rest) (hnot : ∀ dry, a ≠ .alone dry)
    (hc : c' = true ∨ c = false ∧ rx₁.itemsUntilReadyPoll = 0) :
    Nearer a c' (rankOf a n (rx₁.chunked lane m)) (rankOf a n rx) := by
  match a with
  | .free _ => trivial
  | .alone dry => exact absurd rfl (hnot dry)
  | .target ℓ q =>
    refine hc.imp_right fun ⟨hcf, h₀⟩ => .inl ?_
    have hnil : rx.active = [] := hr.due h₀
    have hm : q.key ∈ rx₁.active := by
      rcases hr.step ℓ q rfl hcf with h | h | h
      · exact h.2
      · exact absurd h₀ h.2
      · rw [h, hnil] at hact
        cases hact
    have hm' : q.key ∈ (rx₁.chunked lane m).active := by
      rw [hact] at hm
      rcases chunked_active lane m hact with h | h
      · rwa [h]
      · rw [h]
        simpa [or_comm] using hm
    simp [rankOf, hnil, hm']

theorem Chunked.ends {limit : Nat} {accept : Option (List V → V → Bool)} {σ : Prop}
    {d : Receiver.Drain V} {rx₁ : Receiver} {rest : List LaneKey}
    {r : Receiver.Drain V ⊕ (Receiver.Drained V × Receiver)}
    (hch : Chunked S limit accept h c n rx₁ lane d.output s r)
    (hr : Refreshed S.aim (c || !d.output.isEmpty) d.rx rx₁) (hact : rx₁.active = key :: rest)
    (hnot : ∀ dry, S.aim ≠ .alone dry) (hlt : d.output.length < limit)
    (hlane : 0 < lane.chunkLimit) (hplain : Plain limit d.output)
    (hsol : σ → d.output = [] → d.rx.Solvent) (hitems : rx₁.itemsUntilReadyPoll < usize) :
    DrainStep S limit accept h c σ (rankOf S.aim n d.rx) s r := by
  obtain ⟨vs, lane₁, hle, hall, hv, hres⟩ := hch
  have hplain' : Plain limit (d.output ++ vs.map (⟨lane.ix, none, ·⟩)) := by
    refine ⟨?_, fun item hm => ?_⟩
    · rw [List.length_append, List.length_map]
      omega
    · rcases List.mem_append.mp hm with hm | hm
      · exact hplain.2 item hm
      · obtain ⟨v, -, rfl⟩ := List.mem_map.mp hm
        rfl
  have hsol' : σ → d.output ++ vs.map (⟨lane.ix, none, ·⟩) = [] →
      (rx₁.chunked lane₁ vs.length).Solvent := by
    intro hσ hnil h₀
    obtain ⟨hnil₀, hvs⟩ := List.append_eq_nil_iff.mp hnil
    obtain rfl := List.map_eq_nil_iff.mp hvs
    rw [chunked_items, List.length_nil, spend_items (Nat.zero_le _) hitems] at h₀
    exact absurd h₀ (hr.solvent (hsol hσ hnil₀))
  split at hres
  · next hlt' =>
    subst hres
    rw [decide_eq_true hlt'] at hv
    exact ⟨hplain', hsol', n, .inl ⟨.inl ⟨rfl, fun ha => absurd (hall ha) hlt'.ne, hnot⟩, hv⟩⟩
  · next hlt' =>
    subst hres
    rw [decide_eq_false hlt'] at hv
    refine ⟨n, hr.nearer hact hnot ?_, hplain', hsol', hv⟩
    by_cases hvs : vs = []
    · -- nothing was moved, so the budget was used up
      subst hvs
      simp only [List.map_nil, List.append_nil]
      by_cases hc : (c || !d.output.isEmpty) = true
      · exact .inl hc
      · refine .inr ⟨by simpa using hc, ?_⟩
        simp only [List.length_nil] at hlt'
        omega
    · exact .inl (by simp [hvs])

theorem drainRound_spec {limit : Nat} {accept : Option (List V → V → Bool)} {σ : Prop}
    {d : Receiver.Drain V} (hdry : S.aim ≠ .alone none) (hplain : Plain limit d.output)
    (hsol : σ → d.output = [] → d.rx.Solvent) :
    Triple (recvC P S) (View S (.draining h c n d.output) d.rx)
      (Receiver.drainRound P limit accept d)
      fun r s => DrainStep S limit accept h c σ (rankOf S.aim n d.rx) s r := by
  unfold Receiver.drainRound
  split
  swap
  · next hge =>
    intro s hs hv s' he
    exact ⟨hplain, hsol, n, .inl ⟨.inr ⟨rfl, le_antisymm hplain.1 (not_lt.mp hge)⟩,
      View.stable.env he hs hv⟩⟩
  next hlt =>
  refine Triple.seq refreshActive_spec fun r => ?_
  obtain ⟨ready, rx₁⟩ := r
  refine Triple.given (φ := Refreshed S.aim (c || !d.output.isEmpty) d.rx rx₁)
    (fun s _ hr => hr.now.1) fun hr => ?_
  cases ready with
  | false =>
    refine Triple.done fun s _ hv => ⟨hplain, fun hσ hnil h₀ => ?_, n, .inr ⟨rfl, hv.2⟩⟩
    exact absurd h₀ (hr.solvent (hsol hσ hnil))
  | true =>
    refine Triple.given (φ := rx₁.active ≠ []) (fun s _ hv => hv.now.2.1) fun hne => ?_
    obtain ⟨key, rest, hact⟩ := List.exists_cons_of_ne_nil hne
    refine Triple.pre (P := View S (.draining h c n d.output) rx₁) ?_ fun s _ hv => hv.now.2.2
    refine Triple.given (fun s _ hv => And.intro (hv.front hact) hv.items_lt) ?_
    rintro ⟨⟨lane, hf⟩, hitems⟩
    simp only [if_true, hact, lane?_eq hf.held hf.named]
    refine Triple.seq ((refill_spec (x := { Ctx.draining h c n d.output with hot := some lane.ix })
      rfl rfl rfl rfl rfl rfl hf.copy).pre fun s _ hv =>
      ⟨hv.heat rfl rfl _, hv.counters _ lane hf.held
        (by simp [Ctx.draining, Ctx.holding, Ctx.base])⟩) fun r => ?_
    obtain ⟨verdict, lane₁⟩ := r
    cases verdict with
    | some e =>
      refine Triple.given (fun s _ hs => And.intro hs.now.1 hs.now.2.ix) ?_
      rintro ⟨hempty, hix⟩
      refine (Settled.tell_spec (S := S) (e := e)
        (x := { Ctx.draining h c n d.output with hot := some lane.ix })
        (T := fun r s => DrainStep S limit accept h c σ (rankOf S.aim n d.rx) s r)
        (k := (Receiver.settleEmptyFront P (rx₁.setLane lane₁) key e).bind fun rx' =>
          Prog.ret (Sum.inl (Receiver.Drain.mk rx' d.output))) rfl hf.copy
        (Triple.map (settleEmptyFront_spec hf hempty) fun rx' s _ hr' => ?_)).pre
        fun s _ hs => hs.now.2
      obtain ⟨n', hcl, hv⟩ := hr'
      refine ⟨n', hcl.nearer hr.keep hr.step, hplain, fun hσ hnil h₀ => ?_, hv⟩
      exact absurd (hcl.items.symm.trans h₀) (hr.solvent (hsol hσ hnil))
    | none =>
      refine Triple.given (φ := lane₁.skel = lane.skel ∧ lane₁.fastLeft = 0 ∧ 0 < lane₁.chunkLimit ∧
          (∀ dry, S.aim ≠ .alone dry) ∧ lane₁.spent = lane.spent) (fun s hi hs => ?_) ?_
      · obtain ⟨hsk, hf₁, hpos, hok, hv, hspent⟩ := hs.now
        refine ⟨hsk, hf₁, ?_, fun dry ha => ?_, hspent⟩
        · have h₁ := hok.unreleased_lt
          have h₂ := hok.burst_lt
          simp only [Lane.chunkLimit]
          omega
        · cases dry with
          | none => exact hdry ha
          | some all =>
            refine hv.not_alone hi.core (hf.copy.of_skel hsk) hok hpos ?_ ha
            rw [show lane₁.key = key from (congrArg Held.key hsk).trans hf.named]
            exact hf.unpaused
      · rintro ⟨hsk, hf₁, hpos, hnot, hspent⟩
        have hix : lane₁.ix = lane.ix := congrArg Held.ix hsk
        have hkey : lane₁.key = key := (congrArg Held.key hsk).trans hf.named
        refine (drainLane_spec rx₁ hact (hf.copy.of_skel hsk) hkey hf.unpaused
          ((congrArg Held.queued hsk).trans hf.queued) hf₁ (.inr (.inr fun l₀ hl₀ => ?_))
          fun hm => hf.others key hm rfl).conseq (fun s _ hs => ?_)
          fun r s _ hch => hch.ends hr hact hnot hlt hpos hplain hsol hitems
        · rw [hkey, hf.held] at hl₀
          rw [hspent, ← Option.some.inj hl₀]
          exact le_rfl
        · rw [hix]
          exact ⟨hs.now.2.2.2.2.1, hs.now.2.2.2.1⟩

theorem DrainEnd.stable {limit : Nat} {accept : Option (List V → V → Bool)} {σ : Prop}
    {r : Receiver.Drained V} :
    (recvC P S).Stable fun s => DrainEnd S limit accept h c σ rx s r := by
  rintro s s' hs hs' hr ⟨hplain, hsol, n, ⟨hend, hv⟩ | ⟨hrej, hact, hv⟩⟩
  · exact ⟨hplain, hsol, n, .inl ⟨hend, View.stable s s' hs hs' hr hv⟩⟩
  · exact ⟨hplain, hsol, n, .inr ⟨hrej, hact, View.stable s s' hs hs' hr hv⟩⟩

/-- **A drain** appends what it pops, and ends when it is stopped or there is nothing left. -/
theorem drainInto_spec (limit : Nat) (accept : Option (List V → V → Bool))
    (hdry : S.aim ≠ .alone none) (hu : ∀ c, S.Urgent c) :
    Triple (recvC P S) (View S (.holding h c n) rx) (rx.drainInto P limit accept) fun r s =>
      DrainEnd S limit accept h c rx.Solvent r.2 s r.1 := by
  let I : Rank → Receiver.Drain V → Chan V → Prop := fun i d s =>
    ∃ n₁, i = rankOf S.aim n₁ d.rx ∧ Draining S limit h c rx.Solvent n₁ d s
  refine Triple.iterate Rank.wf I ?_ (fun s _ hv => ⟨_, n, rfl, ?_⟩) (fun _ => DrainEnd.stable)
    fun i d => ?_
  · rintro s s' hs hs' hr ⟨i, n₁, hn₁, hplain, hsol, hv⟩
    exact ⟨i, n₁, hn₁, hplain, hsol, View.stable s s' hs hs' hr hv⟩
  · refine ⟨⟨Nat.zero_le _, by simp⟩, fun hsol _ => hsol, ?_⟩
    simpa [Ctx.draining] using hv
  · rintro s hs ⟨n₁, rfl, hplain, hsol, hv⟩
    refine ((drainRound_spec hdry hplain hsol).post fun r s _ hr => ?_) s hs hv
    match r with
    | .inl d' =>
      obtain ⟨n', hn', hd⟩ := hr
      exact ⟨_, hn'.lt (hu _) hd.2.2 rfl, n', rfl, hd⟩
    | .inr (r, rx') => exact hr

/-! ## Bulk receives -/

/-- What a bulk receive leaves when it returns. -/
def BatchReturned (S : Setting) (limit : Nat) (accept : Option (List V → V → Bool))
    (h : List (Nat × V)) (c : Bool) (rx' : Receiver) (s : Chan V)
    (r : List (Item V) × Except RecvError Nat) : Prop :=
  Plain limit r.1 ∧ ∃ n, match r.2 with
    | .ok m => m = r.1.length ∧ (r.1 = [] → limit = 0 ∨ Refusable S.aim accept) ∧
        ∃ b, (b = true ∨ r.1.length = limit ∨ rx'.active = []) ∧
          View S { Ctx.draining h c n r.1 with refused := b } rx' s
    | .error e => r.1 = [] ∧ (limit ≠ 0 ∧ S.Excuses c e) ∧ NoValue S (.holding h c n) rx' s e

theorem BatchReturned.stable {limit : Nat} {accept : Option (List V → V → Bool)}
    {r : List (Item V) × Except RecvError Nat} :
    (recvC P S).Stable fun s => BatchReturned S limit accept h c rx s r := by
  rintro s s' hs hs' hr ⟨hplain, n, hn⟩
  refine ⟨hplain, n, ?_⟩
  match r with
  | (_, .ok m) =>
    obtain ⟨hm, hnil, b, hb, hv⟩ := hn
    exact ⟨hm, hnil, b, hb, View.stable s s' hs hs' hr hv⟩
  | (_, .error e) => exact ⟨hn.1, hn.2.1, NoValue.stable s s' hs hs' hr hn.2.2⟩

theorem DrainEnd.ok {limit : Nat} {accept : Option (List V → V → Bool)} {σ : Prop}
    {r : Receiver.Drained V} (hd : DrainEnd S limit accept h c σ rx s r)
    (hne : ¬(r.output.length = 0 ∧ limit ≠ 0 ∧ r.rejected = false)) :
    BatchReturned S limit accept h c rx s (r.output, .ok r.output.length) := by
  obtain ⟨hplain, -, n, hn⟩ := hd
  refine ⟨hplain, n, rfl, fun (hnil : r.output = []) => ?_, ?_⟩
  · rcases hn with ⟨⟨-, ha⟩ | ⟨-, hlen⟩, -⟩ | ⟨hrej, -⟩
    · exact .inr ha
    · exact .inl (by rw [← hlen, hnil]; rfl)
    · by_contra hcon
      exact hne ⟨by rw [hnil]; rfl, fun h₀ => hcon (.inl h₀), hrej⟩
  · rcases hn with ⟨hend, hv⟩ | ⟨-, hact, hv⟩
    · exact ⟨_, hend.imp And.left fun h => .inl h.2, hv⟩
    · exact ⟨false, .inr (.inr hact), hv.ofCollect⟩

theorem Ctx.draining_nil : Ctx.draining h c n [] = .holding h c n := by
  simp [Ctx.draining]

theorem SameRotation.solvent (hs : SameRotation rx rx') (h : rx.Solvent) : rx'.Solvent := by
  rwa [Receiver.Solvent, hs.items, hs.active]

/-- What a drain left stays as it is while slots are given back. -/
theorem DrainEnd.release {limit : Nat} {accept : Option (List V → V → Bool)} {σ : Prop}
    {r : Receiver.Drained V} (hsingle : S.single = none) :
    Triple (recvC P S) (fun s => DrainEnd S limit accept h c σ rx s r) rx.releaseConsumed
      fun rx' s => DrainEnd S limit accept h c σ rx' s r := by
  rintro s hs ⟨hplain, hsol, n, ⟨hend, hv⟩ | ⟨hrej, hact, hv⟩⟩
  · refine ((releaseConsumed_spec (x := { Ctx.draining h c n r.output with refused := r.rejected })
      rfl rfl rfl rfl hsingle Framed.true.steady).post fun rx' s _ hr => ?_) s hs ⟨hv, trivial⟩
    exact ⟨hplain, fun hσ hnil => hr.1.solvent (hsol hσ hnil), n, .inl ⟨hend, hr.2.1⟩⟩
  · refine ((releaseConsumed_spec
      (x := (Ctx.draining h c n r.output).afterCollect true) rfl rfl rfl rfl
      hsingle Framed.true.steady).post fun rx' s _ hr => ?_) s hs ⟨hv, trivial⟩
    exact ⟨hplain, fun hσ hnil => hr.1.solvent (hsol hσ hnil), n,
      .inr ⟨hrej, hr.1.active.trans hact, hr.2.1⟩⟩

/-- **`try_recv_batch_into`**, with or without a predicate. -/
theorem tryRecvBatch_spec (limit : Nat) (accept : Option (List V → V → Bool))
    (hdry : S.aim ≠ .alone none) (hu : ∀ c, S.Urgent c) (hsingle : S.single = none) :
    Triple (recvC P S) (View S (.holding h c n) rx) (rx.tryRecvBatch P limit accept) fun r s =>
      BatchReturned S limit accept h c r.2 s r.1 := by
  refine Triple.bind (drainInto_spec limit accept hdry hu) fun r => ?_
  obtain ⟨drained, rx₁⟩ := r
  refine Triple.bind (DrainEnd.release hsingle) fun rx₂ => ?_
  split
  · next hempty =>
    obtain ⟨hlen, hlimit, hrej⟩ := hempty
    have hnil : drained.output = [] := List.length_eq_zero_iff.mp hlen
    rintro s hs ⟨hplain, -, n₁, ⟨⟨hr, -⟩ | ⟨-, hl⟩, -⟩ | ⟨-, hact, hv⟩⟩
    · exact absurd (hrej.symm.trans hr) (by simp)
    · exact absurd (hl.symm.trans hlen) hlimit
    rw [hnil, Ctx.draining_nil] at hv
    have hb : Barren ((Ctx.holding h c n₁).afterCollect true) rx₂ :=
      ⟨⟨rfl, rfl, rfl, rfl, rfl, rfl, rfl⟩, rfl, rfl, rfl, hact⟩
    refine (Triple.map (noValue_spec (P := P) (S := S) hb) fun r s _ hr => ?_) s hs hv
    exact ⟨hplain, n₁, hnil, ⟨hlimit, hr.2.1⟩, hr.1.ofCollect⟩
  · next hne => exact Triple.ret BatchReturned.stable fun s _ hd => hd.ok hne

/-! ## Polling every lane -/

theorem View.enqueueAll (slots : List Nat) (hx : x.Calm) (hv : View S x rx s) :
    View S x (Receiver.enqueueAll slots rx) s := by
  induction slots generalizing rx with
  | nil => exact hv
  | cons slot slots ih =>
    rw [Receiver.enqueueAll]
    split
    · next lane hl =>
      split
      · next hq =>
        obtain ⟨hp, hfree⟩ : rx.paused slot = false ∧ lane.queued = false := by simpa using hq
        exact ih (hv.joins hx hl (by simp [hp]) hfree)
      · exact ih hv
    · exact ih hv

theorem enqueueAll_grown (slots : List Nat) : Grown rx (Receiver.enqueueAll slots rx) := by
  induction slots generalizing rx with
  | nil => exact .refl rx
  | cons slot slots ih =>
    rw [Receiver.enqueueAll]
    split
    · next lane _ =>
      split
      · have hg : Grown rx (rx.enqueue lane) := ⟨List.prefix_append .., rfl⟩
        exact hg.trans ih
      · exact ih
    · exact ih

/-- Lanes are put into the rotation, and the rotation is written down. -/
theorem queueAll_spec (slots : List Nat) {R : Chan V → Prop} (hx : x.Calm)
    (hR : Kept P S x (Receiver.enqueueAll slots rx) R) (hstep : ∀ s e, R s → R (s.record e)) :
    Triple (recvC P S) (fun s => View S x rx s ∧ R s)
      (Prog.write (Chan.record (.queued (Receiver.enqueueAll slots rx).active))) fun _ s =>
        View S x (Receiver.enqueueAll slots rx) s ∧ R s :=
  (recv_atomic hR.stable (fun _ => hR.stable) fun s hi h =>
    ⟨.queued hi h.1 hx.asleep h.1.roster.nodup, h.1.queued _, hstep s _ h.2⟩).pre
    fun _ _ h => ⟨h.1.enqueueAll slots hx, h.2⟩

theorem pollAllLanes_spec :
    Triple (recvC P S) (View S (.holding h c n) rx) rx.pollAllLanes fun rx' s =>
      Grown rx rx' ∧ View S (.holding h c n) rx' s := by
  have hcalm : (Ctx.holding h c n).Calm := Ctx.holding_calm
  refine Triple.seq (refreshRegistry_spec (b := false) (Y := fun rx₁ s => Grown rx rx₁ ∧
    View S (.holding h c n) rx₁ s) hcalm (List.Subset.refl _) (by simp)
    (fun _ => (Contract.Stable.pure _).and View.stable) fun s rx₁ _ hg _ hv => ⟨hg, hv⟩)
    fun rx₁ => ?_
  refine Triple.given (fun s _ hr => hr.now.1) fun hg => ?_
  exact Triple.map ((queueAll_spec _ hcalm (.pure True) fun _ _ h => h).pre
    fun s _ hr => ⟨hr.now.2, trivial⟩) fun _ s _ hr => ⟨hg.trans (enqueueAll_grown _), hr.1⟩

theorem tryRecvScan_spec (limit : Nat) (accept : List V → V → Bool) (hdry : S.aim ≠ .alone none)
    (hu : ∀ c, S.Urgent c) (hsingle : S.single = none) :
    Triple (recvC P S) (View S (.holding h c n) rx) (rx.tryRecvScan P limit accept) fun r s =>
      BatchReturned S limit (some accept) h c r.2 s r.1 := by
  refine Triple.seq pollAllLanes_spec fun rx₁ => ?_
  exact (tryRecvBatch_spec limit (some accept) hdry hu hsingle).pre fun s _ hr => hr.now.2

end Fanring.Mpsc
