import Fanring.Mpsc.BlockSpec

/-!
# The MPSC channel: dropping the receiver

Triples for `Receiver::drop`. From the moment the receiver says it is gone no lane can be
registered, so the lanes to close are the ones it holds and the ones still pending. `Tearing` is
what is known while they are closed one after another: which lanes are still to be closed, which one
is in hand, and that every other lane is closed for its sender and the sender was told.
-/

set_option autoImplicit false

namespace Fanring.Mpsc

open Conc Chan

variable {V : Type} {P : Params} {S : Setting} {s s' : Chan V} {ℓ : Nat} {x : Ctx V}
  {rx rx' : Receiver} {lane lane' : Lane}

/-! ## What is known of a teardown -/

/-- The receiver is gone, the lanes `l` are still to be closed and `c` is in hand. `b` says that the
    pending lanes were taken. -/
structure Tearing (P : Params) (l : List Nat) (c : Option (Nat × Owed)) (b : Bool) (s : Chan V) :
    Prop where
  dead : s.receiverAlive = false
  awake : s.data.sleep ≠ .asleep
  todo : ∀ ℓ ∈ l, ℓ < s.count ∧ s.stage ℓ = .adopted ∧ s.shut ℓ = false ∧ s.owed ℓ = .due
  nodup : l.Nodup
  /-- The lane that is being closed, or whose sender is being told. -/
  cur : ∀ ℓ o, c = some (ℓ, o) → ℓ < s.count ∧ s.stage ℓ = .adopted ∧ s.owed ℓ = o
  rest : ∀ ℓ < s.count, s.stage ℓ = .adopted → ℓ ∉ l → (∀ o, c ≠ some (ℓ, o)) →
    s.shut ℓ = true ∧ Shut P ℓ s ∧ s.owed ℓ = .settled
  pending : ∀ ℓ < s.count, s.stage ℓ = .pending → s.shut ℓ = false ∧ s.owed ℓ = .due
  swept : b = true → s.registry.pending = []
  /-- Nobody waits for a lane that is retired. -/
  retired : ∀ ℓ < s.count, s.stage ℓ = .retired → (s.ring ℓ).producerDropped = false →
    s.owed ℓ = .settled

/-- Nothing is registered with a receiver that is gone. -/
theorem SenderAct.count_eq (ha : SenderAct P ℓ s s') (hdead : s.receiverAlive = false) :
    s'.count = s.count ∧ s'.registry = s.registry := by
  cases ha with
  | register capacity halive _ => exact absurd (hdead.symm.trans halive) (by simp)
  | ring | space | swap | page | group | bump | wake | signal | reply | leave => exact ⟨rfl, rfl⟩

theorem Tearing.sender {todo : List Nat} {cur : Option (Nat × Owed)} {swept : Bool}
    (h : Tearing P todo cur swept s) (hc : Core P s) (hℓ : ℓ < s.count)
    (ha : SenderAct P ℓ s s') : Tearing P todo cur swept s' := by
  have hf := ha.frame hc hℓ
  obtain ⟨hcount, hreg⟩ := ha.count_eq h.dead
  exact
    { dead := hf.alive.trans h.dead
      awake := by
        rcases hf.sleep with hs | hs
        · exact hs ▸ h.awake
        · simp [hs]
      todo := fun ℓ' hm => by
        obtain ⟨h₁, h₂, h₃, h₄⟩ := h.todo ℓ' hm
        exact ⟨hcount.symm ▸ h₁, (hf.stage ℓ' h₁).trans h₂, (hf.shut ℓ' h₁).trans h₃,
          (hf.owed ℓ' h₁).trans h₄⟩
      nodup := h.nodup
      cur := fun ℓ' o hcur => by
        obtain ⟨h₁, h₂, h₃⟩ := h.cur ℓ' o hcur
        exact ⟨hcount.symm ▸ h₁, (hf.stage ℓ' h₁).trans h₂, (hf.owed ℓ' h₁).trans h₃⟩
      rest := fun ℓ' hlt hst hm hcur => by
        rw [hcount] at hlt
        obtain ⟨h₁, h₂, h₃⟩ := h.rest ℓ' hlt ((hf.stage ℓ' hlt).symm.trans hst) hm hcur
        exact ⟨(hf.shut ℓ' hlt).trans h₁, h₂.sender hlt ha, (hf.owed ℓ' hlt).trans h₃⟩
      pending := fun ℓ' hlt hst => by
        rw [hcount] at hlt
        obtain ⟨h₁, h₂⟩ := h.pending ℓ' hlt ((hf.stage ℓ' hlt).symm.trans hst)
        exact ⟨(hf.shut ℓ' hlt).trans h₁, (hf.owed ℓ' hlt).trans h₂⟩
      swept := fun hsw => (congrArg Registry.pending hreg).trans (h.swept hsw)
      retired := fun ℓ' hlt hst hd => by
        rw [hcount] at hlt
        refine (hf.owed ℓ' hlt).trans (h.retired ℓ' hlt ((hf.stage ℓ' hlt).symm.trans hst) ?_)
        by_contra hd'
        rw [ha.ring_eq hlt (by simpa using hd')] at hd
        exact hd' hd }

theorem Tearing.stable {todo : List Nat} {cur : Option (Nat × Owed)} {swept : Bool} :
    (recvC P S).Stable (Tearing (V := V) P todo cur swept) :=
  recvC_stable fun _ _ _ hc hℓ ha h => h.sender hc hℓ ha

/-! ## Closing one lane -/

section

variable {todo : List Nat} {swept : Bool}

/-- The next lane is taken in hand. -/
theorem Tearing.next (h : Tearing P (ℓ :: todo) none swept s) :
    Tearing P todo (some (ℓ, .due)) swept s := by
  obtain ⟨h₁, h₂, h₃, h₄⟩ := h.todo ℓ List.mem_cons_self
  exact
    { h with
      todo := fun ℓ' hm => h.todo ℓ' (List.mem_cons_of_mem _ hm)
      nodup := (List.nodup_cons.mp h.nodup).2
      cur := fun ℓ' o hcur => by
        cases hcur
        exact ⟨h₁, h₂, h₄⟩
      rest := fun ℓ' hlt hst hm hcur => by
        have hne : ℓ' ≠ ℓ := fun heq => hcur .due (by rw [heq])
        exact h.rest ℓ' hlt hst (fun hm' => by
          rcases List.mem_cons.mp hm' with heq | hm'
          · exact hne heq
          · exact hm hm') fun o ho => by cases ho }

/-- A step of closing the lane in hand keeps what is known of the others. -/
theorem Tearing.shutting {r : Ring V} (h : Tearing P todo (some (ℓ, .due)) swept s)
    (hnot : ℓ ∉ todo) :
    Tearing P todo (some (ℓ, .due)) swept (shutGhost ℓ ((ringL ℓ).set r s)) := by
  obtain ⟨hlt, hst, hdue⟩ := h.cur ℓ _ rfl
  have hshut : ∀ ℓ', ℓ' ≠ ℓ → (shutGhost ℓ ((ringL ℓ).set r s)).shut ℓ' = s.shut ℓ' :=
    fun _ hne => Function.update_of_ne hne ..
  have howed : ∀ ℓ', ℓ' ≠ ℓ → (shutGhost ℓ ((ringL ℓ).set r s)).owed ℓ' = s.owed ℓ' :=
    fun _ hne => Function.update_of_ne hne ..
  have hring : ∀ ℓ', ℓ' ≠ ℓ → (shutGhost ℓ ((ringL ℓ).set r s)).ring ℓ' = s.ring ℓ' :=
    fun _ hne => Function.update_of_ne hne ..
  exact
    { dead := h.dead
      awake := h.awake
      todo := fun ℓ' hm => by
        have hne : ℓ' ≠ ℓ := fun heq => hnot (heq ▸ hm)
        rw [hshut ℓ' hne, howed ℓ' hne]
        exact h.todo ℓ' hm
      nodup := h.nodup
      cur := fun ℓ' o hcur => by
        cases hcur
        exact ⟨hlt, hst, Function.update_self ..⟩
      rest := fun ℓ' hlt' hst' hm hcur => by
        have hne : ℓ' ≠ ℓ := fun heq => hcur .due (by rw [heq])
        rw [Shut, hshut ℓ' hne, howed ℓ' hne, hring ℓ' hne]
        exact h.rest ℓ' hlt' hst' hm hcur
      pending := fun ℓ' hlt' hst' => by
        have hne : ℓ' ≠ ℓ := fun heq => by
          rw [heq] at hst'
          cases hst.symm.trans hst'
        rw [hshut ℓ' hne, howed ℓ' hne]
        exact h.pending ℓ' hlt' hst'
      swept := h.swept
      retired := fun ℓ' hlt' hst' => by
        have hne : ℓ' ≠ ℓ := fun heq => by
          rw [heq] at hst'
          cases hst.symm.trans hst'
        rw [hring ℓ' hne, howed ℓ' hne]
        exact h.retired ℓ' hlt' hst' }

/-- The lane in hand is to be closed, or the receiver has begun to close it. -/
def TearingLane (P : Params) (l : List Nat) (b : Bool) (ℓ : Nat) (begun : Bool) (s : Chan V) :
    Prop :=
  Tearing P l (some (ℓ, .due)) b s ∧ s.shut ℓ = begun

theorem TearingLane.stable {begun : Bool} :
    (recvC P S).Stable (TearingLane (V := V) P todo swept ℓ begun) :=
  recvC_stable fun _ _ _ hc hℓ ha h =>
    ⟨h.1.sender hc hℓ ha, ((ha.frame hc hℓ).shut ℓ (h.1.cur ℓ _ rfl).1).trans h.2⟩

theorem begins_tearing (hnot : ℓ ∉ todo) :
    Begins P S ℓ (closeGhost ℓ) (TearingLane (V := V) P todo swept ℓ false)
      (TearingLane P todo swept ℓ true) := by
  intro s r hi h hr hok
  obtain ⟨hlt, hst, hdue⟩ := h.1.cur ℓ _ rfl
  refine ⟨⟨(hi.core.shut (by simp [hst]) hr hok).closing _, .closingLane hr h.2, h.1.awake,
    hi.trace⟩, ?_, Function.update_self ..⟩
  exact { h.1.shutting hnot with }

theorem teardown_tearing (hnot : ℓ ∉ todo) :
    Teardown P S ℓ (shutGhost ℓ) (TearingLane (V := V) P todo swept ℓ true) := by
  intro s r hi h hr hok
  obtain ⟨hlt, hst, hdue⟩ := h.1.cur ℓ _ rfl
  exact ⟨⟨hi.core.shut (by simp [hst]) hr hok, .shutting hr h.2, h.1.awake, hi.trace⟩,
    h.1.shutting hnot, Function.update_self ..⟩

/-- The lane in hand is closed, and its sender is being told. -/
def Telling (P : Params) (l : List Nat) (b : Bool) (ℓ : Nat) (o : Owed) (s : Chan V) : Prop :=
  Tearing P l (some (ℓ, o)) b s ∧ Shut P ℓ s

theorem Telling.stable {o : Owed} : (recvC P S).Stable (Telling (V := V) P todo swept ℓ o) :=
  Shut.stable Tearing.stable fun _ h => (h.cur ℓ _ rfl).1

theorem Telling.step {o o' : Owed} {c : WaitCell} (hnot : ℓ ∉ todo)
    (h : Telling P todo swept ℓ o s) :
    Telling P todo swept ℓ o' (((spaceL ℓ).set c s).setOwed ℓ o') := by
  obtain ⟨h, hsh⟩ := h
  obtain ⟨hlt, hst, -⟩ := h.cur ℓ _ rfl
  have howed : ∀ ℓ', ℓ' ≠ ℓ → (((spaceL ℓ).set c s).setOwed ℓ o').owed ℓ' = s.owed ℓ' :=
    fun _ hne => Function.update_of_ne hne ..
  refine ⟨{ h with todo := ?_, cur := ?_, rest := ?_, pending := ?_, retired := ?_ }, hsh⟩
  · intro ℓ' hm
    rw [howed ℓ' fun heq => hnot (heq ▸ hm)]
    exact h.todo ℓ' hm
  · intro ℓ' o hcur
    cases hcur
    exact ⟨hlt, hst, Function.update_self ..⟩
  · intro ℓ' hlt' hst' hm hcur
    have hne : ℓ' ≠ ℓ := fun heq => hcur o' (by rw [heq])
    rw [howed ℓ' hne]
    exact h.rest ℓ' hlt' hst' hm fun p hp => by
      cases hp
      exact hne rfl
  · intro ℓ' hlt' hst'
    rw [howed ℓ' fun heq => ?_]
    · exact h.pending ℓ' hlt' hst'
    · rw [heq] at hst'
      cases hst.symm.trans hst'
  · intro ℓ' hlt' hst'
    rw [howed ℓ' fun heq => ?_]
    · exact h.retired ℓ' hlt' hst'
    · rw [heq] at hst'
      cases hst.symm.trans hst'

/-- The lane in hand is done with. -/
theorem Telling.done (hc : Core P s) (h : Telling P todo swept ℓ .settled s) :
    Tearing P todo none swept s := by
  obtain ⟨h, hsh⟩ := h
  obtain ⟨hlt, hst, ho⟩ := h.cur ℓ _ rfl
  refine { h with cur := fun ℓ' o hcur => (by cases hcur), rest := fun ℓ' hlt' hst' hm _ => ?_ }
  by_cases hne : ℓ' = ℓ
  · subst hne
    have hclosed : (s.ring ℓ').closed = true ∨ (s.ring ℓ').consumerDropped = true := by
      have hsh' := hsh
      rw [Shut] at hsh'
      cases hp : P.coordinated with
      | false => exact .inr (by rwa [hp] at hsh')
      | true => exact .inl (by rwa [hp] at hsh')
    refine ⟨?_, hsh, ho⟩
    rcases (hc.lane ℓ').closed hclosed with h' | h'
    · exact h'
    · cases hst.symm.trans h'
  · exact h.rest ℓ' hlt' hst' hm fun o ho => by
      cases ho
      exact hne rfl

theorem shutLane_spec (hopen : lane.isOpen = true) :
    Triple (recvC P S) (Tearing P (lane.ix :: todo) none swept) (Receiver.shutLane P lane)
      fun _ => Tearing (V := V) P todo none swept := by
  refine Triple.given (φ := lane.ix ∉ todo) (fun s _ h => (List.nodup_cons.mp h.nodup).1)
    fun hnot => ?_
  unfold Receiver.shutLane
  rw [if_pos hopen]
  refine Triple.bind (Q := fun _ => Telling P todo swept lane.ix .due)
    ((closeConsumer_spec TearingLane.stable TearingLane.stable
      (Shut.stable TearingLane.stable fun _ h => (h.1.cur _ _ rfl).1) (begins_tearing hnot)
      (teardown_tearing hnot) fun _ => rfl).conseq
        (fun s _ h => ⟨h.next, (h.todo _ List.mem_cons_self).2.2.1⟩)
        fun _ s _ h => ⟨h.1.1, h.2⟩) fun _ => ?_
  exact (telling_spec (fun _ => Telling.stable) (fun _ s h => (h.1.cur _ _ rfl).2.2)
    (fun _ s h => h.1.awake) fun _ _ _ _ h => h.step hnot).post fun _ s hi h => h.done hi.core

theorem shutLanes_spec (lanes : List Lane) (hopen : ∀ lane ∈ lanes, lane.isOpen = true) :
    Triple (recvC P S) (Tearing P (lanes.map (·.ix)) none swept) (Receiver.shutLanes P lanes)
      fun _ => Tearing (V := V) P [] none swept := by
  induction lanes with
  | nil => exact Triple.ret Tearing.stable fun s _ h => h
  | cons lane lanes ih =>
    refine (shutLane_spec (hopen lane List.mem_cons_self)).bind fun _ => ?_
    exact ih fun lane' hm => hopen lane' (List.mem_cons_of_mem _ hm)

end

/-! ## The drop -/

/-- The receiver was dropped: every lane that is not retired is closed for its sender, and nobody is
    left who was not told. -/
structure Torn (P : Params) (s : Chan V) : Prop where
  dead : s.receiverAlive = false
  awake : s.data.sleep ≠ .asleep
  pending : s.registry.pending = []
  closed : ∀ ℓ < s.count, s.stage ℓ ≠ .retired → s.shut ℓ = true ∧ Shut P ℓ s
  settled : ∀ ℓ < s.count, (s.ring ℓ).producerDropped = false → s.owed ℓ = .settled

theorem Tearing.torn (h : Tearing P [] none true s) (hc : Core P s) : Torn P s := by
  have hpending : ∀ ℓ < s.count, s.stage ℓ ≠ .pending := fun ℓ hℓ hst => by
    have := (hc.mem_pending ℓ).mpr ⟨hℓ, hst⟩
    simp [h.swept rfl] at this
  refine ⟨h.dead, h.awake, h.swept rfl, fun ℓ hℓ hst => ?_, fun ℓ hℓ hd => ?_⟩
  · cases hs : s.stage ℓ with
    | pending => exact absurd hs (hpending ℓ hℓ)
    | retired => exact absurd hs hst
    | adopted =>
      obtain ⟨h₁, h₂, -⟩ := h.rest ℓ hℓ hs (by simp) (by simp)
      exact ⟨h₁, h₂⟩
  · cases hs : s.stage ℓ with
    | pending => exact absurd hs (hpending ℓ hℓ)
    | retired => exact h.retired ℓ hℓ hs hd
    | adopted => exact (h.rest ℓ hℓ hs (by simp) (by simp)).2.2

theorem Torn.sender (h : Torn P s) (hc : Core P s) (hℓ : ℓ < s.count) (ha : SenderAct P ℓ s s') :
    Torn P s' := by
  have hf := ha.frame hc hℓ
  obtain ⟨hcount, hreg⟩ := ha.count_eq h.dead
  refine ⟨hf.alive.trans h.dead, ?_, (congrArg Registry.pending hreg).trans h.pending,
    fun ℓ' hlt hst => ?_, fun ℓ' hlt hd => ?_⟩
  · rcases hf.sleep with hs | hs
    · exact hs ▸ h.awake
    · simp [hs]
  · rw [hcount] at hlt
    obtain ⟨h₁, h₂⟩ := h.closed ℓ' hlt fun hr => hst ((hf.stage ℓ' hlt).trans hr)
    exact ⟨(hf.shut ℓ' hlt).trans h₁, h₂.sender hlt ha⟩
  · rw [hcount] at hlt
    refine (hf.owed ℓ' hlt).trans (h.settled ℓ' hlt ?_)
    by_contra hd'
    rw [ha.ring_eq hlt (by simpa using hd')] at hd
    exact hd' hd

/-- Nobody waits for a lane that is retired. -/
theorem Core.retired_news (h : Core P s) (hst : s.stage ℓ = .retired) :
    (s.ring ℓ).producerDropped = true ∨ (s.ring ℓ).isClosed P.coordinated = true := by
  cases hsh : s.shut ℓ with
  | false => exact .inl ((h.lane ℓ).retired hst hsh).1
  | true => exact .inr ((h.lane ℓ).sealed hst hsh)

theorem leave_owed (hst : s.stage ℓ ≠ .retired) : (Receiver.leave s).owed ℓ = .due := if_neg hst

theorem leave_owed_retired (hst : s.stage ℓ = .retired) :
    (Receiver.leave s).owed ℓ = s.owed ℓ := if_pos hst

theorem Core.leaving (h : Core P s) : Core P (Receiver.leave s) :=
  { h with
    keys := { h.keys with }
    space := fun ℓ hℓ hsl => by
      obtain ⟨hw, hopen, hr⟩ := h.space ℓ hℓ hsl
      refine ⟨hw, hopen, .inl ?_⟩
      by_cases hst : s.stage ℓ = .retired
      · rw [leave_owed_retired hst]
        rcases hr with hr | ⟨-, hcl, -⟩
        · exact hr
        · rcases h.retired_news hst with hd | hd
          · exact absurd (hopen.symm.trans hd) (by simp)
          · exact absurd (hcl.symm.trans hd) (by simp)
      · rw [leave_owed hst]
        trivial }

theorem RecvAct.leave (h : Core P s) : RecvAct P s (Receiver.leave s) :=
  { RecvAct.refl P s with
    alive := fun h => by cases h
    news := fun ℓ => by
      by_cases hst : s.stage ℓ = .retired
      · exact .inl (h.retired_news hst)
      · exact .inr (.inl (leave_owed hst))
    tell := fun ℓ => by
      by_cases hst : s.stage ℓ = .retired
      · rw [leave_owed_retired hst]
        exact .idle _ _
      · rw [leave_owed hst]
        exact .due _ _ }

theorem Receiver.mem_held : lane ∈ rx.held ↔
    ∃ slot < rx.lanesLen, rx.lanes slot = some lane := by
  simp [Receiver.held]

/-- A lane is held once. -/
theorem View.held_nodup (hv : View S x rx s) : (rx.held.map (·.ix)).Nodup := by
  rw [Receiver.held, List.map_filterMap]
  refine List.Nodup.filterMap (fun a a' ℓ ha ha' => ?_) List.nodup_range
  simp only [Option.mem_def, Option.map_eq_some_iff] at ha ha'
  obtain ⟨l, hl, rfl⟩ := ha
  obtain ⟨l', hl', hix⟩ := ha'
  obtain ⟨hk, hslot, -⟩ := hv.roster.held a _ (Receiver.skel_lane hl)
  obtain ⟨hk', hslot', -⟩ := hv.roster.held a' _ (Receiver.skel_lane hl')
  have hkey : l'.key = l.key := hk'.trans ((congrArg s.key hix).trans hk.symm)
  exact hslot.symm.trans ((congrArg LaneKey.slot hkey).symm.trans hslot')

/-- From the receiver's view to the beginning of the teardown. -/
theorem View.leave (hv : View S .base rx s) :
    Tearing P (rx.held.map (·.ix)) none false (Receiver.leave s) where
  dead := rfl
  awake := hv.awake rfl
  todo ℓ hm := by
    obtain ⟨lane, hl, rfl⟩ := List.mem_map.mp hm
    obtain ⟨slot, -, hl⟩ := Receiver.mem_held.mp hl
    obtain ⟨-, -, hlt, hst, hsh⟩ := hv.roster.held slot _ (Receiver.skel_lane hl)
    have hst : s.stage lane.ix = .adopted := hst
    exact ⟨hlt, hst, hsh, leave_owed (by simp [hst])⟩
  nodup := hv.held_nodup
  cur ℓ o hcur := by cases hcur
  rest ℓ hℓ hst hm _ := by
    -- the receiver holds every lane it has adopted
    have hsh : s.shut ℓ = false := by
      by_contra hsh
      have := hv.closing ℓ hℓ hst (by simpa using hsh)
      cases this
    obtain ⟨h, hl, hix⟩ := hv.roster.adopted ℓ hℓ hst hsh
    obtain ⟨lane, hlane, rfl⟩ := Option.map_eq_some_iff.mp hl
    refine absurd (List.mem_map.mpr ⟨lane, Receiver.mem_held.mpr ⟨_, ?_, hlane⟩, hix⟩) hm
    exact (hv.roster.slot_lt _ _ hl).1
  pending ℓ hℓ hst := by
    have hst : s.stage ℓ = .pending := hst
    exact ⟨hv.roster.fresh ℓ hℓ hst, leave_owed (by simp [hst])⟩
  swept h := by cases h
  retired ℓ hℓ hst hd := (leave_owed_retired (s := s) hst).trans (hv.owed ℓ hℓ hd)

/-- The pending lanes are taken. -/
theorem Tearing.takePending (h : Tearing P [] none false s) (hc : Core P s) :
    Tearing P (((Receiver.takePending s).1.1).map (·.ix)) none true (Receiver.takePending s).2 := by
  have hmap : ((Receiver.takePending s).1.1).map (·.ix) = s.registry.pending := by
    simp [Receiver.takePending, Lane.new, Function.comp_def]
  have hin : ∀ ℓ ∈ s.registry.pending, (Receiver.takePending s).2.stage ℓ = .adopted :=
    fun ℓ hm => if_pos hm
  have hout : ∀ ℓ, ℓ ∉ s.registry.pending → (Receiver.takePending s).2.stage ℓ = s.stage ℓ :=
    fun ℓ hm => if_neg hm
  have hpending : ∀ ℓ < s.count, ℓ ∉ s.registry.pending → s.stage ℓ ≠ .pending :=
    fun ℓ hℓ hm hst => hm ((hc.mem_pending ℓ).mpr ⟨hℓ, hst⟩)
  rw [hmap]
  exact
    { dead := h.dead
      awake := h.awake
      todo := fun ℓ hm => by
        obtain ⟨hℓ, hst⟩ := (hc.mem_pending ℓ).mp hm
        exact ⟨hℓ, hin ℓ hm, h.pending ℓ hℓ hst⟩
      nodup := hc.pending_nodup
      cur := fun ℓ o hcur => by cases hcur
      rest := fun ℓ hℓ hst hm _ => by
        rw [hout ℓ hm] at hst
        exact h.rest ℓ hℓ hst (by simp) (by simp)
      pending := fun ℓ hℓ hst => by
        by_cases hm : ℓ ∈ s.registry.pending
        · cases (hin ℓ hm).symm.trans hst
        · exact absurd ((hout ℓ hm).symm.trans hst) (hpending ℓ hℓ hm)
      swept := fun _ => rfl
      retired := fun ℓ hℓ hst => by
        by_cases hm : ℓ ∈ s.registry.pending
        · cases (hin ℓ hm).symm.trans hst
        · exact h.retired ℓ hℓ ((hout ℓ hm).symm.trans hst) }

/-- **`Receiver::drop` reaches every lane.** -/
theorem drop_spec (ha : S.aim.Deaf) :
    Triple (recvC P S) (View S .base rx) (rx.drop P) fun _ => Torn (V := V) P := by
  refine Triple.bind (Q := fun _ => View S .base rx) ((dataStep_spec (R := fun _ => True) rfl ha
    (fun _ hc => hc) (Kept.pure _) fun _ _ h => h).conseq (fun s _ hv => ⟨hv, trivial⟩)
      fun _ s _ hv => hv.1) fun _ => ?_
  refine Triple.given (φ := ∀ lane ∈ rx.held, lane.isOpen = true) (fun s _ hv lane hm => ?_)
    fun hopen => ?_
  · obtain ⟨slot, -, hl⟩ := Receiver.mem_held.mp hm
    exact (hv.counters slot lane hl (by simp [Ctx.base])).isOpen
  refine Triple.bind (Q := fun _ => Tearing P (rx.held.map (·.ix)) none false)
    (recv_atomic View.stable (fun _ => Tearing.stable) fun s hi hv =>
      ⟨⟨hi.core.leaving, .leave hi.core, hv.awake rfl, hi.trace⟩, hv.leave⟩) fun _ => ?_
  refine (shutLanes_spec rx.held hopen).bind fun _ => ?_
  refine Triple.bind (Q := fun r s => Tearing P (r.1.map (·.ix)) none true s ∧
      ∀ lane ∈ r.1, lane.isOpen = true)
    (recv_atomic Tearing.stable (fun r => Tearing.stable.and (Contract.Stable.pure _))
      fun s hi h => ⟨⟨hi.core.takePending, ?_, h.awake, hi.trace⟩, h.takePending hi.core,
        fun lane hm => ?_⟩) fun r => ?_
  · exact { RecvAct.refl P s with }
  · obtain ⟨ℓ, -, rfl⟩ := List.mem_map.mp hm
    rfl
  · obtain ⟨pending, rest⟩ := r
    refine Triple.given (φ := ∀ lane ∈ pending, lane.isOpen = true) (fun s _ h => h.2)
      fun hopen => ?_
    exact (shutLanes_spec pending hopen).conseq (fun s _ h => h.1) fun _ s hi h => h.torn hi.core

end Fanring.Mpsc
