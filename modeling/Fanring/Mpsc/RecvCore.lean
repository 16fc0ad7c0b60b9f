import Fanring.Mpsc.Contract

/-!
# The MPSC channel: the receiver keeps the invariant

What one step of the receiver does to the channel: `Core` survives it, and to the senders it is a
`RecvAct`. The steps are grouped by what they touch: the consumer's side of a ring (`Pull` takes
values, the others publish or close), the cell of a waiting sender, the registry, the index.
-/

set_option autoImplicit false

namespace Fanring.Mpsc

open Conc Chan

variable {V : Type} {P : Params} {s s' : Chan V} {ℓ : Nat}

/-! ## What senders see of it -/

/-- Events that are about no lane. -/
theorem Recorded.of {e : List (Event V)} (h : s'.trace = s.trace ++ e)
    (hseen : ∀ ℓ, .seenEmpty ℓ ∉ e) (hpub : ∀ ℓ n m b f, .publish ℓ n m b f ∉ e)
    (hpop : ∀ a ∈ popped e, s.stage a.1 = .adopted)
    (hrel : ∀ ℓ, (s'.ring ℓ).released = (s.ring ℓ).released ∨ s'.shut ℓ = true ∨
      (s.ring ℓ).producerDropped = true) : Recorded s s' :=
  ⟨e, h, fun ℓ hm => absurd hm (hseen ℓ), fun ℓ n m b f hm => absurd hm (hpub ℓ n m b f), hpop,
    fun ℓ => (hrel ℓ).imp_right .inr⟩

theorem Recorded.same (h : s'.trace = s.trace)
    (hrel : ∀ ℓ, (s'.ring ℓ).released = (s.ring ℓ).released ∨ s'.shut ℓ = true ∨
      (s.ring ℓ).producerDropped = true) : Recorded s s' :=
  .of (e := []) (by rw [h, List.append_nil]) (by simp) (by simp) (by simp [popped]) hrel

theorem RecvAct.refl (P : Params) (s : Chan V) : RecvAct P s s where
  count := rfl
  key := rfl
  phase := rfl
  signaled := rfl
  completed := rfl
  dropMarked := rfl
  gone := rfl
  sent := rfl
  ring _ := .refl _
  news _ := .inr (.inr ⟨rfl, rfl, rfl⟩)
  tell _ := .idle _ _
  registered := le_rfl
  alive := id
  closing _ := .idle _ _
  recorded := .same rfl fun _ => .inl rfl
  rotation _ := .inl

/-- What else the trace goes on with. -/
theorem rotation_append {es : List (Event V)} (hes : ∀ keys, .queued keys ∉ es)
    (keys : List LaneKey) (h : .queued keys ∈ s.trace ++ es) :
    .queued keys ∈ s.trace ∨ keys.Nodup :=
  .inl ((List.mem_append.mp h).resolve_right (hes keys))

theorem consumeStep_update {r : Ring V} (hr : (s.ring ℓ).ConsumeStep r) :
    ∀ ℓ', (s.ring ℓ').ConsumeStep (Function.update s.ring ℓ r ℓ') :=
  forall_update (p := fun ℓ' r => (s.ring ℓ').ConsumeStep r) hr fun _ _ => .refl _

/-- A step on one ring that tells nobody. -/
theorem RecvAct.setRing {r : Ring V} (hr : (s.ring ℓ).ConsumeStep r) (es : List (Event V))
    (hseen : ∀ ℓ, .seenEmpty ℓ ∉ es) (hpub : ∀ ℓ n m b f, .publish ℓ n m b f ∉ es)
    (hqueued : ∀ keys, .queued keys ∉ es) (hpop : ∀ a ∈ popped es, s.stage a.1 = .adopted)
    (hnews : (s.ring ℓ).producerDropped = true ∨ r.released = (s.ring ℓ).released ∧
      r.isClosed P.coordinated = (s.ring ℓ).isClosed P.coordinated) :
    RecvAct P s { (ringL ℓ).set r s with trace := s.trace ++ es } :=
  { RecvAct.refl P s with
    ring := consumeStep_update hr
    recorded := .of rfl hseen hpub hpop (forall_update (p := fun ℓ (r : Ring V) =>
        r.released = (s.ring ℓ).released ∨ s.shut ℓ = true ∨ (s.ring ℓ).producerDropped = true)
      (hnews.elim (fun hd => .inr (.inr hd)) fun h => .inl h.1) fun _ _ => .inl rfl)
    rotation := rotation_append hqueued
    news := forall_update (p := fun ℓ (r : Ring V) =>
        ((s.ring ℓ).producerDropped = true ∨ (s.ring ℓ).isClosed P.coordinated = true) ∨
        s.owed ℓ = .due ∨ (r.released = (s.ring ℓ).released ∧
          r.isClosed P.coordinated = (s.ring ℓ).isClosed P.coordinated ∧
          s.receiverAlive = s.receiverAlive))
      (hnews.elim (fun hd => .inl (.inl hd)) fun h => .inr (.inr ⟨h.1, h.2, rfl⟩))
      fun _ _ => .inr (.inr ⟨rfl, rfl, rfl⟩) }

theorem RecvAct.quiet {r : Ring V} (hr : (s.ring ℓ).ConsumeStep r)
    (hnews : (s.ring ℓ).producerDropped = true ∨ r.released = (s.ring ℓ).released ∧
      r.isClosed P.coordinated = (s.ring ℓ).isClosed P.coordinated) :
    RecvAct P s ((ringL ℓ).set r s) := by
  have h := RecvAct.setRing (P := P) hr [] (by simp) (by simp) (by simp) (by simp [popped]) hnews
  rw [List.append_nil] at h
  exact h

/-- A step on one ring whose sender is to be told: its slots are published, or the lane is
    closed. -/
theorem RecvAct.setRing_due {r : Ring V} (hr : (s.ring ℓ).ConsumeStep r) (shut : Nat → Bool)
    (closings : Nat → Nat)
    (hclose : ∀ ℓ, CloseStep (s.shut ℓ) (s.closings ℓ) (shut ℓ) (closings ℓ))
    (es : List (Event V)) (hseen : ∀ ℓ, .seenEmpty ℓ ∉ es)
    (hpub : ∀ ℓ n m b f, .publish ℓ n m b f ∈ es → Published (s.ring ℓ) n m b f)
    (hqueued : ∀ keys, .queued keys ∉ es) (hpop : popped es = [])
    (hrel : (∃ n m b f, .publish ℓ n m b f ∈ es) ∨ shut ℓ = true) :
    RecvAct P s { ((ringL ℓ).set r s).setOwed ℓ .due with
      shut := shut, closings := closings, trace := s.trace ++ es } :=
  { RecvAct.refl P s with
    ring := consumeStep_update hr
    closing := hclose
    recorded := by
      refine ⟨es, rfl, fun ℓ' hm => absurd hm (hseen ℓ'), hpub, by simp [hpop], fun ℓ' => ?_⟩
      by_cases hne : ℓ' = ℓ
      · subst hne
        exact .inr (hrel.imp_right .inl)
      · exact .inl (by simp [Chan.setOwed, ringL, hne])
    rotation := rotation_append hqueued
    news := fun ℓ' => by
      by_cases hne : ℓ' = ℓ
      · subst hne
        exact .inr (.inl (Function.update_self ..))
      · refine .inr (.inr ⟨?_, ?_, rfl⟩) <;> simp [Chan.setOwed, ringL, hne]
    tell := forall_update (p := fun ℓ (o : Owed) => TellStep (s.owed ℓ) (s.space ℓ) o (s.space ℓ))
      (.due _ _) fun _ _ => .idle _ _ }

/-- The first step of closing a lane. -/
theorem RecvAct.closingLane {r : Ring V} (hr : (s.ring ℓ).ConsumeStep r)
    (hopen : s.shut ℓ = false) :
    RecvAct P s (closeGhost ℓ ((ringL ℓ).set r s)) := by
  have h := RecvAct.setRing_due (P := P) hr (Function.update s.shut ℓ true)
    (Function.update s.closings ℓ (s.closings ℓ + 1)) (fun ℓ' => ?_) [] (by simp) (by simp)
    (by simp) rfl
    (.inr (Function.update_self ..))
  · rw [List.append_nil] at h
    exact h
  · by_cases hne : ℓ' = ℓ
    · subst hne
      rw [Function.update_self, Function.update_self, hopen]
      exact .begin _
    · rw [Function.update_of_ne hne, Function.update_of_ne hne]
      exact .idle _ _

/-- A later step of closing a lane. -/
theorem RecvAct.shutting {r : Ring V} (hr : (s.ring ℓ).ConsumeStep r) (hshut : s.shut ℓ = true) :
    RecvAct P s (shutGhost ℓ ((ringL ℓ).set r s)) := by
  have h := RecvAct.setRing_due (P := P) hr (Function.update s.shut ℓ true) s.closings
    (fun ℓ' => ?_) [] (by simp) (by simp) (by simp) rfl (.inr (Function.update_self ..))
  · rw [List.append_nil] at h
    exact h
  · rw [show Function.update s.shut ℓ true = s.shut by rw [← hshut, Function.update_eq_self]]
    exact .idle _ _

/-- A step of telling a sender. -/
theorem RecvAct.setSpace {o : Owed} {c : WaitCell} (h : TellStep (s.owed ℓ) (s.space ℓ) o c) :
    RecvAct P s (((spaceL ℓ).set c s).setOwed ℓ o) :=
  { RecvAct.refl P s with
    news := fun _ => .inr (.inr ⟨rfl, rfl, rfl⟩)
    tell := fun ℓ' => by
      by_cases hne : ℓ' = ℓ
      · subst hne
        simpa [Chan.setOwed, spaceL] using h
      · simpa [Chan.setOwed, spaceL, hne] using TellStep.idle (s.owed ℓ') (s.space ℓ')  }

/-! ## Taking values -/

/-- A step of the consumer on a lane it holds: it took `vs`. -/
structure Pull (r r' : Ring V) (vs : List V) : Prop extends r.ConsumeStep r' where
  ok : r.Ok → r'.Ok
  taken : r'.log.take r'.head = r.log.take r.head ++ vs
  length : r'.head = r.head + vs.length
  released : r'.released = r.released
  closed_eq : r'.closed = r.closed
  consumerDropped_eq : r'.consumerDropped = r.consumerDropped

theorem Pull.isClosed_eq {r r' : Ring V} {vs : List V} (h : Pull r r' vs) (c : Bool) :
    r'.isClosed c = r.isClosed c := by
  cases c
  · exact h.consumerDropped_eq
  · exact h.closed_eq

theorem Pull.prefetch (r : Ring V) : Pull r (r.prefetch).2 [] where
  toConsumeStep := { Ring.ConsumeStep.refl r with }
  ok h := h.prefetch
  taken := by simp [Ring.prefetch]
  length := rfl
  released := rfl
  closed_eq := rfl
  consumerDropped_eq := rfl

/-- Taking the next `limit` values of the prefetched window. -/
theorem Pull.popInto {r : Ring V} (h : r.Ok) (limit : Nat) :
    Pull r (r.popInto limit).2 (r.popInto limit).1 where
  toConsumeStep := { Ring.ConsumeStep.refl r with head := Nat.le_add_right _ _ }
  ok h' := h'.advance (by rw [h.length_window]; have := h.head_le; omega)
  taken := by
    simp only [Ring.popInto, Ring.window, List.length_take, List.length_drop]
    rw [List.take_add]
    congr 1
    rw [List.take_eq_take_iff]
    simp only [List.length_drop]
    omega
  length := rfl
  released := rfl
  closed_eq := rfl
  consumerDropped_eq := rfl

theorem Pull.popAdmitted {r : Ring V} (h : r.Ok) (accept : Option (List V → V → Bool))
    (offered : List V) (limit : Nat) :
    Pull r (r.popAdmitted accept offered limit).2 (r.popAdmitted accept offered limit).1 := by
  cases accept with
  | none => exact .popInto h limit
  | some accept => exact .popInto h _

theorem Pull.pop {r : Ring V} (h : r.Ok) (hne : r.head < r.cachedTail) :
    ∃ v, (r.pop).1 = some v ∧ Pull r (r.pop).2 [v] := by
  have hlt : r.head < r.log.length :=
    lt_of_lt_of_le hne (le_trans h.cachedTail_le h.tail_le)
  refine ⟨r.log[r.head], by simp [Ring.pop, hne.ne, hlt], ?_⟩
  have hpop : (r.pop).2 = { r with head := r.head + 1 } := by simp [Ring.pop, hne.ne]
  rw [hpop]
  exact
    { toConsumeStep := { Ring.ConsumeStep.refl r with head := Nat.le_succ _ }
      ok := fun h' => h'.advance hne
      taken := (List.take_concat_get' r.log r.head hlt).symm
      length := rfl
      released := rfl
      closed_eq := rfl
      consumerDropped_eq := rfl }

section

variable {c d sh : Bool} {n : Nat} {st : Stage} {r r' : Ring V} {vs ws : List V}

theorem LaneInv.pull (h : LaneInv c r n d st sh ws) (hr : Pull r r' vs) (hst : st = .adopted)
    (hsh : sh = false) : LaneInv c r' n d st sh (ws ++ vs) where
  ok := hr.ok h.ok
  signaled_le := hr.tail ▸ h.signaled_le
  dropMarked hd := hr.producerDropped ▸ h.dropMarked hd
  closed hc := h.closed (by rwa [hr.closed_eq, hr.consumerDropped_eq] at hc)
  retired hst' := by simp [hst] at hst'
  sealed hst' := by simp [hst] at hst'
  fresh hst' := by simp [hst] at hst'
  popped_le := by
    rw [h.popped_eq hsh, ← hr.taken]
    exact List.take_prefix _ _
  popped_eq _ := by rw [h.popped_eq hsh, hr.taken]

theorem LaneInv.release (h : LaneInv c r n d st sh ws) :
    LaneInv c r.release.2 n d st sh ws :=
  { h with
    ok := h.ok.release
    fresh := fun hst hsh => by
      obtain ⟨h₁, h₂, -⟩ := h.fresh hst hsh
      exact ⟨h₁, h₂, h₁⟩ }

end

theorem Core.pull (h : Core P s) (hℓ : ℓ < s.count) (hst : s.stage ℓ = .adopted)
    (hsh : s.shut ℓ = false) {r : Ring V} {vs : List V} (hr : Pull (s.ring ℓ) r vs)
    {t : List (Event V)} (ht : popped t = popped s.trace ++ vs.map (ℓ, ·)) :
    Core P { (ringL ℓ).set r s with trace := t } :=
  { h with
    keys := { h.keys with }
    lane := fun ℓ' => by
      by_cases hne : ℓ' = ℓ
      · subst hne
        simpa only [ringL, Function.update_self, ht, ofLane_append, ofLane_self]
          using (h.lane ℓ').pull hr hst hsh
      · simpa only [ringL, Function.update_of_ne hne, ht, ofLane_append,
          ofLane_other (Ne.symm hne), List.append_nil] using h.lane ℓ'
    resumed_le := h.resumed_setRing hr.tail.ge
    popped_lt := fun e he => by
      rw [ht, List.mem_append, List.mem_map] at he
      rcases he with he | ⟨v, -, rfl⟩
      · exact h.popped_lt e he
      · exact hℓ
    returned := h.returned.trans (ht ▸ List.prefix_append _ _)
    space := fun ℓ' hlt hsl => by
      have := h.space ℓ' hlt hsl
      by_cases hne : ℓ' = ℓ
      · subst hne
        simpa [Stuck, ringL, hr.isClosed_eq, hr.cap, hr.log, hr.released, hr.producerDropped]
          using this
      · simpa [Stuck, ringL, hne] using this }

/-! ## Telling senders -/

theorem Core.release (h : Core P s) :
    Core P (setOwed ℓ .due ((ringL ℓ).set (s.ring ℓ).release.2 s)) :=
  { h with
    keys := { h.keys with }
    lane := forall_update (p := fun ℓ' (r : Ring V) => LaneInv P.coordinated r (s.signaled ℓ')
        (s.dropMarked ℓ') (s.stage ℓ') (s.shut ℓ') (ofLane ℓ' (popped s.trace)))
      (h.lane ℓ).release fun ℓ' _ => h.lane ℓ'
    resumed_le := h.resumed_setRing le_rfl
    space := fun ℓ' hlt hsl => by
      have := h.space ℓ' hlt hsl
      by_cases hne : ℓ' = ℓ
      · subst hne
        simpa [Chan.setOwed, Owed.soon, ringL, Ring.release] using ⟨this.1, this.2.1⟩
      · simpa [Stuck, Chan.setOwed, ringL, hne] using this }

/-- A sleeping sender that is owed a notification is still going to get it. -/
theorem TellStep.asleep {o o' : Owed} {c c' : WaitCell} {opened stuck : Prop}
    (h : TellStep o c o' c')
    (hc : c.sleep = .asleep → c.waiting = true ∧ opened ∧ (o.soon ∨ stuck))
    (hs : c'.sleep = .asleep) : c'.waiting = true ∧ opened ∧ (o'.soon ∨ stuck) := by
  cases h with
  | idle => exact hc hs
  | due => exact ⟨(hc hs).1, (hc hs).2.1, .inl trivial⟩
  | bump => exact ⟨(hc hs).1, (hc hs).2.1, .inl (hc hs).1⟩
  | wake more =>
    obtain ⟨hw, ho, h⟩ := hc hs
    refine ⟨hw, ho, h.imp_left fun h => ?_⟩
    simp only [Owed.soon] at h
    simp [h, Owed.soon]
  | signal =>
    -- the signal reaches a sleeper
    by_cases hsl : c.sleep = .asleep
    · simp [WaitCell.signal, hsl, (hc hsl).1] at hs
    · simp [WaitCell.signal, hsl] at hs

theorem Core.setSpace (h : Core P s) {o : Owed} {c : WaitCell}
    (ht : TellStep (s.owed ℓ) (s.space ℓ) o c) : Core P (((spaceL ℓ).set c s).setOwed ℓ o) :=
  { h with
    keys := { h.keys with }
    space := fun ℓ' hlt hsl => by
      by_cases hne : ℓ' = ℓ
      · subst hne
        simp only [Chan.setOwed, spaceL, Function.update_self] at hsl ⊢
        exact ht.asleep (h.space ℓ' hlt) hsl
      · simp only [Chan.setOwed, spaceL, Function.update_of_ne hne] at hsl ⊢
        exact h.space ℓ' hlt hsl }

/-! ## Closing lanes -/

section

variable {c d sh : Bool} {n : Nat} {st : Stage} {r r' : Ring V} {vs : List V}

/-- Closing the ring of a lane that was retired with nothing left in it. -/
theorem LaneInv.close (h : LaneInv c r n d .retired false vs) (hr : r.ConsumeStep r')
    (hok : r'.Ok) : LaneInv c r' n d .retired false vs := by
  obtain ⟨hd, hh⟩ := h.retired rfl rfl
  have hle : r'.head ≤ r.log.length := hr.log ▸ le_trans hok.head_le
    (le_trans hok.cachedTail_le hok.tail_le)
  have hhead : r'.head = r.head := le_antisymm (hh ▸ hle) hr.head
  exact
    { ok := hok
      signaled_le := hr.tail ▸ h.signaled_le
      dropMarked := fun hd => hr.producerDropped ▸ h.dropMarked hd
      closed := fun _ => .inr rfl
      retired := fun _ _ => by rw [hr.producerDropped, hhead, hr.log]; exact ⟨hd, hh⟩
      sealed := fun _ hsh => by simp at hsh
      fresh := fun hst => by simp at hst
      popped_le := hr.log ▸ h.popped_le
      popped_eq := fun _ => by rw [hr.log, hhead]; exact h.popped_eq rfl }

/-- Closing a lane, whatever is left in it. -/
theorem LaneInv.shut (h : LaneInv c r n d st sh vs) (hst : st ≠ .retired) (hr : r.ConsumeStep r')
    (hok : r'.Ok) : LaneInv c r' n d st true vs where
  ok := hok
  signaled_le := hr.tail ▸ h.signaled_le
  dropMarked hd := hr.producerDropped ▸ h.dropMarked hd
  closed _ := .inl rfl
  retired hst' := absurd hst' hst
  sealed hst' := absurd hst' hst
  fresh _ hsh := by simp at hsh
  popped_le := hr.log ▸ h.popped_le
  popped_eq hsh := by simp at hsh

end

theorem Core.close (h : Core P s) (hst : s.stage ℓ = .retired)
    (hsh : s.shut ℓ = false) {r : Ring V} (hr : (s.ring ℓ).ConsumeStep r) (hok : r.Ok) :
    Core P ((ringL ℓ).set r s) :=
  { h with
    keys := { h.keys with }
    lane := forall_update (p := fun ℓ' (r : Ring V) => LaneInv P.coordinated r (s.signaled ℓ')
        (s.dropMarked ℓ') (s.stage ℓ') (s.shut ℓ') (ofLane ℓ' (popped s.trace)))
      (by
        have := h.lane ℓ
        rw [hst, hsh] at this ⊢
        exact this.close hr hok) fun ℓ' _ => h.lane ℓ'
    resumed_le := h.resumed_setRing hr.tail.ge
    space := fun ℓ' hlt hsl => by
      have := h.space ℓ' hlt hsl
      have hne : ℓ' ≠ ℓ := by
        rintro rfl
        simp [((h.lane ℓ').retired hst hsh).1] at this
      simpa [Stuck, ringL, hne] using this }

theorem Core.shut (h : Core P s) (hst : s.stage ℓ ≠ .retired) {r : Ring V}
    (hr : (s.ring ℓ).ConsumeStep r) (hok : r.Ok) : Core P (shutGhost ℓ ((ringL ℓ).set r s)) :=
  { h with
    keys := { h.keys with }
    lane := fun ℓ' => by
      by_cases hne : ℓ' = ℓ
      · subst hne
        simpa only [shutGhost, Chan.setOwed, ringL, Function.update_self]
          using (h.lane ℓ').shut hst hr hok
      · simpa only [shutGhost, Chan.setOwed, ringL, Function.update_of_ne hne] using h.lane ℓ'
    resumed_le := h.resumed_setRing hr.tail.ge
    space := fun ℓ' hlt hsl => by
      have := h.space ℓ' hlt hsl
      by_cases hne : ℓ' = ℓ
      · subst hne
        simpa [shutGhost, Chan.setOwed, Owed.soon, ringL, hr.producerDropped]
          using ⟨this.1, this.2.1⟩
      · simpa [Stuck, shutGhost, Chan.setOwed, ringL, hne] using this }

/-- The bookkeeping of closes is not part of the invariant. -/
theorem Core.closing (h : Core P s) (closings : Nat → Nat) :
    Core P { s with closings := closings } :=
  { h with keys := { h.keys with } }

/-! ## The registry -/

/-- Which lanes count as retired is what the keys depend on. -/
theorem Keys.of_stage (h : Keys s) (stage : Nat → Stage)
    (hst : ∀ ℓ < s.count, s.stage ℓ = .retired → stage ℓ = .retired) :
    Keys { s with stage := stage } :=
  { h with
    top := fun ℓ hℓ hne => by
      obtain ⟨h₁, h₂⟩ := h.top ℓ hℓ fun hr => hne (hst ℓ hℓ hr)
      exact ⟨fun ℓ' hlt hsl hne' => ⟨(h₁ ℓ' hlt hsl hne').1, hst ℓ' hlt (h₁ ℓ' hlt hsl hne').2⟩, h₂⟩
    free_old := fun k hk ℓ hℓ hsl =>
      ⟨hst ℓ hℓ (h.free_old k hk ℓ hℓ hsl).1, (h.free_old k hk ℓ hℓ hsl).2⟩ }

theorem Core.takePending (h : Core P s) : Core P (Receiver.takePending s).2 := by
  have hret : ∀ ℓ, (if ℓ ∈ s.registry.pending then Stage.adopted else s.stage ℓ) = .retired ↔
      s.stage ℓ = .retired := by
    intro ℓ
    split
    · next hm => simp [((h.mem_pending ℓ).mp hm).2]
    · rfl
  have hkeys := h.keys.of_stage (Receiver.takePending s).2.stage
    fun ℓ _ hr => (hret ℓ).mpr hr
  exact { h with
    lane := fun ℓ => by
      have := h.lane ℓ
      exact { this with
        closed := fun hc => (this.closed hc).imp_right (hret ℓ).mpr
        retired := fun hst => this.retired ((hret ℓ).mp hst)
        sealed := fun hst => this.sealed ((hret ℓ).mp hst)
        fresh := fun hst => this.fresh (by
          simp only [Receiver.takePending] at hst
          split at hst
          · simp at hst
          · exact hst) }
    registered := by
      refine h.registered.trans ?_
      simp only [laneCount, Receiver.takePending]
      congr 1
      exact Finset.filter_congr fun ℓ _ => not_congr (hret ℓ).symm
    pending_nodup := List.nodup_nil
    mem_pending := fun ℓ => by
      simp only [Receiver.takePending, List.not_mem_nil, false_iff, not_and]
      intro hℓ
      split
      · simp
      · next hm => exact fun hst => hm ((h.mem_pending ℓ).mpr ⟨hℓ, hst⟩)
    keys := { hkeys with } }

theorem Core.unregister (h : Core P s) (hℓ : ℓ < s.count) (hst : s.stage ℓ = .adopted)
    (hend : if s.shut ℓ then (s.ring ℓ).isClosed P.coordinated = true
      else (s.ring ℓ).producerDropped = true ∧ (s.ring ℓ).head = (s.ring ℓ).log.length) :
    Core P (Receiver.unregisterLane ℓ s) := by
  have hkeys := h.keys.of_stage (Receiver.unregisterLane ℓ s).stage
    (forall_update (p := fun ℓ' (st : Stage) => ℓ' < s.count → s.stage ℓ' = .retired →
      st = .retired) (fun _ _ => rfl) fun _ _ _ hr => hr)
  exact { h with
    lane := fun ℓ' => by
      have := h.lane ℓ'
      by_cases hne : ℓ' = ℓ
      · subst hne
        simp only [Receiver.unregisterLane, Function.update_self]
        exact { this with
          closed := fun _ => .inr rfl
          retired := fun _ hsh => by simpa [hsh] using hend
          sealed := fun _ hsh => by simpa [hsh] using hend
          fresh := fun hst => by simp at hst }
      · simpa only [Receiver.unregisterLane, Function.update_of_ne hne] using this
    registered := (congrArg (· - 1) h.registered).trans
      (laneCount_retire hℓ (by simp [hst])).symm
    mem_pending := fun ℓ' => by
      by_cases hne : ℓ' = ℓ
      · subst hne
        simp [Receiver.unregisterLane, h.mem_pending, hst]
      · simpa [Receiver.unregisterLane, hne] using h.mem_pending ℓ'
    keys := { hkeys with } }

/-- A lane keeps its slot until its key is given back. -/
theorem Top.sender (h : Top ℓ s) (hc : Core P s) (hℓ : ℓ < s.count) {ℓ' : Nat}
    (ha : SenderAct P ℓ' s s') : Top ℓ s' := by
  cases ha with
  | register capacity halive hgone =>
    have hkey : (Sender.register capacity s).key ℓ = s.key ℓ := Function.update_of_ne hℓ.ne ..
    have hslot : s.registry.nextKey.slot ≠ (s.key ℓ).slot := by
      simp only [Registry.nextKey]
      split
      · next k ks hfree => exact h.2 k (by simp [hfree])
      · exact (hc.keys.slot_lt ℓ hℓ).ne'
    refine ⟨fun ℓ₁ h₁ hsl hne => ?_, fun k hk => ?_⟩
    · rw [hkey] at hsl ⊢
      rcases Nat.lt_succ_iff_lt_or_eq.mp h₁ with h₁ | rfl
      · simp only [Sender.register, Function.update_of_ne h₁.ne] at hsl ⊢
        exact h.1 ℓ₁ h₁ hsl hne
      · simp only [Sender.register, Function.update_self] at hsl
        exact absurd hsl hslot
    · rw [hkey]
      exact h.2 k (hc.keys.mem_free hk).1
  | ring | space | swap | page | group | bump | wake | signal | reply | leave => exact h

theorem Keys.retire (h : Keys s) (hℓ : ℓ < s.count) (htop : Top ℓ s)
    (hst : s.stage ℓ = .retired) :
    Keys { s with registry := s.registry.retire (s.key ℓ) } := by
  simp only [Registry.retire]
  split
  · exact
      { h with
        top := fun ℓ' hlt hne => by
          refine ⟨(h.top ℓ' hlt hne).1, fun k hk => ?_⟩
          rcases List.mem_cons.mp hk with rfl | hk
          · intro hsl
            by_cases heq : ℓ' = ℓ
            · exact hne (heq ▸ hst)
            · exact hne (htop.1 ℓ' hlt hsl.symm heq).2
          · exact (h.top ℓ' hlt hne).2 k hk
        free_lt := fun k hk => by
          rcases List.mem_cons.mp hk with rfl | hk
          · exact h.slot_lt ℓ hℓ
          · exact h.free_lt k hk
        free_old := fun k hk ℓ' hlt hsl => by
          rcases List.mem_cons.mp hk with rfl | hk
          · by_cases heq : ℓ' = ℓ
            · subst heq
              exact ⟨hst, Nat.lt_succ_self _⟩
            · exact ⟨(htop.1 ℓ' hlt hsl heq).2, Nat.lt_succ_of_lt (htop.1 ℓ' hlt hsl heq).1⟩
          · exact h.free_old k hk ℓ' hlt hsl
        free_nodup := by
          refine List.nodup_cons.mpr ⟨fun hm => ?_, h.free_nodup⟩
          obtain ⟨k, hk, hsl⟩ := List.mem_map.mp hm
          exact htop.2 k hk hsl }
  · exact h

theorem Core.retireKey (h : Core P s) (hℓ : ℓ < s.count) (htop : Top ℓ s)
    (hst : s.stage ℓ = .retired) :
    Core P { s with registry := s.registry.retire (s.key ℓ) } := by
  have hreg : (s.registry.retire (s.key ℓ)).pending = s.registry.pending ∧
      (s.registry.retire (s.key ℓ)).pages = s.registry.pages ∧
      (s.registry.retire (s.key ℓ)).groups = s.registry.groups := by
    simp only [Registry.retire]
    split <;> simp
  exact { h with
    pending_nodup := hreg.1 ▸ h.pending_nodup
    mem_pending := fun ℓ' => by simpa only [hreg.1] using h.mem_pending ℓ'
    page_lt := fun ℓ' hlt => by simpa only [hreg.2.1] using h.page_lt ℓ' hlt
    group_lt := fun p hp => by
      simp only [hreg.2.1] at hp
      simpa only [hreg.2.2] using h.group_lt p hp
    word_lt := fun p hp => by simpa only [hreg.2.1] using h.word_lt p hp
    keys := h.keys.retire hℓ htop hst }

/-! ## The rest -/

theorem Core.setReady (h : Core P s) {r : Ready}
    (hr : ∀ p, r.page p ≠ 0#64 → s.ready.page p ≠ 0#64) :
    Core P (readyL.set r s) :=
  { h with
    keys := { h.keys with }
    word_lt := fun p hp => h.word_lt p (hr p hp) }

theorem Core.setTrace (h : Core P s) {t : List (Event V)} (ht : popped t = popped s.trace) :
    Core P { s with trace := t } :=
  { h with
    keys := { h.keys with }
    lane := fun ℓ => by simpa only [ht] using h.lane ℓ
    popped_lt := fun e he => h.popped_lt e (ht ▸ he)
    returned := ht ▸ h.returned }

end Fanring.Mpsc
