import Fanring.Teardown

/-!
# One final drainer

The consumer of a lane is a token: the receiver has it, or the hand-off slot, or the send that took
it out of the slot, or nobody any more. `Inv` follows it around. The two bits decide where it goes:
a close that finds no send active keeps the token, one that does leaves it in the slot, and a send
that ends after `CLOSED` was set always finds it there (`Inv.handed`). Whoever drains for the last
time does so when `CLOSED` is set and `ACTIVE` is not, so nothing can be pushed any more and the
drain takes all there is.

Slots are given back after a teardown began only by that last drainer, when no push will be made
again. `Quiet` is that, read off the trace, and it is why a send that overlaps the close can only
have used credit from before it.
-/

set_option autoImplicit false

namespace Fanring.Teardown

open Conc Yring Cursor

variable {w : Nat} {V : Type}

/-! ## Credit after a teardown began -/

/-- No slot was given back since a teardown began. -/
def Quiet (t : List (Event V)) : Prop :=
  ∀ past mid, t = past ++ .teardown :: mid → .release ∉ mid

/-- Between the beginning of a teardown and any later write no slot was given back. -/
def NoLending (t : List (Event V)) : Prop :=
  ∀ past mid slot v rest, t = past ++ .teardown :: mid ++ .write slot v :: rest → .release ∉ mid

theorem Quiet.noLending {t : List (Event V)} (h : Quiet t) : NoLending t := by
  intro past mid slot v rest ht hmem
  refine h past (mid ++ .write slot v :: rest) (by simpa using ht) ?_
  exact List.mem_append_left _ hmem

theorem Quiet.concat {t : List (Event V)} {e : Event V} (h : Quiet t) (he : e ≠ .release) :
    Quiet (t ++ [e]) := by
  intro past mid ht hmem
  rcases List.eq_nil_or_concat mid with rfl | ⟨mid', last, rfl⟩
  · exact absurd hmem (by simp)
  · have ht' : t ++ [e] = (past ++ .teardown :: mid') ++ [last] := by
      rw [ht]
      simp
    obtain ⟨ht₁, ht₂⟩ := List.append_inj' ht' rfl
    simp only [List.cons.injEq, and_true] at ht₂
    rw [List.concat_eq_append, List.mem_append, List.mem_singleton] at hmem
    rcases hmem with hmem | hmem
    · exact h past mid' ht₁ hmem
    · exact he (ht₂.trans hmem.symm)

theorem Quiet.append {t es : List (Event V)} (h : Quiet t) (hes : .release ∉ es) :
    Quiet (t ++ es) := by
  induction es generalizing t with
  | nil => simpa using h
  | cons e es ih =>
    have hstep := h.concat (e := e) fun he => hes (he ▸ List.mem_cons_self ..)
    have := ih hstep fun hmem => hes (List.mem_cons_of_mem _ hmem)
    simpa using this

theorem Quiet.of_open {t : List (Event V)} (h : .teardown ∉ t) : Quiet t := by
  intro past mid ht
  exact absurd (ht ▸ by simp) h

theorem NoLending.concat {t : List (Event V)} {e : Event V} (h : NoLending t)
    (he : e.side ≠ some .producer) : NoLending (t ++ [e]) := by
  intro past mid slot v rest ht
  rcases List.eq_nil_or_concat rest with rfl | ⟨rest', last, rfl⟩
  · obtain ⟨-, hlast⟩ := List.append_inj' ht rfl
    simp only [List.cons.injEq, and_true] at hlast
    exact absurd rfl (hlast ▸ he)
  · have ht' : t ++ [e] = (past ++ .teardown :: mid ++ .write slot v :: rest') ++ [last] := by
      rw [ht]
      simp
    exact h past mid slot v rest' (List.append_inj' ht' rfl).1

theorem NoLending.append {t es : List (Event V)} (h : NoLending t) (hes : By .consumer es) :
    NoLending (t ++ es) := by
  induction es generalizing t with
  | nil => simpa using h
  | cons e es ih =>
    have he := hes e (List.mem_cons_self ..)
    have := ih (h.concat (e := e) (by simp [he])) fun e' he' => hes e' (List.mem_cons_of_mem _ he')
    simpa using this

/-- Without a release in between, no value was released. -/
theorem released_append {t es : List (Event V)} (h : .release ∉ es) :
    (tally (t ++ es)).released = (tally t).released := by
  induction es generalizing t with
  | nil => simp
  | cons e es ih =>
    have hrest := ih (t := t ++ [e]) fun hmem => h (List.mem_cons_of_mem _ hmem)
    rw [List.append_assoc, List.singleton_append] at hrest
    rw [hrest, tally_concat]
    cases e <;> first | rfl | exact absurd (List.mem_cons_self ..) h

theorem released_popped (t : List (Event V)) : (tally t).released <+: (tally t).popped := by
  induction t using List.reverseRecOn with
  | nil => exact List.prefix_rfl
  | append_singleton t e ih =>
    rw [tally_concat]
    cases e with
    | release => exact List.prefix_rfl
    | take _ _ => exact ih.trans (List.prefix_append ..)
    | _ => exact ih

theorem released_grows (t es : List (Event V)) :
    (tally t).released <+: (tally (t ++ es)).released := by
  induction es using List.reverseRecOn with
  | nil => rw [List.append_nil]
  | append_singleton es e ih =>
    rw [← List.append_assoc, tally_concat]
    cases e with
    | release => exact ih.trans (released_popped _)
    | _ => exact ih

theorem not_release_of_by {es : List (Event V)} (h : By .producer es) : .release ∉ es := by
  intro hmem
  exact absurd (h _ hmem) (by simp [Event.side])

/-! ## The token -/

structure Inv (start mask : BitVec w) (s : Lane w V) : Prop where
  ok : s.ring.Ok start mask
  undropped : (tally s.ring.trace).destroyed = []
  lending : NoLending s.ring.trace
  quiet : s.closed = true ∧ s.active = false ∨ Quiet s.ring.trace
  flushed : s.active = false → (tally s.ring.trace).flushed = (tally s.ring.trace).accepted
  slot_some : s.owner = .slot → ∃ c P, s.slot = some c ∧ c.At start P s.ring.trace ∧
    s.received ++ s.destroyed = P
  slot_none : s.owner ≠ .slot → s.slot = none
  closed : s.owner ≠ .receiver → s.closed = true
  settled : s.owner = .sender ∨ s.owner = .nobody → s.active = false
  handed : s.active = true → s.closed = true → s.owner = .slot
  gone : s.owner = .nobody → (tally s.ring.trace).popped = (tally s.ring.trace).accepted ∧
    s.received ++ s.destroyed = (tally s.ring.trace).popped
  returned : s.closeReturned = true → s.owner ≠ .receiver

/-- What a step of the sender's thread does to the lane. -/
structure TxStep (s s' : Lane w V) : Prop where
  inner : s'.inner = s.inner
  closeReturned : s'.closeReturned = s.closeReturned
  received : s'.received = s.received
  closed : s'.closed = s.closed
  active : s.closed = true → s.active = false → s'.active = false
  owner : s'.owner = .receiver ↔ s.owner = .receiver
  /-- While the receiver has the consumer, only the producer's side changes, and nothing once
      no send can begin. -/
  receiver : s.owner = .receiver → s'.destroyed = s.destroyed ∧
    ∃ es, s'.ring.trace = s.ring.trace ++ es ∧ By .producer es ∧
      (s.closed = true → s.active = false → es = [])

/-- What a step of the receiver's thread does to the lane. -/
structure RxStep (s s' : Lane w V) : Prop where
  tx : s'.tx = s.tx
  sent : s'.sent = s.sent
  active : s'.active = s.active
  closed : s.closed = true → s'.closed = true
  owner : s'.owner = .sender ↔ s.owner = .sender
  kept : s.active = false → s'.owner = .slot → s.owner = .slot
  receiver : s.owner = .receiver → ∃ es, s'.ring.trace = s.ring.trace ++ es ∧ By .consumer es
  other : s.owner ≠ .receiver → s'.ring.trace = s.ring.trace ∧ s'.owner = s.owner ∧
    s'.slot = s.slot ∧ s'.received = s.received ∧ s'.destroyed = s.destroyed

def Guar : Side → Lane w V → Lane w V → Prop
  | .producer => TxStep
  | .consumer => RxStep

theorem TxStep.refl (s : Lane w V) : TxStep s s :=
  ⟨rfl, rfl, rfl, rfl, fun _ h => h, .rfl, fun _ => ⟨rfl, [], by simp, By.nil _, fun _ _ => rfl⟩⟩

theorem RxStep.refl (s : Lane w V) : RxStep s s :=
  ⟨rfl, rfl, rfl, id, .rfl, fun _ h => h, fun _ => ⟨[], by simp, By.nil _⟩,
    fun _ => ⟨rfl, rfl, rfl, rfl, rfl⟩⟩

theorem RxStep.by {s s' : Lane w V} (h : RxStep s s') :
    ∃ es, s'.ring.trace = s.ring.trace ++ es ∧ By .consumer es := by
  by_cases ho : s.owner = .receiver
  · exact h.receiver ho
  · exact ⟨[], by simpa using (h.other ho).1, By.nil _⟩

/-- The contract of one of the two threads. -/
def contract (start mask : BitVec w) (side : Side) : Contract (Lane w V) where
  inv := Inv start mask
  rely s s' := ∃ u, u ≠ side ∧ Guar u s s'
  guar := Guar side
  cond _ _ := True
  goal _ := True

theorem rely_tx {start mask : BitVec w} {s s' : Lane w V}
    (h : (contract start mask .producer).rely s s') : RxStep s s' := by
  obtain ⟨u, hu, hg⟩ := h
  cases u
  · exact absurd rfl hu
  · exact hg

theorem rely_rx {start mask : BitVec w} {s s' : Lane w V}
    (h : (contract start mask .consumer).rely s s') : TxStep s s' := by
  obtain ⟨u, hu, hg⟩ := h
  cases u
  · exact hg
  · exact absurd rfl hu

section Proof

variable {start mask : BitVec w}

/-! ## The endpoints, as each of their holders may use them -/

/-- The invariant after accesses of the producer in a send. -/
theorem Inv.tx {s : Lane w V} (h : Inv start mask s) (ha : s.active = true) {r : Yring.Ring w V}
    {es : List (Event V)} (hok : r.Ok start mask) (ht : r.trace = s.ring.trace ++ es)
    (hes : By .producer es) : Inv start mask { s with ring := r } := by
  have hrx := SameRx.of_by (t := s.ring.trace) hes
  have hquiet : Quiet r.trace := by
    rcases h.quiet with ⟨-, hn⟩ | hq
    · exact absurd (ha.symm.trans hn) (by simp)
    · exact ht ▸ hq.append (not_release_of_by hes)
  rw [← ht] at hrx
  refine { h with
    ok := hok
    undropped := ?_
    lending := hquiet.noLending
    quiet := .inr hquiet
    flushed := fun hn => absurd (ha.symm.trans hn) (by simp)
    slot_some := fun ho => ?_
    gone := fun ho => absurd (ha.symm.trans (h.settled (.inr ho))) (by simp) }
  · exact hrx.destroyed.trans h.undropped
  · obtain ⟨c, P, hs, hat, hP⟩ := h.slot_some ho
    refine ⟨c, P, hs, ?_, hP⟩
    change c.At start P r.trace
    rw [ht]
    exact Consumer.At.local start P c _ es hes hat

/-- A send is in progress; `S` is what the sends before it answered. -/
def Sending (S : List (V × Except V Unit)) (s : Lane w V) : Prop := s.active = true ∧ s.sent = S

/-- The sender's end of the ring while a send is active. -/
theorem sending (S : List (V × Except V Unit)) :
    Endpoint (contract start mask .producer) Lane.lens start mask .producer True True
      (Sending (w := w) S) where
  get_set _ _ := rfl
  ok _ hs := hs.ok
  live _ hs _ := hs.undropped
  rely s s' hs hs' hr h := by
    have hstep := rely_tx hr
    exact ⟨⟨hstep.active.trans h.1, hstep.sent.trans h.2⟩, hstep.by⟩
  keep s r es hs h hok ht hcan _ := by
    have hes : By .producer es := fun e he => (hcan e he).1
    have ha := h.1
    refine ⟨hs.tx ha hok ht hes, ?_, h⟩
    exact ⟨rfl, rfl, rfl, rfl, fun _ hn => absurd (ha.symm.trans hn) (by simp), .rfl,
      fun _ => ⟨rfl, es, ht, hes, fun _ hn => absurd (ha.symm.trans hn) (by simp)⟩⟩

/-- The invariant after accesses of the consumer by its holder. -/
theorem Inv.rx {s : Lane w V} (h : Inv start mask s)
    (ho : s.owner = .receiver ∨ s.owner = .sender) {r : Yring.Ring w V} {es : List (Event V)}
    (hok : r.Ok start mask) (ht : r.trace = s.ring.trace ++ es) (hes : By .consumer es)
    (hquiet : s.closed = true ∧ s.active = false ∨ Quiet r.trace) :
    Inv start mask { s with ring := r } := by
  have htx := SameTx.of_by (t := s.ring.trace) hes
  rw [← ht] at htx
  refine { h with
    ok := hok
    undropped := htx.destroyed.trans h.undropped
    lending := ht ▸ h.lending.append hes
    quiet := hquiet
    flushed := fun hn => ?_
    slot_some := fun hs => ?_
    gone := fun hn => ?_ }
  · exact htx.flushed.trans ((h.flushed hn).trans htx.accepted.symm)
  · rcases ho with ho | ho <;> exact absurd (ho.symm.trans hs) (by simp)
  · rcases ho with ho | ho <;> exact absurd (ho.symm.trans hn) (by simp)

theorem RxStep.access {s : Lane w V} (ho : s.owner = .receiver) {r : Yring.Ring w V}
    {es : List (Event V)} (ht : r.trace = s.ring.trace ++ es) (hes : By .consumer es) :
    RxStep s { s with ring := r } :=
  ⟨rfl, rfl, rfl, id, .rfl, fun _ h => h, fun _ => ⟨es, ht, hes⟩, fun h => absurd ho h⟩

/-- The receiver's end while it is open: nothing was destroyed, no teardown began. -/
structure Open (R : List V) (s : Lane w V) : Prop where
  owner : s.owner = .receiver
  closed : s.closed = false
  fresh : .teardown ∉ s.ring.trace
  received : s.received = R
  destroyed : s.destroyed = []
  inner : s.inner.isSome
  closeReturned : s.closeReturned = false

theorem receiving (R : List V) : Endpoint (contract start mask .consumer) Lane.lens start mask
    .consumer True True (Open (w := w) R) where
  get_set _ _ := rfl
  ok _ hs := hs.ok
  live _ hs _ := hs.undropped
  rely s s' hs hs' hr h := by
    have hstep := rely_rx hr
    obtain ⟨hd, es, ht, hes, -⟩ := hstep.receiver h.owner
    refine ⟨⟨hstep.owner.mpr h.owner, hstep.closed.trans h.closed, ?_,
      hstep.received.trans h.received,
      hd.trans h.destroyed, hstep.inner ▸ h.inner, hstep.closeReturned.trans h.closeReturned⟩, es,
      ht, hes⟩
    rw [ht, List.mem_append, not_or]
    exact ⟨h.fresh, fun hmem => absurd (hes _ hmem) (by simp [Event.side])⟩
  keep s r es hs h hok ht hcan _ := by
    have hes : By .consumer es := fun e he => (hcan e he).1
    have hfresh : .teardown ∉ r.trace := by
      rw [ht, List.mem_append, not_or]
      exact ⟨h.fresh, fun hmem => (hcan _ hmem).2.1 rfl⟩
    exact ⟨hs.rx (.inl h.owner) hok ht hes (.inr (.of_open hfresh)), .access h.owner ht hes,
      { h with fresh := hfresh }⟩

/-- The receiver's end during the first drain of a close. -/
structure Closing (D : List V) (s : Lane w V) : Prop where
  owner : s.owner = .receiver
  closed : s.closed = false
  disposed : s.received ++ s.destroyed = D
  inner : s.inner = none
  closeReturned : s.closeReturned = false

theorem closing (D : List V) : Endpoint (contract start mask .consumer) Lane.lens start mask
    .consumer False True (Closing (w := w) D) where
  get_set _ _ := rfl
  ok _ hs := hs.ok
  live _ hs _ := hs.undropped
  rely s s' hs hs' hr h := by
    have hstep := rely_rx hr
    obtain ⟨hd, es, ht, hes, -⟩ := hstep.receiver h.owner
    refine ⟨⟨hstep.owner.mpr h.owner, hstep.closed.trans h.closed, ?_, hstep.inner.trans h.inner,
      hstep.closeReturned.trans h.closeReturned⟩, es, ht, hes⟩
    rw [hstep.received, hd, h.disposed]
  keep s r es hs h hok ht hcan _ := by
    have hes : By .consumer es := fun e he => (hcan e he).1
    have hquiet : Quiet r.trace := by
      rcases hs.quiet with ⟨hc, -⟩ | hq
      · exact absurd (h.closed.symm.trans hc) (by simp)
      · exact ht ▸ hq.append fun hmem => (hcan _ hmem).2.2 rfl
    exact ⟨hs.rx (.inl h.owner) hok ht hes (.inr hquiet), .access h.owner ht hes, { h with }⟩

/-- The last drain: nothing can be pushed any more, and everything pushed is published. `k` is what
    the drainer's thread keeps besides. -/
structure Final (o : Owner) (k : Lane w V → Prop) (A D : List V) (s : Lane w V) : Prop where
  owner : s.owner = o
  closed : s.closed = true
  inactive : s.active = false
  accepted : (tally s.ring.trace).accepted = A
  disposed : s.received ++ s.destroyed = D
  keeps : k s

/-- What the sender's thread keeps while it drains: its endpoint and the earlier answers. -/
def Sender (start : BitVec w) (A : List V) (S : List (V × Except V Unit)) (p : Producer w)
    (s : Lane w V) : Prop :=
  p.At start A A s.ring.trace ∧ s.sent = S

/-- The last drain by the send that took the consumer out of the slot. -/
theorem finalTx (p : Producer w) (A D : List V) (S : List (V × Except V Unit)) :
    Endpoint (contract start mask .producer) Lane.lens start mask .consumer True True
      (Final .sender (Sender start A S p) A D) where
  get_set _ _ := rfl
  ok _ hs := hs.ok
  live _ hs _ := hs.undropped
  rely s s' hs hs' hr h := by
    have hstep := rely_tx hr
    obtain ⟨ht, ho, -, hrec, hdes⟩ := hstep.other (by simp [h.owner])
    refine ⟨⟨ho.trans h.owner, hstep.closed h.closed, hstep.active.trans h.inactive, ?_, ?_, ?_⟩,
      [], ht.trans (List.append_nil _).symm, By.nil _⟩
    · rw [ht]
      exact h.accepted
    · rw [hrec, hdes]
      exact h.disposed
    · exact ⟨ht ▸ h.keeps.1, hstep.sent.trans h.keeps.2⟩
  keep s r es hs h hok ht hcan _ := by
    have hes : By .consumer es := fun e he => (hcan e he).1
    refine ⟨hs.rx (.inr h.owner) hok ht hes (.inl ⟨h.closed, h.inactive⟩), ?_, { h with
      accepted := ?_, keeps := ?_ }⟩
    · exact ⟨rfl, rfl, rfl, rfl, fun _ hn => hn, .rfl,
        fun ho => absurd (h.owner.symm.trans ho) (by simp)⟩
    · change (tally r.trace).accepted = A
      rw [ht]
      exact (SameTx.of_by hes).accepted.trans h.accepted
    · refine ⟨?_, h.keeps.2⟩
      change p.At start A A r.trace
      rw [ht]
      exact Producer.At.local start A A p _ es hes h.keeps.1

/-- What the receiver's thread keeps once its consumer is closed. -/
def Shut (s : Lane w V) : Prop := s.inner = none ∧ s.closeReturned = false

/-- The last drain by a close that found no send active. -/
theorem finalRx (A D : List V) :
    Endpoint (contract start mask .consumer) Lane.lens start mask .consumer True True
      (Final (w := w) .receiver Shut A D) where
  get_set _ _ := rfl
  ok _ hs := hs.ok
  live _ hs _ := hs.undropped
  rely s s' hs hs' hr h := by
    have hstep := rely_rx hr
    obtain ⟨hd, es, ht, hes, hnone⟩ := hstep.receiver h.owner
    obtain rfl := hnone h.closed h.inactive
    rw [List.append_nil] at ht
    refine ⟨⟨hstep.owner.mpr h.owner, hstep.closed.trans h.closed,
      hstep.active h.closed h.inactive, ?_, ?_, hstep.inner.trans h.keeps.1,
      hstep.closeReturned.trans h.keeps.2⟩, [], ht.trans (List.append_nil _).symm, By.nil _⟩
    · rw [ht]
      exact h.accepted
    · rw [hstep.received, hd]
      exact h.disposed
  keep s r es hs h hok ht hcan _ := by
    have hes : By .consumer es := fun e he => (hcan e he).1
    refine ⟨hs.rx (.inl h.owner) hok ht hes (.inl ⟨h.closed, h.inactive⟩), .access h.owner ht hes,
      { h with accepted := ?_ }⟩
    change (tally r.trace).accepted = A
    rw [ht]
    exact (SameTx.of_by hes).accepted.trans h.accepted

/-! ## Draining -/

/-- The drop of one value by the holder of the consumer. -/
theorem Inv.destroy {s : Lane w V} (h : Inv start mask s)
    (ho : s.owner = .receiver ∨ s.owner = .sender) (v : V) :
    Inv start mask { s with destroyed := s.destroyed ++ [v] } := by
  refine { h with slot_some := fun hs => ?_, gone := fun hn => ?_ }
  · rcases ho with ho | ho <;> exact absurd (ho.symm.trans hs) (by simp)
  · rcases ho with ho | ho <;> exact absurd (ho.symm.trans hn) (by simp)

section Discard

variable {C : Contract (Lane w V)} {free : Prop} {own : List V → Lane w V → Prop}

/-- **`discard` leaves no value of the window**, and the window covers all the drainer knew to be
    published. -/
theorem discard_spec (E : ∀ D, Endpoint C Lane.lens start mask .consumer free True (own D))
    (hgoal : ∀ s, C.goal s)
    (hdrop : ∀ D s v, C.inv s → own D s →
      C.inv { s with destroyed := s.destroyed ++ [v] } ∧
        C.guar s { s with destroyed := s.destroyed ++ [v] } ∧
        own (D ++ [v]) { s with destroyed := s.destroyed ++ [v] })
    {n : Nat} (hn : ∀ D s, C.inv s → own D s → n ≤ (tally s.ring.trace).flushed.length)
    (P : List V) (c : Consumer w) :
    Triple C (Held Lane.lens (own P) (c.At start P)) (discard mask c) fun c' s =>
      ∃ P', Held Lane.lens (own P') (fun t => c'.At start P' t ∧ n ≤ P'.length) s := by
  -- the rounds: what was popped is what was disposed of, and the window stays
  let I : Consumer w → Lane w V → Prop := fun c s => ∃ P', Held Lane.lens (own P')
    (fun t => c.At start P' t ∧ n ≤ (tally t).seenTail) s
  have hlocal : ∀ (P' : List V) (c' : Consumer w), Local .consumer fun t : List (Event V) =>
      c'.At start P' t ∧ n ≤ (tally t).seenTail := fun P' c' =>
    (Consumer.At.local start P' c').and (local_seenTail (n ≤ ·))
  have hI : ∀ c', C.Stable (I c') := fun c' s s' hs hs' hr ⟨P', h⟩ =>
    ⟨P', (E P').stable (hlocal P' c') s s' hs hs' hr h⟩
  have hQ : ∀ c' : Consumer w, C.Stable fun s => ∃ P', Held Lane.lens (own P')
      (fun t => c'.At start P' t ∧ n ≤ P'.length) s := fun c' s s' hs hs' hr ⟨P', h⟩ =>
    ⟨P', (E P').stable ((Consumer.At.local start P' c').and (Local.pure _)) s s' hs hs' hr h⟩
  refine Triple.bind (prefetch_spec (E P) trivial (hn P) P c) fun r => ?_
  obtain ⟨m, c⟩ := r
  refine Triple.iterate_free hgoal I (hI c) (fun s _ h => ⟨P, h⟩) hQ fun c s hs h => ?_
  obtain ⟨P', hown, hat, hle⟩ := h
  refine Triple.bind (pop_spec (E P') P' _ c) (fun r => ?_) s hs ⟨hown, hat, rfl⟩
  obtain ⟨v, c'⟩ := r
  cases v with
  | none =>
    refine Triple.ret (hQ c') fun s' _ h => ⟨P', h.1, by simpa using h.2.1, ?_⟩
    rw [← h.2.2.2 rfl]
    exact hle
  | some v =>
    refine Triple.map (Q := fun _ => I c') (Triple.atomic ((E P').stable
      ((Consumer.At.local start _ c').and ((local_seenTail (· = _)).and (Local.pure _))))
      (fun _ => hI c') fun s' _ hs' h _ => ?_) fun _ _ _ h => h
    obtain ⟨hi, hg, hown'⟩ := hdrop P' s' v hs' h.1
    exact ⟨hi, hg, P' ++ [v], hown', h.2.1, hle.trans h.2.2.1.ge⟩

end Discard

theorem Final.destroy {o : Owner} {k : Lane w V → Prop} {A D : List V} {s : Lane w V}
    (h : Final o k A D s) (v : V) (hk : k { s with destroyed := s.destroyed ++ [v] }) :
    Final o k A (D ++ [v]) { s with destroyed := s.destroyed ++ [v] } :=
  { h with
    disposed := by
      change s.received ++ (s.destroyed ++ [v]) = D ++ [v]
      rw [← List.append_assoc, h.disposed]
    keeps := hk }

/-- The end of the consumer: all there was is disposed of. -/
theorem Inv.leave {o : Owner} {k : Lane w V → Prop} {A : List V} {s : Lane w V}
    (hs : Inv start mask s) (h : Final o k A A s) (ho : o ≠ .slot)
    (hp : (tally s.ring.trace).popped = A) : Inv start mask { s with owner := .nobody } := by
  refine { hs with
    slot_some := fun hn => absurd hn (by simp)
    slot_none := fun _ => hs.slot_none (by rw [h.owner]; exact ho)
    closed := fun _ => h.closed
    settled := fun _ => h.inactive
    handed := fun ha => absurd (h.inactive.symm.trans ha) (by simp)
    gone := fun _ => ⟨hp.trans h.accepted.symm, h.disposed.trans hp.symm⟩
    returned := fun _ => by simp }

/-- **The last drainer disposes of everything that was ever accepted.** -/
theorem dispose_spec {side : Side} {o : Owner} {k Q : Lane w V → Prop} {A : List V}
    (E : ∀ D, Endpoint (contract start mask side) Lane.lens start mask .consumer True True
      (Final o k A D)) (ho : o = .receiver ∨ o = .sender)
    (hk : ∀ s v, k s → k { s with destroyed := s.destroyed ++ [v] })
    (hguar : ∀ (s : Lane w V) v, s.owner = o →
      Guar side s { s with destroyed := s.destroyed ++ [v] })
    (hQ : (contract start mask side).Stable Q)
    (hleave : ∀ s, Final o k A A s → Guar side s { s with owner := .nobody } ∧
      Q { s with owner := .nobody }) (P : List V) (c : Consumer w) :
    Triple (contract start mask side) (Held Lane.lens (Final o k A P) (c.At start P))
      (dispose mask c) fun _ => Q := by
  have hall : ∀ D s, Inv start mask s → Final o k A D s →
      A.length ≤ (tally s.ring.trace).flushed.length := fun D s hs h => by
    rw [hs.flushed h.inactive, h.accepted]
  refine Triple.bind (discard_spec E (fun _ => trivial) (fun D s v hs h => ?_) hall P c)
    fun c' => ?_
  · refine ⟨Inv.destroy hs ?_ v, hguar s v h.owner, h.destroy v (hk s v h.keeps)⟩
    rw [h.owner]
    exact ho
  rintro s hs ⟨P', hown, hat, hle⟩
  -- what was popped is all that was accepted
  have hP : P' = A := by
    have hpre := (E P').ok s hs |>.fits.popped
    rw [hat.popped, show (tally (Lane.lens.get s).trace).accepted = A from hown.accepted] at hpre
    exact hpre.eq_of_length_le hle
  subst hP
  refine Triple.bind (closeConsumer_spec (E P') trivial trivial P' c') (fun _ => ?_) s hs
    ⟨hown, hat⟩
  refine Triple.atomic ((E P').stable ((Consumer.At.local start P' c').and fun t es hes h => ?_))
    (fun _ => hQ) fun s' _ hs' h _ => ?_
  · rw [(SameRx.of_by (t := t) hes).released, h]
  · obtain ⟨hown', hat', -⟩ := h
    obtain ⟨hg, hq⟩ := hleave s' hown'
    refine ⟨Inv.leave hs' hown' ?_ hat'.popped, hg, hq⟩
    rcases ho with rfl | rfl <;> simp

/-! ## The sender -/

/-- The sender at the end of a send, with its endpoint in hand: the values `A` were accepted, and
    no consumer was left to it. `S` is what its sends have answered. -/
structure Ended (start : BitVec w) (A : List V) (S : List (V × Except V Unit)) (p : Producer w)
    (s : Lane w V) : Prop where
  inactive : s.active = false
  owner : s.owner ≠ .slot ∧ s.owner ≠ .sender
  at_ : p.At start A A s.ring.trace
  sent : s.sent = S

/-- The sender between its sends: what it had accepted is what its sends answered. -/
def IdleTx (start : BitVec w) (s : Lane w V) : Prop :=
  Ended start (s.sent.filterMap accepted) s.sent s.tx s

theorem Ended.rely {A : List V} {S : List (V × Except V Unit)} {p : Producer w} {s s' : Lane w V}
    (h : Ended start A S p s) (hg : RxStep s s') : Ended start A S p s' := by
  obtain ⟨es, ht, hes⟩ := hg.by
  refine ⟨hg.active.trans h.inactive, ⟨fun hs => h.owner.1 (hg.kept h.inactive hs),
    fun hs => h.owner.2 (hg.owner.mp hs)⟩, ?_, hg.sent.trans h.sent⟩
  rw [ht]
  exact Producer.At.local start A A p _ es hes h.at_

theorem Ended.stable (A : List V) (S : List (V × Except V Unit)) (p : Producer w) :
    (contract (V := V) start mask .producer).Stable (Ended start A S p) :=
  fun _ _ _ _ hr h => h.rely (rely_tx hr)

theorem IdleTx.stable : (contract (V := V) start mask .producer).Stable (IdleTx start) := by
  intro s s' _ _ hr h
  have hstep := rely_tx hr
  rw [IdleTx, hstep.tx, hstep.sent]
  exact Ended.rely h hstep

/-- The consumer is in the slot, left to the send that is ending. -/
structure Left (start : BitVec w) (A : List V) (S : List (V × Except V Unit)) (p : Producer w)
    (s : Lane w V) : Prop where
  owner : s.owner = .slot
  inactive : s.active = false
  at_ : p.At start A A s.ring.trace
  sent : s.sent = S

theorem Left.stable (A : List V) (S : List (V × Except V Unit)) (p : Producer w) :
    (contract (V := V) start mask .producer).Stable (Left start A S p) := by
  intro s s' _ _ hr h
  have hstep := rely_tx hr
  obtain ⟨ht, ho, -⟩ := hstep.other (by simp [h.owner])
  exact ⟨ho.trans h.owner, hstep.active.trans h.inactive, ht ▸ h.at_, hstep.sent.trans h.sent⟩

/-- The end of a send that has published what it pushed. -/
theorem Inv.finish {s : Lane w V} (h : Inv start mask s) (ha : s.active = true)
    (hf : (tally s.ring.trace).flushed = (tally s.ring.trace).accepted) :
    Inv start mask { s with active := false } ∧ TxStep s { s with active := false } := by
  refine ⟨{ h with
    quiet := ?_
    flushed := fun _ => hf
    settled := fun _ => rfl
    handed := fun hn => absurd hn (by simp) }, ?_⟩
  · rcases h.quiet with ⟨-, hn⟩ | hq
    · exact absurd (ha.symm.trans hn) (by simp)
    · exact .inr hq
  · exact ⟨rfl, rfl, rfl, rfl, fun _ _ => rfl, .rfl,
      fun _ => ⟨rfl, [], by simp, By.nil _, fun _ _ => rfl⟩⟩

/-- The send takes the consumer out of the slot. -/
theorem Inv.takeSlot {A : List V} {S : List (V × Except V Unit)} {p : Producer w} {s : Lane w V}
    (h : Inv start mask s) (hl : Left start A S p s) :
    Inv start mask { s with slot := none, owner := .sender } ∧
      TxStep s { s with slot := none, owner := .sender } := by
  have hclosed := h.closed (by simp [hl.owner])
  refine ⟨{ h with
    slot_some := fun hn => absurd hn (by simp)
    slot_none := fun _ => rfl
    closed := fun _ => hclosed
    settled := fun _ => hl.inactive
    handed := fun ha => absurd (hl.inactive.symm.trans ha) (by simp)
    gone := fun hn => absurd hn (by simp)
    returned := fun _ => by simp }, ?_⟩
  refine ⟨rfl, rfl, rfl, rfl, fun _ hn => hn, ?_,
    fun ho => absurd (hl.owner.symm.trans ho) (by simp)⟩
  simp [hl.owner]

/-- **A send that ends leaves nothing behind**: if the lane was closed meanwhile it finds the
    consumer in the slot and is its last drainer. -/
theorem endSend_spec (A : List V) (S : List (V × Except V Unit)) (p : Producer w) :
    Triple (contract start mask .producer)
      (Held Lane.lens (Sending S) (p.At start A A)) (endSend mask)
      fun _ => Ended start A S p := by
  refine Triple.bind (Q := fun closed => if closed then Left start A S p else Ended start A S p)
    (Triple.atomic ((sending S).stable (Producer.At.local start A A p)) ?_ ?_)
    fun closed => ?_
  · intro closed
    cases closed
    · exact Ended.stable A S p
    · exact Left.stable A S p
  · rintro s - hs ⟨⟨ha, hS⟩, hat⟩ -
    obtain ⟨hi, hg⟩ := Inv.finish hs ha (hat.flushed.trans hat.accepted.symm)
    refine ⟨hi, hg, ?_⟩
    dsimp only
    split
    · next hc => exact ⟨hs.handed ha hc, rfl, hat, hS⟩
    · next hc =>
      have ho : s.owner = .receiver := by
        by_contra hne
        exact hc (hs.closed hne)
      exact ⟨rfl, ⟨by simp [ho], by simp [ho]⟩, hat, hS⟩
  · cases closed
    · exact Triple.ret (Ended.stable A S p) fun _ _ h => h
    · refine Triple.bind (Q := fun c s => ∃ c' P, c = some c' ∧ Held Lane.lens
        (Final .sender (Sender start A S p) A P) (c'.At start P) s)
        (Triple.atomic (Left.stable A S p) ?_ ?_) fun c => ?_
      · rintro c s s' hs hs' hr ⟨c', P, rfl, h⟩
        exact ⟨c', P, rfl,
          (finalTx p A P S).stable (Consumer.At.local start P c') s s' hs hs' hr h⟩
      · rintro s - hs hl -
        obtain ⟨c, P, hslot, hat, hP⟩ := hs.slot_some hl.owner
        obtain ⟨hi, hg⟩ := Inv.takeSlot hs hl
        simp only [hslot]
        exact ⟨hi, hg, c, P, rfl, ⟨rfl, hs.closed (by simp [hl.owner]), hl.inactive,
          hl.at_.accepted, hP, hl.at_, hl.sent⟩, hat⟩
      · refine Triple.given (φ := ∃ c', c = some c') (fun s _ ⟨c', _, h, _⟩ => ⟨c', h⟩) ?_
        rintro ⟨c', rfl⟩ s hs ⟨c'', P, hc, h⟩
        cases hc
        refine dispose_spec (fun D => finalTx p A D S) (.inr rfl) (fun _ _ h => h)
          (fun s v ho => ?_) (Ended.stable A S p) (fun s h => ⟨?_, ?_⟩) P _ s hs h
        · exact ⟨rfl, rfl, rfl, rfl, fun _ hn => hn, .rfl,
            fun hr => absurd (ho.symm.trans hr) (by simp)⟩
        · refine ⟨rfl, rfl, rfl, rfl, fun _ hn => hn, by simp [h.owner],
            fun hr => absurd (h.owner.symm.trans hr) (by simp)⟩
        · exact ⟨h.inactive, ⟨by simp, by simp⟩, h.keeps.1, h.keeps.2⟩

/-- What a send answers, `b` if it found the lane closed: its value was accepted, or it comes back
    and nothing was. -/
def Answers (start : BitVec w) (b : Prop) (A : List V) (S : List (V × Except V Unit)) (v : V)
    (r : Except V Unit × Producer w) (s : Lane w V) : Prop :=
  match r.1 with
  | .ok _ => ¬ b ∧ Ended start (A ++ [v]) S r.2 s
  | .error v' => v' = v ∧ Ended start A S r.2 s

theorem Answers.stable (b : Prop) (A : List V) (S : List (V × Except V Unit)) (v : V)
    (r : Except V Unit × Producer w) :
    (contract start mask .producer).Stable (Answers start b A S v r) := by
  obtain ⟨answer, p⟩ := r
  cases answer with
  | ok _ => exact (Contract.Stable.pure _).and (Ended.stable _ S p)
  | error v' => exact (Contract.Stable.pure _).and (Ended.stable A S p)

/-- **A send answers what it did**: `Ok` if its value was pushed and published, its own value if
    the ring was full or the lane closed. -/
theorem pushAndFlush_spec (b : Prop) (v : V) (A : List V) (S : List (V × Except V Unit))
    (p : Producer w) :
    Triple (contract start mask .producer)
      (fun s => Ended start A S p s ∧ (b → s.closed = true))
      (pushAndFlush mask v p) (Answers start b A S v) := by
  have hclosed : (contract (V := V) start mask .producer).Stable fun s => b → s.closed = true :=
    fun _ _ _ _ hr h hb => (rely_tx hr).closed (h hb)
  refine Triple.bind (Q := fun ok s => if ok then
      ¬ b ∧ Held Lane.lens (Sending S) (p.At start A A) s
    else Ended start A S p s) (Triple.atomic ((Ended.stable A S p).and hclosed) ?_ ?_)
    fun ok => ?_
  · intro ok
    cases ok
    · exact Ended.stable A S p
    · exact (Contract.Stable.pure _).and ((sending S).stable (Producer.At.local start A A p))
  · rintro s - hs ⟨h, hb⟩ -
    simp only [h.inactive, Bool.false_or]
    split
    · exact ⟨hs, TxStep.refl s, h⟩
    · next hopen =>
      have ho : s.owner = .receiver := by
        by_contra hne
        exact hopen (hs.closed hne)
      refine ⟨{ hs with
        quiet := ?_
        flushed := fun hn => absurd hn (by simp)
        settled := fun hn => by simp [ho] at hn
        handed := fun _ hc => absurd hc hopen }, ?_, fun hb' => hopen (hb hb'), ⟨rfl, h.sent⟩,
        h.at_⟩
      · rcases hs.quiet with ⟨hc, -⟩ | hq
        · exact absurd hc hopen
        · exact .inr hq
      · exact ⟨rfl, rfl, rfl, rfl, fun hc => absurd hc hopen, .rfl,
          fun _ => ⟨rfl, [], by simp, By.nil _, fun _ _ => rfl⟩⟩
  · cases ok
    · exact Triple.ret (Answers.stable b A S v (.error v, p)) fun s _ h => ⟨rfl, h⟩
    · rintro s hs ⟨hb, h⟩
      refine Triple.bind (push_spec (sending S) trivial (.zero _ _ _) v A A p) (fun r => ?_) s hs h
      obtain ⟨answer, p'⟩ := r
      cases answer with
      | ok _ =>
        refine Triple.bind (flush_spec (sending S) trivial (A ++ [v]) A p') fun _ => ?_
        exact Triple.map (endSend_spec (A ++ [v]) S p') fun _ _ _ h => ⟨hb, h⟩
      | error v' =>
        refine Triple.given (φ := v' = v) (fun s _ h => h.2.1) ?_
        rintro rfl
        exact Triple.map ((endSend_spec A S p').pre fun s _ h => ⟨h.1, h.2.2.1⟩)
          fun _ _ _ h => ⟨rfl, h⟩

end Proof

end Fanring.Teardown
