import Fanring.Yring.Ring

/-!
# What a trace says

The properties of a ring are about the accesses its endpoints made, in their order, and not about
the cursors it keeps. `tally` reads off a trace the values accepted, flushed, popped, released and
destroyed, how much each endpoint has seen of the other, and which value each slot holds.
`Lawful` is what the specification asks of an access, given the ones before it: a write may not
hit a slot that still holds a value, a read must find a published one. `Refused` is what it asks
of a push that answers `Err`: its own last load of `head` found the ring full.
-/

set_option autoImplicit false

namespace Fanring.Yring

variable {V : Type}

/-- The endpoint that makes an access; nobody's while the ring is dropped. -/
def Event.side : Event V → Option Side
  | .loadHead _ | .write _ _ | .flush => some .producer
  | .loadTail | .peek _ _ | .take _ _ | .release | .teardown => some .consumer
  | .destroy _ _ => none

def Side.other : Side → Side
  | .producer => .consumer
  | .consumer => .producer

theorem Side.other_other (side : Side) : side.other.other = side := by cases side <;> rfl

theorem Side.eq_other {side u : Side} (h : u ≠ side) : u = side.other := by
  cases side <;> cases u <;> first | rfl | exact absurd rfl h

structure Tally (V : Type) where
  accepted : List V
  flushed : List V
  popped : List V
  released : List V
  destroyed : List V
  /-- How many values had been released when the producer last looked. -/
  seenHead : Nat
  /-- How many values had been flushed when the consumer last looked. -/
  seenTail : Nat
  /-- The number of the value last written to a slot, counted from the first accepted one. -/
  holder : Nat → Option Nat

namespace Tally

def empty : Tally V := ⟨[], [], [], [], [], 0, 0, fun _ => none⟩

def add (y : Tally V) : Event V → Tally V
  | .loadHead _ => { y with seenHead := y.released.length }
  | .write slot v =>
    { y with
      accepted := y.accepted ++ [v]
      holder := Function.update y.holder slot (some y.accepted.length) }
  | .flush => { y with flushed := y.accepted }
  | .loadTail => { y with seenTail := y.flushed.length }
  | .peek _ _ => y
  | .take _ contents => { y with popped := y.popped ++ contents.toList }
  | .release => { y with released := y.popped }
  | .teardown => y
  | .destroy _ contents => { y with destroyed := y.destroyed ++ contents.toList }

end Tally

def tally (t : List (Event V)) : Tally V := t.foldl Tally.add .empty

@[simp] theorem tally_nil : tally ([] : List (Event V)) = .empty := rfl

@[simp] theorem tally_concat (t : List (Event V)) (e : Event V) :
    tally (t ++ [e]) = (tally t).add e := by
  simp [tally]

/-! ## Accesses of one endpoint leave the other's part alone -/

/-- The accesses were all made by one endpoint. -/
def By (side : Side) (es : List (Event V)) : Prop := ∀ e ∈ es, e.side = some side

theorem By.nil (side : Side) : By side ([] : List (Event V)) := fun _ h => absurd h (by simp)

theorem By.one {side : Side} {e : Event V} (h : e.side = some side) : By side [e] := by
  simpa [By] using h

/-- The producer's part of a tally. -/
structure SameTx (y y' : Tally V) : Prop where
  accepted : y'.accepted = y.accepted
  flushed : y'.flushed = y.flushed
  seenHead : y'.seenHead = y.seenHead
  holder : y'.holder = y.holder
  destroyed : y'.destroyed = y.destroyed

/-- The consumer's part of a tally. -/
structure SameRx (y y' : Tally V) : Prop where
  popped : y'.popped = y.popped
  released : y'.released = y.released
  seenTail : y'.seenTail = y.seenTail
  destroyed : y'.destroyed = y.destroyed

theorem SameTx.of_by {t es : List (Event V)} (h : By .consumer es) :
    SameTx (tally t) (tally (t ++ es)) := by
  induction es generalizing t with
  | nil => rw [List.append_nil]; exact ⟨rfl, rfl, rfl, rfl, rfl⟩
  | cons e es ih =>
    have hstep : SameTx (tally t) (tally (t ++ [e])) := by
      have he := h e (List.mem_cons_self ..)
      rw [tally_concat]
      cases e <;> first | exact ⟨rfl, rfl, rfl, rfl, rfl⟩ | exact absurd he (by simp [Event.side])
    have hrest := ih (t := t ++ [e]) fun e' he' => h e' (List.mem_cons_of_mem _ he')
    rw [List.append_assoc, List.singleton_append] at hrest
    exact ⟨hrest.accepted.trans hstep.accepted, hrest.flushed.trans hstep.flushed,
      hrest.seenHead.trans hstep.seenHead, hrest.holder.trans hstep.holder,
      hrest.destroyed.trans hstep.destroyed⟩

theorem SameRx.of_by {t es : List (Event V)} (h : By .producer es) :
    SameRx (tally t) (tally (t ++ es)) := by
  induction es generalizing t with
  | nil => rw [List.append_nil]; exact ⟨rfl, rfl, rfl, rfl⟩
  | cons e es ih =>
    have hstep : SameRx (tally t) (tally (t ++ [e])) := by
      have he := h e (List.mem_cons_self ..)
      rw [tally_concat]
      cases e <;> first | exact ⟨rfl, rfl, rfl, rfl⟩ | exact absurd he (by simp [Event.side])
    have hrest := ih (t := t ++ [e]) fun e' he' => h e' (List.mem_cons_of_mem _ he')
    rw [List.append_assoc, List.singleton_append] at hrest
    exact ⟨hrest.popped.trans hstep.popped, hrest.released.trans hstep.released,
      hrest.seenTail.trans hstep.seenTail, hrest.destroyed.trans hstep.destroyed⟩

/-! ## What an endpoint moved -/

/-- The values the endpoint moved into the ring or out of it. -/
def Tally.moved (y : Tally V) : Side → List V
  | .producer => y.accepted
  | .consumer => y.popped

theorem moved_append {side : Side} {t es : List (Event V)} (h : By side.other es) :
    (tally (t ++ es)).moved side = (tally t).moved side := by
  cases side with
  | producer => exact (SameTx.of_by h).accepted
  | consumer => exact (SameRx.of_by h).popped

theorem moved_grows (side : Side) (t es : List (Event V)) :
    (tally t).moved side <+: (tally (t ++ es)).moved side := by
  induction es generalizing t with
  | nil => rw [List.append_nil]
  | cons e es ih =>
    have hstep : (tally t).moved side <+: (tally (t ++ [e])).moved side := by
      rw [tally_concat]
      cases side <;> cases e <;> first | exact List.prefix_rfl | exact List.prefix_append ..
    have hrest := ih (t := t ++ [e])
    rw [List.append_assoc, List.singleton_append] at hrest
    exact hstep.trans hrest

/-- The value of a push, if it answered `Ok`. -/
def taken (v : V) : Except V Unit → Option V
  | .ok _ => some v
  | .error _ => none

/-! ## The specification of an access -/

/-- After the first `began` accesses there was a load of `head` by a push of `v`, with no access
    of the producer since, and it found the whole capacity accepted and not released. -/
def Refused (cap : Nat) (v : V) (began : Nat) (past : List (Event V)) : Prop :=
  ∃ p q, past = p ++ .loadHead (some v) :: q ∧ began ≤ p.length ∧
    (∀ e ∈ q, e.side ≠ some .producer) ∧
    (tally p).accepted.length = (tally p).released.length + cap

/-- The slot holds the accepted value number `k`, and `contents` is that value. -/
def Holds (y : Tally V) (slot : Nat) (contents : Option V) (k : Nat) : Prop :=
  y.holder slot = some k ∧ contents.isSome ∧ contents = y.accepted[k]?

/-- What the specification asks of an access after the accesses `past`. -/
def Lawful (cap : Nat) (past : List (Event V)) : Event V → Prop
  | .write slot _ =>
    (∀ k, (tally past).holder slot = some k → k < (tally past).released.length) ∧
      (tally past).accepted.length < (tally past).released.length + cap
  | .peek slot contents | .take slot contents =>
    ∃ k, Holds (tally past) slot contents k ∧ k < (tally past).flushed.length
  | .destroy slot contents => ∃ k, Holds (tally past) slot contents k
  | .loadHead _ | .flush | .loadTail | .release | .teardown => True

/-- Every access of the trace is lawful. -/
def AllLawful (cap : Nat) (t : List (Event V)) : Prop :=
  ∀ past e rest, t = past ++ e :: rest → Lawful cap past e

theorem AllLawful.nil (cap : Nat) : AllLawful cap ([] : List (Event V)) := by
  intro past e rest h
  simp at h

theorem AllLawful.concat {cap : Nat} {t : List (Event V)} {e : Event V} (h : AllLawful cap t)
    (he : Lawful cap t e) : AllLawful cap (t ++ [e]) := by
  intro past e' rest heq
  rcases List.eq_nil_or_concat rest with rfl | ⟨rest', last, rfl⟩
  · obtain ⟨rfl, hlast⟩ := List.append_inj' heq rfl
    simp only [List.cons.injEq, and_true] at hlast
    exact hlast ▸ he
  · have heq' : t ++ [e] = (past ++ e' :: rest') ++ [last] := by
      rw [heq]
      simp
    exact h past e' rest' (List.append_inj' heq' rfl).1

theorem Refused.append {cap n : Nat} {v : V} {t es : List (Event V)} (h : Refused cap v n t)
    (hes : By .consumer es) : Refused cap v n (t ++ es) := by
  obtain ⟨p, q, rfl, hn, hq, hfull⟩ := h
  refine ⟨p, q ++ es, by simp, hn, fun e he => ?_, hfull⟩
  rcases List.mem_append.mp he with he | he
  · exact hq e he
  · rw [hes e he]
    simp

end Fanring.Yring
