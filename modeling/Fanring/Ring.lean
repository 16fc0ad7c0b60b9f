import Fanring.Conc.Prog
import Mathlib.Order.Basic
import Mathlib.Order.Nat
import Mathlib.Tactic.Common

/-!
# The ring of one lane

`crate::ring` over `yring`: one bounded single-producer single-consumer ring and the teardown
handshake around it. Cursors are counted from the ring's creation instead of modulo the word, and
the slots are read off the log of everything that was ever pushed: the value in the slot of cursor
`i` is `log[i]`. The producer's cursor is therefore the length of the log. That the ring of words
and slots makes the accesses of this one, with the same answers, is `Yring.ring_refined`.

The atomics are `tail`, `released` (the published head), the two `dropped` flags and the two bits of
`Cleanup::state`; `cachedHead` belongs to the producer, `head` and `cachedTail` to whoever owns the
consumer. Every function below that touches an atomic is one access. The wake hints of `yring` stay
disabled in this crate (`Waiter::register` always answers `false`), so they are left out.
-/

set_option autoImplicit false

namespace Fanring

open Conc

structure Ring (V : Type) where
  cap : Nat
  /-- Everything pushed so far, oldest first. -/
  log : List V
  tail : Nat
  /-- The head the producer can see. -/
  released : Nat
  cachedHead : Nat
  head : Nat
  cachedTail : Nat
  producerDropped : Bool
  consumerDropped : Bool
  /-- `ACTIVE` and `CLOSED` of `Cleanup::state`. -/
  active : Bool
  closed : Bool
  /-- `Cleanup::consumer` holds the consumer. -/
  handed : Bool
  ------------------------------------------------------------------------------------------------
  /-- What the consumer's last look at the tail found. -/
  found : Nat

namespace Ring

variable {V σ : Type}

/-- The first of `p`, `2 * p`, … that `n` fits in, after at most `doublings`. -/
def roundUp (n : Nat) : Nat → Nat → Nat
  | 0, p => p
  | doublings + 1, p => if n ≤ p then p else roundUp n doublings (2 * p)

/-- `checked_next_power_of_two` of a `usize`. -/
def capacityOf (n : Nat) : Nat := roundUp n 64 1

/-- A new ring; the capacity is rounded up to a power of two. -/
def new (capacity : Nat) : Ring V where
  cap := capacityOf capacity
  log := []
  tail := 0
  released := 0
  cachedHead := 0
  head := 0
  cachedTail := 0
  producerDropped := false
  consumerDropped := false
  active := false
  closed := false
  handed := false
  found := 0

/-! ## The accesses of the producer -/

/-- The producer's view of a full ring: it reloads the head only when its cached one says full. -/
def reload (r : Ring V) : Nat :=
  if r.cap ≤ r.log.length - r.cachedHead then r.released else r.cachedHead

/-- `Ring::is_full`. -/
def checkFull (r : Ring V) : Bool × Ring V :=
  (decide (r.cap ≤ r.log.length - r.reload), { r with cachedHead := r.reload })

def write (v : V) (r : Ring V) : Unit × Ring V := ((), { r with log := r.log ++ [v] })

def publish (r : Ring V) : Unit × Ring V := ((), { r with tail := r.log.length })

def dropProducer (r : Ring V) : Unit × Ring V := ((), { r with producerDropped := true })

/-- `Cleanup::begin`: claims the ring for one send unless it was closed. -/
def begin (r : Ring V) : Bool × Ring V :=
  if r.active || r.closed then (false, r) else (true, { r with active := true })

/-- The end of a send; answers whether the ring was closed meanwhile. -/
def finish (r : Ring V) : Bool × Ring V := (r.closed, { r with active := false })

/-- Takes over the consumer a teardown left behind. -/
def takeConsumer (r : Ring V) : Bool × Ring V := (r.handed, { r with handed := false })

/-! ## The accesses of the consumer -/

/-- Answers the number of values published since the last look. -/
def prefetch (r : Ring V) : Nat × Ring V :=
  (r.tail - r.cachedTail, { r with cachedTail := r.tail, found := r.tail - r.cachedTail })

def pop (r : Ring V) : Option V × Ring V :=
  if r.head = r.cachedTail then (none, r) else (r.log[r.head]?, { r with head := r.head + 1 })

/-- The next `limit` values of the prefetched window. -/
def window (r : Ring V) (limit : Nat) : List V :=
  (r.log.drop r.head).take (min (r.cachedTail - r.head) limit)

def popInto (limit : Nat) (r : Ring V) : List V × Ring V :=
  (r.window limit, { r with head := r.head + (r.window limit).length })

def release (r : Ring V) : Unit × Ring V := ((), { r with released := r.head })

def dropConsumer (r : Ring V) : Unit × Ring V := ((), { r with consumerDropped := true })

/-- `discard`: pops and drops everything published. -/
def discardAll (r : Ring V) : Unit × Ring V := ((), { r with head := r.tail, cachedTail := r.tail })

/-- `Cleanup::close`: leaves the consumer to a send in progress, or keeps it. -/
def handOver (r : Ring V) : Bool × Ring V :=
  if r.active then (false, { r with closed := true, handed := true })
  else (true, { r with closed := true })

/-- What `Producer::is_consumer_dropped` reads. -/
def isClosed (coordinated : Bool) (r : Ring V) : Bool :=
  if coordinated then r.closed else r.consumerDropped

/-! ## Cursors -/

/-- The order of the cursors, and room for what was pushed. -/
structure Ok (r : Ring V) : Prop where
  cap_pos : 0 < r.cap
  cachedHead_le : r.cachedHead ≤ r.released
  released_le : r.released ≤ r.head
  head_le : r.head ≤ r.cachedTail
  cachedTail_le : r.cachedTail ≤ r.tail
  tail_le : r.tail ≤ r.log.length
  log_le : r.log.length ≤ r.cachedHead + r.cap
  dropped : r.producerDropped = true → r.tail = r.log.length

theorem Ok.head_le_length {r : Ring V} (h : r.Ok) : r.head ≤ r.log.length :=
  le_trans h.head_le (le_trans h.cachedTail_le h.tail_le)

theorem le_roundUp (n : Nat) : ∀ k p, p ≤ roundUp n k p
  | 0, p => le_rfl
  | k + 1, p => by
    simp only [roundUp]
    split
    · exact le_rfl
    · exact le_trans (by omega) (le_roundUp n k (2 * p))

theorem Ok.new (capacity : Nat) : (new capacity : Ring V).Ok := by
  have hcap : 0 < capacityOf capacity := le_roundUp capacity 64 1
  constructor <;> simp [Ring.new, hcap]

theorem Ok.checkFull {r : Ring V} (h : r.Ok) : (checkFull r).2.Ok := by
  obtain ⟨h₁, h₂, h₃, h₄, h₅, h₆, h₇, h₈⟩ := h
  refine ⟨h₁, ?_, h₃, h₄, h₅, h₆, ?_, h₈⟩ <;>
    simp only [Ring.checkFull, reload] <;> split <;> omega

/-- A ring that is not full has room for one more value. -/
theorem Ok.write {r : Ring V} (h : r.Ok) (v : V) (hroom : r.log.length < r.cachedHead + r.cap)
    (hopen : r.producerDropped = false) : (r.write v).2.Ok := by
  obtain ⟨h₁, h₂, h₃, h₄, h₅, h₆, h₇, h₈⟩ := h
  refine ⟨h₁, h₂, h₃, h₄, h₅, ?_, ?_, ?_⟩
  · simp only [Ring.write, List.length_append, List.length_singleton]
    omega
  · simp only [Ring.write, List.length_append, List.length_singleton]
    omega
  · simp [Ring.write, hopen]

theorem room_of_checkFull {r : Ring V} (h : (checkFull r).1 = false) :
    (checkFull r).2.log.length < (checkFull r).2.cachedHead + (checkFull r).2.cap := by
  simp only [checkFull, decide_eq_false_iff_not, not_le] at h ⊢
  omega

theorem Ok.publish {r : Ring V} (h : r.Ok) : (publish r).2.Ok := by
  obtain ⟨h₁, h₂, h₃, h₄, h₅, h₆, h₇, h₈⟩ := h
  exact ⟨h₁, h₂, h₃, h₄, le_trans h₅ h₆, le_rfl, h₇, fun _ => rfl⟩

theorem Ok.prefetch {r : Ring V} (h : r.Ok) : (prefetch r).2.Ok := by
  obtain ⟨h₁, h₂, h₃, h₄, h₅, h₆, h₇, h₈⟩ := h
  exact ⟨h₁, h₂, h₃, le_trans h₄ h₅, le_rfl, h₆, h₇, h₈⟩

theorem Ok.release {r : Ring V} (h : r.Ok) : (release r).2.Ok := by
  obtain ⟨h₁, h₂, h₃, h₄, h₅, h₆, h₇, h₈⟩ := h
  exact ⟨h₁, le_trans h₂ h₃, le_rfl, h₄, h₅, h₆, h₇, h₈⟩

theorem Ok.discardAll {r : Ring V} (h : r.Ok) : (discardAll r).2.Ok := by
  obtain ⟨h₁, h₂, h₃, h₄, h₅, h₆, h₇, h₈⟩ := h
  refine ⟨h₁, h₂, ?_, le_rfl, le_rfl, h₆, h₇, h₈⟩
  simp only [Ring.discardAll]
  omega

/-- Taking `n` values of the prefetched window. -/
theorem Ok.advance {r : Ring V} (h : r.Ok) {n : Nat} (hn : r.head + n ≤ r.cachedTail) :
    ({ r with head := r.head + n } : Ring V).Ok := by
  obtain ⟨h₁, h₂, h₃, h₄, h₅, h₆, h₇, h₈⟩ := h
  exact ⟨h₁, h₂, le_trans h₃ (Nat.le_add_right _ _), hn, h₅, h₆, h₇, h₈⟩

theorem Ok.length_window {r : Ring V} (h : r.Ok) (limit : Nat) :
    (r.window limit).length = min (r.cachedTail - r.head) limit := by
  obtain ⟨h₁, h₂, h₃, h₄, h₅, h₆, h₇, h₈⟩ := h
  simp only [window, List.length_take, List.length_drop]
  omega

/-- What a step of the producer's side may do to a ring: the consumer's side is left alone unless
    the producer owns it because the ring was closed. -/
structure OwnStep (r r' : Ring V) : Prop where
  ok : r.Ok → r'.Ok
  cap : r'.cap = r.cap
  log : r.log <+: r'.log
  tail : r.tail ≤ r'.tail
  closed : r'.closed = r.closed
  consumerDropped : r.consumerDropped = true → r'.consumerDropped = true
  consumer : r.closed = false → r'.consumerDropped = r.consumerDropped ∧ r'.head = r.head ∧
    r'.cachedTail = r.cachedTail ∧ r'.released = r.released ∧ r'.found = r.found

theorem OwnStep.isClosed {r r' : Ring V} (h : OwnStep r r') {c : Bool}
    (hc : r.isClosed c = true) : r'.isClosed c = true := by
  cases c
  · exact h.consumerDropped hc
  · exact h.closed.trans hc

/-- What a step of the consumer's side may do to a ring, closing it included. -/
structure ConsumeStep (r r' : Ring V) : Prop where
  cap : r'.cap = r.cap
  log : r'.log = r.log
  tail : r'.tail = r.tail
  cachedHead : r'.cachedHead = r.cachedHead
  producerDropped : r'.producerDropped = r.producerDropped
  active : r'.active = r.active
  head : r.head ≤ r'.head
  closed : r.closed = true → r'.closed = true
  consumerDropped : r.consumerDropped = true → r'.consumerDropped = true

theorem ConsumeStep.refl (r : Ring V) : ConsumeStep r r :=
  ⟨rfl, rfl, rfl, rfl, rfl, rfl, le_rfl, id, id⟩

theorem ConsumeStep.isClosed {r r' : Ring V} (h : ConsumeStep r r') {c : Bool}
    (hc : r.isClosed c = true) : r'.isClosed c = true := by
  cases c
  · exact h.consumerDropped hc
  · exact h.closed hc

/-! ## The operations -/

section Code

variable (L : Lens σ (Ring V))

/-- `Producer::push`; answers whether the value went in. -/
def push (v : V) : Prog σ Bool := do
  if ← L.access checkFull then
    return false
  L.access (write v)
  return true

def flush : Prog σ Unit := L.access publish

/-- What is left of a discarded consumer: its values dropped, its credit returned. -/
def dispose (ghost : σ → σ) : Prog σ Unit := do
  L.accessWith (fun _ => ghost) discardAll
  L.accessWith (fun _ => ghost) release
  L.accessWith (fun _ => ghost) dropConsumer

/-- `SendGuard::drop`. -/
def endSend : Prog σ Unit := do
  if ← L.access finish then
    if ← L.access takeConsumer then
      dispose L id

/-- `Producer::push_and_flush`. -/
def pushAndFlush (coordinated : Bool) (v : V) : Prog σ Bool := do
  if coordinated then
    if ← L.access begin then
      let ok ← push L v
      if ok then
        flush L
      endSend L
      return ok
    else
      return false
  else
    let ok ← push L v
    if ok then
      flush L
    return ok

def isConsumerDropped (coordinated : Bool) : Prog σ Bool :=
  .read fun s => (L.get s).isClosed coordinated

/-- `Producer::close`. -/
def closeProducer : Prog σ Unit := do
  flush L
  L.access dropProducer

/-- `Consumer::is_disconnected`. -/
def isDisconnected : Prog σ Bool := do
  if ← Prog.read fun s => (L.get s).producerDropped then
    Prog.read fun s => decide ((L.get s).head = (L.get s).tail)
  else
    return false

/-- `Consumer::close`. Its first access has a ghost of its own. -/
def closeConsumer (first ghost : σ → σ) (coordinated : Bool) : Prog σ Unit := do
  if coordinated then
    L.accessWith (fun _ => first) discardAll
    if ← L.accessWith (fun _ => ghost) handOver then
      dispose L ghost
  else
    L.accessWith (fun _ => first) release
    L.accessWith (fun _ => ghost) dropConsumer

end Code

end Ring

end Fanring
