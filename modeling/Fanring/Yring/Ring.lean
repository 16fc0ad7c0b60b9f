import Fanring.Conc.Prog
import Fanring.Cursor

/-!
# The single-producer single-consumer ring

`yring`: a buffer of a power of two many slots between one producer and one consumer. Cursors are
words of `w` bits that run freely and wrap; a cursor's slot is its low bits. The producer writes
at its private `cursor` and publishes with a store to `tail`; the consumer reads at its private
`head` inside the window up to its copy of `tail` and gives slots back with a store to the shared
`head`. Each endpoint acts on a stale copy of the other's cursor and reloads it only when the copy
says it has to.

Every load and store of a shared cell is one access here, every read or write of a slot is one
access, and the two endpoints are values that the code passes along: `&mut self` is a new value.
The mask never changes after construction, so the code has it as a constant. A slot is
`MaybeUninit`: moving a value out leaves the slot as it was, so that code that reads it again
would get the value twice, and reading a slot that was never written gets `none`.

`trace` is what the accesses did, in their order. The code never reads it; the properties of the
ring are statements about it.
-/

set_option autoImplicit false

namespace Fanring.Yring

open Conc

/-- What one access did. -/
inductive Event (V : Type)
  /-- The producer loaded `head`; for a push, with the value in hand. -/
  | loadHead (pushing : Option V)
  /-- A push wrote its value. -/
  | write (slot : Nat) (v : V)
  /-- The producer stored its cursor to `tail`. -/
  | flush
  /-- The consumer loaded `tail` into its window. -/
  | loadTail
  /-- The consumer looked at a slot. -/
  | peek (slot : Nat) (contents : Option V)
  /-- The consumer moved a value out of a slot. -/
  | take (slot : Nat) (contents : Option V)
  /-- The consumer stored its position to `head`. -/
  | release
  /-- The owner of the consumer began to tear it down. -/
  | teardown
  /-- The last owner of the ring dropped a value in place. -/
  | destroy (slot : Nat) (contents : Option V)
  deriving DecidableEq

structure Waiter where
  enabled : Bool
  armed : Bool
  waiting : Bool
  deriving DecidableEq

/-- The shared part of a ring. -/
structure Ring (w : Nat) (V : Type) where
  buf : Nat → Option V
  head : BitVec w
  tail : BitVec w
  consumerWaiting : Waiter
  producerWaiting : Waiter
  producerDropped : Bool
  consumerDropped : Bool
  trace : List (Event V)

structure Producer (w : Nat) where
  cursor : BitVec w
  cachedHead : BitVec w
  deriving DecidableEq

structure Consumer (w : Nat) where
  head : BitVec w
  cachedTail : BitVec w
  deriving DecidableEq

variable {w : Nat} {V σ : Type}

/-- `checked_next_power_of_two` of a `usize` of `w` bits. -/
def checkedNextPowerOfTwo (w n : Nat) : Option Nat :=
  if n.nextPowerOfTwo < 2 ^ w then some n.nextPowerOfTwo else none

/-- The mask of a ring of the asked capacity, if `Ring::new` accepts it. -/
def maskOf (w capacity : Nat) : Option (BitVec w) :=
  if 0 < capacity then
    match checkedNextPowerOfTwo w capacity with
    | some cap => if cap ≤ (2 ^ w - 1) / 2 then some (BitVec.ofNat w (cap - 1)) else none
    | none => none
  else none

def Waiter.new : Waiter := ⟨false, false, false⟩

/-- `Ring::new`, with its cursors at `start`. -/
def Ring.new (start : BitVec w) : Ring w V where
  buf := fun _ => none
  head := start
  tail := start
  consumerWaiting := .new
  producerWaiting := .new
  producerDropped := false
  consumerDropped := false
  trace := []

def capacity (mask : BitVec w) : Nat := mask.toNat + 1

def distance (a b : BitVec w) : Nat := (a - b).toNat

def index (mask cursor : BitVec w) : Nat := (cursor &&& mask).toNat

/-- Whether the producer's copy of `head` leaves it no slot. -/
def Producer.full (mask : BitVec w) (p : Producer w) : Bool :=
  decide (capacity mask ≤ distance p.cursor p.cachedHead)

namespace Ring

/-! ## One access each -/

def log (e : Event V) (r : Ring w V) : Ring w V := { r with trace := r.trace ++ [e] }

def loadHead (pushing : Option V) (r : Ring w V) : BitVec w × Ring w V :=
  (r.head, r.log (.loadHead pushing))

def write (slot : Nat) (v : V) (r : Ring w V) : Unit × Ring w V :=
  ((), { r with buf := Function.update r.buf slot (some v) }.log (.write slot v))

def storeTail (cursor : BitVec w) (r : Ring w V) : Unit × Ring w V :=
  ((), { r with tail := cursor }.log .flush)

def loadTail (r : Ring w V) : BitVec w × Ring w V := (r.tail, r.log .loadTail)

def peek (slot : Nat) (r : Ring w V) : Option V × Ring w V :=
  (r.buf slot, r.log (.peek slot (r.buf slot)))

def take (slot : Nat) (r : Ring w V) : Option V × Ring w V :=
  (r.buf slot, r.log (.take slot (r.buf slot)))

def storeHead (head : BitVec w) (r : Ring w V) : Unit × Ring w V :=
  ((), { r with head := head }.log .release)

def dropProducer (r : Ring w V) : Unit × Ring w V := ((), { r with producerDropped := true })

def dropConsumer (r : Ring w V) : Unit × Ring w V := ((), { r with consumerDropped := true })

def destroy (slot : Nat) (r : Ring w V) : Ring w V := r.log (.destroy slot (r.buf slot))

/-! ## The end of a ring

`drop_remaining` has the ring to itself, so it is a function and not code among other code. -/

/-- Drops the values from `i` up to `tail`. -/
def dropFrom (mask tail i : BitVec w) (r : Ring w V) : Ring w V :=
  if i = tail then r else dropFrom mask tail (i + 1) (r.destroy (index mask i))
termination_by (tail - i).toNat
decreasing_by exact Cursor.toNat_sub_succ_lt (Ne.symm ‹_›)

/-- `Ring::drop_remaining`: the published head is advanced before anything is dropped. -/
def dropRemaining (mask : BitVec w) (r : Ring w V) : Ring w V :=
  dropFrom mask r.tail r.head { r with head := r.tail }

/-- The drop of the ring; `AsyncRing` drains before the ring it wraps does. -/
def drop (mask : BitVec w) (wrapped : Bool) (r : Ring w V) : Ring w V :=
  if wrapped then dropRemaining mask (dropRemaining mask r) else dropRemaining mask r

end Ring

/-! ## Wake hints -/

/-- One of the two waiters of a ring. -/
inductive Side
  | producer
  | consumer
  deriving DecidableEq

def Ring.waiter (r : Ring w V) : Side → Waiter
  | .producer => r.producerWaiting
  | .consumer => r.consumerWaiting

def Ring.setWaiter (r : Ring w V) (x : Waiter) : Side → Ring w V
  | .producer => { r with producerWaiting := x }
  | .consumer => { r with consumerWaiting := x }

section Code

variable (L : Lens σ (Ring w V)) (mask : BitVec w)

/-- One access to a waiter of the ring. -/
def Waiter.access {α : Type} (side : Side) (f : Waiter → α × Waiter) : Prog σ α :=
  L.access fun r => ((f (r.waiter side)).1, r.setWaiter (f (r.waiter side)).2 side)

def Waiter.enable (side : Side) : Prog σ Unit := do
  if ← Waiter.access L side fun x => (x.enabled, x) then
    return ()
  else
    Waiter.access L side fun x => ((), { x with enabled := true })

def Waiter.register (side : Side) : Prog σ Bool := do
  if ← Waiter.access L side fun x => (x.enabled, x) then
    Waiter.access L side fun x => ((), { x with waiting := true })
    Waiter.access L side fun x => ((), { x with armed := true })
    return true
  else
    return false

def Waiter.swap (side : Side) : Prog σ Bool :=
  Waiter.access L side fun x => (x.waiting, { x with waiting := false })

def Waiter.clear (side : Side) : Prog σ Bool :=
  Waiter.access L side fun x => (true, { x with waiting := false })

def Waiter.take (side : Side) (observed : Bool) : Prog σ Bool := do
  if observed then
    Waiter.clear L side
  else if ← Waiter.access L side fun x => (x.armed, x) then
    Waiter.swap L side
  else
    Waiter.clear L side

/-! ## The producer -/

/-- The copy of `head`, reloaded if it says full. -/
def Producer.refresh (pushing : Option V) (p : Producer w) : Prog σ (Producer w) :=
  if p.full mask then do
    let head ← L.access (Ring.loadHead pushing)
    return { p with cachedHead := head }
  else
    return p

/-- `Ring::push`; answers whether the value was written. -/
def Ring.push (v : V) (p : Producer w) : Prog σ (Bool × Producer w) := do
  let p ← p.refresh L mask (some v)
  if p.full mask then
    return (false, p)
  else
    L.access (Ring.write (index mask p.cursor) v)
    return (true, { p with cursor := p.cursor + 1 })

/-- `Producer::push`. -/
def Producer.push (v : V) (p : Producer w) : Prog σ (Except V Unit × Producer w) := do
  let (ok, p) ← Ring.push L mask v p
  if ok then
    return (.ok (), p)
  else if ← Waiter.register L .producer then
    let (ok, p) ← Ring.push L mask v p
    if ok then
      return (.ok (), p)
    else
      return (.error v, p)
  else
    return (.error v, p)

def Producer.flush (p : Producer w) : Prog σ Unit := L.access (Ring.storeTail p.cursor)

inductive FlushResult
  | flushed (count : Nat) (wasEmpty : Bool)
  | nothingToFlush

/-- `Producer::flush_and_check`. -/
def Producer.flushAndCheck (p : Producer w) : Prog σ (FlushResult × Producer w) := do
  Waiter.enable L .consumer
  let prevTail ← L.access fun r => (r.tail, r)
  if p.cursor = prevTail then
    return (.nothingToFlush, p)
  else
    let head ← L.access (Ring.loadHead none)
    L.access (Ring.storeTail p.cursor)
    let wake ← Waiter.take L .consumer (prevTail == head)
    return (.flushed (distance p.cursor prevTail) wake, { p with cachedHead := head })

/-- `Producer::is_full`. -/
def Producer.isFull (p : Producer w) : Prog σ (Bool × Producer w) := do
  let p ← p.refresh L mask none
  if p.full mask then
    if ← Waiter.register L .producer then
      let p ← p.refresh L mask none
      return (p.full mask, p)
    else
      return (true, p)
  else
    return (false, p)

/-- `Producer::push_and_flush`. -/
def Producer.pushAndFlush (v : V) (p : Producer w) : Prog σ (Except V Unit × Producer w) := do
  let (r, p) ← p.push L mask v
  match r with
  | .ok _ =>
    p.flush L
    return (.ok (), p)
  | .error v => return (.error v, p)

def Producer.close (p : Producer w) : Prog σ Unit := do
  p.flush L
  L.access Ring.dropProducer

/-! ## The consumer -/

/-- `Consumer::pop`. -/
def Consumer.pop (c : Consumer w) : Prog σ (Option V × Consumer w) :=
  if c.head = c.cachedTail then
    return (none, c)
  else do
    let v ← L.access (Ring.take (index mask c.head))
    return (v, { c with head := c.head + 1 })

/-- `Ring::move_slots`. -/
def moveSlots : Nat → Nat → List V → Prog σ (List V)
  | _, 0, output => return output
  | start, len + 1, output => do
    let v ← L.access (Ring.take start)
    moveSlots (start + 1) len (output ++ v.toList)

/-- `Ring::pop_into`: two contiguous moves. -/
def Ring.popInto (count : Nat) (output : List V) (c : Consumer w) :
    Prog σ (List V × Consumer w) := do
  let start := index mask c.head
  let first := min count (capacity mask - start)
  let output ← moveSlots L start first output
  let output ← moveSlots L 0 (count - first) output
  return (output, { c with head := c.head + BitVec.ofNat w count })

/-- `Consumer::pop_into`. -/
def Consumer.popInto (limit : Nat) (output : List V) (c : Consumer w) :
    Prog σ (Nat × List V × Consumer w) := do
  let count := min (distance c.cachedTail c.head) limit
  if count = 0 then
    return (0, output, c)
  else
    let (output, c) ← Ring.popInto L mask count output c
    return (count, output, c)

/-- `Ring::accepted_prefix`. The predicate may depend on the values it saw before in the call. -/
def acceptedPrefix (accept : List V → V → Bool) (head : BitVec w) :
    Nat → List V → Prog σ Nat
  | 0, seen => return seen.length
  | limit + 1, seen => do
    match ← L.access (Ring.peek (index mask (head + BitVec.ofNat w seen.length))) with
    | some v =>
      if accept seen v then
        acceptedPrefix accept head limit (seen ++ [v])
      else
        return seen.length
    | none => return seen.length

/-- `Consumer::pop_into_while`. -/
def Consumer.popIntoWhile (accept : List V → V → Bool) (limit : Nat) (output : List V)
    (c : Consumer w) : Prog σ (Nat × List V × Consumer w) := do
  let window := min (distance c.cachedTail c.head) limit
  if window = 0 then
    return (0, output, c)
  else
    let count ← acceptedPrefix L mask accept c.head window []
    if count = 0 then
      return (0, output, c)
    else
      let (output, c) ← Ring.popInto L mask count output c
      return (count, output, c)

def Consumer.release (c : Consumer w) : Prog σ Unit := L.access (Ring.storeHead c.head)

/-- `Consumer::release_with_full`. -/
def Consumer.releaseWithFull (c : Consumer w) : Prog σ Bool := do
  Waiter.enable L .producer
  let publishedHead ← L.access fun r => (r.head, r)
  if c.head = publishedHead then
    return false
  else
    c.release L
    Waiter.take L .producer (decide (capacity mask ≤ distance c.cachedTail publishedHead))

/-- `Consumer::prefetch`. -/
def Consumer.prefetch (c : Consumer w) : Prog σ (Nat × Consumer w) := do
  let tail ← L.access Ring.loadTail
  if c.head = tail then
    if ← Waiter.register L .consumer then
      let again ← L.access Ring.loadTail
      return (distance again tail, { c with cachedTail := again })
    else
      return (0, { c with cachedTail := tail })
  else
    return (distance tail c.cachedTail, { c with cachedTail := tail })

/-- `Consumer::prefetch_and_pop`. -/
def Consumer.prefetchAndPop (c : Consumer w) : Prog σ (Option V × Consumer w) := do
  let c ← if c.head = c.cachedTail then do
      let (_, c) ← c.prefetch L
      pure c
    else pure c
  let (v, c) ← c.pop L mask
  if v.isSome then
    c.release L
  return (v, c)

def Consumer.close (c : Consumer w) : Prog σ Unit := do
  c.release L
  L.access Ring.dropConsumer

end Code

end Fanring.Yring
