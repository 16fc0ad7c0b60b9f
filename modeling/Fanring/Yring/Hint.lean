import Fanring.Conc.Return
import Fanring.Conc.System
import Fanring.Yring.Trace

/-!
# Wake hints

A ring leaves waiting to its users. What it gives them are hints: `flush_and_check` and the
releasing calls answer whether the other endpoint may be waiting for what they published, and the
checks that find nothing (`prefetch` and `is_empty`, `push` and `is_full`) register for such a
hint. An endpoint that never uses the hints pays nothing for them, so they are switched on by the
first call that asks for one, and until the peer has acknowledged that, every publication says
wake.

The system of this module is a ring between two threads that call their endpoint's operations in
any order, each access a step of its own. `Half` records for each endpoint what its calls
answered, at their last access: no code reads it, and the two guarantees of the hints are about
it.
-/

set_option autoImplicit false

namespace Fanring.Yring

open Conc

variable {w : Nat} {V σ : Type}

section Code

variable (L : Lens σ (Ring w V))

/-- `Ring::consumer_is_empty`. -/
def Ring.consumerIsEmpty (c : Consumer w) : Prog σ Bool :=
  if c.head = c.cachedTail then
    L.access fun r => (r.tail == c.head, r)
  else
    return false

/-- `Consumer::is_empty`. -/
def Consumer.isEmpty (c : Consumer w) : Prog σ Bool := do
  if ← Ring.consumerIsEmpty L c then
    if ← Waiter.register L .consumer then
      Ring.consumerIsEmpty L c
    else
      return true
  else
    return false

end Code

/-! ## What the calls answered -/

/-- One endpoint's part of the record. -/
structure Half where
  /-- The answers of its calls that publish with a hint, each added when its last access, the
      update of the other's waiter, was made. -/
  signals : List Bool
  /-- How often it has published without a hint. -/
  plain : Nat
  /-- It is in a call that publishes with a hint. -/
  signalling : Bool
  /-- Its last check has returned and found nothing. -/
  resting : Bool
  /-- The other's signals when its last check started. -/
  seenSignals : Nat
  /-- The other's publications without a hint when its last check started. -/
  seenPlain : Nat
  deriving DecidableEq

/-- A ring, its two endpoints and what their calls answered. -/
structure Hinted (w : Nat) (V : Type) where
  ring : Ring w V
  tx : Producer w
  rx : Consumer w
  half : Side → Half

namespace Hinted

/-- `spsc`, with the cursors at `start`. -/
def new (start : BitVec w) : Hinted w V where
  ring := .new start
  tx := ⟨start, start⟩
  rx := ⟨start, start⟩
  half _ := ⟨[], 0, false, false, 0, 0⟩

def lens : Lens (Hinted w V) (Ring w V) where
  get s := s.ring
  set r s := { s with ring := r }

def producer : Lens (Hinted w V) (Producer w) where
  get s := s.tx
  set p s := { s with tx := p }

def consumer : Lens (Hinted w V) (Consumer w) where
  get s := s.rx
  set c s := { s with rx := c }

def setHalf (s : Hinted w V) (side : Side) (h : Half) : Hinted w V :=
  { s with half := Function.update s.half side h }

/-- A check starts. -/
def check (side : Side) (s : Hinted w V) : Hinted w V :=
  s.setHalf side { s.half side with
    resting := false
    seenSignals := (s.half side.other).signals.length
    seenPlain := (s.half side.other).plain }

/-- A check has returned. -/
def report (side : Side) (nothing : Bool) (s : Hinted w V) : Hinted w V :=
  s.setHalf side { s.half side with resting := nothing }

/-- A call that publishes with a hint starts. -/
def signal (side : Side) (s : Hinted w V) : Hinted w V :=
  s.setHalf side { s.half side with signalling := true }

/-- A call that publishes with a hint has returned; `none` if it published nothing. -/
def signalled (side : Side) (answer : Option Bool) (s : Hinted w V) : Hinted w V :=
  s.setHalf side { s.half side with
    signalling := false
    signals := (s.half side).signals ++ answer.toList }

/-- A call has published without a hint. -/
def published (side : Side) (s : Hinted w V) : Hinted w V :=
  s.setHalf side { s.half side with plain := (s.half side).plain + 1 }

end Hinted

/-! ## The system -/

namespace Hint

inductive Op (V : Type)
  | push (v : V)
  | flush
  | flushAndCheck
  | pushAndFlush (v : V)
  | isFull
  | prefetch
  | isEmpty
  | pop
  | popInto (limit : Nat)
  | popIntoWhile (accept : List V → V → Bool) (limit : Nat)
  | release
  | releaseWithFull
  | prefetchAndPop
  | prefetchAndPopWithFull

def Op.side : Op V → Side
  | .push _ | .flush | .flushAndCheck | .pushAndFlush _ | .isFull => .producer
  | .prefetch | .isEmpty | .pop | .popInto _ | .popIntoWhile _ _ | .release | .releaseWithFull
  | .prefetchAndPop | .prefetchAndPopWithFull => .consumer

section Code

variable (mask : BitVec w)

/-- An operation on an endpoint, `&mut self`: `enter` and `leave` are what the call and its answer
    add to the record. -/
def call {τ α : Type} (H : Lens (Hinted w V) τ) (enter : τ → Hinted w V → Hinted w V)
    (f : τ → Prog (Hinted w V) (α × τ)) (leave : α → τ → Hinted w V → Hinted w V) :
    Prog (Hinted w V) Unit :=
  ((Prog.atomic fun s => (H.get s, enter (H.get s) s)).bind f).closing fun r s =>
    leave r.1 r.2 (H.set r.2 s)

/-- `Consumer::prefetch_and_pop_with_full`; its prefetch is a check, which starts where it
    starts. -/
def prefetchAndPopWithFull (c : Consumer w) :
    Prog (Hinted w V) (Option (V × Bool) × Consumer w) := do
  Waiter.enable Hinted.lens .producer
  let c ← if c.head = c.cachedTail then do
      Prog.write (Hinted.check .consumer)
      let (_, c) ← c.prefetch Hinted.lens
      pure c
    else pure c
  let wasFull := decide (capacity mask ≤ distance c.cachedTail c.head)
  let (v, c) ← c.pop Hinted.lens mask
  match v with
  | none => return (none, c)
  | some v =>
    c.release Hinted.lens
    let wake ← Waiter.take Hinted.lens .producer wasFull
    return (some (v, wake), c)

/-- A pop that answers `None` leaves the head where it was. -/
def stayed (c c' : Consumer w) : Bool := decide (c'.head = c.head)

/-- What a `flush_and_check` that published something answered. -/
def wasEmpty : FlushResult → Option Bool
  | .flushed _ wake => some wake
  | .nothingToFlush => none

def code : Op V → Prog (Hinted w V) Unit
  | .push v =>
    call Hinted.producer (fun _ => Hinted.check .producer)
      (fun p => p.push Hinted.lens mask v) fun r _ =>
      Hinted.report .producer (match r with | .ok _ => false | .error _ => true)
  | .flush =>
    call Hinted.producer (fun _ s => s)
      (fun p => do
        p.flush Hinted.lens
        return ((), p)) fun _ _ => Hinted.published .producer
  | .flushAndCheck =>
    call Hinted.producer (fun _ => Hinted.signal .producer) (fun p => p.flushAndCheck Hinted.lens)
      fun r _ => Hinted.signalled .producer (wasEmpty r)
  | .pushAndFlush v =>
    call Hinted.producer (fun _ => Hinted.check .producer)
      (fun p => p.pushAndFlush Hinted.lens mask v) fun r _ s =>
      match r with
      | .ok _ => s.published .producer
      | .error _ => s.report .producer true
  | .isFull =>
    call Hinted.producer (fun _ => Hinted.check .producer) (fun p => p.isFull Hinted.lens mask)
      fun full _ => Hinted.report .producer full
  | .prefetch =>
    call Hinted.consumer (fun _ => Hinted.check .consumer) (fun c => c.prefetch Hinted.lens)
      fun _ c => Hinted.report .consumer (decide (c.head = c.cachedTail))
  | .isEmpty =>
    call Hinted.consumer (fun _ => Hinted.check .consumer)
      (fun c => do
        let empty ← c.isEmpty Hinted.lens
        return (empty, c)) fun empty _ => Hinted.report .consumer empty
  | .pop => call Hinted.consumer (fun _ s => s) (fun c => c.pop Hinted.lens mask) fun _ _ s => s
  | .popInto limit =>
    call Hinted.consumer (fun _ s => s)
      (fun c => do
        let (n, _, c) ← c.popInto Hinted.lens mask limit []
        return (n, c)) fun _ _ s => s
  | .popIntoWhile accept limit =>
    call Hinted.consumer (fun _ s => s)
      (fun c => do
        let (n, _, c) ← c.popIntoWhile Hinted.lens mask accept limit []
        return (n, c)) fun _ _ s => s
  | .release =>
    call Hinted.consumer (fun _ s => s)
      (fun c => do
        c.release Hinted.lens
        return ((), c)) fun _ _ => Hinted.published .consumer
  | .releaseWithFull =>
    call Hinted.consumer (fun _ => Hinted.signal .consumer)
      (fun c => do
        let wake ← c.releaseWithFull Hinted.lens mask
        return (wake, c)) fun wake _ => Hinted.signalled .consumer (some wake)
  | .prefetchAndPop =>
    -- the prefetch inside is a check, made when the window is used up
    call Hinted.consumer
      (fun c s => if c.head = c.cachedTail then s.check .consumer else s)
      (fun c => do
        let (v, c') ← c.prefetchAndPop Hinted.lens mask
        return ((v, stayed c c'), c')) fun r _ s =>
      if r.2 then s.report .consumer true else s.published .consumer
  | .prefetchAndPopWithFull =>
    call Hinted.consumer (fun _ => Hinted.signal .consumer)
      (fun c => do
        let (r, c') ← prefetchAndPopWithFull mask c
        return ((r, stayed c c'), c')) fun r _ s =>
      match r.1 with
      | some (_, wake) => s.signalled .consumer (some wake)
      | none =>
        if r.2 then (s.signalled .consumer none).report .consumer true
        else s.signalled .consumer none

/-- The two threads of a ring. -/
def system : System (Hinted w V) Side (Op V) where
  may side op _ := op.side == side
  code _ := code mask

end Code

def initial (start : BitVec w) : Config (Hinted w V) Side := ⟨.new start, fun _ => none⟩

end Hint

end Fanring.Yring
