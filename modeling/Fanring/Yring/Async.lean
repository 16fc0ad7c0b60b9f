import Fanring.Conc.System
import Fanring.Yring.Trace

/-!
# The asynchronous endpoints

`yring::async`: the same ring between two tasks. A poll that can do nothing registers its task's
waker, tries again and answers `Pending`; the other endpoint wakes that waker when it publishes.
The producer is woken through the ring's own flag `producer_waiting`, so that a `release` no task
waits for costs an exchange and no wake; the consumer is woken by every flush.

The waker cells are the atomic ones of `atomic-waker`, taken at their contract: `register` keeps
the waker it is given in place of any other, `wake` takes the waker that is kept, if there is one,
and wakes it, and each is one access.

The record beside the ring says where each endpoint is between publishing and waking (`phase`),
what its last poll answered (`pending`, with how much it had then seen of the other endpoint),
which pushes answered `Ok` and what the consumer gave out. No code reads it.
-/

set_option autoImplicit false

namespace Fanring.Yring

open Conc

variable {w : Nat} {V : Type}

/-- `AtomicWaker`, for the waker that was registered last. -/
structure AtomicWaker where
  /-- The cell holds the waker. -/
  registered : Bool
  /-- The waker has been woken since it was registered. -/
  woken : Bool
  deriving DecidableEq

namespace AtomicWaker

def register (_ : AtomicWaker) : AtomicWaker := ⟨true, false⟩

def wake (x : AtomicWaker) : AtomicWaker := ⟨false, x.woken || x.registered⟩

end AtomicWaker

/-- `AsyncConsumer`. -/
structure AsyncConsumer (w : Nat) extends Consumer w where
  releasedHead : BitVec w
  deriving DecidableEq

/-- Where an endpoint is between a store the other may wait for and the wake that follows it. -/
inductive Phase
  | quiet
  /-- It has stored its position and not yet looked whether anyone waits. -/
  | stored
  /-- Its next access of the waker cell is a wake. -/
  | waking
  deriving DecidableEq

/-- `AsyncRing` with its two endpoints. -/
structure Async (w : Nat) (V : Type) where
  ring : Ring w V
  /-- `producer_waker` and `consumer_waker`, each under the side it wakes. -/
  waker : Side → AtomicWaker
  tx : Producer w
  rx : AsyncConsumer w
  phase : Side → Phase
  /-- The last poll answered `Pending`, having seen so many values released or flushed. -/
  pending : Side → Option Nat
  /-- The values of the pushes that have answered `Ok`. -/
  sent : List V
  /-- The values polls and pops have answered. -/
  returned : List V
  /-- A poll has answered `Ready(None)`. -/
  ended : Bool

def Ring.dropped (r : Ring w V) : Side → Bool
  | .producer => r.producerDropped
  | .consumer => r.consumerDropped

/-- How many values the endpoint has seen the other release or flush. -/
def Tally.seen (y : Tally V) : Side → Nat
  | .producer => y.seenHead
  | .consumer => y.seenTail

namespace Async

/-- `async_spsc`, with the cursors at `start`. -/
def new (start : BitVec w) : Async w V where
  ring := .new start
  waker _ := ⟨false, false⟩
  tx := ⟨start, start⟩
  rx := ⟨⟨start, start⟩, start⟩
  phase _ := .quiet
  pending _ := none
  sent := []
  returned := []
  ended := false

def lens : Lens (Async w V) (Ring w V) where
  get s := s.ring
  set r s := { s with ring := r }

def producer : Lens (Async w V) (Producer w) where
  get s := s.tx
  set p s := { s with tx := p }

def consumer : Lens (Async w V) (AsyncConsumer w) where
  get s := s.rx
  set c s := { s with rx := c }

def setPhase (side : Side) (x : Phase) (s : Async w V) : Async w V :=
  { s with phase := Function.update s.phase side x }

def setWaker (side : Side) (x : AtomicWaker) (s : Async w V) : Async w V :=
  { s with waker := Function.update s.waker side x }

def setPending (side : Side) (x : Option Nat) (s : Async w V) : Async w V :=
  { s with pending := Function.update s.pending side x }

/-! ## One access each -/

def register (side : Side) : Prog (Async w V) Unit :=
  .write fun s => s.setWaker side (s.waker side).register

/-- The wake of one endpoint by the other. -/
def wake (side : Side) : Prog (Async w V) Unit :=
  .write fun s => (s.setWaker side (s.waker side).wake).setPhase side.other .quiet

def isDropped (side : Side) : Prog (Async w V) Bool := lens.access fun r => (r.dropped side, r)

end Async

/-! ## The producer -/

inductive Poll (α : Type)
  | ready (a : α)
  | pending

namespace AsyncProducer

variable (mask : BitVec w)

def flush (p : Producer w) : Prog (Async w V) Unit := do
  Async.lens.accessWith (fun _ => Async.setPhase .producer .waking) (Ring.storeTail p.cursor)
  Async.wake .consumer

def push (v : V) (p : Producer w) : Prog (Async w V) (Except V Unit × Producer w) := do
  let (ok, p) ← Ring.push Async.lens mask v p
  if ok then
    return (.ok (), p)
  else
    return (.error v, p)

/-- `AsyncProducer::push_and_flush`. -/
def pushAndFlush (v : V) (p : Producer w) : Prog (Async w V) (Except V Unit × Producer w) := do
  match ← push mask v p with
  | (.ok _, p) =>
    flush p
    return (.ok (), p)
  | (.error v, p) => return (.error v, p)

/-- `AsyncProducer::register_space_waker`. -/
def registerSpaceWaker : Prog (Async w V) Unit := do
  Async.register .producer
  Waiter.access Async.lens .producer fun x => ((), { x with waiting := true })

/-- `PushFuture::poll`. -/
def pollPush (v : V) (p : Producer w) :
    Prog (Async w V) (Poll (Except V Unit) × Producer w) := do
  match ← push mask v p with
  | (.ok _, p) => return (.ready (.ok ()), p)
  | (.error returned, p) =>
    if ← Async.isDropped .consumer then
      return (.ready (.error returned), p)
    else
      registerSpaceWaker
      match ← push mask returned p with
      | (.ok _, p) => return (.ready (.ok ()), p)
      | (.error returned, p) =>
        if ← Async.isDropped .consumer then
          return (.ready (.error returned), p)
        else
          return (.pending, p)

/-- What `poll_ready` asks, before and after it registers. -/
def isReady (p : Producer w) : Prog (Async w V) (Bool × Producer w) := do
  if ← Async.isDropped .consumer then
    return (true, p)
  else
    let p ← p.refresh Async.lens mask none
    return (!p.full mask, p)

/-- `AsyncProducer::poll_ready`. -/
def pollReady (p : Producer w) : Prog (Async w V) (Poll Unit × Producer w) := do
  let (ready, p) ← isReady mask p
  if ready then
    return (.ready (), p)
  else
    registerSpaceWaker
    let (ready, p) ← isReady mask p
    if ready then
      return (.ready (), p)
    else
      return (.pending, p)

/-- `<AsyncProducer as Drop>::drop`. -/
def drop (p : Producer w) : Prog (Async w V) Unit := do
  flush p
  Async.lens.accessWith (fun _ => Async.setPhase .producer .waking) Ring.dropProducer
  Async.wake .consumer

end AsyncProducer

/-! ## The consumer -/

namespace AsyncConsumer

variable (mask : BitVec w)

def pop (c : AsyncConsumer w) : Prog (Async w V) (Option V × AsyncConsumer w) := do
  let (v, inner) ← c.toConsumer.pop Async.lens mask
  return (v, { c with toConsumer := inner })

/-- `AsyncConsumer::release`; the exchange of `producer_waiting` decides whether it wakes. -/
def release (c : AsyncConsumer w) : Prog (Async w V) (AsyncConsumer w) := do
  if c.head = c.releasedHead then
    return c
  else
    Async.lens.accessWith (fun _ => Async.setPhase .consumer .stored) (Ring.storeHead c.head)
    let waiting ← Async.lens.accessWith
      (fun waiting => Async.setPhase .consumer (if waiting then .waking else .quiet))
      fun r => (r.producerWaiting.waiting,
        r.setWaiter { r.producerWaiting with waiting := false } .producer)
    if waiting then
      Async.wake .producer
    return { c with releasedHead := c.head }

def prefetch (c : AsyncConsumer w) : Prog (Async w V) (Nat × AsyncConsumer w) := do
  let tail ← Async.lens.access Ring.loadTail
  return (distance tail c.cachedTail, { c with cachedTail := tail })

/-- The window, reloaded if it is used up. -/
def refill (c : AsyncConsumer w) : Prog (Async w V) (AsyncConsumer w) :=
  if c.head = c.cachedTail then do
    let (_, c) ← c.prefetch
    return c
  else
    return c

/-- `AsyncConsumer::prefetch_and_pop`. -/
def prefetchAndPop (c : AsyncConsumer w) : Prog (Async w V) (Option V × AsyncConsumer w) := do
  let c ← c.refill
  let (v, c) ← c.pop mask
  if v.isSome then
    let c ← c.release
    return (v, c)
  else
    return (v, c)

/-- `<AsyncConsumer as Stream>::poll_next`, once nothing was found: the waker is registered and
    the ring looked at again. -/
def pollAgain (c : AsyncConsumer w) : Prog (Async w V) (Poll (Option V) × AsyncConsumer w) := do
  Async.register .consumer
  let c ← c.refill
  let (v, c) ← c.pop mask
  match v with
  | some v =>
    let c ← c.release
    return (.ready (some v), c)
  | none =>
    if ← Async.isDropped .producer then
      let (_, c) ← c.prefetch
      let (v, c) ← c.pop mask
      let c ← c.release
      return (.ready v, c)
    else
      return (.pending, c)

/-- `<AsyncConsumer as Stream>::poll_next`. -/
def pollNext (c : AsyncConsumer w) : Prog (Async w V) (Poll (Option V) × AsyncConsumer w) := do
  let c ← c.refill
  let (v, c) ← c.pop mask
  match v with
  | some v =>
    let c ← c.release
    return (.ready (some v), c)
  | none =>
    let c ← c.release
    c.pollAgain mask

/-- `<AsyncConsumer as Drop>::drop`. -/
def drop (c : AsyncConsumer w) : Prog (Async w V) Unit := do
  let _ ← c.release
  Async.lens.accessWith (fun _ => Async.setPhase .consumer .waking) Ring.dropConsumer
  Async.wake .producer

end AsyncConsumer

/-! ## The system -/

namespace Async

inductive Op (V : Type)
  | push (v : V)
  | flush
  | pushAndFlush (v : V)
  | pollPush (v : V)
  | pollReady
  | dropProducer
  | prefetch
  | pop
  | release
  | prefetchAndPop
  | pollNext
  | dropConsumer

def Op.side : Op V → Side
  | .push _ | .flush | .pushAndFlush _ | .pollPush _ | .pollReady | .dropProducer => .producer
  | .prefetch | .pop | .release | .prefetchAndPop | .pollNext | .dropConsumer => .consumer

/-- An operation on an endpoint, `&mut self`; `leave` is what its answer adds to the record. -/
def call {τ α : Type} (H : Lens (Async w V) τ) (f : τ → Prog (Async w V) (α × τ))
    (leave : α → Async w V → Async w V) : Prog (Async w V) Unit := do
  let x ← Prog.read H.get
  let (a, x) ← f x
  Prog.write fun s => leave a (H.set x s)

/-- A poll, which forgets what the one before it answered. -/
def poll {τ α : Type} (side : Side) (H : Lens (Async w V) τ)
    (f : τ → Prog (Async w V) (Poll α × τ)) (leave : α → Async w V → Async w V) :
    Prog (Async w V) Unit := do
  Prog.write (setPending side none)
  call H f fun a s =>
    match a with
    | .ready a => leave a s
    | .pending => s.setPending side (some ((tally s.ring.trace).seen side))

/-- A push has answered. -/
def took (v : V) (r : Except V Unit) (s : Async w V) : Async w V :=
  { s with sent := s.sent ++ (taken v r).toList }

/-- The consumer gives out a value. -/
def give (v : Option V) (s : Async w V) : Async w V := { s with returned := s.returned ++ v.toList }

/-- A poll of the stream is ready: with a value, or with its end. -/
def yield (v : Option V) (s : Async w V) : Async w V :=
  { give v s with ended := s.ended || v.isNone }

def code (mask : BitVec w) : Op V → Prog (Async w V) Unit
  | .push v => call producer (fun p => AsyncProducer.push mask v p) (took v)
  | .flush =>
    call producer (fun p => do
      AsyncProducer.flush p
      return ((), p)) fun _ s => s
  | .pushAndFlush v => call producer (fun p => AsyncProducer.pushAndFlush mask v p) (took v)
  | .pollPush v => poll .producer producer (fun p => AsyncProducer.pollPush mask v p) (took v)
  | .pollReady => poll .producer producer (fun p => AsyncProducer.pollReady mask p) fun _ s => s
  | .dropProducer =>
    call producer (fun p => do
      AsyncProducer.drop p
      return ((), p)) fun _ s => s
  | .prefetch => call consumer (fun c => c.prefetch) fun _ s => s
  | .pop => call consumer (fun c => c.pop mask) give
  | .release =>
    call consumer (fun c => do
      let c ← c.release
      return ((), c)) fun _ s => s
  | .prefetchAndPop => call consumer (fun c => c.prefetchAndPop mask) give
  | .pollNext => poll .consumer consumer (fun c => c.pollNext mask) yield
  | .dropConsumer =>
    call consumer (fun c => do
      c.drop
      return ((), c)) fun _ s => s

/-- The two tasks; an endpoint that was dropped makes no call any more. -/
def system (mask : BitVec w) : System (Async w V) Side (Op V) where
  may side op s := op.side == side && !s.ring.dropped side
  code _ := code mask

def initial (start : BitVec w) : Config (Async w V) Side := ⟨.new start, fun _ => none⟩

end Async

end Fanring.Yring
