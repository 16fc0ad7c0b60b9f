import Fanring.Mpsc.State

/-!
# The MPSC channel: senders

`mpsc/sender.rs`, the registration of `mpsc.rs`, and the sender half of `mpsc/asynchronous.rs`. The
sender of lane `ℓ` is the thread that owns its producer; every function below is its code, with the
lane's number as the first argument.

A sender answers through `Chan.sent`. The step that stores the answer of a signaled send or a flush
also records how much was pushed by then (`Chan.completed`): from there on the operation has
returned, and all of it has to be published and signaled.
-/

set_option autoImplicit false

namespace Fanring.Mpsc

open Conc Chan

variable {V : Type}

/-! ## Bookkeeping of an announcement -/

/-- What `LaneSignal::mark` on the sender's own lane records. -/
def markGhost (ℓ : Nat) : MarkStep → Chan V → Chan V
  | .swapped first, s =>
    { s with
      signaled := Function.update s.signaled ℓ (s.ring ℓ).tail
      dropMarked := Function.update s.dropMarked ℓ (s.ring ℓ).producerDropped
      phase := Function.update s.phase ℓ (if first then .swapped else s.phase ℓ) }
  | .paged first, s => s.setPhase ℓ (if first then .paged else .marked)
  | .grouped, s => s.setPhase ℓ .marked

/-- What `WaitCell::notify` on the data cell records. -/
def notifyGhost (ℓ : Nat) : NotifyStep → Chan V → Chan V
  | .bumped more => setPhase ℓ (.bumped more)
  | .woken more => setPhase ℓ (if more then .woken else .quiet)
  | .signaled => setPhase ℓ .quiet

namespace Sender

variable (P : Params) (ℓ : Nat)

/-- `Shared::mark_ready`. -/
def markReady : Prog (Chan V) Bool := do
  let key ← Prog.read fun s => s.key ℓ
  Ready.mark readyL (markGhost ℓ) ℓ key.slot

def notifyData : Prog (Chan V) Unit := WaitCell.notify dataL (notifyGhost ℓ)

/-- The operation returns. `published` if it is one that signals everything pushed before. -/
def reply (published : Bool) (r : SendReply) : Prog (Chan V) Unit :=
  Prog.write fun s =>
    { s with
      sent := Function.update s.sent ℓ (some r)
      completed :=
        if published then Function.update s.completed ℓ (s.ring ℓ).log.length else s.completed }

/-! ## Sends -/

def pushError : Prog (Chan V) SendReply := do
  if ← Prog.read (·.receiverAlive) then
    if ← Ring.isConsumerDropped (ringL ℓ) P.coordinated then
      return .disconnected
    else
      return .full
  else
    return .disconnected

/-- Answers the result and whether to wake the receiver. -/
def trySendInner (v : V) : Prog (Chan V) (SendReply × Bool) := do
  -- the ring also closes when only this lane is retired
  if ← Ring.isConsumerDropped (ringL ℓ) P.coordinated then
    return (.disconnected, false)
  if ← Ring.pushAndFlush (ringL ℓ) P.coordinated v then
    return (.ok, ← markReady ℓ)
  else
    return (← pushError P ℓ, false)

def trySend (v : V) : Prog (Chan V) SendReply := do
  let (result, wakeReceiver) ← trySendInner P ℓ v
  if wakeReceiver then
    notifyData ℓ
  return result

def trySendUnsignaled (v : V) : Prog (Chan V) SendReply := do
  if ← Ring.isConsumerDropped (ringL ℓ) P.coordinated then
    return .disconnected
  if ← Ring.pushAndFlush (ringL ℓ) P.coordinated v then
    return .ok
  else
    pushError P ℓ

def isDisconnected : Prog (Chan V) Bool := do
  if ← Prog.read (·.receiverAlive) then
    Ring.isConsumerDropped (ringL ℓ) P.coordinated
  else
    return true

def flush : Prog (Chan V) Unit := do
  Ring.flush (ringL ℓ)
  if ← markReady ℓ then
    notifyData ℓ

def trySendDeferred (v : V) : Prog (Chan V) SendReply := do
  if ← Ring.isConsumerDropped (ringL ℓ) P.coordinated then
    return .disconnected
  if ← Ring.push (ringL ℓ) v then
    return .ok
  flush ℓ
  if ← isDisconnected P ℓ then
    return .disconnected
  else
    return .full

/-! ## Blocking sends -/

/-- `impl Blocking for Sender`: the output says whether the value was sent. -/
def blocking (v : V) : Blocking (Chan V) Unit Unit Bool Bool where
  attempt _ _ := do
    match ← trySend P ℓ v with
    | .ok => return (.done true, ())
    | .full => return (.pending (), ())
    | _ => return (.done false, ())
  recheck _ _ := do
    match ← trySendInner P ℓ v with
    | (.ok, wakeReceiver) => return (.done true wakeReceiver, ())
    | (.full, _) => return (.pending (), ())
    | _ => return (.done false false, ())
  notify _ wakeReceiver := if wakeReceiver then notifyData ℓ else pure ()
  register := (spaceL ℓ).access WaitCell.prepare
  unregister _ := (spaceL ℓ).access WaitCell.unregister
  wait _ registration := WaitCell.wait (spaceL ℓ) id registration
  waitTimeout _ registration := WaitCell.waitTimeout (spaceL ℓ) id registration

def sendDeadline (spins : Nat) (deadline : Bool) (v : V) : Prog (Chan V) SendReply := do
  match ← (blocking P ℓ v).run spins deadline () () with
  | (.ok true, _) => return .ok
  | (.ok false, _) => return .disconnected
  | (.error _, _) => return .timeout

def send (spins : Nat) (v : V) : Prog (Chan V) SendReply := do
  match ← trySend P ℓ v with
  | .full => sendDeadline P ℓ spins false v
  | r => return r

/-! ## Asynchronous sends -/

def isFull : Prog (Chan V) Bool := (ringL ℓ).access Ring.checkFull

/-- Whether a `poll_ready` has to wait: the two conditions in the order the source tests them. -/
def mustWait : Prog (Chan V) Bool := do
  if ← isDisconnected P ℓ then
    return false
  else
    isFull ℓ

def cancelSendWait : Prog (Chan V) Unit := WaitCell.cancelAsync (spaceL ℓ)

def pollReady : Prog (Chan V) SendReply := do
  if ← mustWait P ℓ then
    WaitCell.registerAsync (spaceL ℓ)
    if ← mustWait P ℓ then
      return .pending
  cancelSendWait ℓ
  if ← isDisconnected P ℓ then
    return .disconnected
  else
    return .ok

/-- One poll of a `SendFuture`. -/
def pollSend (v : V) : Prog (Chan V) SendReply := do
  match ← pollReady P ℓ with
  | .pending => return .pending
  | _ => trySend P ℓ v

/-! ## Registration and drop -/

/-- The new lane, put behind the registry lock. -/
def register (capacity : Nat) (s : Chan V) : Chan V :=
  { s with
    ring := Function.update s.ring s.count (Ring.new capacity)
    key := Function.update s.key s.count s.registry.nextKey
    ready := { s.ready with pending := Function.update s.ready.pending s.count false }
    space := Function.update s.space s.count WaitCell.new
    registry := s.registry.allocate s.count
    registryGeneration := s.registryGeneration + 1
    registeredLanes := s.registeredLanes + 1
    liveSenders := s.liveSenders + 1
    sent := Function.update s.sent s.count none
    count := s.count + 1
    stage := Function.update s.stage s.count .pending
    shut := Function.update s.shut s.count false
    closings := Function.update s.closings s.count 0
    phase := Function.update s.phase s.count .quiet
    signaled := Function.update s.signaled s.count 0
    completed := Function.update s.completed s.count 0
    dropMarked := Function.update s.dropMarked s.count false
    resumed := Function.update s.resumed s.count 0
    gone := Function.update s.gone s.count false
    owed := Function.update s.owed s.count .settled }

/-- The locked part of `register_sender`. -/
def registerLocked (maxLanes capacity : Nat) (s : Chan V) : SendReply × Chan V :=
  if !s.receiverAlive then (.disconnected, s)
  else if maxLanes ≤ s.registeredLanes then (.atCapacity, s)
  else (.registered s.count, register capacity s)

/-- `register_sender`. -/
def registerSender (maxLanes capacity : Nat) : Prog (Chan V) SendReply := do
  if ← Prog.read (·.receiverAlive) then
    if maxLanes ≤ (← Prog.read (·.registeredLanes)) then
      return .atCapacity
    Prog.atomic (registerLocked maxLanes capacity)
  else
    return .disconnected

/-- `live_senders.fetch_sub`; the announcement of it is still to come. -/
def leave (s : Chan V) : Chan V :=
  { s with
    liveSenders := s.liveSenders - 1
    gone := Function.update s.gone ℓ true
    phase := Function.update s.phase ℓ .marked }

def drop : Prog (Chan V) Unit := do
  cancelSendWait ℓ
  Ring.closeProducer (ringL ℓ)
  let _ ← markReady ℓ
  Prog.write (leave ℓ)
  notifyData ℓ

end Sender

end Fanring.Mpsc
