import Fanring.Mpsc.Receiver

/-!
# The MPSC channel: bulk receives, lane control, polls

`mpsc/receiver/batch.rs`, `mpsc/receiver/lane_control.rs` and the receiver half of
`mpsc/asynchronous.rs`. An admission predicate may keep a state of its own, so it is a function of
the values it has been offered in this call before the one it decides.
-/

set_option autoImplicit false

namespace Fanring

/-- `accepted_prefix`: how many of the values, in order, `accept` lets through. -/
def accepted {V : Type} (accept : List V → V → Bool) : List V → List V → Nat
  | _, [] => 0
  | offered, v :: vs => if accept offered v then accepted accept (offered ++ [v]) vs + 1 else 0

/-- The calls of `accept` that `accepted_prefix` makes, and their answers. -/
def calls {V : Type} (accept : List V → V → Bool) : List V → List V → List (V × Bool)
  | _, [] => []
  | offered, v :: vs =>
    if accept offered v then (v, true) :: calls accept (offered ++ [v]) vs else [(v, false)]

/-- `pop_into_while`; without a predicate, `pop_into`. -/
def Ring.popAdmitted {V : Type} (accept : Option (List V → V → Bool)) (offered : List V)
    (limit : Nat) (r : Ring V) : List V × Ring V :=
  match accept with
  | none => r.popInto limit
  | some accept => r.popInto (accepted accept offered (r.window limit))

namespace Mpsc

open Conc Chan

variable {V : Type}

namespace Lane

/-- Most values one bulk move may take before slot release or rotation. -/
def chunkLimit (lane : Lane) : Nat :=
  min (min lane.cachedAvailable (prefetchLimit - lane.burst)) (lane.releaseBatch - lane.unreleased)

/-- The counters after `n` values moved in bulk. -/
def moved (lane : Lane) (n : Nat) : Lane :=
  { lane with
    cachedAvailable := lane.cachedAvailable - n
    unreleased := lane.unreleased + n
    burst := lane.burst + n }

/-- What is recorded of the calls of a predicate on the values of a window. -/
def asks (accept : Option (List V → V → Bool)) (offered window : List V) : List (Event V) :=
  match accept with
  | none => []
  | some accept => (calls accept offered window).map fun c => .asked c.1 c.2

/-- Moves up to `take` values and signals a complete release batch. -/
def moveChunk (lane : Lane) (accept : Option (List V → V → Bool)) (offered : List V)
    (take : Nat) : Prog (Chan V) (List V × Lane) := do
  let vs ← (ringL lane.ix).accessWith
    -- the predicate looked at what was moved and what is left of the window
    (fun vs s => { s with
      trace := s.trace ++ asks accept offered (vs ++ (s.ring lane.ix).window (take - vs.length)) ++
        vs.map (.pop lane.ix · false) })
    (Ring.popAdmitted accept offered take)
  ensure (vs.length ≤ lane.cachedAvailable)
  let (released, lane) ← (lane.moved vs.length).releaseBatchDone
  if released then
    notifySpace lane.ix
  return (vs, lane)

/-- Ends a burst that reached the limit; answers whether it did. -/
def endFullBurst (lane : Lane) : Bool × Lane :=
  if lane.burst = prefetchLimit then (true, { lane with burst := 0 }) else (false, lane)

end Lane

namespace Receiver

/-! ## Slot release -/

/-- `release_consumed`, over the slots still to be looked at. -/
def releaseLanes : List Nat → Receiver → Prog (Chan V) Receiver
  | [], rx => pure rx
  | slot :: slots, rx => do
    match rx.lanes slot with
    | none => releaseLanes slots rx
    | some lane =>
      let (released, lane) ← lane.releasePending
      if released then
        notifySpace lane.ix
      releaseLanes slots (rx.setLane lane)

def releaseConsumed (rx : Receiver) : Prog (Chan V) Receiver :=
  releaseLanes (List.range rx.lanesLen) rx

/-! ## Bulk receives -/

/-- A bulk drain under way: the receiver, and what it has appended. -/
structure Drain (V : Type) where
  rx : Receiver
  output : List (Item V)

/-- Outcome of one bulk drain. -/
structure Drained (V : Type) where
  output : List (Item V)
  rejected : Bool

/-- `rotate_left(1)`. -/
def rotate (rx : Receiver) : Receiver := { rx with active := rx.active.tail ++ rx.active.take 1 }

def popActive (rx : Receiver) : Receiver := { rx with active := rx.active.tail }

def settleEmptyFront (P : Params) (rx : Receiver) (key : LaneKey) :
    EmptyLane → Prog (Chan V) Receiver
  | .keep _ => pure rx.rotate
  | .idle disconnected _ =>
    if disconnected then retireLane P rx.popActive key else pure rx.popActive

/-- Whether a lane is queued for draining. -/
def refreshActive (rx : Receiver) : Prog (Chan V) (Bool × Receiver) := do
  if rx.active = [] then
    let rx ← collectReady true rx
    return (rx.active ≠ [], rx)
  else if rx.itemsUntilReadyPoll = 0 then
    let rx ← collectReady false rx
    return (true, { rx with itemsUntilReadyPoll := readyPollInterval })
  else
    return (true, rx)

/-- One step of a drain on a lane that holds data. -/
def drainLane (limit : Nat) (accept : Option (List V → V → Bool)) (rx : Receiver) (lane : Lane)
    (output : List (Item V)) : Prog (Chan V) (Drain V ⊕ (Drained V × Receiver)) := do
  ensure (lane.burst ≤ prefetchLimit ∧ lane.unreleased ≤ lane.releaseBatch)
  let take := min (min (limit - output.length) rx.itemsUntilReadyPoll) lane.chunkLimit
  let (vs, lane) ← lane.moveChunk accept (output.map (·.value)) take
  let rx ← rx.charge vs.length
  let output := output ++ vs.map (⟨lane.ix, none, ·⟩)
  let (full, lane) := lane.endFullBurst
  let rx := if full then (rx.setLane lane).rotate else rx.setLane lane
  return if vs.length < take then .inr (⟨output, true⟩, rx) else .inl ⟨rx, output⟩

/-- One round of `drain_into`. -/
def drainRound (P : Params) (limit : Nat) (accept : Option (List V → V → Bool)) (d : Drain V) :
    Prog (Chan V) (Drain V ⊕ (Drained V × Receiver)) := do
  if d.output.length < limit then
    let (ready, rx) ← d.rx.refreshActive
    if ready then
      match rx.active with
      | [] => panic
      | key :: _ =>
        match rx.lane? key with
        | none => return .inl ⟨rx.popActive, d.output⟩
        | some lane =>
          match ← lane.refill with
          | (some empty, lane) =>
            if empty.released then
              notifySpace lane.ix
            return .inl ⟨← settleEmptyFront P (rx.setLane lane) key empty, d.output⟩
          | (none, lane) => drainLane limit accept rx lane d.output
    else
      return .inr (⟨d.output, false⟩, rx)
  else
    return .inr (⟨d.output, false⟩, d.rx)

/-- `drain_into`, on top of what was appended before. -/
def drainInto (P : Params) (limit : Nat) (accept : Option (List V → V → Bool)) (rx : Receiver) :
    Prog (Chan V) (Drained V × Receiver) :=
  Prog.iterate (drainRound P limit accept) ⟨rx, []⟩

/-- `try_recv_batch_into` and `try_recv_batch_into_while`. -/
def tryRecvBatch (P : Params) (limit : Nat) (accept : Option (List V → V → Bool))
    (rx : Receiver) : Prog (Chan V) ((List (Item V) × Except RecvError Nat) × Receiver) := do
  let (drained, rx) ← drainInto P limit accept rx
  let rx ← rx.releaseConsumed
  if drained.output.length = 0 ∧ limit ≠ 0 ∧ drained.rejected = false then
    let (e, rx) ← noValue P rx
    return ((drained.output, .error e), rx)
  else
    return ((drained.output, .ok drained.output.length), rx)

/-- `recv_batch_into`. -/
def recvBatch (P : Params) (spins limit : Nat) (rx : Receiver) :
    Prog (Chan V) ((List (Item V) × Except RecvError Nat) × Receiver) := do
  if limit = 0 then
    return (([], .ok 0), ← rx.releaseConsumed)
  let (drained, rx) ← drainInto P limit none rx
  if drained.output.length = 0 then
    match ← recvOutput P false spins rx with
    | (.ok first, rx) =>
      let (more, rx) ← drainInto P (limit - 1) none rx
      let output := first :: more.output
      return ((output, .ok output.length), ← rx.releaseConsumed)
    | (.error e, rx) => return (([], .error e), ← rx.releaseConsumed)
  else
    return ((drained.output, .ok drained.output.length), ← rx.releaseConsumed)

/-- The lanes `poll_all_lanes` adds, by slot. -/
def enqueueAll : List Nat → Receiver → Receiver
  | [], rx => rx
  | slot :: slots, rx =>
    match rx.lanes slot with
    | some lane =>
      if !rx.paused slot && !lane.queued then enqueueAll slots (rx.enqueue lane)
      else enqueueAll slots rx
    | none => enqueueAll slots rx

def pollAllLanes (rx : Receiver) : Prog (Chan V) Receiver := do
  let rx ← refreshRegistry rx
  let rx := enqueueAll (List.range rx.lanesLen) rx
  Prog.write (record (.queued rx.active))
  return rx

/-- `try_recv_scan_into_while`. -/
def tryRecvScan (P : Params) (limit : Nat) (accept : List V → V → Bool) (rx : Receiver) :
    Prog (Chan V) ((List (Item V) × Except RecvError Nat) × Receiver) := do
  let rx ← pollAllLanes rx
  tryRecvBatch P limit (some accept) rx

/-! ## Lane control -/

/-- `lane_mut`. -/
def laneMut (P : Params) (rx : Receiver) (id : LaneId) :
    Prog (Chan V) (Option Lane × Receiver) := do
  if P.channelId ≠ id.channelId then
    return (none, rx)
  let rx ← refreshRegistry rx
  return (rx.lane? id.key, rx)

/-- Takes a key out of the rotation. -/
def unlist (rx : Receiver) (key : LaneKey) : Receiver :=
  { rx with active := rx.active.filter (· ≠ key) }

def pause (P : Params) (id : LaneId) (rx : Receiver) : Prog (Chan V) (Bool × Receiver) := do
  match ← laneMut P rx id with
  | (none, rx) => return (false, rx)
  | (some lane, rx) =>
    let (released, lane) ← ({ lane with queued := false } : Lane).releasePending
    if released then
      notifySpace lane.ix
    let rx := rx.setLane lane
    if rx.paused id.key.slot then
      return (true, rx)
    else
      return (true,
        ({ rx with paused := Function.update rx.paused id.key.slot true }).unlist id.key)

/-- What a mark by the receiver records. -/
def resumeGhost (ℓ : Nat) : MarkStep → Chan V → Chan V
  | .swapped _, s => { s with resumed := Function.update s.resumed ℓ (s.ring ℓ).tail }
  | .paged _, s => s
  | .grouped, s => s

/-- `LaneSignal::mark` by the receiver. -/
def markLane (lane : Lane) : Prog (Chan V) Unit := do
  let _ ← Ready.mark readyL (resumeGhost lane.ix) lane.ix lane.key.slot

def resume (P : Params) (id : LaneId) (rx : Receiver) : Prog (Chan V) (Bool × Receiver) := do
  match ← laneMut P rx id with
  | (none, rx) => return (false, rx)
  | (some lane, rx) =>
    if rx.paused id.key.slot then
      markLane lane
      let rx := ({ rx with paused := Function.update rx.paused id.key.slot false }).enqueue lane
      WaitCell.notify dataL fun _ s => s
      return (true, rx)
    else
      return (true, rx)

/-- A targeted receive from a lane that holds data. -/
def popFrom (rx : Receiver) (lane : Lane) : Prog (Chan V) (V × Receiver) := do
  let ((v, released), lane) ← lane.popTargeted
  if released then
    notifySpace lane.ix
  if !rx.paused lane.key.slot && !lane.queued then
    markLane lane
    return (v, rx.enqueue lane)
  else
    return (v, rx.setLane lane)

def tryRecvFrom (P : Params) (id : LaneId) (rx : Receiver) :
    Prog (Chan V) (Except RecvError (Item V) × Receiver) := do
  match ← laneMut P rx id with
  | (none, rx) => return (.error .disconnected, rx)
  | (some lane, rx) =>
    match ← lane.refill with
    | (some (.idle disconnected released), lane) =>
      if released then
        notifySpace lane.ix
      let rx := (rx.setLane lane).unlist id.key
      if disconnected then
        return (.error .disconnected, ← retireLane P rx id.key)
      else
        return (.error .empty, rx)
    | (some (.keep released), lane) =>
      if released then
        notifySpace lane.ix
      let (v, rx) ← popFrom rx lane
      return (.ok ⟨lane.ix, none, v⟩, rx)
    | (none, lane) =>
      let (v, rx) ← popFrom rx lane
      return (.ok ⟨lane.ix, none, v⟩, rx)

def closeLane (P : Params) (id : LaneId) (rx : Receiver) : Prog (Chan V) (Bool × Receiver) := do
  match ← laneMut P rx id with
  | (none, rx) => return (false, rx)
  | (some lane, rx) =>
    shutLane P lane
    let rx := (rx.setLane { lane with isOpen := false }).unlist id.key
    return (true, ← retireLane P rx id.key)

/-! ## Polls -/

def cancelRecvWait : Prog (Chan V) Unit := WaitCell.cancelAsync dataL

/-- `poll_recv_output`; `none` is `Pending`. -/
def pollRecv (P : Params) (tagged : Bool) (rx : Receiver) :
    Prog (Chan V) (Option (Except RecvError (Item V)) × Receiver) := do
  let (result, rx) ← tryRecvOutput P tagged rx
  let (result, rx) ← match result with
    | .error .empty => do
      let rx ← rx.releaseConsumed
      WaitCell.registerAsync dataL
      tryRecvOutput P tagged rx
    | result => pure (result, rx)
  let rx ← rx.releaseConsumed
  match result with
  | .error .empty => return (none, rx)
  | result =>
    cancelRecvWait
    return (some result, rx)

end Receiver

end Mpsc

end Fanring
