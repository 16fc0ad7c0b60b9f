import Fanring.Mpsc.State

/-!
# The MPSC channel: single-value receives

`mpsc/receiver.rs`, `mpsc/receiver/lane.rs` and `mpsc/receiver/registry.rs`. The receiver's own
fields are passed along: a function takes the receiver (or a lane of it) and answers it changed. The
consumer's cursors are the exception, they live in the ring.

The three loops of `collect_ready` run over the bits of words already taken, so they are recursions
over lists; the receive loop, which goes on as long as senders keep it busy, is `Prog.iterate`.
-/

set_option autoImplicit false

namespace Fanring.Mpsc

open Conc Chan

variable {V : Type}

/-- How an empty lane settled. -/
inductive EmptyLane
  | keep (released : Bool)
  | idle (disconnected released : Bool)

def EmptyLane.released : EmptyLane → Bool
  | .keep released => released
  | .idle _ released => released

inductive LanePoll (V : Type)
  | item (lane : Nat) (value : V) (rotate released : Bool)
  | keep (released : Bool)
  | idle (disconnected released : Bool)
  | stale

/-! ## One lane -/

/-- What `WaitCell::notify` on a lane's space cell records. -/
def spaceGhost (ℓ : Nat) : NotifyStep → Chan V → Chan V
  | .bumped more => setOwed ℓ (.bumped more)
  | .woken more => setOwed ℓ (if more then .woken else .settled)
  | .signaled => setOwed ℓ .settled

/-- What the steps of closing a lane record. -/
def shutGhost (ℓ : Nat) (s : Chan V) : Chan V :=
  { s.setOwed ℓ .due with shut := Function.update s.shut ℓ true }

/-- The first access of a close. -/
def closeGhost (ℓ : Nat) (s : Chan V) : Chan V :=
  { shutGhost ℓ s with closings := Function.update s.closings ℓ (s.closings ℓ + 1) }

/-- `LaneSignal::notify_space`. -/
def notifySpace (ℓ : Nat) : Prog (Chan V) Unit := WaitCell.notify (spaceL ℓ) (spaceGhost ℓ)

/-- `Consumer::prefetch`. -/
def prefetch (ℓ : Nat) : Prog (Chan V) Nat := (ringL ℓ).access Ring.prefetch

/-- The same once the readiness of the lane was cleared: finding nothing is recorded. -/
def prefetchCleared (ℓ : Nat) : Prog (Chan V) Nat :=
  (ringL ℓ).accessWith (fun n s => if n = 0 then s.record (.seenEmpty ℓ) else s) Ring.prefetch

/-- A pop the source expects to find a value. -/
def popValue (ℓ : Nat) (targeted : Bool) : Prog (Chan V) V := do
  let found ← (ringL ℓ).accessWith
    (fun found s => match found with
      | some v => s.record (.pop ℓ v targeted)
      | none => s) Ring.pop
  match found with
  | some v => return v
  | none => panic

/-- A subtraction of the source that is not saturating: that it underflows is a failure. -/
def ensure (p : Prop) [Decidable p] : Prog (Chan V) Unit := if p then pure () else panic

namespace Lane

/-- Refunds the unpopped part of the fast window. -/
def closeFast (lane : Lane) : Lane :=
  { lane with
    cachedAvailable := lane.cachedAvailable + lane.fastLeft
    unreleased := lane.unreleased - lane.fastLeft
    burst := lane.burst - lane.fastLeft
    fastLeft := 0 }

/-- `close_fast`. -/
def closing (lane : Lane) : Prog (Chan V) Lane := do
  ensure (lane.fastLeft ≤ lane.unreleased ∧ lane.fastLeft ≤ lane.burst)
  return lane.closeFast

/-- The window a grant of `budget` opens. -/
def granted (lane : Lane) (budget : Nat) : Nat :=
  min (min (min lane.cachedAvailable (lane.releaseBatch - (lane.unreleased + 1)))
    (prefetchLimit - (lane.burst + 1))) budget

/-- Charges a fast window of `n` values to the lane. -/
def openFast (lane : Lane) (n : Nat) : Lane :=
  { lane with
    cachedAvailable := lane.cachedAvailable - n
    unreleased := lane.unreleased + n
    burst := lane.burst + n
    fastLeft := n }

/-- Reloads the prefetched window if it is used up. -/
def reload (lane : Lane) : Prog (Chan V) Lane := do
  if lane.cachedAvailable = 0 then
    let n ← prefetch lane.ix
    return { lane with cachedAvailable := n }
  else
    return lane

def grantFast (lane : Lane) (budget : Nat) : Prog (Chan V) Lane := do
  let lane ← (← lane.closing).reload
  return lane.openFast (lane.granted budget)

def popFast (lane : Lane) : Prog (Chan V) (Option V × Lane) := do
  if lane.fastLeft = 0 then
    return (none, lane)
  let v ← popValue lane.ix false
  return (some v, { lane with fastLeft := lane.fastLeft - 1 })

/-- Publishes the consumed slots; answers whether there were any. -/
def releasePending (lane : Lane) : Prog (Chan V) (Bool × Lane) := do
  let lane ← lane.closing
  if lane.unreleased = 0 then
    return (false, lane)
  (ringL lane.ix).accessWith (fun _ s => (setOwed lane.ix .due s).record
    (.publish lane.ix lane.unreleased lane.cachedAvailable lane.releaseBatch
      (s.ring lane.ix).found)) Ring.release
  return (true, { lane with unreleased := 0 })

def settleEmpty (lane : Lane) : Prog (Chan V) (EmptyLane × Lane) := do
  let (released, lane) ← lane.releasePending
  readyL.access (Ready.finishDrain lane.ix)
  let n ← prefetchCleared lane.ix
  let lane := { lane with cachedAvailable := n, burst := 0 }
  if n ≠ 0 then
    readyL.access (Ready.claimAfterEmpty lane.ix)
    return (.keep released, lane)
  else
    let disconnected ← Ring.isDisconnected (ringL lane.ix)
    return (.idle disconnected released, { lane with queued := false })

/-- Prefetches once the cached window is used up; answers how the lane settled when its ring is
    empty. -/
def refill (lane : Lane) : Prog (Chan V) (Option EmptyLane × Lane) := do
  let lane ← (← lane.closing).reload
  if lane.cachedAvailable = 0 then
    let (empty, lane) ← lane.settleEmpty
    return (some empty, lane)
  else
    return (none, lane)

/-- The counters after one value was popped. -/
def charge (lane : Lane) (burst : Nat) : Lane :=
  { lane with
    cachedAvailable := lane.cachedAvailable - 1
    unreleased := lane.unreleased + 1
    burst := lane.burst + burst }

/-- Releases a complete release batch; answers whether it did. -/
def releaseBatchDone (lane : Lane) : Prog (Chan V) (Bool × Lane) := do
  if lane.unreleased = lane.releaseBatch then
    lane.releasePending
  else
    return (false, lane)

def poll (fair : Bool) (lane : Lane) : Prog (Chan V) (LanePoll V × Lane) := do
  match ← lane.refill with
  | (some (.keep released), lane) => return (.keep released, lane)
  | (some (.idle disconnected released), lane) => return (.idle disconnected released, lane)
  | (none, lane) =>
    let v ← popValue lane.ix false
    ensure (0 < lane.cachedAvailable)
    let (released, lane) ← (lane.charge 1).releaseBatchDone
    let rotate := fair || lane.burst == prefetchLimit
    return (.item lane.ix v rotate released, if rotate then { lane with burst := 0 } else lane)

def popFair (lane : Lane) (budget : Nat) : Prog (Chan V) (Option V × Lane) := do
  let lane ← if lane.fastLeft = 0 then ({ lane with burst := 0 } : Lane).grantFast budget
    else pure lane
  match ← lane.popFast with
  | (none, lane) => return (none, lane)
  | (some v, lane) => return (some v, { lane with burst := lane.fastLeft })

/-- Pops a value after `refill` found one, and leaves the burst alone. -/
def popTargeted (lane : Lane) : Prog (Chan V) ((V × Bool) × Lane) := do
  let v ← popValue lane.ix true
  ensure (0 < lane.cachedAvailable)
  let (released, lane) ← (lane.charge 0).releaseBatchDone
  return ((v, released), lane)

/-- Reloads an exhausted window; answers whether the ring is still empty. -/
def reloadIsEmpty (lane : Lane) : Prog (Chan V) (Bool × Lane) := do
  let lane ← (← lane.closing).reload
  return (lane.cachedAvailable == 0, lane)

end Lane

/-! ## The receiver's lanes -/

namespace Receiver

def setLane (rx : Receiver) (lane : Lane) : Receiver :=
  { rx with lanes := Function.update rx.lanes lane.key.slot (some lane) }

/-- The lane a key names, if it is still that lane. -/
def lane? (rx : Receiver) (key : LaneKey) : Option Lane :=
  (rx.lanes key.slot).filter (·.key = key)

/-- Puts a lane at the back of the rotation. -/
def enqueue (rx : Receiver) (lane : Lane) : Receiver :=
  { rx.setLane { lane with queued := true } with active := rx.active ++ [lane.key] }

/-- The budget after `n` values; an unchecked `usize` subtraction. -/
def spend (rx : Receiver) (n : Nat) : Receiver :=
  { rx with itemsUntilReadyPoll := (rx.itemsUntilReadyPoll + usize - n) % usize }

/-- `items_until_ready_poll -= n`. -/
def charge (rx : Receiver) (n : Nat) : Prog (Chan V) Receiver := do
  Prog.write (record (.charge rx.itemsUntilReadyPoll n))
  return rx.spend n

/-! ### Registry -/

/-- Adopts one pending lane. -/
def adopt (rx : Receiver) (lane : Lane) : Receiver :=
  { rx with
    lanes := Function.update rx.lanes lane.key.slot (some lane)
    lanesLen := max rx.lanesLen (lane.key.slot + 1)
    -- both vectors are resized when the lanes do not reach the slot
    pausedLen := if rx.lanesLen ≤ lane.key.slot then lane.key.slot + 1 else rx.pausedLen
    paused := Function.update rx.paused lane.key.slot false }

/-- The locked part of `refresh_registry`: the pending lanes, as the receiver will hold them, and
    the topology. -/
def takePending (s : Chan V) : (List Lane × Nat × Nat × Nat) × Chan V :=
  ((s.registry.pending.map fun ℓ => Lane.new ℓ (s.key ℓ) (s.ring ℓ).cap,
      s.registry.groups, s.registry.pages, s.registryGeneration),
    { s with
      registry := { s.registry with pending := [] }
      stage := fun ℓ => if ℓ ∈ s.registry.pending then .adopted else s.stage ℓ })

/-- Adopts the pending lanes; the source asserts that each one's slot is empty. -/
def adoptAll : List Lane → Receiver → Prog (Chan V) Receiver
  | [], rx => pure rx
  | lane :: lanes, rx =>
    if (rx.lanes lane.key.slot).isNone then adoptAll lanes (rx.adopt lane) else panic

def refreshRegistry (rx : Receiver) : Prog (Chan V) Receiver := do
  let generation ← Prog.read (·.registryGeneration)
  if generation = rx.seenRegistryGeneration then
    return rx
  let (pending, groups, pages, seen) ← Prog.atomic takePending
  let rx ← adoptAll pending rx
  return { rx with
    groups := groups, pages := pages, seenRegistryGeneration := seen }

/-- `registered_lanes.fetch_sub`. -/
def unregisterLane (ℓ : Nat) (s : Chan V) : Chan V :=
  { s with
    registeredLanes := s.registeredLanes - 1
    stage := Function.update s.stage ℓ .retired }

def retireLane (P : Params) (rx : Receiver) (key : LaneKey) : Prog (Chan V) Receiver := do
  match rx.lanes key.slot with
  | none => return rx
  | some lane =>
    Prog.write (unregisterLane lane.ix)
    registryL.access fun r => ((), r.retire key)
    if lane.isOpen then
      Ring.closeConsumer (ringL lane.ix) id id P.coordinated
    return { rx with
      lanes := Function.update rx.lanes key.slot none
      paused := Function.update rx.paused key.slot false }

/-- What the read that lets a lane into the rotation records. -/
def joinGhost (rx : Receiver) (lane : Lane) (pending : Bool) (s : Chan V) : Chan V :=
  if pending && !lane.queued then s.record (.queued (rx.enqueue lane).active) else s

/-- The lanes of one taken page word. -/
def collectLanes (page : Nat) : List Nat → Receiver → Prog (Chan V) Receiver
  | [], rx => pure rx
  | bit :: bits, rx => do
    let slot := page * lanesPerPage + bit
    match rx.lanes slot with
    | none => collectLanes page bits rx
    | some lane =>
      if rx.paused slot then
        collectLanes page bits rx
      else if (← Ready.isPending readyL (rx.joinGhost lane) lane.ix) && !lane.queued then
        collectLanes page bits (rx.enqueue lane)
      else
        collectLanes page bits rx

/-- The pages of one taken group word. -/
def collectPages (group : Nat) : List Nat → Receiver → Prog (Chan V) Receiver
  | [], rx => pure rx
  | bit :: bits, rx => do
    let page := group * pagesPerGroup + bit
    -- a new page can publish after its group bit was claimed
    let rx ← refreshRegistry rx
    if page < rx.pages then
      let word ← readyL.access (Ready.takePage page)
      -- a new lane can publish after its page bit was claimed
      let rx ← refreshRegistry rx
      let rx ← collectLanes page word.bits rx
      collectPages group bits rx
    else
      collectPages group bits rx

/-- The groups, from `next` on, of which `left` are still to be looked at. -/
def collectGroups (all : Bool) (groupCount : Nat) :
    Nat → Nat → Receiver → Prog (Chan V) Receiver
  | 0, _, rx => pure rx
  | left + 1, next, rx => do
    let group := if next < groupCount then next else 0
    if ← Ready.hasReady readyL group then
      let word ← readyL.access (Ready.takeAll group)
      if word = 0#64 then
        collectGroups all groupCount left (group + 1) rx
      else
        let rx ← collectPages group word.bits rx
        let rx := { rx with readyGroupCursor := group + 1 }
        if all then
          collectGroups all groupCount left (group + 1) rx
        else
          return rx
    else
      collectGroups all groupCount left (group + 1) rx

def collectReady (all : Bool) (rx : Receiver) : Prog (Chan V) Receiver := do
  Prog.write (record .collect)
  let rx ← refreshRegistry rx
  collectGroups all rx.groups rx.groups rx.readyGroupCursor rx

/-- `retire_empty_paused_lanes`, over the slots still to be looked at. -/
def retireEmptyPaused (P : Params) : List Nat → Receiver → Prog (Chan V) Receiver
  | [], rx => pure rx
  | slot :: slots, rx => do
    match rx.lanes slot with
    | none => retireEmptyPaused P slots rx
    | some lane =>
      if rx.paused slot then
        let (empty, lane) ← lane.reloadIsEmpty
        let rx := rx.setLane lane
        let rx ← if empty then retireLane P rx lane.key else pure rx
        retireEmptyPaused P slots rx
      else
        retireEmptyPaused P slots rx

def isDrained (P : Params) (rx : Receiver) : Prog (Chan V) (Bool × Receiver) := do
  if (← Prog.read (·.liveSenders)) ≠ 0 then
    return (false, rx)
  let registered ← Prog.read (·.registeredLanes)
  let rx ← if registered ≠ 0 then retireEmptyPaused P (List.range rx.lanesLen) rx else pure rx
  let registered ← Prog.read (·.registeredLanes)
  return (registered == 0, rx)

/-- What a receive that found no value answers. -/
def noValue (P : Params) (rx : Receiver) : Prog (Chan V) (RecvError × Receiver) := do
  let (drained, rx) ← isDrained P rx
  return (if drained then .disconnected else .empty, rx)

/-! ### Single-value receives -/

/-- `ReceiveOutput::item`. -/
def output (P : Params) (tagged : Bool) (ℓ : Nat) (key : LaneKey) (v : V) : Item V :=
  ⟨ℓ, if tagged then some ⟨key, P.channelId⟩ else none, v⟩

def notifyReleased (rx : Receiver) (released : Option LaneKey) : Prog (Chan V) Unit :=
  match released.bind rx.lane? with
  | some lane => notifySpace lane.ix
  | none => pure ()

def pollLane (fair : Bool) (rx : Receiver) (key : LaneKey) :
    Prog (Chan V) (LanePoll V × Receiver) := do
  match rx.lane? key with
  | some lane =>
    let (r, lane) ← lane.poll fair
    return (r, rx.setLane lane)
  | none => return (.stale, rx)

/-- What one receive attempt answers: the result, and the lane whose released slots are still to be
    signaled. -/
abbrev Received (V : Type) := Except RecvError (Item V) × Option LaneKey

/-- Polls the front lane of a rotation that is not empty. -/
def pollFront (P : Params) (fair tagged : Bool) (rx : Receiver) :
    Prog (Chan V) (Receiver ⊕ (Received V × Receiver)) := do
  match rx.active with
  | [] => panic
  | key :: active =>
    match ← pollLane fair { rx with active := active } key with
    | (.item ℓ v rotate released, rx) =>
      let rx := { rx with active := if rotate then rx.active ++ [key] else key :: rx.active }
      let rx ← rx.charge 1
      return .inr ((.ok (output P tagged ℓ key v), if released then some key else none), rx)
    | (.keep released, rx) =>
      let rx := { rx with active := rx.active ++ [key] }
      return if released then .inr ((.error .empty, some key), rx) else .inl rx
    | (.idle disconnected released, rx) =>
      if disconnected then
        return .inl (← retireLane P rx key)
      else
        return if released then .inr ((.error .empty, some key), rx) else .inl rx
    | (.stale, rx) => return .inl rx

/-- One round of the receive loop. -/
def tryRecvRound (P : Params) (fair tagged : Bool) (rx : Receiver) :
    Prog (Chan V) (Receiver ⊕ (Received V × Receiver)) := do
  if rx.active = [] then
    let rx ← collectReady true rx
    if rx.active = [] then
      let (e, rx) ← noValue P rx
      return .inr ((.error e, none), rx)
    else
      pollFront P fair tagged rx
  else if rx.itemsUntilReadyPoll = 0 then
    let rx ← collectReady false rx
    pollFront P fair tagged { rx with itemsUntilReadyPoll := readyPollInterval }
  else
    pollFront P fair tagged rx

def tryRecvInner (P : Params) (fair tagged : Bool) (rx : Receiver) :
    Prog (Chan V) (Received V × Receiver) :=
  Prog.iterate (tryRecvRound P fair tagged) rx

/-- Whether a receive that freed capacity but found nothing tries again. -/
def mustRetry : Received V → Bool
  | (.error .empty, some _) => true
  | _ => false

/-- One attempt, with the notification it owes. -/
def tryRecvNotify (P : Params) (fair tagged : Bool) (rx : Receiver) :
    Prog (Chan V) (Receiver ⊕ (Except RecvError (Item V) × Receiver)) := do
  let (r, rx) ← tryRecvInner P fair tagged rx
  rx.notifyReleased r.2
  return if mustRetry r then .inl rx else .inr (r.1, rx)

/-- The full receive path. -/
def tryRecvLoop (P : Params) (fair tagged : Bool) (rx : Receiver) :
    Prog (Chan V) (Except RecvError (Item V) × Receiver) :=
  Prog.iterate (tryRecvNotify P fair tagged) rx

/-- Runs a due readiness poll. -/
def pollIfDue (rx : Receiver) : Prog (Chan V) Receiver := do
  if rx.itemsUntilReadyPoll = 0 ∧ rx.active ≠ [] then
    let rx ← collectReady false rx
    return { rx with itemsUntilReadyPoll := readyPollInterval }
  else
    return rx

/-- The value a window of `lane` gave, charged to the poll budget. -/
def served (P : Params) (tagged : Bool) (rx : Receiver) (lane : Lane) (v : V) :
    Prog (Chan V) (Except RecvError (Item V) × Receiver) := do
  let rx ← (rx.setLane lane).charge 1
  return (.ok (output P tagged lane.ix lane.key v), rx)

def tryRecvRefill (P : Params) (tagged : Bool) (rx : Receiver) :
    Prog (Chan V) (Except RecvError (Item V) × Receiver) := do
  let rx ← rx.pollIfDue
  match rx.active.head?.bind rx.lane? with
  | some lane =>
    let lane ← lane.grantFast rx.itemsUntilReadyPoll
    match ← lane.popFast with
    | (some v, lane) => served P tagged { rx with fastSlot := lane.key.slot } lane v
    | (none, lane) => tryRecvLoop P false tagged (rx.setLane lane)
  | none => tryRecvLoop P false tagged rx

def tryRecvOutput (P : Params) (tagged : Bool) (rx : Receiver) :
    Prog (Chan V) (Except RecvError (Item V) × Receiver) := do
  match rx.lanes rx.fastSlot with
  | some lane =>
    match ← lane.popFast with
    | (some v, lane) => served P tagged rx lane v
    | (none, lane) => tryRecvRefill P tagged (rx.setLane lane)
  | none => tryRecvRefill P tagged rx

/-- Whether any of the groups, of which `left` are still to be looked at, is marked. -/
def anyReady (groups : Nat) : Nat → Prog (Chan V) Bool
  | 0 => pure false
  | left + 1 => do
    if ← Ready.hasReady readyL (groups - (left + 1)) then
      return true
    else
      anyReady groups left

/-- The readiness check of a fair receive. A check that finds nothing to collect sets the budget as
    one that collects does, so it is recorded as a collection too. -/
def checkReady (rx : Receiver) : Prog (Chan V) Receiver := do
  let generation ← Prog.read (·.registryGeneration)
  let due ← if generation ≠ rx.seenRegistryGeneration then pure true
    else anyReady rx.groups rx.groups
  if due then
    collectReady true rx
  else
    Prog.write (record .collect)
    return rx

def tryRecvFairOutput (P : Params) (tagged : Bool) (rx : Receiver) :
    Prog (Chan V) (Except RecvError (Item V) × Receiver) := do
  let rx ← rx.checkReady
  let rx := { rx with itemsUntilReadyPoll := readyPollInterval }
  match if rx.active.length = 1 then rx.active.head?.bind rx.lane? else none with
  | some lane =>
    match ← lane.popFair rx.itemsUntilReadyPoll with
    | (some v, lane) => served P tagged { rx with fastSlot := lane.key.slot } lane v
    | (none, lane) => tryRecvLoop P true tagged (rx.setLane lane)
  | none => tryRecvLoop P true tagged rx

/-! ### Blocking receives -/

/-- `impl Blocking for Receiver`. -/
def blocking (P : Params) (tagged : Bool) :
    Blocking (Chan V) Receiver Unit (Except RecvError (Item V)) (Option LaneKey) where
  attempt rx _ := do
    match ← tryRecvOutput P tagged rx with
    | (.error .empty, rx) => return (.pending (), rx)
    | (r, rx) => return (.done r, rx)
  recheck rx _ := do
    match ← tryRecvInner P false tagged rx with
    | ((.ok item, released), rx) => return (.done (.ok item) released, rx)
    | ((.error .empty, some key), rx) => return (.progressed () (some key), rx)
    | ((.error .empty, none), rx) => return (.pending (), rx)
    | ((.error e, _), rx) => return (.done (.error e) none, rx)
  notify rx released := rx.notifyReleased released
  register := dataL.access WaitCell.prepare
  unregister _ := dataL.access WaitCell.unregister
  wait rx registration := WaitCell.wait dataL (fun s => { s with rx := rx }) registration
  waitTimeout rx registration :=
    WaitCell.waitTimeout dataL (fun s => { s with rx := rx }) registration

/-- `block` and `block_until`. -/
def recvBlocking (P : Params) (tagged : Bool) (spins : Nat) (deadline : Bool) (rx : Receiver) :
    Prog (Chan V) (Except RecvError (Item V) × Receiver) := do
  match ← (blocking P tagged).run spins deadline rx () with
  | (.ok r, rx) => return (r, rx)
  | (.error _, rx) => return (.error .timeout, rx)

/-- `recv_output`. -/
def recvOutput (P : Params) (tagged : Bool) (spins : Nat) (rx : Receiver) :
    Prog (Chan V) (Except RecvError (Item V) × Receiver) := do
  match ← tryRecvLoop P false tagged rx with
  | (.error .empty, rx) => recvBlocking P tagged spins false rx
  | r => return r

/-! ### Teardown -/

/-- Closes one lane and tells its sender. `close` runs once: a lane closed before is left alone. -/
def shutLane (P : Params) (lane : Lane) : Prog (Chan V) Unit := do
  if lane.isOpen then
    Ring.closeConsumer (ringL lane.ix) (closeGhost lane.ix) (shutGhost lane.ix) P.coordinated
  notifySpace lane.ix

def shutLanes (P : Params) : List Lane → Prog (Chan V) Unit
  | [] => pure ()
  | lane :: lanes => do
    shutLane P lane
    shutLanes P lanes

/-- The lanes the receiver holds, by slot. -/
def held (rx : Receiver) : List Lane := (List.range rx.lanesLen).filterMap rx.lanes

/-- `receiver_alive.store(false)`; every sender still waiting is to be told. -/
def leave (s : Chan V) : Chan V :=
  { s with
    receiverAlive := false
    owed := fun ℓ => if s.stage ℓ = .retired then s.owed ℓ else .due }

def drop (P : Params) (rx : Receiver) : Prog (Chan V) Unit := do
  WaitCell.cancelAsync dataL
  Prog.write leave
  shutLanes P rx.held
  let (pending, _) ← Prog.atomic takePending
  shutLanes P pending

end Receiver

end Fanring.Mpsc
