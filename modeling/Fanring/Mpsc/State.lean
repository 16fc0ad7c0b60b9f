import Fanring.Ring
import Fanring.Wait
import Fanring.Ready
import Fanring.Blocking
import Mathlib.Algebra.Group.Nat.Defs

/-!
# The MPSC channel: its state

`Chan` is everything the threads of one channel share, with the receiver's own fields as they are
between its operations (`rx`). Lanes are numbered in the order of their registration; that number
stands for the `Arc`s and the ring halves a lane and its sender hold, and is never reused. What the
source identifies a lane by, the slot and its generation, is its `key`.

The fields after the rule are bookkeeping: no code reads them. They record how far each sender is in
announcing a publication, which publications have returned, which slots were released without the
sender having been told, and what the receiver popped and answered.

The pending list holds the numbers of the lanes registered but not adopted. `Vec`s of shared pages
and groups are their lengths, since page `i` of one snapshot is page `i` of every other. Counters
that only grow (`registryGeneration`, the numbers of lanes and senders) do not wrap;
`itemsUntilReadyPoll` does, as the source subtracts from it without a check.
-/

set_option autoImplicit false

namespace Fanring.Mpsc

open Conc

/-- `usize` values. -/
def usize : Nat := 2 ^ 64

def prefetchLimit : Nat := 64
def readyPollInterval : Nat := 64
def minReleaseBatch : Nat := 64

/-- `MAX_CAPACITY_PER_SENDER`. -/
def maxCapacityPerSender : Nat := 2 ^ 62

structure LaneKey where
  slot : Nat
  generation : Nat
  deriving DecidableEq, Repr

structure LaneId where
  key : LaneKey
  channelId : Nat
  deriving DecidableEq, Repr

/-- What is fixed when a channel is built: its teardown policy, its identity and its capacity. -/
structure Params where
  coordinated : Bool
  channelId : Nat
  capacityPerSender : Nat

/-! ## The receiver's own fields -/

/-- An adopted lane. `ix` stands for the signal and the consumer it owns. -/
structure Lane where
  ix : Nat
  key : LaneKey
  /-- `Consumer::inner` is still there. -/
  isOpen : Bool
  cachedAvailable : Nat
  unreleased : Nat
  releaseBatch : Nat
  burst : Nat
  fastLeft : Nat
  queued : Bool
  deriving DecidableEq, Repr

structure Receiver where
  lanes : Nat → Option Lane
  lanesLen : Nat
  groups : Nat
  pages : Nat
  active : List LaneKey
  paused : Nat → Bool
  pausedLen : Nat
  readyGroupCursor : Nat
  seenRegistryGeneration : Nat
  itemsUntilReadyPoll : Nat
  fastSlot : Nat

def Lane.new (ix : Nat) (key : LaneKey) (capacity : Nat) : Lane where
  ix := ix
  key := key
  isOpen := true
  cachedAvailable := 0
  unreleased := 0
  releaseBatch := min (max ((capacity + 1) / 2) minReleaseBatch) capacity
  burst := 0
  fastLeft := 0
  queued := false

/-! ## What an operation answers -/

inductive RecvError
  | empty
  | disconnected
  | timeout
  deriving DecidableEq, Repr

/-- A received value. `lane` is the lane whose ring it was popped from; `id` is what the tagged
    view reports, and is absent in the plain one. -/
structure Item (V : Type) where
  lane : Nat
  id : Option LaneId
  value : V

/-- What a receiver operation answered. -/
inductive Reply (V : Type)
  | recv (result : Except RecvError (Item V))
  | batch (output : List (Item V)) (result : Except RecvError Nat)
  | poll (result : Option (Except RecvError (Item V)))
  | control (ok : Bool)

/-- The values an answer carries. -/
def Reply.items {V : Type} : Reply V → List (Item V)
  | .recv (.ok item) => [item]
  | .recv (.error _) => []
  | .batch output _ => output
  | .poll (some (.ok item)) => [item]
  | .poll _ => []
  | .control _ => []

inductive SendReply
  | ok
  | full
  | disconnected
  | timeout
  | pending
  | registered (lane : Nat)
  | atCapacity
  deriving DecidableEq, Repr

/-! ## Bookkeeping -/

/-- How far a sender is in announcing a publication. -/
inductive Phase
  | quiet
  | swapped
  | paged
  | marked
  | bumped (more : Bool)
  | woken
  deriving DecidableEq, Repr

/-- How far the receiver is in telling a sender about released slots or a closed lane. -/
inductive Owed
  | settled
  | due
  | bumped (more : Bool)
  | woken
  deriving DecidableEq, Repr

/-- Where a lane is registered. -/
inductive Stage
  | pending
  | adopted
  | retired
  deriving DecidableEq, Repr

inductive Event (V : Type)
  /-- A look at the readiness index: a collection, or a fair receive's look that finds no group
      ready and nothing registered, which has nothing to collect and counts as a collection. -/
  | collect
  /-- A decrement of the poll budget. -/
  | charge (budget amount : Nat)
  /-- A value popped, by a targeted receive or an ordinary one. -/
  | pop (lane : Nat) (value : V) (targeted : Bool)
  /-- A lane found empty by the look at its tail that follows the clearing of its readiness. -/
  | seenEmpty (lane : Nat)
  /-- Consumed slots were published: how many, how many values were left of the prefetched window,
      the lane's release batch, and how many values the last look at the tail had found. -/
  | publish (lane slots left batch found : Nat)
  /-- A call of an admission predicate, and its answer. -/
  | asked (value : V) (verdict : Bool)
  /-- Lanes were put into the rotation, which is this now. -/
  | queued (rotation : List LaneKey)

/-! ## The state -/

structure Registry where
  pending : List Nat
  /-- The free keys, the next one to be reused first. -/
  free : List LaneKey
  groups : Nat
  pages : Nat
  nextSlot : Nat

structure Chan (V : Type) where
  ring : Nat → Ring V
  key : Nat → LaneKey
  ready : Ready
  space : Nat → WaitCell
  data : WaitCell
  registry : Registry
  registryGeneration : Nat
  registeredLanes : Nat
  liveSenders : Nat
  receiverAlive : Bool
  rx : Receiver
  history : List (Reply V)
  sent : Nat → Option SendReply
  panicked : Bool
  ------------------------------------------------------------------------------------------------
  /-- Lanes registered so far. -/
  count : Nat
  stage : Nat → Stage
  /-- The receiver closed the lane. -/
  shut : Nat → Bool
  /-- How often the receiver began to close the consumer of the lane, registered as it was. -/
  closings : Nat → Nat
  phase : Nat → Phase
  /-- Values published when the sender last swapped the lane to `PENDING`. -/
  signaled : Nat → Nat
  /-- Values pushed when a signaled send or a flush last returned. -/
  completed : Nat → Nat
  /-- The sender closed its ring and swapped the lane to `PENDING` after that. -/
  dropMarked : Nat → Bool
  /-- Values published when the receiver last marked the lane itself. -/
  resumed : Nat → Nat
  /-- The sender no longer counts as live. -/
  gone : Nat → Bool
  owed : Nat → Owed
  trace : List (Event V)

namespace Chan

variable {V : Type}

/-! ## Components -/

def ringL (lane : Nat) : Lens (Chan V) (Ring V) where
  get s := s.ring lane
  set r s := { s with ring := Function.update s.ring lane r }

def spaceL (lane : Nat) : Lens (Chan V) WaitCell where
  get s := s.space lane
  set c s := { s with space := Function.update s.space lane c }

def dataL : Lens (Chan V) WaitCell where
  get s := s.data
  set c s := { s with data := c }

def readyL : Lens (Chan V) Ready where
  get s := s.ready
  set r s := { s with ready := r }

def registryL : Lens (Chan V) Registry where
  get s := s.registry
  set r s := { s with registry := r }

/-! ## Bookkeeping steps -/

def setPhase (lane : Nat) (p : Phase) (s : Chan V) : Chan V :=
  { s with phase := Function.update s.phase lane p }

def setOwed (lane : Nat) (o : Owed) (s : Chan V) : Chan V :=
  { s with owed := Function.update s.owed lane o }

def record (e : Event V) (s : Chan V) : Chan V := { s with trace := s.trace ++ [e] }

/-- A failed `expect`. The code does not go on. -/
def panic {α : Type} : Prog (Chan V) α := do
  Prog.write fun s => { s with panicked := true }
  Prog.diverge

end Chan

/-! ## The registry -/

namespace Registry

/-- The key `allocate_lane` hands out next. -/
def nextKey (r : Registry) : LaneKey :=
  match r.free with
  | key :: _ => key
  | [] => ⟨r.nextSlot, 0⟩

/-- `allocate_lane`: the registry after it handed out `nextKey`. -/
def allocate (r : Registry) (lane : Nat) : Registry where
  pending := r.pending ++ [lane]
  free := r.free.tail
  groups := max r.groups (r.nextKey.slot / lanesPerPage / pagesPerGroup + 1)
  pages := max r.pages (r.nextKey.slot / lanesPerPage + 1)
  nextSlot := if r.free.isEmpty then r.nextSlot + 1 else r.nextSlot

/-- `Registry::retire_lane`: an exhausted slot is not reused. -/
def retire (r : Registry) (key : LaneKey) : Registry :=
  if key.generation + 1 < usize then
    { r with free := ⟨key.slot, key.generation + 1⟩ :: r.free }
  else r

end Registry

/-- A new channel: one sender, and its lane already adopted. -/
def Chan.initial {V : Type} (P : Params) : Chan V where
  ring _ := Ring.new P.capacityPerSender
  key _ := ⟨0, 0⟩
  ready := Ready.new
  space _ := WaitCell.new
  data := WaitCell.new
  registry := ⟨[], [], 1, 1, 1⟩
  registryGeneration := 0
  registeredLanes := 1
  liveSenders := 1
  receiverAlive := true
  rx :=
    { lanes := fun slot =>
        if slot = 0 then some (Lane.new 0 ⟨0, 0⟩ (Ring.capacityOf P.capacityPerSender)) else none
      lanesLen := 1
      groups := 1
      pages := 1
      active := []
      paused := fun _ => false
      pausedLen := 1
      readyGroupCursor := 0
      seenRegistryGeneration := 0
      itemsUntilReadyPoll := readyPollInterval
      fastSlot := 0 }
  history := []
  sent _ := none
  panicked := false
  count := 1
  stage _ := .adopted
  shut _ := false
  closings _ := 0
  phase _ := .quiet
  signaled _ := 0
  completed _ := 0
  dropMarked _ := false
  resumed _ := 0
  gone _ := false
  owed _ := .settled
  trace := []

end Fanring.Mpsc
