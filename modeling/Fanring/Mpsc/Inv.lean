import Fanring.Mpsc.System
import Mathlib.Data.Finset.Card
import Mathlib.Data.Finset.Range
import Mathlib.Data.List.Infix

/-!
# The MPSC channel: what every state keeps

`Core` is the part of the invariant that speaks of the channel alone, whoever takes the next step.
`SenderAct` lists what one step of a sender can do to it, and `RecvAct` what one step of the
receiver can do to what senders look at; they are the guarantees of the two kinds of thread.
-/

set_option autoImplicit false

namespace Fanring.Mpsc

open Conc Chan

variable {V : Type}

/-! ## What was popped and answered -/

/-- The lane and the value of each pop, oldest first. -/
def popped (t : List (Event V)) : List (Nat × V) :=
  t.filterMap fun
    | .pop ℓ v _ => some (ℓ, v)
    | _ => none

/-- The values of one lane. -/
def ofLane (ℓ : Nat) (l : List (Nat × V)) : List V := (l.filter (·.1 = ℓ)).map (·.2)

def Item.pair (i : Item V) : Nat × V := (i.lane, i.value)

/-- Everything the receiver's operations have answered. -/
def Chan.returned (s : Chan V) : List (Item V) := s.history.flatMap Reply.items

theorem popped_append (t u : List (Event V)) : popped (t ++ u) = popped t ++ popped u :=
  List.filterMap_append

theorem ofLane_append (ℓ : Nat) (l m : List (Nat × V)) :
    ofLane ℓ (l ++ m) = ofLane ℓ l ++ ofLane ℓ m := by
  simp [ofLane]

@[simp] theorem popped_collect : popped [(.collect : Event V)] = [] := rfl

@[simp] theorem popped_charge (b n : Nat) : popped [(.charge b n : Event V)] = [] := rfl

@[simp] theorem popped_pop (ℓ : Nat) (v : V) (t : Bool) : popped [.pop ℓ v t] = [(ℓ, v)] := rfl

theorem popped_pops (ℓ : Nat) (t : Bool) (vs : List V) :
    popped (vs.map (.pop ℓ · t)) = vs.map (ℓ, ·) := by
  induction vs with
  | nil => rfl
  | cons v vs ih => simp [popped]

theorem ofLane_self (ℓ : Nat) (vs : List V) : ofLane ℓ (vs.map (ℓ, ·)) = vs := by
  induction vs with
  | nil => rfl
  | cons v vs ih => simpa [ofLane] using ih

theorem ofLane_other {ℓ ℓ' : Nat} (h : ℓ' ≠ ℓ) (vs : List V) :
    ofLane ℓ (vs.map (ℓ', ·)) = [] := by
  simp [ofLane, h]

/-! ## Keys -/

/-- The lane is the last one its slot was given to, and the slot is not free. -/
def Top (ℓ : Nat) (s : Chan V) : Prop :=
  (∀ ℓ' < s.count, (s.key ℓ').slot = (s.key ℓ).slot → ℓ' ≠ ℓ →
    (s.key ℓ').generation < (s.key ℓ).generation ∧ s.stage ℓ' = .retired) ∧
  ∀ k ∈ s.registry.free, k.slot ≠ (s.key ℓ).slot

/-- No key is given out twice, and a slot is free only once its lanes are retired. -/
structure Keys (s : Chan V) : Prop where
  slot_lt : ∀ ℓ < s.count, (s.key ℓ).slot < s.registry.nextSlot
  distinct : ∀ ℓ < s.count, ∀ ℓ' < s.count, s.key ℓ = s.key ℓ' → ℓ = ℓ'
  top : ∀ ℓ < s.count, s.stage ℓ ≠ .retired → Top ℓ s
  free_lt : ∀ k ∈ s.registry.free, k.slot < s.registry.nextSlot
  free_old : ∀ k ∈ s.registry.free, ∀ ℓ < s.count, (s.key ℓ).slot = k.slot →
    s.stage ℓ = .retired ∧ (s.key ℓ).generation < k.generation
  free_nodup : (s.registry.free.map (·.slot)).Nodup

/-! ## Counting -/

/-- The senders that still count as live. -/
def liveCount (count : Nat) (gone : Nat → Bool) : Nat :=
  ((Finset.range count).filter (gone · = false)).card

/-- The lanes that still count as registered. -/
def laneCount (count : Nat) (stage : Nat → Stage) : Nat :=
  ((Finset.range count).filter (stage · ≠ .retired)).card

/-! ## Waiting senders -/

/-- The sender will hear of what the receiver published, in its sleep. -/
def Owed.soon : Owed → Prop
  | .due => True
  | .bumped more => more = true
  | .woken => True
  | .settled => False

/-- The sender's waker will be woken. -/
def Owed.waking : Owed → Prop
  | .due => True
  | .bumped _ => True
  | _ => False

/-- The sender is right to wait: the receiver is there, the lane is open and its ring full. -/
def Stuck (P : Params) (ℓ : Nat) (s : Chan V) : Prop :=
  s.receiverAlive = true ∧ (s.ring ℓ).isClosed P.coordinated = false ∧
    (s.ring ℓ).cap ≤ (s.ring ℓ).log.length - (s.ring ℓ).released

/-! ## The invariant of the channel -/

/-- What holds of a lane's ring, given what was signaled and popped and whether the lane is still
    registered. -/
structure LaneInv (coordinated : Bool) (r : Ring V) (signaled : Nat) (dropMarked : Bool)
    (stage : Stage) (shut : Bool) (popped : List V) : Prop where
  ok : r.Ok
  signaled_le : signaled ≤ r.tail
  dropMarked : dropMarked = true → r.producerDropped = true
  closed : r.closed = true ∨ r.consumerDropped = true → shut = true ∨ stage = .retired
  retired : stage = .retired → shut = false →
    r.producerDropped = true ∧ r.head = r.log.length
  sealed : stage = .retired → shut = true → r.isClosed coordinated = true
  fresh : stage = .pending → shut = false → r.head = 0 ∧ r.cachedTail = 0 ∧ r.released = 0
  popped_le : popped <+: r.log
  popped_eq : shut = false → popped = r.log.take r.head

structure Core (P : Params) (s : Chan V) : Prop where
  noPanic : s.panicked = false
  lane : ∀ ℓ, LaneInv P.coordinated (s.ring ℓ) (s.signaled ℓ) (s.dropMarked ℓ) (s.stage ℓ)
    (s.shut ℓ) (ofLane ℓ (popped s.trace))
  completed_le : ∀ ℓ, s.completed ℓ ≤ s.signaled ℓ
  resumed_le : ∀ ℓ, s.resumed ℓ ≤ (s.ring ℓ).tail
  live : s.liveSenders = liveCount s.count s.gone
  registered : s.registeredLanes = laneCount s.count s.stage
  pending_nodup : s.registry.pending.Nodup
  mem_pending : ∀ ℓ, ℓ ∈ s.registry.pending ↔ ℓ < s.count ∧ s.stage ℓ = .pending
  page_lt : ∀ ℓ < s.count, (s.key ℓ).slot / lanesPerPage < s.registry.pages
  group_lt : ∀ p < s.registry.pages, p / pagesPerGroup < s.registry.groups
  word_lt : ∀ p, s.ready.page p ≠ 0#64 → p < s.registry.pages
  keys : Keys s
  gone : ∀ ℓ, s.gone ℓ = true → s.dropMarked ℓ = true ∧ s.phase ℓ ≠ .swapped ∧ s.phase ℓ ≠ .paged
  popped_lt : ∀ e ∈ popped s.trace, e.1 < s.count
  returned : s.returned.map Item.pair <+: popped s.trace
  ids : ∀ i ∈ s.returned, ∀ id, i.id = some id → id = ⟨s.key i.lane, P.channelId⟩
  space : ∀ ℓ < s.count, (s.space ℓ).sleep = .asleep → (s.space ℓ).waiting = true ∧
    (s.ring ℓ).producerDropped = false ∧ ((s.owed ℓ).soon ∨ Stuck P ℓ s)

/-! ## What a sender's step does -/

/-- One step of the sender of lane `ℓ`. -/
inductive SenderAct (P : Params) (ℓ : Nat) : Chan V → Chan V → Prop
  /-- A step on its own ring. -/
  | ring (s : Chan V) (r : Ring V) (h : (s.ring ℓ).OwnStep r)
      (hopen : (s.ring ℓ).producerDropped = false) (hawake : (s.space ℓ).sleep ≠ .asleep) :
      SenderAct P ℓ s ((ringL ℓ).set r s)
  /-- A step on its own wait cell; it goes to sleep only when it is told of what changes or has
      reason to wait. -/
  | space (s : Chan V) (c : WaitCell)
      (h : c.sleep = .asleep → c.waiting = true ∧ (s.ring ℓ).producerDropped = false ∧
        ((s.owed ℓ).soon ∨ Stuck P ℓ s))
        (hgone : s.gone ℓ = false) : SenderAct P ℓ s ((spaceL ℓ).set c s)
  | swap (s : Chan V) (h : s.phase ℓ = .quiet) (hgone : s.gone ℓ = false) :
      SenderAct P ℓ s (markGhost ℓ (.swapped (s.ready.swapPending ℓ).1)
        (readyL.set (s.ready.swapPending ℓ).2 s))
  | page (s : Chan V) (h : s.phase ℓ = .swapped) :
      SenderAct P ℓ s (markGhost ℓ (.paged (s.ready.markPage (s.key ℓ).slot).1)
        (readyL.set (s.ready.markPage (s.key ℓ).slot).2 s))
  | group (s : Chan V) (h : s.phase ℓ = .paged) :
      SenderAct P ℓ s (markGhost ℓ .grouped
        (readyL.set (s.ready.markGroup ((s.key ℓ).slot / lanesPerPage)).2 s))
  | bump (s : Chan V) (h : s.phase ℓ = .marked) :
      SenderAct P ℓ s (notifyGhost ℓ (.bumped s.data.bump.1) (dataL.set s.data.bump.2 s))
  | wake (s : Chan V) (more : Bool) (h : s.phase ℓ = .bumped more) :
      SenderAct P ℓ s (notifyGhost ℓ (.woken more) (dataL.set s.data.wake.2 s))
  | signal (s : Chan V) (h : s.phase ℓ = .woken) :
      SenderAct P ℓ s (notifyGhost ℓ .signaled (dataL.set s.data.signal.2 s))
  | reply (s : Chan V) (published : Bool) (r : SendReply)
      (h : published = true → s.signaled ℓ = (s.ring ℓ).log.length) (hquiet : s.phase ℓ = .quiet)
      (hgone : s.gone ℓ = false) : SenderAct P ℓ s { s with
        sent := Function.update s.sent ℓ (some r)
        completed :=
          if published then Function.update s.completed ℓ (s.ring ℓ).log.length else s.completed }
  | register (s : Chan V) (capacity : Nat) (halive : s.receiverAlive = true)
      (hgone : s.gone ℓ = false) : SenderAct P ℓ s (Sender.register capacity s)
  | leave (s : Chan V) (h : s.dropMarked ℓ = true)
      (hquiet : s.phase ℓ = .quiet ∨ s.phase ℓ = .marked)
      (hgone : s.gone ℓ = false) : SenderAct P ℓ s (Sender.leave ℓ s)

/-! ## What the receiver's step does -/

/-- A step of telling one sender. -/
inductive TellStep : Owed → WaitCell → Owed → WaitCell → Prop
  | idle (o : Owed) (c : WaitCell) : TellStep o c o c
  | due (o : Owed) (c : WaitCell) : TellStep o c .due c
  | bump (c : WaitCell) : TellStep .due c (.bumped c.waiting) c.bump.2
  | wake (more : Bool) (c : WaitCell) :
      TellStep (.bumped more) c (if more then .woken else .settled) c.wake.2
  | signal (c : WaitCell) : TellStep .woken c .settled c.signal.2

/-- What is recorded of a publication: the slots consumed since the last one, what is left of the
    window, the release batch, and what the last look at the tail found. -/
structure Published (r : Ring V) (slots left batch found : Nat) : Prop where
  slots : r.released + slots = r.head
  left : r.head + left = r.cachedTail
  batch : batch = min (max ((r.cap + 1) / 2) minReleaseBatch) r.cap
  found : found = r.found

/-- The trace goes on. A lane is recorded as seen empty only when everything published on it was
    popped, values are popped from lanes that were adopted, and the publication of slots to a sender
    that is there is recorded. -/
def Recorded (s s' : Chan V) : Prop :=
  ∃ es, s'.trace = s.trace ++ es ∧
    (∀ ℓ, .seenEmpty ℓ ∈ es → (s'.ring ℓ).tail ≤ (ofLane ℓ (popped s'.trace)).length) ∧
    (∀ ℓ n m b f, .publish ℓ n m b f ∈ es → Published (s.ring ℓ) n m b f) ∧
    (∀ e ∈ popped es, s.stage e.1 = .adopted) ∧
    ∀ ℓ, (s'.ring ℓ).released = (s.ring ℓ).released ∨ (∃ n m b f, .publish ℓ n m b f ∈ es) ∨
      s'.shut ℓ = true ∨ (s.ring ℓ).producerDropped = true

/-- A lane's `shut` and `closings`: the receiver begins to close a lane that it has not closed. -/
inductive CloseStep : Bool → Nat → Bool → Nat → Prop
  | idle (b : Bool) (n : Nat) : CloseStep b n b n
  | begin (n : Nat) : CloseStep false n true (n + 1)

/-- One step of the receiver, as a sender sees it. -/
structure RecvAct (P : Params) (s s' : Chan V) : Prop where
  count : s'.count = s.count
  key : s'.key = s.key
  phase : s'.phase = s.phase
  signaled : s'.signaled = s.signaled
  completed : s'.completed = s.completed
  dropMarked : s'.dropMarked = s.dropMarked
  gone : s'.gone = s.gone
  sent : s'.sent = s.sent
  ring : ∀ ℓ, (s.ring ℓ).ConsumeStep (s'.ring ℓ)
  /-- What a waiting sender waits for changes only with a debt to tell it; nobody waits for a lane
      that is closed. -/
  news : ∀ ℓ, ((s.ring ℓ).producerDropped = true ∨ (s.ring ℓ).isClosed P.coordinated = true) ∨
    s'.owed ℓ = .due ∨ ((s'.ring ℓ).released = (s.ring ℓ).released ∧
      (s'.ring ℓ).isClosed P.coordinated = (s.ring ℓ).isClosed P.coordinated ∧
      s'.receiverAlive = s.receiverAlive)
  tell : ∀ ℓ, TellStep (s.owed ℓ) (s.space ℓ) (s'.owed ℓ) (s'.space ℓ)
  registered : s'.registeredLanes ≤ s.registeredLanes
  alive : s'.receiverAlive = true → s.receiverAlive = true
  closing : ∀ ℓ, CloseStep (s.shut ℓ) (s.closings ℓ) (s'.shut ℓ) (s'.closings ℓ)
  recorded : Recorded s s'
  /-- No lane is twice in a rotation that lanes were put into. -/
  rotation : ∀ keys, .queued keys ∈ s'.trace → .queued keys ∈ s.trace ∨ keys.Nodup

end Fanring.Mpsc
