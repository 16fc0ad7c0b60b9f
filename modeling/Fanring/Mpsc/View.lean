import Fanring.Mpsc.Core
import Fanring.Turns

/-!
# The MPSC channel: what the receiver knows

The receiver's fields are passed along by its code, so what the code knows between two accesses is
an assertion about a receiver `rx` and a state. `View` is that assertion for the whole of the code.
It has a part per concern: which lanes the receiver holds (`Roster`), why no marked lane is
forgotten (`Index`), what the counters of a lane count (`LaneOk`), what was popped and not yet
answered, and the budget of the readiness poll.

Code in the middle of a step breaks some of it in a known way: it has taken a page word out of the
index and not yet looked at its lanes, or has taken a lane's key out of the rotation. A `Ctx` names
what is in the code's hands. What the code is run for is an `Aim`: a receiver that registered to be
notified has to show that it was told of whatever it did not see, one that looks for a lane has to
find it, and one that is alone has to come to an end.
-/

set_option autoImplicit false

namespace Fanring.Mpsc

open Conc Chan

variable {V : Type}

/-! ## The receiver without its counters -/

/-- What the rotation and the index know of an adopted lane. -/
structure Held where
  ix : Nat
  key : LaneKey
  queued : Bool

/-- The lanes, and which slots are paused. -/
structure Book where
  lane : Nat → Option Held
  paused : Nat → Bool

/-- Everything but the counters. -/
structure Skel extends Book where
  lanesLen : Nat
  pausedLen : Nat
  groups : Nat
  pages : Nat
  active : List LaneKey
  seen : Nat

def Lane.skel (lane : Lane) : Held := ⟨lane.ix, lane.key, lane.queued⟩

def Receiver.book (rx : Receiver) : Book where
  lane slot := (rx.lanes slot).map Lane.skel
  paused := rx.paused

def Receiver.skel (rx : Receiver) : Skel where
  toBook := rx.book
  lanesLen := rx.lanesLen
  pausedLen := rx.pausedLen
  groups := rx.groups
  pages := rx.pages
  active := rx.active
  seen := rx.seenRegistryGeneration

/-! ## What is in the code's hands -/

/-- What was taken out of the index, and what of it is still to be looked at. -/
structure Scan where
  /-- Pages whose bit was taken out. -/
  cp : List Nat
  /-- Slots whose bit was taken out. -/
  cl : List Nat
  /-- Those of them that may belong to lanes not adopted yet. -/
  cu : List Nat
  /-- The groups still to be looked at, when the index is being collected. -/
  todo : Option (List Nat)

/-- Nothing is taken out. -/
def Scan.none : Scan := ⟨[], [], [], Option.none⟩

structure Ctx (V : Type) where
  /-- The receiver sleeps, or may. -/
  asleep : Bool
  /-- The key taken out of the rotation, to be put back or dropped. -/
  out : Option LaneKey
  /-- The lane whose sender is still to be told, and how far that is. -/
  owed : Option (Nat × Owed)
  /-- The lane that is being closed. -/
  closing : Option Nat
  /-- The lane that is being settled. -/
  exempt : Option Nat
  /-- The lane whose counters the code has changed and not yet stored. -/
  hot : Option Nat
  /-- How many values were popped from it since. -/
  taken : Nat
  scan : Scan
  /-- Every group was looked at, or is going to be. -/
  swept : Bool
  /-- There was nothing to receive. -/
  quiet : Bool
  /-- Popped, and not answered yet. -/
  hand : List (Nat × V)
  /-- Popped, and not charged to the budget yet. -/
  unc : Nat
  /-- Nothing was popped since the last collection. -/
  fresh : Bool
  /-- The aim is reached. -/
  caught : Bool
  /-- The predicate of the call has refused a value. -/
  refused : Bool
  /-- How many lanes are left, for a receiver that is alone. -/
  left : Nat

/-- Nothing is in the code's hands. -/
def Ctx.base : Ctx V where
  asleep := false
  out := none
  owed := none
  closing := none
  exempt := none
  hot := none
  taken := 0
  scan := .none
  swept := false
  quiet := false
  hand := []
  unc := 0
  fresh := false
  caught := false
  refused := false
  left := 0

/-- How the receiver is going to hear of what it does not see. -/
inductive Watch
  | none
  | sync (registration : Nat)
  | async

/-- What is known of a lane a receiver looks for: its key, how many values had been popped from all
    lanes when it set out, and whether it has to return, not only to receive something. -/
structure Sought where
  key : LaneKey
  popped : Nat
  must : Bool

inductive Aim
  | free (w : Watch)
  /-- To receive something, given that this lane can be received from. -/
  | target (lane : Nat) (q : Sought)
  /-- To return, given that all senders have left; the values of the unpaused lanes, or of all of
      them, may be known to have been received. -/
  | alone (dry : Option Bool)

/-- A lane that waits in the rotation: its key, how many values had been popped from all lanes when
    that began, how many values of other lanes come before its next one at most, and of which lanes
    none does. -/
structure Wait where
  lane : Nat
  key : LaneKey
  start : Nat
  most : Nat
  late : Nat → Prop

structure Setting where
  /-- The budget of the readiness poll is kept. -/
  strict : Bool := false
  aim : Aim := .free .none
  /-- A lane that is paused, and how many of its values have been popped. -/
  keep : Option (Nat × Nat) := none
  /-- A lane that is looked for values, and how long the trace was when that began. -/
  scan : Option (Nat × Nat) := none
  /-- Values are received one by one since the trace was this long. -/
  single : Option Nat := none
  /-- All senders have left, and no lane is registered. -/
  done : Bool := false
  wait : Option Wait := none

/-- A receiver that has to return stops at the first value. -/
def Setting.Urgent (S : Setting) (caught : Bool) : Prop :=
  ∀ ℓ q, S.aim = .target ℓ q → q.must = true → caught = false

/-! ## Which lanes the receiver holds -/

structure Roster (k : Skel) (out : Option LaneKey) (s : Chan V) : Prop where
  held : ∀ slot h, k.lane slot = some h → h.key = s.key h.ix ∧ h.key.slot = slot ∧
    h.ix < s.count ∧ s.stage h.ix = .adopted ∧ s.shut h.ix = false
  slot_lt : ∀ slot h, k.lane slot = some h → slot < k.lanesLen ∧ slot / lanesPerPage < k.pages
  adopted : ∀ ℓ < s.count, s.stage ℓ = .adopted → s.shut ℓ = false →
    ∃ h, k.lane (s.key ℓ).slot = some h ∧ h.ix = ℓ
  fresh : ∀ ℓ < s.count, s.stage ℓ = .pending → s.shut ℓ = false
  nodup : k.active.Nodup
  queued : ∀ key, key ∈ k.active ∨ out = some key ↔
    ∃ h, k.lane key.slot = some h ∧ h.key = key ∧ h.queued = true
  out : ∀ key, out = some key → key ∉ k.active
  paused : ∀ slot h, k.lane slot = some h → k.paused slot = true → h.queued = false
  vacant : ∀ slot, k.lane slot = none → k.paused slot = false
  lens : k.pausedLen = k.lanesLen
  seen_le : k.seen ≤ s.registryGeneration
  seen_eq : k.seen = s.registryGeneration → s.registry.pending = [] ∧
    k.pages = s.registry.pages ∧ k.groups = s.registry.groups
  group_lt : ∀ p < k.pages, p / pagesPerGroup < k.groups

/-! ## Why no marked lane is forgotten -/

/-- A lane that was signaled is covered, or its bit is set or about to be. -/
structure Indexed (s : Chan V) (ℓ slot : Nat) (covered served : Prop) : Prop where
  marked : s.ready.pending ℓ = true → covered ∨ s.ready.laneBit slot = true ∨ s.phase ℓ = .swapped
  idle : s.ready.pending ℓ = false → s.signaled ℓ ≤ (s.ring ℓ).head ∧ s.dropMarked ℓ = false
  swapped : s.phase ℓ = .swapped → served ∨ s.completed ℓ ≤ (s.ring ℓ).head
  resumed : served ∨ s.resumed ℓ ≤ (s.ring ℓ).head

structure Index (k : Book) (exempt : Option Nat) (c : Scan) (s : Chan V) : Prop where
  held : ∀ slot h, k.lane slot = some h → exempt ≠ some h.ix →
    Indexed s h.ix slot (k.paused slot = true ∨ h.queued = true ∨ slot ∈ c.cl)
      (k.paused slot = true ∨ h.queued = true)
  fresh : ∀ ℓ < s.count, s.stage ℓ = .pending →
    Indexed s ℓ (s.key ℓ).slot ((s.key ℓ).slot ∈ c.cu) False
  page : ∀ p, s.ready.page p ≠ 0#64 → p ∈ c.cp ∨ s.ready.pageBit p = true ∨
    ∃ ℓ < s.count, s.phase ℓ = .paged ∧ (s.key ℓ).slot / lanesPerPage = p

/-- The lane of the slot is in the rotation. -/
def Listed (k : Book) (slot : Nat) : Prop := ∃ h, k.lane slot = some h ∧ h.queued = true

/-- The slot is queued, or a collection under way is going to come to it. -/
def Covered (k : Book) (c : Scan) (s : Chan V) (slot : Nat) : Prop :=
  Listed k slot ∨ slot ∈ c.cl ∨
    s.ready.laneBit slot = true ∧ (slot / lanesPerPage ∈ c.cp ∨
      s.ready.pageBit (slot / lanesPerPage) = true ∧
        ∀ groups, c.todo = some groups → slot / lanesPerPage / pagesPerGroup ∈ groups)

/-! ## What the counters of a lane count -/

structure LaneCounts (s : Chan V) (lane : Lane) : Prop where
  isOpen : lane.isOpen = true
  window : lane.cachedAvailable + lane.fastLeft + (s.ring lane.ix).head =
    (s.ring lane.ix).cachedTail
  credit : (s.ring lane.ix).released + lane.unreleased = (s.ring lane.ix).head + lane.fastLeft
  batch : lane.releaseBatch =
    min (max (((s.ring lane.ix).cap + 1) / 2) minReleaseBatch) (s.ring lane.ix).cap
  unreleased_le : lane.unreleased ≤ lane.releaseBatch
  burst_le : lane.burst ≤ prefetchLimit
  fast_le : lane.fastLeft ≤ lane.burst

/-- The counters between two operations on the lane. -/
structure LaneOk (s : Chan V) (lane : Lane) : Prop extends LaneCounts s lane where
  unreleased_lt : lane.unreleased < lane.releaseBatch
  burst_lt : lane.burst < prefetchLimit

/-! ## Waiting in the rotation -/

/-- Values received in the current turn of the lane; what is left of the fast window was charged to
    it ahead. -/
def Lane.spent (lane : Lane) : Nat := lane.burst - lane.fastLeft

/-- What a lane may still give in its turn; `taken` was taken from the lane in the code's hands. -/
def allowance (hot : Option Nat) (taken : Nat) (lanes : Nat → Option Lane) (key : LaneKey) : Nat :=
  match lanes key.slot with
  | none => 0
  | some l => prefetchLimit - (l.spent + if hot = some l.ix then taken else 0)

/-- The lane of this key has to come after the one that waits. -/
def Wait.Late (w : Wait) (lanes : Nat → Option Lane) (key : LaneKey) : Prop :=
  ∃ l, lanes key.slot = some l ∧ w.late l.ix

/-- No value of the lane that waits was popped yet; `t` are those of all lanes. -/
structure Queued (w : Wait) (out : Option LaneKey) (hot : Option Nat) (taken : Nat)
    (lanes : Nat → Option Lane) (active : List LaneKey) (t : List (Nat × V)) (head tail : Nat) :
    Prop where
  held : ∃ l, lanes w.key.slot = some l ∧ l.key = w.key ∧ l.ix = w.lane
  unread : head < tail
  others : ∀ a ∈ t.drop w.start, a.1 ≠ w.lane ∧ ¬ w.late a.1
  fresh : hot = some w.lane → taken = 0
  place : ∃ n, (t.drop w.start).length + n ≤ w.most ∧
    Turns.Before (out.toList ++ active) (allowance hot taken lanes) (w.Late lanes) w.key n

/-- A value of the lane was popped, after not too many others. -/
def Served (w : Wait) (t : List (Nat × V)) : Prop :=
  ∃ first v later, t.drop w.start = first ++ (w.lane, v) :: later ∧ first.length ≤ w.most ∧
    ∀ a ∈ first, a.1 ≠ w.lane ∧ ¬ w.late a.1

def InLine (w : Wait) (out : Option LaneKey) (hot : Option Nat) (taken : Nat)
    (lanes : Nat → Option Lane) (active : List LaneKey) (t : List (Nat × V)) (head tail : Nat) :
    Prop :=
  w.start ≤ t.length ∧ (Served w t ∨ Queued w out hot taken lanes active t head tail)

/-- If this is the lane that waits, then it was served. -/
def Turned (S : Setting) (ℓ : Nat) (t : List (Nat × V)) : Prop :=
  ∀ w, S.wait = some w → w.lane = ℓ → Served w t

/-! ## The budget of the readiness poll -/

/-- Values popped by ordinary receives since the last look at the index. -/
def ordinarySince (t : List (Event V)) : Nat :=
  t.foldl (fun n e => match e with
    | .collect => 0
    | .charge _ _ => n
    | .seenEmpty _ => n
    | .publish _ _ _ _ _ => n
    | .asked _ _ => n
    | .queued _ => n
    | .pop _ _ targeted => if targeted then n else n + 1) 0

structure Budget (x : Ctx V) (rx : Receiver) (s : Chan V) : Prop where
  items_le : rx.itemsUntilReadyPoll ≤ readyPollInterval
  since : ordinarySince s.trace + rx.itemsUntilReadyPoll ≤ readyPollInterval + x.unc
  unc_le : x.unc ≤ rx.itemsUntilReadyPoll
  fresh : x.fresh = true → ordinarySince s.trace = 0

/-- What the budget is for: it is never overdrawn, and at most an interval of values is popped
    between two collections. -/
structure TraceOk (t : List (Event V)) : Prop where
  charge : ∀ b n, .charge b n ∈ t → n ≤ b ∧ b ≤ readyPollInterval
  since : ∀ t₁ t₂, t = t₁ ++ t₂ → ordinarySince t₁ ≤ readyPollInterval

/-! ## Aims -/

/-- The sender is about to tell the receiver of a lane it marked. -/
def Phase.announcing : Phase → Prop
  | .swapped | .paged | .marked => True
  | _ => False

/-- A receiver with this aim was told of something it did not see, or is going to be. -/
def Told (a : Aim) (s : Chan V) : Prop :=
  match a with
  | .free .none => True
  | .free (.sync n) => n < s.data.notified ∨ ∃ ℓ < s.count, (s.phase ℓ).announcing
  | .free .async => s.data.waker = false ∨
      ∃ ℓ < s.count, (s.phase ℓ).announcing ∨ ∃ more, s.phase ℓ = .bumped more
  | .target _ _ => True
  | .alone _ => False

/-- A receiver with this aim does not count on being told. -/
def Aim.Deaf : Aim → Prop
  | .free w => w = .none
  | _ => True

/-- A collection under way is going to come to every lane that is marked. -/
def Clear (k : Book) (c : Scan) (s : Chan V) : Prop :=
  (∀ ℓ < s.count, s.stage ℓ = .pending → s.ready.pending ℓ = false) ∧
  ∀ slot h, k.lane slot = some h → s.ready.pending h.ix = true →
    k.paused slot = true ∨ Covered k c s slot

/-- There is nothing to receive, and the channel is not drained. -/
def Quiesced (k : Book) (s : Chan V) : Prop :=
  (∀ slot h, k.lane slot = some h → k.paused slot = false → s.ready.pending h.ix = false) ∧
  (∀ ℓ < s.count, s.stage ℓ = .pending → s.ready.pending ℓ = false) ∧
  (s.liveSenders ≠ 0 ∨ ∃ ℓ < s.count, s.stage ℓ ≠ .retired ∧ s.shut ℓ = false ∧
    (s.ring ℓ).head < (s.ring ℓ).log.length)

/-- The lane holds a value, and a receive is going to come to it. -/
structure Target (k : Book) (c : Scan) (ℓ : Nat) (key : LaneKey) (s : Chan V) : Prop where
  lt : ℓ < s.count
  key : s.key ℓ = key
  stage : s.stage ℓ ≠ .retired
  shut : s.shut ℓ = false
  pending : s.ready.pending ℓ = true ∨ Listed k (s.key ℓ).slot
  unread : (s.ring ℓ).head < (s.ring ℓ).tail
  unpaused : s.stage ℓ = .adopted → k.paused (s.key ℓ).slot = false
  covered : Covered k c s (s.key ℓ).slot

/-- The unpaused lanes, or all of them, hold nothing. -/
def AllRead (all : Bool) (k : Book) (s : Chan V) : Prop :=
  ∀ ℓ < s.count, s.stage ℓ ≠ .retired → s.shut ℓ = false →
    all = true ∨ s.stage ℓ = .pending ∨ k.paused (s.key ℓ).slot = false →
    (s.ring ℓ).head = (s.ring ℓ).log.length

def AimOk (a : Aim) (k : Book) (c : Scan) (caught : Bool) (s : Chan V) : Prop :=
  match a with
  | .free (.sync n) => n ≤ s.data.notified
  | .free _ => True
  | .target ℓ q =>
    if caught then q.popped < (popped s.trace).length
    else q.popped ≤ (popped s.trace).length ∧ Target k c ℓ q.key s
  | .alone dry => (∀ ℓ < s.count, s.gone ℓ = true) ∧
    ∀ all, dry = some all → caught = false ∧ AllRead all k s

/-- What a receiver with this aim need not return for. -/
def Aim.goal (a : Aim) (s : Chan V) : Prop :=
  match a with
  | .free _ => True
  | .target _ q => q.must = false ∧ q.popped < (popped s.trace).length
  | .alone _ => False

/-- The lane is paused, or has ended in that state, and no value of it was popped. -/
structure Spared (k : Book) (ℓ n : Nat) (s : Chan V) : Prop where
  lt : ℓ < s.count
  shut : s.shut ℓ = false
  stage : s.stage ℓ ≠ .pending
  paused : s.stage ℓ = .adopted → k.paused (s.key ℓ).slot = true
  popped : (ofLane ℓ (popped s.trace)).length = n

/-- The lane is in the rotation, or was seen to be empty. -/
structure Scanned (k : Book) (ℓ t : Nat) (trace : List (Event V)) : Prop where
  le : t ≤ trace.length
  seen : .seenEmpty ℓ ∈ trace.drop t ∨
    ∃ slot h, k.lane slot = some h ∧ h.ix = ℓ ∧ h.queued = true

/-- If the lane is looked for values, it was seen to be empty. -/
def Passed (S : Setting) (ℓ : Nat) (trace : List (Event V)) : Prop :=
  ∀ t, S.scan = some (ℓ, t) → .seenEmpty ℓ ∈ trace.drop t

/-- The predicate of a call that began when the trace was this long has refused a value. -/
def Refused (t : Nat) (trace : List (Event V)) : Prop := ∃ v, .asked v false ∈ trace.drop t

/-- Slots are published when a release batch is complete, or when nothing is left of the window and
    the last look at the tail found the ring empty. -/
def Event.sparing : Event V → Prop
  | .publish _ slots left batch found => left = 0 ∧ found = 0 ∨ slots = batch
  | _ => True

structure Spare (t : Nat) (trace : List (Event V)) : Prop where
  le : t ≤ trace.length
  sparing : ∀ e ∈ trace.drop t, e.sparing

/-- Every sender that is still there was told of what concerns it, but the one being told. -/
def OwedOk (o : Option (Nat × Owed)) (s : Chan V) : Prop :=
  match o with
  | none => ∀ ℓ < s.count, (s.ring ℓ).producerDropped = false → s.owed ℓ = .settled
  | some (ℓ, d) => ℓ < s.count ∧ s.owed ℓ = d ∧
    ∀ ℓ' < s.count, ℓ' ≠ ℓ → (s.ring ℓ').producerDropped = false → s.owed ℓ' = .settled

def AllGone (s : Chan V) : Prop := ∀ ℓ < s.count, s.gone ℓ = true

/-- No sender and no lane is left. -/
def Over (s : Chan V) : Prop := AllGone s ∧ s.registeredLanes = 0

/-! ## The assertion -/

structure View (S : Setting) (x : Ctx V) (rx : Receiver) (s : Chan V) : Prop where
  alive : s.receiverAlive = true
  awake : x.asleep = false → s.data.sleep ≠ .asleep
  roster : Roster rx.skel x.out s
  index : Index rx.book x.exempt x.scan s
  counters : ∀ slot lane, rx.lanes slot = some lane → x.hot ≠ some lane.ix → LaneOk s lane
  /-- Only the lane at the front has a fast window, `fast_slot` is its slot, and it is charged to
      the budget. -/
  fast : ∀ slot lane, rx.lanes slot = some lane → x.hot ≠ some lane.ix → 0 < lane.fastLeft →
    x.out.or rx.active.head? = some lane.key ∧ slot = rx.fastSlot ∧
      lane.fastLeft + x.unc ≤ rx.itemsUntilReadyPoll
  /-- A lane that is neither in the rotation nor paused holds no slots back. -/
  idle : ∀ slot lane, rx.lanes slot = some lane → x.hot ≠ some lane.ix →
    rx.paused slot = false → lane.queued = false → lane.unreleased = 0
  items_lt : rx.itemsUntilReadyPoll < usize
  owed : OwedOk x.owed s
  closing : ∀ ℓ < s.count, s.stage ℓ = .adopted → s.shut ℓ = true → x.closing = some ℓ
  hand : popped s.trace = s.returned.map Item.pair ++ x.hand
  budget : S.strict = true → Budget x rx s
  swept : x.swept = true → Told S.aim s ∨ Clear rx.book x.scan s
  quiet : x.quiet = true → Told S.aim s ∨ Quiesced rx.book s
  aim : AimOk S.aim rx.book x.scan x.caught s
  keep : ∀ ℓ n, S.keep = some (ℓ, n) → Spared rx.book ℓ n s
  scan : ∀ ℓ t, S.scan = some (ℓ, t) → Scanned rx.book ℓ t s.trace
  refused : x.refused = true → ∀ ℓ t, S.scan = some (ℓ, t) → Refused t s.trace
  single : ∀ t, S.single = some t → Spare t s.trace
  left : ∀ dry, S.aim = .alone dry → s.registeredLanes ≤ x.left
  done : S.done = true → Over s
  wait : ∀ w, S.wait = some w → InLine w x.out x.hot x.taken rx.lanes rx.active (popped s.trace)
    (s.ring w.lane).head (s.ring w.lane).tail

end Fanring.Mpsc
