import Fanring.Conc.System
import Mathlib.Data.Fintype.Basic
import Mathlib.Data.Multiset.AddSub

/-!
# Work on its way between receivers

`mpmc/work.rs` and `publication.rs`: queues of values that receivers have taken out of the lanes,
and the tracker by which a receiver that finds all of them empty knows whether it may believe that.
A batch is out of one queue before it is in the other, so a look at the queues, one after the other,
can miss it. Whoever moves a batch is therefore counted in `inFlight` while it does, and raises
`generation` before it leaves.

Any number of threads work on any queues: they stage values, pop, steal, drain one queue into
another, or receive as `pop_work` and `empty_scan_state` do. What these ask of the lanes
(`has_ready_lane`, `is_drained`) is the scheduler's choice, and so is the order of the queues. A
section under a queue's mutex is one step. `generation` does not wrap.

The fields after the rule are bookkeeping: no code reads them.
-/

set_option autoImplicit false

namespace Fanring.Work

open Conc

def stealBatchLimit : Nat := 8

/-- Where a thread is in a publication. -/
inductive Phase
  | idle
  | moving
  /-- The generation is raised; the thread is still counted. -/
  | bumped
  deriving DecidableEq, Repr

/-- How an operation ended. -/
inductive Reply (V : Type)
  | item (v : V)
  | done
  /-- It goes on to the lanes. -/
  | lanes
  | changed
  | publishing
  | opened
  | drained
  | panicked
  deriving DecidableEq, Repr

/-- The values an operation answers. -/
def Reply.items {V : Type} : Reply V → List V
  | .item v => [v]
  | _ => []

structure Pool (T Q V : Type) where
  values : Q → List V
  generation : Nat
  inFlight : Nat
  -----
  phase : T → Phase
  /-- The batch a thread carries from one queue to another. -/
  load : T → List V
  /-- The value a thread is about to answer. -/
  hand : T → List V
  entered : Multiset V
  answered : Multiset V
  /-- Values that a panic dropped. -/
  destroyed : Multiset V
  panicked : Bool
  reply : T → Option (Reply V)
  /-- For each read of `inFlight` at which the queues the thread had looked at were empty and no
      thread carried a batch, those queues. -/
  cleared : T → List (List Q)

/-! ## Queues -/

section Queues

variable {V : Type}

/-- The loop of `push_batch`: the queue, and what is left of the batch when the capacity check
    fails. -/
def pushAll (capacity : Option Nat) (queue : List V) : List V → List V × List V
  | [] => (queue, [])
  | v :: batch =>
    if capacity.any (· ≤ queue.length) then (queue, v :: batch)
    else pushAll capacity (queue ++ [v]) batch

theorem pushAll_append (capacity : Option Nat) (queue batch : List V) :
    (pushAll capacity queue batch).1 ++ (pushAll capacity queue batch).2 = queue ++ batch := by
  induction batch generalizing queue with
  | nil => rfl
  | cons v batch ih =>
    unfold pushAll
    split
    · rfl
    · rw [ih, List.append_assoc, List.singleton_append]

theorem length_pushAll {n : Nat} (queue batch : List V) (h : queue.length ≤ n) :
    (pushAll (some n) queue batch).1.length ≤ n := by
  induction batch generalizing queue with
  | nil => exact h
  | cons v batch ih =>
    unfold pushAll
    split
    · exact h
    · next hroom =>
      apply ih
      simp only [Option.any_some, decide_eq_true_eq] at hroom
      rw [List.length_append, List.length_singleton]
      omega

/-- What a thief takes, the batch it moves, and what it leaves. -/
def stealBatch : List V → Option (V × List V × List V)
  | [] => none
  | v :: rest =>
    let transfer := min ((rest.length + 1) / 2) (stealBatchLimit - 1)
    some (v, rest.take transfer, rest.drop transfer)

theorem stealBatch_append {queue moved rest : List V} {v : V}
    (h : stealBatch queue = some (v, moved, rest)) : queue = v :: (moved ++ rest) := by
  cases queue with
  | nil => cases h
  | cons w tail =>
    simp only [stealBatch, Option.some.injEq, Prod.mk.injEq] at h
    obtain ⟨rfl, rfl, rfl⟩ := h
    rw [List.take_append_drop]

end Queues

/-! ## The accesses -/

section Accesses

variable {T Q V : Type} [DecidableEq T] [DecidableEq Q] (capacity : Q → Option Nat) (t : T)

namespace Pool

/-- `PublicationTracker::begin`. -/
def begin (s : Pool T Q V) : Pool T Q V :=
  { s with inFlight := s.inFlight + 1, phase := Function.update s.phase t .moving }

/-- `notify_change`, in the drop of a `Publication`. -/
def bump (s : Pool T Q V) : Pool T Q V :=
  { s with generation := s.generation + 1, phase := Function.update s.phase t .bumped }

def leave (s : Pool T Q V) : Pool T Q V :=
  { s with inFlight := s.inFlight - 1, phase := Function.update s.phase t .idle }

/-- Values come out of a lane. -/
def bring (batch : List V) (s : Pool T Q V) : Pool T Q V :=
  { s with entered := s.entered + ↑batch, load := Function.update s.load t batch }

/-- `WorkQueue::pop`. -/
def pop (q : Q) (s : Pool T Q V) : Option V × Pool T Q V :=
  match s.values q with
  | [] => (none, s)
  | v :: rest =>
    (some v,
      { s with values := Function.update s.values q rest, hand := Function.update s.hand t [v] })

/-- The locked part of `steal_batch_into`. -/
def grab (q : Q) (s : Pool T Q V) : Option (V × List V) × Pool T Q V :=
  match stealBatch (s.values q) with
  | none => (none, s)
  | some (v, moved, rest) =>
    (some (v, moved),
      { s with
        values := Function.update s.values q rest
        hand := Function.update s.hand t [v]
        load := Function.update s.load t moved })

/-- The locked part of `drain_into`. -/
def takeAll (q : Q) (s : Pool T Q V) : List V × Pool T Q V :=
  (s.values q,
    { s with
      values := Function.update s.values q []
      load := Function.update s.load t (s.values q) })

/-- `push_batch`; whether it returned. The rest of a batch that does not fit is dropped. -/
def pushBatch (q : Q) (batch : List V) (s : Pool T Q V) : Bool × Pool T Q V :=
  let (queue, rest) := pushAll (capacity q) (s.values q) batch
  (rest.isEmpty,
    { s with
      values := Function.update s.values q queue
      load := Function.update s.load t []
      destroyed := s.destroyed + ↑rest
      panicked := s.panicked || !rest.isEmpty })

/-- The value a thief took for itself is dropped by a panic. -/
def discard (v : V) (s : Pool T Q V) : Pool T Q V :=
  { s with destroyed := s.destroyed + ↑[v], hand := Function.update s.hand t [], panicked := true }

/-- The operation returns. -/
def answer (r : Reply V) (s : Pool T Q V) : Pool T Q V :=
  { s with
    answered := s.answered + ↑r.items
    hand := Function.update s.hand t []
    reply := Function.update s.reply t (some r) }

/-- The queues are empty, and nothing is on its way to one. -/
def isClear [Fintype T] (looked : List Q) (s : Pool T Q V) : Bool :=
  looked.all (fun q => (s.values q).isEmpty) && decide (∀ u, (s.load u).isEmpty = true)

/-- `is_in_flight`, by a thread that looked at the queues `looked`. -/
def isInFlight [Fintype T] (looked : List Q) (s : Pool T Q V) : Bool × Pool T Q V :=
  (s.inFlight != 0,
    { s with
      cleared := Function.update s.cleared t
        (s.cleared t ++ if s.isClear looked then [looked] else []) })

end Pool

/-! ## The code -/

/-- Code under a publication, which is dropped however the code ends. -/
def publishing {α : Type} (p : Prog (Pool T Q V) α) : Prog (Pool T Q V) α := do
  Prog.write (Pool.begin t)
  let a ← p
  Prog.write (Pool.bump t)
  Prog.write (Pool.leave t)
  return a

/-- `steal_batch_into`: `none` if it panics. -/
def stealBatchInto (source destination : Q) : Prog (Pool T Q V) (Option (Option V)) := do
  match ← Prog.atomic (Pool.grab t source) with
  | none => return some none
  | some (v, moved) =>
    if ← Prog.atomic (Pool.pushBatch capacity t destination moved) then
      return some (some v)
    else
      Prog.write (Pool.discard t v)
      return none

/-- `drain_into`: whether it returned. -/
def drainInto (source destination : Q) : Prog (Pool T Q V) Bool := do
  let drained ← Prog.atomic (Pool.takeAll t source)
  Prog.atomic (Pool.pushBatch capacity t destination drained)

/-- The loop of `pop_work` over the other receivers' queues: `some none` if they give nothing. -/
def stealFrom (own : Q) : List Q → Prog (Pool T Q V) (Option (Option V))
  | [] => .ret (some none)
  | q :: queues => do
    if ← Prog.read fun s => (s.values q).length == 0 then
      stealFrom own queues
    else
      match ← publishing t (stealBatchInto capacity t q own) with
      | some none => stealFrom own queues
      | r => return r

/-- `empty_scan_state`. -/
def emptyScanState [Fintype T] (looked : List Q) (generation : Nat) :
    Prog (Pool T Q V) (Reply V) := do
  if (← Prog.read (·.generation)) ≠ generation then
    return .changed
  if ← Prog.atomic (Pool.isInFlight t looked) then
    return .publishing
  if (← Prog.oracle) ≠ 0 then
    return .opened
  if ← Prog.atomic (Pool.isInFlight t looked) then
    return .publishing
  if (← Prog.read (·.generation)) ≠ generation then
    return .changed
  return .drained

/-- A receive that finds no lane: `pop_work`, then `empty_scan_state`. -/
def receive [Fintype T] (own orphaned : Q) (queues : List Q) : Prog (Pool T Q V) (Reply V) := do
  match ← Prog.atomic (Pool.pop t own) with
  | some v => return .item v
  | none =>
    let generation ← Prog.read (·.generation)
    match ← Prog.atomic (Pool.pop t orphaned) with
    | some v => return .item v
    | none =>
      if (← Prog.oracle) ≠ 0 then
        return .lanes
      match ← stealFrom capacity t own queues with
      | none => return .panicked
      | some (some v) => return .item v
      | some none => emptyScanState t (orphaned :: queues) generation

inductive Op (Q V : Type)
  | stage (q : Q) (batch : List V)
  | drain (source destination : Q)
  | receive (own orphaned : Q) (queues : List Q)

/-- What an operation answers that may panic. -/
def Reply.returned (ok : Bool) : Reply V := if ok then .done else .panicked

def code [Fintype T] : Op Q V → Prog (Pool T Q V) Unit
  | .stage q batch => do
    let ok ← publishing t do
      Prog.write (Pool.bring t batch)
      Prog.atomic (Pool.pushBatch capacity t q batch)
    Prog.write (Pool.answer t (.returned ok))
  | .drain source destination => do
    let ok ← publishing t (drainInto capacity t source destination)
    Prog.write (Pool.answer t (.returned ok))
  | .receive own orphaned queues => do
    let r ← receive capacity t own orphaned queues
    Prog.write (Pool.answer t r)

/-- Threads that may call anything at any time. -/
def system [Fintype T] : System (Pool T Q V) T (Op Q V) where
  may _ _ _ := true
  code t op := code capacity t op

def initial : Config (Pool T Q V) T :=
  ⟨⟨fun _ => [], 0, 0, fun _ => .idle, fun _ => [], fun _ => [], 0, 0, 0, false, fun _ => none,
    fun _ => []⟩, fun _ => none⟩

end Accesses

end Fanring.Work
