import Fanring.Conc.Prog

/-!
# Wait cells

`WaitCell` of `wait.rs`: the cell a blocked endpoint sleeps on. The state word is split into its
low bit (`waiting`) and the count of notifications above it; the count does not wrap here, and a
section under the mutex is one step. `Parking.Single.wait_cell_refined` is why that may be. The
condition variable has one possible sleeper, and `sleep` says whether it sleeps, was signalled, or
neither. `waker` says whether the `AtomicWaker` holds a waker: `register` stores one, `wake` takes
it out and wakes it.

A sleeper may also wake on its own, and a timed one when its time is up: those are the scheduler's
choices `1` and `2` in `wait` and `waitTimeout`.
-/

set_option autoImplicit false

namespace Fanring

open Conc

/-- What the waiter does in the condition variable. -/
inductive Sleep
  | awake
  | asleep
  | signaled
  deriving DecidableEq, Repr

structure WaitCell where
  notified : Nat
  waiting : Bool
  sleep : Sleep
  waker : Bool
  deriving DecidableEq, Repr

/-- Where a notifier stands, for the bookkeeping of the proofs. -/
inductive NotifyStep
  | bumped (more : Bool)
  | woken (more : Bool)
  | signaled

namespace WaitCell

variable {σ : Type}

def new : WaitCell := ⟨0, false, .awake, false⟩

def prepare (c : WaitCell) : Nat × WaitCell := (c.notified, { c with waiting := true })

/-- The `fetch_add` of a notification; answers whether a waiter was registered. -/
def bump (c : WaitCell) : Bool × WaitCell := (c.waiting, { c with notified := c.notified + 1 })

def wake (c : WaitCell) : Unit × WaitCell := ((), { c with waker := false })

/-- `notify_waiter`, under the mutex. -/
def signal (c : WaitCell) : Unit × WaitCell :=
  ((), if c.waiting && c.sleep == .asleep then { c with sleep := .signaled } else c)

/-- The check of a snapshot under the mutex; the waiter sleeps if nothing was notified. -/
def sleepOn (snapshot : Nat) (c : WaitCell) : Bool × WaitCell :=
  if c.waiting && c.notified == snapshot then (true, { c with sleep := .asleep }) else (false, c)

def resume (c : WaitCell) : WaitCell := { c with sleep := .awake }

def unregister (c : WaitCell) : Unit × WaitCell := ((), { c with waiting := false })

def register (c : WaitCell) : Unit × WaitCell := ((), { c with waker := true })

/-! ## Going to sleep -/

theorem sleepOn_waiting (snapshot : Nat) (c : WaitCell) :
    (c.sleepOn snapshot).2.waiting = c.waiting := by
  unfold sleepOn
  split <;> rfl

theorem sleepOn_asleep {snapshot : Nat} {c : WaitCell} (hc : c.sleep ≠ .asleep) :
    (c.sleepOn snapshot).2.sleep = .asleep ↔ (c.sleepOn snapshot).1 = true := by
  unfold sleepOn
  split
  · simp
  · simpa using hc

/-- A waiter sleeps only while nothing was notified. -/
theorem sleepOn_slept {snapshot : Nat} {c : WaitCell} (h : (c.sleepOn snapshot).1 = true) :
    c.waiting = true ∧ c.notified = snapshot := by
  unfold sleepOn at h
  split at h
  · next hc => simpa using hc
  · cases h

/-! ## The operations -/

section Code

variable (L : Lens σ WaitCell)

def notify (ghost : NotifyStep → σ → σ) : Prog σ Unit := do
  let waiting ← L.accessWith (fun more => ghost (.bumped more)) bump
  L.accessWith (fun _ => ghost (.woken waiting)) wake
  if waiting then
    L.accessWith (fun _ => ghost .signaled) signal

/-- Sleeps until it is signalled, or the scheduler wakes it; answers the scheduler's choice. -/
def sleeping (late : Nat) : Prog σ Nat :=
  .await (fun n s => (L.get s).sleep == .signaled || (0 < n && n ≤ late))
    fun n s => (n, L.set (L.get s).resume s)

/-- `WaitRegistration::wait`. `spill` makes the sleeper's own fields visible to the proofs. -/
def wait (spill : σ → σ) (snapshot : Nat) : Prog σ Unit := do
  if ← L.accessWith (fun _ => spill) (sleepOn snapshot) then
    let _ ← sleeping L 1
    pure ()
  L.access unregister

/-- `WaitRegistration::wait_timeout`; answers whether the time was up. -/
def waitTimeout (spill : σ → σ) (snapshot : Nat) : Prog σ Bool := do
  if ← L.accessWith (fun _ => spill) (sleepOn snapshot) then
    let n ← sleeping L 2
    L.access unregister
    return n == 2
  else
    L.access unregister
    return false

/-- `register_async`: the waker, and the `fetch_add` of nothing that orders it. -/
def registerAsync : Prog σ Unit := do
  L.access register
  Prog.read fun _ => ()

def cancelAsync : Prog σ Unit := L.access wake

end Code

end WaitCell

end Fanring
