import Fanring.Mpsc.Outline

/-!
# The budget of the readiness poll

`items_until_ready_poll` counts down from `READY_POLL_INTERVAL` with every value an ordinary receive
delivers, and at zero the receiver looks at the readiness index before it goes on. Every decrement
is in the trace (`Event.charge`), with the budget it was made from.

The source looks at the index when the budget is used up and a lane is in the rotation. It also
looks when the rotation is empty, and does not set the budget then. A single-value receive that
starts with both the budget used up and the rotation empty finds a lane that way, delivers its value
and subtracts one from zero. Bulk receives set the budget before they drain, so they do not; nor
does a fair receive.
-/

set_option autoImplicit false

namespace Fanring.Mpsc

open Conc Chan

variable {V : Type} {P : Params}

/-- No receive of a single value starts with the budget used up and nothing in the rotation. -/
def Solvently (c : Config (Chan V) Tid) : Label Tid (Op V) → Prop
  | .call .rx (.recv op) => op.spends = true → c.st.rx.itemsUntilReadyPoll = 0 → c.st.rx.active ≠ []
  | _ => True

theorem Solvently.ok (c : Config (Chan V) Tid) (l : Label Tid (Op V)) (h : Solvently c l) :
    (outline V P true).ok c l := by
  match l with
  | .call .rx (.recv op) => exact fun _ => h
  | .call .rx (.send op) => trivial
  | .call (.tx ℓ) op => trivial
  | .step t n => trivial

/-- **The budget is kept.** In every state reached by a run of such calls: every decrement so far
    was made from a budget of at most `READY_POLL_INTERVAL` that covered it, at no time had more
    than that many values been delivered by ordinary receives since the last look at the index, and
    between operations the budget is at most that. -/
theorem budget_kept {c : Config (Chan V) Tid}
    (h : (system V P).Run Solvently (start V P) c) :
    (∀ budget amount, .charge budget amount ∈ c.st.trace →
      amount ≤ budget ∧ budget ≤ readyPollInterval) ∧
    (∀ earlier later, c.st.trace = earlier ++ later →
      ordinarySince earlier ≤ readyPollInterval) ∧
    (c.pool .rx = none → c.st.receiverAlive = true →
      c.st.rx.itemsUntilReadyPoll ≤ readyPollInterval) := by
  have hgood : (outline V P true).Good c :=
    Outline.good_run (good_start V P true) (System.Run.mono Solvently.ok h)
  have htrace := hgood.1.trace rfl
  refine ⟨htrace.charge, htrace.since, fun hidle halive => ?_⟩
  have hrests := hgood.2 .rx
  rw [hidle] at hrests
  exact ((Rests.between hrests halive).view.budget rfl).items_le

def Event.isCharge (budget amount : Nat) : Event V → Bool
  | .charge b n => b == budget && n == amount
  | _ => false

theorem mem_of_charges {trace : List (Event V)} {budget amount : Nat}
    (h : trace.any (Event.isCharge budget amount) = true) : .charge budget amount ∈ trace := by
  obtain ⟨e, he, h⟩ := List.any_eq_true.mp h
  cases e with
  | charge b n =>
    simp only [Event.isCharge, Bool.and_eq_true, beq_iff_eq] at h
    rw [← h.1, ← h.2]
    exact he
  | _ => cases h

/-- A label that is no call of a single-value receive. -/
def unspending : Label Tid (Op V) → Bool
  | .call .rx (.recv op) => !op.spends
  | _ => true

theorem solvently_of_unspending {l : Label Tid (Op V)} (h : unspending l = true)
    (c : Config (Chan V) Tid) : Solvently c l := by
  match l with
  | .call .rx (.recv op) =>
    intro hop
    simp [unspending, hop] at h
  | .call .rx (.send op) => trivial
  | .call (.tx ℓ) op => trivial
  | .step t n => trivial

theorem run_unspending {c : Config (Chan V) Tid} {ls : List (Label Tid (Op V))}
    (hls : ls.all unspending = true) (h : ((system V P).execAll c ls).isSome = true) :
    (system V P).Run Solvently c ((system V P).after c ls) :=
  System.run_after_of (fun l hl => solvently_of_unspending (List.all_eq_true.mp hls l hl)) h

/-- A full bulk receive has used the budget up, and one more value is sent. -/
def usedUp : Config (Chan Nat) Tid :=
  (system Nat ⟨false, 0, 64⟩).after (start Nat ⟨false, 0, 64⟩) (List.flatten [
    System.turn (.tx 0) (.send (.trySend 5)) 11,
    (List.replicate 63 (System.turn (.tx 0) (.send (.trySend 5)) 7)).flatten,
    System.turn .rx (.recv (.tryRecvBatch 64)) 18, System.turn (.tx 0) (.send (.trySend 6)) 7])

def usedUpCalled : Config (Chan Nat) Tid :=
  (system Nat ⟨false, 0, 64⟩).after usedUp [.call .rx (.recv (.tryRecv false))]

/-- It is received, by a receive that looks at the index first. -/
def renewed : Config (Chan Nat) Tid :=
  (system Nat ⟨false, 0, 64⟩).after usedUpCalled (List.replicate 8 (.step .rx 0))

/-- At the boundary: 64 values without a look at the index, then a look, and one value more. -/
theorem budget_kept_renewed :
    (usedUp.st.rx.itemsUntilReadyPoll = 0 ∧ ordinarySince usedUp.st.trace = readyPollInterval) ∧
    (renewed.st.rx.itemsUntilReadyPoll = 63 ∧ ordinarySince renewed.st.trace = 1 ∧
      .charge 64 64 ∈ renewed.st.trace ∧ .charge 64 1 ∈ renewed.st.trace) ∧
    (∀ budget amount, .charge budget amount ∈ renewed.st.trace →
      amount ≤ budget ∧ budget ≤ readyPollInterval) ∧
    ∀ earlier later, renewed.st.trace = earlier ++ later →
      ordinarySince earlier ≤ readyPollInterval := by
  have hused : (system Nat ⟨false, 0, 64⟩).Run Solvently (start Nat ⟨false, 0, 64⟩) usedUp :=
    run_unspending (by decide +kernel) (by decide +kernel)
  have hcalled : (system Nat ⟨false, 0, 64⟩).exec usedUp (.call .rx (.recv (.tryRecv false))) =
      some usedUpCalled := System.exec_after (by decide +kernel)
  -- the receive starts with no budget, and the lane is still in the rotation
  have hsolvent : Solvently usedUp (.call .rx (.recv (.tryRecv false))) := fun _ _ => by
    decide +kernel
  have hrenewed : (system Nat ⟨false, 0, 64⟩).Run Solvently usedUpCalled renewed :=
    run_unspending (by decide +kernel) (by decide +kernel)
  obtain ⟨hcharge, hsince, -⟩ := budget_kept (hused.trans (.head ⟨_, hsolvent, hcalled⟩ hrenewed))
  exact ⟨by decide +kernel,
    ⟨by decide +kernel, by decide +kernel, mem_of_charges (by decide +kernel),
    mem_of_charges (by decide +kernel)⟩, hcharge, hsince⟩

/-- A full bulk receive uses the budget up, a pause empties the rotation, and a single-value receive
    finds another lane. -/
def overdrawn : Config (Chan Nat) Tid :=
  (system Nat ⟨false, 0, 64⟩).after (start Nat ⟨false, 0, 64⟩) (List.flatten [
    System.turn (.tx 0) (.send (.register 100 4)) 4, System.turn (.tx 0) (.send (.trySend 5)) 11,
    (List.replicate 63 (System.turn (.tx 0) (.send (.trySend 5)) 7)).flatten,
    System.turn .rx (.recv (.tryRecvBatch 64)) 19, System.turn .rx (.recv (.pause ⟨⟨0, 0⟩, 0⟩)) 3,
    System.turn (.tx 1) (.send (.trySend 6)) 11, System.turn .rx (.recv (.tryRecv false)) 15])

/-- **The budget can be overdrawn**: one is subtracted from zero. -/
theorem overdrawn_budget :
    Reaches Nat ⟨false, 0, 64⟩ overdrawn ∧ .charge 0 1 ∈ overdrawn.st.trace ∧
      overdrawn.st.rx.itemsUntilReadyPoll = usize - 1 := by
  have hrun : Reaches Nat ⟨false, 0, 64⟩ overdrawn := System.run_after (by decide +kernel)
  exact ⟨hrun, mem_of_charges (by decide +kernel), by decide +kernel⟩

end Fanring.Mpsc
