import Mathlib.Algebra.GroupWithZero.Nat
import Mathlib.Algebra.Order.BigOperators.Group.List
import Mathlib.Algebra.Order.Group.Nat

/-!
# Waiting for a turn

A queue whose front is served. What it may be served before its turn is over is bounded, and then it
leaves or goes to the back, as newcomers do. So nothing ever moves ahead of a key that waits, and
what is served before it is bounded by what those ahead of it may still be served (`Before`).
-/

set_option autoImplicit false

namespace Fanring.Turns

variable {K : Type} {q rest : List K} {cost cost' : K → Nat} {late late' : K → Prop} {k key : K}
  {n m : Nat}

/-- At most `n` is served before `key` is, and nothing of it to a key that is `late`. -/
def Before (q : List K) (cost : K → Nat) (late : K → Prop) (key : K) (n : Nat) : Prop :=
  ∃ ahead behind, q = ahead ++ key :: behind ∧ (ahead.map cost).sum ≤ n ∧ ∀ k ∈ ahead, ¬ late k

theorem Before.mem (h : Before q cost late key n) : key ∈ q := by
  obtain ⟨ahead, behind, rfl, -⟩ := h
  simp

/-- Nobody waits for the last one. -/
theorem Before.mono (h : Before q cost late key n) (hcost : ∀ k ∈ q.dropLast, cost' k ≤ cost k)
    (hlate : ∀ k ∈ q, late' k → late k) (hn : n ≤ m) : Before q cost' late' key m := by
  obtain ⟨ahead, behind, rfl, hsum, hearly⟩ := h
  have hmem : ∀ k ∈ ahead, k ∈ (ahead ++ key :: behind).dropLast := fun k hk => by
    rw [List.dropLast_append_of_ne_nil (List.cons_ne_nil _ _)]
    exact List.mem_append_left _ hk
  have hin : ∀ k ∈ ahead, k ∈ ahead ++ key :: behind := fun k hk => List.mem_append_left _ hk
  refine ⟨ahead, behind, rfl, ?_, fun k hk hl => hearly k hk (hlate k (hin k hk) hl)⟩
  calc (ahead.map cost').sum ≤ (ahead.map cost).sum :=
        List.sum_le_sum fun k hk => hcost k (hmem k hk)
    _ ≤ m := le_trans hsum hn

/-- A key at the front is the one that waits, or it is served before it. -/
theorem before_cons : Before (k :: rest) cost late key n ↔
    k = key ∨ ¬ late k ∧ cost k ≤ n ∧ Before rest cost late key (n - cost k) := by
  constructor
  · rintro ⟨ahead, behind, heq, hsum, hearly⟩
    cases ahead with
    | nil => exact .inl (List.cons.inj heq).1
    | cons a ahead =>
      obtain ⟨rfl, rfl⟩ := List.cons.inj heq
      rw [List.map_cons, List.sum_cons] at hsum
      exact .inr ⟨hearly k List.mem_cons_self, by omega, ahead, behind, rfl, by omega,
        fun j hj => hearly j (List.mem_cons_of_mem _ hj)⟩
  · rintro (rfl | ⟨hk, hle, ahead, behind, rfl, hsum, hearly⟩)
    · exact ⟨[], rest, rfl, Nat.zero_le _, by simp⟩
    · refine ⟨k :: ahead, behind, rfl, ?_, ?_⟩
      · rw [List.map_cons, List.sum_cons]
        omega
      · simpa using ⟨hk, hearly⟩

/-- Newcomers go to the back. -/
theorem Before.append (h : Before q cost late key n) (l : List K) :
    Before (q ++ l) cost late key n := by
  obtain ⟨ahead, behind, rfl, hsum, hearly⟩ := h
  exact ⟨ahead, behind ++ l, by simp, hsum, hearly⟩

/-- The front is served `m`. -/
theorem Before.serve (h : Before (k :: rest) cost late key n) (hne : k ≠ key)
    (hserve : cost' k + m ≤ cost k) (hrest : ∀ j ∈ rest, cost' j ≤ cost j) :
    m ≤ n ∧ ¬ late k ∧ Before (k :: rest) cost' late key (n - m) := by
  obtain ⟨hlate, hle, hbefore⟩ := (before_cons.mp h).resolve_left hne
  refine ⟨by omega, hlate, before_cons.mpr (.inr ⟨hlate, by omega, ?_⟩)⟩
  exact hbefore.mono (fun j hj => hrest j (List.dropLast_subset _ hj)) (fun _ _ hl => hl) (by omega)

/-- The turn of the front is over. -/
theorem Before.rotate (h : Before (k :: rest) cost late key n) (hne : k ≠ key) :
    Before (rest ++ [k]) cost late key n := by
  obtain ⟨-, -, hbefore⟩ := (before_cons.mp h).resolve_left hne
  exact (hbefore.mono (fun _ _ => le_rfl) (fun _ _ hl => hl) (Nat.sub_le ..)).append [k]

/-- Another key leaves. -/
theorem Before.leave [DecidableEq K] (h : Before q cost late key n) (hne : k ≠ key) :
    Before (q.filter (· ≠ k)) cost late key n := by
  obtain ⟨ahead, behind, rfl, hsum, hearly⟩ := h
  refine ⟨ahead.filter (· ≠ k), behind.filter (· ≠ k), ?_, ?_, fun j hj => ?_⟩
  · simp [List.filter_append, hne.symm]
  · exact le_trans ((List.filter_sublist.map cost).sum_le_sum fun _ _ => Nat.zero_le _) hsum
  · exact hearly j ((List.mem_filter.mp hj).1)

end Fanring.Turns
