import Mathlib.Data.List.Range
import Mathlib.Data.List.Nodup

/-!
# Summary words

The 64-bit words of the readiness index, read as sets of bit numbers: `mark` is the `fetch_or` of
one bit, `bits` lists the set bits in the order the `trailing_zeros` loop visits them, `firstFrom`
is the bit `take_one_from` picks and `clear` takes it out.
-/

set_option autoImplicit false

namespace Fanring

/-- One `AtomicU64` of the readiness index. -/
abbrev Word := BitVec 64

namespace Word

def mark (w : Word) (i : Nat) : Word := w ||| BitVec.twoPow 64 i

def clear (w : Word) (i : Nat) : Word := w &&& ~~~ BitVec.twoPow 64 i

/-- The set bits, lowest first. -/
def bits (w : Word) : List Nat := (List.range 64).filter w.getLsbD

/-- The first set bit at or after `start`, wrapping around. -/
def firstFrom (w : Word) (start : Nat) : Option Nat :=
  ((List.range 64).map fun o => (start + o) % 64).find? w.getLsbD

@[simp] theorem mem_bits {w : Word} {i : Nat} : i ∈ w.bits ↔ w.getLsbD i = true := by
  simp only [bits, List.mem_filter, List.mem_range, and_iff_right_iff_imp]
  exact BitVec.lt_of_getLsbD

@[simp] theorem getLsbD_mark {w : Word} {i j : Nat} (hi : i < 64) :
    (w.mark i).getLsbD j = (w.getLsbD j || decide (i = j)) := by
  by_cases hij : i = j
  · subst hij
    simp [mark, hi]
  · simp [mark, hij]

@[simp] theorem getLsbD_clear {w : Word} {i j : Nat} :
    (w.clear i).getLsbD j = (w.getLsbD j && decide (i ≠ j)) := by
  by_cases hj : j < 64
  · by_cases hij : i = j
    · simp [clear, hij, hj]
    · simp [clear, hij, Ne.symm hij, hj]
  · simp [clear, BitVec.getLsbD_of_ge _ _ (Nat.le_of_not_lt hj)]

theorem ne_zero {w : Word} {i : Nat} (h : w.getLsbD i = true) : w ≠ 0#64 := by
  rintro rfl
  simp at h

end Word

end Fanring
