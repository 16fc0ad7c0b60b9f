import Mathlib.Data.BitVec
import Mathlib.Data.Nat.Bitwise
import Mathlib.Tactic.Common

/-!
# A counter with a flag in one word

The low bit of a word is a flag, the bits above it count. `flagged w n b` is the word after `n`
increments, with the flag `b`; the count wraps and the flag does not disturb it. Setting and
clearing the flag are a `fetch_or` and a `fetch_and` of the low bit, an increment adds two. Fewer
than `2 ^ (w - 1)` increments later the word is another one (`Flagged.inj`).
-/

set_option autoImplicit false

namespace Fanring

variable {w n m : Nat} {b : Bool}

/-- The word of a counter that was incremented `n` times, and of a flag. -/
def flagged (w n : Nat) (b : Bool) : BitVec w := BitVec.ofNat w (2 * n + b.toNat)

namespace Flagged

theorem testBit_zero (n : Nat) (b : Bool) : (2 * n + b.toNat).testBit 0 = b := by
  cases b <;> simp [Nat.testBit_zero, Nat.add_mod]

theorem testBit_succ (n i : Nat) (b : Bool) : (2 * n + b.toNat).testBit (i + 1) = n.testBit i := by
  rw [Nat.testBit_succ]
  congr 1
  cases b
  · simp
  · simp
    omega

theorem getLsbD_zero (hw : 0 < w) : (flagged w n b).getLsbD 0 = b := by
  rw [flagged, BitVec.getLsbD_ofNat, testBit_zero]
  simp [hw]

theorem getLsbD_succ (i : Nat) :
    (flagged w n b).getLsbD (i + 1) = (decide (i + 1 < w) && n.testBit i) := by
  rw [flagged, BitVec.getLsbD_ofNat, testBit_succ]

/-- Two words with the same count agree above the flag. -/
theorem eq_flagged {x : BitVec w} (hzero : 0 < w → x.getLsbD 0 = b)
    (hsucc : ∀ i, i + 1 < w → x.getLsbD (i + 1) = n.testBit i) : x = flagged w n b := by
  refine BitVec.eq_of_getLsbD_eq fun i hi => ?_
  cases i with
  | zero => rw [hzero hi, getLsbD_zero hi]
  | succ i => rw [hsucc i hi, getLsbD_succ, decide_eq_true hi, Bool.true_and]

theorem getLsbD_one (i : Nat) : (1#w).getLsbD (i + 1) = false := by
  simp [BitVec.getLsbD_one]

@[simp] theorem or_one : flagged w n b ||| 1#w = flagged w n true := by
  refine eq_flagged (fun hw => ?_) fun i hi => ?_
  · rw [BitVec.getLsbD_or, getLsbD_zero hw]
    simp [hw]
  · rw [BitVec.getLsbD_or, getLsbD_succ, getLsbD_one, decide_eq_true hi]
    simp

@[simp] theorem and_not_one : flagged w n b &&& ~~~ 1#w = flagged w n false := by
  refine eq_flagged (fun hw => ?_) fun i hi => ?_
  · rw [BitVec.getLsbD_and, BitVec.getLsbD_not]
    simp [hw]
  · rw [BitVec.getLsbD_and, BitVec.getLsbD_not, getLsbD_succ, getLsbD_one, decide_eq_true hi]
    simp

@[simp] theorem add_two : flagged w n b + 2#w = flagged w (n + 1) b := by
  rw [flagged, flagged, show (2#w) = BitVec.ofNat w 2 from rfl, ← BitVec.ofNat_add]
  congr 1
  omega

/-- What the test of the low bit answers. -/
theorem and_one (hw : 0 < w) : flagged w n b &&& 1#w ≠ 0#w ↔ b = true := by
  have hbit : (flagged w n b &&& 1#w).getLsbD 0 = b := by
    rw [BitVec.getLsbD_and, getLsbD_zero hw]
    simp [hw]
  refine ⟨fun hne => ?_, fun hb heq => ?_⟩
  · by_contra hb
    refine hne (BitVec.eq_of_getLsbD_eq fun i hi => ?_)
    cases i with
    | zero => rw [hbit]; simpa using hb
    | succ i => rw [BitVec.getLsbD_and, getLsbD_one]; simp
  · rw [heq] at hbit
    simp [hb] at hbit

/-- **The count comes back to a value only after `2 ^ (w - 1)` increments.** -/
theorem inj (h : flagged w n b = flagged w m b) (hle : m ≤ n) (hlt : n - m < 2 ^ (w - 1)) :
    n = m := by
  rw [flagged, flagged, ← BitVec.toNat_inj, BitVec.toNat_ofNat, BitVec.toNat_ofNat] at h
  cases w with
  | zero => simp at hlt; omega
  | succ w =>
    have hdvd : 2 ^ (w + 1) ∣ (2 * n + b.toNat) - (2 * m + b.toNat) :=
      (Nat.modEq_iff_dvd' (by omega)).mp h.symm
    have hsub : (2 * n + b.toNat) - (2 * m + b.toNat) = 2 * (n - m) := by omega
    rw [hsub, Nat.pow_succ, Nat.mul_comm] at hdvd
    have := Nat.eq_zero_of_dvd_of_lt (Nat.dvd_of_mul_dvd_mul_left (by omega) hdvd) hlt
    omega

end Flagged

end Fanring
