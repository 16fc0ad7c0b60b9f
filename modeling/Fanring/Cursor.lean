import Mathlib.Data.BitVec
import Mathlib.Data.Nat.ModEq
import Mathlib.Tactic.Common

/-!
# Counters that wrap

A free-running counter of `w` bits is a natural number seen modulo `2 ^ w`. `count start n` is
what a counter that began at `start` shows after `n` increments. As long as two counters of the
same start are less than `2 ^ w` apart, the word still tells how far: `toNat_count_sub` and
`count_inj`. A mask of `k` low bits turns a counter into an index of a buffer of `2 ^ k` slots
(`toNat_count_and`), and the buffer's slots repeat every `2 ^ k` counts however often the word
wraps (`slot_eq_iff`).
-/

set_option autoImplicit false

namespace Fanring.Cursor

variable {w : Nat}

/-- What a counter that began at `start` shows after `n` increments. -/
def count (start : BitVec w) (n : Nat) : BitVec w := start + BitVec.ofNat w n

@[simp] theorem count_zero (start : BitVec w) : count start 0 = start := by
  simp [count]

theorem count_add (start : BitVec w) (n m : Nat) :
    count start n + BitVec.ofNat w m = count start (n + m) := by
  simp only [count, BitVec.add_assoc, BitVec.ofNat_add]

theorem count_succ (start : BitVec w) (n : Nat) : count start n + 1 = count start (n + 1) :=
  count_add start n 1

theorem count_sub (start : BitVec w) {n m : Nat} (h : m ≤ n) :
    count start n - count start m = BitVec.ofNat w (n - m) := by
  obtain ⟨d, rfl⟩ := Nat.exists_eq_add_of_le h
  rw [← count_add, Nat.add_sub_cancel_left]
  exact add_sub_cancel_left ..

/-- **The distance of two counters is the true one**, as long as it fits the word. -/
theorem toNat_count_sub (start : BitVec w) {n m : Nat} (h : m ≤ n) (hfit : n < m + 2 ^ w) :
    (count start n - count start m).toNat = n - m := by
  rw [count_sub start h, BitVec.toNat_ofNat, Nat.mod_eq_of_lt (by omega)]

theorem count_inj (start : BitVec w) {n m : Nat} (h : m ≤ n) (hfit : n < m + 2 ^ w) :
    count start n = count start m ↔ n = m := by
  refine ⟨fun he => ?_, fun he => he ▸ rfl⟩
  have hd := toNat_count_sub start h hfit
  rw [he, BitVec.sub_self, BitVec.toNat_zero] at hd
  omega

/-- A counter that has not reached `a` is one nearer to it after an increment. -/
theorem toNat_sub_succ_lt {a b : BitVec w} (hne : a ≠ b) :
    (a - (b + 1)).toNat < (a - b).toNat := by
  have hpos : a - b ≠ 0 := fun h => hne (sub_eq_zero.mp h)
  have hlt : 0 < (a - b).toNat := by
    rcases Nat.eq_zero_or_pos (a - b).toNat with h | h
    · exact absurd (BitVec.eq_of_toNat_eq (by simpa using h)) hpos
    · exact h
  have hw : w ≠ 0 := by
    rintro rfl
    exact hpos (Subsingleton.elim _ _)
  have hone : (1 : BitVec w).toNat = 1 := by
    simp [Nat.mod_eq_of_lt (Nat.one_lt_two_pow hw)]
  have hbound := (a - b).isLt
  rw [show a - (b + 1) = a - b - 1 from (sub_sub a b 1).symm, BitVec.toNat_sub, hone,
    show 2 ^ w - 1 + (a - b).toNat = 2 ^ w + ((a - b).toNat - 1) by omega,
    Nat.add_mod_left, Nat.mod_eq_of_lt (by omega)]
  omega

/-! ## Slots -/

/-- The slot a counter points to in a buffer of `cap` slots. -/
def slot (start : BitVec w) (cap n : Nat) : Nat := (start.toNat + n) % cap

/-- **Masking a counter that may have wrapped** gives the slot of the number it counts. -/
theorem toNat_count_and (start mask : BitVec w) {k : Nat} (hk : k ≤ w)
    (hmask : mask.toNat + 1 = 2 ^ k) (n : Nat) :
    (count start n &&& mask).toNat = slot start (2 ^ k) n := by
  have hm : mask.toNat = 2 ^ k - 1 := by omega
  have hdvd : 2 ^ k ∣ 2 ^ w := Nat.pow_dvd_pow 2 hk
  rw [BitVec.toNat_and, hm, Nat.and_two_pow_sub_one_eq_mod, count, BitVec.toNat_add,
    BitVec.toNat_ofNat, Nat.mod_mod_of_dvd _ hdvd, slot, Nat.add_mod, Nat.mod_mod_of_dvd _ hdvd,
    ← Nat.add_mod]

theorem slot_lt (start : BitVec w) {cap : Nat} (hcap : 0 < cap) (n : Nat) :
    slot start cap n < cap := Nat.mod_lt _ hcap

theorem slot_add (start : BitVec w) (cap n m : Nat) :
    slot start cap (n + m) = (slot start cap n + m) % cap := by
  simp only [slot, Nat.mod_add_mod, Nat.add_assoc]

/-- Two counts share a slot when a whole number of rounds lies between them. -/
theorem slot_eq_iff (start : BitVec w) (cap : Nat) {n m : Nat} (h : m ≤ n) :
    slot start cap n = slot start cap m ↔ cap ∣ n - m := by
  rw [slot, slot, ← Nat.modEq_iff_dvd' h]
  exact ⟨fun he => (Nat.ModEq.add_left_cancel' _ he).symm, fun he => he.symm.add_left _⟩

/-- Counts less than a round apart have slots of their own. -/
theorem slot_inj (start : BitVec w) (cap : Nat) {n m : Nat} (h : m ≤ n) (hn : n < m + cap) :
    slot start cap n = slot start cap m ↔ n = m := by
  rw [slot_eq_iff start cap h]
  refine ⟨fun hd => ?_, fun he => he ▸ by simp⟩
  have := Nat.eq_zero_of_dvd_of_lt hd (by omega)
  omega

end Fanring.Cursor
