import Mathlib.Data.Nat.Bitwise
import Mathlib.Data.Nat.Log

/-- A binary search for the highest bit of `x`: `r` places have been shifted out, and what is
left, `v`, has at most `2 ^ k` bits. -/
structure HighestBitSearch (k x v r : Nat) : Prop where
  small : v < 2 ^ 2 ^ k
  aligned : 2 ^ k ∣ r
  log : x.log2 = r + v.log2

namespace HighestBitSearch

variable {k x v r : Nat}

/-- Shifting out `a` places that are all below the highest bit. -/
theorem log2_shiftRight {a : Nat} (h : 2 ^ a ≤ v) : v.log2 = a + (v >>> a).log2 := by
  induction a with
  | zero => simp
  | succ a ih =>
    have hpow : 2 ^ (a + 1) = 2 ^ a * 2 := Nat.pow_succ 2 a
    have hle : 2 ^ a ≤ v := by omega
    have htwo : 2 ≤ v >>> a := by
      rw [Nat.shiftRight_eq_div_pow]
      apply (Nat.le_div_iff_mul_le (Nat.two_pow_pos a)).mpr
      omega
    rw [ih hle, Nat.log2_def, if_pos htwo, Nat.shiftRight_succ]
    omega

/-- The mask of the places from `a` up to `b` finds a bit exactly if there is one at `a` or
above. -/
theorem and_mask_eq_zero {a b : Nat} (hab : a ≤ b) (hv : v < 2 ^ b) :
    v &&& (2 ^ b - 2 ^ a) = 0 ↔ v < 2 ^ a := by
  have hmask : 2 ^ b - 2 ^ a = (2 ^ (b - a) - 1) <<< a := by
    rw [Nat.shiftLeft_eq, Nat.sub_mul, ← Nat.pow_add, Nat.sub_add_cancel hab, Nat.one_mul]
  have hshift : v >>> a < 2 ^ (b - a) := by
    rw [Nat.shiftRight_eq_div_pow]
    apply Nat.div_lt_of_lt_mul
    rw [← Nat.pow_add, Nat.add_sub_cancel' hab]
    exact hv
  have hand : v &&& (2 ^ b - 2 ^ a) = (v >>> a) <<< a := by
    rw [hmask]
    apply Nat.eq_of_testBit_eq
    intro i
    simp only [Nat.testBit_and, Nat.testBit_shiftLeft, Nat.testBit_two_pow_sub_one,
      Nat.testBit_shiftRight]
    by_cases hi : a ≤ i
    · have hbit : b - a ≤ i - a → v.testBit i = false := by
        intro hle
        apply Nat.testBit_lt_two_pow
        apply hv.trans_le
        apply Nat.pow_le_pow_right <;> omega
      rw [Nat.add_sub_cancel' hi]
      by_cases hlt : i - a < b - a
      · simp [hi, hlt]
      · simp [hi, hbit (Nat.le_of_not_lt hlt)]
    · simp [hi]
  rw [hand, Nat.shiftLeft_eq, Nat.mul_eq_zero, Nat.shiftRight_eq_div_pow, Nat.div_eq_zero_iff]
  have hpos := Nat.two_pow_pos a
  omega

theorem start (hx : x < 2 ^ 2 ^ k) : HighestBitSearch k x x 0 where
  small := hx
  aligned := Nat.dvd_zero _
  log := (Nat.zero_add _).symm

/-- The upper half of what is left is empty. -/
theorem skip (h : HighestBitSearch (k + 1) x v r) (hv : v < 2 ^ 2 ^ k) :
    HighestBitSearch k x v r where
  small := hv
  aligned := (Nat.pow_dvd_pow 2 (Nat.le_succ k)).trans h.aligned
  log := h.log

/-- There is a bit in the upper half of what is left; the lower half is shifted out. -/
theorem shift (h : HighestBitSearch (k + 1) x v r) (hv : 2 ^ 2 ^ k ≤ v) :
    HighestBitSearch k x (v >>> 2 ^ k) (r ||| 2 ^ k) := by
  have hor : r ||| 2 ^ k = r + 2 ^ k := by
    obtain ⟨q, rfl⟩ := h.aligned
    have hlt : 2 ^ k < 2 ^ (k + 1) := Nat.pow_lt_pow_succ Nat.one_lt_two
    exact (Nat.two_pow_add_eq_or_of_lt hlt q).symm
  refine ⟨?_, ?_, ?_⟩
  · have hsq : 2 ^ 2 ^ (k + 1) = 2 ^ 2 ^ k * 2 ^ 2 ^ k := by
      rw [← Nat.pow_add, Nat.pow_succ, Nat.mul_two]
    rw [Nat.shiftRight_eq_div_pow]
    apply Nat.div_lt_of_lt_mul
    rw [← hsq]
    exact h.small
  · rw [hor]
    apply Nat.dvd_add _ (Nat.dvd_refl _)
    exact (Nat.pow_dvd_pow 2 (Nat.le_succ k)).trans h.aligned
  · rw [hor, h.log, log2_shiftRight hv]
    omega

/-- At one bit the search is over. -/
theorem finish (h : HighestBitSearch 0 x v r) : r = x.log2 := by
  have hsmall : v < 2 := h.small
  have hzero : v.log2 = 0 := by
    rw [Nat.log2_def, if_neg (by omega)]
  rw [h.log, hzero, Nat.add_zero]

end HighestBitSearch
