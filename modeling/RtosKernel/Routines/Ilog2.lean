import RtosKernel.Math.HighestBit

namespace RtosKernel

namespace Debug

/-- The loop of `ilog2` without `NDEBUG`: its test shifts `x`. -/
def ilog2Loop (x r : BitVec 32) : BitVec 32 :=
  if _h : x >>> 1 = 0 then r else ilog2Loop (x >>> 1) (r + 1)
termination_by x.toNat
decreasing_by
  have hne : x >>> 1 ≠ 0 := _h
  have htoNat : (x >>> 1).toNat ≠ 0 := fun h => hne (BitVec.eq_of_toNat_eq h)
  have hhalf : (x >>> 1).toNat = x.toNat / 2 := by simp [Nat.shiftRight_eq_div_pow]
  omega

def ilog2 (x : BitVec 32) : BitVec 32 := ilog2Loop x 0

end Debug

namespace Ndebug

def b : List (BitVec 32) := [0x2, 0xC, 0xF0, 0xFF00, 0xFFFF0000]

def S : List (BitVec 32) := [1, 2, 4, 8, 16]

/-- The loop of `ilog2` with `NDEBUG`, from entry `i - 1` of the tables down to the first. -/
def ilog2Loop : Nat → BitVec 32 → BitVec 32 → BitVec 32
  | 0, _, r => r
  | i + 1, v, r =>
    if v &&& b.getD i 0 ≠ 0 then ilog2Loop i (v >>> S.getD i 0) (r ||| S.getD i 0)
    else ilog2Loop i v r

def ilog2 (v : BitVec 32) : BitVec 32 := ilog2Loop b.length v 0

end Ndebug

/-- Each shift takes the logarithm down by one, and the counter does not wrap. -/
theorem Debug.ilog2Loop_toNat (x r : BitVec 32) (hr : r.toNat + x.toNat.log2 < 2 ^ 32) :
    (ilog2Loop x r).toNat = r.toNat + x.toNat.log2 := by
  induction x, r using Debug.ilog2Loop.induct with
  | case1 x r h =>
    rw [ilog2Loop, dif_pos h]
    have hhalf : x.toNat / 2 = 0 := by
      have hzero := congrArg BitVec.toNat h
      simpa [Nat.shiftRight_eq_div_pow] using hzero
    rw [Nat.log2_def, if_neg (by omega), Nat.add_zero]
  | case2 x r h ih =>
    rw [ilog2Loop, dif_neg h]
    have hshift : (x >>> 1).toNat = x.toNat / 2 := by simp [Nat.shiftRight_eq_div_pow]
    have htwo : 2 ≤ x.toNat := by
      by_contra hlt
      apply h
      apply BitVec.eq_of_toNat_eq
      rw [hshift]
      show x.toNat / 2 = 0
      omega
    have hlog : x.toNat.log2 = (x.toNat / 2).log2 + 1 := by
      rw [Nat.log2_def, if_pos htwo]
    have hcount : (r + 1).toNat = r.toNat + 1 := by
      rw [BitVec.toNat_add]
      apply Nat.mod_eq_of_lt
      show r.toNat + 1 < 2 ^ 32
      omega
    rw [ih (by rw [hcount, hshift]; omega), hcount, hshift]
    omega

/-- The masks and the shifts of the two tables. -/
theorem Ndebug.tables : ∀ i < 5,
    (b.getD i 0).toNat = 2 ^ 2 ^ (i + 1) - 2 ^ 2 ^ i ∧ (S.getD i 0).toNat = 2 ^ i := by
  decide

theorem Ndebug.ilog2Loop_toNat {x i : Nat} {v r : BitVec 32} (hi : i ≤ 5)
    (h : HighestBitSearch i x v.toNat r.toNat) : (ilog2Loop i v r).toNat = x.log2 := by
  induction i generalizing v r with
  | zero => exact h.finish
  | succ i ih =>
    obtain ⟨hmask, hplaces⟩ := tables i (by omega)
    have htest : v &&& b.getD i 0 = 0 ↔ v.toNat < 2 ^ 2 ^ i := by
      have hle : 2 ^ i ≤ 2 ^ (i + 1) := Nat.pow_le_pow_right (by omega) (by omega)
      rw [← HighestBitSearch.and_mask_eq_zero hle h.small, ← hmask, ← BitVec.toNat_and]
      exact BitVec.toNat_inj.symm
    rw [ilog2Loop]
    by_cases hv : v.toNat < 2 ^ 2 ^ i
    · rw [if_neg (not_not.mpr (htest.mpr hv))]
      exact ih (by omega) (h.skip hv)
    · rw [if_pos (mt htest.mp hv)]
      apply ih (by omega)
      rw [BitVec.toNat_or, BitVec.ushiftRight_eq', BitVec.toNat_ushiftRight, hplaces]
      exact h.shift (Nat.le_of_not_lt hv)

/-- Both builds of `ilog2` return the integer logarithm. -/
theorem ilog2_agree (x : BitVec 32) : Debug.ilog2 x = Ndebug.ilog2 x ∧
    (x ≠ 0 → 2 ^ (Debug.ilog2 x).toNat ≤ x.toNat ∧ x.toNat < 2 ^ ((Debug.ilog2 x).toNat + 1)) ∧
    (x = 0 → Debug.ilog2 x = 0) := by
  have hle : x.toNat.log2 ≤ x.toNat := Nat.log2_le_self x.toNat
  have hdebug : (Debug.ilog2 x).toNat = x.toNat.log2 := by
    rw [Debug.ilog2, Debug.ilog2Loop_toNat x 0 (by simpa using hle.trans_lt x.isLt)]
    simp
  have hndebug : (Ndebug.ilog2 x).toNat = x.toNat.log2 :=
    Ndebug.ilog2Loop_toNat (Nat.le_refl 5) (HighestBitSearch.start x.isLt)
  refine ⟨BitVec.eq_of_toNat_eq (hdebug.trans hndebug.symm), fun hx => ?_, fun hx => ?_⟩
  · have hne : x.toNat ≠ 0 := fun h => hx (BitVec.eq_of_toNat_eq h)
    rw [hdebug]
    exact ⟨Nat.log2_self_le hne, Nat.lt_log2_self⟩
  · apply BitVec.eq_of_toNat_eq
    rw [hdebug, hx]
    rfl

end RtosKernel
