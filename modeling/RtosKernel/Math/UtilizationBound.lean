import Mathlib.Analysis.SpecialFunctions.Pow.Real

/-- The bound on the utilization of `n` tasks under fixed priorities by rate. -/
noncomputable def utilizationBound (n : Nat) : ℝ := n * ((2 : ℝ) ^ ((1 : ℝ) / n) - 1)

/-- The bound without its root. -/
theorem le_utilizationBound_iff {n : Nat} {u : ℝ} (hn : 0 < n) (hu : 0 ≤ u) :
    u ≤ utilizationBound n ↔ (1 + u / n) ^ n ≤ 2 := by
  have hn' : (0 : ℝ) < n := by exact_mod_cast hn
  have hbase : 0 ≤ 1 + u / n := by positivity
  have hroot : ((2 : ℝ) ^ ((1 : ℝ) / n)) ^ n = 2 := by
    rw [one_div]
    exact Real.rpow_inv_natCast_pow (by norm_num) (by omega)
  calc u ≤ utilizationBound n
      ↔ u / n ≤ (2 : ℝ) ^ ((1 : ℝ) / n) - 1 := by
        unfold utilizationBound
        rw [div_le_iff₀' hn']
    _ ↔ 1 + u / n ≤ (2 : ℝ) ^ ((1 : ℝ) / n) := by
        constructor <;> intro h <;> linarith
    _ ↔ (1 + u / n) ^ n ≤ ((2 : ℝ) ^ ((1 : ℝ) / n)) ^ n :=
        (pow_le_pow_iff_left₀ hbase (by positivity) (by omega)).symm
    _ ↔ (1 + u / n) ^ n ≤ 2 := by rw [hroot]

/-- A set within the bound does not load the processor more than fully. -/
theorem le_one_of_pow_le_two {n : Nat} {u : ℚ} (hn : 0 < n) (hu : 0 ≤ u)
    (h : (1 + u / n) ^ n ≤ 2) : u ≤ 1 := by
  have hn' : (0 : ℚ) < n := by exact_mod_cast hn
  have hbernoulli : 1 + (n : ℚ) * (u / n) ≤ (1 + u / n) ^ n :=
    one_add_mul_le_pow (by have : 0 ≤ u / n := by positivity
                           linarith) n
  have hcancel : (n : ℚ) * (u / n) = u := mul_div_cancel₀ u (ne_of_gt hn')
  rw [hcancel] at hbernoulli
  linarith
