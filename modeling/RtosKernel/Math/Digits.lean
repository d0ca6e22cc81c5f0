import Mathlib.Data.Nat.Digits.Lemmas

/-! Positional numbers, the most significant digit first. -/

namespace Digits

variable {b u d k : Nat} {ds : List Nat}

/-- The value of the digits `ds` in base `b`, read from the left. -/
def value (b : Nat) (ds : List Nat) : Nat := ds.foldl (fun v d => v * b + d) 0

/-- The digits of `u`, one for zero. -/
def digits (b u : Nat) : List Nat := if u = 0 then [0] else (Nat.digits b u).reverse

theorem value_foldl (v : Nat) :
    ds.foldl (fun v d => v * b + d) v = v * b ^ ds.length + value b ds := by
  induction ds generalizing v with
  | nil => simp [value]
  | cons d ds ih =>
    have hd : value b (d :: ds) = d * b ^ ds.length + value b ds := by
      show ds.foldl _ (0 * b + d) = _
      rw [ih, Nat.zero_mul, Nat.zero_add]
    rw [List.foldl_cons, ih, hd, List.length_cons, Nat.pow_succ']
    ring

theorem value_cons : value b (d :: ds) = d * b ^ ds.length + value b ds := by
  show ds.foldl _ (0 * b + d) = _
  rw [value_foldl, Nat.zero_mul, Nat.zero_add]

theorem value_eq_ofDigits : value b ds = Nat.ofDigits b ds.reverse := by
  induction ds with
  | nil => rfl
  | cons d ds ih =>
    rw [value_cons, ih, List.reverse_cons, Nat.ofDigits_append, List.length_reverse,
      Nat.ofDigits_singleton]
    ring

/-- Reading the digits of a number gives the number back. -/
theorem value_digits (b u : Nat) : value b (digits b u) = u := by
  unfold digits
  split_ifs with hu
  · rw [hu, value_cons]
    exact Nat.zero_mul _
  · rw [value_eq_ofDigits, List.reverse_reverse, Nat.ofDigits_digits]

theorem digits_ne_nil (b u : Nat) : digits b u ≠ [] := by
  unfold digits
  split_ifs with hu
  · exact List.cons_ne_nil _ _
  · intro h
    exact hu (Nat.digits_eq_nil_iff_eq_zero.mp (List.reverse_eq_nil_iff.mp h))

theorem digits_lt (hb : 2 ≤ b) (hd : d ∈ digits b u) : d < b := by
  unfold digits at hd
  split_ifs at hd with hu
  · rw [List.mem_singleton.mp hd]
    omega
  · exact Nat.digits_lt_base hb (List.mem_reverse.mp hd)

theorem digits_length (hb : 2 ≤ b) (hk : 0 < k) (hu : u < b ^ k) : (digits b u).length ≤ k := by
  unfold digits
  split_ifs with hz
  · exact hk
  · rw [List.length_reverse]
    exact (Nat.digits_length_le_iff hb u).mpr hu

/-- The last digit is the remainder, the others are the digits of the quotient. -/
theorem digits_succ (hb : 2 ≤ b) (hu : b ≤ u) : digits b u = digits b (u / b) ++ [u % b] := by
  have hne : u ≠ 0 := by omega
  have hq : u / b ≠ 0 := Nat.div_ne_zero_iff.mpr ⟨by omega, hu⟩
  unfold digits
  rw [if_neg hne, if_neg hq, Nat.digits_def' hb (Nat.pos_of_ne_zero hne), List.reverse_cons]

theorem digits_of_lt (hu : u < b) : digits b u = [u] := by
  unfold digits
  split_ifs with hz
  · rw [hz]
  · rw [Nat.digits_of_lt b u hz hu]
    rfl

end Digits
