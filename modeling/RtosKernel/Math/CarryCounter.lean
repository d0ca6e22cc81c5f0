import Mathlib.Data.Nat.ModEq
import Mathlib.Tactic.SplitIfs

/-- A total kept in two registers: whole units of `p`, counted modulo `m`, and the rest. -/
@[ext] structure CarryCounter (p m : Nat) where
  units : Nat
  rest : Nat
  rest_lt : rest < p

namespace CarryCounter

variable {p m : Nat} [NeZero p]

/-- The registers when the total is `t`. -/
def ofTotal (p m t : Nat) [NeZero p] : CarryCounter p m where
  units := t / p % m
  rest := t % p
  rest_lt := Nat.mod_lt t (Nat.pos_of_neZero p)

/-- Add `o`, unit by unit and rest by rest; the rests carry at most once. -/
def add (c : CarryCounter p m) (o : Nat) : CarryCounter p m :=
  if h : c.rest + o % p < p then ⟨(c.units + o / p) % m, c.rest + o % p, h⟩
  else ⟨(c.units + o / p + 1) % m, c.rest + o % p - p, by
    have hrest := c.rest_lt
    have hmod := Nat.mod_lt o (Nat.pos_of_neZero p)
    omega⟩

/-- The two registers lose nothing of what is added. -/
theorem add_ofTotal (t o : Nat) : (ofTotal p m t).add o = ofTotal p m (t + o) := by
  unfold add
  split_ifs with h
  · have hlt : t % p + o % p < p := h
    apply CarryCounter.ext
    · show (t / p % m + o / p) % m = (t + o) / p % m
      rw [Nat.add_div_eq_of_add_mod_lt hlt, Nat.mod_add_mod]
    · show t % p + o % p = (t + o) % p
      rw [Nat.add_mod_of_add_mod_lt hlt]
  · have hle : p ≤ t % p + o % p := Nat.le_of_not_lt h
    apply CarryCounter.ext
    · show (t / p % m + o / p + 1) % m = (t + o) / p % m
      rw [Nat.add_div_eq_of_le_mod_add_mod hle (Nat.pos_of_neZero p), Nat.add_assoc,
        Nat.mod_add_mod, Nat.add_assoc]
    · show t % p + o % p - p = (t + o) % p
      have hcarry := Nat.add_mod_add_of_le_add_mod hle
      omega

end CarryCounter
