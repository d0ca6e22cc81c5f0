import Mathlib.Data.Nat.Init

/-- How one turn of a loop ends. -/
inductive Round (σ ρ : Type) where
  | again (s : σ)
  | leave (r : ρ)

namespace Rounds

variable {σ ρ : Type} {turn : σ → Round σ ρ} {s s' : σ} {r : ρ} {n m : Nat}

/-- A loop, given up after `fuel` turns. -/
def loop (turn : σ → Round σ ρ) : Nat → σ → Option ρ
  | 0, _ => none
  | fuel+1, s => match turn s with
    | .again s => loop turn fuel s
    | .leave r => some r

theorem loop_again (h : turn s = .again s') : loop turn (n + 1) s = loop turn n s' := by
  rw [loop, h]

theorem loop_leave (h : turn s = .leave r) : loop turn (n + 1) s = some r := by
  rw [loop, h]

/-- A loop that has ended ends the same way with more turns to spend. -/
theorem loop_mono (h : loop turn n s = some r) (hle : n ≤ m) : loop turn m s = some r := by
  induction n generalizing s m with
  | zero => cases h
  | succ n ih =>
    obtain ⟨m, rfl⟩ : ∃ k, m = k + 1 := ⟨m - 1, by omega⟩
    cases hturn : turn s with
    | leave r' =>
      rw [loop_leave hturn] at h ⊢
      exact h
    | again s' =>
      rw [loop_again hturn] at h ⊢
      exact ih h (by omega)

/-- A loop whose states are known turn by turn. -/
theorem loop_path {f : Nat → σ} (hagain : ∀ k < n, turn (f k) = .again (f (k + 1)))
    (hleave : turn (f n) = .leave r) : loop turn (n + 1) (f 0) = some r := by
  have key : ∀ k ≤ n, loop turn (k + 1) (f (n - k)) = some r := by
    intro k
    induction k with
    | zero =>
      intro _
      exact loop_leave hleave
    | succ k ih =>
      intro hk
      have hnext := hagain (n - (k + 1)) (by omega)
      have hidx : n - (k + 1) + 1 = n - k := by omega
      rw [hidx] at hnext
      rw [loop_again hnext]
      exact ih (by omega)
  have h0 := key n (Nat.le_refl n)
  rw [Nat.sub_self] at h0
  exact h0

/-- A loop that never leaves a set of states does not end. -/
theorem loop_none {P : σ → Prop} (h : P s) (hturn : ∀ a, P a → ∃ b, turn a = .again b ∧ P b) :
    loop turn n s = none := by
  induction n generalizing s with
  | zero => rfl
  | succ n ih =>
    obtain ⟨b, hb, hP⟩ := hturn s h
    rw [loop_again hb]
    exact ih hP

end Rounds
