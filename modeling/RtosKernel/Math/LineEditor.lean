import Mathlib.Algebra.Group.Nat.Even
import Mathlib.Data.List.Basic

/-- What a key does to the line being typed. -/
inductive LineKey (α : Type) where
  | char (a : α)
  | erase
  | stop
  | newline

/-- The line an editor has stopped with, and the keys that it did not get to. -/
structure TypedLine (α κ : Type) where
  line : List α
  newline : Bool
  rest : List κ

namespace LineEditor

variable {α κ : Type} {key : κ → LineKey α} {limit : Nat} {line : List α} {k : κ} {keys : List κ}
  {a : α}

/-- Type `keys` after `line`; a line of `limit` characters is complete. -/
def run (key : κ → LineKey α) (limit : Nat) (line : List α) : List κ → Option (TypedLine α κ)
  | [] => if limit ≤ line.length then some ⟨line, false, []⟩ else none
  | k :: keys =>
    if limit ≤ line.length then some ⟨line, false, k :: keys⟩
    else match key k with
      | .char a => run key limit (line ++ [a]) keys
      | .erase => run key limit line.dropLast keys
      | .stop => some ⟨line, false, keys⟩
      | .newline => some ⟨line, true, keys⟩

/-- How often `keys` erase on an empty line, when they are typed after `n` characters. -/
def emptyErases (key : κ → LineKey α) : Nat → List κ → Nat
  | _, [] => 0
  | n, k :: keys =>
    match key k with
    | .char _ => emptyErases key (n + 1) keys
    | .erase => emptyErases key (n - 1) keys + if n = 0 then 1 else 0
    | .stop => 0
    | .newline => 0

theorem run_complete (h : limit ≤ line.length) :
    run key limit line keys = some ⟨line, false, keys⟩ := by
  cases keys with
  | nil => rw [run, if_pos h]
  | cons k keys => rw [run, if_pos h]

theorem run_nil (h : line.length < limit) : run key limit line [] = none := by
  rw [run, if_neg (by omega)]

theorem run_char (h : line.length < limit) (hk : key k = .char a) :
    run key limit line (k :: keys) = run key limit (line ++ [a]) keys := by
  rw [run, if_neg (by omega), hk]

theorem run_erase (h : line.length < limit) (hk : key k = .erase) :
    run key limit line (k :: keys) = run key limit line.dropLast keys := by
  rw [run, if_neg (by omega), hk]

theorem run_stop (h : line.length < limit) (hk : key k = .stop) :
    run key limit line (k :: keys) = some ⟨line, false, keys⟩ := by
  rw [run, if_neg (by omega), hk]

theorem run_newline (h : line.length < limit) (hk : key k = .newline) :
    run key limit line (k :: keys) = some ⟨line, true, keys⟩ := by
  rw [run, if_neg (by omega), hk]

theorem emptyErases_stop {n : Nat} (hk : key k = .stop) : emptyErases key n (k :: keys) = 0 := by
  rw [emptyErases, hk]

theorem emptyErases_newline {n : Nat} (hk : key k = .newline) :
    emptyErases key n (k :: keys) = 0 := by
  rw [emptyErases, hk]

theorem emptyErases_char {n : Nat} (hk : key k = .char a) :
    emptyErases key n (k :: keys) = emptyErases key (n + 1) keys := by
  rw [emptyErases, hk]

/-- Erasing a character is not an erase on an empty line. -/
theorem emptyErases_erase {n : Nat} (hk : key k = .erase) :
    emptyErases key (n + 1) (k :: keys) = emptyErases key n keys := by
  rw [emptyErases, hk]
  rfl

theorem emptyErases_empty (hk : key k = .erase) :
    emptyErases key 0 (k :: keys) = emptyErases key 0 keys + 1 := by
  rw [emptyErases, hk]
  rfl

end LineEditor
