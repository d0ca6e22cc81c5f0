import Mathlib.Data.List.Nodup
import Mathlib.Logic.Function.Basic
import Mathlib.Tactic.SplitIfs

/-- Items spread over places. Each item is in one place, and each place has its items in line. -/
structure Placement (α ι : Type) where
  place : α → ι
  line : ι → List α
  mem_line : ∀ i a, a ∈ line i ↔ place a = i
  nodup : ∀ i, (line i).Nodup

namespace Placement

variable {α ι : Type} [DecidableEq ι] {P : Placement α ι} {a b : α} {i j : ι}

/-- Put every item of a finite type where `f` says. -/
def ofPlace (f : α → ι) (items : List α) (hall : ∀ a, a ∈ items) (hnd : items.Nodup) :
    Placement α ι where
  place := f
  line i := items.filter fun a => f a = i
  mem_line := by simp [hall]
  nodup _ := hnd.filter _

/-- Send the whole line at `i` to `j`. -/
def moveLine (P : Placement α ι) (i j : ι) (hij : i ≠ j) : Placement α ι where
  place a := if P.place a = i then j else P.place a
  line k := if k = i then [] else if k = j then P.line j ++ P.line i else P.line k
  mem_line := by
    intro k a
    have hmem := P.mem_line
    by_cases hk : k = i
    · subst hk
      by_cases ha : P.place a = k <;> simp [ha, Ne.symm hij]
    · by_cases hkj : k = j
      · subst hkj
        by_cases ha : P.place a = i <;> simp [hk, ha, hmem]
      · by_cases ha : P.place a = i
        · simp [hk, hkj, ha, hmem, Ne.symm hk, Ne.symm hkj]
        · simp [hk, hkj, ha, hmem]
  nodup := by
    intro k
    split_ifs with hk hkj
    · exact List.nodup_nil
    · refine List.Nodup.append (P.nodup j) (P.nodup i) ?_
      intro a hj hi
      exact hij (((P.mem_line i a).mp hi).symm.trans ((P.mem_line j a).mp hj))
    · exact P.nodup k

/-- Put every item where `f` says, with the lines at the places in `keep` as they were. -/
def resettle (P : Placement α ι) (f : α → ι) (keep : ι → Prop) [DecidablePred keep]
    (items : List α) (hall : ∀ a, a ∈ items) (hnd : items.Nodup)
    (hkeep : ∀ i a, keep i → (f a = i ↔ P.place a = i)) : Placement α ι where
  place := f
  line i := if keep i then P.line i else items.filter fun a => f a = i
  mem_line := by
    intro i a
    split_ifs with hi
    · rw [P.mem_line, hkeep i a hi]
    · simp [hall]
  nodup := by
    intro i
    split_ifs
    · exact P.nodup i
    · exact hnd.filter _

theorem place_moveLine (hij : i ≠ j) :
    (P.moveLine i j hij).place a = if P.place a = i then j else P.place a := rfl

theorem line_moveLine_self (hij : i ≠ j) : (P.moveLine i j hij).line i = [] := if_pos rfl

theorem line_moveLine_of_ne {k : ι} (hij : i ≠ j) (hi : k ≠ i) (hj : k ≠ j) :
    (P.moveLine i j hij).line k = P.line k := by
  change (if k = i then _ else if k = j then _ else _) = _
  rw [if_neg hi, if_neg hj]

variable [DecidableEq α]

/-- Send one item to the end of the line at `j`. -/
def move (P : Placement α ι) (a : α) (j : ι) : Placement α ι where
  place := Function.update P.place a j
  line i := if i = j then (P.line i).filter (fun b => b ≠ a) ++ [a]
    else (P.line i).filter (fun b => b ≠ a)
  mem_line := by
    intro i b
    have hmem := P.mem_line i b
    by_cases hb : b = a
    · subst hb
      rw [Function.update_self]
      split_ifs with hi
      · simp [hi]
      · simp [Ne.symm hi]
    · rw [Function.update_of_ne hb]
      split_ifs <;> simp [hb, hmem]
  nodup := by
    intro i
    split_ifs
    · exact List.Nodup.append ((P.nodup i).filter _) (List.nodup_singleton a) (by simp)
    · exact (P.nodup i).filter _

@[simp] theorem place_move_self : (P.move a j).place a = j := Function.update_self ..

theorem place_move_of_ne (h : b ≠ a) : (P.move a j).place b = P.place b :=
  Function.update_of_ne h ..

theorem place_move : (P.move a j).place b = if b = a then j else P.place b := by
  split_ifs with h
  · rw [h, place_move_self]
  · exact place_move_of_ne h

omit [DecidableEq ι] in
private theorem filter_line (h : P.place a ≠ i) :
    (P.line i).filter (fun b => b ≠ a) = P.line i := by
  apply List.filter_eq_self.mpr
  intro b hb
  have hne : b ≠ a := by
    rintro rfl
    exact h ((P.mem_line i b).mp hb)
  simpa using hne

/-- A move between two other places leaves a line alone. -/
theorem line_move_of_ne (hi : P.place a ≠ i) (hj : i ≠ j) : (P.move a j).line i = P.line i := by
  change (if i = j then _ else _) = _
  rw [if_neg hj, filter_line hi]

theorem line_move_to (h : P.place a ≠ j) : (P.move a j).line j = P.line j ++ [a] := by
  change (if j = j then _ else _) = _
  rw [if_pos rfl, filter_line h]

/-- The first in line leaves the others in order. -/
theorem line_move_head {l : List α} (h : P.line i = a :: l) (hj : i ≠ j) :
    (P.move a j).line i = l := by
  have hnd := P.nodup i
  rw [h] at hnd
  change (if i = j then _ else _) = _
  rw [if_neg hj, h, List.filter_cons_of_neg (by simp)]
  apply List.filter_eq_self.mpr
  intro b hb
  have hne : b ≠ a := by
    rintro rfl
    exact (List.nodup_cons.mp hnd).1 hb
  simpa using hne

end Placement
