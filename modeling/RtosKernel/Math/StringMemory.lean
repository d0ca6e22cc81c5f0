import Mathlib.Data.List.Basic
import Mathlib.Logic.Function.Basic
import Mathlib.Algebra.Group.Nat.Defs

/-! Strings that end in a zero, in a memory of `2 ^ w` cells that wraps around. -/

namespace StringMemory

variable {w v : Nat} {mem mem' : BitVec w → BitVec v} {s a : BitVec w} {c : BitVec v}
  {cs ds : List (BitVec v)} {i n : Nat}

/-- The cells from `s` on hold `cs`. -/
def CellsAt (mem : BitVec w → BitVec v) : BitVec w → List (BitVec v) → Prop
  | _, [] => True
  | s, c :: cs => mem s = c ∧ CellsAt mem (s + 1) cs

/-- The string `cs` lies at `s`: characters other than zero, and a zero behind them. -/
def StringAt (mem : BitVec w → BitVec v) : BitVec w → List (BitVec v) → Prop
  | s, [] => mem s = 0
  | s, c :: cs => mem s = c ∧ c ≠ 0 ∧ StringAt mem (s + 1) cs

/-- Memory with `cs` written to the cells from `s` on, in order. -/
def put (mem : BitVec w → BitVec v) : BitVec w → List (BitVec v) → BitVec w → BitVec v
  | _, [] => mem
  | s, c :: cs => put (Function.update mem s c) (s + 1) cs

/-- `a` is one of the `n` cells from `s` on. -/
def Within (s : BitVec w) (n : Nat) (a : BitVec w) : Prop := (a - s).toNat < n

instance : Decidable (Within s n a) := inferInstanceAs (Decidable (_ < _))

theorem add_ofNat_succ (s : BitVec w) (i : Nat) :
    s + 1 + BitVec.ofNat w i = s + BitVec.ofNat w (i + 1) := by
  rw [BitVec.ofNat_add, BitVec.add_assoc, BitVec.add_comm (1 : BitVec w)]
  rfl

theorem add_ofNat_add (s : BitVec w) (i j : Nat) :
    s + BitVec.ofNat w i + BitVec.ofNat w j = s + BitVec.ofNat w (i + j) := by
  rw [BitVec.ofNat_add, BitVec.add_assoc]

theorem add_ofNat_one (s : BitVec w) (i : Nat) :
    s + BitVec.ofNat w i + 1 = s + BitVec.ofNat w (i + 1) :=
  add_ofNat_add s i 1

theorem add_ofNat_zero (s : BitVec w) : s + BitVec.ofNat w 0 = s := BitVec.add_zero s

/-- The distance from a base to a cell `i` places on. -/
theorem distance_toNat (hi : i < 2 ^ w) : (s + BitVec.ofNat w i - s).toNat = i := by
  rw [BitVec.add_comm, BitVec.add_sub_cancel, BitVec.toNat_ofNat, Nat.mod_eq_of_lt hi]

/-- A cell is its distance past the base. -/
theorem add_distance (s a : BitVec w) : s + BitVec.ofNat w (a - s).toNat = a := by
  rw [BitVec.ofNat_toNat, BitVec.setWidth_eq, BitVec.add_comm, BitVec.sub_add_cancel]

theorem within_add (hi : i < n) (hn : n ≤ 2 ^ w) : Within s n (s + BitVec.ofNat w i) := by
  unfold Within
  rw [distance_toNat (by omega)]
  exact hi

/-- What is within `n` cells is one of them. -/
theorem Within.index (h : Within s n a) : ∃ i < n, a = s + BitVec.ofNat w i :=
  ⟨(a - s).toNat, h, (add_distance s a).symm⟩

/-- Distances from the next cell are one less, except that of the base itself. -/
theorem distance_succ (h : (a - s).toNat ≠ 0) :
    (a - s).toNat = (a - (s + 1)).toNat + 1 := by
  rcases Nat.eq_zero_or_pos w with rfl | hw
  · exact absurd (Nat.lt_one_iff.mp (a - s).isLt) h
  · have hone : (1 : BitVec w).toNat = 1 := BitVec.toNat_one hw
    have hlt := (a - s).isLt
    have hsub : a - (s + 1) = a - s - 1 := by
      rw [BitVec.sub_eq_add_neg, BitVec.neg_add, BitVec.sub_eq_add_neg, BitVec.sub_eq_add_neg,
        ← BitVec.add_assoc, BitVec.sub_eq_add_neg]
    have hle : (1 : BitVec w).toNat ≤ (a - s).toNat := by omega
    rw [hsub, BitVec.toNat_sub_of_le hle]
    omega

section Cells

theorem cellsAt_append : CellsAt mem s (cs ++ ds) ↔
    CellsAt mem s cs ∧ CellsAt mem (s + BitVec.ofNat w cs.length) ds := by
  induction cs generalizing s with
  | nil => simp only [List.nil_append, CellsAt, true_and, List.length_nil, add_ofNat_zero]
  | cons c cs ih =>
    rw [List.cons_append, CellsAt, CellsAt, ih, and_assoc, List.length_cons, add_ofNat_succ]

theorem cellsAt_iff : CellsAt mem s cs ↔
    ∀ i (hi : i < cs.length), mem (s + BitVec.ofNat w i) = cs[i] := by
  induction cs generalizing s with
  | nil => exact ⟨fun _ i hi => absurd hi (Nat.not_lt_zero i), fun _ => trivial⟩
  | cons c cs ih =>
    rw [CellsAt, ih]
    constructor
    · rintro ⟨hc, hcs⟩ i hi
      cases i with
      | zero =>
        rw [add_ofNat_zero]
        exact hc
      | succ i =>
        rw [← add_ofNat_succ]
        exact hcs i (Nat.lt_of_succ_lt_succ hi)
    · intro h
      have h0 := h 0 (Nat.zero_lt_succ _)
      rw [add_ofNat_zero] at h0
      refine ⟨h0, fun i hi => ?_⟩
      rw [add_ofNat_succ]
      exact h (i + 1) (Nat.succ_lt_succ hi)

theorem CellsAt.congr (h : CellsAt mem s cs)
    (hmem : ∀ k < cs.length, mem' (s + BitVec.ofNat w k) = mem (s + BitVec.ofNat w k)) :
    CellsAt mem' s cs :=
  cellsAt_iff.mpr fun i hi => (hmem i hi).trans (cellsAt_iff.mp h i hi)

/-- A string is its cells, none of them zero, and the zero behind them. -/
theorem stringAt_iff : StringAt mem s cs ↔
    CellsAt mem s cs ∧ (∀ c ∈ cs, c ≠ 0) ∧ mem (s + BitVec.ofNat w cs.length) = 0 := by
  induction cs generalizing s with
  | nil => simp only [StringAt, CellsAt, true_and, List.not_mem_nil, false_implies, implies_true,
      List.length_nil, add_ofNat_zero]
  | cons c cs ih =>
    rw [StringAt, CellsAt, ih, List.forall_mem_cons, List.length_cons, add_ofNat_succ]
    tauto

/-- The cells of a string with its zero. -/
theorem StringAt.cells (h : StringAt mem s cs) : CellsAt mem s (cs ++ [0]) := by
  obtain ⟨hcells, -, hzero⟩ := stringAt_iff.mp h
  exact cellsAt_append.mpr ⟨hcells, hzero, trivial⟩

theorem stringAt_append : StringAt mem s (cs ++ ds) ↔
    CellsAt mem s cs ∧ (∀ c ∈ cs, c ≠ 0) ∧ StringAt mem (s + BitVec.ofNat w cs.length) ds := by
  rw [stringAt_iff, stringAt_iff, cellsAt_append, List.forall_mem_append, List.length_append,
    add_ofNat_add]
  tauto

/-- The rest of a string is a string. -/
theorem StringAt.drop (h : StringAt mem s cs) (hi : i ≤ cs.length) :
    StringAt mem (s + BitVec.ofNat w i) (cs.drop i) := by
  have hsplit : cs.take i ++ cs.drop i = cs := List.take_append_drop i cs
  rw [← hsplit] at h
  have hrest := (stringAt_append.mp h).2.2
  rw [List.length_take, Nat.min_eq_left hi] at hrest
  exact hrest

theorem StringAt.congr (h : StringAt mem s cs)
    (hmem : ∀ k ≤ cs.length, mem' (s + BitVec.ofNat w k) = mem (s + BitVec.ofNat w k)) :
    StringAt mem' s cs := by
  obtain ⟨hcells, hne, hzero⟩ := stringAt_iff.mp h
  refine stringAt_iff.mpr ⟨hcells.congr fun k hk => hmem k (Nat.le_of_lt hk), hne, ?_⟩
  exact (hmem cs.length (Nat.le_refl _)).trans hzero

theorem StringAt.char (h : StringAt mem s cs) (hi : i < cs.length) :
    mem (s + BitVec.ofNat w i) = cs[i] :=
  cellsAt_iff.mp (stringAt_iff.mp h).1 i hi

theorem StringAt.zero (h : StringAt mem s cs) : mem (s + BitVec.ofNat w cs.length) = 0 :=
  (stringAt_iff.mp h).2.2

/-- No character of a string is zero. -/
theorem StringAt.ne_zero (h : StringAt mem s cs) (hi : i < cs.length) :
    mem (s + BitVec.ofNat w i) ≠ 0 := by
  rw [h.char hi]
  exact (stringAt_iff.mp h).2.1 _ (List.getElem_mem hi)

/-- The zero is found before the memory has come round. -/
theorem StringAt.length_lt (h : StringAt mem s cs) : cs.length < 2 ^ w := by
  by_contra hlen
  -- the terminator is also the character that many places into the string
  have hpos : 0 < 2 ^ w := Nat.two_pow_pos w
  have hmod : cs.length % 2 ^ w < cs.length :=
    Nat.lt_of_lt_of_le (Nat.mod_lt _ hpos) (by omega)
  have hsame : BitVec.ofNat w (cs.length % 2 ^ w) = BitVec.ofNat w cs.length := by
    apply BitVec.eq_of_toNat_eq
    rw [BitVec.toNat_ofNat, BitVec.toNat_ofNat, Nat.mod_mod]
  have hne := h.ne_zero hmod
  rw [hsame] at hne
  exact hne h.zero

/-- A string is determined by its address. -/
theorem StringAt.unique (h : StringAt mem s cs) (h' : StringAt mem s ds) : cs = ds := by
  induction cs generalizing s ds with
  | nil =>
    cases ds with
    | nil => rfl
    | cons d ds =>
      have h0 : mem s = 0 := h
      rw [h'.1] at h0
      exact absurd h0 h'.2.1
  | cons c cs ih =>
    cases ds with
    | nil =>
      have h0 : mem s = 0 := h'
      rw [h.1] at h0
      exact absurd h0 h.2.1
    | cons d ds =>
      have hhead : c = d := h.1.symm.trans h'.1
      rw [hhead, ih h.2.2 h'.2.2]

end Cells

section Put

theorem put_append : put mem s (cs ++ ds) =
    put (put mem s cs) (s + BitVec.ofNat w cs.length) ds := by
  induction cs generalizing mem s with
  | nil =>
    rw [List.nil_append, List.length_nil, add_ofNat_zero]
    rfl
  | cons c cs ih =>
    rw [List.cons_append, put, put, ih, List.length_cons, add_ofNat_succ]

/-- One more cell of a list that is being put. -/
theorem put_take_succ (hi : i < cs.length) :
    Function.update (put mem s (cs.take i)) (s + BitVec.ofNat w i) cs[i] =
      put mem s (cs.take (i + 1)) := by
  have hlen : (cs.take i).length = i := by
    rw [List.length_take]
    omega
  rw [List.take_succ_eq_append_getElem hi, put_append, hlen]
  rfl

/-- A write in one place that is not among the cells can be made before or after. -/
theorem put_outside (h : ¬ Within s cs.length a) : put mem s cs a = mem a := by
  induction cs generalizing mem s with
  | nil => rfl
  | cons c cs ih =>
    unfold Within at h ih
    rw [List.length_cons] at h
    have hne : (a - s).toNat ≠ 0 := by omega
    have hdist := distance_succ hne
    have hself : a ≠ s := by
      rintro rfl
      rw [BitVec.sub_self] at hne
      exact hne rfl
    rw [put, ih (by omega)]
    exact Function.update_of_ne hself ..

/-- What has been put is there, when it does not run into itself. -/
theorem put_index (hlen : cs.length ≤ 2 ^ w) (hi : i < cs.length) :
    put mem s cs (s + BitVec.ofNat w i) = cs[i] := by
  induction cs generalizing mem s i with
  | nil => cases hi
  | cons c cs ih =>
    rw [List.length_cons] at hlen hi
    cases i with
    | zero =>
      have hfar : ¬ Within (s + 1) cs.length s := by
        intro hin
        obtain ⟨k, hk, heq⟩ := hin.index
        rw [add_ofNat_succ] at heq
        have hd := distance_toNat (s := s) (i := k + 1) (by omega)
        rw [← heq, BitVec.sub_self] at hd
        exact absurd hd (by simp)
      rw [add_ofNat_zero, put, put_outside hfar]
      exact Function.update_self ..
    | succ i =>
      rw [← add_ofNat_succ, put]
      exact ih (by omega) (by omega)

theorem put_apply (hlen : cs.length ≤ 2 ^ w) (h : (a - s).toNat < cs.length) :
    put mem s cs a = cs[(a - s).toNat] := by
  have hput := @put_index _ _ mem s cs _ hlen h
  rw [add_distance] at hput
  exact hput

theorem put_cellsAt (hlen : cs.length ≤ 2 ^ w) : CellsAt (put mem s cs) s cs :=
  cellsAt_iff.mpr fun _ hi => put_index hlen hi

/-- A string that has been put with its zero lies there. -/
theorem put_stringAt (hlen : cs.length < 2 ^ w) (hne : ∀ c ∈ cs, c ≠ 0) :
    StringAt (put mem s (cs ++ [0])) s cs := by
  have hcells : CellsAt (put mem s (cs ++ [0])) s (cs ++ [0]) := by
    apply put_cellsAt
    rw [List.length_append, List.length_singleton]
    exact hlen
  obtain ⟨hcs, hzero, -⟩ := cellsAt_append.mp hcells
  exact stringAt_iff.mpr ⟨hcs, hne, hzero⟩

end Put

end StringMemory
