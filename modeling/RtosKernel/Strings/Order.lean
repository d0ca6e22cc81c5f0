import Mathlib.Tactic.SplitIfs
import RtosKernel.Strings.Scan

namespace RtosKernel.Libc

open Rounds StringMemory

variable {mem : Memory} {s t n r : BitVec 32} {c d : BitVec 8} {cs ds : List (BitVec 8)}

/-- The sign of `r` as an `int` compares `cs` with `ds` by their first difference, characters
taken as unsigned. -/
structure Orders (r : BitVec 32) (cs ds : List (BitVec 8)) : Prop where
  zero : r = 0 ↔ cs = ds
  neg : r.toInt < 0 ↔ cs < ds
  pos : 0 < r.toInt ↔ ds < cs

theorem charAt_eq (h : mem s = c) : charAt mem s = c.setWidth 32 := by rw [charAt, h]

theorem setWidth_inj : c.setWidth 32 = d.setWidth 32 ↔ c = d := by
  constructor
  · intro h
    bv_omega
  · rintro rfl
    rfl

theorem setWidth_eq_zero : c.setWidth 32 = (0 : BitVec 32) ↔ c = 0 := by
  rw [← setWidth_inj (d := 0)]
  rfl

/-- A difference of two characters does not overflow. -/
theorem sub_toInt (c d : BitVec 8) :
    ((c.setWidth 32 : BitVec 32) - d.setWidth 32).toInt = (c.toNat : Int) - d.toNat := by
  have hc := c.isLt
  have hd := d.isLt
  have hc' : (c.setWidth 32 : BitVec 32).toInt = c.toNat := by
    rw [BitVec.toInt_eq_toNat_of_lt] <;> rw [BitVec.toNat_setWidth] <;> omega
  have hd' : (d.setWidth 32 : BitVec 32).toInt = d.toNat := by
    rw [BitVec.toInt_eq_toNat_of_lt] <;> rw [BitVec.toNat_setWidth] <;> omega
  rw [BitVec.toInt_sub, hc', hd']
  exact Int.bmod_eq_of_le (by omega) (by omega)

namespace Orders

theorem nil : Orders 0 [] [] :=
  ⟨by decide, by simp, by simp⟩

theorem tail (h : Orders r cs ds) : Orders r (c :: cs) (c :: ds) where
  zero := by rw [h.zero, List.cons.injEq, eq_self_iff_true, true_and]
  neg := by rw [h.neg, List.cons_lt_cons_iff]; simp
  pos := by rw [h.pos, List.cons_lt_cons_iff]; simp

theorem differ (h : c ≠ d) : Orders (c.setWidth 32 - d.setWidth 32) (c :: cs) (d :: ds) where
  zero := by
    have hne : (c.setWidth 32 : BitVec 32) - d.setWidth 32 ≠ 0 := by bv_omega
    simp only [hne, List.cons.injEq, h, false_and]
  neg := by
    rw [sub_toInt, List.cons_lt_cons_iff]
    simp only [h, false_and, or_false]
    show _ ↔ c.toNat < d.toNat
    omega
  pos := by
    rw [sub_toInt, List.cons_lt_cons_iff]
    simp only [Ne.symm h, false_and, or_false]
    show _ ↔ d.toNat < c.toNat
    omega

theorem shorter (h : d ≠ 0) : Orders ((0 : BitVec 8).setWidth 32 - d.setWidth 32) [] (d :: ds) where
  zero := by
    have hne : ((0 : BitVec 8).setWidth 32 : BitVec 32) - d.setWidth 32 ≠ 0 := by bv_omega
    simp only [hne, reduceCtorEq]
  neg := by
    have hpos : 0 < d.toNat := by bv_omega
    rw [sub_toInt]
    simp [hpos]
  pos := by
    rw [sub_toInt]
    simp

theorem longer (h : c ≠ 0) : Orders (c.setWidth 32 - (0 : BitVec 8).setWidth 32) (c :: cs) [] where
  zero := by
    have hne : (c.setWidth 32 : BitVec 32) - (0 : BitVec 8).setWidth 32 ≠ 0 := by bv_omega
    simp only [hne, reduceCtorEq]
  neg := by
    rw [sub_toInt]
    simp
  pos := by
    have hpos : 0 < c.toNat := by bv_omega
    rw [sub_toInt]
    simp [hpos]

end Orders

theorem memcmpLoop_orders (h : CellsAt mem s cs) (h' : CellsAt mem t ds)
    (hlen : cs.length = ds.length) : Orders (memcmpLoop mem cs.length s t) cs ds := by
  induction cs generalizing s t ds with
  | nil =>
    obtain rfl := List.eq_nil_of_length_eq_zero hlen.symm
    exact Orders.nil
  | cons c cs ih =>
    cases ds with
    | nil => cases hlen
    | cons d ds =>
      rw [List.length_cons, memcmpLoop, charAt_eq h.1, charAt_eq h'.1]
      split_ifs with hne
      · exact Orders.differ fun heq => hne (congrArg _ heq)
      · have heq : c = d := setWidth_inj.mp (not_not.mp hne)
        subst heq
        exact Orders.tail (ih h.2 h'.2 (Nat.succ.inj hlen))

section Strcmp

theorem strcmpTurn_differ (hs : mem s = c) (ht : mem t = d) (h : c ≠ d) :
    strcmpTurn mem (s, t) = .leave (c.setWidth 32 - d.setWidth 32) := by
  have hne : ¬ (c.setWidth 32 : BitVec 32) = d.setWidth 32 := mt setWidth_inj.mp h
  simp only [strcmpTurn, charAt_eq hs, charAt_eq ht, ne_eq, hne, not_false_eq_true, if_true,
    ite_self]

theorem strcmpTurn_end (hs : mem s = 0) (ht : mem t = 0) : strcmpTurn mem (s, t) = .leave 0 := by
  simp only [strcmpTurn, charAt_eq hs, charAt_eq ht]
  rfl

theorem strcmpTurn_again (hs : mem s = c) (ht : mem t = c) (h : c ≠ 0) :
    strcmpTurn mem (s, t) = .again (s + 1, t + 1) := by
  have hc : ¬ c.setWidth 32 = (0 : BitVec 32) := mt setWidth_eq_zero.mp h
  simp only [strcmpTurn, charAt_eq hs, charAt_eq ht, ne_eq, hc, not_false_eq_true, and_self,
    if_true, not_true_eq_false, if_false]

theorem strcmpTurn_loop (h : StringAt mem s cs) (h' : StringAt mem t ds) :
    ∃ r, loop (strcmpTurn mem) (cs.length + 1) (s, t) = some r ∧ Orders r cs ds := by
  induction cs generalizing s t ds with
  | nil =>
    cases ds with
    | nil => exact ⟨0, loop_leave (strcmpTurn_end h h'), Orders.nil⟩
    | cons d ds =>
      have hne : (0 : BitVec 8) ≠ d := h'.2.1.symm
      exact ⟨_, loop_leave (strcmpTurn_differ h h'.1 hne), Orders.shorter h'.2.1⟩
  | cons c cs ih =>
    cases ds with
    | nil => exact ⟨_, loop_leave (strcmpTurn_differ h.1 h' h.2.1), Orders.longer h.2.1⟩
    | cons d ds =>
      by_cases heq : c = d
      · subst heq
        obtain ⟨r, hloop, hord⟩ := ih h.2.2 h'.2.2
        refine ⟨r, ?_, hord.tail⟩
        rw [List.length_cons, loop_again (strcmpTurn_again h.1 h'.1 h.2.1)]
        exact hloop
      · exact ⟨_, loop_leave (strcmpTurn_differ h.1 h'.1 heq), Orders.differ heq⟩

end Strcmp

section Strncmp

theorem strncmpTurn_out (h : n = 0) : strncmpTurn mem (s, t, n) = .leave 0 := by
  subst h
  rfl

theorem strncmpTurn_differ (hn : n ≠ 0) (hs : mem s = c) (ht : mem t = d) (h : c ≠ d) :
    strncmpTurn mem (s, t, n) = .leave (c.setWidth 32 - d.setWidth 32) := by
  have hpos : ¬ n ≤ 0 := by bv_omega
  simp only [strncmpTurn, hpos, if_false, hs, ht, charAt, ne_eq, h, not_false_eq_true, if_true]

theorem strncmpTurn_end (hs : mem s = 0) (ht : mem t = 0) :
    strncmpTurn mem (s, t, n) = .leave 0 := by
  simp only [strncmpTurn, hs, ht, ne_eq, not_true_eq_false, if_false, if_true, ite_self]

theorem strncmpTurn_again (hn : n ≠ 0) (hs : mem s = c) (ht : mem t = c) (h : c ≠ 0) :
    strncmpTurn mem (s, t, n) = .again (s + 1, t + 1, n - 1) := by
  have hpos : ¬ n ≤ 0 := by bv_omega
  simp only [strncmpTurn, hpos, if_false, hs, ht, ne_eq, not_true_eq_false, h]

/-- The comparison of two strings, stopped when the count runs out. -/
theorem strncmpTurn_loop (h : StringAt mem s cs) (h' : StringAt mem t ds) :
    ∃ r, loop (strncmpTurn mem) (cs.length + 1) (s, t, n) = some r ∧
      Orders r (cs.take n.toNat) (ds.take n.toNat) := by
  induction cs generalizing s t n ds with
  | nil =>
    by_cases hn : n = 0
    · refine ⟨0, loop_leave (strncmpTurn_out hn), ?_⟩
      subst hn
      exact Orders.nil
    · obtain ⟨k, hk⟩ : ∃ k, n.toNat = k + 1 := ⟨n.toNat - 1, by bv_omega⟩
      cases ds with
      | nil => exact ⟨0, loop_leave (strncmpTurn_end h h'), by rw [hk]; exact Orders.nil⟩
      | cons d ds =>
        have hne : (0 : BitVec 8) ≠ d := h'.2.1.symm
        refine ⟨_, loop_leave (strncmpTurn_differ hn h h'.1 hne), ?_⟩
        rw [hk]
        exact Orders.shorter h'.2.1
  | cons c cs ih =>
    by_cases hn : n = 0
    · refine ⟨0, loop_leave (strncmpTurn_out hn), ?_⟩
      subst hn
      exact Orders.nil
    · obtain ⟨k, hk⟩ : ∃ k, n.toNat = k + 1 := ⟨n.toNat - 1, by bv_omega⟩
      cases ds with
      | nil =>
        refine ⟨_, loop_leave (strncmpTurn_differ hn h.1 h' h.2.1), ?_⟩
        rw [hk]
        exact Orders.longer h.2.1
      | cons d ds =>
        by_cases heq : c = d
        · subst heq
          obtain ⟨r, hloop, hord⟩ := ih (n := n - 1) h.2.2 h'.2.2
          have hpred : (n - 1).toNat = k := by bv_omega
          rw [hpred] at hord
          refine ⟨r, ?_, ?_⟩
          · rw [List.length_cons, loop_again (strncmpTurn_again hn h.1 h'.1 h.2.1)]
            exact hloop
          · rw [hk]
            exact hord.tail
        · refine ⟨_, loop_leave (strncmpTurn_differ hn h.1 h'.1 heq), ?_⟩
          rw [hk]
          exact Orders.differ heq

/-- A count that goes past the end of either string makes no difference. -/
theorem strncmpTurn_strcmpTurn (h : StringAt mem s cs) (h' : StringAt mem t ds)
    (hn : cs.length < n.toNat ∨ ds.length < n.toNat) :
    loop (strncmpTurn mem) (cs.length + 1) (s, t, n) =
      loop (strcmpTurn mem) (cs.length + 1) (s, t) := by
  have hn0 : n ≠ 0 := by bv_omega
  induction cs generalizing s t n ds with
  | nil =>
    cases ds with
    | nil => rw [loop_leave (strncmpTurn_end h h'), loop_leave (strcmpTurn_end h h')]
    | cons d ds =>
      have hne : (0 : BitVec 8) ≠ d := h'.2.1.symm
      rw [loop_leave (strncmpTurn_differ hn0 h h'.1 hne),
        loop_leave (strcmpTurn_differ h h'.1 hne)]
  | cons c cs ih =>
    cases ds with
    | nil =>
      rw [loop_leave (strncmpTurn_differ hn0 h.1 h' h.2.1),
        loop_leave (strcmpTurn_differ h.1 h' h.2.1)]
    | cons d ds =>
      by_cases heq : c = d
      · subst heq
        have hpred : (n - 1).toNat = n.toNat - 1 := by bv_omega
        rw [List.length_cons, loop_again (strncmpTurn_again hn0 h.1 h'.1 h.2.1),
          loop_again (strcmpTurn_again h.1 h'.1 h.2.1)]
        rw [List.length_cons, List.length_cons] at hn
        exact ih h.2.2 h'.2.2 (by omega) (by bv_omega)
      · rw [loop_leave (strncmpTurn_differ hn0 h.1 h'.1 heq),
          loop_leave (strcmpTurn_differ h.1 h'.1 heq)]

end Strncmp

/-- `strcmp` orders strings by their first difference, and takes a string for smaller than its
extensions. -/
theorem strcmp_orders (h : StringAt mem s cs) (h' : StringAt mem t ds) :
    ∃ r, strcmp mem s t = some r ∧ Orders r cs ds := by
  obtain ⟨r, hloop, hord⟩ := strcmpTurn_loop h h'
  exact ⟨r, loop_mono hloop h.length_lt, hord⟩

/-- A string and the end of it. -/
theorem strcmp_orders_suffix : ∃ r, strcmp (holding 0x100 [0x61, 0xe9]) 0x100 0x101 = some r ∧
    Orders r [0x61, 0xe9] [0xe9] := by
  have h : StringAt (holding 0x100 [0x61, 0xe9]) 0x100 [0x61, 0xe9] :=
    holding_stringAt (by decide) (by decide)
  exact strcmp_orders h h.2.2

/-- `strncmp` orders strings by their first `n` characters, and returns what `strcmp` does when
`n` goes past the end of either. -/
theorem strncmp_orders (h : StringAt mem s cs) (h' : StringAt mem t ds) (n : BitVec 32) :
    (∃ r, strncmp mem s t n = some r ∧ Orders r (cs.take n.toNat) (ds.take n.toNat)) ∧
    (cs.length < n.toNat ∨ ds.length < n.toNat → strncmp mem s t n = strcmp mem s t) := by
  obtain ⟨r, hloop, hord⟩ := strncmpTurn_loop h h' (n := n)
  have hcall := loop_mono hloop h.length_lt
  refine ⟨⟨r, hcall, hord⟩, fun hn => ?_⟩
  rw [strncmpTurn_strcmpTurn h h' hn] at hloop
  exact hcall.trans (loop_mono hloop h.length_lt).symm

/-- Strings that differ in the third character only. -/
theorem strncmp_orders_two :
    ∃ r, strncmp (holding 0x100 [0x61, 0x61, 0x61, 0x62]) 0x100 0x101 2 = some r ∧
      Orders r [0x61, 0x61] [0x61, 0x61] := by
  have h : StringAt (holding 0x100 [0x61, 0x61, 0x61, 0x62]) 0x100 [0x61, 0x61, 0x61, 0x62] :=
    holding_stringAt (by decide) (by decide)
  exact (strncmp_orders h h.2.2 2).1

end RtosKernel.Libc
