import Mathlib.Data.Nat.Cast.Order.Field
import RtosKernel.Math.UtilizationBound
import RtosKernel.TaskSets.Schedule

namespace RtosKernel

open TaskMem

/-- What `task_create` checks of the times of the first `n` slots. -/
def TimesChecked (n : Nat) (slot : Nat → Task) : Prop :=
  ∀ i < n, 0 < (slot i).T ∧ (slot i).C ≤ (slot i).T

/-- The utilization of `n` tasks, with the blocking of the last one. -/
def utilization (n : Nat) (slot : Nat → Task) : ℚ :=
  ∑ i ∈ Finset.range n, ((slot i).C : ℚ) / (slot i).T +
    ((slot (n - 1)).B : ℚ) / (slot (n - 1)).T

/-- The tasks that need the whole processor. -/
def fullTasks (n : Nat) (slot : Nat → Task) : Finset Nat :=
  (Finset.range n).filter fun i => (slot i).C = (slot i).T

variable {n : Nat} {mem : TaskMem} {slot : Nat → Task}

theorem sum_quotients (hn : 2 ≤ n) :
    ∑ i ∈ Finset.range n, quotients slot n i =
      ∑ i ∈ Finset.range n, (slot i).C / (slot i).T +
        (slot (n - 1)).B / (slot (n - 1)).T := by
  unfold quotients
  rw [Finset.sum_add_distrib, Finset.sum_ite_eq' (Finset.range n) (n - 1)
    fun i => (slot i).B / (slot i).T, if_pos (Finset.mem_range.mpr (by omega))]

/-- Whole-number quotients count the full tasks and nothing else. -/
theorem sum_quotients_eq (hn : 2 ≤ n) (h : TimesChecked n slot) :
    ∑ i ∈ Finset.range n, quotients slot n i =
      (fullTasks n slot).card + (slot (n - 1)).B / (slot (n - 1)).T := by
  rw [sum_quotients hn, fullTasks, Finset.card_filter]
  congr 1
  refine Finset.sum_congr rfl fun i hi => ?_
  obtain ⟨hpos, hle⟩ := h i (Finset.mem_range.mp hi)
  split_ifs with hfull
  · rw [hfull]
    exact Nat.div_self hpos
  · exact Nat.div_eq_of_lt (by omega)

theorem utilization_nonneg (n : Nat) (slot : Nat → Task) : 0 ≤ utilization n slot := by
  have hsum : 0 ≤ ∑ i ∈ Finset.range n, ((slot i).C : ℚ) / (slot i).T :=
    Finset.sum_nonneg fun i _ => by positivity
  have hlast : 0 ≤ ((slot (n - 1)).B : ℚ) / (slot (n - 1)).T := by positivity
  exact add_nonneg hsum hlast

theorem sum_quotients_le (slot : Nat → Task) (hn : 2 ≤ n) :
    ((∑ i ∈ Finset.range n, quotients slot n i : Nat) : ℚ) ≤ utilization n slot := by
  rw [sum_quotients hn, utilization]
  push_cast
  apply add_le_add
  · exact Finset.sum_le_sum fun i _ => Nat.cast_div_le
  · exact Nat.cast_div_le

/-- `assign_schedule` admits a set unless its full tasks and the whole periods of blocking
outnumber the tasks. -/
theorem assignSchedule_admits (hn : 2 ≤ n) (h : TimesChecked n (mem.sortTasks n).slot) :
    (∃ mem', mem.assignSchedule n = .ok (mem', 1)) ↔
      (fullTasks n (mem.sortTasks n).slot).card +
        ((mem.sortTasks n).slot (n - 1)).B / ((mem.sortTasks n).slot (n - 1)).T ≤ n := by
  rw [← sum_quotients_eq hn h]
  constructor
  · intro hb
    obtain ⟨mem', hmem⟩ := hb
    have ha := assignSchedule_ok hn hmem
    have hvalue := ha.value
    rw [ha.slot, ← sortTasks_slot] at hvalue
    by_contra hgt
    rw [if_neg hgt] at hvalue
    cases hvalue
  · intro hle
    obtain ⟨⟨mem', v⟩, hr⟩ := assignSchedule_total mem hn (by
      intro i hi
      rw [← sortTasks_slot]
      have hpos := (h i hi).1
      omega)
    have ha := assignSchedule_ok hn hr
    have hvalue := ha.value
    rw [ha.slot, ← sortTasks_slot, if_pos hle] at hvalue
    rw [hvalue] at hr
    exact ⟨mem', hr⟩

/-- Every set within the bound is admitted. -/
theorem admits_of_bound (hn : 2 ≤ n) (h : TimesChecked n (mem.sortTasks n).slot)
    (hb : (1 + utilization n (mem.sortTasks n).slot / n) ^ n ≤ 2) :
    ∃ mem', mem.assignSchedule n = .ok (mem', 1) := by
  rw [assignSchedule_admits hn h, ← sum_quotients_eq hn h]
  have hone := le_one_of_pow_le_two (by omega) (utilization_nonneg _ _) hb
  have hsum := (sum_quotients_le (mem.sortTasks n).slot hn).trans hone
  have hsum' : ∑ i ∈ Finset.range n, quotients (mem.sortTasks n).slot n i ≤ 1 := by
    exact_mod_cast hsum
  omega

/-- The test decides by the utilization bound only for sets within the bound, and for those
whose full tasks and whole periods of blocking outnumber the tasks. -/
theorem utilizationTest (hn : 2 ≤ n) (h : TimesChecked n (mem.sortTasks n).slot) :
    ((∃ mem', mem.assignSchedule n = .ok (mem', 1)) ↔
      (utilization n (mem.sortTasks n).slot : ℝ) ≤ utilizationBound n) ↔
    ((1 + utilization n (mem.sortTasks n).slot / n) ^ n ≤ 2 ∨
      n < (fullTasks n (mem.sortTasks n).slot).card +
        ((mem.sortTasks n).slot (n - 1)).B / ((mem.sortTasks n).slot (n - 1)).T) := by
  have hbound : (utilization n (mem.sortTasks n).slot : ℝ) ≤ utilizationBound n ↔
      (1 + utilization n (mem.sortTasks n).slot / n) ^ n ≤ 2 := by
    rw [le_utilizationBound_iff (by omega) (by exact_mod_cast utilization_nonneg _ _)]
    exact_mod_cast Iff.rfl
  rw [hbound]
  constructor
  · intro hiff
    by_cases hadm : ∃ mem', mem.assignSchedule n = .ok (mem', 1)
    · exact Or.inl (hiff.mp hadm)
    · rw [assignSchedule_admits hn h] at hadm
      exact Or.inr (not_le.mp hadm)
  · intro hcond
    refine ⟨fun hadm => ?_, admits_of_bound hn h⟩
    rcases hcond with hb | hfull
    · exact hb
    · rw [assignSchedule_admits hn h] at hadm
      omega

/-- Tasks that all need the processor for `c` out of 100. -/
def equalTasks (c : Nat) : TaskMem := ⟨fun _ => ⟨0xa0000000, 0, 0xa1000000, c, 100, 0⟩, [], []⟩

theorem utilizationTest_light :
    (∃ mem', assignSchedule 2 (equalTasks 10) = .ok (mem', 1)) ↔
      (utilization 2 ((equalTasks 10).sortTasks 2).slot : ℝ) ≤ utilizationBound 2 := by
  refine (utilizationTest (by decide) ?_).mpr (Or.inl ?_)
  · unfold TimesChecked
    decide
  · decide +kernel

/-- Two tasks that each need the whole processor are admitted. -/
theorem fullTasks_admitted :
    (∃ mem', assignSchedule 2 (equalTasks 100) = .ok (mem', 1)) ∧
      1 < utilization 2 ((equalTasks 100).sortTasks 2).slot ∧
      ¬ (utilization 2 ((equalTasks 100).sortTasks 2).slot : ℝ) ≤ utilizationBound 2 := by
  have hchecked : TimesChecked 2 ((equalTasks 100).sortTasks 2).slot := by
    unfold TimesChecked
    decide
  refine ⟨(assignSchedule_admits (by decide) hchecked).mpr (by decide +kernel),
    by decide +kernel, ?_⟩
  rw [le_utilizationBound_iff (by decide) (by exact_mod_cast utilization_nonneg _ _)]
  have hover : ¬ (1 + utilization 2 ((equalTasks 100).sortTasks 2).slot / (2 : Nat)) ^ 2 ≤ 2 := by
    decide +kernel
  exact_mod_cast hover

end RtosKernel
