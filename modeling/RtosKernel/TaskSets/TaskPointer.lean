import RtosKernel.TaskSets.Touched

namespace RtosKernel

open FieldMem TaskField

variable {base : BitVec 32} {n : Nat} {tasks : Nat → Task}

/-- The segment that user addresses belong to. -/
def usrSegment : Set Nat := Set.Ico usrStartAddr usrEndAddr

/-- The bytes of `tasks[0..num_tasks)`, without wrapping. -/
def taskBytes (base : BitVec 32) (numTasks : Nat) : Set Nat :=
  Set.Ico base.toNat (base.toNat + 24 * numTasks)

/-- The four bytes of a field, as the processor addresses them. -/
def fieldBytes (base : BitVec 32) (p : Nat × TaskField) : Set Nat :=
  {a | ∃ k < 4, a = (base.toNat + 24 * p.1 + p.2.offset + k) % 2 ^ 32}

/-- `task_create` follows its pointer inside the user segment only, and refuses a pointer or a
stack that is not inside. -/
structure PointerChecked (base : BitVec 32) (numTasks : Nat) (tasks : Nat → Task)
    (res : FieldMem × Except Fault (Option Int)) : Prop where
  touched : ∀ p ∈ res.1.touched, fieldBytes base p ⊆ usrSegment
  pointer : ¬ taskBytes base numTasks ⊆ usrSegment →
    res.2 = .ok (some (-Errno.eFault)) ∧ res.1.touched = []
  stack : (∃ i < numTasks, (tasks i).stackPos ∉ usrSegment) →
    res.2 = .ok (some (-Errno.eFault))

/-- The array is inside the segment, and the sort does not leave it: the set is refused before,
or has one task at most, or the slot after the array is inside too, at least as far as the sort
needs it. -/
def PointerHarmless (base : BitVec 32) (n : Nat) (tasks : Nat → Task) : Prop :=
  taskBytes base n ⊆ usrSegment ∧ (RefusedEarly tasks n ∨ n < 2 ∨
    (fieldBytes base (n, T) ⊆ usrSegment ∧
      ((∀ f, fieldBytes base (n, f) ⊆ usrSegment) ∨ ∀ i < n, (tasks i).T ≤ (tasks n).T)))

theorem offset_le (f : TaskField) : f.offset ≤ 20 := by
  cases f <;> decide

/-- A field of the array lies among the bytes of the array. -/
theorem fieldBytes_subset {i : Nat} (h : taskBytes base n ⊆ usrSegment) (hi : i < n)
    (f : TaskField) : fieldBytes base (i, f) ⊆ usrSegment := by
  rintro a ⟨k, hk, rfl⟩
  have hoffset := offset_le f
  have hin : base.toNat + 24 * i + f.offset + k ∈ taskBytes base n := by
    constructor <;> omega
  have hseg := h hin
  have hlt : base.toNat + 24 * i + f.offset + k < 0xa3000000 := hseg.2
  show (base.toNat + 24 * i + f.offset + k) % 2 ^ 32 ∈ usrSegment
  rw [Nat.mod_eq_of_lt (by omega)]
  exact hseg

theorem validAddr_eq_false (a : Nat) :
    validAddr a 0 usrStartAddr usrEndAddr = false ↔ a ∉ usrSegment := by
  unfold validAddr
  dsimp only
  by_cases hin : a ∈ usrSegment
  · have hlo : usrStartAddr ≤ a := hin.1
    have hhi : a < 0xa3000000 := hin.2
    have hend : (a + 0) % 2 ^ 32 = a := Nat.mod_eq_of_lt (by omega)
    rw [hend, if_neg (by unfold usrEndAddr; omega), if_neg (by unfold usrEndAddr; omega)]
    exact iff_of_false (by decide) (not_not.mpr hin)
  · have hout : a < usrStartAddr ∨ a ≥ usrEndAddr := by
      by_contra hno
      obtain ⟨hlo, hhi⟩ := not_or.mp hno
      exact hin ⟨Nat.le_of_not_lt hlo, Nat.lt_of_not_le hhi⟩
    rw [if_pos hout]
    exact iff_of_true rfl hin

/-- `task_create` checks its pointer exactly where the pointer is harmless. -/
theorem taskCreate_pointer (hn : n ≤ osMaxTasks - 2) :
    PointerChecked base n tasks (taskCreate n ⟨tasks, []⟩) ↔ PointerHarmless base n tasks := by
  have hstack : (∃ i < n, (tasks i).stackPos ∉ usrSegment) →
      (taskCreate n ⟨tasks, []⟩).2 = .ok (some (-Errno.eFault)) := by
    rintro ⟨i, hi, hbad⟩
    rw [taskCreate_badStack hn ⟨i, hi, (validAddr_eq_false _).mpr hbad⟩]
  constructor
  · intro h
    have hin : taskBytes base n ⊆ usrSegment := by
      by_contra hout
      have hnone := (h.pointer hout).2
      have hpos : 0 < n := by
        apply Nat.pos_of_ne_zero
        rintro rfl
        apply hout
        intro a ha
        have hlo : base.toNat ≤ a := ha.1
        have hhi : a < base.toNat := ha.2
        omega
      have hread := taskCreate_reads_first tasks hn hpos
      rw [hnone] at hread
      cases hread
    refine ⟨hin, ?_⟩
    by_cases hearly : RefusedEarly tasks n
    · exact Or.inl hearly
    · by_cases hfew : n < 2
      · exact Or.inr (Or.inl hfew)
      · obtain ⟨hperiod, hall⟩ := taskCreate_reaches hearly (Nat.le_of_not_lt hfew)
        refine Or.inr (Or.inr ⟨h.touched _ hperiod, ?_⟩)
        by_cases hlong : ∃ i < n, (tasks n).T < (tasks i).T
        · exact Or.inl fun f => h.touched _ (hall hlong f)
        · right
          intro i hi
          by_contra hgt
          exact hlong ⟨i, hi, Nat.lt_of_not_le hgt⟩
  · intro h
    obtain ⟨hin, hafter⟩ := h
    have htouched : ∀ p ∈ (taskCreate n ⟨tasks, []⟩).1.touched, fieldBytes base p ⊆ usrSegment :=
      taskCreate_touches (P := fun p => fieldBytes base p ⊆ usrSegment) hn
        (fun i hi f => fieldBytes_subset hin hi f) hafter
    exact ⟨htouched, fun hout => absurd hin hout, hstack⟩

/-- Two tasks in the middle of the segment. -/
theorem taskCreate_pointer_inside : 2 ≤ osMaxTasks - 2 ∧
    PointerChecked 0xa1000000 2 (fun _ => ⟨0, 0, 0xa2000000, 1, 10, 0⟩)
      (taskCreate 2 ⟨fun _ => ⟨0, 0, 0xa2000000, 1, 10, 0⟩, []⟩) := by
  refine ⟨by decide, (taskCreate_pointer (by decide)).mpr ⟨?_, Or.inr (Or.inr ⟨?_, Or.inl ?_⟩)⟩⟩
  · exact Set.Ico_subset_Ico (by decide) (by decide)
  · exact fieldBytes_subset (n := 3) (Set.Ico_subset_Ico (by decide) (by decide)) (by decide) T
  · intro f
    exact fieldBytes_subset (n := 3) (Set.Ico_subset_Ico (by decide) (by decide)) (by decide) f

/-- The pointer of the test in `sys_err.c`, with zeros behind it: the first descriptor is read. -/
theorem badPointer_followed :
    ¬ PointerChecked 0xdeadbeef 30 (fun _ => ⟨0, 0, 0, 0, 0, 0⟩)
      (taskCreate 30 ⟨fun _ => ⟨0, 0, 0, 0, 0, 0⟩, []⟩) := by
  intro h
  have hout : ¬ taskBytes 0xdeadbeef 30 ⊆ usrSegment := by
    intro hin
    have hfirst : 0xdeadbeef ∈ usrSegment := hin ⟨by decide, by decide⟩
    exact absurd hfirst.2 (by decide)
  have htouched : (taskCreate 30 ⟨fun _ => ⟨0, 0, 0, 0, 0, 0⟩, []⟩).1.touched =
      [(0, stackPos)] := rfl
  rw [(h.pointer hout).2] at htouched
  cases htouched

end RtosKernel
