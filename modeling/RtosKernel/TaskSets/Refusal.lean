import RtosKernel.TaskSets.Schedule

namespace RtosKernel

open TaskMem

variable {n : Nat} {tasks : Nat → Task} {mem : TaskMem} {code : Int}

/-- `task_create` refuses the set before it calls `assign_schedule`. -/
def RefusedEarly (tasks : Nat → Task) (numTasks : Nat) : Prop :=
  osMaxTasks - 2 < numTasks ∨
    (∃ i < numTasks, validAddr (tasks i).stackPos 0 usrStartAddr usrEndAddr = false) ∨
    ∃ i < numTasks, (tasks i).T < (tasks i).C ∨ (tasks i).T = 0

/-- An early refusal leaves the array alone, a late one leaves it sorted. -/
theorem taskAdmit_refused (h : taskAdmit n ⟨tasks, [], []⟩ = .ok (mem, some code)) :
    (RefusedEarly tasks n ∧ mem.slot = tasks) ∨
      (¬ RefusedEarly tasks n ∧ mem.slot = BubbleSort.sort (·.T) n tasks) := by
  have hstack := findBad_iff (fun t => !validAddr t.stackPos 0 usrStartAddr usrEndAddr) n
    ⟨tasks, [], []⟩
  have hslot₁ := findBad_slot (fun t => !validAddr t.stackPos 0 usrStartAddr usrEndAddr) n
    ⟨tasks, [], []⟩
  unfold taskAdmit at h
  split_ifs at h with hn
  · cases h
    exact Or.inl ⟨Or.inl hn, rfl⟩
  cases hf : TaskMem.findBad (fun t => !validAddr t.stackPos 0 usrStartAddr usrEndAddr) n
    ⟨tasks, [], []⟩ with
  | mk mem₁ bad₁ =>
  rw [hf] at h hstack hslot₁
  change mem₁.slot = tasks at hslot₁
  cases bad₁ with
  | true =>
    cases h
    obtain ⟨i, hi, hbad⟩ := hstack.mp rfl
    exact Or.inl ⟨Or.inr (Or.inl ⟨i, hi, by simpa using hbad⟩), hslot₁⟩
  | false =>
    have hperiod := findBad_iff (fun t => t.T < t.C || t.T == 0) n mem₁
    have hslot₂ := findBad_slot (fun t => t.T < t.C || t.T == 0) n mem₁
    cases hf₂ : TaskMem.findBad (fun t => t.T < t.C || t.T == 0) n mem₁ with
    | mk mem₂ bad₂ =>
    dsimp only at h
    rw [hf₂] at h hperiod hslot₂
    rw [hslot₁] at hperiod hslot₂
    change mem₂.slot = tasks at hslot₂
    cases bad₂ with
    | true =>
      cases h
      obtain ⟨i, hi, hbad⟩ := hperiod.mp rfl
      exact Or.inl ⟨Or.inr (Or.inr ⟨i, hi, by simpa using hbad⟩), hslot₂⟩
    | false =>
      have hlate : ¬ RefusedEarly tasks n := by
        rintro (hbig | ⟨i, hi, hbad⟩ | ⟨i, hi, hbad⟩)
        · exact hn hbig
        · have hnot := hstack.mpr ⟨i, hi, by simpa using hbad⟩
          cases hnot
        · have hnot := hperiod.mpr ⟨i, hi, by simpa using hbad⟩
          cases hnot
      dsimp only at h
      by_cases htwo : 2 ≤ n
      · cases hs : mem₂.assignSchedule n with
        | error e => rw [hs] at h; cases h
        | ok out =>
          obtain ⟨mem₃, v⟩ := out
          rw [hs] at h
          dsimp only at h
          split_ifs at h
          · cases h
            exact Or.inr ⟨hlate, by rw [(assignSchedule_ok htwo hs).slot, hslot₂]⟩
          · cases h
      · -- one task, or none, is always admitted
        have hs : mem₂.assignSchedule n = .ok (mem₂, 1) := by
          unfold assignSchedule
          rw [if_pos (by omega)]
        rw [hs] at h
        cases h

/-- A refusal changes nothing in the array exactly if it comes early or finds the periods in
order, the slot after the array included. -/
theorem taskAdmit_refused_keeps (h : taskAdmit n ⟨tasks, [], []⟩ = .ok (mem, some code)) :
    (∀ i < n, mem.slot i = tasks i) ↔
      RefusedEarly tasks n ∨ ∀ i < n, (tasks i).T ≤ (tasks (i + 1)).T := by
  rcases taskAdmit_refused h with ⟨hearly, hslot⟩ | ⟨hlate, hslot⟩
  · rw [hslot]
    simp [hearly]
  · rw [hslot, BubbleSort.sort_eq_self_iff]
    simp [hlate]

end RtosKernel
