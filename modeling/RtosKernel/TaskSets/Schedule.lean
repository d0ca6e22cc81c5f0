import Mathlib.Algebra.BigOperators.Intervals
import RtosKernel.Kernel.TaskCreate
import RtosKernel.Math.BubbleSort
import RtosKernel.Math.Loop

namespace RtosKernel

section Loops

/-! What the loops do, whatever record of their accesses they keep. -/

variable {μ : Type} {slot : μ → Nat → Task} {body : μ → Nat → μ} {mem : μ} {n : Nat}

theorem sortPassOf_succ (body : μ → Nat → μ) (m : Nat) (mem : μ) :
    sortPassOf body (m + 1) mem = body (sortPassOf body m mem) m := by
  unfold sortPassOf
  rw [List.range_succ, List.foldl_append, List.foldl_cons, List.foldl_nil]

theorem sortPassOf_slot
    (hbody : ∀ mem j, slot (body mem j) = BubbleSort.step (·.T) (slot mem) j) (m : Nat) (mem : μ) :
    slot (sortPassOf body m mem) = BubbleSort.pass (·.T) m (slot mem) := by
  induction m with
  | zero => rfl
  | succ m ih => rw [sortPassOf_succ, hbody, ih, BubbleSort.pass_succ]

/-- The sort of `assign_schedule` is a bubble sort of one slot too many. -/
theorem sortOf_slot
    (hbody : ∀ mem j, slot (body mem j) = BubbleSort.step (·.T) (slot mem) j) (n : Nat) (mem : μ) :
    slot (sortOf body n mem) = BubbleSort.sort (·.T) n (slot mem) :=
  Function.Semiconj.iterate_right (f := slot) (sortPassOf_slot hbody n) n mem

/-- What every comparison keeps, the whole sort keeps. -/
theorem sortOf_invariant {P : μ → Prop} (h : P mem)
    (hbody : ∀ mem j, j < n → P mem → P (body mem j)) : P (sortOf body n mem) :=
  iterate_invariant h (fun _ h => foldl_range_invariant h hbody) n

/-- A check reads its descriptor and tells whether it is `bad`. -/
structure Checks (slot : μ → Nat → Task) (check : Nat → μ → μ × Bool) (bad : Task → Bool) :
    Prop where
  kept : ∀ i mem, slot (check i mem).1 = slot mem
  found : ∀ i mem, (check i mem).2 = bad (slot mem i)

theorem findBadOf_succ (check : Nat → μ → μ × Bool) (k : Nat) (mem : μ) :
    findBadOf check (k + 1) mem = if (findBadOf check k mem).2 then findBadOf check k mem
      else check k (findBadOf check k mem).1 := by
  unfold findBadOf
  rw [List.range_succ, List.foldl_append, List.foldl_cons, List.foldl_nil]

variable {check : Nat → μ → μ × Bool} {bad : Task → Bool}

/-- A validation loop writes nothing. -/
theorem Checks.findBad_slot (hc : Checks slot check bad) (k : Nat) (mem : μ) :
    slot (findBadOf check k mem).1 = slot mem := by
  induction k with
  | zero => rfl
  | succ k ih =>
    rw [findBadOf_succ]
    split_ifs
    · exact ih
    · rw [hc.kept, ih]

/-- It finds a descriptor exactly if there is a bad one. -/
theorem Checks.findBad_iff (hc : Checks slot check bad) (k : Nat) (mem : μ) :
    (findBadOf check k mem).2 = true ↔ ∃ i < k, bad (slot mem i) = true := by
  induction k with
  | zero => simp [findBadOf]
  | succ k ih =>
    rw [findBadOf_succ]
    split_ifs with hfound
    · obtain ⟨i, hi, hbad⟩ := ih.mp hfound
      simp only [hfound, true_iff]
      exact ⟨i, by omega, hbad⟩
    · rw [hc.found, hc.findBad_slot]
      constructor
      · intro hbad
        exact ⟨k, Nat.lt_succ_self k, hbad⟩
      · rintro ⟨i, hi, hbad⟩
        rcases Nat.lt_succ_iff_lt_or_eq.mp hi with hlt | rfl
        · exact absurd (ih.mpr ⟨i, hlt, hbad⟩) hfound
        · exact hbad

end Loops

namespace TaskMem

variable {n m j k v : Nat} {mem mem' : TaskMem}

theorem compareSwap_slot (mem : TaskMem) (j : Nat) :
    (mem.compareSwap j).slot = BubbleSort.step (·.T) mem.slot j := by
  unfold compareSwap BubbleSort.step
  change (if (mem.slot j).T > (mem.slot (j + 1)).T then _ else _ : TaskMem).slot = _
  split_ifs with h
  · change Function.update (Function.update mem.slot j (mem.slot (j + 1))) (j + 1)
      (mem.slot j) = _
    funext i
    rw [Function.update_apply, Function.update_apply, Function.comp_apply,
      Equiv.swap_apply_def]
    by_cases hj : i = j
    · rw [if_neg (by omega), if_pos hj, if_pos hj]
    · by_cases hj' : i = j + 1
      · rw [if_pos hj', if_neg hj, if_pos hj']
      · rw [if_neg hj', if_neg hj, if_neg hj, if_neg hj']
  · rfl

theorem sortTasks_slot (n : Nat) (mem : TaskMem) :
    (mem.sortTasks n).slot = BubbleSort.sort (·.T) n mem.slot :=
  sortOf_slot compareSwap_slot n mem

theorem mem_compareSwap_reads (mem : TaskMem) (i j : Nat) :
    i ∈ (mem.compareSwap j).reads ↔ i = j ∨ i = j + 1 ∨ i ∈ mem.reads := by
  have hreads : (mem.compareSwap j).reads = (j + 1) :: j :: mem.reads := by
    unfold compareSwap
    change (if (mem.slot j).T > (mem.slot (j + 1)).T then _ else _ : TaskMem).reads = _
    split_ifs <;> rfl
  rw [hreads, List.mem_cons, List.mem_cons]
  exact or_left_comm

/-- The last comparison of every pass reads the slot after the array. -/
theorem sortTasks_reads (hn : 0 < n) (mem : TaskMem) : n ∈ (mem.sortTasks n).reads := by
  obtain ⟨n, rfl⟩ : ∃ k, n = k + 1 := ⟨n - 1, by omega⟩
  have hlast : ∀ mem : TaskMem, n + 1 ∈ (mem.sortPass (n + 1)).reads := by
    intro mem
    rw [sortPass, sortPassOf_succ, mem_compareSwap_reads]
    exact Or.inr (Or.inl rfl)
  unfold sortTasks sortOf
  rw [Function.iterate_succ_apply']
  exact hlast _

/-- If no period exceeds that of the slot after the array, nothing outside is written. -/
theorem sortTasks_writes (h : ∀ i < n, (mem.slot i).T ≤ (mem.slot n).T)
    (hw : ∀ i ∈ mem.writes, i < n) : ∀ i ∈ (mem.sortTasks n).writes, i < n := by
  have hinv : (∀ i < n, ((mem.sortTasks n).slot i).T ≤ ((mem.sortTasks n).slot n).T) ∧
      ∀ i ∈ (mem.sortTasks n).writes, i < n := by
    refine sortOf_invariant (P := fun mem : TaskMem =>
      (∀ i < n, (mem.slot i).T ≤ (mem.slot n).T) ∧ ∀ i ∈ mem.writes, i < n) ⟨h, hw⟩ ?_
    intro mem j hj hP
    obtain ⟨hle, hwr⟩ := hP
    rw [compareSwap_slot]
    unfold compareSwap
    change _ ∧ ∀ i ∈ (if (mem.slot j).T > (mem.slot (j + 1)).T then _ else _ :
      TaskMem).writes, i < n
    refine ⟨BubbleSort.step_last hle hj, ?_⟩
    by_cases hlt : (mem.slot (j + 1)).T < (mem.slot j).T
    · have hj' : j + 1 < n := @BubbleSort.swap_below_last _ _ Task.T n j mem.slot _ hle hj hlt
      rw [if_pos hlt]
      intro i hi
      have hi' : i ∈ (j + 1) :: j :: mem.writes := hi
      simp only [List.mem_cons] at hi'
      rcases hi' with rfl | rfl | hi'
      · exact hj'
      · exact hj
      · exact hwr i hi'
    · rw [if_neg hlt]
      exact hwr
  exact hinv.2

/-- What slot `i` adds to `u_n`. -/
def quotients (slot : Nat → Task) (n i : Nat) : Nat :=
  (slot i).C / (slot i).T + if i = n - 1 then (slot i).B / (slot i).T else 0

theorem addUtilization_ok {st st' : TaskMem × Nat} {i : Nat}
    (h : addUtilization n st i = .ok st') :
    (st.1.slot i).T ≠ 0 ∧ st' = (st.1.read i, st.2 + quotients st.1.slot n i) := by
  unfold addUtilization at h
  change (if (st.1.slot i).T = 0 then _ else _) = _ at h
  split_ifs at h with hz hi
  all_goals
    cases h
    refine ⟨hz, ?_⟩
    simp [quotients, hi, read, Nat.add_assoc]

theorem addUtilization_eq {st : TaskMem × Nat} {i : Nat} (h : (st.1.slot i).T ≠ 0) :
    addUtilization n st i = .ok (st.1.read i, st.2 + quotients st.1.slot n i) := by
  unfold addUtilization
  change (if (st.1.slot i).T = 0 then _ else _) = _
  rw [if_neg h]
  simp [quotients, read, Nat.add_assoc]

theorem uMax_eq (hn : 2 ≤ n) : n * ((2 <<< (1 / n)) - 1) = n := by
  have hdiv : 1 / n = 0 := Nat.div_eq_of_lt (by omega)
  rw [hdiv]
  simp

/-- What a call of `assign_schedule` on two tasks or more has done when it returns. -/
structure Assigned (n : Nat) (mem mem' : TaskMem) (v : Nat) : Prop where
  slot : mem'.slot = BubbleSort.sort (·.T) n mem.slot
  period : ∀ i < n, (mem'.slot i).T ≠ 0
  reads : ∀ i ∈ (mem.sortTasks n).reads, i ∈ mem'.reads
  writes : mem'.writes = (mem.sortTasks n).writes
  value : v = if ∑ i ∈ Finset.range n, quotients mem'.slot n i ≤ n then 1 else 0

theorem assignSchedule_ok (hn : 2 ≤ n) (h : mem.assignSchedule n = .ok (mem', v)) :
    Assigned n mem mem' v := by
  unfold assignSchedule at h
  rw [if_neg (by omega)] at h
  split at h
  · cases h
  · rename_i mem₁ u hu
    cases h
    have hinv := foldlM_range_invariant (P := fun k st => st.1.slot = (mem.sortTasks n).slot ∧
      st.1.writes = (mem.sortTasks n).writes ∧
      (∀ i ∈ (mem.sortTasks n).reads, i ∈ st.1.reads) ∧
      (∀ i < k, ((mem.sortTasks n).slot i).T ≠ 0) ∧
      st.2 = ∑ i ∈ Finset.range k, quotients (mem.sortTasks n).slot n i)
      ⟨rfl, rfl, fun _ hi => hi, fun i hi => absurd hi (Nat.not_lt_zero i), rfl⟩ ?_ hu
    · obtain ⟨hslot, hw, hr, ht, hsum⟩ := hinv
      have hslot' : mem'.slot = (mem.sortTasks n).slot := hslot
      refine ⟨hslot'.trans (sortTasks_slot n mem), ?_, hr, hw, ?_⟩
      · rw [hslot']
        exact ht
      · rw [uMax_eq hn, hslot', ← hsum]
    · intro k st st' hk hP hst
      obtain ⟨hslot, hw, hr, ht, hsum⟩ := hP
      obtain ⟨hz, rfl⟩ := addUtilization_ok hst
      refine ⟨hslot, hw, fun i hi => List.mem_cons_of_mem _ (hr i hi), ?_, ?_⟩
      · intro i hi
        rcases Nat.lt_or_eq_of_le (Nat.le_of_lt_succ hi) with hlt | rfl
        · exact ht i hlt
        · rw [← hslot]
          exact hz
      · rw [Finset.sum_range_succ, ← hsum, ← hslot]

/-- With no zero period among the sorted slots the call returns. -/
theorem assignSchedule_total (mem : TaskMem) (hn : 2 ≤ n)
    (ht : ∀ i < n, (BubbleSort.sort (·.T) n mem.slot i).T ≠ 0) :
    ∃ r, mem.assignSchedule n = .ok r := by
  obtain ⟨st, hst, _⟩ := foldlM_range_total (f := addUtilization n) (n := n)
    (s := (mem.sortTasks n, 0)) (P := fun _ st => st.1.slot = (mem.sortTasks n).slot) rfl (by
      intro k st hk hslot
      refine ⟨_, addUtilization_eq ?_, hslot⟩
      rw [hslot, sortTasks_slot]
      exact ht k hk)
  unfold assignSchedule
  rw [if_neg (by omega), hst]
  exact ⟨_, rfl⟩

theorem reads_checks (bad : Task → Bool) :
    Checks slot (fun i mem => (mem.read i, bad (mem.slot i))) bad :=
  ⟨fun _ _ => rfl, fun _ _ => rfl⟩

theorem findBad_slot (bad : Task → Bool) (k : Nat) (mem : TaskMem) :
    (mem.findBad bad k).1.slot = mem.slot :=
  (reads_checks bad).findBad_slot k mem

theorem findBad_iff (bad : Task → Bool) (k : Nat) (mem : TaskMem) :
    (mem.findBad bad k).2 = true ↔ ∃ i < k, bad (mem.slot i) = true :=
  (reads_checks bad).findBad_iff k mem

/-- A set of two tasks or more that `task_create` admits has passed `assign_schedule`. -/
theorem assignSchedule_of_admit {tasks : Nat → Task} (hn : 2 ≤ n)
    (h : taskAdmit n ⟨tasks, [], []⟩ = .ok (mem, none)) :
    ∃ mem', assignSchedule n ⟨tasks, [], []⟩ = .ok (mem', 1) ∧ mem'.slot = mem.slot := by
  unfold taskAdmit at h
  split at h
  · cases h
  split at h
  · cases h
  rename_i mem₁ hv
  split at h
  · cases h
  rename_i mem₂ hp
  split at h
  · cases h
  rename_i mem₃ ok hs
  have hok : ok ≠ 0 := by
    intro hz
    rw [if_pos hz] at h
    cases h
  rw [if_neg hok] at h
  cases h
  have hslot : mem₂.slot = tasks := by
    have h₁ := findBad_slot (fun t => !validAddr t.stackPos 0 usrStartAddr usrEndAddr) n
      ⟨tasks, [], []⟩
    have h₂ := findBad_slot (fun t => t.T < t.C || t.T == 0) n mem₁
    rw [hv] at h₁
    rw [hp] at h₂
    exact h₂.trans h₁
  have ha := assignSchedule_ok hn hs
  have hsort : mem.slot = BubbleSort.sort (·.T) n tasks := by rw [ha.slot, hslot]
  obtain ⟨⟨mem', v⟩, hr⟩ := assignSchedule_total ⟨tasks, [], []⟩ hn (by
    intro i hi
    rw [← hsort]
    exact ha.period i hi)
  have hb := assignSchedule_ok hn hr
  have hslot' : mem'.slot = mem.slot := hb.slot.trans hsort.symm
  have hval : v = 1 := by
    rw [hb.value, hslot']
    by_contra hne
    rw [ha.value] at hok
    split_ifs at hne hok
    · exact hne rfl
    · exact hok rfl
  exact ⟨mem', by rw [hr, hval], hslot'⟩

end TaskMem

end RtosKernel
