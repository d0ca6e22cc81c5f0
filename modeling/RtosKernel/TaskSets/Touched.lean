import RtosKernel.Kernel.TaskPointer
import RtosKernel.TaskSets.Refusal

namespace RtosKernel.FieldMem

open TaskField

variable {n m i j : Nat} {f : TaskField} {mem mem' mem'' : FieldMem} {tasks : Nat → Task}
  {tm : TaskMem}

@[simp] theorem touch_slot : (mem.touch i f).slot = mem.slot := rfl

@[simp] theorem touchAll_slot : (mem.touchAll i).slot = mem.slot := rfl

theorem compareSwap_slot (mem : FieldMem) (j : Nat) :
    (mem.compareSwap j).slot = BubbleSort.step (·.T) mem.slot j := by
  rw [← TaskMem.compareSwap_slot ⟨mem.slot, [], []⟩ j]
  unfold compareSwap TaskMem.compareSwap
  change (if (mem.slot j).T > (mem.slot (j + 1)).T then _ else _ : FieldMem).slot =
    (if (mem.slot j).T > (mem.slot (j + 1)).T then _ else _ : TaskMem).slot
  split_ifs <;> rfl

theorem sortTasks_slot (n : Nat) (mem : FieldMem) :
    (mem.sortTasks n).slot = BubbleSort.sort (·.T) n mem.slot :=
  sortOf_slot compareSwap_slot n mem

theorem checkStack_checks :
    Checks slot checkStack fun t => !validAddr t.stackPos 0 usrStartAddr usrEndAddr where
  kept _ _ := rfl
  found _ _ := rfl

theorem checkPeriod_checks : Checks slot checkPeriod fun t => t.T < t.C || t.T == 0 where
  kept i mem := by
    unfold checkPeriod
    dsimp only
    split_ifs <;> rfl
  found i mem := by
    unfold checkPeriod
    dsimp only
    split_ifs with h
    · simp [h]
    · simp [h]

theorem findBad_corresponds {check : Nat → FieldMem → FieldMem × Bool} {bad : Task → Bool}
    (hc : Checks slot check bad) (h : mem.slot = tm.slot) :
    (mem.findBad check n).1.slot = (tm.findBad bad n).1.slot ∧
      (mem.findBad check n).2 = (tm.findBad bad n).2 := by
  have hslot : (mem.findBad check n).1.slot = mem.slot := hc.findBad_slot n mem
  have hfound : (mem.findBad check n).2 = true ↔ _ := hc.findBad_iff n mem
  refine ⟨by rw [hslot, TaskMem.findBad_slot, h], ?_⟩
  rw [Bool.eq_iff_iff, hfound, TaskMem.findBad_iff, h]

/-- The outcome of a run on fields is that of the run on descriptors. -/
def Corresponds {α β : Type} (value : β → α) (res : FieldMem × Except Fault α) :
    Except Fault (TaskMem × β) → Prop
  | .error e => res.2 = .error e
  | .ok (tm, b) => res.1.slot = tm.slot ∧ res.2 = .ok (value b)

theorem foldl_error {e : Fault} (l : List Nat) :
    l.foldl (addUtilization n) (mem, .error e) = (mem, .error e) := by
  induction l with
  | nil => rfl
  | cons i l ih => exact ih

theorem addUtilization_zero {u : Nat} (h : (mem.slot i).T = 0) :
    addUtilization n (mem, .ok u) i = ((mem.touch i C).touch i T, .error .divByZero) := by
  unfold addUtilization
  dsimp only
  rw [if_pos h]

theorem addUtilization_ok {u : Nat} (h : (mem.slot i).T ≠ 0) :
    ∃ mem', mem'.slot = mem.slot ∧
      addUtilization n (mem, .ok u) i = (mem', .ok (u + TaskMem.quotients mem.slot n i)) := by
  unfold addUtilization TaskMem.quotients
  dsimp only
  rw [if_neg h]
  split_ifs
  · refine ⟨(((mem.touch i C).touch i T).touch i B).touch i T, rfl, ?_⟩
    rw [Nat.add_assoc]
  · exact ⟨(mem.touch i C).touch i T, rfl, rfl⟩

theorem utilization_corresponds {u : Nat} (l : List Nat) (h : mem.slot = tm.slot) :
    Corresponds id (l.foldl (addUtilization n) (mem, .ok u))
      (l.foldlM (TaskMem.addUtilization n) (tm, u)) := by
  induction l generalizing mem tm u with
  | nil => exact ⟨h, rfl⟩
  | cons i l ih =>
    rw [List.foldl_cons, List.foldlM_cons]
    by_cases hz : (mem.slot i).T = 0
    · have hfail : TaskMem.addUtilization n (tm, u) i = .error .divByZero := by
        unfold TaskMem.addUtilization
        rw [h] at hz
        exact if_pos hz
      rw [addUtilization_zero hz, foldl_error, hfail]
      exact rfl
    · obtain ⟨mem', hslot, hok⟩ := addUtilization_ok (n := n) (u := u) hz
      have hz' : (tm.slot i).T ≠ 0 := by rwa [← h]
      have hstep : TaskMem.addUtilization n (tm, u) i =
          .ok (tm.read i, u + TaskMem.quotients tm.slot n i) := TaskMem.addUtilization_eq hz'
      rw [hok, hstep, h]
      exact ih (hslot.trans h)

theorem assignSchedule_corresponds (h : mem.slot = tm.slot) :
    Corresponds id (mem.assignSchedule n) (tm.assignSchedule n) := by
  have hsort : (mem.sortTasks n).slot = (tm.sortTasks n).slot := by
    rw [sortTasks_slot, TaskMem.sortTasks_slot, h]
  have hsum := utilization_corresponds (n := n) (u := 0) (List.range n) hsort
  unfold assignSchedule TaskMem.assignSchedule
  split_ifs with hn
  · exact ⟨h, rfl⟩
  · cases hfold : (List.range n).foldl (addUtilization n) (mem.sortTasks n, .ok 0) with
    | mk mem₁ res =>
    rw [hfold] at hsum
    cases hfoldM : (List.range n).foldlM (TaskMem.addUtilization n) (tm.sortTasks n, 0) with
    | error e =>
      rw [hfoldM] at hsum
      have hres : res = .error e := hsum
      rw [hres]
      exact rfl
    | ok st =>
      rw [hfoldM] at hsum
      obtain ⟨hslot, hres⟩ := hsum
      have hres' : res = .ok st.2 := hres
      rw [hres']
      exact ⟨hslot, rfl⟩

theorem loads_slot (l : List Nat) : (l.foldl loadTask mem).slot = mem.slot := by
  induction l generalizing mem with
  | nil => rfl
  | cons i l ih => exact ih

/-- The run on fields admits and refuses what `taskAdmit` does, and leaves the same descriptors. -/
theorem taskCreate_corresponds (n : Nat) (tasks : Nat → Task) :
    Corresponds id (taskCreate n ⟨tasks, []⟩) (taskAdmit n ⟨tasks, [], []⟩) := by
  unfold taskCreate taskAdmit
  split_ifs with hn
  · exact ⟨rfl, rfl⟩
  have hstack := findBad_corresponds (n := n) checkStack_checks
    (show (⟨tasks, []⟩ : FieldMem).slot = (⟨tasks, [], []⟩ : TaskMem).slot from rfl)
  cases hf : findBad checkStack n ⟨tasks, []⟩ with
  | mk mem₁ bad₁ =>
  cases hg : TaskMem.findBad (fun t => !validAddr t.stackPos 0 usrStartAddr usrEndAddr) n
    ⟨tasks, [], []⟩ with
  | mk tm₁ bad₁' =>
  rw [hf, hg] at hstack
  obtain ⟨hslot₁, hbad₁⟩ := hstack
  dsimp only at hslot₁ hbad₁
  subst hbad₁
  cases bad₁ with
  | true => exact ⟨hslot₁, rfl⟩
  | false =>
    have hperiod := findBad_corresponds (n := n) checkPeriod_checks hslot₁
    cases hf₂ : findBad checkPeriod n mem₁ with
    | mk mem₂ bad₂ =>
    cases hg₂ : TaskMem.findBad (fun t => t.T < t.C || t.T == 0) n tm₁ with
    | mk tm₂ bad₂' =>
    rw [hf₂, hg₂] at hperiod
    obtain ⟨hslot₂, hbad₂⟩ := hperiod
    dsimp only at hslot₂ hbad₂ ⊢
    rw [hf₂, hg₂]
    subst hbad₂
    cases bad₂ with
    | true => exact ⟨hslot₂, rfl⟩
    | false =>
      have hassign := assignSchedule_corresponds (n := n) hslot₂
      dsimp only
      cases hr : mem₂.assignSchedule n with
      | mk mem₃ res =>
      rw [hr] at hassign
      cases hr' : tm₂.assignSchedule n with
      | error e =>
        rw [hr'] at hassign
        have hres : res = .error e := hassign
        rw [hres]
        exact rfl
      | ok st =>
        rw [hr'] at hassign
        obtain ⟨hslot₃, hres⟩ := hassign
        have hres' : res = .ok st.2 := hres
        rw [hres']
        dsimp only
        split_ifs
        · exact ⟨hslot₃, rfl⟩
        · exact ⟨(loads_slot _).trans hslot₃, rfl⟩

/-- From `mem` to `mem'` only fields in `P` are touched, and none is forgotten. -/
structure Touches (P : Nat × TaskField → Prop) (mem mem' : FieldMem) : Prop where
  old : ∀ p ∈ mem.touched, p ∈ mem'.touched
  new : ∀ p ∈ mem'.touched, p ∈ mem.touched ∨ P p

variable {P : Nat × TaskField → Prop}

theorem Touches.refl (mem : FieldMem) : Touches P mem mem where
  old _ hp := hp
  new _ hp := Or.inl hp

theorem Touches.trans (h : Touches P mem mem') (h' : Touches P mem' mem'') :
    Touches P mem mem'' where
  old p hp := h'.old p (h.old p hp)
  new p hp := by
    rcases h'.new p hp with hmid | hnew
    · exact h.new p hmid
    · exact Or.inr hnew

theorem Touches.touch (h : Touches P mem mem') (hp : P (i, f)) :
    Touches P mem (mem'.touch i f) := by
  apply h.trans
  refine ⟨fun p hold => List.mem_cons_of_mem _ hold, fun p hnew => ?_⟩
  rcases List.mem_cons.mp hnew with rfl | hold
  · exact Or.inr hp
  · exact Or.inl hold

theorem Touches.touchAll (h : Touches P mem mem') (hp : ∀ f, P (i, f)) :
    Touches P mem (mem'.touchAll i) :=
  (((((h.touch (hp _)).touch (hp _)).touch (hp _)).touch (hp _)).touch (hp _)).touch (hp _)

theorem Touches.write {t : Task} (h : Touches P mem mem') (hp : ∀ f, P (i, f)) :
    Touches P mem (mem'.write i t) where
  old := (h.touchAll hp).old
  new := (h.touchAll hp).new

theorem mem_touchAll (i : Nat) (f : TaskField) (mem : FieldMem) :
    (i, f) ∈ (mem.touchAll i).touched := by
  cases f <;> simp [FieldMem.touchAll, FieldMem.touch]

theorem findBad_touches {check : Nat → FieldMem → FieldMem × Bool}
    (hcheck : ∀ i mem, i < n → Touches P mem (check i mem).1) (mem : FieldMem) :
    Touches P mem (mem.findBad check n).1 := by
  apply foldl_range_invariant (P := fun st : FieldMem × Bool => Touches P mem st.1)
  · exact Touches.refl mem
  · intro st k hk h
    split_ifs
    · exact h
    · exact h.trans (hcheck k st.1 hk)

theorem checkStack_touches (hin : ∀ i < n, ∀ f, P (i, f)) (hi : i < n) (mem : FieldMem) :
    Touches P mem (checkStack i mem).1 :=
  (Touches.refl mem).touch (hin i hi _)

theorem checkPeriod_touches (hin : ∀ i < n, ∀ f, P (i, f)) (hi : i < n) (mem : FieldMem) :
    Touches P mem (checkPeriod i mem).1 := by
  have hread : Touches P mem ((mem.touch i T).touch i C) :=
    ((Touches.refl mem).touch (hin i hi _)).touch (hin i hi _)
  unfold checkPeriod
  dsimp only
  split_ifs
  · exact hread
  · exact hread.touch (hin i hi _)

theorem utilization_touches (hin : ∀ i < n, ∀ f, P (i, f)) (mem : FieldMem)
    (r : Except Fault Nat) :
    Touches P mem ((List.range n).foldl (addUtilization n) (mem, r)).1 := by
  apply foldl_range_invariant (P := fun st : FieldMem × Except Fault Nat => Touches P mem st.1)
  · exact Touches.refl mem
  · intro st k hk h
    obtain ⟨mem', res⟩ := st
    cases res with
    | error e => exact h
    | ok u =>
      have hread := (h.touch (hin k hk C)).touch (hin k hk T)
      unfold addUtilization
      dsimp only
      split_ifs
      · exact hread
      · exact (hread.touch (hin k hk B)).touch (hin k hk T)
      · exact hread

theorem loads_touches (hin : ∀ i < n, ∀ f, P (i, f)) (mem : FieldMem) :
    Touches P mem ((List.range n).foldl loadTask mem) := by
  apply foldl_range_invariant (P := Touches P mem)
  · exact Touches.refl mem
  · intro mem' k hk h
    exact ((h.touch (hin k hk _)).touch (hin k hk _)).touch (hin k hk _)

/-- A comparison reads two periods; only a swap touches the rest of the two descriptors. -/
theorem compareSwap_touches (hj : P (j, T)) (hj' : P (j + 1, T))
    (hswap : (mem.slot (j + 1)).T < (mem.slot j).T → ∀ f, P (j, f) ∧ P (j + 1, f)) :
    Touches P mem (mem.compareSwap j) := by
  have hread : Touches P mem ((mem.touch j T).touch (j + 1) T) :=
    ((Touches.refl mem).touch hj).touch hj'
  unfold compareSwap
  change Touches P mem (if (mem.slot (j + 1)).T < (mem.slot j).T then _ else _)
  split_ifs with hlt
  · have hfst : ∀ f, P (j, f) := fun f => (hswap hlt f).1
    have hsnd : ∀ f, P (j + 1, f) := fun f => (hswap hlt f).2
    exact (((hread.touchAll hfst).touchAll hsnd).write hfst).write hsnd
  · exact hread

/-- What the sort has touched, and what its last comparisons are going to need: the whole slot
after the array, or that no period exceeds the one there. -/
structure SortTouches (P : Nat × TaskField → Prop) (n : Nat) (mem mem' : FieldMem) : Prop where
  touches : Touches P mem mem'
  last : (∀ f, P (n, f)) ∨ ∀ i < n, (mem'.slot i).T ≤ (mem'.slot n).T

theorem SortTouches.compareSwap (h : SortTouches P n mem mem') (hin : ∀ i < n, ∀ f, P (i, f))
    (hafter : P (n, T)) (hj : j < n) : SortTouches P n mem (mem'.compareSwap j) where
  touches := by
    have hnext : P (j + 1, T) := by
      rcases Nat.lt_or_eq_of_le (show j + 1 ≤ n from hj) with hlt | heq
      · exact hin _ hlt T
      · rw [heq]
        exact hafter
    apply h.touches.trans
    apply compareSwap_touches (hin j hj T) hnext
    intro hlt f
    refine ⟨hin j hj f, ?_⟩
    rcases h.last with hall | hle
    · rcases Nat.lt_or_eq_of_le (show j + 1 ≤ n from hj) with hlow | heq
      · exact hin _ hlow f
      · rw [heq]
        exact hall f
    · exact hin _ (@BubbleSort.swap_below_last _ _ Task.T n j mem'.slot _ hle hj hlt) f
  last := by
    rw [compareSwap_slot]
    exact h.last.imp_right fun hle => BubbleSort.step_last hle hj

/-- The sort needs the period of the slot after the array, and the rest of that slot only if some
task has a longer one. -/
theorem sortTasks_touches (hin : ∀ i < n, ∀ f, P (i, f)) (hafter : P (n, T))
    (hlast : (∀ f, P (n, f)) ∨ ∀ i < n, (mem.slot i).T ≤ (mem.slot n).T) :
    Touches P mem (mem.sortTasks n) := by
  have hinv : SortTouches P n mem (mem.sortTasks n) := by
    apply sortOf_invariant ⟨Touches.refl mem, hlast⟩
    intro mem' j hj h
    exact h.compareSwap hin hafter hj
  exact hinv.touches

theorem compareSwap_reaches (mem : FieldMem) (j : Nat) :
    (j + 1, T) ∈ (mem.compareSwap j).touched ∧
      ((mem.slot (j + 1)).T < (mem.slot j).T → ∀ f, (j + 1, f) ∈ (mem.compareSwap j).touched) := by
  unfold compareSwap
  change _ ∈ (if (mem.slot (j + 1)).T < (mem.slot j).T then _ else _ : FieldMem).touched ∧
    (_ → ∀ f, _ ∈ (if (mem.slot (j + 1)).T < (mem.slot j).T then _ else _ : FieldMem).touched)
  split_ifs with hlt
  · have hall : ∀ f, (j + 1, f) ∈ (((((mem.touch j T).touch (j + 1) T).touchAll j).touchAll
        (j + 1)).write j (mem.slot (j + 1)) |>.touchAll (j + 1)).touched :=
      fun f => mem_touchAll (j + 1) f _
    exact ⟨hall T, fun _ f => hall f⟩
  · exact ⟨List.mem_cons_self, fun h => absurd h hlt⟩

/-- The last comparison of the first pass has the longest period of the tasks on its left. -/
theorem sortPass_reaches (mem : FieldMem) (m : Nat) :
    (m + 1, T) ∈ (mem.sortPass (m + 1)).touched ∧
      ((∃ i ≤ m, (mem.slot (m + 1)).T < (mem.slot i).T) →
        ∀ f, (m + 1, f) ∈ (mem.sortPass (m + 1)).touched) := by
  rw [sortPass, sortPassOf_succ]
  obtain ⟨hperiod, hswap⟩ := compareSwap_reaches (mem.sortPass m) m
  refine ⟨hperiod, fun hlong => hswap ?_⟩
  obtain ⟨i, hi, hlt⟩ := hlong
  have habove : BubbleSort.pass Task.T m mem.slot (m + 1) = mem.slot (m + 1) :=
    BubbleSort.pass_above (Nat.lt_succ_self m)
  have hlargest : (mem.slot i).T ≤ (BubbleSort.pass Task.T m mem.slot m).T :=
    BubbleSort.pass_largest hi
  have hpass : (mem.sortPass m).slot = BubbleSort.pass Task.T m mem.slot :=
    sortPassOf_slot compareSwap_slot m mem
  rw [hpass, habove]
  exact hlt.trans_le hlargest

theorem passes_touches (n k : Nat) (mem : FieldMem) :
    Touches (fun _ => True) mem ((sortPass n)^[k] mem) := by
  apply iterate_invariant (Touches.refl mem)
  intro mem' h
  apply foldl_range_invariant h
  intro mem₁ j _ h
  exact h.trans (compareSwap_touches trivial trivial fun _ _ => ⟨trivial, trivial⟩)

theorem sortTasks_reaches (hn : 0 < n) (mem : FieldMem) :
    (n, T) ∈ (mem.sortTasks n).touched ∧
      ((∃ i < n, (mem.slot n).T < (mem.slot i).T) → ∀ f, (n, f) ∈ (mem.sortTasks n).touched) := by
  obtain ⟨m, rfl⟩ : ∃ m, n = m + 1 := ⟨n - 1, by omega⟩
  have hfirst : mem.sortTasks (m + 1) = (sortPass (m + 1))^[m] (mem.sortPass (m + 1)) :=
    Function.iterate_succ_apply ..
  have hkeeps := (passes_touches (m + 1) m (mem.sortPass (m + 1))).old
  obtain ⟨hperiod, hall⟩ := sortPass_reaches mem m
  rw [hfirst]
  refine ⟨hkeeps _ hperiod, fun hlong f => hkeeps _ (hall ?_ f)⟩
  obtain ⟨i, hi, hlt⟩ := hlong
  exact ⟨i, Nat.le_of_lt_succ hi, hlt⟩

theorem assignSchedule_touches (hn : 2 ≤ n) (hin : ∀ i < n, ∀ f, P (i, f)) (mem : FieldMem) :
    Touches P (mem.sortTasks n) (mem.assignSchedule n).1 := by
  have hsum := utilization_touches hin (mem.sortTasks n) (.ok 0)
  unfold assignSchedule
  rw [if_neg (by omega)]
  cases hfold : (List.range n).foldl (addUtilization n) (mem.sortTasks n, .ok 0) with
  | mk mem₁ res =>
  rw [hfold] at hsum
  cases res with
  | error e => exact hsum
  | ok u => exact hsum

theorem assignSchedule_few (hn : n < 2) : mem.assignSchedule n = (mem, .ok 1) := by
  unfold assignSchedule
  rw [if_pos (by omega)]

/-- The descriptors after the two validation loops. -/
def validated (n : Nat) (tasks : Nat → Task) : FieldMem :=
  (findBad checkPeriod n (findBad checkStack n ⟨tasks, []⟩).1).1

theorem findBad_stack (n : Nat) (tasks : Nat → Task) :
    (findBad checkStack n ⟨tasks, []⟩).1.slot = tasks ∧
    ((findBad checkStack n ⟨tasks, []⟩).2 = true ↔
      ∃ i < n, validAddr (tasks i).stackPos 0 usrStartAddr usrEndAddr = false) := by
  refine ⟨checkStack_checks.findBad_slot n _, (checkStack_checks.findBad_iff n _).trans ?_⟩
  simp

theorem findBad_period (hslot : mem.slot = tasks) : (findBad checkPeriod n mem).1.slot = tasks ∧
    ((findBad checkPeriod n mem).2 = true ↔
      ∃ i < n, (tasks i).T < (tasks i).C ∨ (tasks i).T = 0) := by
  refine ⟨(checkPeriod_checks.findBad_slot n mem).trans hslot,
    (checkPeriod_checks.findBad_iff n mem).trans ?_⟩
  rw [hslot]
  simp

theorem validated_slot : (validated n tasks).slot = tasks :=
  (findBad_period (findBad_stack n tasks).1).1

theorem validated_touches (hin : ∀ i < n, ∀ f, P (i, f)) :
    Touches P ⟨tasks, []⟩ (validated n tasks) :=
  (findBad_touches (fun _ mem hi => checkStack_touches hin hi mem) _).trans
    (findBad_touches (fun _ mem hi => checkPeriod_touches hin hi mem) _)

theorem findBad_eq {check : Nat → FieldMem → FieldMem × Bool} {v : Bool}
    (h : (mem.findBad check n).2 = v) : mem.findBad check n = ((mem.findBad check n).1, v) := by
  rw [← h]

/-- The stack check finds nothing. -/
theorem findBad_stack_none
    (h : ¬ ∃ i < n, validAddr (tasks i).stackPos 0 usrStartAddr usrEndAddr = false) :
    findBad checkStack n ⟨tasks, []⟩ = ((findBad checkStack n ⟨tasks, []⟩).1, false) := by
  rw [← (findBad_stack n tasks).2, Bool.not_eq_true] at h
  exact findBad_eq h

theorem taskCreate_badStack (hn : n ≤ osMaxTasks - 2)
    (h : ∃ i < n, validAddr (tasks i).stackPos 0 usrStartAddr usrEndAddr = false) :
    taskCreate n ⟨tasks, []⟩ =
      ((findBad checkStack n ⟨tasks, []⟩).1, .ok (some (-Errno.eFault))) := by
  have hfound := findBad_eq ((findBad_stack n tasks).2.mpr h)
  unfold taskCreate
  rw [if_neg (Nat.not_lt.mpr hn), hfound]

theorem taskCreate_badPeriod (hn : n ≤ osMaxTasks - 2)
    (hstack : ¬ ∃ i < n, validAddr (tasks i).stackPos 0 usrStartAddr usrEndAddr = false)
    (h : ∃ i < n, (tasks i).T < (tasks i).C ∨ (tasks i).T = 0) :
    taskCreate n ⟨tasks, []⟩ = (validated n tasks, .ok (some (-Errno.eSched))) := by
  have hfound := findBad_eq ((findBad_period (findBad_stack n tasks).1).2.mpr h)
  unfold taskCreate
  rw [if_neg (Nat.not_lt.mpr hn), findBad_stack_none hstack]
  dsimp only
  rw [hfound]
  rfl

/-- A set that is not refused early goes to `assign_schedule`, and what comes after that stays in
the array. -/
theorem taskCreate_late (h : ¬ RefusedEarly tasks n) (hin : ∀ i < n, ∀ f, P (i, f)) :
    Touches P ((validated n tasks).assignSchedule n).1 (taskCreate n ⟨tasks, []⟩).1 := by
  obtain ⟨hn, hstack, hperiod⟩ : ¬ osMaxTasks - 2 < n ∧
      (¬ ∃ i < n, validAddr (tasks i).stackPos 0 usrStartAddr usrEndAddr = false) ∧
      ¬ ∃ i < n, (tasks i).T < (tasks i).C ∨ (tasks i).T = 0 := by
    unfold RefusedEarly at h
    rw [not_or, not_or] at h
    exact h
  rw [← (findBad_period (findBad_stack n tasks).1).2, Bool.not_eq_true] at hperiod
  have hfound := findBad_eq hperiod
  unfold taskCreate validated
  rw [if_neg hn, findBad_stack_none hstack]
  dsimp only
  rw [hfound]
  dsimp only
  cases ha : (findBad checkPeriod n (findBad checkStack n ⟨tasks, []⟩).1).1.assignSchedule n with
  | mk mem₃ res =>
  cases res with
  | error e => exact Touches.refl mem₃
  | ok v =>
    dsimp only
    split_ifs
    · exact Touches.refl mem₃
    · exact loads_touches hin mem₃

/-- An early refusal has read fields of the array only. -/
theorem taskCreate_early (hn : n ≤ osMaxTasks - 2) (h : RefusedEarly tasks n)
    (hin : ∀ i < n, ∀ f, P (i, f)) : Touches P ⟨tasks, []⟩ (taskCreate n ⟨tasks, []⟩).1 := by
  by_cases hstack : ∃ i < n, validAddr (tasks i).stackPos 0 usrStartAddr usrEndAddr = false
  · rw [taskCreate_badStack hn hstack]
    exact findBad_touches (fun _ mem hi => checkStack_touches hin hi mem) _
  · have hperiod : ∃ i < n, (tasks i).T < (tasks i).C ∨ (tasks i).T = 0 := by
      rcases h with hbig | hbad | hbad
      · omega
      · exact absurd hbad hstack
      · exact hbad
    rw [taskCreate_badPeriod hn hstack hperiod]
    exact validated_touches hin

/-- What `task_create` can touch: the array, and in the slot after it the period, and all of that
slot if some task has a longer period. -/
theorem taskCreate_touches (hn : n ≤ osMaxTasks - 2) (hin : ∀ i < n, ∀ f, P (i, f))
    (hafter : RefusedEarly tasks n ∨ n < 2 ∨
      (P (n, T) ∧ ((∀ f, P (n, f)) ∨ ∀ i < n, (tasks i).T ≤ (tasks n).T))) :
    ∀ p ∈ (taskCreate n ⟨tasks, []⟩).1.touched, P p := by
  have htouches : Touches P ⟨tasks, []⟩ (taskCreate n ⟨tasks, []⟩).1 := by
    by_cases hearly : RefusedEarly tasks n
    · exact taskCreate_early hn hearly hin
    · have hassign : Touches P (validated n tasks) ((validated n tasks).assignSchedule n).1 := by
        by_cases hfew : n < 2
        · rw [assignSchedule_few hfew]
          exact Touches.refl _
        · obtain ⟨hperiod, hlast⟩ := (hafter.resolve_left hearly).resolve_left hfew
          have hsort : Touches P (validated n tasks) ((validated n tasks).sortTasks n) := by
            apply sortTasks_touches hin hperiod
            rw [validated_slot]
            exact hlast
          exact hsort.trans (assignSchedule_touches (Nat.le_of_not_lt hfew) hin _)
      exact ((validated_touches hin).trans hassign).trans (taskCreate_late hearly hin)
  intro p hp
  rcases htouches.new p hp with hnone | hnew
  · cases hnone
  · exact hnew

/-- What it does touch of the slot after the array, if the set comes to the sort. -/
theorem taskCreate_reaches (h : ¬ RefusedEarly tasks n) (hn : 2 ≤ n) :
    (n, T) ∈ (taskCreate n ⟨tasks, []⟩).1.touched ∧
      ((∃ i < n, (tasks n).T < (tasks i).T) →
        ∀ f, (n, f) ∈ (taskCreate n ⟨tasks, []⟩).1.touched) := by
  have hany : ∀ i < n, ∀ f : TaskField, (fun _ => True) (i, f) := fun _ _ _ => trivial
  have hassign : Touches (fun _ => True) _ _ := assignSchedule_touches hn hany (validated n tasks)
  have hkeeps := (hassign.trans (taskCreate_late h hany)).old
  obtain ⟨hperiod, hall⟩ := sortTasks_reaches (show 0 < n by omega) (validated n tasks)
  rw [validated_slot] at hall
  exact ⟨hkeeps _ hperiod, fun hlong f => hkeeps _ (hall hlong f)⟩

theorem findBad_reaches (mem : FieldMem) (n : Nat) :
    (0, stackPos) ∈ (mem.findBad checkStack (n + 1)).1.touched := by
  induction n with
  | zero => exact List.mem_cons_self
  | succ n ih =>
    rw [findBad, findBadOf_succ]
    split_ifs
    · exact ih
    · exact List.mem_cons_of_mem _ ih

/-- The first descriptor of a set is read whatever the pointer is. -/
theorem taskCreate_reads_first (tasks : Nat → Task) (hn : n ≤ osMaxTasks - 2) (hpos : 0 < n) :
    (0, stackPos) ∈ (taskCreate n ⟨tasks, []⟩).1.touched := by
  obtain ⟨m, rfl⟩ : ∃ m, n = m + 1 := ⟨n - 1, by omega⟩
  have hfirst := findBad_reaches ⟨tasks, []⟩ m
  have hany : ∀ i < m + 1, ∀ f : TaskField, (fun _ => True) (i, f) := fun _ _ _ => trivial
  have hvalidated : Touches (fun _ => True) (findBad checkStack (m + 1) ⟨tasks, []⟩).1
      (validated (m + 1) tasks) :=
    findBad_touches (fun _ mem hi => checkPeriod_touches hany hi mem) _
  by_cases hstack : ∃ i < m + 1, validAddr (tasks i).stackPos 0 usrStartAddr usrEndAddr = false
  · rw [taskCreate_badStack hn hstack]
    exact hfirst
  · by_cases hperiod : ∃ i < m + 1, (tasks i).T < (tasks i).C ∨ (tasks i).T = 0
    · rw [taskCreate_badPeriod hn hstack hperiod]
      exact hvalidated.old _ hfirst
    · have hlate : ¬ RefusedEarly tasks (m + 1) := by
        rintro (hbig | hbad | hbad)
        · omega
        · exact hstack hbad
        · exact hperiod hbad
      have hassign : Touches (fun _ => True) (validated (m + 1) tasks)
          ((validated (m + 1) tasks).assignSchedule (m + 1)).1 := by
        by_cases hfew : m + 1 < 2
        · rw [assignSchedule_few hfew]
          exact Touches.refl _
        · exact (passes_touches (m + 1) (m + 1) _).trans
            (assignSchedule_touches (n := m + 1) (by omega) hany _)
      exact ((hvalidated.trans hassign).trans (taskCreate_late hlate hany)).old _ hfirst

end RtosKernel.FieldMem
