import RtosKernel.Kernel.Execute
import RtosKernel.Scheduling.NewSet
import RtosKernel.TaskSets.Schedule

namespace RtosKernel

open TaskMem KState

/-- The first `n` slots are the first `n` tasks by period, equal periods in the given order. -/
def ByPeriod (n : Nat) (tasks slot : Nat → Task) : Prop :=
  ∃ σ : Equiv.Perm (Fin n), (∀ i : Fin n, slot i = tasks (σ i)) ∧
    ∀ i j : Fin n, i < j → (slot i).T < (slot j).T ∨ ((slot i).T = (slot j).T ∧ σ i < σ j)

/-- The task in slot `i` is TCB `i + 1`, at priority `i + 1`. -/
def InstalledAs (n : Nat) (slot : Nat → Task) (s : KState) : Prop :=
  ∀ (i : Nat) (t : TcbPtr), i < n → t.val = i + 1 →
    (s.systemTcb t).nativePrio = i + 1 ∧ (s.systemTcb t).curPrio = i + 1 ∧
    (s.systemTcb t).context.r4 = .val (slot i).lambda ∧
    (s.systemTcb t).context.r5 = .val (slot i).data ∧
    (s.systemTcb t).context.r6 = .val (slot i).stackPos

/-- `assign_schedule` has left `mem`, with exactly the caller's tasks in order of their
periods, and these have been installed. -/
structure RateMonotonic (n : Nat) (tasks : Nat → Task) (mem : TaskMem) (s : KState) : Prop where
  assigned : assignSchedule n ⟨tasks, [], []⟩ = .ok (mem, 1)
  order : ByPeriod n tasks mem.slot
  writes : ∀ i ∈ mem.writes, i < n
  installed : InstalledAs n mem.slot s

variable {tasks : Nat → Task} {n : Nat} {regs : SchedContext} {s s' : KState} {mem : TaskMem}

/-- If no period exceeds that of the slot after the array, the sort stays inside it. -/
theorem byPeriod_of_le (h : ∀ i < n, (tasks i).T ≤ (tasks n).T) :
    ByPeriod n tasks (BubbleSort.sort (·.T) n tasks) := by
  obtain ⟨σ, hσ⟩ := BubbleSort.sort_arranged Task.T n tasks
  have hlast : σ n = n :=
    hσ.last_fixed (fun i hi => BubbleSort.sort_sorted Task.T tasks hi (Nat.le_refl n)) h
  obtain ⟨τ, hτ⟩ := hσ.restrict hlast
  refine ⟨τ, fun i => ?_, fun i j hij => ?_⟩
  · rw [hτ]
    exact hσ.eq i
  · have hle := BubbleSort.sort_sorted Task.T tasks hij (Nat.le_of_lt j.isLt)
    rcases Nat.lt_or_eq_of_le hle with hlt | heq
    · exact Or.inl hlt
    · have hst := hσ.stable i j hij heq
      rw [← hτ, ← hτ] at hst
      exact Or.inr ⟨heq, hst⟩

/-- If the sort stays inside the array, no period exceeds that of the slot after it. -/
theorem ByPeriod.le (h : ByPeriod n tasks (BubbleSort.sort (·.T) n tasks)) (i : Nat)
    (hi : i < n) : (tasks i).T ≤ (tasks n).T := by
  obtain ⟨σ, hσ⟩ := BubbleSort.sort_arranged Task.T n tasks
  obtain ⟨τ, hτ, _⟩ := h
  have hlast := hσ.last_eq hτ
  obtain ⟨j, hj⟩ := τ.surjective ⟨i, hi⟩
  have hji := hτ j
  rw [hj] at hji
  change _ = tasks i at hji
  rw [← hji, ← hlast]
  exact BubbleSort.sort_sorted Task.T tasks j.isLt (Nat.le_refl n)

theorem KState.Creates.installedAs (h : Creates tasks n regs s s') :
    ∃ mem, taskAdmit n ⟨tasks, [], []⟩ = .ok (mem, none) ∧ InstalledAs n mem.slot s' := by
  obtain ⟨mem, next, s₁, hadm, hn, rfl, _, _, rfl⟩ := h.fresh
  refine ⟨mem, hadm, fun i t hi ht => ?_⟩
  have htcb := (installTasks_installed mem.slot n hn (s.interrupt regs)).tcb t
  have hidle : t ≠ idleTcb := by
    intro hb
    have hv : t.val = 63 := congrArg Fin.val hb
    omega
  have hk : IsTask n t := Or.inl ⟨by omega, by omega⟩
  have hti : t.val - 1 = i := by omega
  rw [if_pos hk, initTcb, if_neg hidle, hti] at htcb
  change (((s.interrupt regs).installTasks mem.slot n).systemTcb t).nativePrio = _ ∧
    (((s.interrupt regs).installTasks mem.slot n).systemTcb t).curPrio = _ ∧
    (((s.interrupt regs).installTasks mem.slot n).systemTcb t).context.r4 = _ ∧
    (((s.interrupt regs).installTasks mem.slot n).systemTcb t).context.r5 = _ ∧
    (((s.interrupt regs).installTasks mem.slot n).systemTcb t).context.r6 = _
  rw [htcb]
  exact ⟨rfl, rfl, rfl, rfl, rfl⟩

/-- A new set of two tasks or more: the sort always reads the slot after the array, and the rest
of rate-monotonic installation depends on the period found there. -/
theorem rateMonotonic (hn : 2 ≤ n) (h : Creates tasks n regs s s') :
    (¬ ∃ mem, RateMonotonic n tasks mem s' ∧ ∀ i ∈ mem.reads, i < n) ∧
    ((∃ mem, RateMonotonic n tasks mem s') ↔ ∀ i < n, (tasks i).T ≤ (tasks n).T) := by
  constructor
  · intro hb
    obtain ⟨mem, hrm, hreads⟩ := hb
    have ha := assignSchedule_ok hn hrm.assigned
    exact absurd (hreads n (ha.reads n (sortTasks_reads (by omega) _))) (Nat.lt_irrefl n)
  · constructor
    · intro hb i hi
      obtain ⟨mem, hrm⟩ := hb
      have horder := hrm.order
      rw [(assignSchedule_ok hn hrm.assigned).slot] at horder
      exact horder.le i hi
    · intro hle
      obtain ⟨mem, hadm, hinst⟩ := h.installedAs
      obtain ⟨mem', hassign, hslot⟩ := assignSchedule_of_admit hn hadm
      have ha := assignSchedule_ok hn hassign
      refine ⟨mem', hassign, ?_, ?_, ?_⟩
      · rw [ha.slot]
        exact byPeriod_of_le hle
      · rw [ha.writes]
        exact sortTasks_writes hle (by simp)
      · rw [hslot]
        exact hinst

/-- Two tasks with their periods in order, and after the array a third with a shorter one. -/
def strayTasks (i : Nat) : Task := { sampleTasks i with T := if i = 2 then 50 else 100 * (i + 1) }

theorem rateMonotonic_sample : ∃ s', Creates sampleTasks 2 zeroContext boot s' ∧
    (¬ ∃ mem, RateMonotonic 2 sampleTasks mem s' ∧ ∀ i ∈ mem.reads, i < 2) ∧
    ∃ mem, RateMonotonic 2 sampleTasks mem s' := by
  have hx : (createSet zeroContext sampleTasks 2 boot).isSome = true := by decide +kernel
  obtain ⟨s', hs⟩ := Option.isSome_iff_exists.mp hx
  obtain ⟨hreads, hiff⟩ := rateMonotonic (by decide) (createSet_creates hs)
  exact ⟨s', createSet_creates hs, hreads, hiff.mpr (by decide)⟩

/-- The stray descriptor is installed in place of the caller's second task. -/
theorem strayTasks_installed : ∃ s', Creates strayTasks 2 zeroContext boot s' ∧
    (s'.systemTcb 1).context.r5 = .val 2 ∧
    ¬ ∃ mem, RateMonotonic 2 strayTasks mem s' ∧ ∀ i ∈ mem.reads, i < 2 := by
  have hx : (createSet zeroContext strayTasks 2 boot).map
      (fun s => (s.systemTcb 1).context.r5) = some (.val 2) := by decide +kernel
  obtain ⟨s', hs, hr5⟩ := Option.map_eq_some_iff.mp hx
  refine ⟨s', createSet_creates hs, hr5, fun hb => ?_⟩
  obtain ⟨mem, hrm, _⟩ := hb
  have horder := hrm.order
  rw [(assignSchedule_ok (by decide) hrm.assigned).slot] at horder
  exact absurd (horder.le 1 (by decide)) (by decide)

end RtosKernel
