import RtosKernel.Clock.Signals
import RtosKernel.Kernel.Execute
import RtosKernel.Math.CarryCounter
import RtosKernel.Scheduling.Reachable

namespace RtosKernel.KState

/-- What a timer interrupt reads from OSCR; another interrupt does not read it. -/
def readings (icpr oscr : Nat) : List Nat := if icpr &&& (1 <<< intOstmr0) = 0 then [] else [oscr]

/-- A run from `s₀` of interrupts, and of system calls between them, with the readings of OSCR,
oldest first. -/
inductive IrqRun (s₀ : KState) : List Nat → KState → Prop
  | start : IrqRun s₀ [] s₀
  | irq {os : List Nat} {s s' : KState} (hr : IrqRun s₀ os s) (regs : SchedContext)
      (icpr oscr : Nat) (hosc : oscr < 2 ^ 32) (h : s.irq regs icpr oscr = .ok s') :
      IrqRun s₀ (os ++ readings icpr oscr) s'
  | call {os : List Nat} {s s' : KState} (hr : IrqRun s₀ os s) (regs : SchedContext) (c : Call)
      (h : s.step regs (.call c) = .ok s') : IrqRun s₀ os s'

/-- The clock has not moved. -/
structure SameTime (s s' : KState) : Prop where
  systemTime : s'.systemTime = s.systemTime
  timeDrift : s'.timeDrift = s.timeDrift

/-- The two counters of the clock are the registers of `c`. -/
structure Reads (c : CarryCounter ostmrCount (2 ^ 32)) (s : KState) : Prop where
  units : s.systemTime = c.units
  rest : s.timeDrift = c.rest

variable {c : CarryCounter ostmrCount (2 ^ 32)} {call : Call} {s s' s₀ s₁ : KState}
  {regs : SchedContext} {icpr oscr : Nat} {os : List Nat}

theorem SameTime.of_sameClock {i : Nat} (h : SameClock i s s') : SameTime s s' :=
  ⟨h.systemTime, h.timeDrift⟩

theorem SameTime.trans (h : SameTime s s') (h' : SameTime s' s₁) : SameTime s s₁ where
  systemTime := h'.systemTime.trans h.systemTime
  timeDrift := h'.timeDrift.trans h.timeDrift

theorem Reads.same (h : Reads c s) (ht : SameTime s s') : Reads c s' where
  units := ht.systemTime.trans h.units
  rest := ht.timeDrift.trans h.rest

/-- No kernel entry of a running task touches the clock. -/
theorem Entry.sameTime (he : Entry s (.call call) s₁) : SameTime s s₁ := by
  by_cases hset : ∃ tasks n, call = .taskCreate tasks n
  · obtain ⟨tasks, n, rfl⟩ := hset
    cases he with
    | refuse _ v _ => exact ⟨rfl, rfl⟩
    | newSet _ _ next mem s₂ hadm hs hp =>
      subst hs
      have hinst := (installTasks_installed mem.slot n (taskAdmit_le hadm) s).time
      have htake : SameTime (s.installTasks mem.slot n) _ := .of_sameClock (i := 0)
        (.takeSlot (s.installTasks mem.slot n).rq.highestPrio next _)
      have hhalf (s : KState) : SameTime s (s.ctxSwitchHalf next) := by
        have hregs : SameTime s { s with regs := (s.systemTcb next).context } := ⟨rfl, rfl⟩
        exact hregs.trans (.of_sameClock (i := 0) (.resume next _))
      exact SameTime.trans ⟨hinst.1, hinst.2⟩ (htake.trans (hhalf _))
  · exact .of_sameClock (i := 0) (he.sameClock fun tasks n hb => hset ⟨tasks, n, hb⟩)

/-- Nor does a call of `main` before the first task runs. -/
theorem syscall_noTask (h : syscall call s = .ok s') (hcur : s.curTcb = none)
    (hcall : ¬ early (.call call)) : SameTime s s' := by
  have hcur' : s.disableInterrupts.curTcb = none := hcur
  cases call with
  | mutexCreate => exact absurd trivial hcall
  | taskCreate tasks n => exact absurd trivial hcall
  | mutexLock mutex =>
    have hlock : s.mutexLock mutex = .ok s' := h
    unfold mutexLock at hlock
    simp only [hcur'] at hlock
    split_ifs at hlock
    · cases hlock
      exact ⟨rfl, rfl⟩
    · cases hlock
      exact ⟨rfl, rfl⟩
  | mutexUnlock mutex =>
    have hunlock : s.mutexUnlock mutex = .ok s' := h
    unfold mutexUnlock at hunlock
    simp only [hcur'] at hunlock
    split_ifs at hunlock
    all_goals
      cases hunlock
      exact ⟨rfl, rfl⟩
  | eventWait dev =>
    have hwait : s.eventWait dev = .ok s' := h
    unfold eventWait devWait at hwait
    simp only [hcur'] at hwait
    split_ifs at hwait
    cases hwait
    exact ⟨rfl, rfl⟩

theorem step_call_sameTime (h : s.step regs (.call call) = .ok s') : SameTime s s' := by
  by_cases hmain : s.curTcb = none ∧ ¬ early (.call call)
  · obtain ⟨s₁, hcall, rfl⟩ := map_eq_ok h
    have hsame : SameTime (s.trap regs) s₁ := syscall_noTask hcall hmain.1 hmain.2
    exact ⟨hsame.systemTime, hsame.timeDrift⟩
  · obtain ⟨s₁, he, rfl⟩ := step_entry h fun hnone => not_not.mp fun hb => hmain ⟨hnone, hb⟩
    have hsame : SameTime (s.interrupt regs) s₁ := he.sameTime
    exact ⟨hsame.systemTime, hsame.timeDrift⟩

/-- `dev_update` leaves the clock as the handler has set it. -/
theorem step_timer_sameTime {millis : Nat} (h : s.step regs (.timer millis) = .ok s') :
    SameTime s s' := by
  obtain ⟨s₁, he, rfl⟩ := step_entry h fun _ => trivial
  have hs := he.signals (i := 0) (by decide)
  split_ifs at hs
  · exact ⟨hs.systemTime, hs.timeDrift⟩
  · exact ⟨hs.systemTime, hs.timeDrift⟩

/-- The counters of the kernel add as the registers do: nothing overflows on the way. -/
theorem Reads.updateTime (h : Reads c s) (oscr : Nat) : Reads (c.add oscr) (s.updateTime oscr) := by
  have hrest : c.rest < 32500 := c.rest_lt
  have hdrift : (c.rest + oscr % 32500) % 2 ^ 32 = c.rest + oscr % 32500 :=
    Nat.mod_eq_of_lt (by omega)
  unfold CarryCounter.add KState.updateTime
  simp only [ostmrCount, h.units, h.rest, hdrift]
  by_cases hcarry : c.rest + oscr % 32500 < 32500
  · rw [if_neg (Nat.not_le.mpr hcarry), dif_pos hcarry]
    exact ⟨rfl, rfl⟩
  · rw [if_pos (Nat.le_of_not_lt hcarry), dif_neg hcarry]
    refine ⟨?_, rfl⟩
    show ((c.units + oscr / 32500) % 2 ^ 32 + 1) % 2 ^ 32 = (c.units + oscr / 32500 + 1) % 2 ^ 32
    rw [Nat.mod_add_mod]

/-- One interrupt adds what it reads from OSCR. -/
theorem Reads.irq (h : Reads c s) (hirq : s.irq regs icpr oscr = .ok s') :
    Reads ((readings icpr oscr).foldl CarryCounter.add c) s' := by
  unfold readings
  by_cases hpend : icpr &&& (1 <<< intOstmr0) = 0
  · rw [if_pos hpend]
    unfold KState.irq irqHandler at hirq
    rw [if_pos hpend] at hirq
    cases hirq
    exact ⟨h.units, h.rest⟩
  · rw [if_neg hpend]
    rw [irq_pending hpend] at hirq
    exact (h.updateTime oscr).same (step_timer_sameTime hirq)

/-- The clock of a run is the sum of its readings. -/
theorem IrqRun.reads (h : IrqRun s₀ os s) (ht : s₀.systemTime = 0) (hd : s₀.timeDrift = 0) :
    Reads (.ofTotal ostmrCount (2 ^ 32) os.sum) s := by
  induction h with
  | start => exact ⟨ht, hd⟩
  | irq _ regs icpr oscr _ h ih =>
    have hread := ih.irq h
    unfold readings at hread ⊢
    split_ifs at hread ⊢
    · rw [List.append_nil]
      exact hread
    · rw [List.foldl_cons, List.foldl_nil, CarryCounter.add_ofTotal] at hread
      rw [List.sum_append, List.sum_singleton]
      exact hread
  | call _ regs c h ih => exact ih.same (step_call_sameTime h)

/-- The clock loses no count of the timer: its drift and its ticks are the rest and the quotient
of all that was read from OSCR, and an interrupt that is not the timer's leaves both. -/
theorem countsKept (h : IrqRun s₀ os s) (ht : s₀.systemTime = 0) (hd : s₀.timeDrift = 0) :
    s.timeDrift = os.sum % ostmrCount ∧ s.systemTime = os.sum / ostmrCount % 2 ^ 32 ∧
    s.timeSyscall = timerResolution * s.systemTime % 2 ^ 32 ∧
    ∀ icpr oscr s', icpr &&& (1 <<< intOstmr0) = 0 → s.irqHandler icpr oscr = .ok s' →
      s'.systemTime = s.systemTime ∧ s'.timeDrift = s.timeDrift := by
  have hread := h.reads ht hd
  refine ⟨hread.rest, hread.units, ?_, fun icpr oscr s' hother hirq => ?_⟩
  · unfold timeSyscall
    rw [Nat.mul_comm]
  · unfold irqHandler at hirq
    rw [if_pos hother] at hirq
    cases hirq
    exact ⟨rfl, rfl⟩

/-- Handle interrupts that find these values in ICPR and OSCR. -/
def execIrqs (regs : SchedContext) : List (Nat × Nat) → KState → Option KState
  | [], s => some s
  | (icpr, oscr) :: irqs, s => match s.irq regs icpr oscr with
    | .ok s' => if oscr < 2 ^ 32 then execIrqs regs irqs s' else none
    | .error _ => none

theorem execIrqs_run {irqs : List (Nat × Nat)} (h : execIrqs regs irqs s = some s')
    (hr : IrqRun s₀ os s) : IrqRun s₀ (os ++ irqs.flatMap fun i => readings i.1 i.2) s' := by
  induction irqs generalizing s os with
  | nil =>
    cases h
    rw [List.flatMap_nil, List.append_nil]
    exact hr
  | cons i irqs ih =>
    obtain ⟨icpr, oscr⟩ := i
    rw [execIrqs] at h
    split at h
    · rename_i s₁ hirq
      split_ifs at h with hosc
      rw [List.flatMap_cons, ← List.append_assoc]
      exact ih h (hr.irq regs icpr oscr hosc hirq)
    · cases h

/-- Two timer interrupts, with another one in between: the rests make up a second tick. -/
theorem countsKept_carry : ∃ s, IrqRun boot [40000, 40000] s ∧
    s.timeDrift = [40000, 40000].sum % ostmrCount ∧
    s.systemTime = [40000, 40000].sum / ostmrCount % 2 ^ 32 := by
  have hx : (execIrqs zeroContext [(1 <<< intOstmr0, 40000), (1, 7), (1 <<< intOstmr0, 40000)]
      boot).isSome = true := by decide +kernel
  obtain ⟨s, hs⟩ := Option.isSome_iff_exists.mp hx
  have hrun : IrqRun boot [40000, 40000] s := execIrqs_run hs .start
  exact ⟨s, hrun, (countsKept hrun rfl rfl).1, (countsKept hrun rfl rfl).2.1⟩

end RtosKernel.KState
