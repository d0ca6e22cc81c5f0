import RtosKernel.Clock.Signals
import RtosKernel.Kernel.Execute
import RtosKernel.Scheduling.Returns

namespace RtosKernel.KState

/-- A run from `s₀` that has added `count` to the clock. Every step advances `time_syscall` by
less than the period of device `i`, and `time_syscall` has not wrapped. -/
inductive ClockRun (i : Nat) (s₀ : KState) : Nat → KState → Prop
  | start : ClockRun i s₀ 0 s₀
  | step {count k : Nat} {s s' : KState} (hr : ClockRun i s₀ count s)
      (h : ClockStep sameSet k s s') (hslow : s'.timeSyscall < s.timeSyscall + devFreq i)
      (hwrap : s'.systemTime * timerResolution < 2 ^ 32) : ClockRun i s₀ (count + k) s'

/-- The clock has counted `total` since it was zero. -/
structure ClockReads (total : Nat) (s : KState) : Prop where
  drift : s.timeDrift < ostmrCount
  total : s.systemTime * ostmrCount + s.timeDrift = total
  noWrap : s.systemTime * timerResolution < 2 ^ 32

variable {ok : KState → Op → Prop} {tasks : Nat → Task} {n i k total count : Nat}
  {regs : SchedContext} {s s' s₀ s₁ : KState} {op : Op}

/-- One carry is enough: the drift stays below a tick. -/
theorem updateTime_drift (oscr : Nat) (h : s.timeDrift < ostmrCount) :
    (s.updateTime oscr).timeDrift < ostmrCount := by
  have hd : s.timeDrift < 32500 := h
  have hmod : (s.timeDrift + oscr % 32500) % 2 ^ 32 = s.timeDrift + oscr % 32500 :=
    Nat.mod_eq_of_lt (by omega)
  unfold updateTime
  simp only [ostmrCount, hmod]
  split_ifs <;> simp only <;> omega

/-- Adding whole ticks and the rest adds the reading. -/
theorem add_total {t d p q r o : Nat} (ht : t * p + d = total) (ho : p * q + r = o) :
    (t + q) * p + (d + r) = total + o := by
  rw [Nat.add_mul, Nat.mul_comm q]
  omega

theorem carry_total {t d p q r o : Nat} (ht : t * p + d = total) (ho : p * q + r = o)
    (hc : d + r ≥ p) : (t + q + 1) * p + (d + r - p) = total + o := by
  rw [Nat.add_mul, Nat.add_mul, Nat.mul_comm q]
  omega

theorem updateTime_total {oscr : Nat} (h : ClockReads total s) (hosc : oscr < 2 ^ 32) :
    (s.updateTime oscr).systemTime * ostmrCount + (s.updateTime oscr).timeDrift =
      total + oscr := by
  have hd : s.timeDrift < 32500 := h.drift
  have ht : s.systemTime * 32500 + s.timeDrift = total := h.total
  have hw : s.systemTime * 10 < 2 ^ 32 := h.noWrap
  have hsplit := Nat.div_add_mod oscr 32500
  have hsys : (s.systemTime + oscr / 32500) % 2 ^ 32 = s.systemTime + oscr / 32500 :=
    Nat.mod_eq_of_lt (by omega)
  have hmod : (s.timeDrift + oscr % 32500) % 2 ^ 32 = s.timeDrift + oscr % 32500 :=
    Nat.mod_eq_of_lt (by omega)
  unfold updateTime
  simp only [ostmrCount, hsys, hmod]
  split_ifs with hcarry
  · have hinc : (s.systemTime + oscr / 32500 + 1) % 2 ^ 32 = s.systemTime + oscr / 32500 + 1 :=
      Nat.mod_eq_of_lt (by omega)
    change (s.systemTime + oscr / 32500 + 1) % 2 ^ 32 * 32500 +
      (s.timeDrift + oscr % 32500 - 32500) = total + oscr
    rw [hinc]
    exact carry_total ht hsplit hcarry
  · change (s.systemTime + oscr / 32500) * 32500 + (s.timeDrift + oscr % 32500) = total + oscr
    exact add_total ht hsplit

theorem Entry.known (he : Entry s op s₁) (h : s.curTcb ≠ none) : s₁.curTcb ≠ none := by
  cases he with
  | refuse => exact h
  | create => exact h
  | acquire => exact h
  | lockBlock => rw [switchTo_curTcb]; simp
  | unlock => rw [switchTo_curTcb]; simp
  | waitBlock => rw [switchTo_curTcb]; simp
  | newSet =>
    unfold ctxSwitchHalf
    rw [resume_curTcb]
    simp [takeSlot, emit]
  | tick millis _ hw => rw [(devWake_frame hw).1]; exact h
  | wake => rw [switchTo_curTcb]; simp

/-- What one step with the clock does, seen from device `i`: time passes, and if the match value
is reached the device is signalled. -/
structure Ticked (i k : Nat) (s s' : KState) : Prop where
  drift : s.timeDrift < ostmrCount → s'.timeDrift < ostmrCount
  reads : ∀ total, ClockReads total s →
    s'.systemTime * ostmrCount + s'.timeDrift = total + k
  fires : s.systemTime < (s.devices i).nextMatch →
    if (s.devices i).nextMatch ≤ s'.systemTime then
      (s'.devices i).nextMatch = ((s.devices i).nextMatch + devFreq i) % 2 ^ 32 ∧
        s'.signals i = s.signals i + 1
    else (s'.devices i).nextMatch = (s.devices i).nextMatch ∧ s'.signals i = s.signals i
  known : s.curTcb ≠ none → s'.curTcb ≠ none

theorem Ticked.of_sameClock (h : SameClock i s s') (hc : s.curTcb ≠ none → s'.curTcb ≠ none) :
    Ticked i 0 s s' where
  drift := by
    rw [h.timeDrift]
    exact id
  reads := by
    intro total ht
    rw [h.systemTime, h.timeDrift]
    exact ht.total
  fires := by
    intro hlt
    rw [if_neg (by rw [h.systemTime]; omega)]
    exact ⟨h.nextMatch, h.signals⟩
  known := hc

theorem ClockStep.ticked (h : ClockStep ok k s s')
    (hop : ∀ s call, ok s (.call call) → ∀ tasks n, call ≠ .taskCreate tasks n)
    (hcur : ∀ call, ok s (.call call) → s.curTcb = none → early (.call call))
    (hi : i < numDevices) : Ticked i k s s' := by
  cases h with
  | call regs call hok hidle hst =>
    obtain ⟨s₁, he, rfl⟩ := step_entry hst (hcur call hok)
    have hsame : SameClock i (s.interrupt regs) s₁ := he.sameClock (hop s call hok)
    exact .of_sameClock ⟨hsame.nextMatch, hsame.signals, hsame.systemTime, hsame.timeDrift⟩
      he.known
  | irq regs icpr oscr hosc hst =>
    by_cases hpend : icpr &&& (1 <<< intOstmr0) = 0
    · -- some other interrupt: the handler returns at once
      unfold KState.irq irqHandler at hst
      rw [if_pos hpend] at hst
      cases hst
      rw [counted, if_pos hpend]
      exact .of_sameClock ⟨rfl, rfl, rfl, rfl⟩ id
    · rw [irq_pending hpend] at hst
      rw [counted, if_neg hpend]
      obtain ⟨s₁, he, rfl⟩ := step_entry hst (fun _ => trivial)
      have hkeep : (s.updateTime oscr).devices = s.devices ∧
          (s.updateTime oscr).signals i = s.signals i ∧
          (s.updateTime oscr).curTcb = s.curTcb := by
        unfold updateTime
        simp only
        split_ifs <;> exact ⟨rfl, rfl, rfl⟩
      obtain ⟨hdev, hsig, hc⟩ := hkeep
      have htime : s₁.systemTime = (s.updateTime oscr).systemTime ∧
          s₁.timeDrift = (s.updateTime oscr).timeDrift := by
        have hs := he.signals hi
        split_ifs at hs <;> exact ⟨hs.systemTime, hs.timeDrift⟩
      refine ⟨?_, ?_, ?_, ?_⟩
      · intro hd
        have hdrift := updateTime_drift oscr hd
        rw [← htime.2] at hdrift
        exact hdrift
      · intro total ht
        have hread := updateTime_total ht hosc
        rw [← htime.1, ← htime.2] at hread
        exact hread
      · intro _
        have hs := he.signals hi
        rw [← htime.1] at hs
        change if ((s.updateTime oscr).devices i).nextMatch ≤ s₁.systemTime then _ else _ at hs
        rw [hdev] at hs
        change if (s.devices i).nextMatch ≤ s₁.systemTime then _ else _
        split_ifs at hs ⊢
        · exact ⟨by rw [← hdev]; exact hs.nextMatch, by rw [← hsig]; exact hs.signals⟩
        · exact ⟨by rw [← hdev]; exact hs.nextMatch, by rw [← hsig]; exact hs.signals⟩
      · intro hn
        apply he.known
        change (s.updateTime oscr).curTcb ≠ none
        rw [hc]
        exact hn

/-- Before the first task set only the clock and the mutex table change. -/
theorem boot_drift
    (h : Relation.ReflTransGen (fun s s' => ∃ k, ClockStep bootOp k s s') boot s) :
    s.timeDrift < ostmrCount := by
  induction h with
  | refl => decide
  | tail _ hst ih =>
    obtain ⟨k, hst⟩ := hst
    have htick := hst.ticked (i := 0) ?_ ?_ (by decide)
    · exact htick.drift ih
    · intro s call hok tasks n hc
      rw [hc] at hok
      exact hok
    · intro call hok _
      cases call with
      | mutexCreate => trivial
      | taskCreate tasks n => trivial
      | mutexLock m => exact hok
      | mutexUnlock m => exact hok
      | eventWait d => exact hok

/-- A new set starts with fresh match values and the clock as it was. -/
theorem Creates.clock (h : Creates tasks n regs s s') :
    s'.curTcb ≠ none ∧ s'.systemTime = s.systemTime ∧ s'.timeDrift = s.timeDrift ∧
      ∀ i < numDevices, (s'.devices i).nextMatch = devFreq i := by
  obtain ⟨mem, next, s₁, _, hn, rfl, _, _, rfl⟩ := h.fresh
  have hi := installTasks_installed mem.slot n hn (s.interrupt regs)
  refine ⟨by simp [takeSlot, emit], hi.time.1, hi.time.2, fun i hlt => ?_⟩
  have hdev := congrFun hi.dev i
  change (((s.interrupt regs).installTasks mem.slot n).devices i).nextMatch = _
  rw [hdev]
  change (if i < numDevices then _ else _ : Dev).nextMatch = _
  rw [if_pos hlt]

theorem devFreq_range (hi : i < numDevices) :
    0 < devFreq i ∧ devFreq i ≤ 9000 ∧ devFreq i % 10 = 0 := by
  have hall : ∀ j : Fin numDevices, 0 < devFreq j ∧ devFreq j ≤ 9000 ∧ devFreq j % 10 = 0 := by
    decide
  exact hall ⟨i, hi⟩

/-- A clock that moves by less than a period passes at most one multiple of it. -/
theorem div_advance {p t t' : Nat} (hp : 0 < p) (hle : t ≤ t') (hlt : t' < t + p) :
    t' / p = if p * (t / p + 1) ≤ t' then t / p + 1 else t / p := by
  have hmod := Nat.div_add_mod t p
  have hmodlt := Nat.mod_lt t hp
  split_ifs with hreach
  · apply Nat.div_eq_of_lt_le
    · rw [Nat.mul_comm]
      exact hreach
    · rw [Nat.succ_mul, Nat.mul_comm, Nat.mul_add]
      omega
  · apply Nat.div_eq_of_lt_le
    · rw [Nat.mul_comm]
      omega
    · rw [Nat.succ_mul, Nat.mul_comm]
      rw [Nat.mul_add] at hreach
      omega

/-- The law of the code: device `i` is signalled every `dev_freq[i]` ticks. -/
structure TickLaw (i : Nat) (s₀ : KState) (count : Nat) (s : KState) : Prop where
  known : s.curTcb ≠ none
  reads : ClockReads (s₀.timeDrift + count) s
  nextMatch : (s.devices i).nextMatch = devFreq i * (s.systemTime / devFreq i + 1)
  signals : s.signals i = s₀.signals i + s.systemTime / devFreq i

theorem ClockRun.tickLaw (hi : i < numDevices) (h0 : TickLaw i s₀ 0 s₀)
    (h : ClockRun i s₀ count s) : TickLaw i s₀ count s := by
  obtain ⟨hpos, hmax, _⟩ := devFreq_range hi
  induction h with
  | start => exact h0
  | step _ hst hslow hwrap ih =>
    rename_i count k s s' _
    have htick := hst.ticked (i := i) ?_ ?_ hi
    · have hread := htick.reads _ ih.reads
      have hdrift := htick.drift ih.reads.drift
      have hw' : s'.systemTime * 10 < 2 ^ 32 := hwrap
      have hw : s.systemTime * 10 < 2 ^ 32 := ih.reads.noWrap
      have hbefore : s.systemTime < (s.devices i).nextMatch := by
        rw [ih.nextMatch]
        exact Nat.lt_mul_div_succ _ hpos
      have hfire := htick.fires hbefore
      have hold : s.systemTime * 32500 + s.timeDrift = s₀.timeDrift + count := ih.reads.total
      have hnew : s'.systemTime * 32500 + s'.timeDrift = s₀.timeDrift + count + k := hread
      have hle : s.systemTime ≤ s'.systemTime := by
        have hd : s.timeDrift < 32500 := ih.reads.drift
        have hd' : s'.timeDrift < 32500 := hdrift
        omega
      have hlt : s'.systemTime < s.systemTime + devFreq i := by
        unfold timeSyscall at hslow
        rw [Nat.mod_eq_of_lt hw', Nat.mod_eq_of_lt hw] at hslow
        have hslow' : s'.systemTime * 10 < s.systemTime * 10 + devFreq i := hslow
        omega
      have hdiv := div_advance hpos hle hlt
      rw [ih.nextMatch] at hfire
      refine ⟨htick.known ih.known, ⟨hdrift, by rw [hread, Nat.add_assoc], hwrap⟩, ?_, ?_⟩
      · rw [hdiv]
        split_ifs at hfire ⊢ with hdue
        · rw [hfire.1, Nat.mod_eq_of_lt, ← Nat.mul_succ]
          omega
        · exact hfire.1
      · rw [hdiv]
        split_ifs at hfire ⊢ with hdue
        · rw [hfire.2, ih.signals]
          omega
        · rw [hfire.2, ih.signals]
    · intro s call hok tasks n hc
      rw [hc] at hok
      exact hok
    · intro call _ hn
      exact absurd hn ih.known

/-- Device `i` is signalled by the millisecond as long as its first event is not due. -/
theorem eventRate
    (hboot : Relation.ReflTransGen (fun s s' => ∃ k, ClockStep bootOp k s s') boot s)
    (h0 : s.systemTime = 0) (hc : Creates tasks n regs s s₀) (hi : i < numDevices)
    (h : ClockRun i s₀ count s') :
    s'.signals i = s₀.signals i + s'.timeSyscall / devFreq i ↔
      s.timeDrift + count < 3250 * devFreq i := by
  obtain ⟨hpos, hmax, hten⟩ := devFreq_range hi
  obtain ⟨hknown, htime, hdrift, hdev⟩ := hc.clock
  have hstart : TickLaw i s₀ 0 s₀ := by
    refine ⟨hknown, ⟨?_, ?_, ?_⟩, ?_, ?_⟩
    · rw [hdrift]
      exact boot_drift hboot
    · rw [htime, h0]
      omega
    · rw [htime, h0]
      decide
    · rw [hdev i hi, htime, h0]
      simp
    · rw [htime, h0]
      simp
  have hlaw := h.tickLaw hi hstart
  have htotal : s'.systemTime * 32500 + s'.timeDrift = s₀.timeDrift + count := hlaw.reads.total
  have hd : s'.timeDrift < 32500 := hlaw.reads.drift
  have hw : s'.systemTime * 10 < 2 ^ 32 := hlaw.reads.noWrap
  have hms : s'.timeSyscall = s'.systemTime * 10 := Nat.mod_eq_of_lt hw
  rw [hlaw.signals, hms, ← hdrift, ← htotal]
  constructor
  · intro heq
    by_contra hge
    have hfirst : 1 ≤ s'.systemTime * 10 / devFreq i :=
      (Nat.one_le_div_iff hpos).mpr (by omega)
    have hten' : s'.systemTime / devFreq i * 10 ≤ s'.systemTime * 10 / devFreq i := by
      apply (Nat.le_div_iff_mul_le hpos).mpr
      have hle := Nat.div_mul_le_self s'.systemTime (devFreq i)
      calc s'.systemTime / devFreq i * 10 * devFreq i
          = s'.systemTime / devFreq i * devFreq i * 10 := by ring
        _ ≤ s'.systemTime * 10 := Nat.mul_le_mul_right 10 hle
    omega
  · intro hlt
    have hzero : s'.systemTime / devFreq i = 0 := Nat.div_eq_of_lt (by omega)
    have hzero' : s'.systemTime * 10 / devFreq i = 0 := Nat.div_eq_of_lt (by omega)
    rw [hzero, hzero']

/-- Run timer interrupts with these OSCR readings; `none` when one is no step of a `ClockRun`. -/
def runIrqs (i : Nat) (regs : SchedContext) : List Nat → KState → Option KState
  | [], s => some s
  | oscr :: readings, s => match s.irq regs (1 <<< intOstmr0) oscr with
    | .ok s' =>
      if oscr < 2 ^ 32 ∧ s'.timeSyscall < s.timeSyscall + devFreq i ∧
          s'.systemTime * timerResolution < 2 ^ 32 then runIrqs i regs readings s'
      else none
    | .error _ => none

theorem runIrqs_run {readings : List Nat} (h : runIrqs i regs readings s = some s')
    (hr : ClockRun i s₀ count s) : ClockRun i s₀ (count + readings.sum) s' := by
  induction readings generalizing s count with
  | nil =>
    cases h
    exact hr
  | cons oscr readings ih =>
    rw [runIrqs] at h
    split at h
    · rename_i s₁ hirq
      split_ifs at h with hok
      have hstep : ClockStep sameSet (counted (1 <<< intOstmr0) oscr) s s₁ :=
        .irq regs _ oscr hok.1 hirq
      have hrun := ih h (.step hr hstep hok.2.1 hok.2.2)
      rw [List.sum_cons, ← Nat.add_assoc]
      exact hrun
    · cases h

theorem eventRate_firstTick : ∃ s₀ s', Creates sampleTasks 2 zeroContext boot s₀ ∧
    ClockRun 0 s₀ 32500 s' ∧ s'.signals 0 = s₀.signals 0 + s'.timeSyscall / devFreq 0 := by
  have hx : ((createSet zeroContext sampleTasks 2 boot).map
      fun s => (runIrqs 0 zeroContext [32500] s).isSome) = some true := by decide +kernel
  obtain ⟨s₀, hs, hv⟩ := Option.map_eq_some_iff.mp hx
  obtain ⟨s', hs'⟩ := Option.isSome_iff_exists.mp hv
  have hrun : ClockRun 0 s₀ 32500 s' := runIrqs_run hs' .start
  exact ⟨s₀, s', createSet_creates hs, hrun,
    (eventRate .refl rfl (createSet_creates hs) (by decide) hrun).mpr (by decide)⟩

/-- After 100 ms in two interrupts device 0 has not been signalled, though its period is 100. -/
theorem eventRate_missed : ∃ s₀ s', Creates sampleTasks 2 zeroContext boot s₀ ∧
    ClockRun 0 s₀ 325000 s' ∧ s'.timeSyscall = 100 ∧ devFreq 0 = 100 ∧
    s'.signals 0 = s₀.signals 0 := by
  have hx : ((createSet zeroContext sampleTasks 2 boot).map fun s =>
      (runIrqs 0 zeroContext [162500, 162500] s).map
        fun s' => (s'.timeSyscall, s.signals 0, s'.signals 0)) = some (some (100, 0, 0)) := by
    decide +kernel
  obtain ⟨s₀, hs, hv⟩ := Option.map_eq_some_iff.mp hx
  obtain ⟨s', hs', hv'⟩ := Option.map_eq_some_iff.mp hv
  simp only [Prod.mk.injEq] at hv'
  exact ⟨s₀, s', createSet_creates hs, runIrqs_run hs' .start, hv'.1, rfl,
    hv'.2.2.trans hv'.2.1.symm⟩

end RtosKernel.KState
