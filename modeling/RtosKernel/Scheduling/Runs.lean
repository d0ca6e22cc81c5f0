import RtosKernel.Kernel.Execute
import RtosKernel.Scheduling.Boot

namespace RtosKernel.KState

variable {K : TcbPtr → Prop} {ok : KState → Op → Prop} {s s' s₁ : KState} {c : TcbPtr} {n : Nat}

theorem Scheduled.interrupt (h : Scheduled K s c) (regs : SchedContext) :
    Scheduled K (s.interrupt regs) c where
  __ := h

theorem Step.mono {ok ok' : KState → Op → Prop} (hok : ∀ s op, ok s op → ok' s op)
    (h : Step ok s s') : Step ok' s s' := by
  cases h with
  | call regs call h₁ h₂ h₃ => exact .call regs call (hok _ _ h₁) h₂ h₃
  | timer regs millis h₁ h₂ => exact .timer regs millis (hok _ _ h₁) h₂

/-- A call is not made by the idle task. -/
theorem Scheduled.caller (h : Scheduled K s c) {op : Op}
    (hidle : ∀ call, op = .call call → s.curTcb ≠ some idleTcb) :
    ∀ call, op = .call call → c ≠ idleTcb := by
  intro call hcall hc
  exact hidle call hcall (h.cur.trans (congrArg some hc))

/-- The dispatch at the end of `task_create` starts the highest task of the new set. -/
theorem Disciplined.start (h : Disciplined K s) (tasks : Nat → Task) (hn : n ≤ 62) {next : TcbPtr}
    (hp : (s.installTasks tasks n).Picks next) :
    Scheduled (fun t => K t ∨ IsTask n t)
      (((s.installTasks tasks n).takeSlot (s.installTasks tasks n).rq.highestPrio
        next).ctxSwitchHalf next) next := by
  obtain ⟨hd, hidle⟩ := h.newSet tasks hn
  exact (hd.scheduled hp hidle).ctxSwitchHalf

theorem Booted.start {tasks : Nat → Task} {regs : SchedContext} (h : Booted s)
    (hc : Creates tasks n regs s s') : ∃ c, Scheduled (IsTask n) s' c := by
  obtain ⟨mem, next, hadm, hp, rfl⟩ := hc.dispatch
  have hs := (h.interrupt regs).disciplined.start mem.slot (taskAdmit_le hadm) hp
  rw [false_or_isTask] at hs
  exact ⟨next, hs.enableInterrupts⟩

/-- One step of a running task set, further `task_create` calls included. -/
theorem Scheduled.step (h : Scheduled K s c) (hst : Step ok s s') :
    ∃ K' c', Scheduled K' s' c' := by
  obtain ⟨regs, op, s₁, _, hidle, he, rfl⟩ := hst.entry (by rw [h.cur]; simp)
  have hi := h.interrupt regs
  by_cases hop : ∃ tasks n, op = .call (.taskCreate tasks n)
  · obtain ⟨tasks, n, rfl⟩ := hop
    cases he with
    | refuse _ v _ => exact ⟨K, c, (hi.ret _ v).enableInterrupts⟩
    | newSet _ _ next mem s₂ hadm hs hp =>
      subst hs
      exact ⟨_, next, (hi.start mem.slot (taskAdmit_le hadm) hp).enableInterrupts⟩
  · obtain ⟨c', hs⟩ := hi.entry (fun tasks n heq => hop ⟨tasks, n, heq⟩) (h.caller hidle) he
    exact ⟨K, c', hs.enableInterrupts⟩

/-- Without `task_create` the known TCBs stay the same. -/
theorem Scheduled.step_sameSet (h : Scheduled K s c) (hst : Step sameSet s s') :
    ∃ c', Scheduled K s' c' := by
  obtain ⟨regs, op, s₁, hop, hidle, he, rfl⟩ := hst.entry (by rw [h.cur]; simp)
  have hset : ∀ tasks n, op ≠ .call (.taskCreate tasks n) := by
    rintro tasks n rfl
    exact hop
  obtain ⟨c', hs⟩ := (h.interrupt regs).entry hset (h.caller hidle) he
  exact ⟨c', hs.enableInterrupts⟩

theorem Run.scheduled (h : Run ok n s) : ∃ K c, Scheduled K s c := by
  induction h with
  | start tasks regs hboot hc =>
    obtain ⟨c, hs⟩ := (Booted.of_boot hboot).start hc
    exact ⟨_, c, hs⟩
  | step _ hst ih =>
    obtain ⟨K, c, hs⟩ := ih
    exact hs.step hst

section NoNull

/-! No kernel entry dispatches a NULL TCB: the only failures are loops that do not end. -/

private theorem mutexEnqueue_error {m : Nat} {t : TcbPtr} {e : Fault}
    (h : s.mutexEnqueue m t = .error e) : e = .diverges := by
  unfold mutexEnqueue at h
  split at h
  · cases h
  · split at h
    · cases h; rfl
    · cases h

private theorem devEnqueue_error {d : Nat} {t : TcbPtr} {e : Fault}
    (h : s.devEnqueue d t = .error e) : e = .diverges := by
  unfold devEnqueue at h
  split at h
  · cases h
  · split at h
    · cases h; rfl
    · cases h

private theorem drain_error {fuel : Nat} {p : Option TcbPtr} {e : Fault}
    (h : drain fuel p s = .error e) : e = .diverges := by
  induction fuel generalizing p s with
  | zero =>
    cases p with
    | none => cases h
    | some t => cases h; rfl
  | succ fuel ih =>
    cases p with
    | none => cases h
    | some t =>
      rw [drain] at h
      exact ih h

private theorem devWake_error {millis : Nat} {e : Fault} (h : s.devWake millis = .error e) :
    e = .diverges := by
  refine foldlM_error (P := fun e => e = .diverges) ?_ h
  rintro ⟨a, flag⟩ i e' he
  unfold devSignal at he
  dsimp only at he
  split_ifs at he
  split at he
  · cases he
  · split at he
    · rename_i hd
      cases he
      exact drain_error hd
    · cases he

theorem taskAdmit_error {mem : TaskMem} {e : Fault} (h : taskAdmit n mem = .error e) :
    e = .divByZero := by
  unfold taskAdmit at h
  split_ifs at h
  split at h
  · cases h
  split at h
  · cases h
  split at h
  · rename_i hs
    cases h
    unfold TaskMem.assignSchedule at hs
    split_ifs at hs
    split at hs
    · rename_i hl
      cases hs
      refine foldlM_error (P := fun e => e = .divByZero) ?_ hl
      intro st i e' he
      unfold TaskMem.addUtilization at he
      dsimp only at he
      split_ifs at he
      cases he
      rfl
    · cases hs
  · cases h

private theorem dispatchSleep_noNull {k : Frame} {last : TcbPtr} (hcur : s.curTcb = some last)
    (hp : ∃ next, s.Picks next) : s.dispatchSleep k ≠ .error .nullTcb := by
  obtain ⟨next, hp⟩ := hp
  rw [dispatchSleep_eq hcur hp]
  simp

theorem Dispatchable.idle_picks (h : Dispatchable K s c) (hc : c ≠ idleTcb) :
    ∃ next, s.Picks next := by
  have hr := h.idleReady.resolve_left hc
  exact picks_of_occupied h.wf (p := idlePrio) ⟨by decide, by rw [hr]; simp⟩

private theorem Dispatchable.dispatchSave_noNull (h : Dispatchable K s c) (k : Frame) :
    s.dispatchSave k ≠ .error .nullTcb := by
  rw [dispatchSave_eq_sleep h.cur]
  exact dispatchSleep_noNull ((saveCur_curTcb s c).trans h.cur) h.saveCur_picks

theorem Disciplined.taskCreate_noNull (h : Disciplined K s) (tasks : Nat → Task) (n : Nat) :
    s.taskCreate tasks n ≠ .error .nullTcb := by
  unfold taskCreate
  split
  · rename_i e he
    rw [taskAdmit_error he]
    simp
  · simp
  · rename_i mem hadm
    have hd : Disciplined K s.disableInterrupts := { h with }
    obtain ⟨hnew, hidle⟩ := hd.newSet mem.slot (taskAdmit_le hadm)
    obtain ⟨next, hp⟩ := picks_of_occupied hnew.wf (p := RtosKernel.idlePrio)
      ⟨by decide, by rw [hidle]; simp⟩
    simp [allocateTasks, dispatchNosave, removeHighest_eq hp]

private theorem Scheduled.mutexLock_noNull (h : Scheduled K s c) (hc : c ≠ idleTcb) (mutex : Int) :
    s.mutexLock mutex ≠ .error .nullTcb := by
  have hd : Dispatchable K s.disableInterrupts c := { h.toDispatchable with }
  intro he
  simp only [mutexLock, hd.cur] at he
  split_ifs at he
  split at he
  · rename_i e hq
    cases he
    cases mutexEnqueue_error hq
  · rename_i s₁ hq
    have h₁ := hd.mutexEnqueue hc hq
    exact dispatchSleep_noNull h₁.cur (h₁.idle_picks hc) he

private theorem Scheduled.mutexUnlock_noNull (h : Scheduled K s c) (hc : c ≠ idleTcb)
    (mutex : Int) : s.mutexUnlock mutex ≠ .error .nullTcb := by
  have hd : Dispatchable K s.disableInterrupts c := { h.toDispatchable with }
  intro he
  simp only [mutexUnlock, hd.cur] at he
  split_ifs at he
  exact (hd.mutexHandOver hc).dispatchSave_noNull _ he

private theorem Scheduled.eventWait_noNull (h : Scheduled K s c) (hc : c ≠ idleTcb) (dev : Nat) :
    s.eventWait dev ≠ .error .nullTcb := by
  have hd : Dispatchable K s.disableInterrupts c := { h.toDispatchable with }
  intro he
  simp only [eventWait, devWait, hd.cur] at he
  split_ifs at he
  split at he
  · rename_i e hq
    cases he
    cases devEnqueue_error hq
  · rename_i s₁ hq
    have h₁ := hd.devEnqueue hc hq
    exact dispatchSleep_noNull h₁.cur (h₁.idle_picks hc) he

private theorem Scheduled.devUpdate_noNull (h : Scheduled K s c) (millis : Nat) :
    s.devUpdate millis ≠ .error .nullTcb := by
  have hd : Dispatchable K s.disableInterrupts c := { h.toDispatchable with }
  unfold devUpdate
  split
  · rename_i e hw
    rw [devWake_error hw]
    simp
  · rename_i s₁ flag hw
    split_ifs
    · exact (hd.devWake hw).1.dispatchSave_noNull _
    · simp

/-- A kernel entry of a running set never dispatches NULL. -/
theorem Scheduled.step_noNull (h : Scheduled K s c) {op : Op}
    (hidle : ∀ call, op = .call call → s.curTcb ≠ some idleTcb) (regs : SchedContext) :
    s.step regs op ≠ .error .nullTcb := by
  have hmap {r : Except Fault KState} (hr : r ≠ .error .nullTcb) :
      r.map KState.enableInterrupts ≠ .error .nullTcb := by
    cases r with
    | error e =>
      intro he
      cases he
      exact hr rfl
    | ok s₁ => simp [Except.map]
  have ht : Scheduled K (s.trap regs) c := { h with }
  cases op with
  | timer millis => exact hmap ((h.interrupt regs).devUpdate_noNull millis)
  | call call =>
    have hc : c ≠ idleTcb := h.caller hidle call rfl
    apply hmap
    cases call with
    | mutexCreate => simp [syscall]
    | mutexLock mutex => exact ht.mutexLock_noNull hc mutex
    | mutexUnlock mutex => exact ht.mutexUnlock_noNull hc mutex
    | eventWait dev => exact ht.eventWait_noNull hc dev
    | taskCreate tasks n => exact ht.taskCreate_noNull tasks n

/-- Nor does one before the first task set. -/
theorem Booted.step_noNull (h : Booted s) {op : Op} (hop : early op) (regs : SchedContext) :
    s.step regs op ≠ .error .nullTcb := by
  intro he
  cases op with
  | timer millis =>
    cases hr : (s.interrupt regs).devUpdate millis with
    | ok s₁ =>
      simp only [KState.step, hr, Except.map] at he
      cases he
    | error e =>
      simp only [KState.step, hr, Except.map, Except.error.injEq] at he
      subst he
      unfold devUpdate at hr
      split at hr
      · rename_i e hw
        cases hr
        cases devWake_error hw
      · rename_i s₁ flag hw
        have hb : Booted (s.interrupt regs).disableInterrupts := { h with }
        have hf : flag = false := (hb.devWake hw).2
        simp [hf] at hr
  | call call =>
    cases call with
    | mutexCreate => simp [KState.step, syscall, Except.map] at he
    | mutexLock m => exact hop
    | mutexUnlock m => exact hop
    | eventWait d => exact hop
    | taskCreate tasks n =>
      have hd : Disciplined (fun _ => False) (s.trap regs) := { h.disciplined with }
      cases hr : (s.trap regs).taskCreate tasks n with
      | ok s₁ =>
        simp only [KState.step, syscall, hr, Except.map] at he
        cases he
      | error e =>
        simp only [KState.step, syscall, hr, Except.map, Except.error.injEq] at he
        subst he
        exact hd.taskCreate_noNull tasks n hr

end NoNull

/-- The fixed-priority rule, in a state in which the kernel has returned to a task. -/
structure HighestRuns (s : KState) : Prop where
  /-- Every dispatcher removed a TCB from the smallest occupied slot. -/
  dispatched : ∀ q p t, .dispatch q p t ∈ s.log → q.runList p = some t ∧ ∀ r, q.Occupied r → p ≤ r
  idle : s.curTcb = some idleTcb ∨ s.rq.runList idlePrio = some idleTcb
  highest : ∃ c, s.curTcb = some c ∧ ∀ p, s.rq.Occupied p → (s.systemTcb c).curPrio < p
  /-- The next kernel entry will not dispatch NULL either. -/
  noNull : ∀ regs op, anySet s op → (∀ call, op = .call call → s.curTcb ≠ some idleTcb) →
    s.step regs op ≠ .error .nullTcb

theorem fixedPriority :
    (∀ s, Relation.ReflTransGen (Step bootOp) boot s → ∀ regs op, early op →
      s.step regs op ≠ .error .nullTcb) ∧
    ∀ n s, Run anySet n s → HighestRuns s := by
  constructor
  · intro s hboot regs op hop
    exact (Booted.of_boot hboot).step_noNull hop regs
  · intro n s h
    obtain ⟨K, c, hs⟩ := h.scheduled
    refine ⟨hs.picks, ?_, ⟨c, hs.cur, fun p hp => hs.order p hp.2⟩, ?_⟩
    · exact hs.idleReady.imp_left fun hc => hs.cur.trans (congrArg some hc)
    · intro regs op _ hidle
      exact hs.step_noNull hidle regs

theorem fixedPriority_preempted : ∃ s, Run anySet 2 s ∧ HighestRuns s := by
  have hx : ((startSet zeroContext 1 sampleTasks 2).bind (execute anySet zeroContext
      [.call (.eventWait 0), .call (.mutexLock 0), .timer 100,
        .call (.mutexUnlock 0)])).isSome = true := by decide +kernel
  obtain ⟨s, hs⟩ := Option.isSome_iff_exists.mp hx
  exact ⟨s, execute_run hs, fixedPriority.2 2 s (execute_run hs)⟩

end RtosKernel.KState
