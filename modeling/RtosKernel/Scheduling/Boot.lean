import RtosKernel.Scheduling.FixedPriority

namespace RtosKernel.KState

/-- Before the first task set: no TCB is in use and every kernel pointer is NULL. -/
structure Booted (s : KState) : Prop where
  rq : s.rq = RunQueue.runqueueInit
  cur : s.curTcb = none
  tcb : s.systemTcb = bss.systemTcb
  mutex : ∀ m, (s.gtMutex m).bLock = false ∧ (s.gtMutex m).pHoldingTcb = none ∧
    (s.gtMutex m).pSleepQueue = none
  device : ∀ d, (s.devices d).sleepQ = none
  log : ∀ e ∈ s.log, (∃ d, e = .signal d) ∨ ∃ call v, e = .returned none call v

variable {K : TcbPtr → Prop} {s s' : KState} {c : TcbPtr} {n : Nat}

theorem boot_booted : Booted boot where
  rq := rfl
  cur := rfl
  tcb := rfl
  mutex := by
    intro m
    change ((if m < osNumMutex then _ else _ : Mutex)).bLock = false ∧ _
    simp only [boot, mutexInit]
    split_ifs <;> exact ⟨rfl, rfl, rfl⟩
  device := fun _ => rfl
  log := by simp [boot, mutexInit, bss]

namespace Booted

theorem ret (h : Booted s) (call : Call) (v : Int) : Booted (s.ret call v) where
  __ := h
  log := by
    intro e he
    rcases List.mem_cons.mp he with rfl | he
    · exact Or.inr ⟨call, v, by rw [h.cur]⟩
    · exact h.log e he

theorem advance (h : Booted s) (i : Nat) : Booted (s.advance i) where
  __ := h
  device := by
    intro d
    change (Function.update s.devices i _ d).sleepQ = none
    by_cases hd : d = i
    · subst hd
      rw [Function.update_self]
      exact h.device d
    · rw [Function.update_of_ne hd]
      exact h.device d
  log := by
    intro e he
    rcases List.mem_cons.mp he with rfl | he
    · exact Or.inl ⟨i, rfl⟩
    · exact h.log e he

/-- With no sleepers a timer interrupt only advances match values. -/
theorem devWake {millis : Nat} {r : KState × Bool} (h : Booted s)
    (hw : s.devWake millis = .ok r) : Booted r.1 ∧ r.2 = false := by
  refine foldlM_range_invariant (P := fun _ st => Booted st.1 ∧ st.2 = false) ⟨h, rfl⟩ ?_ hw
  rintro i ⟨a, flag⟩ st' _ ⟨ha, hf⟩ hst
  have ha' : Booted a := ha
  rcases devSignal_ok hst with ⟨_, rfl⟩ | ⟨_, _, rfl⟩ | ⟨head, s₁, _, hq, _, rfl⟩
  · exact ⟨ha, hf⟩
  · exact ⟨ha'.advance i, hf⟩
  · rw [ha'.device i] at hq
    cases hq

theorem entry {op : Op} (h : Booted s) (he : Entry s op s') (hop : bootOp s op) : Booted s' := by
  cases he with
  | refuse call v _ => exact h.ret call v
  | create i _ _ =>
    have hm : Booted (s.setMutex i fun x => { x with bAvailable := false }) :=
      { h with
        mutex := by
          intro m
          change (Function.update s.gtMutex i _ m).bLock = false ∧
            (Function.update s.gtMutex i _ m).pHoldingTcb = none ∧
            (Function.update s.gtMutex i _ m).pSleepQueue = none
          by_cases hi : m = i
          · subst hi
            rw [Function.update_self]
            exact h.mutex m
          · rw [Function.update_of_ne hi]
            exact h.mutex m }
    exact hm.ret _ _
  | tick millis s₁ hw => exact (h.devWake hw).1
  | wake millis t next s₁ s₂ hw ht _ _ =>
    rw [(h.devWake hw).1.cur] at ht
    cases ht
  | acquire => exact absurd hop id
  | lockBlock => exact absurd hop id
  | unlock => exact absurd hop id
  | waitBlock => exact absurd hop id
  | newSet => exact absurd hop id

theorem interrupt (h : Booted s) (regs : SchedContext) : Booted (s.interrupt regs) where
  __ := h

theorem enableInterrupts (h : Booted s) : Booted s.enableInterrupts where
  __ := h

theorem step (h : Booted s) (hs : Step bootOp s s') : Booted s' := by
  cases hs with
  | call regs call hop _ hst =>
    have hmc : call = .mutexCreate := by
      cases call <;> first | rfl | exact absurd hop id
    subst hmc
    obtain ⟨s₁, he, rfl⟩ := step_entry hst (fun _ => trivial)
    exact ((h.interrupt regs).entry he hop).enableInterrupts
  | timer regs millis hop hst =>
    obtain ⟨s₁, he, rfl⟩ := step_entry hst (fun _ => trivial)
    exact ((h.interrupt regs).entry he hop).enableInterrupts

/-- Whatever `main` does before `task_create`, the kernel is still in its boot state. -/
theorem of_boot (h : Relation.ReflTransGen (Step bootOp) boot s) : Booted s := by
  induction h with
  | refl => exact boot_booted
  | tail _ hs ih => exact ih.step hs

theorem disciplined (h : Booted s) : Disciplined (fun _ => False) s where
  wf := by rw [h.rq]; exact RunQueue.wf_init
  slot := by
    intro p t ht
    rw [h.rq] at ht
    cases ht
  pos := fun _ hk => hk.elim
  native := fun _ hk => hk.elim
  prio := fun _ hk => hk.elim
  waiter := by
    intro m t ht
    rw [(h.mutex m).2.2] at ht
    cases ht
  mutexNext := by
    intro t u hu
    rw [h.tcb] at hu
    cases hu
  sleeper := by
    intro d t ht
    rw [h.device d] at ht
    cases ht
  sleepNext := by
    intro t u hu
    rw [h.tcb] at hu
    cases hu
  idlePrio := fun hk => hk.elim
  idlePending := fun hk => hk.elim
  idleFrame := fun hk => hk.elim
  picks := by
    intro q p t hm
    rcases h.log _ hm with ⟨d, hd⟩ | ⟨call, v, hv⟩
    · cases hd
    · cases hv

end Booted

/-- `task_create` restarts the discipline: the TCBs of the new set join those already known. -/
theorem Disciplined.newSet (h : Disciplined K s) (tasks : Nat → Task) (hn : n ≤ 62) :
    Disciplined (fun t => K t ∨ IsTask n t) (s.installTasks tasks n) ∧
      (s.installTasks tasks n).rq.runList RtosKernel.idlePrio = some idleTcb := by
  have hi := installTasks_installed tasks n hn s
  have hprio (t : TcbPtr) (ht : IsTask n t) (x : Tcb) :
      (initTcb tasks n t x).nativePrio = t.val ∧ (initTcb tasks n t x).curPrio = t.val := by
    unfold initTcb
    split_ifs with he
    · subst he
      exact ⟨rfl, rfl⟩
    · have hpos := ht.pos
      have hback : t.val - 1 + 1 = t.val := by omega
      exact ⟨hback, hback⟩
  have hclear (t : TcbPtr) (x : Tcb) : (initTcb tasks n t x).sleepQueue = none ∧
      (initTcb tasks n t x).mutexSleepQueue = none ∧ (initTcb tasks n t x).pending = 0 := by
    unfold initTcb
    split_ifs <;> exact ⟨rfl, rfl, rfl⟩
  have hslot : (s.installTasks tasks n).rq.runList RtosKernel.idlePrio = some idleTcb :=
    (hi.slot _ _).mpr ⟨rfl, isTask_idle n⟩
  refine ⟨?_, hslot⟩
  refine
    { wf := hi.wf, slot := ?_, pos := ?_, native := ?_, prio := ?_, waiter := ?_, mutexNext := ?_
      sleeper := ?_, sleepNext := ?_, idlePrio := ?_, idlePending := ?_, idleFrame := ?_
      picks := ?_ }
  · intro p t ht
    obtain ⟨hv, hk⟩ := (hi.slot p t).mp ht
    exact ⟨hv, Or.inr hk⟩
  · intro t hk
    exact hk.elim (h.pos t) (fun ht => ht.pos)
  · intro t hk
    rw [hi.tcb]
    split_ifs with ht
    · exact (hprio t ht _).1
    · exact h.native t (hk.resolve_right ht)
  · intro t hk
    rw [hi.tcb]
    split_ifs with ht
    · exact Or.inr (hprio t ht _).2
    · exact h.prio t (hk.resolve_right ht)
  · intro m t ht
    rw [hi.mutex] at ht
    exact (h.waiter m t ht).imp_left Or.inl
  · intro t u hu
    rw [hi.tcb] at hu
    split_ifs at hu with ht
    · rw [(hclear t _).2.1] at hu
      cases hu
    · exact (h.mutexNext t u hu).imp_left Or.inl
  · intro d t ht
    rw [hi.dev] at ht
    change (if d < numDevices then (⟨none, devFreq d⟩ : Dev) else s.devices d).sleepQ = _ at ht
    split_ifs at ht
    exact (h.sleeper d t ht).imp_left Or.inl
  · intro t u hu
    rw [hi.tcb] at hu
    split_ifs at hu with ht
    · rw [(hclear t _).1] at hu
      cases hu
    · exact (h.sleepNext t u hu).imp_left Or.inl
  · intro _
    rw [hi.tcb, if_pos (isTask_idle n)]
    exact (hprio idleTcb (isTask_idle n) _).2
  · intro _
    rw [hi.tcb, if_pos (isTask_idle n), (hclear idleTcb _).2.2]
    decide
  · intro _ m
    rw [hi.frame, if_pos (isTask_idle n)]
    simp
  · intro q p t hm
    obtain ⟨l, hl, hadd⟩ := hi.log
    rw [hl] at hm
    rcases List.mem_append.mp hm with hm | hm
    · obtain ⟨u, r, he⟩ := hadd _ hm
      cases he
    · exact h.picks q p t hm

theorem Scheduled.ctxSwitchHalf (h : Scheduled K s c) : Scheduled K (s.ctxSwitchHalf c) c := by
  have hr : Scheduled K { s with regs := (s.systemTcb c).context } c := { h with }
  exact hr.resume

end RtosKernel.KState
