import RtosKernel.Kernel.System

namespace RtosKernel.KState

/-- A NULL-free dispatch from `s`: `next` sits in the slot `highest_prio` names. -/
structure Picks (s : KState) (next : TcbPtr) : Prop where
  slot : s.rq.runList s.rq.highestPrio = some next

theorem removeHighest_ok {s : KState} {r : KState × TcbPtr} (h : s.removeHighest = .ok r) :
    s.Picks r.2 ∧ r.1 = s.takeSlot s.rq.highestPrio r.2 := by
  unfold removeHighest at h
  simp only [RunQueue.runqueueRemove_tcb] at h
  cases hslot : s.rq.runList s.rq.highestPrio with
  | none => simp [hslot] at h
  | some next =>
    simp only [hslot, Except.ok.injEq] at h
    subst h
    exact ⟨⟨hslot⟩, rfl⟩

theorem removeHighest_eq {s : KState} {next : TcbPtr} (h : s.Picks next) :
    s.removeHighest = .ok (s.takeSlot s.rq.highestPrio next, next) := by
  simp [removeHighest, h.slot]

/-- The state after `next` has been taken and `last` put away at `k`. -/
def switchTo (next last : TcbPtr) (k : Frame) (s : KState) : KState :=
  (s.takeSlot s.rq.highestPrio next).ctxSwitchFull next last k

theorem dispatchSleep_ok {s s' : KState} {k : Frame} {last : TcbPtr}
    (hcur : s.curTcb = some last) (h : s.dispatchSleep k = .ok s') :
    ∃ next, s.Picks next ∧ s' = s.switchTo next last k := by
  simp only [dispatchSleep, hcur] at h
  cases hr : s.removeHighest with
  | error e => simp [hr] at h
  | ok r =>
    obtain ⟨hp, hs⟩ := removeHighest_ok hr
    simp only [hr, Except.ok.injEq] at h
    refine ⟨r.2, hp, ?_⟩
    rw [← h, hs]
    rfl

theorem dispatchSleep_eq {s : KState} {k : Frame} {last next : TcbPtr}
    (hcur : s.curTcb = some last) (h : s.Picks next) :
    s.dispatchSleep k = .ok (s.switchTo next last k) := by
  simp only [dispatchSleep, hcur, removeHighest_eq h]
  rfl

theorem saveCur_curTcb (s : KState) (last : TcbPtr) : (s.saveCur last).curTcb = s.curTcb := by
  unfold saveCur
  split_ifs <;> rfl

/-- `dispatch_save` is `dispatch_sleep` on the state where the caller is runnable again. -/
theorem dispatchSave_eq_sleep {s : KState} {k : Frame} {last : TcbPtr}
    (hcur : s.curTcb = some last) :
    s.dispatchSave k = (s.saveCur last).dispatchSleep k := by
  have hc : (s.saveCur last).curTcb = some last := by rw [saveCur_curTcb, hcur]
  simp only [dispatchSave, dispatchSleep, hcur, hc]

theorem dispatchNosave_ok {s s' : KState} (h : s.dispatchNosave = .ok s') :
    ∃ next, s.Picks next ∧ s' = (s.takeSlot s.rq.highestPrio next).ctxSwitchHalf next := by
  unfold dispatchNosave at h
  cases hr : s.removeHighest with
  | error e => simp [hr] at h
  | ok r =>
    obtain ⟨hp, hs⟩ := removeHighest_ok hr
    simp only [hr, Except.ok.injEq] at h
    refine ⟨r.2, hp, ?_⟩
    rw [← h, hs]

theorem mutexEnqueue_ok {s s₁ : KState} {m : Nat} {cur : TcbPtr}
    (h : s.mutexEnqueue m cur = .ok s₁) :
    ((s.gtMutex m).pSleepQueue = none ∧
      s₁ = (s.markWaiting cur).setMutex m fun x => { x with pSleepQueue := some cur }) ∨
    ∃ head last, (s.gtMutex m).pSleepQueue = some head ∧
      IntrusiveChain.tailSearch (s.markWaiting cur).mutexLink osMaxTasks head = some last ∧
      s₁ = (s.markWaiting cur).setTcb last fun t => { t with mutexSleepQueue := some cur } := by
  unfold mutexEnqueue at h
  split at h
  · rename_i hq
    cases h
    exact Or.inl ⟨hq, rfl⟩
  · rename_i head hq
    split at h
    · cases h
    · rename_i last hl
      cases h
      exact Or.inr ⟨head, last, hq, hl, rfl⟩

theorem devEnqueue_ok {s s₁ : KState} {d : Nat} {cur : TcbPtr}
    (h : s.devEnqueue d cur = .ok s₁) :
    ((s.devices d).sleepQ = none ∧
      s₁ = (s.setDev d fun x => { x with sleepQ := some cur }).setTcb cur
        fun t => { t with sleepQueue := none }) ∨
    ∃ head last, (s.devices d).sleepQ = some head ∧
      IntrusiveChain.tailSearch s.sleepLink osMaxTasks head = some last ∧
      s₁ = (s.setTcb last fun t => { t with sleepQueue := some cur }).setTcb cur
        fun t => { t with sleepQueue := none } := by
  unfold devEnqueue at h
  split at h
  · rename_i hq
    cases h
    exact Or.inl ⟨hq, rfl⟩
  · rename_i head hq
    split at h
    · cases h
    · rename_i last hl
      cases h
      exact Or.inr ⟨head, last, hq, hl, rfl⟩

/-- Everything one kernel entry can do to the state it finds, with the guards it passed. -/
inductive Entry (s : KState) : Op → KState → Prop
  | refuse (c : Call) (v : Int) (hv : v < 0) : Entry s (.call c) (s.ret c v)
  | create (i : Nat) (hi : i < osNumMutex) (hav : (s.gtMutex i).bAvailable = true) :
      Entry s (.call .mutexCreate)
        ((s.setMutex i fun x => { x with bAvailable := false }).ret .mutexCreate i)
  | acquire (m : Nat) (cur : TcbPtr) (hm : m < osNumMutex) (hcur : s.curTcb = some cur)
      (hfree : (s.gtMutex m).bLock = false) :
      Entry s (.call (.mutexLock m))
        ((s.setMutex m fun x => { x with bLock := true }).mutexLockTail m cur)
  | lockBlock (m : Nat) (cur next : TcbPtr) (s₁ : KState) (hm : m < osNumMutex)
      (hcur : s.curTcb = some cur) (hlock : (s.gtMutex m).bLock = true)
      (hown : (s.gtMutex m).pHoldingTcb ≠ some cur) (hq : s.mutexEnqueue m cur = .ok s₁)
      (hp : s₁.Picks next) :
      Entry s (.call (.mutexLock m)) (s₁.switchTo next cur (.mutexLock m))
  | unlock (m : Nat) (cur next : TcbPtr) (s₁ : KState) (hm : m < osNumMutex)
      (hcur : s.curTcb = some cur) (hav : (s.gtMutex m).bAvailable = false)
      (hown : (s.gtMutex m).pHoldingTcb = some cur)
      (hs : s₁ = (s.mutexHandOver m cur).saveCur cur)
      (hp : s₁.Picks next) :
      Entry s (.call (.mutexUnlock m)) (s₁.switchTo next cur (.mutexUnlock m))
  | waitBlock (d : Nat) (cur next : TcbPtr) (s₁ : KState) (hd : d ≤ numDevices)
      (hcur : s.curTcb = some cur) (hfree : (s.systemTcb cur).holdsLock = 0)
      (hq : s.devEnqueue d cur = .ok s₁) (hp : s₁.Picks next) :
      Entry s (.call (.eventWait d)) (s₁.switchTo next cur (.devWait d))
  | newSet (tasks : Nat → Task) (numTasks : Nat) (next : TcbPtr) (mem : TaskMem) (s₁ : KState)
      (hadm : taskAdmit numTasks ⟨tasks, [], []⟩ = .ok (mem, none))
      (hs : s₁ = s.installTasks mem.slot numTasks) (hp : s₁.Picks next) :
      Entry s (.call (.taskCreate tasks numTasks))
        ((s₁.takeSlot s₁.rq.highestPrio next).ctxSwitchHalf next)
  | tick (millis : Nat) (s₁ : KState) (hw : s.devWake millis = .ok (s₁, false)) :
      Entry s (.timer millis) s₁
  | wake (millis : Nat) (cur next : TcbPtr) (s₁ s₂ : KState)
      (hw : s.devWake millis = .ok (s₁, true)) (hcur : s₁.curTcb = some cur)
      (hs : s₂ = s₁.saveCur cur) (hp : s₂.Picks next) :
      Entry s (.timer millis) (s₂.switchTo next cur .devUpdate)

theorem createScan_spec (gtMutex : Nat → Mutex) (fuel index : Nat)
    (hf : osNumMutex + 1 ≤ fuel + index) (hi : index ≤ osNumMutex) :
    createScan gtMutex fuel index = osNumMutex ∨
      (createScan gtMutex fuel index < osNumMutex ∧
        (gtMutex (createScan gtMutex fuel index)).bAvailable = true) := by
  induction fuel generalizing index with
  | zero => omega
  | succ fuel ih =>
    rw [createScan]
    split_ifs with h
    · exact ih (index + 1) (by omega) (by omega)
    · rcases Nat.lt_or_eq_of_le hi with hlt | heq
      · right
        refine ⟨hlt, ?_⟩
        by_contra hne
        exact h ⟨hne, hlt⟩
      · exact Or.inl heq

private theorem mutexCreate_entry (s : KState) :
    ∃ s₁, Entry s.disableInterrupts (.call .mutexCreate) s₁ ∧
      s.mutexCreate.enableInterrupts = s₁.enableInterrupts := by
  unfold mutexCreate
  rcases createScan_spec s.disableInterrupts.gtMutex (osNumMutex + 1) 0 (by omega) (by omega)
    with h | ⟨hlt, hav⟩
  · simp only [h, if_true]
    exact ⟨_, .refuse _ _ (by decide), rfl⟩
  · have hne : createScan s.disableInterrupts.gtMutex (osNumMutex + 1) 0 ≠ osNumMutex := by omega
    simp only [hne, if_false]
    exact ⟨_, .create _ hlt hav, rfl⟩

private theorem mutexLock_entry {s s' : KState} {mutex : Int} {cur : TcbPtr}
    (hcur : s.curTcb = some cur) (h : s.mutexLock mutex = .ok s') :
    ∃ s₁, Entry s.disableInterrupts (.call (.mutexLock mutex)) s₁ ∧
      s'.enableInterrupts = s₁.enableInterrupts := by
  have hc : s.disableInterrupts.curTcb = some cur := hcur
  unfold mutexLock at h
  simp only [hc] at h
  split_ifs at h with hr hl hd
  · cases h
    exact ⟨_, .refuse _ _ (by decide), rfl⟩
  · cases h
    exact ⟨_, .refuse _ _ (by decide), rfl⟩
  · obtain ⟨m, rfl⟩ : ∃ m : Nat, mutex = m := ⟨mutex.toNat, by omega⟩
    have hm : m < osNumMutex := by omega
    simp only [Int.toNat_natCast] at h hl hd
    cases hq : s.disableInterrupts.mutexEnqueue m cur with
    | error e => simp [hq] at h
    | ok s₁ =>
      simp only [hq] at h
      have hc₁ : s₁.curTcb = some cur := by
        rcases mutexEnqueue_ok hq with ⟨_, rfl⟩ | ⟨_, _, _, _, rfl⟩ <;> exact hc
      obtain ⟨next, hp, rfl⟩ := dispatchSleep_ok hc₁ h
      exact ⟨_, .lockBlock m cur next s₁ hm hc hl (fun ho => hd ho.symm) hq hp, rfl⟩
  · obtain ⟨m, rfl⟩ : ∃ m : Nat, mutex = m := ⟨mutex.toNat, by omega⟩
    have hm : m < osNumMutex := by omega
    simp only [Int.toNat_natCast] at h hl
    cases h
    exact ⟨_, .acquire m cur hm hc (by simpa using hl), rfl⟩

theorem mutexHandOver_curTcb (s : KState) (m : Nat) (cur : TcbPtr) :
    (s.mutexHandOver m cur).curTcb = s.curTcb := by
  unfold mutexHandOver
  split <;> rfl

private theorem mutexUnlock_entry {s s' : KState} {mutex : Int} {cur : TcbPtr}
    (hcur : s.curTcb = some cur) (h : s.mutexUnlock mutex = .ok s') :
    ∃ s₁, Entry s.disableInterrupts (.call (.mutexUnlock mutex)) s₁ ∧
      s'.enableInterrupts = s₁.enableInterrupts := by
  have hc : s.disableInterrupts.curTcb = some cur := hcur
  unfold mutexUnlock at h
  simp only [hc] at h
  split_ifs at h with hr hp hz ho
  · cases h
    exact ⟨_, .refuse _ _ (by decide), rfl⟩
  · cases h
    exact ⟨_, .refuse _ _ (by decide), rfl⟩
  · rw [not_or, not_not] at hp
    rw [hz.2] at hp
    exact absurd hp.2 (by simp)
  · exact absurd ho (not_or.mp hp).2
  · obtain ⟨m, rfl⟩ : ∃ m : Nat, mutex = m := ⟨mutex.toNat, by omega⟩
    have hm : m < osNumMutex := by omega
    simp only [Int.toNat_natCast] at h hp ho
    have hc₁ : (s.disableInterrupts.mutexHandOver m cur).curTcb = some cur :=
      (mutexHandOver_curTcb _ _ cur).trans hc
    rw [dispatchSave_eq_sleep hc₁] at h
    obtain ⟨next, hpk, rfl⟩ := dispatchSleep_ok ((saveCur_curTcb _ _).trans hc₁) h
    rw [not_not] at ho
    have hav : (s.disableInterrupts.gtMutex m).bAvailable = false := by
      simpa using (not_or.mp hp).1
    exact ⟨_, .unlock m cur next _ hm hc hav ho.symm rfl hpk, rfl⟩

private theorem eventWait_entry {s s' : KState} {dev : Nat} {cur : TcbPtr}
    (hcur : s.curTcb = some cur) (h : s.eventWait dev = .ok s') :
    ∃ s₁, Entry s.disableInterrupts (.call (.eventWait dev)) s₁ ∧
      s'.enableInterrupts = s₁.enableInterrupts := by
  have hc : s.disableInterrupts.curTcb = some cur := hcur
  unfold eventWait devWait at h
  simp only [hc] at h
  split_ifs at h with hr hl
  · cases h
    exact ⟨_, .refuse _ _ (by decide), rfl⟩
  · cases h
    exact ⟨_, .refuse _ _ (by decide), rfl⟩
  · cases hq : s.disableInterrupts.devEnqueue dev cur with
    | error e => simp [hq] at h
    | ok s₁ =>
      simp only [hq] at h
      have hc₁ : s₁.curTcb = some cur := by
        rcases devEnqueue_ok hq with ⟨_, rfl⟩ | ⟨_, _, _, _, rfl⟩ <;> exact hc
      obtain ⟨next, hp, rfl⟩ := dispatchSleep_ok hc₁ h
      exact ⟨_, .waitBlock dev cur next s₁ (by omega) hc (by simpa using hl) hq hp, rfl⟩

/-- The error codes of `task_create` are negative. -/
theorem taskAdmit_code {n : Nat} {mem mem' : TaskMem} {code : Int}
    (h : taskAdmit n mem = .ok (mem', some code)) : code < 0 := by
  unfold taskAdmit at h
  split at h
  · cases h; decide
  split at h
  · cases h; decide
  split at h
  · cases h; decide
  split at h
  · cases h
  · split_ifs at h
    · cases h; decide
    · cases h

private theorem taskCreate_entry {s s' : KState} {tasks : Nat → Task} {n : Nat}
    (h : s.taskCreate tasks n = .ok s') :
    ∃ s₁, Entry s.disableInterrupts (.call (.taskCreate tasks n)) s₁ ∧
      s'.enableInterrupts = s₁.enableInterrupts := by
  unfold taskCreate at h
  split at h
  · cases h
  · rename_i mem code hadm
    cases h
    exact ⟨_, .refuse _ _ (taskAdmit_code hadm), rfl⟩
  · rename_i mem hadm
    obtain ⟨next, hp, rfl⟩ := dispatchNosave_ok h
    exact ⟨_, .newSet tasks n next mem _ hadm rfl hp, rfl⟩

private theorem devUpdate_entry {s s' : KState} {millis : Nat} (h : s.devUpdate millis = .ok s') :
    ∃ s₁, Entry s.disableInterrupts (.timer millis) s₁ ∧
      s'.enableInterrupts = s₁.enableInterrupts := by
  unfold devUpdate at h
  split at h
  · cases h
  · rename_i s₁ flag hw
    split_ifs at h with hf
    · subst hf
      cases hcur : s₁.curTcb with
      | none => simp [dispatchSave, hcur] at h
      | some cur =>
        rw [dispatchSave_eq_sleep hcur] at h
        obtain ⟨next, hp, rfl⟩ := dispatchSleep_ok ((saveCur_curTcb _ _).trans hcur) h
        exact ⟨_, .wake millis cur next s₁ _ hw hcur rfl hp, rfl⟩
    · cases h
      have hff : flag = false := by simpa using hf
      subst hff
      exact ⟨_, .tick millis s₁ hw, rfl⟩

/-- What may happen before the first task runs. -/
def early : Op → Prop
  | .call .mutexCreate => True
  | .call (.taskCreate _ _) => True
  | .timer _ => True
  | _ => False

/-- Inversion of one kernel entry. -/
theorem step_entry {regs : SchedContext} {op : Op} {s s' : KState}
    (h : s.step regs op = .ok s') (hcur : s.curTcb = none → early op) :
    ∃ s₁, Entry (s.interrupt regs) op s₁ ∧ s' = s₁.enableInterrupts := by
  have caller (hn : ¬ early op) : ∃ cur, s.curTcb = some cur := by
    cases hc : s.curTcb with
    | none => exact absurd (hcur hc) hn
    | some cur => exact ⟨cur, rfl⟩
  have finish {r : Except Fault KState} (hr : r.map enableInterrupts = .ok s') :
      ∃ s₂, r = .ok s₂ ∧ s' = s₂.enableInterrupts := by
    cases r with
    | error e => simp [Except.map] at hr
    | ok s₂ =>
      simp only [Except.map, Except.ok.injEq] at hr
      exact ⟨s₂, rfl, hr.symm⟩
  cases op with
  | timer millis =>
    obtain ⟨s₂, h₂, rfl⟩ := finish h
    have h₃ : (s.interrupt regs).devUpdate millis = .ok s₂ := h₂
    exact devUpdate_entry h₃
  | call c =>
    obtain ⟨s₂, h₂, rfl⟩ := finish h
    cases c with
    | mutexCreate =>
      cases h₂
      exact mutexCreate_entry (s.trap regs)
    | mutexLock mutex =>
      obtain ⟨cur, hc⟩ := caller id
      have hc' : (s.trap regs).curTcb = some cur := hc
      exact mutexLock_entry hc' h₂
    | mutexUnlock mutex =>
      obtain ⟨cur, hc⟩ := caller id
      have hc' : (s.trap regs).curTcb = some cur := hc
      exact mutexUnlock_entry hc' h₂
    | eventWait dev =>
      obtain ⟨cur, hc⟩ := caller id
      have hc' : (s.trap regs).curTcb = some cur := hc
      exact eventWait_entry hc' h₂
    | taskCreate tasks n =>
      have h₃ : (s.trap regs).taskCreate tasks n = .ok s₂ := h₂
      exact taskCreate_entry h₃

theorem Step.entry {ok : KState → Op → Prop} {s s' : KState} (h : Step ok s s')
    (hcur : s.curTcb ≠ none) :
    ∃ regs op s₁, ok s op ∧ (∀ call, op = .call call → s.curTcb ≠ some idleTcb) ∧
      Entry (s.interrupt regs) op s₁ ∧ s' = s₁.enableInterrupts := by
  cases h with
  | call regs c hok hidle h =>
    obtain ⟨s₁, he, hs⟩ := step_entry h (fun hn => absurd hn hcur)
    exact ⟨regs, .call c, s₁, hok, fun _ _ => hidle, he, hs⟩
  | timer regs millis hok h =>
    obtain ⟨s₁, he, hs⟩ := step_entry h (fun hn => absurd hn hcur)
    exact ⟨regs, .timer millis, s₁, hok, by simp, he, hs⟩

/-- A successful `task_create` starts the first task of the set it installs. -/
theorem Creates.dispatch {tasks : Nat → Task} {n : Nat} {regs : SchedContext} {s s' : KState}
    (h : Creates tasks n regs s s') :
    ∃ mem next, taskAdmit n ⟨tasks, [], []⟩ = .ok (mem, none) ∧
      ((s.interrupt regs).installTasks mem.slot n).Picks next ∧
      s' = ((((s.interrupt regs).installTasks mem.slot n).takeSlot
        ((s.interrupt regs).installTasks mem.slot n).rq.highestPrio next).ctxSwitchHalf
          next).enableInterrupts := by
  obtain ⟨⟨mem, hadm⟩, hstep⟩ := h
  have hcall : ((s.trap regs).taskCreate tasks n).map enableInterrupts = .ok s' := hstep
  unfold taskCreate at hcall
  simp only [hadm] at hcall
  cases hr : (s.trap regs).disableInterrupts.allocateTasks mem.slot n with
  | error e => rw [hr] at hcall; cases hcall
  | ok s₂ =>
    rw [hr] at hcall
    obtain ⟨next, hp, rfl⟩ := dispatchNosave_ok hr
    cases hcall
    exact ⟨mem, next, hadm, hp, rfl⟩

end RtosKernel.KState
