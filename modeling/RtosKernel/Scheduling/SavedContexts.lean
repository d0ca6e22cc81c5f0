import RtosKernel.Math.AccessHistory
import RtosKernel.Processor.ContextSwitch
import RtosKernel.Scheduling.Returns
import RtosKernel.Kernel.Execute

namespace RtosKernel

/-- A whole kernel entry, or a dispatcher called on its own. -/
inductive Activity where
  | entry (op : Op)
  | dispatchSave (k : Frame)
  | dispatchSleep (k : Frame)
  | dispatchNosave

/-- The TCB that a dispatcher removed from the run queue. -/
def dispatched (es : List Event) : Option TcbPtr :=
  es.findSome? fun
    | .dispatch _ _ t => some t
    | _ => none

namespace KState

/-- The saved contexts of all TCBs. -/
def contexts (s : KState) : TcbPtr → SchedContext := fun t => (s.systemTcb t).context

/-- With `regs` in `r4` to `r11`, `sp` and `lr`. -/
def perform (regs : SchedContext) : Activity → KState → Except Fault KState
  | .entry op, s => s.step regs op
  | .dispatchSave k, s => (s.interrupt regs).dispatchSave k
  | .dispatchSleep k, s => (s.interrupt regs).dispatchSleep k
  | .dispatchNosave, s => (s.interrupt regs).dispatchNosave

/-- What `allocate_tasks` puts into the context of `t`. -/
def allocated (tasks : Nat → Task) (n : Nat) (s : KState) (t : TcbPtr) : SchedContext :=
  (initTcb tasks n t (s.systemTcb t)).context

/-- The TCBs of a set of `n` tasks, each filled in. -/
def filled (tasks : Nat → Task) (n : Nat) (s : KState) : AccessHistory TcbPtr SchedContext :=
  match taskAdmit n ⟨tasks, [], []⟩ with
  | .ok (mem, none) => ((List.finRange osMaxTasks).filter (IsTask n ·)).map
      fun t => .fill t (s.allocated mem.slot n t)
  | _ => []

/-- What is written to the saved contexts before the dispatch: only `dispatch_nosave` gives up
the registers of the task it leaves. -/
def writes (regs : SchedContext) : Activity → KState → AccessHistory TcbPtr SchedContext
  | .entry (.call (.taskCreate tasks n)), s => s.filled tasks n
  | .dispatchNosave, _ => []
  | _, s => s.curTcb.toList.map fun cur => .store cur regs

/-- The accesses to the saved contexts between `s` and `s'`. What a dispatch loads stays in the
registers until the kernel is left. -/
def accesses (regs : SchedContext) (a : Activity) (s s' : KState) :
    AccessHistory TcbPtr SchedContext :=
  match dispatched (s.news s') with
  | none => []
  | some next => .load next s'.regs :: writes regs a s

/-- A run from a successful `task_create` on, with any registers at each activity, and the
history of the saved contexts. -/
inductive SwitchRun : AccessHistory TcbPtr SchedContext → KState → Prop
  | start {s s' : KState} (tasks : Nat → Task) (n : Nat) (regs : SchedContext)
      (h : Creates tasks n regs s s') :
      SwitchRun (s.accesses regs (.entry (.call (.taskCreate tasks n))) s') s'
  | step {h : AccessHistory TcbPtr SchedContext} {s s' : KState} (hr : SwitchRun h s)
      (regs : SchedContext) (a : Activity) (hs : s.perform regs a = .ok s') :
      SwitchRun (s.accesses regs a s' ++ h) s'

variable {s s' s₁ s₂ : KState} {t next cur last : TcbPtr} {k : Frame} {m d : Nat}

/-- No context is touched and nothing is dispatched between `s` and `s₁`. -/
structure Quiet (s s₁ : KState) : Prop where
  contexts : s₁.contexts = s.contexts
  regs : s₁.regs = s.regs
  cur : s₁.curTcb = s.curTcb
  log : ∃ es, s₁.log = es ++ s.log ∧ dispatched es = none

theorem dispatched_append (es es' : List Event) :
    dispatched (es ++ es') = (dispatched es).or (dispatched es') := List.findSome?_append

section Quietly

/-! Everything but the switch itself is quiet. -/

theorem Quiet.of_log (hctx : s₁.contexts = s.contexts) (hregs : s₁.regs = s.regs)
    (hcur : s₁.curTcb = s.curTcb) (hlog : s₁.log = s.log) : Quiet s s₁ :=
  ⟨hctx, hregs, hcur, [], hlog, rfl⟩

theorem Quiet.trans (h : Quiet s s₁) (h' : Quiet s₁ s₂) : Quiet s s₂ where
  contexts := h'.contexts.trans h.contexts
  regs := h'.regs.trans h.regs
  cur := h'.cur.trans h.cur
  log := by
    obtain ⟨es, hl, hd⟩ := h.log
    obtain ⟨es', hl', hd'⟩ := h'.log
    refine ⟨es' ++ es, by rw [hl', hl, List.append_assoc], ?_⟩
    rw [dispatched_append, hd', hd]
    rfl

/-- A write to a TCB outside its context. -/
theorem quiet_setTcb (s : KState) (t : TcbPtr) (f : Tcb → Tcb)
    (hf : ∀ x, (f x).context = x.context) : Quiet s (s.setTcb t f) := by
  refine .of_log ?_ rfl rfl rfl
  funext u
  simp only [contexts, setTcb_apply]
  split_ifs with hu
  · subst hu
    exact hf _
  · rfl

theorem quiet_setMutex (s : KState) (m : Nat) (f : Mutex → Mutex) : Quiet s (s.setMutex m f) :=
  .of_log rfl rfl rfl rfl

theorem quiet_setDev (s : KState) (d : Nat) (f : Dev → Dev) : Quiet s (s.setDev d f) :=
  .of_log rfl rfl rfl rfl

theorem quiet_runqueueAdd (s : KState) (t : TcbPtr) (p : Nat) : Quiet s (s.runqueueAdd t p) :=
  ⟨rfl, rfl, rfl, [_], rfl, rfl⟩

theorem quiet_ret (s : KState) (c : Call) (v : Int) : Quiet s (s.ret c v) :=
  ⟨rfl, rfl, rfl, [_], rfl, rfl⟩

theorem quiet_enableInterrupts (s : KState) : Quiet s s.enableInterrupts :=
  .of_log rfl rfl rfl rfl

theorem quiet_mutexLockTail (s : KState) (m : Nat) (t : TcbPtr) : Quiet s (s.mutexLockTail m t) :=
  (quiet_setTcb s t (fun t => { t with
    holdsLock := wrap32 (t.holdsLock + 1), curPrio := highestPriority }) fun _ => rfl).trans
    ⟨rfl, rfl, rfl, [_], rfl, rfl⟩

theorem quiet_resume (s : KState) (t : TcbPtr) : Quiet s (s.resume t) := by
  unfold resume
  cases s.frames t with
  | launch => exact quiet_enableInterrupts s
  | mutexLock m => exact quiet_mutexLockTail s m t
  | mutexUnlock m => exact (quiet_enableInterrupts s).trans (quiet_ret ..)
  | devWait dev => exact (quiet_enableInterrupts s).trans (quiet_ret ..)
  | devUpdate => exact quiet_enableInterrupts s

theorem quiet_mutexEnqueue (h : s.mutexEnqueue m t = .ok s₁) : Quiet s s₁ := by
  have hmark : Quiet s (s.markWaiting t) := quiet_setTcb s t _ fun _ => rfl
  rcases mutexEnqueue_ok h with ⟨_, rfl⟩ | ⟨_, last, _, _, rfl⟩
  · exact hmark.trans (quiet_setMutex ..)
  · refine hmark.trans (quiet_setTcb _ last _ ?_)
    intro x
    rfl

theorem quiet_devEnqueue (h : s.devEnqueue d t = .ok s₁) : Quiet s s₁ := by
  rcases devEnqueue_ok h with ⟨_, rfl⟩ | ⟨_, last, _, _, rfl⟩
  · refine (quiet_setDev ..).trans (quiet_setTcb _ t _ ?_)
    intro x
    rfl
  · refine (quiet_setTcb s last _ ?_).trans (quiet_setTcb _ t _ ?_)
    · intro x
      rfl
    · intro x
      rfl

theorem quiet_dropLock (s : KState) (t : TcbPtr) : Quiet s (s.dropLock t) := by
  apply quiet_setTcb
  intro x
  split_ifs <;> rfl

theorem quiet_mutexHandOver (s : KState) (m : Nat) (t : TcbPtr) :
    Quiet s (s.mutexHandOver m t) := by
  unfold mutexHandOver
  cases (s.gtMutex m).pSleepQueue with
  | none => exact (quiet_setMutex ..).trans (quiet_dropLock ..)
  | some first =>
    refine Quiet.trans ?_ (quiet_dropLock _ t)
    refine Quiet.trans ?_ (quiet_runqueueAdd _ first _)
    refine (quiet_setMutex s m _).trans (quiet_setTcb _ first _ ?_)
    intro x
    rfl

theorem quiet_saveCur (s : KState) (t : TcbPtr) : Quiet s (s.saveCur t) := by
  unfold saveCur
  split_ifs
  · exact quiet_runqueueAdd ..
  · exact .of_log rfl rfl rfl rfl

theorem quiet_drain {fuel : Nat} {p : Option TcbPtr} (h : drain fuel p s = .ok s₁) :
    Quiet s s₁ := by
  induction fuel generalizing p s with
  | zero =>
    cases p with
    | none => cases h; exact .of_log rfl rfl rfl rfl
    | some t => cases h
  | succ fuel ih =>
    cases p with
    | none => cases h; exact .of_log rfl rfl rfl rfl
    | some t =>
      rw [drain] at h
      exact (quiet_runqueueAdd ..).trans (ih h)

theorem quiet_devWake {millis : Nat} {r : KState × Bool} (h : s.devWake millis = .ok r) :
    Quiet s r.1 := by
  refine foldlM_range_invariant (P := fun _ st => Quiet s st.1) (.of_log rfl rfl rfl rfl) ?_ h
  intro i st st' _ ha hst
  obtain ⟨a, flag⟩ := st
  have hadv : Quiet s (a.advance i) := ha.trans ⟨rfl, rfl, rfl, [_], rfl, rfl⟩
  rcases devSignal_ok hst with ⟨_, rfl⟩ | ⟨_, _, rfl⟩ | ⟨head, s₁, _, _, hd, rfl⟩
  · exact ha
  · exact hadv
  · have hempty := quiet_setDev s₁ i fun d => { d with sleepQ := none }
    exact (hadv.trans (quiet_drain hd)).trans hempty

end Quietly

/-- The kernel is left in `next`, whose registers come from its context; the contexts are then
`f`. -/
structure Loads (s : KState) (f : TcbPtr → SchedContext) (next : TcbPtr) (s' : KState) : Prop where
  contexts : s'.contexts = f
  regs : s'.regs = f next
  cur : s'.curTcb = some next
  log : ∃ es, s'.log = es ++ s.log ∧ dispatched es = some next

/-- Quiet work before a switch and after it does not show. -/
theorem Loads.trans {f : TcbPtr → SchedContext} (h : Quiet s s₁) (hl : Loads s₁ f next s₂)
    (h' : Quiet s₂ s') : Loads s f next s' where
  contexts := h'.contexts.trans hl.contexts
  regs := h'.regs.trans hl.regs
  cur := h'.cur.trans hl.cur
  log := by
    obtain ⟨es, he, hd⟩ := h.log
    obtain ⟨es₁, he₁, hd₁⟩ := hl.log
    obtain ⟨es', he', hd'⟩ := h'.log
    refine ⟨es' ++ (es₁ ++ es), by rw [he', he₁, he, List.append_assoc, List.append_assoc], ?_⟩
    rw [dispatched_append, dispatched_append, hd', hd₁, hd]
    rfl

/-- A switch stores the registers in `last` before it loads those of `next`. -/
theorem switchTo_loads (s : KState) (next last : TcbPtr) (k : Frame) :
    Loads s (Function.update s.contexts last s.regs) next (s.switchTo next last k) where
  contexts := by
    funext t
    rw [Function.update_apply]
    exact ctxSwitchFull_context _ next last t k
  regs := by
    refine (ctxSwitchFull_regs _ next last k).trans ?_
    rw [Function.update_apply]
    exact ctxSwitchFull_context _ next last next k
  cur := switchTo_curTcb
  log := by
    obtain ⟨es, hl, hd⟩ := (quiet_resume _ next).log
    refine ⟨es ++ [.dispatch s.rq s.rq.highestPrio next], ?_, ?_⟩
    · rw [List.append_assoc]
      exact hl
    · rw [dispatched_append, hd]
      rfl

theorem takeSlot_loads (s : KState) (next : TcbPtr) (p : Nat) :
    Loads s s.contexts next ((s.takeSlot p next).ctxSwitchHalf next) := by
  have hload : Loads s s.contexts next
      { s.takeSlot p next with regs := ((s.takeSlot p next).systemTcb next).context } :=
    ⟨rfl, rfl, rfl, [_], rfl, rfl⟩
  exact Loads.trans (.of_log rfl rfl rfl rfl) hload (quiet_resume _ next)

theorem Quiet.switchTo (h : Quiet s s₁) (next last : TcbPtr) (k : Frame) :
    Loads s (Function.update s.contexts last s.regs) next (s₁.switchTo next last k) := by
  have hl := switchTo_loads s₁ next last k
  rw [h.contexts, h.regs] at hl
  exact Loads.trans h hl (.of_log rfl rfl rfl rfl)

/-- The contexts after `task_create`. -/
def created (tasks : Nat → Task) (n : Nat) (s : KState) (t : TcbPtr) : SchedContext :=
  if IsTask n t then s.allocated tasks n t else s.contexts t

theorem installTasks_loads (tasks : Nat → Task) {n : Nat} (hn : n ≤ 62) (s : KState)
    (next : TcbPtr) (p : Nat) :
    Loads s (s.created tasks n) next
      (((s.installTasks tasks n).takeSlot p next).ctxSwitchHalf next) := by
  have hi := installTasks_installed tasks n hn s
  have hctx : (s.installTasks tasks n).contexts = s.created tasks n := by
    funext t
    simp only [KState.contexts, created, allocated, hi.tcb]
    split_ifs <;> rfl
  have hl := takeSlot_loads (s.installTasks tasks n) next p
  rw [hctx] at hl
  obtain ⟨es, he, hadd⟩ := hi.log
  obtain ⟨es', he', hd'⟩ := hl.log
  have hnone : dispatched es = none := by
    apply List.findSome?_eq_none_iff.mpr
    intro e hm
    obtain ⟨t, q, rfl⟩ := hadd e hm
    rfl
  refine { hl with log := ⟨es' ++ es, ?_, ?_⟩ }
  · rw [he', he, List.append_assoc]
    rfl
  · rw [dispatched_append, hd', hnone]
    rfl

/-- A kernel entry of a running task set that installs no new set: at most one full switch. -/
theorem Entry.loads {op : Op} (he : Entry s op s₁)
    (hop : ∀ tasks n, op ≠ .call (.taskCreate tasks n)) :
    Quiet s s₁ ∨ ∃ cur next, s.curTcb = some cur ∧
      Loads s (Function.update s.contexts cur s.regs) next s₁ := by
  cases he with
  | refuse c v _ => exact Or.inl (quiet_ret ..)
  | create i _ _ => exact Or.inl ((quiet_setMutex ..).trans (quiet_ret ..))
  | acquire m cur _ _ _ => exact Or.inl ((quiet_setMutex ..).trans (quiet_mutexLockTail ..))
  | lockBlock m cur next s₂ _ hcur _ _ hq _ =>
    exact Or.inr ⟨cur, next, hcur, (quiet_mutexEnqueue hq).switchTo ..⟩
  | unlock m cur next s₂ _ hcur _ _ hs _ =>
    subst hs
    have hq := (quiet_mutexHandOver s m cur).trans (quiet_saveCur _ cur)
    exact Or.inr ⟨cur, next, hcur, hq.switchTo ..⟩
  | waitBlock d cur next s₂ _ hcur _ hq _ =>
    exact Or.inr ⟨cur, next, hcur, (quiet_devEnqueue hq).switchTo ..⟩
  | newSet tasks n next mem s₂ _ _ _ => exact absurd rfl (hop tasks n)
  | tick millis s₂ hw => exact Or.inl (quiet_devWake hw)
  | wake millis cur next s₂ s₃ hw hcur hs _ =>
    subst hs
    have hq := quiet_devWake hw
    exact Or.inr ⟨cur, next, hq.cur ▸ hcur, (hq.trans (quiet_saveCur _ cur)).switchTo ..⟩

/-- What one activity did to the contexts, and its accesses. -/
inductive Uses (regs : SchedContext) (a : Activity) (s s' : KState) :
    AccessHistory TcbPtr SchedContext → Prop
  | quiet (hq : Quiet (s.interrupt regs) s') : Uses regs a s s' []
  | full (cur next : TcbPtr) (hcur : s.curTcb = some cur)
      (hl : Loads s (Function.update s.contexts cur regs) next s') :
      Uses regs a s s' [.load next s'.regs, .store cur regs]
  | half (next : TcbPtr) (hl : Loads s s.contexts next s') : Uses regs a s s' [.load next s'.regs]
  | create (tasks : Nat → Task) (n next : _) (mem : TaskMem)
      (ha : a = .entry (.call (.taskCreate tasks n)))
      (hl : Loads s (s.created mem.slot n) next s') :
      Uses regs a s s' (.load next s'.regs :: ((List.finRange osMaxTasks).filter (IsTask n ·)).map
        fun t => .fill t (s.allocated mem.slot n t))

theorem Quiet.dispatched (h : Quiet s s₁) : RtosKernel.dispatched (s.news s₁) = none := by
  obtain ⟨es, hl, hd⟩ := h.log
  rw [news_eq hl, hd]

theorem Loads.dispatched {f : TcbPtr → SchedContext} (h : Loads s f next s') :
    RtosKernel.dispatched (s.news s') = some next := by
  obtain ⟨es, hl, hd⟩ := h.log
  rw [news_eq hl, hd]

variable {regs : SchedContext} {a : Activity}

theorem Quiet.uses (h : Quiet (s.interrupt regs) s') : Uses regs a s s' (s.accesses regs a s') := by
  have hd : RtosKernel.dispatched (s.news s') = none := h.dispatched
  rw [accesses, hd]
  exact .quiet h

/-- An activity other than `task_create` and `dispatch_nosave` saves what it switches out. -/
theorem Loads.uses {next cur : TcbPtr}
    (h : Loads s (Function.update s.contexts cur regs) next s') (hcur : s.curTcb = some cur)
    (hset : ∀ tasks n, a ≠ .entry (.call (.taskCreate tasks n))) (hhalf : a ≠ .dispatchNosave) :
    Uses regs a s s' (s.accesses regs a s') := by
  have hacc : s.accesses regs a s' = [.load next s'.regs, .store cur regs] := by
    rw [accesses, h.dispatched]
    refine congrArg _ ((writes.eq_3 regs a s hset hhalf).trans ?_)
    rw [hcur]
    rfl
  rw [hacc]
  exact .full cur next hcur h

theorem perform_uses {cur : TcbPtr} (hcur : s.curTcb = some cur)
    (h : s.perform regs a = .ok s') : Uses regs a s s' (s.accesses regs a s') := by
  have hcur' : (s.interrupt regs).curTcb = some cur := hcur
  cases a with
  | dispatchSave k =>
    have hsave : (s.interrupt regs).dispatchSave k = .ok s' := h
    rw [dispatchSave_eq_sleep hcur'] at hsave
    obtain ⟨next, _, rfl⟩ := dispatchSleep_ok ((saveCur_curTcb _ _).trans hcur') hsave
    have hl := (quiet_saveCur (s.interrupt regs) cur).switchTo next cur k
    exact Loads.uses { hl with } hcur (by simp) (by simp)
  | dispatchSleep k =>
    obtain ⟨next, _, rfl⟩ := dispatchSleep_ok hcur' h
    have hl := switchTo_loads (s.interrupt regs) next cur k
    exact Loads.uses { hl with } hcur (by simp) (by simp)
  | dispatchNosave =>
    obtain ⟨next, _, rfl⟩ := dispatchNosave_ok h
    have hl := takeSlot_loads (s.interrupt regs) next (s.interrupt regs).rq.highestPrio
    have hl' : Loads s s.contexts next _ := { hl with }
    rw [accesses, hl'.dispatched]
    exact .half next hl'
  | entry op =>
    obtain ⟨s₁, he, rfl⟩ := step_entry h (fun hn => by rw [hcur] at hn; cases hn)
    by_cases hop : ∃ tasks n, op = .call (.taskCreate tasks n)
    · obtain ⟨tasks, n, rfl⟩ := hop
      cases he with
      | refuse c v _ => exact ((quiet_ret ..).trans (quiet_enableInterrupts _)).uses
      | newSet tasks n next mem s₂ hadm hs _ =>
        subst hs
        have hl := installTasks_loads mem.slot (taskAdmit_le hadm) (s.interrupt regs) next
          ((s.interrupt regs).installTasks mem.slot n).rq.highestPrio
        have hl' := Loads.trans (.of_log rfl rfl rfl rfl) hl (quiet_enableInterrupts _)
        have hset : Loads s (s.created mem.slot n) next _ := { hl' with }
        rw [accesses, hset.dispatched]
        simp only [writes, filled, hadm]
        exact .create tasks n next mem rfl hset
    · have hset : ∀ tasks n, op ≠ .call (.taskCreate tasks n) :=
        fun tasks n he => hop ⟨tasks, n, he⟩
      rcases he.loads hset with hq | ⟨cur', next, hc, hl⟩
      · exact (hq.trans (quiet_enableInterrupts _)).uses
      · have hl' := Loads.trans (.of_log rfl rfl rfl rfl) hl (quiet_enableInterrupts _)
        refine Loads.uses { hl' with } hc ?_ (by simp)
        intro tasks n heq
        exact hset tasks n (Activity.entry.inj heq)

/-- The history accounts for every saved context, and its last access is the load of the running
task. -/
structure Recorded (h : AccessHistory TcbPtr SchedContext) (s : KState) : Prop where
  tracks : h.Tracks s.contexts
  consistent : h.Consistent
  running : ∃ cur v, s.curTcb = some cur ∧ h.head? = some (.load cur v)

variable {h : AccessHistory TcbPtr SchedContext}

/-- A dispatch after the writes `w`. -/
theorem Loads.recorded {f : TcbPtr → SchedContext} {w : AccessHistory TcbPtr SchedContext}
    (hl : Loads s f next s') (ht : AccessHistory.Tracks f w) (hc : AccessHistory.Consistent w) :
    Recorded (.load next s'.regs :: w) s' where
  tracks := by
    rw [hl.contexts]
    exact ht
  consistent := by
    rw [hl.regs]
    exact hc.load ht next
  running := ⟨next, _, hl.cur, rfl⟩

theorem created_eq (tasks : Nat → Task) (n : Nat) (s : KState) (t : TcbPtr) :
    s.created tasks n t = if t ∈ (List.finRange osMaxTasks).filter (IsTask n ·) then
      s.allocated tasks n t else s.contexts t := by
  simp [created]

theorem Loads.recorded_created {tasks : Nat → Task} {n : Nat}
    (hl : Loads s (s.created tasks n) next s') (ht : h.Tracks s.contexts) (hc : h.Consistent) :
    Recorded (.load next s'.regs :: (((List.finRange osMaxTasks).filter (IsTask n ·)).map
      (fun t => .fill t (s.allocated tasks n t)) ++ h)) s' :=
  hl.recorded (ht.fills (created_eq tasks n s)) (hc.fills ..)

theorem Recorded.perform (hr : Recorded h s) (hs : s.perform regs a = .ok s') :
    Recorded (s.accesses regs a s' ++ h) s' := by
  obtain ⟨cur, v, hcur, hhead⟩ := hr.running
  have hu := perform_uses hcur hs
  generalize s.accesses regs a s' = w at hu ⊢
  cases hu with
  | quiet hq =>
    refine ⟨?_, hr.consistent, cur, v, hq.cur.trans hcur, hhead⟩
    rw [hq.contexts]
    exact hr.tracks
  | full cur' next hcur' hl =>
    cases hcur.symm.trans hcur'
    exact hl.recorded (hr.tracks.store cur regs) ⟨⟨v, hhead⟩, hr.consistent⟩
  | half next hl => exact hl.recorded hr.tracks hr.consistent
  | create tasks n next mem _ hl => exact hl.recorded_created hr.tracks hr.consistent

theorem Creates.recorded {tasks : Nat → Task} {n : Nat} (hc : Creates tasks n regs s s') :
    Recorded (s.accesses regs (.entry (.call (.taskCreate tasks n))) s') s' := by
  obtain ⟨mem, next, hadm, _, rfl⟩ := hc.dispatch
  have hl := installTasks_loads mem.slot (taskAdmit_le hadm) (s.interrupt regs) next
    ((s.interrupt regs).installTasks mem.slot n).rq.highestPrio
  have hl' := Loads.trans (.of_log rfl rfl rfl rfl) hl (quiet_enableInterrupts _)
  have hset : Loads s (s.created mem.slot n) next _ := { hl' with }
  have hnil : AccessHistory.Tracks s.contexts [] := by
    intro t v hv
    cases hv
  rw [accesses, hset.dispatched]
  simp only [writes, filled, hadm]
  have hr := hset.recorded_created hnil trivial
  rw [List.append_nil] at hr
  exact hr

theorem SwitchRun.recorded (hr : SwitchRun h s) : Recorded h s := by
  induction hr with
  | start tasks n regs hc => exact hc.recorded
  | step _ regs a hs ih => exact ih.perform hs

/-- A saved context only changes when its task is switched out or `task_create` installs a set. -/
theorem contexts_changed (hcur : s.curTcb = some cur) (hs : s.perform regs a = .ok s')
    (ht : s'.contexts t ≠ s.contexts t) :
    (t = cur ∧ .store t regs ∈ s.accesses regs a s' ∧ s'.contexts t = regs) ∨
      ∃ tasks n, a = .entry (.call (.taskCreate tasks n)) ∧
        .fill t (s'.contexts t) ∈ s.accesses regs a s' := by
  have hu := perform_uses hcur hs
  generalize s.accesses regs a s' = w at hu ⊢
  cases hu with
  | quiet hq => exact absurd (congrFun hq.contexts t) ht
  | full cur' next hcur' hl =>
    cases hcur.symm.trans hcur'
    rw [hl.contexts, Function.update_apply] at ht ⊢
    split_ifs at ht ⊢ with he
    · subst he
      exact Or.inl ⟨rfl, by simp, rfl⟩
    · exact absurd rfl ht
  | half next hl => exact absurd (congrFun hl.contexts t) ht
  | create tasks n next mem ha hl =>
    right
    refine ⟨tasks, n, ha, ?_⟩
    rw [hl.contexts, created_eq] at ht ⊢
    split_ifs at ht ⊢ with hmem
    · exact List.mem_cons_of_mem _ (List.mem_map.mpr ⟨t, hmem, rfl⟩)
    · exact absurd rfl ht

/-- The contexts of the run with history `h` that has reached `s`. -/
structure RegistersKept (h : AccessHistory TcbPtr SchedContext) (s : KState) : Prop where
  /-- A task dispatched again gets the registers it was switched out with. -/
  reloads : h.Reloads
  /-- The first dispatch after `task_create` gets what `allocate_tasks` wrote. -/
  firstLoads : h.FirstLoads
  /-- In between, the context of a task is where they are kept. -/
  tracks : h.Tracks s.contexts
  /-- Only its own switch-out and `task_create` change the context of a task. -/
  changed : ∀ regs a s' t, s.perform regs a = .ok s' → s'.contexts t ≠ s.contexts t →
    (s.curTcb = some t ∧ .store t regs ∈ s.accesses regs a s' ∧ s'.contexts t = regs) ∨
      ∃ tasks n, a = .entry (.call (.taskCreate tasks n)) ∧
        .fill t (s'.contexts t) ∈ s.accesses regs a s'

/-- The switch routines store and load the registers as the model has it, and no run of
dispatches and kernel entries loses the registers of a task. -/
theorem registersPreserved :
    (∀ w base s p next last k, Represents w base s p → p.reg 0 = ctxAddr base next →
      p.reg 1 = ctxAddr base last →
      Represents w base (s.ctxSwitchFull next last k) (SwitchInsn.run ctxSwitchFullAsm p) ∧
        (SwitchInsn.run ctxSwitchFullAsm p).reg CoreReg.pc =
          w (s.ctxSwitchFull next last k).regs.lr ∧
        ∀ a, a < ctxAddr base last ∨ ctxAddr base last + 4 * switchRegisters.length ≤ a →
          (SwitchInsn.run ctxSwitchFullAsm p).mem a = p.mem a) ∧
    (∀ w base s p next, Represents w base s p → p.reg 0 = ctxAddr base next →
      Represents w base (s.ctxSwitchHalf next) (SwitchInsn.run ctxSwitchHalfAsm p) ∧
        (SwitchInsn.run ctxSwitchHalfAsm p).reg CoreReg.pc = w (s.ctxSwitchHalf next).regs.lr ∧
        (SwitchInsn.run ctxSwitchHalfAsm p).mem = p.mem) ∧
    ∀ h s, SwitchRun h s → RegistersKept h s := by
  refine ⟨?_, ?_, ?_⟩
  · intro w base s p next last k hp h0 h1
    exact hp.ctxSwitchFull h0 h1 k
  · intro w base s p next hp h0
    exact hp.ctxSwitchHalf h0
  · intro h s hr
    have hrec := hr.recorded
    refine ⟨hrec.consistent.reloads, hrec.consistent.firstLoads, hrec.tracks, ?_⟩
    intro regs a s' t hs ht
    obtain ⟨cur, v, hcur, _⟩ := hrec.running
    refine (contexts_changed hcur hs ht).imp_left ?_
    rintro ⟨rfl, hstore⟩
    exact ⟨hcur, hstore⟩

section Sample

/-- Run a list of activities, each with its registers. -/
def performAll : List (SchedContext × Activity) → AccessHistory TcbPtr SchedContext → KState →
    Option (AccessHistory TcbPtr SchedContext × KState)
  | [], h, s => some (h, s)
  | (regs, a) :: as, h, s => match s.perform regs a with
    | .ok s' => performAll as (s.accesses regs a s' ++ h) s'
    | .error _ => none

theorem performAll_run {as : List (SchedContext × Activity)}
    {h' : AccessHistory TcbPtr SchedContext} (hx : performAll as h s = some (h', s'))
    (hr : SwitchRun h s) : SwitchRun h' s' := by
  induction as generalizing h s with
  | nil =>
    cases hx
    exact hr
  | cons x as ih =>
    obtain ⟨regs, a⟩ := x
    rw [performAll] at hx
    split at hx
    · rename_i s₁ hs
      exact ih hx (hr.step regs a hs)
    · cases hx

/-- Registers that can be told apart. -/
def sampleContext (x : Nat) : SchedContext :=
  ⟨.val x, .val (x + 1), .val (x + 2), .val (x + 3), .val (x + 4), .val (x + 5), .val (x + 6),
    .val (x + 7), .val (x + 8), .val (x + 9)⟩

def sampleWord : Word → Nat
  | .val v => v
  | .kstackHigh t => tcbSize * t
  | _ => 0

/-- Task 1 calls with 4 to 13 in its registers, and `r0` and `r1` both point to its context. -/
def sampleCore : Core where
  reg := fun r =>
    if r.val < 2 then ctxAddr 0 ⟨1, by decide⟩
    else if r.val < 12 then r.val
    else r.val - 1
  mem := fun _ => 0

theorem sampleCore_represents :
    Represents sampleWord 0 { boot with regs := sampleContext 4 } sampleCore where
  live := by decide
  saved := by decide

end Sample

/-- A task switches to itself, and another is preempted and dispatched again. -/
theorem registersPreserved_again :
    Represents sampleWord 0 (KState.ctxSwitchFull 1 1 .devUpdate
      { boot with regs := sampleContext 4 }) (SwitchInsn.run ctxSwitchFullAsm sampleCore) ∧
    Represents sampleWord 0 (KState.ctxSwitchHalf 1 { boot with regs := sampleContext 4 })
      (SwitchInsn.run ctxSwitchHalfAsm sampleCore) ∧
    ∃ h s, SwitchRun h s ∧ RegistersKept h s ∧ ∃ c₂,
      h.take 6 = [.load 2 (sampleContext 30), .store 1 (sampleContext 40),
        .load 1 (sampleContext 20), .store 2 (sampleContext 30),
        .load 2 c₂, .store 1 (sampleContext 20)] := by
  have hx : (createSet zeroContext sampleTasks 2 boot).bind (fun s =>
      (performAll [(sampleContext 20, .entry (.call (.eventWait 0))),
        (sampleContext 30, .entry (.timer 100)), (sampleContext 40, .dispatchSleep .launch)]
        (boot.accesses zeroContext (.entry (.call (.taskCreate sampleTasks 2))) s) s).map
      fun x => x.1.take 6) = some [.load 2 (sampleContext 30), .store 1 (sampleContext 40),
        .load 1 (sampleContext 20), .store 2 (sampleContext 30),
        .load 2 (boot.allocated sampleTasks 2 2), .store 1 (sampleContext 20)] := by
    decide +kernel
  obtain ⟨s, hc, hmap⟩ := Option.bind_eq_some_iff.mp hx
  obtain ⟨⟨h, s'⟩, hp, htake⟩ := Option.map_eq_some_iff.mp hmap
  have hrun : SwitchRun h s' := performAll_run hp (.start sampleTasks 2 _ (createSet_creates hc))
  exact ⟨(registersPreserved.1 _ _ _ _ 1 1 _ sampleCore_represents rfl rfl).1,
    (registersPreserved.2.1 _ _ _ _ 1 sampleCore_represents rfl).1,
    h, s', hrun, registersPreserved.2.2 h s' hrun, _, htake⟩

end KState

end RtosKernel
