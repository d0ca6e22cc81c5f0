import RtosKernel.TaskSets.History
import RtosKernel.TaskSets.Isolation

namespace RtosKernel.KState

variable {K : TcbPtr → Prop} {L L' : List Event} {s s' r r' : KState} {regs regs' : SchedContext}
  {tasks : Nat → Task} {n : Nat} {op : Op} {ok : KState → Op → Prop}

/-- The same run queue and the same news. -/
structure SameQueue (L L' : List Event) (s r : KState) : Prop where
  rq : r.rq = s.rq
  log : ∃ l, s.log = l ++ L ∧ r.log = l ++ L'

theorem SameQueue.install (h : SameQueue L L' s r) (t : TcbPtr) (p : Nat) (f : Tcb → Tcb) :
    SameQueue L L' (s.install t p f) (r.install t p f) where
  rq := congrArg (RunQueue.runqueueAdd t p) h.rq
  log := by
    obtain ⟨l, hs, hr⟩ := h.log
    refine ⟨.runqueueAdd t p (s.rq.runList p) :: l, congrArg _ hs, ?_⟩
    change Event.runqueueAdd t p (r.rq.runList p) :: r.log = _
    rw [h.rq, hr]
    rfl

/-- The loop of `allocate_tasks` builds the run queue from scratch. -/
theorem installTasks_sameQueue (tasks : Nat → Task) (n : Nat)
    (hlog : ∃ l, s.log = l ++ L ∧ r.log = l ++ L') :
    SameQueue L L' (s.installTasks tasks n) (r.installTasks tasks n) := by
  unfold installTasks
  apply SameQueue.install
  apply List.foldl_rel
  · exact { rq := rfl, log := hlog }
  · intro i _ a b hab
    exact hab.install _ _ _

theorem initTcb_alike (tasks : Nat → Task) (n : Nat) (t : TcbPtr) (x y : Tcb) :
    (initTcb tasks n t x).Alike (initTcb tasks n t y) := by
  unfold initTcb
  split_ifs <;>
  · refine
      { nativePrio := rfl, curPrio := rfl, context := ?_, holdsLock := rfl, sleepQueue := rfl
        pending := rfl, mutexSleepQueue := rfl }
    constructor <;> rfl

theorem KeptAlike.installTasks (h : KeptAlike K L L' s r) (tasks : Nat → Task) (hn : n ≤ 62) :
    KeptAlike (fun t => K t ∨ IsTask n t) L L' (s.installTasks tasks n)
      (r.installTasks tasks n) := by
  have hi := installTasks_installed tasks n hn s
  have hj := installTasks_installed tasks n hn r
  refine
    { tcb := fun t ht => ?_, mutex := ?_, frame := fun t ht => ?_, time := ?_
      log := (installTasks_sameQueue tasks n h.log).log, tcbIn := fun t ht => ?_
      waiterIn := fun m hm t ht => ?_, frameIn := fun t i ht hf => ?_ }
  · rw [hi.tcb, hj.tcb]
    split_ifs with hnew
    · exact initTcb_alike tasks n t _ _
    · exact h.tcb t (ht.resolve_right hnew)
  · rw [hi.mutex, hj.mutex]
    exact h.mutex
  · rw [hi.frame, hj.frame]
    split_ifs with hnew
    · rfl
    · exact h.frame t (ht.resolve_right hnew)
  · exact ⟨hj.time.1.trans (h.time.1.trans hi.time.1.symm),
      hj.time.2.trans (h.time.2.trans hi.time.2.symm)⟩
  · rw [hi.tcb]
    split_ifs with hnew
    · obtain ⟨_, hsleep, hwait, _⟩ := initTcb_clean tasks n t (s.systemTcb t)
      refine ⟨fun u hu => ?_, fun u hu => ?_⟩
      · cases hsleep.symm.trans hu
      · cases hwait.symm.trans hu
    · obtain ⟨hsleep, hwait⟩ := h.tcbIn t (ht.resolve_right hnew)
      exact ⟨fun u hu => Or.inl (hsleep u hu), fun u hu => Or.inl (hwait u hu)⟩
  · rw [hi.mutex] at ht
    exact Or.inl (h.waiterIn m hm t ht)
  · rw [hi.frame] at hf
    split_ifs at hf with hnew
    exact h.frameIn t i (ht.resolve_right hnew) hf

/-- `allocate_tasks` makes kernels alike that agree on what it does not reset: the queues, the
current task and the devices of the old set are gone. -/
theorem KeptAlike.allocateTasks (h : KeptAlike K L L' s r) (tasks : Nat → Task) (hn : n ≤ 62) :
    ExceptRel (Alike (fun t => K t ∨ IsTask n t) L L') (s.allocateTasks tasks n)
      (r.allocateTasks tasks n) := by
  have hq := installTasks_sameQueue tasks n h.log
  have hi := installTasks_installed tasks n hn s
  have hj := installTasks_installed tasks n hn r
  have hkept := h.installTasks tasks hn
  unfold KState.allocateTasks dispatchNosave
  cases hslot : (s.installTasks tasks n).rq.runList (s.installTasks tasks n).rq.highestPrio with
  | none =>
    have hs : (s.installTasks tasks n).removeHighest = .error .nullTcb := by
      simp [removeHighest, hslot]
    have hr : (r.installTasks tasks n).removeHighest = .error .nullTcb := by
      simp [removeHighest, hq.rq, hslot]
    rw [hs, hr]
    rfl
  | some next =>
    have hp : (s.installTasks tasks n).Picks next := ⟨hslot⟩
    have hp' : (r.installTasks tasks n).Picks next := ⟨by rw [hq.rq]; exact hslot⟩
    have ht : IsTask n next := ((hi.slot _ _).mp hslot).2
    rw [removeHighest_eq hp, removeHighest_eq hp']
    change Alike _ L L'
      (((s.installTasks tasks n).takeSlot (s.installTasks tasks n).rq.highestPrio
        next).ctxSwitchHalf next)
      (((r.installTasks tasks n).takeSlot (r.installTasks tasks n).rq.highestPrio
        next).ctxSwitchHalf next)
    have hlaunch (a : KState) (ha : a.frames next = .launch) :
        (a.takeSlot a.rq.highestPrio next).ctxSwitchHalf next =
          { a.takeSlot a.rq.highestPrio next with
            regs := (a.systemTcb next).context, masked := false } := ctxSwitchHalf_launch ha
    rw [hlaunch _ ((hi.frame next).trans (if_pos ht)),
      hlaunch _ ((hj.frame next).trans (if_pos ht)), hq.rq]
    refine
      { hkept with
        log := ?_, rq := ?_, cur := rfl, device := fun d hd => ?_, regs := ?_
        curIn := fun t hcur => ?_, slotIn := fun p t hpt => ?_, sleeperIn := fun d hd t hsl => ?_ }
    · obtain ⟨l, hls, hlr⟩ := hq.log
      refine ⟨.dispatch (s.installTasks tasks n).rq (s.installTasks tasks n).rq.highestPrio next ::
        l, congrArg _ hls, ?_⟩
      change Event.dispatch (r.installTasks tasks n).rq _ next :: (r.installTasks tasks n).log = _
      rw [hq.rq, hlr]
      rfl
    · exact congrArg (fun q : RunQueue => (q.runqueueRemove _).1) hq.rq
    · change (r.installTasks tasks n).devices d = (s.installTasks tasks n).devices d
      rw [hi.dev, hj.dev]
      change (if d < numDevices then _ else r.devices d) = if d < numDevices then _ else s.devices d
      rw [if_pos hd, if_pos hd]
    · exact (hkept.tcb next (Or.inr ht)).context
    · cases hcur
      exact Or.inr ht
    · change Function.update (s.installTasks tasks n).rq.runList _ none p = some t at hpt
      rw [Function.update_apply] at hpt
      split_ifs at hpt
      exact Or.inr ((hi.slot p t).mp hpt).2
    · change ((s.installTasks tasks n).devices d).sleepQ = some t at hsl
      rw [hi.dev] at hsl
      change (if d < numDevices then _ else s.devices d : Dev).sleepQ = some t at hsl
      rw [if_pos hd] at hsl
      cases hsl

/-- Two kernels that agree on all that any task can see. -/
def Twins (L L' : List Event) (s r : KState) : Prop := ∃ K, Alike K L L' s r

theorem Alike.taskCreate (h : Alike K L L' s r) (tasks : Nat → Task) (n : Nat) :
    ExceptRel (Twins L L') (s.taskCreate tasks n) (r.taskCreate tasks n) := by
  unfold KState.taskCreate
  cases hadm : taskAdmit n ⟨tasks, [], []⟩ with
  | error e => rfl
  | ok out =>
    obtain ⟨mem, _ | code⟩ := out
    · have hn := taskAdmit_le hadm
      exact (h.disableInterrupts.toKeptAlike.allocateTasks mem.slot hn).mono
        fun a b hab => ⟨_, hab⟩
    · exact ⟨K, h.ret _ code⟩

/-- One kernel entry, from user programs that agree on their registers. -/
theorem Twins.step (h : Twins L L' s r) (hregs : regs.Alike regs') (hop : anySet s op) :
    ExceptRel (Twins L L') (s.step regs op) (r.step regs' op) := by
  obtain ⟨K, h⟩ := h
  have twins {a b : KState} (hab : Alike K L L' a b) : Twins L L' a b := ⟨K, hab⟩
  have hret {a b : KState} : Twins L L' a b → Twins L L' a.enableInterrupts b.enableInterrupts :=
    fun ⟨K, hab⟩ => ⟨K, hab.enableInterrupts⟩
  cases op with
  | timer millis =>
    have hirq : Alike K L L' (s.interrupt regs) (r.interrupt regs') := { h with regs := hregs }
    exact ((hirq.devUpdate millis).mono fun _ _ => twins).map fun _ _ => hret
  | call c =>
    have htrap : Alike K L L' (s.trap regs) (r.trap regs') := { h with regs := hregs }
    have hcall : ExceptRel (Twins L L') (syscall c (s.trap regs)) (syscall c (r.trap regs')) := by
      cases c with
      | mutexCreate => exact twins htrap.mutexCreate
      | mutexLock mutex => exact (htrap.mutexLock mutex).mono fun _ _ => twins
      | mutexUnlock mutex => exact (htrap.mutexUnlock mutex).mono fun _ _ => twins
      | eventWait dev => exact (htrap.eventWait hop).mono fun _ _ => twins
      | taskCreate tasks n => exact htrap.taskCreate tasks n
    exact hcall.map fun _ _ => hret

/-- The same entry, with registers that differ at most in `r9` to `r11`. -/
def SameEntry (e e' : SchedContext × Op) : Prop := e.1.Alike e'.1 ∧ e'.2 = e.2

/-- What a series of kernel entries makes of `s`. -/
def entries (es : List (SchedContext × Op)) (s : KState) : Except Fault KState :=
  es.foldlM (fun s e => s.step e.1 e.2) s

theorem Twins.entries (h : Twins L L' s r) {es es' : List (SchedContext × Op)}
    (hes : List.Forall₂ SameEntry es es') (hop : ∀ e ∈ es, anySet s e.2) :
    ExceptRel (Twins L L') (entries es s) (entries es' r) := by
  induction hes generalizing s r with
  | nil => exact h
  | @cons e e' es es' he hes ih =>
    obtain ⟨hregs, heq⟩ := he
    change ExceptRel (Twins L L') (Except.bind (s.step e.1 e.2) (KState.entries es))
      (Except.bind (r.step e'.1 e'.2) (KState.entries es'))
    rw [heq]
    rcases (h.step hregs (hop e (by simp))).cases with ⟨f, hs, hr⟩ | ⟨s₁, r₁, hs, hr, h₁⟩
    · rw [hs, hr]
      rfl
    · rw [hs, hr]
      exact ih h₁ fun e he => hop e (by simp [he])

/-- The old sets may have left any queues, registers and TCBs behind. -/
theorem Creates.twins (hc : Creates tasks n regs s s') (hc' : Creates tasks n regs' r r')
    (hmutex : ∀ m < osNumMutex, r.gtMutex m = s.gtMutex m)
    (hwait : ∀ m < osNumMutex, (s.gtMutex m).pSleepQueue = none)
    (htime : r.systemTime = s.systemTime ∧ r.timeDrift = s.timeDrift) :
    Twins s.log r.log s' r' := by
  have hkept : KeptAlike (fun _ => False) s.log r.log (s.trap regs).disableInterrupts
      (r.trap regs').disableInterrupts :=
    { tcb := fun _ ht => ht.elim
      mutex := hmutex
      frame := fun _ ht => ht.elim
      time := htime
      log := ⟨[], rfl, rfl⟩
      tcbIn := fun _ ht => ht.elim
      waiterIn := fun m hm t ht => by cases (hwait m hm).symm.trans ht
      frameIn := fun _ _ ht => ht.elim }
  obtain ⟨⟨mem, hadm⟩, hs⟩ := hc
  obtain ⟨_, hr⟩ := hc'
  have hboth := hkept.allocateTasks mem.slot (taskAdmit_le hadm)
  have hs₁ : ((s.trap regs).taskCreate tasks n).map enableInterrupts = .ok s' := hs
  have hr₁ : ((r.trap regs').taskCreate tasks n).map enableInterrupts = .ok r' := hr
  unfold KState.taskCreate at hs₁ hr₁
  simp only [hadm] at hs₁ hr₁
  rcases hboth.cases with ⟨e, ha, hb⟩ | ⟨a, b, ha, hb, hab⟩
  · rw [ha] at hs₁
    cases hs₁
  · rw [ha] at hs₁
    rw [hb] at hr₁
    cases hs₁
    cases hr₁
    exact ⟨_, hab.enableInterrupts⟩

/-- What a new set finds of the mutexes and the clock apart from locks and queues. -/
def SameSetup (s r : KState) : Prop :=
  (∀ m < osNumMutex, (r.gtMutex m).bAvailable = (s.gtMutex m).bAvailable) ∧
    r.systemTime = s.systemTime ∧ r.timeDrift = s.timeDrift

theorem LocksReset.gtMutex (hs : LocksReset s) (hr : LocksReset r) (h : SameSetup s r) (m : Nat)
    (hm : m < osNumMutex) : r.gtMutex m = s.gtMutex m := by
  obtain ⟨hlock, hown, hq⟩ := hs m hm
  obtain ⟨hlock', hown', hq'⟩ := hr m hm
  have hav := h.1 m hm
  cases hx : s.gtMutex m
  cases hy : r.gtMutex m
  simp_all

/-- A new set starts clean exactly when no earlier task has locked a mutex. Then it runs the same
whatever sets came before, its own later `task_create` calls included. -/
theorem newSetClean (hs : ReachableBy ok s) (hc : Creates tasks n regs s s') :
    (CleanStart n s' ↔ NeverLocked s) ∧
    (NeverLocked s → ∀ r r' regs', ReachableBy ok r → NeverLocked r → SameSetup s r →
      Creates tasks n regs' r r' → ∀ es es', List.Forall₂ SameEntry es es' →
        (∀ e ∈ es, anySet s' e.2) →
          ExceptRel (Twins s.log r.log) (entries es s') (entries es' r')) := by
  refine ⟨hc.cleanStart_iff.trans hs.locksTell.iff, ?_⟩
  intro hnever r r' regs' hr hnever' hsetup hc' es es' hes hop
  have hreset := hs.locksTell.iff.mpr hnever
  have hreset' := hr.locksTell.iff.mpr hnever'
  have htwins := hc.twins hc' (hreset.gtMutex hreset' hsetup) (fun m hm => (hreset m hm).2.2)
    hsetup.2
  exact htwins.entries hes hop

theorem newSetClean_first : ∃ s', Creates sampleTasks 2 zeroContext boot s' ∧
    (CleanStart 2 s' ↔ NeverLocked boot) ∧ NeverLocked boot := by
  have hx : (createSet zeroContext sampleTasks 2 boot).isSome = true := by decide +kernel
  obtain ⟨s', hs⟩ := Option.isSome_iff_exists.mp hx
  have hboot : ReachableBy anySet boot := .refl
  exact ⟨s', createSet_creates hs, (newSetClean hboot (createSet_creates hs)).1,
    hboot.locksTell.iff.mp fun m _ => boot_booted.mutex m⟩

/-- A task locks mutex 0 and starts a new set: mutex 0 stays locked, for TCB 1. -/
theorem lockedMutex_survives : ∃ s s', Run anySet 2 s ∧ Creates sampleTasks 2 zeroContext s s' ∧
    (s'.gtMutex 0).bLock = true ∧ (s'.gtMutex 0).pHoldingTcb = some 1 ∧ ¬ CleanStart 2 s' := by
  have hx : ((startSet zeroContext 1 sampleTasks 2).bind (execute anySet zeroContext
      [.call (.mutexLock 0)])).map (fun s => (createSet zeroContext sampleTasks 2 s).map
        fun s' => ((s'.gtMutex 0).bLock, (s'.gtMutex 0).pHoldingTcb)) =
      some (some (true, some 1)) := by decide +kernel
  obtain ⟨s, hs, hv⟩ := Option.map_eq_some_iff.mp hx
  obtain ⟨s', hs', hv'⟩ := Option.map_eq_some_iff.mp hv
  obtain ⟨hlock, hown⟩ := Prod.mk.inj hv'
  refine ⟨s, s', execute_run hs, createSet_creates hs', hlock, hown, fun hc => ?_⟩
  have hfree := hc.unlocked 0 (by decide)
  rw [hlock] at hfree
  cases hfree

end RtosKernel.KState
