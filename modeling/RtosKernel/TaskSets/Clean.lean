import RtosKernel.Kernel.Execute
import RtosKernel.Scheduling.Boot

namespace RtosKernel.KState

/-- A TCB that holds no lock and waits for nothing. -/
def AtRest (x : Tcb) : Prop :=
  x.holdsLock = 0 ∧ x.sleepQueue = none ∧ x.mutexSleepQueue = none ∧ x.pending = 0

/-- Nothing in the kernel points to a TCB but the run queue to the tasks just created. -/
structure CleanStart (n : Nat) (s : KState) : Prop where
  unlocked : ∀ m < osNumMutex, (s.gtMutex m).bLock = false
  unowned : ∀ m < osNumMutex, (s.gtMutex m).pHoldingTcb = none
  noWaiter : ∀ m < osNumMutex, (s.gtMutex m).pSleepQueue = none
  noSleeper : ∀ d < numDevices, (s.devices d).sleepQ = none
  runnable : ∀ p t, s.rq.runList p = some t → t.val = p ∧ IsTask n t
  tcb : ∀ t, IsTask n t → AtRest (s.systemTcb t)

/-- The mutexes are as `mutex_init` left them, apart from `bAvailable`. -/
def LocksReset (s : KState) : Prop :=
  ∀ m < osNumMutex, (s.gtMutex m).bLock = false ∧ (s.gtMutex m).pHoldingTcb = none ∧
    (s.gtMutex m).pSleepQueue = none

variable {tasks : Nat → Task} {n : Nat} {regs : SchedContext} {s s' : KState}

theorem initTcb_clean (tasks : Nat → Task) (n : Nat) (t : TcbPtr) (x : Tcb) :
    AtRest (initTcb tasks n t x) := by
  unfold initTcb
  split_ifs <;> exact ⟨rfl, rfl, rfl, rfl⟩

/-- `allocate_tasks` passes the mutexes of the old set on as they are. -/
theorem Creates.gtMutex (h : Creates tasks n regs s s') : s'.gtMutex = s.gtMutex := by
  obtain ⟨mem, next, s₁, _, hn, rfl, _, _, rfl⟩ := h.fresh
  exact (installTasks_installed mem.slot n hn (s.interrupt regs)).mutex

/-- Run queue, devices and TCBs are clean after every `task_create`. -/
theorem Creates.cleanStart (h : Creates tasks n regs s s') (hl : LocksReset s) :
    CleanStart n s' := by
  have hgt := h.gtMutex
  obtain ⟨mem, next, s₁, _, hn, rfl, hp, _, rfl⟩ := h.fresh
  have hi := installTasks_installed mem.slot n hn (s.interrupt regs)
  refine
    { unlocked := ?_, unowned := ?_, noWaiter := ?_, noSleeper := ?_, runnable := ?_
      tcb := ?_ }
  · intro m hm
    rw [hgt]
    exact (hl m hm).1
  · intro m hm
    rw [hgt]
    exact (hl m hm).2.1
  · intro m hm
    rw [hgt]
    exact (hl m hm).2.2
  · intro d hd
    have hdev := congrFun hi.dev d
    change (((s.interrupt regs).installTasks mem.slot n).devices d).sleepQ = none
    rw [hdev]
    change (if d < numDevices then _ else _ : Dev).sleepQ = none
    rw [if_pos hd]
  · intro p t ht
    apply (hi.slot p t).mp
    have hrl : (if p = ((s.interrupt regs).installTasks mem.slot n).rq.highestPrio then none
        else ((s.interrupt regs).installTasks mem.slot n).rq.runList p) = some t := by
      rw [← Function.update_apply]
      exact ht
    split_ifs at hrl
    exact hrl
  · intro t ht
    change AtRest (((s.interrupt regs).installTasks mem.slot n).systemTcb t)
    rw [hi.tcb, if_pos ht]
    exact initTcb_clean _ _ _ _

theorem Creates.cleanStart_iff (h : Creates tasks n regs s s') :
    CleanStart n s' ↔ LocksReset s := by
  refine ⟨fun hc m hm => ?_, h.cleanStart⟩
  rw [← h.gtMutex]
  exact ⟨hc.unlocked m hm, hc.unowned m hm, hc.noWaiter m hm⟩

end RtosKernel.KState
