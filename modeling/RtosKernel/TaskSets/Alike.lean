import RtosKernel.Kernel.Entry
import RtosKernel.Math.Loop

namespace RtosKernel

/-- The same registers but for `r9` to `r11`, which `allocate_tasks` leaves as they are. -/
structure SchedContext.Alike (a b : SchedContext) : Prop where
  r4 : b.r4 = a.r4
  r5 : b.r5 = a.r5
  r6 : b.r6 = a.r6
  r7 : b.r7 = a.r7
  r8 : b.r8 = a.r8
  sp : b.sp = a.sp
  lr : b.lr = a.lr

structure Tcb.Alike (x y : Tcb) : Prop where
  nativePrio : y.nativePrio = x.nativePrio
  curPrio : y.curPrio = x.curPrio
  context : x.context.Alike y.context
  holdsLock : y.holdsLock = x.holdsLock
  sleepQueue : y.sleepQueue = x.sleepQueue
  pending : y.pending = x.pending
  mutexSleepQueue : y.mutexSleepQueue = x.mutexSleepQueue

/-- Whatever `x` points to is in `K`. -/
def Tcb.Inside (K : TcbPtr → Prop) (x : Tcb) : Prop :=
  (∀ u, x.sleepQueue = some u → K u) ∧ ∀ u, x.mutexSleepQueue = some u → K u

namespace KState

/-- Two kernels agree on what `task_create` does not reset, as far as it concerns the TCBs in
`K`, and have logged the same since they had `L` and `L'`. No pointer in sight leads out of `K`. -/
structure KeptAlike (K : TcbPtr → Prop) (L L' : List Event) (s r : KState) : Prop where
  tcb : ∀ t, K t → (s.systemTcb t).Alike (r.systemTcb t)
  mutex : ∀ m < osNumMutex, r.gtMutex m = s.gtMutex m
  frame : ∀ t, K t → r.frames t = s.frames t
  time : r.systemTime = s.systemTime ∧ r.timeDrift = s.timeDrift
  log : ∃ l, s.log = l ++ L ∧ r.log = l ++ L'
  tcbIn : ∀ t, K t → (s.systemTcb t).Inside K
  waiterIn : ∀ m < osNumMutex, ∀ t, (s.gtMutex m).pSleepQueue = some t → K t
  frameIn : ∀ t i, K t → s.frames t = .mutexLock i → i < osNumMutex

/-- Two kernels that agree on all that the tasks in `K` can see. -/
structure Alike (K : TcbPtr → Prop) (L L' : List Event) (s r : KState) : Prop
    extends KeptAlike K L L' s r where
  rq : r.rq = s.rq
  cur : r.curTcb = s.curTcb
  device : ∀ d < numDevices, r.devices d = s.devices d
  regs : s.regs.Alike r.regs
  curIn : ∀ t, s.curTcb = some t → K t
  slotIn : ∀ p t, s.rq.runList p = some t → K t
  sleeperIn : ∀ d < numDevices, ∀ t, (s.devices d).sleepQ = some t → K t

variable {K : TcbPtr → Prop} {L L' : List Event} {s r : KState} {t u c next last : TcbPtr}
  {m d : Nat} {k : Frame}

namespace Alike

theorem emit (h : Alike K L L' s r) (e : Event) : Alike K L L' (s.emit e) (r.emit e) where
  __ := h
  log := by
    obtain ⟨l, hs, hr⟩ := h.log
    exact ⟨e :: l, congrArg (e :: ·) hs, congrArg (e :: ·) hr⟩

theorem ret (h : Alike K L L' s r) (call : Call) (v : Int) :
    Alike K L L' (s.ret call v) (r.ret call v) := by
  unfold KState.ret
  rw [h.cur]
  exact h.emit _

theorem disableInterrupts (h : Alike K L L' s r) :
    Alike K L L' s.disableInterrupts r.disableInterrupts where
  __ := h

theorem enableInterrupts (h : Alike K L L' s r) :
    Alike K L L' s.enableInterrupts r.enableInterrupts where
  __ := h

theorem setTcb (h : Alike K L L' s r) {f g : Tcb → Tcb}
    (hf : (f (s.systemTcb t)).Alike (g (r.systemTcb t))) (hin : (f (s.systemTcb t)).Inside K) :
    Alike K L L' (s.setTcb t f) (r.setTcb t g) where
  __ := h
  tcb := by
    intro u hu
    rw [setTcb_apply, setTcb_apply]
    split_ifs
    · exact hf
    · exact h.tcb u hu
  tcbIn := by
    intro u hu
    rw [setTcb_apply]
    split_ifs
    · exact hin
    · exact h.tcbIn u hu

theorem setMutex (h : Alike K L L' s r) {f : Mutex → Mutex} (hm : m < osNumMutex)
    (hin : ∀ u, (f (s.gtMutex m)).pSleepQueue = some u → K u) :
    Alike K L L' (s.setMutex m f) (r.setMutex m f) where
  __ := h
  mutex := by
    intro i hi
    rw [setMutex_apply, setMutex_apply, h.mutex i hi, h.mutex m hm]
  waiterIn := by
    intro i hi
    rw [setMutex_apply]
    split_ifs
    · exact hin
    · exact h.waiterIn i hi

theorem setDev (h : Alike K L L' s r) {f : Dev → Dev} (hd : d < numDevices)
    (hin : ∀ u, (f (s.devices d)).sleepQ = some u → K u) :
    Alike K L L' (s.setDev d f) (r.setDev d f) where
  __ := h
  device := by
    intro i hi
    rw [setDev_apply, setDev_apply, h.device i hi, h.device d hd]
  sleeperIn := by
    intro i hi
    rw [setDev_apply]
    split_ifs
    · exact hin
    · exact h.sleeperIn i hi

theorem runqueueAdd (h : Alike K L L' s r) (ht : K t) (p : Nat) :
    Alike K L L' (s.runqueueAdd t p) (r.runqueueAdd t p) := by
  have hadd : Alike K L L' { s with rq := s.rq.runqueueAdd t p }
      { r with rq := r.rq.runqueueAdd t p } :=
    { h with
      rq := by rw [h.rq]
      slotIn := by
        intro q u hu
        change (if s.rq.runList p = none then Function.update s.rq.runList p (some t)
          else s.rq.runList) q = some u at hu
        split_ifs at hu
        · rw [Function.update_apply] at hu
          split_ifs at hu
          · cases hu
            exact ht
          · exact h.slotIn q u hu
        · exact h.slotIn q u hu }
  have hem := hadd.emit (.runqueueAdd t p (s.rq.runList p))
  unfold KState.runqueueAdd
  rw [h.rq] at hem ⊢
  exact hem

theorem takeSlot (h : Alike K L L' s r) (ht : K t) (p : Nat) :
    Alike K L L' (s.takeSlot p t) (r.takeSlot p t) := by
  have htake : Alike K L L' { s with rq := (s.rq.runqueueRemove p).1, curTcb := some t }
      { r with rq := (r.rq.runqueueRemove p).1, curTcb := some t } :=
    { h with
      rq := by rw [h.rq]
      cur := rfl
      curIn := by
        intro u hu
        cases hu
        exact ht
      slotIn := by
        intro q u hu
        change Function.update s.rq.runList p none q = some u at hu
        rw [Function.update_apply] at hu
        split_ifs at hu
        exact h.slotIn q u hu }
  have hem := htake.emit (.dispatch s.rq p t)
  unfold KState.takeSlot
  rw [h.rq] at hem ⊢
  exact hem

theorem mutexLockTail (h : Alike K L L' s r) (hc : K c) (hm : m < osNumMutex) :
    Alike K L L' (s.mutexLockTail m c) (r.mutexLockTail m c) := by
  have hx := h.tcb c hc
  have htcb : Alike K L L'
      (s.setTcb c fun t => { t with holdsLock := wrap32 (t.holdsLock + 1)
                                    curPrio := highestPriority })
      (r.setTcb c fun t => { t with holdsLock := wrap32 (t.holdsLock + 1)
                                    curPrio := highestPriority }) :=
    h.setTcb { hx with holdsLock := by rw [hx.holdsLock], curPrio := rfl } (h.tcbIn c hc)
  have hmutex := htcb.setMutex (f := fun x => { x with pHoldingTcb := some c }) hm
    (h.waiterIn m hm)
  exact hmutex.enableInterrupts.ret _ _

end Alike

end KState

end RtosKernel
