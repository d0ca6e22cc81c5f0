import RtosKernel.Kernel.RunQueue

namespace RtosKernel

abbrev osNumMutex : Nat := 32

abbrev numDevices : Nat := 60

abbrev highestPriority : Nat := 0

namespace Errno

def ePerm : Int := 1
def eNoMem : Int := 12
def eFault : Int := 14
def eInval : Int := 22
def eDeadlock : Int := 58
def eHoldsLock : Int := 59
def eSched : Int := 100

end Errno

/-- A register value: a plain 32-bit word, or an address the linker chooses. -/
inductive Word where
  | val (v : Nat)
  | kstackHigh (tcb : Nat)
  | launchTask
  | idle
  | idleStack
  | globalData
  deriving DecidableEq

structure SchedContext where
  r4 : Word
  r5 : Word
  r6 : Word
  r7 : Word
  r8 : Word
  r9 : Word
  r10 : Word
  r11 : Word
  sp : Word
  lr : Word
  deriving DecidableEq

/-- `struct tcb` without the kernel stack; what a stack still has to run is in `KState.frames`. -/
structure Tcb where
  nativePrio : Nat
  curPrio : Nat
  context : SchedContext
  holdsLock : Int
  sleepQueue : Option TcbPtr
  pending : Int
  mutexSleepQueue : Option TcbPtr

structure Mutex where
  bAvailable : Bool
  pHoldingTcb : Option TcbPtr
  bLock : Bool
  pSleepQueue : Option TcbPtr

structure Dev where
  sleepQ : Option TcbPtr
  nextMatch : Nat

structure Task where
  lambda : Nat
  data : Nat
  stackPos : Nat
  C : Nat
  T : Nat
  B : Nat
  deriving DecidableEq

inductive Call where
  | mutexCreate
  | mutexLock (mutex : Int)
  | mutexUnlock (mutex : Int)
  | eventWait (dev : Nat)
  | taskCreate (tasks : Nat → Task) (numTasks : Nat)

/-- Where a switched-out task continues: the return address and locals on its kernel stack. -/
inductive Frame where
  | launch
  | mutexLock (mutex : Nat)
  | mutexUnlock (mutex : Nat)
  | devWait (dev : Nat)
  | devUpdate
  deriving DecidableEq

/-- What the kernel did, newest first. No function reads it. -/
inductive Event where
  /-- `runqueue_add(tcb, prio)` found `slot` in `run_list[prio]`. -/
  | runqueueAdd (tcb : TcbPtr) (prio : Nat) (slot : Option TcbPtr)
  /-- A dispatcher removed `tcb` from slot `prio` of `rq`. -/
  | dispatch (rq : RunQueue) (prio : Nat) (tcb : TcbPtr)
  /-- `dev_update` advanced the match value of `dev`. -/
  | signal (dev : Nat)
  /-- The call returned `value` to the task `tcb` (`none` before the first task runs). -/
  | returned (tcb : Option TcbPtr) (call : Call) (value : Int)

inductive Fault where
  | nullTcb
  | diverges
  | divByZero
  deriving DecidableEq

/-- The kernel's globals, the callee-saved registers and the interrupt mask. Entries of
`gtMutex` and `devices` past their sizes are the memory that follows the arrays. -/
structure KState where
  rq : RunQueue
  curTcb : Option TcbPtr
  systemTcb : TcbPtr → Tcb
  gtMutex : Nat → Mutex
  devices : Nat → Dev
  frames : TcbPtr → Frame
  regs : SchedContext
  masked : Bool
  systemTime : Nat
  timeDrift : Nat
  log : List Event

abbrev idleTcb : TcbPtr := ⟨idlePrio, by decide⟩

/-- Two's complement addition wraps, as the ARM `add` on an `int` does. -/
def wrap32 (x : Int) : Int := x.bmod (2 ^ 32)

namespace KState

def disableInterrupts (s : KState) : KState := { s with masked := true }

def enableInterrupts (s : KState) : KState := { s with masked := false }

def setTcb (t : TcbPtr) (f : Tcb → Tcb) (s : KState) : KState :=
  { s with systemTcb := Function.update s.systemTcb t (f (s.systemTcb t)) }

def setMutex (m : Nat) (f : Mutex → Mutex) (s : KState) : KState :=
  { s with gtMutex := Function.update s.gtMutex m (f (s.gtMutex m)) }

def setDev (d : Nat) (f : Dev → Dev) (s : KState) : KState :=
  { s with devices := Function.update s.devices d (f (s.devices d)) }

def emit (e : Event) (s : KState) : KState := { s with log := e :: s.log }

def ret (c : Call) (value : Int) (s : KState) : KState := s.emit (.returned s.curTcb c value)

def runqueueAdd (tcb : TcbPtr) (prio : Nat) (s : KState) : KState :=
  { s with rq := s.rq.runqueueAdd tcb prio }.emit (.runqueueAdd tcb prio (s.rq.runList prio))

@[simp] theorem runqueueAdd_runList (t : TcbPtr) (p : Nat) (s : KState) :
    (s.runqueueAdd t p).rq.runList = if s.rq.runList p = none then
      Function.update s.rq.runList p (some t) else s.rq.runList := rfl

section Projections

/-! What each write leaves alone. -/

variable (s : KState) (t : TcbPtr) (m d p : Nat) (f : Tcb → Tcb) (g : Mutex → Mutex)
  (h : Dev → Dev)

@[simp] theorem setTcb_rq : (s.setTcb t f).rq = s.rq := rfl
@[simp] theorem setTcb_gtMutex : (s.setTcb t f).gtMutex = s.gtMutex := rfl
@[simp] theorem setTcb_devices : (s.setTcb t f).devices = s.devices := rfl
@[simp] theorem setTcb_frames : (s.setTcb t f).frames = s.frames := rfl
@[simp] theorem setTcb_curTcb : (s.setTcb t f).curTcb = s.curTcb := rfl
@[simp] theorem setTcb_log : (s.setTcb t f).log = s.log := rfl
@[simp] theorem setMutex_rq : (s.setMutex m g).rq = s.rq := rfl
@[simp] theorem setMutex_systemTcb : (s.setMutex m g).systemTcb = s.systemTcb := rfl
@[simp] theorem setMutex_devices : (s.setMutex m g).devices = s.devices := rfl
@[simp] theorem setMutex_frames : (s.setMutex m g).frames = s.frames := rfl
@[simp] theorem setMutex_curTcb : (s.setMutex m g).curTcb = s.curTcb := rfl
@[simp] theorem setMutex_log : (s.setMutex m g).log = s.log := rfl
@[simp] theorem setDev_rq : (s.setDev d h).rq = s.rq := rfl
@[simp] theorem setDev_systemTcb : (s.setDev d h).systemTcb = s.systemTcb := rfl
@[simp] theorem setDev_gtMutex : (s.setDev d h).gtMutex = s.gtMutex := rfl
@[simp] theorem setDev_frames : (s.setDev d h).frames = s.frames := rfl
@[simp] theorem setDev_curTcb : (s.setDev d h).curTcb = s.curTcb := rfl
@[simp] theorem setDev_log : (s.setDev d h).log = s.log := rfl
@[simp] theorem runqueueAdd_systemTcb : (s.runqueueAdd t p).systemTcb = s.systemTcb := rfl
@[simp] theorem runqueueAdd_gtMutex : (s.runqueueAdd t p).gtMutex = s.gtMutex := rfl
@[simp] theorem runqueueAdd_devices : (s.runqueueAdd t p).devices = s.devices := rfl
@[simp] theorem runqueueAdd_frames : (s.runqueueAdd t p).frames = s.frames := rfl
@[simp] theorem runqueueAdd_curTcb : (s.runqueueAdd t p).curTcb = s.curTcb := rfl

theorem setTcb_apply (u : TcbPtr) :
    (s.setTcb t f).systemTcb u = if u = t then f (s.systemTcb t) else s.systemTcb u :=
  Function.update_apply ..

theorem setMutex_apply (i : Nat) :
    (s.setMutex m g).gtMutex i = if i = m then g (s.gtMutex m) else s.gtMutex i :=
  Function.update_apply ..

theorem setDev_apply (i : Nat) :
    (s.setDev d h).devices i = if i = d then h (s.devices d) else s.devices i :=
  Function.update_apply ..

end Projections

def mutexLink (s : KState) (t : TcbPtr) : Option TcbPtr := (s.systemTcb t).mutexSleepQueue

def sleepLink (s : KState) (t : TcbPtr) : Option TcbPtr := (s.systemTcb t).sleepQueue

@[simp] theorem runqueueAdd_links (t : TcbPtr) (p : Nat) (s : KState) :
    (s.runqueueAdd t p).mutexLink = s.mutexLink ∧ (s.runqueueAdd t p).sleepLink = s.sleepLink :=
  ⟨rfl, rfl⟩

@[simp] theorem setMutex_links (m : Nat) (f : Mutex → Mutex) (s : KState) :
    (s.setMutex m f).mutexLink = s.mutexLink ∧ (s.setMutex m f).sleepLink = s.sleepLink :=
  ⟨rfl, rfl⟩

@[simp] theorem setDev_links (d : Nat) (f : Dev → Dev) (s : KState) :
    (s.setDev d f).mutexLink = s.mutexLink ∧ (s.setDev d f).sleepLink = s.sleepLink :=
  ⟨rfl, rfl⟩

/-- The end of `mutex_lock`: the caller becomes the recorded owner. -/
def mutexLockTail (m : Nat) (cur : TcbPtr) (s : KState) : KState :=
  ((s.setTcb cur fun t => { t with holdsLock := wrap32 (t.holdsLock + 1)
                                   curPrio := highestPriority }).setMutex m
    fun x => { x with pHoldingTcb := some cur }).enableInterrupts.ret (.mutexLock m) 0

/-- Run what the dispatched task had left to do in the kernel. -/
def resume (next : TcbPtr) (s : KState) : KState :=
  match s.frames next with
  | .launch => s.enableInterrupts
  | .mutexLock m => s.mutexLockTail m next
  | .mutexUnlock m => s.enableInterrupts.ret (.mutexUnlock m) 0
  | .devWait dev => s.enableInterrupts.ret (.eventWait dev) 0
  | .devUpdate => s.enableInterrupts

/-- Store the registers in `last`, load those of `next`, continue `next`. The store comes first,
so that the two may be the same TCB. -/
def ctxSwitchFull (next last : TcbPtr) (k : Frame) (s : KState) : KState :=
  let s := s.setTcb last fun t => { t with context := s.regs }
  let s := { s with frames := Function.update s.frames last k }
  resume next { s with regs := (s.systemTcb next).context }

def ctxSwitchHalf (next : TcbPtr) (s : KState) : KState :=
  resume next { s with regs := (s.systemTcb next).context }

/-- `cur_tcb = runqueue_remove(prio)` on a slot that holds `next`. -/
def takeSlot (prio : Nat) (next : TcbPtr) (s : KState) : KState :=
  { s with rq := (s.rq.runqueueRemove prio).1, curTcb := some next }.emit
    (.dispatch s.rq prio next)

/-- The common middle of the three dispatchers. A NULL TCB faults: the context switch that
follows reads through it. -/
def removeHighest (s : KState) : Except Fault (KState × TcbPtr) :=
  let prio := s.rq.highestPrio
  match (s.rq.runqueueRemove prio).2 with
  | none => .error .nullTcb
  | some next => .ok (s.takeSlot prio next, next)

/-- The first half of `dispatch_save`: a task that does not wait for a mutex stays runnable. -/
def saveCur (last : TcbPtr) (s : KState) : KState :=
  if (s.systemTcb last).pending ≠ 1 then s.runqueueAdd last (s.systemTcb last).curPrio else s

def dispatchSave (k : Frame) (s : KState) : Except Fault KState :=
  match s.curTcb with
  | none => .error .nullTcb
  | some last => match (s.saveCur last).removeHighest with
    | .error e => .error e
    | .ok (s, next) => .ok (s.ctxSwitchFull next last k)

def dispatchSleep (k : Frame) (s : KState) : Except Fault KState :=
  match s.curTcb with
  | none => .error .nullTcb
  | some last => match s.removeHighest with
    | .error e => .error e
    | .ok (s, next) => .ok (s.ctxSwitchFull next last k)

def dispatchNosave (s : KState) : Except Fault KState :=
  match s.removeHighest with
  | .error e => .error e
  | .ok (s, next) => .ok (s.ctxSwitchHalf next)

end KState

end RtosKernel
