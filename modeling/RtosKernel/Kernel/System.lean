import RtosKernel.Kernel.Mutex
import RtosKernel.Kernel.TaskCreate
import Mathlib.Logic.Relation
import Mathlib.Tactic.SplitIfs

namespace RtosKernel

/-- One thing that can happen while a task runs. -/
inductive Op where
  | call (c : Call)
  | timer (millis : Nat)

namespace KState

/-- The cases of `C_SWI_Handler` that reach the scheduler. -/
def syscall : Call → KState → Except Fault KState
  | .mutexCreate, s => .ok s.mutexCreate
  | .mutexLock mutex, s => s.mutexLock mutex
  | .mutexUnlock mutex, s => s.mutexUnlock mutex
  | .eventWait dev, s => s.eventWait dev
  | .taskCreate tasks numTasks, s => s.taskCreate tasks numTasks

/-- A system call from user mode with `regs` in the callee-saved registers; `S_Handler` unmasks
interrupts before it calls the handler. -/
def trap (regs : SchedContext) (s : KState) : KState := { s with regs := regs, masked := false }

/-- An interrupt arrives with interrupts masked. -/
def interrupt (regs : SchedContext) (s : KState) : KState := { s with regs := regs, masked := true }

/-- One kernel entry. The return to user mode reloads a CPSR with interrupts unmasked. -/
def step (regs : SchedContext) : Op → KState → Except Fault KState
  | .call c, s => (syscall c (s.trap regs)).map enableInterrupts
  | .timer millis, s => (devUpdate millis (s.interrupt regs)).map enableInterrupts

def zeroContext : SchedContext :=
  ⟨.val 0, .val 0, .val 0, .val 0, .val 0, .val 0, .val 0, .val 0, .val 0, .val 0⟩

/-- Zeroed globals, as the loader leaves them. -/
def bss : KState where
  rq := RunQueue.runqueueInit
  curTcb := none
  systemTcb := fun _ => ⟨0, 0, zeroContext, 0, none, 0, none⟩
  gtMutex := fun _ => ⟨false, none, false, none⟩
  devices := fun _ => ⟨none, 0⟩
  frames := fun _ => .launch
  regs := zeroContext
  masked := false
  systemTime := 0
  timeDrift := 0
  log := []

/-- `kmain` up to `user_mode`. -/
def boot : KState := bss.mutexInit

/-- One kernel entry that `ok` allows. The idle task only spins, so a call is never its own. -/
inductive Step (ok : KState → Op → Prop) : KState → KState → Prop
  | call {s s' : KState} (regs : SchedContext) (c : Call) (hok : ok s (.call c))
      (hcur : s.curTcb ≠ some idleTcb) (h : s.step regs (.call c) = .ok s') : Step ok s s'
  | timer {s s' : KState} (regs : SchedContext) (millis : Nat) (hok : ok s (.timer millis))
      (h : s.step regs (.timer millis) = .ok s') : Step ok s s'

/-- `task_create` admits the set and the new tasks are installed. -/
def Creates (tasks : Nat → Task) (numTasks : Nat) (regs : SchedContext) (s s' : KState) : Prop :=
  (∃ mem, taskAdmit numTasks ⟨tasks, [], []⟩ = .ok (mem, none)) ∧
    s.step regs (.call (.taskCreate tasks numTasks)) = .ok s'

/-- Before the first task set the user's `main` only creates mutexes; the timer already runs. -/
def bootOp (_ : KState) : Op → Prop
  | .call .mutexCreate => True
  | .timer _ => True
  | _ => False

/-- Everything a running task set may do except start another set. -/
def sameSet (_ : KState) : Op → Prop
  | .call .mutexCreate => True
  | .call (.mutexLock _) => True
  | .call (.mutexUnlock _) => True
  | .call (.eventWait dev) => dev < numDevices
  | .call (.taskCreate _ _) => False
  | .timer _ => True

/-- As `sameSet`, with further `task_create` calls. -/
def anySet (_ : KState) : Op → Prop
  | .call (.eventWait dev) => dev < numDevices
  | _ => True

/-- States of a run that boots, creates mutexes, starts one set of `n` tasks and goes on with
operations that `ok` allows. -/
inductive Run (ok : KState → Op → Prop) (n : Nat) : KState → Prop
  | start {s s' : KState} (tasks : Nat → Task) (regs : SchedContext)
      (hboot : Relation.ReflTransGen (Step bootOp) boot s)
      (h : Creates tasks n regs s s') : Run ok n s'
  | step {s s' : KState} (hs : Run ok n s) (h : Step ok s s') : Run ok n s'

end KState

end RtosKernel
