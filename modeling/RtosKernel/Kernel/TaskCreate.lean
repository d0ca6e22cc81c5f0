import RtosKernel.Kernel.Device

namespace RtosKernel

section Loops

/-! The loops of `task_create` and of the sort, over any record `μ` of what they touch. -/

variable {μ : Type}

def sortPassOf (body : μ → Nat → μ) (numTasks : Nat) (mem : μ) : μ :=
  (List.range numTasks).foldl body mem

def sortOf (body : μ → Nat → μ) (numTasks : Nat) (mem : μ) : μ :=
  (sortPassOf body numTasks)^[numTasks] mem

/-- A validation loop: stop at the first descriptor that `check` finds bad. -/
def findBadOf (check : Nat → μ → μ × Bool) (numTasks : Nat) (mem : μ) : μ × Bool :=
  (List.range numTasks).foldl (fun st i => if st.2 then st else check i st.1) (mem, false)

end Loops

/-- The caller's memory, seen from the `tasks` argument as an array of descriptors, with the
slots read and written so far. Slots past the array are whatever follows it. -/
structure TaskMem where
  slot : Nat → Task
  reads : List Nat
  writes : List Nat

namespace TaskMem

def read (i : Nat) (mem : TaskMem) : TaskMem := { mem with reads := i :: mem.reads }

def write (i : Nat) (t : Task) (mem : TaskMem) : TaskMem :=
  { mem with slot := Function.update mem.slot i t, writes := i :: mem.writes }

/-- The body of the sort's inner loop. -/
def compareSwap (mem : TaskMem) (j : Nat) : TaskMem :=
  let mem := (mem.read j).read (j + 1)
  if (mem.slot j).T > (mem.slot (j + 1)).T then
    let tmpTask := mem.slot j
    (mem.write j (mem.slot (j + 1))).write (j + 1) tmpTask
  else mem

def sortPass (numTasks : Nat) (mem : TaskMem) : TaskMem := sortPassOf compareSwap numTasks mem

def sortTasks (numTasks : Nat) (mem : TaskMem) : TaskMem := sortOf compareSwap numTasks mem

/-- One term of `u_n`. The quotients are unsigned integer divisions; division by zero ends in
the endless loop of `raise`. -/
def addUtilization (numTasks : Nat) (st : TaskMem × Nat) (i : Nat) :
    Except Fault (TaskMem × Nat) :=
  let mem := st.1.read i
  let t := mem.slot i
  if t.T = 0 then .error .divByZero
  else .ok (mem, st.2 + t.C / t.T + if i = numTasks - 1 then t.B / t.T else 0)

/-- `assign_schedule`: 1 when the sorted set is admitted. `u_n` and `u_max` are whole numbers. -/
def assignSchedule (numTasks : Nat) (mem : TaskMem) : Except Fault (TaskMem × Nat) :=
  if numTasks = 0 ∨ numTasks = 1 then .ok (mem, 1)
  else match (List.range numTasks).foldlM (addUtilization numTasks)
      (mem.sortTasks numTasks, 0) with
    | .error e => .error e
    | .ok (mem, uN) =>
      let uMax := numTasks * ((2 <<< (1 / numTasks)) - 1)
      .ok (mem, if uN ≤ uMax then 1 else 0)

/-- A validation loop that reads each descriptor once. -/
def findBad (bad : Task → Bool) (numTasks : Nat) (mem : TaskMem) : TaskMem × Bool :=
  findBadOf (fun i mem => (mem.read i, bad (mem.slot i))) numTasks mem

end TaskMem

open Errno

def usrStartAddr : Nat := 0xa0000000
def usrEndAddr : Nat := 0xa3000000

def validAddr (start count base bound : Nat) : Bool :=
  let memStart := start
  let memEnd := (start + count) % 2 ^ 32
  if memStart < base ∨ memStart ≥ bound then false
  else if memEnd < memStart ∨ memEnd > bound then false
  else true

/-- The checks of `task_create`: `none` admits the set, `some e` is the error returned. -/
def taskAdmit (numTasks : Nat) (mem : TaskMem) : Except Fault (TaskMem × Option Int) :=
  if numTasks > osMaxTasks - 2 then .ok (mem, some (-eInval))
  else match mem.findBad (fun t => !validAddr t.stackPos 0 usrStartAddr usrEndAddr) numTasks with
    | (mem, true) => .ok (mem, some (-eFault))
    | (mem, false) => match mem.findBad (fun t => t.T < t.C || t.T == 0) numTasks with
      | (mem, true) => .ok (mem, some (-eSched))
      | (mem, false) => match mem.assignSchedule numTasks with
        | .error e => .error e
        | .ok (mem, ok) => .ok (mem, if ok = 0 then some (-eSched) else none)

namespace KState

/-- What the loop of `allocate_tasks` writes to `system_tcb[i+1]`. -/
def initTask (tasks : Nat → Task) (i : Nat) (tcb : Tcb) : Tcb where
  nativePrio := i + 1
  curPrio := i + 1
  context := { tcb.context with
    r4 := .val (tasks i).lambda
    r5 := .val (tasks i).data
    r6 := .val (tasks i).stackPos
    r7 := .kstackHigh (i + 1)
    sp := .kstackHigh (i + 1)
    lr := .launchTask
    r8 := .globalData }
  holdsLock := 0
  sleepQueue := none
  mutexSleepQueue := none
  pending := 0

/-- What it writes to the idle TCB; `sp` is the stack top of TCB `num_tasks + 1`. -/
def initIdle (numTasks : Nat) (tcb : Tcb) : Tcb where
  nativePrio := idlePrio
  curPrio := idlePrio
  context := { tcb.context with
    r4 := .idle
    r5 := .val 0
    r6 := .idleStack
    r7 := .kstackHigh idlePrio
    sp := .kstackHigh (numTasks + 1)
    lr := .launchTask
    r8 := .globalData }
  holdsLock := 0
  sleepQueue := none
  mutexSleepQueue := none
  pending := 0

/-- Set a TCB up to start in `launch_task` and make it runnable. -/
def install (t : TcbPtr) (prio : Nat) (init : Tcb → Tcb) (s : KState) : KState :=
  { s.setTcb t init with frames := Function.update s.frames t .launch }.runqueueAdd t prio

def allocateTask (tasks : Nat → Task) (s : KState) (i : Nat) : KState :=
  s.install (Fin.ofNat osMaxTasks (i + 1)) (i + 1) (initTask tasks i)

/-- The kernel state `allocate_tasks` builds before it dispatches. -/
def installTasks (tasks : Nat → Task) (numTasks : Nat) (s : KState) : KState :=
  let s := s.devInit
  let s := { s with rq := RunQueue.runqueueInit }
  ((List.range numTasks).foldl (allocateTask tasks) s).install idleTcb idlePrio
    (initIdle numTasks)

def allocateTasks (tasks : Nat → Task) (numTasks : Nat) (s : KState) : Except Fault KState :=
  (s.installTasks tasks numTasks).dispatchNosave

/-- A successful call does not return: the first task of the new set runs. -/
def taskCreate (tasks : Nat → Task) (numTasks : Nat) (s : KState) : Except Fault KState :=
  match taskAdmit numTasks ⟨tasks, [], []⟩ with
  | .error e => .error e
  | .ok (_, some code) => .ok (s.ret (.taskCreate tasks numTasks) code)
  | .ok (mem, none) => s.disableInterrupts.allocateTasks mem.slot numTasks

end KState

end RtosKernel
