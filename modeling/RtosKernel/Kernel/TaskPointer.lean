import RtosKernel.Kernel.TaskCreate

namespace RtosKernel

/-- The fields of a `task_t`. -/
inductive TaskField where
  | lambda
  | data
  | stackPos
  | C
  | T
  | B
  deriving DecidableEq

/-- Where the field lies in the 24 bytes of a `task_t`. -/
def TaskField.offset : TaskField → Nat
  | lambda => 0
  | data => 4
  | stackPos => 8
  | C => 12
  | T => 16
  | B => 20

/-- The caller's descriptors as in `TaskMem`, with the fields that have been read or written
through the pointer, the latest first. -/
structure FieldMem where
  slot : Nat → Task
  touched : List (Nat × TaskField)

namespace FieldMem

open TaskField

def touch (i : Nat) (f : TaskField) (mem : FieldMem) : FieldMem :=
  { mem with touched := (i, f) :: mem.touched }

/-- A whole `task_t` is read or written. -/
def touchAll (i : Nat) (mem : FieldMem) : FieldMem :=
  [lambda, data, stackPos, C, T, B].foldl (fun mem f => mem.touch i f) mem

def write (i : Nat) (t : Task) (mem : FieldMem) : FieldMem :=
  { mem.touchAll i with slot := Function.update mem.slot i t }

/-- The first check of `task_create`: is the descriptor bad? -/
def checkStack (i : Nat) (mem : FieldMem) : FieldMem × Bool :=
  (mem.touch i stackPos, !validAddr (mem.slot i).stackPos 0 usrStartAddr usrEndAddr)

/-- The second; the period is read again if it is not too short. -/
def checkPeriod (i : Nat) (mem : FieldMem) : FieldMem × Bool :=
  let t := mem.slot i
  let mem := (mem.touch i T).touch i C
  if t.T < t.C then (mem, true) else (mem.touch i T, t.T == 0)

def findBad (check : Nat → FieldMem → FieldMem × Bool) (numTasks : Nat) (mem : FieldMem) :
    FieldMem × Bool :=
  findBadOf check numTasks mem

/-- The body of the sort's inner loop; a swap copies whole descriptors. -/
def compareSwap (mem : FieldMem) (j : Nat) : FieldMem :=
  let mem := (mem.touch j T).touch (j + 1) T
  if (mem.slot j).T > (mem.slot (j + 1)).T then
    let tmpTask := mem.slot j
    let mem := (mem.touchAll j).touchAll (j + 1)
    (mem.write j (mem.slot (j + 1))).write (j + 1) tmpTask
  else mem

def sortPass (numTasks : Nat) (mem : FieldMem) : FieldMem := sortPassOf compareSwap numTasks mem

def sortTasks (numTasks : Nat) (mem : FieldMem) : FieldMem := sortOf compareSwap numTasks mem

/-- One term of `u_n`; after a division by zero there are no more. -/
def addUtilization (numTasks : Nat) (st : FieldMem × Except Fault Nat) (i : Nat) :
    FieldMem × Except Fault Nat :=
  match st with
  | (mem, .error e) => (mem, .error e)
  | (mem, .ok uN) =>
    let t := mem.slot i
    let mem := (mem.touch i C).touch i T
    if t.T = 0 then (mem, .error .divByZero)
    else if i = numTasks - 1 then ((mem.touch i B).touch i T, .ok (uN + t.C / t.T + t.B / t.T))
    else (mem, .ok (uN + t.C / t.T))

def assignSchedule (numTasks : Nat) (mem : FieldMem) : FieldMem × Except Fault Nat :=
  if numTasks = 0 ∨ numTasks = 1 then (mem, .ok 1)
  else
    match (List.range numTasks).foldl (addUtilization numTasks) (mem.sortTasks numTasks, .ok 0) with
    | (mem, .error e) => (mem, .error e)
    | (mem, .ok uN) =>
      let uMax := numTasks * ((2 <<< (1 / numTasks)) - 1)
      (mem, .ok (if uN ≤ uMax then 1 else 0))

/-- What `allocate_tasks` reads for one task. -/
def loadTask (mem : FieldMem) (i : Nat) : FieldMem :=
  ((mem.touch i lambda).touch i data).touch i stackPos

/-- `task_create` up to the last use of its pointer: `some e` is returned, `none` stands for the
admitted set that `allocate_tasks` has read. -/
def taskCreate (numTasks : Nat) (mem : FieldMem) : FieldMem × Except Fault (Option Int) :=
  if numTasks > osMaxTasks - 2 then (mem, .ok (some (-Errno.eInval)))
  else match mem.findBad checkStack numTasks with
    | (mem, true) => (mem, .ok (some (-Errno.eFault)))
    | (mem, false) => match mem.findBad checkPeriod numTasks with
      | (mem, true) => (mem, .ok (some (-Errno.eSched)))
      | (mem, false) => match mem.assignSchedule numTasks with
        | (mem, .error e) => (mem, .error e)
        | (mem, .ok ok) =>
          if ok = 0 then (mem, .ok (some (-Errno.eSched)))
          else ((List.range numTasks).foldl loadTask mem, .ok none)

end FieldMem

end RtosKernel
