import RtosKernel.Kernel.State
import RtosKernel.Math.IntrusiveChain

namespace RtosKernel.KState

open Errno

/-- The loop writes every entry of the table. -/
def mutexInit (s : KState) : KState :=
  { s with gtMutex := fun m => if m < osNumMutex then
      { bLock := false, pHoldingTcb := none, bAvailable := true, pSleepQueue := none }
      else s.gtMutex m }

/-- The scan of `mutex_create`; the flag is read before the index is compared. -/
def createScan (gtMutex : Nat → Mutex) : Nat → Nat → Nat
  | 0, index => index
  | fuel+1, index =>
    if (gtMutex index).bAvailable ≠ true ∧ index < osNumMutex then
      createScan gtMutex fuel (index + 1)
    else index

def mutexCreate (s : KState) : KState :=
  let s := s.disableInterrupts
  let index := createScan s.gtMutex (osNumMutex + 1) 0
  if index = osNumMutex then
    s.enableInterrupts.enableInterrupts.ret .mutexCreate (-eNoMem)
  else
    (s.setMutex index fun x => { x with bAvailable := false }).enableInterrupts.ret
      .mutexCreate index

def markWaiting (cur : TcbPtr) (s : KState) : KState :=
  s.setTcb cur fun t => { t with mutexSleepQueue := none, pending := 1 }

/-- Put the caller behind the last waiter of `m`. -/
def mutexEnqueue (m : Nat) (cur : TcbPtr) (s : KState) : Except Fault KState :=
  match ((s.markWaiting cur).gtMutex m).pSleepQueue with
  | none => .ok ((s.markWaiting cur).setMutex m fun x => { x with pSleepQueue := some cur })
  | some head => match IntrusiveChain.tailSearch (s.markWaiting cur).mutexLink osMaxTasks head with
    | none => .error .diverges
    | some last =>
      .ok ((s.markWaiting cur).setTcb last fun t => { t with mutexSleepQueue := some cur })

/-- When the mutex is taken the call ends in `dispatch_sleep`; the caller runs
`mutexLockTail` when it is next dispatched. -/
def mutexLock (mutex : Int) (s : KState) : Except Fault KState :=
  let s := s.disableInterrupts
  if mutex ≥ osNumMutex ∨ mutex < 0 then
    .ok (s.enableInterrupts.ret (.mutexLock mutex) (-eInval))
  else
    let m := mutex.toNat
    if (s.gtMutex m).bLock = true then
      if s.curTcb = (s.gtMutex m).pHoldingTcb then
        .ok (s.enableInterrupts.ret (.mutexLock mutex) (-eDeadlock))
      else match s.curTcb with
        | none => .error .nullTcb
        | some cur => match s.mutexEnqueue m cur with
          | .error e => .error e
          | .ok s => s.dispatchSleep (.mutexLock m)
    else
      match s.curTcb with
      | none => .error .nullTcb
      | some cur =>
        .ok ((s.setMutex m fun x => { x with bLock := true }).mutexLockTail m cur)

/-- Move the first waiter of `m` to the run queue at its native priority. -/
def mutexRelease (m : Nat) (first : TcbPtr) (s : KState) : KState :=
  let s := s.setMutex m fun x => { x with pSleepQueue := (s.systemTcb first).mutexSleepQueue }
  let s := s.setTcb first fun t =>
    { t with mutexSleepQueue := none, pending := 0, curPrio := t.nativePrio }
  s.runqueueAdd first (s.systemTcb first).curPrio

/-- The caller's lock count goes down; with no lock left it falls back to its native priority. -/
def dropLock (cur : TcbPtr) (s : KState) : KState :=
  s.setTcb cur fun t =>
    if t.holdsLock > 1 then { t with holdsLock := t.holdsLock - 1 }
    else { t with holdsLock := 0, curPrio := t.nativePrio }

/-- The hand-over or release at the heart of `mutex_unlock`, up to `dispatch_save`. -/
def mutexHandOver (m : Nat) (cur : TcbPtr) (s : KState) : KState :=
  (match (s.gtMutex m).pSleepQueue with
    | some first => s.mutexRelease m first
    | none => s.setMutex m fun x => { x with bLock := false }).dropLock cur

/-- The call returns when the caller is next dispatched, which may be at once. -/
def mutexUnlock (mutex : Int) (s : KState) : Except Fault KState :=
  let s := s.disableInterrupts
  if mutex ≥ osNumMutex ∨ mutex < 0 then
    .ok (s.enableInterrupts.ret (.mutexUnlock mutex) (-eInval))
  else
    let m := mutex.toNat
    let curTcb := s.curTcb
    let holdingTcb := (s.gtMutex m).pHoldingTcb
    if (s.gtMutex m).bAvailable = true ∨ curTcb ≠ holdingTcb then
      .ok (s.enableInterrupts.ret (.mutexUnlock mutex) (-ePerm))
    else if (s.gtMutex m).bAvailable = false ∧ (s.gtMutex m).pHoldingTcb = none then
      .ok (s.enableInterrupts.ret (.mutexUnlock mutex) 0)
    else if curTcb ≠ holdingTcb then
      .ok (s.enableInterrupts.ret (.mutexUnlock mutex) 0)
    else match curTcb with
      | none => .error .nullTcb
      | some cur => (s.mutexHandOver m cur).dispatchSave (.mutexUnlock m)

end RtosKernel.KState
