import RtosKernel.Kernel.State
import RtosKernel.Math.IntrusiveChain

namespace RtosKernel

def devFreqTable : List Nat := [
  100, 200, 300, 400, 500, 600, 700, 800, 900, 1000,
  1100, 1200, 1300, 1400, 1500, 1600, 1700, 1800, 1900, 2000,
  2100, 2200, 2300, 2400, 2500, 2600, 2700, 2800, 2900, 3000,
  3100, 3200, 3300, 3400, 3500, 3600, 3700, 3800, 3900, 4000,
  4100, 4200, 4300, 4400, 4500, 4600, 4700, 4800, 4900, 5000,
  5100, 5200, 5300, 5400, 5500, 5600, 5700, 5800, 5900, 9000]

def devFreq (i : Nat) : Nat := devFreqTable.getD i 0

namespace KState

open Errno

def devInit (s : KState) : KState :=
  { s with devices := fun i => if i < numDevices then
      { sleepQ := none, nextMatch := devFreq i } else s.devices i }

/-- Put the caller behind the last sleeper of `dev`. -/
def devEnqueue (dev : Nat) (cur : TcbPtr) (s : KState) : Except Fault KState :=
  match (s.devices dev).sleepQ with
  | none => .ok ((s.setDev dev fun d => { d with sleepQ := some cur }).setTcb cur
      fun t => { t with sleepQueue := none })
  | some head => match IntrusiveChain.tailSearch s.sleepLink osMaxTasks head with
    | none => .error .diverges
    | some last => .ok ((s.setTcb last fun t => { t with sleepQueue := some cur }).setTcb cur
        fun t => { t with sleepQueue := none })

/-- The refusal of a lock holder returns with interrupts still masked. -/
def devWait (dev : Nat) (s : KState) : Except Fault KState :=
  let s := s.disableInterrupts
  match s.curTcb with
  | none => .error .nullTcb
  | some cur =>
    if (s.systemTcb cur).holdsLock ≠ 0 then
      .ok (s.ret (.eventWait dev) (-eHoldsLock))
    else match s.devEnqueue dev cur with
      | .error e => .error e
      | .ok s => s.dispatchSleep (.devWait dev)

def eventWait (dev : Nat) (s : KState) : Except Fault KState :=
  if dev > numDevices then .ok (s.ret (.eventWait dev) (-eInval)) else s.devWait dev

/-- The drain loop of `dev_update`: every node of the chain becomes runnable. -/
def drain : Nat → Option TcbPtr → KState → Except Fault KState
  | _, none, s => .ok s
  | 0, some _, _ => .error .diverges
  | fuel+1, some t, s =>
    let s := s.runqueueAdd t (s.systemTcb t).nativePrio
    drain fuel (s.systemTcb t).sleepQueue s

/-- One round of the loop over the devices, with the `flag` that asks for a dispatch. -/
def devSignal (millis : Nat) (st : KState × Bool) (i : Nat) : Except Fault (KState × Bool) :=
  let (s, flag) := st
  if (s.devices i).nextMatch ≤ millis then
    let s := (s.setDev i fun d =>
      { d with nextMatch := (d.nextMatch + devFreq i) % 2 ^ 32 }).emit (.signal i)
    match (s.devices i).sleepQ with
    | none => .ok (s, flag)
    | some head => match drain osMaxTasks (some head) s with
      | .error e => .error e
      | .ok s => .ok (s.setDev i fun d => { d with sleepQ := none }, true)
  else .ok (s, flag)

/-- The loop over the devices, before any task switch. -/
def devWake (millis : Nat) (s : KState) : Except Fault (KState × Bool) :=
  (List.range numDevices).foldlM (devSignal millis) (s, false)

def devUpdate (millis : Nat) (s : KState) : Except Fault KState :=
  match s.disableInterrupts.devWake millis with
  | .error e => .error e
  | .ok (s, flag) =>
    if flag = true then s.dispatchSave .devUpdate else .ok s.enableInterrupts

end KState

end RtosKernel
