import RtosKernel.Kernel.System

namespace RtosKernel

/-- Counts of the OS timer in one tick. -/
abbrev ostmrCount : Nat := 32500

/-- Milliseconds in one tick. -/
abbrev timerResolution : Nat := 10

abbrev intOstmr0 : Nat := 26

namespace KState

/-- Add an OSCR reading to the clock: whole ticks, and the rest to the drift. -/
def updateTime (oscr : Nat) (s : KState) : KState :=
  let systemTime := (s.systemTime + oscr / ostmrCount) % 2 ^ 32
  let timeDrift := (s.timeDrift + oscr % ostmrCount) % 2 ^ 32
  if timeDrift ≥ ostmrCount then
    { s with systemTime := (systemTime + 1) % 2 ^ 32, timeDrift := timeDrift - ostmrCount }
  else { s with systemTime := systemTime, timeDrift := timeDrift }

/-- `icpr` and `oscr` are what the handler reads from the two registers. -/
def irqHandler (icpr oscr : Nat) (s : KState) : Except Fault KState :=
  if icpr &&& (1 <<< intOstmr0) = 0 then .ok s
  else
    let s := s.updateTime oscr
    s.devUpdate s.systemTime

def timeSyscall (s : KState) : Nat := (s.systemTime * timerResolution) % 2 ^ 32

/-- The loop of `sleep_syscall` on the values that its reads of `system_time` find, `none` while
it waits. -/
def sleepLoop (endTime : Nat) : List Nat → KState → Option KState
  | [], _ => none
  | time :: reads, s =>
    let s := { s with systemTime := time }
    if s.systemTime < endTime then sleepLoop endTime reads s else some s

def sleepSyscall (millis : Nat) (reads : List Nat) (s : KState) : Option KState :=
  let endTime := (s.systemTime + millis / 10) % 2 ^ 32
  s.sleepLoop endTime reads

/-- An interrupt taken in user mode, up to the return to user mode. -/
def irq (regs : SchedContext) (icpr oscr : Nat) (s : KState) : Except Fault KState :=
  ((s.interrupt regs).irqHandler icpr oscr).map enableInterrupts

/-- The OSCR counts that an interrupt adds to the clock. -/
def counted (icpr oscr : Nat) : Nat := if icpr &&& (1 <<< intOstmr0) = 0 then 0 else oscr

/-- A kernel entry that adds `count` to the clock; every interrupt goes through `irqHandler`. -/
inductive ClockStep (ok : KState → Op → Prop) : Nat → KState → KState → Prop
  | call {s s' : KState} (regs : SchedContext) (c : Call) (hok : ok s (.call c))
      (hcur : s.curTcb ≠ some idleTcb) (h : s.step regs (.call c) = .ok s') : ClockStep ok 0 s s'
  | irq {s s' : KState} (regs : SchedContext) (icpr oscr : Nat) (hosc : oscr < 2 ^ 32)
      (h : s.irq regs icpr oscr = .ok s') : ClockStep ok (counted icpr oscr) s s'

/-- A timer interrupt is a tick of the clock and then the entry that wakes the sleepers. -/
theorem irq_pending {regs : SchedContext} {icpr oscr : Nat} {s : KState}
    (h : icpr &&& (1 <<< intOstmr0) ≠ 0) :
    s.irq regs icpr oscr =
      (s.updateTime oscr).step regs (.timer (s.updateTime oscr).systemTime) := by
  have htime : (s.interrupt regs).updateTime oscr = (s.updateTime oscr).interrupt regs := by
    unfold updateTime
    by_cases hd : (s.timeDrift + oscr % ostmrCount) % 2 ^ 32 ≥ ostmrCount
    · simp only [interrupt, hd, if_true]
    · simp only [interrupt, hd, if_false]
  unfold irq irqHandler
  simp only [h, if_false, htime]
  rfl

end KState

end RtosKernel
