import Mathlib.Algebra.GroupWithZero.Nat
import Mathlib.Data.List.FinRange
import RtosKernel.Processor.BlockTransfer
import RtosKernel.Processor.Exceptions

namespace RtosKernel.Arm

open BlockTransfer

scoped instance thirteen_ne_zero : NeZero 13 := ⟨by decide⟩

/-- The registers of the modes that the kernel uses. -/
inductive Reg where
  | r (i : Fin 13)
  | sp (mode : Mode)
  | lr (mode : Mode)
  | pc
  | cpsr
  | spsrSvc
  | spsrIrq
  deriving DecidableEq

/-- Registers and words of memory at their byte addresses. -/
abbrev Proc := WordMachine Reg (BitVec 32)

/-- A register as an instruction names it. -/
inductive Name where
  | r (i : Fin 13)
  | sp
  | lr
  deriving DecidableEq

def Name.reg (mode : Mode) : Name → Reg
  | .r i => .r i
  | .sp => .sp mode
  | .lr => .lr mode

/-- The mode bits; other modes have their own registers and are never entered. -/
def modeOf (status : BitVec 32) : Option Mode :=
  if status &&& 0x1f = 0x10 then some .usr
  else if status &&& 0x1f = 0x13 then some .svc
  else if status &&& 0x1f = 0x12 then some .irq
  else none

def modeBits : Mode → BitVec 32
  | .usr => 0x10
  | .svc => 0x13
  | .irq => 0x12

/-- `PSR_IRQ` is set. -/
def masksIrq (status : BitVec 32) : Bool := status &&& 0x80 ≠ 0

/-- The saved status of a mode; user mode has none. -/
def spsrOf : Mode → Option Reg
  | .usr => none
  | .svc => some .spsrSvc
  | .irq => some .spsrIrq

/-- The instructions of the handlers and of the switch and launch routines. A `user` transfer is
one with `^` and without `pc`. -/
inductive Instr where
  | stmia (rn : Name) (registers : List Name)
  | stmfd (writeBack user : Bool) (rn : Name) (registers : List Name)
  | ldmfd (writeBack user : Bool) (rn : Name) (registers : List Name)
  | add (rd rn : Name) (n : BitVec 32)
  | eor (rd rn : Name) (n : BitVec 32)
  | bic (rd rn : Name) (n : BitVec 32)
  | mov (rd rm : Name)
  /-- `mov rd, #n` -/
  | movImm (rd : Name) (n : BitVec 32)
  /-- `mov pc, rm` -/
  | movPc (rm : Name)
  | mrs (rd : Name) (saved : Bool)
  | msr (saved : Bool) (rm : Name)
  | msrCpsrC (n : BitVec 32)
  /-- `ldr rd, =n` -/
  | ldrLit (rd : Name) (n : BitVec 32)
  | ldr (rd rn : Name) (offset : BitVec 32)
  | str (rd rn : Name) (offset : BitVec 32)
  | bl
  /-- `movs pc, lr` -/
  | movsPcLr
  /-- `ldmfd rn!, {.., pc}^` -/
  | ldmfdPc (rn : Name) (registers : List Name)
  deriving DecidableEq

def setReg (p : Proc) (r : Reg) (v : BitVec 32) : Proc :=
  { p with reg := Function.update p.reg r v }

@[simp] theorem setReg_self (p : Proc) (r : Reg) (v : BitVec 32) : (setReg p r v).reg r = v :=
  Function.update_self ..

theorem setReg_of_ne {r r' : Reg} (p : Proc) (v : BitVec 32) (h : r' ≠ r) :
    (setReg p r v).reg r' = p.reg r' :=
  Function.update_of_ne h ..

/-- A register list in transfer order; the handlers name the registers in that order. -/
def regs (mode : Mode) (registers : List Name) : List Reg := registers.map (Name.reg mode)

/-- `4 * n` as a distance of addresses -/
def wordsSize (n : Nat) : BitVec 32 := BitVec.ofNat 32 (4 * n)

/-- Restore CPSR from the SPSR of `mode`. -/
def restoreStatus (mode : Mode) (p : Proc) : Option Proc :=
  (spsrOf mode).map fun r => setReg p .cpsr (p.reg r)

/-- One instruction other than a call, in `mode`. -/
def Instr.execIn (mode : Mode) (p : Proc) : Instr → Option Proc
  | .stmia rn registers => some (store (p.reg (rn.reg mode)).toNat (regs mode registers) p)
  | .stmfd writeBack user rn registers =>
    let base := p.reg (rn.reg mode) - wordsSize registers.length
    let p := store base.toNat (regs (if user then .usr else mode) registers) p
    some (if writeBack then setReg p (rn.reg mode) base else p)
  | .ldmfd writeBack user rn registers =>
    let base := p.reg (rn.reg mode)
    let p := load base.toNat (regs (if user then .usr else mode) registers) p
    some (if writeBack then setReg p (rn.reg mode) (base + wordsSize registers.length) else p)
  | .add rd rn n => some (setReg p (rd.reg mode) (p.reg (rn.reg mode) + n))
  | .eor rd rn n => some (setReg p (rd.reg mode) (p.reg (rn.reg mode) ^^^ n))
  | .bic rd rn n => some (setReg p (rd.reg mode) (p.reg (rn.reg mode) &&& ~~~n))
  | .mov rd rm => some (setReg p (rd.reg mode) (p.reg (rm.reg mode)))
  | .movImm rd n => some (setReg p (rd.reg mode) n)
  | .movPc rm => some (setReg p .pc (p.reg (rm.reg mode)))
  | .mrs rd saved =>
    if saved then (spsrOf mode).map fun r => setReg p (rd.reg mode) (p.reg r)
    else some (setReg p (rd.reg mode) (p.reg .cpsr))
  | .msr saved rm =>
    if saved then (spsrOf mode).map fun r => setReg p r (p.reg (rm.reg mode))
    else some (setReg p .cpsr (p.reg (rm.reg mode)))
  | .msrCpsrC n => some (setReg p .cpsr (p.reg .cpsr &&& ~~~0xff ||| n))
  | .ldrLit rd n => some (setReg p (rd.reg mode) n)
  | .ldr rd rn offset =>
    some (setReg p (rd.reg mode) (p.mem (p.reg (rn.reg mode) + offset).toNat))
  | .str rd rn offset =>
    some { p with mem :=
      Function.update p.mem (p.reg (rn.reg mode) + offset).toNat (p.reg (rd.reg mode)) }
  | .bl => none
  | .movsPcLr => restoreStatus mode (setReg p .pc (p.reg (.lr mode)))
  | .ldmfdPc rn registers =>
    let base := p.reg (rn.reg mode)
    let p := load base.toNat (regs mode registers ++ [.pc]) p
    restoreStatus mode (setReg p (rn.reg mode) (base + wordsSize (registers.length + 1)))

def Instr.exec (i : Instr) (p : Proc) : Option Proc :=
  (modeOf (p.reg .cpsr)).bind fun mode => i.execIn mode p

/-- `{r0-r12}` -/
def general : List Name := (List.finRange 13).map .r

/-- Addresses that the linker chooses. -/
structure Symbols where
  globalData : BitVec 32
  irqStackLo : BitVec 32

variable (sym : Symbols)

def sHandler : List Instr := [
  .stmfd false true .sp [.sp, .lr],         -- stmfd sp, {sp, lr}^
  .add .sp .sp (-8),                        -- add sp, sp, #-8
  .add .sp .sp (-4),                        -- sub sp, sp, #4
  .stmfd true false .sp (general ++ [.lr]), -- stmfd sp!, {r0-r12, lr}
  .mrs (.r 4) false,                        -- mrs r4, cpsr
  .eor (.r 4) (.r 4) 0x80,                  -- eor r4, r4, #0x80
  .msr false (.r 4),                        -- msr cpsr, r4
  .ldrLit (.r 3) sym.globalData,            -- ldr r3, =global_data
  .ldr (.r 8) (.r 3) 0,                     -- ldr r8, [r3]
  .mrs (.r 2) true,                         -- mrs r2, spsr
  .str (.r 2) .sp 56,                       -- str r2, [sp, #14*4]
  .mov (.r 1) .sp,                          -- mov r1, sp
  .ldr (.r 0) .lr (-4),                     -- ldr r0, [lr, #-4]
  .bic (.r 0) (.r 0) 0xff000000,            -- bic r0, r0, #0xff000000
  .bl,                                      -- bl C_SWI_Handler
  .ldr (.r 2) .sp 56,                       -- ldr r2, [sp, #14*4]
  .msr true (.r 2),                         -- msr spsr, r2
  .ldmfd true false .sp (general ++ [.lr]), -- ldmfd sp!, {r0-r12, lr}
  .add .sp .sp 4,                           -- add sp, sp, #4
  .ldmfd false true .sp [.sp, .lr],         -- ldmfd sp, {sp, lr}^
  .add .sp .sp 8,                           -- add sp, sp, #8
  .movsPcLr]                                -- movs pc, lr

def irqHandlerAsm : List Instr := [
  .add .lr .lr (-4),                                        -- sub lr, lr, #4
  .ldrLit .sp (sym.irqStackLo + 8),                         -- ldr sp, =irq_stack_hi
  .stmfd true false .sp [.r 0, .r 1],                       -- stmfd sp!, {r0, r1}
  .mrs (.r 0) true,                                         -- mrs r0, spsr
  .mov (.r 1) .lr,                                          -- mov r1, lr
  .msrCpsrC 0x93,                                           -- msr cpsr_c, #(PSR_MODE_SVC | PSR_IRQ)
  .msr true (.r 0),                                         -- msr spsr, r0
  .stmfd true false .sp [.r 1],                             -- stmfd sp!, {r1}
  .ldrLit (.r 1) sym.irqStackLo,                            -- ldr r1, =irq_stack_lo
  .ldmfd false false (.r 1) [.r 0, .r 1],                   -- ldm r1, {r0, r1}
  .stmfd true false .sp [.r 0, .r 1, .r 2, .r 3, .r 8, .r 12, .lr],
                                                            -- stmfd sp!, {r0-r3, r8, ip, lr}
  .mrs (.r 0) true,                                         -- mrs r0, spsr
  .stmfd false true .sp [.r 0, .sp, .lr],                   -- stmfd sp, {r0, sp, lr}^
  .add .sp .sp (-12),                                       -- add sp, sp, #-12
  .ldrLit (.r 12) sym.globalData,                           -- ldr ip, =global_data
  .ldr (.r 8) (.r 12) 0,                                    -- ldr r8, [ip]
  .bl,                                                      -- bl irqHandler
  .ldmfd false true .sp [.r 0, .sp, .lr],                   -- ldmfd sp, {r0, sp, lr}^
  .add .sp .sp 12,                                          -- add sp, sp, #12
  .msr true (.r 0),                                         -- msr spsr, r0
  .ldmfdPc .sp [.r 0, .r 1, .r 2, .r 3, .r 8, .r 12, .lr]]  -- ldmfd sp!, {r0-r3, r8, ip, lr, pc}^

/-- CPSR on the entry of an exception: the mode changes, the I bit is set, T is cleared. -/
def enter (mode : Mode) (status : BitVec 32) : BitVec 32 :=
  status &&& ~~~0xbf ||| (modeBits mode ||| 0x80)

/-- The exception of a `swi` at `pc`. -/
def swiEntry (p : Proc) : Proc :=
  setReg (setReg (setReg p (.lr .svc) (p.reg .pc + 4)) .spsrSvc (p.reg .cpsr)) .cpsr
    (enter .svc (p.reg .cpsr))

/-- The exception of an interrupt before the instruction at `pc`. -/
def irqEntry (p : Proc) : Proc :=
  setReg (setReg (setReg p (.lr .irq) (p.reg .pc + 4)) .spsrIrq (p.reg .cpsr)) .cpsr
    (enter .irq (p.reg .cpsr))

/-- The instruction as the model of the status registers has it, which follows the register `r`. -/
def Instr.outline (r : Fin 13) : Instr → Insn
  | .stmfd _ user _ registers => if user ∧ .r r ∈ registers then .str else .work
  | .ldmfd _ user _ registers =>
    if .r r ∈ registers then if user then .ldr else .clobber else .work
  | .stmia _ _ | .add _ _ _ | .bic _ _ _ | .mov _ _ | .movImm _ _ | .movPc _ | .ldrLit _ _ => .work
  | .eor _ _ _ => .eorIrq
  | .mrs rd saved => if saved then if rd = .r r then .mrsSpsr else .work else .mrsCpsr
  | .msr saved _ => if saved then .msrSpsr else .msrCpsr
  | .msrCpsrC _ => .msrCpsrC .svc true
  | .ldr rd _ _ => if rd = .r r then .ldr else .work
  | .str rd _ _ => if rd = .r r then .str else .work
  | .bl => .call
  | .movsPcLr | .ldmfdPc _ _ => .ret

/-- Both models have the same handlers. -/
theorem handler_outlines : (sHandler sym).map (Instr.outline 2) = RtosKernel.sHandler ∧
    (irqHandlerAsm sym).map (Instr.outline 0) = RtosKernel.irqHandlerAsm := ⟨rfl, rfl⟩

end RtosKernel.Arm
