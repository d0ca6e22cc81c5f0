import Mathlib.Data.List.Basic

namespace RtosKernel

inductive Mode where
  | usr
  | svc
  | irq
  deriving DecidableEq

/-- A program status register: the mode, the I bit and everything else in it. -/
structure Psr where
  mode : Mode
  masked : Bool
  flags : Nat
  deriving DecidableEq

/-- The instructions of the two handlers, as far as they touch status registers or the register
`r` and stack slot that carry one: `r2` in `S_Handler`, `r0` in `irqHandlerAsm`. -/
inductive Insn where
  /-- touches none of them -/
  | work
  /-- loads something else into `r` -/
  | clobber
  | mrsCpsr
  | eorIrq
  | msrCpsr
  | msrCpsrC (mode : Mode) (masked : Bool)
  | mrsSpsr
  | msrSpsr
  | str
  | ldr
  /-- `bl` to the C handler -/
  | call
  /-- load `pc` and restore CPSR from SPSR -/
  | ret
  deriving DecidableEq

open Insn in
def sHandler : List Insn := [
  work,       -- stmfd sp, {sp, lr}^
  work,       -- add sp, sp, #-8
  work,       -- sub sp, sp, #4
  work,       -- stmfd sp!, {r0-r12, lr}
  mrsCpsr,    -- mrs r4, cpsr
  eorIrq,     -- eor r4, r4, #0x80
  msrCpsr,    -- msr cpsr, r4
  work,       -- ldr r3, =global_data
  work,       -- ldr r8, [r3]
  mrsSpsr,    -- mrs r2, spsr
  str,        -- str r2, [sp, #14*4]
  work,       -- mov r1, sp
  work,       -- ldr r0, [lr, #-4]
  work,       -- bic r0, r0, #0xff000000
  call,       -- bl C_SWI_Handler
  ldr,        -- ldr r2, [sp, #14*4]
  msrSpsr,    -- msr spsr, r2
  clobber,    -- ldmfd sp!, {r0-r12, lr}
  work,       -- add sp, sp, #4
  work,       -- ldmfd sp, {sp, lr}^
  work,       -- add sp, sp, #8
  ret]        -- movs pc, lr

open Insn in
def irqHandlerAsm : List Insn := [
  work,                 -- sub lr, lr, #4
  work,                 -- ldr sp, =irq_stack_hi
  work,                 -- stmfd sp!, {r0, r1}
  mrsSpsr,              -- mrs r0, spsr
  work,                 -- mov r1, lr
  msrCpsrC .svc true,   -- msr cpsr_c, #(PSR_MODE_SVC | PSR_IRQ)
  msrSpsr,              -- msr spsr, r0
  work,                 -- stmfd sp!, {r1}
  work,                 -- ldr r1, =irq_stack_lo
  clobber,              -- ldm r1, {r0, r1}
  work,                 -- stmfd sp!, {r0-r3, r8, ip, lr}
  mrsSpsr,              -- mrs r0, spsr
  str,                  -- stmfd sp, {r0, sp, lr}^
  work,                 -- add sp, sp, #-12
  work,                 -- ldr ip, =global_data
  work,                 -- ldr r8, [ip]
  call,                 -- bl irqHandler
  ldr,                  -- ldmfd sp, {r0, sp, lr}^
  work,                 -- add sp, sp, #12
  msrSpsr,              -- msr spsr, r0
  ret]                  -- ldmfd sp!, {r0-r3, r8, ip, lr, pc}^

inductive Handler where
  | swi
  | irq
  deriving DecidableEq

def Handler.code : Handler → List Insn
  | .swi => sHandler
  | .irq => irqHandlerAsm

/-- A handler in progress. No instruction reads `taken`, the CPSR its exception found. -/
structure Activation where
  handler : Handler
  pc : Nat
  r : Psr
  r4 : Psr
  slot : Psr
  taken : Psr
  deriving DecidableEq

/-- `stack` has the activations on the SVC stack, innermost first; below them is user code.
`switched` has the stacks of the tasks that are switched out. -/
structure Cpu where
  cpsr : Psr
  spsrSvc : Psr
  spsrIrq : Psr
  stack : List Activation
  switched : List (List Activation)

/-- What happens between two instruction boundaries. New activations find any `r`, `r4` and
`slot`. -/
inductive Action where
  | user (flags : Nat)
  | swi (r r4 slot : Psr)
  | irq (r r4 slot : Psr)
  /-- the next instruction of the running handler; `junk` is what a `clobber` loads -/
  | insn (junk : Psr)
  /-- an instruction of the C handler, after which the I bit is `masked` -/
  | body (masked : Bool) (flags : Nat)
  | bodyReturn
  /-- a context switch in the C handler, to a task that was switched out in one -/
  | switchTo (i : Nat)
  /-- a context switch to a task that has not run yet -/
  | launch

namespace Cpu

/-- The SPSR of the current mode. User mode has none. -/
def spsr (p : Cpu) : Option Psr :=
  match p.cpsr.mode with
  | .usr => none
  | .svc => some p.spsrSvc
  | .irq => some p.spsrIrq

def setSpsr (x : Psr) (p : Cpu) : Option Cpu :=
  match p.cpsr.mode with
  | .usr => none
  | .svc => some { p with spsrSvc := x }
  | .irq => some { p with spsrIrq := x }

/-- One instruction of `a` that neither calls nor returns. -/
def exec (junk : Psr) (p : Cpu) (a : Activation) : Insn → Option (Cpu × Activation)
  | .work => some (p, a)
  | .clobber => some (p, { a with r := junk })
  | .mrsCpsr => some (p, { a with r4 := p.cpsr })
  | .eorIrq => some (p, { a with r4 := { a.r4 with masked := !a.r4.masked } })
  | .msrCpsr => some ({ p with cpsr := a.r4 }, a)
  | .msrCpsrC mode masked =>
    some ({ p with cpsr := { p.cpsr with mode := mode, masked := masked } }, a)
  | .mrsSpsr => p.spsr.map fun x => (p, { a with r := x })
  | .msrSpsr => (p.setSpsr a.r).map fun p => (p, a)
  | .str => some (p, { a with slot := a.r })
  | .ldr => some (p, { a with r := a.slot })
  | .call => none
  | .ret => none

def insn (junk : Psr) (p : Cpu) : Option Cpu :=
  match p.stack with
  | [] => none
  | a :: rest => match a.handler.code[a.pc]? with
    | none => none
    | some .ret => p.spsr.map fun x => { p with cpsr := x, stack := rest }
    | some i => (p.exec junk a i).map fun (p, a) =>
      { p with stack := { a with pc := a.pc + 1 } :: rest }

/-- The activation whose C handler runs, and what is below it. -/
def inBody (p : Cpu) : Option (Activation × List Activation) :=
  match p.stack with
  | [] => none
  | a :: rest => if a.handler.code[a.pc]? = some .call then some (a, rest) else none

def step : Action → Cpu → Option Cpu
  | .user flags, p => match p.stack with
    | [] => some { p with cpsr := { p.cpsr with flags := flags } }
    | _ :: _ => none
  | .swi r r4 slot, p => match p.stack with
    | [] => some { p with
        spsrSvc := p.cpsr
        cpsr := { p.cpsr with mode := .svc, masked := true }
        stack := [⟨.swi, 0, r, r4, slot, p.cpsr⟩] }
    | _ :: _ => none
  | .irq r r4 slot, p =>
    if p.cpsr.masked = true then none
    else some { p with
      spsrIrq := p.cpsr
      cpsr := { p.cpsr with mode := .irq, masked := true }
      stack := ⟨.irq, 0, r, r4, slot, p.cpsr⟩ :: p.stack }
  | .insn junk, p => p.insn junk
  | .body masked flags, p => p.inBody.map fun _ =>
    { p with cpsr := { p.cpsr with masked := masked, flags := flags } }
  | .bodyReturn, p => p.inBody.map fun (a, rest) =>
    { p with stack := { a with pc := a.pc + 1 } :: rest }
  | .switchTo i, p => match p.inBody, p.switched[i]? with
    | some _, some other => some { p with stack := other, switched := p.switched.set i p.stack }
    | _, _ => none
  | .launch, p => p.inBody.map fun _ => { p with
      cpsr := { p.cpsr with mode := .usr, masked := false }
      stack := []
      switched := p.stack :: p.switched }

/-- The states of a run from user code, made of actions that `ok` allows. -/
inductive Run (ok : Cpu → Action → Prop) : Cpu → Prop
  | start {p : Cpu} (hcode : p.stack = []) (hnone : p.switched = []) : Run ok p
  | step {p p' : Cpu} (hr : Run ok p) (a : Action) (hok : ok p a) (h : p.step a = some p') :
      Run ok p'

end Cpu

end RtosKernel
