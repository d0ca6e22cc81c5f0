import RtosKernel.Kernel.State
import RtosKernel.Processor.BlockTransfer
import Mathlib.Data.List.FinRange

namespace RtosKernel

open BlockTransfer

/-- `r0` to `r15`. -/
abbrev CoreReg := Fin 16

namespace CoreReg

def sp : CoreReg := 13
def lr : CoreReg := 14
def pc : CoreReg := 15

end CoreReg

open CoreReg

/-- The instructions of the two switch routines. -/
inductive SwitchInsn where
  | stmia (rn : CoreReg) (registers : List CoreReg)
  | ldmfd (rn : CoreReg) (registers : List CoreReg)
  | mov (rd rm : CoreReg)

/-- A register list is a set: the lowest register goes to the lowest address. -/
def transferOrder (registers : List CoreReg) : List CoreReg :=
  (List.finRange 16).filter (· ∈ registers)

abbrev Core := WordMachine CoreReg Nat

namespace SwitchInsn

def exec : SwitchInsn → Core → Core
  | .stmia rn registers, p => store (p.reg rn) (transferOrder registers) p
  | .ldmfd rn registers, p => load (p.reg rn) (transferOrder registers) p
  | .mov rd rm, p => { p with reg := Function.update p.reg rd (p.reg rm) }

def run (code : List SwitchInsn) (p : Core) : Core := code.foldl (fun p i => i.exec p) p

end SwitchInsn

/-- `{r4-r11,sp,lr}` -/
def switchRegisters : List CoreReg := [4, 5, 6, 7, 8, 9, 10, 11, sp, lr]

def ctxSwitchFullAsm : List SwitchInsn := [
  .stmia 1 switchRegisters,   -- stmia r1,{r4-r11,sp,lr}
  .ldmfd 0 switchRegisters,   -- ldmfd r0,{r4-r11,sp,lr}
  .mov pc lr]                 -- mov pc, lr

def ctxSwitchHalfAsm : List SwitchInsn := [
  .ldmfd 0 switchRegisters,   -- ldmfd r0,{r4-r11,sp,lr}
  .mov pc lr]                 -- mov pc, lr

/-- The fields of `struct sched_context` in the order of the struct, one word each. -/
def SchedContext.words (c : SchedContext) : List Word :=
  [c.r4, c.r5, c.r6, c.r7, c.r8, c.r9, c.r10, c.r11, c.sp, c.lr]

def osKstackSize : Nat := 4096

/-- `context` follows the two priority bytes and two bytes of padding. -/
def contextOffset : Nat := 4

/-- `sizeof(struct tcb)`: the stack starts at 56, after `sleep_queue` and padding, and two words
follow it. -/
def tcbSize : Nat := 56 + osKstackSize + 8

/-- `&system_tcb[t].context`, with the array at `base`. -/
def ctxAddr (base : Nat) (t : TcbPtr) : Nat := base + tcbSize * t.val + contextOffset

/-- Registers and memory of the processor are those of the kernel state; `w` gives the words
their values. -/
structure Represents (w : Word → Nat) (base : Nat) (s : KState) (p : Core) : Prop where
  live : switchRegisters.map p.reg = s.regs.words.map w
  saved : ∀ t, block p.mem (ctxAddr base t) 10 = (s.systemTcb t).context.words.map w

variable {w : Word → Nat} {base : Nat} {s : KState} {p : Core} {next last t : TcbPtr} {k : Frame}

/-- The list is written in transfer order. -/
theorem transferOrder_switchRegisters : transferOrder switchRegisters = switchRegisters := by
  decide

theorem ctxSwitchHalf_run (p : Core) : SwitchInsn.run ctxSwitchHalfAsm p =
    (SwitchInsn.mov pc lr).exec (load (p.reg 0) switchRegisters p) := by
  simp only [SwitchInsn.run, ctxSwitchHalfAsm, List.foldl_cons, List.foldl_nil, SwitchInsn.exec,
    transferOrder_switchRegisters]

/-- `ctx_switch_full` is a store and `ctx_switch_half`. -/
theorem ctxSwitchFull_run (p : Core) : SwitchInsn.run ctxSwitchFullAsm p =
    SwitchInsn.run ctxSwitchHalfAsm (store (p.reg 1) switchRegisters p) := by
  simp only [SwitchInsn.run, ctxSwitchFullAsm, ctxSwitchHalfAsm, List.foldl_cons, List.foldl_nil,
    SwitchInsn.exec, transferOrder_switchRegisters]

/-- The context that `r0` points to is loaded, and the routine returns to the `lr` in it. -/
theorem ctxSwitchHalf_loads (p : Core) :
    switchRegisters.map (SwitchInsn.run ctxSwitchHalfAsm p).reg = block p.mem (p.reg 0) 10 ∧
      (SwitchInsn.run ctxSwitchHalfAsm p).reg pc =
        (SwitchInsn.run ctxSwitchHalfAsm p).reg lr := by
  have hkept (q : Core) (r : CoreReg) (hr : r ≠ pc) :
      ((SwitchInsn.mov pc lr).exec q).reg r = q.reg r := Function.update_of_ne hr ..
  have hregs : ∀ r ∈ switchRegisters, r ≠ pc := by decide
  rw [ctxSwitchHalf_run]
  refine ⟨(List.map_congr_left fun r hr => hkept _ r (hregs r hr)).trans (load_block (by decide)),
    ?_⟩
  rw [hkept _ lr (by decide)]
  exact Function.update_self pc _ (load (p.reg 0) switchRegisters p).reg

theorem ctxAddr_disjoint (base : Nat) (h : t ≠ last) :
    ctxAddr base t + 4 * 10 ≤ ctxAddr base last ∨
      ctxAddr base last + 4 * switchRegisters.length ≤ ctxAddr base t := by
  have hne : t.val ≠ last.val := fun he => h (Fin.ext he)
  simp only [ctxAddr, tcbSize, osKstackSize, contextOffset, switchRegisters, List.length_cons,
    List.length_nil]
  omega

namespace KState

theorem resume_context (s : KState) (next t : TcbPtr) :
    ((s.resume next).systemTcb t).context = (s.systemTcb t).context := by
  unfold resume
  cases s.frames next with
  | mutexLock m =>
    show (Function.update s.systemTcb next _ t).context = _
    by_cases ht : t = next
    · subst ht
      rw [Function.update_self]
    · rw [Function.update_of_ne ht]
  | launch => rfl
  | mutexUnlock m => rfl
  | devWait dev => rfl
  | devUpdate => rfl

theorem resume_regs (s : KState) (next : TcbPtr) : (s.resume next).regs = s.regs := by
  unfold resume
  cases s.frames next <;> rfl

theorem ctxSwitchFull_context (s : KState) (next last t : TcbPtr) (k : Frame) :
    ((s.ctxSwitchFull next last k).systemTcb t).context =
      if t = last then s.regs else (s.systemTcb t).context := by
  refine (resume_context _ next t).trans ?_
  show (Function.update s.systemTcb last _ t).context = _
  split_ifs with ht
  · subst ht
    rw [Function.update_self]
  · rw [Function.update_of_ne ht]

/-- The registers that `ctx_switch_full` loads are the ones it leaves in `next`. -/
theorem ctxSwitchFull_regs (s : KState) (next last : TcbPtr) (k : Frame) :
    (s.ctxSwitchFull next last k).regs =
      ((s.ctxSwitchFull next last k).systemTcb next).context := by
  refine (resume_regs _ next).trans ?_
  rw [ctxSwitchFull, resume_context]

end KState

namespace Represents

/-- Loading a context makes it live. -/
theorem loaded (h : Represents w base s p) (next : TcbPtr) :
    Represents w base { s with regs := (s.systemTcb next).context }
      (load (ctxAddr base next) switchRegisters p) where
  live := (load_block (by decide)).trans (h.saved next)
  saved := by
    intro t
    rw [load_mem]
    exact h.saved t

/-- Storing the live registers touches no context but that of `last`. -/
theorem stored (h : Represents w base s p) (last : TcbPtr) :
    Represents w base (s.setTcb last fun t => { t with context := s.regs })
      (store (ctxAddr base last) switchRegisters p) where
  live := by
    rw [store_reg]
    exact h.live
  saved := by
    intro t
    rw [KState.setTcb_apply]
    split_ifs with ht
    · subst ht
      exact store_block.trans h.live
    · rw [store_block_disjoint (ctxAddr_disjoint base ht)]
      exact h.saved t

/-- The task continues at the return address, the last word of its context. -/
theorem returned_pc (h : Represents w base s p) :
    ((SwitchInsn.mov pc lr).exec p).reg pc = w s.regs.lr := by
  have h9 : some (p.reg lr) = some (w s.regs.lr) := congrArg (fun l => l[9]?) h.live
  exact (Function.update_self pc (p.reg lr) p.reg).trans (Option.some.inj h9)

/-- Only `pc` changes in the return. -/
theorem returned (h : Represents w base s p) :
    Represents w base s ((SwitchInsn.mov pc lr).exec p) where
  live := by
    refine (List.map_congr_left ?_).trans h.live
    intro r hr
    have hpc : r ≠ pc := by
      rintro rfl
      revert hr
      decide
    exact Function.update_of_ne hpc ..
  saved := h.saved

theorem congr {s' : KState} (h : Represents w base s p) (hregs : s'.regs = s.regs)
    (hctx : ∀ t, (s'.systemTcb t).context = (s.systemTcb t).context) :
    Represents w base s' p where
  live := by rw [hregs]; exact h.live
  saved := by
    intro t
    rw [hctx]
    exact h.saved t

/-- `ctx_switch_full` does to registers and contexts what the kernel model says, also when the
two contexts are the same. Other memory keeps its value, and the task continues at its `lr`. -/
theorem ctxSwitchFull (h : Represents w base s p) (h0 : p.reg 0 = ctxAddr base next)
    (h1 : p.reg 1 = ctxAddr base last) (k : Frame) :
    let p' := SwitchInsn.run ctxSwitchFullAsm p
    Represents w base (s.ctxSwitchFull next last k) p' ∧
      p'.reg pc = w (s.ctxSwitchFull next last k).regs.lr ∧
      ∀ a, a < ctxAddr base last ∨ ctxAddr base last + 4 * switchRegisters.length ≤ a →
        p'.mem a = p.mem a := by
  have hst := h.stored last
  have hld : Represents w base (s.ctxSwitchFull next last k) _ :=
    (hst.loaded next).congr (KState.resume_regs ..) fun t => KState.resume_context ..
  have hrun : SwitchInsn.run ctxSwitchFullAsm p = (SwitchInsn.mov pc lr).exec
      (load (ctxAddr base next) switchRegisters
        (store (ctxAddr base last) switchRegisters p)) := by
    rw [ctxSwitchFull_run, ctxSwitchHalf_run, store_reg, h0, h1]
  rw [hrun]
  refine ⟨hld.returned, hld.returned_pc, ?_⟩
  intro a ha
  have hmem : ((SwitchInsn.mov pc lr).exec (load (ctxAddr base next) switchRegisters
      (store (ctxAddr base last) switchRegisters p))).mem = _ := load_mem
  rw [hmem, store_outside ha]

/-- `ctx_switch_half` stores nothing. -/
theorem ctxSwitchHalf (h : Represents w base s p) (h0 : p.reg 0 = ctxAddr base next) :
    let p' := SwitchInsn.run ctxSwitchHalfAsm p
    Represents w base (s.ctxSwitchHalf next) p' ∧
      p'.reg pc = w (s.ctxSwitchHalf next).regs.lr ∧ p'.mem = p.mem := by
  have hld : Represents w base (s.ctxSwitchHalf next) _ :=
    (h.loaded next).congr (KState.resume_regs ..) fun t => KState.resume_context ..
  rw [ctxSwitchHalf_run, h0]
  exact ⟨hld.returned, hld.returned_pc, load_mem⟩

end Represents

end RtosKernel
