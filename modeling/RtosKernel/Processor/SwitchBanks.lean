import RtosKernel.Processor.ContextSwitch
import RtosKernel.Processor.Nesting

namespace RtosKernel.Arm

open BlockTransfer

/-- `{r4-r11,sp,lr}` -/
def switched : List Name := [.r 4, .r 5, .r 6, .r 7, .r 8, .r 9, .r 10, .r 11, .sp, .lr]

def ctxSwitchFull : List Instr := [
  .stmia (.r 1) switched,             -- stmia r1,{r4-r11,sp,lr}
  .ldmfd false false (.r 0) switched, -- ldmfd r0,{r4-r11,sp,lr}
  .movPc .lr]                         -- mov pc, lr

def ctxSwitchHalf : List Instr := [
  .ldmfd false false (.r 0) switched, -- ldmfd r0,{r4-r11,sp,lr}
  .movPc .lr]                         -- mov pc, lr

/-- The registers of a context in the order of `struct sched_context`. -/
def contextRegs : List Reg := regs .svc switched

/-- How an instruction names `r0` to `lr`. -/
def coreName (r : CoreReg) : Name :=
  if h : r.val < 13 then .r ⟨r.val, h⟩ else if r = CoreReg.sp then .sp else .lr

/-- The register that `r0` to `pc` are in SVC mode. -/
def coreBank (r : CoreReg) : Reg := if r = CoreReg.pc then .pc else (coreName r).reg .svc

/-- The processor in SVC mode as a machine of sixteen registers. -/
def core (p : Proc) : Core := p.view coreBank BitVec.toNat

/-- An instruction of the switch routines among those of the processor. -/
def switchInstr : SwitchInsn → Instr
  | .stmia rn registers => .stmia (coreName rn) (registers.map coreName)
  | .ldmfd rn registers => .ldmfd false false (coreName rn) (registers.map coreName)
  | .mov rd rm => if rd = CoreReg.pc then .movPc (coreName rm) else .mov (coreName rd) (coreName rm)

/-- Both models have the same switch routines. -/
theorem switch_listings : ctxSwitchFullAsm.map switchInstr = ctxSwitchFull ∧
    ctxSwitchHalfAsm.map switchInstr = ctxSwitchHalf := ⟨rfl, rfl⟩

/-- `pc` is no more than written, and registers are named in the order of their transfer. -/
def WellNamed : SwitchInsn → Prop
  | .stmia rn registers | .ldmfd rn registers =>
    rn ≠ CoreReg.pc ∧ (∀ r ∈ registers, r ≠ CoreReg.pc) ∧ transferOrder registers = registers
  | .mov _ rm => rm ≠ CoreReg.pc

instance : DecidablePred WellNamed
  | .stmia _ _ => inferInstanceAs (Decidable (_ ∧ _ ∧ _))
  | .ldmfd _ _ => inferInstanceAs (Decidable (_ ∧ _ ∧ _))
  | .mov _ _ => inferInstanceAs (Decidable (_ ≠ _))

theorem switch_wellNamed : (∀ i ∈ ctxSwitchFullAsm, WellNamed i) ∧
    ∀ i ∈ ctxSwitchHalfAsm, WellNamed i := by decide

variable {p q m : Proc} {irq call : Proc → Proc → Prop} {i : SwitchInsn} {code : List SwitchInsn}
  {registers : List CoreReg} {r : CoreReg} {base : Nat} {t : TcbPtr}

theorem coreBank_injective : Function.Injective coreBank := by
  unfold Function.Injective
  decide

theorem coreBank_ne_cpsr : ∀ r, coreBank r ≠ .cpsr := by decide

theorem coreName_reg (h : r ≠ CoreReg.pc) : (coreName r).reg .svc = coreBank r := (if_neg h).symm

theorem coreNames_regs (h : ∀ r ∈ registers, r ≠ CoreReg.pc) :
    regs .svc (registers.map coreName) = registers.map coreBank := by
  rw [regs, List.map_map]
  exact List.map_congr_left fun r hr => coreName_reg (h r hr)

theorem core_setReg (p : Proc) (r : CoreReg) (v : BitVec 32) :
    core (setReg p (coreBank r) v) =
      { core p with reg := Function.update (core p).reg r v.toNat } := by
  have hnames := Function.update_comp_eq_of_injective p.reg coreBank_injective r v
  have hreg : (fun i => (Function.update p.reg (coreBank r) v (coreBank i)).toNat) =
      Function.update (core p).reg r v.toNat := by
    funext i
    rw [← Function.comp_apply (f := Function.update p.reg (coreBank r) v), hnames,
      ← Function.comp_apply (f := BitVec.toNat), Function.comp_update]
    rfl
  exact congrArg (fun f => (⟨f, (core p).mem⟩ : Core)) hreg

/-- An instruction does on the processor what it does on its sixteen registers. -/
theorem switchInstr_exec (h : WellNamed i) (hmode : modeOf (p.reg .cpsr) = some .svc) :
    ∃ p', (switchInstr i).exec p = some p' ∧ core p' = i.exec (core p) ∧
      p'.reg .cpsr = p.reg .cpsr := by
  cases i with
  | stmia rn registers =>
    obtain ⟨hrn, hregs, horder⟩ := h
    refine ⟨store (p.reg (coreBank rn)).toNat (registers.map coreBank) p, ?_, ?_, ?_⟩
    · rw [switchInstr, Instr.exec, hmode, Option.bind_some, Instr.execIn, coreName_reg hrn,
        coreNames_regs hregs]
    · rw [SwitchInsn.exec, horder, core, view_store]
      rfl
    · rw [store_reg]
  | ldmfd rn registers =>
    obtain ⟨hrn, hregs, horder⟩ := h
    refine ⟨load (p.reg (coreBank rn)).toNat (registers.map coreBank) p, ?_, ?_, ?_⟩
    · rw [switchInstr, Instr.exec, hmode, Option.bind_some, Instr.execIn, coreName_reg hrn]
      simp only [Bool.false_eq_true, if_false, coreNames_regs hregs]
    · rw [SwitchInsn.exec, horder, core, view_load coreBank_injective]
      rfl
    · apply load_outside
      intro hmem
      obtain ⟨r, _, hr⟩ := List.mem_map.mp hmem
      exact coreBank_ne_cpsr r hr
  | mov rd rm =>
    refine ⟨setReg p (coreBank rd) (p.reg (coreBank rm)), ?_, core_setReg .., ?_⟩
    · rw [switchInstr, ← coreName_reg h]
      split_ifs with hrd
      · rw [hrd, Instr.exec, hmode]
        rfl
      · rw [← coreName_reg hrd, Instr.exec, hmode]
        rfl
    · exact setReg_of_ne _ _ (coreBank_ne_cpsr rd).symm

/-- With interrupts masked a switch routine does on the processor what it does on its sixteen
registers. -/
theorem switch_run (hcode : ∀ i ∈ code, WellNamed i) (hmode : modeOf (p.reg .cpsr) = some .svc)
    (hmask : masksIrq (p.reg .cpsr) = true) (hx : Exec irq call (code.map switchInstr) p m) :
    core m = SwitchInsn.run code (core p) ∧ m.reg .cpsr = p.reg .cpsr := by
  induction code generalizing p with
  | nil =>
    cases hx
    exact ⟨rfl, rfl⟩
  | cons i code ih =>
    obtain ⟨hi, hcode⟩ := List.forall_mem_cons.mp hcode
    obtain ⟨p', hexec, hcore, hcpsr⟩ := switchInstr_exec hi hmode
    have hrest : Exec irq call (code.map switchInstr) p' m := by
      have hrun : atomic (code.map switchInstr) [switchInstr i] p = some p' := by
        rw [atomic, if_pos (Or.inl hmask), hexec]
        rfl
      exact Exec.atomic hx hrun
    obtain ⟨hm, hkept⟩ := ih hcode (by rw [hcpsr, hmode]) (by rw [hcpsr, hmask]) hrest
    refine ⟨?_, hkept.trans hcpsr⟩
    rw [hm, hcore]
    rfl

/-- In SVC mode the switch routines run to their end. -/
theorem switch_completes (hmode : modeOf (p.reg .cpsr) = some .svc) :
    (∃ m, Exec irq call ctxSwitchHalf p m) ∧ ∃ m, Exec irq call ctxSwitchFull p m := by
  have hhalf : ∀ i ∈ ctxSwitchHalf, i.stays .svc = true := by decide
  have hfull : ∀ i ∈ ctxSwitchFull, i.stays .svc = true := by decide
  constructor
  · obtain ⟨m, -, hm⟩ := Exec.stays hhalf hmode
    exact ⟨m, hm [] m .done⟩
  · obtain ⟨m, -, hm⟩ := Exec.stays hfull hmode
    exact ⟨m, hm [] m .done⟩

/-- The words of the context and the return address, from what the routine does on its sixteen
registers. -/
theorem loads_of_core {c : Core} {words : List (BitVec 32)}
    (hm : core m = SwitchInsn.run ctxSwitchHalfAsm c) (h0 : c.reg 0 = base)
    (hwords : block c.mem base 10 = words.map BitVec.toNat) :
    contextRegs.map m.reg = words ∧ m.reg .pc = m.reg (.lr .svc) := by
  have hvalues : Function.Injective (BitVec.toNat : BitVec 32 → Nat) :=
    fun _ _ h => BitVec.eq_of_toNat_eq h
  obtain ⟨hload, hpc⟩ := ctxSwitchHalf_loads c
  rw [← hm] at hload hpc
  rw [h0] at hload
  refine ⟨?_, hvalues hpc⟩
  apply List.map_injective_iff.mpr hvalues
  rw [← hwords, ← hload, List.map_map]
  rfl

/-- A switch loads the context of `t` from `system_tcb`, at `base`. -/
theorem switch_loads (hmode : modeOf (p.reg .cpsr) = some .svc)
    (hmask : masksIrq (p.reg .cpsr) = true) (h0 : (p.reg (.r 0)).toNat = ctxAddr base t)
    (hx : Exec irq call ctxSwitchHalf p m ∨ ∃ last, last ≠ t ∧
      (p.reg (.r 1)).toNat = ctxAddr base last ∧ Exec irq call ctxSwitchFull p m) :
    contextRegs.map m.reg = block p.mem (ctxAddr base t) 10 ∧ m.reg .pc = m.reg (.lr .svc) ∧
      m.reg .cpsr = p.reg .cpsr := by
  have hwords : block (core p).mem (ctxAddr base t) 10 =
      (block p.mem (ctxAddr base t) 10).map BitVec.toNat := block_view p coreBank BitVec.toNat
  have hr0 : (core p).reg 0 = ctxAddr base t := h0
  rcases hx with hx | ⟨last, hne, h1, hx⟩
  · rw [← switch_listings.2] at hx
    obtain ⟨hm, hcpsr⟩ := switch_run switch_wellNamed.2 hmode hmask hx
    obtain ⟨hregs, hpc⟩ := loads_of_core hm hr0 hwords
    exact ⟨hregs, hpc, hcpsr⟩
  · rw [← switch_listings.1] at hx
    obtain ⟨hm, hcpsr⟩ := switch_run switch_wellNamed.1 hmode hmask hx
    have hr1 : (core p).reg 1 = ctxAddr base last := h1
    -- the context of `t` is not the one that is stored
    rw [ctxSwitchFull_run, hr1] at hm
    rw [← store_block_disjoint (ctxAddr_disjoint base hne.symm)] at hwords
    obtain ⟨hregs, hpc⟩ := loads_of_core hm ((congrFun store_reg 0).trans hr0) hwords
    exact ⟨hregs, hpc, hcpsr⟩

end RtosKernel.Arm
