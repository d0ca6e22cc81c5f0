import Mathlib.Tactic.SplitIfs
import RtosKernel.Processor.Banks

namespace RtosKernel.Arm

open BlockTransfer

/-- The code reads the SPSR before it writes it. -/
def spsrLive : List Instr → Bool
  | [] => false
  | .mrs _ true :: _ | .movsPcLr :: _ | .ldmfdPc _ _ :: _ => true
  | .msr true _ :: _ => false
  | _ :: code => spsrLive code

section

variable (irq call : Proc → Proc → Prop)

/-- `code` runs from one state to another, with calls that behave as `call` and interrupts that
behave as `irq`. There is none while the SPSR is live. -/
inductive Exec : List Instr → Proc → Proc → Prop
  | done {p : Proc} : Exec [] p p
  | insn {i : Instr} {code : List Instr} {p p' q : Proc} (hx : i.exec p = some p')
      (h : Exec code p' q) : Exec (i :: code) p q
  | call {code : List Instr} {p p' q : Proc} (hc : call p p') (h : Exec code p' q) :
      Exec (.bl :: code) p q
  | irq {i : Instr} {code : List Instr} {p p' q : Proc} (hm : masksIrq (p.reg .cpsr) = false)
      (hl : spsrLive (i :: code) = false) (hi : irq p p') (h : Exec (i :: code) p' q) :
      Exec (i :: code) p q

end

/-- Where the SVC stack of a task, the text and the two words of the IRQ stack lie. -/
structure Layout where
  sym : Symbols
  bot : Nat
  top : Nat
  text : Nat → Prop
  text_stack : ∀ a, text a → a < bot ∨ top ≤ a
  irqStack_stack : sym.irqStackLo.toNat + 8 ≤ bot ∨ top ≤ sym.irqStackLo.toNat
  irqStack_text : ∀ a, text a → a < sym.irqStackLo.toNat ∨ sym.irqStackLo.toNat + 8 ≤ a

/-- The bytes that an interrupt takes from the SVC stack. -/
def irqFrame : Nat := 44

namespace Layout

variable (L : Layout)

/-- The words that belong to the code that has the stack down to `sp`. -/
def Owned (sp a : Nat) : Prop := sp ≤ a ∧ a < L.top ∨ L.text a

/-- A C function returns with the registers it has to keep, in SVC mode, and has written to none of
the words above its stack but those of `out`. -/
structure Abides (out : Nat → Prop) (p p' : Proc) : Prop where
  kept : ∀ i : Fin 13, 4 ≤ i.val → i.val ≤ 11 → p'.reg (.r i) = p.reg (.r i)
  sp : p'.reg (.sp .svc) = p.reg (.sp .svc)
  mode : modeOf (p'.reg .cpsr) = some .svc
  mem : ∀ a, L.Owned (p.reg (.sp .svc)).toNat a → ¬ out a → p'.mem a = p.mem a

/-- An interrupt at any nesting depth below `n` and what becomes of it. It needs room on the
stack. -/
def IrqRun (call : Proc → Proc → Prop) : Nat → Proc → Proc → Prop
  | 0, _, _ => False
  | n+1, p, q => L.bot + irqFrame ≤ (p.reg (.sp .svc)).toNat ∧ (p.reg (.sp .svc)).toNat ≤ L.top ∧
      Exec (IrqRun call n) call (irqHandlerAsm L.sym) (irqEntry p) q

/-- Nothing has changed for the interrupted code. -/
structure Quiet (p p' : Proc) : Prop where
  reg : ∀ r, r ≠ .spsrSvc → r ≠ .spsrIrq → r ≠ .sp .irq → r ≠ .lr .irq → p'.reg r = p.reg r
  mem : ∀ a, L.Owned (p.reg (.sp .svc)).toNat a → p'.mem a = p.mem a

/-- The registers that an interrupt does not give back. -/
def scratch : List Reg := [.spsrSvc, .spsrIrq, .sp .irq, .lr .irq]

variable {L} {p p' p'' q : Proc} {irq call : Proc → Proc → Prop} {i : Instr}
  {code rest : List Instr} {mode : Mode}

theorem Quiet.refl (p : Proc) : L.Quiet p p := ⟨fun _ _ _ _ _ => rfl, fun _ _ => rfl⟩

theorem Quiet.same (h : L.Quiet p p') {r : Reg} (hr : r ∉ scratch) : p'.reg r = p.reg r := by
  simp only [scratch, List.mem_cons, List.not_mem_nil, or_false, not_or] at hr
  exact h.reg r hr.1 hr.2.1 hr.2.2.1 hr.2.2.2

theorem Quiet.trans (h : L.Quiet p p') (h' : L.Quiet p' p'') : L.Quiet p p'' := by
  have hsp : p'.reg (.sp .svc) = p.reg (.sp .svc) := h.same (by decide)
  constructor
  · intro r h1 h2 h3 h4
    rw [h'.reg r h1 h2 h3 h4, h.reg r h1 h2 h3 h4]
  · intro a ha
    rw [h'.mem a (by rwa [hsp]), h.mem a ha]

end Layout

section Exec

variable {L : Layout} {p p' p'' q : Proc} {irq call : Proc → Proc → Prop} {i : Instr}
  {code rest : List Instr} {mode : Mode}

/-- Interrupts that come before an instruction. -/
theorem Exec.interrupts (h : Exec irq call (i :: code) p q)
    (hirq : ∀ p p', irq p p' → L.Quiet p p') :
    ∃ p₁, L.Quiet p p₁ ∧ ((∃ p₂, i.exec p₁ = some p₂ ∧ Exec irq call code p₂ q) ∨
      i = .bl ∧ ∃ p₂, call p₁ p₂ ∧ Exec irq call code p₂ q) := by
  generalize hc : i :: code = is at h
  induction h with
  | done => cases hc
  | insn hx h _ =>
    cases hc
    exact ⟨_, .refl _, Or.inl ⟨_, hx, h⟩⟩
  | call hcall h _ =>
    cases hc
    exact ⟨_, .refl _, Or.inr ⟨rfl, _, hcall, h⟩⟩
  | irq _ _ hi _ ih =>
    cases hc
    obtain ⟨p₁, hq, hnext⟩ := ih rfl
    exact ⟨p₁, (hirq _ _ hi).trans hq, hnext⟩

theorem Exec.next (h : Exec irq call (i :: code) p q)
    (hirq : ∀ p p', irq p p' → L.Quiet p p')
    (hmode : modeOf (p.reg .cpsr) = some mode) (hi : i ≠ .bl) :
    ∃ p₁, L.Quiet p p₁ ∧ ∃ p₂, i.execIn mode p₁ = some p₂ ∧ Exec irq call code p₂ q := by
  obtain ⟨p₁, hquiet, ⟨p₂, hx, hnext⟩ | ⟨hbl, _⟩⟩ := h.interrupts hirq
  · have hsame : p₁.reg .cpsr = p.reg .cpsr := hquiet.same (by decide)
    rw [Instr.exec, hsame, hmode] at hx
    exact ⟨p₁, hquiet, p₂, hx, hnext⟩
  · exact absurd hbl hi

theorem Exec.nextCall (h : Exec irq call (.bl :: code) p q)
    (hirq : ∀ p p', irq p p' → L.Quiet p p') :
    ∃ p₁, L.Quiet p p₁ ∧ ∃ p₂, call p₁ p₂ ∧ Exec irq call code p₂ q := by
  obtain ⟨p₁, hquiet, ⟨p₂, hx, -⟩ | ⟨-, p₂, hcall, hnext⟩⟩ := h.interrupts hirq
  · rw [Instr.exec] at hx
    cases hm : modeOf (p₁.reg .cpsr) <;> simp [hm, Instr.execIn] at hx
  · exact ⟨p₁, hquiet, p₂, hcall, hnext⟩

/-- Run `code` as long as no interrupt can come before an instruction of it; `rest` follows. -/
def atomic (rest : List Instr) : List Instr → Proc → Option Proc
  | [], p => some p
  | i :: code, p =>
    if masksIrq (p.reg .cpsr) ∨ spsrLive (i :: code ++ rest) then
      (i.exec p).bind (atomic rest code)
    else none

theorem exec_bl (p : Proc) : Instr.bl.exec p = none := by
  rw [Instr.exec]
  cases modeOf (p.reg .cpsr) <;> rfl

theorem Exec.atomic (h : Exec irq call (code ++ rest) p q)
    (hx : Arm.atomic rest code p = some p') : Exec irq call rest p' q := by
  induction code generalizing p with
  | nil =>
    cases hx
    exact h
  | cons i code ih =>
    rw [Arm.atomic] at hx
    split_ifs at hx with hq
    obtain ⟨p₁, hi, hx⟩ := Option.bind_eq_some_iff.mp hx
    cases h with
    | insn hi' h =>
      rw [hi] at hi'
      cases hi'
      exact ih h hx
    | call _ _ =>
      rw [exec_bl] at hi
      cases hi
    | irq hm hl _ _ =>
      rw [List.append_eq] at hl
      rw [hm, List.cons_append, hl] at hq
      simp at hq

theorem atomic_append {code' : List Instr} (h : Arm.atomic (code' ++ rest) code p = some p')
    (h' : Arm.atomic rest code' p' = some q) : Arm.atomic rest (code ++ code') p = some q := by
  induction code generalizing p with
  | nil =>
    cases h
    exact h'
  | cons i code ih =>
    rw [Arm.atomic] at h
    split_ifs at h with hq
    obtain ⟨p₁, hi, hx⟩ := Option.bind_eq_some_iff.mp h
    have hlive : i :: (code ++ code') ++ rest = i :: code ++ (code' ++ rest) := by simp
    rw [List.cons_append, Arm.atomic, hlive, if_pos hq, hi, Option.bind_some, ih hx]

end Exec

section Completion

/-! Runs without interrupts, up to their end. -/

variable {p p' q : Proc} {irq call : Proc → Proc → Prop} {i : Instr} {code rest : List Instr}
  {mode : Mode}

theorem Exec.of_atomic (hx : Arm.atomic rest code p = some p') (h : Exec irq call rest p' q) :
    Exec irq call (code ++ rest) p q := by
  induction code generalizing p with
  | nil =>
    cases hx
    exact h
  | cons i code ih =>
    rw [Arm.atomic] at hx
    split_ifs at hx
    obtain ⟨p₁, hi, hx⟩ := Option.bind_eq_some_iff.mp hx
    exact .insn hi (ih hx)

/-- The instruction runs in `mode` and writes no status register but an SPSR. -/
def Instr.stays (mode : Mode) : Instr → Bool
  | .mrs _ saved => !saved || mode ≠ .usr
  | .msr saved _ => saved && mode ≠ .usr
  | .msrCpsrC _ | .bl | .movsPcLr | .ldmfdPc _ _ => false
  | _ => true

theorem Name.reg_ne_cpsr (mode : Mode) (n : Name) : Reg.cpsr ≠ n.reg mode := by
  cases n <;> simp [Name.reg]

theorem cpsr_not_mem_regs (mode : Mode) (names : List Name) : Reg.cpsr ∉ regs mode names := by
  intro h
  obtain ⟨n, _, hn⟩ := List.mem_map.mp h
  exact n.reg_ne_cpsr mode hn.symm

theorem Instr.exec_stays (hi : i.stays mode = true) (hmode : modeOf (p.reg .cpsr) = some mode) :
    ∃ p', i.exec p = some p' ∧ p'.reg .cpsr = p.reg .cpsr := by
  have hset (n : Name) (v : BitVec 32) (p : Proc) :
      (setReg p (n.reg mode) v).reg .cpsr = p.reg .cpsr := setReg_of_ne _ _ (n.reg_ne_cpsr mode)
  have hload (m : Mode) (base : Nat) (l : List Name) (p : Proc) :
      (load base (regs m l) p).reg .cpsr = p.reg .cpsr := load_outside (cpsr_not_mem_regs m l)
  rw [Instr.exec, hmode, Option.bind_some]
  cases i with
  | stmia rn l => exact ⟨_, rfl, by rw [store_reg]⟩
  | stmfd writeBack user rn l =>
    refine ⟨_, rfl, ?_⟩
    cases writeBack
    · exact congrFun store_reg _
    · exact (hset ..).trans (congrFun store_reg _)
  | ldmfd writeBack user rn l =>
    refine ⟨_, rfl, ?_⟩
    cases writeBack
    · exact hload ..
    · exact (hset ..).trans (hload ..)
  | mrs rd saved =>
    cases saved with
    | false => exact ⟨_, rfl, hset ..⟩
    | true =>
      cases mode with
      | usr => cases hi
      | svc => exact ⟨_, rfl, hset ..⟩
      | irq => exact ⟨_, rfl, hset ..⟩
  | msr saved rm =>
    cases saved with
    | false => cases hi
    | true =>
      cases mode with
      | usr => cases hi
      | svc => exact ⟨_, rfl, setReg_of_ne _ _ (by decide)⟩
      | irq => exact ⟨_, rfl, setReg_of_ne _ _ (by decide)⟩
  | movPc rm => exact ⟨_, rfl, setReg_of_ne _ _ (by decide)⟩
  | str rd rn offset => exact ⟨_, rfl, rfl⟩
  | add | eor | bic | mov | movImm | ldrLit | ldr => exact ⟨_, rfl, hset ..⟩
  | msrCpsrC | bl | movsPcLr | ldmfdPc => cases hi

theorem Exec.stays (hi : ∀ i ∈ code, i.stays mode = true)
    (hmode : modeOf (p.reg .cpsr) = some mode) : ∃ p', p'.reg .cpsr = p.reg .cpsr ∧
      ∀ rest q, Exec irq call rest p' q → Exec irq call (code ++ rest) p q := by
  induction code generalizing p with
  | nil => exact ⟨p, rfl, fun _ _ h => h⟩
  | cons i code ih =>
    obtain ⟨hi, hcode⟩ := List.forall_mem_cons.mp hi
    obtain ⟨p₁, hx, hsame⟩ := Instr.exec_stays hi hmode
    obtain ⟨p', hsame', hrun⟩ := ih hcode (by rw [hsame, hmode])
    exact ⟨p', hsame'.trans hsame, fun rest q h => .insn hx (hrun rest q h)⟩

/-- A return from an exception. -/
theorem Exec.returns (hi : i = .movsPcLr ∨ ∃ rn l, i = .ldmfdPc rn l)
    (hmode : modeOf (p.reg .cpsr) = some .svc) : ∃ q, Exec irq call [i] p q := by
  have hsome : ∃ q, i.exec p = some q := by
    rw [Instr.exec, hmode]
    rcases hi with rfl | ⟨rn, l, rfl⟩
    · exact ⟨_, rfl⟩
    · exact ⟨_, rfl⟩
  obtain ⟨q, hq⟩ := hsome
  exact ⟨q, .insn hq .done⟩

end Completion

section Status

theorem and_or_and (w a b c : BitVec 32) :
    (w &&& a ||| b) &&& c = w &&& (a &&& c) ||| b &&& c := by
  rw [BitVec.and_or_distrib_right, BitVec.and_assoc]

/-- New control bits over old ones that are cleared. -/
theorem modeOf_or (w n : BitVec 32) {a : BitVec 32} (h : a &&& 0x1f = 0) :
    modeOf (w &&& a ||| n) = modeOf n := by
  have hbits : (w &&& a ||| n) &&& 0x1f = n &&& 0x1f := by
    rw [and_or_and, h]
    simp
  simp only [modeOf, hbits]

theorem masksIrq_or (w n : BitVec 32) {a : BitVec 32} (h : a &&& 0x80 = 0) :
    masksIrq (w &&& a ||| n) = masksIrq n := by
  have hbits : (w &&& a ||| n) &&& 0x80 = n &&& 0x80 := by
    rw [and_or_and, h]
    simp
  simp only [masksIrq, hbits]

theorem mode_enter (mode : Mode) (w : BitVec 32) : modeOf (enter mode w) = some mode := by
  rw [enter, modeOf_or w _ (by decide)]
  cases mode <;> decide

theorem masks_enter (mode : Mode) (w : BitVec 32) : masksIrq (enter mode w) = true := by
  rw [enter, masksIrq_or w _ (by decide)]
  cases mode <;> decide

/-- The I bit is not one of the mode bits. -/
theorem mode_eor (w : BitVec 32) : modeOf (w ^^^ 0x80) = modeOf w := by
  have hbit : 0x80#32 &&& 0x1f#32 = 0#32 := by decide
  have h : (w ^^^ 0x80) &&& 0x1f = w &&& 0x1f := by
    apply BitVec.eq_of_getLsbD_eq
    intro i _
    have hi : ((0x80#32).getLsbD i && (0x1f#32).getLsbD i) = false := by
      rw [← BitVec.getLsbD_and, hbit, BitVec.getLsbD_zero]
    rw [BitVec.getLsbD_and, BitVec.getLsbD_xor, BitVec.getLsbD_and, Bool.and_xor_distrib_right]
    exact (congrArg _ hi).trans (Bool.xor_false _)
  simp only [modeOf, h]

/-- `msr cpsr_c, #(PSR_MODE_SVC | PSR_IRQ)` -/
theorem svc_status (w : BitVec 32) : modeOf (w &&& ~~~0xff ||| 0x93) = some .svc ∧
    masksIrq (w &&& ~~~0xff ||| 0x93) = true := by
  rw [modeOf_or w _ (by decide), masksIrq_or w _ (by decide)]
  decide

/-- `msr cpsr_c, #(PSR_MODE_USR)` -/
theorem usr_status (w : BitVec 32) : modeOf (w &&& ~~~0xff ||| 0x10) = some .usr ∧
    masksIrq (w &&& ~~~0xff ||| 0x10) = false := by
  rw [modeOf_or w _ (by decide), masksIrq_or w _ (by decide)]
  decide

end Status

end RtosKernel.Arm
