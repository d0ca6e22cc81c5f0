import RtosKernel.Processor.Nesting

namespace RtosKernel.Arm

open BlockTransfer

/-- What an interrupt saves on the SVC stack, from the lowest address on. -/
def irqSaved : List Reg :=
  [.cpsr, .sp .usr, .lr .usr, .r 0, .r 1, .r 2, .r 3, .r 8, .r 12, .lr .svc, .pc]

namespace Layout

/-- `s` is a state of the handler that interrupted `p`, with its frame on the stack. -/
structure Interrupted (L : Layout) (p s : Proc) : Prop where
  sp : s.reg (.sp .svc) = p.reg (.sp .svc) - 44
  mode : modeOf (s.reg .cpsr) = some .svc
  frame : block s.mem ((p.reg (.sp .svc)).toNat - 44) 11 = irqSaved.map p.reg
  kept : ∀ i : Fin 13, 4 ≤ i.val → i.val ≤ 11 → i ≠ 8 → s.reg (.r i) = p.reg (.r i)
  mem : ∀ a, L.Owned (p.reg (.sp .svc)).toNat a → s.mem a = p.mem a

/-- The stack has room for the frame of an interrupt. -/
structure Room (L : Layout) (p : Proc) : Prop where
  bot : L.bot + irqFrame ≤ (p.reg (.sp .svc)).toNat
  top : (p.reg (.sp .svc)).toNat ≤ L.top

variable {L : Layout} {p p' s s' q : Proc} {rest : List Instr} {irq call : Proc → Proc → Prop}

theorem Owned.frame {a : Nat} (ha : L.Owned (p.reg (.sp .svc)).toNat a) (hroom : L.Room p) :
    a < (p.reg (.sp .svc)).toNat - irqFrame ∨ (p.reg (.sp .svc)).toNat ≤ a := by
  obtain ⟨hbot, htop⟩ := hroom
  rcases ha with ⟨hsp, -⟩ | ha
  · exact Or.inr hsp
  · have htext := L.text_stack a ha
    unfold irqFrame at hbot ⊢
    omega

theorem Owned.irqStack {n a : Nat} (ha : L.Owned n a) (hn : L.bot ≤ n) :
    a < L.sym.irqStackLo.toNat ∨ L.sym.irqStackLo.toNat + 8 ≤ a := by
  rcases ha with ⟨hsp, htop⟩ | ha
  · have hout := L.irqStack_stack
    omega
  · exact L.irqStack_text a ha

/-- In SVC mode, with `r0` and `r1` on the IRQ stack. -/
structure OnIrqStack (L : Layout) (p s : Proc) : Prop where
  r0 : s.reg (.r 0) = p.reg .cpsr
  r1 : s.reg (.r 1) = p.reg .pc
  mode : modeOf (s.reg .cpsr) = some .svc
  masked : masksIrq (s.reg .cpsr) = true
  reg : ∀ r, r ≠ .r 0 → r ≠ .r 1 → r ≠ .cpsr → r ≠ .sp .irq → r ≠ .lr .irq → r ≠ .spsrIrq →
    s.reg r = p.reg r
  mem : s.mem = (store L.sym.irqStackLo.toNat [Reg.r 0, Reg.r 1] p).mem

theorem irq_enter :
    ∃ s, atomic rest ((irqHandlerAsm L.sym).take 6) (irqEntry p) = some s ∧ L.OnIrqStack p s := by
  have hmode := mode_enter .irq (p.reg .cpsr)
  have hmask := masks_enter .irq (p.reg .cpsr)
  obtain ⟨hmode', hmask'⟩ := svc_status (enter .irq (p.reg .cpsr))
  have hlo : L.sym.irqStackLo + 8 - wordsSize 2 = L.sym.irqStackLo := BitVec.add_sub_cancel _ _
  have hpc : p.reg .pc + 4 + -4 = p.reg .pc := by bv_omega
  refine ⟨?s, ?run, ?facts⟩
  case run =>
    simp only [atomic, irqHandlerAsm, List.take, irqEntry, Instr.exec, Instr.execIn, setReg, hmode,
      hmask, Name.reg, spsrOf, Function.update_apply, reduceCtorEq, if_false, if_true,
      Option.bind_some, Option.map_some, Bool.false_eq_true, true_or, store_reg, Reg.sp.injEq,
      Reg.lr.injEq, regs, List.map_cons, List.map_nil, List.length_cons, List.length_nil,
      Nat.reduceAdd, hlo, hpc]
    rfl
  case facts =>
    refine ⟨?_, ?_, ?_, ?_, ?_, ?_⟩
    · simp
    · simp
    · simpa using hmode'
    · simpa using hmask'
    · intro r h0 h1 h2 h3 h4 h5
      simp [h0, h1, h2, h3, h4, h5]
    · simp [store]

/-- The frame but for its three lowest words. -/
structure UpperFrame (L : Layout) (p s : Proc) : Prop where
  sp : s.reg (.sp .svc) = p.reg (.sp .svc) - 32
  mode : modeOf (s.reg .cpsr) = some .svc
  user : s.reg (.sp .usr) = p.reg (.sp .usr) ∧ s.reg (.lr .usr) = p.reg (.lr .usr)
  frame : block s.mem ((p.reg (.sp .svc)).toNat - 32) 8 = (irqSaved.drop 3).map p.reg
  kept : ∀ i : Fin 13, 4 ≤ i.val → i.val ≤ 11 → i ≠ 8 → s.reg (.r i) = p.reg (.r i)
  mem : ∀ a, L.Owned (p.reg (.sp .svc)).toNat a → s.mem a = p.mem a

/-- The upper frame while interrupts are masked. -/
structure OnSvcStack (L : Layout) (p s : Proc) : Prop extends L.UpperFrame p s where
  spsr : s.reg .spsrSvc = p.reg .cpsr
  masked : masksIrq (s.reg .cpsr) = true

theorem irq_push (h : L.OnIrqStack p s) (hroom : L.Room p) :
    ∃ s', atomic rest (((irqHandlerAsm L.sym).drop 6).take 5) s = some s' ∧ L.OnSvcStack p s' := by
  have ⟨hbot, htop⟩ := hroom
  have hout := L.irqStack_stack
  unfold irqFrame at hbot
  have hsp : s.reg (.sp .svc) = p.reg (.sp .svc) :=
    h.reg _ (by simp) (by simp) (by simp) (by simp) (by simp) (by simp)
  have hfirst : (p.reg (.sp .svc) - wordsSize 1).toNat = (p.reg (.sp .svc)).toNat - 4 := by
    unfold wordsSize
    bv_omega
  have hsecond : (p.reg (.sp .svc) - wordsSize 1 - wordsSize 7).toNat =
      (p.reg (.sp .svc)).toNat - 32 := by
    unfold wordsSize
    bv_omega
  have hr0 (m : Proc) (hm : m.mem = s.mem) :
      (store ((p.reg (.sp .svc)).toNat - 4) [Reg.r 1] m).mem L.sym.irqStackLo.toNat =
        p.reg (.r 0) := by
    rw [store_outside (by simp; omega), hm, h.mem]
    simp [store]
  have hr1 (m : Proc) (hm : m.mem = s.mem) :
      (store ((p.reg (.sp .svc)).toNat - 4) [Reg.r 1] m).mem (L.sym.irqStackLo.toNat + 4) =
        p.reg (.r 1) := by
    rw [store_outside (by simp; omega), hm, h.mem]
    simp [store]
  refine ⟨?s, ?run, ?facts⟩
  case run =>
    simp only [atomic, irqHandlerAsm, List.take, List.drop, Instr.exec, Instr.execIn, setReg,
      h.mode, h.masked, Name.reg, spsrOf, Function.update_apply, reduceCtorEq, if_false, if_true,
      Option.bind_some, Option.map_some, Bool.false_eq_true, true_or, store_reg, regs,
      List.map_cons, List.map_nil, List.length_cons, List.length_nil, Nat.reduceAdd, hsp, h.r0,
      h.r1, hfirst, hsecond, hr0, hr1, load]
    rfl
  case facts =>
    refine ⟨⟨?_, ?_, ?_, ?_, ?_, ?_⟩, ?_, ?_⟩
    · simp [wordsSize]
      bv_omega
    · simpa using h.mode
    · simp [h.reg]
    · have hlast : (p.reg (.sp .svc)).toNat - 32 + 4 * 7 = (p.reg (.sp .svc)).toNat - 4 := by omega
      dsimp only
      have hsplit : (irqSaved.drop 3).map p.reg =
          [Reg.r 0, .r 1, .r 2, .r 3, .r 8, .r 12, .lr .svc].map p.reg ++ [p.reg .pc] := rfl
      rw [block_append _ _ 7 1, hlast, hsplit]
      congr 1
      · exact store_block.trans (by simp [h.reg])
      · rw [block, block, store_outside (by simp; omega)]
        simp [store, h.r1]
    · intro i h4 h11 _
      have h0 : i ≠ 0 := by rintro rfl; simp at h4
      have h1 : i ≠ 1 := by rintro rfl; simp at h4
      simp [h0, h1, h.reg]
    · intro a ha
      have hframe := ha.frame hroom
      unfold irqFrame at hframe
      dsimp only
      rw [store_outside (by simp; omega), store_outside (by simp; omega), h.mem,
        store_outside (by simpa using ha.irqStack (by omega))]
    · simp
    · simpa using h.masked

theorem irq_frame (h : L.OnSvcStack p s) (hroom : L.Room p) :
    ∃ s', atomic rest (((irqHandlerAsm L.sym).drop 11).take 5) s = some s' ∧
      L.Interrupted p s' := by
  have ⟨hbot, htop⟩ := hroom
  unfold irqFrame at hbot
  have hbase : (p.reg (.sp .svc) - 32 - wordsSize 3).toNat = (p.reg (.sp .svc)).toNat - 44 := by
    unfold wordsSize
    bv_omega
  refine ⟨?s, ?run, ?facts⟩
  case run =>
    simp only [atomic, irqHandlerAsm, List.take, List.drop, Instr.exec, Instr.execIn, setReg,
      h.mode, h.masked, Name.reg, spsrOf, Function.update_apply, reduceCtorEq, if_false, if_true,
      Option.bind_some, Option.map_some, true_or, store_reg, regs, List.map_cons, List.map_nil,
      List.length_cons, List.length_nil, Nat.reduceAdd, h.sp, h.spsr, hbase]
    rfl
  case facts =>
    refine ⟨?_, ?_, ?_, ?_, ?_⟩
    · simp
      bv_omega
    · simpa using h.mode
    · have hnext : (p.reg (.sp .svc)).toNat - 44 + 4 * 3 = (p.reg (.sp .svc)).toNat - 32 := by omega
      have hsplit : irqSaved.map p.reg = [Reg.cpsr, .sp .usr, .lr .usr].map p.reg ++
          (irqSaved.drop 3).map p.reg := rfl
      dsimp only
      rw [block_append _ _ 3 8, hnext, hsplit]
      congr 1
      · exact store_block.trans (by simp [h.user])
      · rw [store_block_disjoint (by simp; omega), h.frame]
    · intro i h4 h11 h8
      have h0 : i ≠ 0 := by rintro rfl; simp at h4
      have h12 : i ≠ 12 := by rintro rfl; simp at h11
      simp [h0, h8, h12, h.kept i h4 h11 h8]
    · intro a ha
      have hframe := ha.frame hroom
      unfold irqFrame at hframe
      dsimp only
      rw [store_outside (by simp; omega), h.mem a ha]

/-- Up to the call of the C handler. -/
theorem irq_save (hroom : L.Room p) :
    ∃ s, atomic ((irqHandlerAsm L.sym).drop 16) ((irqHandlerAsm L.sym).take 16) (irqEntry p) =
      some s ∧ L.Interrupted p s := by
  obtain ⟨s₁, hrun₁, hs₁⟩ := @irq_enter L p ((irqHandlerAsm L.sym).drop 6)
  obtain ⟨s₂, hrun₂, hs₂⟩ := @irq_push L p s₁ ((irqHandlerAsm L.sym).drop 11) hs₁ hroom
  obtain ⟨s₃, hrun₃, hs₃⟩ := @irq_frame L p s₂ ((irqHandlerAsm L.sym).drop 16) hs₂ hroom
  exact ⟨s₃, atomic_append hrun₁ (atomic_append hrun₂ hrun₃), hs₃⟩

theorem Quiet.sp (h : L.Quiet s s') : s'.reg (.sp .svc) = s.reg (.sp .svc) :=
  h.same (by decide)

theorem Quiet.link (h : L.Quiet s s') : s'.reg (.lr .svc) = s.reg (.lr .svc) :=
  h.same (by decide)

theorem Quiet.cpsr (h : L.Quiet s s') : s'.reg .cpsr = s.reg .cpsr :=
  h.same (by decide)

theorem Quiet.user (h : L.Quiet s s') : s'.reg (.sp .usr) = s.reg (.sp .usr) ∧
    s'.reg (.lr .usr) = s.reg (.lr .usr) :=
  ⟨h.same (by decide), h.same (by decide)⟩

theorem Quiet.general (h : L.Quiet s s') (i : Fin 13) : s'.reg (.r i) = s.reg (.r i) :=
  h.same (by simp [scratch])

/-- An interrupt is at most what a C function does. -/
theorem Quiet.abides (h : L.Quiet s s') (hmode : modeOf (s.reg .cpsr) = some .svc) :
    L.Abides (fun _ => False) s s' :=
  ⟨fun i _ _ => h.general i, h.sp, by rw [h.cpsr, hmode], fun a ha _ => h.mem a ha⟩

theorem Owned.lower {m n a : Nat} (h : L.Owned n a) (hle : m ≤ n) : L.Owned m a :=
  h.imp_left fun ⟨hsp, htop⟩ => ⟨hle.trans hsp, htop⟩

theorem Interrupted.abides (h : L.Interrupted p s) (hroom : L.Room p)
    (hc : L.Abides (fun _ => False) s s') : L.Interrupted p s' := by
  have ⟨hbot, htop⟩ := hroom
  unfold irqFrame at hbot
  have hsp : (s.reg (.sp .svc)).toNat = (p.reg (.sp .svc)).toNat - 44 := by
    rw [h.sp]
    bv_omega
  refine ⟨hc.sp.trans h.sp, hc.mode, ?_, fun i h4 h11 h8 => (hc.kept i h4 h11).trans
    (h.kept i h4 h11 h8), fun a ha => ?_⟩
  · rw [← h.frame]
    refine block_congr fun a hlo hhi => hc.mem a (Or.inl ?_) id
    omega
  · rw [hc.mem a (ha.lower (by omega)) id, h.mem a ha]

theorem UpperFrame.quiet (h : L.UpperFrame p s) (hroom : L.Room p) (hq : L.Quiet s s') :
    L.UpperFrame p s' := by
  have ⟨hbot, htop⟩ := hroom
  unfold irqFrame at hbot
  have hsp : (s.reg (.sp .svc)).toNat = (p.reg (.sp .svc)).toNat - 32 := by
    rw [h.sp]
    bv_omega
  refine ⟨hq.sp.trans h.sp, by rw [hq.cpsr, h.mode], ⟨hq.user.1.trans h.user.1, hq.user.2.trans
    h.user.2⟩, ?_, fun i h4 h11 h8 => (hq.general i).trans (h.kept i h4 h11 h8), fun a ha => ?_⟩
  · rw [← h.frame]
    refine block_congr fun a hlo hhi => hq.mem a (Or.inl ?_)
    omega
  · rw [hq.mem a (ha.lower (by omega)), h.mem a ha]

/-- The last instruction. -/
theorem irq_return (h : L.UpperFrame p s) (hspsr : s.reg .spsrSvc = p.reg .cpsr)
    (hroom : L.Room p) (hx : Exec irq call ((irqHandlerAsm L.sym).drop 20) s q) : L.Quiet p q := by
  have ⟨hbot, htop⟩ := hroom
  unfold irqFrame at hbot
  have hbase : (p.reg (.sp .svc) - 32).toNat = (p.reg (.sp .svc)).toNat - 32 := by bv_omega
  have hback : p.reg (.sp .svc) - 32 + wordsSize 8 = p.reg (.sp .svc) :=
    BitVec.sub_add_cancel _ _
  have hloaded : ∀ r ∈ irqSaved.drop 3,
      (load ((p.reg (.sp .svc)).toNat - 32) (irqSaved.drop 3) s).reg r = p.reg r := by
    rw [← List.map_inj_left, ← h.frame]
    exact load_block (by decide)
  have hrun : atomic [] ((irqHandlerAsm L.sym).drop 20) s = some
      { reg := Function.update (Function.update
          (load ((p.reg (.sp .svc)).toNat - 32) (irqSaved.drop 3) s).reg (.sp .svc)
            (p.reg (.sp .svc))) .cpsr (p.reg .cpsr)
        mem := s.mem } := by
    have hkept : (load ((p.reg (.sp .svc)).toNat - 32) (irqSaved.drop 3) s).reg .spsrSvc =
        p.reg .cpsr := (load_outside (by decide)).trans hspsr
    unfold irqSaved at hkept ⊢
    simp only [List.drop] at hkept ⊢
    simp only [atomic, irqHandlerAsm, List.drop, List.append_nil, spsrLive, or_true, if_true,
      Instr.exec, Instr.execIn, h.mode, Option.bind_some, restoreStatus, spsrOf, Option.map_some,
      Name.reg, regs, List.map_cons, List.map_nil, List.cons_append, List.nil_append,
      List.length_cons, List.length_nil, Nat.reduceAdd, setReg, h.sp, hbase, hback, load_mem,
      Function.update_apply, reduceCtorEq, if_false, hkept]
  have hend : Exec irq call [] _ q := Exec.atomic (by rwa [List.append_nil]) hrun
  cases hend
  constructor
  · intro r h1 h2 h3 h4
    by_cases hr : r ∈ irqSaved.drop 3
    · have hne : r ≠ .cpsr ∧ r ≠ .sp .svc := by
        constructor <;> rintro rfl <;> revert hr <;> decide
      simp [hne.1, hne.2, hloaded r hr]
    · cases r with
      | r i =>
        have hi : 4 ≤ i.val ∧ i.val ≤ 11 ∧ i ≠ 8 := by
          simp [irqSaved] at hr
          omega
        simp [load_outside hr, h.kept i hi.1 hi.2.1 hi.2.2]
      | sp mode =>
        cases mode with
        | usr => simp [load_outside hr, h.user]
        | svc => simp
        | irq => exact absurd rfl h3
      | lr mode =>
        cases mode with
        | usr => simp [load_outside hr, h.user]
        | svc => simp [irqSaved] at hr
        | irq => exact absurd rfl h4
      | pc => simp [irqSaved] at hr
      | cpsr => simp
      | spsrSvc => exact absurd rfl h1
      | spsrIrq => exact absurd rfl h2
  · exact h.mem

theorem Interrupted.frames (h : L.Interrupted p s) (hroom : L.Room p) :
    block s.mem ((p.reg (.sp .svc)).toNat - 44) 3 = (irqSaved.take 3).map p.reg ∧
      block s.mem ((p.reg (.sp .svc)).toNat - 32) 8 = (irqSaved.drop 3).map p.reg := by
  have hbot := hroom.bot
  unfold irqFrame at hbot
  have hnext : (p.reg (.sp .svc)).toNat - 44 + 4 * 3 = (p.reg (.sp .svc)).toNat - 32 := by omega
  have hsplit : irqSaved.map p.reg = (irqSaved.take 3).map p.reg ++ (irqSaved.drop 3).map p.reg :=
    rfl
  have hframe := h.frame
  rw [block_append _ _ 3 8, hnext, hsplit] at hframe
  exact List.append_inj hframe block_length

/-- The registers of user mode, and the status in `r0`. -/
theorem Interrupted.loadUser (h : L.Interrupted p s) (hroom : L.Room p)
    (hx : (Instr.ldmfd false true .sp [.r 0, .sp, .lr]).execIn .svc s = some s') :
    L.Interrupted p s' ∧ s'.reg (.r 0) = p.reg .cpsr ∧
      s'.reg (.sp .usr) = p.reg (.sp .usr) ∧ s'.reg (.lr .usr) = p.reg (.lr .usr) := by
  have hbot := hroom.bot
  unfold irqFrame at hbot
  have hbase : (s.reg (.sp .svc)).toNat = (p.reg (.sp .svc)).toNat - 44 := by
    rw [h.sp]
    bv_omega
  have hs' : s' = load ((p.reg (.sp .svc)).toNat - 44) [.r 0, .sp .usr, .lr .usr] s := by
    rw [← hbase]
    exact (Option.some.inj hx).symm
  have hloaded : [Reg.r 0, .sp .usr, .lr .usr].map s'.reg = (irqSaved.take 3).map p.reg := by
    rw [hs', ← (h.frames hroom).1]
    exact load_block (by decide)
  have hout {r : Reg} (hr : r ∉ [Reg.r 0, .sp .usr, .lr .usr]) : s'.reg r = s.reg r := by
    rw [hs', load_outside hr]
  have hmem : s'.mem = s.mem := by rw [hs', load_mem]
  refine ⟨⟨?_, ?_, ?_, ?_, ?_⟩, by simpa [irqSaved] using hloaded⟩
  · rw [hout (by decide), h.sp]
  · rw [hout (by decide), h.mode]
  · rw [hmem, h.frame]
  · intro i h4 h11 h8
    have h0 : i ≠ 0 := by rintro rfl; simp at h4
    rw [hout (by simpa using h0), h.kept i h4 h11 h8]
  · rw [hmem]
    exact h.mem

theorem Interrupted.pop (h : L.Interrupted p s) (hroom : L.Room p)
    (huser : s.reg (.sp .usr) = p.reg (.sp .usr) ∧ s.reg (.lr .usr) = p.reg (.lr .usr)) :
    L.UpperFrame p (setReg s (.sp .svc) (s.reg (.sp .svc) + 12)) := by
  refine ⟨?_, ?_, ?_, ?_, ?_, h.mem⟩
  · simp [setReg, h.sp]
    bv_omega
  · simpa [setReg] using h.mode
  · simpa [setReg] using huser
  · exact (h.frames hroom).2
  · intro i h4 h11 h8
    simpa [setReg] using h.kept i h4 h11 h8

theorem UpperFrame.setSpsr (h : L.UpperFrame p s) (v : BitVec 32) :
    L.UpperFrame p (setReg s .spsrSvc v) := by
  refine ⟨?_, ?_, ?_, h.frame, ?_, h.mem⟩
  · simpa [setReg] using h.sp
  · simpa [setReg] using h.mode
  · simpa [setReg] using h.user
  · intro i h4 h11 h8
    simpa [setReg] using h.kept i h4 h11 h8

/-- An interrupt comes back to where it came from, with its registers and its memory. -/
theorem irq_quiet (hroom : L.Room p)
    (hirq : ∀ p p', irq p p' → L.Quiet p p')
    (hcall : ∀ p p', call p p' → L.Abides (fun _ => False) p p')
    (hx : Exec irq call (irqHandlerAsm L.sym) (irqEntry p) q) : L.Quiet p q := by
  obtain ⟨s, hrun, h⟩ := irq_save hroom
  obtain ⟨s₁, hq₁, s₂, hc, hx⟩ := Exec.nextCall (Exec.atomic hx hrun) hirq
  replace h := (h.abides hroom (hq₁.abides h.mode)).abides hroom (hcall _ _ hc)
  obtain ⟨s₃, hq₃, s₄, he, hx⟩ := Exec.next hx hirq h.mode (by simp)
  replace h := h.abides hroom (hq₃.abides h.mode)
  obtain ⟨h, hr0, huser⟩ := h.loadUser hroom he
  obtain ⟨s₅, hq₅, s₆, he, hx⟩ := Exec.next hx hirq h.mode (by simp)
  obtain rfl := Option.some.inj he
  have hupper := (h.abides hroom (hq₅.abides h.mode)).pop hroom
    ⟨hq₅.user.1.trans huser.1, hq₅.user.2.trans huser.2⟩
  obtain ⟨s₇, hq₇, s₈, he, hx⟩ := Exec.next hx hirq hupper.mode (by simp)
  obtain rfl := Option.some.inj he
  refine irq_return ((hupper.quiet hroom hq₇).setSpsr _) ?_ hroom hx
  have h7 := hq₇.general 0
  have h5 := hq₅.general 0
  simp [setReg, Name.reg] at h7 ⊢
  rw [h7, h5, hr0]

variable {n : Nat}

/-- With room for its frame an interrupt runs to its end, if the C handler does. -/
theorem interrupts_complete (hroom : L.Room p) (htotal : ∀ p, ∃ p', call p p')
    (hcall : ∀ p p', call p p' → L.Abides (fun _ => False) p p') :
    ∃ q, L.IrqRun call (n + 1) p q := by
  obtain ⟨s, hrun, _⟩ := irq_save hroom
  obtain ⟨s₁, hc⟩ := htotal s
  have hmode := (hcall _ _ hc).mode
  -- all that is left but for the return stays in SVC mode
  have hstays : ∀ i ∈ [.ldmfd false true .sp [.r 0, .sp, .lr], .add .sp .sp 12, .msr true (.r 0)],
      Instr.stays .svc i = true := by decide
  obtain ⟨s₂, hsame, hend⟩ := Exec.stays hstays hmode
  obtain ⟨q, hq⟩ := Exec.returns (Or.inr ⟨.sp, _, rfl⟩) (by rw [hsame, hmode])
  exact ⟨q, hroom.bot, hroom.top, Exec.of_atomic hrun (.call hc (hend _ q hq))⟩

/-- Interrupts at any depth bring the code they interrupt back to where it was, with its registers
of both modes, its status, its stack and its text, if the C handler keeps to its conventions. -/
theorem interrupts_return (hcall : ∀ p p', call p p' → L.Abides (fun _ => False) p p')
    (h : L.IrqRun call n p q) : L.Quiet p q := by
  induction n generalizing p q with
  | zero => exact h.elim
  | succ n ih =>
    obtain ⟨hbot, htop, hx⟩ := h
    exact irq_quiet ⟨hbot, htop⟩ (fun _ _ hi => ih hi) hcall hx

/-- A layout with the stack from `0x1000` to `0x2000`. -/
def sampleLayout : Layout where
  sym := ⟨0x4000, 0x3000⟩
  bot := 0x1000
  top := 0x2000
  text a := 0x8000 ≤ a ∧ a < 0x9000
  text_stack := by omega
  irqStack_stack := by decide
  irqStack_text a ha := by
    show a < 0x3000 ∨ 0x3000 + 8 ≤ a
    omega

/-- Task code at `0x8000`. -/
def samplePoint : Proc where
  reg
    | .r i => BitVec.ofNat 32 i
    | .sp .svc => 0x2000
    | .sp _ => 0xa0003000
    | .lr _ => 0x8100
    | .pc => 0x8000
    | .cpsr => 0x10
    | .spsrSvc | .spsrIrq => 0
  mem _ := 0

/-- A C function that leaves interrupts enabled and keeps nothing that it need not keep. -/
def sampleHandler (p : Proc) : Proc :=
  setReg (setReg (setReg (setReg p (.r 0) 7) (.r 12) 9) (.lr .svc) 0) .cpsr 0x13

theorem sampleHandler_abides (h : p' = sampleHandler p) :
    sampleLayout.Abides (fun _ => False) p p' := by
  subst h
  have hmode : modeOf 0x13 = some .svc := by decide
  refine ⟨fun i h4 h11 => ?_, rfl, ?_, fun _ _ _ => rfl⟩
  · have h0 : i ≠ 0 := by rintro rfl; simp at h4
    have h12 : i ≠ 12 := by rintro rfl; simp at h11
    simp [sampleHandler, setReg, h0, h12]
  · rw [sampleHandler, setReg_self, hmode]

theorem interrupts_return_user :
    ∃ q, sampleLayout.IrqRun (fun p p' => p' = sampleHandler p) 1 samplePoint q ∧
      sampleLayout.Quiet samplePoint q := by
  have hdone : ∃ q, sampleLayout.IrqRun (fun p p' => p' = sampleHandler p) 1 samplePoint q :=
    interrupts_complete ⟨by decide, by decide⟩ (fun p => ⟨sampleHandler p, rfl⟩)
      (fun p p' h => sampleHandler_abides h)
  obtain ⟨q, hx⟩ := hdone
  exact ⟨q, hx, interrupts_return (fun p p' h => sampleHandler_abides h) hx⟩

end Layout

end RtosKernel.Arm
