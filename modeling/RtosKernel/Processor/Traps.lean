import RtosKernel.Processor.Interrupts

namespace RtosKernel.Arm

open BlockTransfer

/-- The registers that `S_Handler` saves above `r0`. -/
def trapSaved : List Reg := (general.drop 1).map (Name.reg .svc)

namespace Layout

/-- The bytes that a trap takes from the SVC stack. -/
def trapFrame : Nat := 68

/-- `s` is a state of the handler that the trap of `p` has entered; its frame has `v` for `r0` and
`w` for the status. -/
structure Trapped (L : Layout) (p : Proc) (v w : BitVec 32) (s : Proc) : Prop where
  sp : s.reg (.sp .svc) = p.reg (.sp .svc) - 68
  mode : modeOf (s.reg .cpsr) = some .svc
  saved : block s.mem ((p.reg (.sp .svc)).toNat - 68) 14 =
    v :: (trapSaved.map p.reg ++ [p.reg .pc + 4])
  status : s.mem ((p.reg (.sp .svc)).toNat - 12) = w
  user : block s.mem ((p.reg (.sp .svc)).toNat - 8) 2 = [p.reg (.sp .usr), p.reg (.lr .usr)]
  mem : ∀ a, L.Owned (p.reg (.sp .svc)).toNat a → s.mem a = p.mem a

/-- The stack has room for the frame of a trap. -/
structure TrapRoom (L : Layout) (p : Proc) : Prop where
  bot : L.bot + trapFrame ≤ (p.reg (.sp .svc)).toNat
  top : (p.reg (.sp .svc)).toNat ≤ L.top

variable {L : Layout} {p s s' q : Proc} {rest : List Instr} {irq call : Proc → Proc → Prop}
  {v w : BitVec 32}

theorem Owned.trapFrame {a : Nat} (ha : L.Owned (p.reg (.sp .svc)).toNat a)
    (hroom : L.TrapRoom p) :
    a < (p.reg (.sp .svc)).toNat - trapFrame ∨ (p.reg (.sp .svc)).toNat ≤ a := by
  obtain ⟨hbot, htop⟩ := hroom
  rcases ha with ⟨hsp, -⟩ | ha
  · exact Or.inr hsp
  · have htext := L.text_stack a ha
    unfold Layout.trapFrame at hbot ⊢
    omega

theorem trap_save (hroom : L.TrapRoom p) :
    ∃ s w, atomic rest ((sHandler L.sym).take 10) (swiEntry p) = some s ∧
      L.Trapped p (p.reg (.r 0)) w s ∧ s.reg (.r 2) = p.reg .cpsr ∧
      s.reg (.lr .svc) = p.reg .pc + 4 := by
  have ⟨hbot, htop⟩ := hroom
  unfold trapFrame at hbot
  have hmode := mode_enter .svc (p.reg .cpsr)
  have hmask := masks_enter .svc (p.reg .cpsr)
  have hmode' := (mode_eor (enter .svc (p.reg .cpsr))).trans hmode
  have hlen : (general ++ [Name.lr]).length = 14 := rfl
  have huser : (p.reg (.sp .svc) - wordsSize 2).toNat = (p.reg (.sp .svc)).toNat - 8 := by
    unfold wordsSize
    bv_omega
  have hsaved : (p.reg (.sp .svc) + -8 + -4 - wordsSize 14).toNat =
      (p.reg (.sp .svc)).toNat - 68 := by
    unfold wordsSize
    bv_omega
  refine ⟨?s, p.mem ((p.reg (.sp .svc)).toNat - 12), ?run, ?facts⟩
  case run =>
    simp only [atomic, sHandler, List.take, List.cons_append, List.nil_append, swiEntry, Instr.exec,
      Instr.execIn, setReg, hmode, hmask, hmode', Name.reg, spsrOf, spsrLive,
      Function.update_apply, reduceCtorEq, if_false, if_true, Option.bind_some, Option.map_some,
      Bool.false_eq_true, or_true, store_reg, Reg.r.injEq, hlen, List.length_cons,
      List.length_nil, Nat.reduceAdd, huser, hsaved]
    rfl
  case facts =>
    have hlist : regs .svc (general ++ [.lr]) = .r 0 :: (trapSaved ++ [.lr .svc]) := rfl
    have hcount : (Reg.r 0 :: (trapSaved ++ [.lr .svc])).length = 14 := rfl
    refine ⟨⟨?_, ?_, ?_, ?_, ?_, fun a ha => ?_⟩, ?_, ?_⟩
    · simp [wordsSize]
      bv_omega
    · simpa using hmode'
    · refine store_block.trans ?_
      simp [regs, trapSaved, general, List.finRange_succ, Name.reg]
    · dsimp only
      rw [hlist, store_outside (by rw [hcount]; omega)]
      dsimp only
      rw [store_outside (by omega)]
    · dsimp only
      rw [hlist, store_block_disjoint (by rw [hcount]; omega)]
      exact store_block.trans (by simp [regs, Name.reg])
    · have hframe := ha.trapFrame hroom
      unfold trapFrame at hframe
      dsimp only
      rw [hlist, store_outside (by rw [hcount]; omega)]
      dsimp only
      rw [store_outside (by simp [regs]; omega)]
    · simp
    · simp

theorem Trapped.step (h : L.Trapped p v w s) (hroom : L.TrapRoom p)
    (hsp : s'.reg (.sp .svc) = s.reg (.sp .svc)) (hmode : modeOf (s'.reg .cpsr) = some .svc)
    (hmem : ∀ a, L.Owned (s.reg (.sp .svc)).toNat a → a ≠ (s.reg (.sp .svc)).toNat →
      s'.mem a = s.mem a) :
    L.Trapped p (s'.mem (s.reg (.sp .svc)).toNat) w s' := by
  have ⟨hbot, htop⟩ := hroom
  unfold trapFrame at hbot
  have hbase : (s.reg (.sp .svc)).toNat = (p.reg (.sp .svc)).toNat - 68 := by
    rw [h.sp]
    bv_omega
  rw [hbase] at hmem ⊢
  have hword {a : Nat} (hlo : (p.reg (.sp .svc)).toNat - 68 < a)
      (hhi : a < (p.reg (.sp .svc)).toNat) : s'.mem a = s.mem a :=
    hmem a (Or.inl (by omega)) (by omega)
  refine ⟨hsp.trans h.sp, hmode, ?_, ?_, ?_, fun a ha => ?_⟩
  · have hsaved := h.saved
    rw [block] at hsaved ⊢
    rw [List.cons.injEq] at hsaved
    rw [← hsaved.2]
    congr 1
    exact block_congr fun a hlo hhi => hword (by omega) (by omega)
  · rw [hword (by omega) (by omega), h.status]
  · rw [← h.user]
    exact block_congr fun a hlo hhi => hword (by omega) (by omega)
  · have hframe := ha.trapFrame hroom
    unfold trapFrame at hframe
    rw [hmem a (ha.lower (by omega)) (by omega), h.mem a ha]

theorem Trapped.base (h : L.Trapped p v w s) (hroom : L.TrapRoom p) :
    (s.reg (.sp .svc)).toNat = (p.reg (.sp .svc)).toNat - 68 := by
  have hbot := hroom.bot
  unfold trapFrame at hbot
  rw [h.sp]
  bv_omega

theorem Trapped.first (h : L.Trapped p v w s) (hroom : L.TrapRoom p) :
    s.mem (s.reg (.sp .svc)).toNat = v := by
  rw [h.base hroom]
  exact (List.cons.inj h.saved).1

theorem Trapped.quiet (h : L.Trapped p v w s) (hroom : L.TrapRoom p) (hq : L.Quiet s s') :
    L.Trapped p v w s' := by
  have ⟨hbot, htop⟩ := hroom
  unfold trapFrame at hbot
  have hbase := h.base hroom
  have hstep := h.step hroom hq.sp (by rw [hq.cpsr, h.mode]) fun a ha _ => hq.mem a ha
  rw [hq.mem _ (Or.inl (by omega)), h.first hroom] at hstep
  exact hstep

/-- `C_SWI_Handler` has put its result into the frame. -/
theorem Trapped.abides (h : L.Trapped p v w s) (hroom : L.TrapRoom p)
    (hr1 : s.reg (.r 1) = s.reg (.sp .svc))
    (hc : L.Abides (· = (s.reg (.r 1)).toNat) s s') :
    L.Trapped p (s'.mem (s.reg (.r 1)).toNat) w s' := by
  have hmem := hc.mem
  rw [hr1] at hmem ⊢
  exact h.step hroom hc.sp hc.mode hmem

/-- An instruction on registers other than the stack pointer. -/
theorem Trapped.setReg (h : L.Trapped p v w s) {r : Reg} (x : BitVec 32) (hsp : r ≠ .sp .svc)
    (hcpsr : r ≠ .cpsr) : L.Trapped p v w (Arm.setReg s r x) := by
  refine ⟨?_, ?_, h.saved, h.status, h.user, h.mem⟩
  · simpa [Arm.setReg, hsp.symm] using h.sp
  · simpa [Arm.setReg, hcpsr.symm] using h.mode

theorem Trapped.str (h : L.Trapped p v w s) (hroom : L.TrapRoom p)
    (hx : (Instr.str (.r 2) .sp 56).execIn .svc s = some s') :
    s'.reg = s.reg ∧ L.Trapped p v (s.reg (.r 2)) s' := by
  have ⟨hbot, htop⟩ := hroom
  unfold trapFrame at hbot
  have hslot : (s.reg (.sp .svc) + 56).toNat = (p.reg (.sp .svc)).toNat - 12 := by
    rw [h.sp]
    bv_omega
  have hs' : s' =
      ⟨s.reg, Function.update s.mem ((p.reg (.sp .svc)).toNat - 12) (s.reg (.r 2))⟩ := by
    rw [← hslot]
    exact (Option.some.inj hx).symm
  subst hs'
  have hout {a : Nat} (ha : a ≠ (p.reg (.sp .svc)).toNat - 12) :
      Function.update s.mem ((p.reg (.sp .svc)).toNat - 12) (s.reg (.r 2)) a = s.mem a :=
    Function.update_of_ne ha ..
  refine ⟨rfl, h.sp, h.mode, ?_, Function.update_self .., ?_, fun a ha => ?_⟩
  · rw [← h.saved]
    exact block_congr fun a hlo hhi => hout (by omega)
  · rw [← h.user]
    exact block_congr fun a hlo hhi => hout (by omega)
  · have hframe := ha.trapFrame hroom
    unfold trapFrame at hframe
    exact (hout (by omega)).trans (h.mem a ha)

/-- Up to the call: the number of the trap, and the registers of the caller as its arguments. -/
theorem trap_call (hroom : L.TrapRoom p) (htext : L.text (p.reg .pc).toNat)
    (hirq : ∀ p p', irq p p' → L.Quiet p p')
    (hx : Exec irq call (sHandler L.sym) (swiEntry p) q) :
    ∃ b b', call b b' ∧ Exec irq call ((sHandler L.sym).drop 15) b' q ∧
      L.Trapped p (p.reg (.r 0)) (p.reg .cpsr) b ∧ b.reg (.r 1) = b.reg (.sp .svc) ∧
      b.reg (.r 0) = p.mem (p.reg .pc).toNat &&& ~~~0xff000000 := by
  obtain ⟨s, w, hrun, h, hr2, hlr⟩ := @trap_save L p ((sHandler L.sym).drop 10) hroom
  have hx := Exec.atomic hx hrun
  obtain ⟨s₁, hq₁, s₂, he, hx⟩ := Exec.next hx hirq h.mode (by simp)
  obtain ⟨hreg, h⟩ := (h.quiet hroom hq₁).str hroom he
  rw [hq₁.general, hr2] at h
  have hlr₂ : s₂.reg (.lr .svc) = p.reg .pc + 4 := by rw [hreg, hq₁.link, hlr]
  obtain ⟨s₃, hq₃, s₄, he, hx⟩ := Exec.next hx hirq h.mode (by simp)
  obtain rfl := Option.some.inj he
  replace h := (h.quiet hroom hq₃).setReg (s₃.reg (.sp .svc)) (by simp : Reg.r 1 ≠ _) (by simp)
  obtain ⟨s₅, hq₅, s₆, he, hx⟩ := Exec.next hx hirq h.mode (by simp)
  have hnumber : s₅.mem (s₅.reg (.lr .svc) + -4).toNat = p.mem (p.reg .pc).toNat := by
    have hpc : p.reg .pc + 4 + -4 = p.reg .pc := by bv_omega
    have hlr₅ : s₅.reg (.lr .svc) = p.reg .pc + 4 :=
      (hq₅.link.trans (setReg_of_ne _ _ (by decide))).trans (hq₃.link.trans hlr₂)
    rw [hlr₅, hpc]
    exact (h.quiet hroom hq₅).mem _ (Or.inr htext)
  have hr1 : s₅.reg (.r 1) = s₅.reg (.sp .svc) :=
    ((hq₅.general 1).trans (setReg_self _ _ _)).trans
      (hq₅.sp.trans (setReg_of_ne _ _ (by decide))).symm
  obtain rfl := Option.some.inj he
  replace h := (h.quiet hroom hq₅).setReg (s₅.mem (s₅.reg (.lr .svc) + -4).toNat)
    (by simp : Reg.r 0 ≠ _) (by simp)
  obtain ⟨s₇, hq₇, s₈, he, hx⟩ := Exec.next hx hirq h.mode (by simp)
  obtain rfl := Option.some.inj he
  replace h := (h.quiet hroom hq₇).setReg (s₇.reg (.r 0) &&& ~~~0xff000000)
    (by simp : Reg.r 0 ≠ _) (by simp)
  obtain ⟨b, hq, b', hc, hx⟩ := Exec.nextCall hx hirq
  refine ⟨b, b', hc, hx, h.quiet hroom hq, ?_, ?_⟩
  · have h7 : s₇.reg (.r 1) = s₇.reg (.sp .svc) :=
      ((hq₇.general 1).trans ((setReg_of_ne _ _ (by decide)).trans hr1)).trans
        (hq₇.sp.trans (setReg_of_ne _ _ (by decide))).symm
    exact ((hq.general 1).trans ((setReg_of_ne _ _ (by decide)).trans h7)).trans
      (hq.sp.trans (setReg_of_ne _ _ (by decide))).symm
  · have h7 : s₇.reg (.r 0) = p.mem (p.reg .pc).toNat :=
      ((hq₇.general 0).trans (setReg_self _ _ _)).trans hnumber
    rw [← h7]
    exact (hq.general 0).trans (setReg_self _ _ _)

/-- The registers of the caller are back; those of user mode are still on the stack. -/
structure Unstacked (L : Layout) (p : Proc) (v w : BitVec 32) (s : Proc) : Prop where
  sp : s.reg (.sp .svc) = p.reg (.sp .svc) - 8
  mode : modeOf (s.reg .cpsr) = some .svc
  spsr : s.reg .spsrSvc = w
  link : s.reg (.lr .svc) = p.reg .pc + 4
  r0 : s.reg (.r 0) = v
  kept : ∀ i : Fin 13, i ≠ 0 → s.reg (.r i) = p.reg (.r i)
  user : block s.mem ((p.reg (.sp .svc)).toNat - 8) 2 = [p.reg (.sp .usr), p.reg (.lr .usr)]
  mem : ∀ a, L.Owned (p.reg (.sp .svc)).toNat a → s.mem a = p.mem a

theorem mem_trapSaved : ∀ i : Fin 13, i ≠ 0 → Reg.r i ∈ trapSaved := by decide

/-- What `ldmfd sp!, {r0-r12, lr}` loads. -/
theorem Trapped.load (h : L.Trapped p v w s) :
    ∃ m, load ((p.reg (.sp .svc)).toNat - 68) (.r 0 :: (trapSaved ++ [.lr .svc])) s = m ∧
      m.mem = s.mem ∧ m.reg (.r 0) = v ∧ (∀ r ∈ trapSaved, m.reg r = p.reg r) ∧
      m.reg (.lr .svc) = p.reg .pc + 4 ∧ m.reg .cpsr = s.reg .cpsr ∧
      m.reg .spsrSvc = s.reg .spsrSvc := by
  refine ⟨_, rfl, load_mem, ?_⟩
  have hload := (load_block (m := s)
    (by decide : (Reg.r 0 :: (trapSaved ++ [.lr .svc])).Nodup)).trans h.saved
  rw [List.map_cons, List.map_append, List.cons.injEq] at hload
  obtain ⟨hr0, hload⟩ := hload
  obtain ⟨hsaved, hlink⟩ := List.append_inj hload (by simp)
  exact ⟨hr0, List.map_inj_left.mp hsaved, List.singleton_inj.mp hlink,
    load_outside (by decide), load_outside (by decide)⟩

theorem trap_unstack (h : L.Trapped p v w s) (hspsr : s.reg .spsrSvc = w) (hroom : L.TrapRoom p) :
    ∃ s', atomic ((sHandler L.sym).drop 19) (((sHandler L.sym).drop 17).take 2) s = some s' ∧
      L.Unstacked p v w s' := by
  have hbot := hroom.bot
  unfold trapFrame at hbot
  have hbase : (p.reg (.sp .svc) - 68).toNat = (p.reg (.sp .svc)).toNat - 68 := by bv_omega
  have hlist : regs .svc (general ++ [.lr]) = .r 0 :: (trapSaved ++ [.lr .svc]) := rfl
  have hlen : (general ++ [Name.lr]).length = 14 := rfl
  have hsp : p.reg (.sp .svc) - 68 + wordsSize 14 + 4 = p.reg (.sp .svc) - 8 := by
    unfold wordsSize
    bv_omega
  obtain ⟨m, hm, hmem, hr0, hsaved, hlink, hcpsr, hspsr'⟩ := h.load
  have hmode : modeOf (m.reg .cpsr) = some .svc := by rw [hcpsr, h.mode]
  refine ⟨?s, ?run, ?facts⟩
  case run =>
    simp only [atomic, sHandler, List.take, List.drop, List.cons_append, List.nil_append,
      Instr.exec, Instr.execIn, Arm.setReg, h.mode, Name.reg, spsrLive, Function.update_apply,
      reduceCtorEq, if_false, if_true, Option.bind_some, or_true, hlist, hlen, h.sp, hbase, hsp,
      hm, hmode]
    rfl
  case facts =>
    refine ⟨?_, ?_, ?_, ?_, ?_, ?_, ?_, ?_⟩
    · simp
    · simpa using hmode
    · simp [hspsr', hspsr]
    · simp [hlink]
    · simp [hr0]
    · intro i hi
      simp [hsaved _ (mem_trapSaved i hi)]
    · dsimp only
      rw [hmem, h.user]
    · dsimp only
      rw [hmem]
      exact h.mem

/-- The state that a trap leaves behind: everything but `r0` is as it was, behind the `swi`. -/
structure Returned (L : Layout) (p : Proc) (v : BitVec 32) (q : Proc) : Prop where
  pc : q.reg .pc = p.reg .pc + 4
  cpsr : q.reg .cpsr = p.reg .cpsr
  r0 : q.reg (.r 0) = v
  kept : ∀ i : Fin 13, i ≠ 0 → q.reg (.r i) = p.reg (.r i)
  user : q.reg (.sp .usr) = p.reg (.sp .usr) ∧ q.reg (.lr .usr) = p.reg (.lr .usr)
  sp : q.reg (.sp .svc) = p.reg (.sp .svc)
  mem : ∀ a, L.Owned (p.reg (.sp .svc)).toNat a → q.mem a = p.mem a

theorem trap_return (h : L.Unstacked p v (p.reg .cpsr) s) (hroom : L.TrapRoom p)
    (hx : Exec irq call ((sHandler L.sym).drop 19) s q) : L.Returned p v q := by
  have hbot := hroom.bot
  unfold trapFrame at hbot
  have hbase : (p.reg (.sp .svc) - 8).toNat = (p.reg (.sp .svc)).toNat - 8 := by bv_omega
  have hsp : p.reg (.sp .svc) - 8 + 8 = p.reg (.sp .svc) := BitVec.sub_add_cancel _ _
  obtain ⟨m, hm⟩ :
      ∃ m, load ((p.reg (.sp .svc)).toNat - 8) [Reg.sp .usr, .lr .usr] s = m := ⟨_, rfl⟩
  have huser : m.reg (.sp .usr) = p.reg (.sp .usr) ∧ m.reg (.lr .usr) = p.reg (.lr .usr) := by
    have hload := (load_block (m := s) (by decide : [Reg.sp .usr, .lr .usr].Nodup)).trans h.user
    rw [hm] at hload
    simpa using hload
  have hout {r : Reg} (hr : r ∉ [Reg.sp .usr, .lr .usr]) : m.reg r = s.reg r := by
    rw [← hm, load_outside hr]
  have hmem : m.mem = s.mem := by rw [← hm, load_mem]
  have hrun : atomic [] ((sHandler L.sym).drop 19) s = some
      ⟨Function.update (Function.update (Function.update m.reg (.sp .svc) (p.reg (.sp .svc)))
        .pc (p.reg .pc + 4)) .cpsr (p.reg .cpsr), m.mem⟩ := by
    have hmode : modeOf (m.reg .cpsr) = some .svc := by rw [hout (by decide), h.mode]
    have hspm : m.reg (.sp .svc) = p.reg (.sp .svc) - 8 := by rw [hout (by decide), h.sp]
    have hlr : m.reg (.lr .svc) = p.reg .pc + 4 := by rw [hout (by decide), h.link]
    have hspsr : m.reg .spsrSvc = p.reg .cpsr := by rw [hout (by decide), h.spsr]
    simp only [atomic, sHandler, List.drop, List.append_nil, Instr.exec, Instr.execIn, Arm.setReg,
      h.mode, Name.reg, spsrLive, Function.update_apply, regs, List.map_cons, List.map_nil,
      reduceCtorEq, if_false, if_true, Option.bind_some, or_true, h.sp, hbase, hsp, hm, hmode,
      hspm, hlr, hspsr, restoreStatus, spsrOf, Option.map_some, Bool.false_eq_true]
  have hend : Exec irq call [] _ q := Exec.atomic (by rwa [List.append_nil]) hrun
  cases hend
  refine ⟨by simp, by simp, ?_, ?_, ?_, by simp, ?_⟩
  · simp [hout, h.r0]
  · intro i hi
    simp [hout, h.kept i hi]
  · simpa using huser
  · dsimp only
    rw [hmem]
    exact h.mem

/-- From the return of `C_SWI_Handler` on. -/
theorem trap_finish (h : L.Trapped p v (p.reg .cpsr) s) (hroom : L.TrapRoom p)
    (hirq : ∀ p p', irq p p' → L.Quiet p p')
    (hx : Exec irq call ((sHandler L.sym).drop 15) s q) : L.Returned p v q := by
  have hbot := hroom.bot
  unfold trapFrame at hbot
  obtain ⟨s₁, hq₁, s₂, he, hx⟩ := Exec.next hx hirq h.mode (by simp)
  replace h := h.quiet hroom hq₁
  have hslot : s₁.mem (s₁.reg (.sp .svc) + 56).toNat = p.reg .cpsr := by
    have hat : (s₁.reg (.sp .svc) + 56).toNat = (p.reg (.sp .svc)).toNat - 12 := by
      rw [h.sp]
      bv_omega
    rw [hat, h.status]
  obtain rfl := Option.some.inj he
  replace h := h.setReg (s₁.mem (s₁.reg (.sp .svc) + 56).toNat) (by simp : Reg.r 2 ≠ _) (by simp)
  obtain ⟨s₃, hq₃, s₄, he, hx⟩ := Exec.next hx hirq h.mode (by simp)
  have hr2 : s₃.reg (.r 2) = p.reg .cpsr :=
    ((hq₃.general 2).trans (setReg_self _ _ _)).trans hslot
  obtain rfl := Option.some.inj he
  replace h := (h.quiet hroom hq₃).setReg (s₃.reg (.r 2)) (by simp : Reg.spsrSvc ≠ _) (by simp)
  obtain ⟨s₅, hrun, hs₅⟩ := trap_unstack h ((setReg_self _ _ _).trans hr2) hroom
  exact trap_return hs₅ hroom (Exec.atomic hx hrun)

variable {irqCall swiCall : Proc → Proc → Prop} {n : Nat}

/-- With room for its frame a trap runs to its end, if `C_SWI_Handler` does. -/
theorem trap_completes {out : Proc → Nat → Prop} (hroom : L.TrapRoom p)
    (htotal : ∀ p, ∃ p', call p p') (hcall : ∀ p p', call p p' → L.Abides (out p) p p') :
    ∃ q, Exec irq call (sHandler L.sym) (swiEntry p) q := by
  obtain ⟨s, w, hrun, h, -, -⟩ := @trap_save L p ((sHandler L.sym).drop 10) hroom
  have hbefore : ∀ i ∈ [.str (.r 2) .sp 56, .mov (.r 1) .sp, .ldr (.r 0) .lr (-4),
      .bic (.r 0) (.r 0) 0xff000000], Instr.stays .svc i = true := by decide
  obtain ⟨s₁, -, harg⟩ := Exec.stays hbefore h.mode
  obtain ⟨s₂, hc⟩ := htotal s₁
  have hmode := (hcall _ _ hc).mode
  have hafter : ∀ i ∈ [.ldr (.r 2) .sp 56, .msr true (.r 2),
      .ldmfd true false .sp (general ++ [.lr]), .add .sp .sp 4,
      .ldmfd false true .sp [.sp, .lr], .add .sp .sp 8], Instr.stays .svc i = true := by decide
  obtain ⟨s₃, hsame, hend⟩ := Exec.stays hafter hmode
  obtain ⟨q, hq⟩ := Exec.returns (Or.inl rfl) (by rw [hsame, hmode])
  exact ⟨q, Exec.of_atomic hrun (harg _ q (.call hc (hend _ q hq)))⟩

/-- A `swi` calls `C_SWI_Handler` once, with its number and the registers of the caller, and comes
back behind the `swi` with every register as it was but for `r0`, which has the word that the
handler left in its place; interrupts may come at any point and depth. -/
theorem trap_returns (hroom : L.TrapRoom p) (htext : L.text (p.reg .pc).toNat)
    (hirq : ∀ p p', irqCall p p' → L.Abides (fun _ => False) p p')
    (hswi : ∀ p p', swiCall p p' → L.Abides (· = (p.reg (.r 1)).toNat) p p')
    (hx : Exec (L.IrqRun irqCall n) swiCall (sHandler L.sym) (swiEntry p) q) :
    ∃ b b', swiCall b b' ∧ b.reg (.r 0) = p.mem (p.reg .pc).toNat &&& ~~~0xff000000 ∧
      block b.mem (b.reg (.r 1)).toNat 13 = (regs .svc general).map p.reg ∧
      L.Returned p (b'.mem (b.reg (.r 1)).toNat) q := by
  have hquiet (p p' : Proc) (h : L.IrqRun irqCall n p p') : L.Quiet p p' :=
    interrupts_return hirq h
  obtain ⟨b, b', hc, hx, h, hr1, hr0⟩ := trap_call hroom htext hquiet hx
  refine ⟨b, b', hc, hr0, ?_, trap_finish (h.abides hroom hr1 (hswi _ _ hc)) hroom hquiet hx⟩
  have hsplit : p.reg (.r 0) :: (trapSaved.map p.reg ++ [p.reg .pc + 4]) =
      (regs .svc general).map p.reg ++ [p.reg .pc + 4] := rfl
  have hsaved := h.saved
  rw [block_append _ _ 13 1, hsplit] at hsaved
  rw [hr1, h.base hroom]
  exact (List.append_inj hsaved block_length).1

/-- Task code at `0x8000` that makes a trap. -/
def sampleTrap : Proc :=
  { reg := samplePoint.reg, mem := fun a => if a = 0x8000 then 0xef900010 else 0 }

/-- Writes 5 for `r0`, and keeps nothing that it need not keep. -/
def sampleSwi (p : Proc) : Proc :=
  { reg := (sampleHandler p).reg, mem := Function.update p.mem (p.reg (.r 1)).toNat 5 }

/-- `mutex_lock(0)` in user mode, which the kernel answers with 5. -/
theorem trap_returns_five : ∃ q : Proc, q.reg (.r 0) = 5 ∧ q.reg .pc = 0x8004 ∧ q.reg .cpsr = 0x10 ∧
    ∀ i : Fin 13, i ≠ 0 → q.reg (.r i) = BitVec.ofNat 32 i := by
  have hswi (p p' : Proc) (h : p' = sampleSwi p) :
      sampleLayout.Abides (· = (p.reg (.r 1)).toNat) p p' := by
    have hkept := sampleHandler_abides (rfl : sampleHandler p = sampleHandler p)
    subst h
    exact ⟨hkept.kept, hkept.sp, hkept.mode, fun a _ ha => Function.update_of_ne ha ..⟩
  have htext : sampleLayout.text (sampleTrap.reg .pc).toNat := by
    show 0x8000 ≤ 0x8000 ∧ 0x8000 < 0x9000
    omega
  have hroom : sampleLayout.TrapRoom sampleTrap := ⟨by decide, by decide⟩
  have hdone : ∃ q, Exec (sampleLayout.IrqRun (fun p p' => p' = sampleHandler p) 1)
      (fun p p' => p' = sampleSwi p) (sHandler sampleLayout.sym) (swiEntry sampleTrap) q :=
    trap_completes hroom (fun p => ⟨sampleSwi p, rfl⟩) hswi
  obtain ⟨q, hx⟩ := hdone
  obtain ⟨b, b', hb, -, -, hr⟩ := trap_returns hroom htext
    (fun p p' h => sampleHandler_abides h) hswi hx
  have hfive : b'.mem (b.reg (.r 1)).toNat = 5 := by
    rw [hb]
    exact Function.update_self ..
  exact ⟨q, hr.r0.trans hfive, hr.pc, hr.cpsr, hr.kept⟩

end Layout

end RtosKernel.Arm
