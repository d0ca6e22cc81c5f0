import RtosKernel.Processor.Interrupts
import RtosKernel.Processor.SwitchBanks
import RtosKernel.Scheduling.FirstDispatch

namespace RtosKernel.Arm

open BlockTransfer

def launchTask : List Instr := [
  .mov .sp (.r 7),          -- mov sp, r7
  .mov (.r 0) (.r 5),       -- mov r0, r5
  .movImm (.r 1) 0,         -- mov r1, #0
  .movImm (.r 2) 0,         -- mov r2, #0
  .movImm (.r 3) 0,         -- mov r3, #0
  .movImm (.r 5) 0,         -- mov r5, #0
  .movImm (.r 8) 0,         -- mov r8, #0
  .movImm (.r 12) 0,        -- mov ip, #0
  .msrCpsrC 0x10,           -- msr cpsr_c, #(PSR_MODE_USR)
  .mov .sp (.r 6),          -- mov sp, r6
  .movImm (.r 6) 0,         -- mov r6, #0
  .ldrLit .lr 0xdeadbeef,   -- ldr lr, =0xdeadbeef
  .movPc (.r 4)]            -- mov pc, r4

namespace Layout

variable {L : Layout} {p q s s' m : Proc} {irq call : Proc → Proc → Prop} {rest : List Instr}
  {mode : Mode} {r d : Reg} {v : BitVec 32}

section Launch

/-- `launch_task` behind `msr cpsr_c`, in user mode. -/
structure Lowered (p s : Proc) : Prop where
  mode : modeOf (s.reg .cpsr) = some .usr
  unmasked : masksIrq (s.reg .cpsr) = false
  entry : s.reg (.r 4) = p.reg (.r 4)
  arg : s.reg (.r 0) = p.reg (.r 5)
  stack : s.reg (.r 6) = p.reg (.r 6)
  kstack : s.reg (.sp .svc) = p.reg (.r 7)
  cleared : ∀ i ∈ ([1, 2, 3, 5, 8, 12] : List (Fin 13)), s.reg (.r i) = 0

theorem launch_lower (hmode : modeOf (p.reg .cpsr) = some .svc)
    (hmask : masksIrq (p.reg .cpsr) = true) :
    ∃ s, atomic rest (launchTask.take 9) p = some s ∧ Lowered p s := by
  obtain ⟨hmode', hmask'⟩ := usr_status (p.reg .cpsr)
  refine ⟨?s, ?run, ?facts⟩
  case run =>
    simp only [atomic, launchTask, List.take, Instr.exec, Instr.execIn, setReg, hmode, hmask,
      Name.reg, Function.update_apply, reduceCtorEq, if_false, if_true, Option.bind_some, true_or]
    rfl
  case facts =>
    refine ⟨?_, ?_, ?_, ?_, ?_, ?_, ?_⟩
    · simpa using hmode'
    · simpa using hmask'
    · simp
    · simp
    · simp
    · simp
    · simp

/-- A task at its entry point. -/
structure Started (p q : Proc) : Prop where
  pc : q.reg .pc = p.reg (.r 4)
  mode : modeOf (q.reg .cpsr) = some .usr
  unmasked : masksIrq (q.reg .cpsr) = false
  arg : q.reg (.r 0) = p.reg (.r 5)
  stack : q.reg (.sp .usr) = p.reg (.r 6)
  link : q.reg (.lr .usr) = 0xdeadbeef
  kstack : q.reg (.sp .svc) = p.reg (.r 7)
  cleared : ∀ i ∈ ([1, 2, 3, 5, 6, 8, 12] : List (Fin 13)), q.reg (.r i) = 0

/-- An instruction that sets `d`, and the interrupts before it. -/
theorem sets {i : Instr} {code : List Instr} (f : Proc → BitVec 32)
    (hx : Exec irq call (i :: code) s q) (hirq : ∀ p p', irq p p' → L.Quiet p p')
    (hmode : modeOf (s.reg .cpsr) = some mode) (hi : i ≠ .bl)
    (hset : ∀ s', i.execIn mode s' = some (setReg s' d (f s'))) (hd : Reg.cpsr ≠ d) :
    ∃ s₁ s₂, L.Quiet s s₁ ∧ s₂.reg d = f s₁ ∧ (∀ r, r ≠ d → r ∉ scratch → s₂.reg r = s.reg r) ∧
      modeOf (s₂.reg .cpsr) = some mode ∧ Exec irq call code s₂ q := by
  obtain ⟨s₁, hq, s₂, he, hx⟩ := Exec.next hx hirq hmode hi
  rw [hset] at he
  obtain rfl := Option.some.inj he
  have hother (r : Reg) (hr : r ≠ d) (hs : r ∉ scratch) :
      (setReg s₁ d (f s₁)).reg r = s.reg r := by
    rw [setReg_of_ne _ _ hr, hq.same hs]
  refine ⟨s₁, _, hq, setReg_self _ _ _, hother, ?_, hx⟩
  rw [hother _ hd (by decide), hmode]

theorem launch_finish (h : Lowered p s) (hirq : ∀ p p', irq p p' → L.Quiet p p')
    (hx : Exec irq call (launchTask.drop 9) s q) : Started p q := by
  obtain ⟨a, s₁, hqa, hstack, hkeep₁, hmode, hx⟩ :=
    sets (fun s => s.reg (.r 6)) hx hirq h.mode (by simp) (fun _ => rfl) (by decide)
  obtain ⟨b, s₂, -, hr6, hkeep₂, hmode, hx⟩ :=
    sets (fun _ => 0) hx hirq hmode (by simp) (fun _ => rfl) (by decide)
  obtain ⟨c, s₃, -, hlink, hkeep₃, hmode, hx⟩ :=
    sets (fun _ => 0xdeadbeef) hx hirq hmode (by simp) (fun _ => rfl) (by decide)
  obtain ⟨e, s₄, hqe, hpc, hkeep₄, hmode, hx⟩ :=
    sets (fun s => s.reg (.r 4)) hx hirq hmode (by simp) (fun _ => rfl) (by decide)
  cases hx
  -- what none of the four instructions sets
  have hall (r : Reg) (h1 : r ≠ .sp .usr) (h2 : r ≠ .r 6) (h3 : r ≠ .lr .usr) (h4 : r ≠ .pc)
      (hr : r ∉ scratch) : q.reg r = s.reg r := by
    rw [hkeep₄ r h4 hr, hkeep₃ r h3 hr, hkeep₂ r h2 hr, hkeep₁ r h1 hr]
  have hsix : q.reg (.r 6) = 0 := by
    rw [hkeep₄ _ (by decide) (by decide), hkeep₃ _ (by decide) (by decide)]
    exact hr6
  constructor
  · calc
      q.reg .pc = e.reg (.r 4) := hpc
      _ = s₃.reg (.r 4) := hqe.same (by decide)
      _ = s.reg (.r 4) := by
        rw [hkeep₃ _ (by decide) (by decide), hkeep₂ _ (by decide) (by decide),
          hkeep₁ _ (by decide) (by decide)]
      _ = p.reg (.r 4) := h.entry
  · exact hmode
  · rw [hall .cpsr (by decide) (by decide) (by decide) (by decide) (by decide)]
    exact h.unmasked
  · rw [hall (.r 0) (by decide) (by decide) (by decide) (by decide) (by decide)]
    exact h.arg
  · rw [hkeep₄ _ (by decide) (by decide), hkeep₃ _ (by decide) (by decide),
      hkeep₂ _ (by decide) (by decide)]
    exact hstack.trans ((hqa.same (by decide)).trans h.stack)
  · rw [hkeep₄ _ (by decide) (by decide)]
    exact hlink
  · rw [hall (.sp .svc) (by decide) (by decide) (by decide) (by decide) (by decide)]
    exact h.kstack
  · intro i hi
    by_cases h6 : i = 6
    · rw [h6, hsix]
    · rw [hall (.r i) (by simp) (by simp [h6]) (by simp) (by simp) (by simp [scratch])]
      apply h.cleared
      simp only [List.mem_cons, List.not_mem_nil, or_false] at hi ⊢
      tauto

/-- `launch_task` with interrupts masked until it is in user mode. -/
theorem launch_starts (hmode : modeOf (p.reg .cpsr) = some .svc)
    (hmask : masksIrq (p.reg .cpsr) = true) (hirq : ∀ p p', irq p p' → L.Quiet p p')
    (hx : Exec irq call launchTask p q) : Started p q := by
  have hsplit : launchTask = launchTask.take 9 ++ launchTask.drop 9 := rfl
  rw [hsplit] at hx
  obtain ⟨s, hrun, hs⟩ := launch_lower hmode hmask
  exact launch_finish hs hirq (Exec.atomic hx hrun)

/-- In SVC mode and with interrupts masked `launch_task` runs to its end. -/
theorem launch_completes (hmode : modeOf (p.reg .cpsr) = some .svc)
    (hmask : masksIrq (p.reg .cpsr) = true) : ∃ q, Exec irq call launchTask p q := by
  obtain ⟨s, hrun, hs⟩ := @launch_lower p (launchTask.drop 9) hmode hmask
  have hstays : ∀ i ∈ launchTask.drop 9, i.stays .usr = true := by decide
  obtain ⟨q, -, hq⟩ := Exec.stays hstays hs.mode
  exact ⟨q, Exec.of_atomic hrun (hq [] q .done)⟩

end Launch

/-- Entry point, argument and stack pointer of a task. -/
structure Root where
  entry : Word
  data : Word
  stack : Word

/-- What the descriptors say of a task; the idle task is the kernel's own. -/
def rootOf (tasks : Nat → Task) (t : TcbPtr) : Root :=
  if t = idleTcb then ⟨.idle, .val 0, .idleStack⟩
  else ⟨.val (tasks (t.val - 1)).lambda, .val (tasks (t.val - 1)).data,
    .val (tasks (t.val - 1)).stackPos⟩

/-- The processor is about to run the root function of `t` for the first time. -/
structure Enters (w : Word → BitVec 32) (root : Root) (t : TcbPtr) (q : Proc) : Prop where
  pc : q.reg .pc = w root.entry
  mode : modeOf (q.reg .cpsr) = some .usr
  unmasked : masksIrq (q.reg .cpsr) = false
  arg : q.reg (.r 0) = w root.data
  stack : q.reg (.sp .usr) = w root.stack
  link : q.reg (.lr .usr) = 0xdeadbeef
  kstack : q.reg (.sp .svc) = w (.kstackHigh t.val)
  cleared : ∀ i ∈ ([1, 2, 3, 5, 6, 8, 12] : List (Fin 13)), q.reg (.r i) = 0

variable {w : Word → BitVec 32} {base n k : Nat} {t : TcbPtr} {c : SchedContext}
  {tasks : Nat → Task} {regs : SchedContext} {s₀ s₁ : KState}

/-- What `allocate_tasks` puts into a context is for `launch_task`. -/
theorem allocated_root (tasks : Nat → Task) (s : KState) (ht : IsTask n t) :
    (s.allocated tasks n t).r4 = (rootOf tasks t).entry ∧
      (s.allocated tasks n t).r5 = (rootOf tasks t).data ∧
      (s.allocated tasks n t).r6 = (rootOf tasks t).stack ∧
      (s.allocated tasks n t).r7 = .kstackHigh t.val ∧
      (s.allocated tasks n t).lr = .launchTask := by
  have hpos := ht.pos
  have hval : t.val - 1 + 1 = t.val := by omega
  unfold KState.allocated KState.initTcb rootOf
  split_ifs with hidle
  · subst hidle
    exact ⟨rfl, rfl, rfl, rfl, rfl⟩
  · refine ⟨rfl, rfl, rfl, ?_, rfl⟩
    show Word.kstackHigh (t.val - 1 + 1) = _
    rw [hval]

/-- `launch_task` runs on the loaded context. -/
theorem launch_enters {root : Root} (hregs : contextRegs.map m.reg = c.words.map w)
    (hroot : c.r4 = root.entry ∧ c.r5 = root.data ∧ c.r6 = root.stack ∧
      c.r7 = .kstackHigh t.val ∧ c.lr = .launchTask) (hs : Started m q) :
    m.reg (.lr .svc) = w .launchTask ∧ Enters w root t q := by
  obtain ⟨h4, h5, h6, h7, hlr⟩ := hroot
  simp only [contextRegs, Arm.regs, switched, SchedContext.words, Name.reg, List.map_cons,
    List.map_nil, List.cons.injEq, h4, h5, h6, h7, hlr] at hregs
  obtain ⟨r4, r5, r6, r7, -, -, -, -, -, rlr, -⟩ := hregs
  refine ⟨rlr, ?_⟩
  exact {
    pc := hs.pc.trans r4
    mode := hs.mode
    unmasked := hs.unmasked
    arg := hs.arg.trans r5
    stack := hs.stack.trans r6
    link := hs.link
    kstack := hs.kstack.trans r7
    cleared := hs.cleared }

/-- Whenever a task is dispatched for the first time, in any run of its set and whatever state that
was created in, the switch and `launch_task` bring it to its root function: in user mode, with
interrupts on, its argument in `r0`, its stack pointer and an empty kernel stack, however often
`launch_task` is interrupted. -/
theorem task_starts (hc : KState.Creates tasks n regs s₀ s₁) {s : KState}
    (hrun : Relation.ReflTransGen (KState.Step KState.sameSet) s₁ s) (ht : IsTask n t)
    (hfresh : s.frames t = .launch)
    (hsaved : block p.mem (ctxAddr base t) 10 = (s.contexts t).words.map w)
    (hmode : modeOf (p.reg .cpsr) = some .svc) (hmask : masksIrq (p.reg .cpsr) = true)
    (h0 : (p.reg (.r 0)).toNat = ctxAddr base t)
    (hcall : ∀ p p', call p p' → L.Abides (fun _ => False) p p')
    (hswitch : Exec (L.IrqRun call k) call ctxSwitchHalf p m ∨ ∃ last, s.frames last ≠ .launch ∧
      (p.reg (.r 1)).toNat = ctxAddr base last ∧ Exec (L.IrqRun call k) call ctxSwitchFull p m)
    (hx : Exec (L.IrqRun call k) call launchTask m q) :
    m.reg .pc = w .launchTask ∧ ∃ mem, taskAdmit n ⟨tasks, [], []⟩ = .ok (mem, none) ∧
      Enters w (rootOf mem.slot t) t q := by
  obtain ⟨mem, hadm, hun⟩ := KState.unstarted_run hc hrun
  have hother (last : TcbPtr) (h : s.frames last ≠ .launch) : last ≠ t := by
    intro he
    rw [he] at h
    exact h hfresh
  obtain ⟨hregs, hpc, hcpsr⟩ := switch_loads hmode hmask h0
    (hswitch.imp_right fun ⟨last, hl, hr⟩ => ⟨last, hother last hl, hr⟩)
  rw [hsaved, hun t ht hfresh] at hregs
  have hstart : Started m q := by
    apply launch_starts _ _ (fun p p' h => interrupts_return hcall h) hx
    · rw [hcpsr, hmode]
    · rw [hcpsr, hmask]
  obtain ⟨hlr, henters⟩ := launch_enters hregs (allocated_root mem.slot s₀ ht) hstart
  exact ⟨hpc.trans hlr, mem, hadm, henters⟩

/-- Values for the addresses that the linker chooses. -/
def sampleWord : Word → BitVec 32
  | .val v => BitVec.ofNat 32 v
  | .kstackHigh _ => 0x2000
  | .launchTask => 0x8100
  | .idle => 0x8200
  | .idleStack => 0x5000
  | .globalData => 0x4000

open KState (boot zeroContext sampleTasks createSet createSet_creates)

/-- The kernel calls `ctx_switch_half` for `t`, with `system_tcb` at `0x10000`. -/
def sampleSwitch (t : TcbPtr) : Proc where
  reg
    | .r _ => BitVec.ofNat 32 (ctxAddr 0x10000 t)
    | .cpsr => 0x93
    | _ => 0x1f00
  mem a := (((KState.allocated sampleTasks 2 boot t).words.map sampleWord).getD
    ((a - ctxAddr 0x10000 t) / 4) 0)

theorem task_starts_first : ∃ q : Proc, q.reg .pc = 0xa0000000 ∧ q.reg (.r 0) = 0 ∧
    q.reg (.sp .usr) = 0xa1000000 ∧ modeOf (q.reg .cpsr) = some .usr := by
  have hset : (createSet zeroContext sampleTasks 2 boot).map (fun s => (s.contexts 1, s.frames 1)) =
      some (KState.allocated sampleTasks 2 boot 1, .launch) := by decide +kernel
  obtain ⟨s, hs, hv⟩ := Option.map_eq_some_iff.mp hset
  obtain ⟨hctx, hfresh⟩ := Prod.mk.inj hv
  have hmode : modeOf ((sampleSwitch 1).reg .cpsr) = some .svc := by decide
  have hmask : masksIrq ((sampleSwitch 1).reg .cpsr) = true := by decide
  have h0 : ((sampleSwitch 1).reg (.r 0)).toNat = ctxAddr 0x10000 1 := by decide
  have hswitch : ∃ m, Exec (sampleLayout.IrqRun (fun p p' => p' = sampleHandler p) 0)
      (fun p p' => p' = sampleHandler p) ctxSwitchHalf (sampleSwitch 1) m :=
    (switch_completes hmode).1
  obtain ⟨m, hm⟩ := hswitch
  have hcpsr : m.reg .cpsr = (sampleSwitch 1).reg .cpsr :=
    (switch_loads hmode hmask h0 (Or.inl hm)).2.2
  have hlaunch : ∃ q, Exec (sampleLayout.IrqRun (fun p p' => p' = sampleHandler p) 0)
      (fun p p' => p' = sampleHandler p) launchTask m q :=
    launch_completes (by rw [hcpsr, hmode]) (by rw [hcpsr, hmask])
  obtain ⟨q, hq⟩ := hlaunch
  have hsaved : block (sampleSwitch 1).mem (ctxAddr 0x10000 1) 10 =
      (s.contexts 1).words.map sampleWord := by
    rw [hctx]
    decide +kernel
  obtain ⟨-, mem, hmem, he⟩ := task_starts (L := sampleLayout) (k := 0) (w := sampleWord)
    (createSet_creates hs) .refl (Or.inl (by decide)) hfresh hsaved hmode hmask h0
    (fun p p' h => sampleHandler_abides h) (Or.inl hm) hq
  have hfirst : (taskAdmit 2 ⟨sampleTasks, [], []⟩).toOption.map (fun r => r.1.slot 0) =
      some (sampleTasks 0) := by decide +kernel
  rw [hmem] at hfirst
  have hslot : mem.slot 0 = sampleTasks 0 := Option.some.inj hfirst
  have hroot : rootOf mem.slot 1 = ⟨.val 0xa0000000, .val 0, .val 0xa1000000⟩ := by
    have hone : (1 : TcbPtr) ≠ idleTcb := by decide
    rw [rootOf, if_neg hone]
    show Root.mk (.val (mem.slot 0).lambda) (.val (mem.slot 0).data)
      (.val (mem.slot 0).stackPos) = _
    rw [hslot]
    rfl
  rw [hroot] at he
  exact ⟨q, he.pc, he.arg, he.stack, he.mode⟩

end Layout

end RtosKernel.Arm
