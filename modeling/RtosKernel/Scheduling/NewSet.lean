import RtosKernel.Kernel.Entry
import Mathlib.Tactic.SplitIfs

namespace RtosKernel

/-- The TCBs of a set of `n` tasks: those of the created tasks, and idle. -/
def IsTask (n : Nat) (t : TcbPtr) : Prop := (0 < t.val ∧ t.val ≤ n) ∨ t = idleTcb

instance (n : Nat) (t : TcbPtr) : Decidable (IsTask n t) := by unfold IsTask; infer_instance

theorem isTask_idle (n : Nat) : IsTask n idleTcb := Or.inr rfl

/-- The first set is the whole set. -/
theorem false_or_isTask (n : Nat) : (fun t => False ∨ IsTask n t) = IsTask n := by
  funext t
  exact propext (or_iff_right id)

theorem IsTask.pos {n : Nat} {t : TcbPtr} (h : IsTask n t) : 0 < t.val := by
  rcases h with h | rfl
  · exact h.1
  · decide

namespace KState

/-- The state after a set of TCBs `new` has been initialised by `init` on top of `s₀`. -/
structure Installed (new : TcbPtr → Prop) [DecidablePred new] (init : TcbPtr → Tcb → Tcb)
    (s₀ s : KState) : Prop where
  wf : s.rq.Wf
  slot : ∀ p t, s.rq.runList p = some t ↔ t.val = p ∧ new t
  tcb : ∀ t, s.systemTcb t = if new t then init t (s₀.systemTcb t) else s₀.systemTcb t
  frame : ∀ t, s.frames t = if new t then .launch else s₀.frames t
  mutex : s.gtMutex = s₀.gtMutex
  dev : s.devices = s₀.devices
  cur : s.curTcb = s₀.curTcb
  regs : s.regs = s₀.regs
  time : s.systemTime = s₀.systemTime ∧ s.timeDrift = s₀.timeDrift
  log : ∃ l, s.log = l ++ s₀.log ∧ ∀ e ∈ l, ∃ t p, e = .runqueueAdd t p none

variable {new new' : TcbPtr → Prop} [DecidablePred new] [DecidablePred new']
  {init init' : TcbPtr → Tcb → Tcb} {s₀ s : KState}

/-- Initialising one more TCB, whose slot is still empty. -/
theorem Installed.install (h : Installed new init s₀ s) {t : TcbPtr} (ht : ¬ new t)
    (hnew : ∀ u, new' u ↔ new u ∨ u = t) (hinit : ∀ u, new u → init' u = init u) :
    Installed new' init' s₀ (s.install t t.val (init' t)) := by
  have hempty : s.rq.runList t.val = none := by
    cases hr : s.rq.runList t.val with
    | none => rfl
    | some u =>
      obtain ⟨hu, hn⟩ := (h.slot _ _).mp hr
      rw [Fin.ext hu] at hn
      exact absurd hn ht
  have hlist : (s.install t t.val (init' t)).rq.runList =
      Function.update s.rq.runList t.val (some t) := by
    change (s.rq.runqueueAdd t t.val).runList = _
    simp [hempty]
  refine
    { wf := h.wf.add t t.val t.isLt, slot := ?_, tcb := ?_, frame := ?_, mutex := h.mutex
      dev := h.dev, cur := h.cur, regs := h.regs, time := h.time, log := ?_ }
  · intro p u
    rw [hlist]
    by_cases hp : p = t.val
    · subst hp
      rw [Function.update_self, hnew]
      constructor
      · intro hu
        cases hu
        exact ⟨rfl, Or.inr rfl⟩
      · rintro ⟨hv, _⟩
        rw [Fin.ext hv]
    · rw [Function.update_of_ne hp, h.slot, hnew]
      constructor
      · rintro ⟨hv, hn⟩
        exact ⟨hv, Or.inl hn⟩
      · rintro ⟨hv, hn | rfl⟩
        · exact ⟨hv, hn⟩
        · exact absurd hv.symm hp
  · intro u
    change Function.update s.systemTcb t (init' t (s.systemTcb t)) u = _
    by_cases hu : u = t
    · subst hu
      rw [Function.update_self, if_pos ((hnew u).mpr (Or.inr rfl)), h.tcb, if_neg ht]
    · rw [Function.update_of_ne hu, h.tcb]
      by_cases hn : new u
      · rw [if_pos hn, if_pos ((hnew u).mpr (Or.inl hn)), hinit u hn]
      · have hn' : ¬ new' u := fun hb => ((hnew u).mp hb).elim hn hu
        rw [if_neg hn, if_neg hn']
  · intro u
    change Function.update s.frames t .launch u = _
    by_cases hu : u = t
    · subst hu
      rw [Function.update_self, if_pos ((hnew u).mpr (Or.inr rfl))]
    · rw [Function.update_of_ne hu, h.frame]
      by_cases hn : new u
      · rw [if_pos hn, if_pos ((hnew u).mpr (Or.inl hn))]
      · have hn' : ¬ new' u := fun hb => ((hnew u).mp hb).elim hn hu
        rw [if_neg hn, if_neg hn']
  · obtain ⟨l, hl, he⟩ := h.log
    refine ⟨.runqueueAdd t t.val none :: l, ?_, ?_⟩
    · change Event.runqueueAdd t t.val (s.rq.runList t.val) :: s.log = _
      rw [hempty, hl]
      rfl
    · intro e hm
      rcases List.mem_cons.mp hm with rfl | hm
      · exact ⟨t, t.val, rfl⟩
      · exact he e hm

/-- How `allocate_tasks` initialises each TCB of the new set. -/
def initTcb (tasks : Nat → Task) (n : Nat) (t : TcbPtr) : Tcb → Tcb :=
  if t = idleTcb then initIdle n else initTask tasks (t.val - 1)

private theorem allocate_loop (tasks : Nat → Task) (n k : Nat) (hk : k ≤ 62) (s : KState)
    (hs : s.rq = RunQueue.runqueueInit) :
    Installed (fun t => 0 < t.val ∧ t.val ≤ k) (initTcb tasks n) s
      ((List.range k).foldl (allocateTask tasks) s) := by
  induction k with
  | zero =>
    have hnone : ∀ p, s.rq.runList p = none := by intro p; rw [hs]; rfl
    have hno : ∀ t : TcbPtr, ¬ (0 < t.val ∧ t.val ≤ 0) := by omega
    refine
      { wf := by rw [List.range_zero, List.foldl_nil, hs]; exact RunQueue.wf_init
        slot := ?_, tcb := ?_, frame := ?_, mutex := rfl, dev := rfl, cur := rfl, regs := rfl
        time := ⟨rfl, rfl⟩, log := ⟨[], rfl, by simp⟩ }
    · intro p t
      rw [List.range_zero, List.foldl_nil, hnone]
      exact ⟨fun h => absurd h (by simp), fun h => absurd h.2 (hno t)⟩
    · intro t
      rw [if_neg (hno t)]
      rfl
    · intro t
      rw [if_neg (hno t)]
      rfl
  | succ k ih =>
    rw [List.range_succ, List.foldl_append, List.foldl_cons, List.foldl_nil]
    have hv : (Fin.ofNat osMaxTasks (k + 1)).val = k + 1 :=
      Nat.mod_eq_of_lt (show k + 1 < 64 by omega)
    have hidle : Fin.ofNat osMaxTasks (k + 1) ≠ idleTcb := by
      intro h
      have h' := congrArg Fin.val h
      rw [hv] at h'
      have : k + 1 = 63 := h'
      omega
    have hgrow (u : TcbPtr) : 0 < u.val ∧ u.val ≤ k + 1 ↔
        (0 < u.val ∧ u.val ≤ k) ∨ u = Fin.ofNat osMaxTasks (k + 1) := by
      rw [Fin.ext_iff, hv]
      omega
    have hinit : initTcb tasks n (Fin.ofNat osMaxTasks (k + 1)) = initTask tasks k := by
      rw [initTcb, if_neg hidle, hv]
      rfl
    have hstep : Installed (fun t => 0 < t.val ∧ t.val ≤ k + 1) (initTcb tasks n) s _ :=
      (ih (by omega)).install (by rw [hv]; omega) hgrow (fun _ _ => rfl)
    rw [hinit, hv] at hstep
    exact hstep

/-- The state `allocate_tasks` dispatches from. -/
theorem installTasks_installed (tasks : Nat → Task) (n : Nat) (hn : n ≤ 62) (s : KState) :
    Installed (IsTask n) (initTcb tasks n)
      { s.devInit with rq := RunQueue.runqueueInit } (s.installTasks tasks n) := by
  have h := allocate_loop tasks n n hn { s.devInit with rq := RunQueue.runqueueInit } rfl
  have hstep : Installed (IsTask n) (initTcb tasks n) _ _ := h.install
    (fun hb => by have : (63 : Nat) ≤ n := hb.2; omega) (fun _ => Iff.rfl) (fun _ _ => rfl)
  have hinit : initTcb tasks n idleTcb = initIdle n := if_pos rfl
  rw [hinit] at hstep
  exact hstep

/-- A set that is admitted has at most 62 tasks. -/
theorem taskAdmit_le {n : Nat} {mem mem' : TaskMem} (h : taskAdmit n mem = .ok (mem', none)) :
    n ≤ 62 := by
  unfold taskAdmit at h
  split_ifs at h with hn
  · cases h
  · have : ¬ n > 62 := hn
    omega

theorem ctxSwitchHalf_launch {t : TcbPtr} {s : KState} (h : s.frames t = .launch) :
    s.ctxSwitchHalf t = { s with regs := (s.systemTcb t).context, masked := false } := by
  unfold ctxSwitchHalf resume
  simp only [h]
  rfl

/-- A new set starts in the user code of its first task: nothing is left to do in the kernel. -/
theorem Creates.fresh {tasks : Nat → Task} {n : Nat} {regs : SchedContext} {s s' : KState}
    (hc : Creates tasks n regs s s') :
    ∃ mem next s₁, taskAdmit n ⟨tasks, [], []⟩ = .ok (mem, none) ∧ n ≤ 62 ∧
      s₁ = (s.interrupt regs).installTasks mem.slot n ∧ s₁.Picks next ∧ IsTask n next ∧
      s' = { s₁.takeSlot s₁.rq.highestPrio next with
        regs := (s₁.systemTcb next).context, masked := false } := by
  obtain ⟨mem, next, hadm, hp, rfl⟩ := hc.dispatch
  have hn := taskAdmit_le hadm
  have hi := installTasks_installed mem.slot n hn (s.interrupt regs)
  have ht : IsTask n next := ((hi.slot _ _).mp hp.slot).2
  have hframe : (((s.interrupt regs).installTasks mem.slot n).takeSlot
      ((s.interrupt regs).installTasks mem.slot n).rq.highestPrio next).frames next =
      .launch := (hi.frame next).trans (if_pos ht)
  refine ⟨mem, next, _, hadm, hn, rfl, hp, ht, ?_⟩
  rw [ctxSwitchHalf_launch hframe]
  rfl

end KState

end RtosKernel
