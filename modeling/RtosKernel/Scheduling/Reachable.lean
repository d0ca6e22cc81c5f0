import RtosKernel.Scheduling.Returns
import RtosKernel.Scheduling.Runs

namespace RtosKernel.KState

/-- Reached from boot by calls of user programs, `main` included, and timer interrupts, as far as
`ok` allows them. -/
def ReachableBy (ok : KState → Op → Prop) (s : KState) : Prop :=
  Relation.ReflTransGen (Step ok) boot s

/-- Reached from boot by any of them on devices that exist. -/
def Reachable (s : KState) : Prop := ReachableBy anySet s

variable {ok : KState → Op → Prop} {s s' s₁ : KState} {regs : SchedContext} {op : Op} {c : Call}
  {n : Nat}

/-- What an `ok` result of a mapped computation came from. -/
theorem map_eq_ok {r : Except Fault KState} (h : r.map enableInterrupts = .ok s') :
    ∃ s₁, r = .ok s₁ ∧ s' = s₁.enableInterrupts := by
  cases r with
  | error e => cases h
  | ok s₁ =>
    cases h
    exact ⟨s₁, rfl, rfl⟩

section Main

/-! The calls of `main`, which runs before any task does. -/

theorem Booted.trap (h : Booted s) (regs : SchedContext) : Booted (s.trap regs) where
  __ := h

theorem Booted.mutexLock (h : Booted s) {mutex : Int} (hs : s.mutexLock mutex = .ok s₁) :
    s₁ = s.enableInterrupts.ret (.mutexLock mutex) (-Errno.eInval) := by
  have hlock (m : Nat) : (s.disableInterrupts.gtMutex m).bLock = false := (h.mutex m).1
  have hcur : s.disableInterrupts.curTcb = none := h.cur
  unfold KState.mutexLock at hs
  simp only [hlock, hcur] at hs
  split_ifs at hs with hr hl
  · cases hs
    rfl
  · exact hl.elim

/-- No mutex records an owner, so a created one passes for the caller's. -/
theorem Booted.mutexUnlock (h : Booted s) (mutex : Int) :
    ∃ v, s.mutexUnlock mutex = .ok (s.enableInterrupts.ret (.mutexUnlock mutex) v) := by
  have hown (m : Nat) : (s.disableInterrupts.gtMutex m).pHoldingTcb = none := (h.mutex m).2.1
  have hcur : s.disableInterrupts.curTcb = none := h.cur
  unfold KState.mutexUnlock
  simp only [hown, hcur, ne_eq, not_true, or_false, and_true, if_false]
  split_ifs with hr hav hfree
  · exact ⟨_, rfl⟩
  · exact ⟨_, rfl⟩
  · exact ⟨_, rfl⟩
  · rw [Bool.not_eq_true] at hav
    exact absurd hav hfree

theorem Booted.eventWait (h : Booted s) {dev : Nat} (hs : s.eventWait dev = .ok s₁) :
    s₁ = s.ret (.eventWait dev) (-Errno.eInval) := by
  have hcur : s.disableInterrupts.curTcb = none := h.cur
  unfold KState.eventWait devWait at hs
  simp only [hcur] at hs
  split_ifs at hs
  cases hs
  rfl

end Main

/-- What a call of `main` returns that has done nothing: `mutex_unlock` may even succeed. -/
def MainReturn : Call → Int → Prop
  | .mutexCreate, _ => False
  | .mutexUnlock _, _ => True
  | _, v => v < 0

/-- What a step before the first task set can be: the start of a set, or nothing much. -/
theorem Booted.step_cases (h : Booted s) (hs : s.step regs op = .ok s') :
    (∃ tasks n, op = .call (.taskCreate tasks n) ∧ Creates tasks n regs s s') ∨
    ((∃ c v, op = .call c ∧ MainReturn c v ∧
        s' = ((s.trap regs).ret c v).enableInterrupts) ∨
      ∃ s₁, bootOp s op ∧ Entry (s.interrupt regs) op s₁ ∧ s' = s₁.enableInterrupts) := by
  have ht := h.trap regs
  have refusal : -Errno.eInval < 0 := by decide
  cases op with
  | timer millis =>
    obtain ⟨s₁, he, rfl⟩ := step_entry hs fun _ => trivial
    exact Or.inr (Or.inr ⟨s₁, trivial, he, rfl⟩)
  | call c =>
    cases c with
    | mutexCreate =>
      obtain ⟨s₁, he, rfl⟩ := step_entry hs fun _ => trivial
      exact Or.inr (Or.inr ⟨s₁, trivial, he, rfl⟩)
    | mutexLock mutex =>
      obtain ⟨s₁, hcall, rfl⟩ := map_eq_ok hs
      have hret := ht.mutexLock hcall
      subst hret
      exact Or.inr (Or.inl ⟨_, _, rfl, refusal, rfl⟩)
    | mutexUnlock mutex =>
      obtain ⟨s₁, hcall, rfl⟩ := map_eq_ok hs
      obtain ⟨v, hret⟩ := ht.mutexUnlock mutex
      cases hret.symm.trans hcall
      exact Or.inr (Or.inl ⟨_, v, rfl, trivial, rfl⟩)
    | eventWait dev =>
      obtain ⟨s₁, hcall, rfl⟩ := map_eq_ok hs
      have hret := ht.eventWait hcall
      subst hret
      exact Or.inr (Or.inl ⟨_, _, rfl, refusal, rfl⟩)
    | taskCreate tasks n =>
      obtain ⟨s₁, hcall, rfl⟩ := map_eq_ok hs
      cases hadm : taskAdmit n ⟨tasks, [], []⟩ with
      | error e =>
        have hcreate : (s.trap regs).taskCreate tasks n = .ok s₁ := hcall
        rw [KState.taskCreate, hadm] at hcreate
        cases hcreate
      | ok out =>
        obtain ⟨mem, _ | code⟩ := out
        · exact Or.inl ⟨tasks, n, rfl, ⟨mem, hadm⟩, hs⟩
        · have hcreate : (s.trap regs).taskCreate tasks n = .ok s₁ := hcall
          rw [KState.taskCreate, hadm] at hcreate
          cases hcreate
          exact Or.inr (Or.inl ⟨_, code, rfl, taskAdmit_code hadm, rfl⟩)

/-- Either `main` still runs or a task set does. -/
inductive Phase (s : KState) : Prop
  | main (h : Booted s)
  | tasks (K : TcbPtr → Prop) (c : TcbPtr) (h : Scheduled K s c)

theorem Booted.stepPhase (h : Booted s) (hs : s.step regs op = .ok s') : Phase s' := by
  rcases h.step_cases hs with ⟨tasks, n, _, hc⟩ | ⟨c, v, _, _, rfl⟩ | ⟨s₁, hop, he, rfl⟩
  · obtain ⟨t, hsched⟩ := h.start hc
    exact .tasks _ t hsched
  · exact .main ((h.trap regs).ret c v).enableInterrupts
  · exact .main ((h.interrupt regs).entry he hop).enableInterrupts

theorem ReachableBy.phase (h : ReachableBy ok s) : Phase s := by
  induction h with
  | refl => exact .main boot_booted
  | tail _ hst ih =>
    cases ih with
    | main hb =>
      cases hst with
      | call regs c _ _ hs => exact hb.stepPhase hs
      | timer regs millis _ hs => exact hb.stepPhase hs
    | tasks K t hsched =>
      obtain ⟨K', t', hsched'⟩ := hsched.step hst
      exact .tasks K' t' hsched'

theorem Run.mono {ok ok' : KState → Op → Prop} (hok : ∀ s op, ok s op → ok' s op)
    (h : Run ok n s) : Run ok' n s := by
  induction h with
  | start tasks regs hboot hc => exact .start tasks regs hboot hc
  | step _ hst ih => exact .step ih (hst.mono hok)

theorem sameSet_anySet (s : KState) (op : Op) (h : sameSet s op) : anySet s op := by
  match op, h with
  | .call .mutexCreate, _ => exact trivial
  | .call (.mutexLock _), _ => exact trivial
  | .call (.mutexUnlock _), _ => exact trivial
  | .call (.eventWait _), hdev => exact hdev
  | .timer _, _ => exact trivial

theorem bootOp_anySet (s : KState) (op : Op) (h : bootOp s op) : anySet s op := by
  match op, h with
  | .call .mutexCreate, _ => exact trivial
  | .timer _, _ => exact trivial

theorem reachable_of_boot (h : Relation.ReflTransGen (Step bootOp) boot s) : Reachable s := by
  induction h with
  | refl => exact .refl
  | tail _ hst ih => exact ih.tail (hst.mono bootOp_anySet)

/-- A run that only creates mutexes before its set starts. -/
theorem Run.reachable (h : Run anySet n s) : Reachable s := by
  induction h with
  | @start a b tasks regs hboot hc =>
    have hcur : a.curTcb ≠ some idleTcb := by
      rw [(Booted.of_boot hboot).cur]
      simp
    have hok : anySet a (.call (.taskCreate tasks n)) := trivial
    exact (reachable_of_boot hboot).tail (.call regs _ hok hcur hc.2)
  | step _ hst ih => exact ih.tail hst

/-- One step from a reachable state: a kernel entry, or a call of `main` that does nothing. -/
theorem ReachableBy.step_cases (h : ReachableBy ok s) (hs : s.step regs op = .ok s') :
    (∃ s₁, Entry (s.interrupt regs) op s₁ ∧ s' = s₁.enableInterrupts) ∨
      ∃ c v, op = .call c ∧ s.curTcb = none ∧ MainReturn c v ∧
        s' = ((s.trap regs).ret c v).enableInterrupts := by
  cases h.phase with
  | main hb =>
    rcases hb.step_cases hs with ⟨tasks, n, rfl, _⟩ | ⟨c, v, hop, hv, hs'⟩ | ⟨s₁, _, he, rfl⟩
    · exact Or.inl (step_entry hs fun _ => trivial)
    · exact Or.inr ⟨c, v, hop, hb.cur, hv, hs'⟩
    · exact Or.inl ⟨s₁, he, rfl⟩
  | tasks K t hsched =>
    refine Or.inl (step_entry hs fun hnone => ?_)
    rw [hsched.cur] at hnone
    cases hnone

/-- Induction over a run from boot, by what each step does. -/
theorem ReachableBy.induct {P : KState → Prop} (hboot : P boot)
    (hentry : ∀ s regs op s₁, P s → Entry (s.interrupt regs) op s₁ → P s₁.enableInterrupts)
    (hret : ∀ s regs c v, P s → s.curTcb = none → MainReturn c v →
      P ((s.trap regs).ret c v).enableInterrupts)
    (h : ReachableBy ok s) : P s := by
  induction h with
  | refl => exact hboot
  | @tail a b hreach hst ih =>
    have hstep {regs : SchedContext} {op : Op} (hs : a.step regs op = .ok b) : P b := by
      rcases ReachableBy.step_cases hreach hs with ⟨s₁, he, rfl⟩ | ⟨c, v, _, hnone, hc, rfl⟩
      · exact hentry a regs op s₁ ih he
      · exact hret a regs c v ih hnone hc
    cases hst with
    | call regs c _ _ hs => exact hstep hs
    | timer regs millis _ hs => exact hstep hs

end RtosKernel.KState
