import RtosKernel.Scheduling.Reachable

namespace RtosKernel.KState

open Errno

/-- The operations that read through `cur_tcb`, whatever it is. -/
def NeedsTask : Op → Prop
  | .call (.mutexLock mutex) => 0 ≤ mutex ∧ mutex < osNumMutex
  | .call (.eventWait dev) => dev ≤ numDevices
  | _ => False

variable {s : KState} {op : Op} {regs : SchedContext}

theorem map_nullTcb {r : Except Fault KState} :
    r.map enableInterrupts = .error .nullTcb ↔ r = .error .nullTcb := by
  cases r with
  | error e => exact ⟨fun h => h, fun h => h⟩
  | ok s₁ => exact ⟨fun h => (by cases h), fun h => (by cases h)⟩

/-- With no task yet, `mutex_lock` on an existing id writes through NULL. -/
theorem Booted.mutexLock_null (h : Booted s) (mutex : Int) :
    s.mutexLock mutex = .error .nullTcb ↔ 0 ≤ mutex ∧ mutex < osNumMutex := by
  have hlock (m : Nat) : (s.disableInterrupts.gtMutex m).bLock = false := (h.mutex m).1
  have hcur : s.disableInterrupts.curTcb = none := h.cur
  unfold KState.mutexLock
  simp only [hlock, hcur]
  split_ifs with hr
  · simp only [false_iff]
    omega
  · contradiction
  · contradiction
  · simp only [true_iff]
    omega

theorem Booted.eventWait_null (h : Booted s) (dev : Nat) :
    s.eventWait dev = .error .nullTcb ↔ dev ≤ numDevices := by
  have hcur : s.disableInterrupts.curTcb = none := h.cur
  unfold KState.eventWait devWait
  simp only [hcur]
  split_ifs with hdev
  · simp only [false_iff]
    omega
  · simp only [true_iff]
    omega

theorem Booted.step_null (h : Booted s) (op : Op) :
    s.step regs op = .error .nullTcb ↔ NeedsTask op := by
  have ht := h.trap regs
  have hsafe (he : early op) : s.step regs op = .error .nullTcb ↔ False :=
    iff_false_intro (h.step_noNull he regs)
  cases op with
  | timer millis => exact hsafe trivial
  | call c =>
    cases c with
    | mutexCreate => exact hsafe trivial
    | taskCreate tasks n => exact hsafe trivial
    | mutexLock mutex => exact map_nullTcb.trans (ht.mutexLock_null mutex)
    | eventWait dev => exact map_nullTcb.trans (ht.eventWait_null dev)
    | mutexUnlock mutex =>
      obtain ⟨v, hret⟩ := ht.mutexUnlock mutex
      apply map_nullTcb.trans
      show (s.trap regs).mutexUnlock mutex = _ ↔ False
      rw [hret]
      simp

/-- A NULL TCB is dereferenced exactly when `main` locks a mutex or waits for an event before
it has started a task set: `dispatch_init`, which would set `cur_tcb`, is never called. -/
theorem nullTask (h : Reachable s) (hidle : ∀ c, op = .call c → s.curTcb ≠ some idleTcb)
    (regs : SchedContext) :
    s.step regs op ≠ .error .nullTcb ↔ (s.curTcb = none → ¬ NeedsTask op) := by
  cases h.phase with
  | main hb =>
    rw [ne_eq, hb.step_null]
    exact ⟨fun hn _ => hn, fun hn => hn hb.cur⟩
  | tasks K c hsched =>
    refine iff_of_true (hsched.step_noNull hidle regs) fun hnone => ?_
    rw [hsched.cur] at hnone
    cases hnone

/-- A created mutex can be unlocked by `main`, although nobody has locked it. -/
theorem nullTask_mainUnlock : ∃ s, Reachable s ∧ s.curTcb = none ∧
    s.step zeroContext (.call (.mutexUnlock 0)) ≠ .error .nullTcb := by
  have hx : (execute anySet zeroContext [.call .mutexCreate] boot).map KState.curTcb =
      some none := by decide +kernel
  obtain ⟨s, hs, hcur⟩ := Option.map_eq_some_iff.mp hx
  refine ⟨s, execute_steps hs, hcur, (nullTask (execute_steps hs) ?_ zeroContext).mpr ?_⟩
  · intro c _
    rw [hcur]
    simp
  · exact fun _ => id

/-- `main` creates mutex 0 and locks it. -/
theorem mainLocks_null : ∃ s, Reachable s ∧ s.curTcb ≠ some idleTcb ∧
    s.step zeroContext (.call (.mutexLock 0)) = .error .nullTcb := by
  have hx : (execute anySet zeroContext [.call .mutexCreate] boot).map (fun s =>
      (s.curTcb, decide ((s.gtMutex 0).bLock = true))) = some (none, false) := by decide +kernel
  obtain ⟨s, hs, hv⟩ := Option.map_eq_some_iff.mp hx
  obtain ⟨hcur, hlock⟩ := Prod.mk.inj hv
  refine ⟨s, execute_steps hs, by rw [hcur]; simp, ?_⟩
  have hc : (s.trap zeroContext).disableInterrupts.curTcb = none := hcur
  have hl : ¬ ((s.trap zeroContext).disableInterrupts.gtMutex 0).bLock = true :=
    of_decide_eq_false hlock
  apply map_nullTcb.mpr
  show (s.trap zeroContext).mutexLock 0 = _
  simp [KState.mutexLock, hc, hl]

end RtosKernel.KState
