import RtosKernel.Scheduling.Reachable
import RtosKernel.TaskSets.Refusal

namespace RtosKernel

/-- What the caller's array holds after `task_create`. -/
def tasksAfter (tasks : Nat → Task) (numTasks : Nat) : Nat → Task :=
  match taskAdmit numTasks ⟨tasks, [], []⟩ with
  | .ok (mem, _) => mem.slot
  | .error _ => tasks

namespace KState

open Errno

/-- The call comes back at once with the error code `v`. -/
structure Fails (c : Call) (v : Int) (s s₁ : KState) : Prop where
  result : syscall c s = .ok s₁
  negative : v < 0
  returned : s₁.log = .returned s.curTcb c v :: s.log

/-- `c` left everything as it was, the interrupt mask and the caller's array included. -/
structure Untouching (c : Call) (s s₁ : KState) : Prop where
  rq : s₁.rq = s.rq
  cur : s₁.curTcb = s.curTcb
  tcb : s₁.systemTcb = s.systemTcb
  mutex : s₁.gtMutex = s.gtMutex
  device : s₁.devices = s.devices
  masked : s₁.masked = s.masked
  tasks : ∀ tasks n, c = .taskCreate tasks n → ∀ i < n, tasksAfter tasks n i = tasks i

/-- The call is no `event_wait` on a device, and no `task_create` that is refused after its
sort has moved a task. -/
def CleanFailure : Call → Prop
  | .eventWait dev => numDevices < dev
  | .taskCreate tasks numTasks =>
    RefusedEarly tasks numTasks ∨ ∀ i < numTasks, (tasks i).T ≤ (tasks (i + 1)).T
  | _ => True

variable {ok : KState → Op → Prop} {regs : SchedContext} {s s₁ : KState} {op : Op} {c : Call}
  {v : Int} {p : Option TcbPtr} {n : Nat}

/-- A single new event that is a return is one of the returns that happened. -/
theorem Replies.returned {r : List Event} (h : Replies s r s₁)
    (hlog : s₁.log = .returned p c v :: s.log) : .returned p c v ∈ r := by
  obtain ⟨l, hl, hsilent⟩ := h
  have hrl : r ++ l = [.returned p c v] := by
    have heq : r ++ l ++ s.log = [.returned p c v] ++ s.log := by
      rw [List.append_assoc, ← hl, hlog]
      rfl
    exact List.append_cancel_right heq
  have hm : .returned p c v ∈ r ++ l := by
    rw [hrl]
    exact List.mem_singleton_self _
  exact (List.mem_append.mp hm).resolve_right fun hml => hsilent _ hml p c v rfl

/-- Only a refusal ends with an error on the log. -/
theorem Entry.failed (he : Entry s op s₁) (hlog : s₁.log = .returned p c v :: s.log)
    (hv : v < 0) : s₁ = s.ret c v := by
  have noSwitch {next : TcbPtr} {f : Frame} (h : Replies s (resumed next f) s₁) : False := by
    have hz := (mem_resumed (h.returned hlog)).2
    omega
  cases he with
  | refuse call w _ =>
    obtain ⟨heq, _⟩ := List.cons.inj hlog
    obtain ⟨_, rfl, rfl⟩ := Event.returned.inj heq
    rfl
  | create i _ _ =>
    obtain ⟨heq, _⟩ := List.cons.inj hlog
    have hi := (Event.returned.inj heq).2.2
    omega
  | acquire m t _ _ _ =>
    obtain ⟨heq, _⟩ := List.cons.inj hlog
    have hi := (Event.returned.inj heq).2.2
    omega
  | lockBlock m t next s₂ _ _ _ _ hq _ =>
    exact (noSwitch ((mutexEnqueue_replies hq).trans (switchTo_replies ..))).elim
  | unlock m t next s₂ _ _ _ _ hs _ =>
    subst hs
    exact (noSwitch (((mutexHandOver_replies m t s).trans (saveCur_replies t _)).trans
      (switchTo_replies ..))).elim
  | waitBlock d t next s₂ _ _ _ hq _ =>
    exact (noSwitch ((devEnqueue_replies hq).trans (switchTo_replies ..))).elim
  | newSet tasks n next mem s₂ hadm hs hp =>
    subst hs
    have hinst := installTasks_replies mem.slot (taskAdmit_le hadm) s
    have htake := takeSlot_replies (s.installTasks mem.slot n).rq.highestPrio next
      (s.installTasks mem.slot n)
    have hres : Replies _ _ (((s.installTasks mem.slot n).takeSlot
        (s.installTasks mem.slot n).rq.highestPrio next).ctxSwitchHalf next) := resume_replies rfl
    exact (noSwitch ((hinst.trans htake).trans (hres.of_start rfl))).elim
  | tick millis s₂ hw => cases (devWake_replies hw).returned hlog
  | wake millis t next s₂ s₃ hw _ hs _ =>
    subst hs
    exact (noSwitch (((devWake_replies hw).trans (saveCur_replies t _)).trans
      (switchTo_replies ..))).elim

section Masked

/-! Which calls leave interrupts masked. -/

theorem resume_masked (t : TcbPtr) (s : KState) : (s.resume t).masked = false := by
  unfold resume
  split <;> rfl

theorem dispatchSleep_masked {k : Frame} (h : s.dispatchSleep k = .ok s₁) : s₁.masked = false := by
  unfold dispatchSleep at h
  split at h
  · cases h
  · split at h
    · cases h
    · cases h
      exact resume_masked ..

theorem dispatchSave_masked {k : Frame} (h : s.dispatchSave k = .ok s₁) : s₁.masked = false := by
  unfold dispatchSave at h
  split at h
  · cases h
  · split at h
    · cases h
    · cases h
      exact resume_masked ..

theorem mutexCreate_masked (s : KState) : s.mutexCreate.masked = false := by
  unfold mutexCreate
  dsimp only
  split_ifs <;> rfl

theorem mutexLock_masked {mutex : Int} (h : s.mutexLock mutex = .ok s₁) : s₁.masked = false := by
  unfold mutexLock at h
  dsimp only at h
  split_ifs at h
  · cases h; rfl
  · cases h; rfl
  · split at h
    · cases h
    · split at h
      · cases h
      · exact dispatchSleep_masked h
  · split at h
    · cases h
    · cases h; rfl

theorem mutexUnlock_masked {mutex : Int} (h : s.mutexUnlock mutex = .ok s₁) :
    s₁.masked = false := by
  unfold mutexUnlock at h
  dsimp only at h
  split_ifs at h
  · cases h; rfl
  · cases h; rfl
  · cases h; rfl
  · cases h; rfl
  · split at h
    · cases h
    · exact dispatchSave_masked h

theorem taskCreate_masked {tasks : Nat → Task} (h : s.taskCreate tasks n = .ok s₁)
    (hs : s.masked = false) : s₁.masked = false := by
  unfold taskCreate at h
  split at h
  · cases h
  · cases h; exact hs
  · obtain ⟨next, _, rfl⟩ := dispatchNosave_ok h
    exact resume_masked ..

/-- The refusal of a lock holder is the one return that forgets to unmask. -/
theorem eventWait_masked {dev : Nat} (h : s.eventWait dev = .ok s₁) (hs : s.masked = false) :
    s₁.masked = true ↔ dev ≤ numDevices ∧
      ∃ cur, s.curTcb = some cur ∧ (s.systemTcb cur).holdsLock ≠ 0 := by
  unfold eventWait devWait at h
  dsimp only at h
  split_ifs at h with hdev
  · cases h
    change s.masked = true ↔ _
    rw [hs]
    simp
    omega
  · have hle : dev ≤ numDevices := by omega
    cases hcur : s.disableInterrupts.curTcb with
    | none => rw [hcur] at h; cases h
    | some cur =>
      have hc : s.curTcb = some cur := hcur
      rw [hcur] at h
      dsimp only at h
      split_ifs at h with hlock
      · cases h
        exact iff_of_true rfl ⟨hle, cur, hc, hlock⟩
      · have hfree : ¬ ∃ t, s.curTcb = some t ∧ (s.systemTcb t).holdsLock ≠ 0 := by
          rintro ⟨t, ht, hne⟩
          cases hc.symm.trans ht
          exact hlock hne
        have hmask : s₁.masked = false := by
          split at h
          · cases h
          · exact dispatchSleep_masked h
        rw [hmask]
        simp [hfree]

end Masked

theorem eventWait_sleeps {dev : Nat} {t : TcbPtr} (h : s.eventWait dev = .ok s₁)
    (hdev : dev ≤ numDevices) (hcur : s.curTcb = some t)
    (hfree : (s.systemTcb t).holdsLock = 0) :
    ∃ next f, Replies s (resumed next f) s₁ := by
  have hc : s.disableInterrupts.curTcb = some t := hcur
  have hf : (s.disableInterrupts.systemTcb t).holdsLock = 0 := hfree
  unfold eventWait devWait at h
  rw [if_neg (Nat.not_lt.mpr hdev)] at h
  simp only [hc, hf, ne_eq, not_true, if_false] at h
  cases hq : s.disableInterrupts.devEnqueue dev t with
  | error e => rw [hq] at h; cases h
  | ok s₂ =>
    rw [hq] at h
    have hc₂ : s₂.curTcb = some t := by
      rcases devEnqueue_ok hq with ⟨_, rfl⟩ | ⟨_, _, _, _, rfl⟩ <;> exact hc
    obtain ⟨next, _, rfl⟩ := dispatchSleep_ok hc₂ h
    have hr := (devEnqueue_replies hq).trans (switchTo_replies s₂ next t (.devWait dev))
    exact ⟨next, _, hr.of_start rfl⟩

/-- An admitted set never comes back with an error. -/
theorem Fails.refused {tasks : Nat → Task} (hf : Fails (.taskCreate tasks n) v (s.trap regs) s₁) :
    ∃ mem code, taskAdmit n ⟨tasks, [], []⟩ = .ok (mem, some code) := by
  have hres : (s.trap regs).taskCreate tasks n = .ok s₁ := hf.result
  cases hadm : taskAdmit n ⟨tasks, [], []⟩ with
  | error e =>
    unfold taskCreate at hres
    rw [hadm] at hres
    cases hres
  | ok out =>
    obtain ⟨mem, _ | code⟩ := out
    · have hstep : s.step regs (.call (.taskCreate tasks n)) = .ok s₁.enableInterrupts := by
        show ((s.trap regs).taskCreate tasks n).map enableInterrupts = _
        rw [hres]
        rfl
      have hc : Creates tasks n regs s s₁.enableInterrupts := ⟨⟨mem, hadm⟩, hstep⟩
      cases hc.replies.returned hf.returned
    · exact ⟨mem, code, rfl⟩

/-- A failed call writes no structure of the kernel; the interrupt mask and the caller's array
are left to look at. -/
theorem Fails.untouching (hf : Fails c v (s.trap regs) s₁) (h : ReachableBy ok s) :
    Untouching c (s.trap regs) s₁ ↔ s₁.masked = false ∧
      ∀ tasks n, c = .taskCreate tasks n → ∀ i < n, tasksAfter tasks n i = tasks i := by
  have hstep : s.step regs (.call c) = .ok s₁.enableInterrupts := by
    show (syscall c (s.trap regs)).map enableInterrupts = _
    rw [hf.result]
    rfl
  have hsame : s₁.enableInterrupts.rq = s.rq ∧ s₁.enableInterrupts.curTcb = s.curTcb ∧
      s₁.enableInterrupts.systemTcb = s.systemTcb ∧ s₁.enableInterrupts.gtMutex = s.gtMutex ∧
      s₁.enableInterrupts.devices = s.devices := by
    rcases h.step_cases hstep with ⟨e₁, he, heq⟩ | ⟨c', w, hop, _, _, heq⟩
    · have hlog : e₁.log = .returned s.curTcb c v :: s.log :=
        (congrArg KState.log heq).symm.trans hf.returned
      rw [heq, he.failed hlog hf.negative]
      exact ⟨rfl, rfl, rfl, rfl, rfl⟩
    · -- a call of `main` that only returns
      rw [heq]
      exact ⟨rfl, rfl, rfl, rfl, rfl⟩
  obtain ⟨hrq, hcur, htcb, hmutex, hdevice⟩ := hsame
  constructor
  · intro hu
    exact ⟨hu.masked, hu.tasks⟩
  · intro hkept
    exact
      { rq := hrq
        cur := hcur
        tcb := htcb
        mutex := hmutex
        device := hdevice
        masked := hkept.1
        tasks := hkept.2 }

/-- Only a task gets past the check of the device number. -/
theorem eventWait_caller {dev : Nat} (h : s.eventWait dev = .ok s₁) (hdev : dev ≤ numDevices) :
    ∃ cur, s.curTcb = some cur := by
  cases hcur : s.disableInterrupts.curTcb with
  | none =>
    unfold eventWait devWait at h
    rw [if_neg (Nat.not_lt.mpr hdev)] at h
    simp only [hcur] at h
    cases h
  | some cur => exact ⟨cur, hcur⟩

/-- `event_wait` fails with interrupts masked on a device that exists, since there it refuses a
lock holder only. -/
theorem Fails.eventWait_unmasked {dev : Nat} (hf : Fails (.eventWait dev) v (s.trap regs) s₁) :
    s₁.masked = false ↔ numDevices < dev := by
  have hmasked := eventWait_masked hf.result rfl
  constructor
  · intro hfalse
    by_contra hdev
    have hle : dev ≤ numDevices := Nat.le_of_not_lt hdev
    obtain ⟨cur, hcur⟩ : ∃ cur, s.curTcb = some cur :=
      eventWait_caller (s := s.trap regs) hf.result hle
    have hfree : (s.systemTcb cur).holdsLock = 0 := by
      by_contra hlock
      rw [hmasked.mpr ⟨hle, cur, hcur, hlock⟩] at hfalse
      cases hfalse
    -- a caller without locks is put to sleep, and sleeping is no failure
    obtain ⟨next, f, hr⟩ := eventWait_sleeps hf.result hle hcur hfree
    have hz := (mem_resumed (hr.returned hf.returned)).2
    have hneg := hf.negative
    omega
  · intro hdev
    by_contra hm
    have hle := (hmasked.mp (by simpa using hm)).1
    exact absurd hdev (Nat.not_lt.mpr hle)

/-- A refused array is what it was exactly if the refusal is a clean one. -/
theorem Fails.tasks_kept {tasks : Nat → Task}
    (hf : Fails (.taskCreate tasks n) v (s.trap regs) s₁) :
    (∀ i < n, tasksAfter tasks n i = tasks i) ↔ CleanFailure (.taskCreate tasks n) := by
  obtain ⟨mem, code, hadm⟩ := hf.refused
  have hafter : tasksAfter tasks n = mem.slot := by
    unfold tasksAfter
    rw [hadm]
  rw [hafter]
  exact taskAdmit_refused_keeps hadm

/-- A failed call changes nothing exactly if it is none of two: the refusal of a lock holder by
`event_wait`, and a late refusal by `task_create` of tasks out of order. -/
theorem failureChangesNothing (h : ReachableBy ok s) (hf : Fails c v (s.trap regs) s₁) :
    Untouching c (s.trap regs) s₁ ↔ CleanFailure c := by
  rw [hf.untouching h]
  have hres := hf.result
  cases c with
  | mutexCreate =>
    cases hres
    exact iff_of_true ⟨mutexCreate_masked _, by simp⟩ trivial
  | mutexLock mutex => exact iff_of_true ⟨mutexLock_masked hres, by simp⟩ trivial
  | mutexUnlock mutex => exact iff_of_true ⟨mutexUnlock_masked hres, by simp⟩ trivial
  | eventWait dev =>
    rw [hf.eventWait_unmasked]
    constructor
    · intro hu
      exact hu.1
    · intro hdev
      exact ⟨hdev, by simp⟩
  | taskCreate tasks n =>
    constructor
    · intro hu
      exact hf.tasks_kept.mp (hu.2 tasks n rfl)
    · intro hclean
      refine ⟨taskCreate_masked hres rfl, ?_⟩
      intro tasks' n' heq
      cases heq
      exact hf.tasks_kept.mpr hclean

theorem failureChangesNothing_badLock : ∃ s s₁, Run sameSet 2 s ∧
    Fails (.mutexLock 99) (-eInval) (s.trap zeroContext) s₁ ∧
    Untouching (.mutexLock 99) (s.trap zeroContext) s₁ := by
  have hx : ((startSet zeroContext 1 sampleTasks 2).bind (execute sameSet zeroContext
      [.call (.mutexLock 0)])).isSome = true := by decide +kernel
  obtain ⟨s, hs⟩ := Option.isSome_iff_exists.mp hx
  have hf : Fails (.mutexLock 99) (-eInval) (s.trap zeroContext)
      ((s.trap zeroContext).ret (.mutexLock 99) (-eInval)) :=
    ⟨rfl, by decide, rfl⟩
  have hreach : Reachable s := ((execute_run hs).mono sameSet_anySet).reachable
  exact ⟨s, _, execute_run hs, hf, (failureChangesNothing hreach hf).mpr trivial⟩

/-- A task that holds mutex 0 waits for an event: it is refused with interrupts masked. -/
theorem holderWaits_masked : ∃ s s₁, Run sameSet 2 s ∧
    Fails (.eventWait 0) (-eHoldsLock) (s.trap zeroContext) s₁ ∧ s₁.masked = true ∧
    ¬ Untouching (.eventWait 0) (s.trap zeroContext) s₁ := by
  have hx : ((startSet zeroContext 1 sampleTasks 2).bind (execute sameSet zeroContext
      [.call (.mutexLock 0)])).map
        (fun s => (s.curTcb, (s.systemTcb 1).holdsLock)) = some (some 1, 1) := by decide +kernel
  obtain ⟨s, hs, hv⟩ := Option.map_eq_some_iff.mp hx
  obtain ⟨hcur, hlock⟩ := Prod.mk.inj hv
  have hres : syscall (.eventWait 0) (s.trap zeroContext) =
      .ok ((s.trap zeroContext).disableInterrupts.ret (.eventWait 0) (-eHoldsLock)) := by
    have hc : (s.trap zeroContext).disableInterrupts.curTcb = some 1 := hcur
    have hl : ((s.trap zeroContext).disableInterrupts.systemTcb 1).holdsLock = 1 := hlock
    show (s.trap zeroContext).eventWait 0 = _
    rw [eventWait, if_neg (by decide), devWait]
    simp [hc, hl]
  refine ⟨s, _, execute_run hs, ⟨hres, by decide, rfl⟩, rfl, fun hu => ?_⟩
  cases hu.masked

end KState

end RtosKernel
