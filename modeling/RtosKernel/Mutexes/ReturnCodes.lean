import RtosKernel.Calls.Bounds
import RtosKernel.Queues.Wakeup

namespace RtosKernel

open Errno

/-- The last task whose `mutex_lock(m)` returned 0. -/
def lastLocker (m : Int) : List Event → Option TcbPtr
  | [] => none
  | .returned p (.mutexLock mutex) value :: log =>
    if mutex = m ∧ value = 0 then p else lastLocker m log
  | _ :: log => lastLocker m log

namespace KState

variable {s s₁ s' : KState} {regs : SchedContext} {op : Op} {t next : TcbPtr} {k : Frame}
  {m n : Nat}

section Owner

/-! `pHolding_Tcb` is the last locker, in every reachable state. -/

theorem lastLocker_append {l : List Event} (h : ∀ e ∈ l, Silent e) (m : Int) (log : List Event) :
    lastLocker m (l ++ log) = lastLocker m log := by
  induction l with
  | nil => rfl
  | cons e l ih =>
    have hrest := ih fun e' he' => h e' (List.mem_cons_of_mem _ he')
    cases e with
    | returned p call v => exact absurd rfl (h _ (List.mem_cons_self ..) p call v)
    | runqueueAdd t p slot => exact hrest
    | dispatch rq p t => exact hrest
    | signal d => exact hrest

/-- Nothing but a `mutex_lock` that returns 0 matters. -/
theorem lastLocker_other {p : Option TcbPtr} {c : Call} {v : Int}
    (h : ∀ mutex, c = .mutexLock mutex → v ≠ 0) (m : Int) (log : List Event) :
    lastLocker m (.returned p c v :: log) = lastLocker m log := by
  cases c with
  | mutexLock mutex => exact if_neg fun hz => h mutex rfl hz.2
  | mutexCreate => rfl
  | mutexUnlock mutex => rfl
  | eventWait d => rfl
  | taskCreate tasks n => rfl

theorem lastLocker_resumed (next : TcbPtr) (f : Frame) (log : List Event) :
    lastLocker m (resumed next f ++ log) =
      if f = .mutexLock m then some next else lastLocker m log := by
  cases f with
  | mutexLock i =>
    change (if (i : Int) = m ∧ (0 : Int) = 0 then some next else lastLocker m log) = _
    by_cases hi : i = m <;> simp [hi]
  | launch => rfl
  | mutexUnlock i => rfl
  | devWait d => rfl
  | devUpdate => rfl

/-- Every mutex records its last locker. -/
def OwnerRecorded (s : KState) : Prop := ∀ m, (s.gtMutex m).pHoldingTcb = lastLocker m s.log

theorem OwnerRecorded.silent (h : OwnerRecorded s) (hr : Replies s [] s₁)
    (hown : ∀ m, (s₁.gtMutex m).pHoldingTcb = (s.gtMutex m).pHoldingTcb) : OwnerRecorded s₁ := by
  obtain ⟨l, hl, hs⟩ := hr
  intro m
  rw [hown, h m, hl, List.nil_append, lastLocker_append hs]

theorem OwnerRecorded.ret (h : OwnerRecorded s) {c : Call} {v : Int}
    (hv : ∀ mutex, c = .mutexLock mutex → v ≠ 0) : OwnerRecorded (s.ret c v) := by
  intro m
  exact (h m).trans (lastLocker_other hv m s.log).symm

/-- A dispatched task that ends its `mutex_lock` enters itself. -/
theorem OwnerRecorded.switchTo (h : OwnerRecorded s) (next t : TcbPtr) (k : Frame) :
    OwnerRecorded (s.switchTo next t k) := by
  obtain ⟨l, hl, hs⟩ := switchTo_replies s next t k
  change (s.switchTo next t k).log = resumed next (s.nextFrame next t k) ++ _ at hl
  intro m
  rw [hl, lastLocker_resumed, lastLocker_append hs, gtMutex_switchTo]
  split_ifs
  · rfl
  · exact h m

theorem OwnerRecorded.entry (h : OwnerRecorded s) (he : Entry s op s₁) : OwnerRecorded s₁ := by
  cases he with
  | refuse c v hv => exact h.ret fun _ _ => Int.ne_of_lt hv
  | create i _ _ =>
    have hset : OwnerRecorded (s.setMutex i fun x => { x with bAvailable := false }) := by
      intro m
      rw [setMutex_apply]
      split_ifs with hi
      · rw [hi]
        exact h i
      · exact h m
    exact hset.ret (by simp)
  | acquire i t _ hcur _ =>
    intro m
    rw [gtMutex_acquire]
    change _ = lastLocker m (.returned s.curTcb (.mutexLock i) 0 :: s.log)
    rw [lastLocker, hcur]
    by_cases hi : m = i
    · rw [if_pos hi, if_pos ⟨by rw [hi], rfl⟩]
    · rw [if_neg hi, if_neg fun hz => hi (Int.natCast_inj.mp hz.1).symm]
      exact h m
  | lockBlock i t next s₂ _ _ hlock _ hq _ =>
    have hwait := h.silent (mutexEnqueue_replies hq) fun m => (mutexEnqueue_lock hq hlock m).2.1
    exact hwait.switchTo next t _
  | unlock i t next s₂ _ _ _ _ hs _ =>
    subst hs
    have hover := h.silent (mutexHandOver_replies i t s) (mutexHandOver_owner i t s)
    have hsave := hover.silent (saveCur_replies t _) fun m => by rw [saveCur_gtMutex]
    exact hsave.switchTo next t _
  | waitBlock d t next s₂ _ _ _ hq _ =>
    have hwait := h.silent (devEnqueue_replies hq) fun m => by rw [devEnqueue_gtMutex hq]
    exact hwait.switchTo next t _
  | newSet tasks n next mem s₂ hadm hs hp =>
    subst hs
    obtain ⟨hgt, _, hr⟩ := startNext mem.slot (taskAdmit_le hadm) hp rfl
    exact h.silent hr fun m => by rw [hgt]
  | tick millis s₂ hw =>
    exact h.silent (devWake_replies hw) fun m => by rw [(devWake_frame hw).2.2.1]
  | wake millis t next s₂ s₃ hw _ hs _ =>
    subst hs
    have hwake := h.silent (devWake_replies hw) fun m => by rw [(devWake_frame hw).2.2.1]
    have hsave := hwake.silent (saveCur_replies t s₂) fun m => by rw [saveCur_gtMutex]
    exact hsave.switchTo next t _

theorem Reachable.ownerRecorded (h : Reachable s) : OwnerRecorded s := by
  refine h.induct (fun m => (boot_booted.mutex m).2.1) (fun a regs op b ha he => ?_)
    fun a regs c v ha _ hc => ?_
  · have hi : OwnerRecorded (a.interrupt regs) := ha
    have hb := hi.entry he
    exact hb
  · have ht : OwnerRecorded (a.trap regs) := ha
    refine ht.ret ?_
    rintro mutex rfl
    exact Int.ne_of_lt hc

end Owner

section Answers

/-- The call of `t` in this step returns `v`, at once or when `t` is next dispatched. -/
def Answers (s s' : KState) (t : TcbPtr) (c : Call) (v : Int) : Prop :=
  (∃ l, s'.log = l ++ s.log ∧ .returned (some t) c v ∈ l) ∨
    (s'.curTcb ≠ some t ∧ .returned (some t) c v ∈ resumed t (s'.frames t))

theorem answers_ret {c c' : Call} {v v' : Int} (hcur : s.curTcb = some t) :
    Answers s (s.ret c v) t c' v' ↔ c' = c ∧ v' = v := by
  constructor
  · rintro (⟨l, hl, hm⟩ | ⟨hne, _⟩)
    · have hone : l = [.returned s.curTcb c v] :=
        List.append_cancel_right (hl.symm.trans rfl)
      rw [hone] at hm
      obtain ⟨_, hc, hv⟩ := Event.returned.inj (List.mem_singleton.mp hm)
      exact ⟨hc, hv⟩
    · exact absurd hcur hne
  · rintro ⟨rfl, rfl⟩
    exact Or.inl ⟨[.returned s.curTcb c' v'], rfl, by rw [hcur]; exact List.mem_singleton_self _⟩

/-- A caller that is switched out at `k` gets the answer of `k`. -/
theorem answers_switchTo {c : Call} {v : Int} (hr : Replies s [] s₁) :
    Answers s (s₁.switchTo next t k) t c v ↔ .returned (some t) c v ∈ resumed t k := by
  obtain ⟨l, hl, hs⟩ := hr.trans (switchTo_replies s₁ next t k)
  have hlog {l' : List Event} (h : (s₁.switchTo next t k).log = l' ++ s.log) :
      l' = resumed next (if next = t then k else s₁.frames next) ++ l := by
    rw [hl, ← List.append_assoc] at h
    exact (List.append_cancel_right h).symm
  have hframe : (s₁.switchTo next t k).frames t = k := by
    rw [switchTo_frames, Function.update_self]
  constructor
  · rintro (⟨l', hl', hm⟩ | ⟨_, hm⟩)
    · rw [hlog hl'] at hm
      rcases List.mem_append.mp hm with hm | hm
      · have hnext : t = next := Option.some.inj (mem_resumed hm).1
        subst hnext
        rw [if_pos rfl] at hm
        exact hm
      · exact absurd rfl (hs _ hm _ _ _)
    · rw [hframe] at hm
      exact hm
  · intro hm
    by_cases hnext : next = t
    · subst hnext
      rw [if_pos rfl] at hl
      exact Or.inl ⟨_, by rw [hl, List.append_assoc], List.mem_append_left _ hm⟩
    · refine Or.inr ⟨?_, by rw [hframe]; exact hm⟩
      rw [switchTo_curTcb]
      simpa using hnext

end Answers

/-- `mutex_unlock(m)` by `t` goes by ownership: 0 if it holds `m`, else `-EPERM` and nothing
done. -/
def UnlockAnswers (s : KState) (t : TcbPtr) (m : Nat) : Prop :=
  ∀ regs, if s.Holds t m then
      ∃ s', s.step regs (.call (.mutexUnlock m)) = .ok s' ∧ Answers s s' t (.mutexUnlock m) 0
    else s.step regs (.call (.mutexUnlock m)) = .ok ((s.trap regs).ret (.mutexUnlock m) (-ePerm))

/-- So does `mutex_lock(m)`: `-EDEADLOCK` exactly if `t` holds `m`. -/
def LockAnswers (s : KState) (t : TcbPtr) (m : Nat) : Prop :=
  ∀ regs, ∃ s', s.step regs (.call (.mutexLock m)) = .ok s' ∧
    (Answers s s' t (.mutexLock m) (-eDeadlock) ↔ s.Holds t m)

/-- `mutex_unlock(m)` by `t` goes through. -/
def Unlocks (s : KState) (t : TcbPtr) (m : Nat) : Prop :=
  (s.gtMutex m).bAvailable = false ∧ (s.gtMutex m).pHoldingTcb = some t

/-- `mutex_lock(m)` by `t` is refused. -/
def Deadlocks (s : KState) (t : TcbPtr) (m : Nat) : Prop :=
  (s.gtMutex m).bLock = true ∧ (s.gtMutex m).pHoldingTcb = some t

theorem mutexUnlock_refused (hcur : s.curTcb = some t) (hm : m < osNumMutex)
    (h : ¬ Unlocks s t m) :
    s.mutexUnlock m = .ok (s.enableInterrupts.ret (.mutexUnlock m) (-ePerm)) := by
  have hrange : ¬ ((m : Int) ≥ osNumMutex ∨ (m : Int) < 0) := by omega
  have hperm : (s.disableInterrupts.gtMutex (m : Int).toNat).bAvailable = true ∨
      s.disableInterrupts.curTcb ≠ (s.disableInterrupts.gtMutex (m : Int).toNat).pHoldingTcb := by
    by_contra hno
    rw [not_or, not_not, Bool.not_eq_true] at hno
    exact h ⟨hno.1, hno.2.symm.trans hcur⟩
  unfold mutexUnlock
  dsimp only
  rw [if_neg hrange, if_pos hperm]
  rfl

theorem mutexUnlock_passed (hcur : s.curTcb = some t) (hm : m < osNumMutex)
    (h : Unlocks s t m) (hs : s.mutexUnlock m = .ok s₁) :
    ∃ b next, Replies s [] b ∧ s₁ = b.switchTo next t (.mutexUnlock m) := by
  have hc : s.disableInterrupts.curTcb = some t := hcur
  have hav : (s.disableInterrupts.gtMutex m).bAvailable = false := h.1
  have hown : (s.disableInterrupts.gtMutex m).pHoldingTcb = some t := h.2
  have hrange : ¬ ((m : Int) ≥ osNumMutex ∨ (m : Int) < 0) := by omega
  unfold mutexUnlock at hs
  dsimp only at hs
  rw [if_neg hrange, Int.toNat_natCast] at hs
  simp only [hc, hav, hown, Bool.false_eq_true, ne_eq, not_true, or_false, if_false, reduceCtorEq,
    and_false] at hs
  have hc₁ : (s.disableInterrupts.mutexHandOver m t).curTcb = some t :=
    (mutexHandOver_curTcb _ _ t).trans hc
  rw [dispatchSave_eq_sleep hc₁] at hs
  obtain ⟨next, _, rfl⟩ := dispatchSleep_ok ((saveCur_curTcb _ _).trans hc₁) hs
  have hr := (mutexHandOver_replies m t s.disableInterrupts).trans (saveCur_replies t _)
  exact ⟨_, next, hr.of_start rfl, rfl⟩

theorem mutexLock_refused (hcur : s.curTcb = some t) (hm : m < osNumMutex)
    (h : Deadlocks s t m) :
    s.mutexLock m = .ok (s.enableInterrupts.ret (.mutexLock m) (-eDeadlock)) := by
  have hrange : ¬ ((m : Int) ≥ osNumMutex ∨ (m : Int) < 0) := by omega
  have hlock : (s.disableInterrupts.gtMutex (m : Int).toNat).bLock = true := h.1
  have hown : s.disableInterrupts.curTcb =
      (s.disableInterrupts.gtMutex (m : Int).toNat).pHoldingTcb := hcur.trans h.2.symm
  unfold mutexLock
  dsimp only
  rw [if_neg hrange, if_pos hlock, if_pos hown]
  rfl

/-- A lock that is not refused returns 0, now or later. -/
theorem mutexLock_passed (hcur : s.curTcb = some t) (hm : m < osNumMutex)
    (h : ¬ Deadlocks s t m) (hs : s.mutexLock m = .ok s₁) :
    (∃ b : KState, b.curTcb = some t ∧ b.log = s.log ∧ s₁ = b.ret (.mutexLock m) 0) ∨
      ∃ b next, Replies s [] b ∧ s₁ = b.switchTo next t (.mutexLock m) := by
  have hc : s.disableInterrupts.curTcb = some t := hcur
  have hrange : ¬ ((m : Int) ≥ osNumMutex ∨ (m : Int) < 0) := by omega
  unfold mutexLock at hs
  dsimp only at hs
  rw [if_neg hrange, Int.toNat_natCast] at hs
  split_ifs at hs with hlock hown
  · exact absurd ⟨hlock, hown.symm.trans hcur⟩ h
  · rw [hc] at hs
    dsimp only at hs
    cases hq : s.disableInterrupts.mutexEnqueue m t with
    | error e => rw [hq] at hs; cases hs
    | ok s₂ =>
      rw [hq] at hs
      have hc₂ : s₂.curTcb = some t := by
        rcases mutexEnqueue_ok hq with ⟨_, rfl⟩ | ⟨_, _, _, _, rfl⟩ <;> exact hc
      obtain ⟨next, _, rfl⟩ := dispatchSleep_ok hc₂ hs
      exact Or.inr ⟨s₂, next, (mutexEnqueue_replies hq).of_start rfl, rfl⟩
  · rw [hc] at hs
    cases hs
    unfold mutexLockTail
    refine Or.inl ⟨_, ?_, ?_, rfl⟩
    · exact hcur
    · rfl

/-- What a caller finds: the step ends, in a state that the call's code describes. -/
theorem Run.call_ok (h : Run sameSet n s) (hidle : s.curTcb ≠ some idleTcb) {c : Call}
    (hop : sameSet s (.call c)) (regs : SchedContext) :
    ∃ s₁, syscall c (s.trap regs) = .ok s₁ ∧
      s.step regs (.call c) = .ok s₁.enableInterrupts := by
  obtain ⟨a, t, hsched, hloc⟩ := h.located
  obtain ⟨s', hs⟩ := hloc.step_total hsched hop (fun _ _ => hidle) regs
  obtain ⟨s₁, hcall, rfl⟩ := map_eq_ok hs
  exact ⟨s₁, hcall, hs⟩

theorem step_unlock_refused (hcur : s.curTcb = some t) (hm : m < osNumMutex)
    (hu : ¬ Unlocks s t m) (regs : SchedContext) :
    s.step regs (.call (.mutexUnlock m)) =
      .ok ((s.trap regs).ret (.mutexUnlock m) (-ePerm)) := by
  have hcall : syscall (.mutexUnlock m) (s.trap regs) =
      .ok ((s.trap regs).enableInterrupts.ret (.mutexUnlock m) (-ePerm)) :=
    mutexUnlock_refused (s := s.trap regs) hcur hm hu
  show (syscall (.mutexUnlock m) (s.trap regs)).map enableInterrupts = _
  rw [hcall]
  rfl

theorem step_unlock_passed (h : Run sameSet n s) (hcur : s.curTcb = some t)
    (hidle : t ≠ idleTcb) (hm : m < osNumMutex) (hu : Unlocks s t m) (regs : SchedContext) :
    ∃ s', s.step regs (.call (.mutexUnlock m)) = .ok s' ∧
      ∀ v, Answers s s' t (.mutexUnlock m) v ↔ v = 0 := by
  have hcaller : s.curTcb ≠ some idleTcb := by simpa [hcur] using hidle
  have hop : sameSet s (.call (.mutexUnlock m)) := trivial
  obtain ⟨s₁, hcall, hs⟩ := h.call_ok hcaller hop regs
  obtain ⟨b, next, hr, rfl⟩ := mutexUnlock_passed (s := s.trap regs) hcur hm hu hcall
  have hr' : Replies s [] b := hr.of_start rfl
  refine ⟨_, hs, fun v => ?_⟩
  have hans : Answers s (b.switchTo next t (.mutexUnlock m)) t (.mutexUnlock m) v ↔
      .returned (some t) (.mutexUnlock m) v ∈ resumed t (.mutexUnlock m) := answers_switchTo hr'
  refine Iff.trans hans ?_
  simp [resumed]

theorem step_lock (h : Run sameSet n s) (hcur : s.curTcb = some t) (hidle : t ≠ idleTcb)
    (hm : m < osNumMutex) (regs : SchedContext) :
    ∃ s', s.step regs (.call (.mutexLock m)) = .ok s' ∧
      (Answers s s' t (.mutexLock m) (-eDeadlock) ↔ Deadlocks s t m) := by
  have hcaller : s.curTcb ≠ some idleTcb := by simpa [hcur] using hidle
  have hop : sameSet s (.call (.mutexLock m)) := trivial
  obtain ⟨s₁, hcall, hs⟩ := h.call_ok hcaller hop regs
  refine ⟨_, hs, ?_⟩
  by_cases hd : Deadlocks s t m
  · have hrefused : syscall (.mutexLock m) (s.trap regs) =
        .ok ((s.trap regs).enableInterrupts.ret (.mutexLock m) (-eDeadlock)) :=
      mutexLock_refused (s := s.trap regs) hcur hm hd
    cases hrefused.symm.trans hcall
    exact iff_of_true ((answers_ret hcur).mpr ⟨rfl, rfl⟩) hd
  · refine iff_of_false (fun hans => ?_) hd
    rcases mutexLock_passed (s := s.trap regs) hcur hm hd hcall with
      ⟨b, hb, hlog, rfl⟩ | ⟨b, next, hr, rfl⟩
    · have hans' : Answers b (b.ret (.mutexLock m) 0) t (.mutexLock m) (-eDeadlock) := by
        unfold Answers
        rw [hlog]
        exact hans
      cases ((answers_ret hb).mp hans').2
    · have hr' : Replies s [] b := hr.of_start rfl
      have hmem : .returned (some t) (.mutexLock m) (-eDeadlock) ∈ resumed t (.mutexLock m) :=
        (answers_switchTo hr' : Answers s (b.switchTo next t _) t _ _ ↔ _).mp hans
      cases (mem_resumed hmem).2

/-- `mutex_unlock` answers by ownership exactly if `t` holds `m` just when it is the last locker
of a created mutex. -/
theorem unlockAnswers_iff (h : Run sameSet n s) (hcur : s.curTcb = some t)
    (hidle : t ≠ idleTcb) (hm : m < osNumMutex) :
    UnlockAnswers s t m ↔ (s.Holds t m ↔ Unlocks s t m) := by
  unfold UnlockAnswers
  by_cases hu : Unlocks s t m
  · have hpassed := step_unlock_passed h hcur hidle hm hu
    simp only [hu, iff_true]
    constructor
    · intro hall
      by_contra hno
      have hret := hall zeroContext
      rw [if_neg hno] at hret
      obtain ⟨s', hs, hans⟩ := hpassed zeroContext
      cases hs.symm.trans hret
      have hcode := (hans (-ePerm)).mp ((answers_ret hcur).mpr ⟨rfl, rfl⟩)
      cases hcode
    · intro hholds regs
      rw [if_pos hholds]
      obtain ⟨s', hs, hans⟩ := hpassed regs
      exact ⟨s', hs, (hans 0).mpr rfl⟩
  · have hrefused := step_unlock_refused hcur hm hu
    simp only [hu, iff_false]
    constructor
    · intro hall hholds
      have hzero := hall zeroContext
      rw [if_pos hholds] at hzero
      obtain ⟨s', hs, hans⟩ := hzero
      cases hs.symm.trans (hrefused zeroContext)
      cases ((answers_ret hcur).mp hans).2
    · intro hno regs
      rw [if_neg hno]
      exact hrefused regs

theorem lockAnswers_iff (h : Run sameSet n s) (hcur : s.curTcb = some t) (hidle : t ≠ idleTcb)
    (hm : m < osNumMutex) : LockAnswers s t m ↔ (s.Holds t m ↔ Deadlocks s t m) := by
  have hstep := step_lock h hcur hidle hm
  constructor
  · intro hall
    obtain ⟨s', hs, hans⟩ := hstep zeroContext
    obtain ⟨s₂, hs₂, hans₂⟩ := hall zeroContext
    cases hs.symm.trans hs₂
    exact hans₂.symm.trans hans
  · intro hiff regs
    obtain ⟨s', hs, hans⟩ := hstep regs
    exact ⟨s', hs, hans.trans hiff.symm⟩

/-- When `mutex_unlock` answers by ownership. -/
def UnlockTells (s : KState) (t : TcbPtr) (m : Nat) : Prop :=
  if s.Holds t m then (m : Int) ∈ createdIds s.log ∧ lastLocker m s.log = some t
  else (m : Int) ∉ createdIds s.log ∨ lastLocker m s.log ≠ some t

/-- When `mutex_lock` does. -/
def LockTells (s : KState) (t : TcbPtr) (m : Nat) : Prop :=
  if s.Holds t m then (s.gtMutex m).bLock = true ∧ lastLocker m s.log = some t
  else (s.gtMutex m).bLock = false ∨ lastLocker m s.log ≠ some t

/-- The return codes match ownership for the current task exactly if the history of `m` lets the
flags tell: its last locker must not have unlocked it, it must have been created, and nobody else
may have locked it in between. -/
theorem returnCodes (h : Run sameSet n s) (hcur : s.curTcb = some t) (hidle : t ≠ idleTcb)
    (hm : m < osNumMutex) :
    (UnlockAnswers s t m ↔ UnlockTells s t m) ∧ (LockAnswers s t m ↔ LockTells s t m) := by
  have hreach := (h.mono sameSet_anySet).reachable
  have hown := hreach.ownerRecorded m
  have hav : (m : Int) ∈ createdIds s.log ↔ (s.gtMutex m).bAvailable = false := by
    rw [hreach.handedOut.flag]
    constructor
    · rintro ⟨i, _, hi, htaken⟩
      rw [Int.natCast_inj.mp hi]
      exact htaken
    · intro htaken
      exact ⟨m, hm, rfl, htaken⟩
  constructor
  · rw [unlockAnswers_iff h hcur hidle hm]
    unfold UnlockTells Unlocks
    rw [hav, hown]
    split_ifs with hholds
    · simp only [hholds, true_iff]
    · simp only [hholds, false_iff, not_and_or, ne_eq]
  · rw [lockAnswers_iff h hcur hidle hm]
    unfold LockTells Deadlocks
    rw [hown]
    split_ifs with hholds
    · simp only [hholds, true_iff]
    · simp only [hholds, false_iff, not_and_or, ne_eq, Bool.not_eq_true]

/-- A task that has locked mutex 0 is refused a second lock and can unlock it. -/
theorem returnCodes_holder : ∃ s, Run sameSet 2 s ∧ s.curTcb = some 1 ∧ s.Holds 1 0 ∧
    UnlockAnswers s 1 0 ∧ LockAnswers s 1 0 := by
  have hx : ((startSet zeroContext 1 sampleTasks 2).bind (execute sameSet zeroContext
      [.call (.mutexLock 0)])).map (fun s => (s.curTcb, decide (s.Holds 1 0),
        (s.gtMutex 0).bLock, createdIds s.log, lastLocker 0 s.log)) =
      some (some 1, true, true, [0], some 1) := by decide +kernel
  obtain ⟨s, hs, hv⟩ := Option.map_eq_some_iff.mp hx
  simp only [Prod.mk.injEq, decide_eq_true_eq] at hv
  obtain ⟨hcur, hholds, hlock, hids, hlast⟩ := hv
  obtain ⟨hunlock, hdead⟩ := returnCodes (execute_run hs) hcur (by decide) (m := 0) (by decide)
  refine ⟨s, execute_run hs, hcur, hholds, hunlock.mpr ?_, hdead.mpr ?_⟩
  · rw [UnlockTells, if_pos hholds]
    exact ⟨by rw [hids]; exact List.mem_singleton_self _, hlast⟩
  · rw [LockTells, if_pos hholds]
    exact ⟨hlock, hlast⟩

/-- The second of two unlocks in a row goes through, and a lock on an id that was never created
cannot be undone. -/
theorem secondUnlock_passes :
    (∃ s, Run sameSet 2 s ∧ s.curTcb = some 1 ∧ ¬ s.Holds 1 0 ∧ ¬ UnlockAnswers s 1 0) ∧
    ∃ s, Run sameSet 2 s ∧ s.curTcb = some 1 ∧ s.Holds 1 5 ∧ ¬ UnlockAnswers s 1 5 := by
  have hidle : (1 : TcbPtr) ≠ idleTcb := by decide
  constructor
  · have hx : ((startSet zeroContext 1 sampleTasks 2).bind (execute sameSet zeroContext
        [.call (.mutexLock 0), .call (.mutexUnlock 0)])).map (fun s => (s.curTcb,
          decide (s.Holds 1 0), (s.gtMutex 0).bAvailable, (s.gtMutex 0).pHoldingTcb)) =
        some (some 1, false, false, some 1) := by decide +kernel
    obtain ⟨s, hs, hv⟩ := Option.map_eq_some_iff.mp hx
    simp only [Prod.mk.injEq, decide_eq_false_iff_not] at hv
    obtain ⟨hcur, hno, hav, hown⟩ := hv
    refine ⟨s, execute_run hs, hcur, hno, fun hans => ?_⟩
    have hiff := (unlockAnswers_iff (execute_run hs) hcur hidle (m := 0) (by decide)).mp hans
    exact hno (hiff.mpr ⟨hav, hown⟩)
  · have hx : ((startSet zeroContext 1 sampleTasks 2).bind (execute sameSet zeroContext
        [.call (.mutexLock 5)])).map (fun s => (s.curTcb, decide (s.Holds 1 5),
          (s.gtMutex 5).bAvailable)) = some (some 1, true, true) := by decide +kernel
    obtain ⟨s, hs, hv⟩ := Option.map_eq_some_iff.mp hx
    simp only [Prod.mk.injEq, decide_eq_true_eq] at hv
    obtain ⟨hcur, hholds, hav⟩ := hv
    refine ⟨s, execute_run hs, hcur, hholds, fun hans => ?_⟩
    have hiff := (unlockAnswers_iff (execute_run hs) hcur hidle (m := 5) (by decide)).mp hans
    have htaken := (hiff.mp hholds).1
    rw [hav] at htaken
    cases htaken

end KState

end RtosKernel
