import RtosKernel.Queues.Wakeup
import RtosKernel.Scheduling.Reachable

namespace RtosKernel.KState

variable {K : TcbPtr → Prop} {a b : Placement TcbPtr Place} {s s' s₁ : KState}
  {c t next : TcbPtr} {n m : Nat} {op : Op}

/-- The TCBs that wait for a mutex are where `a` says, and the current one runs. A TCB that a new
set has dropped counts as running too: no queue refers to it. -/
structure Housed (K : TcbPtr → Prop) (a : Placement TcbPtr Place) (s : KState) : Prop
    extends Placed K a s where
  runs : ∀ t, s.curTcb = some t → a.place t = .running

namespace Housed

theorem of_same (h : Housed K a s) (hp : Placed K a s₁) (hcur : s₁.curTcb = s.curTcb) :
    Housed K a s₁ where
  __ := hp
  runs := by rw [hcur]; exact h.runs

theorem interrupt (h : Housed K a s) (regs : SchedContext) : Housed K a (s.interrupt regs) :=
  h.of_same { h.toPlaced with } rfl

theorem enableInterrupts (h : Housed K a s) : Housed K a s.enableInterrupts :=
  h.of_same h.toPlaced.enableInterrupts rfl

theorem ret (h : Housed K a s) (call : Call) (v : Int) : Housed K a (s.ret call v) :=
  h.of_same (h.toPlaced.ret call v) rfl

/-- After a switch to `next`. -/
theorem of_switch {last : TcbPtr} {k : Frame}
    (h : Placed K (b.move next .running) (s.switchTo next last k)) :
    Housed K (b.move next .running) (s.switchTo next last k) where
  __ := h
  runs := by
    intro t ht
    cases Option.some.inj (switchTo_curTcb.symm.trans ht)
    exact Placement.place_move_self

theorem switchTo {last : TcbPtr} {k : Frame} (h : Placed K b s) (hd : Disciplined K s)
    (hp : s.Picks next) : ∃ a', Housed K a' (s.switchTo next last k) :=
  ⟨_, of_switch ((h.takeSlot hd hp).2.ctxSwitchFull next last k)⟩

/-- A kernel entry that installs no new set. -/
theorem entry (h : Housed K a s) (hs : Scheduled K s c) (hop : sameSet s op)
    (hc : ∀ call, op = .call call → c ≠ idleTcb) (he : Entry s op s₁) :
    ∃ a', Housed K a' s₁ := by
  have hrun : a.place c = .running := h.runs c hs.cur
  cases he with
  | refuse call v _ => exact ⟨a, h.ret call v⟩
  | create i _ _ =>
    have h₁ := h.toPlaced.setMutex i (fun x => { x with bAvailable := false }) rfl
    exact ⟨a, (h.of_same h₁ rfl).ret _ _⟩
  | acquire m t _ ht _ =>
    have h₁ := h.toPlaced.setMutex m (fun x => { x with bLock := true }) rfl
    exact ⟨a, h.of_same (h₁.mutexLockTail m t) rfl⟩
  | lockBlock m t next s₂ hm ht _ _ hq hp =>
    cases hs.eq_cur ht
    have hd := hs.toDispatchable.mutexEnqueue (hc _ rfl) hq
    exact switchTo (h.toPlaced.mutexEnqueue hrun hm hq) hd.toDisciplined hp
  | unlock m t next s₂ _ ht _ _ hs₂ hp =>
    cases hs.eq_cur ht
    subst hs₂
    have hd := hs.toDispatchable.mutexHandOver (m := m) (hc _ rfl)
    rcases h.toPlaced.mutexHandOver (m := m) (c := c) hs.toDisciplined with
      ⟨_, hpl⟩ | ⟨first, _, hfirst, hpl⟩
    · exact ⟨_, of_switch (hpl.switchSaved_placed hd hrun hp _).2⟩
    · have hne : c ≠ first := by
        rintro rfl
        rw [hrun] at hfirst
        cases hfirst
      have hrun' : (a.move first .ready).place c = .running :=
        (Placement.place_move_of_ne hne).trans hrun
      exact ⟨_, of_switch (hpl.switchSaved_placed hd hrun' hp _).2⟩
  | waitBlock d t next s₂ _ ht _ hq hp =>
    cases hs.eq_cur ht
    have hd := hs.toDispatchable.devEnqueue (hc _ rfl) hq
    exact switchTo (h.toPlaced.devEnqueue hrun hop hq) hd.toDisciplined hp
  | newSet => exact absurd hop id
  | tick millis s₂ hw =>
    obtain ⟨r, hr, hwk⟩ := h.toPlaced.devWake hs.toDispatchable millis
    cases hw.symm.trans hr
    obtain ⟨b, hpl, _, hsame⟩ := hwk.placed
    cases hsame rfl
    exact ⟨a, h.of_same hpl (hwk.dispatchable.cur.trans hs.cur.symm)⟩
  | wake millis t next s₂ s₃ hw ht hs₃ hp =>
    obtain ⟨r, hr, hwk⟩ := h.toPlaced.devWake hs.toDispatchable millis
    cases hw.symm.trans hr
    cases hwk.dispatchable.eq_cur ht
    subst hs₃
    obtain ⟨b, hpl, hwoken, _⟩ := hwk.placed
    have hrun' : b.place c = .running := by
      rw [hwoken.kept c, hrun]
      intro d _ hcd
      rw [hrun] at hcd
      cases hcd
    exact ⟨_, of_switch (hpl.switchSaved_placed hwk.dispatchable hrun' hp _).2⟩

end Housed

/-- The dispatch that starts the first task of the new set. -/
theorem Housed.newSet (h : Placed K a s) (hd : Disciplined K s) (tasks : Nat → Task) (hn : n ≤ 62)
    (hfree : NoWaiter a n) (hp : (s.installTasks tasks n).Picks next) :
    ∃ a', Housed (fun t => K t ∨ IsTask n t) a'
      (((s.installTasks tasks n).takeSlot (s.installTasks tasks n).rq.highestPrio
        next).ctxSwitchHalf next) := by
  have hpl := ((h.installTasks tasks hn hfree).takeSlot (hd.newSet tasks hn).1 hp).2
  refine ⟨_, { hpl.ctxSwitchHalf next with runs := ?_ }⟩
  intro t ht
  rw [ctxSwitchHalf, resume_curTcb] at ht
  cases Option.some.inj ht
  exact Placement.place_move_self

/-- As `anySet`, but a new set takes over no TCB that is in the queue of a mutex. -/
def sparesWaiters (s : KState) : Op → Prop
  | .call (.taskCreate tasks n) => (∃ mem, taskAdmit n ⟨tasks, [], []⟩ = .ok (mem, none)) →
      ∀ t m, IsTask n t → ¬ s.At t (.mutexSleepQueue m)
  | op => anySet s op

theorem sparesWaiters_anySet (s : KState) (op : Op) (hop : sparesWaiters s op) : anySet s op := by
  match op, hop with
  | .call .mutexCreate, _ => exact trivial
  | .call (.mutexLock _), _ => exact trivial
  | .call (.mutexUnlock _), _ => exact trivial
  | .call (.eventWait _), hdev => exact hdev
  | .call (.taskCreate _ _), _ => exact trivial
  | .timer _, _ => exact trivial

theorem anySet_sameSet (hop : anySet s op) (hset : ∀ tasks n, op ≠ .call (.taskCreate tasks n)) :
    sameSet s op := by
  match op, hop with
  | .call .mutexCreate, _ => exact trivial
  | .call (.mutexLock _), _ => exact trivial
  | .call (.mutexUnlock _), _ => exact trivial
  | .call (.eventWait _), hdev => exact hdev
  | .call (.taskCreate tasks n), _ => exact absurd rfl (hset tasks n)
  | .timer _, _ => exact trivial

theorem Placed.at_mutex (h : Placed K a s) (ht : a.place t = .mutex m) :
    s.At t (.mutexSleepQueue m) :=
  ⟨h.mutexRange t m ht, _, h.mutex m, (a.mem_line _ _).mpr ht⟩

theorem Housed.step (h : Housed K a s) (hs : Scheduled K s c) (hst : Step sparesWaiters s s') :
    ∃ K' a' c', Scheduled K' s' c' ∧ Housed K' a' s' := by
  obtain ⟨regs, op, s₁, hop, hidle, he, rfl⟩ := hst.entry (by rw [hs.cur]; simp)
  have hi := hs.interrupt regs
  have hh := h.interrupt regs
  by_cases hset : ∃ tasks n, op = .call (.taskCreate tasks n)
  · obtain ⟨tasks, n, rfl⟩ := hset
    cases he with
    | refuse _ v _ => exact ⟨K, a, c, (hi.ret _ v).enableInterrupts, (hh.ret _ v).enableInterrupts⟩
    | newSet _ _ next mem s₂ hadm hs₂ hp =>
      subst hs₂
      have hn := taskAdmit_le hadm
      have hfree : NoWaiter a n := fun t ht m hm => hop ⟨mem, hadm⟩ t m ht (h.at_mutex hm)
      obtain ⟨a', h'⟩ := Housed.newSet hh.toPlaced hi.toDisciplined mem.slot hn hfree hp
      exact ⟨_, a', next, (hi.start mem.slot hn hp).enableInterrupts, h'.enableInterrupts⟩
  · have hsame : ∀ tasks n, op ≠ .call (.taskCreate tasks n) :=
      fun tasks n heq => hset ⟨tasks, n, heq⟩
    obtain ⟨c', hs'⟩ := hi.entry hsame (hs.caller hidle) he
    have hop' := anySet_sameSet (sparesWaiters_anySet s op hop) hsame
    obtain ⟨a', h'⟩ := hh.entry hi hop' (hs.caller hidle) he
    exact ⟨K, a', c', hs'.enableInterrupts, h'.enableInterrupts⟩

theorem Run.housed (h : Run sparesWaiters n s) :
    ∃ K a c, Scheduled K s c ∧ Housed K a s := by
  induction h with
  | start tasks regs hboot hc =>
    obtain ⟨a, c, hs, hl⟩ := (Booted.of_boot hboot).located hc
    exact ⟨_, a, c, hs, { hl.toPlaced with runs := fun t ht => (hl.running t).mpr ht }⟩
  | step _ hst ih =>
    obtain ⟨K, a, c, hs, hh⟩ := ih
    exact hh.step hs hst

theorem taskCreate_ends (tasks : Nat → Task) (n : Nat) (s : KState) :
    s.taskCreate tasks n ≠ .error .diverges := by
  unfold taskCreate
  split
  · rename_i e he
    rw [taskAdmit_error he]
    simp
  · simp
  · unfold allocateTasks dispatchNosave removeHighest
    split
    · rename_i e he
      dsimp only at he
      split at he
      · cases he
        simp
      · cases he
    · simp

/-- Whatever is called next, every walk along a queue ends within `OS_MAX_TASKS` nodes. -/
structure WalksEnd (s : KState) : Prop where
  steps : ∀ regs op, anySet s op → (∀ call, op = .call call → s.curTcb ≠ some idleTcb) →
    s.step regs op ≠ .error .diverges
  mutex : ∀ m, m < osNumMutex → ∃ l, IntrusiveChain s.mutexLink (s.gtMutex m).pSleepQueue l ∧
    l.Nodup ∧ l.length ≤ osMaxTasks
  device : ∀ d, d < numDevices → ∃ l, IntrusiveChain s.sleepLink (s.devices d).sleepQ l ∧
    l.Nodup ∧ l.length ≤ osMaxTasks

theorem Housed.ends (h : Housed K a s) (hs : Scheduled K s c) : WalksEnd s where
  steps := by
    intro regs op hop hidle he
    by_cases hset : ∃ tasks n, op = .call (.taskCreate tasks n)
    · obtain ⟨tasks, n, rfl⟩ := hset
      cases hr : (s.trap regs).taskCreate tasks n with
      | ok s₁ =>
        simp only [KState.step, syscall, hr, Except.map] at he
        cases he
      | error e =>
        simp only [KState.step, syscall, hr, Except.map, Except.error.injEq] at he
        subst he
        exact taskCreate_ends tasks n _ hr
    · have hsame := anySet_sameSet hop fun tasks n heq => hset ⟨tasks, n, heq⟩
      obtain ⟨s', hs'⟩ := h.toPlaced.step_total hs (h.runs c hs.cur) hsame hidle regs
      rw [hs'] at he
      cases he
  mutex := fun m _ => ⟨_, h.mutex m, a.nodup _, h.line_length m⟩
  device := fun d _ => ⟨_, h.device d, a.nodup _, h.devLine_length d⟩

/-- As long as no waiting TCB is taken over by a new set, no chain is ever cyclic. -/
theorem walksEnd (h : Run sparesWaiters n s) : WalksEnd s := by
  obtain ⟨K, a, c, hs, hh⟩ := h.housed
  exact hh.ends hs

section Samples

/-- A test that can be run: nothing points to a TCB of the new set. -/
def sparesLinked (s : KState) : Op → Prop
  | .call (.taskCreate _ n) => ∀ t, IsTask n t →
      (∀ m < osNumMutex, (s.gtMutex m).pSleepQueue ≠ some t) ∧ ∀ u, s.mutexLink u ≠ some t
  | op => anySet s op

instance : ∀ s op, Decidable (sparesLinked s op)
  | s, .call (.taskCreate _ n) => inferInstanceAs (Decidable (∀ t, IsTask n t →
      (∀ m < osNumMutex, (s.gtMutex m).pSleepQueue ≠ some t) ∧ ∀ u, s.mutexLink u ≠ some t))
  | s, .call .mutexCreate => inferInstanceAs (Decidable (anySet s (.call .mutexCreate)))
  | s, .call (.mutexLock m) => inferInstanceAs (Decidable (anySet s (.call (.mutexLock m))))
  | s, .call (.mutexUnlock m) => inferInstanceAs (Decidable (anySet s (.call (.mutexUnlock m))))
  | s, .call (.eventWait d) => inferInstanceAs (Decidable (anySet s (.call (.eventWait d))))
  | s, .timer millis => inferInstanceAs (Decidable (anySet s (.timer millis)))

theorem sparesLinked_sparesWaiters (s : KState) (op : Op) (hop : sparesLinked s op) :
    sparesWaiters s op := by
  match op, hop with
  | .call .mutexCreate, _ => exact trivial
  | .call (.mutexLock _), _ => exact trivial
  | .call (.mutexUnlock _), _ => exact trivial
  | .call (.eventWait _), hdev => exact hdev
  | .timer _, _ => exact trivial
  | .call (.taskCreate _ n), hfree =>
    rintro _ t m ht ⟨hm, l, hl, hmem⟩
    obtain ⟨hhead, hlink⟩ := hfree t ht
    rcases hl.pointed hmem with hq | ⟨u, hu⟩
    · exact hhead m hm hq
    · exact hlink u hu

/-- Task 3 waits for a mutex that an earlier set left locked, and task 1 starts a set of two. -/
theorem walksEnd_spared : ∃ s, Run sparesWaiters 3 s ∧ WalksEnd s ∧
    (s.gtMutex 0).pSleepQueue = some 3 ∧ s.curTcb = some 1 := by
  have hx : ((startSet zeroContext 0 sampleTasks 3).bind (execute sparesLinked zeroContext
      [.call .mutexCreate, .call (.mutexLock 0), .call (.taskCreate sampleTasks 3),
        .call (.eventWait 0), .call (.eventWait 0), .call (.mutexLock 0), .timer 100,
        .call (.taskCreate sampleTasks 2)])).map
        (fun s => ((s.gtMutex 0).pSleepQueue, s.curTcb)) = some (some 3, some 1) := by
    decide +kernel
  obtain ⟨s, hs, hv⟩ := Option.map_eq_some_iff.mp hx
  obtain ⟨hq, hcur⟩ := Prod.mk.inj hv
  have hrun := (execute_run hs).mono sparesLinked_sparesWaiters
  exact ⟨s, hrun, walksEnd hrun, hq, hcur⟩

/-- The fault of a computation that fails. -/
def fault (r : Except Fault KState) : Option Fault :=
  match r with
  | .error e => some e
  | .ok _ => none

theorem fault_eq {r : Except Fault KState} {e : Fault} (h : fault r = some e) : r = .error e := by
  cases r with
  | error e' =>
    cases h
    rfl
  | ok s' => cases h

/-- Task 2 waits when the set is started again, and waits once more: it is its own successor,
and the `mutex_lock` of task 3 never ends. -/
theorem reusedWaiter_diverges : ∃ s, Run anySet 3 s ∧ s.curTcb = some 3 ∧
    s.mutexLink 2 = some 2 ∧ ¬ WalksEnd s := by
  have hx : ((startSet zeroContext 0 sampleTasks 3).bind (execute anySet zeroContext
      [.call .mutexCreate, .call (.mutexLock 0), .call (.taskCreate sampleTasks 3),
        .call (.eventWait 0), .call (.mutexLock 0), .call (.taskCreate sampleTasks 3),
        .call (.eventWait 0), .call (.mutexLock 0)])).map (fun s => (s.curTcb, s.mutexLink 2,
          fault (s.step zeroContext (.call (.mutexLock 0))))) =
      some (some 3, some 2, some .diverges) := by decide +kernel
  obtain ⟨s, hs, hv⟩ := Option.map_eq_some_iff.mp hx
  simp only [Prod.mk.injEq] at hv
  obtain ⟨hcur, hlink, hfault⟩ := hv
  refine ⟨s, execute_run hs, hcur, hlink, fun hw => ?_⟩
  have hidle : s.curTcb ≠ some idleTcb := by
    rw [hcur]
    decide
  exact hw.steps zeroContext (.call (.mutexLock 0)) trivial (fun _ _ => hidle) (fault_eq hfault)

end Samples

end RtosKernel.KState
