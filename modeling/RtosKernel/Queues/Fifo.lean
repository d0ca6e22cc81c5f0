import RtosKernel.Queues.Simulation

namespace RtosKernel

/-- What is known of one mutex from outside: the abstract queue, the tasks that have blocked on
it so far, and those its unlocks have made ready, both in order. -/
structure MutexLine where
  queue : List TcbPtr
  arrived : List TcbPtr
  readied : List TcbPtr
  deriving DecidableEq

namespace MutexLine

/-- `t` has blocked. -/
def push (t : TcbPtr) (q : MutexLine) : MutexLine :=
  { q with queue := q.queue ++ [t], arrived := q.arrived ++ [t] }

/-- An unlock has succeeded, and made `ready` ready. -/
def pop (ready : List TcbPtr) (q : MutexLine) : MutexLine :=
  { q with queue := q.queue.tail, readied := q.readied ++ ready }

end MutexLine

/-- The values returned to `t`, newest first. -/
def returnsTo (t : TcbPtr) (es : List Event) : List Int :=
  es.filterMap fun
    | .returned p _ value => if p = some t then some value else none
    | _ => none

/-- The tasks other than `t` that went to the run queue, oldest first. -/
def readiedBy (t : TcbPtr) (es : List Event) : List TcbPtr :=
  es.reverse.filterMap fun
    | .runqueueAdd u _ _ => if u = t then none else some u
    | _ => none

/-- What a step from `s` to `s'` does to the line of mutex `m`. A `mutex_lock` blocks if it does
not return in the step, a `mutex_unlock` succeeds if it returns no error in it. -/
def MutexLine.after (m : Nat) (s : KState) (op : Op) (s' : KState) (q : MutexLine) : MutexLine :=
  match op, s.curTcb with
  | .call (.mutexLock mutex), some t =>
    if mutex = m ∧ returnsTo t (s.news s') = [] then q.push t else q
  | .call (.mutexUnlock mutex), some t =>
    if mutex = m ∧ ∀ v ∈ returnsTo t (s.news s'), v = 0 then q.pop (readiedBy t (s.news s')) else q
  | _, _ => q

namespace KState

variable {K : TcbPtr → Prop} {a b : Placement TcbPtr Place} {s s' s₁ s₂ : KState} {op : Op}
  {c t u next : TcbPtr} {k f : Frame} {l l' : List TcbPtr} {q : MutexLine} {n m : Nat}
  {ok : KState → Op → Prop}

/-- A run of one task set, with the line of `m`. -/
inductive LineRun (n m : Nat) : MutexLine → KState → Prop
  | start {s s' : KState} (tasks : Nat → Task) (regs : SchedContext)
      (hboot : Relation.ReflTransGen (Step bootOp) boot s) (h : Creates tasks n regs s s') :
      LineRun n m ⟨[], [], []⟩ s'
  | step {q : MutexLine} {s s' : KState} (hs : LineRun n m q s) (regs : SchedContext) (op : Op)
      (hok : sameSet s op) (hidle : ∀ call, op = .call call → s.curTcb ≠ some idleTcb)
      (h : s.step regs op = .ok s') : LineRun n m (q.after m s op s') s'

theorem LineRun.run (h : LineRun n m q s) : Run sameSet n s := by
  induction h with
  | start tasks regs hboot hc => exact .start tasks regs hboot hc
  | step _ regs op hok hidle hs ih =>
    cases op with
    | call call => exact .step ih (.call regs call hok (hidle call rfl) hs)
    | timer millis => exact .step ih (.timer regs millis hok hs)

/-- Every run has its line. -/
theorem Run.line (h : Run sameSet n s) (m : Nat) : ∃ q, LineRun n m q s := by
  induction h with
  | start tasks regs hboot hc => exact ⟨_, .start tasks regs hboot hc⟩
  | step _ hst ih =>
    obtain ⟨q, hq⟩ := ih
    cases hst with
    | call regs call hok hidle hs => exact ⟨_, hq.step regs (.call call) hok (fun _ _ => hidle) hs⟩
    | timer regs millis hok hs => exact ⟨_, hq.step regs (.timer millis) hok (by simp) hs⟩

section Observed

/-! What the log of a step shows. -/

theorem returnsTo_silent {es : List Event} (h : ∀ e ∈ es, Silent e) (t : TcbPtr) :
    returnsTo t es = [] := by
  unfold returnsTo
  apply List.filterMap_eq_nil_iff.mpr
  intro e he
  cases e with
  | returned p call v => exact absurd rfl (h _ he p call v)
  | runqueueAdd u p slot => rfl
  | dispatch rq p u => rfl
  | signal d => rfl

theorem returnsTo_append (t : TcbPtr) (es es' : List Event) :
    returnsTo t (es ++ es') = returnsTo t es ++ returnsTo t es' := List.filterMap_append

theorem Replies.returnsTo {r : List Event} (h : Replies s r s') (t : TcbPtr) :
    returnsTo t (s.news s') = RtosKernel.returnsTo t r := by
  obtain ⟨es, hl, hs⟩ := h
  rw [news_eq (hl.trans (List.append_assoc ..).symm), returnsTo_append, returnsTo_silent hs,
    List.append_nil]

/-- A dispatched task only returns from its own call, and with 0. -/
theorem returnsTo_resumed (next : TcbPtr) (f : Frame) :
    (∀ v ∈ returnsTo t (resumed next f), v = 0) ∧
      (next ≠ t → returnsTo t (resumed next f) = []) := by
  have hmem : ∀ v ∈ returnsTo t (resumed next f), next = t ∧ v = 0 := by
    intro v hv
    obtain ⟨e, he, hev⟩ := List.mem_filterMap.mp hv
    cases e with
    | returned p call w =>
      obtain ⟨hp, hw⟩ := mem_resumed he
      dsimp only at hev
      split_ifs at hev with hpt
      cases hev
      exact ⟨Option.some.inj (hp.symm.trans hpt), hw⟩
    | runqueueAdd u p slot => cases hev
    | dispatch rq p u => cases hev
    | signal d => cases hev
  refine ⟨fun v hv => (hmem v hv).2, fun hne => ?_⟩
  apply List.eq_nil_iff_forall_not_mem.mpr
  intro v hv
  exact hne (hmem v hv).1

/-- Between `s` and `s₁` the tasks in `l`, and maybe `t`, were made ready in this order. -/
def Readies (t : TcbPtr) (s : KState) (l : List TcbPtr) (s₁ : KState) : Prop :=
  ∃ es, s₁.log = es ++ s.log ∧ readiedBy t es = l

theorem Readies.trans (h : Readies t s l s₁) (h' : Readies t s₁ l' s₂) :
    Readies t s (l ++ l') s₂ := by
  obtain ⟨es, hl, hr⟩ := h
  obtain ⟨es', hl', hr'⟩ := h'
  refine ⟨es' ++ es, by rw [hl', hl, List.append_assoc], ?_⟩
  unfold readiedBy at hr hr' ⊢
  rw [List.reverse_append, List.filterMap_append, hr, hr']

theorem Readies.of_log (h : s₁.log = s.log) : Readies t s [] s₁ := ⟨[], h, rfl⟩

theorem Readies.news (h : Readies t s l s₁) : readiedBy t (s.news s₁) = l := by
  obtain ⟨es, hl, hr⟩ := h
  rw [news_eq hl, hr]

theorem saveCur_readies (c : TcbPtr) (s : KState) : Readies c s [] (s.saveCur c) := by
  unfold saveCur
  split_ifs
  · exact ⟨[_], rfl, by simp [readiedBy]⟩
  · exact .of_log rfl

theorem mutexHandOver_readies (m : Nat) (s : KState) (hne : (s.gtMutex m).pSleepQueue ≠ some c) :
    Readies c s (s.gtMutex m).pSleepQueue.toList (s.mutexHandOver m c) := by
  unfold mutexHandOver
  cases hq : (s.gtMutex m).pSleepQueue with
  | none => exact .of_log rfl
  | some first =>
    have hfc : first ≠ c := fun he => hne (hq.trans (congrArg some he))
    exact ⟨[_], rfl, by simp [readiedBy, hfc]⟩

theorem resume_readies (next : TcbPtr) (s : KState) : Readies t s [] (s.resume next) := by
  unfold resume
  split
  · exact .of_log rfl
  · exact ⟨[_], rfl, rfl⟩
  · exact ⟨[_], rfl, rfl⟩
  · exact ⟨[_], rfl, rfl⟩
  · exact .of_log rfl

theorem switchTo_readies (s : KState) (next c : TcbPtr) (k : Frame) :
    Readies t s [] (s.switchTo next c k) := by
  have htake : Readies t s [] (s.takeSlot s.rq.highestPrio next) := ⟨[_], rfl, rfl⟩
  obtain ⟨es, hl, hr⟩ : Readies t _ [] (s.switchTo next c k) := resume_readies next _
  exact htake.trans ⟨es, hl, hr⟩

end Observed

/-- The line tells the queue, and what was served is what arrived first. -/
structure LineKept (m : Nat) (q : MutexLine) (a : Placement TcbPtr Place) : Prop where
  line : a.line (.mutex m) = q.queue
  order : q.arrived = q.readied ++ q.queue

theorem LineKept.same (h : LineKept m q a) (hline : b.line (.mutex m) = a.line (.mutex m)) :
    LineKept m q b := ⟨hline.trans h.line, h.order⟩

theorem LineKept.push (h : LineKept m q a) (hline : b.line (.mutex m) = a.line (.mutex m) ++ [t]) :
    LineKept m (q.push t) b where
  line := by
    rw [hline, h.line]
    rfl
  order := by
    show q.arrived ++ [t] = q.readied ++ (q.queue ++ [t])
    rw [h.order, List.append_assoc]

/-- A successful unlock readies the head of the line, if there is one. -/
theorem LineKept.pop (h : LineKept m q a) (hline : b.line (.mutex m) = (a.line (.mutex m)).tail) :
    LineKept m (q.pop (a.line (.mutex m)).head?.toList) b where
  line := by
    rw [hline, h.line]
    rfl
  order := by
    show q.arrived = q.readied ++ (a.line (.mutex m)).head?.toList ++ q.queue.tail
    rw [h.line, h.order, List.append_assoc]
    cases q.queue <;> rfl

/-- A step that answers no lock or unlock of `m` leaves the line. -/
theorem after_refused {call : Call} {v : Int} (hcur : s.curTcb = some c) (hv : v ≠ 0)
    (hnews : returnsTo c (s.news s₁) = [v]) : q.after m s (.call call) s₁ = q := by
  cases call with
  | mutexLock mutex =>
    unfold MutexLine.after
    simp [hcur, hnews]
  | mutexUnlock mutex =>
    unfold MutexLine.after
    simp [hcur, hnews, hv]
  | mutexCreate => rfl
  | eventWait d => rfl
  | taskCreate tasks n => rfl

/-- A blocking `mutex_lock` puts the caller at the end of the line of that mutex. -/
theorem LineKept.lockBlock {i : Nat} (h : LineKept m q a) (hcur : s.curTcb = some c)
    (hc : a.place c = .running) (hn : a.place next = .ready) (hq : s.mutexEnqueue i c = .ok s₁) :
    LineKept m (q.after m s (.call (.mutexLock i)) (s₁.switchTo next c (.mutexLock i)))
      ((a.move c (.mutex i)).move next .running) := by
  have hr := (mutexEnqueue_replies hq).trans (switchTo_replies s₁ next c (.mutexLock i))
  -- the caller has not returned
  have hnews := hr.returnsTo c
  rw [(returnsTo_resumed next _).2 (ready_ne hc hn)] at hnews
  unfold MutexLine.after
  simp only [hcur, hnews, and_true]
  split_ifs with him
  · have him' : i = m := Int.natCast_inj.mp him
    subst him'
    apply h.push
    exact line_block_self hc hn (by simp) (by simp)
  · have hne : m ≠ i := fun he => him (by rw [he])
    apply h.same
    exact line_block_of_ne hc hn (by simp) (by simp) (by simpa using hne)

/-- A `mutex_unlock` by the recorded owner serves the head of the line of that mutex. `b` is the
placement after the release. -/
theorem LineKept.unlock {i : Nat} (h : LineKept m q a) (hl : Located K a s)
    (hcur : s.curTcb = some c)
    (hb : ((s.gtMutex i).pSleepQueue = none ∧ b = a) ∨
      ∃ first, (s.gtMutex i).pSleepQueue = some first ∧ a.place first = .mutex i ∧
        b = a.move first .ready)
    (hcb : b.place c = .running) (hn : b.place next = .ready ∨ next = c) :
    LineKept m (q.after m s (.call (.mutexUnlock i))
        (((s.mutexHandOver i c).saveCur c).switchTo next c (.mutexUnlock i)))
      ((b.move c .ready).move next .running) := by
  have hcr : a.place c = .running := (hl.running c).mpr hcur
  have hr := ((mutexHandOver_replies i c s).trans (saveCur_replies c _)).trans
    (switchTo_replies _ next c (.mutexUnlock i))
  have hzero := (returnsTo_resumed (t := c) next (if next = c then .mutexUnlock i else
    ((s.mutexHandOver i c).saveCur c).frames next)).1
  rw [← hr.returnsTo c] at hzero
  have hsleep : (s.gtMutex i).pSleepQueue ≠ some c := by
    intro he
    rcases hb with ⟨hnone, _⟩ | ⟨first, hfirst, hplace, _⟩
    · cases he.symm.trans hnone
    · cases he.symm.trans hfirst
      rw [hcr] at hplace
      cases hplace
  have hready := ((mutexHandOver_readies i s hsleep).trans (saveCur_readies c _)).trans
    (switchTo_readies _ next c (.mutexUnlock i))
  rw [List.append_nil, List.append_nil] at hready
  have hlast : ((b.move c .ready).move next .running).line (.mutex m) = b.line (.mutex m) :=
    line_switch hcb hn (by simp) (by simp)
  unfold MutexLine.after
  simp only [hcur, hready.news]
  by_cases him : i = m
  · subst him
    rw [if_pos ⟨rfl, hzero⟩]
    have hhead : (s.gtMutex i).pSleepQueue = (a.line (.mutex i)).head? := (hl.mutex i).head_eq
    rw [hhead]
    apply h.pop
    rw [hlast]
    rcases hb with ⟨hnone, rfl⟩ | ⟨first, hfirst, hplace, rfl⟩
    · rw [hnone] at hhead
      rw [List.head?_eq_none_iff.mp hhead.symm]
      rfl
    · obtain ⟨rest, hline⟩ : ∃ rest, a.line (.mutex i) = first :: rest := by
        rw [hfirst] at hhead
        exact List.head?_eq_some_iff.mp hhead.symm
      rw [Placement.line_move_head hline (by simp), hline]
      rfl
  · rw [if_neg fun hb' => him (Int.natCast_inj.mp hb'.1)]
    apply h.same
    rw [hlast]
    rcases hb with ⟨_, rfl⟩ | ⟨first, _, hplace, rfl⟩
    · rfl
    · apply Placement.line_move_of_ne _ (by simp)
      rw [hplace]
      simpa using him

theorem LineKept.entry (h : LineKept m q a) (hl : Located K a s) (hs : Scheduled K s c)
    (hop : sameSet s op) (hc : ∀ call, op = .call call → c ≠ idleTcb) (he : Entry s op s₁) :
    ∃ a', Located K a' s₁ ∧ LineKept m (q.after m s op s₁) a' := by
  have hcr : a.place c = .running := (hl.running c).mpr hs.cur
  cases he with
  | refuse call v hv =>
    have hnews : returnsTo c (s.news (s.ret call v)) = [v] := by
      rw [(Replies.ret call v).returnsTo, hs.cur]
      simp [returnsTo]
    rw [after_refused hs.cur (Int.ne_of_lt hv) hnews]
    exact ⟨a, hl.ret call v, h⟩
  | create i _ _ =>
    exact ⟨a, (hl.takeMutex i).ret _ _, h⟩
  | acquire i t _ ht _ =>
    cases hs.eq_cur ht
    refine ⟨a, hl.acquire i c, ?_⟩
    have hnews : returnsTo c (s.news ((s.setMutex i fun x =>
        { x with bLock := true }).mutexLockTail i c)) = [0] := by
      have hlog : ((s.setMutex i fun x => { x with bLock := true }).mutexLockTail i c).log =
          [.returned s.curTcb (.mutexLock i) 0] ++ s.log := rfl
      rw [news_eq hlog, hs.cur]
      simp [returnsTo]
    unfold MutexLine.after
    simp only [hs.cur, hnews, reduceCtorEq, and_false, if_false]
    exact h
  | lockBlock i t next s₂ hi ht _ _ hq hp =>
    cases hs.eq_cur ht
    obtain ⟨hn, hl'⟩ := hl.lockBlock hs (hc _ rfl) hi hq hp
    exact ⟨_, hl', h.lockBlock hs.cur hcr hn hq⟩
  | unlock i t next s₂ _ ht _ _ hs₂ hp =>
    cases hs.eq_cur ht
    subst hs₂
    obtain ⟨b, hb, hcb, hn, hl'⟩ := hl.unlock hs (hc _ rfl) hp
    exact ⟨_, hl', h.unlock hl hs.cur hb hcb hn⟩
  | waitBlock d t next s₂ _ ht _ hq hp =>
    cases hs.eq_cur ht
    obtain ⟨hn, hl'⟩ := hl.waitBlock hs (hc _ rfl) hop hq hp
    refine ⟨_, hl', h.same ?_⟩
    exact line_block_of_ne hcr hn (by simp) (by simp) (by simp)
  | newSet tasks n _ _ _ _ _ _ => exact absurd hop id
  | tick millis s₂ hw => exact ⟨a, (hl.tick hs hw).1, h⟩
  | wake millis t next s₂ s₃ hw ht hs₃ hp =>
    cases (hs.toDispatchable.devWake hw).1.eq_cur ht
    subst hs₃
    obtain ⟨b, hwoken, hcb, hn, _, hl'⟩ := hl.wake hs hw hp
    refine ⟨_, hl', h.same ?_⟩
    rw [line_switch hcb hn (by simp) (by simp)]
    exact hwoken.mutex m

theorem LineRun.kept (h : LineRun n m q s) :
    ∃ a c, Scheduled (IsTask n) s c ∧ Located (IsTask n) a s ∧ LineKept m q a := by
  induction h with
  | @start s s' tasks regs hboot hc =>
    have hb := Booted.of_boot hboot
    obtain ⟨a, c, hs, hl⟩ := hb.located hc
    refine ⟨a, c, hs, hl, ⟨?_, rfl⟩⟩
    have hchain := hl.mutex m
    have hnone : (s'.gtMutex m).pSleepQueue = none := by
      obtain ⟨mem, next, s₁, _, hn, rfl, _, _, rfl⟩ := hc.fresh
      have hi := installTasks_installed mem.slot n hn (s.interrupt regs)
      exact (congrArg (fun g => (g m).pSleepQueue) hi.mutex).trans (hb.mutex m).2.2
    rw [hnone] at hchain
    exact hchain.eq_nil
  | @step q s s' hr regs op hok hidle hstep ih =>
    obtain ⟨a, c, hs, hl, hk⟩ := ih
    have hst : Step sameSet s s' := by
      cases op with
      | call call => exact .call regs call hok (hidle call rfl) hstep
      | timer millis => exact .timer regs millis hok hstep
    obtain ⟨c', hs'⟩ := hs.step_sameSet hst
    obtain ⟨s₁, he, rfl⟩ := step_entry hstep fun hb => absurd (hs.cur.symm.trans hb) (by simp)
    obtain ⟨a', hl', hk'⟩ := hk.entry (hl.interrupt regs) (hs.interrupt regs) hok
      (hs.caller hidle) he
    exact ⟨a', c', hs', hl'.enableInterrupts, hk'⟩

/-- An operation of a task on mutex `m`. -/
def OnMutex (m : Nat) : Op → Prop
  | .call (.mutexLock mutex) => mutex = m
  | .call (.mutexUnlock mutex) => mutex = m
  | _ => False

theorem after_elsewhere (h : ¬ OnMutex m op) : q.after m s op s' = q := by
  unfold MutexLine.after
  split
  · exact if_neg fun hb => h hb.1
  · exact if_neg fun hb => h hb.1
  · rfl

theorem LineRun.chain (h : LineRun n m q s) :
    IntrusiveChain s.mutexLink (s.gtMutex m).pSleepQueue q.queue := by
  obtain ⟨a, c, _, hl, hk⟩ := h.kept
  rw [← hk.line]
  exact hl.mutex m

/-- The queue of a mutex is the abstract one in every run, its unlocks ready the tasks that
blocked on it in the order in which they blocked, and no other operation touches it. -/
theorem mutexFifo (h : LineRun n m q s) :
    IntrusiveChain s.mutexLink (s.gtMutex m).pSleepQueue q.queue ∧
    q.arrived = q.readied ++ q.queue ∧
    ∀ regs op s', sameSet s op → (∀ call, op = .call call → s.curTcb ≠ some idleTcb) →
      s.step regs op = .ok s' → ¬ OnMutex m op →
      IntrusiveChain s'.mutexLink (s'.gtMutex m).pSleepQueue q.queue := by
  obtain ⟨a, c, _, hl, hk⟩ := h.kept
  refine ⟨h.chain, hk.order, fun regs op s' hok hidle hstep hno => ?_⟩
  have hchain := (h.step regs op hok hidle hstep).chain
  rw [after_elsewhere hno] at hchain
  exact hchain

/-- Run a list of operations, with the line of `m`. -/
def runLine (m : Nat) (regs : SchedContext) :
    List Op → MutexLine → KState → Option (MutexLine × KState)
  | [], q, s => some (q, s)
  | .call c :: ops, q, s =>
    if sameSet s (.call c) ∧ s.curTcb ≠ some idleTcb then
      match s.step regs (.call c) with
      | .ok s' => runLine m regs ops (q.after m s (.call c) s') s'
      | .error _ => none
    else none
  | .timer millis :: ops, q, s =>
    match s.step regs (.timer millis) with
    | .ok s' => runLine m regs ops (q.after m s (.timer millis) s') s'
    | .error _ => none

theorem runLine_run {regs : SchedContext} {ops : List Op} {q' : MutexLine}
    (h : runLine m regs ops q s = some (q', s')) (hr : LineRun n m q s) : LineRun n m q' s' := by
  induction ops generalizing q s with
  | nil =>
    cases h
    exact hr
  | cons op ops ih =>
    cases op with
    | call c =>
      rw [runLine] at h
      split_ifs at h with hok
      split at h
      · rename_i s₁ hst
        exact ih h (hr.step regs (.call c) hok.1 (fun _ _ => hok.2) hst)
      · cases h
    | timer millis =>
      rw [runLine] at h
      split at h
      · rename_i s₁ hst
        exact ih h (hr.step regs (.timer millis) trivial (by simp) hst)
      · cases h

/-- Tasks 2 and 3 have blocked on mutex 0 and an unlock has readied task 2. -/
theorem mutexFifo_twoWaiters : ∃ s, LineRun 3 0 ⟨[3], [2, 3], [2]⟩ s ∧
    IntrusiveChain s.mutexLink (s.gtMutex 0).pSleepQueue [3] := by
  have hx : (execute bootOp zeroContext [.call .mutexCreate, .call .mutexCreate] boot).map
      (fun s => (createSet zeroContext sampleTasks 3 s).map fun s' =>
        (runLine 0 zeroContext [.call (.mutexLock 0), .call (.mutexLock 1),
          .call (.mutexUnlock 1), .call (.mutexUnlock 1), .call (.eventWait 0),
          .call (.mutexLock 0), .call (.mutexLock 0), .timer 100, .call (.mutexUnlock 0)]
          ⟨[], [], []⟩ s').map Prod.fst) = some (some (some ⟨[3], [2, 3], [2]⟩)) := by
    decide +kernel
  obtain ⟨s, hs, hv⟩ := Option.map_eq_some_iff.mp hx
  obtain ⟨s', hs', hv'⟩ := Option.map_eq_some_iff.mp hv
  obtain ⟨⟨q, s₁⟩, hr, rfl⟩ := Option.map_eq_some_iff.mp hv'
  have hstart : LineRun 3 0 ⟨[], [], []⟩ s' :=
    .start sampleTasks zeroContext (execute_steps hs) (createSet_creates hs')
  have hrun := runLine_run hr hstart
  exact ⟨s₁, hrun, (mutexFifo hrun).1⟩

end KState

end RtosKernel
