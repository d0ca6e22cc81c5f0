import RtosKernel.Queues.OnePlace

namespace RtosKernel.KState

variable {K : TcbPtr → Prop} {a a' : Placement TcbPtr Place} {s s' s₁ : KState}
  {c t next : TcbPtr} {n m d : Nat} {op : Op}

section Progress

/-! No loop of a running set goes on forever, so every kernel entry ends. -/

theorem Placed.mutexEnqueue_total (h : Placed K a s) (hc : a.place c = .running) :
    ∃ s₁, s.mutexEnqueue m c = .ok s₁ := by
  have hoff : c ∉ a.line (.mutex m) := h.notMem (by rw [hc]; simp)
  have hchain : IntrusiveChain (s.markWaiting c).mutexLink (s.gtMutex m).pSleepQueue
      (a.line (.mutex m)) := by
    rw [mutexLink_markWaiting]
    exact (h.mutex m).update_of_notMem hoff none
  have hq : ((s.markWaiting c).gtMutex m).pSleepQueue = (s.gtMutex m).pSleepQueue := rfl
  unfold KState.mutexEnqueue
  rw [hq]
  cases hs : (s.gtMutex m).pSleepQueue with
  | none => exact ⟨_, rfl⟩
  | some head =>
    rw [hs] at hchain
    have hne : a.line (.mutex m) ≠ [] := by
      intro hnil
      rw [hnil] at hchain
      cases hchain
    have htail := hchain.tailSearch_eq hne osMaxTasks (h.line_length m)
    exact ⟨_, by simp only [htail]; rfl⟩

theorem Placed.devEnqueue_total (h : Placed K a s) : ∃ s₁, s.devEnqueue d c = .ok s₁ := by
  have hchain := h.device d
  unfold KState.devEnqueue
  cases hs : (s.devices d).sleepQ with
  | none => exact ⟨_, rfl⟩
  | some head =>
    rw [hs] at hchain
    have hne : a.line (.device d) ≠ [] := by
      intro hnil
      rw [hnil] at hchain
      cases hchain
    have htail := hchain.tailSearch_eq hne osMaxTasks (h.devLine_length d)
    exact ⟨_, by simp only [htail]; rfl⟩

theorem Dispatchable.dispatchSleep_total (h : Dispatchable K s c) (hc : c ≠ idleTcb) (k : Frame) :
    ∃ s₁, s.dispatchSleep k = .ok s₁ := by
  obtain ⟨next, hp⟩ := h.idle_picks hc
  exact ⟨_, dispatchSleep_eq h.cur hp⟩

theorem Dispatchable.dispatchSave_total (h : Dispatchable K s c) (k : Frame) :
    ∃ s₁, s.dispatchSave k = .ok s₁ := by
  obtain ⟨next, hp⟩ := h.saveCur_picks
  rw [dispatchSave_eq_sleep h.cur]
  exact ⟨_, dispatchSleep_eq ((saveCur_curTcb s c).trans h.cur) hp⟩

theorem Placed.devUpdate_total (h : Placed K a s) (hs : Scheduled K s c) (millis : Nat) :
    ∃ s₁, s.devUpdate millis = .ok s₁ := by
  have hd : Dispatchable K s.disableInterrupts c := { hs.toDispatchable with }
  have hp : Placed K a s.disableInterrupts := { h with }
  obtain ⟨r, hr, hwk⟩ := hp.devWake hd millis
  unfold KState.devUpdate
  rw [hr]
  dsimp only
  split_ifs
  · exact hwk.dispatchable.dispatchSave_total _
  · exact ⟨_, rfl⟩

private theorem Placed.mutexLock_total (h : Placed K a s) (hs : Scheduled K s c)
    (hrun : a.place c = .running) (hc : c ≠ idleTcb) (mutex : Int) :
    ∃ s₁, s.mutexLock mutex = .ok s₁ := by
  have hd : Dispatchable K s.disableInterrupts c := { hs.toDispatchable with }
  have hp : Placed K a s.disableInterrupts := { h with }
  obtain ⟨s₁, hq⟩ := hp.mutexEnqueue_total (m := mutex.toNat) hrun
  obtain ⟨s₂, hs₂⟩ := (hd.mutexEnqueue hc hq).dispatchSleep_total hc (.mutexLock mutex.toNat)
  simp only [KState.mutexLock, hd.cur, hq, hs₂]
  split_ifs <;> exact ⟨_, rfl⟩

private theorem Scheduled.mutexUnlock_total (hs : Scheduled K s c) (hc : c ≠ idleTcb)
    (mutex : Int) : ∃ s₁, s.mutexUnlock mutex = .ok s₁ := by
  have hd : Dispatchable K s.disableInterrupts c := { hs.toDispatchable with }
  obtain ⟨s₁, hs₁⟩ := (hd.mutexHandOver (m := mutex.toNat) hc).dispatchSave_total
    (.mutexUnlock mutex.toNat)
  simp only [KState.mutexUnlock, hd.cur, hs₁]
  split_ifs <;> exact ⟨_, rfl⟩

private theorem Placed.eventWait_total (h : Placed K a s) (hs : Scheduled K s c)
    (hc : c ≠ idleTcb) (dev : Nat) : ∃ s₁, s.eventWait dev = .ok s₁ := by
  have hd : Dispatchable K s.disableInterrupts c := { hs.toDispatchable with }
  have hp : Placed K a s.disableInterrupts := { h with }
  obtain ⟨s₁, hq⟩ := hp.devEnqueue_total (d := dev) (c := c)
  obtain ⟨s₂, hs₂⟩ := (hd.devEnqueue hc hq).dispatchSleep_total hc (.devWait dev)
  simp only [KState.eventWait, KState.devWait, hd.cur, hq, hs₂]
  split_ifs <;> exact ⟨_, rfl⟩

theorem Placed.step_total (h : Placed K a s) (hs : Scheduled K s c) (hrun : a.place c = .running)
    (hop : sameSet s op) (hidle : ∀ call, op = .call call → s.curTcb ≠ some idleTcb)
    (regs : SchedContext) : ∃ s', s.step regs op = .ok s' := by
  have finish {r : Except Fault KState} (hr : ∃ s₁, r = .ok s₁) :
      ∃ s', r.map KState.enableInterrupts = .ok s' := by
    obtain ⟨s₁, rfl⟩ := hr
    exact ⟨_, rfl⟩
  have hi : Placed K a (s.interrupt regs) := { h with }
  have ht : Placed K a (s.trap regs) := { h with }
  have hst : Scheduled K (s.trap regs) c := { hs with }
  cases op with
  | timer millis => exact finish (hi.devUpdate_total (hs.interrupt regs) millis)
  | call call =>
    have hc := hs.caller hidle call rfl
    apply finish
    cases call with
    | mutexCreate => exact ⟨_, rfl⟩
    | mutexLock mutex => exact ht.mutexLock_total hst hrun hc mutex
    | mutexUnlock mutex => exact hst.mutexUnlock_total hc mutex
    | eventWait dev => exact ht.eventWait_total hst hc dev
    | taskCreate tasks n => exact absurd hop id

theorem Located.step_total (h : Located K a s) (hs : Scheduled K s c) (hop : sameSet s op)
    (hidle : ∀ call, op = .call call → s.curTcb ≠ some idleTcb) (regs : SchedContext) :
    ∃ s', s.step regs op = .ok s' :=
  h.toPlaced.step_total hs ((h.running c).mpr hs.cur) hop hidle regs

end Progress

/-- `t` is in the sleep queue of device `d`. -/
def Asleep (s : KState) (t : TcbPtr) (d : Nat) : Prop := s.At t (.sleepQ d)

/-- `t` runs, or waits for the processor in the slot of its native priority. -/
def Awake (s : KState) (t : TcbPtr) : Prop :=
  s.curTcb = some t ∨ s.rq.runList (s.systemTcb t).nativePrio = some t

/-- Between `s` and `s'` no call of `t` has returned. -/
def NoReturn (t : TcbPtr) (s s' : KState) : Prop :=
  ∃ l, s'.log = l ++ s.log ∧ ∀ call v, .returned (some t) call v ∉ l

theorem NoReturn.trans {s₂ : KState} (h : NoReturn t s s') (h' : NoReturn t s' s₂) :
    NoReturn t s s₂ := by
  obtain ⟨l, hl, hn⟩ := h
  obtain ⟨l', hl', hn'⟩ := h'
  refine ⟨l' ++ l, by rw [hl', hl, List.append_assoc], ?_⟩
  intro call v hm
  exact (List.mem_append.mp hm).elim (hn' call v) (hn call v)

/-- What one kernel entry does for the sleepers of the devices. -/
structure WakesOnlyDue (regs : SchedContext) (s : KState) (op : Op) (s' : KState) : Prop where
  /-- `event_wait` is refused or puts the caller to sleep. -/
  waits : ∀ t d, op = .call (.eventWait d) → s.curTcb = some t → s'.Asleep t d ∨
    ∃ v, v < 0 ∧ s'.log = .returned (some t) (.eventWait d) v :: s.log
  /-- Whoever sleeps on a device that is not due sleeps on. -/
  asleep : ∀ t d, s.Asleep t d → ¬ Due s op d → s'.Asleep t d ∧ NoReturn t s s'
  /-- `dev_update` puts every sleeper of a due device in the slot of its native priority. -/
  awake : ∀ d millis, op = .timer millis → Due s op d →
    (s'.devices d).sleepQ = none ∧
    ∃ w flag, (s.interrupt regs).devWake millis = .ok (w, flag) ∧
      ∀ t, s.Asleep t d → w.rq.runList (s.systemTcb t).nativePrio = some t ∧ s'.Awake t
  /-- and leaves the queues of the others as they are. -/
  others : ∀ d millis, op = .timer millis → ¬ Due s op d →
    (s'.devices d).sleepQ = (s.devices d).sleepQ ∧
    ∀ l, IntrusiveChain s'.sleepLink (s'.devices d).sleepQ l ↔
      IntrusiveChain s.sleepLink (s.devices d).sleepQ l

theorem Located.wakesOnlyDue {regs : SchedContext} (h : Located K a s) (hs : Scheduled K s c)
    (hop : sameSet s op) (hidle : ∀ call, op = .call call → s.curTcb ≠ some idleTcb)
    (hst : s.step regs op = .ok s') : WakesOnlyDue regs s op s' := by
  obtain ⟨s₁, he, rfl⟩ := step_entry hst (fun hn => by rw [hs.cur] at hn; cases hn)
  obtain ⟨a', hl, hlaw⟩ := (h.interrupt regs).entry (hs.interrupt regs) hop (hs.caller hidle) he
  have hl' : Located K a' s₁.enableInterrupts := hl.enableInterrupts
  have hold : ∀ e, Due (s.interrupt regs) op e ↔ Due s op e := fun _ => Iff.rfl
  refine ⟨?_, ?_, ?_, ?_⟩
  · intro t d hwait hc
    exact (hlaw.waits t d hwait hc).imp_left (hl'.at_sleepQ t d).mpr
  · intro t d hsl hdue
    have hp := (h.at_sleepQ t d).mp hsl
    have hmem : t ∈ a'.line (.device d) := (hlaw.kept d hdue).subset ((a.mem_line _ _).mpr hp)
    have hp' := (a'.mem_line _ _).mp hmem
    refine ⟨(hl'.at_sleepQ t d).mpr hp', ?_⟩
    obtain ⟨r, ⟨l, hlog, hsilent⟩, hret⟩ := he.replies
    refine ⟨r ++ l, ?_, ?_⟩
    · rw [List.append_assoc]
      exact hlog
    · intro call v hm
      rcases List.mem_append.mp hm with hm | hm
      · rcases hret _ _ _ hm with hcur | hcur
        · rw [(h.running t).mpr hcur.symm] at hp
          cases hp
        · rw [(hl.running t).mpr hcur.symm] at hp'
          cases hp'
      · exact hsilent _ hm _ _ _ rfl
  · intro d millis hm hdue
    subst hm
    have hdev := hl'.device d
    rw [hlaw.empty d hdue] at hdev
    refine ⟨hdev, ?_⟩
    have hplaced := (h.interrupt regs).toPlaced
    obtain ⟨⟨w, flag⟩, hw, hwk⟩ := hplaced.devWake (hs.interrupt regs).toDispatchable millis
    obtain ⟨b, hb, hwoken, _⟩ := hwk.placed
    refine ⟨w, flag, hw, ?_⟩
    intro t hsl
    have hp := (h.at_sleepQ t d).mp hsl
    have hk : K t := h.known (by rw [hp]; simp)
    obtain ⟨hlt, _, heq, hle⟩ := hdue
    cases heq
    constructor
    · rw [hs.native t hk]
      exact (hb.ready t).mp (hwoken.woken t d ⟨hlt, hle⟩ hp)
    · obtain ⟨c', hs'⟩ := (hs.interrupt regs).entry (by simp) (by simp) he
      rcases hlaw.woken t d ⟨hlt, _, rfl, hle⟩ hp with hr | hr
      · right
        change s₁.rq.runList (s₁.systemTcb t).nativePrio = some t
        rw [hs'.native t hk]
        exact (hl.ready t).mp hr
      · exact Or.inl ((hl.running t).mp hr)
  · intro d millis hm hdue
    have hdev := hl'.device d
    rw [hlaw.timer millis d hm hdue] at hdev
    refine ⟨hdev.head_eq.trans (h.device d).head_eq.symm, fun l => ?_⟩
    constructor
    · intro hc
      rw [hc.unique hdev]
      exact h.device d
    · intro hc
      rw [hc.unique (h.device d)]
      exact hdev

/-- A step of the running set at which device `d` is not due. -/
def QuietStep (d : Nat) (s s' : KState) : Prop :=
  ∃ regs op, sameSet s op ∧ (∀ call, op = .call call → s.curTcb ≠ some idleTcb) ∧
    ¬ Due s op d ∧ s.step regs op = .ok s'

theorem QuietStep.step (h : QuietStep d s s') : Step sameSet s s' := by
  obtain ⟨regs, op, hop, hidle, _, hst⟩ := h
  cases op with
  | call call => exact .call regs call hop (hidle call rfl) hst
  | timer millis => exact .timer regs millis hop hst

/-- A sleeper sleeps until its device is due. -/
theorem Run.asleep_until_due (h : Run sameSet n s) (ht : s.Asleep t d)
    (hq : Relation.ReflTransGen (QuietStep d) s s') :
    Run sameSet n s' ∧ s'.Asleep t d ∧ NoReturn t s s' := by
  induction hq with
  | refl => exact ⟨h, ht, [], rfl, by simp⟩
  | tail _ hst ih =>
    obtain ⟨hr, hsl, hno⟩ := ih
    obtain ⟨a, c, hs, hl⟩ := hr.located
    have hnext := Run.step hr hst.step
    obtain ⟨regs, op, hop, hidle, hdue, hstep⟩ := hst
    obtain ⟨hsl', hno'⟩ := (hl.wakesOnlyDue hs hop hidle hstep).asleep t d hsl hdue
    exact ⟨hnext, hsl', hno.trans hno'⟩

/-- Sleepers are woken by their device, as soon as it is due and not before. -/
theorem devicesWakeSleepers (h : Run sameSet n s) :
    (∀ regs op s', sameSet s op → (∀ call, op = .call call → s.curTcb ≠ some idleTcb) →
      s.step regs op = .ok s' → WakesOnlyDue regs s op s') ∧
    ∀ t d s', s.Asleep t d → Relation.ReflTransGen (QuietStep d) s s' →
      s'.Asleep t d ∧ NoReturn t s s' ∧
      ∀ regs millis, (s'.devices d).nextMatch ≤ millis →
        ∃ s'', s'.step regs (.timer millis) = .ok s'' ∧ s''.Awake t := by
  constructor
  · intro regs op s' hop hidle hst
    obtain ⟨a, c, hs, hl⟩ := h.located
    exact hl.wakesOnlyDue hs hop hidle hst
  · intro t d s' ht hq
    obtain ⟨hr, hsl, hno⟩ := h.asleep_until_due ht hq
    refine ⟨hsl, hno, fun regs millis hle => ?_⟩
    obtain ⟨a, c, hs, hl⟩ := hr.located
    have hop : sameSet s' (.timer millis) := trivial
    obtain ⟨s'', hst⟩ := hl.step_total hs hop (by simp) regs
    have hdue : Due s' (.timer millis) d := ⟨hsl.1, millis, rfl, hle⟩
    obtain ⟨_, w, flag, _, hw⟩ := (hl.wakesOnlyDue hs hop (by simp) hst).awake d millis rfl hdue
    exact ⟨s'', hst, (hw t hsl).2⟩

theorem devicesWakeSleepers_first : ∃ s s', Run sameSet 2 s ∧ s.Asleep 1 0 ∧
    s.step zeroContext (.timer 100) = .ok s' ∧ s'.Awake 1 := by
  have hx : ((startSet zeroContext 0 sampleTasks 2).bind (execute sameSet zeroContext
      [.call (.eventWait 0)])).map
        (fun s => ((s.devices 0).sleepQ, s.sleepLink 1, (s.devices 0).nextMatch)) =
      some (some 1, none, 100) := by decide +kernel
  obtain ⟨s, hs, hv⟩ := Option.map_eq_some_iff.mp hx
  simp only [Prod.mk.injEq] at hv
  have hsl : s.Asleep 1 0 := ⟨by decide, [1], ⟨hv.1, hv.2.1⟩, by simp⟩
  obtain ⟨_, _, hdue⟩ := (devicesWakeSleepers (execute_run hs)).2 1 0 s hsl .refl
  obtain ⟨s', hst, haw⟩ := hdue zeroContext 100 (by rw [hv.2.2])
  exact ⟨s, s', execute_run hs, hsl, hst, haw⟩

end RtosKernel.KState
