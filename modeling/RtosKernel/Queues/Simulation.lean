import RtosKernel.Queues.Waking
import RtosKernel.Scheduling.Runs

namespace RtosKernel.KState

variable {K : TcbPtr → Prop} {a a' : Placement TcbPtr Place} {s s' s₁ : KState}
  {c t next : TcbPtr} {n : Nat} {k : Frame}

/-- Device `d` is due at `op`: a timer interrupt has reached its match value. -/
def Due (s : KState) (op : Op) (d : Nat) : Prop :=
  d < numDevices ∧ ∃ millis, op = .timer millis ∧ (s.devices d).nextMatch ≤ millis

/-- What a kernel entry from `s` to `s₁` may do to the sleepers of the devices. -/
structure DeviceLaw (s : KState) (op : Op) (s₁ : KState) (a a' : Placement TcbPtr Place) :
    Prop where
  woken : ∀ t d, Due s op d → a.place t = .device d →
    a'.place t = .ready ∨ a'.place t = .running
  empty : ∀ d, Due s op d → a'.line (.device d) = []
  kept : ∀ d, ¬ Due s op d → a.line (.device d) <+: a'.line (.device d)
  timer : ∀ millis d, op = .timer millis → ¬ Due s op d →
    a'.line (.device d) = a.line (.device d)
  waits : ∀ t d, op = .call (.eventWait d) → s.curTcb = some t →
    a'.place t = .device d ∨ ∃ v, v < 0 ∧ s₁.log = .returned (some t) (.eventWait d) v :: s.log

theorem not_due_call (s : KState) (call : Call) (d : Nat) : ¬ Due s (.call call) d := by
  rintro ⟨_, millis, h, _⟩
  cases h

theorem DeviceLaw.of_call {call : Call} (h : ∀ d, a.line (.device d) <+: a'.line (.device d))
    (hw : ∀ t d, call = .eventWait d → s.curTcb = some t → a'.place t = .device d ∨
      ∃ v, v < 0 ∧ s₁.log = .returned (some t) (.eventWait d) v :: s.log) :
    DeviceLaw s (.call call) s₁ a a' where
  woken := fun _ d hd => absurd hd (not_due_call s call d)
  empty := fun d hd => absurd hd (not_due_call s call d)
  kept := fun d _ => h d
  timer := by simp
  waits := by
    intro t d hop hc
    cases hop
    exact hw t d rfl hc

/-- A switch between running and ready tasks does not touch the waiting lines. -/
theorem line_switch (hc : a.place c = .running) (hn : a.place next = .ready ∨ next = c)
    {p : Place} (hr : p ≠ .running) (hy : p ≠ .ready) :
    ((a.move c .ready).move next .running).line p = a.line p := by
  have hnext : (a.move c .ready).place next = .ready := by
    rw [Placement.place_move]
    split_ifs with h
    · rfl
    · exact hn.resolve_right h
  rw [Placement.line_move_of_ne (by rw [hnext]; exact hy.symm) hr,
    Placement.line_move_of_ne (by rw [hc]; exact hr.symm) hy]

/-- A ready task is not the running one. -/
theorem ready_ne (hc : a.place c = .running) (hn : a.place next = .ready) : next ≠ c := by
  intro he
  rw [he, hc] at hn
  cases hn

section Block

variable {p q : Place}

/-- The dispatch after a task has left for `p` takes `next` out of no waiting line. -/
private theorem line_dispatch (hc : a.place c = .running) (hn : a.place next = .ready)
    (hr : q ≠ .running) (hy : q ≠ .ready) :
    ((a.move c p).move next .running).line q = (a.move c p).line q := by
  apply Placement.line_move_of_ne _ hr
  rw [Placement.place_move_of_ne (ready_ne hc hn), hn]
  exact hy.symm

/-- A task that blocks goes to the end of its line. -/
theorem line_block_self (hc : a.place c = .running) (hn : a.place next = .ready)
    (hr : p ≠ .running) (hy : p ≠ .ready) :
    ((a.move c p).move next .running).line p = a.line p ++ [c] := by
  rw [line_dispatch hc hn hr hy, Placement.line_move_to (by rw [hc]; exact hr.symm)]

/-- The other waiting lines stay. -/
theorem line_block_of_ne (hc : a.place c = .running) (hn : a.place next = .ready)
    (hr : q ≠ .running) (hy : q ≠ .ready) (hq : q ≠ p) :
    ((a.move c p).move next .running).line q = a.line q := by
  rw [line_dispatch hc hn hr hy, Placement.line_move_of_ne (by rw [hc]; exact hr.symm) hq]

end Block

theorem DeviceLaw.of_woken {millis : Nat} {b : Placement TcbPtr Place}
    (hw : Woken (fun d => d < numDevices ∧ (s.devices d).nextMatch ≤ millis) a b)
    (hline : ∀ d, a'.line (.device d) = b.line (.device d))
    (hplace : ∀ t, b.place t = .ready → a'.place t = .ready ∨ a'.place t = .running) :
    DeviceLaw s (.timer millis) s₁ a a' := by
  have hdue (d : Nat) : Due s (.timer millis) d ↔
      d < numDevices ∧ (s.devices d).nextMatch ≤ millis := by
    constructor
    · rintro ⟨hd, _, heq, hle⟩
      cases heq
      exact ⟨hd, hle⟩
    · rintro ⟨hd, hle⟩
      exact ⟨hd, millis, rfl, hle⟩
  have hkeep (d : Nat) (hd : ¬ Due s (.timer millis) d) :
      a'.line (.device d) = a.line (.device d) := by
    rw [hline, hw.line d fun hb => hd ((hdue d).mpr hb)]
  refine ⟨?_, ?_, ?_, fun _ d _ hd => hkeep d hd, by simp⟩
  · intro t d hd ht
    exact hplace t (hw.woken t d ((hdue d).mp hd) ht)
  · intro d hd
    rw [hline]
    exact hw.empty d ((hdue d).mp hd)
  · intro d hd
    rw [hkeep d hd]

namespace Located

theorem of_same (h : Located K a s) (hp : Placed K a s₁) (hcur : s₁.curTcb = s.curTcb)
    (hfr : s₁.frames = s.frames) : Located K a s₁ where
  __ := hp
  running := by rw [hcur]; exact h.running
  deviceFrame := by rw [hfr]; exact h.deviceFrame
  mutexFrame := by rw [hfr]; exact h.mutexFrame

theorem interrupt (h : Located K a s) (regs : SchedContext) : Located K a (s.interrupt regs) :=
  h.of_same { h.toPlaced with } rfl rfl

theorem enableInterrupts (h : Located K a s) : Located K a s.enableInterrupts :=
  h.of_same h.toPlaced.enableInterrupts rfl rfl

theorem ret (h : Located K a s) (call : Call) (v : Int) : Located K a (s.ret call v) :=
  h.of_same (h.toPlaced.ret call v) rfl rfl

/-- `mutex_create`, before it returns. -/
theorem takeMutex (h : Located K a s) (i : Nat) :
    Located K a (s.setMutex i fun x => { x with bAvailable := false }) :=
  h.of_same (h.toPlaced.setMutex i (fun x => { x with bAvailable := false }) rfl) rfl rfl

/-- `mutex_lock` on a free mutex. -/
theorem acquire (h : Located K a s) (m : Nat) (t : TcbPtr) :
    Located K a ((s.setMutex m fun x => { x with bLock := true }).mutexLockTail m t) := by
  have hp := h.toPlaced.setMutex m (fun x => { x with bLock := true }) rfl
  exact h.of_same (hp.mutexLockTail m t) rfl rfl

theorem running_iff (h : Located K a s) (hc : s.curTcb = some c) (t : TcbPtr) :
    a.place t = .running ↔ t = c := by
  rw [h.running, hc, Option.some_inj]
  exact eq_comm

/-- The frames a switch away from `c` must respect, when `c` itself blocks as `k` says. -/
theorem frames (h : Located K a s) (p : Place) (k : Frame) (hfr : s₁.frames = s.frames)
    (hd : ∀ d, p = .device d → k = .devWait d) (hm : ∀ m, p = .mutex m → k = .mutexLock m) :
    Placed.Frames (a.move c p) s₁ c k := by
  constructor
  · intro t d ht
    rw [Placement.place_move] at ht
    rw [hfr]
    split_ifs at ht ⊢
    · exact hd d ht
    · exact h.deviceFrame t d ht
  · intro t m ht
    rw [Placement.place_move] at ht
    rw [hfr]
    split_ifs at ht ⊢
    · exact hm m ht
    · exact h.mutexFrame t m ht

/-- The same when `c` stays runnable. -/
theorem frames_running (h : Located K a s) (hc : a.place c = .running) (k : Frame)
    (hfr : s₁.frames = s.frames) : Placed.Frames a s₁ c k := by
  have hne {t : TcbPtr} {p : Place} (ht : a.place t = p) (hp : p ≠ .running) : t ≠ c := by
    rintro rfl
    exact hp (ht.symm.trans hc)
  constructor
  · intro t d ht
    rw [if_neg (hne ht (by simp)), hfr]
    exact h.deviceFrame t d ht
  · intro t m ht
    rw [if_neg (hne ht (by simp)), hfr]
    exact h.mutexFrame t m ht

end Located

theorem mutexEnqueue_frames {m : Nat} (h : s.mutexEnqueue m c = .ok s₁) :
    s₁.frames = s.frames := by
  rcases mutexEnqueue_ok h with ⟨_, rfl⟩ | ⟨_, _, _, _, rfl⟩ <;> rfl

theorem devEnqueue_frames {d : Nat} (h : s.devEnqueue d c = .ok s₁) : s₁.frames = s.frames := by
  rcases devEnqueue_ok h with ⟨_, rfl⟩ | ⟨_, _, _, _, rfl⟩ <;> rfl

/-- `mutex_unlock` up to `dispatch_save`: at most the first waiter moves. -/
theorem Placed.mutexHandOver {m : Nat} (h : Placed K a s) (hd : Disciplined K s) :
    ((s.gtMutex m).pSleepQueue = none ∧ Placed K a (s.mutexHandOver m c)) ∨
    ∃ first, (s.gtMutex m).pSleepQueue = some first ∧ a.place first = .mutex m ∧
      Placed K (a.move first .ready) (s.mutexHandOver m c) := by
  have drop {b : Placement TcbPtr Place} {s₂ : KState} (h₂ : Placed K b s₂) :
      Placed K b (s₂.dropLock c) := by
    refine h₂.setTcb c _ ?_ ?_ ?_ <;> split_ifs <;> rfl
  unfold KState.mutexHandOver
  cases hq : (s.gtMutex m).pSleepQueue with
  | none => exact Or.inl ⟨rfl, drop (h.setMutex m _ rfl)⟩
  | some first =>
    obtain ⟨hplace, hp⟩ := h.mutexRelease hd hq
    exact Or.inr ⟨first, rfl, hplace, drop hp⟩

theorem mutexHandOver_frames (m : Nat) (c : TcbPtr) (s : KState) :
    (s.mutexHandOver m c).frames = s.frames := by
  unfold mutexHandOver
  split <;> rfl

namespace Located

private theorem gone (h : Located K a s) (hc : s.curTcb = some c) {p : Place} (hp : p ≠ .running)
    (t : TcbPtr) : (a.move c p).place t ≠ .running := by
  rw [Placement.place_move]
  split_ifs with ht
  · exact hp
  · exact fun hr => ht ((h.running_iff hc t).mp hr)

private theorem ready_of_move {p : Place} (hp : p ≠ .ready) (h : (a.move c p).place t = .ready) :
    a.place t = .ready := by
  rw [Placement.place_move] at h
  split_ifs at h
  · exact absurd h hp
  · exact h

/-- `mutex_lock` on a taken mutex. -/
theorem lockBlock {m : Nat} (h : Located K a s) (hs : Scheduled K s c) (hc : c ≠ idleTcb)
    (hm : m < osNumMutex) (hq : s.mutexEnqueue m c = .ok s₁) (hp : s₁.Picks next) :
    a.place next = .ready ∧ Located K ((a.move c (.mutex m)).move next .running)
      (s₁.switchTo next c (.mutexLock m)) := by
  have hd := hs.toDispatchable.mutexEnqueue hc hq
  have hpl := h.toPlaced.mutexEnqueue ((h.running c).mpr hs.cur) hm hq
  refine ⟨ready_of_move (by simp) (hpl.takeSlot hd.toDisciplined hp).1, ?_⟩
  exact hpl.switchTo hd.toDisciplined hp (h.gone hs.cur (by simp))
    (h.frames (.mutex m) (.mutexLock m) (mutexEnqueue_frames hq) (by simp) (by simp))

/-- `event_wait`. -/
theorem waitBlock {d : Nat} (h : Located K a s) (hs : Scheduled K s c) (hc : c ≠ idleTcb)
    (hd : d < numDevices) (hq : s.devEnqueue d c = .ok s₁) (hp : s₁.Picks next) :
    a.place next = .ready ∧ Located K ((a.move c (.device d)).move next .running)
      (s₁.switchTo next c (.devWait d)) := by
  have hdisc := (hs.toDispatchable.devEnqueue hc hq).toDisciplined
  have hpl := h.toPlaced.devEnqueue ((h.running c).mpr hs.cur) hd hq
  refine ⟨ready_of_move (by simp) (hpl.takeSlot hdisc hp).1, ?_⟩
  exact hpl.switchTo hdisc hp (h.gone hs.cur (by simp))
    (h.frames (.device d) (.devWait d) (devEnqueue_frames hq) (by simp) (by simp))

/-- `mutex_unlock` by the recorded owner. `b` is the placement after the release. -/
theorem unlock {m : Nat} (h : Located K a s) (hs : Scheduled K s c) (hc : c ≠ idleTcb)
    (hp : ((s.mutexHandOver m c).saveCur c).Picks next) :
    ∃ b, (((s.gtMutex m).pSleepQueue = none ∧ b = a) ∨
        ∃ first, (s.gtMutex m).pSleepQueue = some first ∧ a.place first = .mutex m ∧
          b = a.move first .ready) ∧
      b.place c = .running ∧ (b.place next = .ready ∨ next = c) ∧
      Located K ((b.move c .ready).move next .running)
        (((s.mutexHandOver m c).saveCur c).switchTo next c (.mutexUnlock m)) := by
  have hrun := h.running_iff hs.cur
  have hcr : a.place c = .running := (hrun c).mpr rfl
  have hd := hs.toDispatchable.mutexHandOver (m := m) hc
  have hfr : Placed.Frames a (s.mutexHandOver m c) c (.mutexUnlock m) :=
    h.frames_running hcr _ (mutexHandOver_frames m c s)
  rcases h.toPlaced.mutexHandOver (m := m) (c := c) hs.toDisciplined with
    ⟨hq, hpl⟩ | ⟨first, hq, hfirst, hpl⟩
  · obtain ⟨hn, hl⟩ := hpl.switchSaved hd hrun hp hfr
    exact ⟨a, Or.inl ⟨hq, rfl⟩, hcr, hn, hl⟩
  · have hne : c ≠ first := by
      intro he
      rw [← he, hcr] at hfirst
      cases hfirst
    have hrun' (t : TcbPtr) : (a.move first .ready).place t = .running ↔ t = c := by
      rw [Placement.place_move]
      split_ifs with ht
      · rw [ht]
        simp [Ne.symm hne]
      · exact hrun t
    obtain ⟨hn, hl⟩ := hpl.switchSaved hd hrun' hp (hfr.move (by simp) (by simp))
    exact ⟨_, Or.inr ⟨first, hq, hfirst, rfl⟩, (hrun' c).mpr rfl, hn, hl⟩

/-- A timer interrupt that wakes nobody. -/
theorem tick {millis : Nat} (h : Located K a s) (hs : Scheduled K s c)
    (hw : s.devWake millis = .ok (s₁, false)) : Located K a s₁ ∧
      Woken (fun d => d < numDevices ∧ (s.devices d).nextMatch ≤ millis) a a := by
  obtain ⟨r, hr, hwk⟩ := h.toPlaced.devWake hs.toDispatchable millis
  rw [hw] at hr
  cases hr
  obtain ⟨b, hpl, hwoken, hsame⟩ := hwk.placed
  cases hsame rfl
  exact ⟨h.of_same hpl (hwk.dispatchable.cur.trans hs.cur.symm) hwk.frames, hwoken⟩

/-- A timer interrupt that ends in `dispatch_save`. `b` is the placement after the wake-ups. -/
theorem wake {millis : Nat} (h : Located K a s) (hs : Scheduled K s c)
    (hw : s.devWake millis = .ok (s₁, true)) (hp : (s₁.saveCur c).Picks next) :
    ∃ b, Woken (fun d => d < numDevices ∧ (s.devices d).nextMatch ≤ millis) a b ∧
      b.place c = .running ∧ (b.place next = .ready ∨ next = c) ∧ s₁.frames = s.frames ∧
      Located K ((b.move c .ready).move next .running)
        ((s₁.saveCur c).switchTo next c .devUpdate) := by
  have hrun := h.running_iff hs.cur
  have hcr : a.place c = .running := (hrun c).mpr rfl
  obtain ⟨r, hr, hwk⟩ := h.toPlaced.devWake hs.toDispatchable millis
  rw [hw] at hr
  cases hr
  obtain ⟨b, hpl, hwoken, _⟩ := hwk.placed
  have hback (u : TcbPtr) (p : Place) (hu : b.place u = p) (hpr : p ≠ .ready) :
      a.place u = p := by
    rw [← hu]
    refine (hwoken.kept u fun d hd hud => hpr ?_).symm
    exact hu.symm.trans (hwoken.woken u d hd hud)
  have hcb : b.place c = .running := by
    rw [hwoken.kept c, hcr]
    intro d _ hcd
    rw [hcr] at hcd
    cases hcd
  have hrun' (t : TcbPtr) : b.place t = .running ↔ t = c := by
    constructor
    · intro ht
      exact (hrun t).mp (hback t _ ht (by simp))
    · intro ht
      rw [ht, hcb]
  have hfr : Placed.Frames b s₁ c .devUpdate := by
    have hfa : Placed.Frames a s₁ c .devUpdate := h.frames_running hcr _ hwk.frames
    exact ⟨fun u d hu => hfa.device u d (hback u _ hu (by simp)),
      fun u m hu => hfa.mutex u m (hback u _ hu (by simp))⟩
  obtain ⟨hn, hl⟩ := hpl.switchSaved hwk.dispatchable hrun' hp hfr
  exact ⟨b, hwoken, hcb, hn, hwk.frames, hl⟩

end Located

/-- Every kernel entry of a running set moves tasks between places, and loses none. -/
theorem Located.entry {op : Op} (h : Located K a s) (hs : Scheduled K s c) (hop : sameSet s op)
    (hc : ∀ call, op = .call call → c ≠ idleTcb) (he : Entry s op s₁) :
    ∃ a', Located K a' s₁ ∧ DeviceLaw s op s₁ a a' := by
  have hcr : a.place c = .running := (h.running c).mpr hs.cur
  cases he with
  | refuse call v hv =>
    refine ⟨a, h.ret call v, .of_call (fun _ => List.prefix_rfl) ?_⟩
    intro t d hcall ht
    cases hcall
    exact Or.inr ⟨v, hv, by rw [← ht]; rfl⟩
  | create i _ _ =>
    exact ⟨a, (h.takeMutex i).ret _ _, .of_call (fun _ => List.prefix_rfl) (by simp)⟩
  | acquire m t _ ht _ =>
    cases hs.eq_cur ht
    exact ⟨a, h.acquire m c, .of_call (fun _ => List.prefix_rfl) (by simp)⟩
  | lockBlock m t next s₂ hm ht _ _ hq hp =>
    cases hs.eq_cur ht
    obtain ⟨hn, hl⟩ := h.lockBlock hs (hc _ rfl) hm hq hp
    refine ⟨_, hl, .of_call (fun d => ?_) (by simp)⟩
    rw [line_block_of_ne hcr hn (by simp) (by simp) (by simp)]
  | unlock m t next s₂ _ ht _ _ hs₂ hp =>
    cases hs.eq_cur ht
    subst hs₂
    obtain ⟨b, hb, hcb, hn, hl⟩ := h.unlock hs (hc _ rfl) hp
    refine ⟨_, hl, .of_call (fun d => ?_) (by simp)⟩
    rw [line_switch hcb hn (by simp) (by simp)]
    rcases hb with ⟨_, rfl⟩ | ⟨first, _, hfirst, rfl⟩
    · exact List.prefix_rfl
    · rw [Placement.line_move_of_ne (by rw [hfirst]; simp) (by simp)]
  | waitBlock d t next s₂ _ ht _ hq hp =>
    cases hs.eq_cur ht
    obtain ⟨hn, hl⟩ := h.waitBlock hs (hc _ rfl) hop hq hp
    refine ⟨_, hl, .of_call (fun i => ?_) ?_⟩
    · by_cases hi : i = d
      · subst hi
        rw [line_block_self hcr hn (by simp) (by simp)]
        exact List.prefix_append ..
      · rw [line_block_of_ne hcr hn (by simp) (by simp) (by simpa using hi)]
    · intro t i hcall htc
      cases hcall
      cases hs.eq_cur htc
      rw [Placement.place_move_of_ne (ready_ne hcr hn).symm, Placement.place_move_self]
      exact Or.inl rfl
  | newSet tasks n _ _ _ _ _ _ => exact absurd hop id
  | tick millis s₂ hw =>
    obtain ⟨hl, hwoken⟩ := h.tick hs hw
    exact ⟨a, hl, .of_woken hwoken (fun _ => rfl) fun _ => Or.inl⟩
  | wake millis t next s₂ s₃ hw ht hs₃ hp =>
    cases (hs.toDispatchable.devWake hw).1.eq_cur ht
    subst hs₃
    obtain ⟨b, hwoken, hcb, hn, _, hl⟩ := h.wake hs hw hp
    refine ⟨_, hl, .of_woken hwoken (fun d => ?_) fun u hu => ?_⟩
    · exact line_switch hcb hn (by simp) (by simp)
    · rw [Placement.place_move, Placement.place_move]
      split_ifs
      · exact Or.inr rfl
      · exact Or.inl rfl
      · exact Or.inl hu

/-! ### A new set

`task_create` takes its TCBs over, and all queues but those of the mutexes are emptied. -/

/-- Where the tasks of a fresh set are before the first dispatch. -/
def freshPlacement (n : Nat) : Placement TcbPtr Place :=
  .ofPlace (fun t => if IsTask n t then .ready else .absent) (List.finRange osMaxTasks)
    List.mem_finRange (List.nodup_finRange _)

theorem freshPlacement_place (n : Nat) (t : TcbPtr) :
    (freshPlacement n).place t = if IsTask n t then .ready else .absent := rfl

theorem freshPlacement_line (n : Nat) {p : Place} (ha : p ≠ .absent) (hr : p ≠ .ready) :
    (freshPlacement n).line p = [] := by
  rw [List.eq_nil_iff_forall_not_mem]
  intro t ht
  rw [(freshPlacement n).mem_line, freshPlacement_place] at ht
  split_ifs at ht
  · exact hr ht.symm
  · exact ha ht.symm

theorem initTcb_pending (tasks : Nat → Task) (n : Nat) (t : TcbPtr) (x : Tcb) :
    (initTcb tasks n t x).pending = 0 := by
  unfold initTcb
  split_ifs <;> rfl

/-- No TCB of a set of `n` tasks waits for a mutex. -/
def NoWaiter (a : Placement TcbPtr Place) (n : Nat) : Prop :=
  ∀ t, IsTask n t → ∀ m, a.place t ≠ .mutex m

/-- Where a TCB is once a set of `n` tasks is installed. -/
def settled (a : Placement TcbPtr Place) (n : Nat) (t : TcbPtr) : Place :=
  if IsTask n t then .ready
  else match a.place t with
    | .mutex m => .mutex m
    | .absent => .absent
    | _ => .running

theorem settled_mutex (hfree : NoWaiter a n) (t : TcbPtr) (m : Nat) :
    settled a n t = .mutex m ↔ a.place t = .mutex m := by
  unfold settled
  split_ifs with ht
  · exact iff_of_false (by simp) (hfree t ht m)
  · cases a.place t <;> simp

theorem settled_device (a : Placement TcbPtr Place) (n : Nat) (t : TcbPtr) (d : Nat) :
    settled a n t ≠ .device d := by
  unfold settled
  split_ifs
  · simp
  · cases a.place t <;> simp

theorem settled_ready (a : Placement TcbPtr Place) (n : Nat) (t : TcbPtr) :
    settled a n t = .ready ↔ IsTask n t := by
  unfold settled
  split_ifs with ht
  · simp [ht]
  · cases a.place t <;> simp [ht]

theorem settled_absent (a : Placement TcbPtr Place) (n : Nat) (t : TcbPtr) :
    settled a n t = .absent ↔ a.place t = .absent ∧ ¬ IsTask n t := by
  unfold settled
  split_ifs with ht
  · simp [ht]
  · cases a.place t <;> simp [ht]

def settle (a : Placement TcbPtr Place) (n : Nat) (hfree : NoWaiter a n) :
    Placement TcbPtr Place :=
  a.resettle (settled a n) (fun p => p.isMutex = true) (List.finRange osMaxTasks)
    List.mem_finRange (List.nodup_finRange _) <| by
      intro p t hp
      cases p with
      | mutex m => exact settled_mutex hfree t m
      | absent => cases hp
      | running => cases hp
      | ready => cases hp
      | device d => cases hp

theorem settle_line_device (hfree : NoWaiter a n) (d : Nat) :
    (settle a n hfree).line (.device d) = [] := by
  apply List.eq_nil_iff_forall_not_mem.mpr
  intro t ht
  exact settled_device a n t d (((settle a n hfree).mem_line _ _).mp ht)

/-- `dev_init` empties the queues of the devices; there is none past them. -/
theorem Placed.devInit_sleepQ (h : Placed K a s) (d : Nat) :
    (s.devInit.devices d).sleepQ = none := by
  show (if d < numDevices then (⟨none, devFreq d⟩ : Dev) else s.devices d).sleepQ = none
  split_ifs with hd
  · rfl
  · have hnil : a.line (.device d) = [] := by
      apply List.eq_nil_iff_forall_not_mem.mpr
      intro t ht
      exact hd (h.deviceRange t d ((a.mem_line _ _).mp ht))
    have hchain := h.device d
    rw [hnil] at hchain
    exact hchain

/-- The TCBs of the new set are in no chain, so initialising them breaks none. -/
theorem Placed.installTasks (h : Placed K a s) (tasks : Nat → Task) (hn : n ≤ 62)
    (hfree : NoWaiter a n) :
    Placed (fun t => K t ∨ IsTask n t) (settle a n hfree) (s.installTasks tasks n) := by
  have hi := installTasks_installed tasks n hn s
  have hsame (t : TcbPtr) (ht : ¬ IsTask n t) :
      (s.installTasks tasks n).systemTcb t = s.systemTcb t := by
    rw [hi.tcb, if_neg ht]
    rfl
  refine
    { absent := ?_, ready := ?_, device := ?_, mutex := ?_, pending := ?_, deviceRange := ?_
      mutexRange := ?_, noDrop := ?_ }
  · intro t
    refine (settled_absent a n t).trans ?_
    rw [h.absent, not_or]
  · intro t
    refine (settled_ready a n t).trans ?_
    rw [hi.slot]
    simp
  · intro d
    rw [settle_line_device, hi.dev]
    exact h.devInit_sleepQ d
  · intro m
    rw [hi.mutex]
    refine (h.mutex m).congr ?_
    intro t ht
    have hwaits := (a.mem_line _ _).mp ht
    have hnew : ¬ IsTask n t := fun hb => hfree t hb m hwaits
    exact congrArg Tcb.mutexSleepQueue (hsame t hnew).symm
  · intro t hk
    show _ ↔ ∃ m, settled a n t = .mutex m
    by_cases hnew : IsTask n t
    · rw [hi.tcb, if_pos hnew, initTcb_pending]
      refine iff_of_false (by simp) ?_
      rintro ⟨m, hm⟩
      exact hfree t hnew m ((settled_mutex hfree t m).mp hm)
    · rw [hsame t hnew, h.pending t (hk.resolve_right hnew)]
      simp only [settled_mutex hfree]
  · intro t d ht
    exact absurd ht (settled_device a n t d)
  · intro t m ht
    exact h.mutexRange t m ((settled_mutex hfree t m).mp ht)
  · intro t p r hm
    obtain ⟨l, hl, hadd⟩ := hi.log
    rw [hl] at hm
    rcases List.mem_append.mp hm with hm | hm
    · obtain ⟨u, q, heq⟩ := hadd _ hm
      cases heq
      rfl
    · exact h.noDrop t p r hm

/-- Nobody is anywhere before the first set. -/
theorem Booted.unplaced (h : Booted s) :
    Placed (fun _ => False) (.ofPlace (fun _ => .absent) (List.finRange osMaxTasks)
      List.mem_finRange (List.nodup_finRange _)) s where
  absent := fun _ => iff_of_true rfl id
  ready := by
    intro t
    rw [h.rq]
    exact iff_of_false (by simp [Placement.ofPlace]) (by simp [RunQueue.runqueueInit])
  device := by
    intro d
    rw [h.device d]
    simp [Placement.ofPlace]
  mutex := by
    intro m
    rw [(h.mutex m).2.2]
    simp [Placement.ofPlace]
  pending := fun _ hk => hk.elim
  deviceRange := by simp [Placement.ofPlace]
  mutexRange := by simp [Placement.ofPlace]
  noDrop := by
    intro t p r hm
    rcases h.log _ hm with ⟨d, hd⟩ | ⟨call, v, hv⟩
    · cases hd
    · cases hv

theorem Booted.placed (h : Booted s) (tasks : Nat → Task) (hn : n ≤ 62) :
    Placed (IsTask n) (freshPlacement n) (s.installTasks tasks n) := by
  have hfree : NoWaiter (.ofPlace (fun _ => .absent) (List.finRange osMaxTasks)
      List.mem_finRange (List.nodup_finRange _)) n := fun _ _ m hm => by cases hm
  have hpl := h.unplaced.installTasks tasks hn hfree
  rw [false_or_isTask] at hpl
  refine hpl.of_agree (fun _ => rfl) ?_ ?_
  · intro d
    rw [freshPlacement_line n (by simp) (by simp), settle_line_device]
  · intro m
    rw [freshPlacement_line n (by simp) (by simp)]
    show [] = List.filter _ _
    simp

/-- The first task of the set runs, the others are ready. -/
theorem Booted.located {tasks : Nat → Task} {regs : SchedContext} (h : Booted s)
    (hc : Creates tasks n regs s s') :
    ∃ a c, Scheduled (IsTask n) s' c ∧ Located (IsTask n) a s' := by
  obtain ⟨c, hs⟩ := h.start hc
  obtain ⟨mem, next, hadm, hp, rfl⟩ := hc.dispatch
  have hb := h.interrupt regs
  have hd := (hb.disciplined.newSet mem.slot (taskAdmit_le hadm)).1
  rw [false_or_isTask] at hd
  obtain ⟨_, hpl⟩ := (hb.placed mem.slot (taskAdmit_le hadm)).takeSlot hd hp
  have hwait (t : TcbPtr) (p : Place) (ha : p ≠ .absent) (hr : p ≠ .ready) (hu : p ≠ .running) :
      ((freshPlacement n).move next .running).place t ≠ p := by
    rw [Placement.place_move, freshPlacement_place]
    split_ifs
    · exact hu.symm
    · exact hr.symm
    · exact ha.symm
  refine ⟨(freshPlacement n).move next .running, c, hs, Located.enableInterrupts ?_⟩
  refine
    { hpl.ctxSwitchHalf next with running := ?_, deviceFrame := ?_, mutexFrame := ?_ }
  · intro t
    change _ ↔ (resume next _).curTcb = _
    rw [resume_curTcb, Placement.place_move, freshPlacement_place]
    change _ ↔ some next = some t
    rw [Option.some_inj]
    split_ifs with ht ht'
    · simp [ht]
    · simp [Ne.symm ht]
    · simp [Ne.symm ht]
  · exact fun t d ht => absurd ht (hwait t _ (by simp) (by simp) (by simp))
  · exact fun t m ht => absurd ht (hwait t _ (by simp) (by simp) (by simp))

/-- One step of a running set, with what it does to the sleepers. -/
theorem Located.step (h : Located K a s) (hs : Scheduled K s c) (hst : Step sameSet s s') :
    ∃ a' c', Scheduled K s' c' ∧ Located K a' s' := by
  obtain ⟨c', hs'⟩ := hs.step_sameSet hst
  obtain ⟨regs, op, s₁, hop, hidle, he, rfl⟩ := hst.entry (by rw [hs.cur]; simp)
  obtain ⟨a', hl, _⟩ := (h.interrupt regs).entry (hs.interrupt regs) hop
    (hs.caller hidle) he
  exact ⟨a', c', hs', hl.enableInterrupts⟩

theorem Run.located (h : Run sameSet n s) :
    ∃ a c, Scheduled (IsTask n) s c ∧ Located (IsTask n) a s := by
  induction h with
  | start tasks regs hboot hc => exact (Booted.of_boot hboot).located hc
  | step _ hst ih =>
    obtain ⟨a, c, hs, hl⟩ := ih
    exact hl.step hs hst

end RtosKernel.KState
