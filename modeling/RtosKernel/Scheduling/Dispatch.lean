import RtosKernel.Scheduling.Discipline

namespace RtosKernel.KState

variable {K : TcbPtr → Prop} {s s₁ : KState} {c next last : TcbPtr}

/-- A consistent queue that is not empty has a TCB to dispatch. -/
theorem picks_of_occupied (hwf : s.rq.Wf) {p : Nat} (hp : s.rq.Occupied p) :
    ∃ next, s.Picks next := by
  obtain ⟨_, hn⟩ := (RunQueue.highestPrio_least hwf hp).1
  obtain ⟨next, h⟩ := Option.ne_none_iff_exists'.mp hn
  exact ⟨next, ⟨h⟩⟩

theorem Dispatchable.of_disciplined (h : Disciplined K s₁) (h₀ : Dispatchable K s c)
    (hcur : s₁.curTcb = s.curTcb)
    (hidle : s.rq.runList idlePrio = some idleTcb → s₁.rq.runList idlePrio = some idleTcb) :
    Dispatchable K s₁ c where
  __ := h
  cur := hcur.trans h₀.cur
  curKnown := h₀.curKnown
  idleKnown := h₀.idleKnown
  idleReady := h₀.idleReady.imp_right hidle

/-- Adding at native priority cannot displace idle. -/
theorem Dispatchable.runqueueAdd (h : Dispatchable K s c) {t : TcbPtr} (hk : K t) :
    Dispatchable K (s.runqueueAdd t t.val) c := by
  refine .of_disciplined (h.toDisciplined.runqueueAdd hk) h rfl ?_
  intro hi
  rw [runqueueAdd_runList]
  split_ifs with hn
  · have hne : idlePrio ≠ t.val := by
      intro he
      rw [← he, hi] at hn
      cases hn
    rw [Function.update_of_ne hne, hi]
  · exact hi

theorem Scheduled.emit (h : Scheduled K s c) {e : Event} (he : ∀ q p t, e ≠ .dispatch q p t) :
    Scheduled K (s.emit e) c where
  __ := h.toDisciplined.emit he
  __ := h

theorem Scheduled.ret (h : Scheduled K s c) (call : Call) (v : Int) :
    Scheduled K (s.ret call v) c := h.emit (by simp)

theorem Scheduled.enableInterrupts (h : Scheduled K s c) : Scheduled K s.enableInterrupts c where
  __ := h

theorem Scheduled.mutexLockTail (h : Scheduled K s c) (m : Nat) (hc : c ≠ idleTcb) :
    Scheduled K (s.mutexLockTail m c) c where
  __ := h.toDisciplined.mutexLockTail m hc
  cur := h.cur
  curKnown := h.curKnown
  idleKnown := h.idleKnown
  idleReady := h.idleReady
  order := by
    intro p hp
    have hprio : ((s.mutexLockTail m c).systemTcb c).curPrio = highestPriority := by
      change (Function.update s.systemTcb c _ c).curPrio = _
      rw [Function.update_self]
    rw [hprio]
    exact h.slot_pos hp

/-- Whatever the dispatched task had left to do keeps it the highest. -/
theorem Scheduled.resume (h : Scheduled K s c) : Scheduled K (s.resume c) c := by
  unfold KState.resume
  cases hf : s.frames c with
  | launch => exact h.enableInterrupts
  | mutexLock m =>
    refine h.mutexLockTail m ?_
    rintro rfl
    exact h.idleFrame h.idleKnown m hf
  | mutexUnlock m => exact h.enableInterrupts.ret _ _
  | devWait d => exact h.enableInterrupts.ret _ _
  | devUpdate => exact h.enableInterrupts

theorem Scheduled.ctxSwitchFull (h : Scheduled K s next) (last : TcbPtr) (k : Frame)
    (hk : last = idleTcb → ∀ m, k ≠ .mutexLock m) :
    Scheduled K (s.ctxSwitchFull next last k) next := by
  have h₁ := h.toDisciplined.setTcb last (fun t => { t with context := s.regs }) rfl
    (h.prio last) (h.mutexNext last) (h.sleepNext last) (fun _ => ⟨rfl, rfl⟩)
  have h₂ := h₁.setFrame last k hk
  refine Scheduled.resume ?_
  refine
    { h₂ with
      cur := h.cur, curKnown := h.curKnown, idleKnown := h.idleKnown, idleReady := h.idleReady
      order := ?_ }
  intro p hp
  refine lt_of_eq_of_lt ?_ (h.order p hp)
  change (Function.update s.systemTcb last _ next).curPrio = _
  by_cases he : next = last
  · subst he; rw [Function.update_self]
  · rw [Function.update_of_ne he]

/-- Taking the highest slot of a queue that holds idle. -/
theorem Disciplined.scheduled (h : Disciplined K s) (hp : s.Picks next)
    (hidle : s.rq.runList RtosKernel.idlePrio = some idleTcb) :
    Scheduled K (s.takeSlot s.rq.highestPrio next) next := by
  obtain ⟨h₁, hmin⟩ := h.takeSlot hp
  obtain ⟨hv, hk⟩ := h.slot _ _ hp.slot
  refine
    { h₁ with
      cur := rfl, curKnown := hk, idleKnown := (h.slot _ _ hidle).2
      idleReady := ?_, order := ?_ }
  · by_cases he : RtosKernel.idlePrio = s.rq.highestPrio
    · left
      exact Fin.ext (hv.trans he.symm)
    · right
      change Function.update s.rq.runList _ none _ = _
      rw [Function.update_of_ne he, hidle]
  · intro p hocc
    have := hmin p hocc
    have hn := h.prio next hk
    change (s.systemTcb next).curPrio < p
    have h0 : highestPriority = 0 := rfl
    omega

theorem Disciplined.switchTo (h : Disciplined K s) (hp : s.Picks next)
    (hidle : s.rq.runList RtosKernel.idlePrio = some idleTcb) (last : TcbPtr) (k : Frame)
    (hk : last = idleTcb → ∀ m, k ≠ .mutexLock m) :
    Scheduled K (s.switchTo next last k) next :=
  (h.scheduled hp hidle).ctxSwitchFull last k hk

/-- The running task at its own priority, put back in its slot. -/
theorem Dispatchable.runqueueAdd_idle (h : Dispatchable K s c) :
    (s.runqueueAdd c c.val).rq.runList idlePrio = some idleTcb := by
  rcases (h.runqueueAdd h.curKnown).idleReady with hc | hr
  · subst hc
    rw [runqueueAdd_runList]
    split_ifs with hn
    · exact Function.update_self ..
    · obtain ⟨t, ht⟩ := Option.ne_none_iff_exists'.mp hn
      have hte : t = idleTcb := Fin.ext (h.slot _ _ ht).1
      rw [ht, hte]
  · exact hr

/-- A lock holder goes to slot 0, which is empty, and is taken straight back. -/
theorem Dispatchable.holder_takeSlot (h : Dispatchable K s c)
    (h0 : (s.systemTcb c).curPrio = highestPriority)
    (hp : (s.runqueueAdd c highestPriority).Picks next) :
    next = c ∧ Scheduled K ((s.runqueueAdd c highestPriority).takeSlot
      (s.runqueueAdd c highestPriority).rq.highestPrio c) c ∧
    ((s.runqueueAdd c highestPriority).takeSlot
      (s.runqueueAdd c highestPriority).rq.highestPrio c).rq.runList = s.rq.runList := by
  have hempty : s.rq.runList highestPriority = none := by
    by_contra hn
    exact absurd (h.slot_pos hn) (lt_irrefl _)
  have hlist : (s.runqueueAdd c highestPriority).rq.runList =
      Function.update s.rq.runList highestPriority (some c) := by
    rw [runqueueAdd_runList, if_pos hempty]
  have hwf : (s.runqueueAdd c highestPriority).rq.Wf := h.wf.add c _ (by decide)
  have hocc : (s.runqueueAdd c highestPriority).rq.Occupied highestPriority :=
    ⟨by decide, by rw [hlist, Function.update_self]; simp⟩
  have hleast := (RunQueue.highestPrio_least hwf hocc).2
  have hzero : (s.runqueueAdd c highestPriority).rq.highestPrio = highestPriority :=
    Nat.le_zero.mp (hleast _ hocc)
  have hnext : next = c := by
    have hs := hp.slot
    rw [hzero, hlist, Function.update_self] at hs
    exact (Option.some.inj hs).symm
  rw [hzero]
  have hback : ((s.runqueueAdd c highestPriority).takeSlot highestPriority c).rq.runList =
      s.rq.runList := by
    change Function.update (s.runqueueAdd c highestPriority).rq.runList _ none = _
    rw [hlist, Function.update_idem, ← hempty, Function.update_eq_self]
  refine ⟨hnext, ?_, hback⟩
  refine
    { h with
      wf := hwf.remove _ (by decide)
      slot := by rw [hback]; exact h.slot
      picks := ?_
      cur := rfl
      idleReady := by rw [hback]; exact h.idleReady
      order := ?_ }
  · intro q p t hm
    rcases List.mem_cons.mp hm with heq | hm
    · cases heq
      refine ⟨by rw [hlist, Function.update_self], fun r hr => ?_⟩
      exact Nat.zero_le r
    · rcases List.mem_cons.mp hm with heq | hm
      · cases heq
      · exact h.picks q p t hm
  · intro p hocc'
    rw [hback] at hocc'
    refine lt_of_eq_of_lt h0 ?_
    exact h.slot_pos hocc'

/-- The three ways `dispatch_save` can put the running task away. -/
theorem Dispatchable.saveCur_cases (h : Dispatchable K s c) :
    ((s.systemTcb c).pending = 1 ∧ s.saveCur c = s) ∨
    ((s.systemTcb c).pending ≠ 1 ∧ (s.systemTcb c).curPrio = c.val ∧
      s.saveCur c = s.runqueueAdd c c.val) ∨
    ((s.systemTcb c).pending ≠ 1 ∧ (s.systemTcb c).curPrio = highestPriority ∧
      s.saveCur c = s.runqueueAdd c highestPriority) := by
  unfold saveCur
  by_cases hp : (s.systemTcb c).pending = 1
  · exact Or.inl ⟨hp, by simp [hp]⟩
  · rw [if_pos hp]
    rcases h.prio c h.curKnown with h0 | hv
    · exact Or.inr (Or.inr ⟨hp, h0, by rw [h0]⟩)
    · exact Or.inr (Or.inl ⟨hp, hv, by rw [hv]⟩)

theorem Dispatchable.switchSaved (h : Dispatchable K s c) (hp : (s.saveCur c).Picks next)
    (k : Frame) (hk : c = idleTcb → ∀ m, k ≠ .mutexLock m) :
    Scheduled K ((s.saveCur c).switchTo next c k) next := by
  rcases h.saveCur_cases with ⟨hpend, he⟩ | ⟨_, _, he⟩ | ⟨_, h0, he⟩
  · rw [he] at hp ⊢
    refine h.toDisciplined.switchTo hp ?_ c k hk
    refine h.idleReady.resolve_left ?_
    rintro rfl
    exact h.idlePending h.idleKnown hpend
  · rw [he] at hp ⊢
    exact (h.toDisciplined.runqueueAdd h.curKnown).switchTo hp h.runqueueAdd_idle c k hk
  · rw [he] at hp ⊢
    obtain ⟨rfl, hs, _⟩ := h.holder_takeSlot h0 hp
    exact hs.ctxSwitchFull next k hk

/-- `dispatch_save` always finds a TCB. -/
theorem Dispatchable.saveCur_picks (h : Dispatchable K s c) : ∃ next, (s.saveCur c).Picks next := by
  rcases h.saveCur_cases with ⟨hpend, he⟩ | ⟨_, _, he⟩ | ⟨_, h0, he⟩
  · rw [he]
    have hne : c ≠ idleTcb := by
      rintro rfl
      exact h.idlePending h.idleKnown hpend
    have hr := h.idleReady.resolve_left hne
    exact picks_of_occupied h.wf (p := idlePrio) ⟨by decide, by rw [hr]; simp⟩
  · rw [he]
    have hr := h.runqueueAdd_idle
    exact picks_of_occupied (h.runqueueAdd h.curKnown).wf (p := idlePrio)
      ⟨by decide, by rw [hr]; simp⟩
  · rw [he]
    refine picks_of_occupied (h.wf.add c _ (by decide)) (p := highestPriority) ⟨by decide, ?_⟩
    rw [runqueueAdd_runList]
    split_ifs with hn
    · rw [Function.update_self]; simp
    · exact hn

theorem Dispatchable.saveCur_known (h : Dispatchable K s c) (hp : (s.saveCur c).Picks next) :
    K next := by
  rcases h.saveCur_cases with ⟨_, he⟩ | ⟨_, _, he⟩ | ⟨_, h0, he⟩
  · rw [he] at hp
    exact (h.slot _ _ hp.slot).2
  · rw [he] at hp
    exact ((h.toDisciplined.runqueueAdd h.curKnown).slot _ _ hp.slot).2
  · rw [he] at hp
    rw [(h.holder_takeSlot h0 hp).1]
    exact h.curKnown

end RtosKernel.KState
