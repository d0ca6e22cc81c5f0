import RtosKernel.Scheduling.NewSet

namespace RtosKernel.KState

/-- The slot discipline: TCBs in `K` carry their index as native priority and run at it or at
the ceiling, slot `p` can only hold TCB `p`, and every queue pointer stays inside `K`. -/
structure Disciplined (K : TcbPtr → Prop) (s : KState) : Prop where
  wf : s.rq.Wf
  slot : ∀ p t, s.rq.runList p = some t → t.val = p ∧ K t
  pos : ∀ t, K t → 0 < t.val
  native : ∀ t, K t → (s.systemTcb t).nativePrio = t.val
  prio : ∀ t, K t → (s.systemTcb t).curPrio = highestPriority ∨ (s.systemTcb t).curPrio = t.val
  waiter : ∀ m t, (s.gtMutex m).pSleepQueue = some t → K t ∧ t ≠ idleTcb
  mutexNext : ∀ t u, (s.systemTcb t).mutexSleepQueue = some u → K u ∧ u ≠ idleTcb
  sleeper : ∀ d t, (s.devices d).sleepQ = some t → K t ∧ t ≠ idleTcb
  sleepNext : ∀ t u, (s.systemTcb t).sleepQueue = some u → K u ∧ u ≠ idleTcb
  idlePrio : K idleTcb → (s.systemTcb idleTcb).curPrio = idlePrio
  idlePending : K idleTcb → (s.systemTcb idleTcb).pending ≠ 1
  idleFrame : K idleTcb → ∀ m, s.frames idleTcb ≠ .mutexLock m
  picks : ∀ q p t, .dispatch q p t ∈ s.log →
    q.runList p = some t ∧ ∀ r, q.Occupied r → p ≤ r

/-- Task `c` runs and idle is there to fall back to. -/
structure Dispatchable (K : TcbPtr → Prop) (s : KState) (c : TcbPtr) : Prop
    extends Disciplined K s where
  cur : s.curTcb = some c
  curKnown : K c
  idleKnown : K idleTcb
  idleReady : c = idleTcb ∨ s.rq.runList RtosKernel.idlePrio = some idleTcb

/-- In addition nothing ready has the running task's priority or a higher one. -/
structure Scheduled (K : TcbPtr → Prop) (s : KState) (c : TcbPtr) : Prop
    extends Dispatchable K s c where
  order : ∀ p, s.rq.runList p ≠ none → (s.systemTcb c).curPrio < p

variable {K : TcbPtr → Prop} {s s₁ : KState} {c next : TcbPtr}

theorem Dispatchable.eq_cur (h : Dispatchable K s c) {t : TcbPtr} (ht : s.curTcb = some t) :
    t = c := Option.some.inj (ht.symm.trans h.cur)

namespace Disciplined

theorem slot_pos (h : Disciplined K s) {p : Nat} (hp : s.rq.runList p ≠ none) : 0 < p := by
  obtain ⟨t, ht⟩ := Option.ne_none_iff_exists'.mp hp
  obtain ⟨hv, hk⟩ := h.slot p t ht
  have := h.pos t hk
  omega

theorem emit (h : Disciplined K s) {e : Event} (he : ∀ q p t, e ≠ .dispatch q p t) :
    Disciplined K (s.emit e) where
  __ := h
  picks := by
    intro q p t hm
    rcases List.mem_cons.mp hm with heq | hm
    · exact absurd heq.symm (he q p t)
    · exact h.picks q p t hm

theorem ret (h : Disciplined K s) (call : Call) (v : Int) : Disciplined K (s.ret call v) :=
  h.emit (by simp)

theorem enableInterrupts (h : Disciplined K s) : Disciplined K s.enableInterrupts where
  __ := h

/-- A write to one TCB that keeps its native priority and obeys the discipline. -/
theorem setTcb (h : Disciplined K s) (t : TcbPtr) (f : Tcb → Tcb)
    (hn : (f (s.systemTcb t)).nativePrio = (s.systemTcb t).nativePrio)
    (hp : K t → (f (s.systemTcb t)).curPrio = highestPriority ∨
      (f (s.systemTcb t)).curPrio = t.val)
    (hm : ∀ u, (f (s.systemTcb t)).mutexSleepQueue = some u → K u ∧ u ≠ idleTcb)
    (hs : ∀ u, (f (s.systemTcb t)).sleepQueue = some u → K u ∧ u ≠ idleTcb)
    (hi : t = idleTcb → (f (s.systemTcb t)).curPrio = (s.systemTcb t).curPrio ∧
      (f (s.systemTcb t)).pending = (s.systemTcb t).pending) :
    Disciplined K (s.setTcb t f) := by
  have look (P : TcbPtr → Tcb → Prop) (hold : ∀ u, P u (s.systemTcb u))
      (hnew : P t (f (s.systemTcb t))) : ∀ u, P u ((s.setTcb t f).systemTcb u) := by
    intro u
    change P u (Function.update s.systemTcb t (f (s.systemTcb t)) u)
    by_cases hu : u = t
    · subst hu
      rw [Function.update_self]
      exact hnew
    · rw [Function.update_of_ne hu]
      exact hold u
  exact
    { h with
      native := look (fun u x => K u → x.nativePrio = u.val) h.native
        (fun hk => hn.trans (h.native t hk))
      prio := look (fun u x => K u → x.curPrio = highestPriority ∨ x.curPrio = u.val) h.prio hp
      mutexNext := look (fun _ x => ∀ v, x.mutexSleepQueue = some v → K v ∧ v ≠ idleTcb)
        h.mutexNext hm
      sleepNext := look (fun _ x => ∀ v, x.sleepQueue = some v → K v ∧ v ≠ idleTcb) h.sleepNext hs
      idlePrio := look (fun u x => u = idleTcb → K u → x.curPrio = RtosKernel.idlePrio)
        (by rintro u rfl hk; exact h.idlePrio hk)
        (by rintro rfl hk; exact (hi rfl).1.trans (h.idlePrio hk)) idleTcb rfl
      idlePending := look (fun u x => u = idleTcb → K u → x.pending ≠ 1)
        (by rintro u rfl hk; exact h.idlePending hk)
        (by rintro rfl hk; rw [(hi rfl).2]; exact h.idlePending hk) idleTcb rfl }

theorem setMutex (h : Disciplined K s) (m : Nat) (f : Mutex → Mutex)
    (hq : ∀ u, (f (s.gtMutex m)).pSleepQueue = some u → K u ∧ u ≠ idleTcb) :
    Disciplined K (s.setMutex m f) where
  __ := h
  waiter := by
    intro i t ht
    change (Function.update s.gtMutex m (f (s.gtMutex m)) i).pSleepQueue = some t at ht
    by_cases hi : i = m
    · subst hi
      rw [Function.update_self] at ht
      exact hq t ht
    · rw [Function.update_of_ne hi] at ht
      exact h.waiter i t ht

theorem setDev (h : Disciplined K s) (d : Nat) (f : Dev → Dev)
    (hq : ∀ u, (f (s.devices d)).sleepQ = some u → K u ∧ u ≠ idleTcb) :
    Disciplined K (s.setDev d f) where
  __ := h
  sleeper := by
    intro i t ht
    change (Function.update s.devices d (f (s.devices d)) i).sleepQ = some t at ht
    by_cases hi : i = d
    · subst hi
      rw [Function.update_self] at ht
      exact hq t ht
    · rw [Function.update_of_ne hi] at ht
      exact h.sleeper i t ht

/-- Adding a TCB at its native priority. -/
theorem runqueueAdd (h : Disciplined K s) {t : TcbPtr} (hk : K t) :
    Disciplined K (s.runqueueAdd t t.val) := by
  have h' : Disciplined K { s with rq := s.rq.runqueueAdd t t.val } :=
    { h with
      wf := h.wf.add t t.val t.isLt
      slot := by
        intro p u hu
        simp only [RunQueue.runqueueAdd_runList] at hu
        split_ifs at hu
        · by_cases hp : p = t.val
          · subst hp
            rw [Function.update_self] at hu
            cases hu
            exact ⟨rfl, hk⟩
          · rw [Function.update_of_ne hp] at hu
            exact h.slot p u hu
        · exact h.slot p u hu }
  exact h'.emit (by simp)

theorem setFrame (h : Disciplined K s) (t : TcbPtr) (k : Frame)
    (hi : t = idleTcb → ∀ m, k ≠ .mutexLock m) :
    Disciplined K { s with frames := Function.update s.frames t k } where
  __ := h
  idleFrame := by
    intro hk m
    change Function.update s.frames t k idleTcb ≠ _
    by_cases ht : idleTcb = t
    · subst ht
      rw [Function.update_self]
      exact hi rfl m
    · rw [Function.update_of_ne ht]
      exact h.idleFrame hk m

/-- What the mutex tail writes: the ceiling priority and a new owner. -/
theorem mutexLockTail (h : Disciplined K s) (m : Nat) {t : TcbPtr} (ht : t ≠ idleTcb) :
    Disciplined K (s.mutexLockTail m t) := by
  have h₁ := h.setTcb t
    (fun t => { t with holdsLock := wrap32 (t.holdsLock + 1), curPrio := highestPriority })
    rfl (fun _ => Or.inl rfl) (h.mutexNext t) (h.sleepNext t) (fun hb => absurd hb ht)
  have h₂ := h₁.setMutex m (fun x => { x with pHoldingTcb := some t }) (h₁.waiter m)
  exact h₂.enableInterrupts.ret _ _

theorem takeSlot (h : Disciplined K s) (hp : s.Picks next) :
    Disciplined K (s.takeSlot s.rq.highestPrio next) ∧
    ∀ r, (s.takeSlot s.rq.highestPrio next).rq.runList r ≠ none → s.rq.highestPrio < r := by
  have hlt := s.rq.highestPrio_lt
  have hocc : s.rq.Occupied s.rq.highestPrio := ⟨hlt, by rw [hp.slot]; simp⟩
  have hleast := (RunQueue.highestPrio_least h.wf hocc).2
  refine ⟨{ h with wf := h.wf.remove _ hlt, slot := ?_, picks := ?_ }, ?_⟩
  · intro p t ht
    change Function.update s.rq.runList _ none p = some t at ht
    by_cases hpe : p = s.rq.highestPrio
    · rw [hpe, Function.update_self] at ht
      cases ht
    · rw [Function.update_of_ne hpe] at ht
      exact h.slot p t ht
  · intro q p t hm
    rcases List.mem_cons.mp hm with heq | hm
    · cases heq
      exact ⟨hp.slot, hleast⟩
    · exact h.picks q p t hm
  · intro r hr
    change Function.update s.rq.runList _ none r ≠ none at hr
    by_cases hre : r = s.rq.highestPrio
    · rw [hre, Function.update_self] at hr
      exact absurd rfl hr
    · rw [Function.update_of_ne hre] at hr
      obtain ⟨t, ht⟩ := Option.ne_none_iff_exists'.mp hr
      have hr64 : r < osMaxTasks := (h.slot r t ht).1 ▸ t.isLt
      have := hleast r ⟨hr64, hr⟩
      omega

end Disciplined

end RtosKernel.KState
