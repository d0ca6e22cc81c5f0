import RtosKernel.Math.Loop
import RtosKernel.Scheduling.Dispatch

namespace RtosKernel.KState

variable {K : TcbPtr → Prop} {s s₁ : KState} {c : TcbPtr}

/-- A released waiter goes to the slot of its native priority. -/
theorem mutexRelease_eq {m : Nat} {first : TcbPtr}
    (hn : (s.systemTcb first).nativePrio = first.val) :
    s.mutexRelease m first = ((s.setMutex m fun x =>
      { x with pSleepQueue := (s.systemTcb first).mutexSleepQueue }).setTcb first fun t =>
      { t with mutexSleepQueue := none, pending := 0, curPrio := t.nativePrio }).runqueueAdd
        first first.val := by
  have hprio : ((KState.setTcb first (fun t =>
      { t with mutexSleepQueue := none, pending := 0, curPrio := t.nativePrio })
      (s.setMutex m fun x =>
        { x with pSleepQueue := (s.systemTcb first).mutexSleepQueue })).systemTcb first).curPrio =
      first.val := by
    change (Function.update s.systemTcb first _ first).curPrio = _
    rw [Function.update_self]
    exact hn
  unfold KState.mutexRelease
  simp only [hprio]

namespace Dispatchable

theorem setTcb (h : Dispatchable K s c) (t : TcbPtr) (f : Tcb → Tcb)
    (hd : Disciplined K (s.setTcb t f)) : Dispatchable K (s.setTcb t f) c :=
  .of_disciplined hd h rfl id

theorem setMutex (h : Dispatchable K s c) (m : Nat) (f : Mutex → Mutex)
    (hq : ∀ u, (f (s.gtMutex m)).pSleepQueue = some u → K u ∧ u ≠ idleTcb) :
    Dispatchable K (s.setMutex m f) c :=
  .of_disciplined (h.toDisciplined.setMutex m f hq) h rfl id

theorem setDev (h : Dispatchable K s c) (d : Nat) (f : Dev → Dev)
    (hq : ∀ u, (f (s.devices d)).sleepQ = some u → K u ∧ u ≠ idleTcb) :
    Dispatchable K (s.setDev d f) c :=
  .of_disciplined (h.toDisciplined.setDev d f hq) h rfl id

theorem emit (h : Dispatchable K s c) {e : Event} (he : ∀ q p t, e ≠ .dispatch q p t) :
    Dispatchable K (s.emit e) c :=
  .of_disciplined (h.toDisciplined.emit he) h rfl id

theorem mutexEnqueue {m : Nat} (h : Dispatchable K s c) (hc : c ≠ idleTcb)
    (he : s.mutexEnqueue m c = .ok s₁) : Dispatchable K s₁ c := by
  have hmark : Dispatchable K (s.markWaiting c) c :=
    h.setTcb c _ (h.toDisciplined.setTcb c _ rfl (h.prio c) (by simp) (h.sleepNext c)
      (fun hb => absurd hb hc))
  have hown (u : TcbPtr) (hu : some c = some u) : K u ∧ u ≠ idleTcb := by
    cases hu
    exact ⟨h.curKnown, hc⟩
  rcases mutexEnqueue_ok he with ⟨_, rfl⟩ | ⟨_, last, _, _, rfl⟩
  · exact hmark.setMutex m _ hown
  · exact hmark.setTcb last _ (hmark.toDisciplined.setTcb last _ rfl (hmark.prio last) hown
      (hmark.sleepNext last) (fun _ => ⟨rfl, rfl⟩))

theorem devEnqueue {d : Nat} (h : Dispatchable K s c) (hc : c ≠ idleTcb)
    (he : s.devEnqueue d c = .ok s₁) : Dispatchable K s₁ c := by
  have hown (u : TcbPtr) (hu : some c = some u) : K u ∧ u ≠ idleTcb := by
    cases hu
    exact ⟨h.curKnown, hc⟩
  have clear {s₂ : KState} (h₂ : Dispatchable K s₂ c) :
      Dispatchable K (s₂.setTcb c fun t => { t with sleepQueue := none }) c :=
    h₂.setTcb c _ (h₂.toDisciplined.setTcb c _ rfl (h₂.prio c) (h₂.mutexNext c) (by simp)
      (fun _ => ⟨rfl, rfl⟩))
  rcases devEnqueue_ok he with ⟨_, rfl⟩ | ⟨_, last, _, _, rfl⟩
  · exact clear (h.setDev d _ hown)
  · exact clear (h.setTcb last _ (h.toDisciplined.setTcb last _ rfl (h.prio last)
      (h.mutexNext last) hown (fun _ => ⟨rfl, rfl⟩)))

theorem mutexRelease {m : Nat} {first : TcbPtr} (h : Dispatchable K s c)
    (hq : (s.gtMutex m).pSleepQueue = some first) : Dispatchable K (s.mutexRelease m first) c := by
  obtain ⟨hk, hne⟩ := h.waiter m first hq
  have h₁ := h.setMutex m
    (fun x => { x with pSleepQueue := (s.systemTcb first).mutexSleepQueue }) (h.mutexNext first)
  have h₂ := h₁.setTcb first
    (fun t => { t with mutexSleepQueue := none, pending := 0, curPrio := t.nativePrio })
    (h₁.toDisciplined.setTcb first _ rfl (fun _ => Or.inr (h₁.native first hk)) (by simp)
      (h₁.sleepNext first) (fun hb => absurd hb hne))
  have h₃ := h₂.runqueueAdd hk
  rw [mutexRelease_eq (h.native first hk)]
  exact h₃

theorem dropLock (h : Dispatchable K s c) (hc : c ≠ idleTcb) : Dispatchable K (s.dropLock c) c := by
  have hp : (if (s.systemTcb c).holdsLock > 1 then
        { s.systemTcb c with holdsLock := (s.systemTcb c).holdsLock - 1 }
      else { s.systemTcb c with holdsLock := 0, curPrio := (s.systemTcb c).nativePrio } : Tcb).curPrio
      = highestPriority ∨ (if (s.systemTcb c).holdsLock > 1 then
        { s.systemTcb c with holdsLock := (s.systemTcb c).holdsLock - 1 }
      else { s.systemTcb c with holdsLock := 0, curPrio := (s.systemTcb c).nativePrio } : Tcb).curPrio
      = c.val := by
    split_ifs
    · exact h.prio c h.curKnown
    · exact Or.inr (h.native c h.curKnown)
  refine h.setTcb c _ (h.toDisciplined.setTcb c _ ?_ (fun _ => hp) ?_ ?_ (fun hb => absurd hb hc))
  · split_ifs <;> rfl
  · have hm := h.mutexNext c
    split_ifs <;> exact hm
  · have hs := h.sleepNext c
    split_ifs <;> exact hs

theorem mutexHandOver {m : Nat} (h : Dispatchable K s c) (hc : c ≠ idleTcb) :
    Dispatchable K (s.mutexHandOver m c) c := by
  unfold KState.mutexHandOver
  split
  · rename_i first hq
    exact (h.mutexRelease hq).dropLock hc
  · exact (h.setMutex m _ (h.waiter m)).dropLock hc

theorem drain {fuel : Nat} {p : Option TcbPtr} (h : Dispatchable K s c)
    (hp : ∀ t, p = some t → K t) (hd : KState.drain fuel p s = .ok s₁) : Dispatchable K s₁ c := by
  induction fuel generalizing p s with
  | zero =>
    cases p with
    | none => cases hd; exact h
    | some t => cases hd
  | succ fuel ih =>
    cases p with
    | none => cases hd; exact h
    | some t =>
      have hk := hp t rfl
      rw [KState.drain, h.native t hk] at hd
      refine ih (h.runqueueAdd hk) ?_ hd
      intro u hu
      exact (h.sleepNext t u hu).1

end Dispatchable

/-- The drain loop writes nothing but the run queue. -/
theorem drain_frame {fuel : Nat} {p : Option TcbPtr} (hd : drain fuel p s = .ok s₁) :
    s₁.curTcb = s.curTcb ∧ s₁.systemTcb = s.systemTcb ∧ s₁.devices = s.devices ∧
      s₁.gtMutex = s.gtMutex ∧ s₁.frames = s.frames := by
  induction fuel generalizing p s with
  | zero =>
    cases p with
    | none => cases hd; exact ⟨rfl, rfl, rfl, rfl, rfl⟩
    | some t => cases hd
  | succ fuel ih =>
    cases p with
    | none => cases hd; exact ⟨rfl, rfl, rfl, rfl, rfl⟩
    | some t =>
      rw [KState.drain] at hd
      have h := ih hd
      exact h

/-- The state after `next_match` of device `i` has been advanced. -/
def advance (i : Nat) (s : KState) : KState :=
  (s.setDev i fun d => { d with nextMatch := (d.nextMatch + devFreq i) % 2 ^ 32 }).emit (.signal i)

/-- The three outcomes of one round of `dev_update`'s loop. -/
theorem devSignal_ok {millis i : Nat} {s : KState} {flag : Bool} {r : KState × Bool}
    (h : devSignal millis (s, flag) i = .ok r) :
    (millis < (s.devices i).nextMatch ∧ r = (s, flag)) ∨
    ((s.devices i).nextMatch ≤ millis ∧ (s.devices i).sleepQ = none ∧ r = (s.advance i, flag)) ∨
    ∃ head s₁, (s.devices i).nextMatch ≤ millis ∧ (s.devices i).sleepQ = some head ∧
      drain osMaxTasks (some head) (s.advance i) = .ok s₁ ∧
      r = (s₁.setDev i fun d => { d with sleepQ := none }, true) := by
  have hq : ((s.advance i).devices i).sleepQ = (s.devices i).sleepQ := by
    change (Function.update s.devices i _ i).sleepQ = _
    rw [Function.update_self]
  unfold devSignal at h
  dsimp only at h
  split_ifs at h with hdue
  · split at h
    · rename_i hn
      cases h
      exact Or.inr (Or.inl ⟨hdue, hq ▸ hn, rfl⟩)
    · rename_i head hn
      split at h
      · cases h
      · rename_i s₁ hd
        cases h
        exact Or.inr (Or.inr ⟨head, s₁, hdue, hq ▸ hn, hd, rfl⟩)
  · cases h
    exact Or.inl ⟨Nat.lt_of_not_le hdue, rfl⟩

/-- The wake-up loop writes nothing but the devices and the run queue. -/
theorem devWake_frame {millis : Nat} {r : KState × Bool} (hw : s.devWake millis = .ok r) :
    r.1.curTcb = s.curTcb ∧ r.1.systemTcb = s.systemTcb ∧ r.1.gtMutex = s.gtMutex ∧
      r.1.frames = s.frames := by
  refine foldlM_range_invariant (P := fun _ st => st.1.curTcb = s.curTcb ∧
    st.1.systemTcb = s.systemTcb ∧ st.1.gtMutex = s.gtMutex ∧ st.1.frames = s.frames)
    ⟨rfl, rfl, rfl, rfl⟩ ?_ hw
  intro i st st' _ ha hst
  obtain ⟨b, flag⟩ := st
  rcases devSignal_ok hst with ⟨_, rfl⟩ | ⟨_, _, rfl⟩ | ⟨head, s₁, _, _, hd, rfl⟩
  · exact ha
  · exact ha
  · obtain ⟨h₁, h₂, _, h₄, h₅⟩ := drain_frame hd
    exact ⟨h₁.trans ha.1, h₂.trans ha.2.1, h₄.trans ha.2.2.1, h₅.trans ha.2.2.2⟩

theorem Dispatchable.advance (h : Dispatchable K s c) (i : Nat) :
    Dispatchable K (s.advance i) c :=
  (h.setDev i _ (h.sleeper i)).emit (by simp)

/-- The wake-up loop keeps the discipline; unless it raises the flag nothing became ready. -/
theorem Dispatchable.devWake {millis : Nat} {r : KState × Bool} (h : Dispatchable K s c)
    (hw : s.devWake millis = .ok r) :
    Dispatchable K r.1 c ∧ (r.2 = false → r.1.rq = s.rq ∧ r.1.systemTcb = s.systemTcb) := by
  refine foldlM_range_invariant
    (P := fun _ st => Dispatchable K st.1 c ∧
      (st.2 = false → st.1.rq = s.rq ∧ st.1.systemTcb = s.systemTcb))
    ⟨h, fun _ => ⟨rfl, rfl⟩⟩ ?_ hw
  rintro i ⟨a, flag⟩ st' _ ⟨ha, hflag⟩ hst
  rcases devSignal_ok hst with ⟨_, rfl⟩ | ⟨_, _, rfl⟩ | ⟨head, s₁, _, hq, hd, rfl⟩
  · exact ⟨ha, hflag⟩
  · exact ⟨ha.advance i, hflag⟩
  · have h₁ := (ha.advance i).drain (fun t ht => by cases ht; exact (ha.sleeper i head hq).1) hd
    exact ⟨h₁.setDev i (fun d => { d with sleepQ := none }) (by simp), by simp⟩

/-- Every kernel entry of a running set leaves the new current task the highest. -/
theorem Scheduled.entry {op : Op} (h : Scheduled K s c)
    (hop : ∀ tasks n, op ≠ .call (.taskCreate tasks n))
    (hc : ∀ call, op = .call call → c ≠ idleTcb) (he : Entry s op s₁) :
    ∃ c', Scheduled K s₁ c' := by
  cases he with
  | refuse call v _ => exact ⟨c, h.ret call v⟩
  | create i _ _ =>
    have hd : Dispatchable K _ c :=
      h.toDispatchable.setMutex i (fun x => { x with bAvailable := false }) (h.waiter i)
    have hs : Scheduled K _ c := { hd with order := h.order }
    exact ⟨c, hs.ret _ _⟩
  | acquire m t _ ht _ =>
    cases h.eq_cur ht
    have hd : Dispatchable K _ c :=
      h.toDispatchable.setMutex m (fun x => { x with bLock := true }) (h.waiter m)
    have hs : Scheduled K _ c := { hd with order := h.order }
    exact ⟨c, hs.mutexLockTail m (hc _ rfl)⟩
  | lockBlock m t next s₂ _ ht _ _ hq hp =>
    cases h.eq_cur ht
    have hne := hc _ rfl
    have hd := h.toDispatchable.mutexEnqueue hne hq
    exact ⟨next, hd.toDisciplined.switchTo hp (hd.idleReady.resolve_left hne) c _
      (fun hb => absurd hb hne)⟩
  | unlock m t next s₂ _ ht _ _ hs hp =>
    cases h.eq_cur ht
    subst hs
    have hne := hc _ rfl
    have hd := h.toDispatchable.mutexHandOver (m := m) hne
    exact ⟨next, hd.switchSaved hp _ (by simp)⟩
  | waitBlock d t next s₂ _ ht _ hq hp =>
    cases h.eq_cur ht
    have hne := hc _ rfl
    have hd := h.toDispatchable.devEnqueue hne hq
    exact ⟨next, hd.toDisciplined.switchTo hp (hd.idleReady.resolve_left hne) c _ (by simp)⟩
  | newSet tasks n _ _ _ _ _ _ => exact absurd rfl (hop tasks n)
  | tick millis s₂ hw =>
    obtain ⟨hd, hsame⟩ := h.toDispatchable.devWake hw
    obtain ⟨hrq, htcb⟩ := hsame rfl
    refine ⟨c, { hd with order := ?_ }⟩
    intro p hp
    rw [hrq] at hp
    rw [htcb]
    exact h.order p hp
  | wake millis t next s₂ s₃ hw ht hs hp =>
    subst hs
    have hd := (h.toDispatchable.devWake hw).1
    cases hd.eq_cur ht
    exact ⟨next, hd.switchSaved hp _ (by simp)⟩

end RtosKernel.KState
