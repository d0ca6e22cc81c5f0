import RtosKernel.Mutexes.HighestLocker
import RtosKernel.Mutexes.ReturnCodes

namespace RtosKernel.KState

/-- The first waiter `u` would be dispatched by the very unlock of `c` that releases it. -/
def AtOnce (s : KState) (c u : TcbPtr) : Prop :=
  (s.systemTcb c).holdsLock ≤ 1 ∧ (s.systemTcb u).nativePrio < (s.systemTcb c).nativePrio ∧
    ∀ p < osMaxTasks, s.rq.runList p ≠ none → (s.systemTcb u).nativePrio < p

/-- The two steps that part a task's priority from its lock count are excluded: an unlock that
resets the priority of a waiter with locks and does not let it run, and a lock that wraps a count
to zero. -/
def SafeForPrio (s : KState) : Op → Prop
  | .call (.mutexLock mutex) =>
    0 ≤ mutex → mutex < osNumMutex → ∀ c ∈ s.curTcb, ¬ Deadlocks s c mutex.toNat →
      (s.systemTcb c).holdsLock ≠ -1
  | .call (.mutexUnlock mutex) =>
    0 ≤ mutex → mutex < osNumMutex → ∀ c ∈ s.curTcb, Unlocks s c mutex.toNat →
      ∀ u ∈ (s.gtMutex mutex.toNat).pSleepQueue, (s.systemTcb u).holdsLock ≤ 0 ∨ AtOnce s c u
  | _ => True

def safeForPrio (s : KState) (op : Op) : Prop := sameSet s op ∧ SafeForPrio s op

instance (s : KState) (c u : TcbPtr) : Decidable (AtOnce s c u) := by
  unfold AtOnce
  infer_instance

instance (s : KState) (t : TcbPtr) (m : Nat) : Decidable (Deadlocks s t m) := by
  unfold Deadlocks
  infer_instance

instance (s : KState) (t : TcbPtr) (m : Nat) : Decidable (Unlocks s t m) := by
  unfold Unlocks
  infer_instance

instance : ∀ s op, Decidable (SafeForPrio s op)
  | s, .call (.mutexLock mutex) => by unfold SafeForPrio; infer_instance
  | s, .call (.mutexUnlock mutex) => by unfold SafeForPrio; infer_instance
  | _, .call .mutexCreate => isTrue trivial
  | _, .call (.eventWait _) => isTrue trivial
  | _, .call (.taskCreate _ _) => isTrue trivial
  | _, .timer _ => isTrue trivial

instance (s : KState) (op : Op) : Decidable (safeForPrio s op) :=
  inferInstanceAs (Decidable (_ ∧ _))

/-- The count fits an `int`. -/
def IntRange (x : Int) : Prop := -2 ^ 31 ≤ x ∧ x < 2 ^ 31

/-- With a lock a task has the ceiling priority, without one its native priority. -/
def AtCeiling (x : Tcb) : Prop :=
  (x.holdsLock = 0 → x.curPrio = x.nativePrio) ∧ (x.holdsLock ≠ 0 → x.curPrio = highestPriority)

/-- A task that does not run. One released from a mutex queue has been set to its native priority
and has yet to take the mutex. -/
def Parked (f : Frame) (x : Tcb) : Prop :=
  IntRange x.holdsLock ∧ match f with
  | .mutexLock _ => x.holdsLock ≠ -1 ∧
    if x.pending = 1 then AtCeiling x else x.holdsLock ≤ 0 ∧ x.curPrio = x.nativePrio
  | _ => AtCeiling x

/-- A task that is about to run. -/
def Resumable (f : Frame) (x : Tcb) : Prop :=
  IntRange x.holdsLock ∧ match f with
  | .mutexLock _ => x.holdsLock ≠ -1
  | _ => AtCeiling x

structure Ceilings (K : TcbPtr → Prop) (s : KState) (c : TcbPtr) : Prop where
  running : IntRange (s.systemTcb c).holdsLock ∧ AtCeiling (s.systemTcb c)
  parked : ∀ t, K t → t ≠ c → Parked (s.frames t) (s.systemTcb t)

variable {K : TcbPtr → Prop} {a : Placement TcbPtr Place} {s s' s₁ : KState}
  {c t u next : TcbPtr} {k f : Frame} {x y : Tcb} {n m : Nat}

/-- Counting up keeps the range, and reaches zero from -1 only. -/
theorem wrap32_succ {v : Int} (hr : IntRange v) (hne : v ≠ -1) :
    IntRange (wrap32 (v + 1)) ∧ wrap32 (v + 1) ≠ 0 := by
  obtain ⟨hlo, hhi⟩ := hr
  unfold wrap32
  rcases lt_or_ge (v + 1) (2 ^ 31) with hsmall | hbig
  · rw [Int.bmod_eq_of_le (by omega) (by omega)]
    exact ⟨⟨by omega, hsmall⟩, by omega⟩
  · have hv : v + 1 = 2 ^ 31 := by omega
    rw [hv]
    exact ⟨⟨by decide, by decide⟩, by decide⟩

theorem AtCeiling.of_eq (h : AtCeiling x) (hn : y.nativePrio = x.nativePrio)
    (hp : y.curPrio = x.curPrio) (hl : y.holdsLock = x.holdsLock) : AtCeiling y := by
  unfold AtCeiling
  rw [hn, hp, hl]
  exact h

theorem Parked.of_eq (h : Parked f x) (hn : y.nativePrio = x.nativePrio)
    (hp : y.curPrio = x.curPrio) (hl : y.holdsLock = x.holdsLock)
    (hw : y.pending = x.pending) : Parked f y := by
  unfold Parked AtCeiling
  rw [hn, hp, hl, hw]
  exact h

theorem Parked.resumable (h : Parked f x) : Resumable f x := by
  obtain ⟨hr, h⟩ := h
  refine ⟨hr, ?_⟩
  cases f with
  | mutexLock m => exact h.1
  | launch => exact h
  | mutexUnlock m => exact h
  | devWait d => exact h
  | devUpdate => exact h

/-- What a dispatched task that stopped at `f` does to its own TCB. -/
def finishLock (f : Frame) (x : Tcb) : Tcb :=
  match f with
  | .mutexLock _ => { x with holdsLock := wrap32 (x.holdsLock + 1), curPrio := highestPriority }
  | _ => x

theorem resume_tcb (t u : TcbPtr) (s : KState) :
    (s.resume t).systemTcb u =
      if u = t then finishLock (s.frames t) (s.systemTcb t) else s.systemTcb u := by
  unfold resume
  cases s.frames t with
  | mutexLock m => exact setTcb_apply s t (finishLock (.mutexLock m)) u
  | launch => exact (ite_eq_right_iff.mpr fun h => congrArg s.systemTcb h.symm).symm
  | mutexUnlock m => exact (ite_eq_right_iff.mpr fun h => congrArg s.systemTcb h.symm).symm
  | devWait d => exact (ite_eq_right_iff.mpr fun h => congrArg s.systemTcb h.symm).symm
  | devUpdate => exact (ite_eq_right_iff.mpr fun h => congrArg s.systemTcb h.symm).symm

theorem Resumable.finishLock (h : Resumable f x) :
    IntRange (KState.finishLock f x).holdsLock ∧ AtCeiling (KState.finishLock f x) := by
  obtain ⟨hr, h⟩ := h
  cases f with
  | mutexLock m =>
    obtain ⟨hrange, hne⟩ := wrap32_succ hr h
    exact ⟨hrange, fun hz => absurd hz hne, fun _ => rfl⟩
  | launch => exact ⟨hr, h⟩
  | mutexUnlock m => exact ⟨hr, h⟩
  | devWait d => exact ⟨hr, h⟩
  | devUpdate => exact ⟨hr, h⟩

theorem Resumable.of_eq (h : Resumable f x) (hn : y.nativePrio = x.nativePrio)
    (hp : y.curPrio = x.curPrio) (hl : y.holdsLock = x.holdsLock) : Resumable f y := by
  unfold Resumable AtCeiling
  rw [hn, hp, hl]
  exact h

/-- Whoever is dispatched ends at its ceiling; nobody else is touched. -/
theorem Ceilings.switchTo
    (hpark : ∀ t, K t → t ≠ next → Parked (Function.update s.frames c k t) (s.systemTcb t))
    (hnext : Resumable (s.nextFrame next c k) (s.systemTcb next)) :
    Ceilings K (s.switchTo next c k) next := by
  have hstore (u : TcbPtr) : ∃ r,
      (s.setTcb c fun x => { x with context := s.regs }).systemTcb u =
        { s.systemTcb u with context := r } := by
    rw [setTcb_apply]
    split_ifs with hu
    · exact ⟨s.regs, by rw [hu]⟩
    · exact ⟨_, rfl⟩
  have hframe : Function.update s.frames c k next = s.nextFrame next c k :=
    Function.update_apply ..
  have htcb (u : TcbPtr) : (s.switchTo next c k).systemTcb u = if u = next then
      KState.finishLock (Function.update s.frames c k next)
        ((s.setTcb c fun x => { x with context := s.regs }).systemTcb next)
      else (s.setTcb c fun x => { x with context := s.regs }).systemTcb u := resume_tcb next u _
  constructor
  · rw [htcb, if_pos rfl, hframe]
    obtain ⟨r, hr⟩ := hstore next
    rw [hr]
    have hres : Resumable (s.nextFrame next c k) { s.systemTcb next with context := r } :=
      hnext.of_eq rfl rfl rfl
    exact hres.finishLock
  · intro t hk hne
    rw [htcb, if_neg hne, switchTo_frames]
    obtain ⟨r, hr⟩ := hstore t
    rw [hr]
    exact (hpark t hk hne).of_eq rfl rfl rfl rfl

/-- The same, when all but the leaving task are parked as before. -/
theorem Ceilings.leave (h : Ceilings K s c) (hfr : s₁.frames = s.frames)
    (htcb : ∀ t, t ≠ c → (s₁.systemTcb t).nativePrio = (s.systemTcb t).nativePrio ∧
      (s₁.systemTcb t).curPrio = (s.systemTcb t).curPrio ∧
      (s₁.systemTcb t).holdsLock = (s.systemTcb t).holdsLock ∧
      (s₁.systemTcb t).pending = (s.systemTcb t).pending)
    (hc : Parked k (s₁.systemTcb c)) (hkn : K next) :
    Ceilings K (s₁.switchTo next c k) next := by
  have hall (t : TcbPtr) (hk : K t) :
      Parked (Function.update s₁.frames c k t) (s₁.systemTcb t) := by
    rw [Function.update_apply, hfr]
    split_ifs with ht
    · rw [ht]
      exact hc
    · obtain ⟨hn, hp, hl, hw⟩ := htcb t ht
      exact (h.parked t hk ht).of_eq hn hp hl hw
  apply Ceilings.switchTo (fun t hk _ => hall t hk)
  have hframe : Function.update s₁.frames c k next = s₁.nextFrame next c k :=
    Function.update_apply ..
  rw [← hframe]
  exact (hall next hkn).resumable

/-- An operation that touches no lock count, no priority and no frame. -/
theorem Ceilings.congr (h : Ceilings K s c) (hfr : s₁.frames = s.frames)
    (htcb : s₁.systemTcb = s.systemTcb) : Ceilings K s₁ c where
  running := by
    rw [htcb]
    exact h.running
  parked := by
    rw [htcb, hfr]
    exact h.parked

section Unlock

/-- The caller's count after an unlock. -/
def dropTcb (x : Tcb) : Tcb :=
  if x.holdsLock > 1 then { x with holdsLock := x.holdsLock - 1 }
  else { x with holdsLock := 0, curPrio := x.nativePrio }

theorem AtCeiling.dropTcb (h : AtCeiling x) (hr : IntRange x.holdsLock) :
    IntRange (KState.dropTcb x).holdsLock ∧ AtCeiling (KState.dropTcb x) := by
  obtain ⟨hlo, hhi⟩ := hr
  unfold KState.dropTcb
  split_ifs with hgt
  · refine ⟨⟨?_, ?_⟩, fun hz => ?_, fun _ => h.2 (by omega)⟩
    · show -2 ^ 31 ≤ x.holdsLock - 1
      omega
    · show x.holdsLock - 1 < 2 ^ 31
      omega
    · have hz' : x.holdsLock - 1 = 0 := hz
      omega
  · have hzero : IntRange 0 := ⟨by decide, by decide⟩
    exact ⟨hzero, fun _ => rfl, fun hz => absurd rfl hz⟩

/-- A release resets the first waiter, whatever locks it has. -/
theorem mutexHandOver_release (hq : (s.gtMutex m).pSleepQueue = some u) (hcu : c ≠ u)
    (hn : (s.systemTcb u).nativePrio = u.val) :
    (∀ t, (s.mutexHandOver m c).systemTcb t = if t = c then KState.dropTcb (s.systemTcb c)
      else if t = u then { s.systemTcb u with
        mutexSleepQueue := none, pending := 0, curPrio := (s.systemTcb u).nativePrio }
      else s.systemTcb t) ∧
    (s.mutexHandOver m c).rq.runList = if s.rq.runList u.val = none then
      Function.update s.rq.runList u.val (some u) else s.rq.runList := by
  have hover : s.mutexHandOver m c = (s.mutexRelease m u).dropLock c := by
    unfold mutexHandOver
    rw [hq]
  have hrel (t : TcbPtr) : (s.mutexRelease m u).systemTcb t = if t = u then
      { s.systemTcb u with
        mutexSleepQueue := none, pending := 0, curPrio := (s.systemTcb u).nativePrio }
      else s.systemTcb t := by
    rw [mutexRelease_eq hn]
    exact setTcb_apply (s.setMutex m _) u (fun x => { x with
      mutexSleepQueue := none, pending := 0, curPrio := x.nativePrio }) t
  constructor
  · intro t
    have hdrop : ((s.mutexRelease m u).dropLock c).systemTcb t = if t = c then
        KState.dropTcb ((s.mutexRelease m u).systemTcb c) else (s.mutexRelease m u).systemTcb t :=
      setTcb_apply (s.mutexRelease m u) c KState.dropTcb t
    rw [hover, hdrop, hrel, hrel, if_neg hcu]
  · rw [hover, mutexRelease_eq hn]
    exact runqueueAdd_runList ..

theorem runqueueAdd_occupied (t : TcbPtr) (q p : Nat) :
    (s.runqueueAdd t q).rq.runList p ≠ none ↔ p = q ∨ s.rq.runList p ≠ none := by
  rw [runqueueAdd_runList]
  split_ifs with hq
  · rw [Function.update_apply]
    split_ifs with hp
    · simp [hp]
    · simp [hp]
  · constructor
    · exact Or.inr
    · rintro (rfl | hp)
      · exact hq
      · exact hp

/-- A waiter that comes before everything else is dispatched by the unlock that releases it. -/
theorem Scheduled.next_atOnce (h : Scheduled K s c) (hc : c ≠ idleTcb)
    (hpend : (s.systemTcb c).pending ≠ 1) (hq : (s.gtMutex m).pSleepQueue = some u)
    (hcu : c ≠ u) (hao : AtOnce s c u) (hp : ((s.mutexHandOver m c).saveCur c).Picks next) :
    next = u := by
  obtain ⟨hku, _⟩ := h.waiter m u hq
  have hnu := h.native u hku
  have hnc := h.native c h.curKnown
  obtain ⟨hone, hfirst, hall⟩ := hao
  rw [hnu, hnc] at hfirst
  rw [hnu] at hall
  obtain ⟨htcb, hrun⟩ := mutexHandOver_release (c := c) hq hcu hnu
  have hempty : s.rq.runList u.val = none := by
    by_contra hocc
    exact Nat.lt_irrefl _ (hall u.val u.isLt hocc)
  rw [if_pos hempty] at hrun
  have hdrop : (s.mutexHandOver m c).systemTcb c =
      { s.systemTcb c with holdsLock := 0, curPrio := (s.systemTcb c).nativePrio } := by
    rw [htcb, if_pos rfl, KState.dropTcb, if_neg (by omega)]
  have hsave : (s.mutexHandOver m c).saveCur c = (s.mutexHandOver m c).runqueueAdd c c.val := by
    unfold saveCur
    rw [hdrop, if_pos hpend, hnc]
  rw [hsave] at hp
  have hslot : ((s.mutexHandOver m c).runqueueAdd c c.val).rq.runList u.val = some u := by
    rw [runqueueAdd_runList]
    split_ifs
    · rw [Function.update_of_ne (Nat.ne_of_lt hfirst), hrun, Function.update_self]
    · rw [hrun, Function.update_self]
  have hd := h.toDispatchable.mutexHandOver (m := m) hc
  have hwf := (hd.toDisciplined.runqueueAdd h.curKnown).wf
  obtain ⟨hocc, hleast⟩ := RunQueue.highestPrio_least hwf ⟨u.isLt, by rw [hslot]; simp⟩
  have hle := hleast u.val ⟨u.isLt, by rw [hslot]; simp⟩
  have hge : u.val ≤ ((s.mutexHandOver m c).runqueueAdd c c.val).rq.highestPrio := by
    rcases (runqueueAdd_occupied c c.val _).mp hocc.2 with heq | hocc'
    · omega
    · rw [hrun, Function.update_apply] at hocc'
      split_ifs at hocc' with heq
      · omega
      · exact Nat.le_of_lt (hall _ hocc.1 hocc')
  have heq := Nat.le_antisymm hle hge
  have hs := hp.slot
  rw [heq, hslot] at hs
  exact (Option.some.inj hs).symm

end Unlock

/-- The unlock step. -/
theorem Ceilings.unlock (h : Ceilings K s c) (hl : Located K a s) (hs : Scheduled K s c)
    (hc : c ≠ idleTcb) (hsafe : ∀ u, (s.gtMutex m).pSleepQueue = some u →
      (s.systemTcb u).holdsLock ≤ 0 ∨ AtOnce s c u)
    (hp : ((s.mutexHandOver m c).saveCur c).Picks next) :
    Ceilings K (((s.mutexHandOver m c).saveCur c).switchTo next c (.mutexUnlock m)) next := by
  have hkn := (hs.toDispatchable.mutexHandOver (m := m) hc).saveCur_known hp
  obtain ⟨hrange, hceil⟩ := h.running
  have hself : Parked (.mutexUnlock m) (KState.dropTcb (s.systemTcb c)) := hceil.dropTcb hrange
  have hfr : ((s.mutexHandOver m c).saveCur c).frames = s.frames :=
    (saveCur_frames ..).trans (mutexHandOver_frames m c s)
  cases hq : (s.gtMutex m).pSleepQueue with
  | none =>
    have htcb := mutexHandOver_tcb (c := c) hq
    apply h.leave hfr _ _ hkn
    · intro t ht
      rw [saveCur_systemTcb, htcb, if_neg ht]
      exact ⟨rfl, rfl, rfl, rfl⟩
    · rw [saveCur_systemTcb, htcb, if_pos rfl]
      exact hself
  | some u =>
    have hrun : a.place c = .running := (hl.running c).mpr hs.cur
    have hplace : a.place u = .mutex m := by
      rcases hl.toPlaced.mutexHandOver (m := m) (c := c) hs.toDisciplined with
        ⟨hnone, _⟩ | ⟨first, hfirst, hplace, _⟩
      · cases hq.symm.trans hnone
      · cases hq.symm.trans hfirst
        exact hplace
    have hcu : c ≠ u := by
      rintro rfl
      rw [hrun] at hplace
      cases hplace
    obtain ⟨hku, _⟩ := hs.waiter m u hq
    obtain ⟨htcb, _⟩ := mutexHandOver_release (c := c) hq hcu (hs.native u hku)
    have hwait := h.parked u hku (Ne.symm hcu)
    rw [hl.mutexFrame u m hplace] at hwait
    obtain ⟨hrange', hne, _⟩ := hwait
    have hpend := hl.pending_of_running hrun
    have hfirst (hnu : u ≠ next) : (s.systemTcb u).holdsLock ≤ 0 := by
      rcases hsafe u hq with hle | hao
      · exact hle
      · exact absurd (hs.next_atOnce hc hpend hq hcu hao hp).symm hnu
    have hframe (t : TcbPtr) : Function.update ((s.mutexHandOver m c).saveCur c).frames c
        (.mutexUnlock m) t = if t = c then .mutexUnlock m else s.frames t := by
      rw [Function.update_apply, hfr]
    have hpark (t : TcbPtr) (hk : K t) (hnt : t = u → t ≠ next) :
        Parked (Function.update ((s.mutexHandOver m c).saveCur c).frames c (.mutexUnlock m) t)
          (((s.mutexHandOver m c).saveCur c).systemTcb t) := by
      rw [hframe, saveCur_systemTcb, htcb]
      split_ifs with htc htu
      · exact hself
      · subst htu
        rw [hl.mutexFrame t m hplace]
        exact ⟨hrange', hne, by simpa using hfirst (hnt rfl)⟩
      · exact h.parked t hk htc
    apply Ceilings.switchTo (fun t hk hne => hpark t hk fun _ => hne)
    have hnf : ((s.mutexHandOver m c).saveCur c).nextFrame next c (.mutexUnlock m) =
        Function.update ((s.mutexHandOver m c).saveCur c).frames c (.mutexUnlock m) next :=
      (Function.update_apply ..).symm
    by_cases hnu : next = u
    · rw [hnf, hframe, saveCur_systemTcb, htcb, hnu, if_neg (Ne.symm hcu), if_neg (Ne.symm hcu),
        if_pos rfl, hl.mutexFrame u m hplace]
      exact ⟨hrange', hne⟩
    · rw [hnf]
      exact (hpark next hkn fun he => absurd he hnu).resumable

/-- Blocking on a mutex writes links, and the caller's `pending`. -/
theorem mutexEnqueue_tcb (h : s.mutexEnqueue m c = .ok s₁) (t : TcbPtr) :
    (s₁.systemTcb t).nativePrio = (s.systemTcb t).nativePrio ∧
    (s₁.systemTcb t).curPrio = (s.systemTcb t).curPrio ∧
    (s₁.systemTcb t).holdsLock = (s.systemTcb t).holdsLock ∧
    (s₁.systemTcb t).pending = if t = c then 1 else (s.systemTcb t).pending := by
  have hmark : ((s.markWaiting c).systemTcb t).nativePrio = (s.systemTcb t).nativePrio ∧
      ((s.markWaiting c).systemTcb t).curPrio = (s.systemTcb t).curPrio ∧
      ((s.markWaiting c).systemTcb t).holdsLock = (s.systemTcb t).holdsLock ∧
      ((s.markWaiting c).systemTcb t).pending = if t = c then 1 else (s.systemTcb t).pending := by
    unfold markWaiting
    rw [setTcb_apply]
    split_ifs with ht
    · rw [ht]
      exact ⟨rfl, rfl, rfl, rfl⟩
    · exact ⟨rfl, rfl, rfl, rfl⟩
  rcases mutexEnqueue_ok h with ⟨_, rfl⟩ | ⟨_, last, _, _, rfl⟩
  · exact hmark
  · rw [setTcb_apply]
    split_ifs with ht htc
    · subst ht
      rw [if_pos htc] at hmark
      exact hmark
    · subst ht
      rw [if_neg htc] at hmark
      exact hmark
    · rw [if_pos ‹_›] at hmark
      exact hmark
    · rw [if_neg ‹_›] at hmark
      exact hmark

theorem devEnqueue_pending {d : Nat} (h : s.devEnqueue d c = .ok s₁) (t : TcbPtr) :
    (s₁.systemTcb t).pending = (s.systemTcb t).pending := by
  have link (u : TcbPtr) (p : Option TcbPtr) (s : KState) :
      ((s.setTcb u fun x => { x with sleepQueue := p }).systemTcb t).pending =
        (s.systemTcb t).pending := by
    rw [setTcb_apply]
    split_ifs with ht
    · rw [ht]
    · rfl
  rcases devEnqueue_ok h with ⟨_, rfl⟩ | ⟨_, last, _, _, rfl⟩
  · exact link c none _
  · exact (link c none _).trans (link last (some c) s)

/-- One kernel entry. -/
theorem Ceilings.entry {op : Op} (h : Ceilings K s c) (hl : Located K a s) (hs : Scheduled K s c)
    (hop : safeForPrio s op) (hc : ∀ call, op = .call call → c ≠ idleTcb) (he : Entry s op s₁) :
    ∃ c', s₁.curTcb = some c' ∧ Ceilings K s₁ c' := by
  obtain ⟨hrange, hceil⟩ := h.running
  cases he with
  | refuse call v hv => exact ⟨c, hs.cur, h.congr rfl rfl⟩
  | create i _ _ => exact ⟨c, hs.cur, h.congr rfl rfl⟩
  | acquire m t hm ht hfree =>
    cases hs.eq_cur ht
    have hcount : (s.systemTcb c).holdsLock ≠ -1 := by
      apply hop.2 (Int.natCast_nonneg m) (Int.ofNat_lt.mpr hm) c ht
      rintro ⟨hlock, _⟩
      rw [Int.toNat_natCast, hfree] at hlock
      cases hlock
    have htcb (u : TcbPtr) : ((s.setMutex m fun x =>
        { x with bLock := true }).mutexLockTail m c).systemTcb u =
          if u = c then finishLock (.mutexLock m) (s.systemTcb c) else s.systemTcb u :=
      setTcb_apply (s.setMutex m fun x => { x with bLock := true }) c
        (finishLock (.mutexLock m)) u
    have hres : Resumable (.mutexLock m) (s.systemTcb c) := ⟨hrange, hcount⟩
    refine ⟨c, hs.cur, ⟨?_, fun u hk hne => ?_⟩⟩
    · rw [htcb, if_pos rfl]
      exact hres.finishLock
    · rw [htcb, if_neg hne]
      exact h.parked u hk hne
  | lockBlock m t next s₂ hm ht hlock hown hq hp =>
    cases hs.eq_cur ht
    have hcount : (s.systemTcb c).holdsLock ≠ -1 := by
      apply hop.2 (Int.natCast_nonneg m) (Int.ofNat_lt.mpr hm) c ht
      rintro ⟨_, hholder⟩
      exact hown hholder
    have hd := hs.toDispatchable.mutexEnqueue (hc _ rfl) hq
    have htcb := mutexEnqueue_tcb hq
    refine ⟨next, switchTo_curTcb, ?_⟩
    apply h.leave (mutexEnqueue_frames hq) _ _ (hd.slot _ _ hp.slot).2
    · intro u hu
      obtain ⟨hn, hpr, hho, hpe⟩ := htcb u
      rw [if_neg hu] at hpe
      exact ⟨hn, hpr, hho, hpe⟩
    · obtain ⟨hn, hpr, hho, hpe⟩ := htcb c
      rw [if_pos rfl] at hpe
      refine ⟨by rw [hho]; exact hrange, by rw [hho]; exact hcount, ?_⟩
      rw [if_pos hpe]
      exact hceil.of_eq hn hpr hho
  | unlock m t next s₂ hm ht hav hown hs₂ hp =>
    cases hs.eq_cur ht
    subst hs₂
    refine ⟨next, switchTo_curTcb, h.unlock hl hs (hc _ rfl) (fun u hu => ?_) hp⟩
    have hsafe := hop.2 (Int.natCast_nonneg m) (Int.ofNat_lt.mpr hm) c ht
    rw [Int.toNat_natCast] at hsafe
    exact hsafe ⟨hav, hown⟩ u hu
  | waitBlock d t next s₂ _ ht _ hq hp =>
    cases hs.eq_cur ht
    have hd := hs.toDispatchable.devEnqueue (hc _ rfl) hq
    have htcb (u : TcbPtr) := devEnqueue_tcb hq u
    refine ⟨next, switchTo_curTcb, ?_⟩
    apply h.leave (devEnqueue_frames hq) _ _ (hd.slot _ _ hp.slot).2
    · intro u _
      obtain ⟨hho, hpr, hn⟩ := htcb u
      exact ⟨hn, hpr, hho, devEnqueue_pending hq u⟩
    · obtain ⟨hho, hpr, hn⟩ := htcb c
      exact ⟨by rw [hho]; exact hrange, hceil.of_eq hn hpr hho⟩
  | newSet tasks n _ _ _ _ _ _ => exact absurd hop.1 id
  | tick millis s₂ hw =>
    obtain ⟨hcur, htcb, _, hfr⟩ := devWake_frame hw
    exact ⟨c, hcur.trans hs.cur, h.congr hfr htcb⟩
  | wake millis t next s₂ s₃ hw ht hs₃ hp =>
    obtain ⟨hcur, htcb, _, hfr⟩ := devWake_frame hw
    cases hs.eq_cur (hcur.symm.trans ht)
    subst hs₃
    have hd := (hs.toDispatchable.devWake hw).1
    have hsame : (s₂.saveCur c).systemTcb = s.systemTcb := (saveCur_systemTcb ..).trans htcb
    refine ⟨next, switchTo_curTcb, ?_⟩
    apply h.leave ((saveCur_frames ..).trans hfr) _ _ (hd.saveCur_known hp)
    · intro u _
      rw [hsame]
      exact ⟨rfl, rfl, rfl, rfl⟩
    · rw [hsame]
      exact ⟨hrange, hceil⟩

/-- A fresh set has no locks. -/
theorem Booted.ceilings {tasks : Nat → Task} {regs : SchedContext} (h : Booted s)
    (hc : Creates tasks n regs s s') (hcur : s'.curTcb = some c) (hk : IsTask n c) :
    Ceilings (IsTask n) s' c := by
  have hlock := h.lockState hc hcur
  have hnone (t : TcbPtr) (ht : IsTask n t) : (s'.systemTcb t).holdsLock = 0 := by
    obtain ⟨owned, hmem, hcard⟩ := hlock.count t ht
    have hempty : owned = ∅ := by
      rw [Finset.eq_empty_iff_forall_notMem]
      intro m hm
      exact h.not_holds t m ((hc.replies.holds t m).mp ((hmem m).mp hm).1)
    rw [hcard, hempty]
    rfl
  have hceil (t : TcbPtr) (ht : IsTask n t) :
      IntRange (s'.systemTcb t).holdsLock ∧ AtCeiling (s'.systemTcb t) := by
    have hprio := hlock.prio t ht
    have hz := hnone t ht
    rw [if_pos hz] at hprio
    rw [hz]
    exact ⟨⟨by decide, by decide⟩, fun _ => hprio, fun hne => absurd hz hne⟩
  refine ⟨hceil c hk, fun t ht hne => ?_⟩
  have hframe := hlock.frame t
  cases hf : s'.frames t with
  | mutexLock m => exact absurd hf (hframe m ht hne)
  | launch => exact hceil t ht
  | mutexUnlock m => exact hceil t ht
  | devWait d => exact hceil t ht
  | devUpdate => exact hceil t ht

theorem Run.ceilings (h : Run safeForPrio n s) :
    ∃ a c, Scheduled (IsTask n) s c ∧ Located (IsTask n) a s ∧ Ceilings (IsTask n) s c := by
  induction h with
  | start tasks regs hboot hc =>
    obtain ⟨a, c, hs, hl⟩ := (Booted.of_boot hboot).located hc
    exact ⟨a, c, hs, hl, (Booted.of_boot hboot).ceilings hc hs.cur hs.curKnown⟩
  | step _ hst ih =>
    obtain ⟨a, c, hs, hl, hce⟩ := ih
    obtain ⟨a', c', hs', hl'⟩ := hl.step hs (hst.mono fun _ _ => And.left)
    obtain ⟨regs, op, s₁, hop, hidle, he, rfl⟩ := hst.entry (by rw [hs.cur]; simp)
    have hi : Ceilings (IsTask n) (KState.interrupt regs _) c := hce.congr rfl rfl
    obtain ⟨c'', hcur, hce'⟩ := hi.entry (hl.interrupt regs) (hs.interrupt regs) hop
      (hs.caller hidle) he
    cases Option.some.inj (hcur.symm.trans hs'.cur)
    exact ⟨a', _, hs', hl', hce'.congr rfl rfl⟩

/-- In a run without those two steps every task has the ceiling priority while it has locks, and
its native priority without. -/
theorem keepsCeiling (h : Run safeForPrio n s) (ht : IsTask n t) :
    (0 < (s.systemTcb t).holdsLock → (s.systemTcb t).curPrio = highestPriority) ∧
    ((s.systemTcb t).holdsLock = 0 → (s.systemTcb t).curPrio = (s.systemTcb t).nativePrio) := by
  obtain ⟨a, c, hs, hl, hce⟩ := h.ceilings
  have hboth (hat : AtCeiling (s.systemTcb t)) :
      (0 < (s.systemTcb t).holdsLock → (s.systemTcb t).curPrio = highestPriority) ∧
      ((s.systemTcb t).holdsLock = 0 → (s.systemTcb t).curPrio = (s.systemTcb t).nativePrio) :=
    ⟨fun hpos => hat.2 (by omega), hat.1⟩
  by_cases htc : t = c
  · rw [htc]
    rw [htc] at hboth
    exact hboth hce.running.2
  · obtain ⟨_, hpark⟩ := hce.parked t ht htc
    cases hf : s.frames t with
    | launch => rw [hf] at hpark; exact hboth hpark
    | mutexUnlock m => rw [hf] at hpark; exact hboth hpark
    | devWait d => rw [hf] at hpark; exact hboth hpark
    | devUpdate => rw [hf] at hpark; exact hboth hpark
    | mutexLock m =>
      rw [hf] at hpark
      obtain ⟨_, hpark⟩ := hpark
      split_ifs at hpark
      · exact hboth hpark
      · exact ⟨fun hpos => by omega, fun _ => hpark.2⟩

/-- Task 2 waits for mutex 0 without a lock, and gets its priority back with the mutex. -/
theorem keepsCeiling_handOver : ∃ s, Run safeForPrio 2 s ∧ (s.systemTcb 2).holdsLock = 1 ∧
    (s.systemTcb 2).curPrio = highestPriority := by
  have hx : ((startSet zeroContext 2 sampleTasks 2).bind (execute safeForPrio zeroContext
      [.call (.mutexLock 0), .call (.mutexLock 1), .call (.mutexUnlock 1),
        .call (.mutexUnlock 1), .call (.eventWait 0), .call (.mutexLock 0), .timer 100,
        .call (.mutexUnlock 0), .call (.eventWait 1)])).map
        (fun s => (s.systemTcb 2).holdsLock) = some 1 := by decide +kernel
  obtain ⟨s, hs, hv⟩ := Option.map_eq_some_iff.mp hx
  have ht : IsTask 2 (2 : TcbPtr) := by decide
  have hkeeps := (keepsCeiling (execute_run hs) ht).1
  exact ⟨s, execute_run hs, hv, hkeeps (by rw [hv]; decide)⟩

/-- Task 2 holds mutex 2 and waits for mutex 0; the unlock that hands mutex 0 over takes its
ceiling priority away. -/
theorem waiterWithLock_lowered : ∃ s, Run sameSet 2 s ∧ IsTask 2 2 ∧
    (∀ m, m < osNumMutex → (s.gtMutex m).pSleepQueue = none) ∧
    (s.systemTcb 2).holdsLock = 1 ∧ (s.systemTcb 2).curPrio = 2 := by
  have hx : ((startSet zeroContext 3 sampleTasks 2).bind (execute sameSet zeroContext
      [.call (.mutexLock 0), .call (.mutexLock 1), .call (.mutexUnlock 1),
        .call (.mutexUnlock 1), .call (.eventWait 0), .call (.mutexLock 2), .call (.mutexLock 0),
        .timer 100, .call (.mutexUnlock 0)])).map
        (fun s => decide ((∀ m < osNumMutex, (s.gtMutex m).pSleepQueue = none) ∧
          (s.systemTcb 2).holdsLock = 1 ∧ (s.systemTcb 2).curPrio = 2)) = some true := by
    decide +kernel
  obtain ⟨s, hs, hv⟩ := Option.map_eq_some_iff.mp hx
  obtain ⟨hq, hone, hprio⟩ := of_decide_eq_true hv
  exact ⟨s, execute_run hs, by decide, hq, hone, hprio⟩

end RtosKernel.KState
