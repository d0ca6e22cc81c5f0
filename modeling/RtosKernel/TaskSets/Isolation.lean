import RtosKernel.TaskSets.Alike

namespace RtosKernel.KState

variable {K : TcbPtr → Prop} {L L' : List Event} {s r : KState} {t u c next last : TcbPtr}
  {m d : Nat} {k : Frame}

/-- What the loop over the devices keeps: the states stay alike and the flags equal. -/
def AlikeFlag (K : TcbPtr → Prop) (L L' : List Event) (a b : KState × Bool) : Prop :=
  Alike K L L' a.1 b.1 ∧ b.2 = a.2

namespace Alike

theorem resume (h : Alike K L L' s r) (ht : K t) : Alike K L L' (s.resume t) (r.resume t) := by
  unfold KState.resume
  rw [h.frame t ht]
  cases hf : s.frames t with
  | launch => exact h.enableInterrupts
  | mutexLock m => exact h.mutexLockTail ht (h.frameIn t m ht hf)
  | mutexUnlock m => exact h.enableInterrupts.ret _ _
  | devWait d => exact h.enableInterrupts.ret _ _
  | devUpdate => exact h.enableInterrupts

theorem switchTo (h : Alike K L L' s r) (hn : K next) (hl : K last)
    (hk : ∀ i, k = .mutexLock i → i < osNumMutex) :
    Alike K L L' (s.switchTo next last k) (r.switchTo next last k) := by
  have htake := h.takeSlot hn s.rq.highestPrio
  have hx := htake.tcb last hl
  have hsave := htake.setTcb (f := fun x => { x with context := s.regs })
    (g := fun x => { x with context := r.regs }) { hx with context := h.regs }
    (htake.tcbIn last hl)
  have hready : Alike K L L'
      { (s.takeSlot s.rq.highestPrio next).setTcb last fun x => { x with context := s.regs } with
        frames := Function.update s.frames last k
        regs := (((s.takeSlot s.rq.highestPrio next).setTcb last
          fun x => { x with context := s.regs }).systemTcb next).context }
      { (r.takeSlot s.rq.highestPrio next).setTcb last fun x => { x with context := r.regs } with
        frames := Function.update r.frames last k
        regs := (((r.takeSlot s.rq.highestPrio next).setTcb last
          fun x => { x with context := r.regs }).systemTcb next).context } :=
    { hsave with
      frame := by
        intro t ht
        change Function.update r.frames last k t = Function.update s.frames last k t
        rw [Function.update_apply, Function.update_apply]
        split_ifs
        · rfl
        · exact h.frame t ht
      frameIn := by
        intro t i ht hf
        change Function.update s.frames last k t = _ at hf
        rw [Function.update_apply] at hf
        split_ifs at hf
        · exact hk i hf
        · exact h.frameIn t i ht hf
      regs := (hsave.tcb next hn).context }
  have hres := hready.resume hn
  unfold KState.switchTo ctxSwitchFull
  rw [h.rq]
  exact hres

/-- Both dispatch the same TCB, or both find a NULL one. -/
theorem dispatchSleep (h : Alike K L L' s r) (hk : ∀ i, k = .mutexLock i → i < osNumMutex) :
    ExceptRel (Alike K L L') (s.dispatchSleep k) (r.dispatchSleep k) := by
  cases hcur : s.curTcb with
  | none =>
    have hr : r.curTcb = none := h.cur.trans hcur
    simp only [KState.dispatchSleep, hcur, hr]
    rfl
  | some last =>
    have hr : r.curTcb = some last := h.cur.trans hcur
    cases hslot : s.rq.runList s.rq.highestPrio with
    | none =>
      have hs : s.removeHighest = .error .nullTcb := by simp [removeHighest, hslot]
      have hrr : r.removeHighest = .error .nullTcb := by simp [removeHighest, h.rq, hslot]
      simp only [KState.dispatchSleep, hcur, hr, hs, hrr]
      rfl
    | some next =>
      have hp : r.Picks next := ⟨by rw [h.rq]; exact hslot⟩
      rw [dispatchSleep_eq hcur ⟨hslot⟩, dispatchSleep_eq hr hp]
      exact h.switchTo (h.slotIn _ _ hslot) (h.curIn _ hcur) hk

theorem saveCur (h : Alike K L L' s r) (ht : K t) : Alike K L L' (s.saveCur t) (r.saveCur t) := by
  have hx := h.tcb t ht
  unfold KState.saveCur
  rw [hx.pending, hx.curPrio]
  split_ifs
  · exact h.runqueueAdd ht _
  · exact h

theorem dispatchSave (h : Alike K L L' s r) (hk : ∀ i, k = .mutexLock i → i < osNumMutex) :
    ExceptRel (Alike K L L') (s.dispatchSave k) (r.dispatchSave k) := by
  cases hcur : s.curTcb with
  | none =>
    have hr : r.curTcb = none := h.cur.trans hcur
    simp only [KState.dispatchSave, hcur, hr]
    rfl
  | some last =>
    rw [dispatchSave_eq_sleep hcur, dispatchSave_eq_sleep (h.cur.trans hcur)]
    exact (h.saveCur (h.curIn _ hcur)).dispatchSleep hk

/-- The walk along a chain inside `K` sees the same links. -/
theorem tailSearch {f g : TcbPtr → Option TcbPtr} (hfg : ∀ t, K t → g t = f t)
    (hin : ∀ t, K t → ∀ u, f t = some u → K u) (fuel : Nat) (ht : K t) :
    IntrusiveChain.tailSearch g fuel t = IntrusiveChain.tailSearch f fuel t ∧
      ∀ u, IntrusiveChain.tailSearch f fuel t = some u → K u := by
  induction fuel generalizing t with
  | zero => exact ⟨rfl, fun u hu => by cases hu⟩
  | succ fuel ih =>
    rw [IntrusiveChain.tailSearch, IntrusiveChain.tailSearch, hfg t ht]
    cases hn : f t with
    | none =>
      refine ⟨rfl, fun u hu => ?_⟩
      cases hu
      exact ht
    | some u => exact ih (hin t ht u hn)

theorem mutexEnqueue (h : Alike K L L' s r) (hm : m < osNumMutex) (hc : K c) :
    ExceptRel (Alike K L L') (s.mutexEnqueue m c) (r.mutexEnqueue m c) := by
  have hx := h.tcb c hc
  have hmark : Alike K L L' (s.markWaiting c) (r.markWaiting c) :=
    h.setTcb { hx with mutexSleepQueue := rfl, pending := rfl }
      ⟨(h.tcbIn c hc).1, fun u hu => by cases hu⟩
  unfold KState.mutexEnqueue
  rw [hmark.mutex m hm]
  cases hq : ((s.markWaiting c).gtMutex m).pSleepQueue with
  | none => exact hmark.setMutex hm fun u hu => by cases hu; exact hc
  | some head =>
    have hhead : K head := hmark.waiterIn m hm head hq
    obtain ⟨heq, hlast⟩ := tailSearch (f := (s.markWaiting c).mutexLink)
      (g := (r.markWaiting c).mutexLink) (fun t ht => (hmark.tcb t ht).mutexSleepQueue)
      (fun t ht u hu => (hmark.tcbIn t ht).2 u hu) osMaxTasks hhead
    simp only [heq]
    cases hl : IntrusiveChain.tailSearch (s.markWaiting c).mutexLink osMaxTasks head with
    | none => rfl
    | some last =>
      have hkl := hlast last hl
      exact hmark.setTcb { hmark.tcb last hkl with mutexSleepQueue := rfl }
        ⟨(hmark.tcbIn last hkl).1, fun u hu => by cases hu; exact hc⟩

theorem devEnqueue (h : Alike K L L' s r) (hd : d < numDevices) (hc : K c) :
    ExceptRel (Alike K L L') (s.devEnqueue d c) (r.devEnqueue d c) := by
  have hend {s₁ r₁ : KState} (h₁ : Alike K L L' s₁ r₁) :
      Alike K L L' (s₁.setTcb c fun t => { t with sleepQueue := none })
        (r₁.setTcb c fun t => { t with sleepQueue := none }) :=
    h₁.setTcb { h₁.tcb c hc with sleepQueue := rfl }
      ⟨fun u hu => (by cases hu), (h₁.tcbIn c hc).2⟩
  unfold KState.devEnqueue
  rw [h.device d hd]
  cases hq : (s.devices d).sleepQ with
  | none =>
    have hdev := h.setDev (f := fun x => { x with sleepQ := some c }) hd
      fun u hu => by cases hu; exact hc
    exact hend hdev
  | some head =>
    have hhead : K head := h.sleeperIn d hd head hq
    obtain ⟨heq, hlast⟩ := tailSearch (f := s.sleepLink) (g := r.sleepLink)
      (fun t ht => (h.tcb t ht).sleepQueue) (fun t ht u hu => (h.tcbIn t ht).1 u hu)
      osMaxTasks hhead
    simp only [heq]
    cases hl : IntrusiveChain.tailSearch s.sleepLink osMaxTasks head with
    | none => rfl
    | some last =>
      have hkl := hlast last hl
      have hlink := h.setTcb (f := fun t => { t with sleepQueue := some c })
        (g := fun t => { t with sleepQueue := some c })
        { h.tcb last hkl with sleepQueue := rfl }
        ⟨fun u hu => (by cases hu; exact hc), (h.tcbIn last hkl).2⟩
      exact hend hlink

theorem mutexRelease (h : Alike K L L' s r) (hm : m < osNumMutex) (ht : K t) :
    Alike K L L' (s.mutexRelease m t) (r.mutexRelease m t) := by
  have hx := h.tcb t ht
  have hmutex := h.setMutex
    (f := fun x => { x with pSleepQueue := (s.systemTcb t).mutexSleepQueue }) hm (h.tcbIn t ht).2
  have hy := hmutex.tcb t ht
  have htcb := hmutex.setTcb
    (f := fun x => { x with mutexSleepQueue := none, pending := 0, curPrio := x.nativePrio })
    (g := fun x => { x with mutexSleepQueue := none, pending := 0, curPrio := x.nativePrio })
    { hy with mutexSleepQueue := rfl, pending := rfl, curPrio := hy.nativePrio }
    ⟨(h.tcbIn t ht).1, fun u hu => (by cases hu)⟩
  unfold KState.mutexRelease
  simp only [hx.mutexSleepQueue]
  rw [(htcb.tcb t ht).curPrio]
  exact htcb.runqueueAdd ht _

theorem dropLock (h : Alike K L L' s r) (ht : K t) :
    Alike K L L' (s.dropLock t) (r.dropLock t) := by
  have hx := h.tcb t ht
  unfold KState.dropLock
  apply h.setTcb
  · rw [hx.holdsLock]
    split_ifs
    · exact { hx with holdsLock := rfl }
    · exact { hx with holdsLock := rfl, curPrio := hx.nativePrio }
  · split_ifs <;> exact h.tcbIn t ht

theorem mutexHandOver (h : Alike K L L' s r) (hm : m < osNumMutex) (hc : K c) :
    Alike K L L' (s.mutexHandOver m c) (r.mutexHandOver m c) := by
  unfold KState.mutexHandOver
  rw [h.mutex m hm]
  cases hq : (s.gtMutex m).pSleepQueue with
  | none =>
    have hfree := h.setMutex (f := fun x => { x with bLock := false }) hm (h.waiterIn m hm)
    exact hfree.dropLock hc
  | some first => exact (h.mutexRelease hm (h.waiterIn m hm first hq)).dropLock hc

theorem createScan {f g : Nat → Mutex} (hfg : ∀ m < osNumMutex, g m = f m) (fuel index : Nat) :
    KState.createScan g fuel index = KState.createScan f fuel index := by
  induction fuel generalizing index with
  | zero => rfl
  | succ fuel ih =>
    rw [KState.createScan, KState.createScan, ih]
    by_cases hi : index < osNumMutex
    · rw [hfg index hi]
    · rw [if_neg fun hb => hi hb.2, if_neg fun hb => hi hb.2]

theorem mutexCreate (h : Alike K L L' s r) : Alike K L L' s.mutexCreate r.mutexCreate := by
  have hd := h.disableInterrupts
  unfold KState.mutexCreate
  simp only [createScan hd.mutex]
  rcases createScan_spec s.disableInterrupts.gtMutex (osNumMutex + 1) 0 (by omega) (by omega)
    with hi | ⟨hi, _⟩
  · simp only [hi, if_true]
    exact hd.enableInterrupts.enableInterrupts.ret _ _
  · rw [if_neg (by omega), if_neg (by omega)]
    have hset := hd.setMutex (f := fun x => { x with bAvailable := false }) hi
      (hd.waiterIn _ hi)
    exact hset.enableInterrupts.ret _ _

theorem mutexLock (h : Alike K L L' s r) (mutex : Int) :
    ExceptRel (Alike K L L') (s.mutexLock mutex) (r.mutexLock mutex) := by
  have hd := h.disableInterrupts
  unfold KState.mutexLock
  by_cases hb : mutex ≥ osNumMutex ∨ mutex < 0
  · simp only [if_pos hb]
    exact hd.enableInterrupts.ret _ _
  have hm : mutex.toNat < osNumMutex := by omega
  simp only [if_neg hb, hd.mutex _ hm, hd.cur]
  by_cases hl : (s.disableInterrupts.gtMutex mutex.toNat).bLock = true
  · simp only [if_pos hl]
    split_ifs
    · exact hd.enableInterrupts.ret _ _
    · cases hcur : s.disableInterrupts.curTcb with
      | none => rfl
      | some c =>
        rcases (hd.mutexEnqueue hm (hd.curIn c hcur)).cases with
          ⟨e, hs, hr⟩ | ⟨s₁, r₁, hs, hr, h₁⟩
        · simp only [hs, hr]
          rfl
        · simp only [hs, hr]
          apply h₁.dispatchSleep
          intro i hi
          cases hi
          exact hm
  · simp only [if_neg hl]
    cases hcur : s.disableInterrupts.curTcb with
    | none => rfl
    | some c =>
      have hset := hd.setMutex (f := fun x => { x with bLock := true }) hm (hd.waiterIn _ hm)
      exact hset.mutexLockTail (hd.curIn c hcur) hm

theorem mutexUnlock (h : Alike K L L' s r) (mutex : Int) :
    ExceptRel (Alike K L L') (s.mutexUnlock mutex) (r.mutexUnlock mutex) := by
  have hd := h.disableInterrupts
  unfold KState.mutexUnlock
  by_cases hb : mutex ≥ osNumMutex ∨ mutex < 0
  · simp only [if_pos hb]
    exact hd.enableInterrupts.ret _ _
  have hm : mutex.toNat < osNumMutex := by omega
  simp only [if_neg hb, hd.mutex _ hm, hd.cur]
  split_ifs
  · exact hd.enableInterrupts.ret _ _
  · exact hd.enableInterrupts.ret _ _
  · exact hd.enableInterrupts.ret _ _
  · cases hcur : s.disableInterrupts.curTcb with
    | none => rfl
    | some c =>
      have hover := hd.mutexHandOver hm (hd.curIn c hcur)
      exact hover.dispatchSave fun i hi => by cases hi

theorem eventWait (h : Alike K L L' s r) (hdev : d < numDevices) :
    ExceptRel (Alike K L L') (s.eventWait d) (r.eventWait d) := by
  have hd := h.disableInterrupts
  unfold KState.eventWait KState.devWait
  rw [if_neg (by omega), if_neg (by omega)]
  simp only [hd.cur]
  cases hcur : s.disableInterrupts.curTcb with
  | none => rfl
  | some c =>
    have hc := hd.curIn c hcur
    simp only [(hd.tcb c hc).holdsLock]
    split_ifs
    · exact hd.ret _ _
    · rcases (hd.devEnqueue hdev hc).cases with ⟨e, hs, hr⟩ | ⟨s₁, r₁, hs, hr, h₁⟩
      · simp only [hs, hr]
        rfl
      · simp only [hs, hr]
        exact h₁.dispatchSleep fun i hi => by cases hi

theorem drain (h : Alike K L L' s r) (fuel : Nat) {head : Option TcbPtr}
    (hin : ∀ u, head = some u → K u) :
    ExceptRel (Alike K L L') (KState.drain fuel head s) (KState.drain fuel head r) := by
  induction fuel generalizing head s r with
  | zero =>
    cases head with
    | none => exact h
    | some t => rfl
  | succ fuel ih =>
    cases head with
    | none => exact h
    | some t =>
      have ht : K t := hin t rfl
      have hadd := h.runqueueAdd ht (s.systemTcb t).nativePrio
      rw [KState.drain, KState.drain, (h.tcb t ht).nativePrio]
      simp only [(hadd.tcb t ht).sleepQueue]
      exact ih hadd (hadd.tcbIn t ht).1

/-- One round over device `i`. -/
theorem devSignal {millis i : Nat} {a b : KState × Bool} (hi : i < numDevices)
    (h : AlikeFlag K L L' a b) :
    ExceptRel (AlikeFlag K L L') (KState.devSignal millis a i) (KState.devSignal millis b i) := by
  obtain ⟨s, flag⟩ := a
  obtain ⟨r, flag'⟩ := b
  obtain ⟨h, hflag⟩ := h
  cases hflag
  change Alike K L L' s r at h
  unfold KState.devSignal
  simp only [h.device i hi]
  by_cases hmatch : (s.devices i).nextMatch ≤ millis
  · have hset := (h.setDev (f := fun d =>
      { d with nextMatch := (d.nextMatch + devFreq i) % 2 ^ 32 }) hi
      (h.sleeperIn i hi)).emit (.signal i)
    simp only [if_pos hmatch, hset.device i hi]
    cases hq : (((s.setDev i fun d =>
        { d with nextMatch := (d.nextMatch + devFreq i) % 2 ^ 32 }).emit
          (.signal i)).devices i).sleepQ with
    | none => exact ⟨hset, rfl⟩
    | some head =>
      have hhead : ∀ u, some head = some u → K u :=
        fun u hu => hset.sleeperIn i hi u (hq.trans hu)
      rcases (hset.drain osMaxTasks hhead).cases with ⟨e, hs, hr⟩ | ⟨s₁, r₁, hs, hr, h₁⟩
      · simp only [hs, hr]
        rfl
      · simp only [hs, hr]
        have hempty := h₁.setDev (f := fun d => { d with sleepQ := none }) hi
          fun u hu => by cases hu
        exact ⟨hempty, rfl⟩
  · simp only [if_neg hmatch]
    exact ⟨h, rfl⟩

theorem devWake (h : Alike K L L' s r) (millis : Nat) :
    ExceptRel (AlikeFlag K L L') (s.devWake millis) (r.devWake millis) := by
  have hinit : AlikeFlag K L L' (s, false) (r, false) := ⟨h, rfl⟩
  apply foldlM_related hinit
  intro i hi a b hab
  exact devSignal (List.mem_range.mp hi) hab

theorem devUpdate (h : Alike K L L' s r) (millis : Nat) :
    ExceptRel (Alike K L L') (s.devUpdate millis) (r.devUpdate millis) := by
  unfold KState.devUpdate
  rcases (h.disableInterrupts.devWake millis).cases with
    ⟨e, hs, hr⟩ | ⟨⟨s₁, flag⟩, ⟨r₁, flag'⟩, hs, hr, h₁, hflag⟩
  · simp only [hs, hr]
    rfl
  · cases hflag
    change Alike K L L' s₁ r₁ at h₁
    simp only [hs, hr]
    split_ifs
    · exact h₁.dispatchSave fun i hi => by cases hi
    · exact h₁.enableInterrupts

end Alike

end RtosKernel.KState
