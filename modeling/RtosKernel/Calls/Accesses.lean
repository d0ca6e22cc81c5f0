import RtosKernel.Kernel.Entry

namespace RtosKernel

/-- The entries whose flag the scan of `mutex_create` reads, in order. -/
def scanReads (gtMutex : Nat → Mutex) : Nat → Nat → List Nat
  | 0, _ => []
  | fuel+1, index =>
    index :: if (gtMutex index).bAvailable ≠ true ∧ index < osNumMutex then
      scanReads gtMutex fuel (index + 1)
    else []

namespace KState

/-- The entries of `gtMutex` that a call reads or writes, up to its return. -/
def mutexAccesses (s : KState) : Call → List Nat
  | .mutexCreate =>
    let index := createScan s.gtMutex (osNumMutex + 1) 0
    scanReads s.gtMutex (osNumMutex + 1) 0 ++ if index = osNumMutex then [] else [index]
  | .mutexLock mutex => if mutex ≥ osNumMutex ∨ mutex < 0 then [] else [mutex.toNat]
  | .mutexUnlock mutex => if mutex ≥ osNumMutex ∨ mutex < 0 then [] else [mutex.toNat]
  | .eventWait _ => []
  | .taskCreate _ _ => []

/-- The entries of `devices` that `event_wait` reads or writes. -/
def deviceAccesses (s : KState) : Call → List Nat
  | .eventWait dev =>
    if dev > numDevices then []
    else match s.curTcb with
      | none => []
      | some cur => if (s.systemTcb cur).holdsLock ≠ 0 then [] else [dev]
  | _ => []

/-- `s` with other memory in place of `gtMutex` outside `M` and of `devices` outside `D`. -/
def overlay (M D : Nat → Bool) (g : Nat → Mutex) (d : Nat → Dev) (s : KState) : KState :=
  { s with
    gtMutex := fun i => if M i then s.gtMutex i else g i
    devices := fun i => if D i then s.devices i else d i }

variable {M D : Nat → Bool} {g : Nat → Mutex} {d : Nat → Dev} {s s₁ : KState} {m dev : Nat}
  {t : TcbPtr} {k : Frame}

/-- Every call that was switched out in `mutex_lock` will write within `M`. -/
def Within (M : Nat → Bool) (s : KState) : Prop := ∀ t m, s.frames t = .mutexLock m → M m = true

section Overlay

/-! Code that stays within `M` and `D` does the same on any other memory around them. -/

theorem overlay_gtMutex (hm : M m = true) : (s.overlay M D g d).gtMutex m = s.gtMutex m :=
  if_pos hm

theorem overlay_devices (hd : D dev = true) : (s.overlay M D g d).devices dev = s.devices dev :=
  if_pos hd

theorem overlay_setMutex (hm : M m = true) (f : Mutex → Mutex) :
    (s.overlay M D g d).setMutex m f = (s.setMutex m f).overlay M D g d := by
  have hgt : Function.update (s.overlay M D g d).gtMutex m (f ((s.overlay M D g d).gtMutex m)) =
      fun i => if M i then Function.update s.gtMutex m (f (s.gtMutex m)) i else g i := by
    funext i
    rw [overlay_gtMutex hm, Function.update_apply, Function.update_apply]
    by_cases hi : i = m
    · rw [if_pos hi, if_pos hi, hi, if_pos hm]
    · rw [if_neg hi, if_neg hi]
      rfl
  unfold setMutex
  rw [hgt]
  rfl

theorem overlay_setDev (hd : D dev = true) (f : Dev → Dev) :
    (s.overlay M D g d).setDev dev f = (s.setDev dev f).overlay M D g d := by
  have hdev : Function.update (s.overlay M D g d).devices dev
      (f ((s.overlay M D g d).devices dev)) =
      fun i => if D i then Function.update s.devices dev (f (s.devices dev)) i else d i := by
    funext i
    rw [overlay_devices hd, Function.update_apply, Function.update_apply]
    by_cases hi : i = dev
    · rw [if_pos hi, if_pos hi, hi, if_pos hd]
    · rw [if_neg hi, if_neg hi]
      rfl
  unfold setDev
  rw [hdev]
  rfl

theorem overlay_mutexLockTail (hm : M m = true) (t : TcbPtr) :
    (s.overlay M D g d).mutexLockTail m t = (s.mutexLockTail m t).overlay M D g d := by
  have htcb (f : Tcb → Tcb) : (s.overlay M D g d).setTcb t f = (s.setTcb t f).overlay M D g d := rfl
  unfold mutexLockTail
  rw [htcb, overlay_setMutex hm]
  rfl

theorem overlay_resume (hs : Within M s) (t : TcbPtr) :
    (s.overlay M D g d).resume t = (s.resume t).overlay M D g d := by
  have hframes : (s.overlay M D g d).frames t = s.frames t := rfl
  unfold resume
  rw [hframes]
  cases hf : s.frames t with
  | mutexLock m => exact overlay_mutexLockTail (hs t m hf) t
  | launch => rfl
  | mutexUnlock m => rfl
  | devWait dev => rfl
  | devUpdate => rfl

theorem overlay_ctxSwitchFull (hs : Within M s) (hk : ∀ m, k = .mutexLock m → M m = true)
    (next last : TcbPtr) :
    (s.overlay M D g d).ctxSwitchFull next last k =
      (s.ctxSwitchFull next last k).overlay M D g d := by
  unfold ctxSwitchFull
  apply overlay_resume (s := { s.setTcb last fun t => { t with context := s.regs } with
    frames := Function.update s.frames last k
    regs := ((s.setTcb last fun t => { t with context := s.regs }).systemTcb next).context })
  intro u m hu
  change Function.update s.frames last k u = .mutexLock m at hu
  rw [Function.update_apply] at hu
  split_ifs at hu
  · exact hk m hu
  · exact hs u m hu

theorem overlay_dispatchSleep (hs : Within M s) (hk : ∀ m, k = .mutexLock m → M m = true) :
    (s.overlay M D g d).dispatchSleep k = (s.dispatchSleep k).map (overlay M D g d) := by
  have hcur : (s.overlay M D g d).curTcb = s.curTcb := rfl
  unfold dispatchSleep removeHighest
  rw [hcur]
  cases s.curTcb with
  | none => rfl
  | some last =>
    have hremove : (s.overlay M D g d).rq = s.rq := rfl
    dsimp only
    rw [hremove]
    cases (s.rq.runqueueRemove s.rq.highestPrio).2 with
    | none => rfl
    | some next =>
      have htake : Within M (s.takeSlot s.rq.highestPrio next) := hs
      exact congrArg Except.ok (overlay_ctxSwitchFull htake hk next last)

theorem overlay_dispatchSave (hs : Within M s) (hk : ∀ m, k = .mutexLock m → M m = true) :
    (s.overlay M D g d).dispatchSave k = (s.dispatchSave k).map (overlay M D g d) := by
  have hcur : (s.overlay M D g d).curTcb = s.curTcb := rfl
  cases hc : s.curTcb with
  | none =>
    unfold dispatchSave
    rw [hcur, hc]
    rfl
  | some last =>
    have hsave : (s.overlay M D g d).saveCur last = (s.saveCur last).overlay M D g d := by
      have htcb : (s.overlay M D g d).systemTcb = s.systemTcb := rfl
      unfold saveCur
      rw [htcb]
      split_ifs <;> rfl
    have hwithin : Within M (s.saveCur last) := by
      unfold saveCur
      split_ifs <;> exact hs
    rw [dispatchSave_eq_sleep (hcur.trans hc), dispatchSave_eq_sleep hc, hsave]
    exact overlay_dispatchSleep hwithin hk

/-- The scan only depends on the flags it reads. -/
theorem createScan_congr {gtMutex gtMutex' : Nat → Mutex} {fuel index : Nat}
    (h : ∀ i ∈ scanReads gtMutex fuel index, gtMutex' i = gtMutex i) :
    createScan gtMutex' fuel index = createScan gtMutex fuel index := by
  induction fuel generalizing index with
  | zero => rfl
  | succ fuel ih =>
    rw [scanReads] at h
    rw [createScan, createScan, h index (List.mem_cons_self ..)]
    split_ifs with hnext
    · rw [if_pos hnext] at h
      exact ih fun i hi => h i (List.mem_cons_of_mem _ hi)
    · rfl

theorem overlay_mutexCreate (hM : ∀ i ∈ s.mutexAccesses .mutexCreate, M i = true) :
    (s.overlay M D g d).mutexCreate = s.mutexCreate.overlay M D g d := by
  have hread : ∀ i ∈ scanReads s.gtMutex (osNumMutex + 1) 0,
      (s.overlay M D g d).gtMutex i = s.gtMutex i :=
    fun i hi => overlay_gtMutex (hM i (List.mem_append_left _ hi))
  have hscan : createScan (s.overlay M D g d).disableInterrupts.gtMutex (osNumMutex + 1) 0 =
      createScan s.disableInterrupts.gtMutex (osNumMutex + 1) 0 := createScan_congr hread
  unfold mutexCreate
  dsimp only
  rw [hscan]
  split_ifs with hfull
  · rfl
  · have hm : M (createScan s.disableInterrupts.gtMutex (osNumMutex + 1) 0) = true := by
      apply hM
      apply List.mem_append_right
      change _ ∈ if createScan s.disableInterrupts.gtMutex (osNumMutex + 1) 0 = osNumMutex then _
        else _
      rw [if_neg hfull]
      exact List.mem_singleton_self _
    have hoff : (s.overlay M D g d).disableInterrupts = s.disableInterrupts.overlay M D g d := rfl
    rw [hoff, overlay_setMutex hm]
    rfl

theorem overlay_mutexEnqueue (hm : M m = true) (t : TcbPtr) :
    (s.overlay M D g d).mutexEnqueue m t = (s.mutexEnqueue m t).map (overlay M D g d) := by
  have hq : ((s.overlay M D g d).markWaiting t).gtMutex m = (s.markWaiting t).gtMutex m :=
    if_pos hm
  unfold mutexEnqueue
  rw [hq]
  cases ((s.markWaiting t).gtMutex m).pSleepQueue with
  | none =>
    have hwait : (s.overlay M D g d).markWaiting t = (s.markWaiting t).overlay M D g d := rfl
    dsimp only
    rw [hwait, overlay_setMutex hm]
    rfl
  | some head =>
    have hlink : ((s.overlay M D g d).markWaiting t).mutexLink = (s.markWaiting t).mutexLink := rfl
    dsimp only
    rw [hlink]
    cases IntrusiveChain.tailSearch (s.markWaiting t).mutexLink osMaxTasks head <;> rfl

theorem overlay_devEnqueue (hd : D dev = true) (t : TcbPtr) :
    (s.overlay M D g d).devEnqueue dev t = (s.devEnqueue dev t).map (overlay M D g d) := by
  have hq : (s.overlay M D g d).devices dev = s.devices dev := overlay_devices hd
  unfold devEnqueue
  rw [hq]
  cases (s.devices dev).sleepQ with
  | none =>
    dsimp only
    rw [overlay_setDev hd]
    rfl
  | some head =>
    have hlink : (s.overlay M D g d).sleepLink = s.sleepLink := rfl
    dsimp only
    rw [hlink]
    cases IntrusiveChain.tailSearch s.sleepLink osMaxTasks head <;> rfl

theorem overlay_mutexHandOver (hm : M m = true) (t : TcbPtr) :
    (s.overlay M D g d).mutexHandOver m t = (s.mutexHandOver m t).overlay M D g d := by
  have hq : (s.overlay M D g d).gtMutex m = s.gtMutex m := overlay_gtMutex hm
  unfold mutexHandOver
  rw [hq]
  cases (s.gtMutex m).pSleepQueue with
  | none =>
    dsimp only
    rw [overlay_setMutex hm]
    rfl
  | some first =>
    have hrelease : (s.overlay M D g d).mutexRelease m first =
        (s.mutexRelease m first).overlay M D g d := by
      unfold mutexRelease
      dsimp only
      have htcb : (s.overlay M D g d).systemTcb = s.systemTcb := rfl
      rw [htcb, overlay_setMutex hm]
      rfl
    dsimp only
    rw [hrelease]
    rfl

theorem overlay_mutexLock {mutex : Int} (hs : Within M s)
    (hM : ∀ i ∈ s.mutexAccesses (.mutexLock mutex), M i = true) :
    (s.overlay M D g d).mutexLock mutex = (s.mutexLock mutex).map (overlay M D g d) := by
  unfold mutexLock
  dsimp only
  by_cases hr : mutex ≥ osNumMutex ∨ mutex < 0
  · rw [if_pos hr, if_pos hr]
    rfl
  · have hm : M mutex.toNat = true := by
      apply hM
      rw [mutexAccesses, if_neg hr]
      exact List.mem_singleton_self _
    have hoff : (s.overlay M D g d).disableInterrupts = s.disableInterrupts.overlay M D g d := rfl
    have hcur : (s.disableInterrupts.overlay M D g d).curTcb = s.disableInterrupts.curTcb := rfl
    rw [if_neg hr, if_neg hr, hoff, overlay_gtMutex hm, hcur]
    split_ifs with hlock hown
    · rfl
    · cases s.disableInterrupts.curTcb with
      | none => rfl
      | some t =>
        dsimp only
        rw [overlay_mutexEnqueue hm]
        cases hq : s.disableInterrupts.mutexEnqueue mutex.toNat t with
        | error e => rfl
        | ok s₁ =>
          have hwithin : Within M s₁ := by
            rcases mutexEnqueue_ok hq with ⟨_, rfl⟩ | ⟨_, _, _, _, rfl⟩ <;> exact hs
          apply overlay_dispatchSleep hwithin
          intro i hi
          cases hi
          exact hm
    · cases s.disableInterrupts.curTcb with
      | none => rfl
      | some t =>
        dsimp only
        rw [overlay_setMutex hm, overlay_mutexLockTail hm]
        rfl

theorem overlay_mutexUnlock {mutex : Int} (hs : Within M s)
    (hM : ∀ i ∈ s.mutexAccesses (.mutexUnlock mutex), M i = true) :
    (s.overlay M D g d).mutexUnlock mutex = (s.mutexUnlock mutex).map (overlay M D g d) := by
  unfold mutexUnlock
  dsimp only
  by_cases hr : mutex ≥ osNumMutex ∨ mutex < 0
  · rw [if_pos hr, if_pos hr]
    rfl
  · have hm : M mutex.toNat = true := by
      apply hM
      rw [mutexAccesses, if_neg hr]
      exact List.mem_singleton_self _
    have hoff : (s.overlay M D g d).disableInterrupts = s.disableInterrupts.overlay M D g d := rfl
    have hcur : (s.disableInterrupts.overlay M D g d).curTcb = s.disableInterrupts.curTcb := rfl
    rw [if_neg hr, if_neg hr, hoff, overlay_gtMutex hm, hcur]
    split_ifs with hperm hfree hown
    · rfl
    · rfl
    · rfl
    · cases s.disableInterrupts.curTcb with
      | none => rfl
      | some t =>
        have hwithin : Within M (s.disableInterrupts.mutexHandOver mutex.toNat t) := by
          unfold mutexHandOver
          split <;> exact hs
        dsimp only
        rw [overlay_mutexHandOver hm]
        exact overlay_dispatchSave hwithin (by simp)

theorem overlay_eventWait (hs : Within M s)
    (hD : ∀ i ∈ s.deviceAccesses (.eventWait dev), D i = true) :
    (s.overlay M D g d).eventWait dev = (s.eventWait dev).map (overlay M D g d) := by
  unfold eventWait
  split_ifs with hdev
  · rfl
  · have hoff : (s.overlay M D g d).disableInterrupts = s.disableInterrupts.overlay M D g d := rfl
    have hcur : (s.disableInterrupts.overlay M D g d).curTcb = s.curTcb := rfl
    have hcur' : s.disableInterrupts.curTcb = s.curTcb := rfl
    unfold devWait
    dsimp only
    rw [hoff, hcur, hcur']
    rw [deviceAccesses, if_neg hdev] at hD
    cases hc : s.curTcb with
    | none => rfl
    | some t =>
      have htcb : (s.disableInterrupts.overlay M D g d).systemTcb = s.systemTcb := rfl
      have htcb' : s.disableInterrupts.systemTcb = s.systemTcb := rfl
      rw [hc] at hD
      dsimp only at hD ⊢
      rw [htcb, htcb']
      split_ifs at hD ⊢ with hlock
      · rfl
      · have hd : D dev = true := hD dev (List.mem_singleton_self _)
        rw [overlay_devEnqueue hd]
        cases hq : s.disableInterrupts.devEnqueue dev t with
        | error e => rfl
        | ok s₁ =>
          have hwithin : Within M s₁ := by
            rcases devEnqueue_ok hq with ⟨_, rfl⟩ | ⟨_, _, _, _, rfl⟩ <;> exact hs
          exact overlay_dispatchSleep hwithin (by simp)

/-- The accesses are all there are: whatever memory lies around them, a call does the same on
it and leaves it alone. -/
theorem syscall_overlay {c : Call} (hc : ∀ tasks n, c ≠ .taskCreate tasks n) (hs : Within M s)
    (hM : ∀ i ∈ s.mutexAccesses c, M i = true) (hD : ∀ i ∈ s.deviceAccesses c, D i = true) :
    syscall c (s.overlay M D g d) = (syscall c s).map (overlay M D g d) := by
  cases c with
  | mutexCreate => exact congrArg Except.ok (overlay_mutexCreate hM)
  | mutexLock mutex => exact overlay_mutexLock hs hM
  | mutexUnlock mutex => exact overlay_mutexUnlock hs hM
  | eventWait dev => exact overlay_eventWait hs hD
  | taskCreate tasks n => exact absurd rfl (hc tasks n)

end Overlay

theorem createScan_ge (gtMutex : Nat → Mutex) (fuel index : Nat) :
    index ≤ createScan gtMutex fuel index := by
  induction fuel generalizing index with
  | zero => exact Nat.le_refl index
  | succ fuel ih =>
    rw [createScan]
    split_ifs
    · exact (Nat.le_succ index).trans (ih (index + 1))
    · exact Nat.le_refl index

/-- What the scan passes is taken. -/
theorem createScan_passed (gtMutex : Nat → Mutex) {fuel index i : Nat} (hi : index ≤ i)
    (hlt : i < createScan gtMutex fuel index) : (gtMutex i).bAvailable = false := by
  induction fuel generalizing index with
  | zero => exact absurd hi (Nat.not_le.mpr hlt)
  | succ fuel ih =>
    rw [createScan] at hlt
    split_ifs at hlt with hnext
    · rcases Nat.eq_or_lt_of_le hi with rfl | hlater
      · simpa using hnext.1
      · exact ih hlater hlt
    · exact absurd hi (Nat.not_le.mpr hlt)

/-- The scan reads every flag from the first to the one it stops at. -/
theorem scanReads_eq (gtMutex : Nat → Mutex) {fuel index : Nat}
    (hf : osNumMutex + 1 ≤ fuel + index) (hi : index ≤ osNumMutex) :
    scanReads gtMutex fuel index =
      List.range' index (createScan gtMutex fuel index + 1 - index) := by
  induction fuel generalizing index with
  | zero => omega
  | succ fuel ih =>
    rw [scanReads, createScan]
    split_ifs with hnext
    · have hge := createScan_ge gtMutex fuel (index + 1)
      rw [ih (by omega) (by omega)]
      obtain ⟨k, hk⟩ : ∃ k, createScan gtMutex fuel (index + 1) = index + 1 + k :=
        ⟨_, (Nat.add_sub_of_le hge).symm⟩
      rw [hk]
      have hlen : index + 1 + k + 1 - (index + 1) = k + 1 := by omega
      have hlen' : index + 1 + k + 1 - index = k + 1 + 1 := by omega
      rw [hlen, hlen', List.range'_succ (n := k + 1)]
    · have hlen : index + 1 - index = 1 := by omega
      rw [hlen]
      rfl

end KState

end RtosKernel
