import RtosKernel.Kernel.Execute
import RtosKernel.Mutexes.Holding

namespace RtosKernel.KState

/-- The states of one mutex: `O` says who owns it, `H` who has been handed it. -/
inductive Ownership (lock : Mutex) (O H : TcbPtr → Prop) : Prop
  | free (hlock : lock.bLock = false) (hline : lock.pSleepQueue = none) (hO : ∀ t, ¬ O t)
      (hH : ∀ t, ¬ H t)
  | held (owner : TcbPtr) (hlock : lock.bLock = true) (hown : lock.pHoldingTcb = some owner)
      (hO : ∀ t, O t ↔ t = owner) (hH : ∀ t, ¬ H t)
  | handOver (heir : TcbPtr) (hlock : lock.bLock = true) (hO : ∀ t, ¬ O t)
      (hH : ∀ t, H t ↔ t = heir)

theorem Ownership.unique {lock : Mutex} {O H : TcbPtr → Prop} {t u : TcbPtr}
    (h : Ownership lock O H) (ht : O t) (hu : O u) : t = u := by
  cases h with
  | free _ _ hO _ => exact absurd ht (hO t)
  | held owner _ _ hO _ => exact ((hO t).mp ht).trans ((hO u).mp hu).symm
  | handOver _ _ hO _ => exact absurd ht (hO t)

/-- Who owns a mutex is recorded in it. -/
theorem Ownership.recorded {lock : Mutex} {O H : TcbPtr → Prop} {t : TcbPtr}
    (h : Ownership lock O H) (ht : O t) : lock.pHoldingTcb = some t := by
  cases h with
  | free _ _ hO _ => exact absurd ht (hO t)
  | held owner _ hown hO _ => rw [hown, (hO t).mp ht]
  | handOver _ _ hO _ => exact absurd ht (hO t)

/-- A mutex that has been handed to a task is locked, has no owner yet and no other heir. -/
theorem Ownership.handed {lock : Mutex} {O H : TcbPtr → Prop} {heir : TcbPtr}
    (h : Ownership lock O H) (hheir : H heir) :
    lock.bLock = true ∧ (∀ t, ¬ O t) ∧ ∀ t, H t → t = heir := by
  cases h with
  | free _ _ _ hH => exact absurd hheir (hH heir)
  | held _ _ _ _ hH => exact absurd hheir (hH heir)
  | handOver heir' hlock hO hH =>
    refine ⟨hlock, hO, fun t ht => ?_⟩
    rw [(hH t).mp ht, (hH heir).mp hheir]

/-- Tasks wait for a locked mutex only. -/
theorem Ownership.locked {lock : Mutex} {O H : TcbPtr → Prop} {first : TcbPtr}
    (h : Ownership lock O H) (hq : lock.pSleepQueue = some first) : lock.bLock = true := by
  cases h with
  | free _ hline _ _ =>
    rw [hline] at hq
    cases hq
  | held _ hlock _ _ _ => exact hlock
  | handOver _ hlock _ _ => exact hlock

theorem Ownership.congr {lock lock' : Mutex} {O O' H H' : TcbPtr → Prop} (h : Ownership lock O H)
    (hlock : lock'.bLock = lock.bLock) (hown : lock'.pHoldingTcb = lock.pHoldingTcb)
    (hline : lock.bLock = false → lock'.pSleepQueue = lock.pSleepQueue)
    (hO : ∀ t, O' t ↔ O t) (hH : ∀ t, H' t ↔ H t) : Ownership lock' O' H' := by
  cases h with
  | free h₁ h₂ h₃ h₄ =>
    exact .free (hlock.trans h₁) ((hline h₁).trans h₂) (fun t ht => h₃ t ((hO t).mp ht))
      (fun t ht => h₄ t ((hH t).mp ht))
  | held owner h₁ h₂ h₃ h₄ =>
    exact .held owner (hlock.trans h₁) (hown.trans h₂) (fun t => (hO t).trans (h₃ t))
      (fun t ht => h₄ t ((hH t).mp ht))
  | handOver heir h₁ h₃ h₄ =>
    exact .handOver heir (hlock.trans h₁) (fun t ht => h₃ t ((hO t).mp ht))
      (fun t => (hH t).trans (h₄ t))

/-- A task unlocks a mutex that names it the owner while a task released from the mutex's queue
has yet to run the end of its `mutex_lock`. -/
def StaleUnlock (s : KState) : Op → Prop
  | .call (.mutexUnlock mutex) => 0 ≤ mutex ∧ s.curTcb = (s.gtMutex mutex.toNat).pHoldingTcb ∧
      ∃ u : TcbPtr, s.rq.runList u.val = some u ∧ s.frames u = .mutexLock mutex.toNat
  | _ => False

def noStaleUnlock (s : KState) (op : Op) : Prop := sameSet s op ∧ ¬ StaleUnlock s op

instance : ∀ s op, Decidable (StaleUnlock s op)
  | s, .call (.mutexUnlock mutex) => inferInstanceAs (Decidable (0 ≤ mutex ∧
      s.curTcb = (s.gtMutex mutex.toNat).pHoldingTcb ∧
      ∃ u : TcbPtr, s.rq.runList u.val = some u ∧ s.frames u = .mutexLock mutex.toNat))
  | _, .call .mutexCreate => isFalse id
  | _, .call (.mutexLock _) => isFalse id
  | _, .call (.eventWait _) => isFalse id
  | _, .call (.taskCreate _ _) => isFalse id
  | _, .timer _ => isFalse id

instance (s : KState) (op : Op) : Decidable (noStaleUnlock s op) :=
  inferInstanceAs (Decidable (_ ∧ _))

variable {K : TcbPtr → Prop} {a b : Placement TcbPtr Place} {s s' s₁ : KState}
  {c t u next : TcbPtr} {k : Frame} {n m : Nat}

/-- Every mutex is free, held by one task, or on its way to one. -/
def Exclusive (a : Placement TcbPtr Place) (s : KState) : Prop :=
  ∀ m, Ownership (s.gtMutex m) (fun t => s.Owns t m) (fun t => HandedOver a s t m)

theorem Exclusive.congr (h : Exclusive a s) (hr : Replies s [] s₁) (hcur : s₁.curTcb = s.curTcb)
    (hfr : s₁.frames = s.frames)
    (hlock : ∀ m, (s₁.gtMutex m).bLock = (s.gtMutex m).bLock ∧
      (s₁.gtMutex m).pHoldingTcb = (s.gtMutex m).pHoldingTcb ∧
      ((s.gtMutex m).bLock = false →
        (s₁.gtMutex m).pSleepQueue = (s.gtMutex m).pSleepQueue))
    (hready : ∀ t m, s.frames t = .mutexLock m → (b.place t = .ready ↔ a.place t = .ready)) :
    Exclusive b s₁ := by
  intro m
  refine (h m).congr (hlock m).1 (hlock m).2.1 (hlock m).2.2 (fun t => hr.owns hcur hfr t m) ?_
  intro t
  unfold HandedOver
  rw [hfr]
  constructor
  · intro hh
    exact ⟨(hready t m hh.2).mp hh.1, hh.2⟩
  · intro hh
    exact ⟨(hready t m hh.2).mpr hh.1, hh.2⟩

/-- The mutex that the dispatched task was handed becomes its own. -/
theorem Ownership.switchTo_heir {p : Place} (hcur : s.curTcb = some c) (hc : a.place c = .running)
    (hp : p ≠ .ready ∨ ∀ i, k ≠ .mutexLock i)
    (hnext : a.place next = .ready ∨ next = c ∧ ∀ i, k ≠ .mutexLock i)
    (h : Ownership (s.gtMutex m) (fun t => s.Owns t m ∧ ¬ (t = c ∧ k = .mutexUnlock m))
      (fun t => HandedOver a s t m)) (hf : s.nextFrame next c k = .mutexLock m) :
    Ownership ((s.switchTo next c k).gtMutex m) (fun t => (s.switchTo next c k).Owns t m)
      (fun t => HandedOver ((a.move c p).move next .running) (s.switchTo next c k) t m) := by
  have hne : next ≠ c := by
    intro he
    have hcr : a.place next ≠ .ready := by
      rw [he, hc]
      simp
    rw [nextFrame, if_pos he] at hf
    exact (hnext.resolve_left hcr).2 m hf
  have hframe : s.frames next = .mutexLock m := by
    rw [nextFrame, if_neg hne] at hf
    exact hf
  have hheir : HandedOver a s next m := ⟨hnext.resolve_right fun hb => hne hb.1, hframe⟩
  obtain ⟨hlock, hnone, hone⟩ := h.handed hheir
  rw [gtMutex_switchTo, if_pos hf]
  refine .held next hlock rfl ?_ ?_
  · intro t
    rw [owns_switchTo hcur]
    constructor
    · intro ht
      rcases ht with ht | ht
      · exact ht.1
      · exact absurd ⟨ht.1, ht.2.2⟩ (hnone t)
    · intro ht
      exact Or.inl ⟨ht, hf⟩
  · intro t ht
    have hold := (handedOver_switchTo hc hp s next t m).mp ht
    exact hold.1 (hone t hold.2)

/-- Every other mutex keeps its owner and its heir. -/
theorem Ownership.switchTo_other {p : Place} (hcur : s.curTcb = some c) (hc : a.place c = .running)
    (hp : p ≠ .ready ∨ ∀ i, k ≠ .mutexLock i)
    (h : Ownership (s.gtMutex m) (fun t => s.Owns t m ∧ ¬ (t = c ∧ k = .mutexUnlock m))
      (fun t => HandedOver a s t m)) (hf : s.nextFrame next c k ≠ .mutexLock m) :
    Ownership ((s.switchTo next c k).gtMutex m) (fun t => (s.switchTo next c k).Owns t m)
      (fun t => HandedOver ((a.move c p).move next .running) (s.switchTo next c k) t m) := by
  rw [gtMutex_switchTo, if_neg hf]
  refine h.congr rfl rfl (fun _ => rfl) ?_ ?_
  · intro t
    rw [owns_switchTo hcur]
    constructor
    · intro ht
      rcases ht with ht | ht
      · exact absurd ht.2 hf
      · exact ⟨ht.1, ht.2.2⟩
    · intro ht
      refine Or.inr ⟨ht.1, ?_, ht.2⟩
      intro hb
      obtain ⟨htn, hbf⟩ := hb
      rw [← htn, nextFrame] at hbf
      split_ifs at hbf with htc
      · exact ht.2 ⟨htc, hbf⟩
      · refine ht.1.2 ⟨?_, hbf⟩
        rw [hcur]
        exact fun heq => htc (Option.some.inj heq).symm
  · intro t
    rw [handedOver_switchTo hc hp]
    constructor
    · intro ht
      exact ht.2
    · intro ht
      refine ⟨?_, ht⟩
      intro htn
      rw [htn] at ht
      have hne : next ≠ c := by
        intro he
        have hready := ht.1
        rw [he, hc] at hready
        cases hready
      rw [nextFrame, if_neg hne] at hf
      exact hf ht.2

/-- A switch completes the hand-over to the dispatched task and keeps all else. `m` may have just
been given up by `c`, which is what `k` says. -/
theorem Exclusive.switchTo {p : Place} (hcur : s.curTcb = some c) (hc : a.place c = .running)
    (hp : p ≠ .ready ∨ ∀ i, k ≠ .mutexLock i)
    (hnext : a.place next = .ready ∨ next = c ∧ ∀ i, k ≠ .mutexLock i)
    (h : ∀ m, Ownership (s.gtMutex m) (fun t => s.Owns t m ∧ ¬ (t = c ∧ k = .mutexUnlock m))
      (fun t => HandedOver a s t m)) :
    Exclusive ((a.move c p).move next .running) (s.switchTo next c k) := by
  intro m
  by_cases hf : s.nextFrame next c k = .mutexLock m
  · exact (h m).switchTo_heir hcur hc hp hnext hf
  · exact (h m).switchTo_other hcur hc hp hf

theorem mutexEnqueue_lock (h : s.mutexEnqueue m c = .ok s₁) (hm : (s.gtMutex m).bLock = true)
    (i : Nat) : (s₁.gtMutex i).bLock = (s.gtMutex i).bLock ∧
      (s₁.gtMutex i).pHoldingTcb = (s.gtMutex i).pHoldingTcb ∧
      ((s.gtMutex i).bLock = false → (s₁.gtMutex i).pSleepQueue = (s.gtMutex i).pSleepQueue) := by
  rcases mutexEnqueue_ok h with ⟨_, rfl⟩ | ⟨_, _, _, _, rfl⟩
  · rw [setMutex_apply]
    split_ifs with hi
    · subst hi
      refine ⟨rfl, rfl, fun hb => ?_⟩
      rw [hm] at hb
      cases hb
    · exact ⟨rfl, rfl, fun _ => rfl⟩
  · exact ⟨rfl, rfl, fun _ => rfl⟩

theorem devEnqueue_gtMutex {d : Nat} (h : s.devEnqueue d c = .ok s₁) :
    s₁.gtMutex = s.gtMutex := by
  rcases devEnqueue_ok h with ⟨_, rfl⟩ | ⟨_, _, _, _, rfl⟩ <;> rfl

/-- What a release writes to the mutex table. -/
theorem gtMutex_mutexHandOver (i : Nat) :
    (s.mutexHandOver m c).gtMutex i = if i = m then
      match (s.gtMutex m).pSleepQueue with
      | some first => { s.gtMutex m with pSleepQueue := (s.systemTcb first).mutexSleepQueue }
      | none => { s.gtMutex m with bLock := false }
    else s.gtMutex i := by
  unfold mutexHandOver
  cases (s.gtMutex m).pSleepQueue with
  | none => exact setMutex_apply s m (fun x => { x with bLock := false }) i
  | some first =>
    exact setMutex_apply s m
      (fun x => { x with pSleepQueue := (s.systemTcb first).mutexSleepQueue }) i

theorem saveCur_gtMutex (c : TcbPtr) (s : KState) : (s.saveCur c).gtMutex = s.gtMutex := by
  unfold saveCur
  split_ifs <;> rfl

/-- The unlock by the recorded owner `c`, up to the switch. -/
theorem Exclusive.unlock (h : Exclusive a s) (hl : Located K a s)
    (hown : (s.gtMutex m).pHoldingTcb = some c) (hstale : ∀ u, ¬ HandedOver a s u m)
    (hb : ((s.gtMutex m).pSleepQueue = none ∧ b = a) ∨
      ∃ first, (s.gtMutex m).pSleepQueue = some first ∧ a.place first = .mutex m ∧
        b = a.move first .ready) (i : Nat) :
    Ownership (((s.mutexHandOver m c).saveCur c).gtMutex i)
      (fun t => ((s.mutexHandOver m c).saveCur c).Owns t i ∧
        ¬ (t = c ∧ Frame.mutexUnlock m = .mutexUnlock i))
      (fun t => HandedOver b ((s.mutexHandOver m c).saveCur c) t i) := by
  have hfr : ((s.mutexHandOver m c).saveCur c).frames = s.frames :=
    (saveCur_frames ..).trans (mutexHandOver_frames m c s)
  have howns (t : TcbPtr) : ((s.mutexHandOver m c).saveCur c).Owns t i ↔ s.Owns t i :=
    ((mutexHandOver_replies m c s).trans (saveCur_replies c _)).owns
      ((saveCur_curTcb ..).trans (mutexHandOver_curTcb s m c)) hfr t i
  have hplace (t : TcbPtr) : b.place t = .ready ↔ a.place t = .ready ∨
      (s.gtMutex m).pSleepQueue = some t := by
    rcases hb with ⟨hq, rfl⟩ | ⟨first, hq, hf, rfl⟩
    · simp [hq]
    · rw [Placement.place_move, hq, Option.some_inj]
      split_ifs with ht
      · simp [ht]
      · simp [Ne.symm ht]
  have hfirst (t : TcbPtr) (ht : (s.gtMutex m).pSleepQueue = some t) :
      s.frames t = .mutexLock m := by
    rcases hb with ⟨hq, _⟩ | ⟨first, hq, hf, _⟩
    · rw [hq] at ht
      cases ht
    · rw [hq] at ht
      cases ht
      exact hl.mutexFrame _ m hf
  rw [saveCur_gtMutex, gtMutex_mutexHandOver]
  by_cases hi : i = m
  · subst hi
    rw [if_pos rfl]
    have hO (t : TcbPtr) : ¬ (((s.mutexHandOver i c).saveCur c).Owns t i ∧
        ¬ (t = c ∧ Frame.mutexUnlock i = .mutexUnlock i)) := by
      rw [howns]
      intro ht
      have hrec := (h i).recorded ht.1
      rw [hown] at hrec
      exact ht.2 ⟨(Option.some.inj hrec).symm, rfl⟩
    cases hq : (s.gtMutex i).pSleepQueue with
    | none =>
      refine .free rfl hq hO ?_
      intro t ht
      unfold HandedOver at ht
      rw [hplace, hq, hfr] at ht
      exact hstale t ⟨ht.1.resolve_right (by simp), ht.2⟩
    | some first =>
      have hlock : (s.gtMutex i).bLock = true := (h i).locked hq
      refine .handOver first hlock hO ?_
      intro t
      unfold HandedOver
      rw [hplace, hq, hfr, Option.some_inj]
      constructor
      · intro ht
        rcases ht.1 with hr | hr
        · exact absurd ⟨hr, ht.2⟩ (hstale t)
        · exact hr.symm
      · intro ht
        rw [ht]
        exact ⟨Or.inr rfl, hfirst first hq⟩
  · rw [if_neg hi]
    refine (h i).congr rfl rfl (fun _ => rfl) ?_ ?_
    · intro t
      rw [howns]
      simp [Ne.symm hi]
    · intro t
      unfold HandedOver
      rw [hplace, hfr]
      constructor
      · intro ht
        refine ⟨ht.1.resolve_right fun hq => ?_, ht.2⟩
        have hfm := hfirst t hq
        rw [ht.2] at hfm
        cases hfm
        exact hi rfl
      · intro ht
        exact ⟨Or.inl ht.1, ht.2⟩

/-- A free mutex is taken by the caller. -/
theorem Exclusive.acquire (h : Exclusive a s) (hcur : s.curTcb = some c)
    (hfree : (s.gtMutex m).bLock = false) :
    Exclusive a ((s.setMutex m fun x => { x with bLock := true }).mutexLockTail m c) := by
  intro i
  rw [gtMutex_acquire]
  split_ifs with him
  · subst him
    cases h i with
    | held _ hlock _ _ _ => rw [hfree] at hlock; cases hlock
    | handOver _ hlock _ _ => rw [hfree] at hlock; cases hlock
    | free _ _ hn hnone =>
      refine .held c rfl rfl ?_ hnone
      intro t
      rw [owns_acquire hcur]
      simp [hn t]
  · refine (h i).congr rfl rfl (fun _ => rfl) ?_ (fun _ => Iff.rfl)
    intro t
    rw [owns_acquire hcur]
    simp [him]

/-- A switch that gives up no mutex. -/
theorem Exclusive.switchAway {p : Place} (h : Exclusive a s) (hcur : s.curTcb = some c)
    (hc : a.place c = .running) (hp : p ≠ .ready ∨ ∀ i, k ≠ .mutexLock i)
    (hnext : a.place next = .ready ∨ next = c ∧ ∀ i, k ≠ .mutexLock i)
    (hk : ∀ i, k ≠ .mutexUnlock i) :
    Exclusive ((a.move c p).move next .running) (s.switchTo next c k) := by
  apply Exclusive.switchTo hcur hc hp hnext
  intro i
  exact (h i).congr rfl rfl (fun _ => rfl) (by simp [hk i]) (fun _ => Iff.rfl)

/-- Every kernel entry that is no stale unlock keeps the mutexes exclusive. -/
theorem Exclusive.entry {op : Op} (h : Exclusive a s) (hl : Located K a s) (hs : Scheduled K s c)
    (hop : noStaleUnlock s op) (hc : ∀ call, op = .call call → c ≠ idleTcb)
    (he : Entry s op s₁) : ∃ a', Located K a' s₁ ∧ Exclusive a' s₁ := by
  have hcr : a.place c = .running := (hl.running c).mpr hs.cur
  have other {s₂ : KState} {call : Call} {v : Int} (h₂ : Exclusive a s₂)
      (hv : v ≠ 0 ∨ call = .mutexCreate) : Exclusive a (s₂.ret call v) := by
    intro i
    exact (h₂ i).congr rfl rfl (fun _ => rfl) (fun _ => owns_ret hv) (fun _ => Iff.rfl)
  cases he with
  | refuse call v hv => exact ⟨a, hl.ret call v, other h (Or.inl (by omega))⟩
  | create i _ _ =>
    have hset : Exclusive a (s.setMutex i fun x => { x with bAvailable := false }) := by
      refine h.congr (.of_log rfl) rfl rfl ?_ (fun _ _ _ => Iff.rfl)
      intro m
      rw [setMutex_apply]
      split_ifs with hm
      · subst hm
        exact ⟨rfl, rfl, fun _ => rfl⟩
      · exact ⟨rfl, rfl, fun _ => rfl⟩
    exact ⟨a, (hl.takeMutex i).ret _ _, other hset (Or.inr rfl)⟩
  | acquire m t _ ht hfree =>
    cases hs.eq_cur ht
    exact ⟨a, hl.acquire m c, h.acquire hs.cur hfree⟩
  | lockBlock m t next s₂ hm ht hlock _ hq hp =>
    cases hs.eq_cur ht
    obtain ⟨hn, hl'⟩ := hl.lockBlock hs (hc _ rfl) hm hq hp
    have hcur : s₂.curTcb = some c := (hs.toDispatchable.mutexEnqueue (hc _ rfl) hq).cur
    have h₂ : Exclusive a s₂ := h.congr (mutexEnqueue_replies hq) (hcur.trans hs.cur.symm)
      (mutexEnqueue_frames hq) (mutexEnqueue_lock hq hlock) (fun _ _ _ => Iff.rfl)
    exact ⟨_, hl', h₂.switchAway hcur hcr (Or.inl (by simp)) (Or.inl hn) (by simp)⟩
  | unlock m t next s₂ _ ht _ hown hs₂ hp =>
    cases hs.eq_cur ht
    subst hs₂
    obtain ⟨b, hb, hcb, hn, hl'⟩ := hl.unlock hs (hc _ rfl) hp
    have hstale (u : TcbPtr) : ¬ HandedOver a s u m := by
      intro hu
      refine hop.2 ⟨by omega, ?_, u, (hl.ready u).mp hu.1, ?_⟩
      · rw [Int.toNat_natCast]
        exact hs.cur.trans hown.symm
      · rw [Int.toNat_natCast]
        exact hu.2
    have hcur : ((s.mutexHandOver m c).saveCur c).curTcb = some c :=
      (saveCur_curTcb ..).trans ((mutexHandOver_curTcb s m c).trans hs.cur)
    exact ⟨_, hl', Exclusive.switchTo hcur hcb (Or.inr (by simp))
      (hn.imp_right fun he => ⟨he, by simp⟩) (h.unlock hl hown hstale hb)⟩
  | waitBlock d t next s₂ _ ht _ hq hp =>
    cases hs.eq_cur ht
    obtain ⟨hn, hl'⟩ := hl.waitBlock hs (hc _ rfl) hop.1 hq hp
    have hcur : s₂.curTcb = some c := (hs.toDispatchable.devEnqueue (hc _ rfl) hq).cur
    have h₂ : Exclusive a s₂ := h.congr (devEnqueue_replies hq) (hcur.trans hs.cur.symm)
      (devEnqueue_frames hq) (by simp [devEnqueue_gtMutex hq]) (fun _ _ _ => Iff.rfl)
    exact ⟨_, hl', h₂.switchAway hcur hcr (Or.inl (by simp)) (Or.inl hn) (by simp)⟩
  | newSet tasks n _ _ _ _ _ _ => exact absurd hop.1 id
  | tick millis s₂ hw =>
    obtain ⟨hl', _⟩ := hl.tick hs hw
    obtain ⟨hcur, _, hgt, hfr⟩ := devWake_frame hw
    refine ⟨a, hl', h.congr (devWake_replies hw) hcur hfr ?_ (fun _ _ _ => Iff.rfl)⟩
    intro m
    rw [hgt]
    exact ⟨rfl, rfl, fun _ => rfl⟩
  | wake millis t next s₂ s₃ hw ht hs₃ hp =>
    obtain ⟨hcur, _, hgt, hfr⟩ := devWake_frame hw
    cases hs.eq_cur (hcur.symm.trans ht)
    subst hs₃
    obtain ⟨b, hwoken, hcb, hn, _, hl'⟩ := hl.wake hs hw hp
    have h₂ : Exclusive b (s₂.saveCur c) := by
      refine h.congr ((devWake_replies hw).trans (saveCur_replies c _))
        ((saveCur_curTcb ..).trans hcur) ((saveCur_frames ..).trans hfr) ?_ ?_
      · intro m
        rw [saveCur_gtMutex, hgt]
        exact ⟨rfl, rfl, fun _ => rfl⟩
      · intro t m hf
        rw [hwoken.kept t]
        intro d _ htd
        rw [hl.deviceFrame t d htd] at hf
        cases hf
    exact ⟨_, hl', h₂.switchAway ((saveCur_curTcb ..).trans ht) hcb (Or.inr (by simp))
      (hn.imp_right fun he => ⟨he, by simp⟩) (by simp)⟩

/-- With no lock taken and nobody waiting, every mutex is free. -/
theorem Booted.exclusive {tasks : Nat → Task} {regs : SchedContext} (h : Booted s)
    (hc : Creates tasks n regs s s') :
    ∃ a c, Scheduled (IsTask n) s' c ∧ Located (IsTask n) a s' ∧ Exclusive a s' := by
  obtain ⟨a, c, hs, hl⟩ := h.located hc
  refine ⟨a, c, hs, hl, fun m => ?_⟩
  have hno (t : TcbPtr) : ¬ s'.Holds t m := by
    rw [hc.replies.holds]
    exact h.not_holds t m
  obtain ⟨mem, next, s₁, _, hn, rfl, _, _, rfl⟩ := hc.fresh
  have hi := installTasks_installed mem.slot n hn (s.interrupt regs)
  have hgt : ((s.interrupt regs).installTasks mem.slot n).gtMutex = s.gtMutex := hi.mutex
  refine .free ?_ ?_ (fun t ht => hno t ht.1) ?_
  · exact (congrArg (fun g => (g m).bLock) hgt).trans (h.mutex m).1
  · exact (congrArg (fun g => (g m).pSleepQueue) hgt).trans (h.mutex m).2.2
  · intro t ht
    have hk : IsTask n t := hl.known (by rw [ht.1]; simp)
    have hframe : ((s.interrupt regs).installTasks mem.slot n).frames t = .mutexLock m := ht.2
    rw [hi.frame, if_pos hk] at hframe
    cases hframe

theorem Run.exclusive (h : Run noStaleUnlock n s) :
    ∃ a c, Scheduled (IsTask n) s c ∧ Located (IsTask n) a s ∧ Exclusive a s := by
  induction h with
  | start tasks regs hboot hc => exact (Booted.of_boot hboot).exclusive hc
  | step _ hst ih =>
    obtain ⟨a, c, hs, hl, hex⟩ := ih
    obtain ⟨c', hs'⟩ := hs.step_sameSet (hst.mono fun _ _ => And.left)
    obtain ⟨regs, op, s₁, hop, hidle, he, rfl⟩ := hst.entry (by rw [hs.cur]; simp)
    have hi : Exclusive a (KState.interrupt regs _) :=
      hex.congr (.of_log rfl) rfl rfl (fun _ => ⟨rfl, rfl, fun _ => rfl⟩) (fun _ _ _ => Iff.rfl)
    obtain ⟨a', hl', hex'⟩ := hi.entry (hl.interrupt regs) (hs.interrupt regs) hop
      (hs.caller hidle) he
    exact ⟨a', c', hs', hl'.enableInterrupts, hex'.congr (.of_log rfl) rfl rfl
      (fun _ => ⟨rfl, rfl, fun _ => rfl⟩) (fun _ _ _ => Iff.rfl)⟩

/-- While no task is inside an unlock of the mutex, holding it is exclusive as it stands. -/
theorem Run.exclusive_outside (h : Run noStaleUnlock n s) (hout : ∀ t, ¬ s.InUnlock t m)
    (ht : s.Holds t m) (hu : s.Holds u m) : t = u := by
  obtain ⟨a, c, _, _, hex⟩ := h.exclusive
  exact (hex m).unique ⟨ht, hout t⟩ ⟨hu, hout u⟩

/-- No two tasks hold the same mutex, as long as there is no stale unlock. A task that has given
the mutex up but not yet returned from `mutex_unlock` does not count. -/
theorem mutualExclusion (h : Run noStaleUnlock n s) (ht : s.Holds t m) (hu : s.Holds u m)
    (ht' : ¬ s.InUnlock t m) (hu' : ¬ s.InUnlock u m) : t = u := by
  obtain ⟨a, c, _, _, hex⟩ := h.exclusive
  exact (hex m).unique ⟨ht, ht'⟩ ⟨hu, hu'⟩

/-- Task 1 gives mutex 0 up while task 2 waits for it, and task 2 gets it. -/
theorem mutualExclusion_handOver : ∃ s, Run noStaleUnlock 2 s ∧ s.Holds 2 0 ∧
    ∀ t, s.Holds t 0 → ¬ s.InUnlock t 0 → t = 2 := by
  have hx : ((startSet zeroContext 2 sampleTasks 2).bind (execute noStaleUnlock zeroContext
      [.call (.mutexLock 0), .call (.mutexLock 1), .call (.mutexUnlock 1),
        .call (.mutexUnlock 1), .call (.eventWait 0), .call (.mutexLock 0), .timer 100,
        .call (.mutexUnlock 0), .call (.eventWait 1)])).map
        (fun s => (decide (s.Holds 2 0), decide (s.InUnlock 2 0))) = some (true, false) := by
    decide +kernel
  obtain ⟨s, hs, hv⟩ := Option.map_eq_some_iff.mp hx
  simp only [Prod.mk.injEq, decide_eq_true_eq, decide_eq_false_iff_not] at hv
  exact ⟨s, execute_run hs, hv.1, fun t ht hn => mutualExclusion (execute_run hs) ht hv.1 hn hv.2⟩

/-- With a stale unlock two tasks end up holding mutex 0, both long back from their unlocks. -/
theorem staleUnlock_two_holders : ∃ s, Run sameSet 2 s ∧ s.Holds 1 0 ∧ s.Holds 2 0 ∧
    ¬ s.InUnlock 1 0 ∧ ¬ s.InUnlock 2 0 := by
  have hx : ((startSet zeroContext 2 sampleTasks 2).bind (execute sameSet zeroContext
      [.call (.mutexLock 0), .call (.mutexLock 1), .call (.mutexUnlock 1),
        .call (.mutexUnlock 1), .call (.eventWait 0), .call (.mutexLock 0), .timer 100,
        .call (.mutexUnlock 0), .call (.mutexUnlock 0), .call (.mutexLock 0),
        .call (.mutexUnlock 1), .call (.eventWait 0)])).map
        (fun s => decide (s.Holds 1 0 ∧ s.Holds 2 0 ∧ ¬ s.InUnlock 1 0 ∧ ¬ s.InUnlock 2 0)) =
      some true := by decide +kernel
  obtain ⟨s, hs, hv⟩ := Option.map_eq_some_iff.mp hx
  exact ⟨s, execute_run hs, of_decide_eq_true hv⟩

end RtosKernel.KState
