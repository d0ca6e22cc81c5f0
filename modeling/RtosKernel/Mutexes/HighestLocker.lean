import Mathlib.Data.Finset.Card
import RtosKernel.Mutexes.Exclusion
import RtosKernel.Queues.OnePlace

namespace RtosKernel.KState

/-- A task unlocks only what it holds. -/
def OwnUnlock (s : KState) : Op → Prop
  | .call (.mutexUnlock mutex) =>
    0 ≤ mutex ∧ ∃ t : TcbPtr, s.curTcb = some t ∧ s.Holds t mutex.toNat
  | _ => True

def ownUnlocks (s : KState) (op : Op) : Prop := sameSet s op ∧ OwnUnlock s op

instance : ∀ s op, Decidable (OwnUnlock s op)
  | s, .call (.mutexUnlock mutex) => inferInstanceAs
      (Decidable (0 ≤ mutex ∧ ∃ t : TcbPtr, s.curTcb = some t ∧ s.Holds t mutex.toNat))
  | _, .call .mutexCreate => isTrue trivial
  | _, .call (.mutexLock _) => isTrue trivial
  | _, .call (.eventWait _) => isTrue trivial
  | _, .call (.taskCreate _ _) => isTrue trivial
  | _, .timer _ => isTrue trivial

instance (s : KState) (op : Op) : Decidable (ownUnlocks s op) :=
  inferInstanceAs (Decidable (_ ∧ _))

/-- The mutexes when only the running task `c` can own any; `O` says which. -/
structure LockState (K : TcbPtr → Prop) (s : KState) (c : TcbPtr) (O : TcbPtr → Nat → Prop) :
    Prop where
  owner : ∀ t m, O t m → t = c ∧ m < osNumMutex
  locked : ∀ m, (s.gtMutex m).bLock = true ↔ O c m
  holder : ∀ m, O c m → (s.gtMutex m).pHoldingTcb = some c
  queue : ∀ m, (s.gtMutex m).pSleepQueue = none
  frame : ∀ t m, K t → t ≠ c → s.frames t ≠ .mutexLock m
  count : ∀ t, K t → ∃ owned : Finset Nat, (∀ m, m ∈ owned ↔ O t m) ∧
    (s.systemTcb t).holdsLock = owned.card
  prio : ∀ t, K t → (s.systemTcb t).curPrio =
    if (s.systemTcb t).holdsLock = 0 then (s.systemTcb t).nativePrio else highestPriority

variable {K : TcbPtr → Prop} {a : Placement TcbPtr Place} {s s' s₁ : KState}
  {c t next : TcbPtr} {k : Frame} {n m : Nat} {O O' : TcbPtr → Nat → Prop}

/-- The lock protocol reads these parts of the state only. -/
theorem LockState.congr (h : LockState K s c O) (hO : ∀ t m, O' t m ↔ O t m)
    (hlock : ∀ m, (s₁.gtMutex m).bLock = (s.gtMutex m).bLock ∧
      (s₁.gtMutex m).pHoldingTcb = (s.gtMutex m).pHoldingTcb ∧
      (s₁.gtMutex m).pSleepQueue = (s.gtMutex m).pSleepQueue)
    (hfr : s₁.frames = s.frames)
    (htcb : ∀ t, (s₁.systemTcb t).holdsLock = (s.systemTcb t).holdsLock ∧
      (s₁.systemTcb t).curPrio = (s.systemTcb t).curPrio ∧
      (s₁.systemTcb t).nativePrio = (s.systemTcb t).nativePrio) : LockState K s₁ c O' where
  owner := fun t m ht => h.owner t m ((hO t m).mp ht)
  locked := by
    intro m
    rw [(hlock m).1, hO]
    exact h.locked m
  holder := by
    intro m hm
    rw [(hlock m).2.1]
    exact h.holder m ((hO c m).mp hm)
  queue := by
    intro m
    rw [(hlock m).2.2]
    exact h.queue m
  frame := by
    rw [hfr]
    exact h.frame
  count := by
    intro t hk
    obtain ⟨owned, hmem, hcard⟩ := h.count t hk
    exact ⟨owned, fun m => (hmem m).trans (hO t m).symm, (htcb t).1.trans hcard⟩
  prio := by
    intro t hk
    rw [(htcb t).1, (htcb t).2.1, (htcb t).2.2]
    exact h.prio t hk

theorem LockState.count_zero (h : LockState K s c O) (hk : K t)
    (hz : (s.systemTcb t).holdsLock = 0) (m : Nat) : ¬ O t m := by
  obtain ⟨owned, hmem, hcard⟩ := h.count t hk
  rw [hz] at hcard
  have hempty : owned = ∅ := Finset.card_eq_zero.mp (by omega)
  rw [← hmem, hempty]
  simp

/-- Whoever owns a mutex runs at the ceiling. -/
theorem LockState.ceiling (h : LockState K s c O) (hk : K c) (hown : O c m) :
    (s.systemTcb c).curPrio = highestPriority := by
  rw [h.prio c hk, if_neg]
  intro hz
  exact h.count_zero hk hz m hown

theorem resume_systemTcb (h : ∀ i, s.frames t ≠ .mutexLock i) :
    (s.resume t).systemTcb = s.systemTcb := by
  unfold resume
  split
  · rfl
  · rename_i m hf
    exact absurd hf (h m)
  · rfl
  · rfl
  · rfl

/-- A switch stores the registers of the task it leaves, and no more. -/
theorem switchTo_tcb (h : ∀ i, s.nextFrame next c k ≠ .mutexLock i) (t : TcbPtr) :
    ((s.switchTo next c k).systemTcb t).holdsLock = (s.systemTcb t).holdsLock ∧
    ((s.switchTo next c k).systemTcb t).curPrio = (s.systemTcb t).curPrio ∧
    ((s.switchTo next c k).systemTcb t).nativePrio = (s.systemTcb t).nativePrio := by
  have hres : (s.switchTo next c k).systemTcb =
      (s.setTcb c fun x => { x with context := s.regs }).systemTcb := by
    refine resume_systemTcb fun i hi => ?_
    change Function.update s.frames c k next = .mutexLock i at hi
    rw [Function.update_apply] at hi
    exact h i hi
  rw [hres, setTcb_apply]
  split_ifs with ht
  · rw [ht]
    exact ⟨rfl, rfl, rfl⟩
  · exact ⟨rfl, rfl, rfl⟩

/-- A switch away from `c`, which only leaves the processor when it owns nothing. -/
theorem LockState.switchTo
    (h : LockState K s c fun t i => s.Owns t i ∧ ¬ (t = c ∧ k = .mutexUnlock i))
    (hcur : s.curTcb = some c) (hkn : K next) (hk : ∀ i, k ≠ .mutexLock i)
    (hstay : ∀ i, s.Owns c i → k ≠ .mutexUnlock i → next = c) :
    LockState K (s.switchTo next c k) next fun t i => (s.switchTo next c k).Owns t i := by
  have hframe (i : Nat) : s.nextFrame next c k ≠ .mutexLock i := by
    unfold nextFrame
    split_ifs with hnc
    · exact hk i
    · exact h.frame next i hkn hnc
  have hO (t : TcbPtr) (i : Nat) : (s.switchTo next c k).Owns t i ↔
      s.Owns t i ∧ ¬ (t = c ∧ k = .mutexUnlock i) := by
    rw [owns_switchTo hcur]
    constructor
    · intro ht
      rcases ht with ht | ht
      · exact absurd ht.2 (hframe i)
      · exact ⟨ht.1, ht.2.2⟩
    · intro ht
      have htc := (h.owner t i ht).1
      refine Or.inr ⟨ht.1, ?_, ht.2⟩
      intro hb
      unfold nextFrame at hb
      rw [← hb.1, if_pos htc] at hb
      exact ht.2 ⟨htc, hb.2⟩
  have hnext (t : TcbPtr) (i : Nat) (ht : s.Owns t i ∧ ¬ (t = c ∧ k = .mutexUnlock i)) :
      t = c ∧ next = c := by
    have htc := (h.owner t i ht).1
    refine ⟨htc, hstay i (htc ▸ ht.1) fun hki => ht.2 ⟨htc, hki⟩⟩
  have hgt (i : Nat) : (s.switchTo next c k).gtMutex i = s.gtMutex i := by
    rw [gtMutex_switchTo, if_neg (hframe i)]
  refine
    { owner := ?_, locked := ?_, holder := ?_, queue := ?_, frame := ?_, count := ?_, prio := ?_ }
  · intro t i ht
    have ht' := (hO t i).mp ht
    obtain ⟨htc, hnc⟩ := hnext t i ht'
    exact ⟨htc.trans hnc.symm, (h.owner t i ht').2⟩
  · intro i
    rw [hgt, h.locked, hO]
    constructor
    · intro hc
      rw [(hnext c i hc).2]
      exact hc
    · intro hn
      have htc := (hnext next i hn).1
      rw [htc] at hn
      exact hn
  · intro i hi
    have hn := (hO next i).mp hi
    have htc := (hnext next i hn).1
    rw [htc] at hn
    rw [hgt, htc]
    exact h.holder i hn
  · intro i
    rw [hgt]
    exact h.queue i
  · intro t i hkt _
    rw [switchTo_frames, Function.update_apply]
    split_ifs with htc
    · exact hk i
    · exact h.frame t i hkt htc
  · intro t hkt
    obtain ⟨owned, hmem, hcard⟩ := h.count t hkt
    exact ⟨owned, fun i => (hmem i).trans (hO t i).symm, (switchTo_tcb hframe t).1.trans hcard⟩
  · intro t hkt
    obtain ⟨h₁, h₂, h₃⟩ := switchTo_tcb hframe t
    rw [h₁, h₂, h₃]
    exact h.prio t hkt

/-- A task at the ceiling keeps the processor in `dispatch_save`. -/
theorem Dispatchable.stays (h : Dispatchable K s c) (hpend : (s.systemTcb c).pending ≠ 1)
    (h0 : (s.systemTcb c).curPrio = highestPriority) (hp : (s.saveCur c).Picks next) :
    next = c := by
  rcases h.saveCur_cases with ⟨hb, _⟩ | ⟨_, hv, _⟩ | ⟨_, _, he⟩
  · exact absurd hb hpend
  · have hpos := h.pos c h.curKnown
    rw [h0] at hv
    have : (0 : Nat) = c.val := hv
    omega
  · rw [he] at hp
    exact (h.holder_takeSlot h0 hp).1

/-- The caller's count once it has taken `m` as well: at most 32 locks, so it does not wrap. -/
theorem LockState.count_acquire (h : LockState K s c O) (hk : K c) (hm : m < osNumMutex)
    (hnot : ¬ O c m) : ∃ owned : Finset Nat, (∀ i, i ∈ owned ↔ i = m ∨ O c i) ∧
      wrap32 ((s.systemTcb c).holdsLock + 1) = owned.card ∧ 0 < owned.card := by
  obtain ⟨owned, hmem, hcard⟩ := h.count c hk
  have hnm : m ∉ owned := by
    rw [hmem]
    exact hnot
  have hins : (insert m owned).card = owned.card + 1 := Finset.card_insert_of_notMem hnm
  have hle : (insert m owned).card ≤ osNumMutex := by
    rw [← Finset.card_range osNumMutex]
    apply Finset.card_le_card
    intro i hi
    rw [Finset.mem_range]
    rcases Finset.mem_insert.mp hi with hi | hi
    · rw [hi]
      exact hm
    · exact (h.owner c i ((hmem i).mp hi)).2
  have hsmall : owned.card < 32 := by
    have h32 : (insert m owned).card ≤ 32 := hle
    omega
  refine ⟨insert m owned, ?_, ?_, by omega⟩
  · intro i
    rw [Finset.mem_insert, hmem]
  · rw [hcard, hins]
    unfold wrap32
    rw [Int.bmod_eq_of_le (by omega) (by omega)]
    push_cast
    rfl

theorem LockState.acquire (h : LockState K s c fun t i => s.Owns t i) (hcur : s.curTcb = some c)
    (hm : m < osNumMutex) (hfree : (s.gtMutex m).bLock = false) :
    LockState K ((s.setMutex m fun x => { x with bLock := true }).mutexLockTail m c) c fun t i =>
      ((s.setMutex m fun x => { x with bLock := true }).mutexLockTail m c).Owns t i := by
  have hnot : ¬ s.Owns c m := by
    rw [← h.locked, hfree]
    simp
  have htcb (t : TcbPtr) :
      ((s.setMutex m fun x => { x with bLock := true }).mutexLockTail m c).systemTcb t =
        if t = c then { s.systemTcb c with
          holdsLock := wrap32 ((s.systemTcb c).holdsLock + 1), curPrio := highestPriority }
        else s.systemTcb t :=
    setTcb_apply (s.setMutex m fun x => { x with bLock := true }) c (fun t => { t with
      holdsLock := wrap32 (t.holdsLock + 1), curPrio := highestPriority }) t
  have hcount (hk : K c) := h.count_acquire hk hm hnot
  refine
    { owner := ?_, locked := ?_, holder := ?_, queue := ?_, frame := h.frame, count := ?_
      prio := ?_ }
  · intro t i ht
    rcases (owns_acquire hcur).mp ht with ht | ht
    · exact ⟨ht.1, by rw [ht.2]; exact hm⟩
    · exact h.owner t i ht
  · intro i
    rw [owns_acquire hcur, gtMutex_acquire]
    split_ifs with him
    · simp [him]
    · rw [h.locked]
      simp [him]
  · intro i hi
    rw [gtMutex_acquire]
    split_ifs with him
    · rfl
    · exact h.holder i (((owns_acquire hcur).mp hi).resolve_left fun hb => him hb.2)
  · intro i
    rw [gtMutex_acquire]
    split_ifs
    · exact h.queue m
    · exact h.queue i
  · intro t hk
    rw [htcb]
    split_ifs with ht
    · rw [ht] at hk
      obtain ⟨owned, hmem, hcard, _⟩ := hcount hk
      refine ⟨owned, fun i => ?_, hcard⟩
      rw [hmem, owns_acquire hcur, ht]
      simp
    · obtain ⟨owned, hmem, hcard⟩ := h.count t hk
      refine ⟨owned, fun i => ?_, hcard⟩
      rw [hmem, owns_acquire hcur]
      simp [ht]
  · intro t hk
    rw [htcb]
    split_ifs with ht hz hz
    · rw [ht] at hk
      obtain ⟨owned, _, hcard, hpos⟩ := hcount hk
      have hz' : wrap32 ((s.systemTcb c).holdsLock + 1) = 0 := hz
      omega
    · rfl
    · rw [h.prio t hk, if_pos hz]
    · rw [h.prio t hk, if_neg hz]

theorem saveCur_systemTcb (c : TcbPtr) (s : KState) : (s.saveCur c).systemTcb = s.systemTcb := by
  unfold saveCur
  split_ifs <;> rfl

/-- With nobody waiting, a release only frees the mutex and takes the lock off the count. -/
theorem mutexHandOver_tcb (hq : (s.gtMutex m).pSleepQueue = none) (t : TcbPtr) :
    (s.mutexHandOver m c).systemTcb t = if t = c then
      if (s.systemTcb c).holdsLock > 1 then
        { s.systemTcb c with holdsLock := (s.systemTcb c).holdsLock - 1 }
      else { s.systemTcb c with holdsLock := 0, curPrio := (s.systemTcb c).nativePrio }
    else s.systemTcb t := by
  unfold mutexHandOver
  rw [hq]
  exact setTcb_apply (s.setMutex m fun x => { x with bLock := false }) c (fun t =>
    if t.holdsLock > 1 then { t with holdsLock := t.holdsLock - 1 }
    else { t with holdsLock := 0, curPrio := t.nativePrio }) t

theorem devEnqueue_tcb {d : Nat} (h : s.devEnqueue d c = .ok s₁) (t : TcbPtr) :
    (s₁.systemTcb t).holdsLock = (s.systemTcb t).holdsLock ∧
    (s₁.systemTcb t).curPrio = (s.systemTcb t).curPrio ∧
    (s₁.systemTcb t).nativePrio = (s.systemTcb t).nativePrio := by
  have link (u : TcbPtr) (p : Option TcbPtr) (s : KState) :
      ((s.setTcb u fun x => { x with sleepQueue := p }).systemTcb t).holdsLock =
        (s.systemTcb t).holdsLock ∧
      ((s.setTcb u fun x => { x with sleepQueue := p }).systemTcb t).curPrio =
        (s.systemTcb t).curPrio ∧
      ((s.setTcb u fun x => { x with sleepQueue := p }).systemTcb t).nativePrio =
        (s.systemTcb t).nativePrio := by
    rw [setTcb_apply]
    split_ifs with ht
    · rw [ht]
      exact ⟨rfl, rfl, rfl⟩
    · exact ⟨rfl, rfl, rfl⟩
  rcases devEnqueue_ok h with ⟨_, rfl⟩ | ⟨_, last, _, _, rfl⟩
  · exact link c none _
  · obtain ⟨h₁, h₂, h₃⟩ := link c none (s.setTcb last fun x => { x with sleepQueue := some c })
    obtain ⟨g₁, g₂, g₃⟩ := link last (some c) s
    exact ⟨h₁.trans g₁, h₂.trans g₂, h₃.trans g₃⟩

/-- The caller's count while it still holds `m`. -/
theorem LockState.count_release (h : LockState K s c O) (hk : K c) (hown : O c m) :
    ∃ owned : Finset Nat, (∀ i, i ∈ owned ↔ i ≠ m ∧ O c i) ∧
      (s.systemTcb c).holdsLock = owned.card + 1 := by
  obtain ⟨owned, hmem, hcard⟩ := h.count c hk
  have hm : m ∈ owned := (hmem m).mpr hown
  have herase := Finset.card_erase_of_mem hm
  have hpos := Finset.card_pos.mpr ⟨m, hm⟩
  refine ⟨owned.erase m, ?_, by omega⟩
  intro i
  rw [Finset.mem_erase, hmem]

/-- The unlock of an owned mutex, up to the switch. -/
theorem LockState.release (h : LockState K s c fun t i => s.Owns t i) (hown : s.Owns c m) :
    LockState K ((s.mutexHandOver m c).saveCur c) c fun t i =>
      ((s.mutexHandOver m c).saveCur c).Owns t i ∧
        ¬ (t = c ∧ Frame.mutexUnlock m = .mutexUnlock i) := by
  have howns (t : TcbPtr) (i : Nat) :
      ((s.mutexHandOver m c).saveCur c).Owns t i ↔ s.Owns t i :=
    ((mutexHandOver_replies m c s).trans (saveCur_replies c _)).owns
      ((saveCur_curTcb ..).trans (mutexHandOver_curTcb s m c))
      ((saveCur_frames ..).trans (mutexHandOver_frames m c s)) t i
  have hgt (i : Nat) : ((s.mutexHandOver m c).saveCur c).gtMutex i =
      if i = m then { s.gtMutex m with bLock := false } else s.gtMutex i := by
    rw [saveCur_gtMutex, gtMutex_mutexHandOver, h.queue m]
  have htcb := mutexHandOver_tcb (c := c) (h.queue m)
  refine
    { owner := ?_, locked := ?_, holder := ?_, queue := ?_, frame := ?_, count := ?_, prio := ?_ }
  · intro t i ht
    exact h.owner t i ((howns t i).mp ht.1)
  · intro i
    rw [hgt, howns]
    split_ifs with him
    · simp [him]
    · rw [h.locked]
      simp [Ne.symm him]
  · intro i hi
    rw [hgt]
    split_ifs with him
    · exact absurd ⟨rfl, by rw [him]⟩ hi.2
    · exact h.holder i ((howns c i).mp hi.1)
  · intro i
    rw [hgt]
    split_ifs
    · exact h.queue m
    · exact h.queue i
  · intro t i hk htc
    rw [saveCur_frames, mutexHandOver_frames]
    exact h.frame t i hk htc
  · intro t hk
    rw [saveCur_systemTcb, htcb]
    by_cases htc : t = c
    · subst htc
      obtain ⟨owned, hmem, hcard⟩ := h.count_release hk hown
      refine ⟨owned, ?_, ?_⟩
      · intro i
        rw [hmem, howns]
        simp only [Frame.mutexUnlock.injEq, true_and, ne_eq]
        constructor
        · intro hi
          exact ⟨hi.2, fun he => hi.1 he.symm⟩
        · intro hi
          exact ⟨fun he => hi.2 he.symm, hi.1⟩
      · rw [if_pos rfl]
        split_ifs with hgt1
        · change (s.systemTcb t).holdsLock - 1 = _
          omega
        · change (0 : Int) = _
          omega
    · rw [if_neg htc]
      obtain ⟨owned, hmem, hcard⟩ := h.count t hk
      refine ⟨owned, fun i => ?_, hcard⟩
      rw [hmem, howns]
      simp [htc]
  · intro t hk
    rw [saveCur_systemTcb, htcb]
    by_cases htc : t = c
    · subst htc
      rw [if_pos rfl]
      split_ifs with hgt1 hz hz
      · have hz' : (s.systemTcb t).holdsLock - 1 = 0 := hz
        omega
      · rw [h.prio t hk, if_neg (by omega)]
      · rfl
      · exact absurd rfl hz
    · rw [if_neg htc]
      exact h.prio t hk

/-- An unlock by the task that holds the mutex, through the switch. -/
theorem LockState.unlock (h : LockState K s c fun t i => s.Owns t i) (hl : Located K a s)
    (hs : Scheduled K s c) (hne : c ≠ idleTcb) (hholds : s.Holds c m)
    (hp : ((s.mutexHandOver m c).saveCur c).Picks next) :
    LockState K (((s.mutexHandOver m c).saveCur c).switchTo next c (.mutexUnlock m)) next fun t i =>
      (((s.mutexHandOver m c).saveCur c).switchTo next c (.mutexUnlock m)).Owns t i := by
  have hd := hs.toDispatchable.mutexHandOver (m := m) hne
  have hrel := h.release ⟨hholds, fun hb => hb.1 hs.cur⟩
  have hpend : ((s.mutexHandOver m c).systemTcb c).pending ≠ 1 := by
    rw [mutexHandOver_tcb (h.queue m), if_pos rfl]
    have hsame := hl.pending_of_running ((hl.running c).mpr hs.cur)
    split_ifs <;> exact hsame
  have hstay (i : Nat) (hi : ((s.mutexHandOver m c).saveCur c).Owns c i)
      (hother : Frame.mutexUnlock m ≠ .mutexUnlock i) : next = c := by
    refine hd.stays hpend ?_ hp
    have hceil := hrel.ceiling hs.curKnown ⟨hi, fun hb => hother hb.2⟩
    rwa [saveCur_systemTcb] at hceil
  exact hrel.switchTo ((saveCur_curTcb ..).trans hd.cur) (hd.saveCur_known hp) (by simp) hstay

/-- A wait for a device by a task that holds nothing. -/
theorem LockState.waitBlock {d : Nat} (h : LockState K s c fun t i => s.Owns t i)
    (hs : Scheduled K s c) (hne : c ≠ idleTcb) (hfree : (s.systemTcb c).holdsLock = 0)
    (hq : s.devEnqueue d c = .ok s₁) (hp : s₁.Picks next) :
    LockState K (s₁.switchTo next c (.devWait d)) next fun t i =>
      (s₁.switchTo next c (.devWait d)).Owns t i := by
  have hd := hs.toDispatchable.devEnqueue hne hq
  have hnone (i : Nat) : ¬ s.Owns c i := h.count_zero hs.curKnown hfree i
  have howns := (devEnqueue_replies hq).owns (hd.cur.trans hs.cur.symm) (devEnqueue_frames hq)
  have h₂ : LockState K s₁ c fun t i => s₁.Owns t i ∧ ¬ (t = c ∧ Frame.devWait d =
      .mutexUnlock i) := by
    refine h.congr (fun t i => by simp [howns]) ?_ (devEnqueue_frames hq) (devEnqueue_tcb hq)
    intro i
    rw [devEnqueue_gtMutex hq]
    exact ⟨rfl, rfl, rfl⟩
  exact h₂.switchTo hd.cur (hd.slot _ _ hp.slot).2 (by simp)
    fun i hi _ => absurd ((howns c i).mp hi) (hnone i)

/-- A timer interrupt that wakes somebody; a task that holds a mutex goes on. -/
theorem LockState.wake {millis : Nat} (h : LockState K s c fun t i => s.Owns t i)
    (hl : Located K a s) (hs : Scheduled K s c) (hw : s.devWake millis = .ok (s₁, true))
    (hp : (s₁.saveCur c).Picks next) :
    LockState K ((s₁.saveCur c).switchTo next c .devUpdate) next fun t i =>
      ((s₁.saveCur c).switchTo next c .devUpdate).Owns t i := by
  obtain ⟨hcur, htcb, hgt, hfr⟩ := devWake_frame hw
  have hd := (hs.toDispatchable.devWake hw).1
  have howns := ((devWake_replies hw).trans (saveCur_replies c s₁)).owns
    ((saveCur_curTcb ..).trans hcur) ((saveCur_frames ..).trans hfr)
  have h₂ : LockState K (s₁.saveCur c) c fun t i => (s₁.saveCur c).Owns t i ∧
      ¬ (t = c ∧ Frame.devUpdate = .mutexUnlock i) := by
    refine h.congr (fun t i => by simp [howns]) ?_ ((saveCur_frames ..).trans hfr) ?_
    · intro i
      rw [saveCur_gtMutex, hgt]
      exact ⟨rfl, rfl, rfl⟩
    · intro t
      rw [saveCur_systemTcb, htcb]
      exact ⟨rfl, rfl, rfl⟩
  refine h₂.switchTo ((saveCur_curTcb ..).trans (hcur.trans hs.cur)) (hd.saveCur_known hp)
    (by simp) fun i hi _ => ?_
  have hpend : (s₁.systemTcb c).pending ≠ 1 := by
    rw [htcb]
    exact hl.pending_of_running ((hl.running c).mpr hs.cur)
  refine hd.stays hpend ?_ hp
  rw [htcb]
  exact h.ceiling hs.curKnown ((howns c i).mp hi)

/-- Every kernel entry in which unlocks are by holders keeps the highest-locker protocol. -/
theorem LockState.entry {op : Op} (h : LockState K s c fun t i => s.Owns t i) (hl : Located K a s)
    (hs : Scheduled K s c) (hop : ownUnlocks s op) (hc : ∀ call, op = .call call → c ≠ idleTcb)
    (he : Entry s op s₁) :
    ∃ c', s₁.curTcb = some c' ∧ LockState K s₁ c' fun t i => s₁.Owns t i := by
  have other {s₂ : KState} {call : Call} {v : Int} (h₂ : LockState K s₂ c fun t i => s₂.Owns t i)
      (hv : v ≠ 0 ∨ call = .mutexCreate) :
      LockState K (s₂.ret call v) c fun t i => (s₂.ret call v).Owns t i := by
    exact h₂.congr (fun _ _ => owns_ret hv) (fun _ => ⟨rfl, rfl, rfl⟩) rfl
      (fun _ => ⟨rfl, rfl, rfl⟩)
  cases he with
  | refuse call v hv => exact ⟨c, hs.cur, other h (Or.inl (by omega))⟩
  | create i _ _ =>
    refine ⟨c, hs.cur, other ?_ (Or.inr rfl)⟩
    refine h.congr (fun _ _ => Iff.rfl) ?_ rfl (fun _ => ⟨rfl, rfl, rfl⟩)
    intro m
    rw [setMutex_apply]
    split_ifs with hm
    · rw [hm]
      exact ⟨rfl, rfl, rfl⟩
    · exact ⟨rfl, rfl, rfl⟩
  | acquire m t hm ht hfree =>
    cases hs.eq_cur ht
    exact ⟨c, hs.cur, h.acquire hs.cur hm hfree⟩
  | lockBlock m t next s₂ _ ht hlock hown _ _ =>
    cases hs.eq_cur ht
    exact absurd (h.holder m ((h.locked m).mp hlock)) hown
  | unlock m t next s₂ _ ht _ _ hs₂ hp =>
    cases hs.eq_cur ht
    subst hs₂
    obtain ⟨t, htc, hholds⟩ := hop.2.2
    cases hs.eq_cur htc
    rw [Int.toNat_natCast] at hholds
    exact ⟨next, switchTo_curTcb, h.unlock hl hs (hc _ rfl) hholds hp⟩
  | waitBlock d t next s₂ _ ht hfree hq hp =>
    cases hs.eq_cur ht
    exact ⟨next, switchTo_curTcb, h.waitBlock hs (hc _ rfl) hfree hq hp⟩
  | newSet tasks n _ _ _ _ _ _ => exact absurd hop.1 id
  | tick millis s₂ hw =>
    obtain ⟨hcur, htcb, hgt, hfr⟩ := devWake_frame hw
    refine ⟨c, hcur.trans hs.cur, h.congr ((devWake_replies hw).owns hcur hfr) ?_ hfr ?_⟩
    · intro m
      rw [hgt]
      exact ⟨rfl, rfl, rfl⟩
    · intro t
      rw [htcb]
      exact ⟨rfl, rfl, rfl⟩
  | wake millis t next s₂ s₃ hw ht hs₃ hp =>
    cases hs.eq_cur ((devWake_frame hw).1.symm.trans ht)
    subst hs₃
    exact ⟨next, switchTo_curTcb, h.wake hl hs hw hp⟩

theorem Booted.lockState {tasks : Nat → Task} {regs : SchedContext} (h : Booted s)
    (hc : Creates tasks n regs s s') (hcur : s'.curTcb = some c) :
    LockState (IsTask n) s' c fun t i => s'.Owns t i := by
  have hno (t : TcbPtr) (m : Nat) : ¬ s'.Owns t m := by
    intro ht
    exact h.not_holds t m ((hc.replies.holds t m).mp ht.1)
  obtain ⟨mem, next, s₁, _, hn, rfl, _, _, rfl⟩ := hc.fresh
  have hi := installTasks_installed mem.slot n hn (s.interrupt regs)
  have hgt : ((s.interrupt regs).installTasks mem.slot n).gtMutex = s.gtMutex := hi.mutex
  have hinit (t : TcbPtr) (x : Tcb) : (initTcb mem.slot n t x).holdsLock = 0 ∧
      (initTcb mem.slot n t x).curPrio = (initTcb mem.slot n t x).nativePrio := by
    unfold initTcb
    split_ifs <;> exact ⟨rfl, rfl⟩
  refine
    { owner := fun t m ht => absurd ht (hno t m), locked := ?_
      holder := fun m hm => absurd hm (hno c m), queue := ?_, frame := ?_, count := ?_
      prio := ?_ }
  · intro m
    refine iff_of_false ?_ (hno c m)
    change ((KState.installTasks mem.slot n (s.interrupt regs)).gtMutex m).bLock ≠ true
    rw [hgt, (h.mutex m).1]
    simp
  · intro m
    exact (congrArg (fun g => (g m).pSleepQueue) hgt).trans (h.mutex m).2.2
  · intro t m hk _
    change ((s.interrupt regs).installTasks mem.slot n).frames t ≠ _
    rw [hi.frame, if_pos hk]
    simp
  · intro t hk
    refine ⟨∅, fun m => iff_of_false (by simp) (hno t m), ?_⟩
    change (((s.interrupt regs).installTasks mem.slot n).systemTcb t).holdsLock = _
    rw [hi.tcb, if_pos hk, (hinit t _).1]
    rfl
  · intro t hk
    change (((s.interrupt regs).installTasks mem.slot n).systemTcb t).curPrio =
      if (((s.interrupt regs).installTasks mem.slot n).systemTcb t).holdsLock = 0 then
        (((s.interrupt regs).installTasks mem.slot n).systemTcb t).nativePrio else _
    rw [hi.tcb, if_pos hk, (hinit t _).1, if_pos rfl, (hinit t _).2]

theorem Run.lockState (h : Run ownUnlocks n s) :
    ∃ a c, Scheduled (IsTask n) s c ∧ Located (IsTask n) a s ∧
      LockState (IsTask n) s c fun t i => s.Owns t i := by
  induction h with
  | start tasks regs hboot hc =>
    obtain ⟨a, c, hs, hl⟩ := (Booted.of_boot hboot).located hc
    exact ⟨a, c, hs, hl, (Booted.of_boot hboot).lockState hc hs.cur⟩
  | step _ hst ih =>
    obtain ⟨a, c, hs, hl, hlk⟩ := ih
    obtain ⟨a', c', hs', hl'⟩ := hl.step hs (hst.mono fun _ _ => And.left)
    obtain ⟨regs, op, s₁, hop, hidle, he, rfl⟩ := hst.entry (by rw [hs.cur]; simp)
    have hi : LockState (IsTask n) (KState.interrupt regs _) c fun t i => Owns _ t i :=
      hlk.congr (fun _ _ => Iff.rfl) (fun _ => ⟨rfl, rfl, rfl⟩) rfl (fun _ => ⟨rfl, rfl, rfl⟩)
    obtain ⟨c'', hcur, hlk'⟩ := hi.entry (hl.interrupt regs) (hs.interrupt regs) hop
      (hs.caller hidle) he
    cases Option.some.inj (hcur.symm.trans hs'.cur)
    exact ⟨a', _, hs', hl', hlk'.congr (fun _ _ => Iff.rfl) (fun _ => ⟨rfl, rfl, rfl⟩) rfl
      (fun _ => ⟨rfl, rfl, rfl⟩)⟩

/-- The highest-locker protocol, seen from one state. -/
structure CeilingKept (n : Nat) (s : KState) : Prop where
  /-- Only the running task owns mutexes. -/
  owner : ∀ t m, s.Owns t m → s.curTcb = some t
  queue : ∀ m, (s.gtMutex m).pSleepQueue = none
  /-- `mutex_lock` returns at once, without a dispatch. -/
  lock : ∀ regs mutex s', s.curTcb ≠ some idleTcb →
    s.step regs (.call (.mutexLock mutex)) = .ok s' →
    ∃ v, s'.log = .returned s.curTcb (.mutexLock mutex) v :: s.log
  count : ∀ t, IsTask n t → (s.systemTcb t).holdsLock =
    ((Finset.range osNumMutex).filter fun m => s.Owns t m).card
  prio : ∀ t, IsTask n t → (s.systemTcb t).curPrio =
    if 0 < ((Finset.range osNumMutex).filter fun m => s.Owns t m).card then highestPriority
    else (s.systemTcb t).nativePrio
  sleeper : ∀ t d m, s.At t (.sleepQ d) → ¬ s.Holds t m

/-- If tasks unlock only what they hold, locks are held at the ceiling and never waited for. -/
theorem ceilingKept (h : Run ownUnlocks n s) : CeilingKept n s := by
  obtain ⟨a, c, hs, hl, hlk⟩ := h.lockState
  have hcount (t : TcbPtr) (hk : IsTask n t) : (s.systemTcb t).holdsLock =
      ((Finset.range osNumMutex).filter fun m => s.Owns t m).card := by
    obtain ⟨owned, hmem, hcard⟩ := hlk.count t hk
    have hset : owned = (Finset.range osNumMutex).filter fun m => s.Owns t m := by
      ext m
      rw [hmem, Finset.mem_filter, Finset.mem_range]
      exact ⟨fun hm => ⟨(hlk.owner t m hm).2, hm⟩, And.right⟩
    rw [hcard, hset]
  refine ⟨?_, hlk.queue, ?_, hcount, ?_, ?_⟩
  · intro t m ht
    rw [(hlk.owner t m ht).1]
    exact hs.cur
  · intro regs mutex s' hidle hst
    obtain ⟨s₁, he, rfl⟩ := step_entry hst (fun hb => by rw [hs.cur] at hb; cases hb)
    cases he with
    | refuse _ v _ => exact ⟨v, rfl⟩
    | acquire m t _ ht _ => exact ⟨0, rfl⟩
    | lockBlock m t next s₂ _ ht hlock hown _ _ =>
      cases hs.eq_cur ht
      exact absurd (hlk.holder m ((hlk.locked m).mp hlock)) hown
  · intro t hk
    have hn := hcount t hk
    rw [hlk.prio t hk]
    by_cases hz : (s.systemTcb t).holdsLock = 0
    · rw [if_pos hz, if_neg (by omega)]
    · rw [if_neg hz, if_pos (by omega)]
  · intro t d m hsl hholds
    have hp := (hl.at_sleepQ t d).mp hsl
    have hown : s.Owns t m := by
      refine ⟨hholds, fun hb => ?_⟩
      have hf := hb.2
      rw [hl.deviceFrame t d hp] at hf
      cases hf
    have hrun := (hl.running t).mpr (by rw [(hlk.owner t m hown).1]; exact hs.cur)
    rw [hp] at hrun
    cases hrun

/-- Task 1 waits for a device, task 2 locks a mutex and keeps the processor over the tick. -/
theorem ceilingKept_preempted : ∃ s, Run ownUnlocks 2 s ∧ CeilingKept 2 s ∧ s.Owns 2 0 := by
  have hx : ((startSet zeroContext 2 sampleTasks 2).bind (execute ownUnlocks zeroContext
      [.call (.eventWait 0), .call (.mutexLock 0), .timer 100])).map
        (fun s => decide (s.Owns 2 0)) = some true := by decide +kernel
  obtain ⟨s, hs, hv⟩ := Option.map_eq_some_iff.mp hx
  exact ⟨s, execute_run hs, ceilingKept (execute_run hs), of_decide_eq_true hv⟩

/-- A task switched out inside its unlock has released the mutex, but its call has not returned. -/
theorem unlockPending_two_holders : ∃ s, Run ownUnlocks 2 s ∧ s.Holds 1 0 ∧ s.Holds 2 0 := by
  have hx : ((startSet zeroContext 2 sampleTasks 2).bind (execute ownUnlocks zeroContext
      [.call (.eventWait 0), .call (.mutexLock 0), .timer 100, .call (.mutexUnlock 0),
        .call (.mutexLock 0)])).map
        (fun s => decide (s.Holds 1 0 ∧ s.Holds 2 0)) = some true := by decide +kernel
  obtain ⟨s, hs, hv⟩ := Option.map_eq_some_iff.mp hx
  exact ⟨s, execute_run hs, of_decide_eq_true hv⟩

end RtosKernel.KState
