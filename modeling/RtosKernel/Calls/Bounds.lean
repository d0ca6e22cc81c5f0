import RtosKernel.Calls.Accesses
import RtosKernel.Scheduling.Reachable
import RtosKernel.TaskSets.History

namespace RtosKernel

open Errno

/-- The ids `mutex_create` has returned, newest first. -/
def createdIds : List Event → List Int
  | [] => []
  | .returned _ .mutexCreate value :: log =>
    if 0 ≤ value then value :: createdIds log else createdIds log
  | _ :: log => createdIds log

theorem createdIds_cons {e : Event} (h : ∀ t v, e ≠ .returned t .mutexCreate v)
    (log : List Event) : createdIds (e :: log) = createdIds log := by
  cases e with
  | returned t c v =>
    cases c with
    | mutexCreate => exact absurd rfl (h t v)
    | mutexLock m => rfl
    | mutexUnlock m => rfl
    | eventWait d => rfl
    | taskCreate tasks n => rfl
  | runqueueAdd t p slot => rfl
  | dispatch rq p t => rfl
  | signal d => rfl

theorem createdIds_append {l : List Event} (h : ∀ e ∈ l, ∀ t v, e ≠ .returned t .mutexCreate v)
    (log : List Event) : createdIds (l ++ log) = createdIds log := by
  induction l with
  | nil => rfl
  | cons e l ih =>
    have hrest := ih fun e' he' => h e' (List.mem_cons_of_mem _ he')
    exact (createdIds_cons (h e (List.mem_cons_self ..)) _).trans hrest

namespace KState

variable {s s₁ : KState} {op : Op} {r : List Event}

theorem Replies.createdIds (h : Replies s r s₁) (hr : ∀ t v, .returned t .mutexCreate v ∉ r) :
    createdIds s₁.log = createdIds s.log := by
  obtain ⟨l, hl, hsilent⟩ := h
  have hnone : ∀ e ∈ r ++ l, ∀ t v, e ≠ .returned t .mutexCreate v := by
    intro e he t v heq
    rcases List.mem_append.mp he with her | hel
    · rw [heq] at her
      exact hr t v her
    · exact hsilent e hel t .mutexCreate v heq
  rw [hl, ← List.append_assoc]
  exact createdIds_append hnone s.log

theorem Replies.createdIds_resumed {next : TcbPtr} {f : Frame}
    (h : Replies s (resumed next f) s₁) :
    RtosKernel.createdIds s₁.log = RtosKernel.createdIds s.log := by
  apply h.createdIds
  intro t v hm
  cases f with
  | mutexLock m => cases List.mem_singleton.mp hm
  | mutexUnlock m => cases List.mem_singleton.mp hm
  | devWait d => cases List.mem_singleton.mp hm
  | launch => cases hm
  | devUpdate => cases hm

/-- What the table of mutexes says and what `mutex_create` has returned. -/
structure HandedOut (s : KState) : Prop where
  once : (createdIds s.log).Nodup
  flag : ∀ v, v ∈ createdIds s.log ↔ ∃ i < osNumMutex, v = i ∧ (s.gtMutex i).bAvailable = false
  /-- A `mutex_lock` that was switched out goes on with an entry of the table. -/
  frame : ∀ t m, s.frames t = .mutexLock m → m < osNumMutex

/-- Ids, flags and frames that an operation leaves alone. -/
theorem HandedOut.keep (h : HandedOut s) (hids : createdIds s₁.log = createdIds s.log)
    (hav : ∀ i, (s₁.gtMutex i).bAvailable = (s.gtMutex i).bAvailable)
    (hframe : ∀ t m, s₁.frames t = .mutexLock m → m < osNumMutex) : HandedOut s₁ where
  once := by
    rw [hids]
    exact h.once
  flag := by
    intro v
    rw [hids, h.flag]
    simp only [hav]
  frame := hframe

theorem gtMutex_switchTo_available {next last : TcbPtr} {k : Frame} (i : Nat) :
    ((s.switchTo next last k).gtMutex i).bAvailable = (s.gtMutex i).bAvailable := by
  rw [gtMutex_switchTo]
  split_ifs <;> rfl

theorem switchTo_within {next last : TcbPtr} {k : Frame}
    (h : ∀ t m, s.frames t = .mutexLock m → m < osNumMutex)
    (hk : ∀ m, k = .mutexLock m → m < osNumMutex) (t : TcbPtr) (m : Nat)
    (hf : (s.switchTo next last k).frames t = .mutexLock m) : m < osNumMutex := by
  rw [switchTo_frames, Function.update_apply] at hf
  split_ifs at hf
  · exact hk m hf
  · exact h t m hf

theorem HandedOut.ret (h : HandedOut s) (c : Call) {v : Int}
    (hv : c ≠ .mutexCreate ∨ v < 0) : HandedOut (s.ret c v) := by
  have hids : createdIds (s.ret c v).log = createdIds s.log := by
    cases c with
    | mutexCreate =>
      have hneg := hv.resolve_left (by simp)
      exact if_neg (Int.not_le.mpr hneg)
    | mutexLock m => rfl
    | mutexUnlock m => rfl
    | eventWait d => rfl
    | taskCreate tasks n => rfl
  exact h.keep hids (fun _ => rfl) h.frame

theorem HandedOut.create (h : HandedOut s) {i : Nat} (hi : i < osNumMutex)
    (hav : (s.gtMutex i).bAvailable = true) :
    HandedOut ((s.setMutex i fun x => { x with bAvailable := false }).ret .mutexCreate i) := by
  have hids : createdIds ((s.setMutex i fun x =>
      { x with bAvailable := false }).ret .mutexCreate i).log = (i : Int) :: createdIds s.log :=
    if_pos (Int.natCast_nonneg i)
  have hflag (j : Nat) : (((s.setMutex i fun x =>
      { x with bAvailable := false }).ret .mutexCreate i).gtMutex j).bAvailable =
      if j = i then false else (s.gtMutex j).bAvailable := by
    change ((s.setMutex i fun x => { x with bAvailable := false }).gtMutex j).bAvailable = _
    rw [setMutex_apply]
    split_ifs <;> rfl
  refine { once := ?_, flag := fun v => ?_, frame := h.frame }
  · rw [hids]
    refine List.nodup_cons.mpr ⟨fun hm => ?_, h.once⟩
    obtain ⟨j, _, hj, htaken⟩ := (h.flag _).mp hm
    rw [← Int.natCast_inj.mp hj, hav] at htaken
    cases htaken
  · rw [hids, List.mem_cons, h.flag]
    simp only [hflag]
    constructor
    · rintro (rfl | ⟨j, hj, rfl, htaken⟩)
      · exact ⟨i, hi, rfl, if_pos rfl⟩
      · refine ⟨j, hj, rfl, ?_⟩
        rw [htaken]
        exact ite_self false
    · rintro ⟨j, hj, rfl, htaken⟩
      by_cases hji : j = i
      · exact Or.inl (congrArg _ hji)
      · rw [if_neg hji] at htaken
        exact Or.inr ⟨j, hj, rfl, htaken⟩

theorem HandedOut.entry (h : HandedOut s) (he : Entry s op s₁) : HandedOut s₁ := by
  cases he with
  | refuse call v hv => exact h.ret call (Or.inr hv)
  | create i hi hav => exact h.create hi hav
  | acquire m t _ _ _ =>
    refine h.keep rfl (fun i => ?_) h.frame
    rw [gtMutex_acquire]
    split_ifs with hi
    · rw [hi]
    · rfl
  | lockBlock m t next s₂ hm _ hlock _ hq _ =>
    have hr := (mutexEnqueue_replies hq).trans (switchTo_replies s₂ next t (.mutexLock m))
    refine h.keep hr.createdIds_resumed (fun i => ?_) (switchTo_within ?_ ?_)
    · rw [gtMutex_switchTo_available]
      rcases mutexEnqueue_ok hq with ⟨_, rfl⟩ | ⟨_, _, _, _, rfl⟩
      · rw [setMutex_apply]
        split_ifs with hi
        · rw [hi]
          rfl
        · rfl
      · rfl
    · rw [mutexEnqueue_frames hq]
      exact h.frame
    · intro i hi
      cases hi
      exact hm
  | unlock m t next s₂ _ _ _ _ hs _ =>
    subst hs
    have hr := ((mutexHandOver_replies m t s).trans (saveCur_replies t _)).trans
      (switchTo_replies _ next t (.mutexUnlock m))
    refine h.keep hr.createdIds_resumed (fun i => ?_) (switchTo_within ?_ (by simp))
    · rw [gtMutex_switchTo_available, saveCur_gtMutex, gtMutex_mutexHandOver]
      split_ifs with hi
      · rw [hi]
        cases (s.gtMutex m).pSleepQueue <;> rfl
      · rfl
    · rw [saveCur_frames, mutexHandOver_frames]
      exact h.frame
  | waitBlock d t next s₂ _ _ _ hq _ =>
    have hr := (devEnqueue_replies hq).trans (switchTo_replies s₂ next t (.devWait d))
    refine h.keep hr.createdIds_resumed (fun i => ?_) (switchTo_within ?_ (by simp))
    · rw [gtMutex_switchTo_available, devEnqueue_gtMutex hq]
    · rw [devEnqueue_frames hq]
      exact h.frame
  | newSet tasks n next mem s₂ hadm hs hp =>
    subst hs
    have hn := taskAdmit_le hadm
    obtain ⟨hgt, hfr, hr⟩ := startNext mem.slot hn hp rfl
    have hi := installTasks_installed mem.slot n hn s
    refine h.keep (hr.createdIds (by simp)) (fun i => by rw [hgt]) fun t m hf => ?_
    rw [hfr, hi.frame] at hf
    split_ifs at hf
    exact h.frame t m hf
  | tick millis s₂ hw =>
    obtain ⟨_, _, hgt, hfr⟩ := devWake_frame hw
    refine h.keep ((devWake_replies hw).createdIds (by simp)) (fun i => by rw [hgt]) ?_
    rw [hfr]
    exact h.frame
  | wake millis t next s₂ s₃ hw _ hs _ =>
    subst hs
    obtain ⟨_, _, hgt, hfr⟩ := devWake_frame hw
    have hr := ((devWake_replies hw).trans (saveCur_replies t s₂)).trans
      (switchTo_replies _ next t .devUpdate)
    refine h.keep hr.createdIds_resumed (fun i => ?_) (switchTo_within ?_ (by simp))
    · rw [gtMutex_switchTo_available, saveCur_gtMutex, hgt]
    · rw [saveCur_frames, hfr]
      exact h.frame

theorem handedOut_boot : HandedOut boot where
  once := List.nodup_nil
  flag := by
    intro v
    constructor
    · intro hm
      cases hm
    · rintro ⟨i, hi, rfl, htaken⟩
      simp [boot, mutexInit, hi] at htaken
  frame := by simp [boot, mutexInit, bss]

theorem Reachable.handedOut (h : Reachable s) : HandedOut s := by
  refine h.induct handedOut_boot (fun a regs op b ha he => ?_) fun a regs c v ha _ hc => ?_
  · have hi : HandedOut (a.interrupt regs) := { ha with }
    exact { hi.entry he with }
  · have ht : HandedOut (a.trap regs) := { ha with }
    have hnew : c ≠ .mutexCreate := by
      rintro rfl
      exact hc
    exact { ht.ret c (Or.inl hnew) with }

/-- Every access of a call is to an entry of its array. -/
structure InBounds (s : KState) (c : Call) : Prop where
  mutex : ∀ i ∈ s.mutexAccesses c, i < osNumMutex
  device : ∀ d ∈ s.deviceAccesses c, d < numDevices

/-- The calls that go one entry too far: `mutex_create` when all ids are out, and `event_wait`
on device `NUM_DEVICES` by a task without locks. -/
def PastEnd (s : KState) : Call → Prop
  | .mutexCreate => ∀ i < osNumMutex, (i : Int) ∈ createdIds s.log
  | .eventWait dev =>
    dev = numDevices ∧ ∃ cur, s.curTcb = some cur ∧ (s.systemTcb cur).holdsLock = 0
  | _ => False

theorem HandedOut.scan_full (h : HandedOut s) :
    createScan s.gtMutex (osNumMutex + 1) 0 = osNumMutex ↔ PastEnd s .mutexCreate := by
  rcases createScan_spec s.gtMutex (osNumMutex + 1) 0 (by omega) (by omega) with hfull | ⟨hlt, hav⟩
  · refine iff_of_true hfull fun i hi => (h.flag i).mpr ⟨i, hi, rfl, ?_⟩
    exact createScan_passed s.gtMutex (Nat.zero_le i) (hfull ▸ hi)
  · refine iff_of_false (Nat.ne_of_lt hlt) fun hall => ?_
    obtain ⟨j, _, hj, htaken⟩ := (h.flag _).mp (hall _ hlt)
    rw [← Int.natCast_inj.mp hj, hav] at htaken
    cases htaken

theorem HandedOut.inBounds (h : HandedOut s) (c : Call) : InBounds s c ↔ ¬ PastEnd s c := by
  have hid {mutex : Int} {i : Nat} (hi : i ∈ if mutex ≥ osNumMutex ∨ mutex < 0 then []
      else [mutex.toNat]) : i < osNumMutex := by
    split_ifs at hi with hr
    · cases hi
    · rw [List.mem_singleton.mp hi]
      omega
  cases c with
  | mutexCreate =>
    have hreads : scanReads s.gtMutex (osNumMutex + 1) 0 =
        List.range' 0 (createScan s.gtMutex (osNumMutex + 1) 0 + 1 - 0) :=
      scanReads_eq s.gtMutex (by omega) (by omega)
    rw [← h.scan_full]
    rcases createScan_spec s.gtMutex (osNumMutex + 1) 0 (by omega) (by omega) with hfull | ⟨hlt, _⟩
    · refine iff_of_false (fun hin => ?_) (not_not.mpr hfull)
      -- the flag at the end of the table is read before the index is compared
      have hpast : osNumMutex ∈ s.mutexAccesses .mutexCreate := by
        apply List.mem_append_left
        rw [hreads, hfull]
        simp
      exact absurd (hin.mutex _ hpast) (Nat.lt_irrefl _)
    · refine iff_of_true ⟨fun i hi => ?_, by simp [deviceAccesses]⟩ (Nat.ne_of_lt hlt)
      rcases List.mem_append.mp hi with hread | hwrite
      · rw [hreads] at hread
        have hle := (List.mem_range'_1.mp hread).2
        omega
      · rw [if_neg (Nat.ne_of_lt hlt)] at hwrite
        rw [List.mem_singleton.mp hwrite]
        exact hlt
  | mutexLock mutex => exact iff_of_true ⟨fun i => hid, by simp [deviceAccesses]⟩ id
  | mutexUnlock mutex => exact iff_of_true ⟨fun i => hid, by simp [deviceAccesses]⟩ id
  | taskCreate tasks n =>
    exact iff_of_true ⟨by simp [mutexAccesses], by simp [deviceAccesses]⟩ id
  | eventWait dev =>
    constructor
    · rintro hin ⟨rfl, cur, hcur, hfree⟩
      have hpast : numDevices ∈ s.deviceAccesses (.eventWait numDevices) := by
        simp [deviceAccesses, hcur, hfree]
      exact absurd (hin.device _ hpast) (Nat.lt_irrefl _)
    · intro hend
      refine ⟨by simp [mutexAccesses], fun d hd => ?_⟩
      rw [deviceAccesses] at hd
      split_ifs at hd with hdev
      · cases hd
      split at hd
      · cases hd
      · rename_i cur hcur
        split_ifs at hd with hlock
        · cases hd
        · rw [List.mem_singleton.mp hd]
          have hne : dev ≠ numDevices := fun heq => hend ⟨heq, cur, hcur, not_not.mp hlock⟩
          exact Nat.lt_of_le_of_ne (Nat.le_of_not_lt hdev) hne

/-- What `mutex_create` returns when called in `s`. -/
def createResult (s : KState) : Int :=
  let index := createScan s.gtMutex (osNumMutex + 1) 0
  if index = osNumMutex then -eNoMem else index

theorem mutexCreate_result (s : KState) :
    s.mutexCreate.log = .returned s.curTcb .mutexCreate s.createResult :: s.log := by
  have hgt : s.disableInterrupts.gtMutex = s.gtMutex := rfl
  unfold mutexCreate createResult
  dsimp only
  rw [hgt]
  split_ifs <;> rfl

/-- Over any run: an id is returned at most once, ids are entries of the table, and
`mutex_create` fails exactly when all are out. -/
structure IdsFresh (s : KState) : Prop where
  once : (createdIds s.log).Nodup
  range : ∀ v ∈ createdIds s.log, 0 ≤ v ∧ v < osNumMutex
  full : s.createResult = -eNoMem ↔ ∀ i < osNumMutex, (i : Int) ∈ createdIds s.log
  fresh : s.createResult ≠ -eNoMem →
    s.createResult ∉ createdIds s.log ∧ 0 ≤ s.createResult ∧ s.createResult < osNumMutex

theorem HandedOut.idsFresh (h : HandedOut s) : IdsFresh s where
  once := h.once
  range := by
    intro v hv
    obtain ⟨i, hi, rfl, _⟩ := (h.flag v).mp hv
    omega
  full := by
    refine Iff.trans ?_ h.scan_full
    unfold createResult
    dsimp only
    split_ifs with hfull
    · exact iff_of_true rfl hfull
    · refine iff_of_false (fun heq => ?_) hfull
      rw [eNoMem] at heq
      omega
  fresh := by
    intro hne
    have hindex := createScan_spec s.gtMutex (osNumMutex + 1) 0 (by omega) (by omega)
    unfold createResult at hne ⊢
    dsimp only at hne ⊢
    split_ifs at hne ⊢ with hfull
    · exact absurd rfl hne
    · obtain ⟨hlt, hav⟩ := hindex.resolve_left hfull
      refine ⟨fun hm => ?_, Int.natCast_nonneg _, Int.ofNat_lt.mpr hlt⟩
      obtain ⟨j, _, hj, htaken⟩ := (h.flag _).mp hm
      rw [← Int.natCast_inj.mp hj, hav] at htaken
      cases htaken

/-- The accesses of every call stay in bounds unless it is one of the two that go past the end.
A switched-out `mutex_lock` ends within the table, and no id is handed out twice. This is said of
the source: a compiler may take it that no access goes past the end, and drop tests after one. -/
theorem syscallBounds (h : Reachable s) :
    (∀ c, InBounds s c ↔ ¬ PastEnd s c) ∧ Within (fun i => i < osNumMutex) s ∧ IdsFresh s := by
  have hout := h.handedOut
  exact ⟨hout.inBounds, fun t m hf => decide_eq_true (hout.frame t m hf), hout.idsFresh⟩

/-- A task that holds a lock may even name device `NUM_DEVICES`: it is refused first. -/
theorem syscallBounds_holder : ∃ s, Reachable s ∧ InBounds s (.eventWait numDevices) ∧
    IdsFresh s := by
  have hx : ((startSet zeroContext 1 sampleTasks 2).bind (execute anySet zeroContext
      [.call (.mutexLock 0)])).map (fun s => (s.curTcb, (s.systemTcb 1).holdsLock)) =
      some (some 1, 1) := by decide +kernel
  obtain ⟨s, hs, hv⟩ := Option.map_eq_some_iff.mp hx
  obtain ⟨hcur, hlock⟩ := Prod.mk.inj hv
  have hreach := (execute_run hs).reachable
  obtain ⟨hbounds, _, hids⟩ := syscallBounds hreach
  refine ⟨s, hreach, (hbounds _).mpr ?_, hids⟩
  rintro ⟨_, cur, hc, hfree⟩
  cases hcur.symm.trans hc
  rw [hlock] at hfree
  cases hfree

/-- Two calls go past the end: the 33rd `mutex_create` reads entry 32 of `gtMutex`, and
`event_wait(60)` reads and writes entry 60 of `devices`. -/
theorem pastEnd_accesses :
    (∃ s, Reachable s ∧ osNumMutex ∈ s.mutexAccesses .mutexCreate) ∧
    ∃ s, Reachable s ∧ numDevices ∈ s.deviceAccesses (.eventWait numDevices) := by
  constructor
  · have hx : (execute anySet zeroContext (List.replicate 32 (.call .mutexCreate)) boot).map
        (fun s => decide (osNumMutex ∈ s.mutexAccesses .mutexCreate)) = some true := by
      decide +kernel
    obtain ⟨s, hs, hv⟩ := Option.map_eq_some_iff.mp hx
    exact ⟨s, execute_steps hs, of_decide_eq_true hv⟩
  · have hx : (startSet zeroContext 0 sampleTasks 2).map (fun s =>
        decide (numDevices ∈ s.deviceAccesses (.eventWait numDevices))) = some true := by
      decide +kernel
    obtain ⟨s, hs, hv⟩ := Option.map_eq_some_iff.mp hx
    have hrun : (startSet zeroContext 0 sampleTasks 2).bind (execute anySet zeroContext []) =
        some s := by
      rw [hs]
      rfl
    exact ⟨s, (execute_run hrun).reachable, of_decide_eq_true hv⟩

end KState

end RtosKernel
