import RtosKernel.Mutexes.Exclusion
import RtosKernel.Scheduling.Reachable
import RtosKernel.TaskSets.Clean

namespace RtosKernel.KState

/-- No `mutex_lock` has succeeded so far, in this task set or an earlier one. -/
def NeverLocked (s : KState) : Prop := ∀ t mutex, .returned t (.mutexLock mutex) 0 ∉ s.log

/-- Some mutex records an owner. It may be free: `mutex_unlock` does not clear the record. -/
def HasOwner (s : KState) : Prop := ∃ m < osNumMutex, (s.gtMutex m).pHoldingTcb ≠ none

/-- No mutex was ever locked, and no task is inside `mutex_lock`. -/
structure Untouched (s : KState) : Prop where
  reset : LocksReset s
  frame : ∀ t m, s.frames t ≠ .mutexLock m
  never : NeverLocked s

/-- What the mutexes look like tells whether one was ever locked. -/
def LocksTell (s : KState) : Prop := Untouched s ∨ HasOwner s ∧ ¬ NeverLocked s

variable {ok : KState → Op → Prop} {regs : SchedContext} {s s₁ s' : KState} {op : Op}
  {c next : TcbPtr} {k : Frame} {n m : Nat}

theorem LocksTell.iff (h : LocksTell s) : LocksReset s ↔ NeverLocked s := by
  rcases h with h | ⟨⟨m, hm, hown⟩, hlocked⟩
  · exact ⟨fun _ => h.never, fun _ => h.reset⟩
  · exact ⟨fun hr => absurd (hr m hm).2.1 hown, fun hn => absurd hn hlocked⟩

theorem Replies.never {r : List Event} (h : Replies s r s₁)
    (hr : ∀ t mutex, .returned t (.mutexLock mutex) 0 ∉ r) (hn : NeverLocked s) :
    NeverLocked s₁ := by
  obtain ⟨l, hl, hs⟩ := h
  intro t mutex hm
  rw [hl, List.mem_append, List.mem_append] at hm
  rcases hm with hm | hm | hm
  · exact hr t mutex hm
  · exact hs _ hm _ _ _ rfl
  · exact hn t mutex hm

/-- The log only grows. -/
theorem Replies.locked {r : List Event} (h : Replies s r s₁) (hn : ¬ NeverLocked s) :
    ¬ NeverLocked s₁ := by
  obtain ⟨l, hl, _⟩ := h
  intro hnever
  refine hn fun t mutex hm => hnever t mutex ?_
  rw [hl]
  exact List.mem_append_right _ (List.mem_append_right _ hm)

namespace Untouched

theorem silent (h : Untouched s) (hr : Replies s [] s₁) (hgt : s₁.gtMutex = s.gtMutex)
    (hfr : s₁.frames = s.frames) : Untouched s₁ where
  reset := by
    unfold LocksReset
    rw [hgt]
    exact h.reset
  frame := by
    rw [hfr]
    exact h.frame
  never := hr.never (by simp) h.never

/-- A task that continues outside `mutex_lock` returns from no `mutex_lock`. -/
theorem switchTo (h : Untouched s) (hk : ∀ i, k ≠ .mutexLock i) :
    Untouched (s.switchTo next c k) := by
  have hnext (i : Nat) : s.nextFrame next c k ≠ .mutexLock i := by
    unfold nextFrame
    split_ifs
    · exact hk i
    · exact h.frame next i
  refine { reset := fun m hm => ?_, frame := fun t m => ?_, never := ?_ }
  · rw [gtMutex_switchTo, if_neg (hnext m)]
    exact h.reset m hm
  · rw [switchTo_frames, Function.update_apply]
    split_ifs
    · exact hk m
    · exact h.frame t m
  · apply (switchTo_replies s next c k).never _ h.never
    intro t mutex hm
    change _ ∈ resumed next (s.nextFrame next c k) at hm
    cases hf : s.nextFrame next c k with
    | launch => rw [hf] at hm; cases hm
    | mutexLock i => exact hnext i hf
    | mutexUnlock i => rw [hf] at hm; cases List.mem_singleton.mp hm
    | devWait d => rw [hf] at hm; cases List.mem_singleton.mp hm
    | devUpdate => rw [hf] at hm; cases hm

end Untouched

theorem HasOwner.congr (h : HasOwner s)
    (hgt : ∀ m, (s₁.gtMutex m).pHoldingTcb = (s.gtMutex m).pHoldingTcb) : HasOwner s₁ := by
  obtain ⟨m, hm, hown⟩ := h
  exact ⟨m, hm, by rw [hgt]; exact hown⟩

theorem HasOwner.switchTo (h : HasOwner s) (next c : TcbPtr) (k : Frame) :
    HasOwner (s.switchTo next c k) := by
  obtain ⟨m, hm, hown⟩ := h
  refine ⟨m, hm, ?_⟩
  rw [gtMutex_switchTo]
  split_ifs
  · simp
  · exact hown

theorem hasOwner_acquire (hm : m < osNumMutex) :
    HasOwner ((s.setMutex m fun x => { x with bLock := true }).mutexLockTail m c) := by
  refine ⟨m, hm, ?_⟩
  rw [gtMutex_acquire, if_pos rfl]
  simp

theorem mutexHandOver_owner (m : Nat) (c : TcbPtr) (s : KState) (i : Nat) :
    ((s.mutexHandOver m c).gtMutex i).pHoldingTcb = (s.gtMutex i).pHoldingTcb := by
  rw [gtMutex_mutexHandOver]
  split_ifs with hi
  · subst hi
    cases (s.gtMutex i).pSleepQueue <;> rfl
  · rfl

/-- The entry that starts a set touches no mutex; its first task starts in `launch_task`. -/
theorem startNext (tasks : Nat → Task) (hn : n ≤ 62) (hp : (s.installTasks tasks n).Picks next)
    (hs : s₁ = ((s.installTasks tasks n).takeSlot (s.installTasks tasks n).rq.highestPrio
      next).ctxSwitchHalf next) :
    s₁.gtMutex = s.gtMutex ∧ s₁.frames = (s.installTasks tasks n).frames ∧ Replies s [] s₁ := by
  have hi := installTasks_installed tasks n hn s
  have ht : IsTask n next := ((hi.slot _ _).mp hp.slot).2
  have hframe : ((s.installTasks tasks n).takeSlot (s.installTasks tasks n).rq.highestPrio
      next).frames next = .launch := (hi.frame next).trans (if_pos ht)
  rw [ctxSwitchHalf_launch hframe] at hs
  subst hs
  refine ⟨hi.mutex, rfl, ?_⟩
  exact (installTasks_replies tasks hn s).trans ((takeSlot_replies _ next _).trans (.of_log rfl))

/-- An owner on record stays on record: nothing writes NULL there after `mutex_init`. -/
theorem Entry.hasOwner (he : Entry s op s₁) (h : HasOwner s) : HasOwner s₁ := by
  cases he with
  | refuse call v _ => exact h
  | create i _ _ =>
    apply h.congr
    intro m
    change ((s.setMutex i fun x => { x with bAvailable := false }).gtMutex m).pHoldingTcb = _
    rw [setMutex_apply]
    split_ifs with hi
    · rw [hi]
    · rfl
  | acquire i t hi _ _ => exact hasOwner_acquire hi
  | lockBlock i t next s₂ _ _ hlock _ hq _ =>
    have hwait : HasOwner s₂ := h.congr fun m => (mutexEnqueue_lock hq hlock m).2.1
    exact hwait.switchTo next t _
  | unlock i t next s₂ _ _ _ _ hs _ =>
    have hover : HasOwner (s.mutexHandOver i t) := h.congr (mutexHandOver_owner i t s)
    have hsave : HasOwner s₂ := by
      rw [hs]
      exact hover.congr fun m => by rw [saveCur_gtMutex]
    exact hsave.switchTo next t _
  | waitBlock d t next s₂ _ _ _ hq _ =>
    have hwait : HasOwner s₂ := h.congr fun m => by rw [devEnqueue_gtMutex hq]
    exact hwait.switchTo next t _
  | newSet tasks n next mem s₂ hadm hs hp =>
    subst hs
    obtain ⟨hgt, _, _⟩ := startNext mem.slot (taskAdmit_le hadm) hp rfl
    exact h.congr fun m => by rw [hgt]
  | tick millis s₂ hw => exact h.congr fun m => by rw [(devWake_frame hw).2.2.1]
  | wake millis t next s₂ s₃ hw _ hs _ =>
    have hwake : HasOwner s₂ := h.congr fun m => by rw [(devWake_frame hw).2.2.1]
    have hsave : HasOwner s₃ := by
      rw [hs]
      exact hwake.congr fun m => by rw [saveCur_gtMutex]
    exact hsave.switchTo next t _

/-- A return that is no success of `mutex_lock` changes nothing in this. -/
theorem LocksTell.ret (h : LocksTell s) {call : Call} {v : Int}
    (hv : ∀ mutex, call = .mutexLock mutex → v ≠ 0) : LocksTell (s.ret call v) := by
  rcases h with h | ⟨hown, hlocked⟩
  · have hnever : NeverLocked (s.ret call v) := by
      apply (Replies.ret call v).never _ h.never
      intro t mutex hm
      obtain ⟨_, hcall, hzero⟩ := Event.returned.inj (List.mem_singleton.mp hm)
      exact hv mutex hcall.symm hzero.symm
    exact Or.inl { h with never := hnever }
  · exact Or.inr ⟨hown, (Replies.ret call v).locked hlocked⟩

/-- Of all entries only a `mutex_lock` that succeeds touches the mutexes. -/
theorem Untouched.entry (h : Untouched s) (he : Entry s op s₁) : LocksTell s₁ := by
  cases he with
  | refuse call v hv => exact (show LocksTell s from Or.inl h).ret fun _ _ => by omega
  | create i hi _ =>
    have hreset : LocksReset (s.setMutex i fun x => { x with bAvailable := false }) := by
      intro m hm
      rw [setMutex_apply]
      split_ifs with him
      · subst him
        exact h.reset m hm
      · exact h.reset m hm
    have hnever : NeverLocked ((s.setMutex i fun x =>
        { x with bAvailable := false }).ret .mutexCreate i) := by
      apply (Replies.ret .mutexCreate i).never _ h.never
      intro t mutex hm
      cases List.mem_singleton.mp hm
    exact Or.inl { reset := hreset, frame := h.frame, never := hnever }
  | acquire i t hi hcur _ =>
    refine Or.inr ⟨hasOwner_acquire hi, fun hn => ?_⟩
    exact hn s.curTcb i (List.mem_cons_self ..)
  | lockBlock i t next s₂ hi _ hlock _ _ _ =>
    rw [(h.reset i hi).1] at hlock
    cases hlock
  | unlock i t next s₂ hi _ _ hown _ _ =>
    rw [(h.reset i hi).2.1] at hown
    cases hown
  | waitBlock d t next s₂ _ _ _ hq _ =>
    have hfr : s₂.frames = s.frames := by
      rcases devEnqueue_ok hq with ⟨_, rfl⟩ | ⟨_, _, _, _, rfl⟩ <;> rfl
    have hwait := h.silent (devEnqueue_replies hq) (devEnqueue_gtMutex hq) hfr
    exact Or.inl (hwait.switchTo (by simp))
  | newSet tasks n next mem s₂ hadm hs hp =>
    subst hs
    have hn := taskAdmit_le hadm
    obtain ⟨hgt, hfr, hr⟩ := startNext mem.slot hn hp rfl
    have hi := installTasks_installed mem.slot n hn s
    refine Or.inl { reset := ?_, frame := fun t m => ?_, never := hr.never (by simp) h.never }
    · unfold LocksReset
      rw [hgt]
      exact h.reset
    · rw [hfr, hi.frame]
      split_ifs
      · simp
      · exact h.frame t m
  | tick millis s₂ hw =>
    obtain ⟨_, _, hgt, hfr⟩ := devWake_frame hw
    exact Or.inl (h.silent (devWake_replies hw) hgt hfr)
  | wake millis t next s₂ s₃ hw _ hs _ =>
    obtain ⟨_, _, hgt, hfr⟩ := devWake_frame hw
    have hwake := h.silent (devWake_replies hw) hgt hfr
    have hsave : Untouched s₃ := by
      rw [hs]
      exact hwake.silent (saveCur_replies t s₂) (saveCur_gtMutex t s₂) (saveCur_frames t s₂)
    exact Or.inl (hsave.switchTo (by simp))

theorem LocksTell.entry (h : LocksTell s) (he : Entry s op s₁) : LocksTell s₁ := by
  rcases h with h | ⟨hown, hlocked⟩
  · exact h.entry he
  · obtain ⟨r, hr, _⟩ := he.replies
    exact Or.inr ⟨he.hasOwner hown, hr.locked hlocked⟩

theorem locksTell_boot : LocksTell boot :=
  Or.inl
    { reset := fun m _ => boot_booted.mutex m
      frame := fun _ _ => by simp [boot, mutexInit, bss]
      never := by simp [NeverLocked, boot, mutexInit, bss] }

theorem ReachableBy.locksTell (h : ReachableBy ok s) : LocksTell s := by
  refine h.induct locksTell_boot (fun a regs op b ha he => ?_) fun a regs c v ha _ hc => ?_
  · have hi : LocksTell (a.interrupt regs) := ha.imp (fun hu => { hu with }) id
    exact (hi.entry he).imp (fun hu => { hu with }) id
  · have ht : LocksTell (a.trap regs) := ha.imp (fun hu => { hu with }) id
    have hret : LocksTell ((a.trap regs).ret c v) := by
      apply ht.ret
      rintro mutex rfl
      exact Int.ne_of_lt hc
    exact hret.imp (fun hu => { hu with }) id

end RtosKernel.KState
