import RtosKernel.Queues.Simulation
import RtosKernel.Scheduling.SavedContexts

namespace RtosKernel.KState

variable {s s₀ s₁ s' : KState} {t cur next : TcbPtr} {k : Frame} {n millis : Nat}
  {tasks : Nat → Task} {regs : SchedContext} {ctx : TcbPtr → SchedContext}

/-- A task of the set that has never been switched out has its context in `ctx`. -/
def Unstarted (ctx : TcbPtr → SchedContext) (n : Nat) (s : KState) : Prop :=
  ∀ t, IsTask n t → s.frames t = .launch → s.contexts t = ctx t

/-- What a switch writes: the place and the registers of the task that it leaves. -/
structure Leaves (s : KState) (last next : TcbPtr) (k : Frame) (s₁ : KState) : Prop where
  started : k ≠ .launch
  cur : s₁.curTcb = some next
  frames : s₁.frames = Function.update s.frames last k
  contexts : s₁.contexts = Function.update s.contexts last s.regs

/-- No task is switched out. -/
structure Stays (s s₁ : KState) : Prop where
  cur : s₁.curTcb = s.curTcb
  frames : s₁.frames = s.frames
  contexts : s₁.contexts = s.contexts

theorem Quiet.stays (h : Quiet s s₁) (hfr : s₁.frames = s.frames) : Stays s s₁ :=
  ⟨h.cur, hfr, h.contexts⟩

theorem Quiet.leaves (h : Quiet s s₁) (hfr : s₁.frames = s.frames) (next cur : TcbPtr)
    (hk : k ≠ .launch) : Leaves s cur next k (s₁.switchTo next cur k) where
  started := hk
  cur := switchTo_curTcb
  frames := by rw [switchTo_frames, hfr]
  contexts := (h.switchTo next cur k).contexts

theorem mutexLockTail_frames (m : Nat) (t : TcbPtr) (s : KState) :
    (s.mutexLockTail m t).frames = s.frames := rfl

theorem drain_frames {fuel : Nat} {p : Option TcbPtr} (h : drain fuel p s = .ok s₁) :
    s₁.frames = s.frames := by
  induction fuel generalizing p s with
  | zero =>
    cases p with
    | none =>
      cases h
      rfl
    | some t => cases h
  | succ fuel ih =>
    cases p with
    | none =>
      cases h
      rfl
    | some t =>
      rw [drain] at h
      exact (ih h).trans rfl

theorem devWake_frames {r : KState × Bool} (h : s.devWake millis = .ok r) :
    r.1.frames = s.frames := by
  refine foldlM_range_invariant (P := fun _ st => st.1.frames = s.frames) rfl ?_ h
  intro i st st' _ ha hst
  obtain ⟨a, flag⟩ := st
  rcases devSignal_ok hst with ⟨_, rfl⟩ | ⟨_, _, rfl⟩ | ⟨head, s₁, _, _, hd, rfl⟩
  · exact ha
  · exact ha
  · exact (drain_frames hd).trans ha

/-- A kernel entry that installs no new set writes at most one context, that of the task it leaves
inside a call. -/
theorem Entry.stays_or_leaves {op : Op} (he : Entry s op s₁)
    (hop : ∀ tasks n, op ≠ .call (.taskCreate tasks n)) :
    Stays s s₁ ∨ ∃ cur next k, Leaves s cur next k s₁ := by
  cases he with
  | refuse c v _ => exact Or.inl ((quiet_ret ..).stays rfl)
  | create i _ _ => exact Or.inl (((quiet_setMutex ..).trans (quiet_ret ..)).stays rfl)
  | acquire m cur _ _ _ =>
    exact Or.inl (((quiet_setMutex ..).trans (quiet_mutexLockTail ..)).stays
      (mutexLockTail_frames ..))
  | lockBlock m cur next s₂ _ _ _ _ hq _ =>
    exact Or.inr ⟨cur, next, _,
      (quiet_mutexEnqueue hq).leaves (mutexEnqueue_frames hq) next cur (by simp)⟩
  | unlock m cur next s₂ _ _ _ _ hs _ =>
    subst hs
    have hq := (quiet_mutexHandOver s m cur).trans (quiet_saveCur _ cur)
    have hfr := (saveCur_frames cur (s.mutexHandOver m cur)).trans (mutexHandOver_frames m cur s)
    exact Or.inr ⟨cur, next, _, hq.leaves hfr next cur (by simp)⟩
  | waitBlock d cur next s₂ _ _ _ hq _ =>
    exact Or.inr ⟨cur, next, _,
      (quiet_devEnqueue hq).leaves (devEnqueue_frames hq) next cur (by simp)⟩
  | newSet tasks n next mem s₂ _ _ _ => exact absurd rfl (hop tasks n)
  | tick millis s₂ hw => exact Or.inl ((quiet_devWake hw).stays (devWake_frames hw))
  | wake millis cur next s₂ s₃ hw _ hs _ =>
    subst hs
    have hq := (quiet_devWake hw).trans (quiet_saveCur _ cur)
    have hfr := (saveCur_frames cur s₂).trans (devWake_frames hw)
    exact Or.inr ⟨cur, next, _, hq.leaves hfr next cur (by simp)⟩

theorem Unstarted.stays (h : Unstarted ctx n s) (hs : Stays s s₁) : Unstarted ctx n s₁ := by
  intro t ht hfr
  rw [hs.frames] at hfr
  rw [hs.contexts]
  exact h t ht hfr

theorem Unstarted.leaves (h : Unstarted ctx n s) (hl : Leaves s cur next k s₁) :
    Unstarted ctx n s₁ := by
  intro t ht hfr
  rw [hl.frames, Function.update_apply] at hfr
  rw [hl.contexts, Function.update_apply]
  split_ifs at hfr ⊢ with htc
  · exact absurd hfr hl.started
  · exact h t ht hfr

theorem Unstarted.step (h : Unstarted ctx n s) (hcur : s.curTcb ≠ none)
    (hs : Step sameSet s s') : Unstarted ctx n s' ∧ s'.curTcb ≠ none := by
  obtain ⟨regs, op, s₁, hok, -, he, rfl⟩ := hs.entry hcur
  have hop (tasks : Nat → Task) (n : Nat) : op ≠ .call (.taskCreate tasks n) := by
    rintro rfl
    exact hok
  have h₀ : Unstarted ctx n (s.interrupt regs) := h
  rcases he.stays_or_leaves hop with hst | ⟨cur, next, k, hl⟩
  · refine ⟨(h₀.stays hst : Unstarted ctx n s₁), ?_⟩
    have hsame : s₁.enableInterrupts.curTcb = s.curTcb := hst.cur
    rwa [hsame]
  · refine ⟨(h₀.leaves hl : Unstarted ctx n s₁), ?_⟩
    have hnext : s₁.enableInterrupts.curTcb = some next := hl.cur
    rw [hnext]
    simp

/-- After a successful `task_create`, from any state, every task has the context that
`allocate_tasks` gives it. -/
theorem Creates.unstarted (hc : Creates tasks n regs s₀ s) :
    ∃ mem, taskAdmit n ⟨tasks, [], []⟩ = .ok (mem, none) ∧
      Unstarted (s₀.allocated mem.slot n) n s ∧ s.curTcb ≠ none := by
  obtain ⟨mem, next, s₁, hadm, hn, rfl, -, -, rfl⟩ := hc.fresh
  have hi := installTasks_installed mem.slot n hn (s₀.interrupt regs)
  refine ⟨mem, hadm, fun t ht _ => ?_, Option.some_ne_none _⟩
  refine (congrArg Tcb.context (hi.tcb t)).trans ?_
  rw [if_pos ht]
  rfl

/-- In every run of a task set, whatever state it was created in, a task that has never been
switched out has the context that `allocate_tasks` has given it. -/
theorem unstarted_run (hc : Creates tasks n regs s₀ s₁)
    (hrun : Relation.ReflTransGen (Step sameSet) s₁ s) :
    ∃ mem, taskAdmit n ⟨tasks, [], []⟩ = .ok (mem, none) ∧
      Unstarted (s₀.allocated mem.slot n) n s := by
  obtain ⟨mem, hadm, h, hcur⟩ := hc.unstarted
  have hall : Unstarted (s₀.allocated mem.slot n) n s ∧ s.curTcb ≠ none := by
    induction hrun with
    | refl => exact ⟨h, hcur⟩
    | tail _ hs ih => exact ih.1.step ih.2 hs
  exact ⟨mem, hadm, hall.1⟩

end RtosKernel.KState
