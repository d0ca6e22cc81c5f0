import RtosKernel.Scheduling.FixedPriority

namespace RtosKernel.KState

variable {s s₁ s₂ : KState} {c next last : TcbPtr} {k : Frame} {m : Nat}

theorem resume_curTcb (t : TcbPtr) (s : KState) : (s.resume t).curTcb = s.curTcb := by
  unfold resume
  split <;> rfl

theorem resume_frames (t : TcbPtr) (s : KState) : (s.resume t).frames = s.frames := by
  unfold resume
  split <;> rfl

theorem saveCur_frames (c : TcbPtr) (s : KState) : (s.saveCur c).frames = s.frames := by
  unfold saveCur
  split_ifs <;> rfl

theorem switchTo_curTcb : (s.switchTo next last k).curTcb = some next := resume_curTcb ..

theorem switchTo_frames :
    (s.switchTo next last k).frames = Function.update s.frames last k := resume_frames ..

/-- What was logged between `s` and `s₁`. -/
def news (s s₁ : KState) : List Event := s₁.log.take (s₁.log.length - s.log.length)

theorem news_eq {es : List Event} (h : s₁.log = es ++ s.log) : s.news s₁ = es := by
  unfold news
  rw [h, List.length_append, Nat.add_sub_cancel]
  exact List.take_left

/-- An event that is no return from a call. -/
def Silent (e : Event) : Prop := ∀ t call v, e ≠ .returned t call v

/-- Between `s` and `s₁` exactly the returns in `r` happened, and they came last. -/
def Replies (s : KState) (r : List Event) (s₁ : KState) : Prop :=
  ∃ l, s₁.log = r ++ (l ++ s.log) ∧ ∀ e ∈ l, Silent e

theorem Replies.of_log (h : s₁.log = s.log) : Replies s [] s₁ := ⟨[], h, by simp⟩

theorem Replies.silent {e : Event} (he : Silent e) : Replies s [] (s.emit e) :=
  ⟨[e], rfl, by simpa using he⟩

theorem Replies.ret (call : Call) (v : Int) :
    Replies s [.returned s.curTcb call v] (s.ret call v) := ⟨[], rfl, by simp⟩

/-- Silence before the returns does not matter. -/
theorem Replies.trans {r : List Event} (h : Replies s [] s₁) (h' : Replies s₁ r s₂) :
    Replies s r s₂ := by
  obtain ⟨l, hl, hs⟩ := h
  obtain ⟨l', hl', hs'⟩ := h'
  refine ⟨l' ++ l, ?_, ?_⟩
  · rw [hl', hl, List.nil_append, List.append_assoc]
  · intro e he
    exact (List.mem_append.mp he).elim (hs' e) (hs e)

theorem Replies.of_start {r : List Event} (h : Replies s r s₁) (hs : s₂.log = s.log) :
    Replies s₂ r s₁ := by
  obtain ⟨l, hl, hq⟩ := h
  exact ⟨l, by rw [hl, hs], hq⟩

theorem runqueueAdd_replies (t : TcbPtr) (p : Nat) (s : KState) :
    Replies s [] (s.runqueueAdd t p) :=
  ⟨[.runqueueAdd t p (s.rq.runList p)], rfl, by simp [Silent]⟩

theorem takeSlot_replies (p : Nat) (t : TcbPtr) (s : KState) : Replies s [] (s.takeSlot p t) :=
  ⟨[.dispatch s.rq p t], rfl, by simp [Silent]⟩

theorem saveCur_replies (last : TcbPtr) (s : KState) : Replies s [] (s.saveCur last) := by
  unfold saveCur
  split_ifs
  · exact runqueueAdd_replies ..
  · exact .of_log rfl

theorem mutexEnqueue_replies (h : s.mutexEnqueue m c = .ok s₁) : Replies s [] s₁ := by
  rcases mutexEnqueue_ok h with ⟨_, rfl⟩ | ⟨_, _, _, _, rfl⟩ <;> exact .of_log rfl

theorem devEnqueue_replies {d : Nat} (h : s.devEnqueue d c = .ok s₁) : Replies s [] s₁ := by
  rcases devEnqueue_ok h with ⟨_, rfl⟩ | ⟨_, _, _, _, rfl⟩ <;> exact .of_log rfl

theorem mutexHandOver_replies (m : Nat) (c : TcbPtr) (s : KState) :
    Replies s [] (s.mutexHandOver m c) := by
  unfold mutexHandOver
  split
  · rename_i first _
    have h : Replies s [] (s.mutexRelease m first) := ⟨[_], rfl, by simp [Silent]⟩
    exact h.trans (.of_log rfl)
  · exact .of_log rfl

theorem drain_replies {fuel : Nat} {p : Option TcbPtr} (h : drain fuel p s = .ok s₁) :
    Replies s [] s₁ := by
  induction fuel generalizing p s with
  | zero =>
    cases p with
    | none => cases h; exact .of_log rfl
    | some t => cases h
  | succ fuel ih =>
    cases p with
    | none => cases h; exact .of_log rfl
    | some t =>
      rw [drain] at h
      exact (runqueueAdd_replies ..).trans (ih h)

theorem advance_replies (i : Nat) (s : KState) : Replies s [] (s.advance i) :=
  ⟨[.signal i], rfl, by simp [Silent]⟩

theorem devWake_replies {millis : Nat} {r : KState × Bool} (h : s.devWake millis = .ok r) :
    Replies s [] r.1 := by
  refine foldlM_range_invariant (P := fun _ st => Replies s [] st.1) (.of_log rfl) ?_ h
  intro i st st' _ ha hst
  obtain ⟨a, flag⟩ := st
  rcases devSignal_ok hst with ⟨_, rfl⟩ | ⟨_, _, rfl⟩ | ⟨head, s₁, _, _, hd, rfl⟩
  · exact ha
  · exact ha.trans (advance_replies i a)
  · exact (ha.trans ((advance_replies i a).trans (drain_replies hd))).trans (.of_log rfl)

/-- The return a dispatched task makes when it continues at `k`. -/
def resumed (next : TcbPtr) : Frame → List Event
  | .launch => []
  | .mutexLock m => [.returned (some next) (.mutexLock m) 0]
  | .mutexUnlock m => [.returned (some next) (.mutexUnlock m) 0]
  | .devWait dev => [.returned (some next) (.eventWait dev) 0]
  | .devUpdate => []

theorem resume_replies (hcur : s.curTcb = some next) :
    Replies s (resumed next (s.frames next)) (s.resume next) := by
  unfold resume
  cases s.frames next with
  | launch => exact .of_log rfl
  | mutexLock m => exact ⟨[], by rw [resumed, ← hcur]; rfl, by simp⟩
  | mutexUnlock m => exact ⟨[], by rw [resumed, ← hcur]; rfl, by simp⟩
  | devWait dev => exact ⟨[], by rw [resumed, ← hcur]; rfl, by simp⟩
  | devUpdate => exact .of_log rfl

theorem switchTo_replies (s : KState) (next last : TcbPtr) (k : Frame) :
    Replies s (resumed next (if next = last then k else s.frames next))
      (s.switchTo next last k) := by
  have htake := takeSlot_replies s.rq.highestPrio next s
  refine htake.trans ?_
  have hres : Replies _ _ (s.switchTo next last k) := resume_replies rfl
  have hframe : Function.update s.frames last k next = if next = last then k else s.frames next :=
    Function.update_apply ..
  rw [← hframe]
  exact hres.of_start rfl

theorem mem_resumed {call : Call} {v : Int} {p : Option TcbPtr}
    (h : .returned p call v ∈ resumed next k) : p = some next ∧ v = 0 := by
  cases k with
  | launch => cases h
  | mutexLock m => cases List.mem_singleton.mp h; exact ⟨rfl, rfl⟩
  | mutexUnlock m => cases List.mem_singleton.mp h; exact ⟨rfl, rfl⟩
  | devWait dev => cases List.mem_singleton.mp h; exact ⟨rfl, rfl⟩
  | devUpdate => cases h

theorem installTasks_replies (tasks : Nat → Task) {n : Nat} (hn : n ≤ 62) (s : KState) :
    Replies s [] (s.installTasks tasks n) := by
  obtain ⟨l, hl, hadd⟩ := (installTasks_installed tasks n hn s).log
  refine ⟨l, hl, ?_⟩
  intro e hm t call v heq
  obtain ⟨u, p, hadd'⟩ := hadd e hm
  rw [heq] at hadd'
  cases hadd'

theorem Creates.replies {tasks : Nat → Task} {n : Nat} {regs : SchedContext}
    (hc : Creates tasks n regs s s₁) : Replies s [] s₁ := by
  obtain ⟨mem, next, s₂, _, hn, rfl, _, _, rfl⟩ := hc.fresh
  have hinst : Replies s [] ((s.interrupt regs).installTasks mem.slot n) :=
    (installTasks_replies mem.slot hn (s.interrupt regs)).of_start rfl
  exact hinst.trans ((takeSlot_replies _ next _).trans (.of_log rfl))

/-- What an entry returns, it returns to the task it found or to the task it leaves running. -/
theorem Entry.replies {op : Op} (he : Entry s op s₁) :
    ∃ r, Replies s r s₁ ∧
      ∀ p call v, .returned p call v ∈ r → p = s.curTcb ∨ p = s₁.curTcb := by
  have single (c₀ : Call) (v₀ : Int) (p : Option TcbPtr) (call : Call) (v : Int)
      (hm : Event.returned p call v ∈ [Event.returned s.curTcb c₀ v₀]) :
      p = s.curTcb ∨ p = s₁.curTcb := by
    have heq := List.mem_singleton.mp hm
    exact Or.inl (Event.returned.inj heq).1
  have switch {b : KState} {next last : TcbPtr} {k f : Frame} (p : Option TcbPtr) (call : Call)
      (v : Int) (hs : s₁ = b.switchTo next last k) (hm : .returned p call v ∈ resumed next f) :
      p = s.curTcb ∨ p = s₁.curTcb := by
    right
    rw [(mem_resumed hm).1, hs, switchTo_curTcb]
  cases he with
  | refuse call v _ => exact ⟨_, .ret call v, single call v⟩
  | create i _ _ => exact ⟨_, ⟨[], rfl, by simp⟩, single .mutexCreate i⟩
  | acquire m t _ _ _ => exact ⟨_, ⟨[], rfl, by simp⟩, single (.mutexLock m) 0⟩
  | lockBlock m t next s₂ _ _ _ _ hq _ =>
    exact ⟨_, (mutexEnqueue_replies hq).trans (switchTo_replies _ _ _ _),
      fun p call v hm => switch p call v rfl hm⟩
  | unlock m t next s₂ _ _ _ _ hs _ =>
    subst hs
    exact ⟨_,
      ((mutexHandOver_replies m t s).trans (saveCur_replies t _)).trans (switchTo_replies _ _ _ _),
      fun p call v hm => switch p call v rfl hm⟩
  | waitBlock d t next s₂ _ _ _ hq _ =>
    exact ⟨_, (devEnqueue_replies hq).trans (switchTo_replies _ _ _ _),
      fun p call v hm => switch p call v rfl hm⟩
  | newSet tasks n next mem s₂ hadm hs hp =>
    subst hs
    have hinst := installTasks_replies mem.slot (taskAdmit_le hadm) s
    have htake := takeSlot_replies (s.installTasks mem.slot n).rq.highestPrio next
      (s.installTasks mem.slot n)
    have hres : Replies _ _ (((s.installTasks mem.slot n).takeSlot
        (s.installTasks mem.slot n).rq.highestPrio next).ctxSwitchHalf next) := resume_replies rfl
    refine ⟨_, (hinst.trans htake).trans (hres.of_start rfl), fun p call v hm => Or.inr ?_⟩
    rw [(mem_resumed hm).1, ctxSwitchHalf, resume_curTcb]
    rfl
  | tick millis s₂ hw => exact ⟨_, devWake_replies hw, by simp⟩
  | wake millis t next s₂ s₃ hw _ hs _ =>
    subst hs
    exact ⟨_, ((devWake_replies hw).trans (saveCur_replies t _)).trans (switchTo_replies _ _ _ _),
      fun p call v hm => switch p call v rfl hm⟩

end RtosKernel.KState
