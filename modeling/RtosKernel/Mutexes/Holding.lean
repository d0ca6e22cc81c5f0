import RtosKernel.Queues.Simulation

namespace RtosKernel

/-- `t` holds `m`: a lock by `t` has returned 0 and no later unlock by `t` has. -/
def holds (t : TcbPtr) (m : Int) : List Event → Bool
  | [] => false
  | .returned p (.mutexLock mutex) value :: log =>
    if p = some t ∧ mutex = m ∧ value = 0 then true else holds t m log
  | .returned p (.mutexUnlock mutex) value :: log =>
    if p = some t ∧ mutex = m ∧ value = 0 then false else holds t m log
  | _ :: log => holds t m log

namespace KState

/-- `t` was switched out in the `dispatch_save` of `mutex_unlock(m)`, which has still to return. -/
def InUnlock (s : KState) (t : TcbPtr) (m : Nat) : Prop :=
  s.curTcb ≠ some t ∧ s.frames t = .mutexUnlock m

def Holds (s : KState) (t : TcbPtr) (m : Nat) : Prop := holds t m s.log = true

/-- `t` holds `m` and has not given it up. -/
def Owns (s : KState) (t : TcbPtr) (m : Nat) : Prop := s.Holds t m ∧ ¬ s.InUnlock t m

instance (s : KState) (t : TcbPtr) (m : Nat) : Decidable (s.InUnlock t m) := by
  unfold InUnlock
  infer_instance

instance (s : KState) (t : TcbPtr) (m : Nat) : Decidable (s.Holds t m) := by
  unfold Holds
  infer_instance

instance (s : KState) (t : TcbPtr) (m : Nat) : Decidable (s.Owns t m) := by
  unfold Owns
  infer_instance

variable {K : TcbPtr → Prop} {a b : Placement TcbPtr Place} {s s₁ : KState}
  {c t u next : TcbPtr} {k : Frame} {m : Nat}

theorem holds_append {l : List Event} (h : ∀ e ∈ l, Silent e) (t : TcbPtr) (m : Int)
    (log : List Event) : holds t m (l ++ log) = holds t m log := by
  induction l with
  | nil => rfl
  | cons e l ih =>
    have hrest := ih fun e' he' => h e' (by simp [he'])
    cases e with
    | returned p call v => exact absurd rfl (h _ (by simp) p call v)
    | runqueueAdd t p slot => exact hrest
    | dispatch rq p t => exact hrest
    | signal d => exact hrest

theorem Replies.holds (h : Replies s [] s₁) (t : TcbPtr) (m : Nat) :
    s₁.Holds t m ↔ s.Holds t m := by
  obtain ⟨l, hl, hs⟩ := h
  unfold KState.Holds
  rw [hl, List.nil_append, holds_append hs]

/-- A call that fails, and one on no mutex, changes no holder. -/
theorem holds_other {p : Option TcbPtr} {call : Call} {v : Int} {l : List Event} {m : Int}
    (h : v ≠ 0 ∨ call = .mutexCreate) : holds t m (.returned p call v :: l) = holds t m l := by
  cases call with
  | mutexLock i => simp [holds, h.resolve_right (by simp)]
  | mutexUnlock i => simp [holds, h.resolve_right (by simp)]
  | mutexCreate => rfl
  | eventWait d => rfl
  | taskCreate tasks n => rfl

theorem owns_ret {call : Call} {v : Int} (h : v ≠ 0 ∨ call = .mutexCreate) :
    (s.ret call v).Owns t m ↔ s.Owns t m := by
  unfold Owns Holds
  apply and_congr_left
  intro _
  rw [ret, emit, holds_other h]

/-- Nobody holds anything before the first set. -/
theorem Booted.not_holds (h : Booted s) (t : TcbPtr) (m : Nat) : ¬ s.Holds t m := by
  have hlog : ∀ l : List Event, (∀ e ∈ l, (∃ d, e = .signal d) ∨
      ∃ call v, e = .returned none call v) → holds t m l = false := by
    intro l hl
    induction l with
    | nil => rfl
    | cons e l ih =>
      have hrest := ih fun e' he' => hl e' (by simp [he'])
      rcases hl e (by simp) with ⟨d, rfl⟩ | ⟨call, v, rfl⟩
      · exact hrest
      · cases call <;> simpa [holds] using hrest
  unfold Holds
  rw [hlog s.log h.log]
  simp

/-- Only the log, the current task and the frames matter. -/
theorem Replies.owns (h : Replies s [] s₁) (hcur : s₁.curTcb = s.curTcb)
    (hfr : s₁.frames = s.frames) (t : TcbPtr) (m : Nat) : s₁.Owns t m ↔ s.Owns t m := by
  unfold Owns InUnlock
  rw [h.holds, hcur, hfr]

theorem holds_resumed (l : List Event) :
    holds t m (resumed next k ++ l) = true ↔
      (t = next ∧ k = .mutexLock m) ∨
      (holds t m l = true ∧ ¬ (t = next ∧ k = .mutexUnlock m)) := by
  cases k with
  | launch => simp [resumed]
  | devWait d => simp [resumed, holds]
  | devUpdate => simp [resumed]
  | mutexLock i =>
    change (if some next = some t ∧ (i : Int) = m ∧ (0 : Int) = 0 then true
      else holds t m l) = true ↔ _
    by_cases ht : t = next
    · by_cases hi : i = m <;> simp [ht, hi]
    · simp [ht, Ne.symm ht]
  | mutexUnlock i =>
    change (if some next = some t ∧ (i : Int) = m ∧ (0 : Int) = 0 then false
      else holds t m l) = true ↔ _
    by_cases ht : t = next
    · by_cases hi : i = m <;> simp [ht, hi]
    · simp [ht, Ne.symm ht]

/-- `mutex_lock` on a free mutex. -/
theorem owns_acquire {i : Nat} (hcur : s.curTcb = some c) :
    ((s.setMutex m fun x => { x with bLock := true }).mutexLockTail m c).Owns t i ↔
      (t = c ∧ i = m) ∨ s.Owns t i := by
  have hlog : holds t i (.returned s.curTcb (.mutexLock m) 0 :: s.log) = true ↔
      (t = c ∧ i = m) ∨ s.Holds t i := by
    rw [hcur]
    change (if some c = some t ∧ (m : Int) = i ∧ (0 : Int) = 0 then true
      else holds t i s.log) = true ↔ _
    by_cases htc : t = c
    · by_cases him : i = m
      · simp [htc, him]
      · simp [htc, him, Ne.symm him, Holds]
    · simp [htc, Ne.symm htc, Holds]
  unfold Owns
  refine (and_congr_left fun _ => hlog).trans ?_
  change _ ∧ ¬ s.InUnlock t i ↔ _
  have hnot : ¬ s.InUnlock c i := fun hb => hb.1 hcur
  constructor
  · intro hh
    exact hh.1.imp_right fun hold => ⟨hold, hh.2⟩
  · intro hh
    rcases hh with hh | hh
    · exact ⟨Or.inl hh, by rw [hh.1]; exact hnot⟩
    · exact ⟨Or.inr hh.1, hh.2⟩

theorem gtMutex_acquire {i : Nat} :
    ((s.setMutex m fun x => { x with bLock := true }).mutexLockTail m c).gtMutex i =
      if i = m then { s.gtMutex m with bLock := true, pHoldingTcb := some c }
      else s.gtMutex i := by
  change (((s.setMutex m fun x => { x with bLock := true }).setTcb c _).setMutex m
    fun x => { x with pHoldingTcb := some c }).gtMutex i = _
  rw [setMutex_apply, setTcb_gtMutex, setMutex_apply, setMutex_apply, if_pos rfl]
  by_cases him : i = m
  · rw [if_pos him, if_pos him]
  · rw [if_neg him, if_neg him, if_neg him]

/-- Where the dispatched task continues. -/
def nextFrame (s : KState) (next c : TcbPtr) (k : Frame) : Frame :=
  if next = c then k else s.frames next

/-- What a switch from `c` to `next` does to ownership. -/
theorem owns_switchTo (hcur : s.curTcb = some c) (next t : TcbPtr) (k : Frame) (m : Nat) :
    (s.switchTo next c k).Owns t m ↔
      (t = next ∧ s.nextFrame next c k = .mutexLock m) ∨
      (s.Owns t m ∧ ¬ (t = next ∧ s.nextFrame next c k = .mutexUnlock m) ∧
        ¬ (t = c ∧ k = .mutexUnlock m)) := by
  obtain ⟨l, hl, hs⟩ := switchTo_replies s next c k
  have hholds : (s.switchTo next c k).Holds t m ↔
      (t = next ∧ s.nextFrame next c k = .mutexLock m) ∨
      (s.Holds t m ∧ ¬ (t = next ∧ s.nextFrame next c k = .mutexUnlock m)) := by
    unfold Holds
    rw [hl, holds_resumed, holds_append hs]
    rfl
  unfold Owns InUnlock
  rw [hholds, switchTo_curTcb, switchTo_frames, hcur, Function.update_apply]
  unfold nextFrame
  by_cases htn : t = next
  · by_cases htc : t = c
    · subst htn
      subst htc
      by_cases hk : k = .mutexUnlock m <;> simp [hk]
    · have hct : c ≠ next := fun hb => htc (htn.trans hb.symm)
      subst htn
      by_cases hk : s.frames t = .mutexUnlock m <;> simp [hk, htc, Ne.symm htc]
  · by_cases htc : t = c
    · subst htc
      simp [htn, Ne.symm htn]
    · simp [htn, htc, Ne.symm htn, Ne.symm htc]

theorem gtMutex_resume (h : s.frames next = k) :
    ((s.resume next).gtMutex m) = if k = .mutexLock m then
      { s.gtMutex m with pHoldingTcb := some next } else s.gtMutex m := by
  unfold resume
  rw [h]
  cases k with
  | launch => rfl
  | mutexUnlock i => rfl
  | devWait d => rfl
  | devUpdate => rfl
  | mutexLock i =>
    change ((s.setTcb next _).setMutex i fun x => { x with pHoldingTcb := some next }).gtMutex m = _
    rw [setMutex_apply]
    by_cases hi : m = i
    · simp [hi]
    · have hne : (Frame.mutexLock i = .mutexLock m) = False := by simp [Ne.symm hi]
      simp only [hi, hne, if_false, setTcb_gtMutex]

theorem gtMutex_switchTo :
    (s.switchTo next c k).gtMutex m = if s.nextFrame next c k = .mutexLock m then
      { s.gtMutex m with pHoldingTcb := some next } else s.gtMutex m :=
  gtMutex_resume (Function.update_apply ..)

/-- `u` was released from the queue of `m` and has yet to run the end of `mutex_lock(m)`. -/
def HandedOver (a : Placement TcbPtr Place) (s : KState) (u : TcbPtr) (m : Nat) : Prop :=
  a.place u = .ready ∧ s.frames u = .mutexLock m

theorem handedOver_switchTo {p : Place} (hc : a.place c = .running)
    (hp : p ≠ .ready ∨ ∀ i, k ≠ .mutexLock i) (s : KState) (next u : TcbPtr) (m : Nat) :
    HandedOver ((a.move c p).move next .running) (s.switchTo next c k) u m ↔
      u ≠ next ∧ HandedOver a s u m := by
  unfold HandedOver
  rw [Placement.place_move, Placement.place_move, switchTo_frames, Function.update_apply]
  by_cases hun : u = next
  · simp [hun]
  · by_cases huc : u = c
    · subst huc
      rcases hp with hp | hp
      · simp [hun, hp, hc]
      · simp [hun, hp m, hc]
    · simp [hun, huc]

end KState

end RtosKernel
