import RtosKernel.Kernel.Clock
import RtosKernel.Scheduling.FixedPriority

namespace RtosKernel

/-- Whether `e` is a signal of device `i`. -/
def Event.isSignal (i : Nat) : Event → Bool
  | .signal d => d == i
  | _ => false

namespace KState

/-- How often device `i` has been signalled. -/
def signals (i : Nat) (s : KState) : Nat := s.log.countP (Event.isSignal i)

/-- Neither the match value and the signals of device `i` nor the clock has changed. -/
structure SameClock (i : Nat) (s s₁ : KState) : Prop where
  nextMatch : (s₁.devices i).nextMatch = (s.devices i).nextMatch
  signals : s₁.signals i = s.signals i
  systemTime : s₁.systemTime = s.systemTime
  timeDrift : s₁.timeDrift = s.timeDrift

variable {i d : Nat} {s s₁ s₂ : KState} {c next last : TcbPtr} {k : Frame}

namespace SameClock

theorem refl (i : Nat) (s : KState) : SameClock i s s := ⟨rfl, rfl, rfl, rfl⟩

theorem trans (h : SameClock i s s₁) (h' : SameClock i s₁ s₂) : SameClock i s s₂ where
  nextMatch := h'.nextMatch.trans h.nextMatch
  signals := h'.signals.trans h.signals
  systemTime := h'.systemTime.trans h.systemTime
  timeDrift := h'.timeDrift.trans h.timeDrift

/-- A step that starts from other fields of `s` only. -/
theorem after (h : SameClock i s₁ s₂) (hd : s₁.devices = s.devices) (hl : s₁.log = s.log)
    (ht : s₁.systemTime = s.systemTime) (hr : s₁.timeDrift = s.timeDrift) :
    SameClock i s s₂ where
  nextMatch := by rw [h.nextMatch, hd]
  signals := by
    rw [h.signals]
    unfold KState.signals
    rw [hl]
  systemTime := h.systemTime.trans ht
  timeDrift := h.timeDrift.trans hr

theorem emit {e : Event} (he : e.isSignal i = false) (s : KState) : SameClock i s (s.emit e) where
  nextMatch := rfl
  signals := by
    change (e :: s.log).countP _ = s.log.countP _
    rw [List.countP_cons, he]
    rfl
  systemTime := rfl
  timeDrift := rfl

theorem setDev {f : Dev → Dev} (hf : (f (s.devices d)).nextMatch = (s.devices d).nextMatch) :
    SameClock i s (s.setDev d f) where
  nextMatch := by
    rw [setDev_apply]
    split_ifs with hi
    · rw [hi]
      exact hf
    · rfl
  signals := rfl
  systemTime := rfl
  timeDrift := rfl

theorem runqueueAdd (t : TcbPtr) (p : Nat) (s : KState) : SameClock i s (s.runqueueAdd t p) where
  __ := emit (show Event.isSignal i (.runqueueAdd t p (s.rq.runList p)) = false from rfl) s

theorem takeSlot (p : Nat) (t : TcbPtr) (s : KState) : SameClock i s (s.takeSlot p t) where
  __ := emit (show Event.isSignal i (.dispatch s.rq p t) = false from rfl) s

theorem ret (call : Call) (v : Int) (s : KState) : SameClock i s (s.ret call v) :=
  emit rfl s

theorem mutexLockTail (m : Nat) (t : TcbPtr) (s : KState) :
    SameClock i s (s.mutexLockTail m t) where
  __ := ret (.mutexLock m) 0 s

theorem resume (t : TcbPtr) (s : KState) : SameClock i s (s.resume t) := by
  unfold KState.resume
  split
  · exact ⟨rfl, rfl, rfl, rfl⟩
  · exact mutexLockTail _ t s
  · exact (ret _ _ s.enableInterrupts).after rfl rfl rfl rfl
  · exact (ret _ _ s.enableInterrupts).after rfl rfl rfl rfl
  · exact ⟨rfl, rfl, rfl, rfl⟩

theorem switchTo (next last : TcbPtr) (k : Frame) (s : KState) :
    SameClock i s (s.switchTo next last k) := by
  have hres : SameClock i _ (s.switchTo next last k) := resume next _
  exact (takeSlot s.rq.highestPrio next s).trans (hres.after rfl rfl rfl rfl)

theorem saveCur (last : TcbPtr) (s : KState) : SameClock i s (s.saveCur last) := by
  unfold KState.saveCur
  split_ifs
  · exact runqueueAdd ..
  · exact refl i s

theorem mutexEnqueue {m : Nat} (h : s.mutexEnqueue m c = .ok s₁) : SameClock i s s₁ := by
  rcases mutexEnqueue_ok h with ⟨_, rfl⟩ | ⟨_, _, _, _, rfl⟩ <;>
    exact ⟨rfl, rfl, rfl, rfl⟩

theorem devEnqueue (h : s.devEnqueue d c = .ok s₁) : SameClock i s s₁ := by
  rcases devEnqueue_ok h with ⟨_, rfl⟩ | ⟨_, _, _, _, rfl⟩
  · have hdev : SameClock i s (s.setDev d fun x => { x with sleepQ := some c }) := setDev rfl
    exact hdev.trans ⟨rfl, rfl, rfl, rfl⟩
  · exact ⟨rfl, rfl, rfl, rfl⟩

theorem mutexHandOver (m : Nat) (t : TcbPtr) (s : KState) :
    SameClock i s (s.mutexHandOver m t) := by
  unfold KState.mutexHandOver
  split
  · rename_i first _
    have hadd : SameClock i _ (s.mutexRelease m first) := runqueueAdd first _ _
    have hrel : SameClock i s (s.mutexRelease m first) := hadd.after rfl rfl rfl rfl
    exact hrel.trans ⟨rfl, rfl, rfl, rfl⟩
  · exact ⟨rfl, rfl, rfl, rfl⟩

theorem drain {fuel : Nat} {p : Option TcbPtr} (h : KState.drain fuel p s = .ok s₁) :
    SameClock i s s₁ := by
  induction fuel generalizing p s with
  | zero =>
    cases p with
    | none => cases h; exact refl i _
    | some t => cases h
  | succ fuel ih =>
    cases p with
    | none => cases h; exact refl i _
    | some t =>
      rw [KState.drain] at h
      exact (runqueueAdd ..).trans (ih h)

end SameClock

/-- Device `i` is signalled, and nothing else happens to it or to the clock. -/
structure Signalled (i : Nat) (s s₁ : KState) : Prop where
  nextMatch : (s₁.devices i).nextMatch = ((s.devices i).nextMatch + devFreq i) % 2 ^ 32
  signals : s₁.signals i = s.signals i + 1
  systemTime : s₁.systemTime = s.systemTime
  timeDrift : s₁.timeDrift = s.timeDrift

theorem Signalled.trans (h : Signalled i s s₁) (h' : SameClock i s₁ s₂) : Signalled i s s₂ where
  nextMatch := h'.nextMatch.trans h.nextMatch
  signals := h'.signals.trans h.signals
  systemTime := h'.systemTime.trans h.systemTime
  timeDrift := h'.timeDrift.trans h.timeDrift

theorem advance_signalled (i : Nat) (s : KState) : Signalled i s (s.advance i) where
  nextMatch := by
    change ((s.setDev i fun x =>
      { x with nextMatch := (x.nextMatch + devFreq i) % 2 ^ 32 }).devices i).nextMatch = _
    rw [setDev_apply, if_pos rfl]
  signals := by
    change (Event.signal i :: s.log).countP _ = s.log.countP _ + 1
    rw [List.countP_cons]
    simp [Event.isSignal]
  systemTime := rfl
  timeDrift := rfl

theorem advance_sameClock (h : d ≠ i) (s : KState) : SameClock i s (s.advance d) where
  nextMatch := by
    change ((s.setDev d fun x =>
      { x with nextMatch := (x.nextMatch + devFreq d) % 2 ^ 32 }).devices i).nextMatch = _
    rw [setDev_apply, if_neg (Ne.symm h)]
  signals := by
    change (Event.signal d :: s.log).countP _ = s.log.countP _
    rw [List.countP_cons]
    simp [Event.isSignal, h]
  systemTime := rfl
  timeDrift := rfl

/-- One round of the loop signals the device whose turn it is, if it is due. -/
theorem devSignal_signals {millis : Nat} {flag : Bool} {r : KState × Bool}
    (h : devSignal millis (s, flag) d = .ok r) :
    if d = i ∧ (s.devices i).nextMatch ≤ millis then Signalled i s r.1 else SameClock i s r.1 := by
  have hclear (s₁ : KState) : SameClock i s₁ (s₁.setDev d fun x => { x with sleepQ := none }) :=
    .setDev rfl
  rcases devSignal_ok h with ⟨hlt, rfl⟩ | ⟨hle, _, rfl⟩ | ⟨head, s₁, hle, _, hd, rfl⟩
  · rw [if_neg]
    · exact .refl i s
    · intro hb
      rw [hb.1] at hlt
      omega
  · by_cases hdi : d = i
    · rw [if_pos ⟨hdi, hdi ▸ hle⟩, hdi]
      exact advance_signalled i s
    · rw [if_neg fun hb => hdi hb.1]
      exact advance_sameClock hdi s
  · by_cases hdi : d = i
    · rw [if_pos ⟨hdi, hdi ▸ hle⟩]
      have hadv : Signalled i s (s.advance d) := by
        rw [hdi]
        exact advance_signalled i s
      exact (hadv.trans (.drain hd)).trans (hclear s₁)
    · rw [if_neg fun hb => hdi hb.1]
      exact ((advance_sameClock hdi s).trans (.drain hd)).trans (hclear s₁)

/-- The loop signals device `i` once if it is due. -/
theorem devWake_signals {millis : Nat} {r : KState × Bool} (hi : i < numDevices)
    (h : s.devWake millis = .ok r) :
    if (s.devices i).nextMatch ≤ millis then Signalled i s r.1 else SameClock i s r.1 := by
  have hinv := foldlM_range_invariant (P := fun k st =>
    if i < k ∧ (s.devices i).nextMatch ≤ millis then Signalled i s st.1 else SameClock i s st.1)
    (by rw [if_neg (by omega)]; exact .refl i s) ?_ h
  · simpa only [hi, true_and] using hinv
  · intro k st st' _ hst hstep
    have hround := devSignal_signals (i := i) hstep
    by_cases hki : k = i
    · -- before its own round nothing has happened to the device
      rw [if_neg (by omega)] at hst
      rw [hst.nextMatch] at hround
      by_cases hdue : (s.devices i).nextMatch ≤ millis
      · rw [if_pos ⟨hki, hdue⟩] at hround
        rw [if_pos ⟨by omega, hdue⟩]
        exact
          { nextMatch := by rw [hround.nextMatch, hst.nextMatch]
            signals := by rw [hround.signals, hst.signals]
            systemTime := hround.systemTime.trans hst.systemTime
            timeDrift := hround.timeDrift.trans hst.timeDrift }
      · rw [if_neg fun hb => hdue hb.2] at hround
        rw [if_neg fun hb => hdue hb.2]
        exact hst.trans hround
    · rw [if_neg fun hb => hki hb.1] at hround
      by_cases hik : i < k ∧ (s.devices i).nextMatch ≤ millis
      · rw [if_pos hik] at hst
        rw [if_pos ⟨by omega, hik.2⟩]
        exact hst.trans hround
      · rw [if_neg hik] at hst
        rw [if_neg (by omega)]
        exact hst.trans hround

/-- A system call that starts no new set signals nothing. -/
theorem Entry.sameClock {call : Call} (he : Entry s (.call call) s₁)
    (hop : ∀ tasks n, call ≠ .taskCreate tasks n) : SameClock i s s₁ := by
  cases he with
  | refuse _ v _ => exact .ret call v s
  | create m _ _ => exact (SameClock.ret .mutexCreate m _).after rfl rfl rfl rfl
  | acquire m t _ _ _ => exact (SameClock.mutexLockTail m t _).after rfl rfl rfl rfl
  | lockBlock m t next s₂ _ _ _ _ hq _ => exact (SameClock.mutexEnqueue hq).trans (.switchTo ..)
  | unlock m t next s₂ _ _ _ _ hs _ =>
    subst hs
    exact ((SameClock.mutexHandOver m t s).trans (.saveCur ..)).trans (.switchTo ..)
  | waitBlock d t next s₂ _ _ _ hq _ => exact (SameClock.devEnqueue hq).trans (.switchTo ..)
  | newSet tasks n => exact absurd rfl (hop tasks n)

/-- A timer interrupt signals device `i` exactly if its match value is reached. -/
theorem Entry.signals {millis : Nat} (he : Entry s (.timer millis) s₁) (hi : i < numDevices) :
    if (s.devices i).nextMatch ≤ millis then Signalled i s s₁ else SameClock i s s₁ := by
  cases he with
  | tick _ _ hw => exact devWake_signals hi hw
  | wake _ t next s₂ s₃ hw _ hs _ =>
    subst hs
    have hwake := devWake_signals hi hw
    have hswitch : SameClock i s₂ ((s₂.saveCur t).switchTo next t .devUpdate) :=
      (SameClock.saveCur ..).trans (.switchTo ..)
    split_ifs at hwake ⊢
    · exact hwake.trans hswitch
    · exact hwake.trans hswitch

end KState

end RtosKernel
