import RtosKernel.Clock.MatchAhead
import RtosKernel.Queues.Wakeup

namespace RtosKernel.KState

variable {tasks : Nat → Task} {n i : Nat} {regs : SchedContext} {s s' s₀ w : KState}
  {us vs : List Update} {t : TcbPtr}

theorem UpdateRun.run (hr : Run sameSet n s₀) (h : UpdateRun i s₀ us s) : Run sameSet n s := by
  induction h with
  | start => exact hr
  | call _ regs c hok hcur hst ih => exact .step ih (.call regs c hok hcur hst)
  | update _ regs millis hst ih => exact .step ih (.timer regs millis trivial hst)

/-- However far the clock jumps, the match value is at most one period past the last update. -/
theorem UpdateRun.nextMatch_le (hi : i < numDevices) (hcur : s₀.curTcb ≠ none)
    (h0 : (s₀.devices i).nextMatch ≤ devFreq i) (h : UpdateRun i s₀ us s)
    (hmono : (us.map Update.millis).Pairwise (· ≥ ·)) :
    s.curTcb ≠ none ∧ (s.devices i).nextMatch ≤ lastMillis us + devFreq i := by
  induction h with
  | start => exact ⟨hcur, h0.trans (Nat.le_add_left ..)⟩
  | call _ regs c hok hidle hst ih =>
    obtain ⟨hknown, hle⟩ := ih hmono
    obtain ⟨s₁, he, rfl⟩ := step_entry hst fun hn => absurd hn hknown
    have hset : ∀ tasks n, c ≠ .taskCreate tasks n := by
      rintro tasks n rfl
      exact hok
    exact ⟨he.known hknown, (he.sameClock hset).nextMatch.trans_le hle⟩
  | @update us s s' _ regs millis hst ih =>
    rw [List.map_cons, List.pairwise_cons] at hmono
    obtain ⟨hknown, hle⟩ := ih hmono.2
    obtain ⟨hmatch, _, hkeep⟩ := step_timer_match hst hi
    have hlast : lastMillis us ≤ millis := by
      cases us with
      | nil => exact Nat.zero_le _
      | cons u us => exact hmono.1 u.millis (by simp)
    refine ⟨hkeep hknown, ?_⟩
    show _ ≤ millis + devFreq i
    rw [hmatch]
    split_ifs with hdue
    · exact (Nat.mod_le ..).trans (Nat.add_le_add_right hdue _)
    · exact hle.trans (Nat.add_le_add_right hlast _)

/-- On the way from `s` to `s'`, with the updates `vs`, `t` has been woken by the first update at
or after `due`. -/
def WokenAt (i due : Nat) (t : TcbPtr) (s : KState) (vs : List Update) (s' : KState) : Prop :=
  ∃ rest v ws w, vs = rest ++ v :: ws ∧ UpdateRun i s (v :: ws) w ∧ UpdateRun i w rest s' ∧
    due ≤ v.millis ∧ (∀ u ∈ ws, u.millis < due) ∧ w.Awake t

/-- As long as no update is due the sleeper sleeps and the match value stays. -/
structure StillAsleep (i : Nat) (t : TcbPtr) (s : KState) (vs : List Update) (s' : KState) :
    Prop where
  asleep : s'.Asleep t i
  silent : NoReturn t s s'
  nextMatch : (s'.devices i).nextMatch = (s.devices i).nextMatch
  early : ∀ v ∈ vs, v.millis < (s.devices i).nextMatch

theorem UpdateRun.asleep_or_woken (hr : Run sameSet n s) (ht : s.Asleep t i)
    (h : UpdateRun i s vs s') :
    StillAsleep i t s vs s' ∨ WokenAt i (s.devices i).nextMatch t s vs s' := by
  induction h with
  | start => exact Or.inl ⟨ht, ⟨[], rfl, by simp⟩, rfl, by simp⟩
  | @call vs s₁ s₂ hrun regs c hok hidle hst ih =>
    have hstep : WakesOnlyDue regs s₁ (.call c) s₂ := by
      obtain ⟨a, cur, hs, hl⟩ := (hrun.run hr).located
      exact hl.wakesOnlyDue hs hok (fun _ _ => hidle) hst
    rcases ih with hsl | ⟨rest, v, ws, w, hvs, hw, hrest, hdue, hearly, hawake⟩
    · have hnot : ¬ Due s₁ (.call c) i := fun hd => by
        obtain ⟨_, millis, heq, _⟩ := hd
        cases heq
      obtain ⟨hkept, hno⟩ := hstep.asleep t i hsl.asleep hnot
      have hset : ∀ tasks n, c ≠ .taskCreate tasks n := by
        rintro tasks n rfl
        exact hok
      have hcur : s₁.curTcb ≠ none := by
        obtain ⟨a, cur, hs, _⟩ := (hrun.run hr).located
        rw [hs.cur]
        simp
      obtain ⟨s₃, he, rfl⟩ := step_entry hst fun hn => absurd hn hcur
      have hmatch : (s₃.devices i).nextMatch = (s₁.devices i).nextMatch :=
        (he.sameClock (i := i) hset).nextMatch
      exact Or.inl ⟨hkept, hsl.silent.trans hno, hmatch.trans hsl.nextMatch, hsl.early⟩
    · exact Or.inr ⟨rest, v, ws, w, hvs, hw, .call hrest regs c hok hidle hst, hdue, hearly, hawake⟩
  | @update vs s₁ s₂ hrun regs millis hst ih =>
    have hstep : WakesOnlyDue regs s₁ (.timer millis) s₂ := by
      obtain ⟨a, cur, hs, hl⟩ := (hrun.run hr).located
      exact hl.wakesOnlyDue hs trivial (by simp) hst
    rcases ih with hsl | ⟨rest, v, ws, w, hvs, hw, hrest, hdue, hearly, hawake⟩
    · by_cases hle : (s.devices i).nextMatch ≤ millis
      · have hdue : Due s₁ (.timer millis) i :=
          ⟨hsl.asleep.1, millis, rfl, hsl.nextMatch.trans_le hle⟩
        obtain ⟨_, _, _, _, hwake⟩ := hstep.awake i millis rfl hdue
        exact Or.inr ⟨[], _, vs, s₂, rfl, .update hrun regs millis hst, .start, hle, hsl.early,
          (hwake t hsl.asleep).2⟩
      · have hnot : ¬ Due s₁ (.timer millis) i := by
          rintro ⟨_, m, heq, hm⟩
          cases heq
          exact hle (hsl.nextMatch ▸ hm)
        obtain ⟨hkept, hno⟩ := hstep.asleep t i hsl.asleep hnot
        have hmatch := (step_timer_match hst ht.1).1
        rw [hsl.nextMatch, if_neg hle] at hmatch
        refine Or.inl ⟨hkept, hsl.silent.trans hno, hmatch, ?_⟩
        intro v hv
        rcases List.mem_cons.mp hv with rfl | hv
        · exact Nat.lt_of_not_le hle
        · exact hsl.early v hv
    · refine Or.inr ⟨_ :: rest, v, ws, w, ?_, hw, .update hrest regs millis hst, hdue, hearly,
        hawake⟩
      rw [hvs, List.cons_append]

/-- A device wait lasts at most one period: a sleeper is woken by the first update at or after its
match value, which is never more than one period past the last update before the wait. -/
theorem eventWait_bounded (hboot : Relation.ReflTransGen (Step bootOp) boot w)
    (hc : Creates tasks n regs w s₀) (h : UpdateRun i s₀ us s)
    (hmono : (us.map Update.millis).Pairwise (· ≥ ·)) (ht : s.Asleep t i)
    (h' : UpdateRun i s vs s') :
    ∃ due ≤ lastMillis us + devFreq i,
      ((∀ v ∈ vs, v.millis < due) → s'.Asleep t i ∧ NoReturn t s s') ∧
      ((∃ v ∈ vs, due ≤ v.millis) → WokenAt i due t s vs s') := by
  have hr : Run sameSet n s := h.run (.start tasks regs hboot hc)
  obtain ⟨hcur, _, _, hdev⟩ := hc.clock
  obtain ⟨_, hle⟩ := h.nextMatch_le ht.1 hcur (hdev i ht.1).le hmono
  refine ⟨_, hle, ?_, ?_⟩
  · intro hearly
    rcases h'.asleep_or_woken hr ht with hsl | ⟨rest, v, ws, u, hvs, _, _, hdue, _, _⟩
    · exact ⟨hsl.asleep, hsl.silent⟩
    · have hv : v ∈ vs := by simp [hvs]
      exact absurd hdue (Nat.not_le_of_lt (hearly v hv))
  · rintro ⟨v, hv, hdue⟩
    rcases h'.asleep_or_woken hr ht with hsl | hwoken
    · exact absurd hdue (Nat.not_le_of_lt (hsl.early v hv))
    · exact hwoken

/-- Task 1 waits for device 0 from the start and is woken at 120. -/
theorem eventWait_bounded_first : ∃ s s' : KState, s.Asleep 1 0 ∧
    ∃ due ≤ 100, WokenAt 0 due 1 s [⟨120, 200, true⟩, ⟨60, 100, false⟩] s' := by
  have hx : ((createSet zeroContext sampleTasks 2 boot).bind fun s₀ =>
      (s₀.step zeroContext (.call (.eventWait 0))).toOption.bind fun s =>
        (runUpdates 0 zeroContext [60, 120] [] s).map fun r =>
          (s₀.curTcb, (s.devices 0).sleepQ, s.sleepLink 1, r.1)) =
      some (some 1, some 1, none, [⟨120, 200, true⟩, ⟨60, 100, false⟩]) := by decide +kernel
  obtain ⟨s₀, hs₀, hx⟩ := Option.bind_eq_some_iff.mp hx
  obtain ⟨s, hs, hx⟩ := Option.bind_eq_some_iff.mp hx
  obtain ⟨⟨vs, s'⟩, hr, hv⟩ := Option.map_eq_some_iff.mp hx
  obtain ⟨hcur, hq, hlink, rfl⟩ : s₀.curTcb = some 1 ∧ (s.devices 0).sleepQ = some 1 ∧
      s.sleepLink 1 = none ∧ vs = _ := by simpa using hv
  have hstep : s₀.step zeroContext (.call (.eventWait 0)) = .ok s := by
    cases hstep : s₀.step zeroContext (.call (.eventWait 0)) with
    | error e =>
      rw [hstep] at hs
      cases hs
    | ok s₁ =>
      rw [hstep] at hs
      cases hs
      rfl
  have hsl : s.Asleep 1 0 := ⟨by decide, [1], ⟨hq, hlink⟩, by simp⟩
  have hidle : s₀.curTcb ≠ some idleTcb := by
    rw [hcur]
    decide
  have hdev : 0 < numDevices := by decide
  have hwait : UpdateRun 0 s₀ [] s := .call .start zeroContext (.eventWait 0) hdev hidle hstep
  obtain ⟨due, hle, _, hlate⟩ := eventWait_bounded .refl (createSet_creates hs₀) hwait (by simp) hsl
    (runUpdates_run hr .start)
  refine ⟨s, s', hsl, due, hle, hlate ⟨⟨120, 200, true⟩, by simp, ?_⟩⟩
  exact hle.trans (by decide)

end RtosKernel.KState
