import RtosKernel.Clock.EventRate

namespace RtosKernel

/-- One `dev_update(millis)`, as seen from one device. -/
structure Update where
  millis : Nat
  /-- `next_match` after the update. -/
  nextMatch : Nat
  signalled : Bool
  deriving DecidableEq

/-- The clock at the last update, newest first; zero before the first. -/
def lastMillis : List Update → Nat
  | [] => 0
  | u :: _ => u.millis

/-- The clock value `0` and those of the updates, in order, pass no two multiples of `freq`
at a time. -/
def Paced (freq : Nat) : List Update → Prop
  | [] => True
  | u :: us => u.millis / freq ≤ lastMillis us / freq + 1 ∧ Paced freq us

/-- Every update leaves the match value ahead of the clock, by at most one period, and no two
signals fall in the same period. -/
structure Ahead (freq : Nat) (us : List Update) : Prop where
  match_ : ∀ u ∈ us, u.millis < u.nextMatch ∧ u.nextMatch ≤ u.millis + freq
  once : ((us.filter Update.signalled).map fun u => u.millis / freq).Nodup

namespace KState

/-- A run from `s₀` with the updates of device `i` it made, newest first. -/
inductive UpdateRun (i : Nat) (s₀ : KState) : List Update → KState → Prop
  | start : UpdateRun i s₀ [] s₀
  | call {us : List Update} {s s' : KState} (hr : UpdateRun i s₀ us s) (regs : SchedContext)
      (c : Call) (hok : sameSet s (.call c)) (hcur : s.curTcb ≠ some idleTcb)
      (h : s.step regs (.call c) = .ok s') : UpdateRun i s₀ us s'
  | update {us : List Update} {s s' : KState} (hr : UpdateRun i s₀ us s) (regs : SchedContext)
      (millis : Nat) (h : s.step regs (.timer millis) = .ok s') :
      UpdateRun i s₀ (⟨millis, (s'.devices i).nextMatch, s'.signals i ≠ s.signals i⟩ :: us) s'

variable {tasks : Nat → Task} {n i : Nat} {regs : SchedContext} {s s' s₀ : KState}
  {us : List Update}

/-- A match value one period past the last multiple stays that far ahead exactly if the clock
moves by at most one multiple. -/
theorem nextMatch_ahead {freq last m q next : Nat} (hpos : 0 < freq) (hle : last ≤ m)
    (hq : q = freq * (last / freq + 1)) (hnext : next = if q ≤ m then q + freq else q) :
    (m < next ∧ next ≤ m + freq ↔ m / freq ≤ last / freq + 1) ∧
      (m / freq ≤ last / freq + 1 → next = freq * (m / freq + 1) ∧
        (q ≤ m ↔ m / freq = last / freq + 1)) := by
  have hmono : last / freq ≤ m / freq := Nat.div_le_div_right hle
  have hm := Nat.div_add_mod m freq
  have hrem := Nat.mod_lt m hpos
  rw [Nat.mul_succ] at hq
  rw [Nat.mul_succ]
  rcases Nat.lt_or_ge (last / freq + 1) (m / freq) with hfar | hnear
  · have hpast : freq * (last / freq) + freq + freq ≤ freq * (m / freq) := by
      have hmul := Nat.mul_le_mul_left freq hfar
      rw [Nat.succ_eq_add_one, Nat.mul_succ, Nat.mul_succ] at hmul
      exact hmul
    rw [if_pos (by omega)] at hnext
    refine ⟨⟨fun h => by omega, fun h => by omega⟩, fun h => by omega⟩
  · rcases Nat.lt_or_eq_of_le hnear with hsame | hone
    · have heq : m / freq = last / freq := by omega
      rw [heq] at hm ⊢
      rw [if_neg (by omega)] at hnext
      refine ⟨⟨fun _ => by omega, fun _ => by omega⟩, fun _ => ⟨by omega, by omega⟩⟩
    · rw [hone, Nat.mul_succ] at hm
      rw [if_pos (by omega)] at hnext
      rw [hone, Nat.mul_succ]
      refine ⟨⟨fun _ => by omega, fun _ => by omega⟩, fun _ => ⟨by omega, by omega⟩⟩

/-- What one timer interrupt does to device `i`. -/
theorem step_timer_match {millis : Nat} (h : s.step regs (.timer millis) = .ok s')
    (hi : i < numDevices) :
    (s'.devices i).nextMatch = (if (s.devices i).nextMatch ≤ millis then
      ((s.devices i).nextMatch + devFreq i) % 2 ^ 32 else (s.devices i).nextMatch) ∧
    (s'.signals i ≠ s.signals i ↔ (s.devices i).nextMatch ≤ millis) ∧
    (s.curTcb ≠ none → s'.curTcb ≠ none) := by
  obtain ⟨s₁, he, rfl⟩ := step_entry h fun _ => trivial
  have hs : if (s.devices i).nextMatch ≤ millis then Signalled i (s.interrupt regs) s₁
    else SameClock i (s.interrupt regs) s₁ := he.signals hi
  by_cases hdue : (s.devices i).nextMatch ≤ millis
  · rw [if_pos hdue] at hs
    have hcount : s₁.enableInterrupts.signals i = s.signals i + 1 := hs.signals
    rw [if_pos hdue]
    exact ⟨hs.nextMatch, by simp [hdue, hcount], he.known⟩
  · rw [if_neg hdue] at hs
    have hcount : s₁.enableInterrupts.signals i = s.signals i := hs.signals
    rw [if_neg hdue]
    exact ⟨hs.nextMatch, by simp [hdue, hcount], he.known⟩

/-- The rules that hold as long as the clock passes no two multiples at a time. -/
structure MatchLaw (i : Nat) (us : List Update) (s : KState) : Prop where
  nextMatch : (s.devices i).nextMatch = devFreq i * (lastMillis us / devFreq i + 1)
  ahead : Ahead (devFreq i) us
  past : ∀ u ∈ us, u.millis / devFreq i ≤ lastMillis us / devFreq i

theorem MatchLaw.update {millis : Nat} (h : MatchLaw i us s) (hi : i < numDevices)
    (hle : lastMillis us ≤ millis) (hmax : millis < 2 ^ 32 - 9000)
    (hst : s.step regs (.timer millis) = .ok s') :
    let u : Update := ⟨millis, (s'.devices i).nextMatch, s'.signals i ≠ s.signals i⟩
    (u.millis < u.nextMatch ∧ u.nextMatch ≤ u.millis + devFreq i ↔
      millis / devFreq i ≤ lastMillis us / devFreq i + 1) ∧
    (millis / devFreq i ≤ lastMillis us / devFreq i + 1 → MatchLaw i (u :: us) s') := by
  intro u
  obtain ⟨hpos, hfreq, _⟩ := devFreq_range hi
  obtain ⟨hmatch, hsig, _⟩ := step_timer_match hst hi
  have hstep : (s'.devices i).nextMatch = if (s.devices i).nextMatch ≤ millis then
      (s.devices i).nextMatch + devFreq i else (s.devices i).nextMatch := by
    rw [hmatch]
    split_ifs
    · exact Nat.mod_eq_of_lt (by omega)
    · rfl
  obtain ⟨hiff, hnear⟩ := nextMatch_ahead hpos hle h.nextMatch hstep
  refine ⟨hiff, fun hpace => ?_⟩
  obtain ⟨hnext, hdue⟩ := hnear hpace
  refine { nextMatch := hnext, ahead := { match_ := ?_, once := ?_ }, past := ?_ }
  · intro v hv
    rcases List.mem_cons.mp hv with rfl | hv
    · exact hiff.mpr hpace
    · exact h.ahead.match_ v hv
  · by_cases hu : u.signalled = true
    · rw [List.filter_cons_of_pos hu, List.map_cons, List.nodup_cons]
      refine ⟨fun hm => ?_, h.ahead.once⟩
      obtain ⟨v, hv, heq⟩ := List.mem_map.mp hm
      have hold := h.past v (List.mem_of_mem_filter hv)
      have hnew := hdue.mp (hsig.mp (of_decide_eq_true hu))
      have heq' : v.millis / devFreq i = millis / devFreq i := heq
      omega
    · rw [List.filter_cons_of_neg hu]
      exact h.ahead.once
  · intro v hv
    rcases List.mem_cons.mp hv with rfl | hv
    · exact le_rfl
    · exact (h.past v hv).trans (Nat.div_le_div_right hle)

/-- By induction on the run: staying ahead so far is having been paced so far. -/
theorem UpdateRun.law (hi : i < numDevices) (h0 : MatchLaw i [] s₀) (hcur : s₀.curTcb ≠ none)
    (h : UpdateRun i s₀ us s) (hmono : (us.map Update.millis).Pairwise (· ≥ ·))
    (hmax : ∀ u ∈ us, u.millis < 2 ^ 32 - 9000) :
    s.curTcb ≠ none ∧ (Ahead (devFreq i) us → Paced (devFreq i) us) ∧
      (Paced (devFreq i) us → MatchLaw i us s) := by
  induction h with
  | start => exact ⟨hcur, fun _ => trivial, fun _ => h0⟩
  | call _ regs c hok hidle hst ih =>
    obtain ⟨hknown, hpaced, hlaw⟩ := ih hmono hmax
    obtain ⟨s₁, he, rfl⟩ := step_entry hst fun hn => absurd hn hknown
    have hset : ∀ tasks n, c ≠ .taskCreate tasks n := by
      rintro tasks n rfl
      exact hok
    have hsame := he.sameClock (i := i) hset
    refine ⟨he.known hknown, hpaced, fun hp => ?_⟩
    exact { hlaw hp with nextMatch := hsame.nextMatch.trans (hlaw hp).nextMatch }
  | @update us s s' _ regs millis hst ih =>
    rw [List.map_cons, List.pairwise_cons] at hmono
    obtain ⟨hknown, hpaced, hlaw⟩ := ih hmono.2 fun u hu => hmax u (by simp [hu])
    have hle : lastMillis us ≤ millis := by
      cases us with
      | nil => exact Nat.zero_le _
      | cons u us => exact hmono.1 u.millis (by simp)
    have hlt : millis < 2 ^ 32 - 9000 := hmax _ (List.mem_cons_self ..)
    refine ⟨(step_timer_match hst hi).2.2 hknown, fun ha => ?_, fun hp => ?_⟩
    · have hold : Ahead (devFreq i) us := by
        refine { match_ := fun u hu => ha.match_ u (by simp [hu]), once := ?_ }
        exact List.Nodup.sublist (((List.sublist_cons_self ..).filter _).map _) ha.once
      obtain ⟨hiff, _⟩ := (hlaw (hpaced hold)).update hi hle hlt hst
      exact ⟨hiff.mp (ha.match_ _ (List.mem_cons_self ..)), hpaced hold⟩
    · exact ((hlaw hp.2).update hi hle hlt hst).2 hp.1

/-- The match value of device `i` stays ahead of the clock exactly when the clock, taken from
zero and not from the start of the set, passes no two multiples of its period at a time. -/
theorem matchAhead (hc : Creates tasks n regs s s₀) (hi : i < numDevices)
    (h : UpdateRun i s₀ us s') (hmono : (us.map Update.millis).Pairwise (· ≥ ·))
    (hmax : ∀ u ∈ us, u.millis < 2 ^ 32 - 9000) :
    Ahead (devFreq i) us ↔ Paced (devFreq i) us := by
  obtain ⟨hcur, _, _, hdev⟩ := hc.clock
  have h0 : MatchLaw i [] s₀ :=
    { nextMatch := by rw [hdev i hi]; simp [lastMillis]
      ahead := { match_ := by simp, once := by simp }
      past := by simp }
  obtain ⟨_, hpaced, hlaw⟩ := h.law hi h0 hcur hmono hmax
  exact ⟨hpaced, fun hp => (hlaw hp).ahead⟩

/-- Run `dev_update` at these clock values. -/
def runUpdates (i : Nat) (regs : SchedContext) :
    List Nat → List Update → KState → Option (List Update × KState)
  | [], us, s => some (us, s)
  | millis :: rest, us, s => match s.step regs (.timer millis) with
    | .ok s' => runUpdates i regs rest
        (⟨millis, (s'.devices i).nextMatch, s'.signals i ≠ s.signals i⟩ :: us) s'
    | .error _ => none

theorem runUpdates_run {ms : List Nat} {us' : List Update}
    (h : runUpdates i regs ms us s = some (us', s')) (hr : UpdateRun i s₀ us s) :
    UpdateRun i s₀ us' s' := by
  induction ms generalizing s us with
  | nil =>
    cases h
    exact hr
  | cons millis rest ih =>
    rw [runUpdates] at h
    split at h
    · rename_i s₁ hst
      exact ih h (.update hr regs millis hst)
    · cases h

/-- Updates at 60, 150 and 260 stay ahead of device 0. -/
theorem matchAhead_paced : ∃ s₀ s', Creates sampleTasks 2 zeroContext boot s₀ ∧
    UpdateRun 0 s₀ [⟨260, 300, true⟩, ⟨150, 200, true⟩, ⟨60, 100, false⟩] s' ∧
    Ahead (devFreq 0) [⟨260, 300, true⟩, ⟨150, 200, true⟩, ⟨60, 100, false⟩] := by
  have hx : ((createSet zeroContext sampleTasks 2 boot).map fun s =>
      (runUpdates 0 zeroContext [60, 150, 260] [] s).map Prod.fst) =
        some (some [⟨260, 300, true⟩, ⟨150, 200, true⟩, ⟨60, 100, false⟩]) := by decide +kernel
  obtain ⟨s₀, hs, hv⟩ := Option.map_eq_some_iff.mp hx
  obtain ⟨⟨us, s'⟩, hr, rfl⟩ := Option.map_eq_some_iff.mp hv
  have hrun := runUpdates_run hr .start
  refine ⟨s₀, s', createSet_creates hs, hrun, ?_⟩
  apply (matchAhead (createSet_creates hs) (by decide) hrun ?_ ?_).mpr
  · simp [Paced, lastMillis, devFreq, devFreqTable]
  · decide
  · decide

/-- A set started at clock 250 gets two signals of device 0, on the next two ticks. -/
theorem lateStart_burst : ∃ s s₀ s', Relation.ReflTransGen (Step bootOp) boot s ∧
    Creates sampleTasks 2 zeroContext s s₀ ∧
    UpdateRun 0 s₀ [⟨252, 300, true⟩, ⟨251, 200, true⟩] s' ∧
    ¬ Ahead (devFreq 0) [⟨252, 300, true⟩, ⟨251, 200, true⟩] := by
  have hx : (execute bootOp zeroContext [.timer 250] boot).map (fun s =>
      (createSet zeroContext sampleTasks 2 s).map fun s₀ =>
        (runUpdates 0 zeroContext [251, 252] [] s₀).map Prod.fst) =
      some (some (some [⟨252, 300, true⟩, ⟨251, 200, true⟩])) := by decide +kernel
  obtain ⟨s, hs, hv⟩ := Option.map_eq_some_iff.mp hx
  obtain ⟨s₀, hs₀, hv₀⟩ := Option.map_eq_some_iff.mp hv
  obtain ⟨⟨us, s'⟩, hr, rfl⟩ := Option.map_eq_some_iff.mp hv₀
  refine ⟨s, s₀, s', execute_steps hs, createSet_creates hs₀, runUpdates_run hr .start, ?_⟩
  intro h
  have hahead := h.match_ ⟨251, 200, true⟩ (by simp)
  simp at hahead

end KState

end RtosKernel
