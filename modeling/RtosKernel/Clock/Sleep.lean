import RtosKernel.Kernel.Clock

namespace RtosKernel.KState

variable {s s' : KState} {millis endTime : Nat} {reads : List Nat}

/-- The clock values on which a sleep is long enough. Its end is `millis / 10` ticks away, and the
clock in milliseconds wraps long before the ticks do. -/
structure SleepsEnough (s : KState) (millis : Nat) (reads : List Nat) : Prop where
  tick : timerResolution ∣ millis ∨ s.systemTime + millis / 10 ∉ reads
  wrap : ∀ t, reads.find? (s.systemTime + millis / 10 ≤ ·) = some t →
    2 ^ 32 ≤ t * timerResolution → s.timeSyscall + millis ≤ t * timerResolution % 2 ^ 32

/-- The loop ends on the first value that has reached the end. -/
theorem sleepLoop_eq (endTime : Nat) (reads : List Nat) (s : KState) :
    s.sleepLoop endTime reads =
      (reads.find? (endTime ≤ ·)).map fun t => { s with systemTime := t } := by
  induction reads generalizing s with
  | nil => rfl
  | cons t reads ih =>
    rw [sleepLoop]
    dsimp only
    by_cases ht : t < endTime
    · rw [if_pos ht, ih, List.find?_cons_of_neg (by simpa using ht)]
    · rw [if_neg ht, List.find?_cons_of_pos (by simpa using ht)]
      rfl

/-- On a clock that never goes back the first value at the end or after it is the least. -/
theorem find_least {t : Nat} (hmono : reads.Pairwise (· ≤ ·))
    (hfind : reads.find? (endTime ≤ ·) = some t) (hmem : endTime ∈ reads) : t = endTime := by
  obtain ⟨hle, before, after, rfl, hbefore⟩ := List.find?_eq_some_iff_append.mp hfind
  have hle' : endTime ≤ t := by simpa using hle
  rcases List.mem_append.mp hmem with hmem | hmem
  · have hlt := hbefore endTime hmem
    simp at hlt
  · rcases List.mem_cons.mp hmem with heq | hmem
    · exact heq.symm
    · have hsorted := (List.pairwise_append.mp hmono).2.1
      have hge := (List.pairwise_cons.mp hsorted).1 endTime hmem
      omega

theorem sleepSyscall_eq (hfit : s.systemTime + millis / 10 < 2 ^ 32) :
    s.sleepSyscall millis reads =
      (reads.find? (s.systemTime + millis / 10 ≤ ·)).map fun t => { s with systemTime := t } := by
  have hend : (s.systemTime + millis / 10) % 2 ^ 32 = s.systemTime + millis / 10 :=
    Nat.mod_eq_of_lt hfit
  rw [← sleepLoop_eq, ← hend]
  rfl

/-- What a return at tick `t` has to show. -/
theorem elapsed_iff {t : Nat} (hentry : s.timeSyscall = s.systemTime * 10) :
    (∀ s', (some t).map (fun t => { s with systemTime := t }) = some s' →
      (millis : Int) ≤ (s'.timeSyscall : Int) - s.timeSyscall) ↔
    s.systemTime * 10 + millis ≤ t * 10 % 2 ^ 32 := by
  rw [hentry]
  constructor
  · intro h
    have ht := h _ rfl
    change (millis : Int) ≤ ((t * 10 % 2 ^ 32 : Nat) : Int) - (s.systemTime * 10 : Nat) at ht
    omega
  · intro h s' hs'
    cases hs'
    change (millis : Int) ≤ ((t * 10 % 2 ^ 32 : Nat) : Int) - (s.systemTime * 10 : Nat)
    omega

/-- A return at tick `t` shows it exactly if the sleep was not a tick short and the milliseconds
have not wrapped. -/
theorem sleepsEnough_iff {t : Nat} (hmono : reads.Pairwise (· ≤ ·))
    (hfit : s.systemTime * 10 + millis + 10 < 2 ^ 32) (hentry : s.timeSyscall = s.systemTime * 10)
    (hfind : reads.find? (s.systemTime + millis / 10 ≤ ·) = some t) :
    s.systemTime * 10 + millis ≤ t * 10 % 2 ^ 32 ↔ SleepsEnough s millis reads := by
  have hle : s.systemTime + millis / 10 ≤ t := by
    have hle := List.find?_some hfind
    simpa using hle
  have htick : s.systemTime + millis / 10 ∈ reads ↔ t = s.systemTime + millis / 10 := by
    constructor
    · exact find_least hmono hfind
    · intro heq
      rw [← heq]
      exact List.mem_of_find?_eq_some hfind
  constructor
  · intro h
    refine ⟨?_, fun t' ht' _ => ?_⟩
    · rw [htick]
      by_contra hno
      obtain ⟨hdiv, heq⟩ := not_or.mp hno
      have heq' : t = s.systemTime + millis / 10 := not_not.mp heq
      have hsmall : t * 10 % 2 ^ 32 = t * 10 := Nat.mod_eq_of_lt (by omega)
      have hdiv' : ¬ 10 ∣ millis := hdiv
      omega
    · rw [hfind] at ht'
      cases ht'
      rw [hentry]
      exact h
  · intro h
    rcases Nat.lt_or_ge (t * 10) (2 ^ 32) with hsmall | hlarge
    · rw [Nat.mod_eq_of_lt hsmall]
      rcases h.tick with hdiv | hskip
      · have hdiv' : 10 ∣ millis := hdiv
        omega
      · rw [htick] at hskip
        omega
    · have hwrap := h.wrap t hfind hlarge
      rw [hentry] at hwrap
      exact hwrap

/-- `sleep_syscall` has waited for `millis` exactly if the truncated end is not a tick short or is
skipped, and the clock in milliseconds has not wrapped. -/
theorem sleepsLongEnough (hmono : (s.systemTime :: reads).Pairwise (· ≤ ·))
    (hfit : s.systemTime * timerResolution + millis + timerResolution < 2 ^ 32) :
    (∀ s', s.sleepSyscall millis reads = some s' →
      (millis : Int) ≤ (s'.timeSyscall : Int) - s.timeSyscall) ↔ SleepsEnough s millis reads := by
  have hfit' : s.systemTime * 10 + millis + 10 < 2 ^ 32 := hfit
  have hentry : s.timeSyscall = s.systemTime * 10 := Nat.mod_eq_of_lt (by omega)
  rw [sleepSyscall_eq (by omega)]
  cases hfind : reads.find? (s.systemTime + millis / 10 ≤ ·) with
  | none =>
    -- still waiting: nothing that was read had reached the end
    refine iff_of_true (by simp) ⟨Or.inr ?_, by simp [hfind]⟩
    intro hmem
    have hlt := List.find?_eq_none.mp hfind _ hmem
    simp at hlt
  | some t =>
    rw [elapsed_iff hentry]
    exact sleepsEnough_iff (List.pairwise_cons.mp hmono).2 hfit' hentry hfind

/-- A sleep of 20 milliseconds from tick 100. -/
theorem sleepsLongEnough_twoTicks :
    ({ bss with systemTime := 100 }.sleepSyscall 20 [100, 101, 101, 102]).isSome = true ∧
    ∀ s', { bss with systemTime := 100 }.sleepSyscall 20 [100, 101, 101, 102] = some s' →
      ((20 : Nat) : Int) ≤ (s'.timeSyscall : Int) - { bss with systemTime := 100 }.timeSyscall := by
  refine ⟨by decide, (sleepsLongEnough (by decide) (by decide)).mpr ⟨Or.inl (by decide), ?_⟩⟩
  intro t ht hlarge
  have heq : t = 102 := by
    have hfind : some 102 = some t := ht
    exact (Option.some.inj hfind).symm
  subst heq
  exact absurd hlarge (by decide)

/-- A sleep of 5 milliseconds returns at once. -/
theorem shortSleep_returns : ∃ s', bss.sleepSyscall 5 [0] = some s' ∧
    ¬ (5 : Int) ≤ (s'.timeSyscall : Int) - bss.timeSyscall :=
  ⟨{ bss with systemTime := 0 }, rfl, by decide⟩

end RtosKernel.KState
