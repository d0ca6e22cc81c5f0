import RtosKernel.Queues.Blocking

namespace RtosKernel.KState

variable {K : TcbPtr → Prop} {a : Placement TcbPtr Place} {s s₁ : KState} {c : TcbPtr}
  {millis i : Nat} {flag : Bool}

/-- The drain loop ends, makes exactly the members of the chain ready and drops none. -/
theorem drain_spec {fuel : Nat} {p : Option TcbPtr} {l : List TcbPtr} (hd : Disciplined K s)
    (hchain : IntrusiveChain s.sleepLink p l)
    (hl : ∀ t ∈ l, K t ∧ s.rq.runList t.val = none) (hf : l.length ≤ fuel)
    (hlog : ∀ t q r, .runqueueAdd t q r ∈ s.log → r = none) :
    ∃ s₁, drain fuel p s = .ok s₁ ∧
      (∀ u, s₁.rq.runList u.val = some u ↔ u ∈ l ∨ s.rq.runList u.val = some u) ∧
      ∀ t q r, .runqueueAdd t q r ∈ s₁.log → r = none := by
  induction l generalizing p s fuel with
  | nil =>
    have hp : p = none := hchain
    subst hp
    refine ⟨s, ?_, by simp, hlog⟩
    cases fuel <;> rfl
  | cons t l ih =>
    obtain ⟨rfl, hrest⟩ := hchain
    have hnd := (IntrusiveChain.cons_iff.mpr ⟨rfl, hrest⟩ : IntrusiveChain s.sleepLink (some t)
      (t :: l)).nodup
    obtain ⟨hk, hempty⟩ := hl t (by simp)
    cases fuel with
    | zero => simp at hf
    | succ fuel =>
      have hl' : ∀ u ∈ l, K u ∧ (s.runqueueAdd t t.val).rq.runList u.val = none := by
        intro u hu
        obtain ⟨hku, hnone⟩ := hl u (by simp [hu])
        have hne : u.val ≠ t.val := by
          intro he
          rw [Fin.ext he] at hu
          exact (List.nodup_cons.mp hnd).1 hu
        refine ⟨hku, ?_⟩
        rw [runqueueAdd_runList, if_pos hempty, Function.update_of_ne hne, hnone]
      have hlog' : ∀ u q r, .runqueueAdd u q r ∈ (s.runqueueAdd t t.val).log → r = none := by
        intro u q r hm
        rcases List.mem_cons.mp hm with heq | hm
        · cases heq
          exact hempty
        · exact hlog u q r hm
      obtain ⟨s₁, hs₁, hready, hdrop⟩ := ih (hd.runqueueAdd hk) hrest hl' (by simpa using hf) hlog'
      refine ⟨s₁, ?_, ?_, hdrop⟩
      · rw [drain, hd.native t hk]
        exact hs₁
      · intro u
        rw [hready, runqueueAdd_ready hempty, List.mem_cons]
        by_cases hu : u = t <;> simp [hu]

theorem devSignal_idle (h : millis < (s.devices i).nextMatch) :
    devSignal millis (s, flag) i = .ok (s, flag) := by
  unfold devSignal
  simp only [Nat.not_le.mpr h, if_false]

theorem advance_devices (i : Nat) (s : KState) : (s.advance i).devices =
    (s.setDev i fun d => { d with nextMatch := (d.nextMatch + devFreq i) % 2 ^ 32 }).devices := rfl

theorem advance_sleepQ (i d : Nat) (s : KState) :
    ((s.advance i).devices d).sleepQ = (s.devices d).sleepQ := by
  rw [advance_devices, setDev_apply]
  split_ifs with hd
  · rw [hd]
  · rfl

theorem advance_nextMatch_of_ne {d : Nat} (h : d ≠ i) (s : KState) :
    ((s.advance i).devices d).nextMatch = (s.devices d).nextMatch := by
  rw [advance_devices, setDev_apply, if_neg h]

theorem devSignal_empty (h : (s.devices i).nextMatch ≤ millis)
    (hq : (s.devices i).sleepQ = none) :
    devSignal millis (s, flag) i = .ok (s.advance i, flag) := by
  have hq' : ((s.advance i).devices i).sleepQ = none := (advance_sleepQ i i s).trans hq
  unfold advance at hq'
  simp only [devSignal, h, if_true, hq']
  rfl

theorem devSignal_wake {head : TcbPtr} (h : (s.devices i).nextMatch ≤ millis)
    (hq : (s.devices i).sleepQ = some head)
    (hd : drain osMaxTasks (some head) (s.advance i) = .ok s₁) :
    devSignal millis (s, flag) i = .ok (s₁.setDev i fun d => { d with sleepQ := none }, true) := by
  have hq' : ((s.advance i).devices i).sleepQ = some head := (advance_sleepQ i i s).trans hq
  unfold advance at hq' hd
  simp only [devSignal, h, if_true, hq', hd]

/-- What a wake-up of the devices in `due` does to the placement. -/
structure Woken (due : Nat → Prop) (a a' : Placement TcbPtr Place) : Prop where
  woken : ∀ t d, due d → a.place t = .device d → a'.place t = .ready
  kept : ∀ t, (∀ d, due d → a.place t ≠ .device d) → a'.place t = a.place t
  empty : ∀ d, due d → a'.line (.device d) = []
  line : ∀ d, ¬ due d → a'.line (.device d) = a.line (.device d)
  mutex : ∀ m, a'.line (.mutex m) = a.line (.mutex m)

theorem Woken.refl {due : Nat → Prop} (h : ∀ d, due d → a.line (.device d) = []) :
    Woken due a a where
  woken := by
    intro t d hd ht
    have hm := (a.mem_line _ _).mpr ht
    rw [h d hd] at hm
    cases hm
  kept := fun _ _ => rfl
  empty := h
  line := fun _ _ => rfl
  mutex := fun _ => rfl

/-- One more device is due. -/
theorem Woken.moveLine {due due' : Nat → Prop} {a' : Placement TcbPtr Place} {i : Nat}
    (h : Woken due a a') (hi : ¬ due i) (hdue : ∀ d, due' d ↔ due d ∨ d = i) :
    Woken due' a (a'.moveLine (.device i) .ready (by simp)) where
  woken := by
    intro t d hd ht
    rw [Placement.place_moveLine]
    rcases (hdue d).mp hd with hd | rfl
    · rw [h.woken t d hd ht]
      simp
    · have hkept : a'.place t = .device d := by
        rw [h.kept t, ht]
        intro e he hte
        rw [ht] at hte
        cases hte
        exact hi he
      rw [hkept]
      simp
  kept := by
    intro t ht
    have hkept := h.kept t fun d hd => ht d ((hdue d).mpr (Or.inl hd))
    rw [Placement.place_moveLine, hkept, if_neg (ht i ((hdue i).mpr (Or.inr rfl)))]
  empty := by
    intro d hd
    by_cases hdi : d = i
    · subst hdi
      exact Placement.line_moveLine_self _
    · rw [Placement.line_moveLine_of_ne _ (by simpa using hdi) (by simp)]
      exact h.empty d (((hdue d).mp hd).resolve_right hdi)
  line := by
    intro d hd
    have hdi : d ≠ i := fun he => hd ((hdue d).mpr (Or.inr he))
    rw [Placement.line_moveLine_of_ne _ (by simpa using hdi) (by simp)]
    exact h.line d fun hb => hd ((hdue d).mpr (Or.inl hb))
  mutex := by
    intro m
    rw [Placement.line_moveLine_of_ne _ (by simp) (by simp)]
    exact h.mutex m

namespace Placed

theorem advance (h : Placed K a s) (i : Nat) : Placed K a (s.advance i) :=
  (h.setDev i (fun d => { d with nextMatch := (d.nextMatch + devFreq i) % 2 ^ 32 }) rfl).emit
    (by simp)

/-- Draining a whole line and clearing its head. -/
theorem drain (h : Placed K a s) (hd : Disciplined K s) {head : TcbPtr}
    (hq : (s.devices i).sleepQ = some head) :
    ∃ s₁, KState.drain osMaxTasks (some head) s = .ok s₁ ∧
      Placed K (a.moveLine (.device i) .ready (by simp))
        (s₁.setDev i fun d => { d with sleepQ := none }) := by
  have hchain := h.device i
  rw [hq] at hchain
  have hplace (t : TcbPtr) (ht : t ∈ a.line (.device i)) : a.place t = .device i :=
    (a.mem_line _ _).mp ht
  have hl : ∀ t ∈ a.line (.device i), K t ∧ s.rq.runList t.val = none := by
    intro t ht
    have hp := hplace t ht
    exact ⟨h.known (by rw [hp]; simp), h.slot_empty hd (by rw [hp]; simp)⟩
  obtain ⟨s₁, hs₁, hready, hlog⟩ := drain_spec hd hchain hl (h.devLine_length i) h.noDrop
  obtain ⟨_, htcb, hdev, hmutex, _⟩ := drain_frame hs₁
  have hlinks : s₁.sleepLink = s.sleepLink ∧ s₁.mutexLink = s.mutexLink := by
    unfold KState.sleepLink KState.mutexLink
    rw [htcb]
    exact ⟨rfl, rfl⟩
  refine ⟨s₁, hs₁, ?_⟩
  refine
    { absent := ?_, ready := ?_, device := ?_, mutex := ?_, pending := ?_, deviceRange := ?_
      mutexRange := ?_, noDrop := hlog }
  · intro t
    rw [Placement.place_moveLine, ← h.absent]
    split_ifs with ht
    · rw [ht]
      simp
    · exact Iff.rfl
  · intro t
    rw [Placement.place_moveLine, setDev_rq, hready, ← h.ready, a.mem_line]
    split_ifs with ht <;> simp [ht]
  · change Threaded _ (fun d => ((s₁.setDev i _).devices d).sleepQ) Place.device _
    rw [sleepQ_setDev, (setDev_links ..).2, hlinks.1, hdev]
    exact Threaded.clear h.device Place.device_injective (by simp)
  · intro m
    rw [(setDev_links ..).1, hlinks.2, setDev_gtMutex, hmutex,
      Placement.line_moveLine_of_ne _ (by simp) (by simp)]
    exact h.mutex m
  · intro t hk
    rw [setDev_systemTcb, htcb, h.pending t hk, Placement.place_moveLine]
    split_ifs with ht
    · rw [ht]
      simp
    · exact Iff.rfl
  · intro t d
    rw [Placement.place_moveLine]
    split_ifs with ht
    · simp
    · exact h.deviceRange t d
  · intro t m
    rw [Placement.place_moveLine]
    split_ifs with ht
    · simp
    · exact h.mutexRange t m

end Placed

/-- The state of the wake-up loop after its first `k` rounds, from `s`. -/
structure Waking (K : TcbPtr → Prop) (a : Placement TcbPtr Place) (s : KState) (c : TcbPtr)
    (millis k : Nat) (st : KState × Bool) : Prop where
  dispatchable : Dispatchable K st.1 c
  frames : st.1.frames = s.frames
  match_ : ∀ d, k ≤ d → (st.1.devices d).nextMatch = (s.devices d).nextMatch
  placed : ∃ a', Placed K a' st.1 ∧
    Woken (fun d => d < k ∧ (s.devices d).nextMatch ≤ millis) a a' ∧ (st.2 = false → a' = a)

theorem Waking.round {k : Nat} {st : KState × Bool} (h : Waking K a s c millis k st) :
    ∃ st', devSignal millis st k = .ok st' ∧ Waking K a s c millis (k + 1) st' := by
  obtain ⟨b, flag⟩ := st
  obtain ⟨hd, hfr, hmatch, a', hp, hw, hflag⟩ := h
  have hk := hmatch k le_rfl
  have hnot : ¬ (k < k ∧ (s.devices k).nextMatch ≤ millis) := by simp
  by_cases hdue : (b.devices k).nextMatch ≤ millis
  · have hgrow (d : Nat) : (d < k + 1 ∧ (s.devices d).nextMatch ≤ millis) ↔
        (d < k ∧ (s.devices d).nextMatch ≤ millis) ∨ d = k := by
      rw [hk] at hdue
      constructor
      · rintro ⟨hlt, hle⟩
        rcases Nat.lt_succ_iff_lt_or_eq.mp hlt with hlt | rfl
        · exact Or.inl ⟨hlt, hle⟩
        · exact Or.inr rfl
      · rintro (⟨hlt, hle⟩ | rfl)
        · exact ⟨by omega, hle⟩
        · exact ⟨by omega, hdue⟩
    have hnext (d : Nat) (hdk : k + 1 ≤ d) :
        ((b.advance k).devices d).nextMatch = (s.devices d).nextMatch := by
      rw [advance_nextMatch_of_ne (by omega), hmatch d (by omega)]
    cases hq : (b.devices k).sleepQ with
    | none =>
      refine ⟨_, devSignal_empty hdue hq, hd.advance k, hfr, hnext, a', hp.advance k, ?_, hflag⟩
      have hnil : a'.line (.device k) = [] := IntrusiveChain.eq_nil (hq ▸ hp.device k)
      have hline := hw.line k hnot
      refine { hw with woken := ?_, kept := ?_, empty := ?_, line := ?_ }
      · intro t d hdue' ht
        rcases (hgrow d).mp hdue' with hold | rfl
        · exact hw.woken t d hold ht
        · have hm := (a.mem_line _ _).mpr ht
          rw [← hline, hnil] at hm
          cases hm
      · intro t ht
        exact hw.kept t fun d hold => ht d ((hgrow d).mpr (Or.inl hold))
      · intro d hdue'
        rcases (hgrow d).mp hdue' with hold | rfl
        · exact hw.empty d hold
        · exact hnil
      · intro d hdue'
        exact hw.line d fun hold => hdue' ((hgrow d).mpr (Or.inl hold))
    | some head =>
      obtain ⟨s₁, hs₁, hp₁⟩ := (hp.advance k).drain (hd.advance k).toDisciplined
        ((advance_sleepQ k k b).trans hq)
      obtain ⟨_, _, hdev, _, hfr₁⟩ := drain_frame hs₁
      have hd₁ := (hd.advance k).drain
        (fun t ht => by cases ht; exact (hd.sleeper k head hq).1) hs₁
      refine ⟨_, devSignal_wake hdue hq hs₁, hd₁.setDev k (fun d => { d with sleepQ := none })
        (by simp), hfr₁.trans hfr, ?_, _, hp₁, hw.moveLine hnot hgrow, by simp⟩
      intro d hdk
      rw [setDev_apply, if_neg (by omega), hdev]
      exact hnext d hdk
  · refine ⟨_, devSignal_idle (Nat.lt_of_not_le hdue), hd, hfr, fun d hdk => hmatch d (by omega),
      a', hp, ?_, hflag⟩
    have hsame (d : Nat) : (d < k + 1 ∧ (s.devices d).nextMatch ≤ millis) =
        (d < k ∧ (s.devices d).nextMatch ≤ millis) := by
      rw [hk] at hdue
      apply propext
      constructor
      · rintro ⟨hlt, hle⟩
        rcases Nat.lt_succ_iff_lt_or_eq.mp hlt with hlt | rfl
        · exact ⟨hlt, hle⟩
        · exact absurd hle hdue
      · rintro ⟨hlt, hle⟩
        exact ⟨by omega, hle⟩
    simpa only [hsame] using hw

/-- The whole loop: it ends, and it wakes exactly the sleepers of the due devices. -/
theorem Placed.devWake (h : Placed K a s) (hd : Dispatchable K s c) (millis : Nat) :
    ∃ r, s.devWake millis = .ok r ∧ Waking K a s c millis numDevices r := by
  refine foldlM_range_total (P := fun k st => Waking K a s c millis k st) ?_
    (fun k st _ hst => hst.round)
  exact ⟨hd, rfl, fun _ _ => rfl, a, h, .refl (fun d hb => absurd hb.1 (Nat.not_lt_zero d)),
    fun _ => rfl⟩

end RtosKernel.KState
