import RtosKernel.Queues.Places

namespace RtosKernel.KState

variable {K : TcbPtr → Prop} {a a' : Placement TcbPtr Place} {s s₁ : KState}
  {c t next last : TcbPtr} {k : Frame}

theorem runqueueAdd_ready (hempty : s.rq.runList t.val = none) (u : TcbPtr) :
    (s.runqueueAdd t t.val).rq.runList u.val = some u ↔
      if u = t then True else s.rq.runList u.val = some u := by
  rw [runqueueAdd_runList, if_pos hempty]
  split_ifs with hu
  · subst hu
    simp
  · rw [Function.update_of_ne (fun hv => hu (Fin.ext hv))]

namespace Placed

/-- A task that is not ready finds its slot empty, so it is not dropped. -/
theorem slot_empty (h : Placed K a s) (hd : Disciplined K s) (ht : a.place t ≠ .ready) :
    s.rq.runList t.val = none := by
  by_contra hn
  obtain ⟨u, hu⟩ := Option.ne_none_iff_exists'.mp hn
  have hut : u = t := Fin.ext (hd.slot _ _ hu).1
  subst hut
  exact ht ((h.ready u).mpr hu)

theorem noDrop_runqueueAdd (h : Placed K a s) {p : Nat} (hempty : s.rq.runList p = none) :
    ∀ u q r, .runqueueAdd u q r ∈ (s.runqueueAdd t p).log → r = none := by
  intro u q r hm
  rcases List.mem_cons.mp hm with heq | hm
  · cases heq
    exact hempty
  · exact h.noDrop u q r hm

/-- The running task gives the processor up. -/
theorem runqueueAdd (h : Placed K a s) (hd : Disciplined K s) (ht : a.place t = .running) :
    Placed K (a.move t .ready) (s.runqueueAdd t t.val) := by
  have hempty := h.slot_empty hd (by rw [ht]; simp)
  refine h.moved_ready (Or.inl ht) (Or.inr rfl) ?_ rfl rfl rfl (h.noDrop_runqueueAdd hempty)
  intro u
  rw [runqueueAdd_ready hempty]
  simp

/-- The highest ready task gets the processor. -/
theorem takeSlot (h : Placed K a s) (hd : Disciplined K s) (hp : s.Picks next) :
    a.place next = .ready ∧
      Placed K (a.move next .running) (s.takeSlot s.rq.highestPrio next) := by
  have hv := (hd.slot _ _ hp.slot).1
  have hready : a.place next = .ready := by
    rw [h.ready, hv]
    exact hp.slot
  refine ⟨hready, h.moved_ready (Or.inr hready) (Or.inl rfl) ?_ rfl rfl rfl ?_⟩
  · intro u
    change Function.update s.rq.runList s.rq.highestPrio none u.val = some u ↔ _
    rw [← hv]
    split_ifs with hu
    · subst hu
      simp
    · rw [Function.update_of_ne (fun he => hu (Fin.ext he))]
  · intro u p r hm
    rcases List.mem_cons.mp hm with heq | hm
    · cases heq
    · exact h.noDrop u p r hm

theorem resume (h : Placed K a s) (t : TcbPtr) : Placed K a (s.resume t) := by
  unfold KState.resume
  split
  · exact h.enableInterrupts
  · exact h.mutexLockTail _ t
  · exact h.enableInterrupts.ret _ _
  · exact h.enableInterrupts.ret _ _
  · exact h.enableInterrupts

theorem ctxSwitchFull (h : Placed K a s) (next last : TcbPtr) (k : Frame) :
    Placed K a (s.ctxSwitchFull next last k) := by
  have h₁ := h.setTcb last (fun t => { t with context := s.regs }) rfl rfl rfl
  have h₂ : Placed K a { s.setTcb last (fun t => { t with context := s.regs }) with
      frames := Function.update s.frames last k
      regs := ((s.setTcb last fun t => { t with context := s.regs }).systemTcb next).context } :=
    { h₁ with }
  exact h₂.resume next

theorem ctxSwitchHalf (h : Placed K a s) (next : TcbPtr) : Placed K a (s.ctxSwitchHalf next) := by
  have h₁ : Placed K a { s with regs := (s.systemTcb next).context } := { h with }
  exact h₁.resume next

/-- Every blocked task but `last`, whose frame is about to be written, has its frame. -/
structure Frames (a : Placement TcbPtr Place) (s : KState) (last : TcbPtr) (k : Frame) : Prop where
  device : ∀ t d, a.place t = .device d → (if t = last then k else s.frames t) = .devWait d
  mutex : ∀ t m, a.place t = .mutex m → (if t = last then k else s.frames t) = .mutexLock m

theorem Frames.move (h : Frames a s last k) {p : Place} (hd : ∀ d, p ≠ .device d)
    (hm : ∀ m, p ≠ .mutex m) : Frames (a.move t p) s last k := by
  constructor
  · intro u d hu
    rw [Placement.place_move] at hu
    split_ifs at hu
    · exact absurd hu (hd d)
    · exact h.device u d hu
  · intro u m hu
    rw [Placement.place_move] at hu
    split_ifs at hu
    · exact absurd hu (hm m)
    · exact h.mutex u m hu

/-- The end of a switch: `next` runs, every blocked task has its frame. -/
theorem located (h : Placed K a s) (hfr : Frames a s₁ last k) (hcur : s.curTcb = some next)
    (hrun : ∀ t, a.place t = .running ↔ t = next)
    (hf : ∀ u, s.frames u = if u = last then k else s₁.frames u) : Located K a s where
  __ := h
  running := by
    intro t
    rw [hrun, hcur, Option.some_inj]
    exact eq_comm
  deviceFrame := by
    intro t d ht
    rw [hf]
    exact hfr.device t d ht
  mutexFrame := by
    intro t m ht
    rw [hf]
    exact hfr.mutex t m ht

/-- Dispatching when nobody has the processor. -/
theorem switchTo (h : Placed K a s) (hd : Disciplined K s) (hp : s.Picks next)
    (hrun : ∀ t, a.place t ≠ .running) (hfr : Frames a s last k) :
    Located K (a.move next .running) (s.switchTo next last k) := by
  obtain ⟨_, h₁⟩ := h.takeSlot hd hp
  refine (h₁.ctxSwitchFull next last k).located (hfr.move (by simp) (by simp))
    switchTo_curTcb ?_ ?_
  · intro t
    rw [Placement.place_move]
    split_ifs with ht
    · exact iff_of_true rfl ht
    · exact iff_of_false (hrun t) ht
  · intro u
    change (s.switchTo next last k).frames u = _
    rw [switchTo_frames, Function.update_apply]

/-- Two placements that agree on who is where and on the waiting lines describe the same state. -/
theorem of_agree (h : Placed K a s) (hplace : ∀ t, a'.place t = a.place t)
    (hdev : ∀ d, a'.line (.device d) = a.line (.device d))
    (hmutex : ∀ m, a'.line (.mutex m) = a.line (.mutex m)) : Placed K a' s where
  absent := by simpa only [hplace] using h.absent
  ready := by simpa only [hplace] using h.ready
  device := by simpa only [hdev] using h.device
  mutex := by simpa only [hmutex] using h.mutex
  pending := by simpa only [hplace] using h.pending
  deviceRange := by simpa only [hplace] using h.deviceRange
  mutexRange := by simpa only [hplace] using h.mutexRange
  noDrop := h.noDrop

theorem pending_of_running (h : Placed K a s) (ht : a.place t = .running) :
    (s.systemTcb t).pending ≠ 1 := by
  intro hp
  obtain ⟨m, hm⟩ := (h.pending t (h.known (by rw [ht]; simp))).mp hp
  rw [ht] at hm
  cases hm

/-- `dispatch_save`. A lock holder only passes through slot 0 and runs on. -/
theorem switchSaved_placed (h : Placed K a s) (hd : Dispatchable K s c)
    (hc : a.place c = .running) (hp : (s.saveCur c).Picks next) (k : Frame) :
    (a.place next = .ready ∨ next = c) ∧
      Placed K ((a.move c .ready).move next .running) ((s.saveCur c).switchTo next c k) := by
  rcases hd.saveCur_cases with ⟨hpend, _⟩ | ⟨_, _, he⟩ | ⟨_, h0, he⟩
  · exact absurd hpend (h.pending_of_running hc)
  · rw [he] at hp ⊢
    have hadd := h.runqueueAdd hd.toDisciplined hc
    have hdisc := hd.toDisciplined.runqueueAdd hd.curKnown
    obtain ⟨hnext, htake⟩ := hadd.takeSlot hdisc hp
    refine ⟨?_, htake.ctxSwitchFull next c k⟩
    rw [Placement.place_move] at hnext
    split_ifs at hnext with hn
    · exact Or.inr hn
    · exact Or.inl hnext
  · rw [he] at hp ⊢
    obtain ⟨rfl, hs, hlist⟩ := hd.holder_takeSlot h0 hp
    have hempty : s.rq.runList highestPriority = none := by
      by_contra hn
      exact absurd (hd.slot_pos hn) (lt_irrefl _)
    have hsame : Placed K a ((s.runqueueAdd next highestPriority).takeSlot
        (s.runqueueAdd next highestPriority).rq.highestPrio next) := by
      refine h.congr hlist (fun _ => rfl) (fun _ => rfl) (fun _ => ⟨rfl, rfl, rfl⟩) ?_
      intro u p r hm
      rcases List.mem_cons.mp hm with heq | hm
      · cases heq
      · exact h.noDrop_runqueueAdd hempty u p r hm
    have hplace (t : TcbPtr) : ((a.move next .ready).move next .running).place t = a.place t := by
      rw [Placement.place_move, Placement.place_move]
      split_ifs with ht
      · rw [ht, hc]
      · rfl
    have hline (p : Place) (hr : p ≠ .running) (hy : p ≠ .ready) :
        ((a.move next .ready).move next .running).line p = a.line p := by
      rw [Placement.line_move_of_ne (by rw [Placement.place_move_self]; exact hy.symm) hr,
        Placement.line_move_of_ne (by rw [hc]; exact hr.symm) hy]
    have hagree := hsame.of_agree hplace (fun d => hline _ (by simp) (by simp))
      (fun m => hline _ (by simp) (by simp))
    exact ⟨Or.inr rfl, hagree.ctxSwitchFull next next k⟩

/-- The same with only the current task running. -/
theorem switchSaved (h : Placed K a s) (hd : Dispatchable K s c)
    (hrun : ∀ t, a.place t = .running ↔ t = c) (hp : (s.saveCur c).Picks next)
    (hfr : Frames a s c k) :
    (a.place next = .ready ∨ next = c) ∧
      Located K ((a.move c .ready).move next .running) ((s.saveCur c).switchTo next c k) := by
  obtain ⟨hnext, hpl⟩ := h.switchSaved_placed hd ((hrun c).mpr rfl) hp k
  have hmoved : Frames ((a.move c .ready).move next .running) s c k :=
    (hfr.move (by simp) (by simp)).move (by simp) (by simp)
  refine ⟨hnext, hpl.located hmoved switchTo_curTcb ?_ ?_⟩
  · intro t
    rw [Placement.place_move, Placement.place_move]
    split_ifs with ht htc
    · exact iff_of_true rfl ht
    · exact iff_of_false (by simp) ht
    · exact iff_of_false (fun hr => htc ((hrun t).mp hr)) ht
  · intro u
    rw [switchTo_frames, Function.update_apply, saveCur_frames]

end Placed

end RtosKernel.KState
