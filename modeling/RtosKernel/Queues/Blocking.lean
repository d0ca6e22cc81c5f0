import RtosKernel.Queues.Moves

namespace RtosKernel.KState

variable {K : TcbPtr → Prop} {a : Placement TcbPtr Place} {s s₁ : KState} {c t first : TcbPtr}
  {m d : Nat}

/-- A write that keeps the device link. -/
theorem sleepLink_setTcb_of_eq (f : Tcb → Tcb)
    (hf : (f (s.systemTcb t)).sleepQueue = (s.systemTcb t).sleepQueue) :
    (s.setTcb t f).sleepLink = s.sleepLink := by
  rw [sleepLink_setTcb, hf]
  exact Function.update_eq_self t s.sleepLink

theorem mutexLink_setTcb_of_eq (f : Tcb → Tcb)
    (hf : (f (s.systemTcb t)).mutexSleepQueue = (s.systemTcb t).mutexSleepQueue) :
    (s.setTcb t f).mutexLink = s.mutexLink := by
  rw [mutexLink_setTcb, hf]
  exact Function.update_eq_self t s.mutexLink

theorem sleepLink_markWaiting (t : TcbPtr) (s : KState) :
    (s.markWaiting t).sleepLink = s.sleepLink := sleepLink_setTcb_of_eq _ rfl

theorem markWaiting_pending (t u : TcbPtr) (s : KState) :
    ((s.markWaiting t).systemTcb u).pending = if u = t then 1 else (s.systemTcb u).pending := by
  unfold markWaiting
  rw [setTcb_apply]
  split_ifs <;> rfl

theorem mutexLink_markWaiting (t : TcbPtr) (s : KState) :
    (s.markWaiting t).mutexLink = Function.update s.mutexLink t none := mutexLink_setTcb ..

namespace Placed

theorem line_length (h : Placed K a s) (m : Nat) :
    (a.line (.mutex m)).length ≤ osMaxTasks := by
  have hl := (h.mutex m).length_le
  rwa [Fintype.card_fin] at hl

theorem devLine_length (h : Placed K a s) (d : Nat) :
    (a.line (.device d)).length ≤ osMaxTasks := by
  have hl := (h.device d).length_le
  rwa [Fintype.card_fin] at hl

/-- A running task starts to wait in `p`. The run queue has no slot of it. -/
private theorem block (h : Placed K a s) (hc : a.place c = .running) {p : Place}
    (hp : p ≠ .absent) (hr : p ≠ .ready) (hrq : s₁.rq = s.rq) (hlog : s₁.log = s.log)
    (hdev : Threaded s₁.sleepLink (fun i => (s₁.devices i).sleepQ) .device (a.move c p))
    (hmutex : Threaded s₁.mutexLink (fun i => (s₁.gtMutex i).pSleepQueue) .mutex (a.move c p))
    (hpend : ∀ u, (s₁.systemTcb u).pending = 1 ↔
      if u = c then ∃ i, p = .mutex i else (s.systemTcb u).pending = 1)
    (hdrange : ∀ i, p = .device i → i < numDevices)
    (hmrange : ∀ i, p = .mutex i → i < osNumMutex) : Placed K (a.move c p) s₁ := by
  refine h.moved (by simp [hc]) hp ?_ hdev hmutex hpend hdrange hmrange ?_
  · intro u
    rw [hrq]
    split_ifs with hu
    · subst hu
      rw [← h.ready, hc]
      simp [hr]
    · exact Iff.rfl
  · rw [hlog]
    exact h.noDrop

/-- `mutex_lock` on a taken mutex puts the caller at the end of its line. -/
theorem mutexEnqueue (h : Placed K a s) (hc : a.place c = .running) (hm : m < osNumMutex)
    (he : s.mutexEnqueue m c = .ok s₁) : Placed K (a.move c (.mutex m)) s₁ := by
  have hoff (i : Nat) : a.place c ≠ .mutex i := by simp [hc]
  have hdev : Threaded s.sleepLink (fun i => (s.devices i).sleepQ) .device (a.move c (.mutex m)) :=
    Threaded.move_off h.device (by simp [hc]) (by simp)
  have hmutex : Threaded s.mutexLink (fun i => (s.gtMutex i).pSleepQueue) .mutex a := h.mutex
  have hrange (i : Nat) (hi : Place.mutex m = .mutex i) : i < osNumMutex := by
    cases hi
    exact hm
  have hpend (u : TcbPtr) : ((s.markWaiting c).systemTcb u).pending = 1 ↔
      if u = c then ∃ i, Place.mutex m = .mutex i else (s.systemTcb u).pending = 1 := by
    rw [markWaiting_pending]
    split_ifs with hu
    · exact iff_of_true rfl ⟨m, rfl⟩
    · exact Iff.rfl
  rcases mutexEnqueue_ok he with ⟨hq, rfl⟩ | ⟨head, last, hq, hl, rfl⟩
  · refine h.block hc (by simp) (by simp) rfl rfl ?_ ?_ hpend (by simp) hrange
    · rw [(setMutex_links ..).2, sleepLink_markWaiting]
      exact hdev
    · rw [pSleepQueue_setMutex, (setMutex_links ..).1, mutexLink_markWaiting]
      exact hmutex.enqueue_first Place.mutex_injective hoff hq
  · refine h.block hc (by simp) (by simp) rfl rfl ?_ ?_ ?_ (by simp) hrange
    · rw [sleepLink_setTcb_of_eq _ rfl, sleepLink_markWaiting]
      exact hdev
    · have hmark := hmutex.update hoff none
      rw [mutexLink_markWaiting] at hl
      have happ := (hmark.enqueue_last Place.mutex_injective hoff hq hl (h.line_length m)).2
      rw [Function.update_idem, ← mutexLink_markWaiting] at happ
      rw [mutexLink_setTcb]
      exact happ
    · intro u
      rw [← hpend, setTcb_apply]
      split_ifs with hu
      · rw [hu]
      · exact Iff.rfl

/-- `event_wait` puts the caller at the end of the device's line. -/
theorem devEnqueue (h : Placed K a s) (hc : a.place c = .running) (hd : d < numDevices)
    (he : s.devEnqueue d c = .ok s₁) : Placed K (a.move c (.device d)) s₁ := by
  have hoff (i : Nat) : a.place c ≠ .device i := by simp [hc]
  have hdev : Threaded s.sleepLink (fun i => (s.devices i).sleepQ) .device a := h.device
  have hmutex : Threaded s.mutexLink (fun i => (s.gtMutex i).pSleepQueue) .mutex
      (a.move c (.device d)) := Threaded.move_off h.mutex (by simp [hc]) (by simp)
  have hrange (i : Nat) (hi : Place.device d = .device i) : i < numDevices := by
    cases hi
    exact hd
  have hpend (u : TcbPtr) : (s.systemTcb u).pending = 1 ↔
      if u = c then ∃ m, Place.device d = .mutex m else (s.systemTcb u).pending = 1 := by
    split_ifs with hu
    · subst hu
      exact iff_of_false (h.pending_of_running hc) (by simp)
    · exact Iff.rfl
  have hkeep (t u : TcbPtr) (p : Option TcbPtr) (s : KState) :
      ((KState.setTcb t (fun x => { x with sleepQueue := p }) s).systemTcb u).pending =
        (s.systemTcb u).pending := by
    rw [setTcb_apply]
    split_ifs with hu
    · rw [hu]
    · rfl
  rcases devEnqueue_ok he with ⟨hq, rfl⟩ | ⟨head, last, hq, hl, rfl⟩
  · refine h.block hc (by simp) (by simp) rfl rfl ?_ ?_ ?_ hrange (by simp)
    · rw [setTcb_devices, sleepQ_setDev, sleepLink_setTcb, (setDev_links ..).2]
      exact hdev.enqueue_first Place.device_injective hoff hq
    · rw [mutexLink_setTcb_of_eq _ rfl]
      exact hmutex
    · intro u
      rw [hkeep]
      exact hpend u
  · obtain ⟨hlast, happ⟩ := hdev.enqueue_last Place.device_injective hoff hq hl (h.devLine_length d)
    have hlc : last ≠ c := by
      intro he
      rw [he] at hlast
      exact hoff d hlast
    refine h.block hc (by simp) (by simp) rfl rfl ?_ ?_ ?_ hrange (by simp)
    · rw [sleepLink_setTcb, sleepLink_setTcb, Function.update_comm hlc]
      exact happ
    · rw [mutexLink_setTcb_of_eq _ rfl, mutexLink_setTcb_of_eq _ rfl]
      exact hmutex
    · intro u
      rw [hkeep, hkeep]
      exact hpend u

/-- `mutex_unlock` makes the first waiter ready. -/
theorem mutexRelease (h : Placed K a s) (hd : Disciplined K s)
    (hq : (s.gtMutex m).pSleepQueue = some first) :
    a.place first = .mutex m ∧ Placed K (a.move first .ready) (s.mutexRelease m first) := by
  have hmutex : Threaded s.mutexLink (fun i => (s.gtMutex i).pSleepQueue) .mutex a := h.mutex
  obtain ⟨hplace, hpop⟩ := hmutex.dequeue (j := .ready) Place.mutex_injective hq (by simp)
  refine ⟨hplace, ?_⟩
  have hempty := h.slot_empty hd (t := first) (by simp [hplace])
  rw [mutexRelease_eq (hd.native first (h.known (by simp [hplace])))]
  refine h.moved (by simp [hplace]) (by simp) ?_ ?_ ?_ ?_ (by simp) (by simp) ?_
  · intro u
    refine (runqueueAdd_ready ?_ u).trans (by simp)
    exact hempty
  · rw [(runqueueAdd_links ..).2, sleepLink_setTcb_of_eq _ rfl]
    exact Threaded.move_off h.device (by simp [hplace]) (by simp)
  · rw [(runqueueAdd_links ..).1, mutexLink_setTcb, (setMutex_links ..).1, runqueueAdd_gtMutex,
      setTcb_gtMutex]
    change Threaded _ (fun i => ((s.setMutex m _).gtMutex i).pSleepQueue) Place.mutex _
    rw [pSleepQueue_setMutex]
    exact hpop
  · intro u
    rw [runqueueAdd_systemTcb, setTcb_apply]
    split_ifs with hu
    · simp
    · exact Iff.rfl
  · exact h.noDrop_runqueueAdd hempty

end Placed

end RtosKernel.KState
