import RtosKernel.Math.ThreadedLines
import RtosKernel.Scheduling.Returns

namespace RtosKernel

/-- Where a task can be. `absent` is for TCBs that belong to no task of the set. -/
inductive Place where
  | absent
  | running
  | ready
  | device (dev : Nat)
  | mutex (mutex : Nat)
  deriving DecidableEq

/-- `task_create` leaves the queues of the mutexes as they are. -/
def Place.isMutex : Place → Bool
  | .mutex _ => true
  | _ => false

theorem Place.mutex_injective : Function.Injective Place.mutex := fun _ _ => Place.mutex.inj

theorem Place.device_injective : Function.Injective Place.device := fun _ _ => Place.device.inj

namespace KState

/-- The kernel's queues hold the tasks where `a` says, in that order. Which task runs is left
open, for the states inside a kernel entry. -/
structure Placed (K : TcbPtr → Prop) (a : Placement TcbPtr Place) (s : KState) : Prop where
  absent : ∀ t, a.place t = .absent ↔ ¬ K t
  ready : ∀ t, a.place t = .ready ↔ s.rq.runList t.val = some t
  device : ∀ d, IntrusiveChain s.sleepLink (s.devices d).sleepQ (a.line (.device d))
  mutex : ∀ m, IntrusiveChain s.mutexLink (s.gtMutex m).pSleepQueue (a.line (.mutex m))
  pending : ∀ t, K t → ((s.systemTcb t).pending = 1 ↔ ∃ m, a.place t = .mutex m)
  deviceRange : ∀ t d, a.place t = .device d → d < numDevices
  mutexRange : ∀ t m, a.place t = .mutex m → m < osNumMutex
  noDrop : ∀ t p r, .runqueueAdd t p r ∈ s.log → r = none

/-- In addition `cur_tcb` runs, and a blocked task will continue in the call that blocked it. -/
structure Located (K : TcbPtr → Prop) (a : Placement TcbPtr Place) (s : KState) : Prop
    extends Placed K a s where
  running : ∀ t, a.place t = .running ↔ s.curTcb = some t
  deviceFrame : ∀ t d, a.place t = .device d → s.frames t = .devWait d
  mutexFrame : ∀ t m, a.place t = .mutex m → s.frames t = .mutexLock m

variable {K : TcbPtr → Prop} {a : Placement TcbPtr Place} {s s₁ : KState} {c t next last : TcbPtr}

theorem sleepLink_setTcb (t : TcbPtr) (f : Tcb → Tcb) (s : KState) :
    (s.setTcb t f).sleepLink = Function.update s.sleepLink t (f (s.systemTcb t)).sleepQueue := by
  funext u
  change (Function.update s.systemTcb t (f (s.systemTcb t)) u).sleepQueue = _
  by_cases hu : u = t
  · subst hu
    rw [Function.update_self, Function.update_self]
  · rw [Function.update_of_ne hu, Function.update_of_ne hu]
    rfl

theorem mutexLink_setTcb (t : TcbPtr) (f : Tcb → Tcb) (s : KState) :
    (s.setTcb t f).mutexLink =
      Function.update s.mutexLink t (f (s.systemTcb t)).mutexSleepQueue := by
  funext u
  change (Function.update s.systemTcb t (f (s.systemTcb t)) u).mutexSleepQueue = _
  by_cases hu : u = t
  · subst hu
    rw [Function.update_self, Function.update_self]
  · rw [Function.update_of_ne hu, Function.update_of_ne hu]
    rfl

theorem pSleepQueue_setMutex (m : Nat) (f : Mutex → Mutex) (s : KState) :
    (fun i => ((s.setMutex m f).gtMutex i).pSleepQueue) =
      Function.update (fun i => (s.gtMutex i).pSleepQueue) m (f (s.gtMutex m)).pSleepQueue := by
  funext i
  rw [Function.update_apply, setMutex_apply]
  split_ifs <;> rfl

theorem sleepQ_setDev (d : Nat) (f : Dev → Dev) (s : KState) :
    (fun i => ((s.setDev d f).devices i).sleepQ) =
      Function.update (fun i => (s.devices i).sleepQ) d (f (s.devices d)).sleepQ := by
  funext i
  rw [Function.update_apply, setDev_apply]
  split_ifs <;> rfl

namespace Placed

theorem known (h : Placed K a s) (ht : a.place t ≠ .absent) : K t := by
  by_contra hn
  exact ht ((h.absent t).mpr hn)

theorem notMem (_ : Placed K a s) {p : Place} (ht : a.place t ≠ p) : t ∉ a.line p :=
  fun hm => ht ((a.mem_line p t).mp hm)

/-- Only the queues, the links and the pending flags are looked at. -/
theorem congr (h : Placed K a s) (hrq : s₁.rq.runList = s.rq.runList)
    (hdev : ∀ d, (s₁.devices d).sleepQ = (s.devices d).sleepQ)
    (hmutex : ∀ m, (s₁.gtMutex m).pSleepQueue = (s.gtMutex m).pSleepQueue)
    (htcb : ∀ t, (s₁.systemTcb t).sleepQueue = (s.systemTcb t).sleepQueue ∧
      (s₁.systemTcb t).mutexSleepQueue = (s.systemTcb t).mutexSleepQueue ∧
      (s₁.systemTcb t).pending = (s.systemTcb t).pending)
    (hlog : ∀ t p r, .runqueueAdd t p r ∈ s₁.log → r = none) : Placed K a s₁ where
  __ := h
  ready := by rw [hrq]; exact h.ready
  device := by
    intro d
    rw [hdev]
    exact (h.device d).congr fun t _ => (htcb t).1.symm
  mutex := by
    intro m
    rw [hmutex]
    exact (h.mutex m).congr fun t _ => (htcb t).2.1.symm
  pending := by
    intro t hk
    rw [(htcb t).2.2]
    exact h.pending t hk
  noDrop := hlog

theorem emit (h : Placed K a s) {e : Event} (he : ∀ t p r, e ≠ .runqueueAdd t p r) :
    Placed K a (s.emit e) where
  __ := h
  noDrop := by
    intro t p r hm
    rcases List.mem_cons.mp hm with heq | hm
    · exact absurd heq.symm (he t p r)
    · exact h.noDrop t p r hm

theorem ret (h : Placed K a s) (call : Call) (v : Int) : Placed K a (s.ret call v) :=
  h.emit (by simp)

theorem enableInterrupts (h : Placed K a s) : Placed K a s.enableInterrupts where
  __ := h

theorem setTcb (h : Placed K a s) (t : TcbPtr) (f : Tcb → Tcb)
    (hs : (f (s.systemTcb t)).sleepQueue = (s.systemTcb t).sleepQueue)
    (hm : (f (s.systemTcb t)).mutexSleepQueue = (s.systemTcb t).mutexSleepQueue)
    (hp : (f (s.systemTcb t)).pending = (s.systemTcb t).pending) :
    Placed K a (s.setTcb t f) := by
  refine h.congr rfl (fun _ => rfl) (fun _ => rfl) ?_ h.noDrop
  intro u
  change (Function.update s.systemTcb t (f (s.systemTcb t)) u).sleepQueue = _ ∧
    (Function.update s.systemTcb t (f (s.systemTcb t)) u).mutexSleepQueue = _ ∧
    (Function.update s.systemTcb t (f (s.systemTcb t)) u).pending = _
  by_cases hu : u = t
  · subst hu
    rw [Function.update_self]
    exact ⟨hs, hm, hp⟩
  · rw [Function.update_of_ne hu]
    exact ⟨rfl, rfl, rfl⟩

theorem setMutex (h : Placed K a s) (m : Nat) (f : Mutex → Mutex)
    (hq : (f (s.gtMutex m)).pSleepQueue = (s.gtMutex m).pSleepQueue) :
    Placed K a (s.setMutex m f) := by
  refine h.congr rfl (fun _ => rfl) ?_ (fun _ => ⟨rfl, rfl, rfl⟩) h.noDrop
  intro i
  change (Function.update s.gtMutex m (f (s.gtMutex m)) i).pSleepQueue = _
  by_cases hi : i = m
  · subst hi
    rw [Function.update_self, hq]
  · rw [Function.update_of_ne hi]

theorem setDev (h : Placed K a s) (d : Nat) (f : Dev → Dev)
    (hq : (f (s.devices d)).sleepQ = (s.devices d).sleepQ) : Placed K a (s.setDev d f) := by
  refine h.congr rfl ?_ (fun _ => rfl) (fun _ => ⟨rfl, rfl, rfl⟩) h.noDrop
  intro i
  change (Function.update s.devices d (f (s.devices d)) i).sleepQ = _
  by_cases hi : i = d
  · subst hi
    rw [Function.update_self, hq]
  · rw [Function.update_of_ne hi]

theorem mutexLockTail (h : Placed K a s) (m : Nat) (t : TcbPtr) :
    Placed K a (s.mutexLockTail m t) :=
  ((h.setTcb t _ rfl rfl rfl).setMutex m _ rfl).enableInterrupts.ret _ _

/-- What has to be checked when one task changes its place. -/
theorem moved (h : Placed K a s) {p : Place} (ht : a.place t ≠ .absent) (hp : p ≠ .absent)
    (hready : ∀ u, s₁.rq.runList u.val = some u ↔
      if u = t then p = .ready else s.rq.runList u.val = some u)
    (hdev : ∀ d, IntrusiveChain s₁.sleepLink (s₁.devices d).sleepQ
      ((a.move t p).line (.device d)))
    (hmutex : ∀ m, IntrusiveChain s₁.mutexLink (s₁.gtMutex m).pSleepQueue
      ((a.move t p).line (.mutex m)))
    (hpend : ∀ u, (s₁.systemTcb u).pending = 1 ↔
      if u = t then ∃ m, p = .mutex m else (s.systemTcb u).pending = 1)
    (hdrange : ∀ d, p = .device d → d < numDevices)
    (hmrange : ∀ m, p = .mutex m → m < osNumMutex)
    (hlog : ∀ t p r, .runqueueAdd t p r ∈ s₁.log → r = none) : Placed K (a.move t p) s₁ where
  absent := by
    intro u
    rw [Placement.place_move]
    split_ifs with hu
    · subst hu
      exact iff_of_false hp (not_not.mpr (h.known ht))
    · exact h.absent u
  ready := by
    intro u
    rw [Placement.place_move, hready]
    split_ifs with hu
    · exact Iff.rfl
    · exact h.ready u
  device := hdev
  mutex := hmutex
  pending := by
    intro u hk
    rw [Placement.place_move, hpend]
    split_ifs with hu
    · exact Iff.rfl
    · exact h.pending u hk
  deviceRange := by
    intro u d
    rw [Placement.place_move]
    split_ifs with hu
    · exact hdrange d
    · exact h.deviceRange u d
  mutexRange := by
    intro u m
    rw [Placement.place_move]
    split_ifs with hu
    · exact hmrange m
    · exact h.mutexRange u m
  noDrop := hlog

/-- A move between the processor and the run queue. -/
theorem moved_ready (h : Placed K a s) {p : Place} (ht : a.place t = .running ∨ a.place t = .ready)
    (hp : p = .running ∨ p = .ready)
    (hready : ∀ u, s₁.rq.runList u.val = some u ↔
      if u = t then p = .ready else s.rq.runList u.val = some u)
    (htcb : s₁.systemTcb = s.systemTcb) (hmutex : s₁.gtMutex = s.gtMutex)
    (hdev : s₁.devices = s.devices)
    (hlog : ∀ t p r, .runqueueAdd t p r ∈ s₁.log → r = none) : Placed K (a.move t p) s₁ := by
  have hlink : s₁.sleepLink = s.sleepLink ∧ s₁.mutexLink = s.mutexLink := by
    unfold KState.sleepLink KState.mutexLink
    rw [htcb]
    exact ⟨rfl, rfl⟩
  have hne (q : Place) (hr : q ≠ .running) (hq : q ≠ .ready) : a.place t ≠ q ∧ q ≠ p := by
    constructor
    · rcases ht with ht | ht <;> rw [ht] <;> exact Ne.symm (by assumption)
    · rcases hp with rfl | rfl <;> assumption
  refine h.moved (hne _ (by simp) (by simp)).1 (hne _ (by simp) (by simp)).2.symm hready ?_ ?_ ?_
    ?_ ?_ hlog
  · intro d
    obtain ⟨h₁, h₂⟩ := hne (.device d) (by simp) (by simp)
    rw [Placement.line_move_of_ne h₁ h₂, hlink.1, hdev]
    exact h.device d
  · intro m
    obtain ⟨h₁, h₂⟩ := hne (.mutex m) (by simp) (by simp)
    rw [Placement.line_move_of_ne h₁ h₂, hlink.2, hmutex]
    exact h.mutex m
  · intro u
    rw [htcb]
    split_ifs with hu
    · subst hu
      have hk : K u := h.known (hne _ (by simp) (by simp)).1
      rw [h.pending u hk]
      refine iff_of_false ?_ ?_
      · rintro ⟨m, hm⟩
        exact (hne (.mutex m) (by simp) (by simp)).1 hm
      · rintro ⟨m, hm⟩
        exact (hne (.mutex m) (by simp) (by simp)).2 hm.symm
    · exact Iff.rfl
  · intro d hd
    exact absurd hd.symm (hne (.device d) (by simp) (by simp)).2
  · intro m hm
    exact absurd hm.symm (hne (.mutex m) (by simp) (by simp)).2

end Placed

end KState

end RtosKernel
