import RtosKernel.Queues.Simulation

namespace RtosKernel.KState

variable {K : TcbPtr → Prop} {a : Placement TcbPtr Place} {s : KState} {n : Nat}

/-- The places a TCB can be found in. -/
inductive Spot where
  | cur
  | runList (prio : Nat)
  | sleepQ (dev : Nat)
  | mutexSleepQueue (mutex : Nat)

/-- `t` is found at that spot of the kernel's own data structures. -/
def At (s : KState) (t : TcbPtr) : Spot → Prop
  | .cur => s.curTcb = some t
  | .runList prio => s.rq.runList prio = some t
  | .sleepQ dev => dev < numDevices ∧
      ∃ l, IntrusiveChain s.sleepLink (s.devices dev).sleepQ l ∧ t ∈ l
  | .mutexSleepQueue mutex => mutex < osNumMutex ∧
      ∃ l, IntrusiveChain s.mutexLink (s.gtMutex mutex).pSleepQueue l ∧ t ∈ l

/-- No task is lost or duplicated. -/
structure EachInOnePlace (n : Nat) (s : KState) : Prop where
  place : ∀ t, IsTask n t → ∃! spot, s.At t spot
  sleepQ : ∀ dev, dev < numDevices →
    ∃ l, IntrusiveChain s.sleepLink (s.devices dev).sleepQ l ∧ l.Nodup ∧ ∀ t ∈ l, IsTask n t
  mutexSleepQueue : ∀ mutex, mutex < osNumMutex →
    ∃ l, IntrusiveChain s.mutexLink (s.gtMutex mutex).pSleepQueue l ∧ l.Nodup ∧
      ∀ t ∈ l, IsTask n t
  pending : ∀ t, IsTask n t →
    ((s.systemTcb t).pending = 1 ↔ ∃ mutex, s.At t (.mutexSleepQueue mutex))
  /-- `runqueue_add` has always found its slot empty. -/
  noDrop : ∀ t prio slot, .runqueueAdd t prio slot ∈ s.log → slot = none

theorem Located.at_sleepQ (h : Located K a s) (t : TcbPtr) (dev : Nat) :
    s.At t (.sleepQ dev) ↔ a.place t = .device dev := by
  constructor
  · rintro ⟨_, l, hl, ht⟩
    rw [hl.unique (h.device dev)] at ht
    exact (a.mem_line _ _).mp ht
  · intro ht
    exact ⟨h.deviceRange t dev ht, _, h.device dev, (a.mem_line _ _).mpr ht⟩

theorem Located.at_mutexSleepQueue (h : Located K a s) (t : TcbPtr) (mutex : Nat) :
    s.At t (.mutexSleepQueue mutex) ↔ a.place t = .mutex mutex := by
  constructor
  · rintro ⟨_, l, hl, ht⟩
    rw [hl.unique (h.mutex mutex)] at ht
    exact (a.mem_line _ _).mp ht
  · intro ht
    exact ⟨h.mutexRange t mutex ht, _, h.mutex mutex, (a.mem_line _ _).mpr ht⟩

theorem Located.at_runList (h : Located K a s) (hd : Disciplined K s) (t : TcbPtr) (prio : Nat) :
    s.At t (.runList prio) ↔ a.place t = .ready ∧ prio = t.val := by
  constructor
  · intro ht
    have hv : t.val = prio := (hd.slot prio t ht).1
    subst hv
    exact ⟨(h.ready t).mpr ht, rfl⟩
  · rintro ⟨ht, rfl⟩
    exact (h.ready t).mp ht

theorem Located.eachInOnePlace (h : Located (IsTask n) a s) (hd : Disciplined (IsTask n) s) :
    EachInOnePlace n s where
  place := by
    intro t ht
    have hat (spot : Spot) : s.At t spot ↔ match spot with
        | .cur => a.place t = .running
        | .runList prio => a.place t = .ready ∧ prio = t.val
        | .sleepQ dev => a.place t = .device dev
        | .mutexSleepQueue mutex => a.place t = .mutex mutex := by
      cases spot with
      | cur => exact (h.running t).symm
      | runList prio => exact h.at_runList hd t prio
      | sleepQ dev => exact h.at_sleepQ t dev
      | mutexSleepQueue mutex => exact h.at_mutexSleepQueue t mutex
    cases hp : a.place t with
    | absent => exact absurd ht ((h.absent t).mp hp)
    | running =>
      refine ⟨.cur, (hat _).mpr hp, fun spot hs => ?_⟩
      have := (hat spot).mp hs
      cases spot <;> simp_all
    | ready =>
      refine ⟨.runList t.val, (hat _).mpr ⟨hp, rfl⟩, fun spot hs => ?_⟩
      have := (hat spot).mp hs
      cases spot <;> simp_all
    | device dev =>
      refine ⟨.sleepQ dev, (hat _).mpr hp, fun spot hs => ?_⟩
      have := (hat spot).mp hs
      cases spot <;> simp_all
    | mutex mutex =>
      refine ⟨.mutexSleepQueue mutex, (hat _).mpr hp, fun spot hs => ?_⟩
      have := (hat spot).mp hs
      cases spot <;> simp_all
  sleepQ := by
    intro dev _
    refine ⟨_, h.device dev, a.nodup _, fun t ht => ?_⟩
    exact h.known (by rw [(a.mem_line _ _).mp ht]; simp)
  mutexSleepQueue := by
    intro mutex _
    refine ⟨_, h.mutex mutex, a.nodup _, fun t ht => ?_⟩
    exact h.known (by rw [(a.mem_line _ _).mp ht]; simp)
  pending := by
    intro t ht
    rw [h.pending t ht]
    exact exists_congr fun m => (h.at_mutexSleepQueue t m).symm
  noDrop := h.noDrop

theorem noTaskLost (h : Run sameSet n s) : EachInOnePlace n s := by
  obtain ⟨a, c, hs, hl⟩ := h.located
  exact hl.eachInOnePlace hs.toDisciplined

theorem noTaskLost_waiters : ∃ s, Run sameSet 2 s ∧ EachInOnePlace 2 s := by
  have hx : ((startSet zeroContext 2 sampleTasks 2).bind (execute sameSet zeroContext
      [.call (.mutexLock 0), .call (.mutexLock 1), .call (.mutexUnlock 1),
        .call (.mutexUnlock 1), .call (.eventWait 0), .call (.mutexLock 0)])).isSome = true := by
    decide +kernel
  obtain ⟨s, hs⟩ := Option.isSome_iff_exists.mp hx
  exact ⟨s, execute_run hs, noTaskLost (execute_run hs)⟩

end RtosKernel.KState
