import RtosKernel.Kernel.System

namespace RtosKernel.KState

variable {ok : KState → Op → Prop} {regs : SchedContext} {s s' : KState}

theorem Run.steps {n : Nat} (hr : Run ok n s) (h : Relation.ReflTransGen (Step ok) s s') :
    Run ok n s' := by
  induction h with
  | refl => exact hr
  | tail _ hs ih => exact .step ih hs

instance : ∀ s op, Decidable (bootOp s op)
  | _, .call .mutexCreate => isTrue trivial
  | _, .timer _ => isTrue trivial
  | _, .call (.mutexLock _) => isFalse id
  | _, .call (.mutexUnlock _) => isFalse id
  | _, .call (.eventWait _) => isFalse id
  | _, .call (.taskCreate _ _) => isFalse id

instance : ∀ s op, Decidable (sameSet s op)
  | _, .call .mutexCreate => isTrue trivial
  | _, .timer _ => isTrue trivial
  | _, .call (.mutexLock _) => isTrue trivial
  | _, .call (.mutexUnlock _) => isTrue trivial
  | _, .call (.eventWait dev) => inferInstanceAs (Decidable (dev < numDevices))
  | _, .call (.taskCreate _ _) => isFalse id

instance : ∀ s op, Decidable (anySet s op)
  | _, .call .mutexCreate => isTrue trivial
  | _, .timer _ => isTrue trivial
  | _, .call (.mutexLock _) => isTrue trivial
  | _, .call (.mutexUnlock _) => isTrue trivial
  | _, .call (.eventWait dev) => inferInstanceAs (Decidable (dev < numDevices))
  | _, .call (.taskCreate _ _) => isTrue trivial

/-- Run a list of operations; `none` when one is not allowed or does not end. -/
def execute (ok : KState → Op → Prop) [∀ s op, Decidable (ok s op)] (regs : SchedContext) :
    List Op → KState → Option KState
  | [], s => some s
  | .call c :: ops, s =>
    if ok s (.call c) ∧ s.curTcb ≠ some idleTcb then
      match s.step regs (.call c) with
      | .ok s' => execute ok regs ops s'
      | .error _ => none
    else none
  | .timer millis :: ops, s =>
    if ok s (.timer millis) then
      match s.step regs (.timer millis) with
      | .ok s' => execute ok regs ops s'
      | .error _ => none
    else none

/-- `task_create`, if it admits the set and returns to user mode. -/
def createSet (regs : SchedContext) (tasks : Nat → Task) (n : Nat) (s : KState) :
    Option KState :=
  match taskAdmit n ⟨tasks, [], []⟩ with
  | .ok (_, none) => match s.step regs (.call (.taskCreate tasks n)) with
    | .ok s' => some s'
    | .error _ => none
  | _ => none

theorem createSet_creates {tasks : Nat → Task} {n : Nat} (h : createSet regs tasks n s = some s') :
    Creates tasks n regs s s' := by
  unfold createSet at h
  split at h
  · rename_i mem hadm
    split at h
    · rename_i s₁ hs
      cases h
      exact ⟨⟨mem, hadm⟩, hs⟩
    · cases h
  · cases h

/-- Boot, create `mutexes` mutexes and start a set of `n` tasks. -/
def startSet (regs : SchedContext) (mutexes : Nat) (tasks : Nat → Task) (n : Nat) :
    Option KState :=
  (execute bootOp regs (List.replicate mutexes (.call .mutexCreate)) boot).bind
    (createSet regs tasks n)

/-- Tasks to try the kernel on: period 100 for the first, 200 for the second, and so on. -/
def sampleTasks (i : Nat) : Task where
  lambda := 0xa0000000
  data := i
  stackPos := 0xa1000000
  C := 10
  T := 100 * (i + 1)
  B := 0

variable [∀ s op, Decidable (ok s op)]

theorem execute_steps {ops : List Op} (h : execute ok regs ops s = some s') :
    Relation.ReflTransGen (Step ok) s s' := by
  induction ops generalizing s with
  | nil =>
    cases h
    exact .refl
  | cons op ops ih =>
    cases op with
    | call c =>
      rw [execute] at h
      split_ifs at h with hok
      split at h
      · rename_i s₁ hs
        exact .head (.call regs c hok.1 hok.2 hs) (ih h)
      · cases h
    | timer millis =>
      rw [execute] at h
      split_ifs at h with hok
      split at h
      · rename_i s₁ hs
        exact .head (.timer regs millis hok hs) (ih h)
      · cases h

/-- What the executor computes is a run. -/
theorem execute_run {ops : List Op} {n mutexes : Nat} {tasks : Nat → Task}
    (h : (startSet regs mutexes tasks n).bind (execute ok regs ops) = some s) : Run ok n s := by
  obtain ⟨s₁, hs₁, hx⟩ := Option.bind_eq_some_iff.mp h
  obtain ⟨s₀, hboot, hc⟩ := Option.bind_eq_some_iff.mp hs₁
  exact Run.steps (.start tasks regs (execute_steps hboot) (createSet_creates hc))
    (execute_steps hx)

end RtosKernel.KState
