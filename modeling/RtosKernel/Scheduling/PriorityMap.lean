import Mathlib.Order.Bounds.Basic
import RtosKernel.Kernel.RunQueue
import RtosKernel.Math.Refinement

namespace RtosKernel

/-- What a run queue is for: at most one entry for each priority. -/
abbrev PrioMap (α : Type) := Nat → Option α

namespace PrioMap

variable {α : Type}

def empty : PrioMap α := fun _ => none

/-- A key that is present keeps its entry. -/
def add (a : α) (prio : Nat) (m : PrioMap α) : PrioMap α :=
  if m prio = none then Function.update m prio (some a) else m

def remove (prio : Nat) (m : PrioMap α) : PrioMap α × Option α :=
  (Function.update m prio none, m prio)

/-- The priorities in use. -/
def keys (m : PrioMap α) : Set Nat := {p | m p ≠ none}

end PrioMap

/-- The calls that change a run queue. -/
inductive QueueCall where
  | runqueueInit
  | runqueueAdd (tcb : TcbPtr) (prio : Nat)
  | runqueueRemove (prio : Nat)

/-- The priority is one of `run_list`. -/
def QueueCall.InRange : QueueCall → Prop
  | runqueueInit => True
  | runqueueAdd _ prio => prio < osMaxTasks
  | runqueueRemove prio => prio < osMaxTasks

/-- `run_queue.c`; only `runqueue_remove` answers. -/
def queueCode : Machine RunQueue QueueCall (Option TcbPtr) where
  step
    | .runqueueInit, _ => (RunQueue.runqueueInit, none)
    | .runqueueAdd tcb prio, q => (q.runqueueAdd tcb prio, none)
    | .runqueueRemove prio, q => q.runqueueRemove prio

/-- The same calls on a priority map. -/
def queueSpec : Machine (PrioMap TcbPtr) QueueCall (Option TcbPtr) where
  step
    | .runqueueInit, _ => (PrioMap.empty, none)
    | .runqueueAdd tcb prio, m => (m.add tcb prio, none)
    | .runqueueRemove prio, m => m.remove prio

namespace RunQueue

/-- The three structures of the run queue are in step, and hold `m`. -/
structure Represents (q : RunQueue) (m : PrioMap TcbPtr) : Prop where
  wf : q.Wf
  entry : ∀ p, q.runList p = m p
  inRange : ∀ p ∈ m.keys, p < osMaxTasks

theorem represents_init : Represents runqueueInit PrioMap.empty where
  wf := wf_init
  entry := fun _ => rfl
  inRange := fun _ hp => absurd rfl hp

variable {q : RunQueue} {m : PrioMap TcbPtr}

theorem Represents.add (h : Represents q m) (tcb : TcbPtr) {prio : Nat}
    (hprio : prio < osMaxTasks) : Represents (q.runqueueAdd tcb prio) (m.add tcb prio) where
  wf := h.wf.add tcb prio hprio
  entry := by
    have hlist : q.runList = m := funext h.entry
    intro p
    rw [runqueueAdd_runList, hlist]
    rfl
  inRange := by
    intro p hp
    by_cases hpp : p = prio
    · rw [hpp]
      exact hprio
    · apply h.inRange p
      have hsame : m.add tcb prio p = m p := by
        unfold PrioMap.add
        split_ifs
        · exact Function.update_of_ne hpp ..
        · rfl
      show m p ≠ none
      rw [← hsame]
      exact hp

theorem Represents.remove (h : Represents q m) {prio : Nat} (hprio : prio < osMaxTasks) :
    Represents (q.runqueueRemove prio).1 (m.remove prio).1 where
  wf := h.wf.remove prio hprio
  entry := by
    have hlist : q.runList = m := funext h.entry
    intro p
    rw [runqueueRemove_runList, hlist]
    rfl
  inRange := by
    intro p hp
    apply h.inRange p
    intro hnone
    apply hp
    show Function.update m prio none p = none
    rw [Function.update_apply, hnone, ite_self]

/-- The two-level table lookup finds the least key. -/
theorem Represents.highestPrio (h : Represents q m) (hne : m.keys.Nonempty) :
    IsLeast m.keys q.highestPrio := by
  have hkey (p : Nat) : q.Occupied p ↔ p ∈ m.keys := by
    unfold Occupied
    rw [h.entry]
    exact ⟨And.right, fun hp => ⟨h.inRange p hp, hp⟩⟩
  obtain ⟨p, hp⟩ := hne
  obtain ⟨hocc, hleast⟩ := highestPrio_least h.wf ((hkey p).mpr hp)
  exact ⟨(hkey _).mp hocc, fun r hr => hleast r ((hkey r).mpr hr)⟩

end RunQueue

theorem queueCode_refines : queueCode.Refines queueSpec QueueCall.InRange RunQueue.Represents := by
  intro call q m hok h
  cases call with
  | runqueueInit => exact ⟨rfl, RunQueue.represents_init⟩
  | runqueueAdd tcb prio => exact ⟨rfl, h.add tcb hok⟩
  | runqueueRemove prio => exact ⟨h.entry prio, h.remove hok⟩

/-- Whatever is called, the run queue holds what the map holds and finds its least key. -/
theorem runQueueMap (calls : List QueueCall) (hok : ∀ c ∈ calls, c.InRange) :
    let q := (queueCode.run calls RunQueue.runqueueInit).1
    let m := (queueSpec.run calls PrioMap.empty).1
    (queueCode.run calls RunQueue.runqueueInit).2 = (queueSpec.run calls PrioMap.empty).2 ∧
    (∀ p < osMaxTasks, (q.runBits (p / 8)).getLsbD (p % 8) = true ↔ q.runList p ≠ none) ∧
    (∀ g < 8, q.groupRunBits.getLsbD g = true ↔ q.runBits g ≠ 0#8) ∧
    (∀ p, q.runList p = m p) ∧
    (m.keys.Nonempty → IsLeast m.keys q.highestPrio) := by
  obtain ⟨hanswers, hrep⟩ := queueCode_refines.run hok RunQueue.represents_init
  refine ⟨hanswers, ?_, ?_, hrep.entry, hrep.highestPrio⟩
  · intro p hp
    rw [hrep.wf.bit p hp, Option.isSome_iff_ne_none]
  · intro g hg
    rw [hrep.wf.group g hg, decide_eq_true_iff]

/-- An occupied slot keeps its TCB, and the removal of an empty one finds nothing. -/
theorem runQueueMap_occupied :
    let calls := [.runqueueAdd 5 5, .runqueueAdd 3 5, .runqueueAdd 20 20, .runqueueRemove 7]
    (∀ c ∈ calls, c.InRange) ∧
      IsLeast (queueSpec.run calls PrioMap.empty).1.keys
        (queueCode.run calls RunQueue.runqueueInit).1.highestPrio := by
  have hok : ∀ c ∈ [QueueCall.runqueueAdd 5 5, .runqueueAdd 3 5, .runqueueAdd 20 20,
      .runqueueRemove 7], c.InRange := by
    simp [QueueCall.InRange, osMaxTasks]
  refine ⟨hok, (runQueueMap _ hok).2.2.2.2 ⟨5, ?_⟩⟩
  simp [PrioMap.keys, Machine.run, queueSpec, PrioMap.add, PrioMap.remove, PrioMap.empty]

end RtosKernel
