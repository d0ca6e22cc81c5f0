import Mathlib.Data.Fin.Basic
import Mathlib.Logic.Function.Basic
import Mathlib.Tactic.Ring

namespace RtosKernel

abbrev osMaxTasks : Nat := 64

/-- `IDLE_PRIO`, which is also the index of the idle TCB. -/
abbrev idlePrio : Nat := 63

/-- A non-NULL `tcb_t*`: the address of one entry of `system_tcb`. -/
abbrev TcbPtr := Fin osMaxTasks

def prioUnmapTable : List Nat := [
  0, 0, 1, 0, 2, 0, 1, 0, 3, 0, 1, 0, 2, 0, 1, 0,
  4, 0, 1, 0, 2, 0, 1, 0, 3, 0, 1, 0, 2, 0, 1, 0,
  5, 0, 1, 0, 2, 0, 1, 0, 3, 0, 1, 0, 2, 0, 1, 0,
  4, 0, 1, 0, 2, 0, 1, 0, 3, 0, 1, 0, 2, 0, 1, 0,
  6, 0, 1, 0, 2, 0, 1, 0, 3, 0, 1, 0, 2, 0, 1, 0,
  4, 0, 1, 0, 2, 0, 1, 0, 3, 0, 1, 0, 2, 0, 1, 0,
  5, 0, 1, 0, 2, 0, 1, 0, 3, 0, 1, 0, 2, 0, 1, 0,
  4, 0, 1, 0, 2, 0, 1, 0, 3, 0, 1, 0, 2, 0, 1, 0,
  7, 0, 1, 0, 2, 0, 1, 0, 3, 0, 1, 0, 2, 0, 1, 0,
  4, 0, 1, 0, 2, 0, 1, 0, 3, 0, 1, 0, 2, 0, 1, 0,
  5, 0, 1, 0, 2, 0, 1, 0, 3, 0, 1, 0, 2, 0, 1, 0,
  4, 0, 1, 0, 2, 0, 1, 0, 3, 0, 1, 0, 2, 0, 1, 0,
  6, 0, 1, 0, 2, 0, 1, 0, 3, 0, 1, 0, 2, 0, 1, 0,
  4, 0, 1, 0, 2, 0, 1, 0, 3, 0, 1, 0, 2, 0, 1, 0,
  5, 0, 1, 0, 2, 0, 1, 0, 3, 0, 1, 0, 2, 0, 1, 0,
  4, 0, 1, 0, 2, 0, 1, 0, 3, 0, 1, 0, 2, 0, 1, 0]

/-- `run_list`, `run_bits` and `group_run_bits` of `run_queue.c`. -/
structure RunQueue where
  runList : Nat → Option TcbPtr
  runBits : Nat → BitVec 8
  groupRunBits : BitVec 8

namespace RunQueue

def runqueueInit : RunQueue := ⟨fun _ => none, fun _ => 0#8, 0#8⟩

/-- Both bits are set whatever the slot holds; an occupied slot keeps its TCB. -/
def runqueueAdd (tcb : TcbPtr) (prio : Nat) (q : RunQueue) : RunQueue :=
  let ostcby := prio >>> 3
  let ostcbx := prio &&& 0x07
  { groupRunBits := q.groupRunBits ||| (1#8 <<< ostcby)
    runBits := Function.update q.runBits ostcby (q.runBits ostcby ||| (1#8 <<< ostcbx))
    runList := if q.runList prio = none then Function.update q.runList prio (some tcb)
      else q.runList }

def runqueueRemove (prio : Nat) (q : RunQueue) : RunQueue × Option TcbPtr :=
  let ostcby := prio >>> 3
  let ostcbx := prio &&& 0x07
  let bits := q.runBits ostcby &&& ~~~(1#8 <<< ostcbx)
  ({ runList := Function.update q.runList prio none
     runBits := Function.update q.runBits ostcby bits
     groupRunBits := if bits = 0#8 then q.groupRunBits &&& ~~~(1#8 <<< ostcby)
       else q.groupRunBits }, q.runList prio)

def highestPrio (q : RunQueue) : Nat :=
  let ostcby := prioUnmapTable.getD q.groupRunBits.toNat 0
  let ostcbx := prioUnmapTable.getD (q.runBits ostcby).toNat 0
  (ostcby <<< 3) + ostcbx

structure Wf (q : RunQueue) : Prop where
  bit : ∀ p < osMaxTasks, (q.runBits (p / 8)).getLsbD (p % 8) = (q.runList p).isSome
  group : ∀ g < 8, q.groupRunBits.getLsbD g = decide (q.runBits g ≠ 0#8)

def Occupied (q : RunQueue) (p : Nat) : Prop := p < osMaxTasks ∧ q.runList p ≠ none

private theorem slot_split (p : Nat) : p >>> 3 = p / 8 ∧ p &&& 0x07 = p % 8 := by
  refine ⟨Nat.shiftRight_eq_div_pow p 3, ?_⟩
  exact Nat.and_two_pow_sub_one_eq_mod p 3

private theorem getLsbD_bit (x i : Nat) (hi : i < 8) :
    (1#8 <<< x).getLsbD i = decide (i = x) := by
  by_cases h : i = x
  · subst h; simp [hi]
  · simp only [BitVec.getLsbD_shiftLeft, BitVec.getLsbD_one, h]
    by_cases hx : i < x
    · simp [hx]
    · simp [show i - x ≠ 0 by omega]

private theorem eq_zero_iff_bits (b : BitVec 8) :
    b = 0#8 ↔ ∀ i < 8, b.getLsbD i = false := by
  constructor
  · rintro rfl i _
    simp
  · intro h
    apply BitVec.eq_of_getLsbD_eq
    intro i hi
    simpa using h i hi

/-- What the table is for: the lowest set bit of every non-zero byte. -/
theorem prioUnmapTable_lowest (b : BitVec 8) (hb : b ≠ 0#8) :
    prioUnmapTable.getD b.toNat 0 < 8 ∧
    b.getLsbD (prioUnmapTable.getD b.toNat 0) = true ∧
    ∀ j < prioUnmapTable.getD b.toNat 0, b.getLsbD j = false := by
  revert b
  decide +kernel

theorem highestPrio_lt (q : RunQueue) : highestPrio q < osMaxTasks := by
  have table (b : BitVec 8) : prioUnmapTable.getD b.toNat 0 < 8 := by
    revert b
    decide +kernel
  have hy := table q.groupRunBits
  have hx := table (q.runBits (prioUnmapTable.getD q.groupRunBits.toNat 0))
  have hlt : highestPrio q < 64 := by
    simp only [highestPrio, Nat.shiftLeft_eq]
    omega
  exact hlt

theorem wf_init : Wf runqueueInit :=
  ⟨fun p _ => by simp [runqueueInit], fun g _ => by simp [runqueueInit]⟩

@[simp] theorem runqueueAdd_runList (t : TcbPtr) (p : Nat) (q : RunQueue) :
    (runqueueAdd t p q).runList =
      if q.runList p = none then Function.update q.runList p (some t) else q.runList := rfl

@[simp] theorem runqueueRemove_runList (p : Nat) (q : RunQueue) :
    (runqueueRemove p q).1.runList = Function.update q.runList p none := rfl

@[simp] theorem runqueueRemove_tcb (p : Nat) (q : RunQueue) :
    (runqueueRemove p q).2 = q.runList p := rfl

theorem Wf.add {q : RunQueue} (hq : Wf q) (t : TcbPtr) (p : Nat) (hp : p < osMaxTasks) :
    Wf (runqueueAdd t p q) := by
  have hs := slot_split p
  have hx : p % 8 < 8 := Nat.mod_lt _ (by decide)
  constructor
  · intro r hr
    have hlist : ((runqueueAdd t p q).runList r).isSome =
        (decide (r = p) || (q.runList r).isSome) := by
      rw [runqueueAdd_runList]
      by_cases hn : q.runList p = none
      · by_cases h : r = p
        · subst h; simp [hn]
        · simp [hn, h]
      · by_cases h : r = p
        · subst h; simp [hn, Option.isSome_iff_ne_none]
        · simp [hn, h]
    rw [hlist, ← hq.bit r hr]
    simp only [runqueueAdd, hs.1, hs.2]
    by_cases hy : r / 8 = p / 8
    · have hrp : (r % 8 = p % 8) = (r = p) := by
        apply propext; constructor <;> intro h <;> omega
      rw [hy, Function.update_self, BitVec.getLsbD_or,
        getLsbD_bit _ _ (Nat.mod_lt _ (by decide)), Bool.or_comm]
      simp only [hrp]
    · have hne : r ≠ p := fun h => hy (by rw [h])
      simp [Function.update_of_ne hy, hne]
  · intro g hg
    simp only [runqueueAdd, hs.1, hs.2, BitVec.getLsbD_or, hq.group g hg, getLsbD_bit _ _ hg]
    by_cases hy : g = p / 8
    · subst hy
      have hset : (q.runBits (p / 8) ||| 1#8 <<< (p % 8)) ≠ 0#8 := by
        intro h
        have := (eq_zero_iff_bits _).mp h (p % 8) hx
        rw [BitVec.getLsbD_or, getLsbD_bit _ _ hx] at this
        simp at this
      simp [hset]
    · simp [hy]

theorem Wf.remove {q : RunQueue} (hq : Wf q) (p : Nat) (hp : p < osMaxTasks) :
    Wf (runqueueRemove p q).1 := by
  have hs := slot_split p
  have hy8 : p / 8 < 8 := by have : p < 64 := hp; omega
  constructor
  · intro r hr
    simp only [runqueueRemove_runList]
    simp only [runqueueRemove, hs.1, hs.2]
    by_cases hy : r / 8 = p / 8
    · rw [hy, Function.update_self, BitVec.getLsbD_and, BitVec.getLsbD_not,
        getLsbD_bit _ _ (Nat.mod_lt _ (by decide)), ← hy, hq.bit r hr]
      by_cases h : r = p
      · subst h; simp
      · have hm : r % 8 ≠ p % 8 := by omega
        simp [hm, h, Nat.mod_lt]
    · have hne : r ≠ p := fun h => hy (by rw [h])
      rw [Function.update_of_ne hy, Function.update_of_ne hne, hq.bit r hr]
  · intro g hg
    simp only [runqueueRemove, hs.1, hs.2]
    by_cases hy : g = p / 8
    · subst hy
      rw [Function.update_self]
      split_ifs with hz
      · simp [hz, getLsbD_bit _ _ hy8]
      · rw [hq.group _ hy8]
        have hne : q.runBits (p / 8) ≠ 0#8 := by
          intro h
          rw [h] at hz
          simp at hz
        simp [hz, hne]
    · rw [Function.update_of_ne hy]
      split_ifs with hz
      · rw [BitVec.getLsbD_and, BitVec.getLsbD_not, getLsbD_bit _ _ hg, hq.group g hg]
        simp [hy, hg]
      · exact hq.group g hg

/-- Group lookup then byte lookup finds the least occupied slot. -/
theorem highestPrio_least {q : RunQueue} (hq : Wf q) {p : Nat} (hp : q.Occupied p) :
    q.Occupied (highestPrio q) ∧ ∀ r, q.Occupied r → highestPrio q ≤ r := by
  have bitOf (r : Nat) (hr : q.Occupied r) : (q.runBits (r / 8)).getLsbD (r % 8) = true := by
    rw [hq.bit r hr.1]; exact Option.isSome_iff_ne_none.mpr hr.2
  have byteOf (r : Nat) (hr : q.Occupied r) : q.groupRunBits.getLsbD (r / 8) = true := by
    have h64 : r < 64 := hr.1
    rw [hq.group (r / 8) (by omega)]
    have hb := bitOf r hr
    simp only [ne_eq, decide_not, Bool.not_eq_eq_eq_not, Bool.not_true, decide_eq_false_iff_not]
    intro hz
    rw [hz] at hb
    simp at hb
  have hg : q.groupRunBits ≠ 0#8 := by
    intro h
    have hb := byteOf p hp
    rw [h] at hb
    simp at hb
  obtain ⟨hy8, hybit, hylow⟩ := prioUnmapTable_lowest q.groupRunBits hg
  generalize hyd : prioUnmapTable.getD q.groupRunBits.toNat 0 = y at hy8 hybit hylow
  have hb : q.runBits y ≠ 0#8 := by
    rw [hq.group y hy8] at hybit
    exact of_decide_eq_true hybit
  obtain ⟨hx8, hxbit, hxlow⟩ := prioUnmapTable_lowest (q.runBits y) hb
  generalize hxd : prioUnmapTable.getD (q.runBits y).toNat 0 = x at hx8 hxbit hxlow
  have hv : highestPrio q = 8 * y + x := by
    simp only [highestPrio, hyd, hxd, Nat.shiftLeft_eq]
    omega
  have hdiv : (8 * y + x) / 8 = y := by omega
  have hmod : (8 * y + x) % 8 = x := by omega
  have hlt : 8 * y + x < osMaxTasks := by
    have : 8 * y + x < 64 := by omega
    exact this
  rw [hv]
  refine ⟨⟨hlt, ?_⟩, ?_⟩
  · have h := hq.bit _ hlt
    rw [hdiv, hmod, hxbit] at h
    exact Option.isSome_iff_ne_none.mp h.symm
  · intro r hr
    by_contra hlow
    have hry : ¬ r / 8 < y := fun h => by
      have := hylow _ h
      rw [byteOf r hr] at this
      simp at this
    have hrx : r / 8 = y ∧ r % 8 < x := by omega
    have := hxlow _ hrx.2
    rw [← hrx.1, bitOf r hr] at this
    simp at this

end RunQueue

end RtosKernel
