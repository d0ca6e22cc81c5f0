import Mathlib.Data.List.Pairwise
import Mathlib.Logic.Function.Basic

namespace CopyLoop

variable {ι α β : Type} [DecidableEq α] {dst src : ι → α} {is : List ι} {mem : α → β} {a : α}
  {i : ι}

/-- Copy cell by cell in the given order: what is at `src i` now goes to `dst i`. -/
def copy (dst src : ι → α) (is : List ι) (mem : α → β) : α → β :=
  is.foldl (fun mem i => Function.update mem (dst i) (mem (src i))) mem

theorem copy_cons : copy dst src (i :: is) mem =
    copy dst src is (Function.update mem (dst i) (mem (src i))) := rfl

/-- Only the destinations change. -/
theorem copy_frame (h : ∀ i ∈ is, a ≠ dst i) : copy dst src is mem a = mem a := by
  induction is generalizing mem with
  | nil => rfl
  | cons i is ih =>
    have hrest : ∀ j ∈ is, a ≠ dst j := fun j hj => h j (List.mem_cons_of_mem i hj)
    rw [copy_cons, ih hrest]
    exact Function.update_of_ne (h i List.mem_cons_self) ..

/-- In an order where no cell is written before it is read, the copy is that of the memory before
the loop. -/
theorem copy_dst (h : is.Pairwise fun i j => dst i ≠ dst j ∧ dst i ≠ src j) (hi : i ∈ is) :
    copy dst src is mem (dst i) = mem (src i) := by
  induction is generalizing mem with
  | nil => cases hi
  | cons k is ih =>
    obtain ⟨hfirst, hrest⟩ := List.pairwise_cons.mp h
    rw [copy_cons]
    rcases List.mem_cons.mp hi with rfl | hmem
    · rw [copy_frame fun j hj => (hfirst j hj).1]
      exact Function.update_self ..
    · rw [ih hrest hmem]
      exact Function.update_of_ne (hfirst i hmem).2.symm ..

end CopyLoop
