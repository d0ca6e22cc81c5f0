import Mathlib.Tactic.SplitIfs
import RtosKernel.Kernel.Memory
import RtosKernel.Math.CopyLoop

namespace RtosKernel

variable {dest src count : BitVec 32} {mem : Memory}

/-- The loop of `memmove` from index `i` up to `count`. -/
def moveUp (d s count i : BitVec 32) (mem : Memory) : Memory :=
  if _h : i = count then mem
  else moveUp d s count (i + 1) (Function.update mem (d + i) (mem (s + i)))
termination_by (count - i).toNat
decreasing_by bv_omega

/-- The loop of `memmove` from index `i` down to the first byte. -/
def moveDown (d s i : BitVec 32) (mem : Memory) : Memory :=
  if _h : i = 0 then mem
  else moveDown d s (i - 1) (Function.update mem (d + (i - 1)) (mem (s + (i - 1))))
termination_by i.toNat
decreasing_by bv_omega

/-- The memory after the call, and the value returned. -/
def memmove (dest src count : BitVec 32) (mem : Memory) : Memory × BitVec 32 :=
  if dest < src then (moveUp dest src count 0 mem, dest) else (moveDown dest src count mem, dest)

def memcpy (dest src count : BitVec 32) (mem : Memory) : Memory × BitVec 32 :=
  memmove dest src count mem

/-- `mem'` is `mem` with the bytes from `src` moved to `dest`. -/
structure Moved (dest src count : BitVec 32) (mem mem' : Memory) : Prop where
  bytes : ∀ i < count, mem' (dest + i) = mem (src + i)
  outside : ∀ a : BitVec 32, (a.toNat < dest.toNat ∨ dest.toNat + count.toNat ≤ a.toNat) →
    mem' a = mem a

theorem moveUp_eq (d s : BitVec 32) (k : Nat) (i : BitVec 32) (mem : Memory)
    (h : i.toNat + k = count.toNat) :
    moveUp d s count i mem =
      CopyLoop.copy (d + ·) (s + ·) ((List.range' i.toNat k).map (BitVec.ofNat 32)) mem := by
  induction k generalizing i mem with
  | zero =>
    have heq : i = count := BitVec.eq_of_toNat_eq h
    rw [moveUp, dif_pos heq]
    rfl
  | succ k ih =>
    have hne : i ≠ count := by
      intro heq
      rw [heq] at h
      omega
    have hlt := count.isLt
    have hnext : (i + 1).toNat = i.toNat + 1 := Memory.offset_toNat (by show _ + 1 < _; omega)
    rw [moveUp, dif_neg hne, ih (i + 1) _ (by omega), hnext, List.range'_succ, List.map_cons,
      CopyLoop.copy_cons, Memory.ofNat_index]

theorem moveDown_eq (d s i : BitVec 32) (mem : Memory) :
    moveDown d s i mem = CopyLoop.copy (d + ·) (s + ·) (Memory.indices i.toNat).reverse mem := by
  induction i, mem using moveDown.induct (d := d) (s := s) with
  | case1 mem =>
    rw [moveDown, dif_pos rfl]
    rfl
  | case2 i mem h ih =>
    have hpred : i.toNat = (i - 1).toNat + 1 := by bv_omega
    rw [moveDown, dif_neg h, ih, hpred]
    unfold Memory.indices
    rw [List.range_succ, List.map_append, List.reverse_append]
    simp only [List.map_cons, List.map_nil, List.reverse_cons, List.reverse_nil, List.nil_append,
      List.cons_append, CopyLoop.copy_cons, Memory.ofNat_index]

/-- Either loop moves the bytes if it writes no byte that it still has to read. -/
theorem Moved.of_copy {is : List (BitVec 32)} (hdest : dest.toNat + count.toNat ≤ 2 ^ 32)
    (hmem : ∀ i, i ∈ is ↔ i < count)
    (horder : is.Pairwise fun i j => dest + i ≠ dest + j ∧ dest + i ≠ src + j) :
    Moved dest src count mem (CopyLoop.copy (dest + ·) (src + ·) is mem) where
  bytes i hi :=
    @CopyLoop.copy_dst _ _ _ _ (dest + ·) (src + ·) is mem i horder ((hmem i).mpr hi)
  outside a ha := by
    apply CopyLoop.copy_frame
    intro i hi heq
    have hlt : i.toNat < count.toNat := (hmem i).mp hi
    have haddr : a.toNat = dest.toNat + i.toNat := by
      rw [heq]
      exact Memory.offset_toNat (by omega)
    omega

/-- Upward is the right way when the destination comes first. -/
theorem moved_up (hdest : dest.toNat + count.toNat ≤ 2 ^ 32)
    (hsrc : src.toNat + count.toNat ≤ 2 ^ 32) (hlt : dest < src) :
    Moved dest src count mem (moveUp dest src count 0 mem) := by
  have horder : (Memory.indices count.toNat).Pairwise fun i j =>
      dest + i ≠ dest + j ∧ dest + i ≠ src + j := by
    apply Memory.indices_sorted.imp_of_mem
    intro i j hi hj hij
    have hi' := Memory.mem_indices.mp hi
    have hj' := Memory.mem_indices.mp hj
    constructor <;> bv_omega
  have hloop := moveUp_eq dest src count.toNat 0 mem (Nat.zero_add _)
  rw [hloop]
  show Moved dest src count mem
    (CopyLoop.copy _ _ ((List.range' 0 count.toNat).map (BitVec.ofNat 32)) mem)
  rw [← List.range_eq_range']
  exact Moved.of_copy hdest (fun _ => Memory.mem_indices) horder

/-- Downward is the right way when it comes last, or when the two are equal. -/
theorem moved_down (hdest : dest.toNat + count.toNat ≤ 2 ^ 32)
    (hsrc : src.toNat + count.toNat ≤ 2 ^ 32) (hge : ¬ dest < src) :
    Moved dest src count mem (moveDown dest src count mem) := by
  have horder : (Memory.indices count.toNat).reverse.Pairwise fun i j =>
      dest + i ≠ dest + j ∧ dest + i ≠ src + j := by
    rw [List.pairwise_reverse]
    apply Memory.indices_sorted.imp_of_mem
    intro i j hi hj hij
    have hi' := Memory.mem_indices.mp hi
    have hj' := Memory.mem_indices.mp hj
    constructor <;> bv_omega
  rw [moveDown_eq]
  apply Moved.of_copy hdest _ horder
  intro i
  rw [List.mem_reverse]
  exact Memory.mem_indices

/-- `memmove` and `memcpy` move the bytes however the two ranges overlap. -/
theorem memmove_moves (hdest : dest.toNat + count.toNat ≤ 2 ^ 32)
    (hsrc : src.toNat + count.toNat ≤ 2 ^ 32) :
    Moved dest src count mem (memmove dest src count mem).1 ∧
      Moved dest src count mem (memcpy dest src count mem).1 := by
  have hmove : Moved dest src count mem (memmove dest src count mem).1 := by
    unfold memmove
    split_ifs with hlt
    · exact moved_up hdest hsrc hlt
    · exact moved_down hdest hsrc hlt
  exact ⟨hmove, hmove⟩

/-- Three bytes moved up by one, at the top of the address space. -/
theorem memmove_moves_overlapping :
    (0xfffffffd : BitVec 32).toNat + (3 : BitVec 32).toNat ≤ 2 ^ 32 ∧
    Moved 0xfffffffd 0xfffffffc 3 (BitVec.setWidth 8)
      (memmove 0xfffffffd 0xfffffffc 3 (BitVec.setWidth 8)).1 :=
  ⟨by decide, (memmove_moves (by decide) (by decide)).1⟩

end RtosKernel
