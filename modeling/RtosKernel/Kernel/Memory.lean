import Mathlib.Algebra.Group.Nat.Defs
import Mathlib.Logic.Function.Basic

namespace RtosKernel

/-- The 32-bit address space, byte by byte. -/
abbrev Memory := BitVec 32 → BitVec 8

namespace Memory

variable {count : BitVec 32}

/-- The indices below `n`. -/
def indices (n : Nat) : List (BitVec 32) := (List.range n).map (BitVec.ofNat 32)

/-- The address `i` bytes past `base`, where the address space does not end before it. -/
theorem offset_toNat {base i : BitVec 32} (h : base.toNat + i.toNat < 2 ^ 32) :
    (base + i).toNat = base.toNat + i.toNat := by
  rw [BitVec.toNat_add]
  exact Nat.mod_eq_of_lt h

theorem ofNat_index (i : BitVec 32) : BitVec.ofNat 32 i.toNat = i := by
  rw [BitVec.ofNat_toNat, BitVec.setWidth_eq]

/-- An index is not negative, also as an `ssize_t`. -/
theorem toInt_index {i : BitVec 32} (hcount : count.toNat < 2 ^ 31) (hi : i ≤ count) :
    i.toInt = i.toNat := by
  have hi' : i.toNat ≤ count.toNat := hi
  exact BitVec.toInt_eq_toNat_of_lt (by omega)

theorem mem_indices {i : BitVec 32} : i ∈ indices count.toNat ↔ i < count := by
  unfold indices
  rw [List.mem_map]
  constructor
  · rintro ⟨k, hk, rfl⟩
    have hlt := List.mem_range.mp hk
    have hcount := count.isLt
    show (BitVec.ofNat 32 k).toNat < count.toNat
    rw [BitVec.toNat_ofNat, Nat.mod_eq_of_lt (by omega)]
    exact hlt
  · intro hi
    exact ⟨i.toNat, List.mem_range.mpr hi, ofNat_index i⟩

/-- The indices come in increasing order. -/
theorem indices_sorted : (indices count.toNat).Pairwise (· < ·) := by
  unfold indices
  rw [List.pairwise_map]
  apply List.pairwise_lt_range.imp_of_mem
  intro i j hi hj hlt
  have hcount := count.isLt
  have hi' := List.mem_range.mp hi
  have hj' := List.mem_range.mp hj
  show (BitVec.ofNat 32 i).toNat < (BitVec.ofNat 32 j).toNat
  rw [BitVec.toNat_ofNat, BitVec.toNat_ofNat, Nat.mod_eq_of_lt (by omega),
    Nat.mod_eq_of_lt (by omega)]
  exact hlt

end Memory

end RtosKernel
