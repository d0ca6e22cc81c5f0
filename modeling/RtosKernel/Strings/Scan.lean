import Mathlib.Tactic.SplitIfs
import RtosKernel.Libc.Strings
import RtosKernel.Math.StringMemory

namespace RtosKernel.Libc

open Rounds StringMemory

variable {mem : Memory} {s t : BitVec 32} {c : BitVec 8} {cs ds : List (BitVec 8)} {i k : Nat}

/-- A memory with the string `cs` at `s` and zeros elsewhere. -/
def holding (s : BitVec 32) (cs : List (BitVec 8)) : Memory := put (fun _ => 0) s (cs ++ [0])

theorem holding_stringAt (hlen : cs.length < 2 ^ 32) (hne : ∀ c ∈ cs, c ≠ 0) :
    StringAt (holding s cs) s cs :=
  put_stringAt hlen hne

section Scan

variable (stop : BitVec 8 → Bool)

/-- A loop that goes on at every character without `stop` ends at the first one that has it. -/
theorem scan_loop {ρ : Type} {turn : BitVec 32 → Round (BitVec 32) ρ} {r : ρ}
    (h : StringAt mem s cs) (hagain : ∀ a, stop (mem a) = false → turn a = .again (a + 1))
    (hleave : turn (s + BitVec.ofNat 32 (cs.findIdx stop)) = .leave r) :
    loop turn rounds s = some r := by
  have hle : cs.findIdx stop ≤ cs.length := List.findIdx_le_length
  have hlt := h.length_lt
  have hwalk : ∀ k < cs.findIdx stop, turn (s + BitVec.ofNat 32 k) =
      .again (s + BitVec.ofNat 32 (k + 1)) := by
    intro k hk
    have hnot := List.not_of_lt_findIdx hk
    rw [← h.char (by omega)] at hnot
    rw [hagain _ hnot, add_ofNat_one]
  have hloop := loop_path (f := fun k => s + BitVec.ofNat 32 k) hwalk hleave
  rw [add_ofNat_zero] at hloop
  exact loop_mono hloop (by show _ ≤ 2 ^ 32; omega)

/-- The character at which the scan stops. -/
theorem scan_char (hzero : stop 0 = true) (h : StringAt mem s cs) :
    stop (mem (s + BitVec.ofNat 32 (cs.findIdx stop))) = true := by
  have hle : cs.findIdx stop ≤ cs.length := List.findIdx_le_length
  rcases Nat.lt_or_eq_of_le hle with hlt | heq
  · rw [h.char hlt]
    exact List.findIdx_getElem
  · rw [heq, h.zero]
    exact hzero

end Scan

/-- No character before the zero is zero. -/
theorem findIdx_zero (h : StringAt mem s cs) : cs.findIdx (· == 0) = cs.length := by
  apply List.findIdx_eq_length_of_false
  intro c hc
  rw [beq_eq_false_iff_ne]
  exact (stringAt_iff.mp h).2.1 c hc

theorem endTurn_loop (h : StringAt mem s cs) :
    loop (endTurn mem) rounds s = some (s + BitVec.ofNat 32 cs.length) := by
  refine scan_loop (· == 0) h ?_ ?_
  · intro a ha
    rw [endTurn, if_pos (beq_eq_false_iff_ne.mp ha)]
  · rw [findIdx_zero h, endTurn, if_neg (not_not.mpr h.zero)]

theorem strlen_eq (h : StringAt mem s cs) : strlen mem s = some (BitVec.ofNat 32 cs.length) := by
  have hloop : loop (strlenTurn mem) rounds s = some (s + BitVec.ofNat 32 cs.length + 1) := by
    refine scan_loop (· == 0) h ?_ ?_
    · intro a ha
      rw [strlenTurn, if_pos (beq_eq_false_iff_ne.mp ha)]
    · rw [findIdx_zero h, strlenTurn, if_neg (not_not.mpr h.zero)]
  rw [strlen, hloop, Option.map_some]
  congr 1
  bv_omega

end RtosKernel.Libc
