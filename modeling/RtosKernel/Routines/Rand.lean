import Mathlib.Data.Fintype.Prod
import Mathlib.Dynamics.PeriodicPts.Lemmas
import RtosKernel.Libc.Rand

namespace RtosKernel.Libc

open Function

/-- The seed after `rand`. -/
def nextSeed (seed : Seed) : Seed := (rand seed).2

/-- The additions undone, the last one first. -/
def lastSeed (seed : Seed) : Seed :=
  let snd := seed.snd - seed.fst
  ⟨seed.fst - (snd <<< 13 ||| snd >>> 19) - 0xa859c317, snd⟩

theorem lastSeed_nextSeed : LeftInverse lastSeed nextSeed := by
  intro seed
  have hsnd : (nextSeed seed).snd - (nextSeed seed).fst = seed.snd := BitVec.add_sub_cancel ..
  unfold lastSeed
  rw [hsnd]
  show Seed.mk (seed.fst + 0xa859c317 + _ - _ - 0xa859c317) seed.snd = seed
  rw [BitVec.add_sub_cancel, BitVec.add_sub_cancel]

def seedEquiv : Seed ≃ Fin (2 ^ 32) × Fin (2 ^ 32) where
  toFun seed := (seed.fst.toFin, seed.snd.toFin)
  invFun p := ⟨⟨p.1⟩, ⟨p.2⟩⟩
  left_inv _ := rfl
  right_inv _ := rfl

/-- Whatever `srand` is given, `rand` comes back to it after at most `2 ^ 64` calls and repeats its
values from there on, none of them negative; and two seeds never meet. -/
theorem rand_periodic (newSeed : BitVec 32) :
    (∃ p, 0 < p ∧ p ≤ 2 ^ 64 ∧ nextSeed^[p] (srand newSeed) = srand newSeed ∧
      ∀ k, rand (nextSeed^[k + p] (srand newSeed)) = rand (nextSeed^[k] (srand newSeed)) ∧
        0 ≤ (rand (nextSeed^[k] (srand newSeed))).1.toInt) ∧
    ∀ other, other ≠ newSeed → ∀ k, nextSeed^[k] (srand other) ≠ nextSeed^[k] (srand newSeed) := by
  let inst : Fintype Seed := Fintype.ofEquiv _ seedEquiv.symm
  have hcard : Fintype.card Seed = 2 ^ 64 := by
    rw [Fintype.card_congr seedEquiv, Fintype.card_prod, Fintype.card_fin]
    rfl
  have hinj : Injective nextSeed := lastSeed_nextSeed.injective
  have hperiodic := hinj.mem_periodicPts (srand newSeed)
  have hperiod : nextSeed^[minimalPeriod nextSeed (srand newSeed)] (srand newSeed) =
      srand newSeed := iterate_minimalPeriod
  refine ⟨⟨minimalPeriod nextSeed (srand newSeed), minimalPeriod_pos_of_mem_periodicPts hperiodic,
    ?_, hperiod, fun k => ⟨?_, ?_⟩⟩, ?_⟩
  · rw [← hcard]
    exact minimalPeriod_le_card
  · rw [iterate_add_apply, hperiod]
  · have hle : (rand (nextSeed^[k] (srand newSeed))).1.toNat ≤ 0x7fffffff := by
      show (_ &&& 0x7fffffff : BitVec 32).toNat ≤ _
      rw [BitVec.toNat_and]
      exact Nat.and_le_right
    rw [BitVec.toInt_eq_toNat_of_lt (by omega)]
    exact Int.natCast_nonneg _
  · intro other hne k heq
    have hseed : srand other = srand newSeed := hinj.iterate k heq
    exact hne (congrArg Seed.fst hseed)

end RtosKernel.Libc
