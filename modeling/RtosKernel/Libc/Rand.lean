import Mathlib.Data.BitVec

namespace RtosKernel.Libc

/-- `static unsigned seed[2];` -/
structure Seed where
  fst : BitVec 32
  snd : BitVec 32
  deriving DecidableEq

/-- The value and the seed it leaves behind. -/
def rand (seed : Seed) : BitVec 32 × Seed :=
  let fst := seed.fst + 0xa859c317
  let fst := fst + (seed.snd <<< 13 ||| seed.snd >>> 19)
  let snd := seed.snd + fst
  (fst &&& 0x7fffffff, ⟨fst, snd⟩)

def srand (newSeed : BitVec 32) : Seed := ⟨newSeed, newSeed⟩

end RtosKernel.Libc
