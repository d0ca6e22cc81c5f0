import RtosKernel.Libc.Strings

namespace RtosKernel.Libc

open Rounds

/-- A character constant. -/
def ch (c : Char) : BitVec 8 := BitVec.ofNat 8 c.toNat

def isspace (c : BitVec 8) : Bool :=
  c = ch ' ' || c = 0x0c || c = ch '\n' || c = ch '\n' || c = ch '\r' || c = ch '\t' || c = 0x0b

def isdigit (c : BitVec 8) : Bool := c ≥ ch '0' && c ≤ ch '9'

variable (mem : Memory)

/-- `n * 10 + *str - '0'` for every digit from `str` on. -/
def atolTurn : BitVec 32 × BitVec 32 → Round (BitVec 32 × BitVec 32) (BitVec 32)
  | (n, str) =>
    if isdigit (mem str) then .again (n * 10 + charAt mem str - (ch '0').setWidth 32, str + 1)
    else .leave n

def atol (str : BitVec 32) : Option (BitVec 32) := loop (atolTurn mem) rounds (0, str)

def atoi (str : BitVec 32) : Option (BitVec 32) := atol mem str

/-- `while (isspace(*p)) p++;` -/
def spaceTurn (p : BitVec 32) : Round (BitVec 32) (BitVec 32) :=
  if isspace (mem p) then .again (p + 1) else .leave p

/-- The `0x` prefix and the base it gives; base 0 is then chosen by a leading zero. -/
def numberBase (p base : BitVec 32) : BitVec 32 × BitVec 32 :=
  let (p, base) :=
    if (base = 16 ∨ base = 0) ∧ mem p = ch '0' ∧ (mem (p + 1) = ch 'x' ∨ mem (p + 1) = ch 'X') then
      (p + 2, 16)
    else (p, base)
  if base = 0 then if mem p = ch '0' then (p, 8) else (p, 10)
  else (p, base)

/-- What the digit `c` adds in this base, `none` where the loop breaks. -/
def digitIn (base : BitVec 32) (c : BitVec 8) : Option (BitVec 32) :=
  let digit (first : Char) (add : BitVec 32) : BitVec 32 :=
    c.setWidth 32 - (ch first).setWidth 32 + add
  if c ≥ ch '0' ∧ c ≤ ch '9' ∧ (digit '0' 0).slt base then some (digit '0' 0)
  else if c ≥ ch 'a' ∧ c ≤ ch 'z' ∧ (digit 'a' 10).slt base then some (digit 'a' 10)
  else if c ≥ ch 'A' ∧ c ≤ ch 'Z' ∧ (digit 'A' 10).slt base then some (digit 'A' 10)
  else none

/-- The digit loop of `strtoul` and `strtol`, which leaves `v` and `p` behind. -/
def digitTurn (base : BitVec 32) : BitVec 32 × BitVec 32 →
    Round (BitVec 32 × BitVec 32) (BitVec 32 × BitVec 32)
  | (v, p) => match digitIn base (mem p) with
    | some d => .again (v * base + d, p + 1)
    | none => .leave (v, p)

/-- The number, and the address stored to `out_p`. -/
def strtoul (p base : BitVec 32) : Option (BitVec 32 × BitVec 32) :=
  match loop (spaceTurn mem) rounds p with
  | none => none
  | some p =>
    let (p, base) := numberBase mem p base
    loop (digitTurn mem base) rounds (0, p)

/-- A `+` is recognised but not skipped. -/
def strtol (p base : BitVec 32) : Option (BitVec 32 × BitVec 32) :=
  match loop (spaceTurn mem) rounds p with
  | none => none
  | some p =>
    let isNeg := mem p = ch '-'
    let p := if mem p = ch '-' then p + 1 else p
    let (p, base) := numberBase mem p base
    (loop (digitTurn mem base) rounds (0, p)).map fun (v, p) => (if isNeg then -v else v, p)

end RtosKernel.Libc
