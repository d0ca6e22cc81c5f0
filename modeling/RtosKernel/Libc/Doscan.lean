import RtosKernel.Libc.Numbers
import RtosKernel.Math.StringMemory

namespace RtosKernel.Libc

open Rounds StringMemory

/-- Where a scan reads, the addresses its `va_list` still has, and the conversions stored. -/
structure ScanState where
  mem : Memory
  s : BitVec 32
  args : List (BitVec 32)
  vals : Nat

inductive ScanFault where
  /-- a `va_arg` with no argument left -/
  | badArg
  /-- a format that ends inside a conversion; the loop goes on behind its zero -/
  | pastFormat
  /-- `%s` on input without white space -/
  | endless
  deriving DecidableEq

/-- The bytes of an `int`, the lowest first. -/
def intBytes (c : BitVec 32) : List (BitVec 8) :=
  [c.setWidth 8, (c >>> 8).setWidth 8, (c >>> 16).setWidth 8, (c >>> 24).setWidth 8]

/-- `*p = n` -/
def storeInt (mem : Memory) (p n : BitVec 32) : Memory := put mem p (intBytes n)

variable (mem : Memory)

/-- The digit loop of `%d`; the lookahead is given back. -/
def scanDecTurn : BitVec 32 × BitVec 32 → Round (BitVec 32 × BitVec 32) (BitVec 32 × BitVec 32)
  | (n, s) =>
    if isdigit (mem s) then .again (n * 10 + (charAt mem s - (ch '0').setWidth 32), s + 1)
    else .leave (n, s)

/-- The digit loop of `%x`. -/
def scanHexTurn : BitVec 32 × BitVec 32 → Round (BitVec 32 × BitVec 32) (BitVec 32 × BitVec 32)
  | (n, s) =>
    let c := mem s
    if c ≥ ch '0' ∧ c ≤ ch '9' then
      .again (n * 16 + (charAt mem s - (ch '0').setWidth 32), s + 1)
    else if c ≥ ch 'a' ∧ c ≤ ch 'f' then
      .again (n * 16 + (charAt mem s - (ch 'a').setWidth 32 + 10), s + 1)
    else if c ≥ ch 'A' ∧ c ≤ ch 'F' then
      .again (n * 16 + (charAt mem s - (ch 'A').setWidth 32 + 10), s + 1)
    else .leave (n, s)

/-- The loop of `%s` on `buf`, `none` when the conversion is discarded. -/
def scanStringTurn : Memory × Option (BitVec 32) × BitVec 32 →
    Round (Memory × Option (BitVec 32) × BitVec 32) (Memory × Option (BitVec 32) × BitVec 32)
  | (mem, buf, s) =>
    if isspace (mem s) then .leave (mem, buf, s)
    else .again (buf.elim mem fun p => Function.update mem p (mem s), buf.map (· + 1), s + 1)

/-- `va_arg(vp, int *)`, unless the conversion is discarded. -/
def takePointer (discard : Bool) : List (BitVec 32) →
    Except ScanFault (Option (BitVec 32) × List (BitVec 32))
  | args => if discard then .ok (none, args) else match args with
    | p :: args => .ok (some p, args)
    | [] => .error .badArg

/-- `%d` and `%x` with their digit loop: a minus sign, the digits, and the store. -/
def scanNumber (turn : Memory → BitVec 32 × BitVec 32 →
      Round (BitVec 32 × BitVec 32) (BitVec 32 × BitVec 32))
    (discard : Bool) (st : ScanState) : Except ScanFault ScanState := do
  let neg := st.mem st.s = ch '-'
  let s := if neg then st.s + 1 else st.s
  match loop (turn st.mem) rounds (0, s) with
  | none => .error .endless
  | some (n, s) =>
    let n := if neg then -n else n
    let (p, args) ← takePointer discard st.args
    return { st with mem := p.elim st.mem fun p => storeInt st.mem p n, s := s, args := args }

def scanString (discard : Bool) (st : ScanState) : Except ScanFault ScanState := do
  let (buf, args) ← takePointer discard st.args
  match loop scanStringTurn rounds (st.mem, buf, st.s) with
  | none => .error .endless
  | some (mem, buf, s) =>
    return { st with mem := buf.elim mem fun p => Function.update mem p 0, s := s, args := args }

/-- The `switch` of `_doscan`, `none` at a `*`. -/
def scanConversion (c : BitVec 8) (discard : Bool) (st : ScanState) :
    Option (Except ScanFault ScanState) :=
  if c = ch 'd' then some (scanNumber scanDecTurn discard st)
  else if c = ch 'x' then some (scanNumber scanHexTurn discard st)
  else if c = ch 's' then some (scanString discard st)
  else if c = ch '*' then none
  else some (.ok st)

/-- `_doscan` on a format that ends with the list. `conv` is `some discard` behind a `%`. -/
def doscan : List (BitVec 8) → Option Bool → ScanState → Except ScanFault ScanState
  | [], none, st => .ok st
  | [], some _, _ => .error .pastFormat
  | c :: fmt, none, st =>
    if c ≠ ch '%' then
      if isspace c then match loop (spaceTurn st.mem) rounds st.s with
        | none => .error .endless
        | some s => doscan fmt none { st with s := s }
      else if c = st.mem st.s then doscan fmt none { st with s := st.s + 1 }
      else .ok st
    else doscan fmt (some false) st
  | c :: fmt, some discard, st => match scanConversion c discard st with
    | none => doscan fmt (some true) st
    | some r => do
      let st ← r
      doscan fmt none (if discard then st else { st with vals := st.vals + 1 })

/-- The memory after the call, and the number of conversions stored. -/
def sscanf (s : BitVec 32) (fmt : List (BitVec 8)) (args : List (BitVec 32)) :
    Except ScanFault (Memory × Nat) :=
  (doscan fmt none ⟨mem, s, args, 0⟩).map fun st => (st.mem, st.vals)

end RtosKernel.Libc
