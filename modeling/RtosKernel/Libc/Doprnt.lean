import RtosKernel.Kernel.State
import RtosKernel.Libc.Numbers

namespace RtosKernel.Libc

open Rounds

/-- What `va_arg` finds: one word, or the two words of a `long long` or a thread id. -/
inductive VaArg where
  | word (w : BitVec 32)
  | dword (d : BitVec 64)
  deriving DecidableEq

/-- Where C leaves the behaviour of a call open. -/
inductive PrintFault where
  /-- an argument is missing or of another size -/
  | badArg
  | divByZero
  /-- a digit past the end of `digs` -/
  | badDigit
  /-- a number of more than `MAXBUF` digits -/
  | overrun
  | badShift
  /-- a string without an end -/
  | endless
  deriving DecidableEq

/-- What the flags, the width, the precision and the `l`s of a conversion come to. -/
structure Conversion where
  length : Int
  prec : Int
  ladjust : Bool
  padc : BitVec 8
  plusSign : BitVec 8
  altfmt : Bool
  longopt : Nat
  deriving DecidableEq

def maxBuf : Nat := 32

/-- The digits, and the zero that ends the array. -/
def digs : List (BitVec 8) := "0123456789abcdef".toList.map ch ++ [0]

/-- No function sets it. -/
def doprntTruncates : Bool := false

def vaWord : List VaArg → Except PrintFault (BitVec 32 × List VaArg)
  | .word w :: args => .ok (w, args)
  | _ => .error .badArg

def vaDword : List VaArg → Except PrintFault (BitVec 64 × List VaArg)
  | .dword d :: args => .ok (d, args)
  | _ => .error .badArg

/-- `do { *p-- = digits[u % base]; u /= base; } while (u != 0);` in a buffer with room for `room`
more characters, in front of those already there. -/
def numDigits (base : Nat) : Nat → Nat → List (BitVec 8) → Except PrintFault (List (BitVec 8))
  | 0, _, _ => .error .overrun
  | room+1, u, buf =>
    if base = 0 then .error .divByZero
    else match digs[u % base]? with
      | none => .error .badDigit
      | some c => if u / base ≠ 0 then numDigits base room (u / base) (c :: buf) else .ok (c :: buf)

def printnum (u base : Nat) : Except PrintFault (List (BitVec 8)) := numDigits base maxBuf u []

/-- The eight digits from the most significant one on. -/
def printnum16 (u : Nat) : List (BitVec 8) :=
  ((List.range 8).map fun i => digs.getD (u / 16 ^ i % 16) 0).reverse

/-- `while (--length >= 0) putc(c);`, with what is left in `length`. -/
def padLoop (c : BitVec 8) : Nat → Int → List (BitVec 8) × Int
  | 0, length => ([], length)
  | fuel+1, length =>
    let length := wrap32 (length - 1)
    if length ≥ 0 then
      let (out, length) := padLoop c fuel length
      (c :: out, length)
    else ([], length)

/-- `length` goes down from `2 ^ 31 - 1` at most. -/
def pad (c : BitVec 8) (length : Int) : List (BitVec 8) × Int := padLoop c (2 ^ 31 + 1) length

/-- From the label `print_num` on. -/
def printNum (truncate : Bool) (base : Int) (cv : Conversion) (signChar : BitVec 8) (u : Nat) :
    Except PrintFault (List (BitVec 8)) :=
  let u := if truncate then ((BitVec.ofNat 32 u).signExtend 64).toNat else u
  let altPrefix := if u ≠ 0 ∧ cv.altfmt then
      if base = 8 then [ch '0'] else if base = 16 then [ch '0', ch 'x'] else []
    else []
  match numDigits (base % 2 ^ 64).toNat maxBuf u [] with
  | .error e => .error e
  | .ok buf =>
    let length := wrap32 (cv.length - buf.length)
    let length := if signChar ≠ 0 then wrap32 (length - 1) else length
    let length := wrap32 (length - altPrefix.length)
    let (blanks, length) :=
      if cv.padc = ch ' ' ∧ ¬ cv.ladjust then pad (ch ' ') length else ([], length)
    let sign := if signChar ≠ 0 then [signChar] else []
    let (zeros, length) := if cv.padc = ch '0' then pad (ch '0') length else ([], length)
    let (after, _) := if cv.ladjust then pad (ch ' ') length else ([], length)
    .ok (blanks ++ sign ++ altPrefix ++ zeros ++ buf ++ after)

/-- From the label `print_signed` on. -/
def printSigned (truncate : Bool) (base : Int) (cv : Conversion) (args : List VaArg) :
    Except PrintFault (List (BitVec 8) × List VaArg) := do
  let (n, args) ←
    if cv.longopt > 1 then (vaDword args).map fun (d, args) => (d.toInt, args)
    else (vaWord args).map fun (w, args) => (w.toInt, args)
  let out ←
    if n ≥ 0 then printNum truncate base cv cv.plusSign n.toNat
    else printNum truncate base cv (ch '-') (-n).toNat
  return (out, args)

/-- From the label `print_unsigned` on. -/
def printUnsigned (truncate : Bool) (base : Int) (cv : Conversion) (args : List VaArg) :
    Except PrintFault (List (BitVec 8) × List VaArg) := do
  let (u, args) ←
    if cv.longopt > 1 then (vaDword args).map fun (d, args) => (d.toNat, args)
    else (vaWord args).map fun (w, args) => (w.toNat, args)
  let out ← printNum truncate base cv 0 u
  return (out, args)

variable (mem : Memory)

/-- `for (; *p != '\0' && n < prec; p++) n++;` -/
def countTurn (prec : Int) : Int × BitVec 32 → Round (Int × BitVec 32) Int
  | (n, p) => if mem p ≠ 0 ∧ n < prec then .again (n + 1, p + 1) else .leave n

/-- The loop of `%s`, which leaves one more than `prec` in `n` when it breaks. -/
def stringTurn (prec : Int) : Int × BitVec 32 × List (BitVec 8) →
    Round (Int × BitVec 32 × List (BitVec 8)) (Int × List (BitVec 8))
  | (n, p, out) =>
    if mem p ≠ 0 then
      if n + 1 > prec then .leave (n + 1, out) else .again (n + 1, p + 1, out ++ [mem p])
    else .leave (n, out)

/-- A null pointer prints as the empty string. -/
def printString (cv : Conversion) (args : List VaArg) :
    Except PrintFault (List (BitVec 8) × List VaArg) := do
  let prec := if cv.prec = -1 then 0x7fffffff else cv.prec
  let (p, args) ← vaWord args
  let mem : Memory := if p = 0 then fun _ => 0 else mem
  let before ←
    if cv.length > 0 ∧ ¬ cv.ladjust then
      match loop (countTurn mem prec) rounds (0, p) with
      | none => .error .endless
      | some n => .ok (List.replicate (cv.length - n).toNat (ch ' '))
    else .ok []
  match loop (stringTurn mem prec) rounds (0, p, []) with
  | none => .error .endless
  | some (n, out) =>
    let after := if n < cv.length ∧ cv.ladjust then
      List.replicate (cv.length - n).toNat (ch ' ') else []
    return (before ++ out ++ after, args)

/-- `for (; (c = *p) > 32; p++)`, with the characters it passes. -/
def nameTurn : BitVec 32 × List (BitVec 8) →
    Round (BitVec 32 × List (BitVec 8)) (BitVec 32 × List (BitVec 8))
  | (p, out) => if mem p > 32 then .again (p + 1, out ++ [mem p]) else .leave (p, out)

/-- One bit or bit field of `%b`, after the bit number `i`; whether any has been printed by now. -/
def printBit (base u : Nat) (i : BitVec 8) (any : Bool) (p : BitVec 32) :
    Except PrintFault (BitVec 32 × Bool × List (BitVec 8)) :=
  let opening := if any then ch ',' else ch '<'
  if mem p ≤ 32 then
    let j := mem p
    if j = 0 ∨ i < j ∨ i.toNat - j.toNat ≥ 32 then .error .badShift
    else match loop (nameTurn mem) rounds (p + 1, []) with
      | none => .error .endless
      | some (p, name) => do
        let mask := 2 ^ (i.toNat - j.toNat + 1) - 1
        let field ← printnum (((u >>> (j.toNat - 1)) &&& mask) % 2 ^ 32) base
        return (p, true, opening :: name ++ field)
  else if i > 32 then .error .badShift
  else match loop (nameTurn mem) rounds (p, []) with
    | none => .error .endless
    | some (p, name) =>
      if u.testBit (i.toNat - 1) then .ok (p, true, opening :: name) else .ok (p, any, [])

/-- The loop over the bits. -/
def printBits (base u : Nat) : Nat → Bool → BitVec 32 → Except PrintFault (List (BitVec 8))
  | 0, _, _ => .error .endless
  | fuel+1, any, p =>
    if mem p = 0 then .ok (if any then [ch '>'] else [])
    else do
      let (p, any, out) ← printBit mem base u (mem p) any (p + 1)
      let rest ← printBits base u fuel any p
      return out ++ rest

/-- `%b`, on a word and the description of its bits. -/
def printRegister (args : List VaArg) : Except PrintFault (List (BitVec 8) × List VaArg) := do
  let (w, args) ← vaWord args
  let (p, args) ← vaWord args
  let base := (mem p).toNat
  let out ← printnum w.toNat base
  if w = 0 then return (out, args)
  else
    let bits ← printBits mem base w.toNat rounds false (p + 1)
    return (out ++ bits, args)

/-- `%t`, on the two words of a thread id. -/
def printTid (cv : Conversion) (args : List VaArg) :
    Except PrintFault (List (BitVec 8) × List VaArg) := do
  let (d, args) ← vaDword args
  let blanks (c : BitVec 8) (n length : Int) := List.replicate (length - n).toNat c
  let left := if cv.altfmt then [ch '['] else []
  let right := if cv.altfmt then [ch ']'] else []
  if cv.longopt ≠ 0 then
    let n : Int := if cv.altfmt then 19 else 17
    let gap := blanks (ch ' ') n cv.length
    return ((if cv.length > 0 ∧ ¬ cv.ladjust then gap else []) ++ left ++
      printnum16 (d.toNat % 2 ^ 32) ++ [ch ':'] ++ printnum16 (d.toNat / 2 ^ 32) ++ right ++
      (if cv.length > 0 ∧ cv.ladjust then gap else []), args)
  else
    let lthread := d.toNat / 2 ^ 10 % 2 ^ 7
    let taskId := d.toNat / 2 ^ 17 % 2 ^ 11
    let m : Int := 1 + (if lthread ≥ 0x10 then 1 else 0)
    let n : Int := (if cv.altfmt then 4 else 2) + (if taskId ≥ 0x10 then 1 else 0) +
      (if taskId ≥ 0x100 then 1 else 0)
    -- up to two characters of the padding are left for the thread part
    let first := if cv.length > 0 ∧ ¬ cv.ladjust then blanks cv.padc (n + 2) cv.length else []
    let n := n + first.length
    let second := if cv.length > 0 ∧ ¬ cv.ladjust then blanks cv.padc (n + m) cv.length else []
    let n := n + second.length
    let after := if n + m < cv.length ∧ cv.ladjust then blanks (ch ' ') (n + m) cv.length else []
    let taskOut ← printnum taskId 16
    let lthreadOut ← printnum lthread 16
    return ((if cv.padc = ch ' ' then first ++ left else left ++ first) ++ taskOut ++ [ch '.'] ++
      second ++ lthreadOut ++ right ++ after, args)

/-- The loop over the flags. -/
def flags : List (BitVec 8) → Conversion → List (BitVec 8) × Conversion
  | c :: fmt, cv =>
    if c = ch '#' then flags fmt { cv with altfmt := true }
    else if c = ch '-' then flags fmt { cv with ladjust := true }
    else if c = ch '+' then flags fmt { cv with plusSign := ch '+' }
    else if c = ch ' ' then
      flags fmt (if cv.plusSign = 0 then { cv with plusSign := ch ' ' } else cv)
    else (c :: fmt, cv)
  | [], cv => ([], cv)

def zeroFlag : List (BitVec 8) → Conversion → List (BitVec 8) × Conversion
  | c :: fmt, cv => if c = ch '0' then (fmt, { cv with padc := ch '0' }) else (c :: fmt, cv)
  | [], cv => ([], cv)

/-- `while (isdigit(*fmt)) n = 10 * n + Ctod(*fmt++);` -/
def decimal : List (BitVec 8) → Int → List (BitVec 8) × Int
  | c :: fmt, n =>
    if isdigit c then decimal fmt (wrap32 (10 * n + (c.toNat - 48))) else (c :: fmt, n)
  | [], n => ([], n)

def fieldWidth (fmt : List (BitVec 8)) (cv : Conversion) (args : List VaArg) :
    Except PrintFault (List (BitVec 8) × Conversion × List VaArg) :=
  match fmt with
  | c :: rest =>
    if isdigit c then
      let (rest, length) := decimal fmt 0
      .ok (rest, { cv with length := length }, args)
    else if c = ch '*' then (vaWord args).map fun (w, args) =>
      (rest, if w.toInt < 0 then
          { cv with length := wrap32 (-w.toInt), ladjust := !cv.ladjust }
        else { cv with length := w.toInt }, args)
    else .ok (fmt, cv, args)
  | [] => .ok ([], cv, args)

def precision (fmt : List (BitVec 8)) (cv : Conversion) (args : List VaArg) :
    Except PrintFault (List (BitVec 8) × Conversion × List VaArg) :=
  match fmt with
  | c :: rest =>
    if c = ch '.' then match rest with
      | c' :: rest' =>
        if isdigit c' then
          let (rest, prec) := decimal rest 0
          .ok (rest, { cv with prec := prec }, args)
        else if c' = ch '*' then (vaWord args).map fun (w, args) =>
          (rest', { cv with prec := w.toInt }, args)
        else .ok (rest, cv, args)
      | [] => .ok ([], cv, args)
    else .ok (fmt, cv, args)
  | [] => .ok ([], cv, args)

/-- `while (*fmt == 'l') longopt++, fmt++;` -/
def longs : List (BitVec 8) → Conversion → List (BitVec 8) × Conversion
  | c :: fmt, cv =>
    if c = ch 'l' then longs fmt { cv with longopt := cv.longopt + 1 } else (c :: fmt, cv)
  | [], cv => ([], cv)

/-- Everything between the `%` and the conversion character. -/
def directive (fmt : List (BitVec 8)) (args : List VaArg) :
    Except PrintFault (List (BitVec 8) × Conversion × List VaArg) := do
  let (fmt, cv) := flags fmt ⟨0, -1, false, ch ' ', 0, false, 0⟩
  let (fmt, cv) := zeroFlag fmt cv
  let (fmt, cv, args) ← fieldWidth fmt cv args
  let (fmt, cv, args) ← precision fmt cv args
  let (fmt, cv) := longs fmt cv
  return (fmt, cv, args)

/-- The `switch` over the conversion character. -/
def convert (radix : Int) (c : BitVec 8) (cv : Conversion) (args : List VaArg) :
    Except PrintFault (List (BitVec 8) × List VaArg) :=
  if c = ch 'b' ∨ c = ch 'B' then printRegister mem args
  else if c = ch 'c' then (vaWord args).map fun (w, args) => ([w.setWidth 8], args)
  else if c = ch 't' then printTid cv args
  else if c = ch 's' then printString mem cv args
  else if c = ch 'o' then printUnsigned doprntTruncates 8 cv args
  else if c = ch 'O' then printUnsigned false 8 cv args
  else if c = ch 'd' then printSigned doprntTruncates 10 cv args
  else if c = ch 'D' then printSigned false 10 cv args
  else if c = ch 'u' then printUnsigned doprntTruncates 10 cv args
  else if c = ch 'U' then printUnsigned false 10 cv args
  else if c = ch 'p' then
    (printUnsigned doprntTruncates 16 { cv with padc := ch '0', length := 8 } args).map
      fun (out, args) => (ch '0' :: ch 'x' :: out, args)
  else if c = ch 'x' then printUnsigned doprntTruncates 16 cv args
  else if c = ch 'X' then printUnsigned false 16 cv args
  else if c = ch 'z' then printSigned doprntTruncates 16 cv args
  else if c = ch 'Z' then printSigned false 16 cv args
  else if c = ch 'r' then printSigned doprntTruncates radix cv args
  else if c = ch 'R' then printSigned false radix cv args
  else if c = ch 'n' then printUnsigned doprntTruncates radix cv args
  else if c = ch 'N' then printUnsigned false radix cv args
  else .ok ([c], args)

/-- The characters given to `putc` and the arguments that are left, for a format that ends with
the list. A `%` at the end of the format prints nothing. -/
def doprntLoop (radix : Int) : Nat → List (BitVec 8) → List VaArg →
    Except PrintFault (List (BitVec 8) × List VaArg)
  | 0, _, _ => .error .endless
  | _+1, [], args => .ok ([], args)
  | fuel+1, c :: fmt, args =>
    if c ≠ ch '%' then do
      let (out, args) ← doprntLoop radix fuel fmt args
      return (c :: out, args)
    else do
      let (fmt, cv, args) ← directive fmt args
      match fmt with
      | [] => return ([], args)
      | c :: fmt =>
        let (out, args) ← convert mem radix c cv args
        let (rest, args) ← doprntLoop radix fuel fmt args
        return (out ++ rest, args)

/-- `_doprnt`; the strings it reads are those of `mem`. -/
def doprnt (fmt : List (BitVec 8)) (args : List VaArg) (radix : Int) :
    Except PrintFault (List (BitVec 8) × List VaArg) :=
  doprntLoop mem radix (fmt.length + 1) fmt args

end RtosKernel.Libc
