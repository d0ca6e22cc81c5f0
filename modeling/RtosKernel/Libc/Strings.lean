import RtosKernel.Kernel.Memory
import RtosKernel.Math.Rounds

namespace RtosKernel.Libc

open Rounds

/-- A walk through memory that has not ended by now has come round the address space. -/
abbrev rounds : Nat := 2 ^ 32

variable (mem : Memory)

/-- `while (*s) s++;` -/
def endTurn (s : BitVec 32) : Round (BitVec 32) (BitVec 32) :=
  if mem s ≠ 0 then .again (s + 1) else .leave s

/-- `while (*string++);` -/
def strlenTurn (string : BitVec 32) : Round (BitVec 32) (BitVec 32) :=
  if mem string ≠ 0 then .again (string + 1) else .leave (string + 1)

def strlen (string : BitVec 32) : Option (BitVec 32) :=
  (loop (strlenTurn mem) rounds string).map fun p => p - 1 - string

/-- `while ((*dest++ = *src++) != 0);` -/
def copyTurn : Memory × BitVec 32 × BitVec 32 → Round (Memory × BitVec 32 × BitVec 32) Memory
  | (mem, dest, src) =>
    let c := mem src
    let mem := Function.update mem dest c
    if c ≠ 0 then .again (mem, dest + 1, src + 1) else .leave mem

/-- The memory after the call, and the value returned. -/
def strcpy (dest src : BitVec 32) : Option (Memory × BitVec 32) :=
  (loop copyTurn rounds (mem, dest, src)).map fun mem => (mem, dest)

def strcat (s add : BitVec 32) : Option (Memory × BitVec 32) :=
  match loop (endTurn mem) rounds s with
  | none => none
  | some last => (loop copyTurn rounds (mem, last, add)).map fun mem => (mem, s)

/-- The `do` loop of `strncat`, on `d`, `s` and `n`. -/
def strncatTurn : Memory × BitVec 32 × BitVec 32 × BitVec 32 →
    Round (Memory × BitVec 32 × BitVec 32 × BitVec 32) (Memory × BitVec 32)
  | (mem, d, s, n) =>
    let c := mem s
    let mem := Function.update mem d c
    if c = 0 then .leave (mem, d)
    else if n - 1 ≠ 0 then .again (mem, d + 1, s + 1, n - 1)
    else .leave (mem, d + 1)

def strncat (dst src n : BitVec 32) : Option (Memory × BitVec 32) :=
  if n ≠ 0 then
    match loop (endTurn mem) rounds dst with
    | none => none
    | some d => (loop strncatTurn rounds (mem, d, src, n)).map fun (mem, d) =>
        (Function.update mem d 0, dst)
  else some (mem, dst)

/-- `while (count-- > 0) *dest++ = c;` -/
def fill (c : BitVec 8) : Nat → Memory → BitVec 32 → Memory
  | 0, mem, _ => mem
  | count+1, mem, dest => fill c count (Function.update mem dest c) (dest + 1)

/-- `while (count-- > 0 && (*dest++ = *src++));`, which leaves `dest` and `count` behind. -/
def strncpyTurn : Memory × BitVec 32 × BitVec 32 × BitVec 32 →
    Round (Memory × BitVec 32 × BitVec 32 × BitVec 32) (Memory × BitVec 32 × BitVec 32)
  | (mem, dest, src, count) =>
    if count > 0 then
      let c := mem src
      let mem := Function.update mem dest c
      if c ≠ 0 then .again (mem, dest + 1, src + 1, count - 1)
      else .leave (mem, dest + 1, count - 1)
    else .leave (mem, dest, count - 1)

def strncpy (dest src count : BitVec 32) : Option (Memory × BitVec 32) :=
  (loop strncpyTurn rounds (mem, dest, src, count)).map fun (mem, last, count) =>
    (fill 0 count.toNat mem last, dest)

def memset (tov c len : BitVec 32) : Memory × BitVec 32 :=
  (fill (c.setWidth 8) len.toNat mem tov, tov)

/-- A `char` as an `int`; it is unsigned on this processor. -/
def charAt (s : BitVec 32) : BitVec 32 := (mem s).setWidth 32

def memcmpLoop : Nat → BitVec 32 → BitVec 32 → BitVec 32
  | 0, _, _ => 0
  | size+1, s1, s2 =>
    if charAt mem s1 ≠ charAt mem s2 then charAt mem s1 - charAt mem s2
    else memcmpLoop size (s1 + 1) (s2 + 1)

def memcmp (s1v s2v size : BitVec 32) : BitVec 32 := memcmpLoop mem size.toNat s1v s2v

def strcmpTurn : BitVec 32 × BitVec 32 → Round (BitVec 32 × BitVec 32) (BitVec 32)
  | (s1, s2) =>
    let a := charAt mem s1
    let b := charAt mem s2
    if a ≠ 0 ∧ b ≠ 0 then
      if a ≠ b then .leave (a - b) else .again (s1 + 1, s2 + 1)
    else .leave (a - b)

def strcmp (s1 s2 : BitVec 32) : Option (BitVec 32) := loop (strcmpTurn mem) rounds (s1, s2)

def strncmpTurn : BitVec 32 × BitVec 32 × BitVec 32 →
    Round (BitVec 32 × BitVec 32 × BitVec 32) (BitVec 32)
  | (s1, s2, n) =>
    if n ≤ 0 then .leave 0
    else if mem s1 ≠ mem s2 then .leave (charAt mem s1 - charAt mem s2)
    else if mem s1 = 0 then .leave 0
    else .again (s1 + 1, s2 + 1, n - 1)

def strncmp (s1 s2 n : BitVec 32) : Option (BitVec 32) :=
  loop (strncmpTurn mem) rounds (s1, s2, n)

def strchrTurn (c s : BitVec 32) : Round (BitVec 32) (BitVec 32) :=
  if charAt mem s = c then .leave s
  else if mem s = 0 then .leave 0
  else .again (s + 1)

def strchr (s c : BitVec 32) : Option (BitVec 32) := loop (strchrTurn mem c) rounds s

def strrchrTurn (c : BitVec 32) : BitVec 32 × BitVec 32 →
    Round (BitVec 32 × BitVec 32) (BitVec 32)
  | (save, s) =>
    if mem s ≠ 0 then .again (if charAt mem s = c then s else save, s + 1) else .leave save

def strrchr (s c : BitVec 32) : Option (BitVec 32) := loop (strrchrTurn mem c) rounds (0, s)

/-- The loop of `strstr`; the two lengths are compared as `int`. -/
def strstrTurn (needle nlen : BitVec 32) : BitVec 32 × BitVec 32 →
    Round (BitVec 32 × BitVec 32) (BitVec 32)
  | (haystack, hlen) =>
    if nlen.sle hlen then
      if memcmp mem haystack needle nlen = 0 then .leave haystack
      else .again (haystack + 1, hlen - 1)
    else .leave 0

def strstr (haystack needle : BitVec 32) : Option (BitVec 32) :=
  match strlen mem haystack, strlen mem needle with
  | some hlen, some nlen => loop (strstrTurn mem needle nlen) rounds (haystack, hlen)
  | _, _ => none

/-- The scan of `strspn` and `strpbrk` for `c`, which stops at the zero of the span. -/
def inSpanTurn (c : BitVec 8) (spanp : BitVec 32) : Round (BitVec 32) Bool :=
  if mem spanp ≠ 0 then
    if mem spanp = c then .leave true else .again (spanp + 1)
  else .leave false

def inSpan (c : BitVec 8) (s2 : BitVec 32) : Option Bool := loop (inSpanTurn mem c) rounds s2

/-- The scan of `strcspn`, which compares the zero of the span too. -/
def stopsSpanTurn (c : BitVec 8) (spanp : BitVec 32) : Round (BitVec 32) Bool :=
  if mem spanp = c then .leave true
  else if mem spanp ≠ 0 then .again (spanp + 1)
  else .leave false

def stopsSpan (c : BitVec 8) (s2 : BitVec 32) : Option Bool :=
  loop (stopsSpanTurn mem c) rounds s2

def strspnTurn (s1 s2 p : BitVec 32) : Round (BitVec 32) (Option (BitVec 32)) :=
  match inSpan mem (mem p) s2 with
  | none => .leave none
  | some true => .again (p + 1)
  | some false => .leave (some (p + 1 - 1 - s1))

def strspn (s1 s2 : BitVec 32) : Option (BitVec 32) :=
  (loop (strspnTurn mem s1 s2) rounds s1).join

def strcspnTurn (s1 s2 p : BitVec 32) : Round (BitVec 32) (Option (BitVec 32)) :=
  match stopsSpan mem (mem p) s2 with
  | none => .leave none
  | some true => .leave (some (p + 1 - 1 - s1))
  | some false => .again (p + 1)

def strcspn (s1 s2 : BitVec 32) : Option (BitVec 32) :=
  (loop (strcspnTurn mem s1 s2) rounds s1).join

def strpbrkTurn (s2 p : BitVec 32) : Round (BitVec 32) (Option (BitVec 32)) :=
  if mem p ≠ 0 then match inSpan mem (mem p) s2 with
    | none => .leave none
    | some true => .leave (some (p + 1 - 1))
    | some false => .again (p + 1)
  else .leave (some 0)

def strpbrk (s1 s2 : BitVec 32) : Option (BitVec 32) :=
  (loop (strpbrkTurn mem s2) rounds s1).join

end RtosKernel.Libc
