import RtosKernel.Kernel.Io
import RtosKernel.Libc.Doprnt
import RtosKernel.Libc.Doscan

namespace RtosKernel.Libc

open Rounds StringMemory

/-- `struct sprintf_state`, and the memory it writes to. -/
structure SprintfState where
  mem : Memory
  buf : BitVec 32
  len : BitVec 32
  max : BitVec 32

/-- `SPRINTF_UNLIMITED` -/
def sprintfUnlimited : BitVec 32 := -1

def savechar (st : SprintfState) (c : BitVec 8) : SprintfState :=
  if st.max ≠ sprintfUnlimited ∧ st.len = st.max then st
  else { st with mem := Function.update st.mem st.buf c, buf := st.buf + 1, len := st.len + 1 }

/-- What `vsprintf` and `vsnprintf` share: the memory afterwards and the value returned. The output
is that of the memory before the first write, so no printed string may overlap `s`. -/
def saveAll (mem : Memory) (s max : BitVec 32) (fmt : List (BitVec 8)) (args : List VaArg) :
    Except PrintFault (Memory × BitVec 32) := do
  let (out, _) ← doprnt mem fmt args 0
  let st := out.foldl savechar ⟨mem, s, 0, max⟩
  return (Function.update st.mem st.buf 0, st.len)

def vsprintf (mem : Memory) (s : BitVec 32) (fmt : List (BitVec 8)) (args : List VaArg) :
    Except PrintFault (Memory × BitVec 32) :=
  saveAll mem s sprintfUnlimited fmt args

def vsnprintf (mem : Memory) (s size : BitVec 32) (fmt : List (BitVec 8)) (args : List VaArg) :
    Except PrintFault (Memory × BitVec 32) :=
  saveAll mem s size fmt args

def printfBufMax : Nat := 128

/-- `struct printf_state` at `buf`, the words of the caller that `putchar` takes the address of,
and the string literal of `puts`. -/
structure PrintfFrame where
  buf : BitVec 32
  charWord : BitVec 32
  newline : BitVec 32

/-- The memory and the console, and `state.index`. -/
structure PrintfState where
  io : IoState
  index : BitVec 32

/-- A `write` to the console; nobody looks at what it returns. -/
def writeOut (buf count : BitVec 32) (io : IoState) : IoState :=
  (io.writeSyscall stdoutFileno buf count).2

def setMem (mem : Memory) (io : IoState) : IoState := { io with mem := mem }

/-- All four bytes of `c` are written. -/
def putchar (fr : PrintfFrame) (c : BitVec 32) (io : IoState) : IoState :=
  writeOut fr.charWord 4 (setMem (put io.mem fr.charWord (intBytes c)) io)

def puts (fr : PrintfFrame) (s : BitVec 32) (io : IoState) : Except PrintFault IoState :=
  match strlen io.mem s with
  | none => .error .endless
  | some len => .ok (writeOut fr.newline 1 (writeOut s len io))

def flush (fr : PrintfFrame) (st : PrintfState) : PrintfState :=
  let mem := Function.update st.io.mem (fr.buf + st.index) 0
  ⟨writeOut fr.buf st.index (setMem mem st.io), 0⟩

def printfChar (fr : PrintfFrame) (st : PrintfState) (c : BitVec 8) :
    Except PrintFault PrintfState :=
  if c = ch '\n' then
    let mem := Function.update st.io.mem (fr.buf + st.index) 0
    (puts fr fr.buf (setMem mem st.io)).map fun io => ⟨io, 0⟩
  else if c = 0 ∨ st.index ≥ BitVec.ofNat 32 (printfBufMax - 1) then
    .ok { flush fr st with io := putchar fr (c.setWidth 32) (flush fr st).io }
  else
    .ok ⟨setMem (Function.update st.io.mem (fr.buf + st.index) c) st.io, st.index + 1⟩

def vprintf (fr : PrintfFrame) (fmt : List (BitVec 8)) (args : List VaArg) (io : IoState) :
    Except PrintFault IoState := do
  let (out, _) ← doprnt io.mem fmt args 0
  let st ← out.foldlM (printfChar fr) ⟨io, 0⟩
  if st.index ≠ 0 then return (flush fr st).io else return st.io

end RtosKernel.Libc
