import RtosKernel.Kernel.Memory
import RtosKernel.Kernel.State

namespace RtosKernel

def Errno.eBadF : Int := 9

abbrev stdinFileno : Int := 0
abbrev stdoutFileno : Int := 1

def eotChar : BitVec 8 := 0x04
def delChar : BitVec 8 := 0x7f

/-- `0x08`, which `read_syscall` treats as `DEL_CHAR`. -/
def backspaceChar : BitVec 8 := 0x08
def crChar : BitVec 8 := 0x0d
def nlChar : BitVec 8 := 0x0a

def sdramStart : BitVec 32 := 0xa0000000
def sdramEnd : BitVec 32 := 0xa3ffffff
def romStart : BitVec 32 := 0x00000000
def romEnd : BitVec 32 := 0x00ffffff

/-- The memory, the characters given to `putc`, and the bytes that an I/O call has loaded and
stored, each oldest first. -/
structure IoState where
  mem : Memory
  output : List (BitVec 8)
  loads : List (BitVec 32)
  stores : List (BitVec 32)

/-- What a call has come to on a finite input: `none` while it waits in `getc`. -/
structure ReadResult where
  ret : Option Int
  unread : List (BitVec 8)
  state : IoState

/-- How a turn of the loop of `read_syscall` ends. -/
inductive Turn where
  | next (i : BitVec 32)
  | ret (i : BitVec 32)

namespace IoState

/-- Before the call has done anything. -/
def enter (mem : Memory) : IoState := ⟨mem, [], [], []⟩

def putc (c : BitVec 8) (st : IoState) : IoState := { st with output := st.output ++ [c] }

def puts (s : List (BitVec 8)) (st : IoState) : IoState := s.foldl (fun st c => st.putc c) st

def load (a : BitVec 32) (st : IoState) : IoState := { st with loads := st.loads ++ [a] }

def store (a : BitVec 32) (c : BitVec 8) (st : IoState) : IoState :=
  { st with mem := Function.update st.mem a c, stores := st.stores ++ [a] }

/-- One turn of the loop of `read_syscall`, on what `getc` returned; a turn that does not return
ends before the increment of `i`. -/
def readTurn (buffer : BitVec 32) (tmp : BitVec 8) (i : BitVec 32) (st : IoState) :
    Turn × IoState :=
  if tmp = delChar ∨ tmp = backspaceChar then
    if i > 0 then (.next (i - 1 - 1), (st.puts [0x08, 0x20, 0x08]).store (buffer + i) 0)
    else (.next i, st)
  else if tmp = eotChar then (.ret i, st)
  else if tmp = crChar ∨ tmp = nlChar then (.ret i, (st.store (buffer + i) nlChar).putc nlChar)
  else (.next i, (st.store (buffer + i) tmp).putc tmp)

def readLoop (buffer count : BitVec 32) (i : BitVec 32) : List (BitVec 8) → IoState → ReadResult
  | [], st => if i < count then ⟨none, [], st⟩ else ⟨some count.toInt, [], st⟩
  | tmp :: input, st =>
    if i < count then
      match st.readTurn buffer tmp i with
      | (.next i, st) => readLoop buffer count (i + 1) input st
      | (.ret i, st) => ⟨some i.toInt, input, st⟩
    else ⟨some count.toInt, tmp :: input, st⟩

def readSyscall (fd : Int) (buf count : BitVec 32) (input : List (BitVec 8)) (st : IoState) :
    ReadResult :=
  if fd ≠ stdinFileno then ⟨some (-Errno.eBadF), input, st⟩
  else if count > sdramEnd - sdramStart ∨ buf < sdramStart ∨ buf > sdramEnd then
    ⟨some (-Errno.eFault), input, st⟩
  else readLoop buf count 0 input st

def writeLoop (buffer count i : BitVec 32) (st : IoState) : IoState :=
  if _h : i < count then
    writeLoop buffer count (i + 1) ((st.load (buffer + i)).putc (st.mem (buffer + i)))
  else st
termination_by (count - i).toNat
decreasing_by bv_omega

def writeSyscall (fd : Int) (buf count : BitVec 32) (st : IoState) : Int × IoState :=
  if fd ≠ stdoutFileno then (-Errno.eBadF, st)
  else if ((buf > romEnd ∧ buf < sdramStart) ∨ buf > sdramEnd ∨
      (buf + count > romEnd ∧ buf + count < sdramStart)) ∨ buf + count > sdramEnd then
    (-Errno.eFault, st)
  else (count.toInt, writeLoop buf count 0 st)

end IoState

end RtosKernel
