import RtosKernel.Io.Bounds
import RtosKernel.Math.LineEditor

namespace RtosKernel

open LineEditor

variable {buf count i : BitVec 32} {mem : Memory} {st st' : IoState} {limit : Nat}
  {line : List (BitVec 8)} {input : List (BitVec 8)} {c : BitVec 8} {newline : Bool} {r : Int}

/-- The characters as keys of a line editor. -/
def ioKey (c : BitVec 8) : LineKey (BitVec 8) :=
  if c = delChar ∨ c = backspaceChar then .erase
  else if c = eotChar then .stop
  else if c = crChar ∨ c = nlChar then .newline
  else .char c

/-- The bytes from `buf` upward begin with `text`. -/
def Holds (mem : Memory) (buf : BitVec 32) (text : List (BitVec 8)) : Prop :=
  ∀ k c, text[k]? = some c → mem (buf + BitVec.ofNat 32 k) = c

/-- The editor, which has `line` already, takes exactly the characters of `input`, and its line is
what has been returned. -/
def Edited (buf : BitVec 32) (limit : Nat) (line input : List (BitVec 8)) (r : Int)
    (mem : Memory) : Prop :=
  ∃ l newline, run ioKey limit line input = some ⟨l, newline, []⟩ ∧ r = l.length ∧
    Holds mem buf l ∧ (newline = true → mem (buf + BitVec.ofNat 32 l.length) = nlChar)

/-- `read_syscall` returns the line of the editor, and writes inside its buffer only. -/
structure EditsLine (buf count : BitVec 32) (input : List (BitVec 8)) (r : Int) (st : IoState) :
    Prop where
  edited : Edited buf count.toNat [] input r st.mem
  stores : ∀ a ∈ st.stores, a.toNat ∈ byteRange buf count

theorem Holds.nil : Holds mem buf [] := by
  intro k c h
  simp at h

/-- A store behind the line leaves the line alone. -/
theorem Holds.store (h : Holds mem buf line) (hi : i.toNat = line.length) :
    Holds (Function.update mem (buf + i) c) buf line := by
  intro k c' hk
  have hlt : k < line.length := (List.getElem?_eq_some_iff.mp hk).1
  have hbound := i.isLt
  have hne : buf + BitVec.ofNat 32 k ≠ buf + i := by bv_omega
  rw [Function.update_of_ne hne]
  exact h k c' hk

theorem Holds.append (h : Holds mem buf line) (hi : i.toNat = line.length) :
    Holds (Function.update mem (buf + i) c) buf (line ++ [c]) := by
  intro k c' hk
  rcases Nat.lt_trichotomy k line.length with hlt | heq | hgt
  · rw [List.getElem?_append_left hlt] at hk
    exact h.store hi k c' hk
  · subst heq
    have hc : c = c' := by simpa using hk
    rw [← hi, Memory.ofNat_index, Function.update_self]
    exact hc
  · have hnone : (line ++ [c])[k]? = none := by
      apply List.getElem?_eq_none
      rw [List.length_append]
      exact hgt
    rw [hnone] at hk
    cases hk

theorem Holds.dropLast (h : Holds mem buf line) : Holds mem buf line.dropLast := by
  intro k c hk
  apply h k c
  rw [List.getElem?_dropLast] at hk
  split_ifs at hk
  exact hk

theorem Edited.of_run (hrun : run ioKey limit line input = some ⟨line, newline, []⟩)
    (hr : r = line.length) (h : Holds mem buf line)
    (hnl : newline = true → mem (buf + BitVec.ofNat 32 line.length) = nlChar) :
    Edited buf limit line input r mem :=
  ⟨line, newline, hrun, hr, h, hnl⟩

theorem edited_char {tmp : BitVec 8} (h : line.length < limit) (hk : ioKey tmp = .char c) :
    Edited buf limit line (tmp :: input) r mem ↔ Edited buf limit (line ++ [c]) input r mem := by
  unfold Edited
  rw [run_char h hk]

theorem edited_erase {tmp : BitVec 8} (h : line.length < limit) (hk : ioKey tmp = .erase) :
    Edited buf limit line (tmp :: input) r mem ↔ Edited buf limit line.dropLast input r mem := by
  unfold Edited
  rw [run_erase h hk]

/-- The editor has stopped with a line of another length. -/
theorem not_edited {rest : List (BitVec 8)}
    (hrun : run ioKey limit line input = some ⟨line, newline, rest⟩) (hr : r ≠ line.length) :
    ¬ Edited buf limit line input r mem := by
  rintro ⟨l, nl, hrun', hr', -, -⟩
  rw [hrun] at hrun'
  cases hrun'
  exact hr hr'

namespace IoState

theorem readTurn_eq (buffer : BitVec 32) (tmp : BitVec 8) (i : BitVec 32) (st : IoState) :
    st.readTurn buffer tmp i =
      match ioKey tmp with
      | .char c => (.next i, (st.store (buffer + i) c).putc c)
      | .erase =>
        if i > 0 then (.next (i - 1 - 1), (st.puts [0x08, 0x20, 0x08]).store (buffer + i) 0)
        else (.next i, st)
      | .stop => (.ret i, st)
      | .newline => (.ret i, (st.store (buffer + i) nlChar).putc nlChar) := by
  unfold readTurn ioKey
  split_ifs <;> rfl

@[simp] theorem putc_mem : (st.putc c).mem = st.mem := rfl

@[simp] theorem store_mem {a : BitVec 32} : (st.store a c).mem = Function.update st.mem a c := rfl

@[simp] theorem puts_mem {s : List (BitVec 8)} : (st.puts s).mem = st.mem := by
  unfold puts
  induction s generalizing st with
  | nil => rfl
  | cons c s ih => exact ih

theorem readLoop_wait (hi : i < count) : readLoop buf count i [] st = ⟨none, [], st⟩ := by
  rw [readLoop, if_pos hi]

theorem readLoop_full (hi : ¬ i < count) :
    readLoop buf count i input st = ⟨some count.toInt, input, st⟩ := by
  cases input with
  | nil => rw [readLoop, if_neg hi]
  | cons tmp input => rw [readLoop, if_neg hi]

section Keys

variable {tmp : BitVec 8} (hi : i < count)
include hi

theorem readLoop_char (hk : ioKey tmp = .char c) : readLoop buf count i (tmp :: input) st =
    readLoop buf count (i + 1) input ((st.store (buf + i) c).putc c) := by
  rw [readLoop, if_pos hi, readTurn_eq, hk]

/-- The index is taken down twice, and up once by the loop. -/
theorem readLoop_erase (hk : ioKey tmp = .erase) (hpos : 0 < i) :
    readLoop buf count i (tmp :: input) st = readLoop buf count (i - 1) input
      ((st.puts [0x08, 0x20, 0x08]).store (buf + i) 0) := by
  have hnext : i - 1 - 1 + 1 = i - 1 := by bv_omega
  rw [readLoop, if_pos hi, readTurn_eq, hk]
  dsimp only
  rw [if_pos hpos]
  dsimp only
  rw [hnext]

/-- At the start of the buffer nothing is erased, but the loop goes on to the next byte. -/
theorem readLoop_erase_zero (hk : ioKey tmp = .erase) (hzero : i = 0) :
    readLoop buf count i (tmp :: input) st = readLoop buf count 1 input st := by
  subst hzero
  rw [readLoop, if_pos hi, readTurn_eq, hk]
  rfl

theorem readLoop_stop (hk : ioKey tmp = .stop) :
    readLoop buf count i (tmp :: input) st = ⟨some i.toInt, input, st⟩ := by
  rw [readLoop, if_pos hi, readTurn_eq, hk]

theorem readLoop_newline (hk : ioKey tmp = .newline) : readLoop buf count i (tmp :: input) st =
    ⟨some i.toInt, input, (st.store (buf + i) nlChar).putc nlChar⟩ := by
  rw [readLoop, if_pos hi, readTurn_eq, hk]

end Keys

/-- `i` is the length of the line, and the line is in the buffer. -/
structure InStep (buf i : BitVec 32) (line : List (BitVec 8)) (st : IoState) : Prop where
  index : i.toNat = line.length
  holds : Holds st.mem buf line

theorem InStep.char (h : InStep buf i line st) (hi : i < count) :
    InStep buf (i + 1) (line ++ [c]) ((st.store (buf + i) c).putc c) := by
  refine ⟨?_, h.holds.append h.index⟩
  have hindex := h.index
  rw [List.length_append, List.length_singleton]
  bv_omega

theorem InStep.erase (h : InStep buf i line st) (hpos : 0 < i) :
    InStep buf (i - 1) line.dropLast ((st.puts [0x08, 0x20, 0x08]).store (buf + i) 0) := by
  have hindex := h.index
  refine ⟨?_, ?_⟩
  · rw [List.length_dropLast]
    bv_omega
  · rw [store_mem, puts_mem]
    exact (h.holds.store hindex).dropLast

/-- The rest of the input makes what is returned the editor's line if `i` is in step and the
erases on the empty line still to come are even in number, or if `i` is one ahead and they are
odd. -/
structure Agrees (buf : BitVec 32) (limit : Nat) (r : Int) (mem : Memory) (i : BitVec 32)
    (line : List (BitVec 8)) (st : IoState) (input : List (BitVec 8)) : Prop where
  inStep : InStep buf i line st →
    (Edited buf limit line input r mem ↔ Even (emptyErases ioKey line.length input))
  ahead : i.toNat = line.length + 1 →
    (Edited buf limit line input r mem ↔ ¬ Even (emptyErases ioKey line.length input))

variable {tmp : BitVec 8} {st₁ : IoState}

/-- The buffer is full; one ahead, the editor still waits for its last character. -/
theorem Agrees.full (hr : r = limit) (hi : i.toNat = limit) :
    Agrees buf limit r st.mem i line st [] where
  inStep h := by
    have hlength : limit ≤ line.length := by rw [← hi, h.index]
    have hzero : emptyErases ioKey line.length [] = 0 := rfl
    rw [hzero]
    refine iff_of_true (Edited.of_run (run_complete hlength) ?_ h.holds ?_) Even.zero
    · rw [hr, ← hi, h.index]
    · intro hnl
      cases hnl
  ahead h := by
    have hzero : emptyErases ioKey line.length [] = 0 := rfl
    rw [hzero]
    refine iff_of_false ?_ (not_not.mpr Even.zero)
    rintro ⟨l, nl, hline, -⟩
    rw [run_nil (by omega)] at hline
    cases hline

theorem Agrees.char (hk : ioKey tmp = .char c) (hlt : i < count)
    (h : Agrees buf count.toNat r mem (i + 1) (line ++ [c]) ((st.store (buf + i) c).putc c) input) :
    Agrees buf count.toNat r mem i line st (tmp :: input) := by
  have hlt' : i.toNat < count.toNat := hlt
  have hlength : (line ++ [c]).length = line.length + 1 := List.length_append
  constructor
  · intro hstep
    have hindex := hstep.index
    rw [edited_char (by omega) hk, emptyErases_char hk, ← hlength]
    exact h.inStep (hstep.char hlt)
  · intro hahead
    have hnext : (i + 1).toNat = (line ++ [c]).length + 1 := by bv_omega
    rw [edited_char (by omega) hk, emptyErases_char hk, ← hlength]
    exact h.ahead hnext

theorem Agrees.erase (hk : ioKey tmp = .erase) (hlt : i < count) (hne : line ≠ [])
    (h : 0 < i → Agrees buf count.toNat r mem (i - 1) line.dropLast
      ((st.puts [0x08, 0x20, 0x08]).store (buf + i) 0) input) :
    Agrees buf count.toNat r mem i line st (tmp :: input) := by
  have hlt' : i.toNat < count.toNat := hlt
  have hlength : line.length = line.dropLast.length + 1 := by
    have hpos := List.length_pos_of_ne_nil hne
    rw [List.length_dropLast]
    omega
  constructor
  · intro hstep
    have hindex := hstep.index
    have hpos : 0 < i := by bv_omega
    rw [edited_erase (by omega) hk, hlength, emptyErases_erase hk]
    exact (h hpos).inStep (hstep.erase hpos)
  · intro hahead
    have hpos : 0 < i := by bv_omega
    have hprev : (i - 1).toNat = line.dropLast.length + 1 := by bv_omega
    rw [edited_erase (by omega) hk, hlength, emptyErases_erase hk]
    exact (h hpos).ahead hprev

/-- On the empty line in step becomes one ahead, and one ahead becomes in step. -/
theorem Agrees.eraseEmpty (hk : ioKey tmp = .erase) (hlt : i < count)
    (hzero : i = 0 → Agrees buf count.toNat r mem 1 [] st input)
    (hone : i = 1 → Agrees buf count.toNat r mem 0 [] st₁ input) :
    Agrees buf count.toNat r mem i [] st (tmp :: input) := by
  have hpos : ([] : List (BitVec 8)).length < count.toNat := Nat.zero_lt_of_lt hlt
  have hline : Edited buf count.toNat [] (tmp :: input) r mem ↔
      Edited buf count.toNat [] input r mem := edited_erase hpos hk
  constructor
  · intro hstep
    have hindex : i = 0 := BitVec.eq_of_toNat_eq hstep.index
    rw [hline, List.length_nil, emptyErases_empty hk, Nat.even_add_one]
    exact (hzero hindex).ahead rfl
  · intro hahead
    have hindex : i = 1 := BitVec.eq_of_toNat_eq hahead
    rw [hline, List.length_nil, emptyErases_empty hk, Nat.even_add_one, not_not]
    exact (hone hindex).inStep ⟨rfl, Holds.nil⟩

/-- The editor stops, with the line that it has, on the last character of the input. -/
theorem Agrees.stop (hlt : i.toNat < limit) (hr : r = i.toNat)
    (hline : line.length < limit → run ioKey limit line [tmp] = some ⟨line, newline, []⟩)
    (hzero : emptyErases ioKey line.length [tmp] = 0)
    (hmem : InStep buf i line st → Holds mem buf line ∧
      (newline = true → mem (buf + BitVec.ofNat 32 line.length) = nlChar)) :
    Agrees buf limit r mem i line st [tmp] := by
  constructor
  · intro hstep
    have hindex := hstep.index
    have hlength : r = line.length := by rw [hr, hindex]
    rw [hzero]
    exact iff_of_true
      (Edited.of_run (hline (by omega)) hlength (hmem hstep).1 (hmem hstep).2) Even.zero
  · intro hahead
    rw [hzero]
    exact iff_of_false (not_edited (hline (by omega)) (by omega)) (not_not.mpr Even.zero)

/-- Every run of the loop that returns agrees with the editor. -/
theorem readLoop_edits (hcount : count.toNat < 2 ^ 31)
    (hrun : readLoop buf count i input st = ⟨some r, [], st'⟩) (hi : i ≤ count) :
    Agrees buf count.toNat r st'.mem i line st input := by
  induction input generalizing i st line with
  | nil =>
    have hfull : ¬ i < count := by
      intro hlt
      rw [readLoop_wait hlt] at hrun
      cases hrun
    rw [readLoop_full hfull] at hrun
    cases hrun
    exact .full (Memory.toInt_index hcount (BitVec.le_refl count)) (by bv_omega)
  | cons tmp input ih =>
    have hlt : i < count := by
      by_contra hfull
      rw [readLoop_full hfull] at hrun
      cases hrun
    have hint := Memory.toInt_index hcount hi
    cases hk : ioKey tmp with
    | char c =>
      rw [readLoop_char hlt hk] at hrun
      exact .char hk hlt (ih hrun (by bv_omega))
    | erase =>
      by_cases hempty : line = []
      · subst hempty
        apply Agrees.eraseEmpty hk hlt
        · intro hzero
          rw [readLoop_erase_zero hlt hk hzero] at hrun
          exact ih hrun (by bv_omega)
        · intro hone
          subst hone
          rw [readLoop_erase hlt hk (by decide)] at hrun
          exact ih hrun (by bv_omega)
      · apply Agrees.erase hk hlt hempty
        intro hpos
        rw [readLoop_erase hlt hk hpos] at hrun
        exact ih hrun (by bv_omega)
    | stop =>
      rw [readLoop_stop hlt hk] at hrun
      cases hrun
      apply Agrees.stop hlt hint
      · intro hshort
        exact run_stop hshort hk
      · exact emptyErases_stop hk
      · intro hstep
        exact ⟨hstep.holds, fun hnl => nomatch hnl⟩
    | newline =>
      rw [readLoop_newline hlt hk] at hrun
      cases hrun
      apply Agrees.stop hlt hint
      · intro hshort
        exact run_newline hshort hk
      · exact emptyErases_newline hk
      · intro hstep
        refine ⟨hstep.holds.store hstep.index, fun _ => ?_⟩
        rw [← hstep.index, Memory.ofNat_index]
        exact Function.update_self ..

/-- `read_syscall` is the line editor exactly if the erases on the empty line come in pairs;
`input` is what `getc` delivered during the call. -/
theorem line_editing (haccept : ReadAccepted buf count)
    (hrun : readSyscall stdinFileno buf count input (enter mem) = ⟨some r, [], st'⟩) :
    EditsLine buf count input r st' ↔ Even (emptyErases ioKey 0 input) := by
  rw [readSyscall_accepted haccept] at hrun
  have hcount : count.toNat ≤ 0x03ffffff := haccept.2
  have hstart := mem_sdram.mp haccept.1
  have hstores : ∀ a ∈ st'.stores, a.toNat ∈ byteRange buf count := by
    intro a ha
    have hmem : a ∈ (readLoop buf count 0 input (enter mem)).state.stores := by
      rw [hrun]
      exact ha
    rcases readLoop_stores hmem with hnone | ⟨j, hj, rfl⟩
    · cases hnone
    · have hj' : j.toNat < count.toNat := hj
      have haddr := @Memory.offset_toNat buf j (by omega)
      constructor <;> omega
  have hedits : Edited buf count.toNat [] input r st'.mem ↔ Even (emptyErases ioKey 0 input) :=
    (readLoop_edits (by omega) hrun (Nat.zero_le count.toNat)).inStep ⟨rfl, Holds.nil⟩
  rw [← hedits]
  constructor
  · intro h
    exact h.edited
  · intro h
    exact ⟨h, hstores⟩

/-- `ab`, a delete, `c` and a carriage return. -/
theorem line_editing_delete : ∃ r st',
    readSyscall stdinFileno 0xa0000000 8 [0x61, 0x62, 0x7f, 0x63, 0x0d]
      (enter (BitVec.setWidth 8)) = ⟨some r, [], st'⟩ ∧
    EditsLine 0xa0000000 8 [0x61, 0x62, 0x7f, 0x63, 0x0d] r st' := by
  refine ⟨2, _, rfl, (line_editing ⟨mem_sdram.mpr (by decide), by decide⟩ rfl).mpr ?_⟩
  decide

/-- A delete on the empty line, and then EOT: the length returned is 1. -/
theorem deleteOnEmpty_counts :
    readSyscall stdinFileno 0xa0000000 8 [0x7f, 0x04] (enter (BitVec.setWidth 8)) =
      ⟨some 1, [], enter (BitVec.setWidth 8)⟩ ∧
    ¬ EditsLine 0xa0000000 8 [0x7f, 0x04] 1 (enter (BitVec.setWidth 8)) := by
  refine ⟨rfl, fun h => ?_⟩
  exact @not_edited 0xa0000000 _ 8 [] [0x7f, 0x04] false 1 [] rfl (by decide) h.edited

end IoState

end RtosKernel
