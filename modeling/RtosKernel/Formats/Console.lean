import RtosKernel.Formats.Buffers
import RtosKernel.Io.Bounds
import RtosKernel.Math.LineBuffer
import RtosKernel.Strings.Scan

namespace RtosKernel.Libc

open StringMemory IoState

/-- The buffer of `printf`: a character that goes by itself is written with the three zero bytes
that `putchar` adds. -/
def printfBuffer : LineBuffer (BitVec 8) where
  newline := ch '\n'
  urgent c := c == 0
  alone c := [c, 0, 0, 0]
  size := printfBufMax - 1

/-- Where the stack frame of `vprintf` and the string of `puts` may lie. -/
structure PrintfFrame.Placed (fr : PrintfFrame) (mem : Memory) : Prop where
  buf_low : sdramStart.toNat ≤ fr.buf.toNat
  buf_high : fr.buf.toNat + printfBufMax ≤ sdramEnd.toNat
  char_low : sdramStart.toNat ≤ fr.charWord.toNat
  char_high : fr.charWord.toNat + 4 ≤ sdramEnd.toNat
  newline_ends : EndsAccepted fr.newline 1
  newline_buf : ¬ Within fr.buf printfBufMax fr.newline
  newline_char : ¬ Within fr.charWord 4 fr.newline
  newline : mem fr.newline = ch '\n'

/-- `st` has the line of `b` in its buffer and has written what `b` has sent. -/
structure PrintfState.Holds (fr : PrintfFrame) (mem : Memory) (st : PrintfState)
    (b : LineBuffer.State (BitVec 8)) : Prop where
  cells : CellsAt st.io.mem fr.buf b.line
  line : ∀ c ∈ b.line, c ≠ 0
  room : b.line.length ≤ printfBufMax - 1
  index : st.index = BitVec.ofNat 32 b.line.length
  output : st.io.output = b.sent
  frame : ∀ a, ¬ Within fr.buf printfBufMax a → ¬ Within fr.charWord 4 a → st.io.mem a = mem a

variable {fr : PrintfFrame} {mem mem' : Memory} {io : IoState} {st : PrintfState}
  {b : LineBuffer.State (BitVec 8)} {buf : BitVec 32} {c : BitVec 8} {cs out fmt : List (BitVec 8)}
  {args rest : List VaArg} {n : Nat}

section Write

theorem writeOut_mem (buf count : BitVec 32) (io : IoState) :
    (writeOut buf count io).mem = io.mem := by
  unfold writeOut
  by_cases h : EndsAccepted buf count
  · rw [writeSyscall_accepted h, writeLoop_all]
  · rw [writeSyscall_refused h]

/-- Accepted cells are written in order. -/
theorem writeOut_output (hcells : CellsAt io.mem buf cs) (hlen : cs.length < 2 ^ 32)
    (h : EndsAccepted buf (BitVec.ofNat 32 cs.length)) :
    (writeOut buf (BitVec.ofNat 32 cs.length) io).output = io.output ++ cs := by
  have hcount : (BitVec.ofNat 32 cs.length).toNat = cs.length := by
    rw [BitVec.toNat_ofNat, Nat.mod_eq_of_lt hlen]
  have hread : (List.range cs.length).map (fun j => io.mem (buf + BitVec.ofNat 32 j)) = cs := by
    apply List.ext_getElem
    · simp
    · intro i hi hi'
      simp [cellsAt_iff.mp hcells i hi']
  rw [writeOut, writeSyscall_accepted h, writeLoop_all, hcount, hread]

/-- A range in the SDRAM is accepted. -/
theorem endsAccepted_sdram (hlow : sdramStart.toNat ≤ buf.toNat)
    (hhigh : buf.toNat + n ≤ sdramEnd.toNat) : EndsAccepted buf (BitVec.ofNat 32 n) := by
  have hstart : sdramStart.toNat = 0xa0000000 := rfl
  have hend : sdramEnd.toNat = 0xa3ffffff := rfl
  have hafter : (buf + BitVec.ofNat 32 n).toNat = buf.toNat + n := by
    rw [BitVec.toNat_add, BitVec.toNat_ofNat]
    omega
  constructor
  · apply Or.inr
    exact mem_sdram.mpr (by omega)
  · apply Or.inr
    rw [hafter]
    exact mem_sdram.mpr (by omega)

theorem intBytes_char (c : BitVec 8) : intBytes (c.setWidth 32) = [c, 0, 0, 0] := by
  revert c
  decide +kernel

end Write

section Frame

/-- `putchar` writes the character and three zero bytes. -/
theorem putchar_spells (hfr : fr.Placed mem) (c : BitVec 8) (io : IoState) :
    (putchar fr (c.setWidth 32) io).output = io.output ++ [c, 0, 0, 0] ∧
      ∀ a, ¬ Within fr.charWord 4 a → (putchar fr (c.setWidth 32) io).mem a = io.mem a := by
  have hcells : CellsAt (setMem (put io.mem fr.charWord [c, 0, 0, 0]) io).mem fr.charWord
      [c, 0, 0, 0] := put_cellsAt (by simp)
  rw [putchar, intBytes_char, writeOut_mem]
  constructor
  · exact writeOut_output hcells (by simp)
      (endsAccepted_sdram hfr.char_low hfr.char_high)
  · intro a ha
    exact put_outside ha

/-- Once the line is sent, the buffer is empty. -/
theorem PrintfState.Holds.sent (h : st.Holds fr mem b) {io' : IoState} {sent : List (BitVec 8)}
    (hout : io'.output = sent)
    (hmem : ∀ a, ¬ Within fr.buf printfBufMax a → ¬ Within fr.charWord 4 a →
      io'.mem a = st.io.mem a) :
    (PrintfState.mk io' 0).Holds fr mem ⟨[], sent⟩ where
  cells := trivial
  line := by simp
  room := Nat.zero_le _
  index := rfl
  output := hout
  frame a hbuf hchar := (hmem a hbuf hchar).trans (h.frame a hbuf hchar)

/-- The place of the next character is in the buffer. -/
theorem PrintfState.Holds.next (h : st.Holds fr mem b) :
    Within fr.buf printfBufMax (fr.buf + st.index) := by
  rw [h.index]
  apply within_add
  · have hroom := h.room
    unfold printfBufMax at *
    omega
  · decide

/-- A character put behind the line. -/
theorem PrintfState.Holds.put (h : st.Holds fr mem b) (c : BitVec 8) :
    CellsAt (Function.update st.io.mem (fr.buf + st.index) c) fr.buf (b.line ++ [c]) := by
  have hroom := h.room
  have hmax : printfBufMax = 128 := rfl
  rw [h.index, cellsAt_append]
  refine ⟨h.cells.congr fun k hk => ?_, Function.update_self .., trivial⟩
  apply Function.update_of_ne
  intro heq
  have hk' : (fr.buf + BitVec.ofNat 32 k - fr.buf).toNat =
      (fr.buf + BitVec.ofNat 32 b.line.length - fr.buf).toNat := by rw [heq]
  rw [distance_toNat (by omega), distance_toNat (by omega)] at hk'
  omega

theorem PrintfState.Holds.update (h : st.Holds fr mem b) (c : BitVec 8) {a : BitVec 32}
    (ha : ¬ Within fr.buf printfBufMax a) :
    Function.update st.io.mem (fr.buf + st.index) c a = st.io.mem a := by
  apply Function.update_of_ne
  rintro rfl
  exact ha h.next

/-- The line ends in a zero when it is sent. -/
def PrintfState.closed (fr : PrintfFrame) (st : PrintfState) : IoState :=
  setMem (Function.update st.io.mem (fr.buf + st.index) 0) st.io

theorem PrintfState.Holds.stringAt (h : st.Holds fr mem b) :
    StringAt (st.closed fr).mem fr.buf b.line := by
  obtain ⟨hcells, hzero, -⟩ := cellsAt_append.mp (h.put 0)
  exact stringAt_iff.mpr ⟨hcells, h.line, hzero⟩

/-- `write` of the line. -/
theorem PrintfState.Holds.write (hfr : fr.Placed mem) (h : st.Holds fr mem b) :
    (writeOut fr.buf (BitVec.ofNat 32 b.line.length) (st.closed fr)).output = b.flushed := by
  have hroom := h.room
  have hhigh := hfr.buf_high
  have hmax : printfBufMax = 128 := rfl
  have haccept : EndsAccepted fr.buf (BitVec.ofNat 32 b.line.length) :=
    endsAccepted_sdram hfr.buf_low (by omega)
  rw [writeOut_output (stringAt_iff.mp h.stringAt).1 (by omega) haccept]
  exact congrArg (· ++ b.line) h.output

theorem flush_holds (hfr : fr.Placed mem) (h : st.Holds fr mem b) :
    (flush fr st).Holds fr mem ⟨[], b.flushed⟩ := by
  have hflush : flush fr st = ⟨writeOut fr.buf st.index (st.closed fr), 0⟩ := rfl
  rw [hflush, h.index]
  apply h.sent (h.write hfr)
  intro a hbuf _
  rw [writeOut_mem]
  exact h.update 0 hbuf

/-- `puts` of the line, which has no zero in it. -/
theorem puts_holds (hfr : fr.Placed mem) (h : st.Holds fr mem b) :
    ∃ io', puts fr fr.buf (st.closed fr) = .ok io' ∧
      (PrintfState.mk io' 0).Holds fr mem ⟨[], b.flushed ++ [ch '\n']⟩ := by
  have hnl : CellsAt (writeOut fr.buf (BitVec.ofNat 32 b.line.length) (st.closed fr)).mem
      fr.newline [ch '\n'] := by
    refine ⟨?_, trivial⟩
    rw [writeOut_mem]
    exact (h.update 0 hfr.newline_buf).trans
      ((h.frame _ hfr.newline_buf hfr.newline_char).trans hfr.newline)
  have hout := writeOut_output hnl (by decide) hfr.newline_ends
  refine ⟨_, by rw [puts, strlen_eq h.stringAt], h.sent ?_ ?_⟩
  · rw [h.write hfr] at hout
    exact hout
  · intro a hbuf _
    rw [writeOut_mem, writeOut_mem]
    exact h.update 0 hbuf

end Frame

/-- `printf_char` is one step of the line buffer. -/
theorem printfChar_holds (hfr : fr.Placed mem) (h : st.Holds fr mem b) (c : BitVec 8) :
    ∃ st', printfChar fr st c = .ok st' ∧ st'.Holds fr mem (printfBuffer.take b c) := by
  have hroom := h.room
  have hmax : printfBufMax = 128 := rfl
  have hfull : st.index ≥ BitVec.ofNat 32 (printfBufMax - 1) ↔
      printfBufMax - 1 ≤ b.line.length := by
    rw [h.index]
    bv_omega
  by_cases hline : c = ch '\n'
  · obtain ⟨io', hputs, hholds⟩ := puts_holds hfr h
    have hchar : printfChar fr st c = (puts fr fr.buf (st.closed fr)).map fun io => ⟨io, 0⟩ :=
      if_pos hline
    rw [hchar, hputs, LineBuffer.take_newline (d := printfBuffer) hline, hline]
    exact ⟨_, rfl, hholds⟩
  rw [printfChar, if_neg hline]
  by_cases hsend : c = 0 ∨ printfBufMax - 1 ≤ b.line.length
  · have hflush := flush_holds hfr h
    obtain ⟨hout, hmem⟩ := putchar_spells hfr c (flush fr st).io
    rw [if_pos (hsend.imp_right hfull.mpr),
      LineBuffer.take_alone (d := printfBuffer) hline (by simpa [printfBuffer] using hsend)]
    refine ⟨_, rfl, hflush.sent ?_ fun a _ hchar => hmem a hchar⟩
    rw [hout, hflush.output]
    rfl
  · rw [if_neg (by rwa [hfull]),
      LineBuffer.take_append (d := printfBuffer) hline (by simpa [printfBuffer] using hsend)]
    simp only [not_or, Nat.not_le] at hsend
    refine ⟨_, rfl, h.put c, ?_, ?_, ?_, h.output, ?_⟩
    · intro x hx
      rcases List.mem_append.mp hx with hx | hx
      · exact h.line x hx
      · rw [List.mem_singleton.mp hx]
        exact hsend.1
    · simp only [List.length_append, List.length_singleton]
      omega
    · simp only [List.length_append, List.length_singleton]
      rw [h.index, BitVec.ofNat_add]
      rfl
    · intro a hbuf hchar
      exact (h.update c hbuf).trans (h.frame a hbuf hchar)

theorem printfChars_holds (hfr : fr.Placed mem) (h : st.Holds fr mem b)
    (out : List (BitVec 8)) : ∃ st', out.foldlM (printfChar fr) st = .ok st' ∧
      st'.Holds fr mem (out.foldl printfBuffer.take b) := by
  induction out generalizing st b with
  | nil => exact ⟨st, rfl, h⟩
  | cons c out ih =>
    obtain ⟨st₁, hc, h₁⟩ := printfChar_holds hfr h c
    obtain ⟨st₂, hrest, h₂⟩ := ih h₁
    refine ⟨st₂, ?_, h₂⟩
    rw [List.foldlM_cons, hc]
    exact hrest

/-- `vprintf` writes the characters that are printed through a line buffer of 127 characters: each
arrives at the console once and in order, followed by three zeros where it goes by itself. Lines
that fit are written as they are. No byte outside the frame changes. -/
theorem vprintf_output (hfr : fr.Placed io.mem) (h : doprnt io.mem fmt args 0 = .ok (out, rest)) :
    ∃ io', vprintf fr fmt args io = .ok io' ∧
      io'.output = io.output ++ printfBuffer.spell 0 out ∧
      io'.output.filter (· ≠ 0) = io.output.filter (· ≠ 0) ++ out.filter (· ≠ 0) ∧
      ((∀ c ∈ out, c ≠ 0) → (∀ line, line <:+: out → ch '\n' ∉ line → line.length < printfBufMax) →
        io'.output = io.output ++ out) ∧
      ∀ a, ¬ Within fr.buf printfBufMax a → ¬ Within fr.charWord 4 a → io'.mem a = io.mem a := by
  have hstart : (PrintfState.mk io 0).Holds fr io.mem ⟨[], io.output⟩ :=
    ⟨trivial, by simp, Nat.zero_le _, rfl, rfl, fun _ _ _ => rfl⟩
  obtain ⟨st, hrun, hst⟩ := printfChars_holds hfr hstart out
  obtain ⟨b, hb⟩ : ∃ b, out.foldl printfBuffer.take ⟨[], io.output⟩ = b := ⟨_, rfl⟩
  rw [hb] at hst
  have hspell : b.flushed = io.output ++ printfBuffer.spell 0 out := by
    have hflushed := LineBuffer.run_flushed printfBuffer ⟨[], io.output⟩ out
    rw [hb] at hflushed
    simpa [LineBuffer.State.flushed] using hflushed
  have hsome : ∃ io', vprintf fr fmt args io = .ok io' ∧ io'.output = b.flushed ∧
      ∀ a, ¬ Within fr.buf printfBufMax a → ¬ Within fr.charWord 4 a → io'.mem a = io.mem a := by
    have hflush := flush_holds hfr hst
    simp only [vprintf, h, bind, Except.bind, hrun]
    split_ifs with hindex
    · exact ⟨_, rfl, hflush.output, hflush.frame⟩
    · have hempty : b.line = [] := by
        have hroom := hst.room
        have hmax : printfBufMax = 128 := rfl
        rw [not_not, hst.index] at hindex
        apply List.length_eq_zero_iff.mp
        bv_omega
      refine ⟨_, rfl, ?_, hst.frame⟩
      rw [hst.output, LineBuffer.State.flushed, hempty, List.append_nil]
  obtain ⟨io', hok, hout, hframe⟩ := hsome
  rw [hspell] at hout
  refine ⟨io', hok, hout, ?_, ?_, hframe⟩
  · have hfilter : (printfBuffer.spell 0 out).filter (· ≠ 0) = out.filter (· ≠ 0) := by
      apply LineBuffer.spell_filter
      intro c
      simp [printfBuffer, List.filter_cons]
    rw [hout, List.filter_append, hfilter]
  · intro hcalm hlines
    have hfit (line : List (BitVec 8)) (hin : line <:+: out) (hn : ch '\n' ∉ line) :
        line.length ≤ printfBuffer.size :=
      Nat.le_sub_one_of_lt (hlines line hin hn)
    rw [hout, LineBuffer.spell_short _ _ hfit]
    · intro c hc
      exact beq_eq_false_iff_ne.mpr (hcalm c hc)
    · intro line hin hn
      rw [Nat.zero_add]
      exact hfit line hin.isInfix hn

/-- A frame at the top of the user stack, and the string of `puts` in the ROM. -/
def sampleFrame : PrintfFrame := ⟨0xa2ffff00, 0xa2fffe00, 0x10⟩

theorem vprintf_output_number : ∃ io', vprintf sampleFrame ("a%d\nb".toList.map ch) [.word 5]
    (enter (fun _ => ch '\n')) = .ok io' ∧ io'.output = "a5\nb".toList.map ch := by
  have hout : doprnt (fun _ => ch '\n') ("a%d\nb".toList.map ch) [.word 5] 0 =
      .ok ("a5\nb".toList.map ch, []) := by
    decide +kernel
  have hends : EndsAccepted sampleFrame.newline 1 := by
    constructor <;> exact Or.inl (mem_rom.mpr (by decide))
  have hplaced : sampleFrame.Placed (enter fun _ => ch '\n').mem :=
    ⟨by decide, by decide, by decide, by decide, hends, by decide, by decide, rfl⟩
  obtain ⟨io', hok, hspell, -⟩ := vprintf_output hplaced hout
  exact ⟨io', hok, hspell.trans (by decide)⟩

end RtosKernel.Libc
