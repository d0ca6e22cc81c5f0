import RtosKernel.Formats.Printing

namespace RtosKernel.Libc

open Rounds StringMemory

variable {mem : Memory} {args rest : List VaArg} {cv : Conversion} {p : BitVec 32} {n prec : Int}
  {cs out : List (BitVec 8)}

/-- The argument of `%s`: a null pointer stands for the empty string. -/
def PrintsAs (mem : Memory) (p : BitVec 32) (cs : List (BitVec 8)) : Prop :=
  if p = 0 then cs = [] else StringAt mem p cs

theorem countTurn_loop (h : StringAt mem p cs) :
    loop (countTurn mem prec) (cs.length + 1) (n, p) =
      some (n + min cs.length (prec - n).toNat) := by
  induction cs generalizing n p with
  | nil =>
    have hzero : mem p = 0 := h
    apply loop_leave
    simp [countTurn, hzero]
  | cons c cs ih =>
    obtain ⟨hc, hne, hcs⟩ := h
    by_cases hn : n < prec
    · have hturn : countTurn mem prec (n, p) = .again (n + 1, p + 1) := by
        rw [countTurn, hc, if_pos ⟨hne, hn⟩]
      rw [List.length_cons, loop_again hturn, ih hcs]
      congr 1
      omega
    · have hturn : countTurn mem prec (n, p) = .leave n := by simp [countTurn, hn]
      rw [loop_leave hturn]
      congr 1
      omega

theorem stringTurn_loop (h : StringAt mem p cs) :
    loop (stringTurn mem prec) (cs.length + 1) (n, p, out) =
      some (n + min cs.length (prec - n).toNat + (if (prec - n).toNat < cs.length then 1 else 0),
        out ++ cs.take (prec - n).toNat) := by
  induction cs generalizing n p out with
  | nil =>
    have hzero : mem p = 0 := h
    apply loop_leave
    simp [stringTurn, hzero]
  | cons c cs ih =>
    obtain ⟨hc, hne, hcs⟩ := h
    by_cases hn : n + 1 > prec
    · have hturn : stringTurn mem prec (n, p, out) = .leave (n + 1, out) := by
        rw [stringTurn, hc, if_pos hne, if_pos hn]
      have hroom : (prec - n).toNat = 0 := by omega
      rw [loop_leave hturn, hroom]
      simp
    · have hturn : stringTurn mem prec (n, p, out) = .again (n + 1, p + 1, out ++ [c]) := by
        rw [stringTurn, hc, if_pos hne, if_neg hn]
      have hroom : (prec - n).toNat = (prec - (n + 1)).toNat + 1 := by omega
      rw [List.length_cons, loop_again hturn, ih hcs, hroom, List.take_succ_cons]
      simp only [List.append_assoc, List.singleton_append, Nat.add_lt_add_iff_right]
      congr 2
      omega

/-- How many characters of a string are printed at most. -/
def shownMax (cv : Conversion) : Nat := (if cv.prec = -1 then 0x7fffffff else cv.prec).toNat

/-- A string in its field. Behind a string that has been cut short one blank is missing: the
character that ended the loop has been counted. -/
def stringField (cv : Conversion) (cs : List (BitVec 8)) : List (BitVec 8) :=
  let shown := cs.take (shownMax cv)
  let cut : Nat := if shownMax cv < cs.length then 1 else 0
  if cv.ladjust then
    shown ++ List.replicate (cv.length - (shown.length + cut)).toNat (ch ' ')
  else List.replicate (cv.length - shown.length).toNat (ch ' ') ++ shown

theorem stringField_length (cv : Conversion) (cs : List (BitVec 8)) :
    (stringField cv cs).length =
      max (cs.take (shownMax cv)).length
        (cv.length - if cv.ladjust ∧ shownMax cv < cs.length then 1 else 0).toNat := by
  unfold stringField
  cases hl : cv.ladjust with
  | true =>
    simp only [if_true, true_and, List.length_append, List.length_replicate]
    split_ifs with hcut
    · omega
    · omega
  | false =>
    simp only [Bool.false_eq_true, if_false, false_and, List.length_append, List.length_replicate]
    omega

theorem printString_eq (h : PrintsAs mem p cs) :
    printString mem cv (.word p :: args) = .ok (stringField cv cs, args) := by
  have hmem : StringAt (if p = 0 then fun _ => 0 else mem) p cs := by
    unfold PrintsAs at h
    split_ifs at h ⊢
    · rw [h]
      rfl
    · exact h
  generalize hm : (if p = 0 then fun _ => 0 else mem : Memory) = mem' at hmem
  generalize hprec : (if cv.prec = -1 then 0x7fffffff else cv.prec) = prec
  have hcount : loop (countTurn mem' prec) rounds (0, p) =
      some ((min cs.length prec.toNat : Nat) : Int) := by
    rw [loop_mono (countTurn_loop hmem) hmem.length_lt]
    simp
  have hprint : loop (stringTurn mem' prec) rounds (0, p, []) =
      some (((min cs.length prec.toNat : Nat) : Int) + if prec.toNat < cs.length then 1 else 0,
        cs.take prec.toNat) := by
    rw [loop_mono (stringTurn_loop hmem) hmem.length_lt]
    simp
  have hshown : (cs.take prec.toNat).length = min cs.length prec.toNat := by
    rw [List.length_take, Nat.min_comm]
  have hmax : shownMax cv = prec.toNat := congrArg Int.toNat hprec
  simp only [printString, vaWord, bind, Except.bind, hm, hprec, hcount, hprint, stringField, hmax,
    hshown]
  generalize min cs.length prec.toNat = m
  cases hl : cv.ladjust with
  | true =>
    simp only [not_true_eq_false, and_false, if_false, and_true, if_true, List.nil_append]
    split_ifs with hcut hlt hlt
    · rfl
    · have hgap : (cv.length - ((m : Int) + (1 : Nat))).toNat = 0 := by omega
      rw [hgap]
      rfl
    · simp only [Int.add_zero, Nat.cast_zero]
      rfl
    · have hgap : (cv.length - ((m : Int) + (0 : Nat))).toNat = 0 := by omega
      rw [hgap]
      rfl
  | false =>
    simp only [Bool.false_eq_true, not_false_eq_true, and_true, and_false, if_false,
      List.append_nil, List.nil_append]
    split_ifs with hlen
    · rfl
    · have hgap : (cv.length - (m : Int)).toNat = 0 := by omega
      rw [hgap]
      rfl

/-- `%s` prints the string, cut to its precision, in a field of its width; to the left of its blanks
a string that has been cut gets a field one character too narrow. -/
theorem string_field {d : Directive} {radix : Int} (hk : d.conv = ch 's')
    (hd : d.conversion args = .ok (cv, .word p :: rest)) (h : PrintsAs mem p cs) :
    doprnt mem (ch '%' :: d.chars) args radix = .ok (stringField cv cs, rest) ∧
    (stringField cv cs).length = max (cs.take (shownMax cv)).length
      (cv.length - if cv.ladjust ∧ shownMax cv < cs.length then 1 else 0).toNat := by
  refine ⟨doprnt_directive hd ?_, stringField_length cv cs⟩
  rw [hk]
  exact printString_eq h

/-- `%-5.2s` -/
def cutField : Directive where
  flags := [.left]
  zero := false
  width := .digits ⟨5, by decide⟩ []
  prec := some (.digits ⟨2, by decide⟩ [])
  longs := 0
  conv := ch 's'
  conv_plain := by decide
  conv_char := by decide
  width_leads _ := Field.digits_lead [] (by decide)

/-- Four characters for a field of five. -/
theorem string_field_cut : doprnt (holding 0x100 [0x61, 0x62, 0x63]) (ch '%' :: cutField.chars)
    [.word 0x100] 0 = .ok ([0x61, 0x62, 0x20, 0x20], []) := by
  have hd : cutField.conversion [.word 0x100] =
      .ok (⟨5, 2, true, ch ' ', 0, false, 0⟩, [.word 0x100]) := by decide +kernel
  have hs : PrintsAs (holding 0x100 [0x61, 0x62, 0x63]) 0x100 [0x61, 0x62, 0x63] :=
    holding_stringAt (by decide) (by decide)
  have htext : stringField ⟨5, 2, true, ch ' ', 0, false, 0⟩ [0x61, 0x62, 0x63] =
      [0x61, 0x62, 0x20, 0x20] := by decide
  rw [← htext]
  exact (string_field rfl hd hs).1

end RtosKernel.Libc
