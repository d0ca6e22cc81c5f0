import Mathlib.Data.List.DropRight
import RtosKernel.Formats.ReadBack

namespace RtosKernel.Libc

open Rounds StringMemory

variable {mem mem' : Memory} {s p v : BitVec 32} {c : BitVec 8}
  {cs t u fmt rest tail : List (BitVec 8)} {ps : List (BitVec 32)} {vals : Nat}

section Numbers

theorem isdigit_digitIn : ∀ c : BitVec 8, digitIn 10 c =
    if isdigit c then some (c.setWidth 32 - (ch '0').setWidth 32) else none := by decide +kernel

theorem hex_digitIn : ∀ c : BitVec 8, digitIn 16 c =
    if c ≥ ch '0' ∧ c ≤ ch '9' then some (c.setWidth 32 - (ch '0').setWidth 32)
    else if c ≥ ch 'a' ∧ c ≤ ch 'f' then some (c.setWidth 32 - (ch 'a').setWidth 32 + 10)
    else if c ≥ ch 'A' ∧ c ≤ ch 'F' then some (c.setWidth 32 - (ch 'A').setWidth 32 + 10)
    else none := by decide +kernel

/-- The digit loops of `_doscan` and of `strtol` are the same. -/
theorem scanDecTurn_eq : scanDecTurn mem = digitTurn mem 10 := by
  funext st
  obtain ⟨n, s⟩ := st
  simp only [scanDecTurn, digitTurn, isdigit_digitIn, charAt]
  split_ifs <;> rfl

theorem scanHexTurn_eq : scanHexTurn mem = digitTurn mem 16 := by
  funext st
  obtain ⟨n, s⟩ := st
  simp only [scanHexTurn, digitTurn, hex_digitIn, charAt]
  split_ifs <;> rfl

end Numbers

section White

theorem spaces_append (h : ∀ c ∈ rest.head?, isspace c = false) :
    spaces (u ++ rest) = spaces u := by
  have hrest : spaces rest = 0 := by
    cases rest with
    | nil => rfl
    | cons c rest =>
      have hc : isspace c = false := h c rfl
      simp [spaces, List.findIdx_cons, hc]
  have hle : spaces u ≤ u.length := spaces_le
  unfold spaces at hrest hle ⊢
  rw [List.findIdx_append, hrest]
  split_ifs <;> omega

/-- Text of the format takes itself from the input, and white space in it any amount: the input may
have lost the white space that the text starts with. -/
theorem doscan_text (hu : u = t ∨ u = t.dropWhile isspace) (h : StringAt mem s (u ++ rest))
    (hplain : ∀ c ∈ t, c ≠ ch '%') (hrest : ∀ c ∈ rest.head?, isspace c = false) :
    doscan (t ++ fmt) none ⟨mem, s, ps, vals⟩ =
      doscan fmt none ⟨mem, s + BitVec.ofNat 32 u.length, ps, vals⟩ := by
  induction t generalizing s u with
  | nil =>
    have hnil : u = [] := by simpa using hu
    rw [hnil, List.length_nil, add_ofNat_zero, List.nil_append]
  | cons c t ih =>
    obtain ⟨hc, ht⟩ := List.forall_mem_cons.mp hplain
    cases hspace : isspace c with
    | true =>
      have hleft : u.drop (spaces u) = t.dropWhile isspace := by
        have hwhile : u.drop (spaces u) = u.dropWhile isspace :=
          List.dropWhile_eq_drop_findIdx_not.symm
        rw [List.dropWhile_cons_of_pos hspace] at hu
        rcases hu with rfl | rfl
        · rw [hwhile, List.dropWhile_cons_of_pos hspace]
        · rw [hwhile, List.dropWhile_idempotent]
      have hle : spaces u ≤ u.length := spaces_le
      have hnext := h.drop (i := spaces u) (by rw [List.length_append]; omega)
      rw [List.drop_append_of_le_length hle] at hnext
      rw [List.cons_append, doscan, if_pos hc, hspace, if_pos rfl, spaceTurn_loop h,
        spaces_append hrest]
      dsimp only
      rw [ih (Or.inr hleft) hnext ht, add_ofNat_add, List.length_drop, Nat.add_sub_cancel' hle]
    | false =>
      rw [List.dropWhile_cons_of_neg (by simp [hspace]), or_self] at hu
      subst hu
      rw [List.cons_append, doscan, if_pos hc, hspace, if_neg (by simp), if_pos h.1.symm]
      dsimp only
      rw [ih (Or.inl rfl) h.2.2 ht, add_ofNat_succ, List.length_cons]

end White

/-- A number between texts: what stands before it, how it is written, and where it is read to. -/
structure Item where
  text : List (BitVec 8)
  hex : Bool
  word : BitVec 32
  dest : BitVec 32

namespace Item

variable (x : Item)

def kind : Numeric := if x.hex then .hex else .decimal

def conv : BitVec 8 := if x.hex then ch 'x' else ch 'd'

def value : Int := if x.hex then x.word.toNat else x.word.toInt

/-- `%d` or `%x` without anything between. -/
def directive : Directive where
  flags := []
  zero := false
  width := .none
  prec := none
  longs := 0
  conv := x.conv
  conv_plain := by
    unfold conv
    split_ifs <;> decide
  conv_char := by
    unfold conv
    split_ifs <;> decide
  width_leads := by simp

def digits : List Nat := Digits.digits x.kind.base x.value.natAbs

def number : List (BitVec 8) := (if x.value < 0 then [ch '-'] else []) ++ x.digits.map digitChar

/-- A format for the items, and what is written with it. -/
def format (tail : List (BitVec 8)) : List Item → List (BitVec 8)
  | [] => tail
  | x :: xs => x.text ++ ch '%' :: x.conv :: format tail xs

def written (tail : List (BitVec 8)) : List Item → List (BitVec 8)
  | [] => tail
  | x :: xs => x.text ++ (x.number ++ written tail xs)

/-- No number is followed by a digit of its base, and no text contains a `%` or a zero. -/
def Separated (tail : List (BitVec 8)) : List Item → Prop
  | [] => ∀ c ∈ tail, c ≠ ch '%' ∧ c ≠ 0
  | x :: xs => (∀ c ∈ x.text, c ≠ ch '%' ∧ c ≠ 0) ∧
      (∀ c ∈ (written tail xs).head?, (digitValue c).filter (· < x.kind.base) = none) ∧
      Separated tail xs

variable {x} {xs : List Item}

theorem base_eq : x.kind.base = if x.hex then 16 else 10 := by
  unfold kind
  cases x.hex <;> rfl

theorem digits_lt : ∀ d ∈ x.digits, d < x.kind.base := by
  intro d hd
  refine Digits.digits_lt ?_ hd
  rw [base_eq]
  split_ifs <;> decide

theorem digit_lt_sixteen : ∀ d ∈ x.digits, d < 16 := by
  intro d hd
  have hlt := digits_lt d hd
  rw [base_eq] at hlt
  split_ifs at hlt <;> omega

theorem digits_cons : ∃ d ds, x.digits = d :: ds ∧ d < 16 := by
  obtain ⟨d, ds, hds⟩ := List.exists_cons_of_ne_nil
    (Digits.digits_ne_nil x.kind.base x.value.natAbs)
  exact ⟨d, ds, hds, digit_lt_sixteen d (by rw [digits, hds]; simp)⟩

/-- A number starts with a minus sign or with a digit. -/
theorem number_head : ∃ c cs, x.number = c :: cs ∧ isspace c = false := by
  obtain ⟨d, ds, hds, hd⟩ := digits_cons (x := x)
  unfold number
  rw [hds]
  split_ifs
  · exact ⟨_, _, rfl, by decide⟩
  · exact ⟨_, _, rfl, (digitChar_plain d hd).2.2.2.1⟩

theorem number_ne_zero : ∀ c ∈ x.number, c ≠ 0 := by
  intro c hc
  rcases List.mem_append.mp hc with hc | hc
  · split_ifs at hc
    · rw [List.mem_singleton.mp hc]
      decide
    · cases hc
  · obtain ⟨d, hd, rfl⟩ := List.mem_map.mp hc
    exact (digitChar_plain d (digit_lt_sixteen d hd)).2.2.2.2

theorem written_ne_zero (h : Separated tail xs) : ∀ c ∈ written tail xs, c ≠ 0 := by
  induction xs with
  | nil => exact fun c hc => (h c hc).2
  | cons x xs ih =>
    obtain ⟨htext, -, hxs⟩ := h
    intro c hc
    rcases List.mem_append.mp hc with hc | hc
    · exact (htext c hc).2
    · rcases List.mem_append.mp hc with hc | hc
      · exact number_ne_zero c hc
      · exact ih hxs c hc

section Printing

/-- Number and sign fill a field of no width. -/
theorem text_number : x.kind.text ⟨0, -1, false, ch ' ', 0, false, 0⟩ x.value = x.number := by
  have hsign : signChars (x.kind.signChar ⟨0, -1, false, ch ' ', 0, false, 0⟩ x.value) =
      if x.value < 0 then [ch '-'] else [] := by
    rcases @Numeric.sign_cases ⟨0, -1, false, ch ' ', 0, false, 0⟩ x.value x.kind (Or.inl rfl)
      with h | ⟨hpos, h⟩
    · exact h
    · unfold Numeric.signChar signChars at h
      rw [if_neg hpos] at h
      split_ifs at h <;> contradiction
  have hblank : ch ' ' ≠ ch '0' := by decide
  unfold Numeric.text Numeric.head numberField
  rw [hsign]
  simp [hblank, altPrefix, number, Numeric.digits, digits]

theorem convert_item (args : List VaArg) :
    convert mem 0 x.conv ⟨0, -1, false, ch ' ', 0, false, 0⟩ (.word x.word :: args) =
      .ok (x.number, args) := by
  have hv : x.kind.value 0 (.word x.word) = some x.value := by
    unfold kind value
    cases x.hex <;> rfl
  have hconv : x.conv = x.kind.char false := by
    unfold kind conv
    cases x.hex <;> rfl
  rw [hconv, ← text_number]
  exact Numeric.convert_value hv (by decide) (by decide) (Or.inl rfl)

theorem doprntLoop_text {fuel : Nat} (hplain : ∀ c ∈ t, c ≠ ch '%') (args : List VaArg) :
    doprntLoop mem 0 (t.length + fuel) (t ++ fmt) args =
      (doprntLoop mem 0 fuel fmt args).map fun (out, args) => (t ++ out, args) := by
  induction t with
  | nil =>
    rw [List.length_nil, Nat.zero_add, List.nil_append]
    cases doprntLoop mem 0 fuel fmt args <;> rfl
  | cons c t ih =>
    obtain ⟨hc, ht⟩ := List.forall_mem_cons.mp hplain
    rw [List.length_cons, Nat.succ_add, List.cons_append, doprntLoop, if_pos hc, ih ht]
    cases doprntLoop mem 0 fuel fmt args <;> rfl

theorem doprntLoop_format (h : Separated tail xs) {fuel : Nat}
    (hfuel : (format tail xs).length < fuel) :
    doprntLoop mem 0 fuel (format tail xs) (xs.map fun x => .word x.word) =
      .ok (written tail xs, []) := by
  induction xs generalizing fuel with
  | nil =>
    obtain ⟨k, rfl⟩ : ∃ k, fuel = tail.length + (k + 1) :=
      ⟨fuel - tail.length - 1, by rw [format] at hfuel; omega⟩
    have hend : doprntLoop mem 0 (k + 1) [] [] = .ok ([], []) := rfl
    have hloop : doprntLoop mem 0 (tail.length + (k + 1)) (tail ++ []) [] =
        (doprntLoop mem 0 (k + 1) [] []).map fun (out, args) => (tail ++ out, args) :=
      doprntLoop_text (fun c hc => (h c hc).1) []
    rw [List.append_nil, hend] at hloop
    rw [format, List.map_nil, hloop, written]
    simp [Except.map]
  | cons x xs ih =>
    obtain ⟨htext, -, hxs⟩ := h
    obtain ⟨k, rfl⟩ : ∃ k, fuel = x.text.length + (k + 1) := by
      refine ⟨fuel - x.text.length - 1, ?_⟩
      rw [format, List.length_append] at hfuel
      omega
    have hk : (format tail xs).length < k := by
      rw [format, List.length_append, List.length_cons, List.length_cons] at hfuel
      omega
    have hdirective (args : List VaArg) : Libc.directive (x.conv :: format tail xs) args =
        .ok (x.conv :: format tail xs, ⟨0, -1, false, ch ' ', 0, false, 0⟩, args) :=
      directive_chars x.directive args
    rw [format, written, doprntLoop_text fun c hc => (htext c hc).1, List.map_cons, doprntLoop,
      if_neg (by simp), hdirective]
    simp only [bind, Except.bind, convert_item, ih hxs hk, pure, Except.pure, Except.map]

theorem doprnt_format (h : Separated tail xs) :
    doprnt mem (format tail xs) (xs.map fun x => .word x.word) 0 = .ok (written tail xs, []) :=
  doprntLoop_format h (Nat.lt_succ_self _)

end Printing

section Reading

variable {x : Item} {xs : List Item}

/-- What the digits of a number are read as. -/
theorem value_word : (if x.value < 0 then -BitVec.ofNat 32 x.value.natAbs
    else BitVec.ofNat 32 x.value.natAbs) = x.word := by
  have hv : x.kind.value 0 (.word x.word) = some x.value := by
    unfold kind value
    cases x.hex <;> rfl
  exact Numeric.value_lowWord hv

theorem numeral_number (h : ∀ c ∈ rest.head?, (digitValue c).filter (· < x.kind.base) = none) :
    numeral x.kind.base (x.digits.map digitChar ++ rest) = x.digits := by
  refine numeral_digits ?_ digits_lt h
  rw [base_eq]
  split_ifs <;> decide

theorem scanNumber_item {base : BitVec 32} {turn : Memory → BitVec 32 × BitVec 32 →
      Round (BitVec 32 × BitVec 32) (BitVec 32 × BitVec 32)}
    (hturn : turn mem = digitTurn mem base) (hbase : base.toNat = x.kind.base)
    (h : StringAt mem s (x.number ++ rest))
    (hrest : ∀ c ∈ rest.head?, (digitValue c).filter (· < x.kind.base) = none) :
    scanNumber turn false ⟨mem, s, x.dest :: ps, vals⟩ =
      .ok ⟨storeInt mem x.dest x.word, s + BitVec.ofNat 32 x.number.length, ps, vals⟩ := by
  have hsmall : base.toNat < 2 ^ 31 := by
    rw [hbase, base_eq]
    split_ifs <;> decide
  have hloop {s' : BitVec 32} (h' : StringAt mem s' (x.digits.map digitChar ++ rest)) :
      loop (digitTurn mem base) rounds (0, s') =
        some (BitVec.ofNat 32 x.value.natAbs, s' + BitVec.ofNat 32 x.digits.length) := by
    rw [digitTurn_value h' hsmall, hbase, numeral_number hrest, digits, Digits.value_digits]
  have hword := value_word (x := x)
  by_cases hneg : x.value < 0
  · have hnumber : x.number = ch '-' :: x.digits.map digitChar := by
      rw [number, if_pos hneg]
      rfl
    rw [if_pos hneg] at hword
    rw [hnumber] at h ⊢
    obtain ⟨hminus, -, hdigits⟩ := h
    simp only [scanNumber, hminus, if_true, hturn, hloop hdigits, takePointer, bind, Except.bind,
      pure, Except.pure, Bool.false_eq_true, if_false, hword, Option.elim_some, List.length_cons,
      List.length_map, add_ofNat_succ]
  · have hnumber : x.number = x.digits.map digitChar := by
      rw [number, if_neg hneg]
      rfl
    rw [if_neg hneg] at hword
    have hminus : mem s ≠ ch '-' := by
      obtain ⟨d, ds, hds, hd⟩ := digits_cons (x := x)
      rw [hnumber, hds] at h
      have hchar : mem s = digitChar d := h.1
      rw [hchar]
      exact (digitChar_plain d hd).2.2.1
    rw [hnumber] at h ⊢
    simp only [scanNumber, hminus, if_false, hturn, hloop h, takePointer, bind, Except.bind,
      pure, Except.pure, Bool.false_eq_true, hword, Option.elim_some, List.length_map]

theorem scanConversion_item (h : StringAt mem s (x.number ++ rest))
    (hrest : ∀ c ∈ rest.head?, (digitValue c).filter (· < x.kind.base) = none) :
    scanConversion x.conv false ⟨mem, s, x.dest :: ps, vals⟩ =
      some (.ok ⟨storeInt mem x.dest x.word, s + BitVec.ofNat 32 x.number.length, ps, vals⟩) := by
  cases hhex : x.hex with
  | true =>
    have hbase : (16 : BitVec 32).toNat = x.kind.base := by
      rw [base_eq, hhex]
      rfl
    have hconv : x.conv = ch 'x' := by
      rw [conv, hhex]
      rfl
    rw [← scanNumber_item scanHexTurn_eq hbase h hrest, hconv]
    rfl
  | false =>
    have hbase : (10 : BitVec 32).toNat = x.kind.base := by
      rw [base_eq, hhex]
      rfl
    have hconv : x.conv = ch 'd' := by
      rw [conv, hhex]
      rfl
    rw [← scanNumber_item scanDecTurn_eq hbase h hrest, hconv]
    rfl

/-- The cells of a destination are neither those of the string nor those of another. -/
def Apart (xs : List Item) (s : BitVec 32) (n : Nat) : Prop :=
  (∀ x ∈ xs, ∀ k < n, ¬ Within x.dest 4 (s + BitVec.ofNat 32 k)) ∧
    xs.Pairwise fun x y => ∀ k < 4, ¬ Within y.dest 4 (x.dest + BitVec.ofNat 32 k)

theorem doscan_format (h : StringAt mem s (written tail xs)) (hsep : Separated tail xs)
    (hapart : Apart xs s ((written tail xs).length + 1)) :
    ∃ mem' s', doscan (format tail xs) none ⟨mem, s, xs.map Item.dest, vals⟩ =
        .ok ⟨mem', s', [], vals + xs.length⟩ ∧
      (∀ x ∈ xs, CellsAt mem' x.dest (intBytes x.word)) ∧
      ∀ a, (∀ x ∈ xs, ¬ Within x.dest 4 a) → mem' a = mem a := by
  induction xs generalizing mem s vals with
  | nil =>
    have hend : StringAt mem s (tail ++ []) := by simpa [written] using h
    have htext : doscan (tail ++ []) none ⟨mem, s, [], vals⟩ =
        doscan [] none ⟨mem, s + BitVec.ofNat 32 tail.length, [], vals⟩ :=
      doscan_text (Or.inl rfl) hend (fun c hc => (hsep c hc).1) (by simp)
    rw [List.append_nil] at htext
    exact ⟨mem, _, htext, by simp, fun _ _ => rfl⟩
  | cons x xs ih =>
    obtain ⟨htext, hrest, hsep⟩ := hsep
    obtain ⟨hfar, hpair⟩ := hapart
    obtain ⟨hfirst, hpair⟩ := List.pairwise_cons.mp hpair
    obtain ⟨c, cs, hnumber, hspace⟩ := number_head (x := x)
    have hlen : (written tail (x :: xs)).length =
        x.text.length + (x.number.length + (written tail xs).length) := by
      rw [written, List.length_append, List.length_append]
    rw [hlen] at hfar
    have htake : doscan (x.text ++ ch '%' :: x.conv :: format tail xs) none
        ⟨mem, s, x.dest :: xs.map Item.dest, vals⟩ =
        doscan (ch '%' :: x.conv :: format tail xs) none
          ⟨mem, s + BitVec.ofNat 32 x.text.length, x.dest :: xs.map Item.dest, vals⟩ :=
      doscan_text (Or.inl rfl) h (fun c hc => (htext c hc).1) (by simpa [hnumber] using hspace)
    have hat : StringAt mem (s + BitVec.ofNat 32 x.text.length) (x.number ++ written tail xs) :=
      (stringAt_append.mp h).2.2
    have hscan := @scanConversion_item mem _ _ (xs.map Item.dest) vals x hat hrest
    -- the store leaves what is still to be read
    have hkept : StringAt (storeInt mem x.dest x.word)
        (s + BitVec.ofNat 32 x.text.length + BitVec.ofNat 32 x.number.length)
        (written tail xs) := by
      refine (stringAt_append.mp hat).2.2.congr fun k hk => ?_
      rw [add_ofNat_add, add_ofNat_add]
      exact put_outside (hfar x (by simp) _ (by omega))
    have hnext : Apart xs (s + BitVec.ofNat 32 x.text.length + BitVec.ofNat 32 x.number.length)
        ((written tail xs).length + 1) := by
      refine ⟨fun y hy k hk => ?_, hpair⟩
      rw [add_ofNat_add, add_ofNat_add]
      exact hfar y (by simp [hy]) _ (by omega)
    obtain ⟨mem', s', hrun, hcells, hframe⟩ := @ih _ _ (vals + 1) hkept hsep hnext
    refine ⟨mem', s', ?_, ?_, ?_⟩
    · rw [format, List.map_cons, htake, doscan, if_neg (by simp), doscan, hscan]
      simp only [bind, Except.bind, Bool.false_eq_true, if_false, hrun, List.length_cons]
      rw [Nat.add_assoc, Nat.add_comm 1]
    · rw [List.forall_mem_cons]
      refine ⟨?_, hcells⟩
      have hput : CellsAt (storeInt mem x.dest x.word) x.dest (intBytes x.word) :=
        put_cellsAt (by simp [intBytes])
      refine hput.congr fun k hk => hframe _ fun y hy => hfirst y hy k ?_
      exact hk
    · intro a ha
      rw [List.forall_mem_cons] at ha
      rw [hframe a ha.2]
      exact put_outside ha.1

end Reading

/-- What `sprintf` writes with numbers between texts, `sscanf` reads back with the same format, as
many numbers as there are and each into its destination. -/
theorem sscanf_sprintf (mem : Memory) (s : BitVec 32) (hsep : Separated tail xs)
    (hfit : (written tail xs).length < 2 ^ 32)
    (hapart : Apart xs s ((written tail xs).length + 1)) :
    ∃ mem' len mem'', vsprintf mem s (format tail xs) (xs.map fun x => .word x.word) =
        .ok (mem', len) ∧
      sscanf mem' s (format tail xs) (xs.map Item.dest) = .ok (mem'', xs.length) ∧
      (∀ x ∈ xs, CellsAt mem'' x.dest (intBytes x.word)) ∧
      ∀ a, (∀ x ∈ xs, ¬ Within x.dest 4 a) → mem'' a = mem' a := by
  have hall : kept sprintfUnlimited (written tail xs) = (written tail xs).length := if_pos rfl
  have hstring : StringAt (put mem s (written tail xs ++ [0])) s (written tail xs) :=
    put_stringAt hfit (written_ne_zero hsep)
  obtain ⟨mem'', s', hrun, hcells, hframe⟩ := @doscan_format _ _ _ 0 xs hstring hsep hapart
  refine ⟨_, BitVec.ofNat 32 (written tail xs).length, mem'', ?_, ?_, hcells, hframe⟩
  · rw [vsprintf, saveAll_eq (doprnt_format hsep), hall, List.take_length]
  · rw [sscanf, hrun]
    simp [Except.map]

/-- `"n=%d, %x"` with -12 and 48879 -/
theorem sscanf_sprintf_two : ∃ mem' len mem'',
    vsprintf (fun _ => 1) 0x100 ("n=%d, %x".toList.map ch) [.word (-12), .word 0xbeef] =
        .ok (mem', len) ∧
      sscanf mem' 0x100 ("n=%d, %x".toList.map ch) [0x200, 0x204] = .ok (mem'', 2) ∧
      CellsAt mem'' 0x200 (intBytes (-12)) ∧ CellsAt mem'' 0x204 (intBytes 0xbeef) := by
  let xs : List Item := [⟨[0x6e, 0x3d], false, -12, 0x200⟩, ⟨[0x2c, 0x20], true, 0xbeef, 0x204⟩]
  have hwritten : written [] xs = "n=-12, beef".toList.map ch := by decide
  have hsep : Separated [] xs := by
    exact ⟨by decide, by decide, by decide, by decide, by simp [Separated]⟩
  have hapart : Apart xs 0x100 ((written [] xs).length + 1) := by
    rw [hwritten]
    exact ⟨by decide, by decide⟩
  have hfit : (written [] xs).length < 2 ^ 32 := by
    rw [hwritten]
    decide
  obtain ⟨mem', len, mem'', hprint, hscan, hcells, -⟩ :=
    sscanf_sprintf (fun _ => 1) 0x100 hsep hfit hapart
  obtain ⟨h1, h2, -⟩ := (List.forall_mem_cons.mp hcells).imp id List.forall_mem_cons.mp
  exact ⟨mem', len, mem'', hprint, hscan, h1, h2⟩

end Item

end RtosKernel.Libc
