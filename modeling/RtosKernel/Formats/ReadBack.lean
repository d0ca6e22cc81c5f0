import RtosKernel.Formats.Buffers
import RtosKernel.Formats.Printing

namespace RtosKernel.Libc

open Rounds StringMemory

variable {mem : Memory} {args rest : List VaArg} {a : VaArg} {cv : Conversion} {c : BitVec 8}
  {radix n : Int} {b u i j : Nat} {cs xs : List (BitVec 8)} {ds : List Nat} {p s : BitVec 32}

section Scan

theorem spaces_blanks (h : ∀ c ∈ cs.head?, isspace c = false) :
    spaces (List.replicate i (ch ' ') ++ cs) = i := by
  induction i with
  | zero =>
    cases cs with
    | nil => rfl
    | cons c cs =>
      have hc : isspace c = false := h c rfl
      simp [spaces, List.findIdx_cons, hc]
  | succ i ih =>
    have hspace : isspace (ch ' ') = true := by decide
    unfold spaces at ih ⊢
    rw [List.replicate_succ, List.cons_append, List.findIdx_cons, ih]
    simp [hspace]

/-- The digits that have been printed, up to a character that is none. -/
theorem numeral_digits (hb : b ≤ 16) (hds : ∀ d ∈ ds, d < b)
    (h : ∀ c ∈ cs.head?, (digitValue c).filter (· < b) = none) :
    numeral b (ds.map digitChar ++ cs) = ds := by
  induction ds with
  | nil =>
    cases cs with
    | nil => rfl
    | cons c cs => rw [List.map_nil, List.nil_append, numeral, h c rfl, Option.elim_none]
  | cons d ds ih =>
    obtain ⟨hd, hds⟩ := List.forall_mem_cons.mp hds
    have hval := digitValue_digitChar d (by omega)
    rw [List.map_cons, List.cons_append, numeral, hval, Option.filter_some,
      if_pos (decide_eq_true hd), Option.elim_some, ih hds]

theorem digitChar_plain : ∀ d < 16, digitChar d ≠ ch 'x' ∧ digitChar d ≠ ch 'X' ∧
    digitChar d ≠ ch '-' ∧ isspace (digitChar d) = false ∧ digitChar d ≠ 0 := by decide

/-- A number without a prefix is not taken for one. -/
theorem prefixBase_digits (hb : 0 < b) (hb' : b ≤ 16) (hds : ∀ d ∈ ds, d < b)
    (h : ∀ c ∈ cs.head?, digitValue c = none) (hne : ds ≠ []) :
    prefixBase (ds.map digitChar ++ cs) b = (0, b) := by
  obtain ⟨d, ds, rfl⟩ := List.exists_cons_of_ne_nil hne
  have hsecond : ¬ ((ds.map digitChar ++ cs)[0]? = some (ch 'x') ∨
      (ds.map digitChar ++ cs)[0]? = some (ch 'X')) := by
    cases ds with
    | nil =>
      cases cs with
      | nil => simp
      | cons c cs =>
        have hc : digitValue c = none := h c rfl
        have hx : digitValue (ch 'x') ≠ none := by decide
        have hX : digitValue (ch 'X') ≠ none := by decide
        rintro (heq | heq) <;> obtain rfl := Option.some.inj heq
        · exact hx hc
        · exact hX hc
    | cons e es =>
      obtain ⟨hx, hX, _⟩ := digitChar_plain e (by have := hds e (by simp); omega)
      rintro (heq | heq)
      · exact hx (Option.some.inj heq)
      · exact hX (Option.some.inj heq)
  unfold prefixBase
  rw [if_neg (fun hpre => hsecond hpre.2.2), if_neg (by omega)]

theorem readNumber_digits (hb : 0 < b) (hb' : b ≤ 16) (hds : ∀ d ∈ ds, d < b)
    (h : ∀ c ∈ cs.head?, digitValue c = none) (hne : ds ≠ []) :
    readNumber (ds.map digitChar ++ cs) b = (Digits.value b ds, ds.length) := by
  unfold readNumber
  have hend : ∀ c ∈ cs.head?, (digitValue c).filter (· < b) = none := by
    intro c hc
    rw [h c hc, Option.filter_none]
  rw [prefixBase_digits hb hb' hds h hne]
  simp [numeral_digits hb' hds hend]

/-- The prefix of hexadecimal numbers is skipped. -/
theorem readNumber_prefixed (hds : ∀ d ∈ ds, d < 16) (h : ∀ c ∈ cs.head?, digitValue c = none) :
    readNumber (ch '0' :: ch 'x' :: (ds.map digitChar ++ cs)) 16 =
      (Digits.value 16 ds, 2 + ds.length) := by
  have hpre : prefixBase (ch '0' :: ch 'x' :: (ds.map digitChar ++ cs)) 16 = (2, 16) := by
    simp [prefixBase]
  have hend : ∀ c ∈ cs.head?, (digitValue c).filter (· < 16) = none := by
    intro c hc
    rw [h c hc, Option.filter_none]
  unfold readNumber
  rw [hpre]
  simp [numeral_digits (Nat.le_refl 16) hds hend]

end Scan

section Text

theorem value_zeros (i : Nat) (ds : List Nat) :
    Digits.value b (List.replicate i 0 ++ ds) = Digits.value b ds := by
  induction i with
  | zero => rfl
  | succ i ih =>
    rw [List.replicate_succ, List.cons_append, Digits.value_cons, ih, Nat.zero_mul, Nat.zero_add]

/-- A number as `strtol` sees it: what it skips, its digits and the blanks behind them. -/
structure NumberText (b u : Nat) (xs : List (BitVec 8)) (ds : List Nat) : Prop where
  base : b = 8 ∨ b = 10 ∨ b = 16
  skipped : xs = [] ∨ b = 16 ∧ xs = [ch '0', ch 'x']
  digits : ∀ d ∈ ds, d < b
  ne_nil : ds ≠ []
  value : Digits.value b ds = u

/-- Zeros and the prefix of octal numbers are digits for `strtol`. -/
theorem numberText (hb : b = 8 ∨ b = 10 ∨ b = 16) (altfmt : Bool) (i : Nat) :
    ∃ xs ds, NumberText b u xs ds ∧
      altPrefix b altfmt u ++ (List.replicate i (ch '0') ++ (Digits.digits b u).map digitChar) =
        xs ++ ds.map digitChar := by
  have hzero : digitChar 0 = ch '0' := by decide
  have hdigits : ∀ j, ∀ d ∈ List.replicate j 0 ++ Digits.digits b u, d < b := by
    intro j d hd
    rcases List.mem_append.mp hd with hd | hd
    · rw [(List.mem_replicate.mp hd).2]
      omega
    · exact Digits.digits_lt (by omega) hd
  have hne : ∀ j, List.replicate j 0 ++ Digits.digits b u ≠ [] := fun j =>
    List.append_ne_nil_of_right_ne_nil _ (Digits.digits_ne_nil b u)
  have hvalue : ∀ j, Digits.value b (List.replicate j 0 ++ Digits.digits b u) = u := by
    intro j
    rw [value_zeros, Digits.value_digits]
  unfold altPrefix
  split_ifs with halt h8 h16
  · refine ⟨[], List.replicate (i + 1) 0 ++ Digits.digits b u,
      ⟨hb, Or.inl rfl, hdigits _, hne _, hvalue _⟩, ?_⟩
    simp [List.replicate_succ, hzero]
  · refine ⟨[ch '0', ch 'x'], List.replicate i 0 ++ Digits.digits b u,
      ⟨hb, Or.inr ⟨h16, rfl⟩, hdigits _, hne _, hvalue _⟩, ?_⟩
    simp [hzero]
  · exact ⟨[], List.replicate i 0 ++ Digits.digits b u,
      ⟨hb, Or.inl rfl, hdigits _, hne _, hvalue _⟩, by simp [hzero]⟩
  · exact ⟨[], List.replicate i 0 ++ Digits.digits b u,
      ⟨hb, Or.inl rfl, hdigits _, hne _, hvalue _⟩, by simp [hzero]⟩

theorem blanks_head (j : Nat) : ∀ c ∈ (List.replicate j (ch ' ')).head?, digitValue c = none := by
  intro c hc
  rw [(List.mem_replicate.mp (List.mem_of_mem_head? hc)).2]
  decide

theorem NumberText.read (h : NumberText b u xs ds) (j : Nat) :
    readNumber (xs ++ (ds.map digitChar ++ List.replicate j (ch ' '))) b =
      (u, xs.length + ds.length) := by
  have hb : 0 < b ∧ b ≤ 16 := by
    have hbase := h.base
    omega
  rcases h.skipped with rfl | ⟨rfl, rfl⟩
  · rw [List.nil_append, readNumber_digits hb.1 hb.2 h.digits (blanks_head j) h.ne_nil, h.value]
    simp
  · show readNumber (ch '0' :: ch 'x' :: (ds.map digitChar ++ List.replicate j (ch ' '))) 16 = _
    rw [readNumber_prefixed h.digits (blanks_head j), h.value]
    rfl

/-- The number starts with neither white space nor a sign. -/
theorem NumberText.head (h : NumberText b u xs ds) :
    ∃ c cs', xs ++ ds.map digitChar = c :: cs' ∧ isspace c = false ∧ c ≠ ch '-' := by
  have hzero : isspace (ch '0') = false ∧ ch '0' ≠ ch '-' := by decide
  rcases h.skipped with rfl | ⟨_, rfl⟩
  · obtain ⟨d, ds', rfl⟩ := List.exists_cons_of_ne_nil h.ne_nil
    have hbase := h.base
    have hd := h.digits d (by simp)
    obtain ⟨_, _, hminus, hspace, _⟩ := digitChar_plain d (by omega)
    exact ⟨_, _, rfl, hspace, hminus⟩
  · exact ⟨_, _, rfl, hzero⟩

/-- `strtol` on a number behind blanks and perhaps a minus sign. -/
theorem strtol_text {neg : Bool} {base : BitVec 32} (hbase : base.toNat = b)
    (ht : NumberText b u xs ds) (h : StringAt mem p (List.replicate i (ch ' ') ++
      ((if neg then [ch '-'] else []) ++ (xs ++ (ds.map digitChar ++
        List.replicate j (ch ' ')))))) :
    strtol mem p base =
      some (if neg then -BitVec.ofNat 32 u else BitVec.ofNat 32 u,
        p + BitVec.ofNat 32 (i + (if neg then 1 else 0) + (xs.length + ds.length))) := by
  have hb : base.toNat < 2 ^ 31 := by
    have hcases := ht.base
    omega
  obtain ⟨c, cs', hbody, hspace, hminus⟩ := ht.head
  generalize hnum : xs ++ (ds.map digitChar ++ List.replicate j (ch ' ')) = num at h
  have hread : readNumber num base.toNat = (u, xs.length + ds.length) := by
    rw [hbase, ← hnum]
    exact ht.read j
  obtain ⟨cs'', hcons⟩ : ∃ cs'', num = c :: cs'' := by
    refine ⟨cs' ++ List.replicate j (ch ' '), ?_⟩
    rw [← hnum, ← List.append_assoc, hbody]
    rfl
  rw [strtol_eq h hb]
  have hdrop (cs : List (BitVec 8)) : (List.replicate i (ch ' ') ++ cs).drop i = cs :=
    List.drop_left' List.length_replicate
  cases neg with
  | true =>
    have hdash : isspace (ch '-') = false := by decide
    have hskip : spaces (List.replicate i (ch ' ') ++ (ch '-' :: num)) = i :=
      spaces_blanks (by simpa using hdash)
    have hsign : minus (ch '-' :: num) = 1 := by simp [minus]
    simp only [if_true, List.singleton_append, hskip, hdrop, hsign, List.drop_one, List.tail_cons,
      hread]
  | false =>
    have hskip : spaces (List.replicate i (ch ' ') ++ num) = i :=
      spaces_blanks (by simpa [hcons] using hspace)
    have hsign : minus num = 0 := by
      unfold minus
      rw [hcons]
      simp [hminus]
    simp only [Bool.false_eq_true, if_false, List.nil_append, hskip, hdrop, hsign, List.drop_zero,
      hread, Nat.zero_ne_one]

theorem numberField_shape (cv : Conversion) (sign pre digits : List (BitVec 8)) :
    ∃ i l j, numberField cv (sign ++ pre) digits = List.replicate i (ch ' ') ++ (sign ++ (pre ++
      (List.replicate l (ch '0') ++ (digits ++ List.replicate j (ch ' '))))) := by
  unfold numberField
  split_ifs
  · exact ⟨0, _, 0, by simp only [List.append_assoc, List.replicate_zero, List.nil_append,
      List.append_nil]; rfl⟩
  · exact ⟨0, 0, _, by simp only [List.append_assoc, List.replicate_zero, List.nil_append]; rfl⟩
  · exact ⟨_, 0, 0, by simp only [List.append_assoc, List.replicate_zero, List.nil_append,
      List.append_nil]; rfl⟩

theorem Numeric.sign_cases {k : Numeric} (hplus : cv.plusSign = 0 ∨ cv.plusSign = ch ' ') :
    signChars (k.signChar cv n) = (if n < 0 then [ch '-'] else []) ∨
      ¬ n < 0 ∧ signChars (k.signChar cv n) = [ch ' '] := by
  have hdash : ch '-' ≠ 0 := by decide
  have hblank : ch ' ' ≠ 0 := by decide
  unfold Numeric.signChar signChars
  by_cases hn : n < 0
  · left
    rw [if_pos hn, if_pos hdash, if_pos hn]
  · rw [if_neg hn, if_neg hn]
    cases k.signed with
    | false => exact Or.inl rfl
    | true =>
      rcases hplus with h0 | h0
      · exact Or.inl (by simp [h0])
      · exact Or.inr ⟨hn, by rw [if_pos rfl, h0, if_pos hblank]⟩

/-- Without the flag `+` the field of a number is a number behind blanks, and a blank for the sign
is one of them. -/
theorem Numeric.text_shape {k : Numeric} (hplus : cv.plusSign = 0 ∨ cv.plusSign = ch ' ') :
    ∃ i j xs ds, NumberText k.base n.natAbs xs ds ∧
      k.text cv n = List.replicate i (ch ' ') ++ ((if n < 0 then [ch '-'] else []) ++
        (xs ++ (ds.map digitChar ++ List.replicate j (ch ' ')))) := by
  obtain ⟨i, l, j, hshape⟩ := numberField_shape cv (signChars (k.signChar cv n))
    (altPrefix k.base cv.altfmt n.natAbs) (k.digits n)
  obtain ⟨xs, ds, ht, hds⟩ := @numberText k.base n.natAbs k.base_cases cv.altfmt l
  have hbody : altPrefix k.base cv.altfmt n.natAbs ++ (List.replicate l (ch '0') ++ (k.digits n ++
      List.replicate j (ch ' '))) = xs ++ (ds.map digitChar ++ List.replicate j (ch ' ')) := by
    rw [← List.append_assoc xs, ← hds]
    simp only [List.append_assoc, Numeric.digits]
  rw [hbody] at hshape
  have htext : k.text cv n = numberField cv (signChars (k.signChar cv n) ++
      altPrefix k.base cv.altfmt n.natAbs) (k.digits n) := rfl
  rcases Numeric.sign_cases hplus with hsign | ⟨hn, hsign⟩
  · rw [hsign] at hshape
    exact ⟨i, j, xs, ds, ht, by rw [htext, hsign, hshape]⟩
  · rw [hsign] at hshape
    refine ⟨i + 1, j, xs, ds, ht, ?_⟩
    rw [htext, hsign, hshape, if_neg hn, List.replicate_succ', List.append_assoc, List.nil_append]

/-- The low word of an argument. -/
def lowWord : VaArg → BitVec 32
  | .word w => w
  | .dword d => d.setWidth 32

theorem Numeric.value_lowWord {k : Numeric} {longs : Nat} (hv : k.value longs a = some n) :
    (if n < 0 then -BitVec.ofNat 32 n.natAbs else BitVec.ofNat 32 n.natAbs) = lowWord a := by
  have hint : (if n < 0 then -BitVec.ofNat 32 n.natAbs else BitVec.ofNat 32 n.natAbs) =
      BitVec.ofInt 32 n := by
    split_ifs with hn
    · rw [← BitVec.ofInt_natCast, ← BitVec.ofInt_neg]
      congr 1
      omega
    · rw [← BitVec.ofInt_natCast]
      congr 1
      omega
  rw [hint]
  cases a with
  | word w =>
    obtain ⟨-, rfl⟩ := Numeric.value_word hv
    cases k.signed with
    | false => simp [lowWord]
    | true => simp [lowWord]
  | dword d =>
    obtain ⟨-, rfl⟩ := Numeric.value_dword hv
    cases k.signed with
    | false => simp [lowWord]
    | true =>
      apply BitVec.eq_of_toInt_eq
      have hdvd : (2 : Nat) ^ 32 ∣ 2 ^ 64 := by decide
      rw [if_pos rfl, BitVec.toInt_ofInt, BitVec.toInt_eq_toNat_bmod d, Int.bmod_bmod_of_dvd hdvd,
        lowWord, BitVec.toInt_setWidth]

theorem NumberText.chars_ne_zero (h : NumberText b u xs ds) (i j : Nat) (neg : Bool) :
    ∀ c ∈ List.replicate i (ch ' ') ++ ((if neg then [ch '-'] else []) ++
      (xs ++ (ds.map digitChar ++ List.replicate j (ch ' ')))), c ≠ 0 := by
  have hblank : ch ' ' ≠ 0 := by decide
  have hprefix : ∀ c ∈ xs, c ≠ 0 := by
    rcases h.skipped with rfl | ⟨_, rfl⟩
    · simp
    · decide
  have hdigits : ∀ c ∈ ds.map digitChar, c ≠ 0 := by
    intro c hc
    obtain ⟨d, hd, rfl⟩ := List.mem_map.mp hc
    have hbase := h.base
    have hlt := h.digits d hd
    exact (digitChar_plain d (by omega)).2.2.2.2
  intro c hc
  simp only [List.mem_append, List.mem_replicate] at hc
  rcases hc with ⟨-, rfl⟩ | hc | hc | hc | ⟨-, rfl⟩
  · exact hblank
  · cases neg with
    | true =>
      rw [List.mem_singleton.mp hc]
      decide
    | false => cases hc
  · exact hprefix c hc
  · exact hdigits c hc
  · exact hblank

end Text

theorem Numeric.text_length_lt {k : Numeric} {longs : Nat} (hv : k.value longs a = some n)
    (hlen : cv.length < 2 ^ 31) : (k.text cv n).length < 2 ^ 32 := by
  have hsign : (signChars (k.signChar cv n)).length ≤ 1 := by
    unfold signChars
    split_ifs <;> simp
  have hprefix : (altPrefix k.base cv.altfmt n.natAbs).length ≤ 2 := by
    unfold altPrefix
    split_ifs <;> decide
  have hbase := k.base_cases
  have hdigits : (Digits.digits k.base n.natAbs).length ≤ 64 := by
    refine Digits.digits_length (by omega) (by decide) ?_
    exact (Numeric.value_range hv).1.trans_le (Nat.pow_le_pow_left (by omega) 64)
  rw [Numeric.text, numberField_length, Numeric.head, List.length_append, Numeric.digits,
    List.length_map]
  omega

/-- What `sprintf` prints for a number without the flag `+`, `strtol` in the base of the conversion
reads back, and only blanks are left behind it. -/
theorem strtol_sprintf {d : Directive} {k : Numeric} {upper : Bool} (mem : Memory) (s : BitVec 32)
    (hk : d.conv = k.char upper) (hplus : .plus ∉ d.flags)
    (hd : d.conversion args = .ok (cv, a :: rest)) (hlen : 0 ≤ cv.length)
    (hv : k.value d.longs a = some n) :
    ∃ mem' len stop j, vsprintf mem s (ch '%' :: d.chars) args = .ok (mem', len) ∧
      strtol mem' s (BitVec.ofNat 32 k.base) = some (lowWord a, stop) ∧
      StringAt mem' stop (List.replicate j (ch ' ')) := by
  have hs := Directive.conversion_sound hd
  have hv' : k.value cv.longopt a = some n := by
    rw [hs.longopt]
    exact hv
  have hprint : doprnt mem (ch '%' :: d.chars) args 0 = .ok (k.text cv n, rest) := by
    apply doprnt_directive hd
    rw [hk]
    exact Numeric.convert_value hv' hlen hs.length hs.padc
  obtain ⟨i, j, xs, ds, ht, hshape⟩ := @Numeric.text_shape cv n k (hs.plusSign hplus)
  have hneg : (if n < 0 then [ch '-'] else []) =
      if decide (n < 0) = true then [ch '-'] else [] := by
    simp
  rw [hneg] at hshape
  have hlt : (k.text cv n).length < 2 ^ 32 := Numeric.text_length_lt hv' hs.length
  have hall : kept sprintfUnlimited (k.text cv n) = (k.text cv n).length := if_pos rfl
  have hstring : StringAt (put mem s (k.text cv n ++ [0])) s (k.text cv n) := by
    refine put_stringAt hlt ?_
    rw [hshape]
    exact ht.chars_ne_zero i j _
  refine ⟨put mem s (k.text cv n ++ [0]), BitVec.ofNat 32 (k.text cv n).length,
    s + BitVec.ofNat 32 (i + (if decide (n < 0) = true then 1 else 0) + (xs.length + ds.length)),
    j, ?_, ?_, ?_⟩
  · rw [vsprintf, saveAll_eq hprint, hall, List.take_length]
  · have hbase : (BitVec.ofNat 32 k.base).toNat = k.base := by
      rcases k.base_cases with h | h | h <;> rw [h] <;> rfl
    have hread := hstring
    rw [hshape] at hread
    rw [hshape, strtol_text hbase ht hread, ← Numeric.value_lowWord hv]
    simp
  · have hsplit : k.text cv n = (List.replicate i (ch ' ') ++
        ((if decide (n < 0) = true then [ch '-'] else []) ++ (xs ++ ds.map digitChar))) ++
        List.replicate j (ch ' ') := by
      rw [hshape]
      simp only [List.append_assoc]
    have hlength : (List.replicate i (ch ' ') ++
        ((if decide (n < 0) = true then [ch '-'] else []) ++ (xs ++ ds.map digitChar))).length =
        i + (if decide (n < 0) = true then 1 else 0) + (xs.length + ds.length) := by
      simp only [List.length_append, List.length_replicate, List.length_map]
      split_ifs
      · rw [List.length_singleton, Nat.add_assoc]
      · rw [List.length_nil, Nat.add_assoc]
    have hblanks := hstring
    rw [hsplit] at hblanks ⊢
    rw [← hlength]
    exact (stringAt_append.mp hblanks).2.2

/-- `%- 6d` -/
def leftField : Directive where
  flags := [.left, .blank]
  zero := false
  width := .digits ⟨6, by decide⟩ []
  prec := none
  longs := 0
  conv := ch 'd'
  conv_plain := by decide
  conv_char := by decide
  width_leads _ := Field.digits_lead [] (by decide)

theorem strtol_sprintf_left : ∃ mem' len stop j,
    vsprintf (fun _ => 1) 0x100 (ch '%' :: leftField.chars) [.word (-7)] = .ok (mem', len) ∧
      strtol mem' 0x100 10 = some (-7, stop) ∧ StringAt mem' stop (List.replicate j (ch ' ')) := by
  have hk : leftField.conv = Numeric.decimal.char false := rfl
  have hd : leftField.conversion [.word (-7)] =
      .ok (⟨6, -1, true, ch ' ', ch ' ', false, 0⟩, [.word (-7)]) := by decide +kernel
  have hv : Numeric.decimal.value leftField.longs (.word (-7)) = some (-7) := by decide
  have hbase : BitVec.ofNat 32 Numeric.decimal.base = 10 := rfl
  obtain ⟨mem', len, stop, j, hprint, hread, hblanks⟩ :=
    strtol_sprintf (fun _ => 1) 0x100 hk (by decide) hd (by decide) hv
  rw [hbase] at hread
  exact ⟨mem', len, stop, j, hprint, hread, hblanks⟩

end RtosKernel.Libc
