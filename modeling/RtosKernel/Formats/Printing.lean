import RtosKernel.Formats.Directive
import RtosKernel.Formats.Parsing

namespace RtosKernel.Libc

variable {mem : Memory} {args rest : List VaArg} {a : VaArg} {cv : Conversion} {c : BitVec 8}
  {radix n x : Int} {b u room : Nat} {buf : List (BitVec 8)}

theorem wrap32_eq (hlo : -2 ^ 31 ≤ x) (hhi : x < 2 ^ 31) : wrap32 x = x := by
  unfold wrap32
  apply Int.bmod_eq_of_le_mul_two <;> omega

theorem wrap32_range (x : Int) : -2 ^ 31 ≤ wrap32 x ∧ wrap32 x < 2 ^ 31 := by
  have hlo := Int.le_bmod (x := x) (m := 2 ^ 32) (by decide)
  have hhi := Int.bmod_lt (x := x) (m := 2 ^ 32) (by decide)
  unfold wrap32
  omega

section Digits

/-- A digit as it is printed. -/
def digitChar (d : Nat) : BitVec 8 := digs.getD d 0

theorem digs_getElem : ∀ d < 16, digs[d]? = some (digitChar d) := by decide

theorem digitValue_digitChar : ∀ d < 16, digitValue (digitChar d) = some d := by decide

/-- The loop puts the digits in front of what is there, as long as there is room. -/
theorem numDigits_eq (hb : 2 ≤ b) (hb' : b ≤ 16) (hroom : 0 < room) (hu : u < b ^ room) :
    numDigits b room u buf = .ok ((Digits.digits b u).map digitChar ++ buf) := by
  induction room generalizing u buf with
  | zero => cases hroom
  | succ room ih =>
    have hmod : u % b < 16 := Nat.lt_of_lt_of_le (Nat.mod_lt u (by omega)) hb'
    rw [numDigits, if_neg (by omega), digs_getElem _ hmod]
    dsimp only
    split_ifs with hq
    · have hle : b ≤ u := by
        by_contra hlt
        exact hq (Nat.div_eq_of_lt (Nat.lt_of_not_le hlt))
      have hdiv : u / b < b ^ room := by
        rw [Nat.pow_succ] at hu
        exact Nat.div_lt_of_lt_mul (by rwa [Nat.mul_comm])
      have hroom' : 0 < room := by
        rcases Nat.eq_zero_or_pos room with rfl | hpos
        · exact absurd (Nat.lt_one_iff.mp hdiv) hq
        · exact hpos
      rw [ih hroom' hdiv, Digits.digits_succ hb hle, List.map_append, List.append_assoc]
      rfl
    · have hlt : u < b := by
        rcases Nat.div_eq_zero_iff.mp (not_not.mp hq) with h0 | hlt
        · omega
        · exact hlt
      rw [Digits.digits_of_lt hlt, Nat.mod_eq_of_lt hlt]
      rfl

end Digits

section Padding

theorem padLoop_eq {fuel : Nat} (hlo : -2 ^ 31 < x) (hhi : x < 2 ^ 31) (hfuel : x.toNat < fuel) :
    padLoop c fuel x = (List.replicate x.toNat c, if 0 ≤ x then -1 else x - 1) := by
  induction fuel generalizing x with
  | zero => cases hfuel
  | succ fuel ih =>
    have hw : wrap32 (x - 1) = x - 1 := wrap32_eq (by omega) (by omega)
    simp only [padLoop, hw]
    by_cases hx : x - 1 ≥ 0
    · have hnat : x.toNat = (x - 1).toNat + 1 := by omega
      rw [if_pos hx, ih (by omega) (by omega) (by omega), if_pos hx, if_pos (by omega), hnat]
      rfl
    · have hnat : x.toNat = 0 := by omega
      rw [if_neg hx, hnat]
      split_ifs with h0
      · obtain rfl : x = 0 := by omega
        rfl
      · rfl

theorem pad_eq (hlo : -2 ^ 31 < x) (hhi : x < 2 ^ 31) :
    pad c x = (List.replicate x.toNat c, if 0 ≤ x then -1 else x - 1) :=
  padLoop_eq hlo hhi (by omega)

/-- What a loop leaves of the length is nothing for the next one. -/
theorem pad_again {e : BitVec 8} (hlo : -2 ^ 31 + 1 < x) (hhi : x < 2 ^ 31) :
    (pad c (pad e x).2).1 = [] := by
  rw [pad_eq (by omega) hhi]
  have hneg : (if 0 ≤ x then -1 else x - 1) < 0 := by split_ifs <;> omega
  have hlow : -2 ^ 31 < (if 0 ≤ x then -1 else x - 1) := by split_ifs <;> omega
  rw [pad_eq hlow (by omega), Int.toNat_of_nonpos (by omega)]
  rfl

end Padding

/-- A number in its field: blanks in front or behind, or zeros behind sign and prefix, which the
flag `-` does not change. -/
def numberField (cv : Conversion) (head digits : List (BitVec 8)) : List (BitVec 8) :=
  let gap := (cv.length - (head.length + digits.length)).toNat
  if cv.padc = ch '0' then head ++ List.replicate gap (ch '0') ++ digits
  else if cv.ladjust then head ++ digits ++ List.replicate gap (ch ' ')
  else List.replicate gap (ch ' ') ++ head ++ digits

theorem numberField_length (cv : Conversion) (head digits : List (BitVec 8)) :
    (numberField cv head digits).length = max cv.length.toNat (head.length + digits.length) := by
  unfold numberField
  split_ifs <;> simp only [List.length_append, List.length_replicate] <;> omega

/-- The prefix of the flag `#`; zero has none. -/
def altPrefix (base : Nat) (altfmt : Bool) (u : Nat) : List (BitVec 8) :=
  if u ≠ 0 ∧ altfmt then
    if base = 8 then [ch '0'] else if base = 16 then [ch '0', ch 'x'] else []
  else []

def signChars (signChar : BitVec 8) : List (BitVec 8) := if signChar ≠ 0 then [signChar] else []

theorem printNum_eq (hb : b = 8 ∨ b = 10 ∨ b = 16) (hu : u < 2 ^ 64) (hlo : 0 ≤ cv.length)
    (hhi : cv.length < 2 ^ 31) (hpad : cv.padc = ch ' ' ∨ cv.padc = ch '0') (signChar : BitVec 8) :
    printNum false b cv signChar u = .ok (numberField cv
      (signChars signChar ++ altPrefix b cv.altfmt u) ((Digits.digits b u).map digitChar)) := by
  have hroom : u < b ^ maxBuf := by
    refine hu.trans_le ?_
    rcases hb with rfl | rfl | rfl <;> decide
  have hbase : ((b : Int) % 2 ^ 64).toNat = b := by omega
  have hdigits : numDigits b maxBuf u [] = .ok ((Digits.digits b u).map digitChar) := by
    rw [numDigits_eq (by omega) (by omega) (by decide) hroom, List.append_nil]
  have hlen : ((Digits.digits b u).map digitChar).length ≤ 32 := by
    rw [List.length_map]
    exact Digits.digits_length (by omega) (by decide) hroom
  generalize hds : (Digits.digits b u).map digitChar = ds at hdigits hlen
  have halt : (if u ≠ 0 ∧ cv.altfmt then
      if (b : Int) = 8 then [ch '0'] else if (b : Int) = 16 then [ch '0', ch 'x'] else []
      else []) = altPrefix b cv.altfmt u := by
    unfold altPrefix
    rcases hb with rfl | rfl | rfl <;> rfl
  have hprefix : (altPrefix b cv.altfmt u).length ≤ 2 := by
    unfold altPrefix
    split_ifs <;> decide
  generalize hpre : altPrefix b cv.altfmt u = pre at halt hprefix
  have hsign : (signChars signChar).length = if signChar ≠ 0 then 1 else 0 := by
    unfold signChars
    split_ifs <;> rfl
  have hgap : wrap32 ((if signChar ≠ 0 then wrap32 (wrap32 (cv.length - ds.length) - 1)
      else wrap32 (cv.length - ds.length)) - pre.length) =
      cv.length - ((signChars signChar ++ pre).length + ds.length) := by
    have hdrop : wrap32 (cv.length - ds.length) = cv.length - ds.length :=
      wrap32_eq (by omega) (by omega)
    have hdrop' : wrap32 (cv.length - ds.length - 1) = cv.length - ds.length - 1 :=
      wrap32_eq (by omega) (by omega)
    rw [List.length_append, hsign, hdrop, hdrop']
    split_ifs
    · rw [wrap32_eq (by omega) (by omega)]
      omega
    · rw [wrap32_eq (by omega) (by omega)]
      omega
  have hbody : (signChars signChar ++ pre).length + ds.length ≤ 64 := by
    rw [List.length_append, hsign]
    split_ifs <;> omega
  have hchars : (if signChar ≠ 0 then [signChar] else []) = signChars signChar := rfl
  simp only [printNum, Bool.false_eq_true, if_false, hbase, hdigits, halt, hgap, hchars,
    numberField]
  generalize hx : cv.length - ((signChars signChar ++ pre).length + ds.length) = gap
  have hfirst (c : BitVec 8) := @pad_eq c gap (by omega) (by omega)
  have hagain := @pad_again (ch ' ') gap (ch '0') (by omega) (by omega)
  rw [hfirst] at hagain
  have hne : ch '0' ≠ ch ' ' := by decide
  rcases hpad with hpad | hpad
  · cases hl : cv.ladjust <;> simp [hpad, hne.symm, hfirst]
  · cases hl : cv.ladjust <;> simp [hpad, hne, hagain, hfirst]

/-- The conversions of numbers, but for those of an open radix. -/
inductive Numeric where
  | octal
  | decimal
  | unsigned
  | hex
  | signedHex
  deriving DecidableEq

namespace Numeric

/-- The conversion character, in either case. -/
def char : Numeric → Bool → BitVec 8
  | octal, upper => ch (if upper then 'O' else 'o')
  | decimal, upper => ch (if upper then 'D' else 'd')
  | unsigned, upper => ch (if upper then 'U' else 'u')
  | hex, upper => ch (if upper then 'X' else 'x')
  | signedHex, upper => ch (if upper then 'Z' else 'z')

def base : Numeric → Nat
  | octal => 8
  | decimal | unsigned => 10
  | hex | signedHex => 16

def signed : Numeric → Bool
  | decimal | signedHex => true
  | octal | unsigned | hex => false

/-- What the conversion takes its argument for; none of the wrong size. -/
def value (k : Numeric) (longs : Nat) : VaArg → Option Int
  | .word w => if longs > 1 then none else some (if k.signed then w.toInt else w.toNat)
  | .dword d => if longs > 1 then some (if k.signed then d.toInt else d.toNat) else none

/-- The sign of `n`; numbers without one ignore the flags for it. -/
def signChar (k : Numeric) (cv : Conversion) (n : Int) : BitVec 8 :=
  if n < 0 then ch '-' else if k.signed then cv.plusSign else 0

/-- Sign and prefix. -/
def head (k : Numeric) (cv : Conversion) (n : Int) : List (BitVec 8) :=
  signChars (k.signChar cv n) ++ altPrefix k.base cv.altfmt n.natAbs

def digits (k : Numeric) (n : Int) : List (BitVec 8) :=
  (Digits.digits k.base n.natAbs).map digitChar

def text (k : Numeric) (cv : Conversion) (n : Int) : List (BitVec 8) :=
  numberField cv (k.head cv n) (k.digits n)

variable {k : Numeric} {upper : Bool} {longs : Nat}

theorem base_cases (k : Numeric) : k.base = 8 ∨ k.base = 10 ∨ k.base = 16 := by
  cases k <;> simp [base]

theorem convert_eq (k : Numeric) (upper : Bool) :
    convert mem radix (k.char upper) cv args =
      if k.signed then printSigned false k.base cv args
      else printUnsigned false k.base cv args := by
  cases k <;> cases upper <;> rfl

theorem value_word {w : BitVec 32} (hv : k.value longs (.word w) = some n) :
    ¬ longs > 1 ∧ n = if k.signed then w.toInt else w.toNat := by
  rw [value] at hv
  split_ifs at hv with hl hs
  · exact ⟨hl, by simpa [hs] using (Option.some.inj hv).symm⟩
  · exact ⟨hl, by simpa [hs] using (Option.some.inj hv).symm⟩

theorem value_dword {d : BitVec 64} (hv : k.value longs (.dword d) = some n) :
    longs > 1 ∧ n = if k.signed then d.toInt else d.toNat := by
  rw [value] at hv
  split_ifs at hv with hl hs
  · exact ⟨hl, by simpa [hs] using (Option.some.inj hv).symm⟩
  · exact ⟨hl, by simpa [hs] using (Option.some.inj hv).symm⟩

theorem value_range (hv : k.value longs a = some n) :
    n.natAbs < 2 ^ 64 ∧ (k.signed = false → 0 ≤ n) := by
  cases a with
  | word w =>
    obtain ⟨-, rfl⟩ := value_word hv
    have hw := w.isLt
    have hlo := @BitVec.le_two_mul_toInt 32 w
    have hhi := @BitVec.two_mul_toInt_lt 32 w
    cases k.signed <;> simp <;> omega
  | dword d =>
    obtain ⟨-, rfl⟩ := value_dword hv
    have hd := d.isLt
    have hlo := @BitVec.le_two_mul_toInt 64 d
    have hhi := @BitVec.two_mul_toInt_lt 64 d
    cases k.signed <;> simp <;> omega

theorem printSigned_eq (hs : k.signed = true) (hv : k.value cv.longopt a = some n) :
    printSigned false k.base cv (a :: args) =
      (printNum false k.base cv (k.signChar cv n) n.natAbs).map fun out => (out, args) := by
  have hnum : (if n ≥ 0 then printNum false k.base cv cv.plusSign n.toNat
      else printNum false k.base cv (ch '-') (-n).toNat) =
      printNum false k.base cv (k.signChar cv n) n.natAbs := by
    unfold signChar
    by_cases hn : n ≥ 0
    · rw [if_pos hn, if_neg (by omega), if_pos hs, show n.toNat = n.natAbs by omega]
    · rw [if_neg hn, if_pos (by omega), show (-n).toNat = n.natAbs by omega]
  cases a with
  | word w =>
    obtain ⟨hl, rfl⟩ := value_word hv
    rw [if_pos hs] at hnum ⊢
    rw [← hnum]
    simp only [printSigned, vaWord, hl, if_false, Except.map, bind, Except.bind]
    split_ifs <;> rfl
  | dword d =>
    obtain ⟨hl, rfl⟩ := value_dword hv
    rw [if_pos hs] at hnum ⊢
    rw [← hnum]
    simp only [printSigned, vaDword, hl, if_true, Except.map, bind, Except.bind]
    split_ifs <;> rfl

theorem printUnsigned_eq (hs : k.signed = false) (hv : k.value cv.longopt a = some n) :
    printUnsigned false k.base cv (a :: args) =
      (printNum false k.base cv (k.signChar cv n) n.natAbs).map fun out => (out, args) := by
  have hsign : k.signChar cv n = 0 := by
    have hn := (value_range hv).2 hs
    simp [signChar, hs, Int.not_lt.mpr hn]
  rw [hsign]
  cases a with
  | word w =>
    obtain ⟨hl, rfl⟩ := value_word hv
    simp only [printUnsigned, vaWord, hl, hs, Bool.false_eq_true, if_false, Except.map, bind,
      Except.bind]
    rfl
  | dword d =>
    obtain ⟨hl, rfl⟩ := value_dword hv
    simp only [printUnsigned, vaDword, hl, hs, Bool.false_eq_true, if_true, if_false, Except.map,
      bind, Except.bind]
    rfl

theorem convert_value (hv : k.value cv.longopt a = some n) (hlo : 0 ≤ cv.length)
    (hhi : cv.length < 2 ^ 31) (hpad : cv.padc = ch ' ' ∨ cv.padc = ch '0') :
    convert mem radix (k.char upper) cv (a :: args) = .ok (k.text cv n, args) := by
  have hnum := printNum_eq k.base_cases (value_range hv).1 hlo hhi hpad (k.signChar cv n)
  rw [convert_eq]
  cases hs : k.signed with
  | true =>
    rw [if_pos rfl, printSigned_eq hs hv, hnum]
    rfl
  | false =>
    rw [if_neg (by simp), printUnsigned_eq hs hv, hnum]
    rfl

end Numeric

namespace Directive

variable {d : Directive}

/-- Only the flag `+` gives a plus sign. -/
theorem foldl_plusSign {fs : List Flag} (hplus : .plus ∉ fs)
    (h : cv.plusSign = 0 ∨ cv.plusSign = ch ' ') :
    (fs.foldl Flag.set cv).plusSign = 0 ∨ (fs.foldl Flag.set cv).plusSign = ch ' ' := by
  induction fs generalizing cv with
  | nil => exact h
  | cons f fs ih =>
    obtain ⟨hf, hfs⟩ := not_or.mp (mt List.mem_cons.mpr hplus)
    refine ih hfs ?_
    cases f with
    | alt => exact h
    | left => exact h
    | plus => exact absurd rfl hf
    | blank =>
      rw [Flag.set]
      split_ifs with h0
      · exact Or.inr rfl
      · exact h

theorem foldl_kept (fs : List Flag) (cv : Conversion) :
    (fs.foldl Flag.set cv).length = cv.length ∧ (fs.foldl Flag.set cv).padc = cv.padc ∧
      (fs.foldl Flag.set cv).longopt = cv.longopt := by
  induction fs generalizing cv with
  | nil => exact ⟨rfl, rfl, rfl⟩
  | cons f fs ih =>
    have hset : (f.set cv).length = cv.length ∧ (f.set cv).padc = cv.padc ∧
        (f.set cv).longopt = cv.longopt := by
      cases f <;> simp only [Flag.set, and_self]
      split_ifs <;> exact ⟨rfl, rfl, rfl⟩
    obtain ⟨hlen, hpad, hlong⟩ := ih (f.set cv)
    exact ⟨hlen.trans hset.1, hpad.trans hset.2.1, hlong.trans hset.2.2⟩

/-- What every directive without an error in its arguments comes to. -/
structure Sound (d : Directive) (cv : Conversion) : Prop where
  length : cv.length < 2 ^ 31
  padc : cv.padc = ch ' ' ∨ cv.padc = ch '0'
  longopt : cv.longopt = d.longs
  plusSign : .plus ∉ d.flags → cv.plusSign = 0 ∨ cv.plusSign = ch ' '

theorem decimalValue_lt (ds : List (Fin 10)) : decimalValue ds < 2 ^ 31 := by
  have key : ∀ n : Int, n < 2 ^ 31 →
      ds.foldl (fun (n : Int) (d : Fin 10) => wrap32 (10 * n + d.val)) n < 2 ^ 31 := by
    induction ds with
    | nil => exact fun n hn => hn
    | cons e es ih => exact fun n _ => ih _ (wrap32_range _).2
  exact key 0 (by decide)

theorem withWidth_kept {cv' : Conversion} (hlen : cv.length < 2 ^ 31)
    (h : d.withWidth cv args = .ok (cv', rest)) :
    cv'.length < 2 ^ 31 ∧ cv'.padc = cv.padc ∧ cv'.longopt = cv.longopt ∧
      cv'.plusSign = cv.plusSign := by
  unfold withWidth at h
  cases hw : d.width with
  | none =>
    rw [hw] at h
    cases h
    exact ⟨hlen, rfl, rfl, rfl⟩
  | digits e es =>
    have hvalue := decimalValue_lt (e :: es)
    simp only [hw, Except.ok.injEq, Prod.mk.injEq] at h
    obtain ⟨rfl, rfl⟩ := h
    refine ⟨?_, rfl, rfl, rfl⟩
    dsimp only
    exact hvalue
  | star =>
    rw [hw] at h
    cases hargs : vaWord args with
    | error e =>
      rw [hargs] at h
      cases h
    | ok r =>
      rw [hargs] at h
      cases h
      have hw := @BitVec.two_mul_toInt_lt 32 r.1
      split_ifs
      · exact ⟨(wrap32_range _).2, rfl, rfl, rfl⟩
      · exact ⟨by show r.1.toInt < _; omega, rfl, rfl, rfl⟩

theorem withPrec_kept {cv' : Conversion} (h : d.withPrec cv args = .ok (cv', rest)) :
    cv'.length = cv.length ∧ cv'.padc = cv.padc ∧ cv'.longopt = cv.longopt ∧
      cv'.plusSign = cv.plusSign := by
  unfold withPrec at h
  split at h
  · cases h
    exact ⟨rfl, rfl, rfl, rfl⟩
  · cases h
    exact ⟨rfl, rfl, rfl, rfl⟩
  · cases h
    exact ⟨rfl, rfl, rfl, rfl⟩
  · cases hargs : vaWord args with
    | error e =>
      rw [hargs] at h
      cases h
    | ok r =>
      rw [hargs] at h
      cases h
      exact ⟨rfl, rfl, rfl, rfl⟩

theorem flagged_sound (d : Directive) : d.flagged.length < 2 ^ 31 ∧
    (d.flagged.padc = ch ' ' ∨ d.flagged.padc = ch '0') ∧ d.flagged.longopt = 0 ∧
      (.plus ∉ d.flags → d.flagged.plusSign = 0 ∨ d.flagged.plusSign = ch ' ') := by
  obtain ⟨hlen, hpad, hlong⟩ := foldl_kept d.flags ⟨0, -1, false, ch ' ', 0, false, 0⟩
  have hplus (h : .plus ∉ d.flags) := @foldl_plusSign ⟨0, -1, false, ch ' ', 0, false, 0⟩ d.flags h
    (Or.inl rfl)
  unfold flagged
  split_ifs with hz
  · exact ⟨by rw [hlen]; decide, Or.inr rfl, hlong, hplus⟩
  · exact ⟨by rw [hlen]; decide, Or.inl hpad, hlong, hplus⟩

theorem conversion_sound (h : d.conversion args = .ok (cv, rest)) : d.Sound cv := by
  obtain ⟨hlen, hpad, hlong, hplus⟩ := d.flagged_sound
  unfold conversion at h
  cases hw : d.withWidth d.flagged args with
  | error e =>
    rw [hw] at h
    cases h
  | ok r =>
    obtain ⟨hlen₁, hpad₁, hlong₁, hplus₁⟩ := withWidth_kept hlen hw
    simp only [hw, bind, Except.bind] at h
    cases hp : d.withPrec r.1 r.2 with
    | error e =>
      rw [hp] at h
      cases h
    | ok r' =>
      obtain ⟨hlen₂, hpad₂, hlong₂, hplus₂⟩ := withPrec_kept hp
      rw [hp] at h
      cases h
      refine ⟨hlen₂.trans_lt hlen₁, ?_, ?_, ?_⟩
      · show r'.1.padc = _ ∨ r'.1.padc = _
        rw [hpad₂, hpad₁]
        exact hpad
      · show r'.1.longopt + d.longs = d.longs
        rw [hlong₂, hlong₁, hlong, Nat.zero_add]
      · intro hnot
        show r'.1.plusSign = _ ∨ r'.1.plusSign = _
        rw [hplus₂, hplus₁]
        exact hplus hnot

end Directive

/-- A directive for a number prints sign, prefix and digits in a field of its width, and exactly
these when they are wider. -/
theorem number_field {d : Directive} {k : Numeric} {upper : Bool} (mem : Memory) (radix : Int)
    (hk : d.conv = k.char upper) (hd : d.conversion args = .ok (cv, a :: rest))
    (hlen : 0 ≤ cv.length) (hv : k.value d.longs a = some n) :
    doprnt mem (ch '%' :: d.chars) args radix = .ok (k.text cv n, rest) ∧
    (k.text cv n).length =
      max cv.length.toNat ((k.head cv n).length + (k.digits n).length) := by
  have hs := Directive.conversion_sound hd
  have hv' : k.value cv.longopt a = some n := by
    rw [hs.longopt]
    exact hv
  refine ⟨doprnt_directive hd ?_, numberField_length _ _ _⟩
  rw [hk]
  exact Numeric.convert_value hv' hlen hs.length hs.padc

/-- `%#08x` -/
def hexField : Directive where
  flags := [.alt]
  zero := true
  width := .digits ⟨8, by decide⟩ []
  prec := none
  longs := 0
  conv := ch 'x'
  conv_plain := by decide
  conv_char := by decide
  width_leads := by simp

theorem number_field_hex :
    doprnt (fun _ => 1) (ch '%' :: hexField.chars) [.word 0xbeef] 0 =
      .ok ([0x30, 0x78, 0x30, 0x30, 0x62, 0x65, 0x65, 0x66], []) := by
  have htext : Numeric.hex.text ⟨8, -1, false, ch '0', 0, true, 0⟩ 0xbeef =
      [0x30, 0x78, 0x30, 0x30, 0x62, 0x65, 0x65, 0x66] := by decide
  have hd : hexField.conversion [.word 0xbeef] =
      .ok (⟨8, -1, false, ch '0', 0, true, 0⟩, [.word 0xbeef]) := by decide +kernel
  have hk : hexField.conv = Numeric.hex.char false := rfl
  rw [← htext]
  exact (number_field (fun _ => 1) 0 hk hd (by decide) rfl).1

end RtosKernel.Libc
