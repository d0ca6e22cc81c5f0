import RtosKernel.Libc.Numbers
import RtosKernel.Math.Digits
import RtosKernel.Strings.Scan

namespace RtosKernel.Libc

open Rounds StringMemory

variable {mem : Memory} {p base v : BitVec 32} {c : BitVec 8} {cs ds : List (BitVec 8)} {b d : Nat}

/-- The value of `c` as a digit, in either case. -/
def digitValue (c : BitVec 8) : Option Nat :=
  if ch '0' ≤ c ∧ c ≤ ch '9' then some (c.toNat - 48)
  else if ch 'a' ≤ c ∧ c ≤ ch 'z' then some (c.toNat - 97 + 10)
  else if ch 'A' ≤ c ∧ c ≤ ch 'Z' then some (c.toNat - 65 + 10)
  else none

/-- The digits of base `b` that a string starts with. -/
def numeral (b : Nat) : List (BitVec 8) → List Nat
  | [] => []
  | c :: cs => ((digitValue c).filter (· < b)).elim [] fun d => d :: numeral b cs

/-- How many characters of the string are a prefix for the base, and the base it is read in. -/
def prefixBase (cs : List (BitVec 8)) (b : Nat) : Nat × Nat :=
  if (b = 16 ∨ b = 0) ∧ cs[0]? = some (ch '0') ∧
      (cs[1]? = some (ch 'x') ∨ cs[1]? = some (ch 'X')) then (2, 16)
  else if b = 0 then if cs[0]? = some (ch '0') then (0, 8) else (0, 10)
  else (0, b)

/-- The number a string starts with, and how many characters it takes. -/
def readNumber (cs : List (BitVec 8)) (b : Nat) : Nat × Nat :=
  let (k, b) := prefixBase cs b
  let ds := numeral b (cs.drop k)
  (Digits.value b ds, k + ds.length)

/-- The three ranges of digits. -/
theorem digitValue_cases (c : BitVec 8) :
    (48 ≤ c.toNat ∧ c.toNat ≤ 57 ∧ digitValue c = some (c.toNat - 48)) ∨
    (97 ≤ c.toNat ∧ c.toNat ≤ 122 ∧ digitValue c = some (c.toNat - 97 + 10)) ∨
    (65 ≤ c.toNat ∧ c.toNat ≤ 90 ∧ digitValue c = some (c.toNat - 65 + 10)) ∨
    digitValue c = none := by
  unfold digitValue
  split_ifs with h1 h2 h3
  · exact Or.inl ⟨h1.1, h1.2, rfl⟩
  · exact Or.inr (Or.inl ⟨h2.1, h2.2, rfl⟩)
  · exact Or.inr (Or.inr (Or.inl ⟨h3.1, h3.2, rfl⟩))
  · exact Or.inr (Or.inr (Or.inr rfl))

/-- A digit as the loop computes it, compared with the base as an `int`. -/
theorem digit_slt (hb : base.toNat < 2 ^ 31) (first add : BitVec 32) (hlo : first ≤ c.setWidth 32)
    (hadd : add.toNat ≤ 10) :
    (c.setWidth 32 - first + add).slt base = true ↔
      c.toNat - first.toNat + add.toNat < base.toNat := by
  have hc := c.isLt
  have hval : (c.setWidth 32 - first + add).toNat = c.toNat - first.toNat + add.toNat := by
    bv_omega
  have hint : (c.setWidth 32 - first + add).toInt = c.toNat - first.toNat + add.toNat := by
    rw [BitVec.toInt_eq_toNat_of_lt (by omega), hval]
    bv_omega
  have hbase : base.toInt = base.toNat := BitVec.toInt_eq_toNat_of_lt (by omega)
  rw [BitVec.slt, decide_eq_true_iff, hint, hbase]
  bv_omega

/-- One range of `digitIn`. -/
theorem digit_filter (hb : base.toNat < 2 ^ 31) (first add : BitVec 32)
    (hlo : first ≤ c.setWidth 32) (hadd : add.toNat ≤ 10) :
    (if (c.setWidth 32 - first + add).slt base = true then some (c.setWidth 32 - first + add)
      else none) =
    ((some (c.toNat - first.toNat + add.toNat)).filter (· < base.toNat)).map (BitVec.ofNat 32) := by
  have hslt := digit_slt hb first add hlo hadd
  have hval : c.setWidth 32 - first + add =
      BitVec.ofNat 32 (c.toNat - first.toNat + add.toNat) := by
    have hc := c.isLt
    bv_omega
  rw [Option.filter_some]
  by_cases hd : c.toNat - first.toNat + add.toNat < base.toNat
  · rw [if_pos (hslt.mpr hd), if_pos (decide_eq_true hd), Option.map_some, hval]
  · rw [if_neg (mt hslt.mp hd), if_neg (by rw [decide_eq_true_iff]; exact hd), Option.map_none]

theorem digitIn_eq (hb : base.toNat < 2 ^ 31) :
    digitIn base c = ((digitValue c).filter (· < base.toNat)).map (BitVec.ofNat 32) := by
  have h9a : ch '9' < ch 'a' := by decide
  have h9A : ch '9' < ch 'A' := by decide
  have hZa : ch 'Z' < ch 'a' := by decide
  unfold digitIn digitValue
  by_cases h1 : ch '0' ≤ c ∧ c ≤ ch '9'
  · have ha : ¬ ch 'a' ≤ c := by bv_omega
    have hA : ¬ ch 'A' ≤ c := by bv_omega
    rw [if_pos h1]
    simp only [ge_iff_le, h1, ha, hA, true_and, false_and, if_false]
    exact digit_filter hb ((ch '0').setWidth 32) 0 (by bv_omega) (by decide)
  · by_cases h2 : ch 'a' ≤ c ∧ c ≤ ch 'z'
    · have hA : ¬ c ≤ ch 'Z' := by bv_omega
      rw [if_neg h1, if_pos h2]
      simp only [ge_iff_le, ← and_assoc, h1, h2, hA, and_false, true_and, false_and, if_false]
      exact digit_filter hb ((ch 'a').setWidth 32) 10 (by bv_omega) (by decide)
    · by_cases h3 : ch 'A' ≤ c ∧ c ≤ ch 'Z'
      · rw [if_neg h1, if_neg h2, if_pos h3]
        simp only [ge_iff_le, ← and_assoc, h1, h2, h3, true_and, false_and, if_false]
        exact digit_filter hb ((ch 'A').setWidth 32) 10 (by bv_omega) (by decide)
      · simp only [h1, h2, h3, ge_iff_le, ← and_assoc, false_and, if_false, Option.filter_none,
          Option.map_none]

theorem digitTurn_loop (h : StringAt mem p cs) (hb : base.toNat < 2 ^ 31) :
    loop (digitTurn mem base) (cs.length + 1) (v, p) =
      some ((numeral base.toNat cs).foldl (fun v d => v * base + BitVec.ofNat 32 d) v,
        p + BitVec.ofNat 32 (numeral base.toNat cs).length) := by
  induction cs generalizing v p with
  | nil =>
    have hzero : mem p = 0 := h
    have hnone : digitIn base 0 = none := by
      rw [digitIn_eq hb]
      rfl
    apply loop_leave
    simp only [digitTurn, hzero, hnone, numeral, List.foldl_nil, List.length_nil, add_ofNat_zero]
  | cons c cs ih =>
    obtain ⟨hc, -, hcs⟩ := h
    cases hd : (digitValue c).filter (· < base.toNat) with
    | none =>
      have hnone : digitIn base c = none := by
        rw [digitIn_eq hb, hd]
        rfl
      apply loop_leave
      simp only [digitTurn, hc, hnone, numeral, hd, Option.elim_none, List.foldl_nil,
        List.length_nil, add_ofNat_zero]
    | some d =>
      have hsome : digitIn base c = some (BitVec.ofNat 32 d) := by
        rw [digitIn_eq hb, hd]
        rfl
      have hturn : digitTurn mem base (v, p) = .again (v * base + BitVec.ofNat 32 d, p + 1) := by
        simp only [digitTurn, hc, hsome]
      rw [List.length_cons, loop_again hturn, ih hcs]
      simp only [numeral, hd, Option.elim_some, List.foldl_cons, List.length_cons, add_ofNat_succ]

/-- The words of the loop are the value modulo `2 ^ 32`. -/
theorem foldl_ofNat (ds : List Nat) (u : Nat) :
    ds.foldl (fun v d => v * base + BitVec.ofNat 32 d) (BitVec.ofNat 32 u) =
      BitVec.ofNat 32 (ds.foldl (fun v d => v * base.toNat + d) u) := by
  induction ds generalizing u with
  | nil => rfl
  | cons d ds ih =>
    have hstep : BitVec.ofNat 32 u * base + BitVec.ofNat 32 d =
        BitVec.ofNat 32 (u * base.toNat + d) := by
      rw [BitVec.ofNat_add, BitVec.ofNat_mul, BitVec.ofNat_toNat, BitVec.setWidth_eq]
    rw [List.foldl_cons, List.foldl_cons, hstep, ih]

theorem digitTurn_value (h : StringAt mem p cs) (hb : base.toNat < 2 ^ 31) :
    loop (digitTurn mem base) rounds (0, p) =
      some (BitVec.ofNat 32 (Digits.value base.toNat (numeral base.toNat cs)),
        p + BitVec.ofNat 32 (numeral base.toNat cs).length) := by
  rw [loop_mono (digitTurn_loop h hb) h.length_lt]
  show some (List.foldl _ (BitVec.ofNat 32 0) _, _) = _
  rw [foldl_ofNat]
  rfl

/-- How much white space a string starts with. -/
def spaces (cs : List (BitVec 8)) : Nat := cs.findIdx fun c => !isspace c

theorem spaces_le : spaces cs ≤ cs.length := List.findIdx_le_length

theorem spaceTurn_loop (h : StringAt mem p cs) : loop (spaceTurn mem) rounds p =
    some (p + BitVec.ofNat 32 (spaces cs)) := by
  have hstop := scan_char (fun c => !isspace c) (by decide) h
  refine scan_loop (fun c => !isspace c) h ?_ ?_
  · intro a ha
    have hspace : isspace (mem a) = true := by simpa using ha
    rw [spaceTurn, if_pos hspace]
  · exact if_neg (by simpa using hstop)

/-- A character of a string, or its zero, against a constant other than zero. -/
theorem char_eq_iff (h : StringAt mem p cs) (hc : c ≠ 0) : mem p = c ↔ cs[0]? = some c := by
  cases cs with
  | nil =>
    have hzero : mem p = 0 := h
    rw [hzero]
    simp only [List.getElem?_nil, reduceCtorEq, iff_false]
    exact hc.symm
  | cons c' cs =>
    rw [h.1]
    simp only [List.getElem?_cons_zero, Option.some.injEq]

theorem second_eq_iff (h : StringAt mem p cs) (hp : mem p ≠ 0) (hc : c ≠ 0) :
    mem (p + 1) = c ↔ cs[1]? = some c := by
  cases cs with
  | nil => exact absurd h hp
  | cons c' cs =>
    rw [char_eq_iff h.2.2 hc]
    rfl

/-- The characters at `p` and the start of the string decide alike. -/
theorem prefix_iff (h : StringAt mem p cs) :
    ((base = 16 ∨ base = 0) ∧ mem p = ch '0' ∧ (mem (p + 1) = ch 'x' ∨ mem (p + 1) = ch 'X')) ↔
    ((base.toNat = 16 ∨ base.toNat = 0) ∧ cs[0]? = some (ch '0') ∧
      (cs[1]? = some (ch 'x') ∨ cs[1]? = some (ch 'X'))) := by
  have h16 : base = 16 ↔ base.toNat = 16 := by bv_omega
  have h0 : base = 0 ↔ base.toNat = 0 := by bv_omega
  rw [h16, h0, ← char_eq_iff h (c := ch '0') (by decide)]
  refine and_congr_right fun _ => and_congr_right fun hp => ?_
  have hne : mem p ≠ 0 := by
    rw [hp]
    decide
  rw [second_eq_iff h hne (by decide), second_eq_iff h hne (by decide)]

theorem numberBase_eq (h : StringAt mem p cs) :
    numberBase mem p base = (p + BitVec.ofNat 32 (prefixBase cs base.toNat).1,
      BitVec.ofNat 32 (prefixBase cs base.toNat).2) := by
  have hiff := @prefix_iff _ _ base cs h
  have hzero := char_eq_iff h (c := ch '0') (by decide)
  have h0 : base = 0 ↔ base.toNat = 0 := by bv_omega
  unfold numberBase prefixBase
  by_cases hx : (base.toNat = 16 ∨ base.toNat = 0) ∧ cs[0]? = some (ch '0') ∧
      (cs[1]? = some (ch 'x') ∨ cs[1]? = some (ch 'X'))
  · rw [if_pos (hiff.mpr hx), if_pos hx]
    rfl
  · rw [if_neg (mt hiff.mp hx), if_neg hx]
    dsimp only
    by_cases hb : base.toNat = 0
    · have hb0 := h0.mpr hb
      by_cases hz : cs[0]? = some (ch '0')
      · rw [if_pos hb0, if_pos hb, if_pos (hzero.mpr hz), if_pos hz]
        show (p, (8 : BitVec 32)) = (p + BitVec.ofNat 32 0, _)
        rw [add_ofNat_zero]
        rfl
      · rw [if_pos hb0, if_pos hb, if_neg (mt hzero.mp hz), if_neg hz]
        show (p, (10 : BitVec 32)) = (p + BitVec.ofNat 32 0, _)
        rw [add_ofNat_zero]
        rfl
    · simp only [mt h0.mp hb, hb, if_false, add_ofNat_zero, BitVec.ofNat_toNat, BitVec.setWidth_eq]

theorem prefixBase_lt (hb : base.toNat < 2 ^ 31) : (prefixBase cs base.toNat).2 < 2 ^ 31 := by
  unfold prefixBase
  split_ifs <;> first | exact hb | decide

theorem prefixBase_le : (prefixBase cs b).1 ≤ cs.length := by
  unfold prefixBase
  split_ifs with hx
  · have hlen : 1 < cs.length := by
      rcases hx.2.2 with hx1 | hx1 <;> exact (List.getElem?_eq_some_iff.mp hx1).1
    omega
  all_goals exact Nat.zero_le _

/-- The common end of `strtoul` and `strtol`. -/
theorem digits_readNumber (h : StringAt mem p cs) (hb : base.toNat < 2 ^ 31) :
    loop (digitTurn mem (numberBase mem p base).2) rounds (0, (numberBase mem p base).1) =
      some (BitVec.ofNat 32 (readNumber cs base.toNat).1,
        p + BitVec.ofNat 32 (readNumber cs base.toNat).2) := by
  have hlt := @prefixBase_lt base cs hb
  have hnat : (BitVec.ofNat 32 (prefixBase cs base.toNat).2).toNat =
      (prefixBase cs base.toNat).2 := by
    rw [BitVec.toNat_ofNat]
    exact Nat.mod_eq_of_lt (by omega)
  rw [numberBase_eq h]
  show loop (digitTurn mem (BitVec.ofNat 32 (prefixBase cs base.toNat).2)) rounds
    (0, p + BitVec.ofNat 32 (prefixBase cs base.toNat).1) = _
  rw [digitTurn_value (h.drop prefixBase_le) (by rw [hnat]; exact hlt), hnat, add_ofNat_add]
  rfl

theorem strtoul_eq (h : StringAt mem p cs) (hb : base.toNat < 2 ^ 31) :
    strtoul mem p base =
      some (BitVec.ofNat 32 (readNumber (cs.drop (spaces cs)) base.toNat).1,
        p + BitVec.ofNat 32 (spaces cs + (readNumber (cs.drop (spaces cs)) base.toNat).2)) := by
  rw [strtoul, spaceTurn_loop h]
  refine (digits_readNumber (h.drop spaces_le) hb).trans ?_
  rw [add_ofNat_add]

/-- A minus sign counts for `strtol`, a plus sign does not. -/
def minus (cs : List (BitVec 8)) : Nat := if cs[0]? = some (ch '-') then 1 else 0

theorem minus_le : minus cs ≤ cs.length := by
  unfold minus
  split_ifs with hm
  · exact (List.getElem?_eq_some_iff.mp hm).1
  · exact Nat.zero_le _

theorem strtol_eq (h : StringAt mem p cs) (hb : base.toNat < 2 ^ 31) :
    strtol mem p base =
      let body := cs.drop (spaces cs)
      let r := readNumber (body.drop (minus body)) base.toNat
      some (if minus body = 1 then -BitVec.ofNat 32 r.1 else BitVec.ofNat 32 r.1,
        p + BitVec.ofNat 32 (spaces cs + minus body + r.2)) := by
  let q := p + BitVec.ofNat 32 (spaces cs)
  let body := cs.drop (spaces cs)
  have hbody : StringAt mem q body := h.drop spaces_le
  have hsign : mem q = ch '-' ↔ minus body = 1 := by
    rw [char_eq_iff hbody (by decide), minus]
    split_ifs with hm <;> simp [hm]
  have hstart : (if mem q = ch '-' then q + 1 else q) = q + BitVec.ofNat 32 (minus body) := by
    by_cases hm : mem q = ch '-'
    · rw [if_pos hm, hsign.mp hm]
      rfl
    · have hzero : minus body = 0 := by
        have hne := mt hsign.mpr hm
        unfold minus at hne ⊢
        split_ifs at hne ⊢ with hc
        · exact absurd rfl hne
        · rfl
      rw [if_neg hm, hzero, add_ofNat_zero]
  have hdigits := digits_readNumber (hbody.drop minus_le) hb
  rw [add_ofNat_add (s := p), add_ofNat_add] at hdigits
  rw [strtol, spaceTurn_loop h]
  show (loop (digitTurn mem (numberBase mem (if mem q = ch '-' then q + 1 else q) base).2) rounds
    (0, (numberBase mem (if mem q = ch '-' then q + 1 else q) base).1)).map _ = _
  rw [hstart, add_ofNat_add, hdigits, Option.map_some]
  show some (if mem q = ch '-' then _ else _, _) = some (if minus body = 1 then _ else _, _)
  simp only [hsign]
  rfl

theorem isdigit_iff : isdigit c = true ↔ 48 ≤ c.toNat ∧ c.toNat ≤ 57 := by
  unfold isdigit
  rw [Bool.and_eq_true, decide_eq_true_iff, decide_eq_true_iff]
  rfl

theorem digitValue_ten : (digitValue c).filter (· < 10) =
    if isdigit c then some (c.toNat - 48) else none := by
  have hiff := isdigit_iff (c := c)
  rcases digitValue_cases c with ⟨hlo, hhi, hd⟩ | ⟨hlo, hhi, hd⟩ | ⟨hlo, hhi, hd⟩ | hd
  · have hten : c.toNat - 48 < 10 := by omega
    rw [if_pos (hiff.mpr ⟨hlo, hhi⟩), hd, Option.filter_some, if_pos (decide_eq_true hten)]
  · have hten : ¬ c.toNat - 97 + 10 < 10 := by omega
    rw [if_neg (mt hiff.mp (by omega)), hd, Option.filter_some, if_neg (by simp)]
  · have hten : ¬ c.toNat - 65 + 10 < 10 := by omega
    rw [if_neg (mt hiff.mp (by omega)), hd, Option.filter_some, if_neg (by simp)]
  · rw [hd, Option.filter_none]
    split_ifs with hdig
    · have hrange : ch '0' ≤ c ∧ c ≤ ch '9' := hiff.mp hdig
      rw [digitValue, if_pos hrange] at hd
      cases hd
    · rfl

theorem atolTurn_loop (h : StringAt mem p cs) : loop (atolTurn mem) (cs.length + 1) (v, p) =
    some ((numeral 10 cs).foldl (fun v d => v * 10 + BitVec.ofNat 32 d) v) := by
  induction cs generalizing v p with
  | nil =>
    have hzero : mem p = 0 := h
    have hdig : isdigit 0 = false := by decide
    apply loop_leave
    simp only [atolTurn, hzero, hdig, Bool.false_eq_true, if_false, numeral, List.foldl_nil]
  | cons c cs ih =>
    obtain ⟨hc, -, hcs⟩ := h
    cases hd : isdigit c with
    | false =>
      have hnum : numeral 10 (c :: cs) = [] := by
        rw [numeral, digitValue_ten, hd]
        rfl
      apply loop_leave
      simp only [atolTurn, hc, hd, Bool.false_eq_true, if_false, hnum, List.foldl_nil]
    | true =>
      obtain ⟨hlo, hhi⟩ := isdigit_iff.mp hd
      have hnum : numeral 10 (c :: cs) = (c.toNat - 48) :: numeral 10 cs := by
        rw [numeral, digitValue_ten, hd]
        rfl
      have hzero : ch '0' = 48 := by decide
      have hstep : v * 10 + charAt mem p - (ch '0').setWidth 32 =
          v * 10 + BitVec.ofNat 32 (c.toNat - 48) := by
        rw [charAt, hc, hzero]
        bv_omega
      have hturn : atolTurn mem (v, p) =
          .again (v * 10 + BitVec.ofNat 32 (c.toNat - 48), p + 1) := by
        rw [← hstep]
        simp only [atolTurn, hc, hd, if_true]
      rw [List.length_cons, loop_again hturn, ih hcs, hnum, List.foldl_cons]

theorem atol_eq (h : StringAt mem p cs) :
    atol mem p = some (BitVec.ofNat 32 (Digits.value 10 (numeral 10 cs))) := by
  rw [atol, loop_mono (atolTurn_loop h) h.length_lt]
  show some (List.foldl _ (BitVec.ofNat 32 0) _) = _
  rw [@foldl_ofNat 10]
  rfl

/-- All three skip what they skip and then read the longest numeral, modulo `2 ^ 32`. Only `strtol`
takes a minus sign, none takes a plus sign, and `atol` skips no white space. -/
theorem strtol_reads (h : StringAt mem p cs) (hb : base.toNat < 2 ^ 31) :
    (strtoul mem p base =
      some (BitVec.ofNat 32 (readNumber (cs.drop (spaces cs)) base.toNat).1,
        p + BitVec.ofNat 32 (spaces cs + (readNumber (cs.drop (spaces cs)) base.toNat).2))) ∧
    (strtol mem p base =
      let body := cs.drop (spaces cs)
      let r := readNumber (body.drop (minus body)) base.toNat
      some (if minus body = 1 then -BitVec.ofNat 32 r.1 else BitVec.ofNat 32 r.1,
        p + BitVec.ofNat 32 (spaces cs + minus body + r.2))) ∧
    atol mem p = some (BitVec.ofNat 32 (Digits.value 10 (numeral 10 cs))) :=
  ⟨strtoul_eq h hb, strtol_eq h hb, atol_eq h⟩

/-- The text `" -0x1g"`. -/
theorem strtol_reads_hex :
    strtol (holding 0x100 [0x20, 0x2d, 0x30, 0x78, 0x31, 0x67]) 0x100 0 = some (-1, 0x105) :=
  (strtol_reads (holding_stringAt (by decide) (by decide)) (by decide)).2.1

end RtosKernel.Libc
