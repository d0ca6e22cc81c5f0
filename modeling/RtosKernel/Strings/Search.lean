import Mathlib.Tactic.SplitIfs
import RtosKernel.Strings.Order

namespace RtosKernel.Libc

open Rounds StringMemory

variable {mem : Memory} {s t c : BitVec 32} {b : BitVec 8} {cs ds : List (BitVec 8)} {i k : Nat}

section Spans

theorem inSpanTurn_loop (h : StringAt mem t ds) :
    loop (inSpanTurn mem b) (ds.length + 1) t = some (decide (b ∈ ds)) := by
  induction ds generalizing t with
  | nil =>
    have hzero : mem t = 0 := h
    apply loop_leave
    simp only [inSpanTurn, hzero, ne_eq, not_true_eq_false, if_false, List.not_mem_nil,
      decide_false]
  | cons d ds ih =>
    obtain ⟨hd, hne, hds⟩ := h
    by_cases heq : d = b
    · subst heq
      apply loop_leave
      simp only [inSpanTurn, hd, ne_eq, hne, not_false_eq_true, if_true, List.mem_cons, true_or,
        decide_true]
    · have hturn : inSpanTurn mem b t = .again (t + 1) := by
        simp only [inSpanTurn, hd, ne_eq, hne, not_false_eq_true, if_true, heq, if_false]
      rw [List.length_cons, loop_again hturn, ih hds]
      simp only [List.mem_cons, Ne.symm heq, false_or]

theorem inSpan_eq (h : StringAt mem t ds) : inSpan mem b t = some (decide (b ∈ ds)) :=
  loop_mono (inSpanTurn_loop h) h.length_lt

theorem stopsSpanTurn_loop (h : StringAt mem t ds) :
    loop (stopsSpanTurn mem b) (ds.length + 1) t = some (decide (b ∈ ds ∨ b = 0)) := by
  induction ds generalizing t with
  | nil =>
    have hzero : mem t = 0 := h
    apply loop_leave
    by_cases hb : b = 0
    · simp only [stopsSpanTurn, hzero, hb, if_true, or_true, decide_true]
    · simp only [stopsSpanTurn, hzero, Ne.symm hb, if_false, ne_eq, not_true_eq_false,
        List.not_mem_nil, hb, or_self, decide_false]
  | cons d ds ih =>
    obtain ⟨hd, hne, hds⟩ := h
    by_cases heq : d = b
    · apply loop_leave
      simp only [stopsSpanTurn, hd, heq, if_true, List.mem_cons, true_or, decide_true]
    · have hturn : stopsSpanTurn mem b t = .again (t + 1) := by
        simp only [stopsSpanTurn, hd, heq, if_false, ne_eq, hne, not_false_eq_true, if_true]
      rw [List.length_cons, loop_again hturn, ih hds]
      simp only [List.mem_cons, Ne.symm heq, false_or]

theorem stopsSpan_eq (h : StringAt mem t ds) :
    stopsSpan mem b t = some (decide (b ∈ ds ∨ b = 0)) :=
  loop_mono (stopsSpanTurn_loop h) h.length_lt

theorem zero_not_mem (h' : StringAt mem t ds) : 0 ∉ ds :=
  fun hmem => (stringAt_iff.mp h').2.1 0 hmem rfl

/-- The number of leading characters of the first string that are in the second. -/
theorem strspn_eq (h : StringAt mem s cs) (h' : StringAt mem t ds) :
    strspn mem s t = some (BitVec.ofNat 32 (cs.findIdx fun b => decide (b ∉ ds))) := by
  have hzero : decide ((0 : BitVec 8) ∉ ds) = true := decide_eq_true (zero_not_mem h')
  have hstop := of_decide_eq_true (scan_char (fun b => decide (b ∉ ds)) hzero h)
  have hloop : loop (strspnTurn mem s t) rounds s =
      some (some (BitVec.ofNat 32 (cs.findIdx fun b => decide (b ∉ ds)))) := by
    refine scan_loop (fun b => decide (b ∉ ds)) h ?_ ?_
    · intro a ha
      have hmem : mem a ∈ ds := not_not.mp (of_decide_eq_false ha)
      simp only [strspnTurn, inSpan_eq h', hmem, decide_true]
    · simp only [strspnTurn, inSpan_eq h', hstop, decide_false]
      congr 2
      bv_omega
  rw [strspn, hloop]
  rfl

/-- The number of leading characters of the first string that are not in the second. -/
theorem strcspn_eq (h : StringAt mem s cs) (h' : StringAt mem t ds) :
    strcspn mem s t = some (BitVec.ofNat 32 (cs.findIdx fun b => decide (b ∈ ds ∨ b = 0))) := by
  have hzero : decide ((0 : BitVec 8) ∈ ds ∨ (0 : BitVec 8) = 0) = true :=
    decide_eq_true (Or.inr rfl)
  have hstop := of_decide_eq_true (scan_char (fun b => decide (b ∈ ds ∨ b = 0)) hzero h)
  have hloop : loop (strcspnTurn mem s t) rounds s =
      some (some (BitVec.ofNat 32 (cs.findIdx fun b => decide (b ∈ ds ∨ b = 0)))) := by
    refine scan_loop (fun b => decide (b ∈ ds ∨ b = 0)) h ?_ ?_
    · intro a ha
      have hnot : ¬ (mem a ∈ ds ∨ mem a = 0) := of_decide_eq_false ha
      simp only [strcspnTurn, stopsSpan_eq h', hnot, decide_false]
    · simp only [strcspnTurn, stopsSpan_eq h', hstop, decide_true]
      congr 2
      bv_omega
  rw [strcspn, hloop]
  rfl

theorem findIdx_congr {p q : BitVec 8 → Bool} (hpq : ∀ b ∈ cs, p b = q b) :
    cs.findIdx p = cs.findIdx q := by
  induction cs with
  | nil => rfl
  | cons c cs ih =>
    obtain ⟨hc, hcs⟩ := List.forall_mem_cons.mp hpq
    rw [List.findIdx_cons, List.findIdx_cons, hc, ih hcs]

/-- The zero of the span stops no character of the string. -/
theorem findIdx_span (h : StringAt mem s cs) :
    cs.findIdx (fun b => decide (b ∈ ds ∨ b = 0)) = cs.findIdx fun b => decide (b ∈ ds) := by
  apply findIdx_congr
  intro b hb
  have hne : b ≠ 0 := (stringAt_iff.mp h).2.1 b hb
  simp only [hne, or_false]

theorem strpbrk_eq (h : StringAt mem s cs) (h' : StringAt mem t ds) :
    strpbrk mem s t = some (if cs.findIdx (fun b => decide (b ∈ ds)) < cs.length then
      s + BitVec.ofNat 32 (cs.findIdx fun b => decide (b ∈ ds)) else 0) := by
  have hzero : decide ((0 : BitVec 8) ∈ ds ∨ (0 : BitVec 8) = 0) = true :=
    decide_eq_true (Or.inr rfl)
  have hstop := of_decide_eq_true (scan_char (fun b => decide (b ∈ ds ∨ b = 0)) hzero h)
  have hle : cs.findIdx (fun b => decide (b ∈ ds ∨ b = 0)) ≤ cs.length := List.findIdx_le_length
  rw [← findIdx_span h]
  have hloop : loop (strpbrkTurn mem t) rounds s =
      some (some (if cs.findIdx (fun b => decide (b ∈ ds ∨ b = 0)) < cs.length then
        s + BitVec.ofNat 32 (cs.findIdx fun b => decide (b ∈ ds ∨ b = 0)) else 0)) := by
    refine scan_loop (fun b => decide (b ∈ ds ∨ b = 0)) h ?_ ?_
    · intro a ha
      obtain ⟨hnot, hne⟩ := not_or.mp (of_decide_eq_false ha)
      simp only [strpbrkTurn, ne_eq, hne, not_false_eq_true, if_true, inSpan_eq h', hnot,
        decide_false]
    · split_ifs with hlt
      · have hne := h.ne_zero hlt
        have hmem := hstop.resolve_right hne
        simp only [strpbrkTurn, ne_eq, hne, not_false_eq_true, if_true, inSpan_eq h', hmem,
          decide_true]
        congr 2
        bv_omega
      · have heq : cs.findIdx (fun b => decide (b ∈ ds ∨ b = 0)) = cs.length := by omega
        simp only [strpbrkTurn, heq, h.zero, ne_eq, not_true_eq_false, if_false]
  rw [strpbrk, hloop]
  rfl

end Spans

section Chars

/-- Character `i` of `cs` is `c` as an `int`. -/
def CharIs (c : BitVec 32) (cs : List (BitVec 8)) (i : Nat) : Prop :=
  ∃ b, cs[i]? = some b ∧ b.setWidth 32 = c

theorem charIs_iff (hi : i < cs.length) : CharIs c cs i ↔ cs[i].setWidth 32 = c := by
  unfold CharIs
  rw [List.getElem?_eq_getElem hi]
  constructor
  · rintro ⟨b, hb, hc⟩
    rw [Option.some.inj hb]
    exact hc
  · exact fun hc => ⟨_, rfl, hc⟩

theorem CharIs.lt (h : CharIs c cs i) : i < cs.length := by
  obtain ⟨b, hb, -⟩ := h
  exact (List.getElem?_eq_some_iff.mp hb).1

theorem charIs_succ : CharIs c (b :: cs) (i + 1) ↔ CharIs c cs i := by
  unfold CharIs
  rw [List.getElem?_cons_succ]

theorem strchrTurn_loop (h : StringAt mem s cs) :
    ∃ p, loop (strchrTurn mem c) (cs.length + 1) s = some p ∧
    ((∃ i, p = s + BitVec.ofNat 32 i ∧ CharIs c (cs ++ [0]) i ∧
        ∀ j < i, ¬ CharIs c (cs ++ [0]) j) ∨
      p = 0 ∧ ∀ j, ¬ CharIs c (cs ++ [0]) j) := by
  induction cs generalizing s with
  | nil =>
    have hzero : mem s = 0 := h
    have hhead : CharIs c [0] 0 ↔ (0 : BitVec 8).setWidth 32 = c := charIs_iff (by decide)
    by_cases hc : (0 : BitVec 8).setWidth 32 = c
    · refine ⟨s, loop_leave ?_, Or.inl ⟨0, (add_ofNat_zero s).symm, hhead.mpr hc,
        fun j hj => absurd hj (Nat.not_lt_zero j)⟩⟩
      rw [strchrTurn, charAt, hzero, if_pos hc]
    · refine ⟨0, loop_leave ?_, Or.inr ⟨rfl, fun j hj => ?_⟩⟩
      · rw [strchrTurn, charAt, hzero, if_neg hc, if_pos rfl]
      · obtain rfl : j = 0 := Nat.lt_one_iff.mp hj.lt
        exact hc (hhead.mp hj)
  | cons b cs ih =>
    obtain ⟨hb, hne, hcs⟩ := h
    have hhead : CharIs c (b :: (cs ++ [0])) 0 ↔ b.setWidth 32 = c :=
      charIs_iff (Nat.zero_lt_succ _)
    by_cases hc : b.setWidth 32 = c
    · refine ⟨s, loop_leave ?_, Or.inl ⟨0, (add_ofNat_zero s).symm, hhead.mpr hc,
        fun j hj => absurd hj (Nat.not_lt_zero j)⟩⟩
      rw [strchrTurn, charAt, hb, if_pos hc]
    · have hturn : strchrTurn mem c s = .again (s + 1) := by
        rw [strchrTurn, charAt, hb, if_neg hc, if_neg hne]
      obtain ⟨p, hloop, hp⟩ := ih hcs
      refine ⟨p, by rw [List.length_cons, loop_again hturn, hloop], ?_⟩
      rcases hp with ⟨i, hpi, hi, hfirst⟩ | ⟨hp0, hnone⟩
      · refine Or.inl ⟨i + 1, by rw [hpi, add_ofNat_succ], charIs_succ.mpr hi, ?_⟩
        intro j hj hk
        cases j with
        | zero => exact hc (hhead.mp hk)
        | succ j => exact hfirst j (by omega) (charIs_succ.mp hk)
      · refine Or.inr ⟨hp0, ?_⟩
        intro j hk
        cases j with
        | zero => exact hc (hhead.mp hk)
        | succ j => exact hnone j (charIs_succ.mp hk)

theorem strrchrTurn_loop {save : BitVec 32} (h : StringAt mem s cs) :
    ∃ p, loop (strrchrTurn mem c) (cs.length + 1) (save, s) = some p ∧
    ((∃ i, p = s + BitVec.ofNat 32 i ∧ CharIs c cs i ∧ ∀ j > i, ¬ CharIs c cs j) ∨
      p = save ∧ ∀ j, ¬ CharIs c cs j) := by
  induction cs generalizing s save with
  | nil =>
    have hzero : mem s = 0 := h
    refine ⟨save, loop_leave ?_, Or.inr ⟨rfl, fun j hj => absurd hj.lt (Nat.not_lt_zero j)⟩⟩
    simp only [strrchrTurn, hzero, ne_eq, not_true_eq_false, if_false]
  | cons b cs ih =>
    obtain ⟨hb, hne, hcs⟩ := h
    have hturn : strrchrTurn mem c (save, s) =
        .again (if b.setWidth 32 = c then s else save, s + 1) := by
      simp only [strrchrTurn, hb, ne_eq, hne, not_false_eq_true, if_true, charAt]
    have hhead : CharIs c (b :: cs) 0 ↔ b.setWidth 32 = c := charIs_iff (Nat.zero_lt_succ _)
    obtain ⟨p, hloop, hp⟩ := @ih (s + 1) (if b.setWidth 32 = c then s else save) hcs
    refine ⟨p, by rw [List.length_cons, loop_again hturn, hloop], ?_⟩
    rcases hp with ⟨i, hpi, hi, hlast⟩ | ⟨hps, hnone⟩
    · refine Or.inl ⟨i + 1, ?_, charIs_succ.mpr hi, ?_⟩
      · rw [hpi, add_ofNat_succ]
      · intro j hj
        obtain ⟨k, rfl⟩ : ∃ k, j = k + 1 := ⟨j - 1, by omega⟩
        exact fun hk => hlast k (by omega) (charIs_succ.mp hk)
    · by_cases hbc : b.setWidth 32 = c
      · rw [if_pos hbc] at hps
        refine Or.inl ⟨0, by rw [hps, add_ofNat_zero], hhead.mpr hbc, ?_⟩
        intro j hj
        obtain ⟨k, rfl⟩ : ∃ k, j = k + 1 := ⟨j - 1, by omega⟩
        exact fun hk => hnone k (charIs_succ.mp hk)
      · rw [if_neg hbc] at hps
        refine Or.inr ⟨hps, ?_⟩
        intro j hj
        cases j with
        | zero => exact hbc (hhead.mp hj)
        | succ j => exact hnone j (charIs_succ.mp hj)

end Chars

section Strstr

/-- The comparison of the needle with the start of what is left of the haystack. -/
theorem memcmp_prefix_iff (h : StringAt mem s cs) (h' : StringAt mem t ds)
    (hle : ds.length ≤ cs.length) :
    memcmp mem s t (BitVec.ofNat 32 ds.length) = 0 ↔ ds <+: cs := by
  have htake : (cs.take ds.length).length = ds.length := by
    rw [List.length_take]
    omega
  have hcells : CellsAt mem s (cs.take ds.length) := by
    have hcs := (stringAt_iff.mp h).1
    rw [← List.take_append_drop ds.length cs] at hcs
    exact (cellsAt_append.mp hcs).1
  have hlen : (BitVec.ofNat 32 ds.length).toNat = (cs.take ds.length).length := by
    rw [BitVec.toNat_ofNat, htake]
    exact Nat.mod_eq_of_lt h'.length_lt
  rw [memcmp, hlen, (memcmpLoop_orders hcells (stringAt_iff.mp h').1 htake).zero,
    List.prefix_iff_eq_take]
  exact eq_comm

theorem sle_length (hcs : cs.length < 2 ^ 31) (hds : ds.length < 2 ^ 31) :
    (BitVec.ofNat 32 ds.length).sle (BitVec.ofNat 32 cs.length) = true ↔
      ds.length ≤ cs.length := by
  have hint : ∀ k, k < 2 ^ 31 → (BitVec.ofNat 32 k).toInt = k := by
    intro k hk
    have hnat : (BitVec.ofNat 32 k).toNat = k := by
      rw [BitVec.toNat_ofNat]
      exact Nat.mod_eq_of_lt (by omega)
    rw [BitVec.toInt_eq_toNat_of_lt (by omega), hnat]
  rw [BitVec.sle, decide_eq_true_iff, hint _ hcs, hint _ hds]
  omega

theorem strstrTurn_loop (h : StringAt mem s cs) (h' : StringAt mem t ds)
    (hcs : cs.length < 2 ^ 31) (hds : ds.length < 2 ^ 31) :
    ∃ p, loop (strstrTurn mem t (BitVec.ofNat 32 ds.length)) (cs.length + 1)
        (s, BitVec.ofNat 32 cs.length) = some p ∧
    ((∃ i, p = s + BitVec.ofNat 32 i ∧ ds <+: cs.drop i ∧ ∀ j < i, ¬ ds <+: cs.drop j) ∨
      p = 0 ∧ ∀ j, ¬ ds <+: cs.drop j) := by
  induction cs generalizing s with
  | nil =>
    by_cases hle : ds.length ≤ 0
    · have hnil : ds = [] := List.eq_nil_of_length_eq_zero (Nat.le_zero.mp hle)
      have hpre : ds <+: [] := hnil ▸ List.nil_prefix
      have hcmp := (memcmp_prefix_iff h h' hle).mpr hpre
      refine ⟨s, loop_leave ?_, Or.inl ⟨0, (add_ofNat_zero s).symm, hpre,
        fun j hj => absurd hj (Nat.not_lt_zero j)⟩⟩
      simp only [strstrTurn, (sle_length hcs hds).mpr hle, hcmp, if_true]
    · refine ⟨0, loop_leave ?_, Or.inr ⟨rfl, fun j hj => hle ?_⟩⟩
      · simp only [strstrTurn, mt (sle_length hcs hds).mp hle, if_false, Bool.false_eq_true]
      · rw [List.drop_nil] at hj
        exact hj.length_le
  | cons c cs ih =>
    by_cases hle : ds.length ≤ (c :: cs).length
    · have hsle := (sle_length hcs hds).mpr hle
      by_cases hpre : ds <+: c :: cs
      · refine ⟨s, loop_leave ?_, Or.inl ⟨0, (add_ofNat_zero s).symm, hpre,
          fun j hj => absurd hj (Nat.not_lt_zero j)⟩⟩
        simp only [strstrTurn, hsle, (memcmp_prefix_iff h h' hle).mpr hpre, if_true]
      · have hcmp := mt (memcmp_prefix_iff h h' hle).mp hpre
        have hpred : BitVec.ofNat 32 (c :: cs).length - 1 = BitVec.ofNat 32 cs.length := by
          rw [List.length_cons, BitVec.ofNat_add]
          exact BitVec.add_sub_cancel ..
        have hturn : strstrTurn mem t (BitVec.ofNat 32 ds.length)
            (s, BitVec.ofNat 32 (c :: cs).length) =
              .again (s + 1, BitVec.ofNat 32 cs.length) := by
          simp only [strstrTurn, hsle, hcmp, if_true, if_false, hpred]
        rw [List.length_cons] at hcs
        obtain ⟨p, hloop, hp⟩ := ih h.2.2 (by omega)
        refine ⟨p, (loop_again hturn).trans hloop, ?_⟩
        rcases hp with ⟨i, hpi, hi, hfirst⟩ | ⟨hp0, hnone⟩
        · refine Or.inl ⟨i + 1, by rw [hpi, add_ofNat_succ], hi, ?_⟩
          intro j hj
          cases j with
          | zero => exact hpre
          | succ j => exact hfirst j (by omega)
        · refine Or.inr ⟨hp0, ?_⟩
          intro j
          cases j with
          | zero => exact hpre
          | succ j => exact hnone j
    · refine ⟨0, loop_leave ?_, Or.inr ⟨rfl, fun j hj => hle ?_⟩⟩
      · simp only [strstrTurn, mt (sle_length hcs hds).mp hle, if_false, Bool.false_eq_true]
      · have hlen := hj.length_le
        rw [List.length_drop] at hlen
        omega

end Strstr

/-- `strchr` finds the first place of `c`, for `c = 0` the end of the string; `strrchr` finds the
last one and never the end. Both return 0 when there is none, and for a `c` that is no `char`; the
place they find is 0 only in a string that runs over the end of memory. -/
theorem strchr_places (h : StringAt mem s cs) (c : BitVec 32) :
    (∃ p, strchr mem s c = some p ∧
      ((∃ i, p = s + BitVec.ofNat 32 i ∧ CharIs c (cs ++ [0]) i ∧
          ∀ j < i, ¬ CharIs c (cs ++ [0]) j) ∨
        p = 0 ∧ ∀ j, ¬ CharIs c (cs ++ [0]) j)) ∧
    ∃ p, strrchr mem s c = some p ∧
      ((∃ i, p = s + BitVec.ofNat 32 i ∧ CharIs c cs i ∧ ∀ j > i, ¬ CharIs c cs j) ∨
        p = 0 ∧ ∀ j, ¬ CharIs c cs j) := by
  obtain ⟨p, hfirst, hp⟩ := strchrTurn_loop h (c := c)
  obtain ⟨q, hlast, hq⟩ := @strrchrTurn_loop mem s c cs 0 h
  exact ⟨⟨p, loop_mono hfirst h.length_lt, hp⟩, q, loop_mono hlast h.length_lt, hq⟩

/-- Both occurrences of a character. -/
theorem strchr_places_both : ∃ p, strchr (holding 0x100 [0x61, 0x62, 0x61]) 0x100 0x61 = some p ∧
    ((∃ i, p = 0x100 + BitVec.ofNat 32 i ∧ CharIs 0x61 [0x61, 0x62, 0x61, 0] i ∧
        ∀ j < i, ¬ CharIs 0x61 [0x61, 0x62, 0x61, 0] j) ∨
      p = 0 ∧ ∀ j, ¬ CharIs 0x61 [0x61, 0x62, 0x61, 0] j) :=
  (strchr_places (holding_stringAt (by decide) (by decide)) 0x61).1

/-- The three span functions agree on where the string leaves the set of characters, or first
meets it. -/
theorem spans_agree (h : StringAt mem s cs) (h' : StringAt mem t ds) :
    strspn mem s t = some (BitVec.ofNat 32 (cs.findIdx fun b => decide (b ∉ ds))) ∧
    strcspn mem s t = some (BitVec.ofNat 32 (cs.findIdx fun b => decide (b ∈ ds))) ∧
    strpbrk mem s t = some (if cs.findIdx (fun b => decide (b ∈ ds)) < cs.length then
      s + BitVec.ofNat 32 (cs.findIdx fun b => decide (b ∈ ds)) else 0) := by
  refine ⟨strspn_eq h h', ?_, strpbrk_eq h h'⟩
  rw [strcspn_eq h h', findIdx_span h]

/-- A string and its last character. -/
theorem spans_agree_last :
    strspn (holding 0x100 [0x31, 0x32, 0x61]) 0x100 0x102 = some 0 ∧
    strcspn (holding 0x100 [0x31, 0x32, 0x61]) 0x100 0x102 = some 2 ∧
    strpbrk (holding 0x100 [0x31, 0x32, 0x61]) 0x100 0x102 = some 0x102 := by
  have h : StringAt (holding 0x100 [0x31, 0x32, 0x61]) 0x100 [0x31, 0x32, 0x61] :=
    holding_stringAt (by decide) (by decide)
  exact spans_agree h h.2.2.2.2

/-- `strstr` finds the first place at which the needle starts, at once when it is empty, and returns
0 when there is none. -/
theorem strstr_first (h : StringAt mem s cs) (h' : StringAt mem t ds)
    (hcs : cs.length < 2 ^ 31) (hds : ds.length < 2 ^ 31) :
    ∃ p, strstr mem s t = some p ∧
    ((∃ i, p = s + BitVec.ofNat 32 i ∧ ds <+: cs.drop i ∧ ∀ j < i, ¬ ds <+: cs.drop j) ∨
      p = 0 ∧ ∀ j, ¬ ds <+: cs.drop j) := by
  obtain ⟨p, hloop, hp⟩ := strstrTurn_loop h h' hcs hds
  refine ⟨p, ?_, hp⟩
  rw [strstr, strlen_eq h, strlen_eq h']
  exact loop_mono hloop h.length_lt

/-- The end of a string as its own needle. -/
theorem strstr_first_suffix :
    ∃ p, strstr (holding 0x100 [0x61, 0x61, 0x62]) 0x100 0x101 = some p ∧
    ((∃ i, p = 0x100 + BitVec.ofNat 32 i ∧ [0x61, 0x62] <+: [(0x61 : BitVec 8), 0x61, 0x62].drop i ∧
        ∀ j < i, ¬ [0x61, 0x62] <+: [(0x61 : BitVec 8), 0x61, 0x62].drop j) ∨
      p = 0 ∧ ∀ j, ¬ [0x61, 0x62] <+: [(0x61 : BitVec 8), 0x61, 0x62].drop j) := by
  have h : StringAt (holding 0x100 [0x61, 0x61, 0x62]) 0x100 [0x61, 0x61, 0x62] :=
    holding_stringAt (by decide) (by decide)
  exact strstr_first h h.2.2 (by decide) (by decide)

end RtosKernel.Libc
