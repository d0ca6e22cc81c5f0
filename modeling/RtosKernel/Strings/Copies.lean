import Mathlib.Tactic.SplitIfs
import RtosKernel.Strings.Scan

namespace RtosKernel.Libc

open Rounds StringMemory

variable {mem : Memory} {dest src s add n count : BitVec 32} {c : BitVec 8}
  {cs ds : List (BitVec 8)} {i k : Nat}

/-- The bytes from `src` on can be copied up to index `k` without being overwritten: `dest` is not
among the `k` bytes behind `src`. -/
def Apart (dest src : BitVec 32) (k : Nat) : Prop :=
  (dest - src).toNat = 0 ∨ k < (dest - src).toNat

instance : Decidable (Apart dest src k) := inferInstanceAs (Decidable (_ ∨ _))

theorem Apart.mono (h : Apart dest src k) (hi : i ≤ k) : Apart dest src i :=
  h.imp id fun hlt => Nat.lt_of_le_of_lt hi hlt

/-- A byte is read before the copy gets to it. -/
theorem Apart.not_within (h : Apart dest src k) (hk : k < 2 ^ 32) :
    ¬ Within dest k (src + BitVec.ofNat 32 k) := by
  unfold Within
  have hofNat : (BitVec.ofNat 32 k).toNat = k := by
    rw [BitVec.toNat_ofNat]
    exact Nat.mod_eq_of_lt hk
  have hdist : (dest - src).toNat = 0 ∨ k < (dest - src).toNat := h
  bv_omega

/-- What a copy reads at `k` is what lay there before it. -/
theorem Apart.read (h : Apart dest src k) (hcells : CellsAt mem src cs) (hk : k < cs.length)
    (hlt : k < 2 ^ 32) : put mem dest (cs.take k) (src + BitVec.ofNat 32 k) = cs[k] := by
  rw [← cellsAt_iff.mp hcells k hk]
  apply put_outside
  rw [List.length_take, Nat.min_eq_left (Nat.le_of_lt hk)]
  exact h.not_within hlt

/-- The characters before the zero are not zero. -/
theorem StringAt.full_ne_zero (h : StringAt mem src ds) (hk : k < ds.length)
    (hk' : k < (ds ++ [0]).length) : (ds ++ [0])[k] ≠ 0 := by
  rw [List.getElem_append_left hk]
  exact (stringAt_iff.mp h).2.1 _ (List.getElem_mem hk)

section Strcpy

theorem copyTurn_again (hc : mem src = c) (hne : c ≠ 0) :
    copyTurn (mem, dest, src) = .again (Function.update mem dest c, dest + 1, src + 1) := by
  simp only [copyTurn, hc, ne_eq, hne, not_false_eq_true, if_true]

theorem copyTurn_leave (hc : mem src = 0) :
    copyTurn (mem, dest, src) = .leave (Function.update mem dest 0) := by
  simp only [copyTurn, hc, ne_eq, not_true_eq_false, if_false]

/-- The string is copied with its zero, if the copy does not run into it. -/
theorem copyTurn_loop (h : StringAt mem src cs) (hap : Apart dest src cs.length) :
    loop copyTurn rounds (mem, dest, src) = some (put mem dest (cs ++ [0])) := by
  have hlt := h.length_lt
  have hfull : (cs ++ [0]).length = cs.length + 1 := List.length_append
  let f : Nat → Memory × BitVec 32 × BitVec 32 := fun k =>
    (put mem dest ((cs ++ [0]).take k), dest + BitVec.ofNat 32 k, src + BitVec.ofNat 32 k)
  have hagain : ∀ k < cs.length, copyTurn (f k) = .again (f (k + 1)) := by
    intro k hk
    have hread := (hap.mono (Nat.le_of_lt hk)).read h.cells (by omega) (by omega)
    have hchar := StringAt.full_ne_zero h hk (by omega)
    show copyTurn (_, _, _) = .again (_, _, _)
    rw [copyTurn_again hread hchar, put_take_succ, add_ofNat_one, add_ofNat_one]
  have hleave : copyTurn (f cs.length) = .leave (put mem dest (cs ++ [0])) := by
    have hread := hap.read h.cells (k := cs.length) (by omega) (by omega)
    have hzero : (cs ++ [0])[cs.length] = 0 := List.getElem_concat_length rfl _
    have hput := @put_take_succ _ _ mem dest (cs ++ [0]) cs.length (by omega)
    rw [hzero] at hread hput
    rw [List.take_of_length_le (Nat.le_of_eq hfull)] at hput
    show copyTurn (_, _, _) = _
    rw [copyTurn_leave hread, hput]
  have hloop := loop_path hagain hleave
  have hstart : f 0 = (mem, dest, src) := by
    show (put mem dest [], dest + BitVec.ofNat 32 0, src + BitVec.ofNat 32 0) = _
    rw [add_ofNat_zero, add_ofNat_zero]
    rfl
  rw [hstart] at hloop
  exact loop_mono hloop hlt

/-- A copy into the string itself keeps finding characters: it has always just written the ones it
reads next. -/
theorem copyTurn_never (h : StringAt mem src cs) (hap : ¬ Apart dest src cs.length) (fuel : Nat) :
    loop copyTurn fuel (mem, dest, src) = none := by
  obtain ⟨hpos, hle⟩ := not_or.mp hap
  have hle' := Nat.not_lt.mp hle
  apply loop_none (P := fun st => st.2.1 - st.2.2 = dest - src ∧
    ∀ k < (dest - src).toNat, st.1 (st.2.2 + BitVec.ofNat 32 k) ≠ 0)
  · exact ⟨rfl, fun k hk => h.ne_zero (by omega)⟩
  · rintro ⟨m, d, s⟩ ⟨hdist, hne⟩
    have hs : m s ≠ 0 := by
      have h0 := hne 0 (by omega)
      rw [add_ofNat_zero] at h0
      exact h0
    refine ⟨_, copyTurn_again rfl hs, ?_, ?_⟩
    · show d + 1 - (s + 1) = dest - src
      bv_omega
    · intro k hk
      show Function.update m d (m s) (s + 1 + BitVec.ofNat 32 k) ≠ 0
      rw [add_ofNat_succ, Function.update_apply]
      split_ifs with heq
      · exact hs
      · apply hne
        -- the last byte of the stretch is the one just written
        have hlast : s + BitVec.ofNat 32 (dest - src).toNat = d := by
          show s + BitVec.ofNat 32 (dest - src).toNat = d
          rw [← hdist, add_distance]
        have hkne : k + 1 ≠ (dest - src).toNat := by
          intro hk'
          rw [hk'] at heq
          exact heq hlast
        omega

end Strcpy

/-- The loops with a count after `k` turns on a string `ds`. -/
def stage (mem : Memory) (dest src n : BitVec 32) (ds : List (BitVec 8)) (k : Nat) :
    Memory × BitVec 32 × BitVec 32 × BitVec 32 :=
  (put mem dest ((ds ++ [0]).take k), dest + BitVec.ofNat 32 k, src + BitVec.ofNat 32 k,
    n - BitVec.ofNat 32 k)

theorem stage_zero : stage mem dest src n ds 0 = (mem, dest, src, n) := by
  have hn : n - BitVec.ofNat 32 0 = n := by bv_omega
  unfold stage
  rw [add_ofNat_zero, add_ofNat_zero, hn]
  rfl

theorem count_succ (n : BitVec 32) (k : Nat) :
    n - BitVec.ofNat 32 k - 1 = n - BitVec.ofNat 32 (k + 1) := by
  rw [BitVec.ofNat_add]
  bv_omega

section Strncat

theorem strncatTurn_again (hc : mem s = c) (hne : c ≠ 0) (hn : n - 1 ≠ 0) :
    strncatTurn (mem, dest, s, n) =
      .again (Function.update mem dest c, dest + 1, s + 1, n - 1) := by
  simp only [strncatTurn, hc, hne, if_false, ne_eq, hn, not_false_eq_true, if_true]

theorem strncatTurn_zero (hc : mem s = 0) :
    strncatTurn (mem, dest, s, n) = .leave (Function.update mem dest 0, dest) := by
  simp only [strncatTurn, hc, if_true]

theorem strncatTurn_last (hc : mem s = c) (hne : c ≠ 0) (hn : n - 1 = 0) :
    strncatTurn (mem, dest, s, n) = .leave (Function.update mem dest c, dest + 1) := by
  simp only [strncatTurn, hc, hne, if_false, ne_eq, hn, not_true_eq_false]

theorem strncatTurn_stage (h : StringAt mem src ds)
    (hap : Apart dest src (min ds.length (n.toNat - 1))) (hk : k < ds.length)
    (hkn : k + 1 < n.toNat) :
    strncatTurn (stage mem dest src n ds k) = .again (stage mem dest src n ds (k + 1)) := by
  have hlt := h.length_lt
  have hfull : (ds ++ [0]).length = ds.length + 1 := List.length_append
  have hread := (hap.mono (i := k) (by omega)).read h.cells (by omega) (by omega)
  have hne := StringAt.full_ne_zero h hk (by omega)
  have hleft : n - BitVec.ofNat 32 k - 1 ≠ 0 := by
    rw [count_succ]
    bv_omega
  unfold stage
  rw [strncatTurn_again hread hne hleft, put_take_succ, add_ofNat_one, add_ofNat_one, count_succ]

/-- At most `n` characters are copied, and a zero goes behind them. -/
theorem strncatTurn_loop (h : StringAt mem src ds) (hn : n ≠ 0)
    (hap : Apart dest src (min ds.length (n.toNat - 1))) :
    ∃ st, loop strncatTurn rounds (mem, dest, src, n) = some st ∧
      Function.update st.1 st.2 0 = put mem dest (ds.take n.toNat ++ [0]) := by
  have hlt := h.length_lt
  have hn' : 0 < n.toNat := by bv_omega
  have hfull : (ds ++ [0]).length = ds.length + 1 := List.length_append
  rw [← @stage_zero mem dest src n ds]
  rcases Nat.lt_or_ge ds.length n.toNat with hshort | hlong
  · -- the zero of `src` comes first
    have hread := (hap.mono (i := ds.length) (by omega)).read h.cells (k := ds.length)
      (by omega) (by omega)
    have hzero : (ds ++ [0])[ds.length] = 0 := List.getElem_concat_length rfl _
    have hput := @put_take_succ _ _ mem dest (ds ++ [0]) ds.length (by omega)
    rw [hzero] at hread hput
    rw [List.take_of_length_le (Nat.le_of_eq hfull)] at hput
    have hleave : strncatTurn (stage mem dest src n ds ds.length) =
        .leave (put mem dest (ds ++ [0]), dest + BitVec.ofNat 32 ds.length) := by
      unfold stage
      rw [strncatTurn_zero hread, hput]
    have hagain : ∀ k < ds.length, strncatTurn (stage mem dest src n ds k) =
        .again (stage mem dest src n ds (k + 1)) :=
      fun k hk => strncatTurn_stage h hap hk (by omega)
    have hloop := loop_path hagain hleave
    refine ⟨_, loop_mono hloop hlt, ?_⟩
    show Function.update (put mem dest (ds ++ [0])) (dest + BitVec.ofNat 32 ds.length) 0 = _
    rw [List.take_of_length_le (Nat.le_of_lt hshort), ← hput]
    exact Function.update_idem ..
  · -- the count runs out first
    have hidx : n.toNat - 1 < ds.length := by omega
    have hread := (hap.mono (i := n.toNat - 1) (by omega)).read h.cells (by omega) (by omega)
    have hput := @put_take_succ _ _ mem dest (ds ++ [0]) (n.toNat - 1) (by omega)
    have hsucc : n.toNat - 1 + 1 = n.toNat := by omega
    have hleft : n - BitVec.ofNat 32 (n.toNat - 1) - 1 = 0 := by
      rw [count_succ, hsucc, BitVec.ofNat_toNat, BitVec.setWidth_eq, BitVec.sub_self]
      rfl
    have hleave : strncatTurn (stage mem dest src n ds (n.toNat - 1)) =
        .leave (put mem dest (ds.take n.toNat), dest + BitVec.ofNat 32 n.toNat) := by
      unfold stage
      rw [strncatTurn_last hread (StringAt.full_ne_zero h hidx _) hleft, hput, add_ofNat_one, hsucc,
        List.take_append_of_le_length hlong]
    have hagain : ∀ k < n.toNat - 1, strncatTurn (stage mem dest src n ds k) =
        .again (stage mem dest src n ds (k + 1)) :=
      fun k hk => strncatTurn_stage h hap (by omega) (by omega)
    have hloop := loop_path hagain hleave
    have hcount := n.isLt
    refine ⟨_, loop_mono hloop (by show n.toNat - 1 + 1 ≤ 2 ^ 32; omega), ?_⟩
    show Function.update (put mem dest (ds.take n.toNat)) (dest + BitVec.ofNat 32 n.toNat) 0 = _
    rw [put_append, List.length_take, Nat.min_eq_left hlong]
    rfl

end Strncat

section Strncpy

theorem fill_eq : fill c k mem dest = put mem dest (List.replicate k c) := by
  induction k generalizing mem dest with
  | zero => rfl
  | succ k ih => exact ih

theorem strncpyTurn_again (hcount : 0 < n) (hc : mem src = c) (hne : c ≠ 0) :
    strncpyTurn (mem, dest, src, n) =
      .again (Function.update mem dest c, dest + 1, src + 1, n - 1) := by
  simp only [strncpyTurn, gt_iff_lt, hcount, if_true, hc, ne_eq, hne, not_false_eq_true]

theorem strncpyTurn_zero (hcount : 0 < n) (hc : mem src = 0) :
    strncpyTurn (mem, dest, src, n) =
      .leave (Function.update mem dest 0, dest + 1, n - 1) := by
  simp only [strncpyTurn, gt_iff_lt, hcount, if_true, hc, ne_eq, not_true_eq_false, if_false]

/-- The test that ends the loop with no count left takes it below zero. -/
theorem strncpyTurn_out : strncpyTurn (mem, dest, src, 0) = .leave (mem, dest, 0xffffffff) := rfl

theorem strncpyTurn_stage (h : StringAt mem src cs) (hap : Apart dest src k)
    (hk : k < cs.length) (hkn : k < n.toNat) :
    strncpyTurn (stage mem dest src n cs k) = .again (stage mem dest src n cs (k + 1)) := by
  have hlt := h.length_lt
  have hfull : (cs ++ [0]).length = cs.length + 1 := List.length_append
  have hread := hap.read h.cells (by omega) (by omega)
  have hne := StringAt.full_ne_zero h hk (by omega)
  have hleft : 0 < n - BitVec.ofNat 32 k := by bv_omega
  unfold stage
  rw [strncpyTurn_again hleft hread hne, put_take_succ, add_ofNat_one, add_ofNat_one, count_succ]

/-- With the zero among the first `n` characters, the rest of the `n` is filled with zeros. -/
theorem strncpy_fits (h : StringAt mem src cs) (hn : cs.length < n.toNat)
    (hap : Apart dest src cs.length) :
    strncpy mem dest src n =
      some (put mem dest (cs ++ List.replicate (n.toNat - cs.length) 0), dest) := by
  have hlt := h.length_lt
  have hfull : (cs ++ [0]).length = cs.length + 1 := List.length_append
  have hread := hap.read h.cells (k := cs.length) (by omega) (by omega)
  have hzero : (cs ++ [0])[cs.length] = 0 := List.getElem_concat_length rfl _
  have hput := @put_take_succ _ _ mem dest (cs ++ [0]) cs.length (by omega)
  have hleft : 0 < n - BitVec.ofNat 32 cs.length := by bv_omega
  rw [hzero] at hread hput
  rw [List.take_of_length_le (Nat.le_of_eq hfull)] at hput
  have hleave : strncpyTurn (stage mem dest src n cs cs.length) =
      .leave (put mem dest (cs ++ [0]), dest + BitVec.ofNat 32 (cs.length + 1),
        n - BitVec.ofNat 32 (cs.length + 1)) := by
    unfold stage
    rw [strncpyTurn_zero hleft hread, hput, add_ofNat_one, count_succ]
  have hagain : ∀ k < cs.length, strncpyTurn (stage mem dest src n cs k) =
      .again (stage mem dest src n cs (k + 1)) :=
    fun k hk => strncpyTurn_stage h (hap.mono (Nat.le_of_lt hk)) hk (by omega)
  have hloop := loop_path hagain hleave
  rw [stage_zero] at hloop
  have hrest : (n - BitVec.ofNat 32 (cs.length + 1)).toNat = n.toNat - (cs.length + 1) := by
    have hcount := n.isLt
    bv_omega
  have hsplit : List.replicate (n.toNat - cs.length) (0 : BitVec 8) =
      [0] ++ List.replicate (n.toNat - (cs.length + 1)) 0 := by
    have hsucc : n.toNat - cs.length = n.toNat - (cs.length + 1) + 1 := by omega
    rw [hsucc, List.replicate_succ]
    rfl
  rw [strncpy, loop_mono hloop hlt, Option.map_some]
  simp only [hrest, fill_eq]
  rw [hsplit, ← List.append_assoc, @put_append _ _ _ _ (cs ++ [0]), hfull]

/-- Without it the second loop goes on through the whole address space. -/
theorem strncpy_short (h : StringAt mem src cs) (hn : n.toNat ≤ cs.length)
    (hap : Apart dest src (n.toNat - 1)) :
    strncpy mem dest src n = some (put (put mem dest (cs.take n.toNat))
      (dest + n) (List.replicate (2 ^ 32 - 1) 0), dest) := by
  have hcount := n.isLt
  have hself : BitVec.ofNat 32 n.toNat = n := Memory.ofNat_index n
  have hleave : strncpyTurn (stage mem dest src n cs n.toNat) =
      .leave (put mem dest (cs.take n.toNat), dest + n, 0xffffffff) := by
    unfold stage
    rw [hself, BitVec.sub_self, List.take_append_of_le_length hn]
    exact strncpyTurn_out
  have hagain : ∀ k < n.toNat, strncpyTurn (stage mem dest src n cs k) =
      .again (stage mem dest src n cs (k + 1)) :=
    fun k hk => strncpyTurn_stage h (hap.mono (by omega)) (by omega) hk
  have hloop := loop_path hagain hleave
  rw [stage_zero] at hloop
  have hrounds : n.toNat + 1 ≤ rounds := hcount
  have hwrapped : (0xffffffff : BitVec 32).toNat = 2 ^ 32 - 1 := by decide
  rw [strncpy, loop_mono hloop hrounds, Option.map_some]
  simp only [fill_eq]
  rw [hwrapped]

end Strncpy

/-- `mem'` is `mem` with the string `cs ++ ds` at `s`, of which only `ds` and the zero behind it
have been written. -/
structure Appended (mem mem' : Memory) (s : BitVec 32) (cs ds : List (BitVec 8)) : Prop where
  string : StringAt mem' s (cs ++ ds)
  outside : ∀ a, ¬ Within (s + BitVec.ofNat 32 cs.length) (ds.length + 1) a → mem' a = mem a

theorem Appended.of_put (h : StringAt mem s cs) (hne : ∀ d ∈ ds, d ≠ 0)
    (hlen : cs.length + ds.length < 2 ^ 32) :
    Appended mem (put mem (s + BitVec.ofNat 32 cs.length) (ds ++ [0])) s cs ds where
  string := by
    have hcells := (stringAt_iff.mp h).1
    refine stringAt_append.mpr ⟨hcells.congr fun k hk => ?_, (stringAt_iff.mp h).2.1,
      put_stringAt (by omega) hne⟩
    apply put_outside
    rw [List.length_append, List.length_singleton]
    unfold Within
    have hofNat : (BitVec.ofNat 32 cs.length).toNat = cs.length := by
      rw [BitVec.toNat_ofNat]
      exact Nat.mod_eq_of_lt (by omega)
    have hk' : (BitVec.ofNat 32 k).toNat = k := by
      rw [BitVec.toNat_ofNat]
      exact Nat.mod_eq_of_lt (by omega)
    bv_omega
  outside a ha := by
    apply put_outside
    rw [List.length_append]
    exact ha

/-- `strcpy` copies the string unless `dest` lies inside it; then it never ends. -/
theorem strcpy_ends (h : StringAt mem src cs) :
    (Apart dest src cs.length → ∃ mem', strcpy mem dest src = some (mem', dest) ∧
      StringAt mem' dest cs ∧ ∀ a, ¬ Within dest (cs.length + 1) a → mem' a = mem a) ∧
    (¬ Apart dest src cs.length → ∀ fuel, loop copyTurn fuel (mem, dest, src) = none) := by
  refine ⟨fun hap => ⟨put mem dest (cs ++ [0]), ?_, ?_, fun a ha => ?_⟩,
    fun hap fuel => copyTurn_never h hap fuel⟩
  · rw [strcpy, copyTurn_loop h hap]
    rfl
  · exact put_stringAt h.length_lt (stringAt_iff.mp h).2.1
  · apply put_outside
    rw [List.length_append]
    exact ha

/-- A copy to the third character of its own string does not end. -/
theorem strcpy_ends_inside :
    StringAt (holding 0x100 [0x61, 0x62, 0x63]) 0x100 [0x61, 0x62, 0x63] ∧
    ∀ fuel, loop copyTurn fuel (holding 0x100 [0x61, 0x62, 0x63], 0x102, 0x100) = none :=
  ⟨holding_stringAt (by decide) (by decide),
    (strcpy_ends (holding_stringAt (by decide) (by decide))).2 (by decide)⟩

/-- `strcat` puts the second string behind the first, unless the end of the first lies inside the
second; then it never ends. -/
theorem strcat_appends (h : StringAt mem s cs) (hadd : StringAt mem add ds)
    (hlen : cs.length + ds.length < 2 ^ 32) :
    (Apart (s + BitVec.ofNat 32 cs.length) add ds.length →
      ∃ mem', strcat mem s add = some (mem', s) ∧ Appended mem mem' s cs ds) ∧
    (¬ Apart (s + BitVec.ofNat 32 cs.length) add ds.length → strcat mem s add = none) := by
  have hne := (stringAt_iff.mp hadd).2.1
  constructor
  · intro hap
    refine ⟨put mem (s + BitVec.ofNat 32 cs.length) (ds ++ [0]), ?_, Appended.of_put h hne hlen⟩
    rw [strcat, endTurn_loop h]
    show Option.map _ (loop copyTurn rounds (mem, s + BitVec.ofNat 32 cs.length, add)) = _
    rw [copyTurn_loop hadd hap]
    rfl
  · intro hap
    rw [strcat, endTurn_loop h]
    show Option.map _ (loop copyTurn rounds (mem, s + BitVec.ofNat 32 cs.length, add)) = _
    rw [copyTurn_never hadd hap]
    rfl

/-- A string appended to itself, and a short one appended to another. -/
theorem strcat_appends_both :
    strcat (holding 0x100 [0x61, 0x62]) 0x100 0x100 = none ∧
    ∃ mem', strcat (holding 0x100 [0x61, 0x62]) 0x100 0x101 = none ∧
      strcat (holding 0x100 [0x61, 0x62]) 0x100 0x102 = some (mem', 0x100) ∧
      Appended (holding 0x100 [0x61, 0x62]) mem' 0x100 [0x61, 0x62] [] := by
  have h : StringAt (holding 0x100 [0x61, 0x62]) 0x100 [0x61, 0x62] :=
    holding_stringAt (by decide) (by decide)
  have hend : StringAt (holding 0x100 [0x61, 0x62]) 0x102 [] := rfl
  obtain ⟨mem', hcall, happ⟩ := (strcat_appends h hend (by decide)).1 (by decide)
  exact ⟨(strcat_appends h h (by decide)).2 (by decide), mem',
    (strcat_appends h h.2.2 (by decide)).2 (by decide), hcall, happ⟩

/-- `strncat` appends at most `n` characters and always a zero, if it does not write what it has
yet to read. -/
theorem strncat_appends (h : StringAt mem s cs) (hadd : StringAt mem add ds)
    (hlen : cs.length + ds.length < 2 ^ 32)
    (hap : Apart (s + BitVec.ofNat 32 cs.length) add (min ds.length (n.toNat - 1))) :
    ∃ mem', strncat mem s add n = some (mem', s) ∧ (n = 0 → mem' = mem) ∧
      Appended mem mem' s cs (ds.take n.toNat) := by
  have hne : ∀ d ∈ ds.take n.toNat, d ≠ 0 :=
    fun d hd => (stringAt_iff.mp hadd).2.1 d (List.mem_of_mem_take hd)
  have hlen' : cs.length + (ds.take n.toNat).length < 2 ^ 32 := by
    rw [List.length_take]
    omega
  unfold strncat
  split_ifs with hn
  · obtain ⟨st, hloop, hput⟩ := strncatTurn_loop hadd hn hap
    refine ⟨Function.update st.1 st.2 0, ?_, fun h0 => absurd h0 hn, ?_⟩
    · rw [endTurn_loop h]
      show Option.map _ (loop strncatTurn rounds (mem, s + BitVec.ofNat 32 cs.length, add, n)) = _
      rw [hloop]
      rfl
    · rw [hput]
      exact Appended.of_put h hne hlen'
  · have hzero : n = 0 := not_not.mp hn
    subst hzero
    refine ⟨mem, rfl, fun _ => rfl, ?_, fun a _ => rfl⟩
    show StringAt mem s (cs ++ [])
    rw [List.append_nil]
    exact h

/-- Two of the three characters of a string appended to it. -/
theorem strncat_appends_two : ∃ mem', strncat (holding 0x100 [0x61, 0x62, 0x63]) 0x103 0x100 2 =
    some (mem', 0x103) ∧ (2 = (0 : BitVec 32) → mem' = holding 0x100 [0x61, 0x62, 0x63]) ∧
    Appended (holding 0x100 [0x61, 0x62, 0x63]) mem' 0x103 [] [0x61, 0x62] := by
  have h : StringAt (holding 0x100 [0x61, 0x62, 0x63]) 0x100 [0x61, 0x62, 0x63] :=
    holding_stringAt (by decide) (by decide)
  have hend : StringAt (holding 0x100 [0x61, 0x62, 0x63]) 0x103 [] := h.2.2.2.2.2.2
  exact strncat_appends hend h (by decide) (by decide)

/-- `strncpy`, if it does not write what it has yet to read, copies the string and fills up with
zeros when its zero is among the first `n` characters. When it is not, every byte of memory becomes
zero except the one before the end of the buffer. -/
theorem strncpy_outcome (h : StringAt mem src cs)
    (hap : Apart dest src (min cs.length (n.toNat - 1))) :
    ∃ mem', strncpy mem dest src n = some (mem', dest) ∧
      (cs.length < n.toNat → StringAt mem' dest cs ∧
        (∀ k, cs.length ≤ k → k < n.toNat → mem' (dest + BitVec.ofNat 32 k) = 0) ∧
        ∀ a, ¬ Within dest n.toNat a → mem' a = mem a) ∧
      (n.toNat ≤ cs.length →
        (∀ a, a ≠ dest + n - 1 → mem' a = 0) ∧
        mem' (dest + n - 1) = put mem dest (cs.take n.toNat) (dest + n - 1)) := by
  have hn := n.isLt
  rcases Nat.lt_or_ge cs.length n.toNat with hfits | hshort
  · rw [show min cs.length (n.toNat - 1) = cs.length by omega] at hap
    refine ⟨_, strncpy_fits h hfits hap, fun _ => ?_, fun hle => absurd hle (by omega)⟩
    have hlen : (cs ++ List.replicate (n.toNat - cs.length) (0 : BitVec 8)).length = n.toNat := by
      rw [List.length_append, List.length_replicate]
      omega
    have hcells : CellsAt (put mem dest (cs ++ List.replicate (n.toNat - cs.length) 0)) dest
        (cs ++ List.replicate (n.toNat - cs.length) 0) := put_cellsAt (by omega)
    have hzeros : ∀ k, cs.length ≤ k → k < n.toNat →
        put mem dest (cs ++ List.replicate (n.toNat - cs.length) 0) (dest + BitVec.ofNat 32 k) =
          0 := by
      intro k hk hkn
      rw [put_index (by omega) (by omega), List.getElem_append_right hk, List.getElem_replicate]
    refine ⟨stringAt_iff.mpr ⟨(cellsAt_append.mp hcells).1, (stringAt_iff.mp h).2.1,
      hzeros cs.length (Nat.le_refl _) hfits⟩, hzeros, fun a ha => ?_⟩
    apply put_outside
    rw [hlen]
    exact ha
  · rw [show min cs.length (n.toNat - 1) = n.toNat - 1 by omega] at hap
    refine ⟨_, strncpy_short h hshort hap, fun hlt => absurd hlt (by omega), fun _ => ⟨?_, ?_⟩⟩
    · intro a ha
      have hin : (a - (dest + n)).toNat < 2 ^ 32 - 1 := by bv_omega
      have hrep : (List.replicate (2 ^ 32 - 1) (0 : BitVec 8)).length = 2 ^ 32 - 1 :=
        List.length_replicate
      rw [put_apply (by rw [hrep]; omega) (by rw [hrep]; exact hin), List.getElem_replicate]
    · apply put_outside
      rw [List.length_replicate]
      unfold Within
      bv_omega

/-- Two characters of three: the copy has no zero of its own. -/
theorem strncpy_outcome_short : ∃ mem',
    strncpy (holding 0x100 [0x61, 0x62, 0x63]) 0x200 0x100 2 = some (mem', 0x200) ∧
    (∀ a, a ≠ 0x201 → mem' a = 0) ∧ mem' 0x201 = 0x62 := by
  have h : StringAt (holding 0x100 [0x61, 0x62, 0x63]) 0x100 [0x61, 0x62, 0x63] :=
    holding_stringAt (by decide) (by decide)
  have hap : Apart 0x200 0x100 (min 3 ((2 : BitVec 32).toNat - 1)) := by decide
  obtain ⟨mem', hcall, -, hshort⟩ := strncpy_outcome h hap
  obtain ⟨hzero, hlast⟩ := hshort (by decide)
  exact ⟨mem', hcall, hzero, hlast⟩

end RtosKernel.Libc
