import RtosKernel.Libc.Stdio

namespace RtosKernel.Libc

open StringMemory

variable {mem mem' : Memory} {s buf len max size : BitVec 32} {fmt out : List (BitVec 8)}
  {args rest : List VaArg} {c : BitVec 8}

/-- How many of the characters `savechar` keeps. -/
def kept (max : BitVec 32) (out : List (BitVec 8)) : Nat :=
  if max = sprintfUnlimited then out.length else min out.length max.toNat

theorem savechar_full (hmax : max ≠ sprintfUnlimited) (h : len = max) :
    savechar ⟨mem, buf, len, max⟩ c = ⟨mem, buf, len, max⟩ :=
  if_pos ⟨hmax, h⟩

theorem savechar_room (h : max = sprintfUnlimited ∨ len ≠ max) : savechar ⟨mem, buf, len, max⟩ c =
    ⟨Function.update mem buf c, buf + 1, len + 1, max⟩ := by
  refine if_neg fun hfull => ?_
  rcases h with h | h
  · exact hfull.1 h
  · exact h hfull.2

theorem foldl_savechar_full (hmax : max ≠ sprintfUnlimited) :
    out.foldl savechar ⟨mem, buf, max, max⟩ = ⟨mem, buf, max, max⟩ := by
  induction out with
  | nil => rfl
  | cons c out ih => rw [List.foldl_cons, savechar_full hmax rfl, ih]

/-- The state after the characters of `out`, of which there is room for `k`. -/
def saved (mem : Memory) (buf len max : BitVec 32) (out : List (BitVec 8)) (k : Nat) :
    SprintfState :=
  ⟨put mem buf (out.take k), buf + BitVec.ofNat 32 k, len + BitVec.ofNat 32 k, max⟩

theorem foldl_savechar_unlimited :
    out.foldl savechar ⟨mem, buf, len, sprintfUnlimited⟩ =
      saved mem buf len sprintfUnlimited out out.length := by
  unfold saved
  rw [List.take_length]
  induction out generalizing mem buf len with
  | nil => simp [put]
  | cons c out ih =>
    rw [List.foldl_cons, savechar_room (Or.inl rfl), ih, List.length_cons, add_ofNat_succ,
      add_ofNat_succ, put]

theorem foldl_savechar_limited (hmax : max ≠ sprintfUnlimited) :
    out.foldl savechar ⟨mem, buf, len, max⟩ =
      saved mem buf len max out (min out.length (max - len).toNat) := by
  unfold saved
  induction out generalizing mem buf len with
  | nil => simp [put]
  | cons c out ih =>
    by_cases hfull : len = max
    · subst hfull
      rw [foldl_savechar_full hmax, BitVec.sub_self]
      simp [put]
    · have hroom : (max - len).toNat = (max - (len + 1)).toNat + 1 := by bv_omega
      rw [List.foldl_cons, savechar_room (Or.inr hfull), ih, hroom, List.length_cons,
        Nat.add_min_add_right, List.take_succ_cons, add_ofNat_succ, add_ofNat_succ, put]

theorem saveAll_eq (h : doprnt mem fmt args 0 = .ok (out, rest)) :
    saveAll mem s max fmt args =
      .ok (put mem s (out.take (kept max out) ++ [0]), BitVec.ofNat 32 (kept max out)) := by
  have hfold : out.foldl savechar ⟨mem, s, 0, max⟩ = saved mem s 0 max out (kept max out) := by
    unfold kept
    split_ifs with hmax
    · rw [hmax]
      exact foldl_savechar_unlimited
    · have hzero : max - 0 = max := by bv_omega
      rw [foldl_savechar_limited hmax, hzero]
  have hlen : (out.take (kept max out)).length = kept max out := by
    rw [List.length_take]
    unfold kept
    split_ifs <;> omega
  have hcount : 0 + BitVec.ofNat 32 (kept max out) = BitVec.ofNat 32 (kept max out) :=
    BitVec.zero_add _
  simp only [saveAll, h, bind, Except.bind, hfold, saved, put_append, hlen, hcount]
  rfl

/-- `vsnprintf` keeps the first `size` characters and puts its zero behind them, so that text which
is cut takes `size + 1` bytes; it returns how many characters it has kept. With room for all of them
it is `vsprintf`. The strings that are printed must not overlap the destination. -/
theorem vsnprintf_writes (h : doprnt mem fmt args 0 = .ok (out, rest)) (hsize : size ≠ -1) :
    (∃ mem', vsnprintf mem s size fmt args =
        .ok (mem', BitVec.ofNat 32 (min out.length size.toNat)) ∧
      CellsAt mem' s (out.take size.toNat ++ [0]) ∧
      ∀ a, ¬ Within s (min out.length size.toNat + 1) a → mem' a = mem a) ∧
    (out.length ≤ size.toNat → vsnprintf mem s size fmt args = vsprintf mem s fmt args) := by
  have hlt : size.toNat + 1 < 2 ^ 32 := by bv_omega
  have hkept : kept size out = min out.length size.toNat := if_neg hsize
  have htake : out.take (min out.length size.toNat) = out.take size.toNat := by
    rw [List.take_eq_take_iff]
    omega
  have hlen : (out.take size.toNat ++ [0]).length = min out.length size.toNat + 1 := by
    rw [List.length_append, List.length_take, Nat.min_comm]
    rfl
  constructor
  · refine ⟨put mem s (out.take size.toNat ++ [0]), ?_, put_cellsAt (by omega), fun a ha => ?_⟩
    · rw [vsnprintf, saveAll_eq h, hkept, htake]
    · exact put_outside (by rwa [hlen])
  · intro hle
    have hall : kept sprintfUnlimited out = out.length := if_pos rfl
    rw [vsnprintf, vsprintf, saveAll_eq h, saveAll_eq h, hkept, hall, Nat.min_eq_left hle]

/-- Three characters in a buffer of two take three bytes. -/
theorem vsnprintf_writes_cut : ∃ mem', vsnprintf (fun _ => 1) 0x100 2 [0x61, 0x62, 0x63] [] =
    .ok (mem', 2) ∧ CellsAt mem' 0x100 [0x61, 0x62, 0] ∧
      ∀ a, ¬ Within 0x100 3 a → mem' a = 1 := by
  have h : doprnt (fun _ => 1) [0x61, 0x62, 0x63] [] 0 = .ok ([0x61, 0x62, 0x63], []) := by
    decide +kernel
  exact (vsnprintf_writes h (by decide)).1

end RtosKernel.Libc
