import Mathlib.Algebra.BigOperators.Fin
import Mathlib.Data.Multiset.Basic
import Mathlib.Logic.Equiv.Basic
import Mathlib.Tactic.SplitIfs

/-! Bubble sort in place, without an end of the array in sight: a pass over `n` pairs of
neighbours touches positions `0` to `n`. -/

namespace BubbleSort

variable {α β : Type} (key : α → β)

/-- `a` is `a₀` rearranged by `σ` on the positions up to `n`, equal keys in the same order. -/
structure Arranged (n : Nat) (a₀ a : Nat → α) (σ : Equiv.Perm Nat) : Prop where
  eq : ∀ i, a i = a₀ (σ i)
  fixed : ∀ i, n < i → σ i = i
  stable : ∀ i j, i < j → key (a i) = key (a j) → σ i < σ j

variable {key} {n k m j : Nat} {a a₀ : Nat → α} {σ : Equiv.Perm Nat}

theorem arranged_refl (n : Nat) (a : Nat → α) : Arranged key n a a (Equiv.refl Nat) where
  eq := fun _ => rfl
  fixed := fun _ _ => rfl
  stable := fun _ _ hij _ => hij

theorem Arranged.le (h : Arranged key n a₀ a σ) {i : Nat} (hi : i ≤ n) : σ i ≤ n := by
  by_contra hgt
  have hfix := σ.injective (h.fixed (σ i) (by omega))
  omega

/-- With the last position in place the others are rearranged among themselves. -/
theorem Arranged.restrict (h : Arranged key n a₀ a σ) (hn : σ n = n) :
    ∃ τ : Equiv.Perm (Fin n), ∀ i : Fin n, (τ i : Nat) = σ i := by
  have hlt : ∀ i : Fin n, σ i < n := by
    intro i
    have hle := h.le (Nat.le_of_lt i.isLt)
    have hne : σ i ≠ n := fun hb => by
      have hin := σ.injective (hb.trans hn.symm)
      omega
    omega
  have hinj : Function.Injective fun i : Fin n => (⟨σ i, hlt i⟩ : Fin n) := by
    intro i l hil
    exact Fin.ext (σ.injective (Fin.mk.inj hil))
  exact ⟨Equiv.ofBijective _ (Finite.injective_iff_bijective.mp hinj), fun i => rfl⟩

/-- If the others are rearranged among themselves the last position has kept its value. -/
theorem Arranged.last_eq (h : Arranged key n a₀ a σ) {τ : Equiv.Perm (Fin n)}
    (hτ : ∀ i : Fin n, a i = a₀ (τ i)) : a n = a₀ n := by
  have hall : ∑ i ∈ Finset.range (n + 1), ({a i} : Multiset α) =
      ∑ i ∈ Finset.range (n + 1), {a₀ i} := by
    refine Finset.sum_equiv σ (fun i => ?_) (fun i _ => by rw [h.eq])
    rw [Finset.mem_range, Finset.mem_range]
    refine ⟨fun hi => by have := h.le (Nat.le_of_lt_succ hi); omega, fun hi => ?_⟩
    by_contra hgt
    have hfix := h.fixed i (by omega)
    omega
  have hothers : ∑ i ∈ Finset.range n, ({a i} : Multiset α) =
      ∑ i ∈ Finset.range n, {a₀ i} := by
    rw [Finset.sum_range, Finset.sum_range]
    exact Fintype.sum_equiv τ _ _ fun i => by rw [hτ]
  rw [Finset.sum_range_succ, Finset.sum_range_succ, hothers] at hall
  exact Multiset.singleton_inj.mp (add_left_cancel hall)

variable [LinearOrder β]

def step (key : α → β) (a : Nat → α) (j : Nat) : Nat → α :=
  if key (a (j + 1)) < key (a j) then a ∘ Equiv.swap j (j + 1) else a

def pass (key : α → β) (n : Nat) (a : Nat → α) : Nat → α := (List.range n).foldl (step key) a

def sort (key : α → β) (n : Nat) (a : Nat → α) : Nat → α := (pass key n)^[n] a

/-- The last `k` of the positions up to `n` are final. -/
def TopSorted (key : α → β) (n k : Nat) (a : Nat → α) : Prop :=
  ∀ i j, i < j → j ≤ n → n < j + k → key (a i) ≤ key (a j)

theorem pass_succ : pass key (m + 1) a = step key (pass key m a) m := by
  unfold pass
  rw [List.range_succ, List.foldl_append, List.foldl_cons, List.foldl_nil]

/-- Swapping neighbours keeps the order of every other pair. -/
theorem swap_lt {i l : Nat} (hil : i < l) (hne : ¬ (i = j ∧ l = j + 1)) :
    Equiv.swap j (j + 1) i < Equiv.swap j (j + 1) l := by
  rw [Equiv.swap_apply_def, Equiv.swap_apply_def]
  split_ifs <;> omega

theorem Arranged.step (h : Arranged key n a₀ a σ) (hj : j < n) :
    ∃ τ, Arranged key n a₀ (step key a j) τ := by
  unfold BubbleSort.step
  split_ifs with hlt
  · refine ⟨(Equiv.swap j (j + 1)).trans σ, ?_, ?_, ?_⟩
    · intro i
      exact h.eq _
    · intro i hi
      have hsw : Equiv.swap j (j + 1) i = i :=
        Equiv.swap_apply_of_ne_of_ne (by omega) (by omega)
      rw [Equiv.trans_apply, hsw]
      exact h.fixed i hi
    · intro i l hil hkey
      -- the one pair that changes sides has different keys
      have hne : ¬ (i = j ∧ l = j + 1) := by
        intro hb
        obtain ⟨rfl, rfl⟩ := hb
        simp only [Function.comp_apply, Equiv.swap_apply_left, Equiv.swap_apply_right] at hkey
        exact absurd hlt (by rw [hkey]; exact lt_irrefl _)
      exact h.stable _ _ (swap_lt hil hne) hkey
  · exact ⟨σ, h⟩

theorem Arranged.pass (h : Arranged key n a₀ a σ) (hm : m ≤ n) :
    ∃ τ, Arranged key n a₀ (pass key m a) τ := by
  induction m with
  | zero => exact ⟨σ, h⟩
  | succ m ih =>
    obtain ⟨τ, hτ⟩ := ih (by omega)
    rw [pass_succ]
    exact hτ.step (by omega)

/-- The sort rearranges, and keeps equal keys in order. -/
theorem sort_arranged (key : α → β) (n : Nat) (a : Nat → α) :
    ∃ σ, Arranged key n a (sort key n a) σ := by
  have hpasses : ∀ k, ∃ σ, Arranged key n a ((pass key n)^[k] a) σ := by
    intro k
    induction k with
    | zero => exact ⟨_, arranged_refl n a⟩
    | succ k ih =>
      obtain ⟨σ, hσ⟩ := ih
      rw [Function.iterate_succ_apply']
      exact hσ.pass (Nat.le_refl n)
  exact hpasses n

/-- A swap below a last key that no other exceeds is a swap below the last position. -/
theorem swap_below_last (h : ∀ i < n, key (a i) ≤ key (a n)) (hj : j < n)
    (hlt : key (a (j + 1)) < key (a j)) : j + 1 < n := by
  rcases Nat.lt_or_eq_of_le (show j + 1 ≤ n from hj) with hj' | hj'
  · exact hj'
  · have hlast := h j hj
    rw [← hj'] at hlast
    exact absurd hlt (not_lt.mpr hlast)

/-- Such a last key stays. -/
theorem step_last (h : ∀ i < n, key (a i) ≤ key (a n)) (hj : j < n) :
    ∀ i < n, key (step key a j i) ≤ key (step key a j n) := by
  intro i hi
  unfold step
  split_ifs with hlt
  · have hj' := swap_below_last h hj hlt
    have hn : Equiv.swap j (j + 1) n = n :=
      Equiv.swap_apply_of_ne_of_ne (by omega) (by omega)
    rw [Function.comp_apply, Function.comp_apply, hn]
    apply h
    rw [Equiv.swap_apply_def]
    split_ifs <;> omega
  · exact h i hi

/-- A pass over `m` pairs does not come to the positions after `m`. -/
theorem pass_above {i : Nat} (hi : m < i) : pass key m a i = a i := by
  induction m with
  | zero => rfl
  | succ m ih =>
    rw [pass_succ, step]
    split_ifs
    · rw [Function.comp_apply, Equiv.swap_apply_of_ne_of_ne (by omega) (by omega)]
      exact ih (by omega)
    · exact ih (by omega)

/-- After `m` steps the largest of the keys up to `m` is at `m`. -/
theorem pass_largest {i : Nat} (hi : i ≤ m) : key (a i) ≤ key (pass key m a m) := by
  induction m with
  | zero =>
    have hzero : i = 0 := Nat.le_zero.mp hi
    rw [hzero]
    exact le_refl _
  | succ m ih =>
    have hnext : pass key m a (m + 1) = a (m + 1) := pass_above (Nat.lt_succ_self m)
    rw [pass_succ, step]
    split_ifs with hlt
    · rw [Function.comp_apply, Equiv.swap_apply_right]
      rcases Nat.lt_or_eq_of_le hi with hlow | rfl
      · exact ih (by omega)
      · rw [← hnext]
        exact hlt.le
    · rcases Nat.lt_or_eq_of_le hi with hlow | rfl
      · exact (ih (by omega)).trans (not_lt.mp hlt)
      · rw [hnext]

/-- Inside a pass the largest key seen travels up until it meets the final part. -/
theorem TopSorted.within (h : TopSorted key n k a) (hm : m ≤ n) :
    TopSorted key n k (pass key m a) ∧ ∀ i, i ≤ min m (n - k) →
      key (pass key m a i) ≤ key (pass key m a (min m (n - k))) := by
  induction m with
  | zero =>
    refine ⟨h, fun i hi => ?_⟩
    have hi0 : i = min 0 (n - k) := by omega
    rw [← hi0]
  | succ m ih =>
    obtain ⟨htop, hmax⟩ := ih (by omega)
    rw [pass_succ]
    generalize pass key m a = b at htop hmax
    unfold step
    by_cases hmk : m < n - k
    · have hmin : min m (n - k) = m := by omega
      have hmin' : min (m + 1) (n - k) = m + 1 := by omega
      rw [hmin] at hmax
      rw [hmin']
      split_ifs with hlt
      · refine ⟨fun i l hil hl hlk => ?_, fun i hi => ?_⟩
        · have hl' : Equiv.swap m (m + 1) l = l :=
            Equiv.swap_apply_of_ne_of_ne (by omega) (by omega)
          have hi' : Equiv.swap m (m + 1) i < l := by
            rw [Equiv.swap_apply_def]
            split_ifs <;> omega
          simp only [Function.comp_apply, hl']
          exact htop _ l hi' hl hlk
        · simp only [Function.comp_apply, Equiv.swap_apply_right]
          rcases Nat.lt_or_ge i m with him | him
          · rw [Equiv.swap_apply_of_ne_of_ne (by omega) (by omega)]
            exact hmax i (by omega)
          · rcases Nat.eq_or_lt_of_le him with rfl | him
            · rw [Equiv.swap_apply_left]
              exact hlt.le
            · have him' : i = m + 1 := by omega
              rw [him', Equiv.swap_apply_right]
      · refine ⟨htop, fun i hi => ?_⟩
        rcases Nat.lt_or_ge i (m + 1) with him | him
        · exact (hmax i (by omega)).trans (not_lt.mp hlt)
        · have him' : i = m + 1 := by omega
          rw [him']
    · -- position `m + 1` is final, so there is nothing to swap
      have hle : key (b m) ≤ key (b (m + 1)) := htop m (m + 1) (by omega) hm (by omega)
      have hmin : min (m + 1) (n - k) = min m (n - k) := by omega
      rw [if_neg (not_lt.mpr hle), hmin]
      exact ⟨htop, hmax⟩

/-- Each pass makes one more position final. -/
theorem TopSorted.pass (h : TopSorted key n k a) (hk : k ≤ n) :
    TopSorted key n (k + 1) (pass key n a) := by
  obtain ⟨htop, hmax⟩ := h.within (Nat.le_refl n)
  have hmin : min n (n - k) = n - k := by omega
  rw [hmin] at hmax
  intro i j hij hj hjk
  rcases Nat.lt_or_ge n (j + k) with hfinal | hnew
  · exact htop i j hij hj hfinal
  · have hj' : j = n - k := by omega
    subst hj'
    exact hmax i (by omega)

theorem sort_sorted {i : Nat} (key : α → β) (a : Nat → α) (hij : i < j) (hj : j ≤ n) :
    key (sort key n a i) ≤ key (sort key n a j) := by
  have hpasses : ∀ k ≤ n, TopSorted key n k ((BubbleSort.pass key n)^[k] a) := by
    intro k hk
    induction k with
    | zero =>
      intro i j _ _ _
      omega
    | succ k ih =>
      rw [Function.iterate_succ_apply']
      exact (ih (by omega)).pass (by omega)
  exact hpasses n (Nat.le_refl n) i j hij hj (by omega)

/-- A last key that no other exceeds stays last. -/
theorem Arranged.last_fixed (h : Arranged key n a₀ a σ)
    (hsort : ∀ i < n, key (a i) ≤ key (a n)) (hlast : ∀ i < n, key (a₀ i) ≤ key (a₀ n)) :
    σ n = n := by
  by_contra hne
  obtain ⟨i, hin⟩ := σ.surjective n
  have hle : i ≤ n := by
    by_contra hgt
    have hfix := h.fixed i (by omega)
    omega
  have hlt : i < n := by
    rcases Nat.lt_or_eq_of_le hle with hlt | rfl
    · exact hlt
    · exact absurd hin hne
  have hkey : key (a i) = key (a n) := by
    apply le_antisymm (hsort i hlt)
    rw [h.eq i, hin, h.eq n]
    exact hlast _ (by have := h.le (Nat.le_refl n); omega)
  have hst := h.stable i n hlt hkey
  have hn := h.le (Nat.le_refl n)
  omega

/-- A pass over an array in order changes nothing. -/
theorem pass_eq_self (h : ∀ i < n, key (a i) ≤ key (a (i + 1))) (hm : m ≤ n) :
    pass key m a = a := by
  induction m with
  | zero => rfl
  | succ m ih =>
    rw [pass_succ, ih (by omega), step, if_neg (not_lt.mpr (h m hm))]

/-- The sort leaves the positions below `n` alone exactly if all up to `n` are in order. -/
theorem sort_eq_self_iff :
    (∀ i < n, sort key n a i = a i) ↔ ∀ i < n, key (a i) ≤ key (a (i + 1)) := by
  constructor
  · intro h
    obtain ⟨σ, hσ⟩ := sort_arranged key n a
    have hlast : sort key n a n = a n := hσ.last_eq (τ := Equiv.refl _) fun i => h i i.isLt
    have hall : ∀ i ≤ n, sort key n a i = a i := by
      intro i hi
      rcases Nat.lt_or_eq_of_le hi with hlt | rfl
      · exact h i hlt
      · exact hlast
    intro i hi
    rw [← hall i (by omega), ← hall (i + 1) hi]
    exact sort_sorted key a (Nat.lt_succ_self i) hi
  · intro h i _
    have hsort : sort key n a = a :=
      Function.iterate_fixed (pass_eq_self h (Nat.le_refl n)) n
    rw [hsort]

end BubbleSort
