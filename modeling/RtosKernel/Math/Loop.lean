import Mathlib.Data.List.Basic
import Mathlib.Logic.Function.Iterate

/-- Invariant rule for a counted loop. -/
theorem foldl_range_invariant {σ : Type} {f : σ → Nat → σ} {P : σ → Prop} {n : Nat} {s : σ}
    (h : P s) (hstep : ∀ st k, k < n → P st → P (f st k)) : P ((List.range n).foldl f s) := by
  induction n with
  | zero => exact h
  | succ n ih =>
    rw [List.range_succ, List.foldl_append, List.foldl_cons, List.foldl_nil]
    exact hstep _ n (Nat.lt_succ_self n) (ih fun st k hk => hstep st k (by omega))

/-- Invariant rule for a loop that is run again and again. -/
theorem iterate_invariant {σ : Type} {f : σ → σ} {P : σ → Prop} {s : σ} (h : P s)
    (hstep : ∀ st, P st → P (f st)) (k : Nat) : P (f^[k] s) := by
  induction k with
  | zero => exact h
  | succ k ih =>
    rw [Function.iterate_succ_apply']
    exact hstep _ ih

/-- Invariant rule for a counted loop whose body may fail: what the body preserves at every
round holds when the loop ends. -/
theorem foldlM_range_invariant {σ ε : Type} {f : σ → Nat → Except ε σ} {P : Nat → σ → Prop}
    {n : Nat} {s r : σ} (h0 : P 0 s)
    (hstep : ∀ k st st', k < n → P k st → f st k = .ok st' → P (k + 1) st')
    (h : (List.range n).foldlM f s = .ok r) : P n r := by
  induction n generalizing r with
  | zero =>
    cases h
    exact h0
  | succ n ih =>
    rw [List.range_succ, List.foldlM_append] at h
    cases hr : (List.range n).foldlM f s with
    | error e =>
      rw [hr] at h
      cases h
    | ok st =>
      rw [hr] at h
      have hP := ih (fun k a b hk => hstep k a b (by omega)) hr
      have hf : f st n = .ok r := by
        change Except.bind (f st n) (fun st' => .ok st') = .ok r at h
        cases hs : f st n with
        | error e => rw [hs] at h; cases h
        | ok st' => rw [hs] at h; exact h
      exact hstep n st r (by omega) hP hf

/-- Total correctness: when the invariant lets every round succeed, the loop succeeds. -/
theorem foldlM_range_total {σ ε : Type} {f : σ → Nat → Except ε σ} {P : Nat → σ → Prop}
    {n : Nat} {s : σ} (h0 : P 0 s)
    (hstep : ∀ k st, k < n → P k st → ∃ st', f st k = .ok st' ∧ P (k + 1) st') :
    ∃ r, (List.range n).foldlM f s = .ok r ∧ P n r := by
  induction n with
  | zero => exact ⟨s, rfl, h0⟩
  | succ n ih =>
    obtain ⟨st, hst, hP⟩ := ih (fun k a hk => hstep k a (by omega))
    obtain ⟨st', hst', hP'⟩ := hstep n st (by omega) hP
    refine ⟨st', ?_, hP'⟩
    rw [List.range_succ, List.foldlM_append, hst]
    simp only [bind, Except.bind, List.foldlM_cons, List.foldlM_nil, hst', pure, Except.pure]

/-- A failure of the loop is a failure of its body. -/
theorem foldlM_error {σ ι ε : Type} {f : σ → ι → Except ε σ} {P : ε → Prop} {l : List ι} {s : σ}
    {e : ε} (hbody : ∀ st i e, f st i = .error e → P e) (h : l.foldlM f s = .error e) : P e := by
  induction l generalizing s with
  | nil => cases h
  | cons i l ih =>
    change Except.bind (f s i) (fun st => l.foldlM f st) = .error e at h
    cases hf : f s i with
    | error e' =>
      rw [hf] at h
      cases h
      exact hbody s i _ hf
    | ok st =>
      rw [hf] at h
      exact ih h

/-- Two outcomes correspond: the same failure, or results in relation `R`. -/
def ExceptRel {ε α β : Type} (R : α → β → Prop) : Except ε α → Except ε β → Prop
  | .ok a, .ok b => R a b
  | .error e, .error e' => e = e'
  | _, _ => False

theorem ExceptRel.cases {ε α β : Type} {R : α → β → Prop} {x : Except ε α} {y : Except ε β}
    (h : ExceptRel R x y) :
    (∃ e, x = .error e ∧ y = .error e) ∨ ∃ a b, x = .ok a ∧ y = .ok b ∧ R a b := by
  cases x with
  | error e =>
    cases y with
    | error e' =>
      have he : e = e' := h
      exact Or.inl ⟨e, rfl, by rw [he]⟩
    | ok b => exact h.elim
  | ok a =>
    cases y with
    | error e' => exact h.elim
    | ok b => exact Or.inr ⟨a, b, rfl, rfl, h⟩

theorem ExceptRel.mono {ε α β : Type} {R R' : α → β → Prop} {x : Except ε α} {y : Except ε β}
    (h : ExceptRel R x y) (hR : ∀ a b, R a b → R' a b) : ExceptRel R' x y := by
  rcases h.cases with ⟨e, rfl, rfl⟩ | ⟨a, b, rfl, rfl, hab⟩
  · rfl
  · exact hR a b hab

theorem ExceptRel.map {ε α β γ δ : Type} {R : α → β → Prop} {R' : γ → δ → Prop}
    {x : Except ε α} {y : Except ε β} {f : α → γ} {g : β → δ} (h : ExceptRel R x y)
    (hR : ∀ a b, R a b → R' (f a) (g b)) : ExceptRel R' (x.map f) (y.map g) := by
  rcases h.cases with ⟨e, rfl, rfl⟩ | ⟨a, b, rfl, rfl, hab⟩
  · rfl
  · exact hR a b hab

/-- Relational rule for a loop: bodies that correspond make loops that correspond. -/
theorem foldlM_related {σ τ ι ε : Type} {f : σ → ι → Except ε σ} {g : τ → ι → Except ε τ}
    {R : σ → τ → Prop} {l : List ι} {s : σ} {t : τ} (h : R s t)
    (hstep : ∀ i ∈ l, ∀ a b, R a b → ExceptRel R (f a i) (g b i)) :
    ExceptRel R (l.foldlM f s) (l.foldlM g t) := by
  induction l generalizing s t with
  | nil => exact h
  | cons i l ih =>
    change ExceptRel R (Except.bind (f s i) fun a => l.foldlM f a)
      (Except.bind (g t i) fun b => l.foldlM g b)
    rcases (hstep i (by simp) s t h).cases with ⟨e, hf, hg⟩ | ⟨a, b, hf, hg, hr⟩
    · rw [hf, hg]
      exact rfl
    · rw [hf, hg]
      exact ih hr fun j hj => hstep j (by simp [hj])
