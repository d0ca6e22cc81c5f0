import Mathlib.Data.List.Basic

/-- A deterministic machine that answers every input. -/
structure Machine (σ ι ο : Type) where
  step : ι → σ → σ × ο

namespace Machine

variable {σ τ ι ο : Type}

/-- The state after a series of inputs, and the answers in order. -/
def run (M : Machine σ ι ο) : List ι → σ → σ × List ο
  | [], s => (s, [])
  | i :: is, s =>
    let (s', o) := M.step i s
    let (s'', os) := M.run is s'
    (s'', o :: os)

/-- From related states the two machines answer every allowed input alike, and stay related. -/
def Refines (M : Machine σ ι ο) (A : Machine τ ι ο) (ok : ι → Prop) (R : σ → τ → Prop) : Prop :=
  ∀ i s t, ok i → R s t → (M.step i s).2 = (A.step i t).2 ∧ R (M.step i s).1 (A.step i t).1

theorem Refines.run {M : Machine σ ι ο} {A : Machine τ ι ο} {ok : ι → Prop} {R : σ → τ → Prop}
    (h : M.Refines A ok R) {is : List ι} (hok : ∀ i ∈ is, ok i) {s : σ} {t : τ} (hR : R s t) :
    (M.run is s).2 = (A.run is t).2 ∧ R (M.run is s).1 (A.run is t).1 := by
  induction is generalizing s t with
  | nil => exact ⟨rfl, hR⟩
  | cons i is ih =>
    obtain ⟨hout, hnext⟩ := h i s t (hok i (by simp)) hR
    obtain ⟨houts, hend⟩ := ih (fun j hj => hok j (by simp [hj])) hnext
    constructor
    · show (M.step i s).2 :: (M.run is (M.step i s).1).2 = _
      rw [hout, houts]
      rfl
    · exact hend

end Machine
