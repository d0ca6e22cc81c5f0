import Mathlib.Data.Fintype.Card
import Mathlib.Data.List.Nodup
import Mathlib.Logic.Function.Basic

/-- Singly linked chains threaded through a link field of the nodes themselves. -/
def IntrusiveChain {α : Type} (next : α → Option α) : Option α → List α → Prop
  | head, [] => head = none
  | head, a :: l => head = some a ∧ IntrusiveChain next (next a) l

namespace IntrusiveChain

variable {α : Type} {next next' : α → Option α} {head : Option α} {l l' : List α} {a x : α}

/-- The loop `while (t->link) t = t->link`; `none` when `fuel` nodes are not enough. -/
def tailSearch (next : α → Option α) : Nat → α → Option α
  | 0, _ => none
  | fuel+1, a => match next a with
    | none => some a
    | some b => tailSearch next fuel b

@[simp] theorem nil_iff : IntrusiveChain next head [] ↔ head = none := Iff.rfl

@[simp] theorem cons_iff :
    IntrusiveChain next head (a :: l) ↔ head = some a ∧ IntrusiveChain next (next a) l := Iff.rfl

/-- The head pointer is the first member. -/
theorem head_eq (h : IntrusiveChain next head l) : head = l.head? := by
  cases l with
  | nil => exact h
  | cons b l => exact h.1

/-- Something points to each member of a chain. -/
theorem pointed (h : IntrusiveChain next head l) (ha : a ∈ l) :
    head = some a ∨ ∃ b, next b = some a := by
  induction l generalizing head with
  | nil => cases ha
  | cons b l ih =>
    rcases List.mem_cons.mp ha with rfl | ha
    · exact Or.inl h.1
    · exact Or.inr ((ih h.2 ha).elim (fun hb => ⟨b, hb⟩) id)

/-- The link function determines the chain. -/
theorem unique (h : IntrusiveChain next head l) (h' : IntrusiveChain next head l') : l = l' := by
  induction l generalizing head l' with
  | nil =>
    cases l' with
    | nil => rfl
    | cons b l' =>
      have hn : head = none := h
      rw [hn] at h'
      simp at h'
  | cons a l ih =>
    cases l' with
    | nil =>
      have hn : head = none := h'
      rw [hn] at h
      simp at h
    | cons b l' =>
      obtain ⟨ha, hl⟩ := h
      obtain ⟨hb, hl'⟩ := h'
      have hab : a = b := Option.some.inj (ha.symm.trans hb)
      subst hab
      rw [ih hl hl']

theorem drop_mem (h : IntrusiveChain next head l) (ha : a ∈ l) :
    ∃ l₁ l₂, l = l₁ ++ a :: l₂ ∧ IntrusiveChain next (some a) (a :: l₂) := by
  induction l generalizing head with
  | nil => simp at ha
  | cons b l ih =>
    rcases List.mem_cons.mp ha with rfl | ha
    · exact ⟨[], l, rfl, rfl, h.2⟩
    · obtain ⟨l₁, l₂, rfl, hc⟩ := ih h.2 ha
      exact ⟨b :: l₁, l₂, rfl, hc⟩

/-- A chain that ends in NULL cannot visit a node twice. -/
theorem nodup (h : IntrusiveChain next head l) : l.Nodup := by
  induction l generalizing head with
  | nil => exact List.nodup_nil
  | cons a l ih =>
    refine List.nodup_cons.mpr ⟨?_, ih h.2⟩
    intro ha
    obtain ⟨l₁, l₂, hl, hc⟩ := drop_mem h.2 ha
    have heq : a :: l = a :: l₂ := unique (cons_iff.mpr ⟨rfl, h.2⟩) hc
    have hlen := congrArg List.length heq
    rw [hl] at hlen
    simp only [List.length_cons, List.length_append] at hlen
    omega

theorem length_le [Fintype α] (h : IntrusiveChain next head l) :
    l.length ≤ Fintype.card α := h.nodup.length_le_card

/-- Writing links of nodes off the chain leaves it alone. -/
theorem congr (h : IntrusiveChain next head l) (he : ∀ a ∈ l, next a = next' a) :
    IntrusiveChain next' head l := by
  induction l generalizing head with
  | nil => exact h
  | cons a l ih =>
    refine ⟨h.1, ?_⟩
    rw [← he a (by simp)]
    exact ih h.2 (fun b hb => he b (by simp [hb]))

theorem update_of_notMem [DecidableEq α] (h : IntrusiveChain next head l) (hx : x ∉ l)
    (p : Option α) : IntrusiveChain (Function.update next x p) head l := by
  apply h.congr
  intro a ha
  have hne : a ≠ x := fun h => hx (h ▸ ha)
  rw [Function.update_of_ne hne]

/-- The search stops at the last node, within one step per node. -/
theorem tailSearch_eq (h : IntrusiveChain next (some a) l) (hl : l ≠ []) (fuel : Nat)
    (hf : l.length ≤ fuel) : tailSearch next fuel a = some (l.getLast hl) := by
  induction fuel generalizing a l with
  | zero =>
    have : l.length ≠ 0 := by simpa using hl
    omega
  | succ fuel ih =>
    cases l with
    | nil => exact absurd rfl hl
    | cons b l =>
      obtain ⟨hb, hc⟩ := h
      cases Option.some.inj hb
      cases l with
      | nil =>
        have hn : next a = none := hc
        simp [tailSearch, hn]
      | cons c l =>
        have hn : next a = some c := hc.1
        rw [tailSearch, hn, List.getLast_cons (List.cons_ne_nil _ _)]
        exact ih (hn ▸ hc) (List.cons_ne_nil _ _) (by simpa using hf)

/-- Hooking a NULL-linked node behind the last one. -/
theorem append [DecidableEq α] (h : IntrusiveChain next head l) (hl : l ≠ []) (hx : x ∉ l)
    (hnx : next x = none) :
    IntrusiveChain (Function.update next (l.getLast hl) (some x)) head (l ++ [x]) := by
  induction l generalizing head with
  | nil => exact absurd rfl hl
  | cons a l ih =>
    obtain ⟨hh, hc⟩ := h
    refine ⟨hh, ?_⟩
    have hxa : x ≠ a := fun h => hx (by simp [h])
    cases l with
    | nil => simp [Function.update_of_ne hxa, hnx]
    | cons b l =>
      have hnd : (a :: b :: l).Nodup := nodup (cons_iff.mpr ⟨rfl, hc⟩)
      have hne : a ≠ (b :: l).getLast (List.cons_ne_nil _ _) := by
        intro he
        apply (List.nodup_cons.mp hnd).1
        rw [he]
        exact List.getLast_mem _
      rw [List.getLast_cons (List.cons_ne_nil _ _), Function.update_of_ne hne]
      exact ih hc (List.cons_ne_nil _ _) (fun h => hx (by simp [h]))

theorem eq_nil (h : IntrusiveChain next none l) : l = [] := unique h (nil_iff.mpr rfl)

/-- A search for the tail, then hooking `x` behind it. -/
theorem enqueue [DecidableEq α] {last : α} {fuel : Nat} (h : IntrusiveChain next (some a) l)
    (hx : x ∉ l) (hs : tailSearch next fuel a = some last) (hf : l.length ≤ fuel) :
    last ∈ l ∧ IntrusiveChain (Function.update (Function.update next x none) last (some x))
      (some a) (l ++ [x]) := by
  have hl : l ≠ [] := by
    rintro rfl
    simp at h
  rw [h.tailSearch_eq hl fuel hf] at hs
  cases hs
  refine ⟨List.getLast_mem hl, ?_⟩
  exact (h.update_of_notMem hx none).append hl hx (Function.update_self ..)

/-- Cutting the first node off and clearing its link. -/
theorem pop [DecidableEq α] (h : IntrusiveChain next (some a) (a :: l)) :
    IntrusiveChain (Function.update next a none) (next a) l :=
  update_of_notMem h.2 (List.nodup_cons.mp h.nodup).1 none

end IntrusiveChain
