import RtosKernel.Math.IntrusiveChain
import RtosKernel.Math.Placement

/-- The line of each place `queue k` is a chain from `head k`, all through the one link field
`next`. -/
def Threaded {α ι κ : Type} (next : α → Option α) (head : κ → Option α) (queue : κ → ι)
    (P : Placement α ι) : Prop :=
  ∀ k, IntrusiveChain next (head k) (P.line (queue k))

namespace Threaded

variable {α ι κ : Type} [DecidableEq α] [DecidableEq ι] {next : α → Option α}
  {head : κ → Option α} {queue : κ → ι} {P : Placement α ι} {a b last : α} {j : ι} {k : κ}

omit [DecidableEq ι] in
/-- The link of an item that is in no line may be written. -/
theorem update (h : Threaded next head queue P) (ha : ∀ i, P.place a ≠ queue i) (p : Option α) :
    Threaded (Function.update next a p) head queue P := by
  intro i
  apply (h i).update_of_notMem
  intro hm
  exact ha i ((P.mem_line _ _).mp hm)

/-- An item goes from one place off this field to another. -/
theorem move_off (h : Threaded next head queue P) (ha : ∀ i, P.place a ≠ queue i)
    (hj : ∀ i, queue i ≠ j) : Threaded next head queue (P.move a j) := by
  intro i
  rw [Placement.line_move_of_ne (ha i) (hj i)]
  exact h i

variable [DecidableEq κ]

/-- Into an empty line, as its only item. -/
theorem enqueue_first (h : Threaded next head queue P) (hinj : Function.Injective queue)
    (ha : ∀ i, P.place a ≠ queue i) (hk : head k = none) :
    Threaded (Function.update next a none) (Function.update head k (some a)) queue
      (P.move a (queue k)) := by
  intro i
  by_cases hi : i = k
  · subst hi
    have hnil : P.line (queue i) = [] := IntrusiveChain.eq_nil (hk ▸ h i)
    rw [Function.update_self, Placement.line_move_to (ha i), hnil]
    exact ⟨rfl, Function.update_self ..⟩
  · rw [Function.update_of_ne hi, Placement.line_move_of_ne (ha i) (hinj.ne hi)]
    exact h.update ha none i

/-- Behind the last item of a line, found by a search for the tail. -/
theorem enqueue_last {fuel : Nat} (h : Threaded next head queue P)
    (hinj : Function.Injective queue) (ha : ∀ i, P.place a ≠ queue i) (hk : head k = some b)
    (hs : IntrusiveChain.tailSearch next fuel b = some last)
    (hf : (P.line (queue k)).length ≤ fuel) :
    P.place last = queue k ∧ Threaded (Function.update (Function.update next a none) last (some a))
      head queue (P.move a (queue k)) := by
  have hchain := h k
  rw [hk] at hchain
  have hoff : a ∉ P.line (queue k) := fun hm => ha k ((P.mem_line _ _).mp hm)
  obtain ⟨hlast, happ⟩ := hchain.enqueue hoff hs hf
  have hplace : P.place last = queue k := (P.mem_line _ _).mp hlast
  refine ⟨hplace, ?_⟩
  intro i
  by_cases hi : i = k
  · subst hi
    rw [Placement.line_move_to (ha i), hk]
    exact happ
  · rw [Placement.line_move_of_ne (ha i) (hinj.ne hi)]
    apply (h.update ha none i).update_of_notMem
    intro hm
    have hboth : queue i = queue k := ((P.mem_line _ _).mp hm).symm.trans hplace
    exact hi (hinj hboth)

/-- Out of the front of a line, to a place off this field. -/
theorem dequeue (h : Threaded next head queue P) (hinj : Function.Injective queue)
    (hk : head k = some a) (hj : ∀ i, queue i ≠ j) :
    P.place a = queue k ∧ Threaded (Function.update next a none)
      (Function.update head k (next a)) queue (P.move a j) := by
  have hchain := h k
  obtain ⟨l, hline⟩ : ∃ l, P.line (queue k) = a :: l := by
    have hhead := hchain.head_eq
    rw [hk] at hhead
    exact List.head?_eq_some_iff.mp hhead.symm
  have hplace : P.place a = queue k := (P.mem_line _ _).mp (by rw [hline]; simp)
  refine ⟨hplace, ?_⟩
  intro i
  by_cases hi : i = k
  · subst hi
    rw [hk, hline] at hchain
    rw [Function.update_self, Placement.line_move_head hline (hj i)]
    exact hchain.pop
  · have hne : P.place a ≠ queue i := by
      rw [hplace]
      exact hinj.ne (Ne.symm hi)
    rw [Function.update_of_ne hi, Placement.line_move_of_ne hne (hj i)]
    apply (h i).update_of_notMem
    exact fun hm => hne ((P.mem_line _ _).mp hm)

omit [DecidableEq α] in
/-- A whole line leaves for a place off this field. -/
theorem clear (h : Threaded next head queue P) (hinj : Function.Injective queue)
    (hj : ∀ i, queue i ≠ j) :
    Threaded next (Function.update head k none) queue (P.moveLine (queue k) j (hj k)) := by
  intro i
  by_cases hi : i = k
  · subst hi
    rw [Function.update_self, Placement.line_moveLine_self]
    exact rfl
  · rw [Function.update_of_ne hi, Placement.line_moveLine_of_ne _ (hinj.ne hi) (hj i)]
    exact h i

end Threaded
