import Mathlib.Data.List.Infix

/-! A line buffer of bounded size in front of a sink. -/

/-- What ends a line, which characters are sent at once, and as what. -/
structure LineBuffer (α : Type) where
  newline : α
  urgent : α → Bool
  alone : α → List α
  size : Nat

namespace LineBuffer

variable {α : Type}

/-- The line that waits, and what the sink has got so far. -/
structure State (α : Type) where
  line : List α
  sent : List α

/-- Everything that has been taken, once the line is sent too. -/
def State.flushed (st : State α) : List α := st.sent ++ st.line

variable [DecidableEq α] (d : LineBuffer α)

def take (st : State α) (c : α) : State α :=
  if c = d.newline then ⟨[], st.flushed ++ [c]⟩
  else if d.urgent c ∨ d.size ≤ st.line.length then ⟨[], st.flushed ++ d.alone c⟩
  else ⟨st.line ++ [c], st.sent⟩

/-- What the sink gets for some characters behind `n` characters of a line. -/
def spell : Nat → List α → List α
  | _, [] => []
  | n, c :: cs =>
    if c = d.newline then c :: spell 0 cs
    else if d.urgent c ∨ d.size ≤ n then d.alone c ++ spell 0 cs
    else c :: spell (n + 1) cs

variable {d} {st : State α} {c : α} {cs : List α} {n : Nat}

theorem take_newline (h : c = d.newline) : d.take st c = ⟨[], st.flushed ++ [c]⟩ := if_pos h

theorem take_alone (hline : c ≠ d.newline) (h : d.urgent c ∨ d.size ≤ st.line.length) :
    d.take st c = ⟨[], st.flushed ++ d.alone c⟩ := by
  rw [take, if_neg hline, if_pos h]

theorem take_append (hline : c ≠ d.newline) (h : ¬ (d.urgent c ∨ d.size ≤ st.line.length)) :
    d.take st c = ⟨st.line ++ [c], st.sent⟩ := by
  rw [take, if_neg hline, if_neg h]

theorem take_flushed :
    (d.take st c).flushed ++ d.spell (d.take st c).line.length cs =
      st.flushed ++ d.spell st.line.length (c :: cs) := by
  rw [take, spell]
  split_ifs with hline hfull
  · simp [State.flushed]
  · simp [State.flushed]
  · simp [State.flushed]

theorem run_flushed (d : LineBuffer α) (st : State α) (cs : List α) :
    (cs.foldl d.take st).flushed = st.flushed ++ d.spell st.line.length cs := by
  induction cs generalizing st with
  | nil => simp [spell]
  | cons c cs ih => rw [List.foldl_cons, ih, take_flushed]

/-- No character is lost where only those that `p` drops are added. -/
theorem spell_filter {p : α → Bool} (h : ∀ c, (d.alone c).filter p = [c].filter p) :
    (d.spell n cs).filter p = cs.filter p := by
  induction cs generalizing n with
  | nil => rfl
  | cons c cs ih =>
    rw [spell]
    split_ifs with hline hfull
    · rw [List.filter_cons, List.filter_cons, ih]
    · rw [List.filter_append, h, ih, ← List.filter_append, List.singleton_append]
    · rw [List.filter_cons, List.filter_cons, ih]

/-- Lines that fit in the buffer are sent as they are. -/
theorem spell_short (hcalm : ∀ c ∈ cs, d.urgent c = false)
    (hfirst : ∀ line, line <+: cs → d.newline ∉ line → n + line.length ≤ d.size)
    (hlines : ∀ line, line <:+: cs → d.newline ∉ line → line.length ≤ d.size) :
    d.spell n cs = cs := by
  induction cs generalizing n with
  | nil => rfl
  | cons c cs ih =>
    have hrest (line : List α) (h : line <:+: cs) (hn : d.newline ∉ line) :
        line.length ≤ d.size := by
      apply hlines line _ hn
      exact h.trans (List.suffix_cons c cs).isInfix
    have hcalm' (x : α) (hx : x ∈ cs) : d.urgent x = false :=
      hcalm x (List.mem_cons_of_mem c hx)
    rw [spell]
    split_ifs with hline hfull
    · rw [ih hcalm' _ hrest]
      intro line h hn
      rw [Nat.zero_add]
      exact hrest line h.isInfix hn
    · have hc : d.urgent c = false := hcalm c List.mem_cons_self
      have hone := hfirst [c] (by simp) (by simpa using Ne.symm hline)
      rw [List.length_singleton] at hone
      simp only [hc, Bool.false_eq_true, false_or] at hfull
      omega
    · rw [ih hcalm' _ hrest]
      intro line h hn
      have hlong := hfirst (c :: line) (by simpa using h) (by simp [hn, Ne.symm hline])
      rw [List.length_cons] at hlong
      omega

end LineBuffer
