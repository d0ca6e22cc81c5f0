import Mathlib.Data.List.Nodup
import Mathlib.Logic.Function.Basic

/-- Registers named by `ρ` and a memory of 4-byte words at byte addresses. -/
structure WordMachine (ρ ν : Type) where
  reg : ρ → ν
  mem : Nat → ν

/-- The same machine seen by other names of its registers and other values of its words. -/
def WordMachine.view {ρ ρ' ν ν' : Type} (f : ρ' → ρ) (g : ν → ν') (m : WordMachine ρ ν) :
    WordMachine ρ' ν' where
  reg r := g (m.reg (f r))
  mem a := g (m.mem a)

namespace BlockTransfer

variable {ρ ρ' ν ν' : Type} {m : WordMachine ρ ν} {rs : List ρ} {base a n : Nat} {r : ρ}
  {f : ρ' → ρ} {g : ν → ν'}

/-- The `n` words from `base` upward. -/
def block (mem : Nat → ν) : Nat → Nat → List ν
  | _, 0 => []
  | base, n+1 => mem base :: block mem (base + 4) n

/-- Store multiple, increment after: the first register to `base`, the next above it. -/
def store : Nat → List ρ → WordMachine ρ ν → WordMachine ρ ν
  | _, [], m => m
  | base, r :: rs, m => store (base + 4) rs { m with mem := Function.update m.mem base (m.reg r) }

/-- A block depends on its own words only. -/
theorem block_congr {mem mem' : Nat → ν}
    (h : ∀ a, base ≤ a → a < base + 4 * n → mem a = mem' a) :
    block mem base n = block mem' base n := by
  induction n generalizing base with
  | zero => rfl
  | succ n ih =>
    have first : mem base = mem' base := h base (Nat.le_refl base) (by omega)
    have rest : block mem (base + 4) n = block mem' (base + 4) n := by
      apply ih
      intro a hlo hhi
      exact h a (by omega) (by omega)
    rw [block, block, first, rest]

@[simp] theorem store_reg : (store base rs m).reg = m.reg := by
  induction rs generalizing base m with
  | nil => rfl
  | cons r rs ih => exact ih

theorem block_length {mem : Nat → ν} : (block mem base n).length = n := by
  induction n generalizing base with
  | zero => rfl
  | succ n ih => rw [block, List.length_cons, ih]

theorem block_view (m : WordMachine ρ ν) (f : ρ' → ρ) (g : ν → ν') :
    block (m.view f g).mem base n = (block m.mem base n).map g := by
  induction n generalizing base with
  | zero => rfl
  | succ n ih => rw [block, block, List.map_cons, ih, WordMachine.view]

theorem block_append (mem : Nat → ν) (base m n : Nat) :
    block mem base (m + n) = block mem base m ++ block mem (base + 4 * m) n := by
  induction m generalizing base with
  | zero => simp [block]
  | succ m ih =>
    have hbase : base + 4 * (m + 1) = base + 4 + 4 * m := by omega
    rw [Nat.succ_add, block, ih, block, List.cons_append, hbase]

/-- A store writes its block and nothing else. -/
theorem store_outside (h : a < base ∨ base + 4 * rs.length ≤ a) :
    (store base rs m).mem a = m.mem a := by
  induction rs generalizing base m with
  | nil => rfl
  | cons r rs ih =>
    rw [List.length_cons] at h
    have hne : a ≠ base := by omega
    rw [store, ih (by omega)]
    exact Function.update_of_ne hne ..

theorem store_block : block (store base rs m).mem base rs.length = rs.map m.reg := by
  induction rs generalizing base m with
  | nil => rfl
  | cons r rs ih =>
    rw [List.length_cons, block, store, List.map_cons]
    congr 1
    · -- the later words of the block lie above `base`
      rw [store_outside (by omega)]
      exact Function.update_self ..
    · exact ih

theorem store_block_disjoint (h : a + 4 * n ≤ base ∨ base + 4 * rs.length ≤ a) :
    block (store base rs m).mem a n = block m.mem a n := by
  apply block_congr
  intro b hlo hhi
  exact store_outside (by omega)

/-- A view of a store is a store of the view. -/
theorem view_store (rs : List ρ') (f : ρ' → ρ) (g : ν → ν') :
    (store base (rs.map f) m).view f g = store base rs (m.view f g) := by
  induction rs generalizing base m with
  | nil => rfl
  | cons r rs ih =>
    have hmem : (fun a => g (Function.update m.mem base (m.reg (f r)) a)) =
        Function.update (m.view f g).mem base ((m.view f g).reg r) :=
      Function.comp_update g m.mem base (m.reg (f r))
    rw [List.map_cons, store, store, ih, ← hmem]
    rfl

variable [DecidableEq ρ] [DecidableEq ρ']

/-- Load multiple, increment after. -/
def load : Nat → List ρ → WordMachine ρ ν → WordMachine ρ ν
  | _, [], m => m
  | base, r :: rs, m => load (base + 4) rs { m with reg := Function.update m.reg r (m.mem base) }

@[simp] theorem load_mem : (load base rs m).mem = m.mem := by
  induction rs generalizing base m with
  | nil => rfl
  | cons r rs ih => exact ih

theorem load_outside (h : r ∉ rs) : (load base rs m).reg r = m.reg r := by
  induction rs generalizing base m with
  | nil => rfl
  | cons r' rs ih =>
    obtain ⟨hne, hr⟩ := not_or.mp (mt List.mem_cons.mpr h)
    rw [load, ih hr]
    exact Function.update_of_ne hne ..

/-- No register is loaded twice, so each keeps the word it got. -/
theorem load_block (h : rs.Nodup) : rs.map (load base rs m).reg = block m.mem base rs.length := by
  induction rs generalizing base m with
  | nil => rfl
  | cons r rs ih =>
    obtain ⟨hr, hrs⟩ := List.nodup_cons.mp h
    rw [List.length_cons, block, load, List.map_cons]
    congr 1
    · rw [load_outside hr]
      exact Function.update_self ..
    · exact ih hrs

/-- A view of a load is a load of the view, if no register has two names. -/
theorem view_load (hf : Function.Injective f) (rs : List ρ') (g : ν → ν') :
    (load base (rs.map f) m).view f g = load base rs (m.view f g) := by
  induction rs generalizing base m with
  | nil => rfl
  | cons r rs ih =>
    have hreg : (fun i => g (Function.update m.reg (f r) (m.mem base) (f i))) =
        Function.update (m.view f g).reg r ((m.view f g).mem base) := by
      have hnames := Function.update_comp_eq_of_injective m.reg hf r (m.mem base)
      funext i
      rw [← Function.comp_apply (f := Function.update m.reg (f r) (m.mem base)), hnames,
        ← Function.comp_apply (f := g), Function.comp_update]
      rfl
    rw [List.map_cons, load, load, ih, ← hreg]
    rfl

end BlockTransfer
