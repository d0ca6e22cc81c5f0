import Mathlib.Logic.Function.Basic
import Mathlib.Tactic.SplitIfs

/-- One access to a cell: filled in from outside, stored by its owner, or loaded. -/
inductive Access (κ ν : Type) where
  | fill (k : κ) (v : ν)
  | store (k : κ) (v : ν)
  | load (k : κ) (v : ν)
  deriving DecidableEq

/-- What happened to the cells of a store, newest first. -/
abbrev AccessHistory (κ ν : Type) := List (Access κ ν)

namespace AccessHistory

variable {κ ν : Type} [DecidableEq κ] {h h' : AccessHistory κ ν} {f f' : κ → ν} {k : κ} {v v₀ : ν}

/-- The value written to `k` last, if there is one. -/
def lastWrite (k : κ) : AccessHistory κ ν → Option ν
  | [] => none
  | .fill k' v :: h => if k' = k then some v else lastWrite k h
  | .store k' v :: h => if k' = k then some v else lastWrite k h
  | .load _ _ :: h => lastWrite k h

/-- A load of a cell that has been written returns what was written last, and only a cell that
has just been loaded is stored. -/
def Consistent : AccessHistory κ ν → Prop
  | [] => True
  | .fill _ _ :: h => Consistent h
  | .store k _ :: h => (∃ v, h.head? = some (.load k v)) ∧ Consistent h
  | .load k v :: h => (∀ v₀, lastWrite k h = some v₀ → v = v₀) ∧ Consistent h

/-- The cells hold what was written last. -/
def Tracks (f : κ → ν) (h : AccessHistory κ ν) : Prop := ∀ k v, lastWrite k h = some v → f k = v

/-- A load after a store, with nothing written to the cell in between, returns the value stored. -/
def Reloads (h : AccessHistory κ ν) : Prop :=
  ∀ pre mid rest k v v₀, h = pre ++ .load k v :: (mid ++ .store k v₀ :: rest) →
    (∀ a ∈ mid, ∀ x, a ≠ .fill k x ∧ a ≠ .store k x) → v = v₀

/-- The first load after a cell has been filled in returns that value. -/
def FirstLoads (h : AccessHistory κ ν) : Prop :=
  ∀ pre mid rest k v v₀, h = pre ++ .load k v :: (mid ++ .fill k v₀ :: rest) →
    (∀ a ∈ mid, ∀ x, a ≠ .fill k x ∧ a ≠ .load k x) → v = v₀

section Writes

/-! What a further access does to the cells. -/

theorem Tracks.store (ht : Tracks f h) (k : κ) (v : ν) :
    Tracks (Function.update f k v) (.store k v :: h) := by
  intro k' v' hl
  rw [lastWrite] at hl
  split_ifs at hl with hk
  · subst hk
    rw [Function.update_self]
    exact Option.some.inj hl
  · rw [Function.update_of_ne (Ne.symm hk)]
    exact ht k' v' hl

theorem Tracks.load (ht : Tracks f h) (k : κ) : Tracks f (.load k (f k) :: h) := ht

theorem Consistent.load (hc : Consistent h) (ht : Tracks f h) (k : κ) :
    Consistent (.load k (f k) :: h) := ⟨fun v₀ hv => ht k v₀ hv, hc⟩

theorem lastWrite_fills (new : κ → ν) (ks : List κ) :
    lastWrite k (ks.map (fun k => Access.fill k (new k)) ++ h) =
      if k ∈ ks then some (new k) else lastWrite k h := by
  induction ks with
  | nil => simp
  | cons k' ks ih =>
    rw [List.map_cons, List.cons_append, lastWrite, ih]
    by_cases hk : k' = k
    · subst hk
      simp
    · simp [hk, Ne.symm hk]

/-- Filling in the cells `ks`. -/
theorem Tracks.fills (ht : Tracks f h) {new : κ → ν} {ks : List κ}
    (hf : ∀ k, f' k = if k ∈ ks then new k else f k) :
    Tracks f' (ks.map (fun k => Access.fill k (new k)) ++ h) := by
  intro k v hl
  rw [lastWrite_fills] at hl
  rw [hf]
  split_ifs at hl ⊢ with hk
  · exact Option.some.inj hl
  · exact ht k v hl

theorem Consistent.fills (hc : Consistent h) (new : κ → ν) (ks : List κ) :
    Consistent (ks.map (fun k => Access.fill k (new k)) ++ h) := by
  induction ks with
  | nil => exact hc
  | cons k ks ih => exact ih

end Writes

section Loads

/-! What a consistent history says of its loads. -/

theorem Consistent.suffix (hc : Consistent (h ++ h')) : Consistent h' := by
  induction h with
  | nil => exact hc
  | cons a h ih =>
    cases a with
    | fill k v => exact ih hc
    | store k v => exact ih hc.2
    | load k v => exact ih hc.2

theorem lastWrite_skip (hh : ∀ a ∈ h, ∀ x, a ≠ .fill k x ∧ a ≠ .store k x) :
    lastWrite k (h ++ h') = lastWrite k h' := by
  induction h with
  | nil => rfl
  | cons a h ih =>
    have hrest := ih fun b hb => hh b (List.mem_cons_of_mem a hb)
    have ha := hh a List.mem_cons_self
    rw [List.cons_append]
    cases a with
    | load k' v => exact hrest
    | fill k' v =>
      have hk : k' ≠ k := fun he => (ha v).1 (by rw [he])
      rw [lastWrite, if_neg hk, hrest]
    | store k' v =>
      have hk : k' ≠ k := fun he => (ha v).2 (by rw [he])
      rw [lastWrite, if_neg hk, hrest]

theorem Consistent.reloads (hc : Consistent h) : Reloads h := by
  rintro pre mid rest k v v₀ rfl hmid
  have hload : Consistent (.load k v :: (mid ++ .store k v₀ :: rest)) := hc.suffix
  apply hload.1
  rw [lastWrite_skip hmid, lastWrite, if_pos rfl]

/-- A cell that is not loaded is not stored either, down to an access that is no load of it. -/
theorem Consistent.no_store {mid : AccessHistory κ ν} (hc : Consistent (mid ++ h))
    (hmid : ∀ a ∈ mid, ∀ x, a ≠ .load k x) (hh : ∀ x, h.head? ≠ some (.load k x)) :
    ∀ a ∈ mid, ∀ x, a ≠ .store k x := by
  induction mid with
  | nil => simp
  | cons b mid ih =>
    have hrest : Consistent (mid ++ h) := hc.suffix (h := [b])
    have hno := ih hrest fun a ha => hmid a (List.mem_cons_of_mem b ha)
    intro a ha x
    rcases List.mem_cons.mp ha with rfl | ha
    · rintro rfl
      obtain ⟨v, hv⟩ := hc.1
      cases mid with
      | nil => exact hh v hv
      | cons c mid =>
        have hcv : c = .load k v := Option.some.inj hv
        exact hmid c (by simp) v hcv
    · exact hno a ha x

theorem Consistent.firstLoads (hc : Consistent h) : FirstLoads h := by
  rintro pre mid rest k v v₀ rfl hmid
  have hload : Consistent (.load k v :: (mid ++ .fill k v₀ :: rest)) := hc.suffix
  have hstore := hload.2.no_store (fun a ha x => (hmid a ha x).2) (fun x => by simp)
  have hskip : ∀ a ∈ mid, ∀ x, a ≠ .fill k x ∧ a ≠ .store k x :=
    fun a ha x => ⟨(hmid a ha x).1, hstore a ha x⟩
  apply hload.1
  rw [lastWrite_skip hskip, lastWrite, if_pos rfl]

end Loads

end AccessHistory
