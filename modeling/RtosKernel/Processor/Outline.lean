import RtosKernel.Processor.Exceptions

namespace RtosKernel

/-- Where the CPSR that an exception found is kept. -/
inductive Home where
  | spsr
  | reg
  | slot
  deriving DecidableEq

/-- What holds before an instruction: the mode, whether interrupts are sure to be masked, where
the interrupted CPSR is, and whether `r4` has the mode of the CPSR in it. -/
structure Point where
  mode : Mode
  masked : Bool
  home : Home
  r4 : Bool
  deriving DecidableEq

/-- The point before the first instruction. -/
def Handler.entry : Handler → Point
  | .swi => ⟨.svc, true, .spsr, false⟩
  | .irq => ⟨.irq, true, .spsr, false⟩

/-- The points before the other instructions. -/
def Handler.points : Handler → List Point
  | .swi =>
    List.replicate 4 ⟨.svc, true, .spsr, false⟩ ++ List.replicate 2 ⟨.svc, true, .spsr, true⟩ ++
    List.replicate 3 ⟨.svc, false, .spsr, false⟩ ++ [⟨.svc, false, .reg, false⟩] ++
    List.replicate 5 ⟨.svc, false, .slot, false⟩ ++ [⟨.svc, false, .reg, false⟩] ++
    List.replicate 5 ⟨.svc, false, .spsr, false⟩
  | .irq =>
    List.replicate 3 ⟨.irq, true, .spsr, false⟩ ++ List.replicate 2 ⟨.irq, true, .reg, false⟩ ++
    [⟨.svc, true, .reg, false⟩] ++ List.replicate 5 ⟨.svc, true, .spsr, false⟩ ++
    [⟨.svc, true, .reg, false⟩] ++ List.replicate 3 ⟨.svc, true, .slot, false⟩ ++
    List.replicate 2 ⟨.svc, false, .slot, false⟩ ++ List.replicate 2 ⟨.svc, false, .reg, false⟩ ++
    [⟨.svc, false, .spsr, false⟩]

/-- The point before instruction `pc`. -/
def Handler.point (h : Handler) (pc : Nat) : Option Point := (h.entry :: h.points)[pc]?

/-- Nothing is known at `pt'` of mode, mask and `r4` that was not known at `pt`. -/
def Point.Weakens (pt pt' : Point) : Prop :=
  pt'.mode = pt.mode ∧ (pt'.masked = true → pt.masked = true) ∧ (pt'.r4 = true → pt.r4 = true)

/-- Where a C handler is called, and where a handler returns. -/
def Point.body : Point := ⟨.svc, false, .slot, false⟩

def Point.last : Point := ⟨.svc, false, .spsr, false⟩

/-- The instruction leads from a state at `pt` to one at `pt'`. -/
def Insn.Leads (pt pt' : Point) : Insn → Prop
  | .work => pt.Weakens pt' ∧ pt'.home = pt.home
  | .clobber => pt.Weakens pt' ∧ pt'.home = pt.home ∧ pt.home ≠ .reg
  | .mrsCpsr => pt'.mode = pt.mode ∧ (pt'.masked = true → pt.masked = true) ∧
      pt'.home = pt.home
  | .eorIrq => pt.Weakens pt' ∧ pt'.home = pt.home
  | .msrCpsr => pt'.mode = pt.mode ∧ pt'.masked = false ∧ pt'.home = pt.home ∧
      pt.r4 = true ∧ pt'.r4 = false
  | .msrCpsrC mode masked => pt'.mode = mode ∧ (pt'.masked = true → masked = true) ∧
      pt'.home = pt.home ∧ pt.home ≠ .spsr ∧ pt'.r4 = false
  | .mrsSpsr => pt.Weakens pt' ∧ pt.home = .spsr ∧ pt'.home = .reg
  | .msrSpsr => pt.Weakens pt' ∧ pt.home = .reg ∧ pt'.home = .spsr
  | .str => pt.Weakens pt' ∧ pt.home = .reg ∧ pt'.home = .slot
  | .ldr => pt.Weakens pt' ∧ pt.home = .slot ∧ pt'.home = .reg
  | .call => pt = .body ∧ pt' = .body
  | .ret => False

instance (pt pt' : Point) : Decidable (pt.Weakens pt') := by
  unfold Point.Weakens
  infer_instance

instance (pt pt' : Point) (i : Insn) : Decidable (i.Leads pt pt') := by
  cases i <;> unfold Insn.Leads <;> infer_instance

/-- Points and instructions alternate: `pt`, the first instruction, the first of `points`, and so
on to the return. -/
def Outline (pt : Point) : List Insn → List Point → Prop
  | [], _ => False
  | i :: _, [] => i = .ret ∧ pt = .last
  | i :: code, pt' :: points => i.Leads pt pt' ∧ Outline pt' code points

instance : ∀ pt code points, Decidable (Outline pt code points)
  | _, [], _ => isFalse id
  | pt, i :: _, [] => inferInstanceAs (Decidable (i = .ret ∧ pt = .last))
  | pt, i :: code, pt' :: points =>
    have := instDecidableOutline pt' code points
    inferInstanceAs (Decidable (i.Leads pt pt' ∧ Outline pt' code points))

/-- The points of a handler are an outline of it, and every instruction has one. -/
theorem Handler.outline (h : Handler) :
    Outline h.entry h.code h.points ∧ h.code.length = h.points.length + 1 := by
  cases h <;> decide

theorem Outline.lead {code : List Insn} {points : List Point} {pt p : Point} {pc : Nat} {i : Insn}
    (h : Outline pt code points) (hlen : code.length = points.length + 1)
    (hi : code[pc]? = some i) (hp : (pt :: points)[pc]? = some p) :
    (i = .ret ∧ p = .last) ∨ ∃ p', (pt :: points)[pc + 1]? = some p' ∧ i.Leads p p' := by
  induction points generalizing pt code pc with
  | nil =>
    cases code with
    | nil => cases hi
    | cons i' code =>
      have hcode : code = [] := List.eq_nil_of_length_eq_zero (by simpa using hlen)
      cases pc with
      | zero =>
        cases hi
        cases hp
        exact Or.inl h
      | succ pc =>
        rw [hcode] at hi
        cases hi
  | cons pt' points ih =>
    cases code with
    | nil => cases hi
    | cons i' code =>
      cases pc with
      | zero =>
        cases hi
        cases hp
        exact Or.inr ⟨pt', rfl, h.1⟩
      | succ pc => exact ih h.2 (by simpa using hlen) hi hp

end RtosKernel
