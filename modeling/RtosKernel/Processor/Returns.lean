import RtosKernel.Processor.Outline

namespace RtosKernel

/-- The boundaries at which interrupts may be unmasked while the CPSR to return to is in
`spsr_svc` only. -/
def InWindow : Handler → Nat → Prop
  | .swi, pc => (7 ≤ pc ∧ pc ≤ 9) ∨ (17 ≤ pc ∧ pc ≤ 21)
  | .irq, pc => pc = 20

instance (h : Handler) (pc : Nat) : Decidable (InWindow h pc) := by
  cases h <;> unfold InWindow <;> infer_instance

namespace Cpu

/-- No interrupt is taken in a window of the running handler. -/
def noWindowIrq (p : Cpu) : Action → Prop
  | .irq _ _ _ => ∀ a ∈ p.stack.head?, ¬ InWindow a.handler a.pc
  | _ => True

def kept (p : Cpu) (a : Activation) : Home → Option Psr
  | .spsr => p.spsr
  | .reg => some a.r
  | .slot => some a.slot

/-- `a` runs and is at a point. -/
structure At (p : Cpu) (a : Activation) (pt : Point) : Prop where
  mode : p.cpsr.mode = pt.mode
  masked : pt.masked = true → p.cpsr.masked = true
  r4 : pt.r4 = true → a.r4.mode = p.cpsr.mode
  home : p.kept a pt.home = some a.taken

variable {p p' : Cpu} {a a' b : Activation} {pt pt' : Point} {rest : List Activation} {junk : Psr}

theorem At.weaken (h : At p a pt) (hw : pt.Weakens pt') (hr : a'.r4 = a.r4)
    (hh : p.kept a' pt'.home = some a'.taken) : At p a' pt' where
  mode := h.mode.trans hw.1.symm
  masked := fun hm => h.masked (hw.2.1 hm)
  r4 := by
    intro hm
    rw [hr]
    exact h.r4 (hw.2.2 hm)
  home := hh

theorem setSpsr_spsr (h : p.setSpsr junk = some p') :
    p'.spsr = some junk ∧ p'.cpsr = p.cpsr ∧ p'.stack = p.stack ∧ p'.switched = p.switched := by
  unfold setSpsr at h
  cases hm : p.cpsr.mode with
  | usr =>
    rw [hm] at h
    cases h
  | svc =>
    rw [hm] at h
    cases h
    simp [spsr, hm]
  | irq =>
    rw [hm] at h
    cases h
    simp [spsr, hm]

/-- The CPSR to return to is where it was if nothing has been written there. -/
theorem kept_congr {home : Home} (hs : home = .spsr → p'.spsr = p.spsr)
    (hr : home = .reg → a'.r = a.r) (hsl : home = .slot → a'.slot = a.slot) :
    p'.kept a' home = p.kept a home := by
  cases home with
  | spsr => exact hs rfl
  | reg => exact congrArg some (hr rfl)
  | slot => exact congrArg some (hsl rfl)

/-- Writing the CPSR back from `r4` leaves the mode, and so the SPSR that is in use. -/
theorem At.msrCpsr (h : At p a pt) (hi : Insn.msrCpsr.Leads pt pt') :
    At { p with cpsr := a.r4 } a pt' := by
  obtain ⟨hm, hk, hp, hr, _⟩ := hi
  have hmode : a.r4.mode = p.cpsr.mode := h.r4 hr
  refine ⟨hmode.trans (h.mode.trans hm.symm), ?_, fun _ => rfl, ?_⟩
  · intro hb
    rw [hk] at hb
    cases hb
  · rw [hp, ← h.home]
    apply kept_congr _ (fun _ => rfl) (fun _ => rfl)
    intro _
    unfold spsr
    simp only [hmode]

theorem At.msrSpsr (h : At p a pt) (hi : Insn.msrSpsr.Leads pt pt')
    (hset : p.setSpsr a.r = some p') : At p' a pt' := by
  obtain ⟨hw, hp, hp'⟩ := hi
  have hhome := h.home
  rw [hp] at hhome
  obtain ⟨hs, hc, -, -⟩ := setSpsr_spsr hset
  refine ⟨?_, ?_, ?_, ?_⟩
  · rw [hc]
    exact h.mode.trans hw.1.symm
  · intro hb
    rw [hc]
    exact h.masked (hw.2.1 hb)
  · intro hb
    rw [hc]
    exact h.r4 (hw.2.2 hb)
  · rw [hp']
    exact hs.trans hhome

/-- An instruction leads where its outline says, and touches no other activation. -/
theorem exec_leads {i : Insn} (h : At p a pt) (hi : i.Leads pt pt')
    (he : p.exec junk a i = some (p', a')) :
    At p' a' pt' ∧ a'.handler = a.handler ∧ a'.pc = a.pc ∧ a'.taken = a.taken ∧
      p'.stack = p.stack ∧ p'.switched = p.switched := by
  have hhome := h.home
  cases i with
  | work =>
    cases he
    refine ⟨h.weaken hi.1 rfl ?_, rfl, rfl, rfl, rfl, rfl⟩
    rw [hi.2]
    exact hhome
  | clobber =>
    cases he
    refine ⟨h.weaken hi.1 rfl ?_, rfl, rfl, rfl, rfl, rfl⟩
    rw [hi.2.1, ← hhome]
    exact kept_congr (fun _ => rfl) (fun hreg => absurd hreg hi.2.2) (fun _ => rfl)
  | mrsCpsr =>
    cases he
    obtain ⟨hm, hk, hp⟩ := hi
    refine ⟨⟨h.mode.trans hm.symm, fun hb => h.masked (hk hb), fun _ => rfl, ?_⟩,
      rfl, rfl, rfl, rfl, rfl⟩
    rw [hp, ← hhome]
    exact kept_congr (fun _ => rfl) (fun _ => rfl) (fun _ => rfl)
  | eorIrq =>
    cases he
    refine ⟨⟨h.mode.trans hi.1.1.symm, fun hb => h.masked (hi.1.2.1 hb),
      fun hb => h.r4 (hi.1.2.2 hb), ?_⟩, rfl, rfl, rfl, rfl, rfl⟩
    rw [hi.2, ← hhome]
    exact kept_congr (fun _ => rfl) (fun _ => rfl) (fun _ => rfl)
  | msrCpsr =>
    cases he
    exact ⟨h.msrCpsr hi, rfl, rfl, rfl, rfl, rfl⟩
  | msrCpsrC mode masked =>
    cases he
    obtain ⟨hm, hk, hp, hne, hr⟩ := hi
    refine ⟨⟨hm.symm, hk, fun hb => ?_, ?_⟩, rfl, rfl, rfl, rfl, rfl⟩
    · rw [hr] at hb
      cases hb
    · rw [hp, ← hhome]
      exact kept_congr (fun hspsr => absurd hspsr hne) (fun _ => rfl) (fun _ => rfl)
  | mrsSpsr =>
    obtain ⟨hw, hp, hp'⟩ := hi
    rw [hp] at hhome
    change p.spsr = _ at hhome
    rw [exec, hhome] at he
    cases he
    exact ⟨h.weaken hw rfl (by rw [hp']; rfl), rfl, rfl, rfl, rfl, rfl⟩
  | msrSpsr =>
    obtain ⟨q, hq, heq⟩ := Option.map_eq_some_iff.mp he
    cases heq
    obtain ⟨-, -, hst, hsw⟩ := setSpsr_spsr hq
    exact ⟨h.msrSpsr hi hq, rfl, rfl, rfl, hst, hsw⟩
  | str =>
    obtain ⟨hw, hp, hp'⟩ := hi
    rw [hp] at hhome
    cases he
    refine ⟨h.weaken hw rfl ?_, rfl, rfl, rfl, rfl, rfl⟩
    rw [hp']
    exact hhome
  | ldr =>
    obtain ⟨hw, hp, hp'⟩ := hi
    rw [hp] at hhome
    cases he
    refine ⟨h.weaken hw rfl ?_, rfl, rfl, rfl, rfl, rfl⟩
    rw [hp']
    exact hhome
  | call => cases he
  | ret => cases he

/-- `a` can be left alone: it has the CPSR to return to in its register or on its stack. -/
def Parked (a : Activation) : Prop :=
  ∃ pt, a.handler.point a.pc = some pt ∧ pt.masked = false ∧
    ((pt.home = .reg ∧ a.r = a.taken) ∨ (pt.home = .slot ∧ a.slot = a.taken))

/-- Every activation but the innermost is parked, and was interrupted in SVC mode. -/
def Nested : List Activation → Prop
  | a :: b :: rest => a.taken.mode = .svc ∧ Parked b ∧ Nested (b :: rest)
  | _ => True

theorem unmasked_point {h : Handler} {pc : Nat} (hpt : h.point pc = some pt)
    (hm : pt.masked = false) : pt.mode = .svc ∧ pt.r4 = false := by
  have hall : ∀ q ∈ h.entry :: h.points, q.masked = false → q.mode = .svc ∧ q.r4 = false := by
    cases h <;> decide
  exact hall pt (List.mem_of_getElem? hpt) hm

/-- Outside the windows an unmasked handler does not depend on SPSR. -/
theorem home_of_not_window {h : Handler} {pc : Nat} (hpt : h.point pc = some pt)
    (hm : pt.masked = false) (hw : ¬ InWindow h pc) : pt.home ≠ .spsr := by
  have hall : ∀ i : Fin 22, ∀ q ∈ h.point i, q.masked = false → q.home = .spsr →
      InWindow h i := by
    cases h <;> decide
  have hlt : pc < 22 := by
    have hlen := (List.getElem?_eq_some_iff.mp hpt).1
    have hmax : (h.entry :: h.points).length ≤ 22 := by cases h <;> decide
    omega
  exact fun hb => hw (hall ⟨pc, hlt⟩ pt hpt hm hb)

theorem Parked.resume (h : Parked a) (hm : p.cpsr.mode = .svc) :
    ∃ pt, a.handler.point a.pc = some pt ∧ At p a pt := by
  obtain ⟨pt, hpt, hmask, hkept⟩ := h
  obtain ⟨hmode, hr4⟩ := unmasked_point hpt hmask
  refine ⟨pt, hpt, hm.trans hmode.symm, ?_, ?_, ?_⟩
  · rw [hmask]
    simp
  · rw [hr4]
    simp
  · rcases hkept with ⟨hh, hv⟩ | ⟨hh, hv⟩
    · rw [hh, ← hv]
      rfl
    · rw [hh, ← hv]
      rfl

theorem At.park (h : At p a pt) (hpt : a.handler.point a.pc = some pt)
    (hm : p.cpsr.masked = false) (hw : ¬ InWindow a.handler a.pc) :
    p.cpsr.mode = .svc ∧ Parked a := by
  have hmask : pt.masked = false := by
    by_contra hne
    have hbad := h.masked (by simpa using hne)
    rw [hm] at hbad
    cases hbad
  refine ⟨h.mode.trans (unmasked_point hpt hmask).1, pt, hpt, hmask, ?_⟩
  have hhome := h.home
  cases hh : pt.home with
  | spsr => exact absurd hh (home_of_not_window hpt hmask hw)
  | reg =>
    rw [hh] at hhome
    exact Or.inl ⟨rfl, Option.some.inj hhome⟩
  | slot =>
    rw [hh] at hhome
    exact Or.inr ⟨rfl, Option.some.inj hhome⟩

/-- What is next, seen from the outline. -/
theorem At.lead {i : Insn} (hpt : a.handler.point a.pc = some pt)
    (hi : a.handler.code[a.pc]? = some i) :
    (i = .ret ∧ pt = .last) ∨
      ∃ pt', a.handler.point (a.pc + 1) = some pt' ∧ i.Leads pt pt' := by
  obtain ⟨hout, hlen⟩ := a.handler.outline
  exact hout.lead hlen hi hpt

/-- While its C handler runs an activation has the CPSR to return to on its stack. -/
theorem body_point (hpt : a.handler.point a.pc = some pt)
    (hi : a.handler.code[a.pc]? = some .call) :
    pt = .body ∧ a.handler.point (a.pc + 1) = some .body := by
  rcases At.lead hpt hi with ⟨hb, _⟩ | ⟨pt', hpt', hl⟩
  · cases hb
  · rw [hl.2] at hpt'
    exact ⟨hl.1, hpt'⟩

/-- The innermost activation is at its point, and the others are parked. -/
def Ordered (p : Cpu) : Prop :=
  Nested p.stack ∧ ∀ a ∈ p.stack.head?, ∃ pt, a.handler.point a.pc = some pt ∧ At p a pt

/-- Every stack can run on from where it is. -/
structure Sound (p : Cpu) : Prop where
  running : Ordered p
  switched : ∀ st ∈ p.switched, Nested st ∧ ∀ a ∈ st.head?, Parked a

theorem Sound.inBody (h : Sound p) (hb : p.inBody = some (a, rest)) :
    p.stack = a :: rest ∧ a.handler.code[a.pc]? = some .call ∧
      a.handler.point a.pc = some .body ∧ At p a .body := by
  unfold Cpu.inBody at hb
  split at hb
  · cases hb
  · rename_i b tail hst
    split_ifs at hb with hcall
    cases hb
    obtain ⟨pt, hpt, hat⟩ := h.running.2 a (by rw [hst]; rfl)
    obtain ⟨rfl, _⟩ := body_point hpt hcall
    exact ⟨hst, hcall, hpt, hat⟩

/-- In its C handler the running activation is parked. -/
theorem Sound.park_body (h : Sound p) (hb : p.inBody = some (a, rest)) :
    Nested p.stack ∧ ∀ b ∈ p.stack.head?, Parked b := by
  obtain ⟨hst, _, hpt, hat⟩ := h.inBody hb
  refine ⟨h.running.1, fun b hm => ?_⟩
  rw [hst] at hm
  cases hm
  exact ⟨.body, hpt, rfl, Or.inr ⟨rfl, Option.some.inj hat.home⟩⟩

theorem Nested.replace (h : Nested (a :: rest)) (ht : a'.taken = a.taken) :
    Nested (a' :: rest) := by
  cases rest with
  | nil => trivial
  | cons b rest =>
    rw [Nested, ht]
    exact h

theorem Sound.user {flags : Nat} (h : Sound p) (hs : p.step (.user flags) = some p') :
    Sound p' := by
  rw [Cpu.step] at hs
  split at hs
  · rename_i hst
    cases hs
    exact ⟨⟨h.running.1, fun a hm => by rw [hst] at hm; cases hm⟩, h.switched⟩
  · cases hs

theorem Sound.swi {r r4 slot : Psr} (h : Sound p) (hs : p.step (.swi r r4 slot) = some p') :
    Sound p' := by
  rw [Cpu.step] at hs
  split at hs
  · cases hs
    refine ⟨⟨trivial, fun a hm => ?_⟩, h.switched⟩
    cases hm
    exact ⟨Handler.swi.entry, rfl, rfl, fun _ => rfl, fun hb => (by cases hb), rfl⟩
  · cases hs

/-- An interrupt outside the windows finds the handler it stops parked. -/
theorem Sound.irq {r r4 slot : Psr} (h : Sound p) (hok : noWindowIrq p (.irq r r4 slot))
    (hs : p.step (.irq r r4 slot) = some p') : Sound p' := by
  rw [Cpu.step] at hs
  split_ifs at hs with hm
  have hm' : p.cpsr.masked = false := by simpa using hm
  cases hs
  refine ⟨⟨?_, fun a ha => ?_⟩, h.switched⟩
  · cases hst : p.stack with
    | nil => trivial
    | cons b rest =>
      have hb : b ∈ p.stack.head? := by rw [hst]; rfl
      obtain ⟨pt, hpt, hat⟩ := h.running.2 b hb
      obtain ⟨hmode, hpark⟩ := hat.park hpt hm' (hok b hb)
      have hn := h.running.1
      rw [hst] at hn
      exact ⟨hmode, hpark, hn⟩
  · cases ha
    exact ⟨Handler.irq.entry, rfl, rfl, fun _ => rfl, fun hb => (by cases hb), rfl⟩

/-- A return finds the CPSR of the exception in SPSR. -/
theorem Sound.ret (h : Sound p) (hst : p.stack = a :: rest)
    (hret : a.handler.code[a.pc]? = some .ret) : p.spsr = some a.taken := by
  obtain ⟨pt, hpt, hat⟩ := h.running.2 a (by rw [hst]; rfl)
  rcases At.lead hpt hret with ⟨_, rfl⟩ | ⟨_, _, hl⟩
  · exact hat.home
  · exact absurd hl id

theorem Sound.insn (h : Sound p) (hs : p.step (.insn junk) = some p') : Sound p' := by
  rw [Cpu.step, Cpu.insn] at hs
  split at hs
  · cases hs
  · rename_i a rest hst
    have hn := h.running.1
    rw [hst] at hn
    split at hs
    · cases hs
    · rename_i hret
      -- the handler below runs again, with the CPSR it was interrupted at
      rw [h.ret hst hret] at hs
      cases hs
      cases rest with
      | nil => exact ⟨⟨trivial, fun b hm => by cases hm⟩, h.switched⟩
      | cons b rest =>
        refine ⟨⟨hn.2.2, fun c hm => ?_⟩, h.switched⟩
        cases hm
        exact hn.2.1.resume hn.1
    · rename_i i hne hi
      obtain ⟨⟨q, a'⟩, he, heq⟩ := Option.map_eq_some_iff.mp hs
      obtain ⟨pt, hpt, hat⟩ := h.running.2 a (by rw [hst]; rfl)
      rcases At.lead hpt hi with ⟨hret, _⟩ | ⟨pt', hpt', hl⟩
      · exact absurd hret hne
      obtain ⟨hat', hh, hpc, ht, _, hsw⟩ := exec_leads hat hl he
      cases heq
      refine ⟨⟨hn.replace ht, fun b hm => ?_⟩, ?_⟩
      · cases hm
        refine ⟨pt', ?_, ⟨hat'.mode, hat'.masked, hat'.r4, ?_⟩⟩
        · change a'.handler.point (a'.pc + 1) = some pt'
          rw [hh, hpc]
          exact hpt'
        · have hhome := hat'.home
          cases hpt : pt'.home <;> rw [hpt] at hhome <;> exact hhome
      · intro st hm
        apply h.switched st
        rw [← hsw]
        exact hm

theorem Sound.body {masked : Bool} {flags : Nat} (h : Sound p)
    (hs : p.step (.body masked flags) = some p') : Sound p' := by
  obtain ⟨⟨a, rest⟩, hb, heq⟩ := Option.map_eq_some_iff.mp hs
  obtain ⟨hst, hcall, hpt, hat⟩ := h.inBody hb
  cases heq
  refine ⟨⟨h.running.1, fun b hm => ?_⟩, h.switched⟩
  change b ∈ p.stack.head? at hm
  rw [hst] at hm
  cases hm
  exact ⟨.body, hpt, hat.mode, fun hb => (by cases hb), fun hb => (by cases hb), hat.home⟩

theorem Sound.bodyReturn (h : Sound p) (hs : p.step .bodyReturn = some p') : Sound p' := by
  obtain ⟨⟨a, rest⟩, hb, heq⟩ := Option.map_eq_some_iff.mp hs
  obtain ⟨hst, hcall, hpt, hat⟩ := h.inBody hb
  cases heq
  have hn := h.running.1
  rw [hst] at hn
  refine ⟨⟨hn.replace rfl, fun b hm => ?_⟩, h.switched⟩
  cases hm
  exact ⟨.body, (body_point hpt hcall).2, hat.mode, hat.masked, hat.r4, hat.home⟩

/-- The task switched to continues in its C handler, so it needs nothing but SVC mode. -/
theorem Sound.switchTo {i : Nat} (h : Sound p) (hs : p.step (.switchTo i) = some p') :
    Sound p' := by
  rw [Cpu.step] at hs
  split at hs
  · rename_i top other hb hi
    obtain ⟨a, rest⟩ := top
    obtain ⟨_, _, _, hat⟩ := h.inBody hb
    cases hs
    obtain ⟨hn, hpark⟩ := h.switched other (List.mem_of_getElem? hi)
    refine ⟨⟨hn, fun b hm => (hpark b hm).resume hat.mode⟩, fun st hm => ?_⟩
    rcases List.mem_or_eq_of_mem_set hm with hold | rfl
    · exact h.switched st hold
    · exact h.park_body hb
  · cases hs

theorem Sound.launch (h : Sound p) (hs : p.step .launch = some p') : Sound p' := by
  obtain ⟨⟨a, rest⟩, hb, heq⟩ := Option.map_eq_some_iff.mp hs
  have hpark := h.park_body hb
  cases heq
  refine ⟨⟨trivial, fun b hm => by cases hm⟩, fun st hm => ?_⟩
  rcases List.mem_cons.mp hm with rfl | hold
  · exact hpark
  · exact h.switched st hold

theorem Sound.step {x : Action} (h : Sound p) (hok : noWindowIrq p x)
    (hs : p.step x = some p') : Sound p' := by
  cases x with
  | user flags => exact h.user hs
  | swi r r4 slot => exact h.swi hs
  | irq r r4 slot => exact h.irq hok hs
  | insn junk => exact h.insn hs
  | body masked flags => exact h.body hs
  | bodyReturn => exact h.bodyReturn hs
  | switchTo i => exact h.switchTo hs
  | launch => exact h.launch hs

theorem Run.sound (h : Run noWindowIrq p) : Sound p := by
  induction h with
  | start hcode hnone =>
    refine ⟨⟨?_, ?_⟩, ?_⟩
    · rw [hcode]
      trivial
    · rw [hcode]
      intro a ha
      cases ha
    · rw [hnone]
      intro st hst
      cases hst
  | step _ x hok hs ih => exact ih.step hok hs

/-- A return resumes at the CPSR that its exception found. -/
theorem exceptionReturn (h : Run noWindowIrq p) (hst : p.stack = a :: rest)
    (hret : a.handler.code[a.pc]? = some .ret) (hs : p.step (.insn junk) = some p') :
    p'.cpsr = a.taken := by
  rw [Cpu.step, Cpu.insn, hst] at hs
  simp only [hret, h.sound.ret hst hret, Option.map_some, Option.some.injEq] at hs
  rw [← hs]

instance : ∀ (p : Cpu) (x : Action), Decidable (noWindowIrq p x)
  | p, .irq _ _ _ => inferInstanceAs (Decidable (∀ a ∈ p.stack.head?, ¬ InWindow a.handler a.pc))
  | _, .user _ => isTrue trivial
  | _, .swi _ _ _ => isTrue trivial
  | _, .insn _ => isTrue trivial
  | _, .body _ _ => isTrue trivial
  | _, .bodyReturn => isTrue trivial
  | _, .switchTo _ => isTrue trivial
  | _, .launch => isTrue trivial

/-- Perform a list of actions; `none` when one is not allowed or not possible. -/
def perform (ok : Cpu → Action → Prop) [∀ p x, Decidable (ok p x)] :
    List Action → Cpu → Option Cpu
  | [], p => some p
  | x :: actions, p => if ok p x then (p.step x).bind (perform ok actions) else none

theorem perform_run {ok : Cpu → Action → Prop} [∀ p x, Decidable (ok p x)]
    {actions : List Action} (hr : Run ok p) (h : perform ok actions p = some p') : Run ok p' := by
  induction actions generalizing p with
  | nil =>
    cases h
    exact hr
  | cons x actions ih =>
    rw [perform] at h
    split_ifs at h with hok
    obtain ⟨q, hq, hrest⟩ := Option.bind_eq_some_iff.mp h
    exact ih (.step hr x hok hq) hrest

/-- User code with interrupts unmasked. -/
def userCpu : Cpu := ⟨⟨.usr, false, 0⟩, ⟨.usr, false, 0⟩, ⟨.usr, false, 0⟩, [], []⟩

/-- A system call up to its return, with an interrupt after `before` of its instructions. -/
def interruptedCall (before : Nat) : List Action :=
  let psr : Psr := ⟨.usr, false, 0⟩
  let interrupt := .irq psr psr psr :: List.replicate 16 (.insn psr) ++
    [.body true 0, .body false 0, .bodyReturn] ++ List.replicate 4 (.insn psr)
  .swi psr psr psr :: List.replicate before (.insn psr) ++ interrupt ++
    List.replicate (14 - before) (.insn psr) ++ [.bodyReturn] ++ List.replicate 6 (.insn psr)

/-- An interrupt in the body of a system call does no harm. -/
theorem exceptionReturn_interrupted : ∃ p p' a rest, Run noWindowIrq p ∧ p.stack = a :: rest ∧
    a.taken.mode = .usr ∧ p.step (.insn userCpu.cpsr) = some p' ∧ p'.cpsr = a.taken := by
  have hx : (perform noWindowIrq (interruptedCall 10) userCpu).map (fun p =>
      (p.stack.head?.map fun a => (a.handler.code[a.pc]?, a.taken.mode),
        (p.step (.insn userCpu.cpsr)).isSome)) = some (some (some .ret, .usr), true) := by
    decide +kernel
  obtain ⟨p, hp, hv⟩ := Option.map_eq_some_iff.mp hx
  obtain ⟨hhead, hstep⟩ := Prod.mk.inj hv
  obtain ⟨a, ha, hret⟩ := Option.map_eq_some_iff.mp hhead
  obtain ⟨hcode, hmode⟩ := Prod.mk.inj hret
  obtain ⟨rest, hst⟩ := List.head?_eq_some_iff.mp ha
  obtain ⟨p', hs⟩ := Option.isSome_iff_exists.mp hstep
  have hrun : Run noWindowIrq p := perform_run (.start rfl rfl) hp
  exact ⟨p, p', a, rest, hrun, hst, hmode, hs, exceptionReturn hrun hst hcode hs⟩

/-- An interrupt before `S_Handler` has read SPSR returns user code in SVC mode. -/
theorem windowIrq_returns_svc : ∃ p p' a rest, Run (fun _ _ => True) p ∧ p.stack = a :: rest ∧
    a.handler.code[a.pc]? = some .ret ∧ p.step (.insn userCpu.cpsr) = some p' ∧
    a.taken.mode = .usr ∧ p'.cpsr.mode = .svc := by
  have hx : (perform (fun _ _ => True) (interruptedCall 7) userCpu).map (fun p =>
      (p.stack.head?.map fun a => (a.handler.code[a.pc]?, a.taken.mode),
        (p.step (.insn userCpu.cpsr)).map fun p' => p'.cpsr.mode)) =
      some (some (some .ret, .usr), some .svc) := by
    decide +kernel
  obtain ⟨p, hp, hv⟩ := Option.map_eq_some_iff.mp hx
  obtain ⟨hhead, hstep⟩ := Prod.mk.inj hv
  obtain ⟨a, ha, hret⟩ := Option.map_eq_some_iff.mp hhead
  obtain ⟨hcode, hmode⟩ := Prod.mk.inj hret
  obtain ⟨rest, hst⟩ := List.head?_eq_some_iff.mp ha
  obtain ⟨p', hs, hmode'⟩ := Option.map_eq_some_iff.mp hstep
  exact ⟨p, p', a, rest, perform_run (.start rfl rfl) hp, hst, hcode, hs, hmode, hmode'⟩

end Cpu

end RtosKernel
