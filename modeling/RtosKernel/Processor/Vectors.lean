import Mathlib.Data.List.Nodup
import Mathlib.Logic.Function.Basic
import Mathlib.Tactic.SplitIfs

namespace RtosKernel.Arm

/-- Words of memory at their byte addresses. -/
abbrev Words := Nat → BitVec 32

/-- `EX_SWI*4` -/
def swivec : BitVec 32 := 8
/-- `EX_IRQ*4` -/
def irqVec : BitVec 32 := 24

/-- `ldr pc, [pc, #-4]` -/
def ldrPcNext : BitVec 32 := 0xe51ff004

/-- Where `kmain` expects the word that the vector `vec` loads; `word` is the instruction there. -/
def vectorSlot (vec word : BitVec 32) : Option (BitVec 32) :=
  let offset := word - 0xe51ff000
  if offset &&& 0xfffff000 = 0x800000 then some (vec + (offset &&& 0xfff) + 8)
  else if offset &&& 0xfffff000 = 0 then some (vec - (offset &&& 0xfff) + 8)
  else none

/-- The first two words of a handler of the boot loader, and where they lie. -/
structure OldEntry where
  addr : BitVec 32
  oldvec1 : BitVec 32
  oldvec2 : BitVec 32

/-- `*addr = word1; *(addr + 1) = word2;` -/
def writeEntry (addr word1 word2 : BitVec 32) (mem : Words) : Words :=
  Function.update (Function.update mem addr.toNat word1) (addr + 4).toNat word2

/-- What `kmain` does with one vector; `none` when the installation fails. -/
def wire (vec handler : BitVec 32) (mem : Words) : Option (Words × OldEntry) :=
  (vectorSlot vec (mem vec.toNat)).map fun slot =>
    let addr := mem slot.toNat
    (writeEntry addr ldrPcNext handler mem, ⟨addr, mem addr.toNat, mem (addr + 4).toNat⟩)

/-- The installation in `kmain`: the memory, and what it restores later if it does not return
`0x0badc0de`. -/
def install (handler irqHandler : BitVec 32) (mem : Words) :
    Words × Option (OldEntry × OldEntry) :=
  match wire swivec handler mem with
  | none => (mem, none)
  | some (mem, swi) =>
    match wire irqVec irqHandler mem with
    | none => (mem, none)
    | some (mem, irq) => (mem, some (swi, irq))

def OldEntry.restore (old : OldEntry) (mem : Words) : Words :=
  writeEntry old.addr old.oldvec1 old.oldvec2 mem

/-- The value of `pc` after the instruction at `pc`, when that is `ldr pc, [pc, #n]` or
`ldr pc, [pc, #-n]`. -/
def ldrPc (mem : Words) (pc : BitVec 32) : Option (BitVec 32) :=
  let word := mem pc.toNat
  if word.extractLsb' 12 20 = 0xe59ff then some (mem (pc + 8 + (word &&& 0xfff)).toNat)
  else if word.extractLsb' 12 20 = 0xe51ff then some (mem (pc + 8 - (word &&& 0xfff)).toNat)
  else none

/-- Where an exception arrives after two instructions. -/
def arrives (mem : Words) (vec : BitVec 32) : Option (BitVec 32) :=
  (ldrPc mem vec).bind (ldrPc mem)

variable {mem mem' : Words} {vec word addr word1 word2 slot handler irqHandler : BitVec 32}
  {a : Nat}

section Decode

theorem toNat_and_low (x : BitVec 32) : (x &&& 0xfff).toNat = x.toNat % 4096 := by
  rw [BitVec.toNat_and]
  exact Nat.and_two_pow_sub_one_eq_mod x.toNat 12

theorem toNat_and_high (x : BitVec 32) : (x &&& 0xfffff000).toNat = x.toNat / 4096 * 4096 := by
  have hshift : x &&& (0xfffff000 : BitVec 32) = (x >>> 12) <<< 12 := by
    apply BitVec.eq_of_getLsbD_eq
    intro i hi
    have hmask : ∀ j : Fin 32, (0xfffff000#32).getLsbD j = decide (12 ≤ j.val) := by decide
    have hbit : (0xfffff000#32).getLsbD i = decide (12 ≤ i) := hmask ⟨i, hi⟩
    by_cases h : 12 ≤ i
    · have hback : 12 + (i - 12) = i := by omega
      have hnot : ¬ i < 12 := by omega
      simp [hbit, h, hi, hback, hnot]
    · have hlt : i < 12 := by omega
      simp [hbit, h, hlt]
  have hlt := x.isLt
  rw [hshift, BitVec.toNat_shiftLeft, BitVec.toNat_ushiftRight, Nat.shiftRight_eq_div_pow,
    Nat.shiftLeft_eq]
  omega

theorem extract_high (x : BitVec 32) : (x.extractLsb' 12 20).toNat = x.toNat / 4096 := by
  have hlt := x.isLt
  rw [BitVec.extractLsb'_toNat, Nat.shiftRight_eq_div_pow]
  omega

/-- The test and the address of `kmain` are those of the processor, for every instruction. -/
theorem ldrPc_eq (mem : Words) (pc : BitVec 32) :
    ldrPc mem pc = (vectorSlot pc (mem pc.toNat)).map fun slot => mem slot.toNat := by
  obtain ⟨word, hword⟩ : ∃ word, mem pc.toNat = word := ⟨_, rfl⟩
  have hbase : (0xe51ff000 : BitVec 32).toNat = 0xe51ff000 := rfl
  have hlow : (word - 0xe51ff000) &&& 0xfff = word &&& 0xfff := by
    apply BitVec.eq_of_toNat_eq
    rw [toNat_and_low, toNat_and_low, BitVec.toNat_sub, hbase]
    omega
  have hhigh : ((word - 0xe51ff000) &&& 0xfffff000).toNat =
      (2 ^ 20 - 0xe51ff + word.toNat / 4096) % 2 ^ 20 * 4096 := by
    have hlt := word.isLt
    rw [toNat_and_high, BitVec.toNat_sub, hbase]
    omega
  have hfield := extract_high word
  have hlt := word.isLt
  have hadd : (word - 0xe51ff000) &&& 0xfffff000 = 0x800000 ↔ word.extractLsb' 12 20 = 0xe59ff := by
    have hup : (0x800000 : BitVec 32).toNat = 0x800000 := rfl
    have hcode : (0xe59ff : BitVec 20).toNat = 0xe59ff := rfl
    rw [← BitVec.toNat_inj, ← BitVec.toNat_inj, hhigh, hfield, hup, hcode]
    omega
  have hsub : (word - 0xe51ff000) &&& 0xfffff000 = 0 ↔ word.extractLsb' 12 20 = 0xe51ff := by
    have hzero : (0 : BitVec 32).toNat = 0 := rfl
    have hcode : (0xe51ff : BitVec 20).toNat = 0xe51ff := rfl
    rw [← BitVec.toNat_inj, ← BitVec.toNat_inj, hhigh, hfield, hzero, hcode]
    omega
  have hup : pc + 8 + (word &&& 0xfff) = pc + (word &&& 0xfff) + 8 := by bv_omega
  have hdown : pc + 8 - (word &&& 0xfff) = pc - (word &&& 0xfff) + 8 := by bv_omega
  simp only [ldrPc, vectorSlot, hword, hadd, hsub, hlow, hup, hdown]
  split_ifs <;> rfl

end Decode

section Entry

/-- The words that the entry of a handler takes. -/
def entryWords (addr : BitVec 32) : List Nat := [addr.toNat, (addr + 4).toNat]

theorem writeEntry_first : writeEntry addr word1 word2 mem addr.toNat = word1 := by
  have hne : addr.toNat ≠ (addr + 4).toNat := by bv_omega
  rw [writeEntry, Function.update_of_ne hne]
  exact Function.update_self ..

theorem writeEntry_second : writeEntry addr word1 word2 mem (addr + 4).toNat = word2 :=
  Function.update_self ..

theorem writeEntry_outside (h : a ∉ entryWords addr) :
    writeEntry addr word1 word2 mem a = mem a := by
  simp only [entryWords, List.mem_cons, List.not_mem_nil, or_false, not_or] at h
  rw [writeEntry, Function.update_of_ne h.2, Function.update_of_ne h.1]

/-- Words written back where they were read. -/
theorem writeEntry_back : writeEntry addr (mem addr.toNat) (mem (addr + 4).toNat) mem' a =
    if a ∈ entryWords addr then mem a else mem' a := by
  split_ifs with h
  · simp only [entryWords, List.mem_cons, List.not_mem_nil, or_false] at h
    rcases h with rfl | rfl
    · exact writeEntry_first
    · exact writeEntry_second
  · exact writeEntry_outside h

/-- The new entry goes on to the word behind it. -/
theorem ldrPc_entry (h : mem addr.toNat = ldrPcNext) :
    ldrPc mem addr = some (mem (addr + 4).toNat) := by
  have hslot : vectorSlot addr ldrPcNext = some (addr - 4 + 8) := rfl
  have haddr : addr - 4 + 8 = addr + 4 := by bv_omega
  rw [ldrPc_eq, h, hslot, haddr, Option.map_some]

theorem arrives_entry (hslot : vectorSlot vec (mem vec.toNat) = some slot)
    (haddr : mem slot.toNat = addr) (hentry : mem addr.toNat = ldrPcNext)
    (hnext : mem (addr + 4).toNat = handler) : arrives mem vec = some handler := by
  rw [arrives, ldrPc_eq, hslot, Option.map_some, haddr, Option.bind_some, ldrPc_entry hentry, hnext]

theorem wire_eq (hslot : vectorSlot vec (mem vec.toNat) = some slot)
    (haddr : mem slot.toNat = addr) : wire vec handler mem =
      some (writeEntry addr ldrPcNext handler mem,
        ⟨addr, mem addr.toNat, mem (addr + 4).toNat⟩) := by
  rw [wire, hslot, Option.map_some, haddr]

end Entry

/-- `kmain` accepts the two instructions that load `pc` from a word near them, and finds that word.
The installation changes the entries of the two handlers of the boot loader and nothing else. An
exception then comes to the kernel after two instructions, and the restoring writes put back all
that was there, whatever has happened to other memory. The entries must not lie over each other,
over the vectors or over the words that these load. -/
theorem install_arrives (mem : Words) (handler irqHandler : BitVec 32) :
    (∀ pc, ldrPc mem pc = (vectorSlot pc (mem pc.toNat)).map fun slot => mem slot.toNat) ∧
    ∀ slot slot' addr addr', vectorSlot swivec (mem swivec.toNat) = some slot →
      vectorSlot irqVec (mem irqVec.toNat) = some slot' →
      mem slot.toNat = addr → mem slot'.toNat = addr' →
      (∀ a ∈ [swivec.toNat, irqVec.toNat, slot.toNat, slot'.toNat],
        a ∉ entryWords addr ∧ a ∉ entryWords addr') →
      (∀ a ∈ entryWords addr, a ∉ entryWords addr') →
      ∃ mem' swi irq, install handler irqHandler mem = (mem', some (swi, irq)) ∧
        arrives mem' swivec = some handler ∧ arrives mem' irqVec = some irqHandler ∧
        (∀ a, a ∉ entryWords addr → a ∉ entryWords addr' → mem' a = mem a) ∧
        ∀ later a, irq.restore (swi.restore later) a =
          if a ∈ entryWords addr ∨ a ∈ entryWords addr' then mem a else later a := by
  refine ⟨ldrPc_eq mem, ?_⟩
  intro slot slot' addr addr' hswi hirq haddr haddr' hapart hentries
  obtain ⟨mem₁, hmem₁⟩ : ∃ mem₁, writeEntry addr ldrPcNext handler mem = mem₁ := ⟨_, rfl⟩
  obtain ⟨mem₂, hmem₂⟩ : ∃ mem₂, writeEntry addr' ldrPcNext irqHandler mem₁ = mem₂ := ⟨_, rfl⟩
  have hkeep₁ {a : Nat} (ha : a ∉ entryWords addr) : mem₁ a = mem a := by
    rw [← hmem₁, writeEntry_outside ha]
  have hkeep₂ {a : Nat} (ha : a ∉ entryWords addr') : mem₂ a = mem₁ a := by
    rw [← hmem₂, writeEntry_outside ha]
  have hkeep {a : Nat} (ha : a ∈ [swivec.toNat, irqVec.toNat, slot.toNat, slot'.toNat]) :
      mem₁ a = mem a ∧ mem₂ a = mem a := by
    have h₁ := hkeep₁ (hapart a ha).1
    exact ⟨h₁, (hkeep₂ (hapart a ha).2).trans h₁⟩
  -- the entry of the IRQ handler is read after that of the SWI handler has been written
  have hold {a : Nat} (ha : a ∈ entryWords addr') : mem₁ a = mem a :=
    hkeep₁ fun h => hentries a h ha
  have hwire₁ : wire swivec handler mem =
      some (mem₁, ⟨addr, mem addr.toNat, mem (addr + 4).toNat⟩) := by
    rw [wire_eq hswi haddr, hmem₁]
  have hwire₂ : wire irqVec irqHandler mem₁ =
      some (mem₂, ⟨addr', mem addr'.toNat, mem (addr' + 4).toNat⟩) := by
    have hslot : vectorSlot irqVec (mem₁ irqVec.toNat) = some slot' := by
      rw [(hkeep (by simp)).1, hirq]
    have hload : mem₁ slot'.toNat = addr' := by rw [(hkeep (by simp)).1, haddr']
    rw [wire_eq hslot hload, hmem₂, hold (by simp [entryWords]), hold (by simp [entryWords])]
  refine ⟨mem₂, ⟨addr, mem addr.toNat, mem (addr + 4).toNat⟩,
    ⟨addr', mem addr'.toNat, mem (addr' + 4).toNat⟩, ?_, ?_, ?_, ?_, ?_⟩
  · simp only [install, hwire₁, hwire₂]
  · have hslot : vectorSlot swivec (mem₂ swivec.toNat) = some slot := by
      rw [(hkeep (by simp)).2, hswi]
    have hload : mem₂ slot.toNat = addr := by rw [(hkeep (by simp)).2, haddr]
    apply arrives_entry hslot hload
    · rw [hkeep₂ (hentries _ (by simp [entryWords])), ← hmem₁, writeEntry_first]
    · rw [hkeep₂ (hentries _ (by simp [entryWords])), ← hmem₁, writeEntry_second]
  · have hslot : vectorSlot irqVec (mem₂ irqVec.toNat) = some slot' := by
      rw [(hkeep (by simp)).2, hirq]
    have hload : mem₂ slot'.toNat = addr' := by rw [(hkeep (by simp)).2, haddr']
    apply arrives_entry hslot hload
    · rw [← hmem₂, writeEntry_first]
    · rw [← hmem₂, writeEntry_second]
  · intro a h h'
    rw [hkeep₂ h', hkeep₁ h]
  · intro later a
    rw [OldEntry.restore, OldEntry.restore, writeEntry_back, writeEntry_back]
    by_cases h' : a ∈ entryWords addr'
    · simp only [h', if_true, or_true]
    · simp only [h', if_false, or_false]

/-- Vectors that load the words at `0x100` and `0x104`. -/
def sampleVectors : Words := fun a =>
  if a = 8 then 0xe59ff0f0 else if a = 24 then 0xe59ff0e4 else if a = 0x100 then 0x1000
  else if a = 0x104 then 0x2000 else 0xe1a00000

theorem install_arrives_sample : ∃ mem' swi irq,
    install 0xa3000100 0xa3000200 sampleVectors = (mem', some (swi, irq)) ∧
      arrives mem' swivec = some 0xa3000100 ∧ arrives mem' irqVec = some 0xa3000200 ∧
      ∀ a, irq.restore (swi.restore mem') a = sampleVectors a := by
  have hswi : vectorSlot swivec (sampleVectors swivec.toNat) = some 0x100 := by decide
  have hirq : vectorSlot irqVec (sampleVectors irqVec.toNat) = some 0x104 := by decide
  have haddr : sampleVectors (0x100 : BitVec 32).toNat = 0x1000 := by decide
  have haddr' : sampleVectors (0x104 : BitVec 32).toNat = 0x2000 := by decide
  obtain ⟨mem', swi, irq, hok, harrives, harrives', hkeep, hback⟩ :=
    (install_arrives sampleVectors 0xa3000100 0xa3000200).2 _ _ _ _ hswi hirq haddr haddr'
      (by decide) (by decide)
  refine ⟨mem', swi, irq, hok, harrives, harrives', fun a => ?_⟩
  rw [hback]
  split_ifs with h
  · rfl
  · rw [not_or] at h
    exact hkeep a h.1 h.2

end RtosKernel.Arm
