import Mathlib.Order.Interval.Set.Basic
import RtosKernel.Kernel.Io

namespace RtosKernel

variable {buf count a i : BitVec 32} {mem : Memory} {st : IoState} {n : Nat}

/-- The `count` bytes from `buf` upward, without wrapping. -/
def byteRange (buf count : BitVec 32) : Set Nat := Set.Ico buf.toNat (buf.toNat + count.toNat)

/-- The ROM that `write_syscall` may read. -/
def rom : Set Nat := Set.Icc romStart.toNat romEnd.toNat

def sdram : Set Nat := Set.Icc sdramStart.toNat sdramEnd.toNat

theorem mem_rom : n ∈ rom ↔ n ≤ 0x00ffffff := by
  show 0 ≤ n ∧ n ≤ 0x00ffffff ↔ _
  omega

theorem mem_sdram : n ∈ sdram ↔ 0xa0000000 ≤ n ∧ n ≤ 0xa3ffffff := Iff.rfl

theorem byteRange_subset_rom (hcount : 1 ≤ count) :
    byteRange buf count ⊆ rom ↔ buf.toNat + count.toNat ≤ 0x01000000 := by
  have hpos : 1 ≤ count.toNat := hcount
  constructor
  · intro h
    have hlast := mem_rom.mp (@h (buf.toNat + count.toNat - 1) ⟨by omega, by omega⟩)
    omega
  · intro h a ha
    have hlt : a < buf.toNat + count.toNat := ha.2
    exact mem_rom.mpr (by omega)

theorem byteRange_subset_sdram (hcount : 1 ≤ count) :
    byteRange buf count ⊆ sdram ↔
      0xa0000000 ≤ buf.toNat ∧ buf.toNat + count.toNat ≤ 0xa4000000 := by
  have hpos : 1 ≤ count.toNat := hcount
  constructor
  · intro h
    have hfirst := mem_sdram.mp (@h buf.toNat ⟨by omega, by omega⟩)
    have hlast := mem_sdram.mp (@h (buf.toNat + count.toNat - 1) ⟨by omega, by omega⟩)
    omega
  · intro h a ha
    have hge : buf.toNat ≤ a := ha.1
    have hlt : a < buf.toNat + count.toNat := ha.2
    exact mem_sdram.mpr (by omega)

namespace IoState

theorem writeLoop_eq (buffer : BitVec 32) (k : Nat) (i : BitVec 32) (st : IoState)
    (h : i.toNat + k = count.toNat) :
    writeLoop buffer count i st =
      { st with
        output := st.output ++
          (List.range' i.toNat k).map (fun j => st.mem (buffer + BitVec.ofNat 32 j))
        loads := st.loads ++ (List.range' i.toNat k).map (buffer + BitVec.ofNat 32 ·) } := by
  induction k generalizing i st with
  | zero =>
    have hge : ¬ i < count := by bv_omega
    rw [writeLoop, dif_neg hge]
    simp
  | succ k ih =>
    have hlt : i < count := by bv_omega
    have hcount := count.isLt
    have hnext : (i + 1).toNat = i.toNat + 1 :=
      Memory.offset_toNat (by show _ + 1 < _; omega)
    rw [writeLoop, dif_pos hlt, ih (i + 1) _ (by omega), hnext, List.range'_succ]
    simp [putc, load]

/-- The whole loop puts out the bytes from `buf` upward. -/
theorem writeLoop_all : writeLoop buf count 0 st =
    { st with
      output := st.output ++
        (List.range count.toNat).map (fun j => st.mem (buf + BitVec.ofNat 32 j))
      loads := st.loads ++ (List.range count.toNat).map (buf + BitVec.ofNat 32 ·) } := by
  rw [writeLoop_eq buf count.toNat 0 st (Nat.zero_add _), List.range_eq_range']
  rfl

theorem mem_loads (h : i < count) :
    buf + i ∈ (writeLoop buf count 0 (enter mem)).loads := by
  rw [writeLoop_all]
  apply List.mem_map.mpr
  exact ⟨i.toNat, List.mem_range.mpr h, by rw [Memory.ofNat_index]⟩

/-- `write_syscall` looks at the first address and at the address after the last, which may have
wrapped. -/
def EndsAccepted (buf count : BitVec 32) : Prop :=
  buf.toNat ∈ rom ∪ sdram ∧ (buf + count).toNat ∈ rom ∪ sdram

theorem writeSyscall_accepted (h : EndsAccepted buf count) :
    writeSyscall stdoutFileno buf count st = (count.toInt, writeLoop buf count 0 st) := by
  obtain ⟨hfirst, hafter⟩ := h
  simp only [Set.mem_union, mem_rom, mem_sdram] at hfirst hafter
  unfold writeSyscall
  rw [if_neg (not_not.mpr rfl), if_neg]
  unfold romEnd sdramStart sdramEnd
  bv_omega

theorem writeSyscall_refused (h : ¬ EndsAccepted buf count) :
    writeSyscall stdoutFileno buf count st = (-Errno.eFault, st) := by
  have hends : ¬ ((buf.toNat ≤ 0x00ffffff ∨ 0xa0000000 ≤ buf.toNat ∧ buf.toNat ≤ 0xa3ffffff) ∧
      ((buf + count).toNat ≤ 0x00ffffff ∨
        0xa0000000 ≤ (buf + count).toNat ∧ (buf + count).toNat ≤ 0xa3ffffff)) := by
    simpa only [EndsAccepted, Set.mem_union, mem_rom, mem_sdram] using h
  unfold writeSyscall
  rw [if_neg (not_not.mpr rfl), if_pos]
  unfold romEnd sdramStart sdramEnd
  bv_omega

/-- What `write_syscall` is to do with its buffer. -/
structure Writes (buf count : BitVec 32) (mem : Memory) (res : Int × IoState) : Prop where
  fault : res.1 = -Errno.eFault ↔ ¬ (byteRange buf count ⊆ rom ∨ byteRange buf count ⊆ sdram)
  output : byteRange buf count ⊆ rom ∨ byteRange buf count ⊆ sdram →
    res.1 = count.toNat ∧ res.2.output =
      (List.range count.toNat).map fun k => mem (BitVec.ofNat 32 (buf.toNat + k))
  loads : ∀ a ∈ res.2.loads, a.toNat ∈ rom ∪ sdram

/-- The buffers that the two end points misjudge: those that end with the last byte of a region,
those that start in ROM and end in SDRAM, and those that wrap back into a region. -/
def EndsMislead (buf count : BitVec 32) : Prop :=
  buf.toNat + count.toNat = romEnd.toNat + 1 ∨
  (buf.toNat ∈ sdram ∧ buf.toNat + count.toNat = sdramEnd.toNat + 1) ∨
  (buf.toNat ∈ rom ∧ buf.toNat + count.toNat ∈ sdram) ∨
  (buf.toNat ∈ rom ∪ sdram ∧ 2 ^ 32 ≤ buf.toNat + count.toNat ∧ (buf + count).toNat ∈ rom ∪ sdram)

/-- The check agrees with the true range exactly where the end points do not mislead. -/
theorem endsMislead_iff (hcount : 1 ≤ count) : EndsMislead buf count ↔
    (EndsAccepted buf count ↔ ¬ (byteRange buf count ⊆ rom ∨ byteRange buf count ⊆ sdram)) := by
  have hpos : 1 ≤ count.toNat := hcount
  have hbuf := buf.isLt
  have hn := count.isLt
  rw [byteRange_subset_rom hcount, byteRange_subset_sdram hcount]
  unfold EndsMislead EndsAccepted romEnd sdramEnd
  simp only [Set.mem_union, mem_rom, mem_sdram, BitVec.toNat_add, BitVec.reduceToNat]
  omega

/-- A buffer that is accepted and lies in no region takes the loop into the hole between the
regions or to the end of the address space. -/
theorem loads_outside (mem : Memory) (haccept : EndsAccepted buf count)
    (hout : ¬ (byteRange buf count ⊆ rom ∨ byteRange buf count ⊆ sdram)) :
    ∃ a ∈ (writeLoop buf count 0 (enter mem)).loads, a.toNat ∉ rom ∪ sdram := by
  have hcount : 1 ≤ count := by
    by_contra hzero
    apply hout
    left
    intro n hn
    have hlo : buf.toNat ≤ n := hn.1
    have hhi : n < buf.toNat + count.toNat := hn.2
    have hnone : count.toNat = 0 := by bv_omega
    omega
  have hpos : 1 ≤ count.toNat := hcount
  have hbuf := buf.isLt
  have hends := haccept
  unfold EndsAccepted at hends
  rw [byteRange_subset_rom hcount, byteRange_subset_sdram hcount] at hout
  simp only [Set.mem_union, mem_rom, mem_sdram, BitVec.toNat_add] at hends
  have houtside : ∀ b : BitVec 32, b = 0x01000000 ∨ b = 0xffffffff → b.toNat ∉ rom ∪ sdram := by
    rintro b (rfl | rfl) <;> simp [mem_rom, mem_sdram]
  by_cases hwrap : buf.toNat + count.toNat < 2 ^ 32
  · refine ⟨buf + (0x01000000 - buf), mem_loads (by bv_omega), houtside _ (Or.inl (by bv_omega))⟩
  · refine ⟨buf + (0xffffffff - buf), mem_loads (by bv_omega), houtside _ (Or.inr (by bv_omega))⟩

/-- Inside one region the loop reads that region only. -/
theorem loads_inside (hin : byteRange buf count ⊆ rom ∨ byteRange buf count ⊆ sdram)
    (ha : a ∈ (writeLoop buf count 0 (enter mem)).loads) (hfit : buf.toNat + count.toNat ≤ 2 ^ 32) :
    a.toNat ∈ rom ∪ sdram := by
  rw [writeLoop_all] at ha
  obtain ⟨k, hk, rfl⟩ := List.mem_map.mp ha
  have hlt := List.mem_range.mp hk
  have haddr : (buf + BitVec.ofNat 32 k).toNat ∈ byteRange buf count := by
    constructor <;> bv_omega
  rcases hin with hrom | hsdram
  · exact Or.inl (hrom haddr)
  · exact Or.inr (hsdram haddr)

/-- `write_syscall` does what it is to do exactly on the buffers that do not mislead it. -/
theorem write_contract (hcount : 1 ≤ count) :
    Writes buf count mem (writeSyscall stdoutFileno buf count (enter mem)) ↔
      ¬ EndsMislead buf count := by
  rw [endsMislead_iff hcount]
  by_cases haccept : EndsAccepted buf count
  · rw [writeSyscall_accepted haccept]
    by_cases hin : byteRange buf count ⊆ rom ∨ byteRange buf count ⊆ sdram
    · have hfit : count.toNat ≤ 0x04000000 ∧ buf.toNat + count.toNat ≤ 2 ^ 32 := by
        rw [byteRange_subset_rom hcount, byteRange_subset_sdram hcount] at hin
        omega
      have hret : count.toInt = count.toNat := BitVec.toInt_eq_toNat_of_lt (by omega)
      refine iff_of_true ⟨?_, fun _ => ⟨hret, ?_⟩, fun a ha => loads_inside hin ha hfit.2⟩
        (by simp [haccept, hin])
      · show count.toInt = -14 ↔ _
        rw [hret]
        refine iff_of_false (by omega) (not_not.mpr hin)
      · rw [writeLoop_all]
        show [] ++ _ = _
        rw [List.nil_append]
        apply List.map_congr_left
        intro k _
        rw [BitVec.ofNat_add, Memory.ofNat_index]
        rfl
    · refine iff_of_false ?_ (by simp [haccept, hin])
      intro h
      obtain ⟨a, ha, hout⟩ := loads_outside mem haccept hin
      exact hout (h.loads a ha)
  · rw [writeSyscall_refused haccept]
    by_cases hin : byteRange buf count ⊆ rom ∨ byteRange buf count ⊆ sdram
    · refine iff_of_false (fun h => h.fault.mp rfl hin) (by simp [haccept, hin])
    · refine iff_of_true ⟨iff_of_true rfl hin, fun h => absurd h hin, ?_⟩ (by simp [haccept, hin])
      intro a ha
      cases ha

/-- Two bytes from the start of SDRAM. -/
theorem write_contract_sdram : (1 : BitVec 32) ≤ 2 ∧
    Writes 0xa0000000 2 (BitVec.setWidth 8)
      (writeSyscall stdoutFileno 0xa0000000 2 (enter (BitVec.setWidth 8))) := by
  refine ⟨by decide, (write_contract (by decide)).mpr ?_⟩
  unfold EndsMislead romEnd sdramEnd
  simp [mem_rom, mem_sdram]

/-- The last byte of SDRAM is refused. -/
theorem lastByte_refused : ¬ Writes 0xa3ffffff 1 (BitVec.setWidth 8)
    (writeSyscall stdoutFileno 0xa3ffffff 1 (enter (BitVec.setWidth 8))) := by
  intro h
  apply h.fault.mp rfl
  right
  rw [byteRange_subset_sdram (by decide)]
  decide

/-- A turn stores at the current index if it stores at all. -/
theorem readTurn_stores {buffer : BitVec 32} {tmp : BitVec 8}
    (ha : a ∈ (st.readTurn buffer tmp i).2.stores) : a ∈ st.stores ∨ a = buffer + i := by
  unfold readTurn at ha
  split_ifs at ha
  · exact List.mem_append.mp ha |>.imp_right List.mem_singleton.mp
  · exact Or.inl ha
  · exact Or.inl ha
  · exact List.mem_append.mp ha |>.imp_right List.mem_singleton.mp
  · exact List.mem_append.mp ha |>.imp_right List.mem_singleton.mp

theorem readTurn_ret {buffer i' : BitVec 32} {tmp : BitVec 8} {st' : IoState}
    (h : st.readTurn buffer tmp i = (.ret i', st')) : i' = i := by
  unfold readTurn at h
  split_ifs at h <;> cases h <;> rfl

/-- Invariant rule of the loop, over every input: the turns at indices below `count` keep `I`, and
from `I` the loop waits or returns in `Q`. -/
theorem readLoop_rule {buffer : BitVec 32} {input : List (BitVec 8)} {I : IoState → Prop}
    {Q : Option Int → IoState → Prop} (h : I st)
    (hturn : ∀ st i tmp, i < count → I st → I (st.readTurn buffer tmp i).2)
    (hwait : ∀ st, I st → Q none st)
    (hret : ∀ st i, i ≤ count → I st → Q (some i.toInt) st) :
    Q (readLoop buffer count i input st).ret (readLoop buffer count i input st).state := by
  induction input generalizing i st with
  | nil =>
    rw [readLoop]
    split_ifs
    · exact hwait st h
    · exact hret st count (BitVec.le_refl count) h
  | cons tmp input ih =>
    rw [readLoop]
    split_ifs with hi
    · have hkept := hturn st i tmp hi h
      cases hres : st.readTurn buffer tmp i with
      | mk turn st' =>
      rw [hres] at hkept
      cases turn with
      | next i' => exact ih hkept
      | ret i' =>
        rw [readTurn_ret hres]
        exact hret st' i (BitVec.le_of_lt hi) hkept
    · exact hret st count (BitVec.le_refl count) h

/-- However the index moves, every store is at an index below `count`. -/
theorem readLoop_stores {buffer : BitVec 32} {input : List (BitVec 8)}
    (ha : a ∈ (readLoop buffer count i input st).state.stores) :
    a ∈ st.stores ∨ ∃ j < count, a = buffer + j := by
  revert a
  apply readLoop_rule
    (I := fun st' => ∀ a ∈ st'.stores, a ∈ st.stores ∨ ∃ j < count, a = buffer + j)
    (Q := fun _ st' => ∀ a ∈ st'.stores, a ∈ st.stores ∨ ∃ j < count, a = buffer + j)
  · intro a ha
    exact Or.inl ha
  · intro st' j tmp hj h a ha
    rcases readTurn_stores ha with hold | hnew
    · exact h a hold
    · exact Or.inr ⟨j, hj, hnew⟩
  · exact fun _ h => h
  · exact fun _ _ _ h => h

/-- A loop that returns gives back a length. -/
theorem readLoop_ret {buffer : BitVec 32} {input : List (BitVec 8)} {r : Int}
    (hcount : count.toNat < 2 ^ 31) (h : (readLoop buffer count i input st).ret = some r) :
    0 ≤ r := by
  revert r
  apply readLoop_rule (I := fun _ => True) (Q := fun ret _ => ∀ r, ret = some r → 0 ≤ r) trivial
  · exact fun _ _ _ _ _ => trivial
  · intro _ _ r hr
    cases hr
  · intro _ j hj _ r hr
    cases hr
    rw [Memory.toInt_index hcount hj]
    exact Int.natCast_nonneg _

/-- The buffers that `read_syscall` accepts: the start and the length are looked at apart. -/
def ReadAccepted (buf count : BitVec 32) : Prop :=
  buf.toNat ∈ sdram ∧ count.toNat ≤ sdramEnd.toNat - sdramStart.toNat

theorem readSyscall_accepted {input : List (BitVec 8)} (h : ReadAccepted buf count) :
    readSyscall stdinFileno buf count input st = readLoop buf count 0 input st := by
  obtain ⟨hbuf, hcount⟩ := h
  rw [mem_sdram] at hbuf
  unfold sdramEnd sdramStart at hcount
  unfold readSyscall
  rw [if_neg (not_not.mpr rfl), if_neg]
  unfold sdramStart sdramEnd
  bv_omega

theorem readSyscall_refused {input : List (BitVec 8)} (h : ¬ ReadAccepted buf count) :
    readSyscall stdinFileno buf count input st = ⟨some (-Errno.eFault), input, st⟩ := by
  have hends : ¬ ((0xa0000000 ≤ buf.toNat ∧ buf.toNat ≤ 0xa3ffffff) ∧ count.toNat ≤ 0x03ffffff) := h
  unfold readSyscall
  rw [if_neg (not_not.mpr rfl), if_pos]
  unfold sdramStart sdramEnd
  bv_omega

/-- `read_syscall` writes to SDRAM only, and to nothing if its buffer is not in SDRAM. -/
structure StoresInSdram (buf count : BitVec 32) (res : ReadResult) : Prop where
  stores : ∀ a ∈ res.state.stores, a.toNat ∈ sdram
  fault : ¬ byteRange buf count ⊆ sdram → res.ret = some (-Errno.eFault) ∧ res.state.stores = []

/-- The buffers that are accepted although they run past the end of SDRAM. -/
def RunsPastSdram (buf count : BitVec 32) : Prop :=
  ReadAccepted buf count ∧ sdramEnd.toNat + 1 < buf.toNat + count.toNat

/-- Whatever is typed, the stores are in bounds exactly if the buffer is not one of those. -/
theorem read_bounds (buf count : BitVec 32) (input : List (BitVec 8)) (mem : Memory) :
    StoresInSdram buf count (readSyscall stdinFileno buf count input (enter mem)) ↔
      ¬ RunsPastSdram buf count := by
  have hbuf := buf.isLt
  by_cases haccept : ReadAccepted buf count
  · rw [readSyscall_accepted haccept]
    have hcount : count.toNat ≤ 0x03ffffff := haccept.2
    have hstart := mem_sdram.mp haccept.1
    by_cases hpast : sdramEnd.toNat + 1 < buf.toNat + count.toNat
    · refine iff_of_false ?_ (not_not.mpr ⟨haccept, hpast⟩)
      intro h
      have hpast' : 0xa4000000 < buf.toNat + count.toNat := hpast
      have hout : ¬ byteRange buf count ⊆ sdram := by
        rw [byteRange_subset_sdram (show 1 ≤ count.toNat by omega)]
        omega
      have hret := readLoop_ret (by omega) (h.fault hout).1
      exact absurd hret (by decide)
    · have hfit : buf.toNat + count.toNat ≤ 0xa4000000 := Nat.le_of_not_lt hpast
      refine iff_of_true ⟨?_, ?_⟩ (fun h => hpast h.2)
      · intro a ha
        rcases readLoop_stores ha with hnone | ⟨j, hj, rfl⟩
        · cases hnone
        · have hj' : j.toNat < count.toNat := hj
          rw [mem_sdram, Memory.offset_toNat (by omega)]
          omega
      · intro hout
        exfalso
        apply hout
        intro n hn
        have hlo : buf.toNat ≤ n := hn.1
        have hhi : n < buf.toNat + count.toNat := hn.2
        exact mem_sdram.mpr (by omega)
  · rw [readSyscall_refused haccept]
    refine iff_of_true ⟨?_, fun _ => ⟨rfl, rfl⟩⟩ (fun h => haccept h.1)
    intro a ha
    cases ha

/-- Two characters typed into a buffer at the last byte of SDRAM. -/
theorem secondByte_outside : ¬ StoresInSdram 0xa3ffffff 2
    (readSyscall stdinFileno 0xa3ffffff 2 [0x61, 0x62] (enter (BitVec.setWidth 8))) := by
  intro h
  have hstores : (readSyscall stdinFileno 0xa3ffffff 2 [0x61, 0x62]
      (enter (BitVec.setWidth 8))).state.stores = [0xa3ffffff, 0xa4000000] := rfl
  have hin := mem_sdram.mp (h.stores 0xa4000000 (by rw [hstores]; simp))
  exact absurd hin (by decide)

end IoState

end RtosKernel
