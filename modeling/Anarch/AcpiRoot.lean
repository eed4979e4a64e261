import Anarch.ByteMemory
import Anarch.TransitionRun
import Mathlib.Order.Bounds.Defs

/-! The ACPI root table and the search for a table by its signature. The root table is mapped
whole, so its bytes are read at their physical addresses. -/
namespace Anarch.AcpiRoot
open TransitionRun

/-- The classes that implement `AcpiRoot`. -/
inductive Kind
  | rsdt
  | xsdt
  deriving DecidableEq, Repr

/-- The bytes of a slot, and of the header before the first one. -/
def Kind.width : Kind → ℕ
  | .rsdt => 4
  | .xsdt => 8

def headerSize : Word := 0x24

section
variable (kind : Kind) (mem : ByteMemory) (tableBase : Word) (num : BitVec 32)

def tableSize : Word := (mem.load32 (tableBase + 4)).setWidth 64

/-- `GetCount`, whose quotient is truncated to an `int`. -/
def getCount : BitVec 32 :=
  ((tableSize mem tableBase - headerSize) / BitVec.ofNat 64 kind.width).setWidth 32

/-- The address of `ptr[i]` in `GetTable`. -/
def slot (i : BitVec 32) : Word :=
  tableBase + headerSize + BitVec.ofNat 64 kind.width * i.signExtend 64

def getTable (i : BitVec 32) : PhysAddr :=
  match kind with
  | .rsdt => (mem.load32 (slot kind tableBase i)).setWidth 64
  | .xsdt => mem.load64 (slot kind tableBase i)

/-- An index, and those that `GetTable` was called with, the last one first. -/
structure Search where
  index : BitVec 32
  calls : List (BitVec 32)
  deriving DecidableEq, Repr

/-- A round of the loop of `FindTable`; `num` are the four letters of the name. -/
def findBody (s : Search) : Search ⊕ Search :=
  if s.index.slt (getCount kind mem tableBase) then
    if mem.load32 (getTable kind mem tableBase s.index) = num then
      .inr ⟨s.index, s.index :: s.calls⟩
    else .inl ⟨s.index + 1, s.index :: s.calls⟩
  else .inr ⟨-1, s.calls⟩

/-- `FindTable`, with at most so many rounds of its loop. -/
def findTable (rounds : ℕ) : Option Search := loop (findBody kind mem tableBase num) rounds ⟨0, []⟩

/-- The slot that `GetTable` reads lies inside the length of the table. -/
def Inside (i : BitVec 32) : Prop :=
  (slot kind tableBase i - tableBase).toNat + kind.width ≤ (tableSize mem tableBase).toNat

/-- The slots that lie wholly inside the length of the table. -/
def slots : ℕ := ((tableSize mem tableBase).toNat - 0x24) / kind.width

/-- The slots whose table has the signature. -/
def signed : Set ℕ :=
  {i | i < slots kind mem tableBase ∧
    mem.load32 (getTable kind mem tableBase (.ofNat 32 i)) = num}

end

section
variable {kind : Kind} {mem : ByteMemory} {tableBase : Word} {num : BitVec 32} {k : ℕ}

lemma tableSize_lt (mem : ByteMemory) (tableBase : Word) :
    (tableSize mem tableBase).toNat < 2 ^ 32 := by
  rw [tableSize, BitVec.toNat_setWidth]
  omega

lemma slots_lt : slots kind mem tableBase < 2 ^ 31 := by
  have hsize := tableSize_lt mem tableBase
  rw [slots]
  cases kind with
  | rsdt =>
    rw [Kind.width]
    omega
  | xsdt =>
    rw [Kind.width]
    omega

/-- A table shorter than its header has a negative count, any other the number of its slots. -/
lemma getCount_toInt (kind : Kind) (mem : ByteMemory) (tableBase : Word) :
    (getCount kind mem tableBase).toInt < 0 ∧ slots kind mem tableBase = 0 ∨
      (getCount kind mem tableBase).toInt = slots kind mem tableBase := by
  have hsize := tableSize_lt mem tableBase
  have hcount : (getCount kind mem tableBase).toNat =
      ((2 ^ 64 - 0x24 + (tableSize mem tableBase).toNat) % 2 ^ 64 / kind.width) % 2 ^ 32 := by
    rw [getCount, BitVec.toNat_setWidth, BitVec.toNat_udiv, BitVec.toNat_sub]
    cases kind <;> rfl
  have hslots : slots kind mem tableBase = ((tableSize mem tableBase).toNat - 0x24) / kind.width :=
    rfl
  rw [BitVec.toInt_eq_toNat_cond, hcount, hslots]
  cases kind with
  | rsdt =>
    simp only [Kind.width]
    split_ifs <;> omega
  | xsdt =>
    simp only [Kind.width]
    split_ifs <;> omega

lemma ofNat_toInt (hk : k < 2 ^ 31) : (BitVec.ofNat 32 k).toInt = k := by
  rw [BitVec.toInt_eq_toNat_of_lt]
  · rw [BitVec.toNat_ofNat, Nat.mod_eq_of_lt (by omega)]
  · rw [BitVec.toNat_ofNat]
    omega

lemma slt_getCount_iff (hk : k < 2 ^ 31) :
    (BitVec.ofNat 32 k).slt (getCount kind mem tableBase) = true ↔
      k < slots kind mem tableBase := by
  rw [BitVec.slt_iff_toInt_lt, ofNat_toInt hk]
  rcases getCount_toInt kind mem tableBase with ⟨hneg, hzero⟩ | h
  · omega
  · rw [h]
    omega

lemma slot_offset (hk : k < 2 ^ 31) :
    (slot kind tableBase (.ofNat 32 k) - tableBase).toNat = 0x24 + kind.width * k := by
  have hext : (BitVec.ofNat 32 k).signExtend 64 = BitVec.ofNat 64 k := by
    apply BitVec.eq_of_toInt_eq
    rw [BitVec.toInt_signExtend_of_le (by omega), ofNat_toInt hk, BitVec.toInt_eq_toNat_of_lt]
    · rw [BitVec.toNat_ofNat, Nat.mod_eq_of_lt (by omega)]
    · rw [BitVec.toNat_ofNat]
      omega
  have hoff : slot kind tableBase (.ofNat 32 k) - tableBase =
      headerSize + BitVec.ofNat 64 kind.width * BitVec.ofNat 64 k := by
    rw [slot, hext, BitVec.add_assoc, BitVec.add_comm, BitVec.add_sub_cancel]
  have hheader : headerSize.toNat = 0x24 := rfl
  rw [hoff, BitVec.toNat_add, BitVec.toNat_mul, BitVec.toNat_ofNat, BitVec.toNat_ofNat, hheader]
  cases kind with
  | rsdt =>
    rw [Kind.width]
    omega
  | xsdt =>
    rw [Kind.width]
    omega

lemma inside_of_lt (hk : k < slots kind mem tableBase) :
    Inside kind mem tableBase (.ofNat 32 k) := by
  rw [Inside, slot_offset (hk.trans slots_lt)]
  rw [slots] at hk
  cases kind with
  | rsdt =>
    rw [Kind.width] at hk ⊢
    omega
  | xsdt =>
    rw [Kind.width] at hk ⊢
    omega

variable {num : BitVec 32} {calls : List (BitVec 32)}

lemma findBody_end (hk : k < 2 ^ 31) (hend : slots kind mem tableBase ≤ k) :
    findBody kind mem tableBase num ⟨.ofNat 32 k, calls⟩ = .inr ⟨-1, calls⟩ := by
  rw [findBody, if_neg]
  rw [slt_getCount_iff hk]
  omega

lemma findBody_found (hk : k ∈ signed kind mem tableBase num) :
    findBody kind mem tableBase num ⟨.ofNat 32 k, calls⟩ =
      .inr ⟨.ofNat 32 k, .ofNat 32 k :: calls⟩ := by
  have hlt : k < 2 ^ 31 := hk.1.trans slots_lt
  rw [findBody, if_pos ((slt_getCount_iff hlt).mpr hk.1), if_pos hk.2]

lemma findBody_next (hk : k < slots kind mem tableBase) (hmiss : k ∉ signed kind mem tableBase num) :
    findBody kind mem tableBase num ⟨.ofNat 32 k, calls⟩ =
      .inl ⟨.ofNat 32 (k + 1), .ofNat 32 k :: calls⟩ := by
  have hlt : k < 2 ^ 31 := hk.trans slots_lt
  rw [findBody, if_pos ((slt_getCount_iff hlt).mpr hk), if_neg fun h => hmiss ⟨hk, h⟩,
    BitVec.ofNat_add]
  rfl

lemma findBody_returns :
    ∃ found : Search, Returns (findBody kind mem tableBase num) ⟨0, []⟩ found ∧
      (∀ i ∈ found.calls, Inside kind mem tableBase i) ∧
      ((∃ k, IsLeast (signed kind mem tableBase num) k ∧ found.index.toInt = k) ∨
        signed kind mem tableBase num = ∅ ∧ found.index = -1) := by
  refine returns_of_measure
    (P := fun s => ∃ k ≤ slots kind mem tableBase, s.index = BitVec.ofNat 32 k ∧
      (∀ j ∈ signed kind mem tableBase num, k ≤ j) ∧ ∀ i ∈ s.calls, Inside kind mem tableBase i)
    (fun s => slots kind mem tableBase - s.index.toNat) ?_
    ⟨0, Nat.zero_le _, rfl, fun j _ => j.zero_le, nofun⟩
  rintro ⟨_, calls⟩ ⟨k, hk, rfl, hpassed, hcalls⟩
  have hsmall : k < 2 ^ 31 := hk.trans_lt slots_lt
  rcases hk.eq_or_lt with hend | hlt
  · refine .inl ⟨⟨-1, calls⟩, findBody_end hsmall hend.ge, hcalls, .inr ⟨?_, rfl⟩⟩
    rw [Set.eq_empty_iff_forall_notMem]
    intro i hi
    have hlt := hi.1
    have hle := hpassed i hi
    omega
  · have hmore := List.forall_mem_cons.mpr ⟨inside_of_lt hlt, hcalls⟩
    by_cases hhit : k ∈ signed kind mem tableBase num
    · exact .inl ⟨_, findBody_found hhit, hmore, .inl ⟨k, ⟨hhit, hpassed⟩, ofNat_toInt hsmall⟩⟩
    · refine .inr ⟨_, findBody_next hlt hhit, ⟨k + 1, hlt, rfl, fun j hj => ?_, hmore⟩, ?_⟩
      · have hne : k ≠ j := by
          rintro rfl
          exact hhit hj
        have hle := hpassed j hj
        omega
      · rw [BitVec.toNat_ofNat, BitVec.toNat_ofNat]
        omega

end

section
variable (kind : Kind) (mem : ByteMemory) (tableBase : Word) (num : BitVec 32)

/-- For every table length the search ends, reads only slots inside the table, and finds the
least index whose table has the signature. -/
theorem findTable_exact :
    ∃ found : Search, (∃ rounds, findTable kind mem tableBase num rounds = some found) ∧
      (∀ i ∈ found.calls, Inside kind mem tableBase i) ∧
      ((∃ k, IsLeast (signed kind mem tableBase num) k ∧ found.index.toInt = k) ∨
        signed kind mem tableBase num = ∅ ∧ found.index = -1) :=
  findBody_returns

end

end Anarch.AcpiRoot
