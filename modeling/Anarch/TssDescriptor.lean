import Anarch.ApiTypes

/-! The descriptor of a task state segment: its pointer is spread over four fields. -/
namespace Anarch

/-- The fields of a `TssDescriptor`, in the order of its layout. -/
structure TssDescriptor where
  limit0 : BitVec 16
  base0 : BitVec 16
  base16 : BitVec 8
  type : BitVec 4
  res0 : BitVec 1
  dpl : BitVec 2
  present : BitVec 1
  limit16 : BitVec 4
  available : BitVec 1
  res1 : BitVec 2
  granularity : BitVec 1
  base24 : BitVec 8
  base32 : BitVec 32
  res2 : BitVec 32
  deriving DecidableEq, Repr

namespace TssDescriptor

def new (tss : Word) : TssDescriptor where
  limit0 := 0x67
  base0 := (tss &&& 0xffff).setWidth 16
  base16 := (tss >>> 16 &&& 0xff).setWidth 8
  type := 9
  res0 := 0
  dpl := 0
  present := 1
  limit16 := 0
  available := 1
  res1 := 0
  granularity := 0
  base24 := (tss >>> 24 &&& 0xff).setWidth 8
  base32 := (tss >>> 0x20).setWidth 32
  res2 := 0

/-- The promotion of a `uint8_t` or `uint16_t` to `int`. -/
def promote {w : ℕ} (x : BitVec w) : BitVec 32 := x.setWidth 32

/-- An `int` as the operand of `|=` on a `uint64_t`. -/
def ofInt (x : BitVec 32) : Word := x.signExtend 64

def getPointer (d : TssDescriptor) : Word :=
  let ptrVal := 0
  let ptrVal := ptrVal ||| ofInt (promote d.base0)
  let ptrVal := ptrVal ||| ofInt (promote d.base16 <<< 16)
  let ptrVal := ptrVal ||| ofInt (promote d.base24 <<< 24)
  ptrVal ||| d.base32.setWidth 64 <<< 0x20

lemma setWidth_mask (x m : Word) {w : ℕ} (h : m.setWidth w = BitVec.allOnes w) :
    (x &&& m).setWidth w = x.setWidth w := by
  rw [BitVec.setWidth_and, h, BitVec.and_allOnes]

/-- A shifted field keeps its bits, and the one that lands on bit 31 is the sign of the `int`. -/
lemma getLsbD_ofInt {w k i : ℕ} (x : BitVec w) (hk : k < 32) (hi : i < 64) :
    (ofInt (promote x <<< k)).getLsbD i =
      if i < 32 then !decide (i < k) && x.getLsbD (i - k) else x.getLsbD (31 - k) := by
  rw [ofInt, BitVec.getLsbD_signExtend, decide_eq_true hi, Bool.true_and, promote]
  split_ifs with h
  · simp [h]
  · have hsign : k ≤ 31 := by omega
    simp [BitVec.msb_eq_getLsbD_last, hsign]

/-- Bit 31 of the pointer goes into all bits above it. -/
lemma getLsbD_getPointer (tss : Word) {i : ℕ} (hi : i < 64) :
    (new tss).getPointer.getLsbD i =
      (tss.getLsbD i || decide (32 ≤ i) && tss.getLsbD 31) := by
  have h0 : (new tss).base0 = tss.setWidth 16 := setWidth_mask _ _ rfl
  have h16 : (new tss).base16 = (tss >>> 16).setWidth 8 := setWidth_mask _ _ rfl
  have h24 : (new tss).base24 = (tss >>> 24).setWidth 8 := setWidth_mask _ _ rfl
  have h32 : (new tss).base32 = (tss >>> 32).setWidth 32 := rfl
  have hfields : (new tss).getPointer = ofInt (promote (new tss).base0 <<< 0) |||
      ofInt (promote (new tss).base16 <<< 16) ||| ofInt (promote (new tss).base24 <<< 24) |||
      (new tss).base32.setWidth 64 <<< 32 := by
    have hor : ∀ x : Word, 0 ||| x = x := fun x => BitVec.zero_or
    simp only [getPointer, hor, BitVec.shiftLeft_zero]
  rw [hfields, BitVec.getLsbD_or, BitVec.getLsbD_or, BitVec.getLsbD_or,
    getLsbD_ofInt _ (by decide) hi, getLsbD_ofInt _ (by decide) hi,
    getLsbD_ofInt _ (by decide) hi, h0, h16, h24, h32]
  simp only [BitVec.getLsbD_setWidth, BitVec.getLsbD_ushiftRight, BitVec.getLsbD_shiftLeft]
  by_cases h : i < 32
  · grind
  · grind

/-- A pointer comes back if and only if bit 31 is clear or the 32 bits above it are all set. -/
theorem getPointer_new_iff (tss : Word) : (new tss).getPointer = tss ↔
    tss.getLsbD 31 = false ∨ tss.extractLsb' 32 32 = BitVec.allOnes 32 := by
  constructor
  · intro h
    refine or_iff_not_imp_left.mpr fun hset => BitVec.eq_of_getLsbD_eq fun i hi => ?_
    have hbit := getLsbD_getPointer tss (show 32 + i < 64 by omega)
    rw [h, Bool.eq_true_of_not_eq_false hset, decide_eq_true (Nat.le_add_right 32 i)] at hbit
    rw [BitVec.getLsbD_extractLsb', BitVec.getLsbD_allOnes, decide_eq_true hi, hbit]
    simp
  · intro h
    apply BitVec.eq_of_getLsbD_eq
    intro i hi
    rw [getLsbD_getPointer tss hi]
    rcases h with hclear | hones
    · rw [hclear, Bool.and_false, Bool.or_false]
    · by_cases hle : 32 ≤ i
      · have hbit := congrArg (·.getLsbD (i - 32)) hones
        simp only [BitVec.getLsbD_extractLsb', BitVec.getLsbD_allOnes, Nat.add_sub_cancel' hle,
          decide_eq_true (show i - 32 < 32 by omega), Bool.true_and] at hbit
        rw [hbit, Bool.true_or]
      · rw [decide_eq_false hle, Bool.false_and, Bool.or_false]

/-- A segment at 2 GiB is taken for one in the last 2 GiB. -/
theorem high_pointer_not_decoded : (new 0x80000000).getPointer = 0xffffffff80000000 ∧
    (new 0x80000000).getPointer ≠ 0x80000000 := by decide

end TssDescriptor

end Anarch
