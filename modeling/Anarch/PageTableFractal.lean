import Anarch.PageTablePaths

/-! The page walk of the processor: what it makes of the entry where the search ends, and of
the recursive entry, through which the address computed for an entry is translated to the place
of that entry in physical memory. -/
namespace Anarch.PageTable
open RadixTree

/-- The physical address that the processor computes for a virtual one. -/
def physical (mem : PhysMem) (cr3 : PhysAddr) (addr : VirtAddr) : Option PhysAddr :=
  (translate mem cr3 addr).map fun at' => frameAddr at'.1 + at'.2.setWidth 64

/-- The frame of the table at a depth on the way to an address, and the entry there. -/
def walkFrame (mem : PhysMem) (cr3 : PhysAddr) (addr : VirtAddr) : ℕ → Frame
  | 0 => frameOf cr3
  | d + 1 => frameOf (mem (walkFrame mem cr3 addr d) (index addr d))

def walkEntry (mem : PhysMem) (cr3 : PhysAddr) (addr : VirtAddr) (d : ℕ) : Word :=
  mem (walkFrame mem cr3 addr d) (index addr d)

/-- Where the entry is in physical memory: eight bytes for each entry before it. -/
def entryAddr (mem : PhysMem) (cr3 : PhysAddr) (addr : VirtAddr) (d : ℕ) : PhysAddr :=
  frameAddr (walkFrame mem cr3 addr d) + 8 * (index addr d).setWidth 64

/-- The frame of an address in the page of an entry at a depth. -/
def leafFrame (depth : ℕ) (entry : Word) (addr : VirtAddr) : Frame :=
  match depth with
  | 1 => frameInPage (frameOf entry) addr 18
  | 2 => frameInPage (frameOf entry) addr 9
  | _ => frameOf entry

lemma frameInPage_toNat {page : Frame} {v : VirtAddr} {k : ℕ} (hpage : page.toNat = k * 512) :
    (frameInPage page v 9).toNat = k * 512 + v.toNat / 4096 % 512 := by
  have hlow : (((v >>> 12).setWidth 40 : Frame) &&& (1#40 <<< 9 - 1)).toNat =
      v.toNat / 4096 % 512 := by
    rw [BitVec.toNat_and, show (1#40 <<< 9 - 1 : Frame).toNat = 2 ^ 9 - 1 from rfl,
      Nat.and_two_pow_sub_one_eq_mod, BitVec.toNat_setWidth, BitVec.toNat_ushiftRight,
      Nat.shiftRight_eq_div_pow]
    omega
  have hhigh : (page >>> 9 <<< 9).toNat = 2 ^ 9 * k := by
    have hlt := page.isLt
    rw [BitVec.toNat_shiftLeft, BitVec.toNat_ushiftRight, Nat.shiftRight_eq_div_pow,
      Nat.shiftLeft_eq, hpage]
    omega
  rw [frameInPage, BitVec.toNat_or, hlow, hhigh,
    ← Nat.two_pow_add_eq_or_of_lt (Nat.mod_lt _ (by decide)), Nat.mul_comm]

lemma translate_eq_find {α : Type} {t : State α} {x : VirtAddr} (hc : canonical x = true) :
    translate t.mem t.cr3 x =
      if 0 < (t.find (index x)).1 ∧ isPresent (t.find (index x)).2 = true then
        some (leafFrame (t.find (index x)).1 (t.find (index x)).2 x, x.setWidth 12)
      else none := by
  have hfind : t.find (index x) = findFrom link t.mem (index x) 3 0 t.root := rfl
  rw [hfind, translate]
  simp only [hc, Bool.not_true, Bool.false_or]
  cases h0 : link (t.mem t.root (index x 0)) with
  | none =>
    rw [findFrom_none h0]
    rcases link_eq_none.mp h0 with h | h <;> simp [h]
  | some f =>
    obtain ⟨hp0, hh0, rfl⟩ := link_eq_some.mp h0
    rw [findFrom_some h0]
    simp only [hp0, hh0, Bool.not_true, Bool.false_or]
    cases h1 : link (t.mem (frameOf (t.mem t.root (index x 0))) (index x 1)) with
    | none =>
      rw [findFrom_none h1]
      rcases link_eq_none.mp h1 with h | h
      · simp [h]
      · cases isPresent (t.mem (frameOf (t.mem t.root (index x 0))) (index x 1)) <;>
          simp [h, leafFrame]
    | some g =>
      obtain ⟨hp1, hh1, rfl⟩ := link_eq_some.mp h1
      rw [findFrom_some h1]
      simp only [hp1, hh1, Bool.not_true, Bool.false_eq_true, if_false]
      generalize frameOf (t.mem (frameOf (t.mem t.root (index x 0))) (index x 1)) = g
      cases h2 : link (t.mem g (index x 2)) with
      | none =>
        rw [findFrom_none h2]
        rcases link_eq_none.mp h2 with h | h
        · simp [h]
        · cases isPresent (t.mem g (index x 2)) <;> simp [h, leafFrame]
      | some h =>
        obtain ⟨hp2, hh2, rfl⟩ := link_eq_some.mp h2
        rw [findFrom_some h2]
        cases hp3 : isPresent (t.mem (frameOf (t.mem g (index x 2))) (index x 3)) <;>
          simp [hp2, hh2, hp3, findFrom, leafFrame]

variable {mem : PhysMem} {cr3 : PhysAddr} {addr : VirtAddr} {d : ℕ}

lemma table_of_walk (h : ∀ k < d, isPresent (walkEntry mem cr3 addr k) = true ∧
    isHuge (walkEntry mem cr3 addr k) = false) :
    table link (frameOf cr3) mem (index addr) d = some (walkFrame mem cr3 addr d) := by
  induction d with
  | zero => rfl
  | succ d ih =>
    obtain ⟨hp, hh⟩ := h d d.lt_succ_self
    rw [table_succ (ih fun k hk => h k (hk.trans d.lt_succ_self))]
    exact link_eq_some.mpr ⟨hp, hh, rfl⟩

lemma offset_getTableEntry (addr : VirtAddr) (hd : d < 4) :
    ((getTableEntry addr d).setWidth 12 : BitVec 12).setWidth 64 =
      8 * (index addr d).setWidth 64 := by
  have hlt : addr.toNat % 2 ^ 48 < 2 ^ 48 := Nat.mod_lt _ (by decide)
  apply BitVec.eq_of_toNat_eq
  rw [BitVec.toNat_setWidth, BitVec.toNat_setWidth, getTableEntry_toNat addr hd, BitVec.toNat_mul,
    BitVec.toNat_setWidth, index_toNat]
  rcases (by omega : d = 0 ∨ d = 1 ∨ d = 2 ∨ d = 3) with rfl | rfl | rfl | rfl <;>
    (simp only [BitVec.reduceToNat, Nat.reducePow, Nat.reduceMul, Nat.reduceAdd,
      Nat.reduceSub] at hlt ⊢; omega)

/-- The address of an entry leads the processor to the entry, that of its table to the base of
the table. -/
theorem fractal_translate (hself : link (mem (frameOf cr3) 0x1ff) = some (frameOf cr3))
    (hd : d ≤ 3) (hpath : ∀ k < d, isPresent (walkEntry mem cr3 addr k) = true ∧
      isHuge (walkEntry mem cr3 addr k) = false) :
    physical mem cr3 (getTableEntry addr d) = some (entryAddr mem cr3 addr d) ∧
    physical mem cr3 (getTableStart addr d) = some (frameAddr (walkFrame mem cr3 addr d)) := by
  have hd' : d < 4 := by omega
  have htable := (table_getTableEntry hself hd').trans (table_of_walk hpath)
  have hindex : Agree 4 (index (getTableStart addr d)) (index (getTableEntry addr d)) :=
    fun k hk => index_getTableStart addr d hk
  have hentry := translate_of_table (canonical_getTableEntry addr hd') htable
  have hstart := translate_of_table (canonical_getTableStart addr hd')
    ((table_congr hindex).trans htable)
  constructor
  · rw [physical, hentry, Option.map_some, offset_getTableEntry addr hd', entryAddr]
  · rw [physical, hstart, Option.map_some, offset_getTableStart]
    simp

/-- A chain of tables in the frames 1 to 4. -/
def chainMem : PhysMem := fun f i =>
  if f = 1 ∧ i = 0x1ff then 0x1003
  else if f = 1 ∧ i = 2 then 0x2003
  else if f = 2 ∧ i = 3 then 0x3003
  else if f = 3 ∧ i = 4 then 0x4003
  else 0

/-- The entry of page 5 of the last table. -/
theorem fractal_translate_chain :
    physical chainMem 0x1000 (getTableEntry 0x100C0805000 3) = some 0x4028 ∧
    physical chainMem 0x1000 (getTableStart 0x100C0805000 3) = some 0x4000 := by
  have hpath : ∀ k < 3, isPresent (walkEntry chainMem 0x1000 0x100C0805000 k) = true ∧
      isHuge (walkEntry chainMem 0x1000 0x100C0805000 k) = false := by decide
  have hself : link (chainMem (frameOf 0x1000) 0x1ff) = some (frameOf 0x1000) := by decide
  have h := fractal_translate hself le_rfl hpath
  rw [show entryAddr chainMem 0x1000 0x100C0805000 3 = 0x4028 by decide,
    show frameAddr (walkFrame chainMem 0x1000 0x100C0805000 3) = 0x4000 by decide] at h
  exact h

end Anarch.PageTable
