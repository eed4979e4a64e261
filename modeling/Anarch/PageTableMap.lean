import Anarch.PageTableView
import Anarch.TransitionRun

/-! A page table as a map from pages to leaf entries: runs of `Set` and `Unset`. -/
namespace Anarch.PageTable
open RadixTree TransitionRun

/-- In one page of this depth. Only the low 48 bits of an address matter. -/
def SamePage (depth : ℕ) (a b : VirtAddr) : Prop :=
  a.toNat % 2 ^ 48 / (pageSizeAt depth).toNat = b.toNat % 2 ^ 48 / (pageSizeAt depth).toNat

instance (depth : ℕ) (a b : VirtAddr) : Decidable (SamePage depth a b) :=
  inferInstanceAs (Decidable (_ = _))

lemma agree_index_iff {depth : ℕ} (hd : depth ≤ 3) (a b : VirtAddr) :
    Agree (depth + 1) (index a) (index b) ↔ SamePage depth a b := by
  have hdigit : ∀ k, index a k = index b k ↔
      a.toNat / 2 ^ (39 - 9 * k) % 512 = b.toNat / 2 ^ (39 - 9 * k) % 512 := fun k => by
    rw [← index_toNat, ← index_toNat]
    exact ⟨congrArg _, BitVec.eq_of_toNat_eq⟩
  have hsize : (pageSizeAt depth).toNat = 2 ^ (39 - 9 * depth) := by
    rcases (by omega : depth = 0 ∨ depth = 1 ∨ depth = 2 ∨ depth = 3) with rfl | rfl | rfl | rfl <;>
      rfl
  rw [SamePage, hsize]
  rcases (by omega : depth = 0 ∨ depth = 1 ∨ depth = 2 ∨ depth = 3) with rfl | rfl | rfl | rfl
  all_goals
    simp only [agree_succ, agree_zero, hdigit, true_and, Nat.reducePow, Nat.reduceMul,
      Nat.reduceSub]
    omega

section
variable {α : Type}

/-- What `Walk` says of an address: the depth and the entry, if it is mapped. -/
def mapping (pml4 : PhysAddr) (s : State α) (addr : VirtAddr) : Option (ℕ × Word) :=
  match walk pml4 addr s with
  | .ok found => found.depth.map fun depth => (depth, found.entry)
  | .error _ => none

inductive TableCall
  | set (addr : VirtAddr) (entry parentMask : Word) (depth : ℕ)
  | unset (addr : VirtAddr)
  deriving DecidableEq, Repr

def TableCall.exec (A : AllocatorOps α) (pml4 : PhysAddr) (s : State α) :
    TableCall → Outcome (State α)
  | .set addr entry parentMask depth => do return (← PageTable.set A pml4 addr entry parentMask depth s).2
  | .unset addr => PageTable.unset A pml4 addr s

/-- A leaf for a page outside the recursive slot, not in place of a table; an unmapping of
such a page by its first address. -/
def LeafCall (pml4 : PhysAddr) (s : State α) : TableCall → Prop
  | .set addr entry parentMask depth =>
      (depth = 2 ∨ depth = 3) ∧ isPresent entry = true ∧ (isHuge entry = true ↔ depth = 2) ∧
        IsParentMask parentMask ∧ addr % pageSizeAt depth = 0 ∧ index addr 0 ≠ 0x1ff ∧
        (depth = 2 → s.tableAt (index addr) 3 = none)
  | .unset addr => index addr 0 ≠ 0x1ff ∧
      ∃ leaf, mapping pml4 s addr = some leaf ∧ addr % pageSizeAt leaf.1 = 0

/-- The PML4 at first holds its self entry only, and its frame is in use. -/
def leafSystem (A : AllocatorOps α) (used : α → Set Frame) (pml4 : PhysAddr) :
    System (State α) TableCall where
  start s := s.cr3 = pml4 ∧ s.root ∈ used s.alloc ∧ link (s.mem s.root 0x1ff) = some s.root ∧
    ∀ i, i ≠ 0x1ff → s.mem s.root i = 0
  step s c t := LeafCall pml4 s c ∧ c.exec A pml4 s = .ok t

variable {A : AllocatorOps α} {used : α → Set Frame} {I : Set Index} {pml4 : PhysAddr}
variable {s t : State α}

lemma mapping_eq (hself : link (s.mem s.root 0x1ff) = some s.root) (hcr3 : s.cr3 = pml4)
    (addr : VirtAddr) : mapping pml4 s addr = s.leaf (index addr) := by
  rw [mapping, walk_eq hself hcr3]
  simp only [walkResult, State.leaf, leafOf]
  split_ifs <;> rfl

/-- The slots but the recursive one. -/
abbrev ownSlots : Set Index := {i | i ≠ 0x1ff}

/-- A search that ends at an entry that is not present finds zero. -/
def Plain (I : Set Index) (s : State α) : Prop :=
  ∀ a : ℕ → Index, a 0 ∈ I → isPresent (s.find a).2 = false → (s.find a).2 = 0

/-- What every reachable state has. -/
structure Mapped (used : α → Set Frame) (I : Set Index) (pml4 : PhysAddr) (s : State α) :
    Prop where
  tree : Tree used I s
  plain : Plain I s
  cr3 : s.cr3 = pml4

lemma Mapped.of_empty (hI : 0x1ff ∉ I) (hcr3 : s.cr3 = pml4)
    (hself : link (s.mem s.root 0x1ff) = some s.root) (hroot : s.root ∈ used s.alloc)
    (hzero : ∀ i ∈ I, s.mem s.root i = 0) : Mapped used I pml4 s := by
  refine ⟨.of_empty hzero hI hself hroot, fun a ha _ => ?_, hcr3⟩
  have hnone : link (s.mem s.root (a 0)) = none := by rw [hzero _ ha]; rfl
  rw [find_of_absent (Nat.zero_le 3) rfl (.inr hnone), hzero _ ha]

lemma Mapped.plain_huge (h : Mapped used I pml4 s) {a : ℕ → Index} (ha : a 0 ∈ I)
    (hp : isPresent (s.find a).2 = false) : isHuge (s.find a).2 = false := by
  rw [h.plain a ha hp]
  rfl

section
variable (hA : FrameContract A used) (h : Mapped used I pml4 s)
variable {addr : VirtAddr} {entry mask : Word} {depth : ℕ} (ha : index addr 0 ∈ I)
include hA h ha

lemma Mapped.set (hm : IsParentMask mask) (hd : depth ≤ 3) (halign : addr % pageSizeAt depth = 0)
    (he : depth = 3 ∨ link entry = none) (hp : isPresent entry = true) :
    (s.NoTable A addr depth ∧
      set A pml4 addr entry mask depth s = .error allocationFailed) ∨
    (∃ t, set A pml4 addr entry mask depth s = .ok (none, t) ∧ Mapped used I pml4 t ∧
      Confined used I s t ∧
      (s.find (index addr)).1 < depth ∧ isPresent (s.find (index addr)).2 = true ∧
      ∀ b, b 0 ∈ I → t.find b = s.find b) ∨
    ∃ w t, set A pml4 addr entry mask depth s = .ok (some w, t) ∧ Mapped used I pml4 t ∧
      Confined used I s t ∧
      ((s.find (index addr)).1 < depth → isPresent (s.find (index addr)).2 = false) ∧
      (∀ b, b 0 ∈ I → Agree (depth + 1) (index addr) b → t.find b = (depth, entry)) ∧
      ∀ b, b 0 ∈ I → ¬ Agree (depth + 1) (index addr) b → t.leaf b = s.leaf b := by
  rcases set_view hA h.tree ha h.cr3 hm hd halign he with hnone | ⟨t, hok, ht, hc, hlt, hpr, hsame⟩ |
    ⟨w, t, hok, ht, hc, hfree, hon, hoff⟩
  · exact .inl hnone
  · refine .inr (.inl ⟨t, hok, ⟨ht, fun a ha' hp' => ?_, hc.cr3.trans h.cr3⟩, hc, hlt, hpr,
      hsame⟩)
    rw [hsame a ha'] at hp' ⊢
    exact h.plain a ha' hp'
  · refine .inr (.inr ⟨w, t, hok, ⟨ht, fun b hb hp' => ?_, hc.cr3.trans h.cr3⟩, hc, hfree,
      hon, fun b hb hb' => ?_⟩)
    · by_cases hb' : Agree (depth + 1) (index addr) b
      · rw [hon b hb hb', hp] at hp'
        cases hp'
      · rcases hoff b hb hb' with hsame | ⟨-, -, -, hzero⟩
        · rw [hsame] at hp' ⊢
          exact h.plain b hb hp'
        · exact hzero
    · rcases hoff b hb hb' with hsame | ⟨hagree, -, habsent, hzero⟩
      · rw [State.leaf, hsame, State.leaf]
      · rw [State.leaf, leafOf_zero hzero, State.leaf, find_congr s hagree,
          leafOf_absent habsent (h.plain_huge ha habsent)]

lemma Mapped.unset (halign : addr &&& 0xfff = 0) {leaf : ℕ × Word}
    (hleaf : s.leaf (index addr) = some leaf) :
    ∃ t, unset A pml4 addr s = .ok t ∧ Mapped used I pml4 t ∧ Confined used I s t ∧
      (∀ b, b 0 ∈ I → Agree (leaf.1 + 1) (index addr) b → t.leaf b = none) ∧
      ∀ b, b 0 ∈ I → ¬ Agree (leaf.1 + 1) (index addr) b → t.leaf b = s.leaf b := by
  obtain ⟨hfind, hend⟩ := leafOf_eq_some.mp hleaf
  obtain ⟨t, hok, ht, hc, hon, hoff⟩ := unset_view hA h.tree ha h.cr3 halign (by
    rw [hfind]
    exact hend.symm.imp And.left id)
  rw [hfind] at hon hoff
  refine ⟨t, hok, ⟨ht, fun b hb hp => ?_, hc.cr3.trans h.cr3⟩, hc,
    fun b hb hb' => leafOf_zero (hon b hb hb'), fun b hb hb' => ?_⟩
  · by_cases hb' : Agree (leaf.1 + 1) (index addr) b
    · exact hon b hb hb'
    · rcases hoff b hb hb' with hsame | ⟨-, hzero⟩
      · rw [hsame] at hp ⊢
        exact h.plain b hb hp
      · exact hzero
  · rcases hoff b hb hb' with hsame | ⟨hz, hz'⟩
    · rw [State.leaf, hsame, State.leaf]
    · rw [State.leaf, leafOf_zero hz', State.leaf, leafOf_zero hz]

end

end

end Anarch.PageTable
