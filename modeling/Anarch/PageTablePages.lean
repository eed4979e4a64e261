import Anarch.PageTableView
import Mathlib.Tactic.Ring

/-! The loops over the pages of a range keep the tree, as long as the pages are in its slots. -/
namespace Anarch.PageTable
open RadixTree

def pageAt (start : VirtAddr) (pageSize : Word) (k : ℕ) : VirtAddr :=
  start + BitVec.ofNat 64 k * pageSize

def PagesIn (I : Set Index) (start : VirtAddr) (pageSize : Word) (n : ℕ) : Prop :=
  ∀ k < n, index (pageAt start pageSize k) 0 ∈ I

@[simp] lemma pageAt_zero (start : VirtAddr) (pageSize : Word) :
    pageAt start pageSize 0 = start := by simp [pageAt]

lemma pageAt_succ (start : VirtAddr) (pageSize : Word) (k : ℕ) :
    pageAt (start + pageSize) pageSize k = pageAt start pageSize (k + 1) := by
  rw [pageAt, pageAt, BitVec.ofNat_add, show BitVec.ofNat 64 1 = (1 : Word) from rfl]
  ring

lemma pageAt_toNat {start pageSize : Word} {k : ℕ}
    (h : start.toNat + k * pageSize.toNat < 2 ^ 64)
    (hpos : 0 < pageSize.toNat) :
    (pageAt start pageSize k).toNat = start.toNat + k * pageSize.toNat := by
  have hk : k ≤ k * pageSize.toNat := Nat.le_mul_of_pos_right k hpos
  rw [pageAt, BitVec.toNat_add, BitVec.toNat_mul, BitVec.toNat_ofNat, Nat.mod_eq_of_lt (a := k)
    (by omega), Nat.mod_eq_of_lt (a := k * _) (by omega), Nat.mod_eq_of_lt h]

lemma PagesIn.head {I : Set Index} {start : VirtAddr} {pageSize : Word} {n : ℕ}
    (h : PagesIn I start pageSize (n + 1)) : index start 0 ∈ I := by
  have := h 0 n.succ_pos
  rwa [pageAt_zero] at this

lemma PagesIn.tail {I : Set Index} {start : VirtAddr} {pageSize : Word} {n : ℕ}
    (h : PagesIn I start pageSize (n + 1)) : PagesIn I (start + pageSize) pageSize n :=
  fun k hk => pageAt_succ start pageSize k ▸ h (k + 1) (Nat.succ_lt_succ hk)

lemma getLsbD_add_page (entry : Word) {pageSize : Word} (hsize : pageSize.toNat % 4096 = 0)
    {i : ℕ} (hi : i < 12) : (entry + pageSize).getLsbD i = entry.getLsbD i := by
  have hmod : (entry + pageSize).toNat % 2 ^ 12 = entry.toNat % 2 ^ 12 := by
    rw [BitVec.toNat_add]
    omega
  have hbit : ∀ x : Word, x.getLsbD i = (x.toNat % 2 ^ 12).testBit i := fun x => by
    rw [Nat.testBit_mod_two_pow, decide_eq_true hi, Bool.true_and, BitVec.getLsbD]
  rw [hbit, hbit, hmod]

lemma isHuge_add_page (entry : Word) {pageSize : Word} (hsize : pageSize.toNat % 4096 = 0) :
    isHuge (entry + pageSize) = isHuge entry := by
  rw [isHuge_eq, isHuge_eq, getLsbD_add_page entry hsize (by omega)]

lemma isPresent_add_page (entry : Word) {pageSize : Word} (hsize : pageSize.toNat % 4096 = 0) :
    isPresent (entry + pageSize) = isPresent entry := by
  rw [isPresent_eq, isPresent_eq, getLsbD_add_page entry hsize (by omega)]

lemma isHuge_pageAt (entry : Word) {pageSize : Word} (hsize : pageSize.toNat % 4096 = 0) (k : ℕ) :
    isHuge (pageAt entry pageSize k) = isHuge entry := by
  induction k generalizing entry with
  | zero => rw [pageAt_zero]
  | succ k ih => rw [← pageAt_succ, ih, isHuge_add_page entry hsize]

lemma isPresent_pageAt (entry : Word) {pageSize : Word} (hsize : pageSize.toNat % 4096 = 0)
    (k : ℕ) : isPresent (pageAt entry pageSize k) = isPresent entry := by
  induction k generalizing entry with
  | zero => rw [pageAt_zero]
  | succ k ih => rw [← pageAt_succ, ih, isPresent_add_page entry hsize]

lemma isHuge_calcMask {phys : PhysAddr} {pageSize : Word} {kernel : Bool}
    {attributes : MemoryMap.Attributes} (h : pageSize ≠ 0x1000) :
    isHuge (phys ||| calcMask pageSize kernel attributes) = true := by
  rw [isHuge_eq, BitVec.getLsbD_or, calcMask, if_neg h]
  simp

lemma isPresent_calcMask {phys : PhysAddr} {pageSize : Word} {kernel : Bool}
    {attributes : MemoryMap.Attributes} :
    isPresent (phys ||| calcMask pageSize kernel attributes) = true := by
  rw [isPresent_eq, BitVec.getLsbD_or, calcMask]
  simp

lemma calcDepth_eq_ok {pageSize : Word} {depth : ℕ} (h : calcDepth pageSize = .ok depth) :
    pageSize.toNat % 4096 = 0 ∧ (depth = 3 ∧ pageSize = 0x1000 ∨ depth < 3 ∧ pageSize ≠ 0x1000) := by
  unfold calcDepth at h
  split_ifs at h with h3 h2 h1
  · obtain rfl := Except.ok.inj h
    exact ⟨by rw [h3]; decide, .inl ⟨rfl, h3⟩⟩
  · obtain rfl := Except.ok.inj h
    exact ⟨by rw [h2]; decide, .inr ⟨by omega, h3⟩⟩
  · obtain rfl := Except.ok.inj h
    exact ⟨by rw [h1]; decide, .inr ⟨by omega, h3⟩⟩

section
variable {α : Type} {A : AllocatorOps α} {pml4 : PhysAddr} {s t : State α}
variable {start : VirtAddr} {entry mask pageSize : Word} {depth n : ℕ}

lemma setPages_succ {overwrote found : Bool} {u : State α}
    (hset : set A pml4 start entry mask depth s = .ok (some found, u)) :
    setPages A pml4 mask depth pageSize (n + 1) start entry overwrote s =
      setPages A pml4 mask depth pageSize n (start + pageSize) (entry + pageSize)
        (if overwrote then true else found) u := by
  rw [setPages, hset]
  rfl

/-- `SetList` sets the pages before some page, and then there is no frame for a table of it. -/
def NoTableForPages (A : AllocatorOps α) (pml4 : PhysAddr) (mask : Word) (depth : ℕ)
    (pageSize : Word) (n : ℕ) (start : VirtAddr) (entry : PhysAddr) (overwrote : Bool)
    (s : State α) : Prop :=
  ∃ k < n, ∃ w t, setPages A pml4 mask depth pageSize k start entry overwrote s = .ok (w, t) ∧
    t.NoTable A (pageAt start pageSize k) depth

lemma State.NoTable.forPages {overwrote : Bool} (h : s.NoTable A start depth) :
    NoTableForPages A pml4 mask depth pageSize (n + 1) start entry overwrote s :=
  ⟨0, n.succ_pos, overwrote, s, rfl, by rwa [pageAt_zero]⟩

lemma NoTableForPages.succ {overwrote found : Bool} {u : State α}
    (hset : set A pml4 start entry mask depth s = .ok (some found, u))
    (h : NoTableForPages A pml4 mask depth pageSize n (start + pageSize) (entry + pageSize)
      (if overwrote then true else found) u) :
    NoTableForPages A pml4 mask depth pageSize (n + 1) start entry overwrote s := by
  obtain ⟨k, hk, w, t, hok, hout⟩ := h
  refine ⟨k + 1, Nat.succ_lt_succ hk, w, t, (setPages_succ hset).trans hok, ?_⟩
  rwa [← pageAt_succ]

/-- `NoTableForPages` for the arguments of `SetList`. -/
def NoTableForList (A : AllocatorOps α) (pml4 : PhysAddr) (virt : VirtAddr) (phys : PhysAddr)
    (size : MemoryMap.Size) (mask : Word) (s : State α) : Prop :=
  ∃ depth, calcDepth size.pageSize = .ok depth ∧
    NoTableForPages A pml4 mask depth size.pageSize size.pageCount.toNat virt phys false s

/-- What `Set` keeps on each page, the loop of `SetList` keeps. -/
lemma setPages_rule {P : State α → Prop} {overwrote w : Bool} (hs : P s)
    (hstep : ∀ k < n, ∀ u w v, P u → set A pml4 (pageAt start pageSize k)
      (pageAt entry pageSize k) mask depth u = .ok (some w, v) → P v)
    (hok : setPages A pml4 mask depth pageSize n start entry overwrote s = .ok (w, t)) : P t := by
  induction n generalizing s start entry overwrote with
  | zero =>
    obtain ⟨-, rfl⟩ := Prod.mk.inj (Except.ok.inj hok)
    exact hs
  | succ n ih =>
    obtain ⟨⟨found, u⟩, hu, hok⟩ := bind_eq_ok.mp hok
    cases found with
    | none => cases hok
    | some found =>
      refine ih (hstep 0 n.succ_pos s found u hs (by simpa using hu)) (fun k hk u w v hP h => ?_) hok
      rw [pageAt_succ, pageAt_succ] at h
      exact hstep (k + 1) (Nat.succ_lt_succ hk) u w v hP h

lemma unsetPages_rule {P : State α → Prop} (hs : P s)
    (hstep : ∀ k < n, ∀ u v, P u → unset A pml4 (pageAt start pageSize k) u = .ok v → P v)
    (hok : unsetPages A pml4 pageSize n start s = .ok t) : P t := by
  induction n generalizing s start with
  | zero =>
    obtain rfl := Except.ok.inj hok
    exact hs
  | succ n ih =>
    obtain ⟨u, hu, hok⟩ := bind_eq_ok.mp hok
    refine ih (hstep 0 n.succ_pos s u hs (by simpa using hu)) (fun k hk u v hP h => ?_) hok
    rw [pageAt_succ] at h
    exact hstep (k + 1) (Nat.succ_lt_succ hk) u v hP h

lemma setList_eq {size : MemoryMap.Size} (hcr3 : s.cr3 = pml4)
    (hdepth : calcDepth size.pageSize = .ok depth) : setList A pml4 start entry size mask s =
      setPages A pml4 mask depth size.pageSize size.pageCount.toNat start entry false s := by
  have hset : isSet pml4 s = true := by simp [isSet, hcr3]
  simp only [setList, hset, assertThat, if_true, bind, Except.bind, hdepth]

lemma setList_eq_ok {size : MemoryMap.Size} {w : Bool}
    (hok : setList A pml4 start entry size mask s = .ok (w, t)) : s.cr3 = pml4 ∧ ∃ depth,
      calcDepth size.pageSize = .ok depth ∧
      setPages A pml4 mask depth size.pageSize size.pageCount.toNat start entry false s =
        .ok (w, t) := by
  obtain ⟨_, hset, hok⟩ := bind_eq_ok.mp hok
  obtain ⟨depth, hdepth, hok⟩ := bind_eq_ok.mp hok
  exact ⟨of_decide_eq_true (assertThat_eq_ok.mp hset), depth, hdepth, hok⟩

/-- What `Set` keeps on each page, `SetList` keeps, as no page of the list is a table. -/
lemma setList_rule {P : State α → Prop} {size : MemoryMap.Size} {w : Bool} (hs : P s)
    (he : size.pageSize ≠ 0x1000 → isHuge entry = true)
    (hstep : ∀ depth, calcDepth size.pageSize = .ok depth → ∀ k < size.pageCount.toNat,
      depth = 3 ∨ link (pageAt entry size.pageSize k) = none → ∀ u w v, P u →
      set A pml4 (pageAt start size.pageSize k) (pageAt entry size.pageSize k) mask depth u =
        .ok (some w, v) → P v)
    (hok : setList A pml4 start entry size mask s = .ok (w, t)) : P t := by
  obtain ⟨-, depth, hdepth, hok⟩ := setList_eq_ok hok
  obtain ⟨hmod, hcases⟩ := calcDepth_eq_ok hdepth
  refine setPages_rule hs (fun k hk => hstep depth hdepth k hk ?_) hok
  exact hcases.imp And.left fun h =>
    link_eq_none.mpr (.inr ((isHuge_pageAt entry hmod k).trans (he h.2)))

end

section
variable {α : Type} {A : AllocatorOps α} {used : α → Set Frame} {I : Set Index}
variable {pml4 : PhysAddr} {s t : State α} {start : VirtAddr} {entry mask pageSize : Word}
variable {n : ℕ} {w : Bool}
variable (hA : FrameContract A used) (ht : Tree used I s) (hcr3 : s.cr3 = pml4)
include hA ht hcr3

lemma Tree.unsetPages (hpages : PagesIn I start pageSize n)
    (hok : unsetPages A pml4 pageSize n start s = .ok t) :
    Tree used I t ∧ Confined used I s t := by
  refine unsetPages_rule (P := fun u => Tree used I u ∧ Confined used I s u) ⟨ht, .refl _⟩
    (fun k hk u v hu hv => ?_) hok
  obtain ⟨hv', hc⟩ := hu.1.unset hA (hpages k hk) (hu.2.cr3.trans hcr3) hv
  exact ⟨hv', hu.2.trans hc⟩

lemma Tree.setList {size : MemoryMap.Size} (hm : IsParentMask mask)
    (he : size.pageSize ≠ 0x1000 → isHuge entry = true)
    (hpages : PagesIn I start size.pageSize size.pageCount.toNat)
    (hok : setList A pml4 start entry size mask s = .ok (w, t)) :
    Tree used I t ∧ Confined used I s t := by
  refine setList_rule (P := fun u => Tree used I u ∧ Confined used I s u) ⟨ht, .refl _⟩ he
    (fun depth _ k hk hlink u w v hu hv => ?_) hok
  obtain ⟨hv', hc⟩ := hu.1.set hA (hpages k hk) (hu.2.cr3.trans hcr3) hm hlink hv
  exact ⟨hv', hu.2.trans hc⟩

end

end Anarch.PageTable
