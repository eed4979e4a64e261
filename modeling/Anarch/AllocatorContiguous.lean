import Anarch.AllocatorFailure

/-! `AllocAndMapContiguous` over an allocator and a global map that meet their contracts: a call
that fails leaves nothing behind, and `FreeAndUnmapContiguous` undoes one that succeeds. -/
namespace Anarch.AllocatorMapping
open MemoryMap

/-- What the callers of a physical allocator rely on: `blocks` tells how long the outstanding
block at an address is. -/
structure BlockContract {α : Type} (A : AllocatorOps α)
    (blocks : α → PhysAddr → Option PhysSize) : Prop where
  refused : ∀ size align a, (A.alloc size align a).1 = none →
    blocks (A.alloc size align a).2 = blocks a
  granted : ∀ size align a phys, (A.alloc size align a).1 = some phys →
    phys % align = 0 ∧ blocks a phys = none ∧
      blocks (A.alloc size align a).2 = Function.update (blocks a) phys (some size)
  freed : ∀ a phys size, blocks a phys = some size →
    blocks (A.free phys a) = Function.update (blocks a) phys none

/-- The pages of a range hold the physical memory from `phys` on, in order. -/
def placed (addr : VirtAddr) (size : Size) (phys : PhysAddr) (before : VirtAddr → Option Page) :
    VirtAddr → Option Page := fun v =>
  if v ∈ pageStarts addr size.pageSize size.pageCount.toNat then
    some (size.pageSize, some (phys + (v - addr)))
  else before v

def cleared (addr : VirtAddr) (size : Size) (before : VirtAddr → Option Page) :
    VirtAddr → Option Page := fun v =>
  if v ∈ pageStarts addr size.pageSize size.pageCount.toNat then none else before v

/-- What the callers of `Map`, `Read` and `Unmap` rely on. Pages are mapped to multiples of their
size. -/
structure PlacementContract {μ : Type} (M : MapOps μ) (pages : μ → VirtAddr → Option Page) :
    Prop where
  read_mapped : ∀ g v pageSize phys, pages g v = some (pageSize, some phys) →
    M.read v g = some (phys, pageSize)
  map_refused : ∀ phys size attributes g, (M.map phys size attributes g).1 = none →
    pages (M.map phys size attributes g).2 = pages g
  map_granted : ∀ phys size attributes g res, phys % size.pageSize = 0 →
    (M.map phys size attributes g).1 = some res → res.toNat + size.span ≤ 2 ^ 64 ∧
    (∀ v : VirtAddr, res.toNat ≤ v.toNat → v.toNat < res.toNat + size.span →
      pages g v = none) ∧
    pages (M.map phys size attributes g).2 = placed res size phys (pages g)
  unmap_pages : ∀ g addr size, (∀ v ∈ pageStarts addr size.pageSize size.pageCount.toNat,
      ∃ phys, pages g v = some (size.pageSize, some phys)) →
    pages (M.unmap addr size g) = cleared addr size (pages g)

section
variable {addr v : VirtAddr} {size : Size} {phys : PhysAddr} {before : VirtAddr → Option Page}

lemma placed_of_mem (h : v ∈ pageStarts addr size.pageSize size.pageCount.toNat) :
    placed addr size phys before v = some (size.pageSize, some (phys + (v - addr))) := if_pos h

lemma start_mem_pageStarts {pageSize : Word} {n : ℕ} (hn : 0 < n) :
    addr ∈ pageStarts addr pageSize n := by
  obtain ⟨n, rfl⟩ := Nat.exists_eq_succ_of_ne_zero hn.ne'
  rw [pageStarts_succ]
  exact List.mem_cons_self

lemma cleared_placed (hfree : ∀ v ∈ pageStarts addr size.pageSize size.pageCount.toNat,
    before v = none) : cleared addr size (placed addr size phys before) = before := by
  funext v
  rw [cleared, placed]
  split_ifs with hv
  · exact (hfree v hv).symm
  · rfl

end

section
variable {α μ : Type} {A : AllocatorOps α} {M : MapOps μ} {pages : μ → VirtAddr → Option Page}
variable {blocks : α → PhysAddr → Option PhysSize} {size : Word} {s t : Machine α μ}
variable {res : VirtAddr}

lemma SameResources.refl (s : Machine α μ) : SameResources pages blocks s s := ⟨rfl, rfl⟩

variable (pages blocks size) in
/-- One more block is outstanding, of the pages that cover the size, and these are mapped in order
from `res` on, where there were no pages. -/
structure OneBlock (i : Fin 2) (phys : PhysAddr) (res : VirtAddr) (s t : Machine α μ) : Prop where
  fresh : blocks s.alloc phys = none
  block : blocks t.alloc = Function.update (blocks s.alloc) phys
    (some (pagesFor size (getPageSize i) * getPageSize i))
  free : ∀ v ∈ pageStarts res (getPageSize i) (pagesFor size (getPageSize i)).toNat,
    pages s.map v = none
  mapped : pages t.map =
    placed res ⟨getPageSize i, pagesFor size (getPageSize i)⟩ phys (pages s.map)
  covers : size.toNat ≤ (Size.mk (getPageSize i) (pagesFor size (getPageSize i))).span

lemma update_update_none {f : PhysAddr → Option PhysSize} {phys : PhysAddr} {n : PhysSize}
    (h : f phys = none) : Function.update (Function.update f phys (some n)) phys none = f := by
  rw [Function.update_idem, ← h, Function.update_eq_self]

lemma pagesFor_pos (hsize : 0 < size) (i : Fin 2) : 0 < (pagesFor size (getPageSize i)).toNat := by
  have hpos : 0 < size.toNat := hsize
  have hcovers := (pagesFor_covers size (two_le_getPageSize i)).1
  exact Nat.pos_of_ne_zero fun h => by
    rw [h, Nat.mul_zero] at hcovers
    omega

section
variable (hA : BlockContract A blocks) (hM : PlacementContract M pages)
include hA hM

lemma contiguousAttempts_cases (order : List (Fin 2)) {r : Option VirtAddr}
    (h : contiguousAttempts A M size order s = (r, t)) :
    (r = none ∧ SameResources pages blocks s t) ∨
      ∃ res i phys, r = some res ∧ i ∈ order ∧ OneBlock pages blocks size i phys res s t := by
  induction order generalizing s with
  | nil =>
    obtain ⟨rfl, rfl⟩ := Prod.mk.inj h
    exact .inl ⟨rfl, .refl s⟩
  | cons i rest ih =>
    have hrest : ∀ u, SameResources pages blocks s u →
        contiguousAttempts A M size rest u = (r, t) → (r = none ∧ SameResources pages blocks s t) ∨
          ∃ res j phys, r = some res ∧ j ∈ i :: rest ∧
            OneBlock pages blocks size j phys res s t := by
      rintro u ⟨hpages, hblocks⟩ hu
      rcases ih hu with ⟨hr, hpages', hblocks'⟩ | ⟨res, j, phys, hr, hj, hone⟩
      · exact .inl ⟨hr, hpages'.trans hpages, hblocks'.trans hblocks⟩
      · refine .inr ⟨res, j, phys, hr, List.mem_cons_of_mem _ hj, ?_⟩
        obtain ⟨hfresh, hblock, hfree, hmapped, hcovers⟩ := hone
        rw [hpages] at hfree hmapped
        rw [hblocks] at hfresh hblock
        exact ⟨hfresh, hblock, hfree, hmapped, hcovers⟩
    rw [contiguousAttempts] at h
    split_ifs at h with hskip
    · exact hrest s (.refl s) h
    dsimp only at h
    have hrefused := hA.refused (pagesFor size (getPageSize i) * getPageSize i)
      (getPageSizeAlign i) s.alloc
    have hgranted := hA.granted (pagesFor size (getPageSize i) * getPageSize i)
      (getPageSizeAlign i) s.alloc
    rcases halloc : A.alloc (pagesFor size (getPageSize i) * getPageSize i) (getPageSizeAlign i)
      s.alloc with ⟨_ | phys, alloc⟩
    · rw [halloc] at h hrefused
      exact hrest { s with alloc } ⟨rfl, hrefused rfl⟩ h
    rw [halloc] at h hgranted
    obtain ⟨halign, hfresh, hblock⟩ := hgranted phys rfl
    dsimp only at h hblock
    have hmapRefused := hM.map_refused phys ⟨getPageSize i, pagesFor size (getPageSize i)⟩ {} s.map
    have hmapGranted := hM.map_granted phys ⟨getPageSize i, pagesFor size (getPageSize i)⟩ {} s.map
    rcases hmap : M.map phys ⟨getPageSize i, pagesFor size (getPageSize i)⟩ {} s.map with
      ⟨_ | res, map⟩
    · rw [hmap] at h hmapRefused
      refine hrest _ ⟨hmapRefused rfl, ?_⟩ h
      -- the block goes back, as there is no room for its pages
      have hfreed := hA.freed alloc phys (pagesFor size (getPageSize i) * getPageSize i)
        (by rw [hblock, Function.update_self])
      rw [hblock, update_update_none hfresh] at hfreed
      exact hfreed
    · rw [hmap] at h hmapGranted
      obtain ⟨rfl, rfl⟩ := Prod.mk.inj h
      obtain ⟨hfits, hfree, hpages⟩ := hmapGranted res halign rfl
      refine .inr ⟨res, i, phys, rfl, List.mem_cons_self, hfresh, hblock, fun v hv => ?_, hpages,
        (pagesFor_covers size (two_le_getPageSize i)).1⟩
      obtain ⟨hlow, hhigh⟩ := mem_range_of_mem_pageStarts (getPageSize_pos i) hfits hv
      exact hfree v hlow hhigh

lemma OneBlock.undone (hsize : 0 < size) {i : Fin 2} {phys : PhysAddr}
    (h : OneBlock pages blocks size i phys res s t) :
    ∃ u, freeAndUnmapContiguous A M res size t = .ok u ∧ SameResources pages blocks s u := by
  have hpos := pagesFor_pos hsize i
  have hfirst : pages t.map res = some (getPageSize i, some phys) := by
    have hmem : res ∈ pageStarts res (getPageSize i) (pagesFor size (getPageSize i)).toNat :=
      start_mem_pageStarts hpos
    rw [h.mapped, placed, if_pos hmem, BitVec.sub_self, BitVec.add_zero]
  have hne : getPageSize i ≠ 0 := fun hzero => by
    have := getPageSize_pos i
    rw [hzero] at this
    exact lt_irrefl 0 this
  have hunmap : pages (M.unmap res ⟨getPageSize i, pagesFor size (getPageSize i)⟩ t.map) =
      pages s.map := by
    rw [hM.unmap_pages, h.mapped]
    · exact @cleared_placed res ⟨getPageSize i, pagesFor size (getPageSize i)⟩ phys _ h.free
    · intro v hv
      rw [h.mapped]
      exact ⟨_, placed_of_mem hv⟩
  have hfreed : blocks (A.free phys t.alloc) = blocks s.alloc := by
    rw [hA.freed t.alloc phys (pagesFor size (getPageSize i) * getPageSize i), h.block,
      update_update_none h.fresh]
    rw [h.block, Function.update_self]
  refine ⟨⟨A.free phys t.alloc, M.unmap res ⟨getPageSize i, pagesFor size (getPageSize i)⟩ t.map,
    t.calls ++ [.freed phys]⟩, ?_, hunmap, hfreed⟩
  rw [freeAndUnmapContiguous, hM.read_mapped _ _ _ _ hfirst]
  dsimp only
  simp only [checkedDiv_of_ne hne, bind, Except.bind, pure, Except.pure]

/-- The contiguous allocation is all or nothing, and `FreeAndUnmapContiguous` is its inverse. -/
theorem contiguous_all_or_nothing (hsize : 0 < size) (bigPages : Bool) (s : Machine α μ) :
    (∀ t, allocAndMapContiguous A M size bigPages s = (none, t) →
      SameResources pages blocks s t) ∧
    ∀ res t, allocAndMapContiguous A M size bigPages s = (some res, t) →
      (∃ i ∈ pageSizes bigPages, ∃ phys, OneBlock pages blocks size i phys res s t) ∧
      ∃ u, freeAndUnmapContiguous A M res size t = .ok u ∧ SameResources pages blocks s u := by
  constructor
  · intro t ht
    rcases contiguousAttempts_cases hA hM _ ht with ⟨-, hsame⟩ | ⟨_, _, _, hres, -⟩
    · exact hsame
    · cases hres
  · intro res t ht
    rcases contiguousAttempts_cases hA hM _ ht with ⟨hres, -⟩ | ⟨_, i, phys, hres, hi, hone⟩
    · cases hres
    · obtain rfl := Option.some.inj hres
      exact ⟨⟨i, hi, phys, hone⟩, hone.undone hA hM hsize⟩

end

end

namespace SingleRange

/-- `Map` of the one range, if it is free. -/
def mapRange (phys : PhysAddr) (size : Size) : Pages → Option VirtAddr × Pages
  | [] =>
      if base.toNat + size.span ≤ 2 ^ 64 then
        (some base, (pageStarts base size.pageSize size.pageCount.toNat).map
          fun v => (v, size.pageSize, some (phys + (v - base))))
      else (none, [])
  | g => (none, g)

def rangeOps : MapOps Pages :=
  { mapOps with
    map := fun phys size _ g => mapRange phys size g
    unmap := fun addr size g =>
      g.filter fun e => e.1 ∉ pageStarts addr size.pageSize size.pageCount.toNat }

theorem range_meets : PlacementContract rangeOps pages where
  read_mapped := meets.read_mapped
  map_refused phys size attributes g h := by
    cases g with
    | nil =>
      simp only [rangeOps, mapRange] at h ⊢
      split_ifs at h ⊢
      rfl
    | cons e g => rfl
  map_granted phys size attributes g res _ h := by
    cases g with
    | nil =>
      simp only [rangeOps, mapRange] at h ⊢
      split_ifs at h ⊢ with hfit
      obtain rfl := Option.some.inj h
      refine ⟨hfit, fun _ _ _ => rfl, ?_⟩
      funext v
      exact pages_map_start (fun v => (size.pageSize, some (phys + (v - base)))) _ v
    | cons e g => simp [rangeOps, mapRange] at h
  unmap_pages g addr size h := by
    funext v
    simp only [rangeOps, pages_filter (· ∉ pageStarts addr size.pageSize size.pageCount.toNat),
      cleared, ite_not]

end SingleRange

/-- One block of any size at 1 MiB, if that is aligned. -/
def oneBlock : AllocatorOps (Option PhysSize) where
  alloc size align
    | none => if 0x100000 % align = 0 then (some 0x100000, some size) else (none, none)
    | some held => (none, some held)
  free addr held := if addr = 0x100000 then none else held

def oneBlockView (held : Option PhysSize) (phys : PhysAddr) : Option PhysSize :=
  if phys = 0x100000 then held else none

lemma oneBlock_meets : BlockContract oneBlock oneBlockView where
  refused size align a h := by
    cases a with
    | none =>
      simp only [oneBlock] at h ⊢
      split_ifs at h ⊢
      rfl
    | some held => rfl
  granted size align a phys h := by
    cases a with
    | none =>
      simp only [oneBlock] at h ⊢
      split_ifs at h ⊢ with halign
      obtain rfl := Option.some.inj h
      refine ⟨halign, rfl, ?_⟩
      funext p
      simp [oneBlockView, Function.update_apply]
    | some held => cases h
  freed a phys size h := by
    unfold oneBlockView at h
    split_ifs at h with hphys
    funext p
    subst hphys
    by_cases hp : p = 0x100000
    · subst hp
      rw [Function.update_self]
      exact if_pos rfl
    · rw [Function.update_of_ne hp]
      exact (if_neg hp).trans (if_neg hp).symm

/-- Half a page more than one page, with big pages allowed: two small pages, and back. -/
theorem contiguous_two_pages : ∃ res t u, allocAndMapContiguous oneBlock SingleRange.rangeOps
      0x1800 true ⟨none, [], []⟩ = (some res, t) ∧ t.map.length = 2 ∧
    freeAndUnmapContiguous oneBlock SingleRange.rangeOps res 0x1800 t = .ok u ∧
    SameResources SingleRange.pages oneBlockView ⟨none, [], []⟩ u := by
  have hrun := (contiguous_all_or_nothing oneBlock_meets SingleRange.range_meets
    (show (0 : Word) < 0x1800 by decide) true ⟨none, [], []⟩).2
  obtain ⟨-, u, hu, hsame⟩ := hrun _ _ rfl
  exact ⟨_, _, u, rfl, rfl, hu, hsame⟩

end Anarch.AllocatorMapping
