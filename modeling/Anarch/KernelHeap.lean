import Anarch.AllocatorMapping
import Anarch.GlobalMap
import Anarch.Malloc
import Anarch.PageTableLoaded

/-! The kernel heap on the x64 kernel map, whose calls can fail: `GlobalMalloc` asks
`AllocAndMap` for a segment when all of its segments are full. Domain 0 is the only
domain, so `Domain::Alloc` and `Domain::Free` have no siblings to try. -/
namespace Anarch.KernelHeap
open MemoryMap AllocatorMapping Malloc TransitionRun

/-- The kernel map with the machine under it, and the segments of the heap. -/
structure State (α η : Type) where
  map : GlobalMap.State α
  segments : List (Segment η)

/-- The pool size of `GlobalMalloc`. -/
def poolSize : Word := 0x200000

section
variable {α η : Type} (A : AllocatorOps α) (H : Heap η)

/-- The page allocator serves the tables of the map as well. -/
def allocPage (pageSize pageAlign : Word) (s : GlobalMap.State α) :
    Option PhysAddr × GlobalMap.State α :=
  match A.alloc pageSize pageAlign s.table.alloc with
  | (none, alloc) => (none, { s with table := { s.table with alloc } })
  | (some phys, alloc) =>
      (some phys, { s with table :=
        { s.table with alloc, calls := s.table.calls ++ [.obtained phys] } })

/-- The `while (pageCount--)` loop of `AllocAndMap`. -/
def mapPages (pageSize pageAlign : Word) :
    ℕ → VirtAddr → GlobalMap.State α → Outcome (Bool × VirtAddr × GlobalMap.State α)
  | 0, dest, s => .ok (true, dest, s)
  | n + 1, dest, s =>
      match allocPage A pageSize pageAlign s with
      | (none, s) => .ok (false, dest, s)
      | (some phys, s) => do
          let s ← GlobalMap.mapAt A dest phys ⟨pageSize, 1⟩ {} s
          mapPages pageSize pageAlign n (dest + pageSize) s

/-- The loop of `FreeAndUnmap`. -/
def unmapPages : ℕ → VirtAddr → Word → GlobalMap.State α → Outcome (GlobalMap.State α)
  | 0, _, remaining, s => if remaining = 0 then .ok s else .error .hang
  | n + 1, source, remaining, s =>
      if remaining = 0 then .ok s
      else do
        match ← GlobalMap.read source s with
        | none => .error (.panic "Allocator::FreeAndUnmap() - map.Read() failed")
        | some page => do
            let s ← GlobalMap.unmap A source ⟨page.size, 1⟩ s
            let s := { s with table := PageTable.free A source s.table }
            if remaining ≤ page.size then return s
            else unmapPages n (source + page.size) (remaining - page.size) s

/-- The loop of `AllocAndMap` over page sizes; `none` if it returns false. -/
def attempts (size : Word) :
    List (Fin 2) → GlobalMap.State α → Outcome (Option VirtAddr × GlobalMap.State α)
  | [], s => .ok (none, s)
  | i :: rest, s =>
      if skips size i then attempts size rest s
      else do
        let pageCount := pagesFor size (getPageSize i)
        match ← GlobalMap.reserve A ⟨getPageSize i, pageCount⟩ s with
        | (none, s) => attempts size rest s
        | (some res, s) => do
            match ← mapPages A (getPageSize i) (getPageSizeAlign i) pageCount.toNat res s with
            | (true, _, s) => return (some res, s)
            | (false, dest, s) => do
                let s ← unmapPages A (dest - res).toNat res (dest - res) s
                attempts size rest s

def allocAndMap (size : Word) (bigPages : Bool) (s : GlobalMap.State α) :
    Outcome (Option VirtAddr × GlobalMap.State α) :=
  attempts A size (pageSizes bigPages) s

/-- The call for a segment: made when the request is not too big and no segment has room. -/
def freshMemory (size : Word) (s : State α η) :
    Outcome (Option VirtAddr × GlobalMap.State α) :=
  if poolSize / 2 ≤ size ∨ (allocNoNewSegment H size s.segments).1 ≠ 0 then .ok (none, s.map)
  else allocAndMap A poolSize true s.map

/-- `Domain::Alloc`; the result is 0 when it returns false. -/
def alloc (size : Word) (s : State α η) : Outcome (VirtAddr × State α η) := do
  let (fresh, map) ← freshMemory A H size s
  let (addr, segments) ← Malloc.alloc H poolSize size fresh s.segments
  return (addr, ⟨map, segments⟩)

/-- `Domain::Free`. Neither the loop of `Owns` nor that of `Free` goes past the newest
segment. -/
def free (ptr : VirtAddr) : List (Segment η) → Outcome (List (Segment η))
  | [] => .error (.panic "Domain::Free() - no Domain owns the specified memory")
  | segment :: next =>
      if H.ownsPointer segment.heap ptr then
        .ok ({ segment with heap := H.free segment.heap ptr } :: next)
      else .error .hang

variable {A H}

/-- `free` is the composition of the loops of `Malloc::Owns` and `Malloc::Free`. -/
theorem free_eq_ok {ptr : VirtAddr} {segments out : List (Segment η)} :
    free H ptr segments = .ok out ↔
      Returns (ownsRound H ptr) segments true ∧ FreeReturns H ptr segments out := by
  constructor
  · intro h
    cases segments with
    | nil => cases h
    | cons segment next =>
      simp only [free] at h
      split_ifs at h with hown
      cases h
      exact ⟨.exit (by simp [ownsRound, hown]), freeReturns_front hown⟩
  · rintro ⟨-, h⟩
    obtain ⟨segment, next, rfl, hown, rfl⟩ := freeReturns_cases h
    simp [free, hown]

lemma free_ne_notSet (ptr : VirtAddr) (segments : List (Segment η)) :
    free H ptr segments ≠ .error PageTable.notSet := by
  cases segments with
  | nil => exact nofun
  | cons segment next =>
    simp only [free]
    split_ifs
    · exact nofun
    · exact nofun

/-- A request to a map that is not loaded fails, with or without a new search. -/
lemma reserve_of_ne {size : Size} {s : GlobalMap.State α} (hs : s.table.cr3 ≠ s.pml4)
    (hsize : size.pageSize ≠ 0) : GlobalMap.reserve A size s = .error PageTable.notSet := by
  have hscan : FreeFinder.updateFreeRegion s.pml4 s.table s.finder = .error PageTable.notSet := by
    show FreeFinder.scan s.pml4 s.table (0x8000000 + 1) 0 s.finder = _
    rw [FreeFinder.scan_round, if_pos (by decide)]
    show (FreeFinder.scanHole s.pml4 s.table (0x7ffffff + 1) 0 0 0 >>= _) = _
    rw [FreeFinder.scanHole_round, PageTable.walk_of_ne hs]
    rfl
  have hcan : ∃ b, s.finder.canAllocate size.bytes size.pageSize = .ok b := by
    by_cases h0 : size.bytes = 0
    · exact ⟨true, if_pos h0⟩
    · rw [FreeFinder.Finder.canAllocate, if_neg h0, checkedMod_of_ne hsize]
      exact ⟨_, rfl⟩
  obtain ⟨b, hb⟩ := hcan
  cases b with
  | false => simp [GlobalMap.reserve, FreeFinder.alloc, hb, hscan, bind, Except.bind]
  | true =>
    simp [GlobalMap.reserve, FreeFinder.alloc, hb, FreeFinder.Finder.take,
      checkedMod_of_ne hsize, PageTable.setList_of_ne _ _ _ hs, bind, Except.bind, pure,
      Except.pure]

lemma allocAndMap_of_ne {s : GlobalMap.State α} (hs : s.table.cr3 ≠ s.pml4) :
    allocAndMap A poolSize true s = .error PageTable.notSet := by
  show attempts A poolSize [1, 0] s = _
  rw [attempts, if_neg (by decide)]
  have h : GlobalMap.reserve A ⟨getPageSize 1, pagesFor poolSize (getPageSize 1)⟩ s =
      .error PageTable.notSet := reserve_of_ne hs (by decide)
  simp [h, bind, Except.bind]

lemma malloc_ok_of_room {size : Word} {segments : List (Segment η)} (hsize : size < poolSize / 2)
    (hroom : (allocNoNewSegment H size segments).1 ≠ 0) (fresh : Option VirtAddr) :
    Malloc.alloc H poolSize size fresh segments = .ok (allocNoNewSegment H size segments) := by
  unfold Malloc.alloc
  rw [if_neg (by simpa using hsize), if_pos hroom]

/-- With another table loaded the heap serves a request from the segments it has. -/
theorem alloc_eq {size : Word} {s : State α η} (hs : s.map.table.cr3 ≠ s.map.pml4)
    (hsize : size < poolSize / 2) :
    alloc A H size s =
      if (allocNoNewSegment H size s.segments).1 ≠ 0 then
        .ok ((allocNoNewSegment H size s.segments).1,
          ⟨s.map, (allocNoNewSegment H size s.segments).2⟩)
      else .error PageTable.notSet := by
  have hlt : ¬ poolSize / 2 ≤ size := by simpa using hsize
  split_ifs with hroom
  · rw [alloc, freshMemory, if_pos (.inr hroom)]
    simp only [bind, Except.bind, malloc_ok_of_room hsize hroom, pure, Except.pure]
  · have h0 : ¬ (poolSize / 2 ≤ size ∨ (allocNoNewSegment H size s.segments).1 ≠ 0) :=
      not_or.mpr ⟨hlt, hroom⟩
    rw [alloc, freshMemory, if_neg h0, allocAndMap_of_ne hs]
    rfl

end

end Anarch.KernelHeap
