import Anarch.ApiTypes
import Mathlib.Data.Set.Basic

/-! `AllocAndMap` and `FreeAndUnmap` over any physical allocator and any global map.
The machine records the calls of `Alloc` that succeed and all calls of `Free`. -/
namespace Anarch.AllocatorMapping
open MemoryMap

/-- The virtual calls of `MemoryMap` that the allocator makes on the global map. -/
structure MapOps (μ : Type) where
  read : VirtAddr → μ → Option (PhysAddr × Word)
  map : PhysAddr → Size → Attributes → μ → Option VirtAddr × μ
  mapAt : VirtAddr → PhysAddr → Size → Attributes → μ → μ
  unmap : VirtAddr → Size → μ → μ
  reserve : Size → μ → Option VirtAddr × μ

structure Machine (α μ : Type) where
  alloc : α
  map : μ
  calls : List AllocatorCall

/-- The page sizes of the x64 global map, smallest first. -/
def getPageSize (idx : Fin 2) : Word := if idx = 0 then 0x1000 else 0x200000

def getPageSizeAlign (idx : Fin 2) : Word := getPageSize idx

def getCapabilities : Capabilities where
  placementReserve := true
  placementMap := true
  executableFlag := true
  writableFlag := true
  cachableFlag := false

/-- The indices tried by the allocation loops, in order. -/
def pageSizes (bigPages : Bool) : List (Fin 2) := if bigPages then [1, 0] else [0]

/-- A page size is passed over when the size is no multiple of it, the smallest never. -/
def skips (size : Word) (i : Fin 2) : Bool := i ≠ 0 && size % getPageSize i ≠ 0

/-- The number of pages, rounded up. -/
def pagesFor (size pageSize : Word) : Word :=
  if size % pageSize ≠ 0 then size / pageSize + 1 else size / pageSize

section
variable {α μ : Type} (A : AllocatorOps α) (M : MapOps μ)

/-- The `while (pageCount--)` loop: whether it mapped every page, and `dest` at its end. -/
def mapPages (pageSize pageAlign : Word) :
    ℕ → VirtAddr → Machine α μ → Bool × VirtAddr × Machine α μ
  | 0, dest, s => (true, dest, s)
  | n + 1, dest, s =>
      match A.alloc pageSize pageAlign s.alloc with
      | (none, alloc) => (false, dest, { s with alloc })
      | (some phys, alloc) =>
          mapPages pageSize pageAlign n (dest + pageSize)
            { alloc
              map := M.mapAt dest phys ⟨pageSize, 1⟩ {} s.map
              calls := s.calls ++ [.obtained phys] }

/-- The loop of `FreeAndUnmap`. A round for each byte is more than enough, unless `Read`
reports a page of size zero. -/
def unmapPages : ℕ → VirtAddr → Word → Machine α μ → Outcome (Machine α μ)
  | 0, _, remaining, s => if remaining = 0 then .ok s else .error .hang
  | n + 1, source, remaining, s =>
      if remaining = 0 then .ok s
      else
        match M.read source s.map with
        | none => .error (.panic "Allocator::FreeAndUnmap() - map.Read() failed")
        | some (_, pageSize) =>
            let s := { alloc := A.free source s.alloc
                       map := M.unmap source ⟨pageSize, 1⟩ s.map
                       calls := s.calls ++ [.freed source] }
            if remaining ≤ pageSize then .ok s
            else unmapPages n (source + pageSize) (remaining - pageSize) s

def freeAndUnmapContiguous (addr : VirtAddr) (size : Word) (s : Machine α μ) :
    Outcome (Machine α μ) :=
  match M.read addr s.map with
  | none => .error (.panic "Allocator::FreeAndUnmapContiguous() - GlobalMap::Read() failed")
  | some (physAddr, pageSize) => do
      let _ ← checkedDiv size pageSize
      return { alloc := A.free physAddr s.alloc
               map := M.unmap addr ⟨pageSize, pagesFor size pageSize⟩ s.map
               calls := s.calls ++ [.freed physAddr] }

def freeAndUnmap (addr : VirtAddr) (size : Word) (s : Machine α μ) : Outcome (Machine α μ) :=
  if !getCapabilities.placementMap then freeAndUnmapContiguous A M addr size s
  else unmapPages A M size.toNat addr size s

/-- What one round of the loop over page sizes comes to. -/
inductive Attempt
  | skipped
  | refused
  | exhausted
  | done (res : VirtAddr)
  deriving DecidableEq, Repr

/-- One round of the loop of `AllocAndMap`. -/
def attempt (size : Word) (i : Fin 2) (s : Machine α μ) : Outcome (Attempt × Machine α μ) :=
  if skips size i then .ok (.skipped, s)
  else
    match M.reserve ⟨getPageSize i, pagesFor size (getPageSize i)⟩ s.map with
    | (none, map) => .ok (.refused, { s with map })
    | (some res, map) =>
        match mapPages A M (getPageSize i) (getPageSizeAlign i)
            (pagesFor size (getPageSize i)).toNat res { s with map } with
        | (true, _, s) => .ok (.done res, s)
        | (false, dest, s) => do
            return (.exhausted, ← freeAndUnmap A M res (dest - res) s)

/-- The loop over page sizes; the address is `none` when `AllocAndMap` returns false. -/
def attempts (size : Word) : List (Fin 2) → Machine α μ →
    Outcome (Option VirtAddr × Machine α μ)
  | [], s => .ok (none, s)
  | i :: rest, s => do
      match ← attempt A M size i s with
      | (.done res, s) => return (some res, s)
      | (_, s) => attempts size rest s

/-- The loop of `AllocAndMapContiguous`. -/
def contiguousAttempts (size : Word) : List (Fin 2) → Machine α μ →
    Option VirtAddr × Machine α μ
  | [], s => (none, s)
  | i :: rest, s =>
      if skips size i then contiguousAttempts size rest s
      else
        let pageCount := pagesFor size (getPageSize i)
        match A.alloc (pageCount * getPageSize i) (getPageSizeAlign i) s.alloc with
        | (none, alloc) => contiguousAttempts size rest { s with alloc }
        | (some physBase, alloc) =>
            let calls := s.calls ++ [.obtained physBase]
            match M.map physBase ⟨getPageSize i, pageCount⟩ {} s.map with
            | (none, map) =>
                contiguousAttempts size rest
                  { alloc := A.free physBase alloc, map, calls := calls ++ [.freed physBase] }
            | (some res, map) => (some res, { alloc, map, calls })

def allocAndMapContiguous (size : Word) (bigPages : Bool) (s : Machine α μ) :
    Option VirtAddr × Machine α μ :=
  contiguousAttempts A M size (pageSizes bigPages) s

def allocAndMap (size : Word) (bigPages : Bool) (s : Machine α μ) :
    Outcome (Option VirtAddr × Machine α μ) :=
  if !getCapabilities.placementMap then .ok (allocAndMapContiguous A M size bigPages s)
  else attempts A M size (pageSizes bigPages) s

end

/-- A page of the map: its size, and the physical address unless it is only reserved. -/
abbrev Page := Word × Option PhysAddr

def pageStarts (addr : VirtAddr) (pageSize : Word) (n : ℕ) : List VirtAddr :=
  (List.range n).map fun i => addr + BitVec.ofNat 64 i * pageSize

/-- What the callers of `Alloc` rely on: its blocks are aligned and in the memory. -/
def BlocksOf {α : Type} (A : AllocatorOps α) (memory : Set PhysAddr) : Prop :=
  ∀ size align x phys y, A.alloc size align x = (some phys, y) →
    phys % align = 0 ∧ phys ∈ memory

/-- What the callers of the global map rely on: `pages` tells which page, if any, starts
at an address. A page is mapped to a multiple of its size in the memory. -/
structure MapContract {μ : Type} (M : MapOps μ) (pages : μ → VirtAddr → Option Page)
    (memory : Set PhysAddr) : Prop where
  read_mapped : ∀ g v pageSize phys, pages g v = some (pageSize, some phys) →
    M.read v g = some (phys, pageSize)
  reserve_refused : ∀ size g, (M.reserve size g).1 = none →
    pages (M.reserve size g).2 = pages g
  reserve_granted : ∀ size g res, (M.reserve size g).1 = some res →
    res.toNat + size.span ≤ 2 ^ 64 ∧
    (∀ v : VirtAddr, res.toNat ≤ v.toNat → v.toNat < res.toNat + size.span →
      pages g v = none) ∧
    pages (M.reserve size g).2 = fun v =>
      if v ∈ pageStarts res size.pageSize size.pageCount.toNat then some (size.pageSize, none)
      else pages g v
  mapAt_page : ∀ g v pageSize held phys attributes, pages g v = some (pageSize, held) →
    phys % pageSize = 0 → phys ∈ memory →
    pages (M.mapAt v phys ⟨pageSize, 1⟩ attributes g) =
      Function.update (pages g) v (some (pageSize, some phys))
  unmap_page : ∀ g v pageSize held, pages g v = some (pageSize, held) →
    pages (M.unmap v ⟨pageSize, 1⟩ g) = Function.update (pages g) v none

end Anarch.AllocatorMapping
