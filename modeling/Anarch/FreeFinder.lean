import Anarch.PageTable

/-! The search for free kernel address space: one candidate region, found again by a walk
over the page table when it cannot hold a request. -/
namespace Anarch.FreeFinder
open PageTable

/-- The candidate region. -/
structure Finder where
  freeStart : VirtAddr
  freeSize : Word
  deriving DecidableEq, Repr

namespace Finder

/-- The bytes before the next multiple of `align`. -/
def slice (f : Finder) (align : Word) : Word :=
  if f.freeStart % align ≠ 0 then align - f.freeStart % align else 0

def canAllocate (f : Finder) (size align : Word) : Outcome Bool :=
  if size = 0 then .ok true
  else do
    let _ ← checkedMod f.freeStart align
    return if f.freeSize ≤ f.slice align then false else size ≤ f.freeSize - f.slice align

/-- The end of `Alloc`, which takes the request out of the candidate. -/
def take (f : Finder) (size align : Word) : Outcome (VirtAddr × Finder) := do
  let _ ← checkedMod f.freeStart align
  let f : Finder := ⟨f.freeStart + f.slice align, f.freeSize - f.slice align⟩
  return (f.freeStart, ⟨f.freeStart + size, f.freeSize - size⟩)

def free (f : Finder) (addr : VirtAddr) (size : Word) : Finder :=
  if addr = f.freeStart + f.freeSize then { f with freeSize := f.freeSize + size }
  else if addr + size = f.freeStart then ⟨f.freeStart - size, f.freeSize + size⟩
  else f

def reserve (f : Finder) (addr : VirtAddr) (size : Word) : Finder :=
  if f.freeStart + f.freeSize < addr ∨ addr + size ≤ f.freeStart then f
  else
    let leftSize := if f.freeStart < addr then addr - f.freeStart else 0
    let rightSize :=
      if addr + size < f.freeStart + f.freeSize then f.freeStart + f.freeSize - (addr + size)
      else 0
    if leftSize = 0 ∧ rightSize = 0 then { f with freeSize := 0 }
    else if rightSize < leftSize then { f with freeSize := leftSize }
    else ⟨f.freeStart + (f.freeSize - rightSize), rightSize⟩

end Finder

section
variable {α : Type} (pml4 : PhysAddr) (table : PageTable.State α)

/-- The inner loop of `UpdateFreeRegion`: the address after the last page seen, and the size
of the hole, with the addresses that were passed to `Walk` and the sizes that came back. -/
def scanHoleSteps : ℕ → VirtAddr → VirtAddr → Word →
    Outcome ((VirtAddr × Word) × List (VirtAddr × Word))
  | 0, _, _, _ => .error .hang
  | n + 1, addr, nextStart, nextSize => do
      let found ← walk pml4 (nextStart + nextSize) table
      let step := (nextStart + nextSize, found.size)
      let addr := addr + found.size
      if found.depth ≠ none ∧ found.entry ≠ 0 then return ((addr, nextSize), [step])
      else
        let nextSize := nextSize + found.size
        if kernelEnd ≤ nextStart + nextSize then return ((addr, kernelEnd - nextStart), [step])
        else do
          let (found, steps) ← scanHoleSteps n addr nextStart nextSize
          return (found, step :: steps)

/-- The outer loop of `UpdateFreeRegion`, with the same record. -/
def scanSteps : ℕ → VirtAddr → Finder → Outcome (Finder × List (VirtAddr × Word))
  | 0, _, _ => .error .hang
  | n + 1, addr, f =>
      if addr < kernelEnd then do
        let ((addr', nextSize), steps) ← scanHoleSteps pml4 table 0x8000000 addr addr 0
        let (f, rest) ← scanSteps n addr' (if f.freeSize < nextSize then ⟨addr, nextSize⟩ else f)
        return (f, steps ++ rest)
      else .ok (f, [])

/-- `UpdateFreeRegion`. Each round of either loop passes at least one of the `2 ^ 27` small
pages below `KernelEnd`. -/
def updateFreeRegionSteps (f : Finder) : Outcome (Finder × List (VirtAddr × Word)) :=
  scanSteps pml4 table 0x8000001 0 f

/-- The loops without their record. -/
def scanHole (n : ℕ) (addr nextStart : VirtAddr) (nextSize : Word) : Outcome (VirtAddr × Word) :=
  (scanHoleSteps pml4 table n addr nextStart nextSize).map Prod.fst

def scan (n : ℕ) (addr : VirtAddr) (f : Finder) : Outcome Finder :=
  (scanSteps pml4 table n addr f).map Prod.fst

def updateFreeRegion (f : Finder) : Outcome Finder :=
  (updateFreeRegionSteps pml4 table f).map Prod.fst

/-- `Alloc`: `none` if it returns false. -/
def alloc (size align : Word) (f : Finder) : Outcome (Option VirtAddr × Finder) := do
  let f' ← if ← f.canAllocate size align then pure f else updateFreeRegion pml4 table f
  if ← f'.canAllocate size align then
    let (addr, f') ← f'.take size align
    return (some addr, f')
  else return (none, f')

variable {n : ℕ} (addr nextStart : VirtAddr) (nextSize : Word) (f : Finder)

lemma updateFreeRegion_eq : updateFreeRegion pml4 table f = scan pml4 table 0x8000001 0 f := rfl

lemma scanHole_round : scanHole pml4 table (n + 1) addr nextStart nextSize = (do
    let found ← walk pml4 (nextStart + nextSize) table
    if found.depth ≠ none ∧ found.entry ≠ 0 then return (addr + found.size, nextSize)
    else if kernelEnd ≤ nextStart + (nextSize + found.size) then
      return (addr + found.size, kernelEnd - nextStart)
    else scanHole pml4 table n (addr + found.size) nextStart (nextSize + found.size)) := by
  rw [scanHole, scanHoleSteps]
  cases walk pml4 (nextStart + nextSize) table with
  | error e => rfl
  | ok found =>
    simp only [bind, Except.bind, pure, Except.pure]
    split_ifs
    · rfl
    · rfl
    · rw [scanHole]
      cases scanHoleSteps pml4 table n (addr + found.size) nextStart (nextSize + found.size) <;> rfl

lemma scan_round : scan pml4 table (n + 1) addr f =
    if addr < kernelEnd then do
      let (addr', nextSize) ← scanHole pml4 table 0x8000000 addr addr 0
      scan pml4 table n addr' (if f.freeSize < nextSize then ⟨addr, nextSize⟩ else f)
    else .ok f := by
  rw [scan, scanSteps, scanHole]
  split_ifs
  · cases scanHoleSteps pml4 table 0x8000000 addr addr 0 with
    | error e => rfl
    | ok found =>
      obtain ⟨⟨next, size⟩, steps⟩ := found
      simp only [bind, Except.bind, pure, Except.pure, Except.map]
      rw [scan]
      cases scanSteps pml4 table n next (if f.freeSize < size then ⟨addr, size⟩ else f) <;> rfl
  · rfl

end

end Anarch.FreeFinder
