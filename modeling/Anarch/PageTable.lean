import Anarch.ApiTypes
import Anarch.RadixTree

/-! x86-64 page tables: the walk of the processor, and the page-table code, which reaches
the tables of the current map through its recursive entry. -/
namespace Anarch.PageTable

/-- The number of a 4 KiB frame of physical memory, which has 52 address bits. -/
abbrev Frame := BitVec 40

/-- The index of an entry in its table. -/
abbrev Index := BitVec 9

abbrev PhysMem := RadixTree.Store Frame Index Word

def frameAddr (f : Frame) : PhysAddr := f.setWidth 64 <<< 12

/-- The frame of a physical address, or the one an entry points to. -/
def frameOf (p : PhysAddr) : Frame := (p >>> 12).setWidth 40

def isPresent (entry : Word) : Bool := entry &&& 1 ≠ 0

def isHuge (entry : Word) : Bool := entry &&& 0x80 ≠ 0

/-- The index that an address selects in the table at a depth. -/
def index (addr : VirtAddr) (depth : ℕ) : Index := (addr >>> (39 - 9 * depth)).setWidth 9

/-- Bits 47 to 63 are all equal. -/
def canonical (addr : VirtAddr) : Bool := addr.sshiftRight 47 = 0 || addr.sshiftRight 47 = -1

/-- The frame of an address in a page of `2 ^ bits` frames. -/
def frameInPage (page : Frame) (addr : VirtAddr) (bits : ℕ) : Frame :=
  (page >>> bits <<< bits) ||| ((addr >>> 12).setWidth 40 &&& (1#40 <<< bits - 1))

/-- The page walk of the processor: the frame and the offset in it. -/
def translate (mem : PhysMem) (cr3 : PhysAddr) (addr : VirtAddr) : Option (Frame × BitVec 12) :=
  let e0 := mem (frameOf cr3) (index addr 0)
  let e1 := mem (frameOf e0) (index addr 1)
  let e2 := mem (frameOf e1) (index addr 2)
  let e3 := mem (frameOf e2) (index addr 3)
  if !canonical addr || !isPresent e0 || isHuge e0 || !isPresent e1 then none
  else if isHuge e1 then some (frameInPage (frameOf e1) addr 18, addr.setWidth 12)
  else if !isPresent e2 then none
  else if isHuge e2 then some (frameInPage (frameOf e2) addr 9, addr.setWidth 12)
  else if !isPresent e3 then none
  else some (frameOf e3, addr.setWidth 12)

/-- Physical memory, CR3, the allocator of page tables with the calls made to it, and the
ranges passed to `DistributeInvlpg`. -/
structure State (α : Type) where
  mem : PhysMem
  cr3 : PhysAddr
  alloc : α
  calls : List AllocatorCall
  invalidated : List (VirtAddr × Word)

/-- The address of the entry for an address, in the fractal map. -/
def getTableEntry (address : VirtAddr) (depth : ℕ) : VirtAddr :=
  let address := address &&& 0xFFFFFFFFFFFF
  match depth with
  | 3 => 0xFFFFFF8000000000 + ((address / 0x200) &&& ~~~(7 : Word))
  | 2 => 0xFFFFFFFFC0000000 + ((address / 0x40000) &&& ~~~(7 : Word))
  | 1 => 0xFFFFFFFFFFE00000 + ((address / 0x8000000) &&& ~~~(7 : Word))
  | _ => 0xFFFFFFFFFFFFF000 + ((address / 0x1000000000) &&& ~~~(7 : Word))

def getTableStart (address : VirtAddr) (depth : ℕ) : VirtAddr :=
  getTableEntry address depth &&& ~~~(0xfff : Word)

def calcDepth (size : Word) : Outcome ℕ :=
  if size = 0x1000 then .ok 3
  else if size = 0x200000 then .ok 2
  else if size = 0x40000000 then .ok 1
  else .error (.panic "PageTable::CalcDepth() - unknown page size")

def calcMask (pageSize : Word) (kernel : Bool) (attributes : MemoryMap.Attributes) : Word :=
  1 ||| (if pageSize = 0x1000 then 0 else 0x80) ||| (if kernel then 0x100 else 0x4)
    ||| (if attributes.executable then 0 else 1 <<< 63) ||| (if attributes.writable then 2 else 0)

/-- The size of a page at a depth: `0x1000UL << (27 - 9 * depth)`. -/
def pageSizeAt (depth : ℕ) : Word := 0x1000 <<< (27 - 9 * depth)

section
variable {α : Type} (A : AllocatorOps α) (pml4 : PhysAddr)

/-- The word of memory at a virtual address. -/
def access (s : State α) (addr : VirtAddr) : Outcome (Frame × Index) :=
  match translate s.mem s.cr3 addr with
  | none => .error (.pageFault addr)
  | some (f, offset) => .ok (f, (offset >>> 3).setWidth 9)

def readWord (s : State α) (addr : VirtAddr) : Outcome Word := do
  let at' ← access s addr
  return s.mem at'.1 at'.2

def writeWord (s : State α) (addr : VirtAddr) (entry : Word) : Outcome (State α) := do
  let at' ← access s addr
  return { s with mem := s.mem.write at'.1 at'.2 entry }

/-- `Bzero(addr, 0x1000)` for a page-aligned address. -/
def zeroPage (s : State α) (addr : VirtAddr) : Outcome (State α) := do
  let at' ← access s addr
  return { s with mem := s.mem.fill at'.1 0 }

def free (addr : PhysAddr) (s : State α) : State α :=
  { s with alloc := A.free addr s.alloc, calls := s.calls ++ [.freed addr] }

def distributeInvlpg (start : VirtAddr) (size : Word) (s : State α) : State α :=
  { s with invalidated := s.invalidated ++ [(start, size)] }

def isSet (s : State α) : Bool := s.cr3 = pml4

/-- What `Walk` returns: the depth is `none` for -1. -/
structure WalkResult where
  depth : Option ℕ
  entry : Word
  size : Word
  deriving DecidableEq, Repr

def walkFrom (s : State α) (addr : VirtAddr) : ℕ → ℕ → Word → Outcome (ℕ × Word)
  | 0, depth, entry => .ok (depth, entry)
  | n + 1, depth, _ => do
      let entry ← readWord s (getTableEntry addr depth)
      if isHuge entry || !isPresent entry then return (depth, entry)
      else walkFrom s addr n (depth + 1) entry

def walk (addr : VirtAddr) (s : State α) : Outcome WalkResult := do
  assertThat "IsSet()" (isSet pml4 s)
  let found ← walkFrom s addr 4 0 0
  if found.1 = 4 || isHuge found.2 then
    let depth := if found.1 = 4 then 3 else found.1
    return ⟨some depth, found.2, pageSizeAt depth⟩
  else return ⟨none, found.2, pageSizeAt found.1⟩

/-- The loop of `Set` from a depth on, `n` tables down; false at a huge entry. -/
def descend (addr : VirtAddr) (parentMask : Word) :
    ℕ → ℕ → State α → Outcome (Bool × State α)
  | 0, _, s => .ok (true, s)
  | n + 1, depth, s => do
      let nextPage ← readWord s (getTableEntry addr depth)
      if !isPresent nextPage then
        match A.alloc 0x1000 0x1000 s.alloc with
        | (none, _) => .error (.panic "PageTable::Set() - allocation failed")
        | (some fresh, alloc) => do
            let s := { s with alloc, calls := s.calls ++ [.obtained fresh] }
            let s ← writeWord s (getTableEntry addr depth) (fresh ||| parentMask)
            let s ← zeroPage s (getTableStart addr (depth + 1))
            descend addr parentMask n (depth + 1) s
      else if isHuge nextPage then return (false, s)
      else do
        let s ← writeWord s (getTableEntry addr depth) (nextPage ||| parentMask)
        descend addr parentMask n (depth + 1) s

/-- `Set`: `none` if it returns false, else whether it overwrote an entry. -/
def set (addr : VirtAddr) (entry parentMask : Word) (theDepth : ℕ) (s : State α) :
    Outcome (Option Bool × State α) := do
  assertThat "IsSet()" (isSet pml4 s)
  assertThat "theDepth >= 0 && theDepth < 4" (theDepth < 4)
  assertThat "!(addr % (0x1000L << (27 - 9 * theDepth)))" (addr % pageSizeAt theDepth = 0)
  let reached ← descend A addr parentMask theDepth 0 s
  if reached.1 then
    let old ← readWord reached.2 (getTableEntry addr theDepth)
    let s ← writeWord reached.2 (getTableEntry addr theDepth) entry
    return (some (old ≠ 0), s)
  else return (none, reached.2)

/-- The first loop of `Unset`: the depth of the entry to clear. -/
def leafDepth (s : State α) (addr : VirtAddr) : ℕ → ℕ → Outcome ℕ
  | 0, depth => .ok depth
  | n + 1, depth => do
      let entry ← readWord s (getTableEntry addr depth)
      if isHuge entry then return depth
      else if !isPresent entry then .error (.panic "PageTable::Unset() - no mapping found")
      else leafDepth s addr n (depth + 1)

/-- The second loop of `Unset`: frees tables upwards while they are empty. -/
def ascend (addr : VirtAddr) : ℕ → State α → Outcome (State α)
  | 0, s => .ok s
  | depth + 1, s => do
      let tablePtr ← access s (getTableStart addr (depth + 1))
      if ∃ i, s.mem tablePtr.1 i ≠ 0 then return s
      else do
        let parentEntry ← readWord s (getTableEntry addr depth)
        let memory := parentEntry &&& 0x7FFFFFFFFFFFF000
        let s ← writeWord s (getTableEntry addr depth) 0
        ascend addr depth
          (free A memory (distributeInvlpg (getTableStart addr (depth + 1)) 0x1000 s))

/-- `Unset`, which always returns true if it returns. -/
def unset (addr : VirtAddr) (s : State α) : Outcome (State α) := do
  assertThat "IsSet()" (isSet pml4 s)
  assertThat "!(addr & 0xfff)" (addr &&& 0xfff = 0)
  let depth ← leafDepth s addr 3 0
  let s ← writeWord s (getTableEntry addr depth) 0
  ascend A addr depth s

/-- The loop of `SetList`, with what `overwrote` holds so far. -/
def setPages (parentMask : Word) (depth : ℕ) (pageSize : Word) :
    ℕ → VirtAddr → PhysAddr → Bool → State α → Outcome (Bool × State α)
  | 0, _, _, overwrote, s => .ok (overwrote, s)
  | n + 1, curVirt, curPhys, overwrote, s => do
      match ← set A pml4 curVirt curPhys parentMask depth s with
      | (none, _) => .error (.panic "PageTable::SetList() - Set() failed")
      | (some found, s) =>
          setPages parentMask depth pageSize n (curVirt + pageSize) (curPhys + pageSize)
            (if overwrote then true else found) s

def setList (virt : VirtAddr) (phys : PhysAddr) (size : MemoryMap.Size) (parentMask : Word)
    (s : State α) : Outcome (Bool × State α) := do
  assertThat "IsSet()" (isSet pml4 s)
  let depth ← calcDepth size.pageSize
  setPages A pml4 parentMask depth size.pageSize size.pageCount.toNat virt phys false s

/-- The loop over `Unset` in `Unmap` and its siblings of both memory maps. -/
def unsetPages (pageSize : Word) : ℕ → VirtAddr → State α → Outcome (State α)
  | 0, _, s => .ok s
  | n + 1, next, s => do unsetPages pageSize n (next + pageSize) (← unset A pml4 next s)

/-- What `Read` stores in its output arguments. -/
structure ReadResult where
  phys : PhysAddr
  attributes : MemoryMap.Attributes
  size : Word
  deriving DecidableEq, Repr

/-- `Read`: `none` if it returns false. -/
def read (addr : VirtAddr) (s : State α) : Outcome (Option ReadResult) := do
  assertThat "IsSet()" (isSet pml4 s)
  let found ← walk pml4 addr s
  match found.depth with
  | none => return none
  | some depth => do
      assertThat "entry != 0" (found.entry ≠ 0)
      assertThat "depth >= 2" (2 ≤ depth)
      return some
        { phys := if depth = 3 then found.entry &&& 0x7ffffffffffff000
            else found.entry &&& 0x7fffffffffe00000
          attributes :=
            { executable := found.entry &&& (1 <<< 63) = 0
              writable := found.entry &&& 2 ≠ 0
              cachable := true }
          size := found.size }

/-- The indices of the loop of `FreeTableRecursive`. -/
def indices (start stop : ℕ) : List Index := (List.range' start (stop - start)).map (.ofNat 9)

/-- `FreeTableRecursive` on a table `n` levels above the last. -/
def freeTableRecursive : ℕ → PhysAddr → List Index → State α → State α
  | 0, addr, _, s => free A addr s
  | n + 1, addr, range, s =>
      free A addr (range.foldl (fun s i =>
        let entry := s.mem (frameOf addr) i
        if entry = 0 || isHuge entry then s
        else freeTableRecursive n (entry &&& 0x7FFFFFFFFFFFF000) (indices 0 0x200) s) s)

def freeTable (start : ℕ) (s : State α) : Outcome (State α) := do
  assertThat "!IsSet()" (!isSet pml4 s)
  return freeTableRecursive A 3 pml4 (indices start 0x1ff) s

end

end Anarch.PageTable
