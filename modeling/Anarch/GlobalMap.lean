import Anarch.FreeFinder

/-! The memory map of the kernel half: the page table of the kernel and the finder of free
ranges. A reserved page has an entry that is not present. -/
namespace Anarch.GlobalMap
open PageTable FreeFinder

structure State (α : Type) where
  table : PageTable.State α
  pml4 : PhysAddr
  finder : Finder

/-- The entry of a reserved page. -/
def reservedEntry (pageSize : Word) : Word := pageSize ||| (if pageSize = 0x1000 then 0 else 0x80)

section
variable {α : Type} (A : AllocatorOps α)

def read (addr : VirtAddr) (s : State α) : Outcome (Option ReadResult) :=
  PageTable.read s.pml4 addr s.table

/-- `Map`: `none` if it returns false. The alignment it asks for is the page count. -/
def map (phys : PhysAddr) (size : MemoryMap.Size) (attributes : MemoryMap.Attributes)
    (s : State α) : Outcome (Option VirtAddr × State α) := do
  match ← alloc s.pml4 s.table size.bytes size.pageCount s.finder with
  | (none, finder) => return (none, { s with finder })
  | (some addr, finder) => do
      let mask := calcMask size.pageSize true attributes
      let (_, table) ← setList A s.pml4 addr (phys ||| mask) size 3 s.table
      return (some addr, { s with finder, table })

def mapAt (addr : VirtAddr) (phys : PhysAddr) (size : MemoryMap.Size)
    (attributes : MemoryMap.Attributes) (s : State α) : Outcome (State α) := do
  let mask := calcMask size.pageSize true attributes
  let (_, table) ← setList A s.pml4 addr (phys ||| mask) size 3 s.table
  return { s with table := distributeInvlpg addr size.bytes table }

def unmap (addr : VirtAddr) (size : MemoryMap.Size) (s : State α) : Outcome (State α) := do
  let table ← unsetPages A s.pml4 size.pageSize size.pageCount.toNat addr s.table
  return { s with
    finder := s.finder.free addr size.bytes
    table := distributeInvlpg addr size.bytes table }

def unmapAndReserve (addr : VirtAddr) (size : MemoryMap.Size) (s : State α) :
    Outcome (State α) := do
  let table ← unsetPages A s.pml4 size.pageSize size.pageCount.toNat addr s.table
  let (_, table) ← setList A s.pml4 addr (reservedEntry size.pageSize) size 3 table
  return { s with table := distributeInvlpg addr size.bytes table }

/-- `Reserve`: `none` if it returns false. -/
def reserve (size : MemoryMap.Size) (s : State α) : Outcome (Option VirtAddr × State α) := do
  match ← alloc s.pml4 s.table size.bytes size.pageSize s.finder with
  | (none, finder) => return (none, { s with finder })
  | (some addr, finder) => do
      let (_, table) ← setList A s.pml4 addr (reservedEntry size.pageSize) size 3 s.table
      return (some addr, { s with finder, table })

def reserveAt (addr : VirtAddr) (size : MemoryMap.Size) (s : State α) : Outcome (State α) := do
  let (_, table) ← setList A s.pml4 addr (reservedEntry size.pageSize) size 3 s.table
  return { s with table, finder := s.finder.reserve addr size.bytes }

def unreserve (addr : VirtAddr) (size : MemoryMap.Size) (s : State α) : Outcome (State α) :=
  unmap A addr size s

def rereserve (addr : VirtAddr) (size : MemoryMap.Size) (newPageSize : Word) (s : State α) :
    Outcome (State α) := do
  assertThat "size.Bytes() % newPageSize == 0" ((← checkedMod size.bytes newPageSize) = 0)
  assertThat "addr % newPageSize == 0" ((← checkedMod addr newPageSize) = 0)
  let table ← unsetPages A s.pml4 size.pageSize size.pageCount.toNat addr s.table
  let pageCount ← checkedDiv size.bytes newPageSize
  let (_, table) ←
    setList A s.pml4 addr (reservedEntry newPageSize) ⟨newPageSize, pageCount⟩ 3 table
  return { s with table := distributeInvlpg addr size.bytes table }

end

end Anarch.GlobalMap
