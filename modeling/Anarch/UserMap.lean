import Anarch.FreeList
import Anarch.PageTable

/-! The memory map of a user address space: a page table of its own and a list of the free
address ranges. -/
namespace Anarch.UserMap
open PageTable

structure State (α : Type) where
  table : PageTable.State α
  pml4 : PhysAddr
  freeList : List FreeList.Region

/-- The contents of a new PML4: the kernel's PDPT and the recursive entry. -/
def mapData (pdpt pml4 : PhysAddr) (i : Index) : Word :=
  if i = 0 then pdpt ||| 3 else if i = 0x1ff then pml4 ||| 3 else 0

section
variable {α : Type} (A : AllocatorOps α)

/-- The constructor; `pdpt` is `GlobalMap::GetPdpt()`. -/
def construct (pdpt : PhysAddr) (table : PageTable.State α) : Outcome (State α) :=
  match A.alloc 0x1000 0x1000 table.alloc with
  | (none, _) => .error (.panic "UserMap::UserMap() - failed to allocate PML4")
  | (some pml4, alloc) => do
      let mem := Function.update table.mem (frameOf pml4) (mapData pdpt pml4)
      let freeList ← FreeList.free [] kernelEnd 0x8000000000 0xff
      let freeList ← FreeList.free freeList 0xFFFF800000000000 0x800000000 0xff
      return ⟨{ table with mem, alloc, calls := table.calls ++ [.obtained pml4] }, pml4, freeList⟩

/-- `Set` loads CR3. -/
def set (s : State α) : State α := { s with table := { s.table with cr3 := s.pml4 } }

def read (addr : VirtAddr) (s : State α) : Outcome (Option ReadResult) :=
  PageTable.read s.pml4 addr s.table

/-- `Map`: `none` if it returns false. -/
def map (phys : PhysAddr) (size : MemoryMap.Size) (attributes : MemoryMap.Attributes)
    (s : State α) : Outcome (Option VirtAddr × State α) := do
  let (addr, freeList) ← FreeList.alloc size.pageSize size.pageCount s.freeList
  if addr = 0 then return (none, { s with freeList })
  else do
    assertThat "addr >= PageTable::KernelEnd" (kernelEnd ≤ addr)
    let mask := calcMask size.pageSize false attributes
    let (_, table) ← setList A s.pml4 addr (phys ||| mask) size 7 s.table
    return (some addr, { s with freeList, table })

def mapAt (addr : VirtAddr) (phys : PhysAddr) (size : MemoryMap.Size)
    (attributes : MemoryMap.Attributes) (s : State α) : Outcome (State α) := do
  assertThat "addr >= PageTable::KernelEnd && addr + size.Bytes() >= PageTable::KernelEnd"
    (kernelEnd ≤ addr && kernelEnd ≤ addr + size.bytes)
  let mask := calcMask size.pageSize false attributes
  let (overwrote, table) ← setList A s.pml4 addr (phys ||| mask) size 7 s.table
  return { s with table := if overwrote then distributeInvlpg addr size.bytes table else table }

def unmap (addr : VirtAddr) (size : MemoryMap.Size) (s : State α) : Outcome (State α) := do
  let table ← unsetPages A s.pml4 size.pageSize size.pageCount.toNat addr s.table
  let freeList ← FreeList.free s.freeList addr size.pageSize size.pageCount
  return { s with freeList, table := distributeInvlpg addr size.bytes table }

def unmapAndReserve (addr : VirtAddr) (size : MemoryMap.Size) (s : State α) :
    Outcome (State α) := do
  let table ← unsetPages A s.pml4 size.pageSize size.pageCount.toNat addr s.table
  return { s with table := distributeInvlpg addr size.bytes table }

/-- `Reserve`: `none` if it returns false. -/
def reserve (size : MemoryMap.Size) (s : State α) : Outcome (Option VirtAddr × State α) := do
  let (addr, freeList) ← FreeList.alloc size.pageSize size.pageCount s.freeList
  return (if addr = 0 then none else some addr, { s with freeList })

def reserveAt (addr : VirtAddr) (size : MemoryMap.Size) (s : State α) : Outcome (State α) := do
  assertThat "addr >= PageTable::KernelEnd" (kernelEnd ≤ addr)
  assertThat "addr + size.Bytes() >= PageTable::KernelEnd" (kernelEnd ≤ addr + size.bytes)
  let (found, freeList) ← FreeList.allocAt s.freeList addr size.pageSize size.pageCount
  if found then return { s with freeList }
  else .error (.panic "UserMap::ReserveAt() - failed")

def unreserve (addr : VirtAddr) (size : MemoryMap.Size) (s : State α) : Outcome (State α) := do
  let freeList ← FreeList.free s.freeList addr size.pageSize size.pageCount
  return { s with freeList }

/-- `Rereserve` does nothing but check its arguments. -/
def rereserve (addr : VirtAddr) (oldSize : MemoryMap.Size) (newPageSize : Word) (s : State α) :
    Outcome (State α) := do
  assertThat "oldSize.Bytes() % newPageSize == 0" ((← checkedMod oldSize.bytes newPageSize) = 0)
  assertThat "addr % newPageSize == 0" ((← checkedMod addr newPageSize) = 0)
  return s

def destroy (s : State α) : Outcome (State α) := do
  let table ← freeTable A s.pml4 1 s.table
  return { s with table }

end

/-! What a call has done when it returns. -/
section
variable {α : Type} {A : AllocatorOps α} {s t : State α} {addr : VirtAddr} {phys : PhysAddr}
variable {size : MemoryMap.Size} {attributes : MemoryMap.Attributes} {r : Option VirtAddr}

lemma map_eq_ok (h : map A phys size attributes s = .ok (r, t)) : ∃ addr freeList,
    FreeList.alloc size.pageSize size.pageCount s.freeList = .ok (addr, freeList) ∧
    (addr = 0 ∧ r = none ∧ t = { s with freeList } ∨ addr ≠ 0 ∧ r = some addr ∧ ∃ w table,
      setList A s.pml4 addr (phys ||| calcMask size.pageSize false attributes) size 7 s.table =
        .ok (w, table) ∧ t = { s with freeList, table }) := by
  obtain ⟨⟨addr, freeList⟩, halloc, h⟩ := bind_eq_ok.mp h
  refine ⟨addr, freeList, halloc, ?_⟩
  simp only at h
  split_ifs at h with hzero
  · obtain ⟨rfl, rfl⟩ := Prod.mk.inj (Except.ok.inj h)
    exact .inl ⟨hzero, rfl, rfl⟩
  · obtain ⟨_, _, h⟩ := bind_eq_ok.mp h
    obtain ⟨⟨w, table⟩, hlist, h⟩ := bind_eq_ok.mp h
    obtain ⟨rfl, rfl⟩ := Prod.mk.inj (Except.ok.inj h)
    exact .inr ⟨hzero, rfl, w, table, hlist, rfl⟩

lemma mapAt_eq_ok (h : mapAt A addr phys size attributes s = .ok t) : ∃ overwrote table,
    setList A s.pml4 addr (phys ||| calcMask size.pageSize false attributes) size 7 s.table =
      .ok (overwrote, table) ∧
    t = { s with table := if overwrote then distributeInvlpg addr size.bytes table else table } := by
  obtain ⟨_, _, h⟩ := bind_eq_ok.mp h
  obtain ⟨⟨overwrote, table⟩, hlist, h⟩ := bind_eq_ok.mp h
  exact ⟨overwrote, table, hlist, (Except.ok.inj h).symm⟩

lemma unmap_eq_ok (h : unmap A addr size s = .ok t) : ∃ table freeList,
    unsetPages A s.pml4 size.pageSize size.pageCount.toNat addr s.table = .ok table ∧
    FreeList.free s.freeList addr size.pageSize size.pageCount = .ok freeList ∧
    t = { s with freeList, table := distributeInvlpg addr size.bytes table } := by
  obtain ⟨table, htable, h⟩ := bind_eq_ok.mp h
  obtain ⟨freeList, hfree, h⟩ := bind_eq_ok.mp h
  exact ⟨table, freeList, htable, hfree, (Except.ok.inj h).symm⟩

lemma unmapAndReserve_eq_ok (h : unmapAndReserve A addr size s = .ok t) : ∃ table,
    unsetPages A s.pml4 size.pageSize size.pageCount.toNat addr s.table = .ok table ∧
    t = { s with table := distributeInvlpg addr size.bytes table } := by
  obtain ⟨table, htable, h⟩ := bind_eq_ok.mp h
  exact ⟨table, htable, (Except.ok.inj h).symm⟩

lemma reserve_eq_ok (h : reserve size s = .ok (r, t)) : ∃ addr freeList,
    FreeList.alloc size.pageSize size.pageCount s.freeList = .ok (addr, freeList) ∧
    (addr = 0 ∧ r = none ∨ addr ≠ 0 ∧ r = some addr) ∧ t = { s with freeList } := by
  obtain ⟨⟨addr, freeList⟩, halloc, h⟩ := bind_eq_ok.mp h
  obtain ⟨rfl, rfl⟩ := Prod.mk.inj (Except.ok.inj h)
  refine ⟨addr, freeList, halloc, ?_, rfl⟩
  by_cases hzero : addr = 0
  · exact .inl ⟨hzero, if_pos hzero⟩
  · exact .inr ⟨hzero, if_neg hzero⟩

lemma reserveAt_eq_ok (h : reserveAt addr size s = .ok t) : ∃ freeList,
    FreeList.allocAt s.freeList addr size.pageSize size.pageCount = .ok (true, freeList) ∧
    t = { s with freeList } := by
  obtain ⟨_, _, h⟩ := bind_eq_ok.mp h
  obtain ⟨_, _, h⟩ := bind_eq_ok.mp h
  obtain ⟨⟨found, freeList⟩, halloc, h⟩ := bind_eq_ok.mp h
  cases found with
  | false => cases h
  | true => exact ⟨freeList, halloc, (Except.ok.inj h).symm⟩

lemma unreserve_eq_ok (h : unreserve addr size s = .ok t) : ∃ freeList,
    FreeList.free s.freeList addr size.pageSize size.pageCount = .ok freeList ∧
    t = { s with freeList } := by
  obtain ⟨freeList, hfree, h⟩ := bind_eq_ok.mp h
  exact ⟨freeList, hfree, (Except.ok.inj h).symm⟩

end

end Anarch.UserMap
