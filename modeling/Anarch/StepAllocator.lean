import Anarch.MultibootRegions

/-! The allocator of frames before the buddy allocator is there: it steps through the regions of
memory and takes nothing back. -/
namespace Anarch.StepAllocator
open MultibootRegionList TransitionRun

/-- `ANAlloc::Region::GetEnd`. -/
def getEnd (reg : Region) : Word := reg.start + reg.len

/-- `ANAlloc::Region::Contains`. -/
def contains (addr : PhysAddr) (reg : Region) : Bool := reg.start ≤ addr ∧ addr < getEnd reg

def findRegion (regions : Lists) (addr : PhysAddr) : Option Region :=
  (regions.lowerRegions.find? (contains addr)).or (regions.upperRegions.find? (contains addr))

def nextRegion (regions : Lists) (reg : Region) : Option Region :=
  (regions.lowerRegions.find? fun r => reg.start < r.start).or
    (regions.upperRegions.find? fun r => reg.start < r.start)

/-- The region that `Alloc` begins with. -/
def regionOf (regions : Lists) (lastAddr : PhysAddr) : Option Region :=
  (findRegion regions lastAddr).or (findRegion regions (lastAddr - 1))

def roundUp (align lastAddr : Word) : Word :=
  if lastAddr % align = 0 then lastAddr else lastAddr + (align - lastAddr % align)

/-- Where `lastAddr` is moved in a region. -/
def enter (align : Word) (reg : Region) (lastAddr : PhysAddr) : PhysAddr :=
  if getEnd reg < roundUp align lastAddr then getEnd reg - 1 else roundUp align lastAddr

/-- The place that `lastAddr` is moved to in a region leaves room for the size below `2 ^ 64`. -/
def SumFits (size align : Word) (reg : Region) (lastAddr : PhysAddr) : Prop :=
  (enter align reg lastAddr).toNat + size.toNat < 2 ^ 64

structure Cursor where
  lastAddr : PhysAddr
  reg : Region

section
variable (regions : Lists) (size align : Word)

/-- A round of the loop of `Alloc`, which leaves with the block, if there is one, and the new
`lastAddr`. -/
def allocBody (c : Cursor) : Cursor ⊕ Option PhysAddr × PhysAddr :=
  if getEnd c.reg < c.lastAddr + size then
    match nextRegion regions c.reg with
    | none => .inr (none, c.lastAddr)
    | some reg => .inl ⟨enter align reg reg.start, reg⟩
  else .inr (some c.lastAddr, c.lastAddr + size)

/-- `Alloc`, with at most so many rounds of its loop. -/
def alloc (rounds : ℕ) (lastAddr : PhysAddr) : Option (Outcome (Option PhysAddr × PhysAddr)) :=
  match regionOf regions lastAddr with
  | none => some (.ok (none, lastAddr))
  | some reg =>
      if align = 0 then some (.error .divideError)
      else (loop (allocBody regions size align) rounds ⟨enter align reg lastAddr, reg⟩).map .ok

end

/-- `lastAddr`, and the address and the size of each block handed out. -/
structure State where
  lastAddr : PhysAddr
  blocks : List (PhysAddr × Word)

def State.after (s : State) (size : Word) (result : Option PhysAddr × PhysAddr) : State :=
  ⟨result.2, result.1.elim s.blocks fun addr => (addr, size) :: s.blocks⟩

/-- Runs of `Alloc` on requests of some kind, from some places. -/
def calls (regions : Lists) (placed : PhysAddr → Prop) (request : Word → Word → Prop) :
    System State (Word × Word) where
  start s := placed s.lastAddr ∧ s.blocks = []
  step s a t := request a.1 a.2 ∧ ∃ rounds result,
    alloc regions a.1 a.2 rounds s.lastAddr = some (.ok result) ∧ t = s.after a.1 result

def blockEnd (b : PhysAddr × Word) : ℕ := b.1.toNat + b.2.toNat

/-- All regions, the lower ones first. -/
def allRegions (regions : Lists) : List Region := regions.lowerRegions ++ regions.upperRegions

section
variable {regions : Lists} {reg next : Region} {lastAddr : PhysAddr} {size align : Word}

lemma findRegion_eq (regions : Lists) (addr : PhysAddr) :
    findRegion regions addr = (allRegions regions).find? (contains addr) :=
  List.find?_append.symm

lemma nextRegion_eq (regions : Lists) (reg : Region) :
    nextRegion regions reg = (allRegions regions).find? fun r => reg.start < r.start :=
  List.find?_append.symm

lemma contains_iff {addr : PhysAddr} :
    contains addr reg = true ↔ reg.start ≤ addr ∧ addr < getEnd reg := decide_eq_true_iff

lemma regionOf_some (h : regionOf regions lastAddr = some reg) :
    reg ∈ allRegions regions ∧ reg.start ≤ lastAddr ∧ lastAddr ≤ getEnd reg := by
  rw [regionOf, findRegion_eq, findRegion_eq, Option.or_eq_some_iff] at h
  rcases h with h | ⟨-, h⟩
  · obtain ⟨hstart, hend⟩ := contains_iff.mp (List.find?_some h)
    exact ⟨List.mem_of_find?_eq_some h, hstart, BitVec.le_of_lt hend⟩
  · obtain ⟨hstart, hend⟩ := contains_iff.mp (List.find?_some h)
    have hlt := (getEnd reg).isLt
    refine ⟨List.mem_of_find?_eq_some h, ?_, ?_⟩
    · rw [BitVec.le_def] at hstart ⊢
      rw [BitVec.lt_def] at hend
      rw [BitVec.toNat_sub, show (1 : Word).toNat = 1 from rfl] at hstart hend
      omega
    · rw [BitVec.lt_def, BitVec.toNat_sub, show (1 : Word).toNat = 1 from rfl] at hend
      rw [BitVec.le_def]
      omega

lemma nextRegion_some (h : nextRegion regions reg = some next) :
    next ∈ allRegions regions ∧ reg.start < next.start := by
  rw [nextRegion_eq] at h
  have hlater := List.find?_some h
  exact ⟨List.mem_of_find?_eq_some h, of_decide_eq_true hlater⟩

end

end Anarch.StepAllocator
