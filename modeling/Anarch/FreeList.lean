import Anarch.ApiTypes

/-! The free list of user address space. The linked list of regions is a Lean list in
link order; `AllocRegion` always finds heap memory. Sizes and ends are 64-bit words, so
a region that reaches the top of the address space has end zero. -/
namespace Anarch.FreeList

structure Region where
  start : VirtAddr
  size : Word
  deriving DecidableEq, Repr

namespace Region

/-- The constructor with its assertion. -/
def new (start : VirtAddr) (size : Word) : Outcome Region :=
  if start < start + size ∨ start + size = 0 then .ok ⟨start, size⟩
  else .error (.assertion "start + size > start || start + size == 0")

def endAddr (r : Region) : VirtAddr := r.start + r.size

/-- The distance from `start` to the next multiple of `pageSize`, when positive. -/
def chopSize (start : VirtAddr) (pageSize : Word) : Word :=
  if start % pageSize ≠ 0 then pageSize - start % pageSize else 0

/-- The fit test of `CanHold`; every sum and product is taken modulo 2^64. -/
def hasRoom (r : Region) (pageSize pageCount : Word) : Bool :=
  chopSize r.start pageSize + pageSize * pageCount ≤ r.size

def canHold (r : Region) (pageSize pageCount : Word) : Outcome Bool := do
  let _ ← checkedMod r.start pageSize
  return r.hasRoom pageSize pageCount

def isAdjacentBehind (r : Region) (addr : VirtAddr) : Bool :=
  if r.start + r.size = 0 then false else r.start + r.size = addr

def contains (r reg : Region) : Bool :=
  if r.start > reg.start then false
  else if r.start + r.size ≠ 0 then
    if reg.start + reg.size = 0 then false else reg.start + reg.size ≤ r.start + r.size
  else true

def isBehind (r : Region) (addr : VirtAddr) : Bool :=
  if r.start + r.size = 0 then false else r.start + r.size ≤ addr

def isFilledBy (r reg : Region) : Bool := reg.start = r.start ∧ reg.size = r.size

def isEndedBy (r reg : Region) : Bool := reg.start + reg.size = r.start + r.size

def isStartedBy (r reg : Region) : Bool := reg.start = r.start

end Region

/-- `AllocRegion`: the heap object is constructed by the asserting constructor. -/
def allocRegion (start : VirtAddr) (size : Word) : Outcome Region := Region.new start size

/-- `AllocInRegion` on the list from `reg` on: what replaces `reg` and its successors. -/
def allocInRegion (reg : Region) (next : List Region) (requested : Region) :
    Outcome (List Region) :=
  if reg.isFilledBy requested then .ok next
  else if reg.isStartedBy requested then
    .ok ({ reg with start := reg.start + requested.size } :: next)
  else if reg.isEndedBy requested then
    .ok ({ reg with size := reg.size - requested.size } :: next)
  else do
    let suffixSize := reg.endAddr - requested.endAddr
    let suffix ← allocRegion requested.endAddr suffixSize
    return { reg with size := requested.start - reg.start } :: suffix :: next

/-- The list walk of `AllocAt`. -/
def allocAtFrom (requested : Region) : List Region → Outcome (Bool × List Region)
  | [] => .ok (false, [])
  | reg :: next =>
      if reg.contains requested then do
        return (true, ← allocInRegion reg next requested)
      else do
        let (found, rest) ← allocAtFrom requested next
        return (found, reg :: rest)

def allocAt (regions : List Region) (start : VirtAddr) (pageSize pageCount : Word) :
    Outcome (Bool × List Region) := do
  if (← checkedMod start pageSize) ≠ 0 then return (false, regions)
  let requested ← Region.new start (pageSize * pageCount)
  allocAtFrom requested regions

/-- The list walk of `Alloc`; the address is 0 when no region can hold the pages. -/
def alloc (pageSize pageCount : Word) : List Region → Outcome (VirtAddr × List Region)
  | [] => .ok (0, [])
  | reg :: next => do
      if ← reg.canHold pageSize pageCount then
        let requested ← Region.new (reg.start + Region.chopSize reg.start pageSize)
          (pageSize * pageCount)
        return (requested.start, ← allocInRegion reg next requested)
      else
        let (addr, rest) ← alloc pageSize pageCount next
        return (addr, reg :: rest)

/-- The inner loop of `Free`: swallow the successors that `reg` now reaches. -/
def absorb (reg : Region) : List Region → List Region
  | [] => [reg]
  | theNext :: rest =>
      if reg.isAdjacentBehind theNext.start then
        absorb { reg with size := reg.size + theNext.size } rest
      else reg :: theNext :: rest

/-- The list walk of `Free`. -/
def freeFrom (releasing : Region) : List Region → Outcome (List Region)
  | [] => do return [← allocRegion releasing.start releasing.size]
  | reg :: next =>
      if reg.isAdjacentBehind releasing.start then
        .ok (absorb { reg with size := reg.size + releasing.size } next)
      else if releasing.isAdjacentBehind reg.start then
        .ok ({ start := reg.start - releasing.size, size := reg.size + releasing.size } :: next)
      else if releasing.isBehind reg.start then do
        return (← allocRegion releasing.start releasing.size) :: reg :: next
      else do
        return reg :: (← freeFrom releasing next)

def free (regions : List Region) (addr : VirtAddr) (pageSize pageCount : Word) :
    Outcome (List Region) := do
  let releasing ← Region.new addr (pageSize * pageCount)
  freeFrom releasing regions

end Anarch.FreeList
