import Mathlib.Data.BitVec
import Mathlib.Data.Set.Basic

/-! Address types, faults and the value types of the generic memory-map API.
A `Panic` or a failed `assert` never returns, so it is an error result. -/
namespace Anarch

abbrev Word := BitVec 64
abbrev VirtAddr := Word
abbrev PhysAddr := Word
abbrev PhysSize := Word

/-- The ways a call can fail to return: `Panic(msg)`, `assert(x)` with the text of `x`, a
page fault on a kernel access, a division by zero, or a loop that makes no progress. -/
inductive Fault
  | panic (msg : String)
  | assertion (expr : String)
  | pageFault (addr : VirtAddr)
  | divideError
  | hang
  deriving DecidableEq, Repr

abbrev Outcome (α : Type*) := Except Fault α

def assertThat (expr : String) (holds : Bool) : Outcome Unit :=
  if holds then .ok () else .error (.assertion expr)

/-- `a % b` on `size_t`; the processor faults when `b` is zero. -/
def checkedMod (a b : Word) : Outcome Word :=
  if b = 0 then .error .divideError else .ok (a % b)

def checkedDiv (a b : Word) : Outcome Word :=
  if b = 0 then .error .divideError else .ok (a / b)

lemma checkedMod_of_ne {a b : Word} (h : b ≠ 0) : checkedMod a b = .ok (a % b) := if_neg h

lemma checkedDiv_of_ne {a b : Word} (h : b ≠ 0) : checkedDiv a b = .ok (a / b) := if_neg h

@[simp] lemma assertThat_eq_ok {expr : String} {holds : Bool} {u : Unit} :
    assertThat expr holds = .ok u ↔ holds = true := by
  cases holds <;> simp [assertThat]

lemma bind_eq_ok {α β : Type} {x : Outcome α} {f : α → Outcome β} {b : β} :
    (x >>= f) = .ok b ↔ ∃ a, x = .ok a ∧ f a = .ok b := by
  cases x with
  | error e => simp [bind, Except.bind]
  | ok a => simp [bind, Except.bind]

lemma bind_eq_error {α β : Type} {x : Outcome α} {f : α → Outcome β} {e : Fault} :
    (x >>= f) = .error e ↔ x = .error e ∨ ∃ a, x = .ok a ∧ f a = .error e := by
  cases x with
  | error e' => simp [bind, Except.bind]
  | ok a => simp [bind, Except.bind]

lemma bind_pure_eq_error {α β : Type} {x : Outcome α} {g : α → β} {e : Fault} :
    (x >>= fun a => pure (g a)) = .error e ↔ x = .error e := by
  cases x with
  | error e' => simp [bind, Except.bind]
  | ok a => simp [bind, Except.bind, pure, Except.pure]

lemma exists_ok_of_map {α β : Type} {x : Outcome α} {f : α → β} {b : β}
    (h : x.toOption.map f = some b) : ∃ a, x = .ok a ∧ f a = b := by
  cases x with
  | error e => cases h
  | ok a => exact ⟨a, rfl, Option.some.inj h⟩

/-- Kernel memory ends at `PageTable::KernelEnd`; user memory at `PageTable::UserEnd`. -/
def PageTable.kernelEnd : VirtAddr := 0x8000000000
def PageTable.userEnd : VirtAddr := 0xFFFFFF8000000000

namespace MemoryMap

structure Attributes where
  executable : Bool := true
  writable : Bool := true
  cachable : Bool := true
  deriving DecidableEq, Repr

structure Capabilities where
  placementReserve : Bool
  placementMap : Bool
  executableFlag : Bool
  writableFlag : Bool
  cachableFlag : Bool
  deriving DecidableEq, Repr

structure Size where
  pageSize : Word
  pageCount : Word
  deriving DecidableEq, Repr

/-- `Size::Bytes`: a 64-bit product, which can wrap. -/
def Size.bytes (s : Size) : Word := s.pageSize * s.pageCount

/-- The number of bytes of the pages themselves. -/
def Size.span (s : Size) : ℕ := s.pageSize.toNat * s.pageCount.toNat

lemma Size.bytes_toNat {s : Size} (h : s.span < 2 ^ 64) : s.bytes.toNat = s.span := by
  simp only [Size.bytes, Size.span, BitVec.toNat_mul] at *
  exact Nat.mod_eq_of_lt h

end MemoryMap

/-- The virtual calls of `Allocator`; each may change its state even when it fails. -/
structure AllocatorOps (α : Type) where
  alloc : PhysSize → PhysSize → α → Option PhysAddr × α
  free : PhysAddr → α → α

/-- What a caller of an allocator did: blocks it got, addresses it freed. -/
inductive AllocatorCall
  | obtained (addr : PhysAddr)
  | freed (addr : PhysAddr)
  deriving DecidableEq, Repr

end Anarch
