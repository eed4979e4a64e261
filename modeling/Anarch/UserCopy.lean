import Anarch.ApiTypes
import Mathlib.Logic.Function.Basic

/-! Copies between kernel memory and the current user map. Nothing but the range check
stands between the pointer of a system call and the copy. -/
namespace Anarch.UserCopy
open PageTable

abbrev Bytes := VirtAddr → BitVec 8

/-- An access to a byte of memory. -/
inductive Access
  | read (addr : VirtAddr)
  | write (addr : VirtAddr)
  deriving DecidableEq, Repr

/-- What memory is after a copy, and the accesses that it made, in order. -/
def memcpy (mem : Bytes) (dest src : VirtAddr) : ℕ → Bytes × List Access
  | 0 => (mem, [])
  | n + 1 =>
      let (before, log) := memcpy mem dest src n
      let s := src + BitVec.ofNat 64 n
      let d := dest + BitVec.ofNat 64 n
      (Function.update before d (before s), log ++ [.read s, .write d])

/-- What a copy leaves behind: memory, the user-side addresses it accessed in order, and
what the page delegate made of the fault, when it was called. -/
structure Copy (δ : Type*) where
  mem : Bytes
  touched : List VirtAddr
  delegated : Option δ

variable {δ : Type*}

/-- The address of an access to the side of the user, which a copy from the kernel writes to. -/
def Access.user (write : Bool) : Access → Option VirtAddr
  | .read addr => if write then none else some addr
  | .write addr => if write then some addr else none

def byteAddresses (start : VirtAddr) (size : Word) : List VirtAddr :=
  (List.range size.toNat).map fun i => start + BitVec.ofNat 64 i

/-- The common body: check the user-side range, then divert or copy. -/
def guarded (panicText : String) (delegate : Option (VirtAddr → Bool → δ)) (write : Bool)
    (user : VirtAddr) (size : Word) (mem : Bytes) (copied : Bytes × List Access) :
    Outcome (Copy δ) :=
  if user + size < user ∨ user < kernelEnd then
    match delegate with
    | none => .error (.panic panicText)
    | some handler => .ok ⟨mem, [], some (handler user write)⟩
  else .ok ⟨copied.1, copied.2.filterMap (Access.user write), none⟩

def copyToKernel (delegate : Option (VirtAddr → Bool → δ)) (mem : Bytes)
    (dest start : VirtAddr) (size : Word) : Outcome (Copy δ) :=
  guarded "UserMap::CopyToKernel() - page fault with no delegate" delegate false start size
    mem (memcpy mem dest start size.toNat)

def copyFromKernel (delegate : Option (VirtAddr → Bool → δ)) (mem : Bytes)
    (dest start : VirtAddr) (size : Word) : Outcome (Copy δ) :=
  guarded "UserMap::CopyFromKernel() - page fault with no delegate" delegate true dest size
    mem (memcpy mem dest start size.toNat)

/-- A panic only for want of a delegate, a diverted call that accessed nothing, or a copy
whose user side stays inside user memory. -/
def UserOnly (delegate : Option (VirtAddr → Bool → δ)) (mem : Bytes) :
    Outcome (Copy δ) → Prop
  | .error _ => delegate = none
  | .ok out =>
      (out.delegated.isSome ∧ out.touched = [] ∧ out.mem = mem) ∨
        ∀ a ∈ out.touched, kernelEnd ≤ a ∧ a < userEnd

/-- The range is empty, starts below user memory, wraps around the top of the address
space, or ends at or below the end of user memory. -/
def RangeChecked (user : VirtAddr) (size : Word) : Prop :=
  size = 0 ∨ user < kernelEnd ∨ 2 ^ 64 ≤ user.toNat + size.toNat ∨
    user.toNat + size.toNat ≤ userEnd.toNat

instance (user : VirtAddr) (size : Word) : Decidable (RangeChecked user size) :=
  inferInstanceAs (Decidable (_ ∨ _ ∨ _ ∨ _))

lemma mem_byteAddresses {user a : VirtAddr} {size : Word}
    (h : user.toNat + size.toNat < 2 ^ 64) :
    a ∈ byteAddresses user size ↔ user.toNat ≤ a.toNat ∧ a.toNat < user.toNat + size.toNat := by
  simp only [byteAddresses, List.mem_map, List.mem_range]
  constructor
  · rintro ⟨i, hi, rfl⟩
    rw [BitVec.toNat_add, BitVec.toNat_ofNat]
    omega
  · rintro ⟨h1, h2⟩
    refine ⟨a.toNat - user.toNat, by omega, BitVec.eq_of_toNat_eq ?_⟩
    rw [BitVec.toNat_add, BitVec.toNat_ofNat]
    omega

lemma memcpy_accesses (mem : Bytes) (dest src : VirtAddr) (n : ℕ) (write : Bool) :
    (memcpy mem dest src n).2.filterMap (Access.user write) =
      (List.range n).map fun i => (if write then dest else src) + BitVec.ofNat 64 i := by
  induction n with
  | zero => rfl
  | succ n ih =>
    rw [memcpy, List.filterMap_append, ih, List.range_succ, List.map_append]
    cases write <;> rfl

lemma guarded_userOnly_iff (panicText : String) (delegate : Option (VirtAddr → Bool → δ))
    {write : Bool} {user : VirtAddr} {size : Word} (mem : Bytes) {copied : Bytes × List Access}
    (haccesses : copied.2.filterMap (Access.user write) = byteAddresses user size) :
    UserOnly delegate mem (guarded panicText delegate write user size mem copied) ↔
      RangeChecked user size := by
  have hend : userEnd.toNat = 0xFFFFFF8000000000 := by decide
  unfold guarded
  split_ifs with hc
  · have hr : RangeChecked user size := by
      rcases hc with hw | hl
      · exact .inr (.inr (.inl (by bv_omega)))
      · exact .inr (.inl hl)
    simp only [hr, iff_true]
    cases delegate <;> simp [UserOnly]
  · obtain ⟨hw, hl⟩ := not_or.mp hc
    have hnw : user.toNat + size.toNat < 2 ^ 64 := by bv_omega
    have hu : kernelEnd.toNat ≤ user.toNat := by bv_omega
    simp only [UserOnly, Option.isSome_none, Bool.false_eq_true, false_and, false_or, haccesses]
    constructor
    · intro h
      by_cases hz : size = 0
      · exact .inl hz
      · -- the last byte of the range decides
        have hpos : 0 < size.toNat := by bv_omega
        have hlast := h (user + (size - 1)) ((mem_byteAddresses hnw).mpr (by bv_omega))
        exact .inr (.inr (.inr (by bv_omega)))
    · rintro hr a ha
      have hm := (mem_byteAddresses hnw).mp ha
      rcases hr with rfl | hl' | hw' | hle
      · simp at hm
        omega
      · exact absurd hl' hl
      · omega
      · exact ⟨by bv_omega, by bv_omega⟩

/-- Both copies touch only user memory exactly on the checked ranges. -/
theorem copies_userOnly_iff (delegate : Option (VirtAddr → Bool → δ)) (mem : Bytes)
    (dest start : VirtAddr) (size : Word) :
    (UserOnly delegate mem (copyToKernel delegate mem dest start size) ↔
        RangeChecked start size) ∧
      (UserOnly delegate mem (copyFromKernel delegate mem dest start size) ↔
        RangeChecked dest size) :=
  ⟨guarded_userOnly_iff _ _ _ (memcpy_accesses mem dest start _ false),
    guarded_userOnly_iff _ _ _ (memcpy_accesses mem dest start _ true)⟩

/-- A pointer to the recursive mapping passes the check: both copies reach the page
tables. -/
theorem copies_reach_page_tables :
    ¬ UserOnly (none : Option (VirtAddr → Bool → Unit)) (fun _ => 0)
        (copyToKernel none (fun _ => 0) 0x1000 0xFFFFFF8000000000 8) ∧
      ¬ UserOnly (none : Option (VirtAddr → Bool → Unit)) (fun _ => 0)
        (copyFromKernel none (fun _ => 0) 0xFFFFFF8000000000 0x1000 8) := by
  constructor
  · refine mt (guarded_userOnly_iff _ _ _ (memcpy_accesses _ 0x1000 _ 8 false)).mp ?_
    decide
  · refine mt (guarded_userOnly_iff _ _ _ (memcpy_accesses _ _ 0x1000 8 true)).mp ?_
    decide

end Anarch.UserCopy
