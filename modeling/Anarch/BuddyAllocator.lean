import Anarch.StepAllocatorLast
import Anarch.TransitionRun
import Mathlib.Data.List.Pairwise

/-! The physical allocator: two clusters of buddy trees, below and above 4 GiB, which take over
the memory that the boot allocator has left. -/
namespace Anarch.BuddyAllocator
open IntervalCover MultibootRegionList StepAllocator TransitionRun

abbrev Block := PhysAddr × Word

/-- The bytes of a block, of which there is at least one. -/
def extent (b : Block) : Set ℕ := Set.Ico b.1.toNat (b.1.toNat + max 1 b.2.toNat)

/-- The calls of `ANAlloc::MutableCluster` that the allocator makes. -/
structure ClusterOps (κ : Type) where
  align : (size align : Word) → κ → Option PhysAddr × κ
  free : (address : PhysAddr) → κ → κ
  reserve : (start size : Word) → κ → κ
  ownsAddress : PhysAddr → κ → Bool
  getFreeSize : κ → Word

structure State (κ : Type) where
  lower : κ
  upper : κ
  hasUpper : Bool
  hasLower : Bool
  totalSpace : Word

/-- What `ANAlloc` makes of the regions, with memory from the boot allocator if there is any. -/
abbrev Build (κ : Type) := List Region → Option κ

section
variable {κ : Type}

def initializeCluster (build : Build κ) (regs : List Region) : Outcome κ :=
  match build regs with
  | none => .error (.panic "BuddyAllocator::InitializeCluster() - allocation failed")
  | some cluster => .ok cluster

/-- A cluster that is initialized only if it has regions. -/
def clusterOf (build : Build κ) (empty : κ) (regs : List Region) : Outcome κ :=
  if regs = [] then .ok empty else initializeCluster build regs

/-- The constructor, from clusters without allocators. -/
def new (build : Build κ) (empty : κ) (regions : Lists) : Outcome (State κ) := do
  let lower ← clusterOf build empty regions.lowerRegions
  let upper ← clusterOf build empty regions.upperRegions
  return {
    lower, upper
    hasUpper := regions.upperRegions ≠ []
    hasLower := regions.lowerRegions ≠ []
    totalSpace := ((allRegions regions).map Region.len).sum }

variable (C : ClusterOps κ)

def reserve (lastAddr : PhysAddr) (s : State κ) : State κ :=
  { s with
    lower := if s.hasLower then C.reserve 0 lastAddr s.lower else s.lower
    upper := if s.hasUpper then C.reserve 0 lastAddr s.upper else s.upper }

/-- `AllocLower`, under `lowerLock`. -/
def allocLower (size align : Word) (s : State κ) : Option PhysAddr × State κ :=
  if s.hasLower then
    let (result, lower) := C.align size align s.lower
    (result, { s with lower })
  else (none, s)

/-- The first half of `Alloc`, under `upperLock`. -/
def allocUpper (size align : Word) (s : State κ) : Option PhysAddr × State κ :=
  if s.hasUpper then
    let (result, upper) := C.align size align s.upper
    (result, { s with upper })
  else (none, s)

def alloc (size align : Word) (s : State κ) : Option PhysAddr × State κ :=
  match allocUpper C size align s with
  | (some addr, s) => (some addr, s)
  | (none, s) => allocLower C size align s

def free (address : PhysAddr) (s : State κ) : State κ :=
  if 0x100000000 ≤ address then { s with upper := C.free address s.upper }
  else { s with lower := C.free address s.lower }

def owns (address : PhysAddr) (s : State κ) : Bool :=
  s.hasUpper && C.ownsAddress address s.upper || s.hasLower && C.ownsAddress address s.lower

def available (s : State κ) : Word :=
  (if s.hasUpper then C.getFreeSize s.upper else 0) +
    if s.hasLower then C.getFreeSize s.lower else 0

def used (s : State κ) : Word := s.totalSpace - available C s

end

/-- What a cluster is about: the addresses it manages, those it may hand out, the blocks it has
handed out, and the bytes of its regions. -/
structure View (κ : Type) where
  managed : κ → Set ℕ
  space : κ → Set ℕ
  held : κ → List Block
  bytes : κ → ℕ

/-- The bytes that callers asked for. -/
def asked (blocks : List Block) : ℕ := (blocks.map fun b => b.2.toNat).sum

/-- Both are about the same memory. -/
structure View.Same {κ : Type} (V : View κ) (k k' : κ) : Prop where
  managed : V.managed k' = V.managed k
  space : V.space k' = V.space k
  bytes : V.bytes k' = V.bytes k

/-- What the callers of a cluster rely on. -/
structure Contract {κ : Type} (C : ClusterOps κ) (V : View κ) : Prop where
  served : ∀ {size align k addr k'}, C.align size align k = (some addr, k') →
    extent (addr, size) ⊆ V.space k ∧
      (∀ b ∈ V.held k, Disjoint (extent (addr, size)) (extent b)) ∧
      V.held k' = (addr, size) :: V.held k ∧ V.Same k k'
  refused : ∀ {size align k k'}, C.align size align k = (none, k') →
    V.held k' = V.held k ∧ V.Same k k'
  freed : ∀ k, ∀ b ∈ V.held k, V.held (C.free b.1 k) = (V.held k).filter (·.1 ≠ b.1) ∧
    V.Same k (C.free b.1 k)
  reserved : ∀ start size k, V.held k = [] → V.held (C.reserve start size k) = [] ∧
    V.managed (C.reserve start size k) = V.managed k ∧
    V.bytes (C.reserve start size k) = V.bytes k ∧
    V.space (C.reserve start size k) ⊆
      V.space k \ Set.Ico start.toNat (start.toNat + size.toNat)
  owns : ∀ addr k, C.ownsAddress addr k = true ↔ addr.toNat ∈ V.managed k
  freeSize : ∀ k, (C.getFreeSize k).toNat + asked (V.held k) ≤ V.bytes k

/-- A new cluster manages memory of its regions, and has handed out nothing. -/
structure Built {κ : Type} (V : View κ) (regs : List Region) (k : κ) : Prop where
  managed : V.managed k ⊆ cover (regs.map Region.span)
  space : V.space k ⊆ V.managed k
  held : V.held k = []
  bytes : V.bytes k ≤ (regs.map fun r => r.len.toNat).sum

/-- A block that a call returned, and whether `AllocLower` did. -/
structure Handed where
  block : Block
  low : Bool

/-- The physical memory of a running system: the boot allocator, the allocator after it, the calls
of `Alloc` and `AllocLower` that are about to take `lowerLock`, and the blocks in use. -/
structure Memory (κ τ : Type) where
  boot : StepAllocator.State
  buddy : Option (State κ)
  waiting : τ → Option (Word × Word)
  live : List Handed

inductive Action (τ : Type)
  /-- The boot allocator serves a request. -/
  | bootAlloc (size align : Word)
  /-- `GenerateBuddyAllocator`. -/
  | handOver
  /-- A thread calls `Alloc`, up to the release of `upperLock`. -/
  | alloc (thread : τ) (size align : Word)
  | allocLower (thread : τ) (size align : Word)
  /-- A thread has `lowerLock`. -/
  | lower (thread : τ)
  | free (address : PhysAddr)

section
variable {κ τ : Type} [DecidableEq τ] (C : ClusterOps κ) (build : Build κ) (empty : κ)
  (regions : Lists)

/-- A call that returns with a block or without. -/
def Memory.answer (m : Memory κ τ) (size : Word) (low : Bool)
    (r : Option PhysAddr × State κ) : Memory κ τ :=
  { m with
    buddy := some r.2
    live := r.1.elim m.live fun addr => ⟨(addr, size), low⟩ :: m.live }

def step (m : Memory κ τ) : Action τ → Memory κ τ → Prop
  | .bootAlloc size align, m' => m.buddy = none ∧ ∃ rounds result,
      StepAllocator.alloc regions size align rounds m.boot.lastAddr = some (.ok result) ∧
      m' = { m with boot := m.boot.after size result }
  | .handOver, m' => m.buddy = none ∧ ∃ s, new build empty regions = .ok s ∧
      m' = { m with buddy := some (reserve C m.boot.lastAddr s) }
  | .alloc thread size align, m' => ∃ s, m.buddy = some s ∧ m.waiting thread = none ∧
      let r := allocUpper C size align s
      m' =
        { m.answer size false r with
          waiting :=
            if r.1.isSome then m.waiting
            else Function.update m.waiting thread (some (size, align)) }
  | .allocLower thread size align, m' => m.buddy.isSome ∧ m.waiting thread = none ∧
      m' = { m with waiting := Function.update m.waiting thread (some (size, align)) }
  | .lower thread, m' => ∃ s size align, m.buddy = some s ∧
      m.waiting thread = some (size, align) ∧
      m' =
        { m.answer size true (allocLower C size align s) with
          waiting := Function.update m.waiting thread none }
  | .free address, m' => ∃ s, m.buddy = some s ∧
      m' =
        { m with
          buddy := some (free C address s)
          live := m.live.filter (·.block.1 ≠ address) }

/-- From the kernel's image on, which ends at `reservedEnd`. -/
def system (reservedEnd : PhysAddr) : System (Memory κ τ) (Action τ) where
  start m := m.boot = ⟨reservedEnd, [(0, reservedEnd)]⟩ ∧ m.buddy = none ∧ m.live = [] ∧
    ∀ thread, m.waiting thread = none
  step := step C build empty regions

/-- A large page is not asked for where the boot allocator would step back into a block that ends
with a region. -/
def Keeps (regions : Lists) (boot : StepAllocator.State) (align : Word) : Prop :=
  ∀ reg, regionOf regions boot.lastAddr = some reg → getEnd reg < roundUp align boot.lastAddr →
    (∃ b ∈ boot.blocks, blockEnd b = (getEnd reg).toNat) → (nextRegion regions reg).isSome

/-- Requests of whole pages during boot, whose sums do not wrap, and calls of `Free` on blocks in
use. -/
def Careful (regions : Lists) (m : Memory κ τ) : Action τ → Prop
  | .bootAlloc size align => WholePages size align ∧ PageRequest size align ∧
      NoWrap regions size align m.boot.lastAddr ∧ (align ≠ 0x1000 → Keeps regions m.boot align)
  | .free address => ∃ h ∈ m.live, h.block.1 = address
  | _ => True

/-- What is true of a cluster of some regions, after the boot allocator has handed out blocks. -/
structure Side (V : View κ) (regs : List Region) (boot : List Block) (k : κ) : Prop where
  managed : V.managed k ⊆ cover (regs.map Region.span)
  space : V.space k ⊆ V.managed k
  kept : ∀ b ∈ boot, Disjoint (range b) (V.space k)
  held : ∀ b ∈ V.held k, extent b ⊆ V.space k
  apart : (V.held k).Pairwise fun a b => Disjoint (extent a) (extent b)
  bytes : V.bytes k ≤ (regs.map fun r => r.len.toNat).sum

section
variable {C} {V : View κ} {regs : List Region} {boot : List Block} {k k' : κ} {size align : Word}
  {addr : PhysAddr}

lemma mem_extent (b : Block) : b.1.toNat ∈ extent b :=
  ⟨le_rfl, Nat.lt_add_of_pos_right (Nat.lt_of_lt_of_le Nat.one_pos (le_max_left _ _))⟩

lemma Side.same (h : Side V regs boot k) (hsame : V.Same k k')
    (hheld : (V.held k').Sublist (V.held k)) : Side V regs boot k' where
  managed := hsame.managed ▸ h.managed
  space := hsame.managed ▸ hsame.space ▸ h.space
  kept := hsame.space ▸ h.kept
  held b hb := hsame.space ▸ h.held b (hheld.subset hb)
  apart := h.apart.sublist hheld
  bytes := hsame.bytes ▸ h.bytes

lemma Side.served (h : Side V regs boot k) (hC : Contract C V)
    (hcall : C.align size align k = (some addr, k')) :
    Side V regs boot k' ∧ V.held k' = (addr, size) :: V.held k := by
  obtain ⟨hin, hapart, hheld, hsame⟩ := hC.served hcall
  refine ⟨⟨hsame.managed ▸ h.managed, hsame.managed ▸ hsame.space ▸ h.space,
    hsame.space ▸ h.kept, ?_, ?_, hsame.bytes ▸ h.bytes⟩, hheld⟩
  · rw [hheld, hsame.space]
    exact List.forall_mem_cons.mpr ⟨hin, h.held⟩
  · rw [hheld]
    exact List.pairwise_cons.mpr ⟨hapart, h.apart⟩

lemma Side.refused (h : Side V regs boot k) (hC : Contract C V)
    (hcall : C.align size align k = (none, k')) :
    Side V regs boot k' ∧ V.held k' = V.held k := by
  obtain ⟨hheld, hsame⟩ := hC.refused hcall
  exact ⟨h.same hsame (hheld ▸ List.Sublist.refl _), hheld⟩

lemma Side.freed (h : Side V regs boot k) (hC : Contract C V) {b : Block} (hb : b ∈ V.held k) :
    Side V regs boot (C.free b.1 k) ∧
      V.held (C.free b.1 k) = (V.held k).filter (·.1 ≠ b.1) := by
  obtain ⟨hheld, hsame⟩ := hC.freed k b hb
  exact ⟨h.same hsame (hheld ▸ List.filter_sublist), hheld⟩

/-- Reserving everything below the last address keeps the cluster away from the boot allocator's
blocks. -/
lemma Built.reserve (h : Built V regs k) (hC : Contract C V) {lastAddr : PhysAddr}
    (habove : Above boot lastAddr) : Side V regs boot (C.reserve 0 lastAddr k) ∧
      V.held (C.reserve 0 lastAddr k) = [] := by
  obtain ⟨hheld, hmanaged, hbytes, hspace⟩ := hC.reserved 0 lastAddr k h.held
  refine ⟨⟨hmanaged ▸ h.managed, ?_, fun b hb => ?_, ?_, ?_, hbytes ▸ h.bytes⟩, hheld⟩
  · rw [hmanaged]
    exact hspace.trans (Set.sdiff_subset.trans h.space)
  · refine Set.disjoint_left.mpr fun x hx hmem => (hspace hmem).2 ⟨Nat.zero_le _, ?_⟩
    simpa using hx.2.trans_le (habove b hb)
  · rw [hheld]
    simp
  · rw [hheld]
    exact List.Pairwise.nil

lemma Built.nothing (h : Built V [] k) : Side V [] boot k where
  managed := h.managed
  space := h.space
  kept _ _ := Set.disjoint_left.mpr fun x _ hmem => by simpa using h.managed (h.space hmem)
  held := by simp [h.held]
  apart := by simp [h.held]
  bytes := h.bytes

end

end

end Anarch.BuddyAllocator
