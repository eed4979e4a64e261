import Anarch.FreeListCalls
import Anarch.KernelHeap
import Anarch.UserMapKernel

/-! The mapping calls of a user map together with the heap objects of its free list. A
region of the list is a heap object, which `AllocRegion` and `FreeRegion` get and release
through the domain while the table of the user map is loaded. -/
namespace Anarch.UserMapHeap
open PageTable FreeList

/-- A region of the free list with the address of its heap object. -/
structure Node where
  addr : VirtAddr
  region : Region
  deriving DecidableEq, Repr

structure State (α η : Type) where
  kernel : KernelHeap.State α η
  pml4 : PhysAddr
  freeList : List Node

/-- `sizeof(Region)`. -/
def regionBytes : Word := 24

section
variable {α η : Type} (A : AllocatorOps α) (H : Malloc.Heap η)

/-- The map without the heap. -/
def State.user (s : State α η) : UserMap.State α where
  table := s.kernel.map.table
  pml4 := s.pml4
  freeList := s.freeList.map Node.region

def withTable (k : KernelHeap.State α η) (table : PageTable.State α) : KernelHeap.State α η :=
  { k with map := { k.map with table } }

/-- `AllocRegion`: `none` is the null pointer. -/
def allocRegion (start : VirtAddr) (size : Word) (k : KernelHeap.State α η) :
    Outcome (Option Node × KernelHeap.State α η) := do
  let (addr, k) ← KernelHeap.alloc A H regionBytes k
  if addr = 0 then return (none, k)
  else return (some ⟨addr, ← Region.new start size⟩, k)

/-- Links a new region in before `next`. Through a null pointer the `next` field is written
to address 0x10, and the list ends there. -/
def link (node : Option Node) (next : List Node) (k : KernelHeap.State α η) :
    Outcome (List Node × KernelHeap.State α η) :=
  match node with
  | some node => .ok (node :: next, k)
  | none => do
      let table ← writeWord k.map.table 0x10 (next.head?.elim 0 Node.addr)
      return ([], withTable k table)

/-- `FreeRegion`. -/
def freeRegion (node : Node) (k : KernelHeap.State α η) : Outcome (KernelHeap.State α η) := do
  let segments ← KernelHeap.free H node.addr k.segments
  return { k with segments }

/-- `AllocInRegion` on the list from `reg` on. -/
def allocInRegion (reg : Node) (next : List Node) (requested : Region)
    (k : KernelHeap.State α η) : Outcome (List Node × KernelHeap.State α η) :=
  if reg.region.isFilledBy requested then do
    return (next, ← freeRegion H reg k)
  else if reg.region.isStartedBy requested then
    .ok (⟨reg.addr, { reg.region with start := reg.region.start + requested.size }⟩ :: next, k)
  else if reg.region.isEndedBy requested then
    .ok (⟨reg.addr, { reg.region with size := reg.region.size - requested.size }⟩ :: next, k)
  else do
    let suffixSize := reg.region.endAddr - requested.endAddr
    let (suffix, k) ← allocRegion A H requested.endAddr suffixSize k
    let (rest, k) ← link suffix next k
    return (⟨reg.addr, { reg.region with size := requested.start - reg.region.start }⟩ :: rest, k)

/-- The list walk of `Alloc`; the address is 0 when no region can hold the pages. -/
def alloc (pageSize pageCount : Word) :
    List Node → KernelHeap.State α η → Outcome (VirtAddr × List Node × KernelHeap.State α η)
  | [], k => .ok (0, [], k)
  | reg :: next, k => do
      if ← reg.region.canHold pageSize pageCount then
        let requested ← Region.new
          (reg.region.start + Region.chopSize reg.region.start pageSize) (pageSize * pageCount)
        let (list, k) ← allocInRegion A H reg next requested k
        return (requested.start, list, k)
      else
        let (addr, rest, k) ← alloc pageSize pageCount next k
        return (addr, reg :: rest, k)

/-- The inner loop of `Free`. -/
def absorb (reg : Node) :
    List Node → KernelHeap.State α η → Outcome (List Node × KernelHeap.State α η)
  | [], k => .ok ([reg], k)
  | theNext :: rest, k =>
      if reg.region.isAdjacentBehind theNext.region.start then do
        let k ← freeRegion H theNext k
        absorb ⟨reg.addr, { reg.region with size := reg.region.size + theNext.region.size }⟩ rest k
      else .ok (reg :: theNext :: rest, k)

/-- The list walk of `Free`. -/
def freeFrom (releasing : Region) :
    List Node → KernelHeap.State α η → Outcome (List Node × KernelHeap.State α η)
  | [], k => do
      let (node, k) ← allocRegion A H releasing.start releasing.size k
      link node [] k
  | reg :: next, k =>
      if reg.region.isAdjacentBehind releasing.start then
        absorb H ⟨reg.addr, { reg.region with size := reg.region.size + releasing.size }⟩ next k
      else if releasing.isAdjacentBehind reg.region.start then
        .ok (⟨reg.addr, { start := reg.region.start - releasing.size
                          size := reg.region.size + releasing.size }⟩ :: next, k)
      else if releasing.isBehind reg.region.start then do
        let (node, k) ← allocRegion A H releasing.start releasing.size k
        link node (reg :: next) k
      else do
        let (rest, k) ← freeFrom releasing next k
        return (reg :: rest, k)

def free (addr : VirtAddr) (pageSize pageCount : Word) (list : List Node)
    (k : KernelHeap.State α η) : Outcome (List Node × KernelHeap.State α η) := do
  let releasing ← Region.new addr (pageSize * pageCount)
  freeFrom A H releasing list k

/-- `Map`: `none` if it returns false. -/
def map (phys : PhysAddr) (size : MemoryMap.Size) (attributes : MemoryMap.Attributes)
    (s : State α η) : Outcome (Option VirtAddr × State α η) := do
  let (addr, freeList, kernel) ← alloc A H size.pageSize size.pageCount s.freeList s.kernel
  if addr = 0 then return (none, { s with freeList, kernel })
  else do
    assertThat "addr >= PageTable::KernelEnd" (kernelEnd ≤ addr)
    let mask := calcMask size.pageSize false attributes
    let (_, table) ← setList A s.pml4 addr (phys ||| mask) size 7 kernel.map.table
    return (some addr, { s with freeList, kernel := withTable kernel table })

def mapAt (addr : VirtAddr) (phys : PhysAddr) (size : MemoryMap.Size)
    (attributes : MemoryMap.Attributes) (s : State α η) : Outcome (State α η) := do
  let user ← UserMap.mapAt A addr phys size attributes s.user
  return { s with kernel := withTable s.kernel user.table }

def unmap (addr : VirtAddr) (size : MemoryMap.Size) (s : State α η) : Outcome (State α η) := do
  let table ←
    unsetPages A s.pml4 size.pageSize size.pageCount.toNat addr s.kernel.map.table
  let (freeList, kernel) ←
    free A H addr size.pageSize size.pageCount s.freeList (withTable s.kernel table)
  return { s with
    freeList, kernel := withTable kernel (distributeInvlpg addr size.bytes kernel.map.table) }

end

inductive Call
  | map (phys : PhysAddr) (size : MemoryMap.Size) (attributes : MemoryMap.Attributes)
  | mapAt (addr : VirtAddr) (phys : PhysAddr) (size : MemoryMap.Size)
      (attributes : MemoryMap.Attributes)
  | unmap (addr : VirtAddr) (size : MemoryMap.Size)
  deriving DecidableEq, Repr

/-- A request that is a region, inside another but at neither end of it. -/
def splits (reg requested : Region) : Bool :=
  (requested.start < requested.endAddr || requested.endAddr = 0) &&
    !reg.isFilledBy requested && !reg.isStartedBy requested && !reg.isEndedBy requested

/-- `Alloc` would split the first region with room. -/
def allocSplits (pageSize pageCount : Word) (regions : List Region) : Bool :=
  pageSize ≠ 0 && (regions.find? (·.hasRoom pageSize pageCount)).any
    fun reg => splits reg (reg.request pageSize pageCount)

/-- `Free` would come to a place between regions that touch neither side. -/
def freeStandsAlone (releasing : Region) : List Region → Bool
  | [] => true
  | reg :: next =>
      !reg.isAdjacentBehind releasing.start && !releasing.isAdjacentBehind reg.start &&
        (releasing.isBehind reg.start || freeStandsAlone releasing next)

section
variable {α η : Type} (A : AllocatorOps α) (H : Malloc.Heap η)

def Call.exec (s : State α η) : Call → Outcome (State α η)
  | .map phys size attributes => do return (← UserMapHeap.map A H phys size attributes s).2
  | .mapAt addr phys size attributes => UserMapHeap.mapAt A addr phys size attributes s
  | .unmap addr size => UserMapHeap.unmap A H addr size s

/-- The same call without the heap. -/
def Call.user : Call → UserMap.Call
  | .map phys size attributes => .map phys size attributes
  | .mapAt addr phys size attributes => .mapAt addr phys size attributes
  | .unmap addr size => .unmap addr size

/-- The table of the user map is in CR3, so that of the kernel map is not. -/
def Loaded (s : State α η) : Prop :=
  s.kernel.map.table.cr3 = s.pml4 ∧ s.kernel.map.pml4 ≠ s.pml4

/-- Some segment of the heap has room for one more region. -/
def HeapHasRoom (segments : List (Malloc.Segment η)) : Prop :=
  (Malloc.allocNoNewSegment H regionBytes segments).1 ≠ 0

instance (segments : List (Malloc.Segment η)) : Decidable (HeapHasRoom H segments) :=
  inferInstanceAs (Decidable (_ ≠ _))

/-- The call comes to `AllocRegion`. `Unmap` does if it finds all of its pages mapped. -/
def NeedsRegion (s : State α η) : Call → Prop
  | .map _ size _ => allocSplits size.pageSize size.pageCount s.user.freeList = true
  | .mapAt .. => False
  | .unmap addr size =>
      (∃ table, unsetPages A s.pml4 size.pageSize size.pageCount.toNat addr
        s.kernel.map.table = .ok table) ∧
      (addr < addr + size.bytes ∨ addr + size.bytes = 0) ∧
      freeStandsAlone ⟨addr, size.bytes⟩ s.user.freeList = true

end

section
variable {α η : Type} {A : AllocatorOps α} {H : Malloc.Heap η}
variable {k k' : KernelHeap.State α η} {list out : List Node}

lemma regionNew_ne (start : VirtAddr) (size : Word) : Region.new start size ≠ .error notSet := by
  unfold Region.new
  split_ifs
  · exact nofun
  · decide

lemma regionNew_eq_ok {q r : Region} : Region.new q.start q.size = .ok r ↔
    (q.start < q.endAddr ∨ q.endAddr = 0) ∧ r = q := Region.new_eq_ok

lemma splits_iff {reg q : Region} : splits reg q = true ↔
    (q.start < q.endAddr ∨ q.endAddr = 0) ∧ reg.isFilledBy q = false ∧
      reg.isStartedBy q = false ∧ reg.isEndedBy q = false := by
  simp only [splits, Bool.and_eq_true, Bool.or_eq_true, decide_eq_true_eq,
    Bool.not_eq_true', and_assoc]

/-- The kernel map is not the one in CR3. -/
def Foreign (k : KernelHeap.State α η) : Prop := k.map.table.cr3 ≠ k.map.pml4

lemma allocRegion_eq (hk : Foreign k) (start : VirtAddr) (size : Word) :
    allocRegion A H start size k =
      if HeapHasRoom H k.segments then do
        let region ← Region.new start size
        return (some ⟨(Malloc.allocNoNewSegment H regionBytes k.segments).1, region⟩,
          ⟨k.map, (Malloc.allocNoNewSegment H regionBytes k.segments).2⟩)
      else .error notSet := by
  unfold allocRegion
  rw [KernelHeap.alloc_eq hk (by decide)]
  by_cases hroom : HeapHasRoom H k.segments
  · rw [if_pos hroom, if_pos (show _ ≠ _ from hroom)]
    simp only [bind, Except.bind, if_neg (show ¬ _ = _ from hroom)]
  · rw [if_neg hroom, if_neg (show ¬ (_ ≠ _) from hroom)]
    rfl

lemma allocRegion_error (hk : Foreign k) (start : VirtAddr) (size : Word) :
    allocRegion A H start size k = .error notSet ↔ ¬ HeapHasRoom H k.segments := by
  rw [allocRegion_eq hk]
  split_ifs with hroom
  · simp only [hroom, not_true, iff_false]
    intro h
    rcases bind_eq_error.mp h with h | ⟨_, _, h⟩
    · exact regionNew_ne start size h
    · cases h
  · simp [hroom]

lemma allocRegion_ok (hk : Foreign k) {start : VirtAddr} {size : Word} {node : Option Node}
    (h : allocRegion A H start size k = .ok (node, k')) :
    ∃ addr region, node = some ⟨addr, region⟩ ∧ Region.new start size = .ok region ∧
      k'.map = k.map := by
  rw [allocRegion_eq hk] at h
  split_ifs at h
  obtain ⟨region, hnew, h⟩ := bind_eq_ok.mp h
  obtain ⟨rfl, rfl⟩ := Prod.mk.inj (Except.ok.inj h)
  exact ⟨_, region, rfl, hnew, rfl⟩

lemma allocRegion_link_ok (hk : Foreign k) {start : VirtAddr} {size : Word}
    {next : List Node}
    (h : (allocRegion A H start size k >>= fun r => link r.1 next r.2) = .ok (out, k')) :
    ∃ region, FreeList.allocRegion start size = .ok region ∧
      out.map Node.region = region :: next.map Node.region ∧ k'.map = k.map := by
  obtain ⟨⟨node, k₁⟩, hnode, h⟩ := bind_eq_ok.mp h
  obtain ⟨addr, region, rfl, hnew, hmap⟩ := allocRegion_ok hk hnode
  obtain ⟨rfl, rfl⟩ := Prod.mk.inj (Except.ok.inj h)
  exact ⟨region, hnew, rfl, hmap⟩

lemma allocRegion_link_error (hk : Foreign k) {start : VirtAddr} {size : Word}
    (next : List Node) :
    (allocRegion A H start size k >>= fun r => link r.1 next r.2) = .error notSet ↔
      ¬ HeapHasRoom H k.segments := by
  rw [bind_eq_error, allocRegion_error hk, or_iff_left]
  rintro ⟨⟨node, k₁⟩, hnode, h⟩
  obtain ⟨addr, region, rfl, -⟩ := allocRegion_ok hk hnode
  cases h

lemma freeRegion_ne (node : Node) : freeRegion H node k ≠ .error notSet := by
  intro h
  rcases bind_eq_error.mp h with h | ⟨_, _, h⟩
  · exact KernelHeap.free_ne_notSet _ _ h
  · cases h

lemma freeRegion_map {node : Node} (h : freeRegion H node k = .ok k') : k'.map = k.map := by
  obtain ⟨segments, _, h⟩ := bind_eq_ok.mp h
  cases h
  rfl

lemma allocInRegion_ok (hk : Foreign k) {reg : Node} {next : List Node} {requested : Region}
    (h : allocInRegion A H reg next requested k = .ok (out, k')) :
    FreeList.allocInRegion reg.region (next.map Node.region) requested =
      .ok (out.map Node.region) ∧ k'.map = k.map := by
  unfold allocInRegion at h
  unfold FreeList.allocInRegion
  split_ifs at h ⊢
  · obtain ⟨k₁, hfree, h⟩ := bind_eq_ok.mp h
    obtain ⟨rfl, rfl⟩ := Prod.mk.inj (Except.ok.inj h)
    exact ⟨rfl, freeRegion_map hfree⟩
  · obtain ⟨rfl, rfl⟩ := Prod.mk.inj (Except.ok.inj h)
    exact ⟨rfl, rfl⟩
  · obtain ⟨rfl, rfl⟩ := Prod.mk.inj (Except.ok.inj h)
    exact ⟨rfl, rfl⟩
  · obtain ⟨⟨node, k₁⟩, hnode, h⟩ := bind_eq_ok.mp h
    obtain ⟨⟨rest, k₂⟩, hlink, h⟩ := bind_eq_ok.mp h
    obtain ⟨rfl, rfl⟩ := Prod.mk.inj (Except.ok.inj h)
    obtain ⟨region, hnew, hrest, hmap⟩ := allocRegion_link_ok hk
      (bind_eq_ok.mpr ⟨(node, k₁), hnode, hlink⟩)
    refine ⟨?_, hmap⟩
    simp only [hnew, bind, Except.bind, pure, Except.pure, List.map_cons, hrest]

lemma allocInRegion_error (hk : Foreign k) {reg : Node} {next : List Node} {requested : Region} :
    allocInRegion A H reg next requested k = .error notSet ↔
      (reg.region.isFilledBy requested = false ∧ reg.region.isStartedBy requested = false ∧
        reg.region.isEndedBy requested = false) ∧ ¬ HeapHasRoom H k.segments := by
  unfold allocInRegion
  split_ifs with hfill hstart hend
  · simp only [hfill, Bool.true_eq_false, false_and, iff_false]
    intro h
    rcases bind_eq_error.mp h with h | ⟨_, _, h⟩
    · exact freeRegion_ne reg h
    · cases h
  · simp [hstart]
  · simp [hend]
  · simp only [hfill, hstart, hend, and_self, true_and]
    rw [← allocRegion_link_error hk next, bind_eq_error, bind_eq_error]
    refine or_congr Iff.rfl (exists_congr fun r => and_congr Iff.rfl ?_)
    rw [bind_eq_error, or_iff_left]
    rintro ⟨_, _, h⟩
    cases h

lemma alloc_ok (hk : Foreign k) {pageSize pageCount : Word} {addr : VirtAddr}
    (h : alloc A H pageSize pageCount list k = .ok (addr, out, k')) :
    FreeList.alloc pageSize pageCount (list.map Node.region) =
      .ok (addr, out.map Node.region) ∧ k'.map = k.map := by
  induction list generalizing out with
  | nil =>
    obtain ⟨rfl, rfl, rfl⟩ := (Except.ok.inj h : (0, [], k) = (addr, out, k'))
    exact ⟨rfl, rfl⟩
  | cons reg next ih =>
    obtain ⟨fits, hfits, h⟩ := bind_eq_ok.mp h
    simp only [List.map_cons, FreeList.alloc, hfits, bind, Except.bind]
    cases fits with
    | true =>
      obtain ⟨requested, hnew, h⟩ := bind_eq_ok.mp h
      obtain ⟨⟨rest, k₁⟩, hin, h⟩ := bind_eq_ok.mp h
      obtain ⟨rfl, rfl, rfl⟩ := (Except.ok.inj h : (requested.start, rest, k₁) = (addr, out, k'))
      obtain ⟨hplain, hmap⟩ := allocInRegion_ok hk hin
      exact ⟨by simp [hnew, hplain, pure, Except.pure], hmap⟩
    | false =>
      obtain ⟨⟨a, rest, k₁⟩, hrest, h⟩ := bind_eq_ok.mp h
      obtain ⟨rfl, rfl, rfl⟩ := (Except.ok.inj h : (a, reg :: rest, k₁) = (addr, out, k'))
      obtain ⟨hplain, hmap⟩ := ih hrest
      exact ⟨by simp [hplain, pure, Except.pure], hmap⟩

lemma alloc_error (hk : Foreign k) {pageSize pageCount : Word} :
    alloc A H pageSize pageCount list k = .error notSet ↔
      allocSplits pageSize pageCount (list.map Node.region) = true ∧
        ¬ HeapHasRoom H k.segments := by
  induction list with
  | nil => simp [alloc, allocSplits]
  | cons reg next ih =>
    by_cases h0 : pageSize = 0
    · simp [alloc, allocSplits, Region.canHold, checkedMod, h0, bind, Except.bind, notSet]
    have hcan : reg.region.canHold pageSize pageCount =
        .ok (reg.region.hasRoom pageSize pageCount) := by
      simp [Region.canHold, checkedMod_of_ne h0, bind, Except.bind, pure, Except.pure]
    simp only [alloc, hcan, allocSplits, List.map_cons, List.find?_cons]
    cases hroom : reg.region.hasRoom pageSize pageCount with
    | true =>
      show (Region.new (reg.region.request pageSize pageCount).start
        (reg.region.request pageSize pageCount).size >>= fun requested =>
          allocInRegion A H reg next requested k >>= fun r => pure (requested.start, r.1, r.2)) =
            .error notSet ↔ _
      rw [bind_eq_error, or_iff_right (regionNew_ne _ _)]
      simp only [regionNew_eq_ok, bind_pure_eq_error, allocInRegion_error hk]
      have h0' : (decide (pageSize ≠ 0) : Bool) = true := decide_eq_true h0
      rw [h0', Bool.true_and, Option.any_some, splits_iff]
      constructor
      · rintro ⟨_, ⟨hvalid, rfl⟩, hends, hfull⟩
        exact ⟨⟨hvalid, hends⟩, hfull⟩
      · rintro ⟨⟨hvalid, hends⟩, hfull⟩
        exact ⟨_, ⟨hvalid, rfl⟩, hends, hfull⟩
    | false =>
      show (alloc A H pageSize pageCount next k >>= fun r =>
        pure (r.1, reg :: r.2.1, r.2.2)) = .error notSet ↔ _
      rw [bind_pure_eq_error, ih]
      rfl

lemma absorb_ok {reg : Node} (h : absorb H reg list k = .ok (out, k')) :
    FreeList.absorb reg.region (list.map Node.region) = out.map Node.region ∧
      k'.map = k.map := by
  induction list generalizing reg k with
  | nil =>
    obtain ⟨rfl, rfl⟩ := (Except.ok.inj h : ([reg], k) = (out, k'))
    exact ⟨rfl, rfl⟩
  | cons theNext rest ih =>
    unfold absorb at h
    simp only [List.map_cons, FreeList.absorb]
    split_ifs at h ⊢
    · obtain ⟨k₁, hfree, h⟩ := bind_eq_ok.mp h
      obtain ⟨hplain, hmap⟩ := ih h
      exact ⟨hplain, hmap.trans (freeRegion_map hfree)⟩
    · obtain ⟨rfl, rfl⟩ := Prod.mk.inj (Except.ok.inj h)
      exact ⟨rfl, rfl⟩

lemma absorb_ne {reg : Node} : absorb H reg list k ≠ .error notSet := by
  induction list generalizing reg k with
  | nil => exact nofun
  | cons theNext rest ih =>
    unfold absorb
    split_ifs
    · intro h
      rcases bind_eq_error.mp h with h | ⟨_, _, h⟩
      · exact freeRegion_ne theNext h
      · exact ih h
    · exact nofun

lemma freeFrom_ok (hk : Foreign k) {releasing : Region}
    (h : freeFrom A H releasing list k = .ok (out, k')) :
    FreeList.freeFrom releasing (list.map Node.region) = .ok (out.map Node.region) ∧
      k'.map = k.map := by
  induction list generalizing out with
  | nil =>
    obtain ⟨region, hnew, hout, hmap⟩ := allocRegion_link_ok hk h
    exact ⟨by simp [FreeList.freeFrom, hnew, hout, bind, Except.bind, pure, Except.pure], hmap⟩
  | cons reg next ih =>
    unfold freeFrom at h
    simp only [List.map_cons, FreeList.freeFrom]
    split_ifs at h ⊢
    · obtain ⟨hplain, hmap⟩ := absorb_ok h
      exact ⟨congrArg Except.ok hplain, hmap⟩
    · obtain ⟨rfl, rfl⟩ := Prod.mk.inj (Except.ok.inj h)
      exact ⟨rfl, rfl⟩
    · obtain ⟨region, hnew, hout, hmap⟩ := allocRegion_link_ok hk h
      exact ⟨by simp [hnew, hout, bind, Except.bind, pure, Except.pure], hmap⟩
    · obtain ⟨⟨rest, k₁⟩, hrest, h⟩ := bind_eq_ok.mp h
      obtain ⟨rfl, rfl⟩ := Prod.mk.inj (Except.ok.inj h)
      obtain ⟨hplain, hmap⟩ := ih hrest
      exact ⟨by simp [hplain, bind, Except.bind, pure, Except.pure], hmap⟩

lemma freeFrom_error (hk : Foreign k) {releasing : Region} :
    freeFrom A H releasing list k = .error notSet ↔
      freeStandsAlone releasing (list.map Node.region) = true ∧
        ¬ HeapHasRoom H k.segments := by
  induction list with
  | nil =>
    rw [freeFrom, allocRegion_link_error hk []]
    simp [freeStandsAlone]
  | cons reg next ih =>
    simp only [List.map_cons, freeStandsAlone]
    unfold freeFrom
    split_ifs with hbehind hfront hbefore
    · simp [hbehind, absorb_ne]
    · simp [hfront]
    · rw [allocRegion_link_error hk (reg :: next)]
      simp [hbehind, hfront, hbefore]
    · rw [bind_pure_eq_error, ih]
      simp [hbehind, hfront, hbefore]

variable {s t : State α η}

lemma Loaded.foreign (h : Loaded s) : Foreign s.kernel := fun he => h.2 (he.symm.trans h.1)

lemma map_error (h : Loaded s) (phys : PhysAddr) (size : MemoryMap.Size)
    (attributes : MemoryMap.Attributes) : map A H phys size attributes s = .error notSet ↔
      allocSplits size.pageSize size.pageCount s.user.freeList = true ∧
        ¬ HeapHasRoom H s.kernel.segments := by
  unfold map
  rw [bind_eq_error, alloc_error h.foreign, or_iff_left]
  · rfl
  rintro ⟨⟨addr, freeList, k₁⟩, halloc, herr⟩
  have hcr3 : k₁.map.table.cr3 = s.pml4 := by rw [(alloc_ok h.foreign halloc).2, h.1]
  refine (?_ : StaysLoaded s.pml4 (fun r => r.2.kernel.map.table) _).ne herr
  dsimp only
  split_ifs
  · exact hcr3
  · apply (assertThat_loaded (by decide) hcr3).bind
    intro _ _
    apply (setList_loaded _ size 7 hcr3).bind
    intro r hr
    exact hr

lemma mapAt_ne (h : Loaded s) (addr : VirtAddr) (phys : PhysAddr) (size : MemoryMap.Size)
    (attributes : MemoryMap.Attributes) :
    mapAt A addr phys size attributes s ≠ .error notSet := by
  unfold mapAt
  rw [Ne, bind_pure_eq_error]
  refine (?_ : StaysLoaded s.pml4 UserMap.State.table _).ne
  unfold UserMap.mapAt
  apply (assertThat_loaded (by decide) (show s.user.table.cr3 = s.pml4 from h.1)).bind
  intro _ _
  apply (setList_loaded _ size 7 h.1).bind
  intro r hr
  show State.cr3 (if r.1 then distributeInvlpg addr size.bytes r.2 else r.2) = s.pml4
  split_ifs
  · exact hr
  · exact hr

lemma unmap_error (h : Loaded s) (addr : VirtAddr) (size : MemoryMap.Size) :
    unmap A H addr size s = .error notSet ↔
      NeedsRegion A s (.unmap addr size) ∧ ¬ HeapHasRoom H s.kernel.segments := by
  have hunset : StaysLoaded s.pml4 id (unsetPages A s.pml4 size.pageSize size.pageCount.toNat addr
      s.kernel.map.table) := unsetPages_loaded _ _ h.1
  have hfree (table : PageTable.State α) (ht : table.cr3 = s.pml4) :
      free A H addr size.pageSize size.pageCount s.freeList (withTable s.kernel table) =
        .error notSet ↔ ((addr < addr + size.bytes ∨ addr + size.bytes = 0) ∧
          freeStandsAlone ⟨addr, size.bytes⟩ s.user.freeList = true) ∧
            ¬ HeapHasRoom H s.kernel.segments := by
    have hforeign : Foreign (withTable s.kernel table) := fun he => h.2 (he.symm.trans ht)
    unfold free
    rw [bind_eq_error, or_iff_right (regionNew_ne _ _)]
    constructor
    · rintro ⟨releasing, hnew, herr⟩
      obtain ⟨hvalid, rfl⟩ := (regionNew_eq_ok (q := ⟨addr, size.bytes⟩)).mp hnew
      obtain ⟨halone, hfull⟩ := (freeFrom_error hforeign).mp herr
      exact ⟨⟨hvalid, halone⟩, hfull⟩
    · rintro ⟨⟨hvalid, halone⟩, hfull⟩
      exact ⟨⟨addr, size.bytes⟩, (regionNew_eq_ok (q := ⟨addr, size.bytes⟩)).mpr ⟨hvalid, rfl⟩,
        (freeFrom_error hforeign).mpr ⟨halone, hfull⟩⟩
  unfold unmap
  rw [bind_eq_error, or_iff_right hunset.ne]
  constructor
  · rintro ⟨table, hok, herr⟩
    rw [hok] at hunset
    obtain ⟨hneeds, hfull⟩ := (hfree table hunset).mp (bind_pure_eq_error.mp herr)
    exact ⟨⟨⟨table, hok⟩, hneeds⟩, hfull⟩
  · rintro ⟨⟨⟨table, hok⟩, hneeds⟩, hfull⟩
    refine ⟨table, hok, bind_pure_eq_error.mpr ?_⟩
    rw [hok] at hunset
    exact (hfree table hunset).mpr ⟨hneeds, hfull⟩

lemma map_ok (h : Loaded s) {phys : PhysAddr} {size : MemoryMap.Size}
    {attributes : MemoryMap.Attributes} {r : Option VirtAddr}
    (hmap : map A H phys size attributes s = .ok (r, t)) :
    UserMap.map A phys size attributes s.user = .ok (r, t.user) := by
  obtain ⟨⟨addr, freeList, k₁⟩, halloc, hmap⟩ := bind_eq_ok.mp hmap
  obtain ⟨hplain, hkeep⟩ := alloc_ok h.foreign halloc
  unfold UserMap.map
  rw [show FreeList.alloc size.pageSize size.pageCount s.user.freeList = _ from hplain]
  dsimp only at hmap
  simp only [bind, Except.bind]
  split_ifs at hmap ⊢
  · obtain ⟨rfl, rfl⟩ := Prod.mk.inj (Except.ok.inj hmap)
    simp only [State.user, hkeep, pure, Except.pure]
  · obtain ⟨_, hassert, hmap⟩ := bind_eq_ok.mp hmap
    obtain ⟨⟨w, table⟩, hset, hmap⟩ := bind_eq_ok.mp hmap
    obtain ⟨rfl, rfl⟩ := Prod.mk.inj (Except.ok.inj hmap)
    rw [hkeep] at hset
    simp only [State.user, withTable, hassert, hset, pure, Except.pure]

lemma mapAt_ok {addr : VirtAddr} {phys : PhysAddr} {size : MemoryMap.Size}
    {attributes : MemoryMap.Attributes} (hmap : mapAt A addr phys size attributes s = .ok t) :
    UserMap.mapAt A addr phys size attributes s.user = .ok t.user := by
  obtain ⟨user, huser, hmap⟩ := bind_eq_ok.mp hmap
  cases hmap
  rw [huser]
  obtain ⟨_, _, huser⟩ := bind_eq_ok.mp huser
  obtain ⟨⟨w, table⟩, _, huser⟩ := bind_eq_ok.mp huser
  cases huser
  rfl

lemma unmap_ok (h : Loaded s) {addr : VirtAddr} {size : MemoryMap.Size}
    (hunmap : unmap A H addr size s = .ok t) : UserMap.unmap A addr size s.user = .ok t.user := by
  obtain ⟨table, hunset, hunmap⟩ := bind_eq_ok.mp hunmap
  obtain ⟨⟨freeList, k₁⟩, hfree, hunmap⟩ := bind_eq_ok.mp hunmap
  cases hunmap
  obtain ⟨releasing, hnew, hfree⟩ := bind_eq_ok.mp hfree
  have ht : table.cr3 = s.pml4 := by
    have hloaded : StaysLoaded s.pml4 id (unsetPages A s.pml4 size.pageSize size.pageCount.toNat
      addr s.kernel.map.table) := unsetPages_loaded _ _ h.1
    rwa [hunset] at hloaded
  have hforeign : Foreign (withTable s.kernel table) := fun he => h.2 (he.symm.trans ht)
  obtain ⟨hplain, hkeep⟩ := freeFrom_ok hforeign hfree
  unfold UserMap.unmap FreeList.free
  rw [show unsetPages A s.user.pml4 _ _ _ s.user.table = _ from hunset]
  simp only [bind, Except.bind, hnew]
  rw [show FreeList.freeFrom releasing s.user.freeList = _ from hplain]
  simp only [State.user, withTable, hkeep, pure, Except.pure]

/-- A call with the heap that returns does what the call of the user map does. -/
theorem exec_refines (h : Loaded s) {c : Call} (hexec : c.exec A H s = .ok t) :
    c.user.exec A s.user = .ok t.user := by
  cases c with
  | map phys size attributes =>
    obtain ⟨⟨r, t⟩, hmap, hexec⟩ := bind_eq_ok.mp hexec
    cases hexec
    exact bind_eq_ok.mpr ⟨(r, t.user), map_ok h hmap, rfl⟩
  | mapAt addr phys size attributes => exact mapAt_ok hexec
  | unmap addr size => exact unmap_ok h hexec

/-- A mapping call of a loaded user map keeps clear of the kernel map exactly if it needs no
new region or the heap has room for one. -/
theorem mapping_call_keeps_to_own_table (h : Loaded s) (c : Call) :
    c.exec A H s ≠ .error (.assertion "IsSet()") ↔
      (NeedsRegion A s c → HeapHasRoom H s.kernel.segments) := by
  have herr : c.exec A H s = .error notSet ↔
      NeedsRegion A s c ∧ ¬ HeapHasRoom H s.kernel.segments := by
    cases c with
    | map phys size attributes =>
      rw [Call.exec, bind_pure_eq_error]
      exact map_error h phys size attributes
    | mapAt addr phys size attributes =>
      simp only [Call.exec, mapAt_ne h, NeedsRegion, false_and]
    | unmap addr size => exact unmap_error h addr size
  rw [Ne, show Fault.assertion "IsSet()" = notSet from rfl, herr, not_and, not_not]

end

/-- The first user map after `Map` of one small page, with a heap of one segment. -/
def smallPageMapped (segment : Malloc.Segment Malloc.Bump) : State ℕ Malloc.Bump where
  kernel := ⟨⟨(UserMap.set firstMap).table, 0x100000, ⟨0, 0⟩⟩, [segment]⟩
  pml4 := 0x2000
  freeList :=
    [⟨0x600058, ⟨0x8000001000, 0x7f7ffffff000⟩⟩, ⟨0x600040, ⟨0xFFFF800000000000, 0x7f800000000⟩⟩]

lemma smallPageMapped_loaded (segment : Malloc.Segment Malloc.Bump) :
    Loaded (smallPageMapped segment) :=
  ⟨rfl, show (0x100000 : PhysAddr) ≠ 0x2000 by decide⟩

/-- A segment with two regions and room for more. -/
def newSegment : Malloc.Segment Malloc.Bump := ⟨0x600000, ⟨0x600000, 0x200000, 0x600070⟩⟩

/-- A segment that is full. -/
def fullSegment : Malloc.Segment Malloc.Bump := ⟨0x600000, ⟨0x600000, 0x200000, 0x800000⟩⟩

/-- A big page after a small one splits the first free region. -/
theorem big_page_keeps_to_own_table :
    (Call.map 0x40000000 ⟨0x200000, 1⟩ {}).exec nextFrame Malloc.bumpHeap
      (smallPageMapped newSegment) ≠ .error (.assertion "IsSet()") :=
  (mapping_call_keeps_to_own_table (smallPageMapped_loaded newSegment) _).mpr
    fun _ => show (Malloc.allocNoNewSegment Malloc.bumpHeap regionBytes [newSegment]).1 ≠ 0 by
      decide

/-- With a full heap the same call trips the assertion of the kernel map. -/
theorem big_page_trips_assertion : Loaded (smallPageMapped fullSegment) ∧
    (Call.map 0x40000000 ⟨0x200000, 1⟩ {}).exec nextFrame Malloc.bumpHeap
      (smallPageMapped fullSegment) = .error (.assertion "IsSet()") := by
  refine ⟨smallPageMapped_loaded fullSegment, bind_pure_eq_error.mpr ?_⟩
  refine (map_error (smallPageMapped_loaded fullSegment) _ _ _).mpr ⟨by decide, ?_⟩
  show ¬ (Malloc.allocNoNewSegment Malloc.bumpHeap regionBytes [fullSegment]).1 ≠ 0
  decide

end Anarch.UserMapHeap
