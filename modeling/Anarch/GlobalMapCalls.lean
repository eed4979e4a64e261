import Anarch.GlobalMapBooking
import Anarch.MapSetup

/-! What the calls of the kernel map do to its page table: they set one range, clear one range
or both. Runs start from the map that `MapSetup` leaves. -/
namespace Anarch.GlobalMap
open PageTable FreeFinder RadixTree TransitionRun

structure SetRange where
  addr : VirtAddr
  size : MemoryMap.Size
  entry : Word

def Call.sets (r : Option VirtAddr) : Call → Option SetRange
  | .map phys size attributes =>
      r.map fun addr => ⟨addr, size, phys ||| calcMask size.pageSize true attributes⟩
  | .mapAt addr phys size attributes =>
      some ⟨addr, size, phys ||| calcMask size.pageSize true attributes⟩
  | .unmapAndReserve addr size => some ⟨addr, size, reservedEntry size.pageSize⟩
  | .reserve size => r.map fun addr => ⟨addr, size, reservedEntry size.pageSize⟩
  | .reserveAt addr size => some ⟨addr, size, reservedEntry size.pageSize⟩
  | .rereserve addr size newPageSize =>
      some ⟨addr, ⟨newPageSize, size.bytes / newPageSize⟩, reservedEntry newPageSize⟩
  | _ => none

def Call.clears : Call → Option (VirtAddr × MemoryMap.Size)
  | .unmap addr size => some (addr, size)
  | .unmapAndReserve addr size => some (addr, size)
  | .unreserve addr size => some (addr, size)
  | .rereserve addr size _ => some (addr, size)
  | _ => none

section
variable {α : Type} {A : AllocatorOps α} {s t : State α} {P : PageTable.State α → Prop}
variable {addr : VirtAddr} {size : MemoryMap.Size} {r : Option VirtAddr} {c : Call}

/-- The loop over `Unset` on a range keeps a property. -/
def KeptByClear (A : AllocatorOps α) (pml4 : PhysAddr) (P : PageTable.State α → Prop)
    (range : VirtAddr × MemoryMap.Size) : Prop :=
  ∀ u v, P u → unsetPages A pml4 range.2.pageSize range.2.pageCount.toNat range.1 u = .ok v → P v

def KeptBySet (A : AllocatorOps α) (pml4 : PhysAddr) (P : PageTable.State α → Prop)
    (range : SetRange) : Prop :=
  ∀ u w v, P u → setList A pml4 range.addr range.entry range.size 3 u = .ok (w, v) → P v

section
variable (hs : P s.table) (hinv : ∀ start bytes u, P u → P (distributeInvlpg start bytes u))
include hs

lemma allocList_rule {align entry : Word}
    (hset : ∀ addr, r = some addr → KeptBySet A s.pml4 P ⟨addr, size, entry⟩)
    (hok : allocList A size align entry s = .ok (r, t)) : t.pml4 = s.pml4 ∧ P t.table := by
  obtain ⟨hpml4, -, ⟨-, htable⟩ | ⟨addr, w, hr, hlist⟩⟩ := allocList_eq_ok hok
  · exact ⟨hpml4, htable ▸ hs⟩
  · exact ⟨hpml4, hset addr hr _ _ _ hs hlist⟩

include hinv

lemma mapAt_rule {phys : PhysAddr} {attributes : MemoryMap.Attributes}
    (hset : KeptBySet A s.pml4 P ⟨addr, size, phys ||| calcMask size.pageSize true attributes⟩)
    (hok : mapAt A addr phys size attributes s = .ok t) : t.pml4 = s.pml4 ∧ P t.table := by
  obtain ⟨⟨w, table⟩, hlist, hok⟩ := bind_eq_ok.mp hok
  obtain rfl := Except.ok.inj hok
  exact ⟨rfl, hinv _ _ _ (hset _ _ _ hs hlist)⟩

lemma unmap_rule (hclear : KeptByClear A s.pml4 P (addr, size))
    (hok : unmap A addr size s = .ok t) : t.pml4 = s.pml4 ∧ P t.table := by
  obtain ⟨table, htable, hok⟩ := bind_eq_ok.mp hok
  obtain rfl := Except.ok.inj hok
  exact ⟨rfl, hinv _ _ _ (hclear _ _ hs htable)⟩

lemma unmapAndReserve_rule (hclear : KeptByClear A s.pml4 P (addr, size))
    (hset : KeptBySet A s.pml4 P ⟨addr, size, reservedEntry size.pageSize⟩)
    (hok : unmapAndReserve A addr size s = .ok t) : t.pml4 = s.pml4 ∧ P t.table := by
  obtain ⟨table, htable, hok⟩ := bind_eq_ok.mp hok
  obtain ⟨⟨w, table'⟩, hlist, hok⟩ := bind_eq_ok.mp hok
  obtain rfl := Except.ok.inj hok
  exact ⟨rfl, hinv _ _ _ (hset _ _ _ (hclear _ _ hs htable) hlist)⟩

omit hinv in
lemma reserveAt_rule (hset : KeptBySet A s.pml4 P ⟨addr, size, reservedEntry size.pageSize⟩)
    (hok : reserveAt A addr size s = .ok t) : t.pml4 = s.pml4 ∧ P t.table := by
  obtain ⟨⟨w, table⟩, hlist, hok⟩ := bind_eq_ok.mp hok
  obtain rfl := Except.ok.inj hok
  exact ⟨rfl, hset _ _ _ hs hlist⟩

lemma rereserve_rule {newPageSize : Word} (hclear : KeptByClear A s.pml4 P (addr, size))
    (hset : KeptBySet A s.pml4 P
      ⟨addr, ⟨newPageSize, size.bytes / newPageSize⟩, reservedEntry newPageSize⟩)
    (hok : rereserve A addr size newPageSize s = .ok t) : t.pml4 = s.pml4 ∧ P t.table := by
  obtain ⟨rest, hrest, hok⟩ := bind_eq_ok.mp hok
  obtain ⟨_, _, hok⟩ := bind_eq_ok.mp hok
  obtain ⟨_, _, hok⟩ := bind_eq_ok.mp hok
  obtain ⟨_, _, hok⟩ := bind_eq_ok.mp hok
  obtain ⟨table, htable, hok⟩ := bind_eq_ok.mp hok
  obtain ⟨pageCount, hcount, hok⟩ := bind_eq_ok.mp hok
  obtain ⟨⟨w, table'⟩, hlist, hok⟩ := bind_eq_ok.mp hok
  obtain rfl := Except.ok.inj hok
  have hne : newPageSize ≠ 0 := by
    rintro rfl
    cases hrest
  rw [checkedDiv_of_ne hne] at hcount
  obtain rfl := Except.ok.inj hcount
  exact ⟨rfl, hinv _ _ _ (hset _ _ _ (hclear _ _ hs htable) hlist)⟩

/-- What the ranges of a call keep, the call keeps. -/
theorem exec_rule (hclear : ∀ range ∈ c.clears, KeptByClear A s.pml4 P range)
    (hset : ∀ range ∈ c.sets r, KeptBySet A s.pml4 P range) (hok : c.exec A s = .ok (r, t)) :
    t.pml4 = s.pml4 ∧ P t.table := by
  cases c with
  | map phys size attributes | reserve size =>
    refine allocList_rule hs (fun addr hr => hset _ ?_) hok
    subst hr
    rfl
  | mapAt addr phys size attributes =>
    obtain ⟨t', hcall, hr⟩ := bind_eq_ok.mp hok
    obtain ⟨rfl, rfl⟩ := Prod.mk.inj (Except.ok.inj hr)
    exact mapAt_rule hs hinv (hset _ rfl) hcall
  | unmap addr size | unreserve addr size =>
    obtain ⟨t', hcall, hr⟩ := bind_eq_ok.mp hok
    obtain ⟨rfl, rfl⟩ := Prod.mk.inj (Except.ok.inj hr)
    exact unmap_rule hs hinv (hclear _ rfl) hcall
  | unmapAndReserve addr size =>
    obtain ⟨t', hcall, hr⟩ := bind_eq_ok.mp hok
    obtain ⟨rfl, rfl⟩ := Prod.mk.inj (Except.ok.inj hr)
    exact unmapAndReserve_rule hs hinv (hclear _ rfl) (hset _ rfl) hcall
  | reserveAt addr size =>
    obtain ⟨t', hcall, hr⟩ := bind_eq_ok.mp hok
    obtain ⟨rfl, rfl⟩ := Prod.mk.inj (Except.ok.inj hr)
    exact reserveAt_rule hs (hset _ rfl) hcall
  | rereserve addr size newPageSize =>
    obtain ⟨t', hcall, hr⟩ := bind_eq_ok.mp hok
    obtain ⟨rfl, rfl⟩ := Prod.mk.inj (Except.ok.inj hr)
    exact rereserve_rule hs hinv (hclear _ rfl) (hset _ rfl) hcall

end

end

/-- The page sizes that `GetPageSize` returns. -/
def IsPageSize (pageSize : Word) : Prop := pageSize = 0x1000 ∨ pageSize = 0x200000

/-- A range of whole pages below `KernelEnd`. -/
def InKernel (addr : VirtAddr) (size : MemoryMap.Size) : Prop :=
  IsPageSize size.pageSize ∧ addr.toNat + size.span ≤ kernelEnd.toNat

/-- A request whose bytes fit a word, and that does not move the candidate past its end if it
is for nothing. -/
def Request (f : Finder) (size : MemoryMap.Size) (align : Word) : Prop :=
  IsPageSize size.pageSize ∧ size.span < 2 ^ 64 ∧ (size.bytes = 0 → f.Fits size.bytes align)

/-- Calls as the interface allows them. -/
def Proper {α : Type} (s : State α) : Call → Prop
  | .map _ size _ => Request s.finder size size.pageCount
  | .mapAt addr _ size _ => InKernel addr size
  | .unmap addr size => InKernel addr size
  | .unmapAndReserve addr size => InKernel addr size
  | .reserve size => Request s.finder size size.pageSize
  | .reserveAt addr size => InKernel addr size
  | .unreserve addr size => InKernel addr size
  | .rereserve addr size newPageSize => InKernel addr size ∧ IsPageSize newPageSize

/-- Runs from the map that `MapSetup` leaves. -/
def calls {α : Type} (A : AllocatorOps α) : System (State α) Call where
  start s := ∃ reservedEnd mem x setup, reservedEnd.toNat ≤ kernelEnd.toNat ∧
    MapSetup.generateMap A reservedEnd mem x = .ok setup ∧
    s = ⟨setup.table, setup.pml4, ⟨0, 0⟩⟩
  step s c t := ∃ r, c.exec A s = .ok (r, t)

lemma span_div_le (size : MemoryMap.Size) (newPageSize : Word) :
    (⟨newPageSize, size.bytes / newPageSize⟩ : MemoryMap.Size).span ≤ size.span := by
  have hbytes : size.bytes.toNat ≤ size.span := by
    rw [MemoryMap.Size.bytes, BitVec.toNat_mul]
    exact Nat.mod_le _ _
  rw [MemoryMap.Size.span, BitVec.toNat_udiv]
  exact (Nat.mul_div_le _ _).trans hbytes

section
variable {size : MemoryMap.Size} {addr : VirtAddr} {pageSize : Word}

lemma IsPageSize.pos (h : IsPageSize pageSize) : 0 < pageSize.toNat := by
  rcases h with rfl | rfl <;> decide

lemma IsPageSize.calcDepth (h : IsPageSize pageSize) {d : ℕ} (hd : calcDepth pageSize = .ok d) :
    pageSize = 0x1000 ∧ d = 3 ∨ pageSize = 0x200000 ∧ d = 2 := by
  rcases h with rfl | rfl
  · exact .inl ⟨rfl, (Except.ok.inj hd).symm⟩
  · exact .inr ⟨rfl, (Except.ok.inj hd).symm⟩

lemma InKernel.page (h : InKernel addr size) {k : ℕ} (hk : k < size.pageCount.toNat) :
    pageAt addr size.pageSize k ∈ kernelAddresses := by
  obtain ⟨hsize, hend⟩ := h
  have hpos := hsize.pos
  have hK : kernelEnd.toNat = 2 ^ 39 := rfl
  have hnext : (k + 1) * size.pageSize.toNat ≤ size.pageCount.toNat * size.pageSize.toNat :=
    Nat.mul_le_mul_right _ hk
  rw [Nat.succ_mul] at hnext
  rw [MemoryMap.Size.span, Nat.mul_comm] at hend
  have hpage : (pageAt addr size.pageSize k).toNat = _ := pageAt_toNat (by omega) hpos
  show (pageAt addr size.pageSize k).toNat < kernelEnd.toNat
  omega

lemma InKernel.renew (h : InKernel addr size) (hnew : IsPageSize pageSize) :
    InKernel addr ⟨pageSize, size.bytes / pageSize⟩ :=
  ⟨hnew, (Nat.add_le_add_left (span_div_le size pageSize) _).trans h.2⟩

end

/-- A loaded tree, and what the searches for kernel addresses find. -/
structure Entries {α : Type} (used : α → Set Frame) (pml4 : PhysAddr) (R : ℕ × Word → Prop)
    (s : PageTable.State α) : Prop where
  tree : Tree used {0} s
  cr3 : s.cr3 = pml4
  entry : ∀ x ∈ kernelAddresses, R (s.find (index x))

section
variable {α : Type} {A : AllocatorOps α} {used : α → Set Frame} {pml4 : PhysAddr}
variable {R : ℕ × Word → Prop} {s t : PageTable.State α} {addr : VirtAddr} {entry : Word}

lemma Entries.invalidate (h : Entries used pml4 R s) (start : VirtAddr) (bytes : Word) :
    Entries used pml4 R (distributeInvlpg start bytes s) :=
  ⟨h.1.invalidate start bytes, h.2, h.3⟩

section
variable (hA : FrameContract A used) (hzero : ∀ d, R (d, 0))
include hA hzero

lemma Entries.set (h : Entries used pml4 R s) (haddr : addr ∈ kernelAddresses) {depth : ℕ}
    (he : depth = 3 ∨ link entry = none) (hR : R (depth, entry)) {w : Bool}
    (hok : set A pml4 addr entry 3 depth s = .ok (some w, t)) : Entries used pml4 R t := by
  obtain ⟨hd, halign⟩ := aligned_of_set hok
  rcases set_view hA h.tree (index_kernel haddr) h.cr3 (.inl rfl) (by omega) halign he with
    ⟨-, herr⟩ | ⟨t', hok', -⟩ | ⟨w', t', hok', ht, hc, -, hon, hoff⟩
  · rw [herr] at hok
    cases hok
  · cases hok'.symm.trans hok
  obtain ⟨-, rfl⟩ := Prod.mk.inj (Except.ok.inj (hok'.symm.trans hok))
  refine ⟨ht, hc.cr3.trans h.cr3, fun x hx => ?_⟩
  by_cases hagree : Agree (depth + 1) (index addr) (index x)
  · rw [hon _ (index_kernel hx) hagree]
    exact hR
  · rcases hoff _ (index_kernel hx) hagree with hsame | ⟨-, -, -, hnone⟩
    · rw [hsame]
      exact h.entry x hx
    · rw [← Prod.mk.eta (p := t'.find (index x)), hnone]
      exact hzero _

lemma Entries.unset (h : Entries used pml4 R s) (haddr : addr ∈ kernelAddresses)
    (hok : unset A pml4 addr s = .ok t) : Entries used pml4 R t := by
  obtain ⟨t', hok', ht, hc, hon, hoff⟩ := unset_view hA h.tree (index_kernel haddr) h.cr3
    (aligned_of_unset hok) (leaf_of_unset h.tree.self hok)
  obtain rfl := Except.ok.inj (hok'.symm.trans hok)
  have hcleared : ∀ x, (t'.find (index x)).2 = 0 → R (t'.find (index x)) := fun x hx => by
    rw [← Prod.mk.eta (p := t'.find (index x)), hx]
    exact hzero _
  refine ⟨ht, hc.cr3.trans h.cr3, fun x hx => ?_⟩
  by_cases hagree : Agree ((s.find (index addr)).1 + 1) (index addr) (index x)
  · exact hcleared x (hon _ (index_kernel hx) hagree)
  · rcases hoff _ (index_kernel hx) hagree with hsame | ⟨-, hnone⟩
    · rw [hsame]
      exact h.entry x hx
    · exact hcleared x hnone

lemma Entries.clear {range : VirtAddr × MemoryMap.Size} (hrange : InKernel range.1 range.2) :
    KeptByClear A pml4 (Entries used pml4 R) range := fun _ _ hu hok =>
  unsetPages_rule hu (fun _ hk _ _ hu hok => hu.unset hA hzero (hrange.page hk) hok) hok

lemma Entries.setList {range : SetRange} (hrange : InKernel range.addr range.size)
    (he : range.size.pageSize ≠ 0x1000 → isHuge range.entry = true)
    (hR : ∀ k d, calcDepth range.size.pageSize = .ok d →
      R (d, pageAt range.entry range.size.pageSize k)) :
    KeptBySet A pml4 (Entries used pml4 R) range := by
  intro u w v hu hok
  refine setList_rule hu he (fun depth hdepth k hk hlink u w v hu hok => ?_) hok
  exact hu.set hA hzero (hrange.page hk) hlink (hR k depth hdepth) hok

end

end

section
variable {α : Type} {A : AllocatorOps α} {used : α → Set Frame} {s t : State α}
variable {addr : VirtAddr} {size : MemoryMap.Size} {r : Option VirtAddr} {c : Call}

lemma exec_finder (hok : c.exec A s = .ok (r, t)) :
    match c with
    | .map _ size _ => alloc s.pml4 s.table size.bytes size.pageCount s.finder = .ok (r, t.finder)
    | .reserve size => alloc s.pml4 s.table size.bytes size.pageSize s.finder = .ok (r, t.finder)
    | .unmap addr size => t.finder = s.finder.free addr size.bytes
    | .unreserve addr size => t.finder = s.finder.free addr size.bytes
    | .reserveAt addr size => t.finder = s.finder.reserve addr size.bytes
    | _ => t.finder = s.finder := by
  cases c with
  | map phys size attributes | reserve size => exact (allocList_eq_ok hok).2.1
  | mapAt addr phys size attributes | reserveAt addr size | unmap addr size | unreserve addr size =>
    obtain ⟨t', hcall, hr⟩ := bind_eq_ok.mp hok
    obtain ⟨rfl, rfl⟩ := Prod.mk.inj (Except.ok.inj hr)
    obtain ⟨_, _, hcall⟩ := bind_eq_ok.mp hcall
    obtain rfl := Except.ok.inj hcall
    rfl
  | unmapAndReserve addr size =>
    obtain ⟨t', hcall, hr⟩ := bind_eq_ok.mp hok
    obtain ⟨rfl, rfl⟩ := Prod.mk.inj (Except.ok.inj hr)
    obtain ⟨_, _, hcall⟩ := bind_eq_ok.mp hcall
    obtain ⟨_, _, hcall⟩ := bind_eq_ok.mp hcall
    obtain rfl := Except.ok.inj hcall
    rfl
  | rereserve addr size newPageSize =>
    obtain ⟨t', hcall, hr⟩ := bind_eq_ok.mp hok
    obtain ⟨rfl, rfl⟩ := Prod.mk.inj (Except.ok.inj hr)
    obtain ⟨_, _, hcall⟩ := bind_eq_ok.mp hcall
    obtain ⟨_, _, hcall⟩ := bind_eq_ok.mp hcall
    obtain ⟨_, _, hcall⟩ := bind_eq_ok.mp hcall
    obtain ⟨_, _, hcall⟩ := bind_eq_ok.mp hcall
    obtain ⟨_, _, hcall⟩ := bind_eq_ok.mp hcall
    obtain ⟨_, _, hcall⟩ := bind_eq_ok.mp hcall
    obtain ⟨_, _, hcall⟩ := bind_eq_ok.mp hcall
    obtain rfl := Except.ok.inj hcall
    rfl

lemma sets_huge {range : SetRange} (h : range ∈ c.sets r)
    (hlarge : range.size.pageSize ≠ 0x1000) : isHuge range.entry = true := by
  cases c with
  | map phys size attributes =>
    obtain ⟨addr, -, rfl⟩ := Option.map_eq_some_iff.mp h
    exact isHuge_calcMask hlarge
  | reserve size =>
    obtain ⟨addr, -, rfl⟩ := Option.map_eq_some_iff.mp h
    exact isHuge_reservedEntry hlarge
  | mapAt addr phys size attributes =>
    obtain rfl := Option.some.inj h
    exact isHuge_calcMask hlarge
  | unmapAndReserve addr size | reserveAt addr size | rereserve addr size newPageSize =>
    obtain rfl := Option.some.inj h
    exact isHuge_reservedEntry hlarge
  | unmap addr size | unreserve addr size => cases h

lemma Proper.clears (h : Proper s c) {range : VirtAddr × MemoryMap.Size}
    (hrange : range ∈ c.clears) : InKernel range.1 range.2 := by
  cases c with
  | unmap addr size | unreserve addr size | unmapAndReserve addr size =>
    obtain rfl := Option.some.inj hrange
    exact h
  | rereserve addr size newPageSize =>
    obtain rfl := Option.some.inj hrange
    exact h.1
  | map phys size attributes | reserve size | mapAt addr phys size attributes
  | reserveAt addr size => cases hrange

lemma Proper.pageSize (h : Proper s c) {range : SetRange} (hrange : range ∈ c.sets r) :
    IsPageSize range.size.pageSize := by
  cases c with
  | map phys size attributes | reserve size =>
    obtain ⟨addr, -, rfl⟩ := Option.map_eq_some_iff.mp hrange
    exact h.1
  | mapAt addr phys size attributes | unmapAndReserve addr size | reserveAt addr size =>
    obtain rfl := Option.some.inj hrange
    exact h.1
  | rereserve addr size newPageSize =>
    obtain rfl := Option.some.inj hrange
    exact h.2
  | unmap addr size | unreserve addr size => cases hrange

section
variable (ht : Tree used {0} s.table) (hcr3 : s.table.cr3 = s.pml4)
variable (hf : s.finder.Within kernelAddresses)
include ht hcr3 hf

lemma Request.alloc {align : Word} (h : Request s.finder size align) {f : Finder}
    (hok : alloc s.pml4 s.table size.bytes align s.finder = .ok (r, f)) :
    f.Within kernelAddresses ∧ ∀ addr ∈ r, InKernel addr size := by
  obtain ⟨hsize, hspan, hzero⟩ := h
  have hspec := alloc_spec ht hcr3 hf (fun _ x hx _ => hx) hzero hok
  cases r with
  | none => exact ⟨hspec, by simp⟩
  | some addr =>
    rw [MemoryMap.Size.bytes_toNat hspan] at hspec
    refine ⟨hspec.2.2.mono fun _ hx => hx.1, ?_⟩
    rintro _ ⟨⟩
    exact ⟨hsize, hspec.1⟩

lemma Proper.sets (h : Proper s c) (hok : c.exec A s = .ok (r, t)) {range : SetRange}
    (hrange : range ∈ c.sets r) : InKernel range.addr range.size := by
  cases c with
  | map phys size attributes =>
    obtain ⟨addr, hr, rfl⟩ := Option.map_eq_some_iff.mp hrange
    exact (Request.alloc ht hcr3 hf h (exec_finder hok)).2 addr hr
  | reserve size =>
    obtain ⟨addr, hr, rfl⟩ := Option.map_eq_some_iff.mp hrange
    exact (Request.alloc ht hcr3 hf h (exec_finder hok)).2 addr hr
  | mapAt addr phys size attributes | unmapAndReserve addr size | reserveAt addr size =>
    obtain rfl := Option.some.inj hrange
    exact h
  | rereserve addr size newPageSize =>
    obtain rfl := Option.some.inj hrange
    exact h.1.renew h.2
  | unmap addr size | unreserve addr size => cases hrange

lemma Proper.within (h : Proper s c) (hok : c.exec A s = .ok (r, t)) :
    t.finder.Within kernelAddresses := by
  have hK : kernelEnd.toNat = 2 ^ 39 := rfl
  have hafter := exec_finder hok
  have hbytes : ∀ {addr : VirtAddr} {size : MemoryMap.Size}, InKernel addr size →
      addr.toNat + size.bytes.toNat ≤ kernelEnd.toNat := fun h => by
    have hend := h.2
    rwa [MemoryMap.Size.bytes_toNat (by omega)]
  cases c with
  | map phys size attributes => exact (Request.alloc ht hcr3 hf h hafter).1
  | reserve size => exact (Request.alloc ht hcr3 hf h hafter).1
  | unmap addr size | unreserve addr size =>
    rw [show t.finder = _ from hafter]
    refine (hf.give (hbytes h)).mono (Set.union_subset le_rfl fun x hx => ?_)
    exact hx.2.trans_le (hbytes h)
  | reserveAt addr size =>
    rw [show t.finder = _ from hafter]
    exact (hf.reserve (hbytes h)).mono fun _ hx => hx.1
  | mapAt addr phys size attributes | unmapAndReserve addr size | rereserve addr size newPageSize =>
    rw [show t.finder = s.finder from hafter]
    exact hf

end

end

/-- What holds between the calls of a run. -/
structure Sound {α : Type} (used : α → Set Frame) (R : ℕ × Word → Prop) (s : State α) : Prop where
  entries : Entries used s.pml4 R s.table
  finder : s.finder.Within kernelAddresses

section
variable {α : Type} {A : AllocatorOps α} {used : α → Set Frame} {R : ℕ × Word → Prop}
variable {s t : State α} {c : Call} {r : Option VirtAddr}

/-- The entries that a call sets have the property. -/
def SetsOnly (R : ℕ × Word → Prop) (r : Option VirtAddr) (c : Call) : Prop :=
  ∀ range ∈ c.sets r, ∀ k d, calcDepth range.size.pageSize = .ok d →
    R (d, pageAt range.entry range.size.pageSize k)

lemma start_sound (hA : FrameContract A used) (hzero : ∀ d, R (d, 0))
    (hidentity : ∀ n, R (2, MapSetup.identityEntry n)) (h : (calls A).start s) :
    Sound used R s := by
  obtain ⟨reservedEnd, mem, x, setup, hend, hsetup, rfl⟩ := h
  obtain ⟨p, hbuilt, -⟩ := MapSetup.generateMap_built hA hend hsetup
  refine ⟨⟨hbuilt.tree, rfl, fun x hx => ?_⟩, Finder.empty_within 0 (Nat.zero_le _)⟩
  rw [hbuilt.find x hx, MapSetup.identityFind]
  split_ifs
  · exact hidentity _
  · exact hzero _
  · exact hzero _

lemma Sound.exec (hA : FrameContract A used) (hzero : ∀ d, R (d, 0)) (h : Sound used R s)
    (hproper : Proper s c) (hsets : SetsOnly R r c) (hok : c.exec A s = .ok (r, t)) :
    Sound used R t := by
  have hwithin := Proper.within h.entries.tree h.entries.cr3 h.finder hproper hok
  obtain ⟨hpml4, hentries⟩ := exec_rule h.entries (fun _ _ _ hu => hu.invalidate _ _)
    (fun range hrange => Entries.clear hA hzero (hproper.clears hrange))
    (fun range hrange => Entries.setList hA hzero
      (Proper.sets h.entries.tree h.entries.cr3 h.finder hproper hok hrange) (sets_huge hrange)
      (hsets range hrange)) hok
  exact ⟨by rwa [hpml4], hwithin⟩

/-- Runs of proper calls that set entries with a property only. -/
theorem reachable_sound (hA : FrameContract A used) (hzero : ∀ d, R (d, 0))
    (hidentity : ∀ n, R (2, MapSetup.identityEntry n)) {C : State α → Call → Prop}
    (hC : ∀ s c, C s c → Proper s c ∧ ∀ r, SetsOnly R r c)
    (h : ((calls A).restrict C).Reachable s) : Sound used R s := by
  refine h.invariant (P := Sound used R) (fun s hs => start_sound hA hzero hidentity hs) ?_
  rintro s c t - hs ⟨hc, r, hok⟩
  exact hs.exec hA hzero (hC s c hc).1 ((hC s c hc).2 r) hok

end

lemma firstSetup_start {setup : MapSetup.State ℕ}
    (h : MapSetup.generateMap nextFrame 0x1000 (fun _ _ => 0) 1 = .ok setup) :
    (calls nextFrame).start ⟨setup.table, setup.pml4, ⟨0, 0⟩⟩ :=
  ⟨0x1000, fun _ _ => 0, 1, setup, by decide, h, rfl⟩

end Anarch.GlobalMap
