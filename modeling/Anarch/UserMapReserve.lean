import Anarch.FreeListRun
import Anarch.UserMapKernel

/-! Which free pages of user memory can be reserved: the ranges the constructor puts on the
free list, less the addresses handed out, over whole runs. -/
namespace Anarch.UserMap
open PageTable TransitionRun
open FreeList (Positive byteRange Taken WellFormed allocAtTakesFront allocTakesFront)

/-- The addresses of the pages of a range. -/
def pages (addr : VirtAddr) (size : MemoryMap.Size) : Set ℕ :=
  Set.Ico addr.toNat (addr.toNat + size.span)

/-- A map, and the addresses handed out by `Map`, `Reserve` and `ReserveAt` and not given
back. -/
structure History (α : Type) where
  map : State α
  live : Set ℕ

/-- A call on the map, or anything else that the kernel does meanwhile: other maps are
loaded and changed, but not the free list of this one. -/
inductive Action (α : Type)
  | call (c : Call)
  | other (table : PageTable.State α)

section
variable {α : Type}

def History.exec (A : AllocatorOps α) (s : History α) : Call → Outcome (History α)
  | .map phys size attributes => do
      let (addr, map) ← UserMap.map A phys size attributes s.map
      return ⟨map, addr.elim s.live fun addr => s.live ∪ pages addr size⟩
  | .mapAt addr phys size attributes => do
      return { s with map := ← UserMap.mapAt A addr phys size attributes s.map }
  | .unmap addr size => do
      return ⟨← UserMap.unmap A addr size s.map, s.live \ pages addr size⟩
  | .unmapAndReserve addr size => do
      return { s with map := ← UserMap.unmapAndReserve A addr size s.map }
  | .reserve size => do
      let (addr, map) ← UserMap.reserve size s.map
      return ⟨map, addr.elim s.live fun addr => s.live ∪ pages addr size⟩
  | .reserveAt addr size => do
      return ⟨← UserMap.reserveAt addr size s.map, s.live ∪ pages addr size⟩
  | .unreserve addr size => do
      return ⟨← UserMap.unreserve addr size s.map, s.live \ pages addr size⟩

/-- Requests and releases are of a positive number of bytes that fits in 64 bits, and only
addresses handed out are released, all of a range or a part of it. -/
def Allowed (s : History α) : Call → Prop
  | .map _ size _ => Positive size.pageSize size.pageCount
  | .unmap addr size =>
      Positive size.pageSize size.pageCount ∧ pages addr size ⊆ s.live
  | .reserve size => Positive size.pageSize size.pageCount
  | .reserveAt _ size => Positive size.pageSize size.pageCount
  | .unreserve addr size =>
      Positive size.pageSize size.pageCount ∧ pages addr size ⊆ s.live
  | _ => True

/-- Runs of a new map. -/
def historySystem (A : AllocatorOps α) : System (History α) (Action α) where
  start s := s.live = ∅ ∧ ∃ pdpt table, construct A pdpt table = .ok s.map
  step s a t := match a with
    | .call c => Allowed s c ∧ s.exec A c = .ok t
    | .other table => t = { s with map := { s.map with table } }

/-- No request is a proper front part of the region that the free list finds for it, and
one more page than `Map` and `Reserve` are asked for would not wrap. -/
def NoFront (s : History α) : Action α → Prop
  | .call (.map _ size _) | .call (.reserve size) =>
      size.pageSize.toNat * (size.pageCount.toNat + 1) ≤ 2 ^ 64 ∧
        allocTakesFront size.pageSize size.pageCount s.map.freeList = false
  | .call (.reserveAt addr size) =>
      allocAtTakesFront ⟨addr, size.pageSize * size.pageCount⟩ s.map.freeList = false
  | _ => True

/-- The end of what the constructor puts on the free list. -/
def offeredEnd : ℕ := 0xFFFF87F800000000

/-- What the constructor puts on the free list: the lower half above the kernel, and the
first 0x800000000 * 0xff bytes of the upper half. -/
def offered : Set ℕ :=
  Set.Ico kernelEnd.toNat 0x800000000000 ∪ Set.Ico 0xFFFF800000000000 offeredEnd

/-- A range of pages of one of the two sizes in the lower or the upper half of user memory. -/
structure UserRange (addr : VirtAddr) (size : MemoryMap.Size) : Prop where
  pageSize : size.pageSize = 0x1000 ∨ size.pageSize = 0x200000
  aligned : addr % size.pageSize = 0
  half : (kernelEnd.toNat ≤ addr.toNat ∧ addr.toNat + size.span ≤ 0x800000000000) ∨
    (0xFFFF800000000000 ≤ addr.toNat ∧ addr.toNat + size.span ≤ userEnd.toNat)

variable {A : AllocatorOps α} {s t : History α} {addr : VirtAddr} {size : MemoryMap.Size}

lemma construct_freeList {pdpt : PhysAddr} {table : PageTable.State α} {new : State α}
    (h : construct A pdpt table = .ok new) : new.freeList =
      [⟨0x8000000000, 0x7f8000000000⟩, ⟨0xFFFF800000000000, 0x7f800000000⟩] := by
  unfold construct at h
  split at h
  · cases h
  · obtain ⟨lower, hlower, h⟩ := bind_eq_ok.mp h
    obtain ⟨both, hboth, h⟩ := bind_eq_ok.mp h
    obtain rfl := Except.ok.inj h
    have h1 : FreeList.free [] kernelEnd 0x8000000000 0xff =
        .ok [⟨0x8000000000, 0x7f8000000000⟩] := by decide
    obtain rfl := Except.ok.inj (h1.symm.trans hlower)
    have h2 : FreeList.free [⟨0x8000000000, 0x7f8000000000⟩] 0xFFFF800000000000 0x800000000 0xff =
        .ok [⟨0x8000000000, 0x7f8000000000⟩, ⟨0xFFFF800000000000, 0x7f800000000⟩] := by decide
    exact (Except.ok.inj (h2.symm.trans hboth)).symm

/-- The free list is well formed and covers what was offered less what is handed out. -/
structure Offers (s : History α) : Prop where
  wellFormed : WellFormed s.map.freeList
  exact : FreeList.addresses s.map.freeList = offered \ s.live
  inside : s.live ⊆ offered

lemma Offers.start {pdpt : PhysAddr} {table : PageTable.State α} (hlive : s.live = ∅)
    (h : construct A pdpt table = .ok s.map) : Offers s := by
  have hlist := construct_freeList h
  refine ⟨?_, ?_, ?_⟩
  · rw [hlist]
    refine .cons ⟨by decide, by decide⟩ (.cons ⟨by decide, by decide⟩ .nil (by simp))
      fun x hx => ?_
    rw [FreeList.addresses_cons, FreeList.addresses_nil, Set.union_empty] at hx
    exact lt_of_lt_of_le (by decide) hx.1
  · rw [hlist, hlive, Set.sdiff_empty, FreeList.addresses_cons, FreeList.addresses_cons,
      FreeList.addresses_nil, Set.union_empty]
    rfl
  · rw [hlive]
    exact Set.empty_subset _

lemma pages_eq (addr : VirtAddr) (size : MemoryMap.Size) : pages addr size =
    Set.Ico (byteRange addr size.pageSize size.pageCount).1
      (byteRange addr size.pageSize size.pageCount).2 := rfl

/-- Address 0, with which `Alloc` reports failure, is never offered. -/
lemma zero_notMem_offered : (0 : ℕ) ∉ offered := by
  rintro (⟨hz, -⟩ | ⟨hz, -⟩)
  · exact absurd hz (by decide)
  · exact absurd hz (by decide)

lemma Offers.zero_notMem (h : Offers s) : (0 : ℕ) ∉ FreeList.addresses s.map.freeList := by
  rw [h.exact]
  exact fun hzero => zero_notMem_offered hzero.1

lemma Offers.take (h : Offers s) {map : State α}
    (ht : Taken s.map.freeList map.freeList (byteRange addr size.pageSize size.pageCount)) :
    Offers ⟨map, s.live ∪ pages addr size⟩ := by
  have hin : pages addr size ⊆ FreeList.addresses s.map.freeList := ht.inside
  rw [h.exact] at hin
  refine ⟨ht.wellFormed, ?_, Set.union_subset h.inside (hin.trans Set.sdiff_subset)⟩
  rw [ht.addresses_eq, h.exact, ← pages_eq, Set.sdiff_sdiff]

lemma Offers.give (h : Offers s) {map : State α}
    (hal : Positive size.pageSize size.pageCount ∧ pages addr size ⊆ s.live)
    (hfree : FreeList.free s.map.freeList addr size.pageSize size.pageCount =
      .ok map.freeList) : Offers ⟨map, s.live \ pages addr size⟩ := by
  obtain ⟨hpos, hlive⟩ := hal
  have hd : Disjoint (pages addr size) (FreeList.addresses s.map.freeList) := by
    rw [h.exact]
    exact Set.disjoint_sdiff_right.mono_left hlive
  have hroom : (0 : ℕ) ∉ pages addr size ∪ FreeList.addresses s.map.freeList := by
    rintro (hz | hz)
    · exact zero_notMem_offered (h.inside (hlive hz))
    · exact h.zero_notMem hz
  obtain ⟨hwf, haddr⟩ := FreeList.free_spec h.wellFormed hpos hd ⟨0, by norm_num, hroom⟩ hfree
  refine ⟨hwf, ?_, Set.sdiff_subset.trans h.inside⟩
  rw [haddr, h.exact, ← pages_eq]
  ext x
  have h1 := @h.inside x
  have h2 := @hlive x
  simp only [Set.mem_union, Set.mem_sdiff]
  tauto

lemma Offers.alloc (h : Offers s) {map : State α}
    (hpos : Positive size.pageSize size.pageCount)
    (hwrap : size.pageSize.toNat * (size.pageCount.toNat + 1) ≤ 2 ^ 64)
    (hfront : allocTakesFront size.pageSize size.pageCount s.map.freeList = false)
    (hok : FreeList.alloc size.pageSize size.pageCount s.map.freeList =
      .ok (addr, map.freeList)) :
    (addr = 0 → Offers ⟨map, s.live⟩) ∧
      (addr ≠ 0 → Offers ⟨map, s.live ∪ pages addr size⟩) := by
  obtain ⟨addr', out, hout, hres⟩ :=
    FreeList.alloc_spec h.wellFormed ⟨hpos.1, hpos.2.1, hwrap⟩ hfront
  obtain ⟨rfl, rfl⟩ := Prod.mk.inj (Except.ok.inj (hok.symm.trans hout))
  rcases hres with ht | ⟨rfl, hsame⟩
  · have hne : addr ≠ 0 := by
      rintro rfl
      exact h.zero_notMem (ht.inside ⟨le_rfl, by simpa using Nat.mul_pos hpos.1 hpos.2.1⟩)
    exact ⟨fun hzero => absurd hzero hne, fun _ => h.take ht⟩
  · exact ⟨fun _ => ⟨hsame ▸ h.wellFormed, hsame ▸ h.exact, h.inside⟩, fun hne => absurd rfl hne⟩

lemma Offers.exec (h : Offers s) {c : Call} (hal : Allowed s c) (hs : NoFront s (.call c))
    (ht : s.exec A c = .ok t) : Offers t := by
  cases c with
  | map phys size attributes =>
    obtain ⟨⟨r, map⟩, hmap, ht⟩ := bind_eq_ok.mp ht
    obtain rfl := Except.ok.inj ht
    obtain ⟨addr, freeList, halloc, ⟨hzero, rfl, rfl⟩ | ⟨hne, rfl, w, table, -, rfl⟩⟩ :=
      map_eq_ok hmap
    · exact (h.alloc hal hs.1 hs.2 halloc).1 hzero
    · exact (h.alloc hal hs.1 hs.2 halloc).2 hne
  | mapAt addr phys size attributes =>
    obtain ⟨map, hmap, ht⟩ := bind_eq_ok.mp ht
    obtain rfl := Except.ok.inj ht
    obtain ⟨overwrote, table, -, rfl⟩ := mapAt_eq_ok hmap
    exact ⟨h.wellFormed, h.exact, h.inside⟩
  | unmap addr size =>
    obtain ⟨map, hmap, ht⟩ := bind_eq_ok.mp ht
    obtain rfl := Except.ok.inj ht
    obtain ⟨table, freeList, -, hfree, rfl⟩ := unmap_eq_ok hmap
    exact h.give hal hfree
  | unmapAndReserve addr size =>
    obtain ⟨map, hmap, ht⟩ := bind_eq_ok.mp ht
    obtain rfl := Except.ok.inj ht
    obtain ⟨table, -, rfl⟩ := unmapAndReserve_eq_ok hmap
    exact ⟨h.wellFormed, h.exact, h.inside⟩
  | reserve size =>
    obtain ⟨⟨r, map⟩, hmap, ht⟩ := bind_eq_ok.mp ht
    obtain rfl := Except.ok.inj ht
    obtain ⟨addr, freeList, halloc, ⟨hzero, rfl⟩ | ⟨hne, rfl⟩, rfl⟩ := reserve_eq_ok hmap
    · exact (h.alloc hal hs.1 hs.2 halloc).1 hzero
    · exact (h.alloc hal hs.1 hs.2 halloc).2 hne
  | reserveAt addr size =>
    obtain ⟨map, hmap, ht⟩ := bind_eq_ok.mp ht
    obtain rfl := Except.ok.inj ht
    obtain ⟨freeList, halloc, rfl⟩ := reserveAt_eq_ok hmap
    rcases FreeList.allocAt_spec h.wellFormed hal hs halloc with ⟨-, htaken⟩ | ⟨hfalse, -⟩
    · exact h.take htaken
    · cases hfalse
  | unreserve addr size =>
    obtain ⟨map, hmap, ht⟩ := bind_eq_ok.mp ht
    obtain rfl := Except.ok.inj ht
    obtain ⟨freeList, hfree, rfl⟩ := unreserve_eq_ok hmap
    exact h.give hal hfree

theorem Offers.of_reachable (h : ((historySystem A).restrict NoFront).Reachable s) :
    Offers s := by
  refine h.invariant ?_ ?_
  · rintro s ⟨hlive, pdpt, table, hnew⟩
    exact .start hlive hnew
  · rintro s a t - hs ⟨hfront, hstep⟩
    cases a with
    | call c => exact hs.exec hstep.1 hfront hstep.2
    | other table =>
      obtain rfl : t = _ := hstep
      exact ⟨hs.wellFormed, hs.exact, hs.inside⟩

lemma UserRange.end_lt (h : UserRange addr size) : addr.toNat + size.span < 2 ^ 64 := by
  have hend : userEnd.toNat < 2 ^ 64 := userEnd.isLt
  rcases h.half with ⟨-, hle⟩ | ⟨-, hle⟩ <;> omega

lemma UserRange.pageSize_pos (h : UserRange addr size) : 0 < size.pageSize.toNat := by
  rcases h.pageSize with hsize | hsize
  · rw [hsize]
    decide
  · rw [hsize]
    decide

lemma UserRange.positive (h : UserRange addr size) (hcount : 0 < size.pageCount.toNat) :
    Positive size.pageSize size.pageCount := by
  have hend := h.end_lt
  refine ⟨h.pageSize_pos, hcount, ?_⟩
  rw [MemoryMap.Size.span] at hend
  omega

lemma UserRange.offered_iff (h : UserRange addr size) (hspan : 0 < size.span) :
    pages addr size ⊆ offered ↔ addr.toNat + size.span ≤ offeredEnd := by
  have hkernel : kernelEnd.toNat = 0x8000000000 := rfl
  have huser : userEnd.toNat = 0xFFFFFF8000000000 := rfl
  have hoffer : offeredEnd = 0xFFFF87F800000000 := rfl
  constructor
  · intro hin
    rcases hin ⟨(by omega : addr.toNat ≤ addr.toNat + size.span - 1), by omega⟩ with hx | hx
    · have := hx.2
      omega
    · have := hx.2
      omega
  · intro hend
    rcases h.half with ⟨hlo, hhi⟩ | ⟨hlo, -⟩
    · exact (Set.Ico_subset_Ico hlo hhi).trans Set.subset_union_left
    · exact (Set.Ico_subset_Ico hlo hend).trans Set.subset_union_right

/-- `ReserveAt` of a range in user memory succeeds exactly when all of it is on the free
list. -/
lemma reserveAt_ok_iff {s : State α} (hwf : WellFormed s.freeList) (h : UserRange addr size) :
    (∃ t, reserveAt addr size s = .ok t) ↔ 0 < size.pageCount.toNat ∧
      pages addr size ⊆ FreeList.addresses s.freeList := by
  have hend := h.end_lt
  have hp := h.pageSize_pos
  have hne : size.pageSize ≠ 0 := by
    intro hz
    simp [hz] at hp
  have hlo : kernelEnd.toNat ≤ addr.toNat := by
    rcases h.half with ⟨hlo, -⟩ | ⟨hlo, -⟩
    · exact hlo
    · exact le_trans (by decide) hlo
  have hbytes : size.bytes.toNat = size.span := MemoryMap.Size.bytes_toNat (by omega)
  have hstart : kernelEnd ≤ addr := BitVec.le_def.mpr hlo
  have hstop : kernelEnd ≤ addr + size.bytes := by
    rw [BitVec.le_def, BitVec.toNat_add, hbytes, Nat.mod_eq_of_lt hend]
    omega
  have halloc : FreeList.allocAt s.freeList addr size.pageSize size.pageCount =
      FreeList.Region.new addr size.bytes >>= fun requested =>
        FreeList.allocAtFrom requested s.freeList := by
    simp only [FreeList.allocAt, checkedMod_of_ne hne, h.aligned, bind, Except.bind, ne_eq,
      not_true_eq_false, if_false]
    rfl
  by_cases hcount : 0 < size.pageCount.toNat
  · have hpos := h.positive hcount
    have hfits : FreeList.Region.Fits ⟨addr, size.bytes⟩ :=
      ⟨hpos.size_pos, by rw [hbytes]; exact hend.le⟩
    have hspan : pages addr size = Set.Ico (FreeList.Region.span ⟨addr, size.bytes⟩).1
        (FreeList.Region.span ⟨addr, size.bytes⟩).2 := by
      rw [FreeList.Region.span_fst, FreeList.Region.span_snd, hbytes]
      rfl
    obtain ⟨found, out, hfrom, hfound⟩ := FreeList.allocAtFrom_finds hwf hfits
    rw [← hspan] at hfound
    rw [← hfound, reserveAt, halloc, FreeList.Region.new_of_fits hfits]
    cases found
    · simp [bind, Except.bind, hfrom, assertThat, hstart, hstop]
    · simp [bind, Except.bind, pure, Except.pure, hfrom, assertThat, hstart, hstop, hcount]
  · refine ⟨?_, fun hboth => absurd hboth.1 hcount⟩
    rintro ⟨t, ht⟩
    obtain ⟨_, _, ht⟩ := bind_eq_ok.mp ht
    obtain ⟨_, _, ht⟩ := bind_eq_ok.mp ht
    obtain ⟨_, hok, -⟩ := bind_eq_ok.mp ht
    rw [halloc] at hok
    obtain ⟨_, hnew, -⟩ := bind_eq_ok.mp hok
    have hzero : size.bytes = 0 := by
      apply BitVec.eq_of_toNat_eq
      rw [hbytes, MemoryMap.Size.span, Nat.eq_zero_of_not_pos hcount, Nat.mul_zero]
      rfl
    have hkernel : kernelEnd.toNat = 0x8000000000 := rfl
    rw [hzero, FreeList.Region.new, if_neg (by bv_omega)] at hnew
    cases hnew

/-- In every run that takes no front parts, a range of user memory disjoint from everything
handed out can be reserved exactly when it is not empty and ends where the constructor's
offer ends or before. -/
theorem free_pages_reservable (h : ((historySystem A).restrict NoFront).Reachable s)
    (hrange : UserRange addr size) (hfree : Disjoint (pages addr size) s.live) :
    (∃ t, reserveAt addr size s.map = .ok t) ↔
      0 < size.pageCount.toNat ∧ addr.toNat + size.span ≤ offeredEnd := by
  have hs := Offers.of_reachable h
  rw [reserveAt_ok_iff hs.wellFormed hrange, hs.exact]
  refine and_congr_right fun hcount => ?_
  rw [← hrange.offered_iff (Nat.mul_pos hrange.pageSize_pos hcount), Set.subset_sdiff]
  exact and_iff_left hfree

end

section
variable (P : History ℕ → Action ℕ → Prop)

lemma firstMap_history : ((historySystem nextFrame).restrict P).Reachable ⟨firstMap, ∅⟩ :=
  .start ⟨rfl, _, _, firstMap_construct⟩

variable {P} {s t : History ℕ}

lemma call_reachable (c : Call) (hs : ((historySystem nextFrame).restrict P).Reachable s)
    (hP : P s (.call c)) (hal : Allowed s c) (ht : s.exec nextFrame c = .ok t) :
    ((historySystem nextFrame).restrict P).Reachable t :=
  hs.next (a := .call c) ⟨hP, hal, ht⟩

end

lemma page_positive : Positive 0x1000 1 := ⟨by decide, by decide, by decide⟩

/-- With the second page handed out, the first can be reserved. -/
theorem free_pages_reservable_first_page : ∃ s, ((historySystem nextFrame).restrict
    NoFront).Reachable s ∧ s.live = pages 0x8000001000 ⟨0x1000, 1⟩ ∧
    ∃ t, reserveAt 0x8000000000 ⟨0x1000, 1⟩ s.map = .ok t := by
  have hreach := call_reachable (.reserveAt 0x8000001000 ⟨0x1000, 1⟩) (firstMap_history NoFront)
    (show allocAtTakesFront _ _ = false by decide) page_positive rfl
  refine ⟨_, hreach, Set.empty_union _, ?_⟩
  refine (free_pages_reservable hreach ⟨.inl rfl, rfl, .inl ⟨by decide, by decide⟩⟩ ?_).mpr
    ⟨by decide, by decide⟩
  rw [Set.empty_union, pages, pages, Set.Ico_disjoint_Ico]
  decide

/-- Nothing is handed out, and a page of the upper half cannot be reserved. -/
theorem upper_half_not_reservable : ∃ s, (historySystem nextFrame).Reachable s ∧
    UserRange 0xFFFFF00000000000 ⟨0x1000, 1⟩ ∧
    Disjoint (pages 0xFFFFF00000000000 ⟨0x1000, 1⟩) s.live ∧
    reserveAt 0xFFFFF00000000000 ⟨0x1000, 1⟩ s.map =
      .error (.panic "UserMap::ReserveAt() - failed") := by
  refine ⟨⟨firstMap, ∅⟩, (firstMap_history fun _ _ => True).of_restrict,
    ⟨.inl rfl, rfl, .inr ⟨by decide, by decide⟩⟩, Set.disjoint_empty _, rfl⟩

/-- Three calls on a new map, the second of which takes a front part: the pages from
0x8000001000 on are free again, but no region holds the first three of them. -/
theorem front_part_not_reservable : ∃ s, (historySystem nextFrame).Reachable s ∧
    Disjoint (pages 0x8000001000 ⟨0x1000, 3⟩) s.live ∧
    reserveAt 0x8000001000 ⟨0x1000, 3⟩ s.map =
      .error (.panic "UserMap::ReserveAt() - failed") := by
  have h1 := call_reachable (.reserveAt 0x8000002000 ⟨0x1000, 1⟩)
    (firstMap_history fun _ _ => True) trivial page_positive rfl
  have h2 := call_reachable (.reserveAt 0x8000000000 ⟨0x1000, 1⟩) h1 trivial page_positive rfl
  have h3 := call_reachable (.unreserve 0x8000002000 ⟨0x1000, 1⟩) h2 trivial
    ⟨page_positive, Set.subset_union_of_subset_left Set.subset_union_right _⟩ rfl
  refine ⟨_, h3.of_restrict, ?_, rfl⟩
  rw [Set.disjoint_left]
  rintro x hx ⟨(hx' | hx') | hx', hout⟩
  · exact hx'
  · exact hout hx'
  · simp only [pages, MemoryMap.Size.span, Set.mem_Ico, BitVec.reduceToNat] at hx hx'
    omega

end Anarch.UserMap
