import Anarch.GlobalMapBooking
import Anarch.PageTableSlots

/-! What `Unmap`, `UnmapAndReserve` and `Rereserve` do to the entries of the kernel half, page
by page: they write the range they are given and nothing else. -/
namespace Anarch.GlobalMap
open PageTable RadixTree

section
variable {α : Type} {A : AllocatorOps α} {used : α → Set Frame} {s : State α}
variable {addr : VirtAddr} {size : MemoryMap.Size} {d : ℕ}

/-- A range of the kernel half, each page of which has a leaf entry of its size. -/
structure LeafRange (s : PageTable.State α) (addr : VirtAddr) (size : MemoryMap.Size) (d : ℕ) :
    Prop where
  depth : calcDepth size.pageSize = .ok d
  aligned : addr % size.pageSize = 0
  end_le : addr.toNat + size.span ≤ kernelEnd.toNat
  leaves : s.leavesIn addr size.span d

/-- Each address has a leaf entry of the depth that is not zero and not present. -/
def ReservedRange (s : PageTable.State α) (addr : VirtAddr) (bytes d : ℕ) : Prop :=
  ∀ x ∈ addresses addr bytes, ∃ e, s.slot x = some (d, e) ∧ isPresent e = false ∧
    (d = 3 ∨ isHuge e = true)

lemma isPresent_reservedEntry {pageSize : Word} (h : pageSize.toNat % 4096 = 0) :
    isPresent (reservedEntry pageSize) = false := by
  have hbit : pageSize.getLsbD 0 = false := by
    rw [BitVec.getLsbD, Nat.testBit_zero, decide_eq_false_iff_not]
    omega
  rw [isPresent_eq, reservedEntry, BitVec.getLsbD_or, hbit]
  split_ifs <;> rfl

lemma invalidate_within {bytes : ℕ} {t u : PageTable.State α} (start : VirtAddr) (n : Word)
    (h : PageTable.Within used addr bytes t u) :
    PageTable.Within used addr bytes t (distributeInvlpg start n u) :=
  ⟨⟨h.tree.1, h.tree.2, h.tree.3, h.tree.4, h.tree.5, h.tree.6⟩,
    ⟨h.confined.1, h.confined.2, h.confined.3⟩, h.outside⟩

@[simp] lemma slot_invalidate (start : VirtAddr) (n : Word) (t : PageTable.State α) :
    (distributeInvlpg start n t).slot = t.slot := rfl

lemma unmap_eq {t : PageTable.State α}
    (hok : PageTable.unsetPages A s.pml4 size.pageSize size.pageCount.toNat addr s.table = .ok t) :
    unmap A addr size s = .ok { s with
      finder := s.finder.free addr size.bytes
      table := distributeInvlpg addr size.bytes t } := by
  rw [unmap, hok]
  rfl

lemma unmapAndReserve_eq {t : PageTable.State α}
    (hok : PageTable.unsetPages A s.pml4 size.pageSize size.pageCount.toNat addr s.table = .ok t) :
    unmapAndReserve A addr size s = (do
      let (_, table) ← setList A s.pml4 addr (reservedEntry size.pageSize) size 3 t
      return { s with table := distributeInvlpg addr size.bytes table }) := by
  rw [unmapAndReserve, hok]
  rfl

lemma rereserve_eq {t : PageTable.State α} {newPageSize : Word} (hpos : newPageSize ≠ 0)
    (halign : addr % newPageSize = 0) (hdivides : size.bytes % newPageSize = 0)
    (hok : PageTable.unsetPages A s.pml4 size.pageSize size.pageCount.toNat addr s.table = .ok t) :
    rereserve A addr size newPageSize s = (do
      let (_, table) ← setList A s.pml4 addr (reservedEntry newPageSize)
        ⟨newPageSize, size.bytes / newPageSize⟩ 3 t
      return { s with table := distributeInvlpg addr size.bytes table }) := by
  simp only [rereserve, checkedMod_of_ne hpos, checkedDiv_of_ne hpos, halign, hdivides, assertThat,
    hok, decide_true, if_true, bind, Except.bind]

section
variable (hA : FrameContract A used) (ht : Tree used {0} s.table) (hcr3 : s.table.cr3 = s.pml4)
variable (hrange : LeafRange s.table addr size d)
include hA ht hcr3 hrange

lemma unset_exact :
    ∃ t, PageTable.unsetPages A s.pml4 size.pageSize size.pageCount.toNat addr s.table = .ok t ∧
      PageTable.Within used addr size.span s.table t ∧
      ∀ x ∈ addresses addr size.span, t.slot x = none := by
  obtain ⟨hdepth, halign, hend, hleaves⟩ := hrange
  obtain ⟨hd, hsize⟩ := calcDepth_eq_pageSizeAt hdepth
  rw [MemoryMap.Size.span, Nat.mul_comm] at *
  exact unsetPages_slots hA ht hcr3 hsize hd halign hend hleaves

lemma renew_exact (new : MemoryMap.Size) {d' : ℕ} (hdepth : calcDepth new.pageSize = .ok d')
    (halign : addr % new.pageSize = 0) (hspan : new.span = size.span) :
    ∃ t, PageTable.unsetPages A s.pml4 size.pageSize size.pageCount.toNat addr s.table = .ok t ∧
      ((NoTableForList A s.pml4 addr (reservedEntry new.pageSize) new 3 t ∧
        setList A s.pml4 addr (reservedEntry new.pageSize) new 3 t = .error allocationFailed) ∨
      ∃ w u, setList A s.pml4 addr (reservedEntry new.pageSize) new 3 t = .ok (w, u) ∧
        PageTable.Within used addr size.span s.table u ∧ ReservedRange u addr size.span d') := by
  obtain ⟨t, hok, hw, hnone⟩ := unset_exact hA ht hcr3 hrange
  refine ⟨t, hok, ?_⟩
  have hend := hrange.end_le
  obtain ⟨hd, hsize⟩ := calcDepth_eq_pageSizeAt hdepth
  obtain ⟨hmod, hcases⟩ := calcDepth_eq_ok hdepth
  have hcr3' : t.cr3 = s.pml4 := hw.confined.cr3.trans hcr3
  have hhuge : d' = 3 ∨ isHuge (reservedEntry new.pageSize) = true :=
    hcases.imp And.left fun h => isHuge_reservedEntry h.2
  have hne := reserved_ne_zero (show new.span ≤ kernelEnd.toNat by omega) hmod
  rw [setList_eq hcr3' hdepth]
  rw [← hspan, MemoryMap.Size.span, Nat.mul_comm] at hend hnone hw ⊢
  rcases setPages_slots hA hw.tree hcr3' hsize hd halign hend (.inl rfl) hhuge hne
    (fun x hx => .inl (hnone x hx)) false with ⟨hout, herr⟩ | ⟨w, u, hok, hw', hset⟩
  · exact .inl ⟨⟨d', hdepth, hout⟩, herr⟩
  · refine .inr ⟨w, u, hok, hw.trans hw', fun x hx => ?_⟩
    obtain ⟨k, -, -, hslot⟩ := hset x hx
    exact ⟨_, hslot, (isPresent_pageAt _ hmod k).trans (isPresent_reservedEntry hmod),
      hhuge.imp id ((isHuge_pageAt _ hmod k).trans ·)⟩

end

/-- A range is cleared, and then a page of it needs a table for which there is no frame. -/
def NoTableToRenew (A : AllocatorOps α) (addr : VirtAddr) (size new : MemoryMap.Size)
    (s : State α) : Prop :=
  ∃ t, PageTable.unsetPages A s.pml4 size.pageSize size.pageCount.toNat addr s.table = .ok t ∧
    NoTableForList A s.pml4 addr (reservedEntry new.pageSize) new 3 t

lemma renewed {P : Prop} {bytes : ℕ} {n : Word} {r : Outcome (Bool × PageTable.State α)}
    (h : (P ∧ r = .error allocationFailed) ∨ ∃ w u, r = .ok (w, u) ∧
      PageTable.Within used addr bytes s.table u ∧ ReservedRange u addr bytes d) :
    (P ∧ (do
      let (_, table) ← r
      return { s with table := distributeInvlpg addr n table }) = Except.error allocationFailed) ∨
    ∃ t, (do
      let (_, table) ← r
      return { s with table := distributeInvlpg addr n table }) = Except.ok t ∧
      PageTable.Within used addr bytes s.table t.table ∧ ReservedRange t.table addr bytes d := by
  rcases h with ⟨hnone, rfl⟩ | ⟨w, u, rfl, hw, hres⟩
  · exact .inl ⟨hnone, rfl⟩
  · refine .inr ⟨{ s with table := distributeInvlpg addr n u }, rfl, invalidate_within _ _ hw,
      fun x hx => ?_⟩
    rw [slot_invalidate]
    exact hres x hx

/-- What the three calls do to a range of leaves. The two that reserve panic only when a page
of the range needs a table for which there is no frame. -/
theorem range_calls_exact (hA : FrameContract A used) (ht : Tree used {0} s.table)
    (hcr3 : s.table.cr3 = s.pml4) (hrange : LeafRange s.table addr size d) :
    (∃ t, unmap A addr size s = .ok t ∧
      PageTable.Within used addr size.span s.table t.table ∧
      ∀ x ∈ addresses addr size.span, t.table.slot x = none) ∧
    ((NoTableToRenew A addr size size s ∧
      unmapAndReserve A addr size s = .error allocationFailed) ∨
      ∃ t, unmapAndReserve A addr size s = .ok t ∧
        PageTable.Within used addr size.span s.table t.table ∧
        ReservedRange t.table addr size.span d) ∧
    ∀ newPageSize d', calcDepth newPageSize = .ok d' → addr % newPageSize = 0 →
      size.bytes % newPageSize = 0 →
      ((NoTableToRenew A addr size ⟨newPageSize, size.bytes / newPageSize⟩ s ∧
        rereserve A addr size newPageSize s = .error allocationFailed) ∨
        ∃ t, rereserve A addr size newPageSize s = .ok t ∧
          PageTable.Within used addr size.span s.table t.table ∧
          ReservedRange t.table addr size.span d') := by
  refine ⟨?_, ?_, fun newPageSize d' hdepth halign hdivides => ?_⟩
  · obtain ⟨t, hok, hw, hnone⟩ := unset_exact hA ht hcr3 hrange
    refine ⟨_, unmap_eq hok, invalidate_within _ _ hw, fun x hx => ?_⟩
    rw [slot_invalidate]
    exact hnone x hx
  · obtain ⟨t, hok, hrest⟩ := renew_exact hA ht hcr3 hrange size hrange.depth hrange.aligned rfl
    rw [unmapAndReserve_eq hok]
    exact renewed (hrest.imp_left (And.imp_left fun hout => ⟨t, hok, hout⟩))
  · have hpos : newPageSize ≠ 0 := by
      rintro rfl
      cases hdepth
    have hspan : MemoryMap.Size.span ⟨newPageSize, size.bytes / newPageSize⟩ = size.span := by
      have hK : kernelEnd.toNat = 2 ^ 39 := rfl
      have hend := hrange.end_le
      rw [MemoryMap.Size.span, BitVec.toNat_udiv, ← MemoryMap.Size.bytes_toNat (by omega)]
      exact Nat.mul_div_cancel' (Nat.dvd_of_mod_eq_zero (toNat_mod_of_aligned hdivides))
    obtain ⟨t, hok, hrest⟩ := renew_exact hA ht hcr3 hrange
      ⟨newPageSize, size.bytes / newPageSize⟩ hdepth halign hspan
    rw [rereserve_eq hpos halign hdivides hok]
    exact renewed (hrest.imp_left (And.imp_left fun hout => ⟨t, hok, hout⟩))

end

/-- The first 2 MiB, unmapped or reserved in place. -/
theorem range_calls_exact_first_page :
    ∃ s : State ℕ, s.table.slot 0 = some (2, 0x183) ∧
      (∃ t, unmap nextFrame 0 ⟨0x200000, 1⟩ s = .ok t ∧ t.table.slot 0x12345 = none) ∧
      ∃ t e, unmapAndReserve nextFrame 0 ⟨0x200000, 1⟩ s = .ok t ∧
        t.table.slot 0x12345 = some (2, e) ∧ isPresent e = false := by
  obtain ⟨t₀, -, -, h₀, -, -, hfind, -⟩ := firstRun_tables
  have hboot := boot_books h₀
  have hzero : (0 : Word) ∈ kernelAddresses := (by decide : (0 : Word).toNat < kernelEnd.toNat)
  have hslot : t₀.slot 0 = some (2, 0x183) := slot_eq_some.mpr ⟨by decide, hfind⟩
  have hrange : LeafRange t₀ 0 ⟨0x200000, 1⟩ 2 := by
    refine ⟨rfl, rfl, by decide, fun x hx => ⟨0x183, ?_, .inr rfl⟩⟩
    have hagree : Agree 3 (index 0) (index x) := (agree_iff_mem (d := 2) (by decide) hzero
      (addresses_subset_kernel (by decide) hx) rfl).mpr hx
    exact slot_eq_some.mpr ⟨by decide, (find_congr t₀ (by rwa [hfind])).trans hfind⟩
  obtain ⟨⟨t, hok, -, hnone⟩, hreserve, -⟩ := range_calls_exact nextFrame_contract
    (s := ⟨t₀, 0x1000, ⟨0, 0⟩⟩) hboot.tree hboot.cr3 hrange
  refine ⟨⟨t₀, 0x1000, ⟨0, 0⟩⟩, hslot, ⟨t, hok, hnone _ (by decide)⟩, ?_⟩
  have hruns : ((PageTable.set nextFrame 0x1000 0 0x183 3 2 emptyMap >>= fun r =>
      unmapAndReserve nextFrame 0 ⟨0x200000, 1⟩ ⟨r.2, 0x1000, ⟨0, 0⟩⟩).toOption.isSome) = true := by
    decide +kernel
  rw [h₀] at hruns
  rcases hreserve with ⟨-, herr⟩ | ⟨u, hok', -, hres⟩
  · have hruns : (unmapAndReserve nextFrame 0 ⟨0x200000, 1⟩
        ⟨t₀, 0x1000, ⟨0, 0⟩⟩).toOption.isSome = true := hruns
    rw [herr] at hruns
    cases hruns
  · obtain ⟨e, he, hp, -⟩ := hres 0x12345 (by decide)
    exact ⟨u, e, hok', he, hp⟩

end Anarch.GlobalMap
