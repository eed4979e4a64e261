import Anarch.GlobalMapCalls
import Anarch.PageTableAligned

/-! The alignment of what `Map` and `Reserve` hand out. `Reserve` passes the page size down as
the alignment, `Map` the page count. -/
namespace Anarch.GlobalMap
open PageTable FreeFinder RadixTree TransitionRun

section
variable {α : Type}

/-- The candidate that `Alloc` cuts a request from: the present one if it has room, else the
one that the rescan finds. -/
def Cuts (s : State α) (size align : Word) (f : Finder) : Prop :=
  f.canAllocate size align = .ok true ∧
    (f = s.finder ∨ s.finder.canAllocate size align = .ok false ∧
      updateFreeRegion s.pml4 s.table s.finder = .ok f)

/-- One of the next `pageCount` addresses is a multiple of the page count and of the page size. -/
def CommonMultiple (start : VirtAddr) (size : MemoryMap.Size) : Prop :=
  ∃ m, start.toNat ≤ m ∧ m < start.toNat + size.pageCount.toNat ∧
    size.pageCount.toNat ∣ m ∧ size.pageSize.toNat ∣ m

/-- A call does not trip the alignment assertion of `Set`, and returns an aligned address if
it succeeds. -/
def HandsOutAligned (size : MemoryMap.Size) (x : Outcome (Option VirtAddr × State α)) : Prop :=
  x ≠ .error misaligned ∧
    ∀ addr t, x = .ok (some addr, t) → size.pageSize.toNat ∣ addr.toNat

end

section
variable {f : Finder} {align : Word} {size : MemoryMap.Size} {c m n : ℕ}

lemma eq_of_multiples {start : ℕ} (hm : c ∣ m) (hn : c ∣ n) (hm' : start ≤ m ∧ m < start + c)
    (hn' : start ≤ n ∧ n < start + c) : m = n := by
  obtain ⟨k, rfl⟩ := hm
  obtain ⟨l, rfl⟩ := hn
  rcases lt_trichotomy k l with h | rfl | h
  · have := Nat.mul_le_mul_left c h
    rw [Nat.mul_succ] at this
    omega
  · rfl
  · have := Nat.mul_le_mul_left c h
    rw [Nat.mul_succ] at this
    omega

lemma commonMultiple_iff (hcount : size.pageCount ≠ 0) :
    CommonMultiple f.freeStart size ↔
      size.pageSize.toNat ∣ f.freeStart.toNat + (f.slice size.pageCount).toNat := by
  obtain ⟨hdvd, hlt⟩ := Finder.slice_multiple (f := f) hcount
  constructor
  · rintro ⟨m, hle, hm, hcount', hsize⟩
    rwa [← eq_of_multiples hcount' hdvd ⟨hle, hm⟩ ⟨by omega, by omega⟩]
  · exact fun h => ⟨_, by omega, by omega, hdvd, h⟩

/-- The sum may wrap, but a page size divides the size of the address space. -/
lemma dvd_add_iff (h : IsPageSize size.pageSize) {a b : Word} :
    size.pageSize.toNat ∣ (a + b).toNat ↔ size.pageSize.toNat ∣ a.toNat + b.toNat := by
  rw [BitVec.toNat_add]
  rcases h with h | h <;> rw [h]
  · show 4096 ∣ _ ↔ 4096 ∣ _
    omega
  · show 2097152 ∣ _ ↔ 2097152 ∣ _
    omega

end

section
variable {α : Type} {A : AllocatorOps α} {s : State α} {size : MemoryMap.Size}
variable {align entry : Word} {addr : VirtAddr} {f g : Finder}

lemma serve_of_room (halign : align ≠ 0) (h : f.canAllocate size.bytes align = .ok true) :
    ∃ g, serve f size.bytes align = .ok (some (f.freeStart + f.slice align), g) := by
  rw [serve, h, take_of_ne halign]
  exact ⟨_, rfl⟩

lemma serve_eq_some (halign : align ≠ 0)
    (h : serve f size.bytes align = .ok (some addr, g)) :
    f.canAllocate size.bytes align = .ok true ∧ addr = f.freeStart + f.slice align := by
  rw [serve, take_of_ne halign] at h
  obtain ⟨can, hcan, h⟩ := bind_eq_ok.mp h
  cases can with
  | true =>
    obtain ⟨haddr, -⟩ := Prod.mk.inj (Except.ok.inj h)
    exact ⟨hcan, (Option.some.inj haddr).symm⟩
  | false => cases h

lemma alloc_of_cuts (halign : align ≠ 0) (h : Cuts s size.bytes align f) :
    ∃ g, alloc s.pml4 s.table size.bytes align s.finder =
      .ok (some (f.freeStart + f.slice align), g) := by
  obtain ⟨hroom, rfl | ⟨hno, hscan⟩⟩ := h
  · rw [alloc_eq hroom]
    exact serve_of_room halign hroom
  · rw [alloc_eq hno, hscan]
    exact serve_of_room halign hroom

lemma alloc_eq_some (halign : align ≠ 0)
    (h : alloc s.pml4 s.table size.bytes align s.finder = .ok (some addr, g)) :
    ∃ f, Cuts s size.bytes align f ∧ addr = f.freeStart + f.slice align := by
  obtain ⟨can, hcan⟩ := canAllocate_of_ne s.finder size.bytes halign
  rw [alloc_eq hcan] at h
  cases can with
  | true =>
    obtain ⟨hroom, haddr⟩ := serve_eq_some halign h
    exact ⟨_, ⟨hroom, .inl rfl⟩, haddr⟩
  | false =>
    obtain ⟨f, hscan, h⟩ := bind_eq_ok.mp h
    obtain ⟨hroom, haddr⟩ := serve_eq_some halign h
    exact ⟨f, ⟨hroom, .inr ⟨hcan, hscan⟩⟩, haddr⟩

/-- A request is handed out aligned if the multiple of the alignment is one of the page size. -/
lemma allocList_aligned_iff (hset : s.table.cr3 = s.pml4) (hsize : IsPageSize size.pageSize)
    (hcount : size.pageCount ≠ 0) (halign : align ≠ 0) :
    HandsOutAligned size (allocList A size align entry s) ↔
      ∀ f, Cuts s size.bytes align f →
        size.pageSize.toNat ∣ f.freeStart.toNat + (f.slice align).toNat := by
  constructor
  · rintro ⟨hne, -⟩ f hf
    obtain ⟨g, halloc⟩ := alloc_of_cuts halign hf
    rw [← dvd_add_iff hsize, ← mod_eq_zero_iff]
    by_contra hoff
    have hcount' : 0 < size.pageCount.toNat := by
      rw [Nat.pos_iff_ne_zero]
      exact fun h => hcount (BitVec.eq_of_toNat_eq h)
    obtain ⟨d, hd⟩ : ∃ d, calcDepth size.pageSize = .ok d := by
      rcases hsize with h | h <;> rw [h]
      · exact ⟨3, rfl⟩
      · exact ⟨2, rfl⟩
    refine hne ?_
    have hlist : setList A s.pml4 (f.freeStart + f.slice align) entry size 3 s.table =
        .error misaligned := setList_eq_misaligned hset hd hcount' hoff
    exact bind_eq_error.mpr (.inr ⟨_, halloc, bind_eq_error.mpr (.inl hlist)⟩)
  · intro h
    have haligned : ∀ addr g, alloc s.pml4 s.table size.bytes align s.finder = .ok (some addr, g) →
        size.pageSize.toNat ∣ addr.toNat := fun addr g halloc => by
      obtain ⟨f, hf, rfl⟩ := alloc_eq_some halign halloc
      exact (dvd_add_iff hsize).mpr (h f hf)
    constructor
    · apply bind_ne_error (alloc_ne_misaligned halign)
      rintro ⟨_ | addr, g⟩ halloc
      · exact ok_ne_error
      · apply bind_ne_error (setList_ne_misaligned (mod_eq_zero_iff.mpr (haligned addr g halloc)))
        rintro ⟨w, table⟩ _
        exact ok_ne_error
    · intro addr t hok
      obtain ⟨⟨a, g⟩, halloc, hok⟩ := bind_eq_ok.mp hok
      cases a with
      | none => cases hok
      | some a =>
        obtain ⟨_, _, hok⟩ := bind_eq_ok.mp hok
        obtain ⟨haddr, -⟩ := Prod.mk.inj (Except.ok.inj hok)
        obtain rfl := Option.some.inj haddr
        exact haligned a g halloc

lemma reachable_loaded (h : (calls A).Reachable s) : s.table.cr3 = s.pml4 := by
  refine h.invariant (P := fun s => s.table.cr3 = s.pml4) ?_ ?_
  · rintro _ ⟨reservedEnd, mem, x, setup, -, -, rfl⟩
    rfl
  · rintro s c t - hs ⟨r, hok⟩
    have hclear : ∀ range ∈ c.clears, KeptByClear A s.pml4 (fun u => u.cr3 = s.pml4) range := by
      intro range _ u v hu hv
      have hloaded : StaysLoaded s.pml4 id (unsetPages A s.pml4 range.2.pageSize
        range.2.pageCount.toNat range.1 u) := unsetPages_loaded _ _ hu
      rwa [hv] at hloaded
    have hset : ∀ range ∈ c.sets r, KeptBySet A s.pml4 (fun u => u.cr3 = s.pml4) range := by
      intro range _ u w v hu hv
      have hloaded : StaysLoaded s.pml4 (·.2) (setList A s.pml4 range.addr range.entry
        range.size 3 u) := setList_loaded _ _ _ hu
      rwa [hv] at hloaded
    obtain ⟨hpml4, ht⟩ := exec_rule hs (fun _ _ _ hu => hu) hclear hset hok
    rw [hpml4]
    exact ht

/-- From every reachable candidate `Reserve` hands out aligned pages; `Map` does so if and only
if the candidate it uses has a common multiple of the page count and the page size at hand. -/
theorem hands_out_aligned_iff (h : (calls A).Reachable s) (hsize : IsPageSize size.pageSize)
    (hcount : 1 ≤ size.pageCount.toNat) :
    HandsOutAligned size (reserve A size s) ∧
    ∀ phys attributes, HandsOutAligned size (map A phys size attributes s) ↔
      ∀ f, Cuts s size.bytes size.pageCount f → CommonMultiple f.freeStart size := by
  have hset := reachable_loaded h
  have hcount' : size.pageCount ≠ 0 := by
    intro hzero
    rw [hzero] at hcount
    cases hcount
  have hpos : size.pageSize ≠ 0 := by
    rcases hsize with h | h <;> rw [h] <;> decide
  constructor
  · rw [reserve_eq_allocList, allocList_aligned_iff hset hsize hcount' hpos]
    exact fun f _ => (Finder.slice_multiple hpos).1
  · intro phys attributes
    rw [map_eq_allocList, allocList_aligned_iff hset hsize hcount' hcount']
    exact forall₂_congr fun f _ => (commonMultiple_iff hcount').symm

end

section
variable {setup : MapSetup.State ℕ}

lemma first_rescan (h : MapSetup.generateMap nextFrame 0x1000 (fun _ _ => 0) 1 = .ok setup) :
    updateFreeRegion setup.pml4 setup.table ⟨0, 0⟩ = .ok ⟨0x200000, 0x7fffe00000⟩ := by
  obtain ⟨p, hbuilt, -⟩ := MapSetup.generateMap_built nextFrame_contract (by decide) h
  have hfirst : setup.table.find (index 0) = (2, 0x183) := (hbuilt.kernelHalf (by decide)).first
  have hsize : walkSize setup.table 0 = 0x200000 := by rw [walkSize, hfirst]; rfl
  have hleaf : setup.table.leaf (index 0) ≠ none := by
    rw [State.leaf, hfirst]
    decide
  have hrest : ∀ x ∈ kernelAddresses, (walkSize setup.table 0).toNat ≤ x.toNat →
      setup.table.leaf (index x) = none := by
    intro x hx hle
    rw [hsize] at hle
    have hpage : ¬ x.toNat / 0x200000 < MapSetup.pagesFor (0x1000 : Word).toNat := by
      rw [show MapSetup.pagesFor (0x1000 : Word).toNat = 1 from rfl]
      change 0x200000 ≤ x.toNat at hle
      omega
    rw [State.leaf, hbuilt.find x hx, MapSetup.identityFind, if_neg hpage]
    exact leafOf_zero rfl
  have hkernel : walkSize setup.table 0 ∈ kernelAddresses := by
    rw [hsize]
    exact (by decide : (0x200000 : Word).toNat < kernelEnd.toNat)
  have hcr3 : setup.table.cr3 = setup.pml4 := rfl
  have hscan := updateFreeRegion_of_first_page hbuilt.tree hcr3 (f := ⟨0, 0⟩) hleaf hrest hkernel
    (by rw [hsize]; decide)
  rw [hsize] at hscan
  exact hscan

lemma first_cuts (h : MapSetup.generateMap nextFrame 0x1000 (fun _ _ => 0) 1 = .ok setup)
    {size align : Word} (hno : Finder.canAllocate ⟨0, 0⟩ size align = .ok false)
    (hroom : Finder.canAllocate ⟨0x200000, 0x7fffe00000⟩ size align = .ok true) :
    Cuts ⟨setup.table, setup.pml4, ⟨0, 0⟩⟩ size align ⟨0x200000, 0x7fffe00000⟩ :=
  ⟨hroom, .inr ⟨hno, first_rescan h⟩⟩

end

lemma firstSetup_ok : ∃ setup : MapSetup.State ℕ,
    MapSetup.generateMap nextFrame 0x1000 (fun _ _ => 0) 1 = .ok setup := by
  have hrun : (MapSetup.generateMap nextFrame 0x1000 (fun _ _ => 0) 1).toOption.map
      (fun setup => setup.firstUnmapped) = some 0x200000 := by decide +kernel
  exact (exists_ok_of_map hrun).imp fun _ h => h.1

/-- One large page, mapped or reserved from a fresh map. -/
theorem hands_out_aligned_iff_large_page : ∃ s, (calls nextFrame).Reachable s ∧
    Cuts s 0x200000 1 ⟨0x200000, 0x7fffe00000⟩ ∧
    HandsOutAligned ⟨0x200000, 1⟩ (reserve nextFrame ⟨0x200000, 1⟩ s) ∧
    HandsOutAligned ⟨0x200000, 1⟩ (map nextFrame 0x400000 ⟨0x200000, 1⟩ {} s) := by
  obtain ⟨setup, hsetup⟩ := firstSetup_ok
  have hreach := System.Reachable.start (firstSetup_start hsetup)
  have hsize : IsPageSize (MemoryMap.Size.mk 0x200000 1).pageSize := .inr rfl
  have hiff := hands_out_aligned_iff hreach hsize le_rfl
  refine ⟨_, hreach, first_cuts hsetup (by decide) (by decide), hiff.1, ?_⟩
  rw [hiff.2]
  rintro f ⟨hroom, rfl | ⟨-, hscan⟩⟩
  · cases hroom
  · obtain rfl := Except.ok.inj ((first_rescan hsetup).symm.trans hscan)
    exact ⟨0x200000, by decide, by decide, by decide, by decide⟩

/-- Three small pages from a fresh map are cut from a candidate that starts at 2 MiB, where the
next multiple of three is no page boundary. -/
theorem three_pages_misaligned : ∃ s, (calls nextFrame).Reachable s ∧
    map nextFrame 0x5000 ⟨0x1000, 3⟩ {} s = .error misaligned := by
  obtain ⟨setup, hsetup⟩ := firstSetup_ok
  refine ⟨_, .start (firstSetup_start hsetup), ?_⟩
  have hcuts : Cuts ⟨setup.table, setup.pml4, ⟨0, 0⟩⟩ (MemoryMap.Size.mk 0x1000 3).bytes 3
      ⟨0x200000, 0x7fffe00000⟩ := first_cuts hsetup (by decide) (by decide)
  obtain ⟨g, halloc⟩ := alloc_of_cuts (by decide) hcuts
  have hdepth : calcDepth (MemoryMap.Size.mk 0x1000 3).pageSize = .ok 3 := rfl
  refine bind_eq_error.mpr (.inr ⟨_, halloc, bind_eq_error.mpr (.inl ?_)⟩)
  exact setList_eq_misaligned rfl hdepth (by decide) (by decide)

end Anarch.GlobalMap
