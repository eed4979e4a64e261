import Anarch.AllocatorContiguous
import Anarch.GlobalMapCalls
import Anarch.GlobalMapPages
import Anarch.PageTableFractal
import Anarch.PageTableRead

/-! What the calls of the kernel's memory map do to its pages, as long as every entry of the kernel
half can be read back. -/
namespace Anarch.GlobalMap
open PageTable FreeFinder RadixTree AllocatorMapping

/-- The physical addresses that an entry has room for. -/
def memory : Set PhysAddr := {p | p.toNat < 2 ^ 52}

/-- A page of a size that `Read` knows, reserved, or mapped to a multiple of its size. -/
structure Readable (found : ℕ × Word) : Prop where
  leaf : found.1 = 3 ∨ found.1 = 2 ∧ isHuge found.2 = true
  mapped : isPresent found.2 = true → ∃ phys attributes, phys % pageSizeAt found.1 = 0 ∧
    phys ∈ memory ∧ found.2 = phys ||| calcMask (pageSizeAt found.1) true attributes

section
variable {α : Type}

/-- The table books some ledger, and every entry of it can be read back. -/
structure Orderly (used : α → Set Frame) (s : State α) : Prop where
  booked : ∃ L, Booked used L s
  readable : ∀ x ∈ kernelAddresses, ∀ found, s.table.slot x = some found → Readable found

variable {used : α → Set Frame} {A : AllocatorOps α} {s t : State α} {v x : VirtAddr}
variable {phys : PhysAddr} {pageSize : Word} {size : MemoryMap.Size} {held : Option PhysAddr}
variable {attributes : MemoryMap.Attributes} {d : ℕ} {e : Word}

lemma Readable.le (h : Readable (d, e)) : d ≤ 3 := by
  rcases h.leaf with h | ⟨h, -⟩
  · exact h.le
  · exact h.le.trans (by decide)

lemma Readable.cases (h : Readable (d, e)) : d = 2 ∨ d = 3 := (h.leaf.imp_right And.left).symm

lemma calcDepth_pageSizeAt (h : d = 2 ∨ d = 3) : calcDepth (pageSizeAt d) = .ok d := by
  rcases h with rfl | rfl <;> rfl

lemma exists_depth (h : IsPageSize pageSize) :
    ∃ d, (d = 2 ∨ d = 3) ∧ pageSize = pageSizeAt d := by
  rcases h with rfl | rfl
  · exact ⟨3, .inr rfl, rfl⟩
  · exact ⟨2, .inl rfl, rfl⟩

lemma heldBy_mapped (hd : d = 2 ∨ d = 3) (halign : phys % pageSizeAt d = 0)
    (hmem : phys ∈ memory) :
    heldBy (phys ||| calcMask (pageSizeAt d) true attributes) = some phys := by
  have hlo : phys.toNat % 2 ^ (39 - 9 * d) = 0 := by
    rw [← pageSizeAt_toNat (by omega)]
    exact toNat_mod_of_aligned halign
  have hparts := entry_parts (decide (pageSizeAt d = 0x1000)) true attributes.executable
    attributes.writable (show 39 - 9 * d = 12 ∨ 39 - 9 * d = 21 by omega) hlo hmem
  rw [heldBy, if_pos isPresent_calcMask, calcMask_eq_flags, hparts.1]

lemma readable_mapped (hd : d = 2 ∨ d = 3) (halign : phys % pageSizeAt d = 0)
    (hmem : phys ∈ memory) : Readable (d, phys ||| calcMask (pageSizeAt d) true attributes) := by
  refine ⟨?_, fun _ => ⟨phys, attributes, halign, hmem, rfl⟩⟩
  rcases hd with rfl | rfl
  · exact .inr ⟨rfl, isHuge_calcMask (by decide)⟩
  · exact .inl rfl

lemma mapped_page {n k : ℕ} (hd : d ≤ 3) (halign : phys % pageSizeAt d = 0)
    (hend : phys.toNat + n * (pageSizeAt d).toNat ≤ 2 ^ 52) (hk : k < n) :
    pageAt (phys ||| calcMask (pageSizeAt d) true attributes) (pageSizeAt d) k =
        pageAt phys (pageSizeAt d) k ||| calcMask (pageSizeAt d) true attributes ∧
      pageAt phys (pageSizeAt d) k % pageSizeAt d = 0 ∧
      pageAt phys (pageSizeAt d) k ∈ memory := by
  have hpos := pageSizeAt_pos hd
  have hlt := Nat.mul_lt_mul_of_pos_right hk hpos
  have hnum : (pageAt phys (pageSizeAt d) k).toNat = phys.toNat + k * (pageSizeAt d).toNat :=
    pageAt_toNat (by omega) hpos
  refine ⟨?_, mod_eq_zero_iff.mpr ?_, ?_⟩
  · rw [calcMask_eq_flags, pageAt_flags hd (toNat_mod_of_aligned halign) (by omega)]
  · rw [hnum]
    exact Nat.dvd_add (mod_eq_zero_iff.mp halign) (Nat.dvd_mul_left ..)
  · show _ < 2 ^ 52
    omega

lemma frameOf_mapped (hmem : phys ∈ memory) :
    (frameOf (phys ||| calcMask pageSize true attributes)).toNat = phys.toNat / 4096 := by
  have hflags : ∀ small kernel executable writable,
      frameOf (flags small kernel executable writable) = 0 := by decide
  have hlt : phys.toNat < 2 ^ 52 := hmem
  have hor : frameOf (phys ||| calcMask pageSize true attributes) = frameOf phys := by
    rw [frameOf, BitVec.ushiftRight_or_distrib, BitVec.setWidth_or]
    exact (congrArg (frameOf phys ||| ·) (by rw [calcMask_eq_flags]; exact hflags ..)).trans
      BitVec.or_zero
  rw [hor, frameOf, BitVec.toNat_setWidth, BitVec.toNat_ushiftRight, Nat.shiftRight_eq_div_pow]
  omega

lemma physical_mapped (hd : d = 2 ∨ d = 3) (halign : phys % pageSizeAt d = 0)
    (hmem : phys ∈ memory) (hpage : v % pageSizeAt d = 0)
    (hin : x ∈ addresses v (pageSizeAt d).toNat) :
    frameAddr (leafFrame d (phys ||| calcMask (pageSizeAt d) true attributes) x) +
      (x.setWidth 12).setWidth 64 = phys + (x - v) := by
  have hlt : phys.toNat < 2 ^ 52 := hmem
  have hframe : (frameOf (phys ||| calcMask (pageSizeAt d) true attributes)).toNat =
      phys.toNat / 4096 := frameOf_mapped hmem
  have hmod := toNat_mod_of_aligned halign
  have hvmod := toNat_mod_of_aligned hpage
  rw [mem_addresses] at hin
  apply BitVec.eq_of_toNat_eq
  rw [BitVec.toNat_add, BitVec.toNat_add, BitVec.toNat_sub_of_le (BitVec.le_def.mpr hin.1),
    frameAddr, BitVec.toNat_shiftLeft, BitVec.toNat_setWidth, BitVec.toNat_setWidth,
    BitVec.toNat_setWidth, Nat.shiftLeft_eq]
  rcases hd with rfl | rfl
  · have hlarge : (leafFrame 2 (phys ||| calcMask (pageSizeAt 2) true attributes) x).toNat = _ :=
      frameInPage_toNat (k := phys.toNat / 0x200000) (by
        rw [hframe]
        change phys.toNat % 0x200000 = 0 at hmod
        omega)
    rw [hlarge]
    change phys.toNat % 0x200000 = 0 at hmod
    change v.toNat % 0x200000 = 0 at hvmod
    change _ ∧ x.toNat < v.toNat + 0x200000 at hin
    omega
  · have hsmall : (leafFrame 3 (phys ||| calcMask (pageSizeAt 3) true attributes) x).toNat = _ :=
      hframe
    rw [hsmall]
    change phys.toNat % 0x1000 = 0 at hmod
    change v.toNat % 0x1000 = 0 at hvmod
    change _ ∧ x.toNat < v.toNat + 0x1000 at hin
    omega

lemma readable_reserved (hd : d = 2 ∨ d = 3) (hp : isPresent e = false)
    (hhuge : d = 3 ∨ isHuge e = true) : Readable (d, e) := by
  refine ⟨?_, fun h => ?_⟩
  · rcases hd with rfl | rfl
    · exact .inr ⟨rfl, hhuge.resolve_left (by decide)⟩
    · exact .inl rfl
  · rw [hp] at h
    cases h

lemma heldBy_absent (hp : isPresent e = false) : heldBy e = none := if_neg (by rw [hp]; decide)

lemma Orderly.slot_of {page : Page} (hs : Orderly used s) (h : pagesOf s.table v = some page) :
    v ∈ kernelAddresses ∧ ∃ d e, (d = 2 ∨ d = 3) ∧ s.table.slot v = some (d, e) ∧
      Readable (d, e) ∧ v % pageSizeAt d = 0 ∧ page = (pageSizeAt d, heldBy e) := by
  obtain ⟨hv, d, e, hslot, halign, hpage⟩ := pagesOf_eq_some.mp h
  have hread := hs.readable v hv _ hslot
  exact ⟨hv, d, e, hread.cases, hslot, hread, halign, hpage⟩

lemma Orderly.entry_of (hs : Orderly used s)
    (h : pagesOf s.table v = some (pageSize, some phys)) :
    v ∈ kernelAddresses ∧ ∃ d attributes, (d = 2 ∨ d = 3) ∧ pageSize = pageSizeAt d ∧
      v % pageSizeAt d = 0 ∧ phys % pageSizeAt d = 0 ∧ phys ∈ memory ∧
      s.table.slot v = some (d, phys ||| calcMask (pageSizeAt d) true attributes) := by
  obtain ⟨hv, d, e, hd, hslot, hread, hmod, hpage⟩ := hs.slot_of h
  obtain ⟨rfl, hheld⟩ := Prod.mk.inj hpage
  have hp : isPresent e = true := by
    by_contra hp
    rw [heldBy_absent (Bool.eq_false_of_not_eq_true hp)] at hheld
    cases hheld
  obtain ⟨q, attributes, halign, hmem, he⟩ := hread.mapped hp
  have he : e = q ||| calcMask (pageSizeAt d) true attributes := he
  rw [he, heldBy_mapped hd halign hmem] at hheld
  obtain rfl := Option.some.inj hheld
  rw [he] at hslot
  exact ⟨hv, d, attributes, hd, rfl, hmod, halign, hmem, hslot⟩

lemma Orderly.read_mapped (hs : Orderly used s)
    (h : pagesOf s.table v = some (pageSize, some phys)) :
    ∃ attributes, read v s = .ok (some ⟨phys, attributes, pageSize⟩) := by
  obtain ⟨L, hbooked⟩ := hs.booked
  obtain ⟨-, d, attributes, hd, rfl, -, halign, hmem, hslot⟩ := hs.entry_of h
  exact ⟨_, read_of_find hbooked.books.tree.self hbooked.books.cr3 hd
    (toNat_mod_of_aligned halign) hmem (slot_eq_some.mp hslot).2⟩

lemma Orderly.leaves (hs : Orderly used s) {n : ℕ} (hd : d = 2 ∨ d = 3)
    (halign : v % pageSizeAt d = 0) (hend : v.toNat + n * (pageSizeAt d).toNat ≤ kernelEnd.toNat)
    (hpages : ∀ p ∈ pageStarts v (pageSizeAt d) n, ∃ held,
      pagesOf s.table p = some (pageSizeAt d, held)) :
    s.table.leavesIn v (n * (pageSizeAt d).toNat) d := by
  intro x hx
  have hK : kernelEnd.toNat = 2 ^ 39 := rfl
  have hpos : 0 < (pageSizeAt d).toNat := pageSizeAt_pos (by omega)
  have hxK := addresses_subset_kernel hend hx
  have hmod := Nat.mod_lt x.toNat hpos
  have hle := Nat.mod_le x.toNat (pageSizeAt d).toNat
  -- the page of the address starts in the range
  let p : Word := BitVec.ofNat 64 (x.toNat - x.toNat % (pageSizeAt d).toNat)
  have hp : p.toNat = x.toNat - x.toNat % (pageSizeAt d).toNat :=
    Nat.mod_eq_of_lt ((Nat.sub_le ..).trans_lt x.isLt)
  have hpmod : p % pageSizeAt d = 0 := mod_eq_zero_iff.mpr (hp ▸ Nat.dvd_sub_mod x.toNat)
  have hstart : v.toNat ≤ p.toNat := by
    obtain ⟨a, ha⟩ := mod_eq_zero_iff.mp halign
    obtain ⟨b, hb⟩ := mod_eq_zero_iff.mp hpmod
    rw [ha, hb]
    refine Nat.mul_le_mul_left _ (Nat.le_of_lt_succ ?_)
    have hlow := hx.1
    refine Nat.lt_of_mul_lt_mul_left (a := (pageSizeAt d).toNat) ?_
    rw [Nat.mul_succ]
    omega
  have hpin : p ∈ addresses v (n * (pageSizeAt d).toNat) :=
    ⟨hstart, by have := hx.2; omega⟩
  obtain ⟨held, hpage⟩ := hpages p
    ((mem_pageStarts_iff hpos halign (by omega)).mpr ⟨hpin, hpmod⟩)
  obtain ⟨hpK, d', e, hd', hslot, hread, -, heq⟩ := hs.slot_of hpage
  obtain rfl : d = d' := pageSizeAt_inj (by omega) hread.le (Prod.mk.inj heq).1
  have hin : x ∈ addresses p (pageSizeAt d).toNat := ⟨by omega, by omega⟩
  exact ⟨e, slot_of_page hpK hxK hslot hpmod hin, hread.leaf.imp_right And.right⟩

lemma Booked.holds {L : Ledger} (h : Booked used L s) (hd : d ≤ 3) (halign : v % pageSizeAt d = 0)
    {n : Word} (hend : v.toNat + (MemoryMap.Size.mk (pageSizeAt d) n).span ≤ kernelEnd.toNat)
    (hslots : ∀ x ∈ addresses v (MemoryMap.Size.mk (pageSizeAt d) n).span,
      ∃ e, s.table.slot x = some (d, e)) : Held L v ⟨pageSizeAt d, n⟩ := by
  refine ⟨pageSizeAt_pos hd, toNat_mod_of_aligned halign, hend, fun x hx => ?_⟩
  obtain ⟨e, hslot⟩ := hslots x hx
  rw [← h.books.booked (addresses_subset_kernel hend hx), booked_eq_slot]
  simp only [hslot, Option.map_some]

lemma slot_of_free {L : Ledger} (h : Booked used L s) (hfree : Free L v size)
    (hx : x ∈ addresses v size.span) : s.table.slot x = none := by
  have hxK := addresses_subset_kernel hfree.1 hx
  exact slot_eq_none.mpr (booked_eq_none.mp ((h.books.booked hxK).trans (hfree.2 x hx)))

section
variable (hA : FrameContract A used) (hs : Orderly used s)
include hA hs

lemma Orderly.unmap {n : Word} (hd : d = 2 ∨ d = 3) (hn : 0 < n.toNat)
    (hpages : ∀ p ∈ pageStarts v (pageSizeAt d) n.toNat, ∃ held,
      pagesOf s.table p = some (pageSizeAt d, held)) :
    ∃ t, GlobalMap.unmap A v ⟨pageSizeAt d, n⟩ s = .ok t ∧ Orderly used t ∧
      pagesOf t.table = fun x =>
        if x ∈ pageStarts v (pageSizeAt d) n.toNat then none else pagesOf s.table x := by
  obtain ⟨L, hbooked⟩ := hs.booked
  have hd3 : d ≤ 3 := by omega
  have hstarts : ∀ p ∈ pageStarts v (pageSizeAt d) n.toNat,
      p ∈ kernelAddresses ∧ p % pageSizeAt d = 0 := by
    intro p hp
    obtain ⟨held, hpage⟩ := hpages p hp
    obtain ⟨hpK, d', e, -, -, -, hmod, heq⟩ := hs.slot_of hpage
    rw [← (Prod.mk.inj heq).1] at hmod
    exact ⟨hpK, hmod⟩
  have halign := (hstarts v (start_mem_pageStarts hn)).2
  have hend := pageStarts_end_le hd hn hstarts
  have hleaves := hs.leaves hd halign hend hpages
  have hspan : (MemoryMap.Size.mk (pageSizeAt d) n).span = n.toNat * (pageSizeAt d).toNat :=
    Nat.mul_comm ..
  have hrange : LeafRange s.table v ⟨pageSizeAt d, n⟩ d :=
    ⟨calcDepth_pageSizeAt hd, halign, hspan ▸ hend, hspan ▸ hleaves⟩
  obtain ⟨t, hunset, hw, hnone⟩ := unset_exact hA hbooked.books.tree hbooked.books.cr3 hrange
  have hok := unmap_eq hunset
  have hheld : Held L v ⟨pageSizeAt d, n⟩ := hbooked.holds hd3 halign (hspan ▸ hend)
    fun x hx => (hleaves x (hspan ▸ hx)).imp fun _ h => h.1
  rw [hspan] at hw hnone
  refine ⟨_, hok, ⟨⟨_, hbooked.unmap hA hheld hok⟩, fun x hx found hslot => ?_⟩, ?_⟩
  · rw [slot_invalidate] at hslot
    by_cases hin : x ∈ addresses v (n.toNat * (pageSizeAt d).toNat)
    · cases (hnone x hin).symm.trans hslot
    · exact hs.readable x hx found ((hw.outside x hx hin).symm.trans hslot)
  · exact pagesOf_clear hd3 halign hend (fun x hx hin => hw.outside x hx hin)
      (fun x hx => .inr ((hleaves x hx).imp fun _ h => h.1)) hnone

/-- A page that is held has its tables, so mapping it anew cannot fail. -/
lemma Orderly.mapAt (attributes : MemoryMap.Attributes)
    (h : pagesOf s.table v = some (pageSize, held)) (halign : phys % pageSize = 0)
    (hmem : phys ∈ memory) :
    ∃ t, GlobalMap.mapAt A v phys ⟨pageSize, 1⟩ attributes s = .ok t ∧ Orderly used t ∧
      pagesOf t.table = fun x => if x ∈ pageStarts v pageSize 1
        then some (pageSize, some phys) else pagesOf s.table x := by
  obtain ⟨L, hbooked⟩ := hs.booked
  obtain ⟨hv, d, e, hd, hslot, hread, hmod, heq⟩ := hs.slot_of h
  obtain ⟨rfl, -⟩ := Prod.mk.inj heq
  have hnew : Readable (d, phys ||| calcMask (pageSizeAt d) true attributes) :=
    readable_mapped hd halign hmem
  have hlink : d = 3 ∨ link (phys ||| calcMask (pageSizeAt d) true attributes) = none :=
    hnew.leaf.imp_right fun h => link_eq_none.mpr (.inr h.2)
  have hne : phys ||| calcMask (pageSizeAt d) true attributes ≠ 0 := by
    have hzero : pageAt (phys ||| calcMask (pageSizeAt d) true attributes) (pageSizeAt d) 0 ≠ 0 :=
      mapped_ne_zero (pageSizeAt_mod hread.le) 0
    rwa [pageAt_zero] at hzero
  have hend := page_end_le hread.le hv hmod
  have hone : (MemoryMap.Size.mk (pageSizeAt d) 1).span = (pageSizeAt d).toNat := Nat.mul_one _
  have hpage : ∀ x ∈ addresses v (pageSizeAt d).toNat, s.table.slot x = some (d, e) :=
    fun x hx => slot_of_page hv (addresses_subset_kernel hend hx) hslot hmod hx
  rcases set_slot hA hbooked.books.tree hbooked.books.cr3 hv (.inl rfl) hread.le hmod hlink hne
    (.inr ⟨e, hslot⟩) with ⟨hno, -⟩ | ⟨w, t, hset, -, -, hslots⟩
  · rw [State.NoTable, State.missing, (slot_eq_some.mp hslot).2, Nat.sub_self, ite_self] at hno
    exact hno.elim
  have hlist : setList A s.pml4 v (phys ||| calcMask (pageSizeAt d) true attributes)
      ⟨pageSizeAt d, 1⟩ 3 s.table = .ok (w, t) := by
    rw [setList_eq hbooked.books.cr3 (calcDepth_pageSizeAt hd)]
    exact setPages_succ hset
  have hok : GlobalMap.mapAt A v phys ⟨pageSizeAt d, 1⟩ attributes s = .ok { s with
      table := distributeInvlpg v (MemoryMap.Size.mk (pageSizeAt d) 1).bytes t } := by
    simp only [GlobalMap.mapAt, hlist, bind, Except.bind, pure, Except.pure]
  have hheld : Held L v ⟨pageSizeAt d, 1⟩ := hbooked.holds hread.le hmod (hone ▸ hend)
    fun x hx => ⟨e, hpage x (hone ▸ hx)⟩
  refine ⟨_, hok, ⟨⟨_, hbooked.mapAt hA hheld hok⟩, fun x hx found hx' => ?_⟩, ?_⟩
  · rw [slot_invalidate, hslots hx] at hx'
    by_cases hin : x ∈ addresses v (pageSizeAt d).toNat
    · rw [overwrite_of_mem hin] at hx'
      obtain rfl := Option.some.inj hx'
      exact hnew
    · rw [overwrite_of_notMem hin] at hx'
      exact hs.readable x hx found hx'
  · refine pagesOf_set (n := 1) hread.le hmod (by omega) (fun x hx hin => ?_) (fun x hx => ?_)
      fun x hx => ?_
    all_goals rw [Nat.one_mul] at *
    · rw [slot_invalidate, hslots hx, overwrite_of_notMem hin]
    · exact .inr ⟨e, hpage x hx⟩
    · refine ⟨phys ||| calcMask (pageSizeAt d) true attributes, ?_,
        fun _ => heldBy_mapped hd halign hmem⟩
      rw [slot_invalidate, hslots (addresses_subset_kernel hend hx), overwrite_of_mem hx]

lemma Orderly.setList {L : Ledger} (hbooked : Booked used L s) {addr : VirtAddr} {entry n : Word}
    (hd : d = 2 ∨ d = 3) (hfree : Free L addr ⟨pageSizeAt d, n⟩)
    (hhuge : d = 3 ∨ isHuge entry = true)
    (hne : ∀ k < n.toNat, pageAt entry (pageSizeAt d) k ≠ 0)
    (hread : ∀ k < n.toNat, Readable (d, pageAt entry (pageSizeAt d) k))
    {f : VirtAddr → Option PhysAddr} (hf : ∀ k < n.toNat,
      heldBy (pageAt entry (pageSizeAt d) k) = f (pageAt addr (pageSizeAt d) k))
    {w : Bool} {table : PageTable.State α}
    (hok : PageTable.setList A s.pml4 addr entry ⟨pageSizeAt d, n⟩ 3 s.table = .ok (w, table)) :
    (∀ x ∈ kernelAddresses, ∀ found, table.slot x = some found → Readable found) ∧
      pagesOf table = fun x => if x ∈ pageStarts addr (pageSizeAt d) n.toNat
        then some (pageSizeAt d, f x) else pagesOf s.table x := by
  have hd3 : d ≤ 3 := by omega
  have hpos := pageSizeAt_pos hd3
  have hK : kernelEnd.toNat = 2 ^ 39 := rfl
  rw [setList_eq hbooked.books.cr3 (calcDepth_pageSizeAt hd)] at hok
  by_cases hn : n.toNat = 0
  · rw [hn] at hok ⊢
    obtain ⟨-, rfl⟩ := Prod.mk.inj (Except.ok.inj hok)
    exact ⟨hs.readable, funext fun x => by simp [pageStarts]⟩
  have halign : addr % pageSizeAt d = 0 := by
    obtain ⟨m, hm⟩ := Nat.exists_eq_succ_of_ne_zero hn
    rw [hm] at hok
    obtain ⟨⟨found, u⟩, hset, -⟩ := bind_eq_ok.mp hok
    exact (aligned_of_set hset).2
  have hspan : (MemoryMap.Size.mk (pageSizeAt d) n).span = n.toNat * (pageSizeAt d).toNat :=
    Nat.mul_comm ..
  have hend := hspan ▸ hfree.1
  have hnone : ∀ x ∈ addresses addr (n.toNat * (pageSizeAt d).toNat), s.table.slot x = none :=
    fun x hx => slot_of_free hbooked hfree (hspan ▸ hx)
  rcases setPages_slots hA hbooked.books.tree hbooked.books.cr3 rfl hd3 halign hend (.inl rfl)
    hhuge hne (fun x hx => .inl (hnone x hx)) false with ⟨-, herr⟩ | ⟨w', t, hok', hw, hset⟩
  · cases herr.symm.trans hok
  obtain ⟨-, rfl⟩ := Prod.mk.inj (Except.ok.inj (hok'.symm.trans hok))
  refine ⟨fun x hx found hslot => ?_, pagesOf_set hd3 halign hend
    (fun x hx hin => hw.outside x hx hin) (fun x hx => .inl (hnone x hx)) fun x hx => ?_⟩
  · by_cases hin : x ∈ addresses addr (n.toNat * (pageSizeAt d).toNat)
    · obtain ⟨k, hk, -, hslot'⟩ := hset x hin
      obtain rfl := Option.some.inj (hslot'.symm.trans hslot)
      exact hread k hk
    · exact hs.readable x hx found ((hw.outside x hx hin).symm.trans hslot)
  · obtain ⟨k, hk, hpage, hslot⟩ := hset x hx
    refine ⟨_, hslot, fun hmod => ?_⟩
    -- the only aligned address of a page is its start
    have hlt := Nat.mul_lt_mul_of_pos_right hk hpos
    have hstart : pageAt addr (pageSizeAt d) k = x := by
      apply BitVec.eq_of_toNat_eq
      rw [mem_addresses] at hpage
      rw [pageAt_toNat (by omega) hpos] at hpage ⊢
      have hdvd : (pageSizeAt d).toNat ∣ x.toNat - (addr.toNat + k * (pageSizeAt d).toNat) :=
        Nat.dvd_sub (mod_eq_zero_iff.mp hmod)
          (Nat.dvd_add (mod_eq_zero_iff.mp halign) (Nat.dvd_mul_left ..))
      have := Nat.eq_zero_of_dvd_of_lt hdvd (by omega)
      omega
    rw [hf k hk, hstart]

lemma Orderly.reserve (hsize : IsPageSize size.pageSize) (hsafe : AllocSafe s size size.pageSize)
    {r : Option VirtAddr} (hok : GlobalMap.reserve A size s = .ok (r, t)) :
    Orderly used t ∧ ∀ addr, r = some addr → addr.toNat + size.span ≤ kernelEnd.toNat ∧
        (∀ x ∈ addresses addr size.span, pagesOf s.table x = none) ∧
        pagesOf t.table = fun x => if x ∈ pageStarts addr size.pageSize size.pageCount.toNat
          then some (size.pageSize, none) else pagesOf s.table x := by
  obtain ⟨L, hbooked⟩ := hs.booked
  obtain ⟨hbooked', hfree⟩ := hbooked.reserve hA hsafe hok
  obtain ⟨-, -, ⟨rfl, htable⟩ | ⟨addr, w, rfl, hlist⟩⟩ := allocList_eq_ok hok
  · rw [htable]
    exact ⟨⟨⟨_, hbooked'⟩, htable ▸ hs.readable⟩, fun _ h => by cases h⟩
  · have hfree := hfree addr rfl
    obtain ⟨d, hd, hps⟩ := exists_depth hsize
    obtain ⟨pageSize, n⟩ := size
    obtain rfl : pageSize = pageSizeAt d := hps
    have hmod : (pageSizeAt d).toNat % 4096 = 0 := pageSizeAt_mod (by omega)
    have hhuge : d = 3 ∨ isHuge (reservedEntry (pageSizeAt d)) = true := by
      rcases hd with rfl | rfl
      · exact .inr (isHuge_reservedEntry (by decide))
      · exact .inl rfl
    have hp : ∀ k, isPresent (pageAt (reservedEntry (pageSizeAt d)) (pageSizeAt d) k) = false :=
      fun k => (isPresent_pageAt _ hmod k).trans (isPresent_reservedEntry hmod)
    obtain ⟨hread, hpages⟩ := hs.setList hA hbooked hd hfree hhuge
      (reserved_ne_zero (Nat.le_of_add_left_le hfree.1) hmod)
      (fun k _ => readable_reserved hd (hp k) (hhuge.imp_right ((isHuge_pageAt _ hmod k).trans ·)))
      (f := fun _ => none) (fun k _ => heldBy_absent (hp k)) hlist
    refine ⟨⟨⟨_, hbooked'⟩, hread⟩, ?_⟩
    rintro _ ⟨⟩
    exact ⟨hfree.1, fun x hx => pagesOf_of_slot_none (slot_of_free hbooked hfree hx), hpages⟩

lemma Orderly.map (hsize : IsPageSize size.pageSize) (hsafe : AllocSafe s size size.pageCount)
    (hphys : phys % size.pageSize = 0) (hend : phys.toNat + size.span ≤ 2 ^ 52)
    {r : Option VirtAddr} (hok : GlobalMap.map A phys size attributes s = .ok (r, t)) :
    Orderly used t ∧ ∀ addr, r = some addr → addr.toNat + size.span ≤ kernelEnd.toNat ∧
        (∀ x ∈ addresses addr size.span, pagesOf s.table x = none) ∧
        pagesOf t.table = placed addr size phys (pagesOf s.table) := by
  obtain ⟨L, hbooked⟩ := hs.booked
  obtain ⟨hbooked', hfree⟩ := hbooked.map hA hsafe hok
  obtain ⟨-, -, ⟨rfl, htable⟩ | ⟨addr, w, rfl, hlist⟩⟩ := allocList_eq_ok hok
  · rw [htable]
    exact ⟨⟨⟨_, hbooked'⟩, htable ▸ hs.readable⟩, fun _ h => by cases h⟩
  · have hfree := hfree addr rfl
    obtain ⟨d, hd, hps⟩ := exists_depth hsize
    obtain ⟨pageSize, n⟩ := size
    obtain rfl : pageSize = pageSizeAt d := hps
    have hd3 : d ≤ 3 := by omega
    have hpos := pageSizeAt_pos hd3
    have hhuge : d = 3 ∨ isHuge (phys ||| calcMask (pageSizeAt d) true attributes) = true := by
      rcases hd with rfl | rfl
      · exact .inr (isHuge_calcMask (by decide))
      · exact .inl rfl
    have hend : phys.toNat + n.toNat * (pageSizeAt d).toNat ≤ 2 ^ 52 :=
      Nat.mul_comm n.toNat _ ▸ hend
    obtain ⟨hread, hpages⟩ := hs.setList hA hbooked hd hfree hhuge
      (fun k _ => mapped_ne_zero (pageSizeAt_mod hd3) k)
      (fun k hk => by
        obtain ⟨hpage, halign, hmem⟩ := mapped_page hd3 hphys hend hk
        exact hpage ▸ readable_mapped hd halign hmem)
      (f := fun x => some (phys + (x - addr))) (fun k hk => by
        obtain ⟨hpage, halign, hmem⟩ := mapped_page hd3 hphys hend hk
        rw [hpage, heldBy_mapped hd halign hmem, pageAt, pageAt, add_sub_cancel_left]) hlist
    refine ⟨⟨⟨_, hbooked'⟩, hread⟩, ?_⟩
    rintro _ ⟨⟩
    exact ⟨hfree.1, fun x hx => pagesOf_of_slot_none (slot_of_free hbooked hfree hx), hpages⟩

end
lemma pages_of_refused {align entry : Word} {r : Option VirtAddr} (hr : r = none)
    (hok : allocList A size align entry s = .ok (r, t)) : pagesOf t.table = pagesOf s.table := by
  obtain ⟨-, -, ⟨-, htable⟩ | ⟨addr, w, hsome, -⟩⟩ := allocList_eq_ok hok
  · rw [htable]
  · cases hr.symm.trans hsome

end

end Anarch.GlobalMap
