import Anarch.PageTableMapRun
import Anarch.PageTablePages

/-! `Unset` on an address inside a page: it clears the entry that its first loop ends at,
whether or not the page starts at the address. -/
namespace Anarch.PageTable
open RadixTree

section
variable {α : Type}

/-- `Unset` with what it returns: after both loops, and at the first entry that is left. -/
def unsetReturns (A : AllocatorOps α) (pml4 : PhysAddr) (addr : VirtAddr) (s : State α) :
    Outcome (Bool × State α) := do return (true, ← unset A pml4 addr s)

/-- The address is in a present page of this depth. -/
def Covered (pml4 : PhysAddr) (s : State α) (addr : VirtAddr) (d : ℕ) : Prop :=
  ∃ e, mapping pml4 s addr = some (d, e) ∧ isPresent e = true

/-- `Unset` returned true, and the page is gone from the map, but nothing else. -/
def RemovesPage (A : AllocatorOps α) (used : α → Set Frame) (I : Set Index) (pml4 : PhysAddr)
    (s : State α) (addr : VirtAddr) (d : ℕ) : Prop :=
  ∃ t, unsetReturns A pml4 addr s = .ok (true, t) ∧ Confined used I s t ∧
    (∀ b, SamePage d addr b → mapping pml4 t b = none) ∧
    ∀ b, index b 0 ∈ I → ¬ SamePage d addr b → mapping pml4 t b = mapping pml4 s b

/-- False and no change on a piece of a page, the page removed at its base. -/
def UnsetByBase (A : AllocatorOps α) (used : α → Set Frame) (I : Set Index) (pml4 : PhysAddr)
    (s : State α) (addr : VirtAddr) (d : ℕ) : Prop :=
  if addr % pageSizeAt d = 0 then RemovesPage A used I pml4 s addr d
  else unsetReturns A pml4 addr s = .ok (false, s)

variable {A : AllocatorOps α} {used : α → Set Frame} {I : Set Index} {pml4 : PhysAddr}
variable {s t : State α} {addr : VirtAddr} {d : ℕ}

lemma unsetReturns_ne_false : unsetReturns A pml4 addr s ≠ .ok (false, t) := by
  intro h
  obtain ⟨u, -, h⟩ := bind_eq_ok.mp h
  cases h

/-- `Unset` of any 4 KiB-aligned address of a page removes the whole page. -/
lemma unset_removesPage (hA : FrameContract A used) (ht : Tree used I s) (hcr3 : s.cr3 = pml4)
    (ha : index addr 0 ∈ I) (halign : addr &&& 0xfff = 0) (hpage : Covered pml4 s addr d) :
    RemovesPage A used I pml4 s addr d := by
  obtain ⟨e, hmap, -⟩ := hpage
  rw [mapping_eq ht.self hcr3] at hmap
  obtain ⟨hfind, hleaf⟩ := leafOf_eq_some.mp hmap
  have hd : d ≤ 3 := by
    have hle := (find_spec s (index addr)).1
    rwa [hfind] at hle
  have hend : (s.find (index addr)).1 = 3 ∨ isHuge (s.find (index addr)).2 = true := by
    rw [hfind]
    exact hleaf.symm.imp And.left id
  obtain ⟨t, hok, ht', hc, hon, hoff⟩ := unset_view hA ht ha hcr3 halign hend
  rw [hfind] at hon hoff
  have hcr3' : t.cr3 = pml4 := hc.cr3.trans hcr3
  refine ⟨t, by rw [unsetReturns, hok]; rfl, hc, fun b hb => ?_, fun b hb hother => ?_⟩
  · have hb' : index b 0 ∈ I := by rwa [hb.index_zero hd]
    rw [mapping_eq ht'.self hcr3', State.leaf]
    exact leafOf_zero (hon _ hb' ((agree_index_iff hd addr b).mpr hb))
  · rw [mapping_eq ht'.self hcr3', mapping_eq ht.self hcr3, State.leaf, State.leaf]
    rcases hoff _ hb (mt (agree_index_iff hd addr b).mp hother) with hsame | ⟨hs, ht⟩
    · rw [hsame]
    · rw [leafOf_zero hs, leafOf_zero ht]

/-- `Unset` does what it should exactly on the bases of pages. -/
theorem unset_by_base_iff (hA : FrameContract A used) (ht : Tree used I s) (hcr3 : s.cr3 = pml4)
    (ha : index addr 0 ∈ I) (halign : addr &&& 0xfff = 0) (hpage : Covered pml4 s addr d) :
    UnsetByBase A used I pml4 s addr d ↔ addr % pageSizeAt d = 0 := by
  unfold UnsetByBase
  by_cases hbase : addr % pageSizeAt d = 0
  · rw [if_pos hbase]
    exact iff_of_true (unset_removesPage hA ht hcr3 ha halign hpage) hbase
  · rw [if_neg hbase]
    exact iff_of_false unsetReturns_ne_false hbase

end

lemma emptyMap_large_page : ∃ w t, set nextFrame 0x1000 0 0x183 3 2 emptyMap = .ok (w, t) ∧
    Tree firstFrames ownSlots t ∧ t.cr3 = 0x1000 ∧ Covered 0x1000 t 0 2 ∧
    Covered 0x1000 t 0x1000 2 ∧
    (unset nextFrame 0x1000 0x1000 t).toOption.map (mapping 0x1000 · 0x5000) = some none := by
  have h : ((set nextFrame 0x1000 0 0x183 3 2 emptyMap).toOption.map fun r =>
      [some (mapping 0x1000 r.2 0), some (mapping 0x1000 r.2 0x1000),
        (unset nextFrame 0x1000 0x1000 r.2).toOption.map (mapping 0x1000 · 0x5000)]) =
      some [some (some (2, 0x183)), some (some (2, 0x183)), some none] := by decide +kernel
  obtain ⟨⟨w, t⟩, hset, hr⟩ := exists_ok_of_map h
  obtain ⟨hbase, hr⟩ := List.cons.inj hr
  obtain ⟨hpiece, hr⟩ := List.cons.inj hr
  have hempty := (reachable_mapped nextFrame_contract (.start emptyMap_start)).tree
  obtain ⟨ht, hc⟩ := hempty.set nextFrame_contract (by decide : index 0 0 ≠ 0x1ff) rfl (.inl rfl)
    (.inr rfl) hset
  exact ⟨w, t, hset, ht, hc.cr3, ⟨0x183, Option.some.inj hbase, rfl⟩,
    ⟨0x183, Option.some.inj hpiece, rfl⟩, (List.cons.inj hr).1⟩

/-- The base of the large page. -/
theorem unset_by_base_large_page : ∃ t, Covered 0x1000 t 0 2 ∧
    UnsetByBase nextFrame firstFrames ownSlots 0x1000 t 0 2 := by
  obtain ⟨-, t, -, ht, hcr3, hpage, -⟩ := emptyMap_large_page
  exact ⟨t, hpage, (unset_by_base_iff nextFrame_contract ht hcr3
    (by decide : index 0 0 ≠ 0x1ff) rfl hpage).mpr rfl⟩

/-- Released by its second 4 KiB, the large page is gone, and the call returned true. -/
theorem unset_piece_removes_page : ∃ s t, Tree firstFrames ownSlots s ∧ s.cr3 = 0x1000 ∧
    Covered 0x1000 s 0x1000 2 ∧ unsetReturns nextFrame 0x1000 0x1000 s = .ok (true, t) ∧
    mapping 0x1000 t 0x5000 = none ∧
    ¬ UnsetByBase nextFrame firstFrames ownSlots 0x1000 s 0x1000 2 := by
  obtain ⟨-, s, -, hs, hcr3, -, hpage, hunset⟩ := emptyMap_large_page
  obtain ⟨t, hok, ht⟩ := exists_ok_of_map hunset
  refine ⟨s, t, hs, hcr3, hpage, by rw [unsetReturns, hok]; rfl, ht, fun h => ?_⟩
  rw [UnsetByBase, if_neg (by decide)] at h
  exact unsetReturns_ne_false h

end Anarch.PageTable
