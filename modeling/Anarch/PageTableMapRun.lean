import Anarch.PageTableMap

/-! In every run of `Set` and `Unset` from an empty PML4, the page table is the map of leaves
that the calls describe. The recursive slot is left out: it shows the tables themselves. -/
namespace Anarch.PageTable
open RadixTree TransitionRun

section
variable {α : Type} {A : AllocatorOps α} {used : α → Set Frame} {pml4 : PhysAddr} {s t : State α}

/-- The address is in a present page larger than those of the depth. -/
def InLargerPage (pml4 : PhysAddr) (s : State α) (addr : VirtAddr) (depth : ℕ) : Prop :=
  ∃ leaf, mapping pml4 s addr = some leaf ∧ leaf.1 < depth ∧ isPresent leaf.2 = true

/-- The map keeps what it says of the addresses outside the page and the recursive slot. -/
def SameElsewhere (pml4 : PhysAddr) (addr : VirtAddr) (depth : ℕ) (s t : State α) : Prop :=
  ∀ b, ¬ SamePage depth addr b → index b 0 ≠ 0x1ff → mapping pml4 t b = mapping pml4 s b

/-- The three ways a call of `Set` ends: there is no frame for a table, false, or true. -/
def SetRefines (A : AllocatorOps α) (pml4 : PhysAddr) (s : State α) (addr : VirtAddr)
    (entry parentMask : Word) (depth : ℕ) : Prop :=
  (s.NoTable A addr depth ∧ set A pml4 addr entry parentMask depth s = .error allocationFailed) ∨
  (∃ t, set A pml4 addr entry parentMask depth s = .ok (none, t) ∧
    InLargerPage pml4 s addr depth ∧
    ∀ b, index b 0 ≠ 0x1ff → walk pml4 b t = walk pml4 b s) ∨
  ∃ w t, set A pml4 addr entry parentMask depth s = .ok (some w, t) ∧
    ¬ InLargerPage pml4 s addr depth ∧
    (∀ b, SamePage depth addr b → walk pml4 b t = .ok ⟨some depth, entry, pageSizeAt depth⟩) ∧
    SameElsewhere pml4 addr depth s t

/-- `Unset` returns and unmaps the page. -/
def UnsetRefines (A : AllocatorOps α) (pml4 : PhysAddr) (s : State α) (addr : VirtAddr) : Prop :=
  ∃ t leaf, unset A pml4 addr s = .ok t ∧ mapping pml4 s addr = some leaf ∧
    (∀ b, SamePage leaf.1 addr b → ∃ found, walk pml4 b t = .ok found ∧ found.depth = none) ∧
    SameElsewhere pml4 addr leaf.1 s t

lemma low_bits_of_aligned {addr : VirtAddr} {depth : ℕ} (hd : depth ≤ 3)
    (h : addr % pageSizeAt depth = 0) : addr &&& 0xfff = 0 := by
  have hmod : addr.toNat % 4096 = 0 := by
    have := congrArg BitVec.toNat h
    rw [BitVec.toNat_umod] at this
    rcases (by omega : depth = 0 ∨ depth = 1 ∨ depth = 2 ∨ depth = 3) with rfl | rfl | rfl | rfl <;>
      simp [pageSizeAt] at this <;> omega
  apply BitVec.eq_of_toNat_eq
  rw [BitVec.toNat_and]
  exact (Nat.and_two_pow_sub_one_eq_mod addr.toNat 12).trans hmod

lemma SamePage.index_zero {depth : ℕ} (hd : depth ≤ 3) {a b : VirtAddr} (h : SamePage depth a b) :
    index b 0 = index a 0 := ((agree_index_iff hd a b).mpr h 0 (by omega)).symm

lemma depth_le_of_mapping (h : Mapped used ownSlots pml4 s) {addr : VirtAddr} {leaf : ℕ × Word}
    (hl : mapping pml4 s addr = some leaf) : leaf.1 ≤ 3 := by
  rw [mapping_eq h.tree.self h.cr3] at hl
  have hle := (find_spec s (index addr)).1
  rwa [(leafOf_eq_some.mp hl).1] at hle

section
variable (hA : FrameContract A used) (h : Mapped used ownSlots pml4 s)
variable {addr : VirtAddr} {entry parentMask : Word} {depth : ℕ}
include h

lemma not_inLargerPage (hfree : (s.find (index addr)).1 < depth →
    isPresent (s.find (index addr)).2 = false) : ¬ InLargerPage pml4 s addr depth := by
  rintro ⟨leaf, hl, hlt, hp⟩
  rw [mapping_eq h.tree.self h.cr3] at hl
  obtain ⟨hfind, -⟩ := leafOf_eq_some.mp hl
  rw [hfind] at hfree
  rw [hfree hlt] at hp
  cases hp

include hA

lemma set_refines (hc : LeafCall pml4 s (.set addr entry parentMask depth)) :
    SetRefines A pml4 s addr entry parentMask depth := by
  obtain ⟨hdepth, hp, hhuge, hm, halign, ha, -⟩ := hc
  have hd : depth ≤ 3 := by omega
  have he : depth = 3 ∨ link entry = none :=
    hdepth.symm.imp id fun h2 => link_eq_none.mpr (.inr (hhuge.mpr h2))
  have hleaf : leafOf (depth, entry) = some (depth, entry) :=
    leafOf_eq_some.mpr ⟨rfl, hdepth.imp hhuge.mpr fun h3 => ⟨h3, hp⟩⟩
  rcases h.set hA ha hm hd halign he hp with hnone | ⟨t, hok, ht, -, hlt, hpr, hsame⟩ |
    ⟨w, t, hok, ht, -, hfree, hon, hoff⟩
  · exact .inl hnone
  · refine .inr (.inl ⟨t, hok, ⟨s.find (index addr), ?_, hlt, hpr⟩, fun b hb => ?_⟩)
    · obtain ⟨-, -, -, -, hend⟩ := find_spec s (index addr)
      have hh := link_eq_none.mp (hend.resolve_left (by omega))
      rw [mapping_eq h.tree.self h.cr3, State.leaf, leafOf, if_pos]
      exact .inl (hh.resolve_left (by simp [hpr]))
    · rw [walk_eq ht.tree.self ht.cr3, walk_eq h.tree.self h.cr3, hsame _ hb]
  · refine .inr (.inr ⟨w, t, hok, not_inLargerPage h hfree, fun b hb => ?_, fun b hb hb' => ?_⟩)
    · have hb' : index b 0 ∈ ownSlots := by rw [hb.index_zero hd]; exact ha
      rw [walk_eq ht.tree.self ht.cr3, hon _ hb' ((agree_index_iff hd _ _).mpr hb), walkResult,
        if_pos (leafOf_eq_some.mp hleaf).2]
    · rw [mapping_eq ht.tree.self ht.cr3, mapping_eq h.tree.self h.cr3]
      exact hoff _ hb' (mt (agree_index_iff hd _ _).mp hb)

lemma unset_refines (hc : LeafCall pml4 s (.unset addr)) : UnsetRefines A pml4 s addr := by
  obtain ⟨ha, leaf, hl, halign⟩ := hc
  have hd := depth_le_of_mapping h hl
  have hl' := hl
  rw [mapping_eq h.tree.self h.cr3] at hl'
  obtain ⟨t, hok, ht, -, hon, hoff⟩ := h.unset hA ha (low_bits_of_aligned hd halign) hl'
  refine ⟨t, leaf, hok, hl, fun b hb => ⟨_, walk_eq ht.tree.self ht.cr3 b, ?_⟩,
    fun b hb hb' => ?_⟩
  · have hb' : index b 0 ∈ ownSlots := by rw [hb.index_zero hd]; exact ha
    have := hon _ hb' ((agree_index_iff hd _ _).mpr hb)
    rw [← mapping_eq ht.tree.self ht.cr3, mapping, walk_eq ht.tree.self ht.cr3] at this
    simpa using this
  · rw [mapping_eq ht.tree.self ht.cr3, mapping_eq h.tree.self h.cr3]
    exact hoff _ hb' (mt (agree_index_iff hd _ _).mp hb)

lemma leafCall_mapped {c : TableCall} (hc : LeafCall pml4 s c) (ht : c.exec A pml4 s = .ok t) :
    Mapped used ownSlots pml4 t := by
  cases c with
  | set addr entry parentMask depth =>
    obtain ⟨hdepth, hp, hhuge, hm, halign, ha, -⟩ := hc
    have he : depth = 3 ∨ link entry = none :=
      hdepth.symm.imp id fun h2 => link_eq_none.mpr (.inr (hhuge.mpr h2))
    obtain ⟨r, hr, hrt⟩ := bind_eq_ok.mp ht
    obtain rfl := Except.ok.inj hrt
    rcases h.set hA ha hm (by omega) halign he hp with ⟨-, herr⟩ | ⟨t, hok, ht, -⟩ |
      ⟨w, t, hok, ht, -⟩
    · rw [herr] at hr
      cases hr
    · rw [Except.ok.inj (hr.symm.trans hok)]
      exact ht
    · rw [Except.ok.inj (hr.symm.trans hok)]
      exact ht
  | unset addr =>
    obtain ⟨ha, leaf, hl, halign⟩ := hc
    have hd := depth_le_of_mapping h hl
    rw [mapping_eq h.tree.self h.cr3] at hl
    obtain ⟨t', hok, ht', -⟩ := h.unset hA ha (low_bits_of_aligned hd halign) hl
    rw [Except.ok.inj (ht.symm.trans hok)]
    exact ht'

end

lemma reachable_mapped (hA : FrameContract A used) (h : (leafSystem A used pml4).Reachable s) :
    Mapped used ownSlots pml4 s := by
  refine h.invariant ?_ fun s c t _ hs ⟨hc, ht⟩ => leafCall_mapped hA hs hc ht
  rintro s ⟨hcr3, hroot, hself, hzero⟩
  exact .of_empty (by simp) hcr3 hself hroot fun i hi => hzero i hi

/-- In every state that such a run reaches, `Set` and `Unset` update the map of leaves. -/
theorem leaf_run_refines (hA : FrameContract A used) (h : (leafSystem A used pml4).Reachable s) :
    (∀ addr entry parentMask depth, LeafCall pml4 s (.set addr entry parentMask depth) →
      SetRefines A pml4 s addr entry parentMask depth) ∧
    ∀ addr, LeafCall pml4 s (.unset addr) → UnsetRefines A pml4 s addr :=
  have hs := reachable_mapped hA h
  ⟨fun _ _ _ _ => set_refines hA hs, fun _ => unset_refines hA hs⟩

end

/-- Hands out the frames in order and takes none back. -/
def nextFrame : AllocatorOps ℕ where
  alloc _ _ n := if n < 2 ^ 40 then (some (frameAddr (.ofNat 40 n)), n + 1) else (none, n)
  free _ n := n

def firstFrames (n : ℕ) : Set Frame := {f | f.toNat < n}

lemma nextFrame_contract : FrameContract nextFrame firstFrames := by
  constructor
  · intro x y p h
    by_cases hx : x < 2 ^ 40
    · have htoNat : (BitVec.ofNat 40 x).toNat = x := Nat.mod_eq_of_lt hx
      obtain ⟨hp, rfl⟩ := Prod.mk.inj ((if_pos hx).symm.trans h)
      refine ⟨.ofNat 40 x, (Option.some.inj hp).symm, ?_, ?_⟩
      · exact fun hm => absurd (show (BitVec.ofNat 40 x).toNat < x from hm) (by omega)
      · rintro f (rfl | hf)
        · exact htoNat.trans_lt x.lt_succ_self
        · exact Nat.lt_succ_of_lt hf
    · cases (if_neg hx).symm.trans h
  · exact fun x f => Set.sdiff_subset

/-- Frame 1 is a PML4 with its self entry only. -/
def emptyMap : State ℕ := ⟨fun f i => if f = 1 ∧ i = 0x1ff then 0x1003 else 0, 0x1000, 2, [], []⟩

lemma emptyMap_start : (leafSystem nextFrame firstFrames 0x1000).start emptyMap :=
  ⟨rfl, show 1 < 2 by decide, rfl, fun _ hi => if_neg fun h => hi h.2⟩

/-- Page 0 is mapped to frame 5, and the page of the first table shows up in the recursive
slot. -/
lemma emptyMap_set : ∃ t, set nextFrame 0x1000 0 0x5001 3 3 emptyMap = .ok (some false, t) ∧
    mapping 0x1000 t 0 = some (3, 0x5001) ∧
    mapping 0x1000 t 0xFFFFFFFFFFE00000 = some (3, 0x2003) := by
  have h : ((set nextFrame 0x1000 0 0x5001 3 3 emptyMap).toOption.map fun r => (r.1,
      mapping 0x1000 r.2 0, mapping 0x1000 r.2 0xFFFFFFFFFFE00000)) =
      some (some false, some (3, 0x5001), some (3, 0x2003)) := by decide +kernel
  obtain ⟨⟨w, t⟩, hset, hr⟩ := exists_ok_of_map h
  obtain ⟨rfl, hm⟩ := Prod.mk.inj hr
  obtain ⟨hm, hm'⟩ := Prod.mk.inj hm
  exact ⟨t, hset, hm, hm'⟩

lemma emptyMap_leafCall : LeafCall 0x1000 emptyMap (.set 0 0x5001 3 3) :=
  ⟨.inr rfl, rfl, by decide, .inl rfl, rfl, by decide, by decide⟩

/-- One page mapped from the empty map, and unmapped again. -/
theorem leaf_run_refines_page_zero :
    ∃ t, set nextFrame 0x1000 0 0x5001 3 3 emptyMap = .ok (some false, t) ∧
      SetRefines nextFrame 0x1000 emptyMap 0 0x5001 3 3 ∧
      UnsetRefines nextFrame 0x1000 t 0 := by
  obtain ⟨t, ht, hm, -⟩ := emptyMap_set
  have h0 := System.Reachable.start emptyMap_start
  refine ⟨t, ht, (leaf_run_refines nextFrame_contract h0).1 _ _ _ _ emptyMap_leafCall, ?_⟩
  have hstep : (leafSystem nextFrame firstFrames 0x1000).step emptyMap (.set 0 0x5001 3 3) t :=
    ⟨emptyMap_leafCall, by rw [TableCall.exec, ht]; rfl⟩
  exact (leaf_run_refines nextFrame_contract (h0.next hstep)).2 _ ⟨by decide, _, hm, rfl⟩

/-- Mapping page 0 changes what `Walk` says of a canonical address in the recursive slot. -/
theorem recursive_slot_changes :
    ∃ s t b, (leafSystem nextFrame firstFrames 0x1000).Reachable s ∧
      LeafCall 0x1000 s (.set 0 0x5001 3 3) ∧
      set nextFrame 0x1000 0 0x5001 3 3 s = .ok (some false, t) ∧
      ¬ SamePage 3 0 b ∧ canonical b = true ∧ mapping 0x1000 t b ≠ mapping 0x1000 s b := by
  obtain ⟨t, ht, -, hm⟩ := emptyMap_set
  refine ⟨emptyMap, t, 0xFFFFFFFFFFE00000, .start emptyMap_start, emptyMap_leafCall, ht, by decide,
    by decide, ?_⟩
  have hnone : mapping 0x1000 emptyMap 0xFFFFFFFFFFE00000 = none := by decide +kernel
  rw [hm, hnone]
  exact Option.some_ne_none _

end Anarch.PageTable
