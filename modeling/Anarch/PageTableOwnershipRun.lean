import Anarch.PageTableFree
import Anarch.PageTableMapRun
import Anarch.PageTableOwned
import Anarch.UserMap
import Mathlib.Algebra.Order.Sub.Basic
import Mathlib.Data.Multiset.OrderedMonoid

/-! Runs of `Set` and `Unset` on the page table of a user map: the frames held are the PML4
and the tables, and the destructor frees each of them once. -/
namespace Anarch.PageTable
open RadixTree TransitionRun

/-- The slots of user memory. -/
def userSlots : Set Index := {i | 1 ≤ i.toNat ∧ i.toNat ≤ 0x1fe}

lemma exists_address (a : ℕ → Index) : ∃ v : VirtAddr, Agree 4 (index v) a := by
  refine ⟨.ofNat 64 ((a 0).toNat * 2 ^ 39 + (a 1).toNat * 2 ^ 30 + (a 2).toNat * 2 ^ 21 +
    (a 3).toNat * 2 ^ 12), fun k hk => ?_⟩
  have h0 := (a 0).isLt
  have h1 := (a 1).isLt
  have h2 := (a 2).isLt
  have h3 := (a 3).isLt
  apply BitVec.eq_of_toNat_eq
  rw [index_toNat, BitVec.toNat_ofNat]
  rcases (by omega : k = 0 ∨ k = 1 ∨ k = 2 ∨ k = 3) with rfl | rfl | rfl | rfl
  all_goals
    simp only [Nat.reducePow, Nat.reduceMul, Nat.reduceSub] at *
    omega

section
variable {α : Type} {A : AllocatorOps α} {used : α → Set Frame} {K : Set Frame}
variable {pdpt pml4 : PhysAddr} {s t : State α}

/-- A present leaf for a user page that is not mapped, or mapped by a leaf of this size; an
unmapping of a user page by its first address. -/
def OwnerCall (pml4 : PhysAddr) (s : State α) : TableCall → Prop
  | .set addr entry parentMask depth =>
      (depth = 2 ∨ depth = 3) ∧ isPresent entry = true ∧ (depth = 2 → isHuge entry = true) ∧
        IsParentMask parentMask ∧ index addr 0 ∈ userSlots ∧
        ((∀ b, SamePage depth addr b → mapping pml4 s b = none) ∨
          ∃ old, mapping pml4 s addr = some (depth, old))
  | .unset addr => index addr 0 ∈ userSlots ∧
      ∃ leaf, mapping pml4 s addr = some leaf ∧ addr % pageSizeAt leaf.1 = 0

/-- Runs from a new user map, once it is loaded. The frames `K` are used by others: data,
and the tables of the kernel. -/
def ownerSystem (A : AllocatorOps α) (used : α → Set Frame) (K : Set Frame)
    (pdpt pml4 : PhysAddr) : System (State α) TableCall where
  start s := ∃ table map, UserMap.construct A pdpt table = .ok map ∧ map.pml4 = pml4 ∧
    s = (UserMap.set map).table ∧ table.calls = [] ∧ K ⊆ used table.alloc
  step s c t := OwnerCall pml4 s c ∧ c.exec A pml4 s = .ok t

lemma userSlots_outside : (0x1ff : Index) ∉ userSlots := by
  rintro ⟨-, h⟩
  exact absurd h (by decide)

lemma construct_spec (hA : FrameContract A used) {table : State α} {map : UserMap.State α}
    (h : UserMap.construct A pdpt table = .ok map) :
    ∃ g, g ∉ used table.alloc ∧ map.pml4 = frameAddr g ∧
      map.table.mem = Function.update table.mem g (UserMap.mapData pdpt (frameAddr g)) ∧
      map.table.calls = table.calls ++ [.obtained (frameAddr g)] ∧
      insert g (used table.alloc) ⊆ used map.table.alloc := by
  rw [UserMap.construct] at h
  split at h
  · cases h
  · rename_i p alloc halloc
    obtain ⟨_, _, h⟩ := bind_eq_ok.mp h
    obtain ⟨_, _, h⟩ := bind_eq_ok.mp h
    obtain rfl := Except.ok.inj h
    obtain ⟨g, rfl, hg, hsub⟩ := hA.fresh halloc
    exact ⟨g, hg, rfl, by simp only [frameOf_frameAddr], rfl, hsub⟩

lemma construct_mapped (hA : FrameContract A used) {table : State α} {map : UserMap.State α}
    (h : UserMap.construct A pdpt table = .ok map) :
    Mapped used userSlots map.pml4 (UserMap.set map).table ∧
      (UserMap.set map).table.tables userSlots = ∅ := by
  obtain ⟨g, -, hpml4, hmem, -, hsub⟩ := construct_spec hA h
  have hroot : (UserMap.set map).table.root = g := by
    simp only [UserMap.set, State.root, hpml4, frameOf_frameAddr]
  have hentry : ∀ i, (UserMap.set map).table.mem (UserMap.set map).table.root i =
      UserMap.mapData pdpt (frameAddr g) i := fun i => by
    rw [hroot]
    simp only [UserMap.set, hmem, Function.update_self]
  have hzero : ∀ i ∈ userSlots, (UserMap.set map).table.mem (UserMap.set map).table.root i = 0 := by
    rintro i ⟨hlo, hhi⟩
    rw [hentry, UserMap.mapData, if_neg, if_neg]
    · rintro rfl
      exact absurd hhi (by decide)
    · rintro rfl
      exact absurd hlo (by decide)
  have hself : link ((UserMap.set map).table.mem (UserMap.set map).table.root 0x1ff) =
      some (UserMap.set map).table.root := by
    rw [hentry, hroot]
    exact link_frameAddr g (.inl rfl)
  have hused : g ∈ used (UserMap.set map).table.alloc := hsub (.inl rfl)
  exact ⟨.of_empty userSlots_outside rfl hself (by rwa [hroot]) hzero, tables_of_empty hzero⟩

lemma start_owned (hA : FrameContract A used) (h : (ownerSystem A used K pdpt pml4).start s) :
    Owned used userSlots K pml4 s := by
  obtain ⟨table, map, hmap, rfl, rfl, hcalls, hK⟩ := h
  obtain ⟨g, hg, hpml4, -, hcalls', hsub⟩ := construct_spec hA hmap
  obtain ⟨hmapped, htables⟩ := construct_mapped hA hmap
  have hroot : (UserMap.set map).table.root = g := by
    simp only [UserMap.set, State.root, hpml4, frameOf_frameAddr]
  have hheld : held 0 (UserMap.set map).table.calls = {frameAddr g} := by
    simp only [UserMap.set, hcalls', hcalls, List.nil_append]
    rfl
  have hfrees : FreesHeldBlocks 0 (UserMap.set map).table.calls := by
    simp only [UserMap.set, hcalls', hcalls, List.nil_append]
    trivial
  refine ⟨hmapped, ⟨hfrees, ?_, fun p => ?_⟩, ?_, fun f hf => ⟨hsub (.inr (hK hf)), ?_, ?_⟩⟩
  · rw [hheld]
    exact Multiset.nodup_singleton _
  · rw [hheld, htables, hroot]
    simp
  · intro f hf
    rw [htables] at hf
    cases hf
  · rw [hroot]
    rintro rfl
    exact hg (hK hf)
  · rw [htables]
    exact Set.notMem_empty f

/-- A page none of whose addresses is mapped has no table of its own: it would not be empty. -/
lemma find_le_of_free (h : Owned used userSlots K pml4 s) {addr : VirtAddr} {depth : ℕ}
    (ha : index addr 0 ∈ userSlots) (hd : depth = 2 ∨ depth = 3)
    (hfree : (∀ b, SamePage depth addr b → mapping pml4 s b = none) ∨
      ∃ old, mapping pml4 s addr = some (depth, old)) :
    (s.find (index addr)).1 ≤ depth := by
  obtain ⟨hle, g, hg, -, -⟩ := find_spec s (index addr)
  rcases hfree with hfree | ⟨old, hold⟩
  · rcases hd with rfl | rfl
    · by_contra hlt
      have h3 : (s.find (index addr)).1 = 3 := by omega
      rw [h3] at hg
      obtain ⟨i, hi⟩ := h.full g (mem_tables ha (by omega) hg)
      obtain ⟨v, hv⟩ := exists_address (Function.update (index addr) 3 i)
      obtain ⟨hv3, hdigit⟩ := agree_succ.mp (hv.symm)
      have hagree : Agree 3 (index addr) (index v) := (agree_update _ 3 i).trans hv3
      rw [Function.update_self] at hdigit
      have hend : s.find (index v) = (3, s.mem g i) := by
        rw [hdigit]
        exact find_of_absent le_rfl ((table_congr hagree).symm.trans hg) (.inl rfl)
      have hva : index v 0 ∈ userSlots := by rwa [← hagree 0 (by omega)]
      have hpresent : isPresent (s.mem g i) = true := by
        by_contra habsent
        have hz := h.plain _ hva
        rw [hend] at hz
        exact hi (hz (Bool.eq_false_iff.mpr habsent))
      have hnone := hfree v ((agree_index_iff (by omega) _ _).mp hagree)
      rw [mapping_eq h.tree.self h.cr3, State.leaf, hend, leafOf, if_pos (.inr ⟨rfl, hpresent⟩)]
        at hnone
      cases hnone
    · exact hle
  · rw [mapping_eq h.tree.self h.cr3] at hold
    rw [(leafOf_eq_some.mp hold).1]

lemma ownerCall_owned (hA : FrameContract A used) (h : Owned used userSlots K pml4 s)
    {c : TableCall} (hc : OwnerCall pml4 s c) (ht : c.exec A pml4 s = .ok t) :
    Owned used userSlots K pml4 t := by
  cases c with
  | set addr entry parentMask depth =>
    obtain ⟨hdepth, hp, hhuge, hm, ha, hfree⟩ := hc
    have he : depth = 3 ∨ link entry = none :=
      hdepth.symm.imp id fun h2 => link_eq_none.mpr (.inr (hhuge h2))
    obtain ⟨r, hr, hrt⟩ := bind_eq_ok.mp ht
    obtain rfl := Except.ok.inj hrt
    exact h.set hA ha hm (by omega) he hp (find_le_of_free h ha hdepth hfree) hr
  | unset addr =>
    obtain ⟨ha, leaf, hl, halign⟩ := hc
    rw [mapping_eq h.tree.self h.cr3] at hl
    have hd : leaf.1 ≤ 3 := (leafOf_eq_some.mp hl).1 ▸ (find_spec s (index addr)).1
    obtain ⟨t', hok, ht'⟩ := h.unset hA ha (low_bits_of_aligned hd halign) hl
    rw [Except.ok.inj (ht.symm.trans hok)]
    exact ht'

lemma reachable_owned (hA : FrameContract A used)
    (h : (ownerSystem A used K pdpt pml4).Reachable s) :
    Owned used userSlots K pml4 s ∧ pml4 = frameAddr s.root := by
  refine h.invariant (P := fun s => Owned used userSlots K pml4 s ∧ pml4 = frameAddr s.root) ?_ ?_
  · intro s hs
    have howned := start_owned hA hs
    refine ⟨howned, ?_⟩
    obtain ⟨table, map, hmap, rfl, -⟩ := hs
    obtain ⟨g, -, hg, -⟩ := construct_spec hA hmap
    rw [State.root, howned.cr3, hg, frameOf_frameAddr]
  · rintro s c t - ⟨hs, hp⟩ ⟨hc, ht⟩
    have howned := ownerCall_owned hA hs hc ht
    rw [State.root, hs.cr3] at hp
    exact ⟨howned, by rw [State.root, howned.cr3, ← hp]⟩

end

/-- A user map in frame 2, next to a kernel PDPT in frame 1. -/
def firstMap : UserMap.State ℕ where
  table :=
    { mem := Function.update (fun _ _ => 0) 2 (UserMap.mapData 0x1000 0x2000)
      cr3 := 0x1000
      alloc := 3
      calls := [.obtained 0x2000]
      invalidated := [] }
  pml4 := 0x2000
  freeList := [⟨0x8000000000, 0x7f8000000000⟩, ⟨0xFFFF800000000000, 0x7f800000000⟩]

lemma firstMap_construct :
    UserMap.construct nextFrame 0x1000 ⟨fun _ _ => 0, 0x1000, 2, [], []⟩ = .ok firstMap := by rfl

end Anarch.PageTable
