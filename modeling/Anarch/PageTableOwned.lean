import Anarch.PageTableMap
import Anarch.PageTableOwnership

/-! A page table whose frames are all accounted for stays so over `Set` and `Unset`. -/
namespace Anarch.PageTable
open RadixTree

section
variable {α : Type} {A : AllocatorOps α} {used : α → Set Frame} {I : Set Index} {K : Set Frame}
variable {pml4 : PhysAddr} {s t : State α}

/-- A page table whose frames are accounted for, next to frames `K` that others use. -/
structure Owned (used : α → Set Frame) (I : Set Index) (K : Set Frame) (pml4 : PhysAddr)
    (s : State α) : Prop extends Mapped used I pml4 s where
  ledger : Ledger I s
  full : Full I s
  others : ∀ f ∈ K, f ∈ used s.alloc ∧ f ≠ s.root ∧ f ∉ s.tables I

lemma Confined.others (h : Confined used I s t)
    (hs : ∀ f ∈ K, f ∈ used s.alloc ∧ f ≠ s.root ∧ f ∉ s.tables I) :
    ∀ f ∈ K, f ∈ used t.alloc ∧ f ≠ t.root ∧ f ∉ t.tables I := by
  intro f hf
  obtain ⟨hu, hr, ht⟩ := hs f hf
  obtain ⟨-, hu', ht'⟩ := h.frames f hu hr ht
  have hroot : t.root = s.root := by rw [State.root, h.cr3]
  exact ⟨hu', by rwa [hroot], ht'⟩

section
variable (hA : FrameContract A used) (h : Owned used I K pml4 s)
variable {addr : VirtAddr} {entry mask : Word} {depth : ℕ} (ha : index addr 0 ∈ I)
include hA h ha

lemma Owned.set (hm : IsParentMask mask) (hd : depth ≤ 3) (he : depth = 3 ∨ link entry = none)
    (hp : isPresent entry = true) (hslot : (s.find (index addr)).1 ≤ depth) {w : Option Bool}
    (hok : set A pml4 addr entry mask depth s = .ok (w, t)) : Owned used I K pml4 t := by
  have halign := (aligned_of_set hok).2
  have hmapped : Mapped used I pml4 t ∧ Confined used I s t := by
    rcases h.toMapped.set hA ha hm hd halign he hp with ⟨-, herr⟩ | ⟨t', hok', ht', hc, -⟩ |
      ⟨w', t', hok', ht', hc, -⟩
    · rw [herr] at hok
      cases hok
    all_goals
      obtain ⟨-, rfl⟩ := Prod.mk.inj (Except.ok.inj (hok'.symm.trans hok))
      exact ⟨ht', hc⟩
  have hfull : ∀ k, FullExcept I (index addr) k s := fun k f hf _ => h.full f hf
  have hbooks : Ledger I t ∧ Full I t := by
    rcases set_cases entry hA h.tree ha h.cr3 hm hd halign with ⟨-, herr⟩ |
      ⟨u, g, hpath, hg, hok'⟩ | ⟨t', k, g, hok', hpath, hk, hg, hpr, hh⟩
    · rw [herr] at hok
      cases hok
    · obtain ⟨-, rfl⟩ := Prod.mk.inj (Except.ok.inj (hok'.symm.trans hok))
      obtain ⟨hl, hf⟩ := hpath.owned h.tree ha hm h.ledger (hfull 0)
      have hu := (hpath.tree hm ha h.tree).1
      have hdepth : (u.find (index addr)).1 = depth := by
        rcases hpath.find_end h.tree ha hm hd hg with hsame | hend
        · exact le_antisymm (hsame ▸ hslot) (le_find hd hg)
        · rw [hend]
      have hold : depth = 3 ∨ link (u.mem g (index addr depth)) = none := by
        obtain ⟨-, x, hx, hxe, hend⟩ := find_spec u (index addr)
        rw [hdepth] at hx hxe hend
        obtain rfl := Option.some.inj (hg.symm.trans hx)
        rwa [hxe] at hend
      have htables : (u.put g (index addr depth) entry).tables I = u.tables I := by
        refine tables_write hu.separate ha hd hg ?_
        rcases he with h3 | he
        · exact .inl h3
        · exact hold.imp id fun h => ⟨he, h⟩
      refine ⟨hl.congr rfl rfl htables, fun x hx => ?_⟩
      by_cases hxg : x = g
      · refine ⟨index addr depth, ?_⟩
        rw [hxg, put_mem, write_self]
        exact ne_zero_of_present hp
      · obtain ⟨i, hi⟩ := hf x (htables ▸ hx) fun h => hxg (Option.some.inj (h.symm.trans hg))
        exact ⟨i, by rwa [put_mem, write_of_ne _ _ _ hxg]⟩
    · obtain ⟨-, rfl⟩ := Prod.mk.inj (Except.ok.inj (hok'.symm.trans hok))
      obtain ⟨hl, hf⟩ := hpath.owned h.tree ha hm h.ledger (hfull 0)
      refine ⟨hl, fun x hx => ?_⟩
      by_cases hxg : t'.tableAt (index addr) k = some x
      · obtain rfl := Option.some.inj (hg.symm.trans hxg)
        exact ⟨_, ne_zero_of_present hpr⟩
      · exact hf x hx hxg
  exact ⟨hmapped.1, hbooks.1, hbooks.2, hmapped.2.others h.others⟩

lemma Owned.unset (halign : addr &&& 0xfff = 0) {leaf : ℕ × Word}
    (hleaf : s.leaf (index addr) = some leaf) :
    ∃ t, unset A pml4 addr s = .ok t ∧ Owned used I K pml4 t := by
  obtain ⟨t, hok, ht, hc, -⟩ := h.toMapped.unset hA ha halign hleaf
  obtain ⟨hfind, hend⟩ := leafOf_eq_some.mp hleaf
  have hle : leaf.1 ≤ 3 := hfind ▸ (find_spec s (index addr)).1
  obtain ⟨f, k, t', g, hf, hok', hpath, hg, hstop⟩ :=
    unset_cases hA h.tree ha h.cr3 halign (congrArg Prod.fst hfind) (by
      rw [hfind]
      exact hend.symm.imp And.left id)
  obtain rfl := Except.ok.inj (hok.symm.trans hok')
  have hput := h.tree.put_leaf ha hle hf (e := 0) (.inr link_zero)
  have hold : leaf.1 = 3 ∨ link (s.mem f (index addr leaf.1)) = none := by
    obtain ⟨-, x, hx, hxe, hend⟩ := find_spec s (index addr)
    rw [hfind] at hx hxe hend
    obtain rfl := Option.some.inj (hf.symm.trans hx)
    rwa [hxe] at hend
  have htables : (s.put f (index addr leaf.1) 0).tables I = s.tables I :=
    tables_write h.tree.separate ha hle hf (hold.imp id fun h => ⟨link_zero, h⟩)
  have hhole : FullExcept I (index addr) leaf.1 (s.put f (index addr leaf.1) 0) := by
    intro x hx hne
    have hxf : x ≠ f := by
      rintro rfl
      exact hne (h.tree.put_table ha hle hf)
    obtain ⟨i, hi⟩ := h.full x (htables ▸ hx)
    exact ⟨i, by rwa [put_mem, write_of_ne _ _ _ hxf]⟩
  obtain ⟨hl, hfull⟩ := hpath.owned hput ha hA (h.ledger.congr rfl rfl htables) hhole
  have htree := (hpath.tree hA ha hput).1
  refine ⟨t, hok, ht, hl, fun x hx => ?_, hc.others h.others⟩
  by_cases hxg : t.tableAt (index addr) k = some x
  · obtain rfl := Option.some.inj (hg.symm.trans hxg)
    refine hstop.resolve_left ?_
    rintro rfl
    obtain rfl := Option.some.inj hxg
    exact htree.separate.root_notMem hx
  · exact hfull x hx hxg

end

end

end Anarch.PageTable
