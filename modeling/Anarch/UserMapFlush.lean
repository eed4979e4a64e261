import Anarch.AddressSpaces
import Anarch.PageTableFractal

/-! `MapAt` of a user map: when `SetList` says that it overwrote an entry, and what is then
invalidated. -/
namespace Anarch.PageTable
open RadixTree

section
variable {α : Type} {A : AllocatorOps α} {used : α → Set Frame} {I : Set Index}
variable {pml4 : PhysAddr} {s t : State α} {a b : ℕ → Index} {mask : Word} {d n : ℕ} {f : Frame}

/-- The entry of a key at a depth; 0 where the key has no table. -/
def State.target (s : State α) (a : ℕ → Index) (d : ℕ) : Word :=
  (s.tableAt a d).elim 0 fun f => s.mem f (a d)

lemma target_of_table (hf : s.tableAt a d = some f) : s.target a d = s.mem f (a d) := by
  rw [State.target, hf]
  rfl

lemma target_of_none (hf : s.tableAt a d = none) : s.target a d = 0 := by
  rw [State.target, hf]
  rfl

lemma target_congr (htable : t.tableAt b n = s.tableAt b n)
    (hmem : ∀ f, s.tableAt b n = some f → t.mem f (b n) = s.mem f (b n)) :
    t.target b n = s.target b n := by
  cases hf : s.tableAt b n with
  | none => rw [target_of_none hf, target_of_none (htable.trans hf)]
  | some f => rw [target_of_table hf, target_of_table (htable.trans hf), hmem f hf]

lemma target_agree (s : State α) (h : Agree (d + 1) a b) : s.target b d = s.target a d := by
  obtain ⟨hagree, hdigit⟩ := agree_succ.mp h
  have htable : s.tableAt a d = s.tableAt b d := table_congr hagree
  rw [State.target, State.target, htable, hdigit]

lemma Descent.target (h : Descent used a mask d s n t) (ht : Tree used I s)
    (hm : IsParentMask mask) (ha : a 0 ∈ I) (hb : b 0 ∈ I) (hn : n ≤ 3) :
    t.target b n = s.target b n := by
  induction h with
  | done => rfl
  | @linked d n s t f g hd hf hg rest ih =>
    have hlink := (link_or hm hg).trans hg.symm
    have hlt : d < n := rest.le
    refine (ih (ht.put_link ha hd hf hlink (tableAddr_or hm)) hn).trans ?_
    refine target_congr (table_relabel hlink) fun x hx => ?_
    rw [put_mem, write_apply, if_neg]
    rintro ⟨rfl, -⟩
    have := (ht.separate ha hb hd.le hn hf hx).1
    omega
  | @grown d n s t f g alloc hd hf habsent hg hsub rest ih =>
    have hnone := link_none_of_absent habsent
    have hlink := link_frameAddr g hm
    have hunused := ht.unused hg
    have hlt : d < n := rest.le
    have hgrow := ht.grow ha hd hf hlink hg hsub hnone
      ((tableAddr_or hm).trans (tableAddr_frameAddr g))
    refine (ih hgrow hn).trans ?_
    have htable := table_grow ht.separate ha hb hd hf hlink link_zero hunused hn
    by_cases hon : Agree (d + 1) a b
    · -- the key goes through the new table, below which there was nothing
      have hold : s.tableAt b n = none := table_none_below hf hnone hon hlt
      rw [if_pos ⟨hlt, hon⟩] at htable
      rw [target_of_none hold]
      split_ifs at htable
      · exact (target_of_table htable).trans (fill_self _ _ _ _)
      · exact target_of_none htable
    · rw [if_neg fun h => hon h.2] at htable
      refine target_congr htable fun x hx => ?_
      have hxg : x ≠ g := by
        rintro rfl
        exact hunused b n hb hn hx
      rw [grow_mem, fill_of_ne _ _ hxg, write_apply, if_neg]
      rintro ⟨rfl, -⟩
      have := (ht.separate ha hb hd.le hn hf hx).1
      omega

section
variable {addr : VirtAddr} {entry : Word} {depth : ℕ}

lemma Tree.target_put (ht : Tree used I s) (ha : a 0 ∈ I) (hb : b 0 ∈ I) (hd : d ≤ 3)
    (hf : s.tableAt a d = some f) (hoff : ¬ Agree (d + 1) a b) :
    (s.put f (a d) entry).target b d = s.target b d := by
  refine target_congr (table_write_off ht.separate ha hb hd hf hd (.inl le_rfl)) fun x hx => ?_
  rw [put_mem, write_apply, if_neg]
  rintro ⟨rfl, hdigit⟩
  exact hoff (agree_succ.mpr ⟨(ht.separate ha hb hd hd hf hx).2, hdigit.symm⟩)

/-- `Set` says whether its target was zero, and leaves the other targets of the depth alone. -/
lemma Tree.set_target (hA : FrameContract A used) (ht : Tree used I s) (hcr3 : s.cr3 = pml4)
    (hm : IsParentMask mask) (ha : index addr 0 ∈ I) {w : Bool}
    (hok : PageTable.set A pml4 addr entry mask depth s = .ok (some w, t)) :
    w = decide (s.target (index addr) depth ≠ 0) ∧ ∀ b, b 0 ∈ I →
      ¬ Agree (depth + 1) (index addr) b → t.target b depth = s.target b depth := by
  obtain ⟨hd, halign⟩ := aligned_of_set hok
  have hle : depth ≤ 3 := by omega
  rcases set_cases entry hA ht ha hcr3 hm hle halign with ⟨-, herr⟩ | ⟨u, g, hpath, hg, hok'⟩ |
    ⟨t', k, g, hok', -⟩
  · rw [herr] at hok
    cases hok
  · obtain ⟨hw, rfl⟩ := Prod.mk.inj (Except.ok.inj (hok.symm.trans hok'))
    have hu := (hpath.tree hm ha ht).1
    refine ⟨?_, fun b hb hoff => ?_⟩
    · rw [Option.some.inj hw, ← hpath.target ht hm ha ha hle, target_of_table hg]
    · rw [hu.target_put ha hb hle hg hoff, hpath.target ht hm ha hb hle]
  · cases (Prod.mk.inj (Except.ok.inj (hok.symm.trans hok'))).1

lemma Descent.invalidated (h : Descent used a mask d s n t) : t.invalidated = s.invalidated := by
  induction h with
  | done => rfl
  | linked _ _ _ _ ih => exact ih
  | grown _ _ _ _ _ _ ih => exact ih

lemma Tree.set_invalidated (hA : FrameContract A used) (ht : Tree used I s) (hcr3 : s.cr3 = pml4)
    (hm : IsParentMask mask) (ha : index addr 0 ∈ I) {w : Option Bool}
    (hok : PageTable.set A pml4 addr entry mask depth s = .ok (w, t)) :
    t.invalidated = s.invalidated := by
  obtain ⟨hd, halign⟩ := aligned_of_set hok
  rcases set_cases entry hA ht ha hcr3 hm (by omega) halign with ⟨-, herr⟩ |
    ⟨u, g, hpath, -, hok'⟩ | ⟨u, k, g, hok', hpath, -⟩
  · rw [herr] at hok
    cases hok
  · obtain ⟨-, rfl⟩ := Prod.mk.inj (Except.ok.inj (hok.symm.trans hok'))
    exact hpath.invalidated
  · obtain ⟨-, rfl⟩ := Prod.mk.inj (Except.ok.inj (hok.symm.trans hok'))
    exact hpath.invalidated

/-- The pages of a range have targets of their own. -/
def Apart (start : VirtAddr) (pageSize : Word) (depth n : ℕ) : Prop :=
  ∀ j k, j < k → k < n → ¬ Agree (depth + 1) (index (pageAt start pageSize j))
    (index (pageAt start pageSize k))

lemma Apart.head {start : VirtAddr} {pageSize : Word}
    (h : Apart start pageSize depth (n + 1)) {k : ℕ} (hk : k < n) :
    ¬ Agree (depth + 1) (index start) (index (pageAt (start + pageSize) pageSize k)) := by
  have := h 0 (k + 1) k.succ_pos (Nat.succ_lt_succ hk)
  rwa [pageAt_zero, ← pageAt_succ] at this

lemma Apart.tail {start : VirtAddr} {pageSize : Word}
    (h : Apart start pageSize depth (n + 1)) : Apart (start + pageSize) pageSize depth n := by
  intro j k hjk hk
  rw [pageAt_succ, pageAt_succ]
  exact h (j + 1) (k + 1) (Nat.succ_lt_succ hjk) (Nat.succ_lt_succ hk)

lemma Tree.setPages_invalidated (hA : FrameContract A used) (ht : Tree used I s)
    (hcr3 : s.cr3 = pml4) (hm : IsParentMask mask) {start : VirtAddr} {pageSize : Word}
    {overwrote w : Bool} (hsize : pageSize.toNat % 4096 = 0)
    (hlink : depth = 3 ∨ isHuge entry = true) (hpages : PagesIn I start pageSize n)
    (hok : setPages A pml4 mask depth pageSize n start entry overwrote s = .ok (w, t)) :
    t.invalidated = s.invalidated := by
  have hkeep := setPages_rule (P := fun u => Tree used I u ∧ Confined used I s u ∧
    u.invalidated = s.invalidated) ⟨ht, .refl s, rfl⟩ (fun k hk u w v hu hv => ?_) hok
  · exact hkeep.2.2
  · obtain ⟨htu, hc, hu⟩ := hu
    have hcr3' : u.cr3 = pml4 := hc.cr3.trans hcr3
    have he : depth = 3 ∨ link (pageAt entry pageSize k) = none :=
      hlink.imp id fun h => link_eq_none.mpr (.inr ((isHuge_pageAt entry hsize k).trans h))
    obtain ⟨htv, hcv⟩ := htu.set hA (hpages k hk) hcr3' hm he hv
    exact ⟨htv, hc.trans hcv, (htu.set_invalidated hA hcr3' hm (hpages k hk) hv).trans hu⟩

lemma Tree.setPages_flag (hA : FrameContract A used) (ht : Tree used I s) (hcr3 : s.cr3 = pml4)
    (hm : IsParentMask mask) {start : VirtAddr} {pageSize : Word} {overwrote w : Bool}
    (hsize : pageSize.toNat % 4096 = 0) (hlink : depth = 3 ∨ isHuge entry = true)
    (hpages : PagesIn I start pageSize n) (hapart : Apart start pageSize depth n)
    (hok : setPages A pml4 mask depth pageSize n start entry overwrote s = .ok (w, t)) :
    (w = true ↔ overwrote = true ∨
      ∃ k < n, s.target (index (pageAt start pageSize k)) depth ≠ 0) ∧
    ∀ k < n, (s.find (index (pageAt start pageSize k))).1 < depth →
      isPresent (s.find (index (pageAt start pageSize k))).2 = false := by
  induction n generalizing s start entry overwrote with
  | zero =>
    obtain ⟨rfl, -⟩ := Prod.mk.inj (Except.ok.inj hok)
    exact ⟨by simp, by simp⟩
  | succ n ih =>
    obtain ⟨⟨found, u⟩, hu, hok⟩ := bind_eq_ok.mp hok
    cases found with
    | none => cases hok
    | some found =>
      have hfirst := hpages.head
      have he : depth = 3 ∨ link entry = none :=
        hlink.imp id fun h => link_eq_none.mpr (.inr h)
      obtain ⟨hd, halign⟩ := aligned_of_set hu
      obtain ⟨htu, hc⟩ := ht.set hA hfirst hcr3 hm he hu
      obtain ⟨hfound, hkeep⟩ := ht.set_target hA hcr3 hm hfirst hu
      have hview : ((s.find (index start)).1 < depth → isPresent (s.find (index start)).2 = false) ∧
          ∀ b, b 0 ∈ I → ¬ Agree (depth + 1) (index start) b → u.find b = s.find b ∨
            Agree ((s.find (index start)).1 + 1) (index start) b ∧
              (s.find (index start)).1 < depth ∧
              isPresent (s.find (index start)).2 = false ∧ (u.find b).2 = 0 := by
        rcases set_view hA ht hfirst hcr3 hm (by omega) halign he with ⟨-, herr⟩ | ⟨_, hok', -⟩ |
          ⟨_, _, hok', -, -, habsent, -, hoff⟩
        · rw [herr] at hu
          cases hu
        · cases (Prod.mk.inj (Except.ok.inj (hu.symm.trans hok'))).1
        · obtain ⟨-, rfl⟩ := Prod.mk.inj (Except.ok.inj (hu.symm.trans hok'))
          exact ⟨habsent, hoff⟩
      obtain ⟨hflag, hrest⟩ := ih htu (hc.cr3.trans hcr3)
        (hlink.imp id ((isHuge_add_page entry hsize).trans ·)) hpages.tail hapart.tail hok
      have hsame : ∀ k < n, u.target (index (pageAt (start + pageSize) pageSize k)) depth =
          s.target (index (pageAt start pageSize (k + 1))) depth := fun k hk => by
        rw [← pageAt_succ]
        exact hkeep _ (hpages.tail k hk) (hapart.head hk)
      constructor
      · rw [hflag]
        have hsplit : (∃ k < n + 1, s.target (index (pageAt start pageSize k)) depth ≠ 0) ↔
            s.target (index start) depth ≠ 0 ∨
              ∃ k < n, s.target (index (pageAt start pageSize (k + 1))) depth ≠ 0 := by
          rw [Nat.exists_lt_succ_left, pageAt_zero]
        rw [hsplit, ← or_assoc]
        refine or_congr ?_ (exists_congr fun k => and_congr_right fun hk => ?_)
        · rw [hfound]
          cases overwrote <;> simp
        · rw [hsame k hk]
      · intro k hk hlt
        cases k with
        | zero =>
          rw [pageAt_zero] at hlt ⊢
          exact hview.1 hlt
        | succ k =>
          have hk' := Nat.lt_of_succ_lt_succ hk
          rw [← pageAt_succ] at hlt ⊢
          rcases hview.2 _ (hpages.tail k hk') (hapart.head hk') with hfind | ⟨hagree, -, habsent, -⟩
          · rw [← hfind] at hlt ⊢
            exact hrest k hk' hlt
          · rw [find_congr s hagree]
            exact habsent

end

end

section
variable {I : Set Index} {start x : VirtAddr} {pageSize : Word} {depth n : ℕ}

lemma pageAt_mod (start : VirtAddr) (pageSize : Word) (k : ℕ) :
    (pageAt start pageSize k).toNat % 2 ^ 48 = (start.toNat + k * pageSize.toNat) % 2 ^ 48 := by
  rw [pageAt, BitVec.toNat_add, BitVec.toNat_mul, BitVec.toNat_ofNat,
    Nat.mod_mod_of_dvd _ (by decide : 2 ^ 48 ∣ 2 ^ 64)]
  have h : k % 2 ^ 64 * pageSize.toNat % 2 ^ 64 = k * pageSize.toNat % 2 ^ 64 := by
    rw [Nat.mod_mul_mod]
  rw [h]
  omega

lemma pageSize_dvd_slot (hd : depth ≤ 3) (hsize : pageSize = pageSizeAt depth) :
    pageSize.toNat ∣ 2 ^ 39 := by
  rw [hsize, pageSizeAt_toNat hd]
  exact Nat.pow_dvd_pow 2 (Nat.sub_le _ _)

lemma PagesIn.span_lt (hI : 0x1ff ∉ I) (h : PagesIn I start pageSize n)
    (hd : depth ≤ 3) (hsize : pageSize = pageSizeAt depth) (halign : start % pageSize = 0) :
    n * pageSize.toNat < 2 ^ 48 := by
  by_contra hlong
  have hpos : 0 < pageSize.toNat := hsize ▸ pageSizeAt_pos hd
  have hdvd := Nat.dvd_of_mod_eq_zero (toNat_mod_of_aligned halign)
  have hslot := pageSize_dvd_slot hd hsize
  -- the distance to the recursive slot, in pages
  obtain ⟨m, hm⟩ : pageSize.toNat ∣ (2 ^ 49 - 2 ^ 39 - start.toNat % 2 ^ 48) % 2 ^ 48 := by
    have h48 : pageSize.toNat ∣ 2 ^ 48 := hslot.trans (by decide)
    have h49 : pageSize.toNat ∣ 2 ^ 49 := hslot.trans (by decide)
    exact (Nat.dvd_mod_iff h48).mpr (Nat.dvd_sub (Nat.dvd_sub h49 hslot)
      ((Nat.dvd_mod_iff h48).mpr hdvd))
  have hlt : m < n := by
    have hmul : pageSize.toNat * m < pageSize.toNat * n := by
      rw [Nat.mul_comm _ n]
      omega
    exact Nat.lt_of_mul_lt_mul_left hmul
  have hmod := pageAt_mod start pageSize m
  rw [Nat.mul_comm m] at hmod
  have hindex : index (pageAt start pageSize m) 0 = 0x1ff := by
    apply BitVec.eq_of_toNat_eq
    rw [index_toNat]
    show _ = 0x1ff
    omega
  exact hI (hindex ▸ h m hlt)

section
variable (hd : depth ≤ 3) (hsize : pageSize = pageSizeAt depth) (halign : start % pageSize = 0)
include hd hsize halign

lemma PagesIn.apart (hI : 0x1ff ∉ I) (h : PagesIn I start pageSize n) :
    Apart start pageSize depth n := by
  intro j k hjk hk hagree
  have hspan := h.span_lt hI hd hsize halign
  have hpos : 0 < pageSize.toNat := hsize ▸ pageSizeAt_pos hd
  have hle : (j + 1) * pageSize.toNat ≤ k * pageSize.toNat := Nat.mul_le_mul_right _ hjk
  have hlt : k * pageSize.toNat ≤ n * pageSize.toNat := Nat.mul_le_mul_right _ hk.le
  have hdvd := Nat.dvd_of_mod_eq_zero (toNat_mod_of_aligned halign)
  have hsame := (agree_index_iff hd _ _).mp hagree
  rw [SamePage, ← hsize, pageAt_mod, pageAt_mod] at hsame
  have h48 : pageSize.toNat ∣ 2 ^ 48 := (pageSize_dvd_slot hd hsize).trans (by decide)
  -- both pages start at the same multiple of the page size
  have hmul : ∀ i, (start.toNat + i * pageSize.toNat) % 2 ^ 48 =
      pageSize.toNat * ((start.toNat + i * pageSize.toNat) % 2 ^ 48 / pageSize.toNat) := fun i =>
    (Nat.mul_div_cancel' ((Nat.dvd_mod_iff h48).mpr (Nat.dvd_add hdvd (Nat.dvd_mul_left _ _)))).symm
  have hstart : (start.toNat + j * pageSize.toNat) % 2 ^ 48 =
      (start.toNat + k * pageSize.toNat) % 2 ^ 48 := by
    rw [hmul j, hmul k, hsame]
  rw [Nat.succ_mul] at hle
  omega

lemma exists_page_of_mem (hx : x ∈ addresses start (n * pageSize.toNat)) :
    ∃ k < n, Agree (depth + 1) (index x) (index (pageAt start pageSize k)) := by
  have hpos : 0 < pageSize.toNat := hsize ▸ pageSizeAt_pos hd
  obtain ⟨hlow, hhigh⟩ := mem_addresses.mp hx
  have hdvd := Nat.dvd_of_mod_eq_zero (toNat_mod_of_aligned halign)
  have h48 : pageSize.toNat ∣ 2 ^ 48 := (pageSize_dvd_slot hd hsize).trans (by decide)
  refine ⟨(x.toNat - start.toNat) / pageSize.toNat,
    (Nat.div_lt_iff_lt_mul hpos).mpr (by omega), (agree_index_iff hd _ _).mpr ?_⟩
  rw [SamePage, ← hsize, pageAt_mod]
  have hfloor : start.toNat + (x.toNat - start.toNat) / pageSize.toNat * pageSize.toNat =
      x.toNat / pageSize.toNat * pageSize.toNat := by
    obtain ⟨m, hm⟩ := hdvd
    rw [hm] at hlow ⊢
    rw [Nat.sub_mul_div, Nat.sub_mul, Nat.mul_comm m]
    refine Nat.add_sub_of_le ?_
    rw [Nat.mul_comm]
    exact Nat.mul_le_mul_right _ ((Nat.le_div_iff_mul_le hpos).mpr (by rwa [Nat.mul_comm]))
  rw [hfloor]
  obtain ⟨m, hm⟩ := h48
  rw [hm, Nat.mod_mul_right_div_self, Nat.mul_comm (x.toNat / _), Nat.mul_mod_mul_left,
    Nat.mul_div_cancel_left _ hpos]

end

end

lemma present_of_translate {α : Type} {s : State α} {x : VirtAddr}
    (h : (translate s.mem s.cr3 x).isSome = true) : isPresent (s.find (index x)).2 = true := by
  have hcanonical : canonical x = true := by
    by_contra hc
    have hfalse : canonical x = false := Bool.eq_false_iff.mpr hc
    simp [translate, hfalse] at h
  rw [translate_eq_find hcanonical] at h
  split_ifs at h with hfound
  · exact hfound.2
  · cases h

/-- A mapped address has a present entry on its way, so it has a target at every depth that is no
deeper than its page. -/
lemma target_ne_zero {α : Type} {s : State α} {x : VirtAddr} {depth : ℕ} (hd : depth ≤ 3)
    (hpresent : isPresent (s.find (index x)).2 = true) (hle : depth ≤ (s.find (index x)).1) :
    s.target (index x) depth ≠ 0 := by
  obtain ⟨-, g, hg, he, -⟩ := find_spec s (index x)
  obtain ⟨f, hf⟩ := table_of_le hg hle
  rw [target_of_table hf]
  intro hzero
  have hend : s.find (index x) = (depth, 0) := by
    rw [find_of_absent hd hf (.inr (by rw [hzero]; rfl)), hzero]
  rw [hend] at hpresent
  simp [isPresent] at hpresent

end Anarch.PageTable

namespace Anarch.UserMap
open PageTable RadixTree

section
variable {α : Type} {A : AllocatorOps α} {used : α → Set Frame} {I : Set Index} {s t : State α}
variable {addr : VirtAddr} {phys : PhysAddr} {size : MemoryMap.Size}
variable {attributes : MemoryMap.Attributes}

/-- What `SetList` tells `MapAt`, and what `MapAt` makes of it. -/
structure Flushes (A : AllocatorOps α) (addr : VirtAddr) (phys : PhysAddr) (size : MemoryMap.Size)
    (attributes : MemoryMap.Attributes) (s t : State α) : Prop where
  flag : ∃ depth overwrote table, calcDepth size.pageSize = .ok depth ∧
    setList A s.pml4 addr (phys ||| calcMask size.pageSize false attributes) size 7 s.table =
      .ok (overwrote, table) ∧
    (overwrote = true ↔ ∃ k < size.pageCount.toNat,
      s.table.target (index (pageAt addr size.pageSize k)) depth ≠ 0)
  whole : size.bytes.toNat = size.span
  flush : (∃ x ∈ addresses addr size.span,
      (PageTable.translate s.table.mem s.pml4 x).isSome = true) →
    t.table.invalidated = s.table.invalidated ++ [(addr, size.bytes)]

/-- `MapAt` on pages outside the recursive slot, such as those of a range in the user half,
flushes the range if any address of it was mapped. -/
theorem mapAt_flushes (hA : FrameContract A used) (ht : Tree used I s.table)
    (hpages : PagesIn I addr size.pageSize size.pageCount.toNat)
    (hcount : 0 < size.pageCount.toNat) (hok : mapAt A addr phys size attributes s = .ok t) :
    Flushes A addr phys size attributes s t := by
  obtain ⟨overwrote, table, hlist, rfl⟩ := mapAt_eq_ok hok
  obtain ⟨hcr3, depth, hdepth, hloop⟩ := setList_eq_ok hlist
  obtain ⟨hmod, hcases⟩ := calcDepth_eq_ok hdepth
  have hlink : depth = 3 ∨ isHuge (phys ||| calcMask size.pageSize false attributes) = true :=
    hcases.imp And.left fun h => isHuge_calcMask h.2
  obtain ⟨hd, hsize⟩ := calcDepth_eq_pageSizeAt hdepth
  have halign : addr % size.pageSize = 0 := by
    obtain ⟨n, hn⟩ := Nat.exists_eq_succ_of_ne_zero hcount.ne'
    rw [hn] at hloop
    obtain ⟨_, hfirst, -⟩ := bind_eq_ok.mp hloop
    rw [hsize]
    exact (aligned_of_set hfirst).2
  have hspan := hpages.span_lt ht.outside hd hsize halign
  rw [Nat.mul_comm] at hspan
  have hbytes : size.bytes.toNat = size.span :=
    MemoryMap.Size.bytes_toNat (hspan.trans (by decide))
  obtain ⟨hflag, habsent⟩ := ht.setPages_flag hA hcr3 (.inr rfl) hmod hlink hpages
    (hpages.apart hd hsize halign ht.outside) hloop
  have hkeep := ht.setPages_invalidated hA hcr3 (.inr rfl) hmod hlink hpages hloop
  refine ⟨⟨depth, overwrote, table, hdepth, hlist, by simpa using hflag⟩, hbytes, ?_⟩
  rintro ⟨x, hx, hmapped⟩
  rw [MemoryMap.Size.span, Nat.mul_comm] at hx
  obtain ⟨k, hk, hagree⟩ := exists_page_of_mem hd hsize halign hx
  have hpresent : isPresent (s.table.find (index x)).2 = true :=
    present_of_translate (hcr3 ▸ hmapped)
  have hle : depth ≤ (s.table.find (index x)).1 := by
    -- a larger page would have made `Set` fail
    by_contra hlt
    rw [not_le] at hlt
    have hsame : s.table.find (index (pageAt addr size.pageSize k)) = s.table.find (index x) :=
      find_congr s.table (hagree.mono (Nat.succ_le_succ hlt.le))
    have := habsent k hk (by rwa [hsame])
    rw [hsame, hpresent] at this
    cases this
  have hover : overwrote = true := by
    refine hflag.mpr (.inr ⟨k, hk, ?_⟩)
    rw [target_agree s.table hagree]
    exact target_ne_zero hd hpresent hle
  rw [hover, ← hkeep]
  rfl

end

/-- A user map with one page, which a call of `MapAt` maps again with the page after it. -/
def pageMapped : Outcome (State ℕ × State ℕ) := do
  let first ← setList nextFrame 0x1000 0x8000000000 0x5007 ⟨0x1000, 1⟩ 7 emptyMap
  let t ← mapAt nextFrame 0x8000000000 0x7000 ⟨0x1000, 2⟩ {} ⟨first.2, 0x1000, []⟩
  return (⟨first.2, 0x1000, []⟩, t)

lemma pageMapped_ok : ∃ r, pageMapped = .ok r ∧
    (PageTable.translate r.1.table.mem r.1.pml4 0x8000000000).isSome = true :=
  exists_ok_of_map (by decide +kernel)

/-- The range of the page and the one after it, in the slots of the user. -/
theorem mapAt_flushes_page : ∃ s t, mapAt nextFrame 0x8000000000 0x7000 ⟨0x1000, 2⟩ {} s = .ok t ∧
    (PageTable.translate s.table.mem s.pml4 0x8000000000).isSome = true ∧
    t.table.invalidated = s.table.invalidated ++ [(0x8000000000, 0x2000)] := by
  obtain ⟨r, hr, hmapped⟩ := pageMapped_ok
  obtain ⟨⟨w, table⟩, hfirst, hr⟩ := bind_eq_ok.mp hr
  obtain ⟨t, hsecond, hr⟩ := bind_eq_ok.mp hr
  obtain rfl := Except.ok.inj hr
  have hempty : Tree firstFrames userSlots emptyMap :=
    .of_empty (fun i hi => if_neg fun h => absurd (h.2 ▸ hi).2 (by decide))
      (fun h => absurd h.2 (by decide)) rfl (show 1 < 2 by decide)
  have hrange : ∀ n ≤ 2, AddressSpaces.InUserHalf 0x8000000000 (n * 0x1000) := fun n hn => by
    refine ⟨by decide, by decide, by decide, ?_, fun x hx => canonical_of_lt ?_⟩
    · exact (Nat.add_le_add_left (Nat.mul_le_mul_right 0x1000 hn) _).trans (by decide)
    · exact (mem_addresses.mp hx).2.trans_le
        ((Nat.add_le_add_left (Nat.mul_le_mul_right 0x1000 hn) _).trans (by decide))
  have hone : UserPages 0x8000000000 ⟨0x1000, 1⟩ := (hrange 1 (by decide)).pages
  have htwo : UserPages 0x8000000000 ⟨0x1000, 2⟩ := (hrange 2 (by decide)).pages
  have htree := (hempty.setList nextFrame_contract rfl (.inr rfl) (fun h => absurd rfl h) hone
    hfirst).1
  have hflush := mapAt_flushes nextFrame_contract htree htwo (by decide) hsecond
  exact ⟨_, t, hsecond, hmapped, hflush.flush ⟨0x8000000000, ⟨le_rfl, by decide⟩, hmapped⟩⟩

end Anarch.UserMap
