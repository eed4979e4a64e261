import Anarch.PageTableBooked
import Mathlib.Data.Set.Lattice
import Mathlib.Order.CompletePartialOrder

/-! Several page tables in one memory. A call on one of them leaves the others as they are,
and the frames of the others are not freed. -/
namespace Anarch.PageTable
open RadixTree

section Others
variable {α : Type} {A : AllocatorOps α} {used : α → Set Frame} {I J : Set Index}
variable {s t u : State α} {p : PhysAddr}

/-- The same memory under another PML4. -/
def State.under (s : State α) (p : PhysAddr) : State α := { s with cr3 := p }

/-- The PML4 and the tables of the slots. -/
def State.frames (s : State α) (I : Set Index) : Set Frame := insert s.root (s.tables I)

lemma Tree.frames_used (h : Tree used I s) : s.frames I ⊆ used s.alloc :=
  Set.insert_subset h.rootUsed h.tablesUsed

lemma tableAt_of_same (hmem : ∀ f ∈ s.frames I, t.mem f = s.mem f) (hroot : t.root = s.root)
    {a : ℕ → Index} {d : ℕ} (ha : a 0 ∈ I) (hd : d ≤ 3) : t.tableAt a d = s.tableAt a d := by
  rw [State.tableAt, State.tableAt, hroot]
  refine table_eq_of_agree fun k hk f hf => ?_
  rw [hmem f (eq_root_or_mem_tables ha (by omega : k ≤ 3) hf)]

lemma frames_of_same (hmem : ∀ f ∈ s.frames I, t.mem f = s.mem f) (hroot : t.root = s.root) :
    t.frames I = s.frames I := by
  have htables : t.tables I = s.tables I := by
    ext f
    refine exists_congr fun a => exists_congr fun d => and_congr_right fun ha =>
      and_congr_right fun hd => ?_
    rw [show table link t.root t.mem a (d + 1) = _ from tableAt_of_same hmem hroot ha hd]
  rw [State.frames, State.frames, htables, hroot]

lemma Tree.of_same (h : Tree used I s) (hmem : ∀ f ∈ s.frames I, t.mem f = s.mem f)
    (hroot : t.root = s.root) (hused : s.frames I ⊆ used t.alloc) : Tree used I t where
  outside := h.outside
  self := by
    rw [hroot, hmem _ (.inl rfl)]
    exact h.self
  separate := by
    intro a b d e f ha hb hd he hf hf'
    rw [show table link t.root t.mem a d = _ from tableAt_of_same hmem hroot ha hd] at hf
    rw [show table link t.root t.mem b e = _ from tableAt_of_same hmem hroot hb he] at hf'
    exact h.separate ha hb hd he hf hf'
  clean := by
    intro a d f g ha hd hf hg
    rw [tableAt_of_same hmem hroot ha hd.le] at hf
    have hsame := hmem f (eq_root_or_mem_tables ha hd.le hf)
    rw [hsame] at hg ⊢
    exact h.clean ha hd hf hg
  rootUsed := by
    rw [hroot]
    exact hused (.inl rfl)
  tablesUsed := by
    have hframes := frames_of_same hmem hroot
    exact fun f hf => hused (hframes ▸ (.inr hf : f ∈ t.frames I))

lemma find_of_same (hmem : ∀ f ∈ s.frames I, t.mem f = s.mem f) (hroot : t.root = s.root)
    {a : ℕ → Index} (ha : a 0 ∈ I) : t.find a = s.find a := by
  obtain ⟨k, g, hk, hg, hend⟩ := find_cases link s.root 3 s.mem a
  have hsame := hmem g (eq_root_or_mem_tables ha hk hg)
  have hg' : t.tableAt a k = some g := (tableAt_of_same hmem hroot ha hk).trans hg
  have he : t.mem g (a k) = s.mem g (a k) := congrFun hsame _
  rw [State.find, State.find, find_eq hk hg hend, find_eq hk hg' (he ▸ hend), he]

section
variable (h : Confined used I s t) (hJ : Tree used J (s.under p))
variable (hdisjoint : Disjoint (s.frames I) ((s.under p).frames J))
include h hJ hdisjoint

lemma Confined.other_frames : ∀ f ∈ (s.under p).frames J,
    t.mem f = s.mem f ∧ f ∈ used t.alloc ∧ f ∉ t.tables I := by
  intro f hf
  have hout : f ∉ s.frames I := Set.disjoint_right.mp hdisjoint hf
  exact h.frames f (hJ.frames_used hf) (fun hr => hout (.inl hr)) fun ht => hout (.inr ht)

/-- A call on one table keeps another table that shares no frame with it. -/
theorem Confined.other : Tree used J (t.under p) ∧
    (t.under p).frames J = (s.under p).frames J ∧
    Disjoint (t.frames I) ((t.under p).frames J) := by
  have hframes := h.other_frames hJ hdisjoint
  have hmem : ∀ f ∈ (s.under p).frames J, (t.under p).mem f = (s.under p).mem f :=
    fun f hf => (hframes f hf).1
  have hsame : (t.under p).frames J = (s.under p).frames J := frames_of_same hmem rfl
  refine ⟨hJ.of_same hmem rfl fun f hf => (hframes f hf).2.1, hsame, ?_⟩
  rw [hsame, Set.disjoint_right]
  intro f hf hin
  have hroot : t.root = s.root := by rw [State.root, h.cr3]
  rcases hin with rfl | hin
  · exact Set.disjoint_right.mp hdisjoint hf (.inl hroot)
  · exact (hframes f hf).2.2 hin

end

end Others

section Freed
variable {α : Type} {A : AllocatorOps α} {used : α → Set Frame} {I : Set Index}
variable {s t u : State α} {a b : ℕ → Index} {mask : Word} {d n : ℕ} {p f g : Frame}

/-- The frame is not freed on the way. -/
def Spares (p : Frame) (s t : State α) : Prop :=
  .freed (frameAddr p) ∈ t.calls → .freed (frameAddr p) ∈ s.calls

lemma Spares.refl (p : Frame) (s : State α) : Spares p s s := id

lemma Spares.trans (h : Spares p s t) (h' : Spares p t u) : Spares p s u := h ∘ h'

lemma Descent.spares (h : Descent used a mask d s n t) (p : Frame) : Spares p s t := by
  induction h with
  | done d s => exact .refl p s
  | linked _ _ _ _ ih => exact ih
  | grown _ _ _ _ _ _ ih =>
    intro hp
    simpa [State.grow] using ih hp

lemma prune_spares {start : VirtAddr} {i : Index} (hg : g ≠ p) :
    Spares p s (s.prune A f i g start) := by
  intro hp
  simp only [State.prune, free, distributeInvlpg, State.put, List.mem_append,
    List.mem_singleton, AllocatorCall.freed.injEq] at hp
  refine hp.resolve_right fun he => hg ?_
  have := congrArg frameOf he
  rw [frameOf_frameAddr, frameOf_frameAddr] at this
  exact this.symm

lemma Ascent.spares (h : Ascent A a d s n t) (hA : FrameContract A used) (ha : a 0 ∈ I)
    (ht : Tree used I s) (hp : p ∉ s.tables I) : Spares p s t := by
  induction h with
  | done d s => exact .refl p s
  | @pruned d n s t f g start hd hf hg hzero _ ih =>
    have hne : g ≠ p := by
      rintro rfl
      exact hp (mem_tables ha hd ((table_succ hf).trans hg))
    refine (prune_spares hne).trans (ih (ht.prune ha hd hf hg hzero hA) ?_)
    rw [ht.tables_prune ha hd hf hg hzero]
    exact fun hmem => hp hmem.1

section
variable {pml4 : PhysAddr} {addr : VirtAddr} {entry : Word} {depth : ℕ}
variable (hA : FrameContract A used) (ht : Tree used I s) (ha : index addr 0 ∈ I)
variable (hcr3 : s.cr3 = pml4)
include hA ht ha hcr3

lemma set_spares (hm : IsParentMask mask) {w : Option Bool}
    (hok : set A pml4 addr entry mask depth s = .ok (w, t)) (p : Frame) : Spares p s t := by
  obtain ⟨hd, halign⟩ := aligned_of_set hok
  rcases set_cases entry hA ht ha hcr3 hm (by omega) halign with ⟨-, herr⟩ |
    ⟨u, g, hpath, -, hok'⟩ | ⟨u, k, g, hok', hpath, -⟩
  · rw [herr] at hok
    cases hok
  · obtain ⟨-, rfl⟩ := Prod.mk.inj (Except.ok.inj (hok'.symm.trans hok))
    exact hpath.spares p
  · obtain ⟨-, rfl⟩ := Prod.mk.inj (Except.ok.inj (hok'.symm.trans hok))
    exact hpath.spares p

lemma unset_spares (hok : unset A pml4 addr s = .ok t) (hp : p ∉ s.tables I) :
    Spares p s t := by
  obtain ⟨f, k, t', g, hf, hok', hpath, -, -⟩ :=
    unset_cases hA ht ha hcr3 (aligned_of_unset hok) rfl (leaf_of_unset ht.self hok)
  obtain rfl := Except.ok.inj (hok'.symm.trans hok)
  have hle := (find_spec s (index addr)).1
  exact hpath.spares hA ha (ht.put_leaf ha hle hf (.inr link_zero))
    fun hmem => hp (tables_cut_subset ht.separate ha hle hf (.inr link_zero) hmem)

end

/-- What a call on the table of a map keeps, with a frame that it does not free. -/
def Kept (used : α → Set Frame) (I : Set Index) (p : Frame) (s t : State α) : Prop :=
  Tree used I t ∧ Confined used I s t ∧ Spares p s t

lemma Tree.kept (ht : Tree used I s) (p : Frame) : Kept used I p s s := ⟨ht, .refl s, .refl p s⟩

lemma Kept.trans (h : Kept used I p s t) (h' : Kept used I p t u) : Kept used I p s u :=
  ⟨h'.1, h.2.1.trans h'.2.1, h.2.2.trans h'.2.2⟩

lemma Kept.invalidate (h : Kept used I p s t) (start : VirtAddr) (bytes : Word) :
    Kept used I p s (distributeInvlpg start bytes t) :=
  ⟨h.1.invalidate start bytes, h.2.1.invalidate start bytes, h.2.2⟩

section
variable {pml4 : PhysAddr} {start : VirtAddr} {entry : Word} {size : MemoryMap.Size}
variable (hA : FrameContract A used) (ht : Tree used I s) (hcr3 : s.cr3 = pml4)
variable (hpages : PagesIn I start size.pageSize size.pageCount.toNat)
include hA ht hcr3 hpages

lemma unsetPages_kept (hp : p ∈ used s.alloc) (hout : p ∉ s.frames I)
    (hok : unsetPages A pml4 size.pageSize size.pageCount.toNat start s = .ok t) :
    Kept used I p s t := by
  refine unsetPages_rule (P := Kept used I p s) (ht.kept p) (fun k hk u v hu hv => ?_) hok
  have hcr3' := hu.2.1.cr3.trans hcr3
  have htables := (hu.2.1.frames p hp (fun h => hout (.inl h)) fun h => hout (.inr h)).2.2
  obtain ⟨hv', hc⟩ := hu.1.unset hA (hpages k hk) hcr3' hv
  exact hu.trans ⟨hv', hc, unset_spares hA hu.1 (hpages k hk) hcr3' hv htables⟩

lemma setList_kept (hm : IsParentMask mask)
    (he : size.pageSize ≠ 0x1000 → isHuge entry = true) {w : Bool}
    (hok : setList A pml4 start entry size mask s = .ok (w, t)) : Kept used I p s t := by
  refine setList_rule (P := Kept used I p s) (ht.kept p) he
    (fun depth _ k hk hlink u w v hu hv => ?_) hok
  have hcr3' := hu.2.1.cr3.trans hcr3
  obtain ⟨hv', hc⟩ := hu.1.set hA (hpages k hk) hcr3' hm hlink hv
  exact hu.trans ⟨hv', hc, set_spares hA hu.1 (hpages k hk) hcr3' hm hv p⟩

end

end Freed

section Kernel
variable {α : Type} {A : AllocatorOps α} {used : α → Set Frame} {s t u : State α}
variable {a b : ℕ → Index} {d n : ℕ} {p : Frame} {pml4 : PhysAddr}

/-- The kernel half is a PDPT at `p`, which holds the first page of the identity map. -/
structure KernelHalf (used : α → Set Frame) (p : Frame) (s : State α) : Prop where
  tree : Tree used {0} s
  slot : s.mem s.root 0 = frameAddr p ||| 3
  first : s.find (index 0) = (2, 0x183)

lemma pdpt_or (p : Frame) : (frameAddr p ||| 3) ||| 3 = frameAddr p ||| 3 := by
  rw [BitVec.or_assoc, BitVec.or_self]

/-- The way down writes what was there to the entry of the PDPT. -/
lemma Descent.keeps_slot (h : Descent used a 3 d s n t) (ha : a 0 = 0) (ht : Tree used {0} s)
    (hslot : s.mem s.root 0 = frameAddr p ||| 3) : t.mem t.root 0 = frameAddr p ||| 3 := by
  have ha' : a 0 ∈ ({0} : Set Index) := ha
  induction h with
  | done d s => exact hslot
  | @linked d n s t f g hd hf hg _ ih =>
    have hlink := (link_or (.inl rfl) hg).trans hg.symm
    refine ih (ht.put_link ha' hd hf hlink (tableAddr_or (.inl rfl))) ?_
    show s.mem.write f (a d) (s.mem f (a d) ||| 3) s.root 0 = _
    rw [write_apply]
    split_ifs with heq
    · obtain ⟨rfl, hdigit⟩ := heq
      rw [← hdigit, hslot, pdpt_or]
    · exact hslot
  | @grown d n s t f g alloc hd hf habsent hg hsub _ ih =>
    have hlink : link (frameAddr g ||| 3) = some g := link_frameAddr g (.inl rfl)
    have htree := ht.grow ha' hd hf hlink hg hsub (link_none_of_absent habsent)
      ((tableAddr_or (.inl rfl)).trans (tableAddr_frameAddr g))
    refine ih htree ?_
    have hr : s.root ≠ g := fun h => hg (h ▸ ht.rootUsed)
    show (s.mem.write f (a d) (frameAddr g ||| 3)).fill g 0 s.root 0 = _
    rw [fill_of_ne _ _ hr, write_apply, if_neg, hslot]
    rintro ⟨rfl, hdigit⟩
    rw [← hdigit, hslot, isPresent_or (.inl rfl)] at habsent
    cases habsent

lemma not_table_of_zero {g : Frame} (hzero : ∀ i, s.mem g i = 0) (hlive : (s.find b).2 ≠ 0)
    (hd : d ≤ 3) : s.tableAt b d ≠ some g := by
  intro hg
  have hend := find_of_absent hd hg (.inr (by rw [hzero]; rfl))
  rw [hend] at hlive
  exact hlive (hzero _)

/-- The way up keeps the PDPT, as long as a key has an entry at its end. -/
lemma Ascent.keeps_slot (h : Ascent A a d s n t) (hA : FrameContract A used) (ha : a 0 = 0)
    (hb : b 0 = 0) (ht : Tree used {0} s) (hlive : (s.find b).2 ≠ 0)
    (hslot : s.mem s.root 0 = frameAddr p ||| 3) :
    t.mem t.root 0 = frameAddr p ||| 3 ∧ Spares p s t := by
  have ha' : a 0 ∈ ({0} : Set Index) := ha
  have hb' : b 0 ∈ ({0} : Set Index) := hb
  induction h with
  | done d s => exact ⟨hslot, .refl p s⟩
  | @pruned d n s t f g start hd hf hg hzero _ ih =>
    have hpdpt : s.tableAt b 1 = some p := by
      refine (table_succ rfl).trans ?_
      rw [hb, hslot, link_frameAddr p (.inl rfl)]
    have hne : g ≠ p := by
      rintro rfl
      exact not_table_of_zero hzero hlive (by omega) hpdpt
    have hroot : f ≠ s.root := by
      rintro rfl
      obtain ⟨rfl, -⟩ := ht.separate ha' ha' hd.le (Nat.zero_le 3) hf rfl
      rw [ha, hslot, link_frameAddr p (.inl rfl)] at hg
      exact hne (Option.some.inj hg).symm
    have hoff : ¬ Agree (d + 1) a b := fun hagree =>
      not_table_of_zero hzero hlive (by omega)
        ((table_congr hagree).symm.trans ((table_succ hf).trans hg))
    have hfind : (s.prune A f (a d) g start).find b = s.find b :=
      find_write_off ht.separate ha' hb' hd.le hf hoff
    obtain ⟨hkeep, hspares⟩ := ih (ht.prune ha' hd hf hg hzero hA) (by rwa [hfind])
      ((congrFun (write_of_ne s.mem (a d) 0 hroot.symm) 0).trans hslot)
    exact ⟨hkeep, (prune_spares hne).trans hspares⟩

/-- The pages past the first one of the identity map. -/
def pastFirst : Set VirtAddr := {x | 0x200000 ≤ x.toNat ∧ x.toNat < kernelEnd.toNat}

lemma not_agree_first {addr : VirtAddr} (h : addr ∈ pastFirst) (hd : 2 ≤ d) :
    ¬ Agree (d + 1) (index addr) (index 0) := by
  intro hagree
  have hlow : 0x200000 ≤ addr.toNat := h.1
  have hhigh : addr.toNat < 2 ^ 39 := h.2
  have hsame := (agree_index_iff (le_refl 2 |>.trans (by omega)) addr 0).mp
    (hagree.mono (by omega : 2 + 1 ≤ d + 1))
  have hpage : addr.toNat % 2 ^ 48 / 0x200000 = 0 % 2 ^ 48 / 0x200000 := hsame
  omega

section
variable (hA : FrameContract A used) (h : KernelHalf used p s) (hcr3 : s.cr3 = pml4)
variable {addr : VirtAddr} (haddr : addr ∈ pastFirst)
include hA h hcr3 haddr

lemma KernelHalf.set {entry : Word} {depth : ℕ} (he : depth = 3 ∨ link entry = none)
    {w : Bool} (hok : set A pml4 addr entry 3 depth s = .ok (some w, t)) :
    KernelHalf used p t ∧ Confined used {0} s t ∧ Spares p s t := by
  obtain ⟨hd, halign⟩ := aligned_of_set hok
  have hd' : depth ≤ 3 := by omega
  have ha : index addr 0 = 0 := index_kernel haddr.2
  have hzero : (0 : VirtAddr) ∈ kernelAddresses :=
    show (0 : VirtAddr).toNat < kernelEnd.toNat by decide
  have hmod := toNat_mod_of_aligned halign
  have hlow : 0x200000 ≤ addr.toNat := haddr.1
  have hhigh : addr.toNat < 2 ^ 39 := haddr.2
  have hpos : depth ≠ 0 := by
    rintro rfl
    rw [pageSizeAt_toNat (Nat.zero_le 3)] at hmod
    omega
  have hoff : ¬ Agree (depth + 1) (index addr) (index 0) := by
    rw [agree_iff_mem hd' haddr.2 hzero hmod]
    exact fun hin => absurd hin.1 (by show ¬ addr.toNat ≤ 0; omega)
  have hspares := set_spares hA h.tree ha hcr3 (.inl rfl) hok p
  have hfirst : t.find (index 0) = (2, 0x183) ∧ Tree used {0} t ∧ Confined used {0} s t := by
    rcases set_view hA h.tree ha hcr3 (.inl rfl) hd' halign he with ⟨-, herr⟩ |
      ⟨t', hok', -⟩ | ⟨w', t', hok', ht', hc, -, -, hrest⟩
    · rw [herr] at hok
      cases hok
    · cases hok'.symm.trans hok
    · obtain ⟨-, rfl⟩ := Prod.mk.inj (Except.ok.inj (hok'.symm.trans hok))
      refine ⟨?_, ht', hc⟩
      rcases hrest (index 0) rfl hoff with hsame | ⟨hagree, -, habsent, -⟩
      · rw [hsame, h.first]
      · rw [← find_congr s hagree, h.first] at habsent
        cases habsent
  obtain ⟨hfind, ht, hc⟩ := hfirst
  refine ⟨⟨ht, ?_, hfind⟩, hc, hspares⟩
  rcases set_cases entry hA h.tree ha hcr3 (.inl rfl) hd' halign with ⟨-, herr⟩ |
    ⟨u, g, hpath, hg, hok'⟩ | ⟨u, k, g, hok', -⟩
  · rw [herr] at hok
    cases hok
  · obtain ⟨-, rfl⟩ := Prod.mk.inj (Except.ok.inj (hok'.symm.trans hok))
    have hu := (hpath.tree (.inl rfl) ha h.tree).1
    have hne : u.root ≠ g := by
      rintro rfl
      exact hpos (hu.separate ha ha hd' (Nat.zero_le 3) hg rfl).1
    exact (congrFun (write_of_ne u.mem _ entry hne) 0).trans
      (hpath.keeps_slot ha h.tree h.slot)
  · cases hok'.symm.trans hok

lemma KernelHalf.unset (hok : unset A pml4 addr s = .ok t) :
    KernelHalf used p t ∧ Confined used {0} s t ∧ Spares p s t := by
  have ha : index addr 0 = 0 := index_kernel haddr.2
  have hleaf := leaf_of_unset h.tree.self hok
  have halign := aligned_of_unset hok
  have hle := (find_spec s (index addr)).1
  have hoff : ¬ Agree ((s.find (index addr)).1 + 1) (index addr) (index 0) := by
    intro hagree
    have hsame := find_congr s hagree
    rw [← hsame, h.first] at hagree
    exact not_agree_first haddr le_rfl hagree
  obtain ⟨t', hok', ht, hc, -, hrest⟩ := unset_view hA h.tree ha hcr3 halign hleaf
  obtain rfl := Except.ok.inj (hok'.symm.trans hok)
  have hfirst : t'.find (index 0) = (2, 0x183) := by
    rcases hrest (index 0) rfl hoff with hsame | ⟨hz, -⟩
    · rw [hsame, h.first]
    · rw [h.first] at hz
      cases hz
  obtain ⟨f, k, u, g, hf, hok'', hpath, -, -⟩ := unset_cases hA h.tree ha hcr3 halign rfl hleaf
  obtain rfl := Except.ok.inj (hok''.symm.trans hok)
  have hput := h.tree.put_leaf ha hle hf (e := 0) (.inr link_zero)
  have hfind : (s.put f (index addr (s.find (index addr)).1) 0).find (index 0) = (2, 0x183) := by
    rw [h.tree.find_put ha (rfl : index 0 0 ∈ ({0} : Set Index)) hle hf (.inr link_zero),
      if_neg hoff, h.first]
  have hslot : (s.put f (index addr (s.find (index addr)).1) 0).mem s.root 0 =
      frameAddr p ||| 3 := by
    rw [put_mem, write_apply, if_neg, h.slot]
    rintro ⟨rfl, hdigit⟩
    obtain ⟨hd, -⟩ := h.tree.separate ha ha hle (Nat.zero_le 3) hf rfl
    have hagree : Agree (0 + 1) (index addr) (index 0) := fun j hj => by
      obtain rfl : j = 0 := by omega
      exact ha
    rw [hd] at hoff
    exact hoff hagree
  obtain ⟨hkeep, hspares⟩ := hpath.keeps_slot (b := index 0) hA ha rfl hput
    (by rw [hfind]; decide) hslot
  exact ⟨⟨ht, hkeep, hfirst⟩, hc, hspares⟩

end

/-- What a call on the kernel table keeps. -/
def KernelKept (used : α → Set Frame) (p : Frame) (s t : State α) : Prop :=
  KernelHalf used p t ∧ Confined used {0} s t ∧ Spares p s t

lemma KernelHalf.kept (h : KernelHalf used p s) : KernelKept used p s s :=
  ⟨h, .refl s, .refl p s⟩

lemma KernelKept.trans (h : KernelKept used p s t) (h' : KernelKept used p t u) :
    KernelKept used p s u :=
  ⟨h'.1, h.2.1.trans h'.2.1, h.2.2.trans h'.2.2⟩

lemma KernelKept.cr3 (h : KernelKept used p s t) : t.cr3 = s.cr3 := h.2.1.cr3

lemma KernelKept.invalidate (h : KernelKept used p s t) (start : VirtAddr) (bytes : Word) :
    KernelKept used p s (distributeInvlpg start bytes t) :=
  ⟨⟨h.1.1.invalidate start bytes, h.1.2, h.1.3⟩, h.2.1.invalidate start bytes, h.2.2⟩

/-- A range of the kernel half past the first page. -/
def PastFirst (start : VirtAddr) (bytes : ℕ) : Prop :=
  start ∈ pastFirst ∧ start.toNat + bytes ≤ kernelEnd.toNat

lemma PastFirst.mono {start : VirtAddr} {m n : ℕ} (h : PastFirst start n) (hle : m ≤ n) :
    PastFirst start m :=
  ⟨h.1, (Nat.add_le_add_left hle _).trans h.2⟩

lemma PastFirst.page {start : VirtAddr} {size : MemoryMap.Size} (h : PastFirst start size.span)
    {k : ℕ} (hk : k < size.pageCount.toNat) : pageAt start size.pageSize k ∈ pastFirst := by
  obtain ⟨hstart, hend⟩ := h
  rcases Nat.eq_zero_or_pos size.pageSize.toNat with h0 | hpos
  · have hzero : size.pageSize = 0 := BitVec.eq_of_toNat_eq h0
    simpa [pageAt, hzero] using hstart
  · have hK : kernelEnd.toNat = 2 ^ 39 := rfl
    have hlow : 0x200000 ≤ start.toNat := hstart.1
    have hnext : (k + 1) * size.pageSize.toNat ≤ size.pageCount.toNat * size.pageSize.toNat :=
      Nat.mul_le_mul_right _ hk
    rw [Nat.succ_mul] at hnext
    rw [MemoryMap.Size.span, Nat.mul_comm] at hend
    have hpage : (pageAt start size.pageSize k).toNat = _ := pageAt_toNat (by omega) hpos
    exact ⟨by omega, by omega⟩

section
variable (hA : FrameContract A used) (h : KernelHalf used p s) (hcr3 : s.cr3 = pml4)
variable {start : VirtAddr} {size : MemoryMap.Size}
include hA h hcr3

lemma KernelHalf.unsetPages (hrange : PastFirst start size.span)
    (hok : unsetPages A pml4 size.pageSize size.pageCount.toNat start s = .ok t) :
    KernelKept used p s t := by
  refine unsetPages_rule (P := KernelKept used p s) h.kept (fun k hk u v hu hv => ?_) hok
  exact hu.trans (hu.1.unset hA (hu.cr3.trans hcr3) (hrange.page hk) hv)

lemma KernelHalf.setList {entry : Word} (he : size.pageSize ≠ 0x1000 → isHuge entry = true)
    (hrange : PastFirst start size.span) {w : Bool}
    (hok : setList A pml4 start entry size 3 s = .ok (w, t)) : KernelKept used p s t := by
  refine setList_rule (P := KernelKept used p s) h.kept he
    (fun depth _ k hk hlink u w v hu hv => ?_) hok
  exact hu.trans (hu.1.set hA (hu.cr3.trans hcr3) (hrange.page hk) hlink hv)

end

end Kernel

end Anarch.PageTable
