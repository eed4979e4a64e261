import Anarch.PageTableAccess
import Anarch.RadixTables

/-! The tables of some slots of the PML4 form a radix tree. Writing an entry, making a table
and removing one keep it a tree and touch nothing else. -/
namespace Anarch.PageTable
open RadixTree

/-- `memory`, as `Unset` and `FreeTableRecursive` take it out of an entry. -/
def tableAddr (entry : Word) : PhysAddr := entry &&& 0x7FFFFFFFFFFFF000

/-- The masks for parent entries: present, writable, and user for a user map. -/
def IsParentMask (mask : Word) : Prop := mask = 3 ∨ mask = 7

section Entries
variable {e mask : Word} {f g : Frame}

lemma isPresent_eq (e : Word) : isPresent e = e.getLsbD 0 := by
  rw [isPresent, show (1 : Word) = BitVec.twoPow 64 0 from rfl, BitVec.and_twoPow]
  cases e.getLsbD 0 <;> decide

lemma isHuge_eq (e : Word) : isHuge e = e.getLsbD 7 := by
  rw [isHuge, show (0x80 : Word) = BitVec.twoPow 64 7 from rfl, BitVec.and_twoPow]
  cases e.getLsbD 7 <;> decide

lemma isPresent_or (hm : IsParentMask mask) : isPresent (e ||| mask) = true := by
  rcases hm with rfl | rfl <;> simp [isPresent_eq]

lemma isHuge_or (hm : IsParentMask mask) : isHuge (e ||| mask) = isHuge e := by
  rcases hm with rfl | rfl <;> simp [isHuge_eq]

lemma tableAddr_or (hm : IsParentMask mask) : tableAddr (e ||| mask) = tableAddr e := by
  rcases hm with rfl | rfl <;> simp [tableAddr, BitVec.and_or_distrib_right]

lemma frameOf_or (hm : IsParentMask mask) : frameOf (e ||| mask) = frameOf e := by
  rcases hm with rfl | rfl <;> simp [frameOf, BitVec.ushiftRight_or_distrib]

lemma link_or (hm : IsParentMask mask) (h : link e = some g) : link (e ||| mask) = some g := by
  obtain ⟨-, hh, hf⟩ := link_eq_some.mp h
  exact link_eq_some.mpr ⟨isPresent_or hm, by rw [isHuge_or hm, hh], by rw [frameOf_or hm, hf]⟩

lemma frameOf_frameAddr (f : Frame) : frameOf (frameAddr f) = f := by
  apply BitVec.eq_of_toNat_eq
  have := f.isLt
  rw [frameOf, frameAddr, BitVec.toNat_setWidth, BitVec.toNat_ushiftRight, BitVec.toNat_shiftLeft,
    BitVec.toNat_setWidth, Nat.shiftRight_eq_div_pow, Nat.shiftLeft_eq]
  omega

lemma tableAddr_frameAddr (f : Frame) : tableAddr (frameAddr f) = frameAddr f := by
  have hbits : ∀ i : Fin 64, (0x7FFFFFFFFFFFF000#64).getLsbD i =
    decide (12 ≤ (i : ℕ) ∧ (i : ℕ) < 63) := by decide
  apply BitVec.eq_of_getLsbD_eq
  intro i hi
  have h : (0x7FFFFFFFFFFFF000 : Word).getLsbD i = decide (12 ≤ i ∧ i < 63) := hbits ⟨i, hi⟩
  rw [tableAddr, BitVec.getLsbD_and, h]
  by_cases hin : 12 ≤ i ∧ i < 63
  · simp [hin]
  · rw [decide_eq_false hin, Bool.and_false]
    simp only [frameAddr, BitVec.getLsbD_shiftLeft, BitVec.getLsbD_setWidth]
    by_cases h12 : i < 12
    · simp [h12]
    · simp [BitVec.getLsbD_of_ge f (i - 12) (by omega)]

lemma isHuge_frameAddr (f : Frame) : isHuge (frameAddr f) = false := by
  simp [isHuge_eq, frameAddr]

lemma link_frameAddr (f : Frame) (hm : IsParentMask mask) : link (frameAddr f ||| mask) = some f :=
  link_eq_some.mpr ⟨isPresent_or hm, by rw [isHuge_or hm, isHuge_frameAddr],
    by rw [frameOf_or hm, frameOf_frameAddr]⟩

lemma link_zero : link 0 = none := rfl

end Entries

section Steps
variable {α : Type}

/-- Frames in use are not handed out, and freeing a frame releases no other. -/
structure FrameContract (A : AllocatorOps α) (used : α → Set Frame) : Prop where
  fresh : ∀ {x y p}, A.alloc 0x1000 0x1000 x = (some p, y) →
    ∃ f, p = frameAddr f ∧ f ∉ used x ∧ insert f (used x) ⊆ used y
  freed : ∀ x f, used x \ {f} ⊆ used (A.free (frameAddr f) x)

/-- One of the next `n` requests for a page is refused. -/
def RunsOut (A : AllocatorOps α) : ℕ → α → Prop
  | 0, _ => False
  | n + 1, x => (A.alloc 0x1000 0x1000 x).1 = none ∨ RunsOut A n (A.alloc 0x1000 0x1000 x).2

lemma runsOut_succ (A : AllocatorOps α) (n : ℕ) (x : α) : RunsOut A (n + 1) x ↔
    (A.alloc 0x1000 0x1000 x).1 = none ∨ RunsOut A n (A.alloc 0x1000 0x1000 x).2 := .rfl

lemma RunsOut.mono {A : AllocatorOps α} {m n : ℕ} {x : α} (h : RunsOut A m x) (hle : m ≤ n) :
    RunsOut A n x := by
  induction m generalizing n x with
  | zero => exact h.elim
  | succ m ih =>
    obtain ⟨n, rfl⟩ : ∃ k, n = k + 1 := ⟨n - 1, by omega⟩
    exact h.imp id fun h => ih h (by omega)

def State.tables (s : State α) (I : Set Index) : Set Frame := RadixTree.tables link s.root I 3 s.mem

/-- A fresh table of zeros, with the entry that points to it. -/
def State.grow (s : State α) (f : Frame) (i : Index) (e : Word) (g : Frame) (alloc : α) :
    State α :=
  { s with
    mem := (s.mem.write f i e).fill g 0
    alloc
    calls := s.calls ++ [.obtained (frameAddr g)] }

/-- The entry cleared, the table it pointed to freed. -/
def State.prune (A : AllocatorOps α) (s : State α) (f : Frame) (i : Index) (g : Frame)
    (start : VirtAddr) : State α :=
  free A (frameAddr g) (distributeInvlpg start 0x1000 (s.put f i 0))

@[simp] lemma grow_mem (s : State α) (f : Frame) (i : Index) (e : Word) (g : Frame) (alloc : α) :
    (s.grow f i e g alloc).mem = (s.mem.write f i e).fill g 0 := rfl

@[simp] lemma prune_mem (A : AllocatorOps α) (s : State α) (f : Frame) (i : Index) (g : Frame)
    (start : VirtAddr) : (s.prune A f i g start).mem = s.mem.write f i 0 := rfl

structure Tree (used : α → Set Frame) (I : Set Index) (s : State α) : Prop where
  outside : 0x1ff ∉ I
  self : link (s.mem s.root 0x1ff) = some s.root
  separate : Separate link s.root I 3 s.mem
  /-- `Unset` and the processor agree on the table an entry points to. -/
  clean : ∀ ⦃a d f g⦄, a 0 ∈ I → d < 3 → s.tableAt a d = some f →
    link (s.mem f (a d)) = some g → tableAddr (s.mem f (a d)) = frameAddr g
  rootUsed : s.root ∈ used s.alloc
  tablesUsed : s.tables I ⊆ used s.alloc

/-- Only tables of the slots, and frames that were not in use, have changed. -/
structure Confined (used : α → Set Frame) (I : Set Index) (s t : State α) : Prop where
  cr3 : t.cr3 = s.cr3
  slots : ∀ i ∉ I, t.mem s.root i = s.mem s.root i
  frames : ∀ f ∈ used s.alloc, f ≠ s.root → f ∉ s.tables I →
    t.mem f = s.mem f ∧ f ∈ used t.alloc ∧ f ∉ t.tables I

variable {used : α → Set Frame} {I : Set Index} {s t u : State α} {a : ℕ → Index} {d : ℕ}
variable {f g : Frame} {e : Word}

lemma Confined.refl (s : State α) : Confined used I s s :=
  ⟨rfl, fun _ _ => rfl, fun _ hu _ ht => ⟨rfl, hu, ht⟩⟩

lemma Confined.trans (h : Confined used I s t) (h' : Confined used I t u) :
    Confined used I s u := by
  have hroot : t.root = s.root := by rw [State.root, h.cr3]
  refine ⟨h'.cr3.trans h.cr3, fun i hi => ?_, fun f hu hr hf => ?_⟩
  · rw [← h.slots i hi, ← hroot, h'.slots i hi]
  · obtain ⟨hm, hu', hf'⟩ := h.frames f hu hr hf
    obtain ⟨hm', hu'', hf''⟩ := h'.frames f hu' (hroot ▸ hr) hf'
    exact ⟨hm'.trans hm, hu'', hf''⟩

lemma Tree.invalidate (h : Tree used I s) (start : VirtAddr) (bytes : Word) :
    Tree used I (distributeInvlpg start bytes s) :=
  ⟨h.outside, h.self, h.separate, h.clean, h.rootUsed, h.tablesUsed⟩

lemma Confined.invalidate (h : Confined used I s t) (start : VirtAddr) (bytes : Word) :
    Confined used I s (distributeInvlpg start bytes t) := ⟨h.cr3, h.slots, h.frames⟩

lemma frame_ne (ha : a 0 ∈ I) (hd : d ≤ 3) (hf : s.tableAt a d = some f) (hr : g ≠ s.root)
    (hg : g ∉ s.tables I) : g ≠ f := by
  rintro rfl
  exact (eq_root_or_mem_tables ha hd hf).elim hr hg

lemma Tree.unused (ht : Tree used I s) (hg : g ∉ used s.alloc) :
    Unused link s.root I 3 s.mem g :=
  unused_of_notMem (fun h => hg (h ▸ ht.rootUsed)) fun h => hg (ht.tablesUsed h)

section
variable (hzero : ∀ i ∈ I, s.mem s.root i = 0)
include hzero

lemma depth_of_empty (ha : a 0 ∈ I) (hf : s.tableAt a d = some f) : d = 0 := by
  by_contra hd
  have hnone : link (s.mem s.root (a 0)) = none := by rw [hzero _ ha]; rfl
  rw [State.tableAt, table_none_below rfl hnone (fun _ _ => rfl) (Nat.pos_of_ne_zero hd)] at hf
  cases hf

lemma tables_of_empty : s.tables I = ∅ := by
  ext f
  simp only [Set.mem_empty_iff_false, iff_false]
  rintro ⟨a, d, ha, -, hf⟩
  cases depth_of_empty hzero ha hf

lemma Tree.of_empty (hI : 0x1ff ∉ I) (hself : link (s.mem s.root 0x1ff) = some s.root)
    (hroot : s.root ∈ used s.alloc) : Tree used I s := by
  refine ⟨hI, hself, ?_, ?_, hroot, by simp [tables_of_empty hzero]⟩
  · intro a b d e f ha hb _ _ hf hf'
    obtain rfl := depth_of_empty hzero ha hf
    obtain rfl := depth_of_empty hzero hb hf'
    exact ⟨rfl, agree_zero a b⟩
  · intro a d f g ha _ hf hg
    obtain rfl := depth_of_empty hzero ha hf
    obtain rfl := Option.some.inj hf
    rw [hzero _ ha] at hg
    cases hg

end

section
variable (ht : Tree used I s) (ha : a 0 ∈ I)
include ht ha

lemma Tree.slot_ne (hd : d ≤ 3) (hf : s.tableAt a d = some f) {i : Index} (hi : i ∉ I) :
    ¬ (s.root = f ∧ i = a d) := by
  rintro ⟨rfl, rfl⟩
  obtain ⟨rfl, -⟩ := ht.separate ha ha hd (Nat.zero_le 3) hf rfl
  exact hi ha

lemma Tree.frame_used (hd : d ≤ 3) (hf : s.tableAt a d = some f) : f ∈ used s.alloc := by
  rcases eq_root_or_mem_tables ha hd hf with rfl | h
  · exact ht.rootUsed
  · exact ht.tablesUsed h

lemma Tree.put_confined (hd : d ≤ 3) (hf : s.tableAt a d = some f)
    (hsub : (s.put f (a d) e).tables I ⊆ s.tables I) :
    Confined used I s (s.put f (a d) e) := by
  refine ⟨rfl, fun i hi => ?_, fun x hu hr hx => ⟨?_, hu, fun h => hx (hsub h)⟩⟩
  · exact (write_apply ..).trans (if_neg (ht.slot_ne ha hd hf hi))
  · exact write_of_ne _ _ _ (frame_ne ha hd hf hr hx)

lemma Tree.put_self (hd : d ≤ 3) (hf : s.tableAt a d = some f) :
    link ((s.put f (a d) e).mem s.root 0x1ff) = some s.root := by
  rw [put_mem, write_apply, if_neg (ht.slot_ne ha hd hf ht.outside), ht.self]

lemma Tree.put_link (hd : d < 3) (hf : s.tableAt a d = some f)
    (he : link e = link (s.mem f (a d))) (hc : tableAddr e = tableAddr (s.mem f (a d))) :
    Tree used I (s.put f (a d) e) where
  outside := ht.outside
  self := ht.put_self ha hd.le hf
  separate := ht.separate.relabel he
  clean := by
    intro b k x g hb hk hx hg
    have hx' := (table_relabel he).symm.trans hx
    simp only [put_mem, write_apply] at hg ⊢
    split_ifs at hg ⊢ with heq
    · obtain ⟨rfl, hdigit⟩ := heq
      rw [hc]
      exact ht.clean ha hd hf (he ▸ hg)
    · exact ht.clean hb hk hx' hg
  rootUsed := ht.rootUsed
  tablesUsed := by
    rw [State.tables, State.put, tables_relabel he]
    exact ht.tablesUsed

lemma Tree.put_leaf (hd : d ≤ 3) (hf : s.tableAt a d = some f) (he : d = 3 ∨ link e = none) :
    Tree used I (s.put f (a d) e) where
  outside := ht.outside
  self := ht.put_self ha hd hf
  separate := ht.separate.cut ha hd hf he
  clean := by
    intro b k x g hb hk hx hg
    have hx' := (table_cut ht.separate ha hb hd hf he hk.le).symm.trans hx
    split_ifs at hx' with hin
    simp only [put_mem, write_apply] at hg ⊢
    split_ifs at hg ⊢ with heq
    · obtain ⟨rfl, hdigit⟩ := heq
      obtain ⟨rfl, -⟩ := ht.separate ha hb hd hk.le hf hx'
      rw [he.resolve_left hk.ne] at hg
      cases hg
    · exact ht.clean hb hk hx' hg
  rootUsed := ht.rootUsed
  tablesUsed := (tables_cut_subset ht.separate ha hd hf he).trans ht.tablesUsed

lemma Tree.leaf_confined (hd : d ≤ 3) (hf : s.tableAt a d = some f)
    (he : d = 3 ∨ link e = none) : Confined used I s (s.put f (a d) e) :=
  ht.put_confined ha hd hf (tables_cut_subset ht.separate ha hd hf he)

lemma Tree.tables_grow {alloc : α} (hd : d < 3) (hf : s.tableAt a d = some f)
    (he : link e = some g) (hg : g ∉ used s.alloc) (hnone : link (s.mem f (a d)) = none) :
    (s.grow f (a d) e g alloc).tables I = insert g (s.tables I) :=
  RadixTree.tables_grow ht.separate ha hd hf he link_zero (ht.unused hg) hnone

lemma Tree.grow_table {alloc : α} (hd : d < 3) (hf : s.tableAt a d = some f)
    (he : link e = some g) (hg : g ∉ used s.alloc) :
    (s.grow f (a d) e g alloc).tableAt a (d + 1) = some g := by
  refine (table_grow ht.separate ha ha hd hf he link_zero (ht.unused hg) hd).trans ?_
  rw [if_pos ⟨by omega, fun _ _ => rfl⟩, if_pos rfl]

lemma Tree.put_table (hd : d ≤ 3) (hf : s.tableAt a d = some f) :
    (s.put f (a d) e).tableAt a d = some f :=
  (table_write_off ht.separate ha ha hd hf hd (.inl le_rfl)).trans hf

section
variable {alloc : α} (hd : d < 3) (hf : s.tableAt a d = some f) (he : link e = some g)
  (hg : g ∉ used s.alloc) (hsub : insert g (used s.alloc) ⊆ used alloc)
include hd hf he hg hsub

lemma Tree.grow (hnone : link (s.mem f (a d)) = none) (hc : tableAddr e = frameAddr g) :
    Tree used I (s.grow f (a d) e g alloc) where
  outside := ht.outside
  self := by
    have hr : s.root ≠ g := fun h => hg (h ▸ ht.rootUsed)
    rw [grow_mem, show (s.grow f (a d) e g alloc).root = s.root from rfl, fill_of_ne _ _ hr]
    exact ht.put_self ha hd.le hf
  separate := ht.separate.grow ha hd hf he link_zero (ht.unused hg)
  clean := by
    intro b k x y hb hk hx hy
    have hx' := (table_grow ht.separate ha hb hd hf he link_zero (ht.unused hg) hk.le).symm.trans
      hx
    by_cases hxg : x = g
    · subst hxg
      simp only [grow_mem, fill_self] at hy
      cases hy
    simp only [grow_mem, fill_of_ne _ _ hxg, write_apply] at hy ⊢
    split_ifs at hx'
    · exact absurd (Option.some.inj hx').symm hxg
    · split_ifs at hy ⊢ with heq
      · rw [hc, ← Option.some.inj (he.symm.trans hy)]
      · exact ht.clean hb hk hx' hy
  rootUsed := hsub (.inr ht.rootUsed)
  tablesUsed := by
    rw [ht.tables_grow ha hd hf he hg hnone]
    exact (Set.insert_subset_insert ht.tablesUsed).trans hsub

lemma Tree.grow_confined (hnone : link (s.mem f (a d)) = none) :
    Confined used I s (s.grow f (a d) e g alloc) := by
  have hne : ∀ x ∈ used s.alloc, x ≠ g := fun x hx h => hg (h ▸ hx)
  refine ⟨rfl, fun i hi => ?_, fun x hu hr hx => ⟨?_, hsub (.inr hu), ?_⟩⟩
  · rw [grow_mem, fill_of_ne _ _ (hne _ ht.rootUsed), write_apply, if_neg (ht.slot_ne ha hd.le hf hi)]
  · rw [grow_mem, fill_of_ne _ _ (hne x hu), write_of_ne _ _ _ (frame_ne ha hd.le hf hr hx)]
  · rw [ht.tables_grow ha hd hf he hg hnone]
    exact fun h => h.elim (hne x hu) hx

end

section
variable {A : AllocatorOps α} {start : VirtAddr} (hd : d < 3) (hf : s.tableAt a d = some f)
  (hg : link (s.mem f (a d)) = some g) (hzero : ∀ i, s.mem g i = 0)
include hd hf hg hzero

lemma Tree.tables_prune : (s.prune A f (a d) g start).tables I = s.tables I \ {g} :=
  RadixTree.tables_cut ht.separate ha hd hf link_zero hg fun i => by rw [hzero]; rfl

variable (hA : FrameContract A used)
include hA

lemma Tree.prune : Tree used I (s.prune A f (a d) g start) where
  outside := ht.outside
  self := ht.put_self ha hd.le hf
  separate := (ht.put_leaf ha hd.le hf (.inr link_zero)).separate
  clean := (ht.put_leaf ha hd.le hf (.inr link_zero)).clean
  rootUsed := by
    have hmem : g ∈ s.tables I := mem_tables ha hd ((table_succ hf).trans hg)
    have hr : g ≠ s.root := by
      rintro h
      rw [h] at hmem
      exact ht.separate.root_notMem hmem
    exact hA.freed _ _ ⟨ht.rootUsed, hr.symm⟩
  tablesUsed := by
    rw [ht.tables_prune ha hd hf hg hzero]
    exact fun x hx => hA.freed _ _ ⟨ht.tablesUsed hx.1, hx.2⟩

lemma Tree.prune_confined : Confined used I s (s.prune A f (a d) g start) := by
  obtain ⟨-, hslots, hframes⟩ := ht.leaf_confined ha hd.le hf (.inr link_zero)
  refine ⟨rfl, hslots, fun x hu hr hx => ?_⟩
  obtain ⟨hm, -, htab⟩ := hframes x hu hr hx
  refine ⟨hm, hA.freed _ _ ⟨hu, ?_⟩, htab⟩
  rintro rfl
  exact hx (mem_tables ha hd ((table_succ hf).trans hg))

end

end

end Steps

end Anarch.PageTable
