import Anarch.PageTableTree

/-! What the loops of the page-table code do to the tables: the way down of `Set`, the way up
of `Unset`, and the search of `Walk`. -/
namespace Anarch.PageTable
open RadixTree

section
variable {α : Type}

/-- The way down of `Set`: links get the mask, missing tables are made. -/
inductive Descent (used : α → Set Frame) (a : ℕ → Index) (mask : Word) :
    ℕ → State α → ℕ → State α → Prop
  | done (d : ℕ) (s : State α) : Descent used a mask d s d s
  | linked {d n : ℕ} {s t : State α} {f g : Frame} (hd : d < 3)
      (hf : s.tableAt a d = some f) (hg : link (s.mem f (a d)) = some g)
      (rest : Descent used a mask (d + 1) (s.put f (a d) (s.mem f (a d) ||| mask)) n t) :
      Descent used a mask d s n t
  | grown {d n : ℕ} {s t : State α} {f g : Frame} {alloc : α} (hd : d < 3)
      (hf : s.tableAt a d = some f) (habsent : isPresent (s.mem f (a d)) = false)
      (hg : g ∉ used s.alloc) (hsub : insert g (used s.alloc) ⊆ used alloc)
      (rest : Descent used a mask (d + 1) (s.grow f (a d) (frameAddr g ||| mask) g alloc) n t) :
      Descent used a mask d s n t

/-- The way up of `Unset`: empty tables are cut off and freed. -/
inductive Ascent (A : AllocatorOps α) (a : ℕ → Index) : ℕ → State α → ℕ → State α → Prop
  | done (d : ℕ) (s : State α) : Ascent A a d s d s
  | pruned {d n : ℕ} {s t : State α} {f g : Frame} {start : VirtAddr} (hd : d < 3)
      (hf : s.tableAt a d = some f) (hg : link (s.mem f (a d)) = some g)
      (hzero : ∀ i, s.mem g i = 0) (rest : Ascent A a d (s.prune A f (a d) g start) n t) :
      Ascent A a (d + 1) s n t

abbrev State.find (s : State α) (a : ℕ → Index) : ℕ × Word := RadixTree.find link s.root 3 s.mem a

/-- The number of tables that the way down to a depth lacks. -/
def State.missing (s : State α) (a : ℕ → Index) (depth : ℕ) : ℕ :=
  if isPresent (s.find a).2 then 0 else depth - (s.find a).1

/-- There is no frame for one of the tables that `Set` has to make. -/
def State.NoTable (A : AllocatorOps α) (s : State α) (addr : VirtAddr) (depth : ℕ) : Prop :=
  RunsOut A (s.missing (index addr) depth) s.alloc

/-- The panic of `Set` when a table cannot be made. -/
def allocationFailed : Fault := .panic "PageTable::Set() - allocation failed"

variable {A : AllocatorOps α} {used : α → Set Frame} {I : Set Index} {pml4 : PhysAddr}
variable {s t : State α} {a : ℕ → Index} {addr : VirtAddr} {mask : Word} {d k n : ℕ} {f g : Frame}

lemma find_spec (s : State α) (a : ℕ → Index) :
    (s.find a).1 ≤ 3 ∧ ∃ g, s.tableAt a (s.find a).1 = some g ∧
      (s.find a).2 = s.mem g (a (s.find a).1) ∧ ((s.find a).1 = 3 ∨ link (s.find a).2 = none) := by
  obtain ⟨k, g, hk, hg, hend⟩ := find_cases link s.root 3 s.mem a
  rw [State.find, find_eq hk hg hend]
  exact ⟨hk, g, hg, rfl, hend⟩

lemma link_none_of_absent {e : Word} (h : isPresent e = false) : link e = none :=
  link_eq_none.mpr (.inl h)

lemma Descent.tree (h : Descent used a mask d s n t) (hm : IsParentMask mask) (ha : a 0 ∈ I)
    (ht : Tree used I s) : Tree used I t ∧ Confined used I s t := by
  induction h with
  | done d s => exact ⟨ht, .refl s⟩
  | linked hd hf hg _ ih =>
    have hlink := (link_or hm hg).trans hg.symm
    obtain ⟨ht', hc⟩ := ih (ht.put_link ha hd hf hlink (tableAddr_or hm))
    refine ⟨ht', .trans (ht.put_confined ha hd.le hf ?_) hc⟩
    exact (tables_relabel hlink).subset
  | @grown d n s t f g alloc hd hf habsent hg hsub _ ih =>
    have hnone := link_none_of_absent habsent
    have hlink := link_frameAddr g hm
    have hclean := (tableAddr_or hm).trans (tableAddr_frameAddr g)
    obtain ⟨ht', hc⟩ := ih (ht.grow ha hd hf hlink hg hsub hnone hclean)
    exact ⟨ht', (ht.grow_confined ha hd hf hlink hg hsub hnone).trans hc⟩

lemma Ascent.tree (h : Ascent A a d s n t) (hA : FrameContract A used) (ha : a 0 ∈ I)
    (ht : Tree used I s) : Tree used I t ∧ Confined used I s t := by
  induction h with
  | done d s => exact ⟨ht, .refl s⟩
  | pruned hd hf hg hzero _ ih =>
    obtain ⟨ht', hc⟩ := ih (ht.prune ha hd hf hg hzero hA)
    exact ⟨ht', (ht.prune_confined ha hd hf hg hzero hA).trans hc⟩

section
variable (hself : link (s.mem s.root 0x1ff) = some s.root)
include hself

lemma walkFrom_eq (addr : VirtAddr) (entry : Word) (hd : d + n = 3) (hf : s.tableAt (index addr) d = some f) :
    walkFrom s addr (n + 1) d entry =
      .ok (if link (findFrom link s.mem (index addr) n d f).2 = none
        then findFrom link s.mem (index addr) n d f
        else (4, (findFrom link s.mem (index addr) n d f).2)) := by
  induction n generalizing d f entry with
  | zero =>
    obtain rfl : d = 3 := by omega
    rw [walkFrom, readWord_entry hself (by omega) hf]
    simp only [bind, Except.bind, pure, Except.pure, findFrom, walkFrom, link_eq_none]
    cases isHuge (s.mem f (index addr 3)) <;> cases isPresent (s.mem f (index addr 3)) <;> simp
  | succ n ih =>
    rw [walkFrom, readWord_entry hself (by omega) hf]
    cases hl : link (s.mem f (index addr d)) with
    | none =>
      have hend : (isHuge (s.mem f (index addr d)) || !isPresent (s.mem f (index addr d))) = true := by
        rcases link_eq_none.mp hl with h | h <;> simp [h]
      simp [findFrom_none hl, hl, hend, bind, Except.bind, pure, Except.pure]
    | some g =>
      obtain ⟨hp, hh, -⟩ := link_eq_some.mp hl
      rw [findFrom_some hl]
      simp only [bind, Except.bind, hp, hh, Bool.not_true, Bool.or_self, Bool.false_eq_true, if_false]
      exact ih _ (by omega) ((table_succ hf).trans hl)

/-- What `Walk` makes of the place where the links end. -/
def walkResult (found : ℕ × Word) : WalkResult :=
  ⟨if isHuge found.2 ∨ found.1 = 3 ∧ isPresent found.2 then some found.1 else none, found.2,
    pageSizeAt found.1⟩

theorem walk_eq (hcr3 : s.cr3 = pml4) (addr : VirtAddr) :
    walk pml4 addr s = .ok (walkResult (s.find (index addr))) := by
  have hset : isSet pml4 s = true := by simp [isSet, hcr3]
  have hwalk := walkFrom_eq hself addr 0 (n := 3) rfl (f := s.root) rfl
  obtain ⟨hle, -, -, -, hend⟩ := find_spec s (index addr)
  change walkFrom s addr 4 0 0 = .ok (if link (s.find (index addr)).2 = none
    then s.find (index addr) else (4, (s.find (index addr)).2)) at hwalk
  rw [walk, hwalk]
  generalize s.find (index addr) = found at *
  simp only [hset, assertThat, if_true, bind, Except.bind, pure, Except.pure]
  by_cases hl : link found.2 = none
  · have hne : found.1 ≠ 4 := by omega
    rcases link_eq_none.mp hl with hp | hh
    · cases hh : isHuge found.2 <;> simp [hl, hne, hp, hh, walkResult]
    · simp [hl, hne, hh, walkResult]
  · obtain ⟨g, hg⟩ := Option.ne_none_iff_exists'.mp hl
    obtain ⟨hp, hh, -⟩ := link_eq_some.mp hg
    simp [hl, hp, hh, hend.resolve_right hl, walkResult]

lemma leafDepth_eq (hd : d + n = 3) (hf : s.tableAt (index addr) d = some f) :
    leafDepth s addr n d =
      if (findFrom link s.mem (index addr) n d f).1 = 3 ∨
          isHuge (findFrom link s.mem (index addr) n d f).2 = true
      then .ok (findFrom link s.mem (index addr) n d f).1
      else .error (.panic "PageTable::Unset() - no mapping found") := by
  induction n generalizing d f with
  | zero =>
    obtain rfl : d = 3 := by omega
    simp [leafDepth, findFrom]
  | succ n ih =>
    rw [leafDepth, readWord_entry hself (by omega) hf]
    simp only [bind, Except.bind, pure, Except.pure]
    cases hl : link (s.mem f (index addr d)) with
    | none =>
      have hne : d ≠ 3 := by omega
      rw [findFrom_none hl]
      rcases link_eq_none.mp hl with hp | hh
      · cases isHuge (s.mem f (index addr d)) <;> simp [hp, hne]
      · simp [hh]
    | some g =>
      obtain ⟨hp, hh, -⟩ := link_eq_some.mp hl
      rw [findFrom_some hl]
      simp only [hp, hh, Bool.not_true, Bool.false_eq_true, if_false]
      exact ih (by omega) ((table_succ hf).trans hl)

end

/-- Out of frames, down to the depth, or stopped at a huge page. -/
def DescendOutcome (A : AllocatorOps α) (used : α → Set Frame) (addr : VirtAddr) (mask : Word)
    (n d : ℕ) (s : State α) : Prop :=
  (s.NoTable A addr (d + n) ∧ descend A addr mask n d s = .error allocationFailed) ∨
  (∃ t g, descend A addr mask n d s = .ok (true, t) ∧
    Descent used (index addr) mask d s (d + n) t ∧ t.tableAt (index addr) (d + n) = some g) ∨
  ∃ t k g, descend A addr mask n d s = .ok (false, t) ∧
    Descent used (index addr) mask d s k t ∧ k < d + n ∧ t.tableAt (index addr) k = some g ∧
    isPresent (t.mem g (index addr k)) = true ∧ isHuge (t.mem g (index addr k)) = true

lemma DescendOutcome.step (h : DescendOutcome A used addr mask n (d + 1) t)
    (hrun : descend A addr mask (n + 1) d s = descend A addr mask n (d + 1) t)
    (hout : t.NoTable A addr (d + (n + 1)) → s.NoTable A addr (d + (n + 1)))
    (hpath : ∀ k u, Descent used (index addr) mask (d + 1) t k u →
      Descent used (index addr) mask d s k u) :
    DescendOutcome A used addr mask (n + 1) d s := by
  have hsum : d + 1 + n = d + (n + 1) := by omega
  rw [DescendOutcome, hsum] at h
  rw [DescendOutcome, hrun]
  rcases h with ⟨h, herr⟩ | ⟨u, g, hok, hd, hg⟩ | ⟨u, k, g, hok, hd, hrest⟩
  · exact .inl ⟨hout h, herr⟩
  · exact .inr (.inl ⟨u, g, hok, hpath _ _ hd, hg⟩)
  · exact .inr (.inr ⟨u, k, g, hok, hpath _ _ hd, hrest⟩)

section
variable (hA : FrameContract A used) (ht : Tree used I s) (ha : index addr 0 ∈ I)
include ht

lemma descend_linked (hd : d < 3) (hf : s.tableAt (index addr) d = some f)
    (hp : isPresent (s.mem f (index addr d)) = true)
    (hh : isHuge (s.mem f (index addr d)) = false) :
    descend A addr mask (n + 1) d s = descend A addr mask n (d + 1)
      (s.put f (index addr d) (s.mem f (index addr d) ||| mask)) := by
  rw [descend, readWord_entry ht.self (by omega) hf]
  simp only [bind, Except.bind, hp, hh, Bool.not_true, Bool.false_eq_true, if_false,
    writeWord_entry ht.self (by omega : d < 4) hf]

include ha

lemma descend_grown (hm : IsParentMask mask) (hd : d < 3)
    (hf : s.tableAt (index addr) d = some f) (hp : isPresent (s.mem f (index addr d)) = false)
    {alloc : α} (halloc : A.alloc 0x1000 0x1000 s.alloc = (some (frameAddr g), alloc)) :
    descend A addr mask (n + 1) d s = descend A addr mask n (d + 1)
      (s.grow f (index addr d) (frameAddr g ||| mask) g alloc) := by
  let s' : State α := { s with alloc, calls := s.calls ++ [.obtained (frameAddr g)] }
  have hwrite := writeWord_entry (s := s') ht.self (by omega : d < 4) hf (frameAddr g ||| mask)
  have hself' : link ((s'.put f (index addr d) (frameAddr g ||| mask)).mem s'.root 0x1ff) =
    some s'.root := ht.put_self ha hd.le hf
  have hnext : (s'.put f (index addr d) (frameAddr g ||| mask)).tableAt (index addr) (d + 1) =
      some g :=
    (table_succ (ht.put_table ha hd.le hf)).trans (by rw [put_mem, write_self, link_frameAddr g hm])
  rw [descend, readWord_entry ht.self (by omega) hf]
  simp only [bind, Except.bind, hp, Bool.not_false, if_true]
  rw [halloc]
  simp only [s', hwrite]
  rw [zeroPage_table hself' (by omega) hnext]
  rfl

lemma noTable_put_link (hd : d < 3) (hf : s.tableAt (index addr) d = some f)
    (hg : link (s.mem f (index addr d)) = some g) {e : Word}
    (hlink : link e = link (s.mem f (index addr d))) :
    (s.put f (index addr d) e).NoTable A addr n ↔ s.NoTable A addr n := by
  have hfind : (s.put f (index addr d) e).find (index addr) = s.find (index addr) :=
    find_relabel ht.separate ha ha hd hf hlink (by rw [hg]; exact Option.some_ne_none g)
  rw [State.NoTable, State.missing, hfind]
  rfl

lemma noTable_grow (hd : d < 3) (hf : s.tableAt (index addr) d = some f)
    (hp : isPresent (s.mem f (index addr d)) = false) {e : Word} (he : link e = some g)
    (hg : g ∉ used s.alloc) {alloc : α}
    (halloc : A.alloc 0x1000 0x1000 s.alloc = (some (frameAddr g), alloc)) :
    (s.grow f (index addr d) e g alloc).NoTable A addr (d + (n + 1)) ↔
      s.NoTable A addr (d + (n + 1)) := by
  have hend : s.find (index addr) = (d, s.mem f (index addr d)) :=
    find_eq hd.le hf (.inr (link_none_of_absent hp))
  have hnew : (s.grow f (index addr d) e g alloc).find (index addr) = (d + 1, 0) :=
    find_grow_on ht.separate ha ha hd hf he link_zero (ht.unused hg) fun _ _ => rfl
  have hzero : isPresent 0 = false := rfl
  have hleft : d + (n + 1) - (d + 1) = n := by omega
  rw [State.NoTable, State.NoTable, State.missing, State.missing, hend, hnew, hp, hzero,
    if_neg Bool.false_ne_true, if_neg Bool.false_ne_true, hleft, Nat.add_sub_cancel_left, RunsOut,
    halloc]
  exact (or_iff_right (Option.some_ne_none _)).symm

include hA in
/-- `Set` goes down to the depth, stops at a huge page, or runs out of frames. -/
lemma descend_cases (hm : IsParentMask mask) (hn : d + n ≤ 3)
    (hf : s.tableAt (index addr) d = some f) : DescendOutcome A used addr mask n d s := by
  induction n generalizing d s f with
  | zero => exact .inr (.inl ⟨s, f, rfl, .done d s, hf⟩)
  | succ n ih =>
    have hd : d < 3 := by omega
    have hread := readWord_entry ht.self (by omega) hf
    cases hp : isPresent (s.mem f (index addr d)) with
    | false =>
      rcases halloc : A.alloc 0x1000 0x1000 s.alloc with ⟨fresh, alloc⟩
      cases fresh with
      | none =>
        have hend : s.find (index addr) = (d, s.mem f (index addr d)) :=
          find_eq hd.le hf (.inr (link_none_of_absent hp))
        refine .inl ⟨?_, ?_⟩
        · rw [State.NoTable, State.missing, hend, hp, if_neg Bool.false_ne_true,
            Nat.add_sub_cancel_left, RunsOut, halloc]
          exact .inl rfl
        rw [descend, hread]
        simp only [bind, Except.bind, hp, Bool.not_false, if_true]
        rw [halloc]
        rfl
      | some p =>
        obtain ⟨g, rfl, hg, hsub⟩ := hA.fresh halloc
        have hlink := link_frameAddr g hm
        have hgrow := ht.grow ha hd hf hlink hg hsub (link_none_of_absent hp)
          ((tableAddr_or hm).trans (tableAddr_frameAddr g))
        exact (ih hgrow (by omega) (ht.grow_table ha hd hf hlink hg)).step
          (descend_grown ht ha hm hd hf hp halloc)
          (noTable_grow ht ha hd hf hp hlink hg halloc).mp
          fun k u h => .grown hd hf hp hg hsub h
    | true =>
      cases hh : isHuge (s.mem f (index addr d)) with
      | true =>
        refine .inr (.inr ⟨s, d, f, ?_, .done d s, by omega, hf, hp, hh⟩)
        simp [descend, hread, hp, hh, bind, Except.bind, pure, Except.pure]
      | false =>
        have hlink := link_eq_some.mpr ⟨hp, hh, rfl⟩
        have hsame := (link_or hm hlink).trans hlink.symm
        have hput := ht.put_link ha hd hf hsame (tableAddr_or hm)
        have hnext := ((table_relabel hsame).trans (table_succ hf)).trans hlink
        exact (ih hput (by omega) hnext).step (descend_linked ht hd hf hp hh)
          (noTable_put_link ht ha hd hf hlink hsame).mp fun k u h => .linked hd hf hlink h

end

end

end Anarch.PageTable
