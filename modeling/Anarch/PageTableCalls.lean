import Anarch.PageTablePaths

/-! `Set` is a way down and a write, `Unset` a write and a way up. -/
namespace Anarch.PageTable
open RadixTree

section
variable {α : Type} {A : AllocatorOps α} {used : α → Set Frame} {I : Set Index}
variable {pml4 : PhysAddr} {s t : State α} {addr : VirtAddr} {entry mask : Word} {d depth : ℕ}
variable {f g : Frame}

lemma aligned_of_set {r : Option Bool × State α}
    (h : set A pml4 addr entry mask depth s = .ok r) :
    depth < 4 ∧ addr % pageSizeAt depth = 0 := by
  obtain ⟨_, _, h⟩ := bind_eq_ok.mp h
  obtain ⟨_, hdepth, h⟩ := bind_eq_ok.mp h
  obtain ⟨_, halign, _⟩ := bind_eq_ok.mp h
  exact ⟨by simpa using hdepth, by simpa using halign⟩

lemma aligned_of_unset (h : unset A pml4 addr s = .ok t) : addr &&& 0xfff = 0 := by
  obtain ⟨_, _, h⟩ := bind_eq_ok.mp h
  obtain ⟨_, halign, _⟩ := bind_eq_ok.mp h
  simpa using halign

lemma leaf_of_unset (hself : link (s.mem s.root 0x1ff) = some s.root)
    (h : unset A pml4 addr s = .ok t) :
    (s.find (index addr)).1 = 3 ∨ isHuge (s.find (index addr)).2 = true := by
  obtain ⟨_, _, h⟩ := bind_eq_ok.mp h
  obtain ⟨_, _, h⟩ := bind_eq_ok.mp h
  obtain ⟨d, hd, _⟩ := bind_eq_ok.mp h
  by_contra hleaf
  have herr := (leafDepth_eq hself rfl (f := s.root) rfl).trans (if_neg hleaf)
  rw [herr] at hd
  cases hd

variable (entry) (hA : FrameContract A used) (ht : Tree used I s) (ha : index addr 0 ∈ I)
include ht ha

include hA in
lemma set_cases (hcr3 : s.cr3 = pml4) (hm : IsParentMask mask) (hd : depth ≤ 3)
    (halign : addr % pageSizeAt depth = 0) :
    (s.NoTable A addr depth ∧
      set A pml4 addr entry mask depth s = .error allocationFailed) ∨
    (∃ u g, Descent used (index addr) mask 0 s depth u ∧ u.tableAt (index addr) depth = some g ∧
      set A pml4 addr entry mask depth s =
        .ok (some (u.mem g (index addr depth) ≠ 0), u.put g (index addr depth) entry)) ∨
    ∃ t k g, set A pml4 addr entry mask depth s = .ok (none, t) ∧
      Descent used (index addr) mask 0 s k t ∧ k < depth ∧ t.tableAt (index addr) k = some g ∧
      isPresent (t.mem g (index addr k)) = true ∧ isHuge (t.mem g (index addr k)) = true := by
  have hset : isSet pml4 s = true := by simp [isSet, hcr3]
  have hguard : set A pml4 addr entry mask depth s = descend A addr mask depth 0 s >>= fun r =>
      if r.1 then do
        let old ← readWord r.2 (getTableEntry addr depth)
        let s ← writeWord r.2 (getTableEntry addr depth) entry
        return (some (decide (old ≠ 0)), s)
      else return (none, r.2) := by
    simp only [set, assertThat, hset, halign, decide_true, if_true, bind, Except.bind,
      decide_eq_true (show depth < 4 by omega)]
  rw [hguard]
  have hcases := descend_cases hA ht ha hm (n := depth) (d := 0) (by omega) rfl
  rw [DescendOutcome, Nat.zero_add] at hcases
  rcases hcases with ⟨hnone, herr⟩ | ⟨u, g, hok, hpath, hg⟩ | ⟨t, k, g, hok, hpath, hrest⟩
  · exact .inl ⟨hnone, by rw [herr]; rfl⟩
  · have hu := (hpath.tree hm ha ht).1
    refine .inr (.inl ⟨u, g, hpath, hg, ?_⟩)
    rw [hok]
    simp only [bind, Except.bind, if_true, readWord_entry hu.self (by omega : depth < 4) hg,
      writeWord_entry hu.self (by omega : depth < 4) hg]
    rfl
  · exact .inr (.inr ⟨t, k, g, by rw [hok]; rfl, hpath, hrest⟩)

include hA in
lemma ascend_cases (hd : d ≤ 3) (hf : s.tableAt (index addr) d = some f) :
    ∃ k t g, ascend A addr d s = .ok t ∧ Ascent A (index addr) d s k t ∧
      t.tableAt (index addr) k = some g ∧ (k = 0 ∨ ∃ i, t.mem g i ≠ 0) := by
  induction d generalizing s f with
  | zero => exact ⟨0, s, f, rfl, .done 0 s, hf, .inl rfl⟩
  | succ d ih =>
    have htable := access_getTableStart ht.self (by omega) hf
    by_cases hany : ∃ i, s.mem f i ≠ 0
    · refine ⟨d + 1, s, f, ?_, .done _ s, hf, .inr hany⟩
      rw [ascend, htable]
      simp only [bind, Except.bind, if_pos hany]
      rfl
    · obtain ⟨p, hp, hlink⟩ := table_succ_eq_some.mp hf
      have hzero : ∀ i, s.mem f i = 0 := by simpa using hany
      have hstep : ascend A addr (d + 1) s =
          ascend A addr d (s.prune A p (index addr d) f (getTableStart addr (d + 1))) := by
        rw [ascend, htable]
        simp only [bind, Except.bind, hany, if_false, readWord_entry ht.self (by omega) hp,
          writeWord_entry ht.self (by omega : d < 4) hp]
        rw [State.prune, ← ht.clean ha (by omega) hp hlink]
        rfl
      have hkeep : (s.prune A p (index addr d) f (getTableStart addr (d + 1))).tableAt
          (index addr) d = some p := ht.put_table ha (by omega) hp
      obtain ⟨k, t, g, hok, hpath, hrest⟩ :=
        ih (ht.prune ha (by omega) hp hlink hzero hA) (by omega) hkeep
      exact ⟨k, t, g, hstep.trans hok, .pruned (by omega) hp hlink hzero hpath, hrest⟩

include hA in
lemma unset_cases (hcr3 : s.cr3 = pml4) (halign : addr &&& 0xfff = 0)
    (hd : (s.find (index addr)).1 = d) (hend : d = 3 ∨ isHuge (s.find (index addr)).2 = true) :
    ∃ f k t g, s.tableAt (index addr) d = some f ∧ unset A pml4 addr s = .ok t ∧
      Ascent A (index addr) d (s.put f (index addr d) 0) k t ∧
      t.tableAt (index addr) k = some g ∧ (k = 0 ∨ ∃ i, t.mem g i ≠ 0) := by
  have hset : isSet pml4 s = true := by simp [isSet, hcr3]
  obtain ⟨hle, f, hf, he, -⟩ := find_spec s (index addr)
  rw [hd] at hle hf he
  have hleaf : leafDepth s addr 3 0 = .ok d :=
    (leafDepth_eq ht.self rfl (f := s.root) rfl).trans
      ((if_pos (hd.symm ▸ hend)).trans (congrArg Except.ok hd))
  have hput := ht.put_leaf ha hle hf (e := 0) (.inr link_zero)
  have hkeep : (s.put f (index addr d) 0).tableAt (index addr) d = some f := ht.put_table ha hle hf
  obtain ⟨k, t, g, hok, hpath, hrest⟩ := ascend_cases hA hput ha hle hkeep
  refine ⟨f, k, t, g, hf, ?_, hpath, hrest⟩
  simp only [unset, assertThat, hset, halign, decide_true, if_true, bind, Except.bind, hleaf,
    writeWord_entry ht.self (by omega : d < 4) hf, hok]

end

end Anarch.PageTable
