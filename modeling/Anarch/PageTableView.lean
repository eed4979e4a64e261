import Anarch.PageTableCalls

/-! The map from addresses to leaf entries that `Walk` shows, and how it changes on the way
down, at a write and on the way up. -/
namespace Anarch.PageTable
open RadixTree

/-- The leaf at the end of the links, if there is one. -/
def leafOf (found : ℕ × Word) : Option (ℕ × Word) :=
  if isHuge found.2 ∨ found.1 = 3 ∧ isPresent found.2 then some found else none

lemma leafOf_zero {found : ℕ × Word} (h : found.2 = 0) : leafOf found = none := by
  rw [leafOf, h]
  exact if_neg (by simp [isHuge, isPresent])

lemma leafOf_absent {found : ℕ × Word} (hp : isPresent found.2 = false)
    (hh : isHuge found.2 = false) : leafOf found = none := by simp [leafOf, hp, hh]

lemma leafOf_eq_some {found leaf : ℕ × Word} :
    leafOf found = some leaf ↔
      found = leaf ∧ (isHuge leaf.2 ∨ leaf.1 = 3 ∧ isPresent leaf.2) := by
  rw [leafOf]
  constructor
  · intro h
    split_ifs at h with hl
    obtain rfl := Option.some.inj h
    exact ⟨rfl, hl⟩
  · rintro ⟨rfl, hl⟩
    exact if_pos hl

section
variable {α : Type} {A : AllocatorOps α} {used : α → Set Frame} {I : Set Index}
variable {s t : State α} {a b : ℕ → Index} {e mask : Word} {d n : ℕ} {f g : Frame}

def State.leaf (s : State α) (a : ℕ → Index) : Option (ℕ × Word) := leafOf (s.find a)

lemma find_congr (s : State α) (h : Agree ((s.find a).1 + 1) a b) : s.find b = s.find a := by
  obtain ⟨hle, g, hg, he, hend⟩ := find_spec s a
  rw [State.find, find_agree hle hg (he ▸ hend) h, ← he]

lemma find_of_absent (hd : d ≤ 3) (hf : s.tableAt a d = some f)
    (he : d = 3 ∨ link (s.mem f (a d)) = none) : s.find a = (d, s.mem f (a d)) :=
  find_eq hd hf he

lemma le_find (hd : d ≤ 3) (hf : s.tableAt a d = some f) : d ≤ (s.find a).1 := by
  obtain ⟨-, g, hg, he, hend⟩ := find_spec s a
  by_contra hlt
  have hnone := hend.resolve_left (by omega)
  have hcut : s.tableAt a d = none :=
    table_none_below hg (he ▸ hnone) (fun _ _ => rfl) (not_le.mp hlt)
  rw [hcut] at hf
  cases hf

lemma Descent.le (h : Descent used a mask d s n t) : d ≤ n := by
  induction h with
  | done => exact le_rfl
  | linked _ _ _ _ ih => omega
  | grown _ _ _ _ _ _ ih => omega

section
variable (ht : Tree used I s) (ha : a 0 ∈ I) (hb : b 0 ∈ I)
include ht ha hb

/-- The way down changes no search but those that ended at the first missing table, and
these now find zeros. -/
lemma Descent.find (h : Descent used a mask d s n t) (hm : IsParentMask mask) :
    t.find b = s.find b ∨ Agree ((s.find a).1 + 1) a b ∧ (s.find a).1 < n ∧
      isPresent (s.find a).2 = false ∧ (t.find b).2 = 0 := by
  induction h with
  | done => exact .inl rfl
  | @linked d n s t f g hd hf hg rest ih =>
    have hlink := (link_or hm hg).trans hg.symm
    have hsame : ∀ c : ℕ → Index, c 0 ∈ I →
        (s.put f (a d) (s.mem f (a d) ||| mask)).find c = s.find c := fun c hc =>
      find_relabel ht.separate ha hc hd hf hlink (by rw [hg]; exact Option.some_ne_none g)
    have := ih (ht.put_link ha hd hf hlink (tableAddr_or hm))
    rwa [hsame b hb, hsame a ha] at this
  | @grown d n s t f g alloc hd hf habsent hg hsub rest ih =>
    have hnone := link_none_of_absent habsent
    have hlink := link_frameAddr g hm
    have hunused := ht.unused hg
    have hend : s.find a = (d, s.mem f (a d)) := find_of_absent hd.le hf (.inr hnone)
    have hon : ∀ c : ℕ → Index, c 0 ∈ I → Agree (d + 1) a c →
        (s.grow f (a d) (frameAddr g ||| mask) g alloc).find c = (d + 1, 0) := fun c hc h =>
      find_grow_on ht.separate ha hc hd hf hlink link_zero hunused h
    have htree := ht.grow ha hd hf hlink hg hsub hnone
      ((tableAddr_or hm).trans (tableAddr_frameAddr g))
    have hlt : d < n := rest.le
    rw [hend]
    rcases ih htree with hfind | ⟨hagree, -, -, hzero⟩
    · by_cases h : Agree (d + 1) a b
      · exact .inr ⟨h, hlt, habsent, by rw [hfind, hon b hb h]⟩
      · exact .inl (hfind.trans
          (find_grow_off ht.separate ha hb hd hf hlink link_zero hunused h))
    · rw [hon a ha fun _ _ => rfl] at hagree
      exact .inr ⟨hagree.mono (by omega), hlt, habsent, hzero⟩

omit hb in
/-- The way down itself ends where the search ended before, or at a zero at its end. -/
lemma Descent.find_end (h : Descent used a mask d s n t) (hm : IsParentMask mask) (hn : n ≤ 3)
    (hg : t.tableAt a n = some g) : t.find a = s.find a ∨ t.find a = (n, 0) := by
  induction h with
  | done => exact .inl rfl
  | @linked d n s t f g' hd hf hg' rest ih =>
    have hlink := (link_or hm hg').trans hg'.symm
    have hsame := find_relabel ht.separate ha ha hd hf hlink
      (by rw [hg']; exact Option.some_ne_none g')
    exact (ih (ht.put_link ha hd hf hlink (tableAddr_or hm)) hn hg).imp (·.trans hsame) id
  | @grown d n s t f g' alloc hd hf habsent hg' hsub rest ih =>
    have hlink := link_frameAddr g' hm
    have hon : (s.grow f (a d) (frameAddr g' ||| mask) g' alloc).find a = (d + 1, 0) :=
      find_grow_on ht.separate ha ha hd hf hlink link_zero (ht.unused hg') fun _ _ => rfl
    have htree := ht.grow ha hd hf hlink hg' hsub (link_none_of_absent habsent)
      ((tableAddr_or hm).trans (tableAddr_frameAddr g'))
    right
    rcases ih htree hn hg with h | h
    · have hle := le_find hn hg
      rw [h, hon] at hle
      have hend : n = d + 1 := le_antisymm hle rest.le
      rw [h, hon, hend]
    · exact h

lemma Ascent.find (h : Ascent A a d s n t) (hA : FrameContract A used) :
    t.find b = s.find b ∨ (s.find b).2 = 0 ∧ (t.find b).2 = 0 := by
  induction h with
  | done => exact .inl rfl
  | @pruned d n s t f g start hd hf hg hzero _ ih =>
    have hstep : (s.prune A f (a d) g start).find b = s.find b ∨
        (s.find b).2 = 0 ∧ ((s.prune A f (a d) g start).find b).2 = 0 := by
      by_cases hon : Agree (d + 1) a b
      · have hbg : s.tableAt b (d + 1) = some g :=
          (table_congr hon).symm.trans ((table_succ hf).trans hg)
        have hend := find_of_absent (by omega) hbg (.inr (by rw [hzero]; rfl))
        have hnew : (s.prune A f (a d) g start).find b = (d, 0) :=
          find_write_on ht.separate ha hd.le hf (.inr link_zero) hon
        exact .inr ⟨by rw [hend, hzero], by rw [hnew]⟩
      · exact .inl (find_write_off ht.separate ha hb hd.le hf hon)
    rcases ih (ht.prune ha hd hf hg hzero hA) with h | ⟨h, h'⟩
    · rwa [h]
    · rcases hstep with hs | ⟨hs, -⟩
      · exact .inr ⟨hs ▸ h, h'⟩
      · exact .inr ⟨hs, h'⟩

/-- Unless it replaces an absent large leaf, the way down keeps every leaf. -/
lemma Descent.leaf (h : Descent used a mask d s n t) (hm : IsParentMask mask)
    (hplain : (s.find a).1 < n → isPresent (s.find a).2 = false → isHuge (s.find a).2 = false) :
    t.leaf b = s.leaf b := by
  rcases h.find ht ha hb hm with hsame | ⟨hagree, hlt, habsent, hzero⟩
  · rw [State.leaf, State.leaf, hsame]
  · rw [State.leaf, leafOf_zero hzero, State.leaf, find_congr s hagree,
      leafOf_absent habsent (hplain hlt habsent)]

lemma Ascent.leaf (h : Ascent A a d s n t) (hA : FrameContract A used) :
    t.leaf b = s.leaf b := by
  rcases h.find ht ha hb hA with hsame | ⟨hs, ht⟩
  · rw [State.leaf, State.leaf, hsame]
  · rw [State.leaf, State.leaf, leafOf_zero hs, leafOf_zero ht]

end

lemma Tree.find_put (ht : Tree used I s) (ha : a 0 ∈ I) (hb : b 0 ∈ I) (hd : d ≤ 3)
    (hf : s.tableAt a d = some f) (he : d = 3 ∨ link e = none) :
    (s.put f (a d) e).find b = if Agree (d + 1) a b then (d, e) else s.find b := by
  split_ifs with hon
  · exact find_write_on ht.separate ha hd hf he hon
  · exact find_write_off ht.separate ha hb hd hf hon

section
variable {pml4 : PhysAddr} {addr : VirtAddr} {entry : Word} {depth : ℕ}
variable (hA : FrameContract A used) (ht : Tree used I s) (ha : index addr 0 ∈ I)
include hA ht ha

/-- `Set` fails below a present large page and then changes no search; else it puts the
entry, and only searches that ended at a missing table on its way can end elsewhere. -/
theorem set_view (hcr3 : s.cr3 = pml4) (hm : IsParentMask mask) (hd : depth ≤ 3)
    (halign : addr % pageSizeAt depth = 0) (he : depth = 3 ∨ link entry = none) :
    (s.NoTable A addr depth ∧
      set A pml4 addr entry mask depth s = .error allocationFailed) ∨
    (∃ t, set A pml4 addr entry mask depth s = .ok (none, t) ∧ Tree used I t ∧
      Confined used I s t ∧ (s.find (index addr)).1 < depth ∧
      isPresent (s.find (index addr)).2 = true ∧ ∀ b, b 0 ∈ I → t.find b = s.find b) ∨
    ∃ w t, set A pml4 addr entry mask depth s = .ok (some w, t) ∧ Tree used I t ∧
      Confined used I s t ∧
      ((s.find (index addr)).1 < depth → isPresent (s.find (index addr)).2 = false) ∧
      (∀ b, b 0 ∈ I → Agree (depth + 1) (index addr) b → t.find b = (depth, entry)) ∧
      ∀ b, b 0 ∈ I → ¬ Agree (depth + 1) (index addr) b → t.find b = s.find b ∨
        Agree ((s.find (index addr)).1 + 1) (index addr) b ∧ (s.find (index addr)).1 < depth ∧
          isPresent (s.find (index addr)).2 = false ∧ (t.find b).2 = 0 := by
  rcases set_cases entry hA ht ha hcr3 hm hd halign with h | ⟨u, g, hpath, hg, hok⟩ |
    ⟨t, k, g, hok, hpath, hk, hg, hp, hh⟩
  · exact .inl h
  · obtain ⟨hu, hc⟩ := hpath.tree hm ha ht
    refine .inr (.inr ⟨_, _, hok, hu.put_leaf ha hd hg he, hc.trans (hu.leaf_confined ha hd hg he),
      fun hlt => ?_, fun b hb hon => ?_, fun b hb hoff => ?_⟩)
    · rcases hpath.find ht ha ha hm with hsame | ⟨-, -, habsent, -⟩
      · have := le_find hd hg
        rw [hsame] at this
        omega
      · exact habsent
    · rw [hu.find_put ha hb hd hg he, if_pos hon]
    · rw [hu.find_put ha hb hd hg he, if_neg hoff]
      exact hpath.find ht ha hb hm
  · obtain ⟨ht', hc⟩ := hpath.tree hm ha ht
    have hend : t.find (index addr) = (k, t.mem g (index addr k)) :=
      find_of_absent (by omega) hg (.inr (link_eq_none.mpr (.inr hh)))
    have hsame : t.find (index addr) = s.find (index addr) := by
      rcases hpath.find ht ha ha hm with hsame | ⟨-, -, -, hzero⟩
      · exact hsame
      · rw [hend] at hzero
        have habsent : isPresent (t.mem g (index addr k)) = false := by
          rw [show t.mem g (index addr k) = 0 from hzero]
          rfl
        rw [habsent] at hp
        cases hp
    rw [hsame] at hend
    refine .inr (.inl ⟨t, hok, ht', hc, by rw [hend]; exact hk, by rw [hend]; exact hp,
      fun b hb => ?_⟩)
    rcases hpath.find ht ha hb hm with h | ⟨-, -, habsent, -⟩
    · exact h
    · rw [hend] at habsent
      rw [show isPresent (t.mem g (index addr k)) = false from habsent] at hp
      cases hp

/-- `Unset` of a leaf takes it away and changes no other search but of absent entries. -/
theorem unset_view (hcr3 : s.cr3 = pml4) (halign : addr &&& 0xfff = 0)
    (hleaf : (s.find (index addr)).1 = 3 ∨ isHuge (s.find (index addr)).2 = true) :
    ∃ t, unset A pml4 addr s = .ok t ∧ Tree used I t ∧ Confined used I s t ∧
      (∀ b, b 0 ∈ I → Agree ((s.find (index addr)).1 + 1) (index addr) b → (t.find b).2 = 0) ∧
      ∀ b, b 0 ∈ I → ¬ Agree ((s.find (index addr)).1 + 1) (index addr) b →
        t.find b = s.find b ∨ (s.find b).2 = 0 ∧ (t.find b).2 = 0 := by
  obtain ⟨f, k, t, g, hf, hok, hpath, -, -⟩ := unset_cases hA ht ha hcr3 halign rfl hleaf
  have hle := (find_spec s (index addr)).1
  have hput := ht.put_leaf ha hle hf (e := 0) (.inr link_zero)
  obtain ⟨ht', hc⟩ := hpath.tree hA ha hput
  refine ⟨t, hok, ht', (ht.leaf_confined ha hle hf (.inr link_zero)).trans hc,
    fun b hb hon => ?_, fun b hb hoff => ?_⟩
  · rcases hpath.find hput ha hb hA with h | ⟨-, h⟩
    · rw [h, ht.find_put ha hb hle hf (.inr link_zero), if_pos hon]
    · exact h
  · have := hpath.find hput ha hb hA
    rwa [ht.find_put ha hb hle hf (.inr link_zero), if_neg hoff] at this

lemma Tree.set (hcr3 : s.cr3 = pml4) (hm : IsParentMask mask) (he : depth = 3 ∨ link entry = none)
    {w : Option Bool} (hok : set A pml4 addr entry mask depth s = .ok (w, t)) :
    Tree used I t ∧ Confined used I s t := by
  obtain ⟨hd, halign⟩ := aligned_of_set hok
  rcases set_view hA ht ha hcr3 hm (by omega) halign he with ⟨-, herr⟩ | ⟨t', hok', ht', hc, -⟩ |
    ⟨w', t', hok', ht', hc, -⟩
  · rw [herr] at hok
    cases hok
  all_goals
    obtain ⟨-, rfl⟩ := Prod.mk.inj (Except.ok.inj (hok'.symm.trans hok))
    exact ⟨ht', hc⟩

lemma Tree.unset (hcr3 : s.cr3 = pml4) (hok : unset A pml4 addr s = .ok t) :
    Tree used I t ∧ Confined used I s t := by
  obtain ⟨t', hok', ht', hc, -⟩ := unset_view hA ht ha hcr3 (aligned_of_unset hok)
    (leaf_of_unset ht.self hok)
  obtain rfl := Except.ok.inj (hok'.symm.trans hok)
  exact ⟨ht', hc⟩

end

end

end Anarch.PageTable
