import Mathlib.Data.List.InsertIdx
import Mathlib.Order.Interval.Set.Disjoint
import Mathlib.Data.Set.Lattice
import Mathlib.Order.CompletePartialOrder
import Mathlib.Tactic.Tauto

/-! Finite unions of half-open intervals over a linear order, and the ledger of a pool
of such intervals from which disjoint pieces are taken and to which they are given back. -/
namespace Anarch.IntervalCover
variable {α : Type*} [LinearOrder α]

/-- The points in some interval of the list. -/
def cover (spans : List (α × α)) : Set α := {x | ∃ s ∈ spans, x ∈ Set.Ico s.1 s.2}

@[simp] lemma cover_nil : cover ([] : List (α × α)) = ∅ := by simp [cover]

@[simp] lemma cover_cons (s : α × α) (spans : List (α × α)) :
    cover (s :: spans) = Set.Ico s.1 s.2 ∪ cover spans := by
  ext x
  simp [cover]

lemma cover_append (xs ys : List (α × α)) : cover (xs ++ ys) = cover xs ∪ cover ys := by
  ext x
  simp [cover, or_and_right, exists_or]

lemma subset_cover {s : α × α} {spans : List (α × α)} (hs : s ∈ spans) :
    Set.Ico s.1 s.2 ⊆ cover spans := fun _ hx => ⟨s, hs, hx⟩

/-- Every interval lies strictly after the end of the ones before it. -/
def Separated (spans : List (α × α)) : Prop := spans.Pairwise fun a b => a.2 < b.1

def Proper (spans : List (α × α)) : Prop := ∀ s ∈ spans, s.1 < s.2

lemma Separated.lt_of_mem_cover {s : α × α} {spans : List (α × α)}
    (h : Separated (s :: spans)) {x : α} (hx : x ∈ cover spans) : s.2 < x := by
  obtain ⟨t, ht, hx⟩ := hx
  exact (List.rel_of_pairwise_cons h ht).trans_le hx.1

lemma separated_cons_iff {s : α × α} {spans : List (α × α)} (hp : Proper spans) :
    Separated (s :: spans) ↔ (∀ x ∈ cover spans, s.2 < x) ∧ Separated spans := by
  constructor
  · exact fun h => ⟨fun x hx => h.lt_of_mem_cover hx, (List.pairwise_cons.mp h).2⟩
  · rintro ⟨h, hs⟩
    refine List.pairwise_cons.mpr ⟨fun t ht => h t.1 ⟨t, ht, le_rfl, hp t ht⟩, hs⟩

/-- The first interval may be replaced by separated pieces that stay inside it. -/
lemma Separated.replace_head {s : α × α} {pieces spans : List (α × α)}
    (h : Separated (s :: spans)) (hp : Separated pieces) (hin : ∀ p ∈ pieces, p.2 ≤ s.2) :
    Separated (pieces ++ spans) := by
  obtain ⟨hs, hr⟩ := List.pairwise_cons.mp h
  exact List.pairwise_append.mpr ⟨hp, hr, fun p hp t ht => (hin p hp).trans_lt (hs t ht)⟩

lemma Separated.disjoint_head {s : α × α} {spans : List (α × α)}
    (h : Separated (s :: spans)) : Disjoint (Set.Ico s.1 s.2) (cover spans) := by
  rw [Set.disjoint_left]
  intro x hx hc
  exact absurd (h.lt_of_mem_cover hc) (not_lt.mpr hx.2.le)

lemma Separated.exists_of_subset {spans : List (α × α)} (h : Separated spans) {a b : α}
    (hab : a < b) (hin : Set.Ico a b ⊆ cover spans) : ∃ s ∈ spans, s.1 ≤ a ∧ b ≤ s.2 := by
  induction spans with
  | nil => simpa using hin ⟨le_rfl, hab⟩
  | cons s rest ih =>
    rw [cover_cons] at hin
    rcases hin ⟨le_rfl, hab⟩ with ha | ha
    · refine ⟨s, List.mem_cons_self, ha.1, not_lt.mp fun hb => ?_⟩
      rcases hin ⟨ha.2.le, hb⟩ with hs | hs
      · exact lt_irrefl _ hs.2
      · exact lt_irrefl _ (h.lt_of_mem_cover hs)
    · have hlt := h.lt_of_mem_cover ha
      have hrest : Set.Ico a b ⊆ cover rest := fun x hx =>
        (hin hx).resolve_left fun hs => lt_asymm (hlt.trans_le hx.1) hs.2
      obtain ⟨t, ht, hle⟩ := ih (List.pairwise_cons.mp h).2 hrest
      exact ⟨t, List.mem_cons_of_mem s ht, hle⟩

lemma Ico_union_adjacent {a b c : α} (hab : a ≤ b) (hbc : b ≤ c) :
    Set.Ico a b ∪ Set.Ico b c = Set.Ico a c := Set.Ico_union_Ico_eq_Ico hab hbc

lemma Ico_diff_piece {a b c d : α} (hab : a ≤ b) (hcd : c ≤ d) (hbc : b ≤ c) :
    Set.Ico a d \ Set.Ico b c = Set.Ico a b ∪ Set.Ico c d := by
  ext x
  simp only [Set.mem_sdiff, Set.mem_Ico, Set.mem_union, not_and, not_lt]
  constructor
  · rintro ⟨⟨ha, hd⟩, hn⟩
    rcases lt_or_ge x b with h | h
    · exact .inl ⟨ha, h⟩
    · exact .inr ⟨hn h, hd⟩
  · rintro (⟨ha, hb⟩ | ⟨hc, hd⟩)
    · exact ⟨⟨ha, hb.trans_le (hbc.trans hcd)⟩, fun h => absurd hb (not_lt.mpr h)⟩
    · exact ⟨⟨(hab.trans hbc).trans hc, hd⟩, fun _ => hc⟩

def DisjointSpans (spans : List (α × α)) : Prop :=
  spans.Pairwise fun a b => Disjoint (Set.Ico a.1 a.2) (Set.Ico b.1 b.2)

lemma disjoint_cover_iff {s : Set α} {spans : List (α × α)} :
    Disjoint s (cover spans) ↔ ∀ t ∈ spans, Disjoint s (Set.Ico t.1 t.2) := by
  simp only [Set.disjoint_left, cover, Set.mem_ofPred_eq, not_exists, not_and]
  exact ⟨fun h t ht x hx => h hx t ht, fun h x hx t ht => h t ht hx⟩

lemma DisjointSpans.cover_erase {spans : List (α × α)} (h : DisjointSpans spans)
    {s : α × α} (hs : s ∈ spans) : cover (spans.erase s) = cover spans \ Set.Ico s.1 s.2 := by
  induction spans with
  | nil => simp at hs
  | cons t ts ih =>
    obtain ⟨ht, hts⟩ := List.pairwise_cons.mp h
    by_cases he : t = s
    · subst he
      have hd : Disjoint (Set.Ico t.1 t.2) (cover ts) := disjoint_cover_iff.mpr ht
      rw [List.erase_cons_head, cover_cons, Set.union_sdiff_left, hd.sdiff_eq_right]
    · have hs' : s ∈ ts := (List.mem_cons.mp hs).resolve_left (Ne.symm he)
      have hd : Disjoint (Set.Ico t.1 t.2) (Set.Ico s.1 s.2) := ht s hs'
      rw [List.erase_cons_tail (by simpa using he), cover_cons, cover_cons, ih hts hs',
        Set.union_sdiff_distrib, hd.sdiff_eq_left]

lemma DisjointSpans.perm {xs ys : List (α × α)} (h : DisjointSpans xs) (hp : xs.Perm ys) :
    DisjointSpans ys := (hp.pairwise_iff fun hd => hd.symm).mp h

lemma cover_perm {xs ys : List (α × α)} (hp : xs.Perm ys) : cover xs = cover ys := by
  ext x
  simp only [cover, hp.mem_iff]

/-- Every interval starts at or after the end of the ones before it. -/
def Ordered (spans : List (α × α)) : Prop := spans.Pairwise fun a b => a.2 ≤ b.1

lemma Ordered.disjoint {spans : List (α × α)} (h : Ordered spans) : DisjointSpans spans :=
  h.imp fun {_ _} hab => Set.disjoint_left.mpr fun _ hx hy => absurd (hx.2.trans_le hab) (not_lt.mpr hy.1)

/-- An interval put in front of the first one that starts later. -/
def insertSpan (s : α × α) (spans : List (α × α)) : List (α × α) :=
  spans.insertIdx (spans.findIdx fun t => s.1 < t.1) s

lemma insertSpan_cons (s t : α × α) (spans : List (α × α)) : insertSpan s (t :: spans) =
    if s.1 < t.1 then s :: t :: spans else t :: insertSpan s spans := by
  unfold insertSpan
  rw [List.findIdx_cons]
  by_cases h : s.1 < t.1
  · simp [h]
  · simp [h, List.insertIdx_succ_cons]

lemma insertSpan_perm (s : α × α) (spans : List (α × α)) :
    (insertSpan s spans).Perm (s :: spans) := List.perm_insertIdx _ _ List.findIdx_le_length

lemma le_of_lt_of_disjoint {s t : α × α} (hlt : s.1 < t.1) (ht : t.1 < t.2)
    (hd : Disjoint (Set.Ico s.1 s.2) (Set.Ico t.1 t.2)) : s.2 ≤ t.1 :=
  not_lt.mp fun h => Set.disjoint_left.mp hd ⟨hlt.le, h⟩ ⟨le_rfl, ht⟩

/-- Ordered intervals stay ordered when one more that is disjoint from them is inserted. -/
theorem Ordered.insertSpan {s : α × α} {spans : List (α × α)} (h : Ordered spans)
    (hp : Proper (s :: spans)) (hd : DisjointSpans (s :: spans)) :
    Ordered (insertSpan s spans) := by
  induction spans with
  | nil => exact List.pairwise_singleton _ _
  | cons t spans ih =>
    obtain ⟨ht, hrest⟩ := List.pairwise_cons.mp h
    obtain ⟨hs, htail⟩ := List.pairwise_cons.mp hd
    have hst := hs t List.mem_cons_self
    have hps := hp s List.mem_cons_self
    have hpt := hp t (List.mem_cons_of_mem s List.mem_cons_self)
    rw [insertSpan_cons]
    split_ifs with hlt
    · have hle := le_of_lt_of_disjoint hlt hpt hst
      refine List.pairwise_cons.mpr ⟨fun u hu => ?_, h⟩
      rcases List.mem_cons.mp hu with rfl | hu
      · exact hle
      · exact (hle.trans hpt.le).trans (ht u hu)
    · have hne : t.1 ≠ s.1 := fun he =>
        Set.disjoint_left.mp hst ⟨le_rfl, hps⟩ (by rw [← he]; exact ⟨le_rfl, hpt⟩)
      have hle := le_of_lt_of_disjoint (lt_of_le_of_ne (not_lt.mp hlt) hne) hps hst.symm
      have hd' : DisjointSpans (s :: spans) := List.pairwise_cons.mpr
        ⟨fun u hu => hs u (List.mem_cons_of_mem t hu), (List.pairwise_cons.mp htail).2⟩
      have hp' : Proper (s :: spans) := fun u hu => hp u (by
        rcases List.mem_cons.mp hu with rfl | hu
        · exact List.mem_cons_self
        · exact List.mem_cons_of_mem _ (List.mem_cons_of_mem _ hu))
      refine List.pairwise_cons.mpr ⟨fun u hu => ?_, ih hrest hp' hd'⟩
      rcases List.mem_cons.mp ((insertSpan_perm s spans).mem_iff.mp hu) with rfl | hu
      · exact hle
      · exact ht u hu

/-- A pool of points: the intervals put in so far, the points still free, and the
intervals taken out and not yet given back. The last three fields say that no point is
lost and none is out twice. -/
structure Pool (α : Type*) [LinearOrder α] where
  total : List (α × α)
  free : Set α
  live : List (α × α)
  live_disjoint : DisjointSpans live
  live_inside : cover live ⊆ cover total
  free_exact : free = cover total \ cover live

namespace Pool

def empty : Pool α where
  total := []
  free := ∅
  live := []
  live_disjoint := List.Pairwise.nil
  live_inside := by simp
  free_exact := by simp

lemma free_subset (p : Pool α) : p.free ⊆ cover p.total := by
  rw [p.free_exact]
  exact Set.sdiff_subset

lemma live_disjoint_free (p : Pool α) {s : α × α} (hs : s ∈ p.live) :
    Disjoint (Set.Ico s.1 s.2) p.free := by
  rw [p.free_exact, Set.disjoint_left]
  exact fun x hx hf => hf.2 (subset_cover hs hx)

/-- Put new points into the pool. -/
def add (p : Pool α) (s : α × α) (hs : Disjoint (Set.Ico s.1 s.2) (cover p.total)) :
    Pool α where
  total := s :: p.total
  free := p.free ∪ Set.Ico s.1 s.2
  live := p.live
  live_disjoint := p.live_disjoint
  live_inside := by
    rw [cover_cons]
    exact p.live_inside.trans Set.subset_union_right
  free_exact := by
    have hd : Disjoint (Set.Ico s.1 s.2) (cover p.live) := hs.mono_right p.live_inside
    rw [cover_cons, Set.union_sdiff_distrib, hd.sdiff_eq_left, p.free_exact, Set.union_comm]

/-- Take a free interval out of the pool. -/
def take (p : Pool α) (s : α × α) (hs : Set.Ico s.1 s.2 ⊆ p.free) : Pool α where
  total := p.total
  free := p.free \ Set.Ico s.1 s.2
  live := s :: p.live
  live_disjoint := by
    refine List.pairwise_cons.mpr ⟨fun t ht => ?_, p.live_disjoint⟩
    exact ((p.live_disjoint_free ht).mono_right hs).symm
  live_inside := by
    rw [cover_cons]
    exact Set.union_subset (hs.trans p.free_subset) p.live_inside
  free_exact := by
    rw [cover_cons, p.free_exact, Set.sdiff_sdiff, Set.union_comm]

/-- Give a taken interval back. -/
def give (p : Pool α) (s : α × α) (hs : s ∈ p.live) : Pool α where
  total := p.total
  free := p.free ∪ Set.Ico s.1 s.2
  live := p.live.erase s
  live_disjoint := p.live_disjoint.sublist List.erase_sublist
  live_inside := by
    rw [p.live_disjoint.cover_erase hs]
    exact Set.sdiff_subset.trans p.live_inside
  free_exact := by
    have hin : Set.Ico s.1 s.2 ⊆ cover p.total := (subset_cover hs).trans p.live_inside
    have hl : Set.Ico s.1 s.2 ⊆ cover p.live := subset_cover hs
    rw [p.live_disjoint.cover_erase hs, p.free_exact]
    ext x
    have h1 := @hin x
    have h2 := @hl x
    simp only [Set.mem_union, Set.mem_sdiff]
    tauto

end Pool

end Anarch.IntervalCover
