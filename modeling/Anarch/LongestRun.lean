import Mathlib.Order.Interval.Set.Disjoint

/-! Scans that look for the first longest run of points of a set below a bound. -/
namespace Anarch.LongestRun

/-- A maximal interval of points of the set below the bound. -/
structure IsRun (free : Set ℕ) (bound a b : ℕ) : Prop where
  lt : a < b
  le : b ≤ bound
  subset : Set.Ico a b ⊆ free
  left : a = 0 ∨ a - 1 ∉ free
  right : b = bound ∨ b ∉ free

/-- Of a candidate and the runs that end up to a point, the one that a scan keeps: the
candidate if none is longer, else the first of the longest. Both are a start and a length. -/
def Keeps (free : Set ℕ) (bound p : ℕ) (old new : ℕ × ℕ) : Prop :=
  (new = old ∧ ∀ a b, IsRun free bound a b → b ≤ p → b - a ≤ old.2) ∨
  ∃ a b, IsRun free bound a b ∧ b ≤ p ∧ old.2 < b - a ∧ new = (a, b - a) ∧
    ∀ a' b', IsRun free bound a' b' → b' ≤ p → b' - a' ≤ b - a ∧ (b' - a' = b - a → a ≤ a')

/-- Part of a scan: points of the set, then points outside it or the bound. -/
structure Stretch (free : Set ℕ) (bound p q r : ℕ) : Prop where
  start : p = 0 ∨ p - 1 ∉ free
  le : p ≤ q
  subset : Set.Ico p q ⊆ free
  off : ∀ x ∈ Set.Ico q r, x ∉ free
  stop : q = bound ∧ r = bound ∨ q < r ∧ r ≤ bound

variable {free : Set ℕ} {bound p q r a b : ℕ} {old new : ℕ × ℕ}

lemma keeps_zero (free : Set ℕ) (bound : ℕ) (old : ℕ × ℕ) : Keeps free bound 0 old old :=
  .inl ⟨rfl, fun _ _ h h0 => absurd h.lt (by omega)⟩

namespace Stretch

lemma le_bound (h : Stretch free bound p q r) : q ≤ r ∧ r ≤ bound := by
  rcases h.stop with h | h <;> omega

lemma isRun (h : Stretch free bound p q r) (hlt : p < q) : IsRun free bound p q := by
  refine ⟨hlt, h.le_bound.1.trans h.le_bound.2, h.subset, h.start, ?_⟩
  rcases h.stop with ⟨hq, -⟩ | ⟨hqr, -⟩
  · exact .inl hq
  · exact .inr (h.off q ⟨le_rfl, hqr⟩)

lemma eq_of_isRun (h : Stretch free bound p q r) (hrun : IsRun free bound a b) (hp : p < b)
    (hr : b ≤ r) : a = p ∧ b = q := by
  have hab := hrun.lt
  have hlast : b - 1 ∈ free := hrun.subset ⟨by omega, by omega⟩
  have hbq : b ≤ q := by
    by_contra hlt
    exact h.off (b - 1) ⟨by omega, by omega⟩ hlast
  have hb : b = q := by
    by_contra hne
    have hnext : b ∈ free := h.subset ⟨by omega, by omega⟩
    have hqb := h.le_bound
    rcases hrun.right with hbound | hout
    · omega
    · exact hout hnext
  have hpa : p ≤ a := by
    by_contra hlt
    have hbefore : p - 1 ∈ free := hrun.subset ⟨by omega, by omega⟩
    rcases h.start with h0 | hout
    · omega
    · exact hout hbefore
  have ha : a = p := by
    by_contra hne
    have hbefore : a - 1 ∈ free := h.subset ⟨by omega, by omega⟩
    rcases hrun.left with h0 | hout
    · omega
    · exact hout hbefore
  exact ⟨ha, hb⟩

lemma keeps (h : Stretch free bound p q r) (hkeeps : Keeps free bound p old new) :
    Keeps free bound r old (if new.2 < q - p then (p, q - p) else new) := by
  have hall : ∀ a b, IsRun free bound a b → b ≤ r → b ≤ p ∨ a = p ∧ b = q := by
    intro a b hrun hle
    rcases Nat.lt_or_ge p b with hp | hp
    · exact .inr (h.eq_of_isRun hrun hp hle)
    · exact .inl hp
  have hpr : p ≤ r := h.le.trans h.le_bound.1
  split_ifs with hlonger
  · refine .inr ⟨p, q, h.isRun (by omega), h.le_bound.1, ?_, rfl, ?_⟩
    · rcases hkeeps with ⟨rfl, -⟩ | ⟨a, b, -, -, hlt, rfl, -⟩
      · exact hlonger
      · exact hlt.trans hlonger
    · intro a' b' hrun hle
      rcases hall a' b' hrun hle with hold | ⟨rfl, rfl⟩
      · have hshort : b' - a' ≤ new.2 := by
          rcases hkeeps with ⟨rfl, hmax⟩ | ⟨a, b, -, -, -, rfl, hmax⟩
          · exact hmax a' b' hrun hold
          · exact (hmax a' b' hrun hold).1
        omega
      · exact ⟨le_rfl, fun _ => le_rfl⟩
  · rcases hkeeps with ⟨rfl, hmax⟩ | ⟨a, b, hrun, hle, hlt, rfl, hmax⟩
    · refine .inl ⟨rfl, fun a' b' hrun' hle' => ?_⟩
      rcases hall a' b' hrun' hle' with hold | ⟨rfl, rfl⟩
      · exact hmax a' b' hrun' hold
      · exact not_lt.mp hlonger
    · refine .inr ⟨a, b, hrun, hle.trans hpr, hlt, rfl, fun a' b' hrun' hle' => ?_⟩
      rcases hall a' b' hrun' hle' with hold | ⟨rfl, rfl⟩
      · exact hmax a' b' hrun' hold
      · exact ⟨not_lt.mp hlonger, fun _ => (hrun.lt.trans_le hle).le⟩

end Stretch

end Anarch.LongestRun
