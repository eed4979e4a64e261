import Anarch.FreeList
import Anarch.IntervalCover
import Mathlib.Tactic.Linarith

/-! What each free-list operation does to the set of addresses on the list. -/
namespace Anarch.FreeList
open IntervalCover

namespace Region

/-- The addresses of a region, as natural numbers. -/
def span (r : Region) : ℕ × ℕ := (r.start.toNat, r.start.toNat + r.size.toNat)

/-- A region of positive size that does not pass the top of the address space. -/
def Fits (r : Region) : Prop := 0 < r.size.toNat ∧ r.start.toNat + r.size.toNat ≤ 2 ^ 64

lemma span_fst (r : Region) : r.span.1 = r.start.toNat := rfl

lemma span_snd (r : Region) : r.span.2 = r.start.toNat + r.size.toNat := rfl

lemma new_of_fits {a : VirtAddr} {s : Word} (h : Fits ⟨a, s⟩) : new a s = .ok ⟨a, s⟩ := by
  have hc : a < a + s ∨ a + s = 0 := by
    obtain ⟨h1, h2⟩ := h
    simp only at h1 h2
    bv_omega
  exact if_pos hc

lemma new_eq_ok {a : VirtAddr} {s : Word} {r : Region} :
    new a s = .ok r ↔ (a < a + s ∨ a + s = 0) ∧ r = ⟨a, s⟩ := by
  unfold new
  split_ifs with h
  · exact ⟨fun he => ⟨h, (Except.ok.inj he).symm⟩, fun he => by rw [he.2]⟩
  · exact iff_of_false (fun he => by cases he) fun he => h he.1

lemma fits_of_new {a : VirtAddr} {s : Word} {r : Region} (hs : 0 < s.toNat)
    (h : new a s = .ok r) : r = ⟨a, s⟩ ∧ Fits r := by
  obtain ⟨hc, rfl⟩ := new_eq_ok.mp h
  refine ⟨rfl, hs, ?_⟩
  simp only
  bv_omega

section
variable {r q : Region}

lemma isAdjacentBehind_iff (hr : r.Fits) (a : VirtAddr) :
    r.isAdjacentBehind a = true ↔ r.span.2 = a.toNat := by
  obtain ⟨h1, h2⟩ := hr
  unfold isAdjacentBehind
  split_ifs with h
  · simp only [span_snd, false_iff]
    bv_omega
  · simp only [decide_eq_true_eq, span_snd]
    bv_omega

lemma isBehind_iff (hr : r.Fits) (a : VirtAddr) :
    r.isBehind a = true ↔ r.span.2 ≤ a.toNat := by
  obtain ⟨h1, h2⟩ := hr
  unfold isBehind
  split_ifs with h
  · simp only [span_snd, false_iff]
    bv_omega
  · simp only [decide_eq_true_eq, span_snd]
    bv_omega

lemma contains_iff (hr : r.Fits) (hq : q.Fits) :
    r.contains q = true ↔ r.span.1 ≤ q.span.1 ∧ q.span.2 ≤ r.span.2 := by
  obtain ⟨h1, h2⟩ := hr
  obtain ⟨h3, h4⟩ := hq
  unfold contains
  split_ifs with ha hb hc <;> simp only [decide_eq_true_eq, span_fst, span_snd,
    false_iff, true_iff] <;> bv_omega

lemma isFilledBy_iff : r.isFilledBy q = true ↔ q = r := by
  cases r
  cases q
  simp [isFilledBy]

lemma isStartedBy_iff : r.isStartedBy q = true ↔ q.span.1 = r.span.1 := by
  simp [isStartedBy, span, BitVec.toNat_inj]

lemma isEndedBy_iff (hr : r.Fits) (hq : q.Fits) :
    r.isEndedBy q = true ↔ q.span.2 = r.span.2 := by
  obtain ⟨h1, h2⟩ := hr
  obtain ⟨h3, h4⟩ := hq
  simp only [isEndedBy, decide_eq_true_eq, span_snd]
  bv_omega

end

lemma chopSize_toNat (a : VirtAddr) {p : Word} (hp : 0 < p.toNat) :
    (chopSize a p).toNat = if a.toNat % p.toNat = 0 then 0 else p.toNat - a.toNat % p.toNat := by
  have hlt : a.toNat % p.toNat < p.toNat := Nat.mod_lt _ hp
  have hm : (a % p).toNat = a.toNat % p.toNat := BitVec.toNat_umod
  unfold chopSize
  by_cases h : a % p = 0
  · have h0 : a.toNat % p.toNat = 0 := by simpa [h] using hm.symm
    simp [h, h0]
  · have h0 : a.toNat % p.toNat ≠ 0 := by
      intro hz
      exact h (BitVec.eq_of_toNat_eq (by simpa [hm] using hz))
    rw [if_pos h, if_neg h0, BitVec.toNat_sub_of_le, hm]
    rw [BitVec.le_def, hm]
    exact hlt.le

/-- What is left of `reg` once `requested` is cut out of it. -/
def cut (reg requested : Region) : List Region :=
  (if requested.start = reg.start then [] else [⟨reg.start, requested.start - reg.start⟩]) ++
  (if requested.endAddr = reg.endAddr then []
    else [⟨requested.endAddr, reg.endAddr - requested.endAddr⟩])

/-- The request is a proper front part of the region: the case in which `AllocInRegion`
moves `start` and leaves `size` as it was. -/
def takesFront (reg requested : Region) : Bool :=
  reg.isStartedBy requested && !reg.isFilledBy requested

end Region

def addresses (regions : List Region) : Set ℕ := cover (regions.map Region.span)

/-- Sorted regions of positive size with a gap between any two. -/
structure WellFormed (regions : List Region) : Prop where
  fits : ∀ r ∈ regions, r.Fits
  separated : Separated (regions.map Region.span)

@[simp] lemma addresses_nil : addresses [] = ∅ := by simp [addresses]

@[simp] lemma addresses_cons (r : Region) (regions : List Region) :
    addresses (r :: regions) = Set.Ico r.span.1 r.span.2 ∪ addresses regions := by
  simp only [addresses, List.map_cons, cover_cons]

lemma addresses_append (xs ys : List Region) :
    addresses (xs ++ ys) = addresses xs ∪ addresses ys := by
  simp only [addresses, List.map_append, cover_append]

lemma proper_of_fits {regions : List Region} (h : ∀ r ∈ regions, r.Fits) :
    Proper (regions.map Region.span) := by
  intro s hs
  obtain ⟨r, hr, rfl⟩ := List.mem_map.mp hs
  have := (h r hr).1
  simp only [Region.span_fst, Region.span_snd]
  omega

namespace WellFormed
variable {r : Region} {regions : List Region}

lemma nil : WellFormed [] := ⟨by simp, List.Pairwise.nil⟩

lemma head (h : WellFormed (r :: regions)) : r.Fits := h.fits r (by simp)

lemma tail (h : WellFormed (r :: regions)) : WellFormed regions :=
  ⟨fun q hq => h.fits q (by simp [hq]), (List.pairwise_cons.mp h.separated).2⟩

lemma lt_of_mem (h : WellFormed (r :: regions)) {x : ℕ} (hx : x ∈ addresses regions) :
    r.span.2 < x := Separated.lt_of_mem_cover h.separated hx

lemma disjoint_head (h : WellFormed (r :: regions)) :
    Disjoint (Set.Ico r.span.1 r.span.2) (addresses regions) := Separated.disjoint_head h.separated

lemma cons (hr : r.Fits) (h : WellFormed regions)
    (hlt : ∀ x ∈ addresses regions, r.span.2 < x) : WellFormed (r :: regions) := by
  refine ⟨?_, ?_⟩
  · intro q hq
    rcases List.mem_cons.mp hq with rfl | hq
    · exact hr
    · exact h.fits q hq
  · exact (separated_cons_iff (proper_of_fits h.fits)).mpr ⟨hlt, h.separated⟩

end WellFormed

section
variable {reg requested : Region}

lemma front_span (hr : reg.Fits) (hq : requested.Fits) (h : reg.span.1 < requested.span.1) :
    Region.Fits ⟨reg.start, requested.start - reg.start⟩ ∧
      Region.span ⟨reg.start, requested.start - reg.start⟩ =
        (reg.span.1, requested.span.1) := by
  obtain ⟨h1, h2⟩ := hr
  obtain ⟨h3, h4⟩ := hq
  simp only [Region.Fits, Region.span, Prod.mk.injEq, true_and] at *
  bv_omega

lemma back_span (hr : reg.Fits) (hq : requested.Fits) (h : requested.span.2 < reg.span.2) :
    Region.Fits ⟨requested.endAddr, reg.endAddr - requested.endAddr⟩ ∧
      Region.span ⟨requested.endAddr, reg.endAddr - requested.endAddr⟩ =
        (requested.span.2, reg.span.2) := by
  obtain ⟨h1, h2⟩ := hr
  obtain ⟨h3, h4⟩ := hq
  simp only [Region.Fits, Region.span, Region.endAddr, Prod.mk.injEq] at *
  bv_omega

lemma endAddr_eq_iff (hr : reg.Fits) (hq : requested.Fits) :
    requested.endAddr = reg.endAddr ↔ requested.span.2 = reg.span.2 := by
  rw [← Region.isEndedBy_iff hr hq]
  simp only [Region.isEndedBy, Region.endAddr, decide_eq_true_eq]

lemma cut_wellFormed (hr : reg.Fits) (hq : requested.Fits)
    (hin : reg.span.1 ≤ requested.span.1 ∧ requested.span.2 ≤ reg.span.2) :
    WellFormed (reg.cut requested) ∧
      (∀ p ∈ reg.cut requested, p.span.2 ≤ reg.span.2) ∧
      addresses (reg.cut requested) =
        Set.Ico reg.span.1 reg.span.2 \ Set.Ico requested.span.1 requested.span.2 := by
  have hq1 : requested.span.1 < requested.span.2 := by
    have := hq.1
    simp only [Region.span_fst, Region.span_snd]
    omega
  rw [Ico_diff_piece hin.1 hin.2 hq1.le]
  have hstart : requested.start = reg.start ↔ requested.span.1 = reg.span.1 := by
    simp [Region.span, BitVec.toNat_inj]
  have hend := endAddr_eq_iff hr hq
  unfold Region.cut
  by_cases hs : requested.start = reg.start <;> by_cases he : requested.endAddr = reg.endAddr
  · rw [hstart.mp hs, hend.mp he]
    simp [hs, he, WellFormed.nil]
  · have hlt := lt_of_le_of_ne hin.2 fun h => he (hend.mpr h)
    obtain ⟨hf, hb⟩ := back_span hr hq hlt
    simp only [if_pos hs, if_neg he, List.nil_append]
    refine ⟨.cons hf .nil (by simp), by simp [hb], ?_⟩
    rw [addresses_cons, hb, addresses_nil, hstart.mp hs]
    simp
  · have hlt := lt_of_le_of_ne hin.1 fun h => hs (hstart.mpr h.symm)
    obtain ⟨hf, hb⟩ := front_span hr hq hlt
    simp only [if_neg hs, if_pos he, List.append_nil]
    refine ⟨.cons hf .nil (by simp), ?_, ?_⟩
    · intro p hp
      rw [List.mem_singleton.mp hp, hb]
      exact hq1.le.trans hin.2
    · rw [addresses_cons, hb, addresses_nil, hend.mp he]
      simp
  · have hlt1 := lt_of_le_of_ne hin.1 fun h => hs (hstart.mpr h.symm)
    have hlt2 := lt_of_le_of_ne hin.2 fun h => he (hend.mpr h)
    obtain ⟨hf1, hb1⟩ := front_span hr hq hlt1
    obtain ⟨hf2, hb2⟩ := back_span hr hq hlt2
    simp only [if_neg hs, if_neg he, List.singleton_append]
    refine ⟨.cons hf1 (.cons hf2 .nil (by simp)) ?_, ?_, ?_⟩
    · intro x hx
      rw [addresses_cons, hb2, addresses_nil, Set.union_empty] at hx
      rw [hb1]
      exact hq1.trans_le hx.1
    · simp only [List.mem_cons, List.not_mem_nil, or_false]
      rintro p (rfl | rfl)
      · rw [hb1]
        exact hq1.le.trans hin.2
      · rw [hb2]
    · rw [addresses_cons, addresses_cons, hb1, hb2, addresses_nil, Set.union_empty]

/-- Unless the request is a proper front part, `AllocInRegion` leaves exactly the pieces
of the cut. -/
theorem allocInRegion_eq_cut (hr : reg.Fits) (hq : requested.Fits)
    (hin : reg.span.1 ≤ requested.span.1 ∧ requested.span.2 ≤ reg.span.2)
    (hfront : reg.takesFront requested = false) (next : List Region) :
    allocInRegion reg next requested = .ok (reg.cut requested ++ next) := by
  unfold allocInRegion
  by_cases hfill : reg.isFilledBy requested = true
  · have he := Region.isFilledBy_iff.mp hfill
    subst he
    simp [hfill, Region.cut]
  · have hs : reg.isStartedBy requested = false := by
      simpa [Region.takesFront, hfill] using hfront
    have hs1 : requested.span.1 ≠ reg.span.1 := fun h => by
      simp [Region.isStartedBy_iff.mpr h] at hs
    have hs2 : requested.start ≠ reg.start := fun h => hs1 (by simp [Region.span, h])
    rw [if_neg hfill, if_neg (by simp [hs])]
    by_cases hend : reg.isEndedBy requested = true
    · have he := (Region.isEndedBy_iff hr hq).mp hend
      have hsize : reg.size - requested.size = requested.start - reg.start := by
        obtain ⟨h1, h2⟩ := hr
        obtain ⟨h3, h4⟩ := hq
        simp only [Region.span] at hin he hs1
        bv_omega
      rw [if_pos hend]
      simp [Region.cut, hs2, (endAddr_eq_iff hr hq).mpr he, hsize]
    · have he : ¬ requested.endAddr = reg.endAddr := fun h =>
        hend ((Region.isEndedBy_iff hr hq).mpr ((endAddr_eq_iff hr hq).mp h))
      have hlt : requested.span.2 < reg.span.2 :=
        lt_of_le_of_ne hin.2 fun h => he ((endAddr_eq_iff hr hq).mpr h)
      have hnew := Region.new_of_fits (back_span hr hq hlt).1
      rw [if_neg hend]
      simp [allocRegion, hnew, Region.cut, hs2, he, bind, Except.bind, pure, Except.pure]

end

lemma allocInRegion_wellFormed {reg requested : Region} {next : List Region}
    (h : WellFormed (reg :: next)) (hq : requested.Fits)
    (hin : reg.span.1 ≤ requested.span.1 ∧ requested.span.2 ≤ reg.span.2)
    (hfront : reg.takesFront requested = false) :
    ∃ out, allocInRegion reg next requested = .ok out ∧ WellFormed out ∧
      addresses out =
        addresses (reg :: next) \ Set.Ico requested.span.1 requested.span.2 := by
  obtain ⟨hwf, hle, hcut⟩ := cut_wellFormed h.head hq hin
  refine ⟨_, allocInRegion_eq_cut h.head hq hin hfront next, ⟨?_, ?_⟩, ?_⟩
  · intro p hp
    rcases List.mem_append.mp hp with hp | hp
    · exact hwf.fits p hp
    · exact h.tail.fits p hp
  · rw [List.map_append]
    apply Separated.replace_head h.separated hwf.separated
    intro p hp
    obtain ⟨q, hq, rfl⟩ := List.mem_map.mp hp
    exact hle q hq
  · have hsub : Set.Ico requested.span.1 requested.span.2 ⊆ Set.Ico reg.span.1 reg.span.2 :=
      Set.Ico_subset_Ico hin.1 hin.2
    have hd := h.disjoint_head.mono_left hsub
    rw [addresses_append, hcut, addresses_cons, Set.union_sdiff_distrib, hd.sdiff_eq_right]

end Anarch.FreeList
