import Anarch.FreeFinder
import Anarch.PageTableBooked

/-! The walk of `UpdateFreeRegion`: it goes from page to page, and a hole is a longest run of
addresses that `Walk` reports no leaf for. -/
namespace Anarch.FreeFinder
open PageTable RadixTree

/-- Between two multiples of a larger power, steps of a smaller one do not change the
quotient. -/
lemma div_two_pow_add {i j p : ℕ} (hp : p % 2 ^ i = 0) (hq : (p + 2 ^ i) % 2 ^ j ≠ 0) :
    (p + 2 ^ i) / 2 ^ j = p / 2 ^ j := by
  obtain ⟨a, rfl⟩ := Nat.dvd_of_mod_eq_zero hp
  rcases le_or_gt j i with hij | hij
  · exact absurd (Nat.mod_eq_zero_of_dvd ((Nat.pow_dvd_pow 2 hij).mul_right (a + 1))) hq
  · obtain ⟨k, rfl⟩ := Nat.exists_eq_add_of_lt hij
    have hpow : 2 ^ (i + k + 1) = 2 ^ i * 2 ^ (k + 1) := by rw [Nat.add_assoc, Nat.pow_add]
    rw [← Nat.mul_succ, hpow] at hq ⊢
    rw [Nat.mul_div_mul_left _ _ (Nat.two_pow_pos i), Nat.mul_div_mul_left _ _ (Nat.two_pow_pos i)]
    refine Nat.succ_div_of_not_dvd fun hdvd => hq ?_
    exact Nat.mod_eq_zero_of_dvd (Nat.mul_dvd_mul_left _ hdvd)

section
variable {α : Type} {used : α → Set Frame} {pml4 : PhysAddr} {s : PageTable.State α}
variable {p x start : VirtAddr} {size : Word} {n : ℕ}

def walkSize (s : PageTable.State α) (p : VirtAddr) : Word := pageSizeAt (s.find (index p)).1

/-- The walk stands at the start of what it sees. -/
def Boundary (s : PageTable.State α) (p : VirtAddr) : Prop :=
  p.toNat % (walkSize s p).toNat = 0

lemma boundary_zero (s : PageTable.State α) : Boundary s 0 := Nat.zero_mod _

lemma walkSize_toNat (s : PageTable.State α) (p : VirtAddr) :
    (walkSize s p).toNat = 2 ^ (39 - 9 * (s.find (index p)).1) :=
  pageSizeAt_toNat (find_spec s _).1

lemma walkSize_ge (s : PageTable.State α) (p : VirtAddr) : 4096 ≤ (walkSize s p).toNat := by
  have hd := (find_spec s (index p)).1
  rw [walkSize_toNat]
  calc 4096 = 2 ^ 12 := rfl
    _ ≤ 2 ^ (39 - 9 * (s.find (index p)).1) := Nat.pow_le_pow_right two_pos (by omega)

lemma find_of_mem (hb : Boundary s p) (hp : p ∈ kernelAddresses) (hx : x ∈ kernelAddresses)
    (h : x ∈ addresses p (walkSize s p).toNat) : s.find (index x) = s.find (index p) :=
  find_congr s ((agree_iff_mem (find_spec s _).1 hp hx hb).mpr h)

lemma page_end_le (hb : Boundary s p) (hp : p ∈ kernelAddresses) :
    p.toNat + (walkSize s p).toNat ≤ kernelEnd.toNat := by
  have hd := (find_spec s (index p)).1
  have hlt : p.toNat < 2 ^ 39 := hp
  change _ ≤ 2 ^ 39
  rw [Boundary, walkSize_toNat] at hb
  rw [walkSize_toNat]
  rcases (by omega : (s.find (index p)).1 = 0 ∨ (s.find (index p)).1 = 1 ∨
    (s.find (index p)).1 = 2 ∨ (s.find (index p)).1 = 3) with h | h | h | h
  all_goals
    rw [h] at hb ⊢
    simp only [Nat.reducePow, Nat.reduceMul, Nat.reduceSub] at *
    omega

/-- The next page starts where one ends: if it started before, it would hold the first. -/
lemma boundary_next (hb : Boundary s p) (hp : p ∈ kernelAddresses)
    (hq : p + walkSize s p ∈ kernelAddresses) : Boundary s (p + walkSize s p) := by
  have hd' := (find_spec s (index (p + walkSize s p))).1
  have hnext : (p + walkSize s p).toNat = p.toNat + (walkSize s p).toNat :=
    toNat_next ((page_end_le hb hp).trans_lt (by decide))
  have hq' : (p + walkSize s p).toNat < 2 ^ 39 := hq
  by_contra hne
  have hsame : SamePage (s.find (index (p + walkSize s p))).1 (p + walkSize s p) p := by
    rw [Boundary, walkSize_toNat s (p + walkSize s p), hnext, walkSize_toNat s p] at hne
    rw [Boundary, walkSize_toNat] at hb
    rw [SamePage, Nat.mod_eq_of_lt (by omega), Nat.mod_eq_of_lt (by omega), hnext,
      walkSize_toNat s p, pageSizeAt_toNat hd']
    exact div_two_pow_add hb hne
  have hfind := find_congr s ((agree_index_iff hd' _ _).mpr hsame)
  apply hne
  have hsize : walkSize s (p + walkSize s p) = walkSize s p := by
    rw [walkSize, ← hfind, ← walkSize]
  rw [Boundary, hsize, hnext, Nat.add_mod_right]
  exact hb

section
variable (pml4 : PhysAddr) (table : PageTable.State α)

/-- Pages one after the other, each at a multiple of the size that `Walk` reports for it. -/
def Tiles : List (VirtAddr × Word) → ℕ → ℕ → Prop
  | [], start, stop => start = stop
  | (addr, size) :: rest, start, stop =>
      addr.toNat = start ∧ (∃ found, walk pml4 addr table = .ok found ∧ found.size = size) ∧
        0 < size.toNat ∧ addr.toNat % size.toNat = 0 ∧ Tiles rest (start + size.toNat) stop

end

lemma Tiles.append {xs ys : List (VirtAddr × Word)} {a b c : ℕ} (h : Tiles pml4 s xs a b)
    (h' : Tiles pml4 s ys b c) : Tiles pml4 s (xs ++ ys) a c := by
  induction xs generalizing a with
  | nil =>
    obtain rfl : a = b := h
    exact h'
  | cons x xs ih =>
    obtain ⟨haddr, hwalk, hpos, hmod, hrest⟩ := h
    exact ⟨haddr, hwalk, hpos, hmod, ih hrest⟩

/-- What a run of the inner loop has passed: addresses without a leaf, and then a page with one,
or the end of the kernel half. -/
structure Passed (s : PageTable.State α) (start next : VirtAddr) (size : Word) : Prop where
  end_le : start.toNat + size.toNat ≤ kernelEnd.toNat
  free : ∀ x ∈ addresses start size.toNat, s.leaf (index x) = none
  last : (∃ q ∈ kernelAddresses, q.toNat = start.toNat + size.toNat ∧ Boundary s q ∧
      s.leaf (index q) ≠ none ∧ next = q + walkSize s q) ∨
    start.toNat + size.toNat = kernelEnd.toNat ∧ next = kernelEnd

/-- What one run of the inner loop finds: the next page to look at, and a hole, which goes on
to the end of the kernel half if nothing from its start on is mapped. -/
structure Hole (s : PageTable.State α) (start next : VirtAddr) (size : Word) : Prop where
  next_le : next.toNat ≤ kernelEnd.toNat
  boundary : next ∈ kernelAddresses → Boundary s next
  end_le : start.toNat + size.toNat ≤ kernelEnd.toNat
  free : ∀ x ∈ addresses start size.toNat, s.leaf (index x) = none
  last : (∃ x ∈ kernelAddresses, start.toNat ≤ x.toNat ∧ s.leaf (index x) ≠ none) ∨
    start.toNat + size.toNat = kernelEnd.toNat ∧ next = kernelEnd

lemma toNat_page_end (hb : Boundary s p) (hp : p ∈ kernelAddresses) :
    (p + walkSize s p).toNat = p.toNat + (walkSize s p).toNat :=
  toNat_next ((page_end_le hb hp).trans_lt (by decide))

lemma Passed.hole (h : Passed s start p size) : Hole s start p size := by
  rcases h.last with ⟨q, hq, hsum, hb, hleaf, rfl⟩ | ⟨hend, rfl⟩
  · refine ⟨?_, boundary_next hb hq, h.end_le, h.free, .inl ⟨q, hq, by omega, hleaf⟩⟩
    rw [toNat_page_end hb hq]
    exact page_end_le hb hq
  · exact ⟨le_rfl, fun hlt => absurd hlt (Nat.lt_irrefl _), h.end_le, h.free,
      .inr ⟨hend, rfl⟩⟩

lemma walkResult_seen (found : ℕ × Word) :
    ((walkResult found).depth ≠ none ∧ (walkResult found).entry ≠ 0) ↔ leafOf found ≠ none := by
  simp only [walkResult, leafOf]
  split_ifs with h
  · simp only [ne_eq, reduceCtorEq, not_false_eq_true, true_and, iff_true]
    intro hz
    simp [hz, isHuge, isPresent] at h
  · simp

section
variable (hself : link (s.mem s.root 0x1ff) = some s.root) (hcr3 : s.cr3 = pml4)
include hself hcr3

lemma scanHoleSteps_succ (hp : start + size = p) :
    scanHoleSteps pml4 s (n + 1) p start size =
      if s.leaf (index p) ≠ none then .ok ((p + walkSize s p, size), [(p, walkSize s p)])
      else if kernelEnd ≤ start + (size + walkSize s p) then
        .ok ((p + walkSize s p, kernelEnd - start), [(p, walkSize s p)])
      else do
        let (found, steps) ← scanHoleSteps pml4 s n (p + walkSize s p) start (size + walkSize s p)
        return (found, (p, walkSize s p) :: steps) := by
  rw [scanHoleSteps, hp, walk_eq hself hcr3]
  simp only [bind, Except.bind, pure, Except.pure, walkResult_seen]
  rfl

lemma tiles_page (hb : Boundary s p) (hp : p ∈ kernelAddresses) {steps : List (VirtAddr × Word)}
    {q : ℕ} (h : Tiles pml4 s steps (p + walkSize s p).toNat q) :
    Tiles pml4 s ((p, walkSize s p) :: steps) p.toNat q := by
  rw [toNat_page_end hb hp] at h
  exact ⟨rfl, ⟨_, walk_eq hself hcr3 p, rfl⟩, by have := walkSize_ge s p; omega, hb, h⟩

/-- The inner loop ends, after it has passed at least one small page. -/
lemma scanHoleSteps_spec (hp : p.toNat = start.toNat + size.toNat) (hlt : p ∈ kernelAddresses)
    (hb : Boundary s p) (hn : kernelEnd.toNat ≤ p.toNat + n * 4096)
    (hfree : ∀ x ∈ addresses start size.toNat, s.leaf (index x) = none) :
    ∃ next size' steps, scanHoleSteps pml4 s n p start size = .ok ((next, size'), steps) ∧
      p.toNat + 4096 ≤ next.toNat ∧ Tiles pml4 s steps p.toNat next.toNat ∧
      Passed s start next size' := by
  induction n generalizing p size with
  | zero =>
    have : p.toNat < kernelEnd.toNat := hlt
    omega
  | succ n ih =>
    have hend := page_end_le hb hlt
    have hge := walkSize_ge s p
    have hK : kernelEnd.toNat = 2 ^ 39 := rfl
    have hnext := toNat_page_end hb hlt
    have hsize : (size + walkSize s p).toNat = _ := toNat_next (by omega)
    have hsum : (start + (size + walkSize s p)).toNat = _ := toNat_next (by omega)
    have hstart : start + size = p := BitVec.eq_of_toNat_eq (by rw [toNat_next (by omega), hp])
    rw [scanHoleSteps_succ hself hcr3 hstart]
    by_cases hleaf : s.leaf (index p) = none
    · have hlonger : ∀ x ∈ addresses start (size + walkSize s p).toNat,
          s.leaf (index x) = none := by
        intro x hx
        rw [mem_addresses, hsize] at hx
        by_cases hold : x.toNat < start.toNat + size.toNat
        · exact hfree x (mem_addresses.mpr ⟨hx.1, hold⟩)
        · have hxK : x ∈ kernelAddresses := show x.toNat < kernelEnd.toNat by omega
          rwa [State.leaf, find_of_mem hb hlt hxK (mem_addresses.mpr ⟨by omega, by omega⟩),
            ← State.leaf]
      rw [if_neg (by simpa using hleaf)]
      split_ifs with hlast
      · rw [BitVec.le_def, hsum] at hlast
        have hrest : kernelEnd - start = size + walkSize s p := by
          apply BitVec.eq_of_toNat_eq
          rw [BitVec.toNat_sub_of_le (BitVec.le_def.mpr (by omega)), hsize]
          omega
        have hdone : p + walkSize s p = kernelEnd := BitVec.eq_of_toNat_eq (by omega)
        rw [hrest]
        exact ⟨_, _, _, rfl, by omega, tiles_page hself hcr3 hb hlt rfl, by omega, hlonger,
          .inr ⟨by omega, hdone⟩⟩
      · rw [BitVec.le_def, hsum] at hlast
        have hlt' : p + walkSize s p ∈ kernelAddresses :=
          show (p + walkSize s p).toNat < kernelEnd.toNat by omega
        obtain ⟨next, size', steps, hok, hge', htiles, hpassed⟩ := ih
          (show (p + walkSize s p).toNat = start.toNat + (size + walkSize s p).toNat by omega) hlt'
          (boundary_next hb hlt hlt') (by omega) hlonger
        exact ⟨next, size', _, by rw [hok]; rfl, by omega, tiles_page hself hcr3 hb hlt htiles,
          hpassed⟩
    · rw [if_pos hleaf]
      exact ⟨_, _, _, rfl, by omega, tiles_page hself hcr3 hb hlt rfl, by omega, hfree,
        .inl ⟨p, hlt, hp, hb, hleaf, rfl⟩⟩

end

section
variable (ht : Tree used {0} s) (hcr3 : s.cr3 = pml4)
include ht hcr3

lemma scanHole_succ (hp : start + size = p) :
    scanHole pml4 s (n + 1) p start size =
      if s.leaf (index p) ≠ none then .ok (p + walkSize s p, size)
      else if kernelEnd ≤ start + (size + walkSize s p) then
        .ok (p + walkSize s p, kernelEnd - start)
      else scanHole pml4 s n (p + walkSize s p) start (size + walkSize s p) := by
  rw [scanHole_round, hp, walk_eq ht.self hcr3]
  simp only [bind, Except.bind, pure, Except.pure, walkResult_seen]
  rfl

lemma scanHole_spec (hp : p.toNat = start.toNat + size.toNat) (hlt : p ∈ kernelAddresses)
    (hb : Boundary s p) (hn : kernelEnd.toNat ≤ p.toNat + n * 4096)
    (hfree : ∀ x ∈ addresses start size.toNat, s.leaf (index x) = none) :
    ∃ next size', scanHole pml4 s n p start size = .ok (next, size') ∧
      p.toNat + 4096 ≤ next.toNat ∧ Hole s start next size' := by
  obtain ⟨next, size', steps, hok, hge, -, hpassed⟩ :=
    scanHoleSteps_spec ht.self hcr3 hp hlt hb hn hfree
  exact ⟨next, size', by rw [scanHole, hok]; rfl, hge, hpassed.hole⟩

/-- The candidate is below the end of the kernel half, and its addresses are in the set. -/
structure Finder.Within (P : Set VirtAddr) (f : Finder) : Prop where
  end_le : f.freeStart.toNat + f.freeSize.toNat ≤ kernelEnd.toNat
  free : addresses f.freeStart f.freeSize.toNat ⊆ P

/-- The outer loop ends with a candidate that `Walk` reports no leaf in, or the old one. -/
lemma scan_spec {P : Set VirtAddr} {f : Finder}
    (hP : ∀ x ∈ kernelAddresses, s.leaf (index x) = none → x ∈ P) (hf : f.Within P)
    (hp : p.toNat ≤ kernelEnd.toNat) (hb : p ∈ kernelAddresses → Boundary s p)
    (hn : kernelEnd.toNat + 4096 ≤ p.toNat + n * 4096) :
    ∃ f', scan pml4 s n p f = .ok f' ∧ f'.Within P := by
  induction n generalizing p f with
  | zero => omega
  | succ n ih =>
    rw [scan_round]
    split_ifs with hlt
    · obtain ⟨next, size, hok, hge, hhole⟩ := scanHole_spec ht hcr3 (n := 0x8000000)
        (show p.toNat = p.toNat + (0 : Word).toNat from rfl) hlt (hb hlt) (Nat.le_add_left _ _) (by simp)
      rw [hok]
      have hsub : addresses p size.toNat ⊆ P := fun x hx =>
        hP x (addresses_subset_kernel hhole.end_le hx) (hhole.free x hx)
      refine ih ?_ hhole.next_le hhole.boundary (by omega)
      split_ifs
      · exact ⟨hhole.end_le, hsub⟩
      · exact hf
    · exact ⟨f, rfl, hf⟩

/-- `UpdateFreeRegion` returns. -/
theorem updateFreeRegion_spec {P : Set VirtAddr} {f : Finder}
    (hP : ∀ x ∈ kernelAddresses, s.leaf (index x) = none → x ∈ P) (hf : f.Within P) :
    ∃ f', updateFreeRegion pml4 s f = .ok f' ∧ f'.Within P :=
  scan_spec ht hcr3 hP hf (Nat.zero_le _) (fun _ => boundary_zero s) (by decide)

/-- With no leaf behind a first page, all that follows it is taken as free. -/
theorem updateFreeRegion_of_first_page {f : Finder} (hfirst : s.leaf (index 0) ≠ none)
    (hrest : ∀ x ∈ kernelAddresses, (walkSize s 0).toNat ≤ x.toNat → s.leaf (index x) = none)
    (hlt : walkSize s 0 ∈ kernelAddresses)
    (hf : f.freeSize.toNat < kernelEnd.toNat - (walkSize s 0).toNat) :
    updateFreeRegion pml4 s f = .ok ⟨walkSize s 0, kernelEnd - walkSize s 0⟩ := by
  have hK : kernelEnd.toNat = 2 ^ 39 := rfl
  have hzero : (0 : Word) + walkSize s 0 = walkSize s 0 := BitVec.zero_add _
  have hb : Boundary s (walkSize s 0) := by
    have := boundary_next (boundary_zero s) (show (0 : Word).toNat < kernelEnd.toNat by decide)
    rw [hzero] at this
    exact this hlt
  obtain ⟨next, size, hok, -, hhole⟩ := scanHole_spec ht hcr3 (n := 0x8000000)
    (show (walkSize s 0).toNat = (walkSize s 0).toNat + (0 : Word).toNat from rfl) hlt hb
    (Nat.le_add_left _ _) (by simp)
  rcases hhole.last with ⟨x, hx, hge, hleaf⟩ | ⟨hsize, rfl⟩
  · exact absurd (hrest x hx hge) hleaf
  · have hsub : (kernelEnd - walkSize s 0).toNat = _ :=
      BitVec.toNat_sub_of_le (BitVec.le_def.mpr (by omega))
    obtain rfl : size = kernelEnd - walkSize s 0 := BitVec.eq_of_toNat_eq (by omega)
    have hlonger : f.freeSize < kernelEnd - walkSize s 0 := BitVec.lt_def.mpr (by omega)
    have hskip : ¬ f.freeSize < (0 : Word) := fun h => Nat.not_lt_zero _ (BitVec.lt_def.mp h)
    rw [updateFreeRegion_eq, scan_round, if_pos (by decide), scanHole_succ ht hcr3 (by rfl), if_pos hfirst]
    simp only [bind, Except.bind, hzero]
    rw [if_neg hskip, scan_round, if_pos (BitVec.lt_def.mpr hlt), hok]
    simp only [bind, Except.bind]
    rw [scan_round, if_neg (BitVec.lt_irrefl _), if_pos hlonger]

end

end

end Anarch.FreeFinder
