import Anarch.FreeFinderScan
import Anarch.LongestRun

/-! `UpdateFreeRegion` on any page table with a recursive entry: it walks over the kernel half
page by page, and ends with the first longest hole if that is longer than the old candidate. -/
namespace Anarch.FreeFinder
open PageTable LongestRun

section
variable {α : Type} (pml4 : PhysAddr) (table : PageTable.State α)

/-- `Walk` returns a depth that is not negative and an entry that is not zero. -/
def Reported (x : VirtAddr) : Prop :=
  ∃ found, walk pml4 x table = .ok found ∧ found.depth ≠ none ∧ found.entry ≠ 0

/-- The addresses of the kernel half that are not reported. The holes are its runs. -/
def unreported : Set ℕ := {x | x < kernelEnd.toNat ∧ ¬ Reported pml4 table (.ofNat 64 x)}

def Finder.span (f : Finder) : ℕ × ℕ := (f.freeStart.toNat, f.freeSize.toNat)

/-- The old candidate if no hole is longer, else the first of the longest holes. -/
def LargestHole (old new : Finder) : Prop :=
  Keeps (unreported pml4 table) kernelEnd.toNat kernelEnd.toNat old.span new.span

variable {pml4 table} {used : α → Set Frame} {s : PageTable.State α} {f : Finder} {n : ℕ}
variable {p start next : VirtAddr} {size : Word}

lemma exists_word {a b x : ℕ} (hx : x ∈ Set.Ico a b) (hb : b ≤ kernelEnd.toNat) :
    ∃ y : VirtAddr, y.toNat = x ∧ y ∈ kernelAddresses := by
  have hK : kernelEnd.toNat = 2 ^ 39 := rfl
  have hlt : x < b := hx.2
  have hy : (BitVec.ofNat 64 x).toNat = x := Nat.mod_eq_of_lt (by omega)
  exact ⟨.ofNat 64 x, hy, show (BitVec.ofNat 64 x).toNat < _ by omega⟩

lemma span_longer (f : Finder) (p : VirtAddr) (size : Word) :
    Finder.span (if f.freeSize < size then ⟨p, size⟩ else f) =
      if f.span.2 < p.toNat + size.toNat - p.toNat then
        (p.toNat, p.toNat + size.toNat - p.toNat) else f.span := by
  have hiff : f.freeSize < size ↔ f.span.2 < size.toNat := BitVec.lt_def
  rw [Nat.add_sub_cancel_left]
  by_cases hlt : f.freeSize < size
  · rw [if_pos hlt, if_pos (hiff.mp hlt)]
    rfl
  · rw [if_neg hlt, if_neg (mt hiff.mpr hlt)]

section
variable (hself : link (s.mem s.root 0x1ff) = some s.root) (hcr3 : s.cr3 = pml4)
include hself hcr3

lemma reported_iff (x : VirtAddr) : Reported pml4 s x ↔ s.leaf (index x) ≠ none := by
  rw [Reported, walk_eq hself hcr3, State.leaf, ← walkResult_seen]
  constructor
  · rintro ⟨found, hok, hseen⟩
    rwa [← Except.ok.inj hok] at hseen
  · exact fun hseen => ⟨_, rfl, hseen⟩

lemma mem_unreported {x : VirtAddr} (hx : x ∈ kernelAddresses) :
    x.toNat ∈ unreported pml4 s ↔ s.leaf (index x) = none := by
  rw [unreported, Set.mem_ofPred_eq, BitVec.ofNat_toNat, BitVec.setWidth_eq,
    reported_iff hself hcr3, not_not]
  exact and_iff_right hx

lemma Passed.stretch (h : Passed s start next size)
    (hstart : start.toNat = 0 ∨ start.toNat - 1 ∉ unreported pml4 s) :
    Stretch (unreported pml4 s) kernelEnd.toNat start.toNat (start.toNat + size.toNat)
      next.toNat ∧ (next.toNat = 0 ∨ next.toNat - 1 ∉ unreported pml4 s ∨ next = kernelEnd) := by
  have hfree : Set.Ico start.toNat (start.toNat + size.toNat) ⊆ unreported pml4 s := by
    intro x hx
    obtain ⟨y, rfl, hy⟩ := exists_word hx h.end_le
    exact (mem_unreported hself hcr3 hy).mpr (h.free y (mem_addresses.mpr hx))
  rcases h.last with ⟨q, hq, hsum, hb, hleaf, rfl⟩ | ⟨hend, rfl⟩
  · have hge := walkSize_ge s q
    have hpage := toNat_page_end hb hq
    have hle := page_end_le hb hq
    have hoff : ∀ x ∈ Set.Ico (start.toNat + size.toNat) (q + walkSize s q).toNat,
        x ∉ unreported pml4 s := by
      intro x hx
      obtain ⟨y, rfl, hy⟩ := exists_word hx (by omega)
      rw [← hsum, hpage] at hx
      rw [mem_unreported hself hcr3 hy, State.leaf, find_of_mem hb hq hy (mem_addresses.mpr hx)]
      exact hleaf
    exact ⟨⟨hstart, by omega, hfree, hoff, .inr ⟨by omega, by omega⟩⟩,
      .inr (.inl (hoff _ ⟨by omega, by omega⟩))⟩
  · refine ⟨⟨hstart, by omega, hfree, fun x hx => ?_, .inl ⟨hend, rfl⟩⟩, .inr (.inr rfl)⟩
    rw [hend] at hx
    exact absurd hx.1 (not_le.mpr hx.2)

lemma scanSteps_spec {old : Finder} (hp : p.toNat ≤ kernelEnd.toNat)
    (hb : p ∈ kernelAddresses → Boundary s p)
    (hstart : p.toNat = 0 ∨ p.toNat - 1 ∉ unreported pml4 s ∨ p = kernelEnd)
    (hkeeps : Keeps (unreported pml4 s) kernelEnd.toNat p.toNat old.span f.span)
    (hn : kernelEnd.toNat + 4096 ≤ p.toNat + n * 4096) :
    ∃ f' steps, scanSteps pml4 s n p f = .ok (f', steps) ∧
      Tiles pml4 s steps p.toNat kernelEnd.toNat ∧ LargestHole pml4 s old f' := by
  induction n generalizing p f with
  | zero => omega
  | succ n ih =>
    rw [scanSteps]
    by_cases hlt : p < kernelEnd
    · obtain ⟨next, size, steps, hok, hge, htiles, hpassed⟩ := scanHoleSteps_spec hself hcr3
        (n := 0x8000000) (show p.toNat = p.toNat + (0 : Word).toNat from rfl) hlt (hb hlt)
        (Nat.le_add_left _ _) (by simp)
      have hstart' : p.toNat = 0 ∨ p.toNat - 1 ∉ unreported pml4 s :=
        hstart.imp id fun h => h.resolve_right fun heq => absurd hlt (heq ▸ BitVec.lt_irrefl p)
      obtain ⟨hstretch, hnext⟩ := hpassed.stretch hself hcr3 hstart'
      have hlonger := hstretch.keeps hkeeps
      rw [← span_longer] at hlonger
      obtain ⟨f', rest, hrest, htiles', hlargest⟩ :=
        ih hpassed.hole.next_le hpassed.hole.boundary hnext hlonger (by omega)
      rw [if_pos hlt, hok]
      simp only [bind, Except.bind]
      rw [hrest]
      exact ⟨f', _, rfl, htiles.append htiles', hlargest⟩
    · have hdone : p.toNat = kernelEnd.toNat := by
        rw [BitVec.lt_def] at hlt
        omega
      rw [if_neg hlt]
      rw [hdone] at hkeeps
      exact ⟨f, [], rfl, hdone, hkeeps⟩

/-- The scan ends. Its steps are pages that tile the kernel half, and the candidate is the first
longest hole, or the old one. -/
theorem updateFreeRegion_largest_hole (f : Finder) :
    ∃ f' steps, updateFreeRegion pml4 s f = .ok f' ∧
      updateFreeRegionSteps pml4 s f = .ok (f', steps) ∧
      Tiles pml4 s steps 0 kernelEnd.toNat ∧ LargestHole pml4 s f f' := by
  obtain ⟨f', steps, hok, htiles, hlargest⟩ := scanSteps_spec hself hcr3 (n := 0x8000001)
    (Nat.zero_le _) (fun _ => boundary_zero s) (.inl rfl) (keeps_zero _ _ f.span) (by decide)
  have hsteps : updateFreeRegionSteps pml4 s f = .ok (f', steps) := hok
  exact ⟨f', steps, by rw [updateFreeRegion, hsteps]; rfl, hsteps, htiles, hlargest⟩

/-- The first longest run is what the scan ends with, if it is longer than the candidate. -/
lemma updateFreeRegion_of_run {g : Finder} (f : Finder)
    (hrun : IsRun (unreported pml4 s) kernelEnd.toNat g.freeStart.toNat
      (g.freeStart.toNat + g.freeSize.toNat))
    (hfirst : ∀ a b, IsRun (unreported pml4 s) kernelEnd.toNat a b →
      b - a ≤ g.freeSize.toNat ∧ (b - a = g.freeSize.toNat → g.freeStart.toNat ≤ a))
    (hlonger : f.freeSize.toNat < g.freeSize.toNat) : updateFreeRegion pml4 s f = .ok g := by
  obtain ⟨f', -, hok, -, -, hlargest⟩ := updateFreeRegion_largest_hole hself hcr3 f
  rcases hlargest with ⟨-, hnone⟩ | ⟨a, b, hab, -, -, hspan, hmax⟩
  · have hshort : _ ≤ f.freeSize.toNat := hnone _ _ hrun hrun.le
    omega
  · obtain ⟨hle, hbefore⟩ := hmax _ _ hrun hrun.le
    obtain ⟨hle', hbefore'⟩ := hfirst a b hab
    obtain ⟨hstart, hsize⟩ : f'.freeStart.toNat = a ∧ f'.freeSize.toNat = b - a :=
      Prod.mk.inj hspan
    have hlt := hab.lt
    rw [hok]
    obtain ⟨start, size⟩ := f'
    obtain ⟨start', size'⟩ := g
    obtain rfl : start = start' := BitVec.eq_of_toNat_eq (by simp only at *; omega)
    obtain rfl : size = size' := BitVec.eq_of_toNat_eq (by simp only at *; omega)
    rfl

end

end

/-- Nothing is mapped: the kernel half is one hole, and one step of 512 GiB. -/
theorem updateFreeRegion_largest_hole_empty_map :
    updateFreeRegion 0x1000 emptyMap ⟨0x5000, 0x1000⟩ = .ok ⟨0, kernelEnd⟩ ∧
      Tiles 0x1000 emptyMap [(0, 0x8000000000)] 0 kernelEnd.toNat ∧
      LargestHole 0x1000 emptyMap ⟨0x5000, 0x1000⟩ ⟨0, kernelEnd⟩ := by
  have hrun : updateFreeRegionSteps 0x1000 emptyMap ⟨0x5000, 0x1000⟩ =
      .ok (⟨0, kernelEnd⟩, [(0, 0x8000000000)]) := by decide +kernel
  obtain ⟨f, steps, hok, hsteps, htiles, hlargest⟩ :=
    updateFreeRegion_largest_hole (s := emptyMap) rfl rfl
      ⟨0x5000, 0x1000⟩
  obtain ⟨rfl, rfl⟩ := Prod.mk.inj (Except.ok.inj (hrun.symm.trans hsteps))
  exact ⟨hok, htiles, hlargest⟩

end Anarch.FreeFinder
