import Anarch.AllocatorPages
import Anarch.GlobalMapExact

/-! The pages of the kernel half as the table has them: each starts at a multiple of its size, and
has a physical address unless it is only reserved. -/
namespace Anarch.GlobalMap
open PageTable RadixTree AllocatorMapping

def heldBy (entry : Word) : Option PhysAddr :=
  if isPresent entry = true then some (entry &&& 0x7ffffffffffff000) else none

/-- The page of the kernel half that starts at an address. -/
def pagesOf {α : Type} (t : PageTable.State α) (v : VirtAddr) : Option Page :=
  if v.toNat < kernelEnd.toNat then
    (t.slot v).bind fun found =>
      if v % pageSizeAt found.1 = 0 then some (pageSizeAt found.1, heldBy found.2) else none
  else none

section
variable {start v x : VirtAddr} {pageSize : Word} {n d : ℕ}

lemma mem_pageStarts_iff (hpos : 0 < pageSize.toNat) (halign : start % pageSize = 0)
    (hend : start.toNat + n * pageSize.toNat ≤ 2 ^ 64) :
    v ∈ pageStarts start pageSize n ↔
      v ∈ addresses start (n * pageSize.toNat) ∧ v % pageSize = 0 := by
  rw [Nat.mul_comm] at hend ⊢
  rw [mod_eq_zero_iff] at halign ⊢
  constructor
  · intro hv
    obtain ⟨i, -, hi⟩ := toNat_of_mem_pageStarts hpos hend hv
    refine ⟨mem_range_of_mem_pageStarts hpos hend hv, ?_⟩
    rw [hi]
    exact Nat.dvd_add halign (Nat.dvd_mul_right ..)
  · rintro ⟨⟨hlow, hhigh⟩, hdvd⟩
    obtain ⟨i, hi⟩ : pageSize.toNat ∣ v.toNat - start.toNat := Nat.dvd_sub hdvd halign
    have hlt : pageSize.toNat * i < pageSize.toNat * n := by omega
    have hle : i ≤ pageSize.toNat * i := Nat.le_mul_of_pos_left i hpos
    refine List.mem_map.mpr ⟨i, List.mem_range.mpr (Nat.lt_of_mul_lt_mul_left hlt), ?_⟩
    apply BitVec.eq_of_toNat_eq
    change (pageAt start pageSize i).toNat = v.toNat
    rw [Nat.mul_comm] at hi hlt
    rw [pageAt_toNat (by omega) hpos, ← hi]
    omega

end

section
variable {α : Type} {s t : PageTable.State α} {start v x : VirtAddr} {e : Word} {page : Page}
variable {held : Option PhysAddr} {pageSize : Word} {n d : ℕ}

lemma pagesOf_eq_some : pagesOf t v = some page ↔ v ∈ kernelAddresses ∧ ∃ d e,
    t.slot v = some (d, e) ∧ v % pageSizeAt d = 0 ∧ page = (pageSizeAt d, heldBy e) := by
  rw [pagesOf]
  constructor
  · intro h
    split_ifs at h with hv
    obtain ⟨⟨d, e⟩, hslot, h⟩ := Option.bind_eq_some_iff.mp h
    split_ifs at h with halign
    exact ⟨hv, d, e, hslot, halign, (Option.some.inj h).symm⟩
  · rintro ⟨hv, d, e, hslot, halign, rfl⟩
    rw [if_pos (show v.toNat < kernelEnd.toNat from hv), hslot, Option.bind_some, if_pos halign]

lemma pagesOf_of_slot (hv : v ∈ kernelAddresses) (hslot : t.slot v = some (d, e))
    (halign : v % pageSizeAt d = 0) : pagesOf t v = some (pageSizeAt d, heldBy e) :=
  pagesOf_eq_some.mpr ⟨hv, d, e, hslot, halign, rfl⟩

lemma pagesOf_of_notMem (hv : v ∉ kernelAddresses) : pagesOf t v = none := if_neg hv

lemma pagesOf_of_slot_none (hslot : t.slot v = none) : pagesOf t v = none := by
  rw [pagesOf, hslot, Option.bind_none, ite_self]

lemma pagesOf_of_unaligned (hslot : t.slot v = none ∨ ∃ e, t.slot v = some (d, e))
    (halign : v % pageSizeAt d ≠ 0) : pagesOf t v = none := by
  rcases hslot with hslot | ⟨e, hslot⟩
  · exact pagesOf_of_slot_none hslot
  · rw [pagesOf, hslot, Option.bind_some, if_neg halign, ite_self]

lemma pagesOf_congr (h : v ∈ kernelAddresses → t.slot v = s.slot v) :
    pagesOf t v = pagesOf s v := by
  by_cases hv : v ∈ kernelAddresses
  · rw [pagesOf, pagesOf, h hv]
  · rw [pagesOf_of_notMem hv, pagesOf_of_notMem hv]

lemma slot_of_page (hv : v ∈ kernelAddresses) (hx : x ∈ kernelAddresses)
    (hslot : s.slot v = some (d, e)) (halign : v % pageSizeAt d = 0)
    (hin : x ∈ addresses v (pageSizeAt d).toNat) : s.slot x = some (d, e) := by
  obtain ⟨hne, hfind⟩ := slot_eq_some.mp hslot
  have hd : d ≤ 3 := by
    have := (find_spec s (index v)).1
    rwa [hfind] at this
  have hagree := (agree_iff_mem hd hv hx (toNat_mod_of_aligned halign)).mpr hin
  refine slot_eq_some.mpr ⟨hne, ?_⟩
  rw [find_congr s (by rw [hfind]; exact hagree), hfind]

lemma page_end_le (hd : d ≤ 3) (hv : v ∈ kernelAddresses) (halign : v % pageSizeAt d = 0) :
    v.toNat + (pageSizeAt d).toNat ≤ kernelEnd.toNat := by
  have hlt : v.toNat < 2 ^ 39 := hv
  have hmod := toNat_mod_of_aligned halign
  rw [show kernelEnd.toNat = 2 ^ 39 from rfl]
  rw [pageSizeAt_toNat hd] at hmod ⊢
  rcases (by omega : d = 0 ∨ d = 1 ∨ d = 2 ∨ d = 3) with rfl | rfl | rfl | rfl
  all_goals
    simp only [Nat.reducePow, Nat.reduceMul, Nat.reduceSub] at *
    omega

section
variable (hd : d ≤ 3) (halign : start % pageSizeAt d = 0)
variable (hend : start.toNat + n * (pageSizeAt d).toNat ≤ kernelEnd.toNat)
variable (hout : ∀ x ∈ kernelAddresses, x ∉ addresses start (n * (pageSizeAt d).toNat) →
  t.slot x = s.slot x)
variable (hold : ∀ x ∈ addresses start (n * (pageSizeAt d).toNat),
  s.slot x = none ∨ ∃ e, s.slot x = some (d, e))
include hd halign hend hout hold

lemma pagesOf_set {f : VirtAddr → Option PhysAddr}
    (hin : ∀ x ∈ addresses start (n * (pageSizeAt d).toNat), ∃ e, t.slot x = some (d, e) ∧
      (x % pageSizeAt d = 0 → heldBy e = f x)) :
    pagesOf t = fun v =>
      if v ∈ pageStarts start (pageSizeAt d) n then some (pageSizeAt d, f v)
      else pagesOf s v := by
  have hK : kernelEnd.toNat = 2 ^ 39 := rfl
  funext v
  have hstarts := mem_pageStarts_iff (v := v) (pageSizeAt_pos hd) halign
    (show start.toNat + n * (pageSizeAt d).toNat ≤ 2 ^ 64 by omega)
  by_cases hv : v ∈ addresses start (n * (pageSizeAt d).toNat)
  · obtain ⟨e, hslot, hheld⟩ := hin v hv
    by_cases hmod : v % pageSizeAt d = 0
    · have hvK := addresses_subset_kernel hend hv
      rw [if_pos (hstarts.mpr ⟨hv, hmod⟩), pagesOf_of_slot hvK hslot hmod, hheld hmod]
    · have hinside : v ∉ pageStarts start (pageSizeAt d) n := fun h => hmod (hstarts.mp h).2
      rw [if_neg hinside, pagesOf_of_unaligned (.inr ⟨e, hslot⟩) hmod,
        pagesOf_of_unaligned (hold v hv) hmod]
  · rw [if_neg fun h => hv (hstarts.mp h).1]
    exact pagesOf_congr fun hvK => hout v hvK hv

lemma pagesOf_clear
    (hin : ∀ x ∈ addresses start (n * (pageSizeAt d).toNat), t.slot x = none) :
    pagesOf t = fun v =>
      if v ∈ pageStarts start (pageSizeAt d) n then none else pagesOf s v := by
  have hK : kernelEnd.toNat = 2 ^ 39 := rfl
  funext v
  have hstarts := mem_pageStarts_iff (v := v) (pageSizeAt_pos hd) halign
    (show start.toNat + n * (pageSizeAt d).toNat ≤ 2 ^ 64 by omega)
  by_cases hv : v ∈ addresses start (n * (pageSizeAt d).toNat)
  · rw [pagesOf_of_slot_none (hin v hv)]
    by_cases hmod : v % pageSizeAt d = 0
    · rw [if_pos (hstarts.mpr ⟨hv, hmod⟩)]
    · rw [if_neg fun h => hmod (hstarts.mp h).2, pagesOf_of_unaligned (hold v hv) hmod]
  · rw [if_neg fun h => hv (hstarts.mp h).1]
    exact pagesOf_congr fun hvK => hout v hvK hv

end

lemma pageStarts_end_le (hd : d = 2 ∨ d = 3) (hn : 0 < n)
    (hpages : ∀ v ∈ pageStarts start (pageSizeAt d) n,
      v ∈ kernelAddresses ∧ v % pageSizeAt d = 0) :
    start.toNat + n * (pageSizeAt d).toNat ≤ kernelEnd.toNat := by
  have hK : kernelEnd.toNat = 2 ^ 39 := rfl
  have hd3 : d ≤ 3 := by omega
  have hsize : (pageSizeAt d).toNat ≤ 2 ^ 21 := by
    rcases hd with rfl | rfl <;> decide
  have hpos := pageSizeAt_pos hd3
  -- no page is so large that the next one could start beyond the end of a word
  have hstarts : ∀ i < n, start.toNat + i * (pageSizeAt d).toNat < 2 ^ 39 ∧
      pageAt start (pageSizeAt d) i ∈ pageStarts start (pageSizeAt d) n := by
    intro i hi
    have hmem : pageAt start (pageSizeAt d) i ∈ pageStarts start (pageSizeAt d) n :=
      List.mem_map.mpr ⟨i, List.mem_range.mpr hi, rfl⟩
    refine ⟨?_, hmem⟩
    induction i with
    | zero =>
      have hstart := (hpages _ hmem).1
      rw [pageAt_zero] at hstart
      have hlt : start.toNat < 2 ^ 39 := hstart
      omega
    | succ i ih =>
      have hprev := ih (by omega) (List.mem_map.mpr ⟨i, List.mem_range.mpr (by omega), rfl⟩)
      have hlt : (pageAt start (pageSizeAt d) (i + 1)).toNat < 2 ^ 39 := (hpages _ hmem).1
      rw [Nat.succ_mul] at *
      rwa [pageAt_toNat (by rw [Nat.succ_mul]; omega) hpos, Nat.succ_mul] at hlt
  obtain ⟨hlast, hmem⟩ := hstarts (n - 1) (by omega)
  obtain ⟨hK', hmod⟩ := hpages _ hmem
  have hlastEnd := page_end_le hd3 hK' hmod
  rw [pageAt_toNat (by omega) hpos] at hlastEnd
  obtain ⟨m, rfl⟩ := Nat.exists_eq_succ_of_ne_zero hn.ne'
  rw [Nat.succ_sub_one] at hlastEnd
  rw [Nat.succ_mul]
  omega

end

end Anarch.GlobalMap
