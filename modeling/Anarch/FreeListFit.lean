import Anarch.FreeListRun
import Mathlib.Order.Bounds.Basic

/-! `Free` merges what it can, and `Alloc` finds the lowest place for a request, against the set
of addresses on the list. -/
namespace Anarch.FreeList
open IntervalCover

/-- `Free` returns a list of the same kind, with the released range added. -/
def Coalesces (regions : List Region) (addr : VirtAddr) (pageSize pageCount : Word) : Prop :=
  ∃ out, free regions addr pageSize pageCount = .ok out ∧ WellFormed out ∧
    addresses out = addresses regions ∪
      Set.Ico (byteRange addr pageSize pageCount).1 (byteRange addr pageSize pageCount).2

/-- The starts of the ranges of pages that lie in the covered addresses. -/
def fits (regions : List Region) (pageSize pageCount : Word) : Set ℕ :=
  {a | a % pageSize.toNat = 0 ∧
    Set.Ico a (a + pageSize.toNat * pageCount.toNat) ⊆ addresses regions}

section
variable {regions : List Region} {addr start : VirtAddr} {pageSize pageCount : Word}

lemma positive_of_room (hpos : 0 < pageSize.toNat * pageCount.toNat)
    (hend : addr.toNat + pageSize.toNat * pageCount.toNat ≤ 2 ^ 64)
    (hroom : ∃ x < 2 ^ 64, x ∉ Set.Ico (byteRange addr pageSize pageCount).1
      (byteRange addr pageSize pageCount).2) : Positive pageSize pageCount := by
  obtain ⟨x, hx, hout⟩ := hroom
  simp only [byteRange, Set.mem_Ico, not_and, not_lt] at hout
  refine ⟨Nat.pos_of_mul_pos_right hpos, Nat.pos_of_mul_pos_left hpos, ?_⟩
  by_contra hfull
  have := hout (by omega)
  omega

/-- Unless the regions and the released range are all there is, `Free` keeps the list sorted and
without neighbours, and adds exactly the range. -/
theorem free_coalesces (h : WellFormed regions) (hpos : 0 < pageSize.toNat * pageCount.toNat)
    (hend : addr.toNat + pageSize.toNat * pageCount.toNat ≤ 2 ^ 64)
    (hd : Disjoint (Set.Ico (byteRange addr pageSize pageCount).1
      (byteRange addr pageSize pageCount).2) (addresses regions))
    (hroom : ∃ x < 2 ^ 64, x ∉ addresses regions ∪
      Set.Ico (byteRange addr pageSize pageCount).1 (byteRange addr pageSize pageCount).2) :
    Coalesces regions addr pageSize pageCount := by
  obtain ⟨x, hx, hout⟩ := hroom
  have hp := positive_of_room hpos hend ⟨x, hx, fun hm => hout (.inr hm)⟩
  have hsize : (pageSize * pageCount).toNat = pageSize.toNat * pageCount.toNat := by
    rw [BitVec.toNat_mul, Nat.mod_eq_of_lt hp.2.2]
  have hfits : Region.Fits ⟨addr, pageSize * pageCount⟩ := ⟨hp.size_pos, by rw [hsize]; exact hend⟩
  rw [← hp.span_eq addr] at hd hout
  rw [Set.union_comm] at hout
  obtain ⟨out, hfree, hwf, haddr⟩ := freeFrom_spec h hfits hd ⟨x, hx, hout⟩
  refine ⟨out, bind_eq_ok.mpr ⟨_, Region.new_of_fits hfits, hfree⟩, hwf, ?_⟩
  rw [haddr, hp.span_eq, Set.union_comm]

end

/-- A page released between two others: one region is left. -/
theorem free_coalesces_middle_page : free [⟨0x1000, 0x1000⟩, ⟨0x3000, 0x1000⟩] 0x2000 0x1000 1 =
      .ok [⟨0x1000, 0x3000⟩] ∧
    Coalesces [⟨0x1000, 0x1000⟩, ⟨0x3000, 0x1000⟩] 0x2000 0x1000 1 := by
  have hwf : WellFormed [⟨0x1000, 0x1000⟩, ⟨0x3000, 0x1000⟩] := by
    refine .cons ⟨by decide, by decide⟩ (.cons ⟨by decide, by decide⟩ .nil (by simp)) ?_
    intro x hx
    rw [addresses_cons, addresses_nil, Set.union_empty] at hx
    exact lt_of_lt_of_le (by decide) hx.1
  refine ⟨by decide, free_coalesces hwf (by decide) (by decide) ?_ ⟨0, by decide, ?_⟩⟩
  · rw [addresses_cons, addresses_cons, addresses_nil, Set.union_empty]
    exact Set.disjoint_union_right.mpr
      ⟨Set.Ico_disjoint_Ico.mpr (by decide), Set.Ico_disjoint_Ico.mpr (by decide)⟩
  · rw [addresses_cons, addresses_cons, addresses_nil, Set.union_empty]
    rintro ((hx | hx) | hx) <;> exact absurd hx.1 (by decide)

/-- The upper half of the address space released next to the lower one: the size of the merged
region is 2^64, which is 0 in a word. -/
theorem whole_space_does_not_coalesce : ∃ regions addr pageSize pageCount,
    WellFormed regions ∧ 0 < pageSize.toNat * pageCount.toNat ∧
    addr.toNat + pageSize.toNat * pageCount.toNat ≤ 2 ^ 64 ∧
    Disjoint (Set.Ico (byteRange addr pageSize pageCount).1
      (byteRange addr pageSize pageCount).2) (addresses regions) ∧
    ¬ Coalesces regions addr pageSize pageCount := by
  refine ⟨[⟨0, 0x8000000000000000⟩], 0x8000000000000000, 0x8000000000000000, 1,
    .cons ⟨by decide, by decide⟩ .nil (by simp), by decide, by decide, ?_, ?_⟩
  · rw [addresses_cons, addresses_nil, Set.union_empty]
    exact Set.Ico_disjoint_Ico.mpr (by decide)
  · rintro ⟨out, hfree, hwf, -⟩
    have hout : free [⟨0, 0x8000000000000000⟩] 0x8000000000000000 0x8000000000000000 1 =
      .ok [⟨0, 0⟩] := by decide
    obtain rfl := Except.ok.inj (hout.symm.trans hfree)
    exact absurd hwf.head.1 (by decide)

lemma isLeast_multiple (a : ℕ) {p : ℕ} (hp : 0 < p) :
    IsLeast {m | a ≤ m ∧ m % p = 0} (a + if a % p = 0 then 0 else p - a % p) := by
  have hlt : a % p < p := Nat.mod_lt a hp
  have hdiv : p * (a / p) + a % p = a := Nat.div_add_mod a p
  constructor
  · refine ⟨Nat.le_add_right .., ?_⟩
    split_ifs with h0
    · exact h0
    · rw [show a + (p - a % p) = p * (a / p + 1) by rw [Nat.mul_succ]; omega]
      exact Nat.mul_mod_right ..
  · rintro m ⟨hle, hm⟩
    obtain ⟨k, rfl⟩ := Nat.dvd_of_mod_eq_zero hm
    split_ifs with h0
    · omega
    · have hk : a / p < k := by
        by_contra hk
        have := Nat.mul_le_mul_left p (not_lt.mp hk)
        omega
      have := Nat.mul_le_mul_left p hk
      rw [Nat.mul_succ] at this
      omega

section
variable {reg : Region} {regions next : List Region} {pageSize pageCount : Word}

lemma noWrap_of_lt (hpage : 0 < pageSize.toNat) (hcount : 0 < pageCount.toNat)
    (hlt : pageSize.toNat * pageCount.toNat + pageSize.toNat < 2 ^ 64) :
    NoWrap pageSize pageCount := ⟨hpage, hcount, by rw [Nat.mul_succ]; exact hlt.le⟩

lemma request_isLeast (hr : reg.Fits) (hn : NoWrap pageSize pageCount)
    (hroom : reg.hasRoom pageSize pageCount = true) :
    IsLeast {m | reg.span.1 ≤ m ∧ m % pageSize.toNat = 0}
      (reg.request pageSize pageCount).start.toNat := by
  rw [request_start hr hn hroom, Region.chopSize_toNat reg.start hn.1]
  exact isLeast_multiple reg.start.toNat hn.1

lemma hasRoom_of_inside (hn : NoWrap pageSize pageCount) {a : ℕ}
    (ha : a % pageSize.toNat = 0) (hlow : reg.span.1 ≤ a)
    (hhigh : a + pageSize.toNat * pageCount.toNat ≤ reg.span.2) :
    reg.hasRoom pageSize pageCount = true := by
  have hleast := (isLeast_multiple reg.start.toNat hn.1).2 ⟨hlow, ha⟩
  rw [← Region.chopSize_toNat reg.start hn.1] at hleast
  rw [Region.span_snd] at hhigh
  rw [hasRoom_iff reg hn]
  omega

lemma fits_cons (h : WellFormed (reg :: next)) (hn : NoWrap pageSize pageCount) {a : ℕ} :
    a ∈ fits (reg :: next) pageSize pageCount ↔
      (a % pageSize.toNat = 0 ∧ reg.span.1 ≤ a ∧
        a + pageSize.toNat * pageCount.toNat ≤ reg.span.2) ∨
      a ∈ fits next pageSize pageCount := by
  have hpos : 0 < pageSize.toNat * pageCount.toNat := Nat.mul_pos hn.1 hn.2.1
  constructor
  · rintro ⟨hmod, hin⟩
    obtain ⟨s, hs, hlow, hhigh⟩ := h.separated.exists_of_subset (by omega) hin
    obtain ⟨r, hr, rfl⟩ := List.mem_map.mp hs
    rcases List.mem_cons.mp hr with rfl | hr
    · exact .inl ⟨hmod, hlow, hhigh⟩
    · exact .inr ⟨hmod, (Set.Ico_subset_Ico hlow hhigh).trans
        (subset_cover (List.mem_map_of_mem hr))⟩
  · rintro (⟨hmod, hlow, hhigh⟩ | ⟨hmod, hin⟩)
    · refine ⟨hmod, ?_⟩
      rw [addresses_cons]
      exact (Set.Ico_subset_Ico hlow hhigh).trans Set.subset_union_left
    · refine ⟨hmod, ?_⟩
      rw [addresses_cons]
      exact hin.trans Set.subset_union_right

lemma alloc_finds (h : WellFormed regions) (hn : NoWrap pageSize pageCount)
    (hstart : ∀ r ∈ regions, r.start ≠ 0) :
    ∃ addr out, alloc pageSize pageCount regions = .ok (addr, out) ∧
      (addr = 0 ∧ fits regions pageSize pageCount = ∅ ∨
        addr ≠ 0 ∧ IsLeast (fits regions pageSize pageCount) addr.toNat) := by
  have hp : pageSize ≠ 0 := by
    rintro rfl
    exact absurd hn.1 (by decide)
  have hpos : 0 < pageSize.toNat * pageCount.toNat := Nat.mul_pos hn.1 hn.2.1
  induction regions with
  | nil =>
    refine ⟨0, [], rfl, .inl ⟨rfl, Set.eq_empty_of_forall_notMem ?_⟩⟩
    rintro a ⟨-, hin⟩
    rw [addresses_nil] at hin
    exact hin ⟨le_rfl, by omega⟩
  | cons reg next ih =>
    have hfits := fun a => fits_cons h hn (a := a)
    cases hroom : reg.hasRoom pageSize pageCount
    · obtain ⟨addr, out, hok, hres⟩ := ih h.tail fun r hr => hstart r (List.mem_cons_of_mem reg hr)
      have hsame : fits (reg :: next) pageSize pageCount = fits next pageSize pageCount := by
        ext a
        rw [hfits a, or_iff_right]
        rintro ⟨hmod, hlow, hhigh⟩
        rw [hasRoom_of_inside hn hmod hlow hhigh] at hroom
        cases hroom
      refine ⟨addr, reg :: out, ?_, hsame ▸ hres⟩
      simp [alloc, Region.canHold, checkedMod_of_ne hp, hroom, hok, bind, Except.bind, pure,
        Except.pure]
    · obtain ⟨hreq, hlow, hhigh⟩ := request_inside h.head hn hroom
      have hcontains := (Region.contains_iff h.head hreq).mpr ⟨hlow, hhigh⟩
      obtain ⟨out, hout⟩ := allocInRegion_returns h.head hreq hcontains next
      have hleast := request_isLeast h.head hn hroom
      have hsize : (reg.request pageSize pageCount).size.toNat =
        pageSize.toNat * pageCount.toNat := hn.bytes_toNat
      refine ⟨(reg.request pageSize pageCount).start, out, ?_, .inr ⟨?_, ?_, ?_⟩⟩
      · have hnew := Region.new_of_fits hreq
        simp only [Region.request] at hnew hout ⊢
        simp [alloc, Region.canHold, checkedMod_of_ne hp, hroom, hnew, hout, bind, Except.bind,
          pure, Except.pure]
      · intro hzero
        rw [Region.span_fst, Region.span_fst, hzero] at hlow
        exact hstart reg List.mem_cons_self (BitVec.eq_of_toNat_eq (Nat.le_zero.mp hlow))
      · rw [Region.span_snd, hsize] at hhigh
        exact (hfits _).mpr (.inl ⟨hleast.1.2, hleast.1.1, hhigh⟩)
      · intro a ha
        rcases (hfits a).mp ha with ⟨hmod, hlow', -⟩ | ha
        · exact hleast.2 ⟨hlow', hmod⟩
        · have hlater := h.lt_of_mem (ha.2 ⟨le_rfl, by omega⟩)
          rw [Region.span_snd, hsize] at hhigh
          omega

/-- `Alloc` fails only if no aligned range of the size is on the list, and finds the lowest one
otherwise; `AllocAt` succeeds exactly on aligned ranges that are on the list. -/
theorem alloc_lowest_fit (h : WellFormed regions) (hstart : ∀ r ∈ regions, r.start ≠ 0)
    (hpage : 0 < pageSize.toNat) (hcount : 0 < pageCount.toNat)
    (hlt : pageSize.toNat * pageCount.toNat + pageSize.toNat < 2 ^ 64) :
    (∃ addr out, alloc pageSize pageCount regions = .ok (addr, out) ∧
      (addr = 0 ↔ fits regions pageSize pageCount = ∅) ∧
      (addr ≠ 0 → IsLeast (fits regions pageSize pageCount) addr.toNat)) ∧
    ∀ start : VirtAddr, start.toNat + pageSize.toNat * pageCount.toNat ≤ 2 ^ 64 →
      ∃ found out, allocAt regions start pageSize pageCount = .ok (found, out) ∧
        (found = true ↔ start.toNat ∈ fits regions pageSize pageCount) := by
  have hn := noWrap_of_lt hpage hcount hlt
  refine ⟨?_, fun start hend => ?_⟩
  · obtain ⟨addr, out, hok, ⟨hzero, hnone⟩ | ⟨hne, hleast⟩⟩ := alloc_finds h hn hstart
    · exact ⟨addr, out, hok, ⟨fun _ => hnone, fun _ => hzero⟩, fun hne => absurd hzero hne⟩
    · refine ⟨addr, out, hok, ⟨fun hzero => absurd hzero hne, fun hnone => ?_⟩, fun _ => hleast⟩
      exact absurd hleast.1 (hnone ▸ Set.notMem_empty _)
  · have hp : pageSize ≠ 0 := by
      rintro rfl
      exact absurd hpage (by decide)
    have hpos : 0 < pageSize.toNat * pageCount.toNat := Nat.mul_pos hpage hcount
    have hmod : (start % pageSize).toNat = start.toNat % pageSize.toNat := BitVec.toNat_umod
    rw [allocAt, checkedMod_of_ne hp]
    simp only [bind, Except.bind]
    by_cases halign : start % pageSize = 0
    · have hfits : Region.Fits ⟨start, pageSize * pageCount⟩ :=
        ⟨by rw [hn.bytes_toNat]; exact hpos, by rw [hn.bytes_toNat]; exact hend⟩
      obtain ⟨found, out, hok, hfound⟩ := allocAtFrom_finds h hfits
      rw [if_neg (not_not.mpr halign), Region.new_of_fits hfits]
      refine ⟨found, out, hok, hfound.trans ?_⟩
      rw [Region.span, hn.bytes_toNat, fits, Set.mem_ofPred_eq, and_iff_right]
      rw [← hmod, halign]
      rfl
    · rw [if_pos halign]
      refine ⟨false, regions, rfl, fun hfalse => absurd hfalse (by decide), fun hin => ?_⟩
      exact absurd (BitVec.eq_of_toNat_eq (y := 0) (hmod.trans hin.1)) halign

end

/-- Two pages of 3 bytes, in the second of two regions. -/
theorem alloc_lowest_fit_odd_pages :
    (∃ out, alloc 3 2 [⟨0x10, 7⟩, ⟨0x20, 8⟩] = .ok (0x21, out)) ∧
      IsLeast (fits [⟨0x10, 7⟩, ⟨0x20, 8⟩] 3 2) 0x21 := by
  have hwf : WellFormed [⟨0x10, 7⟩, ⟨0x20, 8⟩] := by
    refine .cons ⟨by decide, by decide⟩ (.cons ⟨by decide, by decide⟩ .nil (by simp)) ?_
    intro x hx
    rw [addresses_cons, addresses_nil, Set.union_empty] at hx
    exact lt_of_lt_of_le (by decide) hx.1
  have hrun : alloc 3 2 [⟨0x10, 7⟩, ⟨0x20, 8⟩] = .ok (0x21, [⟨0x10, 7⟩, ⟨0x20, 1⟩, ⟨0x27, 1⟩]) := by
    decide
  obtain ⟨addr, out, hok, -, hleast⟩ := (alloc_lowest_fit hwf (by decide) (by decide)
    (by decide : 0 < (2 : Word).toNat) (by decide : (3 : Word).toNat * _ + _ < _)).1
  obtain ⟨rfl, -⟩ := Prod.mk.inj (Except.ok.inj (hrun.symm.trans hok))
  exact ⟨⟨_, hrun⟩, hleast (by decide)⟩

end Anarch.FreeList
