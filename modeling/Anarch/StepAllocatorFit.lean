import Anarch.StepAllocator
import Mathlib.Data.List.Pairwise

/-! The allocator of frames takes the lowest place that fits, over regions in order. -/
namespace Anarch.StepAllocator
open MultibootRegionList TransitionRun

/-- Both lists are sorted, the lower regions are below the upper ones, and the regions are not
empty, do not overlap and hold addresses below `2 ^ 48`. -/
structure Layout (regions : Lists) : Prop where
  lower_sorted : regions.lowerRegions.Pairwise fun a b => a.start ≤ b.start
  upper_sorted : regions.upperRegions.Pairwise fun a b => a.start ≤ b.start
  below : ∀ a ∈ regions.lowerRegions, ∀ b ∈ regions.upperRegions, a.span.2 ≤ b.span.1
  nonempty : ∀ r ∈ allRegions regions, r.span.1 < r.span.2
  disjoint : (allRegions regions).Pairwise fun a b =>
    Disjoint (Set.Ico a.span.1 a.span.2) (Set.Ico b.span.1 b.span.2)
  small : ∀ r ∈ allRegions regions, r.span.2 ≤ 2 ^ 48

/-- The address is in a region, or at its end. -/
def Placed (regions : Lists) (lastAddr : PhysAddr) : Prop :=
  ∃ r ∈ allRegions regions, r.span.1 ≤ lastAddr.toNat ∧ lastAddr.toNat ≤ r.span.2

/-- So many bytes from an address on lie in one region. -/
def Inside (regions : Lists) (a n : ℕ) : Prop :=
  ∃ r ∈ allRegions regions, r.span.1 ≤ a ∧ a + n ≤ r.span.2

/-- The places for a request, from an address on. -/
def places (regions : Lists) (lastAddr : PhysAddr) (size align : Word) : Set ℕ :=
  {a | lastAddr.toNat ≤ a ∧ align.toNat ∣ a ∧ Inside regions a size.toNat}

/-- A size and an alignment of whole pages. -/
def WholePages (size align : Word) : Prop :=
  0 < size.toNat ∧ 0x1000 ∣ size.toNat ∧ 0 < align.toNat ∧ 0x1000 ∣ align.toNat

/-- `Alloc` returns: the lowest place, or false where there is none. -/
def LowestFit (regions : Lists) (size align : Word) (lastAddr : PhysAddr) : Prop :=
  ∃ rounds result, alloc regions size align rounds lastAddr = some (.ok result) ∧
    (result.1 = none ∧ places regions lastAddr size align = ∅ ∨
      ∃ addr, result.1 = some addr ∧ IsLeast (places regions lastAddr size align) addr.toNat)

/-- Nowhere in the regions from `lastAddr` on does the cursor plus the size reach `2 ^ 64`. -/
def NoWrap (regions : Lists) (size align : Word) (lastAddr : PhysAddr) : Prop :=
  ∀ reg, regionOf regions lastAddr = some reg → SumFits size align reg lastAddr ∧
    ∀ next ∈ allRegions regions, reg.start < next.start → SumFits size align next next.start

section
variable {regions : Lists} {reg next : Region} {lastAddr x : PhysAddr} {size align : Word}
  {c : Cursor} {a n : ℕ}

lemma Layout.ordered (h : Layout regions) :
    (allRegions regions).Pairwise fun a b => a.span.2 ≤ b.span.1 := by
  have hsorted : ∀ {l : List Region}, l.Sublist (allRegions regions) →
      l.Pairwise (fun a b => a.start ≤ b.start) → l.Pairwise fun a b => a.span.2 ≤ b.span.1 := by
    intro l hsub hl
    refine (hl.and (h.disjoint.sublist hsub)).imp_of_mem fun {a b} _ hb hab => ?_
    have hne := h.nonempty b (hsub.subset hb)
    by_contra hlt
    exact Set.disjoint_left.mp hab.2 ⟨BitVec.le_def.mp hab.1, Nat.lt_of_not_le hlt⟩
      ⟨le_refl b.span.1, hne⟩
  exact List.pairwise_append.mpr ⟨hsorted (List.sublist_append_left _ _) h.lower_sorted,
    hsorted (List.sublist_append_right _ _) h.upper_sorted, h.below⟩

lemma Layout.getEnd_toNat (h : Layout regions) (hr : reg ∈ allRegions regions) :
    (getEnd reg).toNat = reg.span.2 := by
  have hsmall := h.small reg hr
  exact BitVec.toNat_add_of_lt (hsmall.trans_lt (by decide))

lemma Layout.eq_of_mem (h : Layout regions) (hr : reg ∈ allRegions regions)
    (hn : next ∈ allRegions regions) (hlow : reg.span.1 < next.span.2)
    (hhigh : next.span.1 < reg.span.2) : reg = next := by
  by_contra hne
  have hsymm : Std.Symm fun a b : Region =>
      Disjoint (Set.Ico a.span.1 a.span.2) (Set.Ico b.span.1 b.span.2) := ⟨fun _ _ hab => hab.symm⟩
  have hd := h.disjoint.forall hr hn hne
  have hr' := h.nonempty reg hr
  have hn' := h.nonempty next hn
  have hshared : max reg.span.1 next.span.1 ∈ Set.Ico reg.span.1 reg.span.2 :=
    ⟨le_max_left _ _, max_lt hr' hhigh⟩
  exact Set.disjoint_left.mp hd hshared ⟨le_max_right _ _, max_lt hlow hn'⟩

lemma roundUp_least (hx : x.toNat ≤ 2 ^ 48) (halign : 0 < align.toNat) :
    IsLeast {a | align.toNat ∣ a ∧ x.toNat ≤ a} (roundUp align x).toNat := by
  have hmod : (x % align).toNat = x.toNat % align.toNat := BitVec.toNat_umod
  have hlt := Nat.mod_lt x.toNat halign
  have hdiv := Nat.div_add_mod x.toNat align.toNat
  unfold roundUp
  by_cases hzero : x % align = 0
  · have hdvd : align.toNat ∣ x.toNat := by
      rw [hzero] at hmod
      exact Nat.dvd_of_mod_eq_zero hmod.symm
    rw [if_pos hzero]
    exact ⟨⟨hdvd, le_rfl⟩, fun a ha => ha.2⟩
  · have hpos : 0 < x.toNat % align.toNat :=
      Nat.pos_of_ne_zero fun h0 => hzero (BitVec.eq_of_toNat_eq (hmod.trans h0))
    have hrest : (align - x % align).toNat = align.toNat - x.toNat % align.toNat := by
      rw [BitVec.toNat_sub_of_le (BitVec.le_def.mpr (hmod ▸ hlt.le)), hmod]
    -- a larger alignment is itself the next multiple
    have hfits : x.toNat + (align.toNat - x.toNat % align.toNat) < 2 ^ 64 := by
      have halign' := align.isLt
      rcases Nat.lt_or_ge x.toNat align.toNat with h | h
      · rw [Nat.mod_eq_of_lt h]
        omega
      · omega
    rw [if_neg hzero, BitVec.toNat_add_of_lt (hrest ▸ hfits), hrest]
    have hmultiple : x.toNat + (align.toNat - x.toNat % align.toNat) =
        align.toNat * (x.toNat / align.toNat + 1) := by
      rw [Nat.mul_succ]
      omega
    rw [hmultiple]
    refine ⟨⟨Nat.dvd_mul_right _ _, by rw [← hmultiple]; omega⟩, ?_⟩
    rintro _ ⟨⟨j, rfl⟩, hle⟩
    have hj : x.toNat / align.toNat < j := by
      by_contra hge
      have hmul := Nat.mul_le_mul_left align.toNat (Nat.le_of_not_lt hge)
      omega
    exact Nat.mul_le_mul_left _ hj

lemma Layout.end_le (h : Layout regions) (hr : reg ∈ allRegions regions)
    (hn : next ∈ allRegions regions) (hlt : reg.start < next.start) :
    reg.span.2 ≤ next.span.1 := by
  have hne := h.nonempty next hn
  have hstart : reg.span.1 < next.span.1 := BitVec.lt_def.mp hlt
  by_contra hle
  have he := h.eq_of_mem hr hn (by omega) (by omega)
  rw [he] at hstart
  exact Nat.lt_irrefl _ hstart

lemma Layout.nextRegion_le (h : Layout regions) (hnext : nextRegion regions reg = some next)
    {r : Region} (hr : r ∈ allRegions regions) (hlt : reg.start < r.start) :
    next = r ∨ next.start < r.start := by
  rw [nextRegion_eq] at hnext
  obtain ⟨hlater, before, after, hall, hbefore⟩ := List.find?_eq_some_iff_append.mp hnext
  have hordered := h.ordered
  have hne := h.nonempty next (List.mem_of_find?_eq_some hnext)
  rw [hall] at hr hordered
  rcases List.mem_append.mp hr with hr | hr
  · exact absurd (decide_eq_true hlt) (by simpa using hbefore r hr)
  · rcases List.mem_cons.mp hr with rfl | hr
    · exact .inl rfl
    · have hle := (List.pairwise_cons.mp (List.pairwise_append.mp hordered).2.1).1 r hr
      exact .inr (BitVec.lt_def.mpr (hne.trans_le hle))

lemma nextRegion_none (hnext : nextRegion regions reg = none) {r : Region}
    (hr : r ∈ allRegions regions) : ¬ reg.start < r.start := by
  rw [nextRegion_eq] at hnext
  exact fun hlt => List.find?_eq_none.mp hnext r hr (decide_eq_true hlt)

/-- In a region, the cursor stands at the first multiple from an address on or, if there is none
there, at the last byte. -/
lemma Layout.enter_spec (h : Layout regions) (hr : reg ∈ allRegions regions) (halign : 0 < align.toNat)
    (hstart : reg.span.1 ≤ x.toNat) (hend : x.toNat ≤ reg.span.2) :
    reg.span.1 ≤ (enter align reg x).toNat ∧ (enter align reg x).toNat ≤ reg.span.2 ∧
      (IsLeast {a | align.toNat ∣ a ∧ x.toNat ≤ a} (enter align reg x).toNat ∨
        (enter align reg x).toNat + 1 = reg.span.2 ∧
          ∀ a, align.toNat ∣ a → x.toNat ≤ a → reg.span.2 < a) := by
  have hne := h.nonempty reg hr
  have hsmall := h.small reg hr
  have hgetEnd := h.getEnd_toNat hr
  have hleast := roundUp_least (hend.trans hsmall) halign
  unfold enter
  by_cases hpast : getEnd reg < roundUp align x
  · rw [if_pos hpast]
    have hlast : (getEnd reg - 1).toNat = reg.span.2 - 1 := by
      rw [BitVec.toNat_sub_of_le, hgetEnd]
      · rfl
      · rw [BitVec.le_def, hgetEnd]
        show 1 ≤ reg.span.2
        omega
    rw [hlast]
    refine ⟨by omega, by omega, .inr ⟨by omega, fun a hdvd hle => ?_⟩⟩
    rw [BitVec.lt_def, hgetEnd] at hpast
    exact hpast.trans_le (hleast.2 ⟨hdvd, hle⟩)
  · rw [if_neg hpast]
    rw [BitVec.lt_def, hgetEnd] at hpast
    exact ⟨hstart.trans hleast.1.2, Nat.le_of_not_lt hpast, .inl hleast⟩

/-- The cursor stands in a region, below all places, at a multiple of the alignment or at the
last byte, and what is left from it on is left from `lastAddr` on. -/
structure Standing (regions : Lists) (size align : Word) (lastAddr : PhysAddr) (c : Cursor) :
    Prop where
  mem : c.reg ∈ allRegions regions
  inside : c.reg.span.1 ≤ c.lastAddr.toNat ∧ c.lastAddr.toNat ≤ c.reg.span.2
  upto : lastAddr.toNat ≤ c.reg.span.2
  aligned : align.toNat ∣ c.lastAddr.toNat ∧ lastAddr.toNat ≤ c.lastAddr.toNat ∨
    c.lastAddr.toNat + 1 = c.reg.span.2
  low : ∀ a ∈ places regions lastAddr size align, c.lastAddr.toNat ≤ a
  left : ∀ a n, 2 ≤ n → Inside regions a n → c.lastAddr.toNat ≤ a → lastAddr.toNat ≤ a

lemma Placed.regionOf (h : Placed regions lastAddr) (hl : Layout regions) :
    ∃ reg, regionOf regions lastAddr = some reg := by
  obtain ⟨r, hr, hstart, hend⟩ := h
  have hne := hl.nonempty r hr
  have hgetEnd := hl.getEnd_toNat hr
  have hfound : ∀ {addr : PhysAddr}, r.span.1 ≤ addr.toNat → addr.toNat < r.span.2 →
      findRegion regions addr ≠ none := by
    intro addr hlow hhigh hnone
    rw [findRegion_eq] at hnone
    refine List.find?_eq_none.mp hnone r hr (contains_iff.mpr ⟨BitVec.le_def.mpr hlow, ?_⟩)
    rw [BitVec.lt_def, hgetEnd]
    exact hhigh
  rw [StepAllocator.regionOf]
  cases hfirst : findRegion regions lastAddr with
  | some reg => exact ⟨reg, rfl⟩
  | none =>
    have hlast : lastAddr.toNat = r.span.2 :=
      hend.antisymm (Nat.le_of_not_lt fun hlt => hfound hstart hlt hfirst)
    have hbefore : (lastAddr - 1).toNat = r.span.2 - 1 := by
      rw [BitVec.toNat_sub_of_le, hlast]
      · rfl
      · rw [BitVec.le_def, hlast]
        show 1 ≤ r.span.2
        omega
    exact Option.ne_none_iff_exists'.mp (hfound (by omega) (by omega))

lemma Standing.begins (hl : Layout regions) (halign : 0 < align.toNat)
    (hreg : regionOf regions lastAddr = some reg) :
    Standing regions size align lastAddr ⟨enter align reg lastAddr, reg⟩ := by
  obtain ⟨hmem, hstart, hend⟩ := regionOf_some hreg
  rw [BitVec.le_def] at hstart hend
  rw [hl.getEnd_toNat hmem] at hend
  obtain ⟨hlow, hhigh, hplace⟩ := hl.enter_spec hmem halign hstart hend
  refine ⟨hmem, ⟨hlow, hhigh⟩, hend, ?_, ?_, ?_⟩
  · exact hplace.imp (fun h => h.1) fun h => h.1
  · rintro a ⟨hle, hdvd, -⟩
    rcases hplace with hleast | ⟨hlast, hpast⟩
    · exact hleast.2 ⟨hdvd, hle⟩
    · have hlt := hpast a hdvd hle
      show (enter align reg lastAddr).toNat ≤ a
      omega
  · rintro a n hn ⟨r, hr, hra, han⟩ hle
    change (enter align reg lastAddr).toNat ≤ a at hle
    rcases hplace with hleast | ⟨hlast, -⟩
    · exact hleast.1.2.trans hle
    · -- only the last byte of the region is left, which is too little
      by_contra hlt
      have he := hl.eq_of_mem hmem hr (by omega) (by omega)
      rw [← he] at han
      omega

/-- What reaches past the end of a region, from an address not before it, is in a later one. -/
lemma Layout.start_lt (h : Layout regions) (hr : reg ∈ allRegions regions)
    (hn : next ∈ allRegions regions) (hlow : reg.span.1 ≤ a) (hpos : 0 < n)
    (hend : a + n ≤ next.span.2) (hpast : reg.span.2 < a + n) : reg.start < next.start := by
  have hne := h.nonempty reg hr
  have hlt : reg.span.1 < next.span.1 := by
    by_contra hle
    have he := h.eq_of_mem hr hn (hlow.trans_lt ((Nat.lt_add_of_pos_right hpos).trans_le hend))
      ((Nat.le_of_not_lt hle).trans_lt hne)
    rw [he] at hpast
    exact absurd hend (Nat.not_le.mpr hpast)
  exact BitVec.lt_def.mpr hlt

lemma Standing.past (h : Standing regions size align lastAddr c) (hl : Layout regions)
    (hsum : c.lastAddr.toNat + size.toNat < 2 ^ 64) :
    getEnd c.reg < c.lastAddr + size ↔ c.reg.span.2 < c.lastAddr.toNat + size.toNat := by
  rw [BitVec.lt_def, hl.getEnd_toNat h.mem, BitVec.toNat_add_of_lt hsum]

lemma Standing.later (h : Standing regions size align lastAddr c) (hl : Layout regions)
    (hsize : 0 < size.toNat) (hfull : c.reg.span.2 < c.lastAddr.toNat + size.toNat)
    (ha : a ∈ places regions lastAddr size align) :
    ∃ r ∈ allRegions regions, c.reg.start < r.start ∧ r.span.1 ≤ a := by
  have hlow := h.low a ha
  have hinside := h.inside
  obtain ⟨-, -, r, hr, hstart, hend⟩ := ha
  exact ⟨r, hr, hl.start_lt h.mem hr (hinside.1.trans hlow) hsize hend (by omega), hstart⟩

lemma Standing.advance (h : Standing regions size align lastAddr c) (hl : Layout regions)
    (hsize : 0 < size.toNat) (halign : 0 < align.toNat)
    (hfull : c.reg.span.2 < c.lastAddr.toNat + size.toNat)
    (hnext : nextRegion regions c.reg = some next) :
    Standing regions size align lastAddr ⟨enter align next next.start, next⟩ := by
  obtain ⟨hmem, hlt⟩ := nextRegion_some hnext
  have hne := hl.nonempty next hmem
  have hapart := hl.end_le h.mem hmem hlt
  have hupto := h.upto
  obtain ⟨hlow, hhigh, hplace⟩ := hl.enter_spec hmem halign le_rfl hne.le
  change next.span.1 ≤ (enter align next next.start).toNat at hlow
  refine ⟨hmem, ⟨hlow, hhigh⟩, show lastAddr.toNat ≤ next.span.2 by omega, ?_, ?_, ?_⟩
  · refine hplace.imp (fun h => ⟨h.1.1, ?_⟩) fun h => h.1
    show lastAddr.toNat ≤ (enter align next next.start).toNat
    omega
  · intro a ha
    obtain ⟨r, hr, hrlt, hra⟩ := h.later hl hsize hfull ha
    have hstart : next.span.1 ≤ a := by
      rcases hl.nextRegion_le hnext hr hrlt with rfl | hbefore
      · exact hra
      · exact (BitVec.lt_def.mp hbefore).le.trans hra
    rcases hplace with hleast | ⟨hlast, hpast⟩
    · exact hleast.2 ⟨ha.2.1, hstart⟩
    · have hgt := hpast a ha.2.1 hstart
      show (enter align next next.start).toNat ≤ a
      omega
  · intro a n _ _ hle
    change (enter align next next.start).toNat ≤ a at hle
    omega

/-- What a call comes to: the lowest place or none, a place for the next call, and nothing left
before that is not handed out. -/
structure Steps (regions : Lists) (size align : Word) (lastAddr : PhysAddr)
    (result : Option PhysAddr × PhysAddr) : Prop where
  fit : result.1 = none ∧ places regions lastAddr size align = ∅ ∨
    ∃ addr, result.1 = some addr ∧ IsLeast (places regions lastAddr size align) addr.toNat
  placed : Placed regions result.2
  left : ∀ a n, 2 ≤ n → Inside regions a n → result.2.toNat ≤ a → lastAddr.toNat ≤ a
  moved : ∀ addr, result.1 = some addr → addr.toNat + size.toNat ≤ result.2.toNat

lemma Standing.steps (h : Standing regions size align lastAddr c) (hl : Layout regions)
    (hsize : 2 ≤ size.toNat) (halign : 0 < align.toNat)
    (hsum : c.lastAddr.toNat + size.toNat < 2 ^ 64)
    (hlater : ∀ next ∈ allRegions regions, c.reg.start < next.start →
      SumFits size align next next.start) :
    ∃ result, Returns (allocBody regions size align) c result ∧
      Steps regions size align lastAddr result := by
  refine returns_of_measure (P := fun c => Standing regions size align lastAddr c ∧
    c.lastAddr.toNat + size.toNat < 2 ^ 64 ∧ ∀ next ∈ allRegions regions,
      c.reg.start < next.start → SumFits size align next next.start)
    (fun c => 2 ^ 64 - c.reg.start.toNat) ?_ ⟨h, hsum, hlater⟩
  rintro c ⟨h, hsum, hlater⟩
  have hpast := h.past hl hsum
  have hinside := h.inside
  by_cases hfull : getEnd c.reg < c.lastAddr + size
  · have hfull' := hpast.mp hfull
    cases hnext : nextRegion regions c.reg with
    | none =>
      refine .inl ⟨(none, c.lastAddr), by rw [allocBody, if_pos hfull, hnext], .inl ⟨rfl, ?_⟩,
        ⟨c.reg, h.mem, hinside⟩, h.left, fun addr he => by cases he⟩
      rw [Set.eq_empty_iff_forall_notMem]
      intro a ha
      obtain ⟨r, hr, hlt, -⟩ := h.later hl (by omega) hfull' ha
      exact nextRegion_none hnext hr hlt
    | some next =>
      obtain ⟨hmem, hlt⟩ := nextRegion_some hnext
      refine .inr ⟨_, by rw [allocBody, if_pos hfull, hnext], ⟨h.advance hl (by omega) halign hfull'
        hnext, hlater next hmem hlt, fun r hr hrlt => hlater r hr (BitVec.lt_trans hlt hrlt)⟩, ?_⟩
      have hbound := next.start.isLt
      rw [BitVec.lt_def] at hlt
      show 2 ^ 64 - next.start.toNat < 2 ^ 64 - c.reg.start.toNat
      omega
  · have hfits := Nat.le_of_not_lt (mt hpast.mpr hfull)
    have hend : (c.lastAddr + size).toNat = c.lastAddr.toNat + size.toNat :=
      BitVec.toNat_add_of_lt hsum
    have haligned := h.aligned.resolve_right (by omega)
    refine .inl ⟨(some c.lastAddr, c.lastAddr + size), by rw [allocBody, if_neg hfull],
      .inr ⟨c.lastAddr, rfl, ⟨haligned.2, haligned.1, c.reg, h.mem, hinside.1, hfits⟩, h.low⟩,
      ⟨c.reg, h.mem, ?_, ?_⟩, ?_, ?_⟩
    · rw [hend]
      omega
    · rw [hend]
      exact hfits
    · intro a n _ _ hle
      change (c.lastAddr + size).toNat ≤ a at hle
      omega
    · rintro addr ⟨⟩
      exact hend.ge

/-- Where the cursor plus the size wraps, the loop hands out a block in any case. -/
lemma wrapped_returns (hl : Layout regions) (hsize : 2 ^ 49 ≤ size.toNat) (halign : 0 < align.toNat)
    (hmem : c.reg ∈ allRegions regions) (hend : c.lastAddr.toNat ≤ c.reg.span.2)
    (hwrap : 2 ^ 64 ≤ c.lastAddr.toNat + size.toNat ∨ ∃ r ∈ allRegions regions,
      c.reg.start < r.start ∧ ¬ SumFits size align r r.start) :
    ∃ result, Returns (allocBody regions size align) c result ∧ result.1 ≠ none := by
  refine returns_of_measure (P := fun c => c.reg ∈ allRegions regions ∧
    c.lastAddr.toNat ≤ c.reg.span.2 ∧ (2 ^ 64 ≤ c.lastAddr.toNat + size.toNat ∨
      ∃ r ∈ allRegions regions, c.reg.start < r.start ∧ ¬ SumFits size align r r.start))
    (fun c => 2 ^ 64 - c.reg.start.toNat) ?_ ⟨hmem, hend, hwrap⟩
  rintro c ⟨hmem, hend, hwrap⟩
  have hgetEnd := hl.getEnd_toNat hmem
  have hsmall := hl.small c.reg hmem
  by_cases hnow : 2 ^ 64 ≤ c.lastAddr.toNat + size.toNat
  · have hfits : ¬ getEnd c.reg < c.lastAddr + size := by
      have hlt := size.isLt
      rw [BitVec.lt_def, hgetEnd, BitVec.toNat_add]
      omega
    exact .inl ⟨_, by rw [allocBody, if_neg hfits], by simp⟩
  · have hfull : getEnd c.reg < c.lastAddr + size := by
      rw [BitVec.lt_def, hgetEnd, BitVec.toNat_add_of_lt (Nat.lt_of_not_le hnow)]
      omega
    obtain ⟨r, hr, hlt, hnot⟩ := hwrap.resolve_left hnow
    cases hnext : nextRegion regions c.reg with
    | none => exact absurd hlt (nextRegion_none hnext hr)
    | some next =>
      obtain ⟨hmem', hlt'⟩ := nextRegion_some hnext
      obtain ⟨-, hend', -⟩ := hl.enter_spec hmem' halign le_rfl (hl.nonempty next hmem').le
      refine .inr ⟨_, by rw [allocBody, if_pos hfull, hnext], ⟨hmem', hend', ?_⟩, ?_⟩
      · rcases hl.nextRegion_le hnext hr hlt with rfl | hbefore
        · exact .inl (Nat.le_of_not_lt hnot)
        · exact .inr ⟨r, hr, hbefore, hnot⟩
      · have hbound := next.start.isLt
        rw [BitVec.lt_def] at hlt'
        show 2 ^ 64 - next.start.toNat < 2 ^ 64 - c.reg.start.toNat
        omega

lemma alloc_eq_loop (hreg : regionOf regions lastAddr = some reg) (halign : 0 < align.toNat)
    (rounds : ℕ) : alloc regions size align rounds lastAddr =
      (loop (allocBody regions size align) rounds ⟨enter align reg lastAddr, reg⟩).map .ok := by
  have hne : align ≠ 0 := by
    rintro rfl
    exact Nat.lt_irrefl 0 halign
  rw [alloc, hreg]
  exact if_neg hne

lemma NoWrap.steps (h : NoWrap regions size align lastAddr) (hl : Layout regions)
    (hplaced : Placed regions lastAddr) (hpages : WholePages size align) :
    ∃ rounds result, alloc regions size align rounds lastAddr = some (.ok result) ∧
      Steps regions size align lastAddr result := by
  obtain ⟨hpos, ⟨k, hk⟩, halign, -⟩ := hpages
  obtain ⟨reg, hreg⟩ := hplaced.regionOf hl
  obtain ⟨hsum, hlater⟩ := h reg hreg
  have hbegins : Standing regions size align lastAddr ⟨enter align reg lastAddr, reg⟩ :=
    .begins hl halign hreg
  obtain ⟨result, ⟨rounds, hloop⟩, hsteps⟩ := hbegins.steps hl (by omega) halign hsum hlater
  refine ⟨rounds, result, ?_, hsteps⟩
  rw [alloc_eq_loop hreg halign, hloop]
  rfl

lemma alloc_unique {rounds rounds' : ℕ} {r r' : Outcome (Option PhysAddr × PhysAddr)}
    (h : alloc regions size align rounds lastAddr = some r)
    (h' : alloc regions size align rounds' lastAddr = some r') : r = r' := by
  unfold alloc at h h'
  cases hreg : regionOf regions lastAddr with
  | none =>
    rw [hreg] at h h'
    exact Option.some.inj (h.symm.trans h')
  | some reg =>
    rw [hreg] at h h'
    simp only at h h'
    split_ifs at h h'
    · exact Option.some.inj (h.symm.trans h')
    · obtain ⟨x, hx, rfl⟩ := Option.map_eq_some_iff.mp h
      obtain ⟨y, hy, rfl⟩ := Option.map_eq_some_iff.mp h'
      rw [Returns.unique ⟨rounds, hx⟩ ⟨rounds', hy⟩]

lemma noWrap_of_lowestFit (h : LowestFit regions size align lastAddr) (hl : Layout regions)
    (halign : 0 < align.toNat) : NoWrap regions size align lastAddr := by
  intro reg hreg
  by_contra hnot
  obtain ⟨hmem, hstart, hend⟩ := regionOf_some hreg
  rw [BitVec.le_def] at hstart hend
  rw [hl.getEnd_toNat hmem] at hend
  obtain ⟨-, hcursor, -⟩ := hl.enter_spec hmem halign hstart hend
  have hwrap : 2 ^ 64 ≤ (enter align reg lastAddr).toNat + size.toNat ∨
      ∃ r ∈ allRegions regions, reg.start < r.start ∧ ¬ SumFits size align r r.start := by
    by_contra hno
    rw [not_or, not_exists] at hno
    refine hnot ⟨Nat.lt_of_not_le hno.1, fun next hmem hlt => ?_⟩
    by_contra hbad
    exact hno.2 next ⟨hmem, hlt, hbad⟩
  have hsize : 2 ^ 49 ≤ size.toNat := by
    rcases hwrap with hwrap | ⟨r, hr, -, hbad⟩
    · have hsmall := hl.small reg hmem
      omega
    · obtain ⟨-, hcursor, -⟩ := hl.enter_spec hr halign le_rfl (hl.nonempty r hr).le
      have hsmall := hl.small r hr
      have hle := Nat.le_of_not_lt hbad
      omega
  obtain ⟨result', ⟨rounds', hloop⟩, hsome⟩ :=
    wrapped_returns (c := ⟨enter align reg lastAddr, reg⟩) hl hsize halign hmem hcursor hwrap
  obtain ⟨rounds, result, halloc, hfit⟩ := h
  have halloc' : alloc regions size align rounds' lastAddr = some (.ok result') := by
    rw [alloc_eq_loop hreg halign, hloop]
    rfl
  have hresult : result = result' := Except.ok.inj (alloc_unique halloc halloc')
  rw [hresult] at hfit
  rcases hfit with ⟨hnone, -⟩ | ⟨addr, -, ⟨-, -, r, hr, -, hle⟩, -⟩
  · exact hsome hnone
  · have hsmall := hl.small r hr
    omega

lemma lowestFit_iff (hl : Layout regions) (hplaced : Placed regions lastAddr)
    (hpages : WholePages size align) :
    LowestFit regions size align lastAddr ↔ NoWrap regions size align lastAddr := by
  constructor
  · exact fun h => noWrap_of_lowestFit h hl hpages.2.2.1
  · intro h
    obtain ⟨rounds, result, halloc, hsteps⟩ := h.steps hl hplaced hpages
    exact ⟨rounds, result, halloc, hsteps.fit⟩

def range (b : PhysAddr × Word) : Set ℕ := Set.Ico b.1.toNat (blockEnd b)

/-- The blocks are disjoint, and what is left from `lastAddr` on is behind them. -/
structure Apart (regions : Lists) (s : State) : Prop where
  placed : Placed regions s.lastAddr
  behind : ∀ b ∈ s.blocks, ∀ a n, 2 ≤ n → Inside regions a n → s.lastAddr.toNat ≤ a →
    blockEnd b ≤ a
  disjoint : s.blocks.Pairwise fun a b => Disjoint (range a) (range b)

lemma Apart.alloc {s : State} {result : Option PhysAddr × PhysAddr} (h : Apart regions s)
    (hpages : WholePages size align) (hsteps : Steps regions size align s.lastAddr result) :
    Apart regions (s.after size result) := by
  have hbehind : ∀ b ∈ s.blocks, ∀ a n, 2 ≤ n → Inside regions a n → result.2.toNat ≤ a →
      blockEnd b ≤ a := fun b hb a n hn hin hle =>
    h.behind b hb a n hn hin (hsteps.left a n hn hin hle)
  obtain ⟨hpos, ⟨k, hk⟩, -, -⟩ := hpages
  obtain ⟨served, last⟩ := result
  cases served with
  | none => exact ⟨hsteps.placed, hbehind, h.disjoint⟩
  | some addr =>
    obtain ⟨⟨hle, -, hin⟩, -⟩ : IsLeast (places regions s.lastAddr size align) addr.toNat := by
      rcases hsteps.fit with ⟨hnone, -⟩ | ⟨x, hx, hleast⟩
      · cases hnone
      · exact Option.some.inj hx ▸ hleast
    refine ⟨hsteps.placed, ?_, List.pairwise_cons.mpr ⟨fun b hb => ?_, h.disjoint⟩⟩
    · rintro b (_ | ⟨_, hb⟩) a n hn hin' hle'
      · exact (hsteps.moved addr rfl).trans hle'
      · exact hbehind b hb a n hn hin' hle'
    · have hend := h.behind b hb addr.toNat size.toNat (by omega) hin hle
      rw [Set.disjoint_left]
      rintro x ⟨hx, -⟩ ⟨-, hx'⟩
      exact absurd (hx'.trans_le hend) (Nat.not_lt.mpr hx)

/-- A call takes the lowest place exactly if the cursor plus the size does not wrap, and in runs
of such calls, successful or not, the blocks are disjoint. -/
theorem lowest_fit_iff (hl : Layout regions) :
    (∀ lastAddr size align, Placed regions lastAddr → WholePages size align →
      (LowestFit regions size align lastAddr ↔ NoWrap regions size align lastAddr)) ∧
    ∀ s, ((calls regions (Placed regions) WholePages).restrict
        fun s a => NoWrap regions a.1 a.2 s.lastAddr).Reachable s →
      s.blocks.Pairwise fun a b => Disjoint (range a) (range b) := by
  refine ⟨fun lastAddr size align => lowestFit_iff hl, fun s hs => ?_⟩
  refine (hs.invariant (P := Apart regions) ?_ ?_).disjoint
  · rintro s ⟨hplaced, hempty⟩
    refine ⟨hplaced, ?_, ?_⟩ <;> simp [hempty]
  · rintro s a t - h ⟨hwrap, hpages, rounds, result, halloc, rfl⟩
    obtain ⟨rounds', result', halloc', hsteps⟩ := NoWrap.steps hwrap hl h.placed hpages
    rw [Except.ok.inj (alloc_unique halloc halloc')]
    exact h.alloc hpages hsteps

/-- Memory below 640 KiB and from 1 MiB to 2 MiB. -/
def lowMemory : Lists := ⟨[⟨0, 0xa0000⟩, ⟨0x100000, 0x100000⟩], []⟩

lemma lowMemory_layout : Layout lowMemory where
  lower_sorted := by simp [lowMemory]
  upper_sorted := by simp [lowMemory]
  below := by simp [lowMemory]
  nonempty := by decide
  disjoint := by
    refine List.pairwise_pair.mpr (Set.disjoint_left.mpr ?_)
    rintro x ⟨-, hlt⟩ ⟨hle, -⟩
    exact absurd (hle.trans_lt hlt) (by decide)
  small := by decide

/-- The second region holds the first place for a megabyte. -/
theorem lowest_fit_megabyte : LowestFit lowMemory 0x100000 0x1000 0x9f000 := by
  have hplaced : Placed lowMemory 0x9f000 := ⟨⟨0, 0xa0000⟩, by decide, by decide, by decide⟩
  have hpages : WholePages 0x100000 0x1000 := ⟨by decide, by decide, by decide, by decide⟩
  refine ((lowest_fit_iff lowMemory_layout).1 _ _ _ hplaced hpages).mpr ?_
  intro reg hreg
  obtain rfl : (⟨0, 0xa0000⟩ : Region) = reg := Option.some.inj hreg
  unfold SumFits
  decide

/-- A size that wraps is handed out at once, and moves the cursor down. -/
theorem wrapped_size_is_handed_out : Layout lowMemory ∧ Placed lowMemory 0x9f000 ∧
    WholePages 0xfffffffffffff000 0x1000 ∧
    alloc lowMemory 0xfffffffffffff000 0x1000 1 0x9f000 = some (.ok (some 0x9f000, 0x9e000)) ∧
    ¬ LowestFit lowMemory 0xfffffffffffff000 0x1000 0x9f000 := by
  refine ⟨lowMemory_layout, ⟨⟨0, 0xa0000⟩, by decide, by decide, by decide⟩,
    ⟨by decide, by decide, by decide, by decide⟩, rfl, fun h => ?_⟩
  have hwrap := noWrap_of_lowestFit h lowMemory_layout (by decide) ⟨0, 0xa0000⟩ rfl
  exact absurd hwrap.1 (by unfold SumFits; decide)

end

end Anarch.StepAllocator
