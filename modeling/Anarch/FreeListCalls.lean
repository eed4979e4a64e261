import Anarch.FreeListCover

/-! `Alloc`, `AllocAt` and `Free` on well-formed lists: which addresses leave the list
and which come back. -/
namespace Anarch.FreeList
open IntervalCover

/-- The interval `s` was on the list and is the only thing that left it. -/
structure Taken (regions out : List Region) (s : ℕ × ℕ) : Prop where
  inside : Set.Ico s.1 s.2 ⊆ addresses regions
  wellFormed : WellFormed out
  addresses_eq : addresses out = addresses regions \ Set.Ico s.1 s.2

lemma Taken.cons {reg : Region} {next out : List Region} {s : ℕ × ℕ}
    (h : WellFormed (reg :: next)) (ht : Taken next out s) :
    Taken (reg :: next) (reg :: out) s := by
  have hd : Disjoint (Set.Ico reg.span.1 reg.span.2) (Set.Ico s.1 s.2) :=
    h.disjoint_head.mono_right ht.inside
  refine ⟨?_, .cons h.head ht.wellFormed fun x hx => ?_, ?_⟩
  · rw [addresses_cons]
    exact ht.inside.trans Set.subset_union_right
  · rw [ht.addresses_eq] at hx
    exact h.lt_of_mem hx.1
  · rw [addresses_cons, addresses_cons, ht.addresses_eq, Set.union_sdiff_distrib,
      hd.sdiff_eq_left]

lemma Taken.of_allocInRegion {reg requested : Region} {next : List Region}
    (h : WellFormed (reg :: next)) (hq : requested.Fits)
    (hin : reg.span.1 ≤ requested.span.1 ∧ requested.span.2 ≤ reg.span.2)
    (hfront : reg.takesFront requested = false) :
    ∃ out, allocInRegion reg next requested = .ok out ∧
      Taken (reg :: next) out requested.span := by
  obtain ⟨out, hout, hwf, haddr⟩ := allocInRegion_wellFormed h hq hin hfront
  refine ⟨out, hout, ?_, hwf, haddr⟩
  rw [addresses_cons]
  exact (Set.Ico_subset_Ico hin.1 hin.2).trans Set.subset_union_left

/-- `AllocAt` would take a proper front part of the region that contains the request. -/
def allocAtTakesFront (requested : Region) (regions : List Region) : Bool :=
  (regions.find? (·.contains requested)).any (·.takesFront requested)

theorem allocAtFrom_spec {requested : Region} {regions : List Region}
    (h : WellFormed regions) (hq : requested.Fits)
    (hfront : allocAtTakesFront requested regions = false) :
    ∃ found out, allocAtFrom requested regions = .ok (found, out) ∧
      ((found = true ∧ Taken regions out requested.span) ∨ (found = false ∧ out = regions)) := by
  induction regions with
  | nil => exact ⟨false, [], rfl, .inr ⟨rfl, rfl⟩⟩
  | cons reg next ih =>
    by_cases hc : reg.contains requested = true
    · have hf : reg.takesFront requested = false := by
        simpa [allocAtTakesFront, List.find?_cons, hc] using hfront
      have hin := (Region.contains_iff h.head hq).mp hc
      obtain ⟨out, hout, ht⟩ := Taken.of_allocInRegion h hq hin hf
      exact ⟨true, out, by simp [allocAtFrom, hc, hout, bind, Except.bind, pure, Except.pure],
        .inl ⟨rfl, ht⟩⟩
    · have hf : allocAtTakesFront requested next = false := by
        simpa [allocAtTakesFront, List.find?_cons, hc] using hfront
      obtain ⟨found, out, hout, hres⟩ := ih h.tail hf
      refine ⟨found, reg :: out,
        by simp [allocAtFrom, hc, hout, bind, Except.bind, pure, Except.pure], ?_⟩
      rcases hres with ⟨hfound, ht⟩ | ⟨hfound, rfl⟩
      · exact .inl ⟨hfound, ht.cons h⟩
      · exact .inr ⟨hfound, rfl⟩

lemma allocInRegion_returns {reg requested : Region} (hr : reg.Fits) (hq : requested.Fits)
    (hc : reg.contains requested = true) (next : List Region) :
    ∃ out, allocInRegion reg next requested = .ok out := by
  cases hf : reg.takesFront requested
  · have hin := (Region.contains_iff hr hq).mp hc
    exact ⟨_, allocInRegion_eq_cut hr hq hin hf next⟩
  · obtain ⟨hs, hfill⟩ := Bool.and_eq_true_iff.mp hf
    rw [Bool.not_eq_true'] at hfill
    exact ⟨_, by rw [allocInRegion, if_neg (by simp [hfill]), if_pos hs]⟩

/-- The walk always returns, and finds the request exactly when all of it is on the list:
separated regions that cover a range have one that contains it. -/
theorem allocAtFrom_finds {requested : Region} {regions : List Region}
    (h : WellFormed regions) (hq : requested.Fits) :
    ∃ found out, allocAtFrom requested regions = .ok (found, out) ∧
      (found = true ↔ Set.Ico requested.span.1 requested.span.2 ⊆ addresses regions) := by
  have hlt : requested.span.1 < requested.span.2 := Nat.lt_add_of_pos_right hq.1
  have hiff : Set.Ico requested.span.1 requested.span.2 ⊆ addresses regions ↔
      ∃ r ∈ regions, r.contains requested = true := by
    constructor
    · intro hin
      obtain ⟨s, hs, hle⟩ := h.separated.exists_of_subset hlt hin
      obtain ⟨r, hr, rfl⟩ := List.mem_map.mp hs
      exact ⟨r, hr, (Region.contains_iff (h.fits r hr) hq).mpr hle⟩
    · rintro ⟨r, hr, hc⟩
      have hin := (Region.contains_iff (h.fits r hr) hq).mp hc
      exact (Set.Ico_subset_Ico hin.1 hin.2).trans (subset_cover (List.mem_map_of_mem hr))
  rw [hiff]
  clear hiff
  induction regions with
  | nil => exact ⟨false, [], rfl, by simp⟩
  | cons reg next ih =>
    by_cases hc : reg.contains requested = true
    · obtain ⟨out, hout⟩ := allocInRegion_returns h.head hq hc next
      exact ⟨true, out, by simp [allocAtFrom, hc, hout, bind, Except.bind, pure, Except.pure],
        by simp [hc]⟩
    · obtain ⟨found, out, hout, hfound⟩ := ih h.tail
      exact ⟨found, reg :: out,
        by simp [allocAtFrom, hc, hout, bind, Except.bind, pure, Except.pure],
        by simp [hc, hfound]⟩

/-- The request that `Alloc` would cut out of `reg`. -/
def Region.request (reg : Region) (pageSize pageCount : Word) : Region :=
  ⟨reg.start + Region.chopSize reg.start pageSize, pageSize * pageCount⟩

/-- `Alloc` would take a proper front part of the first region with room. -/
def allocTakesFront (pageSize pageCount : Word) (regions : List Region) : Bool :=
  (regions.find? (·.hasRoom pageSize pageCount)).any
    fun reg => reg.takesFront (reg.request pageSize pageCount)

section
variable {pageSize pageCount : Word}

lemma alloc_cons_eq_ok {reg : Region} {next out : List Region} {addr : VirtAddr}
    (h : alloc pageSize pageCount (reg :: next) = .ok (addr, out)) :
    (reg.hasRoom pageSize pageCount = true ∧ addr = (reg.request pageSize pageCount).start ∧
      Region.new addr (pageSize * pageCount) = .ok (reg.request pageSize pageCount) ∧
      allocInRegion reg next (reg.request pageSize pageCount) = .ok out) ∨
    (reg.hasRoom pageSize pageCount = false ∧ ∃ rest,
      alloc pageSize pageCount next = .ok (addr, rest) ∧ out = reg :: rest) := by
  obtain ⟨room, hroom, h⟩ := bind_eq_ok.mp h
  obtain ⟨_, -, hroom⟩ := bind_eq_ok.mp hroom
  obtain rfl := Except.ok.inj hroom
  split_ifs at h with hroom
  · obtain ⟨requested, hnew, h⟩ := bind_eq_ok.mp h
    obtain ⟨rest, hrest, h⟩ := bind_eq_ok.mp h
    obtain ⟨rfl, rfl⟩ := Prod.mk.inj (Except.ok.inj h)
    obtain ⟨-, rfl⟩ := Region.new_eq_ok.mp hnew
    exact .inl ⟨hroom, rfl, hnew, hrest⟩
  · obtain ⟨⟨found, rest⟩, hrest, h⟩ := bind_eq_ok.mp h
    obtain ⟨rfl, rfl⟩ := Prod.mk.inj (Except.ok.inj h)
    exact .inr ⟨Bool.eq_false_iff.mpr hroom, rest, hrest, rfl⟩

lemma alloc_eq_ok {regions out : List Region} {addr : VirtAddr}
    (h : alloc pageSize pageCount regions = .ok (addr, out)) :
    addr = 0 ∨ ∃ r, regions.find? (fun r => r.hasRoom pageSize pageCount) = some r ∧
      addr = r.start + Region.chopSize r.start pageSize := by
  induction regions generalizing out with
  | nil => exact .inl (Prod.mk.inj (Except.ok.inj h)).1.symm
  | cons reg next ih =>
    rw [List.find?_cons]
    rcases alloc_cons_eq_ok h with ⟨hroom, haddr, -, -⟩ | ⟨hroom, rest, hrest, -⟩
    · exact .inr ⟨reg, by simp [hroom], haddr⟩
    · rw [hroom]
      exact ih hrest

/-- A page size and count whose bytes, plus one more page, do not pass 2^64. -/
def NoWrap (pageSize pageCount : Word) : Prop :=
  0 < pageSize.toNat ∧ 0 < pageCount.toNat ∧
    pageSize.toNat * (pageCount.toNat + 1) ≤ 2 ^ 64

lemma NoWrap.bytes_toNat (h : NoWrap pageSize pageCount) :
    (pageSize * pageCount).toNat = pageSize.toNat * pageCount.toNat := by
  obtain ⟨h1, _, h3⟩ := h
  rw [BitVec.toNat_mul, Nat.mod_eq_of_lt]
  rw [Nat.mul_add, Nat.mul_one] at h3
  omega

lemma noWrap_of_dvd (hp : 0 < pageSize.toNat) (hc : 0 < pageCount.toNat)
    (hd : pageSize.toNat ∣ 2 ^ 64) (hlt : pageSize.toNat * pageCount.toNat < 2 ^ 64) :
    NoWrap pageSize pageCount := by
  obtain ⟨k, hk⟩ := hd
  refine ⟨hp, hc, ?_⟩
  rw [hk] at hlt ⊢
  exact Nat.mul_le_mul_left _ (lt_of_mul_lt_mul_left hlt (Nat.zero_le _))

lemma chopSize_lt (start : VirtAddr) (hp : 0 < pageSize.toNat) :
    (Region.chopSize start pageSize).toNat < pageSize.toNat := by
  have hmod : start.toNat % pageSize.toNat < pageSize.toNat := Nat.mod_lt _ hp
  rw [Region.chopSize_toNat start hp]
  split_ifs <;> omega

lemma hasRoom_iff (reg : Region) (hn : NoWrap pageSize pageCount) :
    reg.hasRoom pageSize pageCount = true ↔
      (Region.chopSize reg.start pageSize).toNat + pageSize.toNat * pageCount.toNat ≤
        reg.size.toNat := by
  have hlt := chopSize_lt reg.start hn.1
  have hle := hn.2.2
  rw [Nat.mul_succ] at hle
  have hsum : (Region.chopSize reg.start pageSize + pageSize * pageCount).toNat =
      (Region.chopSize reg.start pageSize).toNat + pageSize.toNat * pageCount.toNat := by
    rw [BitVec.toNat_add, hn.bytes_toNat, Nat.mod_eq_of_lt]
    omega
  rw [Region.hasRoom, decide_eq_true_eq, BitVec.le_def, hsum]

lemma request_start {reg : Region} (hr : reg.Fits) (hn : NoWrap pageSize pageCount)
    (hroom : reg.hasRoom pageSize pageCount = true) :
    (reg.request pageSize pageCount).start.toNat =
      reg.start.toNat + (Region.chopSize reg.start pageSize).toNat := by
  have hle := (hasRoom_iff reg hn).mp hroom
  have hpos : 0 < pageSize.toNat * pageCount.toNat := Nat.mul_pos hn.1 hn.2.1
  have hend := hr.2
  rw [Region.request, BitVec.toNat_add, Nat.mod_eq_of_lt]
  omega

lemma request_inside {reg : Region} (hr : reg.Fits) (hn : NoWrap pageSize pageCount)
    (hroom : reg.hasRoom pageSize pageCount = true) :
    (reg.request pageSize pageCount).Fits ∧
      reg.span.1 ≤ (reg.request pageSize pageCount).span.1 ∧
      (reg.request pageSize pageCount).span.2 ≤ reg.span.2 := by
  have hle := (hasRoom_iff reg hn).mp hroom
  have hstart := request_start hr hn hroom
  have hpos : 0 < pageSize.toNat * pageCount.toNat := Nat.mul_pos hn.1 hn.2.1
  have hsize : (reg.request pageSize pageCount).size.toNat = pageSize.toNat * pageCount.toNat :=
    hn.bytes_toNat
  have hend := hr.2
  simp only [Region.Fits, Region.span, hsize, hstart]
  omega

theorem alloc_spec {regions : List Region} (h : WellFormed regions)
    (hn : NoWrap pageSize pageCount)
    (hfront : allocTakesFront pageSize pageCount regions = false) :
    ∃ addr out, alloc pageSize pageCount regions = .ok (addr, out) ∧
      (Taken regions out (addr.toNat, addr.toNat + pageSize.toNat * pageCount.toNat) ∨
        (addr = 0 ∧ out = regions)) := by
  have hp : pageSize ≠ 0 := by
    intro hz
    simpa [hz] using hn.1
  induction regions with
  | nil => exact ⟨0, [], rfl, .inr ⟨rfl, rfl⟩⟩
  | cons reg next ih =>
    by_cases hc : reg.hasRoom pageSize pageCount = true
    · have hf : reg.takesFront (reg.request pageSize pageCount) = false := by
        simpa [allocTakesFront, List.find?_cons, hc] using hfront
      obtain ⟨hfits, hin⟩ := request_inside h.head hn hc
      obtain ⟨out, hout, ht⟩ := Taken.of_allocInRegion h hfits hin hf
      refine ⟨(reg.request pageSize pageCount).start, out, ?_, .inl ?_⟩
      · have hnew := Region.new_of_fits hfits
        simp only [Region.request] at hnew hout ⊢
        simp [alloc, Region.canHold, checkedMod_of_ne hp, hc, hnew, hout, bind, Except.bind,
          pure, Except.pure]
      · simpa only [Region.span, Region.request, hn.bytes_toNat] using ht
    · have hf : allocTakesFront pageSize pageCount next = false := by
        simpa [allocTakesFront, List.find?_cons, hc] using hfront
      obtain ⟨addr, out, hout, hres⟩ := ih h.tail hf
      refine ⟨addr, reg :: out, ?_, ?_⟩
      · simp [alloc, Region.canHold, checkedMod_of_ne hp, hc, hout, bind, Except.bind,
          pure, Except.pure]
      · rcases hres with ht | ⟨ha, rfl⟩
        · exact .inl (ht.cons h)
        · exact .inr ⟨ha, rfl⟩

end

/-- Extending a region upwards to the end of an adjacent one. The size stays below 2^64
because some address is outside both. -/
lemma extend_span {reg next : Region} (hr : reg.Fits) (hn : next.Fits)
    (hadj : reg.span.2 = next.span.1)
    (hroom : ∃ x < 2 ^ 64, x ∉ Set.Ico reg.span.1 next.span.2) :
    Region.Fits { reg with size := reg.size + next.size } ∧
      Region.span { reg with size := reg.size + next.size } = (reg.span.1, next.span.2) := by
  obtain ⟨h1, h2⟩ := hr
  obtain ⟨h3, h4⟩ := hn
  obtain ⟨x, hx, hout⟩ := hroom
  simp only [Region.Fits, Region.span, Set.mem_Ico, Prod.mk.injEq, true_and] at *
  bv_omega

lemma join_adjacent {reg next : Region} {rest : Set ℕ} (hr : reg.Fits) (hn : next.Fits)
    (hadj : reg.isAdjacentBehind next.start = true)
    (hroom : ∃ x < 2 ^ 64, x ∉ Set.Ico reg.span.1 reg.span.2 ∪
      (Set.Ico next.span.1 next.span.2 ∪ rest)) :
    Region.Fits { reg with size := reg.size + next.size } ∧
      Region.span { reg with size := reg.size + next.size } = (reg.span.1, next.span.2) ∧
      Set.Ico reg.span.1 reg.span.2 ∪ (Set.Ico next.span.1 next.span.2 ∪ rest) =
        Set.Ico reg.span.1 next.span.2 ∪ rest := by
  have he : reg.span.2 = next.span.1 := (Region.isAdjacentBehind_iff hr _).mp hadj
  have hr1 : reg.span.1 ≤ reg.span.2 := Nat.le_add_right _ _
  have hn1 : next.span.1 ≤ next.span.2 := Nat.le_add_right _ _
  have hunion : Set.Ico reg.span.1 reg.span.2 ∪ (Set.Ico next.span.1 next.span.2 ∪ rest) =
      Set.Ico reg.span.1 next.span.2 ∪ rest := by
    rw [← Set.union_assoc, ← he, Ico_union_adjacent hr1 (he ▸ hn1)]
  obtain ⟨x, hx, hout⟩ := hroom
  rw [hunion] at hout
  obtain ⟨hf, hs⟩ := extend_span hr hn he ⟨x, hx, fun hm => hout (.inl hm)⟩
  exact ⟨hf, hs, hunion⟩

lemma absorb_spec {reg : Region} {next : List Region} (hr : reg.Fits) (h : WellFormed next)
    (hle : ∀ x ∈ addresses next, reg.span.2 ≤ x)
    (hroom : ∃ x < 2 ^ 64, x ∉ Set.Ico reg.span.1 reg.span.2 ∪ addresses next) :
    WellFormed (absorb reg next) ∧
      addresses (absorb reg next) = Set.Ico reg.span.1 reg.span.2 ∪ addresses next := by
  induction next generalizing reg with
  | nil => exact ⟨.cons hr .nil (by simp), by simp [absorb]⟩
  | cons theNext rest ih =>
    by_cases hadj : reg.isAdjacentBehind theNext.start = true
    · rw [addresses_cons] at hroom ⊢
      obtain ⟨hf, hs, hunion⟩ := join_adjacent hr h.head hadj hroom
      rw [hunion] at hroom ⊢
      rw [absorb, if_pos hadj]
      have hres := ih hf h.tail (fun y hy => by rw [hs]; exact (h.lt_of_mem hy).le)
        (by rwa [hs])
      rwa [hs] at hres
    · rw [absorb, if_neg hadj]
      refine ⟨.cons hr h fun x hx => ?_, by rw [addresses_cons]⟩
      have hne : reg.span.2 ≠ theNext.span.1 := fun he =>
        hadj ((Region.isAdjacentBehind_iff hr _).mpr he)
      have hpos := h.head.1
      have hmem : theNext.span.1 ∈ addresses (theNext :: rest) := by
        rw [addresses_cons]
        exact .inl ⟨le_rfl, by simp only [Region.span]; omega⟩
      have hlt : reg.span.2 < theNext.span.1 := lt_of_le_of_ne (hle _ hmem) hne
      rw [addresses_cons] at hx
      rcases hx with hx | hx
      · exact hlt.trans_le hx.1
      · have hn1 : theNext.span.1 ≤ theNext.span.2 := Nat.le_add_right _ _
        exact (hlt.trans_le hn1).trans (h.lt_of_mem hx)

lemma ordered_of_disjoint {r q : Region} (hr : r.Fits) (hq : q.Fits)
    (hd : Disjoint (Set.Ico r.span.1 r.span.2) (Set.Ico q.span.1 q.span.2)) :
    r.span.2 ≤ q.span.1 ∨ q.span.2 ≤ r.span.1 := by
  rw [Set.Ico_disjoint_Ico] at hd
  have h1 := hr.1
  have h2 := hq.1
  simp only [Region.span] at hd ⊢
  omega

/-- `Free` inserts or merges exactly the released range, if that is not on the list and
the two together are not the whole address space. -/
theorem freeFrom_spec {releasing : Region} {regions : List Region} (h : WellFormed regions)
    (hq : releasing.Fits)
    (hd : Disjoint (Set.Ico releasing.span.1 releasing.span.2) (addresses regions))
    (hroom : ∃ x < 2 ^ 64,
      x ∉ Set.Ico releasing.span.1 releasing.span.2 ∪ addresses regions) :
    ∃ out, freeFrom releasing regions = .ok out ∧ WellFormed out ∧
      addresses out = Set.Ico releasing.span.1 releasing.span.2 ∪ addresses regions := by
  have hnew : allocRegion releasing.start releasing.size = .ok releasing :=
    Region.new_of_fits hq
  have hq1 : releasing.span.1 < releasing.span.2 := Nat.lt_add_of_pos_right hq.1
  induction regions with
  | nil =>
    refine ⟨[releasing], by simp [freeFrom, hnew, bind, Except.bind, pure, Except.pure],
      .cons hq .nil (by simp), by simp⟩
  | cons reg next ih =>
    rw [addresses_cons] at hd hroom ⊢
    have hr1 : reg.span.1 < reg.span.2 := Nat.lt_add_of_pos_right h.head.1
    have hdr := hd.mono_right Set.subset_union_left
    have hdn := hd.mono_right Set.subset_union_right
    have hord := ordered_of_disjoint hq h.head hdr
    by_cases hback : reg.isAdjacentBehind releasing.start = true
    · -- the released range follows `reg`
      rw [Set.union_left_comm] at hroom ⊢
      obtain ⟨hf, hs, hunion⟩ := join_adjacent h.head hq hback hroom
      rw [hunion] at hroom ⊢
      have hle : ∀ y ∈ addresses next, releasing.span.2 ≤ y := by
        intro y hy
        have hlt := h.lt_of_mem hy
        have he : reg.span.2 = releasing.span.1 := (Region.isAdjacentBehind_iff h.head _).mp hback
        by_contra hc
        exact Set.disjoint_left.mp hdn ⟨by omega, by omega⟩ hy
      have hres := absorb_spec hf h.tail (by rwa [hs]) (by rwa [hs])
      rw [hs] at hres
      exact ⟨_, by rw [freeFrom, if_pos hback], hres⟩
    · by_cases hfront : releasing.isAdjacentBehind reg.start = true
      · -- the released range comes right before `reg`
        obtain ⟨hf, hs, hunion⟩ := join_adjacent hq h.head hfront hroom
        rw [hunion]
        have hsame : (⟨reg.start - releasing.size, reg.size + releasing.size⟩ : Region) =
            { releasing with size := releasing.size + reg.size } := by
          have he : releasing.span.2 = reg.span.1 := (Region.isAdjacentBehind_iff hq _).mp hfront
          simp only [Region.span] at he
          rw [Region.mk.injEq]
          bv_omega
        refine ⟨_, by rw [freeFrom, if_neg hback, if_pos hfront], ?_⟩
        rw [hsame]
        refine ⟨.cons hf h.tail fun y hy => by rw [hs]; exact h.lt_of_mem hy, ?_⟩
        rw [addresses_cons, hs]
      · have hne1 : reg.span.2 ≠ releasing.span.1 := fun he =>
          hback ((Region.isAdjacentBehind_iff h.head _).mpr he)
        have hne2 : releasing.span.2 ≠ reg.span.1 := fun he =>
          hfront ((Region.isAdjacentBehind_iff hq _).mpr he)
        by_cases hbehind : releasing.isBehind reg.start = true
        · -- the released range lies before `reg`, with a gap
          have hle : releasing.span.2 ≤ reg.span.1 := (Region.isBehind_iff hq _).mp hbehind
          refine ⟨releasing :: reg :: next, ?_, .cons hq h fun y hy => ?_, by simp⟩
          · rw [freeFrom, if_neg hback, if_neg hfront, if_pos hbehind]
            simp [hnew, bind, Except.bind, pure, Except.pure]
          · rw [addresses_cons] at hy
            rcases hy with hy | hy
            · have := hy.1
              omega
            · have := h.lt_of_mem hy
              omega
        · -- the released range lies after `reg`, with a gap
          have hgt : ¬ releasing.span.2 ≤ reg.span.1 := fun hle =>
            hbehind ((Region.isBehind_iff hq _).mpr hle)
          obtain ⟨x, hx, hout⟩ := hroom
          obtain ⟨out, hfree, hwf, haddr⟩ := ih h.tail hdn
            ⟨x, hx, fun hm => hout (hm.imp_right .inr)⟩
          refine ⟨reg :: out, ?_, .cons h.head hwf fun y hy => ?_, ?_⟩
          · rw [freeFrom, if_neg hback, if_neg hfront, if_neg hbehind]
            simp [hfree, bind, Except.bind, pure, Except.pure]
          · rw [haddr] at hy
            rcases hy with hy | hy
            · have := hy.1
              omega
            · exact h.lt_of_mem hy
          · rw [addresses_cons, haddr]
            exact Set.union_left_comm _ _ _

end Anarch.FreeList
