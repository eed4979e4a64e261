import Anarch.StepAllocatorFit

/-! When `GetLastAddress` bounds every block that was handed out. -/
namespace Anarch.StepAllocator
open MultibootRegionList TransitionRun

/-- A size of whole pages, and an alignment that is a power of two of at least a page. -/
def PageRequest (size align : Word) : Prop :=
  size % 0x1000 = 0 ∧ ∃ k, 12 ≤ k ∧ k < 64 ∧ align = .ofNat 64 (2 ^ k)

def Above (blocks : List (PhysAddr × Word)) (addr : PhysAddr) : Prop :=
  ∀ b ∈ blocks, blockEnd b ≤ addr.toNat

/-- A request that keeps `lastAddr` above all blocks, where `Alloc` begins in a region. -/
structure Steady (regions : Lists) (size align : Word) (s : State) (reg : Region) : Prop where
  /-- Rounding up does not wrap. -/
  round : s.lastAddr ≤ roundUp align s.lastAddr
  sum : SumFits size align reg s.lastAddr
  /-- If the request does not fit there, `lastAddr` is moved above the blocks in every later
  region. -/
  later : getEnd reg < enter align reg s.lastAddr + size →
    ∀ next ∈ allRegions regions, reg.start < next.start →
      Above s.blocks (enter align next next.start) ∧ SumFits size align next next.start
  /-- If `lastAddr` is rounded up past the end of the region and a block ends there, there is a
  later region to go to. -/
  back : getEnd reg < roundUp align s.lastAddr →
    (∃ b ∈ s.blocks, blockEnd b = (getEnd reg).toNat) →
    size ≠ 0 ∧ (nextRegion regions reg).isSome = true

/-- The request is steady in the region that `Alloc` begins with, if there is one. -/
def StaysAbove (regions : Lists) (s : State) (a : Word × Word) : Prop :=
  ∀ reg, regionOf regions s.lastAddr = some reg → Steady regions a.1 a.2 s reg

section
variable {regions : Lists} {reg : Region} {lastAddr : PhysAddr} {size align : Word} {s t : State}
  {rounds : ℕ} {result : Option PhysAddr × PhysAddr} {c : Cursor}
  {blocks : List (PhysAddr × Word)}

lemma start_le_enter (hne : reg.start < getEnd reg) (hround : reg.start ≤ roundUp align reg.start) :
    reg.start ≤ enter align reg reg.start := by
  unfold enter
  split_ifs
  · rw [BitVec.lt_def] at hne
    rw [BitVec.le_def, BitVec.toNat_sub_of_le]
    · show reg.start.toNat ≤ (getEnd reg).toNat - 1
      omega
    · rw [BitVec.le_def]
      show 1 ≤ (getEnd reg).toNat
      omega
  · exact hround

lemma Above.mono {x y : PhysAddr} (h : Above blocks x) (hle : x ≤ y) : Above blocks y :=
  fun b hb => (h b hb).trans (BitVec.le_def.mp hle)

/-- A cursor above the blocks, or about to leave a region for a later one, ends above the blocks
and the one that it hands out. -/
lemma loop_above (hloop : loop (allocBody regions size align) rounds c = some result)
    (hsum : c.lastAddr.toNat + size.toNat < 2 ^ 64)
    (habove : Above blocks c.lastAddr ∨
      getEnd c.reg < c.lastAddr + size ∧ (nextRegion regions c.reg).isSome = true)
    (hlater : getEnd c.reg < c.lastAddr + size → ∀ next ∈ allRegions regions,
      c.reg.start < next.start → Above blocks (enter align next next.start) ∧
        SumFits size align next next.start) :
    Above blocks result.2 ∧
      ∀ addr, result.1 = some addr → addr.toNat + size.toNat ≤ result.2.toNat := by
  induction rounds generalizing c with
  | zero => cases hloop
  | succ rounds ih =>
    by_cases hfull : getEnd c.reg < c.lastAddr + size
    · cases hnext : nextRegion regions c.reg with
      | none =>
        have hbody : allocBody regions size align c = .inr (none, c.lastAddr) := by
          rw [allocBody, if_pos hfull, hnext]
        rw [loop, hbody] at hloop
        obtain rfl := Option.some.inj hloop
        refine ⟨habove.resolve_right fun h => ?_, fun addr h => by cases h⟩
        rw [hnext] at h
        cases h.2
      | some next =>
        have hbody : allocBody regions size align c = .inl ⟨enter align next next.start, next⟩ := by
          rw [allocBody, if_pos hfull, hnext]
        rw [loop, hbody] at hloop
        obtain ⟨hmem, hlt⟩ := nextRegion_some hnext
        obtain ⟨habove', hsum'⟩ := hlater hfull next hmem hlt
        exact ih hloop hsum' (.inl habove') fun _ r hr hlt' =>
          hlater hfull r hr (BitVec.lt_trans hlt hlt')
    · have hbody : allocBody regions size align c = .inr (some c.lastAddr, c.lastAddr + size) := by
        rw [allocBody, if_neg hfull]
      rw [loop, hbody] at hloop
      obtain rfl := Option.some.inj hloop
      have hend : (c.lastAddr + size).toNat = c.lastAddr.toNat + size.toNat :=
        BitVec.toNat_add_of_lt hsum
      have hle : c.lastAddr ≤ c.lastAddr + size := by
        rw [BitVec.le_def, hend]
        omega
      refine ⟨(habove.resolve_right fun h => hfull h.1).mono hle, ?_⟩
      rintro addr ⟨⟩
      exact hend.ge

lemma Steady.begins (h : Steady regions size align s reg) (hsize : size % 0x1000 = 0)
    (hend : s.lastAddr ≤ getEnd reg) (hs : Above s.blocks s.lastAddr) :
    Above s.blocks (enter align reg s.lastAddr) ∨
      getEnd reg < enter align reg s.lastAddr + size ∧ (nextRegion regions reg).isSome = true := by
  by_cases hpast : getEnd reg < roundUp align s.lastAddr
  · have henter : enter align reg s.lastAddr = getEnd reg - 1 := if_pos hpast
    by_cases hblock : ∃ b ∈ s.blocks, blockEnd b = (getEnd reg).toNat
    · obtain ⟨hne, hnext⟩ := h.back hpast hblock
      refine .inr ⟨?_, hnext⟩
      have hsum : (enter align reg s.lastAddr).toNat + size.toNat < 2 ^ 64 := h.sum
      have hpages : size.toNat % 0x1000 = 0 := congrArg BitVec.toNat hsize
      have hpos : size.toNat ≠ 0 := fun h0 => hne (BitVec.eq_of_toNat_eq h0)
      have hlt := (getEnd reg).isLt
      rw [BitVec.lt_def, BitVec.toNat_add_of_lt hsum]
      rw [henter, BitVec.toNat_sub, show (1 : Word).toNat = 1 from rfl] at hsum ⊢
      omega
    · refine .inl fun b hb => ?_
      have hle := (hs b hb).trans (BitVec.le_def.mp hend)
      have hneq : blockEnd b ≠ (getEnd reg).toNat := fun he => hblock ⟨b, hb, he⟩
      rw [henter, BitVec.toNat_sub_of_le]
      · show blockEnd b ≤ (getEnd reg).toNat - 1
        omega
      · rw [BitVec.le_def]
        show 1 ≤ (getEnd reg).toNat
        omega
  · rw [enter, if_neg hpast]
    exact .inl (hs.mono h.round)

lemma alloc_cases (h : alloc regions size align rounds lastAddr = some (.ok result)) :
    result = (none, lastAddr) ∨ ∃ reg, regionOf regions lastAddr = some reg ∧
      loop (allocBody regions size align) rounds ⟨enter align reg lastAddr, reg⟩ = some result := by
  unfold alloc at h
  cases hreg : regionOf regions lastAddr with
  | none =>
    rw [hreg] at h
    exact .inl (Except.ok.inj (Option.some.inj h)).symm
  | some reg =>
    rw [hreg] at h
    simp only at h
    split_ifs at h
    · cases Option.some.inj h
    · obtain ⟨r, hloop, hr⟩ := Option.map_eq_some_iff.mp h
      exact .inr ⟨reg, rfl, Except.ok.inj hr ▸ hloop⟩

lemma Above.alloc (hs : Above s.blocks s.lastAddr) (hsize : size % 0x1000 = 0)
    (hsteady : StaysAbove regions s (size, align))
    (h : alloc regions size align rounds s.lastAddr = some (.ok result)) :
    Above (s.after size result).blocks (s.after size result).lastAddr := by
  rcases alloc_cases h with rfl | ⟨reg, hreg, hloop⟩
  · exact hs
  · have hin := hsteady reg hreg
    obtain ⟨habove, hnew⟩ := loop_above hloop hin.sum
      (hin.begins hsize (regionOf_some hreg).2.2 hs) hin.later
    obtain ⟨served, last⟩ := result
    cases served with
    | none => exact habove
    | some addr =>
      rintro b (_ | ⟨_, hb⟩)
      · exact hnew addr rfl
      · exact habove b hb

/-- Over regions in order, where no sum wraps, only the step back at the end of a region is left
to rule out. -/
lemma Layout.staysAbove (hl : Layout regions) (halign : 0 < align.toNat)
    (hwrap : NoWrap regions size align s.lastAddr) (hs : Above s.blocks s.lastAddr)
    (hback : ∀ reg, regionOf regions s.lastAddr = some reg →
      getEnd reg < roundUp align s.lastAddr →
        (∃ b ∈ s.blocks, blockEnd b = (getEnd reg).toNat) →
          size ≠ 0 ∧ (nextRegion regions reg).isSome = true) :
    StaysAbove regions s (size, align) := by
  intro reg hreg
  obtain ⟨hmem, -, hend⟩ := regionOf_some hreg
  obtain ⟨hsum, hlater⟩ := hwrap reg hreg
  rw [BitVec.le_def, hl.getEnd_toNat hmem] at hend
  have hround : ∀ {x : PhysAddr}, x.toNat ≤ 2 ^ 48 → x ≤ roundUp align x := fun hx =>
    BitVec.le_def.mpr (roundUp_least hx halign).1.2
  refine ⟨hround (hend.trans (hl.small reg hmem)), hsum, fun _ next hnext hlt => ?_,
    hback reg hreg⟩
  have hne := hl.nonempty next hnext
  have hinside : next.start < getEnd next := by
    rw [BitVec.lt_def, hl.getEnd_toNat hnext]
    exact hne
  have hbelow : Above s.blocks next.start :=
    hs.mono (BitVec.le_def.mpr (hend.trans (hl.end_le hmem hnext hlt)))
  exact ⟨hbelow.mono (start_le_enter hinside (hround (hne.le.trans (hl.small next hnext)))),
    hlater next hnext hlt⟩

/-- In a run whose requests are all steady, `GetLastAddress` bounds every block handed out. -/
theorem lastAddr_above_blocks
    (h : ((calls regions (fun _ => True) PageRequest).restrict (StaysAbove regions)).Reachable s) :
    ∀ b ∈ s.blocks, blockEnd b ≤ s.lastAddr.toNat := by
  refine h.invariant (P := fun s => Above s.blocks s.lastAddr) ?_ ?_
  · rintro s ⟨-, hempty⟩
    rw [hempty]
    exact fun b hb => absurd hb List.not_mem_nil
  · rintro s a t - hs ⟨hsteady, ⟨hsize, -⟩, rounds, result, halloc, rfl⟩
    exact hs.alloc hsize hsteady halloc

end

def twoPages : Lists := ⟨[⟨0, 0x2000⟩], []⟩

lemma twoPages_layout : Layout twoPages where
  lower_sorted := by simp [twoPages]
  upper_sorted := by simp [twoPages]
  below := by simp [twoPages]
  nonempty := by decide
  disjoint := List.pairwise_singleton _ _
  small := by decide

lemma twoPages_steady (s : State) (hregion : regionOf twoPages s.lastAddr = some ⟨0, 0x2000⟩)
    (hround : roundUp 0x1000 s.lastAddr = s.lastAddr) (hend : s.lastAddr ≤ 0x2000)
    (hs : Above s.blocks s.lastAddr) : StaysAbove twoPages s (0x1000, 0x1000) := by
  refine twoPages_layout.staysAbove (by decide) (fun reg hreg => ?_) hs fun reg hreg hpast => ?_
  all_goals obtain rfl := Option.some.inj (hregion.symm.trans hreg)
  · have hstay : enter 0x1000 ⟨0, 0x2000⟩ s.lastAddr = s.lastAddr := by
      rw [enter, hround]
      exact if_neg (BitVec.not_lt.mpr hend)
    refine ⟨?_, by simp [twoPages, allRegions]⟩
    rw [SumFits, hstay]
    exact Nat.lt_of_le_of_lt (Nat.add_le_add_right (BitVec.le_def.mp hend) _) (by decide)
  · rw [hround] at hpast
    exact absurd hend (BitVec.not_le.mpr hpast)

/-- Both pages are handed out, and a third request fails. -/
theorem lastAddr_above_two_pages : ∃ s, ((calls twoPages (fun _ => True) PageRequest).restrict
    (StaysAbove twoPages)).Reachable s ∧ s.blocks = [(0x1000, 0x1000), (0, 0x1000)] ∧
      alloc twoPages 0x1000 0x1000 1 s.lastAddr = some (.ok (none, s.lastAddr)) ∧
      ∀ b ∈ s.blocks, blockEnd b ≤ s.lastAddr.toNat := by
  have hpage : PageRequest 0x1000 0x1000 := ⟨rfl, 12, by decide, by decide, rfl⟩
  have h0 : ((calls twoPages (fun _ => True) PageRequest).restrict
      (StaysAbove twoPages)).Reachable ⟨0, []⟩ := .start ⟨trivial, rfl⟩
  have h1 := h0.next (a := (0x1000, 0x1000))
    ⟨twoPages_steady _ rfl rfl (by decide) (by simp [Above]), hpage, 1, (some 0, 0x1000), rfl, rfl⟩
  have h2 := h1.next (a := (0x1000, 0x1000))
    ⟨twoPages_steady _ rfl rfl (by decide) (lastAddr_above_blocks h1), hpage, 1,
      (some 0x1000, 0x2000), rfl, rfl⟩
  have h3 := h2.next (a := (0x1000, 0x1000))
    ⟨twoPages_steady _ rfl rfl (by decide) (lastAddr_above_blocks h2), hpage, 1,
      (none, 0x2000), rfl, rfl⟩
  exact ⟨_, h3, rfl, rfl, lastAddr_above_blocks h3⟩

/-- A large page does not fit behind them, and the failed request moves `lastAddr` into the
second block. -/
theorem lastAddr_below_block : ∃ s, (calls twoPages (fun _ => True) PageRequest).Reachable s ∧
    ∃ b ∈ s.blocks, s.lastAddr.toNat < blockEnd b := by
  have hpage : PageRequest 0x1000 0x1000 := ⟨rfl, 12, by decide, by decide, rfl⟩
  have hlarge : PageRequest 0x200000 0x200000 := ⟨rfl, 21, by decide, by decide, rfl⟩
  have h0 : (calls twoPages (fun _ => True) PageRequest).Reachable ⟨0, []⟩ := .start ⟨trivial, rfl⟩
  have h1 := h0.next (a := (0x1000, 0x1000)) ⟨hpage, 1, (some 0, 0x1000), rfl, rfl⟩
  have h2 := h1.next (a := (0x1000, 0x1000)) ⟨hpage, 1, (some 0x1000, 0x2000), rfl, rfl⟩
  have h3 := h2.next (a := (0x200000, 0x200000)) ⟨hlarge, 1, (none, 0x1fff), rfl, rfl⟩
  exact ⟨_, h3, (0x1000, 0x1000), by decide, by decide⟩

end Anarch.StepAllocator
