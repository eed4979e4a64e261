import Anarch.BuddyAllocator
import Mathlib.Algebra.Order.BigOperators.Group.List
import Mathlib.Algebra.Order.Group.Nat

/-! Runs of the physical allocators, from the boot loader's memory map on: no memory is in use
twice. -/
namespace Anarch.BuddyAllocator
open IntervalCover MultibootRegionList StepAllocator TransitionRun

section
variable {κ τ : Type} [DecidableEq τ] (C : ClusterOps κ)

/-- Memory below and above 4 GiB, in regions that the boot allocator can use. -/
structure Split (regions : Lists) : Prop where
  layout : Layout regions
  lower_end : ∀ r ∈ regions.lowerRegions, r.span.2 ≤ 0x100000000
  upper_start : ∀ r ∈ regions.upperRegions, 0x100000000 ≤ r.span.1

/-- What is true once the boot allocator has handed over. -/
structure Running (V : View κ) (regions : Lists) (m : Memory κ τ) (s : State κ) : Prop where
  lower : Side V regions.lowerRegions m.boot.blocks s.lower
  upper : Side V regions.upperRegions m.boot.blocks s.upper
  hasLower : s.hasLower = decide (regions.lowerRegions ≠ [])
  hasUpper : s.hasUpper = decide (regions.upperRegions ≠ [])
  total : s.totalSpace = ((allRegions regions).map Region.len).sum
  live : (m.live.map Handed.block).Perm (V.held s.upper ++ V.held s.lower)
  low : ∀ h ∈ m.live, h.low → h.block ∈ V.held s.lower

/-- The invariant of all runs. -/
structure Inv (V : View κ) (regions : Lists) (m : Memory κ τ) : Prop where
  placed : Apart regions m.boot
  above : m.buddy = none → Above m.boot.blocks m.boot.lastAddr
  aligned : ∀ b ∈ m.boot.blocks, 0x1000 ∣ blockEnd b
  unused : m.buddy = none → m.live = []
  running : ∀ s, m.buddy = some s → Running V regions m s

section
variable {C} {V : View κ} {regs : List Region} {k : κ} {m m' : Memory κ τ} {s : State κ}
  {size align : Word} {build : Build κ} {empty : κ} {regions : Lists}

omit [DecidableEq τ] in
/-- A request for small pages never makes the boot allocator step back into a block. -/
lemma Inv.keeps_small (h : Inv V regions m) (hl : Layout regions) :
    Keeps regions m.boot 0x1000 := by
  rintro reg hreg hpast ⟨b, hb, hend⟩
  obtain ⟨hmem, -, hle⟩ := regionOf_some hreg
  have hdvd : 0x1000 ∣ (getEnd reg).toNat := hend ▸ h.aligned b hb
  have hsmall : m.boot.lastAddr.toNat ≤ 2 ^ 48 :=
    (BitVec.le_def.mp hle).trans (hl.getEnd_toNat hmem ▸ hl.small reg hmem)
  have hround := (roundUp_least hsmall (by decide : 0 < (0x1000 : Word).toNat)).2 ⟨hdvd, BitVec.le_def.mp hle⟩
  exact absurd (BitVec.lt_def.mp hpast) (Nat.not_lt.mpr hround)

omit [DecidableEq τ] in
lemma Inv.bootAlloc (h : Inv V regions m) (hl : Layout regions) (hbuddy : m.buddy = none)
    (hcareful : Careful regions m (.bootAlloc size align)) {rounds : ℕ}
    {result : Option PhysAddr × PhysAddr}
    (halloc : StepAllocator.alloc regions size align rounds m.boot.lastAddr = some (.ok result)) :
    Inv V regions { m with boot := m.boot.after size result } := by
  obtain ⟨hpages, hrequest, hwrap, hkeeps⟩ := hcareful
  obtain ⟨rounds', result', halloc', hsteps⟩ := hwrap.steps hl h.placed.placed hpages
  obtain rfl := Except.ok.inj (alloc_unique halloc halloc')
  have hsize : size ≠ 0 := fun h0 => by simp [WholePages, h0] at hpages
  have hsteady : StaysAbove regions m.boot (size, align) := by
    refine hl.staysAbove hpages.2.2.1 hwrap (h.above hbuddy) fun reg hreg hpast hblock =>
      ⟨hsize, ?_⟩
    by_cases hsmall : align = 0x1000
    · exact h.keeps_small hl reg hreg (hsmall ▸ hpast) hblock
    · exact hkeeps hsmall reg hreg hpast hblock
  refine ⟨h.placed.alloc hpages hsteps, fun _ => (h.above hbuddy).alloc hrequest.1 hsteady halloc,
    ?_, fun _ => h.unused hbuddy, fun s hs => by simp [hbuddy] at hs⟩
  obtain ⟨served, last⟩ := result
  cases served with
  | none => exact h.aligned
  | some addr =>
    refine List.forall_mem_cons.mpr ⟨?_, h.aligned⟩
    rcases hsteps.fit with ⟨hnone, -⟩ | ⟨x, hx, ⟨-, hdvd, -⟩, -⟩
    · cases hnone
    · obtain rfl := Option.some.inj hx
      exact Nat.dvd_add (hpages.2.2.2.trans hdvd) hpages.2.1

lemma new_eq (hbuild : ∀ regs k, build regs = some k → Built V regs k) (hempty : Built V [] empty)
    (h : new build empty regions = .ok s) :
    Built V regions.lowerRegions s.lower ∧ Built V regions.upperRegions s.upper ∧
      s.hasLower = decide (regions.lowerRegions ≠ []) ∧
      s.hasUpper = decide (regions.upperRegions ≠ []) ∧
      s.totalSpace = ((allRegions regions).map Region.len).sum := by
  have hside : ∀ {regs : List Region} {k : κ},
      clusterOf build empty regs = .ok k → Built V regs k := by
    intro regs k hk
    unfold clusterOf at hk
    split_ifs at hk with hnil
    · exact Except.ok.inj hk ▸ hnil ▸ hempty
    · unfold initializeCluster at hk
      split at hk
      · cases hk
      · next cluster hcluster => exact Except.ok.inj hk ▸ hbuild regs cluster hcluster
  obtain ⟨lower, hlower, h⟩ := bind_eq_ok.mp h
  obtain ⟨upper, hupper, h⟩ := bind_eq_ok.mp h
  obtain rfl := Except.ok.inj h
  exact ⟨hside hlower, hside hupper, rfl, rfl, rfl⟩

omit [DecidableEq τ] in
/-- `Reserve(GetLastAddress())` hands over what the boot allocator has not handed out. -/
lemma Inv.handOver (h : Inv V regions m) (hC : Contract C V) (hbuddy : m.buddy = none)
    (hbuild : ∀ regs k, build regs = some k → Built V regs k) (hempty : Built V [] empty)
    (hnew : new build empty regions = .ok s) :
    Inv V regions { m with buddy := some (reserve C m.boot.lastAddr s) } := by
  obtain ⟨hlower, hupper, hasLower, hasUpper, htotal⟩ := new_eq hbuild hempty hnew
  have habove := h.above hbuddy
  have hside : ∀ {regs : List Region} {k : κ} {has : Bool}, Built V regs k →
      has = decide (regs ≠ []) →
        Side V regs m.boot.blocks (if has then C.reserve 0 m.boot.lastAddr k else k) ∧
          V.held (if has then C.reserve 0 m.boot.lastAddr k else k) = [] := by
    intro regs k has hk hhas
    by_cases hnil : regs = []
    · subst hnil
      simp only [ne_eq, not_true_eq_false, decide_false] at hhas
      subst hhas
      exact ⟨hk.nothing, hk.held⟩
    · simp only [ne_eq, hnil, not_false_eq_true, decide_true] at hhas
      subst hhas
      exact hk.reserve hC habove
  obtain ⟨hlower, hheldLower⟩ := hside hlower hasLower
  obtain ⟨hupper, hheldUpper⟩ := hside hupper hasUpper
  refine ⟨h.placed, fun hnone => (by cases hnone), h.aligned, fun hnone => (by cases hnone), ?_⟩
  rintro s' ⟨⟩
  refine ⟨hlower, hupper, hasLower, hasUpper, htotal, ?_, ?_⟩
  · simpa [reserve, h.unused hbuddy] using And.intro hheldUpper hheldLower
  · simp [h.unused hbuddy]

omit [DecidableEq τ] in
lemma Running.lowerCall (h : Running V regions m s) (size align : Word) (hC : Contract C V) :
    Running V regions (m.answer size true (allocLower C size align s))
      (allocLower C size align s).2 := by
  unfold allocLower
  split_ifs
  · cases hcall : C.align size align s.lower with
    | mk result lower =>
      cases result with
      | none =>
        obtain ⟨hlower, hheld⟩ := h.lower.refused hC hcall
        exact ⟨hlower, h.upper, h.hasLower, h.hasUpper, h.total,
          by simpa [Memory.answer, hheld] using h.live, by simpa [Memory.answer, hheld] using h.low⟩
      | some addr =>
        obtain ⟨hlower, hheld⟩ := h.lower.served hC hcall
        refine ⟨hlower, h.upper, h.hasLower, h.hasUpper, h.total, ?_, ?_⟩
        · simp only [Memory.answer, Option.elim_some, List.map_cons, hheld]
          exact (h.live.cons _).trans List.perm_middle.symm
        · simp only [Memory.answer, Option.elim_some, hheld]
          refine List.forall_mem_cons.mpr ⟨fun _ => List.mem_cons_self, fun x hx hlow => ?_⟩
          exact List.mem_cons_of_mem _ (h.low x hx hlow)
  · exact ⟨h.lower, h.upper, h.hasLower, h.hasUpper, h.total, h.live, h.low⟩

omit [DecidableEq τ] in
lemma Running.upperCall (h : Running V regions m s) (size align : Word) (hC : Contract C V) :
    Running V regions (m.answer size false (allocUpper C size align s))
      (allocUpper C size align s).2 := by
  unfold allocUpper
  split_ifs
  · cases hcall : C.align size align s.upper with
    | mk result upper =>
      cases result with
      | none =>
        obtain ⟨hupper, hheld⟩ := h.upper.refused hC hcall
        exact ⟨h.lower, hupper, h.hasLower, h.hasUpper, h.total,
          by simpa [Memory.answer, hheld] using h.live, h.low⟩
      | some addr =>
        obtain ⟨hupper, hheld⟩ := h.upper.served hC hcall
        refine ⟨h.lower, hupper, h.hasLower, h.hasUpper, h.total, ?_, ?_⟩
        · simpa [Memory.answer, hheld] using h.live
        · simpa [Memory.answer] using h.low
  · exact ⟨h.lower, h.upper, h.hasLower, h.hasUpper, h.total, h.live, h.low⟩

omit [DecidableEq τ] in
lemma Running.below (h : Running V regions m s) (hsplit : Split regions) {b : Block}
    (hb : b ∈ V.held s.lower) {x : ℕ} (hx : x ∈ extent b) : x < 0x100000000 := by
  obtain ⟨span, hspan, hmem⟩ := h.lower.managed (h.lower.space (h.lower.held b hb hx))
  obtain ⟨r, hr, rfl⟩ := List.mem_map.mp hspan
  exact hmem.2.trans_le (hsplit.lower_end r hr)

omit [DecidableEq τ] in
lemma Running.above (h : Running V regions m s) (hsplit : Split regions) {b : Block}
    (hb : b ∈ V.held s.upper) {x : ℕ} (hx : x ∈ extent b) : 0x100000000 ≤ x := by
  obtain ⟨span, hspan, hmem⟩ := h.upper.managed (h.upper.space (h.upper.held b hb hx))
  obtain ⟨r, hr, rfl⟩ := List.mem_map.mp hspan
  exact (hsplit.upper_start r hr).trans hmem.1

omit [DecidableEq τ] in
/-- `Free` gives a block back to the cluster that handed it out, and keeps all others. -/
lemma Running.freeCall (h : Running V regions m s) (hC : Contract C V) (hsplit : Split regions)
    {a : Handed} (ha : a ∈ m.live) :
    Running V regions { m with live := m.live.filter (·.block.1 ≠ a.block.1) }
      (free C a.block.1 s) := by
  have hmap : (m.live.filter (·.block.1 ≠ a.block.1)).map Handed.block =
      (m.live.map Handed.block).filter (·.1 ≠ a.block.1) := by
    rw [List.filter_map]
    rfl
  have hlive := h.live.filter (·.1 ≠ a.block.1)
  rw [← hmap, List.filter_append] at hlive
  have hlow : ∀ x ∈ m.live.filter (·.block.1 ≠ a.block.1), x.low →
      x.block ∈ (V.held s.lower).filter (·.1 ≠ a.block.1) := fun x hx hlow => by
    obtain ⟨hx, hne⟩ := List.mem_filter.mp hx
    exact List.mem_filter.mpr ⟨h.low x hx hlow, hne⟩
  rcases List.mem_append.mp (h.live.subset (List.mem_map_of_mem ha)) with hupper | hlower
  · obtain ⟨hside, hheld⟩ := h.upper.freed hC hupper
    have haddr : 0x100000000 ≤ a.block.1 := h.above hsplit hupper (mem_extent _)
    -- no block of the lower cluster has this address
    have hother : (V.held s.lower).filter (·.1 ≠ a.block.1) = V.held s.lower := by
      refine List.filter_eq_self.mpr fun b hb => decide_eq_true fun heq => ?_
      have hlt := h.below hsplit hb (mem_extent b)
      rw [heq] at hlt
      exact absurd haddr (Nat.not_le.mpr hlt)
    rw [free, if_pos haddr]
    exact ⟨h.lower, hside, h.hasLower, h.hasUpper, h.total, by rwa [hheld, ← hother],
      hother ▸ hlow⟩
  · obtain ⟨hside, hheld⟩ := h.lower.freed hC hlower
    have haddr : ¬ 0x100000000 ≤ a.block.1 :=
      Nat.not_le.mpr (h.below hsplit hlower (mem_extent _))
    have hother : (V.held s.upper).filter (·.1 ≠ a.block.1) = V.held s.upper := by
      refine List.filter_eq_self.mpr fun b hb => decide_eq_true fun heq => haddr ?_
      have hge := h.above hsplit hb (mem_extent b)
      rwa [heq] at hge
    rw [free, if_neg haddr]
    exact ⟨hside, h.upper, h.hasLower, h.hasUpper, h.total, by rwa [hheld, ← hother],
      by rwa [hheld]⟩

omit [DecidableEq τ] in
lemma Inv.run (h : Inv V regions m) (hrun : Running V regions m' s) (hboot : m'.boot = m.boot)
    (hbuddy : m'.buddy = some s) : Inv V regions m' where
  placed := hboot ▸ h.placed
  above hnone := by simp [hbuddy] at hnone
  aligned := hboot ▸ h.aligned
  unused hnone := by simp [hbuddy] at hnone
  running s' hs' := Option.some.inj (hbuddy.symm.trans hs') ▸ hrun

lemma Inv.step {a : Action τ} (h : Inv V regions m) (hC : Contract C V) (hsplit : Split regions)
    (hbuild : ∀ regs k, build regs = some k → Built V regs k) (hempty : Built V [] empty)
    (hcareful : Careful regions m a) (hstep : step C build empty regions m a m') :
    Inv V regions m' := by
  cases a with
  | bootAlloc size align =>
    obtain ⟨hbuddy, rounds, result, halloc, rfl⟩ := hstep
    exact h.bootAlloc hsplit.layout hbuddy hcareful halloc
  | handOver =>
    obtain ⟨hbuddy, s, hnew, rfl⟩ := hstep
    exact h.handOver hC hbuddy hbuild hempty hnew
  | alloc thread size align =>
    obtain ⟨s, hs, -, rfl⟩ := hstep
    have hrun := (h.running s hs).upperCall size align hC
    exact h.run ⟨hrun.lower, hrun.upper, hrun.hasLower, hrun.hasUpper, hrun.total, hrun.live,
      hrun.low⟩ rfl rfl
  | allocLower thread size align =>
    obtain ⟨hs, -, rfl⟩ := hstep
    obtain ⟨s, hs⟩ := Option.isSome_iff_exists.mp hs
    have hrun := h.running s hs
    exact h.run ⟨hrun.lower, hrun.upper, hrun.hasLower, hrun.hasUpper, hrun.total, hrun.live,
      hrun.low⟩ rfl hs
  | lower thread =>
    obtain ⟨s, size, align, hs, -, rfl⟩ := hstep
    have hrun := (h.running s hs).lowerCall size align hC
    exact h.run ⟨hrun.lower, hrun.upper, hrun.hasLower, hrun.hasUpper, hrun.total, hrun.live,
      hrun.low⟩ rfl rfl
  | free address =>
    obtain ⟨s, hs, rfl⟩ := hstep
    obtain ⟨x, hx, rfl⟩ := hcareful
    have hrun := (h.running s hs).freeCall hC hsplit hx
    exact h.run ⟨hrun.lower, hrun.upper, hrun.hasLower, hrun.hasUpper, hrun.total, hrun.live,
      hrun.low⟩ rfl rfl

lemma len_sum_le {l : List Region} {first last : ℕ} (hle : first ≤ last)
    (hordered : l.Pairwise fun a b => a.span.2 ≤ b.span.1)
    (hin : ∀ r ∈ l, first ≤ r.span.1 ∧ r.span.2 ≤ last) :
    first + (l.map fun r => r.len.toNat).sum ≤ last := by
  induction l generalizing first with
  | nil => simpa using hle
  | cons r l ih =>
    obtain ⟨hbefore, hordered⟩ := List.pairwise_cons.mp hordered
    obtain ⟨⟨hfirst, hlast⟩, hin⟩ := List.forall_mem_cons.mp hin
    have hrest := ih hlast hordered fun x hx => ⟨hbefore x hx, (hin x hx).2⟩
    have hspan : r.span.2 = r.span.1 + r.len.toNat := rfl
    simp only [List.map_cons, List.sum_cons]
    omega

lemma sum_toNat {l : List Word} (h : (l.map BitVec.toNat).sum < 2 ^ 64) :
    l.sum.toNat = (l.map BitVec.toNat).sum := by
  induction l with
  | nil => rfl
  | cons w l ih =>
    simp only [List.sum_cons, List.map_cons] at h ⊢
    have hrest := ih (by omega)
    rw [BitVec.toNat_add_of_lt (by omega), hrest]

omit [DecidableEq τ] in
lemma Running.asked_le_used (h : Running V regions m s) (hC : Contract C V)
    (hl : Layout regions) : asked (m.live.map Handed.block) ≤ (used C s).toNat := by
  have hsum : ((allRegions regions).map fun r => r.len.toNat).sum ≤ 2 ^ 48 := by
    simpa using len_sum_le (Nat.zero_le _) hl.ordered fun r hr => ⟨Nat.zero_le _, hl.small r hr⟩
  have htotal : s.totalSpace.toNat = ((allRegions regions).map fun r => r.len.toNat).sum := by
    rw [h.total, sum_toNat] <;> rw [List.map_map]
    · rfl
    · exact hsum.trans_lt (by decide)
  have hsplit : ((allRegions regions).map fun r => r.len.toNat).sum =
      (regions.lowerRegions.map fun r => r.len.toNat).sum +
        (regions.upperRegions.map fun r => r.len.toNat).sum := by
    simp [allRegions]
  have hlive : asked (m.live.map Handed.block) = asked (V.held s.upper) + asked (V.held s.lower) := by
    unfold asked
    rw [(h.live.map _).sum_nat]
    simp
  have hupper := (hC.freeSize s.upper).trans h.upper.bytes
  have hlower := (hC.freeSize s.lower).trans h.lower.bytes
  have havailable : (available C s).toNat ≤
      (C.getFreeSize s.upper).toNat + (C.getFreeSize s.lower).toNat := by
    unfold available
    refine (BitVec.toNat_add _ _ ▸ Nat.mod_le _ _).trans (Nat.add_le_add ?_ ?_) <;>
      split_ifs <;> simp
  rw [used, BitVec.toNat_sub_of_le (BitVec.le_def.mpr (by omega))]
  omega

end

/-- What callers of the physical allocators rely on, from boot on. -/
structure Sound (regions : Lists) (m : Memory κ τ) : Prop where
  /-- The boot allocator's blocks, the kernel's image among them, do not overlap. -/
  boot : m.boot.blocks.Pairwise fun a b => Disjoint (range a) (range b)
  /-- Blocks in use do not overlap. -/
  apart : m.live.Pairwise fun a b => Disjoint (extent a.block) (extent b.block)
  /-- None of them reaches into what the boot allocator handed out. -/
  kept : ∀ a ∈ m.live, ∀ b ∈ m.boot.blocks, Disjoint (range b) (extent a.block)
  inside : ∀ a ∈ m.live, extent a.block ⊆ cover ((allRegions regions).map Region.span)
  low : ∀ a ∈ m.live, a.low → extent a.block ⊆ Set.Iio 0x100000000
  owned : ∀ s, m.buddy = some s → ∀ a ∈ m.live, owns C a.block.1 s = true
  counted : ∀ s, m.buddy = some s → asked (m.live.map Handed.block) ≤ (used C s).toNat

section
variable {C} {V : View κ} {m : Memory κ τ} {s : State κ} {build : Build κ} {empty : κ}
  {regions : Lists} {reservedEnd : PhysAddr}

omit [DecidableEq τ] in
lemma Inv.sound (h : Inv V regions m) (hC : Contract C V) (hsplit : Split regions) :
    Sound C regions m := by
  cases hbuddy : m.buddy with
  | none =>
    have hunused := h.unused hbuddy
    exact ⟨h.placed.disjoint, by simp [hunused], by simp [hunused], by simp [hunused],
      by simp [hunused], by simp [hbuddy], by simp [hbuddy]⟩
  | some s =>
    have hrun := h.running s hbuddy
    have hmem : ∀ a ∈ m.live, a.block ∈ V.held s.upper ∨ a.block ∈ V.held s.lower := fun a ha =>
      List.mem_append.mp (hrun.live.subset (List.mem_map_of_mem ha))
    refine ⟨h.placed.disjoint, ?_, fun a ha b hb => ?_, fun a ha => ?_, fun a ha hlow x hx => ?_,
      ?_, ?_⟩
    · have happart : (V.held s.upper ++ V.held s.lower).Pairwise
          fun a b => Disjoint (extent a) (extent b) :=
        List.pairwise_append.mpr ⟨hrun.upper.apart, hrun.lower.apart, fun a ha b hb =>
          Set.disjoint_left.mpr fun x hxa hxb =>
            absurd (hrun.above hsplit ha hxa) (Nat.not_le.mpr (hrun.below hsplit hb hxb))⟩
      have hlive := (hrun.live.pairwise_iff fun hab => hab.symm).mpr happart
      rwa [List.pairwise_map] at hlive
    · rcases hmem a ha with hupper | hlower
      · exact (hrun.upper.kept b hb).mono_right (hrun.upper.held _ hupper)
      · exact (hrun.lower.kept b hb).mono_right (hrun.lower.held _ hlower)
    · rw [allRegions, List.map_append, cover_append]
      rcases hmem a ha with hupper | hlower
      · exact ((hrun.upper.held _ hupper).trans (hrun.upper.space.trans hrun.upper.managed)).trans
          Set.subset_union_right
      · exact ((hrun.lower.held _ hlower).trans (hrun.lower.space.trans hrun.lower.managed)).trans
          Set.subset_union_left
    · exact hrun.below hsplit (hrun.low a ha hlow) hx
    · intro s' hs' a ha
      obtain rfl := Option.some.inj (hbuddy.symm.trans hs')
      have howned : ∀ {regs : List Region} {k : κ}, Side V regs m.boot.blocks k →
          a.block ∈ V.held k → regs ≠ [] ∧ C.ownsAddress a.block.1 k = true := by
        intro regs k hside hheld
        have hmanaged := hside.space (hside.held _ hheld (mem_extent _))
        refine ⟨fun hnil => ?_, (hC.owns _ _).mpr hmanaged⟩
        simpa [hnil] using hside.managed hmanaged
      rcases hmem a ha with hupper | hlower
      · obtain ⟨hne, howns⟩ := howned hrun.upper hupper
        simp [owns, hrun.hasUpper, hne, howns]
      · obtain ⟨hne, howns⟩ := howned hrun.lower hlower
        simp [owns, hrun.hasLower, hne, howns]
    · intro s' hs'
      obtain rfl := Option.some.inj (hbuddy.symm.trans hs')
      exact hrun.asked_le_used hC hsplit.layout

lemma split_of_multiboot {mem : ByteMemory} {insert : Insert} {mbootPtr : Word}
    {infos : List MmapInfo} {rounds : ℕ} (hinsert : InsertsAt insert)
    (hmap : IsMap mem mbootPtr infos) (hwf : WellFormed infos)
    (hsmall : ∀ e ∈ infos, e.Kept → e.last ≤ 2 ^ 48)
    (h : multibootRegionList rounds mem insert mbootPtr = some (.ok regions)) :
    Split regions := by
  have htranslated : Translated regions infos := by
    have hempty : Translated ⟨[], []⟩ [] :=
      ⟨⟨List.Perm.nil, List.Pairwise.nil⟩, ⟨List.Perm.nil, List.Pairwise.nil⟩⟩
    obtain ⟨lists, hreturns, hlists⟩ := hempty.scan hinsert infos hwf hmap.entries
    rw [multibootRegionList, if_neg (BitVec.not_lt.mpr hmap.placed)] at h
    obtain ⟨result, hloop, hresult⟩ := Option.map_eq_some_iff.mp h
    obtain rfl := hreturns.unique ⟨rounds, hloop⟩
    change (if lists.lowerRegions = [] then _ else _) = _ at hresult
    split_ifs at hresult
    obtain rfl := Except.ok.inj hresult
    exact hlists
  have hfaithful := htranslated.faithful hwf
  have hlower : ∀ r ∈ regions.lowerRegions, ∃ e ∈ infos, e.lowerSpan = some r.span := fun r hr =>
    List.mem_filterMap.mp (htranslated.lower.perm.mem_iff.mp (List.mem_map_of_mem hr))
  have hupper : ∀ r ∈ regions.upperRegions, ∃ e ∈ infos, e.upperSpan = some r.span := fun r hr =>
    List.mem_filterMap.mp (htranslated.upper.perm.mem_iff.mp (List.mem_map_of_mem hr))
  have hbelow : ∀ a ∈ regions.lowerRegions, ∀ b ∈ regions.upperRegions, a.span.2 ≤ b.span.1 :=
    fun a ha b hb => (hfaithful.lower_end a ha).trans (hfaithful.upper_start b hb)
  refine ⟨⟨hfaithful.lower_sorted.imp fun h => BitVec.le_of_lt h,
    hfaithful.upper_sorted.imp fun h => BitVec.le_of_lt h, hbelow, fun r hr => ?_, ?_,
    fun r hr => ?_⟩, hfaithful.lower_end, hfaithful.upper_start⟩
  · rcases List.mem_append.mp hr with hr | hr
    · exact hwf.lower_proper _ (htranslated.lower.perm.subset (List.mem_map_of_mem hr))
    · exact hwf.upper_proper _ (htranslated.upper.perm.subset (List.mem_map_of_mem hr))
  · refine List.pairwise_append.mpr ⟨?_, ?_, fun a ha b hb => ?_⟩
    · have hdisjoint := hfaithful.lower_disjoint
      unfold DisjointSpans at hdisjoint
      rwa [List.pairwise_map] at hdisjoint
    · have hdisjoint := hfaithful.upper_disjoint
      unfold DisjointSpans at hdisjoint
      rwa [List.pairwise_map] at hdisjoint
    · exact Set.Ico_disjoint_Ico.mpr ((min_le_left _ _).trans
        ((hbelow a ha b hb).trans (le_max_right _ _)))
  · rcases List.mem_append.mp hr with hr | hr
    · obtain ⟨e, he, hspan⟩ := hlower r hr
      obtain ⟨⟨hkept, -⟩, hspan⟩ := MmapInfo.lowerSpan_eq_some.mp hspan
      rw [← hspan]
      exact (min_le_left _ _).trans (hsmall e he hkept)
    · obtain ⟨e, he, hspan⟩ := hupper r hr
      obtain ⟨⟨hkept, -⟩, hspan⟩ := MmapInfo.upperSpan_eq_some.mp hspan
      rw [← hspan]
      exact hsmall e he hkept

/-- From the boot loader's memory map on, no physical memory is in use twice: in every order of
requests to the boot allocator, its hand-over, and calls of `Alloc`, `AllocLower` and `Free` on
any number of threads. -/
theorem memory_handed_out_once {mem : ByteMemory} {insert : Insert} {mbootPtr : Word}
    {infos : List MmapInfo} {rounds : ℕ} (hinsert : InsertsAt insert)
    (hmap : IsMap mem mbootPtr infos) (hwf : WellFormed infos)
    (hsmall : ∀ e ∈ infos, e.Kept → e.last ≤ 2 ^ 48)
    (hregions : multibootRegionList rounds mem insert mbootPtr = some (.ok regions))
    (hC : Contract C V) (hbuild : ∀ regs k, build regs = some k → Built V regs k)
    (hempty : Built V [] empty) (hplaced : Placed regions reservedEnd)
    (hpage : 0x1000 ∣ reservedEnd.toNat)
    (h : ((system C build empty regions reservedEnd).restrict (Careful regions)).Reachable m) :
    Sound C regions m := by
  have hsplit := split_of_multiboot hinsert hmap hwf hsmall hregions
  refine Inv.sound (V := V) (h.invariant (fun m hm => ?_) fun m a m' _ hinv hstep => ?_) hC hsplit
  · obtain ⟨hboot, hbuddy, hlive, -⟩ := hm
    refine ⟨?_, ?_, ?_, fun _ => hlive, fun s hs => by simp [hbuddy] at hs⟩ <;> rw [hboot]
    · refine ⟨hplaced, ?_, List.pairwise_singleton _ _⟩
      simp [blockEnd]
    · simp [Above, blockEnd]
    · simpa [blockEnd] using hpage
  · exact hinv.step hC hsplit hbuild hempty hstep.1 hstep.2

end

end

/-- A cluster of one region that hands out its memory upwards, and never again. -/
structure Pool where
  lo : ℕ
  hi : ℕ
  floor : ℕ
  next : ℕ
  held : List Block
  lo_le : lo ≤ floor
  floor_le : floor ≤ next
  hi_le : hi ≤ 2 ^ 64
  below : ∀ b ∈ held, extent b ⊆ Set.Ico floor next
  apart : held.Pairwise fun a b => Disjoint (extent a) (extent b)
  asked_le : lo + asked held ≤ next
  next_le : held ≠ [] → next ≤ hi

namespace Pool

/-- Where the next block would be. -/
def place (align : Word) (p : Pool) : ℕ := (p.next + align.toNat - 1) / align.toNat * align.toNat

def Fits (size align : Word) (p : Pool) : Prop :=
  p.next ≤ p.place align ∧ p.place align + max 1 size.toNat ≤ p.hi

instance (size align : Word) (p : Pool) : Decidable (p.Fits size align) :=
  inferInstanceAs (Decidable (_ ∧ _))

lemma extent_place {size align : Word} {p : Pool} (h : p.Fits size align) :
    extent (.ofNat 64 (p.place align), size) =
      Set.Ico (p.place align) (p.place align + max 1 size.toNat) := by
  have hlt : p.place align < 2 ^ 64 := by
    have hhi := p.hi_le
    have hfits := h.2
    omega
  simp only [extent, BitVec.toNat_ofNat, Nat.mod_eq_of_lt hlt]

def serve (size align : Word) (p : Pool) (h : p.Fits size align) : Pool :=
  { p with
    next := p.place align + max 1 size.toNat
    held := (.ofNat 64 (p.place align), size) :: p.held
    floor_le := p.floor_le.trans (h.1.trans (Nat.le_add_right _ _))
    below := by
      refine List.forall_mem_cons.mpr ⟨?_, fun b hb => (p.below b hb).trans ?_⟩
      · rw [extent_place h]
        exact Set.Ico_subset_Ico_left (p.floor_le.trans h.1)
      · exact Set.Ico_subset_Ico_right (h.1.trans (Nat.le_add_right _ _))
    apart := by
      refine List.pairwise_cons.mpr ⟨fun b hb => ?_, p.apart⟩
      rw [extent_place h, Set.disjoint_left]
      exact fun x hx hxb => absurd (p.below b hb hxb).2 (Nat.not_lt.mpr (h.1.trans hx.1))
    asked_le := by
      have hasked := p.asked_le
      have hplace := h.1
      simp only [asked, List.map_cons, List.sum_cons] at hasked ⊢
      omega
    next_le := fun _ => h.2 }

def drop (address : PhysAddr) (p : Pool) : Pool :=
  { p with
    held := p.held.filter (·.1 ≠ address)
    below := fun b hb => p.below b (List.mem_of_mem_filter hb)
    apart := p.apart.sublist List.filter_sublist
    asked_le := by
      refine le_trans (Nat.add_le_add_left ?_ _) p.asked_le
      exact (List.filter_sublist.map _).sum_le_sum fun _ _ => Nat.zero_le _
    next_le := fun h => p.next_le fun hnil => h (by simp [hnil]) }

/-- An unused cluster that keeps away from everything below an address. -/
def raise (first : ℕ) (p : Pool) : Pool :=
  { p with
    floor := max p.floor first
    next := max p.next first
    held := []
    lo_le := p.lo_le.trans (le_max_left _ _)
    floor_le := max_le_max p.floor_le le_rfl
    below := by simp
    apart := List.Pairwise.nil
    asked_le := p.lo_le.trans (p.floor_le.trans (le_max_left _ _))
    next_le := fun h => absurd rfl h }

def ops : ClusterOps Pool where
  align size align p :=
    if h : p.Fits size align then (some (.ofNat 64 (p.place align)), p.serve size align h)
    else (none, p)
  free address p := p.drop address
  reserve start size p := p.raise (start.toNat + size.toNat)
  ownsAddress address p := p.lo ≤ address.toNat ∧ address.toNat < p.hi
  getFreeSize p := .ofNat 64 (p.hi - p.next)

def view : View Pool where
  managed p := Set.Ico p.lo p.hi
  space p := Set.Ico p.floor p.hi
  held := Pool.held
  bytes p := p.hi - p.lo

lemma meets : Contract ops view where
  served {size align p addr p'} h := by
    simp only [ops] at h
    split_ifs at h with hfits
    · obtain ⟨haddr, rfl⟩ := Prod.mk.inj h
      obtain rfl := Option.some.inj haddr
      refine ⟨?_, fun b hb => ?_, rfl, rfl, rfl, rfl⟩
      · rw [extent_place hfits]
        exact Set.Ico_subset_Ico (p.floor_le.trans hfits.1) hfits.2
      · exact List.rel_of_pairwise_cons (p.serve size align hfits).apart hb
    · cases h
  refused h := by
    simp only [ops] at h
    split_ifs at h
    · cases h
    · obtain rfl := (Prod.mk.inj h).2
      exact ⟨rfl, rfl, rfl, rfl⟩
  freed p b hb := ⟨rfl, rfl, rfl, rfl⟩
  reserved start size p h := by
    refine ⟨rfl, rfl, rfl, fun x hx => ⟨⟨?_, hx.2⟩, fun hin => ?_⟩⟩
    · exact (le_max_left _ _).trans hx.1
    · exact absurd hin.2 (Nat.not_lt.mpr ((le_max_right _ _).trans hx.1))
  owns addr p := decide_eq_true_iff
  freeSize p := by
    have hasked := p.asked_le
    have hlo := p.lo_le.trans p.floor_le
    have hfree : (BitVec.ofNat 64 (p.hi - p.next)).toNat ≤ p.hi - p.next := by
      rw [BitVec.toNat_ofNat]
      exact Nat.mod_le _ _
    change _ + asked p.held ≤ p.hi - p.lo
    refine (Nat.add_le_add_right hfree _).trans ?_
    by_cases hnil : p.held = []
    · simp only [hnil, asked, List.map_nil, List.sum_nil]
      omega
    · have hnext := p.next_le hnil
      omega

/-- A cluster that manages the addresses of a region, if they are below `2 ^ 64`. -/
def ofSpan (lo hi : ℕ) : Pool where
  lo := lo
  hi := min hi (2 ^ 64)
  floor := lo
  next := lo
  held := []
  lo_le := le_rfl
  floor_le := le_rfl
  hi_le := min_le_right _ _
  below := by simp
  apart := List.Pairwise.nil
  asked_le := le_rfl
  next_le h := absurd rfl h

/-- It uses the first region only. -/
def build : Build Pool := fun regs => regs.head?.map fun r => ofSpan r.span.1 r.span.2

lemma build_built (regs : List Region) (p : Pool) (h : build regs = some p) :
    Built view regs p := by
  cases regs with
  | nil => cases h
  | cons r regs =>
    obtain rfl := Option.some.inj h
    refine ⟨?_, le_rfl, rfl, ?_⟩
    · rw [List.map_cons, cover_cons]
      exact (Set.Ico_subset_Ico_right (min_le_left _ _)).trans Set.subset_union_left
    · have hlen : min r.span.2 (2 ^ 64) - r.span.1 ≤ r.len.toNat := by
        rw [show r.span.2 = r.span.1 + r.len.toNat from rfl]
        omega
      rw [List.map_cons, List.sum_cons]
      exact hlen.trans (Nat.le_add_right _ _)

lemma empty_built : Built view [] (ofSpan 0 0) :=
  ⟨by simp [view, ofSpan], le_rfl, rfl, by simp [view, ofSpan]⟩

end Pool

/-- The regions that the constructor makes of the memory map of `pcMemory`. -/
def pcRegions : Lists := ⟨[⟨0, 0x100000000⟩], [⟨0x100000000, 0x40100000⟩]⟩

/-- A page during boot, the hand-over, a page above 4 GiB that is freed again, and two pages
below. -/
theorem memory_handed_out_once_pc : ∃ m : Memory Pool Unit,
    ((system Pool.ops Pool.build (Pool.ofSpan 0 0) pcRegions 0x200000).restrict
      (Careful pcRegions)).Reachable m ∧
    m.boot.blocks = [(0x200000, 0x1000), (0, 0x200000)] ∧
    m.live = [⟨(0x201000, 0x2000), true⟩] ∧ Sound Pool.ops pcRegions m := by
  have hregions : ∃ rounds,
      multibootRegionList rounds pcMemory insertAt 0x9000 = some (.ok pcRegions) :=
    ⟨4, by decide⟩
  have h0 : ((system Pool.ops Pool.build (Pool.ofSpan 0 0) pcRegions 0x200000).restrict
      (Careful pcRegions)).Reachable (⟨⟨0x200000, [(0, 0x200000)]⟩, none, fun _ => none, []⟩ :
        Memory Pool Unit) := .start ⟨rfl, rfl, rfl, fun _ => rfl⟩
  have hsum : NoWrap pcRegions 0x1000 0x1000 0x200000 := by
    intro reg hreg
    obtain rfl : (⟨0, 0x100000000⟩ : Region) = reg := Option.some.inj hreg
    unfold SumFits
    decide
  have h1 := h0.next (a := Action.bootAlloc 0x1000 0x1000) ⟨⟨⟨by decide, by decide, by decide, by decide⟩,
    ⟨rfl, 12, by decide, by decide, rfl⟩, hsum, fun hne => absurd rfl hne⟩, rfl, 1,
    (some 0x200000, 0x201000), rfl, rfl⟩
  have h2 := h1.next (a := Action.handOver) ⟨trivial, rfl, _, rfl, rfl⟩
  have h3 := h2.next (a := Action.alloc () 0x1000 0x1000) ⟨trivial, _, rfl, rfl, rfl⟩
  have h4 := h3.next (a := Action.allocLower () 0x2000 0x1000) ⟨trivial, rfl, rfl, rfl⟩
  have h5 := h4.next (a := Action.lower ()) ⟨trivial, _, _, _, rfl, rfl, rfl⟩
  have h6 := h5.next (a := Action.free 0x100000000)
    ⟨⟨⟨(0x100000000, 0x1000), false⟩, .tail _ (.head _), rfl⟩, _, rfl, rfl⟩
  obtain ⟨rounds, hregions⟩ := hregions
  exact ⟨_, h6, rfl, rfl, memory_handed_out_once insertAt_inserts pcMemory_isMap
    pcInfos_wellFormed (by decide) hregions Pool.meets Pool.build_built Pool.empty_built
    ⟨⟨0, 0x100000000⟩, by decide, by decide, by decide⟩ (by decide) h6⟩

end Anarch.BuddyAllocator
