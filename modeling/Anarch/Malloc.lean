import Anarch.ApiTypes
import Anarch.IntervalCover
import Anarch.TransitionRun

/-! The segmented kernel heap. The segments are listed newest first, in link order; each
has its own `ANAlloc::Malloc`, which is a parameter, as is the region that
`Allocator::AllocAndMap` hands to `CreateSegment`. -/
namespace Anarch.Malloc
open TransitionRun IntervalCover

/-- The calls made on `ANAlloc::Malloc`; `alloc` returns 0 when it is full. -/
structure Heap (η : Type) where
  wrapRegion : VirtAddr → Word → η
  alloc : η → Word → VirtAddr × η
  free : η → VirtAddr → η
  ownsPointer : η → VirtAddr → Bool

/-- Each heap owns exactly the pointers of a region inside the memory it was given. -/
structure Heap.OwnsRegion {η : Type} (H : Heap η) (region : η → Set ℕ) : Prop where
  owns_iff : ∀ h p, H.ownsPointer h p = true ↔ p.toNat ∈ region h
  wrap_inside : ∀ a n, region (H.wrapRegion a n) ⊆ Set.Ico a.toNat (a.toNat + n.toNat)
  alloc_region : ∀ h n, region (H.alloc h n).2 = region h
  alloc_inside : ∀ h n, (H.alloc h n).1 ≠ 0 → (H.alloc h n).1.toNat ∈ region h
  free_region : ∀ h p, region (H.free h p) = region h

structure Segment (η : Type) where
  base : VirtAddr
  heap : η
  deriving DecidableEq, Repr

variable {η : Type} (H : Heap η) (poolSize : Word)

/-- `AllocNoNewSegment`: the first segment that is not full; 0 when all are. -/
def allocNoNewSegment (size : Word) : List (Segment η) → VirtAddr × List (Segment η)
  | [] => (0, [])
  | segment :: next =>
      let (addr, heap) := H.alloc segment.heap size
      if addr ≠ 0 then (addr, { segment with heap } :: next)
      else
        let (addr, rest) := allocNoNewSegment size next
        (addr, { segment with heap } :: rest)

/-- `CreateSegment`, given what `AllocAndMap` answers. -/
def createSegment (fresh : Option VirtAddr) (segments : List (Segment η)) :
    Outcome (Bool × List (Segment η)) :=
  match fresh with
  | none => .ok (false, segments)
  | some freshMemory => do
      assertThat "!(freshMemory % ANARCH_OBJECT_ALIGN)" (freshMemory % 8 = 0)
      return (true, ⟨freshMemory, H.wrapRegion freshMemory poolSize⟩ :: segments)

/-- `Alloc`; the result is 0 when it returns false. -/
def alloc (size : Word) (fresh : Option VirtAddr) (segments : List (Segment η)) :
    Outcome (VirtAddr × List (Segment η)) :=
  if size ≥ poolSize / 2 then .ok (0, segments)
  else
    let attempt := allocNoNewSegment H size segments
    if attempt.1 ≠ 0 then .ok attempt
    else do
      let (created, segments) ← createSegment H poolSize fresh attempt.2
      if created then return allocNoNewSegment H size segments
      else return (0, segments)

/-- One round of the loop of `Free`. The loop state is the list up to `segment` and the
list from `segment` on; a round that does not return leaves `segment` where it is. -/
def freeRound (addr : VirtAddr) :
    List (Segment η) × List (Segment η) →
      (List (Segment η) × List (Segment η)) ⊕ Outcome (List (Segment η))
  | (_, []) => .inr (.error (.panic "Malloc::Free() - unowned memory region"))
  | (before, segment :: next) =>
      if H.ownsPointer segment.heap addr then
        .inr (.ok (before ++ { segment with heap := H.free segment.heap addr } :: next))
      else .inl (before, segment :: next)

/-- One round of the loop of `Owns`, which does not advance either. -/
def ownsRound (ptr : VirtAddr) : List (Segment η) → List (Segment η) ⊕ Bool
  | [] => .inr false
  | segment :: next =>
      if H.ownsPointer segment.heap ptr then .inr true else .inl (segment :: next)

/-- `Free(addr)` returns, leaving these segments. -/
def FreeReturns (addr : VirtAddr) (segments out : List (Segment η)) : Prop :=
  Returns (freeRound H addr) ([], segments) (.ok out)

structure State (η : Type) where
  segments : List (Segment η)
  live : List VirtAddr

inductive Action
  | alloc (size : Word) (fresh : Option VirtAddr)
  | free (addr : VirtAddr)

def memory (base : VirtAddr) : Set ℕ := Set.Ico base.toNat (base.toNat + poolSize.toNat)

/-- `AllocAndMap` maps memory that no segment uses. -/
def FreshMemory (segments : List (Segment η)) (fresh : Option VirtAddr) : Prop :=
  ∀ a, fresh = some a → a ≠ 0 ∧
    ∀ s ∈ segments, Disjoint (memory poolSize a) (memory poolSize s.base)

/-- Runs of `Alloc`, and of `Free` on pointers that are live, as far as it returns. -/
def system : System (State η) Action where
  start s := s = ⟨[], []⟩
  step s a t :=
    match a with
    | .alloc size fresh => FreshMemory poolSize s.segments fresh ∧
        ∃ addr segments, alloc H poolSize size fresh s.segments = .ok (addr, segments) ∧
          t = ⟨segments, if addr = 0 then s.live else addr :: s.live⟩
    | .free addr => addr ∈ s.live ∧
        ∃ segments, FreeReturns H addr s.segments segments ∧ t = ⟨segments, s.live.erase addr⟩

variable (region : η → Set ℕ)

/-- Where each segment lies and which pointers it owns: what no call on a heap changes. -/
def shapes (segments : List (Segment η)) : List (VirtAddr × Set ℕ) :=
  segments.map fun g => (g.base, region g.heap)

/-- Segments in disjoint memory, each owning pointers of its own memory only, and every
live pointer owned. -/
structure Owned (s : State η) : Prop where
  inside : ∀ g ∈ shapes region s.segments, g.2 ⊆ memory poolSize g.1
  disjoint : (shapes region s.segments).Pairwise
    fun a b => Disjoint (memory poolSize a.1) (memory poolSize b.1)
  live : ∀ p ∈ s.live, ∃ g ∈ shapes region s.segments, p.toNat ∈ g.2

variable {H poolSize region}

lemma allocNoNewSegment_shapes (hH : H.OwnsRegion region) (size : Word)
    (segments : List (Segment η)) :
    shapes region (allocNoNewSegment H size segments).2 = shapes region segments := by
  induction segments with
  | nil => rfl
  | cons g next ih =>
    have hr := hH.alloc_region g.heap size
    simp only [allocNoNewSegment]
    split_ifs with h
    · simp [shapes, hr]
    · simpa [shapes, hr] using ih

lemma allocNoNewSegment_owned (hH : H.OwnsRegion region) (size : Word)
    (segments : List (Segment η)) (ha : (allocNoNewSegment H size segments).1 ≠ 0) :
    ∃ g ∈ shapes region segments, (allocNoNewSegment H size segments).1.toNat ∈ g.2 := by
  induction segments with
  | nil => simp [allocNoNewSegment] at ha
  | cons g next ih =>
    simp only [allocNoNewSegment] at ha ⊢
    split_ifs at ha ⊢ with h
    · exact ⟨_, List.mem_cons_self .., hH.alloc_inside g.heap size h⟩
    · obtain ⟨s, hs, hm⟩ := ih ha
      exact ⟨s, List.mem_cons_of_mem _ hs, hm⟩

lemma alloc_shapes (hH : H.OwnsRegion region) {size addr : Word} {fresh : Option VirtAddr}
    {segments out : List (Segment η)}
    (h : alloc H poolSize size fresh segments = .ok (addr, out)) :
    (shapes region out = shapes region segments ∨
      ∃ a, fresh = some a ∧ shapes region out =
        (a, region (H.wrapRegion a poolSize)) :: shapes region segments) ∧
    (addr ≠ 0 → ∃ g ∈ shapes region out, addr.toNat ∈ g.2) := by
  have hshape := allocNoNewSegment_shapes hH size segments
  unfold alloc at h
  simp only at h
  split_ifs at h
  · cases h
    exact ⟨.inl rfl, fun h0 => absurd rfl h0⟩
  · have he : allocNoNewSegment H size segments = (addr, out) := Except.ok.inj h
    have hown := allocNoNewSegment_owned hH size segments
    rw [he] at hshape hown
    exact ⟨.inl hshape, fun h0 => by rw [hshape]; exact hown h0⟩
  · obtain ⟨⟨created, segs⟩, hc, h⟩ := bind_eq_ok.mp h
    cases fresh with
    | none =>
      cases hc
      cases h
      exact ⟨.inl hshape, fun h0 => absurd rfl h0⟩
    | some a =>
      obtain ⟨_, _, hc⟩ := bind_eq_ok.mp hc
      cases hc
      have hnew := allocNoNewSegment_shapes hH size
        (⟨a, H.wrapRegion a poolSize⟩ :: (allocNoNewSegment H size segments).2)
      have hown := allocNoNewSegment_owned hH size
        (⟨a, H.wrapRegion a poolSize⟩ :: (allocNoNewSegment H size segments).2)
      have he := Except.ok.inj h
      rw [he] at hnew hown
      refine ⟨.inr ⟨a, rfl, ?_⟩, fun h0 => ?_⟩
      · rw [hnew]
        simp only [shapes, List.map_cons] at hshape ⊢
        rw [hshape]
      · rw [hnew]
        exact hown h0

lemma freeReturns_front {addr : VirtAddr} {g : Segment η} {next : List (Segment η)}
    (h : H.ownsPointer g.heap addr = true) :
    FreeReturns H addr (g :: next) ({ g with heap := H.free g.heap addr } :: next) :=
  .exit (by simp [freeRound, h])

lemma freeReturns_cases {addr : VirtAddr} {segments out : List (Segment η)}
    (h : FreeReturns H addr segments out) :
    ∃ g next, segments = g :: next ∧ H.ownsPointer g.heap addr = true ∧
      out = { g with heap := H.free g.heap addr } :: next := by
  cases segments with
  | nil => exact absurd (h.unique (.exit rfl)) (by simp)
  | cons g next =>
    by_cases hg : H.ownsPointer g.heap addr = true
    · refine ⟨g, next, rfl, hg, ?_⟩
      exact Except.ok.inj (h.unique (freeReturns_front hg))
    · exact absurd h (not_returns_of_fixed (by simp [freeRound, hg]))

lemma alloc_owned (hH : H.OwnsRegion region) {size addr : Word} {fresh : Option VirtAddr}
    {s : State η} {out : List (Segment η)} (hs : Owned poolSize region s)
    (hf : FreshMemory poolSize s.segments fresh)
    (h : alloc H poolSize size fresh s.segments = .ok (addr, out)) :
    Owned poolSize region ⟨out, if addr = 0 then s.live else addr :: s.live⟩ := by
  obtain ⟨hshape, haddr⟩ := alloc_shapes hH h
  have hold : ∀ p ∈ s.live, ∃ g ∈ shapes region out, p.toNat ∈ g.2 := by
    intro p hp
    obtain ⟨g, hg, hm⟩ := hs.live p hp
    rcases hshape with he | ⟨a, -, he⟩
    · exact ⟨g, he ▸ hg, hm⟩
    · exact ⟨g, he ▸ List.mem_cons_of_mem _ hg, hm⟩
  have hlive : ∀ p ∈ (if addr = 0 then s.live else addr :: s.live),
      ∃ g ∈ shapes region out, p.toNat ∈ g.2 := by
    intro p hp
    split_ifs at hp with h0
    · exact hold p hp
    · rcases List.mem_cons.mp hp with rfl | hp
      · exact haddr h0
      · exact hold p hp
  rcases hshape with he | ⟨a, hfa, he⟩
  · exact ⟨he ▸ hs.inside, he ▸ hs.disjoint, hlive⟩
  · obtain ⟨-, hd⟩ := hf a hfa
    refine ⟨?_, ?_, hlive⟩
    · rw [he]
      intro g hg
      rcases List.mem_cons.mp hg with rfl | hg
      · exact hH.wrap_inside a poolSize
      · exact hs.inside g hg
    · rw [he]
      refine List.pairwise_cons.mpr ⟨fun g hg => ?_, hs.disjoint⟩
      obtain ⟨q, hq, rfl⟩ := List.mem_map.mp hg
      exact hd q hq

lemma free_owned (hH : H.OwnsRegion region) {addr : VirtAddr} {s : State η}
    {out : List (Segment η)} (hs : Owned poolSize region s)
    (h : FreeReturns H addr s.segments out) :
    Owned poolSize region ⟨out, s.live.erase addr⟩ := by
  obtain ⟨g, next, he, -, rfl⟩ := freeReturns_cases h
  have hshape : shapes region ({ g with heap := H.free g.heap addr } :: next) =
      shapes region s.segments := by
    rw [he]
    simp [shapes, hH.free_region]
  refine ⟨hshape ▸ hs.inside, hshape ▸ hs.disjoint, fun p hp => ?_⟩
  rw [hshape]
  exact hs.live p (List.mem_of_mem_erase hp)

lemma alloc_reachable {s : State η} (size : Word) (fresh : Option VirtAddr)
    (h : (system H poolSize).Reachable s) (hf : FreshMemory poolSize s.segments fresh)
    (addr : VirtAddr) (out : List (Segment η))
    (ha : alloc H poolSize size fresh s.segments = .ok (addr, out)) :
    (system H poolSize).Reachable ⟨out, if addr = 0 then s.live else addr :: s.live⟩ :=
  h.next (show (system H poolSize).step s (.alloc size fresh) _ from
    ⟨hf, addr, out, ha, rfl⟩)

theorem reachable_owned (hH : H.OwnsRegion region) {s : State η}
    (h : (system H poolSize).Reachable s) : Owned poolSize region s := by
  refine h.invariant ?_ ?_
  · rintro s rfl
    exact ⟨by simp [shapes], by simp [shapes], by simp⟩
  · rintro s a t - hs hstep
    cases a with
    | alloc size fresh =>
      obtain ⟨hf, addr, out, hout, rfl⟩ := hstep
      exact alloc_owned hH hs hf hout
    | free addr =>
      obtain ⟨-, out, hout, rfl⟩ := hstep
      exact free_owned hH hs hout

variable (H) in
/-- `Free(addr)` returns and frees `addr` in the one segment that owns it. -/
def FreesInOwner (addr : VirtAddr) (segments : List (Segment η)) : Prop :=
  ∃ before g after, segments = before ++ g :: after ∧ H.ownsPointer g.heap addr = true ∧
    (∀ q ∈ before ++ after, H.ownsPointer q.heap addr = false) ∧
    FreeReturns H addr segments
      (before ++ { g with heap := H.free g.heap addr } :: after)

variable (H) in
/-- `Owns(ptr)` returns, and tells whether some segment owns `ptr`. -/
def OwnsAnswers (ptr : VirtAddr) (segments : List (Segment η)) : Prop :=
  ∃ answer, Returns (ownsRound H ptr) segments answer ∧
    (answer = true ↔ ∃ g ∈ segments, H.ownsPointer g.heap ptr = true)

variable (H) in
def newestOwns (addr : VirtAddr) (segments : List (Segment η)) : Bool :=
  segments.head?.any fun g => H.ownsPointer g.heap addr

lemma others_do_not_own (hH : H.OwnsRegion region) {addr : VirtAddr} {g : Segment η}
    {next : List (Segment η)} {live : List VirtAddr}
    (hs : Owned poolSize region ⟨g :: next, live⟩) (hg : H.ownsPointer g.heap addr = true) :
    ∀ q ∈ next, H.ownsPointer q.heap addr = false := by
  intro q hq
  by_contra hc
  have hmem : ∀ r ∈ g :: next, H.ownsPointer r.heap addr = true →
      addr.toNat ∈ memory poolSize r.base := fun r hr hown =>
    hs.inside _ (List.mem_map_of_mem hr) ((hH.owns_iff r.heap addr).mp hown)
  have hd := List.rel_of_pairwise_cons hs.disjoint
    (List.mem_map_of_mem (f := fun r : Segment η => (r.base, region r.heap)) hq)
  exact Set.disjoint_left.mp hd (hmem g (by simp) hg)
    (hmem q (by simp [hq]) (by simpa using hc))

lemma freesInOwner_iff (hH : H.OwnsRegion region) {addr : VirtAddr} {s : State η}
    (hs : Owned poolSize region s) :
    FreesInOwner H addr s.segments ↔ newestOwns H addr s.segments = true := by
  constructor
  · rintro ⟨_, _, _, -, -, -, hret⟩
    obtain ⟨g, next, he, hg, -⟩ := freeReturns_cases hret
    simp [newestOwns, he, hg]
  · obtain ⟨segments, live⟩ := s
    cases segments with
    | nil => simp [newestOwns]
    | cons g next =>
      intro hg
      have hg' : H.ownsPointer g.heap addr = true := by simpa [newestOwns] using hg
      exact ⟨[], g, next, rfl, hg', others_do_not_own hH hs hg', freeReturns_front hg'⟩

variable (H) in
lemma ownsAnswers_iff (ptr : VirtAddr) (segments : List (Segment η)) :
    OwnsAnswers H ptr segments ↔ segments = [] ∨ newestOwns H ptr segments = true := by
  cases segments with
  | nil =>
    simp only [true_or, iff_true]
    exact ⟨false, .exit rfl, by simp⟩
  | cons g next =>
    by_cases hg : H.ownsPointer g.heap ptr = true
    · have hret : Returns (ownsRound H ptr) (g :: next) true :=
        .exit (by simp [ownsRound, hg])
      simp only [newestOwns, List.head?_cons, Option.any_some, hg, or_true, iff_true]
      exact ⟨true, hret, by simp [hg]⟩
    · simp only [newestOwns, List.head?_cons, Option.any_some, hg, reduceCtorEq, or_self,
        iff_false]
      rintro ⟨answer, hret, -⟩
      exact not_returns_of_fixed (by simp [ownsRound, hg]) hret

/-- Every live pointer is owned, `Free` reaches its owner exactly when that is the newest
segment, and `Owns` answers exactly when the newest segment owns the pointer or there is
no segment. -/
theorem only_newest_segment_is_searched (hH : H.OwnsRegion region) {s : State η}
    (h : (system H poolSize).Reachable s) :
    (∀ p ∈ s.live, (∃ g ∈ s.segments, H.ownsPointer g.heap p = true) ∧
      (FreesInOwner H p s.segments ↔ newestOwns H p s.segments = true)) ∧
    ∀ q, OwnsAnswers H q s.segments ↔
      s.segments = [] ∨ newestOwns H q s.segments = true := by
  have hs := reachable_owned hH h
  refine ⟨fun p hp => ⟨?_, freesInOwner_iff hH hs⟩, fun q => ownsAnswers_iff H q s.segments⟩
  obtain ⟨x, hx, hm⟩ := hs.live p hp
  obtain ⟨g, hg, rfl⟩ := List.mem_map.mp hx
  exact ⟨g, hg, (hH.owns_iff g.heap p).mpr hm⟩

/-- A heap that hands out its region from the bottom up and reuses nothing. -/
structure Bump where
  base : VirtAddr
  size : Word
  next : VirtAddr
  deriving DecidableEq, Repr

def bumpHeap : Heap Bump where
  wrapRegion a n := ⟨a, n, a + 0x40⟩
  alloc h n :=
    if h.base ≤ h.next ∧ 0 < n ∧ h.next.toNat + n.toNat ≤ h.base.toNat + h.size.toNat then
      (h.next, { h with next := h.next + n })
    else (0, h)
  free h _ := h
  ownsPointer h p := h.base ≤ p ∧ p.toNat < h.base.toNat + h.size.toNat

lemma bumpHeap_ownsRegion :
    bumpHeap.OwnsRegion fun h => Set.Ico h.base.toNat (h.base.toNat + h.size.toNat) where
  owns_iff h p := by simp [bumpHeap, BitVec.le_def]
  wrap_inside a n := le_rfl
  alloc_region h n := by
    simp only [bumpHeap]
    split_ifs <;> rfl
  alloc_inside h n := by
    simp only [bumpHeap]
    split_ifs with hc
    · intro _
      obtain ⟨h1, h2, h3⟩ := hc
      exact ⟨BitVec.le_def.mp h1, by simp only; bv_omega⟩
    · simp
  free_region h p := rfl

/-- The segments after two requests that do not fit in one pool. -/
def twoSegments : State Bump where
  segments := [⟨0x20000, ⟨0x20000, 0x1000, 0x2083f⟩⟩, ⟨0x10000, ⟨0x10000, 0x1000, 0x1083f⟩⟩]
  live := [0x20040, 0x10040]

lemma twoSegments_reachable : (system bumpHeap 0x1000).Reachable twoSegments := by
  have h0 : (system bumpHeap 0x1000).Reachable ⟨[], []⟩ := .start rfl
  have h1 := alloc_reachable 0x7ff (some 0x10000) h0 (by simp [FreshMemory]) 0x10040 _ rfl
  exact alloc_reachable 0x7ff (some 0x20000) h1
    (by simp [FreshMemory, memory, allocNoNewSegment]) 0x20040 _ rfl

theorem newest_pointer_is_found : FreesInOwner bumpHeap 0x20040 twoSegments.segments :=
  (((only_newest_segment_is_searched bumpHeap_ownsRegion twoSegments_reachable).1 0x20040
    (by decide)).2).mpr (by decide)

/-- A live pointer of the older segment: `Free` and `Owns` never return. -/
theorem older_pointer_is_not_found : ∃ s, (system bumpHeap 0x1000).Reachable s ∧
    ∃ p ∈ s.live, ¬ FreesInOwner bumpHeap p s.segments ∧
      ¬ OwnsAnswers bumpHeap p s.segments := by
  refine ⟨twoSegments, twoSegments_reachable, 0x10040, by decide, ?_, ?_⟩
  · rw [freesInOwner_iff bumpHeap_ownsRegion
      (reachable_owned bumpHeap_ownsRegion twoSegments_reachable)]
    decide
  · rw [ownsAnswers_iff]
    decide

end Anarch.Malloc
