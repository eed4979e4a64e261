import Anarch.Malloc

/-! The destructor of the kernel heap. The nodes of its list of segments lie in the memory
that it releases, so reading a link and releasing a segment are recorded in order. What
`FreeAndUnmap` does to the memory, and what a link reads as afterwards, are parameters. -/
namespace Anarch.Malloc
open TransitionRun

inductive Event
  | readNext (segment : VirtAddr)
  | freeAndUnmap (addr : VirtAddr) (size : Word)
  deriving DecidableEq, Repr

/-- The loop state of the destructor. -/
structure Teardown (μ : Type) where
  memory : μ
  firstSegment : VirtAddr
  events : List Event

section
variable {μ : Type} (next : μ → VirtAddr → VirtAddr)
  (freeAndUnmap : VirtAddr → Word → μ → Outcome μ) (poolSize : Word)

/-- A round of the loop of `~Malloc`. -/
def destroyRound (s : Teardown μ) : Teardown μ ⊕ List Event × Outcome μ :=
  if s.firstSegment = 0 then .inr (s.events, .ok s.memory)
  else
    let following := next s.memory s.firstSegment
    let events := s.events ++ [.readNext s.firstSegment, .freeAndUnmap following poolSize]
    match freeAndUnmap following poolSize s.memory with
    | .error fault => .inr (events, .error fault)
    | .ok memory => .inl ⟨memory, following, events⟩

/-- From `firstSegment` on, the links lead through the segments at these addresses. -/
def Linked (link : VirtAddr → VirtAddr) : VirtAddr → List VirtAddr → Prop
  | first, [] => first = 0
  | first, base :: rest => first = base ∧ Linked link (link base) rest

/-- The destructor ends after it has released each segment once and nothing else, and has
read no segment that was released before. -/
def ReleasesEach (memory : μ) (firstSegment : VirtAddr) (bases : List VirtAddr) : Prop :=
  ∃ events memory',
    Returns (destroyRound next freeAndUnmap poolSize) ⟨memory, firstSegment, []⟩
      (events, .ok memory') ∧
    (∀ addr size, events.count (.freeAndUnmap addr size) =
      if size = poolSize then bases.count addr else 0) ∧
    ∀ earlier later addr size, events = earlier ++ .freeAndUnmap addr size :: later →
      .readNext addr ∉ later

end

section
variable {μ : Type} {next : μ → VirtAddr → VirtAddr}
  {freeAndUnmap : VirtAddr → Word → μ → Outcome μ} {poolSize : Word}

lemma events_extend {s : Teardown μ} {r : List Event × Outcome μ}
    (h : Returns (destroyRound next freeAndUnmap poolSize) s r) : s.events <+: r.1 := by
  refine h.backward (P := fun s => s.events <+: r.1) ?_ ?_
  · intro s hbody
    unfold destroyRound at hbody
    simp only at hbody
    split_ifs at hbody
    · rw [← Sum.inr.inj hbody]
    · split at hbody
      · rw [← Sum.inr.inj hbody]
        exact List.prefix_append _ _
      · cases hbody
  · intro s t hbody ih
    unfold destroyRound at hbody
    simp only at hbody
    split_ifs at hbody
    split at hbody
    · cases hbody
    · rw [← Sum.inl.inj hbody] at ih
      exact (List.prefix_append _ _).trans ih

lemma destroyRound_moves {s : Teardown μ} {events : List Event} {memory' : μ}
    (hfirst : s.firstSegment ≠ 0)
    (h : Returns (destroyRound next freeAndUnmap poolSize) s (events, .ok memory')) :
    ∃ t : Teardown μ, t.firstSegment = next s.memory s.firstSegment ∧
      t.events = s.events ++ [.readNext s.firstSegment, .freeAndUnmap t.firstSegment poolSize] ∧
      Returns (destroyRound next freeAndUnmap poolSize) t (events, .ok memory') := by
  cases hfree : freeAndUnmap (next s.memory s.firstSegment) poolSize s.memory with
  | error fault =>
    have hbody : destroyRound next freeAndUnmap poolSize s = .inr (s.events ++
        [.readNext s.firstSegment, .freeAndUnmap (next s.memory s.firstSegment) poolSize],
        .error fault) := by
      simp only [destroyRound, if_neg hfirst, hfree]
    cases h.unique (.exit hbody)
  | ok memory =>
    have hbody : destroyRound next freeAndUnmap poolSize s = .inl ⟨memory,
        next s.memory s.firstSegment, s.events ++
          [.readNext s.firstSegment, .freeAndUnmap (next s.memory s.firstSegment) poolSize]⟩ := by
      simp only [destroyRound, if_neg hfirst, hfree]
    exact ⟨_, rfl, rfl, (returns_step hbody).mp h⟩

/-- Each round releases what the next one reads, so that only an empty list is released as it
should be. -/
lemma releasesEach_empty {memory : μ} {firstSegment : VirtAddr} {bases : List VirtAddr}
    (hbases : ∀ base ∈ bases, base ≠ 0) (hlinked : Linked (next memory) firstSegment bases) :
    ReleasesEach next freeAndUnmap poolSize memory firstSegment bases ↔ bases = [] := by
  constructor
  · rintro ⟨events, memory', hreturns, hcount, hreads⟩
    cases bases with
    | nil => rfl
    | cons base rest =>
      obtain ⟨rfl, -⟩ := hlinked
      obtain ⟨t, hnext, ht, hreturns⟩ := destroyRound_moves (hbases _ (by simp)) hreturns
      have hmem : .freeAndUnmap t.firstSegment poolSize ∈ events :=
        (events_extend hreturns).subset (by simp [ht])
      have hbase : t.firstSegment ∈ firstSegment :: rest := by
        have hpos := List.count_pos_iff.mpr hmem
        rw [hcount, if_pos rfl] at hpos
        exact List.count_pos_iff.mp hpos
      -- the next round reads the segment that this one released
      obtain ⟨u, -, hu, hreturns⟩ := destroyRound_moves (hbases _ hbase) hreturns
      obtain ⟨later, hlater⟩ := events_extend hreturns
      rw [hu, ht] at hlater
      refine absurd ?_ (hreads [.readNext firstSegment] (.readNext t.firstSegment ::
        .freeAndUnmap u.firstSegment poolSize :: later) t.firstSegment poolSize ?_)
      · simp
      · simpa using hlater.symm
  · rintro rfl
    obtain rfl : firstSegment = 0 := hlinked
    refine ⟨[], memory, .exit rfl, by simp, ?_⟩
    intro earlier later addr size he
    simp at he

lemma Linked.congr {link link' : VirtAddr → VirtAddr} {firstSegment : VirtAddr}
    {bases : List VirtAddr} (h : Linked link firstSegment bases)
    (hsame : ∀ base ∈ bases, link' base = link base) : Linked link' firstSegment bases := by
  induction bases generalizing firstSegment with
  | nil => exact h
  | cons base rest ih =>
    obtain ⟨rfl, h⟩ := h
    refine ⟨rfl, ?_⟩
    rw [hsame _ (by simp)]
    exact ih h fun b hb => hsame b (by simp [hb])

lemma Linked.push {link : VirtAddr → VirtAddr} {firstSegment base : VirtAddr}
    {bases : List VirtAddr} (h : Linked link firstSegment bases) (hfresh : base ∉ bases) :
    Linked (Function.update link base firstSegment) base (base :: bases) := by
  refine ⟨rfl, ?_⟩
  rw [Function.update_self]
  refine h.congr fun b hb => ?_
  rw [Function.update_of_ne]
  rintro rfl
  exact hfresh hb

end

section
variable {η : Type} {H : Heap η} {poolSize : Word}

lemma allocNoNewSegment_bases (size : Word) (segments : List (Segment η)) :
    (allocNoNewSegment H size segments).2.map Segment.base = segments.map Segment.base := by
  induction segments with
  | nil => rfl
  | cons g rest ih =>
    simp only [allocNoNewSegment]
    split_ifs
    · rfl
    · simpa using ih

lemma alloc_bases {size addr : Word} {fresh : Option VirtAddr} {segments out : List (Segment η)}
    (h : alloc H poolSize size fresh segments = .ok (addr, out)) :
    out.map Segment.base = segments.map Segment.base ∨
      ∃ base, fresh = some base ∧ out.map Segment.base = base :: segments.map Segment.base := by
  unfold alloc at h
  simp only at h
  split_ifs at h
  · cases h
    exact .inl rfl
  · have he : (allocNoNewSegment H size segments).2 = out := congrArg Prod.snd (Except.ok.inj h)
    rw [← he]
    exact .inl (allocNoNewSegment_bases size segments)
  · obtain ⟨⟨created, segs⟩, hc, h⟩ := bind_eq_ok.mp h
    cases fresh with
    | none =>
      cases hc
      cases h
      exact .inl (allocNoNewSegment_bases size segments)
    | some base =>
      obtain ⟨_, _, hc⟩ := bind_eq_ok.mp hc
      cases hc
      have he : (allocNoNewSegment H size (⟨base, H.wrapRegion base poolSize⟩ ::
          (allocNoNewSegment H size segments).2)).2 = out := congrArg Prod.snd (Except.ok.inj h)
      rw [← he, allocNoNewSegment_bases]
      exact .inr ⟨base, rfl, congrArg _ (allocNoNewSegment_bases size segments)⟩

lemma reachable_bases {s : State η} (h : (system H poolSize).Reachable s) :
    ∀ base ∈ s.segments.map Segment.base, base ≠ 0 := by
  refine h.invariant (P := fun s => ∀ base ∈ s.segments.map Segment.base, base ≠ 0) ?_ ?_
  · rintro s rfl
    simp
  · rintro s a t - hs hstep
    cases a with
    | alloc size fresh =>
      obtain ⟨hfresh, addr, out, hout, rfl⟩ := hstep
      rcases alloc_bases hout with he | ⟨a, ha, he⟩
      · rw [he]
        exact hs
      · rw [he]
        rintro base (_ | ⟨_, hbase⟩)
        · exact (hfresh a ha).1
        · exact hs base hbase
    | free addr =>
      obtain ⟨-, out, hout, rfl⟩ := hstep
      obtain ⟨g, rest, he, -, rfl⟩ := freeReturns_cases hout
      rw [he] at hs
      exact hs

variable {μ : Type} {next : μ → VirtAddr → VirtAddr}
  {freeAndUnmap : VirtAddr → Word → μ → Outcome μ}

/-- The destructor releases each segment once, and reads none that it has released, exactly if
there are no segments. -/
theorem destroy_releases_iff {s : State η} (h : (system H poolSize).Reachable s) {memory : μ}
    {firstSegment : VirtAddr}
    (hlinked : Linked (next memory) firstSegment (s.segments.map Segment.base)) :
    ReleasesEach next freeAndUnmap poolSize memory firstSegment (s.segments.map Segment.base) ↔
      s.segments = [] := by
  rw [releasesEach_empty (reachable_bases h) hlinked, List.map_eq_nil_iff]

end

/-- The links that `CreateSegment` has written for the two segments. -/
def twoLinks : VirtAddr → VirtAddr :=
  Function.update (Function.update (fun _ => 0) 0x10000 0) 0x20000 0x10000

lemma twoLinks_linked : Linked twoLinks 0x20000 (twoSegments.segments.map Segment.base) := by
  have hempty : Linked (fun _ => 0) 0 [] := rfl
  have holder := hempty.push (show 0x10000 ∉ [] by simp)
  exact holder.push (by decide)

/-- Before the first allocation there is nothing to release, and two segments are not released
as they should be. -/
theorem destroy_releases_unused :
    ReleasesEach (fun link : VirtAddr → VirtAddr => link) (fun _ _ link => .ok link) 0x1000
      (fun _ => 0) 0 [] ∧
    ¬ ReleasesEach (fun link => link) (fun _ _ link => .ok link) 0x1000 twoLinks 0x20000
      (twoSegments.segments.map Segment.base) := by
  constructor
  · exact (destroy_releases_iff (H := bumpHeap) (s := ⟨[], []⟩) (.start rfl) rfl).mpr rfl
  · refine (not_congr (destroy_releases_iff twoSegments_reachable ?_)).mpr ?_
    · exact twoLinks_linked
    · exact List.cons_ne_nil _ _

/-- Two segments: the older one is released and then read, and the newer one is never
released. -/
theorem destroy_misses_newest : ∃ s, (system bumpHeap 0x1000).Reachable s ∧
    ∃ link : VirtAddr → VirtAddr, Linked link 0x20000 (s.segments.map Segment.base) ∧
      Returns (destroyRound (fun link => link) (fun _ _ link => .ok link) 0x1000)
        ⟨link, 0x20000, []⟩ ([.readNext 0x20000, .freeAndUnmap 0x10000 0x1000,
          .readNext 0x10000, .freeAndUnmap 0 0x1000], .ok link) ∧
      ¬ ReleasesEach (fun link => link) (fun _ _ link => .ok link) 0x1000 link 0x20000
        (s.segments.map Segment.base) := by
  refine ⟨twoSegments, twoSegments_reachable, twoLinks, twoLinks_linked, ⟨3, rfl⟩, ?_⟩
  rintro ⟨events, memory', hreturns, hcount, -⟩
  cases hreturns.unique ⟨3, rfl⟩
  exact absurd (hcount 0 0x1000) (by decide)

end Anarch.Malloc
