import Anarch.FreeListCalls
import Anarch.TransitionRun

/-! Whole runs of the free list against the ledger of the ranges put in and handed out. -/
namespace Anarch.FreeList
open IntervalCover TransitionRun

inductive Call
  | add (addr : VirtAddr) (pageSize pageCount : Word)
  | release (addr : VirtAddr) (pageSize pageCount : Word)
  | alloc (pageSize pageCount : Word)
  | allocAt (start : VirtAddr) (pageSize pageCount : Word)
  deriving DecidableEq, Repr

/-- The region list, the ranges first put on it, and the ranges handed out and not yet
released. -/
structure History where
  regions : List Region
  initial : List (ℕ × ℕ)
  live : List (ℕ × ℕ)
  deriving DecidableEq, Repr

def byteRange (addr : VirtAddr) (pageSize pageCount : Word) : ℕ × ℕ :=
  (addr.toNat, addr.toNat + pageSize.toNat * pageCount.toNat)

def exec (s : History) : Call → Outcome History
  | .add addr pageSize pageCount => do
      let regions ← free s.regions addr pageSize pageCount
      return { s with regions, initial := byteRange addr pageSize pageCount :: s.initial }
  | .release addr pageSize pageCount => do
      let regions ← free s.regions addr pageSize pageCount
      return { s with regions, live := s.live.erase (byteRange addr pageSize pageCount) }
  | .alloc pageSize pageCount => do
      let (addr, regions) ← alloc pageSize pageCount s.regions
      -- address 0 is how `Alloc` reports failure
      return { s with
        regions
        live := if addr = 0 then s.live else byteRange addr pageSize pageCount :: s.live }
  | .allocAt start pageSize pageCount => do
      let (found, regions) ← allocAt s.regions start pageSize pageCount
      return { s with
        regions
        live := if found then byteRange start pageSize pageCount :: s.live else s.live }

def Positive (pageSize pageCount : Word) : Prop :=
  0 < pageSize.toNat ∧ 0 < pageCount.toNat ∧ pageSize.toNat * pageCount.toNat < 2 ^ 64

/-- Positive sizes whose product does not wrap; only live ranges are released. -/
def Allowed (s : History) : Call → Prop
  | .add _ pageSize pageCount => Positive pageSize pageCount
  | .release addr pageSize pageCount =>
      Positive pageSize pageCount ∧ byteRange addr pageSize pageCount ∈ s.live
  | .alloc pageSize pageCount => Positive pageSize pageCount
  | .allocAt _ pageSize pageCount => Positive pageSize pageCount

def system : System History Call where
  start s := s = ⟨[], [], []⟩
  step s c t := Allowed s c ∧ exec s c = .ok t

/-- No address is lost and none is handed out twice. -/
def Exact (s : History) : Prop :=
  addresses s.regions = cover s.initial \ cover s.live ∧ DisjointSpans s.live ∧
    ∀ r ∈ s.live, Set.Ico r.1 r.2 ⊆ cover s.initial

/-- The initial ranges are disjoint and leave out address 0, one more page than `Alloc`
is asked for would not wrap, and no request is a proper front part of the region that
`Alloc` or `AllocAt` finds for it. -/
def Sound (s : History) : Call → Prop
  | .add addr pageSize pageCount =>
      addr ≠ 0 ∧ Disjoint (Set.Ico (byteRange addr pageSize pageCount).1
        (byteRange addr pageSize pageCount).2) (cover s.initial)
  | .release _ _ _ => True
  | .alloc pageSize pageCount =>
      pageSize.toNat * (pageCount.toNat + 1) ≤ 2 ^ 64 ∧
        allocTakesFront pageSize pageCount s.regions = false
  | .allocAt start pageSize pageCount =>
      allocAtTakesFront ⟨start, pageSize * pageCount⟩ s.regions = false

/-- The list is well formed and agrees with a pool of addresses. -/
structure Tracked (s : History) : Prop where
  wellFormed : WellFormed s.regions
  pool : ∃ p : Pool ℕ, p.total = s.initial ∧ p.live = s.live ∧ p.free = addresses s.regions
  zero : 0 ∉ cover s.initial

lemma Tracked.exact {s : History} (h : Tracked s) : Exact s := by
  obtain ⟨p, ht, hl, hf⟩ := h.pool
  rw [Exact, ← ht, ← hl, ← hf]
  exact ⟨p.free_exact, p.live_disjoint, fun r hr => (subset_cover hr).trans p.live_inside⟩

section
variable {s t : History} {addr : VirtAddr} {pageSize pageCount : Word}

lemma Positive.span_eq (h : Positive pageSize pageCount) (addr : VirtAddr) :
    Region.span ⟨addr, pageSize * pageCount⟩ = byteRange addr pageSize pageCount := by
  simp only [Region.span, byteRange, BitVec.toNat_mul, Nat.mod_eq_of_lt h.2.2]

lemma Positive.size_pos (h : Positive pageSize pageCount) :
    0 < (pageSize * pageCount).toNat := by
  rw [BitVec.toNat_mul, Nat.mod_eq_of_lt h.2.2]
  exact Nat.mul_pos h.1 h.2.1

lemma free_spec {regions out : List Region} (h : WellFormed regions)
    (hp : Positive pageSize pageCount)
    (hd : Disjoint (Set.Ico (byteRange addr pageSize pageCount).1
      (byteRange addr pageSize pageCount).2) (addresses regions))
    (hroom : ∃ x < 2 ^ 64, x ∉ Set.Ico (byteRange addr pageSize pageCount).1
      (byteRange addr pageSize pageCount).2 ∪ addresses regions)
    (hout : free regions addr pageSize pageCount = .ok out) :
    WellFormed out ∧ addresses out = addresses regions ∪
      Set.Ico (byteRange addr pageSize pageCount).1 (byteRange addr pageSize pageCount).2 := by
  obtain ⟨r, hnew, hfree⟩ := bind_eq_ok.mp hout
  obtain ⟨rfl, hfits⟩ := Region.fits_of_new hp.size_pos hnew
  rw [← hp.span_eq addr] at hd hroom ⊢
  obtain ⟨out', hout', hwf, haddr⟩ := freeFrom_spec h hfits hd hroom
  rw [hfree] at hout'
  cases hout'
  exact ⟨hwf, by rw [haddr, Set.union_comm]⟩

lemma free_tracked {out : List Region} (h : Tracked s) (hp : Positive pageSize pageCount)
    (hd : Disjoint (Set.Ico (byteRange addr pageSize pageCount).1
      (byteRange addr pageSize pageCount).2) (addresses s.regions))
    (ha : addr ≠ 0) (hout : free s.regions addr pageSize pageCount = .ok out) :
    WellFormed out ∧ addresses out = addresses s.regions ∪
      Set.Ico (byteRange addr pageSize pageCount).1 (byteRange addr pageSize pageCount).2 := by
  obtain ⟨p, ht, hl, hf⟩ := h.pool
  refine free_spec h.wellFormed hp hd ⟨0, by norm_num, ?_⟩ hout
  rintro (hm | hm)
  · have : addr.toNat = 0 := Nat.le_zero.mp hm.1
    exact ha (BitVec.eq_of_toNat_eq this)
  · exact h.zero (ht ▸ p.free_subset (hf ▸ hm))

lemma add_tracked (h : Tracked s) (hp : Positive pageSize pageCount)
    (hs : Sound s (.add addr pageSize pageCount))
    (ht : exec s (.add addr pageSize pageCount) = .ok t) : Tracked t := by
  obtain ⟨out, hout, he⟩ := bind_eq_ok.mp ht
  cases he
  obtain ⟨ha, hd⟩ := hs
  obtain ⟨p, hpt, hpl, hpf⟩ := h.pool
  have hd' := hd.mono_right (hpt ▸ p.free_subset)
  rw [hpf] at hd'
  obtain ⟨hwf, haddr⟩ := free_tracked h hp hd' ha hout
  refine ⟨hwf, ⟨p.add (byteRange addr pageSize pageCount) (hpt ▸ hd), ?_, hpl, ?_⟩, ?_⟩
  · simp [Pool.add, hpt]
  · simp only [Pool.add, hpf, haddr]
  · rw [cover_cons]
    rintro (hm | hm)
    · exact ha (BitVec.eq_of_toNat_eq (Nat.le_zero.mp hm.1))
    · exact h.zero hm

lemma release_tracked (h : Tracked s)
    (hal : Allowed s (.release addr pageSize pageCount))
    (ht : exec s (.release addr pageSize pageCount) = .ok t) : Tracked t := by
  obtain ⟨out, hout, he⟩ := bind_eq_ok.mp ht
  cases he
  obtain ⟨hp, hmem⟩ := hal
  obtain ⟨p, hpt, hpl, hpf⟩ := h.pool
  have hmem' : byteRange addr pageSize pageCount ∈ p.live := hpl ▸ hmem
  have ha : addr ≠ 0 := by
    rintro rfl
    have hpos := Nat.mul_pos hp.1 hp.2.1
    exact h.zero (hpt ▸ p.live_inside (subset_cover hmem' ⟨by simp [byteRange], by
      simpa [byteRange] using hpos⟩))
  obtain ⟨hwf, haddr⟩ :=
    free_tracked h hp (hpf ▸ p.live_disjoint_free hmem') ha hout
  refine ⟨hwf, ⟨p.give _ hmem', hpt, ?_, ?_⟩, h.zero⟩
  · simp [Pool.give, hpl]
  · simp only [Pool.give, hpf, haddr]

lemma taken_tracked {out : List Region} {r : ℕ × ℕ} (h : Tracked s)
    (ht : Taken s.regions out r) :
    Tracked { s with regions := out, live := r :: s.live } := by
  obtain ⟨p, hpt, hpl, hpf⟩ := h.pool
  refine ⟨ht.wellFormed, ⟨p.take r (hpf ▸ ht.inside), hpt, ?_, ?_⟩, h.zero⟩
  · simp [Pool.take, hpl]
  · simp only [Pool.take, hpf, ht.addresses_eq]

lemma alloc_tracked (h : Tracked s) (hp : Positive pageSize pageCount)
    (hs : Sound s (.alloc pageSize pageCount))
    (ht : exec s (.alloc pageSize pageCount) = .ok t) : Tracked t := by
  obtain ⟨⟨addr, out⟩, hout, he⟩ := bind_eq_ok.mp ht
  cases he
  obtain ⟨addr', out', hout', hres⟩ := alloc_spec h.wellFormed ⟨hp.1, hp.2.1, hs.1⟩ hs.2
  rw [hout] at hout'
  cases hout'
  rcases hres with htaken | ⟨rfl, rfl⟩
  · have ha : addr ≠ 0 := by
      rintro rfl
      obtain ⟨p, hpt, hpl, hpf⟩ := h.pool
      have hpos := Nat.mul_pos hp.1 hp.2.1
      exact h.zero (hpt ▸ p.free_subset (hpf ▸ htaken.inside ⟨by simp, by simpa using hpos⟩))
    rw [if_neg ha]
    exact taken_tracked h htaken
  · simpa using h

lemma allocAt_spec {regions out : List Region} {found : Bool} (h : WellFormed regions)
    (hp : Positive pageSize pageCount)
    (hfront : allocAtTakesFront ⟨addr, pageSize * pageCount⟩ regions = false)
    (hout : allocAt regions addr pageSize pageCount = .ok (found, out)) :
    (found = true ∧ Taken regions out (byteRange addr pageSize pageCount)) ∨
      (found = false ∧ out = regions) := by
  obtain ⟨rest, _, hout⟩ := bind_eq_ok.mp hout
  split_ifs at hout with hrest
  · cases hout
    exact .inr ⟨rfl, rfl⟩
  · obtain ⟨r, hnew, hfrom⟩ := bind_eq_ok.mp hout
    obtain ⟨rfl, hfits⟩ := Region.fits_of_new hp.size_pos hnew
    obtain ⟨found', out', hout', hres⟩ := allocAtFrom_spec h hfits hfront
    rw [hfrom] at hout'
    cases hout'
    rwa [hp.span_eq] at hres

lemma allocAt_tracked (h : Tracked s) (hp : Positive pageSize pageCount)
    (hs : Sound s (.allocAt addr pageSize pageCount))
    (ht : exec s (.allocAt addr pageSize pageCount) = .ok t) : Tracked t := by
  obtain ⟨⟨found, out⟩, hout, he⟩ := bind_eq_ok.mp ht
  cases he
  rcases allocAt_spec h.wellFormed hp hs hout with ⟨rfl, htaken⟩ | ⟨rfl, rfl⟩
  · exact taken_tracked h htaken
  · simpa using h

end

/-- In every run whose calls are sound, the list covers exactly the initial ranges less
the live ones, and these are disjoint and inside the initial ranges. -/
theorem sound_run_exact {s : History} (h : (system.restrict Sound).Reachable s) : Exact s := by
  refine Tracked.exact (h.invariant (P := Tracked) ?_ ?_)
  · rintro s rfl
    exact ⟨.nil, ⟨Pool.empty, rfl, rfl, by simp [Pool.empty]⟩, by simp⟩
  · rintro s c t - hs ⟨hsound, hal, hexec⟩
    cases c with
    | add addr pageSize pageCount => exact add_tracked hs hal hsound hexec
    | release addr pageSize pageCount => exact release_tracked hs hal hexec
    | alloc pageSize pageCount => exact alloc_tracked hs hal hsound hexec
    | allocAt start pageSize pageCount => exact allocAt_tracked hs hal hsound hexec

lemma call_reachable {P : History → Call → Prop} {s t : History} (c : Call)
    (h : (system.restrict P).Reachable s) (hp : P s c) (ha : Allowed s c)
    (he : exec s c = .ok t) : (system.restrict P).Reachable t := h.next ⟨hp, ha, he⟩

/-- A page from the middle of a range, released again: the list merges back. -/
theorem middle_page_exact : Exact ⟨[⟨0x1000, 0x3000⟩], [(0x1000, 0x4000)], []⟩ := by
  apply sound_run_exact
  have h1 := call_reachable (.add 0x1000 0x1000 3) (.start rfl)
    (show Sound ⟨[], [], []⟩ _ by simp [Sound]) (by simp [Allowed, Positive]) rfl
  have h2 := call_reachable (.allocAt 0x2000 0x1000 1) h1
    (show allocAtTakesFront _ _ = false from rfl) (by simp [Allowed, Positive]) rfl
  exact call_reachable (.release 0x2000 0x1000 1) h2 trivial
    ⟨by simp [Positive], by decide⟩ rfl

/-- Two two-page ranges, three single-page requests: after each `Alloc` the first region
keeps its size, runs into the next range, and page 0x4000 goes out twice. -/
theorem page_handed_out_twice : ∃ s, system.Reachable s ∧ ¬ Exact s := by
  have h0 : (system.restrict fun _ _ => True).Reachable ⟨[], [], []⟩ := .start rfl
  have h1 := call_reachable (.add 0x1000 0x1000 2) h0 trivial (by simp [Allowed, Positive]) rfl
  have h2 := call_reachable (.add 0x4000 0x1000 1) h1 trivial (by simp [Allowed, Positive]) rfl
  have h3 := call_reachable (.alloc 0x1000 1) h2 trivial (by simp [Allowed, Positive]) rfl
  have h4 := call_reachable (.alloc 0x1000 1) h3 trivial (by simp [Allowed, Positive]) rfl
  have h5 := call_reachable (.allocAt 0x4000 0x1000 1) h4 trivial
    (by simp [Allowed, Positive]) rfl
  have h6 := call_reachable (.allocAt 0x4000 0x1000 1) h5 trivial
    (by simp [Allowed, Positive]) rfl
  refine ⟨_, h6.of_restrict, fun he => ?_⟩
  have hd := List.rel_of_pairwise_cons he.2.1 (List.mem_cons_self ..)
  exact Set.disjoint_left.mp hd ⟨le_rfl, by decide⟩ ⟨le_rfl, by decide⟩

end Anarch.FreeList
