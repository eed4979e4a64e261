import Anarch.AllocatorAttempts
import Anarch.FreeFinderEnd
import Anarch.FreeFinderHoles
import Anarch.GlobalMapAligned
import Anarch.GlobalMapExact
import Anarch.KernelHeap
import Anarch.PageTableFrames

/-! Runs of the calls that hand out kernel addresses. The candidate ends at `KernelEnd` or before
it, unless a request for nothing skips more bytes than the candidate holds, or the bytes of a
request pass the end of a word. -/
namespace Anarch.KernelRequests
open MemoryMap AllocatorMapping GlobalMap PageTable FreeFinder TransitionRun

/-- What the callers hold and what they were granted: ranges of whole pages. -/
structure State (α : Type) where
  map : GlobalMap.State α
  reserved : List (VirtAddr × Size)
  granted : List (VirtAddr × Size)

inductive Call
  | reserve (size : Size)
  | unreserve (addr : VirtAddr) (size : Size)
  | allocAndMap (size : Word) (bigPages : Bool)
  deriving DecidableEq, Repr

/-- Runs of the calls from the map that `MapSetup` leaves. Only what is reserved comes back. -/
def requests {α : Type} (A : AllocatorOps α) : System (State α) Call where
  start s := (calls A).start s.map ∧ s.reserved = [] ∧ s.granted = []
  step s c t :=
    match c with
    | .reserve size => ∃ r, GlobalMap.reserve A size s.map = .ok (r, t.map) ∧
        t.reserved = (r.map (·, size)).toList ++ s.reserved ∧
        t.granted = (r.map (·, size)).toList ++ s.granted
    | .unreserve addr size => (addr, size) ∈ s.reserved ∧
        GlobalMap.unreserve A addr size s.map = .ok t.map ∧
        t.reserved = s.reserved.erase (addr, size) ∧ t.granted = s.granted
    | .allocAndMap size bigPages =>
        ∃ r, KernelHeap.allocAndMap A size bigPages s.map = .ok (r, t.map) ∧
          t.reserved = s.reserved ∧
          t.granted = (r.map (·, ⟨0x1000, pagesFor size 0x1000⟩)).toList ++ s.granted

/-- As numbers without a bound, the candidate and all that was granted end in the kernel half. -/
def BelowKernelEnd {α : Type} (s : State α) : Prop :=
  s.map.finder.freeStart.toNat + s.map.finder.freeSize.toNat ≤ kernelEnd.toNat ∧
    ∀ range ∈ s.granted, range.1.toNat + range.2.span ≤ kernelEnd.toNat

/-- The bytes of a request fit a word, or come out larger than all of the kernel half, and a
request for nothing does not skip more bytes than the candidate holds. -/
structure Fair (f : Finder) (size : Size) : Prop where
  bytes : size.span < 2 ^ 64 ∨ kernelEnd < size.bytes
  nothing : size.bytes = 0 → f.slice size.pageSize ≤ f.freeSize

/-- What a round of the loop of `AllocAndMap` reserves. -/
def asks (size : Word) (i : Fin 2) : Size := ⟨getPageSize i, pagesFor size (getPageSize i)⟩

/-- The requests to the map are fair, for each page size that `AllocAndMap` does not pass
over. -/
def Safe {α : Type} (s : State α) : Call → Prop
  | .reserve size => Fair s.map.finder size
  | .unreserve _ _ => True
  | .allocAndMap size bigPages => ∀ i ∈ pageSizes bigPages, skips size i = false →
      Fair s.map.finder (asks size i)

section
variable {α : Type} (A : AllocatorOps α)

/-- A round of the loop of `AllocAndMap` that leads to the next one. -/
inductive Fails (size : Word) (i : Fin 2) (s : GlobalMap.State α) : GlobalMap.State α → Prop
  | skipped : skips size i = true → Fails size i s s
  | refused {u : GlobalMap.State α} : skips size i = false →
      GlobalMap.reserve A (asks size i) s = .ok (none, u) → Fails size i s u
  | exhausted {res dest : VirtAddr} {u v w : GlobalMap.State α} : skips size i = false →
      GlobalMap.reserve A (asks size i) s = .ok (some res, u) →
      KernelHeap.mapPages A (getPageSize i) (getPageSizeAlign i) (asks size i).pageCount.toNat
        res u = .ok (false, dest, v) →
      KernelHeap.unmapPages A (dest - res).toNat res (dest - res) v = .ok w → Fails size i s w

/-- The loop of `AllocAndMap` comes to a round that reserves. -/
inductive Tries (size : Word) :
    List (Fin 2) → GlobalMap.State α → Fin 2 → GlobalMap.State α → Prop
  | here {i : Fin 2} {rest : List (Fin 2)} {s : GlobalMap.State α} : skips size i = false →
      Tries size (i :: rest) s i s
  | later {i j : Fin 2} {rest : List (Fin 2)} {s u v : GlobalMap.State α} :
      Fails A size i s u → Tries size rest u j v → Tries size (i :: rest) s j v

/-- Neither subtraction of `Alloc` passes zero when it serves the reservation. -/
def CutsFit (s : GlobalMap.State α) (size : Size) : Prop :=
  ∀ f, Cuts s size.bytes size.pageSize f → f.Fits size.bytes size.pageSize

/-- No subtraction from the candidate wraps in the call. -/
def NoWrap (s : State α) : Call → Prop
  | .reserve size => CutsFit s.map size
  | .unreserve addr size => (addr, size) ∈ s.reserved →
      addr + size.bytes = s.map.finder.freeStart → size.bytes ≤ s.map.finder.freeStart
  | .allocAndMap size bigPages =>
      ∀ i u, Tries A size (pageSizes bigPages) s.map i u → CutsFit u (asks size i)

end

section
variable {size : Word} {i : Fin 2}

lemma getPageSize_cases (i : Fin 2) : getPageSize i = 0x1000 ∨ getPageSize i = 0x200000 ∧ i = 1 := by
  revert i
  decide

lemma pagesFor_eq_zero : pagesFor size (getPageSize i) = 0 ↔ size = 0 := by
  have hcover := (pagesFor_covers size (two_le_getPageSize i)).1
  constructor
  · intro h
    rw [h] at hcover
    exact BitVec.eq_of_toNat_eq (Nat.le_zero.mp hcover)
  · rintro rfl
    revert i
    decide

/-- With a page size that is not passed over, the pages of a request are as long as small
pages would be. -/
lemma span_of_not_skipped (h : skips size i = false) :
    (asks size i).span = Size.span ⟨0x1000, pagesFor size 0x1000⟩ := by
  rw [asks]
  rcases getPageSize_cases i with hi | ⟨hi, rfl⟩
  · rw [hi]
  · have hmod : size.toNat % 0x200000 = 0 := by
      have h : size % getPageSize 1 = 0 := by simpa [skips] using h
      exact toNat_mod_of_aligned h
    have hsmall : size.toNat % 0x1000 = 0 := by omega
    rw [Size.span, Size.span, hi, pagesFor_toNat (by decide), pagesFor_toNat (by decide)]
    simp only [BitVec.reduceToNat, hmod, hsmall, if_true]
    omega

end

section
variable {α : Type} {A : AllocatorOps α} {s t : GlobalMap.State α}

lemma reserve_last {size : Size} {r : Option VirtAddr} (hs : s.finder.last ≤ kernelEnd.toNat)
    (hfair : Fair s.finder size) (hok : GlobalMap.reserve A size s = .ok (r, t)) :
    t.finder.last ≤ kernelEnd.toNat ∧ (r = none → size.bytes ≠ 0) ∧
      ∀ addr ∈ r, addr.toNat + size.span = t.finder.freeStart.toNat := by
  obtain ⟨-, halloc, -⟩ := allocList_eq_ok hok
  have hzero : size.bytes = 0 → s.finder.Fits size.bytes size.pageSize := fun h => by
    rw [h]
    exact BitVec.le_def.mp (hfair.nothing h)
  obtain ⟨hlast, hnone, hsome⟩ := alloc_last hs hzero halloc
  refine ⟨hlast, hnone, fun addr haddr => ?_⟩
  have hstart := hsome addr haddr
  rcases hfair.bytes with hspan | hlarge
  · rwa [← Size.bytes_toNat hspan]
  · rw [BitVec.lt_def] at hlarge
    rw [Finder.last] at hlast
    omega

lemma mapAt_finder {addr : VirtAddr} {phys : PhysAddr} {size : Size} {attributes : Attributes}
    (hok : GlobalMap.mapAt A addr phys size attributes s = .ok t) : t.finder = s.finder := by
  obtain ⟨_, -, hok⟩ := bind_eq_ok.mp hok
  obtain rfl := Except.ok.inj hok
  rfl

lemma unmap_finder {addr : VirtAddr} {size : Size} (hok : GlobalMap.unmap A addr size s = .ok t) :
    t.finder = s.finder.free addr size.bytes := by
  obtain ⟨_, -, hok⟩ := bind_eq_ok.mp hok
  obtain rfl := Except.ok.inj hok
  rfl

lemma allocPage_finder (pageSize pageAlign : Word) (s : GlobalMap.State α) :
    (KernelHeap.allocPage A pageSize pageAlign s).2.finder = s.finder := by
  unfold KernelHeap.allocPage
  split <;> rfl

lemma mapPages_finder {pageSize pageAlign : Word} {n : ℕ} {dest dest' : VirtAddr} {mapped : Bool}
    (hok : KernelHeap.mapPages A pageSize pageAlign n dest s = .ok (mapped, dest', t)) :
    t.finder = s.finder ∧ ∃ k ≤ n, dest' = pageAt dest pageSize k ∧ (mapped = false → k < n) := by
  induction n generalizing dest s with
  | zero =>
    simp only [KernelHeap.mapPages, Except.ok.injEq, Prod.mk.injEq] at hok
    obtain ⟨rfl, rfl, rfl⟩ := hok
    exact ⟨rfl, 0, le_rfl, (pageAt_zero ..).symm, nofun⟩
  | succ n ih =>
    rw [KernelHeap.mapPages] at hok
    have hpage := allocPage_finder (A := A) pageSize pageAlign s
    generalize KernelHeap.allocPage A pageSize pageAlign s = found at hok hpage
    obtain ⟨phys, u⟩ := found
    cases phys with
    | none =>
      simp only [Except.ok.injEq, Prod.mk.injEq] at hok
      obtain ⟨rfl, rfl, rfl⟩ := hok
      exact ⟨hpage, 0, Nat.zero_le _, (pageAt_zero ..).symm, fun _ => n.succ_pos⟩
    | some phys =>
      obtain ⟨v, hmap, hok⟩ := bind_eq_ok.mp hok
      obtain ⟨hfinder, k, hk, rfl, hfalse⟩ := ih hok
      refine ⟨hfinder.trans ((mapAt_finder hmap).trans hpage), k + 1, by omega,
        pageAt_succ .., fun h => ?_⟩
      have := hfalse h
      omega

lemma read_size {addr : VirtAddr} {page : ReadResult}
    (hok : GlobalMap.read addr s = .ok (some page)) : page.size.toNat ≤ 2 ^ 39 := by
  obtain ⟨_, -, hok⟩ := bind_eq_ok.mp hok
  obtain ⟨found, hwalk, hok⟩ := bind_eq_ok.mp hok
  have hsize := walk_size_le hwalk
  cases hdepth : found.depth with
  | none =>
    rw [hdepth] at hok
    cases hok
  | some depth =>
    rw [hdepth] at hok
    obtain ⟨_, -, hok⟩ := bind_eq_ok.mp hok
    obtain ⟨_, -, hok⟩ := bind_eq_ok.mp hok
    obtain rfl := Option.some.inj (Except.ok.inj hok)
    exact hsize

/-- `FreeAndUnmap` on pages before the end of the candidate leaves that end where it is. -/
lemma unmapPages_last {n : ℕ} {source : VirtAddr} {remaining : Word}
    (hs : s.finder.last ≤ kernelEnd.toNat)
    (hend : source.toNat + remaining.toNat ≤ s.finder.last)
    (hok : KernelHeap.unmapPages A n source remaining s = .ok t) :
    t.finder.last = s.finder.last := by
  have hK : kernelEnd.toNat = 2 ^ 39 := rfl
  induction n generalizing source remaining s with
  | zero =>
    rw [KernelHeap.unmapPages] at hok
    split_ifs at hok
    obtain rfl := Except.ok.inj hok
    rfl
  | succ n ih =>
    rw [KernelHeap.unmapPages] at hok
    split_ifs at hok with hrest
    · obtain rfl := Except.ok.inj hok
      rfl
    · have hpos : remaining.toNat ≠ 0 := fun h => hrest (BitVec.eq_of_toNat_eq h)
      obtain ⟨page, hread, hok⟩ := bind_eq_ok.mp hok
      cases page with
      | none => cases hok
      | some page =>
        have hpage := read_size hread
        obtain ⟨u, hunmap, hok⟩ := bind_eq_ok.mp hok
        have hbytes : Size.bytes ⟨page.size, 1⟩ = page.size := mul_one _
        have hu : u.finder.last = s.finder.last := by
          rw [unmap_finder hunmap, hbytes]
          exact free_last_eq hs (by omega) hpage
        simp only at hok
        split_ifs at hok with hlast
        · obtain rfl := Except.ok.inj hok
          exact hu
        · rw [BitVec.le_def] at hlast
          have hnext : (source + page.size).toNat = _ := toNat_next (by omega)
          have hless : (remaining - page.size).toNat = _ :=
            BitVec.toNat_sub_of_le (BitVec.le_def.mpr (by omega))
          have hv : t.finder.last = u.finder.last :=
            ih (s := { u with table := PageTable.free A source u.table })
              (show u.finder.last ≤ _ by omega) (show _ ≤ u.finder.last by omega) hok
          exact hv.trans hu

section
variable {size : Word} {i j : Fin 2} {rest : List (Fin 2)} {r : Option VirtAddr}
variable {u v : GlobalMap.State α}

lemma Fair.of_ne {f g : Finder} (h : Fair f (asks size i)) (hsize : size ≠ 0) :
    Fair g (asks size i) := by
  refine ⟨h.bytes, fun hzero => absurd ?_ hsize⟩
  rcases h.bytes with hspan | hlarge
  · have hbytes := Size.bytes_toNat hspan
    rw [hzero, eq_comm] at hbytes
    have hcount := (Nat.mul_eq_zero.mp hbytes).resolve_left (getPageSize_pos i).ne'
    exact pagesFor_eq_zero.mp (BitVec.eq_of_toNat_eq hcount)
  · rw [hzero] at hlarge
    exact absurd hlarge (by decide)

lemma asks_zero (i : Fin 2) : (asks 0 i).bytes = 0 ∧ (asks 0 i).pageCount = 0 := by
  have hcount : (asks 0 i).pageCount = 0 := pagesFor_eq_zero.mpr rfl
  refine ⟨?_, hcount⟩
  rw [Size.bytes, hcount]
  exact mul_zero _

lemma attempts_cons (hok : KernelHeap.attempts A size (i :: rest) s = .ok (r, t)) :
    (∃ u, Fails A size i s u ∧ KernelHeap.attempts A size rest u = .ok (r, t)) ∨
    ∃ res u dest, r = some res ∧ skips size i = false ∧
      GlobalMap.reserve A (asks size i) s = .ok (some res, u) ∧
      KernelHeap.mapPages A (getPageSize i) (getPageSizeAlign i) (asks size i).pageCount.toNat
        res u = .ok (true, dest, t) := by
  rw [KernelHeap.attempts] at hok
  split_ifs at hok with hskips
  · exact .inl ⟨s, .skipped hskips, hok⟩
  · have hskips : skips size i = false := Bool.eq_false_iff.mpr hskips
    obtain ⟨⟨res, u⟩, hreserve, hok⟩ := bind_eq_ok.mp hok
    cases res with
    | none => exact .inl ⟨u, .refused hskips hreserve, hok⟩
    | some res =>
      obtain ⟨⟨mapped, dest, v⟩, hmap, hok⟩ := bind_eq_ok.mp hok
      cases mapped with
      | true =>
        obtain ⟨rfl, rfl⟩ := Prod.mk.inj (Except.ok.inj hok)
        exact .inr ⟨res, u, dest, rfl, hskips, hreserve, hmap⟩
      | false =>
        obtain ⟨w, hunmap, hok⟩ := bind_eq_ok.mp hok
        exact .inl ⟨w, .exhausted hskips hreserve hmap hunmap, hok⟩

/-- A round that reserves and fails is one of a request for something, and what it gives back
lies before the end of the candidate. -/
lemma Fails.last (h : Fails A size i s u) (hs : s.finder.last ≤ kernelEnd.toNat)
    (hfair : skips size i = false → Fair s.finder (asks size i)) :
    u.finder.last ≤ kernelEnd.toNat ∧ (u = s ∨ size ≠ 0) := by
  have hK : kernelEnd.toNat = 2 ^ 39 := rfl
  cases h with
  | skipped => exact ⟨hs, .inl rfl⟩
  | refused hskips hreserve =>
    obtain ⟨hu, hnone, -⟩ := reserve_last hs (hfair hskips) hreserve
    refine ⟨hu, .inr ?_⟩
    rintro rfl
    exact hnone rfl (asks_zero i).1
  | @exhausted res dest u v w hskips hreserve hmap hunmap =>
    obtain ⟨hu, -, hsome⟩ := reserve_last hs (hfair hskips) hreserve
    obtain ⟨hfinder, k, -, rfl, hfalse⟩ := mapPages_finder hmap
    have hstart := hsome res rfl
    have hk := hfalse rfl
    have hspan : k * (getPageSize i).toNat ≤ (asks size i).span := by
      rw [Size.span, Nat.mul_comm]
      exact Nat.mul_le_mul_left _ hk.le
    have hlast : u.finder.freeStart.toNat ≤ u.finder.last := Nat.le_add_right _ _
    have hdest : (pageAt res (getPageSize i) k).toNat = _ :=
      pageAt_toNat (by omega) (getPageSize_pos i)
    have hlength : (pageAt res (getPageSize i) k - res).toNat = _ :=
      BitVec.toNat_sub_of_le (BitVec.le_def.mpr (by omega))
    rw [← hfinder] at hu hlast hstart
    rw [unmapPages_last hu (by omega) hunmap]
    refine ⟨hu, .inr ?_⟩
    rintro rfl
    rw [(asks_zero i).2] at hk
    exact absurd hk (Nat.not_lt_zero k)

lemma Fails.fair (h : Fails A size i s u) (hs : s.finder.last ≤ kernelEnd.toNat)
    (hfair : ∀ j ∈ i :: rest, skips size j = false → Fair s.finder (asks size j)) :
    ∀ j ∈ rest, skips size j = false → Fair u.finder (asks size j) := by
  intro j hj hskips
  have hold := hfair j (List.mem_cons_of_mem _ hj) hskips
  rcases (h.last hs (hfair i List.mem_cons_self)).2 with rfl | hsize
  · exact hold
  · exact hold.of_ne hsize

lemma Tries.fair (h : Tries A size rest s j v) (hs : s.finder.last ≤ kernelEnd.toNat)
    (hfair : ∀ j ∈ rest, skips size j = false → Fair s.finder (asks size j)) :
    Fair v.finder (asks size j) := by
  induction h with
  | here hskips => exact hfair _ List.mem_cons_self hskips
  | later hfails _ ih =>
    exact ih (hfails.last hs (hfair _ List.mem_cons_self)).1 (hfails.fair hs hfair)

lemma attempts_last (hs : s.finder.last ≤ kernelEnd.toNat)
    (hfair : ∀ i ∈ rest, skips size i = false → Fair s.finder (asks size i))
    (hok : KernelHeap.attempts A size rest s = .ok (r, t)) :
    t.finder.last ≤ kernelEnd.toNat ∧
      ∀ addr ∈ r, addr.toNat + Size.span ⟨0x1000, pagesFor size 0x1000⟩ ≤ kernelEnd.toNat := by
  induction rest generalizing s with
  | nil =>
    obtain ⟨rfl, rfl⟩ := Prod.mk.inj (Except.ok.inj hok)
    exact ⟨hs, by simp⟩
  | cons i rest ih =>
    have hhead := hfair i List.mem_cons_self
    rcases attempts_cons hok with ⟨u, hfails, hok⟩ | ⟨res, u, dest, rfl, hskips, hreserve, hmap⟩
    · exact ih (hfails.last hs hhead).1 (hfails.fair hs hfair) hok
    · obtain ⟨hu, -, hsome⟩ := reserve_last hs (hhead hskips) hreserve
      have hstart := hsome res rfl
      rw [Finder.last] at hu
      rw [(mapPages_finder hmap).1]
      refine ⟨hu, ?_⟩
      rintro _ ⟨⟩
      rw [← span_of_not_skipped hskips]
      omega

/-- A request for nothing is taken from the present candidate, all others from one that has
room. -/
lemma Fair.cutsFit {size : Size} (h : Fair s.finder size) : CutsFit s size := by
  rintro f ⟨hroom, hf⟩
  by_cases hzero : size.bytes = 0
  · rcases hf with rfl | ⟨hno, -⟩
    · rw [Finder.Fits, hzero]
      exact BitVec.le_def.mp (h.nothing hzero)
    · rw [hzero] at hno
      cases hno
  · exact Finder.fits_of_canAllocate hroom hzero

end

end

section
variable {pml4 : PhysAddr} {s : PageTable.State ℕ} {f g : Finder} {total d : ℕ} {size : Size}
variable {addr : VirtAddr}

lemma reserve_next (h : Stocked pml4 total s) (hdepth : calcDepth size.pageSize = .ok d)
    (halloc : alloc pml4 s size.bytes size.pageSize f = .ok (some addr, g))
    (halign : addr % size.pageSize = 0) (hend : addr.toNat + size.span ≤ kernelEnd.toNat)
    (hold : ∀ x ∈ addresses addr size.span, s.slot x = none ∨ ∃ e, s.slot x = some (d, e))
    (hframes : total + size.pageCount.toNat * d ≤ 2 ^ 40) :
    ∃ t, GlobalMap.reserve nextFrame size ⟨s, pml4, f⟩ = .ok (some addr, ⟨t, pml4, g⟩) ∧
      Stocked pml4 (total + size.pageCount.toNat * d) t ∧
      (∀ x ∈ kernelAddresses, x ∉ addresses addr size.span → t.slot x = s.slot x) ∧
      ∀ x ∈ addresses addr size.span, (∃ e, t.slot x = some (d, e)) ∧
        (t.leaf (index x) = none ↔ size.pageSize = 0x1000) := by
  obtain ⟨hmod, hcases⟩ := calcDepth_eq_ok hdepth
  have hhuge : d = 3 ∨ isHuge (reservedEntry size.pageSize) = true :=
    hcases.imp And.left fun h => isHuge_reservedEntry h.2
  obtain ⟨w, t, hlist, hstocked, hout, hin⟩ := h.setList (.inl rfl) hdepth halign hend hhuge
    (reserved_ne_zero (by omega) hmod) hold hframes
  refine ⟨t, reserve_eq halloc hlist, hstocked, hout, fun x hx => ?_⟩
  obtain ⟨k, -, hslot⟩ := hin x hx
  refine ⟨⟨_, hslot⟩, ?_⟩
  rw [leaf_eq_slot, hslot, Option.bind_some, leafOf, isHuge_pageAt _ hmod, isPresent_pageAt _ hmod,
    isPresent_reservedEntry hmod]
  by_cases hsmall : size.pageSize = 0x1000
  · have hnot : isHuge (reservedEntry 0x1000) = false := by decide
    rw [hsmall, hnot]
    simp
  · exact iff_of_false (by simp [isHuge_reservedEntry hsmall]) hsmall

lemma allocAndMap_next (h : Stocked pml4 total s)
    (halloc : alloc pml4 s 0x1000 0x1000 f = .ok (some addr, g)) (halign : addr % 0x1000 = 0)
    (hend : addr.toNat + 0x1000 ≤ kernelEnd.toNat)
    (hold : ∀ x ∈ addresses addr 0x1000, s.slot x = none) (hframes : total + 7 ≤ 2 ^ 40) :
    ∃ t, KernelHeap.allocAndMap nextFrame 0x1000 false ⟨s, pml4, f⟩ =
        .ok (some addr, ⟨t, pml4, g⟩) ∧ Stocked pml4 (total + 7) t ∧
      (∀ x ∈ kernelAddresses, x ∉ addresses addr 0x1000 → t.slot x = s.slot x) ∧
      ∀ x ∈ addresses addr 0x1000, t.leaf (index x) ≠ none := by
  have hcount : pagesFor 0x1000 0x1000 = 1 := by decide
  have hdepth : calcDepth (Size.mk 0x1000 1).pageSize = .ok 3 := rfl
  obtain ⟨u, hreserve, hu, hout, hin⟩ := reserve_next h hdepth halloc halign hend
    (fun x hx => .inl (hold x hx)) (by change _ + 1 * 3 ≤ _; omega)
  let frame : Frame := .ofNat 40 u.alloc
  have hlt : u.alloc < 2 ^ 40 := by
    have hle : u.alloc ≤ total + 1 * 3 := hu.alloc
    omega
  have hpage : nextFrame.alloc 0x1000 0x1000 u.alloc = (some (frameAddr frame), u.alloc + 1) :=
    if_pos hlt
  have hne : ∀ k < (Size.mk 0x1000 1).pageCount.toNat,
      pageAt (frameAddr frame ||| calcMask 0x1000 true {}) 0x1000 k ≠ 0 :=
    fun k _ => mapped_ne_zero (by decide) k
  obtain ⟨w, t, hlist, ht, hout', hin'⟩ :=
    (hu.next (u.calls ++ [.obtained (frameAddr frame)])).setList (.inl rfl) hdepth halign hend
      (.inl rfl) hne (fun x hx => .inr (hin x hx).1) (by change _ + 1 * 3 + 1 + 1 * 3 ≤ _; omega)
  refine ⟨distributeInvlpg addr (Size.bytes ⟨0x1000, 1⟩) t, ?_, ht.invalidate _ _,
    fun x hx hx' => (hout' x hx hx').trans (hout x hx hx'), fun x hx => ?_⟩
  · show KernelHeap.attempts nextFrame 0x1000 [0] _ = _
    rw [KernelHeap.attempts, if_neg (by decide)]
    simp only [show getPageSize 0 = 0x1000 from rfl, getPageSizeAlign, hcount, hreserve, bind,
      Except.bind, show (1 : Word).toNat = 1 from rfl, KernelHeap.mapPages, KernelHeap.allocPage,
      hpage, GlobalMap.mapAt, hlist, pure, Except.pure]
  · obtain ⟨k, -, hslot⟩ := hin' x hx
    rw [leaf_eq_slot, slot_invalidate, hslot, Option.bind_some, leafOf,
      isPresent_pageAt _ (by decide), isPresent_calcMask]
    simp

end

section
variable {setup : MapSetup.State ℕ}

lemma first_stocked (h : MapSetup.generateMap nextFrame 0x1000 (fun _ _ => 0) 1 = .ok setup) :
    Stocked setup.pml4 4 setup.table ∧ ∀ x ∈ kernelAddresses,
      (0x200000 ≤ x.toNat → setup.table.slot x = none) ∧
      (x.toNat < 0x200000 → setup.table.leaf (index x) ≠ none) := by
  obtain ⟨p, hbuilt, -⟩ := MapSetup.generateMap_built nextFrame_contract (by decide) h
  have hrun : (MapSetup.generateMap nextFrame 0x1000 (fun _ _ => 0) 1).toOption.map
      (fun setup => setup.alloc) = some 4 := by decide +kernel
  have halloc : setup.alloc = 4 := by
    rw [h] at hrun
    exact Option.some.inj hrun
  refine ⟨⟨hbuilt.tree, rfl, halloc.le⟩, fun x hx => ⟨fun hle => ?_, fun hlt => ?_⟩⟩
  · rw [slot_eq_none, hbuilt.find x hx, MapSetup.identityFind, if_neg]
    show ¬ x.toNat / 0x200000 < 1
    omega
  · have hzero : x.toNat / 0x200000 = 0 := by omega
    rw [State.leaf, hbuilt.find x hx, MapSetup.identityFind, if_pos (hzero ▸ one_pos), hzero]
    decide

/-- Of the first 4 MiB, the pages from 2 MiB on are reserved as small ones, but one is mapped;
large pages follow. The search takes the hole before the mapped page for free. -/
lemma rescan_before_mapped {pml4 : PhysAddr} {total : ℕ} {t : PageTable.State ℕ}
    (h : Stocked pml4 total t)
    (hleaf : ∀ x ∈ kernelAddresses, t.leaf (index x) = none ↔
      0x200000 ≤ x.toNat ∧ x.toNat < 0x3fe000 ∨ 0x3ff000 ≤ x.toNat ∧ x.toNat < 0x400000) :
    updateFreeRegion pml4 t ⟨kernelEnd, 0⟩ = .ok ⟨0x200000, 0x1fe000⟩ := by
  have hK : kernelEnd.toNat = 2 ^ 39 := rfl
  have hfree : ∀ n, n ∈ unreported pml4 t ↔
      0x200000 ≤ n ∧ n < 0x3fe000 ∨ 0x3ff000 ≤ n ∧ n < 0x400000 := by
    intro n
    by_cases hn : n < kernelEnd.toNat
    · obtain ⟨x, rfl, hx⟩ := exists_word (a := n) (b := n + 1) ⟨le_rfl, n.lt_succ_self⟩ hn
      rw [mem_unreported h.tree.self h.cr3 hx, hleaf x hx]
    · exact iff_of_false (fun h => hn h.1) (by omega)
  refine updateFreeRegion_of_run h.tree.self h.cr3 _ ?_ ?_ (by decide)
  · refine ⟨by decide, by decide, fun n hn => ?_, .inr ?_, .inr ?_⟩
    · exact (hfree n).mpr (.inl hn)
    · rw [hfree]
      decide
    · rw [hfree]
      decide
  · rintro a b hrun
    have hlt := hrun.lt
    have hfirst := (hfree a).mp (hrun.subset ⟨le_rfl, hlt⟩)
    have hlast := (hfree (b - 1)).mp (hrun.subset ⟨by omega, by omega⟩)
    show b - a ≤ 0x1fe000 ∧ (b - a = 0x1fe000 → 0x200000 ≤ a)
    by_cases hcross : a < 0x3fe000 ∧ 0x3fe000 < b
    · have hgap := (hfree 0x3fe000).mp (hrun.subset ⟨hcross.1.le, hcross.2⟩)
      omega
    · omega

/-- Some run leads to the map. -/
def Reached {α : Type} (A : AllocatorOps α) (map : GlobalMap.State α) : Prop :=
  ∃ reserved granted, (requests A).Reachable ⟨map, reserved, granted⟩

section
variable {α : Type} {A : AllocatorOps α} {s t : GlobalMap.State α} {r : Option VirtAddr}

lemma Reached.reserve {size : Size} (h : Reached A s)
    (hok : GlobalMap.reserve A size s = .ok (r, t)) : Reached A t := by
  obtain ⟨reserved, granted, h⟩ := h
  exact ⟨_, _, h.next (a := .reserve size) ⟨r, hok, rfl, rfl⟩⟩

lemma Reached.allocAndMap {size : Word} {bigPages : Bool} (h : Reached A s)
    (hok : KernelHeap.allocAndMap A size bigPages s = .ok (r, t)) : Reached A t := by
  obtain ⟨reserved, granted, h⟩ := h
  exact ⟨_, _, h.next (a := .allocAndMap size bigPages) ⟨r, hok, rfl, rfl⟩⟩

end

lemma small_reserve (h : MapSetup.generateMap nextFrame 0x1000 (fun _ _ => 0) 1 = .ok setup) :
    ∃ t, GlobalMap.reserve nextFrame ⟨0x1000, 510⟩ ⟨setup.table, setup.pml4, ⟨0, 0⟩⟩ =
        .ok (some 0x200000, ⟨t, setup.pml4, ⟨0x3fe000, 0x7fffc02000⟩⟩) ∧
      Stocked setup.pml4 1534 t ∧
      (∀ x ∈ kernelAddresses, x ∉ addresses 0x200000 0x1fe000 →
        t.slot x = setup.table.slot x) ∧
      ∀ x ∈ addresses 0x200000 0x1fe000, (∃ e, t.slot x = some (3, e)) ∧
        t.leaf (index x) = none := by
  obtain ⟨h₀, hfirst⟩ := first_stocked h
  have halloc : alloc setup.pml4 setup.table (Size.bytes ⟨0x1000, 510⟩) 0x1000 ⟨0, 0⟩ =
      .ok (some 0x200000, ⟨0x3fe000, 0x7fffc02000⟩) :=
    alloc_of_search (by decide) (first_rescan h) (by decide) (by decide)
  obtain ⟨t, hok, ht, hout, hin⟩ := reserve_next h₀ rfl halloc (by decide) (by decide)
    (fun x hx => .inl ((hfirst x (addresses_subset_kernel (by decide) hx)).1 hx.1)) (by decide)
  exact ⟨t, hok, ht, hout, fun x hx => ⟨(hin x hx).1, (hin x hx).2.mpr rfl⟩⟩

lemma mapped_run : ∃ pml4 t, Reached nextFrame ⟨t, pml4, ⟨0x3ff000, 0x7fffc01000⟩⟩ ∧
    Stocked pml4 1541 t ∧ ∀ x ∈ kernelAddresses,
      (x.toNat < 0x200000 → t.leaf (index x) ≠ none) ∧
      (x ∈ addresses 0x200000 0x1fe000 →
        (∃ e, t.slot x = some (3, e)) ∧ t.leaf (index x) = none) ∧
      (x ∈ addresses 0x3fe000 0x1000 → t.leaf (index x) ≠ none) ∧
      (0x3ff000 ≤ x.toNat → t.slot x = none) := by
  obtain ⟨setup, hsetup⟩ := firstSetup_ok
  have hfirst := (first_stocked hsetup).2
  have hreach : Reached nextFrame ⟨setup.table, setup.pml4, ⟨0, 0⟩⟩ :=
    ⟨[], [], .start ⟨firstSetup_start hsetup, rfl, rfl⟩⟩
  obtain ⟨t₁, hok₁, h₁, hout₁, hin₁⟩ := small_reserve hsetup
  have hpage : alloc setup.pml4 t₁ 0x1000 0x1000 ⟨0x3fe000, 0x7fffc02000⟩ =
      .ok (some 0x3fe000, ⟨0x3ff000, 0x7fffc01000⟩) := alloc_of_room (by decide) (by decide)
  have hbehind : ∀ x ∈ kernelAddresses, 0x3fe000 ≤ x.toNat → t₁.slot x = none := fun x hx hle => by
    rw [hout₁ x hx fun hin => absurd hin.2 (not_lt.mpr hle)]
    exact (hfirst x hx).1 (le_trans (by decide) hle)
  obtain ⟨t₂, hok₂, h₂, hout₂, hin₂⟩ := allocAndMap_next h₁ hpage (by decide) (by decide)
    (fun x hx => hbehind x (addresses_subset_kernel (by decide) hx) hx.1) (by decide)
  refine ⟨setup.pml4, t₂, (hreach.reserve hok₁).allocAndMap hok₂, h₂, fun x hx =>
    ⟨fun hlt => ?_, fun hin => ?_, hin₂ x, fun hle => ?_⟩⟩
  · rw [leaf_eq_slot, hout₂ x hx fun hin => ?_, hout₁ x hx fun hin => ?_, ← leaf_eq_slot]
    · exact (hfirst x hx).2 hlt
    · exact absurd hin.1 (not_le.mpr hlt)
    · exact absurd (le_trans (by decide) hin.1) (not_le.mpr hlt)
  · have hsame := hout₂ x hx fun hin' => absurd hin.2 (not_lt.mpr hin'.1)
    rw [leaf_eq_slot, hsame, ← leaf_eq_slot]
    exact hin₁ x hin
  · rw [hout₂ x hx fun hin => absurd hin.2 (not_lt.mpr hle)]
    exact hbehind x hx (le_trans (by decide) hle)

lemma full_run : ∃ pml4 t, Reached nextFrame ⟨t, pml4, ⟨kernelEnd, 0⟩⟩ ∧
    Stocked pml4 525825 t ∧ (∀ x ∈ addresses 0x200000 0x1000, ∃ e, t.slot x = some (3, e)) ∧
    updateFreeRegion pml4 t ⟨kernelEnd, 0⟩ = .ok ⟨0x200000, 0x1fe000⟩ := by
  obtain ⟨pml4, t₂, hreach, h₂, hzones⟩ := mapped_run
  have hlarge : alloc pml4 t₂ (Size.bytes ⟨0x200000, 0x3fffe⟩) 0x200000
      ⟨0x3ff000, 0x7fffc01000⟩ = .ok (some 0x400000, ⟨kernelEnd, 0⟩) :=
    alloc_of_room (by decide) (by decide)
  obtain ⟨t₃, hok, h₃, hout, hin⟩ := reserve_next h₂ rfl hlarge (by decide) (by decide)
    (fun x hx => .inl ((hzones x (addresses_subset_kernel (by decide) hx)).2.2.2
      (le_trans (by decide) hx.1))) (by decide)
  have hsame : ∀ x ∈ kernelAddresses, x.toNat < 0x400000 → t₃.slot x = t₂.slot x :=
    fun x hx hlt => hout x hx fun hin => absurd hin.1 (not_le.mpr hlt)
  refine ⟨pml4, t₃, hreach.reserve hok, h₃, fun x hx => ?_,
    rescan_before_mapped h₃ fun x hx => ?_⟩
  · have hxK : x ∈ kernelAddresses := addresses_subset_kernel (by decide) hx
    rw [hsame x hxK (hx.2.trans_le (by decide))]
    exact ((hzones x hxK).2.1 ⟨hx.1, hx.2.trans_le (by decide)⟩).1
  · obtain ⟨hkernel, hreserved, hmapped, hbehind⟩ := hzones x hx
    by_cases hge : 0x400000 ≤ x.toNat
    · refine iff_of_false (fun hnone => ?_) (by omega)
      exact absurd ((hin x ⟨hge, hx⟩).2.mp hnone) (by decide)
    · rw [leaf_eq_slot, hsame x hx (not_le.mp hge), ← leaf_eq_slot]
      rcases (by omega : x.toNat < 0x200000 ∨ 0x200000 ≤ x.toNat ∧ x.toNat < 0x3fe000 ∨
        0x3fe000 ≤ x.toNat ∧ x.toNat < 0x3ff000 ∨ 0x3ff000 ≤ x.toNat) with hlt | hin | hin | hle
      · exact iff_of_false (hkernel hlt) (by omega)
      · exact iff_of_true (hreserved hin).2 (.inl hin)
      · exact iff_of_false (hmapped hin) (by omega)
      · refine iff_of_true ?_ (.inr ⟨hle, not_le.mp hge⟩)
        rw [leaf_eq_slot, hbehind hle]
        rfl

end

section
variable {α : Type} {A : AllocatorOps α} {s t : State α} {c : Call}

/-- What the callers can give back was granted to them. -/
structure Sound (s : State α) : Prop where
  below : BelowKernelEnd s
  reserved : s.reserved ⊆ s.granted

lemma start_sound (h : (requests A).start s) : Sound s := by
  obtain ⟨⟨_, _, _, setup, -, -, hmap⟩, hreserved, hgranted⟩ := h
  have hlast : s.map.finder.last ≤ kernelEnd.toNat := by
    rw [hmap]
    exact Nat.zero_le _
  exact ⟨⟨hlast, by simp [hgranted]⟩, by simp [hreserved]⟩

lemma BelowKernelEnd.grant {r : Option VirtAddr} {size : Size} (hs : BelowKernelEnd s)
    (ht : t.map.finder.last ≤ kernelEnd.toNat)
    (hr : ∀ addr ∈ r, addr.toNat + size.span ≤ kernelEnd.toNat)
    (hgranted : t.granted = (r.map (·, size)).toList ++ s.granted) : BelowKernelEnd t := by
  refine ⟨ht, fun range hrange => ?_⟩
  rw [hgranted, List.mem_append, Option.mem_toList] at hrange
  rcases hrange with hnew | hold
  · obtain ⟨addr, haddr, rfl⟩ := Option.map_eq_some_iff.mp hnew
    exact hr addr haddr
  · exact hs.2 range hold

lemma Sound.bytes_le (hs : Sound s) {addr : VirtAddr} {size : Size}
    (hmem : (addr, size) ∈ s.reserved) :
    addr.toNat + size.bytes.toNat ≤ kernelEnd.toNat := by
  have hK : kernelEnd.toNat = 2 ^ 39 := rfl
  have hend : addr.toNat + size.span ≤ kernelEnd.toNat := hs.below.2 _ (hs.reserved hmem)
  rwa [Size.bytes_toNat (by omega)]

lemma Sound.step (hs : Sound s) (hsafe : Safe s c) (hstep : (requests A).step s c t) :
    Sound t := by
  have hlast : s.map.finder.last ≤ kernelEnd.toNat := hs.below.1
  cases c with
  | reserve size =>
    obtain ⟨r, hok, hreserved, hgranted⟩ := hstep
    obtain ⟨ht, -, hsome⟩ := reserve_last hlast hsafe hok
    refine ⟨hs.below.grant ht (fun addr haddr => ?_) hgranted, ?_⟩
    · have hstart := hsome addr haddr
      rw [Finder.last] at ht
      omega
    · rw [hreserved, hgranted]
      exact List.append_subset.mpr
        ⟨List.subset_append_left _ _, List.subset_append_of_subset_right _ hs.reserved⟩
  | unreserve addr size =>
    obtain ⟨hmem, hok, hreserved, hgranted⟩ := hstep
    refine ⟨⟨?_, hgranted ▸ hs.below.2⟩, ?_⟩
    · have ht : t.map.finder.last ≤ kernelEnd.toNat := by
        rw [unmap_finder hok]
        exact free_last hlast (hs.bytes_le hmem)
      exact ht
    · rw [hreserved, hgranted]
      exact List.Subset.trans List.erase_subset hs.reserved
  | allocAndMap size bigPages =>
    obtain ⟨r, hok, hreserved, hgranted⟩ := hstep
    obtain ⟨ht, hsome⟩ := attempts_last hlast hsafe hok
    refine ⟨hs.below.grant ht hsome hgranted, ?_⟩
    rw [hreserved, hgranted]
    exact List.subset_append_of_subset_right _ hs.reserved

lemma Sound.noWrap (hs : Sound s) (hsafe : Safe s c) : NoWrap A s c := by
  have hK : kernelEnd.toNat = 2 ^ 39 := rfl
  cases c with
  | reserve size => exact Fair.cutsFit hsafe
  | unreserve addr size =>
    intro hmem hstart
    have hend := hs.bytes_le hmem
    have hsum : (addr + size.bytes).toNat = _ := toNat_next (by omega)
    rw [← hstart, BitVec.le_def]
    omega
  | allocAndMap size bigPages =>
    exact fun i u htries => (htries.fair hs.below.1 hsafe).cutsFit

/-- In every run of safe calls the candidate and all that was granted stay below `KernelEnd`,
and no subtraction wraps in the next safe call. -/
theorem below_kernelEnd (h : ((requests A).restrict Safe).Reachable s) :
    BelowKernelEnd s ∧ ∀ c, Safe s c → NoWrap A s c := by
  have hs : Sound s := by
    refine h.invariant (P := Sound) (fun _ hs => start_sound hs) ?_
    rintro s c t - hs ⟨hsafe, hstep⟩
    exact hs.step hsafe hstep
  exact ⟨hs.below, fun _ hsafe => hs.noWrap hsafe⟩

end

/-- The small pages behind the kernel, reserved from a fresh map. -/
theorem below_kernelEnd_small_pages : ∃ s : State ℕ,
    s.granted = [(0x200000, ⟨0x1000, 510⟩)] ∧ BelowKernelEnd s ∧
      ∀ c, Safe s c → NoWrap nextFrame s c := by
  obtain ⟨setup, hsetup⟩ := firstSetup_ok
  obtain ⟨t, hok, -⟩ := small_reserve hsetup
  have hstart : ((requests nextFrame).restrict Safe).Reachable
      ⟨⟨setup.table, setup.pml4, ⟨0, 0⟩⟩, [], []⟩ :=
    .start ⟨firstSetup_start hsetup, rfl, rfl⟩
  have hfair : Fair ⟨0, 0⟩ ⟨0x1000, 510⟩ := ⟨.inl (by decide), fun h => absurd h (by decide)⟩
  exact ⟨⟨_, [(0x200000, ⟨0x1000, 510⟩)], [(0x200000, ⟨0x1000, 510⟩)]⟩, rfl,
    below_kernelEnd (hstart.next (a := .reserve ⟨0x1000, 510⟩) ⟨hfair, _, hok, rfl, rfl⟩)⟩

/-- A request for no large pages is not checked, and skips more than is left of the hole. -/
theorem nothing_skips_past_end :
    ∃ s, (requests nextFrame).Reachable s ∧ ¬ BelowKernelEnd s := by
  obtain ⟨pml4, t₃, hreach, h₃, hslots, hsearch⟩ := full_run
  have hpage : alloc pml4 t₃ (Size.bytes ⟨0x1000, 1⟩) 0x1000 ⟨kernelEnd, 0⟩ =
      .ok (some 0x200000, ⟨0x201000, 0x1fd000⟩) :=
    alloc_of_search (by decide) hsearch (by decide) (by decide)
  obtain ⟨t₄, hok₄, h₄, -, -⟩ := reserve_next h₃ rfl hpage (by decide) (by decide)
    (fun x hx => .inr (hslots x hx)) (by decide)
  have hnothing : alloc pml4 t₄ (Size.bytes ⟨0x200000, 0⟩) 0x200000 ⟨0x201000, 0x1fd000⟩ =
      .ok (some 0x400000, ⟨0x400000, 0xffffffffffffe000⟩) :=
    alloc_of_room (by decide) (by decide)
  obtain ⟨t₅, hok₅, -⟩ := reserve_next h₄ rfl hnothing (by decide) (by decide)
    (fun x hx => absurd (hx.1.trans_lt hx.2) (by decide)) (by decide)
  obtain ⟨reserved, granted, hreach⟩ := (hreach.reserve hok₄).reserve hok₅
  refine ⟨_, hreach, fun h => absurd h.1 ?_⟩
  show ¬ (0x400000 : Word).toNat + (0xffffffffffffe000 : Word).toNat ≤ kernelEnd.toNat
  decide

end Anarch.KernelRequests
