import Anarch.FreeListFit
import Anarch.UserMapReserve
import Anarch.GlobalMapBooking

/-! What a successful `Reserve` of either map takes: all bytes of its pages, unless their number
passes 2^64 and the product that is compared and cut off is only its remainder. -/
namespace Anarch.FreeList
open IntervalCover

section
variable {regions out : List Region} {pageSize pageCount : Word} {addr : VirtAddr}

/-- What `AllocInRegion` takes is off the list, also where it only moves `start`, and with it
the end of the region. -/
lemma allocInRegion_off {reg requested : Region} {next : List Region}
    (h : WellFormed (reg :: next)) (hq : requested.Fits)
    (hin : reg.span.1 ≤ requested.span.1 ∧ requested.span.2 ≤ reg.span.2)
    (hok : allocInRegion reg next requested = .ok out) :
    Disjoint (Set.Ico requested.span.1 requested.span.2) (addresses out) := by
  cases hfront : reg.takesFront requested with
  | false =>
    obtain ⟨out', hout, -, haddr⟩ := allocInRegion_wellFormed h hq hin hfront
    obtain rfl := Except.ok.inj (hok.symm.trans hout)
    rw [haddr]
    exact Set.disjoint_sdiff_right
  | true =>
    obtain ⟨hstarted, hfill⟩ := Bool.and_eq_true_iff.mp hfront
    rw [Bool.not_eq_true'] at hfill
    rw [allocInRegion, if_neg (by simp [hfill]), if_pos hstarted] at hok
    obtain rfl := Except.ok.inj hok
    have hstart : requested.start = reg.start := by simpa [Region.isStartedBy] using hstarted
    have hmoved : requested.span.2 ≤ (reg.start + requested.size).toNat := by
      have hne : requested.size ≠ reg.size := by
        intro hsize
        simp [Region.isFilledBy, hstart, hsize] at hfill
      have hend := hin.2
      have hfits := h.head.2
      rw [Region.span_snd, Region.span_snd, hstart] at hend
      rw [Region.span_snd, hstart]
      bv_omega
    rw [addresses_cons, Set.disjoint_union_right]
    constructor
    · rw [Set.disjoint_left]
      rintro x hx hx'
      exact absurd hx'.1 (not_le.mpr (hx.2.trans_le hmoved))
    · exact h.disjoint_head.mono_left (Set.Ico_subset_Ico hin.1 hin.2)

lemma alloc_inside_off (h : WellFormed regions) (hn : NoWrap pageSize pageCount)
    (hok : alloc pageSize pageCount regions = .ok (addr, out)) (hne : addr ≠ 0) :
    Set.Ico addr.toNat (addr.toNat + pageSize.toNat * pageCount.toNat) ⊆ addresses regions ∧
      Disjoint (Set.Ico addr.toNat (addr.toNat + pageSize.toNat * pageCount.toNat))
        (addresses out) := by
  induction regions generalizing out with
  | nil => exact absurd (Prod.mk.inj (Except.ok.inj hok)).1.symm hne
  | cons reg next ih =>
    rcases alloc_cons_eq_ok hok with ⟨hroom, rfl, -, hout⟩ | ⟨-, rest, hrest, rfl⟩
    · obtain ⟨hfits, hin⟩ := request_inside h.head hn hroom
      have hoff := allocInRegion_off h hfits hin hout
      have hsize : (reg.request pageSize pageCount).size.toNat =
        pageSize.toNat * pageCount.toNat := hn.bytes_toNat
      rw [Region.span_fst, Region.span_snd, hsize] at hin hoff
      rw [addresses_cons]
      exact ⟨(Set.Ico_subset_Ico hin.1 hin.2).trans Set.subset_union_left, hoff⟩
    · obtain ⟨hin, hoff⟩ := ih h.tail hrest
      rw [addresses_cons, addresses_cons, Set.disjoint_union_right]
      exact ⟨hin.trans Set.subset_union_right, (h.disjoint_head.mono_right hin).symm, hoff⟩

lemma alloc_congr {pageCount' : Word} (h : pageSize * pageCount = pageSize * pageCount') :
    alloc pageSize pageCount regions = alloc pageSize pageCount' regions := by
  induction regions with
  | nil => rfl
  | cons reg next ih => simp only [alloc, Region.canHold, Region.hasRoom, h, ih]

lemma alloc_zero_bytes (hzero : pageSize * pageCount = 0)
    (hok : alloc pageSize pageCount regions = .ok (addr, out)) : addr = 0 := by
  induction regions generalizing out with
  | nil => exact (Prod.mk.inj (Except.ok.inj hok)).1.symm
  | cons reg next ih =>
    rcases alloc_cons_eq_ok hok with ⟨-, -, hnew, -⟩ | ⟨-, rest, hrest, -⟩
    · rw [hzero] at hnew
      rcases (Region.new_eq_ok.mp hnew).1 with hlt | hend
      · exact absurd hlt (by simp)
      · simpa using hend
    · exact ih hrest

lemma alloc_no_room (hroom : ∀ r ∈ regions, r.hasRoom pageSize pageCount = false)
    (hok : alloc pageSize pageCount regions = .ok (addr, out)) : addr = 0 := by
  refine (alloc_eq_ok hok).resolve_right ?_
  rintro ⟨r, hfind, -⟩
  have hr := hroom r (List.mem_of_find?_eq_some hfind)
  rw [List.find?_some hfind] at hr
  cases hr

/-- A request is granted whenever a region has room for the product, for page sizes that divide
2^64: what is cut off is then a whole number of pages. -/
lemma alloc_of_room (h : WellFormed regions) (hstart : ∀ r ∈ regions, r.start ≠ 0)
    (hp : 0 < pageSize.toNat) (hd : pageSize.toNat ∣ 2 ^ 64) (hbytes : pageSize * pageCount ≠ 0)
    {reg : Region} (hreg : reg ∈ regions) (hroom : reg.hasRoom pageSize pageCount = true) :
    ∃ addr out, alloc pageSize pageCount regions = .ok (addr, out) ∧ addr ≠ 0 := by
  have hlt : (pageSize * pageCount).toNat < 2 ^ 64 := (pageSize * pageCount).isLt
  have hdvd : pageSize.toNat ∣ (pageSize * pageCount).toNat := by
    rw [BitVec.toNat_mul, Nat.dvd_mod_iff hd]
    exact Nat.dvd_mul_right _ _
  have hmul : pageSize.toNat * (pageSize * pageCount / pageSize).toNat =
      (pageSize * pageCount).toNat := by
    rw [BitVec.toNat_udiv, Nat.mul_div_cancel' hdvd]
  have hsame : pageSize * pageCount = pageSize * (pageSize * pageCount / pageSize) := by
    apply BitVec.eq_of_toNat_eq
    rw [BitVec.toNat_mul pageSize (pageSize * pageCount / pageSize), hmul, Nat.mod_eq_of_lt hlt]
  have hcount : 0 < (pageSize * pageCount / pageSize).toNat := by
    refine Nat.pos_of_ne_zero fun hzero => hbytes (BitVec.eq_of_toNat_eq ?_)
    rw [← hmul, hzero, Nat.mul_zero]
    rfl
  have hn := noWrap_of_dvd hp hcount hd (by rw [hmul]; exact hlt)
  rw [Region.hasRoom, hsame, ← Region.hasRoom] at hroom
  rw [alloc_congr hsame]
  obtain ⟨addr, out, hok, ⟨-, hnone⟩ | ⟨hne, -⟩⟩ := alloc_finds h hn hstart
  · obtain ⟨-, hlow, hhigh⟩ := request_inside (h.fits reg hreg) hn hroom
    have hfits : (reg.request pageSize (pageSize * pageCount / pageSize)).start.toNat ∈
        fits regions pageSize (pageSize * pageCount / pageSize) := by
      refine ⟨(request_isLeast (h.fits reg hreg) hn hroom).1.2, ?_⟩
      rw [← hn.bytes_toNat]
      exact (Set.Ico_subset_Ico hlow hhigh).trans (subset_cover (List.mem_map_of_mem hreg))
    exact absurd hfits (hnone ▸ Set.notMem_empty _)
  · exact ⟨addr, out, hok, hne⟩

end

end Anarch.FreeList

namespace Anarch.UserMap
open PageTable TransitionRun
open FreeList (Positive WellFormed NoWrap allocTakesFront allocAtTakesFront)

section
variable {α : Type}

/-- The pages of the range were on the free list and are off it after the call. -/
structure Granted (s : State α) (addr : VirtAddr) (size : MemoryMap.Size) (t : State α) : Prop where
  free : pages addr size ⊆ FreeList.addresses s.freeList
  gone : Disjoint (pages addr size) (FreeList.addresses t.freeList)

/-- The call hands out these pages. -/
def Call.Hands (A : AllocatorOps α) (s : State α) (addr : VirtAddr) (size : MemoryMap.Size) :
    Call → Prop
  | .map phys requested attributes =>
      requested = size ∧ ∃ t, UserMap.map A phys size attributes s = .ok (some addr, t)
  | .reserve requested => requested = size ∧ ∃ t, UserMap.reserve size s = .ok (some addr, t)
  | .reserveAt start requested =>
      start = addr ∧ requested = size ∧ ∃ t, UserMap.reserveAt addr size s = .ok t
  | _ => False

/-- As long as no page of the range is given back, no later call hands one out. -/
def Kept (A : AllocatorOps α) (s : History α) (addr : VirtAddr) (size : MemoryMap.Size) : Prop :=
  ∀ t, (((historySystem A).restrict NoFront).after s).Reachable t → pages addr size ⊆ t.live →
    ∀ c start requested, Allowed t c → NoFront t (.call c) → c.Hands A t.map start requested →
      Disjoint (pages addr size) (pages start requested)

/-- The bytes fit a word, or what is left of them is nothing or more than every region holds. -/
def Unwrapped (s : State α) (size : MemoryMap.Size) : Prop :=
  size.span < 2 ^ 64 ∨ size.bytes = 0 ∨
    ∀ r ∈ s.freeList, r.hasRoom size.pageSize size.pageCount = false

variable {A : AllocatorOps α} {s t : History α} {addr : VirtAddr} {size : MemoryMap.Size}

lemma pages_of_no_pages (hcount : size.pageCount.toNat = 0) : pages addr size = ∅ := by
  rw [pages, MemoryMap.Size.span, hcount, Nat.mul_zero, Nat.add_zero, Set.Ico_self]

lemma alloc_of_reserve {s t : State α} (h : reserve size s = .ok (some addr, t)) :
    addr ≠ 0 ∧ FreeList.alloc size.pageSize size.pageCount s.freeList = .ok (addr, t.freeList) := by
  obtain ⟨found, freeList, halloc, ⟨-, hnone⟩ | ⟨hne, haddr⟩, rfl⟩ := reserve_eq_ok h
  · cases hnone
  · obtain rfl := Option.some.inj haddr
    exact ⟨hne, halloc⟩

lemma alloc_of_map {s t : State α} {phys : PhysAddr} {attributes : MemoryMap.Attributes}
    (h : map A phys size attributes s = .ok (some addr, t)) :
    addr ≠ 0 ∧ FreeList.alloc size.pageSize size.pageCount s.freeList = .ok (addr, t.freeList) := by
  obtain ⟨found, freeList, halloc, ⟨-, hnone, -⟩ | ⟨hne, haddr, w, table, -, rfl⟩⟩ := map_eq_ok h
  · cases hnone
  · obtain rfl := Option.some.inj haddr
    exact ⟨hne, halloc⟩

/-- Regions end where the address space ends or before, so no range that wraps is granted. -/
lemma Granted.span_lt {s t : State α} (hwf : WellFormed s.freeList) (hne : addr ≠ 0)
    (h : Granted s addr size t) : size.span < 2 ^ 64 := by
  by_contra hspan
  have hpos : 0 < addr.toNat := Nat.pos_of_ne_zero fun hzero => hne (BitVec.eq_of_toNat_eq hzero)
  have hlast : addr.toNat + size.span - 1 ∈ pages addr size := ⟨by omega, by omega⟩
  obtain ⟨x, hx, hmem⟩ := h.free hlast
  obtain ⟨r, hr, rfl⟩ := List.mem_map.mp hx
  have hend := (hwf.fits r hr).2
  have := hmem.2
  rw [FreeList.Region.span_snd] at this
  omega

section
variable (hsize : size.pageSize = 0x1000 ∨ size.pageSize = 0x200000)
include hsize

lemma pageSize_pos_of : 0 < size.pageSize.toNat := by
  rcases hsize with hsize | hsize
  · rw [hsize]
    decide
  · rw [hsize]
    decide

lemma pageSize_dvd_of : size.pageSize.toNat ∣ 2 ^ 64 := by
  rcases hsize with hsize | hsize
  · rw [hsize]
    exact ⟨2 ^ 52, rfl⟩
  · rw [hsize]
    exact ⟨2 ^ 43, rfl⟩

lemma noWrap_of_span (hspan : size.span < 2 ^ 64) (hcount : 0 < size.pageCount.toNat) :
    NoWrap size.pageSize size.pageCount :=
  FreeList.noWrap_of_dvd (pageSize_pos_of hsize) hcount (pageSize_dvd_of hsize) hspan

lemma granted_of_span {s t : State α} (hwf : WellFormed s.freeList) (hspan : size.span < 2 ^ 64)
    (hok : reserve size s = .ok (some addr, t)) : Granted s addr size t := by
  obtain ⟨hne, halloc⟩ := alloc_of_reserve hok
  rcases Nat.eq_zero_or_pos size.pageCount.toNat with hcount | hcount
  · have hempty : pages addr size = ∅ := pages_of_no_pages hcount
    exact ⟨hempty ▸ Set.empty_subset _, hempty ▸ Set.empty_disjoint _⟩
  · obtain ⟨hin, hoff⟩ :=
      FreeList.alloc_inside_off hwf (noWrap_of_span hsize hspan hcount) halloc hne
    exact ⟨hin, hoff⟩

lemma Offers.granted_iff (h : Offers s) :
    (∀ addr t, reserve size s.map = .ok (some addr, t) → Granted s.map addr size t) ↔
      Unwrapped s.map size := by
  constructor
  · intro hall
    by_contra hnot
    simp only [Unwrapped, not_or, not_forall, Bool.not_eq_false] at hnot
    obtain ⟨hspan, hbytes, reg, hreg, hroom⟩ := hnot
    have hstart : ∀ r ∈ s.map.freeList, r.start ≠ 0 := by
      intro r hr hzero
      have hin := IntervalCover.subset_cover (List.mem_map_of_mem (f := FreeList.Region.span) hr)
      refine h.zero_notMem (hin ⟨?_, ?_⟩)
      · rw [FreeList.Region.span_fst, hzero]
        exact le_rfl
      · rw [FreeList.Region.span_snd]
        exact Nat.add_pos_right _ (h.wellFormed.fits r hr).1
    obtain ⟨addr, out, halloc, hne⟩ := FreeList.alloc_of_room h.wellFormed hstart
      (pageSize_pos_of hsize) (pageSize_dvd_of hsize) hbytes hreg hroom
    have hok : reserve size s.map = .ok (some addr, { s.map with freeList := out }) := by
      rw [reserve, halloc]
      exact congrArg (fun r => Except.ok (r, _)) (if_neg hne)
    exact hspan ((hall addr _ hok).span_lt h.wellFormed hne)
  · rintro (hspan | hbytes | hroom) addr t hok
    · exact granted_of_span hsize h.wellFormed hspan hok
    · obtain ⟨hne, halloc⟩ := alloc_of_reserve hok
      exact absurd (FreeList.alloc_zero_bytes hbytes halloc) hne
    · obtain ⟨hne, halloc⟩ := alloc_of_reserve hok
      exact absurd (FreeList.alloc_no_room hroom halloc) hne

end

lemma Offers.hands_free (h : Offers s) {c : Call} (hal : Allowed s c)
    (hfront : NoFront s (.call c)) (hc : c.Hands A s.map addr size) :
    pages addr size ⊆ FreeList.addresses s.map.freeList := by
  cases c with
  | map phys requested attributes =>
    obtain ⟨rfl, t, hok⟩ := hc
    obtain ⟨hne, halloc⟩ := alloc_of_map hok
    exact (FreeList.alloc_inside_off h.wellFormed ⟨hal.1, hal.2.1, hfront.1⟩ halloc hne).1
  | reserve requested =>
    obtain ⟨rfl, t, hok⟩ := hc
    obtain ⟨hne, halloc⟩ := alloc_of_reserve hok
    exact (FreeList.alloc_inside_off h.wellFormed ⟨hal.1, hal.2.1, hfront.1⟩ halloc hne).1
  | reserveAt start requested =>
    obtain ⟨rfl, rfl, t, hok⟩ := hc
    obtain ⟨freeList, halloc, -⟩ := reserveAt_eq_ok hok
    rcases FreeList.allocAt_spec h.wellFormed hal hfront halloc with ⟨-, htaken⟩ | ⟨hfalse, -⟩
    · exact htaken.inside
    · cases hfalse
  | mapAt | unmap | unmapAndReserve | unreserve => exact hc.elim

lemma kept_of_reachable (h : ((historySystem A).restrict NoFront).Reachable s) :
    Kept A s addr size := by
  intro t ht hlive c start requested hal hfront hc
  have hs := Offers.of_reachable (h.append ht)
  have hin := hs.hands_free hal hfront hc
  rw [hs.exact] at hin
  exact Set.disjoint_sdiff_right.mono hlive hin

lemma reserve_kept (hsize : size.pageSize = 0x1000 ∨ size.pageSize = 0x200000)
    (h : ((historySystem A).restrict NoFront).Reachable s) (hspan : size.span < 2 ^ 64)
    (hfront : allocTakesFront size.pageSize size.pageCount s.map.freeList = false) {map : State α}
    (hok : reserve size s.map = .ok (some addr, map)) :
    Kept A ⟨map, s.live ∪ pages addr size⟩ addr size := by
  rcases Nat.eq_zero_or_pos size.pageCount.toNat with hcount | hcount
  · intro t _ _ c start requested _ _ _
    rw [pages_of_no_pages hcount]
    exact Set.empty_disjoint _
  · have hn := noWrap_of_span hsize hspan hcount
    have hexec : s.exec A (.reserve size) = .ok ⟨map, s.live ∪ pages addr size⟩ := by
      rw [History.exec, hok]
      rfl
    exact kept_of_reachable (h.next (a := .call (.reserve size))
      ⟨⟨hn.2.2, hfront⟩, ⟨hn.1, hcount, hspan⟩, hexec⟩)

end

end Anarch.UserMap

namespace Anarch.GlobalMap
open PageTable FreeFinder RadixTree TransitionRun

section
variable {α : Type}

/-- The pages of the range had no entry, and have one after the call; the candidate is
elsewhere. -/
structure Granted (s : State α) (addr : VirtAddr) (size : MemoryMap.Size) (t : State α) : Prop where
  free : Free s.table.booked addr size
  booked : ∀ x ∈ addresses addr size.span, t.table.booked x = some size.pageSize
  candidate : t.finder.Within (addresses addr size.span)ᶜ

/-- The call hands out these pages. -/
def Call.Hands (A : AllocatorOps α) (s : State α) (addr : VirtAddr) (size : MemoryMap.Size) :
    Call → Prop
  | .map phys requested attributes =>
      requested = size ∧ ∃ t, GlobalMap.map A phys size attributes s = .ok (some addr, t)
  | .reserve requested => requested = size ∧ ∃ t, GlobalMap.reserve A size s = .ok (some addr, t)
  | _ => False

/-- As long as every page of the range is held, no later call hands one out. -/
def Kept (A : AllocatorOps α) (used : α → Set Frame) (H : History α) (addr : VirtAddr)
    (size : MemoryMap.Size) : Prop :=
  ∀ G, (((system A used).restrict Safe).after H).Reachable G →
    (∀ x ∈ addresses addr size.span, G.ledger x ≠ none) →
    ∀ c start requested, Safe G c → c.Hands A G.map start requested →
      Disjoint (addresses addr size.span) (addresses start requested.span)

/-- If the candidate has no room, no 4 KiB page is reserved, and a request for nothing does not
move the candidate past its end. -/
def FinderReady (s : State α) (size : MemoryMap.Size) : Prop :=
  (s.finder.canAllocate size.bytes size.pageSize ≠ .ok true → NoSmallReserved s) ∧
    (size.bytes = 0 → s.finder.Fits size.bytes size.pageSize)

variable {A : AllocatorOps α} {used : α → Set Frame} {H : History α} {s t : State α}
variable {L : Ledger} {addr : VirtAddr} {size : MemoryMap.Size}

lemma Free.span_lt (h : Free L addr size) : size.span < 2 ^ 64 := by
  have hK : kernelEnd.toNat = 2 ^ 39 := rfl
  have hend := h.1
  omega

lemma Free.mem_kernelAddresses (h : Free L addr size) {x : VirtAddr}
    (hx : x ∈ addresses addr size.span) : x ∈ kernelAddresses := hx.2.trans_le h.1

lemma Booked.granted (hA : FrameContract A used) (h : Booked used L s)
    (hsafe : AllocSafe s size size.pageSize) (hok : GlobalMap.reserve A size s = .ok (some addr, t)) :
    Granted s addr size t := by
  obtain ⟨hbooked, hall⟩ := h.reserve hA hsafe hok
  have hfree := hall addr rfl
  refine ⟨⟨hfree.1, fun x hx => ?_⟩, fun x hx => ?_, hbooked.finder.mono fun x hnone hx => ?_⟩
  · rw [h.books.booked (hfree.mem_kernelAddresses hx)]
    exact hfree.2 x hx
  · rw [hbooked.books.booked (hfree.mem_kernelAddresses hx)]
    exact overwrite_of_mem hx
  · exact Option.some_ne_none _ ((overwrite_of_mem hx).symm.trans hnone)

lemma Booked.granted_iff (hA : FrameContract A used) (h : Booked used L s)
    (hready : FinderReady s size) (hok : GlobalMap.reserve A size s = .ok (some addr, t)) :
    Granted s addr size t ↔ size.span < 2 ^ 64 :=
  ⟨fun hgranted => hgranted.free.span_lt, fun hspan => h.granted hA ⟨hspan, hready⟩ hok⟩

lemma Booked.hands_free (hA : FrameContract A used) (h : Booked used L s) {c : Call}
    (hsafe : Safe ⟨s, L⟩ c) (hc : c.Hands A s addr size) : Free L addr size := by
  cases c with
  | map phys requested attributes =>
    obtain ⟨rfl, t, hok⟩ := hc
    exact (h.map hA hsafe hok).2 addr rfl
  | reserve requested =>
    obtain ⟨rfl, t, hok⟩ := hc
    exact (h.reserve hA hsafe hok).2 addr rfl
  | mapAt | unmap | unmapAndReserve | reserveAt | unreserve | rereserve => exact hc.elim

lemma kept_of_reachable (hA : FrameContract A used)
    (h : ((system A used).restrict Safe).Reachable H) : Kept A used H addr size := by
  intro G hG hheld c start requested hsafe hc
  have hfree := (reachable_booked hA (h.append hG)).hands_free hA hsafe hc
  rw [Set.disjoint_left]
  exact fun x hx hx' => hheld x hx (hfree.2 x hx')

lemma reserve_kept (hA : FrameContract A used)
    (h : ((system A used).restrict Safe).Reachable H) (hspan : size.span < 2 ^ 64)
    (hready : FinderReady H.map size) (hok : GlobalMap.reserve A size H.map = .ok (some addr, t)) :
    Kept A used ⟨t, overwrite addr size.span (some size.pageSize) H.ledger⟩ addr size :=
  kept_of_reachable hA (h.next (a := .reserve size)
    ⟨⟨hspan, hready⟩, trivial, some addr, hok, rfl⟩)

end

end Anarch.GlobalMap

namespace Anarch.MemoryMap
open PageTable

/-- In every run in which no call takes a front part or wraps, a success of `UserMap::Reserve` is
for all the bytes of its pages exactly when no wrap is granted, and these stay taken if they are
no front part. The same holds of `GlobalMap::Reserve` where the free finder is ready for it. -/
theorem reserve_takes_every_byte {α : Type} {A : AllocatorOps α} {used : α → Set Frame}
    (hA : FrameContract A used) :
    (∀ s, ((UserMap.historySystem A).restrict UserMap.NoFront).Reachable s → ∀ size : Size,
      size.pageSize = 0x1000 ∨ size.pageSize = 0x200000 →
      ((∀ addr t, UserMap.reserve size s.map = .ok (some addr, t) →
        UserMap.Granted s.map addr size t) ↔ UserMap.Unwrapped s.map size) ∧
      ∀ addr t, UserMap.reserve size s.map = .ok (some addr, t) → size.span < 2 ^ 64 →
        FreeList.allocTakesFront size.pageSize size.pageCount s.map.freeList = false →
        UserMap.Kept A ⟨t, s.live ∪ UserMap.pages addr size⟩ addr size) ∧
    ∀ H, ((GlobalMap.system A used).restrict GlobalMap.Safe).Reachable H → ∀ size addr t,
      GlobalMap.FinderReady H.map size →
      GlobalMap.reserve A size H.map = .ok (some addr, t) →
      (GlobalMap.Granted H.map addr size t ↔ size.span < 2 ^ 64) ∧
      (size.span < 2 ^ 64 → GlobalMap.Kept A used
        ⟨t, overwrite addr size.span (some size.pageSize) H.ledger⟩ addr size) := by
  constructor
  · intro s hs size hsize
    exact ⟨(UserMap.Offers.of_reachable hs).granted_iff hsize,
      fun addr t hok hspan hfront => UserMap.reserve_kept hsize hs hspan hfront hok⟩
  · intro H hH size addr t hready hok
    exact ⟨(GlobalMap.reachable_booked hA hH).granted_iff hA hready hok,
      fun hspan => GlobalMap.reserve_kept hA hH hspan hready hok⟩

/-- The page in front of one that is handed out, and the page behind the kernel. -/
theorem reserve_takes_every_byte_page :
    (∃ s t, ((UserMap.historySystem nextFrame).restrict UserMap.NoFront).Reachable s ∧
      UserMap.reserve ⟨0x1000, 1⟩ s.map = .ok (some 0x8000000000, t) ∧
      UserMap.Granted s.map 0x8000000000 ⟨0x1000, 1⟩ t ∧
      UserMap.Kept nextFrame ⟨t, s.live ∪ UserMap.pages 0x8000000000 ⟨0x1000, 1⟩⟩ 0x8000000000
        ⟨0x1000, 1⟩) ∧
    ∃ H t, (GlobalMap.system nextFrame firstFrames).start H ∧
      GlobalMap.reserve nextFrame ⟨0x1000, 1⟩ H.map = .ok (some 0x200000, t) ∧
      GlobalMap.Granted H.map 0x200000 ⟨0x1000, 1⟩ t ∧
      GlobalMap.Kept nextFrame firstFrames
        ⟨t, overwrite 0x200000 0x1000 (some 0x1000) H.ledger⟩ 0x200000 ⟨0x1000, 1⟩ := by
  obtain ⟨huser, hkernel⟩ := reserve_takes_every_byte nextFrame_contract
  constructor
  · have hreach := UserMap.call_reachable (.reserveAt 0x8000001000 ⟨0x1000, 1⟩)
      (UserMap.firstMap_history UserMap.NoFront)
      (show FreeList.allocAtTakesFront _ _ = false by decide) UserMap.page_positive rfl
    obtain ⟨hiff, hkept⟩ := huser _ hreach ⟨0x1000, 1⟩ (.inl rfl)
    exact ⟨_, _, hreach, rfl, hiff.mpr (.inl (by decide)) _ _ rfl,
      hkept _ _ rfl (by decide) (by decide)⟩
  · obtain ⟨t₀, t₁, -, h₀, h₁, -, hfind, -⟩ := GlobalMap.firstRun_tables
    have hboot := GlobalMap.boot_books h₀
    have hok := GlobalMap.first_reserve hboot hfind h₁
    have hready : GlobalMap.FinderReady ⟨t₀, 0x1000, ⟨0, 0⟩⟩ ⟨0x1000, 1⟩ :=
      ⟨fun _ => GlobalMap.boot_noSmallReserved hboot hfind, fun h => absurd h (by decide)⟩
    have hstart := GlobalMap.bootHistory_start hboot
    obtain ⟨hiff, hkept⟩ := hkernel _ (.start hstart) _ _ _ hready hok
    exact ⟨_, _, hstart, hok, hiff.mpr (by decide), hkept (by decide)⟩

/-- A new map grants 2^43 + 1 pages of 2 MiB, though not all of them are free, and hands out the
second of them in the next call. -/
theorem wrapped_reserve_takes_one_page : ∃ s t u,
    ((UserMap.historySystem nextFrame).restrict UserMap.NoFront).Reachable s ∧
    UserMap.reserve ⟨0x200000, 0x80000000001⟩ s.map = .ok (some 0x8000000000, t) ∧
    ¬ UserMap.pages 0x8000000000 ⟨0x200000, 0x80000000001⟩ ⊆
      FreeList.addresses s.map.freeList ∧
    UserMap.reserve ⟨0x200000, 1⟩ t = .ok (some 0x8000200000, u) ∧
    UserMap.pages 0x8000200000 ⟨0x200000, 1⟩ ⊆
      UserMap.pages 0x8000000000 ⟨0x200000, 0x80000000001⟩ := by
  have hs := UserMap.firstMap_history UserMap.NoFront
  refine ⟨_, _, _, hs, rfl, fun hin => ?_, rfl, Set.Ico_subset_Ico (by decide) (by decide)⟩
  have hlast := hin (a := 2 ^ 64) ⟨by decide, by decide⟩
  obtain ⟨x, hx, hmem⟩ := hlast
  obtain ⟨r, hr, rfl⟩ := List.mem_map.mp hx
  exact absurd (hmem.2.trans_le ((UserMap.Offers.of_reachable hs).wellFormed.fits r hr).2)
    (lt_irrefl _)

end Anarch.MemoryMap
