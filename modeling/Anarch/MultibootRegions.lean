import Anarch.ByteMemory
import Anarch.IntervalCover
import Anarch.TransitionRun

/-! The Multiboot memory map, translated into the lower and the upper region list. -/
namespace Anarch.MultibootRegionList
open IntervalCover TransitionRun

/-- `MultibootMmapInfo`, a packed structure. -/
structure MmapInfo where
  size : BitVec 32
  baseAddr : Word
  length : Word
  type : BitVec 32
  deriving DecidableEq, Repr

def readInfo (mem : ByteMemory) (info : Word) : MmapInfo where
  size := mem.load32 info
  baseAddr := mem.load64 (info + 4)
  length := mem.load64 (info + 12)
  type := mem.load32 (info + 20)

/-- `ANAlloc::Region`. -/
structure Region where
  start : Word
  len : Word
  deriving DecidableEq, Repr

structure Lists where
  lowerRegions : List Region
  upperRegions : List Region
  deriving DecidableEq, Repr

/-- `FixedRegionList::Insert`: `none` where it returns false. -/
abbrev Insert := Region → ℕ → List Region → Option (List Region)

/-- The first index whose region starts later, else the count. -/
def insertIndex (region : Region) (list : List Region) : ℕ :=
  list.findIdx fun r => region.start < r.start

def addTo (insert : Insert) (region : Region) (list : List Region) : Outcome (List Region) :=
  match insert region (insertIndex region list) list with
  | none => .error (.panic "MultibootRegionList::AddRegion() - region overflow")
  | some list => .ok list

def addRegion (insert : Insert) (region : Region) (lists : Lists) : Outcome Lists :=
  if region.start < 0x100000000 then do
    return { lists with lowerRegions := ← addTo insert region lists.lowerRegions }
  else do
    return { lists with upperRegions := ← addTo insert region lists.upperRegions }

/-- The body of the constructor's loop, for one entry. -/
def addInfo (insert : Insert) (info : MmapInfo) (lists : Lists) : Outcome Lists :=
  if info.type ≠ 1 then .ok lists
  else if info.baseAddr + info.length ≤ 0x100000 then .ok lists
  else
    let start := if info.baseAddr ≤ 0x100000 then 0 else info.baseAddr
    let len := if info.baseAddr ≤ 0x100000 then info.length + info.baseAddr else info.length
    if start < 0x100000000 ∧ 0x100000000 < start + len then do
      let lowSize := 0x100000000 - start
      let lists ← addRegion insert ⟨start, lowSize⟩ lists
      addRegion insert ⟨0x100000000, len - lowSize⟩ lists
    else addRegion insert ⟨start, len⟩ lists

/-- The loop variables of the constructor. -/
structure Scan where
  next : Word
  mmapLen : BitVec 32
  lists : Lists

def scanBody (mem : ByteMemory) (insert : Insert) (s : Scan) : Scan ⊕ Outcome Lists :=
  if s.mmapLen = 0 then .inr (.ok s.lists)
  else
    let info := readInfo mem s.next
    match addInfo insert info s.lists with
    | .error e => .inr (.error e)
    | .ok lists =>
        .inl ⟨s.next + info.size.setWidth 64 + 4, s.mmapLen - (info.size + 4), lists⟩

/-- `MultibootBootInfo::mmap_length` and `mmap_addr`. -/
def mmapLength (mem : ByteMemory) (mbootPtr : Word) : BitVec 32 := mem.load32 (mbootPtr + 44)
def mmapAddr (mem : ByteMemory) (mbootPtr : Word) : BitVec 32 := mem.load32 (mbootPtr + 48)

/-- The constructor, with at most so many rounds of its loop. -/
def multibootRegionList (rounds : ℕ) (mem : ByteMemory) (insert : Insert) (mbootPtr : Word) :
    Option (Outcome Lists) :=
  let mmapLen := mmapLength mem mbootPtr
  let mmapAddr := mmapAddr mem mbootPtr
  if 0x100000 < mmapAddr + mmapLen then
    some (.error (.panic "GRUB memory map is placed beyond 1MB -- might be destroyed!"))
  else
    (loop (scanBody mem insert) rounds ⟨mmapAddr.setWidth 64, mmapLen, ⟨[], []⟩⟩).map fun result => do
      let lists ← result
      if lists.lowerRegions = [] then
        .error (.panic "MultibootRegionList::Initialize() - no lower regions found")
      else return lists

/-- The addresses of a region, as a start and an end. -/
def Region.span (r : Region) : ℕ × ℕ := (r.start.toNat, r.start.toNat + r.len.toNat)

namespace MmapInfo

def last (e : MmapInfo) : ℕ := e.baseAddr.toNat + e.length.toNat

/-- A usable range that ends above 1 MiB. -/
def Kept (e : MmapInfo) : Prop := e.type = 1 ∧ 0x100000 < e.last

instance (e : MmapInfo) : Decidable e.Kept := inferInstanceAs (Decidable (_ ∧ _))

/-- Where the range starts once it is extended to address 0 if it reaches down to 1 MiB. -/
def first (e : MmapInfo) : ℕ := if e.baseAddr.toNat ≤ 0x100000 then 0 else e.baseAddr.toNat

def lowerSpan (e : MmapInfo) : Option (ℕ × ℕ) :=
  if e.Kept ∧ e.first < 0x100000000 then some (e.first, min e.last 0x100000000) else none

def upperSpan (e : MmapInfo) : Option (ℕ × ℕ) :=
  if e.Kept ∧ 0x100000000 < e.last then some (max e.first 0x100000000, e.last) else none

/-- A usable range is not empty and ends below `2 ^ 64`. -/
def Proper (e : MmapInfo) : Prop := e.type = 1 → 0 < e.length.toNat ∧ e.last < 2 ^ 64

def DisjointFrom (a b : MmapInfo) : Prop := a.type = 1 → b.type = 1 →
  Disjoint (Set.Ico a.baseAddr.toNat a.last) (Set.Ico b.baseAddr.toNat b.last)

end MmapInfo

/-- The memory from an address on is a concatenation of these entries, of this total length. -/
def Entries (mem : ByteMemory) : Word → ℕ → List MmapInfo → Prop
  | _, len, [] => len = 0
  | addr, len, e :: infos =>
      readInfo mem addr = e ∧ 20 ≤ e.size.toNat ∧ e.size.toNat + 4 ≤ len ∧
        Entries mem (addr + e.size.setWidth 64 + 4) (len - (e.size.toNat + 4)) infos

/-- The ranges of the entries: proper, disjoint, and at most 8 pieces in each list. -/
structure WellFormed (infos : List MmapInfo) : Prop where
  proper : ∀ e ∈ infos, e.Proper
  disjoint : infos.Pairwise MmapInfo.DisjointFrom
  lower_le : (infos.filterMap MmapInfo.lowerSpan).length ≤ 8
  upper_le : (infos.filterMap MmapInfo.upperSpan).length ≤ 8

/-- `Insert` inserts at the index it is given while the list has room. -/
def InsertsAt (insert : Insert) : Prop := ∀ region i (list : List Region),
  list.length < 8 → i ≤ list.length → insert region i list = some (list.insertIdx i region)

section
variable {insert : Insert}

lemma span_insertIndex (region : Region) (list : List Region) :
    (list.insertIdx (insertIndex region list) region).map Region.span =
      insertSpan region.span (list.map Region.span) := by
  rw [List.map_insertIdx, insertSpan, List.findIdx_map]
  rfl

lemma addTo_ok (hinsert : InsertsAt insert) (region : Region) {list : List Region}
    (hroom : list.length < 8) : ∃ list', addTo insert region list = .ok list' ∧
      list'.map Region.span = insertSpan region.span (list.map Region.span) := by
  refine ⟨_, ?_, span_insertIndex region list⟩
  have hcall := hinsert region (insertIndex region list) list hroom List.findIdx_le_length
  rw [addTo, hcall]

/-- A list with at most one more span than before. -/
def Extends (old new : List Region) (s : Option (ℕ × ℕ)) : Prop :=
  new.map Region.span = s.elim (old.map Region.span) (insertSpan · (old.map Region.span))

section
variable {region : Region} {span : ℕ × ℕ} (hinsert : InsertsAt insert) (lists : Lists)
variable (hspan : region.span = span)
include hinsert hspan

lemma addRegion_lower (hlow : span.1 < 0x100000000) (hroom : lists.lowerRegions.length < 8) :
    ∃ lower, addRegion insert region lists = .ok { lists with lowerRegions := lower } ∧
      Extends lists.lowerRegions lower (some span) := by
  subst hspan
  have hstart : region.start < 0x100000000 := hlow
  obtain ⟨lower, hadd, hmap⟩ := addTo_ok hinsert region hroom
  exact ⟨lower, by rw [addRegion, if_pos hstart, hadd]; rfl, hmap⟩

lemma addRegion_upper (hhigh : 0x100000000 ≤ span.1) (hroom : lists.upperRegions.length < 8) :
    ∃ upper, addRegion insert region lists = .ok { lists with upperRegions := upper } ∧
      Extends lists.upperRegions upper (some span) := by
  subst hspan
  have hstart : ¬region.start < 0x100000000 := Nat.not_lt.mpr hhigh
  obtain ⟨upper, hadd, hmap⟩ := addTo_ok hinsert region hroom
  exact ⟨upper, by rw [addRegion, if_neg hstart, hadd]; rfl, hmap⟩

end

namespace MmapInfo
variable {e : MmapInfo}

def startWord (e : MmapInfo) : Word := if e.baseAddr ≤ 0x100000 then 0 else e.baseAddr

def lenWord (e : MmapInfo) : Word :=
  if e.baseAddr ≤ 0x100000 then e.length + e.baseAddr else e.length

lemma startWord_toNat : e.startWord.toNat = e.first := by
  unfold startWord first
  by_cases h : e.baseAddr ≤ 0x100000
  · rw [if_pos h, if_pos (show e.baseAddr.toNat ≤ 0x100000 from h)]
    rfl
  · rw [if_neg h, if_neg (show ¬e.baseAddr.toNat ≤ 0x100000 from h)]

lemma lenWord_toNat (hlast : e.last < 2 ^ 64) : e.lenWord.toNat = e.last - e.first := by
  have hsum : (e.length + e.baseAddr).toNat = e.last := by
    rw [BitVec.toNat_add_of_lt (by rwa [Nat.add_comm]), Nat.add_comm]
    rfl
  unfold lenWord first
  by_cases h : e.baseAddr ≤ 0x100000
  · rw [if_pos h, if_pos (show e.baseAddr.toNat ≤ 0x100000 from h)]
    exact hsum
  · rw [if_neg h, if_neg (show ¬e.baseAddr.toNat ≤ 0x100000 from h)]
    exact (Nat.add_sub_cancel_left _ _).symm

lemma first_le_base : e.first ≤ e.baseAddr.toNat := by
  unfold first
  split_ifs
  · exact Nat.zero_le _
  · exact le_rfl

lemma first_lt_last (hp : e.Proper) (htype : e.type = 1) : e.first < e.last :=
  first_le_base.trans_lt (Nat.lt_add_of_pos_right (hp htype).1)

lemma span_whole (hp : e.Proper) (htype : e.type = 1) :
    Region.span ⟨e.startWord, e.lenWord⟩ = (e.first, e.last) := by
  have hlt := first_lt_last hp htype
  simp only [Region.span, startWord_toNat, lenWord_toNat (hp htype).2]
  congr 1
  omega

lemma span_pieces (hp : e.Proper) (htype : e.type = 1) (hlow : e.first < 0x100000000)
    (hhigh : 0x100000000 < e.last) :
    Region.span ⟨e.startWord, 0x100000000 - e.startWord⟩ = (e.first, 0x100000000) ∧
    Region.span ⟨0x100000000, e.lenWord - (0x100000000 - e.startWord)⟩ =
      (0x100000000, e.last) := by
  have hlast := (hp htype).2
  have hstart : e.startWord.toNat = e.first := startWord_toNat
  have hlen := lenWord_toNat hlast
  have hcut : (0x100000000 - e.startWord).toNat = 0x100000000 - e.first := by
    rw [BitVec.toNat_sub_of_le (by rw [BitVec.le_def, hstart]; exact hlow.le), hstart]
    rfl
  have hrest : (e.lenWord - (0x100000000 - e.startWord)).toNat = e.last - 0x100000000 := by
    rw [BitVec.toNat_sub_of_le (by rw [BitVec.le_def, hcut, hlen]; omega), hcut, hlen]
    omega
  simp only [Region.span, hstart, hcut, hrest]
  exact ⟨congrArg _ (by omega), Prod.ext rfl (show 0x100000000 + _ = _ by omega)⟩

end MmapInfo

section
variable {e : MmapInfo} (lists : Lists) (hp : e.Proper)
include hp

lemma addInfo_skip (hkept : ¬e.Kept) : addInfo insert e lists = .ok lists := by
  by_cases htype : e.type = 1
  · have hsum : (e.baseAddr + e.length).toNat = e.last := BitVec.toNat_add_of_lt (hp htype).2
    have hsmall : e.baseAddr + e.length ≤ 0x100000 := by
      rw [BitVec.le_def, hsum]
      exact not_lt.mp fun hbig => hkept ⟨htype, hbig⟩
    rw [addInfo, if_neg (not_not.mpr htype), if_pos hsmall]
  · rw [addInfo, if_pos htype]

lemma addInfo_kept (hkept : e.Kept) : addInfo insert e lists =
    if e.first < 0x100000000 ∧ 0x100000000 < e.last then
      addRegion insert ⟨e.startWord, 0x100000000 - e.startWord⟩ lists >>=
        addRegion insert ⟨0x100000000, e.lenWord - (0x100000000 - e.startWord)⟩
    else addRegion insert ⟨e.startWord, e.lenWord⟩ lists := by
  obtain ⟨htype, hbig⟩ := hkept
  have hlast := (hp htype).2
  have hlt := MmapInfo.first_lt_last hp htype
  have hsum : (e.baseAddr + e.length).toNat = e.last := BitVec.toNat_add_of_lt hlast
  have hskip : ¬e.baseAddr + e.length ≤ 0x100000 := by
    rw [BitVec.le_def, hsum]
    exact not_le.mpr hbig
  have hstart : e.startWord.toNat = e.first := MmapInfo.startWord_toNat
  have hend : (e.startWord + e.lenWord).toNat = e.last := by
    have hlen := MmapInfo.lenWord_toNat hlast
    rw [BitVec.toNat_add_of_lt (by omega)]
    omega
  have hlow : e.startWord < 0x100000000 ↔ e.first < 0x100000000 := by
    rw [BitVec.lt_def, hstart]
    rfl
  have hhigh : 0x100000000 < e.startWord + e.lenWord ↔ 0x100000000 < e.last := by
    rw [BitVec.lt_def, hend]
    rfl
  rw [addInfo, if_neg (not_not.mpr htype), if_neg hskip]
  exact if_congr (and_congr hlow hhigh) rfl rfl

lemma addInfo_ok (hinsert : InsertsAt insert)
    (hlower : e.lowerSpan.isSome → lists.lowerRegions.length < 8)
    (hupper : e.upperSpan.isSome → lists.upperRegions.length < 8) :
    ∃ lists', addInfo insert e lists = .ok lists' ∧
      Extends lists.lowerRegions lists'.lowerRegions e.lowerSpan ∧
      Extends lists.upperRegions lists'.upperRegions e.upperSpan := by
  by_cases hkept : e.Kept
  · have hwhole := MmapInfo.span_whole hp hkept.1
    rw [addInfo_kept lists hp hkept]
    by_cases hlow : e.first < 0x100000000
    · have hlowerSpan : e.lowerSpan = some (e.first, min e.last 0x100000000) :=
        if_pos ⟨hkept, hlow⟩
      have hroom := hlower (by rw [hlowerSpan]; rfl)
      by_cases hhigh : 0x100000000 < e.last
      · have hupperSpan : e.upperSpan = some (max e.first 0x100000000, e.last) :=
          if_pos ⟨hkept, hhigh⟩
        have hroom' := hupper (by rw [hupperSpan]; rfl)
        obtain ⟨hspan, hspan'⟩ := MmapInfo.span_pieces hp hkept.1 hlow hhigh
        obtain ⟨lower, hadd, hext⟩ := addRegion_lower hinsert lists hspan hlow hroom
        obtain ⟨upper, hadd', hext'⟩ := addRegion_upper hinsert
          { lists with lowerRegions := lower } hspan' le_rfl hroom'
        refine ⟨⟨lower, upper⟩, ?_, ?_, ?_⟩
        · rw [if_pos ⟨hlow, hhigh⟩, hadd]
          exact hadd'
        · rwa [hlowerSpan, min_eq_right hhigh.le]
        · rwa [hupperSpan, max_eq_right hlow.le]
      · have hupperSpan : e.upperSpan = none := if_neg fun h => hhigh h.2
        obtain ⟨lower, hadd, hext⟩ := addRegion_lower hinsert lists hwhole hlow hroom
        refine ⟨_, by rw [if_neg fun h => hhigh h.2, hadd], ?_, ?_⟩
        · rwa [hlowerSpan, min_eq_left (not_lt.mp hhigh)]
        · rw [hupperSpan]
          rfl
    · have hhigh : 0x100000000 < e.last :=
        (not_lt.mp hlow).trans_lt (MmapInfo.first_lt_last hp hkept.1)
      have hlowerSpan : e.lowerSpan = none := if_neg fun h => hlow h.2
      have hupperSpan : e.upperSpan = some (max e.first 0x100000000, e.last) :=
        if_pos ⟨hkept, hhigh⟩
      have hroom := hupper (by rw [hupperSpan]; rfl)
      obtain ⟨upper, hadd, hext⟩ := addRegion_upper hinsert lists hwhole (not_lt.mp hlow) hroom
      refine ⟨_, by rw [if_neg fun h => hlow h.1, hadd], ?_, ?_⟩
      · rw [hlowerSpan]
        rfl
      · rwa [hupperSpan, max_eq_left (not_lt.mp hlow)]
  · refine ⟨lists, addInfo_skip lists hp hkept, ?_, ?_⟩
    · rw [MmapInfo.lowerSpan, if_neg fun h => hkept h.1]
      rfl
    · rw [MmapInfo.upperSpan, if_neg fun h => hkept h.1]
      rfl

end

namespace MmapInfo
variable {a b : MmapInfo}

/-- Ranges that are kept stay disjoint when one of them is extended to address 0. -/
lemma DisjointFrom.extended (h : a.DisjointFrom b) (ha : a.Kept) (hb : b.Kept) :
    Disjoint (Set.Ico a.first a.last) (Set.Ico b.first b.last) := by
  have hd := Set.disjoint_left.mp (h ha.1 hb.1)
  have hbigA := ha.2
  have hbigB := hb.2
  rw [Set.disjoint_left]
  rintro x ⟨hxa, hxa'⟩ ⟨hxb, hxb'⟩
  have hx : ¬(a.baseAddr.toNat ≤ x ∧ b.baseAddr.toNat ≤ x) := fun ⟨h1, h2⟩ =>
    hd ⟨h1, hxa'⟩ ⟨h2, hxb'⟩
  have hmb : ¬(a.baseAddr.toNat ≤ 0x100000 ∧ b.baseAddr.toNat ≤ 0x100000) := fun ⟨h1, h2⟩ =>
    hd ⟨h1, hbigA⟩ ⟨h2, hbigB⟩
  unfold first at hxa hxb
  split_ifs at hxa hxb <;> omega

lemma lowerSpan_eq_some {e : MmapInfo} {s : ℕ × ℕ} : e.lowerSpan = some s ↔
    (e.Kept ∧ e.first < 0x100000000) ∧ (e.first, min e.last 0x100000000) = s := by
  rw [lowerSpan, Option.ite_none_right_eq_some, Option.some_inj]

lemma upperSpan_eq_some {e : MmapInfo} {s : ℕ × ℕ} : e.upperSpan = some s ↔
    (e.Kept ∧ 0x100000000 < e.last) ∧ (max e.first 0x100000000, e.last) = s := by
  rw [upperSpan, Option.ite_none_right_eq_some, Option.some_inj]

end MmapInfo

namespace WellFormed
variable {infos : List MmapInfo}

lemma sublist {part : List MmapInfo} (h : WellFormed infos) (hpart : part.Sublist infos) :
    WellFormed part where
  proper e he := h.proper e (hpart.subset he)
  disjoint := h.disjoint.sublist hpart
  lower_le := (hpart.filterMap _).length_le.trans h.lower_le
  upper_le := (hpart.filterMap _).length_le.trans h.upper_le

lemma lower_disjoint (h : WellFormed infos) :
    DisjointSpans (infos.filterMap MmapInfo.lowerSpan) := by
  refine List.pairwise_filterMap.mpr (h.disjoint.imp fun {a b} hab s hs t ht => ?_)
  obtain ⟨⟨ha, -⟩, rfl⟩ := MmapInfo.lowerSpan_eq_some.mp hs
  obtain ⟨⟨hb, -⟩, rfl⟩ := MmapInfo.lowerSpan_eq_some.mp ht
  exact (hab.extended ha hb).mono (Set.Ico_subset_Ico_right (min_le_left _ _))
    (Set.Ico_subset_Ico_right (min_le_left _ _))

lemma upper_disjoint (h : WellFormed infos) :
    DisjointSpans (infos.filterMap MmapInfo.upperSpan) := by
  refine List.pairwise_filterMap.mpr (h.disjoint.imp fun {a b} hab s hs t ht => ?_)
  obtain ⟨⟨ha, -⟩, rfl⟩ := MmapInfo.upperSpan_eq_some.mp hs
  obtain ⟨⟨hb, -⟩, rfl⟩ := MmapInfo.upperSpan_eq_some.mp ht
  exact (hab.extended ha hb).mono (Set.Ico_subset_Ico_left (le_max_left _ _))
    (Set.Ico_subset_Ico_left (le_max_left _ _))

lemma lower_proper (h : WellFormed infos) :
    IntervalCover.Proper (infos.filterMap MmapInfo.lowerSpan) := by
  intro s hs
  obtain ⟨e, he, hs⟩ := List.mem_filterMap.mp hs
  obtain ⟨⟨hkept, hlow⟩, rfl⟩ := MmapInfo.lowerSpan_eq_some.mp hs
  exact lt_min (MmapInfo.first_lt_last (h.proper e he) hkept.1) hlow

lemma upper_proper (h : WellFormed infos) :
    IntervalCover.Proper (infos.filterMap MmapInfo.upperSpan) := by
  intro s hs
  obtain ⟨e, he, hs⟩ := List.mem_filterMap.mp hs
  obtain ⟨⟨hkept, hhigh⟩, rfl⟩ := MmapInfo.upperSpan_eq_some.mp hs
  exact max_lt (MmapInfo.first_lt_last (h.proper e he) hkept.1) hhigh

end WellFormed

/-- A list of regions holds these spans, in order. -/
structure ListHolds (list : List Region) (spans : List (ℕ × ℕ)) : Prop where
  perm : (list.map Region.span).Perm spans
  ordered : Ordered (list.map Region.span)

lemma ListHolds.length_eq {list : List Region} {spans : List (ℕ × ℕ)} (h : ListHolds list spans) :
    list.length = spans.length := by
  rw [← h.perm.length_eq, List.length_map]

lemma ListHolds.extend {list list' : List Region} {spans : List (ℕ × ℕ)} {s : Option (ℕ × ℕ)}
    (h : ListHolds list spans) (hproper : IntervalCover.Proper (spans ++ s.toList))
    (hdisj : DisjointSpans (spans ++ s.toList)) (hext : Extends list list' s) :
    ListHolds list' (spans ++ s.toList) := by
  cases s with
  | none =>
    have hsame : list'.map Region.span = list.map Region.span := hext
    exact ⟨by rw [hsame]; simpa using h.perm, by rw [hsame]; exact h.ordered⟩
  | some s =>
    have hinsert : list'.map Region.span = insertSpan s (list.map Region.span) := hext
    have hperm : (spans ++ [s]).Perm (s :: list.map Region.span) :=
      (List.perm_append_singleton s spans).trans (h.perm.symm.cons s)
    refine ⟨?_, ?_⟩
    · rw [hinsert]
      exact (insertSpan_perm s _).trans hperm.symm
    · rw [hinsert]
      exact h.ordered.insertSpan (fun t ht => hproper t (hperm.mem_iff.mpr ht)) (hdisj.perm hperm)

/-- What the constructor has made of the entries it has read. -/
structure Translated (lists : Lists) (infos : List MmapInfo) : Prop where
  lower : ListHolds lists.lowerRegions (infos.filterMap MmapInfo.lowerSpan)
  upper : ListHolds lists.upperRegions (infos.filterMap MmapInfo.upperSpan)

lemma filterMap_concat {β γ : Type} (f : β → Option γ) (xs : List β) (x : β) :
    (xs ++ [x]).filterMap f = xs.filterMap f ++ (f x).toList := by
  rw [List.filterMap_append]
  cases hx : f x <;> simp [hx]

lemma Translated.addInfo {lists : Lists} {infos : List MmapInfo} {e : MmapInfo}
    (h : Translated lists infos) (hinsert : InsertsAt insert) (hwf : WellFormed (infos ++ [e])) :
    ∃ lists', addInfo insert e lists = .ok lists' ∧ Translated lists' (infos ++ [e]) := by
  have hlower := filterMap_concat MmapInfo.lowerSpan infos e
  have hupper := filterMap_concat MmapInfo.upperSpan infos e
  have hroom := hwf.lower_le
  have hroom' := hwf.upper_le
  rw [hlower, List.length_append] at hroom
  rw [hupper, List.length_append] at hroom'
  obtain ⟨lists', hadd, hext, hext'⟩ := addInfo_ok lists (hwf.proper e (by simp)) hinsert
    (fun hs => by
      obtain ⟨s, hs⟩ := Option.isSome_iff_exists.mp hs
      rw [hs, Option.toList_some, List.length_singleton] at hroom
      exact h.lower.length_eq ▸ Nat.lt_of_succ_le hroom)
    (fun hs => by
      obtain ⟨s, hs⟩ := Option.isSome_iff_exists.mp hs
      rw [hs, Option.toList_some, List.length_singleton] at hroom'
      exact h.upper.length_eq ▸ Nat.lt_of_succ_le hroom')
  refine ⟨lists', hadd, ⟨?_, ?_⟩⟩
  · rw [hlower]
    exact h.lower.extend (hlower ▸ hwf.lower_proper) (hlower ▸ hwf.lower_disjoint) hext
  · rw [hupper]
    exact h.upper.extend (hupper ▸ hwf.upper_proper) (hupper ▸ hwf.upper_disjoint) hext'

lemma Translated.scan {mem : ByteMemory} (hinsert : InsertsAt insert) (rest : List MmapInfo)
    {next : Word} {mmapLen : BitVec 32} {lists : Lists} {done : List MmapInfo}
    (h : Translated lists done) (hwf : WellFormed (done ++ rest))
    (hrest : Entries mem next mmapLen.toNat rest) :
    ∃ lists', Returns (scanBody mem insert) ⟨next, mmapLen, lists⟩ (.ok lists') ∧
      Translated lists' (done ++ rest) := by
  induction rest generalizing next mmapLen lists done with
  | nil =>
    have hzero : mmapLen = 0 := BitVec.eq_of_toNat_eq hrest
    exact ⟨lists, .exit (if_pos hzero), by simpa using h⟩
  | cons e rest ih =>
    obtain ⟨hread, hsize, hle, hrest⟩ := hrest
    have hpart : (done ++ [e]).Sublist (done ++ e :: rest) := by simp
    obtain ⟨lists', hadd, htranslated⟩ := h.addInfo hinsert (hwf.sublist hpart)
    have hlt := mmapLen.isLt
    have hne : mmapLen ≠ 0 := fun hz => by
      rw [hz] at hle
      exact absurd hle (by simp)
    have hstep : (e.size + 4).toNat = e.size.toNat + 4 := by
      rw [BitVec.toNat_add_of_lt]
      · rfl
      · change e.size.toNat + 4 < _
        omega
    have hleft : (mmapLen - (e.size + 4)).toNat = mmapLen.toNat - (e.size.toNat + 4) := by
      rw [BitVec.toNat_sub_of_le (by rw [BitVec.le_def, hstep]; exact hle), hstep]
    have hbody : scanBody mem insert ⟨next, mmapLen, lists⟩ =
        .inl ⟨next + e.size.setWidth 64 + 4, mmapLen - (e.size + 4), lists'⟩ := by
      simp only [scanBody, if_neg hne, hread, hadd]
    obtain ⟨lists'', hreturns, hdone⟩ := ih htranslated (by simpa using hwf)
      (by rw [hleft]; exact hrest)
    exact ⟨lists'', (returns_step hbody).mpr hreturns, by simpa using hdone⟩

/-- A Multiboot memory map in memory: entries that fill it exactly, below 1 MiB. -/
structure IsMap (mem : ByteMemory) (mbootPtr : Word) (infos : List MmapInfo) : Prop where
  placed : mmapAddr mem mbootPtr + mmapLength mem mbootPtr ≤ 0x100000
  entries : Entries mem ((mmapAddr mem mbootPtr).setWidth 64) (mmapLength mem mbootPtr).toNat infos

/-- Both lists are sorted and disjoint, meet at most at 4 GiB, and cover what the entries
make usable above 1 MiB, down to address 0. -/
structure Faithful (lists : Lists) (infos : List MmapInfo) : Prop where
  lower_sorted : lists.lowerRegions.Pairwise fun a b => a.start < b.start
  upper_sorted : lists.upperRegions.Pairwise fun a b => a.start < b.start
  lower_disjoint : DisjointSpans (lists.lowerRegions.map Region.span)
  upper_disjoint : DisjointSpans (lists.upperRegions.map Region.span)
  lower_end : ∀ r ∈ lists.lowerRegions, r.span.2 ≤ 0x100000000
  upper_start : ∀ r ∈ lists.upperRegions, 0x100000000 ≤ r.span.1
  exact_cover : cover ((lists.lowerRegions ++ lists.upperRegions).map Region.span) =
    {x | ∃ e ∈ infos, e.Kept ∧ e.first ≤ x ∧ x < e.last}

lemma ListHolds.sorted {list : List Region} {spans : List (ℕ × ℕ)} (h : ListHolds list spans)
    (hproper : IntervalCover.Proper spans) : list.Pairwise fun a b => a.start < b.start := by
  refine (List.pairwise_map.mp h.ordered).imp_of_mem fun {a b} ha _ hab => ?_
  have hlt := hproper a.span (h.perm.mem_iff.mp (List.mem_map_of_mem ha))
  exact hlt.trans_le hab

lemma Translated.faithful {lists : Lists} {infos : List MmapInfo} (h : Translated lists infos)
    (hwf : WellFormed infos) : Faithful lists infos where
  lower_sorted := h.lower.sorted hwf.lower_proper
  upper_sorted := h.upper.sorted hwf.upper_proper
  lower_disjoint := h.lower.ordered.disjoint
  upper_disjoint := h.upper.ordered.disjoint
  lower_end r hr := by
    obtain ⟨e, -, hs⟩ := List.mem_filterMap.mp (h.lower.perm.mem_iff.mp (List.mem_map_of_mem hr))
    obtain ⟨-, hspan⟩ := MmapInfo.lowerSpan_eq_some.mp hs
    rw [← hspan]
    exact min_le_right _ _
  upper_start r hr := by
    obtain ⟨e, -, hs⟩ := List.mem_filterMap.mp (h.upper.perm.mem_iff.mp (List.mem_map_of_mem hr))
    obtain ⟨-, hspan⟩ := MmapInfo.upperSpan_eq_some.mp hs
    rw [← hspan]
    exact le_max_right _ _
  exact_cover := by
    rw [List.map_append, cover_append, cover_perm h.lower.perm, cover_perm h.upper.perm]
    ext x
    constructor
    · rintro (⟨s, hs, hx⟩ | ⟨s, hs, hx⟩)
      · obtain ⟨e, he, hs⟩ := List.mem_filterMap.mp hs
        obtain ⟨⟨hkept, -⟩, rfl⟩ := MmapInfo.lowerSpan_eq_some.mp hs
        exact ⟨e, he, hkept, hx.1, hx.2.trans_le (min_le_left _ _)⟩
      · obtain ⟨e, he, hs⟩ := List.mem_filterMap.mp hs
        obtain ⟨⟨hkept, -⟩, rfl⟩ := MmapInfo.upperSpan_eq_some.mp hs
        exact ⟨e, he, hkept, (le_max_left _ _).trans hx.1, hx.2⟩
    · rintro ⟨e, he, hkept, hfirst, hlast⟩
      rcases lt_or_ge x 0x100000000 with hx | hx
      · exact .inl ⟨_, List.mem_filterMap.mpr ⟨e, he, MmapInfo.lowerSpan_eq_some.mpr
          ⟨⟨hkept, hfirst.trans_lt hx⟩, rfl⟩⟩, hfirst, lt_min hlast hx⟩
      · exact .inr ⟨_, List.mem_filterMap.mpr ⟨e, he, MmapInfo.upperSpan_eq_some.mpr
          ⟨⟨hkept, hx.trans_lt hlast⟩, rfl⟩⟩, max_le hfirst hx, hlast⟩

/-- The constructor returns and its lists translate the memory map faithfully, in whatever
order the entries come. -/
theorem memory_map_faithful {mem : ByteMemory} {mbootPtr : Word} {infos : List MmapInfo}
    (hinsert : InsertsAt insert) (hmap : IsMap mem mbootPtr infos) (hwf : WellFormed infos)
    (hlower : infos.filterMap MmapInfo.lowerSpan ≠ []) :
    ∃ rounds lists, multibootRegionList rounds mem insert mbootPtr = some (.ok lists) ∧
      Faithful lists infos := by
  have hempty : Translated ⟨[], []⟩ [] :=
    ⟨⟨List.Perm.nil, List.Pairwise.nil⟩, ⟨List.Perm.nil, List.Pairwise.nil⟩⟩
  obtain ⟨lists, ⟨rounds, hloop⟩, htranslated⟩ := hempty.scan hinsert infos hwf hmap.entries
  rw [List.nil_append] at htranslated
  refine ⟨rounds, lists, ?_, htranslated.faithful hwf⟩
  have hne : lists.lowerRegions ≠ [] := fun hnil => hlower (List.eq_nil_of_length_eq_zero
    (by rw [← htranslated.lower.length_eq, hnil]; rfl))
  rw [multibootRegionList, if_neg (BitVec.not_lt.mpr hmap.placed), hloop]
  simp [bind, Except.bind, hne, pure, Except.pure]

end

/-- `FixedRegionList<8>::Insert` on lists. -/
def insertAt : Insert := fun region i list =>
  if list.length < 8 then some (list.insertIdx i region) else none

lemma insertAt_inserts : InsertsAt insertAt := fun _ _ _ hroom _ => if_pos hroom

/-- Memory above 1 MiB that reaches over 4 GiB, a device, and the memory below 640 KiB. -/
def pcInfos : List MmapInfo :=
  [⟨20, 0x100000, 0x140000000, 1⟩, ⟨20, 0xf0000, 0x10000, 2⟩, ⟨20, 0, 0x9fc00, 1⟩]

def MmapInfo.bytes (e : MmapInfo) : List (BitVec 8) :=
  ByteMemory.bytes 4 e.size.toNat ++ ByteMemory.bytes 8 e.baseAddr.toNat ++
    ByteMemory.bytes 8 e.length.toNat ++ ByteMemory.bytes 4 e.type.toNat

/-- A boot information whose map follows its `mmap_addr`. -/
def pcMemory : ByteMemory := .ofBytes 0x9000 (List.replicate 44 0 ++ ByteMemory.bytes 4 72 ++
  ByteMemory.bytes 4 0x9034 ++ pcInfos.flatMap MmapInfo.bytes)

lemma pcMemory_isMap : IsMap pcMemory 0x9000 pcInfos where
  placed := by decide
  entries := ⟨by decide, by decide, by decide, by decide, by decide, by decide, by decide,
    by decide, by decide, rfl⟩

lemma pcInfos_wellFormed : WellFormed pcInfos where
  proper := by
    simp [pcInfos, MmapInfo.Proper, MmapInfo.last]
  disjoint := by
    simp [pcInfos, MmapInfo.DisjointFrom, MmapInfo.last, Set.Ico_disjoint_Ico]
  lower_le := by decide
  upper_le := by decide

theorem memory_map_faithful_pc : ∃ rounds lists,
    multibootRegionList rounds pcMemory insertAt 0x9000 = some (.ok lists) ∧
      Faithful lists pcInfos :=
  memory_map_faithful insertAt_inserts pcMemory_isMap pcInfos_wellFormed (by decide)

end Anarch.MultibootRegionList
