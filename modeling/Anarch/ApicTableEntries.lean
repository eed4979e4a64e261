import Anarch.ApicTable
import Mathlib.Data.List.GetD

/-! Queries on an APIC table that is written as a list of entries, one after the other behind
the header. -/
namespace Anarch.ApicTable
open TransitionRun

def structSize (type : BitVec 8) : ℕ :=
  if type = typeLapic then 8 else if type = typeIOApic then 12 else if type = typeIso then 10
  else if type = typeX2Apic then 16 else 2

/-- An entry: its type, and what follows its length byte. -/
structure Entry where
  type : BitVec 8
  body : List (BitVec 8)
  fits : structSize type ≤ body.length + 2
  small : body.length + 2 < 256

namespace Entry

def size (e : Entry) : ℕ := e.body.length + 2

def bytes (e : Entry) : List (BitVec 8) := e.type :: .ofNat 8 e.size :: e.body

def byte (e : Entry) (k : ℕ) : BitVec 8 := e.bytes.getD k 0

/-- The number in four bytes of the entry. -/
def word (e : Entry) (k : ℕ) : BitVec 32 := (ByteMemory.ofBytes 0 e.bytes).load32 (.ofNat 64 k)

def isProcessor (e : Entry) : Bool := e.type = typeLapic ∨ e.type = typeX2Apic

def flags (e : Entry) : BitVec 32 := if e.type = typeLapic then e.word 4 else e.word 8

def isUsable (e : Entry) : Bool := e.isProcessor ∧ e.flags &&& 1 ≠ 0

/-- An interrupt override for a source on bus 0. -/
def overrides (source : BitVec 8) (e : Entry) : Bool :=
  e.type = typeIso ∧ e.byte 3 = source ∧ e.byte 2 = 0

def serves (base : BitVec 32) (e : Entry) : Bool := e.type = typeIOApic ∧ e.word 8 = base

end Entry

def totalSize (entries : List Entry) : ℕ := (entries.map Entry.size).sum

/-- Memory has these bytes from an address on. -/
def Holds (mem : ByteMemory) (addr : Word) (bytes : List (BitVec 8)) : Prop :=
  ∀ k, k < bytes.length → mem (addr + .ofNat 64 k) = bytes.getD k 0

/-- The entries, one after the other behind the header, are what the length counts. -/
structure Encodes (mem : ByteMemory) (baseAddr : Word) (entries : List Entry) : Prop where
  length : (mem.load32 (baseAddr + 4)).toNat = 44 + totalSize entries
  bytes : Holds mem (baseAddr + headerSize) (entries.flatMap Entry.bytes)

/-- Where the entries are and how much of the table is left there. -/
def iterators (addr : Word) : List Entry → List Iterator
  | [] => []
  | e :: entries => ⟨addr, .ofNat 64 (totalSize (e :: entries))⟩ ::
      iterators (addr + .ofNat 64 e.size) entries

def firstAddr (p : Entry → Bool) (addr : Word) : List Entry → Option Word
  | [] => none
  | e :: entries => if p e then some addr else firstAddr p (addr + .ofNat 64 e.size) entries

/-- The iterators that a loop over the table sees, in order. -/
def Yields (mem : ByteMemory) (baseAddr : Word) (its : List Iterator) : Prop :=
  Returns (round mem fun it seen => seen ++ [it]) (getIterator mem baseAddr, []) (.ok its)

def At (mem : ByteMemory) (it : Iterator) (e : Entry) : Prop := Holds mem it.address e.bytes

section
variable {mem : ByteMemory} {addr baseAddr : Word} {it : Iterator} {e : Entry}
  {entries : List Entry} {j k : ℕ}

lemma Entry.length_bytes (e : Entry) : e.bytes.length = e.size := rfl

lemma Holds.append {xs ys : List (BitVec 8)} (h : Holds mem addr (xs ++ ys)) :
    Holds mem addr xs ∧ Holds mem (addr + .ofNat 64 xs.length) ys := by
  constructor
  · intro k hk
    rw [h k (by rw [List.length_append]; omega), List.getD_append _ _ _ _ hk]
  · intro k hk
    have hbyte := h (xs.length + k) (by rw [List.length_append]; omega)
    rw [List.getD_append_right _ _ _ _ (Nat.le_add_right _ _), Nat.add_sub_cancel_left,
      BitVec.ofNat_add, ← BitVec.add_assoc] at hbyte
    exact hbyte

lemma At.byte (h : At mem it e) (hk : k < e.size) :
    mem (it.address + .ofNat 64 k) = e.byte k := h k hk

lemma At.type (h : At mem it e) : getType mem it = e.type := by
  have hbyte := h.byte (Nat.lt_add_left e.body.length Nat.two_pos)
  rwa [BitVec.add_zero] at hbyte

lemma At.size (h : At mem it e) : getSize mem it = .ofNat 64 e.size := by
  have hbyte := h.byte (Nat.lt_add_left e.body.length Nat.one_lt_two)
  have hsmall : e.size < 256 := e.small
  apply BitVec.eq_of_toNat_eq
  rw [getSize, show mem.load8 (it.address + 1) = .ofNat 8 e.size from hbyte, BitVec.toNat_setWidth,
    BitVec.toNat_ofNat, BitVec.toNat_ofNat]
  omega

lemma At.word (h : At mem it e) (hj : j + 4 ≤ e.size) :
    mem.load32 (it.address + .ofNat 64 j) = e.word j := by
  refine ByteMemory.load32_congr fun k hk => ?_
  have hsmall : e.size < 256 := e.small
  rw [BitVec.add_assoc, ← BitVec.ofNat_add, h.byte (show j + k < e.size by omega), Entry.byte,
    ByteMemory.ofBytes, sub_zero, BitVec.toNat_ofNat, Nat.mod_eq_of_lt (by omega)]

lemma totalSize_cons : totalSize (e :: entries) = e.size + totalSize entries := rfl

lemma iterators_filled (h : Holds mem addr (entries.flatMap Entry.bytes))
    (hsize : totalSize entries < 2 ^ 32) :
    Filled mem ⟨addr, .ofNat 64 (totalSize entries)⟩ (iterators addr entries) ∧
      List.Forall₂ (At mem) (iterators addr entries) entries := by
  induction entries generalizing addr with
  | nil => exact ⟨rfl, .nil⟩
  | cons e entries ih =>
    rw [List.flatMap_cons] at h
    obtain ⟨hentry, hrest⟩ := h.append
    rw [totalSize_cons] at hsize
    have hat : At mem ⟨addr, .ofNat 64 (totalSize (e :: entries))⟩ e := hentry
    obtain ⟨hfilled, hentries⟩ := ih hrest (by omega)
    have hleft : (BitVec.ofNat 64 (totalSize (e :: entries)) - BitVec.ofNat 64 e.size : Word) =
        .ofNat 64 (totalSize entries) := by
      rw [totalSize_cons, BitVec.ofNat_add, add_sub_cancel_left]
    refine ⟨⟨rfl, ?_, ?_, ?_⟩, .cons hat hentries⟩
    · rw [hat.size, BitVec.lt_def, BitVec.toNat_ofNat]
      have hpos : 0 < e.size := Nat.succ_pos _
      show 0 < _
      omega
    · rw [hat.size, BitVec.le_def, BitVec.toNat_ofNat, BitVec.toNat_ofNat, totalSize_cons]
      omega
    · rw [hat.size, hleft]
      exact hfilled

lemma Encodes.iterator (h : Encodes mem baseAddr entries) : totalSize entries < 2 ^ 32 ∧
    getIterator mem baseAddr = ⟨baseAddr + headerSize, .ofNat 64 (totalSize entries)⟩ := by
  have hlt := (mem.load32 (baseAddr + 4)).isLt
  have hlength := h.length
  have hdata : dataSize mem baseAddr = .ofNat 64 (totalSize entries) := by
    apply BitVec.eq_of_toNat_eq
    rw [dataSize, BitVec.toNat_sub, BitVec.toNat_setWidth, BitVec.toNat_ofNat, hlength,
      show headerSize.toNat = 44 from rfl]
    omega
  refine ⟨by omega, ?_⟩
  rw [getIterator, hdata]

lemma Encodes.isTable (h : Encodes mem baseAddr entries) :
    IsTable mem baseAddr (iterators (baseAddr + headerSize) entries) ∧
      List.Forall₂ (At mem) (iterators (baseAddr + headerSize) entries) entries := by
  obtain ⟨hsize, hiterator⟩ := h.iterator
  rw [IsTable, hiterator]
  exact iterators_filled h.bytes hsize

lemma totalSize_pos (hne : entries ≠ []) : 0 < totalSize entries := by
  obtain ⟨e, rest, rfl⟩ := List.exists_cons_of_ne_nil hne
  exact Nat.lt_add_right _ (Nat.succ_pos _)

lemma Encodes.dataSize_pos (h : Encodes mem baseAddr entries) (hne : entries ≠ []) :
    0 < dataSize mem baseAddr := by
  obtain ⟨hsize, hiterator⟩ := h.iterator
  have hpos := totalSize_pos hne
  have hdata : dataSize mem baseAddr = .ofNat 64 (totalSize entries) :=
    congrArg Iterator.dataSize hiterator
  rw [hdata, BitVec.lt_def, BitVec.toNat_ofNat]
  show 0 < _
  omega

lemma typeBody_at (type : BitVec 8) (n : ℕ) (h : At mem it e) :
    typeBody mem type it n = if e.type = type then n + 1 else n := by
  rw [typeBody, h.type]

lemma At.lapicFlags (h : At mem it e) (htype : e.type = typeLapic) :
    lapicFlags mem it.address = e.word 4 := by
  have hfits := e.fits
  rw [htype, structSize, if_pos rfl] at hfits
  exact h.word hfits

lemma At.x2apicFlags (h : At mem it e) (htype : e.type = typeX2Apic) :
    x2apicFlags mem it.address = e.word 8 := by
  have hfits : 16 ≤ e.body.length + 2 := by
    have hfits := e.fits
    rwa [htype] at hfits
  exact h.word (Nat.le_trans (by decide) hfits)

lemma countBody_all (n : ℕ) (h : At mem it e) :
    countBody mem false it n = if e.isProcessor then n + 1 else n := by
  unfold countBody Entry.isProcessor
  rw [h.type]
  by_cases hlapic : e.type = typeLapic
  · simp [hlapic]
  · by_cases hx2apic : e.type = typeX2Apic
    · simp [hx2apic]
    · simp [hlapic, hx2apic]

lemma countBody_flags (n : ℕ) (h : At mem it e) :
    countBody mem true it n = if e.isUsable then n + 1 else n := by
  unfold countBody Entry.isUsable Entry.isProcessor Entry.flags
  rw [h.type]
  by_cases hlapic : e.type = typeLapic
  · simp [hlapic, h.lapicFlags hlapic]
  · by_cases hx2apic : e.type = typeX2Apic
    · have hne : typeX2Apic ≠ typeLapic := by decide
      simp [hx2apic, hne, h.x2apicFlags hx2apic]
    · simp [hlapic, hx2apic]

lemma isIso_at (source : BitVec 8) (h : At mem it e) :
    isIso mem source it = e.overrides source := by
  rw [isIso, Entry.overrides, h.type]
  by_cases htype : e.type = typeIso
  · have hfits : 10 ≤ e.size := by
      have hfits := e.fits
      rwa [htype] at hfits
    have hbus : isoBus mem it.address = e.byte 2 := h.byte (Nat.le_trans (by decide) hfits)
    have hsource : isoSource mem it.address = e.byte 3 := h.byte (Nat.le_trans (by decide) hfits)
    rw [hbus, hsource]
  · simp only [htype, false_and]

lemma isIOApic_at (base : BitVec 32) (h : At mem it e) :
    isIOApic mem base it = e.serves base := by
  rw [isIOApic, Entry.serves, h.type]
  by_cases htype : e.type = typeIOApic
  · have hfits : 12 ≤ e.size := by
      have hfits := e.fits
      rwa [htype] at hfits
    have hbase : interruptBase mem it.address = e.word 8 := h.word hfits
    rw [hbase]
  · simp only [htype, false_and]

lemma search_returns {found : Iterator → Bool} {p : Entry → Bool}
    (hfound : ∀ it e, At mem it e → found it = p e)
    (h : Holds mem addr (entries.flatMap Entry.bytes)) (hsize : totalSize entries < 2 ^ 32)
    (hne : entries ≠ []) :
    Returns (searchRound mem found) ⟨addr, .ofNat 64 (totalSize entries)⟩
      (.ok (firstAddr p addr entries)) := by
  induction entries generalizing addr with
  | nil => exact absurd rfl hne
  | cons e entries ih =>
    rw [List.flatMap_cons] at h
    obtain ⟨hentry, hrest⟩ := h.append
    have hat : At mem ⟨addr, .ofNat 64 (totalSize (e :: entries))⟩ e := hentry
    have hhit := hfound _ _ hat
    rw [totalSize_cons] at hsize
    cases hp : p e with
    | true =>
      rw [firstAddr, hp, if_pos rfl]
      exact .exit (by rw [searchRound, hhit, hp]; rfl)
    | false =>
      rw [firstAddr, hp, if_neg Bool.false_ne_true]
      by_cases hlast : entries = []
      · subst hlast
        have hnext : next mem ⟨addr, .ofNat 64 (totalSize [e])⟩ = .ok none :=
          next_last hat.size
        exact .exit (by rw [searchRound, hhit, hp, hnext]; rfl)
      · have hpos := totalSize_pos hlast
        have hnext : next mem ⟨addr, .ofNat 64 (totalSize (e :: entries))⟩ =
            .ok (some ⟨addr + .ofNat 64 e.size, .ofNat 64 (totalSize entries)⟩) := by
          rw [next_eq_some, hat.size]
          refine ⟨?_, ?_⟩
          · rw [BitVec.lt_def, BitVec.toNat_ofNat, BitVec.toNat_ofNat, totalSize_cons]
            omega
          · rw [totalSize_cons, BitVec.ofNat_add, add_sub_cancel_left]
        exact (returns_step (by rw [searchRound, hhit, hp, hnext]; rfl)).mpr
          (ih hrest (by omega) hlast)

lemma Encodes.lookup (h : Encodes mem baseAddr entries) (hne : entries ≠ [])
    {found : Iterator → Bool} {p : Entry → Bool} (hfound : ∀ it e, At mem it e → found it = p e) :
    ∃ rounds, (if !canIterate mem baseAddr then some (.ok none)
      else loop (searchRound mem found) rounds (getIterator mem baseAddr)) =
        some (.ok (firstAddr p (baseAddr + headerSize) entries)) := by
  obtain ⟨hsize, hiterator⟩ := h.iterator
  obtain ⟨rounds, hloop⟩ := search_returns hfound h.bytes hsize hne
  refine ⟨rounds, ?_⟩
  rw [canIterate, decide_eq_true (h.dataSize_pos hne), hiterator]
  exact hloop

/-- The iterator yields the entries in order, the counts are those of the list, and the lookups
find the first entry of the list. -/
theorem queries_agree (h : Encodes mem baseAddr entries) (hne : entries ≠ []) :
    (∃ its, Yields mem baseAddr its ∧ List.Forall₂ (At mem) its entries) ∧
    (∀ type, ∃ rounds, countType mem rounds baseAddr type =
      some (.ok (entries.countP fun e => e.type = type))) ∧
    (∃ rounds, countLapics mem rounds baseAddr true = some (.ok (entries.countP Entry.isUsable))) ∧
    (∃ rounds, countLapics mem rounds baseAddr false =
      some (.ok (entries.countP Entry.isProcessor))) ∧
    (∀ physIRQ, ∃ rounds, lookupIso mem rounds baseAddr physIRQ =
      some (.ok (firstAddr (Entry.overrides physIRQ) (baseAddr + headerSize) entries))) ∧
    ∀ base, ∃ rounds, lookupIOApic mem rounds baseAddr base =
      some (.ok (firstAddr (Entry.serves base) (baseAddr + headerSize) entries)) := by
  obtain ⟨htable, hentries⟩ := h.isTable
  have hcount : ∀ {body : Iterator → ℕ → ℕ} {p : Entry → Bool},
      (∀ it e n, At mem it e → body it n = if p e then n + 1 else n) →
      entries.countP p =
        (iterators (baseAddr + headerSize) entries).foldl (fun n it => body it n) 0 := by
    intro body p hbody
    rw [foldl_count hentries hbody, Nat.zero_add]
  refine ⟨⟨iterators (baseAddr + headerSize) entries, ?_, hentries⟩, fun type => ?_, ?_, ?_,
    fun physIRQ => ?_, fun base => ?_⟩
  · have hdata : (getIterator mem baseAddr).dataSize ≠ 0 :=
      (BitVec.pos_iff_ne_zero _).mp (h.dataSize_pos hne)
    have hreturns := round_returns (fun it seen => seen ++ [it]) htable hdata []
    have hseen : (iterators (baseAddr + headerSize) entries).foldl (fun seen it => seen ++ [it]) [] =
        iterators (baseAddr + headerSize) entries := by
      rw [List.foldl_append_eq_append, List.nil_append, ← List.flatMap_def, List.flatMap_singleton']
    rwa [hseen] at hreturns
  · refine (pass_iff htable).mpr (hcount fun it e n hat => ?_)
    simp only [typeBody_at type n hat, decide_eq_true_eq]
  · exact (pass_iff htable).mpr (hcount fun it e n hat => countBody_flags n hat)
  · exact (pass_iff htable).mpr (hcount fun it e n hat => countBody_all n hat)
  · exact h.lookup hne fun it e hat => isIso_at physIRQ hat
  · exact h.lookup hne fun it e hat => isIOApic_at base hat

/-- A usable processor, and the override of interrupt 1 to input 9. -/
def twoEntries : List Entry :=
  [⟨0, [0, 0, 1, 0, 0, 0], by decide, by decide⟩,
    ⟨2, [0, 1, 9, 0, 0, 0, 0, 0], by decide, by decide⟩]

/-- A table with the two entries at address 0. -/
def twoEntryTable : ByteMemory :=
  .ofBytes 0 (List.replicate 4 0 ++ [62] ++ List.replicate 39 0 ++ twoEntries.flatMap Entry.bytes)

lemma twoEntryTable_encodes : Encodes twoEntryTable 0 twoEntries := by
  refine ⟨rfl, ?_⟩
  unfold Holds
  decide

theorem queries_agree_two_entries :
    (∃ rounds, countLapics twoEntryTable rounds 0 true = some (.ok 1)) ∧
    ∃ rounds, lookupIso twoEntryTable rounds 0 1 = some (.ok (some 52)) := by
  obtain ⟨-, -, hcount, -, hlookup, -⟩ := queries_agree twoEntryTable_encodes (by decide)
  exact ⟨hcount, hlookup 1⟩

end

end Anarch.ApicTable
