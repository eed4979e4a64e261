import Anarch.MultibootRegions

/-! Which bytes of memory the parsing of the Multiboot memory map reads. -/
namespace Anarch.MultibootRegionList
open TransitionRun

/-- The bytes of an entry that a round reads: its size and its type, and all of them where the
entry is usable memory. -/
def entryBytes (e : MmapInfo) : Set ℕ := {k | k < 4 ∨ 20 ≤ k ∧ k < 24 ∨ e.type = 1 ∧ k < 24}

def startScan (mem : ByteMemory) (mbootPtr : Word) : Scan :=
  ⟨(mmapAddr mem mbootPtr).setWidth 64, mmapLength mem mbootPtr, ⟨[], []⟩⟩

section
variable (mem : ByteMemory) (insert : Insert)

/-- In any memory that agrees on the bytes that are read of the entry, a round does the same. -/
def ReadsOnly : Prop := ∀ (mem' : ByteMemory) (s : Scan),
  (∀ k ∈ entryBytes (readInfo mem s.next),
    mem' (s.next + .ofNat 64 k) = mem (s.next + .ofNat 64 k)) →
  scanBody mem' insert s = scanBody mem insert s

/-- From these loop variables on, the loop reads this byte. -/
def ReadsByte (s : Scan) (addr : Word) : Prop :=
  ∃ t, Visits (scanBody mem insert) s t ∧ t.mmapLen ≠ 0 ∧
    ∃ k ∈ entryBytes (readInfo mem t.next), addr = t.next + .ofNat 64 k

/-- The constructor returns or panics. Past its check, the map lies below 1 MiB and no byte
outside the map is read. -/
def Confined (mbootPtr : Word) : Prop :=
  (∃ rounds result, multibootRegionList rounds mem insert mbootPtr = some result) ∧
  (mmapAddr mem mbootPtr + mmapLength mem mbootPtr ≤ 0x100000 →
    (mmapAddr mem mbootPtr).toNat + (mmapLength mem mbootPtr).toNat ≤ 0x100000 ∧
    ∀ addr, ReadsByte mem insert (startScan mem mbootPtr) addr →
      (mmapAddr mem mbootPtr).toNat ≤ addr.toNat ∧
      addr.toNat < (mmapAddr mem mbootPtr).toNat + (mmapLength mem mbootPtr).toNat)

/-- The entries, up to the end of the map or to the one that has no room in the lists, lie in
what is left of the map, each with its fields. -/
inductive Tiled : Scan → Prop
  | done {s : Scan} : s.mmapLen = 0 → Tiled s
  | overflow {s : Scan} {fault : Fault} : 24 ≤ s.mmapLen.toNat →
      addInfo insert (readInfo mem s.next) s.lists = .error fault → Tiled s
  | entry {s : Scan} {lists : Lists} : 24 ≤ s.mmapLen.toNat →
      (readInfo mem s.next).size.toNat + 4 ≤ s.mmapLen.toNat →
      addInfo insert (readInfo mem s.next) s.lists = .ok lists →
      Tiled ⟨s.next + (readInfo mem s.next).size.setWidth 64 + 4,
        s.mmapLen - ((readInfo mem s.next).size + 4), lists⟩ → Tiled s

end

section
variable {mem : ByteMemory} {insert : Insert} {s : Scan} {first last : ℕ}

lemma scanBody_reads (mem : ByteMemory) (insert : Insert) : ReadsOnly mem insert := by
  intro mem' s h
  have hsize : mem'.load32 s.next = mem.load32 s.next :=
    ByteMemory.load32_congr fun k hk => h k (.inl hk)
  have hshift : ∀ j k, s.next + .ofNat 64 j + .ofNat 64 k = s.next + .ofNat 64 (j + k) :=
    fun j k => by rw [BitVec.add_assoc, ← BitVec.ofNat_add]
  have htype : mem'.load32 (s.next + 20) = mem.load32 (s.next + 20) := by
    refine ByteMemory.load32_congr fun k hk => ?_
    rw [show s.next + 20 = s.next + .ofNat 64 20 from rfl, hshift]
    exact h _ (.inr (.inl ⟨Nat.le_add_right 20 k, by omega⟩))
  by_cases husable : (readInfo mem s.next).type = 1
  · have hall : readInfo mem' s.next = readInfo mem s.next := by
      have hbyte : ∀ j k, j + k < 24 →
          mem' (s.next + .ofNat 64 j + .ofNat 64 k) = mem (s.next + .ofNat 64 j + .ofNat 64 k) := by
        intro j k hjk
        rw [hshift]
        exact h _ (.inr (.inr ⟨husable, hjk⟩))
      have hbase : mem'.load64 (s.next + 4) = mem.load64 (s.next + 4) :=
        ByteMemory.load64_congr fun k hk => hbyte 4 k (by omega)
      have hlength : mem'.load64 (s.next + 12) = mem.load64 (s.next + 12) :=
        ByteMemory.load64_congr fun k hk => hbyte 12 k (by omega)
      rw [readInfo, readInfo, hsize, hbase, hlength, htype]
    simp only [scanBody, hall]
  · have husable' : (readInfo mem' s.next).type ≠ 1 := by
      rw [show (readInfo mem' s.next).type = _ from htype]
      exact husable
    have hsize' : (readInfo mem' s.next).size = (readInfo mem s.next).size := hsize
    simp only [scanBody, addInfo, if_pos husable, if_pos husable', hsize']

/-- The loop variables point into a map below 1 MiB and know how much of it is left. -/
structure Ahead (first last : ℕ) (s : Scan) : Prop where
  first_le : first ≤ s.next.toNat
  last_eq : s.next.toNat + s.mmapLen.toNat = last
  last_le : last ≤ 0x100000

lemma lt_of_mem_entryBytes {e : MmapInfo} {k : ℕ} (hk : k ∈ entryBytes e) : k < 24 := by
  rcases hk with h | ⟨-, h⟩ | ⟨-, h⟩
  · omega
  · exact h
  · exact h

lemma Ahead.byte (h : Ahead first last s) {k : ℕ} (hk : k < 24) :
    (s.next + .ofNat 64 k).toNat = s.next.toNat + k := by
  have hlast := h.last_eq
  have hle := h.last_le
  rw [BitVec.toNat_add, BitVec.toNat_ofNat]
  omega

lemma Ahead.next (h : Ahead first last s) (size : BitVec 32) :
    (s.next + size.setWidth 64 + 4).toNat = s.next.toNat + size.toNat + 4 := by
  have hlast := h.last_eq
  have hle := h.last_le
  have hlt := size.isLt
  rw [BitVec.toNat_add, BitVec.toNat_add, BitVec.toNat_setWidth, show (4 : Word).toNat = 4 from rfl]
  omega

lemma left_toNat {len size : BitVec 32} (hle : size.toNat + 4 ≤ len.toNat) :
    (len - (size + 4)).toNat = len.toNat - (size.toNat + 4) := by
  have hlt := len.isLt
  rw [BitVec.toNat_sub, BitVec.toNat_add, show (4 : BitVec 32).toNat = 4 from rfl]
  omega

/-- Only an entry that ends where the map ends, modulo `2 ^ 32`, leaves nothing. -/
lemma left_ne_zero {len size : BitVec 32} (hlen : 4 ≤ len.toNat)
    (hgt : len.toNat < size.toNat + 4) : len - (size + 4) ≠ 0 := by
  intro hzero
  have hlt := len.isLt
  have hlt' := size.isLt
  have hnat := congrArg BitVec.toNat hzero
  rw [BitVec.toNat_sub, BitVec.toNat_add, show (4 : BitVec 32).toNat = 4 from rfl,
    show (0 : BitVec 32).toNat = 0 from rfl] at hnat
  omega

lemma scanBody_overflow (hlen : s.mmapLen ≠ 0) {fault : Fault}
    (h : addInfo insert (readInfo mem s.next) s.lists = .error fault) :
    scanBody mem insert s = .inr (.error fault) := by
  simp only [scanBody, if_neg hlen, h]

lemma scanBody_entry (hlen : s.mmapLen ≠ 0) {lists : Lists}
    (h : addInfo insert (readInfo mem s.next) s.lists = .ok lists) :
    scanBody mem insert s = .inl ⟨s.next + (readInfo mem s.next).size.setWidth 64 + 4,
      s.mmapLen - ((readInfo mem s.next).size + 4), lists⟩ := by
  simp only [scanBody, if_neg hlen, h]

lemma readsByte_iff {addr : Word} : ReadsByte mem insert s addr ↔
    (s.mmapLen ≠ 0 ∧ ∃ k ∈ entryBytes (readInfo mem s.next), addr = s.next + .ofNat 64 k) ∨
    ∃ t, scanBody mem insert s = .inl t ∧ ReadsByte mem insert t addr := exists_visits_iff

lemma Tiled.confined (htiled : Tiled mem insert s) (h : Ahead first last s) :
    (∃ r, Returns (scanBody mem insert) s r) ∧
    ∀ addr, ReadsByte mem insert s addr → first ≤ addr.toNat ∧ addr.toNat < last := by
  have hinside : ∀ {s : Scan}, Ahead first last s → 24 ≤ s.mmapLen.toNat →
      ∀ k ∈ entryBytes (readInfo mem s.next), first ≤ (s.next + .ofNat 64 k).toNat ∧
        (s.next + .ofNat 64 k).toNat < last := by
    intro s h hlen k hk
    have hlt := lt_of_mem_entryBytes hk
    have hfirst := h.first_le
    have hlast := h.last_eq
    rw [h.byte hlt]
    omega
  have hne : ∀ {s : Scan}, 24 ≤ s.mmapLen.toNat → s.mmapLen ≠ 0 := by
    intro s hlen hzero
    rw [hzero] at hlen
    exact absurd hlen (by decide)
  induction htiled with
  | @done s hzero =>
    refine ⟨⟨_, .exit (if_pos hzero)⟩, fun addr hread => ?_⟩
    rcases readsByte_iff.mp hread with ⟨hlen, -⟩ | ⟨t, hbody, -⟩
    · exact absurd hzero hlen
    · rw [scanBody, if_pos hzero] at hbody
      cases hbody
  | @overflow s fault hlen hadd =>
    have hbody := scanBody_overflow (hne hlen) hadd
    refine ⟨⟨_, .exit hbody⟩, fun addr hread => ?_⟩
    rcases readsByte_iff.mp hread with ⟨-, k, hk, rfl⟩ | ⟨t, ht, -⟩
    · exact hinside h hlen k hk
    · rw [hbody] at ht
      cases ht
  | @entry s lists hlen hsize hadd _ ih =>
    have hbody := scanBody_entry (hne hlen) hadd
    have hnext : Ahead first last ⟨s.next + (readInfo mem s.next).size.setWidth 64 + 4,
        s.mmapLen - ((readInfo mem s.next).size + 4), lists⟩ := by
      have hfirst := h.first_le
      have hlast := h.last_eq
      refine ⟨?_, ?_, h.last_le⟩
      · rw [h.next]
        omega
      · rw [h.next, left_toNat hsize]
        omega
    obtain ⟨⟨r, hreturns⟩, hreads⟩ := ih hnext
    refine ⟨⟨r, (returns_step hbody).mpr hreturns⟩, fun addr hread => ?_⟩
    rcases readsByte_iff.mp hread with ⟨-, k, hk, rfl⟩ | ⟨t, ht, hread⟩
    · exact hinside h hlen k hk
    · rw [hbody] at ht
      exact hreads addr (Sum.inl.inj ht ▸ hread)

lemma tiled_of_confined {r : Outcome Lists} (hreturns : Returns (scanBody mem insert) s r)
    (h : Ahead first last s)
    (hreads : ∀ addr, ReadsByte mem insert s addr → addr.toNat < last) : Tiled mem insert s := by
  have hroom : ∀ {s : Scan}, s.mmapLen ≠ 0 → Ahead first last s →
      (∀ addr, ReadsByte mem insert s addr → addr.toNat < last) → 24 ≤ s.mmapLen.toNat := by
    intro s hlen h hreads
    have hbyte : 23 ∈ entryBytes (readInfo mem s.next) := .inr (.inl ⟨by decide, by decide⟩)
    have hlt := hreads _ (readsByte_iff.mpr (.inl ⟨hlen, 23, hbyte, rfl⟩))
    rw [h.byte (by decide)] at hlt
    have hlast := h.last_eq
    omega
  revert h hreads
  refine hreturns.backward (P := fun s => Ahead first last s →
    (∀ addr, ReadsByte mem insert s addr → addr.toNat < last) → Tiled mem insert s) ?_ ?_
  · intro s hbody h hreads
    by_cases hlen : s.mmapLen = 0
    · exact .done hlen
    · cases hadd : addInfo insert (readInfo mem s.next) s.lists with
      | error fault => exact .overflow (hroom hlen h hreads) hadd
      | ok lists =>
        rw [scanBody_entry hlen hadd] at hbody
        cases hbody
  · intro s t hbody ih h hreads
    have hlen : s.mmapLen ≠ 0 := by
      intro hzero
      rw [scanBody, if_pos hzero] at hbody
      cases hbody
    have hfull := hroom hlen h hreads
    cases hadd : addInfo insert (readInfo mem s.next) s.lists with
    | error fault =>
      rw [scanBody_overflow hlen hadd] at hbody
      cases hbody
    | ok lists =>
      rw [scanBody_entry hlen hadd] at hbody
      obtain rfl := Sum.inl.inj hbody
      have hrest : ∀ addr, ReadsByte mem insert _ addr → addr.toNat < last := fun addr hread =>
        hreads addr (readsByte_iff.mpr (.inr ⟨_, scanBody_entry hlen hadd, hread⟩))
      have hfirst := h.first_le
      have hlast := h.last_eq
      have hnext := h.next (readInfo mem s.next).size
      -- an entry that ends outside the map is followed by one that lies outside
      have hsize : (readInfo mem s.next).size.toNat + 4 ≤ s.mmapLen.toNat := by
        by_contra hgt
        have hleft := left_ne_zero (by omega) (Nat.lt_of_not_le hgt)
        have hlt := hrest _ (readsByte_iff.mpr (.inl ⟨hleft, 0, .inl (by decide), rfl⟩))
        rw [BitVec.add_zero, hnext] at hlt
        omega
      refine .entry hfull hsize hadd (ih ⟨?_, ?_, h.last_le⟩ hrest)
      · rw [hnext]
        omega
      · rw [hnext, left_toNat hsize]
        omega

/-- Each round depends on no other bytes than those it is said to read, and the constructor stays
inside the memory map exactly if its check panics, or the map lies below 1 MiB and the entries
tile it. -/
theorem confined_iff (mem : ByteMemory) (insert : Insert) (mbootPtr : Word) :
    ReadsOnly mem insert ∧ (Confined mem insert mbootPtr ↔
      0x100000 < mmapAddr mem mbootPtr + mmapLength mem mbootPtr ∨
      (mmapAddr mem mbootPtr).toNat + (mmapLength mem mbootPtr).toNat ≤ 0x100000 ∧
        Tiled mem insert (startScan mem mbootPtr)) := by
  refine ⟨scanBody_reads mem insert, ?_⟩
  by_cases hcheck : 0x100000 < mmapAddr mem mbootPtr + mmapLength mem mbootPtr
  · refine iff_of_true ⟨⟨0, _, if_pos hcheck⟩, fun hle => ?_⟩ (.inl hcheck)
    exact absurd hle (BitVec.not_le.mpr hcheck)
  · have hstart : (mmapAddr mem mbootPtr).toNat + (mmapLength mem mbootPtr).toNat ≤ 0x100000 →
        Ahead (mmapAddr mem mbootPtr).toNat
          ((mmapAddr mem mbootPtr).toNat + (mmapLength mem mbootPtr).toNat)
          (startScan mem mbootPtr) := by
      intro hle
      have haddr : ((mmapAddr mem mbootPtr).setWidth 64).toNat = (mmapAddr mem mbootPtr).toNat :=
        BitVec.toNat_setWidth_of_le (by decide)
      exact ⟨haddr.ge, congrArg (· + _) haddr, hle⟩
    simp only [Confined, multibootRegionList, if_neg hcheck, Option.map_eq_some_iff]
    constructor
    · rintro ⟨⟨rounds, _, r, hloop, -⟩, hreads⟩
      obtain ⟨hle, hreads⟩ := hreads (BitVec.not_lt.mp hcheck)
      exact .inr ⟨hle, tiled_of_confined ⟨rounds, hloop⟩ (hstart hle) fun addr hread =>
        (hreads addr hread).2⟩
    · rintro (hgt | ⟨hle, htiled⟩)
      · exact absurd hgt hcheck
      · obtain ⟨⟨r, rounds, hloop⟩, hreads⟩ := htiled.confined (hstart hle)
        exact ⟨⟨rounds, _, r, hloop, rfl⟩, fun _ => ⟨hle, hreads⟩⟩

/-- A map of one device entry of 24 bytes, whose size field counts eight bytes too many. -/
def longEntry : ByteMemory := fun addr =>
  if addr = 44 then 24 else if addr = 49 then 0x10 else if addr = 0x1000 then 28
  else if addr = 0x1014 then 2 else 0

/-- The length left wraps, and the size of a next entry is read past the end of the map. -/
theorem longEntry_not_confined : ReadsByte longEntry insertAt (startScan longEntry 0) 0x1020 ∧
    ¬ Confined longEntry insertAt 0 := by
  have hbody : scanBody longEntry insertAt (startScan longEntry 0) =
      .inl ⟨0x1020, 0xfffffff8, ⟨[], []⟩⟩ := by rfl
  have hread : ReadsByte longEntry insertAt (startScan longEntry 0) 0x1020 :=
    readsByte_iff.mpr (.inr ⟨_, hbody, readsByte_iff.mpr
      (.inl ⟨by simp, 0, .inl (by decide), rfl⟩)⟩)
  refine ⟨hread, fun hconfined => ?_⟩
  obtain ⟨-, hreads⟩ := hconfined.2 (by decide)
  exact absurd (hreads _ hread).2 (by decide)

end

end Anarch.MultibootRegionList
