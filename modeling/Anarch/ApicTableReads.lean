import Anarch.ApicTable

/-! Which bytes of memory the walks over the APIC table read. -/
namespace Anarch.ApicTable
open TransitionRun

def tableLength (mem : ByteMemory) (baseAddr : Word) : ℕ := (mem.load32 (baseAddr + 4)).toNat

section
variable (mem : ByteMemory)

/-- What is the same in two memories that agree on these bytes of the entry. -/
structure SameBytes (mem mem' : ByteMemory) (it : Iterator) (bytes : Set ℕ) : Prop where
  byte : ∀ k ∈ bytes, mem' (it.address + .ofNat 64 k) = mem (it.address + .ofNat 64 k)

/-- The bytes of an entry that a round of `CountType` reads: the type, and the size in `Next`. -/
def typeReads (_ : Iterator) : Set ℕ := {k | k < 2}

/-- The bytes that a round of `CountLapics` reads, with the flags if they are checked. -/
def lapicReads (checkUsable : Bool) (it : Iterator) : Set ℕ :=
  {k | k < 2 ∨ checkUsable = true ∧ (getType mem it = typeLapic ∧ 4 ≤ k ∧ k < 8 ∨
    getType mem it = typeX2Apic ∧ 8 ≤ k ∧ k < 12)}

/-- The bytes that a round of `LookupIso` reads: the bus only after the source. -/
def isoReads (physIRQ : BitVec 8) (it : Iterator) : Set ℕ :=
  {k | k = 0 ∨ isIso mem physIRQ it = false ∧ k = 1 ∨ getType mem it = typeIso ∧
    (k = 3 ∨ isoSource mem it.address = physIRQ ∧ k = 2)}

def ioApicReads (base : BitVec 32) (it : Iterator) : Set ℕ :=
  {k | k = 0 ∨ isIOApic mem base it = false ∧ k = 1 ∨
    getType mem it = typeIOApic ∧ 8 ≤ k ∧ k < 12}

section
variable {σ ρ : Type} (body : σ → σ ⊕ Outcome ρ) (view : σ → Iterator)
  (reads : Iterator → Set ℕ) (found : Iterator → Bool)

/-- A loop over the entries, from a state that has an iterator: it leaves at an entry that is
found and where `Next` does not go on, and moves to the next entry elsewhere. -/
structure Walks : Prop where
  leaves : ∀ s, found (view s) = true ∨ (∀ it, next mem (view s) ≠ .ok (some it)) →
    ∃ r, body s = .inr r
  moves : ∀ s it, found (view s) = false → next mem (view s) = .ok (some it) →
    ∃ t, body s = .inl t ∧ view t = it

/-- In any memory that agrees on the bytes that are read of the entry, a round does the same. -/
def ReadsOnly (body : ByteMemory → σ → σ ⊕ Outcome ρ) : Prop :=
  ∀ mem' s, SameBytes mem mem' (view s) (reads (view s)) → body mem' s = body mem s

/-- From this state on, the loop reads this byte. -/
def ReadsByte (s : σ) (addr : Word) : Prop :=
  ∃ t, Visits body s t ∧ ∃ k ∈ reads (view t), addr = (view t).address + .ofNat 64 k

/-- A function that loops over the entries returns or stops at the assertion of `Next`, and reads
no byte outside the table. -/
def Safe (baseAddr : Word) (s : σ) (run : ℕ → Option (Outcome ρ)) : Prop :=
  (∃ rounds result, run rounds = some result) ∧
  (canIterate mem baseAddr = true → ∀ addr, ReadsByte body view reads s addr →
    (addr - baseAddr).toNat < tableLength mem baseAddr)

/-- Up to an entry that is found, or to one that fills the rest of the table or more, every entry
has a size and the bytes that are read of it lie in the rest of the table. -/
inductive Walkable : Iterator → Prop
  | found {it : Iterator} : (∀ k ∈ reads it, k < it.dataSize.toNat) → found it = true →
      Walkable it
  | last {it : Iterator} : (∀ k ∈ reads it, k < it.dataSize.toNat) →
      it.dataSize ≤ getSize mem it → Walkable it
  | entry {it : Iterator} : (∀ k ∈ reads it, k < it.dataSize.toNat) → 0 < getSize mem it →
      getSize mem it < it.dataSize →
      Walkable ⟨it.address + getSize mem it, it.dataSize - getSize mem it⟩ → Walkable it

/-- A table of just the header, or a longer one that can be walked. -/
def TableWalkable (baseAddr : Word) : Prop :=
  tableLength mem baseAddr = 44 ∨ 44 < tableLength mem baseAddr ∧
    Walkable mem reads found (getIterator mem baseAddr)

end

def CountTypeSafe (baseAddr : Word) (type : BitVec 8) : Prop :=
  Safe mem (round mem (typeBody mem type)) Prod.fst typeReads baseAddr
    (getIterator mem baseAddr, 0) fun rounds => countType mem rounds baseAddr type

def CountLapicsSafe (baseAddr : Word) (checkUsable : Bool) : Prop :=
  Safe mem (round mem (countBody mem checkUsable)) Prod.fst (lapicReads mem checkUsable) baseAddr
    (getIterator mem baseAddr, 0) fun rounds => countLapics mem rounds baseAddr checkUsable

def LookupIsoSafe (baseAddr : Word) (physIRQ : BitVec 8) : Prop :=
  Safe mem (searchRound mem (isIso mem physIRQ)) id (isoReads mem physIRQ) baseAddr
    (getIterator mem baseAddr) fun rounds => lookupIso mem rounds baseAddr physIRQ

def LookupIOApicSafe (baseAddr : Word) (base : BitVec 32) : Prop :=
  Safe mem (searchRound mem (isIOApic mem base)) id (ioApicReads mem base) baseAddr
    (getIterator mem baseAddr) fun rounds => lookupIOApic mem rounds baseAddr base

end

section
variable {mem : ByteMemory} {it : Iterator} {baseAddr : Word} {k : ℕ}

section
variable {mem' : ByteMemory} {bytes : Set ℕ} (h : SameBytes mem mem' it bytes)
include h

lemma SameBytes.getType (h0 : 0 ∈ bytes) : getType mem' it = getType mem it := by
  have hbyte := h.byte 0 h0
  rwa [BitVec.add_zero] at hbyte

lemma SameBytes.next (h1 : 1 ∈ bytes) : next mem' it = next mem it := by
  have hsize : getSize mem' it = getSize mem it :=
    congrArg (BitVec.setWidth 64) (h.byte 1 h1)
  rw [ApicTable.next, ApicTable.next, hsize]

lemma SameBytes.load32 {j : ℕ} (hj : ∀ k, j ≤ k → k < j + 4 → k ∈ bytes) :
    mem'.load32 (it.address + .ofNat 64 j) = mem.load32 (it.address + .ofNat 64 j) := by
  refine ByteMemory.load32_congr fun k hk => ?_
  rw [BitVec.add_assoc, ← BitVec.ofNat_add]
  exact h.byte _ (hj _ (Nat.le_add_right j k) (by omega))

end

section
variable {mem' : ByteMemory}

lemma countType_reads (mem : ByteMemory) (type : BitVec 8) :
    ReadsOnly mem Prod.fst typeReads fun mem => round mem (typeBody mem type) := by
  rintro mem' ⟨it, count⟩ h
  simp only [round, typeBody, h.getType Nat.two_pos, h.next Nat.one_lt_two]

lemma countLapics_reads (mem : ByteMemory) (checkUsable : Bool) :
    ReadsOnly mem Prod.fst (lapicReads mem checkUsable)
      fun mem => round mem (countBody mem checkUsable) := by
  rintro mem' ⟨it, count⟩ h
  have hbody : countBody mem' checkUsable it count = countBody mem checkUsable it count := by
    unfold countBody
    rw [h.getType (.inl Nat.two_pos)]
    cases checkUsable with
    | false => rfl
    | true =>
      by_cases hlapic : getType mem it = typeLapic
      · have hflags : lapicFlags mem' it.address = lapicFlags mem it.address :=
          h.load32 (j := 4) fun k hle hlt => .inr ⟨rfl, .inl ⟨hlapic, hle, hlt⟩⟩
        rw [if_pos hlapic, if_pos hlapic, hflags]
      · by_cases hx2apic : getType mem it = typeX2Apic
        · have hflags : x2apicFlags mem' it.address = x2apicFlags mem it.address :=
            h.load32 (j := 8) fun k hle hlt => .inr ⟨rfl, .inr ⟨hx2apic, hle, hlt⟩⟩
          rw [if_neg hlapic, if_neg hlapic, if_pos hx2apic, if_pos hx2apic, hflags]
        · rw [if_neg hlapic, if_neg hlapic, if_neg hx2apic, if_neg hx2apic]
  simp only [round, hbody, h.next (.inl Nat.one_lt_two)]

lemma searchRound_reads {found found' : Iterator → Bool} {bytes : Set ℕ}
    (h : SameBytes mem mem' it bytes) (hfound : found' it = found it)
    (hsize : found it = false → 1 ∈ bytes) :
    searchRound mem' found' it = searchRound mem found it := by
  cases hit : found it with
  | true => simp only [searchRound, hfound, hit, if_true]
  | false => simp only [searchRound, hfound, hit, h.next (hsize hit)]

lemma lookupIso_reads (mem : ByteMemory) (physIRQ : BitVec 8) :
    ReadsOnly mem id (isoReads mem physIRQ)
      fun mem => searchRound mem (isIso mem physIRQ) := by
  intro mem' it (h : SameBytes mem mem' it _)
  refine searchRound_reads h ?_ fun hfound => .inr (.inl ⟨hfound, rfl⟩)
  rw [isIso, isIso, h.getType (.inl rfl)]
  by_cases htype : getType mem it = typeIso
  · have hsource : isoSource mem' it.address = isoSource mem it.address :=
      h.byte 3 (.inr (.inr ⟨htype, .inl rfl⟩))
    rw [hsource]
    by_cases hirq : isoSource mem it.address = physIRQ
    · have hbus : isoBus mem' it.address = isoBus mem it.address :=
        h.byte 2 (.inr (.inr ⟨htype, .inr ⟨hirq, rfl⟩⟩))
      rw [hbus]
    · simp only [hirq, false_and, and_false]
  · simp only [htype, false_and]

lemma lookupIOApic_reads (mem : ByteMemory) (base : BitVec 32) :
    ReadsOnly mem id (ioApicReads mem base) fun mem => searchRound mem (isIOApic mem base) := by
  intro mem' it (h : SameBytes mem mem' it _)
  refine searchRound_reads h ?_ fun hfound => .inr (.inl ⟨hfound, rfl⟩)
  rw [isIOApic, isIOApic, h.getType (.inl rfl)]
  by_cases htype : getType mem it = typeIOApic
  · have hbase : interruptBase mem' it.address = interruptBase mem it.address :=
      h.load32 (j := 8) fun k hle hlt => .inr (.inr ⟨htype, hle, hlt⟩)
    rw [hbase]
  · simp only [htype, false_and]

end

/-- The iterator points into the table and knows how much of it is left. -/
def Ahead (mem : ByteMemory) (baseAddr : Word) (it : Iterator) : Prop :=
  (it.address - baseAddr).toNat + it.dataSize.toNat = tableLength mem baseAddr

lemma tableLength_lt (mem : ByteMemory) (baseAddr : Word) : tableLength mem baseAddr < 2 ^ 32 :=
  (mem.load32 (baseAddr + 4)).isLt

lemma Ahead.offset (h : Ahead mem baseAddr it) (size : Word) (hsize : size.toNat < 2 ^ 32) :
    (it.address + size - baseAddr).toNat = (it.address - baseAddr).toNat + size.toNat := by
  have hlt := tableLength_lt mem baseAddr
  have hsum : (it.address - baseAddr).toNat + it.dataSize.toNat = tableLength mem baseAddr := h
  rw [add_sub_right_comm, BitVec.toNat_add]
  omega

lemma Ahead.byte (h : Ahead mem baseAddr it) (hk : k < 12) :
    (it.address + .ofNat 64 k - baseAddr).toNat < tableLength mem baseAddr ↔
      k < it.dataSize.toNat := by
  have hsum : (it.address - baseAddr).toNat + it.dataSize.toNat = tableLength mem baseAddr := h
  have hnat : (BitVec.ofNat 64 k).toNat = k := by
    rw [BitVec.toNat_ofNat]
    omega
  rw [h.offset _ (by omega), hnat]
  omega

lemma Ahead.next (h : Ahead mem baseAddr it) (hlt : getSize mem it < it.dataSize) :
    Ahead mem baseAddr ⟨it.address + getSize mem it, it.dataSize - getSize mem it⟩ := by
  have hsum : (it.address - baseAddr).toNat + it.dataSize.toNat = tableLength mem baseAddr := h
  have hlength := tableLength_lt mem baseAddr
  have hleft := BitVec.toNat_sub_of_le (BitVec.le_of_lt hlt)
  rw [BitVec.lt_def] at hlt
  show (it.address + getSize mem it - baseAddr).toNat + (it.dataSize - getSize mem it).toNat = _
  rw [h.offset _ (by omega), hleft]
  omega

section
variable {σ ρ : Type} {body : σ → σ ⊕ Outcome ρ} {view : σ → Iterator} {reads : Iterator → Set ℕ}
  {found : Iterator → Bool} {s : σ} {addr : Word}

lemma readsByte_iff : ReadsByte body view reads s addr ↔
    (∃ k ∈ reads (view s), addr = (view s).address + .ofNat 64 k) ∨
      ∃ t, body s = .inl t ∧ ReadsByte body view reads t addr := exists_visits_iff

lemma Walkable.safe (hwalks : Walks mem body view found) (hbound : ∀ it, ∀ k ∈ reads it, k < 12)
    (h : Walkable mem reads found it) (ha : Ahead mem baseAddr it) (hview : view s = it) :
    (∃ r, Returns body s r) ∧ ∀ addr, ReadsByte body view reads s addr →
      (addr - baseAddr).toNat < tableLength mem baseAddr := by
  have hleft : ∀ {s : σ} {r : Outcome ρ}, Ahead mem baseAddr (view s) →
      (∀ k ∈ reads (view s), k < (view s).dataSize.toNat) → body s = .inr r →
      (∃ r, Returns body s r) ∧ ∀ addr, ReadsByte body view reads s addr →
        (addr - baseAddr).toNat < tableLength mem baseAddr := by
    intro s r ha hin hbody
    refine ⟨⟨r, .exit hbody⟩, fun addr hread => ?_⟩
    rcases readsByte_iff.mp hread with ⟨k, hk, rfl⟩ | ⟨t, ht, -⟩
    · exact (ha.byte (hbound _ k hk)).mpr (hin k hk)
    · rw [hbody] at ht
      cases ht
  induction h generalizing s with
  | found hin hfound =>
    subst hview
    obtain ⟨r, hbody⟩ := hwalks.leaves s (.inl hfound)
    exact hleft ha hin hbody
  | last hin hle =>
    subst hview
    obtain ⟨r, hbody⟩ := hwalks.leaves s (.inr fun it hnext =>
      BitVec.not_lt.mpr hle (next_eq_some.mp hnext).1)
    exact hleft ha hin hbody
  | entry hin hpos hlt _ ih =>
    subst hview
    cases hfound : found (view s) with
    | true =>
      obtain ⟨r, hbody⟩ := hwalks.leaves s (.inl hfound)
      exact hleft ha hin hbody
    | false =>
      obtain ⟨t, hbody, ht⟩ := hwalks.moves s _ hfound (next_eq_some.mpr ⟨hlt, rfl⟩)
      obtain ⟨⟨r, hreturns⟩, hreads⟩ := ih (ha.next hlt) ht
      refine ⟨⟨r, (returns_step hbody).mpr hreturns⟩, fun addr hread => ?_⟩
      rcases readsByte_iff.mp hread with ⟨k, hk, rfl⟩ | ⟨u, hu, hread⟩
      · exact (ha.byte (hbound _ k hk)).mpr (hin k hk)
      · rw [hbody] at hu
        exact hreads addr (Sum.inl.inj hu ▸ hread)

lemma walkable_of_safe (hwalks : Walks mem body view found)
    (hbound : ∀ it, ∀ k ∈ reads it, k < 12) {r : Outcome ρ} (hreturns : Returns body s r)
    (ha : Ahead mem baseAddr (view s)) (hreads : ∀ addr, ReadsByte body view reads s addr →
      (addr - baseAddr).toNat < tableLength mem baseAddr) : Walkable mem reads found (view s) := by
  have hin : ∀ {s : σ}, Ahead mem baseAddr (view s) → (∀ addr, ReadsByte body view reads s addr →
      (addr - baseAddr).toNat < tableLength mem baseAddr) →
      ∀ k ∈ reads (view s), k < (view s).dataSize.toNat := fun ha hreads k hk =>
    (ha.byte (hbound _ k hk)).mp (hreads _ (readsByte_iff.mpr (.inl ⟨k, hk, rfl⟩)))
  revert ha hreads
  refine hreturns.backward (P := fun s => Ahead mem baseAddr (view s) →
    (∀ addr, ReadsByte body view reads s addr →
      (addr - baseAddr).toNat < tableLength mem baseAddr) → Walkable mem reads found (view s)) ?_ ?_
  · intro s hbody ha hreads
    cases hfound : found (view s) with
    | true => exact .found (hin ha hreads) hfound
    | false =>
      refine .last (hin ha hreads) (BitVec.not_lt.mp fun hlt => ?_)
      obtain ⟨t, ht, -⟩ := hwalks.moves s _ hfound (next_eq_some.mpr ⟨hlt, rfl⟩)
      rw [hbody] at ht
      cases ht
  · intro s t hbody ih ha hreads
    have hstays : ∀ r, body s ≠ .inr r := fun r hr => by
      rw [hbody] at hr
      cases hr
    have hfound : found (view s) = false := by
      rw [← Bool.not_eq_true]
      exact fun h => absurd (hwalks.leaves s (.inl h)) (not_exists.mpr hstays)
    have hlt : getSize mem (view s) < (view s).dataSize := by
      by_contra hle
      exact absurd (hwalks.leaves s (.inr fun it hnext => hle (next_eq_some.mp hnext).1))
        (not_exists.mpr hstays)
    obtain ⟨u, hu, hview⟩ := hwalks.moves s _ hfound (next_eq_some.mpr ⟨hlt, rfl⟩)
    obtain rfl : t = u := Sum.inl.inj (hbody.symm.trans hu)
    have hrest := ih (hview ▸ ha.next hlt) fun addr hread =>
      hreads addr (readsByte_iff.mpr (.inr ⟨t, hbody, hread⟩))
    rw [hview] at hrest
    -- an entry of size zero is its own successor
    by_cases hzero : getSize mem (view s) = 0
    · rw [hzero, add_zero, sub_zero] at hrest
      exact hrest
    · exact .entry (hin ha hreads) ((BitVec.pos_iff_ne_zero _).mpr hzero) hlt hrest

lemma ahead_start (hlength : 44 ≤ tableLength mem baseAddr) :
    Ahead mem baseAddr (getIterator mem baseAddr) := by
  have hoffset : baseAddr + headerSize - baseAddr = headerSize := add_sub_cancel_left _ _
  have hsize : (dataSize mem baseAddr).toNat = tableLength mem baseAddr - 44 := by
    have hwidth : ((mem.load32 (baseAddr + 4)).setWidth 64 : Word).toNat =
        tableLength mem baseAddr := BitVec.toNat_setWidth_of_le (by decide)
    rw [dataSize, BitVec.toNat_sub_of_le, hwidth]
    · rfl
    · rw [BitVec.le_def, hwidth]
      exact hlength
  show (baseAddr + headerSize - baseAddr).toNat + (dataSize mem baseAddr).toNat = _
  rw [hoffset, hsize, show headerSize.toNat = 44 from rfl]
  omega

lemma canIterate_eq_false : canIterate mem baseAddr = false ↔ tableLength mem baseAddr = 44 := by
  have hnat : ((mem.load32 (baseAddr + 4)).setWidth 64 : Word).toNat = tableLength mem baseAddr :=
    BitVec.toNat_setWidth_of_le (by decide)
  have hheader : headerSize.toNat = 44 := rfl
  rw [canIterate, decide_eq_false_iff_not]
  constructor
  · intro hnot
    have hzero : dataSize mem baseAddr = 0 := by
      by_contra hne
      exact hnot ((BitVec.pos_iff_ne_zero _).mpr hne)
    rw [← hnat, sub_eq_zero.mp hzero, hheader]
  · intro hlength
    have hzero : dataSize mem baseAddr = 0 :=
      sub_eq_zero.mpr (BitVec.eq_of_toNat_eq (hnat.trans hlength))
    rw [hzero]
    exact BitVec.lt_irrefl _

/-- A function that loops over the entries is safe exactly if it can walk the table. -/
lemma safe_iff (hwalks : Walks mem body view found) (hbound : ∀ it, ∀ k ∈ reads it, k < 12)
    (htype : ∀ it, 0 ∈ reads it) (hview : view s = getIterator mem baseAddr)
    {run : ℕ → Option (Outcome ρ)} {d : ρ} (hrun : ∀ rounds, run rounds =
      if !canIterate mem baseAddr then some (.ok d) else loop body rounds s) :
    Safe mem body view reads baseAddr s run ↔ TableWalkable mem reads found baseAddr := by
  rcases Nat.lt_trichotomy (tableLength mem baseAddr) 44 with hshort | hheader | hlong
  · -- the length left wraps, and the first type byte is past the end
    refine iff_of_false (fun hsafe => ?_) ?_
    · have hiterate : canIterate mem baseAddr = true := by
        rw [← Bool.not_eq_false, canIterate_eq_false]
        omega
      have hread := hsafe.2 hiterate _ (readsByte_iff.mpr (.inl ⟨0, htype _, rfl⟩))
      rw [hview, BitVec.add_zero] at hread
      have hoffset : (baseAddr + headerSize - baseAddr).toNat = 44 := by
        rw [add_sub_cancel_left]
        rfl
      exact absurd (hoffset ▸ hread) (by omega)
    · rintro (h | ⟨h, -⟩) <;> omega
  · have hiterate := canIterate_eq_false.mpr hheader
    refine iff_of_true ⟨⟨0, .ok d, ?_⟩, fun h => ?_⟩ (.inl hheader)
    · rw [hrun, hiterate]
      rfl
    · rw [hiterate] at h
      cases h
  · have hiterate : canIterate mem baseAddr = true := by
      rw [← Bool.not_eq_false, canIterate_eq_false]
      omega
    have hloop : ∀ rounds, run rounds = loop body rounds s := by
      intro rounds
      rw [hrun, hiterate]
      rfl
    have ha : Ahead mem baseAddr (view s) := hview ▸ ahead_start hlong.le
    have hsome : TableWalkable mem reads found baseAddr ↔ Walkable mem reads found (view s) := by
      rw [hview]
      refine ⟨fun h => ?_, fun h => .inr ⟨hlong, h⟩⟩
      rcases h with h | ⟨-, h⟩
      · omega
      · exact h
    rw [hsome]
    constructor
    · rintro ⟨⟨rounds, r, hr⟩, hreads⟩
      exact walkable_of_safe hwalks hbound ⟨rounds, (hloop rounds).symm.trans hr⟩ ha
        (hreads hiterate)
    · intro h
      obtain ⟨⟨r, rounds, hr⟩, hreads⟩ := h.safe hwalks hbound ha rfl
      exact ⟨⟨rounds, r, (hloop rounds).trans hr⟩, fun _ => hreads⟩

end

lemma walks_round {β : Type} (body : Iterator → β → β) :
    Walks mem (round mem body) Prod.fst fun _ => false where
  leaves s h := by
    obtain ⟨it, acc⟩ := s
    rcases h with h | h
    · cases h
    · cases hnext : next mem it with
      | error e => exact ⟨_, by simp only [round, hnext]; rfl⟩
      | ok o =>
        cases o with
        | none => exact ⟨_, by simp only [round, hnext]; rfl⟩
        | some it' => exact absurd hnext (h it')
  moves s it' _ hnext := ⟨(it', body s.1 s.2), by simp only [round, hnext], rfl⟩

lemma walks_search (found : Iterator → Bool) : Walks mem (searchRound mem found) id found where
  leaves it h := by
    cases hfound : found it with
    | true => exact ⟨_, by simp only [searchRound, hfound]; rfl⟩
    | false =>
      cases hnext : next mem it with
      | error e => exact ⟨_, by simp only [searchRound, hfound, hnext]; rfl⟩
      | ok o =>
        cases o with
        | none => exact ⟨_, by simp only [searchRound, hfound, hnext]; rfl⟩
        | some it' =>
          rcases h with h | h
          · cases hfound.symm.trans h
          · exact absurd hnext (h it')
  moves it it' hfound hnext := by
    have hfound : found it = false := hfound
    have hnext : next mem it = .ok (some it') := hnext
    refine ⟨it', ?_, rfl⟩
    simp only [searchRound, hfound, hnext]
    rfl

variable (mem baseAddr)

lemma countType_safe_iff (type : BitVec 8) : CountTypeSafe mem baseAddr type ↔
    TableWalkable mem typeReads (fun _ => false) baseAddr :=
  safe_iff (walks_round _) (fun _ _ hk => lt_trans hk (by decide)) (fun _ => Nat.two_pos) rfl
    fun _ => rfl

lemma countLapics_safe_iff (checkUsable : Bool) : CountLapicsSafe mem baseAddr checkUsable ↔
    TableWalkable mem (lapicReads mem checkUsable) (fun _ => false) baseAddr := by
  refine safe_iff (walks_round _) (fun _ k hk => ?_) (fun _ => .inl Nat.two_pos) rfl fun _ => rfl
  rcases hk with hk | ⟨-, ⟨-, -, hk⟩ | ⟨-, -, hk⟩⟩ <;> omega

lemma lookupIso_safe_iff (physIRQ : BitVec 8) : LookupIsoSafe mem baseAddr physIRQ ↔
    TableWalkable mem (isoReads mem physIRQ) (isIso mem physIRQ) baseAddr := by
  refine safe_iff (walks_search _) (fun _ k hk => ?_) (fun _ => .inl rfl) rfl fun _ => rfl
  rcases hk with rfl | ⟨-, rfl⟩ | ⟨-, rfl | ⟨-, rfl⟩⟩ <;> decide

lemma lookupIOApic_safe_iff (base : BitVec 32) : LookupIOApicSafe mem baseAddr base ↔
    TableWalkable mem (ioApicReads mem base) (isIOApic mem base) baseAddr := by
  refine safe_iff (walks_search _) (fun _ k hk => ?_) (fun _ => .inl rfl) rfl fun _ => rfl
  rcases hk with rfl | ⟨-, rfl⟩ | ⟨-, -, hk⟩ <;> omega

/-- Each query depends on no other bytes than those it is said to read, and is safe exactly if it
can walk the table. -/
theorem queries_safe_iff :
    (∀ type, (ReadsOnly mem Prod.fst typeReads fun mem => round mem (typeBody mem type)) ∧
      (CountTypeSafe mem baseAddr type ↔
        TableWalkable mem typeReads (fun _ => false) baseAddr)) ∧
    (∀ checkUsable, (ReadsOnly mem Prod.fst (lapicReads mem checkUsable)
        fun mem => round mem (countBody mem checkUsable)) ∧
      (CountLapicsSafe mem baseAddr checkUsable ↔
        TableWalkable mem (lapicReads mem checkUsable) (fun _ => false) baseAddr)) ∧
    (∀ physIRQ, (ReadsOnly mem id (isoReads mem physIRQ)
        fun mem => searchRound mem (isIso mem physIRQ)) ∧
      (LookupIsoSafe mem baseAddr physIRQ ↔
        TableWalkable mem (isoReads mem physIRQ) (isIso mem physIRQ) baseAddr)) ∧
    ∀ base, (ReadsOnly mem id (ioApicReads mem base)
        fun mem => searchRound mem (isIOApic mem base)) ∧
      (LookupIOApicSafe mem baseAddr base ↔
        TableWalkable mem (ioApicReads mem base) (isIOApic mem base) baseAddr) :=
  ⟨fun type => ⟨countType_reads mem type, countType_safe_iff mem baseAddr type⟩,
    fun checkUsable => ⟨countLapics_reads mem checkUsable,
      countLapics_safe_iff mem baseAddr checkUsable⟩,
    fun physIRQ => ⟨lookupIso_reads mem physIRQ, lookupIso_safe_iff mem baseAddr physIRQ⟩,
    fun base => ⟨lookupIOApic_reads mem base, lookupIOApic_safe_iff mem baseAddr base⟩⟩

variable {mem baseAddr}

lemma not_walkable_of_empty {reads : Iterator → Set ℕ} {found : Iterator → Bool}
    (hsize : getSize mem it = 0) (hdata : it.dataSize ≠ 0) (hfound : found it = false) :
    ¬ Walkable mem reads found it := by
  intro h
  cases h with
  | found _ h => cases hfound.symm.trans h
  | last _ hle =>
    rw [hsize] at hle
    exact hdata (BitVec.le_zero_iff.mp hle)
  | entry _ hpos =>
    rw [hsize] at hpos
    exact BitVec.lt_irrefl _ hpos

end

/-- A table of 52 bytes whose first entry has size zero. -/
def emptyEntry : ByteMemory := fun addr => if addr = 4 then 52 else 0

/-- The queries stay at the entry for ever. -/
theorem emptyEntry_not_safe :
    ¬ CountTypeSafe emptyEntry 0 0 ∧ ¬ CountLapicsSafe emptyEntry 0 true ∧
    ¬ LookupIsoSafe emptyEntry 0 0 ∧ ¬ LookupIOApicSafe emptyEntry 0 0 := by
  have hlength : tableLength emptyEntry 0 = 52 := rfl
  have hstuck : ∀ {reads : Iterator → Set ℕ} {found : Iterator → Bool},
      found (getIterator emptyEntry 0) = false → ¬ TableWalkable emptyEntry reads found 0 := by
    rintro reads found hfound (h | ⟨-, h⟩)
    · exact absurd (hlength.symm.trans h) (by decide)
    · exact not_walkable_of_empty rfl (by decide) hfound h
  rw [countType_safe_iff, countLapics_safe_iff, lookupIso_safe_iff, lookupIOApic_safe_iff]
  exact ⟨hstuck rfl, hstuck rfl, hstuck (by decide), hstuck (by decide)⟩

end Anarch.ApicTable
