import Anarch.ApicTableEntries

/-! The I/O APIC: its registers, the redirection entries in them, and the input of an
interrupt source, which the APIC table may override. -/
namespace Anarch

structure IOApic.Entry where
  vector : BitVec 8 := 0
  delmode : BitVec 3 := 0
  destmode : BitVec 1 := 0
  delstatus : BitVec 1 := 0
  intpol : BitVec 1 := 0
  remirr : BitVec 1 := 0
  triggermode : BitVec 1 := 0
  imask : BitVec 1 := 0
  reserved : BitVec 39 := 0
  destfield : BitVec 8 := 0
  deriving DecidableEq, Repr

/-- The memory and the address of the APIC table, the register that is selected, and the
contents of the registers. -/
structure IOApic where
  mem : ByteMemory
  table : Word
  select : BitVec 32
  regs : BitVec 8 → BitVec 32

namespace IOApic
open TransitionRun ApicTable

/-- The entry as the 64 bits of its layout. -/
def Entry.bits (e : Entry) : BitVec 64 :=
  e.vector.setWidth 64 ||| e.delmode.setWidth 64 <<< 8 ||| e.destmode.setWidth 64 <<< 11 |||
    e.delstatus.setWidth 64 <<< 12 ||| e.intpol.setWidth 64 <<< 13 |||
    e.remirr.setWidth 64 <<< 14 ||| e.triggermode.setWidth 64 <<< 15 |||
    e.imask.setWidth 64 <<< 16 ||| e.reserved.setWidth 64 <<< 17 |||
    e.destfield.setWidth 64 <<< 56

def isoInterrupt (mem : ByteMemory) (iso : Word) : BitVec 32 := mem.load32 (iso + 4)
def isoFlags (mem : ByteMemory) (iso : Word) : BitVec 16 := .ofNat 16 (mem.loadNat (iso + 8) 2)

/-- `regs[0] = reg`, then `regs[4] = val`, which goes to the register that is selected. -/
def writeReg (reg : BitVec 8) (val : BitVec 32) (s : IOApic) : IOApic :=
  let s := { s with select := reg.setWidth 32 }
  { s with regs := Function.update s.regs (s.select.setWidth 8) val }

def low (idx : BitVec 8) : BitVec 8 := 0x10 + idx * 2
def high (idx : BitVec 8) : BitVec 8 := 0x11 + idx * 2

def setEntry (idx : BitVec 8) (entry : Entry) (s : IOApic) : IOApic :=
  let s := writeReg (low idx) 0x10000 s
  let s := writeReg (high idx) (entry.bits.extractLsb' 32 32) s
  writeReg (low idx) (entry.bits.extractLsb' 0 32) s

def maskPin (irq : BitVec 8) (s : IOApic) : IOApic := writeReg (low irq) 0x10000 s

/-- What `MapIrq` does with what `LookupIso` found. -/
def mapFound (irq vector : BitVec 8) (s : IOApic) : Option Word → IOApic
  | some iso =>
      let flags := isoFlags s.mem iso
      setEntry ((isoInterrupt s.mem iso).setWidth 8)
        { vector
          intpol := if flags &&& 3 ≠ 0 then 1 else 0
          triggermode := if flags >>> 2 &&& 3 ≠ 0 then 1 else 0 } s
  | none => setEntry irq { vector } s

/-- `MapIrq`, with at most so many rounds of the lookup. -/
def mapIrq (rounds : ℕ) (irq vector : BitVec 8) (s : IOApic) : Option (Outcome IOApic) :=
  (lookupIso s.mem rounds s.table irq).map (·.map (mapFound irq vector s))

/-- What `MaskIrq` does with what `LookupIso` found. -/
def maskFound (irq : BitVec 8) (s : IOApic) : Option Word → IOApic
  | some iso => maskPin ((isoInterrupt s.mem iso).setWidth 8) s
  | none => maskPin irq s

/-- `MaskIrq`, with at most so many rounds of the lookup. -/
def maskIrq (rounds : ℕ) (irq : BitVec 8) (s : IOApic) : Option (Outcome IOApic) :=
  (lookupIso s.mem rounds s.table irq).map (·.map (maskFound irq s))

def entry (s : IOApic) (idx : BitVec 8) : BitVec 64 :=
  (s.regs (high idx)).setWidth 64 <<< 32 ||| (s.regs (low idx)).setWidth 64

/-- The input of a source: that of its first override, or the one with its number. -/
def pin (entries : List ApicTable.Entry) (irq : BitVec 8) : BitVec 8 :=
  match entries.find? (Entry.overrides irq) with
  | some e => (e.word 4).setWidth 8
  | none => irq

/-- The entry keeps the interrupt from its processor. -/
def masked (s : IOApic) (idx : BitVec 8) : Bool := (s.entry idx).getLsbD 16

section
variable {s : IOApic} {idx i irq vector : BitVec 8} {e : Entry}

@[simp] lemma writeReg_regs (reg : BitVec 8) (val : BitVec 32) (s : IOApic) :
    (writeReg reg val s).regs = Function.update s.regs reg val := by
  simp [writeReg]

lemma low_ne_high (idx i : BitVec 8) : low idx ≠ high i := by
  simp only [low, high]
  bv_omega

lemma low_eq_iff : low i = low idx ↔ i * 2 = idx * 2 := add_right_inj _

lemma high_eq_iff : high i = high idx ↔ i * 2 = idx * 2 := add_right_inj _

lemma halves (x : BitVec 64) :
    (x.extractLsb' 32 32).setWidth 64 <<< 32 ||| (x.extractLsb' 0 32).setWidth 64 = x := by
  apply BitVec.eq_of_getLsbD_eq
  intro i hi
  by_cases h : i < 32
  · simp [h, hi]
  · simp [h, hi, Nat.add_sub_cancel' (not_lt.mp h), show i - 32 < 32 by omega]

lemma entry_setEntry : (setEntry idx e s).entry i =
    if i * 2 = idx * 2 then e.bits else s.entry i := by
  have hne := low_ne_high idx idx
  split_ifs with h
  · rw [entry, low_eq_iff.mpr h, high_eq_iff.mpr h]
    simp [setEntry, hne.symm, halves]
  · have hlow : low i ≠ low idx := mt low_eq_iff.mp h
    have hhigh : high i ≠ high idx := mt high_eq_iff.mp h
    simp [setEntry, entry, hlow, hhigh, low_ne_high, (low_ne_high _ _).symm]

lemma entry_maskPin_of_ne (h : i * 2 ≠ idx * 2) : (maskPin idx s).entry i = s.entry i := by
  have hlow : low i ≠ low idx := mt low_eq_iff.mp h
  simp [maskPin, entry, hlow, (low_ne_high _ _).symm]

lemma masked_maskPin (h : i * 2 = idx * 2) : (maskPin idx s).masked i = true := by
  rw [masked, entry, low_eq_iff.mpr h]
  simp [maskPin]

lemma masked_bits : e.bits.getLsbD 16 = e.imask.getLsbD 0 := by
  simp [Entry.bits]

end

section
variable {s : IOApic} {entries : List ApicTable.Entry} {irq : BitVec 8}

lemma firstAddr_find {mem : ByteMemory} {addr : Word} {p : ApicTable.Entry → Bool}
    (h : Holds mem addr (entries.flatMap ApicTable.Entry.bytes)) :
    (firstAddr p addr entries = none ∧ entries.find? p = none) ∨
    ∃ a e, firstAddr p addr entries = some a ∧ entries.find? p = some e ∧
      Holds mem a e.bytes := by
  induction entries generalizing addr with
  | nil => exact .inl ⟨rfl, rfl⟩
  | cons e entries ih =>
    rw [List.flatMap_cons] at h
    obtain ⟨hentry, hrest⟩ := h.append
    rw [firstAddr, List.find?_cons]
    cases p e with
    | true => exact .inr ⟨addr, e, rfl, rfl, hentry⟩
    | false => exact ih hrest

variable (s entries irq) in
/-- The override of a source that the table has first. -/
def override : Option Word := firstAddr (Entry.overrides irq) (s.table + headerSize) entries

lemma lookupIso_iff (h : Encodes s.mem s.table entries) {r : Outcome (Option Word)} :
    (∃ rounds, lookupIso s.mem rounds s.table irq = some r) ↔
      r = .ok (override s entries irq) := by
  by_cases hne : entries = []
  · subst hne
    have hdata : dataSize s.mem s.table = 0 := congrArg Iterator.dataSize h.iterator.2
    have hempty : ∀ rounds, lookupIso s.mem rounds s.table irq = some (.ok none) := fun rounds => by
      simp [lookupIso, canIterate, hdata]
    simp [hempty, override, firstAddr, eq_comm]
  · have hfound := h.lookup hne fun it e hat => isIso_at irq hat
    constructor
    · rintro ⟨rounds, hrounds⟩
      obtain ⟨rounds', hrounds'⟩ := hfound
      rw [lookupIso, canIterate, decide_eq_true (h.dataSize_pos hne)] at hrounds
      rw [canIterate, decide_eq_true (h.dataSize_pos hne)] at hrounds'
      exact Returns.unique ⟨rounds, hrounds⟩ ⟨rounds', hrounds'⟩
    · rintro rfl
      exact hfound

lemma lookupIso_map_iff (h : Encodes s.mem s.table entries) {f : Option Word → IOApic}
    {r : Outcome IOApic} :
    (∃ rounds, (lookupIso s.mem rounds s.table irq).map (·.map f) = some r) ↔
      r = .ok (f (override s entries irq)) := by
  constructor
  · rintro ⟨rounds, hrounds⟩
    obtain ⟨found, hfound, rfl⟩ := Option.map_eq_some_iff.mp hrounds
    rw [(lookupIso_iff h).mp ⟨rounds, hfound⟩]
    rfl
  · rintro rfl
    obtain ⟨rounds, hfound⟩ :=
      (lookupIso_iff h).mpr (rfl : _ = Except.ok (override s entries irq))
    exact ⟨rounds, by rw [hfound]; rfl⟩

lemma interrupt_of_find {e : ApicTable.Entry} {a : Word}
    (hfind : entries.find? (Entry.overrides irq) = some e) (hholds : Holds s.mem a e.bytes) :
    (isoInterrupt s.mem a).setWidth 8 = pin entries irq := by
  have hoverrides := List.find?_some hfind
  have htype : e.type = typeIso := by
    simp only [Entry.overrides, decide_eq_true_eq] at hoverrides
    exact hoverrides.1
  have hfits := e.fits
  rw [htype] at hfits
  have hat : At s.mem ⟨a, 0⟩ e := hholds
  have hword := hat.word (j := 4) (Nat.le_trans (by decide) hfits)
  rw [pin, hfind, isoInterrupt]
  exact congrArg _ hword

lemma mapFound_override (h : Encodes s.mem s.table entries) (vector : BitVec 8) :
    ∃ e : Entry, e.imask = 0 ∧
      mapFound irq vector s (override s entries irq) = setEntry (pin entries irq) e s := by
  rcases firstAddr_find h.bytes with ⟨haddr, hfind⟩ | ⟨a, e, haddr, hfind, hholds⟩
  · rw [override, haddr, pin, hfind]
    exact ⟨_, rfl, rfl⟩
  · rw [override, haddr, ← interrupt_of_find hfind hholds]
    exact ⟨_, rfl, rfl⟩

lemma maskFound_override (h : Encodes s.mem s.table entries) :
    maskFound irq s (override s entries irq) = maskPin (pin entries irq) s := by
  rcases firstAddr_find h.bytes with ⟨haddr, hfind⟩ | ⟨a, e, haddr, hfind, hholds⟩
  · rw [override, haddr, pin, hfind]
    rfl
  · rw [override, haddr, ← interrupt_of_find hfind hholds]
    rfl

end

end IOApic

end Anarch
