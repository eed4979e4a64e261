import Anarch.Machine
import Mathlib.Data.BitVec

/-! The interrupt table: gates in the layout that the processor reads, and for each vector a
piece of machine code that puts the vector on the stack. -/
namespace Anarch
open ByteMemory X86

/-- The two words that the machine code of an `IdtHandler` carries. -/
structure IdtHandler where
  argument : Word := 0
  function : Word := 0
  deriving DecidableEq, Repr

structure IdtEntry where
  lowOffset : BitVec 16 := 0
  codeSegment : BitVec 16 := 8
  ist : BitVec 3 := 0
  reserved1 : BitVec 5 := 0
  flags : BitVec 8 := 0
  midOffset : BitVec 16 := 0
  highOffset : BitVec 32 := 0
  reserved2 : BitVec 32 := 0
  deriving DecidableEq, Repr

/-- The table and its address, which is that of the entries. -/
structure Idt where
  base : Word
  entries : BitVec 8 → IdtEntry
  handlers : BitVec 8 → IdtHandler

namespace IdtHandler

def code1 : List (BitVec 8) := [0x50, 0x50, 0x48, 0xB8]
def code2 : List (BitVec 8) := [0x48, 0x89, 0x44, 0x24, 0x08, 0x48, 0xB8]
def code3 : List (BitVec 8) := [0x48, 0x87, 0x04, 0x24, 0xc3]

def bytes (h : IdtHandler) : List (BitVec 8) :=
  code1 ++ ByteMemory.bytes 8 h.argument.toNat ++ code2 ++
    ByteMemory.bytes 8 h.function.toNat ++ code3

/-- The listing in the comment of the source. -/
def listing (h : IdtHandler) : List Instr :=
  [.push .rax, .push .rax, .movImm .rax h.argument, .store .rsp 8 .rax, .movImm .rax h.function,
    .xchg .rax .rsp, .ret]

end IdtHandler

namespace IdtEntry

def setOffset (exc : Word) (e : IdtEntry) : IdtEntry :=
  { e with
    lowOffset := (exc &&& 0xffff).setWidth 16
    midOffset := (exc >>> 16 &&& 0xffff).setWidth 16
    highOffset := (exc >>> 32).setWidth 32 }

/-- The address that the pieces of an offset make up. -/
def offset (e : IdtEntry) : Word := e.highOffset ++ e.midOffset ++ e.lowOffset

def bytes (e : IdtEntry) : List (BitVec 8) :=
  ByteMemory.bytes 2 e.lowOffset.toNat ++ ByteMemory.bytes 2 e.codeSegment.toNat ++
    [e.reserved1 ++ e.ist, e.flags] ++ ByteMemory.bytes 2 e.midOffset.toNat ++
    ByteMemory.bytes 4 e.highOffset.toNat ++ ByteMemory.bytes 4 e.reserved2.toNat

end IdtEntry

/-- How the processor decodes the instructions that a handler consists of. -/
def X86.decode : List (BitVec 8) → Option (List Instr)
  | [] => some []
  | b :: rest =>
      if b = 0x50 then (decode rest).map (.push .rax :: ·)
      else if b = 0xc3 then (decode rest).map (.ret :: ·)
      else if b = 0x48 then
        match rest with
        | 0xB8 :: b0 :: b1 :: b2 :: b3 :: b4 :: b5 :: b6 :: b7 :: rest =>
            (decode rest).map
              (.movImm .rax (.ofNat 64 (number [b0, b1, b2, b3, b4, b5, b6, b7])) :: ·)
        | 0x89 :: 0x44 :: 0x24 :: disp :: rest =>
            (decode rest).map (.store .rsp (disp.signExtend 64) .rax :: ·)
        | 0x87 :: 0x04 :: 0x24 :: rest => (decode rest).map (.xchg .rax .rsp :: ·)
        | _ => none
      else none

/-- How the processor reads a gate. -/
def X86.readGate (mem : ByteMemory) (addr : Word) : Gate where
  offset := .ofNat 64 (loadNat mem addr 2 + 2 ^ 16 * loadNat mem (addr + 6) 2 +
    2 ^ 32 * loadNat mem (addr + 8) 4)
  selector := .ofNat 16 (loadNat mem (addr + 2) 2)
  ist := (mem (addr + 4)).setWidth 3
  flags := mem (addr + 5)

namespace Idt

/-- `&handlers[idx]`. -/
def handlerAddr (idt : Idt) (idx : BitVec 8) : Word :=
  idt.base + 0x1000 + 0x20 * idx.setWidth 64

def entryAddr (idt : Idt) (idx : BitVec 8) : Word := idt.base + 0x10 * idx.setWidth 64

def setEntry (idx : BitVec 8) (fn : Word) (flags : BitVec 8) (idt : Idt) : Idt :=
  { idt with
    handlers := Function.update idt.handlers idx ⟨idx.setWidth 64, fn⟩
    entries := Function.update idt.entries idx
      { (idt.entries idx).setOffset (idt.handlerAddr idx) with flags } }

/-- The constructor's table. -/
def fresh (base : Word) : Idt := ⟨base, fun _ => {}, fun _ => {}⟩

def setIst (idx : BitVec 8) (ist : BitVec 3) (idt : Idt) : Idt :=
  { idt with entries := Function.update idt.entries idx { idt.entries idx with ist } }

def Loaded (idt : Idt) (mem : ByteMemory) : Prop :=
  ∀ v, HasBytes mem (idt.entryAddr v) (idt.entries v).bytes ∧
    HasBytes mem (idt.handlerAddr v) (idt.handlers v).bytes

/-- Memory with the table in it and nothing else. -/
def memory (idt : Idt) : ByteMemory := fun addr =>
  let k := (addr - idt.base).toNat
  if k < 0x1000 then (idt.entries (.ofNat 8 (k / 0x10))).bytes.getD (k % 0x10) 0
  else (idt.handlers (.ofNat 8 ((k - 0x1000) / 0x20))).bytes.getD (k % 0x20) 0

def size : ℕ := 0x3000

end Idt

/-- The exceptions that `Irt::Configure` expects an error code for. -/
def Irt.hasCode (i : BitVec 8) : Bool := i = 0x8 || i = 0x11 || (0xa ≤ i && i ≤ 0xe)

/-- A `SetEntry` for every vector. -/
def Irt.setAll (fn : BitVec 8 → Word) (idt : Idt) : Idt :=
  (List.range 0x100).foldl (fun idt i => idt.setEntry (.ofNat 8 i) (fn (.ofNat 8 i)) 0x8e) idt

def Irt.configurePicEoi (rawPicEoiIsr : Word) (idt : Idt) : Idt := setAll (fun _ => rawPicEoiIsr) idt

/-- The function that `Irt::Configure` puts into an entry. -/
def Irt.isr (rawCodedIsr rawNonCodedIsr : Word) (i : BitVec 8) : Word :=
  if hasCode i then rawCodedIsr else rawNonCodedIsr

def Irt.configure (rawCodedIsr rawNonCodedIsr : Word) (idt : Idt) : Idt :=
  setAll (isr rawCodedIsr rawNonCodedIsr) idt

/-- Every entry leads to its own handler, and every handler to the function of its vector. -/
structure Idt.Leads (fn : BitVec 8 → Word) (idt : Idt) : Prop where
  handlers : ∀ v, idt.handlers v = ⟨v.setWidth 64, fn v⟩
  entries : ∀ v, (idt.entries v).offset = idt.handlerAddr v ∧
    (idt.entries v).codeSegment = 8 ∧ (idt.entries v).flags = 0x8e

section
variable {idt : Idt} {idx v : BitVec 8} {mem : ByteMemory} {fn : BitVec 8 → Word}

lemma IdtEntry.offset_setOffset (e : IdtEntry) (exc : Word) : (e.setOffset exc).offset = exc := by
  have hmask : ∀ x : Word, (x &&& 0xffff).setWidth 16 = x.setWidth 16 := fun x => by
    rw [BitVec.setWidth_and, show (0xffff : Word).setWidth 16 = BitVec.allOnes 16 from rfl,
      BitVec.and_allOnes]
  apply BitVec.eq_of_getLsbD_eq
  intro i hi
  simp only [IdtEntry.offset, IdtEntry.setOffset, hmask, BitVec.getLsbD_append,
    BitVec.getLsbD_setWidth, BitVec.getLsbD_ushiftRight]
  grind

lemma IdtEntry.offset_eq (e : IdtEntry) : e.offset = .ofNat 64 (e.lowOffset.toNat +
    2 ^ 16 * e.midOffset.toNat + 2 ^ 32 * e.highOffset.toNat) := by
  apply BitVec.eq_of_toNat_eq
  have := e.lowOffset.isLt
  have := e.midOffset.isLt
  have := e.highOffset.isLt
  rw [offset, BitVec.toNat_append, BitVec.toNat_append, BitVec.toNat_ofNat,
    ← Nat.shiftLeft_add_eq_or_of_lt (by omega), ← Nat.shiftLeft_add_eq_or_of_lt (by omega),
    Nat.shiftLeft_eq, Nat.shiftLeft_eq]
  omega

lemma readGate_eq {addr : Word} {e : IdtEntry} (h : HasBytes mem addr e.bytes) :
    readGate mem addr = ⟨e.offset, e.codeSegment, e.ist, e.flags⟩ := by
  obtain ⟨h, -⟩ := h.append
  obtain ⟨h, hhigh⟩ := h.append
  obtain ⟨h, hmid⟩ := h.append
  obtain ⟨h, hbits⟩ := h.append
  obtain ⟨hlow, hseg⟩ := h.append
  have hist : mem (addr + 4) = e.reserved1 ++ e.ist := by simpa using hbits 0 _ rfl
  have hflags : mem (addr + 5) = e.flags := by
    simpa [add_assoc] using hbits 1 _ rfl
  have hseg : loadNat mem (addr + 2) 2 = e.codeSegment.toNat := HasBytes.loadNat (n := 2) hseg
  have hmid : loadNat mem (addr + 6) 2 = e.midOffset.toNat := HasBytes.loadNat (n := 2) hmid
  have hhigh : loadNat mem (addr + 8) 4 = e.highOffset.toNat := HasBytes.loadNat (n := 4) hhigh
  have hlow : loadNat mem addr 2 = e.lowOffset.toNat := HasBytes.loadNat (n := 2) hlow
  have hbits : (e.reserved1 ++ e.ist).setWidth 3 = e.ist := BitVec.setWidth_append_eq_right
  rw [readGate, hlow, hmid, hhigh, hseg, hist, hflags, hbits, e.offset_eq, BitVec.ofNat_toNat,
    BitVec.setWidth_eq]

lemma IdtHandler.decode_bytes (h : IdtHandler) : decode h.bytes = some h.listing := by
  have hword : ∀ x : Word, BitVec.ofNat 64 (number (ByteMemory.bytes 8 x.toNat)) = x := fun x => by
    simp [number_bytes_toNat (n := 8) x]
  have harg := hword h.argument
  have hfn := hword h.function
  simp only [ByteMemory.bytes] at harg hfn
  simp [-BitVec.ofNat_toNat, bytes, code1, code2, code3, ByteMemory.bytes, decode, listing, harg,
    hfn]

lemma Idt.setEntry_self (g : Word) (flags : BitVec 8) :
    ((idt.setEntry idx g flags).entries idx).offset = idt.handlerAddr idx ∧
      ((idt.setEntry idx g flags).entries idx).codeSegment = (idt.entries idx).codeSegment ∧
      ((idt.setEntry idx g flags).entries idx).flags = flags := by
  simp only [setEntry, Function.update_self]
  exact ⟨(idt.entries idx).offset_setOffset _, rfl, trivial⟩

lemma Irt.setEntries (l : List ℕ) :
    let set := l.foldl (fun idt i => idt.setEntry (.ofNat 8 i) (fn (.ofNat 8 i)) 0x8e) idt
    set.base = idt.base ∧ ∀ v, (set.entries v).codeSegment = (idt.entries v).codeSegment ∧
      (v ∈ l.map (BitVec.ofNat 8) → set.handlers v = ⟨v.setWidth 64, fn v⟩ ∧
        (set.entries v).offset = idt.handlerAddr v ∧ (set.entries v).flags = 0x8e) := by
  induction l using List.reverseRecOn with
  | nil => simp
  | append_singleton l i ih =>
    simp only [List.foldl_append, List.foldl_cons, List.foldl_nil, List.map_append, List.map_cons,
      List.map_nil, List.mem_append, List.mem_singleton]
    generalize l.foldl _ idt = set at ih ⊢
    obtain ⟨hbase, hset⟩ := ih
    refine ⟨hbase, fun v => ?_⟩
    by_cases hv : v = .ofNat 8 i
    · obtain ⟨hoffset, hseg, hflags⟩ := set.setEntry_self (fn v) 0x8e
      rw [← hv]
      refine ⟨hseg.trans (hset v).1, fun _ => ⟨by simp [Idt.setEntry], ?_, hflags⟩⟩
      rw [hoffset, Idt.handlerAddr, hbase, Idt.handlerAddr]
    · simpa [Idt.setEntry, hv] using hset v

lemma Irt.setAll_leads (idt : Idt) (h : ∀ v, (idt.entries v).codeSegment = 8) :
    (setAll fn idt).base = idt.base ∧ (setAll fn idt).Leads fn := by
  obtain ⟨hbase, hset⟩ := setEntries (List.range 0x100)
  have hmem : ∀ v, v ∈ (List.range 0x100).map (BitVec.ofNat 8) := fun v =>
    List.mem_map.mpr ⟨v.toNat, List.mem_range.mpr v.isLt, BitVec.ofNat_toNat _ v⟩
  refine ⟨hbase, fun v => ((hset v).2 (hmem v)).1, fun v => ?_⟩
  obtain ⟨-, hoffset, hflags⟩ := (hset v).2 (hmem v)
  refine ⟨hoffset.trans ?_, (hset v).1.trans (h v), hflags⟩
  rw [Idt.handlerAddr, ← hbase]
  rfl

lemma Idt.Leads.setIst (h : idt.Leads fn) (ist : BitVec 3) : (idt.setIst idx ist).Leads fn where
  handlers := h.handlers
  entries w := by
    have haddr : (idt.setIst idx ist).handlerAddr w = idt.handlerAddr w := rfl
    obtain ⟨hoffset, hseg, hflags⟩ := h.entries w
    rw [haddr, Idt.setIst]
    by_cases hw : w = idx
    · subst hw
      simpa using ⟨hoffset, hseg, hflags⟩
    · simpa [hw] using h.entries w

lemma Idt.loaded_memory (idt : Idt) : idt.Loaded idt.memory := by
  intro v
  have hv := v.isLt
  constructor
  · intro k b hk
    obtain ⟨hlt, -⟩ := List.getElem?_eq_some_iff.mp hk
    replace hlt : k < 0x10 := by simpa [IdtEntry.bytes] using hlt
    have hoff : (idt.entryAddr v + .ofNat 64 k - idt.base).toNat = 0x10 * v.toNat + k := by
      rw [entryAddr, show idt.base + 0x10 * v.setWidth 64 + .ofNat 64 k - idt.base =
        0x10 * v.setWidth 64 + .ofNat 64 k by abel]
      simp
      omega
    have hdiv : (0x10 * v.toNat + k) / 0x10 = v.toNat := by omega
    have hmod : (0x10 * v.toNat + k) % 0x10 = k := by omega
    rw [memory, hoff, if_pos (by omega), hdiv, hmod, BitVec.ofNat_toNat, BitVec.setWidth_eq]
    simp [List.getD, hk]
  · intro k b hk
    obtain ⟨hlt, -⟩ := List.getElem?_eq_some_iff.mp hk
    replace hlt : k < 0x20 := by
      simpa [IdtHandler.bytes, IdtHandler.code1, IdtHandler.code2, IdtHandler.code3] using hlt
    have hoff : (idt.handlerAddr v + .ofNat 64 k - idt.base).toNat =
        0x1000 + 0x20 * v.toNat + k := by
      rw [handlerAddr, show idt.base + 0x1000 + 0x20 * v.setWidth 64 + .ofNat 64 k - idt.base =
        0x1000 + 0x20 * v.setWidth 64 + .ofNat 64 k by abel]
      simp
      omega
    have hdiv : (0x1000 + 0x20 * v.toNat + k - 0x1000) / 0x20 = v.toNat := by omega
    have hmod : (0x1000 + 0x20 * v.toNat + k) % 0x20 = k := by omega
    rw [memory, hoff, if_neg (by omega), hdiv, hmod, BitVec.ofNat_toNat, BitVec.setWidth_eq]
    simp [List.getD, hk]

end

end Anarch
