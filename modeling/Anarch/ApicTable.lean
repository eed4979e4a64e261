import Anarch.ByteMemory
import Anarch.TransitionRun

/-! The ACPI APIC table: its iterator, the passes that count entries or start the processors,
and the searches for an entry. -/
namespace Anarch.ApicTable
open TransitionRun

abbrev ApicId := BitVec 32

def typeLapic : BitVec 8 := 0
def typeIOApic : BitVec 8 := 1
def typeIso : BitVec 8 := 2
def typeX2Apic : BitVec 8 := 9

/-- `sizeof(Header)`. -/
def headerSize : Word := 44

structure Iterator where
  address : Word
  dataSize : Word
  deriving DecidableEq, Repr

section
variable (mem : ByteMemory)

def getType (it : Iterator) : BitVec 8 := mem.load8 it.address

def getSize (it : Iterator) : Word := (mem.load8 (it.address + 1)).setWidth 64

/-- `Iterator::Next`: `none` where it returns false. -/
def next (it : Iterator) : Outcome (Option Iterator) := do
  let thisSize := getSize mem it
  assertThat "thisSize <= dataSize" (thisSize ≤ it.dataSize)
  return if thisSize = it.dataSize then none
    else some ⟨it.address + thisSize, it.dataSize - thisSize⟩

/-- The fields of a `LocalApic`. -/
def lapicId (info : Word) : BitVec 8 := mem.load8 (info + 3)
def lapicFlags (info : Word) : BitVec 32 := mem.load32 (info + 4)

/-- The fields of a `LocalApic2`. -/
def x2apicId (info : Word) : BitVec 32 := mem.load32 (info + 4)
def x2apicFlags (info : Word) : BitVec 32 := mem.load32 (info + 8)

/-- The fields of an `Iso` that are looked up. -/
def isoBus (info : Word) : BitVec 8 := mem.load8 (info + 2)
def isoSource (info : Word) : BitVec 8 := mem.load8 (info + 3)

/-- The field of an `IOApic` that is looked up. -/
def interruptBase (info : Word) : BitVec 32 := mem.load32 (info + 8)

def dataSize (baseAddr : Word) : Word := (mem.load32 (baseAddr + 4)).setWidth 64 - headerSize

def canIterate (baseAddr : Word) : Bool := 0 < dataSize mem baseAddr

def getIterator (baseAddr : Word) : Iterator := ⟨baseAddr + headerSize, dataSize mem baseAddr⟩

/-- One round of `do { body } while (it.Next())`. -/
def round {β : Type} (body : Iterator → β → β) :
    Iterator × β → (Iterator × β) ⊕ Outcome β
  | (it, acc) =>
      match next mem it with
      | .error e => .inr (.error e)
      | .ok none => .inr (.ok (body it acc))
      | .ok (some it') => .inl (it', body it acc)

/-- One round of a loop that returns the first entry found; `none` is `NULL`. -/
def searchRound (found : Iterator → Bool) (it : Iterator) : Iterator ⊕ Outcome (Option Word) :=
  if found it then .inr (.ok (some it.address))
  else
    match next mem it with
    | .error e => .inr (.error e)
    | .ok none => .inr (.ok none)
    | .ok (some it') => .inl it'

def typeBody (type : BitVec 8) (it : Iterator) (count : ℕ) : ℕ :=
  if getType mem it = type then count + 1 else count

/-- `CountType`, with at most so many rounds. -/
def countType (rounds : ℕ) (baseAddr : Word) (type : BitVec 8) : Option (Outcome ℕ) :=
  if !canIterate mem baseAddr then some (.ok 0)
  else loop (round mem (typeBody mem type)) rounds (getIterator mem baseAddr, 0)

def countIOApics (rounds : ℕ) (baseAddr : Word) : Option (Outcome ℕ) :=
  countType mem rounds baseAddr typeIOApic

def countBody (checkUsable : Bool) (it : Iterator) (count : ℕ) : ℕ :=
  if getType mem it = typeLapic then
    if !checkUsable then count + 1
    else if lapicFlags mem it.address &&& 1 ≠ 0 then count + 1 else count
  else if getType mem it = typeX2Apic then
    if !checkUsable then count + 1
    else if x2apicFlags mem it.address &&& 1 ≠ 0 then count + 1 else count
  else count

/-- `CountLapics`, with at most so many rounds. -/
def countLapics (rounds : ℕ) (baseAddr : Word) (checkUsable : Bool) : Option (Outcome ℕ) :=
  if !canIterate mem baseAddr then some (.ok 0)
  else loop (round mem (countBody mem checkUsable)) rounds (getIterator mem baseAddr, 0)

def isIso (physIRQ : BitVec 8) (it : Iterator) : Bool :=
  getType mem it = typeIso ∧ isoSource mem it.address = physIRQ ∧ isoBus mem it.address = 0

/-- `LookupIso`, with at most so many rounds. -/
def lookupIso (rounds : ℕ) (baseAddr : Word) (physIRQ : BitVec 8) :
    Option (Outcome (Option Word)) :=
  if !canIterate mem baseAddr then some (.ok none)
  else loop (searchRound mem (isIso mem physIRQ)) rounds (getIterator mem baseAddr)

def isIOApic (base : BitVec 32) (it : Iterator) : Bool :=
  getType mem it = typeIOApic ∧ interruptBase mem it.address = base

/-- `LookupIOApic`, with at most so many rounds. -/
def lookupIOApic (rounds : ℕ) (baseAddr : Word) (base : BitVec 32) :
    Option (Outcome (Option Word)) :=
  if !canIterate mem baseAddr then some (.ok none)
  else loop (searchRound mem (isIOApic mem base)) rounds (getIterator mem baseAddr)

/-- The body of `StartCpus`: one more call of `BootstrapCpu`, for the entry and its id. -/
def startBody (it : Iterator) (calls : List (Iterator × ApicId)) : List (Iterator × ApicId) :=
  if getType mem it = typeLapic then calls ++ [(it, (lapicId mem it.address).setWidth 32)]
  else if getType mem it = typeX2Apic then calls ++ [(it, x2apicId mem it.address)]
  else calls

/-- `StartCpus`, with at most so many rounds: its calls of `BootstrapCpu`. -/
def startCpus (rounds : ℕ) (baseAddr : Word) : Option (Outcome (List (Iterator × ApicId))) :=
  if !canIterate mem baseAddr then some (.ok [])
  else loop (round mem (startBody mem)) rounds (getIterator mem baseAddr, [])

def processorId (it : Iterator) : Option ApicId :=
  if getType mem it = typeLapic then some ((lapicId mem it.address).setWidth 32)
  else if getType mem it = typeX2Apic then some (x2apicId mem it.address)
  else none

/-- A processor entry with bit 0 of its flags set. -/
def usable (it : Iterator) : Bool :=
  if getType mem it = typeLapic then lapicFlags mem it.address &&& 1 ≠ 0
  else if getType mem it = typeX2Apic then x2apicFlags mem it.address &&& 1 ≠ 0
  else false

/-- The entries have positive sizes and fill what is left of the table. -/
def Filled : Iterator → List Iterator → Prop
  | it, [] => it.dataSize = 0
  | it, entry :: entries =>
      entry = it ∧ 0 < getSize mem it ∧ getSize mem it ≤ it.dataSize ∧
        Filled ⟨it.address + getSize mem it, it.dataSize - getSize mem it⟩ entries

end

section
variable {mem : ByteMemory}

lemma filled_nil {it : Iterator} {entries : List Iterator} (h : Filled mem it entries)
    (hdata : it.dataSize = 0) : entries = [] := by
  cases entries with
  | nil => rfl
  | cons entry entries =>
    obtain ⟨-, hpos, hle, -⟩ := h
    rw [BitVec.lt_def] at hpos
    rw [BitVec.le_def, hdata] at hle
    exact absurd (hpos.trans_le hle) (Nat.lt_irrefl 0)

lemma next_last {it : Iterator} (h : getSize mem it = it.dataSize) : next mem it = .ok none := by
  simp [next, h, assertThat, bind, Except.bind, pure, Except.pure]

lemma next_more {it : Iterator} (hle : getSize mem it ≤ it.dataSize)
    (h : getSize mem it ≠ it.dataSize) : next mem it =
      .ok (some ⟨it.address + getSize mem it, it.dataSize - getSize mem it⟩) := by
  simp [next, h, hle, assertThat, bind, Except.bind, pure, Except.pure]

lemma next_eq_some {it it' : Iterator} : next mem it = .ok (some it') ↔ getSize mem it < it.dataSize ∧
    it' = ⟨it.address + getSize mem it, it.dataSize - getSize mem it⟩ := by
  by_cases hle : getSize mem it ≤ it.dataSize
  · by_cases hlast : getSize mem it = it.dataSize
    · rw [next_last hlast, hlast]
      exact iff_of_false (by simp) fun h => BitVec.lt_irrefl _ h.1
    · rw [next_more hle hlast, Except.ok.injEq, Option.some.injEq, eq_comm]
      exact ⟨fun h => ⟨BitVec.lt_of_le_ne hle hlast, h⟩, fun h => h.2⟩
  · have herr : next mem it = .error (.assertion "thisSize <= dataSize") := by
      simp [next, hle, assertThat, bind, Except.bind]
    rw [herr]
    exact iff_of_false (by simp) fun h => hle (BitVec.le_of_lt h.1)

/-- A pass over a table whose entries fill it visits each of them once, in order. -/
theorem round_returns {β : Type} (body : Iterator → β → β) {it : Iterator}
    {entries : List Iterator} (h : Filled mem it entries) (hdata : it.dataSize ≠ 0) (acc : β) :
    Returns (round mem body) (it, acc) (.ok (entries.foldl (fun acc it => body it acc) acc)) := by
  induction entries generalizing it acc with
  | nil => exact absurd h hdata
  | cons entry entries ih =>
    obtain ⟨rfl, hpos, hle, hrest⟩ := h
    by_cases hlast : getSize mem entry = entry.dataSize
    · have hnil := filled_nil hrest (by rw [hlast]; exact BitVec.sub_self _)
      rw [hnil]
      exact .exit (by simp only [round, next_last hlast]; rfl)
    · have hleft : entry.dataSize - getSize mem entry ≠ 0 := fun hzero =>
        hlast (sub_eq_zero.mp hzero).symm
      exact (returns_step (by simp only [round, next_more hle hlast])).mpr
        (ih hrest hleft (body entry acc))

variable (mem)

def IsTable (baseAddr : Word) (entries : List Iterator) : Prop :=
  Filled mem (getIterator mem baseAddr) entries

def Counts (baseAddr : Word) (checkUsable : Bool) (count : ℕ) : Prop :=
  ∃ rounds, countLapics mem rounds baseAddr checkUsable = some (.ok count)

def Starts (baseAddr : Word) (calls : List (Iterator × ApicId)) : Prop :=
  ∃ rounds, startCpus mem rounds baseAddr = some (.ok calls)

variable {mem} {baseAddr : Word} {entries : List Iterator}

lemma pass_iff {β : Type} {body : Iterator → β → β} {acc result : β}
    (h : IsTable mem baseAddr entries) : (∃ rounds, (if !canIterate mem baseAddr then some (.ok acc)
      else loop (round mem body) rounds (getIterator mem baseAddr, acc)) = some (.ok result)) ↔
      result = entries.foldl (fun acc it => body it acc) acc := by
  by_cases hdata : dataSize mem baseAddr = 0
  · have hnil : entries = [] := filled_nil h hdata
    simp [canIterate, hdata, hnil, eq_comm]
  · have hiterate : canIterate mem baseAddr = true :=
      decide_eq_true (Nat.pos_of_ne_zero fun hzero => hdata (BitVec.eq_of_toNat_eq hzero))
    have hreturns := round_returns body h hdata acc
    simp only [hiterate, Bool.not_true, Bool.false_eq_true, if_false]
    constructor
    · exact fun hloop => Except.ok.inj (Returns.unique hloop hreturns)
    · rintro rfl
      exact hreturns

lemma foldl_count {β : Type} {R : Iterator → β → Prop} {body : Iterator → ℕ → ℕ} {p : β → Bool}
    {its : List Iterator} {xs : List β} (h : List.Forall₂ R its xs)
    (hbody : ∀ it x n, R it x → body it n = if p x then n + 1 else n) (n : ℕ) :
    its.foldl (fun n it => body it n) n = n + xs.countP p := by
  induction h generalizing n with
  | nil => rfl
  | cons hat _ ih =>
    rw [List.foldl_cons, ih, hbody _ _ _ hat, List.countP_cons]
    split_ifs <;> omega

lemma countBody_usable (it : Iterator) (count : ℕ) :
    countBody mem true it count = if usable mem it then count + 1 else count := by
  unfold countBody usable
  split_ifs <;> simp_all

/-- `CountLapics(true)` counts the usable processor entries. -/
theorem counts_iff (h : IsTable mem baseAddr entries) {count : ℕ} :
    Counts mem baseAddr true count ↔ count = entries.countP (usable mem) := by
  have heach : List.Forall₂ (· = ·) entries entries := List.forall₂_same.mpr fun _ _ => rfl
  have hfold : entries.foldl (fun n it => countBody mem true it n) 0 =
      0 + entries.countP (usable mem) :=
    foldl_count heach (fun it _ n h => h ▸ countBody_usable it n) 0
  rw [Counts]
  unfold countLapics
  rw [pass_iff h, hfold, Nat.zero_add]

/-- The calls of `BootstrapCpu` that the entries of a table stand for. -/
def bootstrapCalls (mem : ByteMemory) (entries : List Iterator) : List (Iterator × ApicId) :=
  entries.filterMap fun it => (processorId mem it).map (it, ·)

lemma startBody_eq (it : Iterator) (calls : List (Iterator × ApicId)) :
    startBody mem it calls = calls ++ ((processorId mem it).map (it, ·)).toList := by
  unfold startBody processorId
  split_ifs <;> simp

/-- `StartCpus` calls `BootstrapCpu` for every processor entry, usable or not. -/
theorem starts_iff (h : IsTable mem baseAddr entries) {calls : List (Iterator × ApicId)} :
    Starts mem baseAddr calls ↔ calls = bootstrapCalls mem entries := by
  have hfold : ∀ calls, entries.foldl (fun calls it => startBody mem it calls) calls =
      calls ++ bootstrapCalls mem entries := by
    clear h
    intro calls
    induction entries generalizing calls with
    | nil => simp [bootstrapCalls]
    | cons entry entries ih =>
      rw [List.foldl_cons, ih, startBody_eq, List.append_assoc]
      cases hid : processorId mem entry <;> simp [bootstrapCalls, hid]
  rw [Starts]
  unfold startCpus
  rw [pass_iff h, hfold, List.nil_append]

end

end Anarch.ApicTable
