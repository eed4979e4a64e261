import Anarch.ByteStore
import Anarch.TssDescriptor
import Anarch.TransitionRun
import Mathlib.Data.List.Forall2

/-! The global descriptor table: descriptors are pushed one behind the other, and the processors
read them by their selectors. -/
namespace Anarch
open ByteMemory TransitionRun

/-- The fields of a `ShortDescriptor`, in the order of its layout. -/
structure ShortDescriptor where
  limit : BitVec 16
  baseLow : BitVec 16
  baseMid : BitVec 8
  accessBit : BitVec 1
  writable : BitVec 1
  direction : BitVec 1
  executable : BitVec 1
  reservedOne : BitVec 1
  privilege : BitVec 2
  present : BitVec 1
  limitHigh : BitVec 4
  reservedZero : BitVec 1
  longMode : BitVec 1
  size : BitVec 1
  granularity : BitVec 1
  baseHigh : BitVec 8
  deriving DecidableEq, Repr

def ShortDescriptor.new (privileged executable : Bool) : ShortDescriptor where
  limit := 0
  baseLow := 0
  baseMid := 0
  accessBit := 0
  writable := if executable then 0 else 1
  direction := 0
  executable := if executable then 1 else 0
  reservedOne := 1
  privilege := if privileged then 0 else 3
  present := 1
  limitHigh := 0
  reservedZero := 0
  longMode := 1
  size := 0
  granularity := 0
  baseHigh := 0

/-- The eight bytes of the packed structure. -/
def ShortDescriptor.word (d : ShortDescriptor) : Word :=
  d.baseHigh ++ d.granularity ++ d.size ++ d.longMode ++ d.reservedZero ++ d.limitHigh ++
    d.present ++ d.privilege ++ d.reservedOne ++ d.executable ++ d.direction ++ d.writable ++
    d.accessBit ++ d.baseMid ++ d.baseLow ++ d.limit

/-- The first eight bytes of the packed structure. -/
def TssDescriptor.low (d : TssDescriptor) : Word :=
  d.base24 ++ d.granularity ++ d.res1 ++ d.available ++ d.limit16 ++ d.present ++ d.dpl ++
    d.res0 ++ d.type ++ d.base16 ++ d.base0 ++ d.limit0

def TssDescriptor.high (d : TssDescriptor) : Word := d.res2 ++ d.base32

/-- The table, in the memory where it lies. -/
structure Gdt where
  mem : ByteMemory
  buffer : Word
  amountUsed : Word

namespace Gdt

def pushShortDescriptor (desc : ShortDescriptor) (g : Gdt) : Outcome (BitVec 16 × Gdt) := do
  assertThat "amountUsed + 8 <= 0x10000" (g.amountUsed + 8 ≤ 0x10000)
  return (g.amountUsed.setWidth 16, { g with
    mem := store64 g.mem (g.buffer + g.amountUsed) desc.word
    amountUsed := g.amountUsed + 8 })

def pushTssDescriptor (desc : TssDescriptor) (g : Gdt) : Outcome (BitVec 16 × Gdt) := do
  assertThat "amountUsed + 0x10 <= 0x10000" (g.amountUsed + 0x10 ≤ 0x10000)
  let start := g.buffer + g.amountUsed
  return (g.amountUsed.setWidth 16, { g with
    mem := store64 (store64 g.mem start desc.low) (start + 8) desc.high
    amountUsed := g.amountUsed + 0x10 })

def bzero (mem : ByteMemory) (addr : Word) (n : ℕ) : ByteMemory := fun a =>
  if (a - addr).toNat < n then 0 else mem a

/-- `Initialize`, with what the heap returns for the buffer. -/
def new (buffer : Option Word) (mem : ByteMemory) : Outcome Gdt := do
  let some buffer := buffer | .error (.panic "Gdt::Initialize() - failed to allocate buffer")
  let g : Gdt := ⟨bzero mem buffer 0x10000, buffer, 8⟩
  let (_, g) ← g.pushShortDescriptor (.new true true)
  let (_, g) ← g.pushShortDescriptor (.new true false)
  let (_, g) ← g.pushShortDescriptor (.new false false)
  let (_, g) ← g.pushShortDescriptor (.new false true)
  return g

/-- `Gdt::Pointer`, what `lgdt` puts into a processor. -/
structure Pointer where
  limit : BitVec 16
  start : Word
  deriving DecidableEq, Repr

def getPointer (g : Gdt) : Pointer := ⟨0xffff, g.buffer⟩

/-- The first word of the descriptor that a processor with this table finds for a selector. -/
def descriptor (mem : ByteMemory) (ptr : Pointer) (selector : BitVec 16) : Option Word :=
  let offset := (8 : Word) * (selector >>> 3).setWidth 64
  if offset + 7 ≤ ptr.limit.setWidth 64 then some (load64 mem (ptr.start + offset)) else none

/-- The base of a segment with a descriptor of two words. -/
def systemBase (low high : Word) : Word :=
  high.extractLsb' 0 32 ++ low.extractLsb' 56 8 ++ low.extractLsb' 16 24

/-- The base that a processor finds for the selector of a task segment. -/
def taskBase (mem : ByteMemory) (ptr : Pointer) (selector : BitVec 16) : Option Word := do
  let low ← descriptor mem ptr selector
  let high ← descriptor mem ptr (selector + 8)
  return systemBase low high

/-- What a processor sets in a descriptor that it loads: the accessed bit, or the busy bit of a task
segment. -/
def mark (v : Word) : Word := if v.getLsbD 44 then .twoPow 64 40 else .twoPow 64 41

def Marked (v w : Word) : Prop := w = v ∨ w = v ||| mark v

/-- A processor with this table finds this word for a selector, marked or not. -/
def Finds (g : Gdt) (selector : BitVec 16) (v : Word) : Prop :=
  ∃ w, descriptor g.mem g.getPointer selector = some w ∧ Marked v w

/-- The table, and for each processor its task segment and the selector it loaded. -/
structure Table where
  gdt : Gdt
  tasks : List (Word × BitVec 16)

inductive Action
  | pushTss (tss : Word)
  /-- A processor loads the descriptor that starts with this word of the table. -/
  | load (k : ℕ)
  /-- Code that leaves the buffer alone. -/
  | others (mem : ByteMemory)

/-- From `Initialize` on. Processors push their task segments one after the other: the first before
it starts the others, and these while they hold `initLock`. -/
def system : System Table Action where
  start s := ∃ buffer mem, new buffer mem = .ok s.gdt ∧ s.tasks = []
  step s a t :=
    match a with
    | .pushTss tss => ∃ selector gdt, s.gdt.pushTssDescriptor (.new tss) = .ok (selector, gdt) ∧
        t = ⟨gdt, s.tasks ++ [(tss, selector)]⟩
    | .load k =>
        let addr := s.gdt.buffer + .ofNat 64 (8 * k)
        let v := load64 s.gdt.mem addr
        (1 ≤ k ∧ k ≤ 4 ∨ ∃ i < s.tasks.length, k = 5 + 2 * i) ∧
          t = { s with gdt := { s.gdt with mem := store64 s.gdt.mem addr (v ||| mark v) } }
    | .others mem => SameOn s.gdt.buffer 0x10000 s.gdt.mem mem ∧
        t = { s with gdt := { s.gdt with mem } }

/-- The words of the task segments, in the order of their pushes. -/
def taskWords (tasks : List (Word × BitVec 16)) : List Word :=
  tasks.flatMap fun task => [(TssDescriptor.new task.1).low, (TssDescriptor.new task.1).high]

/-- What is in the table before the task segments. -/
def firstWords : List Word :=
  [0, (ShortDescriptor.new true true).word, (ShortDescriptor.new true false).word,
    (ShortDescriptor.new false false).word, (ShortDescriptor.new false true).word]

/-- The table has these words, and zeros behind them. -/
structure Holds (g : Gdt) (words : List Word) : Prop where
  table : Words g.mem g.buffer (words ++ List.replicate (0x2000 - words.length) 0)
  used : g.amountUsed = .ofNat 64 (8 * words.length)
  fits : words.length ≤ 0x2000

section
variable {g g' : Gdt} {words : List Word} {mem : ByteMemory} {buffer addr : Word} {n : ℕ}
variable {selector : BitVec 16} {s : Table}

lemma words_zero (h : ∀ k < 8 * n, mem (addr + .ofNat 64 k) = 0) :
    Words mem addr (List.replicate n 0) := by
  induction n generalizing addr with
  | zero => trivial
  | succ n ih =>
    refine ⟨?_, ih fun k hk => ?_⟩
    · rw [load64, loadNat_of_bytes (v := 0) fun k hk => ?_]
      · rfl
      · simp [h k (by omega)]
    · rw [← add_offset_eight]
      exact h (k + 8) (by omega)

lemma words_bzero : Words (bzero mem buffer 0x10000) buffer (List.replicate 0x2000 0) := by
  refine words_zero fun k hk => ?_
  rw [bzero, sub_offset (by omega), if_pos hk]

lemma Holds.store (h : Holds g words) (v : Word) (hroom : words.length < 0x2000) :
    Holds { g with
      mem := store64 g.mem (g.buffer + g.amountUsed) v
      amountUsed := g.amountUsed + 8 } (words ++ [v]) where
  table := by
    have hset := h.table.set (k := words.length) (v := v) (by simp; omega) (by simp; omega)
    rw [← h.used] at hset
    obtain ⟨k, hk⟩ : ∃ k, 0x2000 - words.length = k + 1 := ⟨0x2000 - words.length - 1, by omega⟩
    have hk' : 0x2000 - (words ++ [v]).length = k := by simp; omega
    rw [hk']
    simpa [hk, List.replicate_succ] using hset
  used := by
    rw [List.length_append, List.length_singleton, Nat.mul_succ, ofNat_add_eight, h.used]
  fits := by
    rw [List.length_append, List.length_singleton]
    omega

lemma assertThat_room (expr : String) {k : ℕ} (h : Holds g words) (hk : k ≤ 2) :
    assertThat expr (g.amountUsed + .ofNat 64 (8 * k) ≤ 0x10000) = .ok () ↔
      words.length + k ≤ 0x2000 := by
  have hfits := h.fits
  rw [assertThat_eq_ok, decide_eq_true_iff, BitVec.le_def, h.used, ← BitVec.ofNat_add,
    BitVec.toNat_ofNat, Nat.mod_eq_of_lt (by omega), show (0x10000 : Word).toNat = 0x10000 from rfl]
  omega

lemma Holds.pushShort (h : Holds g words) {desc : ShortDescriptor}
    (hpush : g.pushShortDescriptor desc = .ok (selector, g')) :
    Holds g' (words ++ [desc.word]) := by
  obtain ⟨_, hroom, hpush⟩ := bind_eq_ok.mp hpush
  obtain ⟨rfl, rfl⟩ := Prod.mk.inj (Except.ok.inj hpush)
  exact h.store _ ((assertThat_room _ (k := 1) h (by omega)).mp hroom)

lemma Holds.pushTss (h : Holds g words) {desc : TssDescriptor}
    (hpush : g.pushTssDescriptor desc = .ok (selector, g')) :
    selector = .ofNat 16 (8 * words.length) ∧ words.length + 2 ≤ 0x2000 ∧
      Holds g' (words ++ [desc.low, desc.high]) := by
  obtain ⟨_, hroom, hpush⟩ := bind_eq_ok.mp hpush
  obtain ⟨rfl, rfl⟩ := Prod.mk.inj (Except.ok.inj hpush)
  have hroom := (assertThat_room _ (k := 2) h le_rfl).mp hroom
  have hstore := (h.store desc.low (by omega)).store desc.high (by simp; omega)
  refine ⟨by simp [h.used], hroom, ?_⟩
  simpa [add_assoc] using hstore

lemma Holds.room_iff (h : Holds g words) (desc : TssDescriptor) :
    (∃ r, g.pushTssDescriptor desc = .ok r) ↔ words.length + 2 ≤ 0x2000 := by
  constructor
  · rintro ⟨⟨selector, g'⟩, hpush⟩
    exact (h.pushTss hpush).2.1
  · intro hroom
    have hassert := (assertThat_room "amountUsed + 0x10 <= 0x10000" (k := 2) h le_rfl).mpr hroom
    exact ⟨_, bind_eq_ok.mpr ⟨(), hassert, rfl⟩⟩

lemma Holds.of_new {buffer : Option Word} (hnew : new buffer mem = .ok g) :
    Holds g firstWords := by
  cases buffer with
  | none => cases hnew
  | some buffer =>
    have h : Holds ⟨bzero mem buffer 0x10000, buffer, 8⟩ [0] := by
      refine ⟨?_, rfl, by decide⟩
      have hzero : Words (bzero mem buffer 0x10000) buffer (List.replicate 0x2000 0) := words_bzero
      rwa [show (0x2000 : ℕ) = (0x2000 - [(0 : Word)].length) + 1 from rfl,
        List.replicate_succ] at hzero
    obtain ⟨⟨s₁, g₁⟩, h₁, hnew⟩ := bind_eq_ok.mp hnew
    obtain ⟨⟨s₂, g₂⟩, h₂, hnew⟩ := bind_eq_ok.mp hnew
    obtain ⟨⟨s₃, g₃⟩, h₃, hnew⟩ := bind_eq_ok.mp hnew
    obtain ⟨⟨s₄, g₄⟩, h₄, hnew⟩ := bind_eq_ok.mp hnew
    obtain rfl := Except.ok.inj hnew
    have hlast := (((h.pushShort h₁).pushShort h₂).pushShort h₃).pushShort h₄
    simpa [firstWords] using hlast

lemma Holds.set (h : Holds g words) {k : ℕ} (hk : k < words.length) (v : Word) :
    Holds { g with mem := store64 g.mem (g.buffer + .ofNat 64 (8 * k)) v } (words.set k v) where
  table := by
    have hfits := h.fits
    have hset := h.table.set (k := k) (v := v) (by simp; omega) (by simp; omega)
    rwa [List.set_append_left _ _ hk, ← List.length_set (i := k) (a := v)] at hset
  used := by rw [h.used, List.length_set]
  fits := by simpa using h.fits

lemma Holds.others (h : Holds g words) (hmem : SameOn g.buffer 0x10000 g.mem mem) :
    Holds { g with mem } words where
  table := by
    refine h.table.sameOn (hmem.mono ?_)
    have := h.fits
    simp
    omega
  used := h.used
  fits := h.fits

lemma Holds.descriptor (h : Holds g words) {k : ℕ} {v : Word} (hk : words[k]? = some v)
    {rpl : BitVec 16} (hrpl : rpl.toNat < 8) :
    descriptor g.mem g.getPointer (.ofNat 16 (8 * k) + rpl) = some v := by
  obtain ⟨hlt, -⟩ := List.getElem?_eq_some_iff.mp hk
  have hfits := h.fits
  have hindex : (8 : Word) * ((BitVec.ofNat 16 (8 * k) + rpl) >>> 3).setWidth 64 =
      BitVec.ofNat 64 (8 * k) := by
    apply BitVec.eq_of_toNat_eq
    simp [BitVec.toNat_add, Nat.shiftRight_eq_div_pow]
    omega
  have hlimit : BitVec.ofNat 64 (8 * k) + 7 ≤ g.getPointer.limit.setWidth 64 := by
    rw [BitVec.le_def]
    simp [getPointer]
    omega
  rw [Gdt.descriptor, hindex, if_pos hlimit]
  exact congrArg some (h.table.get (by rw [List.getElem?_append_left hlt, hk]))

end

lemma systemBase_new (tss : Word) :
    systemBase (TssDescriptor.new tss).low (TssDescriptor.new tss).high = tss := by
  have h0 : (TssDescriptor.new tss).base0 = tss.setWidth 16 := TssDescriptor.setWidth_mask _ _ rfl
  have h16 : (TssDescriptor.new tss).base16 = (tss >>> 16).setWidth 8 :=
    TssDescriptor.setWidth_mask _ _ rfl
  have h24 : (TssDescriptor.new tss).base24 = (tss >>> 24).setWidth 8 :=
    TssDescriptor.setWidth_mask _ _ rfl
  have h32 : (TssDescriptor.new tss).base32 = (tss >>> 32).setWidth 32 := rfl
  apply BitVec.eq_of_getLsbD_eq
  intro i hi
  simp only [systemBase, TssDescriptor.low, TssDescriptor.high, h0, h16, h24, h32,
    BitVec.getLsbD_append, BitVec.getLsbD_extractLsb', BitVec.getLsbD_setWidth,
    BitVec.getLsbD_ushiftRight]
  rcases (by omega : i < 16 ∨ 16 ≤ i ∧ i < 24 ∨ 24 ≤ i ∧ i < 32 ∨ 32 ≤ i) with h | h | h | h
  all_goals grind

section
variable {s t : Table} {tasks : List (Word × BitVec 16)} {k : ℕ} {tss : Word}
variable {selector : BitVec 16}

lemma length_taskWords : (taskWords tasks).length = 2 * tasks.length := by
  induction tasks with
  | nil => rfl
  | cons task tasks ih =>
    simp only [taskWords, List.flatMap_cons, List.length_append, List.length_cons] at ih ⊢
    simp [ih]
    omega

lemma taskWords_getElem? (hk : tasks[k]? = some (tss, selector)) :
    (taskWords tasks)[2 * k]? = some (TssDescriptor.new tss).low ∧
      (taskWords tasks)[2 * k + 1]? = some (TssDescriptor.new tss).high := by
  induction tasks generalizing k with
  | nil => simp at hk
  | cons task tasks ih =>
    cases k with
    | zero =>
      obtain rfl : task = (tss, selector) := by simpa using hk
      simp [taskWords]
    | succ k => simpa [taskWords, Nat.mul_succ] using ih (by simpa using hk)

lemma Marked.refl (v : Word) : Marked v v := .inl rfl

lemma Marked.mark {v w : Word} (h : Marked v w) : Marked v (w ||| mark w) := by
  rcases h with rfl | rfl
  · exact .inr rfl
  · have hsame : Gdt.mark (v ||| Gdt.mark v) = Gdt.mark v := by
      unfold Gdt.mark
      split_ifs <;> simp_all
    exact .inr (by rw [hsame, BitVec.or_assoc, BitVec.or_self])

lemma mark_getLsbD (v : Word) {i : ℕ} (hi : i < 40 ∨ 42 ≤ i) : (mark v).getLsbD i = false := by
  unfold mark
  split_ifs <;> simp [BitVec.getLsbD_twoPow] <;> omega

lemma Marked.extractLsb' {v w : Word} (h : Marked v w) {start len : ℕ}
    (hapart : start + len ≤ 40 ∨ 42 ≤ start) :
    w.extractLsb' start len = v.extractLsb' start len := by
  rcases h with rfl | rfl
  · rfl
  · apply BitVec.eq_of_getLsbD_eq
    intro i hi
    simp [BitVec.getLsbD_extractLsb', mark_getLsbD v (i := start + i) (by omega)]

lemma systemBase_marked {low high low' high' : Word} (hlow : Marked low low')
    (hhigh : Marked high high') : systemBase low' high' = systemBase low high := by
  rw [systemBase, systemBase, hlow.extractLsb' (by omega), hlow.extractLsb' (by omega),
    hhigh.extractLsb' (by omega)]

lemma taskBase_of_finds {g : Gdt} (hlow : Finds g selector (TssDescriptor.new tss).low)
    (hhigh : Finds g (selector + 8) (TssDescriptor.new tss).high) :
    taskBase g.mem g.getPointer selector = some tss := by
  obtain ⟨low, hlow, hmarked⟩ := hlow
  obtain ⟨high, hhigh, hmarked'⟩ := hhigh
  rw [taskBase, hlow, hhigh]
  exact congrArg some ((systemBase_marked hmarked hmarked').trans (systemBase_new tss))

/-- What every reachable table has, with what the processors marked in it. -/
structure Sound (s : Table) : Prop where
  holds : ∃ words, Holds s.gdt words ∧ List.Forall₂ Marked (firstWords ++ taskWords s.tasks) words
  selectors : ∀ (k : ℕ) tss selector, s.tasks[k]? = some (tss, selector) →
    selector = .ofNat 16 (0x28 + 0x10 * k)

lemma length_marked {words : List Word}
    (h : List.Forall₂ Marked (firstWords ++ taskWords tasks) words) :
    words.length = 5 + 2 * tasks.length := by
  rw [← h.length_eq, List.length_append, length_taskWords]
  rfl

lemma Sound.pushTss (h : Sound s) {gdt : Gdt}
    (hpush : s.gdt.pushTssDescriptor (.new tss) = .ok (selector, gdt)) :
    Sound ⟨gdt, s.tasks ++ [(tss, selector)]⟩ := by
  obtain ⟨words, hholds, hmarked⟩ := h.holds
  obtain ⟨hselector, -, hpushed⟩ := hholds.pushTss hpush
  refine ⟨⟨_, hpushed, ?_⟩, fun k tss' selector' hk => ?_⟩
  · have hnew : List.Forall₂ Marked [(TssDescriptor.new tss).low, (TssDescriptor.new tss).high]
        [(TssDescriptor.new tss).low, (TssDescriptor.new tss).high] :=
      List.forall₂_same.mpr fun v _ => .refl v
    simpa [taskWords] using List.rel_append hmarked hnew
  · rcases Nat.lt_trichotomy k s.tasks.length with hlt | rfl | hgt
    · exact h.selectors k tss' selector' (by simpa [List.getElem?_append_left hlt] using hk)
    · obtain ⟨rfl, rfl⟩ : tss = tss' ∧ selector = selector' := by simpa using hk
      rw [hselector, length_marked hmarked]
      congr 1
      omega
    · obtain ⟨hlt, -⟩ := List.getElem?_eq_some_iff.mp hk
      simp at hlt
      omega

lemma marked_set {l l' : List Word} (h : List.Forall₂ Marked l l') {v : Word}
    (hk : l'[k]? = some v) : List.Forall₂ Marked l (l'.set k (v ||| mark v)) := by
  induction h generalizing k with
  | nil => simp at hk
  | cons hhead htail ih =>
    cases k with
    | zero =>
      obtain rfl : _ = v := by simpa using hk
      exact .cons hhead.mark htail
    | succ k => exact .cons hhead (ih (by simpa using hk))

lemma Sound.load (h : Sound s) (hk : k < 5 + 2 * s.tasks.length) :
    let addr := s.gdt.buffer + .ofNat 64 (8 * k)
    let v := load64 s.gdt.mem addr
    Sound { s with gdt := { s.gdt with mem := store64 s.gdt.mem addr (v ||| mark v) } } := by
  intro addr v
  obtain ⟨words, hholds, hmarked⟩ := h.holds
  have hlt : k < words.length := by rwa [length_marked hmarked]
  have hget : words[k]? = some v := by
    have hword := hholds.table.get (k := k) (v := words[k])
      (by rw [List.getElem?_append_left hlt, List.getElem?_eq_getElem hlt])
    rw [List.getElem?_eq_getElem hlt, ← hword]
  exact ⟨⟨_, hholds.set hlt _, marked_set hmarked hget⟩, h.selectors⟩

lemma sound_of_reachable (h : system.Reachable s) : Sound s := by
  refine h.invariant (fun s hs => ?_) fun s a t _ ih hstep => ?_
  · obtain ⟨buffer, mem, hnew, htasks⟩ := hs
    refine ⟨⟨_, Holds.of_new hnew, ?_⟩, by simp [htasks]⟩
    simpa [htasks, taskWords] using List.forall₂_same.mpr fun v _ => Marked.refl v
  · cases a with
    | pushTss tss =>
      obtain ⟨selector, gdt, hpush, rfl⟩ := hstep
      exact ih.pushTss hpush
    | load k =>
      obtain ⟨hk, rfl⟩ := hstep
      exact ih.load (by omega)
    | others mem =>
      obtain ⟨hmem, rfl⟩ := hstep
      obtain ⟨words, hholds, hmarked⟩ := ih.holds
      exact ⟨⟨words, hholds.others hmem, hmarked⟩, ih.selectors⟩

lemma step_sameOff {a : Action} (h : Sound s) (hstep : system.step s a t)
    (ha : ∀ mem, a ≠ .others mem) :
    t.gdt.buffer = s.gdt.buffer ∧ SameOff s.gdt.buffer 0x10000 s.gdt.mem t.gdt.mem := by
  obtain ⟨words, hholds, hmarked⟩ := h.holds
  have hfits := length_marked hmarked ▸ hholds.fits
  cases a with
  | pushTss tss =>
    obtain ⟨selector, gdt, hpush, rfl⟩ := hstep
    have hroom := (hholds.pushTss hpush).2.1
    obtain ⟨_, -, hpush⟩ := bind_eq_ok.mp hpush
    obtain ⟨-, rfl⟩ := Prod.mk.inj (Except.ok.inj hpush)
    refine ⟨rfl, ?_⟩
    rw [hholds.used, add_assoc, ← ofNat_add_eight]
    have hlow : SameOff s.gdt.buffer 0x10000 s.gdt.mem (store64 s.gdt.mem
        (s.gdt.buffer + .ofNat 64 (8 * words.length)) (TssDescriptor.new tss).low) :=
      store64_sameOff_range (by omega) (by decide)
    exact hlow.trans (store64_sameOff_range (by omega) (by decide))
  | load k =>
    obtain ⟨hk, rfl⟩ := hstep
    exact ⟨rfl, store64_sameOff_range (by omega) (by decide)⟩
  | others mem => exact absurd rfl (ha mem)

lemma Sound.found (h : Sound s) {v : Word} (hk : (firstWords ++ taskWords s.tasks)[k]? = some v)
    {rpl : BitVec 16} (hrpl : rpl.toNat < 8) :
    Finds s.gdt (.ofNat 16 (8 * k) + rpl) v := by
  obtain ⟨words, hholds, hmarked⟩ := h.holds
  obtain ⟨hlt, rfl⟩ := List.getElem?_eq_some_iff.mp hk
  have hlt' : k < words.length := hmarked.length_eq ▸ hlt
  exact ⟨_, hholds.descriptor (List.getElem?_eq_getElem hlt') hrpl, hmarked.get hlt hlt'⟩

lemma Sound.task (h : Sound s) (hk : s.tasks[k]? = some (tss, selector)) :
    Finds s.gdt selector (TssDescriptor.new tss).low ∧
      Finds s.gdt (selector + 8) (TssDescriptor.new tss).high := by
  obtain ⟨hlow, hhigh⟩ := taskWords_getElem? hk
  have hget : ∀ j, (firstWords ++ taskWords s.tasks)[5 + j]? = (taskWords s.tasks)[j]? := by
    intro j
    rw [List.getElem?_append_right (by simp [firstWords])]
    simp [firstWords]
  have hselector : selector = .ofNat 16 (8 * (5 + 2 * k)) + 0 := by
    rw [h.selectors k tss selector hk, add_zero]
    congr 1
    omega
  have hnext : selector + 8 = .ofNat 16 (8 * (5 + (2 * k + 1))) + 0 := by
    rw [hselector, add_zero, add_zero]
    exact (BitVec.ofNat_add (8 * (5 + 2 * k)) 8).symm
  constructor
  · rw [hselector]
    exact h.found ((hget _).trans hlow) (by decide)
  · rw [hnext]
    exact h.found ((hget _).trans hhigh) (by decide)

/-- However many processors have pushed their task segments and loaded descriptors, the segments of
the kernel and of user code are behind the selectors that the entries use, each processor's selector
leads to its own task segment, and there is room for 4093 of them. -/
theorem descriptors_kept (h : system.Reachable s) :
    Finds s.gdt 0x8 (ShortDescriptor.new true true).word ∧
      Finds s.gdt 0x10 (ShortDescriptor.new true false).word ∧
      Finds s.gdt 0x1b (ShortDescriptor.new false false).word ∧
      Finds s.gdt 0x23 (ShortDescriptor.new false true).word ∧
      (∀ (k : ℕ) tss selector, s.tasks[k]? = some (tss, selector) →
        selector = .ofNat 16 (0x28 + 0x10 * k) ∧
        Finds s.gdt selector (TssDescriptor.new tss).low ∧
        taskBase s.gdt.mem s.gdt.getPointer selector = some tss) ∧
      ∀ tss, (∃ r, s.gdt.pushTssDescriptor (.new tss) = .ok r) ↔ s.tasks.length < 4093 := by
  have hsound := sound_of_reachable h
  have hfirst : ∀ (k : ℕ) v rpl, firstWords[k]? = some v → rpl.toNat < 8 →
      Finds s.gdt (.ofNat 16 (8 * k) + rpl) v :=
    fun k v rpl hk hrpl => by
      obtain ⟨hlt, -⟩ := List.getElem?_eq_some_iff.mp hk
      exact hsound.found (by rw [List.getElem?_append_left hlt, hk]) hrpl
  refine ⟨hfirst 1 _ 0 rfl (by decide), hfirst 2 _ 0 rfl (by decide), hfirst 3 _ 3 rfl (by decide),
    hfirst 4 _ 3 rfl (by decide), fun k tss selector hk => ?_, fun tss => ?_⟩
  · obtain ⟨hlow, hhigh⟩ := hsound.task hk
    exact ⟨hsound.selectors k tss selector hk, hlow, taskBase_of_finds hlow hhigh⟩
  · obtain ⟨words, hholds, hmarked⟩ := hsound.holds
    rw [hholds.room_iff, length_marked hmarked]
    omega

theorem descriptors_kept_first : ∃ s : Table, system.Reachable s ∧
    taskBase s.gdt.mem s.gdt.getPointer 0x28 = some 0xffffffff80100000 := by
  have hused : (new (some 0x100000) fun _ => 0).toOption.map (·.amountUsed) = some 0x28 := by
    decide
  obtain ⟨g, hnew, -⟩ := exists_ok_of_map hused
  have hstart : system.Reachable ⟨g, []⟩ := .start ⟨_, _, hnew, rfl⟩
  obtain ⟨⟨selector, gdt⟩, hpush⟩ :=
    ((descriptors_kept hstart).2.2.2.2.2 0xffffffff80100000).mpr (by simp)
  have hreach : system.Reachable ⟨gdt, [(0xffffffff80100000, selector)]⟩ :=
    hstart.next (a := .pushTss 0xffffffff80100000) ⟨selector, gdt, hpush, rfl⟩
  obtain ⟨hselector, -, hbase⟩ := (descriptors_kept hreach).2.2.2.2.1 0 _ _ rfl
  obtain rfl : selector = 0x28 := hselector
  exact ⟨_, hreach, hbase⟩

end

end Gdt

end Anarch
