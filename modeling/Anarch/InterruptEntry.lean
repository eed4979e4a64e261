import Anarch.IdtTable

/-! The way of an interrupt: the gate, the handler of its vector, the routine in assembly, and
back to the code that was interrupted. -/
namespace Anarch
open ByteMemory X86

namespace RawIsr

/-- The registers of `pushunpres`. -/
def unpreserved : List Reg := [.rdi, .rsi, .rdx, .rcx, .r8, .r9, .r10, .r11, .rax]

def pushunpres : List Instr := unpreserved.map .push

def popunpres : List Instr := unpreserved.reverse.map .pop

/-- A routine of raw-isr.s, with how it sets up the arguments of a function, and how much it takes
off the stack before the interrupt frame. -/
def routine (arguments : List Instr) (function next drop : Word) : List Instr :=
  pushunpres ++ arguments ++ [.call function next] ++ popunpres ++ [.add .rsp drop, .iretq]

def rawNonCodedIsr (interruptNonCoded next : Word) : List Instr :=
  routine [.load .rdi .rsp 0x48, .lea .rsi .rsp 0x50] interruptNonCoded next 0x8

def rawCodedIsr (interruptCoded next : Word) : List Instr :=
  routine [.load .rdi .rsp 0x48, .lea .rsi .rsp 0x58, .load .rdx .rsp 0x50] interruptCoded next 0x10

def rawPicEoiIsr (interruptPicEoi next : Word) : List Instr :=
  routine [.load .rdi .rsp 0x48, .lea .rsi .rsp 0x50] interruptPicEoi next 0x8

end RawIsr

/-- The addresses of the routines, of the functions that they call, and of what follows the calls. -/
structure Isrs where
  rawCodedIsr : Word
  rawNonCodedIsr : Word
  interruptCoded : Word
  interruptNonCoded : Word
  codedNext : Word
  nonCodedNext : Word

namespace Isrs

/-- The routines at their addresses. -/
def text (t : Isrs) (addr : Word) : Option (List Instr) :=
  if addr = t.rawCodedIsr then some (RawIsr.rawCodedIsr t.interruptCoded t.codedNext)
  else if addr = t.rawNonCodedIsr then
    some (RawIsr.rawNonCodedIsr t.interruptNonCoded t.nonCodedNext)
  else none

/-- The function that a vector comes to. -/
def function (t : Isrs) (v : BitVec 8) : Word :=
  if Irt.hasCode v then t.interruptCoded else t.interruptNonCoded

/-- The table after boot, with the stacks that `SetIst` has given to vectors. -/
def table (t : Isrs) (base : Word) (ists : List (BitVec 8 × BitVec 3)) : Idt :=
  ists.foldl (fun idt ist => idt.setIst ist.1 ist.2)
    (Irt.configure t.rawCodedIsr t.rawNonCodedIsr (.fresh base))

end Isrs

/-- An interrupt from the gate to the `iretq`. -/
def X86.interrupt {ε : Type} (fn : Functions ε) (text : Word → Option (List Instr)) (tss : Stacks)
    (idtr : Word) (v : BitVec 8) (code : Option Word) (m : Machine) : Result ε :=
  let m := deliver tss (readGate m.mem (idtr + 0x10 * v.setWidth 64)) code m
  match decode (fetch m.mem m.rip 0x20) with
  | some handler => (run fn handler m).bind fun m =>
      match text m.rip with
      | some routine => run fn routine m
      | none => .error .invalidOpcode
  | none => .error .invalidOpcode

/-- The bytes below a stack pointer are apart from the table. -/
def Idt.Apart (idt : Idt) (sp : Word) (n : ℕ) : Prop :=
  ByteMemory.Apart (sp - .ofNat 64 n) n idt.base size

/-- What the function of a vector finds: the vector, the frame of the code that was interrupted,
the error code, and interrupts that are off. -/
structure Isrs.Called (m : Machine) (v : BitVec 8) (code : Option Word) (m₁ : Machine) : Prop where
  vector : m₁.reg .rdi = v.setWidth 64
  stack : Words m₁.mem (m₁.reg .rsi) m.frame
  code : ∀ c ∈ code, m₁.reg .rdx = c
  system : m₁.toSystem = { m.toSystem with cs := 8, ss := if cpl m.cs ≠ 0 then 0 else m.ss }
  critical : m₁.interruptFlag = false

section
variable {ε : Type} {fn : Functions ε} {m m₀ : Machine} {vs : List Word}

lemma IdtHandler.run_listing (h : IdtHandler) (fn : Functions ε) (m : Machine) : ∃ mem,
    run fn h.listing m =
      .ok (((m.setMem mem).setReg .rsp (m.reg .rsp - 8)).setRip h.function) ∧
    SameOff (m.reg .rsp - 16) 16 m.mem mem ∧ load64 mem (m.reg .rsp - 8) = h.argument := by
  have hsub : m.reg .rsp - 8#64 - 8#64 = m.reg .rsp - 16#64 := by rw [sub_sub]; rfl
  have hadd : m.reg .rsp - 16#64 + 8#64 = m.reg .rsp - 8#64 := by rw [← hsub, sub_add_cancel]
  have hhigh : ∀ (mem : ByteMemory) (v : Word),
      SameOn (m.reg .rsp - 16#64) 8 mem (store64 mem (m.reg .rsp - 8#64) v) := fun mem v => by
    refine store64_sameOn ?_ ?_ <;> rw [← hadd, add_sub_cancel_left] <;> decide
  have hlow : ∀ (mem : ByteMemory) (v : Word),
      SameOn (m.reg .rsp - 8#64) 8 mem (store64 mem (m.reg .rsp - 16#64) v) := fun mem v => by
    refine store64_sameOn ?_ ?_ <;> rw [← hadd, sub_add_cancel_left] <;> decide
  refine ⟨store64 (store64 (store64 (store64 m.mem (m.reg .rsp - 8#64) (m.reg .rax))
    (m.reg .rsp - 16#64) (m.reg .rax)) (m.reg .rsp - 8#64) h.argument) (m.reg .rsp - 16#64)
    h.function, ?_, ?_, ?_⟩
  · simp only [IdtHandler.listing, run_cons, run_nil, Instr.exec, Except.bind, Machine.ret]
    congr 1
    refine Machine.ext rfl (fun r => ?_) ?_ rfl ?_
    · by_cases hr : r = .rsp
      · simp [hr, hsub, hadd]
      · by_cases hrax : r = .rax
        · simp [hrax, dropWord_reg, pushWord_reg, hsub, hadd, load64_sameOn (hhigh _ _)]
        · simp [hrax, dropWord_reg, pushWord_reg, hr]
    · simp [Machine.top, hsub]
    · simp [hsub, hadd, pushWord_reg]
  · have hat (mem : ByteMemory) (v : Word) :
        SameOff (m.reg .rsp - 16#64) 16 mem (store64 mem (m.reg .rsp - 8#64) v) :=
      hadd ▸ store64_sameOff_range (k := 8) le_rfl (by decide)
    have hbelow (mem : ByteMemory) (v : Word) :
        SameOff (m.reg .rsp - 16#64) 16 mem (store64 mem (m.reg .rsp - 16#64) v) := by
      simpa using store64_sameOff_range (k := 0) (n := 16)
        (by decide) (by decide)
    exact (((hat _ _).trans (hbelow _ _)).trans (hat _ _)).trans (hbelow _ _)
  · exact (load64_sameOn (hlow _ _)).trans load64_store64

lemma RawIsr.saved_or_unpreserved (r : Reg) : r ∈ unpreserved ∨ r ∈ calleeSaved := by
  cases r <;> decide

lemma RawIsr.words_length (hvs : vs.length ≤ 2) :
    ((unpreserved.map m.reg).reverse ++ (vs ++ m₀.frame)).length ≤ 16 := by
  simp [unpreserved, Machine.frame]
  omega

lemma RawIsr.words_call {m₂ : Machine} (next : Word)
    (hstack : Words m.mem (m.reg .rsp) (vs ++ m₀.frame)) (hvs : vs.length ≤ 2)
    (hm₂ : Conforms 17 (pushWords m (unpreserved.map m.reg)) m₂) :
    Words (m₂.pushWord next).mem ((m₂.pushWord next).reg .rsp)
      (next :: ((unpreserved.map m.reg).reverse ++ (vs ++ m₀.frame))) := by
  have hlength : (_ ++ (vs ++ m₀.frame)).length ≤ 16 := words_length (m := m) hvs
  have hpushed := words_pushWords (unpreserved.map m.reg) hstack
    (by simp [unpreserved, Machine.frame]; omega)
  have hset := hm₂.rsp ▸ hpushed.sameOn (hm₂.stack.mono (by omega))
  rw [pushWord_rsp]
  exact hset.push (by omega)

/-- A routine around a function that keeps to the calling convention: what was interrupted goes
on with nothing but memory changed. -/
lemma RawIsr.run_routine (vs : List Word) {arguments : List Instr} {function next : Word}
    {m₂ : Machine} (hstack : Words m.mem (m.reg .rsp) (vs ++ m₀.frame)) (hvs : vs.length ≤ 2)
    (hreg : ∀ r ≠ .rsp, m.reg r = m₀.reg r)
    (hsystem : { m.toSystem with cs := m₀.cs, ss := m₀.ss } = m₀.toSystem)
    (hrip : canonical m₀.rip = true)
    (harguments : run fn arguments (pushWords m (unpreserved.map m.reg)) = .ok m₂)
    (hm₂ : Conforms 17 (pushWords m (unpreserved.map m.reg)) m₂)
    (hfunction : ∀ m₃, fn function (m₂.pushWord next) = .ok m₃ →
      Conforms 17 (m₂.pushWord next) m₃) :
    run fn (routine arguments function next (.ofNat 64 (8 * vs.length))) m =
      (fn function (m₂.pushWord next)).map fun m₃ => { m₀ with mem := m₃.mem } := by
  have hpush : run fn pushunpres m = .ok (pushWords m (unpreserved.map m.reg)) :=
    run_pushes (by decide)
  simp only [routine, run_append, hpush, Except.bind, harguments, run_cons, run_nil, Instr.exec]
  cases hm₃ : fn function (m₂.pushWord next) with
  | error e => rfl
  | ok m₃ =>
    have hconf := hfunction m₃ hm₃
    have hwords : Words m₃.mem (m₃.reg .rsp)
        (next :: ((unpreserved.map m.reg).reverse ++ (vs ++ m₀.frame))) := by
      have hlength : (_ ++ (vs ++ m₀.frame)).length ≤ 16 := words_length (m := m) hvs
      exact hconf.rsp ▸ (words_call next hstack hvs hm₂).sameOn
        (hconf.stack.mono (by simp only [List.length_cons]; omega))
    set m₄ := m₃.dropWord.setRip m₃.top with hm₄
    have hpops : Words m₄.mem (m₄.reg .rsp) (unpreserved.reverse.map m.reg ++ (vs ++ m₀.frame)) := by
      simpa [hm₄] using hwords.2
    set m₅ := popRegs m₄ unpreserved.reverse with hm₅
    have hrsp : m₅.reg .rsp = m₄.reg .rsp + .ofNat 64 (8 * unpreserved.reverse.length) :=
      popRegs_rsp (by decide)
    have hpopped : ∀ r ≠ .rsp, m₅.reg r = m₀.reg r := fun r hr => by
      rw [← hreg r hr, hm₅, popRegs_reg hpops (by decide) hr]
      by_cases hmem : r ∈ unpreserved.reverse
      · rw [if_pos hmem]
      · have hsaved := (saved_or_unpreserved r).resolve_left fun h => hmem (List.mem_reverse.mpr h)
        rw [if_neg hmem]
        calc m₄.reg r = m₃.reg r := dropWord_reg hr
          _ = m₂.reg r := (hconf.saved r hsaved).trans (pushWord_reg hr)
          _ = m.reg r := (hm₂.saved r hsaved).trans (pushWords_reg hr)
    have hframe : Words (m₅.addImm .rsp (.ofNat 64 (8 * vs.length))).mem
        ((m₅.addImm .rsp (.ofNat 64 (8 * vs.length))).reg .rsp) (m₀.frame ++ []) := by
      have hrest := hpops.append.2.append.2
      rw [List.length_map, ← hrsp] at hrest
      simpa [Machine.addImm, hm₅] using hrest
    simp only [Machine.ret, ← hm₄, popunpres, run_pops, ← hm₅, iretq_frame hframe hrip, Except.map]
    congr 1
    refine Machine.ext ?_ (fun r => ?_) rfl rfl ?_
    · have hsame : m₅.toSystem = m.toSystem := by
        simp [hm₅, hm₄, hconf.system, hm₂.system]
      rw [← hsystem, ← hsame]
      rfl
    · by_cases hr : r = .rsp
      · simp [hr]
      · simpa [hr, Machine.addImm] using hpopped r hr
    · simp [Machine.addImm, hm₅, hm₄]

lemma Idt.Apart.handler {idt : Idt} {sp : Word} {n : ℕ} {mem mem' : ByteMemory}
    (h : idt.Apart sp n) (hmem : SameOff (sp - .ofNat 64 n) n mem mem') (v : BitVec 8) :
    SameOn (idt.handlerAddr v) 0x20 mem mem' := by
  have hoff : idt.handlerAddr v - (sp - .ofNat 64 n) =
      idt.base - (sp - .ofNat 64 n) + (0x1000 + 0x20 * v.setWidth 64) := by
    rw [Idt.handlerAddr]
    abel
  have hsize : (idt.handlerAddr v - (sp - .ofNat 64 n)).toNat =
      (idt.base - (sp - .ofNat 64 n)).toNat + 0x1000 + 0x20 * v.toNat := by
    have := v.isLt
    have := h.2
    rw [hoff]
    simp [Idt.size] at this ⊢
    omega
  have := v.isLt
  have := h.2
  refine hmem.sameOn ?_ ?_
  · have := h.1
    omega
  · simp only [Idt.size] at this
    omega

lemma Isrs.table_leads (t : Isrs) (base : Word) (ists : List (BitVec 8 × BitVec 3)) :
    (t.table base ists).base = base ∧
      (t.table base ists).Leads (Irt.isr t.rawCodedIsr t.rawNonCodedIsr) := by
  rw [table]
  induction ists using List.reverseRecOn with
  | nil => exact Irt.setAll_leads (.fresh base) fun _ => rfl
  | append_singleton ists ist ih =>
    simp only [List.foldl_append, List.foldl_cons, List.foldl_nil]
    generalize List.foldl _ _ ists = idt at ih ⊢
    exact ⟨ih.1, ih.2.setIst _⟩

section
variable {tss : Stacks} {gate : Gate} {code : Option Word}

/-- The stack after an interrupt, down from the one it is taken on. -/
lemma deliver_words : Words (deliver tss gate code m).mem ((deliver tss gate code m).reg .rsp)
    (code.toList ++ m.frame) := by
  have hempty : Words (m.setReg .rsp (entryStack tss gate m)).mem
      ((m.setReg .rsp (entryStack tss gate m)).reg .rsp) [] := trivial
  have hpushed := words_pushWords (m.frame.reverse ++ code.toList) hempty (by cases code <;> simp [Machine.frame])
  have hcode : code.toList.reverse = code.toList := by cases code <;> rfl
  rw [List.reverse_append, List.reverse_reverse, List.append_nil, hcode] at hpushed
  exact hpushed

lemma deliver_sameOff (code : Option Word) : SameOff (entryStack tss gate m - .ofNat 64 48) 48 m.mem
    (deliver tss gate code m).mem := by
  have hpushed := pushWords_sameOff (m := m.setReg .rsp (entryStack tss gate m))
    (m.frame.reverse ++ code.toList) (by cases code <;> simp [Machine.frame])
  simp only [setReg_mem, setReg_reg, if_true] at hpushed
  refine hpushed.below ?_ (by decide)
  cases code <;> simp [Machine.frame]

end

section
variable {tss : Stacks} {code : Option Word} {base : Word} {v : BitVec 8}

lemma Isrs.run_handler (t : Isrs) (fn : Functions ε) (code : Option Word)
    (ists : List (BitVec 8 × BitVec 3))
    (hloaded : (t.table base ists).Loaded m.mem)
    (hapart : (t.table base ists).Apart
      (entryStack tss (readGate m.mem (base + 0x10 * v.setWidth 64)) m) 48) :
    ∃ m₁, Words m₁.mem (m₁.reg .rsp) (v.setWidth 64 :: (code.toList ++ m.frame)) ∧
      (∀ r ≠ .rsp, m₁.reg r = m.reg r) ∧
      m₁.toSystem = { m.toSystem with cs := 8, ss := if cpl m.cs ≠ 0 then 0 else m.ss } ∧
      m₁.interruptFlag = false ∧
      interrupt fn t.text tss base v code m =
        match t.text (Irt.isr t.rawCodedIsr t.rawNonCodedIsr v) with
        | some routine => run fn routine m₁
        | none => .error .invalidOpcode := by
  obtain ⟨hbase, hleads⟩ := t.table_leads base ists
  obtain ⟨hoffset, hseg, hflags⟩ := hleads.entries v
  obtain ⟨hentry, hhandler⟩ := hloaded v
  rw [Idt.entryAddr, hbase] at hentry
  set gate := readGate m.mem (base + 0x10 * v.setWidth 64) with hread
  have hgate := hread.trans (readGate_eq hentry)
  rw [hoffset, hseg, hflags] at hgate
  set handler := (t.table base ists).handlers v with hhandler'
  have hrip : (deliver tss gate code m).rip = (t.table base ists).handlerAddr v := by
    rw [hgate]
    rfl
  have hdecode : decode (fetch (deliver tss gate code m).mem (deliver tss gate code m).rip 0x20) =
      some handler.listing := by
    have hkept := hhandler.sameOn (hapart.handler (deliver_sameOff code) v)
    rw [hrip]
    exact (congrArg decode hkept.fetch).trans handler.decode_bytes
  obtain ⟨mem, hrun, hoff, hargument⟩ := handler.run_listing fn (deliver tss gate code m)
  have hwords := (deliver_words (m := m)).sameOn
    (hoff.sameOn (by simp) (by cases code <;> simp [Machine.frame]))
  refine ⟨(((deliver tss gate code m).setMem mem).setReg .rsp
    ((deliver tss gate code m).reg .rsp - 8)).setRip handler.function, ?_, fun r hr => ?_, ?_, ?_, ?_⟩
  · rw [hleads.handlers] at hhandler'
    simp only [setRip_mem, setReg_mem, setMem_mem, setRip_reg, setReg_reg, if_true]
    refine ⟨by rw [hargument, hhandler'], ?_⟩
    rwa [sub_add_cancel]
  · simp [hr, deliver, pushWords_reg hr]
  · simp [deliver, hgate]
  · simp [Machine.interruptFlag, deliver, Gate.cleared, hgate, flag]
  · simp only [interrupt, ← hread, hdecode, hrun, Except.bind, setRip_rip]
    rw [show handler.function = _ from congrArg IdtHandler.function (hleads.handlers v)]

lemma RawIsr.words_pushunpres (hstack : Words m.mem (m.reg .rsp) (vs ++ m₀.frame))
    (hvs : vs.length ≤ 2) :
    let pushed := pushWords m (unpreserved.map m.reg)
    Words pushed.mem (pushed.reg .rsp + 0x48) (vs ++ m₀.frame) := by
  have hpushed := words_pushWords (unpreserved.map m.reg) hstack
    (by simp [unpreserved, Machine.frame]; omega)
  exact hpushed.append.2

lemma Isrs.Called.of_pushed {p m₂ : Machine} {next : Word}
    (hwords : Words p.mem (p.reg .rsp) (vs ++ m.frame)) (hvs : vs.length ≤ 2)
    (hsystem : p.toSystem = { m.toSystem with cs := 8, ss := if cpl m.cs ≠ 0 then 0 else m.ss })
    (hm₂ : Conforms 17 (pushWords p (RawIsr.unpreserved.map p.reg)) m₂)
    (hcritical : m₂.interruptFlag = false) (hvector : m₂.reg .rdi = v.setWidth 64)
    (hstack : m₂.reg .rsi = (pushWords p (RawIsr.unpreserved.map p.reg)).reg .rsp + 0x48 +
      .ofNat 64 (8 * vs.length))
    (hcode : ∀ c ∈ code, m₂.reg .rdx = c) : Called m v code (m₂.pushWord next) where
  vector := (pushWord_reg (by decide)).trans hvector
  stack := by
    have hcall := (RawIsr.words_call next hwords hvs hm₂).2
    rw [pushWord_rsp, sub_add_cancel, hm₂.rsp] at hcall
    rw [pushWord_reg (by decide), hstack]
    exact hcall.append.2.append.2
  code c hc := (pushWord_reg (by decide)).trans (hcode c hc)
  system := by simp [hm₂.system, hsystem]
  critical := hcritical

lemma Isrs.arguments_nonCoded (fn : Functions ε) (p : Machine) :
    run fn [.load .rdi .rsp 0x48, .lea .rsi .rsp 0x50] p =
      .ok ((p.setReg .rdi (load64 p.mem (p.reg .rsp + 0x48))).setReg .rsi (p.reg .rsp + 0x50)) := by
  simp [Instr.exec, Except.bind]

lemma Isrs.arguments_coded (fn : Functions ε) (p : Machine) :
    run fn [.load .rdi .rsp 0x48, .lea .rsi .rsp 0x58, .load .rdx .rsp 0x50] p =
      .ok (((p.setReg .rdi (load64 p.mem (p.reg .rsp + 0x48))).setReg .rsi
        (p.reg .rsp + 0x58)).setReg .rdx (load64 p.mem (p.reg .rsp + 0x50))) := by
  simp [Instr.exec, Except.bind]

/-- An interrupt whose function keeps to the calling convention: what was interrupted goes on with
every register, flag and segment as it was, whatever its privilege, its stack and its vector. -/
theorem Isrs.interrupt_transparent (fn : Functions ε) {t : Isrs}
    {ists : List (BitVec 8 × BitVec 3)}
    (hroutines : t.rawCodedIsr ≠ t.rawNonCodedIsr)
    (hloaded : (t.table base ists).Loaded m.mem)
    (hapart : (t.table base ists).Apart
      (entryStack tss (readGate m.mem (base + 0x10 * v.setWidth 64)) m) 48)
    (hcode : code.isSome = Irt.hasCode v) (hrip : canonical m.rip = true)
    (hfunction : ∀ m₁ m₂, Called m v code m₁ → fn (t.function v) m₁ = .ok m₂ →
      Conforms 17 m₁ m₂) :
    ∃ m₁, Called m v code m₁ ∧ interrupt fn t.text tss base v code m =
      (fn (t.function v) m₁).map fun m₂ => { m with mem := m₂.mem } := by
  obtain ⟨p, hwords, hreg, hsystem, hcritical, hrun⟩ := t.run_handler fn code
    ists hloaded hapart
  rw [hrun]
  have hsys : { p.toSystem with cs := m.cs, ss := m.ss } = m.toSystem := by rw [hsystem]
  cases hv : Irt.hasCode v with
  | true =>
    obtain ⟨c, rfl⟩ := Option.isSome_iff_exists.mp (hcode.trans hv)
    have harguments := arguments_coded fn (pushWords p (RawIsr.unpreserved.map p.reg))
    replace hwords : Words p.mem (p.reg .rsp) ([v.setWidth 64, c] ++ m.frame) := hwords
    have hpushed := RawIsr.words_pushunpres hwords le_rfl
    generalize hm₂ : Machine.setReg _ .rdx _ = m₂ at harguments
    have hconf : Conforms 17 (pushWords p (RawIsr.unpreserved.map p.reg)) m₂ :=
      hm₂ ▸ ((Conforms.refl.setReg (by decide)).setReg (by decide)).setReg (by decide)
    have hcalled : Called m v (some c) (m₂.pushWord t.codedNext) := by
      refine .of_pushed hwords le_rfl hsystem hconf ?_ ?_ ?_ ?_
      · simpa [← hm₂] using hcritical
      · simpa [← hm₂] using hpushed.1
      · simp [← hm₂, add_assoc]
      · simpa [← hm₂, add_assoc] using hpushed.2.1
    have hfn : t.function v = t.interruptCoded := if_pos hv
    refine ⟨_, hcalled, ?_⟩
    rw [Irt.isr, if_pos hv, text, if_pos rfl, hfn]
    exact RawIsr.run_routine [v.setWidth 64, c] hwords le_rfl hreg hsys hrip harguments hconf
      fun m₃ hm₃ => hfunction _ _ hcalled (hfn ▸ hm₃)
  | false =>
    obtain rfl := Option.isSome_eq_false_iff.mp (hcode.trans hv) |> Option.isNone_iff_eq_none.mp
    have harguments :=
      arguments_nonCoded fn (pushWords p (RawIsr.unpreserved.map p.reg))
    replace hwords : Words p.mem (p.reg .rsp) ([v.setWidth 64] ++ m.frame) := hwords
    have hpushed := RawIsr.words_pushunpres hwords (Nat.le_succ 1)
    generalize hm₂ : Machine.setReg _ .rsi _ = m₂ at harguments
    have hconf : Conforms 17 (pushWords p (RawIsr.unpreserved.map p.reg)) m₂ :=
      hm₂ ▸ (Conforms.refl.setReg (by decide)).setReg (by decide)
    have hcalled : Called m v none (m₂.pushWord t.nonCodedNext) := by
      refine .of_pushed hwords (Nat.le_succ 1) hsystem hconf ?_ ?_ ?_ nofun
      · simpa [← hm₂] using hcritical
      · simpa [← hm₂] using hpushed.1
      · simp [← hm₂, add_assoc]
    have hfn : t.function v = t.interruptNonCoded := if_neg (by simp [hv])
    refine ⟨_, hcalled, ?_⟩
    rw [Irt.isr, if_neg (by simp [hv]), text, if_neg hroutines.symm, if_pos rfl, hfn]
    exact RawIsr.run_routine [v.setWidth 64] hwords (Nat.le_succ 1) hreg hsys hrip harguments
      hconf fun m₃ hm₃ => hfunction _ _ hcalled (hfn ▸ hm₃)

end

end

end Anarch
