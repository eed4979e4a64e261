import Anarch.Gdt
import Anarch.Machine

/-! The trampoline: what `StartupCode` puts below 0x6000, and the way of a processor from its
startup interrupt to the callback. The kernel map is the identity there, so that a processor finds
the same bytes with and without paging. -/
namespace Anarch.StartupCode
open ByteMemory TransitionRun
open X86 (Reg)

/-- What the trampoline is made of: the tables of `GlobalMap`, the callback and the code. -/
structure Parts where
  pdpt : PhysAddr
  pml4 : PhysAddr
  callbackFunc : Word
  code : List (BitVec 8)

def codeBase : Word := 0x5000
def pageTableBase : Word := 0x3000

def memcpy (mem : ByteMemory) (dest src : Word) (n : ℕ) : ByteMemory := fun a =>
  if (a - dest).toNat < n then mem (src + (a - dest)) else mem a

def storeBytes (mem : ByteMemory) (addr : Word) (l : List (BitVec 8)) : ByteMemory := fun a =>
  l[(a - addr).toNat]?.getD (mem a)

/-- The constructor, with what the heap returns for the backup. -/
def new (k : Parts) (dataBackup : Option Word) (ptr : Gdt.Pointer) (mem : ByteMemory) :
    Outcome (Word × ByteMemory) := do
  let some dataBackup := dataBackup |
    .error (.panic "StartupCode::StartupCode() - failed to allocate backup")
  let mem := memcpy mem dataBackup pageTableBase 0x3000
  let mem := store64 mem pageTableBase (k.pdpt ||| 3)
  let mem := storeNat mem (pageTableBase + 0x1000) 10 (ptr.start ++ ptr.limit).toNat
  assertThat "codeLen < 0x1000" (k.code.length < 0x1000)
  return (dataBackup, storeBytes mem codeBase k.code)

def delete (dataBackup : Word) (mem : ByteMemory) : ByteMemory :=
  memcpy mem pageTableBase dataBackup 0x3000

def resetStartupStack (k : Parts) (mem : ByteMemory) : ByteMemory :=
  let bootstrapStack := codeBase - 16
  store64 (store64 mem bootstrapStack k.pml4) (bootstrapStack + 8) k.callbackFunc

/-- How a processor reads code: 16-bit code up to the jump into the 64-bit segment. -/
inductive Mode
  | real
  | compatibility
  | long
  deriving DecidableEq, Repr

inductive Seg
  | ds
  | es
  | fs
  | gs
  | ss
  deriving DecidableEq, Repr

structure Processor where
  mode : Mode
  reg : Reg → Word
  rip : Word
  interruptFlag : Bool
  cs : BitVec 16
  seg : Seg → BitVec 16
  cr0 : Word
  cr3 : Word
  cr4 : Word
  efer : Word
  gdtr : Gdt.Pointer
  mem : ByteMemory

/-- The instructions of the trampoline. -/
inductive Instr
  | jmpFar (selector : BitVec 16)
  | cli
  | movImm16 (dst : Reg) (imm : BitVec 16)
  | xorSelf16 (dst : Reg)
  | movImm (dst : Reg) (imm : BitVec 32)
  | orImm (dst : Reg) (imm : BitVec 32)
  | readCr0 (dst : Reg)
  | loadCr0 (src : Reg)
  | loadCr3 (src : Reg)
  | loadCr4 (src : Reg)
  | rdmsr
  | wrmsr
  | lgdt (base : Reg)
  | loadSeg (dst : Seg) (src : Reg)
  | pop (dst : Reg)
  | ret
  deriving DecidableEq, Repr

/-- `anarch_proc_entry`. The jumps go to the next line. -/
def procEntry : List Instr := [
  .jmpFar 0,
  .cli,
  .movImm16 .rsp 0x4ff0,
  .movImm .rax 0xa0,
  .loadCr4 .rax,
  .movImm .rax 0x3000,
  .loadCr3 .rax,
  .movImm .rcx 0xc0000080,
  .rdmsr,
  .orImm .rax 0x901,
  .wrmsr,
  .readCr0 .rbx,
  .orImm .rbx 0x80000001,
  .loadCr0 .rbx,
  .movImm .rbx 0x4000,
  .lgdt .rbx,
  .jmpFar 0x8,
  .movImm16 .rax 0x10,
  .loadSeg .ds .rax,
  .loadSeg .es .rax,
  .loadSeg .fs .rax,
  .loadSeg .gs .rax,
  .xorSelf16 .rax,
  .loadSeg .ss .rax,
  .pop .rax,
  .loadCr3 .rax,
  .ret]

/-- A present 64-bit code segment of the kernel. -/
def longCode (w : Word) : Bool :=
  w.getLsbD 44 && w.getLsbD 43 && w.extractLsb' 45 2 = 0 && w.getLsbD 47 && w.getLsbD 53 &&
    !w.getLsbD 54

/-- A present segment that can be read. -/
def readable (w : Word) : Bool :=
  w.getLsbD 44 && (!w.getLsbD 43 || w.getLsbD 41) && w.getLsbD 47

/-- With these page tables the processor is in the kernel map: its own PML4, or one that starts with
its PDPT. -/
def Parts.leads (k : Parts) (mem : ByteMemory) (cr3 : Word) : Bool :=
  cr3 = k.pml4 || load64 mem cr3 = k.pdpt ||| 3

namespace Processor

def set (p : Processor) (r : Reg) (v : Word) : Processor :=
  { p with reg := Function.update p.reg r v }

def set16 (p : Processor) (r : Reg) (v : BitVec 16) : Processor :=
  p.set r (p.reg r &&& ~~~0xffff ||| v.setWidth 64)

/-- A descriptor is loaded, if it is of the right kind, and marked as accessed. -/
def use (p : Processor) (selector : BitVec 16) (kind : Word → Bool) : Option Processor := do
  let w ← Gdt.descriptor p.mem p.gdtr selector
  let addr := p.gdtr.start + (8 : Word) * (selector >>> 3).setWidth 64
  if kind w then return { p with mem := store64 p.mem addr (w ||| Gdt.mark w) } else none

/-- One instruction. None: an exception for which there is no handler, or code for another mode. -/
def exec (k : Parts) (p : Processor) : Instr → Option Processor
  | .jmpFar selector =>
      match p.mode with
      | .real => some { p with cs := selector }
      | .compatibility => do
          let p ← p.use selector longCode
          return { p with mode := .long, cs := selector }
      | .long => none
  | .cli => some { p with interruptFlag := false }
  | .movImm16 dst imm => some (p.set16 dst imm)
  | .xorSelf16 dst => some (p.set16 dst 0)
  | .movImm dst imm => some (p.set dst (imm.setWidth 64))
  | .orImm dst imm => some (p.set dst ((p.reg dst).setWidth 32 ||| imm |>.setWidth 64))
  | .readCr0 dst => some (p.set dst (p.cr0.setWidth 32 |>.setWidth 64))
  | .loadCr0 src =>
      let cr0 := p.reg src
      if cr0.getLsbD 31 then
        if cr0.getLsbD 0 && p.efer.getLsbD 8 && p.cr4.getLsbD 5 && k.leads p.mem p.cr3 then
          some { p with cr0, efer := p.efer ||| 0x400, mode := .compatibility }
        else none
      else some { p with cr0 }
  | .loadCr3 src =>
      if p.mode = .real || k.leads p.mem (p.reg src) then some { p with cr3 := p.reg src } else none
  | .loadCr4 src => some { p with cr4 := p.reg src }
  | .rdmsr =>
      if p.reg .rcx = 0xc0000080 then
        some ((p.set .rax (p.efer.setWidth 32 |>.setWidth 64)).set .rdx (p.efer >>> 32))
      else none
  | .wrmsr =>
      if p.reg .rcx = 0xc0000080 then
        some { p with efer := (p.reg .rdx).setWidth 32 ++ (p.reg .rax).setWidth 32 }
      else none
  -- 16-bit code loads 24 bits of the base
  | .lgdt base =>
      let addr := (p.seg .ds).setWidth 64 <<< 4 + p.reg base
      if p.mode = .long then none
      else some { p with
        gdtr := ⟨.ofNat 16 (loadNat p.mem addr 2), .ofNat 64 (loadNat p.mem (addr + 2) 3)⟩ }
  | .loadSeg dst src =>
      let selector := (p.reg src).setWidth 16
      let p' := { p with seg := Function.update p.seg dst selector }
      if p.mode = .long then
        if selector = 0 then some p' else p'.use selector readable
      else none
  | .pop dst =>
      if p.mode = .long then
        some ((p.set .rsp (p.reg .rsp + 8)).set dst (load64 p.mem (p.reg .rsp)))
      else none
  | .ret =>
      if p.mode = .long then
        some { p.set .rsp (p.reg .rsp + 8) with rip := load64 p.mem (p.reg .rsp) }
      else none

def run (k : Parts) : List Instr → Processor → Option Processor
  | [], p => some p
  | i :: code, p => (p.exec k i).bind (run k code)

/-- What the startup interrupt of vector 5 leads to: the state of a reset, at 0x5000. -/
def reset (rdx : Word) (mem : ByteMemory) : Processor where
  mode := .real
  reg := fun r => if r = .rdx then rdx else 0
  rip := codeBase
  interruptFlag := false
  cs := 0x500
  seg := fun _ => 0
  cr0 := 0x60000010
  cr3 := 0
  cr4 := 0
  efer := 0
  gdtr := ⟨0xffff, 0⟩
  mem := mem

/-- The processor runs `procEntry` if it finds its bytes. -/
def start (k : Parts) (rdx : Word) (mem : ByteMemory) : Option Processor :=
  if fetch mem codeBase k.code.length = k.code then run k procEntry (reset rdx mem) else none

end Processor

/-- A processor has come to the callback, in the kernel map and with the table of the kernel. -/
structure Arrived (k : Parts) (ptr : Gdt.Pointer) (p : Processor) : Prop where
  mode : p.mode = .long
  rip : p.rip = k.callbackFunc
  rsp : p.reg .rsp = codeBase
  interruptFlag : p.interruptFlag = false
  cr3 : p.cr3 = k.pml4
  gdtr : p.gdtr = ptr
  cs : p.cs = 0x8
  seg : ∀ d, p.seg d = if d = .ss then 0 else 0x10

/-- For this selector a processor finds a descriptor of the right kind. -/
def Has (mem : ByteMemory) (ptr : Gdt.Pointer) (selector : BitVec 16) (kind : Word → Bool) : Prop :=
  ∃ w, Gdt.descriptor mem ptr selector = some w ∧ kind w = true

/-- The descriptor at an address is marked. -/
def markAt (mem : ByteMemory) (addr : Word) : ByteMemory :=
  store64 mem addr (load64 mem addr ||| Gdt.mark (load64 mem addr))

/-- What is left in memory after the trampoline has loaded its segments. -/
def loaded (mem : ByteMemory) (ptr : Gdt.Pointer) : ByteMemory :=
  (markAt · (ptr.start + 0x10))^[4] (markAt mem (ptr.start + 0x8))

/-- What the trampoline finds in memory. -/
structure Placed (k : Parts) (ptr : Gdt.Pointer) (mem : ByteMemory) : Prop where
  short : k.code.length < 0x1000
  table : load64 mem pageTableBase = k.pdpt ||| 3
  pointer : ∀ j < 10,
    mem (0x4000 + .ofNat 64 j) = .ofNat 8 ((ptr.start ++ ptr.limit).toNat / 256 ^ j)
  code : HasBytes mem codeBase k.code

structure Stacked (k : Parts) (mem : ByteMemory) : Prop where
  pml4 : load64 mem 0x4ff0 = k.pml4
  callback : load64 mem 0x4ff8 = k.callbackFunc

/-- From the constructor of `StartupCode` to its destructor: the table of the kernel in its memory,
where the backup is, the memory that was there before, and whether the stack of the trampoline is
as `ResetStartupStack` leaves it. -/
structure State where
  table : Gdt.Table
  dataBackup : Word
  original : ByteMemory
  stacked : Bool

def State.mem (s : State) : ByteMemory := s.table.gdt.mem

def State.setMem (s : State) (mem : ByteMemory) (stacked : Bool) : State :=
  { s with table := { s.table with gdt := { s.table.gdt with mem } }, stacked }

section
variable {s : State} {mem mem' : ByteMemory} {b b' : Bool}

lemma setMem_mem : (s.setMem mem b).mem = mem := rfl

lemma setMem_stacked : (s.setMem mem b).stacked = b := rfl

lemma setMem_getPointer : (s.setMem mem b).table.gdt.getPointer = s.table.gdt.getPointer := rfl

lemma setMem_setMem : (s.setMem mem b).setMem mem' b' = s.setMem mem' b' := rfl

end

inductive Action
  | table (a : Gdt.Action)
  | resetStartupStack
  /-- A processor that has come to the callback, still on the stack of the trampoline. -/
  | callback (mem : ByteMemory)

/-- The heap gives the backup and the table apart from each other and from the trampoline. -/
def system (k : Parts) : System State Action where
  start s := ∃ t heap mem, Gdt.system.Reachable t ∧
    new k heap t.gdt.getPointer t.gdt.mem = .ok (s.dataBackup, mem) ∧
    s = ({ s with table := t, original := t.gdt.mem } : State).setMem mem false ∧
    Apart t.gdt.buffer 0x10000 pageTableBase 0x3000 ∧
    Apart t.gdt.buffer 0x10000 s.dataBackup 0x3000 ∧
    Apart pageTableBase 0x3000 s.dataBackup 0x3000
  step s a s' :=
    match a with
    | .table a => Gdt.system.step s.table a s'.table ∧ s' = { s with table := s'.table } ∧
        ∀ mem, a = .others mem →
          SameOn pageTableBase 0x3000 s.mem mem ∧ SameOn s.dataBackup 0x3000 s.mem mem
    | .resetStartupStack => s' = s.setMem (resetStartupStack k s.mem) true
    | .callback mem => SameOff 0x4010 0xff0 s.mem mem ∧ s' = s.setMem mem false

section
variable {k : Parts} {ptr : Gdt.Pointer} {mem mem' : ByteMemory} {p : Processor}

namespace Processor

lemma run_append (code code' : List Instr) (p : Processor) :
    run k (code ++ code') p = (run k code p).bind (run k code') := by
  induction code generalizing p with
  | nil => rfl
  | cons i code ih =>
    rw [List.cons_append, run, run, Option.bind_assoc]
    exact congrArg _ (funext ih)

/-- What a processor makes of the pointer that 16-bit code loads: 24 bits of the base are left. -/
def cut (ptr : Gdt.Pointer) : Gdt.Pointer := ⟨ptr.limit, .ofNat 64 (ptr.start.toNat % 2 ^ 24)⟩

/-- A processor in front of the jump into the 64-bit code. -/
structure Ahead (ptr : Gdt.Pointer) (mem : ByteMemory) (p : Processor) : Prop where
  mode : p.mode = .compatibility
  rsp : p.reg .rsp = 0x4ff0
  interruptFlag : p.interruptFlag = false
  gdtr : p.gdtr = cut ptr
  mem : p.mem = mem

lemma toNat_pointer (ptr : Gdt.Pointer) :
    (ptr.start ++ ptr.limit).toNat = ptr.start.toNat * 0x10000 + ptr.limit.toNat := by
  rw [BitVec.toNat_append, ← Nat.shiftLeft_add_eq_or_of_lt ptr.limit.isLt, Nat.shiftLeft_eq]

lemma run_real (rdx : Word) (h : Placed k ptr mem) :
    ∃ p, run k (procEntry.take 16) (reset rdx mem) = some p ∧ Ahead ptr mem p := by
  have hleads : k.leads mem 0x3000#64 = true := by
    rw [Parts.leads, show 0x3000#64 = pageTableBase from rfl, h.table]
    simp
  have hnumber := toNat_pointer ptr
  have hlimit : BitVec.ofNat 16 (loadNat mem 0x4000 2) = ptr.limit := by
    have hload : loadNat mem 0x4000 2 = _ := loadNat_piece (j := 0) h.pointer (by decide)
    apply BitVec.eq_of_toNat_eq
    rw [hload, hnumber, BitVec.toNat_ofNat]
    omega
  have hbase : loadNat mem 0x4002 3 = ptr.start.toNat % 2 ^ 24 := by
    have hload : loadNat mem 0x4002 3 = _ := loadNat_piece (j := 2) h.pointer (by decide)
    rw [hload, hnumber]
    omega
  have hrun : (run k (procEntry.take 16) (reset rdx mem)).map
      (fun p => (p.mode, p.reg .rsp, p.interruptFlag, p.gdtr, p.mem)) =
      some (.compatibility, 0x4ff0, false, cut ptr, mem) := by
    rw [cut, ← hlimit, ← hbase]
    simp [procEntry, run, exec, reset, set, set16, hleads]
  obtain ⟨p, hp, hfields⟩ := Option.map_eq_some_iff.mp hrun
  simp only [Prod.mk.injEq] at hfields
  exact ⟨p, hp, hfields.1, hfields.2.1, hfields.2.2.1, hfields.2.2.2.1, hfields.2.2.2.2⟩

variable {selector : BitVec 16} {kind : Word → Bool} {addr : Word}

lemma use_of_has (h : Has p.mem p.gdtr selector kind)
    (haddr : p.gdtr.start + (8 : Word) * (selector >>> 3).setWidth 64 = addr) :
    p.use selector kind = some { p with mem := markAt p.mem addr } := by
  obtain ⟨w, hw, hkind⟩ := h
  have hload : load64 p.mem addr = w := by
    rw [Gdt.descriptor, haddr] at hw
    split_ifs at hw
    exact Option.some.inj hw
  rw [use, hw, Option.bind_eq_bind, Option.bind_some, if_pos hkind, haddr, markAt, hload]
  rfl

lemma use_none (h : ¬ Has p.mem p.gdtr selector kind) : p.use selector kind = none := by
  rw [use]
  cases hw : Gdt.descriptor p.mem p.gdtr selector with
  | none => rfl
  | some w =>
    have hkind : kind w = false := by
      by_contra hne
      exact h ⟨w, hw, by simpa using hne⟩
    simp [hkind]

lemma readable_mark {w : Word} (h : readable w = true) : readable (w ||| Gdt.mark w) = true := by
  have hsegment : w.getLsbD 44 = true := by
    simp only [readable, Bool.and_eq_true] at h
    exact h.1.1
  simpa [readable, Gdt.mark, hsegment, BitVec.getLsbD_twoPow] using h

lemma has_markAt (h : Has mem ptr 0x10 readable) :
    Has (markAt mem (ptr.start + 0x10)) ptr 0x10 readable := by
  obtain ⟨w, hw, hkind⟩ := h
  refine ⟨w ||| Gdt.mark w, ?_, readable_mark hkind⟩
  rw [Gdt.descriptor, show (8 : Word) * ((0x10 : BitVec 16) >>> 3).setWidth 64 = 0x10 from rfl]
    at hw ⊢
  split_ifs at hw ⊢ with hlimit
  rw [← Option.some.inj hw, markAt, load64_store64]

lemma has_markAt_iff : Has (markAt mem (ptr.start + 0x8)) ptr 0x10 readable ↔
    Has mem ptr 0x10 readable := by
  have hword : load64 (markAt mem (ptr.start + 0x8)) (ptr.start + 0x10) =
      load64 mem (ptr.start + 0x10) := by
    refine load64_store64_apart ?_
    rw [Apart, add_sub_add_left_eq_sub]
    decide
  rw [Has, Has, Gdt.descriptor, Gdt.descriptor,
    show (8 : Word) * ((0x10 : BitVec 16) >>> 3).setWidth 64 = 0x10 from rfl, hword]

lemma run_loadSegs (segs : List Seg) (h : Has p.mem p.gdtr 0x10 readable) (hmode : p.mode = .long)
    (hrax : (p.reg .rax).setWidth 16 = 0x10#16) :
    ∃ p', run k (segs.map (.loadSeg · .rax)) p = some p' ∧
      p'.mem = (markAt · (p.gdtr.start + 0x10))^[segs.length] p.mem ∧ p'.mode = .long ∧
      p'.reg = p.reg ∧ p'.interruptFlag = p.interruptFlag ∧ p'.gdtr = p.gdtr ∧ p'.cs = p.cs ∧
      ∀ d, p'.seg d = if d ∈ segs then 0x10 else p.seg d := by
  induction segs generalizing p with
  | nil => exact ⟨p, rfl, rfl, hmode, rfl, rfl, rfl, rfl, by simp⟩
  | cons d segs ih =>
    have hexec : p.exec k (.loadSeg d .rax) = some { p with
        mem := markAt p.mem (p.gdtr.start + 0x10), seg := Function.update p.seg d 0x10 } := by
      have huse := use_of_has (p := { p with seg := Function.update p.seg d 0x10 }) h rfl
      simpa [exec, hmode, hrax] using huse
    obtain ⟨p', hrun, hmem, hmode', hreg, hflag, hgdtr, hcs, hseg⟩ := ih (p := { p with
      mem := markAt p.mem (p.gdtr.start + 0x10), seg := Function.update p.seg d 0x10 })
      (has_markAt h) hmode hrax
    refine ⟨p', ?_, hmem, hmode', hreg, hflag, hgdtr, hcs, fun e => ?_⟩
    · rw [List.map_cons, run, hexec, Option.bind_some, hrun]
    · rw [hseg e]
      by_cases he : e = d <;> simp [he]

lemma set16_low (p : Processor) (r : Reg) (v : BitVec 16) :
    ((p.set16 r v).reg r).setWidth 16 = v := by
  simp [set16, set]

lemma run_last (hmode : p.mode = .long) (hrsp : p.reg .rsp = 0x4ff0)
    (hpml4 : load64 p.mem 0x4ff0#64 = k.pml4)
    (hcallback : load64 p.mem 0x4ff8#64 = k.callbackFunc) :
    ∃ p', run k (procEntry.drop 22) p = some p' ∧ p'.mode = .long ∧ p'.rip = k.callbackFunc ∧
      p'.reg .rsp = codeBase ∧ p'.interruptFlag = p.interruptFlag ∧ p'.cr3 = k.pml4 ∧
      p'.gdtr = p.gdtr ∧ p'.cs = p.cs ∧ p'.seg = Function.update p.seg .ss 0 ∧ p'.mem = p.mem := by
  have hrun : (run k (procEntry.drop 22) p).map (fun p => (p.mode, p.rip, p.reg .rsp,
      p.interruptFlag, p.cr3, p.gdtr, p.cs, p.seg, p.mem)) =
      some (.long, k.callbackFunc, codeBase, p.interruptFlag, k.pml4, p.gdtr, p.cs,
        Function.update p.seg .ss 0, p.mem) := by
    have hleads : k.leads p.mem k.pml4 = true := by simp [Parts.leads]
    simp [procEntry, run, exec, set, set16, hmode, hrsp, hpml4, hcallback, hleads, codeBase]
  obtain ⟨p', hp', hfields⟩ := Option.map_eq_some_iff.mp hrun
  simp only [Prod.mk.injEq] at hfields
  exact ⟨p', hp', hfields⟩

lemma loaded_sameOff : SameOff (ptr.start + 0x8) 0x10 mem (loaded mem ptr) := by
  have hlong : ∀ m, SameOff (ptr.start + 0x8) 0x10 m (markAt m (ptr.start + 0x8)) := fun m =>
    fun a ha => store64_sameOff a (le_trans (by decide) ha)
  have hdata : ∀ n m, SameOff (ptr.start + 0x8) 0x10 m ((markAt · (ptr.start + 0x10))^[n] m) := by
    intro n
    induction n with
    | zero => exact fun m => .refl
    | succ n ih =>
      intro m
      have hnext : ptr.start + 0x10 = ptr.start + 0x8 + .ofNat 64 8 := by
        rw [add_assoc]
        rfl
      refine SameOff.trans ?_ (ih _)
      rw [hnext]
      exact store64_sameOff_range (by decide) (by decide)
  exact (hlong mem).trans (hdata 4 _)

lemma exec_jmpFar (hmode : p.mode = .compatibility) (h : Has p.mem p.gdtr 0x8 longCode) :
    p.exec k (.jmpFar 0x8) =
      some { p with mem := markAt p.mem (p.gdtr.start + 0x8), mode := .long, cs := 0x8 } := by
  have huse : p.use 0x8#16 longCode = _ := use_of_has h rfl
  simp [exec, hmode, huse]

lemma run_long (hp : Ahead ptr mem p) (hcode : Has mem (cut ptr) 0x8 longCode)
    (hdata : Has mem (cut ptr) 0x10 readable) (hstack : Stacked k mem)
    (hapart : Apart ((cut ptr).start + 0x8) 0x10 0x4ff0 0x10) :
    ∃ p', run k (procEntry.drop 16) p = some p' ∧ Arrived k (cut ptr) p' ∧
      p'.mem = loaded mem (cut ptr) := by
  obtain ⟨hmode, hrsp, hflag, hgdtr, rfl⟩ := hp
  rw [← hgdtr] at hcode hdata hapart ⊢
  have hjump := exec_jmpFar (k := k) hmode hcode
  have hdata : Has (markAt p.mem (p.gdtr.start + 0x8)) p.gdtr 0x10 readable :=
    has_markAt_iff.mpr hdata
  obtain ⟨p₁, hsegs, hmem₁, hmode₁, hreg₁, hflag₁, hgdtr₁, hcs₁, hseg₁⟩ :=
    run_loadSegs (k := k) [.ds, .es, .fs, .gs] (p := { p with
      mem := markAt p.mem (p.gdtr.start + 0x8), mode := .long, cs := 0x8 }.set16 .rax 0x10)
      hdata rfl (set16_low _ _ _)
  have hmem₁ : p₁.mem = loaded p.mem p.gdtr := hmem₁
  have hpml4 : load64 p₁.mem 0x4ff0 = k.pml4 := by
    have hword : SameOn 0x4ff0 0x10 p.mem (loaded p.mem p.gdtr) := loaded_sameOff.apart hapart
    rw [hmem₁, load64_sameOn (hword.mono (by decide)), hstack.pml4]
  have hcallback : load64 p₁.mem 0x4ff8 = k.callbackFunc := by
    have hword : SameOn 0x4ff8 8 p.mem (loaded p.mem p.gdtr) :=
      loaded_sameOff.apart (hapart.piece (j := 8) (by decide) (by decide))
    rw [hmem₁, load64_sameOn hword, hstack.callback]
  have hrsp₁ : p₁.reg .rsp = 0x4ff0 := by
    rw [hreg₁]
    simpa [set16, set] using hrsp
  obtain ⟨p', hrun, hmode', hrip, hrsp', hflag', hcr3, hgdtr', hcs, hseg, hmem⟩ :=
    run_last hmode₁ hrsp₁ hpml4 hcallback
  refine ⟨p', ?_, ⟨hmode', hrip, hrsp', (hflag'.trans hflag₁).trans hflag, hcr3,
    hgdtr'.trans hgdtr₁, hcs.trans hcs₁, fun d => ?_⟩, hmem.trans hmem₁⟩
  · have hsplit : procEntry.drop 16 = .jmpFar 0x8 :: .movImm16 .rax 0x10 ::
        ([.ds, .es, .fs, .gs].map (.loadSeg · .rax) ++ procEntry.drop 22) := rfl
    rw [hsplit, run, hjump, Option.bind_some, run, exec, Option.bind_some, run_append, hsegs]
    exact hrun
  · cases d <;> simp [hseg, hseg₁]

lemma loadSeg_none (hmode : p.mode = .long) (hrax : (p.reg .rax).setWidth 16 = 0x10#16)
    (h : ¬ Has p.mem p.gdtr 0x10 readable) (d : Seg) : p.exec k (.loadSeg d .rax) = none := by
  have huse := use_none (p := { p with seg := Function.update p.seg d 0x10 }) h
  simpa [exec, hmode, hrax] using huse

lemma run_none_code (hp : Ahead ptr mem p) (h : ¬ Has mem (cut ptr) 0x8 longCode) :
    run k (procEntry.drop 16) p = none := by
  obtain ⟨hmode, -, -, hgdtr, rfl⟩ := hp
  have huse : p.use 0x8#16 longCode = none := use_none (hgdtr ▸ h)
  have hjump : p.exec k (.jmpFar 0x8) = none := by simp [exec, hmode, huse]
  exact congrArg (Option.bind · _) hjump

lemma run_none_data (hp : Ahead ptr mem p) (hcode : Has mem (cut ptr) 0x8 longCode)
    (h : ¬ Has mem (cut ptr) 0x10 readable) : run k (procEntry.drop 16) p = none := by
  obtain ⟨hmode, -, -, hgdtr, rfl⟩ := hp
  rw [← hgdtr] at hcode h
  have hjump := exec_jmpFar (k := k) hmode hcode
  have hdata : ¬ Has (markAt p.mem (p.gdtr.start + 0x8)) p.gdtr 0x10 readable :=
    mt has_markAt_iff.mp h
  have hload := loadSeg_none (k := k) (p := { p with
    mem := markAt p.mem (p.gdtr.start + 0x8), mode := .long, cs := 0x8 }.set16 .rax 0x10)
    rfl (set16_low _ _ _) hdata .ds
  have hsplit : procEntry.drop 16 = .jmpFar 0x8 :: .movImm16 .rax 0x10 :: .loadSeg .ds .rax ::
      procEntry.drop 19 := rfl
  rw [hsplit, run, hjump, Option.bind_some, run, exec, Option.bind_some, run, hload,
    Option.bind_none]

/-- A processor starts exactly when the 24 bits lead to a code segment and a data segment. -/
lemma start_some_iff (hplaced : Placed k ptr mem) (hstack : Stacked k mem)
    (hapart : Apart ((cut ptr).start + 0x8) 0x10 0x4ff0 0x10) (rdx : Word) :
    ((∃ p, start k rdx mem = some p) ↔
      Has mem (cut ptr) 0x8 longCode ∧ Has mem (cut ptr) 0x10 readable) ∧
    ∀ p, start k rdx mem = some p → Arrived k (cut ptr) p ∧ p.mem = loaded mem (cut ptr) := by
  obtain ⟨p, hreal, hahead⟩ := run_real rdx hplaced
  have hstart : start k rdx mem = run k (procEntry.drop 16) p := by
    rw [start, if_pos hplaced.code.fetch, ← List.take_append_drop 16 procEntry, run_append, hreal]
    rfl
  rw [hstart]
  by_cases hcode : Has mem (cut ptr) 0x8 longCode
  · by_cases hdata : Has mem (cut ptr) 0x10 readable
    · obtain ⟨p', hlong, harrived⟩ := run_long hahead hcode hdata hstack hapart
      rw [hlong]
      exact ⟨⟨fun _ => ⟨hcode, hdata⟩, fun _ => ⟨p', rfl⟩⟩,
        fun q hq => Option.some.inj hq ▸ harrived⟩
    · rw [run_none_data hahead hcode hdata]
      exact ⟨⟨nofun, fun h => absurd h.2 hdata⟩, nofun⟩
  · rw [run_none_code hahead hcode]
    exact ⟨⟨nofun, fun h => absurd h.1 hcode⟩, nofun⟩

end Processor

lemma memcpy_at {dest src : Word} {n j : ℕ} (hj : j < n) (hn : n ≤ 2 ^ 64) :
    memcpy mem dest src n (dest + .ofNat 64 j) = mem (src + .ofNat 64 j) := by
  rw [memcpy, sub_offset (hj.trans_le hn), if_pos hj, add_sub_cancel_left]

lemma memcpy_sameOff {dest src : Word} {n : ℕ} : SameOff dest n mem (memcpy mem dest src n) :=
  fun _ ha => if_neg (Nat.not_lt.mpr ha)

lemma storeBytes_sameOff {addr : Word} {l : List (BitVec 8)} :
    SameOff addr l.length mem (storeBytes mem addr l) := fun a ha => by
  rw [storeBytes, List.getElem?_eq_none ha, Option.getD_none]

lemma storeBytes_hasBytes {addr : Word} {l : List (BitVec 8)} (hl : l.length ≤ 2 ^ 64) :
    HasBytes (storeBytes mem addr l) addr l := fun j b hb => by
  have hj := (List.getElem?_eq_some_iff.mp hb).1
  rw [storeBytes, sub_offset (hj.trans_le hl), hb, Option.getD_some]

lemma Placed.stack (h : Placed k ptr mem) (hsame : SameOff 0x4010 0xff0 mem mem') :
    Placed k ptr mem' where
  short := h.short
  table := by
    have htable : SameOn pageTableBase 8 mem mem' := hsame.apart (by decide)
    rw [load64_sameOn htable, h.table]
  pointer j hj := by
    have hpointer : SameOn 0x4000 10 mem mem' := hsame.apart (by decide)
    rw [hpointer j hj, h.pointer j hj]
  code := by
    have hlength := h.short
    refine h.code.sameOn (hsame.apart ⟨by decide, ?_⟩)
    rw [show (codeBase - 0x4010).toNat = 0xff0 from rfl]
    omega

lemma Placed.sameOn (h : Placed k ptr mem) (hsame : SameOn pageTableBase 0x3000 mem mem') :
    Placed k ptr mem' where
  short := h.short
  table := by rw [load64_sameOn (hsame.mono (by decide)), h.table]
  pointer j hj := by
    have hpointer : SameOn 0x4000 10 mem mem' := hsame.piece (j := 0x1000) (by decide)
    rw [hpointer j hj, h.pointer j hj]
  code := by
    have hcode : SameOn codeBase 0x1000 mem mem' := hsame.piece (j := 0x2000) (by decide)
    exact h.code.sameOn (hcode.mono h.short.le)

lemma Stacked.sameOn (h : Stacked k mem) (hsame : SameOn pageTableBase 0x3000 mem mem') :
    Stacked k mem' where
  pml4 := by
    have hword : SameOn 0x4ff0 8 mem mem' := hsame.piece (j := 0x1ff0) (by decide)
    rw [load64_sameOn hword, h.pml4]
  callback := by
    have hword : SameOn 0x4ff8 8 mem mem' := hsame.piece (j := 0x1ff8) (by decide)
    rw [load64_sameOn hword, h.callback]

lemma resetStartupStack_sameOff : SameOff 0x4010 0xff0 mem (resetStartupStack k mem) := by
  have hfirst : SameOff 0x4010 0xff0 mem (store64 mem 0x4ff0 k.pml4) :=
    store64_sameOff_range (k := 0xfe0) (by decide) (by decide)
  exact hfirst.trans (store64_sameOff_range (k := 0xfe8) (by decide) (by decide))

lemma resetStartupStack_stacked : Stacked k (resetStartupStack k mem) where
  pml4 := (load64_store64_apart (by decide)).trans load64_store64
  callback := load64_store64

lemma new_spec {heap : Option Word} {dataBackup : Word}
    (hnew : new k heap ptr mem = .ok (dataBackup, mem')) :
    Placed k ptr mem' ∧
      SameOff pageTableBase 0x3000 (memcpy mem dataBackup pageTableBase 0x3000) mem' := by
  cases heap with
  | none => cases hnew
  | some heap =>
    obtain ⟨_, hshort, hnew⟩ := bind_eq_ok.mp hnew
    obtain ⟨rfl, rfl⟩ := Prod.mk.inj (Except.ok.inj hnew)
    have hshort : k.code.length < 0x1000 := by simpa [assertThat_eq_ok] using hshort
    generalize memcpy mem heap pageTableBase 0x3000 = mem₁
    generalize hmem₂ : store64 mem₁ pageTableBase (k.pdpt ||| 3) = mem₂
    generalize hmem₃ : storeNat mem₂ (pageTableBase + 0x1000) 10 _ = mem₃
    have hpdpt : SameOff pageTableBase 8 mem₁ mem₂ := hmem₂ ▸ store64_sameOff
    have hpointer : SameOff 0x4000 10 mem₂ mem₃ := hmem₃ ▸ storeNat_sameOff
    have hcode : SameOff codeBase 0x1000 mem₃ (storeBytes mem₃ codeBase k.code) :=
      fun a ha => storeBytes_sameOff a (hshort.le.trans ha)
    refine ⟨⟨hshort, ?_, fun j hj => ?_, storeBytes_hasBytes (by omega)⟩, ?_⟩
    · have hword : SameOn pageTableBase 8 mem₂ mem₃ := hpointer.apart (by decide)
      rw [load64_sameOn (hcode.apart (by decide)), load64_sameOn hword, ← hmem₂, load64_store64]
    · have hbytes : SameOn 0x4000 10 mem₃ (storeBytes mem₃ codeBase k.code) :=
        hcode.apart (by decide)
      rw [hbytes j hj, ← hmem₃, storeNat, show pageTableBase + 0x1000 = (0x4000 : Word) from rfl,
        sub_offset (by omega), if_pos hj]
    · have h₁ : SameOff pageTableBase 0x3000 mem₁ mem₂ :=
        fun a ha => hpdpt a (le_trans (by decide) ha)
      have h₂ : SameOff pageTableBase 0x3000 mem₂ mem₃ :=
        hpointer.within (k := 0x1000) (by decide) (by decide)
      exact (h₁.trans h₂).trans (hcode.within (k := 0x2000) (by decide) (by decide))

/-- What every reachable state has. -/
structure Sound (k : Parts) (s : State) : Prop where
  reachable : Gdt.system.Reachable s.table
  placed : Placed k s.table.gdt.getPointer s.mem
  stacked : s.stacked = true → Stacked k s.mem
  backup : ∀ j < 0x3000,
    s.mem (s.dataBackup + .ofNat 64 j) = s.original (pageTableBase + .ofNat 64 j)
  trampoline : Apart s.table.gdt.buffer 0x10000 pageTableBase 0x3000
  dataBackup : Apart s.table.gdt.buffer 0x10000 s.dataBackup 0x3000
  apart : Apart pageTableBase 0x3000 s.dataBackup 0x3000

variable {s s' : State}

lemma Sound.setMem (h : Sound k s) (hsame : SameOff 0x4010 0xff0 s.mem mem) {stacked : Bool}
    (hstack : stacked = true → Stacked k mem) : Sound k (s.setMem mem stacked) := by
  have hwithin : SameOff pageTableBase 0x3000 s.mem mem :=
    hsame.within (k := 0x1010) (by decide) (by decide)
  refine ⟨h.reachable.next (a := .others mem) ⟨?_, rfl⟩, h.placed.stack hsame, hstack,
    fun j hj => ?_, h.trampoline, h.dataBackup, h.apart⟩
  · exact hwithin.apart (h.trampoline.symm (by decide))
  · exact (hwithin.apart h.apart j hj).trans (h.backup j hj)

lemma Sound.table (h : Sound k s) {a : Gdt.Action} {t : Gdt.Table}
    (hstep : Gdt.system.step s.table a t) (hothers : ∀ mem, a = .others mem →
      SameOn pageTableBase 0x3000 s.mem mem ∧ SameOn s.dataBackup 0x3000 s.mem mem) :
    Sound k { s with table := t } := by
  obtain ⟨hbuffer, htrampoline, hbackup⟩ : t.gdt.buffer = s.table.gdt.buffer ∧
      SameOn pageTableBase 0x3000 s.mem t.gdt.mem ∧ SameOn s.dataBackup 0x3000 s.mem t.gdt.mem := by
    by_cases ha : ∃ mem, a = .others mem
    · obtain ⟨mem, rfl⟩ := ha
      obtain ⟨-, rfl⟩ := hstep
      exact ⟨rfl, hothers mem rfl⟩
    · obtain ⟨hbuffer, hsame⟩ := Gdt.step_sameOff (Gdt.sound_of_reachable h.reachable) hstep
        fun mem he => ha ⟨mem, he⟩
      exact ⟨hbuffer, hsame.apart h.trampoline, hsame.apart h.dataBackup⟩
  have hpointer : t.gdt.getPointer = s.table.gdt.getPointer := by
    rw [Gdt.getPointer, Gdt.getPointer, hbuffer]
  refine ⟨h.reachable.next hstep, ?_, fun hs => (h.stacked hs).sameOn htrampoline,
    fun j hj => (hbackup j hj).trans (h.backup j hj), ?_, ?_, h.apart⟩
  · exact hpointer ▸ h.placed.sameOn htrampoline
  · exact hbuffer ▸ h.trampoline
  · exact hbuffer ▸ h.dataBackup

lemma sound_of_reachable (h : (system k).Reachable s) : Sound k s := by
  refine h.invariant (fun s hs => ?_) fun s a s' _ ih hstep => ?_
  · obtain ⟨t, heap, mem, ht, hnew, hs, htrampoline, hbackup, hapart⟩ := hs
    obtain ⟨hplaced, hsame⟩ := new_spec hnew
    rw [hs]
    refine ⟨ht.next (a := .others mem) ⟨?_, rfl⟩, hplaced, nofun, fun j hj => ?_, htrampoline,
      hbackup, hapart⟩
    · exact (memcpy_sameOff.apart (hbackup.symm (by decide))).trans
        (hsame.apart (htrampoline.symm (by decide)))
    · exact (hsame.apart hapart j hj).trans (memcpy_at hj (by decide))
  · cases a with
    | table a =>
      obtain ⟨hstep, hs', hothers⟩ := hstep
      exact hs' ▸ ih.table hstep hothers
    | resetStartupStack =>
      obtain rfl := hstep
      exact ih.setMem resetStartupStack_sameOff fun _ => resetStartupStack_stacked
    | callback mem =>
      obtain ⟨hsame, rfl⟩ := hstep
      exact ih.setMem hsame nofun

lemma longCode_marked (w : Word) (h : Gdt.Marked (ShortDescriptor.new true true).word w) :
    longCode w = true := by
  rcases h with rfl | rfl <;> decide

lemma readable_marked (w : Word) (h : Gdt.Marked (ShortDescriptor.new true false).word w) :
    readable w = true := by
  rcases h with rfl | rfl <;> decide

lemma has_segments {t : Gdt.Table} (h : Gdt.system.Reachable t) :
    Has t.gdt.mem t.gdt.getPointer 0x8 longCode ∧ Has t.gdt.mem t.gdt.getPointer 0x10 readable := by
  have hsound := Gdt.sound_of_reachable h
  have hzero : (0 : BitVec 16).toNat < 8 := by decide
  obtain ⟨w, hw, hcode⟩ :=
    hsound.found (k := 1) (v := (ShortDescriptor.new true true).word) rfl hzero
  obtain ⟨v, hv, hdata⟩ :=
    hsound.found (k := 2) (v := (ShortDescriptor.new true false).word) rfl hzero
  exact ⟨⟨w, hw, longCode_marked w hcode⟩, ⟨v, hv, readable_marked v hdata⟩⟩

lemma reachable_markAt (h : (system k).Reachable s) {addr : Word} {j : ℕ} (hj : 1 ≤ j ∧ j ≤ 4)
    (haddr : s.table.gdt.buffer + .ofNat 64 (8 * j) = addr) :
    (system k).Reachable (s.setMem (markAt s.mem addr) s.stacked) :=
  haddr ▸ h.next (a := .table (.load j)) ⟨⟨.inl hj, rfl⟩, rfl, nofun⟩

lemma reachable_iterate (n : ℕ) (h : (system k).Reachable s) : (system k).Reachable
    (s.setMem ((markAt · (s.table.gdt.getPointer.start + 0x10))^[n] s.mem) s.stacked) := by
  induction n generalizing s with
  | zero => exact h
  | succ n ih => exact ih (reachable_markAt h (j := 2) (by decide) rfl)

lemma reachable_loaded (h : (system k).Reachable s) :
    (system k).Reachable (s.setMem (loaded s.mem s.table.gdt.getPointer) s.stacked) := by
  have hcode : (system k).Reachable
      (s.setMem (markAt s.mem (s.table.gdt.getPointer.start + 0x8)) s.stacked) :=
    reachable_markAt h (j := 1) (by decide) rfl
  have hdata := reachable_iterate 4 hcode
  rwa [setMem_setMem, setMem_mem, setMem_getPointer, setMem_stacked] at hdata

/-- A trampoline over memory full of sevens, with the table at 1 MiB and the backup at 3 MiB. -/
def firstParts : Parts := ⟨0x7000, 0x8000, 0x200000, [0xea]⟩

lemma first_reachable : ∃ s, (system firstParts).Reachable s ∧ s.stacked = true ∧
    s.table.gdt.buffer = 0x100000 ∧ s.original (pageTableBase + .ofNat 64 0x2000) = 7 := by
  have hfirst : (Gdt.new (some 0x100000) fun _ => 7).toOption.map
      (fun g => (g.buffer, g.mem (pageTableBase + .ofNat 64 0x2000))) = some (0x100000, 7) := by
    decide
  obtain ⟨g, hg, hfields⟩ := exists_ok_of_map hfirst
  obtain ⟨hbuffer, hseven⟩ := Prod.mk.inj hfields
  have ht : Gdt.system.Reachable ⟨g, []⟩ := .start ⟨_, _, hg, rfl⟩
  have hbackup : Apart g.buffer 0x10000 0x300000 0x3000 := hbuffer ▸ by decide
  have hapart : Apart pageTableBase 0x3000 0x300000 0x3000 := by decide
  have hstart : (system firstParts).Reachable
      ((⟨⟨g, []⟩, 0x300000, g.mem, false⟩ : State).setMem _ false) :=
    .start ⟨⟨g, []⟩, some 0x300000, _, ht, rfl, rfl, hbuffer ▸ by decide, hbackup, hapart⟩
  exact ⟨_, hstart.next (a := .resetStartupStack) rfl, rfl, hbuffer, hseven⟩

/-- With the table in the first 16 MiB, every processor that starts after `ResetStartupStack` comes
to the callback, and leaves the trampoline ready for the next one. With the table anywhere it gets
there exactly when the 24 bits of the address that are loaded lead to the segments it needs. -/
theorem processors_start (h : (system k).Reachable s) (hs : s.stacked = true) (rdx : Word) :
    let ptr := Processor.cut s.table.gdt.getPointer
    (s.table.gdt.buffer.toNat < 2 ^ 24 → ∃ p, Processor.start k rdx s.mem = some p ∧
      Arrived k s.table.gdt.getPointer p ∧ (system k).Reachable (s.setMem p.mem s.stacked)) ∧
    (Apart (ptr.start + 0x8) 0x10 0x4ff0 0x10 → ((∃ p, Processor.start k rdx s.mem = some p) ↔
      Has s.mem ptr 0x8 longCode ∧ Has s.mem ptr 0x10 readable)) := by
  have hsound := sound_of_reachable h
  have hstart := fun hapart =>
    Processor.start_some_iff hsound.placed (hsound.stacked hs) hapart rdx
  refine ⟨fun hlow => ?_, fun hapart => (hstart hapart).1⟩
  have hcut : Processor.cut s.table.gdt.getPointer = s.table.gdt.getPointer := by
    rw [Processor.cut, show s.table.gdt.getPointer.start = s.table.gdt.buffer from rfl,
      Nat.mod_eq_of_lt hlow, BitVec.ofNat_toNat, BitVec.setWidth_eq]
    rfl
  rw [hcut] at hstart
  have hwords : Apart (s.table.gdt.buffer + .ofNat 64 8) 0x10 pageTableBase 0x3000 :=
    ((hsound.trampoline.symm (by decide)).piece (by decide) (by decide)).symm (by decide)
  obtain ⟨hiff, harrived⟩ := hstart (hwords.piece (j := 0x1ff0) (by decide) (by decide))
  obtain ⟨p, hp⟩ := hiff.mpr (has_segments hsound.reachable)
  obtain ⟨harrived, hmem⟩ := harrived p hp
  exact ⟨p, hp, harrived, hmem ▸ reachable_loaded h⟩

theorem processors_start_first : ∃ s p, (system firstParts).Reachable s ∧
    Processor.start firstParts 0x306c3 s.mem = some p ∧ p.rip = 0x200000 := by
  obtain ⟨s, hs, hstacked, hbuffer, -⟩ := first_reachable
  obtain ⟨p, hstart, harrived, -⟩ := (processors_start hs hstacked 0x306c3).1 (by
    rw [hbuffer]
    decide)
  exact ⟨s, p, hs, hstart, harrived.rip⟩

/-- The destructor puts back what was in the memory of the trampoline. -/
theorem memory_restored (h : (system k).Reachable s) :
    SameOn pageTableBase 0x3000 s.original (delete s.dataBackup s.mem) := fun j hj => by
  rw [delete, memcpy_at hj (by decide), (sound_of_reachable h).backup j hj]

theorem memory_restored_first : ∃ s, (system firstParts).Reachable s ∧
    delete s.dataBackup s.mem (pageTableBase + .ofNat 64 0x2000) = 7 := by
  obtain ⟨s, hs, -, -, hseven⟩ := first_reachable
  exact ⟨s, hs, (memory_restored hs 0x2000 (by decide)).trans hseven⟩

end

end Anarch.StartupCode
