import Anarch.ByteStore

/-! A part of the x86-64 processor: the integer registers, a byte memory, the segment state that
system calls and interrupts change, straight pieces of code, and the calling convention. -/
namespace Anarch.X86
open ByteMemory

inductive Reg
  | rax | rcx | rdx | rbx | rsp | rbp | rsi | rdi
  | r8 | r9 | r10 | r11 | r12 | r13 | r14 | r15
  deriving DecidableEq, Repr

/-- What is left of the state beside registers, flags and memory. -/
structure System where
  cs : BitVec 16
  ss : BitVec 16
  gsBase : Word
  kernelGsBase : Word
  cr3 : Word
  star : Word
  lstar : Word
  sfMask : Word

structure Machine extends System where
  reg : Reg → Word
  rip : Word
  rflags : Word
  mem : ByteMemory

/-- Why code does not get to its end: an exception of its own, or a function that it calls. -/
inductive Trap (ε : Type)
  | generalProtection
  | invalidOpcode
  | callee (e : ε)
  deriving DecidableEq, Repr

abbrev Result (ε : Type) := Except (Trap ε) Machine

/-- A function at an address: from its entry, the return address on the stack, to its `ret`. -/
abbrev Functions (ε : Type) := Word → Machine → Result ε

/-- Operands are registers, immediate words, and memory at a base and a displacement; a call
names the address that it returns to. -/
inductive Instr
  | push (src : Reg)
  | pop (dst : Reg)
  | mov (dst src : Reg)
  | movImm (dst : Reg) (imm : Word)
  | load (dst base : Reg) (disp : Word)
  | store (base : Reg) (disp : Word) (src : Reg)
  | loadGs (dst : Reg) (disp : Word)
  | lea (dst base : Reg) (disp : Word)
  | add (dst : Reg) (imm : Word)
  | sub (dst : Reg) (imm : Word)
  | xchg (dst base : Reg)
  | pushfq
  | loadCr3 (src : Reg)
  | swapgs
  | repMovsq
  | call (target next : Word)
  | ret
  | iretq
  | sysret
  deriving DecidableEq, Repr

/-- Bits 47 and up are all the same. -/
def canonical (addr : Word) : Bool := (addr.setWidth 48).signExtend 64 = addr

/-- The privilege level of a code segment. -/
def cpl (cs : BitVec 16) : BitVec 2 := cs.setWidth 2

def flag (bit : ℕ) (value : Bool) : Word := if value then 1 <<< bit else 0

/-- CF, PF, AF, ZF, SF and OF. -/
def statusFlags : Word := 0x8d5

def evenParity (byte : BitVec 8) : Bool :=
  ((List.range 8).filter byte.getLsbD).length % 2 = 0

/-- The status flags after an addition or subtraction of `a` and `b`. -/
def status (a b result : Word) (carry overflow : Bool) : Word :=
  flag 0 carry ||| flag 2 (evenParity (result.setWidth 8)) |||
    flag 4 ((a ^^^ b ^^^ result).getLsbD 4) ||| flag 6 (result = 0) |||
    flag 7 result.msb ||| flag 11 overflow

namespace Machine

def setReg (m : Machine) (r : Reg) (v : Word) : Machine :=
  { m with reg := Function.update m.reg r v }

def setMem (m : Machine) (mem : ByteMemory) : Machine := { m with mem }

def setRip (m : Machine) (rip : Word) : Machine := { m with rip }

def setStatus (m : Machine) (flags : Word) : Machine :=
  { m with rflags := m.rflags &&& ~~~statusFlags ||| flags }

def pushWord (m : Machine) (v : Word) : Machine :=
  let sp := m.reg .rsp - 8
  (m.setMem (store64 m.mem sp v)).setReg .rsp sp

/-- IF. -/
def interruptFlag (m : Machine) : Bool := m.rflags.getLsbD 9

/-- DF. -/
def directionFlag (m : Machine) : Bool := m.rflags.getLsbD 10

def top (m : Machine) : Word := load64 m.mem (m.reg .rsp)

def dropWord (m : Machine) : Machine := m.setReg .rsp (m.reg .rsp + 8)

def swapGs (m : Machine) : Machine :=
  { m with gsBase := m.kernelGsBase, kernelGsBase := m.gsBase }

/-- One word of `rep movsq`; the direction flag tells which way it goes. -/
def movsq (m : Machine) : Machine :=
  let step : Word := if m.directionFlag then -8 else 8
  let m := m.setMem (store64 m.mem (m.reg .rdi) (load64 m.mem (m.reg .rsi)))
  ((m.setReg .rsi (m.reg .rsi + step)).setReg .rdi (m.reg .rdi + step)).setReg .rcx
    (m.reg .rcx - 1)

def addImm (m : Machine) (dst : Reg) (imm : Word) : Machine :=
  let a := m.reg dst
  let result := a + imm
  (m.setReg dst result).setStatus
    (status a imm result (result < a) (a.msb = imm.msb && result.msb ≠ a.msb))

def subImm (m : Machine) (dst : Reg) (imm : Word) : Machine :=
  let a := m.reg dst
  let result := a - imm
  (m.setReg dst result).setStatus
    (status a imm result (a < imm) (a.msb ≠ imm.msb && result.msb ≠ a.msb))

/-- The five words of an interrupt frame, from the top of the stack on. -/
def frame (m : Machine) : List Word :=
  [m.rip, m.cs.setWidth 64, m.rflags, m.reg .rsp, m.ss.setWidth 64]

section
variable {ε : Type}

def ret (m : Machine) : Result ε := .ok (m.dropWord.setRip m.top)

/-- `iretq`: the interrupt frame on the stack is loaded. -/
def iretq (m : Machine) : Result ε :=
  let sp := m.reg .rsp
  let word (k : ℕ) := load64 m.mem (sp + .ofNat 64 (8 * k))
  if canonical (word 0) then
    .ok { m with
      rip := word 0
      cs := (word 1).setWidth 16
      rflags := word 2
      reg := Function.update m.reg .rsp (word 3)
      ss := (word 4).setWidth 16 }
  else .error .generalProtection

/-- `sysret` to 64-bit code: a return address that is not canonical faults in the kernel. -/
def sysret (m : Machine) : Result ε :=
  let selector := (m.star >>> 48).setWidth 16
  if canonical (m.reg .rcx) then
    .ok { m with
      rip := m.reg .rcx
      rflags := m.reg .r11 &&& 0x3c7fd7 ||| 2
      cs := selector + 16 ||| 3
      ss := selector + 8 ||| 3 }
  else .error .generalProtection

end

/-- `syscall`; `rip` is the address of the instruction behind it. -/
def syscall (m : Machine) : Machine :=
  let selector := (m.star >>> 32).setWidth 16
  { m with
    reg := Function.update (Function.update m.reg .rcx m.rip) .r11 m.rflags
    rip := m.lstar
    rflags := m.rflags &&& ~~~m.sfMask
    cs := selector &&& 0xfffc
    ss := selector + 8 }

end Machine

/-- An instruction. `rip` is left alone by the ones that go on to the next. -/
def Instr.exec {ε : Type} (fn : Functions ε) (m : Machine) : Instr → Result ε
  | .push src => .ok (m.pushWord (m.reg src))
  | .pop dst => .ok (m.dropWord.setReg dst m.top)
  | .mov dst src => .ok (m.setReg dst (m.reg src))
  | .movImm dst imm => .ok (m.setReg dst imm)
  | .load dst base disp => .ok (m.setReg dst (load64 m.mem (m.reg base + disp)))
  | .store base disp src => .ok (m.setMem (store64 m.mem (m.reg base + disp) (m.reg src)))
  | .loadGs dst disp => .ok (m.setReg dst (load64 m.mem (m.gsBase + disp)))
  | .lea dst base disp => .ok (m.setReg dst (m.reg base + disp))
  | .add dst imm => .ok (m.addImm dst imm)
  | .sub dst imm => .ok (m.subImm dst imm)
  | .xchg dst base =>
      .ok ((m.setMem (store64 m.mem (m.reg base) (m.reg dst))).setReg dst
        (load64 m.mem (m.reg base)))
  | .pushfq => .ok (m.pushWord m.rflags)
  | .loadCr3 src => .ok { m with cr3 := m.reg src }
  | .swapgs => .ok m.swapGs
  | .repMovsq => .ok (Machine.movsq^[(m.reg .rcx).toNat] m)
  | .call target next => (fn target (m.pushWord next)).bind Machine.ret
  | .ret => m.ret
  | .iretq => m.iretq
  | .sysret => m.sysret

def run {ε : Type} (fn : Functions ε) : List Instr → Machine → Result ε
  | [], m => .ok m
  | i :: code, m => (i.exec fn m).bind (run fn code)

/-- What a gate of the interrupt table says. -/
structure Gate where
  offset : Word
  selector : BitVec 16
  ist : BitVec 3
  flags : BitVec 8
  deriving DecidableEq, Repr

/-- The stacks of a task state segment. -/
structure Stacks where
  rsp0 : Word
  ist : BitVec 3 → Word

/-- The flags that an interrupt clears: TF, NT, RF and VM, and IF at an interrupt gate. -/
def Gate.cleared (gate : Gate) : Word :=
  0x34100 ||| flag 9 (gate.flags.setWidth 4 = (0xe : BitVec 4))

/-- The stack that an interrupt is taken on. -/
def entryStack (tss : Stacks) (gate : Gate) (m : Machine) : Word :=
  (if gate.ist ≠ 0 then tss.ist gate.ist
    else if cpl m.cs ≠ 0 then tss.rsp0
    else m.reg .rsp) &&& ~~~0xf

def pushWords (m : Machine) (words : List Word) : Machine := words.foldl Machine.pushWord m

/-- An interrupt or exception through a gate, with the error code that some exceptions have. -/
def deliver (tss : Stacks) (gate : Gate) (code : Option Word) (m : Machine) : Machine :=
  let pushed := pushWords (m.setReg .rsp (entryStack tss gate m))
    (m.frame.reverse ++ code.toList)
  { pushed with
    rip := gate.offset
    rflags := m.rflags &&& ~~~gate.cleared
    cs := gate.selector
    ss := if cpl m.cs ≠ 0 then 0 else m.ss }

/-- The registers that a function gives back as it got them. -/
def calleeSaved : List Reg := [.rbx, .rbp, .rsp, .r12, .r13, .r14, .r15]

/-- The calling convention, from the entry of a function to its `ret`: it gives back these
registers, the system state, and the words on the stack from its return address on. -/
structure Conforms (size : ℕ) (m m' : Machine) : Prop where
  saved : ∀ r ∈ calleeSaved, m'.reg r = m.reg r
  stack : SameOn (m.reg .rsp) (8 * size) m.mem m'.mem
  system : m'.toSystem = m.toSystem

/-- The registers are loaded from the stack, one after the other. -/
def popRegs (m : Machine) (regs : List Reg) : Machine :=
  regs.foldl (fun m r => m.dropWord.setReg r m.top) m

section
variable {m m' m'' : Machine} {r r' : Reg} {v : Word} {mem : ByteMemory}

lemma Machine.ext (hsystem : m.toSystem = m'.toSystem) (hreg : ∀ r, m.reg r = m'.reg r)
    (hrip : m.rip = m'.rip) (hrflags : m.rflags = m'.rflags) (hmem : m.mem = m'.mem) :
    m = m' := by
  cases m
  cases m'
  cases hsystem
  cases funext hreg
  cases hrip
  cases hrflags
  cases hmem
  rfl

@[simp] lemma setReg_reg : (m.setReg r v).reg r' = if r' = r then v else m.reg r' :=
  Function.update_apply ..

@[simp] lemma setReg_mem : (m.setReg r v).mem = m.mem := rfl
@[simp] lemma setReg_rip : (m.setReg r v).rip = m.rip := rfl
@[simp] lemma setReg_rflags : (m.setReg r v).rflags = m.rflags := rfl
@[simp] lemma setReg_toSystem : (m.setReg r v).toSystem = m.toSystem := rfl

@[simp] lemma setMem_reg : (m.setMem mem).reg = m.reg := rfl
@[simp] lemma setMem_mem : (m.setMem mem).mem = mem := rfl
@[simp] lemma setMem_rip : (m.setMem mem).rip = m.rip := rfl
@[simp] lemma setMem_rflags : (m.setMem mem).rflags = m.rflags := rfl
@[simp] lemma setMem_toSystem : (m.setMem mem).toSystem = m.toSystem := rfl

@[simp] lemma setRip_reg : (m.setRip v).reg = m.reg := rfl
@[simp] lemma setRip_mem : (m.setRip v).mem = m.mem := rfl
@[simp] lemma setRip_rip : (m.setRip v).rip = v := rfl
@[simp] lemma setRip_rflags : (m.setRip v).rflags = m.rflags := rfl
@[simp] lemma setRip_toSystem : (m.setRip v).toSystem = m.toSystem := rfl

@[simp] lemma setStatus_reg : (m.setStatus v).reg = m.reg := rfl
@[simp] lemma setStatus_mem : (m.setStatus v).mem = m.mem := rfl
@[simp] lemma setStatus_rip : (m.setStatus v).rip = m.rip := rfl
@[simp] lemma setStatus_toSystem : (m.setStatus v).toSystem = m.toSystem := rfl

@[simp] lemma pushWord_rsp : (m.pushWord v).reg .rsp = m.reg .rsp - 8 := by
  simp [Machine.pushWord]

lemma pushWord_reg (h : r ≠ .rsp) : (m.pushWord v).reg r = m.reg r := by
  simp [Machine.pushWord, h]

@[simp] lemma pushWord_mem : (m.pushWord v).mem = store64 m.mem (m.reg .rsp - 8) v := rfl
@[simp] lemma pushWord_rip : (m.pushWord v).rip = m.rip := rfl
@[simp] lemma pushWord_rflags : (m.pushWord v).rflags = m.rflags := rfl
@[simp] lemma pushWord_toSystem : (m.pushWord v).toSystem = m.toSystem := rfl

@[simp] lemma dropWord_rsp : m.dropWord.reg .rsp = m.reg .rsp + 8 := by simp [Machine.dropWord]

lemma dropWord_reg (h : r ≠ .rsp) : m.dropWord.reg r = m.reg r := by simp [Machine.dropWord, h]

@[simp] lemma dropWord_mem : m.dropWord.mem = m.mem := rfl
@[simp] lemma dropWord_rip : m.dropWord.rip = m.rip := rfl
@[simp] lemma dropWord_rflags : m.dropWord.rflags = m.rflags := rfl
@[simp] lemma dropWord_toSystem : m.dropWord.toSystem = m.toSystem := rfl

@[simp] lemma setReg_interruptFlag : (m.setReg r v).interruptFlag = m.interruptFlag := rfl
@[simp] lemma setMem_interruptFlag : (m.setMem mem).interruptFlag = m.interruptFlag := rfl
@[simp] lemma setRip_interruptFlag : (m.setRip v).interruptFlag = m.interruptFlag := rfl
@[simp] lemma pushWord_interruptFlag : (m.pushWord v).interruptFlag = m.interruptFlag := rfl

lemma setStatus_directionFlag {a b result : Word} {carry overflow : Bool} :
    (m.setStatus (status a b result carry overflow)).directionFlag = m.directionFlag := by
  have hflag : ∀ k ∈ [0, 2, 4, 6, 7, 11], ∀ p, (flag k p)[10] = false := by decide
  simp [Machine.directionFlag, Machine.setStatus, status, hflag, statusFlags]

@[simp] lemma swapGs_reg : m.swapGs.reg = m.reg := rfl
@[simp] lemma swapGs_mem : m.swapGs.mem = m.mem := rfl
@[simp] lemma swapGs_rip : m.swapGs.rip = m.rip := rfl
@[simp] lemma swapGs_rflags : m.swapGs.rflags = m.rflags := rfl

@[simp] lemma syscall_mem : m.syscall.mem = m.mem := rfl
@[simp] lemma syscall_rcx : m.syscall.reg .rcx = m.rip := rfl

lemma syscall_reg (hrcx : r ≠ .rcx) (hr11 : r ≠ .r11) : m.syscall.reg r = m.reg r := by
  simp [Machine.syscall, hrcx, hr11]

@[simp] lemma swapGs_swapGs : m.swapGs.swapGs = m := rfl

lemma toSystem_swapGs (h : m'.toSystem = m.swapGs.toSystem) :
    m'.swapGs.toSystem = m.toSystem := by
  have hgs : m'.gsBase = m.kernelGsBase := congrArg System.gsBase h
  have hkernel : m'.kernelGsBase = m.gsBase := congrArg System.kernelGsBase h
  calc m'.swapGs.toSystem
      = { m'.toSystem with gsBase := m'.kernelGsBase, kernelGsBase := m'.gsBase } := rfl
    _ = m.toSystem := by rw [hgs, hkernel, h]; rfl

lemma Conforms.trans {size : ℕ} (h : Conforms size m m') (h' : Conforms size m' m'') :
    Conforms size m m'' where
  saved r hr := (h'.saved r hr).trans (h.saved r hr)
  stack := h.stack.trans (h.saved .rsp (by decide) ▸ h'.stack)
  system := h'.system.trans h.system

lemma Conforms.refl {size : ℕ} : Conforms size m m := ⟨fun _ _ => rfl, fun _ _ => rfl, rfl⟩

lemma Conforms.setReg {size : ℕ} (h : Conforms size m m') (hr : r ∉ calleeSaved) :
    Conforms size m (m'.setReg r v) where
  saved r' hr' := by
    have hne : r' ≠ r := fun he => hr (he ▸ hr')
    simp [hne, h.saved r' hr']
  stack := h.stack
  system := h.system

lemma Conforms.rsp {size : ℕ} (h : Conforms size m m') : m'.reg .rsp = m.reg .rsp :=
  h.saved .rsp (by decide)

end

section
variable {ε : Type} {fn : Functions ε} {m : Machine} {code code' : List Instr}
variable {regs : List Reg} {words vs : List Word} {r : Reg}

@[simp] lemma run_nil : run fn [] m = .ok m := rfl

@[simp] lemma run_cons {i : Instr} : run fn (i :: code) m = (i.exec fn m).bind (run fn code) := rfl

lemma run_append : run fn (code ++ code') m = (run fn code m).bind (run fn code') := by
  induction code generalizing m with
  | nil => rfl
  | cons i code ih =>
    simp only [List.cons_append, run_cons]
    cases i.exec fn m with
    | error e => rfl
    | ok m => exact ih

@[simp] lemma pushWords_nil : pushWords m [] = m := rfl

@[simp] lemma pushWords_cons {v : Word} :
    pushWords m (v :: words) = pushWords (m.pushWord v) words := rfl

@[simp] lemma pushWords_rip : (pushWords m words).rip = m.rip := by
  induction words generalizing m with
  | nil => rfl
  | cons v words ih => simp [ih]

@[simp] lemma pushWords_rflags : (pushWords m words).rflags = m.rflags := by
  induction words generalizing m with
  | nil => rfl
  | cons v words ih => simp [ih]

@[simp] lemma pushWords_interruptFlag :
    (pushWords m words).interruptFlag = m.interruptFlag := by
  rw [Machine.interruptFlag, pushWords_rflags, Machine.interruptFlag]

@[simp] lemma pushWords_toSystem : (pushWords m words).toSystem = m.toSystem := by
  induction words generalizing m with
  | nil => rfl
  | cons v words ih => simp [ih]

lemma pushWords_reg (h : r ≠ .rsp) : (pushWords m words).reg r = m.reg r := by
  induction words generalizing m with
  | nil => rfl
  | cons v words ih => simp [ih, pushWord_reg h]

lemma words_pushWords (words : List Word) (h : Words m.mem (m.reg .rsp) vs)
    (hfit : 8 * (words.length + vs.length) ≤ 2 ^ 64) :
    Words (pushWords m words).mem ((pushWords m words).reg .rsp) (words.reverse ++ vs) := by
  induction words generalizing m vs with
  | nil => exact h
  | cons v words ih =>
    simp only [List.length_cons] at hfit
    have hnext : Words (m.pushWord v).mem ((m.pushWord v).reg .rsp) (v :: vs) := by
      simpa using h.push (v := v) (by omega)
    simpa using ih hnext (by simp only [List.length_cons]; omega)

lemma pushWords_sameOff (words : List Word) (hfit : 8 * words.length ≤ 2 ^ 64) :
    SameOff (m.reg .rsp - .ofNat 64 (8 * words.length)) (8 * words.length) m.mem
      (pushWords m words).mem := by
  induction words generalizing m with
  | nil => exact .refl
  | cons v words ih =>
    simp only [List.length_cons, Nat.mul_succ] at hfit ⊢
    have hbase : m.reg .rsp - .ofNat 64 (8 * words.length + 8) =
        m.reg .rsp - 8 - .ofNat 64 (8 * words.length) := by
      rw [ofNat_add_eight, sub_sub, add_comm]
    rw [hbase]
    have hrest := ih (m := m.pushWord v) (by omega)
    rw [pushWord_rsp] at hrest
    have htop : m.reg .rsp - 8 = m.reg .rsp - 8 - .ofNat 64 (8 * words.length) +
        .ofNat 64 (8 * words.length) := (sub_add_cancel ..).symm
    have hfirst : SameOff (m.reg .rsp - 8 - .ofNat 64 (8 * words.length)) (8 * words.length + 8) m.mem
        (store64 m.mem (m.reg .rsp - 8 - .ofNat 64 (8 * words.length) +
          .ofNat 64 (8 * words.length)) v) := store64_sameOff_range le_rfl hfit
    rw [← htop] at hfirst
    exact fun a ha => (hrest a (by omega)).trans (hfirst a ha)

lemma run_pushes (h : .rsp ∉ regs) :
    run fn (regs.map .push) m = .ok (pushWords m (regs.map m.reg)) := by
  induction regs generalizing m with
  | nil => rfl
  | cons r regs ih =>
    obtain ⟨-, hregs⟩ := not_or.mp (List.mem_cons.not.mp h)
    have hsame : regs.map (m.pushWord (m.reg r)).reg = regs.map m.reg :=
      List.map_congr_left fun r' hr' => pushWord_reg fun he => hregs (he ▸ hr')
    calc run fn ((r :: regs).map .push) m
        = run fn (regs.map .push) (m.pushWord (m.reg r)) := rfl
      _ = .ok (pushWords (m.pushWord (m.reg r)) (regs.map m.reg)) := hsame ▸ ih hregs

lemma run_pops : run fn (regs.map .pop) m = .ok (popRegs m regs) := by
  induction regs generalizing m with
  | nil => rfl
  | cons r regs ih => exact ih

@[simp] lemma popRegs_cons {regs : List Reg} :
    popRegs m (r :: regs) = popRegs (m.dropWord.setReg r m.top) regs := rfl

@[simp] lemma popRegs_mem : (popRegs m regs).mem = m.mem := by
  induction regs generalizing m with
  | nil => rfl
  | cons r regs ih => simp [ih]

@[simp] lemma popRegs_rip : (popRegs m regs).rip = m.rip := by
  induction regs generalizing m with
  | nil => rfl
  | cons r regs ih => simp [ih]

@[simp] lemma popRegs_rflags : (popRegs m regs).rflags = m.rflags := by
  induction regs generalizing m with
  | nil => rfl
  | cons r regs ih => simp [ih]

@[simp] lemma popRegs_toSystem : (popRegs m regs).toSystem = m.toSystem := by
  induction regs generalizing m with
  | nil => rfl
  | cons r regs ih => simp [ih]

lemma popRegs_rsp (h : .rsp ∉ regs) :
    (popRegs m regs).reg .rsp = m.reg .rsp + .ofNat 64 (8 * regs.length) := by
  induction regs generalizing m with
  | nil => simp [popRegs]
  | cons r regs ih =>
    obtain ⟨hr, hregs⟩ := not_or.mp (List.mem_cons.not.mp h)
    rw [popRegs_cons, ih hregs, List.length_cons, Nat.mul_succ, ofNat_add_eight, setReg_reg,
      if_neg hr, dropWord_rsp, add_assoc, add_comm 8]

lemma popRegs_reg {f : Reg → Word} (h : Words m.mem (m.reg .rsp) (regs.map f ++ vs))
    (hsp : .rsp ∉ regs) (hr : r ≠ .rsp) :
    (popRegs m regs).reg r = if r ∈ regs then f r else m.reg r := by
  induction regs generalizing m with
  | nil => rfl
  | cons r' regs ih =>
    obtain ⟨hr', hregs⟩ := not_or.mp (List.mem_cons.not.mp hsp)
    have hnext : (m.dropWord.setReg r' m.top).reg .rsp = m.reg .rsp + 8 := by simp [hr']
    rw [popRegs_cons, ih (by rw [hnext]; exact h.2) hregs]
    by_cases hmem : r ∈ regs
    · simp [hmem]
    · by_cases he : r = r'
      · simp [he, Machine.top, h.1]
      · simp [he, hmem, dropWord_reg hr]

lemma iretq_words {rip cs rflags rsp ss : Word}
    (h : Words m.mem (m.reg .rsp) ([rip, cs, rflags, rsp, ss] ++ vs))
    (hrip : canonical rip = true) : (m.iretq : Result ε) = .ok { m with
      rip
      cs := cs.setWidth 16
      rflags
      reg := Function.update m.reg .rsp rsp
      ss := ss.setWidth 16 } := by
  have h0 := h.append.1.get (k := 0) rfl
  have h1 := h.append.1.get (k := 1) rfl
  have h2 := h.append.1.get (k := 2) rfl
  have h3 := h.append.1.get (k := 3) rfl
  have h4 := h.append.1.get (k := 4) rfl
  simp only [Machine.iretq, h0, h1, h2, h3, h4, hrip, if_true]

lemma iretq_frame {m₀ : Machine} (h : Words m.mem (m.reg .rsp) (m₀.frame ++ vs))
    (hrip : canonical m₀.rip = true) : (m.iretq : Result ε) = .ok { m with
      rip := m₀.rip
      cs := m₀.cs
      rflags := m₀.rflags
      reg := Function.update m.reg .rsp (m₀.reg .rsp)
      ss := m₀.ss } := by
  simpa using iretq_words h hrip

lemma run_mov {dst src : Reg} :
    run fn (.mov dst src :: code) m = run fn code (m.setReg dst (m.reg src)) := rfl

lemma run_movImm {dst : Reg} {imm : Word} :
    run fn (.movImm dst imm :: code) m = run fn code (m.setReg dst imm) := rfl

lemma run_sub {dst : Reg} {imm : Word} :
    run fn (.sub dst imm :: code) m = run fn code (m.subImm dst imm) := rfl

lemma run_store {base src : Reg} {disp : Word} : run fn (.store base disp src :: code) m =
    run fn code (m.setMem (store64 m.mem (m.reg base + disp) (m.reg src))) := rfl

lemma run_pushfq_pop {dst : Reg} (h : dst ≠ .rsp) : run fn (.pushfq :: .pop dst :: code) m =
    run fn code ((m.setMem (store64 m.mem (m.reg .rsp - 8) m.rflags)).setReg dst m.rflags) := by
  have hsame : (m.pushWord m.rflags).dropWord.setReg dst (m.pushWord m.rflags).top =
      (m.setMem (store64 m.mem (m.reg .rsp - 8) m.rflags)).setReg dst m.rflags := by
    refine Machine.ext rfl (fun r => ?_) rfl rfl rfl
    by_cases hr : r = .rsp
    · simp [hr, h.symm]
    · simp [Machine.top, dropWord_reg hr, pushWord_reg hr]
  rw [← hsame]
  rfl

lemma run_call {target next : Word} :
    run fn [.call target next] m = (fn target (m.pushWord next)).bind Machine.ret := by
  rw [run_cons, Instr.exec]
  cases (fn target (m.pushWord next)).bind Machine.ret <;> rfl

lemma run_iretq : run fn [.iretq] m = m.iretq := by
  rw [run_cons, Instr.exec]
  cases m.iretq <;> rfl

lemma run_repMovsq : run fn (.repMovsq :: code) m =
    run fn code (Machine.movsq^[(m.reg .rcx).toNat] m) := rfl

lemma movsq_words (hdf : m.directionFlag = false) (h : Words m.mem (m.reg .rsi) vs)
    (hbehind : 8 * vs.length ≤ (m.reg .rsi - m.reg .rdi).toNat)
    (hbefore : (m.reg .rsi - m.reg .rdi).toNat + 8 * vs.length ≤ 2 ^ 64) :
    ∃ mem, Machine.movsq^[vs.length] m =
        ((((m.setMem mem).setReg .rsi (m.reg .rsi + .ofNat 64 (8 * vs.length))).setReg .rdi
          (m.reg .rdi + .ofNat 64 (8 * vs.length))).setReg .rcx
            (m.reg .rcx - .ofNat 64 vs.length)) ∧
      Words mem (m.reg .rdi) vs ∧ SameOff (m.reg .rdi) (8 * vs.length) m.mem mem := by
  induction vs generalizing m with
  | nil =>
    refine ⟨m.mem, Machine.ext rfl (fun r => ?_) rfl rfl rfl, trivial, .refl⟩
    simp only [setReg_reg]
    split_ifs <;> simp_all
  | cons v vs ih =>
    simp only [List.length_cons, Nat.mul_succ] at hbehind hbefore ⊢
    have hstep : m.movsq = (((m.setMem (store64 m.mem (m.reg .rdi) v)).setReg .rsi
        (m.reg .rsi + 8)).setReg .rdi (m.reg .rdi + 8)).setReg .rcx (m.reg .rcx - 1) := by
      simp [Machine.movsq, hdf, h.1]
    set m₁ := m.movsq with hm₁
    have hmem : m₁.mem = store64 m.mem (m.reg .rdi) v := by simp [hstep]
    have hrsi : m₁.reg .rsi = m.reg .rsi + 8 := by simp [hstep]
    have hrdi : m₁.reg .rdi = m.reg .rdi + 8 := by simp [hstep]
    have hrcx : m₁.reg .rcx = m.reg .rcx - 1 := by simp [hstep]
    have hdist : m₁.reg .rsi - m₁.reg .rdi = m.reg .rsi - m.reg .rdi := by
      rw [hrsi, hrdi, add_sub_add_right_eq_sub]
    have hrest : Words m₁.mem (m₁.reg .rsi) vs := by
      have hsub : m.reg .rdi - (m.reg .rsi + 8) = 0 - (m.reg .rsi - m.reg .rdi) - 8 := by abel
      have hlt := (m.reg .rsi - m.reg .rdi).isLt
      rw [hrsi, hmem]
      refine h.2.sameOn (store64_sameOn ?_ ?_)
      all_goals
        rw [hsub, BitVec.toNat_sub, BitVec.toNat_sub, show (8 : Word).toNat = 8 from rfl,
          show (0 : Word).toNat = 0 from rfl]
        omega
    obtain ⟨mem, hrun, hwords, hoff⟩ := ih (m := m₁) (by rw [hstep]; exact hdf) hrest
      (by rw [hdist]; omega) (by rw [hdist]; omega)
    have hfirst : SameOff (m.reg .rdi) (8 * vs.length + 8) m.mem m₁.mem := by
      simpa [hmem] using store64_sameOff_range (v := v) (k := 0)
        (n := 8 * vs.length + 8) (by omega) (by omega)
    refine ⟨mem, ?_, ⟨?_, hrdi ▸ hwords⟩, fun a ha => ?_⟩
    · rw [Function.iterate_succ_apply, ← hm₁, hrun, hrsi, hrdi, hrcx]
      refine Machine.ext (by simp [hstep]) (fun r => ?_) (by simp [hstep]) (by simp [hstep])
        (by simp)
      have hone : BitVec.ofNat 64 (vs.length + 1) = .ofNat 64 vs.length + 1 :=
        BitVec.ofNat_add _ 1
      simp only [setReg_reg, setMem_reg, hstep, hone, ofNat_add_eight]
      split_ifs <;> first | rfl | abel
    · have hhead : SameOn (m.reg .rdi) 8 m₁.mem mem := by
        have hback : m.reg .rdi - m₁.reg .rdi = -8 := by rw [hrdi]; abel
        refine hoff.sameOn ?_ ?_
        all_goals
          rw [hback, show (-8 : Word).toNat = 2 ^ 64 - 8 from rfl]
          omega
      rw [load64_sameOn hhead, hmem, load64_store64]
    · refine (hoff a ?_).trans (hfirst a ha)
      have hback : a - m₁.reg .rdi = a - m.reg .rdi - 8 := by rw [hrdi, sub_sub]
      have hlt := (a - m.reg .rdi).isLt
      rw [hback, BitVec.toNat_sub, show (8 : Word).toNat = 8 from rfl]
      omega

end

end Anarch.X86
