import Anarch.InterruptEntry

/-! The states of tasks: how one is resumed, and how kernel code suspends its own. -/
namespace Anarch.StateSwitch
open ByteMemory X86

structure IsrStack where
  rip : Word
  cs : Word
  rflags : Word
  rsp : Word
  ss : Word
  deriving DecidableEq, Repr

def IsrStack.words (s : IsrStack) : List Word := [s.rip, s.cs, s.rflags, s.rsp, s.ss]

/-- The addresses of a `Cpu`: its task segment, its local data, and the top of its own stack. -/
structure CpuData where
  taskSegment : Word
  localData : Word
  stackTop : Word

/-- `Cpu::SetAsyncKernelTop`. -/
def CpuData.setAsyncKernelTop (cpu : CpuData) (stack : Word) (mem : ByteMemory) : ByteMemory :=
  store64 (store64 mem (cpu.taskSegment + 0x4) stack) (cpu.localData + 0x8) stack

structure State where
  rdi : Word
  iretInfo : IsrStack
  stackStart : Word
  deriving DecidableEq, Repr

namespace State

def stackSize : Word := 0x4000

/-- The constructor with the stack that it got; it does not set the `rsp` of user code. -/
def new (rip rdi : Word) (kernel : Bool) (stackStart rsp : Word) : State where
  rdi := rdi
  stackStart := stackStart
  iretInfo :=
    if kernel then ⟨rip, 8, 0x200, stackStart + stackSize, 0⟩ else ⟨rip, 0x23, 0x200, rsp, 0x1b⟩

def getStackTop (s : State) : Word := s.stackStart + stackSize

/-- The assembly of `Resume`. -/
def resumeCode : List Instr :=
  [.sub .rsp 0x28, .movImm .rcx 5, .mov .rdi .rsp, .repMovsq, .mov .rdi .rdx, .iretq]

/-- The assembly of `SuspendAndCall`, with `&iretInfo` in a register. -/
def suspendCode (info : Reg) (func label : Word) : List Instr :=
  [.movImm .rax label, .store info 0 .rax, .pushfq, .pop .rax, .store info 0x10 .rax,
    .store info 0x18 .rsp, .mov .rsp .rcx, .call func label]

variable {ε : Type}

/-- The `swapgs` on the way to user code. -/
def swapGs (s : State) (m : Machine) : Machine := if s.iretInfo.cs &&& 3 ≠ 0 then m.swapGs else m

/-- `info` is the address of `iretInfo`. -/
def resume (fn : Functions ε) (assertFailed : ε) (s : State) (cpu : CpuData) (info : Word)
    (m : Machine) : Result ε :=
  if m.interruptFlag then .error (.callee assertFailed)
  else
    let m := m.setMem (cpu.setAsyncKernelTop s.getStackTop m.mem)
    let m := s.swapGs m
    run fn resumeCode ((m.setReg .rsi info).setReg .rdx s.rdi)

/-- What both forms of `SuspendAndCall` do, from the registers that they set up on. -/
def suspend (fn : Functions ε) (assertFailed : ε) (cpu : CpuData) (info : Word) (base : Reg)
    (func label : Word) (m : Machine) : Result ε :=
  if m.interruptFlag then .error (.callee assertFailed)
  else
    let m := m.setMem (store64 (store64 m.mem (info + 0x8) 8) (info + 0x20) 0)
    run fn (suspendCode base func label)
      (((m.setReg base info).setReg .rcx cpu.stackTop).setReg .rbx func)

/-- `SuspendAndCall(void (*)())`. -/
def suspendAndCall (fn : Functions ε) (assertFailed : ε) (cpu : CpuData) (info func label : Word)
    (m : Machine) : Result ε :=
  suspend fn assertFailed cpu info .rdi func label m

/-- `SuspendAndCall(void (*)(void *), void *)`. -/
def suspendAndCallArg (fn : Functions ε) (assertFailed : ε) (cpu : CpuData)
    (info func arg label : Word) (m : Machine) : Result ε :=
  suspend fn assertFailed cpu info .rsi func label (m.setReg .rdi arg)

/-- What `suspend` makes of a state. -/
def suspended (s : State) (label : Word) (m : Machine) : State :=
  { s with iretInfo := ⟨label, 8, m.rflags, m.reg .rsp, 0⟩ }

end State

/-- What is resumed: the registers that are not in the state are those of the code that resumes. -/
def State.resumed (s : State) (info : Word) (mem : ByteMemory) (m : Machine) : Machine :=
  { s.swapGs m with
    mem
    rip := s.iretInfo.rip
    cs := s.iretInfo.cs.setWidth 16
    rflags := s.iretInfo.rflags
    ss := s.iretInfo.ss.setWidth 16
    reg := fun r =>
      match r with
      | .rsp => s.iretInfo.rsp
      | .rdi => s.rdi
      | .rdx => s.rdi
      | .rsi => info + 0x28
      | .rcx => 0
      | r => m.reg r }

/-- Where the state, the data of the CPU and the stack lie that `Resume` works with. -/
structure Placed (cpu : CpuData) (info sp : Word) : Prop where
  infoTask : Apart (cpu.taskSegment + 0x4) 8 info 40
  infoLocal : Apart (cpu.localData + 0x8) 8 info 40
  infoStack : Apart (sp - 0x28) 40 info 40
  taskStack : Apart (sp - 0x28) 40 (cpu.taskSegment + 0x4) 8
  localStack : Apart (sp - 0x28) 40 (cpu.localData + 0x8) 8
  taskLocal : Apart (cpu.localData + 0x8) 8 (cpu.taskSegment + 0x4) 8

section
variable {ε : Type} {fn : Functions ε} {assertFailed : ε} {cpu : CpuData} {s : State}
variable {info : Word} {m : Machine}

lemma CpuData.setAsyncKernelTop_loads {stack : Word} {mem : ByteMemory}
    (h : Apart (cpu.localData + 0x8) 8 (cpu.taskSegment + 0x4) 8) :
    load64 (cpu.setAsyncKernelTop stack mem) (cpu.taskSegment + 0x4) = stack ∧
      load64 (cpu.setAsyncKernelTop stack mem) (cpu.localData + 0x8) = stack :=
  ⟨(load64_sameOn (store64_sameOff.apart h)).trans load64_store64, load64_store64⟩

lemma CpuData.setAsyncKernelTop_sameOn {stack addr : Word} {n : ℕ} {mem : ByteMemory}
    (htask : Apart (cpu.taskSegment + 0x4) 8 addr n)
    (hlocal : Apart (cpu.localData + 0x8) 8 addr n) :
    SameOn addr n mem (cpu.setAsyncKernelTop stack mem) :=
  (store64_sameOff.apart htask).trans (store64_sameOff.apart hlocal)

lemma State.run_resumeCode {words : List Word} (hdf : m.directionFlag = false)
    (hwords : Words m.mem (m.reg .rsi) words) (hlength : words.length = 5)
    (hapart : Apart (m.reg .rsp - 0x28) 40 (m.reg .rsi) 40) :
    ∃ left : Machine, run fn resumeCode m = left.iretq ∧ left.toSystem = m.toSystem ∧
      SameOff (m.reg .rsp - 0x28) 40 m.mem left.mem ∧ Words left.mem (left.reg .rsp) words ∧
      left.reg = fun r =>
        match r with
        | .rsp => m.reg .rsp - 0x28
        | .rdi => m.reg .rdx
        | .rsi => m.reg .rsi + 0x28
        | .rcx => 0
        | r => m.reg r := by
  set p := ((m.subImm .rsp 0x28).setReg .rcx 5).setReg .rdi (m.reg .rsp - 0x28) with hp
  have hp_reg : ∀ r, r ≠ .rsp → r ≠ .rcx → r ≠ .rdi → p.reg r = m.reg r := fun r h h' h'' => by
    simp [hp, Machine.subImm, h, h', h'']
  have hp_df : p.directionFlag = false := setStatus_directionFlag.trans hdf
  have hp_words : Words p.mem (p.reg .rsi) words := by simpa [hp, Machine.subImm] using hwords
  have hp_rdi : p.reg .rdi = m.reg .rsp - 0x28 := by simp [hp]
  have hp_rsi : p.reg .rsi = m.reg .rsi := hp_reg _ (by decide) (by decide) (by decide)
  obtain ⟨mem, hcopy, hcopied, hoff⟩ := movsq_words hp_df hp_words
    (by rw [hp_rdi, hp_rsi, hlength]; exact hapart.1)
    (by rw [hp_rdi, hp_rsi, hlength]; exact hapart.2)
  rw [hlength, hp_rdi] at hoff
  rw [hp_rdi] at hcopied
  rw [hlength] at hcopy
  have hrcx : (p.reg .rcx).toNat = 5 := by simp [hp]
  have hsp : ((m.subImm .rsp 0x28).setReg .rcx 5).reg .rsp = m.reg .rsp - 0x28 := by
    simp [Machine.subImm]
  have hrun : run fn resumeCode m =
      ((Machine.movsq^[5] p).setReg .rdi ((Machine.movsq^[5] p).reg .rdx)).iretq := by
    rw [resumeCode, run_sub, run_movImm, run_mov, hsp, ← hp, run_repMovsq, hrcx, run_mov, run_iretq]
  rw [hcopy] at hrun
  refine ⟨_, hrun, by simp [hp, Machine.subImm], by simpa [hp, Machine.subImm] using hoff,
    by simpa [hp, Machine.subImm] using hcopied, funext fun r => ?_⟩
  cases r <;> simp [hp, Machine.subImm]

lemma State.resume_eq (hcritical : m.interruptFlag = false) (hdf : m.directionFlag = false)
    (hwords : Words m.mem info s.iretInfo.words) (hrip : canonical s.iretInfo.rip = true)
    (hplaced : Placed cpu info (m.reg .rsp)) :
    ∃ mem, s.resume fn assertFailed cpu info m = .ok (s.resumed info mem m) ∧
      load64 mem (cpu.taskSegment + 0x4) = s.getStackTop ∧
      load64 mem (cpu.localData + 0x8) = s.getStackTop := by
  have hreg : ∀ m : Machine, (s.swapGs m).reg = m.reg ∧ (s.swapGs m).mem = m.mem ∧
      (s.swapGs m).directionFlag = m.directionFlag := fun m => by
    rw [swapGs]
    split_ifs <;> exact ⟨rfl, rfl, rfl⟩
  obtain ⟨hq_reg, hq_mem, hq_df⟩ := hreg (m.setMem (cpu.setAsyncKernelTop s.getStackTop m.mem))
  set q := ((s.swapGs (m.setMem (cpu.setAsyncKernelTop s.getStackTop m.mem))).setReg .rsi info).setReg
    .rdx s.rdi with hq
  have hrsp : q.reg .rsp = m.reg .rsp := by simp [hq, hq_reg]
  have hrsi : q.reg .rsi = info := by simp [hq]
  have hmem : q.mem = cpu.setAsyncKernelTop s.getStackTop m.mem := by simp [hq, hq_mem]
  have hsaved : Words q.mem (q.reg .rsi) s.iretInfo.words := by
    rw [hrsi, hmem]
    exact hwords.sameOn (CpuData.setAsyncKernelTop_sameOn hplaced.infoTask hplaced.infoLocal)
  obtain ⟨left, hrun, hsystem, hoff, hcopied, hregs⟩ := run_resumeCode (m := q)
    (hq_df.trans hdf) hsaved rfl (by rw [hrsp, hrsi]; exact hplaced.infoStack)
  rw [hrsp] at hoff
  obtain ⟨htask, hlocal⟩ := CpuData.setAsyncKernelTop_loads
    hplaced.taskLocal
  refine ⟨left.mem, ?_, ?_, ?_⟩
  · rw [resume, if_neg (by simp [hcritical])]
    refine hrun.trans ((iretq_words hcopied hrip).trans ?_)
    have hswap : left.toSystem = (s.swapGs m).toSystem := by
      rw [hsystem, hq, swapGs, swapGs]
      split_ifs <;> rfl
    refine congrArg Except.ok (Machine.ext ?_ (fun r => ?_) rfl rfl rfl)
    · calc { left.toSystem with
            cs := s.iretInfo.cs.setWidth 16
            ss := s.iretInfo.ss.setWidth 16 }
          = { (s.swapGs m).toSystem with
            cs := s.iretInfo.cs.setWidth 16
            ss := s.iretInfo.ss.setWidth 16 } := by rw [hswap]
        _ = (s.resumed info left.mem m).toSystem := rfl
    · cases r <;> simp [hregs, resumed, hq, hq_reg]
  · rw [load64_sameOn (hoff.apart hplaced.taskStack), hmem, htask]
  · rw [load64_sameOn (hoff.apart hplaced.localStack), hmem, hlocal]

/-- Memory when a suspended state calls its function. -/
def State.savedMem (cpu : CpuData) (info label : Word) (m : Machine) : ByteMemory :=
  let mem := store64 (store64 m.mem (info + 0x8) 8) (info + 0x20) 0
  let mem := store64 (store64 mem (info + 0) label) (m.reg .rsp - 8) m.rflags
  let mem := store64 (store64 mem (info + 0x10) m.rflags) (info + 0x18) (m.reg .rsp)
  store64 mem (cpu.stackTop - 8) label

/-- The function of a suspended state is called. -/
def State.called (cpu : CpuData) (info : Word) (base : Reg) (func label : Word) (m : Machine) :
    Machine :=
  { m with
    mem := savedMem cpu info label m
    reg := fun r =>
      if r = .rsp then cpu.stackTop - 8
      else if r = .rax then m.rflags
      else if r = .rbx then func
      else if r = .rcx then cpu.stackTop
      else if r = base then info
      else m.reg r }

lemma State.words_savedMem {label : Word} (hstack : Apart (m.reg .rsp - 8) 8 info 40)
    (htop : Apart (cpu.stackTop - 8) 8 info 40) :
    Words (savedMem cpu info label m) info (s.suspended label m).iretInfo.words := by
  obtain ⟨vs, hlength, hvs⟩ := exists_words m.mem info 5
  have h1 := hvs.set (k := 1) (v := 8) (by omega) (by omega)
  have h4 := h1.set (k := 4) (v := 0) (by simp [hlength]) (by simp [hlength])
  have h0 := h4.set (k := 0) (v := label) (by simp [hlength]) (by simp [hlength])
  have hpush := h0.sameOn (store64_sameOff (v := m.rflags) |>.apart (by simpa [hlength] using hstack))
  have h2 := hpush.set (k := 2) (v := m.rflags) (by simp [hlength]) (by simp [hlength])
  have h3 := h2.set (k := 3) (v := m.reg .rsp) (by simp [hlength]) (by simp [hlength])
  have hcall := h3.sameOn (store64_sameOff (v := label) |>.apart (by simpa [hlength] using htop))
  match vs, hlength, hcall with
  | [_, _, _, _, _], _, hcall => exact hcall

/-- Both forms of `SuspendAndCall` save where the stack, the flags and the code are, and call the
function on the stack of the CPU. -/
lemma State.suspend_eq {base : Reg} {func label : Word} (hbase : base = .rdi ∨ base = .rsi)
    (hcritical : m.interruptFlag = false) :
    suspend fn assertFailed cpu info base func label m =
      (fn func (called cpu info base func label m)).bind Machine.ret := by
  set p := (((m.setMem (store64 (store64 m.mem (info + 0x8) 8) (info + 0x20) 0)).setReg base
    info).setReg .rcx cpu.stackTop).setReg .rbx func with hp
  have hne : base ≠ .rsp ∧ base ≠ .rax ∧ base ≠ .rcx ∧ base ≠ .rbx := by
    rcases hbase with rfl | rfl <;> decide
  obtain ⟨hrsp, hrax, hrcx, hrbx⟩ := hne
  have hrun : suspend fn assertFailed cpu info base func label m =
      run fn (suspendCode base func label) p := by
    rw [suspend, if_neg (by simp [hcritical])]
  rw [hrun, suspendCode, run_movImm, run_store, run_pushfq_pop (by decide), run_store, run_store,
    run_mov, run_call]
  refine congrArg (fun q => (fn func q).bind Machine.ret)
    (Machine.ext ?_ (fun r => ?_) ?_ ?_ ?_)
  · simp [hp, called]
  · by_cases hr : r = .rsp
    · simp [hp, called, hr]
    · simp [hp, called, hr, pushWord_reg]
      split_ifs <;> rfl
  · simp [hp, called]
  · simp [hp, called]
  · simp [hp, called, savedMem, hrsp.symm, hrax, hrcx, hrbx]

lemma State.called_arg (func arg label : Word) :
    (called cpu info .rsi func label (m.setReg .rdi arg)).mem = savedMem cpu info label m ∧
      (called cpu info .rsi func label (m.setReg .rdi arg)).reg .rdi = arg := by
  simp [called, savedMem]

/-- A state that kernel code suspends is resumed by any CPU, at any later time that its five words
are as they were saved: the code behind the call goes on with its stack and its flags, and with the
other registers, `rbx` and `rbp` among them, of the code that resumes it. -/
theorem State.resume_suspended (func arg : Word) {label : Word}
    (hcritical : m.interruptFlag = false) (hlabel : canonical label = true)
    (hstack : Apart (m.reg .rsp - 8) 8 info 40) (htop : Apart (cpu.stackTop - 8) 8 info 40) :
    suspendAndCall fn assertFailed cpu info func label m =
        (fn func (called cpu info .rdi func label m)).bind Machine.ret ∧
      suspendAndCallArg fn assertFailed cpu info func arg label m =
        (fn func (called cpu info .rsi func label (m.setReg .rdi arg))).bind Machine.ret ∧
      (called cpu info .rdi func label m).mem = savedMem cpu info label m ∧
      ((called cpu info .rsi func label (m.setReg .rdi arg)).mem = savedMem cpu info label m ∧
        (called cpu info .rsi func label (m.setReg .rdi arg)).reg .rdi = arg) ∧
      ∀ (cpu' : CpuData) (m' : Machine), m'.interruptFlag = false → m'.directionFlag = false →
        SameOn info 40 (savedMem cpu info label m) m'.mem →
        Placed cpu' info (m'.reg .rsp) →
        ∃ mem, (s.suspended label m).resume fn assertFailed cpu' info m' = .ok { m' with
            mem
            rip := label
            cs := 8
            rflags := m.rflags
            ss := 0
            reg := fun r =>
              match r with
              | .rsp => m.reg .rsp
              | .rdi => s.rdi
              | .rdx => s.rdi
              | .rsi => info + 0x28
              | .rcx => 0
              | r => m'.reg r } ∧
          load64 mem (cpu'.taskSegment + 0x4) = s.getStackTop ∧
          load64 mem (cpu'.localData + 0x8) = s.getStackTop := by
  refine ⟨suspend_eq (.inl rfl) hcritical, suspend_eq (.inr rfl) hcritical, rfl,
    called_arg func arg label, fun cpu' m' hcritical' hdf hsame hplaced => ?_⟩
  have hwords := (words_savedMem (s := s) hstack htop).sameOn hsame
  obtain ⟨mem, hrun, hstacks⟩ := resume_eq hcritical' hdf
    hwords hlabel hplaced
  refine ⟨mem, hrun.trans (congrArg Except.ok (Machine.ext ?_ (fun r => ?_) rfl rfl rfl)), hstacks⟩
  · simp [resumed, swapGs, suspended]
  · cases r <;> rfl

/-- A state that is resumed by the function that it calls, on the same CPU. -/
theorem State.resume_suspended_at_once :
    let s : State := ⟨0, ⟨0, 0, 0, 0, 0⟩, 0x40000⟩
    let cpu : CpuData := ⟨0x10000, 0x11000, 0x30000⟩
    let m : Machine := ⟨⟨8, 0, 0x11000, 0, 0, 0, 0, 0⟩, fun _ => 0x43f00, 0x200000, 0x2, fun _ => 0⟩
    let m' := called cpu 0x20000 .rdi 0x201000 0x200100 m
    ∃ mem, (s.suspended 0x200100 m).resume (fun _ m => .ok m) () cpu 0x20000 m' = .ok { m' with
        mem
        rip := 0x200100
        cs := 8
        rflags := 0x2
        ss := 0
        reg := fun r =>
          match r with
          | .rsp => 0x43f00
          | .rdi => 0
          | .rdx => 0
          | .rsi => 0x20000 + 0x28
          | .rcx => 0
          | r => m'.reg r } ∧
      load64 mem (cpu.taskSegment + 0x4) = s.getStackTop ∧
      load64 mem (cpu.localData + 0x8) = s.getStackTop := by
  intro s cpu m m'
  exact (resume_suspended (s := s) 0x201000 0 (by decide)
    (by decide) (by decide) (by decide)).2.2.2.2 cpu m' (by decide) (by decide) (fun _ _ => rfl)
    ⟨by decide, by decide, by decide, by decide, by decide, by decide⟩

end

end Anarch.StateSwitch
