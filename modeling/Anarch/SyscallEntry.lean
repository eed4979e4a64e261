import Anarch.InterruptEntry

/-! The way of a system call: `syscall`, the handler in assembly with the stack of the state that
runs, the arguments that the function of the kernel pops, and `sysret`. -/
namespace Anarch
open ByteMemory X86

/-- The five arguments of a system call, and how many are popped. -/
structure SyscallArgs where
  arguments : Vector Word 5
  idx : ℕ := 0
  deriving DecidableEq

namespace SyscallArgs

def new (arg1 arg2 arg3 arg4 arg5 : Word) : SyscallArgs := ⟨#v[arg1, arg2, arg3, arg4, arg5], 0⟩

/-- `none` where the assertion fails. -/
def popUInt64 (args : SyscallArgs) : Option (Word × SyscallArgs) :=
  if h : args.idx < 5 then some (args.arguments[args.idx], { args with idx := args.idx + 1 })
  else none

/-- The pops of the other types: what they make of the argument. -/
def pop {α : Type} (f : Word → α) (args : SyscallArgs) : Option (α × SyscallArgs) :=
  args.popUInt64.map fun r => (f r.1, r.2)

def popBool : SyscallArgs → Option (Bool × SyscallArgs) := pop (· ≠ 0)
def popInt : SyscallArgs → Option (Int32 × SyscallArgs) := pop fun x => ⟨⟨x.setWidth 32⟩⟩
def popUInt32 : SyscallArgs → Option (BitVec 32 × SyscallArgs) := pop (·.setWidth 32)
def popPhysAddr : SyscallArgs → Option (Word × SyscallArgs) := pop id
def popVirtAddr : SyscallArgs → Option (Word × SyscallArgs) := pop id
def popPhysSize : SyscallArgs → Option (Word × SyscallArgs) := pop id
def popVirtSize : SyscallArgs → Option (Word × SyscallArgs) := pop id

def pops {α : Type} : List (Word → α) → SyscallArgs → Option (List α × SyscallArgs)
  | [], args => some ([], args)
  | f :: fs, args => (args.pop f).bind fun r => (pops fs r.2).map fun rs => (r.1 :: rs.1, rs.2)

/-- Pops take what is left of the arguments in order, and fail when it is used up. -/
theorem pops_eq {α : Type} (fs : List (Word → α)) (args : SyscallArgs) (h : args.idx ≤ 5) :
    pops fs args =
      if args.idx + fs.length ≤ 5 then
        some (fs.zipWith (fun f x => f x) (args.arguments.toList.drop args.idx),
          { args with idx := args.idx + fs.length })
      else none := by
  induction fs generalizing args with
  | nil => simp [pops, h]
  | cons f fs ih =>
    by_cases hidx : args.idx < 5
    · have hdrop : args.arguments.toList.drop args.idx =
          args.arguments[args.idx] :: args.arguments.toList.drop (args.idx + 1) := by
        rw [List.drop_eq_getElem_cons (by simpa using hidx)]
        simp
      have hlength : args.idx + 1 + fs.length = args.idx + (fs.length + 1) := by omega
      simp only [pops, pop, popUInt64, hidx, dite_true, Option.map_some, Option.bind_some,
        ih { args with idx := args.idx + 1 } hidx, hdrop, List.zipWith_cons_cons, List.length_cons,
        hlength]
      split_ifs <;> rfl
    · have hlong : ¬args.idx + (fs.length + 1) ≤ 5 := by omega
      simp [pops, pop, popUInt64, hidx, hlong]

end SyscallArgs

/-- `SyscallModule::SetCpuRegisters`, beside the stacks of the interrupts. -/
def SyscallModule.setCpuRegistersOn (rawSyscallHandler : Word) (m : Machine) : Machine :=
  { m with star := 8 <<< 0x20 ||| 0x13 <<< 0x30, sfMask := 0x200, lstar := rawSyscallHandler }

/-- `AnarchRawSyscallHandler`. -/
def rawSyscallHandler (mainEntry next : Word) : List Instr :=
  [.swapgs, .mov .r10 .rsp, .loadGs .rsp 0x8, .push .r10, .push .rcx, .mov .rcx .rbx,
    .call mainEntry next, .pop .rcx, .pop .rsp, .movImm .r11 0x200, .swapgs, .sysret]

/-- What `AnarchSyscallMainEntry` finds: the handler that is set. -/
structure SyscallKernel (ε : Type) where
  handler : Option (BitVec 16 → SyscallArgs → Machine → Result ε)
  assertFailed : ε

/-- `AnarchSyscallMainEntry`. -/
def SyscallKernel.mainEntry {ε : Type} (k : SyscallKernel ε) (m : Machine) : Result ε :=
  if m.interruptFlag then .error (.callee k.assertFailed)
  else match k.handler with
    | none => .error (.callee k.assertFailed)
    | some handler => handler ((m.reg .rdi).setWidth 16)
        (.new (m.reg .rsi) (m.reg .rdx) (m.reg .rcx) (m.reg .r8) (m.reg .r9)) m

/-- What user code finds after a system call, where its function returned with `m'`. -/
def SyscallModule.returned (m m' : Machine) : Machine :=
  { m with
    mem := m'.mem
    rflags := 0x202
    reg := fun r =>
      if r ∈ calleeSaved then m.reg r
      else if r = .rcx then m.rip
      else if r = .r11 then 0x200
      else m'.reg r }

/-- The registers that user code passes the arguments in, in the order of their pops. -/
def SyscallModule.passed (m : Machine) : List Word :=
  [m.reg .rsi, m.reg .rdx, m.reg .rbx, m.reg .r8, m.reg .r9]

def SyscallModule.args (m : Machine) : SyscallArgs :=
  .new (m.reg .rsi) (m.reg .rdx) (m.reg .rbx) (m.reg .r8) (m.reg .r9)

section
variable {ε : Type} {fn : Functions ε} {m m' : Machine}

/-- The function of a system call, when it is called. -/
structure SyscallModule.Called (m : Machine) (stack : Word) (m₁ : Machine) : Prop where
  arguments : ∀ r ∈ [Reg.rdi, .rsi, .rdx, .r8, .r9], m₁.reg r = m.reg r
  fourth : m₁.reg .rcx = m.reg .rbx
  rsp : m₁.reg .rsp = stack - 0x18
  segments : m₁.cs = 0x8 ∧ m₁.ss = 0x10
  gs : m₁.gsBase = m.kernelGsBase ∧ m₁.kernelGsBase = m.gsBase
  flags : m₁.rflags = m.rflags &&& ~~~0x200

/-- The handler up to its call. -/
def SyscallModule.call (m : Machine) (stack next : Word) : Machine :=
  (((((m.syscall.swapGs.setReg .r10 (m.reg .rsp)).setReg .rsp stack).pushWord (m.reg .rsp)).pushWord
    m.rip).setReg .rcx (m.reg .rbx)).pushWord next

lemma SyscallModule.call_called {m₀ : Machine} {raw stack next : Word}
    (hm : m = setCpuRegistersOn raw m₀) : Called m stack (call m stack next) where
  arguments r hr := by
    have hne : ∀ r ∈ [Reg.rdi, .rsi, .rdx, .r8, .r9],
        r ≠ .rsp ∧ r ≠ .rcx ∧ r ≠ .r10 ∧ r ≠ .r11 := by decide
    obtain ⟨hrsp, hrcx, hr10, hr11⟩ := hne r hr
    simp [call, pushWord_reg, syscall_reg, hrsp, hrcx, hr10, hr11]
  fourth := by simp [call, pushWord_reg]
  rsp := by simp [call, sub_sub]
  segments := by simp [call, hm, Machine.syscall, setCpuRegistersOn, Machine.swapGs]
  gs := by simp [call, Machine.swapGs, Machine.syscall]
  flags := by simp [call, hm, Machine.syscall, setCpuRegistersOn, Machine.swapGs]

lemma SyscallModule.words_call {stack next : Word} :
    Words (call m stack next).mem ((call m stack next).reg .rsp) [next, m.rip, m.reg .rsp] := by
  have hempty : Words m.mem stack [] := trivial
  have hfit : ∀ n ≤ 2, 8 * (n + 1) ≤ 2 ^ 64 := fun n hn => by omega
  simpa [call] using ((hempty.push (v := m.reg .rsp) (hfit 0 (by decide))).push (v := m.rip)
    (hfit 1 (by decide))).push (v := next) (hfit 2 (by decide))

lemma SyscallModule.run_call {mainEntry next stack : Word}
    (hstack : load64 m.mem (m.kernelGsBase + 8) = stack) :
    run fn [.swapgs, .mov .r10 .rsp, .loadGs .rsp 0x8, .push .r10, .push .rcx, .mov .rcx .rbx,
      .call mainEntry next] m.syscall = (fn mainEntry (call m stack next)).bind Machine.ret := by
  have hload : load64 m.mem (m.syscall.swapGs.gsBase + 8#64) = stack := hstack
  simp only [run_cons, run_nil, Instr.exec, Except.bind, call]
  simp [hload, syscall_reg, pushWord_reg]
  cases fn mainEntry _ with
  | error e => rfl
  | ok m₂ => rfl

lemma SyscallModule.run_return {m₀ m₂ : Machine} {raw next stack : Word}
    (hm : m = setCpuRegistersOn raw m₀) (huser : m.cs = 0x23 ∧ m.ss = 0x1b)
    (hconf : Conforms 3 (call m stack next) m₂)
    (hwords : Words m₂.mem (m₂.reg .rsp) [next, m.rip, m.reg .rsp]) :
    m₂.ret.bind (run fn [.pop .rcx, .pop .rsp, .movImm .r11 0x200, .swapgs, .sysret]) =
      if canonical m.rip then .ok (returned m m₂) else .error .generalProtection := by
  have hrip : load64 m₂.mem (m₂.reg .rsp + 8#64) = m.rip := hwords.2.1
  have hrsp : load64 m₂.mem (m₂.reg .rsp + 8#64 + 8#64) = m.reg .rsp := hwords.2.2.1
  set left := (((m₂.setReg .rcx m.rip).setReg .rsp (m.reg .rsp)).setReg .r11 0x200).swapGs with hleft
  have hrun : m₂.ret.bind (run fn [.pop .rcx, .pop .rsp, .movImm .r11 0x200, .swapgs, .sysret]) =
      (left.setRip m₂.top).sysret := by
    simp only [Machine.ret, Except.bind, run_cons, run_nil, Instr.exec]
    have hsame : (((m₂.dropWord.setRip m₂.top).dropWord.setReg .rcx
        (m₂.dropWord.setRip m₂.top).top).dropWord.setReg .rsp
        ((m₂.dropWord.setRip m₂.top).dropWord.setReg .rcx
          (m₂.dropWord.setRip m₂.top).top).top |>.setReg .r11 0x200).swapGs = left.setRip m₂.top := by
      refine Machine.ext ?_ (fun r => ?_) (by simp [hleft]) (by simp [hleft]) (by simp [hleft])
      · simp [hleft, Machine.swapGs]
      by_cases hr : r = .rsp
      · simp [hr, hleft, Machine.top, hrsp]
      · simp [hr, hleft, Machine.top, hrip, dropWord_reg]
    rw [hsame]
    cases (left.setRip m₂.top).sysret <;> rfl
  have hsystem : left.toSystem = m.syscall.toSystem := by
    have hcall : m₂.toSystem = m.syscall.swapGs.toSystem := by simp [hconf.system, call]
    exact toSystem_swapGs hcall
  have hstar : left.star = 8 <<< 0x20 ||| 0x13 <<< 0x30 := by
    rw [hsystem, hm]
    rfl
  have hrcx : left.reg .rcx = m.rip := by simp [hleft]
  rw [hrun, Machine.sysret]
  simp only [setRip_reg, hrcx]
  split_ifs with hrip
  · have hselectors : ((left.star >>> 48).setWidth 16 + 16 ||| 3 : BitVec 16) = m.cs ∧
        ((left.star >>> 48).setWidth 16 + 8 ||| 3 : BitVec 16) = m.ss := by
      rw [hstar, huser.1, huser.2]
      decide
    refine congrArg Except.ok (Machine.ext ?_ (fun r => ?_) rfl ?_ ?_)
    · calc { left.toSystem with
            cs := (left.star >>> 48).setWidth 16 + 16 ||| 3
            ss := (left.star >>> 48).setWidth 16 + 8 ||| 3 }
          = { m.syscall.toSystem with cs := m.cs, ss := m.ss } := by
            rw [hselectors.1, hselectors.2, hsystem]
        _ = (returned m m₂).toSystem := rfl
    · by_cases hsaved : r ∈ calleeSaved
      · have hother : ∀ r ∈ calleeSaved, r ≠ .rcx ∧ r ≠ .r10 ∧ r ≠ .r11 := by decide
        obtain ⟨hrcx, hr10, hr11⟩ := hother r hsaved
        by_cases hr : r = .rsp
        · simp [hleft, returned, hr, calleeSaved]
        · have hkept : m₂.reg r = m.reg r := by
            simp [hconf.saved r hsaved, call, pushWord_reg, syscall_reg, hr, hrcx, hr10, hr11]
          simp [hleft, returned, hr, hrcx, hr11, hsaved, hkept]
      · have hr : r ≠ .rsp := fun he => hsaved (he ▸ by decide)
        by_cases hrcx : r = .rcx
        · simp [hleft, returned, hrcx, calleeSaved]
        · simp [hleft, returned, hr, hrcx, hsaved]
    · simp [hleft, returned]
    · simp [hleft, returned]
  · rfl

/-- A system call: its function is called on the stack that the data of the CPU names, and user code
goes on behind the `syscall`, unless the address there is not canonical: then the `sysret` faults
in the kernel. -/
theorem SyscallModule.syscall_returns {m₀ : Machine} {raw mainEntry next stack : Word}
    (hm : m = setCpuRegistersOn raw m₀) (huser : m.cs = 0x23 ∧ m.ss = 0x1b)
    (hstack : load64 m.mem (m.kernelGsBase + 8) = stack)
    (hfn : ∀ m₁ m₂, Called m stack m₁ → fn mainEntry m₁ = .ok m₂ → Conforms 3 m₁ m₂) :
    ∃ m₁, Called m stack m₁ ∧ run fn (rawSyscallHandler mainEntry next) m.syscall =
      (fn mainEntry m₁).bind fun m₂ =>
        if canonical m.rip then .ok (returned m m₂) else .error .generalProtection := by
  refine ⟨call m stack next, call_called hm, ?_⟩
  have hcall : run fn (rawSyscallHandler mainEntry next) m.syscall =
      ((fn mainEntry (call m stack next)).bind Machine.ret).bind
        (run fn [.pop .rcx, .pop .rsp, .movImm .r11 0x200, .swapgs, .sysret]) := by
    rw [← run_call hstack, ← run_append]
    rfl
  rw [hcall]
  cases hm₂ : fn mainEntry (call m stack next) with
  | error e => simp only [Except.bind]
  | ok m₂ =>
    have hconf := hfn _ _ (call_called hm) hm₂
    have hwords := (words_call (m := m)).sameOn
      (hconf.stack.mono (by simp))
    rw [← hconf.rsp] at hwords
    exact run_return hm huser hconf hwords

/-- A system call comes to the handler of the kernel, with the number in `rdi` cut to 16 bits and
the arguments in `rsi`, `rdx`, `rbx`, `r8` and `r9`, which it can pop in this order. -/
theorem SyscallModule.syscall_handled (fn : Functions ε) {m₀ : Machine}
    {raw mainEntry next stack : Word} {k : SyscallKernel ε}
    {handler : BitVec 16 → SyscallArgs → Machine → Result ε}
    (hm : m = setCpuRegistersOn raw m₀) (huser : m.cs = 0x23 ∧ m.ss = 0x1b)
    (hstack : load64 m.mem (m.kernelGsBase + 8) = stack) (hentry : fn mainEntry = k.mainEntry)
    (hhandler : k.handler = some handler)
    (hconf : ∀ number args m₁ m₂, handler number args m₁ = .ok m₂ → Conforms 3 m₁ m₂) :
    (∃ m₁, Called m stack m₁ ∧ run fn (rawSyscallHandler mainEntry next) m.syscall =
      (handler ((m.reg .rdi).setWidth 16) (args m) m₁).bind fun m₂ =>
        if canonical m.rip then .ok (returned m m₂) else .error .generalProtection) ∧
    ∀ (α : Type) (fs : List (Word → α)), (args m).pops fs =
      if fs.length ≤ 5 then
        some (fs.zipWith (fun f x => f x) (passed m), { args m with idx := fs.length })
      else none := by
  have hmain : ∀ m₁, Called m stack m₁ →
      fn mainEntry m₁ = handler ((m.reg .rdi).setWidth 16) (args m) m₁ := fun m₁ h => by
    have hcritical : m₁.interruptFlag = false := by
      simp [Machine.interruptFlag, h.flags]
    simp [hentry, SyscallKernel.mainEntry, hcritical, hhandler, h.fourth, args,
      h.arguments .rdi (by decide), h.arguments .rsi (by decide), h.arguments .rdx (by decide),
      h.arguments .r8 (by decide), h.arguments .r9 (by decide)]
  obtain ⟨m₁, hcalled, hrun⟩ := syscall_returns hm huser
    hstack fun m₁ m₂ h hm₂ => hconf _ _ _ _ ((hmain m₁ h).symm.trans hm₂)
  refine ⟨⟨m₁, hcalled, hmain m₁ hcalled ▸ hrun⟩, fun α fs => ?_⟩
  rw [SyscallArgs.pops_eq fs _ (Nat.zero_le 5)]
  simp only [args, SyscallArgs.new, Nat.zero_add]
  rfl

/-- A system call that returns, and one right below the canonical addresses' end: the handler runs,
and the kernel faults. -/
theorem SyscallModule.syscall_handled_fault :
    let k : SyscallKernel String := ⟨some fun _ _ m => .ok m, ""⟩
    let m rip := setCpuRegistersOn 0x1000 ⟨⟨0x23, 0x1b, 0, 0x7000, 0, 0, 0, 0⟩, fun _ => 0x80000,
      rip, 0x202, fun _ => 0⟩
    let call rip := run (fun _ => k.mainEntry) (rawSyscallHandler 0x2000 0x1020) (m rip).syscall
    (∃ m', call 0x400002 = .ok m' ∧ m'.rip = 0x400002 ∧ m'.reg .rsp = 0x80000 ∧
      m'.reg .r11 = 0x200 ∧ m'.interruptFlag = true) ∧
    call 0x800000000000 = .error .generalProtection := by
  intro k m call
  have hrun : ∀ rip, ∃ m₁, Called (m rip) 0 m₁ ∧ call rip = if canonical rip then
      .ok (returned (m rip) m₁) else .error .generalProtection := fun rip => by
    obtain ⟨⟨m₁, hcalled, hrun⟩, -⟩ := syscall_handled (fun _ => k.mainEntry)
      (k := k) (m := m rip) rfl ⟨rfl, rfl⟩ rfl rfl rfl
      fun _ _ m₁ m₂ h => by obtain rfl := Except.ok.inj h; exact .refl
    exact ⟨m₁, hcalled, hrun⟩
  obtain ⟨m₁, -, hreturn⟩ := hrun 0x400002
  obtain ⟨m₂, -, hfault⟩ := hrun 0x800000000000
  refine ⟨⟨_, hreturn.trans (if_pos (by decide)), rfl, rfl, rfl, ?_⟩, hfault.trans ?_⟩
  · simp [Machine.interruptFlag, returned]
  · exact if_neg (by decide)

end

end Anarch
