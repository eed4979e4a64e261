import Anarch.InterruptEntry

/-! The functions that interrupts come to: the switch to the segment of the CPU, and the routines
that the kernel has set. -/
namespace Anarch
open ByteMemory X86

/-- The routine of each vector, zero where there is none. -/
structure Irt where
  routines : BitVec 8 → Word := fun _ => 0

def Irt.get (irt : Irt) (idx : BitVec 8) : Word := irt.routines idx

def Irt.set (irt : Irt) (idx : BitVec 8) (r : Word) : Irt :=
  ⟨Function.update irt.routines idx r⟩

def Irt.unset (irt : Irt) (idx : BitVec 8) : Irt := irt.set idx 0

/-- What interrupts find: the routines, the page delegate, the address of a page fault, and the
functions at addresses; and how the kernel comes to a stop. -/
structure IsrKernel (ε : Type) where
  irt : Irt
  delegate : Word
  cr2 : Word
  functions : Functions ε
  panic : String → ε
  assertFailed : ε

namespace IsrKernel
variable {ε : Type}

/-- `AssertCritical`. -/
def assertCritical (k : IsrKernel ε) (m : Machine) : Except (Trap ε) Unit :=
  if m.interruptFlag then .error (.callee k.assertFailed) else .ok ()

/-- `LocalSegment::Swap`. -/
def swap (k : IsrKernel ε) (m : Machine) : Result ε :=
  (k.assertCritical m).map fun _ => m.swapGs

/-- `LocalSegment::Read`. -/
def read (k : IsrKernel ε) (m : Machine) : Except (Trap ε) Word :=
  (k.assertCritical m).map fun _ => m.gsBase

/-- Whether a `SwapScope` swaps. -/
def didSwap (k : IsrKernel ε) (vector : BitVec 8) (stack : Word) (m : Machine) :
    Except (Trap ε) Bool :=
  if vector ≠ 0x2 ∧ vector ≠ 0x12 then .ok (load64 m.mem (stack + 8) &&& 3 ≠ 0)
  else (k.read m).map (· = 0)

/-- A `SwapScope` around the rest of a function. -/
def swapScope (k : IsrKernel ε) (vector : BitVec 8) (stack : Word) (body : Machine → Result ε)
    (m : Machine) : Result ε :=
  (k.didSwap vector stack m).bind fun didSwap =>
    if didSwap then ((k.swap m).bind body).bind k.swap else body m

/-- A call with two arguments. -/
def call (k : IsrKernel ε) (fn a b : Word) (m : Machine) : Result ε :=
  k.functions fn ((m.setReg .rdi a).setReg .rsi b)

/-- The routine of a vector, or the end of the kernel, where the vector is not one of its own. -/
def dispatch (k : IsrKernel ε) (vector stack code : Word) (msg : String) (m : Machine) : Result ε :=
  let routine := k.irt.get (vector.setWidth 8)
  if routine ≠ 0 then k.call routine stack code m
  else if vector < 0xf0 then .error (.callee (k.panic msg))
  else .ok m

def interruptCoded (k : IsrKernel ε) (m : Machine) : Result ε :=
  let vector := m.reg .rdi
  let stack := m.reg .rsi
  let code := m.reg .rdx
  k.swapScope (vector.setWidth 8) stack (fun m =>
    if vector = 0xe ∧ k.delegate ≠ 0 then
      k.call k.delegate k.cr2 (if code &&& 2 ≠ 0 then 1 else 0) m
    else k.dispatch vector stack code "unhandled exception" m) m

def interruptNonCoded (k : IsrKernel ε) (m : Machine) : Result ε :=
  let vector := m.reg .rdi
  let stack := m.reg .rsi
  k.swapScope (vector.setWidth 8) stack
    (k.dispatch vector stack 0 "unhandled interrupt") m

/-- The functions that the routines in assembly call, at their addresses. -/
def isrs (k : IsrKernel ε) (t : Isrs) : Functions ε := fun addr m =>
  if addr = t.interruptCoded then k.interruptCoded m
  else if addr = t.interruptNonCoded then k.interruptNonCoded m
  else k.functions addr m

/-- The function that handles a vector, if there is one. -/
def handler (k : IsrKernel ε) (v : BitVec 8) : Option Word :=
  if v = 0xe ∧ k.delegate ≠ 0 then some k.delegate
  else if k.irt.get v ≠ 0 then some (k.irt.get v)
  else none

/-- The arguments of the function that handles a vector. -/
def arguments (k : IsrKernel ε) (v : BitVec 8) (stack code : Word) : Word × Word :=
  if v = 0xe ∧ k.delegate ≠ 0 then (k.cr2, if code &&& 2 ≠ 0 then 1 else 0) else (stack, code)

/-- The end of the kernel at a vector that nothing handles. -/
def message (v : BitVec 8) : String :=
  if Irt.hasCode v then "unhandled exception" else "unhandled interrupt"

/-- What comes of a vector, between the swaps. -/
def handle (k : IsrKernel ε) (v : BitVec 8) (stack code : Word) (msg : String) (m : Machine) :
    Result ε :=
  match k.handler v with
  | some f => k.call f (k.arguments v stack code).1 (k.arguments v stack code).2 m
  | none => if v < 0xf0 then .error (.callee (k.panic msg)) else .ok m

/-- The functions keep to the calling convention, and leave interrupts off. -/
def Sound (k : IsrKernel ε) : Prop :=
  ∀ addr m m', k.functions addr m = .ok m' →
    Conforms 17 m m' ∧ (m.interruptFlag = false → m'.interruptFlag = false)

end IsrKernel

/-- The segments of a CPU whose data is at an address: kernel code has its own in use and leaves
zero to user code, except where it is about to switch, with interrupts off. -/
structure Segments (cpu : Word) (v : BitVec 8) (m : Machine) : Prop where
  cpu_ne : cpu ≠ 0
  either : (m.gsBase = cpu ∧ m.kernelGsBase = 0) ∨ (m.gsBase = 0 ∧ m.kernelGsBase = cpu)
  mode : v ≠ 0x2 → v ≠ 0x12 → (cpl m.cs = 0 ↔ m.gsBase = cpu)

/-- The swap that a `SwapScope` makes at both ends. -/
def enter (didSwap : Bool) (m : Machine) : Machine := if didSwap then m.swapGs else m

section
variable {ε : Type} {k : IsrKernel ε} {m m' : Machine} {cpu : Word} {v : BitVec 8}
variable {code : Option Word} {d : Bool} {size : ℕ} {body : Machine → Result ε} {stack : Word}

@[simp] lemma enter_mem : (enter d m).mem = m.mem := by cases d <;> rfl
@[simp] lemma enter_reg : (enter d m).reg = m.reg := by cases d <;> rfl
@[simp] lemma enter_interruptFlag : (enter d m).interruptFlag = m.interruptFlag := by
  cases d <;> rfl
@[simp] lemma enter_enter : enter d (enter d m) = m := by cases d <;> rfl

lemma toSystem_enter (h : m'.toSystem = (enter d m).toSystem) :
    (enter d m').toSystem = m.toSystem := by
  cases d with
  | false => exact h
  | true => exact toSystem_swapGs h

lemma X86.Conforms.enter (h : Conforms size (enter d m) m') : Conforms size m (enter d m') where
  saved r hr := by simpa using h.saved r hr
  stack := by simpa using h.stack
  system := toSystem_enter h.system

lemma IsrKernel.swap_eq (h : m.interruptFlag = false) : k.swap m = .ok m.swapGs := by
  simp [swap, assertCritical, h, Except.map]

lemma IsrKernel.read_eq (h : m.interruptFlag = false) : k.read m = .ok m.gsBase := by
  simp [read, assertCritical, h, Except.map]

lemma IsrKernel.swapScope_eq (hd : k.didSwap v stack m = .ok d) (hm : m.interruptFlag = false)
    (hbody : ∀ m', body (enter d m) = .ok m' → m'.interruptFlag = false) :
    k.swapScope v stack body m = (body (enter d m)).map (enter d) := by
  have hleave : (body (enter d m)).bind k.swap = (body (enter d m)).map Machine.swapGs := by
    cases hm' : body (enter d m) with
    | error e => rfl
    | ok m' => exact swap_eq (hbody m' hm')
  rw [swapScope, hd]
  cases d with
  | false => cases hm' : body m <;> simp [Except.bind, Except.map, enter, hm']
  | true =>
    calc ((k.swap m).bind body).bind k.swap
        = (body m.swapGs).bind k.swap := by rw [swap_eq hm]; rfl
      _ = (body (enter true m)).map Machine.swapGs := hleave

lemma cpl_eq_zero (cs : BitVec 16) : cs.setWidth 64 &&& (3 : Word) = 0 ↔ cpl cs = 0 := by
  rw [← BitVec.toNat_inj, ← BitVec.toNat_inj, BitVec.toNat_and, BitVec.toNat_setWidth, cpl,
    BitVec.toNat_setWidth, show (3 : Word).toNat = 2 ^ 2 - 1 from rfl, Nat.and_two_pow_sub_one_eq_mod,
    Nat.mod_eq_of_lt (cs.isLt.trans (by decide))]
  rfl

lemma Isrs.Called.didSwap {m₁ : Machine} (h : Called m v code m₁) (hseg : Segments cpu v m) :
    k.didSwap v (m₁.reg .rsi) m₁ = .ok (decide (m.gsBase ≠ cpu)) := by
  have hcs : load64 m₁.mem (m₁.reg .rsi + 8) = m.cs.setWidth 64 := h.stack.2.1
  have hgs : m₁.gsBase = m.gsBase := by rw [h.system]
  rw [IsrKernel.didSwap, hcs]
  split_ifs with hv
  · congr 1
    exact decide_eq_decide.mpr (not_congr ((cpl_eq_zero m.cs).trans (hseg.mode hv.1 hv.2)))
  · have hzero : m.gsBase = 0 ↔ m.gsBase ≠ cpu := by
      rcases hseg.either with ⟨h1, -⟩ | ⟨h1, -⟩
      · exact ⟨fun h => absurd (h1.symm.trans h) hseg.cpu_ne, fun h => absurd h1 h⟩
      · exact ⟨fun _ h => hseg.cpu_ne (h.symm.trans h1), fun _ => h1⟩
    rw [IsrKernel.read_eq h.critical, hgs, Except.map]
    exact congrArg _ (decide_eq_decide.mpr hzero)

lemma IsrKernel.dispatch_eq {msg : String} {c : Word} (hv : v = 0xe → k.delegate = 0) :
    k.dispatch (v.setWidth 64) stack c msg m = k.handle v stack c msg m := by
  have hvector : (v.setWidth 64).setWidth 8 = v := BitVec.setWidth_setWidth_of_le v (by decide)
  have hpage : ¬(v = 0xe ∧ k.delegate ≠ 0) := fun h => h.2 (hv h.1)
  have hlt : v.setWidth 64 < (0xf0 : Word) ↔ v < 0xf0 := by
    have := v.isLt
    simp [BitVec.lt_def]
    omega
  by_cases hroutine : k.irt.get v = 0
  · simp only [dispatch, handle, handler, hvector, if_neg hpage, if_neg (not_not.mpr hroutine), hlt]
  · simp only [dispatch, handle, handler, arguments, hvector, if_neg hpage, if_pos hroutine]

lemma IsrKernel.interruptCoded_eq (h : m.reg .rdi = v.setWidth 64) :
    k.interruptCoded m = k.swapScope v (m.reg .rsi)
      (k.handle v (m.reg .rsi) (m.reg .rdx) "unhandled exception") m := by
  have hvector : (v.setWidth 64).setWidth 8 = v := BitVec.setWidth_setWidth_of_le v (by decide)
  have hpage : v.setWidth 64 = (0xe : Word) ↔ v = 0xe :=
    ⟨fun he => by rw [← hvector, he]; rfl, fun he => by rw [he]; rfl⟩
  rw [interruptCoded, h, hvector]
  congr 1
  funext p
  by_cases hv : v = 0xe ∧ k.delegate ≠ 0
  · simp only [handle, handler, arguments, if_pos hv, if_pos (And.intro (hpage.mpr hv.1) hv.2)]
  · rw [if_neg fun he => hv ⟨hpage.mp he.1, he.2⟩, dispatch_eq fun h => by_contra fun hd => hv ⟨h, hd⟩]

lemma IsrKernel.interruptNonCoded_eq (h : m.reg .rdi = v.setWidth 64) (hv : v ≠ 0xe) :
    k.interruptNonCoded m = k.swapScope v (m.reg .rsi)
      (k.handle v (m.reg .rsi) 0 "unhandled interrupt") m := by
  have hvector : (v.setWidth 64).setWidth 8 = v := BitVec.setWidth_setWidth_of_le v (by decide)
  rw [interruptNonCoded, h, hvector]
  congr 1
  funext p
  exact dispatch_eq fun h => absurd h hv

lemma IsrKernel.Sound.handle (hk : k.Sound) {msg : String} {c : Word}
    (h : k.handle v stack c msg m = .ok m') :
    Conforms 17 m m' ∧ (m.interruptFlag = false → m'.interruptFlag = false) := by
  rw [IsrKernel.handle] at h
  cases hv : k.handler v with
  | some f =>
    rw [hv] at h
    obtain ⟨hconf, hflag⟩ := hk _ _ _ h
    exact ⟨((Conforms.refl.setReg (by decide)).setReg (by decide)).trans hconf, hflag⟩
  | none =>
    simp only [hv] at h
    split_ifs at h
    obtain rfl := Except.ok.inj h
    exact ⟨.refl, id⟩

lemma Segments.enter {m₁ : Machine} (h : Segments cpu v m) (hgs : m₁.gsBase = m.gsBase)
    (hkernel : m₁.kernelGsBase = m.kernelGsBase) :
    (enter (decide (m.gsBase ≠ cpu)) m₁).gsBase = cpu ∧
      (enter (decide (m.gsBase ≠ cpu)) m₁).kernelGsBase = 0 := by
  rcases h.either with ⟨hcpu, hzero⟩ | ⟨hzero, hcpu⟩
  · simp [Anarch.enter, hcpu, hgs, hkernel, hzero]
  · have hne : m.gsBase ≠ cpu := fun he => h.cpu_ne (he.symm.trans hzero)
    rw [decide_eq_true hne]
    exact ⟨hkernel.trans hcpu, hgs.trans hzero⟩

section
variable {t : Isrs}

lemma Isrs.Called.isrs_eq {m₁ : Machine} (h : Called m v code m₁) (hseg : Segments cpu v m)
    (hfunctions : t.interruptCoded ≠ t.interruptNonCoded) (hcode : code.isSome = Irt.hasCode v)
    (hk : k.Sound) :
    k.isrs t (t.function v) m₁ =
      (k.handle v (m₁.reg .rsi) (code.getD 0) (IsrKernel.message v)
        (enter (decide (m.gsBase ≠ cpu)) m₁)).map (enter (decide (m.gsBase ≠ cpu))) := by
  have hscope : k.isrs t (t.function v) m₁ = k.swapScope v (m₁.reg .rsi)
      (k.handle v (m₁.reg .rsi) (code.getD 0) (IsrKernel.message v)) m₁ := by
    cases hv : Irt.hasCode v with
    | true =>
      obtain ⟨c, rfl⟩ := Option.isSome_iff_exists.mp (hcode.trans hv)
      rw [IsrKernel.isrs, function, if_pos hv, if_pos rfl, IsrKernel.interruptCoded_eq h.vector,
        h.code c rfl, IsrKernel.message, if_pos hv]
      rfl
    | false =>
      have hnone := Option.not_isSome_iff_eq_none.mp (ne_true_of_eq_false (hcode.trans hv))
      have hpage : v ≠ 0xe := by
        rintro rfl
        cases hv
      rw [IsrKernel.isrs, function, if_neg (ne_true_of_eq_false hv), if_neg hfunctions.symm,
        if_pos rfl, IsrKernel.interruptNonCoded_eq h.vector hpage, IsrKernel.message,
        if_neg (ne_true_of_eq_false hv), hnone]
      rfl
  rw [hscope, IsrKernel.swapScope_eq (h.didSwap hseg) h.critical]
  exact fun m' hm' => (hk.handle hm').2 (by simpa using h.critical)

/-- An interrupt with the routines of the kernel: they run with the segment of the CPU in use and
interrupts off, whatever was interrupted; an NMI may come at any point. What they return to goes on
with every register, flag and segment as it was. -/
theorem Isrs.interrupt_dispatch (tss : Stacks) (code : Option Word) {base : Word}
    {ists : List (BitVec 8 × BitVec 3)}
    (hroutines : t.rawCodedIsr ≠ t.rawNonCodedIsr)
    (hfunctions : t.interruptCoded ≠ t.interruptNonCoded)
    (hloaded : (t.table base ists).Loaded m.mem)
    (hapart : (t.table base ists).Apart
      (entryStack tss (readGate m.mem (base + 0x10 * v.setWidth 64)) m) 48)
    (hcode : code.isSome = Irt.hasCode v) (hrip : canonical m.rip = true) (hk : k.Sound)
    (hseg : Segments cpu v m) :
    ∃ stack m₁, Words m₁.mem stack m.frame ∧ m₁.gsBase = cpu ∧ m₁.kernelGsBase = 0 ∧
      m₁.interruptFlag = false ∧
      m₁.reg .rdi = (k.arguments v stack (code.getD 0)).1 ∧
      m₁.reg .rsi = (k.arguments v stack (code.getD 0)).2 ∧
      interrupt (k.isrs t) t.text tss base v code m =
        match k.handler v with
        | some f => (k.functions f m₁).map fun m₂ => { m with mem := m₂.mem }
        | none =>
            if v < 0xf0 then .error (.callee (k.panic (IsrKernel.message v)))
            else .ok { m with mem := m₁.mem } := by
  obtain ⟨m₀, hcalled, hrun⟩ := interrupt_transparent (k.isrs t) (v := v) hroutines hloaded
    hapart hcode hrip fun m₁ m₂ h hm₂ => by
      rw [h.isrs_eq hseg hfunctions hcode hk] at hm₂
      cases hm' : k.handle v (m₁.reg .rsi) (code.getD 0) (IsrKernel.message v)
        (enter (decide (m.gsBase ≠ cpu)) m₁) with
      | error e =>
        rw [hm'] at hm₂
        cases hm₂
      | ok m' =>
        rw [hm'] at hm₂
        obtain rfl := Except.ok.inj hm₂
        exact (hk.handle hm').1.enter
  have hgs := hseg.enter (by rw [hcalled.system]) (by rw [hcalled.system])
  set d := decide (m.gsBase ≠ cpu) with hd
  refine ⟨m₀.reg .rsi, ((enter d m₀).setReg .rdi (k.arguments v (m₀.reg .rsi) (code.getD 0)).1).setReg
    .rsi (k.arguments v (m₀.reg .rsi) (code.getD 0)).2, ?_, ?_, ?_, ?_, ?_, ?_, ?_⟩
  · simpa using hcalled.stack
  · exact hgs.1
  · exact hgs.2
  · simpa using hcalled.critical
  · simp
  · simp
  · rw [hrun, hcalled.isrs_eq hseg hfunctions hcode hk, IsrKernel.handle]
    cases k.handler v with
    | some f =>
      simp only [IsrKernel.call, ← hd]
      cases k.functions f _ with
      | error e => rfl
      | ok m₂ => simp [Except.map]
    | none =>
      simp only
      split_ifs <;> simp [Except.map]

/-- An NMI in the kernel, where it has not switched to its segment yet. -/
theorem Isrs.interrupt_dispatch_nmi :
    let t : Isrs := ⟨0x1000, 0x2000, 0x3000, 0x4000, 0x1030, 0x2030⟩
    let k : IsrKernel String := ⟨Irt.set {} 0x2 0x5000, 0, 0, fun _ m => .ok m, id, ""⟩
    let m : Machine := ⟨⟨0x8, 0, 0, 0x7000, 0, 0, 0, 0⟩, fun _ => 0x80000, 0x200000, 0x2,
      (t.table 0x100000 [(0x2, 1)]).memory⟩
    ∃ m₁ : Machine, m₁.gsBase = 0x7000 ∧ interrupt (k.isrs t) t.text ⟨0x80000, fun _ => 0x80000⟩
      0x100000 0x2 none m = .ok { m with mem := m₁.mem } := by
  intro t k m
  obtain ⟨stack, m₁, -, hgs, -, -, -, -, hrun⟩ := interrupt_dispatch ⟨0x80000, fun _ => 0x80000⟩ none
    (k := k) (m := m) (v := 0x2) (t := t) (by decide) (by decide) (Idt.loaded_memory _)
    (by rw [Idt.Apart, (t.table_leads _ _).1, entryStack]; split_ifs <;> decide) rfl (by decide)
    (fun _ m m' h => by obtain rfl := Except.ok.inj h; exact ⟨.refl, id⟩)
    ⟨by decide, .inr ⟨rfl, rfl⟩, fun h => absurd rfl h⟩
  exact ⟨m₁, hgs, hrun⟩

end

end

end Anarch
