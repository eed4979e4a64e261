import Anarch.ApiTypes
import Mathlib.Logic.Function.Basic

/-! The local APIC of a CPU and its two drivers, over memory-mapped registers and over model
specific registers. All calls are made in a critical section, as the drivers assert. -/
namespace Anarch.Lapic

/-- A failed assertion, a general protection fault, or an access to memory that is not the APIC. -/
inductive Stop
  | assertion (expr : String)
  | generalProtection
  | notTheApic
  deriving DecidableEq, Repr

/-- An interrupt that was sent: the destination and the low word of the command. -/
structure Ipi where
  dest : BitVec 32
  command : BitVec 32
  deriving DecidableEq, Repr

/-- The APIC of a CPU: its base register, whether it can be an x2APIC, and its registers. -/
structure Device where
  base : Word
  x2apic : Bool
  id : BitVec 32
  regs : BitVec 16 → BitVec 32
  icrHigh : BitVec 32
  irr : BitVec 256
  isr : BitVec 256
  ipis : List Ipi

def regApicId : BitVec 16 := 0x2
def regApicVer : BitVec 16 := 0x3
def regTaskPriority : BitVec 16 := 0x8
def regEoi : BitVec 16 := 0xb
def regSpurious : BitVec 16 := 0xf
def regEsr : BitVec 16 := 0x28
def regIcr : BitVec 16 := 0x30
def regLvtTimer : BitVec 16 := 0x32
def regLvtPerf : BitVec 16 := 0x34
def regLvtLint0 : BitVec 16 := 0x35
def regLvtLint1 : BitVec 16 := 0x36
def regLvtError : BitVec 16 := 0x37
def regTimerInitCount : BitVec 16 := 0x38
def regTimerCurrCount : BitVec 16 := 0x39
def regTimerDiv : BitVec 16 := 0x3e

namespace Device

/-- Bits 11 and 10 of the base register: the APIC is on, and it is an x2APIC. -/
def enabled (d : Device) : Bool := d.base.getLsbD 11
def extended (d : Device) : Bool := d.base.getLsbD 10

/-- What the hardware takes for the base register: no reserved bits, no x2APIC where there is
none, and none straight from an APIC that is off or back to an xAPIC. -/
def Accepts (d : Device) (value : Word) : Prop :=
  value &&& 0x2ff = 0 ∧ (value.getLsbD 10 = true → value.getLsbD 11 = true ∧ d.x2apic = true) ∧
    (value.getLsbD 10 = true → d.enabled = true) ∧
    (d.extended = true → value.getLsbD 11 = true → value.getLsbD 10 = true)

instance (d : Device) (value : Word) : Decidable (d.Accepts value) :=
  inferInstanceAs (Decidable (_ ∧ _ ∧ _ ∧ _))

/-- The bits that a register takes in an x2APIC, where it takes a write. The others are
reserved. -/
def writable (i : BitVec 16) : Option (BitVec 32) :=
  if i = regTaskPriority then some 0xff
  else if i = regEoi ∨ i = regEsr then some 0
  else if i = regSpurious then some 0x13ff
  else if i = regIcr then some 0xccfff
  else if i = regLvtTimer then some 0x700ff
  else if i = regLvtPerf then some 0x107ff
  else if i = regLvtLint0 ∨ i = regLvtLint1 then some 0x1a7ff
  else if i = regLvtError then some 0x100ff
  else if i = regTimerInitCount then some 0xffffffff
  else if i = regTimerDiv then some 0xb
  else none

def takes (i : BitVec 16) (value : BitVec 32) : Bool :=
  (writable i).any fun mask => value &&& ~~~mask = 0

/-- The registers that can be read in an x2APIC: all but that of the EOI. -/
def readable (i : BitVec 16) : Bool :=
  0x10 ≤ i && i < 0x28 || i ≠ regEoi && (writable i).isSome ||
    i = regApicId || i = regApicVer || i = regTimerCurrCount

/-- The highest bit that is set, cleared. -/
def endOfInterrupt (isr : BitVec 256) : BitVec 256 :=
  match (List.range 256).reverse.find? isr.getLsbD with
  | none => isr
  | some i => isr &&& ~~~(1#256 <<< i)

/-- A register, where the APIC is not the command register. -/
def read (i : BitVec 16) (d : Device) : BitVec 32 :=
  if i = regApicId then d.id
  else if 0x10 ≤ i ∧ i < 0x18 then d.isr.extractLsb' ((i - 0x10).toNat * 32) 32
  else if 0x20 ≤ i ∧ i < 0x28 then d.irr.extractLsb' ((i - 0x20).toNat * 32) 32
  else d.regs i

def write (i : BitVec 16) (value : BitVec 32) (d : Device) : Device :=
  if i = regEoi then { d with isr := endOfInterrupt d.isr }
  else if i = regTimerInitCount then
    { d with regs := Function.update (Function.update d.regs i value) regTimerCurrCount value }
  else { d with regs := Function.update d.regs i value }

/-- The command register: its low word sends. -/
def send (dest command : BitVec 32) (d : Device) : Device :=
  { d with
    regs := Function.update d.regs regIcr command
    ipis := ⟨dest, command⟩ :: d.ipis }

/-- A 32-bit access at an offset into the page of registers, which is there for an xAPIC. -/
def load (offset : Word) (d : Device) : Except Stop (BitVec 32) :=
  if d.enabled && !d.extended then
    let i := (offset >>> 4).setWidth 16
    .ok (if i = regApicId then d.id <<< 24 else if i = regIcr + 1 then d.icrHigh else d.read i)
  else .error .notTheApic

def store (offset : Word) (value : BitVec 32) (d : Device) : Except Stop Device :=
  if d.enabled && !d.extended then
    let i := (offset >>> 4).setWidth 16
    .ok (if i = regIcr then d.send (d.icrHigh >>> 24) value
      else if i = regIcr + 1 then { d with icrHigh := value }
      else d.write i value)
  else .error .notTheApic

/-- `rdmsr`, which gives two halves. -/
def rdmsr (cell : BitVec 32) (d : Device) : Except Stop (BitVec 32 × BitVec 32) :=
  if cell = 0x1b then .ok (d.base.extractLsb' 32 32, d.base.extractLsb' 0 32)
  else if d.enabled && d.extended && 0x800 ≤ cell && cell < 0x900 then
    let i := (cell - 0x800).setWidth 16
    if !readable i then .error .generalProtection
    else if i = regIcr then .ok (d.icrHigh, d.read i)
    else .ok (0, d.read i)
  else .error .generalProtection

def wrmsr (cell high low : BitVec 32) (d : Device) : Except Stop Device :=
  if cell = 0x1b then
    if d.Accepts (high ++ low) then .ok { d with base := high ++ low }
    else .error .generalProtection
  else if d.enabled && d.extended && 0x800 ≤ cell && cell < 0x900 then
    let i := (cell - 0x800).setWidth 16
    if !takes i low then .error .generalProtection
    else if i = regIcr then .ok (({ d with icrHigh := high }).send high low)
    else if high = 0 then .ok (d.write i low)
    else .error .generalProtection
  else .error .generalProtection

end Device

def readMsr (cell : BitVec 32) (d : Device) : Except Stop Word := do
  let (higher, lower) ← d.rdmsr cell
  return higher.setWidth 64 <<< 0x20 ||| lower.setWidth 64

def writeMsr (cell : BitVec 32) (value : Word) (d : Device) : Except Stop Device :=
  let lower := value &&& 0xffffffff
  let higher := value >>> 0x20
  d.wrmsr cell (higher.setWidth 32) (lower.setWidth 32)

/-- The virtual functions of `Lapic` that the drivers define. -/
structure Driver where
  enable : Device → Except Stop Device
  getId : Device → Except Stop (BitVec 32)
  sendIpi : (cpu : BitVec 32) → (vector mode level trigger : BitVec 8) → Device →
    Except Stop Device
  readReg : BitVec 16 → Device → Except Stop Word
  writeReg : BitVec 16 → Word → Device → Except Stop Device

namespace XApic

/-- `regs[reg * 4]`, as an offset in bytes. -/
def offset (reg : BitVec 16) : Word := reg.setWidth 64 * 4 * 4

def readReg (reg : BitVec 16) (d : Device) : Except Stop Word :=
  if reg ≠ regIcr then do
    let value ← d.load (offset reg)
    return value.setWidth 64
  else do
    let lower ← d.load (offset reg)
    let higher ← d.load (offset (reg + 1))
    return lower.setWidth 64 ||| higher.setWidth 64 <<< 0x20

def writeReg (reg : BitVec 16) (value : Word) (d : Device) : Except Stop Device :=
  if reg ≠ regIcr then
    if value &&& 0xFFFFFFFF00000000 = 0 then d.store (offset reg) (value.setWidth 32)
    else .error (.assertion "!(value & 0xFFFFFFFF00000000UL)")
  else do
    let d ← d.store (offset (reg + 1)) ((value >>> 0x20).setWidth 32)
    d.store (offset reg) ((value &&& 0xFFFFFFFF).setWidth 32)

def enable (base : PhysAddr) (d : Device) : Except Stop Device := do
  let flags := (← readMsr 0x1b d) &&& 0xf00
  let flags := flags ||| 1 <<< 11
  writeMsr 0x1b (base ||| flags) d

def getId (d : Device) : Except Stop (BitVec 32) := do
  return ((← readReg regApicId d) >>> 0x18).setWidth 32

def sendIpi (cpu : BitVec 32) (vector mode level trigger : BitVec 8) (d : Device) :
    Except Stop Device :=
  let value : Word := vector.setWidth 64 ||| mode.setWidth 64 <<< 8
  let value := value ||| (level.setWidth 64 <<< 0xe ||| trigger.setWidth 64 <<< 0xf)
  let value := value ||| cpu.setWidth 64 <<< 0x38
  writeReg regIcr value d

def driver (base : PhysAddr) : Driver := ⟨enable base, getId, sendIpi, readReg, writeReg⟩

end XApic

namespace X2Apic

def readReg (reg : BitVec 16) (d : Device) : Except Stop Word :=
  readMsr (reg.setWidth 32 + 0x800) d

def writeReg (reg : BitVec 16) (value : Word) (d : Device) : Except Stop Device :=
  writeMsr (reg.setWidth 32 + 0x800) value d

def enable (d : Device) : Except Stop Device := do
  let flags := (← readMsr 0x1b d) &&& 0xf00
  let flags := flags ||| 3 <<< 10
  writeMsr 0x1b flags d

def getId (d : Device) : Except Stop (BitVec 32) := do
  return (← readReg regApicId d).setWidth 32

def sendIpi (cpu : BitVec 32) (vector mode level trigger : BitVec 8) (d : Device) :
    Except Stop Device :=
  let value : Word := vector.setWidth 64 ||| mode.setWidth 64 <<< 8
  let value := value ||| (level.setWidth 64 <<< 0xe ||| trigger.setWidth 64 <<< 0xf)
  let value := value ||| cpu.setWidth 64 <<< 0x20
  writeReg regIcr value d

def driver : Driver := ⟨enable, getId, sendIpi, readReg, writeReg⟩

end X2Apic

section
variable (L : Driver)

def setDefaults (d : Device) : Except Stop Device := do
  let d ← L.writeReg regTaskPriority 0x0 d
  let d ← L.writeReg regLvtTimer 0x10000 d
  let d ← L.writeReg regLvtPerf 0x10000 d
  let d ← L.writeReg regLvtLint0 0x8700 d
  let d ← L.writeReg regLvtLint1 0x400 d
  let d ← L.writeReg regLvtError 0x10000 d
  let d ← L.writeReg regSpurious 0x1ff d
  let d ← L.writeReg regLvtLint0 0x8700 d
  let d ← L.writeReg regLvtLint1 0x400 d
  L.writeReg regTimerDiv 0x3 d

def clearErrors : Device → Except Stop Device := L.writeReg regEsr 0

def sendEoi : Device → Except Stop Device := L.writeReg regEoi 0

def setPriority (vector : BitVec 8) : Device → Except Stop Device :=
  L.writeReg regTaskPriority (vector.setWidth 64)

/-- Whether the bit of a vector is set in the registers from an index on. -/
def hasBit (first : BitVec 16) (vector : BitVec 8) (d : Device) : Except Stop Bool := do
  let regIndex := first + (vector >>> 5).setWidth 16
  let mask : BitVec 32 := 1 <<< (vector &&& 0x1f).toNat
  return (← L.readReg regIndex d) &&& mask.setWidth 64 ≠ 0

def isRequested : BitVec 8 → Device → Except Stop Bool := hasBit L 0x20

def isInService : BitVec 8 → Device → Except Stop Bool := hasBit L 0x10

def setTimeout (vector : BitVec 8) (ticks : BitVec 32) (d : Device) : Except Stop Device := do
  let timerField : BitVec 32 := vector.setWidth 32
  let d ← L.writeReg regLvtTimer (timerField.setWidth 64) d
  L.writeReg regTimerInitCount (ticks.setWidth 64) d

def clearTimeout : Device → Except Stop Device := L.writeReg regLvtTimer 0x10000

def isTimerRunning (d : Device) : Except Stop Bool := do
  if (← L.readReg regLvtTimer d) &&& 0x10000 ≠ 0 then return false
  return (← L.readReg regTimerCurrCount d) ≠ 0

end

/-- The registers of `CPUID` leaf 1 that hold feature bits. -/
structure Features where
  edx : BitVec 32
  ecx : BitVec 32

/-- `GetLapic`, which passes its variable in the place of `edx` to `CpuID`. -/
def getLapic (features : Features) (lapicAddr : BitVec 32) : Driver :=
  if features.edx &&& 1 <<< 21 ≠ 0 then X2Apic.driver
  else XApic.driver (lapicAddr.setWidth 64)

/-- What each CPU does with its APIC first. -/
def start (L : Driver) (d : Device) : Except Stop Device := do
  let d ← L.enable d
  setDefaults L d

/-- What a CPU asks of its APIC, and what happens to the APIC meanwhile. -/
inductive Op
  | setDefaults
  | clearErrors
  | sendEoi
  | setPriority (vector : BitVec 8)
  | setTimeout (vector : BitVec 8) (ticks : BitVec 32)
  | clearTimeout
  | sendIpi (cpu : BitVec 32) (vector mode level trigger : BitVec 8)
  | isRequested (vector : BitVec 8)
  | isInService (vector : BitVec 8)
  | isTimerRunning
  | getId
  | readReg (reg : BitVec 16)
  | writeReg (reg : BitVec 16) (value : Word)
  /-- An interrupt arrives. -/
  | request (vector : BitVec 8)
  /-- The CPU takes it. -/
  | accept (vector : BitVec 8)
  /-- The timer counts down. -/
  | tick
  deriving DecidableEq, Repr

inductive Answer
  | nothing
  | flag (b : Bool)
  | id (n : BitVec 32)
  | value (w : Word)
  deriving DecidableEq, Repr

namespace Device

def request (vector : BitVec 8) (d : Device) : Device :=
  { d with irr := d.irr ||| 1#256 <<< vector.toNat }

def accept (vector : BitVec 8) (d : Device) : Device :=
  { d with
    irr := d.irr &&& ~~~(1#256 <<< vector.toNat)
    isr := d.isr ||| 1#256 <<< vector.toNat }

def countDown (d : Device) : Device :=
  { d with
    regs := Function.update d.regs regTimerCurrCount (d.regs regTimerCurrCount - 1) }

/-- The timer counts down to 0, where it requests its interrupt unless it is masked. -/
def tick (d : Device) : Device :=
  if d.regs regTimerCurrCount = 0 then d
  else if d.countDown.regs regTimerCurrCount = 0 ∧ d.regs regLvtTimer &&& 0x10000 = 0 then
    d.countDown.request ((d.regs regLvtTimer).setWidth 8)
  else d.countDown

end Device

def perform (L : Driver) (d : Device) : Op → Except Stop (Answer × Device)
  | .setDefaults => return (.nothing, ← setDefaults L d)
  | .clearErrors => return (.nothing, ← clearErrors L d)
  | .sendEoi => return (.nothing, ← sendEoi L d)
  | .setPriority vector => return (.nothing, ← setPriority L vector d)
  | .setTimeout vector ticks => return (.nothing, ← setTimeout L vector ticks d)
  | .clearTimeout => return (.nothing, ← clearTimeout L d)
  | .sendIpi cpu vector mode level trigger =>
      return (.nothing, ← L.sendIpi cpu vector mode level trigger d)
  | .isRequested vector => return (.flag (← isRequested L vector d), d)
  | .isInService vector => return (.flag (← isInService L vector d), d)
  | .isTimerRunning => return (.flag (← isTimerRunning L d), d)
  | .getId => return (.id (← L.getId d), d)
  | .readReg reg => return (.value (← L.readReg reg d), d)
  | .writeReg reg value => return (.nothing, ← L.writeReg reg value d)
  | .request vector => return (.nothing, d.request vector)
  | .accept vector => return (.nothing, d.accept vector)
  | .tick => return (.nothing, d.tick)

/-- A list of operations, with all answers. -/
def runOps (L : Driver) : List Op → Device → Except Stop (List Answer × Device)
  | [], d => return ([], d)
  | op :: ops, d => do
      let (answer, d) ← perform L d op
      let (answers, d) ← runOps L ops d
      return (answer :: answers, d)

end Anarch.Lapic
