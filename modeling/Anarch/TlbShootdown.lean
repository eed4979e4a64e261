import Anarch.TlbInvalidate
import Anarch.TransitionRun
import Mathlib.Logic.Function.Basic

/-! The initialized `Tlb` module on a fixed number of CPUs: every call, interrupt handler
and address-space switch takes its shared accesses one at a time, in any interleaving. -/
namespace Anarch.Tlb
open PageTable TransitionRun

/-- One call of `DistributeInvlpg(start, size)`. -/
structure Request (n : ℕ) where
  caller : Fin n
  start : VirtAddr
  size : Word
  began : ℕ
  deriving DecidableEq

/-- A translation cached in a TLB: the map it came from, and when it was cached. -/
structure Entry (Map : Type) where
  map : Map
  page : VirtAddr
  cachedAt : ℕ

/-- Pages of the kernel are mapped with the global flag, pages of a user map without. -/
def Entry.isUser {Map : Type} (e : Entry Map) : Prop := kernelEnd ≤ e.page

instance {Map : Type} (e : Entry Map) : Decidable e.isUser :=
  inferInstanceAs (Decidable (_ ≤ _))

/-- A run of `Invlpgs(start, size)`. -/
structure Flush where
  start : VirtAddr
  size : Word
  time : ℕ

/-- The next step of a call of `DistributeInvlpg`. -/
inductive Phase
  | idle
  | seizing
  | entering
  | flushing
  | choosing
  | storeAddress
  | storeSize
  | resetCount
  | scanning
  | sending
  | counting
  | waiting
  | leaving
  | releasing
  | returning
  deriving DecidableEq, Repr

/-- The local variables of a call: `map` is `none` in `DistributeKernel`, `rest` are the
CPUs still to be looked at, and `checked` records when each one was. -/
structure Call (n : ℕ) (Map : Type) where
  phase : Phase
  request : Request n
  map : Option Map
  rest : List (Fin n)
  checked : Fin n → ℕ

/-- The next step of `HandleNotification`. -/
inductive HandlerStep
  | readAddress
  | readSize
  | flush
  | decrement
  | sendEoi
  deriving DecidableEq, Repr

/-- The next step of a switch: `WillSetAddressSpace`, the CR3 load, the end. -/
inductive SwitchStep
  | willSet
  | loadCr3
  | leave
  deriving DecidableEq, Repr

/-- The critical section a CPU is in, apart from that of its own call. A handler is tagged
with the request its IPI was sent for. -/
inductive Section (n : ℕ) (Map : Type)
  | outside
  | handling (next : HandlerStep) (request : Request n) (address : VirtAddr) (size : Word)
  | switching (next : SwitchStep) (map : Map)

structure Cpu (n : ℕ) (Map : Type) where
  call : Call n Map
  crit : Section n Map
  currentMap : Map
  cr3 : Map
  tlb : List (Entry Map)
  pending : List (Request n)
  flushes : List Flush
  enteredAt : ℕ

structure State (n : ℕ) (Map : Type) where
  cpu : Fin n → Cpu n Map
  lock : Option (Fin n)
  invlAddress : VirtAddr
  invlSize : Word
  ipiCount : ℤ
  now : ℕ

inductive Action (Map : Type)
  | call (start : VirtAddr) (size : Word)
  | advance
  | deliver
  | handle
  | switch (map : Map)
  | change
  | cache (page : VirtAddr)
  | evict (i : ℕ)

/-- The steps of a call between `ScopedCritical` and its destructor. -/
def Phase.critical : Phase → Bool
  | .idle | .seizing | .entering | .releasing | .returning => false
  | _ => true

section
variable {n : ℕ} {Map : Type}

def Section.isOutside : Section n Map → Bool
  | .outside => true
  | _ => false

/-- Interrupts are on, and a switch can start. -/
def Cpu.noncritical (x : Cpu n Map) : Bool := x.crit.isOutside && !x.call.phase.critical

def State.set (s : State n Map) (c : Fin n) (x : Cpu n Map) : State n Map :=
  { s with cpu := Function.update s.cpu c x, now := s.now + 1 }

def Cpu.goto (x : Cpu n Map) (phase : Phase) : Cpu n Map :=
  { x with call := { x.call with phase } }

/-- Whether an instruction of `Invlpgs` leaves an entry in the TLB. Every write of CR4 there
changes `CR4.PGE`. -/
def Entry.survives (e : Entry Map) : TlbInvalidate.Instr → Bool
  | .invlpg addr => addr >>> 12 ≠ e.page >>> 12
  | .storeCr4 => false
  | .storeCr3 => ¬ e.isUser
  | .loadCr4 | .xorRax _ | .orRax _ | .loadCr3 => true

/-- `Invlpgs`, which is recorded. It may drop more than these entries, see `evict`. A loop that
takes more than 0x201 rounds has wrapped around and never ends. -/
def Cpu.invlpgs (x : Cpu n Map) (start : VirtAddr) (size : Word) (now : ℕ) : Cpu n Map :=
  let instrs := (TlbInvalidate.invlpgs 0x201 start size).getD []
  { x with
    tlb := x.tlb.filter fun e => instrs.all e.survives
    flushes := ⟨start, size, now⟩ :: x.flushes }

variable [DecidableEq Map]

/-- Whether the scan sends an IPI to a CPU with this `currentMap`. -/
def asks (map : Option Map) (currentMap : Map) : Bool :=
  match map with
  | none => true
  | some m => currentMap = m

/-- The next step of the call on a CPU, given the CPUs in the order of the loops over
domains and threads. -/
def advance (cpus : List (Fin n)) (s : State n Map) (c : Fin n) : Option (State n Map) :=
  let x := s.cpu c
  let request := x.call.request
  if !x.crit.isOutside then none
  else
    match x.call.phase with
    | .idle => none
    | .seizing =>
        if s.lock = none then some { s.set c (x.goto .entering) with lock := some c } else none
    | .entering => some (s.set c (x.goto .flushing))
    | .flushing =>
        some (s.set c ((x.invlpgs request.start request.size s.now).goto .choosing))
    | .choosing =>
        let map := if request.start < kernelEnd then none else some x.currentMap
        some (s.set c { x with call := { x.call with map, phase := .storeAddress } })
    | .storeAddress =>
        some { s.set c (x.goto .storeSize) with invlAddress := request.start }
    | .storeSize => some { s.set c (x.goto .resetCount) with invlSize := request.size }
    | .resetCount =>
        some { s.set c { x with call := { x.call with rest := cpus, phase := .scanning } } with
          ipiCount := 0 }
    | .scanning =>
        match x.call.rest with
        | [] => some (s.set c (x.goto .waiting))
        | d :: rest =>
            let call := { x.call with checked := Function.update x.call.checked d s.now }
            if asks call.map (s.cpu d).currentMap && d ≠ c then
              some (s.set c { x with call := { call with phase := .sending } })
            else some (s.set c { x with call := { call with rest } })
    | .sending =>
        match x.call.rest with
        | [] => none
        | d :: rest =>
            let y := { s.cpu d with pending := (s.cpu d).pending ++ [request] }
            some ((s.set d y).set c { x with call := { x.call with rest, phase := .counting } })
    | .counting => some { s.set c (x.goto .scanning) with ipiCount := s.ipiCount + 1 }
    | .waiting => some (s.set c (if s.ipiCount = 0 then x.goto .leaving else x))
    | .leaving => some (s.set c (x.goto .releasing))
    | .releasing => some { s.set c (x.goto .returning) with lock := none }
    | .returning => some (s.set c (x.goto .idle))

/-- The next step of `HandleNotification` on a CPU. -/
def handle (s : State n Map) (c : Fin n) : Option (State n Map) :=
  let x := s.cpu c
  match x.crit with
  | .handling .readAddress r _ size =>
      some (s.set c { x with crit := .handling .readSize r s.invlAddress size })
  | .handling .readSize r address _ =>
      some (s.set c { x with crit := .handling .flush r address s.invlSize })
  | .handling .flush r address size =>
      some (s.set c
        { x.invlpgs address size s.now with crit := .handling .decrement r address size })
  | .handling .decrement r address size =>
      some { s.set c { x with crit := .handling .sendEoi r address size } with
        ipiCount := s.ipiCount - 1 }
  | .handling .sendEoi _ _ _ => some (s.set c { x with crit := .outside })
  | _ => none

/-- The next step of an address-space switch on a CPU. -/
def change (s : State n Map) (c : Fin n) : Option (State n Map) :=
  let x := s.cpu c
  match x.crit with
  | .switching .willSet map =>
      some (s.set c
        { x with currentMap := map, enteredAt := s.now, crit := .switching .loadCr3 map })
  | .switching .loadCr3 map =>
      some (s.set c
        { x with
          cr3 := map
          tlb := x.tlb.filter fun e => ¬ e.isUser
          crit := .switching .leave map })
  | .switching .leave _ => some (s.set c { x with crit := .outside })
  | _ => none

def step (cpus : List (Fin n)) (s : State n Map) (c : Fin n) :
    Action Map → Option (State n Map)
  | .call start size =>
      let x := s.cpu c
      if x.call.phase = .idle ∧ x.crit.isOutside then
        some (s.set c
          { x with call := { x.call with phase := .seizing, request := ⟨c, start, size, s.now⟩ } })
      else none
  | .advance => advance cpus s c
  | .deliver =>
      let x := s.cpu c
      match x.pending with
      | [] => none
      | r :: pending =>
          if x.noncritical then
            some (s.set c { x with pending, crit := .handling .readAddress r 0 0 })
          else none
  | .handle => handle s c
  | .switch map =>
      let x := s.cpu c
      if x.noncritical then some (s.set c { x with crit := .switching .willSet map }) else none
  | .change => change s c
  | .cache page =>
      let x := s.cpu c
      some (s.set c { x with tlb := ⟨x.cr3, page, s.now⟩ :: x.tlb })
  | .evict i =>
      let x := s.cpu c
      some (s.set c { x with tlb := x.tlb.eraseIdx i })

/-- Initially no call runs, no IPI is pending, nothing recorded lies in the future, and
every CPU has loaded the map that its `currentMap` says, with nothing cached from any
other user map. -/
structure Cpu.Initial (now : ℕ) (x : Cpu n Map) : Prop where
  idle : x.call.phase = .idle
  outside : x.crit = .outside
  loaded : x.cr3 = x.currentMap
  cached : ∀ e ∈ x.tlb, (e.isUser → e.map = x.cr3) ∧ e.cachedAt < now
  pending : x.pending = []
  flushes : x.flushes = []
  entered : x.enteredAt < now

def system (cpus : List (Fin n)) : System (State n Map) (Fin n × Action Map) where
  start s := s.lock = none ∧ ∀ c, (s.cpu c).Initial s.now
  step s a t := step cpus s a.1 a.2 = some t

end

end Anarch.Tlb
