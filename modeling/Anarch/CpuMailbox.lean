import Anarch.TransitionRun
import Mathlib.Logic.Function.Basic

/-! The mailbox of one CPU: `RunAsync` of any number of senders against `HandleWakeup`, each
taking its shared accesses one at a time, in any interleaving. -/
namespace Anarch.Cpu
open TransitionRun

/-- The arguments of a call of `RunAsync`; a null function is `none`. -/
structure Message (Func Arg : Type) where
  func : Option Func
  arg : Arg
  deriving DecidableEq, Repr

/-- A field of the CPU object, and which call of `RunAsync` stored it last. -/
structure Field (β : Type) where
  value : β
  writer : Option ℕ
  deriving DecidableEq, Repr

/-- The next step of a call of `RunAsync`. -/
inductive SendStep
  | seize
  | storeFunction
  | storeArg
  | release
  | sendIpi
  deriving DecidableEq, Repr

inductive Sender (Func Arg : Type)
  | idle
  | running (next : SendStep) (id : ℕ) (m : Message Func Arg)
  deriving DecidableEq, Repr

/-- The next step of `HandleWakeup`, and what it has loaded so far. -/
inductive Handler (Func Arg : Type)
  | idle
  | sendEoi
  | seize
  | loadFunction
  | loadArg (func : Field (Option Func))
  | clearFunction (func : Field (Option Func)) (arg : Field Arg)
  | release (func : Field (Option Func)) (arg : Field Arg)
  | call (func : Field (Option Func)) (arg : Field Arg)
  deriving DecidableEq, Repr

inductive Owner (ι : Type)
  | sender (i : ι)
  | handler
  deriving DecidableEq, Repr

/-- `wakeupLock`, `wakeupFunction` and `wakeupArg`, the pending wakeup interrupt, the senders
and the handler, with the calls of `RunAsync` and of stored functions so far. -/
structure State (ι Func Arg : Type) where
  lock : Option (Owner ι)
  wakeupFunction : Field (Option Func)
  wakeupArg : Field Arg
  pending : Bool
  senders : ι → Sender Func Arg
  handler : Handler Func Arg
  sent : List (Message Func Arg)
  called : List (Field Func × Field Arg)

inductive Action (ι Func Arg : Type)
  | runAsync (i : ι) (m : Message Func Arg)
  | send (i : ι)
  | deliver
  | handle

section
variable {ι Func Arg : Type}

/-- The next step of `HandleWakeup`. What the function does is outside of the mailbox, and it
may let interrupts in again. -/
def handle (s : State ι Func Arg) : Option (State ι Func Arg) :=
  match s.handler with
  | .idle => none
  | .sendEoi => some { s with handler := .seize }
  | .seize =>
      if s.lock = none then some { s with lock := some .handler, handler := .loadFunction }
      else none
  | .loadFunction => some { s with handler := .loadArg s.wakeupFunction }
  | .loadArg func => some { s with handler := .clearFunction func s.wakeupArg }
  | .clearFunction func arg =>
      some { s with wakeupFunction := ⟨none, none⟩, handler := .release func arg }
  | .release func arg => some { s with lock := none, handler := .call func arg }
  | .call func arg =>
      match func.value with
      | none => some { s with handler := .idle }
      | some f =>
          some { s with handler := .idle, called := (⟨f, func.writer⟩, arg) :: s.called }

section
variable [DecidableEq ι]

def State.goto (s : State ι Func Arg) (i : ι) (x : Sender Func Arg) : State ι Func Arg :=
  { s with senders := Function.update s.senders i x }

/-- The next step of the call of `RunAsync` that sender `i` is in. -/
def send (s : State ι Func Arg) (i : ι) : Option (State ι Func Arg) :=
  match s.senders i with
  | .idle => none
  | .running .seize id m =>
      if s.lock = none then
        some { s.goto i (.running .storeFunction id m) with lock := some (.sender i) }
      else none
  | .running .storeFunction id m =>
      some { s.goto i (.running .storeArg id m) with wakeupFunction := ⟨m.func, some id⟩ }
  | .running .storeArg id m =>
      some { s.goto i (.running .release id m) with wakeupArg := ⟨m.arg, some id⟩ }
  | .running .release id m => some { s.goto i (.running .sendIpi id m) with lock := none }
  | .running .sendIpi _ _ => some { s.goto i .idle with pending := true }

def step (s : State ι Func Arg) : Action ι Func Arg → Option (State ι Func Arg)
  | .runAsync i m =>
      match s.senders i with
      | .idle =>
          some { s.goto i (.running .seize s.sent.length m) with sent := s.sent ++ [m] }
      | _ => none
  | .send i => send s i
  | .deliver =>
      match s.handler with
      | .idle => if s.pending then some { s with pending := false, handler := .sendEoi } else none
      | _ => none
  | .handle => handle s

/-- No call has begun and no wakeup is pending. The fields are not initialized. -/
def system (ι Func Arg : Type) [DecidableEq ι] : System (State ι Func Arg) (Action ι Func Arg) where
  start s := s.lock = none ∧ s.wakeupFunction.writer = none ∧ s.wakeupArg.writer = none ∧
    s.pending = false ∧ (∀ i, s.senders i = .idle) ∧ s.handler = .idle ∧ s.sent = [] ∧
    s.called = []
  step s a t := step s a = some t

end

/-- Each function was stored together with its argument, by one call of `RunAsync`. -/
def Together (s : State ι Func Arg) : Prop :=
  ∀ c ∈ s.called, ∃ id, c.1.writer = some id ∧ c.2.writer = some id ∧
    s.sent[id]? = some ⟨some c.1.value, c.2.value⟩

/-- No two functions called were stored by the same call of `RunAsync`. -/
def Once (s : State ι Func Arg) : Prop := (s.called.map (·.1.writer)).Nodup

/-- A handler run has started and has not taken the lock. -/
def Handler.approaching : Handler Func Arg → Bool
  | .sendEoi | .seize => true
  | _ => false

/-- A sender is between its store and its `SendIpi`. -/
def Sender.stored : Sender Func Arg → Bool
  | .running .storeArg _ _ | .running .release _ _ | .running .sendIpi _ _ => true
  | _ => false

/-- A pair is stored and not taken. It is taken when the handler gets the lock: from then on
no one else reaches the fields until the handler has loaded and cleared them. -/
def Untaken (s : State ι Func Arg) : Prop :=
  s.wakeupFunction.writer ≠ none ∧ s.lock ≠ some .handler

/-- As long as a stored pair is not taken, a handler run is due. -/
def NotStranded (s : State ι Func Arg) : Prop :=
  Untaken s →
    s.pending = true ∨ s.handler.approaching = true ∨ ∃ i, (s.senders i).stored = true

end

end Anarch.Cpu
