import Anarch.ApiTypes
import Anarch.TransitionRun

/-! The LAPIC timer of one CPU: `SetTimeout`, `ClearTimeout` and `GeneralTimerCallback` take
their register accesses one at a time, the count runs down between any two of them, and the
interrupt is delivered outside critical sections. -/
namespace Anarch.LapicTimer
open TransitionRun

/-- `IntVectors::LapicTimer`. -/
def vector : BitVec 8 := 0x21

/-- The next step of `LapicTimer::SetTimeout`. -/
inductive SetStep
  | writeLvtTimer
  | writeInitCount
  | storeExpecting
  | storeFunction
  | storeArg
  deriving DecidableEq, Repr

/-- The next step of `LapicTimer::ClearTimeout`. -/
inductive ClearStep
  | writeLvtTimer
  | storeExpecting
  deriving DecidableEq, Repr

/-- The next step of `GeneralTimerCallback`. The EOIs are those of its three branches. -/
inductive CallbackStep
  | loadExpecting
  | sendEoiUnexpected
  | readLvtTimer
  | readCurrCount
  | sendEoiRunning
  | readInService
  | readRequested
  | sendEoi
  | clearExpecting
  | call
  deriving DecidableEq, Repr

/-- What the CPU executes. A callback that was called is ordinary critical code. -/
inductive Code (Func Arg : Type)
  | noncritical
  | critical
  | setTimeout (next : SetStep) (ticks : BitVec 32) (func : Func) (arg : Arg)
  | clearTimeout (next : ClearStep)
  | callback (next : CallbackStep)
  deriving DecidableEq, Repr

/-- The timer registers, the request and in-service bits of the vector, the fields of the
`LapicTimer`, and the code. -/
structure State (Func Arg : Type) where
  lvtTimer : BitVec 32
  currCount : BitVec 32
  requested : Bool
  inService : Bool
  isExpecting : Bool
  callbackFunction : Func
  callbackArg : Arg
  code : Code Func Arg
  deriving DecidableEq, Repr

inductive Action (Func Arg : Type)
  | enter
  | leave
  | setTimeout (ticks : Word) (func : Func) (arg : Arg)
  | clearTimeout
  | advance
  | tick
  | deliver

section
variable {Func Arg : Type}

def State.masked (s : State Func Arg) : Bool := s.lvtTimer &&& 0x10000 ≠ 0

/-- `Lapic::IsTimerRunning`. -/
def State.isTimerRunning (s : State Func Arg) : Bool := !s.masked && s.currCount ≠ 0

/-- The next step of the function that the CPU is in. -/
def advance (s : State Func Arg) : Option (State Func Arg) :=
  match s.code with
  | .noncritical => none
  | .critical => none
  | .setTimeout .writeLvtTimer ticks func arg =>
      some { s with
        lvtTimer := vector.setWidth 32
        code := .setTimeout .writeInitCount ticks func arg }
  | .setTimeout .writeInitCount ticks func arg =>
      some { s with currCount := ticks, code := .setTimeout .storeExpecting ticks func arg }
  | .setTimeout .storeExpecting ticks func arg =>
      some { s with isExpecting := true, code := .setTimeout .storeFunction ticks func arg }
  | .setTimeout .storeFunction ticks func arg =>
      some { s with callbackFunction := func, code := .setTimeout .storeArg ticks func arg }
  | .setTimeout .storeArg _ _ arg => some { s with callbackArg := arg, code := .critical }
  | .clearTimeout .writeLvtTimer =>
      some { s with lvtTimer := 0x10000, code := .clearTimeout .storeExpecting }
  | .clearTimeout .storeExpecting => some { s with isExpecting := false, code := .critical }
  | .callback .loadExpecting =>
      some { s with code := .callback (if s.isExpecting then .readLvtTimer else
        .sendEoiUnexpected) }
  | .callback .sendEoiUnexpected => some { s with inService := false, code := .noncritical }
  | .callback .readLvtTimer =>
      some { s with code := .callback (if s.masked then .sendEoi else .readCurrCount) }
  | .callback .readCurrCount =>
      some { s with code := .callback (if s.currCount ≠ 0 then .sendEoiRunning else .sendEoi) }
  | .callback .sendEoiRunning =>
      some { s with inService := false, code := .callback .readInService }
  | .callback .readInService =>
      some { s with code := if s.inService then .noncritical else .callback .readRequested }
  | .callback .readRequested =>
      some { s with code := if s.requested then .noncritical else .callback .clearExpecting }
  | .callback .sendEoi => some { s with inService := false, code := .callback .clearExpecting }
  | .callback .clearExpecting => some { s with isExpecting := false, code := .callback .call }
  | .callback .call => some { s with code := .critical }

/-- The timer counts down by one; when it gets to zero it requests an interrupt, unless it
is masked. -/
def tick (s : State Func Arg) : Option (State Func Arg) :=
  if s.currCount = 0 then none
  else some { s with
    currCount := s.currCount - 1
    requested := s.requested || (s.currCount = 1 && !s.masked) }

def step (s : State Func Arg) : Action Func Arg → Option (State Func Arg)
  | .enter =>
      match s.code with
      | .noncritical => some { s with code := .critical }
      | _ => none
  | .leave =>
      match s.code with
      | .critical => some { s with code := .noncritical }
      | _ => none
  | .setTimeout ticks func arg =>
      match s.code with
      | .critical =>
          if ticks < 0x100000000 then
            some { s with code := .setTimeout .writeLvtTimer (ticks.setWidth 32) func arg }
          else none
      | _ => none
  | .clearTimeout =>
      match s.code with
      | .critical => some { s with code := .clearTimeout .writeLvtTimer }
      | _ => none
  | .advance => advance s
  | .tick => tick s
  | .deliver =>
      match s.code with
      | .noncritical =>
          if s.requested && !s.inService then
            some { s with requested := false, inService := true, code := .callback .loadExpecting }
          else none
      | _ => none

/-- A calibrated timer: masked, idle, and nothing is expected. -/
def system (Func Arg : Type) : System (State Func Arg) (Action Func Arg) where
  start s := s.lvtTimer = 0x10000 ∧ s.requested = false ∧ s.inService = false ∧
    s.isExpecting = false ∧ s.code = .critical
  step s a t := step s a = some t

/-- When the callback is called, the countdown of the last `SetTimeout` has reached zero. -/
def OnTime (s : State Func Arg) : Prop := s.code = .callback .call → s.currCount = 0

/-- A timeout is expected and its countdown is still running: an interrupt delivered now is
from an earlier one. -/
def State.stale (s : State Func Arg) : Bool := s.isExpecting && s.isTimerRunning

def NotStale (s : State Func Arg) (a : Action Func Arg) : Prop := a = .deliver → s.stale = false

/-- What the callback knows of the countdown, from the branches it has taken. -/
def CallbackStep.Knows (s : State Func Arg) : CallbackStep → Prop
  | .loadExpecting => s.isExpecting = true → s.currCount = 0
  | .sendEoiUnexpected => True
  | .readLvtTimer | .readCurrCount | .sendEoi | .clearExpecting | .call => s.currCount = 0
  | .sendEoiRunning | .readInService | .readRequested => False

/-- What holds at each place of the code. -/
def Code.Holds (s : State Func Arg) : Code Func Arg → Prop
  | .callback next => next.Knows s ∧ (s.isExpecting = true → s.masked = false)
  | .setTimeout .writeLvtTimer _ _ _ | .clearTimeout .writeLvtTimer | .noncritical | .critical =>
      s.isExpecting = true → s.masked = false
  | .setTimeout _ _ _ _ => s.masked = false
  | .clearTimeout .storeExpecting => True

variable {s t : State Func Arg}

lemma holds_setTimeout {next : SetStep} {ticks : BitVec 32} {func : Func} {arg : Arg}
    (hc : s.code = .setTimeout next ticks func arg) (h : s.code.Holds s)
    (ht : advance s = some t) : t.code.Holds t := by
  rw [hc] at h
  cases next with
  | writeLvtTimer =>
    obtain rfl : _ = t := by simpa [advance, hc] using ht
    exact (by decide : decide (vector.setWidth 32 &&& 0x10000 ≠ (0 : BitVec 32)) = false)
  | storeArg =>
    obtain rfl : _ = t := by simpa [advance, hc] using ht
    exact fun _ => h
  | _ =>
    obtain rfl : _ = t := by simpa [advance, hc] using ht
    exact h

lemma holds_callback {next : CallbackStep} (hc : s.code = .callback next)
    (h : s.code.Holds s) (ht : advance s = some t) : t.code.Holds t := by
  rw [hc] at h
  obtain ⟨hknows, hmask⟩ := h
  cases next with
  | loadExpecting =>
    obtain rfl : _ = t := by simpa [advance, hc] using ht
    refine ⟨?_, hmask⟩
    cases he : s.isExpecting
    · trivial
    · exact hknows he
  | readLvtTimer =>
    obtain rfl : _ = t := by simpa [advance, hc] using ht
    refine ⟨?_, hmask⟩
    cases hm : s.masked <;> exact hknows
  | readCurrCount =>
    obtain rfl : _ = t := by simpa [advance, hc] using ht
    refine ⟨?_, hmask⟩
    rw [if_pos (show s.currCount = 0#32 from hknows)]
    exact hknows
  | clearExpecting =>
    obtain rfl : _ = t := by simpa [advance, hc] using ht
    exact ⟨hknows, fun he => by cases he⟩
  | sendEoi =>
    obtain rfl : _ = t := by simpa [advance, hc] using ht
    exact ⟨hknows, hmask⟩
  | sendEoiUnexpected | call =>
    obtain rfl : _ = t := by simpa [advance, hc] using ht
    exact hmask
  | sendEoiRunning | readInService | readRequested => exact hknows.elim

lemma holds_advance (h : s.code.Holds s) (ht : advance s = some t) : t.code.Holds t := by
  cases hc : s.code with
  | noncritical | critical => simp [advance, hc] at ht
  | setTimeout next ticks func arg => exact holds_setTimeout hc h ht
  | clearTimeout next =>
    cases next with
    | writeLvtTimer =>
      obtain rfl : _ = t := by simpa [advance, hc] using ht
      trivial
    | storeExpecting =>
      obtain rfl : _ = t := by simpa [advance, hc] using ht
      exact fun he => by cases he
  | callback next => exact holds_callback hc h ht

lemma holds_tick (h : s.code.Holds s) (ht : tick s = some t) : t.code.Holds t := by
  unfold tick at ht
  split_ifs at ht with hz
  cases ht
  cases hc : s.code with
  | callback next =>
    rw [hc] at h
    refine ⟨?_, h.2⟩
    have hknows := h.1
    cases next with
    | loadExpecting => exact fun he => absurd (hknows he) hz
    | sendEoiUnexpected => trivial
    | sendEoiRunning | readInService | readRequested => exact hknows
    | _ => exact absurd hknows hz
  | setTimeout next => cases next <;> rw [hc] at h <;> exact h
  | clearTimeout next => cases next <;> rw [hc] at h <;> exact h
  | _ =>
    rw [hc] at h
    exact h

lemma holds_step {a : Action Func Arg} (h : s.code.Holds s) (ha : NotStale s a)
    (ht : step s a = some t) : t.code.Holds t := by
  cases a with
  | advance => exact holds_advance h ht
  | tick => exact holds_tick h ht
  | enter =>
    cases hc : s.code <;> simp only [step, hc, reduceCtorEq, Option.some.injEq] at ht
    rw [hc] at h
    exact ht ▸ h
  | leave =>
    cases hc : s.code <;> simp only [step, hc, reduceCtorEq, Option.some.injEq] at ht
    rw [hc] at h
    exact ht ▸ h
  | clearTimeout =>
    cases hc : s.code <;> simp only [step, hc, reduceCtorEq, Option.some.injEq] at ht
    rw [hc] at h
    exact ht ▸ h
  | setTimeout ticks func arg =>
    cases hc : s.code <;> simp only [step, hc, reduceCtorEq] at ht
    split_ifs at ht
    cases ht
    rw [hc] at h
    exact h
  | deliver =>
    cases hc : s.code <;> simp only [step, hc, reduceCtorEq] at ht
    split_ifs at ht
    cases ht
    rw [hc] at h
    refine ⟨fun he => ?_, h⟩
    have hstale := ha rfl
    have hmask := h he
    have he : s.isExpecting = true := he
    simpa [State.stale, State.isTimerRunning, he, hmask] using hstale

/-- In every run in which no interrupt is delivered while the countdown of an expected
timeout is running, no callback is called early. -/
theorem callback_on_time (h : ((system Func Arg).restrict NotStale).Reachable s) : OnTime s := by
  have hs : s.code.Holds s := by
    refine h.invariant (P := fun s => s.code.Holds s) ?_ fun s a t _ hs ht => holds_step hs ht.1 ht.2
    rintro s ⟨-, -, -, hexpecting, hcode⟩
    rw [hcode]
    exact fun he => by simp [hexpecting] at he
  intro hc
  rw [hc] at hs
  exact hs.1

/-- The condition leaves out nothing else: a stale interrupt, handled before the timer counts
on, calls the callback early. -/
theorem stale_delivery_calls_early (h : (system Func Arg).Reachable s)
    (hd : step s .deliver = some t) (hstale : s.stale = true) :
    ∃ u, (system Func Arg).Reachable u ∧ ¬ OnTime u := by
  cases hc : s.code <;> simp only [step, hc, reduceCtorEq] at hd
  split_ifs at hd with hpending
  obtain ⟨hexpecting, hmask, hcount⟩ : s.isExpecting = true ∧ s.masked = false ∧
      s.currCount ≠ 0#32 := by simpa [State.stale, State.isTimerRunning] using hstale
  obtain ⟨hrequested, hservice⟩ : s.requested = true ∧ s.inService = false := by
    simpa using hpending
  have hlvt : s.lvtTimer &&& 65536#32 = 0#32 := by simpa [State.masked] using hmask
  have hrun : (.deliver :: List.replicate 7 .advance).foldlM step s = some { s with
      requested := false
      inService := false
      isExpecting := false
      code := .callback .call } := by
    simp [List.replicate, step, advance, hc, hrequested, hservice, hexpecting, State.masked, hlvt,
      hcount]
  exact ⟨_, h.run (fun _ _ _ => id) hrun, fun hon => hcount (hon rfl)⟩

/-- The count is programmed only while no timer interrupt is requested. -/
def Unpended (s : State Func Arg) (a : Action Func Arg) : Prop :=
  a = .advance → (∃ ticks func arg, s.code = .setTimeout .writeInitCount ticks func arg) →
    s.requested = false

lemma requested_advance (h : s.requested = true → s.currCount = 0)
    (ha : Unpended s .advance) (ht : advance s = some t) :
    t.requested = true → t.currCount = 0 := by
  cases hc : s.code with
  | noncritical | critical => simp [advance, hc] at ht
  | setTimeout next ticks func arg =>
    cases next with
    | writeInitCount =>
      obtain rfl : _ = t := by simpa [advance, hc] using ht
      intro hr
      have hr : s.requested = true := hr
      simp [ha rfl ⟨ticks, func, arg, hc⟩] at hr
    | _ =>
      obtain rfl : _ = t := by simpa [advance, hc] using ht
      exact h
  | clearTimeout next | callback next =>
    cases next <;>
    · obtain rfl : _ = t := by simpa [advance, hc] using ht
      exact h

lemma requested_step {a : Action Func Arg} (h : s.requested = true → s.currCount = 0)
    (ha : Unpended s a) (ht : step s a = some t) : t.requested = true → t.currCount = 0 := by
  cases a with
  | advance => exact requested_advance h ha ht
  | tick =>
    simp only [step, tick] at ht
    split_ifs at ht with hz
    cases ht
    intro hr
    rcases Bool.or_eq_true_iff.mp hr with hr | hr
    · exact absurd (h hr) hz
    · have hone : s.currCount = 1 := of_decide_eq_true (Bool.and_eq_true_iff.mp hr).1
      rw [show s.currCount - 1 = 1 - 1 from congrArg (· - 1) hone]
      rfl
  | deliver =>
    cases hc : s.code <;> simp only [step, hc, reduceCtorEq] at ht
    split_ifs at ht
    cases ht
    exact fun hr => by cases hr
  | setTimeout ticks func arg =>
    cases hc : s.code <;> simp only [step, hc, reduceCtorEq] at ht
    split_ifs at ht
    cases ht
    exact h
  | enter | leave | clearTimeout =>
    cases hc : s.code <;> simp only [step, hc, reduceCtorEq, Option.some.injEq] at ht
    exact ht ▸ h

/-- In runs whose timeouts are set only when no earlier one has its interrupt still to come,
none is stale, so that no callback is called early. -/
theorem unpended_run_on_time (h : ((system Func Arg).restrict Unpended).Reachable s) :
    OnTime s := by
  refine callback_on_time (h.invariant (P := fun s => ((system Func Arg).restrict
    NotStale).Reachable s ∧ (s.requested = true → s.currCount = 0)) ?_ ?_).1
  · rintro s hs
    refine ⟨.start hs, fun hr => ?_⟩
    simp [hs.2.1] at hr
  · rintro s a t - ⟨hreach, hrequested⟩ ⟨ha, ht⟩
    refine ⟨hreach.next ⟨?_, ht⟩, requested_step hrequested ha ht⟩
    rintro rfl
    have ht : step s .deliver = some t := ht
    cases hc : s.code <;> simp only [step, hc, reduceCtorEq] at ht
    split_ifs at ht with hpending
    have hzero := hrequested (Bool.and_eq_true_iff.mp hpending).1
    simp [State.stale, State.isTimerRunning, hzero]

end

def calibrated : State ℕ ℕ := ⟨0x10000, 0, false, false, false, 0, 0, .critical⟩

/-- `SetTimeout` from critical code to its end. -/
def setTimeoutCall (ticks : Word) (func arg : ℕ) : List (Action ℕ ℕ) :=
  .setTimeout ticks func arg :: List.replicate 5 .advance

lemma calibrated_start : (system ℕ ℕ).start calibrated := ⟨rfl, rfl, rfl, rfl, rfl⟩

/-- A step that delivers no stale interrupt. -/
def stepNotStale (s : State ℕ ℕ) : Action ℕ ℕ → Option (State ℕ ℕ)
  | .deliver => if s.stale then none else step s .deliver
  | a => step s a

lemma stepNotStale_spec (s : State ℕ ℕ) (a : Action ℕ ℕ) (t : State ℕ ℕ)
    (ht : stepNotStale s a = some t) : NotStale s a ∧ step s a = some t := by
  cases a with
  | deliver =>
    unfold stepNotStale at ht
    split_ifs at ht with hs
    exact ⟨fun _ => Bool.eq_false_iff.mpr hs, ht⟩
  | _ => exact ⟨fun ha => (nomatch ha), ht⟩

/-- One timeout that runs out while interrupts are on. -/
theorem callback_on_time_two_ticks : ∃ s, ((system ℕ ℕ).restrict NotStale).Reachable s ∧
    s.code = .callback .call ∧ OnTime s := by
  let actions : List (Action ℕ ℕ) :=
    setTimeoutCall 2 7 9 ++ .leave :: .tick :: .tick :: .deliver :: List.replicate 5 .advance
  have hrun : (actions.foldlM stepNotStale calibrated).map State.code =
      some (.callback .call) := by decide
  obtain ⟨s, hs, hcode⟩ := Option.map_eq_some_iff.mp hrun
  have hreach := (System.Reachable.start (S := (system ℕ ℕ).restrict NotStale)
    calibrated_start).run stepNotStale_spec hs
  exact ⟨s, hreach, hcode, callback_on_time hreach⟩

/-- A timeout runs out in a critical section that sets another one of 100 ticks: the callback
is called with all of them still to go. -/
theorem callback_called_early : ∃ s, (system ℕ ℕ).Reachable s ∧
    s.code = .callback .call ∧ s.callbackFunction = 8 ∧ s.currCount = 100 ∧ ¬ OnTime s := by
  let actions : List (Action ℕ ℕ) := setTimeoutCall 1 7 0 ++ .tick :: setTimeoutCall 100 8 0 ++
    .leave :: .deliver :: List.replicate 7 .advance
  have hrun : (actions.foldlM step calibrated).map (fun s => (s.code, s.callbackFunction,
      s.currCount)) = some (.callback .call, 8, 100) := by decide
  obtain ⟨s, hs, hview⟩ := Option.map_eq_some_iff.mp hrun
  simp only [Prod.mk.injEq] at hview
  obtain ⟨hcode, hfunc, hcount⟩ := hview
  refine ⟨s, (System.Reachable.start calibrated_start).run (fun _ _ _ => id) hs, hcode, hfunc,
    hcount, fun hon => ?_⟩
  exact absurd (hcount.symm.trans (hon hcode)) (by decide)

end Anarch.LapicTimer
