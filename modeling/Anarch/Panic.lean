import Anarch.ApiTypes
import Anarch.TransitionRun
import Mathlib.Logic.Function.Basic

/-! `Panic` on any number of CPUs: each takes its shared accesses one at a time, in any
interleaving with critical sections, console output and interrupts. -/
namespace Anarch.Panic
open TransitionRun

/-- The next step of `PanicModule::Panic`. `waiting` is the `hlt` of a CPU that was not the
first, `write` puts a character of the message on the screen, before or after the other CPUs were
told, and `distribute` has the CPUs that are still to be looked at. -/
inductive Step (n : ℕ)
  | count
  | waiting
  | write (again : Bool) (i : ℕ)
  | distribute (rest : List (Fin n))
  | done
  deriving DecidableEq, Repr

/-- What a CPU executes. -/
inductive Code (n : ℕ)
  | noncritical
  | critical
  | panic (next : Step n) (msg : List (BitVec 8))
  | haltCpu
  | halted
  deriving DecidableEq, Repr

/-- A CPU, and whether the `Panic` vector is requested in its LAPIC. -/
structure Cpu (n : ℕ) where
  code : Code n
  requested : Bool
  deriving DecidableEq, Repr

structure State (n : ℕ) where
  cpu : Fin n → Cpu n
  panicCount : ℕ
  screen : ℕ → BitVec 16

inductive Action
  /-- Interrupts go off or on. -/
  | enter
  | leave
  /-- Other output to the text buffer. -/
  | print (i : ℕ) (cell : BitVec 16)
  | panic (msg : List (BitVec 8))
  | advance
  /-- The `Panic` interrupt is taken. -/
  | deliver
  /-- A non-maskable interrupt ends a `hlt`. -/
  | nmi
  deriving DecidableEq, Repr

/-- `"PANIC: "`. -/
def prefixChars : List (BitVec 8) := [0x50, 0x41, 0x4e, 0x49, 0x43, 0x3a, 0x20]

/-- What `WriteError` writes from the start of the screen on. A `char` is signed. -/
def cells (msg : List (BitVec 8)) : List (BitVec 16) :=
  prefixChars.map (fun c => c.signExtend 16 ||| 0xf200) ++
    msg.map (fun c => c.signExtend 16 ||| 0xf900) ++ [0xf920]

section
variable {n : ℕ}

def State.set (s : State n) (c : Fin n) (x : Cpu n) : State n :=
  { s with cpu := Function.update s.cpu c x }

def Cpu.goto (x : Cpu n) (code : Code n) : Cpu n := { x with code }

/-- The next step of a CPU that panics, or that executes `HaltCpu`. -/
def advance (cpus : List (Fin n)) (initialized : Bool) (s : State n) (c : Fin n) :
    Option (State n) :=
  let x := s.cpu c
  match x.code with
  | .panic .count msg =>
      some { s.set c (x.goto (.panic (if s.panicCount ≠ 0 then .waiting else .write false 0) msg))
        with panicCount := s.panicCount + 1 }
  | .panic (.write again i) msg =>
      match (cells msg)[i]? with
      | some cell =>
          some { s.set c (x.goto (.panic (.write again (i + 1)) msg)) with
            screen := Function.update s.screen i cell }
      | none =>
          some (s.set c (x.goto (.panic
            (if again then .done else .distribute (if initialized then cpus else [])) msg)))
  | .panic (.distribute (d :: rest)) msg =>
      let s := if d = c then s else s.set d { s.cpu d with requested := true }
      some (s.set c (x.goto (.panic (.distribute rest) msg)))
  | .panic (.distribute []) msg => some (s.set c (x.goto (.panic (.write true 0) msg)))
  | .haltCpu => some (s.set c (x.goto .halted))
  | _ => none

/-- The code a panic can be called from: not from a halted CPU, nor from `Panic` itself, apart
from what `DistributeError` calls. -/
def Code.canPanic : Code n → Bool
  | .noncritical | .critical | .haltCpu | .panic (.distribute _) _ => true
  | _ => false

def step (cpus : List (Fin n)) (initialized : Bool) (s : State n) (c : Fin n) :
    Action → Option (State n)
  | .enter =>
      if (s.cpu c).code = .noncritical then some (s.set c ((s.cpu c).goto .critical)) else none
  | .leave =>
      if (s.cpu c).code = .critical then some (s.set c ((s.cpu c).goto .noncritical)) else none
  | .print i cell =>
      if (s.cpu c).code = .noncritical ∨ (s.cpu c).code = .critical then
        some { s with screen := Function.update s.screen i cell }
      else none
  | .panic msg =>
      if (s.cpu c).code.canPanic then some (s.set c ((s.cpu c).goto (.panic .count msg)))
      else none
  | .advance => advance cpus initialized s c
  | .deliver =>
      if (s.cpu c).code = .noncritical ∧ (s.cpu c).requested then
        some (s.set c ⟨.haltCpu, false⟩)
      else none
  | .nmi =>
      match (s.cpu c).code with
      | .panic .waiting msg => some (s.set c ((s.cpu c).goto (.panic (.write false 0) msg)))
      | _ => none

/-- Before any panic. -/
def system (cpus : List (Fin n)) (initialized : Bool) : System (State n) (Fin n × Action) where
  start s := s.panicCount = 0 ∧ ∀ c, (s.cpu c).requested = false ∧
    ((s.cpu c).code = .noncritical ∨ (s.cpu c).code = .critical)
  step s a t := step cpus initialized s a.1 a.2 = some t

/-- No non-maskable interrupt. -/
def Maskable (_ : State n) (a : Fin n × Action) : Prop := a.2 ≠ .nmi

/-- The CPU will not execute code of the kernel again, other than its panic. -/
def Cpu.stopped (x : Cpu n) : Bool :=
  match x.code with
  | .noncritical | .critical => false
  | _ => true

/-- The CPU has the screen, and the other CPUs to tell. -/
def Cpu.reporting (x : Cpu n) : Bool :=
  match x.code with
  | .panic (.write _ _) _ | .panic (.distribute _) _ | .panic .done _ => true
  | _ => false

/-- The CPUs that the loops over domains and threads have not come to. -/
def Cpu.left (x : Cpu n) : Option (List (Fin n)) :=
  match x.code with
  | .panic (.distribute rest) _ => some rest
  | .panic (.write true _) _ | .panic .done _ => some []
  | _ => none

/-- The CPU has stopped, or will where it next lets interrupts in. -/
def Cpu.told (x : Cpu n) : Prop := x.stopped = true ∨ x.requested = true

@[simp] lemma State.set_cpu (s : State n) (c d : Fin n) (x : Cpu n) :
    (s.set c x).cpu d = if d = c then x else s.cpu d := by
  simp [State.set, Function.update_apply]

@[simp] lemma State.set_panicCount (s : State n) (c : Fin n) (x : Cpu n) :
    (s.set c x).panicCount = s.panicCount := rfl

@[simp] lemma State.set_screen (s : State n) (c : Fin n) (x : Cpu n) :
    (s.set c x).screen = s.screen := rfl

@[simp] lemma Cpu.goto_code (x : Cpu n) (code : Code n) : (x.goto code).code = code := rfl

@[simp] lemma Cpu.goto_requested (x : Cpu n) (code : Code n) :
    (x.goto code).requested = x.requested := rfl

variable {cpus : List (Fin n)} {initialized : Bool} {s t : State n} {c d : Fin n} {a : Action}

/-- All that a step can do to its own CPU and to what the CPUs share. -/
inductive Move (cpus : List (Fin n)) (initialized : Bool) (s t : State n) (c : Fin n) :
    Action → Prop
  | ordinary {a : Action} (before : (s.cpu c).stopped = false) (after : (t.cpu c).stopped = false)
      (requested : (t.cpu c).requested = (s.cpu c).requested) (count : t.panicCount = s.panicCount) :
      Move cpus initialized s t c a
  | panic {msg : List (BitVec 8)} (can : (s.cpu c).code.canPanic = true)
      (code : (t.cpu c).code = .panic .count msg) (count : t.panicCount = s.panicCount)
      (screen : t.screen = s.screen) : Move cpus initialized s t c (.panic msg)
  | halt {a : Action} (before : (s.cpu c).code = .haltCpu ∨ (s.cpu c).code = .noncritical)
      (code : (t.cpu c).code = .haltCpu ∨ (t.cpu c).code = .halted)
      (count : t.panicCount = s.panicCount) (screen : t.screen = s.screen) :
      Move cpus initialized s t c a
  | count {msg : List (BitVec 8)} (before : (s.cpu c).code = .panic .count msg)
      (code : (t.cpu c).code = .panic (if s.panicCount ≠ 0 then .waiting else .write false 0) msg)
      (count : t.panicCount = s.panicCount + 1) (screen : t.screen = s.screen) :
      Move cpus initialized s t c .advance
  | write {again : Bool} {i : ℕ} {msg : List (BitVec 8)} {cell : BitVec 16}
      (before : (s.cpu c).code = .panic (.write again i) msg)
      (code : (t.cpu c).code = .panic (.write again (i + 1)) msg)
      (found : (cells msg)[i]? = some cell) (count : t.panicCount = s.panicCount)
      (screen : t.screen = Function.update s.screen i cell) :
      Move cpus initialized s t c .advance
  | written {again : Bool} {i : ℕ} {msg : List (BitVec 8)}
      (before : (s.cpu c).code = .panic (.write again i) msg)
      (code : (t.cpu c).code =
        .panic (if again then .done else .distribute (if initialized then cpus else [])) msg)
      (ended : (cells msg)[i]? = none) (count : t.panicCount = s.panicCount)
      (screen : t.screen = s.screen) :
      Move cpus initialized s t c .advance
  | tell {d : Fin n} {rest : List (Fin n)} {msg : List (BitVec 8)}
      (before : (s.cpu c).code = .panic (.distribute (d :: rest)) msg)
      (code : (t.cpu c).code = .panic (.distribute rest) msg)
      (requested : d ≠ c → (t.cpu d).requested = true)
      (count : t.panicCount = s.panicCount) (screen : t.screen = s.screen) :
      Move cpus initialized s t c .advance
  | told {msg : List (BitVec 8)} (before : (s.cpu c).code = .panic (.distribute []) msg)
      (code : (t.cpu c).code = .panic (.write true 0) msg)
      (count : t.panicCount = s.panicCount) (screen : t.screen = s.screen) :
      Move cpus initialized s t c .advance
  | nmi {msg : List (BitVec 8)} (before : (s.cpu c).code = .panic .waiting msg)
      (code : (t.cpu c).code = .panic (.write false 0) msg)
      (count : t.panicCount = s.panicCount) (screen : t.screen = s.screen) :
      Move cpus initialized s t c .nmi

/-- A step moves its own CPU, and requests at most a vector on another. -/
lemma step_cases (hstep : step cpus initialized s c a = some t) :
    Move cpus initialized s t c a ∧ ∀ d, d ≠ c → (t.cpu d).code = (s.cpu d).code ∧
      ((s.cpu d).requested = true → (t.cpu d).requested = true) := by
  cases a with
  | enter =>
    simp only [step] at hstep
    split_ifs at hstep with hcode
    obtain rfl := Option.some.inj hstep
    exact ⟨.ordinary (by simp [Cpu.stopped, hcode]) (by simp [Cpu.stopped]) (by simp) rfl,
      by simp +contextual⟩
  | leave =>
    simp only [step] at hstep
    split_ifs at hstep with hcode
    obtain rfl := Option.some.inj hstep
    exact ⟨.ordinary (by simp [Cpu.stopped, hcode]) (by simp [Cpu.stopped]) (by simp) rfl,
      by simp +contextual⟩
  | print i cell =>
    simp only [step] at hstep
    split_ifs at hstep with hcode
    obtain rfl := Option.some.inj hstep
    have hstopped : (s.cpu c).stopped = false := by
      rcases hcode with hcode | hcode <;> simp [Cpu.stopped, hcode]
    exact ⟨.ordinary hstopped hstopped rfl rfl, by simp⟩
  | panic msg =>
    simp only [step] at hstep
    split_ifs at hstep with hcan
    obtain rfl := Option.some.inj hstep
    exact ⟨.panic hcan (by simp) rfl rfl, by simp +contextual⟩
  | advance =>
    cases hcode : (s.cpu c).code with
    | haltCpu =>
      simp only [step, advance, hcode, Option.some.injEq] at hstep
      subst hstep
      exact ⟨.halt (.inl hcode) (by simp) rfl rfl, by simp +contextual⟩
    | panic next msg =>
      cases next with
      | count =>
        simp only [step, advance, hcode, Option.some.injEq] at hstep
        subst hstep
        exact ⟨.count hcode (by simp) rfl rfl, by simp +contextual⟩
      | waiting => simp [step, advance, hcode] at hstep
      | write again i =>
        simp only [step, advance, hcode] at hstep
        split at hstep
        · next cell hcell =>
          obtain rfl := Option.some.inj hstep
          exact ⟨.write hcode (by simp) hcell rfl rfl, by simp +contextual⟩
        · next hcell =>
          obtain rfl := Option.some.inj hstep
          exact ⟨.written hcode (by simp) hcell rfl rfl, by simp +contextual⟩
      | distribute rest =>
        cases rest with
        | nil =>
          simp only [step, advance, hcode, Option.some.injEq] at hstep
          subst hstep
          exact ⟨.told hcode (by simp) rfl rfl, by simp +contextual⟩
        | cons e rest =>
          simp only [step, advance, hcode, Option.some.injEq] at hstep
          subst hstep
          by_cases he : e = c
          · exact ⟨.tell hcode (by simp) (by simp [he]) (by simp [he]) (by simp [he]),
              by simp +contextual [he]⟩
          · refine ⟨.tell hcode (by simp) (by simp [he]) (by simp [he]) (by simp [he]),
              fun d hd => ?_⟩
            by_cases hde : d = e <;> simp [he, hd, hde]
      | done => simp [step, advance, hcode] at hstep
    | _ => simp [step, advance, hcode] at hstep
  | deliver =>
    simp only [step] at hstep
    split_ifs at hstep with hcode
    obtain rfl := Option.some.inj hstep
    exact ⟨.halt (.inr hcode.1) (by simp) rfl rfl, by simp +contextual⟩
  | nmi =>
    cases hcode : (s.cpu c).code with
    | panic next msg =>
      cases next with
      | waiting =>
        simp only [step, hcode, Option.some.injEq] at hstep
        subst hstep
        exact ⟨.nmi hcode (by simp) rfl rfl, by simp +contextual⟩
      | _ => simp [step, hcode] at hstep
    | _ => simp [step, hcode] at hstep

lemma Move.stopped (hmove : Move cpus initialized s t c a) : (t.cpu c).stopped = true ∨
    (s.cpu c).stopped = false ∧ (t.cpu c).requested = (s.cpu c).requested := by
  cases hmove with
  | ordinary before after requested => exact .inr ⟨before, requested⟩
  | halt before code => rcases code with code | code <;> simp [Cpu.stopped, code]
  | panic can code => simp [Cpu.stopped, code]
  | _ before code => simp [Cpu.stopped, code]

lemma stopped_step (hstep : step cpus initialized s c a = some t)
    (hstopped : (s.cpu d).stopped = true) : (t.cpu d).stopped = true := by
  obtain ⟨hmove, hothers⟩ := step_cases hstep
  by_cases hd : d = c
  · subst hd
    exact hmove.stopped.resolve_right (by simp [hstopped])
  · simpa [Cpu.stopped, (hothers d hd).1] using hstopped

lemma told_step (hstep : step cpus initialized s c a = some t) (htold : (s.cpu d).told) :
    (t.cpu d).told := by
  rcases htold with hstopped | hrequested
  · exact .inl (stopped_step hstep hstopped)
  · obtain ⟨hmove, hothers⟩ := step_cases hstep
    by_cases hd : d = c
    · subst hd
      exact hmove.stopped.imp id fun ⟨_, h⟩ => h.trans hrequested
    · exact .inr ((hothers d hd).2 hrequested)

lemma stopped_of_reporting {x : Cpu n} (h : x.reporting = true) : x.stopped = true := by
  unfold Cpu.reporting at h
  split at h <;> simp_all [Cpu.stopped]

lemma reporting_of_left {x : Cpu n} {rest : List (Fin n)} (h : x.left = some rest) :
    x.reporting = true := by
  unfold Cpu.left at h
  split at h <;> simp_all [Cpu.reporting]

lemma told_of_left (hall : ∀ d, d ∈ cpus) (h : (system cpus true).Reachable s)
    {rest : List (Fin n)} (hleft : (s.cpu c).left = some rest) (hd : d ≠ c) (hrest : d ∉ rest) :
    (s.cpu d).told := by
  refine h.invariant (P := fun s => ∀ c rest, (s.cpu c).left = some rest → ∀ d, d ≠ c →
    d ∉ rest → (s.cpu d).told) ?_ ?_ c rest hleft d hd hrest
  · intro s hs c rest hleft
    rcases (hs.2 c).2 with hcode | hcode <;> simp [Cpu.left, hcode] at hleft
  · intro s a t _ ih hstep c rest hleft d hd hrest
    obtain ⟨b, a⟩ := a
    obtain ⟨hmove, hothers⟩ := step_cases hstep
    by_cases hbefore : (s.cpu c).left = some rest
    · exact told_step hstep (ih _ _ hbefore d hd hrest)
    by_cases hc : c = b
    · subst hc
      cases hmove with
      | ordinary before after =>
        simp [stopped_of_reporting (reporting_of_left hleft)] at after
      | halt before code => rcases code with code | code <;> simp [Cpu.left, code] at hleft
      | count before code => split_ifs at code <;> simp [Cpu.left, code] at hleft
      | @write again i msg cell before code =>
        cases again <;> simp_all [Cpu.left]
      | @written again i msg before code =>
        -- all CPUs are still to be told before the second writing
        cases again with
        | false =>
          obtain rfl : cpus = rest := by simpa [Cpu.left, code] using hleft
          exact absurd (hall d) hrest
        | true => simp_all [Cpu.left]
      | @tell e remaining msg before code requested =>
        obtain rfl : remaining = rest := by simpa [Cpu.left, code] using hleft
        by_cases he : d = e
        · exact .inr (he ▸ requested (he ▸ hd))
        · exact told_step hstep (ih c (e :: remaining) (by simp [Cpu.left, before]) d hd
            (by simp [he, hrest]))
      | told before code => simp_all [Cpu.left]
      | _ before code => simp [Cpu.left, code] at hleft
    · simp only [Cpu.left, (hothers c hc).1] at hleft hbefore
      exact absurd hleft hbefore

def twoCpus : State 2 := ⟨fun _ => ⟨.noncritical, false⟩, 0, fun _ => 0⟩

def Action.isNmi : Action → Bool
  | .nmi => true
  | _ => false

/-- Maskable actions of the CPUs, one after the other. -/
def run (cpus : List (Fin n)) (s : State n) (actions : List (Fin n × Action)) :
    Option (State n) :=
  actions.foldlM (fun s a => if a.2.isNmi then none else step cpus true s a.1 a.2) s

lemma reachable_of_run {S : System (State n) (Fin n × Action)}
    (hS : S.step = ((system cpus true).restrict Maskable).step)
    {actions : List (Fin n × Action)} (hs : S.Reachable s) (hrun : run cpus s actions = some t) :
    S.Reachable t := by
  refine hs.run (fun s a t h => ?_) hrun
  split_ifs at h with hnmi
  exact hS ▸ ⟨fun he => hnmi (by simp [he, Action.isNmi]), h⟩

lemma twoCpus_reachable : ((system [0, 1] true).restrict Maskable).Reachable twoCpus :=
  .start ⟨rfl, fun _ => ⟨rfl, .inl rfl⟩⟩

/-- Once a panic has been reported, every other CPU has stopped or has the vector requested. -/
theorem panic_reaches_all (hall : ∀ d, d ∈ cpus) (h : (system cpus true).Reachable s)
    (hleft : (s.cpu c).left = some []) (hd : d ≠ c) : (s.cpu d).told :=
  told_of_left hall h hleft hd (by simp)

theorem panic_reaches_all_two : ∃ s : State 2, (system [0, 1] true).Reachable s ∧
    (s.cpu 0).left = some [] ∧ (s.cpu 1).told := by
  -- the empty message, then a look at both CPUs
  have hrun : (run [0, 1] twoCpus ((0, .panic []) :: List.replicate 13 (0, .advance))).map
      (fun s => (s.cpu 0).left) = some (some []) := by decide
  obtain ⟨s, hs, hleft⟩ := Option.map_eq_some_iff.mp hrun
  have hreach := (reachable_of_run rfl twoCpus_reachable hs).of_restrict
  exact ⟨s, hreach, hleft, panic_reaches_all (by decide) hreach hleft (by decide)⟩

/-- Without non-maskable interrupts, the first to count is alone. -/
structure Exclusive (s : State n) : Prop where
  counted : ∀ c, (s.cpu c).reporting = true → 0 < s.panicCount
  one : ∀ c d, (s.cpu c).reporting = true → (s.cpu d).reporting = true → c = d

lemma reporting_of_step (hstep : step cpus initialized s c a = some t) (hnmi : a ≠ .nmi)
    (hd : (t.cpu d).reporting = true) :
    (s.cpu d).reporting = true ∨
      d = c ∧ s.panicCount = 0 ∧ t.panicCount = 1 ∧ (s.cpu c).stopped = true := by
  obtain ⟨hmove, hothers⟩ := step_cases hstep
  by_cases hc : d = c
  · subst hc
    cases hmove with
    | ordinary before after => simp [stopped_of_reporting hd] at after
    | halt before code => rcases code with code | code <;> simp [Cpu.reporting, code] at hd
    | count before code count =>
      split_ifs at code with hcount
      · simp [Cpu.reporting, code] at hd
      · exact .inr ⟨rfl, by simpa using hcount, by simp_all, by simp [Cpu.stopped, before]⟩
    | panic can code => simp [Cpu.reporting, code] at hd
    | nmi => exact absurd rfl hnmi
    | _ before => simp [Cpu.reporting, before]
  · exact .inl (by simpa [Cpu.reporting, (hothers d hc).1] using hd)

lemma panicCount_mono (hstep : step cpus initialized s c a = some t) :
    s.panicCount ≤ t.panicCount := by
  cases (step_cases hstep).1 <;> omega

lemma exclusive_of_reachable (h : ((system cpus initialized).restrict Maskable).Reachable s) :
    Exclusive s := by
  refine h.invariant (fun s hs => ?_) fun s ⟨b, a⟩ t _ ih ⟨hnmi, hstep⟩ => ?_
  · have hnone : ∀ c, (s.cpu c).reporting = false := fun c => by
      rcases (hs.2 c).2 with hcode | hcode <;> simp [Cpu.reporting, hcode]
    exact ⟨by simp [hnone], by simp [hnone]⟩
  · have hcases := fun d => reporting_of_step (d := d) hstep hnmi
    constructor
    · intro c hc
      rcases hcases c hc with hbefore | ⟨-, -, hcount, -⟩
      · exact lt_of_lt_of_le (ih.counted c hbefore) (panicCount_mono hstep)
      · omega
    · intro c d hc hd
      rcases hcases c hc with hbefore | ⟨hcb, hcount, -⟩ <;>
        rcases hcases d hd with hbefore' | ⟨hdb, hcount', -⟩
      · exact ih.one c d hbefore hbefore'
      · exact absurd (ih.counted c hbefore) (by omega)
      · exact absurd (ih.counted d hbefore') (by omega)
      · rw [hcb, hdb]

/-- A CPU that has stopped and is not the one to report leaves the screen alone. -/
lemma Move.screen (hmove : Move cpus initialized s t c a) (hstopped : (s.cpu c).stopped = true)
    (hreporting : (s.cpu c).reporting = false) : t.screen = s.screen := by
  cases hmove with
  | ordinary before => simp [hstopped] at before
  | write before => simp [Cpu.reporting, before] at hreporting
  | _ => assumption

/-- The message is being written for the second time, or it is on the screen. -/
structure Showing (c : Fin n) (msg : List (BitVec 8)) (s : State n) : Prop where
  counted : 0 < s.panicCount
  others : ∀ d, d ≠ c → (s.cpu d).stopped = true ∧ (s.cpu d).reporting = false
  written : (∃ i, (s.cpu c).code = .panic (.write true i) msg ∧
      ∀ j (hj : j < (cells msg).length), j < i → s.screen j = (cells msg)[j]) ∨
    (s.cpu c).code = .panic .done msg ∧
      ∀ j (hj : j < (cells msg).length), s.screen j = (cells msg)[j]

lemma Showing.step {msg : List (BitVec 8)} (hshow : Showing c msg s) {b : Fin n}
    (hstep : step cpus initialized s b a = some t) (hnmi : a ≠ .nmi) : Showing c msg t := by
  obtain ⟨hmove, hothers⟩ := step_cases hstep
  refine ⟨lt_of_lt_of_le hshow.counted (panicCount_mono hstep), fun d hd => ⟨?_, ?_⟩, ?_⟩
  · exact stopped_step hstep (hshow.others d hd).1
  · by_contra hreport
    rcases reporting_of_step hstep hnmi (by simpa using hreport) with hbefore | ⟨-, hcount, -⟩
    · simp [(hshow.others d hd).2] at hbefore
    · exact absurd hshow.counted (by omega)
  · by_cases hb : c = b
    · subst hb
      rcases hshow.written with ⟨i, hcode, hwritten⟩ | ⟨hcode, hwritten⟩
      · cases hmove with
        | ordinary before => simp [Cpu.stopped, hcode] at before
        | panic can => simp [Code.canPanic, hcode] at can
        | write before code found count screen =>
          obtain ⟨⟨rfl, rfl⟩, rfl⟩ : (_ ∧ _) ∧ _ := by simpa [hcode] using before
          refine .inl ⟨i + 1, code, fun j hj hlt => ?_⟩
          obtain ⟨hi, hfound⟩ := List.getElem?_eq_some_iff.mp found
          by_cases hji : j = i
          · subst hji
            simp [screen, hfound]
          · simpa [screen, hji] using hwritten j hj (by omega)
        | written before code ended count screen =>
          obtain ⟨⟨rfl, rfl⟩, rfl⟩ : (_ ∧ _) ∧ _ := by simpa [hcode] using before
          refine .inr ⟨by simpa using code, fun j hj => ?_⟩
          rw [screen]
          exact hwritten j hj (lt_of_lt_of_le hj (List.getElem?_eq_none_iff.mp ended))
        | _ before => simp [hcode] at before
      · cases hmove with
        | ordinary before => simp [Cpu.stopped, hcode] at before
        | panic can => simp [Code.canPanic, hcode] at can
        | _ before => simp [hcode] at before
    · have hsame := hothers c hb
      rw [hmove.screen (hshow.others b (Ne.symm hb)).1 (hshow.others b (Ne.symm hb)).2, hsame.1]
      exact hshow.written

/-- A panic that writes its message again after all other CPUs have stopped leaves it on the
screen, whatever the other CPUs still do. -/
theorem message_shown {msg : List (BitVec 8)}
    (hs : ((system cpus initialized).restrict Maskable).Reachable s)
    (hcode : (s.cpu c).code = .panic (.write true 0) msg)
    (hothers : ∀ d, d ≠ c → (s.cpu d).stopped = true)
    (ht : (((system cpus initialized).restrict Maskable).after s).Reachable t)
    (hdone : (t.cpu c).code = .panic .done msg) :
    ∀ j (hj : j < (cells msg).length), t.screen j = (cells msg)[j] := by
  have hexclusive := exclusive_of_reachable hs
  have hreporting : (s.cpu c).reporting = true := by simp [Cpu.reporting, hcode]
  have hshow : Showing c msg t := by
    refine ht.invariant (fun s' hs' => ?_) fun s ⟨b, a⟩ t _ ih ⟨hnmi, hstep⟩ => ih.step hstep hnmi
    obtain rfl : s' = s := hs'
    refine ⟨hexclusive.counted c hreporting, fun d hd => ⟨hothers d hd, ?_⟩,
      .inl ⟨0, hcode, by simp⟩⟩
    by_contra hreport
    exact hd (hexclusive.one d c (by simpa using hreport) hreporting)
  rcases hshow.written with ⟨i, hwriting, -⟩ | ⟨-, hwritten⟩
  · simp [hwriting] at hdone
  · exact hwritten

theorem message_shown_two : ∃ t : State 2, ∀ j (hj : j < (cells []).length),
    t.screen j = (cells [])[j] := by
  -- the second CPU halts before the message is written again
  have hrun : ((run [0, 1] twoCpus ((0, .panic []) :: List.replicate 13 (0, .advance) ++
      [(1, .deliver), (1, .advance)])).bind fun s =>
        (run [0, 1] s (List.replicate 9 (0, .advance))).map fun t =>
          ((s.cpu 0).code, (s.cpu 1).stopped, (t.cpu 0).code)) =
      some (.panic (.write true 0) [], true, .panic .done []) := by decide
  obtain ⟨s, hs, hrun⟩ := Option.bind_eq_some_iff.mp hrun
  obtain ⟨t, ht, hcodes⟩ := Option.map_eq_some_iff.mp hrun
  simp only [Prod.mk.injEq] at hcodes
  have hothers : ∀ d : Fin 2, d ≠ 0 → (s.cpu d).stopped = true := fun d hd => by
    obtain rfl : d = 1 := by omega
    exact hcodes.2.1
  have hreach := reachable_of_run (S := ((system [0, 1] true).restrict Maskable).after s) rfl
    (.start rfl) ht
  exact ⟨t, message_shown (reachable_of_run rfl twoCpus_reachable hs) hcodes.1 hothers hreach
    hcodes.2.2⟩

end

end Anarch.Panic
