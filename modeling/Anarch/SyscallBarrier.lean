import Anarch.ApiTypes
import Anarch.TransitionRun
import Mathlib.Algebra.BigOperators.Fin
import Mathlib.Algebra.Order.BigOperators.Group.Finset

/-! `SyscallModule::Initialize` on one CPU against the runs of `SetCpuRegisters` that it asks
the other CPUs for, in any interleaving. The CPUs are numbered in the order of the loops over
domains and threads. -/
namespace Anarch.SyscallModule
open TransitionRun

abbrev Msr := BitVec 32

def msrSTAR : Msr := 0xC0000081
def msrLSTAR : Msr := 0xC0000082
def msrSFMask : Msr := 0xC0000084

/-- The value for STAR: `(8L << 0x20) | (0x13L << 0x30)`. -/
def star : Word := (8 <<< 0x20) ||| (0x13 <<< 0x30)

/-- The next step of `SetCpuRegisters`. -/
inductive RegisterStep
  | idle
  | setIstNmi
  | setIstMce
  | enterCritical
  | decrement
  | writeStar
  | writeSfMask
  | writeLstar
  | leaveCritical
  | done
  deriving DecidableEq, Repr

/-- A CPU: whether the message of `RunAsync` is under way to it, the next step of its run of
`SetCpuRegisters`, and its model-specific registers. -/
structure Cpu where
  message : Bool
  next : RegisterStep
  msr : Msr → Word

/-- The next step of `Initialize`. -/
inductive InitStep
  | scanning (j : ℕ)
  | counting (j : ℕ)
  | countingSelf
  | setting
  | waiting
  | returned
  deriving DecidableEq, Repr

/-- `ist` is the stack number of each vector in the IDT. -/
structure State (n : ℕ) where
  init : InitStep
  initCount : ℤ
  ist : ℕ → ℕ
  cpu : Fin n → Cpu

inductive Action (n : ℕ)
  | init
  | deliver (c : Fin n)
  | register (c : Fin n)
  deriving DecidableEq, Repr

section
variable {n : ℕ}

def State.set (s : State n) (c : Fin n) (x : Cpu) : State n :=
  { s with cpu := Function.update s.cpu c x }

def Cpu.goto (x : Cpu) (next : RegisterStep) : Cpu := { x with next }

def Cpu.writeMsr (x : Cpu) (msr : Msr) (value : Word) : Cpu :=
  { x with msr := Function.update x.msr msr value }

/-- The next step of `Initialize` on the CPU `current`. The wait loop reads `initCount` once
in each round. -/
def initializeStep (current : Fin n) (s : State n) : Option (State n) :=
  match s.init with
  | .scanning j =>
      if hj : j < n then
        if ⟨j, hj⟩ = current then some { s with init := .scanning (j + 1) }
        else some { s.set ⟨j, hj⟩ { s.cpu ⟨j, hj⟩ with message := true } with
          init := .counting j }
      else some { s with init := .countingSelf }
  | .counting j => some { s with init := .scanning (j + 1), initCount := s.initCount + 1 }
  | .countingSelf =>
      some { s.set current ((s.cpu current).goto .setIstNmi) with
        init := .setting
        initCount := s.initCount + 1 }
  | .setting =>
      if (s.cpu current).next = .done then some { s with init := .waiting } else none
  | .waiting => some { s with init := if s.initCount = 0 then .returned else .waiting }
  | .returned => none

/-- The next step of `SetCpuRegisters` on a CPU; `rawHandler` is the address of
`AnarchRawSyscallHandler`. -/
def setCpuRegisters (rawHandler : Word) (s : State n) (c : Fin n) : Option (State n) :=
  let x := s.cpu c
  match x.next with
  | .idle => none
  | .setIstNmi => some { s.set c (x.goto .setIstMce) with ist := Function.update s.ist 0x2 1 }
  | .setIstMce =>
      some { s.set c (x.goto .enterCritical) with ist := Function.update s.ist 0x12 1 }
  | .enterCritical => some (s.set c (x.goto .decrement))
  | .decrement => some { s.set c (x.goto .writeStar) with initCount := s.initCount - 1 }
  | .writeStar => some (s.set c ((x.writeMsr msrSTAR star).goto .writeSfMask))
  | .writeSfMask => some (s.set c ((x.writeMsr msrSFMask 0x200).goto .writeLstar))
  | .writeLstar => some (s.set c ((x.writeMsr msrLSTAR rawHandler).goto .leaveCritical))
  | .leaveCritical => some (s.set c (x.goto .done))
  | .done => none

def step (current : Fin n) (rawHandler : Word) (s : State n) : Action n → Option (State n)
  | .init => initializeStep current s
  | .deliver c =>
      if (s.cpu c).message = true ∧ (s.cpu c).next = .idle then
        some (s.set c { (s.cpu c).goto .setIstNmi with message := false })
      else none
  | .register c => setCpuRegisters rawHandler s c

/-- `Initialize` starts, and `initCount` is 0. -/
def system (current : Fin n) (rawHandler : Word) : System (State n) (Action n) where
  start s := s.init = .scanning 0 ∧ s.initCount = 0 ∧
    ∀ c, (s.cpu c).message = false ∧ (s.cpu c).next = .idle
  step s a t := step current rawHandler s a = some t

/-- The CPU has made its three writes, and the registers hold what was written. -/
def Cpu.Finished (rawHandler : Word) (x : Cpu) : Prop :=
  (x.next = .leaveCritical ∨ x.next = .done) ∧
    x.msr msrSTAR = star ∧ x.msr msrSFMask = 0x200 ∧ x.msr msrLSTAR = rawHandler

/-- The CPU has taken itself off `initCount` and has a register still to write. -/
def Cpu.early (x : Cpu) : Bool :=
  x.next = .writeStar || x.next = .writeSfMask || x.next = .writeLstar

/-- The wait loop reads 0. -/
def Observes (s : State n) : Prop := s.init = .waiting ∧ s.initCount = 0

def Cpu.decremented (x : Cpu) : Bool :=
  match x.next with
  | .idle | .setIstNmi | .setIstMce | .enterCritical | .decrement => false
  | _ => true

/-- The number of CPUs that the loop has passed. -/
def InitStep.passed (n : ℕ) : InitStep → ℕ
  | .scanning j | .counting j => j
  | _ => n

/-- `SetCpuRegisters` has been called on the current CPU. -/
def InitStep.called : InitStep → Bool
  | .setting | .waiting | .returned => true
  | _ => false

/-- `initCount` was incremented for this CPU. -/
def counted (current : Fin n) (init : InitStep) (c : Fin n) : Bool :=
  if c = current then init.called else c.val < init.passed n

/-- What the CPU adds to `initCount`. -/
def credit (current : Fin n) (s : State n) (c : Fin n) : ℤ :=
  (counted current s.init c).toNat - (s.cpu c).decremented.toNat

/-- What has been written so far. -/
def Cpu.Written (rawHandler : Word) (x : Cpu) : Prop :=
  match x.next with
  | .writeSfMask => x.msr msrSTAR = star
  | .writeLstar => x.msr msrSTAR = star ∧ x.msr msrSFMask = 0x200
  | .leaveCritical | .done =>
      x.msr msrSTAR = star ∧ x.msr msrSFMask = 0x200 ∧ x.msr msrLSTAR = rawHandler
  | _ => True

/-- The CPU runs `SetCpuRegisters` only when asked. -/
def Asked (current : Fin n) (s : State n) (c : Fin n) : Prop :=
  counted current s.init c = true ∨ s.init = .counting c ∨
    (s.cpu c).message = false ∧ (s.cpu c).next = .idle

structure Inv (current : Fin n) (rawHandler : Word) (s : State n) : Prop where
  count : s.initCount = ∑ c, credit current s c
  passed : s.init.passed n ≤ n
  counting : ∀ j, s.init = .counting j → j < n ∧ j ≠ current
  asked : ∀ c, Asked current s c
  current : (s.init = .waiting ∨ s.init = .returned) → (s.cpu current).next = .done
  written : ∀ c, (s.cpu c).Written rawHandler

variable {current c : Fin n} {rawHandler : Word} {s t : State n}

lemma set_cpu (s : State n) (c d : Fin n) (x : Cpu) :
    (s.set c x).cpu d = if d = c then x else s.cpu d := Function.update_apply ..

lemma counted_of_ne {init : InitStep} (hc : c ≠ current) :
    counted current init c = true ↔ c.val < init.passed n := by
  rw [counted, if_neg hc, decide_eq_true_iff]

lemma sum_credit (c : Fin n) (h : ∀ d, d ≠ c → credit current t d = credit current s d) :
    ∑ d, credit current t d =
      ∑ d, credit current s d + (credit current t c - credit current s c) := by
  have hrest : ∑ d ∈ Finset.univ.erase c, credit current t d =
      ∑ d ∈ Finset.univ.erase c, credit current s d :=
    Finset.sum_congr rfl fun d hd => h d (Finset.ne_of_mem_erase hd)
  have hs := Finset.add_sum_erase Finset.univ (fun d => credit current s d) (Finset.mem_univ c)
  have ht := Finset.add_sum_erase Finset.univ (fun d => credit current t d) (Finset.mem_univ c)
  omega

lemma Inv.cpu (h : Inv current rawHandler s) {x : Cpu} (hinit : t.init = s.init)
    (hcpu : t.cpu = Function.update s.cpu c x)
    (hcount : t.initCount + x.decremented.toNat =
      s.initCount + (s.cpu c).decremented.toNat)
    (hasked : counted current s.init c = true ∨ s.init = .counting c)
    (hdone : (s.cpu c).next ≠ .done) (hwritten : x.Written rawHandler) :
    Inv current rawHandler t where
  count := by
    have hsame : ∀ d, d ≠ c → credit current t d = credit current s d := fun d hd => by
      simp only [credit, hinit, hcpu, Function.update_of_ne hd]
    have hc : credit current t c - credit current s c =
        (s.cpu c).decremented.toNat - x.decremented.toNat := by
      simp only [credit, hinit, hcpu, Function.update_self]
      omega
    rw [sum_credit c hsame, hc, ← h.count]
    omega
  passed := hinit ▸ h.passed
  counting := hinit ▸ h.counting
  asked d := by
    rw [Asked, hinit, hcpu]
    by_cases hd : d = c
    · subst hd
      exact hasked.elim .inl fun hinit => .inr (.inl hinit)
    · rw [Function.update_of_ne hd]
      exact h.asked d
  current hw := by
    rw [hinit] at hw
    have hne : current ≠ c := by
      rintro rfl
      exact hdone (h.current hw)
    rw [hcpu, Function.update_of_ne hne]
    exact h.current hw
  written d := by
    rw [hcpu]
    by_cases hd : d = c
    · subst hd
      rwa [Function.update_self]
    · rw [Function.update_of_ne hd]
      exact h.written d

lemma Inv.deliver (h : Inv current rawHandler s) (hm : (s.cpu c).message = true)
    (hidle : (s.cpu c).next = .idle) : Inv current rawHandler
      (s.set c { (s.cpu c).goto .setIstNmi with message := false }) := by
  refine h.cpu (c := c) rfl rfl ?_ ?_ (by simp [hidle]) trivial
  · simp [Cpu.decremented, hidle, State.set, Cpu.goto]
  · rcases h.asked c with hc | hc | ⟨hnone, -⟩
    · exact .inl hc
    · exact .inr hc
    · simp [hm] at hnone

lemma Inv.register (h : Inv current rawHandler s)
    (ht : setCpuRegisters rawHandler s c = some t) : Inv current rawHandler t := by
  have hw := h.written c
  have hidle : (s.cpu c).next ≠ .idle := by
    intro hn
    simp [setCpuRegisters, hn] at ht
  have hasked : counted current s.init c = true ∨ s.init = .counting c := by
    rcases h.asked c with hc | hc | ⟨-, hn⟩
    · exact .inl hc
    · exact .inr hc
    · exact absurd hn hidle
  cases hn : (s.cpu c).next with
  | idle => exact absurd hn hidle
  | done => simp [setCpuRegisters, hn] at ht
  | _ =>
    obtain rfl : _ = t := by simpa [setCpuRegisters, hn] using ht
    refine h.cpu (c := c) rfl rfl ?_ hasked (by simp [hn]) ?_
    · simp [Cpu.decremented, hn, State.set, Cpu.goto, Cpu.writeMsr]
    · simp_all [Cpu.Written, Cpu.goto, Cpu.writeMsr, msrSTAR, msrSFMask, msrLSTAR]

lemma Inv.advance (h : Inv current rawHandler s) {x : InitStep}
    (hcounted : counted current x = counted current s.init) (hpassed : x.passed n ≤ n)
    (hs : ∀ j, s.init ≠ .counting j) (hx : ∀ j, x ≠ .counting j)
    (hdone : x = .waiting ∨ x = .returned → (s.cpu current).next = .done) :
    Inv current rawHandler { s with init := x } where
  count := by simpa only [credit, hcounted] using h.count
  passed := hpassed
  counting j hj := absurd hj (hx j)
  asked c := by
    rw [Asked, hcounted]
    rcases h.asked c with hc | hc | hc
    · exact .inl hc
    · exact absurd hc (hs c)
    · exact .inr (.inr hc)
  current := hdone
  written := h.written

lemma Inv.send (h : Inv current rawHandler s) (hinit : s.init = .scanning c)
    (hne : c ≠ current) : Inv current rawHandler
      { s.set c { s.cpu c with message := true } with init := .counting c } where
  count := by
    have hcounted : counted current (.counting c) = counted current s.init := by
      rw [hinit]
      rfl
    refine h.count.trans (Finset.sum_congr rfl fun d _ => ?_)
    simp only [credit, hcounted, set_cpu]
    split_ifs with hd
    · subst hd
      rfl
    · rfl
  passed := c.isLt.le
  counting k hk := by
    cases hk
    exact ⟨c.isLt, fun hc => hne (Fin.ext hc)⟩
  asked d := by
    by_cases hd : d = c
    · exact .inr (.inl (hd ▸ rfl))
    · rcases h.asked d with hasked | hasked | hidle
      · rw [hinit] at hasked
        exact .inl hasked
      · rw [hinit] at hasked
        cases hasked
      · refine .inr (.inr ?_)
        rw [set_cpu, if_neg hd]
        exact hidle
  current := by rintro (hw | hw) <;> cases hw
  written d := by
    rw [set_cpu]
    split_ifs with hd
    · exact h.written c
    · exact h.written d

lemma Inv.count_succ (h : Inv current rawHandler s) (hc : counted current s.init c = false)
    (hcounted : ∀ d, counted current t.init d = (d = c || counted current s.init d))
    (hcpu : ∀ d, (t.cpu d).decremented = (s.cpu d).decremented) :
    s.initCount + 1 = ∑ d, credit current t d := by
  have hsame : ∀ d, d ≠ c → credit current t d = credit current s d := fun d hd => by
    simp [credit, hcounted, hcpu, hd]
  rw [sum_credit c hsame, ← h.count]
  simp [credit, hcounted, hcpu, hc]

lemma Inv.increment (h : Inv current rawHandler s) (hinit : s.init = .counting c)
    (hne : c ≠ current) : Inv current rawHandler
      { s with init := .scanning (c + 1), initCount := s.initCount + 1 } := by
  have hcounted : ∀ d, counted current (.scanning (c + 1)) d =
      (d = c || counted current s.init d) := by
    intro d
    by_cases hd : d = current
    · subst hd
      simp [counted, hinit, InitStep.called, hne.symm]
    · rw [Bool.eq_iff_iff, Bool.or_eq_true, decide_eq_true_iff, counted_of_ne hd,
        counted_of_ne hd, hinit, Fin.ext_iff]
      show d.val < c.val + 1 ↔ d.val = c.val ∨ d.val < c.val
      omega
  constructor
  case count =>
    refine h.count_succ ?_ hcounted fun _ => rfl
    simp [counted, hinit, hne, InitStep.passed]
  case passed => exact c.isLt
  case counting =>
    intro j hj
    cases hj
  case asked =>
    intro d
    rw [Asked, hcounted]
    rcases h.asked d with hd | hd | hd
    · exact .inl (by simp [hd])
    · rw [hinit] at hd
      exact .inl (by simp [Fin.ext (InitStep.counting.inj hd)])
    · exact .inr (.inr hd)
  case current => rintro (hw | hw) <;> cases hw
  case written => exact h.written

lemma Inv.incrementSelf (h : Inv current rawHandler s) (hinit : s.init = .countingSelf) :
    Inv current rawHandler { s.set current ((s.cpu current).goto .setIstNmi) with
      init := .setting
      initCount := s.initCount + 1 } := by
  have hidle : (s.cpu current).next = .idle := by
    rcases h.asked current with hd | hd | hd
    · simp [counted, hinit, InitStep.called] at hd
    · rw [hinit] at hd
      cases hd
    · exact hd.2
  have hcounted : ∀ d, counted current .setting d =
      (d = current || counted current s.init d) := by
    intro d
    by_cases hd : d = current
    · simp [counted, hd, InitStep.called]
    · simp [counted, hinit, hd, InitStep.passed]
  constructor
  case count =>
    refine h.count_succ (c := current) ?_ hcounted fun d => ?_
    · simp [counted, hinit, InitStep.called]
    · simp only [set_cpu]
      split_ifs with hd
      · simp [hd, hidle, Cpu.decremented, Cpu.goto]
      · rfl
  case passed => exact le_rfl
  case counting =>
    intro j hj
    cases hj
  case asked =>
    intro d
    rw [Asked, hcounted, set_cpu]
    by_cases hd : d = current
    · exact .inl (by simp [hd])
    · rw [if_neg hd]
      rcases h.asked d with hasked | hasked | hasked
      · exact .inl (by simp [hasked])
      · rw [hinit] at hasked
        cases hasked
      · exact .inr (.inr hasked)
  case current => rintro (hw | hw) <;> cases hw
  case written =>
    intro d
    rw [set_cpu]
    split_ifs with hd
    · trivial
    · exact h.written d

lemma Inv.init (h : Inv current rawHandler s) (ht : initializeStep current s = some t) :
    Inv current rawHandler t := by
  cases hinit : s.init with
  | scanning j =>
    have hle : j ≤ n := by simpa [hinit, InitStep.passed] using h.passed
    by_cases hj : j < n
    · by_cases hc : (⟨j, hj⟩ : Fin n) = current
      · obtain rfl : _ = t := by simpa [initializeStep, hinit, hj, hc] using ht
        refine h.advance (funext fun d => ?_) hj (by simp [hinit]) (by simp) (by simp)
        by_cases hd : d = current
        · simp [counted, hinit, hd, InitStep.called]
        · have hdj : d.val ≠ j := fun he => hd ((Fin.ext he).trans hc)
          rw [Bool.eq_iff_iff, counted_of_ne hd, counted_of_ne hd, hinit]
          show d.val < j + 1 ↔ d.val < j
          omega
      · obtain rfl : _ = t := by simpa [initializeStep, hinit, hj, hc] using ht
        exact h.send hinit hc
    · obtain rfl : _ = t := by simpa [initializeStep, hinit, hj] using ht
      obtain rfl : j = n := by omega
      refine h.advance ?_ le_rfl (by simp [hinit]) (by simp) (by simp)
      rw [hinit]
      rfl
  | counting j =>
    obtain rfl : _ = t := by simpa [initializeStep, hinit] using ht
    obtain ⟨hj, hne⟩ := h.counting j hinit
    exact h.increment (c := ⟨j, hj⟩) hinit fun hc => hne (congrArg Fin.val hc)
  | countingSelf =>
    obtain rfl : _ = t := by simpa [initializeStep, hinit] using ht
    exact h.incrementSelf hinit
  | setting =>
    obtain ⟨hdone, rfl⟩ : (s.cpu current).next = .done ∧ _ = t := by
      simpa [initializeStep, hinit] using ht
    refine h.advance ?_ le_rfl (by simp [hinit]) (by simp) fun _ => hdone
    rw [hinit]
    rfl
  | waiting =>
    obtain rfl : _ = t := by simpa [initializeStep, hinit] using ht
    have hdone := h.current (.inl hinit)
    refine h.advance ?_ ?_ (by simp [hinit]) ?_ fun _ => hdone
    · rw [hinit]
      split_ifs <;> rfl
    · split_ifs <;> exact le_rfl
    · intro j
      split_ifs <;> simp
  | returned => simp [initializeStep, hinit] at ht

lemma Inv.start (h : (system current rawHandler).start s) : Inv current rawHandler s := by
  obtain ⟨hinit, hcount, hcpu⟩ := h
  constructor
  case count =>
    rw [hcount]
    refine (Finset.sum_eq_zero fun c _ => ?_).symm
    simp [credit, counted, hinit, (hcpu c).2, Cpu.decremented, InitStep.called, InitStep.passed]
  case passed => simp [hinit, InitStep.passed]
  case counting => simp [hinit]
  case asked => exact fun c => .inr (.inr (hcpu c))
  case current => simp [hinit]
  case written =>
    intro c
    simp [Cpu.Written, (hcpu c).2]

lemma Inv.of_reachable (h : (system current rawHandler).Reachable s) :
    Inv current rawHandler s := by
  refine h.invariant (fun _ => .start) fun s a t _ hs ht => ?_
  cases a with
  | init => exact hs.init ht
  | deliver c =>
    obtain ⟨⟨hm, hidle⟩, rfl⟩ : ((s.cpu c).message = true ∧ (s.cpu c).next = .idle) ∧ _ = t := by
      simpa [system, step] using ht
    exact hs.deliver hm hidle
  | register c => exact hs.register ht

/-- When the wait loop reads 0, every CPU has taken itself off `initCount`. -/
lemma Inv.all_decremented (h : Inv current rawHandler s) (ho : Observes s) (c : Fin n) :
    (s.cpu c).decremented = true := by
  obtain ⟨hinit, hzero⟩ := ho
  have hcounted : ∀ d, counted current s.init d = true := fun d => by
    simp [counted, hinit, InitStep.called, InitStep.passed]
  have hsum : ∑ d, credit current s d = 0 := h.count ▸ hzero
  have hnonneg : ∀ d ∈ Finset.univ, 0 ≤ credit current s d := fun d _ => by
    cases hd : (s.cpu d).decremented <;> simp [credit, hcounted, hd]
  have hc := (Finset.sum_eq_zero_iff_of_nonneg hnonneg).mp hsum c (Finset.mem_univ c)
  cases hd : (s.cpu c).decremented
  · simp [credit, hcounted, hd] at hc
  · rfl

/-- In every run, whenever the wait loop reads 0: every CPU has written its registers if and
only if none is between its decrement of `initCount` and its last write. -/
theorem barrier_iff_none_early (h : (system current rawHandler).Reachable s)
    (ho : Observes s) :
    (∀ c, (s.cpu c).Finished rawHandler) ↔ ∀ c, (s.cpu c).early = false := by
  have hs := Inv.of_reachable h
  refine forall_congr' fun c => ?_
  have hdec := hs.all_decremented ho c
  have hw := hs.written c
  cases hn : (s.cpu c).next <;>
    simp_all [Cpu.decremented, Cpu.Written, Cpu.Finished, Cpu.early]

/-- The wait loop does not read 0 while a CPU is early. -/
def Settled (s : State n) (a : Action n) : Prop :=
  a = .init → Observes s → ∀ c, (s.cpu c).early = false

lemma observes_of_returned (ht : initializeStep current s = some t) (hr : t.init = .returned) :
    Observes s ∧ t.cpu = s.cpu := by
  unfold initializeStep at ht
  split at ht
  case h_5 hinit =>
    cases ht
    exact ⟨⟨hinit, by simpa using hr⟩, rfl⟩
  all_goals
    try split_ifs at ht
    all_goals cases ht
    all_goals cases hr

lemma register_init (ht : setCpuRegisters rawHandler s c = some t) : t.init = s.init := by
  cases hn : (s.cpu c).next <;> simp only [setCpuRegisters, hn, reduceCtorEq, Option.some.injEq] at ht
  all_goals rw [← ht, State.set]

lemma register_finished (ht : setCpuRegisters rawHandler s c = some t)
    (h : ∀ d, (s.cpu d).Finished rawHandler) (d : Fin n) : (t.cpu d).Finished rawHandler := by
  obtain ⟨hnext, hmsr⟩ := h c
  rcases hnext with hn | hn
  · obtain rfl : _ = t := by simpa [setCpuRegisters, hn] using ht
    rw [set_cpu]
    split_ifs
    · exact ⟨.inr rfl, hmsr⟩
    · exact h d
  · simp [setCpuRegisters, hn] at ht

/-- Where it never does, every CPU is ready for system calls once `Initialize` has returned. -/
theorem settled_run_returns_finished
    (h : ((system current rawHandler).restrict Settled).Reachable s)
    (hr : s.init = .returned) (c : Fin n) : (s.cpu c).Finished rawHandler := by
  refine (h.invariant (P := fun s => (system current rawHandler).Reachable s ∧
    (s.init = .returned → ∀ c, (s.cpu c).Finished rawHandler)) ?_ ?_).2 hr c
  · rintro s hs
    refine ⟨.start hs, fun hr => ?_⟩
    rw [hs.1] at hr
    cases hr
  · rintro s a t - ⟨hreach, hfin⟩ ⟨hsettled, ht⟩
    refine ⟨hreach.next ht, fun hr => ?_⟩
    cases a with
    | init =>
      obtain ⟨ho, hcpu⟩ := observes_of_returned ht hr
      rw [hcpu]
      exact (barrier_iff_none_early hreach ho).mpr (hsettled rfl ho)
    | deliver d =>
      obtain ⟨⟨-, hidle⟩, rfl⟩ : ((s.cpu d).message = true ∧ (s.cpu d).next = .idle) ∧ _ = t := by
        simpa [system, step] using ht
      have hd := (hfin hr d).1
      simp [hidle] at hd
    | register d =>
      have hinit : s.init = .returned := register_init ht ▸ hr
      exact register_finished ht (hfin hinit)

end

/-- Two CPUs of which the first initializes, up to the wait loop, and `k` steps of the second. -/
def twoCpus (k : ℕ) : List (Action 2) :=
  List.replicate 5 .init ++ List.replicate 8 (.register ⟨0, Nat.two_pos⟩) ++
    .init :: .deliver ⟨1, Nat.one_lt_two⟩ :: List.replicate k (.register ⟨1, Nat.one_lt_two⟩)

def twoCpusStart : State 2 := ⟨.scanning 0, 0, fun _ => 0, fun _ => ⟨false, .idle, fun _ => 0⟩⟩

lemma twoCpus_run (k : ℕ) (next : RegisterStep)
    (h : (((twoCpus k).foldlM (step 0 0x108000) twoCpusStart).map fun s =>
      (s.init, s.initCount, (s.cpu 0).next, (s.cpu 1).next)) =
        some (.waiting, 0, .done, next)) :
    ∃ s : State 2, (system 0 0x108000).Reachable s ∧ Observes s ∧ (s.cpu 0).next = .done ∧
      (s.cpu 1).next = next := by
  obtain ⟨s, hs, hview⟩ := Option.map_eq_some_iff.mp h
  have hstart : (system (0 : Fin 2) 0x108000).start twoCpusStart := ⟨rfl, rfl, fun _ => ⟨rfl, rfl⟩⟩
  simp only [Prod.mk.injEq] at hview
  obtain ⟨hinit, hcount, h0, h1⟩ := hview
  exact ⟨s, (System.Reachable.start hstart).run (fun _ _ _ => id) hs, ⟨hinit, hcount⟩, h0, h1⟩

theorem barrier_iff_none_early_two_cpus : ∃ s : State 2, (system 0 0x108000).Reachable s ∧
    Observes s ∧ ∀ c, (s.cpu c).Finished 0x108000 := by
  obtain ⟨s, hs, ho, h0, h1⟩ := twoCpus_run 8 .done (by decide)
  refine ⟨s, hs, ho, (barrier_iff_none_early hs ho).mpr (Fin.forall_fin_two.mpr ⟨?_, ?_⟩)⟩
  · simp [Cpu.early, h0]
  · simp [Cpu.early, h1]

/-- The second CPU has taken itself off the count and written nothing, and the wait loop
reads 0. -/
theorem barrier_passed_early : ∃ s : State 2, (system 0 0x108000).Reachable s ∧ Observes s ∧
    ¬ ∀ c, (s.cpu c).Finished 0x108000 := by
  obtain ⟨s, hs, ho, -, h1⟩ := twoCpus_run 4 .writeStar (by decide)
  refine ⟨s, hs, ho, fun hfin => ?_⟩
  have hnext := (hfin 1).1
  simp [h1] at hnext

end Anarch.SyscallModule
