import Anarch.IOApic

/-! The PIT as a clock that is started and stopped: the interrupt input that it unmasks and the
one that it masks. -/
namespace Anarch

def IntVectors.pit : BitVec 8 := 0x20

/-- A `Pit`: its address and its divisor. -/
structure Pit where
  this : Word
  divisor : BitVec 16
  deriving DecidableEq, Repr

namespace Pit
open ApicTable

/-- `currentPit`, the counter of the PIT, the interrupt routines, the bytes sent to ports, the
base I/O APIC, and whether interrupts are on. `IOApicModule` depends on `CriticalModule`, so that
one is initialized when there is a base I/O APIC. -/
structure State where
  currentPit : Option Word
  counter : Word
  routines : BitVec 8 → Word
  ports : List (BitVec 16 × BitVec 8)
  ioApic : IOApic
  interruptFlag : Bool
  criticalModule : Bool
  initialized : criticalModule = true

def ignoreCriticality (s : State) : Bool := !s.criticalModule

def getCritical (s : State) : Bool := if ignoreCriticality s then true else !s.interruptFlag

def setCritical (flag : Bool) (s : State) : State :=
  if ignoreCriticality s then s else { s with interruptFlag := !flag }

/-- `AssertCritical` and `AssertNoncritical`. -/
def assertCritical (s : State) : Outcome Unit :=
  assertThat "IgnoreCriticality() || GetCritical()" (ignoreCriticality s || getCritical s)

def assertNoncritical (s : State) : Outcome Unit :=
  assertThat "IgnoreCriticality() || !GetCritical()" (ignoreCriticality s || !getCritical s)

def outB (port : BitVec 16) (byte : BitVec 8) (s : State) : Outcome State := do
  assertCritical s
  return { s with ports := s.ports ++ [(port, byte)] }

/-- The control word for channel 0 and the bytes of its divisor. -/
def setDivisor (divisor : BitVec 16) (s : State) : Outcome State := do
  let s ← outB 0x43 0x34 s
  let s ← outB 0x40 (divisor.setWidth 8) s
  outB 0x40 ((divisor >>> 8).setWidth 8) s

section
variable (interruptHandler : Word)

/-- `Start` up to its call of `MapIrq`. -/
def beforeMapIrq (pit : Pit) (s : State) : Outcome State := do
  assertNoncritical s
  assertThat "currentPit == NULL" (s.currentPit = none)
  let s ← setDivisor pit.divisor (setCritical true { s with counter := 0 })
  let s := setCritical false s
  return { s with
    currentPit := some pit.this
    routines := Function.update s.routines IntVectors.pit interruptHandler }

/-- `Start`, with at most so many rounds of the lookup. -/
def start (rounds : ℕ) (pit : Pit) (s : State) : Option (Outcome State) :=
  match beforeMapIrq interruptHandler pit s with
  | .error e => some (.error e)
  | .ok s =>
      (s.ioApic.mapIrq rounds 0 IntVectors.pit).map (·.map fun ioApic => { s with ioApic })

/-- `Stop` up to its call of `MaskIrq`. -/
def beforeMaskIrq (pit : Pit) (s : State) : Outcome State := do
  assertNoncritical s
  assertThat "currentPit == this" (s.currentPit = some pit.this)
  setDivisor 0xffff { s with currentPit := none }

/-- `Stop`, with at most so many rounds of the lookup. -/
def stop (rounds : ℕ) (pit : Pit) (s : State) : Option (Outcome State) :=
  match beforeMaskIrq pit s with
  | .error e => some (.error e)
  | .ok s =>
      (s.ioApic.maskIrq rounds IntVectors.pit).map (·.map fun ioApic => { s with ioApic })

/-- `Start` returns with `t`. -/
def Starts (pit : Pit) (s t : State) : Prop :=
  ∃ rounds, start interruptHandler rounds pit s = some (.ok t)

/-- `Stop` returns with `t`. -/
def Stops (pit : Pit) (s t : State) : Prop := ∃ rounds, stop rounds pit s = some (.ok t)

/-- The entry of the input is masked, and the others are what they were before. -/
def Restores (pin : BitVec 8) (before after : IOApic) : Prop :=
  after.masked pin = true ∧ ∀ i : BitVec 8, i * 2 ≠ pin * 2 → after.entry i = before.entry i

variable {interruptHandler} {pit : Pit} {s t u : State} {entries : List Entry}

lemma not_ignoreCriticality (s : State) : ignoreCriticality s = false := by
  rw [ignoreCriticality, s.initialized]
  rfl

lemma getCritical_eq (s : State) : getCritical s = !s.interruptFlag := by
  rw [getCritical, not_ignoreCriticality]
  rfl

lemma setCritical_eq (flag : Bool) (s : State) :
    setCritical flag s = { s with interruptFlag := !flag } := by
  rw [setCritical, not_ignoreCriticality]
  rfl

lemma assertCritical_eq (s : State) : assertCritical s =
    if s.interruptFlag then .error (.assertion "IgnoreCriticality() || GetCritical()")
    else .ok () := by
  rw [assertCritical, not_ignoreCriticality, getCritical_eq, assertThat]
  cases s.interruptFlag <;> rfl

lemma assertNoncritical_eq (s : State) : assertNoncritical s =
    if s.interruptFlag then .ok ()
    else .error (.assertion "IgnoreCriticality() || !GetCritical()") := by
  rw [assertNoncritical, not_ignoreCriticality, getCritical_eq, assertThat]
  cases s.interruptFlag <;> rfl

def divisorBytes (divisor : BitVec 16) : List (BitVec 16 × BitVec 8) :=
  [(0x43, 0x34), (0x40, divisor.setWidth 8), (0x40, (divisor >>> 8).setWidth 8)]

lemma setDivisor_critical (divisor : BitVec 16) (hoff : s.interruptFlag = false) :
    setDivisor divisor s = .ok { s with ports := s.ports ++ divisorBytes divisor } := by
  have hout : ∀ (u : State) (port : BitVec 16) (byte : BitVec 8), u.interruptFlag = false →
      outB port byte u = .ok { u with ports := u.ports ++ [(port, byte)] } := by
    intro u port byte hu
    rw [outB, assertCritical_eq, if_neg (Bool.eq_false_iff.mp hu)]
    rfl
  simp only [setDivisor, bind, Except.bind, hout s _ _ hoff]
  rw [hout _ _ _ (by exact hoff)]
  simp only
  rw [hout _ _ _ (by exact hoff)]
  simp [divisorBytes]

lemma setDivisor_noncritical (divisor : BitVec 16) (hs : s.interruptFlag = true) :
    setDivisor divisor s = .error (.assertion "IgnoreCriticality() || GetCritical()") := by
  rw [setDivisor, outB, assertCritical_eq, hs]
  rfl

lemma beforeMapIrq_ok (interruptHandler : Word) (pit : Pit) (hs : s.currentPit = none)
    (hon : s.interruptFlag = true) :
    ∃ t, beforeMapIrq interruptHandler pit s = .ok t ∧ t.currentPit = some pit.this ∧
      t.ioApic = s.ioApic := by
  have hsent := setDivisor_critical (s := setCritical true { s with counter := 0 }) pit.divisor
    (by rw [setCritical_eq]; rfl)
  rw [beforeMapIrq, assertNoncritical_eq, if_pos hon, decide_eq_true hs]
  simp only [assertThat, if_true, bind, Except.bind, hsent, pure, Except.pure]
  refine ⟨_, rfl, rfl, ?_⟩
  rw [setCritical_eq, setCritical_eq]

lemma beforeMapIrq_eq_ok (ht : beforeMapIrq interruptHandler pit s = .ok t) :
    s.currentPit = none ∧ s.interruptFlag = true := by
  obtain ⟨_, hon, ht⟩ := bind_eq_ok.mp ht
  obtain ⟨_, hnull, -⟩ := bind_eq_ok.mp ht
  refine ⟨by simpa using hnull, ?_⟩
  rw [assertNoncritical_eq] at hon
  by_contra hoff
  rw [if_neg hoff] at hon
  cases hon

/-- `Stop` asserts that interrupts are on and then calls `OutB`, which asserts that they are
off. -/
lemma beforeMaskIrq_fails (pit : Pit) (s : State) :
    ∃ expr, beforeMaskIrq pit s = .error (.assertion expr) := by
  rw [beforeMaskIrq, assertNoncritical_eq]
  by_cases hon : s.interruptFlag = true
  · rw [if_pos hon]
    by_cases hthis : s.currentPit = some pit.this
    · rw [decide_eq_true hthis]
      exact ⟨_, setDivisor_noncritical (s := { s with currentPit := none }) 0xffff hon⟩
    · rw [decide_eq_false hthis]
      exact ⟨_, rfl⟩
  · rw [if_neg hon]
    exact ⟨_, rfl⟩

lemma stop_fails (pit : Pit) (s : State) :
    ∃ expr, ∀ rounds, stop rounds pit s = some (.error (.assertion expr)) := by
  obtain ⟨expr, hfail⟩ := beforeMaskIrq_fails pit s
  refine ⟨expr, fun rounds => ?_⟩
  rw [stop, hfail]

lemma not_stops : ¬ Stops pit s t := by
  rintro ⟨rounds, ht⟩
  obtain ⟨expr, hfail⟩ := stop_fails pit s
  rw [hfail rounds] at ht
  cases Option.some.inj ht

section
variable (h : Encodes s.ioApic.mem s.ioApic.table entries)
include h

lemma Starts.ioApic (ht : Starts interruptHandler pit s t) : t.currentPit = some pit.this ∧
    ∃ e : IOApic.Entry, e.imask = 0 ∧
      t.ioApic = IOApic.setEntry (IOApic.pin entries 0) e s.ioApic := by
  obtain ⟨rounds, ht⟩ := ht
  unfold start at ht
  cases hbefore : beforeMapIrq interruptHandler pit s with
  | error e =>
    rw [hbefore] at ht
    cases Option.some.inj ht
  | ok v =>
    obtain ⟨hnull, hon⟩ := beforeMapIrq_eq_ok hbefore
    obtain ⟨v', hv', hthis, hio⟩ := beforeMapIrq_ok interruptHandler pit hnull hon
    obtain rfl := Except.ok.inj (hbefore.symm.trans hv')
    rw [hbefore] at ht
    obtain ⟨r, hr, ht⟩ := Option.map_eq_some_iff.mp ht
    rw [hio] at hr
    obtain rfl := (IOApic.lookupIso_map_iff h).mp ⟨rounds, hr⟩
    obtain rfl := Except.ok.inj ht
    exact ⟨hthis, IOApic.mapFound_override h IntVectors.pit⟩

lemma exists_starts (hs : s.currentPit = none) (hon : s.interruptFlag = true) :
    ∃ t, Starts interruptHandler pit s t := by
  obtain ⟨v, hv, -, hio⟩ := beforeMapIrq_ok interruptHandler pit hs hon
  obtain ⟨rounds, hr⟩ := (IOApic.lookupIso_map_iff h).mpr (rfl : _ = Except.ok
    (IOApic.mapFound 0 IntVectors.pit s.ioApic (IOApic.override s.ioApic entries 0)))
  rw [← hio] at hr
  refine ⟨{ v with
    ioApic := IOApic.mapFound 0 IntVectors.pit v.ioApic (v.ioApic.override entries 0) },
    rounds, ?_⟩
  rw [start, hv]
  exact Option.map_eq_some_iff.mpr ⟨_, hr, rfl⟩

lemma Starts.unmasked (ht : Starts interruptHandler pit s t) :
    t.ioApic.masked (IOApic.pin entries 0) = false := by
  obtain ⟨-, e, he, hio⟩ := ht.ioApic h
  rw [hio, IOApic.masked, IOApic.entry_setEntry, if_pos rfl, IOApic.masked_bits, he]
  rfl

/-- `Start` returns and leaves its entry unmasked, and no call of `Stop` returns, whether
interrupts are on or off: none masks the entry. -/
theorem stop_never_restores (hs : s.currentPit = none) (hon : s.interruptFlag = true) :
    ((∃ u, Starts interruptHandler pit s u) ∧ ∀ u, Starts interruptHandler pit s u →
      u.ioApic.masked (IOApic.pin entries 0) = false) ∧
    (∀ v, ∃ expr, ∀ rounds, stop rounds pit v = some (.error (.assertion expr))) ∧
    ¬ ∃ u t, Starts interruptHandler pit s u ∧ Stops pit u t ∧
      Restores (IOApic.pin entries 0) s.ioApic t.ioApic :=
  ⟨⟨exists_starts h hs hon, fun _ hu => hu.unmasked h⟩, stop_fails pit,
    fun ⟨_, _, _, ht, _⟩ => not_stops ht⟩

/-- If `Stop` got as far as its call of `MaskIrq`, that would mask the entry that `Start` set if
and only if the inputs of the sources 0 and 0x20 have their entry in the same registers. -/
theorem maskIrq_restores_iff (hu : Starts interruptHandler pit s u) {rounds : ℕ} {io : IOApic}
    (hmask : u.ioApic.maskIrq rounds IntVectors.pit = some (.ok io)) :
    Restores (IOApic.pin entries 0) s.ioApic io ↔
      IOApic.pin entries IntVectors.pit * 2 = IOApic.pin entries 0 * 2 := by
  obtain ⟨-, e, he, hio⟩ := hu.ioApic h
  have hkeep : Encodes u.ioApic.mem u.ioApic.table entries := by
    rw [hio]
    exact h
  obtain rfl := Except.ok.inj ((IOApic.lookupIso_map_iff hkeep).mp ⟨rounds, hmask⟩)
  rw [IOApic.maskFound_override hkeep, hio, Restores]
  constructor
  · rintro ⟨hmasked, -⟩
    by_contra hne
    rw [IOApic.masked, IOApic.entry_maskPin_of_ne (Ne.symm hne), IOApic.entry_setEntry, if_pos rfl,
      IOApic.masked_bits, he] at hmasked
    cases hmasked
  · intro hsame
    refine ⟨IOApic.masked_maskPin hsame.symm, fun i hi => ?_⟩
    rw [IOApic.entry_maskPin_of_ne (hsame ▸ hi), IOApic.entry_setEntry, if_neg hi]

end

end

/-- An APIC table at address 0 with one override, of source 0. -/
def oneOverride (pin : BitVec 8) : List Entry :=
  [⟨2, [0, 0, pin, 0, 0, 0, 0, 0], (by decide : structSize 2 ≤ 10), (by decide : 10 < 256)⟩]

/-- No PIT runs, all entries are clear, and interrupts are on. -/
def idle (pin : BitVec 8) : State where
  currentPit := none
  counter := 0
  routines := fun _ => 0
  ports := []
  ioApic :=
    { mem := .ofBytes 0 (List.replicate 4 0 ++ [54] ++ List.replicate 39 0 ++
        (oneOverride pin).flatMap Entry.bytes)
      table := 0
      select := 0
      regs := fun _ => 0 }
  interruptFlag := true
  criticalModule := true
  initialized := rfl

lemma idle_encodes {pin : BitVec 8} (hpin : pin = 2 ∨ pin = 0x20) :
    Encodes (idle pin).ioApic.mem (idle pin).ioApic.table (oneOverride pin) := by
  rcases hpin with rfl | rfl
  all_goals
    refine ⟨by decide, ?_⟩
    unfold Holds
    decide

/-- Source 0 on the input 0x20. -/
theorem stop_never_restores_shared_input : (∃ u, Starts 0 ⟨0x1000, 1000⟩ (idle 0x20) u) ∧
    ¬ ∃ u t, Starts 0 ⟨0x1000, 1000⟩ (idle 0x20) u ∧ Stops ⟨0x1000, 1000⟩ u t ∧
      Restores 0x20 (idle 0x20).ioApic t.ioApic := by
  have hpin : IOApic.pin (oneOverride 0x20) 0 = 0x20 := by decide
  obtain ⟨⟨hstarts, -⟩, -, hnever⟩ := @stop_never_restores 0 ⟨0x1000, 1000⟩ _ _
    (idle_encodes (.inr rfl)) rfl rfl
  rw [hpin] at hnever
  exact ⟨hstarts, hnever⟩

/-- Source 0 on the input 2, as on most machines: `Stop` fails, and the input stays unmasked. -/
theorem stop_leaves_input_unmasked : ∃ u, Starts 0 ⟨0x1000, 1000⟩ (idle 2) u ∧
    u.ioApic.masked 2 = false ∧ (∀ t, ¬ Stops ⟨0x1000, 1000⟩ u t) ∧
    ∃ expr, ∀ rounds, stop rounds ⟨0x1000, 1000⟩ u = some (.error (.assertion expr)) := by
  have h := idle_encodes (.inl (rfl : (2 : BitVec 8) = 2))
  obtain ⟨u, hu⟩ : ∃ u, Starts 0 ⟨0x1000, 1000⟩ (idle 2) u := exists_starts h rfl rfl
  have hpin : IOApic.pin (oneOverride 2) 0 = 2 := by decide
  have hunmasked := hu.unmasked h
  rw [hpin] at hunmasked
  exact ⟨u, hu, hunmasked, fun _ => not_stops, stop_fails ⟨0x1000, 1000⟩ u⟩

end Pit

end Anarch
