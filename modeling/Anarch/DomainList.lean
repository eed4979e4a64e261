import Anarch.TransitionRun
import Mathlib.Data.BitVec
import Mathlib.Logic.Function.Basic

/-! `DomainList::StartCpus` on the boot processor against the start-up code of the other
processors, which may begin to run at any time after their STARTUP IPI. -/
namespace Anarch.DomainList
open TransitionRun

abbrev ApicId := BitVec 32

/-- Where a processor is: it waits for a STARTUP IPI, or got one, or is before
`initLock.Seize()`, in the rest of `CpuEntrance`, at the two statements of `CpuStall`, or
halted. -/
inductive Phase
  | waiting
  | starting
  | seizing
  | entering
  | flagging
  | releasing
  | halted
  deriving DecidableEq, Repr

/-- The next step of `StartCpus`, with the rest of the APIC table. In `BootstrapCpu(id)`, `j`
counts the STARTUP IPIs and `i` the waits after each. -/
inductive Boot
  | scanning (rest : List ApicId)
  | sendInit (id : ApicId) (rest : List ApicId)
  | clearFlag (id : ApicId) (rest : List ApicId)
  | sendStartup (id : ApicId) (j : ℕ) (rest : List ApicId)
  | seize (id : ApicId) (j i : ℕ) (rest : List ApicId)
  | check (id : ApicId) (j i : ℕ) (rest : List ApicId)
  deriving DecidableEq, Repr

inductive Owner
  | boot
  | processor (id : ApicId)
  deriving DecidableEq, Repr

/-- `cpus` are the processors that have a `Cpu` object in the main domain. -/
structure State where
  boot : Boot
  initLock : Option Owner
  initFlag : Bool
  cpus : List ApicId
  phase : ApicId → Phase

inductive Action
  | boot
  | processor (id : ApicId)
  deriving DecidableEq, Repr

def State.goto (s : State) (id : ApicId) (p : Phase) : State :=
  { s with phase := Function.update s.phase id p }

/-- After the wait `i` of the IPI `j`: 20 waits for each of two IPIs. -/
def nextWait (id : ApicId) (j i : ℕ) (rest : List ApicId) : Boot :=
  if i + 1 < 20 then .seize id j (i + 1) rest
  else if j + 1 < 2 then .sendStartup id (j + 1) rest
  else .scanning rest

/-- The next step of `StartCpus`; `own` is the APIC id of the boot processor. A STARTUP IPI
has no effect on a processor that does not wait for it. -/
def bootStep (own : ApicId) (s : State) : Option State :=
  match s.boot with
  | .scanning [] => none
  | .scanning (id :: rest) =>
      some { s with boot := if id = own then .scanning rest else .sendInit id rest }
  | .sendInit id rest => some { s.goto id .waiting with boot := .clearFlag id rest }
  | .clearFlag id rest => some { s with initFlag := false, boot := .sendStartup id 0 rest }
  | .sendStartup id j rest =>
      let p := if s.phase id = .waiting then .starting else s.phase id
      some { s.goto id p with boot := .seize id j 0 rest }
  | .seize id j i rest =>
      if s.initLock = none then
        some { s with initLock := some .boot, boot := .check id j i rest }
      else none
  | .check id j i rest =>
      some { s with
        initLock := none
        boot := if s.initFlag then .scanning rest else nextWait id j i rest }

/-- The next step of a processor that has got a STARTUP IPI. -/
def processorStep (s : State) (id : ApicId) : Option State :=
  match s.phase id with
  | .waiting => none
  | .starting => some (s.goto id .seizing)
  | .seizing =>
      if s.initLock = none then
        some { s.goto id .entering with initLock := some (.processor id) }
      else none
  | .entering => some { s.goto id .flagging with cpus := s.cpus ++ [id] }
  | .flagging => some { s.goto id .releasing with initFlag := true }
  | .releasing => some { s.goto id .halted with initLock := none }
  | .halted => none

def step (own : ApicId) (s : State) : Action → Option State
  | .boot => bootStep own s
  | .processor id => processorStep s id

/-- `StartCpus` begins: the lock is free, the flag is not initialized, and no other
processor runs kernel code. -/
def system (own : ApicId) (ids : List ApicId) : System State Action where
  start s := s.boot = .scanning ids ∧ s.initLock = none ∧ ∀ id, s.phase id = .waiting
  step s a t := step own s a = some t

/-- `BootstrapCpu` is about to return because it sees `initFlag` set. -/
def Reports (s : State) (id : ApicId) : Prop :=
  (∃ j i rest, s.boot = .check id j i rest) ∧ s.initFlag = true

/-- The processor has completed `CpuEntrance` and has its `Cpu` object. -/
def Completed (s : State) (id : ApicId) : Prop := s.phase id = .halted ∧ id ∈ s.cpus

/-- The processor runs on the stack below 0x5000. -/
def Phase.onStartupStack : Phase → Bool
  | .seizing | .entering => true
  | _ => false

/-- A processor is reported started only when it is, and the start-up stack is used by one
processor at a time. -/
def StartsRight (s : State) : Prop :=
  (∀ id, Reports s id → Completed s id) ∧
    ∀ id id', (s.phase id).onStartupStack = true → (s.phase id').onStartupStack = true → id = id'

/-- `BootstrapCpu` waits for this processor: it has sent the STARTUP IPI. -/
def Boot.waitsFor (id : ApicId) : Boot → Prop
  | .seize id' _ _ _ | .check id' _ _ _ => id' = id
  | .sendStartup id' j _ => id' = id ∧ 0 < j
  | _ => False

/-- `BootstrapCpu` gives up on the processor with its next step. -/
def GivesUp (s : State) (id : ApicId) : Prop :=
  s.initFlag = false ∧ ∃ j i rest, s.boot = .check id j i rest ∧ nextWait id j i rest = .scanning rest

/-- A processor begins to run only while `BootstrapCpu` waits for it, and `BootstrapCpu`
does not give up on one that is on its way to `initLock`. -/
def Timely (s : State) : Action → Prop
  | .processor id => s.phase id = .starting → s.boot.waitsFor id
  | .boot => ∀ id, GivesUp s id → s.phase id ≠ .seizing

def Phase.running : Phase → Bool
  | .seizing | .entering | .flagging | .releasing => true
  | _ => false

def Phase.locked : Phase → Bool
  | .entering | .flagging | .releasing => true
  | _ => false

def Boot.locked : Boot → Bool
  | .check _ _ _ _ => true
  | _ => false

/-- `BootstrapCpu` has cleared the flag for this processor. -/
def Boot.cleared (id : ApicId) : Boot → Prop
  | .seize id' _ _ _ | .check id' _ _ _ | .sendStartup id' _ _ => id' = id
  | _ => False

structure Inv (s : State) : Prop where
  awaited : ∀ id, (s.phase id).running = true → s.boot.waitsFor id
  lockBoot : s.initLock = some .boot ↔ s.boot.locked = true
  lockProcessor : ∀ id, s.initLock = some (.processor id) ↔ (s.phase id).locked = true
  flagged : ∀ id, s.boot.cleared id → s.initFlag = true →
    s.phase id = .releasing ∨ s.phase id = .halted
  created : ∀ id, s.phase id = .flagging ∨ s.phase id = .releasing ∨ s.phase id = .halted →
    id ∈ s.cpus

section
variable {own id : ApicId} {ids : List ApicId} {s t : State}

lemma goto_phase (s : State) (id id' : ApicId) (p : Phase) :
    (s.goto id p).phase id' = if id' = id then p else s.phase id' := Function.update_apply ..

@[simp] lemma goto_boot (s : State) (id : ApicId) (p : Phase) : (s.goto id p).boot = s.boot := rfl

lemma Boot.waitsFor_unique {b : Boot} {id' : ApicId} (h : b.waitsFor id) (h' : b.waitsFor id') :
    id = id' := by
  cases b with
  | seize | check => exact h.symm.trans h'
  | sendStartup => exact h.1.symm.trans h'.1
  | _ => exact h.elim

lemma Boot.waitsFor.cleared {b : Boot} (h : b.waitsFor id) : b.cleared id := by
  cases b with
  | seize | check => exact h
  | sendStartup => exact h.1
  | _ => exact h.elim

lemma Inv.not_locked (h : Inv s) (hb : s.boot.locked = true) (id : ApicId) :
    (s.phase id).locked = false := by
  rw [← Bool.not_eq_true, ← h.lockProcessor, h.lockBoot.mpr hb]
  simp

lemma Inv.startsRight (h : Inv s) : StartsRight s := by
  constructor
  · rintro id ⟨⟨j, i, rest, hb⟩, hflag⟩
    have hfree := h.not_locked (by rw [hb]; rfl) id
    have hcleared : s.boot.cleared id := by
      rw [hb]
      rfl
    rcases h.flagged id hcleared hflag with hp | hp
    · simp [hp, Phase.locked] at hfree
    · exact ⟨hp, h.created id (.inr (.inr hp))⟩
  · intro id id' hid hid'
    have hrun : ∀ p : Phase, p.onStartupStack = true → p.running = true := by
      rintro (_ | _ | _ | _ | _ | _ | _) hp <;> first | rfl | cases hp
    exact Boot.waitsFor_unique (h.awaited id (hrun _ hid)) (h.awaited id' (hrun _ hid'))

lemma Boot.cleared_unique {b : Boot} {id' : ApicId} (h : b.cleared id) (h' : b.cleared id') :
    id = id' := by
  cases b with
  | seize | check | sendStartup => exact h.symm.trans h'
  | _ => exact h.elim

lemma Inv.awaited_goto (h : Inv s) (hw : s.boot.waitsFor id) {q : Phase} (id' : ApicId)
    (hid' : ((s.goto id q).phase id').running = true) : s.boot.waitsFor id' := by
  rw [goto_phase] at hid'
  split_ifs at hid' with he
  · exact he ▸ hw
  · exact h.awaited id' hid'

lemma Inv.move (h : Inv s) {q : Phase} {cpus : List ApicId} (hw : s.boot.waitsFor id)
    (hlocked : q.locked = (s.phase id).locked)
    (hflag : s.phase id ≠ .releasing ∧ s.phase id ≠ .halted)
    (hcpus : s.cpus ⊆ cpus) (hcreated : q = .flagging → id ∈ cpus)
    (hearly : q ≠ .releasing ∧ q ≠ .halted) :
    Inv { s.goto id q with cpus } where
  awaited := h.awaited_goto hw
  lockBoot := h.lockBoot
  lockProcessor id' := by
    rw [goto_phase]
    split_ifs with he
    · rw [he, hlocked]
      exact h.lockProcessor id
    · exact h.lockProcessor id'
  flagged id' hc hf := by
    obtain rfl := Boot.cleared_unique hw.cleared hc
    rcases h.flagged id hw.cleared hf with hp | hp
    · exact absurd hp hflag.1
    · exact absurd hp hflag.2
  created id' hid' := by
    rw [goto_phase] at hid'
    split_ifs at hid' with he
    · rcases hid' with hq | hq | hq
      · exact he ▸ hcreated hq
      · exact absurd hq hearly.1
      · exact absurd hq hearly.2
    · exact hcpus (h.created id' hid')

lemma Inv.processorSeize (h : Inv s) (hp : s.phase id = .seizing) (hl : s.initLock = none) :
    Inv { s.goto id .entering with initLock := some (.processor id) } := by
  have hw := h.awaited id (by rw [hp]; rfl)
  have hboot := h.lockBoot
  constructor
  case awaited => exact h.awaited_goto hw
  case lockBoot => simpa [hl] using hboot
  case lockProcessor =>
    intro id'
    have hother := h.lockProcessor id'
    rw [goto_phase]
    split_ifs with he
    · simp [he, Phase.locked]
    · simpa [hl, Ne.symm he] using hother
  case flagged =>
    intro id' hc hf
    obtain rfl := Boot.cleared_unique hw.cleared hc
    rcases h.flagged id hw.cleared hf with hp' | hp' <;> simp [hp] at hp'
  case created =>
    intro id' hid'
    rw [goto_phase] at hid'
    split_ifs at hid' with he
    · simp at hid'
    · exact h.created id' hid'

lemma Inv.flag (h : Inv s) (hp : s.phase id = .flagging) :
    Inv { s.goto id .releasing with initFlag := true } := by
  have hw := h.awaited id (by rw [hp]; rfl)
  constructor
  case awaited => exact h.awaited_goto hw
  case lockBoot => exact h.lockBoot
  case lockProcessor =>
    intro id'
    rw [goto_phase]
    split_ifs with he
    · rw [he]
      exact (h.lockProcessor id).trans (by rw [hp]; rfl)
    · exact h.lockProcessor id'
  case flagged =>
    intro id' hc _
    obtain rfl := Boot.cleared_unique hw.cleared hc
    exact .inl (by simp [goto_phase])
  case created =>
    intro id' hid'
    rw [goto_phase] at hid'
    split_ifs at hid' with he
    · exact he ▸ h.created id (.inl hp)
    · exact h.created id' hid'

lemma Inv.processorRelease (h : Inv s) (hp : s.phase id = .releasing) :
    Inv { s.goto id .halted with initLock := none } := by
  have hlock := (h.lockProcessor id).mpr (by rw [hp]; rfl)
  have hw := h.awaited id (by rw [hp]; rfl)
  constructor
  case awaited => exact h.awaited_goto hw
  case lockBoot => simpa [hlock] using h.lockBoot
  case lockProcessor =>
    intro id'
    have hother := h.lockProcessor id'
    rw [goto_phase]
    split_ifs with he
    · simp [Phase.locked]
    · simpa [hlock, Ne.symm he] using hother
  case flagged =>
    intro id' hc _
    obtain rfl := Boot.cleared_unique hw.cleared hc
    exact .inr (by simp [goto_phase])
  case created =>
    intro id' hid'
    rw [goto_phase] at hid'
    split_ifs at hid' with he
    · exact he ▸ h.created id (.inr (.inl hp))
    · exact h.created id' hid'

lemma Inv.processor (h : Inv s) (ha : Timely s (.processor id))
    (ht : processorStep s id = some t) : Inv t := by
  cases hp : s.phase id with
  | waiting | halted => simp [processorStep, hp] at ht
  | starting =>
    obtain rfl : _ = t := by simpa [processorStep, hp] using ht
    exact h.move (ha hp) (by rw [hp]; rfl) (by simp [hp]) (List.Subset.refl _) (by simp) (by simp)
  | seizing =>
    obtain ⟨hl, rfl⟩ : s.initLock = none ∧ _ = t := by simpa [processorStep, hp] using ht
    exact h.processorSeize hp hl
  | entering =>
    obtain rfl : _ = t := by simpa [processorStep, hp] using ht
    exact h.move (h.awaited id (by rw [hp]; rfl)) (by rw [hp]; rfl) (by simp [hp])
      (List.subset_append_left _ _) (by simp) (by simp)
  | flagging =>
    obtain rfl : _ = t := by simpa [processorStep, hp] using ht
    exact h.flag hp
  | releasing =>
    obtain rfl : _ = t := by simpa [processorStep, hp] using ht
    exact h.processorRelease hp

lemma Inv.bootMove (h : Inv s) {b : Boot} (hlocked : b.locked = s.boot.locked)
    (hwaits : ∀ id, (s.phase id).running = true → b.waitsFor id)
    (hcleared : ∀ id, b.cleared id → s.boot.cleared id) : Inv { s with boot := b } where
  awaited := hwaits
  lockBoot := h.lockBoot.trans (by rw [hlocked])
  lockProcessor := h.lockProcessor
  flagged id hc hf := h.flagged id (hcleared id hc) hf
  created := h.created

lemma locked_running {p : Phase} (h : p.running = false) : p.locked = false := by
  cases p <;> first | rfl | cases h

lemma Inv.sendInit (h : Inv s) {rest : List ApicId} (hb : s.boot = .sendInit id rest) :
    Inv { s.goto id .waiting with boot := .clearFlag id rest } := by
  have hnone : ∀ id', (s.phase id').running = false := fun id' => by
    rw [← Bool.not_eq_true]
    intro hrun
    simpa [hb, Boot.waitsFor] using h.awaited id' hrun
  constructor
  case awaited =>
    intro id' hid'
    rw [goto_phase] at hid'
    split_ifs at hid' with he
    · cases hid'
    · simp [hnone id'] at hid'
  case lockBoot => exact h.lockBoot.trans (by rw [hb]; rfl)
  case lockProcessor =>
    intro id'
    rw [goto_phase]
    split_ifs with he
    · rw [he]
      exact (h.lockProcessor id).trans (by rw [locked_running (hnone id)]; rfl)
    · exact h.lockProcessor id'
  case flagged => exact fun id' hc => hc.elim
  case created =>
    intro id' hid'
    rw [goto_phase] at hid'
    split_ifs at hid' with he
    · simp at hid'
    · exact h.created id' hid'

lemma Inv.clearFlag (h : Inv s) {rest : List ApicId} (hb : s.boot = .clearFlag id rest) :
    Inv { s with initFlag := false, boot := .sendStartup id 0 rest } where
  awaited id' hid' := by simpa [hb, Boot.waitsFor] using h.awaited id' hid'
  lockBoot := h.lockBoot.trans (by rw [hb]; rfl)
  lockProcessor := h.lockProcessor
  flagged _ _ hf := by cases hf
  created := h.created

lemma Inv.sendStartup (h : Inv s) {j : ℕ} {rest : List ApicId}
    (hb : s.boot = .sendStartup id j rest) :
    Inv { s.goto id (if s.phase id = .waiting then .starting else s.phase id) with
      boot := .seize id j 0 rest } := by
  have hsame : ∀ id', (s.goto id (if s.phase id = .waiting then .starting else
      s.phase id)).phase id' = s.phase id' ∨ id' = id ∧ s.phase id = .waiting ∧
        (s.goto id (if s.phase id = .waiting then .starting else s.phase id)).phase id' =
          .starting := by
    intro id'
    rw [goto_phase]
    split_ifs with he hp
    · exact .inr ⟨he, hp, rfl⟩
    · exact .inl (he ▸ rfl)
    · exact .inl rfl
  constructor
  case awaited =>
    intro id' hid'
    rcases hsame id' with he | ⟨-, -, he⟩
    · have hw := h.awaited id' (he ▸ hid')
      rw [hb] at hw
      exact hw.1
    · rw [he] at hid'
      cases hid'
  case lockBoot => exact h.lockBoot.trans (by rw [hb]; rfl)
  case lockProcessor =>
    intro id'
    have hlock := h.lockProcessor id'
    rcases hsame id' with he | ⟨rfl, hp, he⟩
    · rw [he]
      exact hlock
    · rw [he]
      exact hlock.trans (by rw [hp]; rfl)
  case flagged =>
    intro id' hc hf
    obtain rfl : id = id' := hc
    have hphase := h.flagged id (by rw [hb]; rfl) hf
    rcases hsame id with he | ⟨-, hp, -⟩
    · rw [he]
      exact hphase
    · simp [hp] at hphase
  case created =>
    intro id' hid'
    rcases hsame id' with he | ⟨-, -, he⟩
    · exact h.created id' (he ▸ hid')
    · simp [he] at hid'

lemma Inv.bootSeize (h : Inv s) {j i : ℕ} {rest : List ApicId} (hb : s.boot = .seize id j i rest)
    (hl : s.initLock = none) :
    Inv { s with initLock := some .boot, boot := .check id j i rest } where
  awaited id' hid' := by simpa [hb, Boot.waitsFor] using h.awaited id' hid'
  lockBoot := by simp [Boot.locked]
  lockProcessor id' := by simpa [hl] using h.lockProcessor id'
  flagged id' hc hf := h.flagged id' (by rwa [hb]) hf
  created := h.created

lemma Inv.bootRelease (h : Inv s) {b : Boot} (hb : s.boot.locked = true)
    (hlocked : b.locked = false) (hwaits : ∀ id, (s.phase id).running = true → b.waitsFor id)
    (hcleared : ∀ id, b.cleared id → s.boot.cleared id) :
    Inv { s with initLock := none, boot := b } where
  awaited := hwaits
  lockBoot := by simp [hlocked]
  lockProcessor id := by simp [h.not_locked hb id]
  flagged id hc hf := h.flagged id (hcleared id hc) hf
  created := h.created

lemma nextWait_unlocked (id : ApicId) (j i : ℕ) (rest : List ApicId) :
    (nextWait id j i rest).locked = false := by
  unfold nextWait
  split_ifs <;> rfl

lemma cleared_nextWait {id' : ApicId} {j i : ℕ} {rest : List ApicId}
    (h : (nextWait id j i rest).cleared id') : id = id' := by
  unfold nextWait at h
  split_ifs at h
  · exact h
  · exact h
  · exact h.elim

lemma waitsFor_nextWait (id : ApicId) (j i : ℕ) (rest : List ApicId) :
    (nextWait id j i rest).waitsFor id ∨ nextWait id j i rest = .scanning rest := by
  unfold nextWait
  split_ifs
  · exact .inl rfl
  · exact .inl ⟨rfl, Nat.succ_pos j⟩
  · exact .inr rfl

lemma Inv.check (h : Inv s) (ha : Timely s .boot) {j i : ℕ} {rest : List ApicId}
    (hb : s.boot = .check id j i rest) : Inv { s with
      initLock := none
      boot := if s.initFlag then .scanning rest else nextWait id j i rest } := by
  have hlocked : s.boot.locked = true := by
    rw [hb]
    rfl
  have honly : ∀ id', (s.phase id').running = true → id' = id := fun id' hrun => by
    have hw := h.awaited id' hrun
    rw [hb] at hw
    exact hw.symm
  split_ifs with hf
  · refine h.bootRelease hlocked rfl (fun id' hrun => ?_) fun _ hc => False.elim hc
    obtain rfl := honly id' hrun
    have hdone := (h.startsRight.1 id' ⟨⟨j, i, rest, hb⟩, hf⟩).1
    simp [hdone, Phase.running] at hrun
  · refine h.bootRelease hlocked (nextWait_unlocked id j i rest) (fun id' hrun => ?_)
      fun id' hc => ?_
    · obtain rfl := honly id' hrun
      refine (waitsFor_nextWait id' j i rest).resolve_right fun hgive => ?_
      have hfree := h.not_locked hlocked id'
      have hseizing := ha id' ⟨Bool.eq_false_iff.mpr hf, j, i, rest, hb, hgive⟩
      cases hp : s.phase id' <;> simp_all [Phase.running, Phase.locked]
    · rw [hb]
      exact cleared_nextWait hc

lemma Inv.boot (h : Inv s) (ha : Timely s .boot) (ht : bootStep own s = some t) : Inv t := by
  cases hb : s.boot with
  | scanning ids =>
    cases ids with
    | nil => simp [bootStep, hb] at ht
    | cons id rest =>
      obtain rfl : _ = t := by simpa [bootStep, hb] using ht
      have hnone : ∀ id', ¬ (s.phase id').running = true := fun id' hrun => by
        simpa [hb, Boot.waitsFor] using h.awaited id' hrun
      refine h.bootMove ?_ (fun id' hrun => absurd hrun (hnone id')) fun id' hc => ?_
      · rw [hb]
        split_ifs <;> rfl
      · split_ifs at hc
        · exact hc.elim
        · exact hc.elim
  | sendInit id rest =>
    obtain rfl : _ = t := by simpa [bootStep, hb] using ht
    exact h.sendInit hb
  | clearFlag id rest =>
    obtain rfl : _ = t := by simpa [bootStep, hb] using ht
    exact h.clearFlag hb
  | sendStartup id j rest =>
    obtain rfl : _ = t := by simpa [bootStep, hb] using ht
    exact h.sendStartup hb
  | seize id j i rest =>
    obtain ⟨hl, rfl⟩ : s.initLock = none ∧ _ = t := by simpa [bootStep, hb] using ht
    exact h.bootSeize hb hl
  | check id j i rest =>
    obtain rfl : _ = t := by simpa [bootStep, hb] using ht
    exact h.check ha hb

lemma Inv.start (h : (system own ids).start s) : Inv s := by
  obtain ⟨hb, hl, hp⟩ := h
  constructor
  case awaited => simp [hp, Phase.running]
  case lockBoot => simp [hb, hl, Boot.locked]
  case lockProcessor => simp [hl, hp, Phase.locked]
  case flagged => simp [hb, Boot.cleared]
  case created => simp [hp]

/-- In every run in which no processor comes late, `BootstrapCpu` reports only processors that
have started, and the start-up stack has one user at a time. -/
theorem timely_run_starts_right (h : ((system own ids).restrict Timely).Reachable s) :
    StartsRight s := by
  refine Inv.startsRight (h.invariant ?_ ?_)
  · exact fun s (hs : (system own ids).start s) => .start hs
  · rintro s a t - hs ⟨ha, ht⟩
    cases a with
    | boot => exact hs.boot ha ht
    | processor id => exact hs.processor ha ht

end

def bootState (ids : List ApicId) : State := ⟨.scanning ids, none, false, [], fun _ => .waiting⟩

lemma bootState_start (own : ApicId) (ids : List ApicId) :
    (system own ids).start (bootState ids) := ⟨rfl, rfl, fun _ => rfl⟩

/-- A step in which nobody comes late or is given up. -/
def stepTimely (own : ApicId) (s : State) : Action → Option State
  | .boot =>
      match s.boot with
      | .check _ _ i _ => if i + 1 < 20 then bootStep own s else none
      | _ => bootStep own s
  | .processor id =>
      match s.boot with
      | .seize id' _ _ _ => if id' = id then processorStep s id else none
      | _ => none

lemma stepTimely_spec (own : ApicId) (s : State) (a : Action) (t : State)
    (ht : stepTimely own s a = some t) : Timely s a ∧ step own s a = some t := by
  cases a with
  | boot =>
    have hgive : ∀ id, ¬ GivesUp s id := by
      rintro id ⟨-, j, i, rest, hb, hnext⟩
      simp only [stepTimely, hb] at ht
      split_ifs at ht with hi
      simp [nextWait, hi] at hnext
    refine ⟨fun id hid => absurd hid (hgive id), ?_⟩
    cases hb : s.boot with
    | check id j i rest =>
      simp only [stepTimely, hb] at ht
      split_ifs at ht
      exact ht
    | _ =>
      simp only [stepTimely, hb] at ht
      exact ht
  | processor id =>
    cases hb : s.boot with
    | seize id' j i rest =>
      simp only [stepTimely, hb] at ht
      split_ifs at ht with hid
      exact ⟨fun _ => by rw [hb]; exact hid, ht⟩
    | _ => simp [stepTimely, hb] at ht

/-- One processor, which starts before the second wait is over. -/
theorem timely_run_starts_one : ∃ s, ((system 0 [1]).restrict Timely).Reachable s ∧
    Reports s 1 ∧ StartsRight s := by
  let actions : List Action := List.replicate 4 .boot ++ .boot :: .boot ::
    List.replicate 5 (.processor 1) ++ [.boot]
  have hrun : (actions.foldlM (stepTimely 0) (bootState [1])).map (fun s =>
      (s.boot, s.initFlag)) = some (.check 1 0 1 [], true) := by decide +kernel
  obtain ⟨s, hs, hview⟩ := Option.map_eq_some_iff.mp hrun
  obtain ⟨hb, hf⟩ := Prod.mk.inj hview
  have hreach := (System.Reachable.start (S := (system 0 [1]).restrict Timely)
    (bootState_start 0 [1])).run (stepTimely_spec 0) hs
  exact ⟨s, hreach, ⟨⟨_, _, _, hb⟩, hf⟩, timely_run_starts_right hreach⟩

/-- The boot processor gives up on processor 1 and turns to processor 2. -/
def giveUpOnFirst : List Action := List.replicate 89 .boot

/-- Processor 1 then comes, and processor 2 is reported started. -/
theorem late_processor_misreported : ∃ s, (system 0 [1, 2]).Reachable s ∧ Reports s 2 ∧
    s.phase 2 = .starting ∧ ¬ StartsRight s := by
  let actions : List Action := giveUpOnFirst ++ List.replicate 5 (.processor 1) ++ [.boot]
  have hrun : (actions.foldlM (step 0) (bootState [1, 2])).map (fun s =>
      (s.boot, s.initFlag, s.phase 2)) = some (.check 2 0 0 [], true, .starting) := by
    decide +kernel
  obtain ⟨s, hs, hview⟩ := Option.map_eq_some_iff.mp hrun
  simp only [Prod.mk.injEq] at hview
  obtain ⟨hb, hf, hp⟩ := hview
  have hreports : Reports s 2 := ⟨⟨_, _, _, hb⟩, hf⟩
  refine ⟨s, (System.Reachable.start (bootState_start 0 [1, 2])).run (fun _ _ _ => id) hs,
    hreports, hp, fun hright => ?_⟩
  exact nomatch hp.symm.trans (hright.1 2 hreports).1

/-- Or both come at once, and both run on the start-up stack. -/
theorem two_on_startup_stack : ∃ s, (system 0 [1, 2]).Reachable s ∧
    (s.phase 1).onStartupStack = true ∧ (s.phase 2).onStartupStack = true := by
  let actions : List Action := giveUpOnFirst ++ [.processor 1, .processor 2]
  have hrun : (actions.foldlM (step 0) (bootState [1, 2])).map (fun s =>
      (s.phase 1, s.phase 2)) = some (.seizing, .seizing) := by decide +kernel
  obtain ⟨s, hs, hview⟩ := Option.map_eq_some_iff.mp hrun
  obtain ⟨h1, h2⟩ := Prod.mk.inj hview
  exact ⟨s, (System.Reachable.start (bootState_start 0 [1, 2])).run (fun _ _ _ => id) hs,
    by rw [h1]; rfl, by rw [h2]; rfl⟩

end Anarch.DomainList
