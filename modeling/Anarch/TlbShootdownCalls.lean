import Anarch.TlbShootdown

/-! What holds of a call of `DistributeInvlpg` by the place it has reached, and of the TLB
of a CPU by the maps it has loaded. -/
namespace Anarch.Tlb
open PageTable TransitionRun

namespace Phase

/-- The order of the phases of one call. -/
def rank : Phase → ℕ
  | idle => 0
  | seizing => 1
  | entering => 2
  | flushing => 3
  | choosing => 4
  | storeAddress => 5
  | storeSize => 6
  | resetCount => 7
  | scanning => 8
  | sending => 9
  | counting => 10
  | waiting => 11
  | leaving => 12
  | releasing => 13
  | returning => 14

def Holding (p : Phase) : Prop := 2 ≤ p.rank ∧ p.rank ≤ 13

/-- IPIs of the call may be under way. -/
def Live (p : Phase) : Prop := 8 ≤ p.rank ∧ p.rank ≤ 11

lemma Live.holding {p : Phase} (h : p.Live) : p.Holding := by
  unfold Live Holding at *
  omega

end Phase

section
variable {n : ℕ} {Map : Type}

/-- Among these runs of `Invlpgs` is one for the request, since the request was made. -/
def FlushedFor (flushes : List Flush) (r : Request n) : Prop :=
  ∃ f ∈ flushes, f.start = r.start ∧ f.size = r.size ∧ r.began ≤ f.time

lemma FlushedFor.mono {l l' : List Flush} {r : Request n} (h : FlushedFor l r) (hl : l ⊆ l') :
    FlushedFor l' r := by
  obtain ⟨f, hf, heq⟩ := h
  exact ⟨f, hl hf, heq⟩

lemma flushedFor_cons {l : List Flush} {r : Request n} {now : ℕ} (h : r.began ≤ now) :
    FlushedFor (⟨r.start, r.size, now⟩ :: l) r := ⟨_, List.mem_cons_self, rfl, rfl, h⟩

@[simp] lemma State.set_cpu (s : State n Map) (c d : Fin n) (x : Cpu n Map) :
    (s.set c x).cpu d = if d = c then x else s.cpu d := by
  simp [State.set, Function.update_apply]

@[simp] lemma State.set_lock (s : State n Map) (c : Fin n) (x : Cpu n Map) :
    (s.set c x).lock = s.lock := rfl

@[simp] lemma State.set_invlAddress (s : State n Map) (c : Fin n) (x : Cpu n Map) :
    (s.set c x).invlAddress = s.invlAddress := rfl

@[simp] lemma State.set_invlSize (s : State n Map) (c : Fin n) (x : Cpu n Map) :
    (s.set c x).invlSize = s.invlSize := rfl

@[simp] lemma State.set_ipiCount (s : State n Map) (c : Fin n) (x : Cpu n Map) :
    (s.set c x).ipiCount = s.ipiCount := rfl

@[simp] lemma State.set_now (s : State n Map) (c : Fin n) (x : Cpu n Map) :
    (s.set c x).now = s.now + 1 := rfl

@[simp] lemma Cpu.invlpgs_call (x : Cpu n Map) (start : VirtAddr) (size : Word) (now : ℕ) :
    (x.invlpgs start size now).call = x.call := rfl

@[simp] lemma Cpu.invlpgs_crit (x : Cpu n Map) (start : VirtAddr) (size : Word) (now : ℕ) :
    (x.invlpgs start size now).crit = x.crit := rfl

@[simp] lemma Cpu.invlpgs_pending (x : Cpu n Map) (start : VirtAddr) (size : Word) (now : ℕ) :
    (x.invlpgs start size now).pending = x.pending := rfl

/-- What is known of the call on a CPU from the phase it is in. -/
structure CallOk (s : State n Map) (c : Fin n) : Prop where
  holder : (s.cpu c).call.phase.Holding → s.lock = some c
  quiet : (s.cpu c).call.phase.critical → (s.cpu c).crit = .outside
  caller : (s.cpu c).call.phase ≠ .idle → (s.cpu c).call.request.caller = c
  began : (s.cpu c).call.phase ≠ .idle → (s.cpu c).call.request.began ≤ s.now
  flushed : 4 ≤ (s.cpu c).call.phase.rank → FlushedFor (s.cpu c).flushes (s.cpu c).call.request
  kernel : 5 ≤ (s.cpu c).call.phase.rank →
    ((s.cpu c).call.map = none ↔ (s.cpu c).call.request.start < kernelEnd)
  callersMap : 5 ≤ (s.cpu c).call.phase.rank → (s.cpu c).call.phase.critical →
    ∀ m, (s.cpu c).call.map = some m → m = (s.cpu c).currentMap
  address : 6 ≤ (s.cpu c).call.phase.rank → (s.cpu c).call.phase.Holding →
    s.invlAddress = (s.cpu c).call.request.start
  size : 7 ≤ (s.cpu c).call.phase.rank → (s.cpu c).call.phase.Holding →
    s.invlSize = (s.cpu c).call.request.size
  other : (s.cpu c).call.phase = .sending → ∃ d rest, (s.cpu c).call.rest = d :: rest ∧ d ≠ c
  all : 11 ≤ (s.cpu c).call.phase.rank → (s.cpu c).call.rest = []

lemma holder_unique {s : State n Map} (h : ∀ c, CallOk s c) {c d : Fin n}
    (hc : (s.cpu c).call.phase.Holding) (hd : (s.cpu d).call.phase.Holding) : c = d :=
  Option.some.inj (((h c).holder hc).symm.trans ((h d).holder hd))

/-- A step that leaves the call of a CPU alone, and the shared variables too while that
call has the lock, keeps what is known of it. -/
lemma CallOk.frame {s t : State n Map} {c : Fin n} (h : CallOk s c)
    (call : (t.cpu c).call = (s.cpu c).call)
    (quiet : (s.cpu c).call.phase.critical →
      (t.cpu c).crit = (s.cpu c).crit ∧ (t.cpu c).currentMap = (s.cpu c).currentMap)
    (flushes : (s.cpu c).flushes ⊆ (t.cpu c).flushes) (now : s.now ≤ t.now)
    (shared : (s.cpu c).call.phase.Holding →
      t.lock = s.lock ∧ t.invlAddress = s.invlAddress ∧ t.invlSize = s.invlSize) :
    CallOk t c := by
  constructor <;> rw [call]
  · exact fun hp => (shared hp).1.trans (h.holder hp)
  · exact fun hp => (quiet hp).1.trans (h.quiet hp)
  · exact h.caller
  · exact fun hp => (h.began hp).trans now
  · exact fun hp => (h.flushed hp).mono flushes
  · exact h.kernel
  · intro hp hcrit m hm
    rw [(quiet hcrit).2]
    exact h.callersMap hp hcrit m hm
  · exact fun hp hh => (shared hh).2.1.trans (h.address hp hh)
  · exact fun hp hh => (shared hh).2.2.trans (h.size hp hh)
  · exact h.other
  · exact h.all

lemma Cpu.noncritical_iff {x : Cpu n Map} :
    x.noncritical ↔ x.crit = .outside ∧ x.call.phase.critical = false := by
  cases hx : x.crit <;> simp [Cpu.noncritical, hx, Section.isOutside]

variable {cpus : List (Fin n)} {s t : State n Map} {c : Fin n}

variable [DecidableEq Map]

lemma outside_of_advance (h : advance cpus s c = some t) : (s.cpu c).crit = .outside := by
  cases hx : (s.cpu c).crit <;> simp [advance, hx, Section.isOutside] at h ⊢

lemma advance_callOk_self (h : CallOk s c) (hstep : advance cpus s c = some t) :
    CallOk t c := by
  have hcrit := outside_of_advance hstep
  obtain ⟨holder, -, caller, began, flushed, kernel, callersMap, address, size, other, all⟩ := h
  cases hph : (s.cpu c).call.phase <;>
    simp only [advance, hcrit, hph, Section.isOutside, Bool.not_true, Bool.false_eq_true,
      if_false] at hstep <;>
    simp [hph, Phase.rank, Phase.Holding] at holder caller began flushed <;>
    simp [hph, Phase.rank, Phase.Holding, Phase.critical] at kernel callersMap address size <;>
    simp [hph, Phase.rank] at other all
  case idle => cases hstep
  case seizing =>
    split_ifs at hstep
    obtain rfl := Option.some.inj hstep
    constructor <;> simp [Cpu.goto, Phase.rank, Phase.Holding, Phase.critical, caller, hcrit]
    omega
  case flushing =>
    obtain rfl := Option.some.inj hstep
    constructor <;> simp [Cpu.goto, Cpu.invlpgs, flushedFor_cons, Phase.rank, Phase.Holding,
      Phase.critical, caller, began, holder, hcrit]
    omega
  case choosing =>
    obtain rfl := Option.some.inj hstep
    constructor <;> simp [Phase.rank, Phase.Holding, Phase.critical, caller, holder, flushed]
    omega
  case scanning =>
    split at hstep
    case h_1 hrest =>
      obtain rfl := Option.some.inj hstep
      constructor <;> simp [Cpu.goto, Phase.rank, Phase.Holding, Phase.critical, *] <;>
        first | assumption | omega
    case h_2 e rest hrest =>
      split_ifs at hstep with hask <;> obtain rfl := Option.some.inj hstep
      · simp only [Bool.and_eq_true, decide_eq_true_eq] at hask
        constructor <;> simp [Phase.rank, Phase.Holding, Phase.critical, *] <;>
          first | assumption | omega
      · constructor <;> simp [Phase.rank, Phase.Holding, Phase.critical, *] <;>
          first | assumption | omega
  case sending =>
    obtain ⟨e, ⟨rest, hrest⟩, _⟩ := other
    rw [hrest] at hstep
    obtain rfl := Option.some.inj hstep
    constructor <;> simp [Phase.rank, Phase.Holding, Phase.critical, *] <;>
      first | assumption | omega
  case waiting =>
    split_ifs at hstep <;> obtain rfl := Option.some.inj hstep <;>
      constructor <;> simp [Cpu.goto, Phase.rank, Phase.Holding, Phase.critical, *] <;>
      first | assumption | omega
  all_goals
    obtain rfl := Option.some.inj hstep
    constructor <;> simp [Cpu.goto, Phase.rank, Phase.Holding, Phase.critical, *] <;>
      first | assumption | omega

/-- A step of a call changes the lock variables only if the call has the lock or nobody
has, and other CPUs can only find more IPIs pending. -/
lemma advance_other (hstep : advance cpus s c = some t) :
    (∀ d, d ≠ c → ∃ more, t.cpu d = { s.cpu d with pending := (s.cpu d).pending ++ more }) ∧
      s.now < t.now ∧
      ((s.cpu c).call.phase.Holding ∨ s.lock = none ∨
        t.lock = s.lock ∧ t.invlAddress = s.invlAddress ∧ t.invlSize = s.invlSize) := by
  have hcrit := outside_of_advance hstep
  cases hph : (s.cpu c).call.phase <;>
    simp only [advance, hcrit, hph, Section.isOutside, Bool.not_true, Bool.false_eq_true,
      if_false] at hstep
  case idle => cases hstep
  case seizing =>
    split_ifs at hstep with hnone
    obtain rfl := Option.some.inj hstep
    exact ⟨fun d hd => ⟨[], by simp [hd]⟩, by simp, .inr (.inl hnone)⟩
  case scanning =>
    have hh : Phase.Holding .scanning := by simp [Phase.Holding, Phase.rank]
    split at hstep
    · obtain rfl := Option.some.inj hstep
      exact ⟨fun d hd => ⟨[], by simp [hd]⟩, by simp, .inl hh⟩
    · split_ifs at hstep <;> obtain rfl := Option.some.inj hstep <;>
        exact ⟨fun d hd => ⟨[], by simp [hd]⟩, by simp, .inl hh⟩
  case sending =>
    split at hstep
    case h_1 => cases hstep
    case h_2 e rest hrest =>
      obtain rfl := Option.some.inj hstep
      refine ⟨fun d hd => ?_, Nat.lt_succ_of_lt (Nat.lt_succ_self _),
        .inl (by simp [Phase.Holding, Phase.rank])⟩
      by_cases he : d = e
      · exact ⟨[(s.cpu c).call.request], by simp [← he, hd]⟩
      · exact ⟨[], by simp [hd, he]⟩
  case returning =>
    obtain rfl := Option.some.inj hstep
    exact ⟨fun d hd => ⟨[], by simp [hd]⟩, by simp, .inr (.inr ⟨rfl, rfl, rfl⟩)⟩
  all_goals
    obtain rfl := Option.some.inj hstep
    exact ⟨fun d hd => ⟨[], by simp [hd]⟩, by simp, .inl (by simp [Phase.Holding, Phase.rank])⟩

theorem advance_callOk (h : ∀ d, CallOk s d) (hstep : advance cpus s c = some t) (d : Fin n) :
    CallOk t d := by
  by_cases hd : d = c
  · subst hd
    exact advance_callOk_self (h d) hstep
  · obtain ⟨hcpu, hnow, hlock⟩ := advance_other hstep
    obtain ⟨more, hcpu⟩ := hcpu d hd
    refine (h d).frame (by rw [hcpu]) (fun _ => by simp [hcpu]) (by simp [hcpu]) hnow.le
      fun hp => ?_
    rcases hlock with hc | hnone | hsame
    · exact absurd (holder_unique h hp hc) hd
    · have := (h d).holder hp
      simp [hnone] at this
    · exact hsame

/-- The actions that are no steps of a call. -/
def Action.isLocal : Action Map → Bool
  | .call _ _ | .advance => false
  | _ => true

/-- An interrupt, a switch or a TLB event changes one CPU only, and never its call. -/
lemma local_frame {a : Action Map} (ha : a.isLocal) (hstep : step cpus s c a = some t) :
    t.lock = s.lock ∧ t.invlAddress = s.invlAddress ∧ t.invlSize = s.invlSize ∧
      t.now = s.now + 1 ∧ (∀ d, d ≠ c → t.cpu d = s.cpu d) ∧
      (t.cpu c).call = (s.cpu c).call ∧ (s.cpu c).flushes ⊆ (t.cpu c).flushes ∧
      ((s.cpu c).crit = .outside → (s.cpu c).call.phase.critical →
        (t.cpu c).crit = (s.cpu c).crit ∧ (t.cpu c).currentMap = (s.cpu c).currentMap) := by
  cases a with
  | call start size => cases ha
  | advance => cases ha
  | deliver =>
    simp only [step] at hstep
    split at hstep
    · cases hstep
    · split_ifs at hstep with hn
      obtain rfl := Option.some.inj hstep
      simp +contextual [(Cpu.noncritical_iff.1 hn).2]
  | handle =>
    cases hcrit : (s.cpu c).crit with
    | outside => simp [step, handle, hcrit] at hstep
    | switching next map => simp [step, handle, hcrit] at hstep
    | handling next r address size =>
      cases next <;> simp only [step, handle, hcrit] at hstep <;>
        obtain rfl := Option.some.inj hstep <;> simp +contextual [Cpu.invlpgs]
  | switch map =>
    simp only [step] at hstep
    split_ifs at hstep with hn
    obtain rfl := Option.some.inj hstep
    simp +contextual [(Cpu.noncritical_iff.1 hn).2]
  | change =>
    cases hcrit : (s.cpu c).crit with
    | outside => simp [step, change, hcrit] at hstep
    | handling next r address size => simp [step, change, hcrit] at hstep
    | switching next map =>
      cases next <;> simp only [step, change, hcrit] at hstep <;>
        obtain rfl := Option.some.inj hstep <;> simp +contextual
  | cache page =>
    obtain rfl := Option.some.inj hstep
    simp +contextual
  | evict i =>
    obtain rfl := Option.some.inj hstep
    simp +contextual

theorem step_callOk {a : Action Map} (h : ∀ d, CallOk s d) (hstep : step cpus s c a = some t)
    (d : Fin n) : CallOk t d := by
  by_cases ha : a.isLocal
  · obtain ⟨hlock, haddress, hsize, hnow, hother, hcall, hflushes, hcrit⟩ := local_frame ha hstep
    by_cases hd : d = c
    · subst hd
      exact (h d).frame hcall (fun hp => hcrit ((h d).quiet hp) hp) hflushes (by omega)
        fun _ => ⟨hlock, haddress, hsize⟩
    · exact (h d).frame (by rw [hother d hd]) (fun _ => by simp [hother d hd])
        (by simp [hother d hd]) (by omega) fun _ => ⟨hlock, haddress, hsize⟩
  · cases a with
    | advance => exact advance_callOk h hstep d
    | call start size =>
      simp only [step] at hstep
      split_ifs at hstep with hidle
      obtain rfl := Option.some.inj hstep
      by_cases hd : d = c
      · subst hd
        constructor <;> simp [Phase.rank, Phase.Holding, Phase.critical]
      · exact (h d).frame (by simp [hd]) (by simp [hd]) (by simp [hd]) (by simp)
          fun _ => ⟨rfl, rfl, rfl⟩
    | _ => simp [Action.isLocal] at ha

/-- A CPU between `WillSetAddressSpace` and the CR3 load. -/
def Cpu.midSwitch (x : Cpu n Map) : Prop := ∃ map, x.crit = .switching .loadCr3 map

omit [DecidableEq Map] in
lemma not_midSwitch_of_noncritical {x : Cpu n Map} (h : x.noncritical) : ¬ x.midSwitch := by
  rintro ⟨map, hmid⟩
  cases hmid.symm.trans (Cpu.noncritical_iff.1 h).1

/-- What is known of the TLB of a CPU: its user entries come from the loaded map, which is
`currentMap` except in the middle of a switch. -/
structure TlbOk (x : Cpu n Map) : Prop where
  cached : ∀ e ∈ x.tlb, e.isUser → e.map = x.cr3
  loaded : ¬ x.midSwitch → x.cr3 = x.currentMap
  loading : ∀ map, x.crit = .switching .loadCr3 map → map = x.currentMap

/-- A step of a call leaves its own CPU in the same map, outside other critical sections,
with the same IPIs and at most the same entries. -/
lemma advance_self (hstep : advance cpus s c = some t) :
    (t.cpu c).crit = .outside ∧ (t.cpu c).currentMap = (s.cpu c).currentMap ∧
      (t.cpu c).cr3 = (s.cpu c).cr3 ∧ (t.cpu c).tlb ⊆ (s.cpu c).tlb ∧
      (t.cpu c).pending = (s.cpu c).pending ∧ (s.cpu c).flushes ⊆ (t.cpu c).flushes ∧
      (t.cpu c).enteredAt = (s.cpu c).enteredAt := by
  have hcrit := outside_of_advance hstep
  cases hph : (s.cpu c).call.phase <;>
    simp only [advance, hcrit, hph, Section.isOutside, Bool.not_true, Bool.false_eq_true,
      if_false] at hstep
  case idle => cases hstep
  case flushing =>
    obtain rfl := Option.some.inj hstep
    simp [Cpu.goto, Cpu.invlpgs, hcrit]
  case scanning =>
    split at hstep
    · obtain rfl := Option.some.inj hstep
      simp [Cpu.goto, hcrit]
    · split_ifs at hstep <;> obtain rfl := Option.some.inj hstep <;> simp
  case sending =>
    split at hstep
    · cases hstep
    · obtain rfl := Option.some.inj hstep
      simp
  case waiting =>
    split_ifs at hstep <;> obtain rfl := Option.some.inj hstep <;> simp [Cpu.goto, hcrit]
  case seizing =>
    split_ifs at hstep
    obtain rfl := Option.some.inj hstep
    simp [Cpu.goto, hcrit]
  all_goals
    obtain rfl := Option.some.inj hstep
    simp [Cpu.goto, hcrit]

lemma advance_tlbOk (h : ∀ d, TlbOk (s.cpu d)) (hstep : advance cpus s c = some t)
    (d : Fin n) : TlbOk (t.cpu d) := by
  by_cases hd : d = c
  · subst hd
    obtain ⟨hcrit, hmap, hcr3, htlb, -⟩ := advance_self hstep
    have hout := outside_of_advance hstep
    constructor
    · rw [hcr3]
      exact fun e he => (h d).cached e (htlb he)
    · intro _
      rw [hcr3, hmap]
      exact (h d).loaded (by simp [Cpu.midSwitch, hout])
    · simp [hcrit]
  · obtain ⟨more, hcpu⟩ := (advance_other hstep).1 d hd
    rw [hcpu]
    exact ⟨(h d).cached, (h d).loaded, (h d).loading⟩

/-- A step on one CPU shows on another at most as a new IPI. -/
lemma step_other {a : Action Map} (hstep : step cpus s c a = some t) {d : Fin n}
    (hd : d ≠ c) : ∃ more, t.cpu d = { s.cpu d with pending := (s.cpu d).pending ++ more } := by
  by_cases ha : a.isLocal
  · exact ⟨[], by simpa using (local_frame ha hstep).2.2.2.2.1 d hd⟩
  · cases a with
    | advance => exact (advance_other hstep).1 d hd
    | call start size =>
      simp only [step] at hstep
      split_ifs at hstep
      obtain rfl := Option.some.inj hstep
      exact ⟨[], by simp [hd]⟩
    | _ => simp [Action.isLocal] at ha

theorem step_tlbOk {a : Action Map} (h : ∀ d, TlbOk (s.cpu d))
    (hstep : step cpus s c a = some t) (d : Fin n) : TlbOk (t.cpu d) := by
  by_cases hd : d = c
  swap
  · obtain ⟨more, hcpu⟩ := step_other hstep hd
    rw [hcpu]
    exact ⟨(h d).cached, (h d).loaded, (h d).loading⟩
  subst hd
  obtain ⟨cached, loaded, loading⟩ := h d
  cases a with
  | advance => exact advance_tlbOk h hstep d
  | call start size =>
    simp only [step] at hstep
    split_ifs at hstep
    obtain rfl := Option.some.inj hstep
    simp only [State.set_cpu, if_true]
    exact ⟨cached, loaded, loading⟩
  | deliver =>
    simp only [step] at hstep
    split at hstep
    · cases hstep
    · split_ifs at hstep with hn
      obtain rfl := Option.some.inj hstep
      have hout := not_midSwitch_of_noncritical hn
      exact ⟨by simpa using cached, by simpa using fun _ => loaded hout, by simp⟩
  | handle =>
    cases hcrit : (s.cpu d).crit with
    | outside => simp [step, handle, hcrit] at hstep
    | switching next map => simp [step, handle, hcrit] at hstep
    | handling next r address size =>
      have hout : ¬ (s.cpu d).midSwitch := by simp [Cpu.midSwitch, hcrit]
      cases next <;> simp only [step, handle, hcrit] at hstep <;>
        obtain rfl := Option.some.inj hstep
      case flush =>
        refine ⟨fun e he => ?_, by simpa [Cpu.invlpgs] using fun _ => loaded hout, by simp⟩
        simp only [State.set_cpu, if_true, Cpu.invlpgs] at he ⊢
        exact cached e (List.mem_of_mem_filter he)
      all_goals exact ⟨by simpa using cached, by simpa using fun _ => loaded hout, by simp⟩
  | switch map =>
    simp only [step] at hstep
    split_ifs at hstep with hn
    obtain rfl := Option.some.inj hstep
    have hout := not_midSwitch_of_noncritical hn
    exact ⟨by simpa using cached, by simpa using fun _ => loaded hout, by simp⟩
  | change =>
    cases hcrit : (s.cpu d).crit with
    | outside => simp [step, change, hcrit] at hstep
    | handling next r address size => simp [step, change, hcrit] at hstep
    | switching next map =>
      cases next <;> simp only [step, change, hcrit] at hstep <;>
        obtain rfl := Option.some.inj hstep
      case willSet =>
        exact ⟨by simpa using cached, by simp [Cpu.midSwitch], by simp⟩
      case loadCr3 =>
        refine ⟨fun e he hu => ?_, by simpa using fun _ => loading map hcrit, by simp⟩
        simp only [State.set_cpu, if_true, List.mem_filter] at he
        simp [hu] at he
      case leave =>
        have hout : ¬ (s.cpu d).midSwitch := by simp [Cpu.midSwitch, hcrit]
        exact ⟨by simpa using cached, by simpa using fun _ => loaded hout, by simp⟩
  | cache page =>
    obtain rfl := Option.some.inj hstep
    refine ⟨?_, by simpa [Cpu.midSwitch] using loaded, by simpa using loading⟩
    simpa using cached
  | evict i =>
    obtain rfl := Option.some.inj hstep
    refine ⟨fun e he => ?_, by simpa [Cpu.midSwitch] using loaded, by simpa using loading⟩
    simp only [State.set_cpu, if_true] at he ⊢
    exact cached e (List.mem_of_mem_eraseIdx he)

end

end Anarch.Tlb
