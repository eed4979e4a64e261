import Anarch.TlbShootdownCalls
import Mathlib.Algebra.BigOperators.Fin

/-! IPIs under way: they all belong to the call that has the lock, and `ipiCount` is the
number of those it has counted less those already acknowledged. -/
namespace Anarch.Tlb
open PageTable TransitionRun

section
variable {n : ℕ} {Map : Type}

/-- The request a handler has not acknowledged yet. -/
def Section.unacked : Section n Map → List (Request n)
  | .handling .sendEoi _ _ _ => []
  | .handling _ r _ _ => [r]
  | _ => []

/-- The request a handler has not flushed for yet. -/
def Section.unflushed : Section n Map → List (Request n)
  | .handling .sendEoi _ _ _ | .handling .decrement _ _ _ => []
  | .handling _ r _ _ => [r]
  | _ => []

def Cpu.unacked (x : Cpu n Map) : List (Request n) := x.crit.unacked ++ x.pending

def Cpu.unflushed (x : Cpu n Map) : List (Request n) := x.crit.unflushed ++ x.pending

lemma Cpu.unflushed_subset (x : Cpu n Map) : x.unflushed ⊆ x.unacked := by
  intro r hr
  rcases List.mem_append.mp hr with hr | hr
  · refine List.mem_append_left _ ?_
    cases hx : x.crit with
    | handling next r' a z => cases next <;> simp_all [Section.unflushed, Section.unacked]
    | _ => simp [hx, Section.unflushed] at hr
  · exact List.mem_append_right _ hr

def outstanding (s : State n Map) : ℕ := ∑ d, (s.cpu d).unacked.length

/-- IPIs and handlers under way belong to one live call, and are counted right. -/
structure TrafficOk (s : State n Map) : Prop where
  asked : ∀ d, ∀ r ∈ (s.cpu d).unacked,
    ∃ c, (s.cpu c).call.phase.Live ∧ (s.cpu c).call.request = r
  count : ∀ c, (s.cpu c).call.phase.Live →
    (outstanding s : ℤ) = s.ipiCount + if (s.cpu c).call.phase = .counting then 1 else 0
  address : ∀ d next r a z, (s.cpu d).crit = .handling next r a z → next ≠ .readAddress →
    a = r.start
  size : ∀ d next r a z, (s.cpu d).crit = .handling next r a z → next ≠ .readAddress →
    next ≠ .readSize → z = r.size

variable {s t : State n Map} {c : Fin n}

lemma outstanding_congr (h : ∀ d, (t.cpu d).unacked = (s.cpu d).unacked) :
    outstanding t = outstanding s := by simp [outstanding, h]

lemma outstanding_succ {e : Fin n} (he : (t.cpu e).unacked.length = (s.cpu e).unacked.length + 1)
    (h : ∀ d, d ≠ e → (t.cpu d).unacked = (s.cpu d).unacked) :
    outstanding t = outstanding s + 1 := by
  have hall : ∀ d, (t.cpu d).unacked.length =
      (s.cpu d).unacked.length + if d = e then 1 else 0 := by
    intro d
    by_cases hd : d = e
    · rw [hd, if_pos rfl, he]
    · rw [if_neg hd, h d hd, add_zero]
  simp [outstanding, hall, Finset.sum_add_distrib]

lemma unacked_nil_of_outstanding (h : outstanding s = 0) (d : Fin n) :
    (s.cpu d).unacked = [] := by
  have := Finset.sum_eq_zero_iff.mp h d (Finset.mem_univ d)
  simpa using this

lemma TrafficOk.unacked_nil (h : TrafficOk s) (hnone : ∀ c, ¬ (s.cpu c).call.phase.Live)
    (d : Fin n) : (s.cpu d).unacked = [] := by
  rw [List.eq_nil_iff_forall_not_mem]
  intro r hr
  obtain ⟨c, hc, -⟩ := h.asked d r hr
  exact hnone c hc

variable [DecidableEq Map] {cpus : List (Fin n)}

/-- What a step of a call does to the IPIs and their count. -/
lemma advance_cases (h : CallOk s c) (hstep : advance cpus s c = some t) :
    ((s.cpu c).call.phase = .sending ∧ (t.cpu c).call.phase = .counting ∧
      t.ipiCount = s.ipiCount ∧ (t.cpu c).call.request = (s.cpu c).call.request ∧
      ∃ e, (t.cpu e).unacked = (s.cpu e).unacked ++ [(s.cpu c).call.request] ∧
        ∀ d, d ≠ e → (t.cpu d).unacked = (s.cpu d).unacked) ∨
    (∀ d, (t.cpu d).unacked = (s.cpu d).unacked) ∧
      ((s.cpu c).call.phase = .counting ∧ (t.cpu c).call.phase = .scanning ∧
        t.ipiCount = s.ipiCount + 1 ∧ (t.cpu c).call.request = (s.cpu c).call.request ∨
      (s.cpu c).call.phase = .resetCount ∧ t.ipiCount = 0 ∧ (t.cpu c).call.phase = .scanning ∨
      (s.cpu c).call.phase = .waiting ∧ s.ipiCount = 0 ∧ (t.cpu c).call.phase = .leaving ∨
      t.ipiCount = s.ipiCount ∧ (t.cpu c).call.request = (s.cpu c).call.request ∧
        (s.cpu c).call.phase ≠ .counting ∧ (t.cpu c).call.phase ≠ .counting ∧
        ((t.cpu c).call.phase.Live ↔ (s.cpu c).call.phase.Live)) := by
  have hcrit := outside_of_advance hstep
  cases hph : (s.cpu c).call.phase <;>
    simp only [advance, hcrit, hph, Section.isOutside, Bool.not_true, Bool.false_eq_true,
      if_false] at hstep
  case idle => cases hstep
  case seizing =>
    split_ifs at hstep
    obtain rfl := Option.some.inj hstep
    refine .inr ⟨fun d => ?_, by simp [Cpu.goto, Phase.Live, Phase.rank]⟩
    by_cases hd : d = c <;> simp [hd, Cpu.unacked, Cpu.goto, hcrit]
  case scanning =>
    split at hstep
    · obtain rfl := Option.some.inj hstep
      refine .inr ⟨fun d => ?_, by simp [Cpu.goto, Phase.Live, Phase.rank]⟩
      by_cases hd : d = c <;> simp [hd, Cpu.unacked, Cpu.goto, hcrit]
    · split_ifs at hstep <;> obtain rfl := Option.some.inj hstep
      · refine .inr ⟨fun d => ?_, by simp [Phase.Live, Phase.rank]⟩
        by_cases hd : d = c <;> simp [hd, Cpu.unacked, hcrit]
      · refine .inr ⟨fun d => ?_, by simp⟩
        by_cases hd : d = c <;> simp [hd, Cpu.unacked, hcrit]
  case sending =>
    obtain ⟨e, rest, hrest, hne⟩ := h.other hph
    rw [hrest] at hstep
    obtain rfl := Option.some.inj hstep
    refine .inl ⟨rfl, by simp, rfl, by simp, e, by simp [hne, Cpu.unacked], fun d hd => ?_⟩
    by_cases hc : d = c <;> simp [hc, hd, Cpu.unacked, hcrit]
  case waiting =>
    split_ifs at hstep with hz <;> obtain rfl := Option.some.inj hstep
    · refine .inr ⟨fun d => ?_, by simp [Cpu.goto, hz]⟩
      by_cases hd : d = c <;> simp [hd, Cpu.unacked, Cpu.goto, hcrit]
    · refine .inr ⟨fun d => ?_, by simp [hph]⟩
      by_cases hd : d = c <;> simp [hd, Cpu.unacked]
  all_goals
    obtain rfl := Option.some.inj hstep
    refine .inr ⟨fun d => ?_, by simp [Cpu.goto, Phase.Live, Phase.rank]⟩
    by_cases hd : d = c <;> simp [hd, Cpu.unacked, Cpu.goto, hcrit]

theorem advance_trafficOk (hcall : ∀ d, CallOk s d) (h : TrafficOk s)
    (hstep : advance cpus s c = some t) : TrafficOk t := by
  have hother : ∀ d, d ≠ c → (t.cpu d).call = (s.cpu d).call := fun d hd => by
    obtain ⟨more, hcpu⟩ := (advance_other hstep).1 d hd
    rw [hcpu]
  have hcrits : ∀ d next r a z, (t.cpu d).crit = .handling next r a z →
      (s.cpu d).crit = .handling next r a z := by
    intro d next r a z hcrit
    by_cases hd : d = c
    · subst hd
      rw [(advance_self hstep).1] at hcrit
      cases hcrit
    · obtain ⟨more, hcpu⟩ := (advance_other hstep).1 d hd
      simpa [hcpu] using hcrit
  refine ⟨?_, ?_, fun d next r a z hx => h.address d next r a z (hcrits d next r a z hx),
    fun d next r a z hx => h.size d next r a z (hcrits d next r a z hx)⟩
  · intro d r hr
    have hlive : ∀ c', (s.cpu c').call.phase.Live → (s.cpu c').call.request = r →
        c' ≠ c → ∃ c, (t.cpu c).call.phase.Live ∧ (t.cpu c).call.request = r :=
      fun c' hl he hne => ⟨c', by rwa [hother c' hne], by rwa [hother c' hne]⟩
    rcases advance_cases (hcall c) hstep with ⟨-, hph, -, hreq, e, he, hsame⟩ | ⟨hsame, hcase⟩
    · have hnow : (t.cpu c).call.phase.Live := by simp [hph, Phase.Live, Phase.rank]
      have hold : r ∈ (s.cpu d).unacked ∨ r = (s.cpu c).call.request := by
        by_cases hd : d = e
        · simpa [hd, he] using hr
        · exact .inl (hsame d hd ▸ hr)
      rcases hold with hold | rfl
      · obtain ⟨c', hl, rfl⟩ := h.asked d r hold
        by_cases hc : c' = c
        · exact ⟨c, hnow, by rw [hreq, hc]⟩
        · exact hlive c' hl rfl hc
      · exact ⟨c, hnow, hreq⟩
    · rw [hsame] at hr
      obtain ⟨c', hl, rfl⟩ := h.asked d r hr
      by_cases hc : c' = c
      swap
      · exact hlive c' hl rfl hc
      subst hc
      rcases hcase with ⟨-, hph, -, hreq⟩ | ⟨hph, -⟩ | ⟨hph, hz, -⟩ | ⟨-, hreq, -, -, hiff⟩
      · exact ⟨c', by simp [hph, Phase.Live, Phase.rank], hreq⟩
      · simp [hph, Phase.Live, Phase.rank] at hl
      · have hzero := h.count c' hl
        rw [hz, hph] at hzero
        have hnil := unacked_nil_of_outstanding (s := s) (by simpa using hzero) d
        simp [hnil] at hr
      · exact ⟨c', hiff.mpr hl, hreq⟩
  · intro c' hl
    by_cases hc : c' = c
    · subst hc
      rcases advance_cases (hcall c') hstep with ⟨hph, hph', hipi, -, e, he, hsame⟩ |
        ⟨hsame, hcase⟩
      · have hcount := h.count c' (by simp [hph, Phase.Live, Phase.rank])
        rw [outstanding_succ (by simp [he]) hsame, hph', hipi]
        simp [hph] at hcount
        simp [hcount]
      · rw [outstanding_congr hsame]
        rcases hcase with ⟨hph, hph', hipi, -⟩ | ⟨hph, hipi, hph'⟩ | ⟨-, -, hph'⟩ |
          ⟨hipi, -, hph, hph', hiff⟩
        · have hcount := h.count c' (by simp [hph, Phase.Live, Phase.rank])
          simp [hph, hph', hipi] at hcount ⊢
          exact hcount
        · have hnone : ∀ d, ¬ (s.cpu d).call.phase.Live := by
            intro d hd
            have := holder_unique hcall hd.holding
              (show (s.cpu c').call.phase.Holding by simp [hph, Phase.Holding, Phase.rank])
            simp [this, hph, Phase.Live, Phase.rank] at hd
          simp [outstanding, h.unacked_nil hnone, hipi, hph']
        · simp [hph', Phase.Live, Phase.rank] at hl
        · have hcount := h.count c' (hiff.mp hl)
          rw [if_neg hph] at hcount
          rw [if_neg hph', hipi, hcount]
    · rw [hother c' hc] at hl ⊢
      have hnot : ¬ (s.cpu c).call.phase.Holding := fun hh =>
        hc (holder_unique hcall hl.holding hh)
      rcases advance_cases (hcall c) hstep with ⟨hph, -⟩ | ⟨hsame, hcase⟩
      · simp [hph, Phase.Holding, Phase.rank] at hnot
      · rcases hcase with ⟨hph, -⟩ | ⟨hph, -⟩ | ⟨hph, -⟩ | ⟨hipi, -⟩
        · simp [hph, Phase.Holding, Phase.rank] at hnot
        · simp [hph, Phase.Holding, Phase.rank] at hnot
        · simp [hph, Phase.Holding, Phase.rank] at hnot
        · rw [outstanding_congr hsame, hipi]
          exact h.count c' hl

/-- Only the decrement of a handler takes an IPI off the count. -/
lemma local_cases {a : Action Map} (ha : a.isLocal) (hstep : step cpus s c a = some t) :
    ((t.cpu c).unacked = (s.cpu c).unacked ∧ t.ipiCount = s.ipiCount) ∨
      ∃ r, (s.cpu c).unacked = r :: (t.cpu c).unacked ∧ t.ipiCount = s.ipiCount - 1 := by
  cases a with
  | call start size => cases ha
  | advance => cases ha
  | deliver =>
    simp only [step] at hstep
    split at hstep
    case h_1 => cases hstep
    case h_2 r pending hp =>
      split_ifs at hstep with hn
      obtain rfl := Option.some.inj hstep
      have hout := (Cpu.noncritical_iff.1 hn).1
      exact .inl ⟨by simp [Cpu.unacked, Section.unacked, hp, hout], rfl⟩
  | handle =>
    cases hcrit : (s.cpu c).crit with
    | outside => simp [step, handle, hcrit] at hstep
    | switching next map => simp [step, handle, hcrit] at hstep
    | handling next r address size =>
      cases next <;> simp only [step, handle, hcrit] at hstep <;>
        obtain rfl := Option.some.inj hstep
      case decrement => exact .inr ⟨r, by simp [Cpu.unacked, Section.unacked, hcrit], rfl⟩
      all_goals exact .inl ⟨by simp [Cpu.unacked, Section.unacked, hcrit], rfl⟩
  | switch map =>
    simp only [step] at hstep
    split_ifs at hstep with hn
    obtain rfl := Option.some.inj hstep
    have hout := (Cpu.noncritical_iff.1 hn).1
    exact .inl ⟨by simp [Cpu.unacked, Section.unacked, hout], rfl⟩
  | change =>
    cases hcrit : (s.cpu c).crit with
    | outside => simp [step, change, hcrit] at hstep
    | handling next r address size => simp [step, change, hcrit] at hstep
    | switching next map =>
      cases next <;> simp only [step, change, hcrit] at hstep <;>
        obtain rfl := Option.some.inj hstep <;>
        exact .inl ⟨by simp [Cpu.unacked, Section.unacked, hcrit], rfl⟩
  | cache page =>
    obtain rfl := Option.some.inj hstep
    exact .inl ⟨by simp [Cpu.unacked], rfl⟩
  | evict i =>
    obtain rfl := Option.some.inj hstep
    exact .inl ⟨by simp [Cpu.unacked], rfl⟩

/-- A handler reads the address and the size while they are those of its request. -/
lemma handle_reads {a : Action Map} (hcall : ∀ d, CallOk s d) (h : TrafficOk s)
    (ha : a.isLocal) (hstep : step cpus s c a = some t) {next : HandlerStep} {r : Request n}
    {x : VirtAddr} {z : Word} (hx : (t.cpu c).crit = .handling next r x z) :
    (next ≠ .readAddress → x = r.start) ∧
      (next ≠ .readAddress → next ≠ .readSize → z = r.size) := by
  have hglobal : r ∈ (s.cpu c).unacked → s.invlAddress = r.start ∧ s.invlSize = r.size := by
    intro hr
    obtain ⟨d, hl, rfl⟩ := h.asked c r hr
    have hrank : 7 ≤ (s.cpu d).call.phase.rank := by
      have := hl.1
      omega
    exact ⟨(hcall d).address (by omega) hl.holding, (hcall d).size hrank hl.holding⟩
  cases a with
  | handle =>
    cases hcrit : (s.cpu c).crit with
    | outside => simp [step, handle, hcrit] at hstep
    | switching next map => simp [step, handle, hcrit] at hstep
    | handling next' r' x' z' =>
      have haddress := h.address c next' r' x' z' hcrit
      have hsize := h.size c next' r' x' z' hcrit
      have hmine : next' = .readAddress ∨ next' = .readSize → r' ∈ (s.cpu c).unacked := by
        rintro (rfl | rfl) <;> simp [Cpu.unacked, Section.unacked, hcrit]
      cases next' <;> simp only [step, handle, hcrit] at hstep <;>
        obtain rfl := Option.some.inj hstep <;>
        simp only [State.set_cpu, if_true, Section.handling.injEq, reduceCtorEq] at hx
      case readAddress =>
        obtain ⟨rfl, rfl, rfl, rfl⟩ := hx
        exact ⟨fun _ => (hglobal (hmine (.inl rfl))).1, fun _ hne => absurd rfl hne⟩
      case readSize =>
        obtain ⟨rfl, rfl, rfl, rfl⟩ := hx
        exact ⟨fun _ => haddress (by simp), fun _ _ => (hglobal (hmine (.inr rfl))).2⟩
      all_goals
        obtain ⟨rfl, rfl, rfl, rfl⟩ := hx
        exact ⟨fun _ => haddress (by simp), fun _ _ => hsize (by simp) (by simp)⟩
  | deliver =>
    simp only [step] at hstep
    split at hstep
    · cases hstep
    · split_ifs at hstep
      obtain rfl := Option.some.inj hstep
      simp only [State.set_cpu, if_true, Section.handling.injEq] at hx
      exact ⟨fun hne => absurd hx.1.symm hne, fun hne => absurd hx.1.symm hne⟩
  | switch map =>
    simp only [step] at hstep
    split_ifs at hstep
    obtain rfl := Option.some.inj hstep
    simp at hx
  | change =>
    cases hcrit : (s.cpu c).crit with
    | outside => simp [step, change, hcrit] at hstep
    | handling next r address size => simp [step, change, hcrit] at hstep
    | switching next map =>
      cases next <;> simp only [step, change, hcrit] at hstep <;>
        obtain rfl := Option.some.inj hstep <;> simp at hx
  | cache page =>
    obtain rfl := Option.some.inj hstep
    simp only [State.set_cpu, if_true] at hx
    exact ⟨h.address c next r x z hx, h.size c next r x z hx⟩
  | evict i =>
    obtain rfl := Option.some.inj hstep
    simp only [State.set_cpu, if_true] at hx
    exact ⟨h.address c next r x z hx, h.size c next r x z hx⟩
  | call start size => cases ha
  | advance => cases ha

theorem local_trafficOk {a : Action Map} (hcall : ∀ d, CallOk s d) (h : TrafficOk s)
    (ha : a.isLocal) (hstep : step cpus s c a = some t) : TrafficOk t := by
  obtain ⟨-, -, -, -, hother, hself, -⟩ := local_frame ha hstep
  have hcalls : ∀ d, (t.cpu d).call = (s.cpu d).call := fun d => by
    by_cases hd : d = c
    · rw [hd, hself]
    · rw [hother d hd]
  have hsub : ∀ d, (t.cpu d).unacked ⊆ (s.cpu d).unacked := fun d => by
    by_cases hd : d = c
    · rw [hd]
      rcases local_cases ha hstep with ⟨he, -⟩ | ⟨r, he, -⟩ <;> rw [he]
      · exact List.Subset.refl _
      · exact List.subset_cons_self _ _
    · rw [hother d hd]
      exact List.Subset.refl _
  refine ⟨fun d r hr => ?_, fun d hl => ?_, fun d next r x z hx => ?_,
    fun d next r x z hx => ?_⟩
  · obtain ⟨c', hc'⟩ := h.asked d r (hsub d hr)
    exact ⟨c', by rwa [hcalls]⟩
  · rw [hcalls] at hl ⊢
    have hcount := h.count d hl
    rcases local_cases ha hstep with ⟨he, hipi⟩ | ⟨r, he, hipi⟩
    · have hsame : ∀ d, (t.cpu d).unacked = (s.cpu d).unacked := fun d => by
        by_cases hd : d = c
        · rw [hd, he]
        · rw [hother d hd]
      rw [outstanding_congr hsame, hipi, hcount]
    · have hmore := outstanding_succ (s := t) (t := s) (e := c) (by simp [he])
        fun d hd => by rw [hother d hd]
      rw [hmore] at hcount
      rw [hipi]
      push_cast at hcount
      omega
  · by_cases hd : d = c
    · subst hd
      exact (handle_reads hcall h ha hstep hx).1
    · rw [hother d hd] at hx
      exact h.address d next r x z hx
  · by_cases hd : d = c
    · subst hd
      exact (handle_reads hcall h ha hstep hx).2
    · rw [hother d hd] at hx
      exact h.size d next r x z hx

lemma nonlocal_trafficOk {a : Action Map} (hcall : ∀ d, CallOk s d) (h : TrafficOk s)
    (ha : ¬ a.isLocal) (hstep : step cpus s c a = some t) : TrafficOk t := by
  cases a with
  | advance => exact advance_trafficOk hcall h hstep
  | call start size =>
    simp only [step] at hstep
    split_ifs at hstep with hidle
    obtain rfl := Option.some.inj hstep
    set x : Cpu n Map := { s.cpu c with
      call := { (s.cpu c).call with phase := .seizing, request := ⟨c, start, size, s.now⟩ } }
    have hcrit : ∀ d, ((s.set c x).cpu d).crit = (s.cpu d).crit := fun d => by
      by_cases hd : d = c <;> simp [hd, x]
    have hsame : ∀ d, ((s.set c x).cpu d).unacked = (s.cpu d).unacked := fun d => by
      by_cases hd : d = c <;> simp [hd, Cpu.unacked, x]
    refine ⟨fun d r hr => ?_, fun d hl => ?_, fun d next r a z hx => ?_,
      fun d next r a z hx => ?_⟩
    · obtain ⟨c', hl, he⟩ := h.asked d r (hsame d ▸ hr)
      have hc : c' ≠ c := by
        rintro rfl
        simp [hidle.1, Phase.Live, Phase.rank] at hl
      exact ⟨c', by simpa [hc] using hl, by simpa [hc] using he⟩
    · have hc : d ≠ c := by
        rintro rfl
        simp [x, Phase.Live, Phase.rank] at hl
      rw [outstanding_congr hsame]
      simp only [State.set_cpu, if_neg hc, State.set_ipiCount] at hl ⊢
      exact h.count d hl
    · exact h.address d next r a z (hcrit d ▸ hx)
    · exact h.size d next r a z (hcrit d ▸ hx)
  | _ => simp [Action.isLocal] at ha

end

end Anarch.Tlb
