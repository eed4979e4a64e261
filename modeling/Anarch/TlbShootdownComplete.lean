import Anarch.TlbShootdownTraffic

/-! A call of `DistributeInvlpg` reaches every CPU it has to. Each CPU that its scan has
passed has flushed, is about to, or cannot hold an old entry of the caller's map. -/
namespace Anarch.Tlb
open PageTable TransitionRun

section
variable {n : ℕ} {Map : Type}

/-- The CPU holds no user entry of the map that was cached before the request. -/
def Cpu.Clean (x : Cpu n Map) (map : Map) (r : Request n) : Prop :=
  ∀ e ∈ x.tlb, e.isUser → e.map = map → r.began ≤ e.cachedAt

/-- The CPU was passed over when its `currentMap` was another one: it can only have
entered the map since, and old entries of the map go with the CR3 load it is about to do. -/
def Spared (k : Call n Map) (d : Fin n) (now : ℕ) (x : Cpu n Map) : Prop :=
  k.checked d < now ∧ ∃ map, k.map = some map ∧
    (x.currentMap = map → k.checked d < x.enteredAt) ∧
    (x.Clean map k.request ∨ x.currentMap ≠ map ∧ x.midSwitch)

/-- What a call knows of a CPU its scan has passed. -/
def Covered (k : Call n Map) (d : Fin n) (now : ℕ) (x : Cpu n Map) : Prop :=
  FlushedFor x.flushes k.request ∨ k.request ∈ x.unflushed ∨ Spared k d now x

/-- Every CPU that is not among the rest of a scan is covered. -/
def CoverageOk (s : State n Map) : Prop :=
  ∀ c, 8 ≤ (s.cpu c).call.phase.rank → ∀ d, d ∉ (s.cpu c).call.rest →
    Covered (s.cpu c).call d s.now (s.cpu d)

lemma Cpu.Clean.mono {x y : Cpu n Map} {map : Map} {r : Request n} (h : x.Clean map r)
    (ht : y.tlb ⊆ x.tlb) : y.Clean map r := fun e he => h e (ht he)

/-- Outside the middle of a switch, a CPU in another map holds no user entry of this one. -/
lemma clean_of_ne {x : Cpu n Map} (h : TlbOk x) (hmid : ¬ x.midSwitch) {map : Map}
    {r : Request n} (hne : x.currentMap ≠ map) : x.Clean map r := by
  intro e he hu hm
  exact absurd ((h.loaded hmid).symm.trans ((h.cached e he hu).symm.trans hm)) hne

lemma Spared.frame {k : Call n Map} {d : Fin n} {now now' : ℕ} {x y : Cpu n Map}
    (h : Spared k d now x) (hnow : now ≤ now') (hmap : y.currentMap = x.currentMap)
    (hent : y.enteredAt = x.enteredAt) (htlb : y.tlb ⊆ x.tlb)
    (hmid : x.midSwitch → y.midSwitch) : Spared k d now' y := by
  obtain ⟨hlt, map, hk, hin, hold⟩ := h
  refine ⟨by omega, map, hk, by rwa [hmap, hent], ?_⟩
  rcases hold with hclean | ⟨hne, hm⟩
  · exact .inl (hclean.mono htlb)
  · exact .inr ⟨by rwa [hmap], hmid hm⟩

lemma Spared.clean {k : Call n Map} {d : Fin n} {now : ℕ} {x : Cpu n Map}
    (h : Spared k d now x) (hmid : ¬ x.midSwitch) :
    ∃ map, k.map = some map ∧ (x.currentMap = map → k.checked d < x.enteredAt) ∧
      x.Clean map k.request := by
  obtain ⟨-, map, hk, hin, hclean | ⟨-, hm⟩⟩ := h
  · exact ⟨map, hk, hin, hclean⟩
  · exact absurd hm hmid

lemma Covered.frame {k k' : Call n Map} {d : Fin n} {now now' : ℕ} {x y : Cpu n Map}
    (h : Covered k d now x) (hreq : k'.request = k.request) (hmap : k'.map = k.map)
    (hchk : k'.checked d = k.checked d) (hnow : now ≤ now') (hflush : x.flushes ⊆ y.flushes)
    (hun : x.unflushed ⊆ y.unflushed) (hcur : y.currentMap = x.currentMap)
    (hent : y.enteredAt = x.enteredAt) (htlb : y.tlb ⊆ x.tlb)
    (hmid : x.midSwitch → y.midSwitch) : Covered k' d now' y := by
  rcases h with h | h | h
  · exact .inl (hreq ▸ h.mono hflush)
  · exact .inr (.inl (hreq ▸ hun h))
  · refine .inr (.inr ?_)
    have := h.frame hnow hcur hent htlb hmid
    simpa only [Spared, hreq, hmap, hchk] using this

/-- What holds of a call that has left its loop, until it returns. -/
structure ShootdownComplete (s : State n Map) : Prop where
  kernel : ∀ c, 12 ≤ (s.cpu c).call.phase.rank → (s.cpu c).call.request.start < kernelEnd →
    ∀ d, FlushedFor (s.cpu d).flushes (s.cpu c).call.request
  user : ∀ c, 12 ≤ (s.cpu c).call.phase.rank → kernelEnd ≤ (s.cpu c).call.request.start →
    ∃ map, (s.cpu c).call.map = some map ∧
      ((s.cpu c).call.phase.critical → map = (s.cpu c).currentMap) ∧
      ∀ d, (s.cpu d).currentMap = map →
        FlushedFor (s.cpu d).flushes (s.cpu c).call.request ∨
          ((s.cpu c).call.checked d < (s.cpu d).enteredAt ∧
            (s.cpu d).Clean map (s.cpu c).call.request)
  own : ∀ d r address size, (s.cpu d).crit = .handling .flush r address size →
    address = r.start ∧ size = r.size ∧
      ∃ c, s.lock = some c ∧ (s.cpu c).call.request = r

/-- The invariant of all runs. -/
structure Inv (s : State n Map) : Prop where
  calls : ∀ c, CallOk s c
  tlbs : ∀ c, TlbOk (s.cpu c)
  traffic : TrafficOk s
  coverage : CoverageOk s

variable {s t : State n Map} {c : Fin n}

lemma not_unflushed (h : Inv s) (hrank : 12 ≤ (s.cpu c).call.phase.rank) (d : Fin n) :
    (s.cpu c).call.request ∉ (s.cpu d).unflushed := by
  intro hr
  obtain ⟨c', hl, he⟩ := h.traffic.asked d _ ((s.cpu d).unflushed_subset hr)
  have hne : ∀ e, 8 ≤ (s.cpu e).call.phase.rank → (s.cpu e).call.phase ≠ .idle :=
    fun e hr hidle => by simp [hidle, Phase.rank] at hr
  have hcaller := (h.calls c').caller (hne c' hl.1)
  rw [he, (h.calls c).caller (hne c (by omega))] at hcaller
  subst hcaller
  have := hl.2
  omega

variable [DecidableEq Map] {cpus : List (Fin n)}

lemma local_unflushed {a : Action Map} (h : TrafficOk s) (ha : a.isLocal)
    (hstep : step cpus s c a = some t) {r : Request n} (hb : r.began ≤ s.now)
    (hr : r ∈ (s.cpu c).unflushed) :
    FlushedFor (t.cpu c).flushes r ∨ r ∈ (t.cpu c).unflushed := by
  cases a with
  | call start size => cases ha
  | advance => cases ha
  | deliver =>
    simp only [step] at hstep
    split at hstep
    case h_1 => cases hstep
    case h_2 r' pending hp =>
      split_ifs at hstep with hn
      obtain rfl := Option.some.inj hstep
      have hout := (Cpu.noncritical_iff.1 hn).1
      exact .inr (by simpa [Cpu.unflushed, Section.unflushed, hp, hout] using hr)
  | handle =>
    cases hcrit : (s.cpu c).crit with
    | outside => simp [step, handle, hcrit] at hstep
    | switching next map => simp [step, handle, hcrit] at hstep
    | handling next r' x z =>
      have haddress := h.address c next r' x z hcrit
      have hsize := h.size c next r' x z hcrit
      cases next <;> simp only [step, handle, hcrit] at hstep <;>
        obtain rfl := Option.some.inj hstep
      case flush =>
        simp only [Cpu.unflushed, Section.unflushed, hcrit, List.cons_append, List.nil_append,
          List.mem_cons] at hr
        rcases hr with rfl | hr
        · rw [haddress (by simp), hsize (by simp) (by simp)]
          exact .inl (by simpa [Cpu.invlpgs] using flushedFor_cons hb)
        · exact .inr (by simpa [Cpu.unflushed, Section.unflushed] using hr)
      all_goals exact .inr (by simpa [Cpu.unflushed, Section.unflushed, hcrit] using hr)
  | switch map =>
    simp only [step] at hstep
    split_ifs at hstep with hn
    obtain rfl := Option.some.inj hstep
    have hout := (Cpu.noncritical_iff.1 hn).1
    exact .inr (by simpa [Cpu.unflushed, Section.unflushed, hout] using hr)
  | change =>
    cases hcrit : (s.cpu c).crit with
    | outside => simp [step, change, hcrit] at hstep
    | handling next r address size => simp [step, change, hcrit] at hstep
    | switching next map =>
      cases next <;> simp only [step, change, hcrit] at hstep <;>
        obtain rfl := Option.some.inj hstep <;>
        exact .inr (by simpa [Cpu.unflushed, Section.unflushed, hcrit] using hr)
  | cache page =>
    obtain rfl := Option.some.inj hstep
    exact .inr (by simpa [Cpu.unflushed] using hr)
  | evict i =>
    obtain rfl := Option.some.inj hstep
    exact .inr (by simpa [Cpu.unflushed] using hr)

lemma local_spared {a : Action Map} (ha : a.isLocal)
    (hstep : step cpus s c a = some t) {k : Call n Map} {d : Fin n}
    (hb : k.request.began ≤ s.now) (h : Spared k d s.now (s.cpu c)) :
    Spared k d t.now (t.cpu c) := by
  cases a with
  | call start size => cases ha
  | advance => cases ha
  | deliver =>
    simp only [step] at hstep
    split at hstep
    case h_1 => cases hstep
    case h_2 r pending hp =>
      split_ifs at hstep with hn
      obtain rfl := Option.some.inj hstep
      have hmid := not_midSwitch_of_noncritical hn
      exact h.frame (by simp) (by simp) (by simp) (by simp) fun hm => absurd hm hmid
  | handle =>
    cases hcrit : (s.cpu c).crit with
    | outside => simp [step, handle, hcrit] at hstep
    | switching next map => simp [step, handle, hcrit] at hstep
    | handling next r x z =>
      have hmid : ¬ (s.cpu c).midSwitch := by simp [Cpu.midSwitch, hcrit]
      cases next <;> simp only [step, handle, hcrit] at hstep <;>
        obtain rfl := Option.some.inj hstep <;>
        exact h.frame (by simp) (by simp [Cpu.invlpgs]) (by simp [Cpu.invlpgs])
          (by simp [Cpu.invlpgs]) fun hm => absurd hm hmid
  | switch map =>
    simp only [step] at hstep
    split_ifs at hstep with hn
    obtain rfl := Option.some.inj hstep
    have hmid := not_midSwitch_of_noncritical hn
    exact h.frame (by simp) (by simp) (by simp) (by simp) fun hm => absurd hm hmid
  | change =>
    cases hcrit : (s.cpu c).crit with
    | outside => simp [step, change, hcrit] at hstep
    | handling next r address size => simp [step, change, hcrit] at hstep
    | switching next target =>
      cases next <;> simp only [step, change, hcrit] at hstep <;>
        obtain rfl := Option.some.inj hstep
      case willSet =>
        obtain ⟨map, hk, -, hclean⟩ := h.clean (by simp [Cpu.midSwitch, hcrit])
        refine ⟨by simpa using h.1.trans (Nat.lt_succ_self _), map, hk, ?_, .inl ?_⟩
        · simpa using fun _ => h.1
        · simpa [Cpu.Clean] using hclean
      case loadCr3 =>
        obtain ⟨hlt, map, hk, hin, -⟩ := h
        refine ⟨by simpa using hlt.trans (Nat.lt_succ_self _), map, hk, by simpa using hin,
          .inl fun e he hu => ?_⟩
        simp only [State.set_cpu, if_true, List.mem_filter] at he
        simp [hu] at he
      case leave =>
        exact h.frame (by simp) (by simp) (by simp) (by simp)
          fun hm => by simp [Cpu.midSwitch, hcrit] at hm
  | cache page =>
    obtain rfl := Option.some.inj hstep
    obtain ⟨hlt, map, hk, hin, hold⟩ := h
    refine ⟨by simpa using hlt.trans (Nat.lt_succ_self _), map, hk, by simpa using hin, ?_⟩
    rcases hold with hclean | hmid
    · left
      intro e he hu hm
      simp only [State.set_cpu, if_true, List.mem_cons] at he
      rcases he with rfl | he
      · exact hb
      · exact hclean e he hu hm
    · right
      simpa [Cpu.midSwitch] using hmid
  | evict i =>
    obtain rfl := Option.some.inj hstep
    exact h.frame (by simp) (by simp) (by simp)
      (by simpa using (List.eraseIdx_sublist _ i).subset) fun hm => by
        simpa [Cpu.midSwitch] using hm

/-- Once its scan has begun, a call passes a CPU by sending it an IPI, or by leaving it out
as not asked or as its own. -/
lemma advance_scan (h : CallOk s c) (hall : ∀ d, d ∈ cpus)
    (hstep : advance cpus s c = some t) (hrank : 8 ≤ (t.cpu c).call.phase.rank) {d : Fin n}
    (hd : d ∉ (t.cpu c).call.rest) :
    8 ≤ (s.cpu c).call.phase.rank ∧ (t.cpu c).call.request = (s.cpu c).call.request ∧
      (t.cpu c).call.map = (s.cpu c).call.map ∧
      (d ∉ (s.cpu c).call.rest ∧ (t.cpu c).call.checked d = (s.cpu c).call.checked d ∨
        (t.cpu c).call.checked d = s.now ∧
          (asks (s.cpu c).call.map (s.cpu d).currentMap = false ∨ d = c) ∨
        (s.cpu c).call.request ∈ (t.cpu d).pending) := by
  have hcrit := outside_of_advance hstep
  cases hph : (s.cpu c).call.phase <;>
    simp only [advance, hcrit, hph, Section.isOutside, Bool.not_true, Bool.false_eq_true,
      if_false] at hstep
  case idle => cases hstep
  case seizing =>
    split_ifs at hstep
    obtain rfl := Option.some.inj hstep
    simp [Cpu.goto, Phase.rank] at hrank
  case resetCount =>
    obtain rfl := Option.some.inj hstep
    simp [hall] at hd
  case scanning =>
    split at hstep
    case h_1 hrest =>
      obtain rfl := Option.some.inj hstep
      simp [Cpu.goto, Phase.rank, hrest]
    case h_2 e rest hrest =>
      split_ifs at hstep with hask <;> obtain rfl := Option.some.inj hstep <;>
        simp only [State.set_cpu, if_true, hrest] at hd ⊢
      · have hne : d ≠ e := fun he => hd (by simp [he])
        exact ⟨by simp [Phase.rank], trivial, trivial, .inl ⟨hd, Function.update_of_ne hne _ _⟩⟩
      · refine ⟨by simp [Phase.rank], trivial, trivial, ?_⟩
        by_cases he : d = e
        · subst he
          refine .inr (.inl ⟨Function.update_self .., ?_⟩)
          simp only [Bool.and_eq_true, decide_eq_true_eq, not_and_or, Bool.not_eq_true,
            not_not] at hask
          exact hask
        · exact .inl ⟨by simp [he, hd], Function.update_of_ne he _ _⟩
  case sending =>
    obtain ⟨e, rest, hrest, hne⟩ := h.other hph
    rw [hrest] at hstep
    obtain rfl := Option.some.inj hstep
    simp only [State.set_cpu, if_true] at hd ⊢
    refine ⟨by simp [Phase.rank], trivial, trivial, ?_⟩
    by_cases he : d = e
    · subst he
      exact .inr (.inr (by simp [hne]))
    · exact .inl ⟨by simp [hrest, he, hd], trivial⟩
  case waiting =>
    have hrest := h.all (by simp [hph, Phase.rank])
    split_ifs at hstep <;> obtain rfl := Option.some.inj hstep <;>
      simp [Cpu.goto, Phase.rank, hrest]
  all_goals
    obtain rfl := Option.some.inj hstep
    simp [Cpu.goto, Phase.rank] at hrank hd ⊢
  case counting => exact .inl hd
  case leaving => exact .inl hd
  case releasing => exact .inl hd

lemma advance_keeps (hstep : advance cpus s c = some t) (d : Fin n) :
    (s.cpu d).flushes ⊆ (t.cpu d).flushes ∧ (s.cpu d).unflushed ⊆ (t.cpu d).unflushed ∧
      (t.cpu d).currentMap = (s.cpu d).currentMap ∧
      (t.cpu d).enteredAt = (s.cpu d).enteredAt ∧ (t.cpu d).tlb ⊆ (s.cpu d).tlb ∧
      ((s.cpu d).midSwitch → (t.cpu d).midSwitch) := by
  by_cases hd : d = c
  · subst hd
    have hcrit := outside_of_advance hstep
    obtain ⟨hcrit', hmap, -, htlb, hpending, hflush, hent⟩ := advance_self hstep
    exact ⟨hflush, by simp [Cpu.unflushed, hcrit, hcrit', hpending], hmap, hent, htlb,
      by simp [Cpu.midSwitch, hcrit]⟩
  · obtain ⟨more, hcpu⟩ := (advance_other hstep).1 d hd
    rw [hcpu]
    exact ⟨by simp, by simp [Cpu.unflushed, ← List.append_assoc], rfl, rfl, by simp,
      by simp [Cpu.midSwitch]⟩

lemma advance_coverageOk (hall : ∀ d, d ∈ cpus) (hcall : ∀ d, CallOk s d)
    (htlb : ∀ d, TlbOk (s.cpu d)) (h : CoverageOk s) (hstep : advance cpus s c = some t) :
    CoverageOk t := by
  intro c' hrank d hd
  obtain ⟨hflush, hun, hmap, hent, htlb', hmid⟩ := advance_keeps hstep d
  have hnow := (advance_other hstep).2.1
  by_cases hc : c' = c
  swap
  · obtain ⟨more, hcpu⟩ := (advance_other hstep).1 c' hc
    rw [hcpu] at hrank hd ⊢
    exact (h c' hrank d hd).frame rfl rfl rfl hnow.le hflush hun hmap hent htlb' hmid
  subst hc
  obtain ⟨hold, hreq, hscope, hcase⟩ := advance_scan (hcall c') hall hstep hrank hd
  rcases hcase with ⟨hd', hchk⟩ | ⟨hchk, hask | rfl⟩ | hsent
  · exact (h c' hold d hd').frame hreq hscope hchk hnow.le hflush hun hmap hent htlb' hmid
  · refine .inr (.inr ⟨by omega, ?_⟩)
    cases hk : (s.cpu c').call.map with
    | none => simp [hk, asks] at hask
    | some map =>
      have hne : (s.cpu d).currentMap ≠ map := by simpa [hk, asks] using hask
      refine ⟨map, by rw [hscope, hk], fun he => absurd (hmap.symm.trans he) hne, ?_⟩
      by_cases hm : (s.cpu d).midSwitch
      · exact .inr ⟨by rwa [hmap], hmid hm⟩
      · exact .inl ((clean_of_ne (htlb d) hm hne).mono htlb')
  · exact .inl (hreq ▸ ((hcall d).flushed (by omega)).mono hflush)
  · exact .inr (.inl (hreq ▸ List.mem_append_right _ hsent))

theorem step_coverageOk {a : Action Map} (hall : ∀ d, d ∈ cpus) (hcall : ∀ d, CallOk s d)
    (htlb : ∀ d, TlbOk (s.cpu d)) (htraffic : TrafficOk s) (h : CoverageOk s)
    (hstep : step cpus s c a = some t) : CoverageOk t := by
  by_cases ha : a.isLocal
  · obtain ⟨-, -, -, hnow, hother, hself, hflush, -⟩ := local_frame ha hstep
    intro c' hrank d hd
    have hcalls : (t.cpu c').call = (s.cpu c').call := by
      by_cases hc : c' = c
      · rw [hc, hself]
      · rw [hother c' hc]
    rw [hcalls] at hrank hd ⊢
    have hb : (s.cpu c').call.request.began ≤ s.now :=
      (hcall c').began fun hidle => by simp [hidle, Phase.rank] at hrank
    have hcov := h c' hrank d hd
    by_cases hdc : d = c
    · subst hdc
      rcases hcov with hf | hu | hs
      · exact .inl (hf.mono hflush)
      · rcases local_unflushed htraffic ha hstep hb hu with hf | hu
        · exact .inl hf
        · exact .inr (.inl hu)
      · exact .inr (.inr (local_spared ha hstep hb hs))
    · rw [hother d hdc]
      exact hcov.frame rfl rfl rfl (by omega) (by simp) (by simp) rfl rfl (by simp) id
  · cases a with
    | advance => exact advance_coverageOk hall hcall htlb h hstep
    | call start size =>
      simp only [step] at hstep
      split_ifs at hstep
      obtain rfl := Option.some.inj hstep
      intro c' hrank d hd
      by_cases hc : c' = c
      · simp [hc, Phase.rank] at hrank
      · simp only [State.set_cpu, if_neg hc] at hrank hd ⊢
        have hcov := h c' hrank d hd
        by_cases hdc : d = c
        · subst hdc
          exact hcov.frame rfl rfl rfl (by simp) (by simp) (by simp [Cpu.unflushed]) (by simp)
            (by simp) (by simp) (by simp [Cpu.midSwitch])
        · rw [if_neg hdc]
          exact hcov.frame rfl rfl rfl (by simp) (by simp) (by simp) rfl rfl (by simp) id
    | _ => simp [Action.isLocal] at ha

lemma inv_start (h : (system cpus).start s) : Inv s := by
  obtain ⟨hlock, hinit⟩ := h
  have hidle : ∀ c, (s.cpu c).call.phase = .idle := fun c => (hinit c).idle
  refine ⟨fun c => ?_, fun c => ?_, ⟨fun d r hr => ?_, fun c hl => ?_, fun d _ _ _ _ hx => ?_,
    fun d _ _ _ _ hx => ?_⟩, fun c hrank => ?_⟩
  · constructor <;> simp [hidle, Phase.rank, Phase.Holding, Phase.critical]
  · exact ⟨fun e he hu => ((hinit c).cached e he).1 hu, fun _ => (hinit c).loaded,
      by simp [(hinit c).outside]⟩
  · simp [Cpu.unacked, Section.unacked, (hinit d).outside, (hinit d).pending] at hr
  · simp [hidle, Phase.Live, Phase.rank] at hl
  · simp [(hinit d).outside] at hx
  · simp [(hinit d).outside] at hx
  · simp [hidle, Phase.rank] at hrank

theorem inv_reachable (hall : ∀ d, d ∈ cpus) (h : (system cpus).Reachable s) : Inv s := by
  refine h.invariant (fun s hs => inv_start hs) ?_
  rintro s ⟨c, a⟩ t - ⟨calls, tlbs, traffic, coverage⟩ hstep
  refine ⟨step_callOk calls hstep, step_tlbOk tlbs hstep, ?_,
    step_coverageOk hall calls tlbs traffic coverage hstep⟩
  by_cases ha : a.isLocal
  · exact local_trafficOk calls traffic ha hstep
  · exact nonlocal_trafficOk calls traffic ha hstep

/-- Shootdown is complete in every run, whatever the interleaving. -/
theorem distributeInvlpg_complete (hall : ∀ d, d ∈ cpus) (h : (system cpus).Reachable s) :
    ShootdownComplete s := by
  have hinv := inv_reachable hall h
  have hcovered : ∀ c, 12 ≤ (s.cpu c).call.phase.rank → ∀ d,
      FlushedFor (s.cpu d).flushes (s.cpu c).call.request ∨
        Spared (s.cpu c).call d s.now (s.cpu d) := by
    intro c hrank d
    have hrest := (hinv.calls c).all (by omega)
    rcases hinv.coverage c (by omega) d (by simp [hrest]) with hf | hu | hs
    · exact .inl hf
    · exact absurd hu (not_unflushed hinv hrank d)
    · exact .inr hs
  refine ⟨fun c hrank hstart d => ?_, fun c hrank hstart => ?_, fun d r x z hx => ?_⟩
  · have hnone := ((hinv.calls c).kernel (by omega)).mpr hstart
    rcases hcovered c hrank d with hf | ⟨-, map, hmap, -⟩
    · exact hf
    · simp [hnone] at hmap
  · cases hmap : (s.cpu c).call.map with
    | none => exact absurd (((hinv.calls c).kernel (by omega)).mp hmap) (BitVec.not_lt.mpr hstart)
    | some map =>
      refine ⟨map, rfl, fun hcrit => (hinv.calls c).callersMap (by omega) hcrit map hmap,
        fun d hd => ?_⟩
      rcases hcovered c hrank d with hf | ⟨-, map', hmap', hin, hold⟩
      · exact .inl hf
      · obtain rfl := Option.some.inj (hmap.symm.trans hmap')
        rcases hold with hclean | ⟨hne, -⟩
        · exact .inr ⟨hin hd, hclean⟩
        · exact absurd hd hne
  · obtain ⟨c, hl, he⟩ := hinv.traffic.asked d r (by simp [Cpu.unacked, Section.unacked, hx])
    exact ⟨hinv.traffic.address d _ r x z hx (by simp),
      hinv.traffic.size d _ r x z hx (by simp) (by simp), c,
      (hinv.calls c).holder hl.holding, he⟩

def run (cpus : List (Fin n)) : List (Fin n × Action Map) → State n Map → Option (State n Map)
  | [], s => some s
  | (c, a) :: rest, s => (step cpus s c a).bind (run cpus rest)

lemma reachable_run {actions : List (Fin n × Action Map)} (h : (system cpus).Reachable s)
    (ht : run cpus actions s = some t) : (system cpus).Reachable t := by
  induction actions generalizing s with
  | nil => exact Option.some.inj ht ▸ h
  | cons a rest ih =>
    obtain ⟨u, hu, ht⟩ := Option.bind_eq_some_iff.mp ht
    exact ih (h.next (a := a) hu) ht

end

/-- Two CPUs in one user map, both with a page of it cached. -/
def twoCpus : State 2 Bool where
  cpu _ :=
    { call := ⟨.idle, ⟨⟨0, Nat.two_pos⟩, 0, 0, 0⟩, none, [], fun _ => 0⟩
      crit := .outside
      currentMap := true
      cr3 := true
      tlb := [⟨true, 0x8000000000, 0⟩]
      pending := []
      flushes := []
      enteredAt := 0 }
  lock := none
  invlAddress := 0
  invlSize := 0
  ipiCount := 0
  now := 1

/-- CPU 0 invalidates the page, and CPU 1 acknowledges before its IPI is counted. -/
def fastResponder : List (Fin 2 × Action Bool) :=
  let c₀ := ⟨0, Nat.two_pos⟩
  let c₁ := ⟨1, Nat.one_lt_two⟩
  (c₀, .call 0x8000000000 0x1000) :: List.replicate 10 (c₀, .advance) ++
    (c₁, .deliver) :: List.replicate 4 (c₁, .handle) ++ List.replicate 5 (c₀, .advance)

theorem fastResponder_complete : ∃ t, run [0, 1] fastResponder twoCpus = some t ∧
    (t.cpu 0).call.phase = .returning ∧ ShootdownComplete t := by
  have hstart : (system [0, 1]).Reachable twoCpus := .start ⟨rfl, fun c => by
    constructor <;> simp [twoCpus]⟩
  obtain ⟨t, ht⟩ : ∃ t, run [0, 1] fastResponder twoCpus = some t := ⟨_, rfl⟩
  refine ⟨t, ht, ?_, distributeInvlpg_complete (by decide) (reachable_run hstart ht)⟩
  obtain rfl := Option.some.inj ht
  rfl

end Anarch.Tlb
