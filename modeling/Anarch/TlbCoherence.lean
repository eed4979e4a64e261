import Anarch.TlbShootdownComplete

/-! What TLBs hold after a shootdown, where they cache only what the page tables say at the time:
no CPU translates an address whose page was taken away before the call. -/
namespace Anarch.Tlb
open PageTable TransitionRun TlbInvalidate

variable {n : ℕ} {Map : Type}

def InRange (start : VirtAddr) (size : Word) (page : VirtAddr) : Prop :=
  start.toNat ≤ page.toNat ∧ page.toNat < start.toNat + size.toNat

namespace Entry

lemma base_toNat (e : Entry Map) :
    (e.page >>> 12 <<< 12).toNat = e.page.toNat / 0x1000 * 0x1000 := by
  have hlt := e.page.isLt
  rw [BitVec.toNat_shiftLeft, BitVec.toNat_ushiftRight, Nat.shiftRight_eq_div_pow,
    Nat.shiftLeft_eq]
  exact Nat.mod_eq_of_lt (by omega)

lemma base_dvd (e : Entry Map) : 0x1000 ∣ (e.page >>> 12 <<< 12).toNat := by
  rw [base_toNat]
  exact Dvd.intro_left _ rfl

def cachedPage (e : Entry Map) : CachedPage := firstPage (e.page >>> 12 <<< 12) e.base_dvd

lemma mem_addresses (e : Entry Map) (addr : VirtAddr) :
    addr.toNat ∈ e.cachedPage.addresses ↔ addr >>> 12 = e.page >>> 12 := by
  have hbase := e.base_toNat
  rw [CachedPage.addresses, cachedPage, firstPage, Set.mem_Ico, hbase, ← BitVec.toNat_inj,
    BitVec.toNat_ushiftRight, BitVec.toNat_ushiftRight, Nat.shiftRight_eq_div_pow,
    Nat.shiftRight_eq_div_pow]
  change _ ∧ addr.toNat < _ + 0x1000 ↔ _
  omega

lemma isGlobal_iff (e : Entry Map) : e.cachedPage.isGlobal ↔ ¬ e.isUser := by
  have hbase : e.cachedPage.base.toNat = _ := e.base_toNat
  have hend : kernelEnd.toNat = 0x8000000000 := rfl
  rw [CachedPage.isGlobal_iff, isUser, BitVec.not_le, BitVec.lt_def, BitVec.lt_def]
  omega

lemma mem_of_survives {instrs : List Instr} {cpu : TlbInvalidate.Cpu} (e : Entry Map)
    (hall : instrs.all e.survives) (hmem : e.cachedPage ∈ cpu.tlb) :
    e.cachedPage ∈ (instrs.foldl exec cpu).tlb := by
  induction instrs generalizing cpu with
  | nil => exact hmem
  | cons i instrs ih =>
    rw [List.all_cons, Bool.and_eq_true] at hall
    refine ih hall.2 ?_
    have hi := hall.1
    cases i with
    | invlpg addr =>
      simp only [survives, ne_eq, decide_eq_true_eq] at hi
      exact ⟨hmem, fun h => hi ((e.mem_addresses addr).mp h)⟩
    | storeCr4 => cases hi
    | storeCr3 => exact ⟨hmem, e.isGlobal_iff.mpr (by simpa [survives] using hi)⟩
    | loadCr4 | xorRax imm | orRax imm | loadCr3 => exact hmem

lemma not_survives {instrs : List Instr} {start : VirtAddr} {size : Word} (e : Entry Map)
    (hclears : Clears instrs start size) (hin : InRange start size e.page) :
    ¬ instrs.all e.survives := fun hall =>
  Set.disjoint_left.mp (hclears ⟨0, 0, 0, {e.cachedPage}⟩ _ (e.mem_of_survives hall rfl))
    ((e.mem_addresses e.page).mpr rfl) hin

end Entry

/-- What the page tables say at each time. -/
abbrev History (Map : Type) := ℕ → Map → VirtAddr → Prop

/-- A CPU caches a page of the map that it has loaded, as the page tables are at that time. -/
def Faithful (mapped : History Map) (s : State n Map) (a : Fin n × Action Map) : Prop :=
  ∀ page, a.2 = .cache page → mapped s.now (s.cpu a.1).cr3 page

/-- Every entry was right when it was cached, and none is older than a flush of its page, if that
was one that clears its range. -/
structure Cpu.Fresh (mapped : History Map) (now : ℕ) (x : Cpu n Map) : Prop where
  mapped : ∀ e ∈ x.tlb, e.cachedAt < now ∧ mapped e.cachedAt e.map e.page
  flushed : ∀ f ∈ x.flushes, f.time < now ∧
    (Clearable f.start f.size → ∀ e ∈ x.tlb, InRange f.start f.size e.page → f.time ≤ e.cachedAt)

section
variable {mapped : History Map} {x y : Cpu n Map} {now now' : ℕ}

lemma Cpu.Fresh.mono (h : x.Fresh mapped now) (htlb : y.tlb ⊆ x.tlb)
    (hflush : y.flushes ⊆ x.flushes) (hnow : now ≤ now') : y.Fresh mapped now' where
  mapped e he := ⟨(h.mapped e (htlb he)).1.trans_le hnow, (h.mapped e (htlb he)).2⟩
  flushed f hf := ⟨(h.flushed f (hflush hf)).1.trans_le hnow,
    fun hclear e he => (h.flushed f (hflush hf)).2 hclear e (htlb he)⟩

lemma Cpu.Fresh.invlpgs (h : x.Fresh mapped now) (start : VirtAddr) (size : Word) :
    (x.invlpgs start size now).Fresh mapped (now + 1) where
  mapped e he := by
    obtain ⟨hlt, hmapped⟩ := h.mapped e (List.mem_of_mem_filter he)
    exact ⟨hlt.trans now.lt_succ_self, hmapped⟩
  flushed f hf := by
    rcases List.mem_cons.mp hf with rfl | hf
    · refine ⟨now.lt_succ_self, fun hclear e he hin => ?_⟩
      obtain ⟨instrs, hcall, hclears⟩ := hclear.clears
      have hsurvives := (List.mem_filter.mp he).2
      rw [hcall] at hsurvives
      exact absurd hsurvives (e.not_survives hclears hin)
    · obtain ⟨hlt, hold⟩ := h.flushed f hf
      exact ⟨hlt.trans now.lt_succ_self,
        fun hclear e he => hold hclear e (List.mem_of_mem_filter he)⟩

lemma Cpu.Fresh.cache {page : VirtAddr} (h : x.Fresh mapped now) (hpage : mapped now x.cr3 page)
    (htlb : y.tlb = ⟨x.cr3, page, now⟩ :: x.tlb) (hflush : y.flushes = x.flushes) :
    y.Fresh mapped (now + 1) where
  mapped e he := by
    rcases List.mem_cons.mp (htlb ▸ he) with rfl | he
    · exact ⟨now.lt_succ_self, hpage⟩
    · exact ⟨(h.mapped e he).1.trans now.lt_succ_self, (h.mapped e he).2⟩
  flushed f hf := by
    obtain ⟨hlt, hold⟩ := h.flushed f (hflush ▸ hf)
    refine ⟨hlt.trans now.lt_succ_self, fun hclear e he hin => ?_⟩
    rcases List.mem_cons.mp (htlb ▸ he) with rfl | he
    · exact hlt.le
    · exact hold hclear e he hin

end

section
variable [DecidableEq Map] {cpus : List (Fin n)} {s t : State n Map} {c : Fin n}

/-- All that a step can do to the TLB of its CPU: drop entries, run `Invlpgs`, cache a page. -/
lemma step_tlb {a : Action Map} (hstep : step cpus s c a = some t) :
    (t.cpu c).tlb ⊆ (s.cpu c).tlb ∧ (t.cpu c).flushes = (s.cpu c).flushes ∨
    (∃ start size, (t.cpu c).tlb = ((s.cpu c).invlpgs start size s.now).tlb ∧
      (t.cpu c).flushes = ((s.cpu c).invlpgs start size s.now).flushes) ∨
    ∃ page, a = .cache page ∧ (t.cpu c).tlb = ⟨(s.cpu c).cr3, page, s.now⟩ :: (s.cpu c).tlb ∧
      (t.cpu c).flushes = (s.cpu c).flushes := by
  cases a with
  | call start size =>
    simp only [step] at hstep
    split_ifs at hstep
    obtain rfl := Option.some.inj hstep
    exact .inl (by simp)
  | advance =>
    have hcrit := outside_of_advance hstep
    cases hph : (s.cpu c).call.phase <;>
      simp only [step, advance, hcrit, hph, Section.isOutside, Bool.not_true, Bool.false_eq_true,
        if_false] at hstep
    case idle => cases hstep
    case flushing =>
      obtain rfl := Option.some.inj hstep
      exact .inr (.inl ⟨(s.cpu c).call.request.start, (s.cpu c).call.request.size,
        by simp [Cpu.goto]⟩)
    case seizing =>
      split_ifs at hstep
      obtain rfl := Option.some.inj hstep
      exact .inl (by simp [Cpu.goto])
    case scanning =>
      split at hstep
      · obtain rfl := Option.some.inj hstep
        exact .inl (by simp [Cpu.goto])
      · split_ifs at hstep <;> obtain rfl := Option.some.inj hstep <;> exact .inl (by simp)
    case sending =>
      split at hstep
      · cases hstep
      · obtain rfl := Option.some.inj hstep
        exact .inl (by simp)
    case waiting =>
      split_ifs at hstep <;> obtain rfl := Option.some.inj hstep <;>
        exact .inl (by simp [Cpu.goto])
    all_goals
      obtain rfl := Option.some.inj hstep
      exact .inl (by simp [Cpu.goto])
  | deliver =>
    simp only [step] at hstep
    split at hstep
    · cases hstep
    · split_ifs at hstep
      obtain rfl := Option.some.inj hstep
      exact .inl (by simp)
  | handle =>
    cases hcrit : (s.cpu c).crit with
    | outside => simp [step, handle, hcrit] at hstep
    | switching next map => simp [step, handle, hcrit] at hstep
    | handling next r address size =>
      cases next <;> simp only [step, handle, hcrit] at hstep <;>
        obtain rfl := Option.some.inj hstep
      case flush => exact .inr (.inl ⟨address, size, by simp⟩)
      all_goals exact .inl (by simp)
  | switch map =>
    simp only [step] at hstep
    split_ifs at hstep
    obtain rfl := Option.some.inj hstep
    exact .inl (by simp)
  | change =>
    cases hcrit : (s.cpu c).crit with
    | outside => simp [step, change, hcrit] at hstep
    | handling next r address size => simp [step, change, hcrit] at hstep
    | switching next map =>
      cases next <;> simp only [step, change, hcrit] at hstep <;>
        obtain rfl := Option.some.inj hstep <;> exact .inl (by simp)
  | cache page =>
    obtain rfl := Option.some.inj hstep
    exact .inr (.inr ⟨page, rfl, by simp⟩)
  | evict i =>
    obtain rfl := Option.some.inj hstep
    exact .inl (by simpa using (List.eraseIdx_sublist _ i).subset)

lemma step_now {a : Action Map} (hstep : step cpus s c a = some t) : s.now < t.now := by
  by_cases ha : a.isLocal
  · have hnow := (local_frame ha hstep).2.2.2.1
    omega
  · cases a with
    | advance => exact (advance_other hstep).2.1
    | call start size =>
      simp only [step] at hstep
      split_ifs at hstep
      obtain rfl := Option.some.inj hstep
      simp
    | _ => simp [Action.isLocal] at ha

lemma step_fresh {mapped : History Map} {a : Action Map}
    (h : ∀ d, (s.cpu d).Fresh mapped s.now) (hfaithful : Faithful mapped s (c, a))
    (hstep : step cpus s c a = some t) (d : Fin n) : (t.cpu d).Fresh mapped t.now := by
  have hnow := step_now hstep
  by_cases hd : d = c
  · subst hd
    rcases step_tlb hstep with ⟨htlb, hflush⟩ | ⟨start, size, htlb, hflush⟩ |
      ⟨page, rfl, htlb, hflush⟩
    · exact (h d).mono htlb (by simp [hflush]) hnow.le
    · exact ((h d).invlpgs start size).mono (by simp [htlb]) (by simp [hflush]) hnow
    · exact ((h d).cache (hfaithful page rfl) htlb hflush).mono (by simp) (by simp) hnow
  · obtain ⟨more, hcpu⟩ := step_other hstep hd
    exact (h d).mono (by simp [hcpu]) (by simp [hcpu]) hnow.le

/-- The runs in which TLBs cache only what the page tables say, from the start on. -/
def faithful (mapped : History Map) (cpus : List (Fin n)) :
    System (State n Map) (Fin n × Action Map) where
  start s := (system cpus).start s ∧
    ∀ c, ∀ e ∈ (s.cpu c).tlb, mapped e.cachedAt e.map e.page
  step s a t := Faithful mapped s a ∧ (system cpus).step s a t

variable {mapped : History Map}

lemma reachable_of_faithful (h : (faithful mapped cpus).Reachable s) :
    (system cpus).Reachable s := by
  induction h with
  | start hs => exact .start hs.1
  | next _ hstep ih => exact ih.next hstep.2

lemma fresh_reachable (h : (faithful mapped cpus).Reachable s) (d : Fin n) :
    (s.cpu d).Fresh mapped s.now := by
  induction h generalizing d with
  | start hs =>
    refine ⟨fun e he => ⟨((hs.1.2 d).cached e he).2, hs.2 d e he⟩, fun f hf => ?_⟩
    simp [(hs.1.2 d).flushes] at hf
  | next _ hstep ih => exact step_fresh ih hstep.1 hstep.2 d

/-- The CPU holds no entry of the range, in this map if one is given, from before the request. -/
def Cpu.Rid (map : Option Map) (r : Request n) (x : Cpu n Map) : Prop :=
  ∀ e ∈ x.tlb, InRange r.start r.size e.page → (∀ m ∈ map, e.map = m) → r.began ≤ e.cachedAt

/-- Old entries of a user map stay only until the CR3 load that is about to drop them. -/
def Cpu.Passed (map : Option Map) (r : Request n) (x : Cpu n Map) : Prop :=
  x.Rid map r ∨ ∃ m, map = some m ∧ kernelEnd ≤ r.start ∧ x.currentMap ≠ m ∧ x.midSwitch

lemma step_midSwitch {a : Action Map} (hstep : step cpus s c a = some t)
    (hmid : (s.cpu c).midSwitch) :
    (t.cpu c).currentMap = (s.cpu c).currentMap ∧ (t.cpu c).midSwitch ∨
      ∀ e ∈ (t.cpu c).tlb, ¬ e.isUser := by
  obtain ⟨map, hcrit⟩ := hmid
  cases a with
  | call start size => simp [step, hcrit, Section.isOutside] at hstep
  | advance => simp [step, advance, hcrit, Section.isOutside] at hstep
  | deliver =>
    simp only [step] at hstep
    split at hstep <;> simp [Cpu.noncritical, hcrit, Section.isOutside] at hstep
  | handle => simp [step, handle, hcrit] at hstep
  | switch map => simp [step, Cpu.noncritical, hcrit, Section.isOutside] at hstep
  | change =>
    simp only [step, change, hcrit] at hstep
    obtain rfl := Option.some.inj hstep
    right
    simp
  | cache page =>
    obtain rfl := Option.some.inj hstep
    exact .inl (by simp [Cpu.midSwitch, hcrit])
  | evict i =>
    obtain rfl := Option.some.inj hstep
    exact .inl (by simp [Cpu.midSwitch, hcrit])

/-- Once passed, a CPU stays so, whatever it caches later. -/
lemma step_passed {a : Action Map} {map : Option Map} {r : Request n} (hbegan : r.began ≤ s.now)
    (hstep : step cpus s c a = some t) {d : Fin n} (h : (s.cpu d).Passed map r) :
    (t.cpu d).Passed map r := by
  by_cases hd : d = c
  swap
  · obtain ⟨more, hcpu⟩ := step_other hstep hd
    simpa [hcpu, Cpu.Passed, Cpu.Rid, Cpu.midSwitch] using h
  subst hd
  rcases h with hrid | ⟨m, hm, huser, hne, hmid⟩
  · left
    rcases step_tlb hstep with ⟨htlb, -⟩ | ⟨start, size, htlb, -⟩ | ⟨page, -, htlb, -⟩
    · exact fun e he => hrid e (htlb he)
    · exact fun e he => hrid e (List.mem_of_mem_filter (htlb ▸ he))
    · intro e he hin hmap
      rcases List.mem_cons.mp (htlb ▸ he) with rfl | he
      · exact hbegan
      · exact hrid e he hin hmap
  · rcases step_midSwitch hstep hmid with ⟨hcur, hmid'⟩ | hnone
    · exact .inr ⟨m, hm, huser, hcur ▸ hne, hmid'⟩
    · exact .inl fun e he hin _ => absurd (Nat.le_trans huser hin.1) (hnone e he)

lemma passed_after {map : Option Map} {r : Request n}
    (h : ((faithful mapped cpus).after s).Reachable t) (hbegan : r.began ≤ s.now)
    (hs : ∀ d, (s.cpu d).Passed map r) : r.began ≤ t.now ∧ ∀ d, (t.cpu d).Passed map r := by
  induction h with
  | start heq =>
    obtain rfl := heq
    exact ⟨hbegan, hs⟩
  | next _ hstep ih =>
    exact ⟨ih.1.trans (step_now hstep.2).le, fun d => step_passed ih.1 hstep.2 (ih.2 d)⟩

omit [DecidableEq Map] in
lemma passed_of_call (hinv : Inv s) (hfresh : ∀ d, (s.cpu d).Fresh mapped s.now)
    (hrank : 12 ≤ (s.cpu c).call.phase.rank)
    (hclear : Clearable (s.cpu c).call.request.start (s.cpu c).call.request.size) (d : Fin n) :
    (s.cpu d).Passed (s.cpu c).call.map (s.cpu c).call.request := by
  have hcall := hinv.calls c
  have hrest := hcall.all (by omega)
  rcases hinv.coverage c (by omega) d (by simp [hrest]) with hflushed | hun | hspared
  · obtain ⟨f, hf, hstart, hsize, hbegan⟩ := hflushed
    refine .inl fun e he hin _ => hbegan.trans (((hfresh d).flushed f hf).2 ?_ e he ?_)
    · rwa [hstart, hsize]
    · rwa [hstart, hsize]
  · exact absurd hun (not_unflushed hinv hrank d)
  · obtain ⟨-, m, hm, -, hold⟩ := hspared
    have huser : kernelEnd ≤ (s.cpu c).call.request.start := by
      refine BitVec.not_lt.mp fun hlt => ?_
      simp [(hcall.kernel (by omega)).mpr hlt] at hm
    rcases hold with hclean | ⟨hne, hmid⟩
    · exact .inl fun e he hin hmap => hclean e he (Nat.le_trans huser hin.1) (hmap m hm)
    · exact .inr ⟨m, hm, huser, hne, hmid⟩

/-- From the end of a call of `DistributeInvlpg` on, of a range that `Invlpgs` clears and for as
long as the page tables keep the range unmapped, no CPU can translate an address of the range, in
any map for kernel addresses and in the caller's map for others, save one that is in the middle
of leaving that map. -/
theorem shootdown_coherent (hall : ∀ d, d ∈ cpus) (hs : (faithful mapped cpus).Reachable s)
    (hrank : 12 ≤ (s.cpu c).call.phase.rank)
    (hclear : Clearable (s.cpu c).call.request.start (s.cpu c).call.request.size)
    (ht : ((faithful mapped cpus).after s).Reachable t)
    (hunmapped : ∀ time map page, (s.cpu c).call.request.began ≤ time → time < t.now →
      (∀ m ∈ (s.cpu c).call.map, map = m) →
      InRange (s.cpu c).call.request.start (s.cpu c).call.request.size page →
      ¬ mapped time map page) :
    ((s.cpu c).call.map = none ↔ (s.cpu c).call.request.start < kernelEnd) ∧
      ∀ d, ∀ e ∈ (t.cpu d).tlb,
        InRange (s.cpu c).call.request.start (s.cpu c).call.request.size e.page →
        (∀ m ∈ (s.cpu c).call.map, e.map = m) →
        ∃ m, (s.cpu c).call.map = some m ∧ (t.cpu d).currentMap ≠ m ∧ (t.cpu d).midSwitch := by
  have hinv := inv_reachable hall (reachable_of_faithful hs)
  have hcall := hinv.calls c
  have hidle : (s.cpu c).call.phase ≠ .idle := fun h => by simp [h, Phase.rank] at hrank
  refine ⟨hcall.kernel (by omega), fun d e he hin hmap => ?_⟩
  -- what is passed at the end of the call stays so up to `t`
  have hpassed := passed_after ht (hcall.began hidle)
    (passed_of_call hinv (fresh_reachable hs) hrank hclear)
  rcases hpassed.2 d with hrid | ⟨m, hm, -, hne, hmid⟩
  · obtain ⟨hpast, hmapped⟩ := (fresh_reachable (hs.append ht) d).mapped e he
    exact absurd hmapped (hunmapped _ _ _ (hrid e he hin hmap) hpast hmap hin)
  · exact ⟨m, hm, hne, hmid⟩

lemma faithful_run {actions : List (Fin n × Action Map)} (h : (faithful mapped cpus).Reachable s)
    (hcache : ∀ a ∈ actions, ∀ page, a.2 ≠ .cache page) (ht : run cpus actions s = some t) :
    (faithful mapped cpus).Reachable t := by
  induction actions generalizing s with
  | nil => exact Option.some.inj ht ▸ h
  | cons a rest ih =>
    obtain ⟨u, hu, ht⟩ := Option.bind_eq_some_iff.mp ht
    refine ih (h.next (a := a) ⟨fun page hpage => ?_, hu⟩) (fun b hb => ?_) ht
    · exact absurd hpage (hcache a List.mem_cons_self page)
    · exact hcache b (List.mem_cons_of_mem _ hb)

end

/-- The page goes at time 1, and CPU 0 has it flushed. -/
theorem shootdown_coherent_fastResponder : ∃ s, run [0, 1] fastResponder twoCpus = some s ∧
    ∀ d, ∀ e ∈ (s.cpu d).tlb, InRange 0x8000000000 0x1000 e.page → e.map = true →
      (s.cpu d).midSwitch := by
  have hstart : (faithful (fun time _ _ => time < 1) [0, 1]).Reachable twoCpus :=
    .start ⟨⟨rfl, fun c => by constructor <;> simp [twoCpus]⟩, by simp [twoCpus]⟩
  obtain ⟨s, hs⟩ : ∃ s, run [0, 1] fastResponder twoCpus = some s := ⟨_, rfl⟩
  have hreach := faithful_run hstart (by simp [fastResponder]) hs
  have hcall : (s.cpu 0).call.phase = .returning ∧ (s.cpu 0).call.map = some true ∧
      (s.cpu 0).call.request = ⟨0, 0x8000000000, 0x1000, 1⟩ := by
    obtain rfl := Option.some.inj hs
    exact ⟨rfl, rfl, rfl⟩
  obtain ⟨hphase, hmap, hrequest⟩ := hcall
  have hclear : Clearable (s.cpu 0).call.request.start (s.cpu 0).call.request.size := by
    rw [hrequest]
    exact ⟨by decide, by decide, .inr (by decide), by decide, by decide⟩
  have hcoherent := shootdown_coherent (c := 0) (by decide) hreach (by simp [hphase, Phase.rank])
    hclear (.start rfl) fun time _ _ hbegan _ _ _ => by
      rw [hrequest] at hbegan
      exact Nat.not_lt.mpr hbegan
  refine ⟨s, hs, fun d e he hin hm => ?_⟩
  obtain ⟨-, -, -, hmid⟩ := hcoherent.2 d e he (by rwa [hrequest]) (by simp [hmap, hm])
  exact hmid

end Anarch.Tlb
