import Mathlib.Data.List.Perm.Basic
import Anarch.ApicTable
import Anarch.DomainList

/-! The capacity of the main domain against the processors that `StartCpus` may bring up. -/
namespace Anarch.DomainList
open TransitionRun

/-- `Domain::InitNewCpu` on the `count` of the domain. -/
def initNewCpu (capacity count : ℕ) : Outcome ℕ := do
  assertThat "count < capacity" (count < capacity)
  return count + 1

/-- That many calls of `InitNewCpu` on a new domain. -/
def initNewCpus (capacity : ℕ) : ℕ → Outcome ℕ
  | 0 => .ok 0
  | n + 1 => initNewCpus capacity n >>= initNewCpu capacity

lemma initNewCpus_iff {capacity n count : ℕ} :
    initNewCpus capacity n = .ok count ↔ count = n ∧ n ≤ capacity := by
  induction n generalizing count with
  | zero => simp [initNewCpus, eq_comm]
  | succ n ih =>
    simp only [initNewCpus, bind_eq_ok, ih, initNewCpu, assertThat_eq_ok, decide_eq_true_eq]
    constructor
    · rintro ⟨_, ⟨rfl, -⟩, _, hlt, hcount⟩
      exact ⟨(Except.ok.inj hcount).symm, hlt⟩
    · rintro ⟨rfl, hle⟩
      exact ⟨n, ⟨rfl, Nat.le_of_succ_le hle⟩, (), hle, rfl⟩

/-- `StartCpus` on a new domain, where only the boot processor has its `Cpu` object. -/
def startup (own : ApicId) (ids : List ApicId) : System State Action where
  start s := (system own ids).start s ∧ s.cpus = []
  step := (system own ids).step

def Phase.coming : Phase → Bool
  | .starting | .seizing | .entering => true
  | _ => false

/-- The processors that have still to get their first STARTUP IPI. -/
def Boot.left (own : ApicId) : Boot → List ApicId
  | .scanning rest => rest.filter (· ≠ own)
  | .sendInit id rest | .clearFlag id rest | .sendStartup id 0 rest => id :: rest.filter (· ≠ own)
  | .sendStartup _ (_ + 1) rest | .seize _ _ _ rest | .check _ _ _ rest => rest.filter (· ≠ own)

/-- Every call of `InitNewCpu`, made or still to come, goes back to an entry of its own. -/
structure Booked (own : ApicId) (ids : List ApicId) (s : State) : Prop where
  count_le : ∀ id, s.cpus.count id + (s.phase id).coming.toNat + (s.boot.left own).count id ≤
    (ids.filter (· ≠ own)).count id
  came : ∀ id, s.boot.waitsFor id → s.phase id ≠ .waiting

section
variable {own id : ApicId} {ids : List ApicId} {s t : State}

@[simp] lemma goto_cpus (s : State) (id : ApicId) (p : Phase) : (s.goto id p).cpus = s.cpus := rfl

lemma Booked.start (h : (startup own ids).start s) : Booked own ids s := by
  obtain ⟨⟨hb, -, hp⟩, hc⟩ := h
  constructor
  · intro id
    simp [hb, hp, hc, Phase.coming, Boot.left]
  · intro id hw
    rw [hb] at hw
    exact hw.elim

lemma Booked.bootMove (h : Booked own ids s) {b : Boot} {lock : Option Owner} {flag : Bool}
    (hleft : b.left own = s.boot.left own) (hwaits : ∀ id, b.waitsFor id → s.boot.waitsFor id) :
    Booked own ids { s with boot := b, initLock := lock, initFlag := flag } where
  count_le id := by
    rw [hleft]
    exact h.count_le id
  came id hw := h.came id (hwaits id hw)

lemma Booked.move (h : Booked own ids s) {q : Phase} {cpus : List ApicId} {lock : Option Owner}
    {flag : Bool} (hq : q ≠ .waiting) (hcount : ∀ id', cpus.count id' + (if id' = id then q
      else s.phase id').coming.toNat ≤ s.cpus.count id' + (s.phase id').coming.toNat) :
    Booked own ids { s.goto id q with cpus := cpus, initLock := lock, initFlag := flag } where
  count_le id' := by
    have hle := h.count_le id'
    have hstep := hcount id'
    simp only [goto_phase, goto_boot]
    omega
  came id' hw := by
    simp only [goto_phase]
    split_ifs
    · exact hq
    · exact h.came id' hw

lemma Booked.sendInit (h : Booked own ids s) {rest : List ApicId}
    (hb : s.boot = .sendInit id rest) :
    Booked own ids { s.goto id .waiting with boot := .clearFlag id rest } where
  count_le id' := by
    have hle := h.count_le id'
    rw [hb] at hle
    simp only [goto_phase]
    split_ifs with hid
    · exact (Nat.add_le_add_right (Nat.le_add_right _ _) _).trans hle
    · exact hle
  came id' hw := hw.elim

/-- The first STARTUP IPI uses up the entry, the second one finds the processor coming. -/
lemma Booked.sendStartup (h : Booked own ids s) {j : ℕ} {rest : List ApicId}
    (hb : s.boot = .sendStartup id j rest) :
    Booked own ids { s.goto id (if s.phase id = .waiting then .starting else s.phase id) with
      boot := .seize id j 0 rest } where
  count_le id' := by
    have hle := h.count_le id'
    have hcame := h.came id
    rw [hb] at hle hcame
    change s.cpus.count id' + _ + _ ≤ _
    simp only [goto_phase, Boot.left]
    cases j with
    | zero =>
      simp only [Boot.left, List.count_cons] at hle
      split_ifs with hid hp
      · simp [hid, Phase.coming] at hle ⊢
        omega
      · simp [hid] at hle ⊢
        omega
      · omega
    | succ j =>
      have hne := hcame ⟨rfl, Nat.succ_pos j⟩
      rw [if_neg hne]
      split_ifs with hid
      · exact hid ▸ hle
      · exact hle
  came id' hw := by
    obtain rfl : id = id' := hw
    simp only [goto_phase, if_true]
    split_ifs with hp
    · exact nofun
    · exact hp

lemma left_nextWait (own id : ApicId) (j i : ℕ) (rest : List ApicId) :
    (nextWait id j i rest).left own = rest.filter (· ≠ own) := by
  unfold nextWait
  split_ifs <;> rfl

lemma waitsFor_of_nextWait {id' : ApicId} {j i : ℕ} {rest : List ApicId}
    (h : (nextWait id j i rest).waitsFor id') : id = id' := by
  unfold nextWait at h
  split_ifs at h
  · exact h
  · exact h.1
  · exact h.elim

lemma Booked.boot (h : Booked own ids s) (ht : bootStep own s = some t) : Booked own ids t := by
  cases hb : s.boot with
  | scanning rest =>
    cases rest with
    | nil => simp [bootStep, hb] at ht
    | cons id rest =>
      obtain rfl : _ = t := by simpa [bootStep, hb] using ht
      refine h.bootMove ?_ fun id' hw => ?_
      · rw [hb]
        split_ifs with hid <;> simp [Boot.left, hid]
      · split_ifs at hw <;> exact hw.elim
  | sendInit id rest =>
    obtain rfl : _ = t := by simpa [bootStep, hb] using ht
    exact h.sendInit hb
  | clearFlag id rest =>
    obtain rfl : _ = t := by simpa [bootStep, hb] using ht
    exact h.bootMove (by rw [hb]; rfl) fun id' hw => absurd hw.2 (Nat.lt_irrefl 0)
  | sendStartup id j rest =>
    obtain rfl : _ = t := by simpa [bootStep, hb] using ht
    exact h.sendStartup hb
  | seize id j i rest =>
    obtain ⟨hl, rfl⟩ : s.initLock = none ∧ _ = t := by simpa [bootStep, hb] using ht
    exact h.bootMove (by rw [hb]; rfl) fun id' hw => by rwa [hb]
  | check id j i rest =>
    obtain rfl : _ = t := by simpa [bootStep, hb] using ht
    refine h.bootMove ?_ fun id' hw => ?_
    · rw [hb]
      split_ifs
      · rfl
      · exact left_nextWait own id j i rest
    · rw [hb]
      split_ifs at hw
      · exact hw.elim
      · exact waitsFor_of_nextWait hw

lemma Booked.processor (h : Booked own ids s) (ht : processorStep s id = some t) :
    Booked own ids t := by
  cases hp : s.phase id with
  | waiting | halted => simp [processorStep, hp] at ht
  | seizing =>
    obtain ⟨hl, rfl⟩ : s.initLock = none ∧ _ = t := by simpa [processorStep, hp] using ht
    exact h.move (by simp) fun id' => by split_ifs with hid <;> simp [hid, hp, Phase.coming]
  | entering =>
    obtain rfl : _ = t := by simpa [processorStep, hp] using ht
    refine h.move (by simp) fun id' => ?_
    rw [List.count_append]
    split_ifs with hid
    · simp [hid, hp, Phase.coming]
    · simp [List.count_eq_zero_of_not_mem (List.mem_singleton.not.mpr hid)]
  | starting | flagging | releasing =>
    obtain rfl : _ = t := by simpa [processorStep, hp] using ht
    exact h.move (by simp) fun id' => by split_ifs with hid <;> simp [hid, hp, Phase.coming]

lemma Booked.reachable (h : (startup own ids).Reachable s) : Booked own ids s := by
  refine h.invariant (fun _ => .start) fun s a t _ hs ht => ?_
  cases a with
  | boot => exact hs.boot ht
  | processor id => exact hs.processor ht

/-- No run makes more calls of `InitNewCpu` than there are entries of other processors. -/
theorem cpus_length_le (h : (startup own ids).Reachable s) :
    s.cpus.length ≤ (ids.filter (· ≠ own)).length := by
  refine (List.subperm_ext_iff.mpr fun id _ => ?_).length_le
  have hle := (Booked.reachable h).count_le id
  omega

/-- `BootstrapCpu` of a processor that comes up before the first wait is over. -/
def bringUp (id : ApicId) : List Action :=
  List.replicate 4 .boot ++ List.replicate 5 (.processor id) ++ [.boot, .boot]

lemma bringUp_run {rest : List ApicId} (hb : s.boot = .scanning (id :: rest))
    (hl : s.initLock = none) (hid : id ≠ own) : ∃ t, (bringUp id).foldlM (step own) s = some t ∧
      t.boot = .scanning rest ∧ t.initLock = none ∧ t.cpus = s.cpus ++ [id] := by
  simp [bringUp, List.replicate, step, bootStep, processorStep, hb, hl, hid, State.goto]

lemma all_come_up {rest : List ApicId} (h : (startup own ids).Reachable s)
    (hb : s.boot = .scanning rest) (hl : s.initLock = none) : ∃ t,
      (startup own ids).Reachable t ∧ t.cpus = s.cpus ++ rest.filter (· ≠ own) := by
  induction rest generalizing s with
  | nil => exact ⟨s, h, by simp⟩
  | cons id rest ih =>
    by_cases hid : id = own
    · have hskip : step own s .boot = some { s with boot := .scanning rest } := by
        simp [step, bootStep, hb, hid]
      obtain ⟨t, ht, hcpus⟩ := ih (h.next (a := .boot) hskip) rfl hl
      exact ⟨t, ht, by rw [hcpus]; simp [hid]⟩
    · obtain ⟨u, hrun, hub, hul, hucpus⟩ := bringUp_run hb hl hid
      obtain ⟨t, ht, hcpus⟩ := ih (h.run (fun _ _ _ ht => ht) hrun) hub hul
      exact ⟨t, ht, by rw [hcpus, hucpus]; simp [hid]⟩

/-- No call of `InitNewCpu` fails in any run if and only if the capacity is one more than the
number of entries of other processors. -/
theorem initNewCpus_ok_iff {capacity : ℕ} :
    (∀ s, (startup own ids).Reachable s → ∃ count,
      initNewCpus capacity (s.cpus.length + 1) = .ok count) ↔
    (ids.filter (· ≠ own)).length + 1 ≤ capacity := by
  simp only [initNewCpus_iff, exists_eq_left]
  constructor
  · intro h
    have hstart := System.Reachable.start (S := startup own ids) ⟨bootState_start own ids, rfl⟩
    obtain ⟨t, ht, hcpus⟩ := all_come_up hstart rfl rfl
    have hle := h t ht
    rw [hcpus] at hle
    exact hle
  · exact fun h s hs => (Nat.add_le_add_right (cpus_length_le hs) 1).trans h

end

section
open ApicTable
variable {mem : ByteMemory} {baseAddr : Word} {entries : List Iterator} {own : ApicId}

/-- `StartCpus` addresses only processors that `CountLapics(true)` counted, and no call of
`InitNewCpu` on a domain of that capacity fails in any run of it. -/
def CapacityAgrees (mem : ByteMemory) (baseAddr : Word) (own : ApicId) : Prop :=
  ∃ capacity calls, Counts mem baseAddr true capacity ∧ Starts mem baseAddr calls ∧
    (∀ call ∈ calls, call.2 ≠ own → usable mem call.1 = true) ∧
    ∀ s, (startup own (calls.map Prod.snd)).Reachable s → ∃ count,
      initNewCpus capacity (s.cpus.length + 1) = .ok count

def ofOther (mem : ByteMemory) (own : ApicId) (it : Iterator) : Bool :=
  (processorId mem it).any (· ≠ own)

lemma ofOther_iff {it : Iterator} :
    ofOther mem own it = true ↔ ∃ id, processorId mem it = some id ∧ id ≠ own := by
  simp [ofOther, Option.any_eq_true]

lemma length_others (entries : List Iterator) :
    (((bootstrapCalls mem entries).map Prod.snd).filter (· ≠ own)).length =
      entries.countP (ofOther mem own) := by
  induction entries with
  | nil => rfl
  | cons entry entries ih =>
    simp only [bootstrapCalls, List.filterMap_cons, List.countP_cons] at ih ⊢
    cases hid : processorId mem entry with
    | none => simpa [ofOther, hid] using ih
    | some id => by_cases hown : id = own <;> simpa [ofOther, hid, hown] using ih

lemma usable_processor {it : Iterator} (h : usable mem it = true) :
    ∃ id, processorId mem it = some id := by
  unfold usable at h
  unfold processorId
  split_ifs at h ⊢ <;> exact ⟨_, rfl⟩

/-- Where all other processors are usable, the capacity leaves room for the boot processor
exactly if it is listed as usable. -/
lemma others_lt_usable (h : ∀ it ∈ entries, ofOther mem own it = true → usable mem it = true) :
    entries.countP (ofOther mem own) + 1 ≤ entries.countP (usable mem) ↔
      ∃ it ∈ entries, processorId mem it = some own ∧ usable mem it = true := by
  have hsplit := List.countP_eq_countP_filter_add entries (usable mem) (ofOther mem own)
  have hothers : (entries.filter (ofOther mem own)).countP (usable mem) =
      entries.countP (ofOther mem own) := by
    rw [List.countP_eq_length_filter (p := ofOther mem own), List.countP_eq_length]
    intro it hit
    obtain ⟨hmem, hother⟩ := List.mem_filter.mp hit
    exact h it hmem hother
  rw [hsplit, hothers, Nat.add_le_add_iff_left, Nat.one_le_iff_ne_zero, ← Nat.pos_iff_ne_zero,
    List.countP_pos_iff]
  constructor
  · rintro ⟨it, hit, husable⟩
    obtain ⟨hmem, hnot⟩ := List.mem_filter.mp hit
    obtain ⟨id, hid⟩ := usable_processor husable
    refine ⟨it, hmem, ?_, husable⟩
    simpa [ofOther, hid] using hnot
  · rintro ⟨it, hmem, hid, husable⟩
    exact ⟨it, List.mem_filter.mpr ⟨hmem, by simp [ofOther, hid]⟩, husable⟩

/-- Capacity and start-up agree exactly on the tables that list every other processor, and at
least once the boot processor, as usable. -/
theorem capacity_agrees_iff (h : IsTable mem baseAddr entries) :
    CapacityAgrees mem baseAddr own ↔
      (∀ it ∈ entries, ∀ id, processorId mem it = some id → id ≠ own → usable mem it = true) ∧
      ∃ it ∈ entries, processorId mem it = some own ∧ usable mem it = true := by
  have hcalls : (∀ call ∈ bootstrapCalls mem entries, call.2 ≠ own → usable mem call.1 = true) ↔
      ∀ it ∈ entries, ∀ id, processorId mem it = some id → id ≠ own → usable mem it = true := by
    constructor
    · intro hall it hit id hid
      exact hall (it, id) (List.mem_filterMap.mpr ⟨it, hit, by rw [hid]; rfl⟩)
    · rintro hall call hcall
      obtain ⟨it, hit, hmap⟩ := List.mem_filterMap.mp hcall
      obtain ⟨id, hid, rfl⟩ := Option.map_eq_some_iff.mp hmap
      exact hall it hit id hid
  have hagrees : CapacityAgrees mem baseAddr own ↔
      (∀ call ∈ bootstrapCalls mem entries, call.2 ≠ own → usable mem call.1 = true) ∧
      entries.countP (ofOther mem own) + 1 ≤ entries.countP (usable mem) := by
    simp only [CapacityAgrees, counts_iff h, starts_iff h, initNewCpus_ok_iff]
    rw [← length_others]
    constructor
    · rintro ⟨_, _, rfl, rfl, hagrees⟩
      exact hagrees
    · exact fun hagrees => ⟨_, _, rfl, rfl, hagrees⟩
  rw [hagrees, hcalls]
  refine and_congr_right fun hall => others_lt_usable fun it hit hother => ?_
  obtain ⟨id, hid, hne⟩ := ofOther_iff.mp hother
  exact hall it hit id hid hne

end

section
open ApicTable

def lapicEntry (cpuId apicId : BitVec 8) (flags : ℕ) : List (BitVec 8) :=
  [0, 8, cpuId, apicId] ++ ByteMemory.bytes 4 flags

/-- A table at 0x1000 with the boot processor 0 and a processor 1 with these flags. -/
def twoProcessors (flags : ℕ) : ByteMemory := .ofBytes 0x1000 (List.replicate 4 0 ++
  ByteMemory.bytes 4 60 ++ List.replicate 36 0 ++ lapicEntry 0 0 1 ++ lapicEntry 1 1 flags)

def twoEntries : List Iterator := [⟨0x102c, 16⟩, ⟨0x1034, 8⟩]

lemma twoProcessors_usable : IsTable (twoProcessors 1) 0x1000 twoEntries :=
  ⟨by decide, by decide, by decide, by decide, by decide, by decide, rfl⟩

lemma twoProcessors_disabled : IsTable (twoProcessors 0) 0x1000 twoEntries :=
  ⟨by decide, by decide, by decide, by decide, by decide, by decide, rfl⟩

theorem capacity_agrees_iff_two : CapacityAgrees (twoProcessors 1) 0x1000 0 := by
  have husable : ∀ it ∈ twoEntries, usable (twoProcessors 1) it = true := by decide
  exact (capacity_agrees_iff twoProcessors_usable).mpr
    ⟨fun it hit _ _ _ => husable it hit, by decide⟩

/-- Processor 1 is listed as disabled, and `StartCpus` addresses it all the same. -/
theorem disabled_processor_started : IsTable (twoProcessors 0) 0x1000 twoEntries ∧
    Counts (twoProcessors 0) 0x1000 true 1 ∧
    Starts (twoProcessors 0) 0x1000 [(⟨0x102c, 16⟩, 0), (⟨0x1034, 8⟩, 1)] ∧
    ¬CapacityAgrees (twoProcessors 0) 0x1000 0 := by
  have hstarts : Starts (twoProcessors 0) 0x1000 [(⟨0x102c, 16⟩, 0), (⟨0x1034, 8⟩, 1)] :=
    (starts_iff twoProcessors_disabled).mpr (by decide)
  refine ⟨twoProcessors_disabled, (counts_iff twoProcessors_disabled).mpr (by decide), hstarts, ?_⟩
  rintro ⟨capacity, calls, -, hcalls, haddressed, -⟩
  rw [starts_iff twoProcessors_disabled] at hcalls hstarts
  rw [hcalls, ← hstarts] at haddressed
  exact absurd (haddressed (⟨0x1034, 8⟩, 1) (by decide) (by decide)) (by decide)

end

end Anarch.DomainList
