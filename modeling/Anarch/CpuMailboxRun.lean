import Anarch.CpuMailbox
import Mathlib.Data.List.Nodup

/-! The mailbox loses no last message and runs none twice: the invariant that ties the fields,
the lock, the pending interrupt and the places of the senders and the handler together. -/
namespace Anarch.Cpu
open TransitionRun

section
variable {ι Func Arg : Type}

/-- The sender holds the lock. -/
def Sender.holds : Sender Func Arg → Bool
  | .running .storeFunction _ _ | .running .storeArg _ _ | .running .release _ _ => true
  | _ => false

/-- The call whose function is not stored yet. -/
def Sender.unsent : Sender Func Arg → Option ℕ
  | .running .seize id _ | .running .storeFunction id _ => some id
  | _ => none

/-- The handler holds the lock. -/
def Handler.holds : Handler Func Arg → Bool
  | .loadFunction | .loadArg _ | .clearFunction _ _ | .release _ _ => true
  | _ => false

/-- What the handler has taken out of the fields and not called yet. -/
def Handler.taken : Handler Func Arg → Option (Field (Option Func) × Field Arg)
  | .release func arg | .call func arg => some (func, arg)
  | _ => none

/-- What the handler has loaded and not cleared yet is what the fields hold, and what it has
cleared is still clear when it releases the lock. -/
def Handler.Reads (f : Field (Option Func)) (a : Field Arg) : Handler Func Arg → Prop
  | .loadArg func => func = f
  | .clearFunction func arg => func = f ∧ arg = a
  | .release _ _ => f.writer = none
  | _ => True

/-- The calls of `RunAsync` whose function was taken, and called or about to be. -/
def State.received (s : State ι Func Arg) : List ℕ :=
  (s.handler.taken.bind (·.1.writer)).toList ++ s.called.filterMap (·.1.writer)

/-- And the one whose function is in the field. -/
def State.used (s : State ι Func Arg) : List ℕ := s.wakeupFunction.writer.toList ++ s.received

structure Inv (s : State ι Func Arg) : Prop where
  message : ∀ i n id m, s.senders i = .running n id m → s.sent[id]? = some m
  distinct : ∀ i j n n' id m m', s.senders i = .running n id m →
    s.senders j = .running n' id m' → i = j
  lockSender : ∀ i, s.lock = some (.sender i) ↔ (s.senders i).holds = true
  lockHandler : s.lock = some .handler ↔ s.handler.holds = true
  stored : ∀ id, s.wakeupFunction.writer = some id → ∃ m, s.sent[id]? = some m ∧
    s.wakeupFunction.value = m.func ∧
    (s.wakeupArg = ⟨m.arg, some id⟩ ∨ ∃ i, s.senders i = .running .storeArg id m)
  storing : ∀ i id m, s.senders i = .running .storeArg id m → s.wakeupFunction.writer = some id
  reads : s.handler.Reads s.wakeupFunction s.wakeupArg
  taken : ∀ func arg id, s.handler.taken = some (func, arg) → func.writer = some id →
    ∃ m, s.sent[id]? = some m ∧ func.value = m.func ∧ arg = ⟨m.arg, some id⟩
  takenNull : ∀ func arg, s.handler.taken = some (func, arg) → func.writer = none →
    func.value = none
  fresh : ∀ i id, (s.senders i).unsent = some id → id ∉ s.used
  usedOnce : s.used.Nodup
  usedSent : ∀ id ∈ s.used, id < s.sent.length
  /-- What the fields hold before the first store is never loaded. -/
  untouched : s.wakeupFunction.writer = none → s.wakeupFunction.value ≠ none →
    s.pending = false ∧ s.handler = .idle ∧ ∀ i, (s.senders i).stored = false
  together : Together s
  notStranded : NotStranded s

variable {s t : State ι Func Arg} {i : ι} {id : ℕ} {m : Message Func Arg}

lemma getElem?_sent {m' : Message Func Arg} (h : s.sent[id]? = some m')
    (m : Message Func Arg) : (s.sent ++ [m])[id]? = some m' :=
  List.getElem?_append_left (List.getElem?_eq_some_iff.mp h).1 ▸ h

lemma unsent_eq_some {x : Sender Func Arg} (h : x.unsent = some id) :
    ∃ n m, x = .running n id m ∧ (n = .seize ∨ n = .storeFunction) := by
  unfold Sender.unsent at h
  split at h <;> cases h
  · exact ⟨_, _, rfl, .inl rfl⟩
  · exact ⟨_, _, rfl, .inr rfl⟩

/-- The sender is in this call of `RunAsync`, if in any. -/
def Sender.In (id : ℕ) (m : Message Func Arg) (x : Sender Func Arg) : Prop :=
  ∀ n id' m', x = .running n id' m' → id' = id ∧ m' = m

lemma in_running (n : SendStep) : Sender.In id m (.running n id m) := by
  rintro _ _ _ ⟨⟩
  exact ⟨rfl, rfl⟩

lemma in_idle : Sender.In id m .idle := by rintro _ _ _ ⟨⟩

lemma reads_of_not_holds {x : Handler Func Arg} (hx : x.holds = false)
    {f : Field (Option Func)} {a : Field Arg} : x.Reads f a := by
  cases x with
  | loadArg | clearFunction | release => cases hx
  | _ => trivial

lemma Inv.excludes (h : Inv s) (hi : (s.senders i).holds = true) : s.handler.holds = false := by
  rw [← Bool.not_eq_true, ← h.lockHandler, (h.lockSender i).mpr hi]
  simp

lemma Inv.holds_unique (h : Inv s) {j : ι} (hj : (s.senders j).holds = true)
    (hi : (s.senders i).holds = true) : j = i := by
  have hlock := (h.lockSender j).mpr hj
  rw [(h.lockSender i).mpr hi] at hlock
  cases hlock
  rfl

section
variable [DecidableEq ι]

lemma goto_senders (s : State ι Func Arg) (i j : ι) (x : Sender Func Arg) :
    (s.goto i x).senders j = if j = i then x else s.senders j := Function.update_apply ..

lemma exists_stored_goto {x : Sender Func Arg}
    (hx : (s.senders i).stored = true → x.stored = true)
    (h : ∃ j, (s.senders j).stored = true) : ∃ j, ((s.goto i x).senders j).stored = true := by
  obtain ⟨j, hj⟩ := h
  refine ⟨j, ?_⟩
  rw [goto_senders]
  split_ifs with hji
  · exact hx (hji ▸ hj)
  · exact hj

lemma Inv.message_goto (h : Inv s) {n : SendStep} (hi : s.senders i = .running n id m)
    {x : Sender Func Arg} (hx : x.In id m) (j : ι) (n' : SendStep) (id' : ℕ)
    (m' : Message Func Arg) (hj : (s.goto i x).senders j = .running n' id' m') :
    s.sent[id']? = some m' := by
  rw [goto_senders] at hj
  split_ifs at hj
  · obtain ⟨rfl, rfl⟩ := hx n' id' m' hj
    exact h.message i n id' m' hi
  · exact h.message j n' id' m' hj

lemma Inv.distinct_goto (h : Inv s) {n : SendStep} (hi : s.senders i = .running n id m)
    {x : Sender Func Arg} (hx : x.In id m) (j j' : ι) (n' n'' : SendStep) (id' : ℕ)
    (m' m'' : Message Func Arg) (hj : (s.goto i x).senders j = .running n' id' m')
    (hj' : (s.goto i x).senders j' = .running n'' id' m'') : j = j' := by
  have hback : ∀ j n' m', (s.goto i x).senders j = .running n' id' m' →
      ∃ n'' m'', s.senders j = .running n'' id' m'' := by
    intro j n' m' hj
    rw [goto_senders] at hj
    split_ifs at hj with hji
    · obtain ⟨rfl, rfl⟩ := hx n' id' m' hj
      exact ⟨n, m', hji ▸ hi⟩
    · exact ⟨n', m', hj⟩
  obtain ⟨_, _, hs⟩ := hback j n' m' hj
  obtain ⟨_, _, hs'⟩ := hback j' n'' m'' hj'
  exact h.distinct _ _ _ _ _ _ _ hs hs'

lemma Inv.stored_goto (h : Inv s) {n : SendStep} (hi : s.senders i = .running n id m)
    (hn : n ≠ .storeArg) {x : Sender Func Arg} (id' : ℕ)
    (hid : s.wakeupFunction.writer = some id') : ∃ m', s.sent[id']? = some m' ∧
      s.wakeupFunction.value = m'.func ∧ (s.wakeupArg = ⟨m'.arg, some id'⟩ ∨
        ∃ j, (s.goto i x).senders j = .running .storeArg id' m') := by
  obtain ⟨m', hm, hf, ha⟩ := h.stored id' hid
  refine ⟨m', hm, hf, ha.imp_right ?_⟩
  rintro ⟨j, hj⟩
  refine ⟨j, ?_⟩
  rw [goto_senders, if_neg, hj]
  rintro rfl
  rw [hi] at hj
  cases hj
  exact hn rfl

lemma Inv.storing_goto (h : Inv s) {x : Sender Func Arg}
    (hx : ∀ id m, x ≠ .running .storeArg id m) (j : ι) (id' : ℕ) (m' : Message Func Arg)
    (hj : (s.goto i x).senders j = .running .storeArg id' m') :
    s.wakeupFunction.writer = some id' := by
  rw [goto_senders] at hj
  split_ifs at hj
  · exact absurd hj (hx id' m')
  · exact h.storing j id' m' hj

lemma Inv.runAsync (h : Inv s) (hi : s.senders i = .idle) (m : Message Func Arg) :
    Inv { s.goto i (.running .seize s.sent.length m) with sent := s.sent ++ [m] } where
  message j n id m' hj := by
    rw [goto_senders] at hj
    split_ifs at hj
    · cases hj
      simp
    · exact getElem?_sent (h.message _ _ _ _ hj) m
  distinct j j' n n' id m' m'' hj hj' := by
    have hlt : ∀ j n id m', s.senders j = .running n id m' → id < s.sent.length :=
      fun j n id m' hj => (List.getElem?_eq_some_iff.mp (h.message j n id m' hj)).1
    grind [goto_senders, h.distinct]
  lockSender j := by
    rw [goto_senders]
    grind [State.goto, Sender.holds, h.lockSender j]
  lockHandler := h.lockHandler
  stored id hid := by
    obtain ⟨m', hm, hf, ha⟩ := h.stored id hid
    refine ⟨m', getElem?_sent hm m, hf, ha.imp_right ?_⟩
    rintro ⟨j, hj⟩
    exact ⟨j, by grind [goto_senders]⟩
  storing := h.storing_goto fun _ _ => by simp
  reads := h.reads
  taken func arg id ht hid := by
    obtain ⟨m', hm, hf, ha⟩ := h.taken func arg id ht hid
    exact ⟨m', getElem?_sent hm m, hf, ha⟩
  takenNull := h.takenNull
  fresh j id hj hu := by
    rw [goto_senders] at hj
    split_ifs at hj
    · cases hj
      exact lt_irrefl _ (h.usedSent _ hu)
    · exact h.fresh j id hj hu
  usedOnce := h.usedOnce
  usedSent id hu := (h.usedSent id hu).trans_le (by simp)
  untouched := by grind [goto_senders, State.goto, Sender.stored, h.untouched]
  together c hc := by
    obtain ⟨id, hf, ha, hm⟩ := h.together c hc
    exact ⟨id, hf, ha, getElem?_sent hm m⟩
  notStranded hu := (h.notStranded hu).imp_right
    (.imp_right (exists_stored_goto fun hs => by simp [hi, Sender.stored] at hs))

lemma Inv.seize (h : Inv s) (hi : s.senders i = .running .seize id m) (hl : s.lock = none) :
    Inv { s.goto i (.running .storeFunction id m) with lock := some (.sender i) } where
  message := h.message_goto hi (in_running _)
  distinct := h.distinct_goto hi (in_running _)
  lockSender j := by
    rw [goto_senders]
    grind [Sender.holds, h.lockSender j]
  lockHandler := by grind [State.goto, h.lockHandler]
  stored := h.stored_goto hi (by decide)
  storing := h.storing_goto fun _ _ => by simp
  reads := h.reads
  taken := h.taken
  takenNull := h.takenNull
  fresh j id' hj hu := by
    rw [goto_senders] at hj
    split_ifs at hj with hji
    · cases hj
      exact h.fresh i id (hi ▸ rfl) hu
    · exact h.fresh j id' hj hu
  usedOnce := h.usedOnce
  usedSent := h.usedSent
  untouched := by grind [goto_senders, State.goto, Sender.stored, h.untouched]
  together := h.together
  notStranded hu := (h.notStranded ⟨hu.1, by simp [hl]⟩).imp_right
    (.imp_right (exists_stored_goto fun hs => by simp [hi, Sender.stored] at hs))

lemma Inv.storeFunction (h : Inv s) (hi : s.senders i = .running .storeFunction id m) :
    Inv { s.goto i (.running .storeArg id m) with wakeupFunction := ⟨m.func, some id⟩ } where
  message := h.message_goto hi (in_running _)
  distinct := h.distinct_goto hi (in_running _)
  lockSender j := by
    rw [goto_senders]
    grind [State.goto, Sender.holds, h.lockSender j]
  lockHandler := h.lockHandler
  stored id' hid := by
    obtain rfl : id = id' := Option.some.inj hid
    exact ⟨m, h.message _ _ _ _ hi, rfl, .inr ⟨i, by simp [goto_senders]⟩⟩
  storing j id' m' hj := by
    rw [goto_senders] at hj
    split_ifs at hj with hji
    · cases hj
      rfl
    · exact absurd (h.holds_unique (hj ▸ rfl) (hi ▸ rfl)) hji
  reads := reads_of_not_holds (h.excludes (i := i) (hi ▸ rfl))
  taken := h.taken
  takenNull := h.takenNull
  fresh j id' hj hu := by
    rw [goto_senders] at hj
    split_ifs at hj with hji
    · cases hj
    · obtain ⟨n', m', hj', -⟩ := unsent_eq_some hj
      rcases List.mem_cons.mp hu with rfl | hu
      · exact hji (h.distinct _ _ _ _ _ _ _ hj' hi)
      · exact h.fresh j id' hj (List.mem_append_right _ hu)
  usedOnce := by
    have hid : id ∉ s.used := h.fresh i id (hi ▸ rfl)
    exact List.nodup_cons.mpr ⟨fun hu => hid (List.mem_append_right _ hu),
      h.usedOnce.sublist (List.sublist_append_right _ _)⟩
  usedSent id' hu := by
    rcases List.mem_cons.mp hu with rfl | hu
    · exact (List.getElem?_eq_some_iff.mp (h.message i _ _ _ hi)).1
    · exact h.usedSent id' (List.mem_append_right _ hu)
  untouched hw := by cases hw
  together := h.together
  notStranded _ := .inr (.inr ⟨i, by simp [goto_senders, Sender.stored]⟩)

lemma Inv.storeArg (h : Inv s) (hi : s.senders i = .running .storeArg id m) :
    Inv { s.goto i (.running .release id m) with wakeupArg := ⟨m.arg, some id⟩ } where
  message := h.message_goto hi (in_running _)
  distinct := h.distinct_goto hi (in_running _)
  lockSender j := by
    rw [goto_senders]
    grind [State.goto, Sender.holds, h.lockSender j]
  lockHandler := h.lockHandler
  stored id' hid := by
    have hw := h.storing i id m hi
    obtain rfl : id = id' := Option.some.inj (hw.symm.trans hid)
    obtain ⟨m', hm, hf, -⟩ := h.stored id hw
    obtain rfl : m = m' := Option.some.inj ((h.message i _ _ _ hi).symm.trans hm)
    exact ⟨m, hm, hf, .inl rfl⟩
  storing := h.storing_goto fun _ _ => by simp
  reads := reads_of_not_holds (h.excludes (i := i) (hi ▸ rfl))
  taken := h.taken
  takenNull := h.takenNull
  fresh j id hj hu := by
    rw [goto_senders] at hj
    split_ifs at hj with hji
    · cases hj
    · exact h.fresh j id hj hu
  usedOnce := h.usedOnce
  usedSent := h.usedSent
  untouched := by grind [goto_senders, State.goto, Sender.stored, h.untouched]
  together := h.together
  notStranded _ := .inr (.inr ⟨i, by simp [goto_senders, Sender.stored]⟩)

lemma Inv.release (h : Inv s) (hi : s.senders i = .running .release id m) :
    Inv { s.goto i (.running .sendIpi id m) with lock := none } where
  message := h.message_goto hi (in_running _)
  distinct := h.distinct_goto hi (in_running _)
  lockSender j := by
    rw [goto_senders]
    grind [Sender.holds, h.lockSender i, h.lockSender j]
  lockHandler := by grind [State.goto, Sender.holds, h.lockSender i, h.lockHandler]
  stored := h.stored_goto hi (by decide)
  storing := h.storing_goto fun _ _ => by simp
  reads := h.reads
  taken := h.taken
  takenNull := h.takenNull
  fresh j id hj hu := by
    rw [goto_senders] at hj
    split_ifs at hj with hji
    · cases hj
    · exact h.fresh j id hj hu
  usedOnce := h.usedOnce
  usedSent := h.usedSent
  untouched := by grind [goto_senders, State.goto, Sender.stored, h.untouched]
  together := h.together
  notStranded _ := .inr (.inr ⟨i, by simp [goto_senders, Sender.stored]⟩)

lemma Inv.sendIpi (h : Inv s) (hi : s.senders i = .running .sendIpi id m) :
    Inv { s.goto i .idle with pending := true } where
  message := h.message_goto hi (in_idle)
  distinct := h.distinct_goto hi (in_idle)
  lockSender j := by
    rw [goto_senders]
    grind [State.goto, Sender.holds, h.lockSender j]
  lockHandler := h.lockHandler
  stored := h.stored_goto hi (by decide)
  storing := h.storing_goto fun _ _ => by simp
  reads := h.reads
  taken := h.taken
  takenNull := h.takenNull
  fresh j id hj hu := by
    rw [goto_senders] at hj
    split_ifs at hj with hji
    · cases hj
    · exact h.fresh j id hj hu
  usedOnce := h.usedOnce
  usedSent := h.usedSent
  untouched hw hv := by
    have hi' := (h.untouched hw hv).2.2 i
    simp [hi, Sender.stored] at hi'
  together := h.together
  notStranded _ := .inl rfl

end

lemma Inv.deliver (h : Inv s) (hh : s.handler = .idle) (hp : s.pending = true) :
    Inv { s with pending := false, handler := .sendEoi } where
  message := h.message
  distinct := h.distinct
  lockSender := h.lockSender
  lockHandler := h.lockHandler.trans (by simp [hh, Handler.holds])
  stored := h.stored
  storing := h.storing
  reads := trivial
  taken _ _ _ ht := by cases ht
  takenNull _ _ ht := by cases ht
  fresh := by simpa [State.used, State.received, hh, Handler.taken] using h.fresh
  usedOnce := by simpa [State.used, State.received, hh, Handler.taken] using h.usedOnce
  usedSent := by simpa [State.used, State.received, hh, Handler.taken] using h.usedSent
  untouched hw hv := by simp [(h.untouched hw hv).1] at hp
  together := h.together
  notStranded _ := .inr (.inl rfl)

lemma Inv.eoi (h : Inv s) (hh : s.handler = .sendEoi) : Inv { s with handler := .seize } where
  message := h.message
  distinct := h.distinct
  lockSender := h.lockSender
  lockHandler := h.lockHandler.trans (by simp [hh, Handler.holds])
  stored := h.stored
  storing := h.storing
  reads := trivial
  taken _ _ _ ht := by cases ht
  takenNull _ _ ht := by cases ht
  fresh := by simpa [State.used, State.received, hh, Handler.taken] using h.fresh
  usedOnce := by simpa [State.used, State.received, hh, Handler.taken] using h.usedOnce
  usedSent := by simpa [State.used, State.received, hh, Handler.taken] using h.usedSent
  untouched hw hv := by simp [(h.untouched hw hv).2.1] at hh
  together := h.together
  notStranded _ := .inr (.inl rfl)

lemma Inv.handlerSeize (h : Inv s) (hh : s.handler = .seize) (hl : s.lock = none) :
    Inv { s with lock := some .handler, handler := .loadFunction } where
  message := h.message
  distinct := h.distinct
  lockSender j := by simp [← h.lockSender j, hl]
  lockHandler := by simp [Handler.holds]
  stored := h.stored
  storing := h.storing
  reads := trivial
  taken _ _ _ ht := by cases ht
  takenNull _ _ ht := by cases ht
  fresh := by simpa [State.used, State.received, hh, Handler.taken] using h.fresh
  usedOnce := by simpa [State.used, State.received, hh, Handler.taken] using h.usedOnce
  usedSent := by simpa [State.used, State.received, hh, Handler.taken] using h.usedSent
  untouched hw hv := by simp [(h.untouched hw hv).2.1] at hh
  together := h.together
  notStranded hu := absurd rfl hu.2

lemma Inv.load (h : Inv s) {x : Handler Func Arg} (hx : x.holds = s.handler.holds)
    (hholds : x.holds = true) (htaken : x.taken = none) (htaken' : s.handler.taken = none)
    (hreads : x.Reads s.wakeupFunction s.wakeupArg) : Inv { s with handler := x } where
  message := h.message
  distinct := h.distinct
  lockSender := h.lockSender
  lockHandler := h.lockHandler.trans (by rw [hx])
  stored := h.stored
  storing := h.storing
  reads := hreads
  taken _ _ _ ht := by simp [htaken] at ht
  takenNull _ _ ht := by simp [htaken] at ht
  fresh := by simpa [State.used, State.received, htaken, htaken'] using h.fresh
  usedOnce := by simpa [State.used, State.received, htaken, htaken'] using h.usedOnce
  usedSent := by simpa [State.used, State.received, htaken, htaken'] using h.usedSent
  untouched hw hv := by
    rw [hx, (h.untouched hw hv).2.1] at hholds
    cases hholds
  together := h.together
  notStranded hu := absurd (h.lockHandler.mpr (hx ▸ hholds)) hu.2

/-- Clearing the field moves its call to the handler. -/
lemma used_clear {func : Field (Option Func)} {arg : Field Arg}
    (hh : s.handler = .clearFunction func arg) (hreads : func = s.wakeupFunction) :
    ({ s with wakeupFunction := ⟨none, none⟩, handler := .release func arg } :
      State ι Func Arg).used = s.used := by
  simp [State.used, State.received, hh, Handler.taken, hreads]

lemma Inv.reads_clear (h : Inv s) {func : Field (Option Func)} {arg : Field Arg}
    (hh : s.handler = .clearFunction func arg) :
    func = s.wakeupFunction ∧ arg = s.wakeupArg := by simpa [hh, Handler.Reads] using h.reads

lemma Inv.clear (h : Inv s) {func : Field (Option Func)} {arg : Field Arg}
    (hh : s.handler = .clearFunction func arg) :
    Inv { s with wakeupFunction := ⟨none, none⟩, handler := .release func arg } where
  message := h.message
  distinct := h.distinct
  lockSender := h.lockSender
  lockHandler := h.lockHandler.trans (by simp [hh, Handler.holds])
  stored _ hw := by cases hw
  storing j id m hj := by
    have hfree := h.excludes (i := j) (hj ▸ rfl)
    simp [hh, Handler.holds] at hfree
  reads := rfl
  taken func' arg' id ht hid := by
    obtain ⟨rfl, rfl⟩ := Prod.mk.inj (Option.some.inj ht)
    obtain ⟨rfl, rfl⟩ := h.reads_clear hh
    obtain ⟨m, hm, hf, ha⟩ := h.stored id hid
    refine ⟨m, hm, hf, ha.resolve_right ?_⟩
    rintro ⟨j, hj⟩
    have hfree := h.excludes (i := j) (hj ▸ rfl)
    simp [hh, Handler.holds] at hfree
  takenNull func' arg' ht hid := by
    obtain ⟨rfl, rfl⟩ := Prod.mk.inj (Option.some.inj ht)
    obtain ⟨rfl, rfl⟩ := h.reads_clear hh
    by_contra hv
    simpa [hh] using (h.untouched hid hv).2.1
  fresh := by
    rw [used_clear hh (h.reads_clear hh).1]
    exact h.fresh
  usedOnce := by
    rw [used_clear hh (h.reads_clear hh).1]
    exact h.usedOnce
  usedSent := by
    rw [used_clear hh (h.reads_clear hh).1]
    exact h.usedSent
  untouched _ hv := absurd rfl hv
  together := h.together
  notStranded hu := absurd rfl hu.1

lemma Inv.handlerRelease (h : Inv s) {func : Field (Option Func)} {arg : Field Arg}
    (hh : s.handler = .release func arg) :
    Inv { s with lock := none, handler := .call func arg } where
  message := h.message
  distinct := h.distinct
  lockSender j := by
    have hlock := h.lockHandler.mpr (hh ▸ rfl)
    have hj := h.lockSender j
    rw [hlock] at hj
    simpa using hj
  lockHandler := by simp [Handler.holds]
  stored := h.stored
  storing := h.storing
  reads := trivial
  taken := by simpa [hh, Handler.taken] using h.taken
  takenNull := by simpa [hh, Handler.taken] using h.takenNull
  fresh := by simpa [State.used, State.received, hh, Handler.taken] using h.fresh
  usedOnce := by simpa [State.used, State.received, hh, Handler.taken] using h.usedOnce
  usedSent := by simpa [State.used, State.received, hh, Handler.taken] using h.usedSent
  untouched hw hv := by simp [(h.untouched hw hv).2.1] at hh
  together := h.together
  notStranded hu := by
    have hclear : s.wakeupFunction.writer = none := by simpa [hh, Handler.Reads] using h.reads
    exact absurd hclear hu.1

lemma used_skip {func : Field (Option Func)} {arg : Field Arg} (hh : s.handler = .call func arg) :
    ({ s with handler := .idle } : State ι Func Arg).used.Sublist s.used := by
  simp [State.used, State.received, hh, Handler.taken]

lemma used_call {func : Field (Option Func)} {arg : Field Arg} (hh : s.handler = .call func arg)
    (f : Func) : ({ s with handler := .idle, called := (⟨f, func.writer⟩, arg) :: s.called } :
      State ι Func Arg).used = s.used := by
  cases hw : func.writer <;> simp [State.used, State.received, hh, hw, Handler.taken]

lemma Inv.skip (h : Inv s) {func : Field (Option Func)} {arg : Field Arg}
    (hh : s.handler = .call func arg) :
    Inv { s with handler := .idle } where
  message := h.message
  distinct := h.distinct
  lockSender := h.lockSender
  lockHandler := h.lockHandler.trans (by simp [hh, Handler.holds])
  stored := h.stored
  storing := h.storing
  reads := trivial
  taken _ _ _ ht := by cases ht
  takenNull _ _ ht := by cases ht
  fresh j id hj hu := h.fresh j id hj ((used_skip hh).subset hu)
  usedOnce := h.usedOnce.sublist (used_skip hh)
  usedSent id hu := h.usedSent id ((used_skip hh).subset hu)
  untouched hw hv := by simp [(h.untouched hw hv).2.1] at hh
  together := h.together
  notStranded hu := by simpa [hh, Handler.approaching] using h.notStranded hu

lemma Inv.call (h : Inv s) {func : Field (Option Func)} {arg : Field Arg}
    (hh : s.handler = .call func arg) {f : Func} (hf : func.value = some f) :
    Inv { s with handler := .idle, called := (⟨f, func.writer⟩, arg) :: s.called } where
  message := h.message
  distinct := h.distinct
  lockSender := h.lockSender
  lockHandler := h.lockHandler.trans (by simp [hh, Handler.holds])
  stored := h.stored
  storing := h.storing
  reads := trivial
  taken _ _ _ ht := by cases ht
  takenNull _ _ ht := by cases ht
  fresh := by
    rw [used_call hh f]
    exact h.fresh
  usedOnce := by
    rw [used_call hh f]
    exact h.usedOnce
  usedSent := by
    rw [used_call hh f]
    exact h.usedSent
  untouched hw hv := by simp [(h.untouched hw hv).2.1] at hh
  together c hc := by
    rcases List.mem_cons.mp hc with rfl | hc
    · have ht : s.handler.taken = some (func, arg) := by rw [hh]; rfl
      cases hw : func.writer with
      | none =>
        have hnull := h.takenNull func arg ht hw
        simp [hf] at hnull
      | some id =>
        obtain ⟨⟨mf, ma⟩, hm, hv, rfl⟩ := h.taken func arg id ht hw
        obtain rfl : some f = mf := hf.symm.trans hv
        exact ⟨id, rfl, rfl, hm⟩
    · exact h.together c hc
  notStranded hu := by simpa [hh, Handler.approaching] using h.notStranded hu

lemma Inv.start [DecidableEq ι] (h : (system ι Func Arg).start s) : Inv s := by
  obtain ⟨hlock, hfunc, harg, hpending, hsenders, hhandler, hsent, hcalled⟩ := h
  have hused : s.used = [] := by
    simp [State.used, State.received, hfunc, hhandler, hcalled, Handler.taken]
  constructor
  case message | distinct | storing => simp [hsenders]
  case lockSender => simp [hlock, hsenders, Sender.holds]
  case lockHandler => simp [hlock, hhandler, Handler.holds]
  case stored => simp [hfunc]
  case reads => simp [hhandler, Handler.Reads]
  case taken | takenNull => simp [hhandler, Handler.taken]
  case fresh | usedOnce | usedSent => simp [hused]
  case untouched => simp [hpending, hhandler, hsenders, Sender.stored]
  case together => simp [Together, hcalled]
  case notStranded => simp [NotStranded, Untaken, hfunc]

lemma Inv.handle (h : Inv s) (ht : Cpu.handle s = some t) : Inv t := by
  cases hh : s.handler with
  | idle => simp [Cpu.handle, hh] at ht
  | sendEoi =>
    obtain rfl : _ = t := by simpa [Cpu.handle, hh] using ht
    exact h.eoi hh
  | seize =>
    obtain ⟨hl, rfl⟩ : s.lock = none ∧ _ = t := by simpa [Cpu.handle, hh] using ht
    exact h.handlerSeize hh hl
  | loadFunction =>
    obtain rfl : _ = t := by simpa [Cpu.handle, hh] using ht
    exact h.load (by rw [hh]; rfl) rfl rfl (by rw [hh]; rfl) rfl
  | loadArg func =>
    obtain rfl : _ = t := by simpa [Cpu.handle, hh] using ht
    refine h.load (by rw [hh]; rfl) rfl rfl (by rw [hh]; rfl) ⟨?_, rfl⟩
    simpa [hh, Handler.Reads] using h.reads
  | clearFunction func arg =>
    obtain rfl : _ = t := by simpa [Cpu.handle, hh] using ht
    exact h.clear hh
  | release func arg =>
    obtain rfl : _ = t := by simpa [Cpu.handle, hh] using ht
    exact h.handlerRelease hh
  | call func arg =>
    cases hf : func.value with
    | none =>
      obtain rfl : _ = t := by simpa [Cpu.handle, hh, hf] using ht
      exact h.skip hh
    | some f =>
      obtain rfl : _ = t := by simpa [Cpu.handle, hh, hf] using ht
      exact h.call hh hf

section
variable [DecidableEq ι]

lemma Inv.send (h : Inv s) (ht : Cpu.send s i = some t) : Inv t := by
  cases hi : s.senders i with
  | idle => simp [Cpu.send, hi] at ht
  | running n id m =>
    cases n with
    | seize =>
      obtain ⟨hl, rfl⟩ : s.lock = none ∧ _ = t := by simpa [Cpu.send, hi] using ht
      exact h.seize hi hl
    | storeFunction =>
      obtain rfl : _ = t := by simpa [Cpu.send, hi] using ht
      exact h.storeFunction hi
    | storeArg =>
      obtain rfl : _ = t := by simpa [Cpu.send, hi] using ht
      exact h.storeArg hi
    | release =>
      obtain rfl : _ = t := by simpa [Cpu.send, hi] using ht
      exact h.release hi
    | sendIpi =>
      obtain rfl : _ = t := by simpa [Cpu.send, hi] using ht
      exact h.sendIpi hi

lemma Inv.step {a : Action ι Func Arg} (h : Inv s) (ht : Cpu.step s a = some t) : Inv t := by
  cases a with
  | runAsync i m =>
    cases hi : s.senders i with
    | idle =>
      obtain rfl : _ = t := by simpa [Cpu.step, hi] using ht
      exact h.runAsync hi m
    | running => simp [Cpu.step, hi] at ht
  | send i => exact h.send ht
  | deliver =>
    cases hh : s.handler with
    | idle =>
      obtain ⟨hp, rfl⟩ : s.pending = true ∧ _ = t := by simpa [Cpu.step, hh] using ht
      exact h.deliver hh hp
    | _ => simp [Cpu.step, hh] at ht
  | handle => exact h.handle ht

/-- In every reachable state, each function the handler called came with its argument from
one call of `RunAsync`, no call of `RunAsync` was served twice, and a stored pair that is not
taken yet has a handler run on its way. -/
theorem last_message_not_lost (h : (system ι Func Arg).Reachable s) :
    Together s ∧ Once s ∧ NotStranded s := by
  have hs : Inv s := h.invariant (fun _ => .start) fun _ _ _ _ hs ht => hs.step ht
  refine ⟨hs.together, ?_, hs.notStranded⟩
  have hcalled : (s.called.filterMap (·.1.writer)).Nodup :=
    hs.usedOnce.sublist ((List.sublist_append_right _ _).trans (List.sublist_append_right _ _))
  have hsome : ∀ w ∈ s.called.map (·.1.writer), w.isSome = true := by
    intro w hw
    obtain ⟨c, hc, rfl⟩ := List.mem_map.mp hw
    obtain ⟨id, hid, -⟩ := hs.together c hc
    exact hid ▸ rfl
  rw [Once, ← List.filter_eq_self.mpr hsome, ← List.map_filterMap_some_eq_filter_map_isSome]
  exact hcalled.map fun _ _ => Option.some.inj

end

end

/-- Two senders, the second of which overwrites what the first has sent: the handler calls
the second function with the second argument. -/
theorem last_message_not_lost_overwritten : ∃ s, (system Bool ℕ ℕ).Reachable s ∧
    s.called = [(⟨2, some 1⟩, ⟨20, some 1⟩)] ∧ Together s ∧ Once s ∧ NotStranded s := by
  let start : State Bool ℕ ℕ :=
    ⟨none, ⟨none, none⟩, ⟨0, none⟩, false, fun _ => .idle, .idle, [], []⟩
  let actions : List (Action Bool ℕ ℕ) :=
    .runAsync false ⟨some 1, 10⟩ :: List.replicate 5 (.send false) ++
      .runAsync true ⟨some 2, 20⟩ :: List.replicate 5 (.send true) ++
      .deliver :: List.replicate 7 .handle
  have hstart : (system Bool ℕ ℕ).start start := ⟨rfl, rfl, rfl, rfl, fun _ => rfl, rfl, rfl, rfl⟩
  have hrun : (actions.foldlM step start).map State.called =
      some [(⟨2, some 1⟩, ⟨20, some 1⟩)] := by decide
  obtain ⟨s, hs, hcalled⟩ := Option.map_eq_some_iff.mp hrun
  have hreach := (System.Reachable.start hstart).run (fun _ _ _ => id) hs
  exact ⟨s, hreach, hcalled, last_message_not_lost hreach⟩

end Anarch.Cpu
