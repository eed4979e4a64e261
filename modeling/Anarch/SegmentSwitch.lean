import Anarch.InterruptDispatch
import Anarch.TransitionRun

/-! Whose segment is in use: system calls, interrupts, NMIs at any point, and tasks that are
suspended on one CPU and resumed on another, over any number of CPUs. -/
namespace Anarch.SegmentSwitch
open X86 TransitionRun

/-- Where a CPU is: in user code, in kernel code that works with the data of the CPU, or at a
`swapgs` on the way in or out. -/
inductive Phase
  | user
  | kernel
  /-- `AnarchRawSyscallHandler`, before its first `swapgs`. -/
  | syscall
  /-- `AnarchRawSyscallHandler`, after its second `swapgs`. -/
  | sysret
  /-- `State::Resume` of user code, after its `swapgs`. -/
  | resume
  /-- A routine of raw-isr.s, up to where its `SwapScope` has decided. -/
  | isr (v : BitVec 8) (origin : Phase)
  /-- A `SwapScope` that is going to swap. -/
  | swapIn (v : BitVec 8) (origin : Phase)
  /-- A routine of raw-isr.s, after its `SwapScope`. -/
  | iret (origin : Phase)
  deriving DecidableEq, Repr

/-- What kernel code returns to. -/
inductive Return
  | sysret
  | iret (origin : Phase) (didSwap : Bool)
  deriving DecidableEq, Repr

/-- A task that is not running: user code that has not run yet, or suspended kernel code. -/
inductive Task
  | user
  | kernel (returns : List Return)
  deriving DecidableEq, Repr

structure Cpu where
  gsBase : Word
  kernelGsBase : Word
  phase : Phase
  returns : List Return
  deriving DecidableEq, Repr

def Cpu.swapGs (c : Cpu) : Cpu := { c with gsBase := c.kernelGsBase, kernelGsBase := c.gsBase }

/-- The vectors of NMIs and machine checks. -/
def nonMaskable (v : BitVec 8) : Prop := v = 0x2 ∨ v = 0x12

instance (v : BitVec 8) : Decidable (nonMaskable v) := inferInstanceAs (Decidable (_ ∨ _))

/-- The decision of a `SwapScope`: by the code segment of the frame, or by the segment in use. -/
def Cpu.didSwap (c : Cpu) (v : BitVec 8) (origin : Phase) : Bool :=
  if nonMaskable v then c.gsBase = 0 else origin = .user

inductive Act
  | syscall
  | interrupt (v : BitVec 8)
  /-- The code of the kernel goes on, up to the next `swapgs`, decision or return. -/
  | next
  | newUser
  | newKernel
  | suspend
  | resume (k : ℕ)
  /-- `Thread::RunSync`: the code that calls it is not returned to. -/
  | runSync
  deriving DecidableEq, Repr

/-- What goes on by itself. -/
def Cpu.next (c : Cpu) : Option Cpu :=
  match c.phase with
  | .user => none
  | .syscall => some { c.swapGs with phase := .kernel, returns := .sysret :: c.returns }
  | .sysret => some { c with phase := .user }
  | .resume => some { c with phase := .user }
  | .isr v origin =>
      if c.didSwap v origin then some { c with phase := .swapIn v origin }
      else some { c with phase := .kernel, returns := .iret origin false :: c.returns }
  | .swapIn _ origin =>
      some { c.swapGs with phase := .kernel, returns := .iret origin true :: c.returns }
  | .kernel =>
      match c.returns with
      | [] => none
      | .sysret :: returns => some { c.swapGs with phase := .sysret, returns }
      | .iret origin true :: returns => some { c.swapGs with phase := .iret origin, returns }
      | .iret origin false :: returns => some { c with phase := .iret origin, returns }
  | .iret origin => some { c with phase := origin }

structure State (ι : Type) where
  cpus : ι → Cpu
  tasks : List Task

section
variable {ι : Type} [DecidableEq ι]

def State.setCpu (s : State ι) (i : ι) (c : Cpu) : State ι :=
  { s with cpus := Function.update s.cpus i c }

/-- A task is taken up: `State::Resume` swaps where it goes to user code. -/
def Cpu.take (c : Cpu) : Task → Cpu
  | .user => { c.swapGs with phase := .resume, returns := [] }
  | .kernel returns => { c with phase := .kernel, returns }

/-- A step of one CPU. -/
def step (s : State ι) (a : ι × Act) : Option (State ι) :=
  let c := s.cpus a.1
  match a.2 with
  | .syscall => if c.phase = .user then some (s.setCpu a.1 { c with phase := .syscall }) else none
  | .interrupt v => some (s.setCpu a.1 { c with phase := .isr v c.phase })
  | .next => c.next.map (s.setCpu a.1)
  | .newUser => if c.phase = .kernel then some { s with tasks := .user :: s.tasks } else none
  | .newKernel => if c.phase = .kernel then some { s with tasks := .kernel [] :: s.tasks } else none
  | .suspend =>
      if c.phase = .kernel then
        some { s.setCpu a.1 { c with returns := [] } with tasks := .kernel c.returns :: s.tasks }
      else none
  | .resume k =>
      if c.phase = .kernel then
        s.tasks[k]?.map fun t => { s.setCpu a.1 (c.take t) with tasks := s.tasks.eraseIdx k }
      else none
  | .runSync => if c.phase = .kernel then some (s.setCpu a.1 { c with returns := [] }) else none

/-- Every CPU has set the segment to its data, in `Cpu::Cpu`. -/
def start (localData : ι → Word) : State ι :=
  ⟨fun i => ⟨localData i, 0, .kernel, []⟩, []⟩

def system (localData : ι → Word) : System (State ι) (ι × Act) where
  start := (· = start localData)
  step s a t := step s a = some t

/-- Interrupts are off around every `swapgs`, and there are no exceptions there; an NMI or a machine
check may come at any point. -/
def Interruptible (p : Phase) (v : BitVec 8) : Prop := nonMaskable v ∨ p = .user ∨ p = .kernel

/-- Interrupts come where they may. -/
def Quiet (s : State ι) (a : ι × Act) : Prop :=
  match a.2 with
  | .interrupt v => Interruptible (s.cpus a.1).phase v
  | _ => True

instance (s : State ι) (a : ι × Act) : Decidable (Quiet s a) :=
  match a with
  | (_, .interrupt _) => inferInstanceAs (Decidable (_ ∨ _ ∨ _))
  | (_, .syscall) => isTrue trivial
  | (_, .next) => isTrue trivial
  | (_, .newUser) => isTrue trivial
  | (_, .newKernel) => isTrue trivial
  | (_, .suspend) => isTrue trivial
  | (_, .resume _) => isTrue trivial
  | (_, .runSync) => isTrue trivial

end

/-- The data of the CPU is in use. -/
def Phase.own : Phase → Bool
  | .kernel => true
  | .isr _ origin => origin.own
  | .iret origin => origin.own
  | _ => false

/-- A phase that a CPU gets to. -/
def Phase.Sound : Phase → Prop
  | .isr v origin => Interruptible origin v ∧ origin.Sound
  | .swapIn _ origin => origin.own = false ∧ origin.Sound
  | .iret origin => origin.Sound
  | _ => True

/-- What is returned to is returned to with the segment that it was left with. -/
def Return.Sound : Return → Prop
  | .sysret => True
  | .iret origin didSwap => didSwap = !origin.own ∧ origin.Sound

def Task.Sound : Task → Prop
  | .user => True
  | .kernel returns => ∀ r ∈ returns, r.Sound

/-- The segments of a CPU fit where it is. -/
structure Cpu.Sound (data : Word) (c : Cpu) : Prop where
  gs : if c.phase.own then c.gsBase = data ∧ c.kernelGsBase = 0
    else c.gsBase = 0 ∧ c.kernelGsBase = data
  phase : c.phase.Sound
  returns : ∀ r ∈ c.returns, r.Sound

structure Sound {ι : Type} (localData : ι → Word) (s : State ι) : Prop where
  cpus : ∀ i, (s.cpus i).Sound (localData i)
  tasks : ∀ t ∈ s.tasks, t.Sound

section
variable {data : Word} {c c' : Cpu} {v : BitVec 8} {origin : Phase}

lemma Cpu.Sound.swapGs (h : c.Sound data) {p : Phase} {returns : List Return}
    (hown : p.own = !c.phase.own) (hp : p.Sound) (hreturns : ∀ r ∈ returns, r.Sound) :
    Cpu.Sound data { c.swapGs with phase := p, returns } where
  gs := by
    have hgs := h.gs
    cases hc : c.phase.own <;> simp_all [Cpu.swapGs]
  phase := hp
  returns := hreturns

lemma Cpu.Sound.goto (h : c.Sound data) {p : Phase} {returns : List Return}
    (hown : p.own = c.phase.own) (hp : p.Sound) (hreturns : ∀ r ∈ returns, r.Sound) :
    Cpu.Sound data { c with phase := p, returns } where
  gs := by simpa [hown] using h.gs
  phase := hp
  returns := hreturns

/-- A `SwapScope` decides rightly, also where it goes by the segment in use. -/
lemma Cpu.Sound.didSwap (h : c.Sound data) (hdata : data ≠ 0) (hc : c.phase = .isr v origin) :
    c.didSwap v origin = !origin.own := by
  have hgs := h.gs
  have hphase := h.phase
  rw [hc] at hgs hphase
  rw [Cpu.didSwap]
  split_ifs with hv
  · cases ho : origin.own <;> simp_all [Phase.own]
  · rcases hphase.1.resolve_left hv with rfl | rfl <;> rfl

lemma Cpu.Sound.next (h : c.Sound data) (hdata : data ≠ 0) (hstep : c.next = some c') :
    c'.Sound data := by
  have hcons : ∀ r : Return, r.Sound → ∀ r' ∈ r :: c.returns, r'.Sound := fun r hr r' hr' =>
    (List.mem_cons.mp hr').elim (· ▸ hr) (h.returns r')
  rw [Cpu.next] at hstep
  split at hstep
  next => cases hstep
  next hc =>
    obtain rfl := Option.some.inj hstep
    exact h.swapGs (by rw [hc]; rfl) trivial (hcons _ trivial)
  next hc =>
    obtain rfl := Option.some.inj hstep
    exact h.goto (by rw [hc]; rfl) trivial h.returns
  next hc =>
    obtain rfl := Option.some.inj hstep
    exact h.goto (by rw [hc]; rfl) trivial h.returns
  next v origin hc =>
    have hsound := h.phase
    rw [hc] at hsound
    rw [h.didSwap hdata hc] at hstep
    cases ho : origin.own with
    | true =>
      rw [ho] at hstep
      obtain rfl := Option.some.inj hstep
      exact h.goto (by rw [hc]; exact ho.symm) trivial (hcons _ ⟨by rw [ho]; rfl, hsound.2⟩)
    | false =>
      rw [ho] at hstep
      obtain rfl := Option.some.inj hstep
      exact h.goto (by rw [hc]; exact ho.symm) ⟨ho, hsound.2⟩ h.returns
  next v origin hc =>
    have hsound := h.phase
    rw [hc] at hsound
    obtain rfl := Option.some.inj hstep
    exact h.swapGs (by rw [hc]; rfl) trivial (hcons _ ⟨by rw [hsound.1]; rfl, hsound.2⟩)
  next hc =>
    have hown : c.phase.own = true := by rw [hc]; rfl
    have htail : ∀ r returns, c.returns = r :: returns → r.Sound ∧ ∀ r' ∈ returns, r'.Sound :=
      fun r returns hr => ⟨h.returns r (by simp [hr]), fun r' hr' => h.returns r' (by simp [hr, hr'])⟩
    split at hstep
    next => cases hstep
    next returns hr =>
      obtain rfl := Option.some.inj hstep
      exact h.swapGs (by rw [hown]; rfl) trivial (htail _ _ hr).2
    next origin returns hr =>
      obtain ⟨⟨hswap, horigin⟩, hreturns⟩ := htail _ _ hr
      obtain rfl := Option.some.inj hstep
      exact h.swapGs (by rw [hown]; simpa [Phase.own] using hswap) horigin hreturns
    next origin returns hr =>
      obtain ⟨⟨hswap, horigin⟩, hreturns⟩ := htail _ _ hr
      obtain rfl := Option.some.inj hstep
      exact h.goto (by rw [hown]; simpa [Phase.own] using hswap) horigin hreturns
  next origin hc =>
    have hsound := h.phase
    rw [hc] at hsound
    obtain rfl := Option.some.inj hstep
    exact h.goto (by rw [hc]; rfl) hsound h.returns

lemma Cpu.Sound.take (h : c.Sound data) (hc : c.phase = .kernel) {t : Task} (ht : t.Sound) :
    (c.take t).Sound data := by
  cases t with
  | user => exact h.swapGs (by rw [hc]; rfl) trivial nofun
  | kernel returns => exact h.goto (by rw [hc]) trivial ht

variable {ι : Type} [DecidableEq ι] {localData : ι → Word} {s t : State ι} {a : ι × Act}

lemma Sound.setCpu (h : Sound localData s) {i : ι} {c : Cpu} (hc : c.Sound (localData i))
    {tasks : List Task} (htasks : ∀ t ∈ tasks, t.Sound) :
    Sound localData { s.setCpu i c with tasks } where
  cpus j := by
    by_cases hj : j = i
    · simpa [State.setCpu, hj] using hc
    · simpa [State.setCpu, hj] using h.cpus j
  tasks := htasks

lemma Sound.step (h : Sound localData s) (hdata : ∀ i, localData i ≠ 0) (hquiet : Quiet s a)
    (hstep : step s a = some t) : Sound localData t := by
  obtain ⟨i, act⟩ := a
  have hi := h.cpus i
  have hcons : ∀ task : Task, task.Sound → ∀ t ∈ task :: s.tasks, t.Sound := fun task ht t ht' =>
    (List.mem_cons.mp ht').elim (· ▸ ht) (h.tasks t)
  have hnil : ∀ r ∈ ([] : List Return), r.Sound := List.forall_mem_nil _
  cases act with
  | syscall =>
    obtain ⟨hc, rfl⟩ : (s.cpus i).phase = .user ∧
        s.setCpu i { s.cpus i with phase := .syscall } = t := by
      simpa [SegmentSwitch.step] using hstep
    exact h.setCpu (hi.goto (p := .syscall) (by rw [hc]; rfl) trivial hi.returns) h.tasks
  | interrupt v =>
    obtain rfl := Option.some.inj hstep
    exact h.setCpu (hi.goto (p := .isr v (s.cpus i).phase) rfl ⟨hquiet, hi.phase⟩ hi.returns)
      h.tasks
  | next =>
    obtain ⟨c, hc, rfl⟩ := Option.map_eq_some_iff.mp hstep
    exact h.setCpu (hi.next (hdata i) hc) h.tasks
  | newUser =>
    obtain ⟨-, rfl⟩ : (s.cpus i).phase = .kernel ∧ { s with tasks := .user :: s.tasks } = t := by
      simpa [SegmentSwitch.step] using hstep
    exact ⟨h.cpus, hcons _ trivial⟩
  | newKernel =>
    obtain ⟨-, rfl⟩ : (s.cpus i).phase = .kernel ∧ { s with tasks := .kernel [] :: s.tasks } = t := by
      simpa [SegmentSwitch.step] using hstep
    exact ⟨h.cpus, hcons _ hnil⟩
  | suspend =>
    obtain ⟨hc, rfl⟩ : (s.cpus i).phase = .kernel ∧ { s.setCpu i { s.cpus i with returns := [] } with
        tasks := .kernel (s.cpus i).returns :: s.tasks } = t := by
      simpa [SegmentSwitch.step] using hstep
    exact h.setCpu (hi.goto (p := (s.cpus i).phase) rfl hi.phase hnil) (hcons _ hi.returns)
  | resume k =>
    obtain ⟨hc, task, htask, rfl⟩ : (s.cpus i).phase = .kernel ∧ ∃ task, s.tasks[k]? = some task ∧
        { s.setCpu i ((s.cpus i).take task) with tasks := s.tasks.eraseIdx k } = t := by
      simpa [SegmentSwitch.step] using hstep
    exact h.setCpu (hi.take hc (h.tasks task (List.mem_of_getElem? htask)))
      fun t ht => h.tasks t (List.mem_of_mem_eraseIdx ht)
  | runSync =>
    obtain ⟨-, rfl⟩ : (s.cpus i).phase = .kernel ∧
        s.setCpu i { s.cpus i with returns := [] } = t := by
      simpa [SegmentSwitch.step] using hstep
    exact h.setCpu (hi.goto (p := (s.cpus i).phase) rfl hi.phase hnil) h.tasks

omit [DecidableEq ι] in
lemma sound_start (localData : ι → Word) : Sound localData (start localData) where
  cpus _ := ⟨⟨rfl, rfl⟩, trivial, nofun⟩
  tasks := nofun

lemma sound_reachable (hdata : ∀ i, localData i ≠ 0)
    (h : ((system localData).restrict Quiet).Reachable s) : Sound localData s := by
  refine h.invariant ?_ fun s a t _ hs hstep => hs.step hdata hstep.1 hstep.2
  rintro _ rfl
  exact sound_start localData

/-- In every run, user code never has the segment of a CPU, and every interrupt finds the segments
that its functions rely on, whatever it comes at and whichever CPUs the tasks have been on. -/
theorem segments_reachable (hdata : ∀ i, localData i ≠ 0)
    (h : ((system localData).restrict Quiet).Reachable s) (i : ι) :
    ((s.cpus i).phase = .user → (s.cpus i).gsBase = 0 ∧ (s.cpus i).kernelGsBase = localData i) ∧
      ((s.cpus i).phase = .kernel → (s.cpus i).gsBase = localData i ∧ (s.cpus i).kernelGsBase = 0) ∧
      ∀ (v : BitVec 8) (m : Machine), Interruptible (s.cpus i).phase v →
        m.gsBase = (s.cpus i).gsBase → m.kernelGsBase = (s.cpus i).kernelGsBase →
        (cpl m.cs = 0 ↔ (s.cpus i).phase ≠ .user) → Segments (localData i) v m := by
  have hgs := ((sound_reachable hdata h).cpus i).gs
  refine ⟨fun hp => by simpa [hp, Phase.own] using hgs, fun hp => by simpa [hp, Phase.own] using hgs,
    fun v m hv hm hm' hcpl => ⟨hdata i, ?_, fun h2 h12 => ?_⟩⟩
  · rw [hm, hm']
    split_ifs at hgs
    · exact .inl hgs
    · exact .inr hgs
  · rw [hcpl, hm]
    rcases hv with hv | hp | hp
    · exact absurd hv (not_or.mpr ⟨h2, h12⟩)
    · have hzero : (s.cpus i).gsBase = 0 := by simp_all [Phase.own]
      exact ⟨fun he => absurd hp he, fun he => absurd (he.symm.trans hzero) (hdata i)⟩
    · have hown : (s.cpus i).gsBase = localData i := by simp_all [Phase.own]
      simp [hp, hown]

/-- A machine check in an NMI at the first instruction of a system call. -/
theorem segments_reachable_nmi : ∃ s, ((system fun _ : Unit => 0x7000).restrict Quiet).Reachable s ∧
    (s.cpus ()).phase = .isr 0x2 .syscall ∧
    ∀ m : Machine, m.gsBase = (s.cpus ()).gsBase → m.kernelGsBase = (s.cpus ()).kernelGsBase →
      cpl m.cs = 0 → Segments 0x7000 0x12 m := by
  have hstep : ∀ (s : State Unit) a t, (if Quiet s a then step s a else none) = some t →
      ((system fun _ : Unit => 0x7000).restrict Quiet).step s a t := fun s a t h => by
    split_ifs at h with hq
    exact ⟨hq, h⟩
  obtain ⟨s, hs, hphase⟩ : ∃ s, [((), Act.newUser), ((), .resume 0), ((), .next), ((), .syscall),
      ((), .interrupt 0x2)].foldlM (fun s a => if Quiet s a then step s a else none)
      (start fun _ => 0x7000) = some s ∧ (s.cpus ()).phase = .isr 0x2 .syscall := ⟨_, rfl, rfl⟩
  have hrun := System.Reachable.run hstep (.start rfl) hs
  exact ⟨s, hrun, hphase, fun m hm hm' hcs => (segments_reachable (fun _ => by decide) hrun ()).2.2
    0x12 m (.inl (.inr rfl)) hm hm' ⟨fun _ => by rw [hphase]; nofun, fun _ => hcs⟩⟩

end

end Anarch.SegmentSwitch
