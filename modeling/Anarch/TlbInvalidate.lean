import Mathlib.Tactic.SplitIfs
import Mathlib.Data.Set.Lattice
import Mathlib.Order.CompletePartialOrder
import Anarch.PageTable

/-! The instructions of `Tlb::Invlpgs` and what they leave of a TLB. -/
namespace Anarch.TlbInvalidate
open PageTable

/-- A cached translation of a whole page. -/
structure CachedPage where
  base : VirtAddr
  pageSize : Word
  attributes : MemoryMap.Attributes
  size_eq : pageSize = 0x1000 ∨ pageSize = 0x200000
  aligned : pageSize.toNat ∣ base.toNat

/-- Bit 8 of the entry the page was cached from. Kernel mappings lie below `KernelEnd`. -/
def CachedPage.isGlobal (p : CachedPage) : Bool :=
  calcMask p.pageSize (p.base < kernelEnd) p.attributes &&& 0x100 ≠ 0

def CachedPage.addresses (p : CachedPage) : Set ℕ :=
  Set.Ico p.base.toNat (p.base.toNat + p.pageSize.toNat)

/-- The instructions of `Invlpg` and of the two assembly blocks of `Invlpgs`. -/
inductive Instr
  | invlpg (addr : VirtAddr)
  | loadCr4
  | xorRax (imm : Word)
  | orRax (imm : Word)
  | storeCr4
  | loadCr3
  | storeCr3
  deriving DecidableEq, Repr

structure Cpu where
  rax : Word
  cr3 : Word
  cr4 : Word
  tlb : Set CachedPage

/-- `CR4.PGE`. -/
def Cpu.pge (cpu : Cpu) : Bool := cpu.cr4.getLsbD 7

/-- A change of `CR4.PGE` empties the TLB, a load of CR3 keeps its global pages. -/
def exec (cpu : Cpu) : Instr → Cpu
  | .invlpg addr => { cpu with tlb := {p ∈ cpu.tlb | addr.toNat ∉ p.addresses} }
  | .loadCr4 => { cpu with rax := cpu.cr4 }
  | .xorRax imm => { cpu with rax := cpu.rax ^^^ imm }
  | .orRax imm => { cpu with rax := cpu.rax ||| imm }
  | .storeCr4 =>
      { cpu with
        cr4 := cpu.rax
        tlb := if cpu.rax.getLsbD 7 = cpu.pge then cpu.tlb else ∅ }
  | .loadCr3 => { cpu with rax := cpu.cr3 }
  | .storeCr3 => { cpu with cr3 := cpu.rax, tlb := {p ∈ cpu.tlb | p.isGlobal} }

/-- The loop of `Invlpgs`, for at most so many rounds. -/
def invlpgLoop (stop : VirtAddr) : ℕ → VirtAddr → Option (List Instr)
  | 0, _ => none
  | n + 1, addr =>
      if addr < stop then (invlpgLoop stop n (addr + 0x1000)).map (.invlpg addr :: ·)
      else some []

/-- `Tlb::Invlpgs`: the instructions it executes. -/
def invlpgs (n : ℕ) (start : VirtAddr) (size : Word) : Option (List Instr) :=
  if 0x200000 < size then
    if start + size < kernelEnd then
      some [.loadCr4, .xorRax 0x80, .storeCr4, .orRax 0x80, .storeCr4]
    else some [.loadCr3, .storeCr3]
  else invlpgLoop (start + size) n start

/-- No page that any TLB held before the instructions overlaps the range after them. -/
def Clears (instrs : List Instr) (start : VirtAddr) (size : Word) : Prop :=
  ∀ cpu : Cpu, ∀ p ∈ (instrs.foldl exec cpu).tlb,
    Disjoint p.addresses (Set.Ico start.toNat (start.toNat + size.toNat))

/-- The call returns, and it clears its range. -/
def Invalidates (start : VirtAddr) (size : Word) : Prop :=
  ∃ n instrs, invlpgs n start size = some instrs ∧ Clears instrs start size

/-- The ranges of whole pages, of kernel memory or of user memory, that `Invlpgs` clears. -/
structure Clearable (start : VirtAddr) (size : Word) : Prop where
  start_dvd : 0x1000 ∣ start.toNat
  size_dvd : 0x1000 ∣ size.toNat
  half : start.toNat + size.toNat ≤ kernelEnd.toNat ∨
    kernelEnd ≤ start ∧ start.toNat + size.toNat ≤ 2 ^ 64
  kernelTop : ¬(0x200000 < size ∧ start.toNat + size.toNat = kernelEnd.toNat)
  memoryTop : ¬(0 < size ∧ size ≤ 0x200000 ∧ start.toNat + size.toNat = 2 ^ 64)

namespace CachedPage

lemma isGlobal_iff (p : CachedPage) : p.isGlobal ↔ p.base < kernelEnd := by
  obtain ⟨base, pageSize, ⟨executable, writable, cachable⟩, hsize, haligned⟩ := p
  simp only [isGlobal, calcMask]
  rcases hsize with rfl | rfl <;> cases executable <;> cases writable <;>
    by_cases h : base < kernelEnd <;> simp [h]

lemma pageSize_toNat (p : CachedPage) : p.pageSize.toNat = 0x1000 ∨ p.pageSize.toNat = 0x200000 := by
  rcases p.size_eq with h | h
  · exact .inl (by rw [h]; rfl)
  · exact .inr (by rw [h]; rfl)

lemma round_mem (p : CachedPage) {x a : ℕ} (hx : x ∈ p.addresses) (ha : 0x1000 ∣ a)
    (hle : a ≤ x) (hlt : x < a + 0x1000) : a ∈ p.addresses := by
  have haligned := p.aligned
  simp only [addresses, Set.mem_Ico] at *
  rcases p.pageSize_toNat with h | h <;> rw [h] at hx haligned ⊢ <;> omega

lemma kernelEnd_le_base (p : CachedPage) {x : ℕ} (hx : x ∈ p.addresses)
    (hle : kernelEnd.toNat ≤ x) : kernelEnd ≤ p.base := by
  have haligned := p.aligned
  have hend : kernelEnd.toNat = 0x8000000000 := rfl
  simp only [addresses, Set.mem_Ico] at hx
  rw [BitVec.le_def]
  rcases p.pageSize_toNat with h | h <;> rw [h] at hx haligned <;> omega

end CachedPage

lemma mem_of_mem_exec {cpu : Cpu} {i : Instr} {p : CachedPage} (hp : p ∈ (exec cpu i).tlb) :
    p ∈ cpu.tlb := by
  cases i with
  | invlpg addr => exact hp.1
  | storeCr3 => exact hp.1
  | storeCr4 =>
    simp only [exec] at hp
    split_ifs at hp
    · exact hp
    · exact hp.elim
  | loadCr4 | xorRax imm | orRax imm | loadCr3 => exact hp

/-- What a list of instructions leaves in the TLB was there before, and no `invlpg` of the
list hit it. -/
lemma mem_foldl_exec {instrs : List Instr} {cpu : Cpu} {p : CachedPage}
    (hp : p ∈ (instrs.foldl exec cpu).tlb) :
    p ∈ cpu.tlb ∧ ∀ addr, .invlpg addr ∈ instrs → addr.toNat ∉ p.addresses := by
  induction instrs generalizing cpu with
  | nil => exact ⟨hp, fun _ h => nomatch h⟩
  | cons i instrs ih =>
    obtain ⟨hmem, hrest⟩ := ih hp
    refine ⟨mem_of_mem_exec hmem, fun addr haddr => ?_⟩
    rcases List.mem_cons.mp haddr with rfl | haddr
    · exact hmem.2
    · exact hrest addr haddr

lemma invlpgLoop_hits {stop : VirtAddr} (addr : VirtAddr) {k n : ℕ} (hn : k < n)
    (h : addr.toNat + 0x1000 * k = stop.toNat) :
    ∃ instrs, invlpgLoop stop n addr = some instrs ∧
      ∀ a : VirtAddr, addr ≤ a → a < stop → 0x1000 ∣ a.toNat - addr.toNat → .invlpg a ∈ instrs := by
  induction k generalizing addr n with
  | zero =>
    obtain ⟨n, rfl⟩ := Nat.exists_eq_succ_of_ne_zero hn.ne'
    have heq : addr = stop := BitVec.eq_of_toNat_eq h
    refine ⟨[], by simp [invlpgLoop, heq], fun a hle hlt _ => ?_⟩
    exact absurd (heq ▸ hle) (BitVec.not_le.mpr hlt)
  | succ k ih =>
    obtain ⟨n, rfl⟩ := Nat.exists_eq_succ_of_ne_zero (Nat.ne_zero_of_lt hn)
    have hlt : addr < stop := by rw [BitVec.lt_def]; omega
    have hnext : (addr + 0x1000).toNat = addr.toNat + 0x1000 := by
      rw [BitVec.toNat_add_of_lt]
      · rfl
      · have := stop.isLt
        change addr.toNat + 0x1000 < 2 ^ 64
        omega
    obtain ⟨instrs, hloop, hhits⟩ := ih (addr + 0x1000) (Nat.lt_of_succ_lt_succ hn) (by omega)
    refine ⟨.invlpg addr :: instrs, ?_, fun a hle ha hdvd => ?_⟩
    · rw [invlpgLoop, if_pos hlt, hloop]
      rfl
    · rw [List.mem_cons]
      by_cases heq : a = addr
      · exact .inl (by rw [heq])
      · have hne : a.toNat ≠ addr.toNat := fun hne => heq (BitVec.eq_of_toNat_eq hne)
        rw [BitVec.le_def] at hle
        exact .inr (hhits a (by rw [BitVec.le_def]; omega) ha (by omega))

/-- The page at the start of a range stays in a TLB that held only it. -/
def firstPage (start : VirtAddr) (h : 0x1000 ∣ start.toNat) : CachedPage :=
  ⟨start, 0x1000, {}, .inl rfl, h⟩

section
variable {start : VirtAddr} {size : Word}

lemma not_disjoint_firstPage (h : 0x1000 ∣ start.toNat) (hsize : 0 < size.toNat) :
    ¬Disjoint (firstPage start h).addresses (Set.Ico start.toNat (start.toNat + size.toNat)) :=
  Set.not_disjoint_iff.mpr ⟨start.toNat, ⟨le_rfl, Nat.lt_add_of_pos_right (Nat.succ_pos 0xfff)⟩,
    ⟨le_rfl, Nat.lt_add_of_pos_right hsize⟩⟩

/-- The two writes of CR4 empty the TLB, whatever `CR4.PGE` was. -/
lemma toggle_empties (cpu : Cpu) :
    ([.loadCr4, .xorRax 0x80, .storeCr4, .orRax 0x80, .storeCr4].foldl exec cpu).tlb = ∅ := by
  have hbit : (cpu.cr4 ^^^ 0x80).getLsbD 7 ≠ cpu.pge := by
    simp only [Cpu.pge, BitVec.getLsbD_xor, show (0x80 : Word).getLsbD 7 = true from rfl]
    cases cpu.cr4.getLsbD 7 <;> decide
  have hfirst : ([.loadCr4, .xorRax 0x80, .storeCr4].foldl exec cpu).tlb = ∅ := if_neg hbit
  refine Set.eq_empty_of_forall_notMem fun p hp => ?_
  have hmem : p ∈ ([.loadCr4, .xorRax 0x80, .storeCr4].foldl exec cpu).tlb :=
    mem_of_mem_exec (i := .orRax 0x80) (mem_of_mem_exec (i := .storeCr4) hp)
  rw [hfirst] at hmem
  exact hmem

/-- A range of at most 2 MiB, invalidated page by page. -/
lemma clears_small (hstart : 0x1000 ∣ start.toNat) (hsize : 0x1000 ∣ size.toNat)
    (hsmall : ¬0x200000 < size) (hend : start.toNat + size.toNat < 2 ^ 64) :
    ∃ instrs, invlpgs 0x201 start size = some instrs ∧ Clears instrs start size := by
  have hle : size.toNat ≤ 0x200000 := BitVec.not_lt.mp hsmall
  obtain ⟨k, hk⟩ := hsize
  have hstop : (start + size).toNat = start.toNat + size.toNat := BitVec.toNat_add_of_lt hend
  have hlen : start.toNat + 0x1000 * k = (start + size).toNat := by omega
  obtain ⟨instrs, hloop, hhits⟩ := invlpgLoop_hits start (show k < 0x201 by omega) hlen
  refine ⟨instrs, by rw [invlpgs, if_neg hsmall, hloop], fun cpu p hp => ?_⟩
  rw [Set.disjoint_left]
  intro x hx hrange
  obtain ⟨hle, hlt⟩ := Set.mem_Ico.mp hrange
  let a := 0x1000 * (x / 0x1000)
  have ha : (BitVec.ofNat 64 a).toNat = a := Nat.mod_eq_of_lt (by omega)
  refine (mem_foldl_exec hp).2 (.ofNat 64 a) (hhits _ ?_ ?_ ?_) ?_
  · rw [BitVec.le_def, ha]
    omega
  · rw [BitVec.lt_def, ha]
    omega
  · rw [ha]
    omega
  · rw [ha]
    exact p.round_mem hx ⟨_, rfl⟩ (by omega) (by omega)

/-- A larger range below `KernelEnd`, or up to the end of memory. -/
lemma clears_toggle (hlarge : 0x200000 < size) (hend : start + size < kernelEnd) :
    ∃ instrs, invlpgs 0x201 start size = some instrs ∧ Clears instrs start size := by
  refine ⟨_, by rw [invlpgs, if_pos hlarge, if_pos hend], fun cpu p hp => ?_⟩
  rw [toggle_empties] at hp
  exact hp.elim

/-- A larger range from `KernelEnd` on: what a load of CR3 keeps lies below. -/
lemma clears_reload (hlarge : 0x200000 < size) (hend : ¬start + size < kernelEnd)
    (huser : kernelEnd ≤ start) :
    ∃ instrs, invlpgs 0x201 start size = some instrs ∧ Clears instrs start size := by
  refine ⟨_, by rw [invlpgs, if_pos hlarge, if_neg hend], fun cpu p hp => ?_⟩
  rw [Set.disjoint_left]
  intro x hx hrange
  have hbase := p.kernelEnd_le_base hx (huser.trans (Set.mem_Ico.mp hrange).1)
  exact absurd (p.isGlobal_iff.mp hp.2) (BitVec.not_lt.mpr hbase)

lemma Clearable.clears (h : Clearable start size) :
    ∃ instrs, invlpgs 0x201 start size = some instrs ∧ Clears instrs start size := by
  by_cases hlarge : 0x200000 < size
  · by_cases hend : start + size < kernelEnd
    · exact clears_toggle hlarge hend
    · rcases h.half with hle | ⟨huser, -⟩
      · have hstop : (start + size).toNat = start.toNat + size.toNat :=
          BitVec.toNat_add_of_lt (hle.trans_lt kernelEnd.isLt)
        rw [BitVec.lt_def, hstop, not_lt] at hend
        exact absurd ⟨hlarge, le_antisymm hle hend⟩ h.kernelTop
      · exact clears_reload hlarge hend huser
  · have hstartlt := start.isLt
    refine clears_small h.start_dvd h.size_dvd hlarge ?_
    rcases h.half with hle | ⟨-, hle⟩
    · exact hle.trans_lt kernelEnd.isLt
    · refine lt_of_le_of_ne hle fun hend => h.memoryTop ⟨?_, BitVec.not_lt.mp hlarge, hend⟩
      rw [BitVec.lt_def]
      change 0 < size.toNat
      omega

/-- A range of at most 2 MiB that ends at the end of memory: the loop is left at once. -/
lemma not_invalidates_last (hstart : 0x1000 ∣ start.toNat) (hsmall : ¬0x200000 < size)
    (hpos : 0 < size.toNat) (hend : start.toNat + size.toNat = 2 ^ 64) :
    ¬Invalidates start size := by
  rintro ⟨n, instrs, hcall, hall⟩
  have hstop : start + size = 0 := by
    apply BitVec.eq_of_toNat_eq
    rw [BitVec.toNat_add, hend]
    rfl
  rw [invlpgs, if_neg hsmall, hstop] at hcall
  cases n with
  | zero => cases hcall
  | succ n =>
    rw [invlpgLoop, if_neg (by simp)] at hcall
    cases hcall
    exact not_disjoint_firstPage hstart hpos (hall ⟨0, 0, 0, {firstPage start hstart}⟩ _ rfl)

/-- A larger range that ends exactly at `KernelEnd`: a load of CR3 keeps its pages. -/
lemma not_invalidates_kernelEnd (hstart : 0x1000 ∣ start.toNat) (hlarge : 0x200000 < size)
    (hend : start.toNat + size.toNat = kernelEnd.toNat) : ¬Invalidates start size := by
  rintro ⟨n, instrs, hcall, hall⟩
  have hpos : 0x200000 < size.toNat := hlarge
  have hstop : start + size = kernelEnd := by
    apply BitVec.eq_of_toNat_eq
    rw [BitVec.toNat_add, hend]
    rfl
  rw [invlpgs, if_pos hlarge, hstop, if_neg (by decide)] at hcall
  cases hcall
  refine not_disjoint_firstPage hstart (by omega)
    (hall ⟨0, 0, 0, {firstPage start hstart}⟩ _ ⟨rfl, ?_⟩)
  rw [CachedPage.isGlobal_iff]
  change start.toNat < kernelEnd.toNat
  omega

/-- `Invlpgs` invalidates a range of kernel memory or of user memory, unless the range has
more than 2 MiB and ends exactly at `KernelEnd`, or has at most that and ends at the end of
memory. -/
theorem invalidates_iff (hstart : 0x1000 ∣ start.toNat) (hsize : 0x1000 ∣ size.toNat)
    (hrange : start.toNat + size.toNat ≤ kernelEnd.toNat ∨
      kernelEnd ≤ start ∧ start.toNat + size.toNat ≤ 2 ^ 64) :
    Invalidates start size ↔
      ¬(0x200000 < size ∧ start.toNat + size.toNat = kernelEnd.toNat) ∧
      ¬(0 < size ∧ size ≤ 0x200000 ∧ start.toNat + size.toNat = 2 ^ 64) := by
  constructor
  · intro h
    refine ⟨fun ⟨hlarge, hend⟩ => not_invalidates_kernelEnd hstart hlarge hend h, ?_⟩
    rintro ⟨hpos, hsmall, hend⟩
    exact not_invalidates_last hstart (BitVec.not_lt.mpr hsmall) hpos hend h
  · rintro ⟨hkernel, hlast⟩
    exact ⟨0x201, Clearable.clears ⟨hstart, hsize, hrange, hkernel, hlast⟩⟩

/-- The last 2 MiB of kernel memory, page by page. -/
theorem invalidates_iff_kernel_top : Invalidates 0x7fffe00000 0x200000 :=
  (invalidates_iff (by decide) (by decide) (.inl (by decide))).mpr (by decide)

/-- The last 4 MiB of kernel memory, which a load of CR3 keeps. -/
theorem kernel_top_not_invalidated : (0x7fffc00000 : VirtAddr) + 0x400000 = kernelEnd ∧
    ¬Invalidates 0x7fffc00000 0x400000 :=
  ⟨by decide, not_invalidates_kernelEnd (by decide) (by decide) (by decide)⟩

end

end Anarch.TlbInvalidate
