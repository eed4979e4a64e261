import Anarch.AllocatorAttempts
import Anarch.AllocatorTrace
import Anarch.SingleRangeMap

/-! When `FreeAndUnmap` undoes a successful `AllocAndMap`: it frees the virtual address of
each page instead of its block. -/
namespace Anarch.AllocatorMapping
open MemoryMap

lemma add_sub_eq_zero_iff {h b v : Multiset PhysAddr} (hcard : b.card = v.card) :
    h + b - v = 0 ↔ h = 0 ∧ b = v := by
  constructor
  · intro hz
    have hle : h + b ≤ v := by
      rw [← zero_add v]
      exact Multiset.sub_le_iff_le_add.mp hz.le
    have hc := Multiset.card_le_card hle
    rw [Multiset.card_add] at hc
    obtain rfl : h = 0 := Multiset.card_eq_zero.mp (by omega)
    rw [zero_add] at hle
    exact ⟨rfl, Multiset.eq_of_le_of_card_le hle hcard.ge⟩
  · rintro ⟨rfl, rfl⟩
    rw [zero_add, ← Multiset.le_zero, Multiset.sub_le_iff_le_add, zero_add]

lemma eq_add_iff {h b v : Multiset PhysAddr} (hcard : b.card = v.card) :
    v = h + b ↔ h = 0 ∧ b = v := by
  constructor
  · intro he
    have hc := congrArg Multiset.card he
    rw [Multiset.card_add] at hc
    obtain rfl : h = 0 := Multiset.card_eq_zero.mp (by omega)
    rw [zero_add] at he
    exact ⟨rfl, he.symm⟩
  · rintro ⟨rfl, rfl⟩
    simp

section
variable {α μ : Type} {A : AllocatorOps α} {M : MapOps μ} {pages : μ → VirtAddr → Option Page}
variable {memory : Set PhysAddr}
variable {size : Word}

variable (A M pages size) in
/-- `FreeAndUnmap` undoes the call that led to `s`: it frees the blocks still held, each
as often as it was obtained, and leaves no page of the range. -/
def Undone (res : VirtAddr) (s : Machine α μ) : Prop :=
  ∃ t, ∃ freed : List PhysAddr, freeAndUnmap A M res size s = .ok t ∧
    t.calls = s.calls ++ freed.map .freed ∧ (freed : Multiset PhysAddr) = held 0 s.calls ∧
    ∀ v : VirtAddr, res.toNat ≤ v.toNat → v.toNat < res.toNat + size.toNat →
      pages t.map v = none

variable (A M size) in
/-- In every round, the blocks that the allocator returns are, in some order, the virtual
addresses of the pages they are for. -/
def SelfMapped : List (Fin 2) → Machine α μ → Prop
  | [], _ => True
  | i :: rest, s =>
      (skips size i = false → ∀ res, (roundReserve M size i s.map).1 = some res →
        (roundBlocks A size i s.alloc : Multiset PhysAddr) =
          pageStarts res (getPageSize i) (roundBlocks A size i s.alloc).length) ∧
      ∀ a t, attempt A M size i s = .ok (a, t) → (∀ res, a ≠ .done res) → SelfMapped rest t

lemma freeAndUnmap_mapped (hM : MapContract M pages memory) {i : Fin 2} {s t : Machine α μ}
    {res : VirtAddr} (h : Mapped A pages size i s res t) :
    ∃ u, freeAndUnmap A M res size t = .ok u ∧
      u.calls = t.calls ++ (roundStarts size i res).map .freed ∧
      ∀ v : VirtAddr, res.toNat ≤ v.toNat → v.toNat < res.toNat + size.toNat →
        pages u.map v = none := by
  obtain ⟨hcover, hlast⟩ := pagesFor_covers size (two_le_getPageSize i)
  have hfuel : (pagesFor size (getPageSize i)).toNat ≤ size.toNat := by
    cases hn : (pagesFor size (getPageSize i)).toNat with
    | zero => omega
    | succ m =>
      have hm := hlast m (by omega)
      have := Nat.le_mul_of_pos_left m (getPageSize_pos i)
      omega
  obtain ⟨u, hu, hcalls, hpages⟩ := unmapPages_spec (A := A) (s := t) hM (getPageSize_pos i)
    h.fits h.inside hcover hlast hfuel
  refine ⟨u, hu, hcalls, fun v hlo hhi => ?_⟩
  simp only [hpages]
  split_ifs with hv
  · rfl
  · exact h.within v hlo (by omega) hv

lemma undone_iff_of_mapped (hM : MapContract M pages memory) {i : Fin 2} {s t : Machine α μ}
    {res : VirtAddr} (h : Mapped A pages size i s res t) :
    Undone A M pages size res t ↔
      (roundStarts size i res : Multiset PhysAddr) = held 0 t.calls := by
  obtain ⟨u, hu, hcalls, hfree⟩ := freeAndUnmap_mapped (A := A) hM h
  constructor
  · rintro ⟨u', freed, hu', hcalls', hheld, -⟩
    obtain rfl := Except.ok.inj (hu.symm.trans hu')
    have := List.append_cancel_left (hcalls.symm.trans hcalls')
    have hinj : Function.Injective AllocatorCall.freed := fun _ _ h => by injection h
    rw [List.map_injective_iff.mpr hinj this]
    exact hheld
  · intro hheld
    exact ⟨u, _, hu, hcalls, hheld, hfree⟩

/-- Over the whole loop: what is undone is exactly a call that started with nothing held
and whose rounds all mapped blocks at their own addresses. -/
lemma undone_iff_of_attempts (hA : BlocksOf A memory) (hM : MapContract M pages memory) {order : List (Fin 2)}
    {s t : Machine α μ} {res : VirtAddr} (h : attempts A M size order s = .ok (some res, t)) :
    Undone A M pages size res t ↔ held 0 s.calls = 0 ∧ SelfMapped A M size order s := by
  induction order generalizing s with
  | nil => simp [attempts] at h
  | cons i rest ih =>
    rcases attempt_cases hA hM size i s with ⟨hskip, hr⟩ | ⟨hskip, hres, hr, -⟩ |
      ⟨hskip, res', hres, hserve, s₁, hr, hmapped⟩ | ⟨hskip, res', hres, -, s₁, hr, hleft⟩
    · simp only [attempts, hr, bind, Except.bind] at h
      rw [ih h, SelfMapped, hr]
      simp [hskip]
    · simp only [attempts, hr, bind, Except.bind] at h
      rw [ih h, SelfMapped, hr]
      simp [hskip, hres]
    · simp only [attempts, hr, bind, Except.bind, pure, Except.pure, Except.ok.injEq,
        Prod.mk.injEq, Option.some.injEq] at h
      obtain ⟨rfl, rfl⟩ := h
      have hcard : (roundBlocks A size i s.alloc : Multiset PhysAddr).card =
          (roundStarts size i res' : Multiset PhysAddr).card := by
        simp only [roundStarts, Multiset.coe_card, length_pageStarts]
        exact hserve
      rw [undone_iff_of_mapped hM hmapped, hmapped.calls, held_append, held_obtained,
        eq_add_iff hcard, SelfMapped, hr]
      have hlen : (roundBlocks A size i s.alloc).length = _ := hserve
      simp [hskip, hres, roundStarts, hlen]
    · simp only [attempts, hr, bind, Except.bind] at h
      rw [ih h, hleft.calls, held_append, held_append, held_obtained, held_freed,
        add_sub_eq_zero_iff (by simp [length_pageStarts]), SelfMapped, hr]
      simp [hskip, hres, and_assoc]

/-- `FreeAndUnmap` is the inverse of a successful `AllocAndMap` exactly if every block was
mapped at a page of its own address, up to order. -/
theorem freeAndUnmap_inverse_iff (hA : BlocksOf A memory) (hM : MapContract M pages memory) {bigPages : Bool}
    {s t : Machine α μ} {res : VirtAddr} (hcalls : s.calls = [])
    (h : allocAndMap A M size bigPages s = .ok (some res, t)) :
    Undone A M pages size res t ↔ SelfMapped A M size (pageSizes bigPages) s := by
  have hloop : attempts A M size (pageSizes bigPages) s = .ok (some res, t) := h
  rw [undone_iff_of_attempts hA hM hloop, hcalls]
  exact and_iff_right rfl

end

/-- The state after one page at the base address got the given frame. -/
def oneMapped (frame : PhysAddr) : Machine (List PhysAddr) SingleRange.Pages :=
  ⟨[], [(SingleRange.base, 0x1000, some frame)], [.obtained frame]⟩

/-- A frame that happens to have the address of its page. -/
theorem self_mapped_frame_is_undone :
    Undone frameStack SingleRange.mapOps SingleRange.pages 0x1000 SingleRange.base
        (oneMapped SingleRange.base) ↔
      SelfMapped frameStack SingleRange.mapOps 0x1000 (pageSizes false)
        ⟨[SingleRange.base], [], []⟩ :=
  freeAndUnmap_inverse_iff frameStack_blocks SingleRange.meets rfl rfl

/-- Any other frame is not given back: its page's address is freed instead. -/
theorem other_frame_is_not_undone :
    BlocksOf frameStack Set.univ ∧ MapContract SingleRange.mapOps SingleRange.pages Set.univ ∧
      allocAndMap frameStack SingleRange.mapOps 0x1000 false ⟨[0x5000], [], []⟩ =
        .ok (some SingleRange.base, oneMapped 0x5000) ∧
      ¬ Undone frameStack SingleRange.mapOps SingleRange.pages 0x1000 SingleRange.base
        (oneMapped 0x5000) := by
  refine ⟨frameStack_blocks, SingleRange.meets, rfl, ?_⟩
  have hrun : attempts frameStack SingleRange.mapOps 0x1000 [0] ⟨[0x5000], [], []⟩ =
      .ok (some SingleRange.base, oneMapped 0x5000) := rfl
  rw [undone_iff_of_attempts frameStack_blocks SingleRange.meets hrun]
  rintro ⟨-, h, -⟩
  exact absurd (h rfl SingleRange.base rfl) (by decide)

end Anarch.AllocatorMapping
