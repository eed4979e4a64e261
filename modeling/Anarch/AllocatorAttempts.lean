import Anarch.AllocatorPages

/-! Everything a round of `AllocAndMap` can do, and what `FreeAndUnmap` does to the range
of a round that succeeded. -/
namespace Anarch.AllocatorMapping
open MemoryMap

lemma getPageSize_pos (i : Fin 2) : 0 < (getPageSize i).toNat := by
  revert i
  decide

lemma two_le_getPageSize (i : Fin 2) : 2 ≤ (getPageSize i).toNat := by
  revert i
  decide

lemma pagesFor_toNat {size pageSize : Word} (h : 2 ≤ pageSize.toNat) :
    (pagesFor size pageSize).toNat =
      size.toNat / pageSize.toNat + if size.toNat % pageSize.toNat = 0 then 0 else 1 := by
  have hz : size % pageSize = 0 ↔ size.toNat % pageSize.toNat = 0 := by
    rw [← BitVec.toNat_inj, BitVec.toNat_umod]
    rfl
  have hle : size.toNat / pageSize.toNat ≤ size.toNat / 2 := Nat.div_le_div_left h (by omega)
  have hlt := size.isLt
  by_cases hm : size.toNat % pageSize.toNat = 0
  · rw [pagesFor, if_neg (not_not.mpr (hz.mpr hm)), if_pos hm, BitVec.toNat_udiv]
    rfl
  · rw [pagesFor, if_pos (mt hz.mp hm), if_neg hm, BitVec.toNat_add, BitVec.toNat_udiv]
    exact Nat.mod_eq_of_lt (by simp; omega)

lemma pagesFor_covers (size : Word) {pageSize : Word} (h : 2 ≤ pageSize.toNat) :
    size.toNat ≤ pageSize.toNat * (pagesFor size pageSize).toNat ∧
      ∀ m < (pagesFor size pageSize).toNat, pageSize.toNat * m < size.toNat := by
  have hdiv := Nat.div_add_mod size.toNat pageSize.toNat
  have hmod := Nat.mod_lt size.toNat (show 0 < pageSize.toNat by omega)
  rw [pagesFor_toNat h]
  by_cases hm : size.toNat % pageSize.toNat = 0
  · rw [if_pos hm, Nat.add_zero]
    refine ⟨by omega, fun m hlt => ?_⟩
    have := Nat.mul_lt_mul_of_pos_left hlt (show 0 < pageSize.toNat by omega)
    omega
  · rw [if_neg hm, Nat.mul_succ]
    refine ⟨by omega, fun m hlt => ?_⟩
    have := Nat.mul_le_mul_left pageSize.toNat (Nat.le_of_lt_succ hlt)
    omega

section
variable {α μ : Type} {A : AllocatorOps α} {M : MapOps μ} {pages : μ → VirtAddr → Option Page}
variable {memory : Set PhysAddr}

variable (A) in
/-- The blocks a round with this page size gets, if `Reserve` finds it a range. -/
def roundBlocks (size : Word) (i : Fin 2) (a : α) : List PhysAddr :=
  blocks A (getPageSize i) (getPageSizeAlign i) (pagesFor size (getPageSize i)).toNat a

variable (A) in
/-- The allocator serves every page of the round. -/
def Serves (size : Word) (i : Fin 2) (a : α) : Prop :=
  (roundBlocks A size i a).length = (pagesFor size (getPageSize i)).toNat

instance (size : Word) (i : Fin 2) (a : α) : Decidable (Serves A size i a) :=
  inferInstanceAs (Decidable (_ = _))

variable (M) in
def roundReserve (size : Word) (i : Fin 2) (g : μ) : Option VirtAddr × μ :=
  M.reserve ⟨getPageSize i, pagesFor size (getPageSize i)⟩ g

def roundStarts (size : Word) (i : Fin 2) (res : VirtAddr) : List VirtAddr :=
  pageStarts res (getPageSize i) (pagesFor size (getPageSize i)).toNat

/-- What a round that mapped every page leaves: its calls, and each page of its range
mapped to some block. -/
structure Mapped (A : AllocatorOps α) (pages : μ → VirtAddr → Option Page) (size : Word)
    (i : Fin 2) (s : Machine α μ) (res : VirtAddr) (s' : Machine α μ) : Prop where
  fits : res.toNat + (getPageSize i).toNat * (pagesFor size (getPageSize i)).toNat ≤ 2 ^ 64
  calls : s'.calls = s.calls ++ (roundBlocks A size i s.alloc).map .obtained
  inside : ∀ v ∈ roundStarts size i res, ∃ p, pages s'.map v = some (getPageSize i, some p)
  within : ∀ v : VirtAddr, res.toNat ≤ v.toNat →
    v.toNat < res.toNat + (getPageSize i).toNat * (pagesFor size (getPageSize i)).toNat →
    v ∉ roundStarts size i res → pages s'.map v = none
  others : ∀ v, pages s.map v ≠ none → pages s'.map v = pages s.map v

/-- What a round leaves that ran out of memory: it has freed the virtual addresses of the
pages it mapped, and its first page without a block stays reserved. -/
structure Abandoned (A : AllocatorOps α) (pages : μ → VirtAddr → Option Page) (size : Word)
    (i : Fin 2) (s : Machine α μ) (res : VirtAddr) (s' : Machine α μ) : Prop where
  calls : s'.calls = s.calls ++ (roundBlocks A size i s.alloc).map .obtained ++
    (pageStarts res (getPageSize i) (roundBlocks A size i s.alloc).length).map .freed
  leftover : ∃ v, pages s.map v = none ∧ pages s'.map v = some (getPageSize i, none)
  others : ∀ v, pages s.map v ≠ none → pages s'.map v = pages s.map v

/-- What the loop that maps the pages of a round leaves: the blocks it got are mapped, the rest
of the range stays reserved. -/
structure Filled (A : AllocatorOps α) (pages : μ → VirtAddr → Option Page) (size : Word)
    (i : Fin 2) (s : Machine α μ) (res : VirtAddr) (s' : Machine α μ) : Prop where
  fits : res.toNat + (getPageSize i).toNat * (pagesFor size (getPageSize i)).toNat ≤ 2 ^ 64
  free : ∀ v : VirtAddr, res.toNat ≤ v.toNat →
    v.toNat < res.toNat + (getPageSize i).toNat * (pagesFor size (getPageSize i)).toNat →
    pages s.map v = none
  calls : s'.calls = s.calls ++ (roundBlocks A size i s.alloc).map .obtained
  mapped : ∀ v ∈ pageStarts res (getPageSize i) (roundBlocks A size i s.alloc).length,
    ∃ p, pages s'.map v = some (getPageSize i, some p)
  held : ∀ v ∈ roundStarts size i res,
    v ∉ pageStarts res (getPageSize i) (roundBlocks A size i s.alloc).length →
    pages s'.map v = some (getPageSize i, none)
  others : ∀ v ∉ roundStarts size i res, pages s'.map v = pages s.map v

section
variable {size : Word} {i : Fin 2} {s s₁ : Machine α μ} {res : VirtAddr}

lemma length_roundBlocks_le :
    (roundBlocks A size i s.alloc).length ≤ (pagesFor size (getPageSize i)).toNat :=
  length_blocks_le _ _ _ _

/-- A round whose range is reserved fills it, and undoes that if the blocks run out. -/
lemma attempt_fills (hA : BlocksOf A memory) (hM : MapContract M pages memory) (hskip : skips size i = false)
    (hround : (roundReserve M size i s.map).1 = some res) :
    ∃ s₁, Filled A pages size i s res s₁ ∧ attempt A M size i s =
      if Serves A size i s.alloc then .ok (.done res, s₁)
      else do
        return (.exhausted, ← freeAndUnmap A M res
          (BitVec.ofNat 64 (roundBlocks A size i s.alloc).length * getPageSize i) s₁) := by
  have hpos := getPageSize_pos i
  cases hres : M.reserve ⟨getPageSize i, pagesFor size (getPageSize i)⟩ s.map with
  | mk answer map =>
    obtain rfl : answer = some res := by rwa [roundReserve, hres] at hround
    obtain ⟨hfit, hfree, hmap⟩ := hM.reserve_granted _ s.map res (by rw [hres])
    rw [hres] at hmap
    have hheld : ∀ v ∈ roundStarts size i res, pages map v = some (getPageSize i, none) :=
      fun v hv => by
        rw [hmap]
        exact if_pos hv
    have hother : ∀ v ∉ roundStarts size i res, pages map v = pages s.map v := fun v hv => by
      rw [hmap]
      exact if_neg hv
    obtain ⟨s₁, hrun, hcalls, hmapped, hframe⟩ :=
      mapPages_spec (s := { s with map }) hA hM (show getPageSizeAlign i = getPageSize i from rfl)
        hpos
        (show blocks A _ _ _ _ = roundBlocks A size i s.alloc from rfl) hfit hheld
    refine ⟨s₁, ⟨hfit, hfree, hcalls, hmapped, fun v hv hv' => (hframe v hv').trans (hheld v hv),
      fun v hv => ?_⟩, ?_⟩
    · exact (hframe v fun h => hv (mem_pageStarts_of_le length_roundBlocks_le h)).trans
        (hother v hv)
    · rw [attempt, hskip, hres]
      simp only [Bool.false_eq_true, if_false, getPageSizeAlign] at hrun ⊢
      rw [hrun]
      by_cases hserve : Serves A size i s.alloc
      · rw [if_pos hserve, decide_eq_true (by exact hserve)]
      · rw [if_neg hserve, decide_eq_false (by exact hserve)]
        have hsub : ∀ w : Word, res + w - res = w := fun w => by
          rw [BitVec.add_comm, BitVec.add_sub_cancel]
        simp only [hsub]

lemma Filled.roundStarts_free (h : Filled A pages size i s res s₁) :
    ∀ v ∈ roundStarts size i res, pages s.map v = none := fun v hv =>
  have hin := mem_range_of_mem_pageStarts (getPageSize_pos i) h.fits hv
  h.free v hin.1 hin.2

lemma Filled.done (h : Filled A pages size i s res s₁) (hserve : Serves A size i s.alloc) :
    Mapped A pages size i s res s₁ where
  fits := h.fits
  calls := h.calls
  inside v hv := h.mapped v (by rwa [show (roundBlocks A size i s.alloc).length = _ from hserve])
  within v hlo hhi hv := (h.others v hv).trans (h.free v hlo hhi)
  others v hv := h.others v fun hin => hv (h.roundStarts_free v hin)

lemma Filled.undone (hM : MapContract M pages memory) (h : Filled A pages size i s res s₁)
    (hserve : ¬ Serves A size i s.alloc) :
    ∃ s₂, freeAndUnmap A M res
        (BitVec.ofNat 64 (roundBlocks A size i s.alloc).length * getPageSize i) s₁ = .ok s₂ ∧
      Abandoned A pages size i s res s₂ := by
  have hpos := getPageSize_pos i
  have hlt : (roundBlocks A size i s.alloc).length < (pagesFor size (getPageSize i)).toNat :=
    lt_of_le_of_ne length_roundBlocks_le hserve
  have hfit := h.fits
  have hpart := Nat.mul_lt_mul_of_pos_left hlt hpos
  have hle := Nat.le_mul_of_pos_left (roundBlocks A size i s.alloc).length hpos
  have hrem : (BitVec.ofNat 64 (roundBlocks A size i s.alloc).length * getPageSize i).toNat =
      (getPageSize i).toNat * (roundBlocks A size i s.alloc).length := by
    rw [BitVec.toNat_mul, BitVec.toNat_ofNat,
      Nat.mod_eq_of_lt (a := (roundBlocks A size i s.alloc).length) (by omega), Nat.mul_comm]
    exact Nat.mod_eq_of_lt (by omega)
  obtain ⟨s₂, hclean, hcalls, hpages⟩ := unmapPages_spec (A := A) hM hpos (by omega) h.mapped
    hrem.le (fun m hm => hrem ▸ Nat.mul_lt_mul_of_pos_left hm hpos) (hrem ▸ hle)
  refine ⟨s₂, hclean, by rw [hcalls, h.calls], ?_, fun v hv => ?_⟩
  · -- the page the allocator refused a block for
    have hin : res + BitVec.ofNat 64 (roundBlocks A size i s.alloc).length * getPageSize i ∈
        roundStarts size i res :=
      List.mem_map.mpr ⟨_, List.mem_range.mpr hlt, rfl⟩
    have hout := next_not_mem_pageStarts hpos hlt hfit
    refine ⟨_, h.roundStarts_free _ hin, ?_⟩
    rw [hpages]
    exact (if_neg hout).trans (h.held _ hin hout)
  · have hout : v ∉ roundStarts size i res := fun hin => hv (h.roundStarts_free v hin)
    rw [hpages]
    exact (if_neg fun hin => hout (mem_pageStarts_of_le hlt.le hin)).trans (h.others v hout)

end

/-- All that a round of the loop can do. -/
theorem attempt_cases (hA : BlocksOf A memory) (hM : MapContract M pages memory) (size : Word)
    (i : Fin 2) (s : Machine α μ) :
    (skips size i = true ∧ attempt A M size i s = .ok (.skipped, s)) ∨
    (skips size i = false ∧ (roundReserve M size i s.map).1 = none ∧
      attempt A M size i s =
        .ok (.refused, { s with map := (roundReserve M size i s.map).2 }) ∧
      pages (roundReserve M size i s.map).2 = pages s.map) ∨
    (skips size i = false ∧ ∃ res, (roundReserve M size i s.map).1 = some res ∧
      Serves A size i s.alloc ∧ ∃ s', attempt A M size i s = .ok (.done res, s') ∧
        Mapped A pages size i s res s') ∨
    (skips size i = false ∧ ∃ res, (roundReserve M size i s.map).1 = some res ∧
      ¬ Serves A size i s.alloc ∧ ∃ s', attempt A M size i s = .ok (.exhausted, s') ∧
        Abandoned A pages size i s res s') := by
  by_cases hskip : skips size i = true
  · exact .inl ⟨hskip, by simp [attempt, hskip]⟩
  have hskip : skips size i = false := by simpa using hskip
  refine .inr ?_
  cases hround : (roundReserve M size i s.map).1 with
  | none =>
    refine .inl ⟨hskip, rfl, ?_, hM.reserve_refused _ _ hround⟩
    have hres : M.reserve ⟨getPageSize i, pagesFor size (getPageSize i)⟩ s.map =
        (none, (roundReserve M size i s.map).2) := Prod.ext hround rfl
    rw [attempt, hskip, hres]
    rfl
  | some res =>
    obtain ⟨s₁, hfilled, hrun⟩ := attempt_fills hA hM hskip hround
    rw [hrun]
    by_cases hserve : Serves A size i s.alloc
    · exact .inr (.inl ⟨hskip, res, rfl, hserve, s₁, if_pos hserve, hfilled.done hserve⟩)
    · obtain ⟨s₂, hundo, hleft⟩ := hfilled.undone hM hserve
      refine .inr (.inr ⟨hskip, res, rfl, hserve, s₂, ?_, hleft⟩)
      rw [if_neg hserve, hundo]
      rfl

end

end Anarch.AllocatorMapping
