import Anarch.AllocatorMapping

/-! What the loops of `AllocAndMap` and `FreeAndUnmap` do to the pages of a map that
meets its contract. -/
namespace Anarch.AllocatorMapping
open MemoryMap

lemma pageStarts_succ (addr : VirtAddr) (pageSize : Word) (n : ℕ) :
    pageStarts addr pageSize (n + 1) =
      addr :: pageStarts (addr + pageSize) pageSize n := by
  simp only [pageStarts, List.range_succ_eq_map, List.map_cons, List.map_map,
    List.cons.injEq]
  refine ⟨by simp, List.map_congr_left fun i _ => ?_⟩
  simp only [Function.comp_apply]
  rw [BitVec.add_assoc]
  congr 1
  apply BitVec.eq_of_toNat_eq
  simp only [BitVec.toNat_mul, BitVec.toNat_add, BitVec.toNat_ofNat, Nat.mod_mul_mod,
    Nat.add_mod_mod]
  rw [Nat.succ_eq_add_one, Nat.add_mul, Nat.one_mul, Nat.add_comm]

lemma length_pageStarts (addr : VirtAddr) (pageSize : Word) (n : ℕ) :
    (pageStarts addr pageSize n).length = n := by simp [pageStarts]

lemma toNat_of_mem_pageStarts {addr v : VirtAddr} {pageSize : Word} {n : ℕ}
    (hp : 0 < pageSize.toNat) (h : addr.toNat + pageSize.toNat * n ≤ 2 ^ 64)
    (hv : v ∈ pageStarts addr pageSize n) :
    ∃ i < n, v.toNat = addr.toNat + pageSize.toNat * i := by
  obtain ⟨i, hi, rfl⟩ := List.mem_map.mp hv
  have hi' : i < n := List.mem_range.mp hi
  have hle : pageSize.toNat * i < pageSize.toNat * n := Nat.mul_lt_mul_of_pos_left hi' hp
  have hin : i ≤ pageSize.toNat * i := Nat.le_mul_of_pos_left i hp
  refine ⟨i, hi', ?_⟩
  rw [BitVec.toNat_add, BitVec.toNat_mul, BitVec.toNat_ofNat, Nat.mod_eq_of_lt (a := i) (by omega),
    Nat.mul_comm i, Nat.mod_eq_of_lt (a := pageSize.toNat * i) (by omega)]
  exact Nat.mod_eq_of_lt (by omega)

lemma head_not_mem_tail {addr : VirtAddr} {pageSize : Word} {n : ℕ} (hp : 0 < pageSize.toNat)
    (h : addr.toNat + pageSize.toNat * (n + 1) ≤ 2 ^ 64) :
    addr ∉ pageStarts (addr + pageSize) pageSize n := by
  rw [Nat.mul_succ] at h
  intro hm
  cases n with
  | zero => simp [pageStarts] at hm
  | succ n =>
    have hpos : 0 < pageSize.toNat * (n + 1) := Nat.mul_pos hp n.succ_pos
    have hadd : (addr + pageSize).toNat = addr.toNat + pageSize.toNat := by
      rw [BitVec.toNat_add]
      exact Nat.mod_eq_of_lt (by omega)
    obtain ⟨i, -, hi⟩ := toNat_of_mem_pageStarts hp (by omega) hm
    omega

lemma tail_fits {addr : VirtAddr} {pageSize : Word} {n : ℕ}
    (h : addr.toNat + pageSize.toNat * (n + 1) ≤ 2 ^ 64) :
    n = 0 ∨ (addr + pageSize).toNat + pageSize.toNat * n ≤ 2 ^ 64 := by
  rw [Nat.mul_succ] at h
  by_cases hlt : addr.toNat + pageSize.toNat < 2 ^ 64
  · right
    rw [BitVec.toNat_add, Nat.mod_eq_of_lt hlt]
    omega
  · right
    rw [BitVec.toNat_add, show addr.toNat + pageSize.toNat = 2 ^ 64 by omega, Nat.mod_self]
    omega

lemma mem_range_of_mem_pageStarts {addr v : VirtAddr} {pageSize : Word} {n : ℕ}
    (hp : 0 < pageSize.toNat) (h : addr.toNat + pageSize.toNat * n ≤ 2 ^ 64)
    (hv : v ∈ pageStarts addr pageSize n) :
    addr.toNat ≤ v.toNat ∧ v.toNat < addr.toNat + pageSize.toNat * n := by
  obtain ⟨i, hi, he⟩ := toNat_of_mem_pageStarts hp h hv
  have hlt : pageSize.toNat * i < pageSize.toNat * n := Nat.mul_lt_mul_of_pos_left hi hp
  omega

lemma mem_pageStarts_of_le {addr v : VirtAddr} {pageSize : Word} {m n : ℕ} (h : m ≤ n)
    (hv : v ∈ pageStarts addr pageSize m) : v ∈ pageStarts addr pageSize n := by
  obtain ⟨i, hi, rfl⟩ := List.mem_map.mp hv
  exact List.mem_map.mpr ⟨i, List.mem_range.mpr ((List.mem_range.mp hi).trans_le h), rfl⟩

lemma next_not_mem_pageStarts {addr : VirtAddr} {pageSize : Word} {k n : ℕ}
    (hp : 0 < pageSize.toNat) (hk : k < n) (h : addr.toNat + pageSize.toNat * n ≤ 2 ^ 64) :
    addr + BitVec.ofNat 64 k * pageSize ∉ pageStarts addr pageSize k := by
  have hlt : pageSize.toNat * k < pageSize.toNat * n := Nat.mul_lt_mul_of_pos_left hk hp
  have hkk : k ≤ pageSize.toNat * k := Nat.le_mul_of_pos_left k hp
  have hnext : (addr + BitVec.ofNat 64 k * pageSize).toNat =
      addr.toNat + pageSize.toNat * k := by
    rw [BitVec.toNat_add, BitVec.toNat_mul, BitVec.toNat_ofNat,
      Nat.mod_eq_of_lt (a := k) (by omega), Nat.mul_comm k,
      Nat.mod_eq_of_lt (a := pageSize.toNat * k) (by omega)]
    exact Nat.mod_eq_of_lt (by omega)
  intro hm
  have := (mem_range_of_mem_pageStarts hp (by omega) hm).2
  omega

section
variable {α μ : Type} {A : AllocatorOps α} {M : MapOps μ} {pages : μ → VirtAddr → Option Page}
variable {memory : Set PhysAddr}

variable (A) in
/-- The blocks that up to `n` requests in a row are served with. -/
def blocks (pageSize pageAlign : Word) : ℕ → α → List PhysAddr
  | 0, _ => []
  | n + 1, a =>
      match A.alloc pageSize pageAlign a with
      | (none, _) => []
      | (some phys, a) => phys :: blocks pageSize pageAlign n a

lemma length_blocks_le (pageSize pageAlign : Word) (n : ℕ) (a : α) :
    (blocks A pageSize pageAlign n a).length ≤ n := by
  induction n generalizing a with
  | zero => simp [blocks]
  | succ n ih =>
    simp only [blocks]
    split
    · simp
    · simpa using ih _

/-- Held pages are mapped one by one until the allocator refuses; all other pages stay as
they were. -/
theorem mapPages_spec (hA : BlocksOf A memory) (hM : MapContract M pages memory)
    {pageSize pageAlign : Word} {n : ℕ} (halign : pageAlign = pageSize)
    {dest : VirtAddr} {s : Machine α μ} {phys : List PhysAddr} (hp : 0 < pageSize.toNat)
    (hphys : blocks A pageSize pageAlign n s.alloc = phys)
    (hfit : dest.toNat + pageSize.toNat * n ≤ 2 ^ 64)
    (hheld : ∀ v ∈ pageStarts dest pageSize n, pages s.map v = some (pageSize, none)) :
    ∃ s', mapPages A M pageSize pageAlign n dest s =
        (decide (phys.length = n), dest + BitVec.ofNat 64 phys.length * pageSize, s') ∧
      s'.calls = s.calls ++ phys.map .obtained ∧
      (∀ v ∈ pageStarts dest pageSize phys.length, ∃ p,
        pages s'.map v = some (pageSize, some p)) ∧
      ∀ v ∉ pageStarts dest pageSize phys.length, pages s'.map v = pages s.map v := by
  induction n generalizing dest s phys with
  | zero =>
    subst hphys
    exact ⟨s, by simp [mapPages, blocks], by simp [blocks], by simp [blocks, pageStarts],
      by simp⟩
  | succ n ih =>
    cases hal : A.alloc pageSize pageAlign s.alloc with
    | mk answer alloc =>
      cases answer with
      | none =>
        obtain rfl : phys = [] := by simpa [blocks, hal] using hphys.symm
        exact ⟨{ s with alloc }, by simp [mapPages, hal], by simp, by simp [pageStarts],
          by simp⟩
      | some p =>
        rw [pageStarts_succ] at hheld
        set s₁ : Machine α μ :=
          ⟨alloc, M.mapAt dest p ⟨pageSize, 1⟩ {} s.map, s.calls ++ [.obtained p]⟩ with hs₁
        obtain ⟨phys, rfl⟩ : ∃ l, phys = p :: l := by
          simp only [blocks, hal] at hphys
          exact ⟨_, hphys.symm⟩
        have hphys₁ : blocks A pageSize pageAlign n s₁.alloc = phys := by
          simpa [blocks, hal] using hphys
        have hlen : phys.length ≤ n := hphys₁ ▸ length_blocks_le pageSize pageAlign n _
        obtain ⟨hmod, hin⟩ := hA _ _ _ _ _ hal
        rw [halign] at hmod
        have hmap := hM.mapAt_page s.map dest pageSize none p {} (hheld dest (by simp)) hmod hin
        have hnot := head_not_mem_tail hp hfit
        have hheld₁ : ∀ v ∈ pageStarts (dest + pageSize) pageSize n,
            pages s₁.map v = some (pageSize, none) := by
          intro v hv
          have hne : v ≠ dest := fun h => hnot (h ▸ hv)
          rw [hs₁, hmap, Function.update_of_ne hne]
          exact hheld v (List.mem_cons_of_mem _ hv)
        have hfit₁ : (dest + pageSize).toNat + pageSize.toNat * n ≤ 2 ^ 64 := by
          rcases tail_fits hfit with rfl | h
          · simpa using (dest + pageSize).isLt.le
          · exact h
        obtain ⟨s', hrun, hcalls, hmapped, hframe⟩ := ih hphys₁ hfit₁ hheld₁
        have hdest : pages s'.map dest = some (pageSize, some p) := by
          rw [hframe dest fun h => hnot (mem_pageStarts_of_le hlen h), hs₁, hmap,
            Function.update_self]
        refine ⟨s', ?_, by simp [hcalls, hs₁], ?_, ?_⟩
        · simp only [mapPages, hal]
          rw [hrun]
          have hd : dest + pageSize + BitVec.ofNat 64 phys.length * pageSize =
              dest + BitVec.ofNat 64 (phys.length + 1) * pageSize := by
            rw [BitVec.add_assoc]
            congr 1
            apply BitVec.eq_of_toNat_eq
            simp only [BitVec.toNat_mul, BitVec.toNat_add, BitVec.toNat_ofNat,
              Nat.mod_mul_mod, Nat.add_mod_mod]
            rw [Nat.add_mul, Nat.one_mul, Nat.add_comm]
          simp [hd]
        · intro v hv
          rw [List.length_cons, pageStarts_succ, List.mem_cons] at hv
          rcases hv with rfl | hv
          · exact ⟨p, hdest⟩
          · exact hmapped v hv
        · intro v hv
          rw [List.length_cons, pageStarts_succ, List.mem_cons, not_or] at hv
          rw [hframe v hv.2, hs₁, hmap, Function.update_of_ne hv.1]

/-- Mapped pages are unmapped one by one; `Free` gets their virtual addresses. -/
theorem unmapPages_spec (hM : MapContract M pages memory) {pageSize : Word} {n fuel : ℕ}
    {source : VirtAddr} {remaining : Word} {s : Machine α μ} (hp : 0 < pageSize.toNat)
    (hfit : source.toNat + pageSize.toNat * n ≤ 2 ^ 64)
    (hmapped : ∀ v ∈ pageStarts source pageSize n, ∃ p, pages s.map v = some (pageSize, some p))
    (hle : remaining.toNat ≤ pageSize.toNat * n)
    (hlt : ∀ m < n, pageSize.toNat * m < remaining.toNat) (hfuel : n ≤ fuel) :
    ∃ s', unmapPages A M fuel source remaining s = .ok s' ∧
      s'.calls = s.calls ++ (pageStarts source pageSize n).map .freed ∧
      pages s'.map = fun v => if v ∈ pageStarts source pageSize n then none
        else pages s.map v := by
  induction n generalizing source remaining s fuel with
  | zero =>
    have hz : remaining = 0 := BitVec.eq_of_toNat_eq (by simpa using hle)
    refine ⟨s, ?_, by simp [pageStarts], by simp [pageStarts]⟩
    cases fuel <;> simp [unmapPages, hz]
  | succ n ih =>
    obtain ⟨fuel, rfl⟩ : ∃ k, fuel = k + 1 := ⟨fuel - 1, by omega⟩
    have hpos : remaining ≠ 0 := by
      intro hz
      have := hlt n (by omega)
      simp [hz] at this
    rw [pageStarts_succ] at hmapped ⊢
    obtain ⟨p, hpage⟩ := hmapped source (by simp)
    have hread := hM.read_mapped _ _ _ _ hpage
    have hun := hM.unmap_page _ _ _ _ hpage
    have hnot := head_not_mem_tail hp hfit
    set s₁ : Machine α μ := ⟨A.free source s.alloc, M.unmap source ⟨pageSize, 1⟩ s.map,
      s.calls ++ [.freed source]⟩ with hs₁
    by_cases hlast : remaining ≤ pageSize
    · have hn : n = 0 := by
        by_contra hne
        have h1 := hlt 1 (by omega)
        rw [Nat.mul_one] at h1
        exact absurd (BitVec.le_def.mp hlast) (by omega)
      subst hn
      refine ⟨s₁, ?_, by simp [hs₁, pageStarts], ?_⟩
      · simp only [unmapPages, if_neg hpos, hread, if_pos hlast, hs₁]
      funext v
      rw [hs₁, hun]
      by_cases hv : v = source <;> simp [pageStarts, hv, Function.update]
    · have hlt' : pageSize.toNat < remaining.toNat := by
        simpa [BitVec.le_def] using hlast
      have hrem : (remaining - pageSize).toNat = remaining.toNat - pageSize.toNat :=
        BitVec.toNat_sub_of_le (BitVec.le_def.mpr hlt'.le)
      have hfit₁ : (source + pageSize).toNat + pageSize.toNat * n ≤ 2 ^ 64 := by
        rcases tail_fits hfit with rfl | h
        · simpa using (source + pageSize).isLt.le
        · exact h
      have hframe : ∀ v, v ≠ source → pages s₁.map v = pages s.map v := fun v hv => by
        rw [hs₁, hun, Function.update_of_ne hv]
      have hmapped₁ : ∀ v ∈ pageStarts (source + pageSize) pageSize n,
          ∃ p, pages s₁.map v = some (pageSize, some p) := fun v hv => by
        rw [hframe v fun h => hnot (h ▸ hv)]
        exact hmapped v (List.mem_cons_of_mem _ hv)
      have hle₁ : (remaining - pageSize).toNat ≤ pageSize.toNat * n := by
        rw [Nat.mul_succ] at hle
        omega
      have hlt₁ : ∀ m < n, pageSize.toNat * m < (remaining - pageSize).toNat := fun m hm => by
        have := hlt (m + 1) (by omega)
        rw [Nat.mul_succ] at this
        omega
      obtain ⟨s', hrun, hcalls, hpages⟩ :=
        ih hfit₁ hmapped₁ hle₁ hlt₁ (Nat.le_of_succ_le_succ hfuel)
      refine ⟨s', ?_, by simp [hcalls, hs₁], ?_⟩
      · simp only [unmapPages, hpos, hread, hlast, if_false]
        exact hrun
      · rw [hpages]
        funext v
        by_cases hv : v = source
        · subst hv
          rw [if_neg hnot, if_pos (by simp), hs₁, hun, Function.update_self]
        · simp [hv, hframe v hv]

end

end Anarch.AllocatorMapping
