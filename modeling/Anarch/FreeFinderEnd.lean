import Anarch.FreeFinderIntervals

/-! The end of the candidate, over any page table: no search, request or release moves it past
the end of the kernel half, unless a request for nothing skips more than the candidate holds. -/
namespace Anarch.FreeFinder
open PageTable

def Finder.last (f : Finder) : ℕ := f.freeStart.toNat + f.freeSize.toNat

section
variable {α : Type} {pml4 : PhysAddr} {s : PageTable.State α} {f f' : Finder}
variable {addr : VirtAddr} {size align : Word} {n : ℕ}

lemma walkFrom_depth {depth : ℕ} {entry : Word} {found : ℕ × Word}
    (hok : walkFrom s addr n depth entry = .ok found) : found.1 ≤ depth + n := by
  induction n generalizing depth entry with
  | zero =>
    obtain rfl := Except.ok.inj hok
    exact le_rfl
  | succ n ih =>
    obtain ⟨entry, -, hok⟩ := bind_eq_ok.mp hok
    split_ifs at hok
    · obtain rfl := Except.ok.inj hok
      exact Nat.le_add_right depth (n + 1)
    · exact (ih hok).trans (by omega)

lemma walk_size {found : WalkResult} (hok : walk pml4 addr s = .ok found) :
    ∃ d ≤ 3, found.size = pageSizeAt d := by
  obtain ⟨_, -, hok⟩ := bind_eq_ok.mp hok
  obtain ⟨⟨depth, entry⟩, hfrom, hok⟩ := bind_eq_ok.mp hok
  have hdepth : depth ≤ 0 + 4 := walkFrom_depth hfrom
  simp only at hok
  split_ifs at hok with hleaf hlast
  · obtain rfl := Except.ok.inj hok
    exact ⟨3, le_rfl, rfl⟩
  · obtain rfl := Except.ok.inj hok
    exact ⟨depth, by omega, rfl⟩
  · obtain rfl := Except.ok.inj hok
    have hne : depth ≠ 4 := fun h => hleaf (by simp [h])
    exact ⟨depth, by omega, rfl⟩

lemma walk_size_le {found : WalkResult} (hok : walk pml4 addr s = .ok found) :
    found.size.toNat ≤ 2 ^ 39 := by
  obtain ⟨d, hd, hsize⟩ := walk_size hok
  rw [hsize, pageSizeAt_toNat hd]
  exact Nat.pow_le_pow_right two_pos (by omega)

lemma scanHole_last (nextStart : VirtAddr) (nextSize : Word) {found : VirtAddr × Word}
    (hlt : nextStart.toNat + nextSize.toNat < kernelEnd.toNat)
    (hok : scanHole pml4 s n addr nextStart nextSize = .ok found) :
    nextStart.toNat + found.2.toNat ≤ kernelEnd.toNat := by
  have hK : kernelEnd.toNat = 2 ^ 39 := rfl
  induction n generalizing addr nextSize with
  | zero => cases hok
  | succ n ih =>
    rw [scanHole_round] at hok
    obtain ⟨page, hwalk, hok⟩ := bind_eq_ok.mp hok
    have hpage := walk_size_le hwalk
    have hsize : (nextSize + page.size).toNat = _ := toNat_next (by omega)
    have hnext : (nextStart + (nextSize + page.size)).toNat = _ := toNat_next (by omega)
    split_ifs at hok with hleaf hlast
    · obtain rfl := Except.ok.inj hok
      exact hlt.le
    · obtain rfl := Except.ok.inj hok
      have hrest : (kernelEnd - nextStart).toNat = _ :=
        BitVec.toNat_sub_of_le (BitVec.le_def.mpr (by omega))
      show nextStart.toNat + (kernelEnd - nextStart).toNat ≤ _
      omega
    · rw [BitVec.le_def, hnext] at hlast
      exact ih _ (by omega) hok

lemma updateFreeRegion_last (hf : f.last ≤ kernelEnd.toNat)
    (hok : updateFreeRegion pml4 s f = .ok f') : f'.last ≤ kernelEnd.toNat := by
  have hscan : ∀ {n addr f}, f.last ≤ kernelEnd.toNat → scan pml4 s n addr f = .ok f' →
      f'.last ≤ kernelEnd.toNat := by
    intro n addr f hf hok
    induction n generalizing addr f with
    | zero => cases hok
    | succ n ih =>
      rw [scan_round] at hok
      split_ifs at hok with hlt
      · obtain ⟨⟨addr', nextSize⟩, hhole, hok⟩ := bind_eq_ok.mp hok
        have hend : addr.toNat + nextSize.toNat ≤ kernelEnd.toNat :=
          scanHole_last addr 0 (BitVec.lt_def.mp hlt) hhole
        refine ih ?_ hok
        split_ifs
        · exact hend
        · exact hf
      · obtain rfl := Except.ok.inj hok
        exact hf
  exact hscan hf hok

lemma take_last (hf : f.last ≤ kernelEnd.toNat) (hfits : f.Fits size align)
    (hok : f.take size align = .ok (addr, f')) :
    f'.last = f.last ∧ addr.toNat + size.toNat = f'.freeStart.toNat := by
  have hK : kernelEnd.toNat = 2 ^ 39 := rfl
  rw [Finder.last] at hf
  obtain ⟨haddr, hstart, hsize⟩ := Finder.take_toNat (by omega) hfits hok
  rw [Finder.Fits] at hfits
  refine ⟨?_, hstart.symm⟩
  rw [Finder.last, Finder.last]
  omega

lemma alloc_last (hf : f.last ≤ kernelEnd.toNat) (hzero : size = 0 → f.Fits size align)
    {r : Option VirtAddr} (hok : alloc pml4 s size align f = .ok (r, f')) :
    f'.last ≤ kernelEnd.toNat ∧ (r = none → size ≠ 0) ∧
      ∀ addr ∈ r, addr.toNat + size.toNat = f'.freeStart.toNat := by
  obtain ⟨g, hg, hserve⟩ := alloc_served hzero hok
  have hlast : g.last ≤ kernelEnd.toNat := by
    rcases hg with rfl | ⟨-, hscan⟩
    · exact hf
    · exact updateFreeRegion_last hf hscan
  rcases hserve with ⟨rfl, rfl, hsize⟩ | ⟨addr, rfl, htake, hfits⟩
  · exact ⟨hlast, fun _ => hsize, by simp⟩
  · obtain ⟨hsame, hstart⟩ := take_last hlast hfits htake
    refine ⟨hsame ▸ hlast, by simp, ?_⟩
    rintro _ ⟨⟩
    exact hstart

lemma free_last (hf : f.last ≤ kernelEnd.toNat)
    (hend : addr.toNat + size.toNat ≤ kernelEnd.toNat) :
    (f.free addr size).last ≤ kernelEnd.toNat := by
  have hK : kernelEnd.toNat = 2 ^ 39 := rfl
  simp only [Finder.last] at hf ⊢
  rcases Finder.free_toNat f addr size (by omega) (by omega) with
    ⟨hafter, hstart, hsize⟩ | ⟨hbefore, hstart, hsize⟩ | hsame
  · omega
  · omega
  · rwa [hsame]

lemma free_last_eq (hf : f.last ≤ kernelEnd.toNat) (hlt : addr.toNat < f.last)
    (hsize : size.toNat ≤ 2 ^ 39) : (f.free addr size).last = f.last := by
  have hK : kernelEnd.toNat = 2 ^ 39 := rfl
  simp only [Finder.last] at hf hlt ⊢
  rcases Finder.free_toNat f addr size (by omega) (by omega) with
    ⟨hafter, -, -⟩ | ⟨hbefore, hstart, hsize⟩ | hsame
  · omega
  · omega
  · rw [hsame]

end

end Anarch.FreeFinder
