import Anarch.FreeFinderIntervals

/-! The candidate stays inside the free addresses, whatever is taken out, given back or
reserved. -/
namespace Anarch.FreeFinder
open PageTable RadixTree

namespace Finder
variable {f f' : Finder} {size align : Word} {addr : VirtAddr} {P : Set VirtAddr}

lemma Within.mono {Q : Set VirtAddr} (h : f.Within P) (hPQ : P ⊆ Q) : f.Within Q :=
  ⟨h.end_le, h.free.trans hPQ⟩

lemma within_mk {start n : Word} :
    Within P ⟨start, n⟩ ↔
      start.toNat + n.toNat ≤ kernelEnd.toNat ∧ addresses start n.toNat ⊆ P :=
  ⟨fun h => ⟨h.end_le, h.free⟩, fun h => ⟨h.1, h.2⟩⟩

lemma Within.part {start n : Word} (h : f.Within P) (hstart : f.freeStart.toNat ≤ start.toNat)
    (hend : start.toNat + n.toNat ≤ f.freeStart.toNat + f.freeSize.toNat) :
    start.toNat + n.toNat ≤ kernelEnd.toNat ∧ addresses start n.toNat ⊆ P :=
  ⟨hend.trans h.end_le, fun _ hx => h.free ⟨hstart.trans hx.1, hx.2.trans_le hend⟩⟩

lemma Within.part_off {bytes : ℕ} (h : f.Within P) (hstart : f.freeStart.toNat ≤ f'.freeStart.toNat)
    (hend : f'.freeStart.toNat + f'.freeSize.toNat ≤ f.freeStart.toNat + f.freeSize.toNat)
    (hoff : f'.freeStart.toNat + f'.freeSize.toNat ≤ addr.toNat ∨
      addr.toNat + bytes ≤ f'.freeStart.toNat) : f'.Within (P \ addresses addr bytes) := by
  obtain ⟨hle, hsub⟩ := h.part hstart hend
  refine ⟨hle, fun x hx => ⟨hsub hx, fun hx' => ?_⟩⟩
  rw [mem_addresses] at hx hx'
  omega

lemma Within.take (h : f.Within P) (hfits : f.Fits size align)
    (hok : f.take size align = .ok (addr, f')) :
    addr.toNat + size.toNat ≤ kernelEnd.toNat ∧ addresses addr size.toNat ⊆ P ∧
      f'.Within (P \ addresses addr size.toNat) := by
  have hK : kernelEnd.toNat = 2 ^ 39 := rfl
  have hend := h.end_le
  obtain ⟨haddr, hstart, hsize⟩ := take_toNat (by omega) hfits hok
  rw [Fits] at hfits
  have hpart : addr.toNat + size.toNat ≤ kernelEnd.toNat ∧ addresses addr size.toNat ⊆ P :=
    h.part (by omega) (by omega)
  exact ⟨hpart.1, hpart.2, h.part_off (by omega) (by omega) (.inr (by omega))⟩

lemma Within.give (h : f.Within P) (hend : addr.toNat + size.toNat ≤ kernelEnd.toNat) :
    (f.free addr size).Within (P ∪ addresses addr size.toNat) := by
  have hK : kernelEnd.toNat = 2 ^ 39 := rfl
  have hf := h.end_le
  rcases free_toNat f addr size (by omega) (by omega) with
    ⟨hafter, hstart, hsize⟩ | ⟨hbefore, hstart, hsize⟩ | hsame
  · refine ⟨by omega, fun x hx => ?_⟩
    rw [mem_addresses, hstart, hsize] at hx
    by_cases hx' : x.toNat < f.freeStart.toNat + f.freeSize.toNat
    · exact .inl (h.free ⟨hx.1, hx'⟩)
    · exact .inr ⟨by omega, by omega⟩
  · refine ⟨by omega, fun x hx => ?_⟩
    rw [mem_addresses, hstart, hsize] at hx
    by_cases hx' : x.toNat < f.freeStart.toNat
    · exact .inr ⟨hx.1, by omega⟩
    · exact .inl (h.free ⟨by omega, by omega⟩)
  · rw [hsame]
    exact h.mono Set.subset_union_left

lemma Within.reserve (h : f.Within P) (hend : addr.toNat + size.toNat ≤ kernelEnd.toNat) :
    (f.reserve addr size).Within (P \ addresses addr size.toNat) := by
  have hK : kernelEnd.toNat = 2 ^ 39 := rfl
  have hf := h.end_le
  rcases reserve_toNat f addr size (by omega) (by omega) rfl rfl with
    ⟨hlonger, hstart, hsize⟩ | ⟨-, hpos, hstart, hsize⟩
  · have hstart := congrArg BitVec.toNat hstart
    by_cases hempty : (f.reserve addr size).freeSize.toNat = 0
    · refine ⟨by omega, fun x hx => ?_⟩
      rw [hempty, addresses_zero] at hx
      cases hx
    · exact h.part_off (by omega) (by omega) (.inl (by omega))
  · exact h.part_off (by omega) (by omega) (.inr (by omega))

lemma empty_within (start : VirtAddr) (h : start.toNat ≤ kernelEnd.toNat) :
    Within P ⟨start, 0⟩ :=
  within_mk.mpr ⟨h, by
    rw [show (0 : Word).toNat = 0 from rfl, addresses_zero]
    exact Set.empty_subset _⟩

end Finder

section
variable {α : Type} {used : α → Set Frame} {pml4 : PhysAddr} {s : PageTable.State α}
variable {f f' : Finder} {size align : Word} {P : Set VirtAddr} {r : Option VirtAddr}

/-- The candidate has room for the request, or `Walk` reports every address outside the set. -/
def Ready (s : PageTable.State α) (P : Set VirtAddr) (f : Finder) (size align : Word) : Prop :=
  f.canAllocate size align ≠ .ok true →
    ∀ x ∈ kernelAddresses, s.leaf (index x) = none → x ∈ P

/-- `Alloc` hands out free addresses, and takes them out of the candidate. -/
theorem alloc_spec (ht : Tree used {0} s) (hcr3 : s.cr3 = pml4) (hf : f.Within P)
    (hready : Ready s P f size align)
    (hzero : size = 0 → f.Fits size align) (hok : alloc pml4 s size align f = .ok (r, f')) :
    match r with
    | none => f'.Within P
    | some addr => addr.toNat + size.toNat ≤ kernelEnd.toNat ∧ addresses addr size.toNat ⊆ P ∧
        f'.Within (P \ addresses addr size.toNat) := by
  obtain ⟨g, hg, hserve⟩ := alloc_served hzero hok
  have hgP : g.Within P := by
    rcases hg with rfl | ⟨hno, hscan⟩
    · exact hf
    · obtain ⟨g', hok', hg'⟩ := updateFreeRegion_spec ht hcr3
        (hready (by rw [hno]; simp)) hf
      rwa [← Except.ok.inj (hok'.symm.trans hscan)]
  rcases hserve with ⟨rfl, rfl, -⟩ | ⟨addr, rfl, htake, hfits⟩
  · exact hgP
  · exact hgP.take hfits htake

end

end Anarch.FreeFinder
