import Anarch.PageTableBooked

/-! The loops over the pages of a range return, and write the entries of the range only. -/
namespace Anarch.PageTable
open RadixTree

section
variable {α : Type} {A : AllocatorOps α} {used : α → Set Frame} {pml4 : PhysAddr} {s t : State α}
variable {start : VirtAddr} {entry mask pageSize : Word} {d n : ℕ}

/-- Every address of a range has a leaf entry of the depth. -/
def State.leavesIn (s : State α) (start : VirtAddr) (bytes d : ℕ) : Prop :=
  ∀ x ∈ addresses start bytes, ∃ e, s.slot x = some (d, e) ∧ (d = 3 ∨ isHuge e = true)

/-- Nothing is changed but the entries of a range, and tables that were not in use. -/
structure Within (used : α → Set Frame) (start : VirtAddr) (bytes : ℕ) (s t : State α) :
    Prop where
  tree : Tree used {0} t
  confined : Confined used {0} s t
  outside : ∀ x ∈ kernelAddresses, x ∉ addresses start bytes → t.slot x = s.slot x

lemma Within.refl (ht : Tree used {0} s) : Within used start 0 s s :=
  ⟨ht, .refl s, fun _ _ _ => rfl⟩

lemma Within.trans {bytes : ℕ} {u : State α} (h : Within used start bytes s t)
    (h' : Within used start bytes t u) : Within used start bytes s u :=
  ⟨h'.tree, h.confined.trans h'.confined,
    fun x hx hx' => (h'.outside x hx hx').trans (h.outside x hx hx')⟩

lemma Within.next {bytes : ℕ} {u : State α}
    (hlt : start.toNat + (pageSize.toNat + bytes) < 2 ^ 64)
    (h : Within used start pageSize.toNat s t) (h' : Within used (start + pageSize) bytes t u) :
    Within used start (pageSize.toNat + bytes) s u := by
  refine ⟨h'.tree, h.confined.trans h'.confined, fun x hx hout => ?_⟩
  rw [h'.outside x hx fun hin => hout (mem_rest hlt hin).1, h.outside x hx fun hin => hout ?_]
  exact ⟨hin.1, hin.2.trans_le (by omega)⟩

lemma aligned_next (hd : d ≤ 3) (h : start % pageSizeAt d = 0) :
    (start + pageSizeAt d) % pageSizeAt d = 0 := by
  have hmod := toNat_mod_of_aligned h
  apply BitVec.eq_of_toNat_eq
  rw [BitVec.toNat_umod, BitVec.toNat_add]
  rw [pageSizeAt_toNat hd] at hmod ⊢
  change _ = 0
  rcases (by omega : d = 0 ∨ d = 1 ∨ d = 2 ∨ d = 3) with rfl | rfl | rfl | rfl
  all_goals
    simp only [Nat.reducePow, Nat.reduceMul, Nat.reduceSub] at *
    omega

section
variable (hA : FrameContract A used) (ht : Tree used {0} s) (hcr3 : s.cr3 = pml4)
variable (hsize : pageSize = pageSizeAt d) (hd : d ≤ 3) (halign : start % pageSize = 0)
variable (hend : start.toNat + n * pageSize.toNat ≤ kernelEnd.toNat)
include hA ht hcr3 hsize hd halign hend

lemma unsetPages_slots (hold : s.leavesIn start (n * pageSize.toNat) d) :
    ∃ t, unsetPages A pml4 pageSize n start s = .ok t ∧
      Within used start (n * pageSize.toNat) s t ∧
      ∀ x ∈ addresses start (n * pageSize.toNat), t.slot x = none := by
  induction n generalizing s start with
  | zero => exact ⟨s, rfl, by rw [Nat.zero_mul]; exact .refl ht, by simp⟩
  | succ n ih =>
    have hpos : 0 < pageSize.toNat := hsize ▸ pageSizeAt_pos hd
    have hK : kernelEnd.toNat = 2 ^ 39 := rfl
    rw [Nat.succ_mul, Nat.add_comm (n * _)] at hend hold ⊢
    have hnext : (start + pageSize).toNat = _ := toNat_next (by omega)
    have hstart : start ∈ kernelAddresses := show start.toNat < kernelEnd.toNat by omega
    obtain ⟨e, hslot, hleaf⟩ := hold start ⟨le_rfl, by omega⟩
    obtain ⟨u, hu, htu, hc, heq⟩ := unset_slot hA ht hcr3 hstart hslot hleaf (hsize ▸ halign)
    rw [← hsize] at heq
    have hfirst : Within used start pageSize.toNat s u :=
      ⟨htu, hc, fun x hx hout => (heq hx).trans (overwrite_of_notMem hout)⟩
    have hrest : u.leavesIn (start + pageSize) (n * pageSize.toNat) d := fun x hx => by
      obtain ⟨hin, hout⟩ := mem_rest (by omega) hx
      rw [hfirst.outside x (addresses_subset_kernel hend hin) hout]
      exact hold x hin
    obtain ⟨t, hok, hw, hnone⟩ := ih htu (hc.cr3.trans hcr3)
      (by rw [hsize] at halign ⊢; exact aligned_next hd halign) (by omega) hrest
    refine ⟨t, by rw [unsetPages, hu]; exact hok, hfirst.next (by omega) hw, fun x hx => ?_⟩
    by_cases hin : x ∈ addresses (start + pageSize) (n * pageSize.toNat)
    · exact hnone x hin
    · have hxK := addresses_subset_kernel hend hx
      rw [hw.outside x hxK hin, heq hxK, overwrite_of_mem]
      rw [mem_addresses] at hx hin ⊢
      omega

lemma setPages_slots (hm : IsParentMask mask) (he : d = 3 ∨ isHuge entry = true)
    (hne : ∀ k < n, pageAt entry pageSize k ≠ 0)
    (hold : ∀ x ∈ addresses start (n * pageSize.toNat),
      s.slot x = none ∨ ∃ e, s.slot x = some (d, e)) (overwrote : Bool) :
    (NoTableForPages A pml4 mask d pageSize n start entry overwrote s ∧
      setPages A pml4 mask d pageSize n start entry overwrote s = .error allocationFailed) ∨
    ∃ w t, setPages A pml4 mask d pageSize n start entry overwrote s = .ok (w, t) ∧
      Within used start (n * pageSize.toNat) s t ∧
      ∀ x ∈ addresses start (n * pageSize.toNat), ∃ k < n,
        x ∈ addresses (pageAt start pageSize k) pageSize.toNat ∧
        t.slot x = some (d, pageAt entry pageSize k) := by
  induction n generalizing s start entry overwrote with
  | zero => exact .inr ⟨overwrote, s, rfl, by rw [Nat.zero_mul]; exact .refl ht, by simp⟩
  | succ n ih =>
    have hpos : 0 < pageSize.toNat := hsize ▸ pageSizeAt_pos hd
    have hmod : pageSize.toNat % 4096 = 0 := hsize ▸ pageSizeAt_mod hd
    have hK : kernelEnd.toNat = 2 ^ 39 := rfl
    rw [Nat.succ_mul, Nat.add_comm (n * _)] at hend hold ⊢
    have hnext : (start + pageSize).toNat = _ := toNat_next (by omega)
    have hstart : start ∈ kernelAddresses := show start.toNat < kernelEnd.toNat by omega
    have hne0 : entry ≠ 0 := by simpa using hne 0 n.succ_pos
    have hlink : d = 3 ∨ link entry = none := he.imp id fun h => link_eq_none.mpr (.inr h)
    rcases set_slot hA ht hcr3 hstart hm hd (hsize ▸ halign) hlink hne0
      (hold start ⟨le_rfl, by omega⟩) with ⟨hnone, herr⟩ | ⟨w, u, hu, htu, hc, heq⟩
    · exact .inl ⟨hnone.forPages, by rw [setPages, herr]; rfl⟩
    rw [← hsize] at heq
    have hfirst : Within used start pageSize.toNat s u :=
      ⟨htu, hc, fun x hx hout => (heq hx).trans (overwrite_of_notMem hout)⟩
    have hrest : ∀ x ∈ addresses (start + pageSize) (n * pageSize.toNat),
        u.slot x = none ∨ ∃ e, u.slot x = some (d, e) := fun x hx => by
      obtain ⟨hin, hout⟩ := mem_rest (by omega) hx
      rw [hfirst.outside x (addresses_subset_kernel hend hin) hout]
      exact hold x hin
    rw [setPages_succ hu]
    rcases ih htu (hc.cr3.trans hcr3) (by rw [hsize] at halign ⊢; exact aligned_next hd halign)
      (by omega) (he.imp id ((isHuge_add_page entry hmod).trans ·))
      (fun k hk => pageAt_succ entry pageSize k ▸ hne (k + 1) (by omega)) hrest
      (if overwrote then true else w) with ⟨hnone, herr⟩ | ⟨w', t, hok, hw, hset⟩
    · exact .inl ⟨hnone.succ hu, herr⟩
    · refine .inr ⟨w', t, hok, hfirst.next (by omega) hw, fun x hx => ?_⟩
      by_cases hin : x ∈ addresses (start + pageSize) (n * pageSize.toNat)
      · obtain ⟨k, hk, hpage, hslot⟩ := hset x hin
        rw [pageAt_succ] at hpage hslot
        exact ⟨k + 1, by omega, hpage, hslot⟩
      · have hxK := addresses_subset_kernel hend hx
        have hpage : x ∈ addresses start pageSize.toNat := by
          rw [mem_addresses] at hx hin ⊢
          omega
        refine ⟨0, n.succ_pos, by rwa [pageAt_zero], ?_⟩
        rw [hw.outside x hxK hin, heq hxK, overwrite_of_mem hpage, pageAt_zero]

end

end

end Anarch.PageTable
