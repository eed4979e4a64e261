import Anarch.PageTableSlots

/-! How many frames the loops over pages take from the allocator: as long as it hands out the
frames in order and has not reached the last one, it does not run out of them. -/
namespace Anarch.PageTable

section
variable {β γ : Type}

/-- A computation ends with no more than the given number of frames handed out, or for another
reason than a lack of frames. -/
def TakesUpTo (total : ℕ) (view : β → State ℕ) : Outcome β → Prop
  | .ok b => (view b).alloc ≤ total
  | .error e => e ≠ .panic "PageTable::Set() - allocation failed"

variable {pml4 : PhysAddr} {addr : VirtAddr} {s t : State ℕ} {total : ℕ}
variable {entry mask pageSize : Word} {depth n : ℕ}

lemma TakesUpTo.bind {more : ℕ} {view : β → State ℕ} {next : γ → State ℕ} {x : Outcome β}
    {f : β → Outcome γ} (hx : TakesUpTo total view x)
    (hf : ∀ b, (view b).alloc ≤ total → TakesUpTo more next (f b)) :
    TakesUpTo more next (x >>= f) := by
  cases x with
  | error e => exact hx
  | ok b => exact hf b hx

lemma access_takes {f : Frame × Index → β} {view : β → State ℕ}
    (hf : ∀ at', (view (f at')).alloc ≤ total) :
    TakesUpTo total view (access s addr >>= fun at' => .ok (f at')) := by
  unfold access
  split
  · exact nofun
  · exact hf _

lemma assertThat_takes {expr : String} {holds : Bool} (hs : s.alloc ≤ total) :
    TakesUpTo total (fun _ => s) (assertThat expr holds) := by
  cases holds with
  | false => exact nofun
  | true => exact hs

lemma readWord_takes (hs : s.alloc ≤ total) :
    TakesUpTo total (fun _ => s) (readWord s addr) := access_takes fun _ => hs

lemma writeWord_takes (hs : s.alloc ≤ total) :
    TakesUpTo total id (writeWord s addr entry) := access_takes fun _ => hs

lemma zeroPage_takes (hs : s.alloc ≤ total) :
    TakesUpTo total id (zeroPage s addr) := access_takes fun _ => hs

lemma descend_takes (hs : s.alloc + n ≤ total) (htotal : total ≤ 2 ^ 40) :
    TakesUpTo total (·.2) (descend nextFrame addr mask n depth s) := by
  induction n generalizing depth s with
  | zero => exact hs
  | succ n ih =>
    have hlt : s.alloc < 2 ^ 40 := by omega
    unfold descend
    apply (readWord_takes (show s.alloc ≤ s.alloc from le_rfl)).bind
    intro nextPage _
    split
    · rw [show nextFrame.alloc 0x1000 0x1000 s.alloc =
        (some (frameAddr (.ofNat 40 s.alloc)), s.alloc + 1) from if_pos hlt]
      apply (writeWord_takes (show _ ≤ s.alloc + 1 from le_rfl)).bind
      intro t ht
      apply (zeroPage_takes ht).bind
      intro u hu
      exact ih (by change u.alloc ≤ _ at hu; omega)
    · split
      · exact (Nat.le_add_right _ _).trans hs
      · apply (writeWord_takes (show s.alloc ≤ s.alloc from le_rfl)).bind
        intro t ht
        exact ih (by change t.alloc ≤ _ at ht; omega)

lemma set_takes (hs : s.alloc + depth ≤ total) (htotal : total ≤ 2 ^ 40) :
    TakesUpTo total (·.2) (set nextFrame pml4 addr entry mask depth s) := by
  have hle : s.alloc ≤ total := (Nat.le_add_right _ _).trans hs
  unfold set
  apply (assertThat_takes hle).bind
  intro _ _
  apply (assertThat_takes hle).bind
  intro _ _
  apply (assertThat_takes hle).bind
  intro _ _
  apply (descend_takes hs htotal).bind
  intro reached hr
  split
  · apply (readWord_takes hr).bind
    intro old _
    apply (writeWord_takes hr).bind
    intro t ht
    exact ht
  · exact hr

lemma setPages_takes {overwrote : Bool} (hs : s.alloc + n * depth ≤ total)
    (htotal : total ≤ 2 ^ 40) :
    TakesUpTo total (·.2)
      (setPages nextFrame pml4 mask depth pageSize n addr entry overwrote s) := by
  induction n generalizing addr entry overwrote s with
  | zero =>
    rw [Nat.zero_mul] at hs
    exact hs
  | succ n ih =>
    rw [Nat.succ_mul] at hs
    unfold setPages
    apply (set_takes (show s.alloc + depth ≤ s.alloc + depth from le_rfl) (by omega)).bind
    rintro ⟨_ | found, t⟩ ht
    · exact fun h => absurd (Fault.panic.inj h) (by decide)
    · exact ih (by change t.alloc ≤ _ at ht; omega)

end

/-- A loaded table that has taken at most so many frames. -/
structure Stocked (pml4 : PhysAddr) (total : ℕ) (s : State ℕ) : Prop where
  tree : Tree firstFrames {0} s
  cr3 : s.cr3 = pml4
  alloc : s.alloc ≤ total

section
variable {pml4 : PhysAddr} {s : State ℕ} {total : ℕ} {start : VirtAddr} {entry mask : Word}
variable {d : ℕ} {size : MemoryMap.Size}

/-- The frame is gone, but nothing points to it. -/
lemma Stocked.next (h : Stocked pml4 total s) (calls : List AllocatorCall) :
    Stocked pml4 (total + 1) { s with alloc := s.alloc + 1, calls } :=
  ⟨⟨h.tree.1, h.tree.2, h.tree.3, h.tree.4, Nat.lt_succ_of_lt h.tree.5,
    fun _ hf => Nat.lt_succ_of_lt (h.tree.6 hf)⟩, h.cr3, Nat.succ_le_succ h.alloc⟩

lemma Stocked.invalidate (h : Stocked pml4 total s) (start : VirtAddr) (bytes : Word) :
    Stocked pml4 total (distributeInvlpg start bytes s) :=
  ⟨h.tree.invalidate start bytes, h.cr3, h.alloc⟩

/-- With enough frames left, `SetList` gives each page its entry. -/
theorem Stocked.setList (h : Stocked pml4 total s) (hm : IsParentMask mask)
    (hdepth : calcDepth size.pageSize = .ok d) (halign : start % size.pageSize = 0)
    (hend : start.toNat + size.span ≤ kernelEnd.toNat) (he : d = 3 ∨ isHuge entry = true)
    (hne : ∀ k < size.pageCount.toNat, pageAt entry size.pageSize k ≠ 0)
    (hold : ∀ x ∈ addresses start size.span, s.slot x = none ∨ ∃ e, s.slot x = some (d, e))
    (hframes : total + size.pageCount.toNat * d ≤ 2 ^ 40) :
    ∃ w t, setList nextFrame pml4 start entry size mask s = .ok (w, t) ∧
      Stocked pml4 (total + size.pageCount.toNat * d) t ∧
      (∀ x ∈ kernelAddresses, x ∉ addresses start size.span → t.slot x = s.slot x) ∧
      ∀ x ∈ addresses start size.span,
        ∃ k < size.pageCount.toNat, t.slot x = some (d, pageAt entry size.pageSize k) := by
  obtain ⟨hd, hsize⟩ := calcDepth_eq_pageSizeAt hdepth
  rw [setList_eq h.cr3 hdepth]
  rw [MemoryMap.Size.span, Nat.mul_comm size.pageSize.toNat] at hend hold ⊢
  have htakes : TakesUpTo (total + size.pageCount.toNat * d) (·.2) (setPages nextFrame pml4 mask d
      size.pageSize size.pageCount.toNat start entry false s) :=
    setPages_takes (Nat.add_le_add_right h.alloc _) hframes
  rcases setPages_slots nextFrame_contract h.tree h.cr3 hsize hd halign hend hm he hne hold false
    with ⟨-, herr⟩ | ⟨w, t, hok, hw, hset⟩
  · rw [herr] at htakes
    exact absurd rfl htakes
  · rw [hok] at htakes
    refine ⟨w, t, hok, ⟨hw.tree, hw.confined.cr3.trans h.cr3, htakes⟩, hw.outside, fun x hx => ?_⟩
    obtain ⟨k, hk, -, hslot⟩ := hset x hx
    exact ⟨k, hk, hslot⟩

end

end Anarch.PageTable
