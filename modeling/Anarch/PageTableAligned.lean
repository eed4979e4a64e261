import Anarch.FreeFinderRegion
import Anarch.PageTableLoaded
import Anarch.PageTableSlots

/-! `Set` asserts that its address starts a page of its depth. `SetList` trips the assertion if
and only if its first page does, and the search for a free range never does. -/
namespace Anarch.PageTable

/-- The fault of `Set` for an address that starts no page of the depth. -/
def misaligned : Fault := .assertion "!(addr % (0x1000L << (27 - 9 * theDepth)))"

lemma bind_ne_error {α β : Type} {x : Outcome α} {f : α → Outcome β} {e : Fault}
    (hx : x ≠ .error e) (hf : ∀ a, x = .ok a → f a ≠ .error e) : (x >>= f) ≠ .error e := by
  intro h
  rcases bind_eq_error.mp h with h | ⟨a, ha, h⟩
  · exact hx h
  · exact hf a ha h

lemma ok_ne_error {α : Type} {a : α} {e : Fault} : (.ok a : Outcome α) ≠ .error e := by
  intro h
  cases h

lemma error_ne {α : Type} {e e' : Fault} (h : e ≠ e') : (.error e : Outcome α) ≠ .error e' :=
  fun he => h (Except.error.inj he)

section
variable {α : Type} {A : AllocatorOps α} {pml4 : PhysAddr} {addr : VirtAddr} {s : State α}
variable {entry mask pageSize : Word} {depth n : ℕ}

lemma assertThat_ne_misaligned {expr : String} {holds : Bool} (he : Fault.assertion expr ≠ misaligned) :
    assertThat expr holds ≠ .error misaligned := by
  cases holds with
  | false => exact fun h => he (Except.error.inj h)
  | true => exact ok_ne_error

lemma access_ne_misaligned : access s addr ≠ .error misaligned := by
  unfold access
  split
  · exact error_ne (by simp [misaligned])
  · exact ok_ne_error

lemma readWord_ne_misaligned : readWord s addr ≠ .error misaligned :=
  bind_ne_error access_ne_misaligned fun _ _ => ok_ne_error

lemma writeWord_ne_misaligned : writeWord s addr entry ≠ .error misaligned :=
  bind_ne_error access_ne_misaligned fun _ _ => ok_ne_error

lemma zeroPage_ne_misaligned : zeroPage s addr ≠ .error misaligned :=
  bind_ne_error access_ne_misaligned fun _ _ => ok_ne_error

lemma descend_ne_misaligned : descend A addr mask n depth s ≠ .error misaligned := by
  induction n generalizing depth s with
  | zero => exact ok_ne_error
  | succ n ih =>
    unfold descend
    apply bind_ne_error readWord_ne_misaligned
    intro nextPage _
    split
    · split
      · exact error_ne (by simp [misaligned])
      · apply bind_ne_error writeWord_ne_misaligned
        intro t _
        apply bind_ne_error zeroPage_ne_misaligned
        intro u _
        exact ih
    · split
      · exact ok_ne_error
      · apply bind_ne_error writeWord_ne_misaligned
        intro t _
        exact ih

lemma set_ne_misaligned (halign : addr % pageSizeAt depth = 0) :
    set A pml4 addr entry mask depth s ≠ .error misaligned := by
  unfold set
  apply bind_ne_error (assertThat_ne_misaligned (by decide))
  intro _ _
  apply bind_ne_error (assertThat_ne_misaligned (by decide))
  intro _ _
  apply bind_ne_error
  · rw [decide_eq_true halign]
    exact ok_ne_error
  intro _ _
  apply bind_ne_error descend_ne_misaligned
  intro reached _
  split
  · apply bind_ne_error readWord_ne_misaligned
    intro old _
    apply bind_ne_error writeWord_ne_misaligned
    intro t _
    exact ok_ne_error
  · exact ok_ne_error

lemma setPages_ne_misaligned {overwrote : Bool} (hd : depth ≤ 3)
    (halign : addr % pageSizeAt depth = 0) :
    setPages A pml4 mask depth (pageSizeAt depth) n addr entry overwrote s ≠ .error misaligned := by
  induction n generalizing addr entry overwrote s with
  | zero => exact ok_ne_error
  | succ n ih =>
    unfold setPages
    apply bind_ne_error (set_ne_misaligned halign)
    rintro ⟨_ | found, t⟩ _
    · exact error_ne (by simp [misaligned])
    · exact ih (aligned_next hd halign)

lemma calcDepth_ne_misaligned : calcDepth pageSize ≠ .error misaligned := by
  unfold calcDepth
  split_ifs
  · exact ok_ne_error
  · exact ok_ne_error
  · exact ok_ne_error
  · exact error_ne (by simp [misaligned])

lemma setList_ne_misaligned {size : MemoryMap.Size} (halign : addr % size.pageSize = 0) :
    setList A pml4 addr entry size mask s ≠ .error misaligned := by
  unfold setList
  apply bind_ne_error (assertThat_ne_misaligned (by decide))
  intro _ _
  apply bind_ne_error calcDepth_ne_misaligned
  intro depth hdepth
  obtain ⟨hd, hsize⟩ := calcDepth_eq_pageSizeAt hdepth
  rw [hsize] at halign ⊢
  exact setPages_ne_misaligned hd halign

lemma setList_eq_misaligned {size : MemoryMap.Size} (hset : s.cr3 = pml4)
    (hdepth : calcDepth size.pageSize = .ok depth) (hcount : 0 < size.pageCount.toNat)
    (halign : addr % size.pageSize ≠ 0) :
    setList A pml4 addr entry size mask s = .error misaligned := by
  obtain ⟨hd, hsize⟩ := calcDepth_eq_pageSizeAt hdepth
  obtain ⟨n, hn⟩ := Nat.exists_eq_add_one.mpr hcount
  have hloaded : isSet pml4 s = true := by simp [isSet, hset]
  have hlt : decide (depth < 4) = true := decide_eq_true (by omega)
  have hoff : decide (addr % pageSizeAt depth = 0) = false := decide_eq_false (hsize ▸ halign)
  rw [setList_eq hset hdepth, hn]
  simp only [setPages, set, hloaded, hlt, hoff, assertThat, if_true, Bool.false_eq_true, if_false,
    bind, Except.bind, misaligned]

lemma walkFrom_ne_misaligned : walkFrom s addr n depth entry ≠ .error misaligned := by
  induction n generalizing depth entry with
  | zero => exact ok_ne_error
  | succ n ih =>
    unfold walkFrom
    apply bind_ne_error readWord_ne_misaligned
    intro entry _
    split
    · exact ok_ne_error
    · exact ih

lemma walk_ne_misaligned : walk pml4 addr s ≠ .error misaligned := by
  unfold walk
  apply bind_ne_error (assertThat_ne_misaligned (by decide))
  intro _ _
  apply bind_ne_error walkFrom_ne_misaligned
  intro found _
  split <;> exact ok_ne_error

end

end Anarch.PageTable

namespace Anarch.FreeFinder
open PageTable

section
variable {α : Type} {pml4 : PhysAddr} {table : PageTable.State α} {f : Finder}
variable {addr nextStart : VirtAddr} {size align nextSize : Word} {n : ℕ}

lemma scanHole_ne_misaligned :
    scanHole pml4 table n addr nextStart nextSize ≠ .error misaligned := by
  induction n generalizing addr nextSize with
  | zero => exact error_ne (by simp [misaligned])
  | succ n ih =>
    rw [scanHole_round]
    apply bind_ne_error walk_ne_misaligned
    intro found _
    split_ifs
    · exact ok_ne_error
    · exact ok_ne_error
    · exact ih

lemma scan_ne_misaligned : scan pml4 table n addr f ≠ .error misaligned := by
  induction n generalizing addr f with
  | zero => exact error_ne (by simp [misaligned])
  | succ n ih =>
    rw [scan_round]
    split_ifs
    · apply bind_ne_error scanHole_ne_misaligned
      intro hole _
      exact ih
    · exact ok_ne_error

lemma canAllocate_of_ne (f : Finder) (size : Word) (halign : align ≠ 0) :
    ∃ can, f.canAllocate size align = .ok can := by
  rw [Finder.canAllocate, checkedMod_of_ne halign]
  by_cases hsize : size = 0
  · exact ⟨true, if_pos hsize⟩
  · exact ⟨_, if_neg hsize⟩

lemma take_of_ne (halign : align ≠ 0) : f.take size align =
    .ok (f.freeStart + f.slice align,
      ⟨f.freeStart + f.slice align + size, f.freeSize - f.slice align - size⟩) := by
  rw [Finder.take, checkedMod_of_ne halign]
  rfl

lemma serve_ne_misaligned (halign : align ≠ 0) : serve f size align ≠ .error misaligned := by
  obtain ⟨can, hcan⟩ := canAllocate_of_ne f size halign
  rw [serve, hcan, take_of_ne halign]
  cases can <;> exact ok_ne_error

lemma alloc_ne_misaligned (halign : align ≠ 0) :
    alloc pml4 table size align f ≠ .error misaligned := by
  obtain ⟨can, hcan⟩ := canAllocate_of_ne f size halign
  rw [alloc_eq hcan]
  cases can with
  | true => exact serve_ne_misaligned halign
  | false => exact bind_ne_error scan_ne_misaligned fun _ _ => serve_ne_misaligned halign

end

end Anarch.FreeFinder
