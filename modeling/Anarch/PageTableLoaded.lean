import Anarch.PageTable

/-! Every operation on a page table asserts that the table is the one in CR3: on another it
fails, and on a loaded one the assertion holds and CR3 stays. -/
namespace Anarch.PageTable

/-- The fault of an operation on a table that is not loaded. -/
def notSet : Fault := .assertion "IsSet()"

section
variable {α β γ : Type}

/-- A computation ends with CR3 as given, or for another reason than `IsSet`. -/
def StaysLoaded (pml4 : PhysAddr) (view : β → State α) : Outcome β → Prop
  | .ok b => (view b).cr3 = pml4
  | .error e => e ≠ notSet

variable {A : AllocatorOps α} {pml4 : PhysAddr} {addr : VirtAddr} {s : State α}

lemma StaysLoaded.ne {view : β → State α} {x : Outcome β} (h : StaysLoaded pml4 view x) :
    x ≠ .error notSet := by
  rintro rfl
  exact h rfl

lemma StaysLoaded.bind {view : β → State α} {next : γ → State α} {x : Outcome β}
    {f : β → Outcome γ} (hx : StaysLoaded pml4 view x)
    (hf : ∀ b, (view b).cr3 = pml4 → StaysLoaded pml4 next (f b)) :
    StaysLoaded pml4 next (x >>= f) := by
  cases x with
  | error e => exact hx
  | ok b => exact hf b hx

lemma access_loaded (hs : s.cr3 = pml4) : StaysLoaded pml4 (fun _ => s) (access s addr) := by
  unfold access
  split
  · exact nofun
  · exact hs

lemma readWord_loaded (hs : s.cr3 = pml4) : StaysLoaded pml4 (fun _ => s) (readWord s addr) := by
  unfold readWord
  apply (access_loaded hs).bind
  intro _ h
  exact h

lemma writeWord_loaded (entry : Word) (hs : s.cr3 = pml4) :
    StaysLoaded pml4 id (writeWord s addr entry) := by
  unfold writeWord
  apply (access_loaded hs).bind
  intro _ h
  exact h

lemma zeroPage_loaded (hs : s.cr3 = pml4) : StaysLoaded pml4 id (zeroPage s addr) := by
  unfold zeroPage
  apply (access_loaded hs).bind
  intro _ h
  exact h

lemma assertThat_loaded {expr : String} {holds : Bool} (he : Fault.assertion expr ≠ notSet)
    (hs : s.cr3 = pml4) : StaysLoaded pml4 (fun _ => s) (assertThat expr holds) := by
  cases holds with
  | false => exact he
  | true => exact hs

lemma isSet_loaded (hs : s.cr3 = pml4) :
    StaysLoaded pml4 (fun _ => s) (assertThat "IsSet()" (isSet pml4 s)) := by
  simp only [isSet, hs, decide_true]
  exact hs

lemma descend_loaded (mask : Word) (n depth : ℕ) (hs : s.cr3 = pml4) :
    StaysLoaded pml4 (·.2) (descend A addr mask n depth s) := by
  induction n generalizing depth s with
  | zero => exact hs
  | succ n ih =>
    unfold descend
    apply (readWord_loaded hs).bind
    intro nextPage _
    split
    · split
      · exact nofun
      · apply (writeWord_loaded _ (by exact hs)).bind
        intro t ht
        apply (zeroPage_loaded ht).bind
        intro t ht
        exact ih (depth + 1) ht
    · split
      · exact hs
      · apply (writeWord_loaded _ hs).bind
        intro t ht
        exact ih (depth + 1) ht

lemma set_loaded (entry mask : Word) (depth : ℕ) (hs : s.cr3 = pml4) :
    StaysLoaded pml4 (·.2) (set A pml4 addr entry mask depth s) := by
  unfold set
  apply (isSet_loaded hs).bind
  intro _ _
  apply (assertThat_loaded (by decide) hs).bind
  intro _ _
  apply (assertThat_loaded (by decide) hs).bind
  intro _ _
  apply (descend_loaded mask depth 0 hs).bind
  intro reached hr
  split
  · apply (readWord_loaded hr).bind
    intro old _
    apply (writeWord_loaded entry hr).bind
    intro t ht
    exact ht
  · exact hr

lemma setPages_loaded (mask : Word) (depth : ℕ) (pageSize : Word) (n : ℕ) (phys : PhysAddr)
    (overwrote : Bool) (hs : s.cr3 = pml4) :
    StaysLoaded pml4 (·.2) (setPages A pml4 mask depth pageSize n addr phys overwrote s) := by
  induction n generalizing addr phys overwrote s with
  | zero => exact hs
  | succ n ih =>
    unfold setPages
    apply (set_loaded phys mask depth hs).bind
    rintro ⟨_ | found, t⟩ ht
    · exact nofun
    · exact ih (phys + pageSize) _ ht

lemma calcDepth_loaded (pageSize : Word) (hs : s.cr3 = pml4) :
    StaysLoaded pml4 (fun _ => s) (calcDepth pageSize) := by
  unfold calcDepth
  split_ifs
  · exact hs
  · exact hs
  · exact hs
  · exact nofun

theorem setList_loaded (phys : PhysAddr) (size : MemoryMap.Size) (mask : Word)
    (hs : s.cr3 = pml4) : StaysLoaded pml4 (·.2) (setList A pml4 addr phys size mask s) := by
  unfold setList
  apply (isSet_loaded hs).bind
  intro _ _
  apply (calcDepth_loaded size.pageSize hs).bind
  intro depth _
  exact setPages_loaded mask depth size.pageSize size.pageCount.toNat phys false hs

lemma leafDepth_loaded (n depth : ℕ) (hs : s.cr3 = pml4) :
    StaysLoaded pml4 (fun _ => s) (leafDepth s addr n depth) := by
  induction n generalizing depth with
  | zero => exact hs
  | succ n ih =>
    unfold leafDepth
    apply (readWord_loaded hs).bind
    intro entry _
    split_ifs
    · exact hs
    · exact nofun
    · exact ih (depth + 1)

lemma ascend_loaded (depth : ℕ) (hs : s.cr3 = pml4) :
    StaysLoaded pml4 id (ascend A addr depth s) := by
  induction depth generalizing s with
  | zero => exact hs
  | succ depth ih =>
    unfold ascend
    apply (access_loaded hs).bind
    intro tablePtr _
    split_ifs
    · exact hs
    · apply (readWord_loaded hs).bind
      intro parentEntry _
      apply (writeWord_loaded 0 hs).bind
      intro t ht
      exact ih ht

lemma unset_loaded (hs : s.cr3 = pml4) : StaysLoaded pml4 id (unset A pml4 addr s) := by
  unfold unset
  apply (isSet_loaded hs).bind
  intro _ _
  apply (assertThat_loaded (by decide) hs).bind
  intro _ _
  apply (leafDepth_loaded 3 0 hs).bind
  intro depth _
  apply (writeWord_loaded 0 hs).bind
  intro t ht
  exact ascend_loaded depth ht

theorem unsetPages_loaded (pageSize : Word) (n : ℕ) (hs : s.cr3 = pml4) :
    StaysLoaded pml4 id (unsetPages A pml4 pageSize n addr s) := by
  induction n generalizing addr s with
  | zero => exact hs
  | succ n ih =>
    unfold unsetPages
    apply (unset_loaded hs).bind
    intro t ht
    exact ih ht

lemma assert_isSet_of_ne (hs : s.cr3 ≠ pml4) :
    assertThat "IsSet()" (isSet pml4 s) = .error notSet := by
  simp [assertThat, isSet, hs, notSet]

lemma walk_of_ne (hs : s.cr3 ≠ pml4) : walk pml4 addr s = .error notSet := by
  simp [walk, assert_isSet_of_ne hs, bind, Except.bind]

lemma setList_of_ne (phys : PhysAddr) (size : MemoryMap.Size) (mask : Word)
    (hs : s.cr3 ≠ pml4) : setList A pml4 addr phys size mask s = .error notSet := by
  simp [setList, assert_isSet_of_ne hs, bind, Except.bind]

end

end Anarch.PageTable
