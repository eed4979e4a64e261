import Anarch.ApiTypes
import Mathlib.Algebra.Order.Group.Multiset

/-! The blocks a trace of allocator calls leaves in the hands of the caller. -/
namespace Anarch

/-- The blocks obtained and not yet freed, after some calls. -/
def held : Multiset PhysAddr → List AllocatorCall → Multiset PhysAddr
  | blocks, [] => blocks
  | blocks, .obtained addr :: calls => held (addr ::ₘ blocks) calls
  | blocks, .freed addr :: calls => held (blocks.erase addr) calls

/-- Each block that is freed is held at that moment: none is freed twice. -/
def FreesHeldBlocks : Multiset PhysAddr → List AllocatorCall → Prop
  | _, [] => True
  | blocks, .obtained addr :: calls => FreesHeldBlocks (addr ::ₘ blocks) calls
  | blocks, .freed addr :: calls => addr ∈ blocks ∧ FreesHeldBlocks (blocks.erase addr) calls

lemma held_append (h : Multiset PhysAddr) (l l' : List AllocatorCall) :
    held h (l ++ l') = held (held h l) l' := by
  induction l generalizing h with
  | nil => rfl
  | cons c l ih => cases c <;> exact ih _

lemma held_obtained (h : Multiset PhysAddr) (l : List PhysAddr) :
    held h (l.map .obtained) = h + l := by
  induction l generalizing h with
  | nil => simp [held]
  | cons p l ih => simp [held, ih, ← Multiset.cons_coe]

lemma held_freed (h : Multiset PhysAddr) (l : List PhysAddr) :
    held h (l.map .freed) = h - l := by
  induction l generalizing h with
  | nil => simp [held]
  | cons p l ih => simp [held, ih, ← Multiset.cons_coe, Multiset.sub_cons]

lemma freesHeldBlocks_append (h : Multiset PhysAddr) (l l' : List AllocatorCall) :
    FreesHeldBlocks h (l ++ l') ↔ FreesHeldBlocks h l ∧ FreesHeldBlocks (held h l) l' := by
  induction l generalizing h with
  | nil => exact (iff_of_eq (true_and _)).symm
  | cons c l ih =>
    cases c with
    | obtained addr => exact ih _
    | freed addr => exact (and_congr_right fun _ => ih _).trans and_assoc.symm

end Anarch
