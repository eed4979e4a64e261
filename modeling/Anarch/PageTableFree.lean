import Anarch.PageTableMap
import Anarch.PageTableOwnership

/-! `FreeTable` frees the tables of a tree, each once, and then the PML4. -/
namespace Anarch.PageTable
open RadixTree

section
variable {α : Type}

variable {A : AllocatorOps α} {used : α → Set Frame} {I : Set Index} {pml4 : PhysAddr}
variable {s t : State α} {a : ℕ → Index} {d n : ℕ} {f : Frame} {is : List Index}

end

end Anarch.PageTable
