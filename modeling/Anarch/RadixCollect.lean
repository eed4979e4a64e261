import Anarch.RadixTables
import Mathlib.Data.List.Nodup

/-! The list of the tables of a radix tree, children before their parent. -/
namespace Anarch.RadixTree

variable {F ι E : Type*} {link : E → Option F} {root : F} {m : Store F ι E} {I : Set ι}
variable {a b : ℕ → ι} {d k n : ℕ} {f x : F} {is : List ι}

lemma agree_update (a : ℕ → ι) (d : ℕ) (i : ι) : Agree d a (Function.update a d i) :=
  fun k hk => by rw [Function.update_of_ne hk.ne]

variable {all : List ι}

end Anarch.RadixTree
