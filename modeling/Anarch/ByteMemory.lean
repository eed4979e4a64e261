import Anarch.ApiTypes

/-! Memory as bytes, read as little-endian fields of packed structures. -/
namespace Anarch

abbrev ByteMemory := Word → BitVec 8

namespace ByteMemory

/-- The number in the next `n` bytes. -/
def loadNat (mem : ByteMemory) (addr : Word) : ℕ → ℕ
  | 0 => 0
  | n + 1 => (mem addr).toNat + 256 * loadNat mem (addr + 1) n

def load8 (mem : ByteMemory) (addr : Word) : BitVec 8 := mem addr

def load32 (mem : ByteMemory) (addr : Word) : BitVec 32 := .ofNat 32 (loadNat mem addr 4)

def load64 (mem : ByteMemory) (addr : Word) : BitVec 64 := .ofNat 64 (loadNat mem addr 8)

/-- The bytes of a list from an address on, zeros elsewhere. -/
def ofBytes (base : Word) (bytes : List (BitVec 8)) : ByteMemory :=
  fun addr => bytes.getD (addr - base).toNat 0

/-- The little-endian bytes of a number. -/
def bytes : ℕ → ℕ → List (BitVec 8)
  | 0, _ => []
  | n + 1, v => .ofNat 8 v :: bytes n (v / 256)

section
variable {mem mem' : ByteMemory} {addr addr' : Word} {n : ℕ}

lemma loadNat_congr (h : ∀ k < n, mem' (addr' + .ofNat 64 k) = mem (addr + .ofNat 64 k)) :
    loadNat mem' addr' n = loadNat mem addr n := by
  induction n generalizing addr addr' with
  | zero => rfl
  | succ n ih =>
    have hfirst : mem' addr' = mem addr := by simpa using h 0 n.succ_pos
    have hrest : loadNat mem' (addr' + 1) n = loadNat mem (addr + 1) n := by
      refine ih fun k hk => ?_
      have hnext := h (k + 1) (Nat.succ_lt_succ hk)
      rw [BitVec.ofNat_add, BitVec.add_comm (.ofNat 64 k), ← BitVec.add_assoc,
        ← BitVec.add_assoc] at hnext
      exact hnext
    rw [loadNat, loadNat, hfirst, hrest]

lemma load32_congr (h : ∀ k < 4, mem' (addr' + .ofNat 64 k) = mem (addr + .ofNat 64 k)) :
    load32 mem' addr' = load32 mem addr := by
  rw [load32, load32, loadNat_congr h]

lemma load64_congr (h : ∀ k < 8, mem' (addr' + .ofNat 64 k) = mem (addr + .ofNat 64 k)) :
    load64 mem' addr' = load64 mem addr := by
  rw [load64, load64, loadNat_congr h]

end

end ByteMemory

end Anarch
