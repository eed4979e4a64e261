import Anarch.ByteMemory
import Mathlib.Data.BitVec
import Mathlib.Tactic.Abel

/-! Stores to memory: what loads find after them, and lists of words that lie in memory one
after the other, as on a stack. -/
namespace Anarch.ByteMemory

/-- The little-endian bytes of a number are put into the next `n` bytes. -/
def storeNat (mem : ByteMemory) (addr : Word) (n v : ℕ) : ByteMemory := fun a =>
  if (a - addr).toNat < n then .ofNat 8 (v / 256 ^ (a - addr).toNat) else mem a

def store64 (mem : ByteMemory) (addr : Word) (v : BitVec 64) : ByteMemory :=
  storeNat mem addr 8 v.toNat

/-- The memories hold the same outside of the `n` bytes from an address on. -/
def SameOff (addr : Word) (n : ℕ) (mem mem' : ByteMemory) : Prop :=
  ∀ a, n ≤ (a - addr).toNat → mem' a = mem a

/-- The memories hold the same in the `n` bytes from an address on. -/
def SameOn (addr : Word) (n : ℕ) (mem mem' : ByteMemory) : Prop :=
  ∀ k < n, mem' (addr + .ofNat 64 k) = mem (addr + .ofNat 64 k)

def Apart (addr : Word) (n : ℕ) (addr' : Word) (k : ℕ) : Prop :=
  n ≤ (addr' - addr).toNat ∧ (addr' - addr).toNat + k ≤ 2 ^ 64

instance (addr : Word) (n : ℕ) (addr' : Word) (k : ℕ) : Decidable (Apart addr n addr' k) :=
  inferInstanceAs (Decidable (_ ∧ _))

/-- The words lie in memory one after the other from an address on. -/
def Words (mem : ByteMemory) : Word → List Word → Prop
  | _, [] => True
  | addr, v :: vs => load64 mem addr = v ∧ Words mem (addr + 8) vs

/-- Memory has these bytes from an address on. -/
def HasBytes (mem : ByteMemory) (addr : Word) (l : List (BitVec 8)) : Prop :=
  ∀ k b, l[k]? = some b → mem (addr + .ofNat 64 k) = b

/-- The number that little-endian bytes stand for. -/
def number : List (BitVec 8) → ℕ
  | [] => 0
  | b :: l => b.toNat + 256 * number l

def fetch (mem : ByteMemory) (addr : Word) (n : ℕ) : List (BitVec 8) :=
  (List.range n).map fun k => mem (addr + .ofNat 64 k)

section
variable {mem mem' mem'' : ByteMemory} {addr addr' : Word} {n k v : ℕ} {vs ws : List Word}

lemma sub_offset (h : k < 2 ^ 64) : (addr + .ofNat 64 k - addr : Word).toNat = k := by
  rw [add_sub_cancel_left, BitVec.toNat_ofNat, Nat.mod_eq_of_lt h]

lemma add_offset (k : ℕ) : addr + .ofNat 64 (k + 1) = addr + 1 + .ofNat 64 k := by
  rw [BitVec.ofNat_add]
  abel

lemma ofNat_add_eight (k : ℕ) : BitVec.ofNat 64 (k + 8) = .ofNat 64 k + 8 := BitVec.ofNat_add k 8

lemma add_offset_eight (k : ℕ) : addr + .ofNat 64 (k + 8) = addr + 8 + .ofNat 64 k := by
  rw [ofNat_add_eight, add_assoc, add_comm 8]

lemma SameOff.refl : SameOff addr n mem mem := fun _ _ => rfl

lemma SameOff.trans (h : SameOff addr n mem mem') (h' : SameOff addr n mem' mem'') :
    SameOff addr n mem mem'' := fun a ha => (h' a ha).trans (h a ha)

lemma SameOn.trans (h : SameOn addr n mem mem') (h' : SameOn addr n mem' mem'') :
    SameOn addr n mem mem'' := fun k hk => (h' k hk).trans (h k hk)

lemma SameOn.mono {m : ℕ} (h : SameOn addr n mem mem') (hm : m ≤ n) : SameOn addr m mem mem' :=
  fun k hk => h k (hk.trans_le hm)

lemma loadNat_of_bytes (h : ∀ k < n, (mem (addr + .ofNat 64 k)).toNat = v / 256 ^ k % 256) :
    loadNat mem addr n = v % 256 ^ n := by
  induction n generalizing addr v with
  | zero => simp [loadNat, Nat.mod_one]
  | succ n ih =>
    have hfirst : (mem addr).toNat = v % 256 := by simpa using h 0 n.succ_pos
    have hrest : loadNat mem (addr + 1) n = v / 256 % 256 ^ n := by
      refine ih fun k hk => ?_
      rw [← add_offset, h (k + 1) (Nat.succ_lt_succ hk), pow_succ', Nat.div_div_eq_div_mul]
    rw [loadNat, hfirst, hrest, pow_succ', Nat.mod_mul]

lemma loadNat_piece {j m : ℕ} (h : ∀ i < n, mem (addr + .ofNat 64 i) = .ofNat 8 (v / 256 ^ i))
    (hm : j + m ≤ n) : loadNat mem (addr + .ofNat 64 j) m = v / 256 ^ j % 256 ^ m := by
  refine loadNat_of_bytes fun i hi => ?_
  rw [add_assoc, ← BitVec.ofNat_add, h (j + i) (by omega), BitVec.toNat_ofNat, pow_add,
    Nat.div_div_eq_div_mul]

lemma storeNat_sameOff : SameOff addr n mem (storeNat mem addr n v) :=
  fun _ ha => if_neg (Nat.not_lt.mpr ha)

lemma store64_sameOff {v : Word} : SameOff addr 8 mem (store64 mem addr v) := storeNat_sameOff

lemma SameOff.within (h : SameOff (addr + .ofNat 64 k) v mem mem') (hv : k + v ≤ n)
    (hn : n ≤ 2 ^ 64) : SameOff addr n mem mem' := by
  intro a ha
  refine h a ?_
  have := (a - addr).isLt
  rw [← sub_sub, BitVec.toNat_sub, BitVec.toNat_ofNat]
  omega

lemma store64_sameOff_range {v : Word} (hk : k + 8 ≤ n) (hn : n ≤ 2 ^ 64) :
    SameOff addr n mem (store64 mem (addr + .ofNat 64 k) v) := store64_sameOff.within hk hn

lemma loadNat_storeNat (hn : n ≤ 2 ^ 64) (hv : v < 256 ^ n) :
    loadNat (storeNat mem addr n v) addr n = v := by
  rw [loadNat_of_bytes (v := v), Nat.mod_eq_of_lt hv]
  intro k hk
  rw [storeNat, sub_offset (hk.trans_le hn), if_pos hk, BitVec.toNat_ofNat]

@[simp] lemma load64_store64 {v : Word} : load64 (store64 mem addr v) addr = v := by
  rw [load64, store64, loadNat_storeNat (by decide) v.isLt, BitVec.ofNat_toNat, BitVec.setWidth_eq]

lemma load64_sameOn (h : SameOn addr 8 mem mem') : load64 mem' addr = load64 mem addr :=
  load64_congr h

/-- A store leaves a range alone that it does not meet: its address lies `n` bytes or more
behind the start of the range, and the range starts eight bytes or more behind it. -/
lemma store64_sameOn {v : Word} (hn : n ≤ (addr' - addr).toNat)
    (h8 : (addr' - addr).toNat + 8 ≤ 2 ^ 64) : SameOn addr n mem (store64 mem addr' v) := by
  intro k hk
  refine store64_sameOff _ ?_
  have hlt := (addr' - addr).isLt
  have hk64 : k < 2 ^ 64 := by omega
  have hsub : addr + .ofNat 64 k - addr' = .ofNat 64 k - (addr' - addr) := by abel
  rw [hsub, BitVec.toNat_sub, BitVec.toNat_ofNat, Nat.mod_eq_of_lt hk64]
  omega

lemma SameOff.below {sp : Word} (h : SameOff (sp - .ofNat 64 n) n mem mem') (hn : n ≤ k)
    (hk : k ≤ 2 ^ 64) : SameOff (sp - .ofNat 64 k) k mem mem' := by
  intro a ha
  refine h a ?_
  have hsub : a - (sp - .ofNat 64 n) = a - (sp - .ofNat 64 k) - (.ofNat 64 k - .ofNat 64 n) := by
    abel
  have := (a - (sp - .ofNat 64 k)).isLt
  rw [hsub, BitVec.toNat_sub, BitVec.toNat_sub, BitVec.toNat_ofNat, BitVec.toNat_ofNat]
  omega

/-- A range stays that lies behind the bytes that change, and before they come around again. -/
lemma SameOff.sameOn (h : SameOff addr' n mem mem') (hn : n ≤ (addr - addr').toNat)
    (hk : (addr - addr').toNat + k ≤ 2 ^ 64) : SameOn addr k mem mem' := by
  intro j hj
  refine h _ ?_
  have hsub : addr + .ofNat 64 j - addr' = addr - addr' + .ofNat 64 j := by abel
  rw [hsub, BitVec.toNat_add, BitVec.toNat_ofNat]
  omega

lemma SameOff.apart (h : SameOff addr n mem mem') (hapart : Apart addr n addr' k) :
    SameOn addr' k mem mem' := h.sameOn hapart.1 hapart.2

lemma SameOn.piece {j m : ℕ} (h : SameOn addr n mem mem') (hm : j + m ≤ n) :
    SameOn (addr + .ofNat 64 j) m mem mem' := by
  intro i hi
  rw [add_assoc, ← BitVec.ofNat_add]
  exact h (j + i) (by omega)

lemma Apart.symm (h : Apart addr n addr' k) (hn : 0 < n) : Apart addr' k addr n := by
  obtain ⟨hbehind, hbefore⟩ := h
  rw [BitVec.toNat_sub] at hbehind hbefore
  rw [Apart, BitVec.toNat_sub]
  omega

lemma Apart.piece {j l : ℕ} (h : Apart addr n addr' k) (hl : 0 < l) (hj : j + l ≤ k) :
    Apart addr n (addr' + .ofNat 64 j) l := by
  have hsub : addr' + .ofNat 64 j - addr = addr' - addr + .ofNat 64 j := by abel
  have := h.1
  have := h.2
  rw [Apart, hsub, BitVec.toNat_add, BitVec.toNat_ofNat]
  omega

lemma load64_store64_apart {v : Word} (h : Apart addr' 8 addr 8) :
    load64 (store64 mem addr' v) addr = load64 mem addr :=
  load64_sameOn (store64_sameOff.apart h)

lemma SameOn.tail (h : SameOn addr (n + 8) mem mem') : SameOn (addr + 8) n mem mem' := by
  intro k hk
  rw [← add_offset_eight]
  exact h (k + 8) (Nat.add_lt_add_right hk 8)

lemma Words.sameOn (h : Words mem addr vs) (hmem : SameOn addr (8 * vs.length) mem mem') :
    Words mem' addr vs := by
  induction vs generalizing addr with
  | nil => trivial
  | cons v vs ih =>
    rw [List.length_cons, Nat.mul_succ] at hmem
    refine ⟨?_, ih h.2 hmem.tail⟩
    rw [load64_sameOn (hmem.mono (Nat.le_add_left 8 _)), h.1]

lemma Words.append (h : Words mem addr (vs ++ ws)) :
    Words mem addr vs ∧ Words mem (addr + .ofNat 64 (8 * vs.length)) ws := by
  induction vs generalizing addr with
  | nil => simpa [Words] using h
  | cons v vs ih =>
    obtain ⟨hvs, hws⟩ := ih h.2
    refine ⟨⟨h.1, hvs⟩, ?_⟩
    rw [List.length_cons, Nat.mul_succ, add_offset_eight]
    exact hws

lemma Words.get {v : Word} (h : Words mem addr vs) (hk : vs[k]? = some v) :
    load64 mem (addr + .ofNat 64 (8 * k)) = v := by
  induction vs generalizing addr k with
  | nil => simp at hk
  | cons w vs ih =>
    cases k with
    | zero => simpa using h.1.trans (Option.some.inj hk)
    | succ k =>
      rw [Nat.mul_succ, add_offset_eight]
      exact ih h.2 hk

lemma Words.push {v : Word} (h : Words mem addr vs) (hfit : 8 * (vs.length + 1) ≤ 2 ^ 64) :
    Words (store64 mem (addr - 8) v) (addr - 8) (v :: vs) := by
  refine ⟨load64_store64, ?_⟩
  rw [sub_add_cancel]
  refine h.sameOn (store64_sameOn ?_ ?_)
  all_goals
    have hsub : addr - 8 - addr = (-8 : Word) := by abel
    rw [hsub, show (-8 : Word).toNat = 2 ^ 64 - 8 from rfl]
    omega

lemma exists_words (mem : ByteMemory) (addr : Word) (n : ℕ) :
    ∃ vs, vs.length = n ∧ Words mem addr vs := by
  induction n generalizing addr with
  | zero => exact ⟨[], rfl, trivial⟩
  | succ n ih =>
    obtain ⟨vs, hlength, hvs⟩ := ih (addr + 8)
    exact ⟨load64 mem addr :: vs, congrArg _ hlength, rfl, hvs⟩

lemma Words.set {v : Word} (h : Words mem addr vs) (hk : k < vs.length)
    (hfit : 8 * vs.length ≤ 2 ^ 64) :
    Words (store64 mem (addr + .ofNat 64 (8 * k)) v) addr (vs.set k v) := by
  induction vs generalizing addr k with
  | nil => exact absurd hk k.not_lt_zero
  | cons w vs ih =>
    rw [List.length_cons] at hk hfit
    cases k with
    | zero =>
      refine ⟨by simp, h.2.sameOn (store64_sameOff.apart ?_)⟩
      have hsub : addr + 8 - (addr + .ofNat 64 (8 * 0)) = 8 := by simp
      rw [Apart, hsub, show (8 : Word).toNat = 8 from rfl]
      omega
    | succ k =>
      constructor
      · refine (load64_store64_apart ?_).trans h.1
        have hsub : addr - (addr + .ofNat 64 (8 * (k + 1))) = 0 - .ofNat 64 (8 * (k + 1)) := by abel
        rw [Apart, hsub, BitVec.toNat_sub, BitVec.toNat_ofNat, show (0 : Word).toNat = 0 from rfl]
        omega
      · rw [Nat.mul_succ, add_offset_eight]
        exact ih h.2 (Nat.lt_of_succ_lt_succ hk) (by omega)

lemma HasBytes.append {l l' : List (BitVec 8)} (h : HasBytes mem addr (l ++ l')) :
    HasBytes mem addr l ∧ HasBytes mem (addr + .ofNat 64 l.length) l' := by
  constructor
  · intro k b hk
    obtain ⟨hlt, -⟩ := List.getElem?_eq_some_iff.mp hk
    exact h k b (by rw [List.getElem?_append_left hlt, hk])
  · intro k b hk
    rw [add_assoc, ← BitVec.ofNat_add]
    exact h (l.length + k) b (by simpa [List.getElem?_append_right] using hk)

lemma HasBytes.sameOn {l : List (BitVec 8)} (h : HasBytes mem addr l)
    (hmem : SameOn addr l.length mem mem') : HasBytes mem' addr l := by
  intro k b hk
  obtain ⟨hlt, -⟩ := List.getElem?_eq_some_iff.mp hk
  rw [hmem k hlt]
  exact h k b hk

@[simp] lemma length_bytes : (bytes n v).length = n := by
  induction n generalizing v with
  | zero => rfl
  | succ n ih => simp [bytes, ih]

lemma bytes_getElem? (hk : k < n) : (bytes n v)[k]? = some (.ofNat 8 (v / 256 ^ k)) := by
  induction n generalizing k v with
  | zero => omega
  | succ n ih =>
    cases k with
    | zero => simp [bytes]
    | succ k =>
      simp [bytes, ih (Nat.lt_of_succ_lt_succ hk), Nat.div_div_eq_div_mul, pow_succ']

lemma number_bytes : number (bytes n v) = v % 256 ^ n := by
  induction n generalizing v with
  | zero => simp [bytes, number, Nat.mod_one]
  | succ n ih =>
    rw [bytes, number, ih, BitVec.toNat_ofNat, show 2 ^ 8 = 256 from rfl, pow_succ', Nat.mod_mul]

lemma number_bytes_toNat (x : BitVec (8 * n)) : number (bytes n x.toNat) = x.toNat := by
  rw [number_bytes, Nat.mod_eq_of_lt]
  exact x.isLt.trans_eq (pow_mul 2 8 n)

lemma HasBytes.loadNat {x : BitVec (8 * n)} (h : HasBytes mem addr (bytes n x.toNat)) :
    loadNat mem addr n = x.toNat := by
  rw [loadNat_of_bytes (v := x.toNat), ← number_bytes, number_bytes_toNat]
  intro k hk
  rw [h k _ (bytes_getElem? hk), BitVec.toNat_ofNat]

lemma HasBytes.fetch {l : List (BitVec 8)} (h : HasBytes mem addr l) :
    fetch mem addr l.length = l := by
  refine List.ext_getElem? fun k => ?_
  by_cases hk : k < l.length
  · simp [ByteMemory.fetch, hk, h k _ (List.getElem?_eq_getElem hk)]
  · simp [ByteMemory.fetch, hk]

end

end Anarch.ByteMemory
