import Anarch.PageTable

/-! Through the recursive entry of its PML4, a page table reaches its own tables: the
address computed for an entry leads the processor to that entry. -/
namespace Anarch.PageTable
open RadixTree

lemma and_not_seven (x : Word) : x &&& ~~~(7 : Word) = x >>> 3 <<< 3 := by
  have hbits : ∀ i : Fin 64, (~~~7#64).getLsbD i = decide (3 ≤ (i : ℕ)) := by decide
  apply BitVec.eq_of_getLsbD_eq
  intro i hi
  have h : (~~~(7 : Word)).getLsbD i = decide (3 ≤ i) := hbits ⟨i, hi⟩
  rw [BitVec.getLsbD_and, h]
  by_cases h3 : 3 ≤ i
  · simp [h3, hi, Nat.not_lt.mpr h3]
  · simp [h3, Nat.lt_of_not_le h3]

lemma and_not_0xfff (x : Word) : x &&& ~~~(0xfff : Word) = x >>> 12 <<< 12 := by
  have hbits : ∀ i : Fin 64, (~~~0xfff#64).getLsbD i = decide (12 ≤ (i : ℕ)) := by decide
  apply BitVec.eq_of_getLsbD_eq
  intro i hi
  have h : (~~~(0xfff : Word)).getLsbD i = decide (12 ≤ i) := hbits ⟨i, hi⟩
  rw [BitVec.getLsbD_and, h]
  by_cases h12 : 12 ≤ i
  · simp [h12, hi, Nat.not_lt.mpr h12]
  · simp [h12, Nat.lt_of_not_le h12]

lemma toNat_and_not_seven (x : Word) : (x &&& ~~~(7 : Word)).toNat = x.toNat / 8 * 8 := by
  have := x.isLt
  rw [and_not_seven, BitVec.toNat_shiftLeft, BitVec.toNat_ushiftRight,
    Nat.shiftRight_eq_div_pow, Nat.shiftLeft_eq]
  omega

lemma toNat_and_not_0xfff (x : Word) :
    (x &&& ~~~(0xfff : Word)).toNat = x.toNat / 4096 * 4096 := by
  have := x.isLt
  rw [and_not_0xfff, BitVec.toNat_shiftLeft, BitVec.toNat_ushiftRight,
    Nat.shiftRight_eq_div_pow, Nat.shiftLeft_eq]
  omega

lemma toNat_low48 (a : Word) : (a &&& 0xFFFFFFFFFFFF).toNat = a.toNat % 2 ^ 48 := by
  rw [BitVec.toNat_and]
  exact Nat.and_two_pow_sub_one_eq_mod _ 48

lemma index_toNat (a : VirtAddr) (d : ℕ) :
    (index a d).toNat = a.toNat / 2 ^ (39 - 9 * d) % 512 := by
  simp [index, BitVec.toNat_setWidth, BitVec.toNat_ushiftRight, Nat.shiftRight_eq_div_pow]

/-- The entry's address: the recursive prefix, then the indices of the address, moved
down. -/
lemma getTableEntry_toNat (a : VirtAddr) {d : ℕ} (hd : d < 4) :
    (getTableEntry a d).toNat =
      2 ^ 64 - 2 ^ (12 + 9 * d) + a.toNat % 2 ^ 48 / 2 ^ (36 - 9 * d) / 8 * 8 := by
  have hlt : a.toNat % 2 ^ 48 < 2 ^ 48 := Nat.mod_lt _ (by decide)
  rcases (by omega : d = 0 ∨ d = 1 ∨ d = 2 ∨ d = 3) with rfl | rfl | rfl | rfl <;>
    simp only [getTableEntry, BitVec.toNat_add, toNat_and_not_seven, BitVec.toNat_udiv,
      toNat_low48, BitVec.reduceToNat, Nat.reducePow, Nat.reduceMul, Nat.reduceAdd,
      Nat.reduceSub] at hlt ⊢ <;> omega

lemma index_getTableEntry_self (a : VirtAddr) {d k : ℕ} (hk : k + d < 4) :
    index (getTableEntry a d) k = 0x1ff := by
  have hlt : a.toNat % 2 ^ 48 < 2 ^ 48 := Nat.mod_lt _ (by decide)
  apply BitVec.eq_of_toNat_eq
  rw [index_toNat, getTableEntry_toNat a (by omega)]
  rcases (by omega : d = 0 ∨ d = 1 ∨ d = 2 ∨ d = 3) with rfl | rfl | rfl | rfl <;>
    rcases (by omega : k = 0 ∨ k = 1 ∨ k = 2 ∨ k = 3) with rfl | rfl | rfl | rfl <;>
    first
      | (exfalso; omega)
      | (simp only [BitVec.reduceToNat, Nat.reducePow, Nat.reduceMul, Nat.reduceAdd,
          Nat.reduceSub] at hlt ⊢; omega)

lemma index_getTableEntry (a : VirtAddr) {d k : ℕ} (hd : d < 4) (hk : k < d) :
    index (getTableEntry a d) (4 - d + k) = index a k := by
  have hlt : a.toNat % 2 ^ 48 < 2 ^ 48 := Nat.mod_lt _ (by decide)
  apply BitVec.eq_of_toNat_eq
  rw [index_toNat, index_toNat, getTableEntry_toNat a hd]
  rcases (by omega : d = 0 ∨ d = 1 ∨ d = 2 ∨ d = 3) with rfl | rfl | rfl | rfl <;>
    rcases (by omega : k = 0 ∨ k = 1 ∨ k = 2) with rfl | rfl | rfl <;>
    first
      | (exfalso; omega)
      | (simp only [Nat.reducePow, Nat.reduceMul, Nat.reduceAdd, Nat.reduceSub] at hlt ⊢; omega)

lemma word_getTableEntry (a : VirtAddr) {d : ℕ} (hd : d < 4) :
    (((getTableEntry a d).setWidth 12 : BitVec 12) >>> 3).setWidth 9 = index a d := by
  have hlt : a.toNat % 2 ^ 48 < 2 ^ 48 := Nat.mod_lt _ (by decide)
  apply BitVec.eq_of_toNat_eq
  rw [index_toNat, BitVec.toNat_setWidth, BitVec.toNat_ushiftRight, BitVec.toNat_setWidth,
    Nat.shiftRight_eq_div_pow, getTableEntry_toNat a hd]
  rcases (by omega : d = 0 ∨ d = 1 ∨ d = 2 ∨ d = 3) with rfl | rfl | rfl | rfl <;>
    (simp only [Nat.reducePow, Nat.reduceMul, Nat.reduceAdd, Nat.reduceSub] at hlt ⊢; omega)

lemma index_getTableStart (a : VirtAddr) (d : ℕ) {k : ℕ} (hk : k < 4) :
    index (getTableStart a d) k = index (getTableEntry a d) k := by
  apply BitVec.eq_of_toNat_eq
  rw [index_toNat, index_toNat, getTableStart, toNat_and_not_0xfff]
  rcases (by omega : k = 0 ∨ k = 1 ∨ k = 2 ∨ k = 3) with rfl | rfl | rfl | rfl <;>
    (simp only [Nat.reducePow, Nat.reduceMul, Nat.reduceSub]; omega)

lemma offset_getTableStart (a : VirtAddr) (d : ℕ) :
    (getTableStart a d).setWidth 12 = 0#12 := by
  apply BitVec.eq_of_toNat_eq
  rw [BitVec.toNat_setWidth, getTableStart, toNat_and_not_0xfff, BitVec.toNat_ofNat]
  omega

lemma canonical_of_le {a : VirtAddr} (h : 2 ^ 64 - 2 ^ 47 ≤ a.toNat) : canonical a = true := by
  have hlt := a.isLt
  have htop : a.sshiftRight 47 = -1 := by
    apply BitVec.eq_of_toInt_eq
    rw [BitVec.toInt_sshiftRight, Int.shiftRight_eq_div_pow, BitVec.toInt_eq_toNat_cond,
      if_neg (by omega), show (-1 : Word).toInt = -1 by decide]
    omega
  simp [canonical, htop]

lemma canonical_of_lt {a : VirtAddr} (h : a.toNat < 2 ^ 47) : canonical a = true := by
  have hzero : a.sshiftRight 47 = 0 := by
    apply BitVec.eq_of_toInt_eq
    rw [BitVec.toInt_sshiftRight, Int.shiftRight_eq_div_pow, BitVec.toInt_eq_toNat_cond,
      if_pos (by omega), show (0 : Word).toInt = 0 by decide]
    omega
  simp [canonical, hzero]

lemma halves_of_canonical {a : VirtAddr} (h : canonical a = true) :
    a.toNat < 2 ^ 47 ∨ 2 ^ 64 - 2 ^ 47 ≤ a.toNat := by
  have hlt := a.isLt
  rw [canonical, Bool.or_eq_true, decide_eq_true_eq, decide_eq_true_eq] at h
  have hint : (a.sshiftRight 47).toInt = a.toInt / 2 ^ 47 := by
    rw [BitVec.toInt_sshiftRight, Int.shiftRight_eq_div_pow]
    norm_cast
  have hcond := BitVec.toInt_eq_toNat_cond a
  rcases h with h | h
  · rw [h, show (0 : Word).toInt = 0 by decide] at hint
    split_ifs at hcond <;> omega
  · rw [h, show (-1 : Word).toInt = -1 by decide] at hint
    split_ifs at hcond <;> omega

lemma canonical_getTableEntry (a : VirtAddr) {d : ℕ} (hd : d < 4) :
    canonical (getTableEntry a d) = true := by
  apply canonical_of_le
  rw [getTableEntry_toNat a hd]
  rcases (by omega : d = 0 ∨ d = 1 ∨ d = 2 ∨ d = 3) with rfl | rfl | rfl | rfl <;> omega

lemma canonical_getTableStart (a : VirtAddr) {d : ℕ} (hd : d < 4) :
    canonical (getTableStart a d) = true := by
  apply canonical_of_le
  rw [getTableStart, toNat_and_not_0xfff, getTableEntry_toNat a hd]
  rcases (by omega : d = 0 ∨ d = 1 ∨ d = 2 ∨ d = 3) with rfl | rfl | rfl | rfl <;> omega

/-- The table an entry points to. -/
def link (entry : Word) : Option Frame :=
  if isPresent entry && !isHuge entry then some (frameOf entry) else none

lemma link_eq_some {entry : Word} {f : Frame} :
    link entry = some f ↔ isPresent entry ∧ isHuge entry = false ∧ frameOf entry = f := by
  simp [link, and_assoc]

lemma link_eq_none {entry : Word} :
    link entry = none ↔ isPresent entry = false ∨ isHuge entry := by
  cases hp : isPresent entry <;> cases hh : isHuge entry <;> simp [link, hp, hh]

/-- The frame of the PML4 in CR3. -/
abbrev State.root {α : Type} (s : State α) : Frame := frameOf s.cr3

abbrev State.tableAt {α : Type} (s : State α) (a : ℕ → Index) (d : ℕ) : Option Frame :=
  table link s.root s.mem a d

variable {mem : PhysMem} {root f : Frame} {a : VirtAddr} {d : ℕ}

lemma translate_of_table {cr3 : PhysAddr} (hc : canonical a = true)
    (ht : table link (frameOf cr3) mem (index a) 4 = some f) :
    translate mem cr3 a = some (f, a.setWidth 12) := by
  obtain ⟨f3, h3, hf⟩ := table_succ_eq_some.mp ht
  obtain ⟨f2, h2, hf3⟩ := table_succ_eq_some.mp h3
  obtain ⟨f1, h1, hf2⟩ := table_succ_eq_some.mp h2
  obtain ⟨f0, h0, hf1⟩ := table_succ_eq_some.mp h1
  obtain rfl : frameOf cr3 = f0 := Option.some.inj h0
  obtain ⟨hp0, hh0, rfl⟩ := link_eq_some.mp hf1
  obtain ⟨hp1, hh1, rfl⟩ := link_eq_some.mp hf2
  obtain ⟨hp2, hh2, rfl⟩ := link_eq_some.mp hf3
  obtain ⟨hp3, -, rfl⟩ := link_eq_some.mp hf
  unfold translate
  extract_lets e0 e1 e2 e3
  rw [if_neg (by rw [hc, hp0, hh0, hp1]; decide), if_neg (by rw [hh1]; decide),
    if_neg (by rw [hp2]; decide), if_neg (by rw [hh2]; decide), if_neg (by rw [hp3]; decide)]

lemma table_self {b : ℕ → Index} {n : ℕ} (hself : link (mem root 0x1ff) = some root)
    (hn : ∀ j < n, b j = 0x1ff) : table link root mem b n = some root := by
  induction n with
  | zero => rfl
  | succ n ih => rw [table_succ (ih fun j hj => hn j (by omega)), hn n n.lt_succ_self, hself]

/-- A key that starts with `n` self entries has the tables of its rest. -/
lemma table_self_add {a b : ℕ → Index} {n k : ℕ} (hself : link (mem root 0x1ff) = some root)
    (hn : ∀ j < n, b j = 0x1ff) (hk : ∀ j < k, b (n + j) = a j) :
    table link root mem b (n + k) = table link root mem a k := by
  induction k with
  | zero => exact table_self hself hn
  | succ k ih =>
    have hprev := ih fun j hj => hk j (by omega)
    have hdigit := hk k k.lt_succ_self
    change (table link root mem b (n + k)).bind (fun f => link (mem f (b (n + k)))) = _
    rw [hprev, hdigit]
    rfl

lemma table_getTableEntry (hself : link (mem root 0x1ff) = some root) (hd : d < 4) :
    table link root mem (index (getTableEntry a d)) 4 = table link root mem (index a) d := by
  have := table_self_add (a := index a) (b := index (getTableEntry a d)) (n := 4 - d) (k := d)
    hself (fun j hj => index_getTableEntry_self a (by omega))
    (fun j hj => index_getTableEntry a hd hj)
  rwa [Nat.sub_add_cancel hd.le] at this

section
variable {α : Type} {s : State α}

lemma access_of_table {v : VirtAddr} (hc : canonical v = true)
    (ht : s.tableAt (index v) 4 = some f) :
    access s v = .ok (f, ((v.setWidth 12 : BitVec 12) >>> 3).setWidth 9) := by
  unfold access
  rw [translate_of_table hc ht]

lemma access_getTableEntry (hself : link (s.mem s.root 0x1ff) = some s.root) (hd : d < 4)
    (hf : s.tableAt (index a) d = some f) : access s (getTableEntry a d) = .ok (f, index a d) := by
  rw [access_of_table (canonical_getTableEntry a hd) ((table_getTableEntry hself hd).trans hf),
    word_getTableEntry a hd]

lemma access_getTableStart (hself : link (s.mem s.root 0x1ff) = some s.root) (hd : d < 4)
    (hf : s.tableAt (index a) d = some f) : access s (getTableStart a d) = .ok (f, 0) := by
  have hindex : Agree 4 (index (getTableStart a d)) (index (getTableEntry a d)) :=
    fun k hk => index_getTableStart a d hk
  rw [access_of_table (canonical_getTableStart a hd)
    ((table_congr hindex).trans ((table_getTableEntry hself hd).trans hf)),
    offset_getTableStart]
  rfl

def State.put (s : State α) (f : Frame) (i : Index) (e : Word) : State α :=
  { s with mem := s.mem.write f i e }

@[simp] lemma put_mem (s : State α) (f : Frame) (i : Index) (e : Word) :
    (s.put f i e).mem = s.mem.write f i e := rfl

lemma readWord_entry (hself : link (s.mem s.root 0x1ff) = some s.root) (hd : d < 4)
    (hf : s.tableAt (index a) d = some f) :
    readWord s (getTableEntry a d) = .ok (s.mem f (index a d)) := by
  rw [readWord, access_getTableEntry hself hd hf]
  rfl

lemma writeWord_entry (hself : link (s.mem s.root 0x1ff) = some s.root) (hd : d < 4)
    (hf : s.tableAt (index a) d = some f) (e : Word) :
    writeWord s (getTableEntry a d) e = .ok (s.put f (index a d) e) := by
  rw [writeWord, access_getTableEntry hself hd hf]
  rfl

lemma zeroPage_table (hself : link (s.mem s.root 0x1ff) = some s.root) (hd : d < 4)
    (hf : s.tableAt (index a) d = some f) :
    zeroPage s (getTableStart a d) = .ok { s with mem := s.mem.fill f 0 } := by
  rw [zeroPage, access_getTableStart hself hd hf]
  rfl

end

end Anarch.PageTable
