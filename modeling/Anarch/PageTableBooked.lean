import Anarch.PageTableMapRun
import Anarch.PageTablePages
import Mathlib.Data.Set.Piecewise

/-! Which kernel addresses the page table has an entry for, mapped or reserved, and with what
page size. The loops over the pages of a range book it or give it back. -/
namespace Anarch.PageTable
open RadixTree

def addresses (start : VirtAddr) (bytes : ℕ) : Set VirtAddr :=
  {x | start.toNat ≤ x.toNat ∧ x.toNat < start.toNat + bytes}

instance (start : VirtAddr) (bytes : ℕ) : DecidablePred (· ∈ addresses start bytes) :=
  fun x => inferInstanceAs (Decidable (start.toNat ≤ x.toNat ∧ x.toNat < start.toNat + bytes))

lemma mem_addresses {start x : VirtAddr} {bytes : ℕ} :
    x ∈ addresses start bytes ↔ start.toNat ≤ x.toNat ∧ x.toNat < start.toNat + bytes := Iff.rfl

@[simp] lemma addresses_zero (start : VirtAddr) : addresses start 0 = ∅ :=
  Set.eq_empty_of_forall_notMem fun _ h => absurd (h.1.trans_lt h.2) (lt_irrefl _)

lemma toNat_next {start size : Word} (h : start.toNat + size.toNat < 2 ^ 64) :
    (start + size).toNat = start.toNat + size.toNat := by
  rw [BitVec.toNat_add]
  exact Nat.mod_eq_of_lt h

lemma mem_rest {start size x : Word} {bytes : ℕ}
    (h : start.toNat + (size.toNat + bytes) < 2 ^ 64) (hx : x ∈ addresses (start + size) bytes) :
    x ∈ addresses start (size.toNat + bytes) ∧ x ∉ addresses start size.toNat := by
  rw [mem_addresses, toNat_next (by omega)] at hx
  exact ⟨mem_addresses.mpr ⟨by omega, by omega⟩, fun hx' => by have := hx'.2; omega⟩

section
variable {β : Type} {start x : VirtAddr} {bytes : ℕ} {v : β} {L L' : VirtAddr → β}

/-- A map of addresses with a new value in a range. -/
def overwrite (start : VirtAddr) (bytes : ℕ) (v : β) (L : VirtAddr → β) : VirtAddr → β :=
  (addresses start bytes).piecewise (fun _ => v) L

lemma overwrite_of_mem (h : x ∈ addresses start bytes) : overwrite start bytes v L x = v :=
  Set.piecewise_eq_of_mem _ _ _ h

lemma overwrite_of_notMem (h : x ∉ addresses start bytes) : overwrite start bytes v L x = L x :=
  Set.piecewise_eq_of_notMem _ _ _ h

lemma overwrite_zero : overwrite start 0 v L = L :=
  funext fun _ => overwrite_of_notMem (by simp)

lemma overwrite_append {size : Word} (h : start.toNat + (size.toNat + bytes) < 2 ^ 64) :
    overwrite (start + size) bytes v (overwrite start size.toNat v L) =
      overwrite start (size.toNat + bytes) v L := by
  funext x
  by_cases hx : x ∈ addresses (start + size) bytes
  · rw [overwrite_of_mem hx, overwrite_of_mem (mem_rest h hx).1]
  · rw [overwrite_of_notMem hx]
    rw [mem_addresses, toNat_next (by omega)] at hx
    by_cases hx' : x ∈ addresses start size.toNat
    · rw [overwrite_of_mem hx', overwrite_of_mem ⟨hx'.1, by have := hx'.2; omega⟩]
    · rw [overwrite_of_notMem hx', overwrite_of_notMem]
      rw [mem_addresses] at hx' ⊢
      omega

lemma overwrite_overwrite (w : β) :
    overwrite start bytes v (overwrite start bytes w L) = overwrite start bytes v L := by
  funext x
  by_cases hx : x ∈ addresses start bytes
  · rw [overwrite_of_mem hx, overwrite_of_mem hx]
  · rw [overwrite_of_notMem hx, overwrite_of_notMem hx, overwrite_of_notMem hx]

lemma eqOn_overwrite {K : Set VirtAddr} (h : Set.EqOn L L' K) :
    Set.EqOn (overwrite start bytes v L) (overwrite start bytes v L') K := by
  intro x hx
  by_cases hin : x ∈ addresses start bytes
  · rw [overwrite_of_mem hin, overwrite_of_mem hin]
  · rw [overwrite_of_notMem hin, overwrite_of_notMem hin, h hx]

end

def kernelAddresses : Set VirtAddr := {x | x.toNat < kernelEnd.toNat}

lemma addresses_subset_kernel {start : VirtAddr} {bytes : ℕ}
    (h : start.toNat + bytes ≤ kernelEnd.toNat) : addresses start bytes ⊆ kernelAddresses :=
  fun _ hx => hx.2.trans_le h

lemma index_kernel {x : VirtAddr} (h : x ∈ kernelAddresses) : index x 0 = 0 := by
  apply BitVec.eq_of_toNat_eq
  have hlt : x.toNat < 2 ^ 39 := h
  rw [index_toNat]
  exact congrArg (· % 512) (Nat.div_eq_of_lt hlt)

lemma pageSizeAt_toNat {d : ℕ} (hd : d ≤ 3) : (pageSizeAt d).toNat = 2 ^ (39 - 9 * d) := by
  rcases (by omega : d = 0 ∨ d = 1 ∨ d = 2 ∨ d = 3) with rfl | rfl | rfl | rfl <;> rfl

lemma pageSizeAt_inj {d d' : ℕ} (hd : d ≤ 3) (hd' : d' ≤ 3) (h : pageSizeAt d = pageSizeAt d') :
    d = d' := by
  have h2 := congrArg BitVec.toNat h
  rw [pageSizeAt_toNat hd, pageSizeAt_toNat hd'] at h2
  have := Nat.pow_right_injective le_rfl h2
  omega

lemma pageSizeAt_pos {d : ℕ} (hd : d ≤ 3) : 0 < (pageSizeAt d).toNat := by
  rw [pageSizeAt_toNat hd]
  exact Nat.two_pow_pos _

lemma pageSizeAt_mod {d : ℕ} (hd : d ≤ 3) : (pageSizeAt d).toNat % 4096 = 0 := by
  rw [pageSizeAt_toNat hd]
  rcases (by omega : d = 0 ∨ d = 1 ∨ d = 2 ∨ d = 3) with rfl | rfl | rfl | rfl <;> rfl

lemma calcDepth_eq_pageSizeAt {pageSize : Word} {d : ℕ} (h : calcDepth pageSize = .ok d) :
    d ≤ 3 ∧ pageSize = pageSizeAt d := by
  unfold calcDepth at h
  split_ifs at h with h3 h2 h1
  all_goals
    obtain rfl := Except.ok.inj h
    exact ⟨by omega, by assumption⟩

lemma toNat_mod_of_aligned {addr pageSize : Word} (h : addr % pageSize = 0) :
    addr.toNat % pageSize.toNat = 0 := by
  have := congrArg BitVec.toNat h
  rwa [BitVec.toNat_umod] at this

lemma mod_eq_zero_iff {addr pageSize : Word} :
    addr % pageSize = 0 ↔ pageSize.toNat ∣ addr.toNat := by
  rw [Nat.dvd_iff_mod_eq_zero]
  refine ⟨toNat_mod_of_aligned, fun h => BitVec.eq_of_toNat_eq ?_⟩
  rw [BitVec.toNat_umod, h]
  rfl

lemma agree_iff_mem {d : ℕ} (hd : d ≤ 3) {p x : VirtAddr} (hp : p ∈ kernelAddresses)
    (hx : x ∈ kernelAddresses) (halign : p.toNat % (pageSizeAt d).toNat = 0) :
    Agree (d + 1) (index p) (index x) ↔ x ∈ addresses p (pageSizeAt d).toNat := by
  have hp' : p.toNat < 2 ^ 39 := hp
  have hx' : x.toNat < 2 ^ 39 := hx
  rw [agree_index_iff hd, SamePage, mem_addresses, Nat.mod_eq_of_lt (by omega),
    Nat.mod_eq_of_lt (by omega)]
  rw [pageSizeAt_toNat hd] at halign ⊢
  rcases (by omega : d = 0 ∨ d = 1 ∨ d = 2 ∨ d = 3) with rfl | rfl | rfl | rfl
  all_goals
    simp only [Nat.reducePow, Nat.reduceMul, Nat.reduceSub] at *
    omega

section
variable {α : Type}

/-- The size of the page that an address is mapped or reserved with. -/
def State.booked (s : State α) (addr : VirtAddr) : Option Word :=
  if (s.find (index addr)).2 = 0 then none else some (pageSizeAt (s.find (index addr)).1)

variable {A : AllocatorOps α} {used : α → Set Frame} {pml4 : PhysAddr} {s t : State α}
variable {addr x start : VirtAddr} {entry mask pageSize : Word} {d n : ℕ}

lemma booked_eq_none : s.booked addr = none ↔ (s.find (index addr)).2 = 0 := by
  rw [State.booked]
  split_ifs with h
  · exact iff_of_true rfl h
  · simp only [h]

lemma booked_eq_some (hd : d ≤ 3) :
    s.booked addr = some (pageSizeAt d) ↔
      (s.find (index addr)).2 ≠ 0 ∧ (s.find (index addr)).1 = d := by
  rw [State.booked]
  constructor
  · intro h
    split_ifs at h with hz
    exact ⟨hz, pageSizeAt_inj (find_spec s _).1 hd (Option.some.inj h)⟩
  · rintro ⟨hz, hd'⟩
    rw [if_neg hz, hd']

lemma leaf_of_not_booked (h : s.booked addr = none) : s.leaf (index addr) = none :=
  leafOf_zero (booked_eq_none.mp h)

/-- The entry at the end of the search for an address, with its depth, if it is not zero. -/
def State.slot (s : State α) (addr : VirtAddr) : Option (ℕ × Word) :=
  if (s.find (index addr)).2 = 0 then none else some (s.find (index addr))

lemma slot_eq_none : s.slot addr = none ↔ (s.find (index addr)).2 = 0 := by
  rw [State.slot]
  split_ifs with h
  · exact iff_of_true rfl h
  · simp only [h]

lemma slot_eq_some {found : ℕ × Word} :
    s.slot addr = some found ↔ found.2 ≠ 0 ∧ s.find (index addr) = found := by
  rw [State.slot]
  constructor
  · intro h
    split_ifs at h with hz
    obtain rfl := Option.some.inj h
    exact ⟨hz, rfl⟩
  · rintro ⟨hz, rfl⟩
    rw [if_neg hz]

lemma slot_congr (h : t.find (index addr) = s.find (index addr)) : t.slot addr = s.slot addr := by
  rw [State.slot, h, State.slot]

lemma leaf_eq_slot (s : State α) (addr : VirtAddr) :
    s.leaf (index addr) = (s.slot addr).bind leafOf := by
  rw [State.leaf, State.slot]
  split_ifs with h
  · exact leafOf_zero h
  · rfl

lemma booked_eq_slot (s : State α) :
    s.booked = fun x => (s.slot x).map fun found => pageSizeAt found.1 := by
  funext x
  rw [State.booked, State.slot]
  split_ifs <;> rfl

lemma eqOn_booked {bytes : ℕ} {v : Option (ℕ × Word)}
    (h : Set.EqOn t.slot (overwrite start bytes v s.slot) kernelAddresses) :
    Set.EqOn t.booked (overwrite start bytes (v.map fun found => pageSizeAt found.1) s.booked)
      kernelAddresses := by
  intro x hx
  simp only [booked_eq_slot, h hx]
  by_cases hin : x ∈ addresses start bytes
  · rw [overwrite_of_mem hin, overwrite_of_mem hin]
  · rw [overwrite_of_notMem hin, overwrite_of_notMem hin]

section
variable (hA : FrameContract A used) (ht : Tree used {0} s) (hcr3 : s.cr3 = pml4)
variable (haddr : addr ∈ kernelAddresses)
include hA ht hcr3 haddr

lemma set_slot (hm : IsParentMask mask) (hd : d ≤ 3) (halign : addr % pageSizeAt d = 0)
    (he : d = 3 ∨ link entry = none) (hne : entry ≠ 0)
    (hold : s.slot addr = none ∨ ∃ e, s.slot addr = some (d, e)) :
    (s.NoTable A addr d ∧ set A pml4 addr entry mask d s = .error allocationFailed) ∨
    ∃ w t, set A pml4 addr entry mask d s = .ok (some w, t) ∧ Tree used {0} t ∧
      Confined used {0} s t ∧
      Set.EqOn t.slot (overwrite addr (pageSizeAt d).toNat (some (d, entry)) s.slot)
        kernelAddresses := by
  have hmod := toNat_mod_of_aligned halign
  have hzero : (s.find (index addr)).1 < d → (s.find (index addr)).2 = 0 := fun hlt => by
    rcases hold with h | ⟨e, h⟩
    · exact slot_eq_none.mp h
    · rw [(slot_eq_some.mp h).2] at hlt
      exact absurd hlt (lt_irrefl d)
  have hmem : ∀ {x}, x ∈ kernelAddresses → index x 0 ∈ ({0} : Set Index) := index_kernel
  rcases set_view hA ht (hmem haddr) hcr3 hm hd halign he with h | ⟨t, -, -, -, hlt, hp, -⟩ |
    ⟨w, t, hok, ht', hc, -, hon, hoff⟩
  · exact .inl h
  · rw [hzero hlt] at hp
    cases hp
  · refine .inr ⟨w, t, hok, ht', hc, fun x hx => ?_⟩
    by_cases hin : x ∈ addresses addr (pageSizeAt d).toNat
    · rw [overwrite_of_mem hin]
      exact slot_eq_some.mpr ⟨hne, hon _ (hmem hx) ((agree_iff_mem hd haddr hx hmod).mpr hin)⟩
    · rw [overwrite_of_notMem hin]
      rcases hoff _ (hmem hx) (mt (agree_iff_mem hd haddr hx hmod).mp hin) with
        hsame | ⟨hagree, hlt, -, hz⟩
      · exact slot_congr hsame
      · rw [slot_eq_none.mpr hz, eq_comm, slot_eq_none, find_congr s hagree]
        exact hzero hlt

lemma unset_slot {e : Word} (hslot : s.slot addr = some (d, e)) (hleaf : d = 3 ∨ isHuge e = true)
    (halign : addr % pageSizeAt d = 0) :
    ∃ t, unset A pml4 addr s = .ok t ∧ Tree used {0} t ∧ Confined used {0} s t ∧
      Set.EqOn t.slot (overwrite addr (pageSizeAt d).toNat none s.slot) kernelAddresses := by
  have hmod := toNat_mod_of_aligned halign
  have hmem : ∀ {x}, x ∈ kernelAddresses → index x 0 ∈ ({0} : Set Index) := index_kernel
  obtain ⟨-, hfind⟩ := slot_eq_some.mp hslot
  have hd : d ≤ 3 := by
    have := (find_spec s (index addr)).1
    rwa [hfind] at this
  obtain ⟨t, hok, ht', hc, hon, hoff⟩ := unset_view hA ht (hmem haddr) hcr3
    (low_bits_of_aligned hd halign) (by rw [hfind]; exact hleaf)
  rw [hfind] at hon hoff
  refine ⟨t, hok, ht', hc, fun x hx => ?_⟩
  by_cases hin : x ∈ addresses addr (pageSizeAt d).toNat
  · rw [overwrite_of_mem hin, slot_eq_none]
    exact hon _ (hmem hx) ((agree_iff_mem hd haddr hx hmod).mpr hin)
  · rw [overwrite_of_notMem hin]
    rcases hoff _ (hmem hx) (mt (agree_iff_mem hd haddr hx hmod).mp hin) with hsame | ⟨hs, ht⟩
    · exact slot_congr hsame
    · rw [slot_eq_none.mpr hs, slot_eq_none.mpr ht]

lemma set_booked (hm : IsParentMask mask) (he : d = 3 ∨ link entry = none) (hne : entry ≠ 0)
    (hold : s.booked addr = none ∨ s.booked addr = some (pageSizeAt d)) {w : Bool}
    (hok : set A pml4 addr entry mask d s = .ok (some w, t)) :
    Tree used {0} t ∧ t.cr3 = pml4 ∧
      Set.EqOn t.booked (overwrite addr (pageSizeAt d).toNat (some (pageSizeAt d)) s.booked)
        kernelAddresses := by
  obtain ⟨hd, halign⟩ := aligned_of_set hok
  have hd' : d ≤ 3 := by omega
  have hslot : s.slot addr = none ∨ ∃ e, s.slot addr = some (d, e) := by
    refine hold.imp (slot_eq_none.mpr ∘ booked_eq_none.mp) fun h => ?_
    obtain ⟨hz, hfind⟩ := (booked_eq_some hd').mp h
    exact ⟨_, slot_eq_some.mpr ⟨hz, Prod.ext hfind rfl⟩⟩
  rcases set_slot hA ht hcr3 haddr hm hd' halign he hne hslot with ⟨-, herr⟩ |
    ⟨w', t', hok', ht', hc, heq⟩
  · rw [herr] at hok
    cases hok
  · obtain ⟨-, rfl⟩ := Prod.mk.inj (Except.ok.inj (hok'.symm.trans hok))
    exact ⟨ht', hc.cr3.trans hcr3, eqOn_booked heq⟩

lemma unset_booked (hbooked : s.booked addr = some pageSize)
    (halign : addr.toNat % pageSize.toNat = 0) (hok : unset A pml4 addr s = .ok t) :
    Tree used {0} t ∧ t.cr3 = pml4 ∧
      Set.EqOn t.booked (overwrite addr pageSize.toNat none s.booked) kernelAddresses := by
  have hd := (find_spec s (index addr)).1
  obtain rfl : pageSizeAt (s.find (index addr)).1 = pageSize := by
    rw [State.booked] at hbooked
    split_ifs at hbooked
    exact Option.some.inj hbooked
  have hslot : s.slot addr = some (s.find (index addr)) :=
    slot_eq_some.mpr ⟨((booked_eq_some hd).mp hbooked).1, rfl⟩
  obtain ⟨t', hok', ht', hc, heq⟩ := unset_slot hA ht hcr3 haddr hslot
    (leaf_of_unset ht.self hok) (BitVec.eq_of_toNat_eq (by rwa [BitVec.toNat_umod]))
  obtain rfl := Except.ok.inj (hok'.symm.trans hok)
  exact ⟨ht', hc.cr3.trans hcr3, eqOn_booked heq⟩

end

/-- The table keeps its shape, and books what a map of the kernel addresses says. -/
structure Books (used : α → Set Frame) (pml4 : PhysAddr) (L : VirtAddr → Option Word)
    (s : State α) : Prop where
  tree : Tree used {0} s
  cr3 : s.cr3 = pml4
  booked : Set.EqOn s.booked L kernelAddresses

variable {L : VirtAddr → Option Word}

lemma Books.trans {bytes : ℕ} {v : Option Word} (h : Books used pml4 L s)
    (ht : Tree used {0} t ∧ t.cr3 = pml4 ∧
      Set.EqOn t.booked (overwrite start bytes v s.booked) kernelAddresses) :
    Books used pml4 (overwrite start bytes v L) t :=
  ⟨ht.1, ht.2.1, ht.2.2.trans (eqOn_overwrite h.booked)⟩

section
variable (hA : FrameContract A used) (h : Books used pml4 L s)
variable (hend : start.toNat + n * pageSize.toNat ≤ kernelEnd.toNat)
include hA h hend

lemma Books.setPages (hm : IsParentMask mask) (hsize : pageSize = pageSizeAt d) (hd : d ≤ 3)
    (he : d = 3 ∨ isHuge entry = true) (hne : ∀ k < n, pageAt entry pageSize k ≠ 0)
    (hold : ∀ x ∈ addresses start (n * pageSize.toNat), L x = none ∨ L x = some pageSize)
    {overwrote w : Bool}
    (hok : setPages A pml4 mask d pageSize n start entry overwrote s = .ok (w, t)) :
    Books used pml4 (overwrite start (n * pageSize.toNat) (some pageSize) L) t := by
  induction n generalizing s start entry overwrote L with
  | zero =>
    obtain ⟨-, rfl⟩ := Prod.mk.inj (Except.ok.inj hok)
    rwa [Nat.zero_mul, overwrite_zero]
  | succ n ih =>
    have hpos : 0 < pageSize.toNat := hsize ▸ pageSizeAt_pos hd
    have hmod : pageSize.toNat % 4096 = 0 := hsize ▸ pageSizeAt_mod hd
    have hlt : kernelEnd.toNat = 2 ^ 39 := rfl
    rw [Nat.succ_mul, Nat.add_comm (n * _)] at hend hold ⊢
    have hnext : (start + pageSize).toNat = _ := toNat_next (by omega)
    obtain ⟨⟨found, u⟩, hu, hok⟩ := bind_eq_ok.mp hok
    cases found with
    | none => cases hok
    | some found =>
      have hstart : start ∈ kernelAddresses := show start.toNat < kernelEnd.toNat by omega
      have hfirst := hold start (mem_addresses.mpr ⟨le_rfl, by omega⟩)
      rw [← h.booked hstart, hsize] at hfirst
      have hne0 : entry ≠ 0 := by simpa using hne 0 n.succ_pos
      have hlink : d = 3 ∨ link entry = none := he.imp id fun h => link_eq_none.mpr (.inr h)
      have hb := h.trans (set_booked hA h.tree h.cr3 hstart hm hlink hne0 hfirst hu)
      rw [← hsize] at hb
      rw [← overwrite_append (by omega)]
      refine ih hb (by rw [hnext]; omega) (he.imp id ((isHuge_add_page entry hmod).trans ·))
        (fun k hk => ?_) (fun x hx => ?_) hok
      · rw [pageAt_succ]
        exact hne (k + 1) (Nat.succ_lt_succ hk)
      · obtain ⟨hin, hout⟩ := mem_rest (by omega) hx
        rw [overwrite_of_notMem hout]
        exact hold x hin

lemma Books.unsetPages (hpos : 0 < pageSize.toNat) (halign : start.toNat % pageSize.toNat = 0)
    (hold : ∀ x ∈ addresses start (n * pageSize.toNat), L x = some pageSize)
    (hok : unsetPages A pml4 pageSize n start s = .ok t) :
    Books used pml4 (overwrite start (n * pageSize.toNat) none L) t := by
  induction n generalizing s start L with
  | zero =>
    obtain rfl := Except.ok.inj hok
    rwa [Nat.zero_mul, overwrite_zero]
  | succ n ih =>
    have hlt : kernelEnd.toNat = 2 ^ 39 := rfl
    rw [Nat.succ_mul, Nat.add_comm (n * _)] at hend hold ⊢
    have hnext : (start + pageSize).toNat = _ := toNat_next (by omega)
    obtain ⟨u, hu, hok⟩ := bind_eq_ok.mp hok
    have hstart : start ∈ kernelAddresses := show start.toNat < kernelEnd.toNat by omega
    have hfirst := hold start (mem_addresses.mpr ⟨le_rfl, by omega⟩)
    rw [← h.booked hstart] at hfirst
    have hb := h.trans (unset_booked hA h.tree h.cr3 hstart hfirst halign hu)
    rw [← overwrite_append (by omega)]
    refine ih hb (by rw [hnext]; omega) (by rw [hnext, Nat.add_mod_right, halign])
      (fun x hx => ?_) hok
    obtain ⟨hin, hout⟩ := mem_rest (by omega) hx
    rw [overwrite_of_notMem hout]
    exact hold x hin

end

lemma Books.invalidate (h : Books used pml4 L s) (start : VirtAddr) (bytes : Word) :
    Books used pml4 L (distributeInvlpg start bytes s) :=
  ⟨h.tree.invalidate start bytes, h.cr3, h.booked⟩

lemma Books.setList (hA : FrameContract A used) (h : Books used pml4 L s)
    {size : MemoryMap.Size} (hend : start.toNat + size.span ≤ kernelEnd.toNat)
    (hm : IsParentMask mask) (he : size.pageSize ≠ 0x1000 → isHuge entry = true)
    (hne : size.pageSize.toNat % 4096 = 0 →
      ∀ k < size.pageCount.toNat, pageAt entry size.pageSize k ≠ 0)
    (hold : ∀ x ∈ addresses start size.span, L x = none ∨ L x = some size.pageSize) {w : Bool}
    (hok : setList A pml4 start entry size mask s = .ok (w, t)) :
    Books used pml4 (overwrite start size.span (some size.pageSize) L) t := by
  obtain ⟨-, d, hdepth, hok⟩ := setList_eq_ok hok
  obtain ⟨hd, hsize⟩ := calcDepth_eq_pageSizeAt hdepth
  obtain ⟨hmod, hcases⟩ := calcDepth_eq_ok hdepth
  rw [MemoryMap.Size.span, Nat.mul_comm] at hend hold ⊢
  exact h.setPages hA hend hm hsize hd (hcases.imp And.left fun h => he h.2) (hne hmod) hold hok

end

end Anarch.PageTable
