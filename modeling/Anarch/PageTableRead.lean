import Anarch.PageTableSlots

/-! `Read` gives back what `SetList` was asked to map: the physical address, the page size and
the attributes, all packed into one word for each page. -/
namespace Anarch.PageTable
open RadixTree

section
variable {α : Type} {A : AllocatorOps α} {used : α → Set Frame} {I : Set Index}
variable {pml4 : PhysAddr} {s t : State α} {start addr x : VirtAddr} {entry mask pageSize : Word}
variable {d n : ℕ}

def State.unmapped (s : State α) (addr : VirtAddr) : Prop :=
  isPresent (s.find (index addr)).2 = false

/-- What the pages outside those that were set look like. -/
structure Keeps (s t : State α) (b : ℕ → Index) : Prop where
  present : isPresent (s.find b).2 = true → t.find b = s.find b
  absent : isPresent (s.find b).2 = false → isPresent (t.find b).2 = false

lemma Keeps.trans {u : State α} {b : ℕ → Index} (h : Keeps s t b) (h' : Keeps t u b) :
    Keeps s u b :=
  ⟨fun hp => (h'.present (by rwa [h.present hp])).trans (h.present hp),
    fun hp => h'.absent (h.absent hp)⟩

section
variable (hA : FrameContract A used) (ht : Tree used I s) (hcr3 : s.cr3 = pml4)
include hA ht hcr3

lemma set_unmapped (ha : index addr 0 ∈ I) (hm : IsParentMask mask) (hd : d ≤ 3)
    (halign : addr % pageSizeAt d = 0) (he : d = 3 ∨ link entry = none)
    (hfree : s.unmapped addr) :
    (s.NoTable A addr d ∧ set A pml4 addr entry mask d s = .error allocationFailed) ∨
    ∃ w t, set A pml4 addr entry mask d s = .ok (some w, t) ∧ Tree used I t ∧ t.cr3 = pml4 ∧
      (∀ b, b 0 ∈ I → Agree (d + 1) (index addr) b → t.find b = (d, entry)) ∧
      ∀ b, b 0 ∈ I → ¬ Agree (d + 1) (index addr) b → Keeps s t b := by
  rcases set_view hA ht ha hcr3 hm hd halign he with h | ⟨t, -, -, -, -, hp, -⟩ |
    ⟨w, t, hok, ht', hc, -, hon, hoff⟩
  · exact .inl h
  · cases hfree.symm.trans hp
  · refine .inr ⟨w, t, hok, ht', hc.cr3.trans hcr3, hon, fun b hb hb' => ?_⟩
    rcases hoff b hb hb' with hsame | ⟨hagree, -, habsent, hzero⟩
    · exact ⟨fun _ => hsame, fun hp => by rwa [hsame]⟩
    · have hb := find_congr s hagree
      refine ⟨fun hp => ?_, fun _ => by rw [hzero]; rfl⟩
      rw [hb, habsent] at hp
      cases hp

lemma setPages_unmapped (hm : IsParentMask mask) (hsize : pageSize = pageSizeAt d) (hd : d ≤ 3)
    (he : d = 3 ∨ isHuge entry = true) (hp : isPresent entry = true)
    (halign : start % pageSize = 0) (hpages : PagesIn I start pageSize n)
    (hfree : ∀ k < n, s.unmapped (pageAt start pageSize k))
    (hne : ∀ i j, i < j → j < n → ¬ SamePage d (pageAt start pageSize i) (pageAt start pageSize j))
    (overwrote : Bool) :
    (NoTableForPages A pml4 mask d pageSize n start entry overwrote s ∧
      setPages A pml4 mask d pageSize n start entry overwrote s = .error allocationFailed) ∨
    ∃ w t, setPages A pml4 mask d pageSize n start entry overwrote s = .ok (w, t) ∧
      Tree used I t ∧ t.cr3 = pml4 ∧
      (∀ k < n, ∀ x, index x 0 ∈ I → SamePage d (pageAt start pageSize k) x →
        t.find (index x) = (d, pageAt entry pageSize k)) ∧
      ∀ x, index x 0 ∈ I → (∀ k < n, ¬ SamePage d (pageAt start pageSize k) x) →
        Keeps s t (index x) := by
  induction n generalizing s start entry overwrote with
  | zero =>
    exact .inr ⟨overwrote, s, rfl, ht, hcr3, fun k hk => absurd hk (Nat.not_lt_zero k),
      fun x _ _ => ⟨fun _ => rfl, id⟩⟩
  | succ n ih =>
    obtain hhead : start = pageAt start pageSize 0 := (pageAt_zero ..).symm
    have hmod : pageSize.toNat % 4096 = 0 := hsize ▸ pageSizeAt_mod hd
    have hlink : d = 3 ∨ link entry = none := he.imp id fun h => link_eq_none.mpr (.inr h)
    rcases set_unmapped hA ht hcr3 hpages.head hm hd (hsize ▸ halign) hlink
      (by rw [hhead]; exact hfree 0 n.succ_pos) with ⟨hnone, herr⟩ | ⟨w, t, hok, ht', hcr3', hon, hoff⟩
    · exact .inl ⟨hnone.forPages, by rw [setPages, herr]; rfl⟩
    · have hother : ∀ x, index x 0 ∈ I → ¬ SamePage d start x → Keeps s t (index x) :=
        fun x hx hx' => hoff _ hx (mt (agree_index_iff hd _ _).mp hx')
      have hrest := ih ht' hcr3'
        (he.imp id ((isHuge_add_page entry hmod).trans ·))
        ((isPresent_add_page entry hmod).trans hp) (by rw [hsize] at halign ⊢; exact aligned_next hd halign)
        hpages.tail (fun k hk => ?_) (fun i j hij hj => ?_) (if overwrote then true else w)
      · rw [setPages_succ hok]
        rcases hrest with ⟨hnone, herr⟩ | ⟨w', u, hok', htu, hcr3u, hin, hout⟩
        · exact .inl ⟨hnone.succ hok, herr⟩
        · refine .inr ⟨w', u, hok', htu, hcr3u, fun k hk x hx hsame => ?_, fun x hx hx' => ?_⟩
          · cases k with
            | zero =>
              rw [pageAt_zero] at hsame ⊢
              have hset := hon _ hx ((agree_index_iff hd _ _).mpr hsame)
              have hkeep := hout x hx fun k hk hlater => hne 0 (k + 1) (by omega) (by omega) (by
                rw [pageAt_zero, ← pageAt_succ]
                exact hsame.trans hlater.symm)
              rw [hkeep.present (by rw [hset]; exact hp), hset]
            | succ k =>
              rw [← pageAt_succ] at hsame ⊢
              exact hin k (by omega) x hx hsame
          · have h0 := hx' 0 n.succ_pos
            rw [pageAt_zero] at h0
            refine (hother x hx h0).trans (hout x hx fun k hk => ?_)
            rw [pageAt_succ]
            exact hx' (k + 1) (by omega)
      · rw [pageAt_succ]
        have hoff := hne 0 (k + 1) (by omega) (by omega)
        rw [pageAt_zero] at hoff
        exact (hother _ (hpages (k + 1) (by omega)) hoff).absent (hfree (k + 1) (by omega))
      · rw [pageAt_succ, pageAt_succ]
        exact hne (i + 1) (j + 1) (by omega) (by omega)

end

end

section Numbers
variable {start x q : Word} {d n k i j : ℕ}

/-- A range that does not meet the recursive slot is not longer than the address space. -/
lemma span_le_of_slots {bytes : ℕ} (hend : start.toNat + bytes ≤ 2 ^ 64)
    (hslots : ∀ x ∈ addresses start bytes, index x 0 ≠ 0x1ff) : bytes ≤ 2 ^ 48 := by
  by_contra hlong
  let y := start.toNat + (2 ^ 49 - 2 ^ 39 - start.toNat % 2 ^ 48) % 2 ^ 48
  have hy : (BitVec.ofNat 64 y).toNat = y := Nat.mod_eq_of_lt (by omega)
  refine hslots (BitVec.ofNat 64 y) (mem_addresses.mpr (by omega)) ?_
  apply BitVec.eq_of_toNat_eq
  rw [index_toNat, hy]
  simp only [BitVec.reduceToNat, Nat.reducePow, Nat.reduceMul, Nat.reduceSub, y]
  omega

lemma pages_distinct (hd : d ≤ 3) (halign : start.toNat % (pageSizeAt d).toNat = 0)
    (hend : start.toNat + n * (pageSizeAt d).toNat ≤ 2 ^ 64)
    (hspan : n * (pageSizeAt d).toNat ≤ 2 ^ 48) (hij : i < j) (hj : j < n) :
    ¬ SamePage d (pageAt start (pageSizeAt d) i) (pageAt start (pageSizeAt d) j) := by
  have hpos := pageSizeAt_pos hd
  have hmono : ∀ k < n, k * (pageSizeAt d).toNat + (pageSizeAt d).toNat ≤
      n * (pageSizeAt d).toNat := fun k hk => by
    rw [← Nat.succ_mul]
    exact Nat.mul_le_mul_right _ hk
  have hi' := hmono i (hij.trans hj)
  have hj' := hmono j hj
  rw [SamePage, pageAt_toNat (by omega) hpos, pageAt_toNat (by omega) hpos]
  rw [pageSizeAt_toNat hd] at *
  rcases (by omega : d = 0 ∨ d = 1 ∨ d = 2 ∨ d = 3) with rfl | rfl | rfl | rfl
  all_goals
    simp only [Nat.reducePow, Nat.reduceMul, Nat.reduceSub] at *
    omega

lemma samePage_of_mem (hd : d ≤ 3) (halign : start.toNat % (pageSizeAt d).toNat = 0)
    (hend : start.toNat + n * (pageSizeAt d).toNat ≤ 2 ^ 64)
    (hx : x ∈ addresses start (n * (pageSizeAt d).toNat)) :
    (x.toNat - start.toNat) / (pageSizeAt d).toNat < n ∧
      SamePage d (pageAt start (pageSizeAt d)
        ((x.toNat - start.toNat) / (pageSizeAt d).toNat)) x := by
  have hpos := pageSizeAt_pos hd
  rw [mem_addresses] at hx
  have hlt : (x.toNat - start.toNat) / (pageSizeAt d).toNat < n :=
    (Nat.div_lt_iff_lt_mul hpos).mpr (by omega)
  refine ⟨hlt, ?_⟩
  have hle := Nat.div_mul_le_self (x.toNat - start.toNat) (pageSizeAt d).toNat
  rw [SamePage, pageAt_toNat (by omega) hpos]
  rw [pageSizeAt_toNat hd] at *
  rcases (by omega : d = 0 ∨ d = 1 ∨ d = 2 ∨ d = 3) with rfl | rfl | rfl | rfl
  all_goals
    simp only [Nat.reducePow, Nat.reduceMul, Nat.reduceSub] at *
    omega

lemma getLsbD_of_aligned {lo : ℕ} (halign : q.toNat % 2 ^ lo = 0) (hlt : q.toNat < 2 ^ 52)
    (hi : i < lo ∨ 52 ≤ i) : q.getLsbD i = false := by
  rw [BitVec.getLsbD]
  rcases hi with hi | hi
  · obtain ⟨c, hc⟩ := Nat.dvd_of_mod_eq_zero halign
    rw [hc, Nat.testBit_two_pow_mul]
    simp [hi]
  · exact Nat.testBit_lt_two_pow (hlt.trans_le (Nat.pow_le_pow_right two_pos hi))

lemma and_of_aligned {lo : ℕ} {m : Word} (halign : q.toNat % 2 ^ lo = 0) (hlt : q.toNat < 2 ^ 52)
    (hm : ∀ i : Fin 64, lo ≤ i.val → i.val < 52 → m.getLsbD i = true) : q &&& m = q := by
  apply BitVec.eq_of_getLsbD_eq
  intro i hi
  rw [BitVec.getLsbD_and]
  by_cases hin : lo ≤ i ∧ i < 52
  · rw [hm ⟨i, hi⟩ hin.1 hin.2, Bool.and_true]
  · rw [getLsbD_of_aligned halign hlt (by omega), Bool.false_and]

lemma and_eq_zero_of_aligned {lo : ℕ} {m : Word} (halign : q.toNat % 2 ^ lo = 0)
    (hlt : q.toNat < 2 ^ 52)
    (hm : ∀ i : Fin 64, lo ≤ i.val → i.val < 52 → m.getLsbD i = false) : q &&& m = 0 := by
  apply BitVec.eq_of_getLsbD_eq
  intro i hi
  rw [BitVec.getLsbD_and]
  change _ = (0#64).getLsbD i
  rw [BitVec.getLsbD_zero]
  by_cases hin : lo ≤ i ∧ i < 52
  · rw [hm ⟨i, hi⟩ hin.1 hin.2, Bool.and_false]
  · rw [getLsbD_of_aligned halign hlt (by omega), Bool.false_and]

end Numbers

section Entries
variable {q : Word} {small kernel executable writable : Bool}

/-- The flags of `CalcMask`, from the answers to its four questions. -/
def flags (small kernel executable writable : Bool) : Word :=
  1 ||| (if small then 0 else 0x80) ||| (if kernel then 0x100 else 0x4)
    ||| (if executable then 0 else 1 <<< 63) ||| (if writable then 2 else 0)

lemma calcMask_eq_flags (pageSize : Word) (kernel : Bool) (attributes : MemoryMap.Attributes) :
    calcMask pageSize kernel attributes =
      flags (decide (pageSize = 0x1000)) kernel attributes.executable attributes.writable := by
  simp [calcMask, flags]

lemma flags_bits (i : Fin 64) (hlo : 12 ≤ i.val) (hhi : i.val < 52) :
    (flags small kernel executable writable).getLsbD i = false := by
  have h : ∀ small kernel executable writable, ∀ i : Fin 64, 12 ≤ i.val → i.val < 52 →
    (flags small kernel executable writable).getLsbD i = false := by decide
  exact h small kernel executable writable i hlo hhi

lemma flags_and (small kernel executable writable : Bool) :
    flags small kernel executable writable &&& 0x7ffffffffffff000 = 0 ∧
    flags small kernel executable writable &&& 0x7fffffffffe00000 = 0 ∧
    (flags small kernel executable writable &&& (1 <<< 63) = 0 ↔ executable = true) ∧
    (flags small kernel executable writable &&& 2 ≠ 0 ↔ writable = true) := by
  have h : ∀ small kernel executable writable,
    flags small kernel executable writable &&& 0x7ffffffffffff000 = 0 ∧
    flags small kernel executable writable &&& 0x7fffffffffe00000 = 0 ∧
    (flags small kernel executable writable &&& (1 <<< 63) = 0 ↔ executable = true) ∧
    (flags small kernel executable writable &&& 2 ≠ 0 ↔ writable = true) := by decide
  exact h small kernel executable writable

lemma entry_parts (small kernel executable writable : Bool) {lo : ℕ} (hlo : lo = 12 ∨ lo = 21)
    (halign : q.toNat % 2 ^ lo = 0) (hlt : q.toNat < 2 ^ 52) :
    (q ||| flags small kernel executable writable) &&& 0x7ffffffffffff000 = q ∧
    (lo = 21 → (q ||| flags small kernel executable writable) &&& 0x7fffffffffe00000 = q) ∧
    ((q ||| flags small kernel executable writable) &&& (1 <<< 63) = 0 ↔ executable = true) ∧
    ((q ||| flags small kernel executable writable) &&& 2 ≠ 0 ↔ writable = true) := by
  obtain ⟨hsmall, hlarge, hexec, hwrite⟩ :=
    flags_and small kernel executable writable
  have h12 : q.toNat % 2 ^ 12 = 0 := by
    rcases hlo with rfl | rfl <;> omega
  have hzero : ∀ w : Word, 0 ||| w = w := fun _ => BitVec.zero_or
  have hbits : ∀ i : Fin 64, 12 ≤ i.val → i.val < 52 →
      (0x7ffffffffffff000 : Word).getLsbD i = true := by decide
  have hbits' : ∀ i : Fin 64, 21 ≤ i.val → i.val < 52 →
      (0x7fffffffffe00000 : Word).getLsbD i = true := by decide
  have htop : ∀ i : Fin 64, 12 ≤ i.val → i.val < 52 → (1 <<< 63 : Word).getLsbD i = false := by
    decide
  have htwo : ∀ i : Fin 64, 12 ≤ i.val → i.val < 52 → (2 : Word).getLsbD i = false := by decide
  refine ⟨?_, fun h21 => ?_, ?_, ?_⟩
  · rw [BitVec.and_or_distrib_right, hsmall, and_of_aligned h12 hlt hbits]
    exact BitVec.or_zero
  · rw [BitVec.and_or_distrib_right, hlarge, and_of_aligned (h21 ▸ halign) hlt hbits']
    exact BitVec.or_zero
  · rw [BitVec.and_or_distrib_right, and_eq_zero_of_aligned h12 hlt htop, hzero, hexec]
  · rw [BitVec.and_or_distrib_right, and_eq_zero_of_aligned h12 hlt htwo, hzero, hwrite]

end Entries

section
variable {phys virt x mask : Word} {small kernel executable writable : Bool} {d k n : ℕ}

/-- Counting pages does not carry into the flags. -/
lemma pageAt_flags (hd : d ≤ 3) (halign : phys.toNat % (pageSizeAt d).toNat = 0)
    (hend : phys.toNat + k * (pageSizeAt d).toNat < 2 ^ 52) :
    pageAt (phys ||| flags small kernel executable writable) (pageSizeAt d) k =
      pageAt phys (pageSizeAt d) k ||| flags small kernel executable writable := by
  have hpos := pageSizeAt_pos hd
  have hsmall : (pageSizeAt d).toNat % 2 ^ 12 = 0 := pageSizeAt_mod hd
  have hmod : phys.toNat % 2 ^ 12 = 0 :=
    Nat.mod_eq_zero_of_dvd ((Nat.dvd_of_mod_eq_zero hsmall).trans (Nat.dvd_of_mod_eq_zero halign))
  have hpage : (pageAt phys (pageSizeAt d) k).toNat % 2 ^ 12 = 0 := by
    rw [pageAt_toNat (by omega) hpos, Nat.add_mod, hmod, Nat.mul_mod, hsmall]
    rfl
  have hlt : (pageAt phys (pageSizeAt d) k).toNat < 2 ^ 52 := by
    rwa [pageAt_toNat (by omega) hpos]
  rw [← BitVec.add_eq_or_of_and_eq_zero _ _ (and_eq_zero_of_aligned hmod (by omega) flags_bits),
    ← BitVec.add_eq_or_of_and_eq_zero _ _ (and_eq_zero_of_aligned hpage hlt flags_bits), pageAt,
    pageAt]
  ring

end

section
variable {α : Type} {A : AllocatorOps α} {used : α → Set Frame} {pml4 : PhysAddr} {s t : State α}
variable {virt phys x mask : Word} {size : MemoryMap.Size} {attributes : MemoryMap.Attributes}
variable {kernel : Bool} {d : ℕ}

lemma read_of_find (hself : link (s.mem s.root 0x1ff) = some s.root) (hcr3 : s.cr3 = pml4)
    {q : Word} (hd : d = 2 ∨ d = 3) (halign : q.toNat % (pageSizeAt d).toNat = 0)
    (hlt : q.toNat < 2 ^ 52)
    (hfind : s.find (index x) = (d, q ||| calcMask (pageSizeAt d) kernel attributes)) :
    read pml4 x s = .ok (some ⟨q, { attributes with cachable := true }, pageSizeAt d⟩) := by
  have hp : isPresent (q ||| calcMask (pageSizeAt d) kernel attributes) = true := isPresent_calcMask
  have hleaf : isHuge (q ||| calcMask (pageSizeAt d) kernel attributes) = true ∨
      d = 3 ∧ isPresent (q ||| calcMask (pageSizeAt d) kernel attributes) = true := by
    rcases hd with rfl | rfl
    · exact .inl (isHuge_calcMask (by decide))
    · exact .inr ⟨rfl, hp⟩
  have hne : q ||| calcMask (pageSizeAt d) kernel attributes ≠ 0 := by
    intro hzero
    rw [hzero] at hp
    cases hp
  have hset : isSet pml4 s = true := by simp [isSet, hcr3]
  have hlo : q.toNat % 2 ^ (39 - 9 * d) = 0 := by rwa [← pageSizeAt_toNat (by omega)]
  obtain ⟨hsmall, hlarge, hexec, hwrite⟩ := entry_parts
    (decide (pageSizeAt d = 0x1000)) kernel attributes.executable attributes.writable
    (show 39 - 9 * d = 12 ∨ 39 - 9 * d = 21 by omega) hlo hlt
  rw [← calcMask_eq_flags] at hsmall hlarge hexec hwrite
  have hphys : (if d = 3 then (q ||| calcMask (pageSizeAt d) kernel attributes) &&& 0x7ffffffffffff000
      else (q ||| calcMask (pageSizeAt d) kernel attributes) &&& 0x7fffffffffe00000) = q := by
    split_ifs with h3
    · exact hsmall
    · exact hlarge (by omega)
  have hd2 : decide (2 ≤ d) = true := decide_eq_true (by omega)
  rw [read, walk_eq hself hcr3, hfind]
  simp only [walkResult, if_pos hleaf, hset, assertThat, if_true, bind, Except.bind, pure,
    Except.pure, decide_eq_true hne, hd2, hphys, hexec, hwrite, Bool.decide_eq_true]

lemma page_number {pageSize : Word} (h : virt.toNat ≤ x.toNat) :
    BitVec.ofNat 64 ((x.toNat - virt.toNat) / pageSize.toNat) = (x - virt) / pageSize := by
  apply BitVec.eq_of_toNat_eq
  rw [BitVec.toNat_udiv, BitVec.toNat_sub_of_le (BitVec.le_def.mpr h), BitVec.toNat_ofNat]
  exact Nat.mod_eq_of_lt ((Nat.div_le_self ..).trans_lt ((Nat.sub_le ..).trans_lt x.isLt))

/-- Every address of a range that `SetList` has mapped reads back as it was asked for. It maps
the range unless a page of it needs a table for which there is no frame. -/
theorem setList_then_read (hA : FrameContract A used) (ht : Tree used ownSlots s)
    (hcr3 : s.cr3 = pml4) (hm : IsParentMask mask)
    (hsize : size.pageSize = 0x1000 ∨ size.pageSize = 0x200000)
    (hvirt : virt % size.pageSize = 0) (hend : virt.toNat + size.span ≤ 2 ^ 64)
    (hslots : ∀ x ∈ addresses virt size.span, index x 0 ≠ 0x1ff)
    (hfree : ∀ x ∈ addresses virt size.span, s.unmapped x)
    (hphys : phys % size.pageSize = 0) (hphysEnd : phys.toNat + size.span ≤ 2 ^ 52) :
    (NoTableForList A pml4 virt (phys ||| calcMask size.pageSize kernel attributes) size mask s ∧
      setList A pml4 virt (phys ||| calcMask size.pageSize kernel attributes) size mask s =
        .error allocationFailed) ∨
    ∃ w t, setList A pml4 virt (phys ||| calcMask size.pageSize kernel attributes) size mask s =
        .ok (w, t) ∧
      ∀ x ∈ addresses virt size.span, read pml4 x t =
        .ok (some ⟨phys + (x - virt) / size.pageSize * size.pageSize,
          { attributes with cachable := true }, size.pageSize⟩) := by
  obtain ⟨d, hd, hdepth, hps⟩ : ∃ d, (d = 2 ∨ d = 3) ∧ calcDepth size.pageSize = .ok d ∧
      size.pageSize = pageSizeAt d := by
    rcases hsize with h | h
    · exact ⟨3, .inr rfl, by rw [h]; rfl, h⟩
    · exact ⟨2, .inl rfl, by rw [h]; rfl, h⟩
  have hd3 : d ≤ 3 := by omega
  have hlong := span_le_of_slots hend hslots
  have hmod := toNat_mod_of_aligned hvirt
  have hpmod := toNat_mod_of_aligned hphys
  rw [MemoryMap.Size.span, Nat.mul_comm] at hend hlong hphysEnd hslots hfree ⊢
  rw [setList_eq hcr3 hdepth]
  rw [hps] at hend hlong hphysEnd hslots hfree hmod hpmod hvirt ⊢
  have hpos := pageSizeAt_pos hd3
  have hpage : ∀ k < size.pageCount.toNat, pageAt virt (pageSizeAt d) k ∈
      addresses virt (size.pageCount.toNat * (pageSizeAt d).toNat) := fun k hk => by
    have hlt := Nat.mul_lt_mul_of_pos_right hk hpos
    rw [mem_addresses, pageAt_toNat (by omega) hpos]
    omega
  have hhuge : d = 3 ∨ isHuge (phys ||| calcMask (pageSizeAt d) kernel attributes) = true := by
    rcases hd with rfl | rfl
    · exact .inr (isHuge_calcMask (by decide))
    · exact .inl rfl
  rcases setPages_unmapped hA ht hcr3 hm rfl hd3 hhuge isPresent_calcMask hvirt
    (fun k hk => hslots _ (hpage k hk)) (fun k hk => hfree _ (hpage k hk))
    (fun i j => pages_distinct hd3 hmod hend hlong) false with
    ⟨hnone, herr⟩ | ⟨w, t, hok, ht', hcr3', hin, -⟩
  · exact .inl ⟨⟨d, hdepth, hps ▸ hnone⟩, herr⟩
  · refine .inr ⟨w, t, hok, fun x hx => ?_⟩
    obtain ⟨hk, hsame⟩ := samePage_of_mem hd3 hmod hend hx
    have hlt := Nat.mul_lt_mul_of_pos_right hk hpos
    have hfind := hin _ hk x (hslots x hx) hsame
    rw [calcMask_eq_flags, pageAt_flags hd3 hpmod (by omega), ← calcMask_eq_flags] at hfind
    have hread := read_of_find ht'.self hcr3' hd ?_ ?_ hfind
    · rw [hread, ← page_number hx.1, pageAt]
    · rw [pageAt_toNat (by omega) hpos, Nat.add_mul_mod_self_right, hpmod]
    · rw [pageAt_toNat (by omega) hpos]
      omega

end

lemma emptyMap_unmapped {x : VirtAddr} (hx : index x 0 ≠ 0x1ff) : emptyMap.unmapped x := by
  have hzero : emptyMap.mem emptyMap.root (index x 0) = 0 := if_neg fun h => hx h.2
  rw [State.unmapped, find_of_absent (Nat.zero_le 3) rfl (.inr (by rw [hzero]; rfl)), hzero]
  rfl

/-- Two large pages that must not be executed, mapped from the empty map. -/
theorem setList_then_read_two_pages :
    ∃ w t, setList nextFrame 0x1000 0x200000 (0x40000000 ||| calcMask 0x200000 true ⟨false, true, true⟩)
        ⟨0x200000, 2⟩ 3 emptyMap = .ok (w, t) ∧
      read 0x1000 0x401234 t = .ok (some ⟨0x40200000, ⟨false, true, true⟩, 0x200000⟩) := by
  have hlow : ∀ x ∈ addresses 0x200000 (MemoryMap.Size.span ⟨0x200000, 2⟩), index x 0 ≠ 0x1ff := by
    intro x hx
    rw [index_kernel (addresses_subset_kernel (by decide) hx)]
    decide
  have htree := (reachable_mapped nextFrame_contract (.start emptyMap_start)).tree
  have hok : (setList nextFrame 0x1000 0x200000
      (0x40000000 ||| calcMask 0x200000 true ⟨false, true, true⟩) ⟨0x200000, 2⟩ 3
      emptyMap).toOption.isSome = true := by decide +kernel
  rcases @setList_then_read _ nextFrame firstFrames 0x1000 emptyMap 0x200000 0x40000000 3
    ⟨0x200000, 2⟩ ⟨false, true, true⟩ true nextFrame_contract htree rfl (.inl rfl) (.inr rfl) rfl
    (by decide) hlow (fun x hx => emptyMap_unmapped (hlow x hx)) rfl (by decide)
    with ⟨-, herr⟩ | ⟨w, t, hrun, hread⟩
  · simp only at herr
    rw [herr] at hok
    cases hok
  · exact ⟨w, t, hrun, hread 0x401234 (by decide)⟩

end Anarch.PageTable
