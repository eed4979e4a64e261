import Anarch.PageTableSpaces
import Anarch.UserMap

/-! The first kernel map. `MapSetup` writes physical memory directly: a PML4, a PDPT and a
page directory for each gigabyte, with large pages that map memory to itself. -/
namespace Anarch.MapSetup
open PageTable RadixTree

/-- The fields of `MapSetup` that `GenerateMap` works on, with memory and the allocator. -/
structure State (α : Type) where
  mem : PhysMem
  alloc : α
  pml4 : PhysAddr
  pdpt : PhysAddr
  pdtOffset : Word
  pdptOffset : Word
  currentPDT : PhysAddr
  firstUnmapped : VirtAddr

/-- A 64-bit store to a physical address. -/
def storeWord (mem : PhysMem) (addr : PhysAddr) (value : Word) : PhysMem :=
  mem.write (frameOf addr) ((addr >>> 3).setWidth 9) value

/-- `Bzero(addr, 0x1000)`. -/
def bzero (mem : PhysMem) (addr : PhysAddr) : PhysMem := mem.fill (frameOf addr) 0

section
variable {α : Type} (A : AllocatorOps α)

/-- The new page directory of `MapNext`. -/
def nextDirectory (s : State α) : Outcome (State α) :=
  match A.alloc 0x1000 0x1000 s.alloc with
  | (none, _) => .error (.panic "MapSetup::MapNext() - failed to allocate PDT")
  | (some currentPDT, alloc) =>
      let pdptOffset := s.pdptOffset + 1
      .ok { s with
        alloc, currentPDT, pdptOffset
        pdtOffset := 0
        mem := storeWord (bzero s.mem currentPDT) (s.pdpt + 8 * pdptOffset) (currentPDT ||| 3) }

def mapNext (s : State α) : Outcome (State α) := do
  let s ← (if s.pdtOffset = 0x200 then nextDirectory A s else .ok s)
  return { s with
    mem := storeWord s.mem (s.currentPDT + 8 * s.pdtOffset) (s.firstUnmapped ||| 0x183)
    pdtOffset := s.pdtOffset + 1
    firstUnmapped := s.firstUnmapped + 0x200000 }

/-- The loop `while (linearSize)`; a round for each byte is more than enough. -/
def mapLoop : ℕ → Word → State α → Outcome (State α)
  | 0, linearSize, s => if linearSize = 0 then .ok s else .error .hang
  | n + 1, linearSize, s =>
      if linearSize = 0 then .ok s
      else do
        let s ← mapNext A s
        mapLoop n (if linearSize ≤ 0x200000 then 0 else linearSize - 0x200000) s

def generateMap (reservedEnd : PhysAddr) (mem : PhysMem) (alloc : α) : Outcome (State α) :=
  match A.alloc 0x1000 0x1000 alloc with
  | (none, _) => .error (.panic "MapSetup::Run() - failed to allocate PML4")
  | (some pml4, alloc) =>
      match A.alloc 0x1000 0x1000 alloc with
      | (none, _) => .error (.panic "MapSetup::Run() - failed to allocate PDPT")
      | (some pdpt, alloc) =>
          let mem := bzero (bzero mem pml4) pdpt
          let mem := storeWord mem pml4 (pdpt ||| 3)
          let mem := storeWord mem (pml4 + 8 * 0x1ff) (pml4 ||| 3)
          mapLoop A reservedEnd.toNat reservedEnd
            { mem, alloc, pml4, pdpt
              pdtOffset := 0x200
              pdptOffset := -1
              currentPDT := 0
              firstUnmapped := 0 }

end

section
variable {α : Type} {A : AllocatorOps α} {used : α → Set Frame} {s t : State α} {k n : ℕ}
variable {p q r : Frame}

/-- The tables as the page table code sees them. -/
def State.table (s : State α) : PageTable.State α := ⟨s.mem, s.pml4, s.alloc, [], []⟩

lemma storeWord_entry (mem : PhysMem) (f : Frame) {i : Word} (hi : i.toNat < 512) (e : Word) :
    storeWord mem (frameAddr f + 8 * i) e = mem.write f (i.setWidth 9) e := by
  have hf := f.isLt
  have hbase : (frameAddr f).toNat = f.toNat * 4096 := by
    rw [frameAddr, BitVec.toNat_shiftLeft, BitVec.toNat_setWidth, Nat.shiftLeft_eq]
    omega
  have haddr : (frameAddr f + 8 * i).toNat = f.toNat * 4096 + 8 * i.toNat := by
    rw [BitVec.toNat_add, BitVec.toNat_mul, hbase, show (8 : Word).toNat = 8 from rfl]
    omega
  have hframe : frameOf (frameAddr f + 8 * i) = f := by
    apply BitVec.eq_of_toNat_eq
    rw [frameOf, BitVec.toNat_setWidth, BitVec.toNat_ushiftRight, haddr, Nat.shiftRight_eq_div_pow]
    omega
  have hindex : ((frameAddr f + 8 * i) >>> 3).setWidth 9 = i.setWidth 9 := by
    apply BitVec.eq_of_toNat_eq
    rw [BitVec.toNat_setWidth, BitVec.toNat_setWidth, BitVec.toNat_ushiftRight, haddr,
      Nat.shiftRight_eq_div_pow]
    omega
  rw [storeWord, hframe, hindex]

/-- The entry of a large page of the identity map. -/
def identityEntry (k : ℕ) : Word := BitVec.ofNat 64 (k * 0x200000) ||| 0x183

/-- What the search for a kernel address finds when `k` large pages are mapped and there are
page directories for the first `n` of them. -/
def identityFind (k n : ℕ) (x : VirtAddr) : ℕ × Word :=
  if x.toNat / 0x200000 < k then (2, identityEntry (x.toNat / 0x200000))
  else (if x.toNat / 0x40000000 * 512 < n then 2 else 1, 0)

/-- A map of the first `k` large pages, with page directories for the first `n`. -/
structure Built (used : α → Set Frame) (p : Frame) (k n : ℕ) (s : State α) : Prop where
  tree : Tree used {0} s.table
  pdpt : s.pdpt = frameAddr p
  root : s.mem s.table.root = UserMap.mapData (frameAddr p) s.pml4
  firstUnmapped : s.firstUnmapped = .ofNat 64 (k * 0x200000)
  find : ∀ x ∈ kernelAddresses, s.table.find (index x) = identityFind k n x

/-- Between two calls of `MapNext`. -/
def Between (used : α → Set Frame) (p : Frame) (k : ℕ) (s : State α) : Prop :=
  Built used p k k s ∧
    (k % 512 = 0 ∧ s.pdtOffset = 0x200 ∧ s.pdptOffset + 1 = .ofNat 64 (k / 512) ∨
      k % 512 ≠ 0 ∧ s.pdtOffset = .ofNat 64 (k % 512) ∧ s.pdptOffset = .ofNat 64 (k / 512) ∧
        ∃ q, s.currentPDT = frameAddr q ∧ s.table.tableAt (index s.firstUnmapped) 2 = some q)

/-- Within a call of `MapNext`, with a page directory for the next page. -/
structure Opened (used : α → Set Frame) (p : Frame) (k : ℕ) (s : State α) : Prop
    extends Built used p k (k + 1) s where
  pdtOffset : s.pdtOffset = .ofNat 64 (k % 512)
  pdptOffset : s.pdptOffset = .ofNat 64 (k / 512)
  directory : ∃ q, s.currentPDT = frameAddr q ∧
    s.table.tableAt (index s.firstUnmapped) 2 = some q

lemma toNat_next_page (hk : k < 2 ^ 18) :
    (BitVec.ofNat 64 (k * 0x200000)).toNat = k * 0x200000 := by
  rw [BitVec.toNat_ofNat]
  omega

lemma Built.next (h : Built used p k n s) (hk : k < 2 ^ 18) :
    s.firstUnmapped.toNat = k * 0x200000 ∧ s.firstUnmapped ∈ kernelAddresses := by
  have hnext : s.firstUnmapped.toNat = k * 0x200000 := by
    rw [h.firstUnmapped, toNat_next_page hk]
  refine ⟨hnext, show s.firstUnmapped.toNat < 2 ^ 39 by omega⟩

lemma Built.slot (h : Built used p k n s) : s.mem s.table.root 0 = frameAddr p ||| 3 := by
  rw [h.root]
  rfl

lemma isHuge_identityEntry (addr : Word) : isHuge (addr ||| 0x183) = true := by
  rw [isHuge_eq, BitVec.getLsbD_or, Bool.or_eq_true]
  exact .inr rfl

/-- `MapNext` after the page directory is there. -/
def State.mapPage (s : State α) : State α :=
  { s with
    mem := storeWord s.mem (s.currentPDT + 8 * s.pdtOffset) (s.firstUnmapped ||| 0x183)
    pdtOffset := s.pdtOffset + 1
    firstUnmapped := s.firstUnmapped + 0x200000 }

lemma Opened.mapPage_table (h : Opened used p k s) (hk : k < 2 ^ 18)
    (hq : s.currentPDT = frameAddr q) : s.mapPage.table =
      s.table.put q (index s.firstUnmapped 2) (s.firstUnmapped ||| 0x183) := by
  have hindex : index s.firstUnmapped 2 = s.pdtOffset.setWidth 9 := by
    apply BitVec.eq_of_toNat_eq
    rw [index_toNat, (h.next hk).1, h.pdtOffset, BitVec.toNat_setWidth, BitVec.toNat_ofNat]
    omega
  have hoffset : s.pdtOffset.toNat < 512 := by
    rw [h.pdtOffset, BitVec.toNat_ofNat]
    omega
  simp only [State.mapPage, State.table, State.put, hq, storeWord_entry _ _ hoffset, hindex]

lemma Opened.mapPage_firstUnmapped (h : Opened used p k s) :
    s.mapPage.firstUnmapped = .ofNat 64 ((k + 1) * 0x200000) := by
  show s.firstUnmapped + 0x200000 = _
  rw [h.firstUnmapped, Nat.succ_mul, BitVec.ofNat_add]
  rfl

lemma Opened.mapPage_built (h : Opened used p k s) (hk : k < 2 ^ 18) :
    Built used p (k + 1) (k + 1) s.mapPage := by
  obtain ⟨q, hq, htable⟩ := h.directory
  obtain ⟨hnext, hkernel⟩ := h.next hk
  have ha : index s.firstUnmapped 0 = 0 := index_kernel hkernel
  have htab := h.mapPage_table hk hq
  have hnone : link (s.firstUnmapped ||| 0x183) = none :=
    link_eq_none.mpr (.inr (isHuge_identityEntry _))
  have hroot : s.table.root ≠ q := by
    rintro rfl
    have := (h.tree.separate ha ha (by omega) (Nat.zero_le 3) htable rfl).1
    omega
  have hmod : s.firstUnmapped.toNat % (pageSizeAt 2).toNat = 0 := by
    rw [hnext]
    exact Nat.mul_mod_left k 0x200000
  refine ⟨?_, h.pdpt, ?_, h.mapPage_firstUnmapped, fun x hx => ?_⟩
  · rw [htab]
    exact h.tree.put_leaf ha (by omega) htable (.inr hnone)
  · show s.mapPage.table.mem s.table.root = _
    rw [htab]
    exact (write_of_ne _ _ _ hroot).trans h.root
  · rw [htab, h.tree.find_put ha (index_kernel hx) (by omega) htable (.inr hnone), h.find x hx]
    have hpage : Agree 3 (index s.firstUnmapped) (index x) ↔ x.toNat / 0x200000 = k := by
      rw [agree_iff_mem (by omega : 2 ≤ 3) hkernel hx hmod, mem_addresses, hnext,
        show (pageSizeAt 2).toNat = 0x200000 from rfl]
      omega
    by_cases hin : x.toNat / 0x200000 = k
    · rw [if_pos (hpage.mpr hin), identityFind, if_pos (by omega), hin, identityEntry,
        h.firstUnmapped]
    · rw [if_neg (mt hpage.mp hin), identityFind, identityFind]
      simp only [show x.toNat / 0x200000 < k ↔ x.toNat / 0x200000 < k + 1 by omega]

lemma Opened.mapPage_between (h : Opened used p k s) (hk : k < 2 ^ 18) :
    Between used p (k + 1) s.mapPage := by
  obtain ⟨q, hq, htable⟩ := h.directory
  obtain ⟨hnext, hkernel⟩ := h.next hk
  have ha : index s.firstUnmapped 0 = 0 := index_kernel hkernel
  have hoffset : s.mapPage.pdtOffset = .ofNat 64 (k % 512 + 1) := by
    show s.pdtOffset + 1 = _
    rw [h.pdtOffset, BitVec.ofNat_add]
    rfl
  refine ⟨h.mapPage_built hk, ?_⟩
  by_cases hfull : (k + 1) % 512 = 0
  · refine .inl ⟨hfull, ?_, ?_⟩
    · rw [hoffset, show k % 512 + 1 = 0x200 by omega]
      rfl
    · show s.pdptOffset + 1 = _
      rw [h.pdptOffset, show (k + 1) / 512 = k / 512 + 1 by omega, BitVec.ofNat_add]
      rfl
  · refine .inr ⟨hfull, ?_, ?_, q, hq, ?_⟩
    · rw [hoffset, show (k + 1) % 512 = k % 512 + 1 by omega]
    · rw [show (k + 1) / 512 = k / 512 by omega]
      exact h.pdptOffset
    · have hsame : Agree 2 (index s.firstUnmapped) (index s.mapPage.firstUnmapped) := by
        rw [agree_index_iff (by omega : 1 ≤ 3), SamePage, hnext, h.mapPage_firstUnmapped,
          toNat_next_page (by omega), show (pageSizeAt 1).toNat = 0x40000000 from rfl]
        omega
      rw [h.mapPage_table hk hq]
      exact (table_congr hsame).symm.trans (h.tree.put_table ha (by omega) htable)

lemma Built.pdpt_table (h : Built used p k n s) {x : VirtAddr} (hx : x ∈ kernelAddresses) :
    s.table.tableAt (index x) 1 = some p := by
  refine (table_succ rfl).trans ?_
  rw [index_kernel hx]
  exact (congrArg link h.slot).trans (link_frameAddr p (.inl rfl))

lemma Built.nextDirectory (hA : FrameContract A used) (h : Built used p k k s) (hk : k < 2 ^ 18)
    (hmod : k % 512 = 0) (hpdpt : s.pdptOffset + 1 = .ofNat 64 (k / 512))
    (hok : nextDirectory A s = .ok t) : Opened used p k t := by
  unfold MapSetup.nextDirectory at hok
  split at hok
  · cases hok
  rename_i fresh alloc halloc
  obtain rfl := Except.ok.inj hok
  obtain ⟨g, rfl, hg, hsub⟩ := hA.fresh halloc
  obtain ⟨hnext, hkernel⟩ := h.next hk
  have ha : index s.firstUnmapped 0 = 0 := index_kernel hkernel
  have hp := h.pdpt_table hkernel
  have hend : s.table.find (index s.firstUnmapped) = (1, 0) := by
    rw [h.find _ hkernel, identityFind, hnext, if_neg (by omega), if_neg (by omega)]
  have hzero : s.mem p (index s.firstUnmapped 1) = 0 := by
    obtain ⟨-, f, hf, he, -⟩ := find_spec s.table (index s.firstUnmapped)
    rw [hend] at hf he
    obtain rfl := Option.some.inj (hp.symm.trans hf)
    exact he.symm
  have hlink : link (frameAddr g ||| 3) = some g := link_frameAddr g (.inl rfl)
  have hnone : link (s.table.mem p (index s.firstUnmapped 1)) = none := by
    rw [show s.table.mem = s.mem from rfl, hzero]
    rfl
  have hpg : p ≠ g := fun he => hg (he ▸ h.tree.frame_used ha (by omega) hp)
  have hindex : index s.firstUnmapped 1 = (s.pdptOffset + 1).setWidth 9 := by
    apply BitVec.eq_of_toNat_eq
    rw [index_toNat, hnext, hpdpt, BitVec.toNat_setWidth, BitVec.toNat_ofNat]
    omega
  have hoffset : (s.pdptOffset + 1).toNat < 512 := by
    rw [hpdpt, BitVec.toNat_ofNat]
    omega
  have hmem : storeWord (bzero s.mem (frameAddr g)) (s.pdpt + 8 * (s.pdptOffset + 1))
      (frameAddr g ||| 3) =
        (s.mem.write p (index s.firstUnmapped 1) (frameAddr g ||| 3)).fill g 0 := by
    rw [h.pdpt, storeWord_entry _ _ hoffset, ← hindex, bzero, frameOf_frameAddr]
    exact fill_write s.mem hpg _ _ _
  have hgrow := h.tree.grow ha (by omega) hp hlink hg hsub hnone
    ((tableAddr_or (.inl rfl)).trans (tableAddr_frameAddr g))
  set u := s.table.grow p (index s.firstUnmapped 1) (frameAddr g ||| 3) g alloc with hu
  have hmod' : s.firstUnmapped.toNat % (pageSizeAt 1).toNat = 0 := by
    rw [hnext, show (pageSizeAt 1).toNat = 0x40000000 from rfl]
    omega
  have hfind : ∀ x ∈ kernelAddresses, u.find (index x) = identityFind k (k + 1) x := by
    intro x hx
    have hgiga : Agree 2 (index s.firstUnmapped) (index x) ↔ x.toNat / 0x40000000 = k / 512 := by
      rw [agree_iff_mem (by omega : 1 ≤ 3) hkernel hx hmod', mem_addresses, hnext,
        show (pageSizeAt 1).toNat = 0x40000000 from rfl]
      omega
    have hx' : index x 0 ∈ ({0} : Set Index) := index_kernel hx
    by_cases hon : x.toNat / 0x40000000 = k / 512
    · rw [identityFind, if_neg (by omega), if_pos (by omega)]
      exact find_grow_on h.tree.separate ha hx' (by omega) hp hlink link_zero (h.tree.unused hg)
        (hgiga.mpr hon)
    · have hsame : u.find (index x) = s.table.find (index x) :=
        find_grow_off h.tree.separate ha hx' (by omega) hp hlink link_zero (h.tree.unused hg)
          (mt hgiga.mp hon)
      rw [hsame, h.find x hx, identityFind, identityFind]
      simp only [show x.toNat / 0x40000000 * 512 < k ↔ x.toNat / 0x40000000 * 512 < k + 1 by omega]
  have hroot : s.table.root ≠ g := fun he => hg (he ▸ h.tree.rootUsed)
  have hroot' : s.table.root ≠ p := by
    rintro rfl
    have := (h.tree.separate ha ha (by omega : 1 ≤ 3) (Nat.zero_le 3) hp rfl).1
    omega
  have hkeep : u.mem s.table.root = UserMap.mapData (frameAddr p) s.pml4 := by
    rw [hu, grow_mem, fill_of_ne _ _ hroot, write_of_ne _ _ _ hroot']
    exact h.root
  have hnew : u.tableAt (index s.firstUnmapped) 2 = some g :=
    h.tree.grow_table ha (by omega : 1 < 3) hp hlink hg
  refine ⟨⟨?_, h.pdpt, ?_, h.firstUnmapped, ?_⟩, ?_, hpdpt, g, rfl, ?_⟩
  · simp only [State.table, hmem]
    exact ⟨hgrow.1, hgrow.2, hgrow.3, hgrow.4, hgrow.5, hgrow.6⟩
  · simp only [State.table, hmem]
    exact hkeep
  · simp only [State.table, hmem]
    exact hfind
  · rw [hmod]
    rfl
  · simp only [State.table, hmem]
    exact hnew

lemma Between.opened (hA : FrameContract A used) (h : Between used p k s) (hk : k < 2 ^ 18)
    (hok : (if s.pdtOffset = 0x200 then nextDirectory A s else .ok s) = .ok t) :
    Opened used p k t := by
  obtain ⟨h, ⟨hmod, hfull, hpdpt⟩ | ⟨hmod, hpdt, hpdpt, hdir⟩⟩ := h
  · rw [if_pos hfull] at hok
    exact h.nextDirectory hA hk hmod hpdpt hok
  · have hne : s.pdtOffset ≠ 0x200 := by
      rw [hpdt]
      intro he
      have := congrArg BitVec.toNat he
      rw [BitVec.toNat_ofNat, show (0x200 : Word).toNat = 512 from rfl] at this
      omega
    rw [if_neg hne] at hok
    obtain rfl := Except.ok.inj hok
    refine ⟨⟨h.tree, h.pdpt, h.root, h.firstUnmapped, fun x hx => ?_⟩, hpdt, hpdpt, hdir⟩
    rw [h.find x hx, identityFind, identityFind]
    simp only [show x.toNat / 0x40000000 * 512 < k ↔ x.toNat / 0x40000000 * 512 < k + 1 by omega]

lemma Between.mapNext (hA : FrameContract A used) (h : Between used p k s) (hk : k < 2 ^ 18)
    (hok : mapNext A s = .ok t) : Between used p (k + 1) t := by
  obtain ⟨u, hu, hok⟩ := bind_eq_ok.mp hok
  obtain rfl := Except.ok.inj hok
  exact (h.opened hA hk hu).mapPage_between hk

/-- The number of large pages that cover the bytes. -/
def pagesFor (bytes : ℕ) : ℕ := (bytes + 0x1fffff) / 0x200000

lemma pagesFor_next {bytes : Word} (h : bytes ≠ 0) : pagesFor bytes.toNat =
    1 + pagesFor (if bytes ≤ 0x200000 then 0 else bytes - 0x200000 : Word).toNat := by
  have hpos : bytes.toNat ≠ 0 := fun h0 => h (BitVec.eq_of_toNat_eq h0)
  have hlarge : (0x200000 : Word).toNat = 0x200000 := rfl
  unfold pagesFor
  by_cases hle : bytes ≤ 0x200000
  · rw [if_pos hle, show (0 : Word).toNat = 0 from rfl]
    rw [BitVec.le_def, hlarge] at hle
    omega
  · rw [if_neg hle, BitVec.toNat_sub, hlarge]
    rw [BitVec.le_def, hlarge] at hle
    omega

lemma Between.mapLoop (hA : FrameContract A used) {linearSize : Word} (h : Between used p k s)
    (hle : k + pagesFor linearSize.toNat ≤ 2 ^ 18) (hok : mapLoop A n linearSize s = .ok t) :
    Between used p (k + pagesFor linearSize.toNat) t := by
  have hdone : linearSize = 0 → s = t → Between used p (k + pagesFor linearSize.toNat) t := by
    rintro rfl rfl
    exact h
  induction n generalizing k linearSize s with
  | zero =>
    unfold MapSetup.mapLoop at hok
    split_ifs at hok with h0
    exact hdone h0 (Except.ok.inj hok)
  | succ n ih =>
    unfold MapSetup.mapLoop at hok
    by_cases h0 : linearSize = 0
    · rw [if_pos h0] at hok
      exact hdone h0 (Except.ok.inj hok)
    · rw [if_neg h0] at hok
      obtain ⟨u, hu, hok⟩ := bind_eq_ok.mp hok
      rw [pagesFor_next h0, ← Nat.add_assoc] at hle ⊢
      have hnext := h.mapNext hA (by omega) hu
      refine ih hnext hle hok ?_
      rintro h0 rfl
      rw [h0]
      exact hnext

lemma storeWord_first (mem : PhysMem) (f : Frame) (e : Word) :
    storeWord mem (frameAddr f) e = mem.write f 0 e := by
  have h := storeWord_entry mem f (i := 0) (by decide) e
  rwa [show frameAddr f + 8 * 0 = frameAddr f from BitVec.add_zero _] at h

lemma between_start (hA : FrameContract A used) (mem : PhysMem) {x y z : α} {pml4 pdpt : PhysAddr}
    (hpml4 : A.alloc 0x1000 0x1000 x = (some pml4, y))
    (hpdpt : A.alloc 0x1000 0x1000 y = (some pdpt, z)) :
    ∃ r p, pml4 = frameAddr r ∧ Between used p 0
      { mem := storeWord (storeWord (bzero (bzero mem pml4) pdpt) pml4 (pdpt ||| 3))
          (pml4 + 8 * 0x1ff) (pml4 ||| 3)
        alloc := z, pml4, pdpt
        pdtOffset := 0x200
        pdptOffset := -1
        currentPDT := 0
        firstUnmapped := 0 } := by
  obtain ⟨r, rfl, hr, hsub⟩ := hA.fresh hpml4
  obtain ⟨p, rfl, hp, hsub'⟩ := hA.fresh hpdpt
  have hrp : r ≠ p := fun he => hp (he ▸ hsub (.inl rfl))
  let s₀ : PageTable.State α :=
    ⟨(mem.fill r 0).write r 0x1ff (frameAddr r ||| 3), frameAddr r, y, [], []⟩
  have hroot : s₀.root = r := frameOf_frameAddr r
  have hzero : ∀ i ∈ ({0} : Set Index), s₀.mem s₀.root i = 0 := by
    rintro _ rfl
    show (mem.fill r 0).write r 0x1ff (frameAddr r ||| 3) (frameOf (frameAddr r)) 0 = 0
    rw [frameOf_frameAddr, write_apply, if_neg fun h => absurd h.2 (by decide), fill_self]
  have hself : link (s₀.mem s₀.root 0x1ff) = some s₀.root := by
    rw [hroot]
    show link ((mem.fill r 0).write r 0x1ff (frameAddr r ||| 3) r 0x1ff) = some r
    rw [write_self, link_frameAddr r (.inl rfl)]
  have hempty : Tree used {0} s₀ := .of_empty hzero (by decide) hself (by
    rw [hroot]
    exact hsub (.inl rfl))
  have hlink : link (frameAddr p ||| 3) = some p := link_frameAddr p (.inl rfl)
  have hnone : link (s₀.mem s₀.root 0) = none := by
    rw [hzero 0 rfl]
    rfl
  have hgrow := hempty.grow (a := index 0) (d := 0) rfl (by omega) rfl hlink hp hsub' hnone
    ((tableAddr_or (.inl rfl)).trans (tableAddr_frameAddr p))
  have hmem : storeWord (storeWord (bzero (bzero mem (frameAddr r)) (frameAddr p)) (frameAddr r)
      (frameAddr p ||| 3)) (frameAddr r + 8 * 0x1ff) (frameAddr r ||| 3) =
      (s₀.mem.write s₀.root 0 (frameAddr p ||| 3)).fill p 0 := by
    rw [storeWord_entry _ _ (by decide), storeWord_first, bzero, bzero, frameOf_frameAddr,
      frameOf_frameAddr, fill_write _ hrp, fill_write _ hrp, hroot]
    exact congrArg (Store.fill · p 0) (write_comm _ r (by decide) _ _)
  have hcount : (-1 : Word) + 1 = 0 := by decide
  refine ⟨r, p, rfl, ⟨?_, rfl, ?_, rfl, fun x hx => ?_⟩, .inl ⟨rfl, rfl, hcount⟩⟩
  · simp only [State.table, hmem]
    exact ⟨hgrow.1, hgrow.2, hgrow.3, hgrow.4, hgrow.5, hgrow.6⟩
  · simp only [State.table, hmem]
    funext i
    show ((s₀.mem.write s₀.root 0 (frameAddr p ||| 3)).fill p 0) (frameOf (frameAddr r)) i = _
    rw [frameOf_frameAddr, fill_of_ne _ _ hrp, hroot, write_apply, UserMap.mapData]
    simp only [true_and, s₀, write_apply, fill_self]
  · simp only [State.table, hmem]
    have hagree : Agree (0 + 1) (index 0) (index x) := fun j hj => by
      obtain rfl : j = 0 := by omega
      exact (index_kernel hx).symm
    have hx' : index x 0 ∈ ({0} : Set Index) := index_kernel hx
    rw [identityFind, if_neg (Nat.not_lt_zero _), if_neg (Nat.not_lt_zero _)]
    exact find_grow_on (a := index 0) (d := 0) hempty.separate rfl hx' (by omega) rfl hlink
      link_zero (hempty.unused hp) hagree

/-- `GenerateMap` maps the memory below `reservedEnd`, rounded up to large pages. -/
theorem generateMap_built (hA : FrameContract A used) {reservedEnd : PhysAddr} {mem : PhysMem}
    {x : α} (hend : reservedEnd.toNat ≤ kernelEnd.toNat)
    (hok : generateMap A reservedEnd mem x = .ok t) :
    ∃ p, Between used p (pagesFor reservedEnd.toNat) t := by
  unfold generateMap at hok
  split at hok
  · cases hok
  rename_i pml4 y hpml4
  split at hok
  · cases hok
  rename_i pdpt z hpdpt
  obtain ⟨r, p, -, hstart⟩ := between_start hA mem hpml4 hpdpt
  have hK : kernelEnd.toNat = 2 ^ 39 := rfl
  have hle : 0 + pagesFor reservedEnd.toNat ≤ 2 ^ 18 := by
    unfold pagesFor
    omega
  have h := hstart.mapLoop hA hle hok
  rw [Nat.zero_add] at h
  exact ⟨p, h⟩

lemma Built.kernelHalf (h : Built used p k n s) (hk : 0 < k) : KernelHalf used p s.table :=
  ⟨h.tree, h.slot, by
    rw [h.find 0 (show (0 : VirtAddr).toNat < kernelEnd.toNat by decide), identityFind,
      if_pos (show (0 : VirtAddr).toNat / 0x200000 < k from hk)]
    rfl⟩

end

end Anarch.MapSetup
