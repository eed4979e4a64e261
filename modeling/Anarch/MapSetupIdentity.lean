import Anarch.MapSetup
import Anarch.PageTableFractal

/-! What the processor makes of the first kernel map: memory itself below the reserved end,
and nothing from there to the end of the kernel addresses. -/
namespace Anarch.MapSetup
open PageTable RadixTree

/-- The allocator hands out frames that it has not handed out before. -/
def HandsOutFrames {α : Type} (A : AllocatorOps α) (used : α → Set Frame) : Prop :=
  ∀ x y p, A.alloc 0x1000 0x1000 x = (some p, y) →
    ∃ f, p = frameAddr f ∧ f ∉ used x ∧ insert f (used x) ⊆ used y

/-- A present, writable and global page of 2 MiB. -/
structure LargeGlobal (entry : Word) : Prop where
  present : isPresent entry = true
  writable : entry.getLsbD 1 = true
  large : isHuge entry = true
  global : entry.getLsbD 8 = true

/-- The addresses below the end are mapped to themselves in large pages, those above are not
mapped, and the PML4 has the PDPT and itself. -/
structure IdentityMap {α : Type} (mappedEnd : ℕ) (t : State α) : Prop where
  inside : ∀ v : VirtAddr, v.toNat < mappedEnd → physical t.mem t.pml4 v = some v ∧
    ∃ entry, LargeGlobal entry ∧ t.table.find (index v) = (2, entry)
  outside : ∀ v : VirtAddr, mappedEnd ≤ v.toNat → v.toNat < kernelEnd.toNat →
    PageTable.translate t.mem t.pml4 v = none
  pml4 : ∀ i, t.mem (frameOf t.pml4) i =
    if i = 0 then t.pdpt ||| 3 else if i = 0x1ff then t.pml4 ||| 3 else 0

/-- The page directories that `n` more pages need, when the current one has `offset` entries. -/
def directoriesFor (n offset : ℕ) : ℕ := (n + offset - 1) / 512

/-- A panic, because one of the next `n` tables gets no frame. -/
def NoFrame {α : Type} (A : AllocatorOps α) (n : ℕ) (x : α) (fault : Fault) : Prop :=
  (∃ msg, fault = .panic msg) ∧ RunsOut A n x

section
variable {α : Type} {A : AllocatorOps α} {used : α → Set Frame} {s t : State α} {k n : ℕ}
variable {v : VirtAddr} {fault : Fault} {linearSize : Word}

lemma identityEntry_largeGlobal (k : ℕ) : LargeGlobal (identityEntry k) where
  present := by
    rw [isPresent_eq, identityEntry, BitVec.getLsbD_or, Bool.or_eq_true]
    exact .inr rfl
  writable := by
    rw [identityEntry, BitVec.getLsbD_or, Bool.or_eq_true]
    exact .inr rfl
  large := isHuge_identityEntry _
  global := by
    rw [identityEntry, BitVec.getLsbD_or, Bool.or_eq_true]
    exact .inr rfl

lemma frameOf_identityEntry (hk : k < 2 ^ 18) : (frameOf (identityEntry k)).toNat = k * 512 := by
  have hentry : (identityEntry k).toNat = k * 0x200000 + 0x183 := by
    rw [identityEntry, BitVec.toNat_or, toNat_next_page hk, Nat.mul_comm]
    exact (Nat.two_pow_add_eq_or_of_lt (i := 21) (by decide) k).symm
  rw [frameOf, BitVec.toNat_setWidth, BitVec.toNat_ushiftRight, Nat.shiftRight_eq_div_pow, hentry]
  omega

lemma physical_identity (hv : v.toNat < 2 ^ 39) :
    frameAddr (frameInPage (frameOf (identityEntry (v.toNat / 0x200000))) v 9) +
      (v.setWidth 12).setWidth 64 = v := by
  have hframe := frameInPage_toNat (v := v)
    (frameOf_identityEntry (show v.toNat / 0x200000 < 2 ^ 18 by omega))
  apply BitVec.eq_of_toNat_eq
  rw [BitVec.toNat_add, frameAddr, BitVec.toNat_shiftLeft, BitVec.toNat_setWidth, hframe,
    BitVec.toNat_setWidth, BitVec.toNat_setWidth, Nat.shiftLeft_eq]
  omega

lemma mapNext_error (h : mapNext A s = .error fault) :
    s.pdtOffset = 0x200 ∧ NoFrame A 1 s.alloc fault := by
  rcases bind_eq_error.mp h with h | ⟨u, -, h⟩
  · split_ifs at h with hfull
    unfold nextDirectory at h
    split at h
    · rename_i y hnone
      cases h
      exact ⟨hfull, ⟨_, rfl⟩, .inl (by rw [hnone])⟩
    · cases h
  · cases h

lemma mapNext_offset (h : mapNext A s = .ok t) :
    s.pdtOffset = 0x200 ∧ t.pdtOffset = 1 ∧ t.alloc = (A.alloc 0x1000 0x1000 s.alloc).2 ∨
      s.pdtOffset ≠ 0x200 ∧ t.pdtOffset = s.pdtOffset + 1 ∧ t.alloc = s.alloc := by
  obtain ⟨u, hu, h⟩ := bind_eq_ok.mp h
  obtain rfl := Except.ok.inj h
  split_ifs at hu with hfull
  · unfold nextDirectory at hu
    split at hu
    · cases hu
    · rename_i y halloc
      obtain rfl := Except.ok.inj hu
      exact .inl ⟨hfull, rfl, by rw [halloc]⟩
  · obtain rfl := Except.ok.inj hu
    exact .inr ⟨hfull, rfl, rfl⟩

/-- A round for each page is enough. -/
lemma mapLoop_error (hn : pagesFor linearSize.toNat ≤ n) (hoffset : s.pdtOffset.toNat ≤ 0x200)
    (h : mapLoop A n linearSize s = .error fault) :
    NoFrame A (directoriesFor (pagesFor linearSize.toNat) s.pdtOffset.toNat) s.alloc fault := by
  induction n generalizing linearSize s with
  | zero =>
    have hzero : linearSize = 0 := by
      by_contra h0
      rw [pagesFor_next h0] at hn
      omega
    rw [mapLoop, if_pos hzero] at h
    cases h
  | succ n ih =>
    rw [mapLoop] at h
    by_cases h0 : linearSize = 0
    · rw [if_pos h0] at h
      cases h
    · rw [if_neg h0] at h
      have hpages := pagesFor_next h0
      rw [hpages] at hn ⊢
      rcases bind_eq_error.mp h with h | ⟨u, hu, h⟩
      · obtain ⟨hfull, hpanic, hout⟩ := mapNext_error h
        refine ⟨hpanic, hout.mono ?_⟩
        rw [hfull, directoriesFor, show (0x200 : Word).toNat = 512 from rfl]
        omega
      · rcases mapNext_offset hu with ⟨hfull, hone, halloc⟩ | ⟨hfree, hnext, halloc⟩
        · obtain ⟨hpanic, hout⟩ := ih (by omega) (by rw [hone]; decide) h
          rw [halloc, hone] at hout
          refine ⟨hpanic, ((runsOut_succ A _ s.alloc).mpr (.inr hout)).mono ?_⟩
          rw [hfull, directoriesFor, directoriesFor, show (0x200 : Word).toNat = 512 from rfl,
            show (1 : Word).toNat = 1 from rfl]
          omega
        · have hlt : s.pdtOffset.toNat ≠ 512 := fun he => hfree (BitVec.eq_of_toNat_eq he)
          have hval : u.pdtOffset.toNat = s.pdtOffset.toNat + 1 := by
            rw [hnext, BitVec.toNat_add, show (1 : Word).toNat = 1 from rfl]
            omega
          obtain ⟨hpanic, hout⟩ := ih (by omega) (by omega) h
          refine ⟨hpanic, (halloc ▸ hout).mono ?_⟩
          rw [hval, directoriesFor, directoriesFor]
          omega

lemma generateMap_error {reservedEnd : PhysAddr} {mem : PhysMem} {x : α}
    (h : generateMap A reservedEnd mem x = .error fault) :
    NoFrame A (2 + directoriesFor (pagesFor reservedEnd.toNat) 512) x fault := by
  rw [NoFrame, Nat.add_comm, runsOut_succ, runsOut_succ]
  unfold generateMap at h
  split at h
  · rename_i y hnone
    cases h
    exact ⟨⟨_, rfl⟩, .inl (by rw [hnone])⟩
  rename_i pml4 y hpml4
  rw [hpml4]
  split at h
  · rename_i z hnone
    cases h
    exact ⟨⟨_, rfl⟩, .inr (.inl (by rw [hnone]))⟩
  rename_i pdpt z hpdpt
  rw [hpdpt]
  have hn : pagesFor reservedEnd.toNat ≤ reservedEnd.toNat := by
    unfold pagesFor
    omega
  obtain ⟨hpanic, hout⟩ := mapLoop_error hn le_rfl h
  exact ⟨hpanic, .inr (.inr hout)⟩

lemma mapLoop_free (free : PhysAddr → α → α) (linearSize : Word) (s : State α) :
    mapLoop { A with free } n linearSize s = mapLoop A n linearSize s := by
  induction n generalizing linearSize s with
  | zero => rfl
  | succ n ih =>
    rw [mapLoop, mapLoop]
    simp only [ih]
    rfl

lemma generateMap_free (free : PhysAddr → α → α) (reservedEnd : PhysAddr) (mem : PhysMem) (x : α) :
    generateMap { A with free } reservedEnd mem x = generateMap A reservedEnd mem x := by
  simp only [generateMap, mapLoop_free]

lemma frameContract (hA : HandsOutFrames A used) :
    FrameContract { A with free := fun _ x => x } used :=
  ⟨fun h => hA _ _ _ h, fun _ _ => Set.sdiff_subset⟩

lemma Built.identityMap {p : Frame} (h : Built used p k n t) (hk : k ≤ 2 ^ 18) :
    IdentityMap (k * 0x200000) t where
  inside v hv := by
    have hfind := h.find v (show v.toNat < 2 ^ 39 by omega)
    rw [identityFind, if_pos (by omega)] at hfind
    refine ⟨?_, _, identityEntry_largeGlobal _, hfind⟩
    have hwalk := translate_eq_find (t := t.table) (canonical_of_lt (show v.toNat < 2 ^ 47 by omega))
    rw [hfind, if_pos ⟨Nat.two_pos, (identityEntry_largeGlobal _).present⟩] at hwalk
    rw [physical]
    refine (congrArg _ hwalk).trans ?_
    exact congrArg some (physical_identity (by omega))
  outside v hle hlt := by
    have hfind := h.find v hlt
    rw [identityFind, if_neg (by omega)] at hfind
    have hK : kernelEnd.toNat = 2 ^ 39 := rfl
    have hwalk := translate_eq_find (t := t.table) (canonical_of_lt (show v.toNat < 2 ^ 47 by omega))
    have habsent : isPresent 0 = false := rfl
    rw [hfind, if_neg fun hfound => Bool.false_ne_true (habsent.symm.trans hfound.2)] at hwalk
    exact hwalk
  pml4 i := by
    rw [h.pdpt]
    exact congrFun h.root i

/-- `GenerateMap` leaves the identity map of the memory below `reservedEnd`, rounded up to large
pages, or panics because one of its tables got no frame. It makes a page directory for every 512
pages. -/
theorem generateMap_identity (hA : HandsOutFrames A used) {reservedEnd : PhysAddr} (mem : PhysMem)
    (x : α) (hend : reservedEnd.toNat ≤ 2 ^ 39) :
    (∀ fault, generateMap A reservedEnd mem x = .error fault →
      NoFrame A (2 + directoriesFor (pagesFor reservedEnd.toNat) 512) x fault) ∧
    ∀ t, generateMap A reservedEnd mem x = .ok t →
      IdentityMap (pagesFor reservedEnd.toNat * 0x200000) t := by
  refine ⟨fun _ => generateMap_error, fun t hok => ?_⟩
  rw [← generateMap_free fun _ x => x] at hok
  obtain ⟨p, h, -⟩ := generateMap_built (frameContract hA) hend hok
  refine h.identityMap ?_
  unfold pagesFor
  omega

/-- Memory up to the middle of a third large page. -/
theorem generateMap_identity_three_pages :
    ∃ t, generateMap nextFrame 0x500000 (fun _ _ => 0) 1 = .ok t ∧ IdentityMap 0x600000 t := by
  have hrun : (generateMap nextFrame 0x500000 (fun _ _ => 0) 1).toOption.map
      (fun setup => setup.firstUnmapped) = some 0x600000 := by decide +kernel
  obtain ⟨t, hok, -⟩ := exists_ok_of_map hrun
  have hframes : HandsOutFrames nextFrame firstFrames := fun _ _ _ h => nextFrame_contract.fresh h
  exact ⟨t, hok, (generateMap_identity hframes (fun _ _ => 0) 1 (by decide)).2 t hok⟩

end

end Anarch.MapSetup
