import Anarch.FreeFinderScan
import Mathlib.Data.Set.Lattice
import Mathlib.Order.CompletePartialOrder

/-! The operations on the candidate as operations on an interval of numbers, where no sum
passes the end of a word. -/
namespace Anarch.FreeFinder
open PageTable

namespace Finder
variable {f f' : Finder} {size align : Word} {addr : VirtAddr}

def Fits (f : Finder) (size align : Word) : Prop :=
  (f.slice align).toNat + size.toNat ≤ f.freeSize.toNat

instance (f : Finder) (size align : Word) : Decidable (f.Fits size align) :=
  inferInstanceAs (Decidable (_ ≤ _))

lemma fits_of_canAllocate (h : f.canAllocate size align = .ok true) (hsize : size ≠ 0) :
    f.Fits size align := by
  rw [canAllocate, if_neg hsize] at h
  obtain ⟨_, _, h⟩ := bind_eq_ok.mp h
  have h := Except.ok.inj h
  by_cases hle : f.freeSize ≤ f.slice align
  · rw [if_pos hle] at h
    cases h
  · rw [if_neg hle, decide_eq_true_iff, BitVec.le_def] at h
    rw [BitVec.le_def] at hle
    rw [BitVec.toNat_sub_of_le (BitVec.le_def.mpr (by omega))] at h
    rw [Fits]
    omega

lemma slice_toNat (halign : align ≠ 0) : (f.slice align).toNat =
    if f.freeStart.toNat % align.toNat = 0 then 0
    else align.toNat - f.freeStart.toNat % align.toNat := by
  have hpos : 0 < align.toNat := by
    rw [Nat.pos_iff_ne_zero]
    exact fun h => halign (BitVec.eq_of_toNat_eq h)
  have hmod : (f.freeStart % align).toNat = f.freeStart.toNat % align.toNat :=
    BitVec.toNat_umod
  have hzero : f.freeStart % align = 0 ↔ f.freeStart.toNat % align.toNat = 0 := by
    rw [← hmod]
    exact ⟨fun h => by rw [h]; rfl, fun h => BitVec.eq_of_toNat_eq h⟩
  have hlt : f.freeStart.toNat % align.toNat < align.toNat := Nat.mod_lt _ hpos
  rw [Finder.slice]
  by_cases h : f.freeStart % align = 0
  · rw [if_neg (not_not.mpr h), if_pos (hzero.mp h)]
    rfl
  · rw [if_pos h, if_neg (mt hzero.mpr h),
      BitVec.toNat_sub_of_le (BitVec.le_def.mpr (by omega)), hmod]

lemma slice_multiple (halign : align ≠ 0) :
    align.toNat ∣ f.freeStart.toNat + (f.slice align).toNat ∧
      (f.slice align).toNat < align.toNat := by
  have hpos : 0 < align.toNat := by
    rw [Nat.pos_iff_ne_zero]
    exact fun h => halign (BitVec.eq_of_toNat_eq h)
  have hlt : f.freeStart.toNat % align.toNat < align.toNat := Nat.mod_lt _ hpos
  have hdiv := Nat.div_add_mod f.freeStart.toNat align.toNat
  rw [slice_toNat halign]
  split_ifs with h
  · exact ⟨Nat.dvd_of_mod_eq_zero h, hpos⟩
  · refine ⟨⟨f.freeStart.toNat / align.toNat + 1, ?_⟩, by omega⟩
    rw [Nat.mul_succ]
    omega

lemma take_toNat (hf : f.freeStart.toNat + f.freeSize.toNat < 2 ^ 64) (hfits : f.Fits size align)
    (hok : f.take size align = .ok (addr, f')) :
    addr.toNat = f.freeStart.toNat + (f.slice align).toNat ∧
      f'.freeStart.toNat = addr.toNat + size.toNat ∧
      f'.freeSize.toNat = f.freeSize.toNat - (f.slice align).toNat - size.toNat := by
  rw [Fits] at hfits
  obtain ⟨_, _, hok⟩ := bind_eq_ok.mp hok
  obtain ⟨rfl, rfl⟩ := Prod.mk.inj (Except.ok.inj hok)
  have hstart : (f.freeStart + f.slice align).toNat = _ := toNat_next (by omega)
  have hleft : (f.freeSize - f.slice align).toNat = _ :=
    BitVec.toNat_sub_of_le (BitVec.le_def.mpr (by omega))
  have hrest : (f.freeSize - f.slice align - size).toNat = _ :=
    BitVec.toNat_sub_of_le (BitVec.le_def.mpr (by omega))
  have hnext : (f.freeStart + f.slice align + size).toNat = _ := toNat_next (by omega)
  exact ⟨hstart, hnext, by rw [hrest, hleft]⟩

lemma free_toNat (f : Finder) (addr : VirtAddr) (size : Word)
    (hf : f.freeStart.toNat + f.freeSize.toNat < 2 ^ 64)
    (hend : addr.toNat + size.toNat < 2 ^ 64) :
    (addr.toNat = f.freeStart.toNat + f.freeSize.toNat ∧
      (f.free addr size).freeStart.toNat = f.freeStart.toNat ∧
      (f.free addr size).freeSize.toNat = f.freeSize.toNat + size.toNat) ∨
    (addr.toNat + size.toNat = f.freeStart.toNat ∧
      (f.free addr size).freeStart.toNat = addr.toNat ∧
      (f.free addr size).freeSize.toNat = f.freeSize.toNat + size.toNat) ∨
    f.free addr size = f := by
  have hlast : (f.freeStart + f.freeSize).toNat = _ := toNat_next hf
  have hstart : (addr + size).toNat = _ := toNat_next hend
  rw [Finder.free]
  split_ifs with hafter hbefore
  · rw [← hafter] at hlast
    exact .inl ⟨hlast, rfl, toNat_next (by omega)⟩
  · rw [hbefore] at hstart
    have hback : f.freeStart - size = addr := by rw [← hbefore, BitVec.add_sub_cancel]
    exact .inr (.inl ⟨hstart.symm, by rw [hback], toNat_next (by omega)⟩)
  · exact .inr (.inr rfl)

lemma reserve_toNat (f : Finder) (addr : VirtAddr) (size : Word)
    (hf : f.freeStart.toNat + f.freeSize.toNat < 2 ^ 64)
    (hend : addr.toNat + size.toNat < 2 ^ 64) {left right : ℕ}
    (hleft : left = min (f.freeStart.toNat + f.freeSize.toNat) addr.toNat - f.freeStart.toNat)
    (hright : right = f.freeStart.toNat + f.freeSize.toNat -
      max f.freeStart.toNat (addr.toNat + size.toNat)) :
    (right < left ∨ right = 0 ∧ left = 0) ∧
      (f.reserve addr size).freeStart = f.freeStart ∧
      (f.reserve addr size).freeSize.toNat = left ∨
    left ≤ right ∧ 0 < right ∧
      (f.reserve addr size).freeStart.toNat =
        f.freeStart.toNat + f.freeSize.toNat - right ∧
      (f.reserve addr size).freeSize.toNat = right := by
  have hlast : (f.freeStart + f.freeSize).toNat = _ := toNat_next hf
  have hafter : (addr + size).toNat = _ := toNat_next hend
  have hcut : (f.freeStart + f.freeSize < addr ∨ addr + size ≤ f.freeStart) ↔
      f.freeStart.toNat + f.freeSize.toNat < addr.toNat ∨
        addr.toNat + size.toNat ≤ f.freeStart.toNat := by
    rw [BitVec.lt_def, BitVec.le_def, hlast, hafter]
  have hleftSize : (if f.freeStart < addr then addr - f.freeStart else 0).toNat =
      addr.toNat - f.freeStart.toNat := by
    split_ifs with hlt <;> rw [BitVec.lt_def] at hlt
    · exact BitVec.toNat_sub_of_le (BitVec.le_def.mpr hlt.le)
    · exact (Nat.sub_eq_zero_of_le (not_lt.mp hlt)).symm
  have hrightSize : (if addr + size < f.freeStart + f.freeSize
      then f.freeStart + f.freeSize - (addr + size) else 0).toNat =
      f.freeStart.toNat + f.freeSize.toNat - (addr.toNat + size.toNat) := by
    rw [← hlast, ← hafter]
    split_ifs with hlt <;> rw [BitVec.lt_def] at hlt
    · exact BitVec.toNat_sub_of_le (BitVec.le_def.mpr hlt.le)
    · exact (Nat.sub_eq_zero_of_le (not_lt.mp hlt)).symm
  simp only [Finder.reserve]
  generalize (if f.freeStart < addr then addr - f.freeStart else 0) = leftSize at hleftSize ⊢
  generalize (if addr + size < f.freeStart + f.freeSize
    then f.freeStart + f.freeSize - (addr + size) else 0) = rightSize at hrightSize ⊢
  have hpieces : ¬ (f.freeStart + f.freeSize < addr ∨ addr + size ≤ f.freeStart) →
      leftSize.toNat = left ∧ rightSize.toNat = right := by
    intro hmeets
    rw [hcut, not_or, not_lt, not_le] at hmeets
    rw [hleft, hright, min_eq_right hmeets.1, max_eq_right hmeets.2.le]
    exact ⟨hleftSize, hrightSize⟩
  split_ifs with hout hnone hlonger
  · -- the range lies beside the candidate, all of which is one of the pieces
    have hbeside : left = f.freeSize.toNat ∧ right = 0 ∨ left = 0 ∧ right = f.freeSize.toNat := by
      rcases hcut.mp hout with hbefore | hafter
      · refine .inl ⟨?_, ?_⟩
        · rw [hleft, min_eq_left hbefore.le, Nat.add_sub_cancel_left]
        · rw [hright, Nat.sub_eq_zero_of_le]
          exact hbefore.le.trans ((Nat.le_add_right _ _).trans (le_max_right _ _))
      · refine .inr ⟨?_, ?_⟩
        · rw [hleft, Nat.sub_eq_zero_of_le]
          exact (min_le_right _ _).trans ((Nat.le_add_right _ _).trans hafter)
        · rw [hright, max_eq_left hafter, Nat.add_sub_cancel_left]
    clear hleft hright hpieces
    rcases hbeside with ⟨hl, hr⟩ | ⟨hl, hr⟩
    · exact .inl ⟨by omega, rfl, hl.symm⟩
    · rcases Nat.eq_zero_or_pos right with hzero | hpos
      · exact .inl ⟨.inr ⟨hzero, hl⟩, rfl, by omega⟩
      · exact .inr ⟨by omega, hpos, by omega, hr.symm⟩
  · obtain ⟨hl, hr⟩ := hpieces hout
    rw [hnone.1] at hl
    rw [hnone.2] at hr
    exact .inl ⟨.inr ⟨hr.symm, hl.symm⟩, rfl, hl⟩
  · obtain ⟨hl, hr⟩ := hpieces hout
    rw [BitVec.lt_def, hl, hr] at hlonger
    exact .inl ⟨.inl hlonger, rfl, hl⟩
  · obtain ⟨hl, hr⟩ := hpieces hout
    rw [BitVec.lt_def, hl, hr, not_lt] at hlonger
    have hpos : 0 < right := by
      refine Nat.pos_of_ne_zero fun hzero => hnone ⟨?_, ?_⟩
      · exact BitVec.eq_of_toNat_eq (hl.trans (Nat.le_zero.mp (hzero ▸ hlonger)))
      · exact BitVec.eq_of_toNat_eq (hr.trans hzero)
    have hle : right ≤ f.freeSize.toNat := by
      rw [hright, Nat.sub_le_iff_le_add, Nat.add_comm]
      exact Nat.add_le_add_left (le_max_left _ _) _
    clear hleft hright hleftSize hrightSize hpieces
    have hback : (f.freeSize - rightSize).toNat = f.freeSize.toNat - right := by
      rw [BitVec.toNat_sub_of_le (BitVec.le_def.mpr (hr.trans_le hle)), hr]
    refine .inr ⟨hlonger, hpos, ?_, hr⟩
    show (f.freeStart + (f.freeSize - rightSize)).toNat = _
    rw [toNat_next (by omega), hback]
    omega

def region (f : Finder) : Set ℕ :=
  Set.Ico f.freeStart.toNat (f.freeStart.toNat + f.freeSize.toNat)

/-- The pieces of the candidate before one address and from another address on. -/
def leftPiece (f : Finder) (addr : ℕ) : ℕ × ℕ :=
  (f.freeStart.toNat, min (f.freeStart.toNat + f.freeSize.toNat) addr)

def rightPiece (f : Finder) (stop : ℕ) : ℕ × ℕ :=
  (max f.freeStart.toNat stop, f.freeStart.toNat + f.freeSize.toNat)

def longer (left right : ℕ × ℕ) : ℕ × ℕ :=
  if left.2 - left.1 ≤ right.2 - right.1 then right else left

lemma longer_of_le {left right : ℕ × ℕ} (h : left.2 - left.1 ≤ right.2 - right.1) :
    longer left right = right := if_pos h

lemma longer_of_lt {left right : ℕ × ℕ} (h : right.2 - right.1 < left.2 - left.1) :
    longer left right = left := if_neg (not_le.mpr h)

lemma free_region (hf : f.freeStart.toNat + f.freeSize.toNat < 2 ^ 64)
    (hend : addr.toNat + size.toNat < 2 ^ 64) :
    (f.free addr size).region ⊆
      f.region ∪ Set.Ico addr.toNat (addr.toNat + size.toNat) := by
  rintro x ⟨hlow, hhigh⟩
  rcases free_toNat f addr size hf hend with ⟨hafter, hstart, hsize⟩ | ⟨hbefore, hstart, hsize⟩ | hsame
  · rcases lt_or_ge x (f.freeStart.toNat + f.freeSize.toNat) with hx | hx
    · exact .inl ⟨by omega, hx⟩
    · exact .inr ⟨by omega, by omega⟩
  · rcases lt_or_ge x f.freeStart.toNat with hx | hx
    · exact .inr ⟨by omega, by omega⟩
    · exact .inl ⟨hx, by omega⟩
  · rw [hsame] at hlow hhigh
    exact .inl ⟨hlow, hhigh⟩

lemma reserve_region (hf : f.freeStart.toNat + f.freeSize.toNat < 2 ^ 64)
    (hend : addr.toNat + size.toNat < 2 ^ 64) {piece : ℕ × ℕ}
    (hpiece : piece =
      longer (f.leftPiece addr.toNat) (f.rightPiece (addr.toNat + size.toNat))) :
    (f.reserve addr size).region = Set.Ico piece.1 piece.2 := by
  subst hpiece
  rcases reserve_toNat f addr size hf hend rfl rfl with
    ⟨hlonger | ⟨hright, hleft⟩, hstart, hsize⟩ | ⟨hle, hpos, hstart, hsize⟩
  · rw [longer_of_lt hlonger, region, hstart, hsize, leftPiece]
    congr 1
    omega
  · have hle : (f.leftPiece addr.toNat).2 - (f.leftPiece addr.toNat).1 ≤
        (f.rightPiece (addr.toNat + size.toNat)).2 -
          (f.rightPiece (addr.toNat + size.toNat)).1 := by
      rw [leftPiece, hleft]
      exact Nat.zero_le _
    have hempty : (f.rightPiece (addr.toNat + size.toNat)).2 ≤
        (f.rightPiece (addr.toNat + size.toNat)).1 := Nat.le_of_sub_eq_zero hright
    rw [longer_of_le hle, region, hsize, hleft, Nat.add_zero, Set.Ico_self,
      Set.Ico_eq_empty_of_le hempty]
  · rw [longer_of_le hle, region, hstart, hsize,
      rightPiece]
    congr 1 <;> omega

end Finder

section
variable {α : Type} {pml4 : PhysAddr} {s : PageTable.State α} {f f' : Finder}
variable {size align : Word} {addr : VirtAddr}

/-- The end of `Alloc`, from the candidate that there is then. -/
def serve (f : Finder) (size align : Word) : Outcome (Option VirtAddr × Finder) := do
  if ← f.canAllocate size align then
    let (addr, f) ← f.take size align
    return (some addr, f)
  else return (none, f)

lemma alloc_eq {can : Bool} (hcan : f.canAllocate size align = .ok can) :
    alloc pml4 s size align f =
      if can then serve f size align
      else updateFreeRegion pml4 s f >>= fun g => serve g size align := by
  rw [alloc, hcan]
  cases can <;> rfl

lemma serve_take (hroom : f.canAllocate size align = .ok true)
    (htake : f.take size align = .ok (addr, f')) : serve f size align = .ok (some addr, f') := by
  simp only [serve, hroom, bind, Except.bind, if_true, htake, pure, Except.pure]

lemma alloc_of_room (hroom : f.canAllocate size align = .ok true)
    (htake : f.take size align = .ok (addr, f')) :
    alloc pml4 s size align f = .ok (some addr, f') := by
  rw [alloc_eq hroom, if_pos rfl]
  exact serve_take hroom htake

lemma alloc_of_search {g : Finder} (hno : f.canAllocate size align = .ok false)
    (hsearch : updateFreeRegion pml4 s f = .ok g) (hroom : g.canAllocate size align = .ok true)
    (htake : g.take size align = .ok (addr, f')) :
    alloc pml4 s size align f = .ok (some addr, f') := by
  rw [alloc_eq hno, hsearch, if_neg Bool.false_ne_true]
  exact serve_take hroom htake

/-- `Alloc` uses the old candidate or, when that has no room, the one that the search finds. A
request for nothing is served unchecked. -/
lemma alloc_served {r : Option VirtAddr} (hzero : size = 0 → f.Fits size align)
    (hok : alloc pml4 s size align f = .ok (r, f')) :
    ∃ g, (g = f ∨ f.canAllocate size align = .ok false ∧ updateFreeRegion pml4 s f = .ok g) ∧
      (r = none ∧ f' = g ∧ size ≠ 0 ∨
        ∃ addr, r = some addr ∧ g.take size align = .ok (addr, f') ∧ g.Fits size align) := by
  have hroom : ∀ {g : Finder}, g.canAllocate size align = .ok false → size ≠ 0 := by
    rintro g h rfl
    cases h
  obtain ⟨can, hcan, -⟩ := bind_eq_ok.mp hok
  rw [alloc_eq hcan] at hok
  obtain ⟨g, hg, hsame, hok⟩ : ∃ g, (g = f ∨ f.canAllocate size align = .ok false ∧
      updateFreeRegion pml4 s f = .ok g) ∧ (size = 0 → g = f) ∧
        serve g size align = .ok (r, f') := by
    cases can with
    | true => exact ⟨f, .inl rfl, fun _ => rfl, hok⟩
    | false =>
      obtain ⟨g, hg, hok⟩ := bind_eq_ok.mp hok
      exact ⟨g, .inr ⟨hcan, hg⟩, fun h => absurd h (hroom hcan), hok⟩
  refine ⟨g, hg, ?_⟩
  obtain ⟨can', hcan', hok⟩ := bind_eq_ok.mp hok
  cases can' with
  | false =>
    obtain ⟨rfl, rfl⟩ := Prod.mk.inj (Except.ok.inj hok)
    exact .inl ⟨rfl, rfl, hroom hcan'⟩
  | true =>
    obtain ⟨⟨addr, g'⟩, htake, hok⟩ := bind_eq_ok.mp hok
    obtain ⟨rfl, rfl⟩ := Prod.mk.inj (Except.ok.inj hok)
    refine .inr ⟨addr, rfl, htake, ?_⟩
    by_cases hsize : size = 0
    · rw [hsame hsize]
      exact hzero hsize
    · exact Finder.fits_of_canAllocate hcan' hsize

/-- Each operation does to the candidate, as a set of addresses, what its name says: `used` is
any set that the candidate is disjoint from. -/
theorem operations_exact (pml4 : PhysAddr) (s : PageTable.State α) {used : Set ℕ}
    (hf : f.freeStart.toNat + f.freeSize.toNat < 2 ^ 64) (hused : Disjoint used f.region) :
    (∀ size align : Word, 0 < size → 0 < align → f.canAllocate size align = .ok true →
      ∃ addr f', alloc pml4 s size align f = .ok (some addr, f') ∧
        align.toNat ∣ addr.toNat ∧
        Set.Ico addr.toNat (addr.toNat + size.toNat) ⊆ f.region ∧
        Disjoint (used ∪ Set.Ico addr.toNat (addr.toNat + size.toNat)) f'.region) ∧
    (∀ addr size : Word, addr.toNat + size.toNat < 2 ^ 64 →
      Set.Ico addr.toNat (addr.toNat + size.toNat) ⊆ used →
      Disjoint (used \ Set.Ico addr.toNat (addr.toNat + size.toNat))
        (f.free addr size).region) ∧
    ∀ addr size : Word, addr.toNat + size.toNat < 2 ^ 64 →
      let piece :=
        Finder.longer (f.leftPiece addr.toNat) (f.rightPiece (addr.toNat + size.toNat))
      (f.reserve addr size).region = Set.Ico piece.1 piece.2 := by
  refine ⟨fun size align hsize halign hcan => ?_, fun addr size hend hin => ?_,
    fun addr size hend => Finder.reserve_region hf hend rfl⟩
  · have halign : align ≠ 0 := fun h0 => by
      rw [h0] at halign
      exact absurd halign (by decide)
    have hsize : size ≠ 0 := fun h0 => by
      rw [h0] at hsize
      exact absurd hsize (by decide)
    have hfits := Finder.fits_of_canAllocate hcan hsize
    obtain ⟨addr, f', htake⟩ : ∃ addr f', f.take size align = .ok (addr, f') :=
      ⟨_, _, by rw [Finder.take, checkedMod_of_ne halign]; rfl⟩
    obtain ⟨haddr, hstart, hrest⟩ := Finder.take_toNat hf hfits htake
    rw [Finder.Fits] at hfits
    refine ⟨addr, f', ?_, ?_, fun x hx => ?_, ?_⟩
    · exact alloc_of_room hcan htake
    · rw [haddr]
      exact (Finder.slice_multiple halign).1
    · exact ⟨by have := hx.1; omega, by have := hx.2; omega⟩
    · refine Set.disjoint_union_left.mpr ⟨hused.mono_right fun x hx => ?_, ?_⟩
      · exact ⟨by have := hx.1; omega, by have := hx.2; omega⟩
      · exact Set.disjoint_left.mpr fun x hx hx' => by have := hx.2; have := hx'.1; omega
  · refine Set.disjoint_left.mpr fun x hx hx' => ?_
    rcases Finder.free_region hf hend hx' with hx' | hx'
    · exact Set.disjoint_left.mp hused hx.1 hx'
    · exact hx.2 hx'

end

/-- Three pages behind the first ones: one is handed out at a multiple of two pages, the page
before them comes back, and the middle one is reserved. -/
theorem operations_exact_three_pages :
    (∃ addr f', alloc 0 (⟨fun _ _ => 0, 0, (), [], []⟩ : PageTable.State Unit) 0x1000 0x2000
        ⟨0x201000, 0x3000⟩ = .ok (some addr, f') ∧ (0x2000 : Word).toNat ∣ addr.toNat ∧
        Set.Ico addr.toNat (addr.toNat + (0x1000 : Word).toNat) ⊆
          (⟨0x201000, 0x3000⟩ : Finder).region ∧
        Disjoint (Set.Ico 0 0x201000 ∪ Set.Ico addr.toNat (addr.toNat + (0x1000 : Word).toNat))
          f'.region) ∧
      Disjoint (Set.Ico 0 0x201000 \ Set.Ico 0x200000 0x201000)
        ((⟨0x201000, 0x3000⟩ : Finder).free 0x200000 0x1000).region ∧
      ((⟨0x201000, 0x3000⟩ : Finder).reserve 0x202000 0x1000).region =
        Set.Ico 0x203000 0x204000 := by
  have hused : Disjoint (Set.Ico 0 0x201000) (⟨0x201000, 0x3000⟩ : Finder).region :=
    Set.disjoint_left.mpr fun x hx hx' => absurd hx'.1 (not_le.mpr hx.2)
  obtain ⟨halloc, hfree, hreserve⟩ := operations_exact 0
    (⟨fun _ _ => 0, 0, (), [], []⟩ : PageTable.State Unit) (f := ⟨0x201000, 0x3000⟩) (by decide) hused
  exact ⟨halloc 0x1000 0x2000 (by decide) (by decide) (by decide),
    hfree 0x200000 0x1000 (by decide) fun x hx => ⟨Nat.zero_le x, hx.2⟩,
    hreserve 0x202000 0x1000 (by decide)⟩

end Anarch.FreeFinder
