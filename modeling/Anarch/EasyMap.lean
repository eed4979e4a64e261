import Anarch.AllocatorContiguous
import Anarch.ByteMemory
import Mathlib.Tactic.Ring

/-! `EasyMap` and `PhysCopy` over any global map. -/
namespace Anarch
open MemoryMap AllocatorMapping

structure EasyMap where
  mapStart : VirtAddr
  pageSize : Word
  pageAlign : Word
  pageCount : Word
  start : VirtAddr

namespace EasyMap

section
variable {μ : Type} (M : MapOps μ)

def construct (start : PhysAddr) (size : Word) (g : μ) : Outcome (EasyMap × μ) :=
  let pageAlign := getPageSizeAlign ⟨0, Nat.zero_lt_two⟩
  let pageSize := getPageSize ⟨0, Nat.zero_lt_two⟩
  let alignOffset := if start % pageAlign ≠ 0 then start % pageAlign else 0
  let aligned := start - alignOffset
  let endSize := size + alignOffset
  let pageCount := endSize / pageSize + if endSize % pageSize ≠ 0 then 1 else 0
  match M.map aligned ⟨pageSize, pageCount⟩ {} g with
  | (none, _) => .error (.panic "EasyMap() - failed to map memory")
  | (some mapStart, g) =>
      .ok (⟨mapStart, pageSize, pageAlign, pageCount, mapStart + alignOffset⟩, g)

def destroy (e : EasyMap) (g : μ) : μ := M.unmap e.mapStart ⟨e.pageSize, e.pageCount⟩ g

def getStart (e : EasyMap) : VirtAddr := e.start

end

/-- Where the processor finds a virtual address. -/
def access (translate : VirtAddr → Option PhysAddr) (addr : VirtAddr) : Outcome PhysAddr :=
  match translate addr with
  | none => .error (.pageFault addr)
  | some phys => .ok phys

/-- `Memcpy` of `n` bytes, one after the other. -/
def memcpy (translate : VirtAddr → Option PhysAddr) (dest src : VirtAddr) :
    ℕ → ByteMemory → Outcome ByteMemory
  | 0, mem => .ok mem
  | n + 1, mem => do
      let mem ← memcpy translate dest src n mem
      let source ← access translate (src + .ofNat 64 n)
      let target ← access translate (dest + .ofNat 64 n)
      return Function.update mem target (mem source)

/-- `PhysCopy`; the memory is what the map's own tables do not take up. -/
def physCopy {μ : Type} (M : MapOps μ) (translate : μ → VirtAddr → Option PhysAddr)
    (dest : VirtAddr) (source : PhysAddr) (size : Word) (g : μ) (mem : ByteMemory) :
    Outcome (μ × ByteMemory) := do
  let (map, g) ← construct M source size g
  let mem ← memcpy (translate g) dest map.getStart size.toNat mem
  return (map.destroy M g, mem)

/-- The processor finds every byte of a mapped page. -/
def TranslatesPages {μ : Type} (translate : μ → VirtAddr → Option PhysAddr)
    (pages : μ → VirtAddr → Option Page) : Prop :=
  ∀ g page pageSize phys, pages g page = some (pageSize, some phys) → ∀ v : VirtAddr,
    page.toNat ≤ v.toNat → v.toNat < page.toNat + pageSize.toNat →
      translate g v = some (phys + (v - page))

def pages (e : EasyMap) : Size := ⟨e.pageSize, e.pageCount⟩

/-- The pages on which the requested bytes lie, and no others, are mapped where there were none;
the destructor takes them away, whatever else was mapped meanwhile. -/
structure Exposes {μ : Type} (M : MapOps μ) (translate : μ → VirtAddr → Option PhysAddr)
    (view : μ → VirtAddr → Option Page) (start : PhysAddr) (size : Word) (g : μ) (e : EasyMap)
    (h : μ) : Prop where
  bytes : ∀ k < size.toNat, translate h (e.getStart + .ofNat 64 k) = some (start + .ofNat 64 k)
  free : ∀ v ∈ pageStarts e.mapStart e.pageSize e.pageCount.toNat, view g v = none
  mapped : view h = placed e.mapStart e.pages (start - start % 0x1000) (view g)
  tight : ∀ i < e.pageCount.toNat, ∃ k < size.toNat,
    (start.toNat + k) / 0x1000 = start.toNat / 0x1000 + i
  unmapped : ∀ later, (∀ v ∈ pageStarts e.mapStart e.pageSize e.pageCount.toNat,
      view later v = view h v) →
    view (e.destroy M later) = cleared e.mapStart e.pages (view later)
  restored : view (e.destroy M h) = view g

/-- The map has no room for the pages of the request. -/
def Refused {μ : Type} (M : MapOps μ) (start : PhysAddr) (size : Word) (g : μ) : Prop :=
  (M.map (start - start % 0x1000) ⟨0x1000, pagesFor (size + start % 0x1000) 0x1000⟩ {} g).1 = none

/-- A buffer of `n` bytes in mapped pages, each byte at a place of its own outside the bytes from
`source` on. -/
structure Buffer (view : VirtAddr → Option Page) (dest : VirtAddr) (n : ℕ) (source : PhysAddr)
    (target : ℕ → PhysAddr) : Prop where
  mapped : ∀ k < n, ∃ page pageSize phys, view page = some (pageSize, some phys) ∧
    page.toNat ≤ (dest + .ofNat 64 k).toNat ∧
    (dest + .ofNat 64 k).toNat < page.toNat + pageSize.toNat ∧
    target k = phys + (dest + .ofNat 64 k - page)
  injective : ∀ j < n, ∀ k < n, target j = target k → j = k
  apart : ∀ j < n, ∀ k < n, target j ≠ source + .ofNat 64 k

/-- The bytes from `source` on are in the buffer, and all others are as they were. -/
structure Copied (n : ℕ) (source : PhysAddr) (target : ℕ → PhysAddr) (mem mem' : ByteMemory) :
    Prop where
  bytes : ∀ k < n, mem' (target k) = mem (source + .ofNat 64 k)
  others : ∀ p, (∀ k < n, p ≠ target k) → mem' p = mem p

section
variable {μ : Type} {M : MapOps μ} {translate : μ → VirtAddr → Option PhysAddr}
variable {view : μ → VirtAddr → Option Page} {start : PhysAddr} {size : Word} {g h : μ}
variable {e : EasyMap}

lemma construct_cases (g : μ) : (Refused M start size g ∧
      construct M start size g = .error (.panic "EasyMap() - failed to map memory")) ∨
    ∃ mapStart h, M.map (start - start % 0x1000)
      ⟨0x1000, pagesFor (size + start % 0x1000) 0x1000⟩ {} g = (some mapStart, h) ∧
      construct M start size g = .ok (⟨mapStart, 0x1000, 0x1000,
        pagesFor (size + start % 0x1000) 0x1000, mapStart + start % 0x1000⟩, h) := by
  have hsize : getPageSize ⟨0, Nat.zero_lt_two⟩ = 0x1000 := rfl
  have halign : getPageSizeAlign ⟨0, Nat.zero_lt_two⟩ = 0x1000 := rfl
  have hoffset : (if start % 0x1000 ≠ 0 then start % 0x1000 else 0) = start % 0x1000 := by
    split_ifs with hzero
    · rfl
    · exact (not_not.mp hzero).symm
  have hcount : (size + start % 0x1000) / 0x1000 +
      (if (size + start % 0x1000) % 0x1000 ≠ 0 then 1 else 0) =
      pagesFor (size + start % 0x1000) 0x1000 := by
    rw [pagesFor]
    split_ifs
    · rfl
    · exact BitVec.add_zero _
  rw [construct, hsize, halign, hoffset, hcount, Refused]
  rcases M.map (start - start % 0x1000) ⟨0x1000, pagesFor (size + start % 0x1000) 0x1000⟩
    {} g with ⟨_ | mapStart, h⟩
  · exact .inl ⟨rfl, rfl⟩
  · exact .inr ⟨mapStart, h, rfl, rfl⟩

lemma translate_placed (hT : TranslatesPages translate view) {mapStart : VirtAddr} {n : Word}
    {phys : PhysAddr} {before : VirtAddr → Option Page}
    (hplaced : view h = placed mapStart ⟨0x1000, n⟩ phys before)
    (hfits : mapStart.toNat + 0x1000 * n.toNat ≤ 2 ^ 64) {m : ℕ} (hm : m < 0x1000 * n.toNat) :
    translate h (mapStart + .ofNat 64 m) = some (phys + .ofNat 64 m) := by
  have hpage : (mapStart + BitVec.ofNat 64 (m / 0x1000) * 0x1000).toNat =
      mapStart.toNat + m / 0x1000 * 0x1000 := by
    rw [BitVec.toNat_add, BitVec.toNat_mul, BitVec.toNat_ofNat]
    show (mapStart.toNat + m / 0x1000 % 2 ^ 64 * 0x1000 % 2 ^ 64) % 2 ^ 64 = _
    omega
  have hbyte : (mapStart + BitVec.ofNat 64 m).toNat = mapStart.toNat + m := by
    rw [BitVec.toNat_add, BitVec.toNat_ofNat]
    omega
  have hmem : mapStart + BitVec.ofNat 64 (m / 0x1000) * 0x1000 ∈
      pageStarts mapStart 0x1000 n.toNat :=
    List.mem_map.mpr ⟨m / 0x1000, List.mem_range.mpr (by omega), rfl⟩
  have hview := congrFun hplaced (mapStart + BitVec.ofNat 64 (m / 0x1000) * 0x1000)
  rw [placed, if_pos hmem] at hview
  rw [hT h _ _ _ hview (mapStart + .ofNat 64 m) (by omega)
    (by rw [hpage, hbyte]; show _ < _ + 0x1000; omega)]
  congr 1
  ring

lemma pages_cover (hfit : start.toNat + size.toNat + 0xfff < 2 ^ 64) :
    start.toNat % 0x1000 + size.toNat ≤
        0x1000 * (pagesFor (size + start % 0x1000) 0x1000).toNat ∧
      ∀ m < (pagesFor (size + start % 0x1000) 0x1000).toNat,
        0x1000 * m < start.toNat % 0x1000 + size.toNat := by
  have hend : (size + start % 0x1000).toNat = start.toNat % 0x1000 + size.toNat := by
    rw [BitVec.toNat_add, BitVec.toNat_umod]
    show (size.toNat + start.toNat % 0x1000) % 2 ^ 64 = _
    omega
  have hcovers := pagesFor_covers (size + start % 0x1000) (show 2 ≤ (0x1000 : Word).toNat by decide)
  rw [hend] at hcovers
  exact hcovers

lemma sub_mod_page (start : PhysAddr) : (start - start % 0x1000) % 0x1000 = 0 := by
  have hle : start % 0x1000 ≤ start := by
    rw [BitVec.le_def, BitVec.toNat_umod]
    exact Nat.mod_le ..
  apply BitVec.eq_of_toNat_eq
  rw [BitVec.toNat_umod, BitVec.toNat_sub_of_le hle, BitVec.toNat_umod]
  show (start.toNat - start.toNat % 0x1000) % 0x1000 = 0
  omega

lemma exposes_of_construct (hM : PlacementContract M view) (hT : TranslatesPages translate view)
    (hsize : 0 < size) (hfit : start.toNat + size.toNat + 0xfff < 2 ^ 64)
    (hok : construct M start size g = .ok (e, h)) : Exposes M translate view start size g e h := by
  rcases @construct_cases μ M start size g with ⟨-, herr⟩ |
    ⟨mapStart, h', hmap, hok'⟩
  · rw [herr] at hok
    cases hok
  obtain ⟨rfl, rfl⟩ := Prod.mk.inj (Except.ok.inj (hok.symm.trans hok'))
  obtain ⟨hcover, htight⟩ := pages_cover hfit
  have hgranted := hM.map_granted (start - start % 0x1000)
    ⟨0x1000, pagesFor (size + start % 0x1000) 0x1000⟩ {} g
  rw [hmap] at hgranted
  obtain ⟨hfits, hnone, hplaced⟩ := hgranted mapStart (sub_mod_page start) rfl
  have hpos : 0 < (0x1000 : Word).toNat := by decide
  have hsizePos : 0 < size.toNat := hsize
  have hfree : ∀ v ∈ pageStarts mapStart 0x1000
      (pagesFor (size + start % 0x1000) 0x1000).toNat, view g v = none := fun v hv => by
    obtain ⟨hlow, hhigh⟩ := mem_range_of_mem_pageStarts hpos hfits hv
    exact hnone v hlow hhigh
  have hoffset : BitVec.ofNat 64 (start.toNat % 0x1000) = start % 0x1000 := by
    apply BitVec.eq_of_toNat_eq
    rw [BitVec.toNat_ofNat, BitVec.toNat_umod]
    show start.toNat % 0x1000 % 2 ^ 64 = start.toNat % 0x1000
    omega
  have hunmapped : ∀ later, (∀ v ∈ pageStarts mapStart 0x1000
      (pagesFor (size + start % 0x1000) 0x1000).toNat, view later v = view h v) →
      view (M.unmap mapStart ⟨0x1000, pagesFor (size + start % 0x1000) 0x1000⟩ later) =
        cleared mapStart ⟨0x1000, pagesFor (size + start % 0x1000) 0x1000⟩ (view later) := by
    intro later hlater
    refine hM.unmap_pages later mapStart _ fun v hv => ?_
    rw [hlater v hv, hplaced]
    exact ⟨_, if_pos hv⟩
  refine ⟨fun k hk => ?_, hfree, hplaced, fun i hi => ?_, hunmapped, ?_⟩
  · have hbyte := translate_placed hT hplaced hfits
      (show start.toNat % 0x1000 + k < 0x1000 * _ by omega)
    rw [BitVec.ofNat_add, hoffset, ← BitVec.add_assoc, ← BitVec.add_assoc,
      BitVec.sub_add_cancel] at hbyte
    exact hbyte
  · have hlast := htight i hi
    exact ⟨0x1000 * i - start.toNat % 0x1000, by omega, by omega⟩
  · refine (hunmapped h fun _ _ => rfl).trans ?_
    rw [hplaced]
    exact @cleared_placed mapStart ⟨0x1000, pagesFor (size + start % 0x1000) 0x1000⟩ _ _ hfree

lemma memcpy_spec {find : VirtAddr → Option PhysAddr} {dest src : VirtAddr} {source : PhysAddr}
    {target : ℕ → PhysAddr} {n : ℕ} (mem : ByteMemory)
    (hsrc : ∀ k < n, find (src + .ofNat 64 k) = some (source + .ofNat 64 k))
    (hdest : ∀ k < n, find (dest + .ofNat 64 k) = some (target k))
    (hinj : ∀ j < n, ∀ k < n, target j = target k → j = k)
    (hapart : ∀ j < n, ∀ k < n, target j ≠ source + .ofNat 64 k) :
    ∃ mem', memcpy find dest src n mem = .ok mem' ∧ Copied n source target mem mem' := by
  induction n with
  | zero => exact ⟨mem, rfl, by simp, fun _ _ => rfl⟩
  | succ n ih =>
    have hlt : ∀ {k}, k < n → k < n + 1 := Nat.lt_succ_of_lt
    obtain ⟨mid, hmid, hbytes, hothers⟩ := ih (fun k hk => hsrc k (hlt hk))
      (fun k hk => hdest k (hlt hk)) (fun j hj k hk => hinj j (hlt hj) k (hlt hk))
      (fun j hj k hk => hapart j (hlt hj) k (hlt hk))
    refine ⟨Function.update mid (target n) (mid (source + .ofNat 64 n)), ?_, fun k hk => ?_,
      fun p hp => ?_⟩
    · simp only [memcpy, hmid, access, hsrc n n.lt_succ_self, hdest n n.lt_succ_self, bind,
        Except.bind, pure, Except.pure]
    · rcases Nat.lt_succ_iff_lt_or_eq.mp hk with hk' | rfl
      · have hne : target k ≠ target n := fun h =>
          hk'.ne (hinj k (hlt hk') n n.lt_succ_self h)
        rw [Function.update_of_ne hne, hbytes k hk']
      · -- the byte is still what it was, as no place of the buffer is in the source
        rw [Function.update_self, hothers _ fun j hj => (hapart j (hlt hj) k hk).symm]
    · rw [Function.update_of_ne (hp n n.lt_succ_self), hothers p fun k hk => hp k (hlt hk)]

lemma Exposes.dest {dest : VirtAddr} {n : ℕ} {source : PhysAddr} {target : ℕ → PhysAddr}
    (hx : Exposes M translate view start size g e h) (hT : TranslatesPages translate view)
    (hb : Buffer (view g) dest n source target) {k : ℕ} (hk : k < n) :
    translate h (dest + .ofNat 64 k) = some (target k) := by
  obtain ⟨page, pageSize, phys, hpage, hlow, hhigh, htarget⟩ := hb.mapped k hk
  have hkept : view h page = some (pageSize, some phys) := by
    rw [hx.mapped, placed, if_neg, hpage]
    intro hmem
    rw [hx.free page hmem] at hpage
    cases hpage
  rw [hT h page pageSize phys hkept _ hlow hhigh, htarget]

/-- An `EasyMap` exposes the requested bytes and no page more than they need, and takes its pages
away again; `PhysCopy` copies the bytes and leaves the map as it found it. Without room in the
map both panic. -/
theorem easyMap_exact (hM : PlacementContract M view) (hT : TranslatesPages translate view)
    (hsize : 0 < size) (hfit : start.toNat + size.toNat + 0xfff < 2 ^ 64) (g : μ) :
    (Refused M start size g ∧
        construct M start size g = .error (.panic "EasyMap() - failed to map memory") ∨
      ∃ e h, construct M start size g = .ok (e, h) ∧ Exposes M translate view start size g e h) ∧
    ∀ dest target mem, Buffer (view g) dest size.toNat start target →
      Refused M start size g ∧ physCopy M translate dest start size g mem =
          .error (.panic "EasyMap() - failed to map memory") ∨
        ∃ h mem', physCopy M translate dest start size g mem = .ok (h, mem') ∧ view h = view g ∧
          Copied size.toNat start target mem mem' := by
  have hcases : Refused M start size g ∧
        construct M start size g = .error (.panic "EasyMap() - failed to map memory") ∨
      ∃ e h, construct M start size g = .ok (e, h) ∧
        Exposes M translate view start size g e h := by
    rcases @construct_cases μ M start size g with h | ⟨_, h, -, hok⟩
    · exact .inl h
    · exact .inr ⟨_, h, hok, exposes_of_construct hM hT hsize hfit hok⟩
  refine ⟨hcases, fun dest target mem hb => ?_⟩
  rcases hcases with ⟨hrefused, herr⟩ | ⟨e, h, hok, hx⟩
  · exact .inl ⟨hrefused, by rw [physCopy, herr]; rfl⟩
  · obtain ⟨mem', hcopy, hcopied⟩ := memcpy_spec mem hx.bytes (fun k hk => hx.dest hT hb hk)
      hb.injective hb.apart
    refine .inr ⟨e.destroy M h, mem', ?_, hx.restored, hcopied⟩
    rw [physCopy, hok]
    simp only [bind, Except.bind, hcopy]
    rfl

end

/-- A map of small pages, by the number of the page. -/
abbrev SmallPages := BitVec 52 → Option PhysAddr

namespace SmallPages

def number (v : VirtAddr) : BitVec 52 := (v >>> 12).setWidth 52

def startOf (p : BitVec 52) : VirtAddr := p.setWidth 64 <<< 12

def base : VirtAddr := 0x40000000

def view (g : SmallPages) (v : VirtAddr) : Option Page :=
  if v % 0x1000 = 0 then (g (number v)).map fun phys => (0x1000, some phys) else none

def translate (g : SmallPages) (v : VirtAddr) : Option PhysAddr :=
  (g (number v)).map fun phys => phys + v % 0x1000

def read (v : VirtAddr) (g : SmallPages) : Option (PhysAddr × Word) :=
  if v % 0x1000 = 0 then (g (number v)).map fun phys => (phys, 0x1000) else none

/-- `Map` at a fixed address, if the pages there are free. -/
def map (phys : PhysAddr) (size : Size) (g : SmallPages) : Option VirtAddr × SmallPages :=
  if size.pageSize = 0x1000 ∧ base.toNat + size.span ≤ 2 ^ 64 ∧
      (pageStarts base 0x1000 size.pageCount.toNat).all fun v => (g (number v)).isNone then
    (some base, fun p => if (pageStarts base 0x1000 size.pageCount.toNat).contains (startOf p) then
      some (phys + (startOf p - base)) else g p)
  else (none, g)

def ops : MapOps SmallPages where
  read := read
  map phys size _ g := map phys size g
  mapAt _ _ _ _ g := g
  unmap addr size g := fun p =>
    if (pageStarts addr size.pageSize size.pageCount.toNat).contains (startOf p) then none else g p
  reserve _ g := (none, g)

lemma toNat_mod_page (v : VirtAddr) : (v % 0x1000).toNat = v.toNat % 0x1000 := by
  rw [BitVec.toNat_umod]
  rfl

lemma aligned_iff {v : VirtAddr} : v % 0x1000 = 0 ↔ v.toNat % 0x1000 = 0 := by
  rw [← BitVec.toNat_inj, toNat_mod_page]
  rfl

lemma number_toNat (v : VirtAddr) : (number v).toNat = v.toNat / 0x1000 := by
  have := v.isLt
  rw [number, BitVec.toNat_setWidth, BitVec.toNat_ushiftRight, Nat.shiftRight_eq_div_pow]
  omega

lemma startOf_number {v : VirtAddr} (h : v % 0x1000 = 0) : startOf (number v) = v := by
  have hmod := aligned_iff.mp h
  have hlt := v.isLt
  apply BitVec.eq_of_toNat_eq
  rw [startOf, BitVec.toNat_shiftLeft, BitVec.toNat_setWidth, number_toNat, Nat.shiftLeft_eq]
  omega

lemma view_eq_some {g : SmallPages} {v : VirtAddr} {pageSize : Word} {phys : PhysAddr} :
    view g v = some (pageSize, some phys) ↔
      v % 0x1000 = 0 ∧ g (number v) = some phys ∧ pageSize = 0x1000 := by
  rw [view]
  split_ifs with h
  · constructor
    · intro hpage
      obtain ⟨p, hg, heq⟩ := Option.map_eq_some_iff.mp hpage
      obtain ⟨hsize, hp⟩ := Prod.mk.inj heq
      exact ⟨h, hg.trans hp, hsize.symm⟩
    · rintro ⟨-, hg, rfl⟩
      rw [hg]
      rfl
  · constructor
    · intro hpage
      cases hpage
    · exact fun hpage => absurd hpage.1 h

lemma translates : TranslatesPages translate view := by
  intro g page pageSize phys hpage v hlow hhigh
  obtain ⟨halign, hg, rfl⟩ := view_eq_some.mp hpage
  have hmod := aligned_iff.mp halign
  change v.toNat < page.toNat + 0x1000 at hhigh
  have hnumber : number v = number page := by
    apply BitVec.eq_of_toNat_eq
    rw [number_toNat, number_toNat]
    omega
  have hoffset : v % 0x1000 = v - page := by
    apply BitVec.eq_of_toNat_eq
    rw [toNat_mod_page, BitVec.toNat_sub_of_le hlow]
    omega
  rw [translate, hnumber, hg, hoffset]
  rfl

lemma aligned_of_mem {addr v : VirtAddr} {n : ℕ} (haddr : addr.toNat % 0x1000 = 0)
    (hfits : addr.toNat + 0x1000 * n ≤ 2 ^ 64) (hv : v ∈ pageStarts addr 0x1000 n) :
    v % 0x1000 = 0 := by
  obtain ⟨i, -, hi⟩ := toNat_of_mem_pageStarts (by decide : 0 < (0x1000 : Word).toNat) hfits hv
  change v.toNat = addr.toNat + 0x1000 * i at hi
  exact aligned_iff.mpr (by omega)

lemma mem_of_aligned {addr v : VirtAddr} {n : ℕ} (haddr : addr.toNat % 0x1000 = 0)
    (hv : v % 0x1000 = 0) (hlow : addr.toNat ≤ v.toNat) (hhigh : v.toNat < addr.toNat + 0x1000 * n) :
    v ∈ pageStarts addr 0x1000 n := by
  have hmod := aligned_iff.mp hv
  have hlt := v.isLt
  refine List.mem_map.mpr ⟨(v.toNat - addr.toNat) / 0x1000, List.mem_range.mpr (by omega), ?_⟩
  apply BitVec.eq_of_toNat_eq
  rw [BitVec.toNat_add, BitVec.toNat_mul, BitVec.toNat_ofNat]
  show (addr.toNat + (v.toNat - addr.toNat) / 0x1000 % 2 ^ 64 * 0x1000 % 2 ^ 64) % 2 ^ 64 = v.toNat
  omega

theorem meets : PlacementContract ops view where
  read_mapped g v pageSize phys h := by
    obtain ⟨halign, hg, rfl⟩ := view_eq_some.mp h
    exact (if_pos halign).trans (by rw [hg]; rfl)
  map_refused phys size attributes g h := by
    simp only [ops, map] at h ⊢
    split_ifs at h ⊢
    rfl
  map_granted phys size attributes g res _ h := by
    simp only [ops, map, List.contains_iff_mem] at h ⊢
    split_ifs at h ⊢ with hroom
    obtain ⟨hsize, hfits, hfree⟩ := hroom
    obtain rfl := Option.some.inj h
    have hspan : base.toNat + 0x1000 * size.pageCount.toNat ≤ 2 ^ 64 := by
      rw [Size.span, hsize] at hfits
      exact hfits
    refine ⟨hfits, fun v hlow hhigh => ?_, ?_⟩
    · rw [Size.span, hsize] at hhigh
      rw [view]
      split_ifs with halign
      · have hnone := List.all_eq_true.mp hfree v (mem_of_aligned rfl halign hlow hhigh)
        rw [Option.isNone_iff_eq_none.mp hnone]
        rfl
      · rfl
    · funext v
      rw [placed, hsize, view]
      by_cases halign : v % 0x1000 = 0
      · dsimp only
        rw [if_pos halign, startOf_number halign]
        split_ifs with hv
        · rfl
        · exact (if_pos halign).symm
      · rw [if_neg halign, if_neg fun hv => halign (aligned_of_mem rfl hspan hv)]
        exact (if_neg halign).symm
  unmap_pages g addr size h := by
    funext v
    simp only [ops, cleared, List.contains_iff_mem]
    rw [view]
    by_cases halign : v % 0x1000 = 0
    · rw [if_pos halign, startOf_number halign]
      split_ifs with hv
      · rfl
      · exact (if_pos halign).symm
    · rw [if_neg halign, view, if_neg halign, ite_self]

/-- One page, at the address 0x10000. -/
def onePage : SmallPages := fun p => if p = 0x10 then some 0x9000 else none

end SmallPages

/-- Eight bytes around a page border, copied to the page that is already there. -/
theorem easyMap_exact_border : (∃ e h,
      construct SmallPages.ops 0x1ffc 8 SmallPages.onePage = .ok (e, h) ∧ e.pageCount = 2 ∧
      Exposes SmallPages.ops SmallPages.translate SmallPages.view 0x1ffc 8 SmallPages.onePage e h) ∧
    ∃ h mem', physCopy SmallPages.ops SmallPages.translate 0x10000 0x1ffc 8 SmallPages.onePage
        (fun p => p.setWidth 8) = .ok (h, mem') ∧
      Copied 8 0x1ffc (fun k => 0x9000 + .ofNat 64 k) (fun p => p.setWidth 8) mem' := by
  have hrefused : ¬ Refused SmallPages.ops 0x1ffc 8 SmallPages.onePage := by
    unfold Refused
    decide +kernel
  have hcount : ∀ r, construct SmallPages.ops 0x1ffc 8 SmallPages.onePage = .ok r →
      r.1.pageCount = 2 := by
    rintro r hr
    obtain ⟨s, hs, hpages⟩ := exists_ok_of_map (x := construct SmallPages.ops 0x1ffc 8
      SmallPages.onePage) (f := fun r => r.1.pageCount) (b := 2) (by decide +kernel)
    rw [← Except.ok.inj (hs.symm.trans hr), hpages]
  have hbuffer : Buffer (SmallPages.view SmallPages.onePage) 0x10000 8 0x1ffc
      (fun k => 0x9000 + .ofNat 64 k) := by
    refine ⟨fun k hk => ⟨0x10000, 0x1000, 0x9000, by decide, ?_⟩, by decide, by decide⟩
    revert k
    decide
  obtain ⟨hmap, hcopy⟩ := easyMap_exact SmallPages.meets SmallPages.translates
    (by decide : (0 : Word) < 8) (by decide : (0x1ffc : PhysAddr).toNat + 8 + 0xfff < 2 ^ 64)
    SmallPages.onePage
  obtain ⟨e, h, hok, hx⟩ := hmap.resolve_left fun h => hrefused h.1
  obtain ⟨h', mem', hok', -, hcopied⟩ := (hcopy 0x10000 _ (fun p => p.setWidth 8)
    hbuffer).resolve_left fun h => hrefused h.1
  exact ⟨⟨e, h, hok, hcount _ hok, hx⟩, h', mem', hok', hcopied⟩

end EasyMap

end Anarch
