import Anarch.AllocatorMapping

/-! A map that hands out one range at a time, and an allocator over a stack of frames. -/
namespace Anarch.AllocatorMapping
open MemoryMap

namespace SingleRange

abbrev Pages := List (VirtAddr × Page)

def base : VirtAddr := 0x40000000

def pages (g : Pages) (v : VirtAddr) : Option Page := (g.find? fun e => e.1 = v).map Prod.snd

def without (v : VirtAddr) (g : Pages) : Pages := g.filter fun e => e.1 ≠ v

def read (v : VirtAddr) (g : Pages) : Option (PhysAddr × Word) :=
  match pages g v with
  | some (pageSize, some phys) => some (phys, pageSize)
  | _ => none

def reserve (size : Size) : Pages → Option VirtAddr × Pages
  | [] =>
      if base.toNat + size.span ≤ 2 ^ 64 then
        (some base, (pageStarts base size.pageSize size.pageCount.toNat).map
          fun v => (v, size.pageSize, none))
      else (none, [])
  | g => (none, g)

def mapOps : MapOps Pages where
  read
  map _ _ _ g := (none, g)
  mapAt v phys size _ g := (v, size.pageSize, some phys) :: without v g
  unmap v _ g := without v g
  reserve

lemma pages_filter (p : VirtAddr → Prop) [DecidablePred p] (g : Pages) (v : VirtAddr) :
    pages (g.filter fun e => p e.1) v = if p v then pages g v else none := by
  induction g with
  | nil => simp [pages]
  | cons e g ih =>
    simp only [pages] at ih
    by_cases he : p e.1
    · by_cases hv : e.1 = v
      · subst hv
        simp [pages, he]
      · simpa [pages, he, hv] using ih
    · by_cases hv : e.1 = v
      · subst hv
        simpa [pages, he] using ih
      · simpa [pages, he, hv] using ih

lemma pages_without (v w : VirtAddr) (g : Pages) :
    pages (without v g) w = if w = v then none else pages g w := by
  rw [without, pages_filter (· ≠ v), ite_not]

lemma pages_map_start (f : VirtAddr → Page) (starts : List VirtAddr) (v : VirtAddr) :
    pages (starts.map fun v => (v, f v)) v = if v ∈ starts then some (f v) else none := by
  induction starts with
  | nil => rfl
  | cons w starts ih =>
    simp only [pages] at ih
    by_cases hw : w = v
    · subst hw
      simp [pages]
    · simpa [pages, hw, Ne.symm hw] using ih

theorem meets : MapContract mapOps pages Set.univ where
  read_mapped g v pageSize phys h := by simp [mapOps, read, h]
  reserve_refused size g h := by
    cases g with
    | nil =>
      simp only [mapOps, reserve] at h ⊢
      split_ifs at h ⊢
      rfl
    | cons e g => rfl
  reserve_granted size g res h := by
    cases g with
    | nil =>
      simp only [mapOps, reserve] at h ⊢
      split_ifs at h ⊢ with hfit
      obtain rfl := Option.some.inj h
      refine ⟨hfit, fun _ _ _ => rfl, ?_⟩
      funext v
      exact pages_map_start (fun _ => (size.pageSize, none)) _ v
    | cons e g => simp [mapOps, reserve] at h
  mapAt_page g v pageSize held phys attributes h _ _ := by
    funext w
    by_cases hw : w = v
    · simp [mapOps, pages, hw]
    · have := pages_without v w g
      simp only [pages, if_neg hw] at this
      simpa [mapOps, pages, hw, Ne.symm hw] using this
  unmap_page g v pageSize held h := by
    funext w
    simp only [mapOps, pages_without, Function.update_apply]

end SingleRange

/-- Frames of any size, taken from the top of a stack if aligned; freed addresses go on top. -/
def frameStack : AllocatorOps (List PhysAddr) where
  alloc _ align
    | [] => (none, [])
    | frame :: rest => if frame % align = 0 then (some frame, rest) else (none, frame :: rest)
  free addr frames := addr :: frames

lemma frameStack_blocks : BlocksOf frameStack Set.univ := by
  intro size align frames phys rest h
  cases frames with
  | nil => cases h
  | cons frame frames =>
    simp only [frameStack] at h
    split_ifs at h with halign
    · obtain ⟨hframe, -⟩ := Prod.mk.inj h
      exact ⟨Option.some.inj hframe ▸ halign, trivial⟩
    · cases h

end Anarch.AllocatorMapping
