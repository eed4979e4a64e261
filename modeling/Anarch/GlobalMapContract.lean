import Anarch.EasyMap
import Anarch.GlobalMapOrderly

/-! The kernel's memory map keeps the contracts that the code which allocates and maps memory
relies on. -/
namespace Anarch.GlobalMap
open PageTable FreeFinder RadixTree AllocatorMapping

section
variable {α : Type}

/-- The map of the kernel, in order. -/
structure Kernel (used : α → Set Frame) where
  map : State α
  orderly : Orderly used map

variable {used : α → Set Frame} {A : AllocatorOps α}

def Kernel.pages (g : Kernel used) : VirtAddr → Option Page := pagesOf g.map.table

open Classical in
/-- What a call leaves: nothing, if it panics, as it does not return then, or if the map is no
longer in order. -/
noncomputable def Kernel.after {β : Type} (g : Kernel used) (refused : β) :
    Outcome (β × State α) → β × Kernel used
  | .error _ => (refused, g)
  | .ok (r, t) => if h : Orderly used t then (r, ⟨t, h⟩) else (refused, g)

/-- A request for pages of a size that the map has, where the search for a free range is right. -/
def Kernel.Serves (g : Kernel used) (size : MemoryMap.Size) (align : Word) : Prop :=
  IsPageSize size.pageSize ∧ AllocSafe g.map size align

open Classical in
/-- The calls of `GlobalMap`, over maps that are in order. -/
noncomputable def kernelOps (A : AllocatorOps α) (used : α → Set Frame) :
    MapOps (Kernel used) where
  read v g :=
    match GlobalMap.read v g.map with
    | .ok (some r) => some (r.phys, r.size)
    | _ => none
  map phys size attributes g :=
    if g.Serves size size.pageCount ∧ phys.toNat + size.span ≤ 2 ^ 52 then
      g.after none (GlobalMap.map A phys size attributes g.map)
    else (none, g)
  mapAt v phys size attributes g :=
    (g.after () do return ((), ← GlobalMap.mapAt A v phys size attributes g.map)).2
  unmap v size g := (g.after () do return ((), ← GlobalMap.unmap A v size g.map)).2
  reserve size g :=
    if g.Serves size size.pageSize then g.after none (GlobalMap.reserve A size g.map) else (none, g)

end

section
variable {α β : Type} {used : α → Set Frame} {A : AllocatorOps α} {g : Kernel used}
variable {t : State α} {v : VirtAddr} {phys : PhysAddr} {pageSize : Word}
variable {size : MemoryMap.Size} {held : Option PhysAddr} {r refused : β}

lemma after_ok (h : Orderly used t) : g.after refused (.ok (r, t)) = (r, ⟨t, h⟩) := dif_pos h

lemma after_cases (g : Kernel used) (refused : β) (o : Outcome (β × State α)) :
    g.after refused o = (refused, g) ∨
      ∃ r t h, o = .ok (r, t) ∧ g.after refused o = (r, ⟨t, h⟩) := by
  rcases o with e | ⟨r, t⟩
  · exact .inl rfl
  · by_cases h : Orderly used t
    · exact .inr ⟨r, t, h, rfl, after_ok h⟩
    · exact .inl (dif_neg h)

lemma served_cases (g : Kernel used) (refused : β) {serves : Prop} {_ : Decidable serves}
    (o : Outcome (β × State α)) :
    (if serves then g.after refused o else (refused, g)) = (refused, g) ∨
      ∃ r t h, serves ∧ o = .ok (r, t) ∧
        (if serves then g.after refused o else (refused, g)) = (r, ⟨t, h⟩) := by
  by_cases hserves : serves
  · rw [if_pos hserves]
    refine (after_cases g refused o).imp_right ?_
    rintro ⟨r, t, h, hok, heq⟩
    exact ⟨r, t, h, hserves, hok, heq⟩
  · exact .inl (if_neg hserves)

lemma if_mem_one {β : Type} {f : VirtAddr → β} {b : β} :
    (fun x => if x ∈ pageStarts v pageSize 1 then b else f x) = Function.update f v b := by
  funext x
  simp only [pageStarts_succ, Function.update_apply, List.mem_cons]
  simp [pageStarts]

lemma reserve_cases (g : Kernel used) (size : MemoryMap.Size) :
    (kernelOps A used).reserve size g = (none, g) ∨ ∃ r t h, g.Serves size size.pageSize ∧
      GlobalMap.reserve A size g.map = .ok (r, t) ∧
      (kernelOps A used).reserve size g = (r, ⟨t, h⟩) :=
  served_cases g none (GlobalMap.reserve A size g.map)

lemma map_cases (g : Kernel used) (phys : PhysAddr) (size : MemoryMap.Size)
    (attributes : MemoryMap.Attributes) :
    (kernelOps A used).map phys size attributes g = (none, g) ∨ ∃ r t h,
      g.Serves size size.pageCount ∧ phys.toNat + size.span ≤ 2 ^ 52 ∧
      GlobalMap.map A phys size attributes g.map = .ok (r, t) ∧
      (kernelOps A used).map phys size attributes g = (r, ⟨t, h⟩) := by
  refine (served_cases g none (GlobalMap.map A phys size attributes g.map)).imp_right ?_
  rintro ⟨r, t, h, ⟨hserves, hend⟩, hok, heq⟩
  exact ⟨r, t, h, hserves, hend, hok, heq⟩

lemma kernel_mapAt (attributes : MemoryMap.Attributes) (hA : FrameContract A used)
    (h : g.pages v = some (pageSize, held))
    (halign : phys % pageSize = 0) (hmem : phys ∈ memory) : ∃ t hs,
      GlobalMap.mapAt A v phys ⟨pageSize, 1⟩ attributes g.map = .ok t ∧
      (kernelOps A used).mapAt v phys ⟨pageSize, 1⟩ attributes g = ⟨t, hs⟩ ∧
      pagesOf t.table = Function.update g.pages v (some (pageSize, some phys)) := by
  obtain ⟨t, hok, hs, hpages⟩ := g.orderly.mapAt hA attributes h halign hmem
  refine ⟨t, hs, hok, ?_, hpages.trans if_mem_one⟩
  simp only [kernelOps, hok, bind, Except.bind, pure, Except.pure, after_ok hs]

lemma kernel_unmap (hA : FrameContract A used) (hcount : 0 < size.pageCount.toNat)
    (hpages : ∀ p ∈ pageStarts v size.pageSize size.pageCount.toNat,
      ∃ held, g.pages p = some (size.pageSize, held)) : ∃ t hs,
      GlobalMap.unmap A v size g.map = .ok t ∧ (kernelOps A used).unmap v size g = ⟨t, hs⟩ ∧
      pagesOf t.table = cleared v size g.pages := by
  obtain ⟨held, hpage⟩ := hpages v (start_mem_pageStarts hcount)
  obtain ⟨-, d, e, hd, -, -, -, heq⟩ := g.orderly.slot_of hpage
  obtain ⟨pageSize, n⟩ := size
  obtain rfl : pageSize = pageSizeAt d := (Prod.mk.inj heq).1
  obtain ⟨t, hok, hs, hcleared⟩ := g.orderly.unmap hA hd hcount hpages
  refine ⟨t, hs, hok, ?_, hcleared⟩
  simp only [kernelOps, hok, bind, Except.bind, pure, Except.pure, after_ok hs]

lemma kernel_read_mapped (h : g.pages v = some (pageSize, some phys)) :
    (kernelOps A used).read v g = some (phys, pageSize) := by
  obtain ⟨attributes, hread⟩ := g.orderly.read_mapped h
  simp only [kernelOps, hread]

/-- The kernel's map is one that `AllocAndMap` can work with. -/
theorem kernel_meets (hA : FrameContract A used) :
    MapContract (kernelOps A used) Kernel.pages memory where
  read_mapped g v pageSize phys h := kernel_read_mapped h
  reserve_refused size g h := by
    rcases reserve_cases (A := A) g size with heq | ⟨r, t, hs, hserves, hok, heq⟩
    · rw [heq]
    · rw [heq] at h ⊢
      exact pages_of_refused h hok
  reserve_granted size g res h := by
    rcases reserve_cases (A := A) g size with heq | ⟨r, t, hs, hserves, hok, heq⟩
    · rw [heq] at h
      cases h
    · rw [heq] at h ⊢
      obtain ⟨hend, hfree, hpages⟩ := (g.orderly.reserve hA hserves.1 hserves.2 hok).2 res h
      have hK : kernelEnd.toNat = 2 ^ 39 := rfl
      exact ⟨by omega, fun v hlow hhigh => hfree v ⟨hlow, hhigh⟩, hpages⟩
  mapAt_page g v pageSize held phys attributes h halign hmem := by
    obtain ⟨t, hs, -, heq, hpages⟩ := kernel_mapAt attributes hA h halign hmem
    rw [heq]
    exact hpages
  unmap_page g v pageSize held h := by
    have hpages : ∀ p ∈ pageStarts v pageSize 1,
        ∃ held, g.pages p = some (pageSize, held) := by
      intro p hp
      obtain rfl : p = v := by simpa [pageStarts] using hp
      exact ⟨held, h⟩
    obtain ⟨t, hs, -, heq, hcleared⟩ :=
      @kernel_unmap _ _ A g v ⟨pageSize, 1⟩ hA Nat.one_pos hpages
    rw [heq]
    exact hcleared.trans if_mem_one

/-- The kernel's map is one that `AllocAndMapContiguous` and `EasyMap` can work with. -/
theorem kernel_places (hA : FrameContract A used) :
    PlacementContract (kernelOps A used) Kernel.pages where
  read_mapped g v pageSize phys h := kernel_read_mapped h
  map_refused phys size attributes g h := by
    rcases map_cases (A := A) g phys size attributes with
      heq | ⟨r, t, hs, hserves, hend, hok, heq⟩
    · rw [heq]
    · rw [heq] at h ⊢
      exact pages_of_refused h hok
  map_granted phys size attributes g res halign h := by
    rcases map_cases (A := A) g phys size attributes with
      heq | ⟨r, t, hs, hserves, hend, hok, heq⟩
    · rw [heq] at h
      cases h
    · rw [heq] at h ⊢
      obtain ⟨hend, hfree, hpages⟩ :=
        (g.orderly.map hA hserves.1 hserves.2 halign hend hok).2 res h
      have hK : kernelEnd.toNat = 2 ^ 39 := rfl
      exact ⟨by omega, fun v hlow hhigh => hfree v ⟨hlow, hhigh⟩, hpages⟩
  unmap_pages g addr size h := by
    by_cases hcount : size.pageCount.toNat = 0
    · have hsame : cleared addr size g.pages = g.pages := by
        funext x
        simp [cleared, hcount, pageStarts]
      rw [hsame]
      have hunset : unsetPages A g.map.pml4 size.pageSize size.pageCount.toNat addr g.map.table =
          .ok g.map.table := by
        rw [hcount]
        rfl
      obtain ⟨t, hok, hpages⟩ : ∃ t, GlobalMap.unmap A addr size g.map = .ok t ∧
          pagesOf t.table = g.pages :=
        ⟨_, unmap_eq hunset, funext fun x => pagesOf_congr fun _ => rfl⟩
      have hops : (kernelOps A used).unmap addr size g = (g.after () (.ok ((), t))).2 := by
        simp only [kernelOps, hok, bind, Except.bind, pure, Except.pure]
      rw [hops]
      rcases after_cases g () (.ok ((), t)) with heq | ⟨r, u, hs, hu, heq⟩
      · rw [heq]
      · rw [heq]
        cases hu
        exact hpages
    · have hpages : ∀ p ∈ pageStarts addr size.pageSize size.pageCount.toNat,
          ∃ held, g.pages p = some (size.pageSize, held) := by
        intro p hp
        obtain ⟨phys, hpage⟩ := h p hp
        exact ⟨some phys, hpage⟩
      obtain ⟨t, hs, -, heq, hcleared⟩ := kernel_unmap hA (Nat.pos_of_ne_zero hcount) hpages
      rw [heq]
      exact hcleared

/-- The processor finds what the map has mapped. -/
theorem kernel_translates : EasyMap.TranslatesPages
    (fun (g : Kernel used) => physical g.map.table.mem g.map.table.cr3) Kernel.pages := by
  intro g v pageSize phys h x hlow hhigh
  obtain ⟨hv, d, attributes, hd, rfl, hmod, halign, hmem, hslot⟩ := g.orderly.entry_of h
  have hd3 : d ≤ 3 := by omega
  have hin : x ∈ addresses v (pageSizeAt d).toNat := ⟨hlow, hhigh⟩
  have hx := addresses_subset_kernel (page_end_le hd3 hv hmod) hin
  have hlt : x.toNat < 2 ^ 39 := hx
  have hfind := (slot_eq_some.mp (slot_of_page hv hx hslot hmod hin)).2
  show physical g.map.table.mem g.map.table.cr3 x = some (phys + (x - v))
  rw [physical, translate_eq_find (canonical_of_lt (by omega)), hfind,
    if_pos ⟨by omega, isPresent_calcMask⟩, Option.map_some,
    physical_mapped hd halign hmem hmod hin]

/-- The calls over maps in order are those of `GlobalMap`: on pages that are held they return, and
a request that is served and returns leaves a map in order. -/
structure Follows (A : AllocatorOps α) (used : α → Set Frame) : Prop where
  read : ∀ (g : Kernel used) v pageSize phys, g.pages v = some (pageSize, some phys) →
    ∃ attributes, GlobalMap.read v g.map = .ok (some ⟨phys, attributes, pageSize⟩)
  mapAt : ∀ (g : Kernel used) v pageSize held phys attributes,
    g.pages v = some (pageSize, held) → phys % pageSize = 0 → phys ∈ memory → ∃ t hs,
      GlobalMap.mapAt A v phys ⟨pageSize, 1⟩ attributes g.map = .ok t ∧
      (kernelOps A used).mapAt v phys ⟨pageSize, 1⟩ attributes g = ⟨t, hs⟩
  unmap : ∀ (g : Kernel used) v (size : MemoryMap.Size), 0 < size.pageCount.toNat →
    (∀ p ∈ pageStarts v size.pageSize size.pageCount.toNat,
      ∃ held, g.pages p = some (size.pageSize, held)) → ∃ t hs,
      GlobalMap.unmap A v size g.map = .ok t ∧ (kernelOps A used).unmap v size g = ⟨t, hs⟩
  reserve : ∀ (g : Kernel used) size r t, g.Serves size size.pageSize →
    GlobalMap.reserve A size g.map = .ok (r, t) →
    ∃ hs, (kernelOps A used).reserve size g = (r, ⟨t, hs⟩)
  map : ∀ (g : Kernel used) phys size attributes r t, g.Serves size size.pageCount →
    phys % size.pageSize = 0 → phys.toNat + size.span ≤ 2 ^ 52 →
    GlobalMap.map A phys size attributes g.map = .ok (r, t) →
    ∃ hs, (kernelOps A used).map phys size attributes g = (r, ⟨t, hs⟩)

lemma kernel_follows (hA : FrameContract A used) : Follows A used where
  read g v pageSize phys h := g.orderly.read_mapped h
  mapAt g v pageSize held phys attributes h halign hmem := by
    obtain ⟨t, hs, hok, heq, -⟩ := kernel_mapAt attributes hA h halign hmem
    exact ⟨t, hs, hok, heq⟩
  unmap g v size hcount hpages := by
    obtain ⟨t, hs, hok, heq, -⟩ := kernel_unmap hA hcount hpages
    exact ⟨t, hs, hok, heq⟩
  reserve g size r t hserves hok := by
    have hs := (g.orderly.reserve hA hserves.1 hserves.2 hok).1
    refine ⟨hs, (if_pos hserves).trans ?_⟩
    rw [hok]
    exact after_ok hs
  map g phys size attributes r t hserves halign hend hok := by
    have hs := (g.orderly.map hA hserves.1 hserves.2 halign hend hok).1
    refine ⟨hs, (if_pos ⟨hserves, hend⟩).trans ?_⟩
    rw [hok]
    exact after_ok hs

/-- The kernel's map keeps both contracts, and the processor finds what it has mapped. -/
theorem kernel_map_serves (hA : FrameContract A used) : Follows A used ∧
    MapContract (kernelOps A used) Kernel.pages memory ∧
    PlacementContract (kernelOps A used) Kernel.pages ∧
    EasyMap.TranslatesPages (fun (g : Kernel used) => physical g.map.table.mem g.map.table.cr3)
      Kernel.pages :=
  ⟨kernel_follows hA, kernel_meets hA, kernel_places hA, kernel_translates⟩

end

lemma boot_orderly {t : PageTable.State ℕ} (hboot : Books firstFrames 0x1000 bootLedger t)
    (hfind : t.find (index 0) = (2, 0x183)) : Orderly firstFrames ⟨t, 0x1000, ⟨0, 0⟩⟩ where
  booked := ⟨bootLedger, hboot, Finder.empty_within 0 (Nat.zero_le _)⟩
  readable x hx found hslot := by
    have hzero : (0 : Word) ∈ kernelAddresses := (by decide : (0 : Word).toNat < kernelEnd.toNat)
    have hfirst : t.slot 0 = some (2, 0x183) := slot_eq_some.mpr ⟨by decide, hfind⟩
    have hin : x ∈ addresses 0 0x200000 := by
      by_contra hout
      have hbooked := (hboot.booked hx).trans (overwrite_of_notMem hout)
      rw [booked_eq_slot] at hbooked
      simp only [hslot, Option.map_some, reduceCtorEq] at hbooked
    obtain rfl : (2, 0x183) = found :=
      Option.some.inj ((slot_of_page hzero hx hfirst (by decide) hin).symm.trans hslot)
    exact @readable_mapped 0 {} 2 (.inl rfl) (by decide) (by decide : (0 : Word).toNat < 2 ^ 52)

/-- The kernel's own 2 MiB: read, translated, and taken away. -/
theorem kernel_map_serves_first_page : ∃ g : Kernel firstFrames,
    g.pages 0 = some (0x200000, some 0) ∧
    (kernelOps nextFrame firstFrames).read 0 g = some (0, 0x200000) ∧
    physical g.map.table.mem g.map.table.cr3 0x12345 = some 0x12345 ∧
    ∃ t, GlobalMap.unmap nextFrame 0 ⟨0x200000, 1⟩ g.map = .ok t ∧
      pagesOf t.table 0 = none := by
  obtain ⟨t₀, -, -, h₀, -, -, hfind, -⟩ := firstRun_tables
  have hboot := boot_books h₀
  let g : Kernel firstFrames := ⟨⟨t₀, 0x1000, ⟨0, 0⟩⟩, boot_orderly hboot hfind⟩
  have hpage : g.pages 0 = some (0x200000, some 0) :=
    pagesOf_of_slot (by decide : (0 : Word).toNat < kernelEnd.toNat)
      (slot_eq_some.mpr ⟨by decide, hfind⟩) (by decide)
  obtain ⟨hfollows, hmeets, -, htranslates⟩ := kernel_map_serves nextFrame_contract
  obtain ⟨t, hs, hok, heq⟩ := hfollows.unmap g 0 ⟨0x200000, 1⟩ (by decide) fun p hp => by
    obtain rfl : p = 0 := by simpa [pageStarts] using hp
    exact ⟨_, hpage⟩
  have hgone := hmeets.unmap_page g 0 0x200000 _ hpage
  rw [heq] at hgone
  exact ⟨g, hpage, hmeets.read_mapped g 0 _ _ hpage,
    htranslates g 0 0x200000 0 hpage 0x12345 (by decide) (by decide), t, hok,
    (congrFun hgone 0).trans (Function.update_self ..)⟩

end Anarch.GlobalMap
