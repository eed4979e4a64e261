import Anarch.GlobalMapCalls
import Anarch.UserMapKernel

/-! The kernel map and any number of user maps in one physical memory. The processor that
makes a call has the map of the call loaded. -/
namespace Anarch.AddressSpaces
open PageTable RadixTree TransitionRun

/-- A user map that exists. -/
structure Space where
  pml4 : PhysAddr
  freeList : List FreeList.Region

/-- Memory and page allocator, the kernel map with the end of its identity map, and the user
maps. -/
structure Machine (α : Type) where
  table : PageTable.State α
  pml4 : PhysAddr
  pdpt : PhysAddr
  identityEnd : VirtAddr
  finder : FreeFinder.Finder
  users : List Space

/-- Calls on the maps, and what other code does to memory and to the allocator. -/
inductive Action (α : Type)
  | construct
  | user (i : ℕ) (c : UserMap.Call)
  | kernel (c : GlobalMap.Call)
  | others (mem : PhysMem) (alloc : α)

section
variable {α : Type}

def Machine.kernelMap (m : Machine α) : GlobalMap.State α :=
  ⟨m.table.under m.pml4, m.pml4, m.finder⟩

def Machine.userMap (m : Machine α) (u : Space) : UserMap.State α :=
  ⟨m.table.under u.pml4, u.pml4, u.freeList⟩

/-- The PML4s with the slots that are their own. -/
def Machine.IsMap (m : Machine α) (pml4 : PhysAddr) (I : Set Index) : Prop :=
  pml4 = m.pml4 ∧ I = {0} ∨ I = userSlots ∧ ∃ u ∈ m.users, u.pml4 = pml4

/-- The range that a call sets or clears. `Map` takes its pages from the first region of the
free list that has room. -/
def userRange (s : UserMap.State α) : UserMap.Call → Option (VirtAddr × MemoryMap.Size)
  | .map _ size _ =>
      (s.freeList.find? fun r => r.hasRoom size.pageSize size.pageCount).map fun r =>
        (r.start + FreeList.Region.chopSize r.start size.pageSize, size)
  | .mapAt addr _ size _ => some (addr, size)
  | .unmap addr size => some (addr, size)
  | .unmapAndReserve addr size => some (addr, size)
  | _ => none

/-- The same for a call on the kernel map that returned `r`. -/
def kernelRange (r : Option VirtAddr) : GlobalMap.Call → Option (VirtAddr × MemoryMap.Size)
  | .map _ size _ => r.map fun addr => (addr, size)
  | .mapAt addr _ size _ => some (addr, size)
  | .unmap addr size => some (addr, size)
  | .unmapAndReserve addr size => some (addr, size)
  | .reserve size => r.map fun addr => (addr, size)
  | .reserveAt addr size => some (addr, size)
  | .unreserve addr size => some (addr, size)
  | .rereserve addr size _ => some (addr, size)

/-- A canonical range inside `[KernelEnd, UserEnd)`. -/
def InUserHalf (addr : VirtAddr) (bytes : ℕ) : Prop :=
  kernelEnd.toNat ≤ addr.toNat ∧ addr.toNat < userEnd.toNat ∧ canonical addr = true ∧
    addr.toNat + bytes ≤ userEnd.toNat ∧ ∀ x ∈ addresses addr bytes, canonical x = true

/-- A range between the end of the identity map and `KernelEnd`. -/
def InKernelHalf (identityEnd addr : VirtAddr) (bytes : ℕ) : Prop :=
  identityEnd.toNat ≤ addr.toNat ∧ addr.toNat < kernelEnd.toNat ∧
    addr.toNat + bytes ≤ kernelEnd.toNat

/-- Runs from the map that `MapSetup` leaves. Other code does not write page tables and does
not free them. -/
def system (A : AllocatorOps α) (used : α → Set Frame) : System (Machine α) (Action α) where
  start m := ∃ reservedEnd mem x setup,
    0 < reservedEnd.toNat ∧ reservedEnd.toNat ≤ kernelEnd.toNat ∧
    MapSetup.generateMap A reservedEnd mem x = .ok setup ∧
    m = ⟨setup.table, setup.pml4, setup.pdpt, setup.firstUnmapped, ⟨0, 0⟩, []⟩
  step m a m' :=
    match a with
    | .construct => ∃ new, UserMap.construct A m.pdpt m.table = .ok new ∧
        m' = { m with table := new.table, users := m.users ++ [⟨new.pml4, new.freeList⟩] }
    | .user i c => ∃ u t, m.users[i]? = some u ∧
        (∀ range ∈ userRange (m.userMap u) c, InUserHalf range.1 range.2.span) ∧
        c.exec A (m.userMap u) = .ok t ∧
        m' = { m with table := t.table, users := m.users.set i ⟨t.pml4, t.freeList⟩ }
    | .kernel c => ∃ r t, c.exec A m.kernelMap = .ok (r, t) ∧
        (∀ range ∈ kernelRange r c, InKernelHalf m.identityEnd range.1 range.2.span) ∧
        m' = { m with table := t.table, finder := t.finder }
    | .others mem alloc =>
        (∀ pml4 I, m.IsMap pml4 I → ∀ f ∈ (m.table.under pml4).frames I,
          mem f = m.table.mem f ∧ f ∈ used alloc) ∧
        m' = { m with table := { m.table with mem, alloc } }

/-- Every map has the PDPT of the kernel in its first entry, and the PDPT is there. -/
structure KernelShared (m : Machine α) : Prop where
  translation : ∀ u ∈ m.users, ∀ x ∈ kernelAddresses,
    PageTable.translate m.table.mem u.pml4 x = PageTable.translate m.table.mem m.pml4 x
  notReplaced : ∀ pml4 I, m.IsMap pml4 I → m.table.mem (frameOf pml4) 0 = m.pdpt ||| 3
  notEmptied : ∃ i, m.table.mem (frameOf m.pdpt) i ≠ 0
  notFreed : .freed m.pdpt ∉ m.table.calls

variable {A : AllocatorOps α} {used : α → Set Frame} {p : Frame} {m : Machine α}

lemma index_user {x : VirtAddr} (hlow : kernelEnd.toNat ≤ x.toNat)
    (hhigh : x.toNat < userEnd.toNat) (hc : canonical x = true) : index x 0 ∈ userSlots := by
  have hK : kernelEnd.toNat = 2 ^ 39 := rfl
  have hU : userEnd.toNat = 2 ^ 64 - 2 ^ 39 := rfl
  have hhalf := halves_of_canonical hc
  have hindex := index_toNat x 0
  show 1 ≤ (index x 0).toNat ∧ (index x 0).toNat ≤ 0x1fe
  rw [hindex]
  omega

lemma InUserHalf.pages {start : VirtAddr} {size : MemoryMap.Size}
    (h : InUserHalf start size.span) : UserMap.UserPages start size := by
  obtain ⟨hlow, hhigh, hc, hend, hall⟩ := h
  have hU : userEnd.toNat = 2 ^ 64 - 2 ^ 39 := rfl
  intro k hk
  rcases Nat.eq_zero_or_pos size.pageSize.toNat with h0 | hpos
  · have hzero : size.pageSize = 0 := BitVec.eq_of_toNat_eq h0
    rw [show pageAt start size.pageSize k = start by simp [pageAt, hzero]]
    exact index_user hlow hhigh hc
  · have hnext : (k + 1) * size.pageSize.toNat ≤ size.pageCount.toNat * size.pageSize.toNat :=
      Nat.mul_le_mul_right _ hk
    rw [Nat.succ_mul] at hnext
    rw [MemoryMap.Size.span, Nat.mul_comm] at hend hall
    have hpage : (pageAt start size.pageSize k).toNat = _ := pageAt_toNat (by omega) hpos
    exact index_user (by omega) (by omega) (hall _ (mem_addresses.mpr (by omega)))

lemma InKernelHalf.pastFirst {identityEnd start : VirtAddr} {bytes : ℕ}
    (h : InKernelHalf identityEnd start bytes) (hend : 0x200000 ≤ identityEnd.toNat) :
    PastFirst start bytes :=
  ⟨⟨hend.trans h.1, h.2.1⟩, h.2.2⟩

lemma clears_range {r : Option VirtAddr} {c : GlobalMap.Call} {range : VirtAddr × MemoryMap.Size}
    (h : range ∈ c.clears) : range ∈ kernelRange r c := by
  cases c with
  | unmap addr size | unreserve addr size | unmapAndReserve addr size
  | rereserve addr size newPageSize => exact h
  | map phys size attributes | reserve size | mapAt addr phys size attributes
  | reserveAt addr size => cases h

lemma sets_range {r : Option VirtAddr} {c : GlobalMap.Call} {range : GlobalMap.SetRange}
    (h : range ∈ c.sets r) :
    ∃ size, (range.addr, size) ∈ kernelRange r c ∧ range.size.span ≤ size.span := by
  cases c with
  | map phys size attributes | reserve size =>
    obtain ⟨addr, rfl, rfl⟩ := Option.map_eq_some_iff.mp h
    exact ⟨size, rfl, le_rfl⟩
  | mapAt addr phys size attributes | unmapAndReserve addr size | reserveAt addr size =>
    obtain rfl := Option.some.inj h
    exact ⟨size, rfl, le_rfl⟩
  | rereserve addr size newPageSize =>
    obtain rfl := Option.some.inj h
    exact ⟨size, rfl, GlobalMap.span_div_le size newPageSize⟩
  | unmap addr size | unreserve addr size => cases h

section
variable (hA : FrameContract A used)
include hA

lemma user_kept {s t : UserMap.State α} {c : UserMap.Call} (ht : Tree used userSlots s.table)
    (hcr3 : s.table.cr3 = s.pml4) (hp : p ∈ used s.table.alloc)
    (hout : p ∉ s.table.frames userSlots)
    (hrange : ∀ range ∈ userRange s c, InUserHalf range.1 range.2.span)
    (hok : c.exec A s = .ok t) : t.pml4 = s.pml4 ∧ Kept used userSlots p s.table t.table := by
  have hranges : c.Ranges (fun addr size => InUserHalf addr size.span) s := by
    cases c with
    | map phys size attributes =>
      intro reg hreg
      exact hrange _ (Option.mem_def.mpr (by rw [userRange, hreg]; rfl))
    | mapAt addr phys size attributes | unmap addr size | unmapAndReserve addr size =>
      exact hrange (addr, size) rfl
    | reserve | reserveAt | unreserve => trivial
  exact UserMap.Call.exec_rule hranges (ht.kept p)
    (fun addr phys size attributes w table hin hlist =>
      setList_kept hA ht hcr3 hin.pages (.inr rfl) isHuge_calcMask hlist)
    (fun addr size table hin htable => unsetPages_kept hA ht hcr3 hin.pages hp hout htable)
    (fun start bytes table hkept => hkept.invalidate start bytes) hok

lemma kernel_kept {s t : GlobalMap.State α} {c : GlobalMap.Call} {r : Option VirtAddr}
    (h : KernelHalf used p s.table) (hcr3 : s.table.cr3 = s.pml4)
    (hrange : ∀ range ∈ kernelRange r c, PastFirst range.1 range.2.span)
    (hok : c.exec A s = .ok (r, t)) : t.pml4 = s.pml4 ∧ KernelKept used p s.table t.table := by
  refine GlobalMap.exec_rule (P := KernelKept used p s.table) h.kept
    (fun start bytes _ hu => hu.invalidate start bytes) (fun range hr u v hu hv => ?_)
    (fun range hr u w v hu hv => ?_) hok
  · have hpast := hrange range (clears_range hr)
    exact hu.trans (hu.1.unsetPages hA (hu.cr3.trans hcr3) hpast hv)
  · obtain ⟨size, hin, hle⟩ := sets_range hr
    have hpast : PastFirst range.addr range.size.span := (hrange _ hin).mono hle
    exact hu.trans (hu.1.setList hA (hu.cr3.trans hcr3) (GlobalMap.sets_huge hr) hpast hv)

end

section Invariant
variable {q q' : PhysAddr} {I J : Set Index} {t : PageTable.State α}

/-- The tables of every map are a tree, no frame is in two maps, and all of them share the PDPT
at `p`. -/
structure Sound (used : α → Set Frame) (p : Frame) (m : Machine α) : Prop where
  trees : ∀ ⦃q I⦄, m.IsMap q I → Tree used I (m.table.under q)
  apart : ∀ ⦃q I q' J⦄, m.IsMap q I → m.IsMap q' J → (q, I) ≠ (q', J) →
    Disjoint ((m.table.under q).frames I) ((m.table.under q').frames J)
  slots : ∀ ⦃q I⦄, m.IsMap q I → m.table.mem (frameOf q) 0 = frameAddr p ||| 3
  first : (m.table.under m.pml4).find (index 0) = (2, 0x183)
  unfreed : .freed (frameAddr p) ∉ m.table.calls
  pdpt : m.pdpt = frameAddr p
  identityEnd : 0x200000 ≤ m.identityEnd.toNat

lemma isMap_kernel (m : Machine α) : m.IsMap m.pml4 {0} := .inl ⟨rfl, rfl⟩

lemma isMap_user {u : Space} (hu : u ∈ m.users) : m.IsMap u.pml4 userSlots :=
  .inr ⟨rfl, u, hu, rfl⟩

lemma zero_not_user : (0 : Index) ∉ userSlots := fun h => absurd h.1 (by decide)

lemma user_ne_kernel : (q, userSlots) ≠ (q', ({0} : Set Index)) := by
  intro h
  exact zero_not_user ((Set.ext_iff.mp (Prod.mk.inj h).2 0).mpr rfl)

lemma Sound.kernelHalf (h : Sound used p m) : KernelHalf used p (m.table.under m.pml4) :=
  ⟨h.trees (isMap_kernel m), h.slots (isMap_kernel m), h.first⟩

lemma KernelHalf.pdpt_table {s : PageTable.State α} (h : KernelHalf used p s) :
    s.tableAt (index 0) 1 = some p :=
  (table_succ rfl).trans ((congrArg link h.slot).trans (link_frameAddr p (.inl rfl)))

lemma Sound.pdpt_kernel (h : Sound used p m) : p ∈ (m.table.under m.pml4).frames {0} :=
  .inr (mem_tables rfl (by omega : 0 < 3) (KernelHalf.pdpt_table h.kernelHalf))

lemma Sound.pdpt_not_user (h : Sound used p m) {u : Space} (hu : u ∈ m.users) :
    p ∉ (m.table.under u.pml4).frames userSlots :=
  Set.disjoint_right.mp (h.apart (isMap_user hu) (isMap_kernel m) user_ne_kernel) h.pdpt_kernel

lemma Sound.act {m' : Machine α} (h : Sound used p m) (hq : m.IsMap q I)
    (hkept : Kept used I p (m.table.under q) m'.table)
    (hslot : m'.table.mem (frameOf q) 0 = frameAddr p ||| 3)
    (hfirst : I = {0} → m'.table.find (index 0) = (2, 0x183)) (hpml4 : m'.pml4 = m.pml4)
    (hmaps : ∀ q' J, m'.IsMap q' J ↔ m.IsMap q' J) (hpdpt : m'.pdpt = m.pdpt)
    (hend : m'.identityEnd = m.identityEnd) : Sound used p m' := by
  obtain ⟨htree, hconfined, hspares⟩ := hkept
  have hself : m'.table.under q = m'.table := by
    rw [State.under, ← show m'.table.cr3 = q from hconfined.cr3]
  have hother := fun q' J (hJ : m.IsMap q' J) (hne : (q, I) ≠ (q', J)) =>
    hconfined.other (p := q') (h.trees hJ) (h.apart hq hJ hne)
  have hframes := fun q' J (hJ : m.IsMap q' J) (hne : (q, I) ≠ (q', J)) =>
    hconfined.other_frames (p := q') (h.trees hJ) (h.apart hq hJ hne)
  refine ⟨?_, ?_, ?_, ?_, fun hf => h.unfreed (hspares hf), hpdpt.trans h.pdpt, hend ▸ h.identityEnd⟩
  · intro q' J hJ
    by_cases hsame : (q, I) = (q', J)
    · obtain ⟨rfl, rfl⟩ := Prod.mk.inj hsame
      rwa [hself]
    · exact (hother q' J ((hmaps q' J).mp hJ) hsame).1
  · intro q₁ J₁ q₂ J₂ h₁ h₂ hne
    rw [hmaps] at h₁ h₂
    by_cases h1 : (q, I) = (q₁, J₁)
    · obtain ⟨rfl, rfl⟩ := Prod.mk.inj h1
      rw [hself]
      exact (hother q₂ J₂ h₂ hne).2.2
    · by_cases h2 : (q, I) = (q₂, J₂)
      · obtain ⟨rfl, rfl⟩ := Prod.mk.inj h2
        rw [hself]
        exact (hother q₁ J₁ h₁ h1).2.2.symm
      · rw [(hother q₁ J₁ h₁ h1).2.1, (hother q₂ J₂ h₂ h2).2.1]
        exact h.apart h₁ h₂ hne
  · intro q' J hJ
    rw [hmaps] at hJ
    by_cases hsame : (q, I) = (q', J)
    · obtain ⟨rfl, rfl⟩ := Prod.mk.inj hsame
      exact hslot
    · rw [(hframes q' J hJ hsame (frameOf q') (.inl rfl)).1]
      exact h.slots hJ
  · rw [hpml4]
    by_cases hsame : (q, I) = (m.pml4, {0})
    · obtain ⟨rfl, rfl⟩ := Prod.mk.inj hsame
      rw [hself]
      exact hfirst rfl
    · have hsame' := hframes m.pml4 {0} (isMap_kernel m) hsame
      exact (find_of_same (t := m'.table.under m.pml4) (fun f hf => (hsame' f hf).1) rfl
        rfl).trans h.first

lemma Sound.quiet (h : Sound used p m)
    (hsame : ∀ q I, m.IsMap q I → ∀ f ∈ (m.table.under q).frames I,
      t.mem f = m.table.mem f ∧ f ∈ used t.alloc)
    (hcalls : .freed (frameAddr p) ∈ t.calls → .freed (frameAddr p) ∈ m.table.calls) :
    Sound used p { m with table := t } where
  trees q I hI := (h.trees hI).of_same (t := t.under q) (fun f hf => (hsame q I hI f hf).1) rfl
    fun f hf => (hsame q I hI f hf).2
  apart q I q' J hI hJ hne := by
    show Disjoint ((t.under q).frames I) ((t.under q').frames J)
    have hI' : (t.under q).frames I = (m.table.under q).frames I :=
      frames_of_same (fun f hf => (hsame q I hI f hf).1) rfl
    have hJ' : (t.under q').frames J = (m.table.under q').frames J :=
      frames_of_same (fun f hf => (hsame q' J hJ f hf).1) rfl
    rw [hI', hJ']
    exact h.apart hI hJ hne
  slots q I hI := (congrFun (hsame q I hI (frameOf q) (.inl rfl)).1 0).trans (h.slots hI)
  first := (find_of_same (s := m.table.under m.pml4) (t := t.under m.pml4)
    (fun f hf => (hsame m.pml4 {0} (isMap_kernel m) f hf).1) rfl rfl).trans h.first
  unfreed hf := h.unfreed (hcalls hf)
  pdpt := h.pdpt
  identityEnd := h.identityEnd

lemma Sound.addUser (h : Sound used p m) (u : Space)
    (htree : Tree used userSlots (m.table.under u.pml4))
    (hslot : m.table.mem (frameOf u.pml4) 0 = frameAddr p ||| 3)
    (hapart : ∀ q I, m.IsMap q I →
      Disjoint ((m.table.under u.pml4).frames userSlots) ((m.table.under q).frames I)) :
    Sound used p { m with users := m.users ++ [u] } := by
  have hmaps : ∀ ⦃q I⦄, ({ m with users := m.users ++ [u] } : Machine α).IsMap q I →
      m.IsMap q I ∨ q = u.pml4 ∧ I = userSlots := by
    rintro q I (hk | ⟨rfl, v, hv, rfl⟩)
    · exact .inl (.inl hk)
    · rcases List.mem_append.mp hv with hv | hv
      · exact .inl (isMap_user hv)
      · exact .inr ⟨congrArg Space.pml4 (List.mem_singleton.mp hv), rfl⟩
  refine ⟨?_, ?_, ?_, h.first, h.unfreed, h.pdpt, h.identityEnd⟩
  · intro q I hI
    rcases hmaps hI with hI | ⟨rfl, rfl⟩
    · exact h.trees hI
    · exact htree
  · intro q I q' J hI hJ hne
    rcases hmaps hI with hI | ⟨rfl, rfl⟩
    · rcases hmaps hJ with hJ | ⟨rfl, rfl⟩
      · exact h.apart hI hJ hne
      · exact (hapart q I hI).symm
    · rcases hmaps hJ with hJ | ⟨rfl, rfl⟩
      · exact hapart q' J hJ
      · exact absurd rfl hne
  · intro q I hI
    rcases hmaps hI with hI | ⟨rfl, rfl⟩
    · exact h.slots hI
    · exact hslot

end Invariant

section Steps
variable {m' : Machine α}

lemma Sound.start (hA : FrameContract A used) (h : (system A used).start m) :
    ∃ p, Sound used p m := by
  obtain ⟨reservedEnd, mem, x, setup, hpos, hend, hsetup, rfl⟩ := h
  obtain ⟨p, hbuilt, -⟩ := MapSetup.generateMap_built hA hend hsetup
  have hK : kernelEnd.toNat = 2 ^ 39 := rfl
  have hpages : 0 < MapSetup.pagesFor reservedEnd.toNat ∧
      MapSetup.pagesFor reservedEnd.toNat ≤ 2 ^ 18 := by
    unfold MapSetup.pagesFor
    omega
  have hhalf := hbuilt.kernelHalf hpages.1
  have hmaps : ∀ {q I}, (⟨setup.table, setup.pml4, setup.pdpt, setup.firstUnmapped, ⟨0, 0⟩, []⟩ :
      Machine α).IsMap q I → q = setup.pml4 ∧ I = {0} := by
    rintro q I (hk | ⟨-, u, hu, -⟩)
    · exact hk
    · cases hu
  refine ⟨p, ?_, ?_, ?_, hhalf.first, ?_, hbuilt.pdpt, ?_⟩
  · intro q I hI
    obtain ⟨rfl, rfl⟩ := hmaps hI
    exact hhalf.tree
  · intro q I q' J hI hJ hne
    obtain ⟨rfl, rfl⟩ := hmaps hI
    obtain ⟨rfl, rfl⟩ := hmaps hJ
    exact absurd rfl hne
  · intro q I hI
    obtain ⟨rfl, rfl⟩ := hmaps hI
    exact hhalf.slot
  · exact List.not_mem_nil
  · show 0x200000 ≤ setup.firstUnmapped.toNat
    rw [hbuilt.firstUnmapped, BitVec.toNat_ofNat]
    omega

lemma Sound.construct (hA : FrameContract A used) (h : Sound used p m)
    (hs : (system A used).step m .construct m') : Sound used p m' := by
  obtain ⟨new, hnew, rfl⟩ := hs
  obtain ⟨g, hg, hpml4, hmem, hcalls, hsub⟩ := construct_spec hA hnew
  obtain ⟨hmapped, htables⟩ := construct_mapped hA hnew
  have hroot : frameOf new.pml4 = g := by rw [hpml4, frameOf_frameAddr]
  have hsame : ∀ q I, m.IsMap q I → ∀ f ∈ (m.table.under q).frames I,
      new.table.mem f = m.table.mem f ∧ f ∈ used new.table.alloc := by
    intro q I hI f hf
    have hused : f ∈ used m.table.alloc := (h.trees hI).frames_used hf
    have hne : f ≠ g := fun he => hg (he ▸ hused)
    rw [hmem]
    exact ⟨Function.update_of_ne hne _ _, hsub (.inr hused)⟩
  have hcalls' : .freed (frameAddr p) ∈ new.table.calls → .freed (frameAddr p) ∈ m.table.calls := by
    intro hf
    rw [hcalls, List.mem_append, List.mem_singleton] at hf
    exact hf.resolve_right nofun
  have hquiet : Sound used p { m with table := new.table } := h.quiet hsame hcalls'
  refine hquiet.addUser ⟨new.pml4, new.freeList⟩ hmapped.tree ?_ fun q I hI => ?_
  · show new.table.mem (frameOf new.pml4) 0 = _
    rw [hmem, hroot, Function.update_self, UserMap.mapData, if_pos rfl, h.pdpt]
  · have hold : (new.table.under q).frames I = (m.table.under q).frames I :=
      frames_of_same (fun f hf => (hsame q I hI f hf).1) rfl
    have hframes : (new.table.under new.pml4).frames userSlots = {g} := by
      rw [State.frames, show (new.table.under new.pml4).tables userSlots = ∅ from htables]
      exact (congrArg (insert · ∅) hroot).trans (LawfulSingleton.insert_empty_eq g)
    show Disjoint ((new.table.under new.pml4).frames userSlots) ((new.table.under q).frames I)
    rw [hold, hframes, Set.disjoint_singleton_left]
    exact fun hf => hg ((h.trees hI).frames_used hf)

lemma exists_pml4_set {users : List Space} {i : ℕ} {u v : Space} {q : PhysAddr}
    (hu : users[i]? = some u) (hv : v.pml4 = u.pml4) :
    (∃ w ∈ users.set i v, w.pml4 = q) ↔ ∃ w ∈ users, w.pml4 = q := by
  have hsame : (users.set i v).map Space.pml4 = users.map Space.pml4 := by
    apply List.ext_getElem?
    intro j
    rw [List.getElem?_map, List.getElem?_map, List.getElem?_set]
    split_ifs with hij hlt
    · rw [← hij, hu]
      exact congrArg some hv
    · rw [← hij, hu]
      exact absurd (List.getElem?_eq_some_iff.mp hu).1 hlt
    · rfl
  rw [← List.mem_map, ← List.mem_map, hsame]

lemma Sound.user (hA : FrameContract A used) (h : Sound used p m) {i : ℕ} {c : UserMap.Call}
    (hs : (system A used).step m (.user i c) m') : Sound used p m' := by
  obtain ⟨u, t, hu, hrange, hok, rfl⟩ := hs
  have hmem : u ∈ m.users := List.mem_of_getElem? hu
  have hmap := isMap_user hmem
  have hp : p ∈ used m.table.alloc :=
    (h.trees (isMap_kernel m)).frames_used h.pdpt_kernel
  obtain ⟨hpml4, hkept⟩ := user_kept (s := m.userMap u) hA (h.trees hmap) rfl hp
    (h.pdpt_not_user hmem) hrange hok
  refine h.act hmap hkept ?_ (fun hI => ?_) rfl (fun q J => ?_) rfl rfl
  · exact (hkept.2.1.slots 0 zero_not_user).trans (h.slots hmap)
  · exact absurd ((Set.ext_iff.mp hI 0).mpr rfl) zero_not_user
  · exact or_congr Iff.rfl (and_congr_right fun _ => exists_pml4_set hu hpml4)

lemma Sound.kernel (hA : FrameContract A used) (h : Sound used p m) {c : GlobalMap.Call}
    (hs : (system A used).step m (.kernel c) m') : Sound used p m' := by
  obtain ⟨r, t, hok, hrange, rfl⟩ := hs
  obtain ⟨-, hkept⟩ := kernel_kept hA h.kernelHalf rfl
    (fun range hr => (hrange range hr).pastFirst h.identityEnd) hok
  have hroot : t.table.root = frameOf m.pml4 := congrArg frameOf hkept.cr3
  refine h.act (isMap_kernel m) ⟨hkept.1.tree, hkept.2⟩ ?_ (fun _ => hkept.1.first) rfl
    (fun q J => Iff.rfl) rfl rfl
  exact (congrArg (t.table.mem · 0) hroot.symm).trans hkept.1.slot

lemma Sound.step (hA : FrameContract A used) (h : Sound used p m) {a : Action α}
    (hs : (system A used).step m a m') : Sound used p m' := by
  cases a with
  | construct => exact h.construct hA hs
  | user i c => exact h.user hA hs
  | kernel c => exact h.kernel hA hs
  | others mem alloc =>
    obtain ⟨hsame, rfl⟩ := hs
    exact h.quiet hsame id

lemma reachable_sound (hA : FrameContract A used) (h : (system A used).Reachable m) :
    ∃ p, Sound used p m :=
  h.invariant (P := fun m => ∃ p, Sound used p m) (fun _ hs => Sound.start hA hs)
    fun _ _ _ _ hm hs => hm.imp fun _ hp => hp.step hA hs

lemma Sound.kernelShared (h : Sound used p m) : KernelShared m := by
  refine ⟨fun u hu x hx => ?_, fun q I hI => ?_, ?_, ?_⟩
  · have hslot : m.table.mem (frameOf u.pml4) (index x 0) = m.table.mem (frameOf m.pml4) (index x 0) := by
      rw [index_kernel hx, h.slots (isMap_user hu), h.slots (isMap_kernel m)]
    unfold PageTable.translate
    rw [hslot]
  · rw [h.pdpt]
    exact h.slots hI
  · rw [h.pdpt, frameOf_frameAddr]
    by_contra hempty
    have hzero : ∀ i, (m.table.under m.pml4).mem p i = 0 := by
      intro i
      by_contra hi
      exact hempty ⟨i, hi⟩
    refine not_table_of_zero hzero (b := index 0) ?_ (by omega : 1 ≤ 3)
      (KernelHalf.pdpt_table h.kernelHalf)
    rw [h.first]
    decide
  · rw [h.pdpt]
    exact h.unfreed

/-- Every address of the kernel half has the same translation in all maps, in every state of
every run. -/
theorem kernel_half_shared (hA : FrameContract A used) (h : (system A used).Reachable m) :
    KernelShared m := by
  obtain ⟨p, hp⟩ := reachable_sound hA h
  exact hp.kernelShared

end Steps

end

/-- A machine with one user map, a user page and a kernel page. -/
def firstPages : Outcome (Machine ℕ) := do
  let setup ← MapSetup.generateMap nextFrame 0x1000 (fun _ _ => 0) 1
  assertThat "firstUnmapped == 0x200000" (setup.firstUnmapped = 0x200000)
  let new ← UserMap.construct nextFrame setup.pdpt setup.table
  let user ← UserMap.mapAt nextFrame 0x8000000000 0x5000 ⟨0x1000, 1⟩ {}
    ⟨new.table.under new.pml4, new.pml4, new.freeList⟩
  let kernel ← GlobalMap.mapAt nextFrame 0x200000 0x6000 ⟨0x1000, 1⟩ {}
    ⟨user.table.under setup.pml4, setup.pml4, ⟨0, 0⟩⟩
  return ⟨kernel.table, setup.pml4, setup.pdpt, setup.firstUnmapped, kernel.finder,
    [⟨user.pml4, user.freeList⟩]⟩

lemma firstPages_ok : ∃ m, firstPages = .ok m ∧ (m.users.map fun u =>
    (PageTable.translate m.table.mem u.pml4 0x8000000000,
      PageTable.translate m.table.mem u.pml4 0x200000)) =
      [(some (5, 0), some (6, 0))] := exists_ok_of_map (by decide +kernel)

lemma firstPage_user : InUserHalf 0x8000000000 0x1000 := by
  refine ⟨by decide, by decide, by decide, by decide, fun x hx => ?_⟩
  obtain ⟨hlow, hhigh⟩ := mem_addresses.mp hx
  exact canonical_of_lt (hhigh.trans_le (by decide))

lemma firstPages_reachable {m : Machine ℕ} (h : firstPages = .ok m) :
    (system nextFrame firstFrames).Reachable m := by
  obtain ⟨setup, hsetup, h⟩ := bind_eq_ok.mp h
  obtain ⟨_, hend, h⟩ := bind_eq_ok.mp h
  obtain ⟨new, hnew, h⟩ := bind_eq_ok.mp h
  obtain ⟨user, huser, h⟩ := bind_eq_ok.mp h
  obtain ⟨kernel, hkernel, h⟩ := bind_eq_ok.mp h
  obtain rfl := Except.ok.inj h
  have hend' : setup.firstUnmapped = 0x200000 := of_decide_eq_true (assertThat_eq_ok.mp hend)
  have hstart : (system nextFrame firstFrames).Reachable
      ⟨setup.table, setup.pml4, setup.pdpt, setup.firstUnmapped, ⟨0, 0⟩, []⟩ :=
    .start ⟨0x1000, fun _ _ => 0, 1, setup, by decide, by decide, hsetup, rfl⟩
  have hconstruct := hstart.next (a := Action.construct) ⟨new, hnew, rfl⟩
  have huserStep := hconstruct.next (a := Action.user 0 (.mapAt 0x8000000000 0x5000 ⟨0x1000, 1⟩ {}))
    ⟨_, user, rfl, by rintro _ ⟨⟩; exact firstPage_user, huser, rfl⟩
  have hkernelRange : InKernelHalf setup.firstUnmapped 0x200000 0x1000 := by
    rw [hend']
    exact ⟨le_rfl, by decide, by decide⟩
  refine huserStep.next (a := Action.kernel (.mapAt 0x200000 0x6000 ⟨0x1000, 1⟩ {}))
    ⟨none, kernel, bind_eq_ok.mpr ⟨kernel, hkernel, rfl⟩, by rintro _ ⟨⟩; exact hkernelRange, rfl⟩

/-- The pages are where they were mapped, the kernel page also in the user map. -/
theorem kernel_half_shared_first_pages : ∃ m, (system nextFrame firstFrames).Reachable m ∧
    (m.users.map fun u => (PageTable.translate m.table.mem u.pml4 0x8000000000,
      PageTable.translate m.table.mem u.pml4 0x200000)) = [(some (5, 0), some (6, 0))] ∧
    KernelShared m := by
  obtain ⟨m, hm, hpages⟩ := firstPages_ok
  have hreach := firstPages_reachable hm
  exact ⟨m, hreach, hpages, kernel_half_shared nextFrame_contract hreach⟩

end Anarch.AddressSpaces
