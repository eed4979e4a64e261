import Anarch.FreeListCalls
import Anarch.PageTableOwnershipRun
import Anarch.PageTablePages

/-! What a user map can do to the kernel half and to its own recursive entry. Nothing but the
PML4 slots of the pages decides it. -/
namespace Anarch.UserMap
open PageTable RadixTree TransitionRun

inductive Call
  | map (phys : PhysAddr) (size : MemoryMap.Size) (attributes : MemoryMap.Attributes)
  | mapAt (addr : VirtAddr) (phys : PhysAddr) (size : MemoryMap.Size)
      (attributes : MemoryMap.Attributes)
  | unmap (addr : VirtAddr) (size : MemoryMap.Size)
  | unmapAndReserve (addr : VirtAddr) (size : MemoryMap.Size)
  | reserve (size : MemoryMap.Size)
  | reserveAt (addr : VirtAddr) (size : MemoryMap.Size)
  | unreserve (addr : VirtAddr) (size : MemoryMap.Size)
  deriving DecidableEq, Repr

section
variable {α : Type}

/-- A call, with the assertions it makes. -/
def Call.exec (A : AllocatorOps α) (s : State α) : Call → Outcome (State α)
  | .map phys size attributes => do return (← UserMap.map A phys size attributes s).2
  | .mapAt addr phys size attributes => UserMap.mapAt A addr phys size attributes s
  | .unmap addr size => UserMap.unmap A addr size s
  | .unmapAndReserve addr size => UserMap.unmapAndReserve A addr size s
  | .reserve size => do return (← UserMap.reserve size s).2
  | .reserveAt addr size => UserMap.reserveAt addr size s
  | .unreserve addr size => UserMap.unreserve addr size s

/-- Runs of a new map, once it is loaded. -/
def system (A : AllocatorOps α) (new : State α) : System (State α) Call where
  start s := s = set new
  step s c t := c.exec A s = .ok t

/-- Entry 0 is the kernel's PDPT, entry 0x1ff the PML4, both with flags 3, and the tables
below entry 0 are as they were when the map was made. -/
def KernelIntact (pdpt : PhysAddr) (new s : State α) : Prop :=
  s.table.mem (frameOf new.pml4) 0 = pdpt ||| 3 ∧
  s.table.mem (frameOf new.pml4) 0x1ff = new.pml4 ||| 3 ∧
  ∀ f ∈ (set new).table.tables {0}, s.table.mem f = new.table.mem f

/-- The pages of the range have PML4 indexes from 1 to 0x1fe. -/
def UserPages (start : VirtAddr) (size : MemoryMap.Size) : Prop :=
  PagesIn userSlots start size.pageSize size.pageCount.toNat

/-- The pages that a call sets or clears are in user slots. Those of `Map` start where the
first free region with room for them does, after alignment. -/
def SlotsSound (s : State α) : Call → Prop
  | .map _ size _ => ∀ r,
      s.freeList.find? (fun r => r.hasRoom size.pageSize size.pageCount) = some r →
      UserPages (r.start + FreeList.Region.chopSize r.start size.pageSize) size
  | .mapAt addr _ size _ => UserPages addr size
  | .unmap addr size => UserPages addr size
  | .unmapAndReserve addr size => UserPages addr size
  | _ => True

variable {A : AllocatorOps α} {used : α → Set Frame} {new s t : State α} {pdpt : PhysAddr}

/-- What a run from a new map keeps. -/
structure Safe (used : α → Set Frame) (new s : State α) : Prop where
  tree : Tree used userSlots s.table
  confined : Confined used userSlots (set new).table s.table
  pml4 : s.pml4 = new.pml4

lemma Safe.cr3 (h : Safe used new s) : s.table.cr3 = s.pml4 := h.confined.cr3.trans h.pml4.symm

/-- The ranges whose pages a call sets or clears have the property. -/
def Call.Ranges (R : VirtAddr → MemoryMap.Size → Prop) (s : State α) : Call → Prop
  | .map _ size _ => ∀ r,
      s.freeList.find? (fun r => r.hasRoom size.pageSize size.pageCount) = some r →
      R (r.start + FreeList.Region.chopSize r.start size.pageSize) size
  | .mapAt addr _ size _ | .unmap addr size | .unmapAndReserve addr size => R addr size
  | _ => True

lemma SlotsSound.ranges {c : Call} (h : SlotsSound s c) : c.Ranges UserPages s := by
  cases c <;> exact h

/-- What setting and clearing these ranges keeps of the page table, the call keeps. -/
theorem Call.exec_rule {R : VirtAddr → MemoryMap.Size → Prop} {P : PageTable.State α → Prop}
    {c : Call} (hranges : c.Ranges R s) (hs : P s.table)
    (hset : ∀ addr phys size attributes w table, R addr size →
      PageTable.setList A s.pml4 addr (phys ||| calcMask size.pageSize false attributes) size 7
        s.table = .ok (w, table) → P table)
    (hunset : ∀ addr size table, R addr size → PageTable.unsetPages A s.pml4 size.pageSize
      size.pageCount.toNat addr s.table = .ok table → P table)
    (hinv : ∀ start bytes table, P table → P (distributeInvlpg start bytes table))
    (hok : c.exec A s = .ok t) : t.pml4 = s.pml4 ∧ P t.table := by
  cases c with
  | map phys size attributes =>
    obtain ⟨⟨r, u⟩, hmap, hr⟩ := bind_eq_ok.mp hok
    obtain rfl := Except.ok.inj hr
    obtain ⟨addr, freeList, halloc, ⟨-, -, rfl⟩ | ⟨hne, -, w, table, hlist, rfl⟩⟩ := map_eq_ok hmap
    · exact ⟨rfl, hs⟩
    · obtain ⟨reg, hreg, rfl⟩ := (FreeList.alloc_eq_ok halloc).resolve_left hne
      exact ⟨rfl, hset _ _ _ _ _ _ (hranges reg hreg) hlist⟩
  | mapAt addr phys size attributes =>
    obtain ⟨overwrote, table, hlist, rfl⟩ := mapAt_eq_ok hok
    have htable := hset _ _ _ _ _ _ hranges hlist
    cases overwrote with
    | false => exact ⟨rfl, htable⟩
    | true => exact ⟨rfl, hinv _ _ _ htable⟩
  | unmap addr size =>
    obtain ⟨table, freeList, htable, -, rfl⟩ := unmap_eq_ok hok
    exact ⟨rfl, hinv _ _ _ (hunset _ _ _ hranges htable)⟩
  | unmapAndReserve addr size =>
    obtain ⟨table, htable, rfl⟩ := unmapAndReserve_eq_ok hok
    exact ⟨rfl, hinv _ _ _ (hunset _ _ _ hranges htable)⟩
  | reserve size =>
    obtain ⟨⟨r, u⟩, hreserve, hr⟩ := bind_eq_ok.mp hok
    obtain rfl := Except.ok.inj hr
    obtain ⟨addr, freeList, -, -, rfl⟩ := reserve_eq_ok hreserve
    exact ⟨rfl, hs⟩
  | reserveAt addr size =>
    obtain ⟨freeList, -, rfl⟩ := reserveAt_eq_ok hok
    exact ⟨rfl, hs⟩
  | unreserve addr size =>
    obtain ⟨freeList, -, rfl⟩ := unreserve_eq_ok hok
    exact ⟨rfl, hs⟩

section
variable (hA : FrameContract A used) (h : Safe used new s)
variable {addr : VirtAddr} {phys : PhysAddr} {size : MemoryMap.Size}
variable {attributes : MemoryMap.Attributes}
include hA h

lemma Safe.setList (hpages : UserPages addr size) {w : Bool} {table : PageTable.State α}
    (hok : setList A s.pml4 addr (phys ||| calcMask size.pageSize false attributes) size 7
      s.table = .ok (w, table)) :
    Tree used userSlots table ∧ Confined used userSlots s.table table :=
  h.tree.setList hA h.cr3 (.inr rfl) isHuge_calcMask hpages hok

lemma Safe.unsetPages (hpages : UserPages addr size) {table : PageTable.State α}
    (hok : unsetPages A s.pml4 size.pageSize size.pageCount.toNat addr s.table = .ok table) :
    Tree used userSlots table ∧ Confined used userSlots s.table table :=
  h.tree.unsetPages hA h.cr3 hpages hok

lemma Safe.exec {c : Call} (hc : SlotsSound s c) (ht : c.exec A s = .ok t) : Safe used new t := by
  have hkeep : Tree used userSlots s.table ∧ Confined used userSlots s.table s.table :=
    ⟨h.tree, .refl s.table⟩
  obtain ⟨hpml4, htable⟩ := Call.exec_rule
    hc.ranges hkeep
    (fun addr phys size attributes w table hpages => h.setList hA hpages)
    (fun addr size table hpages => h.unsetPages hA hpages)
    (fun start bytes table ht => ⟨ht.1.invalidate start bytes, ht.2.invalidate start bytes⟩) ht
  exact ⟨htable.1, h.confined.trans htable.2, hpml4.trans h.pml4⟩

end

lemma Safe.kernelIntact (hA : FrameContract A used) {table : PageTable.State α}
    (hnew : construct A pdpt table = .ok new)
    (hkernel : (set new).table.tables {0} ⊆ used table.alloc) (h : Safe used new s) :
    KernelIntact pdpt new s := by
  obtain ⟨g, hg, hpml4, hmem, -, hsub⟩ := construct_spec hA hnew
  have hframe : frameOf new.pml4 = g := by rw [hpml4, frameOf_frameAddr]
  have hroot : (set new).table.root = g := hframe
  have hslots := h.confined.slots
  rw [hroot] at hslots
  rw [KernelIntact, hframe]
  refine ⟨?_, ?_, fun f hf => ?_⟩
  · rw [hslots 0 fun hm => absurd hm.1 (by decide)]
    simp [set, hmem, mapData]
  · rw [hslots 0x1ff userSlots_outside, hpml4]
    simp [set, hmem, mapData]
  · have hfg : f ≠ (set new).table.root := by
      rintro rfl
      exact hg (hroot ▸ hkernel hf)
    refine (h.confined.frames f (hsub (.inr (hkernel hf))) hfg ?_).1
    rw [(construct_mapped hA hnew).2]
    exact Set.notMem_empty f

/-- In every run whose calls keep to user slots, the kernel half and the recursive entry stay
as the constructor made them. -/
theorem user_slots_keep_kernel (hA : FrameContract A used) {table : PageTable.State α}
    (hnew : construct A pdpt table = .ok new)
    (hkernel : (set new).table.tables {0} ⊆ used table.alloc)
    (h : ((system A new).restrict SlotsSound).Reachable s) : KernelIntact pdpt new s := by
  refine Safe.kernelIntact hA hnew hkernel (h.invariant (P := Safe used new) ?_ ?_)
  · rintro s rfl
    exact ⟨(construct_mapped hA hnew).1.tree, .refl _, rfl⟩
  · rintro s c t - hs ⟨hc, ht⟩
    exact hs.exec hA hc ht

end

lemma firstMap_kernel_tables : (set firstMap).table.tables {0} ⊆ firstFrames 2 := by
  rintro f ⟨a, d, ha, -, hf⟩
  have ha : a 0 = 0 := ha
  have hpdpt : (set firstMap).table.tableAt a 1 = some 1 := by
    refine (table_succ rfl).trans ?_
    rw [ha]
    rfl
  cases d with
  | zero =>
    obtain rfl := Option.some.inj (hpdpt.symm.trans hf)
    exact (by decide : 1 < 2)
  | succ d =>
    have hempty : (set firstMap).table.mem 1 = fun _ => 0 :=
      Function.update_of_ne (by decide : (1 : Frame) ≠ 2) (mapData 0x1000 0x2000) fun _ _ => 0
    have hnone : link ((set firstMap).table.mem 1 (a 1)) = none := by rw [hempty, link_zero]
    have hcut := table_none_below hpdpt hnone (fun _ _ => rfl) (by omega : 1 < d + 1 + 1)
    cases hcut.symm.trans hf

/-- One page at the start of user memory. -/
theorem user_slots_keep_kernel_first_page : ∃ s, ((system nextFrame firstMap).restrict
    SlotsSound).Reachable s ∧ mapping 0x2000 s.table 0x8000000000 = some (3, 0x5007) ∧
    KernelIntact 0x1000 firstMap s := by
  have h : ((mapAt nextFrame 0x8000000000 0x5000 ⟨0x1000, 1⟩ {} (set firstMap)).toOption.map
      fun s => mapping 0x2000 s.table 0x8000000000) = some (some (3, 0x5007)) := by
    decide +kernel
  obtain ⟨s, hs, hm⟩ := exists_ok_of_map h
  have hpages : UserPages 0x8000000000 ⟨0x1000, 1⟩ := by
    intro k hk
    obtain rfl : k = 0 := Nat.lt_one_iff.mp hk
    exact ⟨by decide, by decide⟩
  have hreach : ((system nextFrame firstMap).restrict SlotsSound).Reachable s :=
    System.Reachable.next (a := .mapAt 0x8000000000 0x5000 ⟨0x1000, 1⟩ {}) (.start rfl)
      ⟨hpages, hs⟩
  exact ⟨s, hreach, hm, user_slots_keep_kernel nextFrame_contract firstMap_construct
    firstMap_kernel_tables hreach⟩

/-- A page above user memory passes the assertions of `MapAt`, and the recursive entry becomes
accessible to user code. -/
theorem recursive_entry_becomes_user : ∃ s, (system nextFrame firstMap).Reachable s ∧
    s.table.mem (frameOf firstMap.pml4) 0x1ff = 0x2007 ∧ ¬ KernelIntact 0x1000 firstMap s := by
  have h : ((mapAt nextFrame 0xFFFFFFFFFFFFE000 0x5000 ⟨0x1000, 1⟩ {} (set firstMap)).toOption.map
      fun s => s.table.mem (frameOf firstMap.pml4) 0x1ff) = some 0x2007 := by decide +kernel
  obtain ⟨s, hs, hm⟩ := exists_ok_of_map h
  refine ⟨s, .next (a := .mapAt 0xFFFFFFFFFFFFE000 0x5000 ⟨0x1000, 1⟩ {}) (.start rfl) hs, hm, ?_⟩
  rintro ⟨-, hself, -⟩
  rw [hm] at hself
  exact absurd hself (by decide)

end Anarch.UserMap
