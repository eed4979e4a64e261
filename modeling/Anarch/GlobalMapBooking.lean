import Anarch.FreeFinderRegion
import Anarch.GlobalMap

/-! Runs of the kernel memory map against a ledger of the pages that are mapped or reserved:
what `Map` and `Reserve` hand out is free, as long as no rescan meets a reserved 4 KiB page. -/
namespace Anarch.GlobalMap
open PageTable FreeFinder RadixTree TransitionRun

/-- The size of the page each address is held with. -/
abbrev Ledger := VirtAddr → Option Word

structure History (α : Type) where
  map : State α
  ledger : Ledger

inductive Call
  | map (phys : PhysAddr) (size : MemoryMap.Size) (attributes : MemoryMap.Attributes)
  | mapAt (addr : VirtAddr) (phys : PhysAddr) (size : MemoryMap.Size)
      (attributes : MemoryMap.Attributes)
  | unmap (addr : VirtAddr) (size : MemoryMap.Size)
  | unmapAndReserve (addr : VirtAddr) (size : MemoryMap.Size)
  | reserve (size : MemoryMap.Size)
  | reserveAt (addr : VirtAddr) (size : MemoryMap.Size)
  | unreserve (addr : VirtAddr) (size : MemoryMap.Size)
  | rereserve (addr : VirtAddr) (size : MemoryMap.Size) (newPageSize : Word)
  deriving DecidableEq, Repr

/-- A range of whole pages of the kernel half, held with this page size. -/
def Held (L : Ledger) (addr : VirtAddr) (size : MemoryMap.Size) : Prop :=
  0 < size.pageSize.toNat ∧ addr.toNat % size.pageSize.toNat = 0 ∧
    addr.toNat + size.span ≤ kernelEnd.toNat ∧
    ∀ x ∈ addresses addr size.span, L x = some size.pageSize

/-- A range of the kernel half that nobody holds. -/
def Free (L : Ledger) (addr : VirtAddr) (size : MemoryMap.Size) : Prop :=
  addr.toNat + size.span ≤ kernelEnd.toNat ∧ ∀ x ∈ addresses addr size.span, L x = none

/-- `ReserveAt` takes a free range, the other calls take ranges that are held. -/
def Allowed (L : Ledger) : Call → Prop
  | .map _ _ _ => True
  | .mapAt addr _ size _ => Held L addr size
  | .unmap addr size => Held L addr size
  | .unmapAndReserve addr size => Held L addr size
  | .reserve _ => True
  | .reserveAt addr size => Free L addr size
  | .unreserve addr size => Held L addr size
  | .rereserve addr size _ => Held L addr size

/-- The ledger after a call that handed out `r`. -/
def Call.record (r : Option VirtAddr) (L : Ledger) : Call → Ledger
  | .map _ size _ => r.elim L fun addr => overwrite addr size.span (some size.pageSize) L
  | .mapAt addr _ size _ => overwrite addr size.span (some size.pageSize) L
  | .unmap addr size => overwrite addr size.span none L
  | .unmapAndReserve addr size => overwrite addr size.span (some size.pageSize) L
  | .reserve size => r.elim L fun addr => overwrite addr size.span (some size.pageSize) L
  | .reserveAt addr size => overwrite addr size.span (some size.pageSize) L
  | .unreserve addr size => overwrite addr size.span none L
  | .rereserve addr size newPageSize => overwrite addr size.span (some newPageSize) L

section
variable {α : Type}

def Call.exec (A : AllocatorOps α) (s : State α) : Call → Outcome (Option VirtAddr × State α)
  | .map phys size attributes => GlobalMap.map A phys size attributes s
  | .mapAt addr phys size attributes => do return (none, ← GlobalMap.mapAt A addr phys size attributes s)
  | .unmap addr size => do return (none, ← GlobalMap.unmap A addr size s)
  | .unmapAndReserve addr size => do return (none, ← GlobalMap.unmapAndReserve A addr size s)
  | .reserve size => GlobalMap.reserve A size s
  | .reserveAt addr size => do return (none, ← GlobalMap.reserveAt A addr size s)
  | .unreserve addr size => do return (none, ← GlobalMap.unreserve A addr size s)
  | .rereserve addr size newPageSize => do
      return (none, ← GlobalMap.rereserve A addr size newPageSize s)

/-- What `Map` and `Reserve` have in common. -/
def allocList (A : AllocatorOps α) (size : MemoryMap.Size) (align entry : Word) (s : State α) :
    Outcome (Option VirtAddr × State α) := do
  match ← alloc s.pml4 s.table size.bytes align s.finder with
  | (none, finder) => return (none, { s with finder })
  | (some addr, finder) => do
      let (_, table) ← setList A s.pml4 addr entry size 3 s.table
      return (some addr, { s with finder, table })

lemma map_eq_allocList (A : AllocatorOps α) (phys : PhysAddr) (size : MemoryMap.Size)
    (attributes : MemoryMap.Attributes) (s : State α) :
    map A phys size attributes s =
      allocList A size size.pageCount (phys ||| calcMask size.pageSize true attributes) s := rfl

lemma reserve_eq_allocList (A : AllocatorOps α) (size : MemoryMap.Size) (s : State α) :
    reserve A size s = allocList A size size.pageSize (reservedEntry size.pageSize) s := rfl

lemma allocList_eq_ok {A : AllocatorOps α} {size : MemoryMap.Size} {align entry : Word}
    {s t : State α} {r : Option VirtAddr} (h : allocList A size align entry s = .ok (r, t)) :
    t.pml4 = s.pml4 ∧ alloc s.pml4 s.table size.bytes align s.finder = .ok (r, t.finder) ∧
      (r = none ∧ t.table = s.table ∨ ∃ addr w, r = some addr ∧
        setList A s.pml4 addr entry size 3 s.table = .ok (w, t.table)) := by
  obtain ⟨⟨a, finder⟩, halloc, h⟩ := bind_eq_ok.mp h
  cases a with
  | none =>
    obtain ⟨rfl, rfl⟩ := Prod.mk.inj (Except.ok.inj h)
    exact ⟨rfl, halloc, .inl ⟨rfl, rfl⟩⟩
  | some addr =>
    obtain ⟨⟨w, table⟩, hlist, h⟩ := bind_eq_ok.mp h
    obtain ⟨rfl, rfl⟩ := Prod.mk.inj (Except.ok.inj h)
    exact ⟨rfl, halloc, .inr ⟨addr, w, rfl, hlist⟩⟩

/-- Runs from a loaded kernel table and an empty candidate. The ledger at first holds the
pages that the table has entries for. -/
def system (A : AllocatorOps α) (used : α → Set Frame) : System (History α) Call where
  start h := Tree used {0} h.map.table ∧ h.map.table.cr3 = h.map.pml4 ∧
    h.map.finder = ⟨0, 0⟩ ∧ Set.EqOn h.map.table.booked h.ledger kernelAddresses
  step h c h' := Allowed h.ledger c ∧
    ∃ r, c.exec A h.map = .ok (r, h'.map) ∧ h'.ledger = c.record r h.ledger

/-- No page of 4 KiB is reserved: `Walk` reports every page that has an entry. -/
def NoSmallReserved (s : State α) : Prop :=
  ∀ x ∈ kernelAddresses, s.table.booked x ≠ none → s.table.leaf (index x) ≠ none

/-- The bytes fit a word, no 4 KiB page is reserved if the candidate has no room, and a
request for nothing does not move the candidate past its end. -/
def AllocSafe (s : State α) (size : MemoryMap.Size) (align : Word) : Prop :=
  size.span < 2 ^ 64 ∧ (s.finder.canAllocate size.bytes align ≠ .ok true → NoSmallReserved s) ∧
    (size.bytes = 0 → s.finder.Fits size.bytes align)

def Safe (h : History α) : Call → Prop
  | .map _ size _ => AllocSafe h.map size size.pageCount
  | .reserve size => AllocSafe h.map size size.pageSize
  | _ => True

/-- What `Map` and `Reserve` return is held by nobody. -/
def NoDoubleBooking (A : AllocatorOps α) (C : History α → Call → Prop) (h : History α) : Prop :=
  (∀ phys size attributes addr s, C h (.map phys size attributes) →
    GlobalMap.map A phys size attributes h.map = .ok (some addr, s) → Free h.ledger addr size) ∧
  ∀ size addr s, C h (.reserve size) →
    GlobalMap.reserve A size h.map = .ok (some addr, s) → Free h.ledger addr size

variable {A : AllocatorOps α} {used : α → Set Frame} {H : History α} {s : State α}
variable {L : Ledger} {addr : VirtAddr} {size : MemoryMap.Size}

/-- The table books what the ledger holds, and the candidate is free. -/
structure Booked (used : α → Set Frame) (L : Ledger) (s : State α) : Prop where
  books : Books used s.pml4 L s.table
  finder : s.finder.Within {x | L x = none}

lemma mapped_ne_zero {phys : PhysAddr} {pageSize : Word} {attributes : MemoryMap.Attributes}
    (hsize : pageSize.toNat % 4096 = 0) (k : ℕ) :
    pageAt (phys ||| calcMask pageSize true attributes) pageSize k ≠ 0 := by
  intro hzero
  have hp := isPresent_pageAt (phys ||| calcMask pageSize true attributes) hsize k
  rw [hzero, isPresent_calcMask] at hp
  cases hp

lemma isHuge_reservedEntry {pageSize : Word} (h : pageSize ≠ 0x1000) :
    isHuge (reservedEntry pageSize) = true := by
  rw [isHuge_eq, reservedEntry, if_neg h, BitVec.getLsbD_or]
  simp

/-- The entries of a reservation count upwards, but stay below the end of a word. -/
lemma reserved_ne_zero (hspan : size.span ≤ kernelEnd.toNat)
    (hsize : size.pageSize.toNat % 4096 = 0) :
    ∀ k < size.pageCount.toNat, pageAt (reservedEntry size.pageSize) size.pageSize k ≠ 0 := by
  intro k hk hzero
  by_cases hsmall : size.pageSize = 0x1000
  · have hK : kernelEnd.toNat = 2 ^ 39 := rfl
    have hpages : size.pageCount.toNat * 4096 ≤ 2 ^ 39 := by
      rw [MemoryMap.Size.span, hsmall, hK] at hspan
      change 4096 * _ ≤ _ at hspan
      omega
    rw [hsmall] at hzero
    have := congrArg BitVec.toNat hzero
    simp only [pageAt, reservedEntry, if_true, BitVec.toNat_add, BitVec.toNat_mul,
      BitVec.toNat_ofNat] at this
    change (4096 + k % 2 ^ 64 * 4096 % 2 ^ 64) % 2 ^ 64 = 0 at this
    omega
  · have hh := isHuge_pageAt (reservedEntry size.pageSize) hsize k
    rw [hzero, isHuge_reservedEntry hsmall] at hh
    cases hh

lemma within_overwrite {f : Finder} {v : Word}
    (h : f.Within ({x | L x = none} \ addresses addr size.span)) :
    f.Within {x | overwrite addr size.span (some v) L x = none} :=
  h.mono fun _ hx => (overwrite_of_notMem hx.2).trans hx.1

section
variable (hA : FrameContract A used) (h : Booked used L s)
include h

/-- A held page is not in the candidate, so booking it again leaves the candidate free. -/
lemma Booked.within_held {v : Word} (hheld : ∀ x ∈ addresses addr size.span, L x ≠ none) :
    s.finder.Within {x | overwrite addr size.span (some v) L x = none} :=
  within_overwrite (h.finder.mono fun _ hx => ⟨hx, fun hin => hheld _ hin hx⟩)

include hA

lemma Booked.reserveList (hend : addr.toNat + size.span ≤ kernelEnd.toNat)
    (hold : ∀ x ∈ addresses addr size.span, L x = none ∨ L x = some size.pageSize)
    {w : Bool} {table : PageTable.State α}
    (hok : setList A s.pml4 addr (reservedEntry size.pageSize) size 3 s.table = .ok (w, table)) :
    Books used s.pml4 (overwrite addr size.span (some size.pageSize) L) table :=
  h.books.setList hA hend (.inl rfl) isHuge_reservedEntry (reserved_ne_zero (by omega)) hold hok

lemma Booked.mapList {phys : PhysAddr} {attributes : MemoryMap.Attributes}
    (hend : addr.toNat + size.span ≤ kernelEnd.toNat)
    (hold : ∀ x ∈ addresses addr size.span, L x = none ∨ L x = some size.pageSize)
    {w : Bool} {table : PageTable.State α}
    (hok : setList A s.pml4 addr (phys ||| calcMask size.pageSize true attributes) size 3 s.table =
      .ok (w, table)) :
    Books used s.pml4 (overwrite addr size.span (some size.pageSize) L) table :=
  h.books.setList hA hend (.inl rfl) isHuge_calcMask (fun hsize k _ => mapped_ne_zero hsize k) hold
    hok

lemma Booked.unsetList (hheld : Held L addr size) {table : PageTable.State α}
    (hok : PageTable.unsetPages A s.pml4 size.pageSize size.pageCount.toNat addr s.table =
      .ok table) : Books used s.pml4 (overwrite addr size.span none L) table := by
  obtain ⟨hpos, halign, hend, hheld⟩ := hheld
  rw [MemoryMap.Size.span, Nat.mul_comm] at hend hheld ⊢
  exact h.books.unsetPages hA hend hpos halign hheld hok

omit hA in
/-- What `Alloc` hands out is free. -/
lemma Booked.alloc {align : Word} (hsafe : AllocSafe s size align) {r : Option VirtAddr}
    {finder : Finder} (hok : alloc s.pml4 s.table size.bytes align s.finder = .ok (r, finder)) :
    match r with
    | none => finder.Within {x | L x = none}
    | some addr => Free L addr size ∧
        finder.Within {x | overwrite addr size.span (some size.pageSize) L x = none} := by
  obtain ⟨hspan, hrescan, hzero⟩ := hsafe
  have hready : Ready s.table {x | L x = none} s.finder size.bytes align := by
    intro hnot x hx hleaf
    rw [Set.mem_ofPred_eq, ← h.books.booked hx]
    by_contra hbooked
    exact hrescan hnot x hx hbooked hleaf
  have hspec := alloc_spec h.books.tree h.books.cr3 h.finder hready hzero hok
  cases r with
  | none => exact hspec
  | some addr =>
    rw [MemoryMap.Size.bytes_toNat hspan] at hspec
    exact ⟨⟨hspec.1, fun x hx => hspec.2.1 hx⟩, within_overwrite hspec.2.2⟩

omit hA in
lemma Booked.allocList {align entry : Word} (hsafe : AllocSafe s size align)
    (hlist : ∀ addr w table, Free L addr size →
      setList A s.pml4 addr entry size 3 s.table = .ok (w, table) →
      Books used s.pml4 (overwrite addr size.span (some size.pageSize) L) table)
    {r : Option VirtAddr} {t : State α} (hok : allocList A size align entry s = .ok (r, t)) :
    Booked used (r.elim L fun addr => overwrite addr size.span (some size.pageSize) L) t ∧
      ∀ addr ∈ r, Free L addr size := by
  obtain ⟨hpml4, halloc, ⟨rfl, htable⟩ | ⟨addr, w, rfl, hset⟩⟩ := allocList_eq_ok hok
  · have hwithin := h.alloc hsafe halloc
    refine ⟨⟨?_, hwithin⟩, by simp⟩
    rw [hpml4, htable]
    exact h.books
  · obtain ⟨hfree, hwithin⟩ := h.alloc hsafe halloc
    refine ⟨⟨?_, hwithin⟩, ?_⟩
    · rw [hpml4]
      exact hlist addr w t.table hfree hset
    · rintro _ ⟨⟩
      exact hfree

lemma Booked.map {phys : PhysAddr} {attributes : MemoryMap.Attributes}
    (hsafe : AllocSafe s size size.pageCount) {r : Option VirtAddr} {t : State α}
    (hok : GlobalMap.map A phys size attributes s = .ok (r, t)) :
    Booked used (Call.record r L (.map phys size attributes)) t ∧
      ∀ addr ∈ r, Free L addr size :=
  h.allocList hsafe (fun _ _ _ hfree => h.mapList hA hfree.1 fun x hx => .inl (hfree.2 x hx)) hok

lemma Booked.reserve (hsafe : AllocSafe s size size.pageSize) {r : Option VirtAddr} {t : State α}
    (hok : GlobalMap.reserve A size s = .ok (r, t)) :
    Booked used (Call.record r L (.reserve size)) t ∧ ∀ addr ∈ r, Free L addr size :=
  h.allocList hsafe (fun _ _ _ hfree => h.reserveList hA hfree.1 fun x hx => .inl (hfree.2 x hx))
    hok

lemma Booked.mapAt {phys : PhysAddr} {attributes : MemoryMap.Attributes}
    (hheld : Held L addr size) {t : State α}
    (hok : GlobalMap.mapAt A addr phys size attributes s = .ok t) :
    Booked used (overwrite addr size.span (some size.pageSize) L) t := by
  obtain ⟨⟨w, table⟩, hlist, hok⟩ := bind_eq_ok.mp hok
  obtain rfl := Except.ok.inj hok
  obtain ⟨-, -, hend, hheld⟩ := hheld
  refine ⟨(h.mapList hA hend (fun x hx => .inr (hheld x hx)) hlist).invalidate _ _,
    h.within_held fun x hx => ?_⟩
  rw [hheld x hx]
  exact Option.some_ne_none _

lemma Booked.unmap (hheld : Held L addr size) {t : State α}
    (hok : GlobalMap.unmap A addr size s = .ok t) :
    Booked used (overwrite addr size.span none L) t := by
  obtain ⟨table, hunset, hok⟩ := bind_eq_ok.mp hok
  obtain rfl := Except.ok.inj hok
  refine ⟨(h.unsetList hA hheld hunset).invalidate _ _, ?_⟩
  have hK : kernelEnd.toNat = 2 ^ 39 := rfl
  have hbytes := MemoryMap.Size.bytes_toNat (s := size) (by have := hheld.2.2.1; omega)
  have hend : addr.toNat + size.bytes.toNat ≤ kernelEnd.toNat := by
    rw [hbytes]
    exact hheld.2.2.1
  refine (h.finder.give hend).mono ?_
  rw [hbytes]
  rintro x (hx | hx)
  · by_cases hin : x ∈ addresses addr size.span
    · exact overwrite_of_mem hin
    · exact (overwrite_of_notMem hin).trans hx
  · exact overwrite_of_mem hx

lemma Booked.reserveAt (hfree : Free L addr size) {t : State α}
    (hok : GlobalMap.reserveAt A addr size s = .ok t) :
    Booked used (overwrite addr size.span (some size.pageSize) L) t := by
  obtain ⟨⟨w, table⟩, hlist, hok⟩ := bind_eq_ok.mp hok
  obtain rfl := Except.ok.inj hok
  have hK : kernelEnd.toNat = 2 ^ 39 := rfl
  have hbytes := MemoryMap.Size.bytes_toNat (s := size) (by have := hfree.1; omega)
  refine ⟨h.reserveList hA hfree.1 (fun x hx => .inl (hfree.2 x hx)) hlist, within_overwrite ?_⟩
  have hend : addr.toNat + size.bytes.toNat ≤ kernelEnd.toNat := by
    rw [hbytes]
    exact hfree.1
  have hwithin := h.finder.reserve hend
  rwa [hbytes] at hwithin

lemma Booked.renew (hheld : Held L addr size) (new : MemoryMap.Size)
    (hspan : new.span = size.span) {table table' : PageTable.State α} {w : Bool}
    (hunset : PageTable.unsetPages A s.pml4 size.pageSize size.pageCount.toNat addr s.table =
      .ok table)
    (hlist : setList A s.pml4 addr (reservedEntry new.pageSize) new 3 table = .ok (w, table')) :
    Booked used (overwrite addr size.span (some new.pageSize) L)
      { s with table := distributeInvlpg addr size.bytes table' } := by
  have hbooks := h.unsetList hA hheld hunset
  have hK : kernelEnd.toNat = 2 ^ 39 := rfl
  have hend := hheld.2.2.1
  rw [← hspan] at hbooks hend
  have hset := hbooks.setList hA hend (.inl rfl) isHuge_reservedEntry
    (reserved_ne_zero (by omega)) (fun x hx => .inl (overwrite_of_mem hx)) hlist
  rw [overwrite_overwrite, hspan] at hset
  refine ⟨hset.invalidate _ _, h.within_held fun x hx => ?_⟩
  rw [hheld.2.2.2 x hx]
  exact Option.some_ne_none _

lemma Booked.unmapAndReserve (hheld : Held L addr size) {t : State α}
    (hok : GlobalMap.unmapAndReserve A addr size s = .ok t) :
    Booked used (overwrite addr size.span (some size.pageSize) L) t := by
  obtain ⟨table, hunset, hok⟩ := bind_eq_ok.mp hok
  obtain ⟨⟨w, table'⟩, hlist, hok⟩ := bind_eq_ok.mp hok
  obtain rfl := Except.ok.inj hok
  exact h.renew hA hheld size rfl hunset hlist

lemma Booked.rereserve (hheld : Held L addr size) {newPageSize : Word} {t : State α}
    (hok : GlobalMap.rereserve A addr size newPageSize s = .ok t) :
    Booked used (overwrite addr size.span (some newPageSize) L) t := by
  obtain ⟨rest, hrest, hok⟩ := bind_eq_ok.mp hok
  obtain ⟨_, hdivides, hok⟩ := bind_eq_ok.mp hok
  obtain ⟨_, _, hok⟩ := bind_eq_ok.mp hok
  obtain ⟨_, _, hok⟩ := bind_eq_ok.mp hok
  obtain ⟨table, hunset, hok⟩ := bind_eq_ok.mp hok
  obtain ⟨pageCount, hcount, hok⟩ := bind_eq_ok.mp hok
  obtain ⟨⟨w, table'⟩, hlist, hok⟩ := bind_eq_ok.mp hok
  obtain rfl := Except.ok.inj hok
  have hne : newPageSize ≠ 0 := by
    rintro rfl
    cases hrest
  have hmod := of_decide_eq_true (assertThat_eq_ok.mp hdivides)
  rw [checkedMod_of_ne hne] at hrest
  rw [checkedDiv_of_ne hne] at hcount
  obtain rfl := Except.ok.inj hrest
  obtain rfl := Except.ok.inj hcount
  have hK : kernelEnd.toNat = 2 ^ 39 := rfl
  have hbytes := MemoryMap.Size.bytes_toNat (s := size) (by have := hheld.2.2.1; omega)
  refine h.renew hA hheld ⟨newPageSize, size.bytes / newPageSize⟩ ?_ hunset hlist
  rw [MemoryMap.Size.span, BitVec.toNat_udiv, ← hbytes]
  exact Nat.mul_div_cancel' (Nat.dvd_of_mod_eq_zero (toNat_mod_of_aligned hmod))

lemma Booked.exec {c : Call} (hallowed : Allowed L c) (hsafe : Safe ⟨s, L⟩ c)
    {r : Option VirtAddr} {t : State α} (hok : c.exec A s = .ok (r, t)) :
    Booked used (c.record r L) t := by
  cases c with
  | map phys size attributes => exact (h.map hA hsafe hok).1
  | reserve size => exact (h.reserve hA hsafe hok).1
  | mapAt addr phys size attributes =>
    obtain ⟨t', hcall, hr⟩ := bind_eq_ok.mp hok
    obtain ⟨rfl, rfl⟩ := Prod.mk.inj (Except.ok.inj hr)
    exact h.mapAt hA hallowed hcall
  | unmap addr size | unreserve addr size =>
    obtain ⟨t', hcall, hr⟩ := bind_eq_ok.mp hok
    obtain ⟨rfl, rfl⟩ := Prod.mk.inj (Except.ok.inj hr)
    exact h.unmap hA hallowed hcall
  | unmapAndReserve addr size =>
    obtain ⟨t', hcall, hr⟩ := bind_eq_ok.mp hok
    obtain ⟨rfl, rfl⟩ := Prod.mk.inj (Except.ok.inj hr)
    exact h.unmapAndReserve hA hallowed hcall
  | reserveAt addr size =>
    obtain ⟨t', hcall, hr⟩ := bind_eq_ok.mp hok
    obtain ⟨rfl, rfl⟩ := Prod.mk.inj (Except.ok.inj hr)
    exact h.reserveAt hA hallowed hcall
  | rereserve addr size newPageSize =>
    obtain ⟨t', hcall, hr⟩ := bind_eq_ok.mp hok
    obtain ⟨rfl, rfl⟩ := Prod.mk.inj (Except.ok.inj hr)
    exact h.rereserve hA hallowed hcall

end

lemma reachable_booked (hA : FrameContract A used)
    (hr : ((system A used).restrict Safe).Reachable H) : Booked used H.ledger H.map := by
  refine hr.invariant (P := fun H => Booked used H.ledger H.map) ?_ ?_
  · rintro H ⟨ht, hcr3, hfinder, hbooked⟩
    refine ⟨⟨ht, hcr3, hbooked⟩, ?_⟩
    rw [hfinder]
    exact Finder.empty_within 0 (Nat.zero_le _)
  · rintro H c H' - hs ⟨hsafe, hallowed, r, hok, hledger⟩
    rw [hledger]
    exact hs.exec hA hallowed hsafe hok

/-- In every run whose steps are safe, no range is handed out twice. -/
theorem safe_run_never_double_books (hA : FrameContract A used)
    (hr : ((system A used).restrict Safe).Reachable H) :
    Set.EqOn H.map.table.booked H.ledger kernelAddresses ∧ NoDoubleBooking A Safe H := by
  have hs := reachable_booked hA hr
  refine ⟨hs.books.booked, fun phys size attributes addr s hsafe hok => ?_,
    fun size addr s hsafe hok => ?_⟩
  · exact (hs.map hA hsafe hok).2 addr rfl
  · exact (hs.reserve hA hsafe hok).2 addr rfl

end

/-- A kernel table with the first 2 MiB mapped, as the kernel maps itself; the page behind
them reserved, and reserved once more. -/
def firstRun : Outcome ((Option Bool × PageTable.State ℕ) × (Bool × PageTable.State ℕ) ×
    Bool × PageTable.State ℕ) := do
  let boot ← PageTable.set nextFrame 0x1000 0 0x183 3 2 emptyMap
  let once ← setList nextFrame 0x1000 0x200000 0x1000 ⟨0x1000, 1⟩ 3 boot.2
  let twice ← setList nextFrame 0x1000 0x200000 0x1000 ⟨0x1000, 1⟩ 3 once.2
  return (boot, once, twice)

lemma firstRun_tables : ∃ t₀ t₁ t₂,
    PageTable.set nextFrame 0x1000 0 0x183 3 2 emptyMap = .ok (some false, t₀) ∧
    setList nextFrame 0x1000 0x200000 0x1000 ⟨0x1000, 1⟩ 3 t₀ = .ok (false, t₁) ∧
    setList nextFrame 0x1000 0x200000 0x1000 ⟨0x1000, 1⟩ 3 t₁ = .ok (true, t₂) ∧
    t₀.find (index 0) = (2, 0x183) ∧ t₁.find (index 0) = (2, 0x183) ∧
    t₁.find (index 0x200000) = (3, 0x1000) := by
  have h : (firstRun.toOption.map fun r => decide (r.1.1 = some false ∧ r.2.1.1 = false ∧
      r.2.2.1 = true ∧ r.1.2.find (index 0) = (2, 0x183) ∧ r.2.1.2.find (index 0) = (2, 0x183) ∧
      r.2.1.2.find (index 0x200000) = (3, 0x1000))) = some true := by decide +kernel
  obtain ⟨⟨⟨w₀, t₀⟩, ⟨w₁, t₁⟩, ⟨w₂, t₂⟩⟩, hrun, hr⟩ := exists_ok_of_map h
  obtain ⟨_, h₀, hrun⟩ := bind_eq_ok.mp hrun
  obtain ⟨_, h₁, hrun⟩ := bind_eq_ok.mp hrun
  obtain ⟨_, h₂, hrun⟩ := bind_eq_ok.mp hrun
  have hrun := Except.ok.inj hrun
  simp only [Prod.mk.injEq] at hrun
  obtain ⟨rfl, rfl, rfl⟩ := hrun
  obtain ⟨rfl, rfl, rfl, hfind₀, hfind₁, hfind₂⟩ := of_decide_eq_true hr
  exact ⟨t₀, t₁, t₂, h₀, h₁, h₂, hfind₀, hfind₁, hfind₂⟩

/-- The ledger of the kernel's own page. -/
def bootLedger : Ledger := overwrite 0 0x200000 (some 0x200000) fun _ => none

lemma boot_books {t : PageTable.State ℕ} {w : Bool}
    (h : PageTable.set nextFrame 0x1000 0 0x183 3 2 emptyMap = .ok (some w, t)) :
    Books firstFrames 0x1000 bootLedger t := by
  have hzero : ∀ i ∈ ({0} : Set Index), emptyMap.mem emptyMap.root i = 0 := by
    rintro i rfl
    rfl
  have hempty : Books firstFrames 0x1000 (fun _ => none) emptyMap := by
    refine ⟨.of_empty hzero (by decide) rfl (show 1 < 2 by decide), rfl, fun x hx => ?_⟩
    have hmem : index x 0 ∈ ({0} : Set Index) := index_kernel hx
    have hnone : link (emptyMap.mem emptyMap.root (index x 0)) = none := by
      rw [hzero _ hmem]
      rfl
    rw [booked_eq_none, find_of_absent (Nat.zero_le 3) rfl (.inr hnone), hzero _ hmem]
  have hstart : (0 : Word) ∈ kernelAddresses := (by decide : (0 : Word).toNat < kernelEnd.toNat)
  exact hempty.trans (set_booked nextFrame_contract hempty.tree hempty.cr3 hstart (.inl rfl)
    (.inr rfl) (by decide) (.inl (hempty.booked hstart)) h)

lemma leaf_of_booked {t : PageTable.State ℕ} {p x : VirtAddr} {d : ℕ} (hd : d ≤ 3)
    (hp : p ∈ kernelAddresses) (hx : x ∈ kernelAddresses)
    (halign : p.toNat % (pageSizeAt d).toNat = 0) (hfind : (t.find (index p)).1 = d)
    (hin : x ∈ addresses p (pageSizeAt d).toNat) : t.leaf (index x) = t.leaf (index p) := by
  have hagree := (agree_iff_mem hd hp hx halign).mpr hin
  rw [State.leaf, find_congr t (hfind ▸ hagree), ← State.leaf]

section
variable {t₀ t₁ : PageTable.State ℕ} (hboot : Books firstFrames 0x1000 bootLedger t₀)
variable (honce : Books firstFrames 0x1000
  (overwrite 0x200000 0x1000 (some 0x1000) bootLedger) t₁)

include hboot in
lemma boot_rest {x : VirtAddr} (hx : x ∈ kernelAddresses) (hge : 0x200000 ≤ x.toNat) :
    t₀.leaf (index x) = none := by
  refine leaf_of_not_booked ((hboot.booked hx).trans (overwrite_of_notMem fun h => ?_))
  exact absurd h.2 (not_lt.mpr hge)

include hboot in
lemma boot_noSmallReserved (hfind : t₀.find (index 0) = (2, 0x183)) :
    NoSmallReserved ⟨t₀, 0x1000, ⟨0, 0⟩⟩ := by
  intro x hx hbooked
  rw [hboot.booked hx] at hbooked
  have hin : x ∈ addresses 0 0x200000 := by
    by_contra hout
    exact hbooked (overwrite_of_notMem hout)
  rw [leaf_of_booked (d := 2) (by decide)
    (by decide : (0 : Word).toNat < kernelEnd.toNat) hx rfl (by rw [hfind]) hin, State.leaf, hfind]
  decide

include honce in
lemma once_rest (hfind : t₁.find (index 0x200000) = (3, 0x1000)) {x : VirtAddr}
    (hx : x ∈ kernelAddresses) (hge : 0x200000 ≤ x.toNat) : t₁.leaf (index x) = none := by
  by_cases hin : x ∈ addresses 0x200000 0x1000
  · have hp : (0x200000 : Word) ∈ kernelAddresses :=
      (by decide : (0x200000 : Word).toNat < kernelEnd.toNat)
    rw [leaf_of_booked (d := 3) le_rfl hp hx rfl (by rw [hfind]) hin, State.leaf, hfind]
    rfl
  · refine leaf_of_not_booked ((honce.booked hx).trans ((overwrite_of_notMem hin).trans
      (overwrite_of_notMem fun h => ?_)))
    exact absurd h.2 (not_lt.mpr hge)

/-- With the first 2 MiB mapped and nothing else that `Walk` reports, the rescan takes all the
rest. -/
lemma rescan_of_first_page {t : PageTable.State ℕ} {L : Ledger} (h : Books firstFrames 0x1000 L t)
    (hfirst : t.find (index 0) = (2, 0x183))
    (hrest : ∀ x ∈ kernelAddresses, 0x200000 ≤ x.toNat → t.leaf (index x) = none) {f : Finder}
    (hf : f.freeSize.toNat < 0x7fffe00000) :
    updateFreeRegion 0x1000 t f = .ok ⟨0x200000, 0x7fffe00000⟩ := by
  have hsize : walkSize t 0 = 0x200000 := by rw [walkSize, hfirst]; rfl
  have hleaf : t.leaf (index 0) ≠ none := by
    rw [State.leaf, hfirst]
    decide
  have hK : (0x200000 : Word) ∈ kernelAddresses :=
    (by decide : (0x200000 : Word).toNat < kernelEnd.toNat)
  have hscan := updateFreeRegion_of_first_page h.tree h.cr3 (f := f) hleaf
    (by rw [hsize]; exact hrest) (by rw [hsize]; exact hK) (by rw [hsize]; exact hf)
  rw [hsize] at hscan
  exact hscan

end

lemma bootHistory_start {t : PageTable.State ℕ} (h : Books firstFrames 0x1000 bootLedger t) :
    (system nextFrame firstFrames).start ⟨⟨t, 0x1000, ⟨0, 0⟩⟩, bootLedger⟩ :=
  ⟨h.tree, h.cr3, rfl, h.booked⟩

lemma reserve_eq {α : Type} {A : AllocatorOps α} {s : State α} {size : MemoryMap.Size}
    {addr : VirtAddr} {finder : Finder} {w : Bool} {table : PageTable.State α}
    (halloc : alloc s.pml4 s.table size.bytes size.pageSize s.finder = .ok (some addr, finder))
    (hlist : setList A s.pml4 addr (reservedEntry size.pageSize) size 3 s.table = .ok (w, table)) :
    reserve A size s = .ok (some addr, { s with finder, table }) := by
  simp only [reserve, halloc, hlist, bind, Except.bind, pure, Except.pure]

lemma first_reserve {t₀ t₁ : PageTable.State ℕ} (hboot : Books firstFrames 0x1000 bootLedger t₀)
    (hfind : t₀.find (index 0) = (2, 0x183))
    (hlist : setList nextFrame 0x1000 0x200000 0x1000 ⟨0x1000, 1⟩ 3 t₀ = .ok (false, t₁)) :
    reserve nextFrame ⟨0x1000, 1⟩ ⟨t₀, 0x1000, ⟨0, 0⟩⟩ =
      .ok (some 0x200000, ⟨t₁, 0x1000, ⟨0x201000, 0x7fffdff000⟩⟩) := by
  have hscan := rescan_of_first_page hboot hfind (fun x hx => boot_rest hboot hx)
    (f := ⟨0, 0⟩) (by decide)
  have halloc : alloc 0x1000 t₀ 0x1000 0x1000 ⟨0, 0⟩ =
      .ok (some 0x200000, ⟨0x201000, 0x7fffdff000⟩) :=
    alloc_of_search (by decide) hscan (by decide) (by decide)
  exact reserve_eq halloc hlist

/-- A request that no range can hold fails, but leaves the candidate at the reserved page. -/
lemma large_reserve {t : PageTable.State ℕ} {L : Ledger} (hbooks : Books firstFrames 0x1000 L t)
    (hfind : t.find (index 0) = (2, 0x183))
    (hrest : ∀ x ∈ kernelAddresses, 0x200000 ≤ x.toNat → t.leaf (index x) = none) :
    reserve nextFrame ⟨0x40000000, 513⟩ ⟨t, 0x1000, ⟨0x201000, 0x7fffdff000⟩⟩ =
      .ok (none, ⟨t, 0x1000, ⟨0x200000, 0x7fffe00000⟩⟩) := by
  have hscan := rescan_of_first_page hbooks hfind hrest (f := ⟨0x201000, 0x7fffdff000⟩)
    (by decide)
  have halloc : alloc 0x1000 t (MemoryMap.Size.bytes ⟨0x40000000, 513⟩) 0x40000000
      ⟨0x201000, 0x7fffdff000⟩ = .ok (none, ⟨0x200000, 0x7fffe00000⟩) := by
    rw [alloc, show Finder.canAllocate ⟨0x201000, 0x7fffdff000⟩
      (MemoryMap.Size.bytes ⟨0x40000000, 513⟩) 0x40000000 = .ok false by decide]
    simp only [bind, Except.bind]
    rw [if_neg (by decide), hscan]
    rfl
  simp only [reserve, halloc, bind, Except.bind, pure, Except.pure]

lemma second_reserve {t₁ t₂ : PageTable.State ℕ}
    (hlist : setList nextFrame 0x1000 0x200000 0x1000 ⟨0x1000, 1⟩ 3 t₁ = .ok (true, t₂)) :
    reserve nextFrame ⟨0x1000, 1⟩ ⟨t₁, 0x1000, ⟨0x200000, 0x7fffe00000⟩⟩ =
      .ok (some 0x200000, ⟨t₂, 0x1000, ⟨0x201000, 0x7fffdff000⟩⟩) := by
  have halloc : alloc 0x1000 t₁ 0x1000 0x1000 ⟨0x200000, 0x7fffe00000⟩ =
      .ok (some 0x200000, ⟨0x201000, 0x7fffdff000⟩) := alloc_of_room (by decide) (by decide)
  exact reserve_eq halloc hlist

/-- The page behind the kernel, reserved from a fresh map. -/
theorem safe_run_reserves_first_page :
    ∃ H s, (system nextFrame firstFrames).start H ∧
      reserve nextFrame ⟨0x1000, 1⟩ H.map = .ok (some 0x200000, s) ∧
      H.ledger 0 = some 0x200000 ∧ Free H.ledger 0x200000 ⟨0x1000, 1⟩ := by
  obtain ⟨t₀, t₁, -, h₀, h₁, -, hfind, -⟩ := firstRun_tables
  have hboot := boot_books h₀
  have hok := first_reserve hboot hfind h₁
  have hsafe : AllocSafe ⟨t₀, 0x1000, ⟨0, 0⟩⟩ ⟨0x1000, 1⟩ 0x1000 :=
    ⟨by decide, fun _ => boot_noSmallReserved hboot hfind, fun h => absurd h (by decide)⟩
  have hrun := safe_run_never_double_books nextFrame_contract
    (.start (bootHistory_start hboot))
  exact ⟨_, _, bootHistory_start hboot, hok, rfl, hrun.2.2 _ _ _ hsafe hok⟩

/-- A 4 KiB page is reserved, a request fails after a rescan, and the page is reserved again. -/
theorem reserved_page_is_handed_out_again :
    ∃ H s, (system nextFrame firstFrames).Reachable H ∧ H.ledger 0x200000 = some 0x1000 ∧
      reserve nextFrame ⟨0x1000, 1⟩ H.map = .ok (some 0x200000, s) ∧
      ¬ NoDoubleBooking nextFrame (fun _ _ => True) H := by
  obtain ⟨t₀, t₁, t₂, h₀, h₁, h₂, hfind₀, hfind₁, hfind₂⟩ := firstRun_tables
  have hboot := boot_books h₀
  have hnew : ∀ x ∈ addresses 0x200000 0x1000, bootLedger x = none := fun x hx =>
    overwrite_of_notMem fun h => absurd (hx.1.trans_lt h.2) (lt_irrefl _)
  have hbooked : Booked firstFrames bootLedger ⟨t₀, 0x1000, ⟨0, 0⟩⟩ :=
    ⟨hboot, Finder.empty_within 0 (Nat.zero_le _)⟩
  have honce : Books firstFrames 0x1000 (overwrite 0x200000 0x1000 (some 0x1000) bootLedger) t₁ :=
    hbooked.reserveList nextFrame_contract
      (show _ + MemoryMap.Size.span ⟨0x1000, 1⟩ ≤ _ by decide)
      (fun x hx => .inl (hnew x hx)) h₁
  have hfirst := first_reserve hboot hfind₀ h₁
  have hlarge := large_reserve honce hfind₁ fun x hx => once_rest honce hfind₂ hx
  have hagain := second_reserve h₂
  let S := system nextFrame firstFrames
  let L := overwrite 0x200000 0x1000 (some 0x1000) bootLedger
  have hstep₁ : S.step ⟨⟨t₀, 0x1000, ⟨0, 0⟩⟩, bootLedger⟩ (.reserve ⟨0x1000, 1⟩)
      ⟨⟨t₁, 0x1000, ⟨0x201000, 0x7fffdff000⟩⟩, L⟩ := ⟨trivial, _, hfirst, rfl⟩
  have hstep₂ : S.step ⟨⟨t₁, 0x1000, ⟨0x201000, 0x7fffdff000⟩⟩, L⟩ (.reserve ⟨0x40000000, 513⟩)
      ⟨⟨t₁, 0x1000, ⟨0x200000, 0x7fffe00000⟩⟩, L⟩ := ⟨trivial, _, hlarge, rfl⟩
  have hreach : S.Reachable ⟨⟨t₁, 0x1000, ⟨0x200000, 0x7fffe00000⟩⟩, L⟩ :=
    ((System.Reachable.start (bootHistory_start hboot)).next hstep₁).next hstep₂
  have hheld : L 0x200000 = some 0x1000 := overwrite_of_mem ⟨le_rfl, by decide⟩
  refine ⟨_, _, hreach, hheld, hagain, fun hno => ?_⟩
  have hfree := (hno.2 _ _ _ trivial hagain).2 0x200000
    (by decide : (0x200000 : VirtAddr) ∈ addresses 0x200000 0x1000)
  cases hheld.symm.trans hfree

end Anarch.GlobalMap
