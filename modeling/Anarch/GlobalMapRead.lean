import Anarch.GlobalMapCalls
import Anarch.PageTableFractal

/-! `Read` against the page walk of the processor. `Walk` looks at the huge bit of an entry
before the present bit, so a reserved large page reads as if it were mapped. -/
namespace Anarch.GlobalMap
open PageTable FreeFinder RadixTree TransitionRun

section
variable {α : Type}

/-- `Read` returns, and returns true if and only if the address is mapped. -/
def ReadsExactly (s : State α) (x : VirtAddr) : Prop :=
  ∃ r, read x s = .ok r ∧
    (r.isSome = true ↔ (PageTable.translate s.table.mem s.table.cr3 x).isSome = true)

/-- The entry of the page directory for an address reserves a large page. -/
def InLargeReserved (s : State α) (x : VirtAddr) : Prop :=
  (s.table.find (index x)).1 = 2 ∧ isHuge (s.table.find (index x)).2 = true ∧
    isPresent (s.table.find (index x)).2 = false

end

/-- The calls that reserve only reserve small pages. -/
def ReservesSmall : Call → Prop
  | .unmapAndReserve _ size => size.pageSize = 0x1000
  | .reserve size => size.pageSize = 0x1000
  | .reserveAt _ size => size.pageSize = 0x1000
  | .rereserve _ _ newPageSize => newPageSize = 0x1000
  | _ => True

/-- Nothing, a small page that is mapped or reserved, or a large page. -/
def Shaped (found : ℕ × Word) : Prop :=
  found.2 = 0 ∨ found.1 = 3 ∧ (isPresent found.2 = true ∨ isHuge found.2 = false) ∨
    found.1 = 2 ∧ isHuge found.2 = true

/-- The same with mapped large pages only. -/
def ShapedSmall (found : ℕ × Word) : Prop :=
  found.2 = 0 ∨ found.1 = 3 ∧ (isPresent found.2 = true ∨ isHuge found.2 = false) ∨
    found.1 = 2 ∧ isHuge found.2 = true ∧ isPresent found.2 = true

section
variable {α : Type} {A : AllocatorOps α} {used : α → Set Frame} {s : State α}
variable {r : Option VirtAddr} {c : Call} {x : VirtAddr}

lemma translate_isSome {t : PageTable.State α} (hc : canonical x = true) :
    (PageTable.translate t.mem t.cr3 x).isSome = true ↔
      0 < (t.find (index x)).1 ∧ isPresent (t.find (index x)).2 = true := by
  rw [translate_eq_find hc]
  by_cases h : 0 < (t.find (index x)).1 ∧ isPresent (t.find (index x)).2 = true
  · rw [if_pos h]
    exact iff_of_true rfl h
  · rw [if_neg h]
    exact iff_of_false Bool.false_ne_true h

lemma read_eq (hself : link (s.table.mem s.table.root 0x1ff) = some s.table.root)
    (hcr3 : s.table.cr3 = s.pml4) (hshape : Shaped (s.table.find (index x))) :
    ∃ r, read x s = .ok r ∧ (r.isSome = true ↔
      isHuge (s.table.find (index x)).2 = true ∨
        (s.table.find (index x)).1 = 3 ∧ isPresent (s.table.find (index x)).2 = true) := by
  have hset : isSet s.pml4 s.table = true := by simp [isSet, hcr3]
  have hwalk := walk_eq hself hcr3 x
  generalize s.table.find (index x) = found at *
  by_cases hleaf : isHuge found.2 = true ∨ found.1 = 3 ∧ isPresent found.2 = true
  · have hentry : found.2 ≠ 0 := by
      intro hzero
      rw [hzero] at hleaf
      rcases hleaf with h | ⟨-, h⟩ <;> cases h
    have hdepth : 2 ≤ found.1 := by
      rcases hshape with h | ⟨h, -⟩ | ⟨h, -⟩
      · exact absurd h hentry
      · omega
      · omega
    have hread : (read x s).toOption.map Option.isSome = some true := by
      simp only [read, PageTable.read, hset, assertThat, if_true, hwalk, bind, Except.bind,
        walkResult, if_pos hleaf, decide_eq_true hentry, decide_eq_true hdepth]
      rfl
    obtain ⟨r, hr, hsome⟩ := exists_ok_of_map hread
    exact ⟨r, hr, iff_of_true hsome hleaf⟩
  · refine ⟨none, ?_, by simp [hleaf]⟩
    simp only [read, PageTable.read, hset, assertThat, if_true, hwalk, bind, Except.bind,
      walkResult, hleaf, if_false, pure, Except.pure]

/-- Only for a reserved large page does `Read` differ from the processor. -/
lemma Sound.readsExactly_iff (h : Sound used Shaped s) (hx : x ∈ kernelAddresses) :
    ReadsExactly s x ↔ ¬ InLargeReserved s x := by
  have hshape := h.entries.entry x hx
  obtain ⟨r, hr, hsome⟩ := read_eq h.entries.tree.self h.entries.cr3 hshape
  have hexact : ReadsExactly s x ↔
      (r.isSome = true ↔ (PageTable.translate s.table.mem s.table.cr3 x).isSome = true) := by
    constructor
    · rintro ⟨r', hr', hiff⟩
      obtain rfl := Except.ok.inj (hr.symm.trans hr')
      exact hiff
    · exact fun hiff => ⟨r, hr, hiff⟩
  have hlt : x.toNat < 2 ^ 39 := hx
  rw [hexact, hsome, translate_isSome (canonical_of_lt (by omega)), InLargeReserved]
  rcases hshape with hzero | ⟨hdepth, hsmall⟩ | ⟨hdepth, hlarge⟩
  · simp [hzero, isHuge, isPresent]
  · rcases hsmall with hp | hh
    · simp [hdepth, hp]
    · simp [hdepth, hh]
  · simp [hdepth, hlarge]

lemma isHuge_reservedEntry_small : isHuge (reservedEntry 0x1000) = false := by decide

lemma sets_small {range : SetRange} (h : range ∈ c.sets r) (hsmall : range.size.pageSize = 0x1000) :
    isPresent range.entry = true ∨ isHuge range.entry = false := by
  cases c with
  | map phys size attributes =>
    obtain ⟨addr, -, rfl⟩ := Option.map_eq_some_iff.mp h
    exact .inl isPresent_calcMask
  | mapAt addr phys size attributes =>
    obtain rfl := Option.some.inj h
    exact .inl isPresent_calcMask
  | reserve size =>
    obtain ⟨addr, -, rfl⟩ := Option.map_eq_some_iff.mp h
    exact .inr (hsmall ▸ isHuge_reservedEntry_small)
  | unmapAndReserve addr size | reserveAt addr size =>
    obtain rfl := Option.some.inj h
    exact .inr (hsmall ▸ isHuge_reservedEntry_small)
  | rereserve addr size newPageSize =>
    obtain rfl := Option.some.inj h
    obtain rfl : newPageSize = 0x1000 := hsmall
    exact .inr isHuge_reservedEntry_small
  | unmap addr size | unreserve addr size => cases h

lemma sets_large_present (hc : ReservesSmall c) {range : SetRange} (h : range ∈ c.sets r)
    (hlarge : range.size.pageSize ≠ 0x1000) : isPresent range.entry = true := by
  cases c with
  | map phys size attributes =>
    obtain ⟨addr, -, rfl⟩ := Option.map_eq_some_iff.mp h
    exact isPresent_calcMask
  | mapAt addr phys size attributes =>
    obtain rfl := Option.some.inj h
    exact isPresent_calcMask
  | reserve size =>
    obtain ⟨addr, -, rfl⟩ := Option.map_eq_some_iff.mp h
    exact absurd hc hlarge
  | unmapAndReserve addr size | reserveAt addr size | rereserve addr size newPageSize =>
    obtain rfl := Option.some.inj h
    exact absurd hc hlarge
  | unmap addr size | unreserve addr size => cases h

lemma Proper.setsOnly_shaped (h : Proper s c) (r : Option VirtAddr) : SetsOnly Shaped r c := by
  intro range hrange k d hd
  obtain ⟨hmod, -⟩ := calcDepth_eq_ok hd
  rcases (h.pageSize hrange).calcDepth hd with ⟨hsmall, rfl⟩ | ⟨hlarge, rfl⟩
  · refine .inr (.inl ⟨rfl, ?_⟩)
    rw [isPresent_pageAt _ hmod, isHuge_pageAt _ hmod]
    exact sets_small hrange hsmall
  · refine .inr (.inr ⟨rfl, (isHuge_pageAt _ hmod k).trans (sets_huge hrange ?_)⟩)
    rw [hlarge]
    decide

lemma Proper.setsOnly_shapedSmall (h : Proper s c) (hc : ReservesSmall c) (r : Option VirtAddr) :
    SetsOnly ShapedSmall r c := by
  intro range hrange k d hd
  obtain ⟨hmod, -⟩ := calcDepth_eq_ok hd
  rcases (h.pageSize hrange).calcDepth hd with ⟨hsmall, rfl⟩ | ⟨hlarge, rfl⟩
  · refine .inr (.inl ⟨rfl, ?_⟩)
    rw [isPresent_pageAt _ hmod, isHuge_pageAt _ hmod]
    exact sets_small hrange hsmall
  · have hne : range.size.pageSize ≠ 0x1000 := by
      rw [hlarge]
      decide
    exact .inr (.inr ⟨rfl, (isHuge_pageAt _ hmod k).trans (sets_huge hrange hne),
      (isPresent_pageAt _ hmod k).trans (sets_large_present hc hrange hne)⟩)

/-- In every reachable state `Read` is right about every address outside the reserved large
pages and wrong about the others. Runs that reserve small pages only read every address right. -/
theorem reads_exactly_iff (hA : FrameContract A used) :
    (∀ s, ((calls A).restrict Proper).Reachable s → ∀ x ∈ kernelAddresses,
      (ReadsExactly s x ↔ ¬ InLargeReserved s x)) ∧
    ∀ s, ((calls A).restrict fun s c => Proper s c ∧ ReservesSmall c).Reachable s →
      ∀ x ∈ kernelAddresses, ReadsExactly s x := by
  have hidentity : ∀ n, isHuge (MapSetup.identityEntry n) = true := fun n =>
    MapSetup.isHuge_identityEntry _
  have hpresent : ∀ n, isPresent (MapSetup.identityEntry n) = true := fun n => by
    rw [MapSetup.identityEntry, isPresent_eq, BitVec.getLsbD_or, Bool.or_eq_true]
    exact .inr rfl
  refine ⟨fun s hs x hx => ?_, fun s hs x hx => ?_⟩
  · have hsound : Sound used Shaped s := reachable_sound hA (fun _ => .inl rfl)
      (fun n => .inr (.inr ⟨rfl, hidentity n⟩)) (fun _ _ h => ⟨h, h.setsOnly_shaped⟩) hs
    exact hsound.readsExactly_iff hx
  · have hsmall : Sound used ShapedSmall s := reachable_sound hA (fun _ => .inl rfl)
      (fun n => .inr (.inr ⟨rfl, hidentity n, hpresent n⟩))
      (fun _ _ h => ⟨h.1, h.1.setsOnly_shapedSmall h.2⟩) hs
    have hsound : Sound used Shaped s :=
      ⟨⟨hsmall.entries.tree, hsmall.entries.cr3, fun x hx =>
        (hsmall.entries.entry x hx).imp_right (.imp_right fun h => ⟨h.1, h.2.1⟩)⟩, hsmall.finder⟩
    refine (hsound.readsExactly_iff hx).mpr ?_
    rintro ⟨hdepth, hh, hp⟩
    rcases hsmall.entries.entry x hx with hzero | ⟨h3, -⟩ | ⟨-, -, hp'⟩
    · rw [hzero] at hh
      cases hh
    · rw [hdepth] at h3
      cases h3
    · rw [hp] at hp'
      cases hp'

end

/-- A small page mapped behind the kernel, and the next one reserved. -/
def firstSmall : Outcome (State ℕ) := do
  let setup ← MapSetup.generateMap nextFrame 0x1000 (fun _ _ => 0) 1
  let mapped ← mapAt nextFrame 0x200000 0x5000 ⟨0x1000, 1⟩ {} ⟨setup.table, setup.pml4, ⟨0, 0⟩⟩
  reserveAt nextFrame 0x201000 ⟨0x1000, 1⟩ mapped

/-- A large page reserved behind the kernel. -/
def firstLarge : Outcome (State ℕ) := do
  let setup ← MapSetup.generateMap nextFrame 0x1000 (fun _ _ => 0) 1
  reserveAt nextFrame 0x200000 ⟨0x200000, 1⟩ ⟨setup.table, setup.pml4, ⟨0, 0⟩⟩

/-- The mapped page, the reserved page and the free page behind them are read as they are. -/
theorem reads_exactly_iff_small_pages : ∃ s,
    ((calls nextFrame).restrict fun s c => Proper s c ∧ ReservesSmall c).Reachable s ∧
    ([0x200000, 0x201000, 0x202000].map fun x => (read x s).toOption.map Option.isSome) =
      [some true, some false, some false] ∧
    ∀ x ∈ kernelAddresses, ReadsExactly s x := by
  have hrun : firstSmall.toOption.map (fun s => [0x200000, 0x201000, 0x202000].map fun x =>
      (read x s).toOption.map Option.isSome) = some [some true, some false, some false] := by
    decide +kernel
  obtain ⟨s, hs, hreads⟩ := exists_ok_of_map hrun
  obtain ⟨setup, hsetup, hs⟩ := bind_eq_ok.mp hs
  obtain ⟨mapped, hmapped, hs⟩ := bind_eq_ok.mp hs
  have hstart : ((calls nextFrame).restrict fun s c => Proper s c ∧ ReservesSmall c).Reachable
      ⟨setup.table, setup.pml4, ⟨0, 0⟩⟩ := .start (firstSetup_start hsetup)
  have hmap := hstart.next (a := Call.mapAt 0x200000 0x5000 ⟨0x1000, 1⟩ {})
    ⟨⟨⟨.inl rfl, by decide⟩, trivial⟩, none, bind_eq_ok.mpr ⟨mapped, hmapped, rfl⟩⟩
  have hreach := hmap.next (a := Call.reserveAt 0x201000 ⟨0x1000, 1⟩)
    ⟨⟨⟨.inl rfl, by decide⟩, rfl⟩, none, bind_eq_ok.mpr ⟨s, hs, rfl⟩⟩
  exact ⟨s, hreach, hreads, (reads_exactly_iff nextFrame_contract).2 s hreach⟩

/-- A reserved large page reads as mapped. -/
theorem large_reserved_reads_as_mapped : ∃ s,
    ((calls nextFrame).restrict Proper).Reachable s ∧
    (read 0x200000 s).toOption.map Option.isSome = some true ∧
    PageTable.translate s.table.mem s.table.cr3 0x200000 = none ∧ ¬ ReadsExactly s 0x200000 := by
  have hrun : firstLarge.toOption.map (fun s => [(read 0x200000 s).toOption.map Option.isSome,
      some (PageTable.translate s.table.mem s.table.cr3 0x200000).isSome]) =
        some [some true, some false] := by decide +kernel
  obtain ⟨s, hs, hreads⟩ := exists_ok_of_map hrun
  obtain ⟨hread, htranslate⟩ := List.cons_eq_cons.mp hreads
  have hnone : (PageTable.translate s.table.mem s.table.cr3 0x200000).isSome = false :=
    Option.some.inj (List.cons_eq_cons.mp htranslate).1
  obtain ⟨setup, hsetup, hs⟩ := bind_eq_ok.mp hs
  have hstart : ((calls nextFrame).restrict Proper).Reachable
      ⟨setup.table, setup.pml4, ⟨0, 0⟩⟩ := .start (firstSetup_start hsetup)
  have hreach := hstart.next (a := Call.reserveAt 0x200000 ⟨0x200000, 1⟩)
    ⟨⟨.inr rfl, by decide⟩, none, bind_eq_ok.mpr ⟨s, hs, rfl⟩⟩
  refine ⟨s, hreach, hread, Option.isNone_iff_eq_none.mp (by simpa using hnone), ?_⟩
  rintro ⟨r, hr, hiff⟩
  rw [hr] at hread
  have hsome : r.isSome = true := Option.some.inj hread
  rw [hiff.mp hsome] at hnone
  cases hnone

end Anarch.GlobalMap
