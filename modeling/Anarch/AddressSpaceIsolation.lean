import Anarch.AddressSpaces
import Anarch.PageTableFractal

/-! A map changes by calls on it only: not by calls on other maps, by the construction of maps or
by other code. -/
namespace Anarch.AddressSpaces
open PageTable RadixTree TransitionRun

variable {α : Type}

/-- The kernel map, or a user map by its number. -/
abbrev MapId := Option ℕ

def Machine.pml4Of (m : Machine α) : MapId → Option PhysAddr
  | none => some m.pml4
  | some i => (m.users[i]?).map Space.pml4

/-- The slots of the PML4 that are the map's own. -/
def MapId.slots : MapId → Set Index
  | none => {0}
  | some _ => userSlots

/-- The map that a call is on. -/
def Action.on : Action α → Option MapId
  | .kernel _ => some none
  | .user i _ => some (some i)
  | .construct | .others _ _ => none

variable {A : AllocatorOps α} {used : α → Set Frame} {p : Frame} {m m' : Machine α}
variable {k : MapId} {q : PhysAddr} {x : VirtAddr}

lemma isMap_of_pml4Of (hq : m.pml4Of k = some q) : m.IsMap q k.slots := by
  cases k with
  | none => exact .inl ⟨(Option.some.inj hq).symm, rfl⟩
  | some i =>
    obtain ⟨u, hu, rfl⟩ := Option.map_eq_some_iff.mp hq
    exact isMap_user (List.mem_of_getElem? hu)

lemma translate_of_same {s t : PageTable.State α} {I : Set Index}
    (hsame : ∀ f ∈ (s.under q).frames I, t.mem f = s.mem f) (hx : index x 0 ∈ I) :
    PageTable.translate t.mem q x = PageTable.translate s.mem q x := by
  by_cases hc : canonical x = true
  · have hs := translate_eq_find (t := s.under q) hc
    have ht := translate_eq_find (t := t.under q) hc
    have hfind : (t.under q).find (index x) = (s.under q).find (index x) :=
      find_of_same (t := t.under q) hsame rfl hx
    rw [hfind, ← hs] at ht
    exact ht
  · simp [PageTable.translate, hc]

/-- No PML4 belongs to two user maps. -/
def Distinct (m : Machine α) : Prop := (m.users.map Space.pml4).Nodup

lemma Distinct.index_eq (hd : Distinct m) {i j : ℕ} {u v : Space} (hu : m.users[i]? = some u)
    (hv : m.users[j]? = some v) (he : u.pml4 = v.pml4) : i = j := by
  have hi : i < (m.users.map Space.pml4).length := by
    simpa using (List.getElem?_eq_some_iff.mp hu).1
  refine (List.getElem?_inj hi hd).mp ?_
  simp [hu, hv, he]

/-- The map is as it was. -/
structure Unchanged (k : MapId) (q : PhysAddr) (m m' : Machine α) : Prop where
  pml4 : m'.pml4Of k = some q
  frames : ∀ f ∈ (m.table.under q).frames k.slots, m'.table.mem f = m.table.mem f

/-- A call on one map writes no frame of another. -/
lemma Sound.frames_unchanged {q' : PhysAddr} {I J : Set Index} {t : PageTable.State α}
    (h : Sound used p m) (hq' : m.IsMap q' J) (hq : m.IsMap q I) (hne : (q', J) ≠ (q, I))
    (hconfined : Confined used J (m.table.under q') t) :
    ∀ f ∈ (m.table.under q).frames I, t.mem f = m.table.mem f := fun f hf =>
  (hconfined.other_frames (p := q) (h.trees hq) (h.apart hq' hq hne) f hf).1

section
variable (hA : FrameContract A used) (h : Sound used p m)
include hA h

lemma construct_unchanged (hs : (system A used).step m .construct m') (hq : m.pml4Of k = some q) :
    Unchanged k q m m' := by
  obtain ⟨new, hnew, rfl⟩ := hs
  obtain ⟨g, hg, -, hmem, -⟩ := construct_spec hA hnew
  refine ⟨?_, fun f hf => ?_⟩
  · cases k with
    | none => exact hq
    | some i =>
      obtain ⟨u, hu, rfl⟩ := Option.map_eq_some_iff.mp hq
      have hi : i < m.users.length := (List.getElem?_eq_some_iff.mp hu).1
      simp [Machine.pml4Of, List.getElem?_append_left hi, hu]
  · have hne : f ≠ g := fun he => hg (he ▸ (h.trees (isMap_of_pml4Of hq)).frames_used hf)
    simp [hmem, hne]

lemma construct_distinct (hs : (system A used).step m .construct m') (hd : Distinct m) :
    Distinct m' := by
  obtain ⟨new, hnew, rfl⟩ := hs
  obtain ⟨g, hg, hpml4, -⟩ := construct_spec hA hnew
  have hfresh : new.pml4 ∉ m.users.map Space.pml4 := by
    intro hmem
    obtain ⟨u, hu, he⟩ := List.mem_map.mp hmem
    have hroot : frameOf u.pml4 = g := by rw [he, hpml4, frameOf_frameAddr]
    exact hg (hroot ▸ (h.trees (isMap_user hu)).rootUsed)
  simpa [Distinct] using hd.concat hfresh

lemma user_unchanged {i : ℕ} {c : UserMap.Call} (hs : (system A used).step m (.user i c) m')
    (hd : Distinct m) : Distinct m' ∧
      (m.pml4Of k = some q → k ≠ some i → Unchanged k q m m') := by
  obtain ⟨u, t, hu, hrange, hok, rfl⟩ := hs
  have hmem : u ∈ m.users := List.mem_of_getElem? hu
  have hp : p ∈ used m.table.alloc := (h.trees (isMap_kernel m)).frames_used h.pdpt_kernel
  obtain ⟨hpml4, -, hconfined, -⟩ := user_kept (s := m.userMap u) hA (h.trees (isMap_user hmem)) rfl
    hp (h.pdpt_not_user hmem) hrange hok
  constructor
  · have hsame : (m.users.map Space.pml4).set i t.pml4 = m.users.map Space.pml4 := by
      apply List.ext_getElem?
      intro j
      rw [List.getElem?_set]
      split_ifs with hij hlt
      · subst hij
        simpa [hu] using hpml4.trans (show (m.userMap u).pml4 = u.pml4 from rfl)
      · subst hij
        simpa using hlt
      · rfl
    simpa [Distinct, List.map_set, hsame] using hd
  · intro hq hk
    have hne : (u.pml4, userSlots) ≠ (q, k.slots) := by
      cases k with
      | none => exact user_ne_kernel
      | some j =>
        obtain ⟨v, hv, rfl⟩ := Option.map_eq_some_iff.mp hq
        exact fun he => hk (congrArg some (hd.index_eq hu hv (Prod.mk.inj he).1).symm)
    refine ⟨?_, h.frames_unchanged (isMap_user hmem) (isMap_of_pml4Of hq) hne hconfined⟩
    cases k with
    | none => exact hq
    | some j =>
      have hij : i ≠ j := fun he => hk (congrArg some he.symm)
      simpa [Machine.pml4Of, List.getElem?_set_ne hij] using hq

lemma kernel_unchanged {c : GlobalMap.Call} (hs : (system A used).step m (.kernel c) m')
    (hq : m.pml4Of k = some q) (hk : k ≠ none) : Unchanged k q m m' := by
  obtain ⟨r, t, hok, hrange, rfl⟩ := hs
  obtain ⟨-, hkept⟩ := kernel_kept hA h.kernelHalf rfl
    (fun range hr => (hrange range hr).pastFirst h.identityEnd) hok
  cases k with
  | none => exact absurd rfl hk
  | some j =>
    exact ⟨hq, h.frames_unchanged (isMap_kernel m) (isMap_of_pml4Of hq) user_ne_kernel.symm
      hkept.2.1⟩

lemma step_unchanged {a : Action α} (hs : (system A used).step m a m') (hd : Distinct m)
    (hq : m.pml4Of k = some q) (ha : a.on ≠ some k) : Unchanged k q m m' := by
  cases a with
  | construct => exact construct_unchanged hA h hs hq
  | user i c =>
    exact (user_unchanged hA h hs hd).2 hq fun he => ha (congrArg some he.symm)
  | kernel c => exact kernel_unchanged hA h hs hq fun he => ha (congrArg some he.symm)
  | others mem alloc =>
    obtain ⟨hsame, rfl⟩ := hs
    exact ⟨hq, fun f hf => (hsame q k.slots (isMap_of_pml4Of hq) f hf).1⟩

lemma step_distinct {a : Action α} (hs : (system A used).step m a m') (hd : Distinct m) :
    Distinct m' := by
  cases a with
  | construct => exact construct_distinct hA h hs hd
  | user i c => exact (user_unchanged (k := none) (q := m.pml4) hA h hs hd).1
  | kernel c =>
    obtain ⟨r, t, -, -, rfl⟩ := hs
    exact hd
  | others mem alloc =>
    obtain ⟨-, rfl⟩ := hs
    exact hd

end

lemma reachable_distinct (hA : FrameContract A used) (h : (system A used).Reachable m) :
    Distinct m := by
  refine h.invariant (fun m hs => ?_) fun m a m' hr hd hs => ?_
  · obtain ⟨reservedEnd, mem, x, setup, -, -, -, rfl⟩ := hs
    exact List.nodup_nil
  · obtain ⟨p, hp⟩ := reachable_sound hA hr
    exact step_distinct hA hp hs hd

/-- Over any run without calls on a map, the map translates its own addresses as it did: a user map
those of the user half, the kernel map those of the kernel half. -/
theorem isolated (hA : FrameContract A used) (h : (system A used).Reachable m)
    (hq : m.pml4Of k = some q) (hx : index x 0 ∈ k.slots)
    (h' : (((system A used).restrict fun _ a => a.on ≠ some k).after m).Reachable m') :
    m'.pml4Of k = some q ∧
      PageTable.translate m'.table.mem q x = PageTable.translate m.table.mem q x := by
  refine (h'.invariant (P := fun m' => (system A used).Reachable m' ∧ m'.pml4Of k = some q ∧
    PageTable.translate m'.table.mem q x = PageTable.translate m.table.mem q x) ?_ ?_).2
  · rintro _ rfl
    exact ⟨h, hq, rfl⟩
  · intro s a t _ ⟨hr, hqs, hsame⟩ ⟨ha, hs⟩
    obtain ⟨p, hp⟩ := reachable_sound hA hr
    have hunchanged := step_unchanged hA hp hs (reachable_distinct hA hr) hqs ha
    exact ⟨hr.next hs, hunchanged.pml4, (translate_of_same hunchanged.frames hx).trans hsame⟩

/-- The machine with one user page, and a second user map with another page in its place. -/
def secondMap : Outcome (Machine ℕ × Machine ℕ) := do
  let m ← firstPages
  let new ← UserMap.construct nextFrame m.pdpt m.table
  let user ← UserMap.mapAt nextFrame 0x8000000000 0x7000 ⟨0x1000, 1⟩ {}
    ⟨new.table.under new.pml4, new.pml4, new.freeList⟩
  return (m, { m with
    table := user.table
    users := (m.users ++ [(⟨new.pml4, new.freeList⟩ : Space)]).set 1 ⟨user.pml4, user.freeList⟩ })

/-- The second map has another PML4 and another page there, and the page of the first map stays
where it was. -/
theorem isolated_second_map : ∃ m m' : Machine ℕ, secondMap = .ok (m, m') ∧
    m'.users.map Space.pml4 = [0x4000, 0x9000] ∧
    PageTable.translate m'.table.mem 0x9000 0x8000000000 = some (7, 0) ∧
    PageTable.translate m'.table.mem 0x4000 0x8000000000 = some (5, 0) := by
  have hmaps : ∃ r, secondMap = .ok r ∧ (r.1.users.map Space.pml4, r.2.users.map Space.pml4,
      [PageTable.translate r.2.table.mem 0x9000 0x8000000000,
        PageTable.translate r.1.table.mem 0x4000 0x8000000000]) =
      ([0x4000], [0x4000, 0x9000], [some (7, 0), some (5, 0)]) :=
    exists_ok_of_map (by decide +kernel)
  obtain ⟨⟨m, m'⟩, hok, hmaps⟩ := hmaps
  simp only [Prod.mk.injEq, List.cons.injEq] at hmaps
  obtain ⟨m₀, hfirst, hrest⟩ := bind_eq_ok.mp hok
  obtain ⟨new, hnew, hrest⟩ := bind_eq_ok.mp hrest
  obtain ⟨user, huser, hrest⟩ := bind_eq_ok.mp hrest
  obtain ⟨rfl, rfl⟩ := Prod.mk.inj (Except.ok.inj hrest)
  have hq : m₀.pml4Of (some 0) = some 0x4000 := by
    rw [Machine.pml4Of, ← List.getElem?_map, hmaps.1]
    rfl
  have hsecond : (m₀.users ++ [(⟨new.pml4, new.freeList⟩ : Space)])[1]? =
      some ⟨new.pml4, new.freeList⟩ := by
    have hlen : m₀.users.length = 1 := by simpa using congrArg List.length hmaps.1
    rw [List.getElem?_append_right hlen.le, hlen]
    rfl
  have hstart : (((system nextFrame firstFrames).restrict fun _ a => a.on ≠ some (some 0)).after
      m₀).Reachable m₀ := .start rfl
  have hsame := isolated nextFrame_contract (firstPages_reachable hfirst) hq
    (show index 0x8000000000 0 ∈ userSlots from ⟨by decide, by decide⟩)
    ((hstart.next (a := Action.construct) ⟨nofun, new, hnew, rfl⟩).next
      (a := Action.user 1 (.mapAt 0x8000000000 0x7000 ⟨0x1000, 1⟩ {})) ⟨by simp [Action.on], _, user, hsecond,
        by rintro _ ⟨⟩; exact firstPage_user, huser, rfl⟩)
  exact ⟨_, _, hok, hmaps.2.1, hmaps.2.2.1, hsame.2.trans hmaps.2.2.2.1⟩

end Anarch.AddressSpaces
