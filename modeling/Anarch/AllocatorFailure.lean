import Anarch.AllocatorAttempts
import Anarch.SingleRangeMap

/-! When a failed `AllocAndMap`, or a failed attempt of one that succeeds, leaves the pages
of the map and the outstanding blocks of the allocator as they were. -/
namespace Anarch.AllocatorMapping
open MemoryMap

section
variable {α μ : Type} {A : AllocatorOps α} {M : MapOps μ} {pages : μ → VirtAddr → Option Page}
variable {memory : Set PhysAddr}
variable {β : Type} {outstanding : α → β} {size : Word}

/-- Pages and outstanding blocks are the same in both states. -/
def SameResources (pages : μ → VirtAddr → Option Page) (outstanding : α → β)
    (s t : Machine α μ) : Prop :=
  pages t.map = pages s.map ∧ outstanding t.alloc = outstanding s.alloc

variable (A M pages outstanding size) in
/-- A call that returns false leaves nothing behind, nor does the attempt with big pages
of a call that succeeds with small ones. -/
structure LeavesNothing (bigPages : Bool) (s : Machine α μ) : Prop where
  whole : ∀ t, allocAndMap A M size bigPages s = .ok (none, t) →
    SameResources pages outstanding s t
  bigAttempt : bigPages = true → ∀ res t, allocAndMap A M size true s = .ok (some res, t) →
    ∀ a s₁, attempt A M size 1 s = .ok (a, s₁) → a ≠ .done res →
    SameResources pages outstanding s s₁

variable (A M size) in
/-- The allocator has a block for every page of the first range that `Reserve` finds. -/
def FirstRangeServed : List (Fin 2) → Machine α μ → Prop
  | [], _ => True
  | i :: rest, s =>
      if skips size i then FirstRangeServed rest s
      else if (roundReserve M size i s.map).1 = none then
        FirstRangeServed rest { s with map := (roundReserve M size i s.map).2 }
      else Serves A size i s.alloc

lemma attempts_returns (size : Word) (hA : BlocksOf A memory) (hM : MapContract M pages memory)
    (order : List (Fin 2)) (s : Machine α μ) :
    ∃ r t, attempts A M size order s = .ok (r, t) ∧
      ∀ v, pages s.map v ≠ none → pages t.map v = pages s.map v := by
  induction order generalizing s with
  | nil => exact ⟨none, s, rfl, fun v _ => rfl⟩
  | cons i rest ih =>
    rcases attempt_cases hA hM size i s with ⟨-, h⟩ | ⟨-, -, h, hpages⟩ |
      ⟨-, res, -, -, s₁, h, hmapped⟩ | ⟨-, res, -, -, s₁, h, hleft⟩
    · obtain ⟨r, t, ht, hkeep⟩ := ih s
      exact ⟨r, t, by simpa [attempts, h, bind, Except.bind] using ht, hkeep⟩
    · obtain ⟨r, t, ht, hkeep⟩ := ih { s with map := (roundReserve M size i s.map).2 }
      refine ⟨r, t, by simpa [attempts, h, bind, Except.bind] using ht, fun v hv => ?_⟩
      rw [← hpages] at hv ⊢
      exact hkeep v hv
    · exact ⟨some res, s₁, by simp [attempts, h, bind, Except.bind, pure, Except.pure],
        hmapped.others⟩
    · obtain ⟨r, t, ht, hkeep⟩ := ih s₁
      refine ⟨r, t, by simpa [attempts, h, bind, Except.bind] using ht, fun v hv => ?_⟩
      have hsame := hleft.others v hv
      rw [← hsame] at hv
      exact (hkeep v hv).trans hsame

lemma attempts_none_of_served (hA : BlocksOf A memory) (hM : MapContract M pages memory) {order : List (Fin 2)}
    {s t : Machine α μ} (hsafe : FirstRangeServed A M size order s)
    (h : attempts A M size order s = .ok (none, t)) :
    pages t.map = pages s.map ∧ t.alloc = s.alloc := by
  induction order generalizing s with
  | nil =>
    simp only [attempts, Except.ok.injEq, Prod.mk.injEq, true_and] at h
    exact ⟨by rw [h], by rw [h]⟩
  | cons i rest ih =>
    rcases attempt_cases hA hM size i s with ⟨hskip, hr⟩ | ⟨hskip, hres, hr, hpages⟩ |
      ⟨-, res, -, -, s₁, hr, -⟩ | ⟨hskip, res, hres, hserve, -⟩
    · rw [FirstRangeServed, if_pos hskip] at hsafe
      simp only [attempts, hr, bind, Except.bind] at h
      exact ih hsafe h
    · rw [FirstRangeServed, if_neg (by simp [hskip]), if_pos hres] at hsafe
      simp only [attempts, hr, bind, Except.bind] at h
      obtain ⟨hmap, halloc⟩ := ih hsafe h
      exact ⟨hmap.trans hpages, halloc⟩
    · simp [attempts, hr, bind, Except.bind, pure, Except.pure] at h
    · rw [FirstRangeServed, if_neg (by simp [hskip]), if_neg (by simp [hres])] at hsafe
      exact absurd hsafe hserve

/-- A round without the memory for its range makes every failure visible: the page it
leaves reserved is still there when the whole loop fails. -/
lemma attempts_none_of_exhausted (hA : BlocksOf A memory) (hM : MapContract M pages memory)
    {i : Fin 2} {rest : List (Fin 2)}
    {s s₁ t : Machine α μ} {res : VirtAddr}
    (hr : attempt A M size i s = .ok (.exhausted, s₁))
    (hleft : Abandoned A pages size i s res s₁)
    (h : attempts A M size (i :: rest) s = .ok (none, t)) : pages t.map ≠ pages s.map := by
  obtain ⟨v, hfree, hheld⟩ := hleft.leftover
  simp only [attempts, hr, bind, Except.bind] at h
  obtain ⟨r, t', ht, hkeep⟩ := attempts_returns size hA hM rest s₁
  obtain ⟨rfl, rfl⟩ := Prod.mk.inj (Except.ok.inj (h.symm.trans ht))
  intro hsame
  have := hkeep v (by rw [hheld]; simp)
  rw [hsame, hfree, hheld] at this
  simp at this

lemma attempts_small_of_not_served (hA : BlocksOf A memory) (hM : MapContract M pages memory) {s : Machine α μ}
    (hbad : ¬ FirstRangeServed A M size [0] s) :
    ∃ t, attempts A M size [0] s = .ok (none, t) ∧ pages t.map ≠ pages s.map := by
  rcases attempt_cases hA hM size 0 s with ⟨hskip, -⟩ | ⟨hskip, hres, -⟩ |
    ⟨hskip, res, hres, hserve, -⟩ | ⟨-, res, -, -, s₁, hr, hleft⟩
  · simp [skips] at hskip
  · rw [FirstRangeServed, if_neg (by simp [hskip]), if_pos hres] at hbad
    exact absurd trivial hbad
  · rw [FirstRangeServed, if_neg (by simp [hskip]), if_neg (by simp [hres])] at hbad
    exact absurd hserve hbad
  · have h : attempts A M size [0] s = .ok (none, s₁) := by
      simp [attempts, hr, bind, Except.bind]
    exact ⟨s₁, h, attempts_none_of_exhausted hA hM hr hleft h⟩

/-- A failure leaves nothing behind exactly if the allocator had a block for every page of
the first range that was found. -/
theorem leavesNothing_iff (hA : BlocksOf A memory) (hM : MapContract M pages memory)
    (bigPages : Bool) (s : Machine α μ) :
    LeavesNothing A M pages outstanding size bigPages s ↔
      FirstRangeServed A M size (pageSizes bigPages) s := by
  constructor
  · rintro ⟨whole, bigAttempt⟩
    by_contra hbad
    cases bigPages with
    | false =>
      obtain ⟨t, ht, hne⟩ := attempts_small_of_not_served hA hM hbad
      exact hne (whole t ht).1
    | true =>
      have hlist : pageSizes true = [1, 0] := rfl
      rw [hlist] at hbad
      rcases attempt_cases hA hM size 1 s with ⟨hskip, hr⟩ | ⟨hskip, hres, hr, hpages⟩ |
        ⟨hskip, res, hres, hserve, -⟩ | ⟨-, res, -, -, s₁, hr, hleft⟩
      · rw [FirstRangeServed, if_pos hskip] at hbad
        obtain ⟨t, ht, hne⟩ := attempts_small_of_not_served hA hM hbad
        refine hne (whole t ?_).1
        simpa [allocAndMap, getCapabilities, hlist, attempts, hr, bind, Except.bind] using ht
      · rw [FirstRangeServed, if_neg (by simp [hskip]), if_pos hres] at hbad
        obtain ⟨t, ht, hne⟩ := attempts_small_of_not_served hA hM hbad
        refine hne ((whole t ?_).1.trans hpages.symm)
        simpa [allocAndMap, getCapabilities, hlist, attempts, hr, bind, Except.bind] using ht
      · rw [FirstRangeServed, if_neg (by simp [hskip]), if_neg (by simp [hres])] at hbad
        exact hbad hserve
      · obtain ⟨r, t, ht, -⟩ := attempts_returns size hA hM [1, 0] s
        have hcall : allocAndMap A M size true s = .ok (r, t) := ht
        cases r with
        | none => exact attempts_none_of_exhausted hA hM hr hleft ht (whole t hcall).1
        | some res' =>
          obtain ⟨v, hfree, hheld⟩ := hleft.leftover
          have hsame := (bigAttempt rfl res' t hcall _ _ hr (by simp)).1
          rw [hsame, hfree] at hheld
          simp at hheld
  · intro hsafe
    refine ⟨fun t ht => ?_, ?_⟩
    · obtain ⟨hmap, halloc⟩ := attempts_none_of_served hA hM hsafe ht
      exact ⟨hmap, by rw [halloc]⟩
    · rintro rfl res t hcall a s₁ hr hne
      have hcall : attempts A M size [1, 0] s = .ok (some res, t) := hcall
      rcases attempt_cases hA hM size 1 s with ⟨-, h⟩ | ⟨-, -, h, hpages⟩ |
        ⟨-, res', -, -, s', h, -⟩ | ⟨hskip, res', hres, hserve, -⟩
      · obtain ⟨rfl, rfl⟩ := Prod.mk.inj (Except.ok.inj (h.symm.trans hr))
        exact ⟨rfl, rfl⟩
      · obtain ⟨rfl, rfl⟩ := Prod.mk.inj (Except.ok.inj (h.symm.trans hr))
        exact ⟨hpages, rfl⟩
      · simp only [attempts, h, bind, Except.bind, pure, Except.pure, Except.ok.injEq,
          Prod.mk.injEq, Option.some.injEq] at hcall
        obtain ⟨rfl, rfl⟩ := Prod.mk.inj (Except.ok.inj (h.symm.trans hr))
        exact absurd (congrArg _ hcall.1) hne
      · have hsafe : FirstRangeServed A M size [1, 0] s := hsafe
        rw [FirstRangeServed, if_neg (by simp [hskip]), if_neg (by simp [hres])] at hsafe
        exact absurd hsafe hserve

end

/-- One frame for a page: the call succeeds, so nothing has to be undone. -/
theorem one_frame_leaves_nothing :
    LeavesNothing frameStack SingleRange.mapOps SingleRange.pages id 0x1000 false
      ⟨[0x5000], [], []⟩ :=
  (leavesNothing_iff frameStack_blocks SingleRange.meets false _).mpr
    (show Serves frameStack 0x1000 0 [0x5000] by decide)

/-- No frame at all: the call fails, and the page it reserved stays reserved. -/
theorem failed_call_keeps_reservation :
    ¬ LeavesNothing frameStack SingleRange.mapOps SingleRange.pages id 0x1000 false
      ⟨[], [], []⟩ := by
  intro h
  have hfail : allocAndMap frameStack SingleRange.mapOps 0x1000 false ⟨[], [], []⟩ =
      .ok (none, ⟨[], [(SingleRange.base, 0x1000, none)], []⟩) := rfl
  have := congrFun (h.whole _ hfail).1 SingleRange.base
  revert this
  decide

end Anarch.AllocatorMapping
