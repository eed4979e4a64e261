import Anarch.AllocatorTrace
import Anarch.PageTableView
import Anarch.RadixCollect

/-! Who owns the frames of the tables: what was obtained and not yet freed are the tables and
the PML4, and no table is empty but the one that a call is working on. -/
namespace Anarch.PageTable
open RadixTree

lemma frameAddr_injective : Function.Injective frameAddr :=
  Function.LeftInverse.injective frameOf_frameAddr

lemma ne_zero_of_present {e : Word} (h : isPresent e = true) : e ≠ 0 := by
  rintro rfl
  cases h

section
variable {α : Type}

/-- The frames held are the PML4 and the tables of the slots, each once, and only frames that
were held have been freed. -/
structure Ledger (I : Set Index) (s : State α) : Prop where
  frees : FreesHeldBlocks 0 s.calls
  nodup : (held 0 s.calls).Nodup
  mem : ∀ p, p ∈ held 0 s.calls ↔ p = frameAddr s.root ∨ ∃ f ∈ s.tables I, p = frameAddr f

/-- No table is empty, but perhaps the one at a place. -/
def FullExcept (I : Set Index) (a : ℕ → Index) (d : ℕ) (s : State α) : Prop :=
  ∀ f ∈ s.tables I, s.tableAt a d ≠ some f → ∃ i, s.mem f i ≠ 0

def Full (I : Set Index) (s : State α) : Prop := ∀ f ∈ s.tables I, ∃ i, s.mem f i ≠ 0

variable {A : AllocatorOps α} {used : α → Set Frame} {I : Set Index}
variable {s t : State α} {a : ℕ → Index} {e mask : Word} {d n : ℕ} {f g : Frame}

lemma Ledger.congr (h : Ledger I s) (hcalls : t.calls = s.calls) (hroot : t.root = s.root)
    (htables : t.tables I = s.tables I) : Ledger I t := by
  refine ⟨hcalls ▸ h.frees, hcalls ▸ h.nodup, fun p => ?_⟩
  rw [hcalls, hroot, htables]
  exact h.mem p

section
variable (ht : Tree used I s) (ha : a 0 ∈ I)
include ht ha

lemma Ledger.grow {alloc : α} (h : Ledger I s) (hd : d < 3) (hf : s.tableAt a d = some f)
    (he : link e = some g) (hg : g ∉ used s.alloc) (hnone : link (s.mem f (a d)) = none) :
    Ledger I (s.grow f (a d) e g alloc) := by
  have hheld : held 0 (s.grow f (a d) e g alloc).calls = frameAddr g ::ₘ held 0 s.calls :=
    held_append 0 s.calls _
  have hfresh : frameAddr g ∉ held 0 s.calls := by
    rw [h.mem]
    rintro (hr | ⟨x, hx, hgx⟩)
    · exact hg (frameAddr_injective hr ▸ ht.rootUsed)
    · exact hg (frameAddr_injective hgx ▸ ht.tablesUsed hx)
  refine ⟨(freesHeldBlocks_append 0 s.calls _).mpr ⟨h.frees, trivial⟩,
    hheld ▸ Multiset.nodup_cons.mpr ⟨hfresh, h.nodup⟩, fun p => ?_⟩
  rw [hheld, Multiset.mem_cons, h.mem, ht.tables_grow ha hd hf he hg hnone]
  constructor
  · rintro (rfl | hr | ⟨x, hx, rfl⟩)
    · exact .inr ⟨g, .inl rfl, rfl⟩
    · exact .inl hr
    · exact .inr ⟨x, .inr hx, rfl⟩
  · rintro (hr | ⟨x, rfl | hx, rfl⟩)
    · exact .inr (.inl hr)
    · exact .inl rfl
    · exact .inr (.inr ⟨x, hx, rfl⟩)

lemma Ledger.prune {start : VirtAddr} (h : Ledger I s) (hd : d < 3) (hf : s.tableAt a d = some f)
    (hg : link (s.mem f (a d)) = some g) (hzero : ∀ i, s.mem g i = 0) :
    Ledger I (s.prune A f (a d) g start) := by
  have hheld : held 0 (s.prune A f (a d) g start).calls = (held 0 s.calls).erase (frameAddr g) :=
    held_append 0 s.calls _
  have hmem : g ∈ s.tables I := mem_tables ha hd ((table_succ hf).trans hg)
  have hne : g ≠ s.root := by
    rintro hr
    rw [hr] at hmem
    exact ht.separate.root_notMem hmem
  have hfreed : frameAddr g ∈ held 0 s.calls := (h.mem _).mpr (.inr ⟨g, hmem, rfl⟩)
  refine ⟨(freesHeldBlocks_append 0 s.calls _).mpr ⟨h.frees, hfreed, trivial⟩,
    hheld ▸ h.nodup.erase _, fun p => ?_⟩
  rw [hheld, h.nodup.mem_erase_iff, h.mem, ht.tables_prune ha hd hf hg hzero]
  constructor
  · rintro ⟨hpg, hr | ⟨x, hx, rfl⟩⟩
    · exact .inl hr
    · exact .inr ⟨x, ⟨hx, fun hxg => hpg (congrArg frameAddr hxg)⟩, rfl⟩
  · rintro (hr | ⟨x, ⟨hx, hxg⟩, rfl⟩)
    · exact ⟨fun hpg => hne (frameAddr_injective (hpg.symm.trans hr)), .inl hr⟩
    · exact ⟨fun hpg => hxg (frameAddr_injective hpg), .inr ⟨x, hx, rfl⟩⟩

/-- The way down fills the table it is at before it goes on to the next. -/
lemma Descent.owned (h : Descent used a mask d s n t) (hm : IsParentMask mask)
    (hl : Ledger I s) (hfull : FullExcept I a d s) : Ledger I t ∧ FullExcept I a n t := by
  induction h with
  | done => exact ⟨hl, hfull⟩
  | @linked d n s t f g hd hf hg rest ih =>
    have hlink := (link_or hm hg).trans hg.symm
    have htables : (s.put f (a d) (s.mem f (a d) ||| mask)).tables I = s.tables I :=
      tables_relabel hlink
    refine ih (ht.put_link ha hd hf hlink (tableAddr_or hm)) (hl.congr rfl rfl htables) ?_
    intro x hx _
    by_cases hxf : x = f
    · refine ⟨a d, ?_⟩
      rw [hxf, put_mem, write_self]
      exact ne_zero_of_present (isPresent_or hm)
    · obtain ⟨i, hi⟩ := hfull x (htables ▸ hx) fun h =>
        hxf (Option.some.inj (h.symm.trans hf))
      exact ⟨i, by rwa [put_mem, write_of_ne _ _ _ hxf]⟩
  | @grown d n s t f g alloc hd hf habsent hg hsub rest ih =>
    have hnone := link_none_of_absent habsent
    have hlink := link_frameAddr g hm
    have hclean := (tableAddr_or hm).trans (tableAddr_frameAddr g)
    refine ih (ht.grow ha hd hf hlink hg hsub hnone hclean) (hl.grow ht ha hd hf hlink hg hnone) ?_
    intro x hx hnext
    have hxg : x ≠ g := by
      rintro rfl
      exact hnext (ht.grow_table ha hd hf hlink hg)
    by_cases hxf : x = f
    · refine ⟨a d, ?_⟩
      rw [hxf] at hxg ⊢
      rw [grow_mem, fill_of_ne _ _ hxg, write_self]
      exact ne_zero_of_present (isPresent_or hm)
    · rw [ht.tables_grow ha hd hf hlink hg hnone] at hx
      obtain ⟨i, hi⟩ := hfull x (hx.resolve_left hxg) fun h =>
        hxf (Option.some.inj (h.symm.trans hf))
      exact ⟨i, by rwa [grow_mem, fill_of_ne _ _ hxg, write_of_ne _ _ _ hxf]⟩

lemma Ascent.owned (h : Ascent A a d s n t) (hA : FrameContract A used)
    (hl : Ledger I s) (hfull : FullExcept I a d s) : Ledger I t ∧ FullExcept I a n t := by
  induction h with
  | done => exact ⟨hl, hfull⟩
  | @pruned d n s t f g start hd hf hg hzero rest ih =>
    refine ih (ht.prune ha hd hf hg hzero hA) (hl.prune ht ha hd hf hg hzero) ?_
    intro x hx hhole
    rw [ht.tables_prune ha hd hf hg hzero] at hx
    have hxf : x ≠ f := by
      rintro rfl
      exact hhole (ht.put_table ha hd.le hf)
    obtain ⟨i, hi⟩ := hfull x hx.1 fun h =>
      hx.2 (Option.some.inj (h.symm.trans ((table_succ hf).trans hg)))
    exact ⟨i, by rwa [prune_mem, write_of_ne _ _ _ hxf]⟩

end

end

end Anarch.PageTable
