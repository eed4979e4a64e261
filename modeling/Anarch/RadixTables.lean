import Anarch.RadixTree

/-! The set of tables of a radix tree, and how cutting and growing the tree change it. -/
namespace Anarch.RadixTree

variable {F ι E : Type*} {link : E → Option F} {root : F} {m : Store F ι E} {I : Set ι}
variable {a b : ℕ → ι} {d k n : ℕ} {f g x : F}

def tables (link : E → Option F) (root : F) (I : Set ι) (n : ℕ) (m : Store F ι E) : Set F :=
  {f | ∃ a d, a 0 ∈ I ∧ d < n ∧ table link root m a (d + 1) = some f}

lemma mem_tables (ha : a 0 ∈ I) (hd : d < n) (hf : table link root m a (d + 1) = some f) :
    f ∈ tables link root I n m := ⟨a, d, ha, hd, hf⟩

lemma eq_root_or_mem_tables (ha : a 0 ∈ I) (hd : d ≤ n) (hf : table link root m a d = some f) :
    f = root ∨ f ∈ tables link root I n m := by
  cases d with
  | zero => exact .inl (Option.some.inj hf).symm
  | succ d => exact .inr (mem_tables ha hd hf)

lemma unused_of_notMem (hr : f ≠ root) (hf : f ∉ tables link root I n m) :
    Unused link root I n m f := by
  intro a d ha hd h
  rcases eq_root_or_mem_tables ha hd h with h | h
  · exact hr h
  · exact hf h

lemma Separate.root_notMem (hs : Separate link root I n m) : root ∉ tables link root I n m := by
  rintro ⟨a, d, ha, hd, hf⟩
  have := (hs ha ha hd n.zero_le hf rfl).1
  omega

lemma Separate.table_eq_iff (hs : Separate link root I n m) (ha : a 0 ∈ I) (hb : b 0 ∈ I)
    (hd : d ≤ n) (hk : k ≤ n) (hf : table link root m a d = some f) :
    table link root m b k = some f ↔ k = d ∧ Agree d a b := by
  constructor
  · intro h
    obtain ⟨rfl, hagree⟩ := hs ha hb hd hk hf h
    exact ⟨rfl, hagree⟩
  · rintro ⟨rfl, hagree⟩
    rw [← table_congr hagree, hf]

section Updates
variable [DecidableEq F] [DecidableEq ι] {e z : E}

lemma tables_relabel {i : ι} (h : link e = link (m f i)) :
    tables link root I n (m.write f i e) = tables link root I n m := by
  ext x
  simp only [tables, table_relabel h]

lemma tables_cut_subset (hs : Separate link root I n m) (ha : a 0 ∈ I) (hd : d ≤ n)
    (hf : table link root m a d = some f) (he : d = n ∨ link e = none) :
    tables link root I n (m.write f (a d) e) ⊆ tables link root I n m := by
  rintro x ⟨b, k, hb, hk, hx⟩
  rw [table_cut hs ha hb hd hf he hk] at hx
  split_ifs at hx
  exact ⟨b, k, hb, hk, hx⟩

lemma tables_write (hs : Separate link root I n m) (ha : a 0 ∈ I) (hd : d ≤ n)
    (hf : table link root m a d = some f)
    (he : d = n ∨ link e = none ∧ link (m f (a d)) = none) :
    tables link root I n (m.write f (a d) e) = tables link root I n m := by
  refine (tables_cut_subset hs ha hd hf (he.imp id And.left)).antisymm ?_
  rintro x ⟨b, k, hb, hk, hx⟩
  refine ⟨b, k, hb, hk, ?_⟩
  rw [table_cut hs ha hb hd hf (he.imp id And.left) hk, if_neg, hx]
  rintro ⟨hlt, hagree⟩
  have hnone := (he.resolve_left (by omega)).2
  rw [table_none_below hf hnone hagree hlt] at hx
  cases hx

lemma tables_cut (hs : Separate link root I n m) (ha : a 0 ∈ I) (hd : d < n)
    (hf : table link root m a d = some f) (he : link e = none) (hg : link (m f (a d)) = some g)
    (hleaf : ∀ i, link (m g i) = none) :
    tables link root I n (m.write f (a d) e) = tables link root I n m \ {g} := by
  have hg' : table link root m a (d + 1) = some g := (table_succ hf).trans hg
  ext x
  constructor
  · rintro ⟨b, k, hb, hk, hx⟩
    rw [table_cut hs ha hb hd.le hf (.inr he) hk] at hx
    split_ifs at hx with hin
    refine ⟨⟨b, k, hb, hk, hx⟩, ?_⟩
    rintro rfl
    obtain ⟨hkd, hagree⟩ := (hs.table_eq_iff ha hb hd hk hg').mp hx
    exact hin ⟨by omega, hagree⟩
  · rintro ⟨⟨b, k, hb, hk, hx⟩, hne⟩
    refine ⟨b, k, hb, hk, ?_⟩
    rw [table_cut hs ha hb hd.le hf (.inr he) hk, if_neg, hx]
    rintro ⟨hlt, hagree⟩
    have hbg : table link root m b (d + 1) = some g := (table_congr hagree).symm.trans hg'
    rcases (by omega : k = d ∨ d + 1 < k + 1) with rfl | hlt'
    · exact hne (Option.some.inj (hx.symm.trans hbg))
    · rw [table_none_below hbg (hleaf _) (fun _ _ => rfl) hlt'] at hx
      cases hx

lemma tables_grow (hs : Separate link root I n m) (ha : a 0 ∈ I) (hd : d < n)
    (hf : table link root m a d = some f) (he : link e = some g) (hz : link z = none)
    (hg : Unused link root I n m g) (hnone : link (m f (a d)) = none) :
    tables link root I n ((m.write f (a d) e).fill g z) = insert g (tables link root I n m) := by
  ext x
  constructor
  · rintro ⟨b, k, hb, hk, hx⟩
    rw [table_grow hs ha hb hd hf he hz hg hk] at hx
    split_ifs at hx
    · exact .inl (Option.some.inj hx).symm
    · exact .inr ⟨b, k, hb, hk, hx⟩
  · rintro (rfl | ⟨b, k, hb, hk, hx⟩)
    · refine ⟨a, d, ha, hd, ?_⟩
      rw [table_grow hs ha ha hd hf he hz hg hd,
        if_pos ⟨by omega, fun _ _ => rfl⟩, if_pos rfl]
    · refine ⟨b, k, hb, hk, ?_⟩
      rw [table_grow hs ha hb hd hf he hz hg hk, if_neg, hx]
      rintro ⟨hlt, hagree⟩
      rw [table_none_below hf hnone hagree hlt] at hx
      cases hx

end Updates

end Anarch.RadixTree
