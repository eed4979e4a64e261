import Mathlib.Data.Set.Basic
import Mathlib.Logic.Function.Basic

/-! Radix trees in a store of tables. A key is a sequence of digits; the table of a key at
a depth is found by following links from the root. Only keys whose first digit lies in a
given set are spoken of, so that the root may hold other things besides. -/
namespace Anarch.RadixTree

variable {F ι E : Type*}

abbrev Store (F ι E : Type*) := F → ι → E

/-- The two keys have the first `d` digits in common. -/
def Agree (d : ℕ) (a b : ℕ → ι) : Prop := ∀ k < d, a k = b k

instance [DecidableEq ι] (d : ℕ) (a b : ℕ → ι) : Decidable (Agree d a b) :=
  inferInstanceAs (Decidable (∀ k < d, a k = b k))

lemma Agree.symm {d : ℕ} {a b : ℕ → ι} (h : Agree d a b) : Agree d b a :=
  fun k hk => (h k hk).symm

lemma Agree.trans {d : ℕ} {a b c : ℕ → ι} (h : Agree d a b) (h' : Agree d b c) : Agree d a c :=
  fun k hk => (h k hk).trans (h' k hk)

lemma Agree.mono {d e : ℕ} {a b : ℕ → ι} (h : Agree d a b) (he : e ≤ d) : Agree e a b :=
  fun k hk => h k (hk.trans_le he)

lemma agree_zero (a b : ℕ → ι) : Agree 0 a b := fun k hk => absurd hk (Nat.not_lt_zero k)

lemma agree_succ {d : ℕ} {a b : ℕ → ι} : Agree (d + 1) a b ↔ Agree d a b ∧ a d = b d := by
  constructor
  · exact fun h => ⟨h.mono d.le_succ, h d d.lt_succ_self⟩
  · rintro ⟨h, hd⟩ k hk
    rcases Nat.lt_succ_iff_lt_or_eq.mp hk with hk | rfl
    · exact h k hk
    · exact hd

section Write
variable [DecidableEq F]

def Store.fill (m : Store F ι E) (f : F) (e : E) : Store F ι E := Function.update m f fun _ => e

lemma fill_of_ne (m : Store F ι E) {f g : F} (e : E) (h : g ≠ f) : m.fill f e g = m g := by
  simp [Store.fill, h]

lemma fill_self (m : Store F ι E) (f : F) (e : E) (i : ι) : m.fill f e f i = e := by
  simp [Store.fill]

variable [DecidableEq ι]

def Store.write (m : Store F ι E) (f : F) (i : ι) (e : E) : Store F ι E :=
  Function.update m f (Function.update (m f) i e)

lemma write_apply (m : Store F ι E) (f g : F) (i j : ι) (e : E) :
    m.write f i e g j = if g = f ∧ j = i then e else m g j := by
  by_cases hg : g = f
  · subst hg
    by_cases hj : j = i <;> simp [Store.write, hj]
  · simp [Store.write, hg]

lemma write_self (m : Store F ι E) (f : F) (i : ι) (e : E) : m.write f i e f i = e := by
  simp [write_apply]

lemma write_of_ne (m : Store F ι E) {f g : F} (i : ι) (e : E) (h : g ≠ f) :
    m.write f i e g = m g := by simp [Store.write, h]

lemma write_comm (m : Store F ι E) (f : F) {i j : ι} (h : i ≠ j) (x y : E) :
    (m.write f i x).write f j y = (m.write f j y).write f i x := by
  funext g k
  simp only [write_apply]
  split_ifs with hj hi
  · exact absurd (hi.2.symm.trans hj.2) h
  · rfl
  · rfl
  · rfl

lemma fill_write (m : Store F ι E) {f g : F} (h : f ≠ g) (i : ι) (e z : E) :
    (m.fill g z).write f i e = (m.write f i e).fill g z := by
  rw [Store.write, fill_of_ne m z h, Store.fill, Function.update_comm h.symm]
  rfl

end Write

section Table
variable (link : E → Option F) (root : F)

def table (m : Store F ι E) (a : ℕ → ι) : ℕ → Option F
  | 0 => some root
  | d + 1 => (table m a d).bind fun f => link (m f (a d))

variable {link root} {m : Store F ι E} {a b : ℕ → ι} {d k n : ℕ} {f g : F}

lemma table_succ (h : table link root m a d = some f) :
    table link root m a (d + 1) = link (m f (a d)) := by simp [table, h]

lemma table_succ_eq_some : table link root m a (d + 1) = some g ↔
    ∃ f, table link root m a d = some f ∧ link (m f (a d)) = some g := by
  simp [table, Option.bind_eq_some_iff]

lemma table_congr (h : Agree d a b) : table link root m a d = table link root m b d := by
  induction d with
  | zero => rfl
  | succ d ih =>
    obtain ⟨hd, he⟩ := agree_succ.mp h
    simp only [table, ih hd, he]

lemma table_of_le (h : table link root m a d = some f) (hk : k ≤ d) :
    ∃ g, table link root m a k = some g := by
  induction d generalizing f with
  | zero => exact ⟨f, by rwa [Nat.le_zero.mp hk]⟩
  | succ d ih =>
    rcases Nat.le_succ_iff.mp hk with hk | rfl
    · obtain ⟨g, hg, -⟩ := table_succ_eq_some.mp h
      exact ih hg hk
    · exact ⟨f, h⟩

lemma table_none_of_le (h : table link root m a k = none) (hk : k ≤ d) :
    table link root m a d = none := by
  by_contra hne
  obtain ⟨f, hf⟩ := Option.ne_none_iff_exists'.mp hne
  obtain ⟨g, hg⟩ := table_of_le hf hk
  simp [h] at hg

lemma table_none_below (hf : table link root m a d = some f) (he : link (m f (a d)) = none)
    (h : Agree (d + 1) a b) (hk : d < k) : table link root m b k = none := by
  have hnone : table link root m a (d + 1) = none := (table_succ hf).trans he
  exact table_none_of_le ((table_congr h).symm.trans hnone) hk

variable (link root) in
/-- Below the depth bound, no table is reached in two ways. -/
def Separate (I : Set ι) (n : ℕ) (m : Store F ι E) : Prop :=
  ∀ ⦃a b d e f⦄, a 0 ∈ I → b 0 ∈ I → d ≤ n → e ≤ n →
    table link root m a d = some f → table link root m b e = some f → d = e ∧ Agree d a b

variable (link root) in
/-- No key has the frame as a table. -/
def Unused (I : Set ι) (n : ℕ) (m : Store F ι E) (f : F) : Prop :=
  ∀ a d, a 0 ∈ I → d ≤ n → table link root m a d ≠ some f

variable {I : Set ι}

lemma table_eq_of_agree {m' : Store F ι E}
    (h : ∀ k < d, ∀ f, table link root m a k = some f → link (m' f (a k)) = link (m f (a k))) :
    table link root m' a d = table link root m a d := by
  induction d with
  | zero => rfl
  | succ d ih =>
    have hd := ih fun k hk => h k (by omega)
    simp only [table, hd]
    cases ht : table link root m a d with
    | none => rfl
    | some f => exact h d d.lt_succ_self f ht

section Updates
variable [DecidableEq F] [DecidableEq ι] {e z : E}

lemma table_relabel {i : ι} (h : link e = link (m f i)) :
    table link root (m.write f i e) a d = table link root m a d := by
  refine table_eq_of_agree fun k _ g _ => ?_
  rw [write_apply]
  split_ifs with heq
  · rw [h, heq.1, heq.2]
  · rfl

lemma table_write_off (hs : Separate link root I n m) (ha : a 0 ∈ I) (hb : b 0 ∈ I)
    (hd : d ≤ n) (hf : table link root m a d = some f) (hk : k ≤ n)
    (hoff : k ≤ d ∨ ¬ Agree (d + 1) a b) :
    table link root (m.write f (a d) e) b k = table link root m b k := by
  refine table_eq_of_agree fun j hj g hg => ?_
  rw [write_apply]
  split_ifs with heq
  · obtain ⟨rfl, hdigit⟩ := heq
    obtain ⟨rfl, hagree⟩ := hs ha hb hd (by omega) hf hg
    rcases hoff with hle | hoff
    · omega
    · exact absurd (agree_succ.mpr ⟨hagree, hdigit.symm⟩) hoff
  · rfl

lemma table_cut (hs : Separate link root I n m) (ha : a 0 ∈ I) (hb : b 0 ∈ I) (hd : d ≤ n)
    (hf : table link root m a d = some f) (he : d = n ∨ link e = none) (hk : k ≤ n) :
    table link root (m.write f (a d) e) b k =
      if d < k ∧ Agree (d + 1) a b then none else table link root m b k := by
  split_ifs with hin
  · obtain ⟨hlt, hagree⟩ := hin
    have hnone : link e = none := he.resolve_left (by omega)
    have hfa : table link root (m.write f (a d) e) a d = some f :=
      (table_write_off hs ha ha hd hf hd (.inl le_rfl)).trans hf
    exact table_none_below hfa (by rw [write_self, hnone]) hagree hlt
  · exact table_write_off hs ha hb hd hf hk (by
      rcases not_and_or.mp hin with h | h
      · exact .inl (by omega)
      · exact .inr h)

lemma table_grow (hs : Separate link root I n m) (ha : a 0 ∈ I) (hb : b 0 ∈ I) (hd : d < n)
    (hf : table link root m a d = some f) (he : link e = some g) (hz : link z = none)
    (hg : Unused link root I n m g) (hk : k ≤ n) :
    table link root ((m.write f (a d) e).fill g z) b k =
      if d < k ∧ Agree (d + 1) a b then (if k = d + 1 then some g else none)
      else table link root m b k := by
  have hoff : ∀ j ≤ n, (j ≤ d ∨ ¬ Agree (d + 1) a b) →
      table link root ((m.write f (a d) e).fill g z) b j = table link root m b j := by
    intro j hj hjd
    rw [← table_write_off (e := e) hs ha hb hd.le hf hj hjd]
    refine table_eq_of_agree fun i hi x hx => ?_
    have hx' : x ≠ g := by
      rintro rfl
      rw [table_write_off hs ha hb hd.le hf (by omega)
        (hjd.imp (fun h => by omega) id)] at hx
      exact hg b i hb (by omega) hx
    rw [fill_of_ne _ _ hx']
  split_ifs with hin hkd
  · obtain ⟨-, hagree⟩ := hin
    obtain ⟨hagree', hdigit⟩ := agree_succ.mp hagree
    have hfg : f ≠ g := fun h => hg a d ha hd.le (h ▸ hf)
    have hbd : table link root ((m.write f (a d) e).fill g z) b d = some f := by
      rw [hoff d hd.le (.inl le_rfl), ← table_congr hagree', hf]
    rw [hkd, table_succ hbd, fill_of_ne _ _ hfg, ← hdigit, write_self, he]
  · obtain ⟨hlt, hagree⟩ := hin
    obtain ⟨hagree', hdigit⟩ := agree_succ.mp hagree
    have hfg : f ≠ g := fun h => hg a d ha hd.le (h ▸ hf)
    have hbd : table link root ((m.write f (a d) e).fill g z) b d = some f := by
      rw [hoff d hd.le (.inl le_rfl), ← table_congr hagree', hf]
    have hbd' : table link root ((m.write f (a d) e).fill g z) b (d + 1) = some g := by
      rw [table_succ hbd, fill_of_ne _ _ hfg, ← hdigit, write_self, he]
    refine table_none_of_le (k := d + 2) ?_ (by omega)
    rw [table_succ hbd', fill_self, hz]
  · exact hoff k hk (by
      rcases not_and_or.mp hin with h | h
      · exact .inl (by omega)
      · exact .inr h)

lemma Separate.relabel {i : ι} (hs : Separate link root I n m) (h : link e = link (m f i)) :
    Separate link root I n (m.write f i e) := by
  intro a b d e f ha hb hd he ht ht'
  rw [table_relabel h] at ht ht'
  exact hs ha hb hd he ht ht'

lemma Separate.cut (hs : Separate link root I n m) (ha : a 0 ∈ I) (hd : d ≤ n)
    (hf : table link root m a d = some f) (he : d = n ∨ link e = none) :
    Separate link root I n (m.write f (a d) e) := by
  intro b c j k x hb hc hj hk ht ht'
  rw [table_cut hs ha hb hd hf he hj] at ht
  rw [table_cut hs ha hc hd hf he hk] at ht'
  split_ifs at ht ht'
  exact hs hb hc hj hk ht ht'

lemma Separate.grow (hs : Separate link root I n m) (ha : a 0 ∈ I) (hd : d < n)
    (hf : table link root m a d = some f) (he : link e = some g) (hz : link z = none)
    (hg : Unused link root I n m g) :
    Separate link root I n ((m.write f (a d) e).fill g z) := by
  intro b c j k x hb hc hj hk ht ht'
  rw [table_grow hs ha hb hd hf he hz hg hj] at ht
  rw [table_grow hs ha hc hd hf he hz hg hk] at ht'
  split_ifs at ht ht' with h1 h2 h3 h4 h5
  · subst h2 h4
    exact ⟨rfl, h1.2.symm.trans h3.2⟩
  · exact absurd (Option.some.inj ht ▸ ht') (hg c k hc hk)
  · exact absurd (Option.some.inj ht' ▸ ht) (hg b j hb hj)
  · exact hs hb hc hj hk ht ht'

end Updates

section Find

variable (link) in
/-- Where the links of a key end, at most `r` tables further: the depth and the entry. -/
def findFrom (m : Store F ι E) (a : ℕ → ι) : ℕ → ℕ → F → ℕ × E
  | 0, d, f => (d, m f (a d))
  | r + 1, d, f =>
      match link (m f (a d)) with
      | none => (d, m f (a d))
      | some g => findFrom m a r (d + 1) g

variable (link root) in
def find (n : ℕ) (m : Store F ι E) (a : ℕ → ι) : ℕ × E := findFrom link m a n 0 root

lemma findFrom_none {r : ℕ} (h : link (m f (a d)) = none) :
    findFrom link m a r d f = (d, m f (a d)) := by
  cases r with
  | zero => rfl
  | succ r => simp only [findFrom, h]

lemma findFrom_some {r : ℕ} (h : link (m f (a d)) = some g) :
    findFrom link m a (r + 1) d f = findFrom link m a r (d + 1) g := by simp only [findFrom, h]

lemma findFrom_of_table {r : ℕ} (hd : table link root m a d = some f) (hk : d ≤ k)
    (hkn : k ≤ d + r) (hg : table link root m a k = some g)
    (hend : k = d + r ∨ link (m g (a k)) = none) :
    findFrom link m a r d f = (k, m g (a k)) := by
  induction r generalizing d f with
  | zero =>
    obtain rfl : k = d := by omega
    obtain rfl := Option.some.inj (hd.symm.trans hg)
    rfl
  | succ r ih =>
    rcases hk.eq_or_lt with rfl | hlt
    · obtain rfl := Option.some.inj (hd.symm.trans hg)
      exact findFrom_none (hend.resolve_left (by omega))
    · obtain ⟨x, hx⟩ := table_of_le hg (show d + 1 ≤ k from hlt)
      have hlink : link (m f (a d)) = some x := (table_succ hd).symm.trans hx
      rw [findFrom_some hlink]
      exact ih hx hlt (by omega) (hend.imp (fun h => by omega) id)

lemma find_eq (hk : k ≤ n) (hg : table link root m a k = some g)
    (hend : k = n ∨ link (m g (a k)) = none) : find link root n m a = (k, m g (a k)) :=
  findFrom_of_table rfl k.zero_le (by omega) hg (hend.imp (fun h => by omega) id)

variable (link root) in
lemma find_cases (n : ℕ) (m : Store F ι E) (a : ℕ → ι) :
    ∃ k g, k ≤ n ∧ table link root m a k = some g ∧ (k = n ∨ link (m g (a k)) = none) := by
  induction n with
  | zero => exact ⟨0, root, le_rfl, rfl, .inl rfl⟩
  | succ n ih =>
    obtain ⟨k, g, hk, hg, hend⟩ := ih
    cases hl : link (m g (a k)) with
    | none => exact ⟨k, g, by omega, hg, .inr hl⟩
    | some x =>
      have hkn : k = n := hend.resolve_right (by simp [hl])
      subst hkn
      exact ⟨k + 1, x, le_rfl, (table_succ hg).trans hl, .inl rfl⟩

lemma find_agree (hk : k ≤ n) (hg : table link root m a k = some g)
    (hend : k = n ∨ link (m g (a k)) = none) (h : Agree (k + 1) a b) :
    find link root n m b = (k, m g (a k)) := by
  obtain ⟨hagree, hdigit⟩ := agree_succ.mp h
  have hgb : table link root m b k = some g := by rw [← table_congr hagree, hg]
  rw [find_eq hk hgb (hdigit ▸ hend), hdigit]

variable [DecidableEq F] [DecidableEq ι] {e z : E}

lemma find_relabel (hs : Separate link root I n m) (ha : a 0 ∈ I) (hb : b 0 ∈ I) (hd : d < n)
    (hf : table link root m a d = some f) (he : link e = link (m f (a d)))
    (hlink : link (m f (a d)) ≠ none) :
    find link root n (m.write f (a d) e) b = find link root n m b := by
  obtain ⟨k, g, hk, hg, hend⟩ := find_cases link root n m b
  have hsame : m.write f (a d) e g (b k) = m g (b k) := by
    rw [write_apply, if_neg]
    rintro ⟨rfl, hdigit⟩
    obtain ⟨rfl, -⟩ := hs ha hb hd.le hk hf hg
    rcases hend with rfl | hend
    · omega
    · exact hlink (hdigit ▸ hend)
  rw [find_eq hk hg hend, find_eq hk ((table_relabel he).trans hg) (hsame ▸ hend), hsame]

lemma find_write_off (hs : Separate link root I n m) (ha : a 0 ∈ I) (hb : b 0 ∈ I)
    (hd : d ≤ n) (hf : table link root m a d = some f) (hoff : ¬ Agree (d + 1) a b) :
    find link root n (m.write f (a d) e) b = find link root n m b := by
  obtain ⟨k, g, hk, hg, hend⟩ := find_cases link root n m b
  have hsame : m.write f (a d) e g (b k) = m g (b k) := by
    rw [write_apply, if_neg]
    rintro ⟨rfl, hdigit⟩
    obtain ⟨rfl, hagree⟩ := hs ha hb hd hk hf hg
    exact hoff (agree_succ.mpr ⟨hagree, hdigit.symm⟩)
  have ht := (table_write_off (e := e) hs ha hb hd hf hk (.inr hoff)).trans hg
  rw [find_eq hk hg hend, find_eq hk ht (hsame ▸ hend), hsame]

lemma find_write_on (hs : Separate link root I n m) (ha : a 0 ∈ I) (hd : d ≤ n)
    (hf : table link root m a d = some f) (he : d = n ∨ link e = none)
    (hon : Agree (d + 1) a b) : find link root n (m.write f (a d) e) b = (d, e) := by
  have ht := (table_write_off (e := e) hs ha ha hd hf hd (.inl le_rfl)).trans hf
  have := find_agree hd ht (by rwa [write_self]) hon
  rwa [write_self] at this

lemma find_grow_off (hs : Separate link root I n m) (ha : a 0 ∈ I) (hb : b 0 ∈ I) (hd : d < n)
    (hf : table link root m a d = some f) (he : link e = some g) (hz : link z = none)
    (hg : Unused link root I n m g) (hoff : ¬ Agree (d + 1) a b) :
    find link root n ((m.write f (a d) e).fill g z) b = find link root n m b := by
  obtain ⟨k, x, hk, hx, hend⟩ := find_cases link root n m b
  have ht : table link root ((m.write f (a d) e).fill g z) b k = some x := by
    rw [table_grow hs ha hb hd hf he hz hg hk, if_neg fun h => hoff h.2, hx]
  have hsame : (m.write f (a d) e).fill g z x (b k) = m x (b k) := by
    have hne : x ≠ g := fun h => hg b k hb hk (h ▸ hx)
    rw [fill_of_ne _ _ hne, write_apply, if_neg]
    rintro ⟨rfl, hdigit⟩
    obtain ⟨rfl, hagree⟩ := hs ha hb hd.le hk hf hx
    exact hoff (agree_succ.mpr ⟨hagree, hdigit.symm⟩)
  rw [find_eq hk hx hend, find_eq hk ht (hsame ▸ hend), hsame]

lemma find_grow_on (hs : Separate link root I n m) (ha : a 0 ∈ I) (hb : b 0 ∈ I) (hd : d < n)
    (hf : table link root m a d = some f) (he : link e = some g) (hz : link z = none)
    (hg : Unused link root I n m g) (hon : Agree (d + 1) a b) :
    find link root n ((m.write f (a d) e).fill g z) b = (d + 1, z) := by
  have ht : table link root ((m.write f (a d) e).fill g z) b (d + 1) = some g := by
    rw [table_grow hs ha hb hd hf he hz hg hd, if_pos ⟨by omega, hon⟩, if_pos rfl]
  have := find_eq hd ht (.inr (by rw [fill_self, hz]))
  rwa [fill_self] at this

end Find

end Table

end Anarch.RadixTree
