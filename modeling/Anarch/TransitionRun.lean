import Mathlib.Data.Set.Basic

/-! Runs of labelled transition systems: reachable states, the invariant rule, and the
restriction of a system to the steps that meet a condition. -/
namespace Anarch.TransitionRun

/-- A system: its initial states and what each action can do in each state. -/
structure System (σ κ : Type*) where
  start : σ → Prop
  step : σ → κ → σ → Prop

variable {σ κ : Type*}

namespace System

inductive Reachable (S : System σ κ) : σ → Prop
  | start {s : σ} : S.start s → Reachable S s
  | next {s t : σ} {a : κ} : Reachable S s → S.step s a t → Reachable S t

/-- What holds at the start and is preserved by every step from a reachable state holds
in every reachable state. -/
theorem Reachable.invariant {S : System σ κ} {P : σ → Prop} {s : σ} (h : S.Reachable s)
    (start : ∀ s, S.start s → P s)
    (step : ∀ s a t, S.Reachable s → P s → S.step s a t → P t) : P s := by
  induction h with
  | start hs => exact start _ hs
  | next hr hs ih => exact step _ _ _ hr ih hs

/-- The same system, taking only the steps that meet a condition. -/
def restrict (S : System σ κ) (C : σ → κ → Prop) : System σ κ where
  start := S.start
  step s a t := C s a ∧ S.step s a t

theorem Reachable.of_restrict {S : System σ κ} {C : σ → κ → Prop} {s : σ}
    (h : (S.restrict C).Reachable s) : S.Reachable s := by
  induction h with
  | start hs => exact .start hs
  | next _ hs ih => exact ih.next hs.2

def after (S : System σ κ) (s : σ) : System σ κ where
  start := (· = s)
  step := S.step

theorem Reachable.append {S : System σ κ} {s t : σ} (hs : S.Reachable s)
    (ht : (S.after s).Reachable t) : S.Reachable t := by
  induction ht with
  | start h => exact h ▸ hs
  | next _ hstep ih => exact ih.next hstep

/-- A list of actions taken one after the other, where a function gives their effects. -/
theorem Reachable.run {S : System σ κ} {f : σ → κ → Option σ}
    (hf : ∀ s a t, f s a = some t → S.step s a t) {s t : σ} {actions : List κ}
    (h : S.Reachable s) (ht : actions.foldlM f s = some t) : S.Reachable t := by
  induction actions generalizing s with
  | nil => exact Option.some.inj ht ▸ h
  | cons a actions ih =>
    rw [List.foldlM_cons] at ht
    obtain ⟨u, hu, ht⟩ := Option.bind_eq_some_iff.mp ht
    exact ih (h.next (hf s a u hu)) ht

end System

/-- A `while` loop: the body moves to a new loop state or leaves the loop. -/
def loop {ρ : Type*} (body : σ → σ ⊕ ρ) : ℕ → σ → Option ρ
  | 0, _ => none
  | n + 1, s =>
      match body s with
      | .inl t => loop body n t
      | .inr r => some r

/-- The loop is left, with this result, after finitely many rounds. -/
def Returns {ρ : Type*} (body : σ → σ ⊕ ρ) (s : σ) (r : ρ) : Prop := ∃ n, loop body n s = some r

section
variable {ρ : Type*} {body : σ → σ ⊕ ρ} {s t : σ} {r : ρ}

lemma Returns.exit (h : body s = .inr r) : Returns body s r := ⟨1, by simp [loop, h]⟩

lemma returns_step (h : body s = .inl t) : Returns body s r ↔ Returns body t r := by
  constructor
  · rintro ⟨n, hn⟩
    cases n with
    | zero => simp [loop] at hn
    | succ n => exact ⟨n, by simpa [loop, h] using hn⟩
  · rintro ⟨n, hn⟩
    exact ⟨n + 1, by simpa [loop, h] using hn⟩

lemma Returns.unique {r' : ρ} (h : Returns body s r) (h' : Returns body s r') : r = r' := by
  obtain ⟨n, hn⟩ := h
  induction n generalizing s with
  | zero => simp [loop] at hn
  | succ n ih =>
    cases hb : body s with
    | inl t => exact ih ((returns_step hb).mp h') (by simpa [loop, hb] using hn)
    | inr r'' =>
      obtain ⟨m, hm⟩ := h'
      cases m with
      | zero => simp [loop] at hm
      | succ m =>
        simp only [loop, hb] at hn hm
        exact Option.some.inj (hn.symm.trans hm)

/-- The loop gets from one state to another, after finitely many rounds. -/
inductive Visits (body : σ → σ ⊕ ρ) : σ → σ → Prop
  | refl {s : σ} : Visits body s s
  | head {s t u : σ} : body s = .inl t → Visits body t u → Visits body s u

/-- What every round keeps holds of all states that the loop gets to. -/
theorem Visits.invariant {P : σ → Prop} (h : Visits body s t) (hs : P s)
    (hstep : ∀ u v, P u → body u = .inl v → P v) : P t := by
  induction h with
  | refl => exact hs
  | head hbody _ ih => exact ih (hstep _ _ hs hbody)

lemma exists_visits_iff {P : σ → Prop} : (∃ t, Visits body s t ∧ P t) ↔
    P s ∨ ∃ t, body s = .inl t ∧ ∃ u, Visits body t u ∧ P u := by
  constructor
  · rintro ⟨u, hvisits, hu⟩
    cases hvisits with
    | refl => exact .inl hu
    | head hbody hvisits => exact .inr ⟨_, hbody, u, hvisits, hu⟩
  · rintro (hs | ⟨t, hbody, u, hvisits, hu⟩)
    · exact ⟨s, .refl, hs⟩
    · exact ⟨u, .head hbody hvisits, hu⟩

/-- What holds where the loop is left with this result, and of a state if it holds of the next
one, holds of every state from which the loop is left with this result. -/
theorem Returns.backward {P : σ → Prop} (h : Returns body s r) (hexit : ∀ s, body s = .inr r → P s)
    (hstep : ∀ s t, body s = .inl t → P t → P s) : P s := by
  obtain ⟨n, hn⟩ := h
  induction n generalizing s with
  | zero => simp [loop] at hn
  | succ n ih =>
    cases hb : body s with
    | inl t => exact hstep s t hb (ih (by simpa [loop, hb] using hn))
    | inr r' =>
      simp only [loop, hb, Option.some.injEq] at hn
      exact hexit s (hn ▸ hb)

/-- A loop in which every round leaves, or keeps what holds and makes a measure smaller, is
left. -/
theorem returns_of_measure {P : σ → Prop} {Q : ρ → Prop} (m : σ → ℕ)
    (hround : ∀ s, P s → (∃ r, body s = .inr r ∧ Q r) ∨ ∃ t, body s = .inl t ∧ P t ∧ m t < m s)
    (hs : P s) : ∃ r, Returns body s r ∧ Q r := by
  induction hm : m s using Nat.strong_induction_on generalizing s with
  | _ n ih =>
    rcases hround s hs with ⟨r, hbody, hr⟩ | ⟨t, hbody, ht, hlt⟩
    · exact ⟨r, .exit hbody, hr⟩
    · obtain ⟨r, hreturns, hr⟩ := ih (m t) (hm ▸ hlt) ht rfl
      exact ⟨r, (returns_step hbody).mpr hreturns, hr⟩

/-- A round that changes nothing is repeated for ever. -/
theorem not_returns_of_fixed (h : body s = .inl s) : ¬ Returns body s r := by
  rintro ⟨n, hn⟩
  induction n with
  | zero => simp [loop] at hn
  | succ n ih => exact ih (by simpa [loop, h] using hn)

end

end Anarch.TransitionRun
