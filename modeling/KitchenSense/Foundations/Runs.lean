import Mathlib.Logic.Relation
import Mathlib.Data.Option.Basic

/-! # Runs of a transition system

A transition system is a partial step function. `Reach step ok s` collects the
states that follow `s` by enabled actions each of which meets the condition
`ok` in the state where it is taken; `exec` executes a given list of actions.
-/

namespace KitchenSense

variable {σ α : Type*} {step : σ → α → Option σ} {ok ok' : σ → α → Prop}

/-- The states reached from the first one when every action taken meets `ok`. -/
inductive Reach (step : σ → α → Option σ) (ok : σ → α → Prop) (s₀ : σ) : σ → Prop where
  | refl : Reach step ok s₀ s₀
  | tail {s s' : σ} {a : α} : Reach step ok s₀ s → ok s a → step s a = some s' →
      Reach step ok s₀ s'

def unrestricted (_ : σ) (_ : α) : Prop := True

abbrev Reachable (step : σ → α → Option σ) (s₀ : σ) : σ → Prop := Reach step unrestricted s₀

namespace Reach

/-- A property of the first state kept by every admitted action holds in every state reached. -/
theorem invariant {I : σ → Prop} {s₀ s : σ} (h : Reach step ok s₀ s) (h₀ : I s₀)
    (hstep : ∀ s a s', I s → ok s a → step s a = some s' → I s') : I s := by
  induction h with
  | refl => exact h₀
  | tail _ ha hs ih => exact hstep _ _ _ ih ha hs

theorem mono {s₀ s : σ} (hok : ∀ s a, ok s a → ok' s a) (h : Reach step ok s₀ s) :
    Reach step ok' s₀ s := by
  induction h with
  | refl => exact .refl
  | tail _ ha hs ih => exact .tail ih (hok _ _ ha) hs

theorem reachable {s₀ s : σ} (h : Reach step ok s₀ s) : Reachable step s₀ s :=
  h.mono fun _ _ _ => trivial

theorem trans {s₀ s₁ s₂ : σ} (h : Reach step ok s₀ s₁) (h' : Reach step ok s₁ s₂) :
    Reach step ok s₀ s₂ := by
  induction h' with
  | refl => exact h
  | tail _ ha hs ih => exact .tail ih ha hs

/-- A relation between the first state and the later ones kept by every admitted action. -/
theorem related {R : σ → σ → Prop} {s₀ s : σ} (h : Reach step ok s₀ s) (h₀ : R s₀ s₀)
    (hstep : ∀ s a s', R s₀ s → ok s a → step s a = some s' → R s₀ s') : R s₀ s :=
  h.invariant (I := R s₀) h₀ hstep

end Reach

/-- Execute actions in order; `none` if one of them is not enabled. -/
def exec (step : σ → α → Option σ) : σ → List α → Option σ
  | s, [] => some s
  | s, a :: as => (step s a).bind fun s' => exec step s' as

theorem exec_nil (s : σ) : exec step s [] = some s := rfl

theorem exec_cons {s s' s'' : σ} {a : α} {as : List α} (h : step s a = some s')
    (h' : exec step s' as = some s'') : exec step s (a :: as) = some s'' := by
  rw [exec, h, Option.bind_some, h']

/-- The step function that also refuses the actions that do not meet a condition. -/
def guarded (step : σ → α → Option σ) (ok : σ → α → Prop) [∀ s a, Decidable (ok s a)]
    (s : σ) (a : α) : Option σ :=
  if ok s a then step s a else none

theorem Reach.of_exec [∀ s a, Decidable (ok s a)] {s₀ s : σ} {as : List α}
    (h : exec (guarded step ok) s₀ as = some s) : Reach step ok s₀ s := by
  suffices ∀ s₁, Reach step ok s₀ s₁ → exec (guarded step ok) s₁ as = some s →
      Reach step ok s₀ s from this s₀ .refl h
  clear h
  induction as with
  | nil => rintro s₁ h₁ ⟨⟩; exact h₁
  | cons a as ih =>
    intro s₁ h₁ he
    obtain ⟨s₂, hs, he⟩ := Option.bind_eq_some_iff.mp he
    rw [guarded, Option.ite_none_right_eq_some] at hs
    exact ih s₂ (h₁.tail hs.1 hs.2) he

theorem exec_of_guarded [∀ s a, Decidable (ok s a)] {s s' : σ} {as : List α}
    (h : exec (guarded step ok) s as = some s') : exec step s as = some s' := by
  induction as generalizing s with
  | nil => exact h
  | cons a as ih =>
    obtain ⟨s₁, hs, he⟩ := Option.bind_eq_some_iff.mp h
    rw [guarded, Option.ite_none_right_eq_some] at hs
    exact exec_cons hs.2 (ih he)

/-- Every action of a run meets `ok` in the state where it is taken. -/
def Throughout (step : σ → α → Option σ) (ok : σ → α → Prop) : σ → List α → Prop
  | _, [] => True
  | s, a :: as => ok s a ∧ ∀ s', step s a = some s' → Throughout step ok s' as

theorem throughout_cons {s s' : σ} {a : α} {as : List α} (h : step s a = some s') :
    Throughout step ok s (a :: as) ↔ ok s a ∧ Throughout step ok s' as := by
  simp [Throughout, h]

/-- If in every state an action keeps `P` exactly when it meets `ok`, then `P` holds all along a run
exactly when all its actions meet `ok`. -/
theorem throughout_iff_forall_take {I P : σ → Prop}
    (hI : ∀ s a s', I s → step s a = some s' → I s')
    (hP : ∀ s a s', I s → P s → step s a = some s' → (P s' ↔ ok s a)) {s s' : σ} {as : List α}
    (hs : I s) (hp : P s) (he : exec step s as = some s') :
    Throughout step ok s as ↔ ∀ n t, exec step s (as.take n) = some t → P t := by
  induction as generalizing s with
  | nil =>
    refine ⟨fun _ n t ht => ?_, fun _ => trivial⟩
    rw [List.take_nil] at ht
    cases ht
    exact hp
  | cons a as ih =>
    obtain ⟨s₁, h₁, he⟩ := Option.bind_eq_some_iff.mp he
    rw [throughout_cons h₁, ← hP s a s₁ hs hp h₁]
    constructor
    · rintro ⟨hp₁, hrest⟩ n t ht
      cases n with
      | zero => cases ht; exact hp
      | succ n =>
        rw [List.take_succ_cons, exec, h₁] at ht
        exact (ih (hI s a s₁ hs h₁) hp₁ he).mp hrest n t ht
    · intro h
      have hp₁ : P s₁ := h 1 s₁ (by rw [List.take_succ_cons, List.take_zero, exec, h₁]; rfl)
      refine ⟨hp₁, (ih (hI s a s₁ hs h₁) hp₁ he).mpr fun n t ht => h (n + 1) t ?_⟩
      rw [List.take_succ_cons, exec, h₁]
      exact ht

instance (s : σ) (a : α) : Decidable (unrestricted s a) := inferInstanceAs (Decidable True)

/-- A relation between two runs, the second of which takes only the actions that are kept. -/
structure Erases (step : σ → α → Option σ) (keep : α → Bool) (R : σ → σ → Prop) : Prop where
  kept : ∀ s t a s', R s t → keep a = true → step s a = some s' →
    ∃ t', step t a = some t' ∧ R s' t'
  erased : ∀ s t a s', R s t → keep a = false → step s a = some s' → R s' t

/-- Without the actions that are not kept a run goes on to a related state. -/
theorem Erases.exec_filter {keep : α → Bool} {R : σ → σ → Prop} (h : Erases step keep R)
    {s s' t : σ} {as : List α} (hr : R s t) (he : exec step s as = some s') :
    ∃ t', exec step t (as.filter keep) = some t' ∧ R s' t' := by
  induction as generalizing s t with
  | nil => cases he; exact ⟨t, rfl, hr⟩
  | cons a as ih =>
    obtain ⟨s₁, hs, he⟩ := Option.bind_eq_some_iff.mp he
    cases hk : keep a with
    | true =>
      obtain ⟨t₁, ht, hr₁⟩ := h.kept s t a s₁ hr hk hs
      obtain ⟨t', he', hr'⟩ := ih hr₁ he
      rw [List.filter_cons_of_pos hk]
      exact ⟨t', exec_cons ht he', hr'⟩
    | false =>
      rw [List.filter_cons_of_neg (by simp [hk])]
      exact ih (h.erased s t a s₁ hr hk hs) he

end KitchenSense
