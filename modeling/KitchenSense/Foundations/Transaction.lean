import Mathlib.Logic.Basic

/-! # Transactions

A transaction is a state-passing computation that may fail. A failure carries
no state: whatever was written before it is rolled back. The rules here run a
transaction forwards and compare two runs of it from related states.
-/

namespace KitchenSense

abbrev Transaction (σ ε : Type) := StateT σ (Except ε)

namespace Transaction

variable {σ ε α β γ : Type} {s s' : σ}

theorem bind_of_ok {x : Transaction σ ε α} {f : α → Transaction σ ε β} {a : α}
    (h : x s = .ok (a, s')) : (x >>= f) s = f a s' := by
  simp only [bind, StateT.bind, h, Except.bind]

theorem bind_of_error {x : Transaction σ ε α} {f : α → Transaction σ ε β} {e : ε}
    (h : x s = .error e) : (x >>= f) s = .error e := by
  simp only [bind, StateT.bind, h, Except.bind]

theorem bind_eq_ok {x : Transaction σ ε α} {f : α → Transaction σ ε β} {b : β × σ} :
    (x >>= f) s = .ok b ↔ ∃ a s', x s = .ok (a, s') ∧ f a s' = .ok b := by
  constructor
  · intro h
    cases hx : x s with
    | error e => rw [bind_of_error hx] at h; cases h
    | ok p => exact ⟨p.1, p.2, rfl, by rwa [bind_of_ok hx] at h⟩
  · rintro ⟨a, s', hx, hf⟩
    rw [bind_of_ok hx, hf]

theorem get_bind (f : σ → Transaction σ ε β) (s : σ) : (get >>= f) s = f s s := rfl

theorem getThe_bind (f : σ → Transaction σ ε β) (s : σ) : (getThe σ >>= f) s = f s s := rfl

@[simp] theorem pure_apply (a : α) (s : σ) : (pure a : Transaction σ ε α) s = .ok (a, s) := rfl

@[simp] theorem throw_apply (e : ε) (s : σ) : (throw e : Transaction σ ε α) s = .error e := rfl

/-- The state a transaction commits: the one it produces, or the old one when it fails. -/
def commit (x : Transaction σ ε α) (s : σ) : σ :=
  match x s with
  | .ok (_, s') => s'
  | .error _ => s

theorem commit_of_ok {x : Transaction σ ε α} {a : α} (h : x s = .ok (a, s')) :
    x.commit s = s' := by
  rw [commit, h]

theorem commit_of_error {x : Transaction σ ε α} {e : ε} (h : x s = .error e) :
    x.commit s = s := by
  rw [commit, h]

/-- A transaction that keeps a property of the state when it succeeds. -/
def Preserves (P : σ → Prop) (x : Transaction σ ε α) : Prop :=
  ∀ s a s', P s → x s = .ok (a, s') → P s'

namespace Preserves

variable {P : σ → Prop}

theorem pure (a : α) : Preserves P (pure a : Transaction σ ε α) := by
  rintro s _ _ h ⟨⟩; exact h

theorem throw (e : ε) : Preserves P (throw e : Transaction σ ε α) := by
  rintro s _ _ - ⟨⟩

theorem get : Preserves P (get : Transaction σ ε σ) := by
  rintro s _ _ h ⟨⟩; exact h

theorem bind {x : Transaction σ ε α} {f : α → Transaction σ ε β} (hx : Preserves P x)
    (hf : ∀ a, Preserves P (f a)) : Preserves P (x >>= f) := by
  intro s b s' h hb
  obtain ⟨a, s₁, hx₁, hf₁⟩ := bind_eq_ok.mp hb
  exact hf a s₁ b s' (hx s a s₁ h hx₁) hf₁

theorem forM {ι : Type} {f : ι → Transaction σ ε PUnit} {is : List ι}
    (hf : ∀ i ∈ is, Preserves P (f i)) : Preserves P (forM is f) := by
  induction is with
  | nil => exact pure _
  | cons i is ih =>
    obtain ⟨hi, his⟩ := List.forall_mem_cons.mp hf
    rw [List.forM_cons]
    exact hi.bind fun _ => ih his

theorem commit {x : Transaction σ ε α} (h : Preserves P x) (hs : P s) : P (x.commit s) := by
  cases hx : x s with
  | error e => rwa [commit_of_error hx]
  | ok p => rw [commit_of_ok hx]; exact h s _ _ hs hx

end Preserves

def answer (x : Transaction σ ε α) (s : σ) : Except ε α := (x s).map Prod.fst

theorem answer_of_ok {x : Transaction σ ε α} {a : α} (h : x s = .ok (a, s')) :
    x.answer s = .ok a := by
  rw [answer, h]; rfl

theorem answer_of_error {x : Transaction σ ε α} {e : ε} (h : x s = .error e) :
    x.answer s = .error e := by
  rw [answer, h]; rfl

/-- Two outcomes that answer alike and leave related states, or fail alike. -/
def Agree (R : σ → σ → Prop) (r r' : Except ε (α × σ)) : Prop :=
  (∃ e, r = .error e ∧ r' = .error e) ∨ ∃ a s s', r = .ok (a, s) ∧ r' = .ok (a, s') ∧ R s s'

namespace Agree

variable {R : σ → σ → Prop}

theorem ok (a : α) (h : R s s') : Agree (ε := ε) R (.ok (a, s)) (.ok (a, s')) :=
  .inr ⟨a, s, s', rfl, rfl, h⟩

theorem error (e : ε) : Agree (α := α) R (.error e) (.error e) := .inl ⟨e, rfl, rfl⟩

theorem bind {x x' : Transaction σ ε α} {f f' : α → Transaction σ ε β}
    (hx : Agree R (x s) (x' s')) (hf : ∀ a t t', R t t' → Agree R (f a t) (f' a t')) :
    Agree R ((x >>= f) s) ((x' >>= f') s') := by
  rcases hx with ⟨e, h, h'⟩ | ⟨a, t, t', h, h', hR⟩
  · rw [bind_of_error h, bind_of_error h']
    exact .error e
  · rw [bind_of_ok h, bind_of_ok h']
    exact hf a t t' hR

theorem forM {ι : Type} {f : ι → Transaction σ ε PUnit} {is : List ι}
    (hf : ∀ i ∈ is, ∀ t t', R t t' → Agree R (f i t) (f i t')) (h : R s s') :
    Agree R (forM is f s) (forM is f s') := by
  induction is generalizing s s' with
  | nil => exact .ok _ h
  | cons i is ih =>
    obtain ⟨hi, his⟩ := List.forall_mem_cons.mp hf
    rw [List.forM_cons]
    exact (hi s s' h).bind fun _ _ _ ht => ih his ht

theorem commit {x x' : Transaction σ ε α} (hx : Agree R (x s) (x' s')) (h : R s s') :
    R (x.commit s) (x'.commit s') := by
  rcases hx with ⟨e, hs, hs'⟩ | ⟨a, t, t', hs, hs', hR⟩
  · rwa [commit_of_error hs, commit_of_error hs']
  · rwa [commit_of_ok hs, commit_of_ok hs']

theorem answer {x x' : Transaction σ ε α} (hx : Agree R (x s) (x' s')) :
    x.answer s = x'.answer s' := by
  rcases hx with ⟨e, hs, hs'⟩ | ⟨a, t, t', hs, hs', -⟩
  · rw [answer_of_error hs, answer_of_error hs']
  · rw [answer_of_ok hs, answer_of_ok hs']

end Agree

end Transaction

end KitchenSense
