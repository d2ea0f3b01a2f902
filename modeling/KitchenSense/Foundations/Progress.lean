import Mathlib.Algebra.BigOperators.Group.Finset.Basic
import Mathlib.Algebra.Order.BigOperators.Group.Finset
import Mathlib.Logic.Function.Basic
import KitchenSense.Foundations.Runs

/-! # Calls that come to their ends

A system serves calls. The rank of a call bounds the steps that it still takes,
and is zero before it begins and after it has ended. Where a step of a call that
has begun lowers its rank and no step raises it before the call has ended, the
call takes no more steps than its rank, whatever other calls begin. Where besides
some call can go on while a rank is not zero, all calls come to their ends.
-/

namespace KitchenSense

variable {σ α ι : Type*} {step : σ → α → Option σ} {own : σ → α → Option ι} {rank : σ → ι → ℕ}
  {I : σ → Prop}

section Holders

variable {κ : Type*} {holder : κ → Option ι} {holds holds' : ι → κ → Prop} {i : ι} {k : κ}

def Holders (holder : κ → Option ι) (holds : ι → κ → Prop) : Prop :=
  ∀ k j, holder k = some j → holds j k

theorem Holders.keep (h : Holders holder holds) (hi : ∀ k, ¬ holds i k)
    (hj : ∀ j k, j ≠ i → holds j k → holds' j k) : Holders holder holds' := by
  intro k j hk
  have hold := h k j hk
  exact hj j k (by rintro rfl; exact hi k hold) hold

variable [DecidableEq κ]

theorem Holders.take (h : Holders holder holds) (hi : ∀ k, ¬ holds i k)
    (hj : ∀ j k, j ≠ i → holds j k → holds' j k) (hk : holds' i k) :
    Holders (Function.update holder k (some i)) holds' := by
  intro k' j hk'
  by_cases he : k' = k
  · subst he
    rw [Function.update_self] at hk'
    cases hk'
    exact hk
  · rw [Function.update_of_ne he] at hk'
    exact h.keep hi hj k' j hk'

theorem Holders.release (h : Holders holder holds) (hi : ∀ k', holds i k' → k' = k)
    (hj : ∀ j k, j ≠ i → holds j k → holds' j k) :
    Holders (Function.update holder k none) holds' := by
  intro k' j hk'
  have hne : k' ≠ k := by
    rintro rfl
    rw [Function.update_self] at hk'
    cases hk'
  rw [Function.update_of_ne hne] at hk'
  have hold := h k' j hk'
  exact hj j k' (by rintro rfl; exact hne (hi k' hold)) hold

end Holders

def ownSteps [DecidableEq ι] (step : σ → α → Option σ) (own : σ → α → Option ι) (i : ι) :
    σ → List α → ℕ
  | _, [] => 0
  | s, a :: as => (if own s a = some i then 1 else 0) +
      (step s a).elim 0 fun s' => ownSteps step own i s' as

def Draining (own : σ → α → Option ι) (s : σ) (a : α) : Prop := own s a ≠ none

structure Settles [DecidableEq ι] (step : σ → α → Option σ) (own : σ → α → Option ι)
    (rank : σ → ι → ℕ) (s : σ) : Prop where
  nearer : ∀ i a s', step s a = some s' → own s a = some i → rank s' i < rank s i
  steady : ∀ i a s', step s a = some s' → rank s i ≠ 0 → rank s' i ≤ rank s i
  /-- Until a call ends it takes no more steps of its own than its rank, whatever calls begin. -/
  bounded : ∀ i as s', exec step s as = some s' → Throughout step (fun t _ => rank t i ≠ 0) s as →
    ownSteps step own i s as + rank s' i ≤ rank s i
  /-- All calls can be brought to their ends. -/
  finish : ∃ as s', Throughout step (Draining own) s as ∧ exec step s as = some s' ∧
    ∀ i, rank s' i = 0
  /-- Without new calls every run is finite, and one that cannot go on has brought all to their
  ends. -/
  drains : ∃ n, ∀ as s', Throughout step (Draining own) s as → exec step s as = some s' →
    as.length ≤ n ∧ ((∀ a, Draining own s' a → step s' a = none) → ∀ i, rank s' i = 0)

/-- How a step takes a call from rank `r` to rank `r'`: nearer to its end if the step is its own,
and else away from it only if the call begins. -/
def Nears (own : Option ι) (i : ι) (r r' : ℕ) : Prop :=
  own = some i ∧ r' < r ∨ own = none ∧ (r = 0 ∨ r' ≤ r)

theorem Nears.of_lt {i : ι} {r r' : ℕ} (h : r' < r) : Nears (some i) i r r' := .inl ⟨rfl, h⟩

theorem Nears.of_zero {i : ι} {r' : ℕ} : Nears none i 0 r' := .inr ⟨rfl, .inl rfl⟩

theorem Nears.refl {i : ι} {r : ℕ} : Nears none i r r := .inr ⟨rfl, .inr le_rfl⟩

/-- The ranks of a system fall with the steps of the calls that have begun. -/
structure Progress (step : σ → α → Option σ) (own : σ → α → Option ι) (rank : σ → ι → ℕ)
    (I : σ → Prop) : Prop where
  keeps : ∀ {s a s'}, I s → step s a = some s' → I s'
  /-- An action concerns one call, and takes no other away from its end. -/
  turns : ∀ {s a s'}, I s → step s a = some s' →
    ∃ i, Nears (own s a) i (rank s i) (rank s' i) ∧ ∀ j, j ≠ i → rank s' j ≤ rank s j
  /-- While a call has not ended, one that has begun can go on. -/
  continues : ∀ {s i}, I s → rank s i ≠ 0 → ∃ a s', Draining own s a ∧ step s a = some s'

namespace Progress

variable (hp : Progress step own rank I)
include hp

theorem nearer {s s' : σ} {a : α} {i : ι} (hs : I s) (h : step s a = some s')
    (ho : own s a = some i) : rank s' i < rank s i := by
  obtain ⟨j, ⟨hj, hlt⟩ | ⟨hj, -⟩, -⟩ := hp.turns hs h
  · cases ho.symm.trans hj
    exact hlt
  · cases ho.symm.trans hj

theorem steady {s s' : σ} {a : α} {i : ι} (hs : I s) (h : step s a = some s')
    (hr : rank s i ≠ 0) : rank s' i ≤ rank s i := by
  obtain ⟨j, hj, hle⟩ := hp.turns hs h
  by_cases hij : i = j
  · subst hij
    rcases hj with ⟨-, hlt⟩ | ⟨-, hz | hle⟩
    · exact hlt.le
    · exact absurd hz hr
    · exact hle
  · exact hle i hij

theorem descends {s s' : σ} {a : α} (hs : I s) (ha : Draining own s a) (h : step s a = some s') :
    (∃ i, rank s' i < rank s i) ∧ ∀ i, rank s' i ≤ rank s i := by
  obtain ⟨i, ⟨-, hlt⟩ | ⟨hn, -⟩, hle⟩ := hp.turns hs h
  · refine ⟨⟨i, hlt⟩, fun j => ?_⟩
    by_cases hj : j = i
    · rw [hj]
      exact hlt.le
    · exact hle j hj
  · exact absurd hn ha

variable [DecidableEq ι]

theorem ownSteps_add_rank_le {s s' : σ} {as : List α} {i : ι} (hs : I s)
    (h : exec step s as = some s') (hi : Throughout step (fun t _ => rank t i ≠ 0) s as) :
    ownSteps step own i s as + rank s' i ≤ rank s i := by
  induction as generalizing s with
  | nil => cases h; simp [ownSteps]
  | cons a as ih =>
    obtain ⟨s₁, h₁, h⟩ := Option.bind_eq_some_iff.mp h
    obtain ⟨hr, hi⟩ := (throughout_cons h₁).mp hi
    have hrest := ih (hp.keeps hs h₁) h hi
    rw [ownSteps, h₁, Option.elim_some]
    split
    next ho =>
      have hlt := hp.nearer hs h₁ ho
      omega
    next =>
      have hle := hp.steady hs h₁ hr
      omega

/-- The steps of the calls that have begun use up their ranks. -/
theorem length_add_sum_le {s s' : σ} {as : List α} {calls : Finset ι} (hs : I s)
    (hcalls : ∀ i ∉ calls, rank s i = 0) (has : Throughout step (Draining own) s as)
    (h : exec step s as = some s') :
    I s' ∧ as.length + ∑ i ∈ calls, rank s' i ≤ ∑ i ∈ calls, rank s i := by
  induction as generalizing s with
  | nil => cases h; exact ⟨hs, by simp⟩
  | cons a as ih =>
    obtain ⟨s₁, h₁, h⟩ := Option.bind_eq_some_iff.mp h
    obtain ⟨ha, has⟩ := (throughout_cons h₁).mp has
    obtain ⟨⟨i, hi⟩, hle⟩ := hp.descends hs ha h₁
    have hmem : i ∈ calls := by
      by_contra hn
      rw [hcalls i hn] at hi
      exact Nat.not_lt_zero _ hi
    have hlt : ∑ i ∈ calls, rank s₁ i < ∑ i ∈ calls, rank s i :=
      Finset.sum_lt_sum (fun j _ => hle j) ⟨i, hmem, hi⟩
    have hrest : ∀ j ∉ calls, rank s₁ j = 0 := fun j hj =>
      Nat.le_zero.mp ((hle j).trans (hcalls j hj).le)
    obtain ⟨hs', hsum⟩ := ih (hp.keeps hs h₁) hrest has h
    refine ⟨hs', ?_⟩
    rw [List.length_cons]
    omega

/-- In every run all but finitely many calls have ended or not begun. -/
theorem exists_calls {s₀ s : σ} (h₀ : I s₀) (hz : ∀ i, rank s₀ i = 0)
    (h : Reachable step s₀ s) : I s ∧ ∃ calls : Finset ι, ∀ i ∉ calls, rank s i = 0 := by
  refine h.invariant (I := fun s => I s ∧ ∃ calls : Finset ι, ∀ i ∉ calls, rank s i = 0)
    ⟨h₀, ∅, fun i _ => hz i⟩ ?_
  rintro s a s' ⟨hs, calls, hcalls⟩ - hstep
  obtain ⟨i, -, hi⟩ := hp.turns hs hstep
  refine ⟨hp.keeps hs hstep, insert i calls, fun j hj => ?_⟩
  rw [Finset.mem_insert, not_or] at hj
  exact Nat.le_zero.mp ((hi j hj.1).trans (hcalls j hj.2).le)

theorem exists_finish {s : σ} {calls : Finset ι} (hs : I s)
    (hcalls : ∀ i ∉ calls, rank s i = 0) : ∃ as s', Throughout step (Draining own) s as ∧
      exec step s as = some s' ∧ ∀ i, rank s' i = 0 := by
  induction hn : ∑ i ∈ calls, rank s i using Nat.strong_induction_on generalizing s with
  | _ n ih =>
    by_cases hz : ∀ i, rank s i = 0
    · exact ⟨[], s, trivial, rfl, hz⟩
    · push Not at hz
      obtain ⟨i, hi⟩ := hz
      obtain ⟨a, s₁, ha, h₁⟩ := hp.continues hs hi
      have hone : exec step s [a] = some s₁ := by rw [exec, h₁]; rfl
      have hown : Throughout step (Draining own) s [a] := ⟨ha, fun _ _ => trivial⟩
      obtain ⟨hs₁, hsum⟩ := hp.length_add_sum_le hs hcalls hown hone
      have hrest : ∀ j ∉ calls, rank s₁ j = 0 := fun j hj =>
        Nat.le_zero.mp (((hp.descends hs ha h₁).2 j).trans (hcalls j hj).le)
      rw [List.length_singleton] at hsum
      obtain ⟨as, s', has, he, hz⟩ := ih _ (by omega) hs₁ hrest rfl
      exact ⟨a :: as, s', (throughout_cons h₁).mpr ⟨ha, has⟩, exec_cons h₁ he, hz⟩

/-- From every state of a run the calls that have begun come to their ends. -/
theorem settles {s₀ s : σ} (h₀ : I s₀) (hz : ∀ i, rank s₀ i = 0) (h : Reachable step s₀ s) :
    Settles step own rank s := by
  obtain ⟨hs, calls, hcalls⟩ := hp.exists_calls h₀ hz h
  refine ⟨fun i a s' => hp.nearer hs, fun i a s' => hp.steady hs,
    fun i as s' => hp.ownSteps_add_rank_le hs, hp.exists_finish hs hcalls,
    ∑ i ∈ calls, rank s i, fun as s' has h' => ?_⟩
  obtain ⟨hs', hsum⟩ := hp.length_add_sum_le hs hcalls has h'
  refine ⟨(Nat.le_add_right ..).trans hsum, fun hquiet i => ?_⟩
  by_contra hi
  obtain ⟨a, s'', ha, hstep⟩ := hp.continues hs' hi
  rw [hquiet a ha] at hstep
  cases hstep

end Progress

end KitchenSense
