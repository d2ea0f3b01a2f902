import Mathlib.Algebra.Group.WithOne.Defs
import Mathlib.Algebra.Group.Pi.Lemmas
import Mathlib.Algebra.BigOperators.Group.List.Basic
import Mathlib.Algebra.BigOperators.Group.Finset.Basic
import Mathlib.Data.List.Sort

/-! # Ledgers

A ledger keeps one total for each key, or none. Totals live in a commutative
semigroup, so ledgers form a commutative monoid under pointwise addition, and
the ledger of a collection of postings does not depend on their order.
-/

namespace KitchenSense

variable {κ σ : Type*}

abbrev Ledger (κ σ : Type*) := κ → WithZero σ

section Posting

variable [DecidableEq κ]

def posting (k : κ) (v : σ) : Ledger κ σ := Pi.single k (v : WithZero σ)

@[simp] theorem posting_same (k : κ) (v : σ) : posting k v k = v := Pi.single_eq_same ..

@[simp] theorem posting_of_ne {k k' : κ} (h : k' ≠ k) (v : σ) : posting k v k' = 0 :=
  Pi.single_eq_of_ne h _

variable [AddCommSemigroup σ]

def ledgerOf (es : List (κ × σ)) : Ledger κ σ := (es.map fun e => posting e.1 e.2).sum

theorem posting_add (k : κ) (v w : σ) : posting k (v + w) = posting k v + posting k w := by
  simp [posting, Pi.single_add]

@[simp] theorem ledgerOf_nil : ledgerOf ([] : List (κ × σ)) = 0 := rfl

@[simp] theorem ledgerOf_cons (e : κ × σ) (es : List (κ × σ)) :
    ledgerOf (e :: es) = posting e.1 e.2 + ledgerOf es := by simp [ledgerOf]

@[simp] theorem ledgerOf_append (es fs : List (κ × σ)) :
    ledgerOf (es ++ fs) = ledgerOf es + ledgerOf fs := by simp [ledgerOf]

theorem ledgerOf_perm {es fs : List (κ × σ)} (h : es.Perm fs) : ledgerOf es = ledgerOf fs :=
  (h.map _).sum_eq

theorem withZero_add_eq_zero {a b : WithZero σ} : a + b = 0 ↔ a = 0 ∧ b = 0 := by
  cases a <;> cases b <;> simp [← WithZero.coe_add]

/-- A ledger has a total exactly for the keys of its postings. -/
theorem ledgerOf_eq_zero_iff {es : List (κ × σ)} {k : κ} :
    ledgerOf es k = 0 ↔ ∀ e ∈ es, e.1 ≠ k := by
  induction es with
  | nil => simp
  | cons e es ih =>
    rw [ledgerOf_cons, Pi.add_apply, withZero_add_eq_zero, ih, List.forall_mem_cons]
    by_cases h : e.1 = k
    · subst h; simp
    · simp [h, posting_of_ne (Ne.symm h)]

/-- A property of the amounts that sums keep is a property of the totals. -/
theorem ledgerOf_induction {P : κ → σ → Prop} (hadd : ∀ k a b, P k a → P k b → P k (a + b))
    {es : List (κ × σ)} (h : ∀ e ∈ es, P e.1 e.2) {k : κ} {v : σ} (hv : ledgerOf es k = v) :
    P k v := by
  induction es generalizing v with
  | nil => exact absurd hv.symm (WithZero.coe_ne_zero)
  | cons e es ih =>
    obtain ⟨he, hes⟩ := List.forall_mem_cons.mp h
    rw [ledgerOf_cons, Pi.add_apply] at hv
    by_cases hk : e.1 = k
    · subst hk
      rw [posting_same] at hv
      cases hz : ledgerOf es e.1 with
      | zero =>
        rw [hz, add_zero, WithZero.coe_inj] at hv
        exact hv ▸ he
      | coe w =>
        rw [hz, ← WithZero.coe_add, WithZero.coe_inj] at hv
        exact hv ▸ hadd _ _ _ he (ih hes hz)
    · rw [posting_of_ne (Ne.symm hk), zero_add] at hv
      exact ih hes hv

theorem ledgerOf_eq_coe_iff {es : List (κ × σ)} (hn : (es.map Prod.fst).Nodup) {k : κ} {v : σ} :
    ledgerOf es k = v ↔ (k, v) ∈ es := by
  induction es with
  | nil => simp
  | cons e es ih =>
    rw [List.map_cons, List.nodup_cons] at hn
    rw [ledgerOf_cons, Pi.add_apply, List.mem_cons]
    by_cases h : e.1 = k
    · subst h
      have hz : ledgerOf es e.1 = 0 :=
        ledgerOf_eq_zero_iff.mpr fun f hf he => hn.1 (he ▸ List.mem_map_of_mem hf)
      have hm : (e.1, v) ∉ es := fun hm => hn.1 (List.mem_map.mpr ⟨_, hm, rfl⟩)
      rw [hz, posting_same, add_zero, WithZero.coe_inj]
      constructor
      · rintro rfl; exact .inl rfl
      · rintro (h | h)
        · rw [← h]
        · exact absurd h hm
    · rw [posting_of_ne (Ne.symm h), zero_add, ih hn.2]
      exact ⟨.inr, fun hm => hm.resolve_left fun he => h (he ▸ rfl)⟩

/-- Two listings with distinct keys and the same ledger are permutations of each other. -/
theorem perm_of_ledgerOf_eq {es fs : List (κ × σ)} (he : (es.map Prod.fst).Nodup)
    (hf : (fs.map Prod.fst).Nodup) (h : ledgerOf es = ledgerOf fs) : es.Perm fs := by
  rw [List.perm_ext_iff_of_nodup he.of_map hf.of_map]
  rintro ⟨k, v⟩
  rw [← ledgerOf_eq_coe_iff he, ← ledgerOf_eq_coe_iff hf, h]

theorem ledgerOf_filter (P : κ → Prop) [DecidablePred P] (es : List (κ × σ)) (k : κ) :
    ledgerOf (es.filter fun e => P e.1) k = if P k then ledgerOf es k else 0 := by
  induction es with
  | nil => simp
  | cons e es ih =>
    rw [List.filter_cons, ledgerOf_cons, Pi.add_apply]
    by_cases hk : k = e.1
    · subst hk
      split <;> simp_all
    · rw [posting_of_ne hk, zero_add, ← ih]
      split
      · rw [ledgerOf_cons, Pi.add_apply, posting_of_ne hk, zero_add]
      · rfl

end Posting

section Value

variable {M : Type*} [AddCommMonoid M] {f : κ → σ → M} {L : Ledger κ σ} {k : κ}

def valueAt (f : κ → σ → M) (L : Ledger κ σ) (k : κ) : M := Option.elim (L k) 0 (f k)

theorem valueAt_of_eq_zero (h : L k = 0) : valueAt f L k = 0 := by
  rw [valueAt, h]
  rfl

theorem valueAt_of_eq_coe {v : σ} (h : L k = v) : valueAt f L k = f k v := by
  rw [valueAt, h]
  rfl

variable [AddCommSemigroup σ]

theorem valueAt_add (hf : ∀ k a b, f k (a + b) = f k a + f k b) (L L' : Ledger κ σ) (k : κ) :
    valueAt f (L + L') k = valueAt f L k + valueAt f L' k := by
  unfold valueAt
  rw [Pi.add_apply]
  cases L k with
  | zero => rw [zero_add]; exact (zero_add _).symm
  | coe v =>
    cases L' k with
    | zero => rw [add_zero]; exact (add_zero _).symm
    | coe w => exact hf k v w

variable [DecidableEq κ]

theorem sum_valueAt (hf : ∀ k a b, f k (a + b) = f k a + f k b) {es : List (κ × σ)}
    {S : Finset κ} (hS : ∀ e ∈ es, e.1 ∈ S) :
    ∑ k ∈ S, valueAt f (ledgerOf es) k = (es.map fun e => f e.1 e.2).sum := by
  induction es with
  | nil => exact Finset.sum_eq_zero fun k _ => valueAt_of_eq_zero rfl
  | cons e es ih =>
    obtain ⟨he, hes⟩ := List.forall_mem_cons.mp hS
    have hone : ∑ k ∈ S, valueAt f (posting e.1 e.2) k = f e.1 e.2 := by
      rw [Finset.sum_eq_single_of_mem e.1 he fun k _ hk => valueAt_of_eq_zero (posting_of_ne hk _)]
      exact valueAt_of_eq_coe (posting_same ..)
    simp only [ledgerOf_cons, valueAt_add hf, Finset.sum_add_distrib, hone, ih hes, List.map_cons,
      List.sum_cons]

theorem sum_eq_of_ledgerOf_eq (hf : ∀ k a b, f k (a + b) = f k a + f k b) {es fs : List (κ × σ)}
    (h : ledgerOf es = ledgerOf fs) :
    (es.map fun e => f e.1 e.2).sum = (fs.map fun e => f e.1 e.2).sum := by
  have hl : ∀ e ∈ es, e.1 ∈ ((es ++ fs).map Prod.fst).toFinset := fun e he =>
    List.mem_toFinset.mpr (List.mem_map_of_mem (List.mem_append_left _ he))
  have hr : ∀ e ∈ fs, e.1 ∈ ((es ++ fs).map Prod.fst).toFinset := fun e he =>
    List.mem_toFinset.mpr (List.mem_map_of_mem (List.mem_append_right _ he))
  rw [← sum_valueAt hf hl, ← sum_valueAt hf hr, h]

end Value

section Sorted

variable {ι : Type*} [LinearOrder ι]

def Ascending {τ : Type*} (rank : τ → ι) (l : List τ) : Prop :=
  l.Pairwise fun a b => rank a < rank b

theorem Ascending.eq_of_perm {τ : Type*} {rank : τ → ι} {l l' : List τ} (h : Ascending rank l)
    (h' : Ascending rank l') (hp : l.Perm l') : l = l' :=
  hp.eq_of_pairwise (fun _ _ _ _ hab hba => absurd hab hba.asymm) h h'

theorem Ascending.nodup_map {τ : Type*} {rank : τ → ι} {l : List τ} (h : Ascending rank l) :
    (l.map rank).Nodup :=
  List.pairwise_map.mpr (List.Pairwise.imp ne_of_lt h)

theorem ascending_insertionSort {τ : Type*} (rank : τ → ι) {l : List τ}
    (hn : (l.map rank).Nodup) :
    Ascending rank (l.insertionSort fun a b => rank a ≤ rank b) := by
  have hs : (l.insertionSort fun a b => rank a ≤ rank b).Pairwise fun a b => rank a ≤ rank b :=
    List.pairwise_insertionSort (fun a b => rank a ≤ rank b) l
  have hd : ((l.insertionSort fun a b => rank a ≤ rank b).map rank).Nodup :=
    ((List.perm_insertionSort _ l).map rank).nodup_iff.mpr hn
  exact (hs.and (List.pairwise_map.mp hd)).imp fun h => lt_of_le_of_ne h.1 h.2

end Sorted

end KitchenSense
