import Mathlib.Data.List.Induction
import Mathlib.Data.List.Nodup

/-! # Insertion-ordered dictionaries

A dictionary lists its entries in the order in which their keys were first
set. Setting a key that is present replaces its value in place.
-/

namespace KitchenSense

variable {κ σ : Type*}

structure Dict (κ σ : Type*) where
  entries : List (κ × σ)
  nodup : (entries.map Prod.fst).Nodup

namespace Dict

variable [DecidableEq κ]

def setEntry (k : κ) (v : σ) : List (κ × σ) → List (κ × σ)
  | [] => [(k, v)]
  | e :: es => if e.1 = k then (k, v) :: es else e :: setEntry k v es

theorem mem_keys_setEntry {k k' : κ} {v : σ} {es : List (κ × σ)} :
    k' ∈ (setEntry k v es).map Prod.fst ↔ k' = k ∨ k' ∈ es.map Prod.fst := by
  induction es with
  | nil => simp [setEntry]
  | cons e es ih =>
    by_cases h : e.1 = k
    · simp [setEntry, h]
    · simp only [setEntry, h, if_false, List.map_cons, List.mem_cons, ih]
      tauto

theorem nodup_setEntry {k : κ} {v : σ} {es : List (κ × σ)} (h : (es.map Prod.fst).Nodup) :
    ((setEntry k v es).map Prod.fst).Nodup := by
  induction es with
  | nil => simp [setEntry]
  | cons e es ih =>
    rw [List.map_cons, List.nodup_cons] at h
    by_cases he : e.1 = k
    · rw [setEntry, if_pos he, List.map_cons, List.nodup_cons]
      exact ⟨he ▸ h.1, h.2⟩
    · simp only [setEntry, he, if_false, List.map_cons, List.nodup_cons]
      refine ⟨fun hm => ?_, ih h.2⟩
      exact (mem_keys_setEntry.mp hm).elim he h.1

def empty : Dict κ σ := ⟨[], List.nodup_nil⟩

/-- `d.get(k)`. -/
def get? (d : Dict κ σ) (k : κ) : Option σ := (d.entries.find? fun e => e.1 = k).map Prod.snd

/-- `d[k] = v`. -/
def set (d : Dict κ σ) (k : κ) (v : σ) : Dict κ σ :=
  ⟨setEntry k v d.entries, nodup_setEntry d.nodup⟩

/-- `d.pop(k, None)`, without its result. -/
def erase (d : Dict κ σ) (k : κ) : Dict κ σ :=
  ⟨d.entries.filter fun e => e.1 ≠ k, d.nodup.sublist (List.filter_sublist.map Prod.fst)⟩

def values (d : Dict κ σ) : List σ := d.entries.map Prod.snd

/-- The dictionary of a list of pairs; a later pair overrides an earlier one. -/
def ofPairs (ps : List (κ × σ)) : Dict κ σ := ps.foldl (fun d p => d.set p.1 p.2) empty

theorem setEntry_of_not_mem {k : κ} {v : σ} {es : List (κ × σ)}
    (h : k ∉ es.map Prod.fst) : setEntry k v es = es ++ [(k, v)] := by
  induction es with
  | nil => rfl
  | cons e es ih =>
    rw [List.map_cons, List.mem_cons, not_or] at h
    rw [setEntry, if_neg (Ne.symm h.1), ih h.2, List.cons_append]

theorem get?_eq_none_iff {d : Dict κ σ} {k : κ} : d.get? k = none ↔ k ∉ d.entries.map Prod.fst := by
  simp only [get?, Option.map_eq_none_iff, List.find?_eq_none, decide_eq_true_eq, List.mem_map,
    not_exists, not_and]

theorem entries_set_of_none {d : Dict κ σ} {k : κ} {v : σ} (h : d.get? k = none) :
    (d.set k v).entries = d.entries ++ [(k, v)] :=
  setEntry_of_not_mem (get?_eq_none_iff.mp h)

theorem setEntry_split {k : κ} {v w : σ} {es : List (κ × σ)}
    (h : (es.find? fun e => e.1 = k).map Prod.snd = some w) :
    ∃ l r, es = l ++ (k, w) :: r ∧ setEntry k v es = l ++ (k, v) :: r := by
  induction es with
  | nil => simp at h
  | cons e es ih =>
    by_cases he : e.1 = k
    · subst he
      simp only [List.find?_cons, decide_true, Option.map_some, Option.some.injEq] at h
      subst h
      exact ⟨[], es, rfl, by simp [setEntry]⟩
    · simp only [List.find?_cons, he, decide_false] at h
      obtain ⟨l, r, rfl, hs⟩ := ih h
      exact ⟨e :: l, r, rfl, by simp [setEntry, he, hs]⟩

/-- Setting a key that is present changes its value and nothing else. -/
theorem entries_set_of_some {d : Dict κ σ} {k : κ} {v w : σ} (h : d.get? k = some w) :
    ∃ l r, d.entries = l ++ (k, w) :: r ∧ (d.set k v).entries = l ++ (k, v) :: r :=
  setEntry_split h

theorem entries_ofPairs {ps : List (κ × σ)} (h : (ps.map Prod.fst).Nodup) :
    (ofPairs ps).entries = ps := by
  suffices ∀ (qs : List (κ × σ)) (d : Dict κ σ), ((d.entries ++ qs).map Prod.fst).Nodup →
      (qs.foldl (fun d p => d.set p.1 p.2) d).entries = d.entries ++ qs by
    exact this ps empty (by simpa [empty] using h)
  intro qs
  induction qs with
  | nil => simp
  | cons q qs ih =>
    intro d hd
    have hq : q.1 ∉ d.entries.map Prod.fst := by
      rw [List.map_append, List.map_cons, List.nodup_middle, List.nodup_cons] at hd
      exact fun hm => hd.1 (List.mem_append_left _ hm)
    have hs : (d.set q.1 q.2).entries = d.entries ++ [q] := setEntry_of_not_mem hq
    rw [List.foldl_cons, ih _ (by simpa [hs] using hd), hs, List.append_assoc,
      List.singleton_append]

theorem find?_setEntry (k k' : κ) (v : σ) (es : List (κ × σ)) :
    ((setEntry k v es).find? fun e => e.1 = k').map Prod.snd =
      if k' = k then some v else (es.find? fun e => e.1 = k').map Prod.snd := by
  induction es with
  | nil =>
    by_cases h : k' = k
    · simp [setEntry, h]
    · simp [setEntry, h, Ne.symm h]
  | cons e es ih =>
    by_cases he : e.1 = k
    · by_cases h : k' = k
      · simp [setEntry, he, h]
      · simp [setEntry, he, h, Ne.symm h]
    · by_cases h : e.1 = k'
      · have hk : k' ≠ k := h ▸ he
        simp [setEntry, h, hk]
      · rw [setEntry, if_neg he, List.find?_cons_of_neg (by simpa using h),
          List.find?_cons_of_neg (by simpa using h)]
        exact ih

theorem get?_set (d : Dict κ σ) (k k' : κ) (v : σ) :
    (d.set k v).get? k' = if k' = k then some v else d.get? k' := find?_setEntry k k' v d.entries

theorem get?_erase (d : Dict κ σ) (k k' : κ) :
    (d.erase k).get? k' = if k' = k then none else d.get? k' := by
  unfold get? erase
  rw [List.find?_filter]
  by_cases h : k' = k
  · subst h
    rw [if_pos rfl, Option.map_eq_none_iff, List.find?_eq_none]
    simp
  · rw [if_neg h]
    congr 2
    ext e
    by_cases he : e.1 = k'
    · simp [he, h]
    · simp [he]

/-- The last pair of a key is the one found under it. -/
theorem get?_ofPairs (ps : List (κ × σ)) (k : κ) :
    (ofPairs ps).get? k = ((ps.filter fun p => p.1 = k).getLast?).map Prod.snd := by
  induction ps using List.reverseRecOn with
  | nil => rfl
  | append_singleton ps p ih =>
    have hp : ofPairs (ps ++ [p]) = (ofPairs ps).set p.1 p.2 := by
      rw [ofPairs, List.foldl_append]; rfl
    rw [hp, get?_set, List.filter_append]
    by_cases h : k = p.1
    · simp [h]
    · simp [h, Ne.symm h, ih]

end Dict

end KitchenSense
