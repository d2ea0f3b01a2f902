import Mathlib.Data.List.Basic

/-! # Segments

Text in which a separator stands between segments. Two parts can be joined to
the same text in two ways only if the separator occurs inside a part; segments
without it can be read back, and none of two such texts with last segments of
one length begins the other.
-/

namespace KitchenSense

variable {α : Type*} {sep : α} {a b c d : List α} {ls : List (List α)}

/-- Two ways to join two parts: the same parts, or one separator is inside a part. -/
theorem append_sep_eq_iff : a ++ sep :: b = c ++ sep :: d ↔
    (a = c ∧ b = d) ∨ (∃ m, c = a ++ sep :: m ∧ b = m ++ sep :: d) ∨
      ∃ m, a = c ++ sep :: m ∧ d = m ++ sep :: b := by
  constructor
  · intro h
    rcases List.append_eq_append_iff.mp h with ⟨m, hc, hb⟩ | ⟨m, ha, hd⟩
    · cases m with
      | nil =>
        rw [List.append_nil] at hc
        exact .inl ⟨hc.symm, (List.cons_inj_right sep).mp hb⟩
      | cons e m =>
        rw [List.cons_append, List.cons.injEq] at hb
        obtain ⟨rfl, hb⟩ := hb
        exact .inr (.inl ⟨m, hc, hb⟩)
    · cases m with
      | nil =>
        rw [List.append_nil] at ha
        exact .inl ⟨ha, ((List.cons_inj_right sep).mp hd).symm⟩
      | cons e m =>
        rw [List.cons_append, List.cons.injEq] at hd
        obtain ⟨rfl, hd⟩ := hd
        exact .inr (.inr ⟨m, ha, hd⟩)
  · rintro (⟨rfl, rfl⟩ | ⟨m, rfl, rfl⟩ | ⟨m, rfl, rfl⟩)
    · rfl
    · simp
    · simp

theorem append_sep_inj_left (ha : sep ∉ a) (hc : sep ∉ c)
    (h : a ++ sep :: b = c ++ sep :: d) : a = c ∧ b = d := by
  rcases append_sep_eq_iff.mp h with h | ⟨m, rfl, -⟩ | ⟨m, rfl, -⟩
  · exact h
  · simp at hc
  · simp at ha

theorem append_sep_inj_right (hb : sep ∉ b) (hd : sep ∉ d)
    (h : a ++ sep :: b = c ++ sep :: d) : a = c ∧ b = d := by
  rcases append_sep_eq_iff.mp h with h | ⟨m, -, rfl⟩ | ⟨m, -, rfl⟩
  · exact h
  · simp at hb
  · simp at hd

theorem eq_of_prefix_sep (ha : sep ∉ a) (hc : sep ∉ c) (h : a ++ [sep] <+: c ++ sep :: d) :
    a = c := by
  obtain ⟨t, ht⟩ := h
  rw [List.append_assoc, List.singleton_append] at ht
  exact (append_sep_inj_left ha hc ht).1

section Count

variable [DecidableEq α]

/-- With as many separators and last segments of one length, no text begins another one. -/
theorem eq_of_prefix (hn : (a ++ sep :: b).count sep = (c ++ sep :: d).count sep)
    (hb : sep ∉ b) (hd : sep ∉ d) (hlen : b.length = d.length)
    (h : a ++ sep :: b <+: c ++ sep :: d) : a ++ sep :: b = c ++ sep :: d := by
  obtain ⟨t, ht⟩ := h
  have ht' : sep ∉ t := by
    have hc := congrArg (List.count sep) ht
    rw [List.count_append] at hc
    exact List.count_eq_zero.mp (by omega)
  rw [List.append_assoc, List.cons_append] at ht
  obtain ⟨rfl, hbt⟩ := append_sep_inj_right (by simp [hb, ht']) hd ht
  have hnil : t = [] := by
    have hl := congrArg List.length hbt
    rw [List.length_append] at hl
    exact List.length_eq_zero_iff.mp (by omega)
  rw [hnil, List.append_nil] at hbt
  rw [hbt]

theorem count_intercalate (hl : ∀ l ∈ ls, sep ∉ l) (hne : ls ≠ []) :
    ([sep].intercalate ls).count sep + 1 = ls.length := by
  induction ls with
  | nil => exact absurd rfl hne
  | cons l ls ih =>
    obtain ⟨hsep, hls⟩ := List.forall_mem_cons.mp hl
    cases ls with
    | nil => simp [List.intercalate_singleton, List.count_eq_zero.mpr hsep]
    | cons m ms =>
      have hms := ih hls (List.cons_ne_nil _ _)
      rw [List.intercalate_cons_cons, List.count_append, List.count_append,
        List.count_eq_zero.mpr hsep, List.count_singleton_self]
      simp only [List.length_cons] at hms ⊢
      omega

end Count

theorem mem_intercalate {e : α} (h : e ∈ [sep].intercalate ls) : e = sep ∨ ∃ l ∈ ls, e ∈ l := by
  induction ls with
  | nil => cases h
  | cons l ls ih =>
    cases ls with
    | nil => exact .inr ⟨l, List.mem_cons_self, by rwa [List.intercalate_singleton] at h⟩
    | cons m ms =>
      rw [List.intercalate_cons_cons, List.mem_append, List.mem_append, List.mem_singleton] at h
      rcases h with (h | h) | h
      · exact .inr ⟨l, List.mem_cons_self, h⟩
      · exact .inl h
      · rcases ih h with he | ⟨k, hk, he⟩
        · exact .inl he
        · exact .inr ⟨k, List.mem_cons_of_mem _ hk, he⟩

end KitchenSense
