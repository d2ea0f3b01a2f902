import Mathlib.Logic.Function.Basic
import KitchenSense.Projection.Store

/-! # Rows that open transactions hold

The rows of one household while several transactions replace them. A row that
an open transaction has deleted is still committed, and a row that it has
inserted is not. Here are the effects of each statement on the rows, and what
they leave a transaction to hold.
-/

namespace KitchenSense

open InventorySnapshotRepository

/-- A stored row and the call that inserted it; a deleted row is not one inserted again. -/
abbrev RowVersion := Option ℕ × InventorySnapshotRow

instance : LawfulBEq RowVersion := inferInstance

/-- How far a call has come, with the snapshot it holds. -/
inductive TaskPhase
  | started
  | gotStored (current : Option InventorySnapshot)
  | computed (snapshot : InventorySnapshot)
  /-- The `DELETE` has started and has seen these rows. -/
  | deleting (snapshot : InventorySnapshot) (seen : List RowVersion)
  | deleted (snapshot : InventorySnapshot)
  | saved (snapshot : InventorySnapshot)
  | committed (snapshot : InventorySnapshot)
  /-- A snapshot was returned and none stored. -/
  | projected (snapshot : InventorySnapshot)
  | failed
  deriving DecidableEq

/-- A call that has sent no `DELETE`. -/
def TaskPhase.Reading : TaskPhase → Prop
  | .started | .gotStored _ | .computed _ => True
  | _ => False

/-- A call that has deleted rows, and may have inserted its own, but has not committed. -/
def TaskPhase.Holding : TaskPhase → Prop
  | .deleted _ | .saved _ => True
  | _ => False

def TaskPhase.held? : TaskPhase → Option InventorySnapshot
  | .gotStored current => current
  | .computed S | .deleting S _ | .deleted S | .saved S => some S
  | _ => none

/-- The committed rows of the household, what open transactions did to them, and the calls. -/
structure ProjectionState where
  live : List RowVersion
  doomed : List (ℕ × RowVersion)
  pending : List (ℕ × InventorySnapshotRow)
  phase : ℕ → TaskPhase

namespace ProjectionState

def enter (s : ProjectionState) (i : ℕ) (phase : TaskPhase) : ProjectionState :=
  { s with phase := Function.update s.phase i phase }

@[simp] theorem enter_phase (s : ProjectionState) (i : ℕ) (p : TaskPhase) :
    (s.enter i p).phase = Function.update s.phase i p := rfl

def remaining (s : ProjectionState) (i : ℕ) : List RowVersion :=
  s.live.filter fun v => (i, v) ∉ s.doomed

/-- The `DELETE` of a call ends; it skips the seen rows that are gone. -/
def delete (s : ProjectionState) (i : ℕ) (S : InventorySnapshot) (seen : List RowVersion) :
    ProjectionState :=
  { s.enter i (.deleted S) with
    doomed := s.doomed ++ (s.live.filter (· ∈ seen)).map (i, ·) }

/-- The `INSERT` of a call ends. -/
def insert (s : ProjectionState) (i : ℕ) (S : InventorySnapshot) : ProjectionState :=
  { s.enter i (.saved S) with pending := s.pending ++ (toRows S).map (i, ·) }

def fail (s : ProjectionState) (i : ℕ) : ProjectionState :=
  { s.enter i .failed with
    doomed := s.doomed.filter (·.1 ≠ i)
    pending := s.pending.filter (·.1 ≠ i) }

def settle (s : ProjectionState) (i : ℕ) (S : InventorySnapshot) : ProjectionState :=
  { s.enter i (.committed S) with
    live := s.remaining i ++ (s.pending.filter (·.1 = i)).map fun p => (some i, p.2)
    doomed := s.doomed.filter (·.1 ≠ i)
    pending := s.pending.filter (·.1 ≠ i) }

/-- Another open transaction has inserted or deleted a row that clashes with one of these. -/
def Waits (s : ProjectionState) (i : ℕ) (rows : List InventorySnapshotRow) : Prop :=
  (∃ p ∈ s.pending, p.1 ≠ i ∧ ∃ row ∈ rows, p.2.Clash row) ∨
    ∃ d ∈ s.doomed, d.1 ≠ i ∧ ∃ row ∈ rows, d.2.2.Clash row

instance (s : ProjectionState) (i : ℕ) (rows : List InventorySnapshotRow) :
    Decidable (s.Waits i rows) :=
  inferInstanceAs (Decidable (_ ∨ _))

section Owner

variable {α : Type} {i j : ℕ}

theorem map_snd_owner {β : Type} (b : β) (xs : List α) :
    (xs.map (b, ·)).map Prod.snd = xs := by
  rw [List.map_map]; exact List.map_id _

theorem filter_owner_self (xs : List α) : (xs.map (i, ·)).filter (·.1 = i) = xs.map (i, ·) := by
  simp [List.filter_eq_self]

theorem filter_owner_of_ne (h : j ≠ i) (xs : List α) :
    (xs.map (j, ·)).filter (·.1 = i) = [] := by
  simp [h]

theorem filter_others_self (xs : List α) : (xs.map (i, ·)).filter (·.1 ≠ i) = [] := by
  simp

theorem filter_others_of_ne (h : j ≠ i) (xs : List α) :
    (xs.map (j, ·)).filter (·.1 ≠ i) = xs.map (j, ·) := by
  simp [List.filter_eq_self, h]

theorem filter_others_filter_owner (h : j ≠ i) (ps : List (ℕ × α)) :
    (ps.filter (·.1 ≠ i)).filter (·.1 = j) = ps.filter (·.1 = j) := by
  rw [List.filter_filter]
  apply List.filter_congr
  rintro ⟨k, a⟩ -
  by_cases hk : k = j
  · simp [hk, h]
  · simp [hk]

end Owner

section Held

/-- One transaction at most has deleted rows, and then all; one at most has inserted rows. -/
structure Held (s : ProjectionState) : Prop where
  doomed : s.doomed = [] ∨ ∃ i, (s.phase i).Holding ∧ s.doomed = s.live.map (i, ·)
  saved : ∀ i S, s.phase i = .saved S → s.pending.filter (·.1 = i) = (toRows S).map (i, ·)
  pending : s.pending = [] ∨ ∃ i S, s.phase i = .saved S ∧ S.lots ≠ [] ∧
    s.pending = (toRows S).map (i, ·) ∧ (s.live = [] ∨ s.doomed = s.live.map (i, ·))

variable {s : ProjectionState} {i j : ℕ} {p : TaskPhase} {S : InventorySnapshot}

theorem enter_phase_of {P : TaskPhase → Prop} (p : TaskPhase) (hi : ¬ P (s.phase i))
    (hj : P (s.phase j)) : (s.enter i p).phase j = s.phase j :=
  Function.update_of_ne (fun h : j = i => hi (h ▸ hj)) ..

theorem of_enter_phase {P : TaskPhase → Prop} (hp : ¬ P p) (hj : P ((s.enter i p).phase j)) :
    j ≠ i ∧ P (s.phase j) := by
  have h : j ≠ i := by
    rintro rfl
    rw [enter_phase, Function.update_self] at hj
    exact hp hj
  rw [enter_phase, Function.update_of_ne h] at hj
  exact ⟨h, hj⟩

theorem of_enter_saved (hp : ∀ S, p ≠ .saved S) (hj : (s.enter i p).phase j = .saved S) :
    j ≠ i ∧ s.phase j = .saved S :=
  of_enter_phase (P := (· = .saved S)) (hp S) hj

theorem Held.deleted (hs : Held s) (i : ℕ) :
    (s.remaining i = s.live ∧ ∀ d ∈ s.doomed, d.1 ≠ i) ∨
      (s.doomed = s.live.map (i, ·) ∧ s.remaining i = []) := by
  rcases hs.doomed with hd | ⟨j, -, hd⟩
  · exact .inl ⟨by simp [remaining, hd], by simp [hd]⟩
  · by_cases h : j = i
    · subst h
      exact .inr ⟨hd, by simp [remaining, hd]⟩
    · refine .inl ⟨by simp [remaining, hd, h], fun d hm => ?_⟩
      obtain ⟨v, -, rfl⟩ := List.mem_map.mp (hd ▸ hm)
      exact h

theorem Held.doomed_eq_nil (hs : Held s) (h : s.live = []) : s.doomed = [] := by
  rcases hs.doomed with hd | ⟨j, -, hd⟩
  · exact hd
  · rw [hd, h]; rfl

theorem Held.enter (hs : Held s) (hi : ¬ (s.phase i).Holding) (hp : ¬ p.Holding) :
    Held (s.enter i p) where
  doomed := by
    refine hs.doomed.imp_right fun ⟨j, hj, hd⟩ => ⟨j, ?_, hd⟩
    rwa [enter_phase_of p hi hj]
  saved j S hj := hs.saved j S (of_enter_saved (by rintro _ rfl; exact hp trivial) hj).2
  pending := by
    refine hs.pending.imp_right fun ⟨j, S, hj, h⟩ => ⟨j, S, ?_, h⟩
    have hn : s.phase i ≠ .saved S := fun h => hi (h ▸ trivial)
    rwa [enter_phase_of (P := (· = .saved S)) p hn hj]

/-- A `DELETE` that need not wait removes every committed row or none. -/
theorem Held.delete_doomed (hs : Held s) {seen : List RowVersion} (hi : ¬ (s.phase i).Holding)
    (hw : ¬ ∃ d ∈ s.doomed, d.1 ≠ i ∧ d.2 ∈ seen)
    (hl : seen = s.live ∨ ∀ v ∈ s.live, v ∉ seen) :
    (s.delete i S seen).doomed = s.doomed ∨
      (s.doomed = [] ∧ (s.delete i S seen).doomed = s.live.map (i, ·)) := by
  rw [delete]
  rcases hl with rfl | hl
  · have hall : s.live.filter (· ∈ s.live) = s.live := by simp [List.filter_eq_self]
    rw [hall]
    rcases hs.doomed with hd | ⟨j, hj, hd⟩
    · exact .inr ⟨hd, by rw [hd, List.nil_append]⟩
    · -- the rows belong to another call, so there are none to wait for
      have hnil : s.live = [] := by
        by_contra hne
        obtain ⟨v, hv⟩ := List.exists_mem_of_ne_nil _ hne
        exact hw ⟨(j, v), hd ▸ List.mem_map_of_mem hv, fun h => hi (h ▸ hj), hv⟩
      left
      rw [hnil, List.map_nil, List.append_nil]
  · left
    have hnone : s.live.filter (· ∈ seen) = [] := by simpa [List.filter_eq_nil_iff] using hl
    rw [hnone, List.map_nil, List.append_nil]

theorem Held.delete (hs : Held s) {seen : List RowVersion}
    (hi : s.phase i = .deleting S seen) (hw : ¬ ∃ d ∈ s.doomed, d.1 ≠ i ∧ d.2 ∈ seen)
    (hl : seen = s.live ∨ ∀ v ∈ s.live, v ∉ seen) : Held (s.delete i S seen) := by
  have hn : ¬ (s.phase i).Holding := by rw [hi]; exact id
  have hd := hs.delete_doomed (S := S) hn hw hl
  refine ⟨?_, fun j S' hj => ?_, ?_⟩
  · rcases hd with h | ⟨-, h⟩
    · rw [h]
      refine hs.doomed.imp_right fun ⟨j, hj, hd⟩ => ⟨j, ?_, hd⟩
      exact (enter_phase_of (.deleted S) hn hj).symm ▸ hj
    · exact .inr ⟨i, by rw [ProjectionState.delete, enter_phase, Function.update_self]; trivial, h⟩
  · exact hs.saved j S' (of_enter_saved (p := .deleted S) (by simp) hj).2
  · refine hs.pending.imp_right fun ⟨j, S', hj, hne, hp, hh⟩ => ⟨j, S', ?_, hne, hp, ?_⟩
    · exact (enter_phase_of (P := (· = .saved S')) (.deleted S) (by rw [hi]; simp) hj).trans hj
    · rcases hd with h | ⟨hd, -⟩
      · rw [h]; exact hh
      · exact .inl (hh.elim id fun h => List.map_eq_nil_iff.mp (h.symm.trans hd))

/-- An `INSERT` of rows into an emptied table leaves only these pending. -/
theorem Held.insert (hs : Held s) (hi : s.phase i = .deleted S)
    (hrows : S.lots ≠ [] → s.pending = [] ∧ (s.live = [] ∨ s.doomed = s.live.map (i, ·))) :
    Held (s.insert i S) := by
  have hpend : S.lots = [] ∨ s.pending = [] := by
    by_cases h : S.lots = []
    · exact .inl h
    · exact .inr (hrows h).1
  refine ⟨?_, fun j S' hj => ?_, ?_⟩
  · refine hs.doomed.imp_right ?_
    rintro ⟨j, hj, hd⟩
    by_cases h : j = i
    · subst h
      refine ⟨j, ?_, hd⟩
      rw [ProjectionState.insert, enter_phase, Function.update_self]
      trivial
    · refine ⟨j, ?_, hd⟩
      rwa [ProjectionState.insert, enter_phase, Function.update_of_ne h]
  · rw [ProjectionState.insert, List.filter_append]
    by_cases h : j = i
    · -- the call had inserted nothing before
      subst h
      rw [ProjectionState.insert, enter_phase, Function.update_self] at hj
      cases hj
      have hnone : s.pending.filter (·.1 = j) = [] := by
        rcases hs.pending with hp | ⟨k, S', hk, -, hp, -⟩
        · rw [hp]; rfl
        · have hkj : k ≠ j := by rintro rfl; cases hi.symm.trans hk
          rw [hp, filter_owner_of_ne hkj]
      rw [hnone, filter_owner_self, List.nil_append]
    · have hj' : s.phase j = .saved S' := (Function.update_of_ne h ..).symm.trans hj
      rw [hs.saved j S' hj', filter_owner_of_ne (Ne.symm h), List.append_nil]
  · by_cases hne : S.lots = []
    · have hnil : s.pending ++ (toRows S).map (i, ·) = s.pending := by simp [toRows, hne]
      rw [ProjectionState.insert, hnil]
      refine hs.pending.imp_right ?_
      rintro ⟨j, S', hj, h⟩
      refine ⟨j, S', ?_, h⟩
      exact (enter_phase_of (P := (· = .saved S')) (.saved S) (by rw [hi]; simp) hj).trans hj
    · obtain ⟨hp, hl⟩ := hrows hne
      refine .inr ⟨i, S, Function.update_self .., hne, ?_, hl⟩
      rw [ProjectionState.insert, hp, List.nil_append]

theorem Held.others_doomed (hs : Held s) (i : ℕ) :
    s.doomed.filter (·.1 ≠ i) = [] ∨ ∃ j, j ≠ i ∧ (s.phase j).Holding ∧
      s.doomed.filter (·.1 ≠ i) = s.live.map (j, ·) := by
  rcases hs.doomed with hd | ⟨j, hj, hd⟩
  · left; rw [hd]; rfl
  · rw [hd]
    by_cases h : j = i
    · exact .inl (h ▸ filter_others_self _)
    · exact .inr ⟨j, h, hj, filter_others_of_ne h _⟩

theorem Held.others_pending (hs : Held s) (i : ℕ) :
    s.pending.filter (·.1 ≠ i) = [] ∨ ∃ j S, j ≠ i ∧ s.phase j = .saved S ∧ S.lots ≠ [] ∧
      s.pending.filter (·.1 ≠ i) = (toRows S).map (j, ·) ∧ s.pending.filter (·.1 = i) = [] ∧
      (s.live = [] ∨ s.doomed.filter (·.1 ≠ i) = s.live.map (j, ·)) := by
  rcases hs.pending with hp | ⟨j, S, hj, hne, hp, hl⟩
  · left; rw [hp]; rfl
  · rw [hp]
    by_cases h : j = i
    · exact .inl (h ▸ filter_others_self _)
    · refine .inr ⟨j, S, h, hj, hne, filter_others_of_ne h _, filter_owner_of_ne h _, ?_⟩
      exact hl.imp_right fun hd => by rw [hd, filter_others_of_ne h]

theorem Held.fail (hs : Held s) (i : ℕ) : Held (s.fail i) := by
  refine ⟨?_, fun j S hj => ?_, ?_⟩
  · refine (hs.others_doomed i).imp_right fun ⟨j, h, hj, hd⟩ => ⟨j, ?_, hd⟩
    rwa [ProjectionState.fail, enter_phase, Function.update_of_ne h]
  · obtain ⟨h, hj⟩ := of_enter_saved (p := .failed) (by simp) hj
    exact (filter_others_filter_owner h _).trans (hs.saved j S hj)
  · refine (hs.others_pending i).imp_right ?_
    rintro ⟨j, S, h, hj, hne, hp, -, hl⟩
    refine ⟨j, S, ?_, hne, hp, hl⟩
    exact (Function.update_of_ne h ..).trans hj

/-- A commit replaces all the committed rows, or its call had neither deleted nor inserted any. -/
theorem Held.settle_live (hs : Held s) (hi : s.phase i = .saved S) :
    ((s.settle i S).live = s.live ∧ S.lots = [] ∧ ∀ d ∈ s.doomed, d.1 ≠ i) ∨
      ((s.settle i S).live = (toRows S).map (some i, ·) ∧ s.doomed = s.live.map (i, ·)) := by
  have hown : (s.pending.filter (·.1 = i)).map (fun p => (some i, p.2)) =
      (toRows S).map (some i, ·) := by
    rw [hs.saved i S hi, List.map_map]; rfl
  rw [settle, hown]
  rcases hs.deleted i with ⟨hr, hnone⟩ | ⟨hd, hr⟩
  · rw [hr]
    by_cases hne : S.lots = []
    · exact .inl ⟨by simp [toRows, hne], hne, hnone⟩
    · -- the call has inserted rows and deleted none, so there was none to delete
      have hrows : s.pending.filter (·.1 = i) ≠ [] := by
        rw [hs.saved i S hi]
        simpa [toRows] using hne
      have hnil : s.live = [] := by
        rcases hs.pending with hp | ⟨k, S', -, -, hp, hl⟩
        · rw [hp] at hrows; exact absurd rfl hrows
        by_cases h : k = i
        · refine hl.elim id fun hd => ?_
          rw [List.eq_nil_iff_forall_not_mem]
          exact fun v hv => hnone (k, v) (hd ▸ List.mem_map_of_mem hv) h
        · rw [hp, filter_owner_of_ne h] at hrows
          exact absurd rfl hrows
      exact .inr ⟨by rw [hnil, List.nil_append], by rw [hs.doomed_eq_nil hnil, hnil]; rfl⟩
  · exact .inr ⟨by rw [hr, List.nil_append], hd⟩

theorem Held.settle (hs : Held s) (hi : s.phase i = .saved S) : Held (s.settle i S) := by
  refine ⟨?_, fun j S' hj => ?_, ?_⟩
  · rcases hs.settle_live hi with ⟨hl, -, -⟩ | ⟨-, hd⟩
    · rw [hl]
      refine (hs.others_doomed i).imp_right fun ⟨j, h, hj, hd⟩ => ⟨j, ?_, hd⟩
      rwa [ProjectionState.settle, enter_phase, Function.update_of_ne h]
    · left
      rw [ProjectionState.settle, hd]
      exact filter_others_self _
  · obtain ⟨h, hj⟩ := of_enter_saved (p := .committed S) (by simp) hj
    exact (filter_others_filter_owner h _).trans (hs.saved j S' hj)
  · refine (hs.others_pending i).imp_right fun ⟨j, S', h, hj, hne, hp, hown, hl⟩ =>
      ⟨j, S', (Function.update_of_ne h ..).trans hj, hne, hp, ?_⟩
    rcases hs.settle_live hi with ⟨hlive, -, -⟩ | ⟨hlive, -⟩
    · rw [hlive]; exact hl
    · -- the call commits no rows, since another one holds all that are pending
      left
      have hrows : toRows S = [] := by simpa using (hs.saved i S hi).symm.trans hown
      rw [hlive, hrows, List.map_nil]

end Held

end ProjectionState

end KitchenSense
