import Mathlib.Logic.Function.Basic
import KitchenSense.Foundations.Runs
import KitchenSense.Repositories.Effects

/-! # Overlapping confirmations

A confirmation selects its upload, writes `confirmed_at` if the row it read has
none, and commits. The statements of several requests interleave: each sees
what is committed when it starts, and an `UPDATE` of a row waits for the
transaction that has written the row and not committed.
-/

namespace KitchenSense

open ReceiptUploadRepository

/-- A call of `confirm_upload`, with the instant it reads from the clock. -/
structure ConfirmRequest where
  householdId : UUID
  uploadId : UUID
  at_ : Instant

/-- How far a request has come, with the row its session holds. -/
inductive ConfirmPhase
  | started
  | selected (row : ReceiptUploadRow)
  | flushed (row : ReceiptUploadRow)
  /-- A response with status 200. -/
  | answered (upload : ReceiptUpload)
  /-- A response with status 404. -/
  | notFound
  | failed
  deriving DecidableEq

def ConfirmPhase.selectedRow : ConfirmPhase → Option ReceiptUploadRow
  | .selected row => some row
  | _ => none

theorem ConfirmPhase.selectedRow_eq_some {phase : ConfirmPhase} {row : ReceiptUploadRow} :
    phase.selectedRow = some row ↔ phase = .selected row := by
  cases phase <;> simp [selectedRow]

/-- The committed uploads, the transaction that has written each row, and the requests. -/
structure ConfirmState where
  uploads : List ReceiptUploadRow
  writer : UUID → Option ℕ
  phase : ℕ → ConfirmPhase

inductive ConfirmAction
  | select (i : ℕ)
  | flush (i : ℕ)
  | commit (i : ℕ)
  | rollback (i : ℕ)

namespace ConfirmState

def initial (uploads : List ReceiptUploadRow) : ConfirmState where
  uploads := uploads
  writer _ := none
  phase _ := .started

def enter (s : ConfirmState) (i : ℕ) (phase : ConfirmPhase) : ConfirmState :=
  { s with phase := Function.update s.phase i phase }

@[simp] theorem enter_phase (s : ConfirmState) (i : ℕ) (p : ConfirmPhase) :
    (s.enter i p).phase = Function.update s.phase i p := rfl

/-- What the `SELECT` of a request leads to. -/
def afterSelect : Except Failure (Option ReceiptUploadRow) → ConfirmPhase
  | .error _ => .failed
  | .ok none => .notFound
  | .ok (some row) => .selected row

variable (requests : ℕ → ConfirmRequest)

def confirmedRow (i : ℕ) (row : ReceiptUploadRow) : ReceiptUploadRow :=
  { row with confirmedAt := some (requests i).at_ }

def step (s : ConfirmState) : ConfirmAction → Option ConfirmState
  | .select i =>
    match s.phase i with
    | .started => some <| s.enter i <| afterSelect <|
        row s.uploads (requests i).householdId (requests i).uploadId
    | _ => none
  | .flush i =>
    match s.phase i with
    | .selected row =>
      if row.confirmedAt = none ∧ s.writer row.id = none then
        if violated (confirmedRow requests i row).rowChecks = none then
          some { s.enter i (.flushed (confirmedRow requests i row)) with
            writer := Function.update s.writer row.id (some i) }
        else
          some (s.enter i .failed)
      else
        none
    | _ => none
  | .commit i =>
    match s.phase i with
    | .selected row =>
      if row.confirmedAt = none then none else some (s.enter i (.answered row.toDomain))
    | .flushed row =>
      some { s.enter i (.answered row.toDomain) with
        uploads := updateConfirmedAt row.id (requests i).at_ s.uploads
        writer := Function.update s.writer row.id none }
    | _ => none
  | .rollback i =>
    match s.phase i with
    | .started => some (s.enter i .failed)
    | .selected _ => some (s.enter i .failed)
    | .flushed row => some { s.enter i .failed with
        writer := Function.update s.writer row.id none }
    | _ => none

variable {requests} {s s' : ConfirmState} {action : ConfirmAction}

/-- What a step can do: read, give up, write, answer, commit what was written, or roll it back. -/
theorem step_cases (h : step requests s action = some s') : ∃ i,
    (∃ row ∈ s.uploads, s' = s.enter i (.selected row)) ∨
      ((s' = s.enter i .failed ∨ s' = s.enter i .notFound) ∧ ∀ row, s.phase i ≠ .flushed row) ∨
      (∃ row, action = .flush i ∧ s.phase i = .selected row ∧ row.confirmedAt = none ∧
        s.writer row.id = none ∧
        s' = { s.enter i (.flushed (confirmedRow requests i row)) with
          writer := Function.update s.writer row.id (some i) }) ∨
      (∃ row, s.phase i = .selected row ∧ row.confirmedAt ≠ none ∧
        s' = s.enter i (.answered row.toDomain)) ∨
      ∃ row, s.phase i = .flushed row ∧
        (s' = { s.enter i (.answered row.toDomain) with
            uploads := updateConfirmedAt row.id (requests i).at_ s.uploads
            writer := Function.update s.writer row.id none } ∨
          s' = { s.enter i .failed with writer := Function.update s.writer row.id none }) := by
  cases action with
  | select i =>
    refine ⟨i, ?_⟩
    rw [step] at h
    cases hp : s.phase i with
    | started =>
      rw [hp] at h
      cases h
      cases hr : row s.uploads (requests i).householdId (requests i).uploadId with
      | error e => exact .inr (.inl ⟨.inl (by rw [afterSelect]), by simp⟩)
      | ok found =>
        cases found with
        | none => exact .inr (.inl ⟨.inr (by rw [afterSelect]), by simp⟩)
        | some row => exact .inl ⟨row, (mem_of_row hr).1, by rw [afterSelect]⟩
    | _ => rw [hp] at h; cases h
  | flush i =>
    refine ⟨i, ?_⟩
    rw [step] at h
    cases hp : s.phase i with
    | selected row =>
      rw [hp] at h
      simp only [Option.ite_none_right_eq_some] at h
      obtain ⟨⟨hc, hw⟩, h⟩ := h
      split at h
      · cases h
        exact .inr (.inr (.inl ⟨row, rfl, rfl, hc, hw, rfl⟩))
      · cases h
        exact .inr (.inl ⟨.inl rfl, by simp⟩)
    | _ => rw [hp] at h; cases h
  | commit i =>
    refine ⟨i, ?_⟩
    rw [step] at h
    cases hp : s.phase i with
    | selected row =>
      rw [hp] at h
      simp only [Option.ite_none_left_eq_some] at h
      obtain ⟨hc, ⟨⟩⟩ := h
      exact .inr (.inr (.inr (.inl ⟨row, rfl, hc, rfl⟩)))
    | flushed row =>
      rw [hp] at h
      cases h
      exact .inr (.inr (.inr (.inr ⟨row, rfl, .inl rfl⟩)))
    | _ => rw [hp] at h; cases h
  | rollback i =>
    refine ⟨i, ?_⟩
    rw [step] at h
    cases hp : s.phase i with
    | started =>
      rw [hp] at h
      cases h
      exact .inr (.inl ⟨.inl rfl, by simp⟩)
    | selected row =>
      rw [hp] at h
      cases h
      exact .inr (.inl ⟨.inl rfl, by simp⟩)
    | flushed row =>
      rw [hp] at h
      cases h
      exact .inr (.inr (.inr (.inr ⟨row, rfl, .inr rfl⟩)))
    | _ => rw [hp] at h; cases h

section Alone

def response : Except Failure (Option ReceiptUpload) → ConfirmPhase
  | .error _ => .failed
  | .ok none => .notFound
  | .ok (some upload) => .answered upload

theorem step_flush_of_checks {i : ℕ} {row : ReceiptUploadRow} (hp : s.phase i = .selected row)
    (hc : row.confirmedAt = none) (hw : s.writer row.id = none)
    (hv : violated (confirmedRow requests i row).rowChecks = none) :
    step requests s (.flush i) = some { s.enter i (.flushed (confirmedRow requests i row)) with
      writer := Function.update s.writer row.id (some i) } := by
  rw [step, hp]
  simp only [hc, hw, hv, and_self, if_true]

theorem step_flush_of_violated {i : ℕ} {row : ReceiptUploadRow} (hp : s.phase i = .selected row)
    (hc : row.confirmedAt = none) (hw : s.writer row.id = none)
    (hv : violated (confirmedRow requests i row).rowChecks ≠ none) :
    step requests s (.flush i) = some (s.enter i .failed) := by
  rw [step, hp]
  simp only [hc, hw, hv, and_self, if_true, if_false]

theorem step_commit_of_selected {i : ℕ} {row : ReceiptUploadRow}
    (hp : s.phase i = .selected row) (hc : row.confirmedAt ≠ none) :
    step requests s (.commit i) = some (s.enter i (.answered row.toDomain)) := by
  rw [step, hp]
  exact if_neg hc

theorem step_commit_of_flushed {i : ℕ} {row : ReceiptUploadRow}
    (hp : s.phase i = .flushed row) :
    step requests s (.commit i) = some { s.enter i (.answered row.toDomain) with
      uploads := updateConfirmedAt row.id (requests i).at_ s.uploads
      writer := Function.update s.writer row.id none } := by
  rw [step, hp]

/-- A request whose steps are not interleaved runs the repository's `confirm`. -/
theorem exec_alone {i : ℕ} {call : Tx (Option ReceiptUpload)} (db : Db)
    (hcall : call = confirm (requests i).householdId (requests i).uploadId (requests i).at_)
    (hu : s.uploads = db.uploads) (hp : s.phase i = .started) (hw : ∀ id, s.writer id = none) :
    ∃ actions s', exec (step requests) s actions = some s' ∧
      s'.uploads = (call.commit db).uploads ∧ s'.phase i = response (call.answer db) := by
  have hselect : step requests s (.select i) = some (s.enter i (afterSelect
      (row db.uploads (requests i).householdId (requests i).uploadId))) := by
    rw [step, hp, hu]
  cases hr : row db.uploads (requests i).householdId (requests i).uploadId with
  | error e =>
    have h := hcall ▸ confirm_of_error (requests i).at_ hr
    refine ⟨_, _, exec_cons hselect (exec_nil _), ?_, ?_⟩
    · rw [Transaction.commit_of_error h]; exact hu
    · rw [Transaction.answer_of_error h, enter_phase, Function.update_self, hr]; rfl
  | ok found =>
    cases found with
    | none =>
      have h := hcall ▸ confirm_of_none (requests i).at_ hr
      refine ⟨_, _, exec_cons hselect (exec_nil _), ?_, ?_⟩
      · rw [Transaction.commit_of_ok h]; exact hu
      · rw [Transaction.answer_of_ok h, enter_phase, Function.update_self, hr]; rfl
    | some row =>
      rw [hr, afterSelect] at hselect
      have hselected : (s.enter i (.selected row)).phase i = .selected row :=
        Function.update_self ..
      by_cases hc : row.confirmedAt = none
      · have hid := (mem_of_row hr).2.2
        rcases confirm_of_unconfirmed (requests i).at_ hr hc with ⟨hv, h⟩ | ⟨c, hv, h⟩
        · rw [← hcall] at h
          have hflush := step_flush_of_checks hselected hc (hw _) hv
          refine ⟨_, _, exec_cons hselect (exec_cons hflush
            (exec_cons (step_commit_of_flushed (Function.update_self ..)) (exec_nil _))), ?_, ?_⟩
          · rw [Transaction.commit_of_ok h, ← hu, ← hid]
            rfl
          · rw [Transaction.answer_of_ok h]
            exact Function.update_self ..
        · rw [← hcall] at h
          have hv : violated (confirmedRow requests i row).rowChecks ≠ none := by
            rw [confirmedRow, hv]; nofun
          have hflush := step_flush_of_violated hselected hc (hw _) hv
          refine ⟨_, _, exec_cons hselect (exec_cons hflush (exec_nil _)), ?_, ?_⟩
          · rw [Transaction.commit_of_error h]; exact hu
          · rw [Transaction.answer_of_error h, enter_phase, Function.update_self]; rfl
      · have h := hcall ▸ confirm_of_confirmed (requests i).at_ hr hc
        refine ⟨_, _, exec_cons hselect
          (exec_cons (step_commit_of_selected hselected hc) (exec_nil _)), ?_, ?_⟩
        · rw [Transaction.commit_of_ok h]; exact hu
        · rw [Transaction.answer_of_ok h, enter_phase, Function.update_self]; rfl

end Alone

section Invariant

def Kept (uploads uploads' : List ReceiptUploadRow) : Prop :=
  ∀ r ∈ uploads, ∃ r' ∈ uploads', r'.id = r.id ∧
    (r.confirmedAt = none ∨ r'.confirmedAt = r.confirmedAt)

theorem Kept.refl (uploads : List ReceiptUploadRow) : Kept uploads uploads :=
  fun r hr => ⟨r, hr, rfl, .inr rfl⟩

theorem Kept.trans {u₁ u₂ u₃ : List ReceiptUploadRow} (h : Kept u₁ u₂) (h' : Kept u₂ u₃) :
    Kept u₁ u₃ := by
  intro r hr
  obtain ⟨r₂, hr₂, hid, hc⟩ := h r hr
  obtain ⟨r₃, hr₃, hid', hc'⟩ := h' r₂ hr₂
  refine ⟨r₃, hr₃, hid'.trans hid, ?_⟩
  rcases hc with hc | hc
  · exact .inl hc
  · exact hc ▸ hc'

/-- The `UPDATE` of a request starts before another instant has been committed to its row. -/
def FlushesUnconfirmed (requests : ℕ → ConfirmRequest) (s : ConfirmState) :
    ConfirmAction → Prop
  | .flush i => ∀ row ∈ (s.phase i).selectedRow, ∀ r ∈ s.uploads, r.id = row.id →
      r.confirmedAt = none ∨ r.confirmedAt = some (requests i).at_
  | _ => True

instance (s : ConfirmState) (action : ConfirmAction) :
    Decidable (FlushesUnconfirmed requests s action) :=
  match action with
  | .flush _ => inferInstanceAs (Decidable (∀ row ∈ _, ∀ r ∈ s.uploads, _ → _))
  | .select _ | .commit _ | .rollback _ => inferInstanceAs (Decidable True)

/-- The upload a phase shows is a committed row, and what it shows as confirmed is committed. -/
def Supported (uploads : List ReceiptUploadRow) : ConfirmPhase → Prop
  | .selected row => ∃ r ∈ uploads, r.id = row.id ∧
      (row.confirmedAt = none ∨ r.confirmedAt = row.confirmedAt)
  | .flushed row => ∃ r ∈ uploads, r.id = row.id
  | .answered upload => upload.confirmedAt ≠ none ∧ ∃ r ∈ uploads, r.id = upload.id ∧
      r.confirmedAt = upload.confirmedAt
  | _ => True

theorem Supported.of_kept {uploads uploads' : List ReceiptUploadRow} {phase : ConfirmPhase}
    (h : Supported uploads phase) (hk : Kept uploads uploads') : Supported uploads' phase := by
  cases phase with
  | selected row =>
    obtain ⟨r, hr, hid, hc⟩ := h
    obtain ⟨r', hr', hid', hc'⟩ := hk r hr
    refine ⟨r', hr', hid'.trans hid, ?_⟩
    rcases hc with hc | hc
    · exact .inl hc
    · exact hc ▸ hc'
  | flushed row =>
    obtain ⟨r, hr, hid⟩ := h
    obtain ⟨r', hr', hid', -⟩ := hk r hr
    exact ⟨r', hr', hid'.trans hid⟩
  | answered upload =>
    obtain ⟨hne, r, hr, hid, hc⟩ := h
    obtain ⟨r', hr', hid', hc'⟩ := hk r hr
    exact ⟨hne, r', hr', hid'.trans hid, (hc'.resolve_left (hc ▸ hne)).trans hc⟩
  | started => trivial
  | notFound => trivial
  | failed => trivial

/-- Who has written a row holds it, and its instant is the only one committed to the row. -/
structure Sound (requests : ℕ → ConfirmRequest) (s : ConfirmState) : Prop where
  ids : (s.uploads.map (·.id)).Nodup
  supported : ∀ i, Supported s.uploads (s.phase i)
  writer : ∀ i row, s.phase i = .flushed row → s.writer row.id = some i
  instant : ∀ i row, s.phase i = .flushed row → row.confirmedAt = some (requests i).at_ ∧
    ∀ r ∈ s.uploads, r.id = row.id →
      r.confirmedAt = none ∨ r.confirmedAt = some (requests i).at_

theorem Sound.initial {uploads : List ReceiptUploadRow} (hn : (uploads.map (·.id)).Nodup) :
    Sound requests (initial uploads) :=
  ⟨hn, fun _ => trivial, by rintro _ _ ⟨⟩, by rintro _ _ ⟨⟩⟩

theorem Sound.supported_enter (hs : Sound requests s) {uploads : List ReceiptUploadRow}
    (hk : Kept s.uploads uploads) {i : ℕ} {p : ConfirmPhase} (hp : Supported uploads p) (j : ℕ) :
    Supported uploads ((s.enter i p).phase j) := by
  by_cases h : j = i
  · rw [h, enter_phase, Function.update_self]; exact hp
  · rw [enter_phase, Function.update_of_ne h]; exact (hs.supported j).of_kept hk

theorem flushed_of_enter {i j : ℕ} {p : ConfirmPhase} {row : ReceiptUploadRow}
    (hp : ∀ row, p ≠ .flushed row) (h : (s.enter i p).phase j = .flushed row) :
    j ≠ i ∧ s.phase j = .flushed row := by
  by_cases hj : j = i
  · rw [hj, enter_phase, Function.update_self] at h
    exact absurd h (hp row)
  · rw [enter_phase, Function.update_of_ne hj] at h
    exact ⟨hj, h⟩

theorem Sound.enter (hs : Sound requests s) {i : ℕ} {p : ConfirmPhase}
    (hp : Supported s.uploads p) (hn : ∀ row, p ≠ .flushed row) :
    Sound requests (s.enter i p) where
  ids := hs.ids
  supported := hs.supported_enter (.refl _) hp
  writer j row h := hs.writer j row (flushed_of_enter hn h).2
  instant j row h := hs.instant j row (flushed_of_enter hn h).2

theorem Sound.id_ne (hs : Sound requests s) {i j : ℕ} {row row' : ReceiptUploadRow}
    (hi : s.phase i = .flushed row) (hj : s.phase j = .flushed row') (h : j ≠ i) :
    row'.id ≠ row.id := by
  intro he
  have hw := hs.writer j row' hj
  rw [he, hs.writer i row hi] at hw
  exact h (Option.some.inj hw).symm

theorem Sound.writer_release (hs : Sound requests s) {i j : ℕ} {row row' : ReceiptUploadRow}
    {p : ConfirmPhase} (hi : s.phase i = .flushed row) (hp : ∀ row, p ≠ .flushed row)
    (h : (s.enter i p).phase j = .flushed row') :
    Function.update s.writer row.id none row'.id = some j := by
  obtain ⟨hj, hf⟩ := flushed_of_enter hp h
  rw [Function.update_of_ne (hs.id_ne hi hf hj)]
  exact hs.writer j row' hf

theorem mem_updateConfirmedAt {uploads : List ReceiptUploadRow} {id : UUID} {t : Instant}
    {r : ReceiptUploadRow} (h : r ∈ updateConfirmedAt id t uploads) :
    ∃ r₀ ∈ uploads, r₀.id = r.id ∧
      ((r.id = id ∧ r.confirmedAt = some t) ∨ (r.id ≠ id ∧ r = r₀)) := by
  obtain ⟨r₀, hr, rfl⟩ := List.mem_map.mp h
  refine ⟨r₀, hr, ?_⟩
  by_cases hid : r₀.id = id
  · rw [if_pos hid]; exact ⟨rfl, .inl ⟨hid, rfl⟩⟩
  · rw [if_neg hid]; exact ⟨rfl, .inr ⟨hid, rfl⟩⟩

theorem Kept.update {uploads : List ReceiptUploadRow} {id : UUID} {t : Instant}
    (h : ∀ r ∈ uploads, r.id = id → r.confirmedAt = none ∨ r.confirmedAt = some t) :
    Kept uploads (updateConfirmedAt id t uploads) := by
  intro r hr
  refine ⟨_, List.mem_map_of_mem hr, ?_⟩
  by_cases hid : r.id = id
  · rw [if_pos hid]
    exact ⟨rfl, (h r hr hid).imp_right Eq.symm⟩
  · rw [if_neg hid]
    exact ⟨rfl, .inr rfl⟩

/-- Requests that write an unconfirmed row keep every confirmation. -/
theorem Sound.step (hs : Sound requests s) (hok : FlushesUnconfirmed requests s action)
    (h : step requests s action = some s') :
    Sound requests s' ∧ Kept s.uploads s'.uploads := by
  obtain ⟨i, ⟨row, hm, rfl⟩ | ⟨hf, -⟩ | ⟨row, rfl, hp, hc, hw, rfl⟩ | ⟨row, hp, hc, rfl⟩ |
    ⟨row, hp, rfl | rfl⟩⟩ := step_cases h
  · exact ⟨hs.enter ⟨row, hm, rfl, .inr rfl⟩ nofun, .refl _⟩
  · rcases hf with rfl | rfl
    · exact ⟨hs.enter trivial nofun, .refl _⟩
    · exact ⟨hs.enter trivial nofun, .refl _⟩
  · -- the row is free, so no other request has written it
    obtain ⟨r, hr, hid, -⟩ := hp ▸ hs.supported i
    refine ⟨⟨hs.ids, hs.supported_enter (.refl _) ⟨r, hr, hid⟩, ?_, ?_⟩, .refl _⟩
    · intro j row' hj
      by_cases h : j = i
      · rw [h, enter_phase, Function.update_self] at hj
        cases hj
        rw [h]
        exact Function.update_self ..
      · rw [enter_phase, Function.update_of_ne h] at hj
        have hne : row'.id ≠ row.id := by
          intro he
          rw [← he, hs.writer j row' hj] at hw
          cases hw
        exact (Function.update_of_ne hne ..).trans (hs.writer j row' hj)
    · intro j row' hj
      by_cases h : j = i
      · rw [h, enter_phase, Function.update_self] at hj
        cases hj
        rw [h]
        exact ⟨rfl, hok row (ConfirmPhase.selectedRow_eq_some.mpr hp)⟩
      · rw [enter_phase, Function.update_of_ne h] at hj
        exact hs.instant j row' hj
  · obtain ⟨r, hr, hid, hrc⟩ := hp ▸ hs.supported i
    exact ⟨hs.enter ⟨hc, r, hr, hid, hrc.resolve_left hc⟩ nofun, .refl _⟩
  · obtain ⟨hat, hrows⟩ := hs.instant i row hp
    have hk := Kept.update hrows
    have hrow : Supported (updateConfirmedAt row.id (requests i).at_ s.uploads)
        (.answered row.toDomain) := by
      obtain ⟨r, hr, hid⟩ := hp ▸ hs.supported i
      refine ⟨by simp [ReceiptUploadRow.toDomain, hat], _, List.mem_map_of_mem hr, ?_⟩
      rw [if_pos hid]
      exact ⟨hid, hat.symm⟩
    refine ⟨⟨?_, hs.supported_enter hk hrow, fun j row' hj => ?_, fun j row' hj => ?_⟩, hk⟩
    · rw [map_updateConfirmedAt fun _ _ => rfl]
      exact hs.ids
    · exact hs.writer_release (p := .answered row.toDomain) hp nofun hj
    · obtain ⟨hji, hj⟩ := flushed_of_enter (p := .answered row.toDomain) nofun hj
      obtain ⟨hat', hrows'⟩ := hs.instant j row' hj
      refine ⟨hat', fun r hr hid => ?_⟩
      obtain ⟨r₀, hr₀, -, ⟨he, -⟩ | ⟨-, rfl⟩⟩ := mem_updateConfirmedAt hr
      · exact absurd (hid.symm.trans he) (hs.id_ne hp hj hji)
      · exact hrows' r hr₀ hid
  · refine ⟨⟨hs.ids, hs.supported_enter (p := .failed) (.refl _) trivial, fun j row' hj => ?_,
      fun j row' hj => ?_⟩, .refl _⟩
    · exact hs.writer_release (p := .failed) hp nofun hj
    · exact hs.instant j row' (flushed_of_enter (p := .failed) nofun hj).2

theorem Sound.reach {s₀ : ConfirmState} (hs : Sound requests s₀)
    (h : Reach (ConfirmState.step requests) (FlushesUnconfirmed requests) s₀ s) :
    Sound requests s ∧ Kept s₀.uploads s.uploads :=
  h.invariant (I := fun s => Sound requests s ∧ Kept s₀.uploads s.uploads)
    ⟨hs, .refl _⟩ fun _ _ _ hi hok h => ⟨(hi.1.step hok h).1, hi.2.trans (hi.1.step hok h).2⟩

theorem Sound.eq_of_id (hs : Sound requests s) {r r' : ReceiptUploadRow} (hr : r ∈ s.uploads)
    (hr' : r' ∈ s.uploads) (h : r.id = r'.id) : r = r' :=
  List.inj_on_of_nodup_map hs.ids hr hr' h

end Invariant

section Results

/-- A committed confirmation never changes, and all responses with status 200 show it. -/
theorem confirmed_once {uploads : List ReceiptUploadRow} (hn : (uploads.map (·.id)).Nodup)
    (h : Reach (step requests) (FlushesUnconfirmed requests) (initial uploads) s)
    (h' : Reach (step requests) (FlushesUnconfirmed requests) s s') :
    (∀ r ∈ s.uploads, ∀ r' ∈ s'.uploads, r'.id = r.id → r.confirmedAt ≠ none →
        r'.confirmedAt = r.confirmedAt) ∧
      (∀ i u, s'.phase i = .answered u → u.confirmedAt ≠ none ∧
        ∃ r ∈ s'.uploads, r.id = u.id ∧ r.confirmedAt = u.confirmedAt) ∧
      ∀ i j u u', s'.phase i = .answered u → s'.phase j = .answered u' → u.id = u'.id →
        u.confirmedAt = u'.confirmedAt := by
  have hs := ((Sound.initial hn).reach h).1
  obtain ⟨hs', hk⟩ := hs.reach h'
  refine ⟨?_, fun i u hi => ?_, ?_⟩
  · intro r hr r' hr' hid hc
    obtain ⟨r₁, hr₁, hid₁, hc₁⟩ := hk r hr
    rw [hs'.eq_of_id hr' hr₁ (hid.trans hid₁.symm)]
    exact hc₁.resolve_left hc
  · have hu := hs'.supported i
    rw [hi] at hu
    exact hu
  · intro i j u u' hi hj hid
    obtain ⟨-, r, hr, hru, hc⟩ := hi ▸ hs'.supported i
    obtain ⟨-, r', hr', hru', hc'⟩ := hj ▸ hs'.supported j
    rw [← hc, ← hc', hs'.eq_of_id hr hr' (hru.trans (hid.trans hru'.symm))]

/-- A request that writes after another instant was committed replaces it when it commits. -/
theorem confirmed_changes {i : ℕ} {row : ReceiptUploadRow}
    (hok : ¬ FlushesUnconfirmed requests s (.flush i)) (h : step requests s (.flush i) = some s')
    (hp : s'.phase i = .flushed row) :
    ∃ s'', step requests s' (.commit i) = some s'' ∧ ∃ r ∈ s.uploads, ∃ r' ∈ s''.uploads,
      r'.id = r.id ∧ r.confirmedAt ≠ none ∧ r'.confirmedAt ≠ r.confirmedAt := by
  obtain ⟨read, hread, r, hr, hid, hc⟩ : ∃ row ∈ (s.phase i).selectedRow, ∃ r ∈ s.uploads,
      r.id = row.id ∧ ¬ (r.confirmedAt = none ∨ r.confirmedAt = some (requests i).at_) := by
    rw [FlushesUnconfirmed] at hok
    push Not at hok ⊢
    exact hok
  rw [step, ConfirmPhase.selectedRow_eq_some.mp hread] at h
  simp only [Option.ite_none_right_eq_some] at h
  obtain ⟨-, h⟩ := h
  split at h
  · cases h
    rw [enter_phase, Function.update_self] at hp
    obtain rfl := ConfirmPhase.flushed.inj hp
    refine ⟨_, by rw [step, enter_phase, Function.update_self], r, hr, _,
      List.mem_map_of_mem hr, ?_⟩
    have hid' : r.id = (confirmedRow requests i read).id := hid
    rw [if_pos hid']
    exact ⟨rfl, fun hn => hc (.inl hn), fun he => hc (.inr he.symm)⟩
  · cases h
    rw [enter_phase, Function.update_self] at hp
    cases hp

end Results

section Runs

def awaiting : ReceiptUploadRow where
  id := 3
  householdId := 1
  blobName := "receipts/1/3"
  contentType := "image/jpeg"
  requestedAt := 0
  expiresAt := 300
  confirmedAt := none

/-- Request `i` confirms that upload at the instant `5 + i`. -/
def retries (i : ℕ) : ConfirmRequest := ⟨1, 3, 5 + i⟩

/-- The second request reads before the first commits and fails; the third reads afterwards. -/
def retriesInTurn : List ConfirmAction :=
  [.select 0, .flush 0, .select 1, .commit 0, .rollback 1, .select 2, .commit 2]

theorem confirmed_once_retriesInTurn :
    ∃ s, exec (guarded (step retries) (FlushesUnconfirmed retries)) (initial [awaiting])
        retriesInTurn = some s ∧
      s.phase 0 = .answered { awaiting.toDomain with confirmedAt := some 5 } ∧
      s.phase 2 = s.phase 0 ∧
      ∀ i j u u', s.phase i = .answered u → s.phase j = .answered u' → u.id = u'.id →
        u.confirmedAt = u'.confirmedAt := by
  have h : (exec (guarded (step retries) (FlushesUnconfirmed retries)) (initial [awaiting])
      retriesInTurn).map (fun s => (s.phase 0, s.phase 2)) =
    some (.answered { awaiting.toDomain with confirmedAt := some 5 },
      .answered { awaiting.toDomain with confirmedAt := some 5 }) := by decide
  obtain ⟨s, hr, hp⟩ := Option.map_eq_some_iff.mp h
  obtain ⟨h₀, h₂⟩ := Prod.mk.inj hp
  exact ⟨s, hr, h₀, h₂.trans h₀.symm,
    (confirmed_once (by decide) (Reach.of_exec hr) .refl).2.2⟩

def overlappingRetries : List ConfirmAction :=
  [.select 0, .select 1, .flush 0, .commit 0, .flush 1, .commit 1]

/-- The committed instant changes, and the two responses show different ones. -/
theorem confirmed_changes_overlappingRetries :
    ∃ s s', exec (step retries) (initial [awaiting]) (overlappingRetries.take 4) = some s ∧
      exec (step retries) s (overlappingRetries.drop 4) = some s' ∧
      s.uploads.map (·.confirmedAt) = [some 5] ∧ s'.uploads.map (·.confirmedAt) = [some 6] ∧
      s'.phase 0 = .answered { awaiting.toDomain with confirmedAt := some 5 } ∧
      s'.phase 1 = .answered { awaiting.toDomain with confirmedAt := some 6 } :=
  ⟨_, _, rfl, rfl, by decide, by decide, by decide, by decide⟩

end Runs

end ConfirmState

end KitchenSense
