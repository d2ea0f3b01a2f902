import KitchenSense.Database.Statements
import KitchenSense.Repositories.Receipts

/-! # What the repository calls commit

A lookup finds rows of the household that asks. An append commits its row
exactly when the constraints of the table hold of it. Projecting reads the log
and writes nothing but the projection.
-/

namespace KitchenSense

open InventoryEventRepository

section Lookups

theorem oneOrNone_eq_some {α : Type} {l : List α} {a : α} :
    oneOrNone l = .ok (some a) ↔ l = [a] := by
  rcases l with - | ⟨b, - | ⟨c, l⟩⟩ <;> simp [oneOrNone]

theorem oneOrNone_eq_none {α : Type} {l : List α} : oneOrNone l = .ok none ↔ l = [] := by
  rcases l with - | ⟨b, - | ⟨c, l⟩⟩ <;> simp [oneOrNone]

/-- The upload a household finds is a row of its own with the id it asked for. -/
theorem mem_of_row {rows : List ReceiptUploadRow} {householdId uploadId : UUID}
    {row : ReceiptUploadRow} (h : ReceiptUploadRepository.row rows householdId uploadId =
      .ok (some row)) : row ∈ rows ∧ row.householdId = householdId ∧ row.id = uploadId := by
  have hm : row ∈ (ReceiptUploadRepository.scopedTo rows householdId).filter
      fun row => row.id = uploadId := by
    rw [oneOrNone_eq_some.mp h]
    exact List.mem_singleton_self row
  simp only [ReceiptUploadRepository.scopedTo, List.mem_filter, decide_eq_true_eq] at hm
  exact ⟨hm.1.1, hm.1.2, hm.2⟩

theorem mem_of_getByIdempotencyKey {log : List InventoryEventRow} {householdId : UUID}
    {key : String} {event : InventoryEvent}
    (h : getByIdempotencyKey log householdId key = .ok (some event)) :
    ∃ r ∈ log, r.householdId = householdId ∧ r.idempotencyKey = key ∧ r.toDomain = event := by
  rw [getByIdempotencyKey] at h
  cases hl : oneOrNone ((scopedTo log householdId).filter fun row => row.idempotencyKey = key) with
  | error e => rw [hl] at h; cases h
  | ok found =>
    rw [hl] at h
    obtain ⟨r, rfl, rfl⟩ := Option.map_eq_some_iff.mp (Except.ok.inj h)
    have hm : r ∈ (scopedTo log householdId).filter fun row => row.idempotencyKey = key := by
      rw [oneOrNone_eq_some.mp hl]
      exact List.mem_singleton_self r
    simp only [scopedTo, List.mem_filter, decide_eq_true_eq] at hm
    exact ⟨r, hm.1.1, hm.1.2, hm.2, rfl⟩

theorem oneOrNone_error {α : Type} {l : List α} {e : Failure} (h : oneOrNone l = .error e) :
    e = .multipleResultsFound := by
  rcases l with - | ⟨b, - | ⟨c, l⟩⟩
  · cases h
  · cases h
  · exact (Except.error.inj h).symm

theorem getByIdempotencyKey_error {log : List InventoryEventRow} {householdId : UUID}
    {key : String} {e : Failure} (h : getByIdempotencyKey log householdId key = .error e) :
    e = .multipleResultsFound := by
  rw [getByIdempotencyKey] at h
  cases hl : oneOrNone ((scopedTo log householdId).filter fun row => row.idempotencyKey = key) with
  | error e' =>
    rw [hl] at h
    exact Except.error.inj h ▸ oneOrNone_error hl
  | ok found => rw [hl] at h; cases h

theorem forall_of_getByIdempotencyKey {log : List InventoryEventRow} {householdId : UUID}
    {key : String} (h : getByIdempotencyKey log householdId key = .ok none) :
    ∀ r ∈ log, r.idempotencyKey = key → r.householdId ≠ householdId := by
  rw [getByIdempotencyKey] at h
  cases hl : oneOrNone ((scopedTo log householdId).filter fun row => row.idempotencyKey = key) with
  | error e => rw [hl] at h; cases h
  | ok found =>
    rw [hl] at h
    rw [Option.map_eq_none_iff.mp (Except.ok.inj h), oneOrNone_eq_none] at hl
    intro r hm hk hh
    refine List.not_mem_nil (hl ▸ ?_ : r ∈ [])
    simp [scopedTo, hm, hk, hh]

theorem filter_eq_singleton {α β : Type} [DecidableEq α] [DecidableEq β] {f : α → β} {l : List α}
    {a : α} (hn : (l.map f).Nodup) (ha : a ∈ l) : (l.filter fun b => f b = f a) = [a] := by
  have heq : ∀ b ∈ l, decide (f b = f a) = (b == a) := by
    intro b hb
    rw [Bool.eq_iff_iff, decide_eq_true_iff, beq_iff_eq]
    exact ⟨fun h => List.inj_on_of_nodup_map hn hb ha h, fun h => h ▸ rfl⟩
  rw [List.filter_congr heq, List.filter_beq, List.count_eq_one_of_mem (hn.of_map f) ha]
  rfl

theorem getByIdempotencyKey_of_mem {log : List InventoryEventRow} {householdId : UUID}
    {r : InventoryEventRow} (hk : (log.map (·.idempotencyKey)).Nodup) (hr : r ∈ log) :
    getByIdempotencyKey log householdId r.idempotencyKey =
      .ok (if r.householdId = householdId then some r.toDomain else none) := by
  rw [getByIdempotencyKey, scopedTo, List.filter_comm, filter_eq_singleton hk hr]
  by_cases hh : r.householdId = householdId
  · rw [List.filter_cons_of_pos (by simpa using hh), if_pos hh]
    rfl
  · rw [List.filter_cons_of_neg (by simpa using hh), if_neg hh]
    rfl

end Lookups

section Confirm

open ReceiptUploadRepository

variable {householdId uploadId : UUID} (at_ : Instant) {db : Db}

theorem map_updateConfirmedAt {κ : Type} {f : ReceiptUploadRow → κ}
    (hf : ∀ row t, f { row with confirmedAt := t } = f row) (uploads : List ReceiptUploadRow)
    (id : UUID) (t : Instant) : (updateConfirmedAt id t uploads).map f = uploads.map f := by
  rw [updateConfirmedAt, List.map_map]
  refine List.map_congr_left fun r _ => ?_
  by_cases hid : r.id = id
  · simp only [Function.comp_apply, if_pos hid, hf]
  · simp only [Function.comp_apply, if_neg hid]

theorem confirm_of_error {e : Failure} (h : row db.uploads householdId uploadId = .error e) :
    confirm householdId uploadId at_ db = .error e := by
  rw [confirm, Transaction.getThe_bind, h]
  rfl

theorem confirm_of_none (h : row db.uploads householdId uploadId = .ok none) :
    confirm householdId uploadId at_ db = .ok (none, db) := by
  rw [confirm, Transaction.getThe_bind, h]
  rfl

theorem confirm_of_confirmed {row : ReceiptUploadRow}
    (h : ReceiptUploadRepository.row db.uploads householdId uploadId = .ok (some row))
    (hc : row.confirmedAt ≠ none) :
    confirm householdId uploadId at_ db = .ok (some row.toDomain, db) := by
  rw [confirm, Transaction.getThe_bind, h]
  simp only [if_neg hc]
  rfl

/-- A first confirmation writes its instant, unless it lies before the request. -/
theorem confirm_of_unconfirmed {row : ReceiptUploadRow}
    (h : ReceiptUploadRepository.row db.uploads householdId uploadId = .ok (some row))
    (hc : row.confirmedAt = none) :
    (violated { row with confirmedAt := some at_ }.rowChecks = none ∧
        confirm householdId uploadId at_ db = .ok (
          some { row with confirmedAt := some at_ }.toDomain,
          { db with uploads := updateConfirmedAt uploadId at_ db.uploads })) ∨
      ∃ c, violated { row with confirmedAt := some at_ }.rowChecks = some c ∧
        confirm householdId uploadId at_ db = .error (.upload c) := by
  rw [confirm, Transaction.getThe_bind, h]
  simp only [if_pos hc]
  cases hv : violated { row with confirmedAt := some at_ }.rowChecks with
  | none => exact .inl ⟨rfl, Transaction.bind_of_ok (require_of_none hv)⟩
  | some c => exact .inr ⟨c, rfl, Transaction.bind_of_error (by rw [require, hv]; rfl)⟩

end Confirm

section Frames

open Transaction

theorem raiseFold_preserves {α : Type} {P : Db → Prop} (r : Except InventoryFoldError α) :
    Preserves P (InventorySnapshotRepository.raiseFold r) := by
  cases r with
  | ok a => exact .pure a
  | error e => exact .throw _

section Projecting

variable [UnicodeTables] {P : Db → Prop} {householdId : UUID}

theorem projectKnownAsOf_preserves (asOf : Instant) :
    Preserves P (InventorySnapshotRepository.projectKnownAsOf householdId asOf) :=
  Preserves.get.bind fun _ => raiseFold_preserves _

variable (hs : ∀ S, Preserves P (InventorySnapshotRepository.save householdId S))
include hs

theorem rebuild_preserves (asOf : Instant) :
    Preserves P (InventorySnapshotRepository.rebuild householdId asOf) :=
  (projectKnownAsOf_preserves asOf).bind fun S => (hs S).bind fun _ => .pure S

/-- Advancing writes through `save` and not otherwise. -/
theorem advance_preserves (asOf : Instant) :
    Preserves P (InventorySnapshotRepository.advance householdId asOf) := by
  refine Preserves.get.bind fun db => ?_
  cases InventorySnapshotRepository.stored db.snapshots householdId with
  | none => exact rebuild_preserves hs asOf
  | some current =>
    by_cases ht : asOf < current.asOf
    · simp only [if_pos ht]
      exact projectKnownAsOf_preserves asOf
    · simp only [if_neg ht]
      exact Preserves.get.bind fun _ => (raiseFold_preserves _).bind fun S =>
        (hs S).bind fun _ => .pure S

end Projecting

end Frames

section Appends

variable [UnicodeTables]

theorem appendIfNew_of_admissible {householdId id : UUID} {now : Instant}
    {event : NewInventoryEvent} {db : Db}
    (h : Admissible db (toValues householdId id now event)) :
    appendIfNew householdId now id event db =
      .ok (((toValues householdId id now event).toDomain, true),
        db.addEvents [toValues householdId id now event]) := by
  rw [appendIfNew, Transaction.bind_of_ok (insertEventIfNew_of_admissible h)]
  rfl

theorem appendIfNew_of_conflict {householdId id : UUID} {now : Instant}
    {event : NewInventoryEvent} {db : Db}
    (h : insertEventIfNew (toValues householdId id now event) db = .ok (false, db)) :
    appendIfNew householdId now id event db =
      match getByIdempotencyKey db.events householdId event.idempotencyKey with
      | .error e => .error e
      | .ok none => .error (.idempotencyKeyConflict event.idempotencyKey)
      | .ok (some existing) => .ok ((existing, false), db) := by
  rw [appendIfNew, Transaction.bind_of_ok h]
  simp only [Bool.false_eq_true, if_false, Transaction.get_bind]
  rcases getByIdempotencyKey db.events householdId event.idempotencyKey
    with e | _ | existing <;> rfl

/-- An idempotent append commits an admissible row and otherwise leaves the tables as they are. -/
theorem appendIfNew_commit (householdId : UUID) (now : Instant) (id : UUID)
    (event : NewInventoryEvent) (db : Db) :
    (Admissible db (toValues householdId id now event) ∧
      (appendIfNew householdId now id event).commit db =
        db.addEvents [toValues householdId id now event]) ∨
      (¬ Admissible db (toValues householdId id now event) ∧
        (appendIfNew householdId now id event).commit db = db) := by
  rcases insertEventIfNew_cases (toValues householdId id now event) db with
    ⟨ha, -⟩ | ⟨⟨r, hm, hk⟩, h⟩ | ⟨c, hn, h⟩
  · exact .inl ⟨ha, Transaction.commit_of_ok (appendIfNew_of_admissible ha)⟩
  · refine .inr ⟨fun ha => ha.freshKey r hm hk, ?_⟩
    rw [Transaction.commit, appendIfNew_of_conflict h]
    rcases getByIdempotencyKey db.events householdId event.idempotencyKey
    with e | _ | existing <;> rfl
  · exact .inr ⟨hn, Transaction.commit_of_error (Transaction.bind_of_error h)⟩

end Appends

end KitchenSense
