import KitchenSense.Concurrency.Projections

/-! # A database with a clock

An append is stamped with the clock at the start of its transaction, and its
row is visible to others only once the transaction has committed. In between,
the clock moves on, calls of `advance` are made for the current instant, the
statements of the calls are executed, and requests about any instant are
answered from the committed log.
-/

namespace KitchenSense

structure PendingAppend where
  householdId : UUID
  startedAt : Instant
  id : UUID
  event : NewInventoryEvent
  deriving DecidableEq

/-- What `snapshot_as_of` read, and when. -/
structure Answer where
  householdId : UUID
  timestamp : Instant
  answeredAt : Instant
  snapshot : InventorySnapshot
  deriving DecidableEq

/-- The clock, the committed log, the open appends and the answers given so far; for each household
the instants `advance` was called with, and its projection. -/
structure Server where
  now : Instant
  db : Db
  pending : ℕ → Option PendingAppend
  answers : List Answer
  calls : UUID → List Instant
  projections : UUID → ProjectionState

inductive ServerAction
  | tick (now : Instant)
  | beginAppend (txn : ℕ) (householdId id : UUID) (event : NewInventoryEvent)
  | commitAppend (txn : ℕ)
  | rollbackAppend (txn : ℕ)
  | advance (householdId : UUID)
  | project (householdId : UUID) (action : ProjectionAction)
  | snapshotAsOf (householdId : UUID) (timestamp : Instant)

def Answer.Past (answer : Answer) : Prop := answer.timestamp < answer.answeredAt

instance (answer : Answer) : Decidable answer.Past :=
  inferInstanceAs (Decidable (answer.timestamp < answer.answeredAt))

variable [UnicodeTables]

/-- The row of a pending append; the database stamps it with the start of the transaction. -/
def PendingAppend.row (append : PendingAppend) : InventoryEventRow :=
  InventoryEventRepository.toValues append.householdId append.id append.startedAt append.event

namespace Server

/-- The calls of `advance` for a household, by their number. -/
def tasks (s : Server) (householdId : UUID) (i : ℕ) : ProjectionTask :=
  .advance ((s.calls householdId)[i]?.getD 0)

def tables (s : Server) (householdId : UUID) : Db :=
  (s.projections householdId).db s.db householdId

/-- Nothing has been called; the rows of the projection are those of the tables. -/
def initial (now : Instant) (db : Db) : Server where
  now
  db
  pending _ := none
  answers := []
  calls _ := []
  projections := .initial db

def step (s : Server) : ServerAction → Option Server
  | .tick now => if s.now ≤ now then some { s with now } else none
  | .beginAppend txn householdId id event =>
    -- a request carries no `recorded_at`
    if s.pending txn = none ∧ event.recordedAt = none then
      some { s with
        pending := Function.update s.pending txn (some ⟨householdId, s.now, id, event⟩) }
    else
      none
  | .commitAppend txn =>
    -- the unique index makes an insert wait for its rivals, so the commit settles its outcome
    (s.pending txn).map fun a => { s with
      db := (InventoryEventRepository.appendIfNew a.householdId a.startedAt a.id
        a.event).commit s.db
      pending := Function.update s.pending txn none }
  | .rollbackAppend txn =>
    (s.pending txn).map fun _ => { s with pending := Function.update s.pending txn none }
  | .advance householdId =>
    some { s with
      calls := Function.update s.calls householdId (s.calls householdId ++ [s.now]) }
  | .project householdId action =>
    if action.index < (s.calls householdId).length then
      ((s.projections householdId).step s.db householdId (s.tasks householdId) action).map
        fun p => { s with projections := Function.update s.projections householdId p }
    else
      none
  | .snapshotAsOf householdId timestamp =>
    match InventorySnapshotRepository.projectKnownAsOf householdId timestamp s.db with
    | .ok (snapshot, _) =>
      some { s with answers := ⟨householdId, timestamp, s.now, snapshot⟩ :: s.answers }
    | .error _ => none

theorem step_cases {s s' : Server} {action : ServerAction} (h : s.step action = some s') :
    (∃ now pending, s' = { s with now, pending }) ∨
      (∃ txn a pending, action = .commitAppend txn ∧ s.pending txn = some a ∧
        Admissible s.db a.row ∧ s' = { s with db := s.db.addEvents [a.row], pending }) ∨
      (∃ householdId, action = .advance householdId ∧ s' = { s with
        calls := Function.update s.calls householdId (s.calls householdId ++ [s.now]) }) ∨
      (∃ householdId a p, action = .project householdId a ∧
        a.index < (s.calls householdId).length ∧
        (s.projections householdId).step s.db householdId (s.tasks householdId) a = some p ∧
        s' = { s with projections := Function.update s.projections householdId p }) ∨
      ∃ householdId t S, action = .snapshotAsOf householdId t ∧
        IsReplay s.db.events householdId t S ∧
        s' = { s with answers := ⟨householdId, t, s.now, S⟩ :: s.answers } := by
  cases action with
  | tick now =>
    rw [step, Option.ite_none_right_eq_some] at h
    obtain ⟨-, ⟨⟩⟩ := h
    exact .inl ⟨now, s.pending, rfl⟩
  | beginAppend txn householdId id event =>
    rw [step, Option.ite_none_right_eq_some] at h
    obtain ⟨-, ⟨⟩⟩ := h
    exact .inl ⟨s.now, _, rfl⟩
  | commitAppend txn =>
    obtain ⟨a, ha, rfl⟩ := Option.map_eq_some_iff.mp h
    rcases appendIfNew_commit a.householdId a.startedAt a.id a.event s.db with ⟨hr, hd⟩ | ⟨-, hd⟩
    · exact .inr (.inl ⟨txn, a, _, rfl, ha, hr, by rw [hd]; rfl⟩)
    · exact .inl ⟨s.now, _, by rw [hd]⟩
  | rollbackAppend txn =>
    obtain ⟨a, -, rfl⟩ := Option.map_eq_some_iff.mp h
    exact .inl ⟨s.now, _, rfl⟩
  | advance householdId =>
    cases h
    exact .inr (.inr (.inl ⟨householdId, rfl, rfl⟩))
  | project householdId a =>
    rw [step, Option.ite_none_right_eq_some] at h
    obtain ⟨hi, h⟩ := h
    obtain ⟨p, hp, rfl⟩ := Option.map_eq_some_iff.mp h
    exact .inr (.inr (.inr (.inl ⟨householdId, a, p, rfl, hi, hp, rfl⟩)))
  | snapshotAsOf householdId t =>
    obtain ⟨S, hS⟩ := exists_isReplay s.db.events householdId t
    rw [step, projectKnownAsOf_eq hS] at h
    cases h
    exact .inr (.inr (.inr (.inr ⟨householdId, t, S, rfl, hS, rfl⟩)))

theorem commitAppend_of_admissible {s s' : Server} {txn : ℕ} {a : PendingAppend}
    (h : s.step (.commitAppend txn) = some s') (ha : s.pending txn = some a)
    (hr : Admissible s.db a.row) : ∃ pending,
      s' = { s with db := s.db.addEvents [a.row], pending } := by
  obtain ⟨b, hb, rfl⟩ := Option.map_eq_some_iff.mp h
  cases ha.symm.trans hb
  have hd := Transaction.commit_of_ok (appendIfNew_of_admissible hr)
  exact ⟨Function.update s.pending txn none, by rw [hd]; rfl⟩

end Server

end KitchenSense
