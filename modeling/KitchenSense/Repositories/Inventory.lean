import KitchenSense.Database.Tables
import Mathlib.Data.Prod.Lex

/-! # The inventory repositories

Append-only access to the event log and the stored projection derived from it.
Queries are functions of the rows they read; calls that write, or that read in
several statements, are transactions.
-/

namespace KitchenSense

/-- `scalars().one_or_none()`. -/
def oneOrNone {α : Type} : List α → Except Failure (Option α)
  | [] => .ok none
  | [a] => .ok (some a)
  | _ => .error .multipleResultsFound

namespace InventoryEventRepository

def scopedTo (log : List InventoryEventRow) (householdId : UUID) : List InventoryEventRow :=
  log.filter fun row => row.householdId = householdId

/-- `ORDER BY recorded_at, occurred_at, id`. -/
def orderKey (row : InventoryEventRow) : ℤ ×ₗ ℤ ×ₗ ℕ :=
  toLex (row.recordedAt, toLex (row.occurredAt, row.id.toNat))

def ordered (rows : List InventoryEventRow) : List InventoryEventRow :=
  rows.insertionSort fun a b => orderKey a ≤ orderKey b

def fetch (rows : List InventoryEventRow) : List InventoryEvent :=
  (ordered rows).map InventoryEventRow.toDomain

/-- `occurred_at <= as_of AND recorded_at <= as_of`. -/
def knownAsOf (asOf : Instant) (row : InventoryEventRow) : Bool :=
  row.occurredAt ≤ asOf ∧ row.recordedAt ≤ asOf

/-- Everything a household's log knew at `asOf`, by both clocks. -/
def eventsKnownAsOf (log : List InventoryEventRow) (householdId : UUID) (asOf : Instant)
    (canonicalProductId : Option UUID) : List InventoryEvent :=
  let statement := (scopedTo log householdId).filter (knownAsOf asOf)
  match canonicalProductId with
  | none => fetch statement
  | some product => fetch (statement.filter fun row => row.canonicalProductId = product)

/-- Events that became known in `(after, asOf]`, by either clock. -/
def eventsKnownBetween (log : List InventoryEventRow) (householdId : UUID)
    (after asOf : Instant) : List InventoryEvent :=
  fetch ((scopedTo log householdId).filter fun row =>
    row.occurredAt ≤ asOf ∧ row.recordedAt ≤ asOf ∧
      (row.occurredAt > after ∨ row.recordedAt > after))

def getEvent (log : List InventoryEventRow) (householdId eventId : UUID) :
    Except Failure (Option InventoryEvent) :=
  (oneOrNone ((scopedTo log householdId).filter fun row => row.id = eventId)).map
    (Option.map InventoryEventRow.toDomain)

def getByIdempotencyKey (log : List InventoryEventRow) (householdId : UUID) (key : String) :
    Except Failure (Option InventoryEvent) :=
  (oneOrNone ((scopedTo log householdId).filter fun row => row.idempotencyKey = key)).map
    (Option.map InventoryEventRow.toDomain)

def countKnownAsOf (log : List InventoryEventRow) (householdId : UUID) (asOf : Instant) : ℕ :=
  ((scopedTo log householdId).filter (knownAsOf asOf)).length

/-- The newest `recorded_at` visible at `asOf`. -/
def latestRecordedAt (log : List InventoryEventRow) (householdId : UUID) (asOf : Instant) :
    Option Instant :=
  (((scopedTo log householdId).filter (knownAsOf asOf)).map (·.recordedAt)).max?

/-- The distinct products a household has ever touched, as of `asOf`. -/
def productsKnownAsOf (log : List InventoryEventRow) (householdId : UUID) (asOf : Instant) :
    List UUID :=
  (((scopedTo log householdId).filter (knownAsOf asOf)).map (·.canonicalProductId)).eraseDups

section Write

variable [UnicodeTables]

/-- `_to_values`, with the id and the time the database gives a row that carries none. -/
def toValues (householdId : UUID) (id : UUID) (now : Instant) (event : NewInventoryEvent) :
    InventoryEventRow where
  id := id
  householdId := householdId
  canonicalProductId := event.canonicalProductId
  eventType := event.eventType
  quantityDelta := event.quantityDelta
  unit := normalizeUnit event.unit
  storageLocation := event.storageLocation
  printedDate := event.printedDate
  dateLabelType := event.dateLabelType
  occurredAt := event.occurredAt
  recordedAt := event.recordedAt.getD now
  source := event.source
  confidence := event.confidence
  idempotencyKey := event.idempotencyKey
  eventMetadata := event.metadata

def appendMany (householdId : UUID) (now : Instant) (events : List (UUID × NewInventoryEvent)) :
    Tx (List InventoryEvent) := do
  let rows := events.map fun e => toValues householdId e.1 now e.2
  forM rows insertEvent
  return rows.map InventoryEventRow.toDomain

def append (householdId : UUID) (now : Instant) (id : UUID) (event : NewInventoryEvent) :
    Tx InventoryEvent := do
  match ← appendMany householdId now [(id, event)] with
  | appended :: _ => return appended
  | [] => throw .indexError

def appendIfNew (householdId : UUID) (now : Instant) (id : UUID) (event : NewInventoryEvent) :
    Tx (InventoryEvent × Bool) := do
  let row := toValues householdId id now event
  if ← insertEventIfNew row then
    return (row.toDomain, true)
  match getByIdempotencyKey (← get).events householdId event.idempotencyKey with
  | .error e => throw e
  | .ok none => throw (.idempotencyKeyConflict event.idempotencyKey)
  | .ok (some existing) => return (existing, false)

end Write

end InventoryEventRepository

namespace InventorySnapshotRepository

open InventoryEventRepository (eventsKnownAsOf eventsKnownBetween)

def scopedTo (rows : List InventorySnapshotRow) (householdId : UUID) : List InventorySnapshotRow :=
  rows.filter fun row => row.householdId = householdId

/-- `get`: the stored projection, or `none` if there are no rows. -/
def stored (rows : List InventorySnapshotRow) (householdId : UUID) : Option InventorySnapshot :=
  let rows := scopedTo rows householdId
  (rows.map (·.asOf)).max?.map fun asOf =>
    { householdId, asOf
      lots := (rows.map InventorySnapshotRow.toDomain).insertionSort
        fun a b => a.key.sortKey ≤ b.key.sortKey }

def toRow (householdId : UUID) (asOf : Instant) (lot : LotState) : InventorySnapshotRow where
  householdId := householdId
  canonicalProductId := lot.key.canonicalProductId
  storageLocation := lot.key.storageLocation
  unit := lot.key.unit
  printedDate := lot.key.printedDate
  dateLabelType := lot.key.dateLabelType
  quantity := lot.quantity
  purchasedQuantity := lot.purchasedQuantity
  consumedQuantity := lot.consumedQuantity
  discardedQuantity := lot.discardedQuantity
  eventCount := lot.eventCount
  firstOccurredAt := lot.firstOccurredAt
  lastOccurredAt := lot.lastOccurredAt
  lastRecordedAt := lot.lastRecordedAt
  openedAt := lot.openedAt
  asOf := asOf

def toRows (snapshot : InventorySnapshot) : List InventorySnapshotRow :=
  snapshot.lots.map (toRow snapshot.householdId snapshot.asOf)

/-- `DELETE FROM inventory_snapshot` for one household. -/
def clear (householdId : UUID) : Tx Unit :=
  modify fun db =>
    { db with snapshots := db.snapshots.filter fun row => row.householdId ≠ householdId }

def save (householdId : UUID) (snapshot : InventorySnapshot) : Tx Unit := do
  if snapshot.householdId ≠ householdId then
    throw (.fold (.snapshotMismatch snapshot.householdId householdId))
  else
    clear householdId
    forM (toRows snapshot) insertSnapshotRow

def raiseFold {α : Type} : Except InventoryFoldError α → Tx α
  | .ok a => pure a
  | .error e => throw (.fold e)

section Project

variable [UnicodeTables]

def projectKnownAsOf (householdId : UUID) (asOf : Instant) : Tx InventorySnapshot := do
  let events := eventsKnownAsOf (← get).events householdId asOf none
  raiseFold (foldEvents events householdId asOf)

def rebuild (householdId : UUID) (asOf : Instant) : Tx InventorySnapshot := do
  let snapshot ← projectKnownAsOf householdId asOf
  save householdId snapshot
  return snapshot

def advance (householdId : UUID) (asOf : Instant) : Tx InventorySnapshot := do
  match stored (← get).snapshots householdId with
  | none => rebuild householdId asOf
  | some current =>
    if asOf < current.asOf then
      projectKnownAsOf householdId asOf
    else
      let newEvents := eventsKnownBetween (← get).events householdId current.asOf asOf
      let snapshot ← raiseFold (applyEvents current newEvents asOf)
      save householdId snapshot
      return snapshot

end Project

end InventorySnapshotRepository

end KitchenSense
