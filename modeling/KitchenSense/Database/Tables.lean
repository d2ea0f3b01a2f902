import KitchenSense.Foundations.Transaction
import KitchenSense.Domain.Inventory
import KitchenSense.Domain.Receipts

/-! # Tables

The rows of the three tables the application writes, the constraints that
guard them, and the statements that insert a row. The surrogate key of a
snapshot row and the time it was computed are left out: nothing reads them.
-/

namespace KitchenSense

/-- A row of `inventory_events`. -/
structure InventoryEventRow where
  id : UUID
  householdId : UUID
  canonicalProductId : UUID
  eventType : EventType
  quantityDelta : Decimal
  unit : String
  storageLocation : StorageLocation
  printedDate : Option Date
  dateLabelType : Option DateLabelType
  occurredAt : Instant
  recordedAt : Instant
  source : String
  confidence : ℚ
  idempotencyKey : String
  eventMetadata : String
  deriving DecidableEq

/-- A row of `inventory_snapshot`. -/
structure InventorySnapshotRow where
  householdId : UUID
  canonicalProductId : UUID
  storageLocation : StorageLocation
  unit : String
  printedDate : Option Date
  dateLabelType : Option DateLabelType
  quantity : Decimal
  purchasedQuantity : Decimal
  consumedQuantity : Decimal
  discardedQuantity : Decimal
  eventCount : ℕ
  firstOccurredAt : Instant
  lastOccurredAt : Instant
  lastRecordedAt : Instant
  openedAt : Option Instant
  asOf : Instant
  deriving DecidableEq

/-- A row of `receipt_uploads`. -/
structure ReceiptUploadRow where
  id : UUID
  householdId : UUID
  blobName : String
  contentType : String
  requestedAt : Instant
  expiresAt : Instant
  confirmedAt : Option Instant
  deriving DecidableEq

def InventoryEventRow.toDomain (row : InventoryEventRow) : InventoryEvent where
  id := row.id
  householdId := row.householdId
  canonicalProductId := row.canonicalProductId
  eventType := row.eventType
  quantityDelta := row.quantityDelta
  unit := row.unit
  storageLocation := row.storageLocation
  printedDate := row.printedDate
  dateLabelType := row.dateLabelType
  occurredAt := row.occurredAt
  recordedAt := row.recordedAt
  source := row.source
  confidence := row.confidence
  idempotencyKey := row.idempotencyKey
  metadata := row.eventMetadata

def InventorySnapshotRow.lotKey (row : InventorySnapshotRow) : LotKey where
  canonicalProductId := row.canonicalProductId
  storageLocation := row.storageLocation
  unit := row.unit
  printedDate := row.printedDate
  dateLabelType := row.dateLabelType

def InventorySnapshotRow.toDomain (row : InventorySnapshotRow) : LotState where
  key := row.lotKey
  quantity := row.quantity
  purchasedQuantity := row.purchasedQuantity
  consumedQuantity := row.consumedQuantity
  discardedQuantity := row.discardedQuantity
  eventCount := row.eventCount
  firstOccurredAt := row.firstOccurredAt
  lastOccurredAt := row.lastOccurredAt
  lastRecordedAt := row.lastRecordedAt
  openedAt := row.openedAt

def ReceiptUploadRow.toDomain (row : ReceiptUploadRow) : ReceiptUpload where
  id := row.id
  householdId := row.householdId
  blobName := row.blobName
  contentType := row.contentType
  requestedAt := row.requestedAt
  expiresAt := row.expiresAt
  confirmedAt := row.confirmedAt

/-- The tables one request sees. Households and products are only referenced. -/
structure Db where
  households : List UUID
  products : List UUID
  events : List InventoryEventRow
  snapshots : List InventorySnapshotRow
  uploads : List ReceiptUploadRow
  deriving DecidableEq

/-- The constraints of `inventory_events`: column types, checks, keys and references. -/
inductive EventConstraint
  | quantityDeltaNumeric | unitWidth | sourceWidth | idempotencyKeyWidth
  | purchasedDeltaNotNegative | removalDeltaNotPositive | labelTypeNeedsPrintedDate
  | confidenceIsAProbability | unitNotBlank | sourceNotBlank | idempotencyKeyNotBlank
  | primaryKey | idempotencyKeyUnique | householdExists | productExists
  deriving DecidableEq

/-- The constraints of `inventory_snapshot`. -/
inductive SnapshotConstraint
  | quantityNumeric | purchasedNumeric | consumedNumeric | discardedNumeric
  | eventCountInteger | unitWidth
  | eventCountPositive | labelTypeNeedsPrintedDate
  | uniqueLot | householdExists | productExists
  deriving DecidableEq

/-- The constraints of `receipt_uploads`. -/
inductive UploadConstraint
  | blobNameWidth | contentTypeWidth
  | blobNameNotBlank | contentTypeNotBlank | expiryAfterRequest | confirmationAfterRequest
  | primaryKey | blobNameUnique | householdExists
  deriving DecidableEq

inductive Failure
  | fold (e : InventoryFoldError)
  | idempotencyKeyConflict (key : String)
  | event (c : EventConstraint)
  | snapshot (c : SnapshotConstraint)
  | upload (c : UploadConstraint)
  | multipleResultsFound
  | indexError
  deriving DecidableEq

def violated {κ : Type} (checks : List (κ × Bool)) : Option κ :=
  (checks.find? fun c => !c.2).map Prod.fst

/-- `NUMERIC(14,3)`: eleven digits before the point. -/
def fitsNumeric (d : Decimal) : Bool := -10 ^ 14 < d && d < 10 ^ 14

/-- `length(btrim(s)) > 0`: `btrim` removes blanks and no other character. -/
def notBlank (s : String) : Bool := stripBy (· == ' ') s.toList ≠ []

def storableText (s : String) : Bool := !s.toList.contains '\x00'

def InventoryEventRow.rowChecks (row : InventoryEventRow) : List (EventConstraint × Bool) := [
  (.quantityDeltaNumeric, fitsNumeric row.quantityDelta),
  (.unitWidth, row.unit.length ≤ 24),
  (.sourceWidth, row.source.length ≤ 64),
  (.idempotencyKeyWidth, row.idempotencyKey.length ≤ 200),
  (.purchasedDeltaNotNegative, row.quantityDelta ≥ 0 ∨ row.eventType ≠ .purchased),
  (.removalDeltaNotPositive,
    row.quantityDelta ≤ 0 ∨ (row.eventType ≠ .consumed ∧ row.eventType ≠ .discarded)),
  (.labelTypeNeedsPrintedDate, row.dateLabelType = none ∨ row.printedDate ≠ none),
  (.confidenceIsAProbability, row.confidence ≥ 0 ∧ row.confidence ≤ 1),
  (.unitNotBlank, notBlank row.unit),
  (.sourceNotBlank, notBlank row.source),
  (.idempotencyKeyNotBlank, notBlank row.idempotencyKey)]

def InventoryEventRow.referenceChecks (row : InventoryEventRow) (db : Db) :
    List (EventConstraint × Bool) := [
  (.householdExists, row.householdId ∈ db.households),
  (.productExists, row.canonicalProductId ∈ db.products)]

def InventorySnapshotRow.columnChecks (row : InventorySnapshotRow) :
    List (SnapshotConstraint × Bool) := [
  (.quantityNumeric, fitsNumeric row.quantity),
  (.purchasedNumeric, fitsNumeric row.purchasedQuantity),
  (.consumedNumeric, fitsNumeric row.consumedQuantity),
  (.discardedNumeric, fitsNumeric row.discardedQuantity),
  (.eventCountInteger, row.eventCount < 2 ^ 31),
  (.unitWidth, row.unit.length ≤ 24)]

def InventorySnapshotRow.tableChecks (row : InventorySnapshotRow) (db : Db) :
    List (SnapshotConstraint × Bool) := [
  (.eventCountPositive, row.eventCount > 0),
  (.labelTypeNeedsPrintedDate, row.dateLabelType = none ∨ row.printedDate ≠ none),
  (.uniqueLot, db.snapshots.all fun r =>
    ¬ (r.householdId = row.householdId ∧ r.lotKey = row.lotKey)),
  (.householdExists, row.householdId ∈ db.households),
  (.productExists, row.canonicalProductId ∈ db.products)]

def ReceiptUploadRow.rowChecks (row : ReceiptUploadRow) : List (UploadConstraint × Bool) := [
  (.blobNameWidth, row.blobName.length ≤ 400),
  (.contentTypeWidth, row.contentType.length ≤ 128),
  (.blobNameNotBlank, notBlank row.blobName),
  (.contentTypeNotBlank, notBlank row.contentType),
  (.expiryAfterRequest, row.expiresAt > row.requestedAt),
  (.confirmationAfterRequest, row.confirmedAt.all fun t => row.requestedAt ≤ t)]

def ReceiptUploadRow.tableChecks (row : ReceiptUploadRow) (db : Db) :
    List (UploadConstraint × Bool) := [
  (.primaryKey, db.uploads.all fun r => r.id ≠ row.id),
  (.blobNameUnique, db.uploads.all fun r => r.blobName ≠ row.blobName),
  (.householdExists, row.householdId ∈ db.households)]

abbrev Tx := Transaction Db Failure

def require {κ : Type} (wrap : κ → Failure) (checks : List (κ × Bool)) : Tx Unit :=
  match violated checks with
  | none => pure ()
  | some c => throw (wrap c)

/-- `INSERT INTO inventory_events`. -/
def insertEvent (row : InventoryEventRow) : Tx Unit := do
  require .event row.rowChecks
  let db ← get
  require .event [
    (.primaryKey, db.events.all fun r => r.id ≠ row.id),
    (.idempotencyKeyUnique, db.events.all fun r => r.idempotencyKey ≠ row.idempotencyKey)]
  require .event (row.referenceChecks db)
  set { db with events := db.events ++ [row] }

/-- `INSERT … ON CONFLICT (idempotency_key) DO NOTHING`; whether a row was inserted. -/
def insertEventIfNew (row : InventoryEventRow) : Tx Bool := do
  require .event row.rowChecks
  let db ← get
  if db.events.any fun r => r.idempotencyKey = row.idempotencyKey then
    return false
  require .event [(.primaryKey, db.events.all fun r => r.id ≠ row.id)]
  require .event (row.referenceChecks db)
  set { db with events := db.events ++ [row] }
  return true

/-- `INSERT INTO inventory_snapshot`. -/
def insertSnapshotRow (row : InventorySnapshotRow) : Tx Unit := do
  require .snapshot row.columnChecks
  let db ← get
  require .snapshot (row.tableChecks db)
  set { db with snapshots := db.snapshots ++ [row] }

/-- `INSERT INTO receipt_uploads`. -/
def insertUpload (row : ReceiptUploadRow) : Tx Unit := do
  require .upload row.rowChecks
  let db ← get
  require .upload (row.tableChecks db)
  set { db with uploads := db.uploads ++ [row] }

end KitchenSense
