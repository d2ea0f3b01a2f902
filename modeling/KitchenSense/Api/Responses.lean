import KitchenSense.Api.Admission
import KitchenSense.Api.Security
import KitchenSense.Domain.WellFormed

/-! # Responses of the inventory endpoints

A response model trims its strings, as a request model does. What the fold
writes is trimmed already, so a response shows a snapshot as it is. Errors that
reach the application are turned into replies by their class.
-/

namespace KitchenSense

namespace LotState

def isDepleted (lot : LotState) : Bool := lot.quantity ≤ 0

def isOpened (lot : LotState) : Bool := lot.openedAt.isSome

end LotState

structure InventoryEventResponse where
  id : UUID
  householdId : UUID
  canonicalProductId : UUID
  eventType : EventType
  quantityDelta : Decimal
  unit : String
  storageLocation : StorageLocation
  printedDate : Option Date
  dateLabelType : Option DateLabelType
  occurredAt : Instant
  recordedAt : Instant
  source : String
  confidence : ℚ
  idempotencyKey : String
  metadata : String
  deriving DecidableEq

def InventoryEventResponse.fromDomain (event : InventoryEvent) : InventoryEventResponse where
  id := event.id
  householdId := event.householdId
  canonicalProductId := event.canonicalProductId
  eventType := event.eventType
  quantityDelta := event.quantityDelta
  unit := trim event.unit
  storageLocation := event.storageLocation
  printedDate := event.printedDate
  dateLabelType := event.dateLabelType
  occurredAt := event.occurredAt
  recordedAt := event.recordedAt
  source := trim event.source
  confidence := event.confidence
  idempotencyKey := trim event.idempotencyKey
  metadata := event.metadata

structure LotResponse where
  canonicalProductId : UUID
  storageLocation : StorageLocation
  unit : String
  printedDate : Option Date
  dateLabelType : Option DateLabelType
  quantity : Decimal
  purchasedQuantity : Decimal
  consumedQuantity : Decimal
  discardedQuantity : Decimal
  eventCount : ℕ
  firstOccurredAt : Instant
  lastOccurredAt : Instant
  lastRecordedAt : Instant
  openedAt : Option Instant
  isOpened : Bool
  isDepleted : Bool
  deriving DecidableEq

def LotResponse.fromDomain (lot : LotState) : LotResponse where
  canonicalProductId := lot.key.canonicalProductId
  storageLocation := lot.key.storageLocation
  unit := trim lot.key.unit
  printedDate := lot.key.printedDate
  dateLabelType := lot.key.dateLabelType
  quantity := lot.quantity
  purchasedQuantity := lot.purchasedQuantity
  consumedQuantity := lot.consumedQuantity
  discardedQuantity := lot.discardedQuantity
  eventCount := lot.eventCount
  firstOccurredAt := lot.firstOccurredAt
  lastOccurredAt := lot.lastOccurredAt
  lastRecordedAt := lot.lastRecordedAt
  openedAt := lot.openedAt
  isOpened := lot.isOpened
  isDepleted := lot.isDepleted

/-- What the household had, as far as the system knew at `asOf`. -/
structure SnapshotResponse where
  householdId : UUID
  asOf : Instant
  lotCount : ℕ
  lots : List LotResponse
  deriving DecidableEq

def SnapshotResponse.fromDomain (snapshot : InventorySnapshot) : SnapshotResponse where
  householdId := snapshot.householdId
  asOf := snapshot.asOf
  lotCount := snapshot.lots.length
  lots := snapshot.lots.map LotResponse.fromDomain

/-- How a request to an inventory endpoint is answered. -/
inductive InventoryReply
  /-- 201: the event was appended. -/
  | created (event : InventoryEventResponse)
  /-- 200: the key was used before. -/
  | existing (event : InventoryEventResponse)
  | snapshot (snapshot : SnapshotResponse)
  | refused (exception : HTTPException)
  /-- 422: the body was not accepted. -/
  | invalid (errors : List ValidationError)
  /-- 500: an exception that nothing handles. -/
  | serverError
  deriving DecidableEq

def InventoryReply.statusCode : InventoryReply → ℕ
  | .created _ => 201
  | .existing _ | .snapshot _ => 200
  | .refused exception => exception.statusCode
  | .invalid _ => 422
  | .serverError => 500

section Exceptions

/-- The reply to an `IdempotencyKeyConflictError`. -/
def keyInUse : HTTPException where
  statusCode := 409
  detail := "That idempotency_key is already in use by another household. " ++
    "Keys are unique across all households, so namespace them by whatever produced them."
  wwwAuthenticate := none

/-- The reply to an `IntegrityError`. -/
def notStored : HTTPException where
  statusCode := 422
  detail := "The event could not be stored. Check that canonical_product_id refers to a " ++
    "product that exists."
  wwwAuthenticate := none

/-- `_database_unreachable`: the reply to an `OperationalError` or an `InterfaceError`. -/
def databaseUnreachable : HTTPException where
  statusCode := 503
  detail := "The database is unavailable. Please try again shortly."
  wwwAuthenticate := none

/-- `_database_unconfigured`, and the reply of `get_session` without a connection string. -/
def databaseUnconfigured : HTTPException where
  statusCode := 503
  detail := "The database is not configured yet."
  wwwAuthenticate := none

/-- A violated check, key or reference is an `IntegrityError`; a value that is too large for its
column is none. -/
def EventConstraint.isIntegrityError : EventConstraint → Bool
  | .quantityDeltaNumeric | .unitWidth | .sourceWidth | .idempotencyKeyWidth => false
  | _ => true

def Failure.isIntegrityError : Failure → Bool
  | .event c => c.isIntegrityError
  | _ => false

/-- What `append_event` answers, from how `append_if_new` ends. -/
def appendReply : Except Failure (InventoryEvent × Bool) → InventoryReply
  | .ok (event, created) =>
    if created then .created (.fromDomain event) else .existing (.fromDomain event)
  | .error (.idempotencyKeyConflict _) => .refused keyInUse
  | .error e => if e.isIntegrityError then .refused notStored else .serverError

end Exceptions

section Shown

def LotResponse.lot (response : LotResponse) : LotState where
  key := ⟨response.canonicalProductId, response.storageLocation, response.unit,
    response.printedDate, response.dateLabelType⟩
  quantity := response.quantity
  purchasedQuantity := response.purchasedQuantity
  consumedQuantity := response.consumedQuantity
  discardedQuantity := response.discardedQuantity
  eventCount := response.eventCount
  firstOccurredAt := response.firstOccurredAt
  lastOccurredAt := response.lastOccurredAt
  lastRecordedAt := response.lastRecordedAt
  openedAt := response.openedAt

def SnapshotResponse.snapshot (response : SnapshotResponse) : InventorySnapshot where
  householdId := response.householdId
  asOf := response.asOf
  lots := response.lots.map LotResponse.lot

theorem trim_of_trimmed {s : String} (h : Trimmed isWhiteSpace s.toList) : trim s = s := by
  rw [trim, stripBy_of_trimmed h, String.ofList_toList]

theorem LotResponse.lot_fromDomain {lot : LotState} (h : trim lot.key.unit = lot.key.unit) :
    (LotResponse.fromDomain lot).lot = lot := by
  rw [LotResponse.lot, LotResponse.fromDomain, h]

variable [UnicodeTables]

theorem trim_normalizeUnit (h : LowerSettled) (unit : String) :
    trim (normalizeUnit unit) = normalizeUnit unit := by
  have ht : Trimmed isSpace (normalizeUnit unit).toList := by
    rw [normalizeUnit, lower, String.toList_ofList]
    exact h.trimmed_lowerFrom (trimmed_of_strip (strip_strip unit))
  apply trim_of_trimmed
  exact ht.mono fun c hc => (Bool.and_eq_true_iff.mp hc).1

/-- A response shows its snapshot when the units are those the fold writes. -/
theorem SnapshotResponse.snapshot_fromDomain (h : LowerSettled) {snapshot : InventorySnapshot}
    (hu : ∀ lot ∈ snapshot.lots, NormalizedUnit lot.key.unit) :
    (SnapshotResponse.fromDomain snapshot).snapshot = snapshot := by
  have hlots : snapshot.lots.map (LotResponse.lot ∘ LotResponse.fromDomain) = snapshot.lots := by
    conv_rhs => rw [← List.map_id snapshot.lots]
    apply List.map_congr_left
    intro lot hm
    obtain ⟨written, hw⟩ := hu lot hm
    apply LotResponse.lot_fromDomain
    rw [← hw, trim_normalizeUnit h]
  rw [SnapshotResponse.snapshot, SnapshotResponse.fromDomain, List.map_map, hlots]

end Shown

end KitchenSense
