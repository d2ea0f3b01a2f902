import KitchenSense.Foundations.Dict
import KitchenSense.Domain.Values
import Mathlib.Data.List.Sort
import Mathlib.Data.Rat.Defs

/-! # Events, lots and snapshots

The kitchen record: an append-only log of bitemporal events and its fold into
a snapshot, which lists one lot for each product, place, unit and printed date.
-/

namespace KitchenSense

inductive EventType
  | purchased | opened | consumed | discarded | corrected | moved
  deriving DecidableEq, Repr

def EventType.value : EventType → String
  | .purchased => "purchased"
  | .opened => "opened"
  | .consumed => "consumed"
  | .discarded => "discarded"
  | .corrected => "corrected"
  | .moved => "moved"

inductive DateLabelType
  | useBy | bestBefore
  deriving DecidableEq, Repr

def DateLabelType.value : DateLabelType → String
  | .useBy => "use_by"
  | .bestBefore => "best_before"

inductive StorageLocation
  | pantry | fridge | freezer | counter | other
  deriving DecidableEq, Repr

def StorageLocation.value : StorageLocation → String
  | .pantry => "pantry"
  | .fridge => "fridge"
  | .freezer => "freezer"
  | .counter => "counter"
  | .other => "other"

/-- An event about to be appended. It carries no household. -/
structure NewInventoryEvent where
  canonicalProductId : UUID
  eventType : EventType
  quantityDelta : Decimal
  unit : String
  storageLocation : StorageLocation
  occurredAt : Instant
  source : String
  idempotencyKey : String
  printedDate : Option Date := none
  dateLabelType : Option DateLabelType := none
  confidence : ℚ := 1
  recordedAt : Option Instant := none
  metadata : String := "{}"
  deriving DecidableEq

structure InventoryEvent where
  id : UUID
  householdId : UUID
  canonicalProductId : UUID
  eventType : EventType
  quantityDelta : Decimal
  unit : String
  storageLocation : StorageLocation
  printedDate : Option Date
  dateLabelType : Option DateLabelType
  occurredAt : Instant
  recordedAt : Instant
  source : String
  confidence : ℚ
  idempotencyKey : String
  metadata : String
  deriving DecidableEq

structure LotKey where
  canonicalProductId : UUID
  storageLocation : StorageLocation
  unit : String
  printedDate : Option Date
  dateLabelType : Option DateLabelType
  deriving DecidableEq

structure LotState where
  key : LotKey
  quantity : Decimal
  purchasedQuantity : Decimal
  consumedQuantity : Decimal
  discardedQuantity : Decimal
  eventCount : ℕ
  firstOccurredAt : Instant
  lastOccurredAt : Instant
  lastRecordedAt : Instant
  openedAt : Option Instant
  deriving DecidableEq

/-- What a household had, as far as the system knew at `asOf`. -/
structure InventorySnapshot where
  householdId : UUID
  asOf : Instant
  lots : List LotState
  deriving DecidableEq

/-- Refusals of the fold, with the values their messages show. -/
inductive InventoryFoldError
  /-- `InventoryFoldError`: cannot combine different lots. -/
  | differentLots (left right : LotKey)
  /-- `HouseholdMismatchError`: an event belongs to another household. -/
  | eventMismatch (event belongs expected : UUID)
  /-- `HouseholdMismatchError`: a snapshot belongs to another household. -/
  | snapshotMismatch (belongs expected : UUID)
  /-- `HouseholdMismatchError`: two snapshots to be merged have different households. -/
  | differentHouseholds (left right : UUID)
  /-- `LabelLeakageError`: the instant moved backwards. -/
  | movedBackwards (asOf current : Instant)
  /-- `LabelLeakageError`: an event was not known at the instant. -/
  | notKnown (event : UUID) (occurredAt recordedAt asOf : Instant)
  deriving DecidableEq

/-- The order of `LotKey.sort_key`, a tuple of strings compared from the left. -/
def LotKey.sortKey (k : LotKey) : List String :=
  [k.canonicalProductId.str, k.storageLocation.value, k.unit,
    (k.printedDate.map Date.isoformat).getD "", (k.dateLabelType.map DateLabelType.value).getD ""]

def earliest : Option Instant → Option Instant → Option Instant
  | none, right => right
  | left, none => left
  | some left, some right => some (min left right)

def combineLots (left right : LotState) : Except InventoryFoldError LotState :=
  if left.key ≠ right.key then
    .error (.differentLots left.key right.key)
  else
    .ok {
      key := left.key
      quantity := left.quantity + right.quantity
      purchasedQuantity := left.purchasedQuantity + right.purchasedQuantity
      consumedQuantity := left.consumedQuantity + right.consumedQuantity
      discardedQuantity := left.discardedQuantity + right.discardedQuantity
      eventCount := left.eventCount + right.eventCount
      firstOccurredAt := min left.firstOccurredAt right.firstOccurredAt
      lastOccurredAt := max left.lastOccurredAt right.lastOccurredAt
      lastRecordedAt := max left.lastRecordedAt right.lastRecordedAt
      openedAt := earliest left.openedAt right.openedAt }

/-- `_freeze`: the lots of a dictionary in the order of their keys. -/
def freeze (householdId : UUID) (asOf : Instant) (lots : Dict LotKey LotState) :
    InventorySnapshot where
  householdId := householdId
  asOf := asOf
  lots := lots.values.insertionSort fun a b => a.key.sortKey ≤ b.key.sortKey

def emptySnapshot (householdId : UUID) (asOf : Instant) : InventorySnapshot :=
  ⟨householdId, asOf, []⟩

/-- `snapshot.lot(key)`. -/
def InventorySnapshot.lot (snapshot : InventorySnapshot) (key : LotKey) : Option LotState :=
  snapshot.lots.find? fun lot => lot.key = key

def InventorySnapshot.quantityOf (snapshot : InventorySnapshot) (canonicalProductId : UUID) :
    Decimal :=
  ((snapshot.lots.filter fun lot => lot.key.canonicalProductId = canonicalProductId).map
    (·.quantity)).sum

/-- The body of the loop of `combine_snapshots`. -/
def mergeLot (lots : Dict LotKey LotState) (lot : LotState) :
    Except InventoryFoldError (Dict LotKey LotState) :=
  match lots.get? lot.key with
  | none => .ok (lots.set lot.key lot)
  | some existing => (combineLots existing lot).map (lots.set lot.key)

/-- Merge two snapshots of disjoint event sets for the same household. -/
def combineSnapshots (left right : InventorySnapshot) :
    Except InventoryFoldError InventorySnapshot :=
  if left.householdId ≠ right.householdId then
    .error (.differentHouseholds left.householdId right.householdId)
  else
    (right.lots.foldlM mergeLot
      (Dict.ofPairs (left.lots.map fun lot => (lot.key, lot)))).map
        (freeze left.householdId (max left.asOf right.asOf))

section Fold

variable [UnicodeTables]

def normalizeUnit (unit : String) : String := lower (strip unit)

def LotKey.forEvent (event : InventoryEvent) : LotKey where
  canonicalProductId := event.canonicalProductId
  storageLocation := event.storageLocation
  unit := normalizeUnit event.unit
  printedDate := event.printedDate
  dateLabelType := event.dateLabelType

def lotFromEvent (event : InventoryEvent) : LotState where
  key := LotKey.forEvent event
  quantity := event.quantityDelta
  purchasedQuantity := if event.eventType = .purchased then event.quantityDelta else 0
  consumedQuantity := if event.eventType = .consumed then -event.quantityDelta else 0
  discardedQuantity := if event.eventType = .discarded then -event.quantityDelta else 0
  eventCount := 1
  firstOccurredAt := event.occurredAt
  lastOccurredAt := event.occurredAt
  lastRecordedAt := event.recordedAt
  openedAt := if event.eventType = .opened then some event.occurredAt else none

/-- The body of the loop of `apply_events`. -/
def absorb (householdId : UUID) (asOf : Instant) (lots : Dict LotKey LotState)
    (event : InventoryEvent) : Except InventoryFoldError (Dict LotKey LotState) :=
  if event.householdId ≠ householdId then
    .error (.eventMismatch event.id event.householdId householdId)
  else if event.occurredAt > asOf ∨ event.recordedAt > asOf then
    .error (.notKnown event.id event.occurredAt event.recordedAt asOf)
  else
    let incoming := lotFromEvent event
    match lots.get? incoming.key with
    | none => .ok (lots.set incoming.key incoming)
    | some existing => (combineLots existing incoming).map (lots.set incoming.key)

/-- Advance a snapshot to `asOf` by folding in newly known events. -/
def applyEvents (snapshot : InventorySnapshot) (events : List InventoryEvent) (asOf : Instant) :
    Except InventoryFoldError InventorySnapshot :=
  if asOf < snapshot.asOf then
    .error (.movedBackwards asOf snapshot.asOf)
  else
    (events.foldlM (absorb snapshot.householdId asOf)
      (Dict.ofPairs (snapshot.lots.map fun lot => (lot.key, lot)))).map
        (freeze snapshot.householdId asOf)

def foldEvents (events : List InventoryEvent) (householdId : UUID) (asOf : Instant) :
    Except InventoryFoldError InventorySnapshot :=
  applyEvents (emptySnapshot householdId asOf) events asOf

end Fold

end KitchenSense
