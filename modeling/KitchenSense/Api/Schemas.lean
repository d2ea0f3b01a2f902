import KitchenSense.Domain.Inventory
import KitchenSense.Foundations.Scientific

/-! # The request model of an event

`InventoryEventCreate` trims the strings of a body, checks the bounds of its
fields one by one, and then the two conditions that tie fields together.
-/

namespace KitchenSense

/-- What is wrong with a field, or with the fields taken together. -/
inductive Problem
  | stringTooShort (minLength : ℕ)
  | stringTooLong (maxLength : ℕ)
  | decimalMaxDigits (maxDigits : ℕ)
  | decimalMaxPlaces (decimalPlaces : ℕ)
  | decimalWholeDigits (wholeDigits : ℕ)
  | lessThanEqual (le : ℚ)
  | greaterThanEqual (ge : ℚ)
  | valueError (message : String)
  deriving DecidableEq

structure ValidationError where
  loc : List String
  problem : Problem
  deriving DecidableEq

/-- The body of a request, its strings and its decimal as written. -/
structure InventoryEventBody where
  canonicalProductId : UUID
  eventType : EventType
  quantityDelta : Scientific
  unit : String
  storageLocation : StorageLocation
  occurredAt : Instant
  source : String
  idempotencyKey : String
  printedDate : Option Date := none
  dateLabelType : Option DateLabelType := none
  confidence : ℚ := 1
  metadata : String := "{}"
  deriving DecidableEq

structure InventoryEventCreate where
  canonicalProductId : UUID
  eventType : EventType
  quantityDelta : Scientific
  unit : String
  storageLocation : StorageLocation
  occurredAt : Instant
  source : String
  idempotencyKey : String
  printedDate : Option Date
  dateLabelType : Option DateLabelType
  confidence : ℚ
  metadata : String
  deriving DecidableEq

section Fields

/-- `Field(min_length=1, max_length=…)`, on the trimmed string. -/
def textErrors (field : String) (maxLength : ℕ) (s : String) : List ValidationError :=
  if s.length < 1 then [⟨[field], .stringTooShort 1⟩]
  else if s.length > maxLength then [⟨[field], .stringTooLong maxLength⟩]
  else []

/-- `Field(max_digits=…, decimal_places=…)`: a bound is met as written or without trailing zeros. -/
def decimalErrors (field : String) (maxDigits decimalPlaces : ℕ) (d : Scientific) :
    List ValidationError :=
  if d.digits > maxDigits ∧ d.normalize.digits > maxDigits then
    [⟨[field], .decimalMaxDigits maxDigits⟩]
  else if d.decimals > decimalPlaces ∧ d.normalize.decimals > decimalPlaces then
    [⟨[field], .decimalMaxPlaces decimalPlaces⟩]
  else if d.wholeDigits > maxDigits - decimalPlaces ∧
      d.normalize.wholeDigits > maxDigits - decimalPlaces then
    [⟨[field], .decimalWholeDigits (maxDigits - decimalPlaces)⟩]
  else []

/-- `Field(ge=…, le=…)`. -/
def rangeErrors (field : String) (ge le q : ℚ) : List ValidationError :=
  if q > le then [⟨[field], .lessThanEqual le⟩]
  else if q < ge then [⟨[field], .greaterThanEqual ge⟩]
  else []

end Fields

namespace InventoryEventBody

def trimmed (body : InventoryEventBody) : InventoryEventCreate where
  canonicalProductId := body.canonicalProductId
  eventType := body.eventType
  quantityDelta := body.quantityDelta
  unit := trim body.unit
  storageLocation := body.storageLocation
  occurredAt := body.occurredAt
  source := trim body.source
  idempotencyKey := trim body.idempotencyKey
  printedDate := body.printedDate
  dateLabelType := body.dateLabelType
  confidence := body.confidence
  metadata := body.metadata

end InventoryEventBody

namespace InventoryEventCreate

def quantityDeltaErrors (request : InventoryEventCreate) : List ValidationError :=
  decimalErrors "quantity_delta" 14 3 request.quantityDelta

def unitErrors (request : InventoryEventCreate) : List ValidationError :=
  textErrors "unit" 24 request.unit

def sourceErrors (request : InventoryEventCreate) : List ValidationError :=
  textErrors "source" 64 request.source

def idempotencyKeyErrors (request : InventoryEventCreate) : List ValidationError :=
  textErrors "idempotency_key" 200 request.idempotencyKey

def confidenceErrors (request : InventoryEventCreate) : List ValidationError :=
  rangeErrors "confidence" 0 1 request.confidence

def fieldErrors (request : InventoryEventCreate) : List ValidationError :=
  request.quantityDeltaErrors ++ request.unitErrors ++ request.sourceErrors ++
    request.idempotencyKeyErrors ++ request.confidenceErrors

/-- `_check_label_has_a_date`. -/
def checkLabelHasADate (request : InventoryEventCreate) : Except (List ValidationError) Unit :=
  if request.dateLabelType ≠ none ∧ request.printedDate = none then
    .error [⟨[], .valueError
      "date_label_type needs a printed_date: a 'use by' with no date on it says nothing"⟩]
  else .ok ()

/-- `_check_delta_matches_event_type`. -/
def checkDeltaMatchesEventType (request : InventoryEventCreate) :
    Except (List ValidationError) Unit :=
  if request.eventType = .purchased ∧ request.quantityDelta.coefficient < 0 then
    .error [⟨[], .valueError ("a purchased event cannot have a negative quantity_delta; " ++
      "record a return as a 'corrected' event")⟩]
  else if request.eventType ∈ [.consumed, .discarded] ∧ request.quantityDelta.coefficient > 0 then
    .error [⟨[], .valueError (s!"a {request.eventType.value} event cannot have a positive " ++
      "quantity_delta; it takes stock out, so the delta is negative")⟩]
  else .ok ()

/-- The domain event of a request; the household is not the client's to choose. -/
def toDomain (request : InventoryEventCreate) : NewInventoryEvent where
  canonicalProductId := request.canonicalProductId
  eventType := request.eventType
  quantityDelta := request.quantityDelta.thousandths
  unit := request.unit
  storageLocation := request.storageLocation
  printedDate := request.printedDate
  dateLabelType := request.dateLabelType
  occurredAt := request.occurredAt
  source := request.source
  confidence := request.confidence
  idempotencyKey := request.idempotencyKey
  metadata := request.metadata

end InventoryEventCreate

/-- Validate a body: the fields first, then the conditions between them. -/
def InventoryEventBody.validate (body : InventoryEventBody) :
    Except (List ValidationError) InventoryEventCreate :=
  let request := body.trimmed
  if request.fieldErrors ≠ [] then
    .error request.fieldErrors
  else do
    request.checkLabelHasADate
    request.checkDeltaMatchesEventType
    return request

end KitchenSense
