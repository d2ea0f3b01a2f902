import KitchenSense.Repositories.Households
import KitchenSense.Tenancy.Operations

/-! # The revisions of the database

The revisions from the kitchen record to the uploads, and the migrations from
each to its neighbours. A household that is deleted takes its projection with
it, and is kept from being deleted by its events and its uploads.
-/

namespace KitchenSense

inductive Revision
  | kitchenRecord
  | placeholderHousehold
  | dropPlaceholder
  | receiptUploads
  deriving DecidableEq

/-- The tables; `receipt_uploads` is not there at every revision. -/
structure Schema where
  households : List HouseholdRow
  products : List UUID
  events : List InventoryEventRow
  snapshots : List InventorySnapshotRow
  uploads : Option (List ReceiptUploadRow)

/-- The references to a household that keep it from being deleted. -/
inductive Restriction
  | inventoryEvents
  | receiptUploads
  deriving DecidableEq

inductive MigrationFailure
  | foreignKey (restriction : Restriction)
  | household (c : HouseholdConstraint)
  | tableExists
  | tableMissing
  deriving DecidableEq

abbrev Migration := Transaction Schema MigrationFailure

inductive Notice
  /-- A warning, with the number of events that still reference the household. -/
  | leaving (events : ℕ)
  | removed
  deriving DecidableEq

/-- `HOUSEHOLD_ID`. -/
def placeholderId : UUID := 0x11111111111141118111111111111111

def Notice.message : Notice → String
  | .leaving events => "Leaving the placeholder household " ++ placeholderId.str ++ " in place: " ++
      toString events ++ " inventory event(s) still reference it. Those events predate " ++
      "authentication and are now unreachable, since no access token derives that household id. " ++
      "Migrate them to a real household, or delete them deliberately, before removing the row."
  | .removed => "Removed the placeholder household " ++ placeholderId.str

def placeholder : HouseholdRow := ⟨placeholderId, "Placeholder household", "Europe/London"⟩

example : placeholderId.str = "11111111-1111-4111-8111-111111111111" := by decide +kernel

def Schema.withoutHousehold (schema : Schema) (id : UUID) : Schema :=
  { schema with
    households := schema.households.filter fun row => row.id ≠ id
    snapshots := schema.snapshots.filter fun row => row.householdId ≠ id }

/-- `INSERT INTO households … ON CONFLICT (id) DO NOTHING`. -/
def insertHousehold (row : HouseholdRow) : Migration Unit := do
  let schema ← get
  match HouseholdRepository.insertIfNew row schema.households with
  | .error c => throw (.household c)
  | .ok true => set { schema with households := schema.households ++ [row] }
  | .ok false => return ()

/-- `DELETE FROM households WHERE id`; the number of rows deleted. -/
def deleteHousehold (id : UUID) : Migration ℕ := do
  let schema ← get
  let rowcount := schema.households.countP fun row => row.id = id
  if rowcount = 0 then
    return 0
  else if schema.events.any fun row => row.householdId = id then
    throw (.foreignKey .inventoryEvents)
  else if (schema.uploads.getD []).any fun row => row.householdId = id then
    throw (.foreignKey .receiptUploads)
  else
    set (schema.withoutHousehold id)
    return rowcount

namespace PlaceholderHousehold

def upgrade : Migration (Option Notice) := do
  insertHousehold placeholder
  return none

def downgrade : Migration (Option Notice) := do
  let schema ← get
  if schema.events.any fun row => row.householdId = placeholderId then
    return none
  else
    let _ ← deleteHousehold placeholderId
    return none

end PlaceholderHousehold

namespace DropPlaceholder

def upgrade : Migration (Option Notice) := do
  let schema ← get
  let events := schema.events.countP fun row => row.householdId = placeholderId
  if events ≠ 0 then
    return some (.leaving events)
  else
    let rowcount ← deleteHousehold placeholderId
    return if rowcount ≠ 0 then some .removed else none

def downgrade : Migration (Option Notice) := do
  insertHousehold placeholder
  return none

end DropPlaceholder

namespace ReceiptUploads

def upgrade : Migration (Option Notice) := do
  let schema ← get
  if schema.uploads.isSome then
    throw .tableExists
  else
    set { schema with uploads := some [] }
    return none

def downgrade : Migration (Option Notice) := do
  let schema ← get
  if schema.uploads.isNone then
    throw .tableMissing
  else
    set { schema with uploads := none }
    return none

end ReceiptUploads

inductive Direction
  | upgrade
  | downgrade
  deriving DecidableEq

/-- The migration that leaves a revision in a direction, and the revision it leads to. -/
def Revision.migration : Revision → Direction → Option (Migration (Option Notice) × Revision)
  | kitchenRecord, .upgrade => some (PlaceholderHousehold.upgrade, placeholderHousehold)
  | placeholderHousehold, .upgrade => some (DropPlaceholder.upgrade, dropPlaceholder)
  | dropPlaceholder, .upgrade => some (ReceiptUploads.upgrade, receiptUploads)
  | receiptUploads, .upgrade => none
  | receiptUploads, .downgrade => some (ReceiptUploads.downgrade, dropPlaceholder)
  | dropPlaceholder, .downgrade => some (DropPlaceholder.downgrade, placeholderHousehold)
  | placeholderHousehold, .downgrade => some (PlaceholderHousehold.downgrade, kitchenRecord)
  | kitchenRecord, .downgrade => none

/-- A write of the application, or of the catalogue of products. -/
inductive Write
  | call (call : Call)
  /-- The first sight of a household. -/
  | ensure (row : HouseholdRow)
  | product (id : UUID)

def Operation.onUploads : Operation → Bool
  | recordRequest .. | getUpload _ | confirm .. | unconfirmed _ => true
  | _ => false

namespace Schema

variable (schema : Schema)

def db : Db where
  households := schema.households.map (·.id)
  products := schema.products
  events := schema.events
  snapshots := schema.snapshots
  uploads := schema.uploads.getD []

def store (db : Db) : Schema :=
  { schema with
    events := db.events
    snapshots := db.snapshots
    uploads := schema.uploads.map fun _ => db.uploads }

variable [UnicodeTables]

def write : Write → Option Schema
  | .call call =>
    if call.operation.onUploads && schema.uploads.isNone then none
    else some (schema.store ((call.operation.run call.householdId).commit schema.db))
  | .ensure row =>
    match HouseholdRepository.ensure schema.households row with
    | .ok (_, households) => some { schema with households }
    | .error _ => none
  | .product id =>
    if schema.products.any fun product => product = id then none
    else some { schema with products := schema.products ++ [id] }

end Schema

structure Deployment where
  revision : Revision
  schema : Schema

inductive DeploymentAction
  | migrate (direction : Direction)
  | write (write : Write)

namespace Deployment

def migrate (s : Deployment) (direction : Direction) :
    Option (Except MigrationFailure (Option Notice × Deployment)) :=
  (s.revision.migration direction).map fun (migration, revision) =>
    (migration s.schema).map fun (notice, schema) => (notice, ⟨revision, schema⟩)

variable [UnicodeTables]

def step (s : Deployment) : DeploymentAction → Option Deployment
  | .migrate direction => (s.migrate direction).map fun outcome =>
      match outcome with
      | .ok (_, s') => s'
      | .error _ => s
  | .write write => (s.schema.write write).map fun schema => { s with schema }

end Deployment

end KitchenSense
