import KitchenSense.Foundations.Relational
import KitchenSense.Migrations.Walks

/-! # The triggers of the kitchen record

Sessions other than the application's run statements of their own on the same
tables. The triggers of `inventory_events` and the foreign keys keep the record:
in every mixture of statements, migrations and writes of the application it is
only added to, and what its events refer to is there.
-/

namespace KitchenSense

inductive KitchenTable
  | households
  | canonicalProducts
  | inventoryEvents
  | inventorySnapshot
  | receiptUploads
  deriving DecidableEq

abbrev KitchenRow : KitchenTable → Type
  | .households => HouseholdRow
  | .canonicalProducts => UUID
  | .inventoryEvents => InventoryEventRow
  | .inventorySnapshot => InventorySnapshotRow
  | .receiptUploads => ReceiptUploadRow

namespace KitchenTable

def check : (t : KitchenTable) → KitchenRow t → Bool
  | .households, row => (violated (HouseholdRow.rowChecks row)).isNone
  | .canonicalProducts, _ => true
  | .inventoryEvents, row => (violated (InventoryEventRow.rowChecks row)).isNone
  | .inventorySnapshot, row => (violated (InventorySnapshotRow.columnChecks row)).isNone &&
      0 < InventorySnapshotRow.eventCount row &&
      ((InventorySnapshotRow.dateLabelType row).isNone ||
        (InventorySnapshotRow.printedDate row).isSome)
  | .receiptUploads, row => (violated (ReceiptUploadRow.rowChecks row)).isNone

def distinct : (t : KitchenTable) → KitchenRow t → KitchenRow t → Bool
  | .households, a, b => HouseholdRow.id a ≠ HouseholdRow.id b
  | .canonicalProducts, a, b => (a : UUID) ≠ b
  | .inventoryEvents, a, b => InventoryEventRow.id a ≠ InventoryEventRow.id b &&
      InventoryEventRow.idempotencyKey a ≠ InventoryEventRow.idempotencyKey b
  | .inventorySnapshot, a, b => ¬ InventorySnapshotRow.Clash a b
  | .receiptUploads, a, b => ReceiptUploadRow.id a ≠ ReceiptUploadRow.id b &&
      ReceiptUploadRow.blobName a ≠ ReceiptUploadRow.blobName b

/-- `kitchensense_reject_mutation` is the trigger of `inventory_events` for all but insertions. -/
def refuses : KitchenTable → Verb → Bool
  | .inventoryEvents, .update | .inventoryEvents, .delete | .inventoryEvents, .truncate => true
  | _, _ => false

end KitchenTable

def SqlStatement.tables {τ : Type} {ρ : τ → Type} : SqlStatement ρ → List τ
  | .insert t _ | .update t _ | .delete t _ => [t]
  | .truncate tables _ => tables

namespace Schema

variable (schema : Schema)

def tables : Tables KitchenRow
  | .households => schema.households
  | .canonicalProducts => schema.products
  | .inventoryEvents => schema.events
  | .inventorySnapshot => schema.snapshots
  | .receiptUploads => schema.uploads.getD []

end Schema

section References

variable {db : Tables KitchenRow} {schema schema' : Schema} {statement : SqlStatement KitchenRow}

end References

section Households

variable {db : Tables KitchenRow} {schema : Schema} {householdId : UUID}

end Households

section Log

variable {log : List InventoryEventRow} {db : Db} {row : InventoryEventRow}

structure WellKept (log : List InventoryEventRow) : Prop where
  rowChecks : ∀ row ∈ log, violated row.rowChecks = none
  ids : (log.map (·.id)).Nodup
  keys : (log.map (·.idempotencyKey)).Nodup

theorem WellKept.add (h : WellKept db.events) (hrow : Admissible db row) :
    WellKept (db.addEvents [row]).events where
  rowChecks := List.forall_mem_append.mpr
    ⟨h.rowChecks, List.forall_mem_singleton.mpr hrow.rowChecks⟩
  ids := by
    have := hrow.freshId
    simp only [Db.addEvents, List.map_append, List.nodup_append, h.ids]
    simpa using this
  keys := by
    have := hrow.freshKey
    simp only [Db.addEvents, List.map_append, List.nodup_append, h.keys]
    simpa using this

variable {schema : Schema}

end Log

section Runs

variable {first s s' : Deployment} {statement : SqlStatement KitchenRow}

variable [UnicodeTables]

end Runs

section Sample

end Sample

end KitchenSense
