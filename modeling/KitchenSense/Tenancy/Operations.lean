import KitchenSense.Repositories.Receipts

/-! # Operations of a household

The calls of the three repositories as one type. A run executes them one after
the other, each in a transaction of its own, and collects the answers.
-/

namespace KitchenSense

/-- A repository call without its household. Calls that write carry the ids of their rows. -/
inductive Operation
  | append (now : Instant) (id : UUID) (event : NewInventoryEvent)
  | appendMany (now : Instant) (events : List (UUID × NewInventoryEvent))
  | appendIfNew (now : Instant) (id : UUID) (event : NewInventoryEvent)
  | eventsKnownAsOf (asOf : Instant) (canonicalProductId : Option UUID)
  | eventsKnownBetween (after asOf : Instant)
  | getEvent (eventId : UUID)
  | getByIdempotencyKey (key : String)
  | countKnownAsOf (asOf : Instant)
  | latestRecordedAt (asOf : Instant)
  | productsKnownAsOf (asOf : Instant)
  | getSnapshot
  | projectKnownAsOf (asOf : Instant)
  | rebuild (asOf : Instant)
  | advance (asOf : Instant)
  | save (snapshot : InventorySnapshot)
  | clear
  | recordRequest (uploadId : UUID) (blobName contentType : String)
      (requestedAt expiresAt : Instant)
  | getUpload (uploadId : UUID)
  | confirm (uploadId : UUID) (at_ : Instant)
  | unconfirmed (asOf : Instant)

inductive Reply
  | nothing
  | event (event : InventoryEvent)
  | eventAndCreated (event : InventoryEvent) (created : Bool)
  | eventOrNone (event : Option InventoryEvent)
  | events (events : List InventoryEvent)
  | count (count : ℕ)
  | instantOrNone (instant : Option Instant)
  | products (products : List UUID)
  | snapshot (snapshot : InventorySnapshot)
  | snapshotOrNone (snapshot : Option InventorySnapshot)
  | upload (upload : ReceiptUpload)
  | uploadOrNone (upload : Option ReceiptUpload)
  | uploads (uploads : List ReceiptUpload)
  deriving DecidableEq

def raise {α : Type} : Except Failure α → Tx α
  | .ok a => pure a
  | .error e => throw e

namespace Operation

def keys : Operation → List String
  | append _ _ event => [event.idempotencyKey]
  | appendMany _ events => events.map fun e => e.2.idempotencyKey
  | appendIfNew _ _ event => [event.idempotencyKey]
  | _ => []

def eventIds : Operation → List UUID
  | append _ id _ => [id]
  | appendMany _ events => events.map Prod.fst
  | appendIfNew _ id _ => [id]
  | _ => []

def newUploadIds : Operation → List UUID
  | recordRequest uploadId _ _ _ _ => [uploadId]
  | _ => []

/-- The blob names of recorded uploads are those `request_upload` derives on the server. -/
def NamedByServer (householdId : UUID) : Operation → Prop
  | recordRequest uploadId blobName _ _ _ =>
    ∃ day, blobName = receiptBlobName householdId uploadId day
  | _ => True

variable [UnicodeTables]

def run (householdId : UUID) : Operation → Tx Reply
  | append now id event => do
    return .event (← InventoryEventRepository.append householdId now id event)
  | appendMany now events => do
    return .events (← InventoryEventRepository.appendMany householdId now events)
  | appendIfNew now id event => do
    let (event, created) ← InventoryEventRepository.appendIfNew householdId now id event
    return .eventAndCreated event created
  | eventsKnownAsOf asOf canonicalProductId => do
    return .events (InventoryEventRepository.eventsKnownAsOf (← get).events householdId asOf
      canonicalProductId)
  | eventsKnownBetween after asOf => do
    return .events (InventoryEventRepository.eventsKnownBetween (← get).events householdId
      after asOf)
  | getEvent eventId => do
    return .eventOrNone (← raise (InventoryEventRepository.getEvent (← get).events householdId
      eventId))
  | getByIdempotencyKey key => do
    return .eventOrNone (← raise (InventoryEventRepository.getByIdempotencyKey (← get).events
      householdId key))
  | countKnownAsOf asOf => do
    return .count (InventoryEventRepository.countKnownAsOf (← get).events householdId asOf)
  | latestRecordedAt asOf => do
    return .instantOrNone (InventoryEventRepository.latestRecordedAt (← get).events householdId
      asOf)
  | productsKnownAsOf asOf => do
    return .products (InventoryEventRepository.productsKnownAsOf (← get).events householdId asOf)
  | getSnapshot => do
    return .snapshotOrNone (InventorySnapshotRepository.stored (← get).snapshots householdId)
  | projectKnownAsOf asOf => do
    return .snapshot (← InventorySnapshotRepository.projectKnownAsOf householdId asOf)
  | rebuild asOf => do
    return .snapshot (← InventorySnapshotRepository.rebuild householdId asOf)
  | advance asOf => do
    return .snapshot (← InventorySnapshotRepository.advance householdId asOf)
  | save snapshot => do
    InventorySnapshotRepository.save householdId snapshot
    return .nothing
  | clear => do
    InventorySnapshotRepository.clear householdId
    return .nothing
  | recordRequest uploadId blobName contentType requestedAt expiresAt => do
    return .upload (← ReceiptUploadRepository.recordRequest householdId uploadId blobName
      contentType requestedAt expiresAt)
  | getUpload uploadId => do
    return .uploadOrNone (← raise (ReceiptUploadRepository.get (← get).uploads householdId
      uploadId))
  | confirm uploadId at_ => do
    return .uploadOrNone (← ReceiptUploadRepository.confirm householdId uploadId at_)
  | unconfirmed asOf => do
    return .uploads (ReceiptUploadRepository.unconfirmed (← get).uploads householdId asOf)

end Operation

structure Call where
  householdId : UUID
  operation : Operation

section Runs

variable [UnicodeTables]

/-- The answers of a run, each with its household, and the tables it leaves. -/
def runCalls : Db → List Call → List (UUID × Except Failure Reply) × Db
  | db, [] => ([], db)
  | db, call :: calls =>
    let rest := runCalls ((call.operation.run call.householdId).commit db) calls
    ((call.householdId, (call.operation.run call.householdId).answer db) :: rest.1, rest.2)

end Runs

def Db.ownedBy (db : Db) (householdId : UUID) :
    List InventoryEventRow × List InventorySnapshotRow × List ReceiptUploadRow :=
  (InventoryEventRepository.scopedTo db.events householdId,
    InventorySnapshotRepository.scopedTo db.snapshots householdId,
    ReceiptUploadRepository.scopedTo db.uploads householdId)

end KitchenSense
