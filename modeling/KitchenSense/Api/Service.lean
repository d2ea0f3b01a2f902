import KitchenSense.Api.Inventory
import KitchenSense.Concurrency.Append
import KitchenSense.Concurrency.FirstSight

/-! # The inventory endpoints as a service

A request is authenticated, gets a session, has its household looked up or
created, and only then has its body checked and its handler run. Requests run
between each other's statements, and each can lose its connection at any of them.
-/

namespace KitchenSense

inductive Endpoint
  | appendEvent
  | currentSnapshot
  | snapshotAsOf (timestamp : Instant)
  deriving DecidableEq

/-- How `sessionmaker` ends for a request: with a factory, with a `DatabaseUnavailableError`, or
with another exception. -/
inductive SessionOutcome
  | factory
  | unavailable
  | raised
  deriving DecidableEq

/-- A request, with what `verify` ends with for its credentials, the id and the time the database
gives its event, and the time its handler reads. -/
structure InventoryRequest where
  credentials : Option String
  verified : Except AuthError Principal
  session : SessionOutcome
  endpoint : Endpoint
  /-- Read by `append_event` alone. -/
  body : InventoryEventBody
  rowId : UUID
  now : Instant
  clock : Instant

def InventoryRequest.asOf (request : InventoryRequest) : Instant :=
  match request.endpoint with
  | .snapshotAsOf timestamp => timestamp
  | _ => request.clock

def InventoryRequest.dated (request : InventoryRequest) : Bool :=
  match request.endpoint with
  | .snapshotAsOf timestamp => InDatetime timestamp
  | _ => true

/-- The class of the exception that a broken connection raises. -/
inductive ConnectionFailure
  | operationalError
  | interfaceError
  | other
  deriving DecidableEq

def ConnectionFailure.reply : ConnectionFailure → InventoryReply
  | .operationalError | .interfaceError => .refused databaseUnreachable
  | .other => .serverError

inductive ServicePhase
  | received
  | admitted
  /-- It has a session, and its household is looked up or created. -/
  | opened
  /-- Its handler runs. -/
  | handling
  /-- Its handler has read, and what it read is not answered yet. -/
  | projected (reply : InventoryReply)
  | answered (reply : InventoryReply)
  /-- Its connection is lost; the reply does not tell whether its event is stored. -/
  | disconnected (failure : ConnectionFailure)
  deriving DecidableEq

def ServicePhase.reply? : ServicePhase → Option InventoryReply
  | .answered reply => some reply
  | .disconnected failure => some failure.reply
  | _ => none

theorem ServicePhase.reply_cases {p : ServicePhase} {reply : InventoryReply}
    (h : p.reply? = some reply) :
    p = .answered reply ∨ ∃ failure : ConnectionFailure,
      p = .disconnected failure ∧ reply = failure.reply := by
  cases p with
  | answered reply' => cases h; exact .inl rfl
  | disconnected failure => cases h; exact .inr ⟨failure, rfl, rfl⟩
  | _ => cases h

theorem ServicePhase.answered_of_reply {p : ServicePhase} {reply : InventoryReply}
    (h : p.reply? = some reply)
    (hr : reply ≠ .refused databaseUnreachable ∧ reply ≠ .serverError) : p = .answered reply := by
  rcases ServicePhase.reply_cases h with h | ⟨failure, -, rfl⟩
  · exact h
  · cases failure with
    | operationalError | interfaceError => exact absurd rfl hr.1
    | other => exact absurd rfl hr.2

/-- The households with their creation, the log with its appends, and the requests. -/
structure InventoryService where
  sight : FirstSight
  appends : AppendState
  phase : ℕ → ServicePhase

inductive ServiceAction
  | authenticate (i : ℕ)
  | openSession (i : ℕ)
  | readHousehold (i : ℕ)
  | insertHousehold (i : ℕ)
  | commitHousehold (i : ℕ)
  | handle (i : ℕ)
  | insertEvent (i : ℕ)
  | lookupEvent (i : ℕ)
  | commitEvent (i : ℕ)
  | project (i : ℕ)
  | respond (i : ℕ)
  | disconnect (i : ℕ) (failure : ConnectionFailure)

namespace InventoryRequest

variable (uuid5 : UUID → String → UUID)

def sight? (request : InventoryRequest) : Option SightRequest :=
  match request.verified with
  | .ok principal => (SightRequest.ofPrincipal uuid5 principal).toOption
  | .error _ => none

def sight (request : InventoryRequest) : SightRequest := (request.sight? uuid5).getD ⟨0, ""⟩

def append (request : InventoryRequest) : AppendRequest where
  householdId := (request.sight uuid5).householdId
  now := request.now
  id := request.rowId
  event := request.body.trimmed.toDomain

end InventoryRequest

namespace InventoryService

variable [UnicodeTables] (settings : Settings) (uuid5 : UUID → String → UUID)
  (jsonb : String → Bool) (requests : ℕ → InventoryRequest)

def initial (households : List HouseholdRow) (db : Db) : InventoryService where
  sight := .initial households
  appends := .initial { db with households := households.map (·.id) }
  phase _ := .received

def enter (s : InventoryService) (i : ℕ) (phase : ServicePhase) : InventoryService :=
  { s with phase := Function.update s.phase i phase }

def sights (i : ℕ) : SightRequest := (requests i).sight uuid5

def posts (i : ℕ) : AppendRequest := (requests i).append uuid5

def afterAuthentication : AuthReply → ServicePhase
  | .principal _ => .admitted
  | .refused exception => .answered (.refused exception)
  | .failed => .answered .serverError

/-- What a statement of `ensure` leads to. -/
def afterSight : SightPhase → ServicePhase
  | .failed => .answered .serverError
  | _ => .opened

/-- The households are committed to the tables that the other statements see. -/
def withSight (s : InventoryService) (sight : FirstSight) : InventoryService :=
  { s with
    sight
    appends := { s.appends with
      db := { s.appends.db with households := sight.households.map (·.id) } } }

/-- A statement of `ensure`, for a request whose session is open. -/
def runSight (s : InventoryService) (i : ℕ) (action : SightAction) : Option InventoryService :=
  match s.phase i with
  | .opened => (FirstSight.step (sights uuid5 requests) s.sight action).map fun sight =>
      (s.withSight sight).enter i (afterSight (sight.phase i))
  | _ => none

/-- What a handler does first: the body of an event is checked, and its values are sent. -/
def begin_ (request : InventoryRequest) : ServicePhase :=
  match request.endpoint with
  | .appendEvent =>
    match request.body.validate with
    | .error errors => .answered (.invalid errors)
    | .ok _ =>
      if (request.append uuid5).row.storable jsonb then .handling else .answered .serverError
  | _ => .handling

/-- What a statement of `append_if_new` leads to. -/
def afterAppend : AppendPhase → ServicePhase
  | .refused => .answered (.refused keyInUse)
  | .failed e => .answered (appendReply (.error e))
  | _ => .handling

/-- A statement of `append_if_new`, in the handler of a request that appends. -/
def runAppend (s : InventoryService) (i : ℕ) (action : AppendAction) : Option InventoryService :=
  match s.phase i, (requests i).endpoint with
  | .handling, .appendEvent =>
    (AppendState.step (posts uuid5 requests) s.appends action).map fun appends =>
      { s with appends }.enter i (afterAppend (appends.phase i))
  | _, _ => none

def projectReply : Except Failure InventorySnapshot → InventoryReply
  | .ok snapshot => .snapshot (.fromDomain snapshot)
  | .error _ => .serverError

def readReply (s : InventoryService) (i : ℕ) : InventoryReply :=
  if (requests i).dated then
    projectReply ((InventorySnapshotRepository.projectKnownAsOf
      (sights uuid5 requests i).householdId (requests i).asOf).answer s.appends.db)
  else .serverError

def step (s : InventoryService) : ServiceAction → Option InventoryService
  | .authenticate i =>
    match s.phase i with
    | .received => some (s.enter i (afterAuthentication
        (authReply settings (requests i).credentials (requests i).verified)))
    | _ => none
  | .openSession i =>
    match s.phase i, (requests i).session with
    | .admitted, .unavailable => some (s.enter i (.answered (.refused databaseUnconfigured)))
    | .admitted, .raised => some (s.enter i (.answered .serverError))
    | .admitted, .factory =>
      -- `principal.household_id` raises a `ValueError`
      if ((requests i).sight? uuid5).isNone then some (s.enter i (.answered .serverError))
      else some (s.enter i .opened)
    | _, _ => none
  | .readHousehold i => s.runSight uuid5 requests i (.exists_ i)
  | .insertHousehold i => s.runSight uuid5 requests i (.insert i)
  | .commitHousehold i => s.runSight uuid5 requests i (.commit i)
  | .handle i =>
    match s.phase i, s.sight.phase i with
    | .opened, .proceeded _ => some (s.enter i (begin_ uuid5 jsonb (requests i)))
    | _, _ => none
  | .insertEvent i => s.runAppend uuid5 requests i (.insert i)
  | .lookupEvent i => s.runAppend uuid5 requests i (.lookup i)
  | .commitEvent i => s.runAppend uuid5 requests i (.commit i)
  | .project i =>
    match s.phase i, (requests i).endpoint with
    | .handling, .currentSnapshot | .handling, .snapshotAsOf _ =>
      some (s.enter i (.projected (s.readReply uuid5 requests i)))
    | _, _ => none
  | .respond i =>
    match s.phase i, s.appends.phase i with
    | .projected reply, _ => some (s.enter i (.answered reply))
    | .handling, .committed event created =>
      some (s.enter i (.answered (appendReply (.ok (event, created)))))
    | _, _ => none
  | .disconnect i failure =>
    match s.phase i with
    -- the transaction is rolled back unless it has been committed
    | .opened => some { s with
        sight := (FirstSight.step (sights uuid5 requests) s.sight (.rollback i)).getD s.sight
        phase := Function.update s.phase i (.disconnected failure) }
    | .handling => some { s with
        appends := (AppendState.step (posts uuid5 requests) s.appends (.rollback i)).getD s.appends
        phase := Function.update s.phase i (.disconnected failure) }
    | .projected _ => some (s.enter i (.disconnected failure))
    | _ => none

end InventoryService

end KitchenSense
