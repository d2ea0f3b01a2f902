import Mathlib.Logic.Function.Basic
import KitchenSense.Domain.Receipts
import KitchenSense.Foundations.Runs

/-! # The store of the receipts

Upload URLs are signed with a delegation key that is fetched from the storage
account and kept. A call that finds no usable key waits for the lock, looks
again, and asks for a key while it holds the lock. Calls run until they wait
for the lock or for the key, and others run in the meantime.
-/

namespace KitchenSense

structure StorageSettings where
  storageAccountName : String
  storageBlobEndpoint : String
  receiptsContainer : String
  uploadSasTtlSeconds : Seconds
  delegationKeyTtlSeconds : Seconds
  storageClockSkewSeconds : Seconds

namespace StorageSettings

variable (cfg : StorageSettings)

def isConfigured : Bool :=
  cfg.storageAccountName ≠ "" ∧ cfg.storageBlobEndpoint ≠ "" ∧ cfg.receiptsContainer ≠ ""

def uploadSasTtl : ℤ := timedelta cfg.uploadSasTtlSeconds

def delegationKeyTtl : ℤ := timedelta cfg.delegationKeyTtlSeconds

def skew : ℤ := timedelta cfg.storageClockSkewSeconds

end StorageSettings

inductive StorageError
  /-- `StorageUnavailableError`: no storage account is configured. -/
  | notConfigured
  /-- `StorageUnavailableError`: the account did not answer in time. -/
  | timedOut (account : String)
  /-- `StorageUnavailableError`: the key could not be obtained. -/
  | notObtained (account reason : String)
  /-- `OverflowError`: an instant outside the years of a `datetime`. -/
  | overflow
  deriving DecidableEq

def StorageError.message : StorageError → String
  | .notConfigured => "no storage account is configured; set STORAGE_ACCOUNT_NAME to " ++
      "the account infra/main.bicep deploys"
  | .timedOut account => s!"timed out asking {account} for a user delegation key"
  | .notObtained account reason =>
    s!"could not obtain a user delegation key for {account}: {reason}"
  | .overflow => "date value out of range"

def StorageError.IsUnavailable : StorageError → Prop
  | .overflow => False
  | _ => True

/-- A delegation key, with the start and the expiry it was requested for. -/
structure DelegationKey (κ : Type) where
  value : κ
  start : Instant
  expiry : Instant
  deriving DecidableEq

structure BlobSas (κ : Type) where
  accountName : String
  containerName : String
  blobName : String
  userDelegationKey : DelegationKey κ
  start : Instant
  expiry : Instant
  deriving DecidableEq

/-- A ticket; its URL is the blob's with the signature. -/
structure UploadTicket (κ : Type) where
  blobName : String
  sas : BlobSas κ
  expiresAt : Instant
  contentType : String
  deriving DecidableEq

/-- A call of `upload_ticket`; `day` is the date of `requested_at`. -/
structure UploadCall where
  householdId : UUID
  uploadId : UUID
  requestedAt : Instant
  day : Date
  contentType : String
  requestedAt_valid : InDatetime requestedAt
  deriving DecidableEq

inductive UploadPhase (κ : Type)
  | idle
  | awaitingLock (call : UploadCall)
  /-- The key is asked for, under the lock. -/
  | fetching (call : UploadCall) (start expiry : Instant)
  | issued (call : UploadCall) (ticket : UploadTicket κ)
  | failed (error : StorageError)
  deriving DecidableEq

inductive KeyOutcome (κ : Type)
  | key (value : κ)
  | failed (reason : String)
  | timedOut
  deriving DecidableEq

/-- A key that was fetched, and the instant it was fetched for. -/
structure KeyFetch (κ : Type) where
  now : Instant
  key : DelegationKey κ
  deriving DecidableEq

/-- The fields of a store, its calls, and a record of the keys it fetched. -/
structure ReceiptBlobStore (κ : Type) where
  lock : Option ℕ
  key : Option (DelegationKey κ)
  keyUsableUntil : Instant
  phase : ℕ → UploadPhase κ
  /-- The keys fetched so far, in order. -/
  fetches : List (KeyFetch κ)

inductive UploadAction (κ : Type)
  | uploadTicket (i : ℕ) (call : UploadCall)
  | acquire (i : ℕ)
  | fetched (i : ℕ) (outcome : KeyOutcome κ)

namespace ReceiptBlobStore

variable {κ : Type}

/-- Nothing is cached; the deadline is `datetime.min`. -/
def initial : ReceiptBlobStore κ where
  lock := none
  key := none
  keyUsableUntil := -62135596800000000
  phase _ := .idle
  fetches := []

def enter (s : ReceiptBlobStore κ) (i : ℕ) (phase : UploadPhase κ) : ReceiptBlobStore κ :=
  { s with phase := Function.update s.phase i phase }

/-- The cached key, where `now` is before its deadline. -/
def usableKey (s : ReceiptBlobStore κ) (now : Instant) : Option (DelegationKey κ) :=
  if now < s.keyUsableUntil then s.key else none

def install (s : ReceiptBlobStore κ) (now : Instant) (key : DelegationKey κ)
    (usableUntil : Option Instant) : ReceiptBlobStore κ :=
  { s with
    key := some key
    keyUsableUntil := usableUntil.getD s.keyUsableUntil
    fetches := s.fetches ++ [⟨now, key⟩] }

variable (cfg : StorageSettings)

/-- The rest of `upload_ticket`, once there is a key. -/
def sign (call : UploadCall) (key : DelegationKey κ) : UploadPhase κ :=
  match shift call.requestedAt cfg.uploadSasTtl, shift call.requestedAt (-cfg.skew) with
  | some expiresAt, some start =>
    let blobName := receiptBlobName call.householdId call.uploadId call.day
    .issued call
      { blobName
        sas :=
          { accountName := cfg.storageAccountName
            containerName := cfg.receiptsContainer
            blobName
            userDelegationKey := key
            start
            expiry := expiresAt }
        expiresAt
        contentType := call.contentType }
  | _, _ => .failed .overflow

def refuse (s : ReceiptBlobStore κ) (i : ℕ) (error : StorageError) : ReceiptBlobStore κ :=
  { s.enter i (.failed error) with lock := none }

def step (s : ReceiptBlobStore κ) : UploadAction κ → Option (ReceiptBlobStore κ)
  | .uploadTicket i call =>
    match s.phase i with
    | .idle =>
      if ¬ cfg.isConfigured then some (s.enter i (.failed .notConfigured))
      else if shift call.requestedAt cfg.uploadSasTtl = none then
        some (s.enter i (.failed .overflow))
      else match s.usableKey call.requestedAt with
        | some key => some (s.enter i (sign cfg call key))
        | none => some (s.enter i (.awaitingLock call))
    | _ => none
  | .acquire i =>
    if s.lock ≠ none then none
    else match s.phase i with
      | .awaitingLock call =>
        match s.usableKey call.requestedAt with
        | some key => some (s.enter i (sign cfg call key))
        | none =>
          match shift call.requestedAt (-cfg.skew),
              shift call.requestedAt cfg.delegationKeyTtl with
          | some start, some expiry =>
            some { s.enter i (.fetching call start expiry) with lock := some i }
          | _, _ => some (s.enter i (.failed .overflow))
      | _ => none
  | .fetched i outcome =>
    match s.phase i with
    | .fetching call start expiry =>
      match outcome with
      | .key value =>
        let key : DelegationKey κ := ⟨value, start, expiry⟩
        match shift expiry (-cfg.uploadSasTtl) with
        | some usableUntil =>
          some { (s.install call.requestedAt key (some usableUntil)).enter i
            (sign cfg call key) with lock := none }
        | none => some ((s.install call.requestedAt key none).refuse i .overflow)
      | .failed reason => some (s.refuse i (.notObtained cfg.storageAccountName reason))
      | .timedOut => some (s.refuse i (.timedOut cfg.storageAccountName))
    | _ => none

end ReceiptBlobStore

end KitchenSense
