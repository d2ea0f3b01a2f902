import KitchenSense.Concurrency.Confirm
import KitchenSense.Storage.BlobNames
import KitchenSense.Storage.KeyLifetime

/-! # Upload URLs and their records

A request for an upload URL has its ticket signed, inserts a row, commits it,
and only then answers; it can fail before and after each of these. Requests for
URLs and confirmations run between each other's statements.
-/

namespace KitchenSense

section Calendar

/-- The month and the day of the month that a number of days into a year falls on. -/
def monthDay (year : ℕ) : ℕ → ℕ → ℕ → ℕ × ℕ
  | 0, month, days => (month, days + 1)
  | fuel + 1, month, days =>
    if days < daysIn year month then (month, days + 1)
    else monthDay year fuel (month + 1) (days - daysIn year month)

/-- The date that is a number of days after the first of January of the year 1. -/
def Date.ofDays (days : ℕ) : Option Date :=
  let n400 := days / 146097
  let n100 := days % 146097 / 36524
  let n4 := days % 146097 % 36524 / 1461
  let n1 := days % 146097 % 36524 % 1461 / 365
  let year := n400 * 400 + n100 * 100 + n4 * 4 + n1 + 1
  -- the last day of a leap year and of four centuries
  if n1 = 4 ∨ n100 = 4 then Date.ofNumbers (year - 1) 12 31
  else
    let (month, day) := monthDay year 12 1 (days % 146097 % 36524 % 1461 % 365)
    Date.ofNumbers year month day

def Date.ofInstant (t : Instant) : Option Date :=
  let days := t / 86400000000 + 719162
  if days < 0 then none else Date.ofDays days.toNat

example : (Date.ofInstant 1709164800000000).map Date.isoformat = some "2024-02-29" := by
  decide +kernel

/-- `receipt_blob_name`, from the instant of the request. -/
def receiptBlobNameAt (householdId uploadId : UUID) (requestedAt : Instant) : Option String :=
  (Date.ofInstant requestedAt).map (receiptBlobName householdId uploadId)

end Calendar

structure UploadTicketResponse where
  uploadId : UUID
  householdId : UUID
  blobName : String
  contentType : String
  uploadUrl : String
  method : String
  headers : List (String × String)
  expiresAt : Instant
  deriving DecidableEq

def UploadTicket.url {κ : Type} (cfg : StorageSettings) (generateBlobSas : BlobSas κ → String)
    (ticket : UploadTicket κ) : String :=
  cfg.blobUrl ticket.blobName ++ "?" ++ generateBlobSas ticket.sas

def UploadTicket.headers {κ : Type} (ticket : UploadTicket κ) : List (String × String) :=
  [("x-ms-blob-type", "BlockBlob"), ("Content-Type", ticket.contentType)]

/-- The row that `record_request` inserts for a ticket. -/
def requestedRow {κ : Type} (call : UploadCall) (ticket : UploadTicket κ) : ReceiptUploadRow where
  id := call.uploadId
  householdId := call.householdId
  blobName := ticket.blobName
  contentType := ticket.contentType
  requestedAt := call.requestedAt
  expiresAt := ticket.expiresAt
  confirmedAt := none

inductive IssuePhase (κ : Type)
  | started
  /-- It waits for its ticket. -/
  | signing
  /-- Its row is inserted and not committed. -/
  | flushed (ticket : UploadTicket κ)
  | committed (ticket : UploadTicket κ)
  /-- The client has been given the URL. -/
  | answered (response : UploadTicketResponse)
  /-- It failed before it committed. -/
  | failed
  /-- It failed after it committed. -/
  | lost
  deriving DecidableEq

def IssuePhase.HasCommitted {κ : Type} : IssuePhase κ → Prop
  | .committed _ | .answered _ | .lost => True
  | _ => False

/-- The store, the committed uploads with their confirmations, and the requests. -/
structure UploadsApi (κ : Type) where
  store : ReceiptBlobStore κ
  confirms : ConfirmState
  inserting : UUID → Option ℕ
  phase : ℕ → IssuePhase κ

inductive UploadsAction (κ : Type)
  | request (i : ℕ)
  /-- A call of the store takes the lock or gets its key. -/
  | store (action : UploadAction κ)
  | insert (i : ℕ)
  | commit (i : ℕ)
  | respond (i : ℕ)
  | fail (i : ℕ)
  | confirm (action : ConfirmAction)

def UploadAction.Continues {κ : Type} : UploadAction κ → Prop
  | .uploadTicket _ _ => False
  | _ => True

instance UploadAction.decidableContinues {κ : Type} (action : UploadAction κ) :
    Decidable action.Continues :=
  match action with
  | .uploadTicket _ _ => inferInstanceAs (Decidable False)
  | .acquire _ | .fetched _ _ => inferInstanceAs (Decidable True)

namespace UploadsApi

variable {κ : Type}

def initial (uploads : List ReceiptUploadRow) : UploadsApi κ where
  store := .initial
  confirms := .initial uploads
  inserting _ := none
  phase _ := .started

def enter (s : UploadsApi κ) (i : ℕ) (phase : IssuePhase κ) : UploadsApi κ :=
  { s with phase := Function.update s.phase i phase }

variable (cfg : StorageSettings) (generateBlobSas : BlobSas κ → String) (households : List UUID)
  (calls : ℕ → UploadCall) (confirmations : ℕ → ConfirmRequest)

def db (s : UploadsApi κ) : Db := ⟨households, [], [], [], s.confirms.uploads⟩

def release (s : UploadsApi κ) (i : ℕ) (phase : IssuePhase κ) : UploadsApi κ :=
  { s.enter i phase with
    inserting := Function.update s.inserting (calls i).uploadId none }

/-- What the `INSERT` of a request leads to. -/
def afterInsert (s : UploadsApi κ) (i : ℕ) (ticket : UploadTicket κ) :
    Except Failure ReceiptUpload → UploadsApi κ
  | .error _ => s.enter i .failed
  | .ok _ => { s.enter i (.flushed ticket) with
      inserting := Function.update s.inserting (calls i).uploadId (some i) }

def response (i : ℕ) (ticket : UploadTicket κ) : UploadTicketResponse where
  uploadId := (calls i).uploadId
  householdId := (calls i).householdId
  blobName := ticket.blobName
  contentType := (calls i).contentType
  uploadUrl := ticket.url cfg generateBlobSas
  method := "PUT"
  headers := ticket.headers
  expiresAt := ticket.expiresAt

def step (s : UploadsApi κ) : UploadsAction κ → Option (UploadsApi κ)
  | .request i =>
    match s.phase i with
    | .started => (ReceiptBlobStore.step cfg s.store (.uploadTicket i (calls i))).map fun store =>
        { s.enter i .signing with store }
    | _ => none
  | .store action =>
    if action.Continues then
      (ReceiptBlobStore.step cfg s.store action).map fun store => { s with store }
    else none
  | .insert i =>
    match s.phase i, s.store.phase i with
    | .signing, .issued _ ticket =>
      if s.inserting (calls i).uploadId = none then
        some (s.afterInsert calls i ticket ((ReceiptUploadRepository.recordRequest
          (calls i).householdId (calls i).uploadId ticket.blobName ticket.contentType
          (calls i).requestedAt ticket.expiresAt).answer (s.db households)))
      else none
    | _, _ => none
  | .commit i =>
    match s.phase i with
    | .flushed ticket => some { s.release calls i (.committed ticket) with
        confirms := { s.confirms with
          uploads := s.confirms.uploads ++ [requestedRow (calls i) ticket] } }
    | _ => none
  | .respond i =>
    match s.phase i with
    | .committed ticket =>
      some (s.enter i (.answered (response cfg generateBlobSas calls i ticket)))
    | _ => none
  | .fail i =>
    match s.phase i, s.store.phase i with
    | .started, _ => some (s.enter i .failed)
    -- the ticket was refused, or the signature failed
    | .signing, .failed _ | .signing, .issued _ _ => some (s.enter i .failed)
    | .flushed _, _ => some (s.release calls i .failed)
    | .committed _, _ => some (s.enter i .lost)
    | _, _ => none
  | .confirm action =>
    (ConfirmState.step confirmations s.confirms action).map fun confirms => { s with confirms }

section Tickets

variable {cfg calls} {store store' : ReceiptBlobStore κ} {action : UploadAction κ} {i : ℕ}
  {call call' : UploadCall} {key : DelegationKey κ} {ticket : UploadTicket κ}

/-- A ticket whose signature is for the blob of its call, until its expiry. -/
structure Signed (cfg : StorageSettings) (call : UploadCall) (ticket : UploadTicket κ) : Prop where
  blobName : ticket.blobName = receiptBlobName call.householdId call.uploadId call.day
  container : ticket.sas.containerName = cfg.receiptsContainer
  signedName : ticket.sas.blobName = ticket.blobName
  signedExpiry : ticket.sas.expiry = ticket.expiresAt
  contentType : ticket.contentType = call.contentType
  expiresAt : ticket.expiresAt = call.requestedAt + cfg.uploadSasTtl

def Prepared (cfg : StorageSettings) (call : UploadCall) : UploadPhase κ → Prop
  | .awaitingLock call' | .fetching call' _ _ => call' = call
  | .issued call' ticket => call' = call ∧ Signed cfg call ticket
  | _ => True

theorem prepared_sign : Prepared cfg call (ReceiptBlobStore.sign cfg call key) := by
  unfold ReceiptBlobStore.sign
  split
  next expiresAt start he hs => exact ⟨rfl, rfl, rfl, rfl, rfl, rfl, (shift_eq_some he).1⟩
  next => trivial

def AllPrepared (cfg : StorageSettings) (calls : ℕ → UploadCall) (store : ReceiptBlobStore κ) :
    Prop := ∀ i, Prepared cfg (calls i) (store.phase i)

theorem AllPrepared.update {p : UploadPhase κ} (hs : AllPrepared cfg calls store)
    (h : store'.phase = Function.update store.phase i p) (hp : Prepared cfg (calls i) p) :
    AllPrepared cfg calls store' := by
  unfold AllPrepared
  rw [h]
  apply (Function.forall_update_iff store.phase fun j => Prepared cfg (calls j)).mpr
  exact ⟨hp, fun j _ => hs j⟩

theorem AllPrepared.request (hs : AllPrepared cfg calls store)
    (h : ReceiptBlobStore.step cfg store (.uploadTicket i (calls i)) = some store') :
    AllPrepared cfg calls store' := by
  rw [ReceiptBlobStore.step] at h
  split at h
  next =>
    split at h
    next => cases h; exact hs.update rfl trivial
    next =>
      split at h
      next => cases h; exact hs.update rfl trivial
      next =>
        split at h
        next => cases h; exact hs.update rfl prepared_sign
        next => cases h; exact hs.update rfl rfl
  next => cases h

theorem AllPrepared.step (hs : AllPrepared cfg calls store) (ha : action.Continues)
    (h : ReceiptBlobStore.step cfg store action = some store') :
    AllPrepared cfg calls store' := by
  cases action with
  | uploadTicket i call => exact ha.elim
  | acquire i =>
    rw [ReceiptBlobStore.step, Option.ite_none_left_eq_some] at h
    obtain ⟨-, h⟩ := h
    cases hp : store.phase i with
    | awaitingLock call =>
      have hcall : call = calls i := (hp ▸ hs i : Prepared cfg (calls i) (.awaitingLock call))
      subst hcall
      rw [hp] at h
      dsimp only at h
      split at h
      next => cases h; exact hs.update rfl prepared_sign
      next =>
        split at h
        next => cases h; exact hs.update rfl rfl
        next => cases h; exact hs.update rfl trivial
    | _ => rw [hp] at h; cases h
  | fetched i outcome =>
    rw [ReceiptBlobStore.step] at h
    cases hp : store.phase i with
    | fetching call start expiry =>
      have hcall : call = calls i :=
        (hp ▸ hs i : Prepared cfg (calls i) (.fetching call start expiry))
      subst hcall
      rw [hp] at h
      cases outcome with
      | key value =>
        dsimp only at h
        split at h
        next => cases h; exact hs.update rfl prepared_sign
        next => cases h; exact hs.update rfl trivial
      | failed reason => cases h; exact hs.update rfl trivial
      | timedOut => cases h; exact hs.update rfl trivial
    | _ => rw [hp] at h; cases h

end Tickets

section Rows

variable {confirmations} {uploads : List ReceiptUploadRow} {confirms confirms' : ConfirmState}

/-- What a confirmation never alters: the rows without their confirmations. -/
def records (uploads : List ReceiptUploadRow) : List ReceiptUploadRow :=
  uploads.map fun row => { row with confirmedAt := none }

theorem records_updateConfirmedAt (uploadId : UUID) (at_ : Instant) :
    records (ReceiptUploadRepository.updateConfirmedAt uploadId at_ uploads) = records uploads := by
  unfold records ReceiptUploadRepository.updateConfirmedAt
  rw [List.map_map]
  apply List.map_congr_left
  intro row _
  rw [Function.comp_apply]
  split <;> rfl

theorem records_of_confirm {action : ConfirmAction}
    (h : ConfirmState.step confirmations confirms action = some confirms') :
    records confirms'.uploads = records confirms.uploads := by
  obtain ⟨i, ⟨row, -, rfl⟩ | ⟨hf, -⟩ | ⟨row, -, -, -, -, rfl⟩ | ⟨row, -, -, rfl⟩ |
    ⟨row, -, rfl | rfl⟩⟩ := ConfirmState.step_cases h
  · rfl
  · rcases hf with rfl | rfl <;> rfl
  · rfl
  · rfl
  · exact records_updateConfirmedAt ..
  · rfl

theorem records_append_requestedRow (call : UploadCall) (ticket : UploadTicket κ) :
    records (uploads ++ [requestedRow call ticket]) =
      records uploads ++ [requestedRow call ticket] := by
  rw [records, List.map_append]
  rfl

theorem mem_records {row : ReceiptUploadRow} (h : row ∈ uploads) :
    { row with confirmedAt := none } ∈ records uploads := List.mem_map_of_mem h

end Rows

section Moves

variable {cfg generateBlobSas households calls confirmations} {s s' : UploadsApi κ}
  {action : UploadsAction κ}

/-- How a request gives up: it has not committed, or it has. -/
inductive GivesUp : IssuePhase κ → IssuePhase κ → Prop
  | started : GivesUp .started .failed
  | signing : GivesUp .signing .failed
  | flushed (ticket : UploadTicket κ) : GivesUp (.flushed ticket) .failed
  | committed (ticket : UploadTicket κ) : GivesUp (.committed ticket) .lost

inductive Moves (cfg : StorageSettings) (generateBlobSas : BlobSas κ → String)
    (calls : ℕ → UploadCall) (confirmations : ℕ → ConfirmRequest) (s : UploadsApi κ) :
    UploadsAction κ → UploadsApi κ → Prop
  | requested {i : ℕ} {store : ReceiptBlobStore κ} (hp : s.phase i = .started)
      (hs : ReceiptBlobStore.step cfg s.store (.uploadTicket i (calls i)) = some store) :
      Moves cfg generateBlobSas calls confirmations s (.request i)
        { s.enter i .signing with store }
  | stored {action : UploadAction κ} {store : ReceiptBlobStore κ} (ha : action.Continues)
      (hs : ReceiptBlobStore.step cfg s.store action = some store) :
      Moves cfg generateBlobSas calls confirmations s (.store action) { s with store }
  | inserted {i : ℕ} {call : UploadCall} {ticket : UploadTicket κ} {inserting : UUID → Option ℕ}
      (hp : s.phase i = .signing) (ht : s.store.phase i = .issued call ticket) :
      Moves cfg generateBlobSas calls confirmations s (.insert i)
        { s.enter i (.flushed ticket) with inserting }
  | committed {i : ℕ} {ticket : UploadTicket κ} {inserting : UUID → Option ℕ}
      (hp : s.phase i = .flushed ticket) :
      Moves cfg generateBlobSas calls confirmations s (.commit i)
        { s.enter i (.committed ticket) with
          inserting
          confirms := { s.confirms with
            uploads := s.confirms.uploads ++ [requestedRow (calls i) ticket] } }
  | responded {i : ℕ} {ticket : UploadTicket κ} (hp : s.phase i = .committed ticket) :
      Moves cfg generateBlobSas calls confirmations s (.respond i)
        (s.enter i (.answered (response cfg generateBlobSas calls i ticket)))
  | gaveUp {i : ℕ} {action : UploadsAction κ} {p : IssuePhase κ} {inserting : UUID → Option ℕ}
      (ha : action = .insert i ∨ action = .fail i) (hp : GivesUp (s.phase i) p) :
      Moves cfg generateBlobSas calls confirmations s action { s.enter i p with inserting }
  | confirmed {action : ConfirmAction} {confirms : ConfirmState}
      (hc : ConfirmState.step confirmations s.confirms action = some confirms) :
      Moves cfg generateBlobSas calls confirmations s (.confirm action) { s with confirms }

theorem moves_of_insert {i : ℕ}
    (h : step cfg generateBlobSas households calls confirmations s (.insert i) = some s') :
    Moves cfg generateBlobSas calls confirmations s (.insert i) s' := by
  rw [step] at h
  split at h
  next call ticket hp ht =>
    rw [Option.ite_none_right_eq_some, Option.some_inj] at h
    obtain ⟨-, rfl⟩ := h
    cases (ReceiptUploadRepository.recordRequest (calls i).householdId (calls i).uploadId
      ticket.blobName ticket.contentType (calls i).requestedAt ticket.expiresAt).answer
        (s.db households) with
    | error e => exact .gaveUp (.inl rfl) (hp ▸ .signing)
    | ok upload => exact .inserted hp ht
  next => cases h

theorem moves_of_fail {i : ℕ}
    (h : step cfg generateBlobSas households calls confirmations s (.fail i) = some s') :
    Moves cfg generateBlobSas calls confirmations s (.fail i) s' := by
  rw [step] at h
  split at h
  next hp => cases h; exact .gaveUp (.inr rfl) (hp ▸ .started)
  next hp _ => cases h; exact .gaveUp (.inr rfl) (hp ▸ .signing)
  next hp _ => cases h; exact .gaveUp (.inr rfl) (hp ▸ .signing)
  next ticket hp => cases h; exact .gaveUp (.inr rfl) (hp ▸ .flushed ticket)
  next ticket hp => cases h; exact .gaveUp (.inr rfl) (hp ▸ .committed ticket)
  next => cases h

theorem moves_of_step
    (h : step cfg generateBlobSas households calls confirmations s action = some s') :
    Moves cfg generateBlobSas calls confirmations s action s' := by
  cases action with
  | request i =>
    rw [step] at h
    split at h
    next hp =>
      obtain ⟨store, hs, rfl⟩ := Option.map_eq_some_iff.mp h
      exact .requested hp hs
    next => cases h
  | store action =>
    rw [step, Option.ite_none_right_eq_some] at h
    obtain ⟨ha, h⟩ := h
    obtain ⟨store, hs, rfl⟩ := Option.map_eq_some_iff.mp h
    exact .stored ha hs
  | insert i => exact moves_of_insert h
  | commit i =>
    rw [step] at h
    split at h
    next hp => cases h; exact .committed hp
    next => cases h
  | respond i =>
    rw [step] at h
    split at h
    next hp => cases h; exact .responded hp
    next => cases h
  | fail i => exact moves_of_fail h
  | confirm action =>
    obtain ⟨confirms, hc, rfl⟩ := Option.map_eq_some_iff.mp h
    exact .confirmed hc

end Moves

section Invariant

variable {cfg generateBlobSas households calls confirmations} {s s' : UploadsApi κ}
  {action : UploadsAction κ} {first rows : List ReceiptUploadRow} {i : ℕ}

/-- The name and the expiry of a row are those of its household, its id and its request. -/
structure Recorded (cfg : StorageSettings) (row : ReceiptUploadRow) : Prop where
  blobName : receiptBlobNameAt row.householdId row.id row.requestedAt = some row.blobName
  expiresAt : row.expiresAt = row.requestedAt + cfg.uploadSasTtl

theorem Signed.recorded {call : UploadCall} {ticket : UploadTicket κ} (h : Signed cfg call ticket)
    (hday : Date.ofInstant call.requestedAt = some call.day) :
    Recorded cfg (requestedRow call ticket) where
  blobName := by
    change (Date.ofInstant call.requestedAt).map _ = some ticket.blobName
    rw [hday, h.blobName, Option.map_some]
    rfl
  expiresAt := h.expiresAt

def Documented (cfg : StorageSettings) (generateBlobSas : BlobSas κ → String)
    (calls : ℕ → UploadCall) (rows : List ReceiptUploadRow) (i : ℕ) : IssuePhase κ → Prop
  | .flushed ticket => Signed cfg (calls i) ticket
  | .committed ticket => Signed cfg (calls i) ticket ∧ requestedRow (calls i) ticket ∈ rows
  | .answered answer => ∃ ticket, Signed cfg (calls i) ticket ∧
      requestedRow (calls i) ticket ∈ rows ∧ answer = response cfg generateBlobSas calls i ticket
  | _ => True

theorem Documented.append {p : IssuePhase κ} {row : ReceiptUploadRow}
    (h : Documented cfg generateBlobSas calls rows i p) :
    Documented cfg generateBlobSas calls (rows ++ [row]) i p := by
  cases p with
  | flushed ticket => exact h
  | committed ticket => exact ⟨h.1, List.mem_append_left _ h.2⟩
  | answered answer =>
    obtain ⟨ticket, hsigned, hm, he⟩ := h
    exact ⟨ticket, hsigned, List.mem_append_left _ hm, he⟩
  | _ => trivial

def Known (calls : ℕ → UploadCall) (first : List ReceiptUploadRow) (phase : ℕ → IssuePhase κ)
    (row : ReceiptUploadRow) : Prop :=
  row ∈ records first ∨ ∃ i, (phase i).HasCommitted ∧ row.id = (calls i).uploadId

theorem Known.update {phase : ℕ → IssuePhase κ} {p : IssuePhase κ} {row : ReceiptUploadRow}
    (h : Known calls first phase row) (hp : (phase i).HasCommitted → p.HasCommitted) :
    Known calls first (Function.update phase i p) row := by
  rcases h with h | ⟨j, hj, hid⟩
  · exact .inl h
  · refine .inr ⟨j, ?_, hid⟩
    by_cases hij : j = i
    · subst hij
      rw [Function.update_self]
      exact hp hj
    · rwa [Function.update_of_ne hij]

structure Sound (cfg : StorageSettings) (generateBlobSas : BlobSas κ → String)
    (calls : ℕ → UploadCall) (first : List ReceiptUploadRow) (s : UploadsApi κ) : Prop where
  tickets : AllPrepared cfg calls s.store
  recorded : ∀ row ∈ records s.confirms.uploads, Recorded cfg row
  known : ∀ row ∈ records s.confirms.uploads, Known calls first s.phase row
  documented : ∀ i,
    Documented cfg generateBlobSas calls (records s.confirms.uploads) i (s.phase i)

theorem Sound.initial (hfirst : ∀ row ∈ first, Recorded cfg row) :
    Sound cfg generateBlobSas calls first (initial first) where
  tickets _ := trivial
  recorded := by
    intro row hm
    obtain ⟨r, hr, rfl⟩ := List.mem_map.mp hm
    exact ⟨(hfirst r hr).blobName, (hfirst r hr).expiresAt⟩
  known _ hm := .inl hm
  documented _ := trivial

theorem Sound.documented_of_phase {p : IssuePhase κ} (hs : Sound cfg generateBlobSas calls first s)
    (hp : s.phase i = p) :
    Documented cfg generateBlobSas calls (records s.confirms.uploads) i p :=
  hp ▸ hs.documented i

theorem Sound.move {p : IssuePhase κ} (hs : Sound cfg generateBlobSas calls first s)
    (hphase : s'.phase = Function.update s.phase i p)
    (hrows : records s'.confirms.uploads = records s.confirms.uploads)
    (ht : AllPrepared cfg calls s'.store) (hc : (s.phase i).HasCommitted → p.HasCommitted)
    (hp : Documented cfg generateBlobSas calls (records s.confirms.uploads) i p) :
    Sound cfg generateBlobSas calls first s' where
  tickets := ht
  recorded := hrows ▸ hs.recorded
  known := by
    rw [hrows, hphase]
    exact fun row hm => (hs.known row hm).update hc
  documented := by
    rw [hrows, hphase]
    apply (Function.forall_update_iff s.phase
      fun j => Documented cfg generateBlobSas calls (records s.confirms.uploads) j).mpr
    exact ⟨hp, fun j _ => hs.documented j⟩

theorem Sound.commit {ticket : UploadTicket κ} (hs : Sound cfg generateBlobSas calls first s)
    (hday : ∀ i, Date.ofInstant (calls i).requestedAt = some (calls i).day)
    (hp : s.phase i = .flushed ticket) (hstore : s'.store = s.store)
    (hphase : s'.phase = Function.update s.phase i (.committed ticket))
    (hrows : records s'.confirms.uploads =
      records s.confirms.uploads ++ [requestedRow (calls i) ticket]) :
    Sound cfg generateBlobSas calls first s' := by
  have hsigned : Signed cfg (calls i) ticket := hs.documented_of_phase hp
  constructor
  · exact hstore ▸ hs.tickets
  · rw [hrows]
    exact List.forall_mem_append.mpr
      ⟨hs.recorded, List.forall_mem_singleton.mpr (hsigned.recorded (hday i))⟩
  · rw [hrows, hphase]
    refine List.forall_mem_append.mpr ⟨fun row hm => (hs.known row hm).update fun _ => trivial, ?_⟩
    refine List.forall_mem_singleton.mpr (.inr ⟨i, ?_, rfl⟩)
    rw [Function.update_self]
    trivial
  · rw [hrows, hphase]
    apply (Function.forall_update_iff s.phase fun j => Documented cfg generateBlobSas calls
      (records s.confirms.uploads ++ [requestedRow (calls i) ticket]) j).mpr
    exact ⟨⟨hsigned, List.mem_append_right _ (List.mem_singleton_self _)⟩,
      fun j _ => (hs.documented j).append⟩

theorem Sound.step (hs : Sound cfg generateBlobSas calls first s)
    (hday : ∀ i, Date.ofInstant (calls i).requestedAt = some (calls i).day)
    (h : UploadsApi.step cfg generateBlobSas households calls confirmations s action = some s') :
    Sound cfg generateBlobSas calls first s' := by
  cases moves_of_step h with
  | requested hp hstore =>
    exact hs.move (p := .signing) rfl rfl (hs.tickets.request hstore) (hp ▸ id) trivial
  | stored ha hstore => exact ⟨hs.tickets.step ha hstore, hs.recorded, hs.known, hs.documented⟩
  | @inserted i call ticket inserting hp ht =>
    have hsigned : Prepared cfg (calls i) (.issued call ticket) := ht ▸ hs.tickets i
    exact hs.move (p := .flushed ticket) rfl rfl hs.tickets (hp ▸ id) hsigned.2
  | committed hp => exact hs.commit hday hp rfl rfl (records_append_requestedRow ..)
  | @responded i ticket hp =>
    obtain ⟨hsigned, hm⟩ := hs.documented_of_phase hp
    exact hs.move (p := .answered _) rfl rfl hs.tickets (fun _ => trivial)
      ⟨ticket, hsigned, hm, rfl⟩
  | @gaveUp i action p inserting ha hp =>
    have hc : (s.phase i).HasCommitted → p.HasCommitted := by
      generalize s.phase i = q at hp
      cases hp <;> exact id
    refine hs.move (p := p) rfl rfl hs.tickets hc ?_
    generalize s.phase i = q at hp
    cases hp <;> trivial
  | confirmed hc =>
    have hrows := records_of_confirm hc
    exact ⟨hs.tickets, hrows ▸ hs.recorded, hrows ▸ hs.known, hrows ▸ hs.documented⟩

end Invariant

section Results

variable {cfg generateBlobSas households calls confirmations} {s s' : UploadsApi κ}
  {action : UploadsAction κ} {first : List ReceiptUploadRow} {i : ℕ}

/-- The requests that have begun have ids of their own, which no row had at first. -/
structure Fresh (calls : ℕ → UploadCall) (first : List ReceiptUploadRow) (s : UploadsApi κ) :
    Prop where
  distinct : ∀ i j, s.phase i ≠ .started → s.phase j ≠ .started →
    (calls i).uploadId = (calls j).uploadId → i = j
  unused : ∀ row ∈ first, ∀ i, s.phase i ≠ .started → row.id ≠ (calls i).uploadId

/-- What a client that has been given a URL can rely on: the row, and what the URL's signature was
made of. -/
structure OnRecord (cfg : StorageSettings) (generateBlobSas : BlobSas κ → String)
    (call : UploadCall) (answer : UploadTicketResponse) (row : ReceiptUploadRow)
    (sas : BlobSas κ) : Prop where
  id : row.id = call.uploadId ∧ answer.uploadId = call.uploadId
  household : row.householdId = call.householdId ∧ answer.householdId = call.householdId
  contentType : row.contentType = call.contentType ∧ answer.contentType = call.contentType
  blobName : answer.blobName = row.blobName
  url : answer.uploadUrl = rstrip "/" cfg.storageBlobEndpoint ++ "/" ++ cfg.receiptsContainer ++
    "/" ++ row.blobName ++ "?" ++ generateBlobSas sas
  signed : sas.containerName = cfg.receiptsContainer ∧ sas.blobName = row.blobName
  expiry : sas.expiry = row.expiresAt ∧ answer.expiresAt = row.expiresAt

/-- The URLs that were given away, the requests that failed, and the rows. -/
structure NoUrlWithoutRecord (cfg : StorageSettings) (generateBlobSas : BlobSas κ → String)
    (households : List UUID) (calls : ℕ → UploadCall) (confirmations : ℕ → ConfirmRequest)
    (s : UploadsApi κ) : Prop where
  urls : ∀ i answer, s.phase i = .answered answer → ∃ row ∈ s.confirms.uploads, ∃ sas,
    OnRecord cfg generateBlobSas (calls i) answer row sas
  failed : ∀ i, s.phase i = .failed → ∀ row ∈ s.confirms.uploads, row.id ≠ (calls i).uploadId
  /-- Of the steps of a request only its commit writes, and one that has failed takes no more. -/
  unchanged : ∀ action s',
    step cfg generateBlobSas households calls confirmations s action = some s' →
    ((∀ i, action ≠ .commit i) → (∀ a, action ≠ .confirm a) →
      s'.confirms.uploads = s.confirms.uploads) ∧
    ∀ i, s.phase i = .failed → s'.phase i = .failed ∧ action ≠ .commit i
  recorded : ∀ row ∈ s.confirms.uploads, Recorded cfg row
  confirmed : ∀ action s',
    step cfg generateBlobSas households calls confirmations s (.confirm action) = some s' →
    records s'.confirms.uploads = records s.confirms.uploads

theorem onRecord_of_signed {ticket : UploadTicket κ} {row : ReceiptUploadRow}
    (ht : Signed cfg (calls i) ticket)
    (hr : { row with confirmedAt := none } = requestedRow (calls i) ticket) :
    OnRecord cfg generateBlobSas (calls i) (response cfg generateBlobSas calls i ticket) row
      ticket.sas := by
  have hblob : row.blobName = ticket.blobName := congrArg (·.blobName) hr
  have hexpiry : row.expiresAt = ticket.expiresAt := congrArg (·.expiresAt) hr
  have htype : row.contentType = ticket.contentType := congrArg (·.contentType) hr
  constructor
  · exact ⟨congrArg (·.id) hr, rfl⟩
  · exact ⟨congrArg (·.householdId) hr, rfl⟩
  · exact ⟨htype.trans ht.contentType, rfl⟩
  · exact hblob.symm
  · change cfg.blobUrl ticket.blobName ++ "?" ++ generateBlobSas ticket.sas = _
    rw [hblob, ht.blobName, blobUrl_receiptBlobName]
  · exact ⟨ht.container, ht.signedName.trans hblob.symm⟩
  · exact ⟨ht.signedExpiry.trans hexpiry.symm, hexpiry.symm⟩

theorem moves_of_failed (h : Moves cfg generateBlobSas calls confirmations s action s')
    (hf : s.phase i = .failed) : s'.phase i = .failed ∧ action ≠ .commit i := by
  have other : ∀ {j : ℕ} {p : IssuePhase κ}, s.phase j ≠ .failed →
      Function.update s.phase j p i = .failed := by
    intro j p hj
    rw [Function.update_of_ne (by rintro rfl; exact hj hf), hf]
  cases h with
  | requested hp => exact ⟨other (by simp [hp]), by simp⟩
  | stored => exact ⟨hf, by simp⟩
  | inserted hp => exact ⟨other (by simp [hp]), by simp⟩
  | @committed j ticket inserting hp =>
    refine ⟨other (by simp [hp]), ?_⟩
    rintro ⟨⟩
    cases hp.symm.trans hf
  | responded hp => exact ⟨other (by simp [hp]), by simp⟩
  | gaveUp ha hp =>
    refine ⟨other fun hj => ?_, by rcases ha with rfl | rfl <;> simp⟩
    rw [hj] at hp
    cases hp
  | confirmed => exact ⟨hf, by simp⟩

theorem uploads_of_moves (h : Moves cfg generateBlobSas calls confirmations s action s')
    (hcommit : ∀ i, action ≠ .commit i) (hconfirm : ∀ a, action ≠ .confirm a) :
    s'.confirms.uploads = s.confirms.uploads := by
  cases h with
  | @committed i => exact absurd rfl (hcommit i)
  | @confirmed a => exact absurd rfl (hconfirm a)
  | _ => rfl

theorem Sound.failed (hs : Sound cfg generateBlobSas calls first s) (hfresh : Fresh calls first s)
    (hf : s.phase i = .failed) : ∀ row ∈ s.confirms.uploads, row.id ≠ (calls i).uploadId := by
  have begun : s.phase i ≠ .started := by simp [hf]
  intro row hm hid
  rcases hs.known _ (mem_records hm) with h | ⟨j, hj, hjd⟩
  · obtain ⟨r, hr, he⟩ := List.mem_map.mp h
    exact hfresh.unused r hr i begun ((congrArg (·.id) he).trans hid)
  · have hbegun : s.phase j ≠ .started := by
      intro h
      simp [h, IssuePhase.HasCommitted] at hj
    cases hfresh.distinct i j begun hbegun (hid.symm.trans hjd)
    simp [hf, IssuePhase.HasCommitted] at hj

/-- In every run a client that has a URL has a committed row of it, a request that failed left none,
and every row keeps the name and the expiry of its request. -/
theorem no_url_without_record
    (hday : ∀ i, Date.ofInstant (calls i).requestedAt = some (calls i).day)
    (hfirst : ∀ row ∈ first, Recorded cfg row) (hfresh : Fresh calls first s)
    (h : Reachable (step cfg generateBlobSas households calls confirmations)
      (initial first) s) :
    NoUrlWithoutRecord cfg generateBlobSas households calls confirmations s := by
  have hs : Sound cfg generateBlobSas calls first s :=
    h.invariant (.initial hfirst) fun _ _ _ hs _ hstep => hs.step hday hstep
  constructor
  · intro i answer hp
    obtain ⟨ticket, ht, hm, rfl⟩ := hs.documented_of_phase hp
    obtain ⟨row, hrow, hr⟩ := List.mem_map.mp hm
    exact ⟨row, hrow, ticket.sas, onRecord_of_signed ht hr⟩
  · exact fun i hf => hs.failed hfresh hf
  · intro action s' hstep
    have hmoves := moves_of_step hstep
    exact ⟨uploads_of_moves hmoves, fun i hf => moves_of_failed hmoves hf⟩
  · intro row hm
    have hr := hs.recorded _ (mem_records hm)
    exact ⟨hr.blobName, hr.expiresAt⟩
  · intro action s' hstep
    obtain ⟨confirms, hc, rfl⟩ := Option.map_eq_some_iff.mp hstep
    exact records_of_confirm hc

end Results

section Sample

open ReceiptBlobStore (tenMinutes uploadAt)

variable {cfg generateBlobSas households calls confirmations} {s : UploadsApi κ}
  {first : List ReceiptUploadRow}

def Below (n : ℕ) (_ : UploadsApi κ) : UploadsAction κ → Prop
  | .request i | .insert i | .commit i | .respond i | .fail i => i < n
  | .store _ | .confirm _ => True

instance decidableBelow (n : ℕ) (s : UploadsApi κ) (action : UploadsAction κ) :
    Decidable (Below n s action) :=
  match action with
  | .request i | .insert i | .commit i | .respond i | .fail i => inferInstanceAs (Decidable (i < n))
  | .store _ | .confirm _ => inferInstanceAs (Decidable True)

theorem lt_of_begun {n : ℕ}
    (h : Reach (step cfg generateBlobSas households calls confirmations) (Below n)
      (initial first) s) : ∀ i, s.phase i ≠ .started → i < n := by
  refine h.invariant (I := fun s => ∀ i, s.phase i ≠ .started → i < n)
    (fun i hi => absurd rfl hi) ?_
  intro s action s' hs hbelow hstep
  have update : ∀ {i : ℕ} {p : IssuePhase κ}, i < n →
      ∀ j, Function.update s.phase i p j ≠ .started → j < n := by
    intro i p hi
    apply (Function.forall_update_iff s.phase fun j q => q ≠ .started → j < n).mpr
    exact ⟨fun _ => hi, fun j _ => hs j⟩
  cases moves_of_step hstep with
  | requested | inserted | committed | responded => exact update hbelow
  | gaveUp ha => rcases ha with rfl | rfl <;> exact update hbelow
  | stored | confirmed => exact hs

theorem inDatetime_zero : InDatetime (0 * 1000000) := by decide

def firstMinute (i : ℕ) : UploadCall :=
  { uploadAt 0 inDatetime_zero with uploadId := BitVec.ofNat 128 i }

def sampleSas (sas : BlobSas String) : String := "sig=" ++ sas.userDelegationKey.value

def sampleConfirmation (_ : ℕ) : ConfirmRequest := ⟨1, 1, 60000000⟩

/-- The first request is not given a key, the second is given a URL, and the third is rolled back
after its insertion. The second upload is confirmed. -/
def threeRequests : List (UploadsAction String) :=
  [.request 0, .store (.acquire 0), .store (.fetched 0 .timedOut), .fail 0,
    .request 1, .store (.acquire 1), .request 2, .store (.fetched 1 (.key "key")), .insert 1,
    .commit 1, .store (.acquire 2), .insert 2, .fail 2, .respond 1,
    .confirm (.select 0), .confirm (.flush 0), .confirm (.commit 0)]

theorem no_url_without_record_threeRequests :
    ∃ s, exec (guarded (step tenMinutes sampleSas [1] firstMinute sampleConfirmation) (Below 3))
        (initial []) threeRequests = some s ∧
      s.phase 0 = .failed ∧ s.phase 2 = .failed ∧
      s.confirms.uploads.map (fun row => (row.id, row.confirmedAt)) = [(1, some 60000000)] ∧
      NoUrlWithoutRecord tenMinutes sampleSas [1] firstMinute sampleConfirmation s := by
  have h : (exec (guarded (step tenMinutes sampleSas [1] firstMinute sampleConfirmation) (Below 3))
      (initial []) threeRequests).map (fun s =>
        (s.phase 0, s.phase 2, s.confirms.uploads.map fun row => (row.id, row.confirmedAt))) =
      some (.failed, .failed, [(1, some 60000000)]) := by
    decide +kernel
  obtain ⟨s, hr, hu⟩ := Option.map_eq_some_iff.mp h
  simp only [Prod.mk.injEq] at hu
  have hreach := Reach.of_exec hr
  have hfresh : Fresh firstMinute [] s := by
    refine ⟨fun i j hi hj he => ?_, by simp⟩
    have hlt := lt_of_begun hreach i hi
    have hlt' := lt_of_begun hreach j hj
    have hnat := congrArg BitVec.toNat he
    simp only [firstMinute, BitVec.toNat_ofNat] at hnat
    omega
  have hday : Date.ofInstant 0 = some (uploadAt 0 inDatetime_zero).day := by decide +kernel
  exact ⟨s, hr, hu.1, hu.2.1, hu.2.2,
    no_url_without_record (fun _ => hday) (by simp) hfresh hreach.reachable⟩

end Sample

end UploadsApi

end KitchenSense
