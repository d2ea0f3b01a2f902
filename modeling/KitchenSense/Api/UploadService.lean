import KitchenSense.Api.Accountability
import KitchenSense.Api.Progress
import KitchenSense.Api.Receipts
import KitchenSense.Foundations.Json

/-! # The upload endpoints as a service

A client says what kind of file it is about to upload and nothing else. The
household comes from its token and the name of the blob from the server, so
every URL is for a blob under the path of the household that has asked for it,
and every record is that of a request which was let through.
-/

namespace KitchenSense

inductive ReceiptContentType
  | jpeg
  | png
  | heic
  | webp
  | pdf
  deriving DecidableEq

namespace ReceiptContentType

def value : ReceiptContentType → String
  | .jpeg => "image/jpeg"
  | .png => "image/png"
  | .heic => "image/heic"
  | .webp => "image/webp"
  | .pdf => "application/pdf"

def members : List ReceiptContentType := [.jpeg, .png, .heic, .webp, .pdf]

def ofValue? (s : String) : Option ReceiptContentType := members.find? fun c => c.value == s

theorem ofValue?_eq_some_iff {s : String} {c : ReceiptContentType} :
    ofValue? s = some c ↔ c.value = s := by
  constructor
  · intro h
    simpa using List.find?_some h
  · rintro rfl
    cases c <;> decide

end ReceiptContentType

/-- What is wrong with the body of a request for an upload URL. -/
inductive UploadProblem
  | missing
  | modelAttributesType
  | enum (expected : List String)
  | extraForbidden
  deriving DecidableEq

structure UploadError where
  loc : List String
  problem : UploadProblem
  deriving DecidableEq

/-- What a client may say about a receipt it is about to upload. -/
structure UploadRequest where
  contentType : ReceiptContentType
  deriving DecidableEq

namespace UploadRequest

/-- The field `content_type`, where it is given. -/
def readContentType : Option Json → Except UploadError ReceiptContentType
  | none => .ok .jpeg
  | some (.text s) =>
    match ReceiptContentType.ofValue? s with
    | some contentType => .ok contentType
    | none => .error ⟨["body", "content_type"], .enum (ReceiptContentType.members.map (·.value))⟩
  | some _ => .error ⟨["body", "content_type"], .enum (ReceiptContentType.members.map (·.value))⟩

def extraErrors (fields : Dict String Json) : List UploadError :=
  (fields.entries.filter fun e => e.1 != "content_type").map fun e =>
    ⟨["body", e.1], .extraForbidden⟩

def validate : Option Json → Except (List UploadError) UploadRequest
  | none | some .null => .error [⟨["body"], .missing⟩]
  | some (.object entries) =>
    let fields := Dict.ofPairs entries
    match readContentType (fields.get? "content_type"), extraErrors fields with
    | .ok contentType, [] => .ok ⟨contentType⟩
    | .ok _, errors => .error errors
    | .error error, errors => .error (error :: errors)
  | some _ => .error [⟨["body"], .modelAttributesType⟩]

end UploadRequest

inductive UploadEndpoint
  | requestUpload (body : Option Json)
  | confirmUpload (uploadId : UUID)

/-- A request to an upload endpoint, with the id and the time that its handler reads. -/
structure UploadHttpRequest where
  caller : Caller
  endpoint : UploadEndpoint
  /-- Read by `request_upload` alone. -/
  uploadId : UUID
  now : Instant
  day : Date
  now_valid : InDatetime now
  day_of_now : Date.ofInstant now = some day

namespace UploadHttpRequest

variable (uuid5 : UUID → String → UUID) (request : UploadHttpRequest)

def contentType : String :=
  match request.endpoint with
  | .requestUpload body =>
    match UploadRequest.validate body with
    | .ok payload => payload.contentType.value
    | .error _ => ""
  | .confirmUpload _ => ""

/-- What `request_upload` asks the store for. -/
def call : UploadCall where
  householdId := (request.caller.sight uuid5).householdId
  uploadId := request.uploadId
  requestedAt := request.now
  day := request.day
  contentType := request.contentType
  requestedAt_valid := request.now_valid

/-- What `confirm_upload` confirms. -/
def confirmation : ConfirmRequest where
  householdId := (request.caller.sight uuid5).householdId
  uploadId :=
    match request.endpoint with
    | .requestUpload _ => request.uploadId
    | .confirmUpload uploadId => uploadId
  at_ := request.now

/-- Whether the body of a request is accepted; `confirm_upload` has none. -/
def check : Except (List UploadError) Unit :=
  match request.endpoint with
  | .requestUpload body => (UploadRequest.validate body).map fun _ => ()
  | .confirmUpload _ => .ok ()

def runs {κ : Type} : UploadsAction κ → Bool
  | .confirm _ => match request.endpoint with
    | .confirmUpload _ => true
    | .requestUpload _ => false
  | .request _ | .store _ | .insert _ | .commit _ | .respond _ | .fail _ =>
    match request.endpoint with
    | .requestUpload _ => true
    | .confirmUpload _ => false

end UploadHttpRequest

def UploadAction.index {κ : Type} : UploadAction κ → ℕ
  | .uploadTicket i _ | .acquire i | .fetched i _ => i

def ConfirmAction.index : ConfirmAction → ℕ
  | .select i | .flush i | .commit i | .rollback i => i

def UploadsAction.owner {κ : Type} : UploadsAction κ → ℕ
  | .request i | .insert i | .commit i | .respond i | .fail i => i
  | .store action => action.index
  | .confirm action => action.index

abbrev UploadService (κ : Type) := Entrance (UploadsApi κ) (List UploadError)

/-- The reply to a request whose connection is lost before its handler is called. -/
def ConnectionFailure.uploadReply : ConnectionFailure → UploadReply
  | .operationalError | .interfaceError => .refused databaseUnreachable
  | .other => .serverError

namespace ConfirmState

theorem phase_of_ne {requests : ℕ → ConfirmRequest} {s s' : ConfirmState} {action : ConfirmAction}
    {i : ℕ} (h : step requests s action = some s') (hi : i ≠ action.index) :
    s'.phase i = s.phase i := by
  cases action with
  | select j =>
    rw [step] at h
    split at h
    next => cases h; exact Function.update_of_ne hi ..
    next => cases h
  | flush j =>
    rw [step] at h
    split at h
    next =>
      rw [Option.ite_none_right_eq_some] at h
      obtain ⟨-, h⟩ := h
      split at h <;> cases h <;> exact Function.update_of_ne hi ..
    next => cases h
  | commit j =>
    rw [step] at h
    split at h
    next =>
      rw [Option.ite_none_left_eq_some] at h
      obtain ⟨-, ⟨⟩⟩ := h
      exact Function.update_of_ne hi ..
    next => cases h; exact Function.update_of_ne hi ..
    next => cases h
  | rollback j =>
    rw [step] at h
    split at h
    next => cases h; exact Function.update_of_ne hi ..
    next => cases h; exact Function.update_of_ne hi ..
    next => cases h; exact Function.update_of_ne hi ..
    next => cases h

end ConfirmState

theorem ReceiptBlobStore.phase_of_ne {κ : Type} {cfg : StorageSettings}
    {s s' : ReceiptBlobStore κ} {action : UploadAction κ} {i : ℕ}
    (h : ReceiptBlobStore.step cfg s action = some s') (hi : i ≠ action.index) :
    s'.phase i = s.phase i := by
  obtain ⟨p, hp⟩ : ∃ p, s'.phase = Function.update s.phase action.index p := by
    cases action with
    | uploadTicket j call =>
      obtain ⟨p, ht, -⟩ := turns_of_uploadTicket h
      exact ⟨p, ht.phase⟩
    | acquire j =>
      obtain ⟨p, ht⟩ := turns_of_acquire h
      exact ⟨p, ht.phase⟩
    | fetched j outcome =>
      obtain ⟨p, ht⟩ := turns_of_fetched h
      exact ⟨p, ht.phase⟩
  rw [hp, Function.update_of_ne hi]

namespace UploadsApi

variable {κ : Type} {cfg : StorageSettings} {generateBlobSas : BlobSas κ → String}
  {households : List UUID} {calls : ℕ → UploadCall} {confirmations : ℕ → ConfirmRequest}
  {s s' : UploadsApi κ} {action : UploadsAction κ} {i : ℕ}

/-- What a request has reached in the store, in the table and in the handlers. -/
def Begun (s : UploadsApi κ) (i : ℕ) : Prop :=
  s.phase i ≠ .started ∨ s.store.phase i ≠ .idle ∨ s.confirms.phase i ≠ .started

theorem phases_of_ne
    (h : step cfg generateBlobSas households calls confirmations s action = some s')
    (hi : i ≠ action.owner) : s'.phase i = s.phase i ∧ s'.store.phase i = s.store.phase i ∧
      s'.confirms.phase i = s.confirms.phase i := by
  cases moves_of_step h with
  | @requested j store hp hs =>
    have hstore : store.phase i = s.store.phase i := ReceiptBlobStore.phase_of_ne hs hi
    exact ⟨Function.update_of_ne hi .., hstore, rfl⟩
  | @stored a store ha hs =>
    have hstore : store.phase i = s.store.phase i := ReceiptBlobStore.phase_of_ne hs hi
    exact ⟨rfl, hstore, rfl⟩
  | inserted hp ht => exact ⟨Function.update_of_ne hi .., rfl, rfl⟩
  | committed hp => exact ⟨Function.update_of_ne hi .., rfl, rfl⟩
  | responded hp => exact ⟨Function.update_of_ne hi .., rfl, rfl⟩
  | gaveUp ha hp => rcases ha with rfl | rfl <;> exact ⟨Function.update_of_ne hi .., rfl, rfl⟩
  | @confirmed a confirms hc =>
    have hconfirms : confirms.phase i = s.confirms.phase i := ConfirmState.phase_of_ne hc hi
    exact ⟨rfl, rfl, hconfirms⟩

theorem Begun.of_step (h : Begun s' i)
    (hs : step cfg generateBlobSas households calls confirmations s action = some s')
    (hi : i ≠ action.owner) : Begun s i := by
  obtain ⟨hp, hstore, hc⟩ := phases_of_ne hs hi
  rwa [Begun, hp, hstore, hc] at h

/-- Confirmations and requests for URLs leave each other where they are. -/
theorem phases_of_step
    (h : step cfg generateBlobSas households calls confirmations s action = some s') :
    (s'.phase = s.phase ∧ ∃ a, action = .confirm a) ∨
      (s'.confirms.phase = s.confirms.phase ∧ ∀ a, action ≠ .confirm a) := by
  cases moves_of_step h with
  | requested | stored | inserted | committed | responded => exact .inr ⟨rfl, by simp⟩
  | gaveUp ha hp => rcases ha with rfl | rfl <;> exact .inr ⟨rfl, by simp⟩
  | @confirmed action confirms hc => exact .inl ⟨rfl, action, rfl⟩

end UploadsApi

/-- The status of a response; that of `request_upload` is 201 and that of `confirm_upload` 200. -/
def uploadStatusCode : Except (List UploadError) UploadReply → ℕ
  | .error _ => 422
  | .ok (.issued _) => 201
  | .ok (.confirmed _) => 200
  | .ok (.refused exception) => exception.statusCode
  | .ok .serverError => 500

namespace UploadService

variable {κ : Type} (uuid5 : UUID → String → UUID) (cfg : StorageSettings)
  (generateBlobSas : BlobSas κ → String) (requests : ℕ → UploadHttpRequest)

def callers (i : ℕ) : Caller := (requests i).caller

def calls (i : ℕ) : UploadCall := (requests i).call uuid5

def confirmations (i : ℕ) : ConfirmRequest := (requests i).confirmation uuid5

def router : Router (UploadsApi κ) (UploadsAction κ) (List UploadError) where
  owner := UploadsAction.owner
  check i := (requests i).check
  step households uploads action :=
    if (requests action.owner).runs action then
      UploadsApi.step cfg generateBlobSas households (calls uuid5 requests)
        (confirmations uuid5 requests) uploads action
    else none

def initial (households : List HouseholdRow) (uploads : List ReceiptUploadRow) : UploadService κ :=
  Entrance.initial households (.initial uploads)

/-- The reply to a request, once there is one; a 422 shows what is wrong with the body. -/
def reply? (s : UploadService κ) (i : ℕ) : Option (Except (List UploadError) UploadReply) :=
  match s.phase i, (requests i).endpoint with
  | .refused exception, _ => some (.ok (.refused exception))
  | .failed, _ => some (.ok .serverError)
  | .invalid errors, _ => some (.error errors)
  | .disconnected failure, _ => some (.ok failure.uploadReply)
  | .handling, .requestUpload _ => (s.handlers.reply? i).map .ok
  | .handling, .confirmUpload _ => (s.handlers.confirms.phase i).reply?.map .ok
  | _, _ => none

section Handlers

open UploadsApi (Journal)

variable {uuid5 cfg generateBlobSas requests} {households : List UUID} {x x' : UploadsApi κ}
  {action : UploadsAction κ} {first : List ReceiptUploadRow}

theorem router_step_eq_some :
    (router uuid5 cfg generateBlobSas requests).step households x action = some x' ↔
      (requests action.owner).runs action ∧ UploadsApi.step cfg generateBlobSas households
        (calls uuid5 requests) (confirmations uuid5 requests) x action = some x' :=
  Option.ite_none_right_eq_some

/-- A request whose handler has begun runs the statements of its own endpoint. -/
def Kept (requests : ℕ → UploadHttpRequest) (x : UploadsApi κ) : Prop :=
  ∀ i, (x.phase i ≠ .started → ∃ body, (requests i).endpoint = .requestUpload body) ∧
    (x.confirms.phase i ≠ .started → ∃ uploadId, (requests i).endpoint = .confirmUpload uploadId)

theorem Kept.step (hx : Kept requests x)
    (h : (router uuid5 cfg generateBlobSas requests).step households x action = some x') :
    Kept requests x' := by
  obtain ⟨hruns, h⟩ := router_step_eq_some.mp h
  intro i
  by_cases hi : i = action.owner
  · subst hi
    rcases UploadsApi.phases_of_step h with ⟨hp, a, rfl⟩ | ⟨hc, ha⟩
    · rw [hp]
      refine ⟨(hx _).1, fun _ => ?_⟩
      cases he : (requests (.confirm a : UploadsAction κ).owner).endpoint with
      | requestUpload body => rw [UploadHttpRequest.runs, he] at hruns; cases hruns
      | confirmUpload uploadId => exact ⟨uploadId, rfl⟩
    · rw [hc]
      refine ⟨fun _ => ?_, (hx _).2⟩
      cases he : (requests action.owner).endpoint with
      | requestUpload body => exact ⟨body, rfl⟩
      | confirmUpload uploadId =>
        cases action with
        | confirm a => exact absurd rfl (ha a)
        | _ => rw [UploadHttpRequest.runs, he] at hruns; cases hruns
  · obtain ⟨hp, -, hc⟩ := UploadsApi.phases_of_ne h hi
    rw [hp, hc]
    exact hx i

def Handled (uuid5 : UUID → String → UUID) (cfg : StorageSettings)
    (generateBlobSas : BlobSas κ → String) (requests : ℕ → UploadHttpRequest)
    (first : List ReceiptUploadRow) (x : UploadsApi κ) : Prop :=
  Kept requests x ∧ ∃ order, Journal cfg generateBlobSas (calls uuid5 requests)
    (confirmations uuid5 requests) first order x

theorem Handled.step (hx : Handled uuid5 cfg generateBlobSas requests first x)
    (h : (router uuid5 cfg generateBlobSas requests).step households x action = some x') :
    Handled uuid5 cfg generateBlobSas requests first x' := by
  obtain ⟨hkept, order, hj⟩ := hx
  obtain ⟨order', hj'⟩ := hj.step (router_step_eq_some.mp h).2
  exact ⟨hkept.step h, order ++ order', hj'⟩

end Handlers

section Replies

variable {requests} {s : UploadService κ} {i : ℕ}

theorem accepted_of_check {request : UploadHttpRequest} {body : Option Json}
    (he : request.endpoint = .requestUpload body) (h : request.check = .ok ()) :
    ∃ payload, UploadRequest.validate body = .ok payload ∧
      request.contentType = payload.contentType.value := by
  simp only [UploadHttpRequest.check, he] at h
  simp only [UploadHttpRequest.contentType, he]
  cases hv : UploadRequest.validate body with
  | error errors => rw [hv] at h; cases h
  | ok payload => exact ⟨payload, rfl, rfl⟩

theorem body_of_check {request : UploadHttpRequest} {errors : List UploadError}
    (h : request.check = .error errors) : ∃ body, request.endpoint = .requestUpload body ∧
      UploadRequest.validate body = .error errors := by
  unfold UploadHttpRequest.check at h
  split at h
  next body he =>
    refine ⟨body, he, ?_⟩
    cases hv : UploadRequest.validate body with
    | error e => rw [hv] at h; cases h; rfl
    | ok payload => rw [hv] at h; cases h
  next => cases h

theorem answered_of_issued {answer : UploadTicketResponse}
    (h : s.reply? requests i = some (.ok (.issued answer))) :
    s.handlers.phase i = .answered answer := by
  unfold reply? at h
  split at h
  next => cases h
  next => cases h
  next => cases h
  next failure _ => cases failure <;> cases h
  next =>
    obtain ⟨reply, hr, ⟨⟩⟩ := Option.map_eq_some_iff.mp h
    exact UploadsApi.answered_of_reply hr
  next =>
    obtain ⟨reply, hr, ⟨⟩⟩ := Option.map_eq_some_iff.mp h
    unfold ConfirmPhase.reply? at hr
    split at hr
    next => split at hr <;> cases hr
    next => cases hr
    next => cases hr
  next => cases h

theorem answered_of_confirmed {confirmation : UploadConfirmation}
    (h : s.reply? requests i = some (.ok (.confirmed confirmation))) :
    (∃ uploadId, (requests i).endpoint = .confirmUpload uploadId) ∧
      ∃ upload, s.handlers.confirms.phase i = .answered upload ∧
        UploadConfirmation.fromDomain upload = .ok confirmation := by
  unfold reply? at h
  split at h
  next => cases h
  next => cases h
  next => cases h
  next failure _ => cases failure <;> cases h
  next =>
    obtain ⟨reply, hr, ⟨⟩⟩ := Option.map_eq_some_iff.mp h
    rw [UploadsApi.reply?] at hr
    split at hr
    next => cases hr
    next error _ _ => cases error <;> cases hr
    next => cases hr
  next uploadId _ he =>
    obtain ⟨reply, hr, ⟨⟩⟩ := Option.map_eq_some_iff.mp h
    refine ⟨⟨uploadId, he⟩, ?_⟩
    unfold ConfirmPhase.reply? at hr
    split at hr
    next upload hp =>
      split at hr
      next c hc => cases hr; exact ⟨upload, hp, hc⟩
      next => cases hr
    next => cases hr
    next => cases hr
  next => cases h

theorem invalid_of_reply {errors : List UploadError}
    (h : s.reply? requests i = some (.error errors)) : s.phase i = .invalid errors := by
  unfold reply? at h
  split at h
  next => cases h
  next => cases h
  next hp => cases h; exact hp
  next => cases h
  next => obtain ⟨reply, -, ⟨⟩⟩ := Option.map_eq_some_iff.mp h
  next => obtain ⟨reply, -, ⟨⟩⟩ := Option.map_eq_some_iff.mp h
  next => cases h

end Replies

variable [UnicodeTables] (settings : Settings)

def step : UploadService κ → EntryAction (UploadsAction κ) → Option (UploadService κ) :=
  Entrance.step settings uuid5 (router uuid5 cfg generateBlobSas requests) (callers requests)

variable {settings uuid5 cfg generateBlobSas requests} {s : UploadService κ} {i : ℕ}
  {first : List HouseholdRow} {uploads : List ReceiptUploadRow}

section Accounts

open UploadsApi (Begun Keyed Signed records response)

/-- A request that has been let through with an accepted body, and the ticket it is given. -/
structure Permitted (settings : Settings) (uuid5 : UUID → String → UUID) (cfg : StorageSettings)
    (request : UploadHttpRequest) (ticket : UploadTicket κ) : Prop where
  owns : request.caller.Owns settings uuid5 (request.call uuid5).householdId
  accepted : ∃ body payload, request.endpoint = .requestUpload body ∧
    UploadRequest.validate body = .ok payload ∧ ticket.contentType = payload.contentType.value
  signed : Signed cfg (request.call uuid5) ticket

/-- The URLs, the confirmations and the records of a state, and whose they are. -/
structure Accounted (settings : Settings) (uuid5 : UUID → String → UUID) (cfg : StorageSettings)
    (generateBlobSas : BlobSas κ → String) (requests : ℕ → UploadHttpRequest)
    (uploads : List ReceiptUploadRow) (s : UploadService κ) : Prop where
  /-- A URL is for the household of the token that it was requested with, and it is recorded. -/
  issued : ∀ i answer, s.reply? requests i = some (.ok (.issued answer)) → ∃ ticket,
    Permitted settings uuid5 cfg (requests i) ticket ∧
    answer = response cfg generateBlobSas (calls uuid5 requests) i ticket ∧
    requestedRow (calls uuid5 requests i) ticket ∈ records s.handlers.confirms.uploads
  /-- Its blob lies under the path of that household, and of no other. -/
  path : ∀ i answer, s.reply? requests i = some (.ok (.issued answer)) → ∀ householdId : UUID,
    (householdId.str ++ "/").toList <+: answer.blobName.toList ↔ householdId = answer.householdId
  /-- A confirmation shows the upload that was asked for, to the household it belongs to. -/
  confirmed : ∀ i confirmation, s.reply? requests i = some (.ok (.confirmed confirmation)) →
    (requests i).caller.Owns settings uuid5 confirmation.householdId ∧
    (requests i).endpoint = .confirmUpload confirmation.uploadId ∧
    ∃ row : ReceiptUploadRow, { row with confirmedAt := none } ∈
        records s.handlers.confirms.uploads ∧
      UploadConfirmation.fromDomain row.toDomain = .ok confirmation
  /-- Every record is one of the first or that of a permitted request whose handler has run. -/
  recorded : ∀ row ∈ s.handlers.confirms.uploads,
    { row with confirmedAt := none } ∈ records uploads ∨
    ∃ (i : ℕ) (ticket : UploadTicket κ), s.phase i = .handling ∧
      Permitted settings uuid5 cfg (requests i) ticket ∧
      { row with confirmedAt := none } = requestedRow (calls uuid5 requests i) ticket
  /-- The household of a record is there. -/
  referenced : ∀ row ∈ s.handlers.confirms.uploads, ∃ r ∈ s.sight.households,
    r.id = row.householdId
  /-- A body that is not accepted gets no further. -/
  invalid : ∀ i errors, s.reply? requests i = some (.error errors) →
    (requests i).caller.Authenticated settings ∧ ¬ Begun s.handlers i ∧
    ∃ body, (requests i).endpoint = .requestUpload body ∧
      UploadRequest.validate body = .error errors
  /-- A request that is not let through runs no statement. -/
  refused : ∀ i, ¬ (requests i).caller.Authenticated settings →
    s.sight.phase i = .started ∧ ¬ Begun s.handlers i ∧
    ∀ reply, s.reply? requests i = some reply →
      (∃ exception, authReply settings (requests i).caller.credentials
        (requests i).caller.verified = .refused exception ∧ reply = .ok (.refused exception)) ∨
      authReply settings (requests i).caller.credentials (requests i).caller.verified = .failed ∧
        reply = .ok .serverError

structure Standing (settings : Settings) (uuid5 : UUID → String → UUID) (cfg : StorageSettings)
    (generateBlobSas : BlobSas κ → String) (requests : ℕ → UploadHttpRequest)
    (first : List HouseholdRow) (uploads : List ReceiptUploadRow) (s : UploadService κ) :
    Prop where
  entrance : Entrance.Sound settings uuid5 (router uuid5 cfg generateBlobSas requests)
    (callers requests) first s
  handled : Handled uuid5 cfg generateBlobSas requests uploads s.handlers
  handling : ∀ i, Begun s.handlers i → s.phase i = .handling

theorem Standing.reach (hn : (first.map (·.id)).Nodup) (hk : Keyed uploads)
    (hv : ∀ i, (requests i).caller.Vouched settings)
    (h : Reachable (step uuid5 cfg generateBlobSas requests settings) (initial first uploads) s) :
    Standing settings uuid5 cfg generateBlobSas requests first uploads s where
  entrance := .reach hn hv h
  handled := by
    refine Entrance.handlers_invariant (I := Handled uuid5 cfg generateBlobSas requests uploads)
      ⟨fun _ => ⟨absurd rfl, absurd rfl⟩, [], .initial (UploadsApi.keyed_records.mpr hk)⟩ ?_ h
    intro households x a x' hx ha
    exact hx.step ha
  handling := by
    have hnone : ∀ i, ¬ Begun (UploadsApi.initial uploads : UploadsApi κ) i := by
      rintro i (h | h | h) <;> exact h rfl
    refine Entrance.handling_of_mark hnone ?_ h
    intro households x a x' i ha hi hb
    exact hb.of_step (router_step_eq_some.mp ha).2 hi

theorem Standing.admitted
    (hs : Standing settings uuid5 cfg generateBlobSas requests first uploads s)
    (hp : s.phase i = .handling) : (requests i).caller.Authenticated settings ∧
      (∃ r ∈ s.sight.households, r.id = ((requests i).caller.sight uuid5).householdId) ∧
      (requests i).check = .ok () := by
  obtain ⟨hauth, ⟨created, hsight⟩, hcheck⟩ :
    (requests i).caller.Authenticated settings ∧ (∃ created, s.sight.phase i = .proceeded created) ∧
      (requests i).check = .ok () := hs.entrance.stage_of_phase hp
  exact ⟨hauth, (hs.entrance.sight.supported_of_phase hsight).1, hcheck⟩

variable {order : List (ℕ × UploadTicket κ)} {ticket : UploadTicket κ}

theorem Standing.permitted
    (hs : Standing settings uuid5 cfg generateBlobSas requests first uploads s)
    (hv : ∀ i, (requests i).caller.Vouched settings)
    (hj : UploadsApi.Journal cfg generateBlobSas (calls uuid5 requests)
      (confirmations uuid5 requests) uploads order s.handlers)
    (hm : (i, ticket) ∈ order) : s.phase i = .handling ∧
      Permitted settings uuid5 cfg (requests i) ticket ∧
      ∃ r ∈ s.sight.households, r.id = (calls uuid5 requests i).householdId := by
  have hcommitted : (s.handlers.phase i).HasCommitted :=
    hj.mem_order_iff.mp (List.mem_map_of_mem hm)
  have hne : s.handlers.phase i ≠ .started := by
    intro h
    rw [h] at hcommitted
    exact hcommitted
  have hp := hs.handling i (.inl hne)
  obtain ⟨hauth, hhousehold, hcheck⟩ := hs.admitted hp
  obtain ⟨body, hendpoint⟩ := (hs.handled.1 i).1 hne
  obtain ⟨payload, hvalid, htype⟩ := accepted_of_check hendpoint hcheck
  have hsigned : Signed cfg (calls uuid5 requests i) ticket := hj.signed _ hm
  refine ⟨hp, ⟨Caller.owns_of_authenticated _ (hv i) hauth, ⟨body, payload, hendpoint, hvalid, ?_⟩,
    hsigned⟩, hhousehold⟩
  rw [hsigned.contentType]
  exact htype

theorem Standing.confirmed
    (hs : Standing settings uuid5 cfg generateBlobSas requests first uploads s)
    (hv : ∀ i, (requests i).caller.Vouched settings) {confirmation : UploadConfirmation}
    (hi : s.reply? requests i = some (.ok (.confirmed confirmation))) :
    (requests i).caller.Owns settings uuid5 confirmation.householdId ∧
      (requests i).endpoint = .confirmUpload confirmation.uploadId ∧
      ∃ row : ReceiptUploadRow, { row with confirmedAt := none } ∈
          records s.handlers.confirms.uploads ∧
        UploadConfirmation.fromDomain row.toDomain = .ok confirmation := by
  obtain ⟨order, hj⟩ := hs.handled.2
  obtain ⟨⟨uploadId, he⟩, upload, hp, hc⟩ := answered_of_confirmed hi
  obtain ⟨row, rfl, -, hread⟩ := hj.vouching.reads_of_phase hp
  have hbegun : Begun s.handlers i := by
    refine .inr (.inr ?_)
    rw [hp]
    simp
  obtain ⟨hauth, -, -⟩ := hs.admitted (hs.handling i hbegun)
  have hshown : confirmation.uploadId = row.id ∧ confirmation.householdId = row.householdId := by
    unfold UploadConfirmation.fromDomain at hc
    split at hc <;> cases hc
    exact ⟨rfl, rfl⟩
  refine ⟨?_, ?_, row, hread.recorded, hc⟩
  · rw [hshown.2, hread.household]
    exact Caller.owns_of_authenticated _ (hv i) hauth
  · rw [hshown.1, hread.id, confirmations, UploadHttpRequest.confirmation, he]

theorem Standing.invalid
    (hs : Standing settings uuid5 cfg generateBlobSas requests first uploads s)
    {errors : List UploadError} (hi : s.reply? requests i = some (.error errors)) :
    (requests i).caller.Authenticated settings ∧ ¬ Begun s.handlers i ∧
      ∃ body, (requests i).endpoint = .requestUpload body ∧
        UploadRequest.validate body = .error errors := by
  have hp := invalid_of_reply hi
  obtain ⟨hauth, -, hcheck⟩ : (requests i).caller.Authenticated settings ∧
    (∃ created, s.sight.phase i = .proceeded created) ∧ (requests i).check = .error errors :=
      hs.entrance.stage_of_phase hp
  refine ⟨hauth, fun hb => ?_, body_of_check hcheck⟩
  rw [hs.handling i hb] at hp
  cases hp

theorem Standing.refused
    (hs : Standing settings uuid5 cfg generateBlobSas requests first uploads s)
    (hn : ¬ (requests i).caller.Authenticated settings) :
    s.sight.phase i = .started ∧ ¬ Begun s.handlers i ∧
      ∀ reply, s.reply? requests i = some reply →
        (∃ exception, authReply settings (requests i).caller.credentials
          (requests i).caller.verified = .refused exception ∧
            reply = .ok (.refused exception)) ∨
        authReply settings (requests i).caller.credentials (requests i).caller.verified =
          .failed ∧ reply = .ok .serverError := by
  obtain ⟨hsight, hphase⟩ := hs.entrance.refused hn
  refine ⟨hsight, fun hb => ?_, fun reply hreply => ?_⟩
  · have hp := hs.handling i hb
    rcases hphase with h | ⟨exception, h, -⟩ | ⟨h, -⟩ <;> rw [h] at hp <;> cases hp
  · unfold reply? at hreply
    rcases hphase with h | ⟨exception, h, hg⟩ | ⟨h, hg⟩
    · rw [h] at hreply
      cases hreply
    · rw [h] at hreply
      cases hreply
      exact .inl ⟨exception, hg, rfl⟩
    · rw [h] at hreply
      cases hreply
      exact .inr ⟨hg, rfl⟩

theorem Standing.accounted
    (hs : Standing settings uuid5 cfg generateBlobSas requests first uploads s)
    (hr : ∀ row ∈ uploads, ∃ r ∈ first, r.id = row.householdId)
    (hv : ∀ i, (requests i).caller.Vouched settings) :
    Accounted settings uuid5 cfg generateBlobSas requests uploads s := by
  obtain ⟨order, hj⟩ := hs.handled.2
  have hissued : ∀ i answer, s.reply? requests i = some (.ok (.issued answer)) → ∃ ticket,
      (i, ticket) ∈ order ∧ answer = response cfg generateBlobSas (calls uuid5 requests) i ticket :=
    fun i answer hi => hj.journaled_of_phase (answered_of_issued hi)
  constructor
  case issued =>
    intro i answer hi
    obtain ⟨ticket, hm, ha⟩ := hissued i answer hi
    refine ⟨ticket, (hs.permitted hv hj hm).2.1, ha, ?_⟩
    change _ ∈ s.handlers.rows
    rw [hj.listed]
    exact List.mem_append_right _ (List.mem_map.mpr ⟨_, hm, rfl⟩)
  case path =>
    intro i answer hi householdId
    obtain ⟨ticket, hm, rfl⟩ := hissued i answer hi
    have hname : ticket.blobName = receiptBlobName (calls uuid5 requests i).householdId
        (calls uuid5 requests i).uploadId (calls uuid5 requests i).day := (hj.signed _ hm).blobName
    change _ <+: ticket.blobName.toList ↔ householdId = (calls uuid5 requests i).householdId
    rw [hname]
    exact household_prefix_iff
  case confirmed => exact fun _ _ hi => hs.confirmed hv hi
  case recorded =>
    intro row hrow
    rcases hj.record_cases hrow with hm | ⟨p, hm, hp⟩
    · exact .inl hm
    · obtain ⟨hphase, hpermitted, -⟩ := hs.permitted hv hj hm
      exact .inr ⟨p.1, p.2, hphase, hpermitted, hp⟩
  case referenced =>
    intro row hrow
    rcases hj.record_cases hrow with hm | ⟨p, hm, hp⟩
    · obtain ⟨row₀, hrow₀, he⟩ := List.mem_map.mp hm
      obtain ⟨r, hrm, hid⟩ := hr row₀ hrow₀
      exact ⟨r, hs.entrance.sight.kept r hrm, hid.trans (congrArg (·.householdId) he)⟩
    · obtain ⟨-, -, r, hrm, hid⟩ := hs.permitted hv hj hm
      exact ⟨r, hrm, hid.trans (congrArg (·.householdId) hp).symm⟩
  case invalid => exact fun _ _ hi => hs.invalid hi
  case refused => exact fun _ hn => hs.refused hn

/-- In every run, what is given away and recorded belongs to the household of its request's
token. -/
theorem uploads_accounted (hn : (first.map (·.id)).Nodup) (hk : Keyed uploads)
    (hr : ∀ row ∈ uploads, ∃ r ∈ first, r.id = row.householdId)
    (hv : ∀ i, (requests i).caller.Vouched settings)
    (h : Reachable (step uuid5 cfg generateBlobSas requests settings) (initial first uploads) s) :
    Accounted settings uuid5 cfg generateBlobSas requests uploads s :=
  (Standing.reach hn hk hv h).accounted hr hv

end Accounts

end UploadService

namespace UploadService

open InventoryService (memberClaims memberUuid5)
open TokenVerifier (kitchenSettings)
open ReceiptBlobStore (tenMinutes uploadAt)
open UploadsApi (inDatetime_zero sampleSas Keyed)

theorem ofInstant_zero : Date.ofInstant 0 = some (uploadAt 0 inDatetime_zero).day := by
  decide +kernel

/-- What the requests of a host and of a guest ask for: a URL each, a confirmation of the host's
upload each, and a URL for a blob of one's own naming. -/
def memberEndpoint (i : ℕ) : UploadEndpoint :=
  if i = 0 then .requestUpload (some (.object [("content_type", .text "image/png")]))
  else if i = 1 then .requestUpload (some (.object []))
  else if i ≤ 3 then .confirmUpload 0
  else .requestUpload (some (.object [("blob_name", .text "receipt")]))

/-- The second and the third request are the guest's, and the fifth has no credentials. -/
def memberUploads [UnicodeTables] (i : ℕ) : UploadHttpRequest where
  caller :=
    { credentials := if i = 4 then none else some "signed"
      verified := toPrincipal kitchenSettings
        (memberClaims (if i = 1 ∨ i = 2 then "guest" else "host"))
      session := .factory }
  endpoint := memberEndpoint i
  uploadId := BitVec.ofNat 128 i
  now := 0
  day := (uploadAt 0 inDatetime_zero).day
  now_valid := inDatetime_zero
  day_of_now := ofInstant_zero

theorem vouched_memberUploads [UnicodeTables] (i : ℕ) :
    (memberUploads i).caller.Vouched kitchenSettings := by
  intro principal h
  simp only [memberUploads] at h
  exact ⟨_, h⟩

def entering (i : ℕ) (known : Bool) : List (EntryAction (UploadsAction String)) :=
  [.authenticate i, .openSession i, .readHousehold i] ++
    (if known then [] else [.insertHousehold i, .commitHousehold i]) ++ [.handle i]

/-- Both are given URLs at once, and the guest then tries to confirm the host's upload. -/
def urlsAtOnce : List (EntryAction (UploadsAction String)) :=
  .authenticate 4 :: entering 0 false ++ entering 1 false ++
    [.request 0, .request 1, .store (.acquire 0), .store (.fetched 0 (.key "key")),
      .store (.acquire 1), .insert 0, .insert 1, .commit 1, .commit 0, .respond 0,
      .respond 1].map .handler ++
    entering 2 true ++ entering 3 true ++ entering 5 true ++
    [.confirm (.select 2), .confirm (.select 3), .confirm (.flush 3),
      .confirm (.commit 3)].map .handler

theorem uploads_accounted_urlsAtOnce :
    letI := dottedTables
    ∃ s, exec (guarded (step memberUuid5 tenMinutes sampleSas memberUploads kitchenSettings)
        unrestricted) (initial [] []) urlsAtOnce = some s ∧
      [0, 1, 2, 3, 4, 5].map (fun i => (s.reply? memberUploads i).map uploadStatusCode) =
        [some 201, some 201, some 404, some 200, some 401, some 422] ∧
      Accounted kitchenSettings memberUuid5 tenMinutes sampleSas memberUploads [] s := by
  let _ := dottedTables
  have h : (exec (guarded (step memberUuid5 tenMinutes sampleSas memberUploads kitchenSettings)
      unrestricted) (initial [] []) urlsAtOnce).map (fun s =>
        [0, 1, 2, 3, 4, 5].map fun i => (s.reply? memberUploads i).map uploadStatusCode) =
      some [some 201, some 201, some 404, some 200, some 401, some 422] := by
    decide +kernel
  obtain ⟨s, hr, hp⟩ := Option.map_eq_some_iff.mp h
  have hkeyed : Keyed [] := ⟨List.nodup_nil, List.nodup_nil⟩
  have hreach : Reachable (step memberUuid5 tenMinutes sampleSas memberUploads kitchenSettings)
      (initial [] []) s := Reach.of_exec hr
  exact ⟨s, hr, hp, uploads_accounted (by simp) hkeyed (by simp) vouched_memberUploads hreach⟩

end UploadService

end KitchenSense
