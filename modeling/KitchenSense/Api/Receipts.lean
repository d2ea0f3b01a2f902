import KitchenSense.Api.Responses
import KitchenSense.Api.Uploads

/-! # Upload URLs and their confirmations over HTTP

No two URLs are for one blob, not even if an id comes up twice, since the row of
an upload is committed before its URL is given away. A household that has been
given a URL can confirm it, and no other household can.
-/

namespace KitchenSense

/-- The reply of `confirm_upload` to an id that the household has not requested. -/
def uploadNotFound : HTTPException where
  statusCode := 404
  detail := "No upload was requested with that id. Ask for an upload URL " ++
    "first, then confirm the id it returns."
  wwwAuthenticate := none

/-- `_storage_unavailable`: the reply to a `StorageUnavailableError`. -/
def storageUnavailable : HTTPException where
  statusCode := 503
  detail := "Receipt uploads are unavailable. Please try again shortly."
  wwwAuthenticate := none

structure UploadConfirmation where
  uploadId : UUID
  householdId : UUID
  blobName : String
  contentType : String
  requestedAt : Instant
  expiresAt : Instant
  confirmedAt : Instant
  deriving DecidableEq

/-- An upload without a confirmation is a `ValueError`. -/
def UploadConfirmation.fromDomain (upload : ReceiptUpload) : Except String UploadConfirmation :=
  match upload.confirmedAt with
  | none => .error "an unconfirmed upload has no confirmation to report"
  | some confirmedAt => .ok
      { uploadId := upload.id
        householdId := upload.householdId
        blobName := trim upload.blobName
        contentType := trim upload.contentType
        requestedAt := upload.requestedAt
        expiresAt := upload.expiresAt
        confirmedAt }

/-- What the confirmation of an upload shows whose URL was given away. -/
def UploadTicketResponse.confirmation (answer : UploadTicketResponse)
    (requestedAt confirmedAt : Instant) : UploadConfirmation where
  uploadId := answer.uploadId
  householdId := answer.householdId
  blobName := answer.blobName
  contentType := trim answer.contentType
  requestedAt
  expiresAt := answer.expiresAt
  confirmedAt

inductive UploadReply
  /-- 201. -/
  | issued (ticket : UploadTicketResponse)
  /-- 200. -/
  | confirmed (confirmation : UploadConfirmation)
  | refused (exception : HTTPException)
  | serverError
  deriving DecidableEq

def StorageError.reply : StorageError → UploadReply
  | .overflow => .serverError
  | .notConfigured | .timedOut _ | .notObtained _ _ => .refused storageUnavailable

/-- The reply of `request_upload`, once there is one; a request whose row is not stored gets a 500
or a 503. -/
def UploadsApi.reply? {κ : Type} (s : UploadsApi κ) (i : ℕ) : Option UploadReply :=
  match s.phase i, s.store.phase i with
  | .answered answer, _ => some (.issued answer)
  | .failed, .failed error => some error.reply
  | _, _ => none

/-- The 200 or the 404 of `confirm_upload`, once there is one; a request that has failed, since its
clock is before the request for the URL or its connection is lost, gets a 500 or a 503. -/
def ConfirmPhase.reply? : ConfirmPhase → Option UploadReply
  | .answered upload =>
    match UploadConfirmation.fromDomain upload with
    | .ok confirmation => some (.confirmed confirmation)
    | .error _ => some .serverError
  | .notFound => some (.refused uploadNotFound)
  | _ => none

section Names

/-- A URL tells its blob, whatever is appended to sign it. -/
theorem receiptBlobName_of_url {cfg : StorageSettings} {a b x y : UUID} {d e : Date}
    {sas sas' : String}
    (h : cfg.blobUrl (receiptBlobName a x d) ++ "?" ++ sas =
      cfg.blobUrl (receiptBlobName b y e) ++ "?" ++ sas') :
    receiptBlobName a x d = receiptBlobName b y e := by
  have hmark : ∀ {a x : UUID} {d : Date}, '?' ∉ (receiptBlobName a x d).toList := by
    intro a x d hm
    have hc := isNameChar_of_mem_receiptBlobName hm
    revert hc
    decide
  rw [blobUrl_receiptBlobName, blobUrl_receiptBlobName] at h
  have hl := congrArg String.toList h
  simp only [String.toList_append, List.append_assoc, List.append_cancel_left_eq] at hl
  exact String.toList_injective (append_sep_inj_left hmark hmark hl).1

end Names

namespace ConfirmState

open ReceiptUploadRepository
open UploadsApi (records records_updateConfirmedAt mem_records)

variable {requests : ℕ → ConfirmRequest} {s s' : ConfirmState} {action : ConfirmAction} {k : ℕ}
  {old : List UUID} {rows : List ReceiptUploadRow} {row : ReceiptUploadRow}

/-- What a step does, and in which phase its request was. -/
inductive Moves (requests : ℕ → ConfirmRequest) (s : ConfirmState) : ConfirmState → Prop
  | selects {i : ℕ} (hp : s.phase i = .started) : Moves requests s (s.enter i (afterSelect
      (ReceiptUploadRepository.row s.uploads (requests i).householdId (requests i).uploadId)))
  | writes {i : ℕ} {row : ReceiptUploadRow} (hp : s.phase i = .selected row)
      (hw : s.writer row.id = none) :
      Moves requests s { s.enter i (.flushed (confirmedRow requests i row)) with
        writer := Function.update s.writer row.id (some i) }
  | shows {i : ℕ} {row : ReceiptUploadRow} (hp : s.phase i = .selected row)
      (hc : row.confirmedAt ≠ none) : Moves requests s (s.enter i (.answered row.toDomain))
  | commits {i : ℕ} {row : ReceiptUploadRow} (hp : s.phase i = .flushed row) :
      Moves requests s { s.enter i (.answered row.toDomain) with
        uploads := updateConfirmedAt row.id (requests i).at_ s.uploads
        writer := Function.update s.writer row.id none }
  | givesUp {i : ℕ} (hp : ∀ row, s.phase i ≠ .flushed row) : Moves requests s (s.enter i .failed)
  | rollsBack {i : ℕ} {row : ReceiptUploadRow} (hp : s.phase i = .flushed row) :
      Moves requests s { s.enter i .failed with
        writer := Function.update s.writer row.id none }

theorem moves_of_step (h : step requests s action = some s') : Moves requests s s' := by
  cases action with
  | select i =>
    rw [step] at h
    cases hp : s.phase i with
    | started => rw [hp] at h; cases h; exact .selects hp
    | _ => rw [hp] at h; cases h
  | flush i =>
    rw [step] at h
    cases hp : s.phase i with
    | selected row =>
      rw [hp] at h
      simp only [Option.ite_none_right_eq_some] at h
      obtain ⟨⟨-, hw⟩, h⟩ := h
      split at h
      · cases h; exact .writes hp hw
      · cases h; exact .givesUp (by simp [hp])
    | _ => rw [hp] at h; cases h
  | commit i =>
    rw [step] at h
    cases hp : s.phase i with
    | selected row =>
      rw [hp] at h
      simp only [Option.ite_none_left_eq_some] at h
      obtain ⟨hc, ⟨⟩⟩ := h
      exact .shows hp hc
    | flushed row => rw [hp] at h; cases h; exact .commits hp
    | _ => rw [hp] at h; cases h
  | rollback i =>
    rw [step] at h
    cases hp : s.phase i with
    | started | selected => rw [hp] at h; cases h; exact .givesUp (by simp [hp])
    | flushed row => rw [hp] at h; cases h; exact .rollsBack hp
    | _ => rw [hp] at h; cases h

/-- A household reported the upload at the instant that its row shows. -/
def Vouched (requests : ℕ → ConfirmRequest) (row : ReceiptUploadRow) : Prop :=
  ∀ t, row.confirmedAt = some t → ∃ j, requests j = ⟨row.householdId, row.id, t⟩

/-- What a request has read: the row of the upload it asks for. -/
structure HasRead (requests : ℕ → ConfirmRequest) (old : List UUID) (rows : List ReceiptUploadRow)
    (k : ℕ) (row : ReceiptUploadRow) : Prop where
  household : row.householdId = (requests k).householdId
  id : row.id = (requests k).uploadId
  recorded : { row with confirmedAt := none } ∈ rows
  vouched : row.id ∉ old → Vouched requests row

def Reads (requests : ℕ → ConfirmRequest) (old : List UUID) (rows : List ReceiptUploadRow)
    (k : ℕ) : ConfirmPhase → Prop
  | .selected row => HasRead requests old rows k row
  | .flushed row => HasRead requests old rows k row ∧ row.confirmedAt = some (requests k).at_
  | .answered upload => ∃ row, upload = row.toDomain ∧ row.confirmedAt ≠ none ∧
      HasRead requests old rows k row
  | _ => True

structure Vouching (requests : ℕ → ConfirmRequest) (old : List UUID) (s : ConfirmState) :
    Prop where
  rows : ∀ row ∈ s.uploads, row.id ∉ old → Vouched requests row
  reads : ∀ k, Reads requests old (records s.uploads) k (s.phase k)
  writers : ∀ id j, s.writer id = some j → ∃ row, s.phase j = .flushed row ∧ row.id = id

theorem Vouching.initial (uploads : List ReceiptUploadRow) :
    Vouching requests (uploads.map (·.id)) (initial uploads) where
  rows _ hm ho := absurd (List.mem_map_of_mem hm) ho
  reads _ := trivial
  writers _ _ h := by cases h

theorem Vouching.reads_of_phase {p : ConfirmPhase} (hs : Vouching requests old s)
    (hp : s.phase k = p) : Reads requests old (records s.uploads) k p := hp ▸ hs.reads k

theorem Vouching.reads_enter {i : ℕ} {p : ConfirmPhase} (hs : Vouching requests old s)
    (hp : Reads requests old (records s.uploads) i p) :
    ∀ k, Reads requests old (records s.uploads) k ((s.enter i p).phase k) :=
  (Function.forall_update_iff s.phase
    fun k => Reads requests old (records s.uploads) k).mpr ⟨hp, fun k _ => hs.reads k⟩

theorem Vouching.enter {i : ℕ} {p : ConfirmPhase} (hs : Vouching requests old s)
    (hi : ∀ row, s.phase i ≠ .flushed row)
    (hp : Reads requests old (records s.uploads) i p) :
    Vouching requests old (s.enter i p) where
  rows := hs.rows
  reads := hs.reads_enter hp
  writers := by
    intro id j hw
    obtain ⟨row, hj, hid⟩ := hs.writers id j hw
    have hne : j ≠ i := by
      rintro rfl
      exact hi row hj
    exact ⟨row, by rwa [enter_phase, Function.update_of_ne hne], hid⟩

theorem Vouching.writers_release {i : ℕ} {p : ConfirmPhase} (hs : Vouching requests old s)
    (hi : s.phase i = .flushed row) : ∀ id j, Function.update s.writer row.id none id = some j →
      ∃ r, (s.enter i p).phase j = .flushed r ∧ r.id = id := by
  intro id j hw
  by_cases hid : id = row.id
  · rw [hid, Function.update_self] at hw
    cases hw
  · rw [Function.update_of_ne hid] at hw
    obtain ⟨r, hj, hr⟩ := hs.writers id j hw
    have hne : j ≠ i := by
      rintro rfl
      rw [hi] at hj
      cases hj
      exact hid hr.symm
    exact ⟨r, by rwa [enter_phase, Function.update_of_ne hne], hr⟩

theorem HasRead.eq_of_mem {uploads : List ReceiptUploadRow} {r : ReceiptUploadRow}
    (h : HasRead requests old (records uploads) k row)
    (hn : ((records uploads).map (·.id)).Nodup)
    (hm : { r with confirmedAt := none } ∈ records uploads) (hid : r.id = row.id) :
    { r with confirmedAt := none } = { row with confirmedAt := none } :=
  List.inj_on_of_nodup_map hn hm h.recorded hid

theorem Vouching.step (hs : Vouching requests old s)
    (hn : ((records s.uploads).map (·.id)).Nodup)
    (h : ConfirmState.step requests s action = some s') : Vouching requests old s' := by
  cases moves_of_step h with
  | @selects i hp =>
    apply hs.enter (by simp [hp])
    cases hr : ReceiptUploadRepository.row s.uploads (requests i).householdId
      (requests i).uploadId with
    | error e => trivial
    | ok found =>
      cases found with
      | none => trivial
      | some row =>
        obtain ⟨hm, hh, hid⟩ := mem_of_row hr
        exact ⟨hh, hid, mem_records hm, hs.rows row hm⟩
  | @writes i row hp hw =>
    have hread : HasRead requests old (records s.uploads) i row := hs.reads_of_phase hp
    constructor
    · exact hs.rows
    · apply hs.reads_enter
      refine ⟨⟨hread.household, hread.id, hread.recorded, ?_⟩, rfl⟩
      rintro - t ht
      refine ⟨i, ?_⟩
      rw [← Option.some.inj ht, confirmedRow, hread.household, hread.id]
    · intro id j hj
      change Function.update s.writer row.id (some i) id = some j at hj
      by_cases hid : id = row.id
      · rw [hid, Function.update_self, Option.some_inj] at hj
        subst hj
        exact ⟨_, Function.update_self .., hid.symm⟩
      · rw [Function.update_of_ne hid] at hj
        obtain ⟨r, hr, hrid⟩ := hs.writers id j hj
        have hne : j ≠ i := by
          rintro rfl
          rw [hp] at hr
          cases hr
        exact ⟨r, (Function.update_of_ne hne ..).trans hr, hrid⟩
  | @shows i row hp hc =>
    exact hs.enter (by simp [hp]) ⟨row, rfl, hc, hs.reads_of_phase hp⟩
  | @commits i row hp =>
    obtain ⟨hread, hat⟩ := hs.reads_of_phase hp
    have hrecords : records (updateConfirmedAt row.id (requests i).at_ s.uploads) =
        records s.uploads := records_updateConfirmedAt row.id (requests i).at_
    constructor
    · intro r hr ho
      obtain ⟨r₀, hr₀, rfl⟩ := List.mem_map.mp hr
      by_cases hid : r₀.id = row.id
      · rw [if_pos hid] at ho ⊢
        have he := hread.eq_of_mem hn (mem_records hr₀) hid
        intro t ht
        refine ⟨i, ?_⟩
        have hh : r₀.householdId = row.householdId := congrArg (·.householdId) he
        rw [← Option.some.inj ht, hh, hid, hread.household, hread.id]
      · rw [if_neg hid] at ho ⊢
        exact hs.rows r₀ hr₀ ho
    · rw [hrecords]
      exact hs.reads_enter ⟨row, rfl, by simp [hat], hread⟩
    · exact hs.writers_release hp
  | givesUp hp => exact hs.enter hp trivial
  | rollsBack hp =>
    exact ⟨hs.rows, hs.reads_enter (p := .failed) trivial, hs.writers_release hp⟩

theorem Vouching.append (hs : Vouching requests old s) (hc : row.confirmedAt = none) :
    Vouching requests old { s with uploads := s.uploads ++ [row] } := by
  have hrows : ∀ r ∈ records s.uploads, r ∈ records (s.uploads ++ [row]) := by
    intro r hr
    rw [records, List.map_append]
    exact List.mem_append_left _ hr
  have mono : ∀ {k : ℕ} {r : ReceiptUploadRow}, HasRead requests old (records s.uploads) k r →
      HasRead requests old (records (s.uploads ++ [row])) k r := by
    intro k r h
    exact ⟨h.household, h.id, hrows _ h.recorded, h.vouched⟩
  constructor
  · change ∀ r ∈ s.uploads ++ [row], r.id ∉ old → Vouched requests r
    refine List.forall_mem_append.mpr ⟨hs.rows, List.forall_mem_singleton.mpr ?_⟩
    intro _ t ht
    rw [hc] at ht
    cases ht
  · intro k
    have h := hs.reads k
    change Reads requests old _ k (s.phase k)
    generalize s.phase k = p at h
    cases p with
    | selected row => exact mono h
    | flushed row => exact ⟨mono h.1, h.2⟩
    | answered upload =>
      obtain ⟨row, hu, hc, hread⟩ := h
      exact ⟨row, hu, hc, mono hread⟩
    | started | notFound | failed => trivial
  · exact hs.writers

end ConfirmState

namespace UploadsApi

variable {κ : Type} {cfg : StorageSettings} {generateBlobSas : BlobSas κ → String}
  {households : List UUID} {calls : ℕ → UploadCall} {confirmations : ℕ → ConfirmRequest}
  {s s' : UploadsApi κ} {action : UploadsAction κ} {first : List ReceiptUploadRow} {i j : ℕ}
  {p : IssuePhase κ} {ticket : UploadTicket κ} {order : List (ℕ × UploadTicket κ)}

section Journal

def rows (s : UploadsApi κ) : List ReceiptUploadRow := records s.confirms.uploads

def Keyed (rows : List ReceiptUploadRow) : Prop :=
  (rows.map (·.id)).Nodup ∧ (rows.map (·.blobName)).Nodup

/-- The place of a request among those that have committed, as far as it has come. -/
def Journaled (cfg : StorageSettings) (generateBlobSas : BlobSas κ → String)
    (calls : ℕ → UploadCall) (order : List (ℕ × UploadTicket κ)) (i : ℕ) : IssuePhase κ → Prop
  | .committed ticket => (i, ticket) ∈ order
  | .answered answer => ∃ ticket, (i, ticket) ∈ order ∧
      answer = response cfg generateBlobSas calls i ticket
  | .lost => i ∈ order.map Prod.fst
  | _ => i ∉ order.map Prod.fst

/-- A request holds the id that it has inserted, and its keys are free. -/
structure Holds (cfg : StorageSettings) (calls : ℕ → UploadCall) (s : UploadsApi κ) (i : ℕ)
    (ticket : UploadTicket κ) : Prop where
  signed : Signed cfg (calls i) ticket
  checks : violated (requestedRow (calls i) ticket).rowChecks = none
  holds : s.inserting (calls i).uploadId = some i
  id : (calls i).uploadId ∉ s.rows.map (·.id)
  name : ticket.blobName ∉ s.rows.map (·.blobName)

/-- The rows are the first ones, and then those of the requests in the order of their commits. -/
structure Journal (cfg : StorageSettings) (generateBlobSas : BlobSas κ → String)
    (calls : ℕ → UploadCall) (confirmations : ℕ → ConfirmRequest) (first : List ReceiptUploadRow)
    (order : List (ℕ × UploadTicket κ)) (s : UploadsApi κ) : Prop where
  tickets : AllPrepared cfg calls s.store
  vouching : ConfirmState.Vouching confirmations (first.map (·.id)) s.confirms
  keyed : Keyed s.rows
  listed : s.rows = records first ++ order.map fun p => requestedRow (calls p.1) p.2
  once : (order.map Prod.fst).Nodup
  signed : ∀ p ∈ order, Signed cfg (calls p.1) p.2
  checks : ∀ p ∈ order, violated (requestedRow (calls p.1) p.2).rowChecks = none
  journaled : ∀ i, Journaled cfg generateBlobSas calls order i (s.phase i)
  holds : ∀ i ticket, s.phase i = .flushed ticket → Holds cfg calls s i ticket

theorem Journal.initial (hk : Keyed (records first)) :
    Journal cfg generateBlobSas calls confirmations first [] (initial first) where
  tickets _ := trivial
  vouching := .initial first
  keyed := hk
  listed := (List.append_nil _).symm
  once := List.nodup_nil
  signed _ hm := absurd hm List.not_mem_nil
  checks _ hm := absurd hm List.not_mem_nil
  journaled _ := List.not_mem_nil
  holds _ _ h := by cases h

theorem Journal.journaled_of_phase
    (hs : Journal cfg generateBlobSas calls confirmations first order s) (hp : s.phase i = p) :
    Journaled cfg generateBlobSas calls order i p :=
  hp ▸ hs.journaled i

theorem Journal.not_mem_order (hs : Journal cfg generateBlobSas calls confirmations first order s)
    (hp : ¬ (s.phase i).HasCommitted) : i ∉ order.map Prod.fst := by
  have h := hs.journaled i
  generalize s.phase i = p at h hp
  cases p with
  | committed | answered | lost => exact absurd trivial hp
  | started | signing | flushed | failed => exact h

theorem Journal.uploadId_ne (hs : Journal cfg generateBlobSas calls confirmations first order s)
    {t : UploadTicket κ} (hi : s.phase i = .flushed ticket) (hj : s.phase j = .flushed t)
    (h : j ≠ i) : (calls j).uploadId ≠ (calls i).uploadId := by
  intro he
  have hheld := (hs.holds j t hj).holds
  rw [he, (hs.holds i ticket hi).holds] at hheld
  exact h (Option.some.inj hheld).symm

theorem Journal.stay (hs : Journal cfg generateBlobSas calls confirmations first order s)
    (ht : AllPrepared cfg calls s'.store)
    (hv : ConfirmState.Vouching confirmations (first.map (·.id)) s'.confirms)
    (hphase : s'.phase = s.phase) (hrows : s'.rows = s.rows)
    (hins : s'.inserting = s.inserting) :
    Journal cfg generateBlobSas calls confirmations first order s' where
  tickets := ht
  vouching := hv
  keyed := hrows ▸ hs.keyed
  listed := hrows ▸ hs.listed
  once := hs.once
  signed := hs.signed
  checks := hs.checks
  journaled := hphase ▸ hs.journaled
  holds := by
    rw [hphase]
    intro i ticket hp
    have h := hs.holds i ticket hp
    exact ⟨h.signed, h.checks, hins ▸ h.holds, hrows ▸ h.id, hrows ▸ h.name⟩

theorem Journal.move (hs : Journal cfg generateBlobSas calls confirmations first order s)
    (ht : AllPrepared cfg calls s'.store) (hphase : s'.phase = Function.update s.phase i p)
    (hc : s'.confirms = s.confirms)
    (hins : ∀ j t, j ≠ i → s.phase j = .flushed t →
      s'.inserting (calls j).uploadId = s.inserting (calls j).uploadId)
    (hj : Journaled cfg generateBlobSas calls order i p) (hp : ∀ ticket, p ≠ .flushed ticket) :
    Journal cfg generateBlobSas calls confirmations first order s' where
  tickets := ht
  vouching := hc ▸ hs.vouching
  keyed := by rw [rows, hc]; exact hs.keyed
  listed := by rw [rows, hc]; exact hs.listed
  once := hs.once
  signed := hs.signed
  checks := hs.checks
  journaled := by
    rw [hphase]
    apply (Function.forall_update_iff s.phase
      fun j => Journaled cfg generateBlobSas calls order j).mpr
    exact ⟨hj, fun j _ => hs.journaled j⟩
  holds := by
    rw [hphase]
    intro j t h
    have hrows : s'.rows = s.rows := by rw [rows, hc, rows]
    by_cases hji : j = i
    · subst hji
      rw [Function.update_self] at h
      exact absurd h (hp t)
    · rw [Function.update_of_ne hji] at h
      have hh := hs.holds j t h
      exact ⟨hh.signed, hh.checks, (hins j t hji h).trans hh.holds, hrows ▸ hh.id, hrows ▸ hh.name⟩

theorem rowChecks_of_insertUpload {row : ReceiptUploadRow} {db db' : Db}
    (h : insertUpload row db = .ok ((), db')) : violated row.rowChecks = none := by
  rcases require_cases .upload row.rowChecks db with ⟨hv, -⟩ | ⟨c, hr⟩
  · exact hv
  · rw [insertUpload, Transaction.bind_of_error hr] at h
    cases h

/-- An insertion is refused, or its row meets the checks and its keys are free. -/
theorem insert_cases
    (h : step cfg generateBlobSas households calls confirmations s (.insert i) = some s') :
    s.phase i = .signing ∧ (s' = s.enter i .failed ∨ ∃ call ticket,
      s.store.phase i = .issued call ticket ∧ s.inserting (calls i).uploadId = none ∧
      violated (requestedRow (calls i) ticket).rowChecks = none ∧
      violated ((requestedRow (calls i) ticket).tableChecks (s.db households)) = none ∧
      s' = { s.enter i (.flushed ticket) with
        inserting := Function.update s.inserting (calls i).uploadId (some i) }) := by
  rw [step] at h
  split at h
  next call ticket hp ht =>
    rw [Option.ite_none_right_eq_some, Option.some_inj] at h
    obtain ⟨hfree, rfl⟩ := h
    refine ⟨hp, ?_⟩
    rcases insertUpload_cases (requestedRow (calls i) ticket) (s.db households) with
      ⟨hv, hr⟩ | ⟨c, hr⟩
    · right
      refine ⟨call, ticket, ht, hfree, rowChecks_of_insertUpload hr, hv, ?_⟩
      rw [Transaction.answer_of_ok (Transaction.bind_of_ok hr)]
      rfl
    · left
      have hrefused : ReceiptUploadRepository.recordRequest (calls i).householdId
          (calls i).uploadId ticket.blobName ticket.contentType (calls i).requestedAt
          ticket.expiresAt (s.db households) = .error (.upload c) := Transaction.bind_of_error hr
      rw [Transaction.answer_of_error hrefused]
      rfl
  next => cases h

theorem Journal.insert (hs : Journal cfg generateBlobSas calls confirmations first order s)
    (h : step cfg generateBlobSas households calls confirmations s (.insert i) = some s') :
    Journal cfg generateBlobSas calls confirmations first order s' := by
  obtain ⟨hp, rfl | ⟨call, ticket, ht, hfree, hc, hv, rfl⟩⟩ := insert_cases h
  · exact hs.move (p := .failed) hs.tickets rfl rfl (fun _ _ _ _ => rfl)
      (hs.not_mem_order (hp ▸ not_false)) (by simp)
  · have hsigned : Prepared cfg (calls i) (.issued call ticket) := ht ▸ hs.tickets i
    have hkeys := violated_eq_none_iff.mp hv
    simp only [ReceiptUploadRow.tableChecks, List.forall_mem_cons, List.all_eq_true,
      decide_eq_true_eq] at hkeys
    constructor
    · exact hs.tickets
    · exact hs.vouching
    · exact hs.keyed
    · exact hs.listed
    · exact hs.once
    · exact hs.signed
    · exact hs.checks
    · apply (Function.forall_update_iff s.phase
        fun j => Journaled cfg generateBlobSas calls order j).mpr
      exact ⟨hs.not_mem_order (hp ▸ not_false), fun j _ => hs.journaled j⟩
    · intro j t hj
      change Function.update s.phase i _ j = _ at hj
      by_cases hji : j = i
      · subst hji
        rw [Function.update_self] at hj
        cases hj
        refine ⟨hsigned.2, hc, Function.update_self .., ?_, ?_⟩
        · rw [rows, records, List.map_map]
          intro hm
          obtain ⟨row, hrow, hid⟩ := List.mem_map.mp hm
          exact hkeys.1 row hrow hid
        · rw [rows, records, List.map_map]
          intro hm
          obtain ⟨row, hrow, hname⟩ := List.mem_map.mp hm
          exact hkeys.2.1 row hrow hname
      · rw [Function.update_of_ne hji] at hj
        have hh := hs.holds j t hj
        -- an id that is held is not free
        have hne : (calls j).uploadId ≠ (calls i).uploadId := by
          intro he
          have hheld := hh.holds
          rw [he, hfree] at hheld
          cases hheld
        exact ⟨hh.signed, hh.checks, (Function.update_of_ne hne ..).trans hh.holds, hh.id, hh.name⟩

theorem Keyed.append {rows : List ReceiptUploadRow} {row : ReceiptUploadRow} (h : Keyed rows)
    (hid : row.id ∉ rows.map (·.id)) (hname : row.blobName ∉ rows.map (·.blobName)) :
    Keyed (rows ++ [row]) := by
  rw [Keyed, List.map_append, List.map_append]
  exact ⟨List.Nodup.append h.1 (List.nodup_singleton _) (List.disjoint_singleton.mpr hid),
    List.Nodup.append h.2 (List.nodup_singleton _) (List.disjoint_singleton.mpr hname)⟩

theorem Journaled.append {ticket : UploadTicket κ}
    (h : Journaled cfg generateBlobSas calls order j p) (hj : j ≠ i) :
    Journaled cfg generateBlobSas calls (order ++ [(i, ticket)]) j p := by
  have hnot : j ∉ order.map Prod.fst → j ∉ (order ++ [(i, ticket)]).map Prod.fst := by
    intro hm
    simpa [hj] using hm
  cases p with
  | committed t => exact List.mem_append_left _ h
  | answered answer =>
    obtain ⟨t, hm, he⟩ := h
    exact ⟨t, List.mem_append_left _ hm, he⟩
  | lost =>
    change j ∈ (order ++ [(i, ticket)]).map Prod.fst
    rw [List.map_append]
    exact List.mem_append_left _ h
  | started | signing | flushed | failed => exact hnot h

theorem Journal.commit (hs : Journal cfg generateBlobSas calls confirmations first order s)
    (hp : s.phase i = .flushed ticket) :
    Journal cfg generateBlobSas calls confirmations first (order ++ [(i, ticket)])
      { s.release calls i (.committed ticket) with
        confirms := { s.confirms with
          uploads := s.confirms.uploads ++ [requestedRow (calls i) ticket] } } := by
  have hheld := hs.holds i ticket hp
  have hrows : records (s.confirms.uploads ++ [requestedRow (calls i) ticket]) =
      s.rows ++ [requestedRow (calls i) ticket] := records_append_requestedRow ..
  constructor
  · exact hs.tickets
  · exact hs.vouching.append rfl
  · change Keyed (records _)
    rw [hrows]
    exact hs.keyed.append hheld.id hheld.name
  · change records _ = _
    rw [hrows, hs.listed, List.map_append, List.append_assoc]
    rfl
  · rw [List.map_append]
    exact List.Nodup.append hs.once (List.nodup_singleton i)
      (List.disjoint_singleton.mpr (hs.not_mem_order (hp ▸ not_false)))
  · exact List.forall_mem_append.mpr ⟨hs.signed, List.forall_mem_singleton.mpr hheld.signed⟩
  · exact List.forall_mem_append.mpr ⟨hs.checks, List.forall_mem_singleton.mpr hheld.checks⟩
  · apply (Function.forall_update_iff s.phase
      fun j => Journaled cfg generateBlobSas calls (order ++ [(i, ticket)]) j).mpr
    exact ⟨List.mem_append_right _ (List.mem_singleton_self _),
      fun j hj => (hs.journaled j).append hj⟩
  · intro j t hj
    change Function.update s.phase i _ j = _ at hj
    by_cases hji : j = i
    · subst hji
      rw [Function.update_self] at hj
      cases hj
    · rw [Function.update_of_ne hji] at hj
      have hh := hs.holds j t hj
      have hne := hs.uploadId_ne hp hj hji
      refine ⟨hh.signed, hh.checks, (Function.update_of_ne hne ..).trans hh.holds, ?_, ?_⟩
      · change _ ∉ (records _).map _
        rw [hrows, List.map_append, List.mem_append, not_or]
        exact ⟨hh.id, by simpa [requestedRow] using hne⟩
      · change _ ∉ (records _).map _
        rw [hrows, List.map_append, List.mem_append, not_or]
        refine ⟨hh.name, ?_⟩
        intro hm
        have hname : t.blobName = ticket.blobName := List.mem_singleton.mp hm
        rw [hh.signed.blobName, hheld.signed.blobName] at hname
        exact hne (receiptBlobName_inj hname).2.2

theorem Journal.fail (hs : Journal cfg generateBlobSas calls confirmations first order s)
    (h : step cfg generateBlobSas households calls confirmations s (.fail i) = some s') :
    Journal cfg generateBlobSas calls confirmations first order s' := by
  have giveUp : ¬ (s.phase i).HasCommitted →
      Journal cfg generateBlobSas calls confirmations first order (s.enter i .failed) := fun hp =>
    hs.move (p := .failed) hs.tickets rfl rfl (fun _ _ _ _ => rfl) (hs.not_mem_order hp) (by simp)
  rw [step] at h
  split at h
  next hp => cases h; exact giveUp (hp ▸ not_false)
  next hp _ => cases h; exact giveUp (hp ▸ not_false)
  next hp _ => cases h; exact giveUp (hp ▸ not_false)
  next ticket hp =>
    cases h
    refine hs.move (p := .failed) hs.tickets rfl rfl ?_ (hs.not_mem_order (hp ▸ not_false))
      (by simp)
    intro j t hj ht
    exact Function.update_of_ne (hs.uploadId_ne hp ht hj) ..
  next ticket hp =>
    cases h
    refine hs.move (p := .lost) hs.tickets rfl rfl (fun _ _ _ _ => rfl) ?_ (by simp)
    exact List.mem_map_of_mem (hs.journaled_of_phase hp : (i, ticket) ∈ order)
  next => cases h

theorem Journal.step (hs : Journal cfg generateBlobSas calls confirmations first order s)
    (h : UploadsApi.step cfg generateBlobSas households calls confirmations s action = some s') :
    ∃ order', Journal cfg generateBlobSas calls confirmations first (order ++ order') s' := by
  have keep : Journal cfg generateBlobSas calls confirmations first order s' →
      ∃ order', Journal cfg generateBlobSas calls confirmations first (order ++ order') s' := by
    intro h
    exact ⟨[], (List.append_nil order).symm ▸ h⟩
  cases action with
  | request i =>
    rw [UploadsApi.step] at h
    split at h
    next hp =>
      obtain ⟨store, hstore, rfl⟩ := Option.map_eq_some_iff.mp h
      exact keep (hs.move (p := .signing) (hs.tickets.request hstore) rfl rfl (fun _ _ _ _ => rfl)
        (hs.not_mem_order (hp ▸ not_false)) (by simp))
    next => cases h
  | store action =>
    rw [UploadsApi.step, Option.ite_none_right_eq_some] at h
    obtain ⟨ha, h⟩ := h
    obtain ⟨store, hstore, rfl⟩ := Option.map_eq_some_iff.mp h
    exact keep (hs.stay (hs.tickets.step ha hstore) hs.vouching rfl rfl rfl)
  | insert i => exact keep (hs.insert h)
  | commit i =>
    rw [UploadsApi.step] at h
    split at h
    next hp => cases h; exact ⟨_, hs.commit hp⟩
    next => cases h
  | respond i =>
    rw [UploadsApi.step] at h
    split at h
    next hp =>
      cases h
      exact keep (hs.move (p := .answered _) hs.tickets rfl rfl (fun _ _ _ _ => rfl)
        ⟨_, hs.journaled_of_phase hp, rfl⟩ (by simp))
    next => cases h
  | fail i => exact keep (hs.fail h)
  | confirm action =>
    obtain ⟨confirms, hc, rfl⟩ := Option.map_eq_some_iff.mp h
    exact keep (hs.stay hs.tickets (hs.vouching.step hs.keyed.1 hc) rfl (records_of_confirm hc) rfl)

/-- A journal is only ever appended to. -/
theorem Journal.reach (hs : Journal cfg generateBlobSas calls confirmations first order s)
    (h : Reachable (UploadsApi.step cfg generateBlobSas households calls confirmations) s s') :
    ∃ order', Journal cfg generateBlobSas calls confirmations first (order ++ order') s' := by
  refine h.invariant
    (I := fun s' => ∃ order',
      Journal cfg generateBlobSas calls confirmations first (order ++ order') s')
    ⟨[], (List.append_nil order).symm ▸ hs⟩ ?_
  rintro s₁ action s₂ ⟨order', hs₁⟩ - hstep
  obtain ⟨last, hs₂⟩ := hs₁.step hstep
  exact ⟨order' ++ last, List.append_assoc .. ▸ hs₂⟩

theorem keyed_records {uploads : List ReceiptUploadRow} :
    Keyed (records uploads) ↔ Keyed uploads := by
  rw [Keyed, Keyed, records, List.map_map, List.map_map]
  rfl

theorem exists_journal (hk : Keyed first)
    (h : Reachable (UploadsApi.step cfg generateBlobSas households calls confirmations)
      (initial first) s) :
    ∃ order, Journal cfg generateBlobSas calls confirmations first order s :=
  (Journal.initial (keyed_records.mpr hk)).reach h

end Journal

theorem answered_of_reply {answer : UploadTicketResponse} (h : s.reply? i = some (.issued answer)) :
    s.phase i = .answered answer := by
  rw [reply?] at h
  split at h
  next hp => rw [hp, UploadReply.issued.inj (Option.some.inj h)]
  next error _ _ => cases error <;> cases h
  next => cases h

section Blobs

/-- Every URL that was given away is for a blob of its own, even where ids repeat. -/
structure OneUrlPerBlob (calls : ℕ → UploadCall) (first : List ReceiptUploadRow)
    (s : UploadsApi κ) : Prop where
  keyed : Keyed s.confirms.uploads
  /-- The rows are the first ones, and then one for each request that has committed. -/
  listed : ∃ order : List ℕ, order.Nodup ∧ (∀ i, i ∈ order ↔ (s.phase i).HasCommitted) ∧
    s.confirms.uploads.map (·.id) = first.map (·.id) ++ order.map fun i => (calls i).uploadId
  apart : ∀ i j a b, s.reply? i = some (.issued a) → s.reply? j = some (.issued b) → i ≠ j →
    a.uploadId ≠ b.uploadId ∧ a.blobName ≠ b.blobName ∧ a.uploadUrl ≠ b.uploadUrl
  fresh : ∀ i a, s.reply? i = some (.issued a) → ∀ row ∈ first,
    row.id ≠ a.uploadId ∧ row.blobName ≠ a.blobName

theorem Journal.mem_order_iff (hs : Journal cfg generateBlobSas calls confirmations first order s) :
    i ∈ order.map Prod.fst ↔ (s.phase i).HasCommitted := by
  constructor
  · intro hm
    by_contra hp
    exact hs.not_mem_order hp hm
  · intro hc
    have hj := hs.journaled i
    generalize s.phase i = p at hc hj
    cases p with
    | committed ticket => exact List.mem_map_of_mem (hj : (i, ticket) ∈ order)
    | answered answer =>
      obtain ⟨ticket, hm, -⟩ := hj
      exact List.mem_map_of_mem hm
    | lost => exact hj
    | started | signing | flushed | failed => exact hc.elim

theorem Journal.record_cases
    (hs : Journal cfg generateBlobSas calls confirmations first order s)
    {row : ReceiptUploadRow} (hrow : row ∈ s.confirms.uploads) :
    { row with confirmedAt := none } ∈ records first ∨ ∃ p ∈ order,
      { row with confirmedAt := none } = requestedRow (calls p.1) p.2 := by
  have hm : { row with confirmedAt := none } ∈ s.rows := mem_records hrow
  rw [hs.listed] at hm
  rcases List.mem_append.mp hm with hm | hm
  · exact .inl hm
  · obtain ⟨p, hp, hpr⟩ := List.mem_map.mp hm
    exact .inr ⟨p, hp, hpr.symm⟩

theorem Journal.eq_of_uploadId (hs : Journal cfg generateBlobSas calls confirmations first order s)
    {p q : ℕ × UploadTicket κ} (hp : p ∈ order) (hq : q ∈ order)
    (h : (calls p.1).uploadId = (calls q.1).uploadId) : p = q := by
  have hids := hs.keyed.1
  rw [hs.listed, List.map_append, List.map_map] at hids
  exact List.inj_on_of_nodup_map (List.Nodup.of_append_right hids) hp hq h

theorem Journal.fresh (hs : Journal cfg generateBlobSas calls confirmations first order s)
    {p : ℕ × UploadTicket κ} (hp : p ∈ order) :
    ∀ row ∈ first, row.id ≠ (calls p.1).uploadId ∧ row.blobName ≠ p.2.blobName := by
  have hids := hs.keyed.1
  have hnames := hs.keyed.2
  rw [hs.listed, List.map_append, List.map_map] at hids hnames
  intro row hm
  constructor
  · intro h
    refine List.disjoint_of_nodup_append hids (List.mem_map_of_mem (mem_records hm)) ?_
    exact List.mem_map.mpr ⟨p, hp, h.symm⟩
  · intro h
    refine List.disjoint_of_nodup_append hnames (List.mem_map_of_mem (mem_records hm)) ?_
    exact List.mem_map.mpr ⟨p, hp, h.symm⟩

/-- In every run the URLs that were given away differ, and so do their ids and their blobs. -/
theorem one_url_per_blob (hk : Keyed first)
    (h : Reachable (step cfg generateBlobSas households calls confirmations) (initial first) s) :
    OneUrlPerBlob calls first s := by
  obtain ⟨order, hs⟩ := exists_journal hk h
  constructor
  · exact keyed_records.mp hs.keyed
  · refine ⟨order.map Prod.fst, hs.once, fun i => hs.mem_order_iff, ?_⟩
    have hids := congrArg (List.map (·.id)) hs.listed
    rw [List.map_append, rows, records, records, List.map_map, List.map_map, List.map_map] at hids
    rw [List.map_map]
    exact hids
  · intro i j a b hi hj hij
    obtain ⟨t, ht, rfl⟩ := hs.journaled_of_phase (answered_of_reply hi)
    obtain ⟨u, hu, rfl⟩ := hs.journaled_of_phase (answered_of_reply hj)
    have hid : (calls i).uploadId ≠ (calls j).uploadId := by
      intro he
      exact hij (congrArg Prod.fst (hs.eq_of_uploadId ht hu he))
    have hname : t.blobName ≠ u.blobName := by
      rw [(hs.signed _ ht).blobName, (hs.signed _ hu).blobName]
      exact fun he => hid (receiptBlobName_inj he).2.2
    refine ⟨hid, hname, ?_⟩
    intro hurl
    have hurl : cfg.blobUrl t.blobName ++ "?" ++ generateBlobSas t.sas =
      cfg.blobUrl u.blobName ++ "?" ++ generateBlobSas u.sas := hurl
    rw [(hs.signed _ ht).blobName, (hs.signed _ hu).blobName] at hurl hname
    exact hname (receiptBlobName_of_url hurl)
  · intro i a hi
    obtain ⟨t, ht, rfl⟩ := hs.journaled_of_phase (answered_of_reply hi)
    exact hs.fresh ht

open ReceiptBlobStore (tenMinutes uploadAt)

/-- Two requests at the epoch that are given the same id, and a third. -/
def sameId (i : ℕ) : UploadCall :=
  { uploadAt 0 inDatetime_zero with uploadId := if i ≤ 1 then 7 else BitVec.ofNat 128 i }

def earlierUpload : ReceiptUploadRow := ⟨5, 1, "earlier", "image/jpeg", -600, -300, none⟩

def sameIdTwice : List (UploadsAction String) :=
  [.request 0, .request 1, .request 2, .store (.acquire 0), .store (.fetched 0 (.key "key")),
    .store (.acquire 1), .store (.acquire 2), .insert 0, .insert 2, .commit 2, .commit 0,
    .insert 1, .respond 0, .respond 2]

theorem one_url_per_blob_sameIdTwice :
    ∃ s, exec (guarded (step tenMinutes sampleSas [1] sameId sampleConfirmation) unrestricted)
        (initial [earlierUpload]) sameIdTwice = some s ∧
      s.phase 1 = .failed ∧ s.confirms.uploads.map (·.id) = [5, 2, 7] ∧
      OneUrlPerBlob sameId [earlierUpload] s := by
  have h : (exec (guarded (step tenMinutes sampleSas [1] sameId sampleConfirmation) unrestricted)
      (initial [earlierUpload]) sameIdTwice).map
        (fun s => (s.phase 1, s.confirms.uploads.map (·.id))) = some (.failed, [5, 2, 7]) := by
    decide +kernel
  obtain ⟨s, hr, hu⟩ := Option.map_eq_some_iff.mp h
  simp only [Prod.mk.injEq] at hu
  exact ⟨s, hr, hu.1, hu.2, one_url_per_blob (by unfold Keyed; decide) (Reach.of_exec hr)⟩

end Blobs

section Confirmations

variable {k : ℕ} {call : UploadCall} {answer : UploadTicketResponse}

theorem row_of_record {uploads : List ReceiptUploadRow} {upload : ReceiptUploadRow}
    (hn : ((records uploads).map (·.id)).Nodup) (hm : upload ∈ records uploads) :
    ∃ row ∈ uploads, { row with confirmedAt := none } = upload ∧
      ReceiptUploadRepository.row uploads upload.householdId upload.id = .ok (some row) := by
  obtain ⟨row, hrow, rfl⟩ := List.mem_map.mp hm
  refine ⟨row, hrow, rfl, ?_⟩
  rw [records, List.map_map] at hn
  have hone : (uploads.filter fun r => r.id = row.id) = [row] := filter_eq_singleton hn hrow
  rw [ReceiptUploadRepository.row, ReceiptUploadRepository.scopedTo, List.filter_comm, hone]
  simp [oneOrNone]

theorem Journal.found (hs : Journal cfg generateBlobSas calls confirmations first order s)
    (hm : (i, ticket) ∈ order) (hid : (confirmations k).uploadId = (calls i).uploadId)
    (hh : (confirmations k).householdId = (calls i).householdId)
    (hk : s.confirms.phase k ≠ .notFound)
    (h : UploadsApi.step cfg generateBlobSas households calls confirmations s action = some s') :
    s'.confirms.phase k ≠ .notFound := by
  have hmem : requestedRow (calls i) ticket ∈ s.rows := by
    rw [hs.listed]
    exact List.mem_append_right _ (List.mem_map.mpr ⟨_, hm, rfl⟩)
  obtain ⟨row, -, -, hrow⟩ := row_of_record hs.keyed.1 hmem
  have other : ∀ {j : ℕ} {p : ConfirmPhase}, p ≠ .notFound →
      Function.update s.confirms.phase j p k ≠ .notFound := by
    intro j p hp
    by_cases hj : k = j
    · rw [hj, Function.update_self]
      exact hp
    · rwa [Function.update_of_ne hj]
  cases moves_of_step h with
  | confirmed hc =>
    cases ConfirmState.moves_of_step hc with
    | @selects j =>
      by_cases hj : k = j
      · subst hj
        rw [ConfirmState.enter_phase, Function.update_self, hid, hh]
        change ConfirmState.afterSelect (ReceiptUploadRepository.row _ _ _) ≠ _
        rw [show ReceiptUploadRepository.row s.confirms.uploads (calls i).householdId
          (calls i).uploadId = .ok (some row) from hrow]
        simp [ConfirmState.afterSelect]
      · rwa [ConfirmState.enter_phase, Function.update_of_ne hj]
    | writes | shows | commits | givesUp | rollsBack => exact other (by simp)
  | requested | stored | inserted | committed | responded | gaveUp => exact hk

theorem Journal.mem_rows (hs : Journal cfg generateBlobSas calls confirmations first order s)
    (hm : (i, ticket) ∈ order) : requestedRow (calls i) ticket ∈ s.rows := by
  rw [hs.listed]
  exact List.mem_append_right _ (List.mem_map.mpr ⟨_, hm, rfl⟩)

theorem Journal.shown (hs : Journal cfg generateBlobSas calls confirmations first order s)
    (hm : (i, ticket) ∈ order) (hid : (confirmations k).uploadId = (calls i).uploadId)
    {upload : ReceiptUpload} (hp : s.confirms.phase k = .answered upload) :
    (confirmations k).householdId = (calls i).householdId ∧ ∃ row t, upload = row.toDomain ∧
      row.confirmedAt = some t ∧ { row with confirmedAt := none } = requestedRow (calls i) ticket ∧
      ConfirmState.Vouched confirmations row := by
  obtain ⟨row, rfl, hc, hread⟩ := hs.vouching.reads_of_phase hp
  have hrow : requestedRow (calls i) ticket = { row with confirmedAt := none } :=
    hread.eq_of_mem (r := requestedRow (calls i) ticket) hs.keyed.1 (hs.mem_rows hm)
      (hid.symm.trans hread.id.symm)
  have hh : (calls i).householdId = row.householdId := congrArg (·.householdId) hrow
  obtain ⟨t, ht⟩ := Option.ne_none_iff_exists'.mp hc
  refine ⟨hread.household.symm.trans hh.symm, row, t, rfl, ht, hrow.symm, hread.vouched ?_⟩
  intro hold
  obtain ⟨r, hr, hrid⟩ := List.mem_map.mp hold
  exact (hs.fresh hm r hr).1 (hrid.trans (congrArg (·.id) hrow).symm)

open ReceiptBlobStore (tenMinutes)

end Confirmations

end UploadsApi

end KitchenSense
