import KitchenSense.Repositories.Inventory

/-! # The repository of receipt uploads

Every statement starts from the uploads of one household, so an id that
belongs to another household answers as one that belongs to nobody.
-/

namespace KitchenSense.ReceiptUploadRepository

def scopedTo (rows : List ReceiptUploadRow) (householdId : UUID) : List ReceiptUploadRow :=
  rows.filter fun row => row.householdId = householdId

/-- `_row`: the upload of one household with this id. -/
def row (rows : List ReceiptUploadRow) (householdId uploadId : UUID) :
    Except Failure (Option ReceiptUploadRow) :=
  oneOrNone ((scopedTo rows householdId).filter fun row => row.id = uploadId)

def recordRequest (householdId uploadId : UUID) (blobName contentType : String)
    (requestedAt expiresAt : Instant) : Tx ReceiptUpload := do
  let row : ReceiptUploadRow :=
    { id := uploadId, householdId, blobName, contentType, requestedAt, expiresAt
      confirmedAt := none }
  insertUpload row
  return row.toDomain

def get (rows : List ReceiptUploadRow) (householdId uploadId : UUID) :
    Except Failure (Option ReceiptUpload) :=
  (row rows householdId uploadId).map (Option.map ReceiptUploadRow.toDomain)

/-- `UPDATE receipt_uploads SET confirmed_at WHERE id`. -/
def updateConfirmedAt (uploadId : UUID) (at_ : Instant) (rows : List ReceiptUploadRow) :
    List ReceiptUploadRow :=
  rows.map fun row => if row.id = uploadId then { row with confirmedAt := some at_ } else row

/-- Mark an upload as delivered; the instant of the first confirmation stays. -/
def confirm (householdId uploadId : UUID) (at_ : Instant) : Tx (Option ReceiptUpload) := do
  let db ← getThe Db
  match row db.uploads householdId uploadId with
  | .error e => throw e
  | .ok none => return none
  | .ok (some row) =>
    if row.confirmedAt = none then
      let confirmed := { row with confirmedAt := some at_ }
      require .upload confirmed.rowChecks
      set { db with uploads := updateConfirmedAt uploadId at_ db.uploads }
      return some confirmed.toDomain
    else
      return some row.toDomain

/-- Uploads whose URL has expired with no confirmation, by the time of the request. -/
def unconfirmed (rows : List ReceiptUploadRow) (householdId : UUID) (asOf : Instant) :
    List ReceiptUpload :=
  let rows := (scopedTo rows householdId).filter fun row =>
    row.confirmedAt = none ∧ row.expiresAt < asOf
  (rows.insertionSort fun a b => a.requestedAt ≤ b.requestedAt).map ReceiptUploadRow.toDomain

section Outstanding

variable {rows : List ReceiptUploadRow} {householdId : UUID} {asOf : Instant} {u : ReceiptUpload}

def uploadsOf (rows : List ReceiptUploadRow) (householdId : UUID) : List ReceiptUpload :=
  (scopedTo rows householdId).map ReceiptUploadRow.toDomain

/-- The unconfirmed uploads of a household whose URL has stopped working. -/
def outstanding (rows : List ReceiptUploadRow) (householdId : UUID) (asOf : Instant) :
    List ReceiptUpload :=
  (uploadsOf rows householdId).filter fun u => !u.isConfirmed && u.hasExpired asOf

/-- `unconfirmed` lists the outstanding uploads, each once and in order. -/
structure ListsOutstanding (rows : List ReceiptUploadRow) (householdId : UUID) (asOf : Instant) :
    Prop where
  listed : (unconfirmed rows householdId asOf).Perm (outstanding rows householdId asOf)
  once : (rows.map (·.id)).Nodup → (unconfirmed rows householdId asOf).Nodup
  ordered : (unconfirmed rows householdId asOf).Pairwise fun u v => u.requestedAt ≤ v.requestedAt

def classes (rows : List ReceiptUploadRow) (householdId : UUID) (asOf : Instant)
    (u : ReceiptUpload) : List Bool :=
  [u.isConfirmed, !u.hasExpired asOf, decide (u ∈ unconfirmed rows householdId asOf)]

/-- `unconfirmed` lists the outstanding uploads, so that each is in exactly one of the classes. -/
structure ClassesAgree (rows : List ReceiptUploadRow) (householdId : UUID) (asOf : Instant) : Prop
    extends ListsOutstanding rows householdId asOf where
  classes : ∀ u ∈ uploadsOf rows householdId, (classes rows householdId asOf u).count true = 1

theorem unconfirmed_perm : (unconfirmed rows householdId asOf).Perm
    ((uploadsOf rows householdId).filter fun u => !u.isConfirmed && decide (u.expiresAt < asOf)) := by
  rw [uploadsOf, List.filter_map]
  refine ((List.perm_insertionSort _ _).map _).trans (.of_eq ?_)
  congr 2
  funext row
  cases h : row.confirmedAt <;> simp [ReceiptUpload.isConfirmed, ReceiptUploadRow.toDomain, h]

theorem mem_unconfirmed_iff : u ∈ unconfirmed rows householdId asOf ↔
    u ∈ uploadsOf rows householdId ∧ u.isConfirmed = false ∧ u.expiresAt < asOf := by
  rw [unconfirmed_perm.mem_iff]
  simp

theorem ordered_unconfirmed :
    (unconfirmed rows householdId asOf).Pairwise fun u v => u.requestedAt ≤ v.requestedAt := by
  unfold unconfirmed
  apply List.pairwise_map.mpr
  exact List.pairwise_insertionSort (fun a b : ReceiptUploadRow => a.requestedAt ≤ b.requestedAt) _

theorem toDomain_injective : Function.Injective ReceiptUploadRow.toDomain := by
  intro a b h
  cases a
  cases b
  simpa [ReceiptUploadRow.toDomain] using h

theorem nodup_unconfirmed (h : (rows.map (·.id)).Nodup) :
    (unconfirmed rows householdId asOf).Nodup := by
  have hrows : rows.Nodup := h.of_map
  rw [unconfirmed_perm.nodup_iff]
  exact ((hrows.filter _).map toDomain_injective).filter _

theorem listsOutstanding_iff : ListsOutstanding rows householdId asOf ↔
    ∀ u ∈ uploadsOf rows householdId, u.isConfirmed = false → u.expiresAt ≠ asOf := by
  constructor
  · intro h u hu hc he
    have hm : u ∈ outstanding rows householdId asOf := by
      simp [outstanding, hu, hc, ReceiptUpload.hasExpired, he]
    have hl := mem_unconfirmed_iff.mp (h.listed.mem_iff.mpr hm)
    exact absurd hl.2.2 (by simp [he])
  · intro h
    refine ⟨?_, nodup_unconfirmed, ordered_unconfirmed⟩
    refine unconfirmed_perm.trans (.of_eq (List.filter_congr fun u hu => ?_))
    cases hc : u.isConfirmed with
    | true => rfl
    | false => simpa [ReceiptUpload.hasExpired] using (h u hu hc).le_iff_lt.symm

theorem count_classes_iff (hu : u ∈ uploadsOf rows householdId) :
    (classes rows householdId asOf u).count true = 1 ↔
      (u.isConfirmed = false → u.expiresAt ≠ asOf) ∧
        (u.isConfirmed = true → u.hasExpired asOf = true) := by
  have hl : decide (u ∈ unconfirmed rows householdId asOf) =
      (!u.isConfirmed && decide (u.expiresAt < asOf)) := by
    simp [mem_unconfirmed_iff, hu]
  rw [classes, hl, ReceiptUpload.hasExpired]
  cases u.isConfirmed with
  | true => by_cases h : u.expiresAt ≤ asOf <;> simp [h]
  | false =>
    rcases lt_trichotomy u.expiresAt asOf with h | h | h
    · simp [h, h.le, h.ne]
    · simp [h]
    · simp [h.not_gt, h.not_ge, h.ne']

/-- The statement finds the outstanding uploads unless an unconfirmed one expires just then; each
upload is in one class if also no confirmed one is still usable. -/
theorem classesAgree_iff :
    (ListsOutstanding rows householdId asOf ↔
      ∀ u ∈ uploadsOf rows householdId, u.isConfirmed = false → u.expiresAt ≠ asOf) ∧
    (ClassesAgree rows householdId asOf ↔
      ∀ u ∈ uploadsOf rows householdId, (u.isConfirmed = false → u.expiresAt ≠ asOf) ∧
        (u.isConfirmed = true → u.hasExpired asOf = true)) := by
  refine ⟨listsOutstanding_iff, fun h u hu => (count_classes_iff hu).mp (h.classes u hu), ?_⟩
  intro h
  exact ⟨listsOutstanding_iff.mpr fun u hu => (h u hu).1,
    fun u hu => (count_classes_iff hu).mpr (h u hu)⟩

/-- An upload that expires just then is neither usable nor listed. -/
theorem not_listsOutstanding_of_boundary :
    ¬ ListsOutstanding [⟨1, 1, "name", "image/jpeg", 0, 300, none⟩] 1 300 := by
  intro h
  have hl := h.listed.length_eq
  revert hl
  decide

end Outstanding

end KitchenSense.ReceiptUploadRepository
