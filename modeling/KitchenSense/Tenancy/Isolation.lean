import KitchenSense.Projection.Store
import KitchenSense.Repositories.Effects
import KitchenSense.Tenancy.Operations
import Mathlib.Data.Set.Basic

/-! # What other households can touch

Two databases are alike for a household if it owns the same rows in both and
they differ in no key that it may still use. Its own statements answer alike
on them and leave them alike; statements of others keep them alike.
-/

namespace KitchenSense

open Transaction

structure Foreign where
  keys : Set String
  eventIds : Set UUID
  uploadIds : Set UUID

def foreignBlobNames (householdId : UUID) : Set String :=
  {name | ∃ other ≠ householdId, ∃ uploadId day, name = receiptBlobName other uploadId day}

/-- The household owns the same rows, and a key it may use is taken in both or in neither. -/
structure Alike (F : Foreign) (householdId : UUID) (db db' : Db) : Prop where
  households : db.households = db'.households
  products : db.products = db'.products
  owned : db.ownedBy householdId = db'.ownedBy householdId
  eventIds : ∀ id ∉ F.eventIds, id ∈ db.events.map (·.id) ↔ id ∈ db'.events.map (·.id)
  keys : ∀ key ∉ F.keys,
    key ∈ db.events.map (·.idempotencyKey) ↔ key ∈ db'.events.map (·.idempotencyKey)
  uploadIds : ∀ id ∉ F.uploadIds, id ∈ db.uploads.map (·.id) ↔ id ∈ db'.uploads.map (·.id)
  blobNames : ∀ name ∉ foreignBlobNames householdId,
    name ∈ db.uploads.map (·.blobName) ↔ name ∈ db'.uploads.map (·.blobName)
  uniqueIds : (db.uploads.map (·.id)).Nodup

namespace Alike

variable {F : Foreign} {householdId : UUID} {db db' : Db}

theorem refl (h : (db.uploads.map (·.id)).Nodup) : Alike F householdId db db :=
  ⟨rfl, rfl, rfl, fun _ _ => .rfl, fun _ _ => .rfl, fun _ _ => .rfl, fun _ _ => .rfl, h⟩

theorem events (h : Alike F householdId db db') :
    InventoryEventRepository.scopedTo db.events householdId =
      InventoryEventRepository.scopedTo db'.events householdId :=
  congrArg Prod.fst h.owned

theorem snapshots (h : Alike F householdId db db') :
    InventorySnapshotRepository.scopedTo db.snapshots householdId =
      InventorySnapshotRepository.scopedTo db'.snapshots householdId :=
  congrArg (fun p => p.2.1) h.owned

theorem uploads (h : Alike F householdId db db') :
    ReceiptUploadRepository.scopedTo db.uploads householdId =
      ReceiptUploadRepository.scopedTo db'.uploads householdId :=
  congrArg (fun p => p.2.2) h.owned

end Alike

section Requirements

variable {R : Db → Db → Prop} {db db' : Db}

theorem require_agree {κ : Type} {wrap : κ → Failure} {checks checks' : List (κ × Bool)}
    (hc : checks = checks') (h : R db db') :
    Agree R (require wrap checks db) (require wrap checks' db') := by
  subst hc
  rw [require]
  cases violated checks with
  | none => exact .ok () h
  | some c => exact .error _

theorem raise_agree {α : Type} {r r' : Except Failure α} (hr : r = r') (h : R db db') :
    Agree R (raise r db) (raise r' db') := by
  subst hr
  cases r with
  | ok a => exact .ok a h
  | error e => exact .error e

theorem raiseFold_agree {α : Type} {r r' : Except InventoryFoldError α} (hr : r = r')
    (h : R db db') : Agree R (InventorySnapshotRepository.raiseFold r db)
      (InventorySnapshotRepository.raiseFold r' db') := by
  subst hr
  cases r with
  | ok a => exact .ok a h
  | error e => exact .error _

theorem all_ne_congr {ρ κ : Type} [DecidableEq κ] {f : ρ → κ} {rows rows' : List ρ} {x : κ}
    (h : x ∈ rows.map f ↔ x ∈ rows'.map f) :
    (rows.all fun r => f r ≠ x) = rows'.all fun r => f r ≠ x := by
  rw [Bool.eq_iff_iff]
  simp only [List.mem_map] at h
  simp only [List.all_eq_true, decide_eq_true_eq]
  constructor
  · exact fun ha r hr he => by
      obtain ⟨r', hr', he'⟩ := h.mpr ⟨r, hr, he⟩
      exact ha r' hr' he'
  · exact fun ha r hr he => by
      obtain ⟨r', hr', he'⟩ := h.mp ⟨r, hr, he⟩
      exact ha r' hr' he'

end Requirements

section Events

variable {F : Foreign} {householdId : UUID} {db db' : Db} {row : InventoryEventRow}

theorem Alike.addEvent (h : Alike F householdId db db') (row : InventoryEventRow) :
    Alike F householdId (db.addEvents [row]) (db'.addEvents [row]) where
  households := h.households
  products := h.products
  owned := by
    have he := h.events
    simp only [Db.ownedBy, Db.addEvents, InventoryEventRepository.scopedTo, List.filter_append,
      Prod.mk.injEq] at he ⊢
    exact ⟨by rw [he], h.snapshots, h.uploads⟩
  eventIds id hid := by
    have := h.eventIds id hid
    simp only [Db.addEvents, List.map_append, List.mem_append, this]
  keys key hk := by
    have := h.keys key hk
    simp only [Db.addEvents, List.map_append, List.mem_append, this]
  uploadIds := h.uploadIds
  blobNames := h.blobNames
  uniqueIds := h.uniqueIds

theorem Alike.addForeignEvent (h : Alike F householdId db db') (hh : row.householdId ≠ householdId)
    (hid : row.id ∈ F.eventIds) (hk : row.idempotencyKey ∈ F.keys) :
    Alike F householdId (db.addEvents [row]) db' where
  households := h.households
  products := h.products
  owned := by
    rw [← h.owned]
    simp [Db.ownedBy, Db.addEvents, InventoryEventRepository.scopedTo, hh]
  eventIds id hn := by
    have hne : id ≠ row.id := fun he => hn (he ▸ hid)
    rw [← h.eventIds id hn]
    simp [Db.addEvents, hne]
  keys key hn := by
    have hne : key ≠ row.idempotencyKey := fun he => hn (he ▸ hk)
    rw [← h.keys key hn]
    simp [Db.addEvents, hne]
  uploadIds := h.uploadIds
  blobNames := h.blobNames
  uniqueIds := h.uniqueIds

theorem insertEvent_agree (h : Alike F householdId db db') (hid : row.id ∉ F.eventIds)
    (hk : row.idempotencyKey ∉ F.keys) :
    Agree (Alike F householdId) (insertEvent row db) (insertEvent row db') := by
  refine (require_agree rfl h).bind fun _ d d' h => ?_
  rw [get_bind, get_bind]
  refine (require_agree ?_ h).bind fun _ _ _ _ => ?_
  · rw [all_ne_congr (h.eventIds _ hid), all_ne_congr (h.keys _ hk)]
  refine (require_agree ?_ ‹_›).bind fun _ _ _ _ => ?_
  · rw [InventoryEventRow.referenceChecks, InventoryEventRow.referenceChecks, h.households,
      h.products]
  · exact .ok () (h.addEvent row)

theorem insertEvent_preserves (hh : row.householdId ≠ householdId) (hid : row.id ∈ F.eventIds)
    (hk : row.idempotencyKey ∈ F.keys) :
    Preserves (fun db => Alike F householdId db db') (insertEvent row) := by
  intro db _ d h hi
  rcases insertEvent_cases row db with ⟨-, hr⟩ | ⟨c, hr⟩
  · cases hi.symm.trans hr
    exact h.addForeignEvent hh hid hk
  · cases hi.symm.trans hr

theorem insertEventIfNew_agree (h : Alike F householdId db db') (hid : row.id ∉ F.eventIds)
    (hk : row.idempotencyKey ∉ F.keys) :
    Agree (Alike F householdId) (insertEventIfNew row db) (insertEventIfNew row db') := by
  refine (require_agree rfl h).bind fun _ d d' h => ?_
  rw [get_bind, get_bind]
  have hany : (d.events.any fun r => r.idempotencyKey = row.idempotencyKey) =
      d'.events.any fun r => r.idempotencyKey = row.idempotencyKey := by
    have := all_ne_congr (h.keys _ hk)
    rw [List.all_eq_not_any_not, List.all_eq_not_any_not] at this
    simpa using this
  rw [hany]
  split
  · exact .ok false h
  · refine (require_agree ?_ h).bind fun _ _ _ _ => ?_
    · rw [all_ne_congr (h.eventIds _ hid)]
    refine (require_agree ?_ ‹_›).bind fun _ _ _ _ => ?_
    · rw [InventoryEventRow.referenceChecks, InventoryEventRow.referenceChecks, h.households,
        h.products]
    · exact .ok true (h.addEvent row)

theorem insertEventIfNew_preserves (hh : row.householdId ≠ householdId)
    (hid : row.id ∈ F.eventIds) (hk : row.idempotencyKey ∈ F.keys) :
    Preserves (fun db => Alike F householdId db db') (insertEventIfNew row) := by
  intro db _ d h hi
  rcases insertEventIfNew_cases row db with ⟨-, hr⟩ | ⟨-, hr⟩ | ⟨c, -, hr⟩
  · cases hi.symm.trans hr
    exact h.addForeignEvent hh hid hk
  · cases hi.symm.trans hr
    exact h
  · cases hi.symm.trans hr

theorem getByIdempotencyKey_congr {key : String} (h : Alike F householdId db db') :
    InventoryEventRepository.getByIdempotencyKey db.events householdId key =
      InventoryEventRepository.getByIdempotencyKey db'.events householdId key := by
  rw [InventoryEventRepository.getByIdempotencyKey, h.events]
  rfl

variable [UnicodeTables] {other : UUID} {now : Instant} {id : UUID} {event : NewInventoryEvent}
  {events : List (UUID × NewInventoryEvent)}

theorem appendMany_agree (h : Alike F householdId db db')
    (he : ∀ e ∈ events, e.1 ∉ F.eventIds ∧ e.2.idempotencyKey ∉ F.keys) :
    Agree (Alike F householdId) (InventoryEventRepository.appendMany householdId now events db)
      (InventoryEventRepository.appendMany householdId now events db') := by
  refine (Agree.forM (fun row hr _ _ h => ?_) h).bind fun _ _ _ h => .ok _ h
  obtain ⟨e, hm, rfl⟩ := List.mem_map.mp hr
  exact insertEvent_agree h (he e hm).1 (he e hm).2

theorem appendMany_preserves (hh : other ≠ householdId)
    (he : ∀ e ∈ events, e.1 ∈ F.eventIds ∧ e.2.idempotencyKey ∈ F.keys) :
    Preserves (fun db => Alike F householdId db db')
      (InventoryEventRepository.appendMany other now events) := by
  refine Preserves.bind (.forM fun row hr => ?_) fun _ => .pure _
  obtain ⟨e, hm, rfl⟩ := List.mem_map.mp hr
  exact insertEvent_preserves hh (he e hm).1 (he e hm).2

theorem append_agree (h : Alike F householdId db db') (hid : id ∉ F.eventIds)
    (hk : event.idempotencyKey ∉ F.keys) :
    Agree (Alike F householdId) (InventoryEventRepository.append householdId now id event db)
      (InventoryEventRepository.append householdId now id event db') := by
  refine (appendMany_agree h (by simp [hid, hk])).bind fun appended _ _ h => ?_
  cases appended with
  | nil => exact .error _
  | cons e _ => exact .ok e h

theorem append_preserves (hh : other ≠ householdId) (hid : id ∈ F.eventIds)
    (hk : event.idempotencyKey ∈ F.keys) :
    Preserves (fun db => Alike F householdId db db')
      (InventoryEventRepository.append other now id event) := by
  refine (appendMany_preserves hh (by simp [hid, hk])).bind fun appended => ?_
  cases appended with
  | nil => exact .throw _
  | cons e _ => exact .pure e

theorem appendIfNew_agree (h : Alike F householdId db db') (hid : id ∉ F.eventIds)
    (hk : event.idempotencyKey ∉ F.keys) :
    Agree (Alike F householdId) (InventoryEventRepository.appendIfNew householdId now id event db)
      (InventoryEventRepository.appendIfNew householdId now id event db') := by
  refine (insertEventIfNew_agree h hid hk).bind fun created d d' h => ?_
  cases created with
  | true => exact .ok _ h
  | false =>
    simp only [Bool.false_eq_true, if_false]
    rw [get_bind, get_bind, getByIdempotencyKey_congr h]
    rcases InventoryEventRepository.getByIdempotencyKey d'.events householdId
      event.idempotencyKey with e | _ | existing
    · exact .error e
    · exact .error _
    · exact .ok _ h

theorem appendIfNew_preserves (hh : other ≠ householdId) (hid : id ∈ F.eventIds)
    (hk : event.idempotencyKey ∈ F.keys) :
    Preserves (fun db => Alike F householdId db db')
      (InventoryEventRepository.appendIfNew other now id event) := by
  refine (insertEventIfNew_preserves hh hid hk).bind fun created => ?_
  cases created with
  | true => exact .pure _
  | false =>
    refine Preserves.get.bind fun d => ?_
    rcases InventoryEventRepository.getByIdempotencyKey d.events other
      event.idempotencyKey with e | _ | existing
    · exact .throw e
    · exact .throw _
    · exact .pure _

end Events

section Snapshots

variable {F : Foreign} {householdId other : UUID} {db db' : Db} {row : InventorySnapshotRow}

/-- Replacing or adding snapshot rows leaves the other tables alike. -/
theorem Alike.of_snapshots (h : Alike F householdId db db')
    (rows rows' : List InventorySnapshotRow)
    (hs : InventorySnapshotRepository.scopedTo rows householdId =
      InventorySnapshotRepository.scopedTo rows' householdId) :
    Alike F householdId { db with snapshots := rows } { db' with snapshots := rows' } where
  households := h.households
  products := h.products
  owned := by
    simp only [Db.ownedBy, Prod.mk.injEq]
    exact ⟨h.events, hs, h.uploads⟩
  eventIds := h.eventIds
  keys := h.keys
  uploadIds := h.uploadIds
  blobNames := h.blobNames
  uniqueIds := h.uniqueIds

theorem clear_agree (h : Alike F householdId db db') :
    Agree (Alike F householdId) (InventorySnapshotRepository.clear householdId db)
      (InventorySnapshotRepository.clear householdId db') := by
  refine .ok () (h.of_snapshots _ _ ?_)
  simp [InventorySnapshotRepository.scopedTo, List.filter_filter]

theorem clear_preserves (hh : other ≠ householdId) :
    Preserves (fun db => Alike F householdId db db') (InventorySnapshotRepository.clear other) := by
  intro db _ d h hc
  cases hc.symm.trans clear_eq
  refine h.of_snapshots _ db'.snapshots ?_
  rw [← h.snapshots]
  exact scopedTo_replaceSnapshot_of_ne (by simp) hh.symm

/-- Whether a lot is taken is decided by the rows of its household. -/
theorem all_lot_eq (rows : List InventorySnapshotRow) (row : InventorySnapshotRow) :
    (rows.all fun r => ¬ (r.householdId = row.householdId ∧ r.lotKey = row.lotKey)) =
      (InventorySnapshotRepository.scopedTo rows row.householdId).all fun r =>
        r.lotKey ≠ row.lotKey := by
  rw [Bool.eq_iff_iff]
  simp [InventorySnapshotRepository.scopedTo]

theorem insertSnapshotRow_agree (h : Alike F householdId db db')
    (hh : row.householdId = householdId) :
    Agree (Alike F householdId) (insertSnapshotRow row db) (insertSnapshotRow row db') := by
  refine (require_agree rfl h).bind fun _ d d' h => ?_
  rw [get_bind, get_bind]
  refine (require_agree ?_ h).bind fun _ _ _ _ => .ok () (h.of_snapshots _ _ ?_)
  · rw [InventorySnapshotRow.tableChecks, InventorySnapshotRow.tableChecks, all_lot_eq, all_lot_eq,
      hh, h.snapshots, h.households, h.products]
  · have := h.snapshots
    simp only [InventorySnapshotRepository.scopedTo, List.filter_append] at this ⊢
    rw [this]

theorem insertSnapshotRow_preserves (hh : row.householdId ≠ householdId) :
    Preserves (fun db => Alike F householdId db db') (insertSnapshotRow row) := by
  intro db _ d h hi
  rcases insertSnapshotRow_cases row db with hr | ⟨c, hr⟩
  · cases hi.symm.trans hr
    refine h.of_snapshots _ db'.snapshots ?_
    rw [← h.snapshots]
    simp [InventorySnapshotRepository.scopedTo, hh]
  · cases hi.symm.trans hr

theorem save_agree (h : Alike F householdId db db') (S : InventorySnapshot) :
    Agree (Alike F householdId) (InventorySnapshotRepository.save householdId S db)
      (InventorySnapshotRepository.save householdId S db') := by
  rw [InventorySnapshotRepository.save]
  by_cases hS : S.householdId = householdId
  · rw [if_neg (not_not.mpr hS)]
    refine (clear_agree h).bind fun _ _ _ h => Agree.forM (fun row hr _ _ h => ?_) h
    exact insertSnapshotRow_agree h ((householdId_of_mem_toRows hr).trans hS)
  · rw [if_pos hS]
    exact .error _

theorem save_preserves (hh : other ≠ householdId) (S : InventorySnapshot) :
    Preserves (fun db => Alike F householdId db db')
      (InventorySnapshotRepository.save other S) := by
  rw [InventorySnapshotRepository.save]
  by_cases hS : S.householdId = other
  · rw [if_neg (not_not.mpr hS)]
    refine (clear_preserves hh).bind fun _ => .forM fun row hr => insertSnapshotRow_preserves ?_
    rw [householdId_of_mem_toRows hr, hS]
    exact hh
  · rw [if_pos hS]
    exact .throw _

theorem stored_congr (h : Alike F householdId db db') :
    InventorySnapshotRepository.stored db.snapshots householdId =
      InventorySnapshotRepository.stored db'.snapshots householdId := by
  rw [InventorySnapshotRepository.stored, h.snapshots]
  rfl

variable [UnicodeTables] {asOf : Instant}

theorem projectKnownAsOf_agree (h : Alike F householdId db db') :
    Agree (Alike F householdId) (InventorySnapshotRepository.projectKnownAsOf householdId asOf db)
      (InventorySnapshotRepository.projectKnownAsOf householdId asOf db') := by
  rw [InventorySnapshotRepository.projectKnownAsOf, get_bind, get_bind]
  refine raiseFold_agree ?_ h
  rw [InventoryEventRepository.eventsKnownAsOf, h.events]
  rfl

theorem rebuild_agree (h : Alike F householdId db db') :
    Agree (Alike F householdId) (InventorySnapshotRepository.rebuild householdId asOf db)
      (InventorySnapshotRepository.rebuild householdId asOf db') :=
  (projectKnownAsOf_agree h).bind fun S _ _ h =>
    (save_agree h S).bind fun _ _ _ h => .ok S h

theorem advance_agree (h : Alike F householdId db db') :
    Agree (Alike F householdId) (InventorySnapshotRepository.advance householdId asOf db)
      (InventorySnapshotRepository.advance householdId asOf db') := by
  rw [InventorySnapshotRepository.advance, get_bind, get_bind, stored_congr h]
  cases InventorySnapshotRepository.stored db'.snapshots householdId with
  | none => exact rebuild_agree h
  | some current =>
    by_cases ht : asOf < current.asOf
    · simp only [if_pos ht]
      exact projectKnownAsOf_agree h
    · simp only [if_neg ht]
      rw [get_bind, get_bind]
      refine (raiseFold_agree ?_ h).bind fun S _ _ h => (save_agree h S).bind fun _ _ _ h => .ok S h
      rw [InventoryEventRepository.eventsKnownBetween, h.events]
      rfl

end Snapshots

section Uploads

variable {F : Foreign} {householdId other uploadId : UUID} {db db' : Db} {row : ReceiptUploadRow}
  {at_ : Instant}

theorem not_mem_ids (ht : violated (row.tableChecks db) = none) :
    row.id ∉ db.uploads.map (·.id) := by
  rw [violated_eq_none_iff] at ht
  simp only [ReceiptUploadRow.tableChecks, List.forall_mem_cons, List.all_eq_true,
    decide_eq_true_eq] at ht
  simpa using ht.1

theorem uniqueIds_addUpload (h : (db.uploads.map (·.id)).Nodup)
    (ht : violated (row.tableChecks db) = none) :
    ((db.addUpload row).uploads.map (·.id)).Nodup := by
  rw [Db.addUpload, List.map_append, List.map_singleton, List.nodup_append]
  refine ⟨h, List.nodup_singleton _, fun id hid id' hid' he => not_mem_ids ht ?_⟩
  rwa [← List.mem_singleton.mp hid', ← he]

theorem Alike.addUpload (h : Alike F householdId db db')
    (ht : violated (row.tableChecks db) = none) :
    Alike F householdId (db.addUpload row) (db'.addUpload row) where
  households := h.households
  products := h.products
  owned := by
    have hu := h.uploads
    simp only [Db.ownedBy, Db.addUpload, ReceiptUploadRepository.scopedTo, List.filter_append,
      Prod.mk.injEq] at hu ⊢
    exact ⟨h.events, h.snapshots, by rw [hu]⟩
  eventIds := h.eventIds
  keys := h.keys
  uploadIds id hid := by
    have := h.uploadIds id hid
    simp only [Db.addUpload, List.map_append, List.mem_append, this]
  blobNames name hn := by
    have := h.blobNames name hn
    simp only [Db.addUpload, List.map_append, List.mem_append, this]
  uniqueIds := uniqueIds_addUpload h.uniqueIds ht

theorem Alike.addForeignUpload (h : Alike F householdId db db')
    (hh : row.householdId ≠ householdId) (hid : row.id ∈ F.uploadIds)
    (hb : row.blobName ∈ foreignBlobNames householdId)
    (ht : violated (row.tableChecks db) = none) : Alike F householdId (db.addUpload row) db' where
  households := h.households
  products := h.products
  owned := by
    rw [← h.owned]
    simp [Db.ownedBy, Db.addUpload, ReceiptUploadRepository.scopedTo, hh]
  eventIds := h.eventIds
  keys := h.keys
  uploadIds id hn := by
    have hne : id ≠ row.id := fun he => hn (he ▸ hid)
    rw [← h.uploadIds id hn]
    simp [Db.addUpload, hne]
  blobNames name hn := by
    have hne : name ≠ row.blobName := fun he => hn (he ▸ hb)
    rw [← h.blobNames name hn]
    simp [Db.addUpload, hne]
  uniqueIds := uniqueIds_addUpload h.uniqueIds ht

theorem insertUpload_agree (h : Alike F householdId db db') (hid : row.id ∉ F.uploadIds)
    (hb : row.blobName ∉ foreignBlobNames householdId) :
    Agree (Alike F householdId) (insertUpload row db) (insertUpload row db') := by
  have ht : row.tableChecks db = row.tableChecks db' := by
    rw [ReceiptUploadRow.tableChecks, ReceiptUploadRow.tableChecks,
      all_ne_congr (h.uploadIds _ hid), all_ne_congr (h.blobNames _ hb), h.households]
  cases hv : violated row.rowChecks with
  | some c =>
    rw [insertUpload, bind_of_error (require_of_some hv), bind_of_error (require_of_some hv)]
    exact .error _
  | none =>
    cases hd : violated (row.tableChecks db) with
    | some c =>
      rw [insertUpload, bind_of_ok (require_of_none hv), bind_of_ok (require_of_none hv),
        get_bind, get_bind, bind_of_error (require_of_some hd),
        bind_of_error (require_of_some (ht ▸ hd))]
      exact .error _
    | none =>
      rw [insertUpload_of_checks hv hd, insertUpload_of_checks hv (ht ▸ hd)]
      exact .ok () (h.addUpload hd)

theorem insertUpload_preserves (hh : row.householdId ≠ householdId) (hid : row.id ∈ F.uploadIds)
    (hb : row.blobName ∈ foreignBlobNames householdId) :
    Preserves (fun db => Alike F householdId db db') (insertUpload row) := by
  intro db _ d h hi
  rcases insertUpload_cases row db with ⟨ht, hr⟩ | ⟨c, hr⟩
  · cases hi.symm.trans hr
    exact h.addForeignUpload hh hid hb ht
  · cases hi.symm.trans hr

theorem recordRequest_agree {blobName contentType : String} {requestedAt expiresAt : Instant}
    (h : Alike F householdId db db') (hid : uploadId ∉ F.uploadIds)
    (hb : blobName ∉ foreignBlobNames householdId) :
    Agree (Alike F householdId)
      (ReceiptUploadRepository.recordRequest householdId uploadId blobName contentType requestedAt
        expiresAt db)
      (ReceiptUploadRepository.recordRequest householdId uploadId blobName contentType requestedAt
        expiresAt db') :=
  Agree.bind (insertUpload_agree h hid hb) fun _ _ _ h => .ok _ h

theorem recordRequest_preserves {blobName contentType : String}
    {requestedAt expiresAt : Instant} (hh : other ≠ householdId) (hid : uploadId ∈ F.uploadIds)
    (hb : blobName ∈ foreignBlobNames householdId) :
    Preserves (fun db => Alike F householdId db db')
      (ReceiptUploadRepository.recordRequest other uploadId blobName contentType requestedAt
        expiresAt) :=
  Preserves.bind (insertUpload_preserves hh hid hb) fun _ => .pure _

theorem scopedTo_updateConfirmedAt (rows : List ReceiptUploadRow) :
    ReceiptUploadRepository.scopedTo
        (ReceiptUploadRepository.updateConfirmedAt uploadId at_ rows) householdId =
      ReceiptUploadRepository.updateConfirmedAt uploadId at_
        (ReceiptUploadRepository.scopedTo rows householdId) := by
  rw [ReceiptUploadRepository.scopedTo, ReceiptUploadRepository.updateConfirmedAt, List.filter_map]
  refine congrArg _ (List.filter_congr fun r _ => ?_)
  by_cases hid : r.id = uploadId
  · simp only [Function.comp_apply, if_pos hid]
  · simp only [Function.comp_apply, if_neg hid]

theorem Alike.updateUploads (h : Alike F householdId db db') (uploads : List ReceiptUploadRow)
    (hu : ReceiptUploadRepository.scopedTo
        (ReceiptUploadRepository.updateConfirmedAt uploadId at_ db.uploads) householdId =
      ReceiptUploadRepository.scopedTo uploads householdId)
    (hids : uploads.map (·.id) = db'.uploads.map (·.id))
    (hnames : uploads.map (·.blobName) = db'.uploads.map (·.blobName)) :
    Alike F householdId
      { db with uploads := ReceiptUploadRepository.updateConfirmedAt uploadId at_ db.uploads }
      { db' with uploads := uploads } where
  households := h.households
  products := h.products
  owned := by
    simp only [Db.ownedBy, Prod.mk.injEq]
    exact ⟨h.events, h.snapshots, hu⟩
  eventIds := h.eventIds
  keys := h.keys
  uploadIds id hid := by
    rw [map_updateConfirmedAt (f := ReceiptUploadRow.id) (fun _ _ => rfl), hids]
    exact h.uploadIds id hid
  blobNames name hn := by
    rw [map_updateConfirmedAt (f := ReceiptUploadRow.blobName) (fun _ _ => rfl), hnames]
    exact h.blobNames name hn
  uniqueIds := by
    rw [map_updateConfirmedAt (f := ReceiptUploadRow.id) (fun _ _ => rfl)]
    exact h.uniqueIds

theorem row_congr (h : Alike F householdId db db') :
    ReceiptUploadRepository.row db.uploads householdId uploadId =
      ReceiptUploadRepository.row db'.uploads householdId uploadId := by
  rw [ReceiptUploadRepository.row, h.uploads]
  rfl

theorem confirm_agree (h : Alike F householdId db db') :
    Agree (Alike F householdId) (ReceiptUploadRepository.confirm householdId uploadId at_ db)
      (ReceiptUploadRepository.confirm householdId uploadId at_ db') := by
  cases hr : ReceiptUploadRepository.row db'.uploads householdId uploadId with
  | error e =>
    rw [confirm_of_error at_ hr, confirm_of_error at_ ((row_congr h).trans hr)]
    exact .error e
  | ok found =>
    cases found with
    | none =>
      rw [confirm_of_none at_ hr, confirm_of_none at_ ((row_congr h).trans hr)]
      exact .ok none h
    | some row =>
      have hr' := (row_congr h).trans hr
      by_cases hc : row.confirmedAt = none
      · rcases confirm_of_unconfirmed at_ hr hc with ⟨hv, hd⟩ | ⟨c, hv, hd⟩
        · rcases confirm_of_unconfirmed at_ hr' hc with ⟨-, hd'⟩ | ⟨c, hv', -⟩
          · rw [hd, hd']
            refine .ok _ (h.updateUploads _ ?_ ?_ ?_)
            · rw [scopedTo_updateConfirmedAt, scopedTo_updateConfirmedAt, h.uploads]
            · exact map_updateConfirmedAt (f := ReceiptUploadRow.id) (fun _ _ => rfl) ..
            · exact map_updateConfirmedAt (f := ReceiptUploadRow.blobName) (fun _ _ => rfl) ..
          · cases hv.symm.trans hv'
        · rcases confirm_of_unconfirmed at_ hr' hc with ⟨hv', -⟩ | ⟨c', hv', hd'⟩
          · cases hv.symm.trans hv'
          · cases hv.symm.trans hv'
            rw [hd, hd']
            exact .error _
      · rw [confirm_of_confirmed at_ hr hc, confirm_of_confirmed at_ hr' hc]
        exact .ok _ h

theorem updateConfirmedAt_foreign {r : ReceiptUploadRow} (h : (db.uploads.map (·.id)).Nodup)
    (hr : r ∈ db.uploads) (hh : r.householdId ≠ householdId) :
    ReceiptUploadRepository.updateConfirmedAt r.id at_
        (ReceiptUploadRepository.scopedTo db.uploads householdId) =
      ReceiptUploadRepository.scopedTo db.uploads householdId := by
  refine (List.map_congr_left fun r' hr' => if_neg fun hid => hh ?_).trans (List.map_id _)
  simp only [ReceiptUploadRepository.scopedTo, List.mem_filter, decide_eq_true_eq] at hr'
  rw [← hr'.2, List.inj_on_of_nodup_map h hr'.1 hr hid]

theorem confirm_preserves (hh : other ≠ householdId) :
    Preserves (fun db => Alike F householdId db db')
      (ReceiptUploadRepository.confirm other uploadId at_) := by
  intro db _ d h hd
  cases hr : ReceiptUploadRepository.row db.uploads other uploadId with
  | error e => cases hd.symm.trans (confirm_of_error at_ hr)
  | ok found =>
    cases found with
    | none =>
      cases hd.symm.trans (confirm_of_none at_ hr)
      exact h
    | some row =>
      by_cases hc : row.confirmedAt = none
      · rcases confirm_of_unconfirmed at_ hr hc with ⟨-, hs⟩ | ⟨c, -, hs⟩
        · cases hd.symm.trans hs
          obtain ⟨hm, hrow, rfl⟩ := mem_of_row hr
          refine h.updateUploads db'.uploads ?_ rfl rfl
          rw [scopedTo_updateConfirmedAt, updateConfirmedAt_foreign h.uniqueIds hm (hrow ▸ hh),
            h.uploads]
        · cases hd.symm.trans hs
      · cases hd.symm.trans (confirm_of_confirmed at_ hr hc)
        exact h

end Uploads

end KitchenSense
