import KitchenSense.Database.Tables
import Mathlib.Data.List.Perm.Subperm

/-! # What the statements do

Each insertion either adds its row, and then the constraints hold of it, or
fails with the constraint it violates and leaves no trace.
-/

namespace KitchenSense

variable {db : Db}


theorem violated_eq_none_iff {κ : Type} {checks : List (κ × Bool)} :
    violated checks = none ↔ ∀ c ∈ checks, c.2 = true := by
  simp [violated, List.find?_eq_none]

theorem require_cases {κ : Type} (wrap : κ → Failure) (checks : List (κ × Bool)) (db : Db) :
    (violated checks = none ∧ require wrap checks db = .ok ((), db)) ∨
      ∃ c, require wrap checks db = .error (wrap c) := by
  cases hv : violated checks with
  | none => left; rw [require, hv]; exact ⟨rfl, rfl⟩
  | some c => right; rw [require, hv]; exact ⟨c, rfl⟩

theorem require_of_none {κ : Type} {wrap : κ → Failure} {checks : List (κ × Bool)}
    (h : violated checks = none) : require wrap checks db = .ok ((), db) := by
  rw [require, h]; rfl

theorem require_of_some {κ : Type} {wrap : κ → Failure} {checks : List (κ × Bool)} {c : κ}
    (h : violated checks = some c) : require wrap checks db = .error (wrap c) := by
  rw [require, h]; rfl

section Events

def Db.addEvents (db : Db) (rows : List InventoryEventRow) : Db :=
  { db with events := db.events ++ rows }

structure RowSound (row : InventoryEventRow) : Prop where
  quantityDelta : fitsNumeric row.quantityDelta
  unitWidth : row.unit.length ≤ 24
  sourceWidth : row.source.length ≤ 64
  idempotencyKeyWidth : row.idempotencyKey.length ≤ 200
  purchased : row.quantityDelta ≥ 0 ∨ row.eventType ≠ .purchased
  removal : row.quantityDelta ≤ 0 ∨ (row.eventType ≠ .consumed ∧ row.eventType ≠ .discarded)
  label : row.dateLabelType = none ∨ row.printedDate ≠ none
  confidence : row.confidence ≥ 0 ∧ row.confidence ≤ 1
  unitNotBlank : notBlank row.unit
  sourceNotBlank : notBlank row.source
  idempotencyKeyNotBlank : notBlank row.idempotencyKey

theorem rowChecks_iff {row : InventoryEventRow} : violated row.rowChecks = none ↔ RowSound row := by
  rw [violated_eq_none_iff]
  simp only [InventoryEventRow.rowChecks, List.forall_mem_cons, decide_eq_true_eq]
  constructor
  · rintro ⟨hq, hu, hs, hk, hp, hr, hl, hc, hub, hsb, hkb, -⟩
    exact ⟨hq, hu, hs, hk, hp, hr, hl, hc, hub, hsb, hkb⟩
  · rintro ⟨hq, hu, hs, hk, hp, hr, hl, hc, hub, hsb, hkb⟩
    exact ⟨hq, hu, hs, hk, hp, hr, hl, hc, hub, hsb, hkb, List.forall_mem_nil _⟩

structure Admissible (db : Db) (row : InventoryEventRow) : Prop where
  rowChecks : violated row.rowChecks = none
  referenceChecks : violated (row.referenceChecks db) = none
  freshId : ∀ r ∈ db.events, r.id ≠ row.id
  freshKey : ∀ r ∈ db.events, r.idempotencyKey ≠ row.idempotencyKey

instance (db : Db) (row : InventoryEventRow) : Decidable (Admissible db row) :=
  decidable_of_iff (violated row.rowChecks = none ∧ violated (row.referenceChecks db) = none ∧
      (∀ r ∈ db.events, r.id ≠ row.id) ∧ ∀ r ∈ db.events, r.idempotencyKey ≠ row.idempotencyKey)
    ⟨fun h => ⟨h.1, h.2.1, h.2.2.1, h.2.2.2⟩, fun h => ⟨h.1, h.2, h.3, h.4⟩⟩

/-- An insertion adds an admissible row, or a constraint of the table refuses it. -/
theorem insertEvent_cases (row : InventoryEventRow) (db : Db) :
    (Admissible db row ∧ insertEvent row db = .ok ((), db.addEvents [row])) ∨
      ∃ c, insertEvent row db = .error (.event c) := by
  rcases require_cases .event row.rowChecks db with ⟨hv, hr⟩ | ⟨c, hr⟩
  · rcases require_cases .event [
        (.primaryKey, db.events.all fun r => r.id ≠ row.id),
        (.idempotencyKeyUnique, db.events.all fun r => r.idempotencyKey ≠ row.idempotencyKey)] db
      with ⟨hk, hu⟩ | ⟨c, hu⟩
    · rcases require_cases .event (row.referenceChecks db) db with ⟨hf, hs⟩ | ⟨c, hs⟩
      · rw [violated_eq_none_iff] at hk
        simp only [List.forall_mem_cons, List.all_eq_true, decide_eq_true_eq] at hk
        refine .inl ⟨⟨hv, hf, hk.1, hk.2.1⟩, ?_⟩
        rw [insertEvent, Transaction.bind_of_ok hr, Transaction.get_bind,
          Transaction.bind_of_ok hu, Transaction.bind_of_ok hs]
        rfl
      · right; refine ⟨c, ?_⟩
        rw [insertEvent, Transaction.bind_of_ok hr, Transaction.get_bind,
          Transaction.bind_of_ok hu, Transaction.bind_of_error hs]
    · right; refine ⟨c, ?_⟩
      rw [insertEvent, Transaction.bind_of_ok hr, Transaction.get_bind,
        Transaction.bind_of_error hu]
  · exact .inr ⟨c, Transaction.bind_of_error hr⟩

theorem insertEventIfNew_of_admissible {row : InventoryEventRow} (h : Admissible db row) :
    insertEventIfNew row db = .ok (true, db.addEvents [row]) := by
  have hn : ¬ (db.events.any fun r => r.idempotencyKey = row.idempotencyKey) = true := by
    simpa using h.freshKey
  have hi : violated [(EventConstraint.primaryKey, db.events.all fun r => r.id ≠ row.id)] =
      none := by
    rw [violated_eq_none_iff]
    simpa using h.freshId
  rw [insertEventIfNew, Transaction.bind_of_ok (require_of_none h.rowChecks),
    Transaction.get_bind, if_neg hn, Transaction.bind_of_ok (require_of_none hi),
    Transaction.bind_of_ok (require_of_none h.referenceChecks)]
  rfl

/-- A conflicting key inserts nothing; any other row is inserted or refused. -/
theorem insertEventIfNew_cases (row : InventoryEventRow) (db : Db) :
    (Admissible db row ∧ insertEventIfNew row db = .ok (true, db.addEvents [row])) ∨
      ((∃ r ∈ db.events, r.idempotencyKey = row.idempotencyKey) ∧
        insertEventIfNew row db = .ok (false, db)) ∨
      ∃ c, ¬ Admissible db row ∧ insertEventIfNew row db = .error (.event c) := by
  by_cases ha : Admissible db row
  · exact .inl ⟨ha, insertEventIfNew_of_admissible ha⟩
  right
  rcases require_cases .event row.rowChecks db with ⟨hv, hr⟩ | ⟨c, hr⟩
  · by_cases hk : ∃ r ∈ db.events, r.idempotencyKey = row.idempotencyKey
    · refine .inl ⟨hk, ?_⟩
      rw [insertEventIfNew, Transaction.bind_of_ok hr, Transaction.get_bind, if_pos (by simpa)]
      rfl
    · have hn : ¬ (db.events.any fun r => r.idempotencyKey = row.idempotencyKey) = true := by
        simpa using hk
      rw [insertEventIfNew, Transaction.bind_of_ok hr, Transaction.get_bind, if_neg hn]
      rcases require_cases .event [(.primaryKey, db.events.all fun r => r.id ≠ row.id)] db
        with ⟨hi, hu⟩ | ⟨c, hu⟩
      · rcases require_cases .event (row.referenceChecks db) db with ⟨hf, -⟩ | ⟨c, hs⟩
        · rw [violated_eq_none_iff] at hi
          simp only [List.forall_mem_cons, List.all_eq_true, decide_eq_true_eq] at hi
          exact absurd ⟨hv, hf, hi.1, fun r hm he => hk ⟨r, hm, he⟩⟩ ha
        · exact .inr ⟨c, ha, by rw [Transaction.bind_of_ok hu, Transaction.bind_of_error hs]⟩
      · exact .inr ⟨c, ha, Transaction.bind_of_error hu⟩
  · exact .inr ⟨c, ha, Transaction.bind_of_error hr⟩

structure Db.Valid (db : Db) : Prop where
  rowChecks : ∀ row ∈ db.events, violated row.rowChecks = none
  referenceChecks : ∀ row ∈ db.events, violated (row.referenceChecks db) = none
  ids : (db.events.map (·.id)).Nodup
  keys : (db.events.map (·.idempotencyKey)).Nodup

theorem Db.Valid.addEvent {row : InventoryEventRow} (hv : db.Valid) (h : Admissible db row) :
    (db.addEvents [row]).Valid where
  rowChecks := by
    intro r hm
    rcases List.mem_append.mp hm with hm | hm
    · exact hv.rowChecks r hm
    · rw [List.mem_singleton.mp hm]; exact h.rowChecks
  referenceChecks := by
    intro r hm
    rcases List.mem_append.mp hm with hm | hm
    · exact hv.referenceChecks r hm
    · rw [List.mem_singleton.mp hm]; exact h.referenceChecks
  ids := by
    have := h.freshId
    simp only [Db.addEvents, List.map_append, List.nodup_append, hv.ids]
    simpa using this
  keys := by
    have := h.freshKey
    simp only [Db.addEvents, List.map_append, List.nodup_append, hv.keys]
    simpa using this

theorem Db.Valid.of_subperm {db' : Db} (hv : db.Valid) (he : db'.events.Subperm db.events)
    (hh : db'.households = db.households) (hp : db'.products = db.products) : db'.Valid where
  rowChecks row hm := hv.rowChecks row (he.subset hm)
  referenceChecks := by
    intro row hm
    have := hv.referenceChecks row (he.subset hm)
    rwa [InventoryEventRow.referenceChecks, ← hh, ← hp] at this
  ids := by
    obtain ⟨l, hl, hs⟩ := he
    exact (hl.map _).nodup_iff.mp ((hs.map _).nodup hv.ids)
  keys := by
    obtain ⟨l, hl, hs⟩ := he
    exact (hl.map _).nodup_iff.mp ((hs.map _).nodup hv.keys)

theorem Db.Valid.of_events_eq {db' : Db} (hv : db.Valid) (he : db'.events = db.events)
    (hh : db'.households = db.households) (hp : db'.products = db.products) : db'.Valid :=
  hv.of_subperm (he ▸ .refl _) hh hp

end Events

section Snapshots

def Db.addSnapshotRows (db : Db) (rows : List InventorySnapshotRow) : Db :=
  { db with snapshots := db.snapshots ++ rows }

theorem insertSnapshotRow_of_checks {row : InventorySnapshotRow}
    (hc : violated row.columnChecks = none) (ht : violated (row.tableChecks db) = none) :
    insertSnapshotRow row db = .ok ((), db.addSnapshotRows [row]) := by
  rw [insertSnapshotRow, Transaction.bind_of_ok (require_of_none hc),
    Transaction.get_bind, Transaction.bind_of_ok (require_of_none ht)]
  rfl

theorem insertSnapshotRow_cases (row : InventorySnapshotRow) (db : Db) :
    insertSnapshotRow row db = .ok ((), db.addSnapshotRows [row]) ∨
      ∃ c, insertSnapshotRow row db = .error (.snapshot c) := by
  rcases require_cases .snapshot row.columnChecks db with ⟨hc, hr⟩ | ⟨c, hr⟩
  · rcases require_cases .snapshot (row.tableChecks db) db with ⟨ht, -⟩ | ⟨c, hs⟩
    · exact .inl (insertSnapshotRow_of_checks hc ht)
    · right; refine ⟨c, ?_⟩
      rw [insertSnapshotRow, Transaction.bind_of_ok hr, Transaction.get_bind,
        Transaction.bind_of_error hs]
  · exact .inr ⟨c, Transaction.bind_of_error hr⟩

theorem addSnapshotRows_cons (row : InventorySnapshotRow) (rows : List InventorySnapshotRow) :
    (db.addSnapshotRows [row]).addSnapshotRows rows = db.addSnapshotRows (row :: rows) := by
  simp [Db.addSnapshotRows]

theorem insertRows_cases (rows : List InventorySnapshotRow) (db : Db) :
    forM rows insertSnapshotRow db = .ok ((), db.addSnapshotRows rows) ∨
      ∃ c, forM rows insertSnapshotRow db = .error (.snapshot c) := by
  induction rows generalizing db with
  | nil => left; simp [Db.addSnapshotRows]
  | cons row rows ih =>
    rw [List.forM_cons]
    rcases insertSnapshotRow_cases row db with h | ⟨c, h⟩
    · rw [Transaction.bind_of_ok h, ← addSnapshotRows_cons row rows]
      exact ih _
    · exact .inr ⟨c, Transaction.bind_of_error h⟩

/-- Two rows that the unique constraint on lots does not admit together. -/
def InventorySnapshotRow.Clash (r row : InventorySnapshotRow) : Prop :=
  r.householdId = row.householdId ∧ r.lotKey = row.lotKey

instance (r row : InventorySnapshotRow) : Decidable (r.Clash row) :=
  inferInstanceAs (Decidable (_ ∧ _))

theorem checks_of_insertSnapshotRow {row : InventorySnapshotRow} {db' : Db}
    (h : insertSnapshotRow row db = .ok ((), db')) :
    violated row.columnChecks = none ∧ violated (row.tableChecks db) = none := by
  rcases require_cases .snapshot row.columnChecks db with ⟨hv, hc⟩ | ⟨c, hc⟩
  · rcases require_cases .snapshot (row.tableChecks db) db with ⟨ht, -⟩ | ⟨c, ht⟩
    · exact ⟨hv, ht⟩
    · rw [insertSnapshotRow, Transaction.bind_of_ok hc, Transaction.get_bind,
        Transaction.bind_of_error ht] at h
      cases h
  · rw [insertSnapshotRow, Transaction.bind_of_error hc] at h
    cases h

theorem not_clash_of_insertSnapshotRow {row : InventorySnapshotRow} {db' : Db}
    (h : insertSnapshotRow row db = .ok ((), db')) : ∀ r ∈ db.snapshots, ¬ r.Clash row := by
  have hv := violated_eq_none_iff.mp (checks_of_insertSnapshotRow h).2
  simp only [InventorySnapshotRow.tableChecks, List.forall_mem_cons, List.all_eq_true,
    decide_eq_true_eq] at hv
  exact hv.2.2.1

theorem not_clash_of_insertRows {rows : List InventorySnapshotRow} {p : Unit × Db}
    (h : forM rows insertSnapshotRow db = .ok p) :
    ∀ row ∈ rows, ∀ r ∈ db.snapshots, ¬ r.Clash row := by
  induction rows generalizing db with
  | nil => exact List.forall_mem_nil _
  | cons row rows ih =>
    rw [List.forM_cons] at h
    obtain ⟨⟨⟩, db₁, hi, hrows⟩ := Transaction.bind_eq_ok.mp h
    rcases insertSnapshotRow_cases row db with hr | ⟨c, hr⟩
    · cases hr.symm.trans hi
      rw [List.forall_mem_cons]
      exact ⟨not_clash_of_insertSnapshotRow hr, fun row' hm r hr' =>
        ih hrows row' hm r (List.mem_append_left _ hr')⟩
    · cases hr.symm.trans hi

theorem columnChecks_of_insertRows {rows : List InventorySnapshotRow} {p : Unit × Db}
    (h : forM rows insertSnapshotRow db = .ok p) :
    ∀ row ∈ rows, violated row.columnChecks = none := by
  induction rows generalizing db with
  | nil => exact List.forall_mem_nil _
  | cons row rows ih =>
    rw [List.forM_cons] at h
    obtain ⟨⟨⟩, db₁, hi, hrows⟩ := Transaction.bind_eq_ok.mp h
    exact List.forall_mem_cons.mpr ⟨(checks_of_insertSnapshotRow hi).1, ih hrows⟩

/-- Rows a lot key apart from each other and from the table are inserted one after the other. -/
theorem insertRows_of_checks {rows : List InventorySnapshotRow}
    (hc : ∀ row ∈ rows, violated row.columnChecks = none)
    (ht : ∀ row ∈ rows, row.eventCount > 0 ∧
      (row.dateLabelType = none ∨ row.printedDate ≠ none) ∧
      row.householdId ∈ db.households ∧ row.canonicalProductId ∈ db.products)
    (hn : rows.Pairwise fun a b => ¬ (a.householdId = b.householdId ∧ a.lotKey = b.lotKey))
    (hd : ∀ row ∈ rows, ∀ r ∈ db.snapshots,
      ¬ (r.householdId = row.householdId ∧ r.lotKey = row.lotKey)) :
    forM rows insertSnapshotRow db = .ok ((), db.addSnapshotRows rows) := by
  induction rows generalizing db with
  | nil => simp [Db.addSnapshotRows]
  | cons row rows ih =>
    obtain ⟨hc, hcs⟩ := List.forall_mem_cons.mp hc
    obtain ⟨ht, hts⟩ := List.forall_mem_cons.mp ht
    obtain ⟨hn, hns⟩ := List.pairwise_cons.mp hn
    obtain ⟨hd, hds⟩ := List.forall_mem_cons.mp hd
    have hrow : violated (row.tableChecks db) = none := by
      rw [violated_eq_none_iff]
      simp only [InventorySnapshotRow.tableChecks, List.forall_mem_cons, List.all_eq_true,
        decide_eq_true_eq]
      exact ⟨ht.1, ht.2.1, hd, ht.2.2.1, ht.2.2.2, by simp⟩
    rw [List.forM_cons, Transaction.bind_of_ok (insertSnapshotRow_of_checks hc hrow),
      ← addSnapshotRows_cons row rows]
    refine ih hcs ?_ hns ?_
    · exact hts
    intro r hr r' hr'
    rcases List.mem_append.mp hr' with hr' | hr'
    · exact hds r hr r' hr'
    · cases List.mem_singleton.mp hr'
      exact hn r hr

end Snapshots

section Uploads

def Db.addUpload (db : Db) (row : ReceiptUploadRow) : Db :=
  { db with uploads := db.uploads ++ [row] }

theorem insertUpload_of_checks {row : ReceiptUploadRow} (hr : violated row.rowChecks = none)
    (ht : violated (row.tableChecks db) = none) :
    insertUpload row db = .ok ((), db.addUpload row) := by
  rw [insertUpload, Transaction.bind_of_ok (require_of_none hr), Transaction.get_bind,
    Transaction.bind_of_ok (require_of_none ht)]
  rfl

theorem insertUpload_cases (row : ReceiptUploadRow) (db : Db) :
    (violated (row.tableChecks db) = none ∧ insertUpload row db = .ok ((), db.addUpload row)) ∨
      ∃ c, insertUpload row db = .error (.upload c) := by
  rcases require_cases .upload row.rowChecks db with ⟨hv, hr⟩ | ⟨c, hr⟩
  · rcases require_cases .upload (row.tableChecks db) db with ⟨ht, -⟩ | ⟨c, ht⟩
    · exact .inl ⟨ht, insertUpload_of_checks hv ht⟩
    · right; refine ⟨c, ?_⟩
      rw [insertUpload, Transaction.bind_of_ok hr, Transaction.get_bind,
        Transaction.bind_of_error ht]
  · exact .inr ⟨c, Transaction.bind_of_error hr⟩

end Uploads

section Sample

def emptyKitchen : Db where
  households := [1, 2]
  products := [7]
  events := []
  snapshots := []
  uploads := []

/-- Two packs of a product bought at an instant, to be recorded by the clock of the database. -/
def purchase (key : String) (occurredAt : Instant) : NewInventoryEvent where
  canonicalProductId := 7
  eventType := .purchased
  quantityDelta := 2000
  unit := "pack"
  storageLocation := .fridge
  occurredAt := occurredAt
  source := "receipt"
  idempotencyKey := key

theorem emptyKitchen_valid : emptyKitchen.Valid :=
  ⟨by decide, by decide, by decide, by decide⟩

end Sample

end KitchenSense
