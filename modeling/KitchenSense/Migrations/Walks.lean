import KitchenSense.Foundations.Runs
import KitchenSense.Migrations.Versions
import KitchenSense.Tenancy.Noninterference

/-! # Walks over the revisions

Migrations up and down, with the application writing between them. Every
foreign key holds in every state, so that a migration never fails, and the
kitchen record and the households other than the placeholder stay.
-/

namespace KitchenSense

open Transaction

structure Db.Referential (db : Db) : Prop where
  events : ∀ row ∈ db.events, row.householdId ∈ db.households ∧ row.canonicalProductId ∈ db.products
  snapshots : ∀ row ∈ db.snapshots,
    row.householdId ∈ db.households ∧ row.canonicalProductId ∈ db.products
  uploads : ∀ row ∈ db.uploads, row.householdId ∈ db.households

section Statements

structure KeptByStatements (P : Db → Prop) : Prop where
  insertEvent : ∀ row, Preserves P (insertEvent row)
  insertEventIfNew : ∀ row, Preserves P (insertEventIfNew row)
  clear : ∀ householdId, Preserves P (InventorySnapshotRepository.clear householdId)
  insertSnapshotRow : ∀ row, Preserves P (insertSnapshotRow row)
  insertUpload : ∀ row, Preserves P (insertUpload row)
  updateConfirmedAt : ∀ id t db, P db →
    P { db with uploads := ReceiptUploadRepository.updateConfirmedAt id t db.uploads }

variable {P : Db → Prop} (hP : KeptByStatements P)
include hP

theorem KeptByStatements.save (householdId : UUID) (snapshot : InventorySnapshot) :
    Preserves P (InventorySnapshotRepository.save householdId snapshot) := by
  rw [InventorySnapshotRepository.save]
  split
  · exact .throw _
  · exact (hP.clear householdId).bind fun _ => .forM fun row _ => hP.insertSnapshotRow row

theorem KeptByStatements.confirm (householdId uploadId : UUID) (t : Instant) :
    Preserves P (ReceiptUploadRepository.confirm householdId uploadId t) := by
  intro db _ db' h hd
  cases hr : ReceiptUploadRepository.row db.uploads householdId uploadId with
  | error e => cases hd.symm.trans (confirm_of_error t hr)
  | ok found =>
    cases found with
    | none => cases hd.symm.trans (confirm_of_none t hr); exact h
    | some row =>
      by_cases hc : row.confirmedAt = none
      · rcases confirm_of_unconfirmed t hr hc with ⟨-, hs⟩ | ⟨c, -, hs⟩
        · cases hd.symm.trans hs
          exact hP.updateConfirmedAt uploadId t db h
        · cases hd.symm.trans hs
      · cases hd.symm.trans (confirm_of_confirmed t hr hc)
        exact h

variable [UnicodeTables]

theorem KeptByStatements.appendMany (householdId : UUID) (now : Instant)
    (events : List (UUID × NewInventoryEvent)) :
    Preserves P (InventoryEventRepository.appendMany householdId now events) :=
  Preserves.bind (.forM fun row _ => hP.insertEvent row) fun _ => .pure _

theorem KeptByStatements.append (householdId : UUID) (now : Instant) (id : UUID)
    (event : NewInventoryEvent) :
    Preserves P (InventoryEventRepository.append householdId now id event) := by
  refine (hP.appendMany householdId now _).bind fun appended => ?_
  cases appended with
  | nil => exact .throw _
  | cons e _ => exact .pure e

theorem KeptByStatements.appendIfNew (householdId : UUID) (now : Instant) (id : UUID)
    (event : NewInventoryEvent) :
    Preserves P (InventoryEventRepository.appendIfNew householdId now id event) := by
  refine (hP.insertEventIfNew _).bind fun created => ?_
  cases created with
  | true => exact .pure _
  | false =>
    refine Preserves.get.bind fun db => ?_
    rcases InventoryEventRepository.getByIdempotencyKey db.events householdId
      event.idempotencyKey with e | _ | existing
    · exact .throw e
    · exact .throw _
    · exact .pure _

/-- What every statement keeps is kept by every operation. -/
theorem KeptByStatements.run (householdId : UUID) (operation : Operation) :
    Preserves P (operation.run householdId) := by
  have hsave := hP.save householdId
  cases operation with
  | append now id event => exact (hP.append _ now id event).bind fun _ => .pure _
  | appendMany now events => exact (hP.appendMany _ now events).bind fun _ => .pure _
  | appendIfNew now id event => exact (hP.appendIfNew _ now id event).bind fun _ => .pure _
  | eventsKnownAsOf | eventsKnownBetween | countKnownAsOf | latestRecordedAt | productsKnownAsOf
  | getSnapshot | unconfirmed => exact Preserves.get.bind fun _ => .pure _
  | getEvent | getByIdempotencyKey | getUpload =>
    exact Preserves.get.bind fun _ => (Operation.raise_preserves _).bind fun _ => .pure _
  | projectKnownAsOf asOf => exact (projectKnownAsOf_preserves asOf).bind fun _ => .pure _
  | rebuild asOf => exact (rebuild_preserves hsave asOf).bind fun _ => .pure _
  | advance asOf => exact (advance_preserves hsave asOf).bind fun _ => .pure _
  | save snapshot => exact (hsave snapshot).bind fun _ => .pure _
  | clear => exact (hP.clear householdId).bind fun _ => .pure _
  | recordRequest => exact ((hP.insertUpload _).bind fun _ => .pure _).bind fun _ => .pure _
  | confirm uploadId t => exact (hP.confirm _ uploadId t).bind fun _ => .pure _

end Statements

section References

/-- A later state of the tables: the log has grown, and every reference holds. -/
structure Grown (db₀ db : Db) : Prop where
  households : db.households = db₀.households
  products : db.products = db₀.products
  events : db₀.events <+: db.events
  references : db.Referential

theorem Grown.addEvent {db₀ db : Db} {row : InventoryEventRow} (h : Grown db₀ db)
    (hrow : Admissible db row) : Grown db₀ (db.addEvents [row]) where
  households := h.households
  products := h.products
  events := h.events.trans (List.prefix_append ..)
  references := by
    have hr := violated_eq_none_iff.mp hrow.referenceChecks
    simp only [InventoryEventRow.referenceChecks, List.forall_mem_cons, decide_eq_true_eq] at hr
    refine ⟨?_, h.references.snapshots, h.references.uploads⟩
    exact List.forall_mem_append.mpr
      ⟨h.references.events, List.forall_mem_singleton.mpr ⟨hr.1, hr.2.1⟩⟩

theorem Grown.addSnapshotRow {db₀ db : Db} {row : InventorySnapshotRow} (h : Grown db₀ db)
    (hrow : violated (row.tableChecks db) = none) : Grown db₀ (db.addSnapshotRows [row]) where
  households := h.households
  products := h.products
  events := h.events
  references := by
    have hr := violated_eq_none_iff.mp hrow
    simp only [InventorySnapshotRow.tableChecks, List.forall_mem_cons, decide_eq_true_eq] at hr
    refine ⟨h.references.events, ?_, h.references.uploads⟩
    exact List.forall_mem_append.mpr
      ⟨h.references.snapshots, List.forall_mem_singleton.mpr ⟨hr.2.2.2.1, hr.2.2.2.2.1⟩⟩

theorem Grown.addUpload {db₀ db : Db} {row : ReceiptUploadRow} (h : Grown db₀ db)
    (hrow : violated (row.tableChecks db) = none) : Grown db₀ (db.addUpload row) where
  households := h.households
  products := h.products
  events := h.events
  references := by
    have hr := violated_eq_none_iff.mp hrow
    simp only [ReceiptUploadRow.tableChecks, List.forall_mem_cons, decide_eq_true_eq] at hr
    refine ⟨h.references.events, h.references.snapshots, ?_⟩
    exact List.forall_mem_append.mpr
      ⟨h.references.uploads, List.forall_mem_singleton.mpr hr.2.2.1⟩

theorem keptByStatements_grown (db₀ : Db) : KeptByStatements (Grown db₀) where
  insertEvent row := by
    intro db _ db' h hi
    rcases insertEvent_cases row db with ⟨hrow, hr⟩ | ⟨c, hr⟩
    · cases hi.symm.trans hr
      exact h.addEvent hrow
    · cases hi.symm.trans hr
  insertEventIfNew row := by
    intro db _ db' h hi
    rcases insertEventIfNew_cases row db with ⟨hrow, hr⟩ | ⟨-, hr⟩ | ⟨c, -, hr⟩
    · cases hi.symm.trans hr
      exact h.addEvent hrow
    · cases hi.symm.trans hr
      exact h
    · cases hi.symm.trans hr
  clear householdId := by
    rintro db _ _ h ⟨⟩
    exact ⟨h.households, h.products, h.events, h.references.events,
      fun row hm => h.references.snapshots row (List.mem_of_mem_filter hm), h.references.uploads⟩
  insertSnapshotRow row := by
    intro db _ db' h hi
    rcases insertSnapshotRow_cases row db with hr | ⟨c, hr⟩
    · cases hi.symm.trans hr
      exact h.addSnapshotRow (checks_of_insertSnapshotRow hr).2
    · cases hi.symm.trans hr
  insertUpload row := by
    intro db _ db' h hi
    rcases insertUpload_cases row db with ⟨hrow, hr⟩ | ⟨c, hr⟩
    · cases hi.symm.trans hr
      exact h.addUpload hrow
    · cases hi.symm.trans hr
  updateConfirmedAt id t db h := by
    refine ⟨h.households, h.products, h.events, h.references.events, h.references.snapshots, ?_⟩
    intro row hm
    obtain ⟨r, hr, rfl⟩ := List.mem_map.mp hm
    have hid := h.references.uploads r hr
    dsimp only
    split <;> exact hid

end References

section Migrations

namespace Schema

variable (schema : Schema)

def others : List HouseholdRow := schema.households.filter fun row => row.id ≠ placeholderId

def HasPlaceholder : Prop := placeholderId ∈ schema.households.map (·.id)

def Referenced : Prop := ∃ row ∈ schema.events, row.householdId = placeholderId

instance : Decidable schema.HasPlaceholder := inferInstanceAs (Decidable (_ ∈ _))

instance : Decidable schema.Referenced := inferInstanceAs (Decidable (∃ _ ∈ _, _))

def withPlaceholder : Schema :=
  if schema.HasPlaceholder then schema
  else { schema with households := schema.households ++ [placeholder] }

def vacated : Schema :=
  if schema.Referenced then schema else schema.withoutHousehold placeholderId

variable {schema}

theorem insertHousehold_placeholder :
    insertHousehold placeholder schema = .ok ((), schema.withPlaceholder) := by
  have hchecks : violated placeholder.rowChecks = none := by decide +kernel
  have hi : HouseholdRepository.insertIfNew placeholder schema.households =
      .ok (schema.households.all fun r => r.id ≠ placeholderId) := by
    rw [HouseholdRepository.insertIfNew, hchecks]
    rfl
  rw [insertHousehold, get_bind, hi, withPlaceholder]
  by_cases h : schema.HasPlaceholder
  · have hall : (schema.households.all fun r => r.id ≠ placeholderId) = false := by
      simpa [HasPlaceholder] using h
    rw [hall, if_pos h]
    rfl
  · have hall : (schema.households.all fun r => r.id ≠ placeholderId) = true := by
      simpa [HasPlaceholder] using h
    rw [hall, if_neg h]
    rfl

theorem any_referenced :
    (schema.events.any fun row => row.householdId = placeholderId) = true ↔ schema.Referenced := by
  simp [Referenced]

theorem deleteHousehold_placeholder (hr : schema.db.Referential) (hu : schema.uploads = none)
    (h : ¬ schema.Referenced) :
    ∃ n, deleteHousehold placeholderId schema = .ok (n, schema.withoutHousehold placeholderId) := by
  rw [deleteHousehold, get_bind]
  by_cases hc : schema.households.countP (fun row => row.id = placeholderId) = 0
  · -- there is no such household, and then nothing is projected for it
    refine ⟨0, ?_⟩
    rw [List.countP_eq_zero] at hc
    have hhouseholds : schema.households.filter (fun row => row.id ≠ placeholderId) =
        schema.households := by
      rw [List.filter_eq_self]
      simpa using hc
    have hsnapshots : schema.snapshots.filter (fun row => row.householdId ≠ placeholderId) =
        schema.snapshots := by
      rw [List.filter_eq_self]
      intro row hm
      obtain ⟨r, hrm, he⟩ := List.mem_map.mp (hr.snapshots row hm).1
      have := hc r hrm
      simpa [← he] using this
    have hsame : schema.withoutHousehold placeholderId = schema := by
      rw [withoutHousehold, hhouseholds, hsnapshots]
    rw [hsame, if_pos (List.countP_eq_zero.mpr hc)]
    rfl
  · refine ⟨schema.households.countP fun row => row.id = placeholderId, ?_⟩
    rw [if_neg hc, if_neg (any_referenced.not.mpr h), hu]
    rfl

theorem downgrade_placeholderHousehold (hr : schema.db.Referential) (hu : schema.uploads = none) :
    PlaceholderHousehold.downgrade schema = .ok (none, schema.vacated) := by
  rw [PlaceholderHousehold.downgrade, get_bind, vacated]
  by_cases h : schema.Referenced
  · rw [if_pos (any_referenced.mpr h), if_pos h]
    rfl
  · obtain ⟨n, hd⟩ := deleteHousehold_placeholder hr hu h
    rw [if_neg (any_referenced.not.mpr h), if_neg h, bind_of_ok hd]
    rfl

theorem upgrade_dropPlaceholder (hr : schema.db.Referential) (hu : schema.uploads = none) :
    ∃ notice, DropPlaceholder.upgrade schema = .ok (notice, schema.vacated) := by
  rw [DropPlaceholder.upgrade, get_bind, vacated]
  by_cases h : schema.Referenced
  · have hc : schema.events.countP (fun row => row.householdId = placeholderId) ≠ 0 := by
      rw [ne_eq, List.countP_eq_zero]
      simpa [Referenced] using h
    rw [if_pos hc, if_pos h]
    exact ⟨_, rfl⟩
  · have hc : ¬ schema.events.countP (fun row => row.householdId = placeholderId) ≠ 0 := by
      rw [ne_eq, not_not, List.countP_eq_zero]
      simpa [Referenced] using h
    obtain ⟨n, hd⟩ := deleteHousehold_placeholder hr hu h
    rw [if_neg hc, if_neg h, bind_of_ok hd]
    exact ⟨_, rfl⟩

theorem withPlaceholder_events : schema.withPlaceholder.events = schema.events := by
  rw [withPlaceholder]
  split <;> rfl

theorem withPlaceholder_uploads : schema.withPlaceholder.uploads = schema.uploads := by
  rw [withPlaceholder]
  split <;> rfl

theorem vacated_events : schema.vacated.events = schema.events := by
  rw [vacated]
  split <;> rfl

theorem vacated_uploads : schema.vacated.uploads = schema.uploads := by
  rw [vacated]
  split <;> rfl

theorem others_withPlaceholder : schema.withPlaceholder.others = schema.others := by
  rw [withPlaceholder]
  split
  · rfl
  · simp [others, placeholder]

theorem others_vacated : schema.vacated.others = schema.others := by
  rw [vacated]
  split
  · rfl
  · simp [others, withoutHousehold]

theorem hasPlaceholder_withPlaceholder : schema.withPlaceholder.HasPlaceholder := by
  rw [withPlaceholder]
  split
  next h => exact h
  next => simp [HasPlaceholder, placeholder]

/-- What is left of the placeholder is there for its events. -/
theorem hasPlaceholder_vacated_iff (hr : schema.db.Referential) :
    schema.vacated.HasPlaceholder ↔ schema.vacated.Referenced := by
  rw [vacated]
  split
  next h =>
    refine ⟨fun _ => h, fun _ => ?_⟩
    obtain ⟨row, hm, hid⟩ := h
    rw [HasPlaceholder, ← hid]
    exact (hr.events row hm).1
  next h =>
    refine ⟨fun hp => ?_, fun he => absurd he h⟩
    obtain ⟨row, hm, hid⟩ := List.mem_map.mp hp
    exact absurd hid (of_decide_eq_true (List.mem_filter.mp hm).2)

theorem referential_withPlaceholder (hr : schema.db.Referential) :
    schema.withPlaceholder.db.Referential := by
  rw [withPlaceholder]
  split
  · exact hr
  · have hmem : ∀ id ∈ schema.households.map (·.id),
        id ∈ (schema.households ++ [placeholder]).map (·.id) := by
      intro id hm
      rw [List.map_append]
      exact List.mem_append_left _ hm
    exact ⟨fun row hm => (hr.events row hm).imp_left (hmem _),
      fun row hm => (hr.snapshots row hm).imp_left (hmem _),
      fun row hm => hmem _ (hr.uploads row hm)⟩

theorem referential_vacated (hr : schema.db.Referential) (hu : schema.uploads = none) :
    schema.vacated.db.Referential := by
  rw [vacated]
  split
  · exact hr
  next h =>
    have hmem : ∀ id ∈ schema.households.map (·.id), id ≠ placeholderId →
        id ∈ (schema.households.filter fun row => row.id ≠ placeholderId).map (·.id) := by
      intro id hm hid
      obtain ⟨row, hrow, rfl⟩ := List.mem_map.mp hm
      exact List.mem_map_of_mem (List.mem_filter.mpr ⟨hrow, decide_eq_true hid⟩)
    refine ⟨fun row hm => ?_, fun row hm => ?_, ?_⟩
    · exact (hr.events row hm).imp_left fun hid => hmem _ hid fun he => h ⟨row, hm, he⟩
    · obtain ⟨hm, hid⟩ := List.mem_filter.mp hm
      exact (hr.snapshots row hm).imp_left fun hh => hmem _ hh (of_decide_eq_true hid)
    · simp [db, withoutHousehold, hu]

end Schema

end Migrations

section Walks

variable {first s s' : Deployment}

/-- The foreign keys hold, and `receipt_uploads` is there at its revision. -/
structure Deployment.Consistent (s : Deployment) : Prop where
  references : s.schema.db.Referential
  uploads : s.schema.uploads.isSome ↔ s.revision = .receiptUploads

theorem Deployment.Consistent.uploads_eq_none (hs : s.Consistent)
    (h : s.revision ≠ .receiptUploads) : s.schema.uploads = none := by
  rw [← Option.not_isSome_iff_eq_none]
  exact mt hs.uploads.mp h

/-- The placeholder is there at its revision, if it was there at first. -/
def Seeded (first s : Deployment) : Prop :=
  (first.revision = .placeholderHousehold → first.schema.HasPlaceholder) →
    s.revision = .placeholderHousehold → s.schema.HasPlaceholder

structure Migrated (s : Deployment) (direction : Direction) (s' : Deployment) : Prop where
  consistent : s'.Consistent
  seeded : s'.revision = .placeholderHousehold → s'.schema.HasPlaceholder
  events : s'.schema.events = s.schema.events
  others : s'.schema.others = s.schema.others
  dropped : s.revision = .placeholderHousehold → direction = .upgrade →
    s'.revision = .dropPlaceholder ∧ (s'.schema.HasPlaceholder ↔ s'.schema.Referenced)

theorem migrated_withPlaceholder {schema : Schema} {direction : Direction} {revision : Revision}
    (hs : Deployment.Consistent ⟨revision, schema⟩) (hu : revision ≠ .receiptUploads)
    (hr : revision ≠ .placeholderHousehold) :
    Migrated ⟨revision, schema⟩ direction ⟨.placeholderHousehold, schema.withPlaceholder⟩ where
  consistent := by
    have hnone : schema.uploads = none := hs.uploads_eq_none hu
    refine ⟨Schema.referential_withPlaceholder hs.references, ?_⟩
    simp [Schema.withPlaceholder_uploads, hnone]
  seeded _ := Schema.hasPlaceholder_withPlaceholder
  events := Schema.withPlaceholder_events
  others := Schema.others_withPlaceholder
  dropped h := absurd h hr

theorem migrated_vacated {schema : Schema} {direction : Direction} {revision : Revision}
    (hs : Deployment.Consistent ⟨.placeholderHousehold, schema⟩)
    (hu : revision ≠ .receiptUploads) (hr : revision ≠ .placeholderHousehold)
    (hup : direction = .upgrade → revision = .dropPlaceholder) :
    Migrated ⟨.placeholderHousehold, schema⟩ direction ⟨revision, schema.vacated⟩ where
  consistent := by
    have hnone : schema.uploads = none := hs.uploads_eq_none (by simp)
    refine ⟨Schema.referential_vacated hs.references hnone, ?_⟩
    simpa [Schema.vacated_uploads, hnone] using hu
  seeded h := absurd h hr
  events := Schema.vacated_events
  others := Schema.others_vacated
  dropped _ hd := ⟨hup hd, Schema.hasPlaceholder_vacated_iff hs.references⟩

theorem migrated_uploads {schema : Schema} {direction : Direction} {revision revision' : Revision}
    {uploads : Option (List ReceiptUploadRow)} (hs : Deployment.Consistent ⟨revision, schema⟩)
    (hrows : uploads.getD [] = []) (hu : uploads.isSome ↔ revision' = .receiptUploads)
    (hr : revision ≠ .placeholderHousehold) (hr' : revision' ≠ .placeholderHousehold) :
    Migrated ⟨revision, schema⟩ direction ⟨revision', { schema with uploads }⟩ where
  consistent := by
    refine ⟨⟨hs.references.events, hs.references.snapshots, ?_⟩, hu⟩
    simp [Schema.db, hrows]
  seeded h := absurd h hr'
  events := rfl
  others := rfl
  dropped h := absurd h hr

theorem migrate_eq {revision revision' : Revision} {schema schema' : Schema}
    {direction : Direction} {migration : Migration (Option Notice)} {notice : Option Notice}
    (hr : revision.migration direction = some (migration, revision'))
    (hm : migration schema = .ok (notice, schema')) :
    Deployment.migrate ⟨revision, schema⟩ direction =
      some (.ok (notice, ⟨revision', schema'⟩)) := by
  rw [Deployment.migrate, hr, Option.map_some]
  dsimp only
  rw [hm]
  rfl

theorem migrate_withPlaceholder {schema : Schema} :
    (do insertHousehold placeholder; return none : Migration (Option Notice)) schema =
      .ok (none, schema.withPlaceholder) :=
  bind_of_ok Schema.insertHousehold_placeholder

/-- From a consistent database no migration fails. -/
theorem migrate_of_consistent {direction : Direction} (hs : s.Consistent)
    {outcome : Except MigrationFailure (Option Notice × Deployment)}
    (h : s.migrate direction = some outcome) :
    ∃ notice s', outcome = .ok (notice, s') ∧ Migrated s direction s' := by
  obtain ⟨revision, schema⟩ := s
  cases revision with
  | kitchenRecord =>
    cases direction with
    | upgrade =>
      cases (migrate_eq rfl migrate_withPlaceholder).symm.trans h
      exact ⟨_, _, rfl, migrated_withPlaceholder hs (by simp) (by simp)⟩
    | downgrade => cases h
  | placeholderHousehold =>
    have hnone : schema.uploads = none := hs.uploads_eq_none (by simp)
    cases direction with
    | upgrade =>
      obtain ⟨notice, hm⟩ := Schema.upgrade_dropPlaceholder hs.references hnone
      cases (migrate_eq rfl hm).symm.trans h
      exact ⟨_, _, rfl, migrated_vacated hs (by simp) (by simp) fun _ => rfl⟩
    | downgrade =>
      have hm := Schema.downgrade_placeholderHousehold hs.references hnone
      cases (migrate_eq rfl hm).symm.trans h
      exact ⟨_, _, rfl, migrated_vacated hs (by simp) (by simp) (by simp)⟩
  | dropPlaceholder =>
    have hnone : schema.uploads = none := hs.uploads_eq_none (by simp)
    cases direction with
    | upgrade =>
      have hm : ReceiptUploads.upgrade schema = .ok (none, { schema with uploads := some [] }) := by
        rw [ReceiptUploads.upgrade, get_bind, hnone]
        rfl
      cases (migrate_eq rfl hm).symm.trans h
      exact ⟨_, _, rfl, migrated_uploads hs rfl (by simp) (by simp) (by simp)⟩
    | downgrade =>
      cases (migrate_eq rfl migrate_withPlaceholder).symm.trans h
      exact ⟨_, _, rfl, migrated_withPlaceholder hs (by simp) (by simp)⟩
  | receiptUploads =>
    cases direction with
    | upgrade => cases h
    | downgrade =>
      obtain ⟨rows, hrows⟩ : ∃ rows, schema.uploads = some rows :=
        Option.isSome_iff_exists.mp (hs.uploads.mpr rfl)
      have hm : ReceiptUploads.downgrade schema = .ok (none, { schema with uploads := none }) := by
        rw [ReceiptUploads.downgrade, get_bind, hrows]
        rfl
      cases (migrate_eq rfl hm).symm.trans h
      exact ⟨_, _, rfl, migrated_uploads hs rfl (by simp) (by simp) (by simp)⟩

end Walks

section Writes

variable {schema schema' : Schema} {first s s' : Deployment}

/-- What a write does: the households and the log grow, and the references hold. -/
structure Extends (schema schema' : Schema) : Prop where
  households : schema.households <+: schema'.households
  events : schema.events <+: schema'.events
  uploads : schema'.uploads.isSome = schema.uploads.isSome
  references : schema'.db.Referential

/-- More households and more products support the same references. -/
theorem extends_of_prefix {households : List HouseholdRow} {products : List UUID}
    (hr : schema.db.Referential) (hh : schema.households <+: households)
    (hp : schema.products <+: products) : Extends schema { schema with households, products } where
  households := hh
  events := List.prefix_rfl
  uploads := rfl
  references := by
    have hmem : ∀ id ∈ schema.households.map (·.id), id ∈ households.map (·.id) :=
      fun id hm => (hh.map _).subset hm
    exact ⟨fun row hm => (hr.events row hm).imp (hmem _) fun h => hp.subset h,
      fun row hm => (hr.snapshots row hm).imp (hmem _) fun h => hp.subset h,
      fun row hm => hmem _ (hr.uploads row hm)⟩

theorem prefix_of_ensure {rows rows' : List HouseholdRow} {row : HouseholdRow} {created : Bool}
    (h : HouseholdRepository.ensure rows row = .ok (created, rows')) : rows <+: rows' := by
  rw [HouseholdRepository.ensure] at h
  split at h
  · cases h
  · cases h
    exact List.prefix_rfl
  · split at h
    · cases h
    · cases h
      split
      · exact List.prefix_append ..
      · exact List.prefix_rfl

variable [UnicodeTables]

theorem extends_of_call (hr : schema.db.Referential) (call : Call) :
    Extends schema
      (schema.store ((call.operation.run call.householdId).commit schema.db)) := by
  have hg : Grown schema.db ((call.operation.run call.householdId).commit schema.db) :=
    ((keptByStatements_grown schema.db).run call.householdId call.operation).commit
      ⟨rfl, rfl, List.prefix_rfl, hr⟩
  generalize (call.operation.run call.householdId).commit schema.db = db at hg
  refine ⟨List.prefix_rfl, hg.events, by simp [Schema.store], ?_⟩
  have hh : ∀ id ∈ db.households, id ∈ schema.db.households := fun id hm => hg.households ▸ hm
  have hp : ∀ id ∈ db.products, id ∈ schema.db.products := fun id hm => hg.products ▸ hm
  refine ⟨fun row hm => ?_, fun row hm => ?_, fun row hm => ?_⟩
  · exact (hg.references.events row hm).imp (hh _) (hp _)
  · exact (hg.references.snapshots row hm).imp (hh _) (hp _)
  · change row ∈ (schema.uploads.map fun _ => db.uploads).getD [] at hm
    cases hu : schema.uploads with
    | none => rw [hu] at hm; cases hm
    | some rows =>
      rw [hu] at hm
      exact hh _ (hg.references.uploads row hm)

theorem extends_of_write {w : Write} (hr : schema.db.Referential)
    (h : schema.write w = some schema') : Extends schema schema' := by
  cases w with
  | call call =>
    rw [Schema.write, Option.ite_none_left_eq_some] at h
    obtain ⟨-, ⟨⟩⟩ := h
    exact extends_of_call hr call
  | ensure row =>
    rw [Schema.write] at h
    split at h
    next created households he =>
      cases h
      exact extends_of_prefix hr (prefix_of_ensure he) List.prefix_rfl
    next => cases h
  | product id =>
    rw [Schema.write, Option.ite_none_left_eq_some] at h
    obtain ⟨-, ⟨⟩⟩ := h
    exact extends_of_prefix hr List.prefix_rfl (List.prefix_append ..)

structure Moved (first s s' : Deployment) : Prop where
  consistent : s'.Consistent
  seeded : Seeded first s → Seeded first s'
  events : s.schema.events <+: s'.schema.events
  others : s.schema.others <+: s'.schema.others

theorem moved_of_step {action : DeploymentAction} (hs : s.Consistent)
    (h : s.step action = some s') : Moved first s s' := by
  cases action with
  | migrate direction =>
    obtain ⟨outcome, hm, rfl⟩ := Option.map_eq_some_iff.mp h
    obtain ⟨notice, s₁, rfl, hmoved⟩ := migrate_of_consistent hs hm
    exact ⟨hmoved.consistent, fun _ _ => hmoved.seeded, hmoved.events ▸ List.prefix_rfl,
      hmoved.others ▸ List.prefix_rfl⟩
  | write w =>
    obtain ⟨schema, hw, rfl⟩ := Option.map_eq_some_iff.mp h
    have hext := extends_of_write hs.references hw
    refine ⟨⟨hext.references, ?_⟩, fun hseeded hfirst hr => ?_, hext.events,
      hext.households.filter _⟩
    · rw [hext.uploads]
      exact hs.uploads
    · exact (hext.households.map _).subset (hseeded hfirst hr)

/-- The kitchen record wherever a walk is: what held at first, and what every next step does. -/
structure RecordSafe (first s : Deployment) : Prop where
  references : s.schema.db.Referential
  events : first.schema.events <+: s.schema.events
  others : first.schema.others <+: s.schema.others
  /-- No migration fails. -/
  completes : ∀ direction outcome, s.migrate direction = some outcome →
    ∃ notice s', outcome = .ok (notice, s')
  /-- A migration leaves the log and the other households as they are. -/
  migrations : ∀ direction s', s.step (.migrate direction) = some s' →
    s'.schema.events = s.schema.events ∧ s'.schema.others = s.schema.others
  /-- A write of the application adds to them. -/
  writes : ∀ w s', s.step (.write w) = some s' →
    s.schema.events <+: s'.schema.events ∧ s.schema.households <+: s'.schema.households
  seeded : Seeded first s
  /-- A migration to the placeholder's revision finds it there or inserts it. -/
  arrives : ∀ direction s', s.step (.migrate direction) = some s' →
    s'.revision = .placeholderHousehold → s'.schema.HasPlaceholder
  dropped : ∀ s', s.revision = .placeholderHousehold → s.step (.migrate .upgrade) = some s' →
    s'.revision = .dropPlaceholder ∧ (s'.schema.HasPlaceholder ↔ s'.schema.Referenced)

/-- No walk over the revisions endangers the kitchen record. -/
theorem walk_recordSafe (hfirst : first.Consistent) (h : Reachable Deployment.step first s) :
    RecordSafe first s := by
  have hs : s.Consistent ∧ Seeded first s ∧ first.schema.events <+: s.schema.events ∧
      first.schema.others <+: s.schema.others := by
    refine h.invariant (I := fun s => s.Consistent ∧ Seeded first s ∧
      first.schema.events <+: s.schema.events ∧ first.schema.others <+: s.schema.others)
      ⟨hfirst, fun hf => hf, List.prefix_rfl, List.prefix_rfl⟩ ?_
    rintro s action s' ⟨hs, hseeded, hevents, hothers⟩ - hstep
    have hmoved : Moved first s s' := moved_of_step hs hstep
    exact ⟨hmoved.consistent, hmoved.seeded hseeded, hevents.trans hmoved.events,
      hothers.trans hmoved.others⟩
  obtain ⟨hs, hseeded, hevents, hothers⟩ := hs
  have migrated : ∀ {direction : Direction} {s' : Deployment},
      s.step (.migrate direction) = some s' → Migrated s direction s' := by
    intro direction s' hstep
    obtain ⟨outcome, hm, rfl⟩ := Option.map_eq_some_iff.mp hstep
    obtain ⟨notice, s₁, rfl, hmoved⟩ := migrate_of_consistent hs hm
    exact hmoved
  refine ⟨hs.references, hevents, hothers, fun direction outcome hm => ?_,
    fun direction s' hstep => ?_, fun w s' hstep => ?_, hseeded,
    fun direction s' hstep => (migrated hstep).seeded, fun s' hr hstep => ?_⟩
  · obtain ⟨notice, s', ho, -⟩ := migrate_of_consistent hs hm
    exact ⟨notice, s', ho⟩
  · exact ⟨(migrated hstep).events, (migrated hstep).others⟩
  · obtain ⟨schema, hw, rfl⟩ := Option.map_eq_some_iff.mp hstep
    have hext := extends_of_write hs.references hw
    exact ⟨hext.events, hext.households⟩
  · exact (migrated hstep).dropped hr rfl

end Writes

section Sample

def firstDeployment : Deployment where
  revision := .kitchenRecord
  schema :=
    { households := [⟨1, "Flat", "Europe/London"⟩]
      products := [7]
      events := []
      snapshots := []
      uploads := none }

/-- Up and down again, with an event recorded for the placeholder on the way up. -/
def upAndDown : List DeploymentAction :=
  [.migrate .upgrade, .write (.call ⟨placeholderId, .append 100 1 (purchase "legacy-1" 0)⟩),
    .migrate .upgrade, .migrate .upgrade,
    .write (.call ⟨1, .recordRequest 5 "blob" "image/jpeg" 0 300⟩),
    .migrate .downgrade, .migrate .downgrade, .migrate .downgrade]

theorem walk_recordSafe_upAndDown :
    letI := asciiTables
    ∃ s, exec (guarded Deployment.step unrestricted) firstDeployment upAndDown = some s ∧
      s.revision = .kitchenRecord ∧ s.schema.events.map (·.idempotencyKey) = ["legacy-1"] ∧
      s.schema.households.map (·.id) = [1, placeholderId] ∧ RecordSafe firstDeployment s := by
  let _ := asciiTables
  have h : (exec (guarded Deployment.step unrestricted) firstDeployment upAndDown).map (fun s =>
      (s.revision, s.schema.events.map (·.idempotencyKey), s.schema.households.map (·.id))) =
      some (.kitchenRecord, ["legacy-1"], [1, placeholderId]) := by
    decide +kernel
  obtain ⟨s, hr, hs⟩ := Option.map_eq_some_iff.mp h
  simp only [Prod.mk.injEq] at hs
  have hfirst : firstDeployment.Consistent :=
    ⟨⟨by decide, by decide, by decide⟩, by decide⟩
  exact ⟨s, hr, hs.1, hs.2.1, hs.2.2, walk_recordSafe hfirst (Reach.of_exec hr)⟩

end Sample

end KitchenSense
