import KitchenSense.Foundations.Runs
import KitchenSense.Projection.Incremental
import KitchenSense.Repositories.Effects

/-! # Incremental projection refines full replay

Over any run of calls that append on time, the stored rows stay replays of the
log and `advance` answers as a full replay would.
-/

namespace KitchenSense

open InventoryEventRepository InventorySnapshotRepository

section Runs

variable [UnicodeTables] {db : Db} {householdId : UUID} {asOf : Instant} {S : InventorySnapshot}

/-- The calls that write the log or the stored projection. -/
inductive ProjectionCall
  | append (householdId : UUID) (now : Instant) (id : UUID) (event : NewInventoryEvent)
  | appendMany (householdId : UUID) (now : Instant) (events : List (UUID × NewInventoryEvent))
  | appendIfNew (householdId : UUID) (now : Instant) (id : UUID) (event : NewInventoryEvent)
  | rebuild (householdId : UUID) (asOf : Instant)
  | advance (householdId : UUID) (asOf : Instant)
  | clear (householdId : UUID)

namespace ProjectionCall

def run (db : Db) : ProjectionCall → Option Db
  | .append householdId now id event =>
    some ((InventoryEventRepository.append householdId now id event).commit db)
  | .appendMany householdId now events =>
    some ((InventoryEventRepository.appendMany householdId now events).commit db)
  | .appendIfNew householdId now id event =>
    some ((InventoryEventRepository.appendIfNew householdId now id event).commit db)
  | .rebuild householdId asOf =>
    some ((InventorySnapshotRepository.rebuild householdId asOf).commit db)
  | .advance householdId asOf =>
    some ((InventorySnapshotRepository.advance householdId asOf).commit db)
  | .clear householdId => some ((InventorySnapshotRepository.clear householdId).commit db)

def appended : ProjectionCall → List InventoryEventRow
  | .append householdId now id event => [toValues householdId id now event]
  | .appendMany householdId now events => events.map fun e => toValues householdId e.1 now e.2
  | .appendIfNew householdId now id event => [toValues householdId id now event]
  | _ => []

def OnTime (call : ProjectionCall) (db : Db) : Prop := ∀ row ∈ call.appended, AfterStored db row

instance (db : Db) (call : ProjectionCall) : Decidable (call.OnTime db) :=
  inferInstanceAs (Decidable (∀ row ∈ call.appended, AfterStored db row))

end ProjectionCall

/-- A valid log under projections that are all replays of it. -/
structure Consistent (db : Db) : Prop where
  valid : db.Valid
  stored : ∀ householdId, StoredReplay db householdId

theorem Consistent.addEvent {row : InventoryEventRow} (hc : Consistent db)
    (ha : Admissible db row) (hr : AfterStored db row) : Consistent (db.addEvents [row]) where
  valid := hc.valid.addEvent ha
  stored h := storedReplay_addEvents (by simpa using hr) (hc.stored h)

theorem Consistent.replace (hc : Consistent db) (h : IsReplay db.events householdId asOf S) :
    Consistent (db.replaceSnapshot householdId (toRows S)) where
  valid := hc.valid.of_events_eq rfl rfl rfl
  stored := storedReplay_replace h hc.stored

/-- A batch of events is appended as a whole or refused as a whole. -/
theorem insertEvents_cases (rows : List InventoryEventRow) (db : Db)
    (hr : ∀ row ∈ rows, AfterStored db row) (hc : Consistent db) :
    (forM rows insertEvent db = .ok ((), db.addEvents rows) ∧ Consistent (db.addEvents rows)) ∨
      ∃ c, forM rows insertEvent db = .error (.event c) := by
  induction rows generalizing db with
  | nil => left; simpa [Db.addEvents] using hc
  | cons row rows ih =>
    obtain ⟨hrow, hrows⟩ := List.forall_mem_cons.mp hr
    rw [List.forM_cons]
    rcases insertEvent_cases row db with ⟨ha, h⟩ | ⟨c, h⟩
    · rw [Transaction.bind_of_ok h]
      have hadd : (db.addEvents [row]).addEvents rows = db.addEvents (row :: rows) := by
        simp [Db.addEvents]
      rw [← hadd]
      exact ih _ hrows (hc.addEvent ha hrow)
    · exact .inr ⟨c, Transaction.bind_of_error h⟩

theorem Consistent.commit {α : Type} {x : Tx α} (hc : Consistent db)
    (h : (∃ a db', x db = .ok (a, db') ∧ Consistent db') ∨ ∃ e, x db = .error e) :
    Consistent (x.commit db) := by
  rcases h with ⟨a, db', h, hc'⟩ | ⟨e, h⟩
  · rwa [Transaction.commit_of_ok h]
  · rwa [Transaction.commit_of_error h]

theorem Consistent.commit_stores {x : Tx InventorySnapshot} (hc : Consistent db)
    (hr : IsReplay db.events householdId asOf S)
    (h : x db = .ok (S, db) ∨ StoresOrRefused householdId S db (x db)) :
    Consistent (x.commit db) := by
  rcases h with h | h | ⟨c, h⟩
  · exact hc.commit (.inl ⟨S, db, h, hc⟩)
  · exact hc.commit (.inl ⟨S, _, h, hc.replace hr⟩)
  · exact hc.commit (.inr ⟨_, h⟩)

theorem Consistent.appendMany {now : Instant} (hc : Consistent db)
    (events : List (UUID × NewInventoryEvent))
    (hr : ∀ row ∈ events.map fun e => toValues householdId e.1 now e.2, AfterStored db row) :
    (∃ db', InventoryEventRepository.appendMany householdId now events db =
      .ok ((events.map fun e => toValues householdId e.1 now e.2).map InventoryEventRow.toDomain,
        db') ∧ Consistent db') ∨
      ∃ c, InventoryEventRepository.appendMany householdId now events db = .error (.event c) := by
  rcases insertEvents_cases _ db hr hc with ⟨h, hc'⟩ | ⟨c, h⟩
  · exact .inl ⟨_, Transaction.bind_of_ok h, hc'⟩
  · exact .inr ⟨c, Transaction.bind_of_error h⟩

/-- Every call that appends on time keeps the log valid and the projections replays of it. -/
theorem Consistent.step {call : ProjectionCall} {db' : Db} (hc : Consistent db)
    (ht : call.OnTime db) (h : call.run db = some db') : Consistent db' := by
  cases call with
  | append householdId now id event =>
    cases h
    rcases hc.appendMany [(id, event)] ht with ⟨db', h, hc'⟩ | ⟨c, h⟩
    · exact hc.commit (.inl ⟨_, db', Transaction.bind_of_ok h, hc'⟩)
    · exact hc.commit (.inr ⟨_, Transaction.bind_of_error h⟩)
  | appendMany householdId now events =>
    cases h
    rcases hc.appendMany events ht with ⟨db', h, hc'⟩ | ⟨c, h⟩
    · exact hc.commit (.inl ⟨_, db', h, hc'⟩)
    · exact hc.commit (.inr ⟨_, h⟩)
  | appendIfNew householdId now id event =>
    cases h
    rcases appendIfNew_commit householdId now id event db with ⟨ha, hdb⟩ | ⟨-, hdb⟩
    · rw [hdb]
      exact hc.addEvent ha (ht _ (List.mem_singleton_self _))
    · rwa [hdb]
  | rebuild householdId asOf =>
    cases h
    obtain ⟨S, hr⟩ := exists_isReplay db.events householdId asOf
    exact hc.commit_stores hr (.inr (rebuild_cases hr))
  | advance householdId asOf =>
    cases h
    obtain ⟨S, hr⟩ := exists_isReplay db.events householdId asOf
    exact hc.commit_stores hr (advance_cases (hc.stored householdId) hr)
  | clear householdId =>
    cases h
    rw [Transaction.commit_of_ok clear_eq]
    exact ⟨hc.valid.of_events_eq rfl rfl rfl, storedReplay_clear hc.stored⟩

/-- The calls that project answer with the full replay, unless a value does not fit a column. -/
structure ProjectsLike (db : Db) (householdId : UUID) (asOf : Instant) (S : InventorySnapshot) :
    Prop where
  project : projectKnownAsOf householdId asOf db = .ok (S, db)
  advance : (∃ db', InventorySnapshotRepository.advance householdId asOf db = .ok (S, db')) ∨
    ¬ S.FitsColumns ∧ ∃ c, InventorySnapshotRepository.advance householdId asOf db =
      .error (.snapshot c)
  rebuild : (∃ db', InventorySnapshotRepository.rebuild householdId asOf db = .ok (S, db')) ∨
    ¬ S.FitsColumns ∧ ∃ c, InventorySnapshotRepository.rebuild householdId asOf db =
      .error (.snapshot c)

theorem IsReplay.stores_unless {x : Tx InventorySnapshot}
    (h : IsReplay db.events householdId asOf S) (hv : db.Valid)
    (hx : x db = (do save householdId S; return S : Tx _) db) :
    (∃ db', x db = .ok (S, db')) ∨ ¬ S.FitsColumns ∧ ∃ c, x db = .error (.snapshot c) := by
  by_cases hf : S.FitsColumns
  · exact .inl ⟨_, hx.trans (h.save_of_fits hv hf)⟩
  · rcases save_return_cases (isReplay_iff.mp h).1 db with hs | ⟨c, hs⟩
    · exact .inl ⟨_, hx.trans hs⟩
    · exact .inr ⟨hf, c, hx.trans hs⟩

theorem StoredReplay.projectsLike (hs : StoredReplay db householdId) (hv : db.Valid)
    (h : IsReplay db.events householdId asOf S) : ProjectsLike db householdId asOf S where
  project := projectKnownAsOf_eq h
  advance := by
    rcases advance_eq hs h with ha | ha
    · exact .inl ⟨db, ha⟩
    · exact h.stores_unless hv ha
  rebuild := h.stores_unless hv (rebuild_eq h)

/-- A household's stored rows are one replay of its log, and projecting answers with the replay. -/
theorem incremental_refines_replay {db₀ : Db} (hv : db₀.Valid) (hs : db₀.snapshots = [])
    (h : Reach ProjectionCall.run (fun db call => call.OnTime db) db₀ db)
    (householdId : UUID) (asOf : Instant) :
    StoredReplay db householdId ∧
      (∃ S, IsReplay db.events householdId asOf S ∧ ProjectsLike db householdId asOf S) ∧
      ∀ e, projectKnownAsOf householdId asOf db ≠ .error (.fold e) ∧
        InventorySnapshotRepository.advance householdId asOf db ≠ .error (.fold e) ∧
        InventorySnapshotRepository.rebuild householdId asOf db ≠ .error (.fold e) ∧
        InventorySnapshotRepository.clear householdId db ≠ .error (.fold e) := by
  have hc : Consistent db := h.invariant (I := Consistent)
    ⟨hv, fun _ => .inl (by rw [hs]; rfl)⟩ fun _ _ _ hc ht hr => hc.step ht hr
  obtain ⟨S, hr⟩ := exists_isReplay db.events householdId asOf
  have hp := (hc.stored householdId).projectsLike hc.valid hr
  refine ⟨hc.stored householdId, ⟨S, hr, hp⟩, fun e => ⟨?_, ?_, ?_, ?_⟩⟩
  · rw [hp.project]; nofun
  · rcases hp.advance with ⟨db', ha⟩ | ⟨-, c, ha⟩ <;> rw [ha] <;> nofun
  · rcases hp.rebuild with ⟨db', ha⟩ | ⟨-, c, ha⟩ <;> rw [ha] <;> nofun
  · rw [clear_eq]; nofun

end Runs

/-- A late event after an advance, and a rebuild at an earlier instant before the next one. -/
def lateEventCalls : List ProjectionCall :=
  [.advance 1 0, .append 1 3 10 (purchase "a" 3), .advance 1 5,
    .append 1 8 11 (purchase "b" 2), .rebuild 1 4, .advance 1 9]

theorem incremental_refines_replay_lateEventCalls :
    letI := asciiTables
    ∃ db, exec (guarded ProjectionCall.run fun db call => call.OnTime db) emptyKitchen
        lateEventCalls = some db ∧
      db.snapshots.map (fun row => (row.quantity, row.asOf)) = [(4000, 9)] ∧
      StoredReplay db 1 ∧ ∃ S, IsReplay db.events 1 6 S ∧ ProjectsLike db 1 6 S := by
  let _ := asciiTables
  have h : (exec (guarded ProjectionCall.run fun db call => call.OnTime db) emptyKitchen
      lateEventCalls).map (fun db => db.snapshots.map fun row => (row.quantity, row.asOf)) =
    some [(4000, 9)] := by decide
  obtain ⟨db, hr, hq⟩ := Option.map_eq_some_iff.mp h
  obtain ⟨hs, hp, -⟩ := incremental_refines_replay emptyKitchen_valid rfl (Reach.of_exec hr) 1 6
  exact ⟨db, hr, hq, hs, hp⟩

end KitchenSense
