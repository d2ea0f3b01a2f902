import KitchenSense.Projection.Store

/-! # Incremental projection refines full replay

The rows stored for a household are none, or the replay of the log at the one
instant they carry. From such rows `advance` answers with the full replay, and
storing it, clearing it or appending later events keeps them such rows.
-/

namespace KitchenSense

open InventoryEventRepository InventorySnapshotRepository

variable [UnicodeTables] {db : Db} {householdId : UUID} {asOf : Instant} {S : InventorySnapshot}

/-- The rows of a household are none, or the full replay at the instant they carry. -/
def StoredReplay (db : Db) (householdId : UUID) : Prop :=
  InventorySnapshotRepository.scopedTo db.snapshots householdId = [] ∨
    ∃ S, IsReplay db.events householdId S.asOf S ∧ S.lots ≠ [] ∧
      InventorySnapshotRepository.scopedTo db.snapshots householdId = toRows S

section Calls

theorem projectKnownAsOf_eq (h : IsReplay db.events householdId asOf S) :
    projectKnownAsOf householdId asOf db = .ok (S, db) := by
  rw [projectKnownAsOf, Transaction.get_bind, h]
  rfl

theorem rebuild_eq (h : IsReplay db.events householdId asOf S) :
    rebuild householdId asOf db = (do save householdId S; return S : Tx _) db := by
  rw [rebuild, Transaction.bind_of_ok (projectKnownAsOf_eq h)]

theorem advance_of_stored {current : InventorySnapshot}
    (hs : stored db.snapshots householdId = some current) (ht : current.asOf ≤ asOf)
    (ha : applyEvents current (eventsKnownBetween db.events householdId current.asOf asOf) asOf =
      .ok S) :
    advance householdId asOf db = (do save householdId S; return S : Tx _) db := by
  rw [advance, Transaction.get_bind]
  simp only [hs]
  rw [if_neg (not_lt.mpr ht), Transaction.get_bind, ha]
  rfl

theorem StoredReplay.isReplay (hr : StoredReplay db householdId)
    (hs : stored db.snapshots householdId = some S) : IsReplay db.events householdId S.asOf S := by
  rcases hr with hn | ⟨current, h, hne, hc⟩
  · rw [stored_eq_none hn] at hs; cases hs
  · obtain ⟨hh, -, hl, -⟩ := isReplay_iff.mp h
    cases hs.symm.trans (stored_toRows hh hl hne hc)
    exact h

theorem advance_of_none (hs : stored db.snapshots householdId = none)
    (h : IsReplay db.events householdId asOf S) :
    advance householdId asOf db = (do save householdId S; return S : Tx _) db := by
  rw [advance, Transaction.get_bind, hs]
  exact rebuild_eq h

theorem advance_of_earlier {current : InventorySnapshot}
    (hs : stored db.snapshots householdId = some current) (ht : asOf < current.asOf)
    (h : IsReplay db.events householdId asOf S) :
    advance householdId asOf db = .ok (S, db) := by
  rw [advance, Transaction.get_bind]
  simp only [hs]
  rw [if_pos ht]
  exact projectKnownAsOf_eq h

/-- `advance` only projects when the instant is before the stored one, and else stores what it
projects. -/
theorem advance_eq (hs : StoredReplay db householdId) (h : IsReplay db.events householdId asOf S) :
    advance householdId asOf db = .ok (S, db) ∨
      advance householdId asOf db = (do save householdId S; return S : Tx _) db := by
  cases hc : stored db.snapshots householdId with
  | none => exact .inr (advance_of_none hc h)
  | some current =>
    by_cases ht : asOf < current.asOf
    · exact .inl (advance_of_earlier hc ht h)
    · right
      obtain ⟨S', ha, hr⟩ := (hs.isReplay hc).advance (not_lt.mp ht)
      cases hr.unique h
      exact advance_of_stored hc (not_lt.mp ht) ha

theorem advance_cases (hs : StoredReplay db householdId)
    (h : IsReplay db.events householdId asOf S) :
    advance householdId asOf db = .ok (S, db) ∨
      StoresOrRefused householdId S db (advance householdId asOf db) := by
  rcases advance_eq hs h with ha | ha
  · exact .inl ha
  · rw [ha]; exact .inr (save_return_cases (isReplay_iff.mp h).1 db)

theorem rebuild_cases (h : IsReplay db.events householdId asOf S) :
    StoresOrRefused householdId S db (rebuild householdId asOf db) := by
  rw [rebuild_eq h]; exact save_return_cases (isReplay_iff.mp h).1 db

theorem IsReplay.storable (h : IsReplay db.events householdId asOf S) (hv : db.Valid) :
    S.Storable db := by
  obtain ⟨hh, -, hl, he⟩ := isReplay_iff.mp h
  intro lot hm
  have hk : lotsLedger S.lots lot.key = lot.tally := by
    have hn := hl.nodup_keys
    exact (ledgerOf_eq_coe_iff (by simpa [List.map_map, Function.comp_def] using hn)).mpr
      (List.mem_map_of_mem (f := LotState.entry) hm)
  rw [he, knownLedger, eventsLedger] at hk
  refine ledgerOf_induction (P := fun k v => v.eventCount > 0 ∧
    (k.dateLabelType = none ∨ k.printedDate ≠ none) ∧
    S.householdId ∈ db.households ∧ k.canonicalProductId ∈ db.products) ?_ ?_ hk
  · rintro k a b ⟨ha, hr⟩ -
    exact ⟨by rw [LotTally.eventCount_add]; omega, hr⟩
  · intro e hmem
    obtain ⟨event, hevent, rfl⟩ := List.mem_map.mp hmem
    obtain ⟨row, hr, rfl⟩ := exists_row_of_mem hevent
    obtain ⟨hm, hrow, -⟩ := mem_knownRows.mp hr
    have hc := rowChecks_iff.mp (hv.rowChecks row hm)
    have hr := violated_eq_none_iff.mp (hv.referenceChecks row hm)
    simp only [InventoryEventRow.referenceChecks, List.forall_mem_cons, decide_eq_true_eq] at hr
    exact ⟨Nat.one_pos, hc.label, by rw [hh, ← hrow]; exact hr.1, hr.2.1⟩

/-- A replay that fits the columns is stored. -/
theorem IsReplay.save_of_fits (h : IsReplay db.events householdId asOf S) (hv : db.Valid)
    (hf : S.FitsColumns) : (do save householdId S; return S : Tx _) db =
      .ok (S, db.replaceSnapshot householdId (toRows S)) := by
  obtain ⟨hh, -, hl, -⟩ := isReplay_iff.mp h
  exact Transaction.bind_of_ok (KitchenSense.save_of_fits hh hl.nodup_keys (h.storable hv) hf)

end Calls

section Preservation

theorem storedReplay_replace (h : IsReplay db.events householdId asOf S)
    (hs : ∀ other, StoredReplay db other) (other : UUID) :
    StoredReplay (db.replaceSnapshot householdId (toRows S)) other := by
  obtain ⟨hh, rfl, -, -⟩ := isReplay_iff.mp h
  by_cases ho : other = householdId
  · subst ho
    by_cases hne : S.lots = []
    · left
      rw [scopedTo_replaceSnapshot_self hh, toRows, hne, List.map_nil]
    · exact .inr ⟨S, h, hne, scopedTo_replaceSnapshot_self hh⟩
  · rw [StoredReplay, scopedTo_replaceSnapshot_of_ne
      (fun row hr => (householdId_of_mem_toRows hr).trans hh) ho]
    exact hs other

theorem storedReplay_clear (hs : ∀ other, StoredReplay db other) (other : UUID) :
    StoredReplay (db.replaceSnapshot householdId []) other := by
  by_cases ho : other = householdId
  · subst ho
    left
    simp [InventorySnapshotRepository.scopedTo, Db.replaceSnapshot, List.filter_filter]
  · rw [StoredReplay, scopedTo_replaceSnapshot_of_ne (by simp) ho]
    exact hs other

/-- The later of the two clocks of a row: the instant it becomes known. -/
def InventoryEventRow.laterClock (row : InventoryEventRow) : Instant :=
  max row.occurredAt row.recordedAt

/-- The row becomes known only after the projection stored for its household. -/
def AfterStored (db : Db) (row : InventoryEventRow) : Prop :=
  ∀ S ∈ stored db.snapshots row.householdId, S.asOf < row.laterClock

instance (db : Db) (row : InventoryEventRow) : Decidable (AfterStored db row) :=
  inferInstanceAs (Decidable (∀ S ∈ stored db.snapshots row.householdId, _))

theorem storedReplay_addEvents {rows : List InventoryEventRow}
    (hr : ∀ row ∈ rows, AfterStored db row) (hs : StoredReplay db householdId) :
    StoredReplay (db.addEvents rows) householdId := by
  rcases hs with hs | ⟨S, h, hne, hs⟩
  · exact .inl hs
  · refine .inr ⟨S, h.of_knownRows_eq ?_, hne, hs⟩
    obtain ⟨hh, -, hl, -⟩ := isReplay_iff.mp h
    refine (knownRows_append_of_unknown fun row hm hrow => ?_).symm
    exact hr row hm S (hrow ▸ stored_toRows hh hl hne hs)

end Preservation

end KitchenSense
