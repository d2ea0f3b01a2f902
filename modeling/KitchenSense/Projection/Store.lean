import KitchenSense.Database.Statements
import KitchenSense.Projection.Replay

/-! # Storing and reading a projection

What `save` leaves in the table, when it succeeds, and that `stored` reads
back the snapshot it wrote.
-/

namespace KitchenSense

open InventorySnapshotRepository

variable {db db' : Db} {householdId : UUID}

section Save

def Db.replaceSnapshot (db : Db) (householdId : UUID) (rows : List InventorySnapshotRow) : Db :=
  { db with snapshots :=
      (db.snapshots.filter fun row => row.householdId ≠ householdId) ++ rows }

theorem replaceSnapshot_replaceSnapshot {rows : List InventorySnapshotRow}
    (h : ∀ row ∈ rows, row.householdId = householdId) (rows' : List InventorySnapshotRow) :
    (db.replaceSnapshot householdId rows).replaceSnapshot householdId rows' =
      db.replaceSnapshot householdId rows' := by
  have hnil : (rows.filter fun row => row.householdId ≠ householdId) = [] := by
    simpa [List.filter_eq_nil_iff] using h
  simp only [Db.replaceSnapshot, List.filter_append, hnil, List.append_nil, List.filter_filter,
    Bool.and_self]

theorem clear_eq : clear householdId db = .ok ((), db.replaceSnapshot householdId []) := by
  rw [Db.replaceSnapshot, List.append_nil]; rfl

theorem save_eq {S : InventorySnapshot} (h : S.householdId = householdId) :
    save householdId S db =
      forM (toRows S) insertSnapshotRow (db.replaceSnapshot householdId []) := by
  rw [save, if_neg (not_not.mpr h), Transaction.bind_of_ok clear_eq]

theorem addSnapshotRows_replaceSnapshot (rows : List InventorySnapshotRow) :
    (db.replaceSnapshot householdId []).addSnapshotRows rows =
      db.replaceSnapshot householdId rows := by
  simp [Db.replaceSnapshot, Db.addSnapshotRows]

/-- A snapshot of the right household replaces the projection, or the database refuses it. -/
theorem save_cases {S : InventorySnapshot} (h : S.householdId = householdId) (db : Db) :
    save householdId S db = .ok ((), db.replaceSnapshot householdId (toRows S)) ∨
      ∃ c, save householdId S db = .error (.snapshot c) := by
  rw [save_eq h, ← addSnapshotRows_replaceSnapshot (toRows S)]
  exact insertRows_cases _ _

/-- A call that returns a snapshot after storing it, or fails on a constraint of the table. -/
def StoresOrRefused (householdId : UUID) (S : InventorySnapshot) (db : Db)
    (r : Except Failure (InventorySnapshot × Db)) : Prop :=
  r = .ok (S, db.replaceSnapshot householdId (toRows S)) ∨ ∃ c, r = .error (.snapshot c)

theorem save_return_cases (h : S.householdId = householdId) (db : Db) :
    StoresOrRefused householdId S db ((do save householdId S; return S : Tx _) db) := by
  rcases save_cases h db with hs | ⟨c, hs⟩
  · exact .inl (Transaction.bind_of_ok hs)
  · exact .inr ⟨c, Transaction.bind_of_error hs⟩

def InventorySnapshot.FitsColumns (S : InventorySnapshot) : Prop :=
  ∀ row ∈ toRows S, violated row.columnChecks = none

def InventorySnapshot.Storable (db : Db) (S : InventorySnapshot) : Prop :=
  ∀ lot ∈ S.lots, lot.eventCount > 0 ∧
    (lot.key.dateLabelType = none ∨ lot.key.printedDate ≠ none) ∧
    S.householdId ∈ db.households ∧ lot.key.canonicalProductId ∈ db.products

theorem save_of_fits {S : InventorySnapshot} (h : S.householdId = householdId)
    (hn : (S.lots.map LotState.key).Nodup) (ht : S.Storable db) (hf : S.FitsColumns) :
    save householdId S db = .ok ((), db.replaceSnapshot householdId (toRows S)) := by
  rw [save_eq h, ← addSnapshotRows_replaceSnapshot (toRows S)]
  apply insertRows_of_checks hf
  · intro row hr
    obtain ⟨lot, hl, rfl⟩ := List.mem_map.mp hr
    exact ht lot hl
  · exact (List.pairwise_map.mp hn).map _ fun a b hab he => hab he.2
  · intro row hr r hm
    obtain ⟨lot, -, rfl⟩ := List.mem_map.mp hr
    simp only [Db.replaceSnapshot, List.append_nil, List.mem_filter, decide_eq_true_eq] at hm
    exact fun he => hm.2 (he.1.trans h)

end Save

section Stored

variable {snapshots : List InventorySnapshotRow}

theorem scopedTo_replaceSnapshot_self {S : InventorySnapshot} (h : S.householdId = householdId) :
    scopedTo (db.replaceSnapshot householdId (toRows S)).snapshots householdId = toRows S := by
  have hold : ((db.snapshots.filter fun row => row.householdId ≠ householdId).filter
      fun row => row.householdId = householdId) = [] := by
    simp [List.filter_filter]
  have hnew : ((toRows S).filter fun row => row.householdId = householdId) = toRows S := by
    rw [List.filter_eq_self]
    intro row hr
    obtain ⟨lot, -, rfl⟩ := List.mem_map.mp hr
    exact decide_eq_true h
  rw [scopedTo, Db.replaceSnapshot, List.filter_append, hold, hnew, List.nil_append]

theorem scopedTo_replaceSnapshot_of_ne {rows : List InventorySnapshotRow} {other : UUID}
    (hr : ∀ row ∈ rows, row.householdId = householdId) (h : other ≠ householdId) :
    scopedTo (db.replaceSnapshot householdId rows).snapshots other =
      scopedTo db.snapshots other := by
  have hnew : (rows.filter fun row => row.householdId = other) = [] := by
    rw [List.filter_eq_nil_iff]
    intro row hm
    simpa [hr row hm] using Ne.symm h
  rw [scopedTo, Db.replaceSnapshot, List.filter_append, hnew, List.append_nil, List.filter_filter,
    scopedTo]
  apply List.filter_congr
  intro row _
  simp only [ne_eq, decide_not, Bool.and_eq_left_iff_imp, decide_eq_true_eq, Bool.not_eq_eq_eq_not,
    Bool.not_true, decide_eq_false_iff_not]
  rintro rfl
  exact h

theorem householdId_of_mem_toRows {S : InventorySnapshot} {row : InventorySnapshotRow}
    (h : row ∈ toRows S) : row.householdId = S.householdId := by
  obtain ⟨lot, -, rfl⟩ := List.mem_map.mp h
  rfl

theorem stored_eq_none (h : scopedTo snapshots householdId = []) :
    stored snapshots householdId = none := by
  simp [stored, h]

theorem toDomain_toRows (S : InventorySnapshot) :
    (toRows S).map InventorySnapshotRow.toDomain = S.lots := by
  rw [toRows, List.map_map]
  exact List.map_id _

theorem max?_asOf_toRows {S : InventorySnapshot} (h : S.lots ≠ []) :
    ((toRows S).map (·.asOf)).max? = some S.asOf := by
  have : (toRows S).map (·.asOf) = List.replicate S.lots.length S.asOf := by
    simp [toRows, toRow, Function.comp_def]
  rw [this, List.max?_replicate, if_neg (by simpa using h)]

/-- Reading back the rows of a listed snapshot gives the snapshot. -/
theorem stored_toRows {S : InventorySnapshot} (hh : S.householdId = householdId)
    (hs : Listed S.lots) (hne : S.lots ≠ []) (h : scopedTo snapshots householdId = toRows S) :
    stored snapshots householdId = some S := by
  have hsort : (S.lots.insertionSort fun a b => a.key.sortKey ≤ b.key.sortKey) = S.lots :=
    List.Pairwise.insertionSort_eq (hs.imp le_of_lt)
  subst hh
  simp only [stored, h, max?_asOf_toRows hne, Option.map_some, toDomain_toRows, hsort]

end Stored

end KitchenSense
