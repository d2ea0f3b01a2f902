import KitchenSense.Domain.GroupBy
import KitchenSense.Projection.Incremental

/-! # Which logs can be projected and read back

The columns of the projection are as wide as those of the log, but hold sums.
A rebuild stores its snapshot, and reads it back, exactly when the sums of each
lot stay within them.
-/

namespace KitchenSense

open InventoryEventRepository InventorySnapshotRepository

variable {db : Db} {householdId : UUID} {asOf : Instant} {S : InventorySnapshot}

section Rows

/-- The sums and the number of a group of events fit the columns of one lot. -/
structure GroupFits (group : List InventoryEvent) : Prop where
  quantity : fitsNumeric (sumDeltas group)
  purchased : fitsNumeric (sumDeltas (ofType .purchased group))
  consumed : fitsNumeric (-sumDeltas (ofType .consumed group))
  discarded : fitsNumeric (-sumDeltas (ofType .discarded group))
  eventCount : group.length < 2 ^ 31

instance (group : List InventoryEvent) : Decidable (GroupFits group) :=
  decidable_of_iff (fitsNumeric (sumDeltas group) ∧
      fitsNumeric (sumDeltas (ofType .purchased group)) ∧
      fitsNumeric (-sumDeltas (ofType .consumed group)) ∧
      fitsNumeric (-sumDeltas (ofType .discarded group)) ∧ group.length < 2 ^ 31)
    ⟨fun h => ⟨h.1, h.2.1, h.2.2.1, h.2.2.2.1, h.2.2.2.2⟩, fun h => ⟨h.1, h.2, h.3, h.4, h.5⟩⟩

theorem columnChecks_iff {group : List InventoryEvent} {lot : LotState}
    (h : Totals group lot.tally) :
    violated (toRow householdId asOf lot).columnChecks = none ↔
      lot.key.unit.length ≤ 24 ∧ GroupFits group := by
  have hq : lot.quantity = sumDeltas group := h.quantity
  have hp : lot.purchasedQuantity = sumDeltas (ofType .purchased group) := h.purchased
  have hc : lot.consumedQuantity = -sumDeltas (ofType .consumed group) := h.consumed
  have hd : lot.discardedQuantity = -sumDeltas (ofType .discarded group) := h.discarded
  have hn : lot.eventCount = group.length := h.eventCount
  rw [violated_eq_none_iff]
  simp only [InventorySnapshotRow.columnChecks, List.forall_mem_cons, decide_eq_true_eq]
  change (fitsNumeric lot.quantity ∧ fitsNumeric lot.purchasedQuantity ∧
    fitsNumeric lot.consumedQuantity ∧ fitsNumeric lot.discardedQuantity ∧
    lot.eventCount < 2 ^ 31 ∧ lot.key.unit.length ≤ 24 ∧ _) ↔ _
  rw [hq, hp, hc, hd, hn]
  constructor
  · rintro ⟨hq, hp, hc, hd, hn, hu, -⟩
    exact ⟨hu, hq, hp, hc, hd, hn⟩
  · rintro ⟨hu, hq, hp, hc, hd, hn⟩
    exact ⟨hq, hp, hc, hd, hn, hu, List.forall_mem_nil _⟩

theorem fitsColumns_of_save {db' : Db} (hh : S.householdId = householdId)
    (h : save householdId S db = .ok ((), db')) : S.FitsColumns := by
  rw [save_eq hh] at h
  exact columnChecks_of_insertRows h

theorem stored_of_toRows {snapshots : List InventorySnapshotRow} (hh : S.householdId = householdId)
    (hs : Listed S.lots)
    (h : InventorySnapshotRepository.scopedTo snapshots householdId = toRows S) :
    stored snapshots householdId = if S.lots = [] then none else some S := by
  split
  next hne => exact stored_eq_none (h.trans (by rw [toRows, hne, List.map_nil]))
  next hne => exact stored_toRows hh hs hne h

end Rows

section Logs

variable [UnicodeTables]

/-- Every event of a log has a normalised unit that fits its column, and the events of its lot fit
theirs. -/
def LotsFit (events : List InventoryEvent) : Prop :=
  ∀ event ∈ events, (normalizeUnit event.unit).length ≤ 24 ∧
    GroupFits (lotEvents (LotKey.forEvent event) events)

instance (events : List InventoryEvent) : Decidable (LotsFit events) :=
  inferInstanceAs (Decidable (∀ event ∈ events, _))

/-- A snapshot that groups the events fits its columns exactly when their lots do. -/
theorem fitsColumns_iff {events : List InventoryEvent} (h : GroupedBy events S.lots) :
    S.FitsColumns ↔ LotsFit events := by
  constructor
  · intro hf event hm
    obtain ⟨lot, hl, hk⟩ := List.mem_map.mp ((h.keys _).mpr (List.mem_map_of_mem hm))
    have hrow := (columnChecks_iff (h.totals lot hl)).mp (hf _ (List.mem_map_of_mem hl))
    rw [hk] at hrow
    exact hrow
  · intro hf row hr
    obtain ⟨lot, hl, rfl⟩ := List.mem_map.mp hr
    obtain ⟨event, hm, hk⟩ := List.mem_map.mp ((h.keys _).mp (List.mem_map_of_mem hl))
    have hevent := hf event hm
    rw [hk] at hevent
    refine (columnChecks_iff (h.totals lot hl)).mpr ⟨?_, hevent.2⟩
    rw [← hk]
    exact hevent.1

theorem IsReplay.groupedBy (h : IsReplay db.events householdId asOf S) :
    GroupedBy ((knownRows db.events householdId asOf).map InventoryEventRow.toDomain) S.lots := by
  obtain ⟨-, -, hs, hl⟩ := isReplay_iff.mp h
  exact groupedBy_of_ledger hs (hl.trans (eventsLedger_perm (fetch_perm _)))

/-- A rebuild stores the replay of the log and reads it back exactly when the lots of the known rows
fit the columns of the projection. -/
theorem rebuild_reads_back_iff (hv : db.Valid) (householdId : UUID) (asOf : Instant) :
    (∃ S db', IsReplay db.events householdId asOf S ∧
      rebuild householdId asOf db = .ok (S, db') ∧
      InventorySnapshotRepository.scopedTo db'.snapshots householdId = toRows S ∧
      stored db'.snapshots householdId = if S.lots = [] then none else some S) ↔
    LotsFit ((knownRows db.events householdId asOf).map InventoryEventRow.toDomain) := by
  obtain ⟨S, h⟩ := exists_isReplay db.events householdId asOf
  obtain ⟨hh, -, hs, -⟩ := isReplay_iff.mp h
  rw [← fitsColumns_iff h.groupedBy]
  constructor
  · rintro ⟨S', db', h', hr, -⟩
    cases h'.unique h
    rw [rebuild_eq h] at hr
    obtain ⟨⟨⟩, db₁, hsave, -⟩ := Transaction.bind_eq_ok.mp hr
    exact fitsColumns_of_save hh hsave
  · intro hf
    have hrows : InventorySnapshotRepository.scopedTo
        (db.replaceSnapshot householdId (toRows S)).snapshots householdId = toRows S :=
      scopedTo_replaceSnapshot_self hh
    refine ⟨S, _, h, ?_, hrows, stored_of_toRows hh hs hrows⟩
    rw [rebuild_eq h]
    exact h.save_of_fits hv hf

end Logs

section Sample

def purchaseOf (id : UUID) (quantityDelta : Decimal) (key : String) : InventoryEventRow where
  id := id
  householdId := 1
  canonicalProductId := 7
  eventType := .purchased
  quantityDelta := quantityDelta
  unit := "kg"
  storageLocation := .pantry
  printedDate := none
  dateLabelType := none
  occurredAt := 1
  recordedAt := 2
  source := "receipt"
  confidence := 1
  idempotencyKey := key
  eventMetadata := "{}"

theorem rebuild_reads_back_iff_twoPurchases :
    letI := asciiTables
    ∃ S db', rebuild 1 5 (emptyKitchen.addEvents
        [purchaseOf 1 4000 "a", purchaseOf 2 6000 "b"]) = .ok (S, db') ∧
      stored db'.snapshots 1 = if S.lots = [] then none else some S := by
  let _ := asciiTables
  have hv : (emptyKitchen.addEvents [purchaseOf 1 4000 "a", purchaseOf 2 6000 "b"]).Valid :=
    ⟨by decide +kernel, by decide +kernel, by decide +kernel, by decide +kernel⟩
  have hfit : LotsFit ((knownRows (emptyKitchen.addEvents
      [purchaseOf 1 4000 "a", purchaseOf 2 6000 "b"]).events 1 5).map
        InventoryEventRow.toDomain) := by decide +kernel
  obtain ⟨S, db', -, hr, -, hs⟩ := (rebuild_reads_back_iff hv 1 5).mpr hfit
  exact ⟨S, db', hr, hs⟩

/-- Two purchases of the most a row can hold are admitted to the log and cannot be projected. -/
theorem rebuild_overflows :
    letI := asciiTables
    (emptyKitchen.addEvents
      [purchaseOf 1 99999999999999 "a", purchaseOf 2 99999999999999 "b"]).Valid ∧
    rebuild 1 5 (emptyKitchen.addEvents
      [purchaseOf 1 99999999999999 "a", purchaseOf 2 99999999999999 "b"]) =
        .error (.snapshot .quantityNumeric) := by
  let _ := asciiTables
  refine ⟨⟨?_, ?_, ?_, ?_⟩, ?_⟩
  all_goals decide +kernel

end Sample

end KitchenSense
