import KitchenSense.Domain.GroupBy
import KitchenSense.Projection.Store

/-! # The projection and the queries tell one story

The aggregate queries read the known rows, the projection folds them into
lots. What they count, list and sum is the same, and the fold of one product's
events is the projection restricted to its lots.
-/

namespace KitchenSense

open InventoryEventRepository

theorem nodup_eraseDups {α : Type*} [DecidableEq α] (l : List α) : l.eraseDups.Nodup := by
  induction h : l.length using Nat.strong_induction_on generalizing l with
  | _ n ih =>
    cases l with
    | nil => simp
    | cons a l =>
      have hlt : (l.filter fun b => !b == a).length < n :=
        (List.length_filter_le ..).trans_lt (h ▸ Nat.lt_succ_self _)
      rw [List.eraseDups_cons, List.nodup_cons]
      exact ⟨by simp, ih _ hlt _ rfl⟩

theorem max?_perm {l l' : List Instant} (h : l.Perm l') : l.max? = l'.max? := by
  ext t
  simp only [List.max?_eq_some_iff, h.mem_iff]

theorem sumDeltas_perm {es fs : List InventoryEvent} (h : es.Perm fs) :
    sumDeltas es = sumDeltas fs := (h.map _).sum_eq

section Ledger

variable [UnicodeTables] {events : List InventoryEvent} {lots : List LotState} {householdId : UUID}
  {asOf : Instant}

/-- What adds up over amounts sums to the same over the events and over the lots they make. -/
theorem sum_lots_eq {M : Type} [AddCommMonoid M] {f : LotTally → M}
    (hf : ∀ a b, f (a + b) = f a + f b) (h : lotsLedger lots = eventsLedger events) :
    (lots.map fun lot => f lot.tally).sum =
      (events.map fun event => f (lotFromEvent event).tally).sum := by
  have hs := sum_eq_of_ledgerOf_eq (f := fun _ => f) (fun _ => hf) h
  simpa [List.map_map, Function.comp_def, LotState.entry, InventoryEvent.entry] using hs

theorem sum_eventCount (h : lotsLedger lots = eventsLedger events) :
    (lots.map (·.eventCount)).sum = events.length := by
  have hs := sum_lots_eq (f := (·.eventCount)) LotTally.eventCount_add h
  simpa [LotState.tally, lotFromEvent] using hs

theorem sum_quantity (h : lotsLedger lots = eventsLedger events) :
    (lots.map (·.quantity)).sum = sumDeltas events :=
  sum_lots_eq (f := (·.quantity)) LotTally.quantity_add h

theorem lotsLedger_ofProduct (h : lotsLedger lots = eventsLedger events) (p : UUID) :
    lotsLedger (lots.filter fun lot => lot.key.canonicalProductId = p) =
      eventsLedger (events.filter (·.canonicalProductId = p)) := by
  have hlots : (lots.filter fun lot => lot.key.canonicalProductId = p).map LotState.entry =
      (lots.map LotState.entry).filter fun e => e.1.canonicalProductId = p := by
    rw [List.filter_map]
    rfl
  have hevents : (events.filter (·.canonicalProductId = p)).map InventoryEvent.entry =
      (events.map InventoryEvent.entry).filter fun e => e.1.canonicalProductId = p := by
    rw [List.filter_map]
    rfl
  ext key
  rw [lotsLedger, eventsLedger, hlots, hevents]
  simp only [ledgerOf_filter fun key : LotKey => key.canonicalProductId = p]
  rw [show ledgerOf (lots.map LotState.entry) = ledgerOf (events.map InventoryEvent.entry) from h]

variable (h : GroupedBy events lots)
include h

theorem GroupedBy.mem_products {p : UUID} :
    p ∈ lots.map (·.key.canonicalProductId) ↔ p ∈ events.map (·.canonicalProductId) := by
  have hl : lots.map (·.key.canonicalProductId) =
      (lots.map LotState.key).map LotKey.canonicalProductId := by simp
  have he : events.map (·.canonicalProductId) =
      (events.map LotKey.forEvent).map LotKey.canonicalProductId := by simp [LotKey.forEvent]
  rw [hl, he]
  simp only [List.mem_map (b := p), h.keys]

/-- The latest lot is as late as the latest event. -/
theorem GroupedBy.max?_recordedAt :
    (lots.map (·.lastRecordedAt)).max? = (events.map (·.recordedAt)).max? := by
  cases hm : (lots.map (·.lastRecordedAt)).max? with
  | none =>
    have hl : lots = [] := by simpa using hm
    have he : events = [] := by
      have hk := h.keys
      subst hl
      simpa [List.eq_nil_iff_forall_not_mem] using hk
    rw [he]
    rfl
  | some t =>
    symm
    rw [List.max?_eq_some_iff] at hm ⊢
    obtain ⟨hmem, hle⟩ := hm
    constructor
    · obtain ⟨lot, hl, rfl⟩ := List.mem_map.mp hmem
      obtain ⟨hin, -⟩ := List.max?_eq_some_iff.mp (h.totals lot hl).lastRecordedAt
      exact List.map_subset _ (List.filter_subset_self _) hin
    · intro t' ht'
      obtain ⟨event, hev, rfl⟩ := List.mem_map.mp ht'
      obtain ⟨lot, hl, hk⟩ := List.mem_map.mp ((h.keys _).mpr (List.mem_map_of_mem hev))
      have hin : event ∈ lotEvents lot.key events :=
        List.mem_filter.mpr ⟨hev, decide_eq_true hk.symm⟩
      exact ((List.max?_eq_some_iff.mp (h.totals lot hl).lastRecordedAt).2 _
        (List.mem_map_of_mem hin)).trans (hle _ (List.mem_map_of_mem hl))

end Ledger

section Queries

variable {log : List InventoryEventRow} {householdId : UUID} {asOf : Instant}

theorem length_eventsKnownAsOf (log : List InventoryEventRow) (householdId : UUID)
    (asOf : Instant) : (eventsKnownAsOf log householdId asOf none).length =
      countKnownAsOf log householdId asOf := by
  rw [eventsKnownAsOf_eq, (fetch_perm _).length_eq, List.length_map]
  rfl

theorem eventsKnownAsOf_some_perm (log : List InventoryEventRow) (householdId : UUID)
    (asOf : Instant) (p : UUID) : (eventsKnownAsOf log householdId asOf (some p)).Perm
      ((eventsKnownAsOf log householdId asOf none).filter (·.canonicalProductId = p)) := by
  have hp := (fetch_perm (knownRows log householdId asOf)).filter (·.canonicalProductId = p)
  rw [List.filter_map] at hp
  exact (fetch_perm _).trans hp.symm

theorem mem_productsKnownAsOf {p : UUID} : p ∈ productsKnownAsOf log householdId asOf ↔
    p ∈ (eventsKnownAsOf log householdId asOf none).map (·.canonicalProductId) := by
  rw [productsKnownAsOf, List.mem_eraseDups, eventsKnownAsOf_eq,
    ((fetch_perm _).map InventoryEvent.canonicalProductId).mem_iff, List.map_map]
  rfl

theorem latestRecordedAt_eq (log : List InventoryEventRow) (householdId : UUID) (asOf : Instant) :
    latestRecordedAt log householdId asOf =
      ((eventsKnownAsOf log householdId asOf none).map (·.recordedAt)).max? := by
  have hp := (fetch_perm (knownRows log householdId asOf)).map (·.recordedAt)
  rw [List.map_map] at hp
  rw [latestRecordedAt, eventsKnownAsOf_eq]
  exact (max?_perm hp).symm

open InventorySnapshotRepository in
/-- The projection and the aggregate queries agree, and the fold of a product's events is the
projection restricted to its lots. -/
theorem projection_agrees [UnicodeTables] (db : Db) (householdId : UUID) (asOf : Instant) :
    ∃ S, projectKnownAsOf householdId asOf db = .ok (S, db) ∧
      (S.lots.map (·.eventCount)).sum = countKnownAsOf db.events householdId asOf ∧
      (productsKnownAsOf db.events householdId asOf).Nodup ∧
      (∀ p, p ∈ S.lots.map (·.key.canonicalProductId) ↔
        p ∈ productsKnownAsOf db.events householdId asOf) ∧
      (S.lots.map (·.lastRecordedAt)).max? = latestRecordedAt db.events householdId asOf ∧
      (latestRecordedAt db.events householdId asOf = none ↔ S.lots = []) ∧
      ∀ p, S.quantityOf p = sumDeltas (eventsKnownAsOf db.events householdId asOf (some p)) ∧
        foldEvents (eventsKnownAsOf db.events householdId asOf (some p)) householdId asOf =
          .ok { S with lots := S.lots.filter fun lot => lot.key.canonicalProductId = p } := by
  obtain ⟨lots, hf, hs, hl⟩ := foldEvents_spec
    (eventsKnownAsOf db.events householdId asOf none) fun _ => knownAt_of_mem
  have hg := groupedBy_of_ledger hs hl
  have hlatest : (lots.map (·.lastRecordedAt)).max? = latestRecordedAt db.events householdId asOf :=
    hg.max?_recordedAt.trans (latestRecordedAt_eq ..).symm
  refine ⟨⟨householdId, asOf, lots⟩, ?_, ?_, nodup_eraseDups _, ?_, hlatest, ?_,
    fun p => ⟨?_, ?_⟩⟩
  · rw [projectKnownAsOf, Transaction.get_bind, hf]
    rfl
  · rw [sum_eventCount hl, length_eventsKnownAsOf]
  · intro p
    rw [hg.mem_products, mem_productsKnownAsOf]
  · rw [← hlatest]
    simp
  · rw [InventorySnapshot.quantityOf, sum_quantity (lotsLedger_ofProduct hl p)]
    exact (sumDeltas_perm (eventsKnownAsOf_some_perm ..)).symm
  · have hp := eventsKnownAsOf_some_perm db.events householdId asOf p
    obtain ⟨lots', hf', hs', hl'⟩ := foldEvents_spec
      (eventsKnownAsOf db.events householdId asOf (some p)) fun event hm =>
        knownAt_of_mem (List.mem_of_mem_filter (hp.mem_iff.mp hm))
    have hlots : lots' = lots.filter fun lot => lot.key.canonicalProductId = p := by
      apply hs'.eq_of_ledger_eq (hs.filter _)
      rw [hl', eventsLedger_perm hp, lotsLedger_ofProduct hl]
    rw [hf', hlots]

end Queries

end KitchenSense
