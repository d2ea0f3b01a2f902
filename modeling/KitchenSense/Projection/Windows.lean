import KitchenSense.Projection.Replay

/-! # Windows partition the known history

The events known at the first of a chain of instants and the windows between
its neighbours hold every event known at the last instant once, whichever of
its two clocks brings it into a window.
-/

namespace KitchenSense

open InventoryEventRepository

/-- `(recorded_at, occurred_at, id)`. -/
def InventoryEvent.orderKey (event : InventoryEvent) : ℤ ×ₗ ℤ ×ₗ ℕ :=
  toLex (event.recordedAt, toLex (event.occurredAt, event.id.toNat))

/-- The events that became known between the neighbours of a chain of instants. -/
def windows (log : List InventoryEventRow) (householdId : UUID) (t₀ : Instant) :
    List Instant → List (List InventoryEvent)
  | [] => []
  | t :: ts => eventsKnownBetween log householdId t₀ t :: windows log householdId t ts

/-- The events known at the start of a chain of instants, then those of its windows. -/
def history (log : List InventoryEventRow) (householdId : UUID) (t₀ : Instant)
    (ts : List Instant) : List (List InventoryEvent) :=
  eventsKnownAsOf log householdId t₀ none :: windows log householdId t₀ ts

variable {log : List InventoryEventRow} {householdId : UUID} {t₀ after asOf : Instant}
  {ts : List Instant} {event : InventoryEvent}

theorem fetch_sorted (rows : List InventoryEventRow) :
    (fetch rows).Pairwise fun a b => a.orderKey ≤ b.orderKey :=
  List.pairwise_map.mpr (List.pairwise_insertionSort (fun a b => orderKey a ≤ orderKey b) rows)

theorem history_sorted : ∀ events ∈ history log householdId t₀ ts,
    events.Pairwise fun a b => a.orderKey ≤ b.orderKey := by
  have hw : ∀ events ∈ windows log householdId t₀ ts,
      events.Pairwise fun a b => a.orderKey ≤ b.orderKey := by
    induction ts generalizing t₀ with
    | nil => exact List.forall_mem_nil _
    | cons t ts ih => exact List.forall_mem_cons.mpr ⟨fetch_sorted _, ih⟩
  exact List.forall_mem_cons.mpr ⟨fetch_sorted _, hw⟩

/-- Along a chain of instants the windows add exactly what became known. -/
theorem history_perm (hc : List.IsChain (· ≤ ·) (t₀ :: ts)) :
    (history log householdId t₀ ts).flatten.Perm
      (eventsKnownAsOf log householdId (ts.getLastD t₀) none) := by
  induction ts generalizing t₀ with
  | nil => simp [history, windows]
  | cons t ts ih =>
    rw [List.isChain_cons_cons] at hc
    have h := ih hc.2
    rw [history, List.flatten_cons] at h ⊢
    rw [windows, List.flatten_cons, ← List.append_assoc, List.getLastD_cons]
    exact ((known_perm_append_between hc.1).symm.append_right _).trans h

theorem eventsKnownAsOf_perm (log : List InventoryEventRow) (householdId : UUID) (asOf : Instant) :
    (eventsKnownAsOf log householdId asOf none).Perm ((log.filter fun row =>
      row.householdId = householdId ∧ row.occurredAt ≤ asOf ∧ row.recordedAt ≤ asOf).map
        InventoryEventRow.toDomain) := by
  have h : knownRows log householdId asOf = log.filter fun row =>
      row.householdId = householdId ∧ row.occurredAt ≤ asOf ∧ row.recordedAt ≤ asOf := by
    rw [knownRows, scopedTo, List.filter_filter]
    apply List.filter_congr
    intro row _
    simp [knownAsOf, Bool.and_comm]
  rw [← h]
  exact fetch_perm _

theorem mem_eventsKnownAsOf : event ∈ eventsKnownAsOf log householdId asOf none ↔
    ∃ row ∈ log, row.toDomain = event ∧ event.KnownAt householdId asOf := by
  rw [(eventsKnownAsOf_perm log householdId asOf).mem_iff]
  simp only [List.mem_map, List.mem_filter, decide_eq_true_eq]
  constructor
  · rintro ⟨row, ⟨hm, hk⟩, rfl⟩
    exact ⟨row, hm, rfl, hk⟩
  · rintro ⟨row, hm, rfl, hk⟩
    exact ⟨row, ⟨hm, hk⟩, rfl⟩

/-- A window holds what is known at its end and was not at its start, in whatever order they are. -/
theorem eventsKnownBetween_perm (log : List InventoryEventRow) (householdId : UUID)
    (after asOf : Instant) :
    (eventsKnownBetween log householdId after asOf).Perm
      ((eventsKnownAsOf log householdId asOf none).filter
        fun event => ¬ (event.occurredAt ≤ after ∧ event.recordedAt ≤ after)) := by
  have hrows : (scopedTo log householdId).filter (fun row => row.occurredAt ≤ asOf ∧
        row.recordedAt ≤ asOf ∧ (row.occurredAt > after ∨ row.recordedAt > after)) =
      (knownRows log householdId asOf).filter
        fun row => ¬ (row.occurredAt ≤ after ∧ row.recordedAt ≤ after) := by
    rw [knownRows, List.filter_filter]
    apply List.filter_congr
    intro row _
    rw [Bool.eq_iff_iff]
    simp only [knownAsOf, Bool.and_eq_true, decide_eq_true_eq, not_and_or, not_le, gt_iff_lt]
    tauto
  have hdomain := ((fetch_perm (knownRows log householdId asOf)).filter fun event =>
    ¬ (event.occurredAt ≤ after ∧ event.recordedAt ≤ after)).symm
  rw [List.filter_map] at hdomain
  rw [eventsKnownBetween, hrows]
  exact (fetch_perm _).trans hdomain

theorem mem_eventsKnownBetween : event ∈ eventsKnownBetween log householdId after asOf ↔
    event ∈ eventsKnownAsOf log householdId asOf none ∧
      event ∉ eventsKnownAsOf log householdId after none := by
  rw [(eventsKnownBetween_perm log householdId after asOf).mem_iff, List.mem_filter,
    decide_eq_true_eq]
  apply and_congr_right
  intro hm
  obtain ⟨row, hr, he, hh, -⟩ := mem_eventsKnownAsOf.mp hm
  rw [mem_eventsKnownAsOf]
  constructor
  · rintro hn ⟨-, -, -, -, hk⟩
    exact hn hk
  · exact fun hn hk => hn ⟨row, hr, he, hh, hk⟩

theorem nodup_history (hi : (log.map (·.id)).Nodup) (hc : List.IsChain (· ≤ ·) (t₀ :: ts)) :
    (history log householdId t₀ ts).flatten.Nodup := by
  rw [((history_perm hc).trans (eventsKnownAsOf_perm ..)).nodup_iff]
  apply List.Nodup.of_map InventoryEvent.id
  rw [List.map_map]
  exact hi.sublist (List.filter_sublist.map _)

/-- The first known events and the windows of a chain of instants hold every event known at its end
exactly once and nothing else, each list is in order, and any window is the difference of the events
known at its two instants. -/
theorem windows_partition (log : List InventoryEventRow) (householdId : UUID) :
    (∀ (t₀ : Instant) (ts : List Instant), List.IsChain (· ≤ ·) (t₀ :: ts) →
      (history log householdId t₀ ts).flatten.Perm ((log.filter fun row =>
        row.householdId = householdId ∧ row.occurredAt ≤ ts.getLastD t₀ ∧
          row.recordedAt ≤ ts.getLastD t₀).map InventoryEventRow.toDomain) ∧
      ((log.map (·.id)).Nodup → (history log householdId t₀ ts).flatten.Nodup)) ∧
    (∀ t₀ ts, ∀ events ∈ history log householdId t₀ ts,
      events.Pairwise fun a b => a.orderKey ≤ b.orderKey) ∧
    ∀ after asOf, (eventsKnownBetween log householdId after asOf).Perm
        ((eventsKnownAsOf log householdId asOf none).filter
          fun event => ¬ (event.occurredAt ≤ after ∧ event.recordedAt ≤ after)) ∧
      ∀ event, event ∈ eventsKnownBetween log householdId after asOf ↔
        event ∈ eventsKnownAsOf log householdId asOf none ∧
          event ∉ eventsKnownAsOf log householdId after none :=
  ⟨fun _ _ hc => ⟨(history_perm hc).trans (eventsKnownAsOf_perm ..), fun hi => nodup_history hi hc⟩,
    fun _ _ => history_sorted, fun after asOf =>
      ⟨eventsKnownBetween_perm log householdId after asOf, fun _ => mem_eventsKnownBetween⟩⟩

section Sample

def clocked (id : UUID) (occurredAt recordedAt : Instant) : InventoryEventRow where
  id := id
  householdId := 1
  canonicalProductId := 7
  eventType := .purchased
  quantityDelta := 1000
  unit := "pack"
  storageLocation := .fridge
  printedDate := none
  dateLabelType := none
  occurredAt := occurredAt
  recordedAt := recordedAt
  source := "receipt"
  confidence := 1
  idempotencyKey := "k"
  eventMetadata := "{}"

theorem windows_partition_threeRows :
    (history [clocked 1 2 2, clocked 2 1 5, clocked 3 8 3] 1 2 [3, 3, 8]).flatten.Perm
      ([clocked 1 2 2, clocked 2 1 5, clocked 3 8 3].map InventoryEventRow.toDomain) ∧
    (history [clocked 1 2 2, clocked 2 1 5, clocked 3 8 3] 1 2 [3, 3, 8]).flatten.Nodup := by
  obtain ⟨hchain, -, -⟩ := windows_partition [clocked 1 2 2, clocked 2 1 5, clocked 3 8 3] 1
  obtain ⟨hp, hn⟩ := hchain 2 [3, 3, 8] (by decide)
  exact ⟨hp, hn (by decide)⟩

end Sample

end KitchenSense
