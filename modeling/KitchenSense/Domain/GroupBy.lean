import KitchenSense.Domain.Fold

/-! # The fold groups the events by lot

The lots of a replay are the groups of its events under their lot keys, and
the totals of a lot are those of its group. A replay refuses a list exactly
when one of its events is not known at the instant, so neither the lots nor the
refusal depend on the order of the events.
-/

namespace KitchenSense

/-- `HouseholdMismatchError`. -/
def InventoryFoldError.IsHouseholdMismatch : InventoryFoldError → Prop
  | .eventMismatch _ _ _ | .snapshotMismatch _ _ | .differentHouseholds _ _ => True
  | _ => False

/-- `LabelLeakageError`. -/
def InventoryFoldError.IsLabelLeakage : InventoryFoldError → Prop
  | .movedBackwards _ _ | .notKnown _ _ _ _ => True
  | _ => False

def sumDeltas (events : List InventoryEvent) : Decimal := (events.map (·.quantityDelta)).sum

def ofType (eventType : EventType) (events : List InventoryEvent) : List InventoryEvent :=
  events.filter (·.eventType = eventType)

structure Totals (group : List InventoryEvent) (v : LotTally) : Prop where
  quantity : v.quantity = sumDeltas group
  purchased : v.purchasedQuantity = sumDeltas (ofType .purchased group)
  consumed : v.consumedQuantity = -sumDeltas (ofType .consumed group)
  discarded : v.discardedQuantity = -sumDeltas (ofType .discarded group)
  eventCount : v.eventCount = group.length
  firstOccurredAt : (group.map (·.occurredAt)).min? = some v.firstOccurredAt
  lastOccurredAt : (group.map (·.occurredAt)).max? = some v.lastOccurredAt
  lastRecordedAt : (group.map (·.recordedAt)).max? = some v.lastRecordedAt
  openedAt : ((ofType .opened group).map (·.occurredAt)).min? = v.openedAt

section Sums

variable {event : InventoryEvent} {events group : List InventoryEvent} {eventType : EventType}

@[simp] theorem sumDeltas_nil : sumDeltas [] = 0 := rfl

@[simp] theorem sumDeltas_cons (event : InventoryEvent) (events : List InventoryEvent) :
    sumDeltas (event :: events) = event.quantityDelta + sumDeltas events := by
  simp [sumDeltas]

@[simp] theorem ofType_nil : ofType eventType [] = [] := rfl

theorem ofType_cons (event : InventoryEvent) (events : List InventoryEvent) :
    ofType eventType (event :: events) =
      if event.eventType = eventType then event :: ofType eventType events
      else ofType eventType events := by
  simp [ofType, List.filter_cons]

theorem sumDeltas_ofType_cons (event : InventoryEvent) (events : List InventoryEvent) :
    sumDeltas (ofType eventType (event :: events)) =
      (if event.eventType = eventType then event.quantityDelta else 0) +
        sumDeltas (ofType eventType events) := by
  rw [ofType_cons]
  split <;> simp

end Sums

theorem not_knownAt_iff {event : InventoryEvent} {householdId : UUID} {asOf : Instant} :
    ¬ event.KnownAt householdId asOf ↔
      event.householdId ≠ householdId ∨ asOf < event.occurredAt ∨ asOf < event.recordedAt := by
  simp only [InventoryEvent.KnownAt, not_and_or, not_le, ne_eq]

section Groups

variable [UnicodeTables] {event : InventoryEvent} {events group : List InventoryEvent}
  {key : LotKey}
  {v : LotTally} {lots : List LotState} {householdId : UUID} {asOf : Instant}

def lotEvents (key : LotKey) (events : List InventoryEvent) : List InventoryEvent :=
  events.filter fun event => LotKey.forEvent event = key

theorem lotEvents_cons_self (event : InventoryEvent) (events : List InventoryEvent) :
    lotEvents (LotKey.forEvent event) (event :: events) =
      event :: lotEvents (LotKey.forEvent event) events := by
  simp [lotEvents]

theorem lotEvents_cons_of_ne (h : LotKey.forEvent event ≠ key) (events : List InventoryEvent) :
    lotEvents key (event :: events) = lotEvents key events := by
  simp [lotEvents, h]

theorem Totals.singleton (event : InventoryEvent) :
    Totals [event] (lotFromEvent event).tally := by
  constructor <;> cases h : event.eventType <;>
    simp [LotState.tally, lotFromEvent, h, ofType_cons]

theorem Totals.cons (h : Totals group v) (event : InventoryEvent) :
    Totals (event :: group) ((lotFromEvent event).tally + v) where
  quantity := by simp [h.quantity, LotState.tally, lotFromEvent]
  purchased := by simp [h.purchased, LotState.tally, lotFromEvent, sumDeltas_ofType_cons]
  consumed := by
    rw [sumDeltas_ofType_cons, neg_add]
    simp [h.consumed, LotState.tally, lotFromEvent, apply_ite Neg.neg]
  discarded := by
    rw [sumDeltas_ofType_cons, neg_add]
    simp [h.discarded, LotState.tally, lotFromEvent, apply_ite Neg.neg]
  eventCount := by
    simp [h.eventCount, LotState.tally, lotFromEvent]
    omega
  firstOccurredAt := by simp [h.firstOccurredAt, LotState.tally, lotFromEvent]
  lastOccurredAt := by simp [h.lastOccurredAt, LotState.tally, lotFromEvent]
  lastRecordedAt := by simp [h.lastRecordedAt, LotState.tally, lotFromEvent]
  openedAt := by
    rw [ofType_cons]
    split
    next ho =>
      cases hv : v.openedAt <;> simp [h.openedAt, hv, LotState.tally, lotFromEvent, ho, earliest]
    next ho =>
      simp [h.openedAt, LotState.tally, lotFromEvent, ho, earliest]

/-- The ledger has nothing for a key no event falls under, and the totals of its group else. -/
theorem eventsLedger_cases (key : LotKey) (events : List InventoryEvent) :
    (lotEvents key events = [] ∧ eventsLedger events key = 0) ∨
      ∃ v : LotTally, Totals (lotEvents key events) v ∧ eventsLedger events key = v := by
  induction events with
  | nil => exact .inl ⟨rfl, rfl⟩
  | cons event events ih =>
    by_cases h : LotKey.forEvent event = key
    · subst h
      right
      rw [lotEvents_cons_self, eventsLedger_cons, Pi.add_apply]
      rcases ih with ⟨hnil, hzero⟩ | ⟨v, hv, hcoe⟩
      · refine ⟨(lotFromEvent event).tally, hnil ▸ .singleton event, ?_⟩
        rw [hzero, add_zero]
        exact posting_same ..
      · refine ⟨(lotFromEvent event).tally + v, hv.cons event, ?_⟩
        rw [hcoe, WithZero.coe_add]
        congr 1
        exact posting_same ..
    · have hne : key ≠ event.entry.1 := Ne.symm h
      rwa [lotEvents_cons_of_ne h, eventsLedger_cons, Pi.add_apply, posting_of_ne hne, zero_add]

/-- The lots are the groups of the events, in the order of their keys. -/
structure GroupedBy (events : List InventoryEvent) (lots : List LotState) : Prop where
  listed : Listed lots
  keys : ∀ key, key ∈ lots.map LotState.key ↔ key ∈ events.map LotKey.forEvent
  totals : ∀ lot ∈ lots, Totals (lotEvents lot.key events) lot.tally

theorem mem_map_forEvent_iff :
    key ∈ events.map LotKey.forEvent ↔ lotEvents key events ≠ [] := by
  simp [lotEvents, List.filter_eq_nil_iff]

/-- The listing of the ledger of the events groups them. -/
theorem groupedBy_of_ledger (h : Listed lots) (hl : lotsLedger lots = eventsLedger events) :
    GroupedBy events lots where
  listed := h
  keys key := by
    rw [mem_map_forEvent_iff, ← not_iff_not, not_not, ← lotsLedger_eq_zero_iff, hl]
    rcases eventsLedger_cases key events with ⟨hnil, hzero⟩ | ⟨v, hv, hcoe⟩
    · simp [hnil, hzero]
    · have hne : lotEvents key events ≠ [] := by
        intro hnil
        have hf := hv.firstOccurredAt
        simp [hnil] at hf
      simp [hne, hcoe]
  totals lot hm := by
    have hlot := h.ledger_eq_coe hm
    rw [hl] at hlot
    rcases eventsLedger_cases lot.key events with ⟨-, hzero⟩ | ⟨v, hv, hcoe⟩
    · cases hzero.symm.trans hlot
    · cases WithZero.coe_inj.mp (hcoe.symm.trans hlot)
      exact hv

theorem absorb_of_unknown (h : ¬ event.KnownAt householdId asOf) (lots : Dict LotKey LotState) :
    ∃ e, absorb householdId asOf lots event = .error e ∧
      (e.IsHouseholdMismatch ∨ e.IsLabelLeakage) := by
  unfold absorb
  split
  next => exact ⟨_, rfl, .inl trivial⟩
  next hh =>
    split
    next => exact ⟨_, rfl, .inr trivial⟩
    next hc =>
      simp only [gt_iff_lt, not_or, not_lt] at hc
      exact absurd ⟨not_not.mp hh, hc⟩ h

/-- The loop refuses a list with an event that is not known, wherever it stands. -/
theorem foldlM_absorb_of_unknown (h : ∃ event ∈ events, ¬ event.KnownAt householdId asOf)
    {lots : Dict LotKey LotState} (hf : Filed lots) :
    ∃ e, events.foldlM (absorb householdId asOf) lots = .error e ∧
      (e.IsHouseholdMismatch ∨ e.IsLabelLeakage) := by
  induction events generalizing lots with
  | nil => simp at h
  | cons event events ih =>
    rw [List.foldlM_cons]
    by_cases hk : event.KnownAt householdId asOf
    · obtain ⟨lots', ha, hf', -⟩ := absorb_spec hf hk
      rw [List.exists_mem_cons_iff] at h
      rw [ha]
      exact ih (h.resolve_left (not_not.mpr hk)) hf'
    · obtain ⟨e, he, hkind⟩ := absorb_of_unknown hk lots
      rw [he]
      exact ⟨e, rfl, hkind⟩

theorem applyEvents_of_unknown {snapshot : InventorySnapshot}
    (hn : (snapshot.lots.map LotState.key).Nodup) (ha : snapshot.asOf ≤ asOf)
    (h : ∃ event ∈ events, ¬ event.KnownAt snapshot.householdId asOf) :
    ∃ e, applyEvents snapshot events asOf = .error e ∧
      (e.IsHouseholdMismatch ∨ e.IsLabelLeakage) := by
  obtain ⟨e, he, hkind⟩ := foldlM_absorb_of_unknown h (filed_ofPairs hn).1
  refine ⟨e, ?_, hkind⟩
  rw [applyEvents, if_neg (not_lt.mpr ha), he]
  rfl

theorem foldEvents_of_unknown (h : ∃ event ∈ events, ¬ event.KnownAt householdId asOf) :
    ∃ e, foldEvents events householdId asOf = .error e ∧
      (e.IsHouseholdMismatch ∨ e.IsLabelLeakage) :=
  applyEvents_of_unknown (by simp [emptySnapshot]) le_rfl h

theorem known_of_applyEvents {snapshot S : InventorySnapshot}
    (hn : (snapshot.lots.map LotState.key).Nodup) (h : applyEvents snapshot events asOf = .ok S) :
    snapshot.asOf ≤ asOf ∧ ∀ event ∈ events, event.KnownAt snapshot.householdId asOf := by
  have ha : snapshot.asOf ≤ asOf := by
    by_contra ha
    rw [applyEvents, if_pos (not_le.mp ha)] at h
    cases h
  refine ⟨ha, ?_⟩
  by_contra hk
  push Not at hk
  obtain ⟨e, he, -⟩ := applyEvents_of_unknown hn ha hk
  cases he.symm.trans h

theorem foldEvents_of_known (h : ∀ event ∈ events, event.KnownAt householdId asOf) :
    ∃ lots, foldEvents events householdId asOf = .ok ⟨householdId, asOf, lots⟩ ∧
      GroupedBy events lots := by
  obtain ⟨lots, he, hs, hl⟩ := foldEvents_spec events h
  exact ⟨lots, he, groupedBy_of_ledger hs hl⟩

theorem foldEvents_perm {events' : List InventoryEvent} (hp : events'.Perm events)
    {S : InventorySnapshot} (h : foldEvents events' householdId asOf = .ok S) :
    foldEvents events householdId asOf = .ok S := by
  have hk : ∀ event ∈ events', event.KnownAt householdId asOf := 
    (known_of_applyEvents (by simp [emptySnapshot]) h).2
  obtain ⟨lots', h', hs', hl'⟩ := foldEvents_spec events' hk
  obtain ⟨lots, he, hs, hl⟩ := foldEvents_spec events fun event hm => hk event (hp.mem_iff.mpr hm)
  have hlots : lots' = lots :=
    hs'.eq_of_ledger_eq hs (by rw [hl', hl, eventsLedger_perm hp])
  rw [he, ← hlots, ← h', h]

/-- A replay refuses exactly the lists with an event of another household or of a later clock, and
else lists the groups of its events, in whatever order they come. -/
theorem fold_is_group_by (events : List InventoryEvent) (householdId : UUID) (asOf : Instant) :
    ((∃ e, foldEvents events householdId asOf = .error e ∧
        (e.IsHouseholdMismatch ∨ e.IsLabelLeakage)) ↔
      ∃ event ∈ events, event.householdId ≠ householdId ∨ asOf < event.occurredAt ∨
        asOf < event.recordedAt) ∧
    ((∀ event ∈ events, event.householdId = householdId ∧ event.occurredAt ≤ asOf ∧
        event.recordedAt ≤ asOf) →
      ∃ lots, foldEvents events householdId asOf = .ok ⟨householdId, asOf, lots⟩ ∧
        GroupedBy events lots) ∧
    ∀ events' : List InventoryEvent, events'.Perm events → ∀ S,
      (foldEvents events' householdId asOf = .ok S ↔
        foldEvents events householdId asOf = .ok S) := by
  refine ⟨?_, foldEvents_of_known,
    fun events' hp S => ⟨foldEvents_perm hp, foldEvents_perm hp.symm⟩⟩
  simp only [← not_knownAt_iff]
  constructor
  · rintro ⟨e, he, -⟩
    by_contra hk
    push Not at hk
    obtain ⟨lots, h, -⟩ := foldEvents_of_known hk
    cases he.symm.trans h
  · exact foldEvents_of_unknown

end Groups

end KitchenSense
