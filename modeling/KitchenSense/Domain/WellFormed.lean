import KitchenSense.Domain.GroupBy

/-! # Well-formed snapshots

What holds of every lot a replay lists: a normalised unit, clocks in order and
none after the instant, totals that are not negative. Applying events and
merging keep it from any well-formed snapshot on, and change the balance of a
lot by what was opened, corrected and moved.
-/

namespace KitchenSense

/-- What the quantity of a lot owes to neither purchases, nor consumption, nor waste. -/
def LotState.balance (lot : LotState) : Decimal :=
  lot.quantity - lot.purchasedQuantity + lot.consumedQuantity + lot.discardedQuantity

def InventorySnapshot.balance (snapshot : InventorySnapshot) (key : LotKey) : Decimal :=
  ((snapshot.lot key).map LotState.balance).getD 0

/-- The sign constraints of `inventory_events`. -/
def InventoryEvent.SignChecks (event : InventoryEvent) : Prop :=
  (event.quantityDelta ≥ 0 ∨ event.eventType ≠ .purchased) ∧
    (event.quantityDelta ≤ 0 ∨ (event.eventType ≠ .consumed ∧ event.eventType ≠ .discarded))

def neutral (events : List InventoryEvent) : List InventoryEvent :=
  events.filter fun event => event.eventType ∈ [.opened, .corrected, .moved]

theorem sumDeltas_neutral_cons (event : InventoryEvent) (events : List InventoryEvent) :
    sumDeltas (neutral (event :: events)) =
      (if event.eventType ∈ [.opened, .corrected, .moved] then event.quantityDelta else 0) +
        sumDeltas (neutral events) := by
  unfold neutral
  rw [List.filter_cons]
  split <;> simp_all

section Balance

def LotTally.balance (v : LotTally) : Decimal :=
  v.quantity - v.purchasedQuantity + v.consumedQuantity + v.discardedQuantity

theorem LotTally.balance_add (v w : LotTally) : (v + w).balance = v.balance + w.balance := by
  simp only [LotTally.balance, LotTally.quantity_add, LotTally.purchasedQuantity_add,
    LotTally.consumedQuantity_add, LotTally.discardedQuantity_add]
  ring

def balanceAt (L : Ledger LotKey LotTally) (key : LotKey) : Decimal :=
  valueAt (fun _ => LotTally.balance) L key

variable {L L' : Ledger LotKey LotTally} {key : LotKey} {S : InventorySnapshot}

theorem balanceAt_add (L L' : Ledger LotKey LotTally) (key : LotKey) :
    balanceAt (L + L') key = balanceAt L key + balanceAt L' key :=
  valueAt_add (fun _ => LotTally.balance_add) L L' key

theorem Listed.balance_eq (h : Listed S.lots) (key : LotKey) :
    S.balance key = balanceAt (lotsLedger S.lots) key := by
  unfold InventorySnapshot.balance InventorySnapshot.lot
  cases hf : S.lots.find? fun lot => lot.key = key with
  | none =>
    have hn : key ∉ S.lots.map LotState.key := by
      simpa [List.find?_eq_none] using hf
    rw [balanceAt, valueAt_of_eq_zero (lotsLedger_eq_zero_iff.mpr hn)]
    rfl
  | some lot =>
    have hk : lot.key = key := by simpa using List.find?_some hf
    subst hk
    rw [balanceAt, valueAt_of_eq_coe (h.ledger_eq_coe (List.mem_of_find?_eq_some hf))]
    rfl

variable [UnicodeTables]

theorem balance_tally (event : InventoryEvent) : (lotFromEvent event).tally.balance =
    if event.eventType ∈ [.opened, .corrected, .moved] then event.quantityDelta else 0 := by
  cases h : event.eventType <;> simp [lotFromEvent, LotState.tally, LotTally.balance, h]

/-- Events change the balance of a lot by what was opened, corrected and moved of it. -/
theorem balanceAt_eventsLedger (events : List InventoryEvent) (key : LotKey) :
    balanceAt (eventsLedger events) key = sumDeltas (neutral (lotEvents key events)) := by
  induction events with
  | nil => rfl
  | cons event events ih =>
    rw [eventsLedger_cons, balanceAt_add, ih]
    by_cases h : LotKey.forEvent event = key
    · subst h
      have hp : balanceAt (posting event.entry.1 event.entry.2) (LotKey.forEvent event) =
          (lotFromEvent event).tally.balance := valueAt_of_eq_coe (posting_same ..)
      rw [hp, balance_tally, lotEvents_cons_self, sumDeltas_neutral_cons]
    · have hne : key ≠ event.entry.1 := Ne.symm h
      have hp : balanceAt (posting event.entry.1 event.entry.2) key = 0 :=
        valueAt_of_eq_zero (posting_of_ne hne _)
      rw [hp, zero_add, lotEvents_cons_of_ne h]

end Balance

section WellFormed

variable [UnicodeTables]

def NormalizedUnit (unit : String) : Prop := ∃ written, normalizeUnit written = unit

/-- What holds of the totals of a lot known at an instant. -/
structure SoundLot (asOf : Instant) (key : LotKey) (v : LotTally) : Prop where
  unit : NormalizedUnit key.unit
  eventCount : 1 ≤ v.eventCount
  purchased : 0 ≤ v.purchasedQuantity
  consumed : 0 ≤ v.consumedQuantity
  discarded : 0 ≤ v.discardedQuantity
  occurred : v.firstOccurredAt ≤ v.lastOccurredAt
  lastOccurred : v.lastOccurredAt ≤ asOf
  lastRecorded : v.lastRecordedAt ≤ asOf
  opened : ∀ t ∈ v.openedAt, v.firstOccurredAt ≤ t ∧ t ≤ v.lastOccurredAt

/-- Lots in ascending order of their keys, each of them sound at the instant. -/
structure WellFormed (S : InventorySnapshot) : Prop where
  listed : Listed S.lots
  sound : ∀ lot ∈ S.lots, SoundLot S.asOf lot.key lot.tally

variable {asOf asOf' : Instant} {key : LotKey} {v w : LotTally} {event : InventoryEvent}
  {events : List InventoryEvent} {S S' R : InventorySnapshot}

/-- Where lower-casing is settled, a normalised unit is one that normalising leaves alone. -/
theorem normalizedUnit_iff (h : LowerSettled) {unit : String} :
    NormalizedUnit unit ↔ normalizeUnit unit = unit := by
  constructor
  · rintro ⟨written, rfl⟩
    exact h.lower_strip_lower_strip written
  · exact fun hu => ⟨unit, hu⟩

theorem SoundLot.mono (h : SoundLot asOf key v) (ha : asOf ≤ asOf') : SoundLot asOf' key v :=
  { h with
    lastOccurred := h.lastOccurred.trans ha
    lastRecorded := h.lastRecorded.trans ha }

theorem SoundLot.add (hv : SoundLot asOf key v) (hw : SoundLot asOf key w) :
    SoundLot asOf key (v + w) where
  unit := hv.unit
  eventCount := by
    have := hv.eventCount
    simp only [LotTally.eventCount_add]
    omega
  purchased := add_nonneg hv.purchased hw.purchased
  consumed := add_nonneg hv.consumed hw.consumed
  discarded := add_nonneg hv.discarded hw.discarded
  occurred := (min_le_left ..).trans (hv.occurred.trans (le_max_left ..))
  lastOccurred := max_le hv.lastOccurred hw.lastOccurred
  lastRecorded := max_le hv.lastRecorded hw.lastRecorded
  opened := by
    have left : ∀ t ∈ v.openedAt, (v + w).firstOccurredAt ≤ t ∧ t ≤ (v + w).lastOccurredAt :=
      fun t ht => ⟨(min_le_left ..).trans (hv.opened t ht).1,
        (hv.opened t ht).2.trans (le_max_left ..)⟩
    have right : ∀ t ∈ w.openedAt, (v + w).firstOccurredAt ≤ t ∧ t ≤ (v + w).lastOccurredAt :=
      fun t ht => ⟨(min_le_right ..).trans (hw.opened t ht).1,
        (hw.opened t ht).2.trans (le_max_right ..)⟩
    intro t ht
    rw [LotTally.openedAt_add] at ht
    cases hl : v.openedAt with
    | none =>
      rw [hl] at ht
      exact right t ht
    | some a =>
      cases hr : w.openedAt with
      | none =>
        rw [hl, hr] at ht
        exact left t (hl ▸ ht)
      | some b =>
        rw [hl, hr] at ht
        cases Option.mem_some_iff.mp ht
        rcases min_choice a b with h | h
        · exact h.symm ▸ left a hl
        · exact h.symm ▸ right b hr

theorem soundLot_of_event {householdId : UUID} (hk : event.KnownAt householdId asOf)
    (hs : event.SignChecks) : SoundLot asOf event.entry.1 event.entry.2 where
  unit := ⟨event.unit, rfl⟩
  eventCount := le_rfl
  purchased := by
    change 0 ≤ if event.eventType = .purchased then event.quantityDelta else 0
    split
    next h => exact hs.1.resolve_right (not_not.mpr h)
    next => exact le_rfl
  consumed := by
    change 0 ≤ if event.eventType = .consumed then -event.quantityDelta else 0
    split
    next h => exact neg_nonneg.mpr (hs.2.resolve_right fun hne => hne.1 h)
    next => exact le_rfl
  discarded := by
    change 0 ≤ if event.eventType = .discarded then -event.quantityDelta else 0
    split
    next h => exact neg_nonneg.mpr (hs.2.resolve_right fun hne => hne.2 h)
    next => exact le_rfl
  occurred := le_rfl
  lastOccurred := hk.2.1
  lastRecorded := hk.2.2
  opened := by
    intro t ht
    change t ∈ (if event.eventType = .opened then some event.occurredAt else none) at ht
    split at ht
    · cases Option.mem_some_iff.mp ht
      exact ⟨le_rfl, le_rfl⟩
    · cases ht

theorem soundLot_of_ledger {entries : List (LotKey × LotTally)} {lots : List LotState}
    (hs : Listed lots) (hl : lotsLedger lots = ledgerOf entries)
    (h : ∀ e ∈ entries, SoundLot asOf e.1 e.2) :
    ∀ lot ∈ lots, SoundLot asOf lot.key lot.tally := by
  intro lot hm
  have hv := hs.ledger_eq_coe hm
  rw [hl] at hv
  exact ledgerOf_induction (fun _ _ _ ha hb => ha.add hb) h hv

theorem WellFormed.sound_entries (h : WellFormed S) (ha : S.asOf ≤ asOf) :
    ∀ e ∈ S.lots.map LotState.entry, SoundLot asOf e.1 e.2 := by
  intro e he
  obtain ⟨lot, hm, rfl⟩ := List.mem_map.mp he
  exact (h.sound lot hm).mono ha

/-- An accepted batch keeps a snapshot well formed and changes its balances by what was opened,
corrected and moved. -/
theorem WellFormed.applyEvents (h : WellFormed S) (hs : ∀ event ∈ events, event.SignChecks)
    (he : applyEvents S events asOf = .ok R) : WellFormed R ∧ ∀ key,
      R.balance key = S.balance key + sumDeltas (neutral (lotEvents key events)) := by
  obtain ⟨ha, hk⟩ := known_of_applyEvents h.listed.nodup_keys he
  obtain ⟨lots, he', hlots, hl⟩ := applyEvents_spec S events h.listed.nodup_keys ha hk
  cases he'.symm.trans he
  refine ⟨⟨hlots, ?_⟩, fun key => ?_⟩
  · refine soundLot_of_ledger hlots (hl.trans (ledgerOf_append ..).symm) fun e hm => ?_
    rcases List.mem_append.mp hm with hm | hm
    · exact h.sound_entries ha e hm
    · obtain ⟨event, hev, rfl⟩ := List.mem_map.mp hm
      exact soundLot_of_event (hk event hev) (hs event hev)
  · rw [hlots.balance_eq, h.listed.balance_eq, ← balanceAt_eventsLedger, ← balanceAt_add, ← hl]

theorem WellFormed.combineSnapshots (h : WellFormed S) (h' : WellFormed S')
    (hh : S.householdId = S'.householdId) :
    ∃ R, combineSnapshots S S' = .ok R ∧ WellFormed R ∧
      ∀ key, R.balance key = S.balance key + S'.balance key := by
  obtain ⟨lots, hc, hlots, hl⟩ := combineSnapshots_spec h.listed.nodup_keys hh
  refine ⟨_, hc, ⟨hlots, ?_⟩, fun key => ?_⟩
  · refine soundLot_of_ledger hlots (hl.trans (ledgerOf_append ..).symm) fun e hm => ?_
    rcases List.mem_append.mp hm with hm | hm
    · exact h.sound_entries (le_max_left ..) e hm
    · exact h'.sound_entries (le_max_right ..) e hm
  · rw [hlots.balance_eq, h.listed.balance_eq, h'.listed.balance_eq, ← balanceAt_add, ← hl]

/-- Applying an accepted batch and merging keep snapshots well formed, and move the balance of each
lot by what the batch opened, corrected and moved, and to the sum of both sides. -/
theorem wellFormed_inductive :
    (∀ (S : InventorySnapshot) (events : List InventoryEvent) (asOf : Instant)
      (R : InventorySnapshot), WellFormed S → (∀ event ∈ events, event.SignChecks) →
      applyEvents S events asOf = .ok R → WellFormed R ∧
        ∀ key, R.balance key = S.balance key + sumDeltas (neutral (lotEvents key events))) ∧
    (∀ S S' : InventorySnapshot, WellFormed S → WellFormed S' → S.householdId = S'.householdId →
      ∃ R, combineSnapshots S S' = .ok R ∧ WellFormed R ∧
        ∀ key, R.balance key = S.balance key + S'.balance key) ∧
    (LowerSettled → ∀ unit, NormalizedUnit unit ↔ normalizeUnit unit = unit) :=
  ⟨fun _ _ _ _ h hs he => h.applyEvents hs he, fun _ _ h h' hh => h.combineSnapshots h' hh,
    fun h _ => normalizedUnit_iff h⟩

end WellFormed

section Sample

def openedYoghurt : LotState :=
  ⟨⟨7, .fridge, "g", none, none⟩, 2000, 4000, 2000, 0, 3, 1, 5, 5, some 2⟩

def miscounted : InventoryEvent where
  id := 9
  householdId := 1
  canonicalProductId := 7
  eventType := .corrected
  quantityDelta := -500
  unit := " G"
  storageLocation := .fridge
  printedDate := none
  dateLabelType := none
  occurredAt := 7
  recordedAt := 7
  source := "user_manual"
  confidence := 1
  idempotencyKey := "k"
  metadata := "{}"

theorem wellFormed_inductive_correction :
    letI := asciiTables
    (∃ R, applyEvents ⟨1, 6, [openedYoghurt]⟩ [miscounted] 8 = .ok R ∧ WellFormed R ∧
      R.balance openedYoghurt.key = -500) ∧
    (∃ R, combineSnapshots ⟨1, 6, [openedYoghurt]⟩ ⟨1, 9, [openedYoghurt]⟩ = .ok R ∧
      WellFormed R) ∧ (NormalizedUnit "g" ↔ normalizeUnit "g" = "g") := by
  let _ := asciiTables
  have hw : ∀ t ≥ 5, WellFormed ⟨1, t, [openedYoghurt]⟩ := by
    intro t ht
    refine ⟨List.pairwise_singleton .., fun lot hm => ?_⟩
    cases List.mem_singleton.mp hm
    constructor
    · exact ⟨"G", by decide +kernel⟩
    all_goals simp [openedYoghurt, LotState.tally] <;> omega
  obtain ⟨happly, hcombine, hnormal⟩ := wellFormed_inductive
  refine ⟨?_, ?_, hnormal asciiTables_lowerSettled "g"⟩
  · have he : applyEvents ⟨1, 6, [openedYoghurt]⟩ [miscounted] 8 = .ok ⟨1, 8,
        [{ openedYoghurt with
            quantity := 1500, eventCount := 4, lastOccurredAt := 7, lastRecordedAt := 7 }]⟩ := by
      decide +kernel
    obtain ⟨hR, hb⟩ := happly _ _ _ _ (hw 6 (by decide))
      (by simp [miscounted, InventoryEvent.SignChecks]) he
    exact ⟨_, he, hR, (hb _).trans (by decide +kernel)⟩
  · obtain ⟨R, hR, hwf, -⟩ := hcombine _ _ (hw 6 (by decide)) (hw 9 (by decide)) rfl
    exact ⟨R, hR, hwf⟩

end Sample

end KitchenSense
