import KitchenSense.Foundations.Ledger
import KitchenSense.Domain.Inventory
import Mathlib.Tactic.Abel

/-! # The fold is a sum

The totals of a lot form a commutative semigroup, so the lots of a snapshot
are a ledger. Applying events adds their postings to it, whatever their order,
and a snapshot is determined by its household, its instant and its ledger.
-/

namespace KitchenSense

/-- The fields of a lot that accumulate, without its key. -/
@[ext] structure LotTally where
  quantity : Decimal
  purchasedQuantity : Decimal
  consumedQuantity : Decimal
  discardedQuantity : Decimal
  eventCount : ℕ
  firstOccurredAt : Instant
  lastOccurredAt : Instant
  lastRecordedAt : Instant
  openedAt : Option Instant

theorem earliest_comm (a b : Option Instant) : earliest a b = earliest b a := by
  cases a <;> cases b <;> simp [earliest, min_comm]

theorem earliest_assoc (a b c : Option Instant) :
    earliest (earliest a b) c = earliest a (earliest b c) := by
  cases a <;> cases b <;> cases c <;> simp [earliest, min_assoc]

instance : Add LotTally where
  add a b := {
    quantity := a.quantity + b.quantity
    purchasedQuantity := a.purchasedQuantity + b.purchasedQuantity
    consumedQuantity := a.consumedQuantity + b.consumedQuantity
    discardedQuantity := a.discardedQuantity + b.discardedQuantity
    eventCount := a.eventCount + b.eventCount
    firstOccurredAt := min a.firstOccurredAt b.firstOccurredAt
    lastOccurredAt := max a.lastOccurredAt b.lastOccurredAt
    lastRecordedAt := max a.lastRecordedAt b.lastRecordedAt
    openedAt := earliest a.openedAt b.openedAt }

namespace LotTally

variable (a b : LotTally)

@[simp] theorem quantity_add : (a + b).quantity = a.quantity + b.quantity := rfl

@[simp] theorem purchasedQuantity_add :
    (a + b).purchasedQuantity = a.purchasedQuantity + b.purchasedQuantity := rfl

@[simp] theorem consumedQuantity_add :
    (a + b).consumedQuantity = a.consumedQuantity + b.consumedQuantity := rfl

@[simp] theorem discardedQuantity_add :
    (a + b).discardedQuantity = a.discardedQuantity + b.discardedQuantity := rfl

@[simp] theorem eventCount_add : (a + b).eventCount = a.eventCount + b.eventCount := rfl

@[simp] theorem firstOccurredAt_add :
    (a + b).firstOccurredAt = min a.firstOccurredAt b.firstOccurredAt := rfl

@[simp] theorem lastOccurredAt_add :
    (a + b).lastOccurredAt = max a.lastOccurredAt b.lastOccurredAt := rfl

@[simp] theorem lastRecordedAt_add :
    (a + b).lastRecordedAt = max a.lastRecordedAt b.lastRecordedAt := rfl

@[simp] theorem openedAt_add : (a + b).openedAt = earliest a.openedAt b.openedAt := rfl

end LotTally

instance : AddCommSemigroup LotTally where
  add_assoc _ _ _ := LotTally.ext (add_assoc ..) (add_assoc ..) (add_assoc ..) (add_assoc ..)
    (add_assoc ..) (min_assoc ..) (max_assoc ..) (max_assoc ..) (earliest_assoc ..)
  add_comm _ _ := LotTally.ext (add_comm ..) (add_comm ..) (add_comm ..) (add_comm ..)
    (add_comm ..) (min_comm ..) (max_comm ..) (max_comm ..) (earliest_comm ..)

namespace LotState

def tally (lot : LotState) : LotTally where
  quantity := lot.quantity
  purchasedQuantity := lot.purchasedQuantity
  consumedQuantity := lot.consumedQuantity
  discardedQuantity := lot.discardedQuantity
  eventCount := lot.eventCount
  firstOccurredAt := lot.firstOccurredAt
  lastOccurredAt := lot.lastOccurredAt
  lastRecordedAt := lot.lastRecordedAt
  openedAt := lot.openedAt

def entry (lot : LotState) : LotKey × LotTally := (lot.key, lot.tally)

@[simp] theorem entry_fst (lot : LotState) : lot.entry.1 = lot.key := rfl

theorem entry_injective : Function.Injective entry := by
  intro a b h
  cases a; cases b
  simp_all [entry, tally]

end LotState

def lotsLedger (lots : List LotState) : Ledger LotKey LotTally := ledgerOf (lots.map LotState.entry)

theorem combineLots_spec {a b : LotState} (h : a.key = b.key) :
    ∃ lot, combineLots a b = .ok lot ∧ lot.key = a.key ∧ lot.tally = a.tally + b.tally := by
  exact ⟨_, if_neg (not_not.mpr h), rfl, rfl⟩

section SortKey

theorem StorageLocation.value_injective : Function.Injective StorageLocation.value := by
  intro a b h
  cases a <;> cases b <;> first | rfl | exact absurd h (by decide)

theorem DateLabelType.value_injective : Function.Injective DateLabelType.value := by
  intro a b h
  cases a <;> cases b <;> first | rfl | exact absurd h (by decide)

theorem DateLabelType.value_ne_empty (t : DateLabelType) : t.value ≠ "" := by
  cases t <;> decide

theorem getD_map_injective {τ : Type*} {f : τ → String} (hf : Function.Injective f)
    (hne : ∀ t, f t ≠ "") {a b : Option τ} (h : (a.map f).getD "" = (b.map f).getD "") : a = b := by
  cases a with
  | none =>
    cases b with
    | none => rfl
    | some b => exact absurd h.symm (hne b)
  | some a =>
    cases b with
    | none => exact absurd h (hne a)
    | some b => exact congrArg some (hf h)

/-- Different lots never tie in the order of a snapshot. -/
theorem LotKey.sortKey_injective : Function.Injective LotKey.sortKey := by
  intro a b h
  simp only [LotKey.sortKey, List.cons.injEq, and_true] at h
  obtain ⟨hp, hs, hu, hd, hl⟩ := h
  have hdate : a.printedDate = b.printedDate :=
    getD_map_injective (fun _ _ => Date.isoformat_inj) Date.isoformat_ne_empty hd
  have hlabel : a.dateLabelType = b.dateLabelType :=
    getD_map_injective DateLabelType.value_injective DateLabelType.value_ne_empty hl
  have hid := UUID.str_inj hp
  have hloc := StorageLocation.value_injective hs
  cases a; cases b
  simp_all

end SortKey

/-- Lots in strictly ascending order of their sort keys, as a snapshot lists them. -/
abbrev Listed (lots : List LotState) : Prop := Ascending (fun lot => lot.key.sortKey) lots

theorem map_sortKey (lots : List LotState) :
    (lots.map fun lot => lot.key.sortKey) = (lots.map LotState.key).map LotKey.sortKey := by
  simp

theorem Listed.nodup_keys {lots : List LotState} (h : Listed lots) :
    (lots.map LotState.key).Nodup := by
  have := h.nodup_map
  rw [map_sortKey] at this
  exact this.of_map

theorem Listed.ledger_eq_coe {lots : List LotState} (h : Listed lots) {lot : LotState}
    (hm : lot ∈ lots) : lotsLedger lots lot.key = lot.tally := by
  have hn : ((lots.map LotState.entry).map Prod.fst).Nodup := by
    simpa [List.map_map, Function.comp_def] using h.nodup_keys
  exact (ledgerOf_eq_coe_iff hn).mpr (List.mem_map_of_mem hm)

theorem lotsLedger_eq_zero_iff {lots : List LotState} {key : LotKey} :
    lotsLedger lots key = 0 ↔ key ∉ lots.map LotState.key := by
  simp [lotsLedger, ledgerOf_eq_zero_iff]

theorem Listed.eq_of_ledger_eq {lots lots' : List LotState} (h : Listed lots) (h' : Listed lots')
    (he : lotsLedger lots = lotsLedger lots') : lots = lots' := by
  have hp : (lots.map LotState.entry).Perm (lots'.map LotState.entry) :=
    perm_of_ledgerOf_eq (by simpa [List.map_map, Function.comp_def] using h.nodup_keys)
      (by simpa [List.map_map, Function.comp_def] using h'.nodup_keys) he
  exact h.eq_of_perm h' ((List.map_perm_map_iff LotState.entry_injective).mp hp)

def Filed (lots : Dict LotKey LotState) : Prop := ∀ e ∈ lots.entries, e.2.key = e.1

theorem Filed.keys_values {lots : Dict LotKey LotState} (h : Filed lots) :
    lots.values.map LotState.key = lots.entries.map Prod.fst := by
  rw [Dict.values, List.map_map]
  exact List.map_congr_left h

theorem filed_ofPairs {lots : List LotState} (h : (lots.map LotState.key).Nodup) :
    Filed (Dict.ofPairs (lots.map fun lot => (lot.key, lot))) ∧
      (Dict.ofPairs (lots.map fun lot => (lot.key, lot))).values = lots := by
  have hk : ((lots.map fun lot => (lot.key, lot)).map Prod.fst).Nodup := by
    simpa [List.map_map, Function.comp_def] using h
  have he := Dict.entries_ofPairs hk
  refine ⟨fun e hm => ?_, ?_⟩
  · rw [he] at hm
    obtain ⟨lot, -, rfl⟩ := List.mem_map.mp hm
    rfl
  · rw [Dict.values, he, List.map_map]
    exact List.map_id _

theorem freeze_spec (householdId : UUID) (asOf : Instant) {lots : Dict LotKey LotState}
    (hf : Filed lots) : Listed (freeze householdId asOf lots).lots ∧
      lotsLedger (freeze householdId asOf lots).lots = lotsLedger lots.values := by
  constructor
  · apply ascending_insertionSort (fun lot : LotState => lot.key.sortKey)
    rw [map_sortKey, hf.keys_values]
    exact lots.nodup.map LotKey.sortKey_injective
  · exact ledgerOf_perm ((List.perm_insertionSort _ _).map _)

theorem mergeLot_spec {lots : Dict LotKey LotState} (hf : Filed lots) (lot : LotState) :
    ∃ lots', mergeLot lots lot = .ok lots' ∧ Filed lots' ∧
      lotsLedger lots'.values = lotsLedger lots.values + posting lot.entry.1 lot.entry.2 := by
  unfold mergeLot
  cases hg : lots.get? lot.key with
  | none =>
    have he := Dict.entries_set_of_none (v := lot) hg
    refine ⟨_, rfl, fun e hm => ?_, ?_⟩
    · rw [he, List.mem_append, List.mem_singleton] at hm
      rcases hm with hm | rfl
      · exact hf e hm
      · rfl
    · simp [lotsLedger, Dict.values, he]
  | some existing =>
    obtain ⟨l, r, hl, -⟩ := Dict.entries_set_of_some (v := existing) hg
    have hkey : existing.key = lot.key := hf (lot.key, existing) (by rw [hl]; simp)
    obtain ⟨merged, hc, hlk, hlt⟩ := combineLots_spec hkey
    obtain ⟨l, r, hl, hs⟩ := Dict.entries_set_of_some (v := merged) hg
    refine ⟨_, by simp only [hc]; rfl, fun e hm => ?_, ?_⟩
    · rw [hs, List.mem_append, List.mem_cons] at hm
      rcases hm with hm | rfl | hm
      · exact hf e (by rw [hl]; simp [hm])
      · exact hlk.trans hkey
      · exact hf e (by rw [hl]; simp [hm])
    · have hp : posting merged.key merged.tally = posting existing.key existing.tally +
          posting lot.entry.1 lot.entry.2 := by
        rw [hlt, posting_add, hlk, hkey]; rfl
      simp only [lotsLedger, Dict.values, hs, hl, List.map_append, List.map_cons, ledgerOf_append,
        ledgerOf_cons, LotState.entry, hp]
      abel

theorem foldlM_mergeLot_spec (right : List LotState) {lots : Dict LotKey LotState}
    (hf : Filed lots) :
    ∃ lots', right.foldlM mergeLot lots = .ok lots' ∧ Filed lots' ∧
      lotsLedger lots'.values = lotsLedger lots.values + lotsLedger right := by
  induction right generalizing lots with
  | nil => exact ⟨lots, rfl, hf, by simp [lotsLedger]⟩
  | cons lot right ih =>
    obtain ⟨lots₁, h₁, hf₁, hl₁⟩ := mergeLot_spec hf lot
    obtain ⟨lots₂, h₂, hf₂, hl₂⟩ := ih hf₁
    refine ⟨lots₂, ?_, hf₂, ?_⟩
    · rw [List.foldlM_cons, h₁]; exact h₂
    · rw [hl₂, hl₁, add_assoc]
      simp [lotsLedger]

/-- Snapshots of one household always merge, and their ledgers add up. -/
theorem combineSnapshots_spec {left right : InventorySnapshot}
    (hn : (left.lots.map LotState.key).Nodup) (hh : left.householdId = right.householdId) :
    ∃ lots, combineSnapshots left right =
        .ok ⟨left.householdId, max left.asOf right.asOf, lots⟩ ∧
      Listed lots ∧ lotsLedger lots = lotsLedger left.lots + lotsLedger right.lots := by
  obtain ⟨hf, hv⟩ := filed_ofPairs hn
  obtain ⟨lots, h, hf', hl⟩ := foldlM_mergeLot_spec right.lots hf
  obtain ⟨hs, hl'⟩ := freeze_spec left.householdId (max left.asOf right.asOf) hf'
  refine ⟨_, ?_, hs, by rw [hl', hl, hv]⟩
  rw [combineSnapshots, if_neg (not_not.mpr hh), h]
  rfl

section Apply

variable [UnicodeTables]

def InventoryEvent.entry (event : InventoryEvent) : LotKey × LotTally := (lotFromEvent event).entry

def eventsLedger (events : List InventoryEvent) : Ledger LotKey LotTally :=
  ledgerOf (events.map InventoryEvent.entry)

@[simp] theorem eventsLedger_nil : eventsLedger [] = 0 := rfl

@[simp] theorem eventsLedger_cons (e : InventoryEvent) (es : List InventoryEvent) :
    eventsLedger (e :: es) = posting e.entry.1 e.entry.2 + eventsLedger es := by
  simp [eventsLedger]

@[simp] theorem eventsLedger_append (es fs : List InventoryEvent) :
    eventsLedger (es ++ fs) = eventsLedger es + eventsLedger fs := by
  simp [eventsLedger]

theorem eventsLedger_perm {es fs : List InventoryEvent} (h : es.Perm fs) :
    eventsLedger es = eventsLedger fs := ledgerOf_perm (h.map _)

/-- An event of the household that both clocks put at or before the instant. -/
def InventoryEvent.KnownAt (householdId : UUID) (asOf : Instant) (event : InventoryEvent) : Prop :=
  event.householdId = householdId ∧ event.occurredAt ≤ asOf ∧ event.recordedAt ≤ asOf

/-- One pass of the loop over a known event adds its posting. -/
theorem absorb_spec {householdId : UUID} {asOf : Instant} {lots : Dict LotKey LotState}
    {event : InventoryEvent} (hf : Filed lots) (hk : event.KnownAt householdId asOf) :
    ∃ lots', absorb householdId asOf lots event = .ok lots' ∧ Filed lots' ∧
      lotsLedger lots'.values =
        lotsLedger lots.values + posting event.entry.1 event.entry.2 := by
  obtain ⟨hh, ho, hr⟩ := hk
  rw [absorb, if_neg (not_not.mpr hh), if_neg (not_or.mpr ⟨not_lt.mpr ho, not_lt.mpr hr⟩)]
  exact mergeLot_spec hf (lotFromEvent event)

theorem foldlM_absorb_spec {householdId : UUID} {asOf : Instant} {events : List InventoryEvent}
    (hk : ∀ event ∈ events, event.KnownAt householdId asOf) {lots : Dict LotKey LotState}
    (hf : Filed lots) :
    ∃ lots', events.foldlM (absorb householdId asOf) lots = .ok lots' ∧ Filed lots' ∧
      lotsLedger lots'.values = lotsLedger lots.values + eventsLedger events := by
  induction events generalizing lots with
  | nil => exact ⟨lots, rfl, hf, by simp⟩
  | cons event events ih =>
    obtain ⟨hk, hks⟩ := List.forall_mem_cons.mp hk
    obtain ⟨lots₁, h₁, hf₁, hl₁⟩ := absorb_spec hf hk
    obtain ⟨lots₂, h₂, hf₂, hl₂⟩ := ih hks hf₁
    refine ⟨lots₂, ?_, hf₂, ?_⟩
    · rw [List.foldlM_cons, h₁]; exact h₂
    · rw [hl₂, hl₁, eventsLedger_cons, add_assoc]

/-- Known events are always accepted, and their ledger is added to the snapshot's. -/
theorem applyEvents_spec (snapshot : InventorySnapshot) (events : List InventoryEvent)
    {asOf : Instant} (hn : (snapshot.lots.map LotState.key).Nodup) (ha : snapshot.asOf ≤ asOf)
    (hk : ∀ event ∈ events, event.KnownAt snapshot.householdId asOf) :
    ∃ lots, applyEvents snapshot events asOf = .ok ⟨snapshot.householdId, asOf, lots⟩ ∧
      Listed lots ∧ lotsLedger lots = lotsLedger snapshot.lots + eventsLedger events := by
  obtain ⟨hf, hv⟩ := filed_ofPairs hn
  obtain ⟨lots, h, hf', hl⟩ := foldlM_absorb_spec hk hf
  obtain ⟨hs, hl'⟩ := freeze_spec snapshot.householdId asOf hf'
  refine ⟨_, ?_, hs, by rw [hl', hl, hv]⟩
  rw [applyEvents, if_neg (not_lt.mpr ha), h]
  rfl

/-- A full replay of known events lists the lots of their ledger. -/
theorem foldEvents_spec {householdId : UUID} {asOf : Instant} (events : List InventoryEvent)
    (hk : ∀ event ∈ events, event.KnownAt householdId asOf) :
    ∃ lots, foldEvents events householdId asOf = .ok ⟨householdId, asOf, lots⟩ ∧
      Listed lots ∧ lotsLedger lots = eventsLedger events := by
  obtain ⟨lots, h, hs, hl⟩ := applyEvents_spec (emptySnapshot householdId asOf) events
    (by simp [emptySnapshot]) le_rfl hk
  exact ⟨lots, h, hs, by rw [hl]; simp [emptySnapshot, lotsLedger]⟩

end Apply

end KitchenSense
