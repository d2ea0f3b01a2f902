import KitchenSense.Domain.Fold
import KitchenSense.Repositories.Inventory

/-! # Replays of the log

The events known at a later instant are those known at an earlier one and
those that became known in between. Folding is a sum, so applying the window
to the earlier replay gives the later replay.
-/

namespace KitchenSense

open InventoryEventRepository

variable {log : List InventoryEventRow} {householdId : UUID} {after asOf t : Instant}

section Windows

theorem fetch_perm (rows : List InventoryEventRow) :
    (fetch rows).Perm (rows.map InventoryEventRow.toDomain) :=
  (List.perm_insertionSort _ _).map _

def knownRows (log : List InventoryEventRow) (householdId : UUID) (asOf : Instant) :
    List InventoryEventRow :=
  (scopedTo log householdId).filter (knownAsOf asOf)

theorem mem_knownRows {row : InventoryEventRow} : row ∈ knownRows log householdId asOf ↔
    row ∈ log ∧ row.householdId = householdId ∧ row.occurredAt ≤ asOf ∧ row.recordedAt ≤ asOf := by
  simp only [knownRows, scopedTo, knownAsOf, List.mem_filter, decide_eq_true_eq, and_assoc]

theorem knownRows_append (log log' : List InventoryEventRow) :
    knownRows (log ++ log') householdId asOf =
      knownRows log householdId asOf ++ knownRows log' householdId asOf := by
  simp [knownRows, scopedTo]

/-- Rows of other households and rows not yet known do not count. -/
theorem knownRows_append_of_unknown {rows : List InventoryEventRow}
    (h : ∀ row ∈ rows, row.householdId = householdId → asOf < max row.occurredAt row.recordedAt) :
    knownRows (log ++ rows) householdId asOf = knownRows log householdId asOf := by
  have hnil : knownRows rows householdId asOf = [] := by
    rw [List.eq_nil_iff_forall_not_mem]
    intro row hm
    obtain ⟨hm, hh, ho, hr⟩ := mem_knownRows.mp hm
    exact absurd (h row hm hh) (not_lt.mpr (max_le ho hr))
  rw [knownRows_append, hnil, List.append_nil]

theorem eventsKnownAsOf_eq : eventsKnownAsOf log householdId asOf none =
    fetch (knownRows log householdId asOf) := rfl

theorem exists_row_of_mem {event : InventoryEvent}
    (h : event ∈ eventsKnownAsOf log householdId asOf none) :
    ∃ row ∈ knownRows log householdId asOf, row.toDomain = event :=
  List.mem_map.mp ((fetch_perm _).mem_iff.mp h)

theorem knownAt_of_mem {event : InventoryEvent}
    (h : event ∈ eventsKnownAsOf log householdId asOf none) : event.KnownAt householdId asOf := by
  obtain ⟨row, hr, rfl⟩ := exists_row_of_mem h
  exact (mem_knownRows.mp hr).2

theorem knownAt_of_mem_between {event : InventoryEvent}
    (h : event ∈ eventsKnownBetween log householdId after asOf) :
    event.KnownAt householdId asOf := by
  obtain ⟨row, hr, rfl⟩ := List.mem_map.mp ((fetch_perm _).mem_iff.mp h)
  simp only [scopedTo, List.mem_filter, decide_eq_true_eq] at hr
  exact ⟨hr.1.2, hr.2.1, hr.2.2.1⟩

theorem eventsKnownBetween_append_of_known {row : InventoryEventRow}
    (h : max row.occurredAt row.recordedAt ≤ after) :
    eventsKnownBetween (log ++ [row]) householdId after asOf =
      eventsKnownBetween log householdId after asOf := by
  obtain ⟨ho, hr⟩ := max_le_iff.mp h
  have hnil : (scopedTo [row] householdId).filter (fun row => row.occurredAt ≤ asOf ∧
      row.recordedAt ≤ asOf ∧ (row.occurredAt > after ∨ row.recordedAt > after)) = [] := by
    rw [List.filter_eq_nil_iff]
    intro r hm
    rw [List.mem_singleton.mp (List.mem_of_mem_filter hm)]
    simp [not_lt.mpr ho, not_lt.mpr hr]
  rw [scopedTo] at hnil
  rw [eventsKnownBetween, scopedTo, List.filter_append, List.filter_append, hnil, List.append_nil]
  rfl

/-- The window `(after, asOf]` is exactly what separates the two known sets. -/
theorem known_perm_append_between (h : after ≤ asOf) :
    (eventsKnownAsOf log householdId asOf none).Perm
      (eventsKnownAsOf log householdId after none ++
        eventsKnownBetween log householdId after asOf) := by
  have hold : (knownRows log householdId asOf).filter (knownAsOf after) =
      knownRows log householdId after := by
    rw [knownRows, List.filter_filter, knownRows]
    apply List.filter_congr
    intro row _
    rw [Bool.and_eq_left_iff_imp]
    simp only [knownAsOf, decide_eq_true_eq]
    exact fun hk => ⟨hk.1.trans h, hk.2.trans h⟩
  have hnew : (knownRows log householdId asOf).filter (fun row => !knownAsOf after row) =
      (scopedTo log householdId).filter fun row => row.occurredAt ≤ asOf ∧ row.recordedAt ≤ asOf ∧
        (row.occurredAt > after ∨ row.recordedAt > after) := by
    rw [knownRows, List.filter_filter]
    apply List.filter_congr
    intro row _
    rw [Bool.eq_iff_iff]
    simp only [knownAsOf, Bool.and_eq_true, Bool.not_eq_true', decide_eq_false_iff_not,
      decide_eq_true_eq, not_and_or, not_le, gt_iff_lt]
    tauto
  have hp := (List.filter_append_perm (knownAsOf after) (knownRows log householdId asOf)).symm
  rw [hold, hnew] at hp
  have hrows := hp.map InventoryEventRow.toDomain
  rw [List.map_append] at hrows
  exact (fetch_perm _).trans (hrows.trans ((fetch_perm _).symm.append (fetch_perm _).symm))

end Windows

section Replay

variable [UnicodeTables]

def knownLedger (log : List InventoryEventRow) (householdId : UUID) (asOf : Instant) :
    Ledger LotKey LotTally :=
  eventsLedger (eventsKnownAsOf log householdId asOf none)

theorem knownLedger_split (h : after ≤ asOf) : knownLedger log householdId asOf =
    knownLedger log householdId after +
      eventsLedger (eventsKnownBetween log householdId after asOf) := by
  rw [knownLedger, eventsLedger_perm (known_perm_append_between h), eventsLedger_append]
  rfl

theorem knownLedger_append (log log' : List InventoryEventRow) :
    knownLedger (log ++ log') householdId asOf =
      knownLedger log householdId asOf + knownLedger log' householdId asOf := by
  have hp : (eventsKnownAsOf (log ++ log') householdId asOf none).Perm
      (eventsKnownAsOf log householdId asOf none ++
        eventsKnownAsOf log' householdId asOf none) := by
    simp only [eventsKnownAsOf_eq]
    refine (fetch_perm _).trans ?_
    rw [knownRows_append, List.map_append]
    exact (fetch_perm _).symm.append (fetch_perm _).symm
  rw [knownLedger, eventsLedger_perm hp, eventsLedger_append]
  rfl

theorem add_eventsLedger_ne (L : Ledger LotKey LotTally) (event : InventoryEvent) :
    L + eventsLedger [event] ≠ L := by
  intro h
  have hk := congrFun h event.entry.1
  rw [eventsLedger, List.map_singleton, ledgerOf_cons, ledgerOf_nil, add_zero, Pi.add_apply,
    posting_same] at hk
  cases hL : L event.entry.1 with
  | zero => rw [hL, zero_add] at hk; exact WithZero.coe_ne_zero hk
  | coe w =>
    rw [hL, ← WithZero.coe_add, WithZero.coe_inj] at hk
    have hc := congrArg LotTally.eventCount hk
    rw [LotTally.eventCount_add] at hc
    exact absurd hc (Nat.ne_of_gt (Nat.lt_add_of_pos_right Nat.one_pos))

theorem knownLedger_eq_of_knownRows_eq {log' : List InventoryEventRow}
    (h : knownRows log householdId asOf = knownRows log' householdId asOf) :
    knownLedger log householdId asOf = knownLedger log' householdId asOf := by
  rw [knownLedger, knownLedger, eventsKnownAsOf_eq, eventsKnownAsOf_eq, h]

/-- `S` is the full replay of a household's log at an instant. -/
def IsReplay (log : List InventoryEventRow) (householdId : UUID) (asOf : Instant)
    (S : InventorySnapshot) : Prop :=
  foldEvents (eventsKnownAsOf log householdId asOf none) householdId asOf = .ok S

theorem exists_isReplay (log : List InventoryEventRow) (householdId : UUID) (asOf : Instant) :
    ∃ S, IsReplay log householdId asOf S := by
  obtain ⟨lots, h, -⟩ := foldEvents_spec (eventsKnownAsOf log householdId asOf none)
    fun _ => knownAt_of_mem
  exact ⟨_, h⟩

/-- A replay is the sorted listing of the ledger of the known events. -/
theorem isReplay_iff {S : InventorySnapshot} : IsReplay log householdId asOf S ↔
    S.householdId = householdId ∧ S.asOf = asOf ∧ Listed S.lots ∧
      lotsLedger S.lots = knownLedger log householdId asOf := by
  obtain ⟨lots, h, hs, hl⟩ := foldEvents_spec (eventsKnownAsOf log householdId asOf none)
    fun _ => knownAt_of_mem
  constructor
  · intro hr
    cases h.symm.trans hr
    exact ⟨rfl, rfl, hs, hl⟩
  · obtain ⟨hh, t, ls⟩ := S
    rintro ⟨rfl, rfl, hs', hl'⟩
    cases hs'.eq_of_ledger_eq hs (hl'.trans hl.symm)
    exact h

theorem IsReplay.self {S : InventorySnapshot} (h : IsReplay log householdId asOf S) :
    IsReplay log householdId S.asOf S := by
  rw [(isReplay_iff.mp h).2.1]; exact h

theorem IsReplay.unique {S S' : InventorySnapshot} (h : IsReplay log householdId asOf S)
    (h' : IsReplay log householdId asOf S') : S = S' :=
  Except.ok.inj (h.symm.trans h')

theorem IsReplay.of_knownRows_eq {log' : List InventoryEventRow} {S : InventorySnapshot}
    (h : IsReplay log householdId asOf S)
    (he : knownRows log householdId asOf = knownRows log' householdId asOf) :
    IsReplay log' householdId asOf S := by
  rw [isReplay_iff] at h ⊢
  rwa [← knownLedger_eq_of_knownRows_eq he]

theorem IsReplay.ne_of_known_row {S S' : InventorySnapshot} {row : InventoryEventRow}
    (h : IsReplay log householdId asOf S) (h' : IsReplay (log ++ [row]) householdId asOf S')
    (hr : row ∈ knownRows [row] householdId asOf) : S' ≠ S := by
  rintro rfl
  have hl := (isReplay_iff.mp h').2.2.2
  rw [(isReplay_iff.mp h).2.2.2, knownLedger_append] at hl
  have hrows : knownRows [row] householdId asOf = [row] := by
    obtain ⟨-, hh, ho, hr⟩ := mem_knownRows.mp hr
    simp [knownRows, scopedTo, knownAsOf, hh, ho, hr]
  have hone : knownLedger [row] householdId asOf = eventsLedger [row.toDomain] := by
    rw [knownLedger, eventsKnownAsOf_eq, hrows]
    rfl
  exact add_eventsLedger_ne _ _ (hone ▸ hl.symm)

/-- Applying the window to the replay at its start gives the replay at its end. -/
theorem IsReplay.advance {S : InventorySnapshot} (h : IsReplay log householdId after S)
    (ha : after ≤ asOf) :
    ∃ S', applyEvents S (eventsKnownBetween log householdId after asOf) asOf = .ok S' ∧
      IsReplay log householdId asOf S' := by
  obtain ⟨hh, ht, hs, hl⟩ := isReplay_iff.mp h
  obtain ⟨lots, he, hs', hl'⟩ := applyEvents_spec S
    (eventsKnownBetween log householdId after asOf) hs.nodup_keys (ht.trans_le ha)
    fun _ hm => hh ▸ knownAt_of_mem_between hm
  refine ⟨_, he, isReplay_iff.mpr ⟨hh, rfl, hs', ?_⟩⟩
  rw [hl', hl, ← knownLedger_split ha]

theorem IsReplay.lot_of_le {S S' : InventorySnapshot} (h : IsReplay log householdId after S)
    (h' : IsReplay log householdId asOf S') (ha : after ≤ asOf) :
    ∀ lot ∈ S.lots, ∃ lot' ∈ S'.lots, lot'.key = lot.key := by
  intro lot hm
  have hk : lotsLedger S.lots lot.key ≠ 0 := fun hz =>
    ledgerOf_eq_zero_iff.mp hz _ (List.mem_map_of_mem hm) rfl
  rw [(isReplay_iff.mp h).2.2.2] at hk
  have hk' : lotsLedger S'.lots lot.key ≠ 0 := by
    rw [(isReplay_iff.mp h').2.2.2, knownLedger_split ha, Pi.add_apply, ne_eq,
      withZero_add_eq_zero]
    exact fun hz => hk hz.1
  rw [lotsLedger, ne_eq, ledgerOf_eq_zero_iff] at hk'
  push Not at hk'
  obtain ⟨e, he, hkey⟩ := hk'
  obtain ⟨lot', hm', rfl⟩ := List.mem_map.mp he
  exact ⟨lot', hm', hkey⟩

/-- Two replays of one log that list any lots have a lot key in common. -/
theorem IsReplay.common_lot {S S' : InventorySnapshot} (h : IsReplay log householdId after S)
    (h' : IsReplay log householdId asOf S') (hne : S.lots ≠ []) (hne' : S'.lots ≠ []) :
    ∃ lot ∈ S.lots, ∃ lot' ∈ S'.lots, lot'.key = lot.key := by
  rcases le_total after asOf with ha | ha
  · obtain ⟨lot, hm⟩ := List.exists_mem_of_ne_nil _ hne
    exact ⟨lot, hm, h.lot_of_le h' ha lot hm⟩
  · obtain ⟨lot', hm'⟩ := List.exists_mem_of_ne_nil _ hne'
    obtain ⟨lot, hm, hk⟩ := h'.lot_of_le h ha lot' hm'
    exact ⟨lot, hm, lot', hm', hk.symm⟩

end Replay

end KitchenSense
