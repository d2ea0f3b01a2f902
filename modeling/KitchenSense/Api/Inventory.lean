import KitchenSense.Api.Responses
import KitchenSense.Repositories.Effects

/-! # Appending an event over HTTP

What `append_event` answers is decided by the body, the log and the products.
Only a 201 writes; a 500 is left for what the checks of the body let through
and no column holds.
-/

namespace KitchenSense

open InventoryEventRepository

/-- The driver and the server take the values of a row: no text holds U+0000, the event occurred at
an instant that has a UTC time, and `jsonb` holds the metadata. -/
def InventoryEventRow.storable (jsonb : String → Bool) (row : InventoryEventRow) : Bool :=
  [row.unit, row.source, row.idempotencyKey].all storableText && InDatetime row.occurredAt &&
    jsonb row.eventMetadata

section Units

variable {unit : String}

def UnitTooWide (unit : String) : Prop :=
  24 < (strip unit).length + (strip unit).toList.count 'İ'

instance (unit : String) : Decidable (UnitTooWide unit) := inferInstanceAs (Decidable (_ < _))

theorem unitFits_iff : UnitFits unit ↔ strip unit ≠ "" ∧ ¬ UnitTooWide unit := by
  rw [UnitFits, UnitTooWide, not_lt]

end Units

section Insertions

variable {db : Db} {row : InventoryEventRow}

theorem insertEventIfNew_of_violated {c : EventConstraint}
    (h : violated row.rowChecks = some c) : insertEventIfNew row db = .error (.event c) := by
  rw [insertEventIfNew, Transaction.bind_of_error (require_of_some h)]

theorem insertEventIfNew_of_taken {r : InventoryEventRow} (hc : violated row.rowChecks = none)
    (hr : r ∈ db.events) (hk : r.idempotencyKey = row.idempotencyKey) :
    insertEventIfNew row db = .ok (false, db) := by
  have ht : (db.events.any fun r => r.idempotencyKey = row.idempotencyKey) = true := by
    simpa using ⟨r, hr, hk⟩
  rw [insertEventIfNew, Transaction.bind_of_ok (require_of_none hc), Transaction.get_bind,
    if_pos ht]
  rfl

/-- A row whose key is free and which is not admitted has a taken id or an unknown product. -/
theorem insertEventIfNew_of_unknown (hc : violated row.rowChecks = none)
    (hk : ∀ r ∈ db.events, r.idempotencyKey ≠ row.idempotencyKey)
    (hh : row.householdId ∈ db.households)
    (hp : (∃ r ∈ db.events, r.id = row.id) ∨ row.canonicalProductId ∉ db.products) :
    ∃ c, c.isIntegrityError = true ∧ insertEventIfNew row db = .error (.event c) := by
  have hn : ¬ (db.events.any fun r => r.idempotencyKey = row.idempotencyKey) = true := by
    simpa using hk
  rw [insertEventIfNew, Transaction.bind_of_ok (require_of_none hc), Transaction.get_bind,
    if_neg hn]
  by_cases hi : ∃ r ∈ db.events, r.id = row.id
  · have hv : violated [(EventConstraint.primaryKey, db.events.all fun r => r.id ≠ row.id)] =
        some .primaryKey := by
      have ha : (db.events.all fun r => r.id ≠ row.id) = false := by simpa using hi
      rw [ha]
      rfl
    exact ⟨.primaryKey, rfl, Transaction.bind_of_error (require_of_some hv)⟩
  · have hv : violated [(EventConstraint.primaryKey, db.events.all fun r => r.id ≠ row.id)] =
        none := by
      have ha : (db.events.all fun r => r.id ≠ row.id) = true := by simpa using hi
      rw [ha]
      rfl
    have hr : violated (row.referenceChecks db) = some .productExists := by
      simp [violated, InventoryEventRow.referenceChecks, hh, hp.resolve_left hi]
    refine ⟨.productExists, rfl, ?_⟩
    rw [Transaction.bind_of_ok (require_of_none hv), Transaction.bind_of_error (require_of_some hr)]

theorem admissible_of_free (hc : violated row.rowChecks = none)
    (hk : ∀ r ∈ db.events, r.idempotencyKey ≠ row.idempotencyKey)
    (hi : ∀ r ∈ db.events, r.id ≠ row.id) (hh : row.householdId ∈ db.households)
    (hp : row.canonicalProductId ∈ db.products) : Admissible db row := by
  refine ⟨hc, ?_, hi, hk⟩
  simp [violated, InventoryEventRow.referenceChecks, hh, hp]

end Insertions

section Keys

variable {log : List InventoryEventRow} {key : String} {r : InventoryEventRow}

end Keys

section Handler

variable [UnicodeTables] (jsonb : String → Bool) (householdId : UUID) (now : Instant) (id : UUID)

/-- `append_event` for a household, with the id and the time that the database gives the row. -/
def appendEvent (body : InventoryEventBody) (db : Db) : InventoryReply × Db :=
  match body.validate with
  | .error errors => (.invalid errors, db)
  | .ok request =>
    if (toValues householdId id now request.toDomain).storable jsonb then
      let call := appendIfNew householdId now id request.toDomain
      (appendReply (call.answer db), call.commit db)
    else (.serverError, db)

variable {jsonb householdId now id} {body : InventoryEventBody} {request : InventoryEventCreate}
  {db : Db}

/-- What the body, the log and the products say of a request to append, apart from its body's
validation. -/
inductive AppendCase (jsonb : String → Bool) (householdId : UUID) (now : Instant) (id : UUID)
    (request : InventoryEventCreate) (db : Db) : InventoryReply → Db → Prop
  | unstorable (hs : ¬ (toValues householdId id now request.toDomain).storable jsonb) :
      AppendCase jsonb householdId now id request db .serverError db
  | tooWide (hs : (toValues householdId id now request.toDomain).storable jsonb)
      (hu : UnitTooWide request.unit) :
      AppendCase jsonb householdId now id request db .serverError db
  | blank (hs : (toValues householdId id now request.toDomain).storable jsonb)
      (hu : strip request.unit = "") :
      AppendCase jsonb householdId now id request db (.refused notStored) db
  | own (hs : (toValues householdId id now request.toDomain).storable jsonb)
      (hu : UnitFits request.unit) (r : InventoryEventRow) (hr : r ∈ db.events)
      (hk : r.idempotencyKey = request.idempotencyKey) (hh : r.householdId = householdId) :
      AppendCase jsonb householdId now id request db (.existing (.fromDomain r.toDomain)) db
  | foreign (hs : (toValues householdId id now request.toDomain).storable jsonb)
      (hu : UnitFits request.unit) (r : InventoryEventRow) (hr : r ∈ db.events)
      (hk : r.idempotencyKey = request.idempotencyKey) (hh : r.householdId ≠ householdId) :
      AppendCase jsonb householdId now id request db (.refused keyInUse) db
  | unknown (hs : (toValues householdId id now request.toDomain).storable jsonb)
      (hu : UnitFits request.unit) (hk : ∀ r ∈ db.events, r.idempotencyKey ≠ request.idempotencyKey)
      (hp : (∃ r ∈ db.events, r.id = id) ∨ request.canonicalProductId ∉ db.products) :
      AppendCase jsonb householdId now id request db (.refused notStored) db
  | new (hs : (toValues householdId id now request.toDomain).storable jsonb)
      (hu : UnitFits request.unit) (hk : ∀ r ∈ db.events, r.idempotencyKey ≠ request.idempotencyKey)
      (hi : ∀ r ∈ db.events, r.id ≠ id) (hp : request.canonicalProductId ∈ db.products) :
      AppendCase jsonb householdId now id request db
        (.created (.fromDomain (toValues householdId id now request.toDomain).toDomain))
        (db.addEvents [toValues householdId id now request.toDomain])

/-- Of the checks of its row an accepted request can fail two, and not both of them. -/
theorem violated_of_accepted (hl : LowerSettled)
    (hw : ∀ c, (UnicodeTables.lowerOf c).length = if c = 'İ' then 2 else 1)
    (ha : Accepted request) (householdId : UUID) (now : Instant) (id : UUID) :
    violated (toValues householdId id now request.toDomain).rowChecks =
      if UnitTooWide request.unit then some .unitWidth
      else if strip request.unit = "" then some .unitNotBlank else none := by
  have hwidth : (normalizeUnit request.unit).length ≤ 24 ↔ ¬ UnitTooWide request.unit := by
    rw [length_normalizeUnit hw]
    exact not_lt.symm
  have hblank : notBlank (normalizeUnit request.unit) = decide (strip request.unit ≠ "") := by
    rw [Bool.eq_iff_iff, decide_eq_true_iff]
    exact notBlank_normalizeUnit_iff hl
  have hpurchased : request.quantityDelta.thousandths ≥ 0 ∨ request.eventType ≠ .purchased := by
    by_cases ht : request.eventType = .purchased
    · exact .inl (thousandths_nonneg (ha.purchased ht))
    · exact .inr ht
  have hremoval : request.quantityDelta.thousandths ≤ 0 ∨
      (request.eventType ≠ .consumed ∧ request.eventType ≠ .discarded) := by
    by_cases ht : request.eventType ∈ [.consumed, .discarded]
    · exact .inl (thousandths_nonpos (ha.removed ht))
    · exact .inr (by simpa using ht)
  have hconfidence : request.confidence ≥ 0 ∧ request.confidence ≤ 1 :=
    ⟨ha.confidence.2, ha.confidence.1⟩
  have hsource := ha.source.width
  have hkey := ha.idempotencyKey.width
  have hlabel := ha.label
  by_cases htw : UnitTooWide request.unit
  · have hwide : ¬ (normalizeUnit request.unit).length ≤ 24 := fun h => hwidth.mp h htw
    rw [if_pos htw]
    simp [violated, InventoryEventRow.rowChecks, toValues, InventoryEventCreate.toDomain,
      fitsNumeric_of_accepted ha, hwide]
  · have hwide := hwidth.mpr htw
    rw [if_neg htw]
    by_cases hb : strip request.unit = "" <;>
      simp [violated, InventoryEventRow.rowChecks, toValues, InventoryEventCreate.toDomain,
        fitsNumeric_of_accepted ha, hwide, hblank, hb, hpurchased, hremoval, hconfidence, hsource,
        hkey, hlabel, ha.source.notBlank, ha.idempotencyKey.notBlank]

/-- What `append_if_new` does with an accepted request whose row can be stored. -/
theorem appendCase_of_storable (hl : LowerSettled)
    (hw : ∀ c, (UnicodeTables.lowerOf c).length = if c = 'İ' then 2 else 1) (hv : db.Valid)
    (hh : householdId ∈ db.households) (ha : Accepted request)
    (hs : (toValues householdId id now request.toDomain).storable jsonb) :
    AppendCase jsonb householdId now id request db
      (appendReply ((appendIfNew householdId now id request.toDomain).answer db))
      ((appendIfNew householdId now id request.toDomain).commit db) := by
  have hcheck := violated_of_accepted hl hw ha householdId now id
  have failed {c : EventConstraint} (h : insertEventIfNew
      (toValues householdId id now request.toDomain) db = .error (.event c)) :
      appendReply ((appendIfNew householdId now id request.toDomain).answer db) =
          appendReply (.error (.event c)) ∧
        (appendIfNew householdId now id request.toDomain).commit db = db := by
    have hcall : appendIfNew householdId now id request.toDomain db = .error (.event c) :=
      Transaction.bind_of_error h
    rw [Transaction.answer_of_error hcall, Transaction.commit_of_error hcall]
    exact ⟨rfl, rfl⟩
  split_ifs at hcheck with htw hb
  · obtain ⟨hr, hc⟩ := failed (insertEventIfNew_of_violated hcheck)
    rw [hr, hc]
    exact .tooWide hs htw
  · obtain ⟨hr, hc⟩ := failed (insertEventIfNew_of_violated hcheck)
    rw [hr, hc]
    exact .blank hs hb
  have hu : UnitFits request.unit := unitFits_iff.mpr ⟨hb, htw⟩
  by_cases hk : ∃ r ∈ db.events, r.idempotencyKey = request.idempotencyKey
  · obtain ⟨r, hr, hk⟩ := hk
    have hcall : appendIfNew householdId now id request.toDomain db = _ :=
      appendIfNew_of_conflict (insertEventIfNew_of_taken hcheck hr hk)
    have hlookup : getByIdempotencyKey db.events householdId request.toDomain.idempotencyKey =
        .ok (if r.householdId = householdId then some r.toDomain else none) := by
      rw [← getByIdempotencyKey_of_mem hv.keys hr, hk]
      rfl
    rw [hlookup] at hcall
    by_cases hh : r.householdId = householdId
    · rw [if_pos hh] at hcall
      rw [Transaction.answer_of_ok hcall, Transaction.commit_of_ok hcall]
      exact .own hs hu r hr hk hh
    · rw [if_neg hh] at hcall
      rw [Transaction.answer_of_error hcall, Transaction.commit_of_error hcall]
      exact .foreign hs hu r hr hk hh
  · push Not at hk
    by_cases hp : (∃ r ∈ db.events, r.id = id) ∨ request.canonicalProductId ∉ db.products
    · obtain ⟨c, hi, h⟩ := insertEventIfNew_of_unknown hcheck hk hh hp
      obtain ⟨hr, hc⟩ := failed h
      have hrefused : appendReply (.error (.event c)) = .refused notStored := if_pos hi
      rw [hr, hc, hrefused]
      exact .unknown hs hu hk hp
    · push Not at hp
      have hadm := admissible_of_free hcheck hk hp.1 hh hp.2
      have hcall := appendIfNew_of_admissible hadm
      rw [Transaction.answer_of_ok hcall, Transaction.commit_of_ok hcall]
      exact .new hs hu hk hp.1 hp.2

end Handler

section Sample

end Sample

end KitchenSense
