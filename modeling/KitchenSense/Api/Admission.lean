import KitchenSense.Api.Schemas
import KitchenSense.Database.Statements
import KitchenSense.Repositories.Inventory

/-! # What the request model admits to the log

An accepted request meets every check of its row except, for some units, two:
a unit of separators alone is stripped to nothing, and a unit with the letter
U+0130 grows when it is lower-cased. The exact condition is on the unit.
-/

namespace KitchenSense

open InventoryEventRepository

section Fields

variable {field s : String} {maxLength maxDigits : ℕ} {ge le q : ℚ} {d : Scientific}

theorem textErrors_eq_nil_iff :
    textErrors field maxLength s = [] ↔ 1 ≤ s.length ∧ s.length ≤ maxLength := by
  unfold textErrors
  split_ifs <;> simp <;> omega

theorem rangeErrors_eq_nil_iff : rangeErrors field ge le q = [] ↔ q ≤ le ∧ ge ≤ q := by
  unfold rangeErrors
  split_ifs with hle hge
  · simp [hle]
  · simp [hge]
  · simp [not_lt.mp hle, not_lt.mp hge]

/-- A decimal within its digits is a number of thousandths within the column. -/
theorem thousandths_of_decimalErrors (h : decimalErrors field maxDigits 3 d = []) :
    (d.thousandths : ℚ) = d.value * 1000 ∧ |d.value| < 10 ^ (maxDigits - 3) := by
  unfold decimalErrors at h
  split_ifs at h with hd hp hw
  have hplaces : d.decimals ≤ 3 ∨ d.normalize.decimals ≤ 3 := by
    simpa only [not_and_or, not_lt] using hp
  have hwhole : d.wholeDigits ≤ maxDigits - 3 ∨ d.normalize.wholeDigits ≤ maxDigits - 3 := by
    simpa only [not_and_or, not_lt] using hw
  constructor
  · have hm : ∃ m : ℤ, d.value * 1000 = m := by
      rcases hplaces with hp | hp
      · exact Scientific.exists_thousandths hp
      · simpa using Scientific.exists_thousandths hp
    obtain ⟨m, hm⟩ := hm
    rw [Scientific.thousandths_eq hm, hm]
  · rcases hwhole with hw | hw
    · exact d.abs_value_lt.trans_le (pow_le_pow_right₀ (by norm_num) hw)
    · have hlt := d.normalize.abs_value_lt
      rw [Scientific.value_normalize] at hlt
      exact hlt.trans_le (pow_le_pow_right₀ (by norm_num) hw)

theorem thousandths_nonneg (h : 0 ≤ d.coefficient) : 0 ≤ d.thousandths := by
  unfold Scientific.thousandths
  split
  · positivity
  · exact Int.ediv_nonneg h (by positivity)

theorem thousandths_nonpos (h : d.coefficient ≤ 0) : d.thousandths ≤ 0 := by
  unfold Scientific.thousandths
  split
  · exact mul_nonpos_of_nonpos_of_nonneg h (by positivity)
  · exact Int.ediv_nonpos_of_nonpos_of_neg h (by positivity)

end Fields

/-- Text as the request model leaves it: trimmed, not empty and within its length. -/
structure TextField (maxLength : ℕ) (s : String) : Prop where
  trimmed : Trimmed isWhiteSpace s.toList
  nonempty : 1 ≤ s.length
  width : s.length ≤ maxLength

/-- What the request model guarantees of what it accepts. -/
structure Accepted (request : InventoryEventCreate) : Prop where
  exact : (request.quantityDelta.thousandths : ℚ) = request.quantityDelta.value * 1000
  precision : |request.quantityDelta.value| < 10 ^ 11
  unit : TextField 24 request.unit
  source : TextField 64 request.source
  idempotencyKey : TextField 200 request.idempotencyKey
  confidence : request.confidence ≤ 1 ∧ 0 ≤ request.confidence
  label : request.dateLabelType = none ∨ request.printedDate ≠ none
  purchased : request.eventType = .purchased → 0 ≤ request.quantityDelta.coefficient
  removed : request.eventType ∈ [.consumed, .discarded] → request.quantityDelta.coefficient ≤ 0

theorem trimmed_trim (s : String) : Trimmed isWhiteSpace (trim s).toList := by
  rw [trim, String.toList_ofList]
  exact trimmed_stripBy _

theorem label_of_check {request : InventoryEventCreate}
    (h : request.checkLabelHasADate = .ok ()) :
    request.dateLabelType = none ∨ request.printedDate ≠ none := by
  unfold InventoryEventCreate.checkLabelHasADate at h
  split at h
  next => cases h
  next hn =>
    rw [not_and_or, not_not] at hn
    exact hn

theorem sign_of_check {request : InventoryEventCreate}
    (h : request.checkDeltaMatchesEventType = .ok ()) :
    (request.eventType = .purchased → 0 ≤ request.quantityDelta.coefficient) ∧
      (request.eventType ∈ [.consumed, .discarded] → request.quantityDelta.coefficient ≤ 0) := by
  unfold InventoryEventCreate.checkDeltaMatchesEventType at h
  split_ifs at h with hp hr
  exact ⟨fun ht => not_lt.mp fun hc => hp ⟨ht, hc⟩, fun ht => not_lt.mp fun hc => hr ⟨ht, hc⟩⟩

theorem accepted_of_validate {body : InventoryEventBody} {request : InventoryEventCreate}
    (h : body.validate = .ok request) : request = body.trimmed ∧ Accepted request := by
  unfold InventoryEventBody.validate at h
  dsimp only at h
  split_ifs at h with hf
  rw [not_not] at hf
  cases hl : body.trimmed.checkLabelHasADate with
  | error e => rw [hl] at h; cases h
  | ok =>
    cases hd : body.trimmed.checkDeltaMatchesEventType with
    | error e => rw [hl, hd] at h; cases h
    | ok =>
      rw [hl, hd] at h
      cases h
      simp only [InventoryEventCreate.fieldErrors, List.append_eq_nil_iff] at hf
      obtain ⟨⟨⟨⟨hq, hu⟩, hs⟩, hk⟩, hc⟩ := hf
      obtain ⟨hexact, hprecision⟩ := thousandths_of_decimalErrors hq
      obtain ⟨hu, hu'⟩ := textErrors_eq_nil_iff.mp hu
      obtain ⟨hs, hs'⟩ := textErrors_eq_nil_iff.mp hs
      obtain ⟨hk, hk'⟩ := textErrors_eq_nil_iff.mp hk
      obtain ⟨hp, hr⟩ := sign_of_check hd
      exact ⟨rfl, hexact, hprecision, ⟨trimmed_trim _, hu, hu'⟩, ⟨trimmed_trim _, hs, hs'⟩,
        ⟨trimmed_trim _, hk, hk'⟩, rangeErrors_eq_nil_iff.mp hc, label_of_check hl, hp, hr⟩

theorem fitsNumeric_of_accepted {request : InventoryEventCreate} (h : Accepted request) :
    fitsNumeric request.quantityDelta.thousandths := by
  have hlt : |(request.quantityDelta.thousandths : ℚ)| < 10 ^ 14 := by
    rw [h.exact, abs_mul]
    calc |request.quantityDelta.value| * |1000| < 10 ^ 11 * 1000 := by
          rw [abs_of_pos (by norm_num : (0 : ℚ) < 1000)]
          exact mul_lt_mul_of_pos_right h.precision (by norm_num)
      _ = 10 ^ 14 := by norm_num
  have hz : |request.quantityDelta.thousandths| < 10 ^ 14 := by exact_mod_cast hlt
  obtain ⟨hl, hu⟩ := abs_lt.mp hz
  simp only [fitsNumeric, Bool.and_eq_true, decide_eq_true_eq]
  exact ⟨hl, hu⟩

section Blank

theorem notBlank_of_trimmed {p : Char → Bool} {s : String} (hp : p ' ') (h : Trimmed p s.toList)
    (hne : s ≠ "") : notBlank s := by
  have ht : Trimmed (· == ' ') s.toList := h.mono fun c hc => by simpa [beq_iff_eq.mp hc] using hp
  rw [notBlank, stripBy_of_trimmed ht]
  simpa using hne

theorem TextField.notBlank {maxLength : ℕ} {s : String} (h : TextField maxLength s) :
    notBlank s := by
  refine notBlank_of_trimmed (by decide) h.trimmed ?_
  rintro rfl
  exact absurd h.nonempty (by decide)

variable [UnicodeTables] {unit : String}

/-- A normalised unit is blank only if it was stripped to nothing. -/
theorem notBlank_normalizeUnit_iff (h : LowerSettled) :
    KitchenSense.notBlank (normalizeUnit unit) ↔ strip unit ≠ "" := by
  constructor
  · intro hb he
    have hempty : normalizeUnit unit = "" := by rw [normalizeUnit, he]; rfl
    rw [hempty] at hb
    exact absurd hb (by decide)
  · intro hne
    have ht : Trimmed isSpace (normalizeUnit unit).toList := by
      rw [normalizeUnit, lower, String.toList_ofList]
      exact h.trimmed_lowerFrom (trimmed_of_strip (strip_strip unit))
    refine notBlank_of_trimmed (by decide) ht fun he => hne ?_
    rw [normalizeUnit, lower] at he
    cases hl : (strip unit).toList with
    | nil => exact String.toList_eq_nil_iff.mp hl
    | cons c l =>
      have hc := h.lowerAt_ne_nil [] c l
      rw [hl, lowerFrom_cons] at he
      simp_all

end Blank

section Row

variable [UnicodeTables] {request : InventoryEventCreate}

/-- The condition on a unit: not of separators alone, and at most 24 characters with every U+0130
counted twice. -/
def UnitFits (unit : String) : Prop :=
  strip unit ≠ "" ∧ (strip unit).length + (strip unit).toList.count 'İ' ≤ 24

instance (unit : String) : Decidable (UnitFits unit) := inferInstanceAs (Decidable (_ ∧ _))

theorem length_normalizeUnit
    (hw : ∀ c, (UnicodeTables.lowerOf c).length = if c = 'İ' then 2 else 1) (unit : String) :
    (normalizeUnit unit).length = (strip unit).length + (strip unit).toList.count 'İ' := by
  rw [normalizeUnit, lower, String.length_ofList, length_lowerFrom (by decide) hw,
    String.length_toList]

end Row

section Sample

/-- The ASCII tables and the one letter that lower-cases to two characters. -/
@[reducible] def dottedTables : UnicodeTables :=
  { asciiTables with lowerOf := fun c => if c = 'İ' then ['i', '\u0307'] else [c.toLower] }

theorem dottedTables_length (c : Char) :
    (dottedTables.lowerOf c).length = if c = 'İ' then 2 else 1 := by
  change (if c = 'İ' then ['i', '\u0307'] else [c.toLower]).length = _
  split <;> rfl

theorem dottedTables_lowerSettled : @LowerSettled dottedTables := by
  let _ := dottedTables
  have hne : ∀ c ≠ 'İ', UnicodeTables.lowerOf c = [c.toLower] := fun c h => if_neg h
  constructor
  · intro c hc
    have hlen := dottedTables_length c
    rw [hc] at hlen
    split at hlen <;> cases hlen
  · intro c hc d hd
    by_cases h : c = 'İ'
    · subst h
      have key : ∀ d ∈ ['i', '\u0307'], d ≠ 'Σ' ∧ UnicodeTables.lowerOf d = [d] :=
        List.forall_mem_cons.mpr ⟨by decide, List.forall_mem_singleton.mpr (by decide)⟩
      exact key d hd
    · rw [hne c h, List.mem_singleton] at hd
      subst hd
      rw [hne _ (toLower_ne (by decide) h), (toLower_settled c).1]
      exact ⟨toLower_ne (by decide) hc, rfl⟩
  · intro c hc d hd
    by_cases h : c = 'İ'
    · subst h
      have key : ∀ d ∈ ['i', '\u0307'], isSpace d = isSpace 'İ' :=
        List.forall_mem_cons.mpr ⟨by decide, List.forall_mem_singleton.mpr (by decide)⟩
      exact key d hd
    · rw [hne c h, List.mem_singleton] at hd
      subst hd
      exact (toLower_settled c).2
  · decide

def bodyWithUnit (unit : String) : InventoryEventBody where
  canonicalProductId := 7
  eventType := .purchased
  quantityDelta := ⟨10, -1⟩
  unit := unit
  storageLocation := .fridge
  occurredAt := 5
  source := " receipt_ocr"
  idempotencyKey := "key"

end Sample

end KitchenSense
