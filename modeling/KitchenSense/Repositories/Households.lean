import KitchenSense.Repositories.Inventory

/-! # The repository of households

A household is created the first time it is seen: a read, and an insertion that
does nothing where the row is there already.
-/

namespace KitchenSense

/-- A row of `households`; the time it was created at is read by nothing. -/
structure HouseholdRow where
  id : UUID
  name : String
  timezone : String
  deriving DecidableEq

/-- What an insertion into `households` can fail of. -/
inductive HouseholdConstraint
  | nameText | nameWidth | timezoneWidth | nameNotBlank | timezoneNotBlank
  deriving DecidableEq

def HouseholdRow.rowChecks (row : HouseholdRow) : List (HouseholdConstraint × Bool) := [
  (.nameText, storableText row.name),
  (.nameWidth, row.name.length ≤ 200),
  (.timezoneWidth, row.timezone.length ≤ 64),
  (.nameNotBlank, notBlank row.name),
  (.timezoneNotBlank, notBlank row.timezone)]

/-- What `ensure` raises, from its read or from its insertion. -/
inductive EnsureFailure
  | read (failure : Failure)
  | insert (constraint : HouseholdConstraint)
  deriving DecidableEq

namespace HouseholdRepository

def scopedTo (rows : List HouseholdRow) (householdId : UUID) : List HouseholdRow :=
  rows.filter fun row => row.id = householdId

def exists_ (rows : List HouseholdRow) (householdId : UUID) : Except Failure Bool :=
  (oneOrNone (scopedTo rows householdId)).map Option.isSome

def get (rows : List HouseholdRow) (householdId : UUID) : Except Failure (Option HouseholdRow) :=
  oneOrNone (scopedTo rows householdId)

/-- `INSERT … ON CONFLICT (id) DO NOTHING`; whether the row is inserted. -/
def insertIfNew (row : HouseholdRow) (rows : List HouseholdRow) :
    Except HouseholdConstraint Bool :=
  match violated row.rowChecks with
  | some c => .error c
  | none => .ok (rows.all fun r => r.id ≠ row.id)

/-- Create the household if this is the first time it is seen; whether it was created, and the
rows afterwards. -/
def ensure (rows : List HouseholdRow) (row : HouseholdRow) :
    Except EnsureFailure (Bool × List HouseholdRow) :=
  match exists_ rows row.id with
  | .error e => .error (.read e)
  | .ok true => .ok (false, rows)
  | .ok false =>
    match insertIfNew row rows with
    | .error c => .error (.insert c)
    | .ok created => .ok (created, if created then rows ++ [row] else rows)

section Rows

variable {rows : List HouseholdRow} {row : HouseholdRow} {householdId : UUID}

theorem mem_of_exists (h : exists_ rows householdId = .ok true) :
    ∃ r ∈ rows, r.id = householdId := by
  unfold exists_ at h
  cases hs : scopedTo rows householdId with
  | nil => rw [hs] at h; cases h
  | cons r rs =>
    have hm : r ∈ scopedTo rows householdId := by
      rw [hs]
      exact List.mem_cons_self
    simp only [scopedTo, List.mem_filter, decide_eq_true_eq] at hm
    exact ⟨r, hm.1, hm.2⟩

theorem insertIfNew_eq_true (h : insertIfNew row rows = .ok true) : ∀ r ∈ rows, r.id ≠ row.id := by
  unfold insertIfNew at h
  split at h
  · cases h
  · simpa using Except.ok.inj h

theorem insertIfNew_eq_false (h : insertIfNew row rows = .ok false) :
    ∃ r ∈ rows, r.id = row.id := by
  unfold insertIfNew at h
  split at h
  · cases h
  · simpa using Except.ok.inj h

end Rows

end HouseholdRepository

end KitchenSense
