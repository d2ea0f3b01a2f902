import KitchenSense.Foundations.Text
import Mathlib.Algebra.Order.Field.Rat
import Mathlib.Algebra.Order.Floor.Ring
import Mathlib.Data.Rat.Floor
import Mathlib.Data.String.Basic
import Mathlib.Tactic.NormNum

/-! # Identifiers, instants, dates and quantities

The scalar values of the kitchen record. An instant is a timezone-aware
`datetime`, counted in microseconds; a quantity is a `NUMERIC(14,3)` value,
counted in thousandths, so sums of quantities are exact.
-/

namespace KitchenSense

/-- `uuid.UUID`. -/
abbrev UUID := BitVec 128

/-- An aware `datetime`, in microseconds. -/
abbrev Instant := ℤ

abbrev Decimal := ℤ

abbrev Seconds := ℚ

section Durations

def roundHalfEven (q : ℚ) : ℤ :=
  let n := q.floor
  if q - n < 1 / 2 then n
  else if 1 / 2 < q - n then n + 1
  else if n % 2 = 0 then n else n + 1

/-- `timedelta(seconds=s)`, in microseconds. -/
def timedelta (s : Seconds) : ℤ := roundHalfEven (s * 1000000)

/-- The instants a `datetime` can hold: the years 1 to 9999. -/
def InDatetime (t : Instant) : Prop := -62135596800000000 ≤ t ∧ t < 253402300800000000

instance (t : Instant) : Decidable (InDatetime t) := inferInstanceAs (Decidable (_ ∧ _))

/-- `t + d`, which raises `OverflowError` outside the years of a `datetime`. -/
def shift (t : Instant) (d : ℤ) : Option Instant :=
  if InDatetime (t + d) then some (t + d) else none

theorem shift_eq_some {t u : Instant} {d : ℤ} (h : shift t d = some u) :
    u = t + d ∧ InDatetime u := by
  unfold shift at h
  split at h
  next hin =>
    cases h
    exact ⟨rfl, hin⟩
  next => cases h

theorem shift_of_inDatetime {t : Instant} {d : ℤ} (h : InDatetime (t + d)) :
    shift t d = some (t + d) := if_pos h

theorem roundHalfEven_eq (q : ℚ) : roundHalfEven q =
    if q - ⌊q⌋ < 1 / 2 then ⌊q⌋ else if 1 / 2 < q - ⌊q⌋ then ⌊q⌋ + 1
    else if ⌊q⌋ % 2 = 0 then ⌊q⌋ else ⌊q⌋ + 1 := rfl

theorem floor_le_roundHalfEven (q : ℚ) : ⌊q⌋ ≤ roundHalfEven q ∧ roundHalfEven q ≤ ⌊q⌋ + 1 := by
  rw [roundHalfEven_eq]
  split_ifs <;> omega

theorem roundHalfEven_mono {p q : ℚ} (h : p ≤ q) : roundHalfEven p ≤ roundHalfEven q := by
  rcases (Int.floor_mono h).lt_or_eq with hlt | heq
  · have hp := (floor_le_roundHalfEven p).2
    have hq := (floor_le_roundHalfEven q).1
    omega
  · rw [roundHalfEven_eq, roundHalfEven_eq, heq]
    split_ifs <;> first | omega | linarith

theorem timedelta_mono {a b : Seconds} (h : a ≤ b) : timedelta a ≤ timedelta b :=
  roundHalfEven_mono (mul_le_mul_of_nonneg_right h (by norm_num))

theorem timedelta_nonneg {a : Seconds} (h : 0 ≤ a) : 0 ≤ timedelta a := by
  have hz : timedelta 0 = 0 := by decide +kernel
  exact hz ▸ timedelta_mono h

end Durations

namespace UUID

def hex (u : UUID) : List Char := digits 16 32 u.toNat

/-- `str(u)`: the digits in groups of 8, 4, 4, 4 and 12. -/
def str (u : UUID) : String :=
  let h := u.hex
  String.ofList (h.take 8 ++ '-' :: ((h.drop 8).take 4 ++ '-' :: ((h.drop 12).take 4 ++
    '-' :: ((h.drop 16).take 4 ++ '-' :: h.drop 20))))

theorem toNat_lt (u : UUID) : u.toNat < 16 ^ 32 := u.isLt.trans_eq (by norm_num)

theorem hex_inj {u v : UUID} (h : u.hex = v.hex) : u = v :=
  BitVec.eq_of_toNat_eq (digits_inj (by decide) (by decide) u.toNat_lt v.toNat_lt h)

theorem filter_dash {l : List Char} (h : '-' ∉ l) : l.filter (· ≠ '-') = l :=
  List.filter_eq_self.mpr fun _ hc => decide_eq_true fun he => h (he ▸ hc)

theorem filter_str (u : UUID) : u.str.toList.filter (· ≠ '-') = u.hex := by
  have hd : '-' ∉ u.hex := dash_not_mem_digits (by decide) (by decide)
  have ht : ∀ n m, ((u.hex.drop n).take m).filter (· ≠ '-') = (u.hex.drop n).take m := fun n m =>
    filter_dash fun h => hd (List.mem_of_mem_drop (List.mem_of_mem_take h))
  have h0 := ht 0 8
  have h20 : (u.hex.drop 20).filter (· ≠ '-') = u.hex.drop 20 :=
    filter_dash fun h => hd (List.mem_of_mem_drop h)
  rw [List.drop_zero] at h0
  simp only [str, String.toList_ofList, List.filter_append, List.filter_cons, h0, ht, h20, ne_eq,
    not_true_eq_false, decide_false, Bool.false_eq_true, if_false]
  have hs : ∀ n m, (u.hex.drop n).take m ++ u.hex.drop (n + m) = u.hex.drop n := fun n m => by
    rw [← List.drop_drop, List.take_append_drop]
  rw [hs 16 4, hs 12 4, hs 8 4, List.take_append_drop]

theorem length_str (u : UUID) : u.str.toList.length = 36 := by
  simp [str, hex, length_digits]

theorem str_inj {u v : UUID} (h : u.str = v.str) : u = v :=
  hex_inj (by rw [← filter_str, ← filter_str, h])

end UUID

def daysIn (year month : ℕ) : ℕ :=
  if month = 2 then
    if year % 4 = 0 ∧ (year % 100 ≠ 0 ∨ year % 400 = 0) then 29 else 28
  else if month ∈ [4, 6, 9, 11] then 30 else 31

/-- `datetime.date`: only existing days can be built. -/
structure Date where
  year : ℕ
  month : ℕ
  day : ℕ
  year_valid : 1 ≤ year ∧ year ≤ 9999
  month_valid : 1 ≤ month ∧ month ≤ 12
  day_valid : 1 ≤ day ∧ day ≤ daysIn year month
  deriving DecidableEq

namespace Date

/-- `d.isoformat()`. -/
def isoformat (d : Date) : String :=
  String.ofList (digits 10 4 d.year ++ '-' :: (digits 10 2 d.month ++ '-' :: digits 10 2 d.day))

theorem day_lt (d : Date) : d.day < 100 := by
  have h : daysIn d.year d.month ≤ 31 := by unfold daysIn; split_ifs <;> omega
  have := d.day_valid
  omega

theorem isoformat_inj {d e : Date} (h : d.isoformat = e.isoformat) : d = e := by
  obtain ⟨hy, ht⟩ := List.append_inj (String.ofList_injective h) (by simp [length_digits])
  obtain ⟨hm, ht⟩ := List.append_inj (List.cons_inj_right _ |>.mp ht) (by simp [length_digits])
  have hd := List.cons_inj_right _ |>.mp ht
  have := d.year_valid
  have := e.year_valid
  have := d.month_valid
  have := e.month_valid
  have hyear : d.year = e.year := digits_inj (by decide) (by decide) (by omega) (by omega) hy
  have hmonth : d.month = e.month := digits_inj (by decide) (by decide) (by omega) (by omega) hm
  have hday : d.day = e.day := digits_inj (by decide) (by decide) d.day_lt e.day_lt hd
  cases d; cases e; simp_all

theorem isoformat_ne_empty (d : Date) : d.isoformat ≠ "" := by
  intro h
  have := congrArg String.length h
  simp [isoformat, length_digits] at this

end Date

end KitchenSense
