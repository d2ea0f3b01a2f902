import Mathlib.Algebra.Order.Field.Rat
import KitchenSense.Foundations.Text

/-! # JSON values

The values that Python's `json.loads` returns, with what `bool`, `str`, `repr`
and `int` make of them.
-/

namespace KitchenSense

inductive Json
  | null
  | bool (b : Bool)
  /-- A number, unless it is infinite or not a number, with the text that `repr` writes. -/
  | number (value : Option ℚ) (written : String)
  | text (s : String)
  | array (items : List Json)
  | object (entries : List (String × Json))

def escaped (kind : Char) (width : ℕ) (c : Char) : List Char :=
  '\\' :: kind :: digits 16 width c.toNat

theorem mem_escaped {kind c d : Char} {width : ℕ} (hk : kind.toNat < 128 ∧ kind ≠ '\r')
    (h : d ∈ escaped kind width c) : d.toNat < 128 ∧ d ≠ '\r' := by
  have hdigit : ∀ i < 16, (Nat.digitChar i).toNat < 128 ∧ Nat.digitChar i ≠ '\r' := by decide
  rw [escaped, List.mem_cons, List.mem_cons] at h
  rcases h with rfl | rfl | h
  · decide
  · exact hk
  · obtain ⟨i, hi, rfl⟩ := mem_digits (by decide) (by decide) h
    exact hdigit i hi

section Text

variable [UnicodeTables]

/-- How `repr` writes a character between quotes. -/
def reprChar (quote c : Char) : List Char :=
  if c = quote ∨ c = '\\' then ['\\', c]
  else if c = '\t' then ['\\', 't']
  else if c = '\n' then ['\\', 'n']
  else if c = '\r' then ['\\', 'r']
  else if UnicodeTables.isPrintable c then [c]
  else if c.toNat ≤ 0xff then escaped 'x' 2 c
  else if c.toNat ≤ 0xffff then escaped 'u' 4 c
  else escaped 'U' 8 c

/-- `repr(s)`: in single quotes, unless there are some in the text and no double ones. -/
def reprText (s : String) : List Char :=
  let single := Char.ofNat 0x27
  let quote := if single ∈ s.toList ∧ '"' ∉ s.toList then '"' else single
  quote :: s.toList.flatMap (reprChar quote) ++ [quote]

/-- `repr` writes ASCII and the printable characters of the text, and no carriage return. -/
theorem mem_reprChar {quote c d : Char} (hq : quote.toNat < 128 ∧ quote ≠ '\r')
    (h : d ∈ reprChar quote c) :
    d ≠ '\r' ∧ (d.toNat < 128 ∨ d = c ∧ UnicodeTables.isPrintable c) := by
  have ascii {d : Char} (hd : d.toNat < 128 ∧ d ≠ '\r') :
      d ≠ '\r' ∧ (d.toNat < 128 ∨ d = c ∧ UnicodeTables.isPrintable c) := ⟨hd.2, .inl hd.1⟩
  unfold reprChar at h
  split at h
  next hc =>
    rw [List.mem_pair] at h
    rcases h with rfl | rfl
    · exact ascii (by decide)
    · rcases hc with rfl | rfl
      · exact ascii hq
      · exact ascii (by decide)
  split at h
  next => rcases List.mem_pair.mp h with rfl | rfl <;> exact ascii (by decide)
  split at h
  next => rcases List.mem_pair.mp h with rfl | rfl <;> exact ascii (by decide)
  split at h
  next => rcases List.mem_pair.mp h with rfl | rfl <;> exact ascii (by decide)
  next hr =>
    split at h
    next hp =>
      obtain rfl := List.mem_singleton.mp h
      exact ⟨hr, .inr ⟨rfl, hp⟩⟩
    next =>
      split at h
      next => exact ascii (mem_escaped (by decide) h)
      next => split at h <;> exact ascii (mem_escaped (by decide) h)

theorem reprText_eq (s : String) : ∃ quote, quote.toNat < 128 ∧ quote ≠ '\r' ∧
    reprText s = quote :: s.toList.flatMap (reprChar quote) ++ [quote] := by
  unfold reprText
  dsimp only
  split
  · exact ⟨'"', by decide, by decide, rfl⟩
  · exact ⟨Char.ofNat 0x27, by decide, by decide, rfl⟩

theorem mem_reprText {s : String} {d : Char} (h : d ∈ reprText s) :
    d ≠ '\r' ∧ (d.toNat < 128 ∨ d ∈ s.toList ∧ UnicodeTables.isPrintable d) := by
  obtain ⟨quote, hq, hr, he⟩ := reprText_eq s
  rw [he, List.cons_append, List.mem_cons, List.mem_append, List.mem_singleton] at h
  rcases h with rfl | h | rfl
  · exact ⟨hr, .inl hq⟩
  · obtain ⟨c, hc, hd⟩ := List.mem_flatMap.mp h
    obtain ⟨hne, hd | ⟨rfl, hp⟩⟩ := mem_reprChar ⟨hq, hr⟩ hd
    · exact ⟨hne, .inl hd⟩
    · exact ⟨hne, .inr ⟨hc, hp⟩⟩
  · exact ⟨hr, .inl hq⟩

theorem mem_reprText_of_isPrintable {s : String} {c : Char} (hc : c ∈ s.toList)
    (hp : UnicodeTables.isPrintable c) (hw : 128 ≤ c.toNat) : c ∈ reprText s := by
  have hne {d : Char} (hd : d.toNat < 128) : c ≠ d := by
    rintro rfl
    omega
  obtain ⟨quote, hq, -, he⟩ := reprText_eq s
  have hself : reprChar quote c = [c] := by
    simp [reprChar, hne hq, hne (show '\\'.toNat < 128 by decide),
      hne (show '\t'.toNat < 128 by decide), hne (show '\n'.toNat < 128 by decide),
      hne (show '\r'.toNat < 128 by decide), hp]
  rw [he]
  have hmem : c ∈ s.toList.flatMap (reprChar quote) :=
    List.mem_flatMap.mpr ⟨c, hc, by rw [hself]; exact List.mem_singleton_self c⟩
  simp [hmem]

/-- `int(s)` for the digits of a numeral, with single underscores between them. -/
def natOfDigits (ds : List Char) : Option ℕ :=
  let parts := ds.splitOn '_'
  if [] ∈ parts then none
  else (parts.flatten.mapM UnicodeTables.decimal).map fun ns => ns.foldl (fun n d => 10 * n + d) 0

/-- `int(s)`. -/
def intOfText (s : String) : Option ℤ :=
  match stripBy isSpace s.toList with
  | '-' :: ds => (natOfDigits ds).map fun n => -n
  | '+' :: ds => (natOfDigits ds).map fun n => n
  | ds => (natOfDigits ds).map fun n => n

end Text

namespace Json

/-- `bool(v)`. -/
def truthy : Json → Bool
  | null => false
  | bool b => b
  | number value _ => value ≠ some 0
  | text s => s ≠ ""
  | array items => !items.isEmpty
  | object entries => !entries.isEmpty

/-- `v == s` for a text. -/
def isText (s : String) : Json → Bool
  | text s' => s' = s
  | _ => false

theorem isText_iff {s : String} {v : Json} : v.isText s ↔ v = text s := by
  cases v <;> simp [isText]

def isNull : Json → Bool
  | null => true
  | _ => false

/-- `s in v`, when `v` is an array. -/
def holdsText (s : String) : Json → Bool
  | array items => items.any (isText s)
  | _ => false

theorem holdsText_iff {s : String} {v : Json} :
    v.holdsText s ↔ ∃ items, v = array items ∧ text s ∈ items := by
  cases v <;> simp [holdsText, isText_iff]

section Conversions

variable [UnicodeTables]

mutual

/-- `repr(v)`. -/
def repr : Json → List Char
  | null => "None".toList
  | bool b => (if b then "True" else "False").toList
  | number _ written => written.toList
  | text s => reprText s
  | array items => '[' :: [',', ' '].intercalate (reprItems items) ++ [']']
  | object entries => Char.ofNat 0x7b :: [',', ' '].intercalate (reprEntries entries) ++
      [Char.ofNat 0x7d]

def reprItems : List Json → List (List Char)
  | [] => []
  | v :: items => v.repr :: reprItems items

def reprEntries : List (String × Json) → List (List Char)
  | [] => []
  | (name, v) :: entries => (reprText name ++ [':', ' '] ++ v.repr) :: reprEntries entries

end

/-- `str(v)`. -/
def str : Json → String
  | text s => s
  | v => String.ofList v.repr

/-- `int(v)`; `none` when it raises. -/
def toInt : Json → Option ℤ
  | bool b => some (if b then 1 else 0)
  | number value _ => value.map fun q => q.num.tdiv q.den
  | text s => intOfText s
  | _ => none

/-- `float(v)`, of a text only when it is the numeral of an integer; `none` when it raises. -/
def toFloat : Json → Option ℚ
  | bool b => some (if b then 1 else 0)
  | number value _ => value
  | text s => (intOfText s).map Int.cast
  | _ => none

end Conversions

example : letI := asciiTables
    (array [text "it's", null, number (some 2) "2"]).str = "[\"it's\", None, 2]" := by
  decide +kernel

end Json

end KitchenSense
