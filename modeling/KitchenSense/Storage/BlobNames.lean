import KitchenSense.Foundations.Segments
import KitchenSense.Storage.BlobStore

/-! # The names of the blobs

A receipt's blob name has five segments, none of which holds a separator: the
household, the year, the month, the day, and the upload. The three parts can be
read back from it, a household's names are those under its prefix, and quoting
leaves it alone.
-/

namespace KitchenSense

/-- A digit, a letter from `a` to `f`, or a dash. -/
def isNameChar (c : Char) : Bool := c.isDigit || (97 ≤ c.toNat && c.toNat ≤ 102) || c == '-'

def blobSegments (householdId uploadId : UUID) (day : Date) : List (List Char) :=
  [householdId.str.toList, Nat.toDigits 10 day.year, digits 10 2 day.month, digits 10 2 day.day,
    uploadId.str.toList]

def Date.ofNumbers (year month day : ℕ) : Option Date :=
  if h : (1 ≤ year ∧ year ≤ 9999) ∧ (1 ≤ month ∧ month ≤ 12) ∧ 1 ≤ day ∧ day ≤ daysIn year month then
    some ⟨year, month, day, h.1, h.2.1, h.2.2⟩
  else none

def UUID.ofText (l : List Char) : UUID := BitVec.ofNat 128 (valueOf 16 (l.filter (· ≠ '-')))

/-- The household, the date and the upload that a blob name is made of. -/
def partsOfBlobName (blobName : String) : Option (UUID × Date × UUID) :=
  match blobName.toList.splitOn '/' with
  | [household, year, month, day, upload] =>
    (Date.ofNumbers (Nat.ofDigitChars 10 year 0) (valueOf 10 month) (valueOf 10 day)).map
      fun day => (UUID.ofText household, day, UUID.ofText upload)
  | _ => none

/-- `blob_url`: the blob's address, without any credential attached. -/
def StorageSettings.blobUrl (cfg : StorageSettings) (blobName : String) : String :=
  rstrip "/" cfg.storageBlobEndpoint ++ "/" ++ cfg.receiptsContainer ++ "/" ++ quote "/" blobName

section Parts

theorem UUID.ofText_str (u : UUID) : UUID.ofText u.str.toList = u := by
  rw [UUID.ofText, UUID.filter_str, UUID.hex, valueOf_digits (by decide) (by decide) u.toNat_lt,
    BitVec.ofNat_toNat, BitVec.setWidth_eq]

theorem Date.ofNumbers_of_date (d : Date) : Date.ofNumbers d.year d.month d.day = some d :=
  dif_pos ⟨d.year_valid, d.month_valid, d.day_valid⟩

theorem toList_receiptBlobName (a x : UUID) (d : Date) :
    (receiptBlobName a x d).toList = ['/'].intercalate (blobSegments a x d) := by
  simp [receiptBlobName, blobSegments, Date.path]

theorem toList_receiptBlobName_last (a x : UUID) (d : Date) :
    (receiptBlobName a x d).toList =
      (a.str.toList ++ '/' :: d.path) ++ '/' :: x.str.toList := by
  simp [receiptBlobName]

end Parts

section Characters

theorem isNameChar_digitChar {d : ℕ} (h : d < 16) : isNameChar (Nat.digitChar d) = true := by
  have key : ∀ i < 16, isNameChar (Nat.digitChar i) = true := by decide
  exact key d h

theorem isNameChar_of_mem_digits {b w n : ℕ} (hb : 0 < b) (hb' : b ≤ 16) {c : Char}
    (h : c ∈ digits b w n) : isNameChar c = true := by
  obtain ⟨d, hd, rfl⟩ := mem_digits hb hb' h
  exact isNameChar_digitChar hd

theorem isNameChar_of_mem_str {u : UUID} {c : Char} (h : c ∈ u.str.toList) :
    isNameChar c = true := by
  by_cases hc : c = '-'
  · subst hc
    decide
  · have hm : c ∈ u.str.toList.filter (· ≠ '-') := List.mem_filter.mpr ⟨h, decide_eq_true hc⟩
    rw [UUID.filter_str] at hm
    exact isNameChar_of_mem_digits (by decide) (by decide) hm

theorem forall_mem_blobSegments {p : List Char → Prop} {a x : UUID} {d : Date}
    (hu : ∀ u : UUID, p u.str.toList) (hy : ∀ y, p (Nat.toDigits 10 y))
    (hn : ∀ n, p (digits 10 2 n)) : ∀ l ∈ blobSegments a x d, p l := by
  unfold blobSegments
  simp only [List.forall_mem_cons]
  exact ⟨hu a, hy d.year, hn d.month, hn d.day, hu x, List.forall_mem_nil _⟩

theorem isNameChar_of_mem_segment {a x : UUID} {d : Date} :
    ∀ l ∈ blobSegments a x d, ∀ c ∈ l, isNameChar c = true := by
  apply forall_mem_blobSegments
  · exact fun u c hc => isNameChar_of_mem_str hc
  · intro y c hc
    simp [isNameChar, Nat.isDigit_of_mem_toDigits (by decide) (by decide) hc]
  · exact fun n c hc => isNameChar_of_mem_digits (by decide) (by decide) hc

theorem separator_not_mem_segment {a x : UUID} {d : Date} :
    ∀ l ∈ blobSegments a x d, '/' ∉ l := by
  intro l hl hc
  have h := isNameChar_of_mem_segment l hl '/' hc
  revert h
  decide

theorem separator_not_mem_str (u : UUID) : '/' ∉ u.str.toList := by
  intro hc
  have h := isNameChar_of_mem_str hc
  revert h
  decide

theorem segment_ne_nil {a x : UUID} {d : Date} : ∀ l ∈ blobSegments a x d, l ≠ [] := by
  apply forall_mem_blobSegments
  · intro u
    apply List.ne_nil_of_length_pos
    rw [UUID.length_str]
    decide
  · exact fun y => Nat.toDigits_ne_nil
  · intro n
    apply List.ne_nil_of_length_pos
    rw [length_digits]
    decide

theorem isUnreserved_of_isNameChar {c : Char} (h : isNameChar c = true) :
    isUnreserved c = true := by
  simp only [isNameChar, Bool.or_eq_true, Bool.and_eq_true, decide_eq_true_eq, beq_iff_eq] at h
  rcases h with (h | ⟨ha, hf⟩) | rfl
  · have hn : c.isAlphanum = (c.isAlpha || c.isDigit) := rfl
    simp [isUnreserved, hn, h]
  · have hl : c.isLower = true := by
      apply (Bool.and_eq_true _ _).mpr
      exact ⟨decide_eq_true ha, decide_eq_true (hf.trans (by decide))⟩
    have hn : c.isAlphanum = (c.isUpper || c.isLower || c.isDigit) := rfl
    simp [isUnreserved, hn, hl]
  · decide

end Characters

section Names

variable {cfg : StorageSettings} {a b x y : UUID} {d e : Date}

theorem splitOn_receiptBlobName (a x : UUID) (d : Date) :
    (receiptBlobName a x d).toList.splitOn '/' = blobSegments a x d := by
  rw [toList_receiptBlobName]
  exact List.splitOn_intercalate '/' separator_not_mem_segment (List.cons_ne_nil _ _)

/-- The parts of a name are those it is made of. -/
theorem partsOfBlobName_receiptBlobName (a x : UUID) (d : Date) :
    partsOfBlobName (receiptBlobName a x d) = some (a, d, x) := by
  have hmonth : d.month < 10 ^ 2 := by
    have := d.month_valid
    omega
  have hday : d.day < 10 ^ 2 := d.day_lt
  rw [partsOfBlobName, splitOn_receiptBlobName, blobSegments]
  dsimp only
  rw [Nat.ofDigitChars_ten_toDigits, valueOf_digits (by decide) (by decide) hmonth,
    valueOf_digits (by decide) (by decide) hday, Date.ofNumbers_of_date, UUID.ofText_str,
    UUID.ofText_str]
  rfl

theorem receiptBlobName_inj (h : receiptBlobName a x d = receiptBlobName b y e) :
    a = b ∧ d = e ∧ x = y := by
  have hp := partsOfBlobName_receiptBlobName a x d
  rw [h, partsOfBlobName_receiptBlobName] at hp
  cases hp
  exact ⟨rfl, rfl, rfl⟩

theorem eq_of_household_prefix (h : (b.str ++ "/").toList <+: (receiptBlobName a x d).toList) :
    b = a := by
  have hname : (receiptBlobName a x d).toList =
      a.str.toList ++ '/' :: (d.path ++ '/' :: x.str.toList) := by
    simp [receiptBlobName]
  rw [String.toList_append, hname] at h
  have hs := eq_of_prefix_sep (separator_not_mem_str b) (separator_not_mem_str a) h
  exact UUID.str_inj (String.toList_injective hs)

/-- A blob lies under the path of its household alone. -/
theorem household_prefix_iff :
    (b.str ++ "/").toList <+: (receiptBlobName a x d).toList ↔ b = a := by
  constructor
  · exact eq_of_household_prefix
  · rintro rfl
    exact ⟨d.path ++ '/' :: x.str.toList, by simp [receiptBlobName]⟩

theorem count_separator (a x : UUID) (d : Date) : (receiptBlobName a x d).toList.count '/' = 4 := by
  have h := count_intercalate (separator_not_mem_segment (a := a) (x := x) (d := d))
    (List.cons_ne_nil _ _)
  rw [← toList_receiptBlobName] at h
  exact Nat.succ_injective h

/-- No name begins another one. -/
theorem receiptBlobName_of_prefix
    (h : (receiptBlobName a x d).toList <+: (receiptBlobName b y e).toList) :
    receiptBlobName a x d = receiptBlobName b y e := by
  have hcount := (count_separator a x d).trans (count_separator b y e).symm
  rw [toList_receiptBlobName_last, toList_receiptBlobName_last] at h hcount
  have heq := eq_of_prefix hcount (separator_not_mem_str x) (separator_not_mem_str y)
    ((UUID.length_str x).trans (UUID.length_str y).symm) h
  rw [← toList_receiptBlobName_last, ← toList_receiptBlobName_last] at heq
  exact String.toList_injective heq

theorem isNameChar_of_mem_receiptBlobName {c : Char} (h : c ∈ (receiptBlobName a x d).toList) :
    c = '/' ∨ isNameChar c = true := by
  rw [toList_receiptBlobName] at h
  exact (mem_intercalate h).imp_right fun hc => by
    obtain ⟨l, hl, hc⟩ := hc
    exact isNameChar_of_mem_segment l hl c hc

theorem length_receiptBlobName (a x : UUID) (d : Date) : (receiptBlobName a x d).length ≤ 84 := by
  have hyear : (Nat.toDigits 10 d.year).length ≤ 4 := by
    have h := d.year_valid
    exact (Nat.length_toDigits_le_iff (by decide) (by decide)).mpr (by omega)
  rw [← String.length_toList, toList_receiptBlobName_last]
  simp only [List.length_append, List.length_cons, UUID.length_str, Date.path, length_digits]
  omega

theorem quote_receiptBlobName (a x : UUID) (d : Date) :
    quote "/" (receiptBlobName a x d) = receiptBlobName a x d := by
  apply quote_of_unreserved
  intro c hc
  rcases isNameChar_of_mem_receiptBlobName hc with rfl | h
  · exact .inr (by decide)
  · exact .inl (isUnreserved_of_isNameChar h)

theorem blobUrl_receiptBlobName (cfg : StorageSettings) (a x : UUID) (d : Date) :
    cfg.blobUrl (receiptBlobName a x d) = rstrip "/" cfg.storageBlobEndpoint ++ "/" ++
      cfg.receiptsContainer ++ "/" ++ receiptBlobName a x d := by
  rw [StorageSettings.blobUrl, quote_receiptBlobName]

theorem blobUrl_inj
    (h : cfg.blobUrl (receiptBlobName a x d) = cfg.blobUrl (receiptBlobName b y e)) :
    receiptBlobName a x d = receiptBlobName b y e := by
  rw [blobUrl_receiptBlobName, blobUrl_receiptBlobName] at h
  exact (String.append_right_inj _).mp h

/-- What keeps a blob apart from those of other households and of other uploads. -/
structure Separated (cfg : StorageSettings) (a x : UUID) (d : Date) : Prop where
  parts : partsOfBlobName (receiptBlobName a x d) = some (a, d, x)
  injective : ∀ b y e, receiptBlobName a x d = receiptBlobName b y e → a = b ∧ d = e ∧ x = y
  prefixes : ∀ b, (b.str ++ "/").toList <+: (receiptBlobName a x d).toList ↔ b = a
  prefixFree : ∀ b y e, (receiptBlobName a x d).toList <+: (receiptBlobName b y e).toList →
    receiptBlobName a x d = receiptBlobName b y e
  chars : ∀ c ∈ (receiptBlobName a x d).toList, c = '/' ∨ isNameChar c = true
  separators : (receiptBlobName a x d).toList.count '/' = 4
  segments : ∀ l ∈ (receiptBlobName a x d).toList.splitOn '/',
    l ≠ [] ∧ l ≠ ['.'] ∧ l ≠ ['.', '.']
  width : (receiptBlobName a x d).length ≤ 400
  quoted : quote "/" (receiptBlobName a x d) = receiptBlobName a x d
  address : cfg.blobUrl (receiptBlobName a x d) = rstrip "/" cfg.storageBlobEndpoint ++ "/" ++
    cfg.receiptsContainer ++ "/" ++ receiptBlobName a x d
  urls : ∀ b y e, cfg.blobUrl (receiptBlobName a x d) = cfg.blobUrl (receiptBlobName b y e) →
    a = b ∧ d = e ∧ x = y

/-- Blob names separate households, dates and uploads. -/
theorem receiptBlobName_separated (cfg : StorageSettings) (a x : UUID) (d : Date) :
    Separated cfg a x d where
  parts := partsOfBlobName_receiptBlobName a x d
  injective _ _ _ := receiptBlobName_inj
  prefixes _ := household_prefix_iff
  prefixFree _ _ _ := receiptBlobName_of_prefix
  chars _ := isNameChar_of_mem_receiptBlobName
  separators := count_separator a x d
  segments := by
    rw [splitOn_receiptBlobName]
    intro l hl
    have dot : '.' ∉ l := by
      intro hc
      have h := isNameChar_of_mem_segment l hl '.' hc
      revert h
      decide
    refine ⟨segment_ne_nil l hl, ?_, ?_⟩
    · rintro rfl
      simp at dot
    · rintro rfl
      simp at dot
  width := (length_receiptBlobName a x d).trans (by decide)
  quoted := quote_receiptBlobName a x d
  address := blobUrl_receiptBlobName cfg a x d
  urls _ _ _ h := receiptBlobName_inj (blobUrl_inj h)

end Names

end KitchenSense
