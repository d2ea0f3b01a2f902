import Mathlib.Data.List.Basic
import Mathlib.Data.Nat.Basic
import Mathlib.Tactic.Ring
import Mathlib.Data.String.Basic

/-! # Text

Python's `str.strip`, `str.replace`, `str.split` and `str.lower`, and numbers
written with a fixed number of digits. What depends on the Unicode tables of the
interpreter, which differ between its versions, takes them as a parameter.
-/

namespace KitchenSense

/-- Whitespace in the sense of `str.isspace`. -/
def isSpace (c : Char) : Bool :=
  let n := c.toNat
  (9 ≤ n && n ≤ 13) || (28 ≤ n && n ≤ 32) || n == 0x85 || n == 0xa0 || n == 0x1680 ||
    (0x2000 ≤ n && n ≤ 0x200a) || n == 0x2028 || n == 0x2029 || n == 0x202f || n == 0x205f ||
    n == 0x3000

/-- The Unicode property White_Space: `str.isspace` without the separators U+001C to U+001F. -/
def isWhiteSpace (c : Char) : Bool := isSpace c && !(28 ≤ c.toNat && c.toNat ≤ 31)

/-- Remove the characters that satisfy `p` from both ends. -/
def stripBy (p : Char → Bool) (s : List Char) : List Char :=
  ((s.dropWhile p).reverse.dropWhile p).reverse

/-- `str.strip()`. -/
def strip (s : String) : String := String.ofList (stripBy isSpace s.toList)

def trim (s : String) : String := String.ofList (stripBy isWhiteSpace s.toList)

section Strip

variable {p : Char → Bool} {l : List Char}

/-- No character at either end satisfies `p`. -/
def Trimmed (p : Char → Bool) (l : List Char) : Prop :=
  (∀ c ∈ l.head?, p c = false) ∧ ∀ c ∈ l.getLast?, p c = false

theorem head?_dropWhile_not (l : List Char) : ∀ c ∈ (l.dropWhile p).head?, p c = false := by
  intro c hc
  have h := List.head?_dropWhile_not p l
  rw [Option.mem_def.mp hc] at h
  simpa using h

theorem trimmed_stripBy (l : List Char) : Trimmed p (stripBy p l) := by
  constructor
  · intro c hc
    rw [stripBy, List.head?_reverse] at hc
    have hne : (l.dropWhile p).reverse.dropWhile p ≠ [] := by
      intro h; rw [h] at hc; cases hc
    have hsuf := (List.dropWhile_suffix p (l := (l.dropWhile p).reverse)).getLast hne
    rw [List.getLast?_eq_some_getLast hne, hsuf, List.getLast_reverse] at hc
    cases hc
    exact head?_dropWhile_not l _ (List.head?_eq_some_head _)
  · intro c hc
    rw [stripBy, List.getLast?_reverse] at hc
    exact head?_dropWhile_not _ c hc

theorem mem_of_mem_stripBy {c : Char} (h : c ∈ stripBy p l) : c ∈ l := by
  rw [stripBy, List.mem_reverse] at h
  have h := (List.dropWhile_sublist p).subset h
  exact (List.dropWhile_sublist p).subset (List.mem_reverse.mp h)

theorem mem_dropWhile {c : Char} (h : c ∈ l) (hp : p c = false) : c ∈ l.dropWhile p := by
  rw [← List.takeWhile_append_dropWhile (p := p) (l := l), List.mem_append] at h
  refine h.resolve_left fun ht => ?_
  have hc := List.all_eq_true.mp (List.all_takeWhile (p := p) (l := l)) c ht
  rw [hp] at hc
  cases hc

theorem mem_stripBy {c : Char} (h : c ∈ l) (hp : p c = false) : c ∈ stripBy p l := by
  rw [stripBy, List.mem_reverse]
  exact mem_dropWhile (List.mem_reverse.mpr (mem_dropWhile h hp)) hp

theorem dropWhile_of_head? (h : ∀ c ∈ l.head?, p c = false) : l.dropWhile p = l := by
  cases l with
  | nil => rfl
  | cons c l => exact List.dropWhile_cons_of_neg (by simp [h c rfl])

theorem stripBy_of_trimmed (h : Trimmed p l) : stripBy p l = l := by
  rw [stripBy, dropWhile_of_head? h.1, dropWhile_of_head? (by rw [List.head?_reverse]; exact h.2),
    List.reverse_reverse]

theorem Trimmed.mono {q : Char → Bool} (h : Trimmed p l) (hq : ∀ c, q c → p c) : Trimmed q l := by
  have hpq : ∀ c, p c = false → q c = false := by
    intro c hp
    rw [Bool.eq_false_iff] at hp ⊢
    exact fun hc => hp (hq c hc)
  exact ⟨fun c hc => hpq c (h.1 c hc), fun c hc => hpq c (h.2 c hc)⟩

theorem strip_strip (s : String) : strip (strip s) = strip s := by
  rw [strip, strip, String.toList_ofList, stripBy_of_trimmed (trimmed_stripBy _)]

end Strip

/-- Replace the occurrences of `old` from left to right, after skipping some characters. -/
def replaceFrom (old new : List Char) : ℕ → List Char → List Char
  | _, [] => []
  | skip + 1, _ :: cs => replaceFrom old new skip cs
  | 0, c :: cs =>
    if old <+: c :: cs then new ++ replaceFrom old new (old.length - 1) cs
    else c :: replaceFrom old new 0 cs

/-- `s.replace(old, new)` for a nonempty `old`. -/
def replace (old new s : String) : String :=
  String.ofList (replaceFrom old.toList new.toList 0 s.toList)

section Replace

variable {p : Char → Bool} {old new l : List Char}

theorem replaceFrom_ne_nil (hn : new ≠ []) (hl : l ≠ []) : replaceFrom old new 0 l ≠ [] := by
  cases l with
  | nil => exact absurd rfl hl
  | cons c cs =>
    rw [replaceFrom]
    split
    · simp [hn]
    · simp

theorem getLast?_replaceFrom (hn : new ≠ []) (skip : ℕ) :
    ∀ c ∈ (replaceFrom old new skip l).getLast?, c ∈ new.getLast? ∨ c ∈ l.getLast? := by
  induction l generalizing skip with
  | nil => intro c hc; cases skip <;> simp [replaceFrom] at hc
  | cons a cs ih =>
    have hcons : ∀ c ∈ cs.getLast?, c ∈ (a :: cs).getLast? := by
      intro c hc
      cases cs with
      | nil => cases hc
      | cons b cs => rwa [List.getLast?_cons_cons]
    intro c hc
    cases skip with
    | succ skip => exact (ih skip c hc).imp_right (hcons c)
    | zero =>
      rw [replaceFrom] at hc
      split at hc
      · by_cases hr : replaceFrom old new (old.length - 1) cs = []
        · rw [hr, List.append_nil] at hc
          exact .inl hc
        · rw [List.getLast?_append_of_ne_nil _ hr] at hc
          exact (ih _ c hc).imp_right (hcons c)
      · by_cases hr : cs = []
        · subst hr
          exact .inr hc
        · have hne : replaceFrom old new 0 cs ≠ [] := replaceFrom_ne_nil hn hr
          rw [← List.singleton_append, List.getLast?_append_of_ne_nil _ hne] at hc
          exact (ih _ c hc).imp_right (hcons c)

theorem head?_replaceFrom (hn : new ≠ []) :
    ∀ c ∈ (replaceFrom old new 0 l).head?, c ∈ new.head? ∨ c ∈ l.head? := by
  cases l with
  | nil => intro c hc; simp [replaceFrom] at hc
  | cons a cs =>
    intro c hc
    rw [replaceFrom] at hc
    split at hc
    · rw [List.head?_append_of_ne_nil _ hn] at hc
      exact .inl hc
    · exact .inr hc

theorem replaceFrom_char (a b : Char) (l : List Char) :
    replaceFrom [a] [b] 0 l = l.map fun c => if c = a then b else c := by
  induction l with
  | nil => rfl
  | cons c l ih =>
    rw [replaceFrom, List.map_cons]
    by_cases hc : c = a
    · simp [hc, ih]
    · simp [hc, ih, Ne.symm hc]

theorem toList_replace_char {old new : String} {a b : Char} (ho : old.toList = [a])
    (hn : new.toList = [b]) (s : String) :
    (replace old new s).toList = s.toList.map fun c => if c = a then b else c := by
  rw [replace, String.toList_ofList, ho, hn, replaceFrom_char]

theorem trimmed_replaceFrom (hn : new ≠ []) (ht : Trimmed p new) (hl : Trimmed p l) :
    Trimmed p (replaceFrom old new 0 l) :=
  ⟨fun c hc => (head?_replaceFrom hn c hc).elim (ht.1 c) (hl.1 c),
    fun c hc => (getLast?_replaceFrom hn 0 c hc).elim (ht.2 c) (hl.2 c)⟩

theorem trimmed_of_strip {s : String} (h : strip s = s) : Trimmed isSpace s.toList := by
  have h : stripBy isSpace s.toList = s.toList := by
    have h := congrArg String.toList h
    rwa [strip, String.toList_ofList] at h
  exact h ▸ trimmed_stripBy _

theorem strip_replace {old new s : String} (hn : new ≠ "") (ht : strip new = new)
    (hs : strip s = s) : strip (replace old new s) = replace old new s := by
  have hne : new.toList ≠ [] := fun h => hn (String.toList_eq_nil_iff.mp h)
  have h : Trimmed isSpace (replaceFrom old.toList new.toList 0 s.toList) :=
    trimmed_replaceFrom hne (trimmed_of_strip ht) (trimmed_of_strip hs)
  rw [strip, replace, String.toList_ofList, stripBy_of_trimmed h]

end Replace

/-- `s.split(" ")`, without the empty parts. -/
def splitBlanks (s : String) : List String :=
  ((s.toList.splitOn ' ').map String.ofList).filter (· ≠ "")

/-- What the interpreter reads from the Unicode character database. -/
class UnicodeTables where
  lowerOf : Char → List Char
  isCased : Char → Bool
  isCaseIgnorable : Char → Bool
  /-- The value of a decimal digit of any script. -/
  decimal : Char → Option ℕ
  isPrintable : Char → Bool

section Lower

variable [UnicodeTables]

/-- Whether a capital sigma between the two contexts (nearest character first) ends a word. -/
def finalSigma (before after : List Char) : Bool :=
  ((before.dropWhile UnicodeTables.isCaseIgnorable).head?.any UnicodeTables.isCased) &&
    !((after.dropWhile UnicodeTables.isCaseIgnorable).head?.any UnicodeTables.isCased)

/-- Lower-case the rest of a string, given the characters before it in reverse. -/
def lowerFrom (before : List Char) : List Char → List Char
  | [] => []
  | c :: after =>
    (if c = 'Σ' then [if finalSigma before after then 'ς' else 'σ'] else UnicodeTables.lowerOf c) ++
      lowerFrom (c :: before) after

/-- `str.lower()`. -/
def lower (s : String) : String := String.ofList (lowerFrom [] s.toList)

/-- What lower-casing writes is lower-case already, and blank exactly where it was blank. -/
structure LowerSettled : Prop where
  nonempty : ∀ c, UnicodeTables.lowerOf c ≠ []
  fixed : ∀ c ≠ 'Σ', ∀ d ∈ UnicodeTables.lowerOf c, d ≠ 'Σ' ∧ UnicodeTables.lowerOf d = [d]
  space : ∀ c ≠ 'Σ', ∀ d ∈ UnicodeTables.lowerOf c, isSpace d = isSpace c
  sigma : UnicodeTables.lowerOf 'σ' = ['σ'] ∧ UnicodeTables.lowerOf 'ς' = ['ς']

variable {l before : List Char}

def lowerAt (before : List Char) (c : Char) (after : List Char) : List Char :=
  if c = 'Σ' then [if finalSigma before after then 'ς' else 'σ'] else UnicodeTables.lowerOf c

theorem lowerFrom_cons (before : List Char) (c : Char) (after : List Char) :
    lowerFrom before (c :: after) = lowerAt before c after ++ lowerFrom (c :: before) after := rfl

theorem LowerSettled.lowerAt_ne_nil (h : LowerSettled) (before : List Char) (c : Char)
    (after : List Char) : lowerAt before c after ≠ [] := by
  unfold lowerAt
  split
  · simp
  · exact h.nonempty c

theorem LowerSettled.fixed_of_mem (h : LowerSettled) {c d : Char} {after : List Char}
    (hd : d ∈ lowerAt before c after) : d ≠ 'Σ' ∧ UnicodeTables.lowerOf d = [d] := by
  unfold lowerAt at hd
  split at hd
  · obtain ⟨hs, hf⟩ := h.sigma
    rw [List.mem_singleton] at hd
    split at hd
    · exact hd ▸ ⟨by decide, hf⟩
    · exact hd ▸ ⟨by decide, hs⟩
  next hc => exact h.fixed c hc d hd

theorem LowerSettled.space_of_mem (h : LowerSettled) {c d : Char} {after : List Char}
    (hd : d ∈ lowerAt before c after) : isSpace d = isSpace c := by
  unfold lowerAt at hd
  split at hd
  next hc =>
    rw [List.mem_singleton] at hd
    subst hc
    split at hd <;> exact hd ▸ by decide
  next hc => exact h.space c hc d hd

theorem lowerFrom_of_fixed (h : ∀ d ∈ l, d ≠ 'Σ' ∧ UnicodeTables.lowerOf d = [d]) :
    lowerFrom before l = l := by
  induction l generalizing before with
  | nil => rfl
  | cons c l ih =>
    obtain ⟨⟨hc, hf⟩, hl⟩ := List.forall_mem_cons.mp h
    rw [lowerFrom_cons, lowerAt, if_neg hc, hf, ih hl]
    rfl

theorem LowerSettled.fixed_of_mem_lowerFrom (h : LowerSettled) {d : Char}
    (hd : d ∈ lowerFrom before l) : d ≠ 'Σ' ∧ UnicodeTables.lowerOf d = [d] := by
  induction l generalizing before with
  | nil => cases hd
  | cons c l ih =>
    rw [lowerFrom_cons, List.mem_append] at hd
    exact hd.elim h.fixed_of_mem ih

theorem LowerSettled.trimmed_lowerFrom (h : LowerSettled) (hl : Trimmed isSpace l) :
    Trimmed isSpace (lowerFrom before l) := by
  constructor
  · intro d hd
    cases l with
    | nil => cases hd
    | cons c l =>
      rw [lowerFrom_cons, List.head?_append_of_ne_nil _ (h.lowerAt_ne_nil before c l)] at hd
      rw [h.space_of_mem (List.mem_of_mem_head? hd)]
      exact hl.1 c rfl
  · have hlast := hl.2
    clear hl
    induction l generalizing before with
    | nil => simp [lowerFrom]
    | cons c l ih =>
      intro d hd
      rw [lowerFrom_cons] at hd
      cases l with
      | nil =>
        rw [lowerFrom, List.append_nil] at hd
        rw [h.space_of_mem (List.mem_of_mem_getLast? hd)]
        exact hlast c rfl
      | cons c' l =>
        have hne : lowerFrom (c :: before) (c' :: l) ≠ [] := by
          rw [lowerFrom_cons]
          simp [h.lowerAt_ne_nil]
        rw [List.getLast?_append_of_ne_nil _ hne] at hd
        rw [List.getLast?_cons_cons] at hlast
        exact ih hlast d hd

/-- Where one character alone lower-cases to two, it lengthens the text by one each time. -/
theorem length_lowerFrom {wide : Char} (hw : wide ≠ 'Σ')
    (h : ∀ c, (UnicodeTables.lowerOf c).length = if c = wide then 2 else 1) :
    (lowerFrom before l).length = l.length + l.count wide := by
  induction l generalizing before with
  | nil => rfl
  | cons c l ih =>
    have hc : (lowerAt before c l).length = if c = wide then 2 else 1 := by
      unfold lowerAt
      by_cases hs : c = 'Σ'
      · rw [if_pos hs, hs, if_neg (Ne.symm hw), List.length_singleton]
      · rw [if_neg hs, h c]
    rw [lowerFrom_cons, List.length_append, hc, ih, List.length_cons, List.count_cons]
    by_cases hcw : c = wide
    · simp only [hcw, if_true, beq_self_eq_true]
      omega
    · simp only [hcw, if_false, beq_iff_eq]
      omega

/-- Stripping and lower-casing once is enough. -/
theorem LowerSettled.lower_strip_lower_strip (h : LowerSettled) (s : String) :
    lower (strip (lower (strip s))) = lower (strip s) := by
  have ht : Trimmed isSpace (lowerFrom [] (strip s).toList) :=
    h.trimmed_lowerFrom (trimmed_of_strip (strip_strip s))
  have hs : strip (lower (strip s)) = lower (strip s) := by
    rw [strip, lower, String.toList_ofList, stripBy_of_trimmed ht]
  rw [hs, lower, lower, String.toList_ofList,
    lowerFrom_of_fixed fun d hd => h.fixed_of_mem_lowerFrom hd]

end Lower

/-- The tables restricted to ASCII, where every version of the database agrees. -/
@[reducible] def asciiTables : UnicodeTables where
  lowerOf c := [c.toLower]
  isCased c := c.isAlpha
  isCaseIgnorable c := c.toNat ∈ [0x27, 0x2e, 0x3a, 0x5e, 0x60]
  decimal c := if c.isDigit then some (c.toNat - 0x30) else none
  isPrintable c := 0x20 ≤ c.toNat && c.toNat < 0x7f

section Ascii

theorem toLower_cases (c : Char) :
    c.toLower = c ∨ ∃ n ≤ 90, 65 ≤ n ∧ c = Char.ofNat n := by
  by_cases h : 65 ≤ c.toNat ∧ c.toNat ≤ 90
  · exact .inr ⟨c.toNat, h.2, h.1, (Char.ofNat_toNat c).symm⟩
  · exact .inl (dif_neg h)

theorem toLower_settled (c : Char) :
    c.toLower.toLower = c.toLower ∧ isSpace c.toLower = isSpace c := by
  have capital : ∀ n ≤ 90, 65 ≤ n → (Char.ofNat n).toLower.toLower = (Char.ofNat n).toLower ∧
      isSpace (Char.ofNat n).toLower = isSpace (Char.ofNat n) := by decide
  rcases toLower_cases c with h | ⟨n, hu, hl, rfl⟩
  · rw [h, h]
    exact ⟨rfl, rfl⟩
  · exact capital n hu hl

theorem toLower_ne {c w : Char} (hw : 128 ≤ w.toNat) (h : c ≠ w) : c.toLower ≠ w := by
  have capital : ∀ n ≤ 90, 65 ≤ n → (Char.ofNat n).toLower.toNat < 128 := by decide
  rcases toLower_cases c with hc | ⟨n, hu, hl, rfl⟩
  · rwa [hc]
  · rintro rfl
    exact absurd hw (not_le.mpr (capital n hu hl))

theorem asciiTables_lowerSettled : @LowerSettled asciiTables := by
  let _ := asciiTables
  constructor
  · exact fun _ => List.cons_ne_nil _ _
  · intro c hc d hd
    rw [List.mem_singleton.mp hd]
    exact ⟨toLower_ne (by decide) hc, congrArg (fun c => [c]) (toLower_settled c).1⟩
  · intro c hc d hd
    rw [List.mem_singleton.mp hd]
    exact (toLower_settled c).2
  · decide

end Ascii

/-- The last `w` digits of `n` in base `b`, the most significant first. -/
def digits (b : ℕ) : ℕ → ℕ → List Char
  | 0, _ => []
  | w + 1, n => digits b w (n / b) ++ [Nat.digitChar (n % b)]

theorem length_digits (b w n : ℕ) : (digits b w n).length = w := by
  induction w generalizing n with
  | zero => rfl
  | succ w ih => simp [digits, ih]

theorem digitChar_inj {m n : ℕ} (hm : m < 16) (hn : n < 16)
    (h : Nat.digitChar m = Nat.digitChar n) : m = n := by
  have key : ∀ i < 16, ∀ j < 16, Nat.digitChar i = Nat.digitChar j → i = j := by decide
  exact key m hm n hn h

/-- A number below `b ^ w` is determined by its `w` digits. -/
theorem digits_inj {b w m n : ℕ} (hb : 0 < b) (hb' : b ≤ 16) (hm : m < b ^ w) (hn : n < b ^ w)
    (h : digits b w m = digits b w n) : m = n := by
  induction w generalizing m n with
  | zero => simp at hm hn; omega
  | succ w ih =>
    obtain ⟨hd, hl⟩ := List.append_inj' h rfl
    have hlow : m % b = n % b :=
      digitChar_inj ((Nat.mod_lt _ hb).trans_le hb') ((Nat.mod_lt _ hb).trans_le hb')
        (List.singleton_inj.mp hl)
    have hhigh : m / b = n / b := by
      apply ih _ _ hd
      · exact Nat.div_lt_of_lt_mul (by rwa [← Nat.pow_succ'])
      · exact Nat.div_lt_of_lt_mul (by rwa [← Nat.pow_succ'])
    rw [← Nat.div_add_mod m b, ← Nat.div_add_mod n b, hhigh, hlow]

theorem mem_digits {b w n : ℕ} (hb : 0 < b) (hb' : b ≤ 16) {c : Char} (h : c ∈ digits b w n) :
    ∃ d < 16, c = Nat.digitChar d := by
  induction w generalizing n with
  | zero => simp [digits] at h
  | succ w ih =>
    rcases List.mem_append.mp h with h | h
    · exact ih h
    · exact ⟨n % b, (Nat.mod_lt _ hb).trans_le hb', List.mem_singleton.mp h⟩

theorem dash_not_mem_digits {b w n : ℕ} (hb : 0 < b) (hb' : b ≤ 16) : '-' ∉ digits b w n := by
  intro h
  obtain ⟨d, hd, he⟩ := mem_digits hb hb' h
  have key : ∀ i < 16, '-' ≠ Nat.digitChar i := by decide
  exact key d hd he

section Values

/-- The value of a digit up to `f`. -/
def digitValue (c : Char) : ℕ := if c.isDigit then c.toNat - 48 else c.toNat - 87

/-- The number that digits in base `b` write. -/
def valueOf (b : ℕ) (l : List Char) : ℕ := l.foldl (fun n c => b * n + digitValue c) 0

theorem digitValue_digitChar {d : ℕ} (h : d < 16) : digitValue (Nat.digitChar d) = d := by
  have key : ∀ i < 16, digitValue (Nat.digitChar i) = i := by decide
  exact key d h

theorem valueOf_digits {b w n : ℕ} (hb : 0 < b) (hb' : b ≤ 16) (hn : n < b ^ w) :
    valueOf b (digits b w n) = n := by
  induction w generalizing n with
  | zero => simp at hn; simp [digits, valueOf, hn]
  | succ w ih =>
    have hhigh : n / b < b ^ w := Nat.div_lt_of_lt_mul (by rwa [← Nat.pow_succ'])
    have hlow : n % b < 16 := (Nat.mod_lt _ hb).trans_le hb'
    have hrec : valueOf b (digits b w (n / b)) = n / b := ih hhigh
    rw [valueOf] at hrec
    rw [digits, valueOf, List.foldl_append, hrec, List.foldl_cons, List.foldl_nil,
      digitValue_digitChar hlow]
    exact Nat.div_add_mod n b

end Values

section Quoting

/-- The ASCII letters, digits and marks that `urllib.parse.quote` never escapes. -/
def isUnreserved (c : Char) : Bool := c.isAlphanum || c ∈ ['_', '.', '-', '~']

def percentEncoded (c : Char) : List Char :=
  (String.utf8EncodeChar c).flatMap fun b => '%' :: (digits 16 2 b.toNat).map Char.toUpper

/-- `urllib.parse.quote(s, safe=safe)`. -/
def quote (safe s : String) : String :=
  String.ofList (s.toList.flatMap fun c =>
    if isUnreserved c ∨ c ∈ safe.toList then [c] else percentEncoded c)

/-- `s.rstrip(chars)`. -/
def rstrip (chars s : String) : String :=
  String.ofList (s.toList.reverse.dropWhile (· ∈ chars.toList)).reverse

theorem quote_of_unreserved {safe s : String}
    (h : ∀ c ∈ s.toList, isUnreserved c ∨ c ∈ safe.toList) : quote safe s = s := by
  apply String.toList_injective
  rw [quote, String.toList_ofList]
  generalize s.toList = l at h
  induction l with
  | nil => rfl
  | cons c l ih =>
    obtain ⟨hc, hl⟩ := List.forall_mem_cons.mp h
    rw [List.flatMap_cons, if_pos hc, ih hl, List.singleton_append]

example : quote "/" "a/b c" = "a/b%20c" := by decide +kernel

end Quoting

end KitchenSense
