import Mathlib.Data.Set.Function
import KitchenSense.Domain.Values
import KitchenSense.Foundations.Segments

/-! # From a signed-in user to a household

The household of a token's owner is hashed from the trimmed issuer and the
trimmed subject with a newline between them. Two pairs are hashed alike in two
ways: they are the same, or a newline inside them is taken for the separator.
-/

namespace KitchenSense

def householdNamespace : UUID := 0x6f2d1a549c3b4f7e8a213d5b0c7e4f19

/-- The `ValueError`s of `household_id_for`. -/
inductive HouseholdError
  | noIssuer
  | noSubject
  deriving DecidableEq

def hashedName (issuer subject : String) : Except HouseholdError String :=
  let issuer := strip issuer
  let subject := strip subject
  if issuer = "" then .error .noIssuer
  else if subject = "" then .error .noSubject
  else .ok (issuer ++ "\n" ++ subject)

/-- `household_id_for`, given `uuid.uuid5`. -/
def householdIdFor (uuid5 : UUID → String → UUID) (issuer subject : String) :
    Except HouseholdError UUID :=
  (hashedName issuer subject).map (uuid5 householdNamespace)

/-- A part of the first subject up to a newline stands at the end of the second issuer, after a
newline. -/
def Shifted (issuer subject issuer' subject' : String) : Prop :=
  ∃ m, (strip issuer').toList = (strip issuer).toList ++ '\n' :: m ∧
    (strip subject).toList = m ++ '\n' :: (strip subject').toList

section Names

variable {issuer subject issuer' subject' name name' : String}

theorem hashedName_ok (h : hashedName issuer subject = .ok name) :
    name.toList = (strip issuer).toList ++ '\n' :: (strip subject).toList := by
  unfold hashedName at h
  dsimp only at h
  split at h
  · cases h
  · split at h
    · cases h
    · cases h
      simp [String.toList_append]

theorem hashedName_eq_iff (h : hashedName issuer subject = .ok name)
    (h' : hashedName issuer' subject' = .ok name') :
    name = name' ↔ (strip issuer = strip issuer' ∧ strip subject = strip subject') ∨
      Shifted issuer subject issuer' subject' ∨ Shifted issuer' subject' issuer subject := by
  rw [← String.toList_inj, hashedName_ok h, hashedName_ok h', append_sep_eq_iff,
    String.toList_inj, String.toList_inj]
  rfl

theorem Shifted.issuer_ne (h : Shifted issuer subject issuer' subject') :
    strip issuer ≠ strip issuer' := by
  obtain ⟨m, hm, -⟩ := h
  intro he
  have hl := congrArg List.length hm
  rw [he, List.length_append, List.length_cons] at hl
  omega

theorem not_shifted_of_no_newline (h : '\n' ∉ (strip issuer').toList) :
    ¬ Shifted issuer subject issuer' subject' := by
  rintro ⟨m, hm, -⟩
  rw [hm] at h
  simp at h

end Names

section Households

/-- Two pairs have one household, and one hashed name, exactly when their trimmed parts agree. -/
structure Distinguished (uuid5 : UUID → String → UUID)
    (issuer subject issuer' subject' : String) : Prop where
  household : householdIdFor uuid5 issuer subject = householdIdFor uuid5 issuer' subject' ↔
    strip issuer = strip issuer' ∧ strip subject = strip subject'
  name : hashedName issuer subject = hashedName issuer' subject' ↔
    strip issuer = strip issuer' ∧ strip subject = strip subject'

variable {uuid5 : UUID → String → UUID} {names : Set String}
  {issuer subject issuer' subject' name name' : String}

theorem householdIdFor_eq_iff (hinj : Set.InjOn (uuid5 householdNamespace) names)
    (h : hashedName issuer subject = .ok name) (hn : name ∈ names)
    (h' : hashedName issuer' subject' = .ok name') (hn' : name' ∈ names) :
    householdIdFor uuid5 issuer subject = householdIdFor uuid5 issuer' subject' ↔
      name = name' := by
  rw [householdIdFor, householdIdFor, h, h', Except.map, Except.map, Except.ok.injEq]
  exact hinj.eq_iff hn hn'

/-- Pairs whose names do not collide are distinguished unless a newline inside them is taken for
the separator. -/
theorem distinguished_iff (hinj : Set.InjOn (uuid5 householdNamespace) names)
    (h : hashedName issuer subject = .ok name) (hn : name ∈ names)
    (h' : hashedName issuer' subject' = .ok name') (hn' : name' ∈ names) :
    Distinguished uuid5 issuer subject issuer' subject' ↔
      ¬ Shifted issuer subject issuer' subject' ∧ ¬ Shifted issuer' subject' issuer subject := by
  have hname : hashedName issuer subject = hashedName issuer' subject' ↔ name = name' := by
    rw [h, h', Except.ok.injEq]
  constructor
  · rintro ⟨-, hsame⟩
    rw [hname, hashedName_eq_iff h h'] at hsame
    constructor
    · intro hs
      exact hs.issuer_ne (hsame.mp (.inr (.inl hs))).1
    · intro hs
      exact hs.issuer_ne (hsame.mp (.inr (.inr hs))).1.symm
  · rintro ⟨hs, hs'⟩
    have hsame : name = name' ↔ strip issuer = strip issuer' ∧ strip subject = strip subject' := by
      rw [hashedName_eq_iff h h', or_iff_left (not_or.mpr ⟨hs, hs'⟩)]
    exact ⟨(householdIdFor_eq_iff hinj h hn h' hn').trans hsame, hname.trans hsame⟩

end Households

section Sample

/-- What `uuid5` makes of two names. -/
def sampleUuid5 (_ : UUID) (name : String) : UUID :=
  if name = "https://tenant.example\nsubject" then 0xa67607e6ca5651288216bca103c3365d
  else 0xa9585b0233bb517ca44360af062d4e87

/-- Two users of one tenant have two households. -/
theorem distinguished_tenant :
    Distinguished sampleUuid5 "https://tenant.example" "subject" "https://tenant.example"
      " other" := by
  have hinj : Set.InjOn (sampleUuid5 householdNamespace)
      {"https://tenant.example\nsubject", "https://tenant.example\nother"} := by
    rintro _ (rfl | rfl) _ (rfl | rfl) h
    · rfl
    · exact absurd h (by decide +kernel)
    · exact absurd h (by decide +kernel)
    · rfl
  have hs : hashedName "https://tenant.example" "subject" =
      .ok "https://tenant.example\nsubject" := by decide +kernel
  have ho : hashedName "https://tenant.example" " other" =
      .ok "https://tenant.example\nother" := by decide +kernel
  have hline : '\n' ∉ (strip "https://tenant.example").toList := by decide +kernel
  exact (distinguished_iff hinj hs (.inl rfl) ho (.inr rfl)).mpr
    ⟨not_shifted_of_no_newline hline, not_shifted_of_no_newline hline⟩

/-- Two pairs of trimmed parts, of which the first issuer and the second subject hold a newline,
have one household. -/
theorem not_distinguished_newline :
    hashedName "a\nb" "c" = .ok "a\nb\nc" ∧ hashedName "a" "b\nc" = .ok "a\nb\nc" ∧
      (∀ uuid5, householdIdFor uuid5 "a\nb" "c" = householdIdFor uuid5 "a" "b\nc") ∧
      strip "a\nb" ≠ strip "a" ∧ ¬ Distinguished sampleUuid5 "a\nb" "c" "a" "b\nc" := by
  have h : hashedName "a\nb" "c" = .ok "a\nb\nc" := by decide +kernel
  have h' : hashedName "a" "b\nc" = .ok "a\nb\nc" := by decide +kernel
  have hne : strip "a\nb" ≠ strip "a" := by decide +kernel
  refine ⟨h, h', fun uuid5 => ?_, hne, fun hd => hne (hd.name.mp (h.trans h'.symm)).1⟩
  rw [householdIdFor, householdIdFor, h, h']

end Sample

end KitchenSense
