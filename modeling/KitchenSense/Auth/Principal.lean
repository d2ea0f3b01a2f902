import Mathlib.Data.Finset.Basic
import KitchenSense.Auth.KeySource
import KitchenSense.Domain.Values
import KitchenSense.Foundations.Json

/-! # Tokens and principals

What is checked before a key is asked for, what is asked of the token library,
and what the claims that it returns have to say for a principal to be made of
them.
-/

namespace KitchenSense

/-- `_env(name, default)`. -/
def env (environ : String → Option String) (name default_ : String) : String :=
  let value := strip ((environ name).getD "")
  if value = "" then default_ else value

theorem strip_env {environ : String → Option String} {name default_ : String}
    (h : strip default_ = default_) :
    strip (env environ name default_) = env environ name default_ := by
  rw [env]
  split
  · exact h
  · exact strip_strip _

/-- The settings of a token verifier; those that are text come from the environment. -/
structure Settings where
  entraTenantId : String
  entraClientId : String
  entraAudience : String
  requiredScope : String
  jwksCacheSeconds : Seconds
  jwksMinRefreshSeconds : Seconds
  tokenLeewaySeconds : Seconds
  stripped : strip entraTenantId = entraTenantId

namespace Settings

/-- `Settings.from_env`, with the durations read as numbers. -/
def fromEnv (environ : String → Option String)
    (jwksCacheSeconds jwksMinRefreshSeconds tokenLeewaySeconds : Seconds) : Settings where
  entraTenantId := env environ "ENTRA_TENANT_ID" ""
  entraClientId := env environ "ENTRA_CLIENT_ID" ""
  entraAudience :=
    let audience := env environ "ENTRA_AUDIENCE" ""
    if audience = "" then env environ "ENTRA_CLIENT_ID" "" else audience
  requiredScope := env environ "REQUIRED_SCOPE" "inventory.readwrite"
  jwksCacheSeconds := jwksCacheSeconds
  jwksMinRefreshSeconds := jwksMinRefreshSeconds
  tokenLeewaySeconds := tokenLeewaySeconds
  stripped := strip_env (by decide)

def keySettings (settings : Settings) : KeySettings :=
  ⟨settings.entraTenantId, settings.jwksCacheSeconds, settings.jwksMinRefreshSeconds⟩

/-- The names that `require_configured` finds unset. -/
def missing (settings : Settings) : List String :=
  ([("ENTRA_TENANT_ID", settings.entraTenantId), ("ENTRA_CLIENT_ID", settings.entraClientId),
    ("ENTRA_AUDIENCE", settings.entraAudience)].filter fun p => p.2 = "").map Prod.fst

theorem entraTenantId_ne_empty {settings : Settings} (h : settings.missing = []) :
    settings.entraTenantId ≠ "" := by
  intro he
  have hmem : "ENTRA_TENANT_ID" ∈ settings.missing :=
    List.mem_map.mpr ⟨("ENTRA_TENANT_ID", settings.entraTenantId),
      List.mem_filter.mpr ⟨List.mem_cons_self, decide_eq_true he⟩, rfl⟩
  rw [h] at hmem
  cases hmem

theorem strip_issuer {settings : Settings} (h : settings.missing = [])
    {document : OpenIDDocument} {configuration : OpenIDConfiguration}
    (hc : OpenIDConfiguration.ofDocument settings.entraTenantId document = .ok configuration) :
    configuration.issuer =
        replace "{tenantid}" settings.entraTenantId (strip (document.issuer.getD "")) ∧
      strip configuration.issuer = configuration.issuer := by
  rw [OpenIDConfiguration.ofDocument] at hc
  split at hc
  next => cases hc
  next =>
    have hi : configuration.issuer =
        replace "{tenantid}" settings.entraTenantId (strip (document.issuer.getD "")) := by
      rw [← Except.ok.inj hc]
    refine ⟨hi, ?_⟩
    rw [hi]
    exact strip_replace (entraTenantId_ne_empty h) settings.stripped (strip_strip _)

end Settings

/-- The members of a token header that are read. The key id is text when there is one: the token
library refuses other headers. -/
structure Header where
  alg : Option Json
  kid : Option String

abbrev Claims := Dict String Json

/-- What `jwt.decode` is asked to check. -/
structure DecodeOptions (κ : Type) where
  key : κ
  algorithms : List String
  audience : String
  issuer : String
  leeway : Seconds
  require : List String

/-- What the token library raises: a `PyJWTError`, or an exception of another class. -/
inductive JwtError
  | pyJwt
  | other

/-- The token library. `decode` reads the wall clock. -/
structure PyJWT (κ : Type) where
  unverifiedHeader : String → Except JwtError Header
  decode : DecodeOptions κ → Seconds → String → Except JwtError Claims

def allowedAlgorithms : List String := ["RS256"]

def requiredClaims : List String := ["exp", "nbf", "iss", "aud", "sub"]

structure Principal where
  subject : String
  issuer : String
  audience : String
  scopes : Finset String
  expiresAt : Instant
  name : Option String
  email : Option String
  deriving DecidableEq

def Principal.hasScope (principal : Principal) (scope : String) : Prop := scope ∈ principal.scopes

instance (principal : Principal) (scope : String) : Decidable (principal.hasScope scope) :=
  inferInstanceAs (Decidable (_ ∈ _))

/-- `datetime.fromtimestamp`, which knows the years 1 to 9999. -/
def fromTimestamp (t : Seconds) : Option Instant :=
  let instant := roundHalfEven (t * 1000000)
  if -62135596800000000 ≤ instant ∧ instant < 253402300800000000 then some instant else none

section Checks

variable [UnicodeTables] {κ : Type} (settings : Settings) (jwt : PyJWT κ)

/-- What `verify` checks before it asks for a key. -/
def checkHeader (token : String) : Except AuthError Header :=
  if settings.missing ≠ [] then .error (.notConfigured settings.missing)
  else if token = "" ∨ strip token = "" then .error .noToken
  else match jwt.unverifiedHeader token with
    | .error .pyJwt => .error .malformedToken
    | .error .other => .error .raised
    | .ok header =>
      if allowedAlgorithms.any fun algorithm => header.alg.any (·.isText algorithm) then .ok header
      else .error (.unsupportedAlgorithm (String.ofList (header.alg.getD .null).repr))

/-- `str(claims.get(name) or "").strip()`. -/
def claimText (claims : Claims) (name : String) : String :=
  strip (((claims.get? name).filter Json.truthy).elim "" Json.str)

/-- `_scopes`. -/
def scopesOf (claims : Claims) : Finset String :=
  match claims.get? "scp" with
  | some (.text s) => (splitBlanks s).toFinset
  | some (.array items) => ((items.filter Json.truthy).map Json.str).toFinset
  | _ => ∅

/-- `_optional`. -/
def optionalText : Option Json → Option String
  | some (.text s) => if strip s = "" then none else some (strip s)
  | _ => none

/-- `_to_principal`. -/
def toPrincipal (claims : Claims) : Except AuthError Principal :=
  let subject := claimText claims "sub"
  let issuer := claimText claims "iss"
  if subject = "" ∨ issuer = "" then .error .noSubject
  else match ((claims.get? "exp").bind Json.toFloat).bind fromTimestamp with
    | none => .error .raised
    | some expiresAt => .ok
      { subject := subject
        issuer := issuer
        audience := settings.entraAudience
        scopes := scopesOf claims
        expiresAt := expiresAt
        name := optionalText (claims.get? "name")
        email := optionalText
          (((claims.get? "preferred_username").filter Json.truthy).or (claims.get? "email")) }

/-- `_require_scope`. -/
def requireScope (principal : Principal) : Except AuthError Unit :=
  if principal.hasScope settings.requiredScope then .ok ()
  else .error (.insufficientScope settings.requiredScope)

def decodeOptions (key : κ) (issuer : String) : DecodeOptions κ where
  key := key
  algorithms := allowedAlgorithms
  audience := settings.entraAudience
  issuer := issuer
  leeway := settings.tokenLeewaySeconds
  require := requiredClaims

/-- What `verify` does once it has the key and the issuer. -/
def authorize (token : String) (key : κ) (issuer : String) (now : Seconds) :
    Except AuthError (Claims × Principal) :=
  match jwt.decode (decodeOptions settings key issuer) now token with
  | .error .pyJwt => .error .notValid
  | .error .other => .error .raised
  | .ok claims =>
    (toPrincipal settings claims).bind fun principal =>
      (requireScope settings principal).map fun _ => (claims, principal)

variable {settings jwt} {token issuer : String} {header : Header} {key : κ} {now : Seconds}
  {claims : Claims} {principal : Principal}

theorem checkHeader_ok (h : checkHeader settings jwt token = .ok header) :
    settings.missing = [] ∧ jwt.unverifiedHeader token = .ok header ∧
      header.alg = some (.text "RS256") := by
  rw [checkHeader] at h
  split at h
  next => cases h
  next hm =>
    split at h
    next => cases h
    next =>
      split at h
      next => cases h
      next => cases h
      next header' hh =>
        split at h
        next ha =>
          cases h
          refine ⟨not_not.mp hm, hh, ?_⟩
          simp only [allowedAlgorithms, List.any_cons, List.any_nil, Bool.or_false,
            Option.any_eq_true, Json.isText_iff] at ha
          obtain ⟨v, hv, rfl⟩ := ha
          exact hv
        next => cases h

theorem toPrincipal_ok (h : toPrincipal settings claims = .ok principal) :
    principal.subject = claimText claims "sub" ∧ principal.subject ≠ "" ∧
      principal.issuer = claimText claims "iss" ∧ principal.scopes = scopesOf claims := by
  rw [toPrincipal] at h
  split at h
  next => cases h
  next hne =>
    split at h
    next => cases h
    next => cases h; exact ⟨rfl, fun hs => hne (.inl hs), rfl, rfl⟩

theorem authorize_ok (h : authorize settings jwt token key issuer now = .ok (claims, principal)) :
    jwt.decode (decodeOptions settings key issuer) now token = .ok claims ∧
      toPrincipal settings claims = .ok principal ∧
      principal.hasScope settings.requiredScope := by
  rw [authorize] at h
  split at h
  next => cases h
  next => cases h
  next claims' hd =>
    cases hp : toPrincipal settings claims' with
    | error e => rw [hp] at h; cases h
    | ok principal' =>
      rw [hp, Except.bind, requireScope] at h
      split at h
      next hs => cases h; exact ⟨hd, hp, hs⟩
      next => cases h

theorem claimText_of_text {name s : String} (h : claims.get? name = some (.text s))
    (hs : strip s = s) : claimText claims name = s := by
  rw [claimText, h]
  by_cases he : s = ""
  · subst he
    rfl
  · rw [Option.filter_some_pos (by simpa [Json.truthy] using he)]
    exact hs

end Checks

section Enforcement

variable [UnicodeTables] {κ : Type}

/-- What the documentation of the token library promises of the claims that `decode` returns. -/
structure PyJWT.Enforces (jwt : PyJWT κ) : Prop where
  algorithm {options : DecodeOptions κ} {now : Seconds} {token : String} {claims : Claims}
    (h : jwt.decode options now token = .ok claims) : ∃ header,
    jwt.unverifiedHeader token = .ok header ∧
      ∃ algorithm ∈ options.algorithms, header.alg = some (.text algorithm)
  required {options : DecodeOptions κ} {now : Seconds} {token : String} {claims : Claims}
    (h : jwt.decode options now token = .ok claims) :
    ∀ name ∈ options.require, ∃ v, claims.get? name = some v ∧ v ≠ .null
  audience {options : DecodeOptions κ} {now : Seconds} {token : String} {claims : Claims}
    (h : jwt.decode options now token = .ok claims) : ∃ v, claims.get? "aud" = some v ∧
      (v = .text options.audience ∨ ∃ items, v = .array items ∧ .text options.audience ∈ items)
  issuer {options : DecodeOptions κ} {now : Seconds} {token : String} {claims : Claims}
    (h : jwt.decode options now token = .ok claims) :
    claims.get? "iss" = some (.text options.issuer)
  expiry {options : DecodeOptions κ} {now : Seconds} {token : String} {claims : Claims}
    (h : jwt.decode options now token = .ok claims) {v : Json} (hv : claims.get? "exp" = some v) :
    ∃ t, v.toInt = some t ∧ now - options.leeway < t
  notBefore {options : DecodeOptions κ} {now : Seconds} {token : String} {claims : Claims}
    (h : jwt.decode options now token = .ok claims) {v : Json} (hv : claims.get? "nbf" = some v) :
    ∃ t, v.toInt = some t ∧ t ≤ now + options.leeway

end Enforcement

end KitchenSense
