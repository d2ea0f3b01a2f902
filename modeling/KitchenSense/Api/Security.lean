import KitchenSense.Auth.Refusals

/-! # Replies to a bearer token

`get_principal` turns the refusals of the verifier into challenges. A sound
refusal is a 401 whose challenge can be sent as a header and which shows
nothing from inside the token. One description shows the algorithm that the
token names; the other refusals are sound.
-/

namespace KitchenSense

/-- An `HTTPException`, with its header `WWW-Authenticate` when it has one. -/
structure HTTPException where
  statusCode : ℕ
  detail : String
  wwwAuthenticate : Option String
  deriving DecidableEq

/-- How `get_principal` ends: with a principal or an exception, which may be of another class. -/
inductive AuthReply
  | principal (principal : Principal)
  | refused (exception : HTTPException)
  | failed

def realm : String := "kitchensense"

/-- `_quotable`. -/
def quotable (text : String) : String :=
  strip (replace "\n" " " (replace "\"" "'" (replace "\\" " " text)))

def describedChallenge (errorCode description : String) : String :=
  "Bearer realm=\"" ++ realm ++ "\", error=\"" ++ errorCode ++ "\", error_description=\"" ++
    description ++ "\""

def bareChallenge : String := "Bearer realm=\"" ++ realm ++ "\""

def unauthorized (error : TokenError) : HTTPException where
  statusCode := 401
  detail := error.description
  wwwAuthenticate := some
    (if error.errorCode = "" then bareChallenge
    else describedChallenge error.errorCode (quotable error.description))

section GetPrincipal

variable [UnicodeTables]

/-- `get_principal`, from the credentials of the header and what `verify` ends with for them. -/
def getPrincipal (settings : Settings) (credentials : Option String)
    (verified : Except AuthError Principal) : AuthReply :=
  if settings.missing ≠ [] then
    .refused ⟨503, "Authentication is not configured on this deployment.", none⟩
  else if credentials.getD "" = "" then
    .refused (unauthorized (.missingToken "this endpoint requires an access token"))
  else match verified with
    | .ok principal => .principal principal
    | .error e => e.tokenError.elim .failed fun error => .refused (unauthorized error)

end GetPrincipal

section Soundness

def Sendable (value : String) : Prop := ∀ c ∈ value.toList, c.toNat < 256 ∧ c ≠ '\r' ∧ c ≠ '\n'

instance (value : String) : Decidable (Sendable value) :=
  decidable_of_iff (value.toList.all fun c => c.toNat < 256 && c ≠ '\r' && c ≠ '\n')
    (by simp [Sendable, List.all_eq_true, and_assoc])

/-- How `get_principal` ends for the caller: writing a challenge that cannot be sent raises. -/
def authReply [UnicodeTables] (settings : Settings) (credentials : Option String)
    (verified : Except AuthError Principal) : AuthReply :=
  match getPrincipal settings credentials verified with
  | .refused exception =>
    if exception.wwwAuthenticate.all fun value => Sendable value then .refused exception
    else .failed
  | reply => reply

section Replies

variable [UnicodeTables] {settings : Settings} {credentials : Option String}
  {verified : Except AuthError Principal}

theorem principal_of_authReply {principal : Principal}
    (h : authReply settings credentials verified = .principal principal) :
    getPrincipal settings credentials verified = .principal principal := by
  unfold authReply at h
  split at h
  next => split at h <;> cases h
  next => exact h

theorem refused_of_authReply {exception : HTTPException}
    (h : authReply settings credentials verified = .refused exception) :
    getPrincipal settings credentials verified = .refused exception := by
  unfold authReply at h
  split at h
  next hg =>
    split at h
    next => cases h; exact hg
    next => cases h
  next hn => exact absurd h (hn exception)

end Replies

def WellQuoted (value : String) : Prop :=
  value = bareChallenge ∨ ∃ errorCode description,
    value = describedChallenge errorCode description ∧
      '"' ∉ description.toList ∧ '\\' ∉ description.toList

variable [UnicodeTables]

def Settings.silentErrors (settings : Settings) : List TokenError :=
  .missingToken "this endpoint requires an access token" ::
    ([.noKeyId, .unknownKey, .noUsableKeys, .incompleteConfiguration, .providerUnreadable,
      .noToken, .malformedToken, .unsupportedAlgorithm "None", .notValid, .noSubject,
      .insufficientScope settings.requiredScope] : List AuthError).filterMap AuthError.tokenError

/-- A 401 that can be sent and that shows nothing from inside the token. -/
structure HTTPException.Sound (settings : Settings) (exception : HTTPException) : Prop where
  statusCode : exception.statusCode = 401
  challenge : ∃ value, exception.wwwAuthenticate = some value ∧ Sendable value ∧ WellQuoted value
  silent : exception ∈ settings.silentErrors.map unauthorized

def AuthReply.Sound (settings : Settings) : AuthReply → Prop
  | .principal _ => True
  | .refused exception => exception.Sound settings
  | .failed => False

def Settings.ScopeSendable (settings : Settings) : Prop :=
  ∀ c ∈ settings.requiredScope.toList, UnicodeTables.isPrintable c → c.toNat < 256

instance (settings : Settings) : Decidable settings.ScopeSendable :=
  decidable_of_iff (settings.requiredScope.toList.all fun c =>
      !UnicodeTables.isPrintable c || c.toNat < 256)
    (by simp [Settings.ScopeSendable, List.all_eq_true, imp_iff_not_or])

def AuthError.Inert (settings : Settings) : AuthError → Prop
  | .unsupportedAlgorithm written => written = "None"
  | .insufficientScope _ => settings.ScopeSendable
  | .notConfigured _ | .raised => False
  | _ => True

end Soundness

section Quotable

/-- What `_quotable` writes for a character. -/
def quoteChar (c : Char) : Char :=
  if c = '\\' then ' ' else if c = '"' then Char.ofNat 0x27 else if c = '\n' then ' ' else c

theorem toList_quotable (text : String) :
    (quotable text).toList = stripBy isSpace (text.toList.map quoteChar) := by
  have hslash : "\\".toList = ['\\'] := String.toList_ofList
  have hquote : "\"".toList = ['"'] := String.toList_ofList
  have hline : "\n".toList = ['\n'] := String.toList_ofList
  have hblank : " ".toList = [' '] := String.toList_ofList
  have hsingle : "'".toList = [Char.ofNat 0x27] := String.toList_ofList
  rw [quotable, strip, String.toList_ofList, toList_replace_char hline hblank,
    toList_replace_char hquote hsingle, toList_replace_char hslash hblank, List.map_map,
    List.map_map]
  congr 2
  funext c
  by_cases hs : c = '\\'
  · simp [quoteChar, hs]
  · by_cases hq : c = '"'
    · simp [quoteChar, hq]
    · simp [quoteChar, hs, hq]

theorem quoteChar_ne (c : Char) : quoteChar c ≠ '"' ∧ quoteChar c ≠ '\\' ∧ quoteChar c ≠ '\n' := by
  unfold quoteChar
  split
  · decide
  · split
    · decide
    · split
      · decide
      · exact ⟨‹_›, ‹_›, ‹_›⟩

theorem not_mem_quotable (text : String) :
    '"' ∉ (quotable text).toList ∧ '\\' ∉ (quotable text).toList := by
  rw [toList_quotable]
  constructor <;> intro h <;> obtain ⟨c, -, hc⟩ := List.mem_map.mp (mem_of_mem_stripBy h)
  · exact (quoteChar_ne c).1 hc
  · exact (quoteChar_ne c).2.1 hc

/-- Quoting adds nothing that cannot be sent, except for carriage returns. -/
theorem sendable_quotable {text : String} (h : ∀ c ∈ text.toList, c.toNat < 256 ∧ c ≠ '\r') :
    Sendable (quotable text) := by
  intro c hc
  rw [toList_quotable] at hc
  obtain ⟨d, hd, rfl⟩ := List.mem_map.mp (mem_of_mem_stripBy hc)
  refine ⟨?_, ?_, (quoteChar_ne d).2.2⟩ <;> unfold quoteChar <;> split
  · decide
  · split
    · decide
    · split
      · decide
      · exact (h d hd).1
  · decide
  · split
    · decide
    · split
      · decide
      · exact (h d hd).2

theorem mem_quotable {text : String} {a b : Char} {l : List Char} {c : Char}
    (ht : text.toList = a :: l ++ [b]) (ha : isSpace (quoteChar a) = false)
    (hb : isSpace (quoteChar b) = false) (hc : c ∈ text.toList) (hq : quoteChar c = c) :
    c ∈ (quotable text).toList := by
  have htrim : Trimmed isSpace (text.toList.map quoteChar) := by
    rw [ht]
    constructor
    · simp [ha]
    · simp [List.getLast?_cons, hb]
  rw [toList_quotable, stripBy_of_trimmed htrim]
  exact List.mem_map.mpr ⟨c, hc, hq⟩

theorem sendable_ofList {l : List Char}
    (h : (l.all fun c => c.toNat < 256 && c ≠ '\r' && c ≠ '\n') = true) :
    Sendable (String.ofList l) := by
  rw [Sendable, String.toList_ofList]
  simpa [List.all_eq_true, and_assoc] using h

theorem sendable_quotable_of_sendable {text : String} (h : Sendable text) :
    Sendable (quotable text) :=
  sendable_quotable fun c hc => ⟨(h c hc).1, (h c hc).2.1⟩

theorem sendable_append {a b : String} : Sendable (a ++ b) ↔ Sendable a ∧ Sendable b := by
  simp only [Sendable, String.toList_append, List.forall_mem_append]

theorem sendable_describedChallenge {errorCode description : String} :
    Sendable (describedChallenge errorCode description) ↔
      Sendable errorCode ∧ Sendable description := by
  have hb : Sendable "Bearer realm=\"" := sendable_ofList rfl
  have hr : Sendable realm := sendable_ofList rfl
  have he : Sendable "\", error=\"" := sendable_ofList rfl
  have hd : Sendable "\", error_description=\"" := sendable_ofList rfl
  have hq : Sendable "\"" := sendable_ofList rfl
  unfold describedChallenge
  simp only [sendable_append, hb, hr, he, hd, hq, true_and, and_true]

end Quotable

section Errors

variable [UnicodeTables] {settings : Settings} {error : TokenError} {e : AuthError}

/-- An error with a code is refused soundly when it is silent and its description can be sent. -/
theorem sound_unauthorized_iff (hn : error.errorCode ≠ "") (hc : Sendable error.errorCode) :
    (unauthorized error).Sound settings ↔
      Sendable (quotable error.description) ∧
        unauthorized error ∈ settings.silentErrors.map unauthorized := by
  have hw : (unauthorized error).wwwAuthenticate =
      some (describedChallenge error.errorCode (quotable error.description)) := by
    rw [unauthorized, if_neg hn]
  constructor
  · rintro ⟨-, ⟨value, hv, hs, -⟩, hm⟩
    rw [hw, Option.some_inj] at hv
    rw [← hv, sendable_describedChallenge] at hs
    exact ⟨hs.2, hm⟩
  · rintro ⟨hd, hm⟩
    refine ⟨rfl, ⟨_, hw, sendable_describedChallenge.mpr ⟨hc, hd⟩, .inr ⟨_, _, rfl, ?_⟩⟩, hm⟩
    exact not_mem_quotable error.description

theorem sound_missingToken : (unauthorized
    (.missingToken "this endpoint requires an access token")).Sound settings := by
  have hs : Sendable bareChallenge := by
    have hb : Sendable ("Bearer realm=\"" ++ realm) :=
      sendable_append.mpr ⟨sendable_ofList rfl, sendable_ofList rfl⟩
    exact sendable_append.mpr ⟨hb, sendable_ofList rfl⟩
  exact ⟨rfl, ⟨bareChallenge, rfl, hs, .inl rfl⟩, List.mem_map_of_mem List.mem_cons_self⟩

theorem description_eq_of_mem (h : error ∈ settings.silentErrors)
    (hu : error.description.toList.head? = some 'u') :
    error.description = "unsupported signing algorithm None" := by
  simp only [Settings.silentErrors, AuthError.tokenError, List.filterMap_cons, List.filterMap_nil,
    List.mem_cons, List.not_mem_nil, or_false] at h
  rcases h with rfl | rfl | rfl | rfl | rfl | rfl | rfl | rfl | rfl | rfl | rfl | rfl <;>
    first
    | rfl
    | simp [TokenError.missingToken, TokenError.invalidToken, TokenError.insufficientScope,
        String.toList_append] at hu

theorem silent_unsupportedAlgorithm_iff {written : String} :
    unauthorized (.invalidToken ("unsupported signing algorithm " ++ written)) ∈
      settings.silentErrors.map unauthorized ↔ written = "None" := by
  constructor
  · intro h
    obtain ⟨error, hm, he⟩ := List.mem_map.mp h
    have hd : error.description = "unsupported signing algorithm " ++ written :=
      congrArg HTTPException.detail he
    have hn := description_eq_of_mem hm (by rw [hd, String.toList_append]; rfl)
    have hl := congrArg String.toList hn
    have hnone : "unsupported signing algorithm None".toList =
        "unsupported signing algorithm ".toList ++ "None".toList := rfl
    rw [hd, String.toList_append, hnone] at hl
    exact String.toList_injective (List.append_cancel_left hl)
  · rintro rfl
    apply List.mem_map_of_mem
    simp [Settings.silentErrors, AuthError.tokenError]

theorem sendable_insufficientScope_iff :
    Sendable (quotable ("the token does not carry the " ++
      String.ofList (reprText settings.requiredScope) ++ " scope")) ↔ settings.ScopeSendable := by
  constructor
  · intro h c hc hp
    by_contra hw
    have hne {d : Char} (hd : d.toNat < 256) : c ≠ d := by
      rintro rfl
      exact hw hd
    have hr := mem_reprText_of_isPrintable hc hp (by omega)
    have hq : quoteChar c = c := by
      simp [quoteChar, hne (show '\\'.toNat < 256 by decide), hne (show '"'.toNat < 256 by decide),
        hne (show '\n'.toNat < 256 by decide)]
    have ht : ("the token does not carry the " ++ String.ofList (reprText settings.requiredScope) ++
        " scope").toList = 't' :: ("he token does not carry the ".toList ++
          reprText settings.requiredScope ++ " scop".toList) ++ ['e'] := by
      simp [String.toList_append]
    refine hw (h c (mem_quotable ht (by decide) (by decide) ?_ hq)).1
    simp [String.toList_append, hr]
  · intro h
    apply sendable_quotable
    intro c hc
    simp only [String.toList_append, String.toList_ofList, List.mem_append] at hc
    have hlit {l : String} (hl : Sendable l) (hm : c ∈ l.toList) : c.toNat < 256 ∧ c ≠ '\r' :=
      ⟨(hl c hm).1, (hl c hm).2.1⟩
    rcases hc with (hc | hc) | hc
    · exact hlit (sendable_ofList rfl) hc
    · obtain ⟨hr, hc | ⟨hc, hp⟩⟩ := mem_reprText hc
      · exact ⟨by omega, hr⟩
      · exact ⟨h c hc hp, hr⟩
    · exact hlit (sendable_ofList rfl) hc

theorem sound_invalidToken_iff {description : String} :
    (unauthorized (.invalidToken description)).Sound settings ↔ Sendable (quotable description) ∧
      unauthorized (.invalidToken description) ∈ settings.silentErrors.map unauthorized := by
  have hn : (TokenError.invalidToken description).errorCode ≠ "" :=
    (by decide : "invalid_token" ≠ "")
  have hc : Sendable (TokenError.invalidToken description).errorCode :=
    sendable_ofList rfl
  exact sound_unauthorized_iff hn hc

theorem sound_insufficientScope_iff {description : String} :
    (unauthorized (.insufficientScope description)).Sound settings ↔
      Sendable (quotable description) ∧
        unauthorized (.insufficientScope description) ∈ settings.silentErrors.map unauthorized := by
  have hn : (TokenError.insufficientScope description).errorCode ≠ "" :=
    (by decide : "insufficient_scope" ≠ "")
  have hc : Sendable (TokenError.insufficientScope description).errorCode :=
    sendable_ofList rfl
  exact sound_unauthorized_iff hn hc

theorem sound_elim_iff (hr : ∀ required, e = .insufficientScope required →
    required = settings.requiredScope) :
    (e.tokenError.elim AuthReply.failed fun error => .refused (unauthorized error)).Sound settings ↔
      e.Inert settings := by
  have silent {description : String} (hm : .invalidToken description ∈ settings.silentErrors)
      (hd : Sendable (quotable description)) :
      (AuthReply.refused (unauthorized (.invalidToken description))).Sound settings ↔ True :=
    iff_true_intro (sound_invalidToken_iff.mpr ⟨hd, List.mem_map_of_mem hm⟩)
  cases e with
  | unsupportedAlgorithm written =>
    refine sound_invalidToken_iff.trans ?_
    rw [silent_unsupportedAlgorithm_iff]
    refine and_iff_right_of_imp ?_
    rintro rfl
    apply sendable_quotable_of_sendable
    exact sendable_append.mpr ⟨sendable_ofList rfl, sendable_ofList rfl⟩
  | insufficientScope required =>
    obtain rfl := hr required rfl
    refine sound_insufficientScope_iff.trans ?_
    rw [and_iff_left]
    · exact sendable_insufficientScope_iff
    · apply List.mem_map_of_mem
      simp [Settings.silentErrors, AuthError.tokenError]
  | notConfigured missing => exact Iff.rfl
  | raised => exact Iff.rfl
  | _ =>
    refine silent ?_ (sendable_quotable_of_sendable (sendable_ofList rfl))
    simp [Settings.silentErrors, AuthError.tokenError]

end Errors

/-- What a call of `verify` ended with. -/
def VerifyPhase.result? {κ : Type} : VerifyPhase κ → Option (Except AuthError Principal)
  | .verified _ _ _ _ _ principal => some (.ok principal)
  | .refused e => some (.error e)
  | _ => none

section Proper

variable [UnicodeTables] {κ : Type}

/-- The header is not JSON, or names RS256 or no algorithm; `repr` writes `None` for none. -/
def ProperHeader : Except JwtError Header → Prop
  | .error .pyJwt => True
  | .error .other => False
  | .ok header => header.alg = some (.text "RS256") ∨
      String.ofList (header.alg.getD .null).repr = "None"

/-- The expiry is a time, and the scope is there unless what is told of it can be sent. -/
def ProperClaims (settings : Settings) (claims : Claims) : Prop :=
  claimText claims "sub" = "" ∨ claimText claims "iss" = "" ∨
    (((claims.get? "exp").bind Json.toFloat).bind fromTimestamp).isSome ∧
      (settings.requiredScope ∈ scopesOf claims ∨ settings.ScopeSendable)

/-- What the token library raises is a `PyJWTError`, and what it returns is proper. -/
def ProperDecode (settings : Settings) : Except JwtError Claims → Prop
  | .error .pyJwt => True
  | .error .other => False
  | .ok claims => ProperClaims settings claims

/-- The token of a call, its claims and the documents fetched for it have the expected shape, and
the token names no other algorithm. -/
def TokenVerifier.Proper (settings : Settings) (jwt : PyJWT κ) (v : TokenVerifier κ) :
    VerifyAction κ → Prop
  | .verify _ token => strip token = "" ∨ ProperHeader (jwt.unverifiedHeader token)
  | .keys _ => True
  | .signed i => v.source.phase i ≠ .refused .raised
  | .decode i now => v.source.phase i ≠ .refused .raised ∧
      ∀ token call key lookup configuration, v.phase i = .configuring token call key lookup →
        v.source.phase i = .configured configuration → ProperDecode settings
          (jwt.decode (decodeOptions settings key configuration.issuer) now token)

def AuthError.Named (settings : Settings) (e : AuthError) : Prop :=
  ∀ required, e = .insufficientScope required → required = settings.requiredScope

variable {settings : Settings} {jwt : PyJWT κ} {token : String} {header : Header} {e : AuthError}
  {claims : Claims} {principal : Principal} {key : κ} {issuer : String} {now : Seconds}

theorem checkHeader_error (hc : settings.missing = [])
    (h : checkHeader settings jwt token = .error e) :
    (e.Inert settings ↔ strip token = "" ∨ ProperHeader (jwt.unverifiedHeader token)) ∧
      e.Named settings := by
  rw [checkHeader, if_neg (not_not.mpr hc)] at h
  split at h
  next hb =>
    cases h
    have hs : strip token = "" := by
      rcases hb with rfl | hb
      · rfl
      · exact hb
    exact ⟨iff_of_true trivial (.inl hs), by simp [AuthError.Named]⟩
  next hb =>
    rw [or_iff_right fun hs => hb (.inr hs)]
    split at h
    next hu => cases h; rw [hu]; exact ⟨Iff.rfl, by simp [AuthError.Named]⟩
    next hu => cases h; rw [hu]; exact ⟨Iff.rfl, by simp [AuthError.Named]⟩
    next header hu =>
      split at h
      next => cases h
      next ha =>
        cases h
        rw [hu, ProperHeader, or_iff_right]
        · exact ⟨Iff.rfl, by simp [AuthError.Named]⟩
        · intro hr
          simp [allowedAlgorithms, hr, Json.isText] at ha

theorem checkHeader_empty (hc : settings.missing = []) :
    checkHeader settings jwt "" = .error .noToken := by
  rw [checkHeader, if_neg (not_not.mpr hc), if_pos (.inl rfl)]

theorem properHeader_of_ok (h : checkHeader settings jwt token = .ok header) :
    ProperHeader (jwt.unverifiedHeader token) := by
  obtain ⟨-, hu, ha⟩ := checkHeader_ok h
  rw [hu]
  exact .inl ha

theorem authorize_error (h : authorize settings jwt token key issuer now = .error e) :
    (e.Inert settings ↔
      ProperDecode settings (jwt.decode (decodeOptions settings key issuer) now token)) ∧
      e.Named settings := by
  rw [authorize] at h
  split at h
  next hd => cases h; rw [hd]; exact ⟨Iff.rfl, by simp [AuthError.Named]⟩
  next hd => cases h; rw [hd]; exact ⟨Iff.rfl, by simp [AuthError.Named]⟩
  next claims hd =>
    rw [hd, ProperDecode, ProperClaims]
    rw [toPrincipal] at h
    split at h
    next hs =>
      cases h
      refine ⟨iff_of_true trivial ?_, by simp [AuthError.Named]⟩
      rcases hs with hs | hs
      · exact .inl hs
      · exact .inr (.inl hs)
    next hs =>
      rw [not_or] at hs
      rw [or_iff_right hs.1, or_iff_right hs.2]
      split at h
      next hx =>
        cases h
        rw [hx]
        exact ⟨iff_of_false id (by simp), by simp [AuthError.Named]⟩
      next expiresAt hx =>
        rw [Except.bind, requireScope] at h
        split at h
        next => cases h
        next hn =>
          cases h
          rw [hx]
          refine ⟨⟨fun hi => ⟨rfl, .inr hi⟩, fun hi => hi.2.resolve_left hn⟩, ?_⟩
          simp [AuthError.Named]

theorem properDecode_of_ok
    (h : authorize settings jwt token key issuer now = .ok (claims, principal)) :
    ProperDecode settings (jwt.decode (decodeOptions settings key issuer) now token) := by
  obtain ⟨hd, hp, hscope⟩ := authorize_ok h
  have hs : settings.requiredScope ∈ scopesOf claims := (toPrincipal_ok hp).2.2.2 ▸ hscope
  rw [hd]
  rw [toPrincipal] at hp
  split at hp
  next => cases hp
  next =>
    split at hp
    next => cases hp
    next hx => exact .inr (.inr ⟨by rw [hx]; rfl, .inl hs⟩)

end Proper

section Runs

variable [UnicodeTables] {κ : Type} {settings : Settings} {jwt : PyJWT κ} {v v' : TokenVerifier κ}
  {action : VerifyAction κ} {past actions : List (VerifyAction κ)} {i : ℕ} {p : VerifyPhase κ}

def VerifyPhase.Inert (settings : Settings) : VerifyPhase κ → Prop
  | .refused e => e.Inert settings
  | _ => True

def VerifyPhase.Named (settings : Settings) : VerifyPhase κ → Prop
  | .refused e => e.Named settings
  | _ => True

/-- A call that has begun has a token, and was refused for it unless it is empty. -/
def VerifyPhase.Presented (past : List (VerifyAction κ)) (i : ℕ) : VerifyPhase κ → Prop
  | .idle => True
  | .signing token | .configuring token _ _ _ | .verified token _ _ _ _ _ =>
    .verify i token ∈ past ∧ token ≠ ""
  | .refused e => ∃ token, .verify i token ∈ past ∧ (token ≠ "" ∨ e = .noToken)

namespace TokenVerifier

theorem ofKeys_inert_iff {e : AuthError} (h : e.OfKeys) :
    (e.Inert settings ↔ e ≠ .raised) ∧ e.Named settings := by
  cases e <;> simp_all [AuthError.OfKeys, AuthError.Inert, AuthError.Named]

theorem inert_iff_of_advances (hc : settings.missing = []) (hr : v.source.Refuses)
    (h : Advances settings jwt v action i p) :
    (p.Inert settings ↔ Proper settings jwt v action) ∧ p.Named settings ∧
      (v.phase i).Inert settings := by
  have refuses {e : AuthError} (hs : v.source.phase i = .refused e) : e.OfKeys :=
    (hs ▸ hr i : KeyPhase.Refusing (.refused e))
  cases h with
  | rejected hp hh =>
    have he := checkHeader_error hc hh
    rw [hp]
    exact ⟨he.1, he.2, trivial⟩
  | accepted hp hh =>
    rw [hp]
    exact ⟨iff_of_true trivial (.inr (properHeader_of_ok hh)), trivial, trivial⟩
  | signed hp hs =>
    rw [hp]
    exact ⟨iff_of_true trivial (by simp [Proper, hs]), trivial, trivial⟩
  | @unsigned i token e hp hs =>
    have he : (e.Inert settings ↔ e ≠ .raised) ∧ e.Named settings := ofKeys_inert_iff (refuses hs)
    rw [hp]
    exact ⟨he.1.trans (by simp [Proper, hs]), he.2, trivial⟩
  | @decoded i now token call key lookup configuration hp hs =>
    have hd : Proper settings jwt v (.decode i now) ↔ ProperDecode settings
        (jwt.decode (decodeOptions settings key configuration.issuer) now token) := by
      refine ⟨fun h => h.2 token call key lookup configuration hp hs, fun h => ⟨by simp [hs], ?_⟩⟩
      rintro _ _ _ _ _ hp' hs'
      rw [hp] at hp'
      rw [hs] at hs'
      cases hp'
      cases hs'
      exact h
    rw [hd, hp, concluded]
    split
    next ha => exact ⟨(authorize_error ha).1, (authorize_error ha).2, trivial⟩
    next ha => exact ⟨iff_of_true trivial (properDecode_of_ok ha), trivial, trivial⟩
  | @unconfigured i now token call key lookup e hp hs =>
    have he : (e.Inert settings ↔ e ≠ .raised) ∧ e.Named settings := ofKeys_inert_iff (refuses hs)
    rw [hp]
    exact ⟨he.1.trans (by simp [Proper, hp, hs]), he.2, trivial⟩

theorem inert_iff_of_step (hc : settings.missing = []) (hr : v.source.Refuses)
    (hn : ∀ j, (v.phase j).Named settings) (h : step settings jwt v action = some v') :
    ((∀ j, (v'.phase j).Inert settings) ↔
      (∀ j, (v.phase j).Inert settings) ∧ Proper settings jwt v action) ∧
      ∀ j, (v'.phase j).Named settings := by
  rcases advances_of_step h with ⟨⟨keyAction, rfl⟩, hp⟩ | ⟨i, p, ha, hp⟩
  · rw [hp]
    exact ⟨(and_iff_left trivial).symm, hn⟩
  · obtain ⟨hi, hnp, hq⟩ := inert_iff_of_advances hc hr ha
    rw [hp, Function.forall_update_iff v.phase fun _ => VerifyPhase.Inert settings,
      Function.forall_update_iff v.phase fun _ => VerifyPhase.Named settings, hi]
    refine ⟨?_, hnp, fun j _ => hn j⟩
    rw [and_comm]
    refine and_congr_left fun _ => ⟨fun h j => ?_, fun h j _ => h j⟩
    by_cases hj : j = i
    · exact hj ▸ hq
    · exact h j hj

/-- The refusals of a run are sound exactly when all of its steps are proper. -/
theorem inert_iff_of_exec (hc : settings.missing = []) (hr : v.source.Refuses)
    (hn : ∀ j, (v.phase j).Named settings) (h : exec (step settings jwt) v actions = some v') :
    ((∀ j, (v'.phase j).Inert settings) ↔ (∀ j, (v.phase j).Inert settings) ∧
      Throughout (step settings jwt) (Proper settings jwt) v actions) ∧
      ∀ j, (v'.phase j).Named settings := by
  induction actions generalizing v with
  | nil => cases h; exact ⟨(and_iff_left trivial).symm, hn⟩
  | cons action actions ih =>
    obtain ⟨v₁, hs, he⟩ := Option.bind_eq_some_iff.mp h
    obtain ⟨hi, hn₁⟩ := inert_iff_of_step hc hr hn hs
    have hrun := ih (refuses_of_step hr hs) hn₁ he
    rw [hrun.1, hi, throughout_cons hs, and_assoc]
    exact ⟨Iff.rfl, hrun.2⟩

theorem presented_of_step (hc : settings.missing = []) (hq : ∀ j, (v.phase j).Presented past j)
    (h : step settings jwt v action = some v') :
    ∀ j, (v'.phase j).Presented (past ++ [action]) j := by
  have later : ∀ j, (v.phase j).Presented (past ++ [action]) j := by
    intro j
    have hj := hq j
    cases hp : v.phase j with
    | idle => trivial
    | refused e =>
      rw [hp] at hj
      obtain ⟨token, hm, he⟩ := hj
      exact ⟨token, List.mem_append_left _ hm, he⟩
    | _ =>
      rw [hp] at hj
      exact ⟨List.mem_append_left _ hj.1, hj.2⟩
  rcases advances_of_step h with ⟨-, hp⟩ | ⟨i, p, ha, hp⟩
  · rw [hp]
    exact later
  · rw [hp]
    apply (Function.forall_update_iff v.phase fun j p => p.Presented (past ++ [action]) j).mpr
    refine ⟨?_, fun j _ => later j⟩
    have hi := later i
    have verify {token : String} :
        VerifyAction.verify i token ∈ past ++ [VerifyAction.verify i token] :=
      List.mem_append_right _ (List.mem_singleton_self _)
    cases ha with
    | @rejected i token e hp hh =>
      refine ⟨token, verify, or_iff_not_imp_left.mpr fun ht => ?_⟩
      obtain rfl := not_not.mp ht
      rw [checkHeader_empty hc] at hh
      exact (Except.error.inj hh).symm
    | @accepted i token header hp hh =>
      refine ⟨verify, ?_⟩
      rintro rfl
      rw [checkHeader_empty hc] at hh
      cases hh
    | signed hp' hs => rw [hp'] at hi; exact hi
    | unsigned hp' hs => rw [hp'] at hi; exact ⟨_, hi.1, .inl hi.2⟩
    | decoded hp' hs =>
      rw [hp'] at hi
      rw [concluded]
      split
      · exact ⟨_, hi.1, .inl hi.2⟩
      · exact hi
    | unconfigured hp' hs => rw [hp'] at hi; exact ⟨_, hi.1, .inl hi.2⟩

theorem presented_of_exec (hc : settings.missing = []) (hq : ∀ j, (v.phase j).Presented past j)
    (h : exec (step settings jwt) v actions = some v') :
    ∀ j, (v'.phase j).Presented (past ++ actions) j := by
  induction actions generalizing v past with
  | nil => cases h; rwa [List.append_nil]
  | cons action actions ih =>
    obtain ⟨v₁, hs, he⟩ := Option.bind_eq_some_iff.mp h
    rw [List.append_cons]
    exact ih (presented_of_step hc hq hs) he

theorem getPrincipal_error (hc : settings.missing = []) {token : String} (ht : token ≠ "")
    (e : AuthError) : getPrincipal settings (some token) (.error e) =
      e.tokenError.elim .failed fun error => .refused (unauthorized error) := by
  rw [getPrincipal, if_neg (not_not.mpr hc), Option.getD_some, if_neg ht]

theorem sound_iff_inert (hc : settings.missing = [])
    (hq : ∀ j, (v.phase j).Presented actions j) (hn : ∀ j, (v.phase j).Named settings) :
    (∀ i token result, .verify i token ∈ actions → (v.phase i).result? = some result →
      (getPrincipal settings (some token) result).Sound settings) ↔
      ∀ j, (v.phase j).Inert settings := by
  constructor
  · intro h j
    cases hp : v.phase j with
    | refused e =>
      obtain ⟨token, hm, ht⟩ := (hp ▸ hq j : VerifyPhase.Presented actions j (.refused e))
      rcases ht with ht | rfl
      · have hs := h j token (.error e) hm (by rw [hp]; rfl)
        rw [getPrincipal_error hc ht] at hs
        exact (sound_elim_iff (hp ▸ hn j : VerifyPhase.Named settings (.refused e))).mp hs
      · trivial
    | _ => trivial
  · intro h i token result hm hr
    by_cases ht : token = ""
    · subst ht
      unfold getPrincipal
      rw [if_neg (not_not.mpr hc), Option.getD_some, if_pos rfl]
      exact sound_missingToken
    cases hp : v.phase i with
    | verified token' call key lookup claims principal =>
      rw [hp] at hr
      cases hr
      unfold getPrincipal
      rw [if_neg (not_not.mpr hc), Option.getD_some, if_neg ht]
      trivial
    | refused e =>
      rw [hp] at hr
      cases hr
      rw [getPrincipal_error hc ht]
      exact (sound_elim_iff (hp ▸ hn i : VerifyPhase.Named settings (.refused e))).mpr
        (hp ▸ h i : VerifyPhase.Inert settings (.refused e))
    | _ => rw [hp] at hr; cases hr

/-- In a configured deployment, every reply to a presented token is a principal or a sound refusal
exactly when all steps of the run are proper. -/
theorem replies_sound_iff {now : Seconds} (hc : settings.missing = [])
    (h : exec (step settings jwt) (initial now) actions = some v) :
    (∀ i token result, .verify i token ∈ actions → (v.phase i).result? = some result →
      (getPrincipal settings (some token) result).Sound settings) ↔
      Throughout (step settings jwt) (Proper settings jwt) (initial now) actions := by
  have hn : ∀ j, ((initial now : TokenVerifier κ).phase j).Named settings := fun _ => trivial
  have hp : ∀ j, ((initial now : TokenVerifier κ).phase j).Presented [] j := fun _ => trivial
  have hrun := inert_iff_of_exec hc (KeySource.Refuses.initial now) hn h
  have hq : ∀ j, (v.phase j).Presented actions j := presented_of_exec hc hp h
  rw [sound_iff_inert hc hq hrun.2, hrun.1, and_iff_right]
  exact fun _ => trivial

end TokenVerifier

end Runs

section Sample

open TokenVerifier

/-- A token that is no JWT is refused soundly. -/
theorem replies_sound_forged :
    letI := asciiTables
    ∃ v, exec (step kitchenSettings kitchenLibrary) (initial 5000) [.verify 0 "forged"] = some v ∧
      (v.phase 0).result? = some (.error .malformedToken) ∧
      (getPrincipal kitchenSettings (some "forged") (.error .malformedToken)).Sound
        kitchenSettings := by
  let _ := asciiTables
  have h : exec (step kitchenSettings kitchenLibrary) (initial 5000) [.verify 0 "forged"] =
      some ((initial 5000).enter 0 (.refused .malformedToken)) := rfl
  refine ⟨_, h, rfl, ?_⟩
  have hs := replies_sound_iff (by decide +kernel : kitchenSettings.missing = []) h
  exact hs.mpr ⟨.inr trivial, fun _ _ => trivial⟩ 0 "forged" _ List.mem_cons_self rfl

@[reducible] def lambdaTables : UnicodeTables :=
  { asciiTables with isPrintable := fun c => asciiTables.isPrintable c || c = 'λ' }

/-- A token library that knows one token, which names no supported algorithm. -/
def lambdaLibrary [UnicodeTables] : PyJWT String :=
  libraryOf fun token =>
    if token = "lambda" then some { kitchenToken with header := ⟨some (.text "λ"), some "kid"⟩ }
    else none

/-- The algorithm that a token names is shown, and here it cannot be sent. -/
theorem replies_unsound_lambda :
    letI := lambdaTables
    ∃ v e exception, exec (step kitchenSettings lambdaLibrary) (initial 5000)
        [.verify 0 "lambda"] = some v ∧
      (v.phase 0).result? = some (.error e) ∧
      getPrincipal kitchenSettings (some "lambda") (.error e) = .refused exception ∧
      exception.detail = "unsupported signing algorithm 'λ'" ∧
      exception ∉ kitchenSettings.silentErrors.map unauthorized ∧
      ∃ value, exception.wwwAuthenticate = some value ∧ ¬ Sendable value := by
  let _ := lambdaTables
  refine ⟨(initial 5000).enter 0 (.refused (.unsupportedAlgorithm "'λ'")),
    .unsupportedAlgorithm "'λ'", unauthorized (.invalidToken "unsupported signing algorithm 'λ'"),
    ?_, rfl, rfl, rfl, ?_, _, rfl, ?_⟩
  · rfl
  · decide +kernel
  · decide +kernel

end Sample

end KitchenSense
