import Mathlib.Logic.Function.Basic
import KitchenSense.Domain.Values
import KitchenSense.Foundations.Dict
import KitchenSense.Foundations.Runs

/-! # The source of the signing keys

The issuer and the signing keys are read from the tenant's documents and
cached. A key set is trusted for a time; a key id that it does not list makes a
caller fetch it again, unless it was fetched too recently. One lock guards the
fetches. Calls run until they wait for the lock or for a document, and others
run in the meantime.
-/

namespace KitchenSense

/-- Why a token is refused, with the values that the description shows. -/
inductive AuthError
  /-- `InvalidTokenError`: the token header carries no key id. -/
  | noKeyId
  /-- `InvalidTokenError`: the token was signed by an unknown key. -/
  | unknownKey
  /-- `InvalidTokenError`: the tenant published no usable signing keys. -/
  | noUsableKeys
  /-- `InvalidTokenError`: the OpenID configuration is missing an issuer or jwks_uri. -/
  | incompleteConfiguration
  /-- `InvalidTokenError`: the token could not be validated against the identity provider. -/
  | providerUnreadable
  /-- `InvalidTokenError`: no token was presented. -/
  | noToken
  /-- `InvalidTokenError`: the token is not a well-formed JWT. -/
  | malformedToken
  /-- `InvalidTokenError`: unsupported signing algorithm, as `repr` writes it. -/
  | unsupportedAlgorithm (written : String)
  /-- `InvalidTokenError`: the token is not valid. -/
  | notValid
  /-- `InvalidTokenError`: the token has no subject. -/
  | noSubject
  /-- `InsufficientScopeError`: the token does not carry the required scope. -/
  | insufficientScope (required : String)
  /-- `AuthConfigurationError`: authentication is not configured. -/
  | notConfigured (missing : List String)
  /-- An exception of another class, from a document or a claim of an unexpected shape. -/
  | raised
  deriving DecidableEq

/-- What `_get_json` gets: a document of the expected shape, no JSON at all, or other JSON. -/
inductive Fetched (δ : Type)
  | document (document : δ)
  | unreadable
  | malformed

/-- The members of the OpenID document that are read, as text; `none` when empty or missing. -/
structure OpenIDDocument where
  issuer : Option String
  jwksUri : Option String
  deriving DecidableEq

structure OpenIDConfiguration where
  issuer : String
  jwksUri : String
  deriving DecidableEq

/-- An entry of a key set document: its key id, and the key, if one can be made of it. -/
structure Jwk (κ : Type) where
  kid : Option String
  key : Option κ

structure KeySet (κ : Type) where
  entries : List (Jwk κ)
  fetchedAt : Seconds

structure KeySettings where
  tenantId : String
  cacheSeconds : Seconds
  minRefreshSeconds : Seconds

section Documents

variable {κ : Type}

/-- `_fetch_configuration`, from the document. -/
def OpenIDConfiguration.ofDocument (tenantId : String) (document : OpenIDDocument) :
    Except AuthError OpenIDConfiguration :=
  let issuer := strip (document.issuer.getD "")
  let jwksUri := strip (document.jwksUri.getD "")
  if issuer = "" ∨ jwksUri = "" then
    .error .incompleteConfiguration
  else
    .ok ⟨replace "{tenantid}" tenantId issuer, jwksUri⟩

/-- The entry of the dictionary of keys that an entry of the document gives. -/
def Jwk.usable (entry : Jwk κ) : Option (String × κ) :=
  match entry.kid, entry.key with
  | some kid, some key => if kid = "" then none else some (kid, key)
  | _, _ => none

/-- The dictionary that `_refresh_keys` makes of a document. -/
def keysOf (entries : List (Jwk κ)) : Dict String κ := Dict.ofPairs (entries.filterMap Jwk.usable)

def lastListed (kid : String) (entries : List (Jwk κ)) : Option κ :=
  ((entries.filterMap Jwk.usable).filter fun p => p.1 = kid).getLast?.map Prod.snd

theorem get?_keysOf (entries : List (Jwk κ)) (kid : String) :
    (keysOf entries).get? kid = lastListed kid entries := Dict.get?_ofPairs ..

/-- `_refresh_keys`, from what was fetched. -/
def refreshed : Fetched (List (Jwk κ)) → Except AuthError (List (Jwk κ))
  | .document entries => if (keysOf entries).entries = [] then .error .noUsableKeys else .ok entries
  | .unreadable => .error .providerUnreadable
  | .malformed => .error .raised

def discovered (tenantId : String) :
    Fetched OpenIDDocument → Except AuthError (OpenIDDocument × OpenIDConfiguration)
  | .document document => (OpenIDConfiguration.ofDocument tenantId document).map (document, ·)
  | .unreadable => .error .providerUnreadable
  | .malformed => .error .raised

theorem ofDocument_of_discovered {tenantId : String} {fetched : Fetched OpenIDDocument}
    {r : OpenIDDocument × OpenIDConfiguration} (h : discovered tenantId fetched = .ok r) :
    OpenIDConfiguration.ofDocument tenantId r.1 = .ok r.2 := by
  cases fetched with
  | document document =>
    rw [discovered] at h
    cases hd : OpenIDConfiguration.ofDocument tenantId document with
    | error e => rw [hd] at h; cases h
    | ok configuration => rw [hd] at h; cases h; exact hd
  | unreadable => cases h
  | malformed => cases h

theorem eq_document_of_refreshed {fetched : Fetched (List (Jwk κ))} {entries : List (Jwk κ)}
    (h : refreshed fetched = .ok entries) :
    fetched = .document entries ∧ (keysOf entries).entries ≠ [] := by
  cases fetched with
  | document document =>
    rw [refreshed] at h
    split at h
    next => cases h
    next hk => cases h; exact ⟨rfl, hk⟩
  | unreadable => cases h
  | malformed => cases h

end Documents

/-- A call of `signing_key`, and how many key sets had been cached when it began. -/
structure KeyCall where
  kid : String
  began : ℕ
  deriving DecidableEq

/-- When a key was looked up, and how many key sets had been cached by then. -/
structure Lookup where
  at_ : Seconds
  keySets : ℕ
  deriving DecidableEq

/-- Whether the cached keys were too old or did not list the key id. -/
inductive RefreshReason
  | expired
  | unknownKeyId
  deriving DecidableEq

inductive KeyPhase (κ : Type)
  | idle
  /-- `_cached_key` waits for the lock. -/
  | awaitingCached (call : KeyCall)
  /-- `signing_key` waits for the lock. -/
  | awaitingUnknown (call : KeyCall)
  /-- `_refresh_keys` is about to request a document. -/
  | refreshing (reason : RefreshReason) (call : KeyCall)
  | discovering (reason : RefreshReason) (call : KeyCall)
  | fetching (reason : RefreshReason) (call : KeyCall)
  | found (call : KeyCall) (key : κ) (lookup : Lookup)
  /-- `configuration` waits for the lock. -/
  | awaitingConfiguration
  | discoveringConfiguration
  | configured (configuration : OpenIDConfiguration)
  | refused (error : AuthError)
  deriving DecidableEq

def KeyPhase.Holding {κ : Type} : KeyPhase κ → Prop
  | .refreshing _ _ | .discovering _ _ | .fetching _ _ | .discoveringConfiguration => True
  | _ => False

/-- A request for the key set: when it was sent, whether keys were cached, whether it failed. -/
structure Attempt where
  start : Seconds
  cached : Bool
  failed : Bool
  deriving DecidableEq

/-- The fields of a key source, the clock, the calls, and a record of what was fetched. -/
structure KeySource (κ : Type) where
  clock : Seconds
  lock : Option ℕ
  configuration : Option OpenIDConfiguration
  keys : Dict String κ
  keysFetchedAt : Seconds
  phase : ℕ → KeyPhase κ
  /-- The OpenID documents a configuration was read from. -/
  documents : List OpenIDDocument
  /-- The key sets cached so far, in order. -/
  keySets : List (KeySet κ)
  /-- The requests for the key set, the last one first. -/
  attempts : List Attempt

inductive KeyAction (κ : Type)
  | tick (now : Seconds)
  | signingKey (i : ℕ) (kid : String)
  | acquire (i : ℕ)
  | request (i : ℕ)
  | openId (i : ℕ) (fetched : Fetched OpenIDDocument)
  | jwks (i : ℕ) (fetched : Fetched (List (Jwk κ)))
  | configuration (i : ℕ)

namespace KeySource

variable {κ : Type}

def initial (now : Seconds) : KeySource κ where
  clock := now
  lock := none
  configuration := none
  keys := .empty
  keysFetchedAt := 0
  phase _ := .idle
  documents := []
  keySets := []
  attempts := []

def enter (s : KeySource κ) (i : ℕ) (phase : KeyPhase κ) : KeySource κ :=
  { s with phase := Function.update s.phase i phase }

@[simp] theorem enter_phase (s : KeySource κ) (i : ℕ) (p : KeyPhase κ) :
    (s.enter i p).phase = Function.update s.phase i p := rfl

def leave (s : KeySource κ) (i : ℕ) (phase : KeyPhase κ) : KeySource κ :=
  { s.enter i phase with lock := none }

def take (s : KeySource κ) (i : ℕ) (phase : KeyPhase κ) : KeySource κ :=
  { s.enter i phase with lock := some i }

def Expired (cfg : KeySettings) (s : KeySource κ) : Prop :=
  s.clock - s.keysFetchedAt ≥ cfg.cacheSeconds

instance (cfg : KeySettings) (s : KeySource κ) : Decidable (s.Expired cfg) :=
  inferInstanceAs (Decidable (_ ≥ _))

def lookUp (s : KeySource κ) (call : KeyCall) (missing : KeyPhase κ) : KeyPhase κ :=
  match s.keys.get? call.kid with
  | some key => .found call key ⟨s.clock, s.keySets.length⟩
  | none => missing

def missingAfter : RefreshReason → KeyCall → KeyPhase κ
  | .expired, call => .awaitingUnknown call
  | .unknownKeyId, _ => .refused .unknownKey

def install (s : KeySource κ) (entries : List (Jwk κ)) : KeySource κ :=
  { s with
    keys := keysOf entries
    keysFetchedAt := s.clock
    keySets := s.keySets ++ [⟨entries, s.clock⟩] }

def configure (s : KeySource κ) (document : OpenIDDocument) (configuration : OpenIDConfiguration) :
    KeySource κ :=
  { s with
    configuration := some configuration
    documents := s.documents ++ [document] }

def recordAttempt (s : KeySource κ) : KeySource κ :=
  { s with attempts := ⟨s.clock, s.keys.entries ≠ [], false⟩ :: s.attempts }

def markFailed (s : KeySource κ) : KeySource κ :=
  { s with attempts := s.attempts.modifyHead fun attempt => { attempt with failed := true } }

variable (cfg : KeySettings)

def step (s : KeySource κ) : KeyAction κ → Option (KeySource κ)
  | .tick now => if s.clock ≤ now then some { s with clock := now } else none
  | .signingKey i kid =>
    match s.phase i with
    | .idle =>
      let call : KeyCall := ⟨kid, s.keySets.length⟩
      if kid = "" then some (s.enter i (.refused .noKeyId))
      else if s.keys.entries ≠ [] ∧ ¬ s.Expired cfg then
        some (s.enter i (s.lookUp call (.awaitingUnknown call)))
      else some (s.enter i (.awaitingCached call))
    | _ => none
  | .acquire i =>
    if s.lock ≠ none then none
    else match s.phase i with
      | .awaitingCached call =>
        if s.keys.entries = [] ∨ s.Expired cfg then some (s.take i (.refreshing .expired call))
        else some (s.enter i (s.lookUp call (.awaitingUnknown call)))
      | .awaitingUnknown call =>
        match s.keys.get? call.kid with
        | some key => some (s.enter i (.found call key ⟨s.clock, s.keySets.length⟩))
        | none =>
          if s.clock - s.keysFetchedAt < cfg.minRefreshSeconds then
            some (s.enter i (.refused .unknownKey))
          else some (s.take i (.refreshing .unknownKeyId call))
      | .awaitingConfiguration =>
        match s.configuration with
        | some configuration => some (s.enter i (.configured configuration))
        | none => some (s.take i .discoveringConfiguration)
      | _ => none
  | .request i =>
    match s.phase i with
    | .refreshing reason call =>
      if s.configuration = none then some (s.enter i (.discovering reason call))
      else some (s.recordAttempt.enter i (.fetching reason call))
    | _ => none
  | .openId i fetched =>
    match s.phase i, discovered cfg.tenantId fetched with
    | .discovering reason call, .ok (document, configuration) =>
      some ((s.configure document configuration).enter i (.refreshing reason call))
    | .discoveringConfiguration, .ok (document, configuration) =>
      some ((s.configure document configuration).leave i (.configured configuration))
    | .discovering _ _, .error e | .discoveringConfiguration, .error e =>
      some (s.leave i (.refused e))
    | _, _ => none
  | .jwks i fetched =>
    match s.phase i, refreshed fetched with
    | .fetching reason call, .ok entries =>
      some ((s.install entries).leave i
        ((s.install entries).lookUp call (missingAfter reason call)))
    | .fetching _ _, .error e => some (s.markFailed.leave i (.refused e))
    | _, _ => none
  | .configuration i =>
    match s.phase i with
    | .idle | .found _ _ _ =>
      match s.configuration with
      | some configuration => some (s.enter i (.configured configuration))
      | none => some (s.enter i .awaitingConfiguration)
    | _ => none

variable {cfg} {s s' : KeySource κ} {action : KeyAction κ}

/-- What a call may turn to that neither looks a key up nor takes the lock. -/
inductive Answers (s : KeySource κ) : KeyPhase κ → Prop
  | refused (e : AuthError) : Answers s (.refused e)
  | awaitingConfiguration : Answers s .awaitingConfiguration
  | configured {configuration : OpenIDConfiguration} (h : s.configuration = some configuration) :
      Answers s (.configured configuration)

/-- What each step does, with the conditions under which it is taken. -/
inductive Moves (cfg : KeySettings) (s : KeySource κ) : KeyAction κ → KeySource κ → Prop
  | tick {now : Seconds} (h : s.clock ≤ now) : Moves cfg s (.tick now) { s with clock := now }
  | answer {action : KeyAction κ} {i : ℕ} {p : KeyPhase κ} (hp : ¬ (s.phase i).Holding)
      (ha : s.Answers p) : Moves cfg s action (s.enter i p)
  | wait {i : ℕ} {kid : String} (hk : kid ≠ "") (hp : s.phase i = .idle) :
      Moves cfg s (.signingKey i kid) (s.enter i (.awaitingCached ⟨kid, s.keySets.length⟩))
  /-- A call looks its key up among keys that have not expired. -/
  | read {action : KeyAction κ} {i : ℕ} {call : KeyCall}
      (hp : s.phase i = .awaitingCached call ∨
        s.phase i = .idle ∧ call.kid ≠ "" ∧ call.began = s.keySets.length)
      (hn : s.keys.entries ≠ []) (he : ¬ s.Expired cfg) :
      Moves cfg s action (s.enter i (s.lookUp call (.awaitingUnknown call)))
  /-- A call that missed its key finds it after it has waited for the lock. -/
  | reread {i : ℕ} {call : KeyCall} {key : κ} (hp : s.phase i = .awaitingUnknown call)
      (hk : s.keys.get? call.kid = some key) :
      Moves cfg s (.acquire i) (s.enter i (.found call key ⟨s.clock, s.keySets.length⟩))
  | refreshExpired {i : ℕ} {call : KeyCall} (hl : s.lock = none)
      (hp : s.phase i = .awaitingCached call) (he : s.keys.entries = [] ∨ s.Expired cfg) :
      Moves cfg s (.acquire i) (s.take i (.refreshing .expired call))
  | refreshUnknown {i : ℕ} {call : KeyCall} (hl : s.lock = none)
      (hp : s.phase i = .awaitingUnknown call)
      (ht : cfg.minRefreshSeconds ≤ s.clock - s.keysFetchedAt) :
      Moves cfg s (.acquire i) (s.take i (.refreshing .unknownKeyId call))
  | discover {i : ℕ} (hl : s.lock = none) (hp : s.phase i = .awaitingConfiguration)
      (hc : s.configuration = none) :
      Moves cfg s (.acquire i) (s.take i .discoveringConfiguration)
  | requestOpenId {i : ℕ} {reason : RefreshReason} {call : KeyCall}
      (hp : s.phase i = .refreshing reason call) (hc : s.configuration = none) :
      Moves cfg s (.request i) (s.enter i (.discovering reason call))
  | requestJwks {i : ℕ} {reason : RefreshReason} {call : KeyCall}
      (hp : s.phase i = .refreshing reason call) (hc : s.configuration ≠ none) :
      Moves cfg s (.request i) (s.recordAttempt.enter i (.fetching reason call))
  | configure {i : ℕ} {reason : RefreshReason} {call : KeyCall} {fetched : Fetched OpenIDDocument}
      {document : OpenIDDocument} {configuration : OpenIDConfiguration}
      (hp : s.phase i = .discovering reason call)
      (hd : OpenIDConfiguration.ofDocument cfg.tenantId document = .ok configuration) :
      Moves cfg s (.openId i fetched)
        ((s.configure document configuration).enter i (.refreshing reason call))
  | configureAlone {i : ℕ} {fetched : Fetched OpenIDDocument} {document : OpenIDDocument}
      {configuration : OpenIDConfiguration} (hp : s.phase i = .discoveringConfiguration)
      (hd : OpenIDConfiguration.ofDocument cfg.tenantId document = .ok configuration) :
      Moves cfg s (.openId i fetched)
        ((s.configure document configuration).leave i (.configured configuration))
  | openIdFailed {i : ℕ} {fetched : Fetched OpenIDDocument} {e : AuthError}
      (hp : (s.phase i).Holding) (hf : ∀ reason call, s.phase i ≠ .fetching reason call) :
      Moves cfg s (.openId i fetched) (s.leave i (.refused e))
  | install {i : ℕ} {reason : RefreshReason} {call : KeyCall} {entries : List (Jwk κ)}
      (hp : s.phase i = .fetching reason call) (hk : (keysOf entries).entries ≠ []) :
      Moves cfg s (.jwks i (.document entries)) ((s.install entries).leave i
        ((s.install entries).lookUp call (missingAfter reason call)))
  | jwksFailed {i : ℕ} {reason : RefreshReason} {call : KeyCall}
      {fetched : Fetched (List (Jwk κ))} {e : AuthError}
      (hp : s.phase i = .fetching reason call) (hf : refreshed fetched = .error e) :
      Moves cfg s (.jwks i fetched) (s.markFailed.leave i (.refused e))

theorem moves_of_step (h : step cfg s action = some s') : Moves cfg s action s' := by
  cases action with
  | tick now =>
    rw [step, Option.ite_none_right_eq_some] at h
    obtain ⟨hn, ⟨⟩⟩ := h
    exact .tick hn
  | signingKey i kid =>
    rw [step] at h
    cases hp : s.phase i with
    | idle =>
      have hn : ¬ (s.phase i).Holding := by rw [hp]; exact id
      rw [hp] at h
      dsimp only at h
      split at h
      next => cases h; exact .answer hn (.refused _)
      next hk =>
        split at h
        next hc => cases h; exact .read (.inr ⟨hp, hk, rfl⟩) hc.1 hc.2
        next => cases h; exact .wait hk hp
    | _ => rw [hp] at h; cases h
  | acquire i =>
    rw [step, Option.ite_none_left_eq_some] at h
    obtain ⟨hl, h⟩ := h
    have hl : s.lock = none := not_not.mp hl
    cases hp : s.phase i with
    | awaitingCached call =>
      rw [hp] at h
      dsimp only at h
      split at h
      next he => cases h; exact .refreshExpired hl hp he
      next he =>
        cases h
        rw [not_or] at he
        exact .read (.inl hp) he.1 he.2
    | awaitingUnknown call =>
      have hn : ¬ (s.phase i).Holding := by rw [hp]; exact id
      rw [hp] at h
      dsimp only at h
      split at h
      next key hk => cases h; exact .reread hp hk
      next =>
        split at h
        next => cases h; exact .answer hn (.refused _)
        next ht => cases h; exact .refreshUnknown hl hp (not_lt.mp ht)
    | awaitingConfiguration =>
      have hn : ¬ (s.phase i).Holding := by rw [hp]; exact id
      rw [hp] at h
      dsimp only at h
      split at h
      next configuration hc => cases h; exact .answer hn (.configured hc)
      next hc => cases h; exact .discover hl hp hc
    | _ => rw [hp] at h; cases h
  | request i =>
    rw [step] at h
    cases hp : s.phase i with
    | refreshing reason call =>
      rw [hp] at h
      dsimp only at h
      split at h
      next hc => cases h; exact .requestOpenId hp hc
      next hc => cases h; exact .requestJwks hp hc
    | _ => rw [hp] at h; cases h
  | openId i fetched =>
    rw [step] at h
    cases hp : s.phase i with
    | discovering reason call =>
      rw [hp] at h
      cases hd : discovered cfg.tenantId fetched with
      | error e =>
        rw [hd] at h
        cases h
        exact .openIdFailed (by rw [hp]; trivial) (by rw [hp]; simp)
      | ok r =>
        rw [hd] at h
        cases h
        exact .configure hp (ofDocument_of_discovered hd)
    | discoveringConfiguration =>
      rw [hp] at h
      cases hd : discovered cfg.tenantId fetched with
      | error e =>
        rw [hd] at h
        cases h
        exact .openIdFailed (by rw [hp]; trivial) (by rw [hp]; simp)
      | ok r =>
        rw [hd] at h
        cases h
        exact .configureAlone hp (ofDocument_of_discovered hd)
    | _ => rw [hp] at h; cases h
  | jwks i fetched =>
    rw [step] at h
    cases hp : s.phase i with
    | fetching reason call =>
      rw [hp] at h
      cases hr : refreshed fetched with
      | error e =>
        rw [hr] at h
        cases h
        exact .jwksFailed hp hr
      | ok entries =>
        rw [hr] at h
        cases h
        obtain ⟨rfl, hk⟩ := eq_document_of_refreshed hr
        exact .install hp hk
    | _ => rw [hp] at h; cases h
  | configuration i =>
    rw [step] at h
    cases hp : s.phase i with
    | idle =>
      have hn : ¬ (s.phase i).Holding := by rw [hp]; exact id
      rw [hp] at h
      dsimp only at h
      split at h
      next configuration hc => cases h; exact .answer hn (.configured hc)
      next => cases h; exact .answer hn .awaitingConfiguration
    | found call key lookup =>
      have hn : ¬ (s.phase i).Holding := by rw [hp]; exact id
      rw [hp] at h
      dsimp only at h
      split at h
      next configuration hc => cases h; exact .answer hn (.configured hc)
      next => cases h; exact .answer hn .awaitingConfiguration
    | _ => rw [hp] at h; cases h

end KeySource

end KitchenSense
