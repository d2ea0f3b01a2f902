import KitchenSense.Auth.Verifier

/-! # Refusals

What a refused token is told, and the refusals in which the checks of a token,
the key source and the calls of a verifier can end.
-/

namespace KitchenSense

/-- A `TokenError`: the code of its class and its description. -/
structure TokenError where
  errorCode : String
  description : String
  deriving DecidableEq

namespace TokenError

def missingToken (description : String) : TokenError := ⟨"", description⟩

def invalidToken (description : String) : TokenError := ⟨"invalid_token", description⟩

def insufficientScope (description : String) : TokenError := ⟨"insufficient_scope", description⟩

end TokenError

/-- The `TokenError` that is raised; the other exceptions are not one. -/
def AuthError.tokenError [UnicodeTables] : AuthError → Option TokenError
  | .noKeyId => some (.invalidToken "the token header carries no key id")
  | .unknownKey => some (.invalidToken "the token was signed by an unknown key")
  | .noUsableKeys => some (.invalidToken "the tenant published no usable signing keys")
  | .incompleteConfiguration => some (.invalidToken
      "the tenant's OpenID configuration is missing an issuer or jwks_uri")
  | .providerUnreadable => some (.invalidToken
      "the token could not be validated against the identity provider")
  | .noToken => some (.invalidToken "no token was presented")
  | .malformedToken => some (.invalidToken "the token is not a well-formed JWT")
  | .unsupportedAlgorithm written => some (.invalidToken
      ("unsupported signing algorithm " ++ written))
  | .notValid => some (.invalidToken "the token is not valid")
  | .noSubject => some (.invalidToken "the token has no subject")
  | .insufficientScope required => some (.insufficientScope
      ("the token does not carry the " ++ String.ofList (reprText required) ++ " scope"))
  | .notConfigured _ => none
  | .raised => none

def AuthError.OfKeys : AuthError → Prop
  | .noKeyId | .unknownKey | .noUsableKeys | .incompleteConfiguration | .providerUnreadable
  | .raised => True
  | _ => False

section KeySource

variable {κ : Type} {cfg : KeySettings} {s s' : KeySource κ} {action : KeyAction κ}

def KeyPhase.Refusing : KeyPhase κ → Prop
  | .refused e => e.OfKeys
  | _ => True

namespace KeySource

def Refuses (s : KeySource κ) : Prop := ∀ i, (s.phase i).Refusing

theorem Refuses.initial (now : Seconds) : (initial now : KeySource κ).Refuses := fun _ => trivial

theorem Refuses.update (hs : s.Refuses) {i : ℕ} {p : KeyPhase κ}
    (h : s'.phase = Function.update s.phase i p) (hp : p.Refusing) : s'.Refuses := by
  unfold Refuses
  rw [h]
  apply (Function.forall_update_iff s.phase fun _ => KeyPhase.Refusing).mpr
  exact ⟨hp, fun j _ => hs j⟩

theorem refusing_lookUp {call : KeyCall} {missing : KeyPhase κ} (h : missing.Refusing) :
    (s.lookUp call missing).Refusing := by
  unfold lookUp
  split
  · trivial
  · exact h

theorem refusing_missingAfter (reason : RefreshReason) (call : KeyCall) :
    (missingAfter reason call : KeyPhase κ).Refusing := by
  cases reason <;> trivial

theorem ofKeys_of_discovered {tenantId : String} {fetched : Fetched OpenIDDocument}
    {e : AuthError} (h : discovered tenantId fetched = .error e) : e.OfKeys := by
  cases fetched with
  | document document =>
    rw [discovered, OpenIDConfiguration.ofDocument] at h
    split at h
    · cases h; trivial
    · cases h
  | unreadable => cases h; trivial
  | malformed => cases h; trivial

theorem ofKeys_of_refreshed {fetched : Fetched (List (Jwk κ))} {e : AuthError}
    (h : refreshed fetched = .error e) : e.OfKeys := by
  cases fetched with
  | document entries =>
    rw [refreshed] at h
    split at h
    · cases h; trivial
    · cases h
  | unreadable => cases h; trivial
  | malformed => cases h; trivial

theorem Refuses.step (hs : s.Refuses) (h : KeySource.step cfg s action = some s') :
    s'.Refuses := by
  cases action with
  | tick now =>
    rw [KeySource.step, Option.ite_none_right_eq_some] at h
    obtain ⟨-, ⟨⟩⟩ := h
    exact hs
  | signingKey i kid =>
    rw [KeySource.step] at h
    split at h
    next =>
      dsimp only at h
      split at h
      next => cases h; exact hs.update rfl trivial
      next =>
        split at h
        next => cases h; exact hs.update rfl (refusing_lookUp trivial)
        next => cases h; exact hs.update rfl trivial
    next => cases h
  | acquire i =>
    rw [KeySource.step, Option.ite_none_left_eq_some] at h
    obtain ⟨-, h⟩ := h
    split at h
    next =>
      split at h
      next => cases h; exact hs.update rfl trivial
      next => cases h; exact hs.update rfl (refusing_lookUp trivial)
    next =>
      split at h
      next => cases h; exact hs.update rfl trivial
      next => split at h <;> cases h <;> exact hs.update rfl trivial
    next => split at h <;> cases h <;> exact hs.update rfl trivial
    next => cases h
  | request i =>
    rw [KeySource.step] at h
    split at h
    next => split at h <;> cases h <;> exact hs.update rfl trivial
    next => cases h
  | openId i fetched =>
    rw [KeySource.step] at h
    split at h
    next => cases h; exact hs.update rfl trivial
    next => cases h; exact hs.update rfl trivial
    next hd => cases h; exact hs.update rfl (ofKeys_of_discovered hd)
    next hd => cases h; exact hs.update rfl (ofKeys_of_discovered hd)
    next => cases h
  | jwks i fetched =>
    rw [KeySource.step] at h
    split at h
    next reason call entries _ _ =>
      cases h
      exact hs.update rfl (refusing_lookUp (refusing_missingAfter reason call))
    next hr => cases h; exact hs.update rfl (ofKeys_of_refreshed hr)
    next => cases h
  | configuration i =>
    rw [KeySource.step] at h
    split at h
    next => split at h <;> cases h <;> exact hs.update rfl trivial
    next => split at h <;> cases h <;> exact hs.update rfl trivial
    next => cases h

end KeySource

end KeySource

namespace TokenVerifier

section Advances

variable [UnicodeTables] {κ : Type} {settings : Settings} {jwt : PyJWT κ} {v v' : TokenVerifier κ}
  {action : VerifyAction κ}

inductive Advances (settings : Settings) (jwt : PyJWT κ) (v : TokenVerifier κ) :
    VerifyAction κ → ℕ → VerifyPhase κ → Prop
  | rejected {i : ℕ} {token : String} {e : AuthError} (hp : v.phase i = .idle)
      (hh : checkHeader settings jwt token = .error e) :
      Advances settings jwt v (.verify i token) i (.refused e)
  | accepted {i : ℕ} {token : String} {header : Header} (hp : v.phase i = .idle)
      (hh : checkHeader settings jwt token = .ok header) :
      Advances settings jwt v (.verify i token) i (.signing token)
  | signed {i : ℕ} {token : String} {call : KeyCall} {key : κ} {lookup : Lookup}
      (hp : v.phase i = .signing token) (hs : v.source.phase i = .found call key lookup) :
      Advances settings jwt v (.signed i) i (.configuring token call key lookup)
  | unsigned {i : ℕ} {token : String} {e : AuthError} (hp : v.phase i = .signing token)
      (hs : v.source.phase i = .refused e) : Advances settings jwt v (.signed i) i (.refused e)
  | decoded {i : ℕ} {now : Seconds} {token : String} {call : KeyCall} {key : κ} {lookup : Lookup}
      {configuration : OpenIDConfiguration} (hp : v.phase i = .configuring token call key lookup)
      (hs : v.source.phase i = .configured configuration) :
      Advances settings jwt v (.decode i now) i
        (concluded settings jwt token call key lookup configuration.issuer now)
  | unconfigured {i : ℕ} {now : Seconds} {token : String} {call : KeyCall} {key : κ}
      {lookup : Lookup} {e : AuthError} (hp : v.phase i = .configuring token call key lookup)
      (hs : v.source.phase i = .refused e) :
      Advances settings jwt v (.decode i now) i (.refused e)

theorem advances_of_step (h : step settings jwt v action = some v') :
    ((∃ keyAction, action = .keys keyAction) ∧ v'.phase = v.phase) ∨
      ∃ i p, Advances settings jwt v action i p ∧ v'.phase = Function.update v.phase i p := by
  cases action with
  | verify i token =>
    rw [step] at h
    split at h
    next hp hh => cases h; exact .inr ⟨i, _, .rejected hp hh, rfl⟩
    next hp hh =>
      obtain ⟨source, -, rfl⟩ := Option.map_eq_some_iff.mp h
      exact .inr ⟨i, _, .accepted hp hh, rfl⟩
    next => cases h
  | keys keyAction =>
    rw [step, Option.ite_none_right_eq_some] at h
    obtain ⟨-, h⟩ := h
    obtain ⟨source, -, rfl⟩ := Option.map_eq_some_iff.mp h
    exact .inl ⟨⟨keyAction, rfl⟩, rfl⟩
  | signed i =>
    rw [step] at h
    split at h
    next hp hs =>
      obtain ⟨source, -, rfl⟩ := Option.map_eq_some_iff.mp h
      exact .inr ⟨i, _, .signed hp hs, rfl⟩
    next hp hs => cases h; exact .inr ⟨i, _, .unsigned hp hs, rfl⟩
    next => cases h
  | decode i now =>
    rw [step] at h
    split at h
    next hp hs => cases h; exact .inr ⟨i, _, .decoded hp hs, rfl⟩
    next hp hs => cases h; exact .inr ⟨i, _, .unconfigured hp hs, rfl⟩
    next => cases h

theorem refuses_of_step (hs : v.source.Refuses) (h : step settings jwt v action = some v') :
    v'.source.Refuses := by
  cases action with
  | verify i token =>
    rw [step] at h
    split at h
    next => cases h; exact hs
    next => obtain ⟨source, hk, rfl⟩ := Option.map_eq_some_iff.mp h; exact hs.step hk
    next => cases h
  | keys keyAction =>
    rw [step, Option.ite_none_right_eq_some] at h
    obtain ⟨-, h⟩ := h
    obtain ⟨source, hk, rfl⟩ := Option.map_eq_some_iff.mp h
    exact hs.step hk
  | signed i =>
    rw [step] at h
    split at h
    next => obtain ⟨source, hk, rfl⟩ := Option.map_eq_some_iff.mp h; exact hs.step hk
    next => cases h; exact hs
    next => cases h
  | decode i now =>
    rw [step] at h
    split at h
    next => cases h; exact hs
    next => cases h; exact hs
    next => cases h

end Advances

end TokenVerifier

end KitchenSense
