import KitchenSense.Auth.CurrentKeys
import KitchenSense.Auth.Discovery
import KitchenSense.Auth.Principal
import KitchenSense.Auth.RateLimit

/-! # The token verifier

A call of `verify` checks the header of its token, asks the key source for the
key and then for the configuration, and has the token decoded with them. The
calls share one key source and run between each other's awaits. A principal
rests on a key that was current when it was looked up.
-/

namespace KitchenSense

/-- How far a call of `verify` has come; once it has ended, with what it found. -/
inductive VerifyPhase (κ : Type)
  | idle
  /-- It waits for the signing key. -/
  | signing (token : String)
  /-- It has the key and waits for the configuration. -/
  | configuring (token : String) (call : KeyCall) (key : κ) (lookup : Lookup)
  | verified (token : String) (call : KeyCall) (key : κ) (lookup : Lookup) (claims : Claims)
      (principal : Principal)
  | refused (error : AuthError)

def VerifyPhase.principal? {κ : Type} : VerifyPhase κ → Option Principal
  | .verified _ _ _ _ _ principal => some principal
  | _ => none

structure TokenVerifier (κ : Type) where
  source : KeySource κ
  phase : ℕ → VerifyPhase κ

inductive VerifyAction (κ : Type)
  | verify (i : ℕ) (token : String)
  /-- The clock advances, or a call of the key source takes the lock or gets a response. -/
  | keys (action : KeyAction κ)
  /-- `signing_key` returns and `configuration` is called. -/
  | signed (i : ℕ)
  /-- `configuration` returns and the token is decoded. -/
  | decode (i : ℕ) (now : Seconds)

def KeyAction.Continues {κ : Type} : KeyAction κ → Prop
  | .signingKey _ _ | .configuration _ => False
  | _ => True

instance {κ : Type} (action : KeyAction κ) : Decidable action.Continues :=
  match action with
  | .signingKey _ _ | .configuration _ => inferInstanceAs (Decidable False)
  | .tick _ | .acquire _ | .request _ | .openId _ _ | .jwks _ _ =>
    inferInstanceAs (Decidable True)

namespace TokenVerifier

section Model

variable [UnicodeTables] {κ : Type} (settings : Settings) (jwt : PyJWT κ)

def initial (now : Seconds) : TokenVerifier κ := ⟨.initial now, fun _ => .idle⟩

def enter (v : TokenVerifier κ) (i : ℕ) (phase : VerifyPhase κ) : TokenVerifier κ :=
  { v with phase := Function.update v.phase i phase }

def withSource (v : TokenVerifier κ) (source : KeySource κ) : TokenVerifier κ :=
  { v with source := source }

def concluded (token : String) (call : KeyCall) (key : κ) (lookup : Lookup) (issuer : String)
    (now : Seconds) : VerifyPhase κ :=
  match authorize settings jwt token key issuer now with
  | .error e => .refused e
  | .ok (claims, principal) => .verified token call key lookup claims principal

def step (v : TokenVerifier κ) : VerifyAction κ → Option (TokenVerifier κ)
  | .verify i token =>
    match v.phase i, checkHeader settings jwt token with
    | .idle, .error e => some (v.enter i (.refused e))
    | .idle, .ok header =>
      (KeySource.step settings.keySettings v.source
        (.signingKey i (header.kid.getD ""))).map fun source =>
          (v.withSource source).enter i (.signing token)
    | _, _ => none
  | .keys action =>
    if action.Continues then (KeySource.step settings.keySettings v.source action).map v.withSource
    else none
  | .signed i =>
    match v.phase i, v.source.phase i with
    | .signing token, .found call key lookup =>
      (KeySource.step settings.keySettings v.source (.configuration i)).map fun source =>
        (v.withSource source).enter i (.configuring token call key lookup)
    | .signing _, .refused e => some (v.enter i (.refused e))
    | _, _ => none
  | .decode i now =>
    match v.phase i, v.source.phase i with
    | .configuring token call key lookup, .configured configuration =>
      some (v.enter i (concluded settings jwt token call key lookup configuration.issuer now))
    | .configuring _ _ _ _, .refused e => some (v.enter i (.refused e))
    | _, _ => none

end Model

section Runs

open KeySource (Cached Discovered Current Asks asks_step asks_signingKey)

variable [UnicodeTables] {κ : Type} {settings : Settings} {jwt : PyJWT κ} {v v' : TokenVerifier κ}
  {action : VerifyAction κ} {i : ℕ} {source : KeySource κ} {keyAction : KeyAction κ}
  {token : String} {call : KeyCall} {key : κ} {lookup : Lookup} {claims : Claims}
  {principal : Principal} {p : VerifyPhase κ}

/-- A token with an acceptable header, and the current key under its key id. -/
structure Keyed (settings : Settings) (jwt : PyJWT κ) (source : KeySource κ) (token : String)
    (call : KeyCall) (key : κ) (lookup : Lookup) : Prop where
  header : ∃ header, checkHeader settings jwt token = .ok header ∧ header.kid = some call.kid
  keyId : call.kid ≠ ""
  current : Current settings.keySettings source.keySets call key lookup

def Checked (settings : Settings) (jwt : PyJWT κ) (source : KeySource κ) (i : ℕ) :
    VerifyPhase κ → Prop
  | .signing token => ∃ header, checkHeader settings jwt token = .ok header ∧
      Asks (header.kid.getD "") (source.phase i)
  | .configuring token call key lookup => Keyed settings jwt source token call key lookup
  | .verified token call key lookup claims principal =>
    Keyed settings jwt source token call key lookup ∧
      ∃ configuration now, source.configuration = some configuration ∧
        authorize settings jwt token key configuration.issuer now = .ok (claims, principal)
  | _ => True

structure Verifying (settings : Settings) (jwt : PyJWT κ) (v : TokenVerifier κ) : Prop where
  cached : Cached settings.keySettings v.source
  discovered : Discovered settings.keySettings v.source
  checked : ∀ i, Checked settings jwt v.source i (v.phase i)

theorem Verifying.initial (now : Seconds) :
    Verifying settings jwt (initial now : TokenVerifier κ) :=
  ⟨.initial now, .initial now, fun _ => trivial⟩

theorem Keyed.step (hk : Keyed settings jwt v.source token call key lookup)
    (h : KeySource.step settings.keySettings v.source keyAction = some source) :
    Keyed settings jwt source token call key lookup :=
  ⟨hk.header, hk.keyId, hk.current.step h⟩

theorem Verifying.withSource (hv : Verifying settings jwt v)
    (h : KeySource.step settings.keySettings v.source keyAction = some source) :
    Verifying settings jwt (v.withSource source) := by
  refine ⟨hv.cached.step h, hv.discovered.step h, fun i => ?_⟩
  have hc := hv.checked i
  show Checked settings jwt source i (v.phase i)
  cases hp : v.phase i with
  | signing token =>
    rw [hp] at hc
    obtain ⟨header, hh, ha⟩ := hc
    exact ⟨header, hh, asks_step ha h⟩
  | configuring token call key lookup =>
    rw [hp] at hc
    exact Keyed.step hc h
  | verified token call key lookup claims principal =>
    rw [hp] at hc
    obtain ⟨hk, configuration, now, hs, ha⟩ := hc
    exact ⟨hk.step h, configuration, now, hv.discovered.stays h hs, ha⟩
  | _ => trivial

theorem Verifying.enter (hv : Verifying settings jwt v) (hp : Checked settings jwt v.source i p) :
    Verifying settings jwt (v.enter i p) := by
  refine ⟨hv.cached, hv.discovered, ?_⟩
  apply (Function.forall_update_iff v.phase (Checked settings jwt v.source)).mpr
  exact ⟨hp, fun j _ => hv.checked j⟩

/-- The key that the key source found is current, and the one the header names. -/
theorem Verifying.keyed (hv : Verifying settings jwt v) (hp : v.phase i = .signing token)
    (hs : v.source.phase i = .found call key lookup) :
    Keyed settings jwt v.source token call key lookup := by
  have hf : call.kid ≠ "" ∧ Current settings.keySettings v.source.keySets call key lookup :=
    (hs ▸ hv.cached.trusted i : KeySource.Trusted _ v.source (.found call key lookup))
  obtain ⟨header, hh, ha⟩ := (hp ▸ hv.checked i : Checked settings jwt v.source i (.signing token))
  have hk : call.kid = header.kid.getD "" := (hs ▸ ha : Asks _ (.found call key lookup))
  refine ⟨⟨header, hh, ?_⟩, hf.1, hf.2⟩
  cases hkid : header.kid with
  | none => rw [hkid] at hk; exact absurd hk hf.1
  | some kid => rw [hkid] at hk; rw [hk]; rfl

theorem Verifying.concluded (hv : Verifying settings jwt v)
    (hp : v.phase i = .configuring token call key lookup) {configuration : OpenIDConfiguration}
    (hs : v.source.phase i = .configured configuration) (now : Seconds) :
    Checked settings jwt v.source i
      (concluded settings jwt token call key lookup configuration.issuer now) := by
  rw [TokenVerifier.concluded]
  split
  next => trivial
  next ha =>
    have hk : Keyed settings jwt v.source token call key lookup := (hp ▸ hv.checked i :
      Checked settings jwt v.source i (.configuring token call key lookup))
    have hc : v.source.configuration = some configuration :=
      (hs ▸ hv.discovered.settled i : KeySource.Settled v.source (.configured configuration))
    exact ⟨hk, configuration, now, hc, ha⟩

theorem Verifying.step (hv : Verifying settings jwt v)
    (h : TokenVerifier.step settings jwt v action = some v') : Verifying settings jwt v' := by
  cases action with
  | verify i token =>
    rw [TokenVerifier.step] at h
    split at h
    next => cases h; exact hv.enter trivial
    next header hp hh =>
      obtain ⟨source, hs, rfl⟩ := Option.map_eq_some_iff.mp h
      exact (hv.withSource hs).enter ⟨header, hh, asks_signingKey hs⟩
    next => cases h
  | keys action =>
    rw [TokenVerifier.step, Option.ite_none_right_eq_some] at h
    obtain ⟨-, h⟩ := h
    obtain ⟨source, hs, rfl⟩ := Option.map_eq_some_iff.mp h
    exact hv.withSource hs
  | signed i =>
    rw [TokenVerifier.step] at h
    split at h
    next token call key lookup hp hs =>
      obtain ⟨source, hstep, rfl⟩ := Option.map_eq_some_iff.mp h
      exact (hv.withSource hstep).enter ((hv.keyed hp hs).step hstep)
    next => cases h; exact hv.enter trivial
    next => cases h
  | decode i now =>
    rw [TokenVerifier.step] at h
    split at h
    next token call key lookup configuration hp hs =>
      cases h
      exact hv.enter (hv.concluded hp hs now)
    next => cases h; exact hv.enter trivial
    next => cases h

theorem Verifying.reach {ok : TokenVerifier κ → VerifyAction κ → Prop} {now : Seconds}
    (h : Reach (TokenVerifier.step settings jwt) ok (TokenVerifier.initial now) v) :
    Verifying settings jwt v :=
  h.invariant (.initial now) fun _ _ _ hv _ h => hv.step h

theorem keys_of_step (h : step settings jwt v action = some v') :
    (∃ i entries, action = .keys (.jwks i (.document entries)) ∧ (keysOf entries).entries ≠ []) ∨
      (v'.source.keys = v.source.keys ∧ v'.source.keysFetchedAt = v.source.keysFetchedAt) := by
  cases action with
  | verify i token =>
    rw [step] at h
    split at h
    next => cases h; exact .inr ⟨rfl, rfl⟩
    next =>
      obtain ⟨source, hs, rfl⟩ := Option.map_eq_some_iff.mp h
      refine .inr ((KeySource.keys_of_step hs).resolve_left ?_)
      rintro ⟨_, _, ⟨⟩, _⟩
    next => cases h
  | keys action =>
    rw [step, Option.ite_none_right_eq_some] at h
    obtain ⟨-, h⟩ := h
    obtain ⟨source, hs, rfl⟩ := Option.map_eq_some_iff.mp h
    refine (KeySource.keys_of_step hs).imp_left ?_
    rintro ⟨i, entries, rfl, hk⟩
    exact ⟨i, entries, rfl, hk⟩
  | signed i =>
    rw [step] at h
    split at h
    next =>
      obtain ⟨source, hs, rfl⟩ := Option.map_eq_some_iff.mp h
      refine .inr ((KeySource.keys_of_step hs).resolve_left ?_)
      rintro ⟨_, _, ⟨⟩, _⟩
    next => cases h; exact .inr ⟨rfl, rfl⟩
    next => cases h
  | decode i now =>
    rw [step] at h
    split at h
    next => cases h; exact .inr ⟨rfl, rfl⟩
    next => cases h; exact .inr ⟨rfl, rfl⟩
    next => cases h

structure Issued (settings : Settings) (jwt : PyJWT κ) (source : KeySource κ) (token : String)
    (call : KeyCall) (key : κ) (lookup : Lookup) (claims : Claims) (principal : Principal) :
    Prop where
  header : ∃ header, jwt.unverifiedHeader token = .ok header ∧
    header.alg = some (.text "RS256") ∧ header.kid = some call.kid
  keyId : call.kid ≠ ""
  current : Current settings.keySettings source.keySets call key lookup
  accepted : ∃ options now, options.key = key ∧ jwt.decode options now token = .ok claims
  /-- One document was read, and its issuer is that of the principal. -/
  issuer : ∃ document, source.documents = [document] ∧ principal.issuer =
    replace "{tenantid}" settings.entraTenantId (strip (document.issuer.getD ""))
  scope : settings.requiredScope ∈ scopesOf claims
  subject : strip principal.subject ≠ ""

theorem Verifying.issued (hv : Verifying settings jwt v) (hj : jwt.Enforces)
    (hp : v.phase i = .verified token call key lookup claims principal) :
    Issued settings jwt v.source token call key lookup claims principal := by
  obtain ⟨hk, configuration, now, hc, ha⟩ := (hp ▸ hv.checked i :
    Checked settings jwt v.source i (.verified token call key lookup claims principal))
  obtain ⟨header, hh, hkid⟩ := hk.header
  obtain ⟨hm, hu, halg⟩ := checkHeader_ok hh
  obtain ⟨hd, hpr, hscope⟩ := authorize_ok ha
  obtain ⟨hsub, hne, hiss, hsc⟩ := toPrincipal_ok hpr
  have hread := hv.discovered.once
  rw [hc] at hread
  obtain ⟨document, hdoc, hof⟩ := hread
  obtain ⟨hi, hstrip⟩ := Settings.strip_issuer hm hof
  refine ⟨⟨header, hu, halg, hkid⟩, hk.keyId, hk.current, ⟨_, now, rfl, hd⟩,
    ⟨document, hdoc, ?_⟩, ?_, ?_⟩
  · rw [hiss, claimText_of_text (hj.issuer hd) hstrip]
    exact hi
  · rw [← hsc]
    exact hscope
  · rw [hsub, claimText, strip_strip]
    rw [hsub, claimText] at hne
    exact hne

/-- Every principal rests on the key that the newest key set lists last under the key id, and a
refresh that fails leaves the cached keys alone. -/
theorem principal_on_current_key (hj : jwt.Enforces) {now : Seconds}
    (h : Reachable (step settings jwt) (initial now) v) :
    (∀ i token call key lookup claims principal,
      v.phase i = .verified token call key lookup claims principal →
        Issued settings jwt v.source token call key lookup claims principal) ∧
    ∀ action v', step settings jwt v action = some v' →
      (∃ i entries, action = .keys (.jwks i (.document entries)) ∧
        (keysOf entries).entries ≠ []) ∨
      (v'.source.keys = v.source.keys ∧ v'.source.keysFetchedAt = v.source.keysFetchedAt) :=
  ⟨fun _ _ _ _ _ _ _ hp => (Verifying.reach h).issued hj hp, fun _ _ hs => keys_of_step hs⟩

end Runs

section Library

structure SignedToken where
  header : Header
  key : String
  claims : Claims

variable [UnicodeTables]

/-- Every check that `decode` is asked for. -/
def SignedToken.passes (token : SignedToken) (options : DecodeOptions String) (now : Seconds) :
    Bool :=
  (token.key = options.key) &&
    options.algorithms.any (fun algorithm => token.header.alg.any (·.isText algorithm)) &&
    options.require.all (fun name => (token.claims.get? name).any (!·.isNull)) &&
    (token.claims.get? "aud").any
      (fun v => v.isText options.audience || v.holdsText options.audience) &&
    (token.claims.get? "iss").any (·.isText options.issuer) &&
    (token.claims.get? "exp").all (fun v => v.toInt.any fun t : ℤ => now - options.leeway < t) &&
    (token.claims.get? "nbf").all (fun v => v.toInt.any fun t : ℤ => t ≤ now + options.leeway)

def libraryOf (tokens : String → Option SignedToken) : PyJWT String where
  unverifiedHeader token :=
    match tokens token with
    | some signed => .ok signed.header
    | none => .error .pyJwt
  decode options now token :=
    match tokens token with
    | some signed => if signed.passes options now then .ok signed.claims else .error .pyJwt
    | none => .error .pyJwt

theorem decode_libraryOf {tokens : String → Option SignedToken} {options : DecodeOptions String}
    {now : Seconds} {token : String} {claims : Claims}
    (h : (libraryOf tokens).decode options now token = .ok claims) :
    ∃ signed, tokens token = some signed ∧ signed.passes options now ∧ signed.claims = claims := by
  cases ht : tokens token with
  | none => simp [libraryOf, ht] at h
  | some signed =>
    simp only [libraryOf, ht] at h
    split at h
    next hp => exact ⟨signed, rfl, hp, Except.ok.inj h⟩
    next => cases h

theorem enforces_libraryOf (tokens : String → Option SignedToken) :
    (libraryOf tokens).Enforces := by
  refine ⟨?_, ?_, ?_, ?_, ?_, ?_⟩ <;> intro options now token claims h <;>
    obtain ⟨signed, ht, hp, rfl⟩ := decode_libraryOf h <;>
    simp only [SignedToken.passes, Bool.and_eq_true, and_assoc] at hp <;>
    obtain ⟨-, halg, hreq, haud, hiss, hexp, hnbf⟩ := hp
  · simp only [List.any_eq_true, Option.any_eq_true, Json.isText_iff] at halg
    obtain ⟨algorithm, ha, v, hv, rfl⟩ := halg
    exact ⟨signed.header, by simp [libraryOf, ht], algorithm, ha, hv⟩
  · intro name hn
    have h := List.all_eq_true.mp hreq name hn
    obtain ⟨v, hv, hnull⟩ := (Option.any_eq_true ..).mp h
    exact ⟨v, hv, fun he => by simp [he, Json.isNull] at hnull⟩
  · obtain ⟨v, hv, ha⟩ := (Option.any_eq_true ..).mp haud
    refine ⟨v, hv, ?_⟩
    rwa [Bool.or_eq_true, Json.isText_iff, Json.holdsText_iff] at ha
  · obtain ⟨v, hv, hi⟩ := (Option.any_eq_true ..).mp hiss
    rw [hv, Json.isText_iff.mp hi]
  · intro v hv
    rw [hv, Option.all_some] at hexp
    obtain ⟨t, ht, hlt⟩ := (Option.any_eq_true ..).mp hexp
    exact ⟨t, ht, of_decide_eq_true hlt⟩
  · intro v hv
    rw [hv, Option.all_some] at hnbf
    obtain ⟨t, ht, hlt⟩ := (Option.any_eq_true ..).mp hnbf
    exact ⟨t, ht, of_decide_eq_true hlt⟩

end Library

section Sample

def kitchenSettings : Settings :=
  .fromEnv (fun name => if name = "REQUIRED_SCOPE" then none else some " tenant ") 3600 60 60

def kitchenToken : SignedToken where
  header := ⟨some (.text "RS256"), some "kid"⟩
  key := "key"
  claims := .ofPairs [("iss", .text "https://tenant.example"), ("aud", .text "tenant"),
    ("exp", .number (some 2000000000) "2000000000"), ("nbf", .number (some 0) "0"),
    ("sub", .text "subject"), ("scp", .text "openid inventory.readwrite")]

def kitchenLibrary [UnicodeTables] : PyJWT String :=
  libraryOf fun token => if token = "signed" then some kitchenToken else none

/-- A key set that lists a key id twice, and once more with a key that is unusable. -/
def rotatedKeys : Fetched (List (Jwk String)) :=
  .document [⟨some "kid", some "rotated"⟩, ⟨some "kid", some "key"⟩, ⟨some "kid", none⟩,
    ⟨none, none⟩]

/-- One call is verified; another waits for the lock in the meantime and is refused. -/
def twoVerifications : List (VerifyAction String) :=
  [.verify 0 "signed", .verify 1 "forged", .keys (.acquire 0), .verify 2 "signed",
    .keys (.request 0), .keys (.openId 0 KeySource.openIdDocument), .keys (.request 0),
    .keys (.jwks 0 rotatedKeys), .signed 0, .keys (.tick 5001), .decode 0 1700000000]

theorem principal_on_current_key_twoVerifications :
    letI := asciiTables
    ∃ v token call key lookup claims principal,
      exec (guarded (step kitchenSettings kitchenLibrary) unrestricted) (initial 5000)
        twoVerifications = some v ∧
      v.phase 0 = .verified token call key lookup claims principal ∧
      principal.subject = "subject" ∧
      Issued kitchenSettings kitchenLibrary v.source token call key lookup claims principal := by
  let _ := asciiTables
  have h : (exec (guarded (step kitchenSettings kitchenLibrary) unrestricted) (initial 5000)
      twoVerifications).bind (fun v => (v.phase 0).principal?.map (·.subject)) =
        some "subject" := by
    decide +kernel
  obtain ⟨v, hr, hp⟩ := Option.bind_eq_some_iff.mp h
  cases hv : v.phase 0 with
  | verified token call key lookup claims principal =>
    rw [hv] at hp
    have hi := (principal_on_current_key (enforces_libraryOf _) (Reach.of_exec hr)).1 0
      token call key lookup claims principal hv
    exact ⟨v, token, call, key, lookup, claims, principal, hr, hv, Option.some.inj hp, hi⟩
  | _ => rw [hv] at hp; cases hp

end Sample

end TokenVerifier

end KitchenSense
