import KitchenSense.Auth.Progress
import KitchenSense.Auth.Refusals

/-! # A rotated key is noticed

A token is refused for its key id only on a key set that does not list it, and
that set was asked for while the call ran or not long before. Once the provider
has published a key for as long as a request for the key set takes and the
pause between two refreshes lasts, no token that names it is refused as signed
by an unknown key.
-/

namespace KitchenSense

namespace KeySource

variable {κ : Type} {cfg : KeySettings} {s s' : KeySource κ} {action : KeyAction κ} {i : ℕ}
  {p q : KeyPhase κ} {call : KeyCall} {kid : String} {since longest : Seconds}

/-- A key set that is asked for from an instant on lists the key id, and none takes longer to arrive
than a request may take. -/
def Publishes (kid : String) (since longest : Seconds) (s : KeySource κ) : KeyAction κ → Prop
  | .jwks _ (.document entries) => ∀ attempt ∈ s.attempts.head?,
    s.clock ≤ attempt.start + longest ∧
      (since ≤ attempt.start → ((keysOf entries).get? kid).isSome)
  | _ => True

instance (kid : String) (since longest : Seconds) (s : KeySource κ) (action : KeyAction κ) :
    Decidable (Publishes kid since longest s action) :=
  match action with
  | .jwks _ (.document _) => inferInstanceAs (Decidable (∀ attempt ∈ s.attempts.head?, _))
  | .jwks _ .unreadable | .jwks _ .malformed | .tick _ | .signingKey _ _ | .acquire _
  | .request _ | .openId _ _ | .configuration _ => isTrue trivial

/-- A call that misses its key has some key set to miss it in, and one that waits for a key set has
asked for it. -/
def Consulted (s : KeySource κ) : KeyPhase κ → Prop
  | .awaitingUnknown _ => s.keySets ≠ []
  | .fetching _ _ => s.attempts ≠ []
  | _ => True

/-- The keys that were received since then list the key id. -/
structure Rotated (kid : String) (since longest : Seconds) (s : KeySource κ) : Prop where
  listed : s.keySets ≠ [] → since + longest ≤ s.keysFetchedAt → s.keys.get? kid ≠ none
  consulted : ∀ i, s.Consulted (s.phase i)

theorem Rotated.initial (now : Seconds) :
    Rotated kid since longest (initial now : KeySource κ) where
  listed h := absurd rfl h
  consulted _ := trivial

theorem Cached.keySets_ne_nil (hs : Cached cfg s) (hn : s.keys.entries ≠ []) :
    s.keySets ≠ [] := by
  rintro he
  rcases hs.newest with ⟨-, hk⟩ | ⟨set, hset, -⟩
  · rw [hk] at hn
    exact hn rfl
  · rw [he] at hset
    cases hset

theorem consulted_lookUp (call : KeyCall) (h : s.Consulted p) : s.Consulted (s.lookUp call p) := by
  unfold lookUp
  split
  · trivial
  · exact h

theorem Consulted.mono {t : KeySource κ} (h : s.Consulted q)
    (hsets : s.keySets ≠ [] → t.keySets ≠ []) (hattempts : s.attempts ≠ [] → t.attempts ≠ []) :
    t.Consulted q := by
  cases q with
  | awaitingUnknown => exact hsets h
  | fetching => exact hattempts h
  | _ => trivial

theorem Rotated.move {t : KeySource κ} (hs : Rotated kid since longest s) (hp : t.Consulted p)
    (hphase : t.phase = Function.update s.phase i p) (hsets : t.keySets = s.keySets)
    (hkeys : t.keys = s.keys) (hat : t.keysFetchedAt = s.keysFetchedAt)
    (hattempts : s.attempts ≠ [] → t.attempts ≠ []) : Rotated kid since longest t := by
  constructor
  · rw [hsets, hkeys, hat]
    exact hs.listed
  · rw [hphase, Function.forall_update_iff s.phase fun _ => t.Consulted]
    exact ⟨hp, fun j _ => (hs.consulted j).mono (hsets ▸ id) hattempts⟩

theorem Rotated.install {entries : List (Jwk κ)} (hs : Rotated kid since longest s)
    (hok : Publishes kid since longest s (.jwks i (.document entries))) (hne : s.attempts ≠ []) :
    Rotated kid since longest (s.install entries) := by
  have hsets : (s.install entries).keySets ≠ [] := by simp [KeySource.install]
  refine ⟨fun _ hat => ?_, fun j => (hs.consulted j).mono (fun _ => hsets) id⟩
  obtain ⟨attempt, hattempt⟩ := Option.ne_none_iff_exists'.mp (mt List.head?_eq_none_iff.mp hne)
  obtain ⟨hle, hlisted⟩ := hok attempt hattempt
  have hat : since + longest ≤ s.clock := hat
  exact Option.isSome_iff_ne_none.mp (hlisted (by linarith))

theorem Rotated.step (hs : Rotated kid since longest s) (hc : Cached cfg s)
    (hok : Publishes kid since longest s action) (h : KeySource.step cfg s action = some s') :
    Rotated kid since longest s' := by
  cases moves_of_step h with
  | tick hn => exact ⟨hs.listed, fun j => (hs.consulted j).mono id id⟩
  | answer hi ha => exact hs.move (by cases ha <;> trivial) rfl rfl rfl rfl id
  | wait hk hp => exact hs.move (p := .awaitingCached _) trivial rfl rfl rfl rfl id
  | @read _ i call hp hn he =>
    have hread := consulted_lookUp (p := .awaitingUnknown call) call (hc.keySets_ne_nil hn)
    exact hs.move (hread.mono id id) rfl rfl rfl rfl id
  | reread hp hk => exact hs.move (p := .found ..) trivial rfl rfl rfl rfl id
  | refreshExpired hl hp he => exact hs.move (p := .refreshing ..) trivial rfl rfl rfl rfl id
  | refreshUnknown hl hp ht => exact hs.move (p := .refreshing ..) trivial rfl rfl rfl rfl id
  | discover hl hp hc =>
    exact hs.move (p := .discoveringConfiguration) trivial rfl rfl rfl rfl id
  | requestOpenId hp hc => exact hs.move (p := .discovering ..) trivial rfl rfl rfl rfl id
  | requestJwks hp hc =>
    exact hs.move (p := .fetching ..) (List.cons_ne_nil _ _) rfl rfl rfl rfl
      fun _ => List.cons_ne_nil _ _
  | configure hp hd => exact hs.move (p := .refreshing ..) trivial rfl rfl rfl rfl id
  | configureAlone hp hd => exact hs.move (p := .configured _) trivial rfl rfl rfl rfl id
  | openIdFailed hi hf => exact hs.move (p := .refused _) trivial rfl rfl rfl rfl id
  | @install i reason call entries hp hk =>
    have hne : s.attempts ≠ [] := (hp ▸ hs.consulted i : s.Consulted (.fetching reason call))
    have hmissing : (s.install entries).Consulted (missingAfter reason call) := by
      cases reason
      · show (s.install entries).keySets ≠ []
        simp [KeySource.install]
      · trivial
    have hread := consulted_lookUp call hmissing
    exact (hs.install hok hne).move (hread.mono id id) rfl rfl rfl rfl id
  | jwksFailed hp hf =>
    refine hs.move (p := .refused _) trivial rfl rfl rfl rfl fun hne => ?_
    show s.markFailed.attempts ≠ []
    rw [markFailed]
    simpa using hne

section Refused

def Asked (since : Seconds) (s : KeySource κ) : Prop :=
  ∃ attempt ∈ s.attempts.head?, since ≤ attempt.start

theorem asked_recordAttempt (h : since ≤ s.clock) : Asked since s.recordAttempt :=
  ⟨_, rfl, h⟩

theorem Asked.step (ha : Asked since s) (hc : since ≤ s.clock)
    (h : KeySource.step cfg s action = some s') : Asked since s' := by
  cases moves_of_step h with
  | requestJwks hp hd => exact asked_recordAttempt hc
  | jwksFailed hp hf =>
    obtain ⟨attempt, hattempt, hle⟩ := ha
    refine ⟨{ attempt with failed := true }, ?_, hle⟩
    show _ ∈ s.markFailed.attempts.head?
    rw [head?_markFailed]
    exact Option.map_eq_some_iff.mpr ⟨attempt, hattempt, rfl⟩
  | _ => exact ha

/-- A call that asks for a published key and is not refused for it. -/
structure Expecting (kid : String) (since : Seconds) (s : KeySource κ) (p : KeyPhase κ) :
    Prop where
  asks : Asks kid p
  known : p ≠ .refused .unknownKey
  asked : IsFetching p → Asked since s

theorem Expecting.of_not_fetching (ha : Asks kid p) (hn : p ≠ .refused .unknownKey)
    (hf : ¬ IsFetching p) : Expecting kid since s p :=
  ⟨ha, hn, fun h => absurd h hf⟩

theorem expecting_refused {e : AuthError} (he : e ≠ .unknownKey) :
    Expecting kid since s (.refused e) :=
  .of_not_fetching trivial (fun h => he (KeyPhase.refused.inj h)) id

theorem Expecting.lookUp {t : KeySource κ} {missing : KeyPhase κ} (hk : call.kid = kid)
    (h : s.keys.get? kid = none → Expecting kid since t missing) :
    Expecting kid since t (s.lookUp call missing) := by
  unfold KeySource.lookUp
  split
  next => exact .of_not_fetching hk (by simp) id
  next hn => exact h (hk ▸ hn)

theorem discovered_ne_unknownKey {tenantId : String} {fetched : Fetched OpenIDDocument} :
    discovered tenantId fetched ≠ .error .unknownKey := by
  cases fetched with
  | document document =>
    rw [discovered, OpenIDConfiguration.ofDocument]
    split <;> simp [Except.map]
  | unreadable => simp [discovered]
  | malformed => simp [discovered]

theorem refreshed_ne_unknownKey {fetched : Fetched (List (Jwk κ))} :
    refreshed fetched ≠ .error .unknownKey := by
  cases fetched with
  | document entries =>
    rw [refreshed]
    split <;> simp
  | unreadable => simp [refreshed]
  | malformed => simp [refreshed]

/-- The key is published, and has been for as long as a request takes and the pause between two
refreshes lasts. -/
structure Noticed (cfg : KeySettings) (kid : String) (since longest : Seconds) (s : KeySource κ) :
    Prop where
  cached : Cached cfg s
  rotated : Rotated kid since longest s
  published : since ≤ s.clock
  paused : since + longest + cfg.minRefreshSeconds ≤ s.clock

theorem clock_le_of_step (h : KeySource.step cfg s action = some s') : s.clock ≤ s'.clock := by
  cases moves_of_step h with
  | tick hn => exact hn
  | _ => exact le_rfl

theorem Noticed.step (hs : Noticed cfg kid since longest s)
    (hok : Publishes kid since longest s action)
    (h : KeySource.step cfg s action = some s') : Noticed cfg kid since longest s' where
  cached := hs.cached.step h
  rotated := hs.rotated.step hs.cached hok h
  published := hs.published.trans (clock_le_of_step h)
  paused := hs.paused.trans (clock_le_of_step h)

/-- A call that missed its key is not refused without another refresh: the keys are older than the
pause, or list the key. -/
theorem Noticed.not_too_soon (hs : Noticed cfg kid since longest s)
    (hi : s.phase i = .awaitingUnknown call)
    (hn : s.keys.get? kid = none) : ¬ s.clock - s.keysFetchedAt < cfg.minRefreshSeconds := by
  have hsets : s.keySets ≠ [] := (hi ▸ hs.rotated.consulted i : s.Consulted (.awaitingUnknown call))
  have hlt : s.keysFetchedAt < since + longest := by
    by_contra hle
    exact hs.rotated.listed hsets (not_lt.mp hle) hn
  have := hs.paused
  linarith

theorem Noticed.expecting_acquire (hs : Noticed cfg kid since longest s)
    (hi : Expecting kid since s (s.phase i)) (h : KeySource.step cfg s (.acquire i) = some s') :
    Expecting kid since s' (s'.phase i) := by
  have hasks := hi.asks
  rw [KeySource.step, Option.ite_none_left_eq_some] at h
  obtain ⟨-, h⟩ := h
  cases hp : s.phase i with
  | awaitingCached call =>
    rw [hp] at h hasks
    dsimp only at h
    split at h
    next =>
      cases h
      rw [KeySource.take, enter_phase, Function.update_self]
      exact .of_not_fetching hasks (by simp) id
    next =>
      cases h
      rw [enter_phase, Function.update_self]
      exact .lookUp hasks fun _ => .of_not_fetching hasks (by simp) id
  | awaitingUnknown call =>
    rw [hp] at h hasks
    dsimp only at h
    split at h
    next =>
      cases h
      rw [enter_phase, Function.update_self]
      exact .of_not_fetching hasks (by simp) id
    next hn =>
      rw [if_neg (hs.not_too_soon hp (hasks ▸ hn))] at h
      cases h
      rw [KeySource.take, enter_phase, Function.update_self]
      exact .of_not_fetching hasks (by simp) id
  | awaitingConfiguration =>
    rw [hp] at h
    dsimp only at h
    split at h
    next =>
      cases h
      rw [enter_phase, Function.update_self]
      exact .of_not_fetching trivial (by simp) id
    next =>
      cases h
      rw [KeySource.take, enter_phase, Function.update_self]
      exact .of_not_fetching trivial (by simp) id
  | _ => rw [hp] at h; cases h

/-- A call that missed its key has asked for the key set since, and finds the key in it. -/
theorem expecting_jwks {fetched : Fetched (List (Jwk κ))}
    (hok : Publishes kid since longest s (.jwks i fetched))
    (hi : Expecting kid since s (s.phase i))
    (h : KeySource.step cfg s (.jwks i fetched) = some s') :
    Expecting kid since s' (s'.phase i) := by
  have hasks := hi.asks
  rw [KeySource.step] at h
  split at h
  next reason call entries hp hr =>
    obtain ⟨rfl, -⟩ := eq_document_of_refreshed hr
    obtain ⟨attempt, hattempt, hle⟩ := hi.asked (by rw [hp]; trivial)
    have hlisted := Option.isSome_iff_ne_none.mp ((hok attempt hattempt).2 hle)
    rw [hp] at hasks
    cases h
    rw [leave, enter_phase, Function.update_self]
    exact .lookUp hasks fun hn => absurd hn hlisted
  next reason call e hp hr =>
    cases h
    rw [leave, enter_phase, Function.update_self]
    refine expecting_refused ?_
    rintro rfl
    exact refreshed_ne_unknownKey hr
  next => cases h

theorem expecting_openId {fetched : Fetched OpenIDDocument} (hi : Expecting kid since s (s.phase i))
    (h : KeySource.step cfg s (.openId i fetched) = some s') :
    Expecting kid since s' (s'.phase i) := by
  have hasks := hi.asks
  rw [KeySource.step] at h
  split at h
  next reason call document configuration hp _ =>
    rw [hp] at hasks
    cases h
    rw [enter_phase, Function.update_self]
    exact .of_not_fetching hasks (by simp) id
  next =>
    cases h
    rw [leave, enter_phase, Function.update_self]
    exact .of_not_fetching trivial (by simp) id
  next reason call e hp hd =>
    cases h
    rw [leave, enter_phase, Function.update_self]
    refine expecting_refused ?_
    rintro rfl
    exact discovered_ne_unknownKey hd
  next e hp hd =>
    cases h
    rw [leave, enter_phase, Function.update_self]
    refine expecting_refused ?_
    rintro rfl
    exact discovered_ne_unknownKey hd
  next => cases h

theorem Noticed.expecting_request (hs : Noticed cfg kid since longest s)
    (hi : Expecting kid since s (s.phase i)) (h : KeySource.step cfg s (.request i) = some s') :
    Expecting kid since s' (s'.phase i) := by
  have hasks := hi.asks
  rw [KeySource.step] at h
  cases hp : s.phase i with
  | refreshing reason call =>
    rw [hp] at h hasks
    dsimp only at h
    split at h
    next =>
      cases h
      rw [enter_phase, Function.update_self]
      exact .of_not_fetching hasks (by simp) id
    next =>
      cases h
      rw [enter_phase, Function.update_self]
      exact ⟨hasks, by simp, fun _ => asked_recordAttempt hs.published⟩
  | _ => rw [hp] at h; cases h

theorem Expecting.step_of_ne (hi : Expecting kid since s (s.phase i)) (hc : since ≤ s.clock)
    {j : ℕ} (hphase : s'.phase = Function.update s.phase j p) (hj : j ≠ i)
    (h : KeySource.step cfg s action = some s') : Expecting kid since s' (s'.phase i) := by
  rw [hphase, Function.update_of_ne hj.symm]
  exact ⟨hi.asks, hi.known, fun hf => (hi.asked hf).step hc h⟩

theorem Noticed.expecting_step (hs : Noticed cfg kid since longest s)
    (hok : Publishes kid since longest s action) (ha : action.Continues)
    (hi : Expecting kid since s (s.phase i)) (h : KeySource.step cfg s action = some s') :
    Expecting kid since s' (s'.phase i) := by
  cases action with
  | tick now =>
    rw [KeySource.step, Option.ite_none_right_eq_some] at h
    obtain ⟨-, ⟨⟩⟩ := h
    exact ⟨hi.asks, hi.known, hi.asked⟩
  | signingKey | configuration => exact ha.elim
  | acquire j =>
    by_cases hj : j = i
    · subst hj
      exact hs.expecting_acquire hi h
    · obtain ⟨p, hd⟩ := descends_of_acquire h
      exact hi.step_of_ne hs.published hd.phase hj h
  | request j =>
    by_cases hj : j = i
    · subst hj
      exact hs.expecting_request hi h
    · obtain ⟨p, hd⟩ := descends_of_request h
      exact hi.step_of_ne hs.published hd.phase hj h
  | openId j fetched =>
    by_cases hj : j = i
    · subst hj
      exact expecting_openId hi h
    · obtain ⟨p, hd⟩ := descends_of_openId h
      exact hi.step_of_ne hs.published hd.phase hj h
  | jwks j fetched =>
    by_cases hj : j = i
    · subst hj
      exact expecting_jwks hok hi h
    · obtain ⟨p, hd⟩ := descends_of_jwks h
      exact hi.step_of_ne hs.published hd.phase hj h

theorem expecting_signingKey (hkid : kid ≠ "")
    (h : KeySource.step cfg s (.signingKey i kid) = some s') :
    Expecting kid since s' (s'.phase i) := by
  rw [KeySource.step] at h
  split at h
  next =>
    dsimp only at h
    rw [if_neg hkid] at h
    split at h
    next =>
      cases h
      rw [enter_phase, Function.update_self]
      exact .lookUp rfl fun _ => .of_not_fetching rfl (by simp) id
    next => cases h; rw [enter_phase, Function.update_self]; exact .of_not_fetching rfl (by simp) id
  next => cases h

theorem expecting_configuration (h : KeySource.step cfg s (.configuration i) = some s') :
    Expecting kid since s' (s'.phase i) := by
  rcases configuration_cases h with ⟨configuration, rfl⟩ | rfl
  · rw [enter_phase, Function.update_self]
    exact .of_not_fetching trivial (by simp) id
  · rw [enter_phase, Function.update_self]
    exact .of_not_fetching trivial (by simp) id

end Refused

end KeySource

def VerifyPhase.error? {κ : Type} : VerifyPhase κ → Option AuthError
  | .refused e => some e
  | _ => none

namespace TokenVerifier

open KeySource (Rotated Noticed Expecting Cached)

section Rotation

variable {κ : Type} {kid : String} {since longest : Seconds}

/-- A key set that is asked for from an instant on lists the key id, and none takes longer to arrive
than a request may take. -/
def Publishes (kid : String) (since longest : Seconds) (v : TokenVerifier κ) :
    VerifyAction κ → Prop
  | .keys action => KeySource.Publishes kid since longest v.source action
  | _ => True

instance (kid : String) (since longest : Seconds) (v : TokenVerifier κ) (action : VerifyAction κ) :
    Decidable (Publishes kid since longest v action) :=
  match action with
  | .keys action =>
    inferInstanceAs (Decidable (KeySource.Publishes kid since longest v.source action))
  | .verify _ _ | .signed _ | .decode _ _ => isTrue trivial

variable {settings : Settings} {v v' : TokenVerifier κ} {action : VerifyAction κ} {i : ℕ}

def Welcome (kid : String) (since : Seconds) (source : KeySource κ) (i : ℕ) :
    VerifyPhase κ → Prop
  | .idle => False
  | .signing _ | .configuring _ _ _ _ => Expecting kid since source (source.phase i)
  | .verified _ _ _ _ _ _ => True
  | .refused e => e ≠ .unknownKey

/-- What holds of a verification that begins when the key has been published for long enough. -/
structure Welcomed (settings : Settings) (kid : String) (since longest : Seconds) (i : ℕ)
    (v : TokenVerifier κ) : Prop where
  noticed : Noticed settings.keySettings kid since longest v.source
  welcome : Welcome kid since v.source i (v.phase i)

theorem Welcomed.ne_refused (hv : Welcomed settings kid since longest i v) :
    v.phase i ≠ .refused .unknownKey := by
  intro hp
  have hw := hv.welcome
  rw [hp] at hw
  exact hw rfl

theorem Welcomed.of_source (hv : Welcomed settings kid since longest i v) {source : KeySource κ}
    (hs : Noticed settings.keySettings kid since longest source)
    (he : Expecting kid since v.source (v.source.phase i) →
      Expecting kid since source (source.phase i)) :
    Welcomed settings kid since longest i (v.withSource source) := by
  refine ⟨hs, ?_⟩
  have hw := hv.welcome
  show Welcome kid since source i (v.phase i)
  cases hp : v.phase i with
  | signing | configuring => rw [hp] at hw; exact he hw
  | idle => rw [hp] at hw; exact hw
  | verified => trivial
  | refused e => rw [hp] at hw; exact hw

theorem Welcomed.enter (hv : Welcomed settings kid since longest i v) {j : ℕ} {p : VerifyPhase κ}
    (hp : j = i → Welcome kid since v.source i p) :
    Welcomed settings kid since longest i (v.enter j p) := by
  refine ⟨hv.noticed, ?_⟩
  show Welcome kid since v.source i (Function.update v.phase j p i)
  by_cases hj : j = i
  · rw [hj, Function.update_self]
    exact hp hj
  · rw [Function.update_of_ne (Ne.symm hj)]
    exact hv.welcome

variable [UnicodeTables] {jwt : PyJWT κ} {token : String}

theorem toPrincipal_ne_unknownKey {claims : Claims} :
    toPrincipal settings claims ≠ .error .unknownKey := by
  rw [toPrincipal]
  split
  · simp
  · split <;> simp

theorem authorize_ne_unknownKey {key : κ} {issuer : String} {now : Seconds} :
    authorize settings jwt token key issuer now ≠ .error .unknownKey := by
  rw [authorize]
  split
  next => simp
  next => simp
  next claims _ =>
    cases hp : toPrincipal settings claims with
    | error e =>
      have hne : e ≠ .unknownKey := fun he => toPrincipal_ne_unknownKey (he ▸ hp)
      simpa [Except.bind] using hne
    | ok principal =>
      rw [Except.bind, requireScope]
      split <;> simp [Except.map]

theorem welcome_concluded {call : KeyCall} {key : κ} {lookup : Lookup} {issuer : String}
    {now : Seconds} {source : KeySource κ} :
    Welcome kid since source i (concluded settings jwt token call key lookup issuer now) := by
  unfold concluded
  split
  next e he =>
    rintro rfl
    exact authorize_ne_unknownKey he
  next => trivial

theorem Welcomed.step_signed (hv : Welcomed settings kid since longest i v) {j : ℕ}
    (h : TokenVerifier.step settings jwt v (.signed j) = some v') :
    Welcomed settings kid since longest i v' := by
  have hw := hv.welcome
  rw [TokenVerifier.step] at h
  split at h
  next token call key lookup hp hs =>
    obtain ⟨source, hstep, rfl⟩ := Option.map_eq_some_iff.mp h
    have hok : KeySource.Publishes kid since longest v.source (.configuration j) := trivial
    have hnoticed := hv.noticed.step hok hstep
    have hexpecting : Expecting kid since v.source (v.source.phase i) →
        Expecting kid since source (source.phase i) := by
      intro he
      by_cases hj : j = i
      · subst hj
        exact KeySource.expecting_configuration hstep
      · obtain ⟨q, hq, -⟩ := KeySource.forConfiguration_of_configuration hstep
        exact he.step_of_ne hv.noticed.published hq hj hstep
    refine (hv.of_source hnoticed hexpecting).enter fun hj => ?_
    rw [hj] at hp
    rw [hp] at hw
    exact hexpecting hw
  next token e hp hs =>
    cases h
    refine hv.enter fun hj => ?_
    rw [hj] at hp hs
    rw [hp] at hw
    rintro rfl
    exact Expecting.known hw hs
  next => cases h

theorem Welcomed.step (hv : Welcomed settings kid since longest i v)
    (hok : Publishes kid since longest v action)
    (h : TokenVerifier.step settings jwt v action = some v') :
    Welcomed settings kid since longest i v' := by
  have hw := hv.welcome
  cases action with
  | verify j token =>
    have hj : v.phase j = .idle → j ≠ i := by
      rintro hp rfl
      rw [hp] at hw
      exact hw
    rw [TokenVerifier.step] at h
    split at h
    next hp _ => cases h; exact hv.enter fun he => absurd he (hj hp)
    next header hp _ =>
      obtain ⟨source, hs, rfl⟩ := Option.map_eq_some_iff.mp h
      obtain ⟨q, hq, -⟩ := KeySource.forKey_of_signingKey hs
      have hok : KeySource.Publishes kid since longest v.source
          (.signingKey j (header.kid.getD "")) := trivial
      have hexpecting : Expecting kid since v.source (v.source.phase i) →
          Expecting kid since source (source.phase i) :=
        fun he => he.step_of_ne hv.noticed.published hq (hj hp) hs
      exact (hv.of_source (hv.noticed.step hok hs) hexpecting).enter fun he => absurd he (hj hp)
    next => cases h
  | keys keyAction =>
    rw [TokenVerifier.step, Option.ite_none_right_eq_some] at h
    obtain ⟨hc, h⟩ := h
    obtain ⟨source, hs, rfl⟩ := Option.map_eq_some_iff.mp h
    exact hv.of_source (hv.noticed.step hok hs)
      fun he => hv.noticed.expecting_step hok hc he hs
  | signed j => exact hv.step_signed h
  | decode j now =>
    rw [TokenVerifier.step] at h
    split at h
    next => cases h; exact hv.enter fun _ => welcome_concluded
    next token call key lookup e hp hs =>
      cases h
      refine hv.enter fun hj => ?_
      rw [hj] at hp hs
      rw [hp] at hw
      rintro rfl
      exact Expecting.known hw hs
    next => cases h

theorem rotated_of_reach {now : Seconds}
    (h : Reach (step settings jwt) (Publishes kid since longest) (initial now) v) :
    Cached settings.keySettings v.source ∧ Rotated kid since longest v.source := by
  refine h.invariant
    (I := fun v => Cached settings.keySettings v.source ∧ Rotated kid since longest v.source)
    ⟨.initial now, .initial now⟩ ?_
  rintro v action v' ⟨hc, hr⟩ hok hstep
  rcases source_of_step hstep with hs | ⟨keyAction, hkeys, hs⟩
  · rw [hs]
    exact ⟨hc, hr⟩
  · have hpublishes : KeySource.Publishes kid since longest v.source keyAction := by
      cases keyAction with
      | signingKey | configuration => trivial
      | _ =>
        rw [hkeys trivial] at hok
        exact hok
    exact ⟨hc.step hs, hr.step hc hpublishes hs⟩

/-- Once a key has been published for as long as a request for the key set takes and the pause
between two refreshes lasts, no verification of a token that names it is refused as signed by an
unknown key, however the calls interleave. -/
theorem rotation_noticed {v₀ v₁ : TokenVerifier κ} {now : Seconds} {header : Header}
    (h₀ : Reach (step settings jwt) (Publishes kid since longest) (initial now) v₀)
    (hsince : since ≤ v₀.source.clock)
    (hpause : since + longest + settings.jwksMinRefreshSeconds ≤ v₀.source.clock)
    (hh : checkHeader settings jwt token = .ok header) (hkid : header.kid = some kid)
    (hne : kid ≠ "") (hv : step settings jwt v₀ (.verify i token) = some v₁)
    (h : Reach (step settings jwt) (Publishes kid since longest) v₁ v) :
    v.phase i ≠ .refused .unknownKey := by
  obtain ⟨hc, hr⟩ := rotated_of_reach h₀
  have hnoticed : Noticed settings.keySettings kid since longest v₀.source :=
    ⟨hc, hr, hsince, hpause⟩
  have hbegun : Welcomed settings kid since longest i v₁ := by
    rw [step, hh] at hv
    split at hv
    next he => cases he
    next he =>
      cases he
      obtain ⟨source, hs, rfl⟩ := Option.map_eq_some_iff.mp hv
      rw [hkid, Option.getD_some] at hs
      have hok : KeySource.Publishes kid since longest v₀.source (.signingKey i kid) := trivial
      refine ⟨hnoticed.step hok hs, ?_⟩
      show Welcome kid since source i (Function.update v₀.phase i _ i)
      rw [Function.update_self]
      exact KeySource.expecting_signingKey hne hs
    next => cases hv
  exact (h.invariant hbegun fun _ _ _ hw hok hstep => hw.step hok hstep).ne_refused

end Rotation

section Sample

def retiredKeys : Fetched (List (Jwk String)) := .document [⟨some "retired", some "key"⟩]

/-- A key set that was asked for a second before the rotation arrives after it, and a token is
refused on it; a minute passes. -/
def beforeRotation : List (VerifyAction String) :=
  [.verify 1 "signed", .keys (.acquire 1), .keys (.request 1),
    .keys (.openId 1 KeySource.openIdDocument), .keys (.tick 5999), .keys (.request 1),
    .keys (.tick 6005), .keys (.jwks 1 retiredKeys), .keys (.acquire 1), .signed 1,
    .keys (.tick 6070)]

def afterRotation : List (VerifyAction String) :=
  [.keys (.acquire 0), .keys (.request 0), .keys (.jwks 0 rotatedKeys), .signed 0,
    .decode 0 1700000000]

theorem rotation_noticed_afterRotation :
    letI := asciiTables
    ∃ v₀ v₁ v,
      exec (guarded (step kitchenSettings kitchenLibrary) (Publishes "kid" 6000 10)) (initial 5000)
        beforeRotation = some v₀ ∧
      step kitchenSettings kitchenLibrary v₀ (.verify 0 "signed") = some v₁ ∧
      exec (guarded (step kitchenSettings kitchenLibrary) (Publishes "kid" 6000 10)) v₁
        afterRotation = some v ∧
      (v₀.phase 1).error? = some .unknownKey ∧
      (v.phase 0).principal?.map (·.subject) = some "subject" ∧
      v.phase 0 ≠ .refused .unknownKey := by
  let _ := asciiTables
  have h : ((exec (guarded (step kitchenSettings kitchenLibrary) (Publishes "kid" 6000 10))
      (initial 5000) beforeRotation).bind fun v₀ =>
      (step kitchenSettings kitchenLibrary v₀ (.verify 0 "signed")).bind fun v₁ =>
      (exec (guarded (step kitchenSettings kitchenLibrary) (Publishes "kid" 6000 10)) v₁
        afterRotation).map fun v => ((v₀.phase 1).error?, v₀.source.clock,
          (v.phase 0).principal?.map (·.subject))) =
      some (some .unknownKey, 6070, some "subject") := by
    decide +kernel
  obtain ⟨v₀, hr₀, h⟩ := Option.bind_eq_some_iff.mp h
  obtain ⟨v₁, hv, h⟩ := Option.bind_eq_some_iff.mp h
  obtain ⟨v, hr, hp⟩ := Option.map_eq_some_iff.mp h
  simp only [Prod.mk.injEq] at hp
  obtain ⟨he, hclock, hs⟩ := hp
  have hkid : (checkHeader kitchenSettings kitchenLibrary "signed").toOption.bind (·.kid) =
      some "kid" := by
    decide +kernel
  cases hh : checkHeader kitchenSettings kitchenLibrary "signed" with
  | error e => rw [hh] at hkid; cases hkid
  | ok header =>
    rw [hh] at hkid
    refine ⟨v₀, v₁, v, hr₀, hv, hr, he, hs, ?_⟩
    exact rotation_noticed (Reach.of_exec hr₀) (by rw [hclock]; decide +kernel)
      (by rw [hclock]; decide +kernel) hh hkid (by decide) hv (Reach.of_exec hr)

end Sample

end TokenVerifier

end KitchenSense
