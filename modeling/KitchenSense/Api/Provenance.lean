import KitchenSense.Api.Security
import KitchenSense.Api.UploadService

/-! # From an answer back to a published key

A service has its requests authenticated by the calls of one token verifier.
However the calls of the verifier and the statements of the service interleave,
whatever is given away, shown or recorded rests on a token that was signed with
a key of the provider, and belongs to the household of that token.
-/

namespace KitchenSense

/-- The steps of a service, and the request that a step authenticates. -/
structure Service (σ β : Type) where
  step : σ → β → Option σ
  authenticates : β → Option ℕ

/-- A token verifier, and the service whose requests it authenticates. -/
structure Application (κ σ : Type) where
  verifier : TokenVerifier κ
  service : σ

inductive ApplicationAction (κ β : Type)
  | verify (action : VerifyAction κ)
  | serve (action : β)

namespace Application

variable {κ σ β : Type}

/-- A call of `verify` is for the token of its request. -/
def presents (callers : ℕ → Caller) : VerifyAction κ → Bool
  | .verify i token => (callers i).credentials = some token
  | .keys _ | .signed _ | .decode _ _ => true

/-- `get_principal` has what it reads of the verifier: nothing without a configuration or a token,
and else what the call of `verify` has ended with. -/
def answered (settings : Settings) (caller : Caller) (phase : VerifyPhase κ) : Bool :=
  settings.missing ≠ [] ∨ caller.credentials.getD "" = "" ∨ phase.result? = some caller.verified

variable [UnicodeTables] (settings : Settings) (jwt : PyJWT κ) (callers : ℕ → Caller)
  (service : Service σ β)

def step (s : Application κ σ) : ApplicationAction κ β → Option (Application κ σ)
  | .verify action =>
    if presents callers action then
      (TokenVerifier.step settings jwt s.verifier action).map fun verifier => { s with verifier }
    else none
  | .serve action =>
    if (service.authenticates action).all fun i =>
        answered settings (callers i) (s.verifier.phase i) then
      (service.step s.service action).map fun service => { s with service }
    else none

def initial (now : Seconds) (service : σ) : Application κ σ := ⟨.initial now, service⟩

section Projections

variable {settings jwt callers service} {s s' : Application κ σ} {now : Seconds} {first : σ}

theorem verifier_reachable
    (h : Reachable (step settings jwt callers service) (initial now first) s) :
    Reachable (TokenVerifier.step settings jwt) (.initial now) s.verifier := by
  refine h.invariant (I := fun s => Reachable (TokenVerifier.step settings jwt)
    (.initial now) s.verifier) .refl ?_
  rintro s₁ action s₂ hs - hstep
  cases action with
  | verify action =>
    rw [step, Option.ite_none_right_eq_some] at hstep
    obtain ⟨verifier, hv, rfl⟩ := Option.map_eq_some_iff.mp hstep.2
    exact hs.tail trivial hv
  | serve action =>
    rw [step, Option.ite_none_right_eq_some] at hstep
    obtain ⟨x, -, rfl⟩ := Option.map_eq_some_iff.mp hstep.2
    exact hs

theorem service_reachable
    (h : Reachable (step settings jwt callers service) (initial now first) s) :
    Reachable service.step first s.service := by
  refine h.invariant (I := fun s => Reachable service.step first s.service) .refl ?_
  rintro s₁ action s₂ hs - hstep
  cases action with
  | verify action =>
    rw [step, Option.ite_none_right_eq_some] at hstep
    obtain ⟨verifier, -, rfl⟩ := Option.map_eq_some_iff.mp hstep.2
    exact hs
  | serve action =>
    rw [step, Option.ite_none_right_eq_some] at hstep
    obtain ⟨x, hx, rfl⟩ := Option.map_eq_some_iff.mp hstep.2
    exact hs.tail trivial hx

end Projections

section Tokens

variable {settings jwt callers service} {s s' : Application κ σ} {now : Seconds} {first : σ}
  {v v' : TokenVerifier κ} {action : VerifyAction κ}

def token? : VerifyPhase κ → Option String
  | .signing token | .configuring token _ _ _ | .verified token _ _ _ _ _ => some token
  | .idle | .refused _ => none

def Presented (callers : ℕ → Caller) (v : TokenVerifier κ) : Prop :=
  ∀ i token, token? (v.phase i) = some token → (callers i).credentials = some token

theorem token?_concluded {token : String} {call : KeyCall} {key : κ} {lookup : Lookup}
    {issuer : String} {at_ : Seconds} {t : String}
    (h : token? (TokenVerifier.concluded settings jwt token call key lookup issuer at_) = some t) :
    t = token := by
  unfold TokenVerifier.concluded at h
  split at h
  next => cases h
  next => exact (Option.some.inj h).symm

theorem Presented.step (hv : Presented callers v) (ha : presents callers action)
    (h : TokenVerifier.step settings jwt v action = some v') : Presented callers v' := by
  rcases TokenVerifier.advances_of_step h with ⟨-, hp⟩ | ⟨i, p, hadv, hp⟩
  · rw [Presented, hp]
    exact hv
  · rw [Presented, hp]
    apply (Function.forall_update_iff v.phase fun j p =>
      ∀ token, token? p = some token → (callers j).credentials = some token).mpr
    refine ⟨?_, fun j _ => hv j⟩
    intro t ht
    cases hadv with
    | rejected | unsigned | unconfigured => cases ht
    | accepted hidle hh =>
      cases ht
      exact of_decide_eq_true ha
    | signed hsigning hs =>
      cases ht
      exact hv i _ (by rw [hsigning]; rfl)
    | decoded hconf hs =>
      rw [token?_concluded ht]
      exact hv i _ (by rw [hconf]; rfl)

theorem phase_of_ended {i : ℕ} (hp : ((v.phase i).result?).isSome)
    (h : TokenVerifier.step settings jwt v action = some v') : v'.phase i = v.phase i := by
  rcases TokenVerifier.advances_of_step h with ⟨-, hphase⟩ | ⟨j, p, hadv, hphase⟩
  · rw [hphase]
  · have hne : i ≠ j := by
      rintro rfl
      cases hadv with
      | rejected hj | accepted hj | signed hj | unsigned hj | decoded hj | unconfigured hj =>
        rw [hj] at hp
        cases hp
    rw [hphase, Function.update_of_ne hne]

theorem answered_of_step {caller : Caller} {i : ℕ}
    (hs : answered settings caller (v.phase i))
    (h : TokenVerifier.step settings jwt v action = some v') :
    answered settings caller (v'.phase i) := by
  rw [answered, decide_eq_true_eq] at hs ⊢
  refine hs.imp_right (Or.imp_right ?_)
  intro hr
  rw [phase_of_ended (by rw [hr]; rfl) h]
  exact hr

end Tokens

/-- A principal was made for a request, of the claims of its own token. -/
def Backed (settings : Settings) (jwt : PyJWT κ) (v : TokenVerifier κ) (i : ℕ) (caller : Caller)
    (principal : Principal) : Prop :=
  ∃ token call key lookup claims, caller.credentials = some token ∧
    v.phase i = .verified token call key lookup claims principal ∧
    TokenVerifier.Issued settings jwt v.source token call key lookup claims principal

variable {settings jwt callers service} {s : Application κ σ} {now : Seconds} {first : σ}

/-- Whoever has been let through was so for a token signed with a published key, if nobody gets
past its authentication otherwise. -/
theorem backed_of_passed (hj : jwt.Enforces) (passed : σ → ℕ → Prop) (h₀ : ∀ i, ¬ passed first i)
    (hpass : ∀ x a x' i, service.step x a = some x' → passed x' i →
      passed x i ∨ service.authenticates a = some i)
    (h : Reachable (step settings jwt callers service) (initial now first) s) (i : ℕ)
    (principal : Principal) (hi : passed s.service i)
    (hg : getPrincipal settings (callers i).credentials (callers i).verified =
      .principal principal) : Backed settings jwt s.verifier i (callers i) principal := by
  have hinv : Presented callers s.verifier ∧
      ∀ i, passed s.service i → answered settings (callers i) (s.verifier.phase i) := by
    refine h.invariant (I := fun s => Presented callers s.verifier ∧
      ∀ i, passed s.service i → answered settings (callers i) (s.verifier.phase i))
      ⟨by rintro _ _ ⟨⟩, fun i hi => absurd hi (h₀ i)⟩ ?_
    rintro s₁ action s₂ ⟨hp, ha⟩ - hstep
    cases action with
    | verify action =>
      rw [step, Option.ite_none_right_eq_some] at hstep
      obtain ⟨hpresents, hstep⟩ := hstep
      obtain ⟨verifier, hv, rfl⟩ := Option.map_eq_some_iff.mp hstep
      exact ⟨hp.step hpresents hv, fun i hi => answered_of_step (ha i hi) hv⟩
    | serve action =>
      rw [step, Option.ite_none_right_eq_some] at hstep
      obtain ⟨hall, hstep⟩ := hstep
      obtain ⟨x, hx, rfl⟩ := Option.map_eq_some_iff.mp hstep
      refine ⟨hp, fun i hi => ?_⟩
      rcases hpass _ _ _ i hx hi with hi | hauth
      · exact ha i hi
      · rw [hauth, Option.all_some] at hall
        exact hall
  obtain ⟨hpresented, hanswered⟩ := hinv
  have hverified := Caller.verified_of_getPrincipal hg
  have hresult : (s.verifier.phase i).result? = some (.ok principal) := by
    have ha := hanswered i hi
    rw [answered, decide_eq_true_eq, hverified] at ha
    unfold getPrincipal at hg
    split at hg
    next => cases hg
    next hc =>
      split at hg
      next => cases hg
      next ht => exact (ha.resolve_left hc).resolve_left ht
  cases hp : s.verifier.phase i with
  | verified token call key lookup claims principal' =>
    rw [hp] at hresult
    cases hresult
    refine ⟨token, call, key, lookup, claims, hpresented i token (by rw [hp]; rfl), hp, ?_⟩
    exact (TokenVerifier.Verifying.reach (verifier_reachable h)).issued hj hp
  | idle | signing | configuring | refused => rw [hp] at hresult; cases hresult

/-- A request is let through for a token whose household is the given one. -/
def Traced (settings : Settings) (jwt : PyJWT κ) (uuid5 : UUID → String → UUID)
    (v : TokenVerifier κ) (i : ℕ) (caller : Caller) (householdId : UUID) : Prop :=
  ∃ principal, Backed settings jwt v i caller principal ∧
    householdIdFor uuid5 principal.issuer principal.subject = .ok householdId

end Application

def UploadReply.householdId? : UploadReply → Option UUID
  | .issued ticket => some ticket.householdId
  | .confirmed confirmation => some confirmation.householdId
  | .refused _ | .serverError => none

def InventoryReply.householdId? : InventoryReply → Option UUID
  | .created event | .existing event => some event.householdId
  | .snapshot response => some response.householdId
  | .refused _ | .invalid _ | .serverError => none

namespace UploadService

open Application (Traced)
open UploadsApi (Keyed records)

variable {κ κ' : Type} [UnicodeTables] {settings : Settings} {jwt : PyJWT κ}
  {uuid5 : UUID → String → UUID} {cfg : StorageSettings} {generateBlobSas : BlobSas κ' → String}
  {requests : ℕ → UploadHttpRequest} {first : List HouseholdRow}
  {uploads : List ReceiptUploadRow} {s : Application κ (UploadService κ')} {now : Seconds}

def endpoints (settings : Settings) (uuid5 : UUID → String → UUID) (cfg : StorageSettings)
    (generateBlobSas : BlobSas κ' → String) (requests : ℕ → UploadHttpRequest) :
    Service (UploadService κ') (EntryAction (UploadsAction κ')) where
  step := step uuid5 cfg generateBlobSas requests settings
  authenticates := Entrance.authenticates

end UploadService

namespace InventoryService

open Application (Traced)

variable {κ : Type} [UnicodeTables] {settings : Settings} {jwt : PyJWT κ}
  {uuid5 : UUID → String → UUID} {jsonb : String → Bool} {requests : ℕ → InventoryRequest}
  {first : List HouseholdRow} {db₀ : Db} {now : Seconds}

def authenticates : ServiceAction → Option ℕ
  | .authenticate i => some i
  | _ => none

def endpoints (settings : Settings) (uuid5 : UUID → String → UUID) (jsonb : String → Bool)
    (requests : ℕ → InventoryRequest) : Service InventoryService ServiceAction where
  step := step settings uuid5 jsonb requests
  authenticates := authenticates

section Passed

variable {s s' : InventoryService} {action : ServiceAction} {i : ℕ}

theorem passed_of_step (h : step settings uuid5 jsonb requests s action = some s')
    (hi : s'.phase i ≠ .received) : s.phase i ≠ .received ∨ authenticates action = some i := by
  have entered : ∀ {j : ℕ} {p q : ServicePhase}, s.phase j = q → q ≠ .received →
      Function.update s.phase j p i ≠ .received → s.phase i ≠ .received := by
    intro j p q hj hq hu
    by_cases hij : i = j
    · subst hij
      rwa [hj]
    · rwa [Function.update_of_ne hij] at hu
  have sighted : ∀ {j : ℕ} {a : SightAction}, s.runSight uuid5 requests j a = some s' →
      s.phase i ≠ .received := by
    intro j a h
    unfold runSight at h
    split at h
    next hp =>
      obtain ⟨sight, -, rfl⟩ := Option.map_eq_some_iff.mp h
      exact entered hp (by simp) hi
    next => cases h
  have appended : ∀ {j : ℕ} {a : AppendAction}, s.runAppend uuid5 requests j a = some s' →
      s.phase i ≠ .received := by
    intro j a h
    unfold runAppend at h
    split at h
    next hp _ =>
      obtain ⟨appends, -, rfl⟩ := Option.map_eq_some_iff.mp h
      exact entered hp (by simp) hi
    next => cases h
  cases action with
  | authenticate j =>
    rw [step] at h
    split at h
    next =>
      cases h
      by_cases hij : i = j
      · exact .inr (by rw [hij, authenticates])
      · left
        change Function.update s.phase j _ i ≠ _ at hi
        rwa [Function.update_of_ne hij] at hi
    next => cases h
  | openSession j =>
    rw [step] at h
    split at h
    next hp _ => cases h; exact .inl (entered hp (by simp) hi)
    next hp _ => cases h; exact .inl (entered hp (by simp) hi)
    next hp _ => split at h <;> cases h <;> exact .inl (entered hp (by simp) hi)
    next => cases h
  | readHousehold j => exact .inl (sighted h)
  | insertHousehold j => exact .inl (sighted h)
  | commitHousehold j => exact .inl (sighted h)
  | handle j =>
    rw [step] at h
    split at h
    next hp _ => cases h; exact .inl (entered hp (by simp) hi)
    next => cases h
  | insertEvent j => exact .inl (appended h)
  | lookupEvent j => exact .inl (appended h)
  | commitEvent j => exact .inl (appended h)
  | project j =>
    rw [step] at h
    split at h
    next hp _ => cases h; exact .inl (entered hp (by simp) hi)
    next hp _ => cases h; exact .inl (entered hp (by simp) hi)
    next => cases h
  | respond j =>
    rw [step] at h
    split at h
    next hp => cases h; exact .inl (entered hp (by simp) hi)
    next hp _ => cases h; exact .inl (entered hp (by simp) hi)
    next => cases h
  | disconnect j failure =>
    rw [step] at h
    split at h
    next hp => cases h; exact .inl (entered hp (by simp) hi)
    next hp => cases h; exact .inl (entered hp (by simp) hi)
    next hp => cases h; exact .inl (entered hp (by simp) hi)
    next => cases h

end Passed

variable {s : Application κ InventoryService}

/-- What is shown and recorded belongs to the households of tokens of the provider. -/
structure EventsTraced (settings : Settings) (jwt : PyJWT κ) (uuid5 : UUID → String → UUID)
    (requests : ℕ → InventoryRequest) (db₀ : Db) (s : Application κ InventoryService) :
    Prop where
  shown : ∀ i reply, (s.service.phase i).reply? = some reply →
    ∀ householdId, reply.householdId? = some householdId →
      Traced settings jwt uuid5 s.verifier i (callers requests i) householdId
  recorded : ∀ r ∈ s.service.appends.db.events, r ∉ db₀.events →
    ∃ i, Traced settings jwt uuid5 s.verifier i (callers requests i) r.householdId

/-- Whatever the inventory endpoints show and record belongs to the household of a token that was
signed with a published key. -/
theorem events_traced (hj : jwt.Enforces) (hl : LowerSettled)
    (hw : ∀ c, (UnicodeTables.lowerOf c).length = if c = 'İ' then 2 else 1)
    (hv : Vouched settings requests) (hn : (first.map (·.id)).Nodup)
    (hdb : Db.Valid { db₀ with households := first.map (·.id) })
    (h : Reachable (Application.step settings jwt (callers requests)
        (endpoints settings uuid5 jsonb requests))
      (.initial now (initial first db₀)) s) :
    EventsTraced settings jwt uuid5 requests db₀ s := by
  have hreach : Reachable (step settings uuid5 jsonb requests) (initial first db₀) s.service :=
    Application.service_reachable h
  have hs := (Sound.initial hn hdb).reach hl hw hv hreach
  have htraced : ∀ i, s.service.phase i ≠ .received → Authenticated settings (requests i) →
      Traced settings jwt uuid5 s.verifier i (callers requests i)
        (posts uuid5 requests i).householdId := by
    intro i hp hauth
    have howns : (callers requests i).Owns settings uuid5 (posts uuid5 requests i).householdId :=
      Caller.owns_of_authenticated (callers requests i) (hv i) hauth
    obtain ⟨principal, hg, hid⟩ := howns
    refine ⟨principal, ?_, hid⟩
    exact Application.backed_of_passed hj (fun x i => x.phase i ≠ .received)
      (fun i hi => hi rfl) (fun x a x' i hx hi => passed_of_step hx hi) h i principal hp hg
  constructor
  · intro i reply hr householdId hh
    have hi : s.service.phase i = .answered reply := by
      refine ServicePhase.answered_of_reply hr ⟨?_, ?_⟩ <;> rintro rfl <;> cases hh
    have hp : s.service.phase i ≠ .received := by simp [hi]
    cases reply with
    | created event =>
      obtain ⟨hposted, -, rfl⟩ := hs.stage_of_phase hi
      cases hh
      exact htraced i hp hposted.authenticated
    | existing event =>
      obtain ⟨hposted, r, -, rfl, -, hid⟩ := hs.accounted.existing i event hr
      cases hh
      change Traced _ _ _ _ _ _ r.householdId
      rw [hid]
      exact htraced i hp hposted.authenticated
    | snapshot response =>
      obtain ⟨hauth, -, log, S, -, hS, rfl⟩ := hs.stage_of_phase hi
      cases hh
      change Traced _ _ _ _ _ _ S.householdId
      rw [(isReplay_iff.mp hS).1]
      exact htraced i hp hauth
    | refused | invalid | serverError => cases hh
  · intro r hr hn
    obtain ⟨i, ⟨hc, hposted, rfl, -⟩, -⟩ := hs.writer hr hn
    have hp : s.service.phase i ≠ .received := by
      intro hp
      have hbegun : s.service.appends.phase i = .begun := (hs.stage_of_phase hp).2
      rw [hc] at hbegun
      cases hbegun
    exact ⟨i, htraced i hp hposted.authenticated⟩

end InventoryService

namespace Application

open TokenVerifier (kitchenSettings kitchenToken rotatedKeys)

def tokenCaller [UnicodeTables] (i : ℕ) : Caller where
  credentials := if i = 0 then some "signed" else none
  verified := toPrincipal kitchenSettings kitchenToken.claims
  session := .factory

def tokenVerified {β : Type} : List (ApplicationAction String β) :=
  [.verify 0 "signed", .keys (.acquire 0), .keys (.request 0),
    .keys (.openId 0 KeySource.openIdDocument), .keys (.request 0), .keys (.jwks 0 rotatedKeys),
    .signed 0, .decode 0 1700000000].map .verify

end Application

namespace UploadService

open Application (tokenCaller tokenVerified)
open InventoryService (memberUuid5)
open TokenVerifier (kitchenSettings kitchenLibrary)
open ReceiptBlobStore (tenMinutes uploadAt)
open UploadsApi (inDatetime_zero sampleSas Keyed)

end UploadService

namespace InventoryService

open Application (tokenCaller tokenVerified)
open TokenVerifier (kitchenSettings kitchenLibrary)

/-- The holder of the token posts an event, and the other asks for a snapshot. -/
def tokenRequests [UnicodeTables] (i : ℕ) : InventoryRequest where
  credentials := (tokenCaller i).credentials
  verified := (tokenCaller i).verified
  session := .factory
  endpoint := if i = 0 then .appendEvent else .currentSnapshot
  body := bodyWithUnit " Pack"
  rowId := BitVec.ofNat 128 i
  now := 10
  clock := 100

def eventStored : List ServiceAction :=
  [.authenticate 0, .openSession 0, .readHousehold 0, .insertHousehold 0, .commitHousehold 0,
    .handle 0, .insertEvent 0, .commitEvent 0, .respond 0]

/-- The event is stored, and the other caller is refused in the meantime. -/
def eventFromToken : List (ApplicationAction String ServiceAction) :=
  .serve (.authenticate 1) :: tokenVerified ++ eventStored.map .serve

theorem events_traced_eventFromToken :
    letI := dottedTables
    ∃ s, exec (guarded (Application.step kitchenSettings kitchenLibrary (callers tokenRequests)
          (endpoints kitchenSettings memberUuid5 (fun _ => true) tokenRequests)) unrestricted)
        (.initial 5000 (initial [] emptyKitchen)) eventFromToken = some s ∧
      [0, 1].map (fun i => (s.service.phase i).reply?.map InventoryReply.statusCode) =
        [some 201, some 401] ∧
      s.service.appends.db.events.length = 1 ∧
      EventsTraced kitchenSettings kitchenLibrary memberUuid5 tokenRequests emptyKitchen s := by
  let _ := dottedTables
  have h : (exec (guarded (Application.step kitchenSettings kitchenLibrary (callers tokenRequests)
          (endpoints kitchenSettings memberUuid5 (fun _ => true) tokenRequests)) unrestricted)
        (.initial 5000 (initial [] emptyKitchen)) eventFromToken).map (fun s =>
          ([0, 1].map fun i => (s.service.phase i).reply?.map InventoryReply.statusCode,
            s.service.appends.db.events.length)) = some ([some 201, some 401], 1) := by
    decide +kernel
  obtain ⟨s, hr, hp⟩ := Option.map_eq_some_iff.mp h
  obtain ⟨hreplies, hone⟩ := Prod.mk.inj hp
  have hv : Vouched kitchenSettings tokenRequests := fun i principal h => ⟨_, h⟩
  have hdb : Db.Valid { emptyKitchen with
      households := ([] : List HouseholdRow).map (·.id) } :=
    ⟨by decide, by decide, by decide, by decide⟩
  exact ⟨s, hr, hreplies, hone, events_traced (TokenVerifier.enforces_libraryOf _)
    dottedTables_lowerSettled dottedTables_length hv (by simp) hdb (Reach.of_exec hr)⟩

end InventoryService

end KitchenSense
