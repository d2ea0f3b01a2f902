import KitchenSense.Api.Entrance
import KitchenSense.Projection.Replay

/-! # What the answers of the service say

Every event of the log is the event of one authenticated request with an
accepted body, and an answer says what became of it. A request that is not
authenticated touches no table. Every 500 has its cause in the token, in the
settings of the database, in a value that the database does not take, or in a
lost connection.
-/

namespace KitchenSense

open InventoryEventRepository

section Components

/-- The request that a statement of `append_if_new` belongs to. -/
def AppendAction.index : AppendAction → ℕ
  | .insert i | .lookup i | .commit i | .rollback i => i

theorem getByIdempotencyKey_ok {log : List InventoryEventRow}
    (hk : (log.map (·.idempotencyKey)).Nodup) (householdId : UUID) (key : String) :
    ∃ found, getByIdempotencyKey log householdId key = .ok found := by
  by_cases hr : ∃ r ∈ log, r.idempotencyKey = key
  · obtain ⟨r, hr, rfl⟩ := hr
    exact ⟨_, getByIdempotencyKey_of_mem hk hr⟩
  · refine ⟨none, ?_⟩
    have hnil : ((scopedTo log householdId).filter fun row => row.idempotencyKey = key) = [] := by
      rw [List.filter_eq_nil_iff]
      intro r hm hkey
      exact hr ⟨r, (List.mem_filter.mp hm).1, by simpa using hkey⟩
    rw [getByIdempotencyKey, hnil]
    rfl

theorem AppendPhase.not_writes {p : AppendPhase} (h : p = .begun) : ¬ p.Writes := by
  rw [h]
  exact id

namespace AppendState

variable [UnicodeTables] {requests : ℕ → AppendRequest} {s s' : AppendState}
  {action : AppendAction} {db₀ : Db} {i : ℕ}

theorem phase_of_ne (h : step requests s action = some s') (hi : i ≠ action.index) :
    s'.phase i = s.phase i := by
  cases action with
  | insert j =>
    rw [step] at h
    split at h
    next =>
      rw [Option.ite_none_left_eq_some] at h
      obtain ⟨-, h⟩ := h
      split at h <;> cases h <;> exact Function.update_of_ne hi ..
    next => cases h
  | lookup j =>
    rw [step] at h
    split at h
    next => split at h <;> cases h <;> exact Function.update_of_ne hi ..
    next => cases h
  | commit j =>
    rw [step] at h
    split at h
    next => cases h; exact Function.update_of_ne hi ..
    next => cases h; exact Function.update_of_ne hi ..
    next => cases h
  | rollback j =>
    rw [step] at h
    split at h
    next => cases h; exact Function.update_of_ne hi ..
    next => cases h; exact Function.update_of_ne hi ..
    next => cases h; exact Function.update_of_ne hi ..
    next => cases h; exact Function.update_of_ne hi ..
    next => cases h

theorem failed_of_step {e : Failure} (h : step requests s action = some s')
    (he : s'.phase action.index = .failed e) :
    insertEventIfNew (requests action.index).row s.db = .error e ∨
      getByIdempotencyKey s.db.events (requests action.index).householdId
        (requests action.index).event.idempotencyKey = .error e := by
  cases action with
  | insert j =>
    rw [step] at h
    split at h
    next =>
      rw [Option.ite_none_left_eq_some] at h
      obtain ⟨-, h⟩ := h
      split at h
      next => cases h; cases (Function.update_self ..).symm.trans he
      next => cases h; cases (Function.update_self ..).symm.trans he
      next hi => cases h; cases (Function.update_self ..).symm.trans he; exact .inl hi
    next => cases h
  | lookup j =>
    rw [step] at h
    split at h
    next =>
      split at h
      next => cases h; cases (Function.update_self ..).symm.trans he
      next => cases h; cases (Function.update_self ..).symm.trans he
      next hl => cases h; cases (Function.update_self ..).symm.trans he; exact .inr hl
    next => cases h
  | commit j =>
    rw [step] at h
    split at h
    next => cases h; cases (Function.update_self ..).symm.trans he
    next => cases h; cases (Function.update_self ..).symm.trans he
    next => cases h
  | rollback j =>
    rw [step] at h
    split at h
    next => cases h; cases (Function.update_self ..).symm.trans he
    next => cases h; cases (Function.update_self ..).symm.trans he
    next => cases h; cases (Function.update_self ..).symm.trans he
    next => cases h; cases (Function.update_self ..).symm.trans he
    next => cases h

theorem tables_of_step (h : step requests s action = some s') :
    s'.db.households = s.db.households ∧ s'.db.products = s.db.products := by
  obtain ⟨i, p, -, ⟨-, -, -, -, hd, -⟩ | ⟨-, -, -, hd, -⟩ | ⟨row, -, -, ⟨-, hd⟩ | ⟨-, hd⟩⟩⟩ :=
    step_cases h <;> rw [hd] <;> exact ⟨rfl, rfl⟩

theorem Sound.withHouseholds (hs : Sound requests db₀ s) {households : List UUID}
    (h : s.db.households ⊆ households) :
    Sound requests db₀ { s with db := { s.db with households } } where
  valid :=
    { hs.valid with
      referenceChecks := by
        intro row hm
        have hr := violated_eq_none_iff.mp (hs.valid.referenceChecks row hm)
        simp only [InventoryEventRow.referenceChecks, List.forall_mem_cons, decide_eq_true_eq] at hr
        rw [violated_eq_none_iff]
        simp only [InventoryEventRow.referenceChecks, List.forall_mem_cons, decide_eq_true_eq]
        exact ⟨h hr.1, hr.2⟩ }
  grown := hs.grown
  established := hs.established
  apart := hs.apart
  fresh := hs.fresh
  creators := hs.creators

end AppendState

end Components

namespace InventoryService

variable [UnicodeTables] {settings : Settings} {uuid5 : UUID → String → UUID}
  {jsonb : String → Bool} {requests : ℕ → InventoryRequest} {s s' : InventoryService}
  {action : ServiceAction} {i j : ℕ}

section Moves

inductive Moves (settings : Settings) (uuid5 : UUID → String → UUID) (jsonb : String → Bool)
    (requests : ℕ → InventoryRequest) (s : InventoryService) : InventoryService → Prop
  | authenticated {i : ℕ} (hp : s.phase i = .received) :
      Moves settings uuid5 jsonb requests s (s.enter i (afterAuthentication
        (authReply settings (requests i).credentials (requests i).verified)))
  | unconfigured {i : ℕ} (hp : s.phase i = .admitted) :
      Moves settings uuid5 jsonb requests s (s.enter i (.answered (.refused databaseUnconfigured)))
  | raised {i : ℕ} (hp : s.phase i = .admitted) (hr : (requests i).session = .raised) :
      Moves settings uuid5 jsonb requests s (s.enter i (.answered .serverError))
  | homeless {i : ℕ} (hp : s.phase i = .admitted) (hs : (requests i).sight? uuid5 = none) :
      Moves settings uuid5 jsonb requests s (s.enter i (.answered .serverError))
  | opened {i : ℕ} (hp : s.phase i = .admitted) (hs : ((requests i).sight? uuid5).isSome) :
      Moves settings uuid5 jsonb requests s (s.enter i .opened)
  | sighted {action : SightAction} {sight : FirstSight} (hp : s.phase action.index = .opened)
      (ha : ∀ i, action ≠ .rollback i)
      (hs : FirstSight.step (sights uuid5 requests) s.sight action = some sight) :
      Moves settings uuid5 jsonb requests s
        ((s.withSight sight).enter action.index (afterSight (sight.phase action.index)))
  | handled {i : ℕ} {created : Bool} (hp : s.phase i = .opened)
      (hs : s.sight.phase i = .proceeded created) :
      Moves settings uuid5 jsonb requests s (s.enter i (begin_ uuid5 jsonb (requests i)))
  | appended {action : AppendAction} {appends : AppendState}
      (hp : s.phase action.index = .handling)
      (he : (requests action.index).endpoint = .appendEvent)
      (hs : AppendState.step (posts uuid5 requests) s.appends action = some appends) :
      Moves settings uuid5 jsonb requests s ({ s with appends }.enter action.index
        (afterAppend (appends.phase action.index)))
  | read {i : ℕ} (hp : s.phase i = .handling) (he : (requests i).endpoint ≠ .appendEvent) :
      Moves settings uuid5 jsonb requests s
        (s.enter i (.projected (s.readReply uuid5 requests i)))
  | replied {i : ℕ} {reply : InventoryReply} (hp : s.phase i = .projected reply) :
      Moves settings uuid5 jsonb requests s (s.enter i (.answered reply))
  | responded {i : ℕ} {event : InventoryEvent} {created : Bool} (hp : s.phase i = .handling)
      (ha : s.appends.phase i = .committed event created) :
      Moves settings uuid5 jsonb requests s
        (s.enter i (.answered (appendReply (.ok (event, created)))))
  | closed {i : ℕ} {sight : FirstSight} (failure : ConnectionFailure) (hp : s.phase i = .opened)
      (hs : sight = s.sight ∨
        FirstSight.step (sights uuid5 requests) s.sight (.rollback i) = some sight) :
      Moves settings uuid5 jsonb requests s ({ s with sight }.enter i (.disconnected failure))
  | broken {i : ℕ} {appends : AppendState} (failure : ConnectionFailure)
      (hp : s.phase i = .handling)
      (hs : AppendState.step (posts uuid5 requests) s.appends (.rollback i) = some appends ∨
        (appends = s.appends ∧ ∀ row, s.appends.phase i ≠ .inserted row)) :
      Moves settings uuid5 jsonb requests s ({ s with appends }.enter i (.disconnected failure))
  | unanswered {i : ℕ} {reply : InventoryReply} (failure : ConnectionFailure)
      (hp : s.phase i = .projected reply) :
      Moves settings uuid5 jsonb requests s (s.enter i (.disconnected failure))

theorem moves_of_runSight (action : SightAction) (ha : ∀ i, action ≠ .rollback i)
    (h : s.runSight uuid5 requests action.index action = some s') :
    Moves settings uuid5 jsonb requests s s' := by
  unfold runSight at h
  split at h
  next hp =>
    obtain ⟨sight, hs, rfl⟩ := Option.map_eq_some_iff.mp h
    exact .sighted hp ha hs
  next => cases h

theorem moves_of_runAppend (action : AppendAction)
    (h : s.runAppend uuid5 requests action.index action = some s') :
    Moves settings uuid5 jsonb requests s s' := by
  unfold runAppend at h
  split at h
  next hp he =>
    obtain ⟨appends, hs, rfl⟩ := Option.map_eq_some_iff.mp h
    exact .appended hp he hs
  next => cases h

theorem moves_of_disconnect {failure : ConnectionFailure}
    (h : step settings uuid5 jsonb requests s (.disconnect i failure) = some s') :
    Moves settings uuid5 jsonb requests s s' := by
  rw [step] at h
  split at h
  next hp =>
    cases h
    refine .closed failure hp ?_
    cases FirstSight.step (sights uuid5 requests) s.sight (.rollback i) with
    | none => exact .inl rfl
    | some sight => exact .inr rfl
  next hp =>
    cases h
    change Moves settings uuid5 jsonb requests s ({ s with
      appends := (AppendState.step (posts uuid5 requests) s.appends (.rollback i)).getD
        s.appends }.enter i (.disconnected failure))
    refine .broken failure hp ?_
    cases hs : AppendState.step (posts uuid5 requests) s.appends (.rollback i) with
    | none =>
      refine .inr ⟨rfl, fun row hrow => ?_⟩
      rw [AppendState.step, hrow] at hs
      cases hs
    | some appends => exact .inl rfl
  next hp => cases h; exact .unanswered failure hp
  next => cases h

theorem moves_of_step (h : step settings uuid5 jsonb requests s action = some s') :
    Moves settings uuid5 jsonb requests s s' := by
  cases action with
  | authenticate i =>
    rw [step] at h
    split at h
    next hp => cases h; exact .authenticated hp
    next => cases h
  | openSession i =>
    rw [step] at h
    split at h
    next hp _ => cases h; exact .unconfigured hp
    next hp hr => cases h; exact .raised hp hr
    next hp _ =>
      split at h
      next hs => cases h; exact .homeless hp (Option.isNone_iff_eq_none.mp hs)
      next hs => cases h; exact .opened hp (Option.isSome_iff_ne_none.mpr (by simpa using hs))
    next => cases h
  | readHousehold i => exact moves_of_runSight (.exists_ i) (by simp) h
  | insertHousehold i => exact moves_of_runSight (.insert i) (by simp) h
  | commitHousehold i => exact moves_of_runSight (.commit i) (by simp) h
  | handle i =>
    rw [step] at h
    split at h
    next hp hs => cases h; exact .handled hp hs
    next => cases h
  | insertEvent i => exact moves_of_runAppend (.insert i) h
  | lookupEvent i => exact moves_of_runAppend (.lookup i) h
  | commitEvent i => exact moves_of_runAppend (.commit i) h
  | project i =>
    rw [step] at h
    split at h
    next hp he => cases h; exact .read hp (by simp [he])
    next hp he => cases h; exact .read hp (by simp [he])
    next => cases h
  | respond i =>
    rw [step] at h
    split at h
    next hp => cases h; exact .replied hp
    next hp ha => cases h; exact .responded hp ha
    next => cases h
  | disconnect i failure => exact moves_of_disconnect h

end Moves

section Invariant

/-- `get_principal` lets a request through. -/
def Authenticated (settings : Settings) (request : InventoryRequest) : Prop :=
  ∃ principal, getPrincipal settings request.credentials request.verified = .principal principal

structure Posted (settings : Settings) (uuid5 : UUID → String → UUID) (jsonb : String → Bool)
    (request : InventoryRequest) : Prop where
  authenticated : Authenticated settings request
  endpoint : request.endpoint = .appendEvent
  accepted : request.body.validate = .ok request.body.trimmed
  storable : (request.append uuid5).row.storable jsonb

/-- An event that is not stored: its unit is blank, its id is taken or its product is unknown. -/
def Unfit (request : InventoryRequest) (db : Db) : Prop :=
  strip request.body.trimmed.unit = "" ∨ (∃ r ∈ db.events, r.id = request.rowId) ∨
    request.body.canonicalProductId ∉ db.products

def Unstorable (uuid5 : UUID → String → UUID) (jsonb : String → Bool)
    (request : InventoryRequest) : Prop :=
  ¬ (request.append uuid5).row.storable jsonb ∨ UnitTooWide request.body.trimmed.unit

/-- Why an authenticated request is answered with a 500. -/
inductive Faulty (uuid5 : UUID → String → UUID) (jsonb : String → Bool)
    (request : InventoryRequest) : Prop
  /-- `sessionmaker` lets an exception of SQLAlchemy escape. -/
  | session (h : request.session = .raised)
  /-- The name of the household that is inserted holds U+0000. -/
  | name (h : storableText (request.sight uuid5).name = false)
  /-- The instant that is asked for has no UTC time. -/
  | timestamp (h : request.dated = false)
  | event (he : request.endpoint = .appendEvent)
      (ha : request.body.validate = .ok request.body.trimmed) (h : Unstorable uuid5 jsonb request)

/-- What a reply stands for, by how far the statements of its request have come. -/
def Justified (settings : Settings) (uuid5 : UUID → String → UUID) (jsonb : String → Bool)
    (request : InventoryRequest) (sight : SightPhase) (append : AppendPhase) (db : Db) :
    InventoryReply → Prop
  | .created event => Posted settings uuid5 jsonb request ∧
      append = .committed (request.append uuid5).row.toDomain true ∧
      event = .fromDomain (request.append uuid5).row.toDomain
  | .existing event => Posted settings uuid5 jsonb request ∧
      ∃ stored, append = .committed stored false ∧ event = .fromDomain stored
  | .snapshot response => Authenticated settings request ∧ append = .begun ∧
      ∃ log S, log <+: db.events ∧
        IsReplay log (request.sight uuid5).householdId request.asOf S ∧ response = .fromDomain S
  | .refused exception =>
      ((sight = .started ∧ append = .begun) ∧
        (authReply settings request.credentials request.verified = .refused exception ∨
          Authenticated settings request ∧ exception = databaseUnconfigured)) ∨
      (Posted settings uuid5 jsonb request ∧ exception = keyInUse ∧ append = .refused) ∨
      (Posted settings uuid5 jsonb request ∧ exception = notStored ∧ (∃ e, append = .failed e) ∧
        Unfit request db)
  | .invalid errors => Authenticated settings request ∧ request.endpoint = .appendEvent ∧
      request.body.validate = .error errors ∧ append = .begun
  | .serverError =>
      ((sight = .started ∧ append = .begun) ∧
        authReply settings request.credentials request.verified = .failed) ∨
      (Authenticated settings request ∧ ¬ append.Writes ∧ Faulty uuid5 jsonb request)

def Stage (settings : Settings) (uuid5 : UUID → String → UUID) (jsonb : String → Bool)
    (request : InventoryRequest) (sight : SightPhase) (append : AppendPhase) (db : Db) :
    ServicePhase → Prop
  | .received => sight = .started ∧ append = .begun
  | .admitted => Authenticated settings request ∧ sight = .started ∧ append = .begun
  | .opened => Authenticated settings request ∧ append = .begun
  | .handling => Authenticated settings request ∧ (∃ created, sight = .proceeded created) ∧
      (Posted settings uuid5 jsonb request ∨ request.endpoint ≠ .appendEvent ∧ append = .begun)
  | .projected reply => Authenticated settings request ∧ append = .begun ∧
      Justified settings uuid5 jsonb request sight append db reply
  | .answered reply => Justified settings uuid5 jsonb request sight append db reply
  | .disconnected _ => Authenticated settings request ∧ (∀ row, append ≠ .inserted row) ∧
      (Posted settings uuid5 jsonb request ∨ ¬ append.Writes)

structure Sound (settings : Settings) (uuid5 : UUID → String → UUID) (jsonb : String → Bool)
    (requests : ℕ → InventoryRequest) (first : List HouseholdRow) (db₀ : Db)
    (s : InventoryService) : Prop where
  sight : FirstSight.Sound (sights uuid5 requests) first s.sight
  appends : AppendState.Sound (posts uuid5 requests) db₀ s.appends
  households : s.appends.db.households = s.sight.households.map (·.id)
  products : s.appends.db.products = db₀.products
  stage : ∀ i, Stage settings uuid5 jsonb (requests i) (s.sight.phase i) (s.appends.phase i)
    s.appends.db (s.phase i)

variable {first : List HouseholdRow} {db₀ db db' : Db} {request : InventoryRequest}
  {sight : SightPhase} {append : AppendPhase} {p : ServicePhase}

theorem Sound.initial (hn : (first.map (·.id)).Nodup)
    (hv : Db.Valid { db₀ with households := first.map (·.id) }) :
    Sound settings uuid5 jsonb requests first db₀ (initial first db₀) where
  sight := .initial hn
  appends := by
    have h : AppendState.Sound (posts uuid5 requests) { db₀ with households := first.map (·.id) }
        (AppendState.initial { db₀ with households := first.map (·.id) }) := .initial hv
    exact ⟨h.valid, h.grown, h.established, h.apart, h.fresh, h.creators⟩
  households := rfl
  products := rfl
  stage _ := ⟨rfl, rfl⟩

theorem Justified.mono {reply : InventoryReply}
    (h : Justified settings uuid5 jsonb request sight append db reply)
    (he : db.events <+: db'.events) (hp : db'.products = db.products) :
    Justified settings uuid5 jsonb request sight append db' reply := by
  cases reply with
  | snapshot response =>
    obtain ⟨ha, hb, log, S, hl, hr⟩ := h
    exact ⟨ha, hb, log, S, hl.trans he, hr⟩
  | refused exception =>
    refine h.imp_right (Or.imp_right ?_)
    rintro ⟨hposted, hx, hf, hu⟩
    refine ⟨hposted, hx, hf, hu.imp_right (Or.imp ?_ ?_)⟩
    · rintro ⟨r, hr, hid⟩
      exact ⟨r, he.subset hr, hid⟩
    · rw [hp]
      exact id
  | _ => exact h

theorem Stage.mono (h : Stage settings uuid5 jsonb request sight append db p)
    (he : db.events <+: db'.events) (hp : db'.products = db.products) :
    Stage settings uuid5 jsonb request sight append db' p := by
  cases p with
  | projected reply => exact ⟨h.1, h.2.1, h.2.2.mono he hp⟩
  | answered reply => exact Justified.mono h he hp
  | _ => exact h

theorem Sound.move (hs : Sound settings uuid5 jsonb requests first db₀ s)
    (hsight : FirstSight.Sound (sights uuid5 requests) first s'.sight)
    (happends : AppendState.Sound (posts uuid5 requests) db₀ s'.appends)
    (hh : s'.appends.db.households = s'.sight.households.map (·.id))
    (hp : s'.appends.db.products = s.appends.db.products)
    (he : s.appends.db.events <+: s'.appends.db.events)
    (hphase : s'.phase = Function.update s.phase i p)
    (hsights : ∀ j ≠ i, s'.sight.phase j = s.sight.phase j)
    (hposts : ∀ j ≠ i, s'.appends.phase j = s.appends.phase j)
    (hi : Stage settings uuid5 jsonb (requests i) (s'.sight.phase i) (s'.appends.phase i)
      s'.appends.db p) : Sound settings uuid5 jsonb requests first db₀ s' where
  sight := hsight
  appends := happends
  households := hh
  products := hp.trans hs.products
  stage := by
    intro j
    rw [hphase]
    by_cases hj : j = i
    · subst hj
      rw [Function.update_self]
      exact hi
    · rw [Function.update_of_ne hj, hsights j hj, hposts j hj]
      exact (hs.stage j).mono he hp

theorem Sound.enter (hs : Sound settings uuid5 jsonb requests first db₀ s)
    (hi : Stage settings uuid5 jsonb (requests i) (s.sight.phase i) (s.appends.phase i)
      s.appends.db p) : Sound settings uuid5 jsonb requests first db₀ (s.enter i p) :=
  hs.move hs.sight hs.appends hs.households rfl List.prefix_rfl rfl (fun _ _ => rfl)
    (fun _ _ => rfl) hi

theorem Sound.stage_of_phase (hs : Sound settings uuid5 jsonb requests first db₀ s)
    (hp : s.phase i = p) : Stage settings uuid5 jsonb (requests i) (s.sight.phase i)
      (s.appends.phase i) s.appends.db p :=
  hp ▸ hs.stage i

end Invariant

section Requests

/-- The principal of every token that is verified was made of its claims. -/
def Vouched (settings : Settings) (requests : ℕ → InventoryRequest) : Prop :=
  ∀ i principal, (requests i).verified = .ok principal →
    ∃ claims, toPrincipal settings claims = .ok principal

def callers (requests : ℕ → InventoryRequest) (i : ℕ) : Caller :=
  ⟨(requests i).credentials, (requests i).verified, (requests i).session⟩

theorem sight_of_authenticated (hv : Vouched settings requests)
    (h : Authenticated settings (requests i)) :
    (∃ request, (requests i).sight? uuid5 = some request) ∧
      (storableText (sights uuid5 requests i).name →
        violated (sights uuid5 requests i).row.rowChecks = none) :=
  Caller.sight_of_authenticated (callers requests i) (hv i) h

end Requests

section Steps

variable {first : List HouseholdRow} {db₀ : Db}

theorem Sound.authenticate (hs : Sound settings uuid5 jsonb requests first db₀ s)
    (hp : s.phase i = .received) : Sound settings uuid5 jsonb requests first db₀
      (s.enter i (afterAuthentication
        (authReply settings (requests i).credentials (requests i).verified))) := by
  have hstage : s.sight.phase i = .started ∧ s.appends.phase i = .begun := hs.stage_of_phase hp
  apply hs.enter
  cases h : authReply settings (requests i).credentials (requests i).verified with
  | principal principal => exact ⟨⟨principal, principal_of_authReply h⟩, hstage⟩
  | refused exception => exact .inl ⟨hstage, .inl h⟩
  | failed => exact .inl ⟨hstage, h⟩

theorem Sound.ensure {action : SightAction} {sight : FirstSight}
    (hs : Sound settings uuid5 jsonb requests first db₀ s) (hv : Vouched settings requests)
    (hp : s.phase action.index = .opened) (ha : ∀ i, action ≠ .rollback i)
    (h : FirstSight.step (sights uuid5 requests) s.sight action = some sight) :
    Sound settings uuid5 jsonb requests first db₀
      ((s.withSight sight).enter action.index (afterSight (sight.phase action.index))) := by
  obtain ⟨hauth, hbegun⟩ : Authenticated settings (requests action.index) ∧
    s.appends.phase action.index = .begun := hs.stage_of_phase hp
  obtain ⟨hsight, hkept⟩ := hs.sight.step h
  have hname (hf : sight.phase action.index = .failed) :
      storableText (sights uuid5 requests action.index).name = false := by
    rw [Bool.eq_false_iff]
    exact fun ht => FirstSight.not_failed_of_step hs.sight.ids
      ((sight_of_authenticated hv hauth).2 ht) ha h hf
  have hsub : s.appends.db.households ⊆ sight.households.map (·.id) := by
    rw [hs.households]
    exact List.map_subset _ hkept
  refine hs.move hsight (hs.appends.withHouseholds hsub) rfl rfl List.prefix_rfl rfl
    (fun j hj => FirstSight.phase_of_ne h hj) (fun _ _ => rfl) ?_
  unfold afterSight
  split
  next hf => exact .inr ⟨hauth, AppendPhase.not_writes hbegun, .name (hname hf)⟩
  next => exact ⟨hauth, hbegun⟩

theorem begin_cases (uuid5 : UUID → String → UUID) (jsonb : String → Bool)
    (request : InventoryRequest) :
    (request.endpoint ≠ .appendEvent ∧ begin_ uuid5 jsonb request = .handling) ∨
      (request.endpoint = .appendEvent ∧
        ((∃ errors, request.body.validate = .error errors ∧
            begin_ uuid5 jsonb request = .answered (.invalid errors)) ∨
          (request.body.validate = .ok request.body.trimmed ∧
            (((request.append uuid5).row.storable jsonb = true ∧
                begin_ uuid5 jsonb request = .handling) ∨
              ((request.append uuid5).row.storable jsonb = false ∧
                begin_ uuid5 jsonb request = .answered .serverError))))) := by
  unfold begin_
  cases he : request.endpoint with
  | appendEvent =>
    refine .inr ⟨rfl, ?_⟩
    cases hb : request.body.validate with
    | error errors => exact .inl ⟨errors, rfl, rfl⟩
    | ok accepted =>
      refine .inr ⟨by rw [(accepted_of_validate hb).1], ?_⟩
      cases (request.append uuid5).row.storable jsonb with
      | true => exact .inl ⟨rfl, rfl⟩
      | false => exact .inr ⟨rfl, rfl⟩
  | currentSnapshot => exact .inl ⟨by simp, rfl⟩
  | snapshotAsOf timestamp => exact .inl ⟨by simp, rfl⟩

theorem Sound.handle {created : Bool} (hs : Sound settings uuid5 jsonb requests first db₀ s)
    (hp : s.phase i = .opened) (hc : s.sight.phase i = .proceeded created) :
    Sound settings uuid5 jsonb requests first db₀
      (s.enter i (begin_ uuid5 jsonb (requests i))) := by
  obtain ⟨hauth, hbegun⟩ : Authenticated settings (requests i) ∧ s.appends.phase i = .begun :=
    hs.stage_of_phase hp
  apply hs.enter
  rcases begin_cases uuid5 jsonb (requests i) with ⟨he, hb⟩ |
    ⟨he, ⟨errors, herr, hb⟩ | ⟨hok, ⟨hst, hb⟩ | ⟨hst, hb⟩⟩⟩
  · rw [hb]
    exact ⟨hauth, ⟨created, hc⟩, .inr ⟨he, hbegun⟩⟩
  · rw [hb]
    exact ⟨hauth, he, herr, hbegun⟩
  · rw [hb]
    exact ⟨hauth, ⟨created, hc⟩, .inl ⟨hauth, he, hok, hst⟩⟩
  · rw [hb]
    exact .inr ⟨hauth, AppendPhase.not_writes hbegun, .event he hok (.inl (by simp [hst]))⟩

theorem exists_readReply (uuid5 : UUID → String → UUID) (requests : ℕ → InventoryRequest)
    (s : InventoryService) (i : ℕ) (hd : (requests i).dated) : ∃ S,
    IsReplay s.appends.db.events (sights uuid5 requests i).householdId (requests i).asOf S ∧
      s.readReply uuid5 requests i = .snapshot (.fromDomain S) := by
  obtain ⟨S, hS⟩ := exists_isReplay s.appends.db.events (sights uuid5 requests i).householdId
    (requests i).asOf
  have hproject : InventorySnapshotRepository.projectKnownAsOf
      (sights uuid5 requests i).householdId (requests i).asOf s.appends.db =
        .ok (S, s.appends.db) := by
    rw [InventorySnapshotRepository.projectKnownAsOf, Transaction.get_bind, hS]
    rfl
  exact ⟨S, hS, by rw [readReply, if_pos hd, Transaction.answer_of_ok hproject]; rfl⟩

/-- The reply that a handler reads is a replay of the log, or a 500 to an instant with no UTC
time. -/
theorem readReply_cases (uuid5 : UUID → String → UUID) (requests : ℕ → InventoryRequest)
    (s : InventoryService) (i : ℕ) :
    (∃ S, IsReplay s.appends.db.events (sights uuid5 requests i).householdId (requests i).asOf S ∧
      s.readReply uuid5 requests i = .snapshot (.fromDomain S)) ∨
    ((requests i).dated = false ∧ s.readReply uuid5 requests i = .serverError) := by
  cases hd : (requests i).dated with
  | true => exact .inl (exists_readReply uuid5 requests s i hd)
  | false => exact .inr ⟨rfl, if_neg (by simp [hd])⟩

theorem Sound.read (hs : Sound settings uuid5 jsonb requests first db₀ s)
    (hp : s.phase i = .handling) (he : (requests i).endpoint ≠ .appendEvent) :
    Sound settings uuid5 jsonb requests first db₀
      (s.enter i (.projected (s.readReply uuid5 requests i))) := by
  obtain ⟨hauth, -, hposted | ⟨-, hbegun⟩⟩ : Authenticated settings (requests i) ∧
    (∃ created, s.sight.phase i = .proceeded created) ∧ (Posted settings uuid5 jsonb (requests i) ∨
      (requests i).endpoint ≠ .appendEvent ∧ s.appends.phase i = .begun) := hs.stage_of_phase hp
  · exact absurd hposted.endpoint he
  apply hs.enter
  rcases readReply_cases uuid5 requests s i with ⟨S, hS, hread⟩ | ⟨hd, hread⟩
  · rw [hread]
    exact ⟨hauth, hbegun, hauth, hbegun, _, S, List.prefix_rfl, hS, rfl⟩
  · rw [hread]
    exact ⟨hauth, hbegun, .inr ⟨hauth, AppendPhase.not_writes hbegun, .timestamp hd⟩⟩

theorem Sound.reply {reply : InventoryReply}
    (hs : Sound settings uuid5 jsonb requests first db₀ s) (hp : s.phase i = .projected reply) :
    Sound settings uuid5 jsonb requests first db₀ (s.enter i (.answered reply)) :=
  hs.enter (hs.stage_of_phase hp).2.2

theorem Sound.drop {reply : InventoryReply} {failure : ConnectionFailure}
    (hs : Sound settings uuid5 jsonb requests first db₀ s) (hp : s.phase i = .projected reply) :
    Sound settings uuid5 jsonb requests first db₀ (s.enter i (.disconnected failure)) := by
  obtain ⟨hauth, hbegun, -⟩ := hs.stage_of_phase hp
  refine hs.enter ⟨hauth, ?_⟩
  rw [hbegun]
  exact ⟨by simp, .inr id⟩

theorem Sound.respond {event : InventoryEvent} {created : Bool}
    (hs : Sound settings uuid5 jsonb requests first db₀ s) (hp : s.phase i = .handling)
    (ha : s.appends.phase i = .committed event created) :
    Sound settings uuid5 jsonb requests first db₀
      (s.enter i (.answered (appendReply (.ok (event, created))))) := by
  obtain ⟨-, -, hposted | ⟨-, hbegun⟩⟩ : Authenticated settings (requests i) ∧
    (∃ created, s.sight.phase i = .proceeded created) ∧ (Posted settings uuid5 jsonb (requests i) ∨
      (requests i).endpoint ≠ .appendEvent ∧ s.appends.phase i = .begun) := hs.stage_of_phase hp
  · obtain ⟨r, -, -, -, hr, hrow⟩ := ha ▸ hs.appends.established i
    apply hs.enter
    cases created with
    | true =>
      have hevent : event = ((requests i).append uuid5).row.toDomain := by
        rw [← hr, hrow rfl]
        rfl
      exact ⟨hposted, by rw [ha, hevent], by rw [hevent]⟩
    | false => exact ⟨hposted, event, ha, rfl⟩
  · cases ha.symm.trans hbegun

theorem Sound.close {sight : FirstSight} {failure : ConnectionFailure}
    (hs : Sound settings uuid5 jsonb requests first db₀ s) (hp : s.phase i = .opened)
    (h : sight = s.sight ∨
      FirstSight.step (sights uuid5 requests) s.sight (.rollback i) = some sight) :
    Sound settings uuid5 jsonb requests first db₀
      ({ s with sight }.enter i (.disconnected failure)) := by
  obtain ⟨hauth, hbegun⟩ : Authenticated settings (requests i) ∧ s.appends.phase i = .begun :=
    hs.stage_of_phase hp
  have hstage : Stage settings uuid5 jsonb (requests i) (sight.phase i) (s.appends.phase i)
      s.appends.db (.disconnected failure) := by
    rw [hbegun]
    exact ⟨hauth, by simp, .inr id⟩
  rcases h with rfl | h
  · exact hs.enter hstage
  · have hsame : sight.households = s.sight.households := by
      rw [FirstSight.step] at h
      split at h <;> cases h <;> rfl
    have hh : s.appends.db.households = sight.households.map (·.id) := by
      rw [hsame]
      exact hs.households
    exact hs.move (hs.sight.step h).1 hs.appends hh rfl List.prefix_rfl rfl
      (fun j hj => FirstSight.phase_of_ne h hj) (fun _ _ => rfl) hstage

theorem Sound.break_ {appends : AppendState} {failure : ConnectionFailure}
    (hs : Sound settings uuid5 jsonb requests first db₀ s) (hp : s.phase i = .handling)
    (h : AppendState.step (posts uuid5 requests) s.appends (.rollback i) = some appends ∨
      (appends = s.appends ∧ ∀ row, s.appends.phase i ≠ .inserted row)) :
    Sound settings uuid5 jsonb requests first db₀
      ({ s with appends }.enter i (.disconnected failure)) := by
  obtain ⟨hauth, -, hposted⟩ : Authenticated settings (requests i) ∧
    (∃ created, s.sight.phase i = .proceeded created) ∧ (Posted settings uuid5 jsonb (requests i) ∨
      (requests i).endpoint ≠ .appendEvent ∧ s.appends.phase i = .begun) := hs.stage_of_phase hp
  rcases h with h | ⟨rfl, hn⟩
  · have hrolled : appends.phase i = .rolledBack := by
      rw [AppendState.step] at h
      split at h <;> cases h <;> exact Function.update_self ..
    obtain ⟨hh, hproducts⟩ := AppendState.tables_of_step h
    refine hs.move hs.sight (hs.appends.step h) (hh.trans hs.households) hproducts
      (AppendState.events_of_step h) rfl (fun _ _ => rfl)
      (fun j hj => AppendState.phase_of_ne h hj) ?_
    change Stage settings uuid5 jsonb (requests i) (s.sight.phase i) (appends.phase i) appends.db _
    rw [hrolled]
    exact ⟨hauth, by simp, .inr id⟩
  · refine hs.enter ⟨hauth, hn, hposted.imp_right fun hb => ?_⟩
    rw [hb.2]
    exact id

/-- A call that fails answers with a 422 to an unfit event and with a 500 to one that is too
wide. -/
theorem failed_cases {request : InventoryRequest} {db : Db} {e : Failure} (hl : LowerSettled)
    (hw : ∀ c, (UnicodeTables.lowerOf c).length = if c = 'İ' then 2 else 1) (hv : db.Valid)
    (hh : (request.sight uuid5).householdId ∈ db.households)
    (hposted : Posted settings uuid5 jsonb request)
    (h : insertEventIfNew (request.append uuid5).row db = .error e) :
    (appendReply (.error e) = .refused notStored ∧ Unfit request db) ∨
      (appendReply (.error e) = .serverError ∧ UnitTooWide request.body.trimmed.unit) := by
  obtain ⟨-, ha⟩ := accepted_of_validate hposted.accepted
  have hcase : AppendCase jsonb (request.sight uuid5).householdId request.now request.rowId
      request.body.trimmed db _ _ := appendCase_of_storable hl hw hv hh ha hposted.storable
  have hcall : appendIfNew (request.sight uuid5).householdId request.now request.rowId
      request.body.trimmed.toDomain db = .error e := Transaction.bind_of_error h
  rw [Transaction.answer_of_error hcall] at hcase
  have hstatus : (appendReply (.error e)).statusCode = 422 ∨
      (appendReply (.error e)).statusCode = 500 := by
    rcases insertEventIfNew_cases (request.append uuid5).row db with ⟨-, hi⟩ | ⟨-, hi⟩ | ⟨c, -, hi⟩
    · cases hi.symm.trans h
    · cases hi.symm.trans h
    · cases hi.symm.trans h
      change (if c.isIntegrityError then _ else _ : InventoryReply).statusCode = 422 ∨
        (if c.isIntegrityError then _ else _ : InventoryReply).statusCode = 500
      split
      next => exact .inl rfl
      next => exact .inr rfl
  generalize appendReply (.error e) = reply at hcase hstatus
  generalize Transaction.commit _ db = db' at hcase
  cases hcase with
  | unstorable hs => exact absurd hposted.storable hs
  | tooWide hs hu => exact .inr ⟨rfl, hu⟩
  | blank hs hu => exact .inl ⟨rfl, .inl hu⟩
  | unknown hs hu hk hp => exact .inl ⟨rfl, .inr hp⟩
  | own | foreign | new => simp [InventoryReply.statusCode, keyInUse] at hstatus

theorem Sound.append {action : AppendAction} {appends : AppendState} (hl : LowerSettled)
    (hw : ∀ c, (UnicodeTables.lowerOf c).length = if c = 'İ' then 2 else 1)
    (hs : Sound settings uuid5 jsonb requests first db₀ s)
    (hp : s.phase action.index = .handling)
    (he : (requests action.index).endpoint = .appendEvent)
    (h : AppendState.step (posts uuid5 requests) s.appends action = some appends) :
    Sound settings uuid5 jsonb requests first db₀ ({ s with appends }.enter action.index
      (afterAppend (appends.phase action.index))) := by
  obtain ⟨hauth, ⟨created, hc⟩, hposted | ⟨hne, -⟩⟩ :
    Authenticated settings (requests action.index) ∧
    (∃ created, s.sight.phase action.index = .proceeded created) ∧
    (Posted settings uuid5 jsonb (requests action.index) ∨
      (requests action.index).endpoint ≠ .appendEvent ∧ s.appends.phase action.index = .begun) :=
    hs.stage_of_phase hp
  · have hv := hs.appends.valid_db
    obtain ⟨hh, hproducts⟩ := AppendState.tables_of_step h
    have hevents := AppendState.events_of_step h
    refine hs.move hs.sight (hs.appends.step h) (hh.trans hs.households) hproducts hevents rfl
      (fun _ _ => rfl) (fun j hj => AppendState.phase_of_ne h hj) ?_
    change Stage settings uuid5 jsonb (requests action.index) (s.sight.phase action.index)
      (appends.phase action.index) appends.db _
    cases ha : appends.phase action.index with
    | refused => exact .inr (.inl ⟨hposted, rfl, rfl⟩)
    | failed e =>
      have hhome : ((requests action.index).sight uuid5).householdId ∈ s.appends.db.households := by
        obtain ⟨⟨r, hr, hid⟩, -⟩ := hs.sight.supported_of_phase hc
        rw [hs.households,
          show ((requests action.index).sight uuid5).householdId = r.id from hid.symm]
        exact List.mem_map_of_mem hr
      rcases AppendState.failed_of_step h ha with hi | hlookup
      · rcases failed_cases hl hw hv hhome hposted hi with ⟨hr, hu⟩ | ⟨hr, hu⟩
        · have hreply : afterAppend (.failed e) = .answered (.refused notStored) :=
            congrArg ServicePhase.answered hr
          rw [hreply]
          have hstage : Stage settings uuid5 jsonb (requests action.index)
              (s.sight.phase action.index) (.failed e) s.appends.db
              (.answered (.refused notStored)) := .inr (.inr ⟨hposted, rfl, ⟨e, rfl⟩, hu⟩)
          exact hstage.mono hevents hproducts
        · have hreply : afterAppend (.failed e) = .answered .serverError :=
            congrArg ServicePhase.answered hr
          rw [hreply]
          exact .inr ⟨hauth, id, .event he hposted.accepted (.inr hu)⟩
      · obtain ⟨found, hf⟩ := getByIdempotencyKey_ok hv.keys
          (posts uuid5 requests action.index).householdId
          (posts uuid5 requests action.index).event.idempotencyKey
        cases hf.symm.trans hlookup
    | _ => exact ⟨hauth, ⟨created, hc⟩, .inl hposted⟩
  · exact absurd he hne

theorem Sound.step (hl : LowerSettled)
    (hw : ∀ c, (UnicodeTables.lowerOf c).length = if c = 'İ' then 2 else 1)
    (hv : Vouched settings requests) (hs : Sound settings uuid5 jsonb requests first db₀ s)
    (h : InventoryService.step settings uuid5 jsonb requests s action = some s') :
    Sound settings uuid5 jsonb requests first db₀ s' := by
  cases moves_of_step h with
  | authenticated hp => exact hs.authenticate hp
  | unconfigured hp =>
    obtain ⟨hauth, hsight, hbegun⟩ := hs.stage_of_phase hp
    exact hs.enter (.inl ⟨⟨hsight, hbegun⟩, .inr ⟨hauth, rfl⟩⟩)
  | raised hp hr =>
    obtain ⟨hauth, -, hbegun⟩ := hs.stage_of_phase hp
    exact hs.enter (.inr ⟨hauth, AppendPhase.not_writes hbegun, .session hr⟩)
  | homeless hp hsome =>
    obtain ⟨hauth, -⟩ := hs.stage_of_phase hp
    obtain ⟨request, hr⟩ := (sight_of_authenticated hv hauth).1
    cases hr.symm.trans hsome
  | opened hp hsome =>
    obtain ⟨hauth, -, hbegun⟩ := hs.stage_of_phase hp
    exact hs.enter ⟨hauth, hbegun⟩
  | sighted hp ha hsight => exact hs.ensure hv hp ha hsight
  | handled hp hc => exact hs.handle hp hc
  | appended hp he happend => exact hs.append hl hw hp he happend
  | read hp he => exact hs.read hp he
  | replied hp => exact hs.reply hp
  | responded hp ha => exact hs.respond hp ha
  | closed failure hp hsight => exact hs.close hp hsight
  | broken failure hp happend => exact hs.break_ hp happend
  | unanswered failure hp => exact hs.drop hp

end Steps

section Results

variable {first : List HouseholdRow} {db₀ : Db}

/-- The events of the log, and what the answers say of them. -/
structure Accounted (settings : Settings) (uuid5 : UUID → String → UUID) (jsonb : String → Bool)
    (requests : ℕ → InventoryRequest) (db₀ : Db) (s : InventoryService) : Prop where
  /-- A new event is the event of one request, which gets a 201 unless its connection is lost. -/
  writer : ∀ r ∈ s.appends.db.events, r ∉ db₀.events → ∃! i,
    s.appends.phase i = .committed r.toDomain true ∧ Posted settings uuid5 jsonb (requests i) ∧
      r = (posts uuid5 requests i).row ∧ ∀ reply, (s.phase i).reply? = some reply →
        reply = .created (.fromDomain r.toDomain) ∨ ∃ failure, s.phase i = .disconnected failure
  created : ∀ i event, (s.phase i).reply? = some (.created event) →
    Posted settings uuid5 jsonb (requests i) ∧
      (posts uuid5 requests i).row ∈ s.appends.db.events ∧
      (posts uuid5 requests i).row ∉ db₀.events ∧
      event = .fromDomain (posts uuid5 requests i).row.toDomain
  existing : ∀ i event, (s.phase i).reply? = some (.existing event) →
    Posted settings uuid5 jsonb (requests i) ∧ ∃ r ∈ s.appends.db.events,
      event = .fromDomain r.toDomain ∧
      r.idempotencyKey = (posts uuid5 requests i).event.idempotencyKey ∧
      r.householdId = (posts uuid5 requests i).householdId
  conflict : ∀ i, (s.phase i).reply? = some (.refused keyInUse) →
    Posted settings uuid5 jsonb (requests i) ∧ ∃ r ∈ s.appends.db.events,
      r.idempotencyKey = (posts uuid5 requests i).event.idempotencyKey ∧
      r.householdId ≠ (posts uuid5 requests i).householdId
  unfit : ∀ i, (s.phase i).reply? = some (.refused notStored) →
    Posted settings uuid5 jsonb (requests i) ∧ Unfit (requests i) s.appends.db
  /-- A 500 has one of these causes: an exception of the token library or a challenge that cannot be
  sent, a fault of the request, or a lost connection whose exception is not handled. -/
  serverError : ∀ i, (s.phase i).reply? = some .serverError →
    authReply settings (requests i).credentials (requests i).verified = .failed ∨
      Authenticated settings (requests i) ∧ Faulty uuid5 jsonb (requests i) ∨
      s.phase i = .disconnected .other
  /-- A request that is not let through runs no statement. -/
  untouched : ∀ i, ¬ Authenticated settings (requests i) →
    s.sight.phase i = .started ∧ s.appends.phase i = .begun ∧
      (s.phase i = .received ∨ s.phase i = afterAuthentication
        (authReply settings (requests i).credentials (requests i).verified))

theorem statusCode_of_authReply {request : InventoryRequest} {exception : HTTPException}
    (h : authReply settings request.credentials request.verified = .refused exception) :
    exception.statusCode = 401 ∨ exception.statusCode = 503 := by
  replace h := refused_of_authReply h
  unfold getPrincipal at h
  split at h
  next => cases h; exact .inr rfl
  next =>
    split at h
    next => cases h; exact .inl rfl
    next =>
      split at h
      next => cases h
      next e _ =>
        cases he : e.tokenError with
        | none => rw [he] at h; cases h
        | some error => rw [he] at h; cases h; exact .inl rfl

theorem Sound.writer (hs : Sound settings uuid5 jsonb requests first db₀ s)
    {r : InventoryEventRow} (hr : r ∈ s.appends.db.events) (hn : r ∉ db₀.events) : ∃! i,
    s.appends.phase i = .committed r.toDomain true ∧ Posted settings uuid5 jsonb (requests i) ∧
      r = (posts uuid5 requests i).row ∧ ∀ reply, (s.phase i).reply? = some reply →
        reply = .created (.fromDomain r.toDomain) ∨
          ∃ failure, s.phase i = .disconnected failure := by
  obtain ⟨i, hi, hc⟩ := (hs.appends.creators r hr).resolve_left hn
  have hstage := hs.stage i
  have hwrites : (s.appends.phase i).Writes := by
    rw [hc]
    rfl
  have hposted : Posted settings uuid5 jsonb (requests i) ∧
      ∀ reply, (s.phase i).reply? = some reply →
        reply = .created (.fromDomain r.toDomain) ∨
          ∃ failure, s.phase i = .disconnected failure := by
    rw [hc] at hstage hwrites
    cases hp : s.phase i with
    | received => rw [hp] at hstage; cases hstage.2
    | admitted => rw [hp] at hstage; cases hstage.2.2
    | opened => rw [hp] at hstage; cases hstage.2
    | handling =>
      rw [hp] at hstage
      obtain ⟨-, -, h | ⟨-, h⟩⟩ := hstage
      · exact ⟨h, by simp [ServicePhase.reply?]⟩
      · cases h
    | projected reply => rw [hp] at hstage; cases hstage.2.1
    | disconnected failure =>
      rw [hp] at hstage
      obtain ⟨-, -, h | h⟩ := hstage
      · exact ⟨h, fun _ _ => .inr ⟨failure, rfl⟩⟩
      · exact absurd hwrites h
    | answered reply =>
      rw [hp] at hstage
      cases reply with
      | created event =>
        obtain ⟨hposted, -, he⟩ := hstage
        refine ⟨hposted, ?_⟩
        rintro _ ⟨⟩
        left
        rw [he, ← hi]
        rfl
      | existing event => obtain ⟨-, stored, h, -⟩ := hstage; cases h
      | snapshot response => cases hstage.2.1
      | refused exception =>
        rcases hstage with ⟨⟨-, h⟩, -⟩ | ⟨-, -, h⟩ | ⟨-, -, ⟨e, h⟩, -⟩ <;> cases h
      | invalid errors => cases hstage.2.2.2
      | serverError =>
        rcases hstage with ⟨⟨-, h⟩, -⟩ | ⟨-, h, -⟩
        · cases h
        · exact absurd hwrites h
  refine ⟨i, ⟨hc, hposted.1, hi.symm, hposted.2⟩, ?_⟩
  rintro j ⟨hj, -, hrow, -⟩
  by_contra hne
  refine hs.appends.apart j i hne (by rw [hj]; rfl) hwrites ?_
  exact congrArg InventoryEventRow.idempotencyKey (hrow.symm.trans hi.symm)

theorem Sound.refused (hs : Sound settings uuid5 jsonb requests first db₀ s)
    {exception : HTTPException} (hp : s.phase i = .answered (.refused exception))
    (hstatus : exception.statusCode = 409 ∨ exception.statusCode = 422) :
    Posted settings uuid5 jsonb (requests i) ∧
      ((exception = keyInUse ∧ s.appends.phase i = .refused) ∨
        (exception = notStored ∧ Unfit (requests i) s.appends.db)) := by
  rcases hs.stage_of_phase hp with ⟨-, h | ⟨-, rfl⟩⟩ | ⟨hposted, hx, h⟩ | ⟨hposted, hx, -, h⟩
  · rcases statusCode_of_authReply h with hc | hc <;> rw [hc] at hstatus <;> simp at hstatus
  · simp [databaseUnconfigured] at hstatus
  · exact ⟨hposted, .inl ⟨hx, h⟩⟩
  · exact ⟨hposted, .inr ⟨hx, h⟩⟩

theorem Sound.untouched (hs : Sound settings uuid5 jsonb requests first db₀ s)
    (hn : ¬ Authenticated settings (requests i)) :
    s.sight.phase i = .started ∧ s.appends.phase i = .begun ∧
      (s.phase i = .received ∨ s.phase i = afterAuthentication
        (authReply settings (requests i).credentials (requests i).verified)) := by
  have hstage := hs.stage i
  cases hp : s.phase i with
  | received => rw [hp] at hstage; exact ⟨hstage.1, hstage.2, .inl rfl⟩
  | admitted | opened | handling | projected | disconnected =>
    rw [hp] at hstage
    exact absurd hstage.1 hn
  | answered reply =>
    rw [hp] at hstage
    cases reply with
    | created | existing => exact absurd hstage.1.authenticated hn
    | snapshot | invalid => exact absurd hstage.1 hn
    | refused exception =>
      rcases hstage with ⟨⟨h, h'⟩, hg | ⟨ha, -⟩⟩ | ⟨hposted, -⟩ | ⟨hposted, -⟩
      · exact ⟨h, h', .inr (by rw [hg]; rfl)⟩
      · exact absurd ha hn
      · exact absurd hposted.authenticated hn
      · exact absurd hposted.authenticated hn
    | serverError =>
      rcases hstage with ⟨⟨h, h'⟩, hg⟩ | ⟨ha, -⟩
      · exact ⟨h, h', .inr (by rw [hg]; rfl)⟩
      · exact absurd ha hn

theorem Sound.accounted (hs : Sound settings uuid5 jsonb requests first db₀ s) :
    Accounted settings uuid5 jsonb requests db₀ s where
  writer _ hr hn := hs.writer hr hn
  created := by
    intro i event hp
    obtain ⟨hposted, ha, he⟩ := hs.stage_of_phase (ServicePhase.answered_of_reply hp (by simp))
    obtain ⟨r, hr, hk, -, -, hrow⟩ := ha ▸ hs.appends.established i
    obtain rfl := hrow rfl
    exact ⟨hposted, hr, fun hm => hs.appends.fresh i (by rw [ha]; rfl) _ hm hk, he⟩
  existing := by
    intro i event hp
    have hi := ServicePhase.answered_of_reply hp (by simp)
    obtain ⟨hposted, stored, ha, he⟩ := hs.stage_of_phase hi
    obtain ⟨r, hr, hk, hh, rfl, -⟩ := ha ▸ hs.appends.established i
    exact ⟨hposted, r, hr, he, hk, hh⟩
  conflict := by
    intro i hp
    have hp := ServicePhase.answered_of_reply hp (by simp [keyInUse, databaseUnreachable])
    obtain ⟨hposted, ⟨-, ha⟩ | ⟨hx, -⟩⟩ := hs.refused hp (.inl rfl)
    · have he := hs.appends.established i
      rw [ha] at he
      exact ⟨hposted, he⟩
    · cases congrArg HTTPException.statusCode hx
  unfit := by
    intro i hp
    have hp := ServicePhase.answered_of_reply hp (by simp [notStored, databaseUnreachable])
    obtain ⟨hposted, ⟨hx, -⟩ | ⟨-, hu⟩⟩ := hs.refused hp (.inr rfl)
    · cases congrArg HTTPException.statusCode hx
    · exact ⟨hposted, hu⟩
  serverError := by
    intro i hp
    rcases ServicePhase.reply_cases hp with hp | ⟨failure, hp, hf⟩
    · rcases hs.stage_of_phase hp with ⟨-, h⟩ | ⟨hauth, -, h⟩
      · exact .inl h
      · exact .inr (.inl ⟨hauth, h⟩)
    · cases failure with
      | operationalError | interfaceError => cases hf
      | other => exact .inr (.inr hp)
  untouched _ hn := hs.untouched hn

theorem Sound.reach (hl : LowerSettled)
    (hw : ∀ c, (UnicodeTables.lowerOf c).length = if c = 'İ' then 2 else 1)
    (hv : Vouched settings requests) (hs : Sound settings uuid5 jsonb requests first db₀ s)
    (h : Reachable (InventoryService.step settings uuid5 jsonb requests) s s') :
    Sound settings uuid5 jsonb requests first db₀ s' :=
  h.invariant hs fun _ _ _ hs _ hstep => hs.step hl hw hv hstep

end Results

end InventoryService

namespace InventoryService

open TokenVerifier (kitchenSettings)

def memberClaims (subject : String) : Claims :=
  .ofPairs [("iss", .text "https://tenant.example"),
    ("exp", .number (some 2000000000) "2000000000"), ("sub", .text subject)]

/-- What `uuid5` makes of the names of two members. -/
def memberUuid5 (_ : UUID) (name : String) : UUID :=
  if name = "https://tenant.example\nhost" then 1 else 2

def memberRequests [UnicodeTables] (i : ℕ) : InventoryRequest where
  credentials := if i = 3 then none else some "signed"
  verified := toPrincipal kitchenSettings (memberClaims (if i = 2 then "guest" else "host"))
  session := .factory
  endpoint := if i = 4 then .currentSnapshot else .appendEvent
  body := bodyWithUnit " Pack"
  rowId := BitVec.ofNat 128 i
  now := 10 + i
  clock := 100

theorem vouched_memberRequests [UnicodeTables] : Vouched kitchenSettings memberRequests := by
  intro i principal h
  simp only [memberRequests] at h
  exact ⟨_, h⟩

/-- The host's event waits for its commit while it is sent again and the guest uses its key. -/
def appendsAtOnce : List ServiceAction :=
  [.authenticate 3, .authenticate 0, .openSession 0, .readHousehold 0, .insertHousehold 0,
    .commitHousehold 0, .handle 0, .insertEvent 0, .authenticate 1, .openSession 1,
    .readHousehold 1, .handle 1, .authenticate 2, .openSession 2, .readHousehold 2,
    .insertHousehold 2, .commitHousehold 2, .handle 2, .commitEvent 0, .insertEvent 1,
    .insertEvent 2, .lookupEvent 2, .respond 0, .lookupEvent 1, .commitEvent 1, .respond 1]

end InventoryService

end KitchenSense
