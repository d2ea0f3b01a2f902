import KitchenSense.Domain.Values
import KitchenSense.Provider.Session

/-! # The database provider

A session factory is made once a connection string is known, from the
environment or else from the vault; after a lookup that failed the vault is left
alone for a while. Each call is cut in two where it waits for the vault. A status
is reported whatever the database does, but not for every connection string.
-/

namespace KitchenSense

structure DatabaseSettings where
  keyVaultUri : String
  postgresSecretName : String
  /-- The time limit of the probe, as `:g` writes it. -/
  databaseProbeTimeoutSeconds : String
  keyVaultRetryCooldownSeconds : Seconds

inductive SessionError
  /-- `DatabaseUnavailableError`. -/
  | unavailable (reason : String)
  /-- An exception of SQLAlchemy. -/
  | sqlAlchemy (message : String)
  deriving DecidableEq

def SessionError.IsUnavailable : SessionError → Prop
  | .unavailable _ => True
  | .sqlAlchemy _ => False

inductive UrlSource
  | environment
  | keyVault
  | unresolved
  deriving DecidableEq

inductive Reachability
  | reachable
  | unreachable
  | notConfigured
  deriving DecidableEq

structure DatabaseStatus where
  reachability : Reachability
  source : UrlSource
  detail : Option String
  deriving DecidableEq

/-- The fields of the provider; an engine and its session factory go by the number of the engine. -/
structure Database where
  engine : Option ℕ
  /-- `_sessionmaker`. -/
  factory : Option ℕ
  source : UrlSource
  lastError : Option String
  retryNotBefore : Seconds
  /-- The engines made so far. -/
  enginesMade : ℕ
  deriving DecidableEq

inductive VaultOutcome
  | secret (value : Option String)
  | timedOut
  | failed (reason : String)
  deriving DecidableEq

inductive ProbeOutcome
  | answered
  | timedOut
  | failed (type : String)
  deriving DecidableEq

/-- What a call meets: the clock when it starts and when the vault answers, and the answer. -/
structure VaultCall where
  now : Seconds
  later : Seconds
  outcome : VaultOutcome

/-- What resolving the URL comes to before the vault is asked. -/
inductive Resolving
  | url (url : String)
  | raised (error : SessionError)
  | askVault
  deriving DecidableEq

namespace Database

def initial : Database where
  engine := none
  factory := none
  source := .unresolved
  lastError := none
  retryNotBefore := 0
  enginesMade := 0

def vaultFailed (db : Database) (cfg : DatabaseSettings) (now : Seconds) (reason : String) :
    Database :=
  { db with
    lastError := some reason
    retryNotBefore := now + cfg.keyVaultRetryCooldownSeconds }

def install (db : Database) : Database :=
  { db with
    engine := some db.enginesMade
    factory := some db.enginesMade
    enginesMade := db.enginesMade + 1 }

/-- What `dispose` leaves once the engine is closed. -/
def cleared (db : Database) : Database := { db with engine := none, factory := none }

section Resolution

variable {ν ρ : Type} (sa : SqlAlchemy ν ρ) (env : Environment) (cfg : DatabaseSettings)

def build (db : Database) (url : String) : Except SessionError ℕ × Database :=
  match createEngine sa env url with
  | .ok () => (.ok db.enginesMade, db.install)
  | .error message => (.error (.sqlAlchemy message), db)

/-- `_resolve_url` up to its request to the vault. -/
def resolveUrl (db : Database) (now : Seconds) : Resolving × Database :=
  match configuredDatabaseUrl sa env with
  | .error message => (.raised (.sqlAlchemy message), db)
  | .ok (some url) => (.url url, { db with source := .environment, lastError := none })
  | .ok none =>
    if now < db.retryNotBefore then
      (.raised (.unavailable
        ((nonempty db.lastError).getD "the connection string could not be read")), db)
    else (.askVault, db)

def startSessionmaker (db : Database) (now : Seconds) : Option (Except SessionError ℕ) × Database :=
  match db.resolveUrl sa env now with
  | (.url url, db) =>
    let (result, db) := db.build sa env url
    (some result, db)
  | (.raised error, db) => (some (.error error), db)
  | (.askVault, db) => (none, db)

section Vault

variable [UnicodeTables]

/-- `_read_secret` within its time limit: the secret, or why it cannot be read. -/
def readSecret : VaultOutcome → Except String String
  | .secret value =>
    match nonempty value with
    | some secret => .ok secret
    | none =>
      let name := String.ofList (reprText cfg.postgresSecretName)
      .error ("could not read " ++ name ++ " from " ++ cfg.keyVaultUri ++ ": " ++
        "Key Vault secret " ++ name ++ " is empty")
  | .timedOut => .error ("timed out reading " ++
      String.ofList (reprText cfg.postgresSecretName) ++ " from " ++ cfg.keyVaultUri)
  | .failed reason => .error ("could not read " ++
      String.ofList (reprText cfg.postgresSecretName) ++ " from " ++ cfg.keyVaultUri ++ ": " ++
      reason)

/-- `_resolve_url` from the answer of the vault on. -/
def resolveSecret (db : Database) (now : Seconds) (outcome : VaultOutcome) :
    Except SessionError String × Database :=
  match readSecret cfg outcome with
  | .error reason => (.error (.unavailable reason), db.vaultFailed cfg now reason)
  | .ok secret =>
    ((normalizeDatabaseUrl sa secret).mapError .sqlAlchemy,
      { db with source := .keyVault, lastError := none, retryNotBefore := 0 })

def endSessionmaker (db : Database) (now : Seconds) (outcome : VaultOutcome) :
    Except SessionError ℕ × Database :=
  match db.resolveSecret sa cfg now outcome with
  | (.ok url, db) => db.build sa env url
  | (.error error, db) => (.error error, db)

/-- `sessionmaker()`, when no other call runs. -/
def sessionmaker (db : Database) (call : VaultCall) : Except SessionError ℕ × Database :=
  match db.factory with
  | some factory => (.ok factory, db)
  | none =>
    match db.startSessionmaker sa env call.now with
    | (some result, db) => (result, db)
    | (none, db) => db.endSessionmaker sa env cfg call.later call.outcome

end Vault

end Resolution

/-- What `warm` makes of a call of `sessionmaker`. -/
def warmed : Except SessionError ℕ → Except SessionError Unit
  | .ok _ => .ok ()
  | .error (.unavailable _) => .ok ()
  | .error error => .error error

/-- What `check` makes of a call of `sessionmaker` that raised. -/
def unresolvedStatus (source : UrlSource) : SessionError → Except SessionError DatabaseStatus
  | .unavailable reason => .ok ⟨.notConfigured, source, some reason⟩
  | error => .error error

/-- What `check` makes of the probe. -/
def probedStatus (cfg : DatabaseSettings) (source : UrlSource) : ProbeOutcome → DatabaseStatus
  | .answered => ⟨.reachable, source, none⟩
  | .timedOut =>
    ⟨.unreachable, source, some ("no response within " ++ cfg.databaseProbeTimeoutSeconds ++ "s")⟩
  | .failed type => ⟨.unreachable, source, some type⟩

section Calls

variable {ν ρ : Type} (sa : SqlAlchemy ν ρ) (env : Environment) (cfg : DatabaseSettings)

def warm [UnicodeTables] (db : Database) (call : VaultCall) :
    Except SessionError Unit × Database :=
  let (result, db) := db.sessionmaker sa env cfg call
  (warmed result, db)

def check [UnicodeTables] (db : Database) (call : VaultCall) (probe : ProbeOutcome) :
    Except SessionError DatabaseStatus × Database :=
  match db.sessionmaker sa env cfg call with
  | (.ok _, db) => (.ok (probedStatus cfg db.source probe), db)
  | (.error error, db) => (unresolvedStatus db.source error, db)

def Builds (url : String) : Prop := createEngine sa env url = .ok ()

def WellFormedUrl (text : String) : Prop :=
  ∃ url, normalizeDatabaseUrl sa text = .ok url ∧ Builds sa env url

instance (url : String) : Decidable (Builds sa env url) := inferInstanceAs (Decidable (_ = _))

instance (text : String) : Decidable (WellFormedUrl sa env text) :=
  match h : normalizeDatabaseUrl sa text with
  | .ok url => decidable_of_iff (Builds sa env url) (by simp [WellFormedUrl, h])
  | .error _ => isFalse (by simp [WellFormedUrl, h])

end Calls

section Ends

inductive Ends (db : Database) : Except SessionError ℕ × Database → Prop
  | made {db' : Database} : db'.engine = some db.enginesMade → db'.factory = some db.enginesMade →
      db'.enginesMade = db.enginesMade + 1 → Ends db (.ok db.enginesMade, db')
  | unavailable {db' : Database} (reason : String) : db'.engine = db.engine →
      db'.factory = db.factory → db'.enginesMade = db.enginesMade → db'.source = db.source →
      Ends db (.error (.unavailable reason), db')
  | sqlAlchemy {db' : Database} (message : String) : db'.engine = db.engine →
      db'.factory = db.factory → db'.enginesMade = db.enginesMade →
      Ends db (.error (.sqlAlchemy message), db')

variable {ν ρ : Type} {sa : SqlAlchemy ν ρ} {env : Environment} {cfg : DatabaseSettings}
  {db db' : Database} {now : Seconds} {url : String} {result : Except SessionError ℕ}

section Engines

variable {r : Except SessionError ℕ × Database} (h : Ends db r)
include h

theorem Ends.enginesMade_le : db.enginesMade ≤ r.2.enginesMade := by
  cases h with
  | made _ _ hm => exact hm ▸ Nat.le_succ _
  | unavailable _ _ _ hm => exact hm.ge
  | sqlAlchemy _ _ _ hm => exact hm.ge

theorem Ends.engine_eq_factory (he : db.engine = db.factory) : r.2.engine = r.2.factory := by
  cases h with
  | made hengine hf => exact hengine.trans hf.symm
  | unavailable _ hengine hf => exact hengine.trans (he.trans hf.symm)
  | sqlAlchemy _ hengine hf => exact hengine.trans (he.trans hf.symm)

theorem Ends.engine_lt (he : ∀ engine, db.engine = some engine → engine < db.enginesMade)
    {engine : ℕ} (hr : r.2.engine = some engine) : engine < r.2.enginesMade := by
  cases h with
  | made hengine _ hm =>
    cases hengine.symm.trans hr
    exact hm ▸ Nat.lt_succ_self _
  | unavailable _ hengine _ hm => exact hm ▸ he engine (hengine ▸ hr)
  | sqlAlchemy _ hengine _ hm => exact hm ▸ he engine (hengine ▸ hr)

theorem Ends.factory_of_ok {factory : ℕ} (hr : r.1 = .ok factory) :
    r.2.factory = some factory := by
  cases h with
  | made _ hf => cases hr; exact hf
  | unavailable => cases hr
  | sqlAlchemy => cases hr

end Engines

theorem build_of_builds (h : Builds sa env url) :
    db.build sa env url = (.ok db.enginesMade, db.install) := by
  rw [build, h]

theorem ends_build (he : db'.engine = db.engine) (hf : db'.factory = db.factory)
    (hm : db'.enginesMade = db.enginesMade) : Ends db (db'.build sa env url) := by
  unfold build
  split
  next => rw [hm]; exact .made (hm ▸ rfl) (hm ▸ rfl) (hm ▸ rfl)
  next message _ => exact .sqlAlchemy message he hf hm

theorem ends_of_startSessionmaker
    (h : db.startSessionmaker sa env now = (some result, db')) : Ends db (result, db') := by
  unfold startSessionmaker resolveUrl at h
  cases hc : configuredDatabaseUrl sa env with
  | error message =>
    rw [hc] at h
    cases h
    exact .sqlAlchemy message rfl rfl rfl
  | ok url =>
    rw [hc] at h
    cases url with
    | some url =>
      cases h
      exact ends_build rfl rfl rfl
    | none =>
      by_cases hlt : now < db.retryNotBefore
      · simp only [hlt, if_true] at h
        cases h
        exact .unavailable _ rfl rfl rfl rfl
      · simp [hlt] at h

theorem startSessionmaker_eq_none (h : db.startSessionmaker sa env now = (none, db')) :
    db' = db ∧ configuredDatabaseUrl sa env = .ok none ∧ db.retryNotBefore ≤ now := by
  unfold startSessionmaker resolveUrl at h
  cases hc : configuredDatabaseUrl sa env with
  | error message => rw [hc] at h; cases h
  | ok url =>
    rw [hc] at h
    cases url with
    | some url => cases h
    | none =>
      by_cases hlt : now < db.retryNotBefore
      · simp [hlt] at h
      · simp only [hlt, if_false] at h
        cases h
        exact ⟨rfl, rfl, not_lt.mp hlt⟩

theorem startSessionmaker_of_lt (hc : configuredDatabaseUrl sa env = .ok none)
    (hlt : now < db.retryNotBefore) :
    ∃ reason, db.startSessionmaker sa env now = (some (.error (.unavailable reason)), db) := by
  unfold startSessionmaker resolveUrl
  rw [hc]
  exact ⟨_, by simp only [hlt, if_true]; rfl⟩

section Vault

variable [UnicodeTables] {call : VaultCall} {outcome : VaultOutcome} {reason secret : String}

theorem sessionmaker_of_none (h : db.factory = none) : db.sessionmaker sa env cfg call =
    match db.startSessionmaker sa env call.now with
    | (some result, db) => (result, db)
    | (none, db) => db.endSessionmaker sa env cfg call.later call.outcome := by
  rw [Database.sessionmaker, h]

theorem ends_endSessionmaker (db : Database) :
    Ends db (db.endSessionmaker sa env cfg now outcome) := by
  unfold endSessionmaker resolveSecret
  cases hr : readSecret cfg outcome with
  | error reason => exact .unavailable reason rfl rfl rfl rfl
  | ok secret =>
    dsimp only
    cases hn : normalizeDatabaseUrl sa secret with
    | error message => exact .sqlAlchemy message rfl rfl rfl
    | ok url => exact ends_build rfl rfl rfl

theorem endSessionmaker_of_failed (hr : readSecret cfg outcome = .error reason) :
    db.endSessionmaker sa env cfg now outcome =
      (.error (.unavailable reason), db.vaultFailed cfg now reason) := by
  simp only [endSessionmaker, resolveSecret, hr]

theorem endSessionmaker_of_secret (hr : readSecret cfg outcome = .ok secret)
    (hw : WellFormedUrl sa env secret) :
    (db.endSessionmaker sa env cfg now outcome).1 = .ok db.enginesMade := by
  obtain ⟨url, hn, hb⟩ := hw
  simp only [endSessionmaker, resolveSecret, hr, hn, Except.mapError, build_of_builds hb]

end Vault

end Ends

end Database

end KitchenSense
