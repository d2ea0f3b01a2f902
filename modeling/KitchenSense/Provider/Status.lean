import KitchenSense.Provider.Database

/-! # Reporting the status of the database

A call that meets no exception of SQLAlchemy is one whose factory is made, or
whose failure is that of the vault. Every other call raises that exception, out
of `warm` and `check` as well.
-/

namespace KitchenSense

namespace Database

section Raises

variable {ν ρ : Type} {sa : SqlAlchemy ν ρ} {env : Environment} {db : Database} {url : String}

def RaisesSqlAlchemy (r : Except SessionError ℕ × Database) : Prop :=
  ∃ message, r.1 = .error (.sqlAlchemy message)

theorem raises_build_iff : RaisesSqlAlchemy (db.build sa env url) ↔ ¬ Builds sa env url := by
  unfold Database.build Builds
  cases createEngine sa env url with
  | ok u => simp [RaisesSqlAlchemy]
  | error message => simp [RaisesSqlAlchemy]

end Raises

section Reports

variable {ν ρ : Type} (sa : SqlAlchemy ν ρ) (env : Environment) (cfg : DatabaseSettings)
  [UnicodeTables]

/-- Whatever text there is to resolve comes to an engine, and a vault that gives none is left alone
or fails. -/
def Resolvable (db : Database) (call : VaultCall) : Prop :=
  db.factory ≠ none ∨
    match configuredDatabaseUrl sa env with
    | .error _ => False
    | .ok (some url) => Builds sa env url
    | .ok none => call.now < db.retryNotBefore ∨
      ∀ secret, readSecret cfg call.outcome = .ok secret → WellFormedUrl sa env secret

/-- `warm` and `check` return, and `sessionmaker` returns or changes nothing and reports that the
database is unavailable. -/
structure Reports (db : Database) (call : VaultCall) : Prop where
  warm : ∃ db', db.warm sa env cfg call = (.ok (), db')
  check : ∀ probe, ∃ status db', db.check sa env cfg call probe = (.ok status, db')
  sessionmaker : ∀ error db', db.sessionmaker sa env cfg call = (.error error, db') →
    error.IsUnavailable ∧ db'.source = db.source ∧ db'.factory = db.factory

variable {sa env cfg} {db : Database} {call : VaultCall}

theorem ends_sessionmaker (h : db.factory = none) :
    Ends db (db.sessionmaker sa env cfg call) := by
  rw [sessionmaker_of_none h]
  cases hs : db.startSessionmaker sa env call.now with
  | mk result db' =>
    cases result with
    | some result => exact ends_of_startSessionmaker hs
    | none =>
      obtain ⟨rfl, -⟩ := startSessionmaker_eq_none hs
      exact ends_endSessionmaker db'

theorem raises_endSessionmaker_iff {now : Seconds} {outcome : VaultOutcome} :
    RaisesSqlAlchemy (db.endSessionmaker sa env cfg now outcome) ↔
      ¬ ∀ secret, readSecret cfg outcome = .ok secret → WellFormedUrl sa env secret := by
  unfold endSessionmaker resolveSecret WellFormedUrl
  cases hr : readSecret cfg outcome with
  | error reason => simp [RaisesSqlAlchemy]
  | ok secret =>
    cases hn : normalizeDatabaseUrl sa secret with
    | error message => simp [RaisesSqlAlchemy, Except.mapError, hn]
    | ok url => simp [raises_build_iff, Except.mapError, hn]

/-- A call raises an exception of SQLAlchemy exactly where there is nothing it can resolve. -/
theorem raises_sessionmaker_iff :
    RaisesSqlAlchemy (db.sessionmaker sa env cfg call) ↔ ¬ Resolvable sa env cfg db call := by
  unfold Resolvable
  cases hf : db.factory with
  | some factory => simp [RaisesSqlAlchemy, Database.sessionmaker, hf]
  | none =>
    rw [sessionmaker_of_none hf, startSessionmaker, resolveUrl]
    cases hc : configuredDatabaseUrl sa env with
    | error message => simp [RaisesSqlAlchemy]
    | ok url =>
      cases url with
      | some url => simp [raises_build_iff]
      | none =>
        by_cases hlt : call.now < db.retryNotBefore
        · simp [RaisesSqlAlchemy, hlt]
        · simp [raises_endSessionmaker_iff, hlt]

theorem Reports.of_made {factory : ℕ} {db' : Database}
    (h : db.sessionmaker sa env cfg call = (.ok factory, db')) : Reports sa env cfg db call where
  warm := ⟨db', by rw [Database.warm, h]; rfl⟩
  check probe := ⟨probedStatus cfg db'.source probe, db', by rw [Database.check, h]⟩
  sessionmaker error db'' he := by
    rw [h] at he
    cases he

theorem Reports.of_unavailable {reason : String} {db' : Database}
    (h : db.sessionmaker sa env cfg call = (.error (.unavailable reason), db'))
    (hs : db'.source = db.source) (hf : db'.factory = db.factory) :
    Reports sa env cfg db call where
  warm := ⟨db', by rw [Database.warm, h]; rfl⟩
  check probe := ⟨⟨.notConfigured, db'.source, some reason⟩, db', by rw [Database.check, h]; rfl⟩
  sessionmaker error db'' he := by
    rw [h] at he
    cases he
    exact ⟨trivial, hs, hf⟩

theorem Reports.not_raises (h : Reports sa env cfg db call) :
    ¬ RaisesSqlAlchemy (db.sessionmaker sa env cfg call) := by
  rintro ⟨message, hm⟩
  obtain ⟨db', hw⟩ := h.warm
  have hw : warmed (db.sessionmaker sa env cfg call).1 = .ok () := congrArg Prod.fst hw
  rw [hm] at hw
  cases hw

/-- The status of the database is reported, and `sessionmaker` fails only as it says and without a
trace, exactly where a factory is kept, or the URL of the environment comes to an engine, or there
is none and the vault is left alone, fails, or gives a secret that comes to one. -/
theorem reports_iff : Reports sa env cfg db call ↔ Resolvable sa env cfg db call := by
  constructor
  · intro h
    by_contra hn
    exact h.not_raises (raises_sessionmaker_iff.mpr hn)
  · intro h
    have hn : ¬ RaisesSqlAlchemy (db.sessionmaker sa env cfg call) :=
      fun hr => raises_sessionmaker_iff.mp hr h
    cases hf : db.factory with
    | some factory =>
      have hs : db.sessionmaker sa env cfg call = (.ok factory, db) := by
        rw [Database.sessionmaker, hf]
      exact .of_made hs
    | none =>
      have he : Ends db (db.sessionmaker sa env cfg call) := ends_sessionmaker hf
      cases hs : db.sessionmaker sa env cfg call with
      | mk result db' =>
        rw [hs] at he hn
        cases he with
        | made => exact .of_made hs
        | unavailable reason _ hfactory _ hsource => exact .of_unavailable hs hsource hfactory
        | sqlAlchemy message => exact absurd ⟨message, rfl⟩ hn

end Reports

section Sample

/-- URLs without a query, and engines for the driver of PostgreSQL only. -/
def plainSqlAlchemy : SqlAlchemy String (List Char) where
  makeUrl text :=
    match text.toList.splitOn ':' with
    | name :: rest@(('/' :: '/' :: _) :: _) =>
      .ok ⟨String.ofList name, .empty, [':'].intercalate rest⟩
    | _ => .error "Could not parse SQLAlchemy URL from given URL string"
  renderAsString url := url.drivername ++ ":" ++ String.ofList url.rest
  createAsyncEngine text :=
    if "postgresql+asyncpg:".toList <+: text.toList then .ok ()
    else .error "The asyncio extension requires an async driver to be used."

def noUrl : Environment := ⟨none, none⟩

def thirtySeconds : DatabaseSettings where
  keyVaultUri := "https://vault.example/"
  postgresSecretName := "postgres-connection-string"
  databaseProbeTimeoutSeconds := "5"
  keyVaultRetryCooldownSeconds := 30

def notAUrl : VaultCall := ⟨100, 101, .secret (some "not a url")⟩

/-- A secret that is not a URL changes the source, and its exception leaves `warm`. -/
theorem reports_fails_notAUrl :
    letI := asciiTables
    (Database.initial.sessionmaker plainSqlAlchemy noUrl thirtySeconds notAUrl).2.source =
        .keyVault ∧
      ¬ Reports plainSqlAlchemy noUrl thirtySeconds .initial notAUrl := by
  let _ := asciiTables
  have hs : (Database.initial.sessionmaker plainSqlAlchemy noUrl thirtySeconds notAUrl).1 =
      .error (.sqlAlchemy "Could not parse SQLAlchemy URL from given URL string") := by
    decide +kernel
  exact ⟨by decide +kernel, fun h => h.not_raises ⟨_, hs⟩⟩

end Sample

end Database

end KitchenSense
