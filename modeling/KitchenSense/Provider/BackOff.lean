import KitchenSense.Provider.Calls
import KitchenSense.Provider.Status

/-! # Backing off from the vault

The vault is asked by the holder of the lock, and only where no factory is kept
and the deadline has passed. A lookup that fails moves the deadline, and one that
succeeds makes a factory, which is served until the end of a `dispose`. One that
began before the factory was made takes it away as well.
-/

namespace KitchenSense

namespace Provider

variable {ν ρ : Type} {sa : SqlAlchemy ν ρ} {env : Environment} {cfg : DatabaseSettings}
  {s s' t t' : Provider} {i : ℕ} {action : DatabaseAction} {call : DatabaseCall}
  {p : DatabasePhase} {r : Except SessionError ℕ × Database} {factory : ℕ} {deadline : Seconds}
  {P : Except SessionError ℕ → Prop}

section Ordered

/-- A call that asks the vault holds the lock, and no factory is kept. -/
def Locked (lock factory : Option ℕ) (i : ℕ) (p : DatabasePhase) : Prop :=
  ∀ call, p = .lookingUp call → lock = some i ∧ factory = none

def ClosesMade (enginesMade _ : ℕ) (p : DatabasePhase) : Prop :=
  ∀ engine, p = .disposing engine → engine < enginesMade

structure Ordered (s : Provider) : Prop where
  lock : ∀ i, Locked s.lock s.db.factory i (s.phase i)
  engine : s.db.engine = s.db.factory
  made : ∀ engine, s.db.engine = some engine → engine < s.db.enginesMade
  disposing : ∀ i, ClosesMade s.db.enginesMade i (s.phase i)

theorem Ordered.initial (now : Seconds) : Ordered (initial now) where
  lock _ _ h := by cases h
  engine := rfl
  made _ h := by cases h
  disposing _ _ h := by cases h

theorem Passive.ne_lookingUp (hp : Passive p) : p ≠ .lookingUp call := by
  rintro rfl
  exact hp

theorem Passive.ne_disposing (hp : Passive p) {engine : ℕ} : p ≠ .disposing engine := by
  rintro rfl
  exact hp

theorem Ordered.enter (hs : Ordered s) (hl : Locked s.lock s.db.factory i p)
    (hd : ClosesMade s.db.enginesMade i p) : Ordered (s.enter i p) where
  lock := forall_enter hl fun j _ => hs.lock j
  engine := hs.engine
  made := hs.made
  disposing := forall_enter hd fun j _ => hs.disposing j

theorem Ordered.turn (hs : Ordered s) (hp : Passive p) : Ordered (s.enter i p) :=
  hs.enter (fun _ h => absurd h hp.ne_lookingUp) (fun _ h => absurd h hp.ne_disposing)

theorem Ordered.eq_of_lookingUp (hs : Ordered s) (hi : s.phase i = .lookingUp call) {j : ℕ}
    {call' : DatabaseCall} (hj : s.phase j = .lookingUp call') : j = i := by
  have hlock := (hs.lock i call hi).1.symm.trans (hs.lock j call' hj).1
  exact (Option.some.inj hlock).symm

theorem Ordered.resolve (hs : Ordered s) (hr : Database.Ends s.db r)
    (hn : ∀ j, j ≠ i → ∀ call, s.phase j ≠ .lookingUp call) (l : Option ℕ) :
    Ordered { s.resolve i call r with lock := l } where
  lock := forall_enter (fun _ h => absurd h passive_proceed.ne_lookingUp)
    fun j hj call h => absurd h (hn j hj call)
  engine := hr.engine_eq_factory hs.engine
  made _ h := hr.engine_lt hs.made h
  disposing := forall_enter (fun _ h => absurd h passive_proceed.ne_disposing)
    fun j _ engine h => (hs.disposing j engine h).trans_le hr.enginesMade_le

theorem Ordered.step [UnicodeTables] (hs : Ordered s)
    (h : Provider.step sa env cfg s action = some s') : Ordered s' := by
  have hfree : s.lock = none → ∀ j call, s.phase j ≠ .lookingUp call :=
    fun hl j call hj => by cases hl.symm.trans (hs.lock j call hj).1
  cases moves_of_step h with
  | tick => exact ⟨hs.lock, hs.engine, hs.made, hs.disposing⟩
  | turn hp => exact hs.turn hp
  | @kept action i call factory =>
    have hp : Passive (proceed s.db.source call (.ok factory)) := passive_proceed
    have ht := hs.turn (i := i) hp
    exact ⟨ht.lock, ht.engine, ht.made, ht.disposing⟩
  | settle hl hf hstart =>
    exact hs.resolve (Database.ends_of_startSessionmaker hstart) (fun j _ => hfree hl j) s.lock
  | @ask i call db hl hf hstart =>
    obtain ⟨rfl, -⟩ := Database.startSessionmaker_eq_none hstart
    exact
      { lock := forall_enter (fun _ _ => ⟨rfl, hf⟩) fun j _ call h => absurd h (hfree hl j call)
        engine := hs.engine
        made := hs.made
        disposing := forall_enter (fun _ h => by cases h) fun j _ => hs.disposing j }
  | answer hp =>
    exact hs.resolve (Database.ends_endSessionmaker s.db)
      (fun j hj call h => hj (hs.eq_of_lookingUp hp h)) none
  | dispose he => exact hs.enter (fun _ h => by cases h) (fun _ h => by cases h; exact hs.made _ he)
  | @clear i engine hp =>
    have ht := hs.turn (i := i) (p := .ended .disposed) trivial
    exact ⟨fun j call h => ⟨(ht.lock j call h).1, rfl⟩, rfl, fun _ h => (by cases h), ht.disposing⟩

theorem Ordered.reach [UnicodeTables] {ok : Provider → DatabaseAction → Prop} {now : Seconds}
    (h : Reach (Provider.step sa env cfg) ok (Provider.initial now) s) : Ordered s :=
  h.invariant (.initial now) fun _ _ _ hs _ h => hs.step h

end Ordered

section Unasked

/-- Since `s` no lookup has started, and calls of `sessionmaker` came to what `P` allows. -/
def Unasked (P : Except SessionError ℕ → Prop) (s t : Provider) : Prop :=
  t.lookups = s.lookups ∧ ∃ new, t.results = s.results ++ new ∧ ∀ result ∈ new, P result

theorem Unasked.refl : Unasked P s s := ⟨rfl, [], (List.append_nil _).symm, List.forall_mem_nil P⟩

theorem Unasked.resolve (h : Unasked P s t) (hr : P r.1) : Unasked P s (t.resolve i call r) := by
  obtain ⟨hl, new, hn, hP⟩ := h
  refine ⟨hl, new ++ [r.1], ?_, ?_⟩
  · rw [← List.append_assoc, ← hn]
    rfl
  · intro result hm
    rcases List.mem_append.mp hm with hm | hm
    · exact hP result hm
    · rwa [List.mem_singleton.mp hm]

end Unasked

section Cooling

def Unavailable (result : Except SessionError ℕ) : Prop :=
  ∃ reason, result = .error (.unavailable reason)

/-- Nothing is kept or asked for since `s`, and nothing will be before the deadline. -/
structure Cooling (s : Provider) (deadline : Seconds) (t : Provider) : Prop where
  factory : t.db.factory = none
  deadline : deadline ≤ t.db.retryNotBefore
  idle : ∀ i call, t.phase i ≠ .lookingUp call
  unasked : Unasked Unavailable s t

theorem idle_enter (h : ∀ i call, t.phase i ≠ .lookingUp call) (hp : ∀ call, p ≠ .lookingUp call) :
    ∀ j call, (t.enter i p).phase j ≠ .lookingUp call :=
  forall_enter (Q := fun _ p => ∀ call, p ≠ .lookingUp call) hp fun j _ => h j

/-- A lookup that fails begins a time without lookups. -/
theorem Ordered.cooling [UnicodeTables] (hs : Ordered s) {outcome : VaultOutcome} {reason : String}
    (h : Provider.step sa env cfg s (.vault i outcome) = some s')
    (hr : Database.readSecret cfg outcome = .error reason) :
    Cooling s (s.clock + cfg.keyVaultRetryCooldownSeconds) s' := by
  obtain ⟨call, hp, rfl⟩ := step_vault h
  rw [Database.endSessionmaker_of_failed hr]
  have hu : Unasked Unavailable s (s.resolve i call
      (.error (.unavailable reason), s.db.vaultFailed cfg s.clock reason)) :=
    Unasked.refl.resolve ⟨reason, rfl⟩
  exact
    { factory := (hs.lock i call hp).2
      deadline := le_rfl
      idle := forall_enter (Q := fun _ p => ∀ call, p ≠ .lookingUp call)
        (fun _ => passive_proceed.ne_lookingUp) fun j hj call hj' => hj (hs.eq_of_lookingUp hp hj')
      unasked := hu }

theorem Cooling.step [UnicodeTables] (hc : configuredDatabaseUrl sa env = .ok none)
    (ht : Cooling s deadline t) (hlt : t.clock < deadline)
    (h : Provider.step sa env cfg t action = some t') : Cooling s deadline t' := by
  cases moves_of_step h with
  | tick => exact ⟨ht.factory, ht.deadline, ht.idle, ht.unasked⟩
  | turn hp =>
    exact ⟨ht.factory, ht.deadline, idle_enter ht.idle fun _ => hp.ne_lookingUp, ht.unasked⟩
  | kept hf => cases ht.factory.symm.trans hf
  | settle hl hf hstart =>
    obtain ⟨reason, hwait⟩ :=
      Database.startSessionmaker_of_lt hc (hlt.trans_le ht.deadline)
    cases hwait.symm.trans hstart
    exact ⟨ht.factory, ht.deadline, idle_enter ht.idle fun _ => passive_proceed.ne_lookingUp,
      ht.unasked.resolve ⟨reason, rfl⟩⟩
  | ask hl hf hstart =>
    have hle := (Database.startSessionmaker_eq_none hstart).2.2
    exact absurd (hlt.trans_le ht.deadline) hle.not_gt
  | answer hp => exact absurd hp (ht.idle _ _)
  | dispose he => exact ⟨ht.factory, ht.deadline, idle_enter ht.idle (by simp), ht.unasked⟩
  | clear hp => exact ⟨rfl, ht.deadline, idle_enter ht.idle (by simp), ht.unasked⟩

theorem Cooling.reach [UnicodeTables] {ok : Provider → DatabaseAction → Prop}
    (hc : configuredDatabaseUrl sa env = .ok none) (hs : Cooling s deadline s')
    (h : Reach (Provider.step sa env cfg) ok s' t) (hlt : t.clock < deadline) :
    Cooling s deadline t := by
  refine h.invariant (I := fun t => t.clock < deadline → Cooling s deadline t) (fun _ => hs) ?_ hlt
  intro t₁ action t₂ ih _ hstep hlt
  have hlt : t₁.clock < deadline := (clock_le_of_step hstep).trans_lt hlt
  exact (ih hlt).step hc hlt hstep

end Cooling

section Serving

/-- Since `s` one factory is served, and no call closes its engine. -/
structure Serving (s : Provider) (n : ℕ) (t : Provider) : Prop where
  factory : t.db.factory = some n
  engine : t.db.engine = some n
  idle : ∀ i call, t.phase i ≠ .lookingUp call
  others : ∀ i, t.phase i ≠ .disposing n
  unasked : Unasked (· = .ok n) s t

/-- A call of `dispose`. -/
def IsDispose : DatabaseAction → Prop
  | .dispose _ => True
  | _ => False

instance (action : DatabaseAction) : Decidable (IsDispose action) := by
  cases action <;> unfold IsDispose <;> infer_instance

/-- An engine that has been closed is still the one kept, unless none is. -/
def ClosesKept (s : Provider) : DatabaseAction → Prop
  | .disposed i none => ∀ engine ∈ s.db.engine, s.phase i = .disposing engine
  | _ => True

instance (s : Provider) (action : DatabaseAction) : Decidable (ClosesKept s action) :=
  match action with
  | .disposed _ none => inferInstanceAs (Decidable (∀ engine ∈ s.db.engine, _ = _))
  | .disposed _ (some _) | .tick _ | .call _ _ | .acquire _ | .vault _ _ | .probe _ _
  | .dispose _ => isTrue trivial

theorem Ordered.serving [UnicodeTables] (hs : Ordered s) {outcome : VaultOutcome} {secret : String}
    (h : Provider.step sa env cfg s (.vault i outcome) = some s')
    (hr : Database.readSecret cfg outcome = .ok secret)
    (hw : Database.WellFormedUrl sa env secret) : Serving s s.db.enginesMade s' := by
  obtain ⟨call, hp, rfl⟩ := step_vault h
  have hok : (s.db.endSessionmaker sa env cfg s.clock outcome).1 = .ok s.db.enginesMade :=
    Database.endSessionmaker_of_secret hr hw
  have hends : Database.Ends s.db (s.db.endSessionmaker sa env cfg s.clock outcome) :=
    Database.ends_endSessionmaker s.db
  have hu : Unasked (· = .ok s.db.enginesMade) s
      (s.resolve i call (s.db.endSessionmaker sa env cfg s.clock outcome)) :=
    Unasked.refl.resolve hok
  exact
    { factory := hends.factory_of_ok hok
      engine := (hends.engine_eq_factory hs.engine).trans (hends.factory_of_ok hok)
      idle := forall_enter (Q := fun _ p => ∀ call, p ≠ .lookingUp call)
        (fun _ => passive_proceed.ne_lookingUp) fun j hj call hj' => hj (hs.eq_of_lookingUp hp hj')
      others := forall_enter (Q := fun _ p => p ≠ .disposing s.db.enginesMade)
        passive_proceed.ne_disposing fun j _ hj => absurd (hs.disposing j _ hj) (lt_irrefl _)
      unasked := hu }

theorem Serving.enter (ht : Serving s factory t) (hl : ∀ call, p ≠ .lookingUp call)
    (hd : p ≠ .disposing factory) : Serving s factory (t.enter i p) where
  factory := ht.factory
  engine := ht.engine
  idle := idle_enter ht.idle hl
  others := forall_enter (Q := fun _ p => p ≠ .disposing factory) hd fun j _ => ht.others j
  unasked := ht.unasked

theorem Serving.step [UnicodeTables] (ht : Serving s factory t) (hk : ClosesKept t action)
    (hd : ¬ IsDispose action) (h : Provider.step sa env cfg t action = some t') :
    Serving s factory t' := by
  cases moves_of_step h with
  | tick => exact ⟨ht.factory, ht.engine, ht.idle, ht.others, ht.unasked⟩
  | turn hp => exact ht.enter (fun _ => hp.ne_lookingUp) hp.ne_disposing
  | @kept action i call factory' hf =>
    cases ht.factory.symm.trans hf
    have hp : Passive (proceed t.db.source call (.ok factory)) := passive_proceed
    have he := ht.enter (i := i) (fun _ => hp.ne_lookingUp) hp.ne_disposing
    exact ⟨he.factory, he.engine, he.idle, he.others, ht.unasked.resolve rfl⟩
  | settle hl hf => cases ht.factory.symm.trans hf
  | ask hl hf => cases ht.factory.symm.trans hf
  | answer hp => exact absurd hp (ht.idle _ _)
  | dispose => exact absurd trivial hd
  | clear => exact absurd (hk factory ht.engine) (ht.others _)

/-- A `dispose` that closed another engine than the one kept takes the kept factory away. -/
theorem loses_factory [UnicodeTables] (hs : Ordered s)
    (hk : ¬ ClosesKept s (.disposed i none))
    (h : Provider.step sa env cfg s (.disposed i none) = some s') :
    s.db.factory ≠ none ∧ s'.db.factory = none := by
  unfold ClosesKept at hk
  push Not at hk
  obtain ⟨engine, he, -⟩ := hk
  rw [Provider.step] at h
  cases hp : s.phase i with
  | disposing other =>
    rw [hp] at h
    cases h
    refine ⟨fun hf => ?_, rfl⟩
    cases (hs.engine.symm.trans he).symm.trans hf
  | _ => rw [hp] at h; cases h

end Serving

section BacksOff

variable [UnicodeTables]

/-- The vault ends each lookup with a well-formed URL, an error or a timeout. -/
def VaultAnswers (sa : SqlAlchemy ν ρ) (env : Environment) (cfg : DatabaseSettings) :
    DatabaseAction → Prop
  | .vault _ outcome => ∀ secret, Database.readSecret cfg outcome = .ok secret →
      Database.WellFormedUrl sa env secret
  | _ => True

instance (action : DatabaseAction) : Decidable (VaultAnswers sa env cfg action) :=
  match action with
  | .vault _ outcome =>
    match h : Database.readSecret cfg outcome with
    | .ok secret =>
      decidable_of_iff (Database.WellFormedUrl sa env secret) (by simp [VaultAnswers, h])
    | .error _ => isTrue (by simp [VaultAnswers, h])
  | .tick _ | .call _ _ | .acquire _ | .probe _ _ | .dispose _ | .disposed _ _ => isTrue trivial

/-- How the provider backs off from the vault in the runs whose actions meet a condition. -/
structure BacksOff (sa : SqlAlchemy ν ρ) (env : Environment) (cfg : DatabaseSettings)
    (now : Seconds) (ok : Provider → DatabaseAction → Prop) : Prop where
  /-- After a lookup that failed there is none until the cooldown is over, and every call of
  `sessionmaker` that ends in between finds the database unavailable. -/
  cooldown : configuredDatabaseUrl sa env = .ok none →
    ∀ s s' t i outcome reason, Reach (step sa env cfg) ok (initial now) s →
      ok s (.vault i outcome) → step sa env cfg s (.vault i outcome) = some s' →
      Database.readSecret cfg outcome = .error reason → Reach (step sa env cfg) ok s' t →
      t.clock < s.clock + cfg.keyVaultRetryCooldownSeconds → Unasked Unavailable s t
  /-- After a lookup that succeeded there is none, and every call of `sessionmaker` returns the same
  factory, until `dispose` is called. -/
  served : configuredDatabaseUrl sa env = .ok none →
    ∀ s s' i outcome secret, Reach (step sa env cfg) ok (initial now) s →
      ok s (.vault i outcome) → step sa env cfg s (.vault i outcome) = some s' →
      Database.readSecret cfg outcome = .ok secret → ∃ factory, ∀ t,
        Reach (step sa env cfg) (fun s action => ok s action ∧ ¬ IsDispose action) s' t →
        Unasked (· = .ok factory) s t
  /-- With a URL in the environment no lookup starts. -/
  environment : ∀ url, configuredDatabaseUrl sa env = .ok (some url) →
    ∀ s, Reach (step sa env cfg) ok (initial now) s → s.lookups = []

theorem lookups_step {url : String} (hc : configuredDatabaseUrl sa env = .ok (some url))
    (h : step sa env cfg s action = some s') : s'.lookups = s.lookups := by
  cases moves_of_step h with
  | ask hl hf hstart =>
    have hn := (Database.startSessionmaker_eq_none hstart).2.1
    cases hc.symm.trans hn
  | _ => rfl

/-- The provider backs off in every run in which no `dispose` ends with an engine in place that is
not the one it closed. -/
theorem backs_off (now : Seconds) : BacksOff sa env cfg now
    fun s action => VaultAnswers sa env cfg action ∧ ClosesKept s action where
  cooldown hc _ _ _ _ _ _ hs _ hstep hr ht hlt :=
    (((Ordered.reach hs).cooling hstep hr).reach hc ht hlt).unasked
  served _ s _ _ _ secret hs hok hstep hr := by
    have hserving := (Ordered.reach hs).serving hstep hr (hok.1 secret hr)
    refine ⟨s.db.enginesMade, fun t ht => ?_⟩
    have hrun : Serving s s.db.enginesMade t :=
      ht.invariant hserving fun _ _ _ hserve hok hstep => hserve.step hok.1.2 hok.2 hstep
    exact hrun.unasked
  environment _ hc _ hs :=
    hs.invariant (I := fun s => s.lookups = []) rfl fun _ _ _ ih _ hstep =>
      (lookups_step hc hstep).trans ih

end BacksOff

section Sample

open Database (plainSqlAlchemy noUrl thirtySeconds)

def coldStart : List DatabaseAction :=
  [.call 0 .sessionmaker, .call 1 .warm, .call 2 .check, .acquire 0]

/-- The calls that waited for the lock go on, and one more comes within the cooldown. -/
def burst : List DatabaseAction :=
  [.acquire 2, .acquire 1, .tick 29, .call 3 .sessionmaker, .acquire 3]

/-- A lookup times out, and four calls find the database unavailable. -/
theorem backs_off_burst :
    letI := asciiTables
    ∃ s s' t, exec (guarded (step plainSqlAlchemy noUrl thirtySeconds) fun s action =>
        VaultAnswers plainSqlAlchemy noUrl thirtySeconds action ∧ ClosesKept s action) (initial 0)
          coldStart = some s ∧
      step plainSqlAlchemy noUrl thirtySeconds s (.vault 0 .timedOut) = some s' ∧
      exec (guarded (step plainSqlAlchemy noUrl thirtySeconds) fun s action =>
        VaultAnswers plainSqlAlchemy noUrl thirtySeconds action ∧ ClosesKept s action) s'
          burst = some t ∧
      t.results.length = 4 ∧ Unasked Unavailable s t := by
  let _ := asciiTables
  have hrun : ((exec (guarded (step plainSqlAlchemy noUrl thirtySeconds) fun s action =>
      VaultAnswers plainSqlAlchemy noUrl thirtySeconds action ∧ ClosesKept s action) (initial 0)
        coldStart).bind fun s =>
      (step plainSqlAlchemy noUrl thirtySeconds s (.vault 0 .timedOut)).bind fun s' =>
      (exec (guarded (step plainSqlAlchemy noUrl thirtySeconds) fun s action =>
        VaultAnswers plainSqlAlchemy noUrl thirtySeconds action ∧ ClosesKept s action) s'
          burst).map fun t => (s.clock, t.clock, t.results.length)) = some (0, 29, 4) := by
    decide +kernel
  obtain ⟨s, hs, hrun⟩ := Option.bind_eq_some_iff.mp hrun
  obtain ⟨s', hs', hrun⟩ := Option.bind_eq_some_iff.mp hrun
  obtain ⟨t, ht, hl⟩ := Option.map_eq_some_iff.mp hrun
  obtain ⟨hclock, hl⟩ := Prod.mk.inj hl
  obtain ⟨hnow, hlength⟩ := Prod.mk.inj hl
  have hlt : t.clock < s.clock + thirtySeconds.keyVaultRetryCooldownSeconds := by
    rw [hclock, hnow]
    decide +kernel
  exact ⟨s, s', t, hs, hs', ht, hlength, (backs_off 0).cooldown (by decide +kernel) s s' t 0
    .timedOut _ (Reach.of_exec hs) ⟨by decide +kernel, trivial⟩ hs' rfl (Reach.of_exec ht) hlt⟩

def vaultUrl : VaultOutcome := .secret (some "postgresql://vault@vault-host/kitchensense")

/-- Two calls of `dispose` close the engine of the first lookup, and the second has not ended when
the next call asks the vault again. -/
def disposedTwice : List DatabaseAction :=
  [.call 0 .sessionmaker, .acquire 0, .vault 0 vaultUrl, .dispose 1, .dispose 2, .disposed 1 none,
    .call 3 .sessionmaker, .acquire 3]

/-- The second `dispose` ends and the vault is asked once more. -/
def askedAgain : List DatabaseAction := [.disposed 2 none, .call 4 .sessionmaker, .acquire 4]

/-- A `dispose` called before a lookup ends after it and takes away its factory. -/
theorem backs_off_fails_disposedTwice :
    letI := asciiTables
    ¬ BacksOff plainSqlAlchemy noUrl thirtySeconds 0
      fun _ action => VaultAnswers plainSqlAlchemy noUrl thirtySeconds action := by
  let _ := asciiTables
  intro h
  have hrun : ((exec (guarded (step plainSqlAlchemy noUrl thirtySeconds) fun _ action =>
      VaultAnswers plainSqlAlchemy noUrl thirtySeconds action) (initial 0) disposedTwice).bind
        fun s =>
      (step plainSqlAlchemy noUrl thirtySeconds s (.vault 3 vaultUrl)).bind fun s' =>
      (exec (guarded (step plainSqlAlchemy noUrl thirtySeconds) fun _ action =>
        VaultAnswers plainSqlAlchemy noUrl thirtySeconds action ∧ ¬ IsDispose action) s'
          askedAgain).map fun t => (s.lookups, t.lookups)) = some ([0, 0], [0, 0, 0]) := by
    decide +kernel
  obtain ⟨s, hs, hrun⟩ := Option.bind_eq_some_iff.mp hrun
  obtain ⟨s', hs', hrun⟩ := Option.bind_eq_some_iff.mp hrun
  obtain ⟨t, ht, hl⟩ := Option.map_eq_some_iff.mp hrun
  obtain ⟨hbefore, hafter⟩ := Prod.mk.inj hl
  obtain ⟨factory, hserved⟩ := h.served (by decide +kernel) s s' 3 vaultUrl
    "postgresql://vault@vault-host/kitchensense" (Reach.of_exec hs) (by decide +kernel) hs'
    (by decide +kernel)
  have hsame := (hserved t (Reach.of_exec ht)).1
  rw [hbefore, hafter] at hsame
  cases hsame

end Sample

end Provider

end KitchenSense
