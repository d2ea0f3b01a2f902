import Mathlib.Logic.Function.Basic
import KitchenSense.Foundations.Runs
import KitchenSense.Provider.Database

/-! # Concurrent calls of the database provider

Calls run until they wait for the lock, the vault, the database or the engine,
and others run in the meantime. The lock is held while the vault is asked, and
its next holder looks for the factory again; closing the engine takes no lock.
-/

namespace KitchenSense

inductive DatabaseCall
  | sessionmaker
  | warm
  | check
  deriving DecidableEq

inductive DatabaseReply
  | factory (factory : ℕ)
  | warmed
  | status (status : DatabaseStatus)
  | disposed
  | raised (error : SessionError)
  deriving DecidableEq

inductive DatabasePhase
  | idle
  | awaitingLock (call : DatabaseCall)
  /-- The vault is asked, under the lock. -/
  | lookingUp (call : DatabaseCall)
  | probing
  | disposing (engine : ℕ)
  | ended (reply : DatabaseReply)
  deriving DecidableEq

def DatabasePhase.Free : DatabasePhase → Prop
  | .idle | .ended _ => True
  | _ => False

instance (p : DatabasePhase) : Decidable p.Free := by
  cases p <;> unfold DatabasePhase.Free <;> infer_instance

inductive DatabaseAction
  | tick (now : Seconds)
  | call (i : ℕ) (call : DatabaseCall)
  | acquire (i : ℕ)
  | vault (i : ℕ) (outcome : VaultOutcome)
  | probe (i : ℕ) (outcome : ProbeOutcome)
  | dispose (i : ℕ)
  /-- The engine is closed, or closing it raises. -/
  | disposed (i : ℕ) (raised : Option String)

/-- The provider with its lock, the clock, its calls, and what has happened so far. -/
structure Provider where
  db : Database
  lock : Option ℕ
  clock : Seconds
  phase : ℕ → DatabasePhase
  /-- When the lookups in the vault were started, in order. -/
  lookups : List Seconds
  /-- What the calls of `sessionmaker` came to, in order. -/
  results : List (Except SessionError ℕ)

namespace Provider

def initial (now : Seconds) : Provider where
  db := .initial
  lock := none
  clock := now
  phase _ := .idle
  lookups := []
  results := []

def enter (s : Provider) (i : ℕ) (phase : DatabasePhase) : Provider :=
  { s with phase := Function.update s.phase i phase }

def replied {α : Type} (reply : α → DatabaseReply) : Except SessionError α → DatabasePhase
  | .ok a => .ended (reply a)
  | .error error => .ended (.raised error)

/-- How a call goes on that has the result of `sessionmaker`. -/
def proceed (source : UrlSource) : DatabaseCall → Except SessionError ℕ → DatabasePhase
  | .sessionmaker, result => replied .factory result
  | .warm, result => replied (fun _ => .warmed) (Database.warmed result)
  | .check, .ok _ => .probing
  | .check, .error error => replied .status (Database.unresolvedStatus source error)

/-- `sessionmaker` returns or raises in a call. -/
def resolve (s : Provider) (i : ℕ) (call : DatabaseCall)
    (r : Except SessionError ℕ × Database) : Provider :=
  { s.enter i (proceed r.2.source call r.1) with
    db := r.2
    results := s.results ++ [r.1] }

/-- The end of `dispose`. -/
def close (s : Provider) (i : ℕ) : Option String → Provider
  | none => { s.enter i (.ended .disposed) with db := s.db.cleared }
  | some message => s.enter i (.ended (.raised (.sqlAlchemy message)))

variable {ν ρ : Type} (sa : SqlAlchemy ν ρ) (env : Environment) (cfg : DatabaseSettings)

def step [UnicodeTables] (s : Provider) : DatabaseAction → Option Provider
  | .tick now => if s.clock ≤ now then some { s with clock := now } else none
  | .call i call =>
    if ¬ (s.phase i).Free then none
    else match s.db.factory with
      | some factory => some (s.resolve i call (.ok factory, s.db))
      | none => some (s.enter i (.awaitingLock call))
  | .acquire i =>
    if s.lock ≠ none then none
    else match s.phase i with
      | .awaitingLock call =>
        match s.db.factory with
        | some factory => some (s.resolve i call (.ok factory, s.db))
        | none =>
          match s.db.startSessionmaker sa env s.clock with
          | (some result, db) => some (s.resolve i call (result, db))
          | (none, db) => some
            { s.enter i (.lookingUp call) with
              db, lock := some i, lookups := s.lookups ++ [s.clock] }
      | _ => none
  | .vault i outcome =>
    match s.phase i with
    | .lookingUp call =>
      some { s.resolve i call (s.db.endSessionmaker sa env cfg s.clock outcome) with lock := none }
    | _ => none
  | .probe i outcome =>
    match s.phase i with
    | .probing =>
      some (s.enter i (.ended (.status (Database.probedStatus cfg s.db.source outcome))))
    | _ => none
  | .dispose i =>
    if ¬ (s.phase i).Free then none
    else match s.db.engine with
      | some engine => some (s.enter i (.disposing engine))
      | none => some (s.enter i (.ended .disposed))
  | .disposed i raised =>
    match s.phase i with
    | .disposing _ => some (s.close i raised)
    | _ => none

section Moves

def Passive : DatabasePhase → Prop
  | .lookingUp _ | .disposing _ => False
  | _ => True

theorem passive_replied {α : Type} {reply : α → DatabaseReply} {result : Except SessionError α} :
    Passive (replied reply result) := by
  cases result <;> trivial

theorem passive_proceed {source : UrlSource} {call : DatabaseCall}
    {result : Except SessionError ℕ} : Passive (proceed source call result) := by
  cases call with
  | sessionmaker => exact passive_replied
  | warm => exact passive_replied
  | check =>
    cases result with
    | ok factory => trivial
    | error error => exact passive_replied

/-- What a step does, with the conditions under which it is taken. -/
inductive Moves [UnicodeTables] (s : Provider) : DatabaseAction → Provider → Prop
  | tick {now : Seconds} : s.clock ≤ now → Moves s (.tick now) { s with clock := now }
  | turn {action : DatabaseAction} {i : ℕ} {p : DatabasePhase} : Passive p →
      Moves s action (s.enter i p)
  | kept {action : DatabaseAction} {i : ℕ} {call : DatabaseCall} {factory : ℕ} :
      s.db.factory = some factory → Moves s action (s.resolve i call (.ok factory, s.db))
  | settle {i : ℕ} {call : DatabaseCall} {result : Except SessionError ℕ} {db : Database} :
      s.lock = none → s.db.factory = none →
      s.db.startSessionmaker sa env s.clock = (some result, db) →
      Moves s (.acquire i) (s.resolve i call (result, db))
  | ask {i : ℕ} {call : DatabaseCall} {db : Database} : s.lock = none → s.db.factory = none →
      s.db.startSessionmaker sa env s.clock = (none, db) →
      Moves s (.acquire i) { s.enter i (.lookingUp call) with
        db, lock := some i, lookups := s.lookups ++ [s.clock] }
  | answer {i : ℕ} {call : DatabaseCall} {outcome : VaultOutcome} :
      s.phase i = .lookingUp call →
      Moves s (.vault i outcome)
        { s.resolve i call (s.db.endSessionmaker sa env cfg s.clock outcome) with lock := none }
  | dispose {i engine : ℕ} : s.db.engine = some engine →
      Moves s (.dispose i) (s.enter i (.disposing engine))
  | clear {i engine : ℕ} : s.phase i = .disposing engine →
      Moves s (.disposed i none) { s.enter i (.ended .disposed) with db := s.db.cleared }

variable {sa env cfg} {s s' : Provider} {action : DatabaseAction}

theorem moves_of_step [UnicodeTables] (h : step sa env cfg s action = some s') :
    Moves sa env cfg s action s' := by
  cases action with
  | tick now =>
    rw [step, Option.ite_none_right_eq_some] at h
    obtain ⟨hn, ⟨⟩⟩ := h
    exact .tick hn
  | call i call =>
    rw [step, Option.ite_none_left_eq_some] at h
    obtain ⟨-, h⟩ := h
    cases hf : s.db.factory with
    | some factory => rw [hf] at h; cases h; exact .kept hf
    | none => rw [hf] at h; cases h; exact .turn trivial
  | acquire i =>
    rw [step, Option.ite_none_left_eq_some] at h
    obtain ⟨hl, h⟩ := h
    have hl : s.lock = none := not_not.mp hl
    cases hp : s.phase i with
    | awaitingLock call =>
      rw [hp] at h
      cases hf : s.db.factory with
      | some factory => rw [hf] at h; cases h; exact .kept hf
      | none =>
        rw [hf] at h
        cases hs : s.db.startSessionmaker sa env s.clock with
        | mk result db =>
          rw [hs] at h
          cases result with
          | some result => cases h; exact .settle hl hf hs
          | none => cases h; exact .ask hl hf hs
    | _ => rw [hp] at h; cases h
  | vault i outcome =>
    rw [step] at h
    cases hp : s.phase i with
    | lookingUp call => rw [hp] at h; cases h; exact .answer hp
    | _ => rw [hp] at h; cases h
  | probe i outcome =>
    rw [step] at h
    cases hp : s.phase i with
    | probing => rw [hp] at h; cases h; exact .turn trivial
    | _ => rw [hp] at h; cases h
  | dispose i =>
    rw [step, Option.ite_none_left_eq_some] at h
    obtain ⟨-, h⟩ := h
    cases he : s.db.engine with
    | some engine => rw [he] at h; cases h; exact .dispose he
    | none => rw [he] at h; cases h; exact .turn trivial
  | disposed i raised =>
    rw [step] at h
    cases hp : s.phase i with
    | disposing engine =>
      rw [hp] at h
      cases raised with
      | none => cases h; exact .clear hp
      | some message => cases h; exact .turn trivial
    | _ => rw [hp] at h; cases h

theorem forall_enter {Q : ℕ → DatabasePhase → Prop} {i : ℕ} {p : DatabasePhase} (hi : Q i p)
    (hj : ∀ j, j ≠ i → Q j (s.phase j)) (j : ℕ) : Q j ((s.enter i p).phase j) :=
  (Function.forall_update_iff s.phase Q).mpr ⟨hi, hj⟩ j

theorem step_vault [UnicodeTables] {i : ℕ} {outcome : VaultOutcome}
    (h : step sa env cfg s (.vault i outcome) = some s') :
    ∃ call, s.phase i = .lookingUp call ∧ s' =
      { s.resolve i call (s.db.endSessionmaker sa env cfg s.clock outcome) with lock := none } := by
  rw [step] at h
  cases hp : s.phase i with
  | lookingUp call => rw [hp] at h; cases h; exact ⟨call, rfl, rfl⟩
  | _ => rw [hp] at h; cases h

theorem clock_le_of_step [UnicodeTables] (h : step sa env cfg s action = some s') :
    s.clock ≤ s'.clock := by
  cases moves_of_step h with
  | tick hn => exact hn
  | _ => exact le_rfl

end Moves

section Alone

variable [UnicodeTables] {sa env cfg} {s : Provider} {i : ℕ} {call : DatabaseCall} {db : Database}

theorem step_kept {factory : ℕ} (hp : (s.phase i).Free) (hf : s.db.factory = some factory) :
    step sa env cfg s (.call i call) = some (s.resolve i call (.ok factory, s.db)) := by
  rw [step, if_neg (not_not.mpr hp), hf]

theorem step_wait (hp : (s.phase i).Free) (hf : s.db.factory = none) :
    step sa env cfg s (.call i call) = some (s.enter i (.awaitingLock call)) := by
  rw [step, if_neg (not_not.mpr hp), hf]

theorem step_settle {result : Except SessionError ℕ} (hl : s.lock = none)
    (hp : s.phase i = .awaitingLock call) (hf : s.db.factory = none)
    (hs : s.db.startSessionmaker sa env s.clock = (some result, db)) :
    step sa env cfg s (.acquire i) = some (s.resolve i call (result, db)) := by
  rw [step, if_neg (not_not.mpr hl), hp]
  simp only [hf, hs]

theorem step_ask (hl : s.lock = none) (hp : s.phase i = .awaitingLock call)
    (hf : s.db.factory = none) (hs : s.db.startSessionmaker sa env s.clock = (none, db)) :
    step sa env cfg s (.acquire i) = some { s.enter i (.lookingUp call) with
      db, lock := some i, lookups := s.lookups ++ [s.clock] } := by
  rw [step, if_neg (not_not.mpr hl), hp]
  simp only [hf, hs]

theorem step_answer {outcome : VaultOutcome} (hp : s.phase i = .lookingUp call) :
    step sa env cfg s (.vault i outcome) = some
      { s.resolve i call (s.db.endSessionmaker sa env cfg s.clock outcome) with lock := none } := by
  rw [step, hp]

/-- A call while no other holds the lock and nothing else happens comes to what `sessionmaker`
does on its own. -/
theorem exec_alone (hl : s.lock = none) (hp : (s.phase i).Free) {later : Seconds}
    (hle : s.clock ≤ later) (outcome : VaultOutcome) :
    ∃ actions t, exec (step sa env cfg) s actions = some t ∧
      let r := s.db.sessionmaker sa env cfg ⟨s.clock, later, outcome⟩
      t.db = r.2 ∧ t.results = s.results ++ [r.1] ∧ t.lock = none ∧
        t.phase i = proceed r.2.source call r.1 := by
  cases hf : s.db.factory with
  | some factory =>
    have hr : s.db.sessionmaker sa env cfg ⟨s.clock, later, outcome⟩ = (.ok factory, s.db) := by
      rw [Database.sessionmaker, hf]
    refine ⟨[.call i call], _, exec_cons (step_kept hp hf) rfl, ?_⟩
    rw [hr]
    exact ⟨rfl, rfl, hl, Function.update_self ..⟩
  | none =>
    have hwait : step sa env cfg s (.call i call) = some (s.enter i (.awaitingLock call)) :=
      step_wait hp hf
    cases hs : s.db.startSessionmaker sa env s.clock with
    | mk result db =>
      cases result with
      | some result =>
        have hr : s.db.sessionmaker sa env cfg ⟨s.clock, later, outcome⟩ = (result, db) := by
          rw [Database.sessionmaker_of_none hf, hs]
        rw [hr]
        refine ⟨[.call i call, .acquire i], _, exec_cons hwait
          (exec_cons (step_settle hl (Function.update_self ..) hf hs) rfl), ?_⟩
        exact ⟨rfl, rfl, hl, Function.update_self ..⟩
      | none =>
        have hr : s.db.sessionmaker sa env cfg ⟨s.clock, later, outcome⟩ =
            db.endSessionmaker sa env cfg later outcome := by
          rw [Database.sessionmaker_of_none hf, hs]
        rw [hr]
        refine ⟨[.call i call, .acquire i, .tick later, .vault i outcome], _, exec_cons hwait
          (exec_cons (step_ask hl (Function.update_self ..) hf hs)
            (exec_cons (if_pos hle) (exec_cons (step_answer (Function.update_self ..)) rfl))), ?_⟩
        exact ⟨rfl, rfl, rfl, Function.update_self ..⟩

end Alone

end Provider

end KitchenSense
