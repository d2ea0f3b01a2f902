import Mathlib.Logic.Function.Basic
import KitchenSense.Foundations.Runs
import KitchenSense.Repositories.Effects

/-! # Idempotent appends under contention

An idempotent append inserts its row unless its key is taken, looks the key up
among the events of its household if it is, and commits. An insert whose key
or id is held by an uncommitted row waits for the transaction that wrote it.
-/

namespace KitchenSense

open InventoryEventRepository

/-- A call of `append_if_new`, with the id and the time the database would give its row. -/
structure AppendRequest where
  householdId : UUID
  now : Instant
  id : UUID
  event : NewInventoryEvent

inductive AppendPhase
  | begun
  | inserted (row : InventoryEventRow)
  /-- The insert did nothing, because its key is taken. -/
  | conflicted
  | found (event : InventoryEvent)
  /-- `IdempotencyKeyConflictError`. -/
  | refused
  | committed (event : InventoryEvent) (created : Bool)
  | rolledBack
  | failed (failure : Failure)
  deriving DecidableEq

def AppendPhase.Writes : AppendPhase → Prop
  | .inserted _ => True
  | .committed _ created => created = true
  | _ => False

/-- The committed tables, the rows inserted by open transactions, and the calls. -/
structure AppendState where
  db : Db
  uncommitted : List InventoryEventRow
  phase : ℕ → AppendPhase

inductive AppendAction
  | insert (i : ℕ)
  | lookup (i : ℕ)
  | commit (i : ℕ)
  | rollback (i : ℕ)

namespace AppendState

def initial (db : Db) : AppendState where
  db := db
  uncommitted := []
  phase _ := .begun

def enter (s : AppendState) (i : ℕ) (phase : AppendPhase) : AppendState :=
  { s with phase := Function.update s.phase i phase }

@[simp] theorem enter_phase (s : AppendState) (i : ℕ) (p : AppendPhase) :
    (s.enter i p).phase = Function.update s.phase i p := rfl

theorem writes_enter {s s' : AppendState} {i j : ℕ} {p : AppendPhase}
    (hp : s'.phase = Function.update s.phase i p) (hw : (s'.phase j).Writes) :
    (j = i ∧ p.Writes) ∨ (j ≠ i ∧ (s.phase j).Writes) := by
  rw [hp] at hw
  by_cases h : j = i
  · rw [h, Function.update_self] at hw
    exact .inl ⟨h, hw⟩
  · rw [Function.update_of_ne h] at hw
    exact .inr ⟨h, hw⟩

end AppendState

section Calls

variable [UnicodeTables]

def AppendRequest.row (request : AppendRequest) : InventoryEventRow :=
  toValues request.householdId request.id request.now request.event

namespace AppendState

def blocks (row r : InventoryEventRow) : Bool :=
  r.idempotencyKey = row.idempotencyKey ∨ r.id = row.id

variable (requests : ℕ → AppendRequest)

def step (s : AppendState) : AppendAction → Option AppendState
  | .insert i =>
    match s.phase i with
    | .begun =>
      let row := (requests i).row
      if s.uncommitted.any (blocks row) then
        none
      else
        match insertEventIfNew row s.db with
        | .ok (true, _) => some { s.enter i (.inserted row) with
            uncommitted := s.uncommitted ++ [row] }
        | .ok (false, _) => some (s.enter i .conflicted)
        | .error e => some (s.enter i (.failed e))
    | _ => none
  | .lookup i =>
    match s.phase i with
    | .conflicted =>
      match getByIdempotencyKey s.db.events (requests i).householdId
          (requests i).event.idempotencyKey with
      | .ok (some event) => some (s.enter i (.found event))
      | .ok none => some (s.enter i .refused)
      | .error e => some (s.enter i (.failed e))
    | _ => none
  | .commit i =>
    match s.phase i with
    | .inserted row => some { s.enter i (.committed row.toDomain true) with
        db := s.db.addEvents [row]
        uncommitted := s.uncommitted.erase row }
    | .found event => some (s.enter i (.committed event false))
    | _ => none
  | .rollback i =>
    match s.phase i with
    | .begun => some (s.enter i .rolledBack)
    | .inserted row => some { s.enter i .rolledBack with
        uncommitted := s.uncommitted.erase row }
    | .conflicted => some (s.enter i .rolledBack)
    | .found _ => some (s.enter i .rolledBack)
    | _ => none

variable {requests} {s s' : AppendState} {action : AppendAction}

def Established (s : AppendState) (request : AppendRequest) : AppendPhase → Prop
  | .inserted row => row = request.row ∧ row ∈ s.uncommitted
  | .conflicted => ∃ r ∈ s.db.events, r.idempotencyKey = request.event.idempotencyKey
  | .found event => ∃ r ∈ s.db.events, r.idempotencyKey = request.event.idempotencyKey ∧
      r.householdId = request.householdId ∧ r.toDomain = event
  | .refused => ∃ r ∈ s.db.events, r.idempotencyKey = request.event.idempotencyKey ∧
      r.householdId ≠ request.householdId
  | .committed event created => ∃ r ∈ s.db.events,
      r.idempotencyKey = request.event.idempotencyKey ∧
      r.householdId = request.householdId ∧ r.toDomain = event ∧ (created → r = request.row)
  | _ => True

/-- The phase a step leads to, and what it changes: nothing else, an uncommitted row or the log. -/
theorem step_cases (h : step requests s action = some s') :
    ∃ i p, s'.phase = Function.update s.phase i p ∧
      ((p = .inserted (requests i).row ∧ s.phase i = .begun ∧ Admissible s.db (requests i).row ∧
          s.uncommitted.any (blocks (requests i).row) = false ∧ s'.db = s.db ∧
          s'.uncommitted = s.uncommitted ++ [(requests i).row]) ∨
        (¬ p.Writes ∧ ¬ (s.phase i).Writes ∧
          (s.Established (requests i) (s.phase i) → s.Established (requests i) p) ∧
          s'.db = s.db ∧ s'.uncommitted = s.uncommitted) ∨
        ∃ row, s.phase i = .inserted row ∧ s'.uncommitted = s.uncommitted.erase row ∧
          ((p = .committed row.toDomain true ∧ s'.db = s.db.addEvents [row]) ∨
            (p = .rolledBack ∧ s'.db = s.db))) := by
  cases action with
  | insert i =>
    rw [step] at h
    cases hp : s.phase i with
    | begun =>
      rw [hp] at h
      simp only [Option.ite_none_left_eq_some, Bool.not_eq_true] at h
      obtain ⟨hb, h⟩ := h
      rcases insertEventIfNew_cases (requests i).row s.db with ⟨ha, hi⟩ | ⟨hk, hi⟩ | ⟨c, -, hi⟩
      · rw [hi] at h
        cases h
        exact ⟨i, _, rfl, .inl ⟨rfl, hp, ha, hb, rfl, rfl⟩⟩
      · rw [hi] at h
        cases h
        exact ⟨i, .conflicted, rfl, .inr (.inl ⟨nofun, by rw [hp]; nofun, fun _ => hk, rfl, rfl⟩)⟩
      · rw [hi] at h
        cases h
        exact ⟨i, .failed (.event c), rfl,
          .inr (.inl ⟨nofun, by rw [hp]; nofun, fun _ => trivial, rfl, rfl⟩)⟩
    | _ => rw [hp] at h; cases h
  | lookup i =>
    rw [step] at h
    cases hp : s.phase i with
    | conflicted =>
      rw [hp] at h
      cases hg : getByIdempotencyKey s.db.events (requests i).householdId
          (requests i).event.idempotencyKey with
      | error e =>
        simp only [hg] at h
        cases h
        exact ⟨i, .failed e, rfl,
          .inr (.inl ⟨nofun, by rw [hp]; nofun, fun _ => trivial, rfl, rfl⟩)⟩
      | ok found =>
        cases found with
        | none =>
          simp only [hg] at h
          cases h
          refine ⟨i, .refused, rfl, .inr (.inl ⟨nofun, by rw [hp]; nofun, ?_, rfl, rfl⟩)⟩
          rw [hp]
          rintro ⟨r, hm, hk⟩
          exact ⟨r, hm, hk, forall_of_getByIdempotencyKey hg r hm hk⟩
        | some event =>
          simp only [hg] at h
          cases h
          obtain ⟨r, hm, hh, hk, he⟩ := mem_of_getByIdempotencyKey hg
          exact ⟨i, .found event, rfl, .inr (.inl ⟨nofun, by rw [hp]; nofun,
            fun _ => ⟨r, hm, hk, hh, he⟩, rfl, rfl⟩)⟩
    | _ => rw [hp] at h; cases h
  | commit i =>
    rw [step] at h
    cases hp : s.phase i with
    | inserted row =>
      rw [hp] at h
      cases h
      exact ⟨i, _, rfl, .inr (.inr ⟨row, hp, rfl, .inl ⟨rfl, rfl⟩⟩)⟩
    | found event =>
      rw [hp] at h
      cases h
      refine ⟨i, .committed event false, rfl, .inr (.inl ⟨nofun, by rw [hp]; nofun, ?_, rfl, rfl⟩)⟩
      rw [hp]
      rintro ⟨r, hm, hk, hh, he⟩
      exact ⟨r, hm, hk, hh, he, nofun⟩
    | _ => rw [hp] at h; cases h
  | rollback i =>
    rw [step] at h
    cases hp : s.phase i with
    | inserted row =>
      rw [hp] at h
      cases h
      exact ⟨i, _, rfl, .inr (.inr ⟨row, hp, rfl, .inr ⟨rfl, rfl⟩⟩)⟩
    | begun | conflicted | found =>
      rw [hp] at h
      cases h
      exact ⟨i, .rolledBack, rfl,
        .inr (.inl ⟨nofun, by rw [hp]; nofun, fun _ => trivial, rfl, rfl⟩)⟩
    | _ => rw [hp] at h; cases h

section Alone

def outcome : Except Failure (InventoryEvent × Bool) → AppendPhase
  | .ok (event, created) => .committed event created
  | .error (.idempotencyKeyConflict _) => .refused
  | .error e => .failed e

theorem step_insert (requests : ℕ → AppendRequest) {i : ℕ} (hp : s.phase i = .begun)
    (hu : s.uncommitted = []) :
    step requests s (.insert i) = match insertEventIfNew (requests i).row s.db with
      | .ok (true, _) => some { s.enter i (.inserted (requests i).row) with
          uncommitted := [(requests i).row] }
      | .ok (false, _) => some (s.enter i .conflicted)
      | .error e => some (s.enter i (.failed e)) := by
  rw [step, hp, hu]
  rfl

theorem step_lookup (requests : ℕ → AppendRequest) {i : ℕ} (hp : s.phase i = .conflicted) :
    step requests s (.lookup i) = match getByIdempotencyKey s.db.events (requests i).householdId
        (requests i).event.idempotencyKey with
      | .ok (some event) => some (s.enter i (.found event))
      | .ok none => some (s.enter i .refused)
      | .error e => some (s.enter i (.failed e)) := by
  rw [step, hp]

theorem step_commit {i : ℕ} {row : InventoryEventRow} (hp : s.phase i = .inserted row) :
    step requests s (.commit i) = some { s.enter i (.committed row.toDomain true) with
      db := s.db.addEvents [row]
      uncommitted := s.uncommitted.erase row } := by
  rw [step, hp]

theorem step_commit_of_found {i : ℕ} {event : InventoryEvent} (hp : s.phase i = .found event) :
    step requests s (.commit i) = some (s.enter i (.committed event false)) := by
  rw [step, hp]

/-- A call whose steps are not interleaved runs the repository's `append_if_new`. -/
theorem exec_alone {i : ℕ} {call : Tx (InventoryEvent × Bool)}
    (hcall : call = appendIfNew (requests i).householdId (requests i).now (requests i).id
      (requests i).event) (hp : s.phase i = .begun) (hu : s.uncommitted = []) :
    ∃ actions s', exec (step requests) s actions = some s' ∧ s'.db = call.commit s.db ∧
      s'.phase i = outcome (call.answer s.db) := by
  have hinsert := step_insert requests hp hu
  rcases insertEventIfNew_cases (requests i).row s.db with ⟨ha, hi⟩ | ⟨-, hi⟩ | ⟨c, -, hi⟩
  · have h := hcall ▸ appendIfNew_of_admissible ha
    rw [hi] at hinsert
    refine ⟨_, _, exec_cons hinsert
      (exec_cons (step_commit (Function.update_self ..)) (exec_nil _)), ?_, ?_⟩
    · rw [Transaction.commit_of_ok h]; rfl
    · rw [Transaction.answer_of_ok h]; exact Function.update_self ..
  · have h := hcall ▸ appendIfNew_of_conflict hi
    rw [hi] at hinsert
    have hconflicted : (s.enter i .conflicted).phase i = .conflicted := Function.update_self ..
    have hlookup := step_lookup requests hconflicted
    cases hg : getByIdempotencyKey s.db.events (requests i).householdId
        (requests i).event.idempotencyKey with
    | error e =>
      rw [hg] at h
      simp only [enter, hg] at hlookup
      refine ⟨_, _, exec_cons hinsert (exec_cons hlookup (exec_nil _)), ?_, ?_⟩
      · rw [Transaction.commit_of_error h]
      · rw [Transaction.answer_of_error h, getByIdempotencyKey_error hg]
        exact Function.update_self ..
    | ok found =>
      cases found with
      | none =>
        rw [hg] at h
        simp only [enter, hg] at hlookup
        refine ⟨_, _, exec_cons hinsert (exec_cons hlookup (exec_nil _)), ?_, ?_⟩
        · rw [Transaction.commit_of_error h]
        · rw [Transaction.answer_of_error h]
          exact Function.update_self ..
      | some event =>
        rw [hg] at h
        simp only [enter, hg] at hlookup
        refine ⟨_, _, exec_cons hinsert (exec_cons hlookup
          (exec_cons (step_commit_of_found (Function.update_self ..)) (exec_nil _))), ?_, ?_⟩
        · rw [Transaction.commit_of_ok h]; rfl
        · rw [Transaction.answer_of_ok h]
          exact Function.update_self ..
  · have h : call s.db = .error (.event c) := hcall ▸ Transaction.bind_of_error hi
    rw [hi] at hinsert
    refine ⟨_, _, exec_cons hinsert (exec_nil _), ?_, ?_⟩
    · rw [Transaction.commit_of_error h]; rfl
    · rw [Transaction.answer_of_error h]; exact Function.update_self ..

end Alone

section Invariant

theorem Established.mono {request : AppendRequest} {phase : AppendPhase}
    (h : s.Established request phase) (hs : s.db.events ⊆ s'.db.events)
    (hu : ∀ row, phase = .inserted row → row ∈ s.uncommitted → row ∈ s'.uncommitted) :
    s'.Established request phase := by
  cases phase with
  | inserted row => exact ⟨h.1, hu row rfl h.2⟩
  | conflicted =>
    obtain ⟨r, hm, hr⟩ := h
    exact ⟨r, hs hm, hr⟩
  | found event =>
    obtain ⟨r, hm, hr⟩ := h
    exact ⟨r, hs hm, hr⟩
  | refused =>
    obtain ⟨r, hm, hr⟩ := h
    exact ⟨r, hs hm, hr⟩
  | committed event created =>
    obtain ⟨r, hm, hr⟩ := h
    exact ⟨r, hs hm, hr⟩
  | begun | rolledBack | failed => trivial

theorem Established.row_mem {request : AppendRequest} {phase : AppendPhase}
    (h : s.Established request phase) (hw : phase.Writes) :
    request.row ∈ s.db.events ++ s.uncommitted := by
  cases phase with
  | inserted row => exact List.mem_append_right _ (h.1 ▸ h.2)
  | committed event created =>
    obtain ⟨r, hm, -, -, -, hr⟩ := h
    exact List.mem_append_left _ (hr hw ▸ hm)
  | begun | conflicted | found | refused | rolledBack | failed => exact hw.elim

/-- What holds in every state that calls reach from the tables `db₀`. -/
structure Sound (requests : ℕ → AppendRequest) (db₀ : Db) (s : AppendState) : Prop where
  valid : (s.db.addEvents s.uncommitted).Valid
  grown : db₀.events <+: s.db.events
  established : ∀ i, s.Established (requests i) (s.phase i)
  apart : ∀ i j, i ≠ j → (s.phase i).Writes → (s.phase j).Writes →
    (requests i).event.idempotencyKey ≠ (requests j).event.idempotencyKey
  fresh : ∀ i, (s.phase i).Writes → ∀ r ∈ db₀.events,
    r.idempotencyKey ≠ (requests i).event.idempotencyKey
  creators : ∀ r ∈ s.db.events, r ∈ db₀.events ∨
    ∃ i, (requests i).row = r ∧ s.phase i = .committed r.toDomain true

theorem Sound.initial {db₀ : Db} (hv : db₀.Valid) : Sound requests db₀ (initial db₀) where
  valid := hv.of_events_eq (List.append_nil _) rfl rfl
  grown := List.prefix_rfl
  established _ := trivial
  apart _ _ _ h := h.elim
  fresh _ h := h.elim
  creators _ hr := .inl hr

variable {db₀ : Db}

theorem Sound.established_enter (hs : Sound requests db₀ s) {i : ℕ} {p : AppendPhase}
    (hp : s'.phase = Function.update s.phase i p) (hi : s'.Established (requests i) p)
    (he : s.db.events ⊆ s'.db.events)
    (hu : ∀ j row, j ≠ i → s.phase j = .inserted row → row ∈ s.uncommitted → row ∈ s'.uncommitted)
    (j : ℕ) : s'.Established (requests j) (s'.phase j) := by
  rw [hp]
  by_cases h : j = i
  · rw [h, Function.update_self]
    exact hi
  · rw [Function.update_of_ne h]
    exact (hs.established j).mono he fun row hr => hu j row h hr

theorem Sound.creators_enter (hs : Sound requests db₀ s) {i : ℕ} {p : AppendPhase}
    (hp : s'.phase = Function.update s.phase i p) (hi : ∀ event, s.phase i ≠ .committed event true)
    {r : InventoryEventRow} (hr : r ∈ s.db.events) :
    r ∈ db₀.events ∨ ∃ i, (requests i).row = r ∧ s'.phase i = .committed r.toDomain true := by
  refine (hs.creators r hr).imp_right fun ⟨j, hj, hc⟩ => ⟨j, hj, ?_⟩
  have hne : j ≠ i := fun h => hi _ (h ▸ hc)
  rw [hp, Function.update_of_ne hne, hc]

theorem Sound.insert {i : ℕ} (hs : Sound requests db₀ s) (ha : Admissible s.db (requests i).row)
    (hb : s.uncommitted.any (blocks (requests i).row) = false) (hi : s.phase i = .begun)
    (hp : s'.phase = Function.update s.phase i (.inserted (requests i).row)) (hd : s'.db = s.db)
    (hu : s'.uncommitted = s.uncommitted ++ [(requests i).row]) : Sound requests db₀ s' := by
  simp only [List.any_eq_false, blocks, decide_eq_true_eq, not_or] at hb
  have hkey : ∀ r ∈ s.db.events ++ s.uncommitted,
      r.idempotencyKey ≠ (requests i).event.idempotencyKey := by
    intro r hr
    rcases List.mem_append.mp hr with hr | hr
    · exact ha.freshKey r hr
    · exact (hb r hr).1
  have hid : ∀ r ∈ s.db.events ++ s.uncommitted, r.id ≠ (requests i).row.id := by
    intro r hr
    rcases List.mem_append.mp hr with hr | hr
    · exact ha.freshId r hr
    · exact (hb r hr).2
  have hmem : (requests i).row ∈ s'.uncommitted := by rw [hu]; simp
  refine ⟨?_, hd ▸ hs.grown, ?_, ?_, ?_, ?_⟩
  · have hadd := hs.valid.addEvent ⟨ha.rowChecks, ha.referenceChecks, hid, hkey⟩
    rw [hd, hu]
    exact hadd.of_events_eq (by simp [Db.addEvents]) rfl rfl
  · refine hs.established_enter hp ⟨rfl, hmem⟩ (by rw [hd]; exact fun _ h => h) ?_
    rw [hu]
    exact fun _ _ _ _ h => List.mem_append_left _ h
  · intro j k hjk hj hk
    rcases writes_enter hp hj with ⟨rfl, -⟩ | ⟨hji, hj'⟩
    · rcases writes_enter hp hk with ⟨rfl, -⟩ | ⟨-, hk'⟩
      · exact absurd rfl hjk
      · exact (hkey _ ((hs.established k).row_mem hk')).symm
    · rcases writes_enter hp hk with ⟨rfl, -⟩ | ⟨-, hk'⟩
      · exact hkey _ ((hs.established j).row_mem hj')
      · exact hs.apart j k hjk hj' hk'
  · intro j hj
    rcases writes_enter hp hj with ⟨rfl, -⟩ | ⟨-, hj'⟩
    · exact fun r hr => ha.freshKey r (hs.grown.subset hr)
    · exact hs.fresh j hj'
  · rw [hd]
    refine fun r hr => hs.creators_enter hp (fun event h => ?_) hr
    cases hi.symm.trans h

theorem Sound.pass {i : ℕ} {p : AppendPhase} (hs : Sound requests db₀ s)
    (hp : s'.phase = Function.update s.phase i p) (hn : ¬ p.Writes) (hi : ¬ (s.phase i).Writes)
    (he : s.Established (requests i) (s.phase i) → s.Established (requests i) p)
    (hd : s'.db = s.db) (hu : s'.uncommitted = s.uncommitted) : Sound requests db₀ s' := by
  have hw : ∀ j, (s'.phase j).Writes → (s.phase j).Writes := fun j hj =>
    (writes_enter hp hj).elim (fun h => absurd h.2 hn) And.right
  refine ⟨by rw [hd, hu]; exact hs.valid, hd ▸ hs.grown, ?_,
    fun j k hjk hj hk => hs.apart j k hjk (hw j hj) (hw k hk), fun j hj => hs.fresh j (hw j hj), ?_⟩
  · refine hs.established_enter hp ((he (hs.established i)).mono ?_ ?_) ?_ ?_
    · rw [hd]; exact fun _ h => h
    · rw [hu]; exact fun _ _ h => h
    · rw [hd]; exact fun _ h => h
    · rw [hu]; exact fun _ _ _ _ h => h
  · rw [hd]
    refine fun r hr => hs.creators_enter hp (fun event h => hi ?_) hr
    rw [h]
    rfl

theorem Sound.mem_erase (hs : Sound requests db₀ s) {i j : ℕ} {row row' : InventoryEventRow}
    (hi : s.phase i = .inserted row) (hj : s.phase j = .inserted row') (h : j ≠ i)
    (hm : row' ∈ s.uncommitted) : row' ∈ s.uncommitted.erase row := by
  refine (List.mem_erase_of_ne ?_).mpr hm
  rintro rfl
  have hei := hi ▸ hs.established i
  have hej := hj ▸ hs.established j
  refine hs.apart j i h (by rw [hj]; trivial) (by rw [hi]; trivial) ?_
  exact congrArg InventoryEventRow.idempotencyKey (hej.1.symm.trans hei.1)

theorem Sound.commit {i : ℕ} {row : InventoryEventRow} (hs : Sound requests db₀ s)
    (hi : s.phase i = .inserted row)
    (hp : s'.phase = Function.update s.phase i (.committed row.toDomain true))
    (hd : s'.db = s.db.addEvents [row]) (hu : s'.uncommitted = s.uncommitted.erase row) :
    Sound requests db₀ s' := by
  obtain ⟨hrow, hmem⟩ := hi ▸ hs.established i
  have he : s'.db.events = s.db.events ++ [row] := by rw [hd]; rfl
  have hsub : s.db.events ⊆ s'.db.events := he ▸ List.subset_append_left _ _
  have hin : row ∈ s'.db.events := by rw [he]; simp
  have hw : ∀ j, (s'.phase j).Writes → (s.phase j).Writes := fun j hj =>
    (writes_enter hp hj).elim (fun h => by rw [h.1, hi]; trivial) And.right
  refine ⟨?_, he ▸ hs.grown.trans (List.prefix_append _ _), ?_,
    fun j k hjk hj hk => hs.apart j k hjk (hw j hj) (hw k hk), fun j hj => hs.fresh j (hw j hj), ?_⟩
  · have hperm : (s.db.events ++ [row] ++ s.uncommitted.erase row).Perm
        (s.db.events ++ s.uncommitted) := by
      rw [List.append_assoc]
      exact (List.perm_cons_erase hmem).symm.append_left _
    rw [hd, hu]
    exact hs.valid.of_subperm hperm.subperm rfl rfl
  · refine hs.established_enter hp ⟨row, hin, ?_, ?_, rfl, fun _ => hrow⟩ hsub ?_
    · rw [hrow]; rfl
    · rw [hrow]; rfl
    · intro j row' hj hr hm
      rw [hu]
      exact hs.mem_erase hi hr hj hm
  · intro r hr
    rcases List.mem_append.mp (he ▸ hr) with hr | hr
    · exact hs.creators_enter hp (fun event h => by cases hi.symm.trans h) hr
    · cases List.mem_singleton.mp hr
      exact .inr ⟨i, hrow.symm, by rw [hp, Function.update_self]⟩

theorem Sound.rollback {i : ℕ} {row : InventoryEventRow} (hs : Sound requests db₀ s)
    (hi : s.phase i = .inserted row) (hp : s'.phase = Function.update s.phase i .rolledBack)
    (hd : s'.db = s.db) (hu : s'.uncommitted = s.uncommitted.erase row) :
    Sound requests db₀ s' := by
  have hw : ∀ j, (s'.phase j).Writes → (s.phase j).Writes := fun j hj =>
    (writes_enter hp hj).elim (fun h => h.2.elim) And.right
  refine ⟨?_, hd ▸ hs.grown, ?_,
    fun j k hjk hj hk => hs.apart j k hjk (hw j hj) (hw k hk), fun j hj => hs.fresh j (hw j hj), ?_⟩
  · rw [hd, hu]
    have hsub : (s.db.events ++ s.uncommitted.erase row).Sublist
        (s.db.events ++ s.uncommitted) := List.erase_sublist.append_left _
    exact hs.valid.of_subperm hsub.subperm rfl rfl
  · refine hs.established_enter hp trivial (by rw [hd]; exact fun _ h => h) ?_
    intro j row' hj hr hm
    rw [hu]
    exact hs.mem_erase hi hr hj hm
  · rw [hd]
    exact fun r hr => hs.creators_enter hp (fun event h => by cases hi.symm.trans h) hr

theorem Sound.step (hs : Sound requests db₀ s) (h : step requests s action = some s') :
    Sound requests db₀ s' := by
  obtain ⟨i, p, hp, ⟨rfl, hi, ha, hb, hd, hu⟩ | ⟨hn, hi, he, hd, hu⟩ |
    ⟨row, hi, hu, ⟨rfl, hd⟩ | ⟨rfl, hd⟩⟩⟩ := step_cases h
  · exact hs.insert ha hb hi hp hd hu
  · exact hs.pass hp hn hi he hd hu
  · exact hs.commit hi hp hd hu
  · exact hs.rollback hi hp hd hu

theorem events_of_step (h : AppendState.step requests s action = some s') :
    s.db.events <+: s'.db.events := by
  obtain ⟨i, p, -, ⟨-, -, -, -, hd, -⟩ | ⟨-, -, -, hd, -⟩ | ⟨row, -, -, ⟨-, hd⟩ | ⟨-, hd⟩⟩⟩ :=
    step_cases h
  · exact hd ▸ List.prefix_rfl
  · exact hd ▸ List.prefix_rfl
  · rw [hd]; exact List.prefix_append _ _
  · exact hd ▸ List.prefix_rfl

theorem Sound.reach (h : Reachable (AppendState.step requests) (AppendState.initial db₀) s)
    (hv : db₀.Valid) : Sound requests db₀ s :=
  h.invariant (I := Sound requests db₀) (.initial hv) fun _ _ _ hs _ h => hs.step h

theorem Sound.valid_db (hs : Sound requests db₀ s) : s.db.Valid :=
  hs.valid.of_subperm (List.sublist_append_left _ _).subperm rfl rfl

theorem Sound.eq_of_key (hs : Sound requests db₀ s) {r r' : InventoryEventRow}
    (hr : r ∈ s.db.events) (hr' : r' ∈ s.db.events) (h : r.idempotencyKey = r'.idempotencyKey) :
    r = r' :=
  List.inj_on_of_nodup_map hs.valid_db.keys hr hr' h

end Invariant

section Results

def Answered : AppendPhase → Prop
  | .found _ | .refused | .committed .. => True
  | _ => False

/-- Each key has one event, one call that created it and one answer for the household's calls. -/
structure ExactlyOnce (requests : ℕ → AppendRequest) (db₀ : Db) (s : AppendState) : Prop where
  one_event : (s.db.events.map (·.idempotencyKey)).Nodup
  one_creator : ∀ r ∈ s.db.events, r ∉ db₀.events → ∃! i,
    (requests i).event.idempotencyKey = r.idempotencyKey ∧
      ∃ event, s.phase i = .committed event true
  stored : ∀ i event created, s.phase i = .committed event created → ∃ r ∈ s.db.events,
    r.idempotencyKey = (requests i).event.idempotencyKey ∧ event = r.toDomain
  one_answer : ∀ i j event event' created created', i ≠ j →
    s.phase i = .committed event created → s.phase j = .committed event' created' →
    (requests i).event.idempotencyKey = (requests j).event.idempotencyKey →
    event' = event ∧ (created = false ∨ created' = false)
  refused_iff : ∀ i, Answered (s.phase i) → (s.phase i = .refused ↔ ∃ r ∈ s.db.events,
    r.idempotencyKey = (requests i).event.idempotencyKey ∧
    r.householdId ≠ (requests i).householdId)
  own_event : ∀ i event,
    (s.phase i = .found event ∨ ∃ created, s.phase i = .committed event created) →
    event.householdId = (requests i).householdId

theorem Sound.one_creator (hs : Sound requests db₀ s) {r : InventoryEventRow}
    (hr : r ∈ s.db.events) (hn : r ∉ db₀.events) : ∃! i,
    (requests i).event.idempotencyKey = r.idempotencyKey ∧
      ∃ event, s.phase i = .committed event true := by
  obtain ⟨i, hi, hc⟩ := (hs.creators r hr).resolve_left hn
  have hkey : (requests i).event.idempotencyKey = r.idempotencyKey := by rw [← hi]; rfl
  refine ⟨i, ⟨hkey, _, hc⟩, ?_⟩
  rintro j ⟨hk, event, hj⟩
  by_contra hne
  exact hs.apart j i hne (by rw [hj]; rfl) (by rw [hc]; rfl) (hk.trans hkey.symm)

theorem Sound.one_answer (hs : Sound requests db₀ s) {i j : ℕ} {event event' : InventoryEvent}
    {created created' : Bool} (hij : i ≠ j) (hi : s.phase i = .committed event created)
    (hj : s.phase j = .committed event' created')
    (hk : (requests i).event.idempotencyKey = (requests j).event.idempotencyKey) :
    event' = event ∧ (created = false ∨ created' = false) := by
  obtain ⟨r, hr, hrk, -, he, -⟩ := hi ▸ hs.established i
  obtain ⟨r', hr', hrk', -, he', -⟩ := hj ▸ hs.established j
  constructor
  · rw [← he, ← he', hs.eq_of_key hr' hr (hrk'.trans (hk.symm.trans hrk.symm))]
  · cases created with
    | false => exact .inl rfl
    | true =>
      cases created' with
      | false => exact .inr rfl
      | true => exact absurd hk (hs.apart i j hij (by rw [hi]; rfl) (by rw [hj]; rfl))

/-- The key of a call that is not refused belongs to an event of its household. -/
theorem Sound.not_refused (hs : Sound requests db₀ s) {i : ℕ} {r : InventoryEventRow}
    (hr : r ∈ s.db.events) (hk : r.idempotencyKey = (requests i).event.idempotencyKey)
    (hh : r.householdId = (requests i).householdId) : ¬ ∃ r ∈ s.db.events,
      r.idempotencyKey = (requests i).event.idempotencyKey ∧
      r.householdId ≠ (requests i).householdId := by
  rintro ⟨r', hr', hk', hn⟩
  exact hn (hs.eq_of_key hr' hr (hk'.trans hk.symm) ▸ hh)

theorem Sound.refused_iff (hs : Sound requests db₀ s) {i : ℕ} (h : Answered (s.phase i)) :
    s.phase i = .refused ↔ ∃ r ∈ s.db.events,
      r.idempotencyKey = (requests i).event.idempotencyKey ∧
      r.householdId ≠ (requests i).householdId := by
  have he := hs.established i
  cases hp : s.phase i with
  | found event =>
    rw [hp] at he
    obtain ⟨r, hr, hk, hh, -⟩ := he
    exact iff_of_false nofun (hs.not_refused hr hk hh)
  | refused =>
    rw [hp] at he
    exact iff_of_true rfl he
  | committed event created =>
    rw [hp] at he
    obtain ⟨r, hr, hk, hh, -⟩ := he
    exact iff_of_false nofun (hs.not_refused hr hk hh)
  | begun | inserted | conflicted | rolledBack | failed =>
    rw [hp] at h
    exact h.elim

theorem Sound.own_event (hs : Sound requests db₀ s) {i : ℕ} {event : InventoryEvent}
    (h : s.phase i = .found event ∨ ∃ created, s.phase i = .committed event created) :
    event.householdId = (requests i).householdId := by
  have he := hs.established i
  rcases h with h | ⟨created, h⟩
  · rw [h] at he
    obtain ⟨r, -, -, hh, rfl⟩ := he
    exact hh
  · rw [h] at he
    obtain ⟨r, -, -, hh, rfl, -⟩ := he
    exact hh

/-- Appends under contention append exactly once, and what they have committed stays. -/
theorem append_exactly_once (hv : db₀.Valid)
    (h : Reachable (AppendState.step requests) (initial db₀) s) :
    ExactlyOnce requests db₀ s ∧
      ∀ s', Reachable (AppendState.step requests) s s' → s.db.events <+: s'.db.events := by
  have hs := Sound.reach h hv
  refine ⟨⟨hs.valid_db.keys, fun r => hs.one_creator, ?_, fun i j _ _ _ _ => hs.one_answer,
    fun i => hs.refused_iff, fun i event => hs.own_event⟩, ?_⟩
  · intro i event created hi
    obtain ⟨r, hr, hk, -, he, -⟩ := hi ▸ hs.established i
    exact ⟨r, hr, hk, he.symm⟩
  · intro s' h'
    refine h'.related (R := fun s s' => s.db.events <+: s'.db.events) List.prefix_rfl ?_
    intro s₁ action s₂ hp _ hstep
    exact List.IsPrefix.trans hp (events_of_step hstep)

end Results

end AppendState

end Calls

namespace AppendState

/-- Call `i` appends its own payload under one key; call `2` is of another household. -/
def deliveries (i : ℕ) : AppendRequest where
  householdId := if i = 2 then 2 else 1
  now := i
  id := BitVec.ofNat 128 i
  event :=
    { canonicalProductId := 7, eventType := .purchased, quantityDelta := 1000 * i, unit := "g"
      storageLocation := .pantry, occurredAt := 0, source := "queue", idempotencyKey := "k" }

/-- The first insert is rolled back, the second commits, and two more calls find its event. -/
def redelivery : List AppendAction :=
  [.insert 0, .rollback 0, .insert 1, .commit 1, .insert 2, .insert 3, .lookup 3, .lookup 2,
    .commit 3]

theorem append_exactly_once_redelivery :
    letI := asciiTables
    ∃ s, exec (guarded (step deliveries) unrestricted) (initial emptyKitchen) redelivery = some s ∧
      s.db.events.map (·.quantityDelta) = [1000] ∧ s.phase 2 = .refused ∧
      ExactlyOnce deliveries emptyKitchen s := by
  let _ := asciiTables
  have h : (exec (guarded (step deliveries) unrestricted) (initial emptyKitchen) redelivery).map
      (fun s => (s.db.events.map (·.quantityDelta), s.phase 2)) = some ([1000], .refused) := by
    decide
  obtain ⟨s, hr, hp⟩ := Option.map_eq_some_iff.mp h
  obtain ⟨hq, h₂⟩ := Prod.mk.inj hp
  exact ⟨s, hr, hq, h₂,
    (append_exactly_once emptyKitchen_valid (Reach.of_exec hr)).1⟩

end AppendState

end KitchenSense
