import KitchenSense.Concurrency.RowLocks
import KitchenSense.Foundations.Runs
import KitchenSense.Projection.Incremental
import KitchenSense.Repositories.Effects

/-! # Overlapping projections

A call of `rebuild` or `advance` reads the stored rows and the log, deletes the
rows of its household, inserts the rows of its snapshot and commits. The
statements of several calls interleave: each sees what is committed when it
starts. A `DELETE` waits for the transaction that has deleted one of its rows
and then skips the row; an `INSERT` waits for the transaction whose rows decide
whether it clashes.
-/

namespace KitchenSense

open InventoryEventRepository (eventsKnownAsOf eventsKnownBetween)
open InventorySnapshotRepository

inductive ProjectionTask
  | rebuild (asOf : Instant)
  | advance (asOf : Instant)

def ProjectionTask.asOf : ProjectionTask → Instant
  | .rebuild asOf => asOf
  | .advance asOf => asOf

def ProjectionTask.call [UnicodeTables] (householdId : UUID) :
    ProjectionTask → Tx InventorySnapshot
  | .rebuild asOf => InventorySnapshotRepository.rebuild householdId asOf
  | .advance asOf => InventorySnapshotRepository.advance householdId asOf

inductive ProjectionAction
  | getStored (i : ℕ)
  | readEvents (i : ℕ)
  | startDelete (i : ℕ)
  | delete (i : ℕ)
  | insert (i : ℕ)
  | commit (i : ℕ)
  | rollback (i : ℕ)

def ProjectionAction.index : ProjectionAction → ℕ
  | .getStored i | .readEvents i | .startDelete i | .delete i | .insert i | .commit i
  | .rollback i => i

namespace ProjectionState

def initial (base : Db) (householdId : UUID) : ProjectionState where
  live := (scopedTo base.snapshots householdId).map (none, ·)
  doomed := []
  pending := []
  phase _ := .started

def db (base : Db) (householdId : UUID) (s : ProjectionState) : Db :=
  base.replaceSnapshot householdId (s.live.map Prod.snd)

def rows (base : Db) (householdId : UUID) (s : ProjectionState) : List InventorySnapshotRow :=
  scopedTo (s.db base householdId).snapshots householdId

/-- What `get` reads. -/
def current (base : Db) (householdId : UUID) (s : ProjectionState) : Option InventorySnapshot :=
  stored (s.db base householdId).snapshots householdId

def toSave : Except InventoryFoldError InventorySnapshot → TaskPhase
  | .ok S => .computed S
  | .error _ => .failed

def toReturn : Except InventoryFoldError InventorySnapshot → TaskPhase
  | .ok S => .projected S
  | .error _ => .failed

def returned : TaskPhase → Option InventorySnapshot
  | .committed S | .projected S => some S
  | _ => none

theorem returned_toSave (r : Except InventoryFoldError InventorySnapshot) :
    returned (toSave r) = none := by
  cases r <;> rfl

theorem returned_toReturn {S : InventorySnapshot}
    {r : Except InventoryFoldError InventorySnapshot}
    (h : returned (toReturn r) = some S) : r = .ok S := by
  cases r with
  | error e => cases h
  | ok S' => cases h; rfl

section Calls

variable [UnicodeTables] (base : Db) (householdId : UUID) (tasks : ℕ → ProjectionTask)

def afterEvents : ProjectionTask → TaskPhase → Option TaskPhase
  | .rebuild asOf, .started | .advance asOf, .gotStored none => some <| toSave <|
      foldEvents (eventsKnownAsOf base.events householdId asOf none) householdId asOf
  | .advance asOf, .gotStored (some current) => some <|
      if asOf < current.asOf then
        toReturn <| foldEvents (eventsKnownAsOf base.events householdId asOf none) householdId asOf
      else
        toSave <| applyEvents current
          (eventsKnownBetween base.events householdId current.asOf asOf) asOf
  | _, _ => none

def step (s : ProjectionState) : ProjectionAction → Option ProjectionState
  | .getStored i =>
    match tasks i, s.phase i with
    | .advance _, .started => some (s.enter i (.gotStored (s.current base householdId)))
    | _, _ => none
  | .readEvents i => (afterEvents base householdId (tasks i) (s.phase i)).map (s.enter i)
  | .startDelete i =>
    match s.phase i with
    | .computed S =>
      if S.householdId ≠ householdId then some (s.fail i)
      else some (s.enter i (.deleting S s.live))
    | _ => none
  | .delete i =>
    match s.phase i with
    | .deleting S seen =>
      if ∃ d ∈ s.doomed, d.1 ≠ i ∧ d.2 ∈ seen then none
      else some (s.delete i S seen)
    | _ => none
  | .insert i =>
    match s.phase i with
    | .deleted S =>
      if s.Waits i (toRows S) then none
      else match forM (toRows S) insertSnapshotRow
          (base.replaceSnapshot householdId ((s.remaining i).map Prod.snd)) with
        | .ok _ => some (s.insert i S)
        | .error _ => some (s.fail i)
    | _ => none
  | .commit i =>
    match s.phase i with
    | .saved S => some (s.settle i S)
    | _ => none
  | .rollback i =>
    match s.phase i with
    | .committed _ | .projected _ | .failed => none
    | _ => some (s.fail i)

variable {base householdId tasks} {s s' : ProjectionState} {action : ProjectionAction}

/-- Reading the events leads to a full replay or to a stored snapshot moved forward. -/
theorem afterEvents_cases {task : ProjectionTask} {p q : TaskPhase}
    (h : afterEvents base householdId task p = some q) :
    ((p = .started ∨ p = .gotStored none) ∧ q = toSave (foldEvents
        (eventsKnownAsOf base.events householdId task.asOf none) householdId task.asOf)) ∨
      ∃ current, p = .gotStored (some current) ∧
        ((task.asOf < current.asOf ∧ q = toReturn (foldEvents
            (eventsKnownAsOf base.events householdId task.asOf none) householdId task.asOf)) ∨
          (current.asOf ≤ task.asOf ∧ q = toSave (applyEvents current
            (eventsKnownBetween base.events householdId current.asOf task.asOf) task.asOf))) := by
  cases task with
  | rebuild asOf =>
    cases p with
    | started =>
      cases h
      exact .inl ⟨.inl rfl, rfl⟩
    | _ => cases h
  | advance asOf =>
    cases p with
    | gotStored stored =>
      cases stored with
      | none =>
        cases h
        exact .inl ⟨.inr rfl, rfl⟩
      | some current =>
        cases h
        refine .inr ⟨current, rfl, ?_⟩
        split
        next ht => exact .inl ⟨ht, rfl⟩
        next ht => exact .inr ⟨not_lt.mp ht, rfl⟩
    | _ => cases h

def Learns (base : Db) (householdId : UUID) (task : ProjectionTask) (s : ProjectionState) (i : ℕ)
    (p : TaskPhase) : Prop :=
  p = .gotStored (s.current base householdId) ∨
    afterEvents base householdId task (s.phase i) = some p ∨
    ∃ S, s.phase i = .computed S ∧ p = .deleting S s.live

/-- What a step can do: read, delete, insert, commit, or end without an effect. -/
theorem step_cases (h : step base householdId tasks s action = some s') : ∃ i, action.index = i ∧
    ((∃ p, (s.phase i).Reading ∧ Learns base householdId (tasks i) s i p ∧ s' = s.enter i p) ∨
      (∃ S seen, s.phase i = .deleting S seen ∧ (¬ ∃ d ∈ s.doomed, d.1 ≠ i ∧ d.2 ∈ seen) ∧
        s' = s.delete i S seen) ∨
      (∃ S p, s.phase i = .deleted S ∧ ¬ s.Waits i (toRows S) ∧
        forM (toRows S) insertSnapshotRow
          (base.replaceSnapshot householdId ((s.remaining i).map Prod.snd)) = .ok p ∧
        s' = s.insert i S) ∨
      (∃ S, action = .commit i ∧ s.phase i = .saved S ∧ s' = s.settle i S) ∨
      ((∀ S, s.phase i ≠ .committed S) ∧ s' = s.fail i)) := by
  cases action with
  | getStored i =>
    refine ⟨i, rfl, .inl ?_⟩
    rw [step] at h
    cases ht : tasks i with
    | rebuild asOf => rw [ht] at h; cases h
    | advance asOf =>
      cases hp : s.phase i with
      | started =>
        rw [ht, hp] at h
        cases h
        exact ⟨_, trivial, .inl rfl, rfl⟩
      | _ => rw [ht, hp] at h; cases h
  | readEvents i =>
    refine ⟨i, rfl, .inl ?_⟩
    obtain ⟨p, hp, rfl⟩ := Option.map_eq_some_iff.mp h
    refine ⟨p, ?_, .inr (.inl hp), rfl⟩
    obtain ⟨hs | hs, -⟩ | ⟨current, hs, -⟩ := afterEvents_cases hp <;> rw [hs] <;> trivial
  | startDelete i =>
    refine ⟨i, rfl, ?_⟩
    rw [step] at h
    cases hp : s.phase i with
    | computed S =>
      rw [hp] at h
      dsimp only at h
      split at h
      · cases h
        exact .inr (.inr (.inr (.inr ⟨by simp, rfl⟩)))
      · cases h
        exact .inl ⟨_, trivial, .inr (.inr ⟨S, hp, rfl⟩), rfl⟩
    | _ => rw [hp] at h; cases h
  | delete i =>
    refine ⟨i, rfl, .inr (.inl ?_)⟩
    rw [step] at h
    cases hp : s.phase i with
    | deleting S seen =>
      rw [hp] at h
      simp only [Option.ite_none_left_eq_some] at h
      obtain ⟨hw, ⟨⟩⟩ := h
      exact ⟨S, seen, rfl, hw, rfl⟩
    | _ => rw [hp] at h; cases h
  | insert i =>
    refine ⟨i, rfl, ?_⟩
    rw [step] at h
    cases hp : s.phase i with
    | deleted S =>
      rw [hp] at h
      simp only [Option.ite_none_left_eq_some] at h
      obtain ⟨hw, h⟩ := h
      split at h
      · rename_i p hi
        cases h
        exact .inr (.inr (.inl ⟨S, p, rfl, hw, hi, rfl⟩))
      · cases h
        exact .inr (.inr (.inr (.inr ⟨by simp, rfl⟩)))
    | _ => rw [hp] at h; cases h
  | commit i =>
    refine ⟨i, rfl, .inr (.inr (.inr (.inl ?_)))⟩
    rw [step] at h
    cases hp : s.phase i with
    | saved S =>
      rw [hp] at h
      cases h
      exact ⟨S, rfl, rfl, rfl⟩
    | _ => rw [hp] at h; cases h
  | rollback i =>
    refine ⟨i, rfl, .inr (.inr (.inr (.inr ?_)))⟩
    rw [step] at h
    cases hp : s.phase i with
    | committed S => rw [hp] at h; cases h
    | projected S => rw [hp] at h; cases h
    | failed => rw [hp] at h; cases h
    | _ => rw [hp] at h; cases h; exact ⟨by simp, rfl⟩

section Invariant

/-- The snapshot an open call holds is the replay of the log, at the instant of the call once it
has read the events. -/
def Supported (base : Db) (householdId : UUID) (task : ProjectionTask) : TaskPhase → Prop
  | .gotStored (some S) => IsReplay base.events householdId S.asOf S
  | .computed S | .deleting S _ | .deleted S | .saved S =>
    IsReplay base.events householdId task.asOf S
  | _ => True

def Settled (phase : ℕ → TaskPhase) (v : RowVersion) : Prop :=
  ∀ i, v.1 = some i → ∃ S, phase i = .committed S

/-- The committed rows are one replay; a `DELETE` has seen them all or none of them. -/
structure Observed (base : Db) (householdId : UUID) (tasks : ℕ → ProjectionTask)
    (live : List RowVersion) (phase : ℕ → TaskPhase) : Prop where
  supported : ∀ i, Supported base householdId (tasks i) (phase i)
  replay : live = [] ∨ ∃ tag S, IsReplay base.events householdId S.asOf S ∧ S.lots ≠ [] ∧
    live = (toRows S).map (tag, ·)
  settled : ∀ v ∈ live, Settled phase v
  seen : ∀ i S seen, phase i = .deleting S seen → (∀ v ∈ seen, Settled phase v) ∧
    (seen = live ∨ ∀ v ∈ live, v ∉ seen)

structure Sound (base : Db) (householdId : UUID) (tasks : ℕ → ProjectionTask)
    (s : ProjectionState) : Prop where
  observed : Observed base householdId tasks s.live s.phase
  held : Held s

variable {phase : ℕ → TaskPhase} {live live' : List RowVersion} {i : ℕ} {p : TaskPhase}
  {S : InventorySnapshot}

theorem Observed.enter (ho : Observed base householdId tasks live phase)
    (hc : ∀ S, phase i ≠ .committed S) (hp : Supported base householdId (tasks i) p)
    (hd : ∀ S seen, p = .deleting S seen → seen = live) :
    Observed base householdId tasks live (Function.update phase i p) := by
  have hkeep : ∀ v, Settled phase v → Settled (Function.update phase i p) v := by
    intro v hv j hj
    obtain ⟨S, hS⟩ := hv j hj
    refine ⟨S, ?_⟩
    rw [Function.update_of_ne (by rintro rfl; exact hc S hS), hS]
  refine ⟨?_, ho.replay, fun v hv => hkeep v (ho.settled v hv), fun j S seen hj => ?_⟩
  · rw [Function.forall_update_iff phase fun j => Supported base householdId (tasks j)]
    exact ⟨hp, fun j _ => ho.supported j⟩
  · by_cases h : j = i
    · rw [h, Function.update_self] at hj
      rw [hd S seen hj]
      exact ⟨fun v hv => hkeep v (ho.settled v hv), .inl rfl⟩
    · rw [Function.update_of_ne h] at hj
      obtain ⟨hs, hl⟩ := ho.seen j S seen hj
      exact ⟨fun v hv => hkeep v (hs v hv), hl⟩

/-- The rows of a call that commits are new to every `DELETE` that has started. -/
theorem Observed.settle (ho : Observed base householdId tasks live phase)
    (hp : phase i = .saved S)
    (hl : live' = live ∨ live' = (toRows S).map (some i, ·)) :
    Observed base householdId tasks live' (Function.update phase i (.committed S)) := by
  have hi := hp ▸ ho.supported i
  have hq := ho.enter (i := i) (p := .committed S) (by rw [hp]; simp) trivial nofun
  rcases hl with rfl | rfl
  · exact hq
  refine ⟨hq.supported, ?_, fun v hv => ?_, fun j S' seen hj => ⟨(hq.seen j S' seen hj).1, .inr ?_⟩⟩
  · by_cases hne : S.lots = []
    · left; rw [toRows, hne]; rfl
    · exact .inr ⟨some i, S, IsReplay.self hi, hne, rfl⟩
  · obtain ⟨row, -, rfl⟩ := List.mem_map.mp hv
    rintro j hj
    cases hj
    exact ⟨S, Function.update_self ..⟩
  · intro v hv hs
    obtain ⟨row, -, rfl⟩ := List.mem_map.mp hv
    have hj' : phase j = .deleting S' seen := by
      by_cases h : j = i
      · rw [h, Function.update_self] at hj; cases hj
      · rwa [Function.update_of_ne h] at hj
    obtain ⟨S₀, hc⟩ := (ho.seen j S' seen hj').1 _ hs i rfl
    cases hp.symm.trans hc

theorem Sound.storedReplay (hs : Sound base householdId tasks s) :
    StoredReplay (s.db base householdId) householdId := by
  rcases hs.observed.replay with hl | ⟨tag, S, hr, hne, hl⟩
  · left
    rw [db, hl]
    simp [scopedTo, Db.replaceSnapshot, List.filter_filter]
  · refine .inr ⟨S, hr, hne, ?_⟩
    rw [db, hl, map_snd_owner]
    exact scopedTo_replaceSnapshot_self (isReplay_iff.mp hr).1

theorem current_eq_some {tag : Option ℕ} (hS : IsReplay base.events householdId S.asOf S)
    (hne : S.lots ≠ []) (hl : s.live = (toRows S).map (tag, ·)) :
    s.current base householdId = some S := by
  obtain ⟨hh, -, hs, -⟩ := isReplay_iff.mp hS
  refine stored_toRows hh hs hne ?_
  rw [db, hl, map_snd_owner]
  exact scopedTo_replaceSnapshot_self hh

theorem Sound.current_cases (hs : Sound base householdId tasks s) :
    (s.live = [] ∧ s.current base householdId = none) ∨
      ∃ tag S, IsReplay base.events householdId S.asOf S ∧ S.lots ≠ [] ∧
        s.live = (toRows S).map (tag, ·) ∧ s.current base householdId = some S := by
  rcases hs.observed.replay with hl | ⟨tag, S, hS, hne, hl⟩
  · refine .inl ⟨hl, stored_eq_none ?_⟩
    rw [db, hl]
    simp [scopedTo, Db.replaceSnapshot, List.filter_filter]
  · exact .inr ⟨tag, S, hS, hne, hl, current_eq_some hS hne hl⟩

theorem Sound.initial (h : StoredReplay base householdId) :
    Sound base householdId tasks (initial base householdId) where
  observed := by
    refine ⟨fun _ => trivial, ?_, fun v hv j hj => ?_, nofun⟩
    · rcases h with hl | ⟨S, hr, hne, hl⟩
      · left; rw [ProjectionState.initial, hl, List.map_nil]
      · exact .inr ⟨none, S, hr, hne, by rw [ProjectionState.initial, hl]⟩
    · obtain ⟨row, -, rfl⟩ := List.mem_map.mp hv
      cases hj
  held := ⟨.inl rfl, nofun, .inl rfl⟩

theorem supported_toSave {task : ProjectionTask}
    {r : Except InventoryFoldError InventorySnapshot} (hr : r = .ok S)
    (h : IsReplay base.events householdId task.asOf S) :
    Supported base householdId task (toSave r) ∧ ¬ (toSave r).Holding ∧
      ∀ S' seen, toSave r ≠ .deleting S' seen := by
  rw [hr]
  exact ⟨h, id, by simp [toSave]⟩

theorem supported_of_afterEvents {task : ProjectionTask} {q : TaskPhase}
    (hs : Supported base householdId task p) (h : afterEvents base householdId task p = some q) :
    Supported base householdId task q ∧ ¬ q.Holding ∧ ∀ S seen, q ≠ .deleting S seen := by
  obtain ⟨S, hS⟩ := exists_isReplay base.events householdId task.asOf
  obtain ⟨-, rfl⟩ | ⟨current, rfl, ⟨-, rfl⟩ | ⟨ht, rfl⟩⟩ := afterEvents_cases h
  · exact supported_toSave hS hS
  · rw [show foldEvents _ _ _ = _ from hS]
    exact ⟨trivial, id, by simp [toReturn]⟩
  · obtain ⟨S', ha, hS'⟩ := IsReplay.advance hs ht
    exact supported_toSave ha hS'

theorem exists_clash {S' : InventorySnapshot} (h : IsReplay base.events householdId S.asOf S)
    (h' : IsReplay base.events householdId S'.asOf S') (hne : S.lots ≠ []) (hne' : S'.lots ≠ []) :
    ∃ r ∈ toRows S, ∃ row ∈ toRows S', r.Clash row := by
  obtain ⟨lot, hm, lot', hm', hk⟩ := h.common_lot h' hne hne'
  refine ⟨_, List.mem_map_of_mem hm, _, List.mem_map_of_mem hm', ?_, hk.symm⟩
  exact (isReplay_iff.mp h).1.trans (isReplay_iff.mp h').1.symm

/-- An `INSERT` that neither waits nor fails finds the rows of no other call. -/
theorem Sound.insert_alone (hs : Sound base householdId tasks s) (hi : s.phase i = .deleted S)
    (hw : ¬ s.Waits i (toRows S)) {r : Unit × Db}
    (hr : forM (toRows S) insertSnapshotRow
      (base.replaceSnapshot householdId ((s.remaining i).map Prod.snd)) = .ok r)
    (hne : S.lots ≠ []) : s.pending = [] ∧ (s.live = [] ∨ s.doomed = s.live.map (i, ·)) := by
  have hS := (hi ▸ hs.observed.supported i : Supported base householdId (tasks i) (.deleted S))
  constructor
  · rcases hs.held.pending with hp | ⟨j, S', hj, hne', hp, -⟩
    · exact hp
    · have hS' := hj ▸ hs.observed.supported j
      obtain ⟨r, hm, row, hrow, hc⟩ := exists_clash (IsReplay.self hS') (IsReplay.self hS) hne' hne
      have hji : j ≠ i := by rintro rfl; cases hi.symm.trans hj
      exact absurd (.inl ⟨(j, r), hp ▸ List.mem_map_of_mem hm, hji, row, hrow, hc⟩) hw
  · rcases hs.observed.replay with hl | ⟨tag, S₀, hS₀, hne₀, hl⟩
    · exact .inl hl
    rcases hs.held.deleted i with ⟨hrem, -⟩ | ⟨hd, -⟩
    · -- a committed row the call has not deleted makes the statement fail
      obtain ⟨r, hm, row, hrow, hc⟩ := exists_clash hS₀ (IsReplay.self hS) hne₀ hne
      refine absurd hc (not_clash_of_insertRows hr row hrow r (List.mem_append_right _ ?_))
      rwa [hrem, hl, map_snd_owner]
    · exact .inr hd

/-- Events that the snapshot of an open call does not cover leave it a replay. -/
theorem Supported.addEvents {task : ProjectionTask} {rows : List InventoryEventRow}
    (hs : Supported base householdId task p)
    (hk : ∀ S ∈ p.held?, knownRows base.events householdId S.asOf =
      knownRows (base.addEvents rows).events householdId S.asOf) :
    Supported (base.addEvents rows) householdId task p := by
  cases p with
  | gotStored current =>
    cases current with
    | none => trivial
    | some S => exact IsReplay.of_knownRows_eq hs (hk S rfl)
  | computed S | deleting S seen | deleted S | saved S =>
    have he := hk S rfl
    rw [(isReplay_iff.mp hs).2.1] at he
    exact IsReplay.of_knownRows_eq hs he
  | _ => trivial

theorem Supported.isReplay {task : ProjectionTask} (hs : Supported base householdId task p)
    (hS : S ∈ p.held?) : IsReplay base.events householdId S.asOf S := by
  cases p with
  | gotStored current => cases hS; exact hs
  | computed _ | deleting _ _ | deleted _ | saved _ => cases hS; exact IsReplay.self hs
  | _ => cases hS

/-- Events of the household must become known after the stored rows and after what the open calls
have read. -/
theorem Sound.addEvents {rows : List InventoryEventRow} (hs : Sound base householdId tasks s)
    (hk : ∀ S, s.current base householdId = some S ∨ (∃ i, S ∈ (s.phase i).held?) →
      ∀ row ∈ rows, row.householdId = householdId → S.asOf < row.laterClock) :
    Sound (base.addEvents rows) householdId tasks s := by
  have hknown : ∀ S, s.current base householdId = some S ∨ (∃ i, S ∈ (s.phase i).held?) →
      knownRows base.events householdId S.asOf =
        knownRows (base.addEvents rows).events householdId S.asOf :=
    fun S hS => (knownRows_append_of_unknown (hk S hS)).symm
  refine ⟨⟨fun i => ?_, ?_, hs.observed.settled, hs.observed.seen⟩, hs.held⟩
  · exact (hs.observed.supported i).addEvents fun S hS => hknown S (.inr ⟨i, hS⟩)
  · rcases hs.current_cases with ⟨hl, -⟩ | ⟨tag, S, hS, hne, hl, hc⟩
    · exact .inl hl
    · exact .inr ⟨tag, S, hS.of_knownRows_eq (hknown S (.inl hc)), hne, hl⟩

theorem Sound.of_tasks {tasks' : ℕ → ProjectionTask} (hs : Sound base householdId tasks s)
    (ht : ∀ i, s.phase i = .started ∨ tasks' i = tasks i) : Sound base householdId tasks' s := by
  refine ⟨⟨fun i => ?_, hs.observed.replay, hs.observed.settled, hs.observed.seen⟩, hs.held⟩
  rcases ht i with h | h
  · rw [h]; trivial
  · rw [h]; exact hs.observed.supported i

theorem Sound.step (hs : Sound base householdId tasks s)
    (h : step base householdId tasks s action = some s') : Sound base householdId tasks s' := by
  obtain ⟨ho, hh⟩ := hs
  obtain ⟨i, -, ⟨p, hr, hl, rfl⟩ | ⟨S, seen, hp, hw, rfl⟩ | ⟨S, r, hp, hw, hr, rfl⟩ |
    ⟨S, -, hp, rfl⟩ | ⟨hc, rfl⟩⟩ := step_cases h
  · have hc : ∀ S, s.phase i ≠ .committed S := by rintro S hS; rw [hS] at hr; exact hr
    have hn : ¬ (s.phase i).Holding := by
      intro h; cases hS : s.phase i <;> rw [hS] at hr h <;> trivial
    rcases hl with rfl | hl | ⟨S, hS, rfl⟩
    · refine ⟨ho.enter hc ?_ (by simp), hh.enter hn id⟩
      cases hst : s.current base householdId with
      | none => trivial
      | some S => exact (Sound.mk ho hh).storedReplay.isReplay hst
    · obtain ⟨hsup, hnp, hd⟩ := supported_of_afterEvents (ho.supported i) hl
      exact ⟨ho.enter hc hsup fun S seen h => absurd h (hd S seen), hh.enter hn hnp⟩
    · have hsup := hS ▸ ho.supported i
      refine ⟨ho.enter hc hsup ?_, hh.enter hn id⟩
      rintro _ _ ⟨⟩; rfl
  · have hsup := hp ▸ ho.supported i
    refine ⟨ho.enter (p := .deleted S) (by rw [hp]; simp) hsup (by simp), ?_⟩
    exact hh.delete hp hw (ho.seen i S seen hp).2
  · have hsup := hp ▸ ho.supported i
    refine ⟨ho.enter (p := .saved S) (by rw [hp]; simp) hsup (by simp), ?_⟩
    exact hh.insert hp ((Sound.mk ho hh).insert_alone hp hw hr)
  · exact ⟨ho.settle hp ((hh.settle_live hp).imp And.left And.left), hh.settle hp⟩
  · exact ⟨ho.enter (p := .failed) hc trivial (by simp), hh.fail i⟩

theorem Sound.reach {s₀ : ProjectionState} (hs : Sound base householdId tasks s₀)
    {ok : ProjectionState → ProjectionAction → Prop}
    (h : Reach (ProjectionState.step base householdId tasks) ok s₀ s) :
    Sound base householdId tasks s :=
  h.invariant hs fun _ _ _ hi _ h => hi.step h

theorem phase_of_ne_index (h : ProjectionState.step base householdId tasks s action = some s')
    (hi : i ≠ action.index) : s'.phase i = s.phase i := by
  obtain ⟨j, rfl, ⟨p, -, -, rfl⟩ | ⟨S, seen, -, -, rfl⟩ | ⟨S, r, -, -, -, rfl⟩ | ⟨S, -, -, rfl⟩ |
    ⟨-, rfl⟩⟩ := step_cases h <;> exact Function.update_of_ne hi ..

theorem Sound.isReplay_returned (hs : Sound base householdId tasks s)
    (h : ProjectionState.step base householdId tasks s action = some s')
    (hn : returned (s.phase i) = none) (hr : returned (s'.phase i) = some S) :
    IsReplay base.events householdId (tasks i).asOf S := by
  obtain rfl : i = action.index := by
    by_contra hi
    rw [phase_of_ne_index h hi, hn] at hr
    cases hr
  obtain ⟨j, rfl, ⟨p, -, hl, rfl⟩ | ⟨S', seen, -, -, rfl⟩ | ⟨S', r, -, -, -, rfl⟩ |
    ⟨S', -, hp, rfl⟩ | ⟨-, rfl⟩⟩ := step_cases h
  · rw [enter_phase, Function.update_self] at hr
    rcases hl with rfl | hl | ⟨S', -, rfl⟩
    · cases hr
    · -- only an instant before the stored one ends with what was read
      obtain ⟨-, rfl⟩ | ⟨current, -, ⟨-, rfl⟩ | ⟨-, rfl⟩⟩ := afterEvents_cases hl
      · exact absurd hr (by rw [returned_toSave]; simp)
      · exact returned_toReturn hr
      · exact absurd hr (by rw [returned_toSave]; simp)
    · cases hr
  · rw [delete, enter_phase, Function.update_self] at hr
    cases hr
  · rw [insert, enter_phase, Function.update_self] at hr
    cases hr
  · rw [settle, enter_phase, Function.update_self] at hr
    cases hr
    exact (hp ▸ hs.observed.supported action.index :)
  · rw [fail, enter_phase, Function.update_self] at hr
    cases hr

end Invariant

section Alone

variable {i : ℕ} {S : InventorySnapshot}

theorem Sound.householdId_of_live (hs : Sound base householdId tasks s) :
    ∀ row ∈ s.live.map Prod.snd, row.householdId = householdId := by
  rcases hs.observed.replay with hl | ⟨tag, S, hS, -, hl⟩
  · simp [hl]
  · rw [hl, map_snd_owner]
    exact fun row hm => (householdId_of_mem_toRows hm).trans (isReplay_iff.mp hS).1

def RunsAs (base : Db) (householdId : UUID) (tasks : ℕ → ProjectionTask) (s : ProjectionState)
    (i : ℕ) (call : Tx InventorySnapshot) : Prop :=
  ∃ actions s', exec (step base householdId tasks) s actions = some s' ∧
    s'.db base householdId = call.commit (s.db base householdId) ∧
    returned (s'.phase i) = (call.answer (s.db base householdId)).toOption

theorem RunsAs.after {p : TaskPhase} {call : Tx InventorySnapshot}
    (h : step base householdId tasks s action = some (s.enter i p))
    (hr : RunsAs base householdId tasks (s.enter i p) i call) :
    RunsAs base householdId tasks s i call := by
  obtain ⟨actions, s', he, hd, ha⟩ := hr
  exact ⟨action :: actions, s', exec_cons h he, hd, ha⟩

theorem RunsAs.of_eq {call call' : Tx InventorySnapshot}
    (h : call (s.db base householdId) = call' (s.db base householdId))
    (hr : RunsAs base householdId tasks s i call') : RunsAs base householdId tasks s i call := by
  rw [RunsAs, Transaction.commit, Transaction.answer, h]
  exact hr

theorem runsAs_save (hs : Sound base householdId tasks s) (hi : s.phase i = .computed S)
    (hd : s.doomed = []) (hp : s.pending = []) (hh : S.householdId = householdId) :
    RunsAs base householdId tasks s i (do save householdId S; return S) := by
  let s₁ := s.enter i (.deleting S s.live)
  let s₂ := s₁.delete i S s.live
  have h₁ : step base householdId tasks s (.startDelete i) = some s₁ := by
    rw [step, hi]
    exact if_neg (not_not.mpr hh)
  have h₂ : step base householdId tasks s₁ (.delete i) = some s₂ := by
    have hp₁ : s₁.phase i = .deleting S s.live := Function.update_self ..
    rw [step, hp₁]
    refine if_neg ?_
    rw [show s₁.doomed = [] from hd]
    rintro ⟨d, hm, -⟩
    cases hm
  have hp₂ : s₂.phase i = .deleted S := Function.update_self ..
  have hd₂ : s₂.doomed = s.live.map (i, ·) := by
    have hall : s.live.filter (· ∈ s.live) = s.live := by simp [List.filter_eq_self]
    rw [show s₂.doomed = s.doomed ++ (s.live.filter (· ∈ s.live)).map (i, ·) from rfl, hd, hall,
      List.nil_append]
  have hrem : s₂.remaining i = [] := by
    rw [remaining, hd₂, show s₂.live = s.live from rfl]
    simp
  have hw : ¬ s₂.Waits i (toRows S) := by
    rintro (⟨p, hm, -⟩ | ⟨d, hm, hne, -⟩)
    · rw [show s₂.pending = [] from hp] at hm; cases hm
    · obtain ⟨v, -, rfl⟩ := List.mem_map.mp (hd₂ ▸ hm)
      exact hne rfl
  have hsave : save householdId S (s.db base householdId) =
      forM (toRows S) insertSnapshotRow (base.replaceSnapshot householdId []) := by
    rw [save_eq hh, db, replaceSnapshot_replaceSnapshot hs.householdId_of_live]
  have h₃ : step base householdId tasks s₂ (.insert i) =
      match forM (toRows S) insertSnapshotRow (base.replaceSnapshot householdId []) with
      | .ok _ => some (s₂.insert i S)
      | .error _ => some (s₂.fail i) := by
    rw [step, hp₂]
    simp only [hw, if_false, hrem, List.map_nil]
  rcases insertRows_cases (toRows S) (base.replaceSnapshot householdId []) with hr | ⟨c, hr⟩
  · rw [hr] at h₃ hsave
    rw [addSnapshotRows_replaceSnapshot] at hsave
    have h₄ : step base householdId tasks (s₂.insert i S) (.commit i) =
        some ((s₂.insert i S).settle i S) := by
      rw [step, show (s₂.insert i S).phase i = .saved S from Function.update_self ..]
    refine ⟨_, _, exec_cons h₁ (exec_cons h₂ (exec_cons h₃ (exec_cons h₄ (exec_nil _)))), ?_, ?_⟩
    · have hlive : ((s₂.insert i S).settle i S).live = (toRows S).map (some i, ·) := by
        rw [settle, show (s₂.insert i S).remaining i = [] from hrem,
          show (s₂.insert i S).pending = s.pending ++ (toRows S).map (i, ·) from rfl, hp,
          List.nil_append, List.nil_append, filter_owner_self, List.map_map]
        rfl
      rw [Transaction.commit_of_ok (Transaction.bind_of_ok hsave), db, hlive, map_snd_owner]
    · rw [Transaction.answer_of_ok (Transaction.bind_of_ok hsave),
        show ((s₂.insert i S).settle i S).phase i = .committed S from Function.update_self ..]
      rfl
  · rw [hr] at h₃ hsave
    refine ⟨_, _, exec_cons h₁ (exec_cons h₂ (exec_cons h₃ (exec_nil _))), ?_, ?_⟩
    · rw [Transaction.commit_of_error (Transaction.bind_of_error hsave)]
      rfl
    · rw [Transaction.answer_of_error (Transaction.bind_of_error hsave),
        show (s₂.fail i).phase i = .failed from Function.update_self ..]
      rfl

/-- A call whose steps are not interleaved runs the repository's `rebuild` or `advance`. -/
theorem exec_alone (hs : Sound base householdId tasks s) (hi : s.phase i = .started)
    (hd : s.doomed = []) (hp : s.pending = []) :
    RunsAs base householdId tasks s i ((tasks i).call householdId) := by
  obtain ⟨S, hS⟩ := exists_isReplay base.events householdId (tasks i).asOf
  have hh := (isReplay_iff.mp hS).1
  cases ht : tasks i with
  | rebuild asOf =>
    rw [ht] at hS
    have hf : foldEvents (eventsKnownAsOf base.events householdId asOf none) householdId asOf =
      .ok S := hS
    have h₁ : step base householdId tasks s (.readEvents i) = some (s.enter i (.computed S)) := by
      rw [step, ht, hi, afterEvents, hf]
      rfl
    refine RunsAs.after h₁ (RunsAs.of_eq (rebuild_eq hS) ?_)
    exact runsAs_save (hs.step h₁) (Function.update_self ..) hd hp hh
  | advance asOf =>
    rw [ht] at hS
    have hf : foldEvents (eventsKnownAsOf base.events householdId asOf none) householdId asOf =
      .ok S := hS
    let s₁ := s.enter i (.gotStored (s.current base householdId))
    have h₁ : step base householdId tasks s (.getStored i) = some s₁ := by
      rw [step, ht, hi]
    have hp₁ : s₁.phase i = .gotStored (s.current base householdId) := Function.update_self ..
    refine RunsAs.after h₁ ?_
    obtain hc | ⟨current, hc⟩ := Option.eq_none_or_eq_some (s.current base householdId)
    all_goals rw [hc] at hp₁
    · have h₂ : step base householdId tasks s₁ (.readEvents i) =
          some (s₁.enter i (.computed S)) := by
        rw [step, ht, hp₁, afterEvents, hf]
        rfl
      refine RunsAs.after h₂ (RunsAs.of_eq (advance_of_none hc hS) ?_)
      exact runsAs_save ((hs.step h₁).step h₂) (Function.update_self ..) hd hp hh
    · by_cases hlt : asOf < current.asOf
      · have h₂ : step base householdId tasks s₁ (.readEvents i) =
            some (s₁.enter i (.projected S)) := by
          rw [step, ht, hp₁, afterEvents, if_pos hlt, hf]
          rfl
        refine RunsAs.after h₂ ⟨[], _, exec_nil _, ?_, ?_⟩
        · exact (Transaction.commit_of_ok (advance_of_earlier hc hlt hS)).symm
        · rw [enter_phase, Function.update_self]
          exact congrArg Except.toOption
            (Transaction.answer_of_ok (advance_of_earlier hc hlt hS)).symm
      · obtain ⟨S', ha, hS'⟩ := (hs.storedReplay.isReplay hc).advance (not_lt.mp hlt)
        cases hS'.unique hS
        have h₂ : step base householdId tasks s₁ (.readEvents i) =
            some (s₁.enter i (.computed S)) := by
          rw [step, ht, hp₁, afterEvents, if_neg hlt]
          exact congrArg (fun r => some (s₁.enter i (toSave r))) ha
        refine RunsAs.after h₂ (RunsAs.of_eq (advance_of_stored hc (not_lt.mp hlt) ha) ?_)
        exact runsAs_save ((hs.step h₁).step h₂) (Function.update_self ..) hd hp hh

end Alone

section Results

/-- Whatever calls overlap, the committed rows carry one instant and are the fold of the events
known at it. -/
theorem projections_never_mix (h₀ : StoredReplay base householdId)
    (h : Reachable (step base householdId tasks) (initial base householdId) s) :
    s.rows base householdId = [] ∨ ∃ asOf S,
      foldEvents (eventsKnownAsOf base.events householdId asOf none) householdId asOf = .ok S ∧
      s.rows base householdId = toRows S ∧
      (∀ row ∈ s.rows base householdId, row.asOf = asOf) ∧
      s.current base householdId = some S := by
  refine ((Sound.initial h₀).reach h).storedReplay.imp_right ?_
  rintro ⟨S, hS, hne, hrows⟩
  obtain ⟨hh, -, hl, -⟩ := isReplay_iff.mp hS
  refine ⟨S.asOf, S, hS, hrows, fun row hm => ?_, stored_toRows hh hl hne hrows⟩
  rw [rows, hrows] at hm
  obtain ⟨lot, -, rfl⟩ := List.mem_map.mp hm
  rfl

end Results

end Calls

section Sample

/-- Two purchases, known from the instants 1 and 6 on, and nothing stored. -/
def stockedKitchen [UnicodeTables] : Db :=
  emptyKitchen.addEvents [
    InventoryEventRepository.toValues 1 11 1 (purchase "a" 1),
    InventoryEventRepository.toValues 1 12 6 (purchase "b" 6)]

def threeCalls : ℕ → ProjectionTask
  | 0 => .advance 5
  | 1 => .advance 10
  | _ => .rebuild 8

/-- The third call starts its `DELETE` before the second one commits, and waits for it. -/
def overlappingSaves : List ProjectionAction :=
  [.getStored 0, .readEvents 0, .startDelete 0, .delete 0, .insert 0, .commit 0,
    .getStored 1, .readEvents 1, .readEvents 2, .startDelete 1, .startDelete 2, .delete 1,
    .insert 1, .commit 1, .delete 2, .insert 2]

theorem projections_never_mix_overlappingSaves :
    letI := asciiTables
    ∃ s, exec (step stockedKitchen 1 threeCalls) (initial stockedKitchen 1) overlappingSaves =
        some s ∧
      s.phase 2 = .failed ∧ (s.rows stockedKitchen 1).map (·.quantity) = [4000] ∧
      (s.rows stockedKitchen 1 = [] ∨ ∃ asOf S,
        foldEvents (eventsKnownAsOf stockedKitchen.events 1 asOf none) 1 asOf = .ok S ∧
        s.rows stockedKitchen 1 = toRows S ∧
        (∀ row ∈ s.rows stockedKitchen 1, row.asOf = asOf) ∧
        s.current stockedKitchen 1 = some S) := by
  let _ := asciiTables
  have h : (exec (guarded (step stockedKitchen 1 threeCalls) unrestricted)
      (initial stockedKitchen 1) overlappingSaves).map
        (fun s => (s.phase 2, (s.rows stockedKitchen 1).map (·.quantity))) =
    some (.failed, [4000]) := by decide +kernel
  obtain ⟨s, hr, hp⟩ := Option.map_eq_some_iff.mp h
  obtain ⟨hf, hq⟩ := Prod.mk.inj hp
  exact ⟨s, exec_of_guarded hr, hf, hq, projections_never_mix (.inl rfl) (Reach.of_exec hr)⟩

end Sample

end ProjectionState

end KitchenSense
