import KitchenSense.Projection.Refinement
import KitchenSense.Concurrency.Server

/-! # Appends that commit late

The window of `advance` and the filter of `snapshot_as_of` go by the clocks of
an event, but others see the event only once its transaction commits. As long
as it commits before anything was projected or answered at an instant that
covers its clocks, no event is missed and no answer about the past changes. An
append that commits later is lost to `advance` and rewrites the past.
-/

namespace KitchenSense

open InventoryEventRepository InventorySnapshotRepository

namespace Server

def idle : Server := .initial 0 emptyKitchen

def saving (i : ℕ) : List ServerAction :=
  [ProjectionAction.getStored i, .readEvents i, .startDelete i, .delete i, .insert i, .commit i].map
    (.project 1)

/-- An append that is open while the first one commits, and commits before the next advance. -/
def promptCommits : List ServerAction :=
  [.tick 1, .beginAppend 0 1 10 (purchase "a" 1), .beginAppend 1 1 11 (purchase "b" 1), .tick 4,
    .commitAppend 0, .snapshotAsOf 1 0, .commitAppend 1, .advance 1] ++ saving 0 ++
  [.snapshotAsOf 1 3, .tick 9, .snapshotAsOf 1 3]

/-- An append that is open over an advance and over a first request about its instant. -/
def lateCommit : List ServerAction :=
  [.tick 1, .beginAppend 0 1 10 (purchase "a" 1), .commitAppend 0, .tick 5,
    .beginAppend 1 1 11 (purchase "b" 5), .tick 10, .advance 1] ++ saving 0 ++
  [.snapshotAsOf 1 6, .commitAppend 1, .tick 11, .snapshotAsOf 1 6, .advance 1] ++ saving 1

section Advance

variable [UnicodeTables] {s s' s₀ : Server}

/-- The snapshots that calls for the household go by: the stored one and those of open calls. -/
def inUse (s : Server) (householdId : UUID) : List InventorySnapshot :=
  ((s.projections householdId).current s.db householdId).toList ++
    (List.range (s.calls householdId).length).filterMap
      fun i => ((s.projections householdId).phase i).held?

/-- An append that inserts its row commits before a snapshot in use covers the clocks of the row. -/
def CommitsAfterReads (s : Server) : ServerAction → Prop
  | .commitAppend txn => ∀ a ∈ s.pending txn, Admissible s.db a.row →
      ∀ S ∈ s.inUse a.householdId, S.asOf < a.row.laterClock
  | _ => True

instance (s : Server) (action : ServerAction) : Decidable (s.CommitsAfterReads action) :=
  match action with
  | .commitAppend _ => inferInstanceAs (Decidable (∀ a ∈ s.pending _, _ → ∀ S ∈ s.inUse _, _))
  | .tick _ | .beginAppend .. | .rollbackAppend _ | .advance _ | .project .. | .snapshotAsOf .. =>
    inferInstanceAs (Decidable True)

/-- A valid log; every household's stored rows and what its open calls hold are replays of it. -/
structure Sound (s : Server) : Prop where
  valid : s.db.Valid
  uncalled : ∀ householdId i, (s.calls householdId).length ≤ i →
    (s.projections householdId).phase i = .started
  projections : ∀ householdId,
    (s.projections householdId).Sound s.db householdId (s.tasks householdId)

theorem Sound.mem_inUse (hs : s.Sound) {householdId : UUID} {S : InventorySnapshot} :
    S ∈ s.inUse householdId ↔ (s.projections householdId).current s.db householdId = some S ∨
      ∃ i, S ∈ ((s.projections householdId).phase i).held? := by
  rw [inUse, List.mem_append, Option.mem_toList, List.mem_filterMap]
  refine or_congr Iff.rfl (exists_congr fun i => and_iff_right_of_imp fun h => ?_)
  rw [List.mem_range]
  by_contra hi
  rw [hs.uncalled householdId i (not_lt.mp hi)] at h
  cases h

theorem Sound.initial {now : Instant} {db : Db} (hv : db.Valid)
    (hs : ∀ householdId, StoredReplay db householdId) : (initial now db).Sound where
  valid := hv
  uncalled _ _ _ := rfl
  projections h := .initial (hs h)

theorem Sound.step {action : ServerAction} (hs : s.Sound) (hok : s.CommitsAfterReads action)
    (h : s.step action = some s') : s'.Sound := by
  obtain ⟨now, pending, rfl⟩ | ⟨txn, a, pending, rfl, ha, hadm, rfl⟩ | ⟨householdId, rfl, rfl⟩ |
    ⟨householdId, a, p, rfl, hi, hp, rfl⟩ | ⟨householdId, t, S, rfl, -, rfl⟩ := step_cases h
  · exact ⟨hs.valid, hs.uncalled, hs.projections⟩
  · refine ⟨hs.valid.addEvent hadm, hs.uncalled, fun h => (hs.projections h).addEvents ?_⟩
    rintro S hS row hm rfl
    obtain rfl := List.mem_singleton.mp hm
    exact hok a ha hadm S (hs.mem_inUse.mpr hS)
  · -- the new call has not started
    refine ⟨hs.valid, ?_, fun h => (hs.projections h).of_tasks ?_⟩
    · exact (Function.forall_update_iff s.calls fun h calls =>
        ∀ i, calls.length ≤ i → (s.projections h).phase i = .started).mpr
          ⟨fun i hi => hs.uncalled householdId i (le_trans (by simp) hi), fun h _ => hs.uncalled h⟩
    · refine (Function.forall_update_iff s.calls fun h calls => ∀ i,
        (s.projections h).phase i = .started ∨
          ProjectionTask.advance (calls[i]?.getD 0) = s.tasks h i).mpr
            ⟨fun i => ?_, fun h _ i => .inr rfl⟩ h
      rcases lt_or_ge i (s.calls householdId).length with hi | hi
      · exact .inr (by rw [List.getElem?_append_left hi]; rfl)
      · exact .inl (hs.uncalled householdId i hi)
  · refine ⟨hs.valid, ?_, ?_⟩
    · refine (Function.forall_update_iff s.projections fun h p =>
        ∀ i, (s.calls h).length ≤ i → p.phase i = .started).mpr
          ⟨fun i hle => ?_, fun h _ => hs.uncalled h⟩
      rw [ProjectionState.phase_of_ne_index hp (hi.trans_le hle).ne']
      exact hs.uncalled householdId i hle
    · exact (Function.forall_update_iff s.projections fun h p => p.Sound s.db h (s.tasks h)).mpr
        ⟨(hs.projections householdId).step hp, fun h _ => hs.projections h⟩
  · exact ⟨hs.valid, hs.uncalled, hs.projections⟩

/-- A call of `advance` answers with the full replay of the committed log: one that returns now, at
the instant it was called for, and one that is made now. -/
structure MissesNothing (s : Server) (householdId : UUID) : Prop where
  returned : ∀ action s' i S, s.step (.project householdId action) = some s' →
    ProjectionState.returned ((s.projections householdId).phase i) = none →
    ProjectionState.returned ((s'.projections householdId).phase i) = some S →
    IsReplay s'.db.events householdId (s.tasks householdId i).asOf S
  called : ∃ S, IsReplay s.db.events householdId s.now S ∧
    ProjectsLike (s.tables householdId) householdId s.now S

theorem Sound.missesNothing (hs : s.Sound) (householdId : UUID) : s.MissesNothing householdId where
  returned action s' i S h hn hr := by
    obtain ⟨_, _, rfl⟩ | ⟨_, _, _, ⟨⟩, -⟩ | ⟨_, ⟨⟩, -⟩ | ⟨_, _, p, ⟨⟩, -, hp, rfl⟩ |
      ⟨_, _, _, ⟨⟩, -⟩ := step_cases h
    · cases hn.symm.trans hr
    · dsimp only at hr
      rw [Function.update_self] at hr
      exact (hs.projections householdId).isReplay_returned hp hn hr
  called := by
    obtain ⟨S, hS⟩ := exists_isReplay s.db.events householdId s.now
    have hv : (s.tables householdId).Valid := hs.valid.of_events_eq rfl rfl rfl
    exact ⟨S, hS, (hs.projections householdId).storedReplay.projectsLike hv hS⟩

/-- As long as no append commits behind what the calls go by, no call misses an event. -/
theorem advance_misses_nothing {now : Instant} {db : Db} (hv : db.Valid)
    (hs : ∀ householdId, StoredReplay db householdId)
    (h : Reach step CommitsAfterReads (initial now db) s) (householdId : UUID) :
    s.MissesNothing householdId := by
  have hi : s.Sound := h.invariant (.initial hv hs) fun _ _ _ hi hok h => hi.step hok h
  exact hi.missesNothing householdId

/-- An append that commits behind a snapshot in use leaves it no replay of the log. -/
theorem not_isReplay_of_late_commit {txn : ℕ} {a : PendingAppend} (hs : s.Sound)
    (hok : ¬ s.CommitsAfterReads (.commitAppend txn)) (h : s.step (.commitAppend txn) = some s')
    (ha : s.pending txn = some a) :
    ∃ S ∈ s'.inUse a.householdId, ¬ IsReplay s'.db.events a.householdId S.asOf S := by
  obtain ⟨hadm, S, hS, hle⟩ : Admissible s.db a.row ∧
      ∃ S ∈ s.inUse a.householdId, a.row.laterClock ≤ S.asOf := by
    rw [CommitsAfterReads, ha] at hok
    simpa using hok
  obtain ⟨pending, rfl⟩ := commitAppend_of_admissible h ha hadm
  refine ⟨S, hS, fun hr => ?_⟩
  have hp := hs.projections a.householdId
  have hS' : IsReplay s.db.events a.householdId S.asOf S := by
    rcases hs.mem_inUse.mp hS with hc | ⟨i, hi⟩
    · exact hp.storedReplay.isReplay hc
    · exact (hp.observed.supported i).isReplay hi
  exact hS'.ne_of_known_row hr (mem_knownRows.mpr
    ⟨List.mem_singleton_self _, rfl, max_le_iff.mp hle⟩) rfl

/-- A row that commits behind the stored projection is missing from every later advance. -/
theorem advance_misses_late_commit {txn : ℕ} {a : PendingAppend} {S₀ S : InventorySnapshot}
    {asOf : Instant} (hs : s.Sound) (h : s.step (.commitAppend txn) = some s')
    (ha : s.pending txn = some a) (hadm : Admissible s.db a.row)
    (hs₀ : (s.projections a.householdId).current s.db a.householdId = some S₀)
    (hle : a.row.laterClock ≤ S₀.asOf) (ht : S₀.asOf ≤ asOf)
    (hS : IsReplay s'.db.events a.householdId asOf S) (db' : Db) :
    InventorySnapshotRepository.advance a.householdId asOf (s'.tables a.householdId) ≠
      .ok (S, db') := by
  obtain ⟨pending, rfl⟩ := commitAppend_of_admissible h ha hadm
  -- what is stored and what the window adds to it are as before the commit
  have hr₀ := (hs.projections a.householdId).storedReplay.isReplay hs₀
  obtain ⟨S₁, ha₁, hS₁⟩ := hr₀.advance ht
  have hadv : InventorySnapshotRepository.advance a.householdId asOf
      ((s.tables a.householdId).addEvents [a.row]) =
        (do save a.householdId S₁; return S₁ : Tx _)
          ((s.tables a.householdId).addEvents [a.row]) := by
    refine advance_of_stored hs₀ ht ?_
    rw [Db.addEvents, eventsKnownBetween_append_of_known hle]
    exact ha₁
  have hne : S ≠ S₁ := hS₁.ne_of_known_row hS (mem_knownRows.mpr
    ⟨List.mem_singleton_self _, rfl, max_le_iff.mp (hle.trans ht)⟩)
  change InventorySnapshotRepository.advance a.householdId asOf
    ((s.tables a.householdId).addEvents [a.row]) ≠ _
  rw [hadv]
  rcases save_return_cases (isReplay_iff.mp hS₁).1 ((s.tables a.householdId).addEvents [a.row])
    with h | ⟨c, h⟩
  · rw [h]; rintro ⟨⟩; exact hne rfl
  · rw [h]; rintro ⟨⟩

end Advance

/-- The quantities of the snapshot that a call for the household returned. -/
def quantities (s : Server) (householdId : UUID) (i : ℕ) : Option (List Decimal) :=
  (ProjectionState.returned ((s.projections householdId).phase i)).map (·.lots.map (·.quantity))

theorem advance_misses_nothing_promptCommits :
    letI := asciiTables
    ∃ s, exec (guarded step CommitsAfterReads) idle promptCommits = some s ∧
      s.quantities 1 0 = some [4000] ∧ s.MissesNothing 1 := by
  let _ := asciiTables
  have h : (exec (guarded step CommitsAfterReads) idle promptCommits).map (·.quantities 1 0) =
    some (some [4000]) := by decide +kernel
  obtain ⟨s, hr, hq⟩ := Option.map_eq_some_iff.mp h
  exact ⟨s, hr, hq,
    advance_misses_nothing emptyKitchen_valid (fun _ => .inl rfl) (Reach.of_exec hr) 1⟩

/-- The second purchase is in the committed log and not in what the second call returns. -/
theorem advance_misses_lateCommit :
    letI := asciiTables
    ∃ s, exec step idle lateCommit = some s ∧
      (s.tasks 1 1).asOf = 11 ∧ s.quantities 1 1 = some [2000] ∧
      ((projectKnownAsOf 1 11).answer (s.tables 1)).map (·.lots.map (·.quantity)) =
        .ok [4000] := by
  let _ := asciiTables
  have h : (exec step idle lateCommit).map (fun s => ((s.tasks 1 1).asOf, s.quantities 1 1,
      ((projectKnownAsOf 1 11).answer (s.tables 1)).map (·.lots.map (·.quantity)))) =
    some (11, some [2000], .ok [4000]) := by decide +kernel
  obtain ⟨s, hr, hn⟩ := Option.map_eq_some_iff.mp h
  obtain ⟨ht, hn⟩ := Prod.mk.inj hn
  exact ⟨s, hr, ht, Prod.mk.inj hn⟩

/-- An append that commits after a call has read and before it saves is missed as well. -/
example :
    letI := asciiTables
    (exec step idle ([.tick 1, .beginAppend 0 1 10 (purchase "a" 1), .commitAppend 0, .tick 3,
        .advance 1] ++ saving 0 ++ [.tick 5, .beginAppend 1 1 11 (purchase "b" 5), .tick 10,
        .advance 1] ++ (saving 1).take 2 ++ [.commitAppend 1] ++ (saving 1).drop 2 ++ [.tick 11,
        .advance 1] ++ saving 2)).map (·.quantities 1 2) = some (some [2000]) := by
  decide +kernel

section AsOf

variable [UnicodeTables] {s s' s₀ : Server}

/-- An append commits before its household was answered about a past instant that covers its row. -/
def CommitsAfterAnswers (s : Server) : ServerAction → Prop
  | .commitAppend txn => ∀ a ∈ s.pending txn, Admissible s.db a.row →
      ∀ r ∈ s.answers, r.Past → r.householdId = a.householdId → r.timestamp < a.row.laterClock
  | _ => True

instance (s : Server) (action : ServerAction) : Decidable (s.CommitsAfterAnswers action) :=
  match action with
  | .commitAppend _ => inferInstanceAs (Decidable (∀ a ∈ s.pending _, _ → ∀ r ∈ s.answers, _))
  | .tick _ | .beginAppend .. | .rollbackAppend _ | .advance _ | .project .. | .snapshotAsOf .. =>
    inferInstanceAs (Decidable True)

/-- Every answer about the past is the replay of the log as it is now. -/
def AnswersStand (s : Server) : Prop :=
  ∀ r ∈ s.answers, r.Past → IsReplay s.db.events r.householdId r.timestamp r.snapshot

theorem answersStand_step {action : ServerAction} (hi : s.AnswersStand)
    (hok : s.CommitsAfterAnswers action) (h : s.step action = some s') : s'.AnswersStand := by
  intro r hm hr
  obtain ⟨_, _, rfl⟩ | ⟨txn, a, _, rfl, hp, hadm, rfl⟩ | ⟨_, rfl, rfl⟩ | ⟨_, _, _, rfl, -, -, rfl⟩ |
    ⟨householdId, t, S, rfl, hS, rfl⟩ := step_cases h
  · exact hi r hm hr
  · refine (hi r hm hr).of_knownRows_eq (knownRows_append_of_unknown ?_).symm
    intro row hrow hh
    rw [List.mem_singleton.mp hrow] at hh ⊢
    exact hok a hp hadm r hm hr hh.symm
  · exact hi r hm hr
  · exact hi r hm hr
  · rcases List.mem_cons.mp hm with rfl | hm
    · exact hS
    · exact hi r hm hr

/-- Two answers about one past instant of a household are the same. -/
theorem snapshot_as_of_past_stands (hs : s₀.answers = [])
    (h : Reach step CommitsAfterAnswers s₀ s) {r r' : Answer} (hr : r ∈ s.answers)
    (hr' : r' ∈ s.answers) (hp : r.Past) (hp' : r'.Past) (hh : r'.householdId = r.householdId)
    (ht : r'.timestamp = r.timestamp) : r'.snapshot = r.snapshot := by
  have hi : s.AnswersStand := h.invariant (I := AnswersStand) (by simp [AnswersStand, hs])
    fun _ _ _ hi hok h => answersStand_step hi hok h
  have h' := hi r' hr' hp'
  rw [hh, ht] at h'
  exact h'.unique (hi r hr hp)

theorem snapshot_as_of_past_changes {txn : ℕ} {a : PendingAppend} (hi : s.AnswersStand)
    (h : s.step (.commitAppend txn) = some s') (ha : s.pending txn = some a)
    (hok : ¬ s.CommitsAfterAnswers (.commitAppend txn)) :
    ∃ r ∈ s'.answers, r.Past ∧ ¬ IsReplay s'.db.events r.householdId r.timestamp r.snapshot := by
  obtain ⟨hadm, r, hr, hp, hh, hle⟩ : Admissible s.db a.row ∧ ∃ r ∈ s.answers, r.Past ∧
      r.householdId = a.householdId ∧ a.row.laterClock ≤ r.timestamp := by
    rw [CommitsAfterAnswers, ha] at hok
    simpa using hok
  obtain ⟨pending, rfl⟩ := commitAppend_of_admissible h ha hadm
  exact ⟨r, hr, hp, fun hS => (hi r hr hp).ne_of_known_row hS (mem_knownRows.mpr
    ⟨List.mem_singleton_self _, hh.symm, max_le_iff.mp hle⟩) rfl⟩

/-- Only an append that was open when the answer was given can come behind it. -/
theorem timestamp_lt_laterClock {a : PendingAppend} {r : Answer} (hp : r.Past)
    (hs : r.answeredAt ≤ a.startedAt) (he : a.event.recordedAt = none) :
    r.timestamp < a.row.laterClock := by
  have : a.row.recordedAt = a.startedAt := by
    rw [PendingAppend.row, toValues, he]
    rfl
  exact (lt_of_lt_of_le hp (hs.trans this.ge)).trans_le (le_max_right _ _)

end AsOf

theorem snapshot_as_of_past_stands_promptCommits :
    letI := asciiTables
    ∃ s, exec (guarded step CommitsAfterAnswers) idle promptCommits = some s ∧
      s.answers.map (fun r => (r.timestamp, r.answeredAt, r.snapshot.lots.map (·.quantity))) =
        [(3, 9, [4000]), (3, 4, [4000]), (0, 4, [])] ∧
      ∀ r ∈ s.answers.take 2, ∀ r' ∈ s.answers.take 2, r'.snapshot = r.snapshot := by
  let _ := asciiTables
  have h : (exec (guarded step CommitsAfterAnswers) idle promptCommits).map (fun s =>
      (s.answers.map fun r => (r.timestamp, r.answeredAt, r.snapshot.lots.map (·.quantity)),
        decide (∀ r ∈ s.answers.take 2, r.Past ∧ r.householdId = 1 ∧ r.timestamp = 3))) =
    some ([(3, 9, [4000]), (3, 4, [4000]), (0, 4, [])], true) := by decide +kernel
  obtain ⟨s, hr, hn⟩ := Option.map_eq_some_iff.mp h
  obtain ⟨ha, hd⟩ := Prod.mk.inj hn
  refine ⟨s, hr, ha, fun r hm r' hm' => ?_⟩
  obtain ⟨hp, hh, ht⟩ := of_decide_eq_true hd r hm
  obtain ⟨hp', hh', ht'⟩ := of_decide_eq_true hd r' hm'
  exact snapshot_as_of_past_stands rfl (Reach.of_exec hr) (List.mem_of_mem_take hm)
    (List.mem_of_mem_take hm') hp hp' (hh'.trans hh.symm) (ht'.trans ht.symm)

/-- The same past instant is answered with and without the second purchase. -/
theorem snapshot_as_of_past_changes_lateCommit :
    letI := asciiTables
    ∃ s, exec step idle lateCommit = some s ∧
      s.answers.map (fun r => (r.householdId, r.timestamp, r.answeredAt,
        r.snapshot.lots.map (·.quantity))) = [(1, 6, 11, [4000]), (1, 6, 10, [2000])] := by
  let _ := asciiTables
  have h : (exec step idle lateCommit).map (fun s => s.answers.map fun r =>
      (r.householdId, r.timestamp, r.answeredAt, r.snapshot.lots.map (·.quantity))) =
    some [(1, 6, 11, [4000]), (1, 6, 10, [2000])] := by decide +kernel
  exact Option.map_eq_some_iff.mp h

end Server

end KitchenSense
