import KitchenSense.Api.Accountability
import KitchenSense.Projection.Columns

/-! # What requests see of each other

A snapshot that is read after an event has been acknowledged counts the event,
unless it is the snapshot of an earlier instant. A snapshot that was read before
and is answered after need not.
-/

namespace KitchenSense

open InventoryEventRepository

def ServicePhase.read? : ServicePhase → Option InventoryReply
  | .projected reply | .answered reply => some reply
  | _ => none

theorem appendReply_ne_snapshot (outcome : Except Failure (InventoryEvent × Bool))
    (response : SnapshotResponse) : appendReply outcome ≠ .snapshot response := by
  unfold appendReply
  split
  · split <;> simp
  · simp
  · split <;> simp

section Counting

variable [UnicodeTables]

structure LotState.Counts (lot : LotState) (event : InventoryEvent) : Prop where
  key : lot.key = LotKey.forEvent event
  occurred : lot.firstOccurredAt ≤ event.occurredAt ∧ event.occurredAt ≤ lot.lastOccurredAt
  recorded : event.recordedAt ≤ lot.lastRecordedAt

theorem GroupedBy.counts {events : List InventoryEvent} {lots : List LotState}
    (h : GroupedBy events lots) {event : InventoryEvent} (hm : event ∈ events) :
    ∃ lot ∈ lots, lot.Counts event := by
  obtain ⟨lot, hl, hk⟩ := List.mem_map.mp ((h.keys _).mpr (List.mem_map_of_mem hm))
  have ht := h.totals lot hl
  have hg : event ∈ lotEvents lot.key events := by
    simp [lotEvents, hm, hk]
  have ho : event.occurredAt ∈ (lotEvents lot.key events).map (·.occurredAt) :=
    List.mem_map_of_mem hg
  have hr : event.recordedAt ∈ (lotEvents lot.key events).map (·.recordedAt) :=
    List.mem_map_of_mem hg
  exact ⟨lot, hl, hk, ⟨(List.min?_eq_some_iff.mp ht.firstOccurredAt).2 _ ho,
    (List.max?_eq_some_iff.mp ht.lastOccurredAt).2 _ ho⟩,
    (List.max?_eq_some_iff.mp ht.lastRecordedAt).2 _ hr⟩

theorem GroupedBy.normalizedUnit {events : List InventoryEvent} {lots : List LotState}
    (h : GroupedBy events lots) {lot : LotState} (hl : lot ∈ lots) :
    NormalizedUnit lot.key.unit := by
  obtain ⟨event, -, hk⟩ := List.mem_map.mp ((h.keys _).mp (List.mem_map_of_mem hl))
  rw [← hk]
  exact ⟨event.unit, rfl⟩

end Counting

namespace InventoryService

variable [UnicodeTables] {settings : Settings} {uuid5 : UUID → String → UUID}
  {jsonb : String → Bool} {requests : ℕ → InventoryRequest} {s s' s₁ s₂ : InventoryService}
  {action : ServiceAction} {i j : ℕ} {first : List HouseholdRow} {db₀ : Db}

section Reads

theorem events_of_moves (h : Moves settings uuid5 jsonb requests s s') :
    s.appends.db.events <+: s'.appends.db.events := by
  cases h with
  | appended hp he hs => exact AppendState.events_of_step hs
  | broken failure hp hs =>
    rcases hs with hs | ⟨rfl, -⟩
    · exact AppendState.events_of_step hs
    · exact List.prefix_rfl
  | _ => exact List.prefix_rfl

/-- A snapshot is read by one step, and only answered by another. -/
theorem snapshot_of_moves {response : SnapshotResponse}
    (h : Moves settings uuid5 jsonb requests s s')
    (hp : (s'.phase j).read? = some (.snapshot response)) :
    (s.phase j).read? = some (.snapshot response) ∨
      (s'.appends = s.appends ∧ s.readReply uuid5 requests j = .snapshot response) := by
  have other {i : ℕ} {p : ServicePhase} (hn : p.read? ≠ some (.snapshot response))
      (h : (Function.update s.phase i p j).read? = some (.snapshot response)) :
      (s.phase j).read? = some (.snapshot response) := by
    by_cases hj : j = i
    · subst hj
      rw [Function.update_self] at h
      exact absurd h hn
    · rwa [Function.update_of_ne hj] at h
  cases h with
  | authenticated =>
    refine .inl (other ?_ hp)
    cases authReply settings _ _ <;> simp [afterAuthentication, ServicePhase.read?]
  | unconfigured | raised | homeless | opened | closed | broken | unanswered =>
    exact .inl (other (by simp [ServicePhase.read?]) hp)
  | sighted =>
    refine .inl (other ?_ hp)
    unfold afterSight
    split <;> simp [ServicePhase.read?]
  | @handled i =>
    refine .inl (other ?_ hp)
    rcases begin_cases uuid5 jsonb (requests i) with ⟨-, hb⟩ |
      ⟨-, ⟨errors, -, hb⟩ | ⟨-, ⟨-, hb⟩ | ⟨-, hb⟩⟩⟩ <;> rw [hb] <;> simp [ServicePhase.read?]
  | appended =>
    refine .inl (other ?_ hp)
    unfold afterAppend
    split <;> simp [ServicePhase.read?, appendReply_ne_snapshot]
  | @read i =>
    change (Function.update s.phase i _ j).read? = _ at hp
    by_cases hj : j = i
    · subst hj
      rw [Function.update_self] at hp
      exact .inr ⟨rfl, Option.some.inj hp⟩
    · rw [Function.update_of_ne hj] at hp
      exact .inl hp
  | @replied i reply hi =>
    change (Function.update s.phase i _ j).read? = _ at hp
    left
    -- what has been read before is answered
    by_cases hj : j = i
    · subst hj
      rw [Function.update_self] at hp
      rwa [hi]
    · rwa [Function.update_of_ne hj] at hp
  | responded => exact .inl (other (by simp [ServicePhase.read?, appendReply_ne_snapshot]) hp)

def ReadBetween (uuid5 : UUID → String → UUID) (requests : ℕ → InventoryRequest)
    (s₁ s₂ : InventoryService) (j : ℕ) (response : SnapshotResponse) : Prop :=
  ∃ (db : Db) (S : InventorySnapshot), s₁.appends.db.events <+: db.events ∧
    db.events <+: s₂.appends.db.events ∧
    IsReplay db.events (sights uuid5 requests j).householdId (requests j).asOf S ∧
    response = .fromDomain S

theorem readBetween_of_reachable {response : SnapshotResponse}
    (h : Reachable (step settings uuid5 jsonb requests) s₁ s₂) (hj : (s₁.phase j).read? = none)
    (hp : (s₂.phase j).read? = some (.snapshot response)) :
    ReadBetween uuid5 requests s₁ s₂ j response := by
  suffices hinv : s₁.appends.db.events <+: s₂.appends.db.events ∧
      ((s₂.phase j).read? = some (.snapshot response) →
        ReadBetween uuid5 requests s₁ s₂ j response)
    from hinv.2 hp
  clear hp
  refine h.invariant (I := fun s => s₁.appends.db.events <+: s.appends.db.events ∧
    ((s.phase j).read? = some (.snapshot response) → ReadBetween uuid5 requests s₁ s j response))
    ⟨List.prefix_rfl, fun hp => by rw [hj] at hp; cases hp⟩ ?_
  rintro s a s' ⟨hgrown, hread⟩ - hstep
  have hm := moves_of_step hstep
  have he := events_of_moves hm
  refine ⟨hgrown.trans he, fun hp => ?_⟩
  rcases snapshot_of_moves hm hp with hp | ⟨-, hr⟩
  · obtain ⟨db, S, hfrom, hto, hS⟩ := hread hp
    exact ⟨db, S, hfrom, hto.trans he, hS⟩
  · rcases readReply_cases uuid5 requests s j with ⟨S, hS, hreply⟩ | ⟨-, hreply⟩
    · exact ⟨s.appends.db, S, hgrown, he, hS, InventoryReply.snapshot.inj (hr.symm.trans hreply)⟩
    · cases hr.symm.trans hreply

theorem Accounted.mem_of_acknowledged {event : InventoryEventResponse}
    (h : Accounted settings uuid5 jsonb requests db₀ s)
    (hp : s.phase i = .answered (.created event) ∨ s.phase i = .answered (.existing event)) :
    ∃ r ∈ s.appends.db.events, event = .fromDomain r.toDomain := by
  rcases hp with hp | hp
  · obtain ⟨-, hr, -, he⟩ := h.created i event (by rw [hp]; rfl)
    exact ⟨_, hr, he⟩
  · obtain ⟨-, r, hr, he, -⟩ := h.existing i event (by rw [hp]; rfl)
    exact ⟨r, hr, he⟩

/-- A snapshot that had not been read when an event of its household was acknowledged counts the
event, unless the snapshot is of an instant before it. -/
theorem reads_see_writes {event : InventoryEventResponse} {response : SnapshotResponse}
    (hl : LowerSettled)
    (hw : ∀ c, (UnicodeTables.lowerOf c).length = if c = 'İ' then 2 else 1)
    (hv : Vouched settings requests) (hn : (first.map (·.id)).Nodup)
    (hdb : Db.Valid { db₀ with households := first.map (·.id) })
    (h : Reachable (step settings uuid5 jsonb requests) (initial first db₀) s₁)
    (hi : s₁.phase i = .answered (.created event) ∨ s₁.phase i = .answered (.existing event))
    (hj : (s₁.phase j).read? = none)
    (h' : Reachable (step settings uuid5 jsonb requests) s₁ s₂)
    (hs : s₂.phase j = .answered (.snapshot response))
    (hh : event.householdId = (sights uuid5 requests j).householdId)
    (ho : event.occurredAt ≤ (requests j).asOf) (hr : event.recordedAt ≤ (requests j).asOf) :
    ∃ log, s₁.appends.db.events <+: log ∧ log <+: s₂.appends.db.events ∧
      IsReplay log (sights uuid5 requests j).householdId (requests j).asOf response.snapshot ∧
      ∃ r ∈ log, event = .fromDomain r.toDomain ∧
        ∃ lot ∈ response.snapshot.lots, lot.Counts r.toDomain := by
  have hsound := (Sound.initial hn hdb).reach hl hw hv h
  obtain ⟨r, hm, rfl⟩ := hsound.accounted.mem_of_acknowledged hi
  obtain ⟨db, S, hfrom, hto, hS, rfl⟩ := readBetween_of_reachable h' hj (by rw [hs]; rfl)
  have hgroups := hS.groupedBy
  rw [SnapshotResponse.snapshot_fromDomain hl fun lot => hgroups.normalizedUnit]
  have hknown : r ∈ knownRows db.events (sights uuid5 requests j).householdId
      (requests j).asOf := mem_knownRows.mpr ⟨hfrom.subset hm, hh, ho, hr⟩
  exact ⟨db.events, hfrom, hto, hS, r, hfrom.subset hm, rfl,
    hgroups.counts (List.mem_map_of_mem hknown)⟩

end Reads

end InventoryService

namespace InventoryService

open TokenVerifier (kitchenSettings)

def hostEvent [UnicodeTables] : InventoryEvent := (posts memberUuid5 memberRequests 0).row.toDomain

def readsAfterwards : List ServiceAction :=
  [.authenticate 4, .openSession 4, .readHousehold 4, .handle 4, .project 4, .respond 4]

theorem reads_see_writes_readsAfterwards :
    letI := dottedTables
    ∃ s₁ s₂, exec (guarded (step kitchenSettings memberUuid5 (fun _ => true) memberRequests)
        unrestricted) (initial [] emptyKitchen) appendsAtOnce = some s₁ ∧
      exec (guarded (step kitchenSettings memberUuid5 (fun _ => true) memberRequests)
        unrestricted) s₁ readsAfterwards = some s₂ ∧
      s₁.phase 0 = .answered (.created (.fromDomain hostEvent)) ∧
      s₂.phase 4 = .answered (.snapshot (.fromDomain ⟨1, 100, [lotFromEvent hostEvent]⟩)) ∧
      ∃ log, s₁.appends.db.events <+: log ∧ log <+: s₂.appends.db.events ∧
        IsReplay log (sights memberUuid5 memberRequests 4).householdId (memberRequests 4).asOf
          (SnapshotResponse.fromDomain ⟨1, 100, [lotFromEvent hostEvent]⟩).snapshot ∧
        ∃ r ∈ log, InventoryEventResponse.fromDomain hostEvent = .fromDomain r.toDomain := by
  let _ := dottedTables
  have h : ((exec (guarded (step kitchenSettings memberUuid5 (fun _ => true) memberRequests)
      unrestricted) (initial [] emptyKitchen) appendsAtOnce).bind fun s₁ =>
        (exec (guarded (step kitchenSettings memberUuid5 (fun _ => true) memberRequests)
          unrestricted) s₁ readsAfterwards).map fun s₂ =>
            (s₁.phase 0, s₁.phase 4, s₂.phase 4)) =
      some (.answered (.created (.fromDomain hostEvent)), .received,
        .answered (.snapshot (.fromDomain ⟨1, 100, [lotFromEvent hostEvent]⟩))) := by
    decide +kernel
  obtain ⟨s₁, h₁, h⟩ := Option.bind_eq_some_iff.mp h
  obtain ⟨s₂, h₂, hp⟩ := Option.map_eq_some_iff.mp h
  rw [Prod.mk.injEq, Prod.mk.injEq] at hp
  have hdb : Db.Valid { emptyKitchen with
      households := ([] : List HouseholdRow).map (·.id) } :=
    ⟨by decide, by decide, by decide, by decide⟩
  obtain ⟨log, hfrom, hto, hS, r, hr, he, -⟩ := reads_see_writes dottedTables_lowerSettled
    dottedTables_length vouched_memberRequests (by simp) hdb (Reach.of_exec h₁) (.inl hp.1)
    (by rw [hp.2.1]; rfl) (Reach.of_exec h₂) hp.2.2 (by decide +kernel) (by decide +kernel)
    (by decide +kernel)
  exact ⟨s₁, s₂, h₁, h₂, hp.1, hp.2.2, log, hfrom, hto, hS, r, hr, he⟩

end InventoryService

end KitchenSense
