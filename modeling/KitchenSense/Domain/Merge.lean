import KitchenSense.Domain.GroupBy

/-! # Sharded replay

A household's events may be replayed in shards, each at an instant of its own,
and the snapshots merged in any shape and order. A snapshot lists a ledger, and
merging adds ledgers, so the result is the replay of all the events at once.
-/

namespace KitchenSense

section Lists

variable {householdId : UUID} {asOf asOf' : Instant} {L L' : Ledger LotKey LotTally}
  {S S' : InventorySnapshot}

/-- The snapshot of a household at an instant that lists the lots of a ledger. -/
structure ListsLedger (householdId : UUID) (asOf : Instant) (L : Ledger LotKey LotTally)
    (S : InventorySnapshot) : Prop where
  householdId_eq : S.householdId = householdId
  asOf_eq : S.asOf = asOf
  listed : Listed S.lots
  ledger : lotsLedger S.lots = L

theorem ListsLedger.unique (h : ListsLedger householdId asOf L S)
    (h' : ListsLedger householdId asOf L S') :
    S = S' := by
  have hh : S.householdId = S'.householdId := h.householdId_eq.trans h'.householdId_eq.symm
  have ht : S.asOf = S'.asOf := h.asOf_eq.trans h'.asOf_eq.symm
  have hlots : S.lots = S'.lots :=
    h.listed.eq_of_ledger_eq h'.listed (h.ledger.trans h'.ledger.symm)
  cases S
  cases S'
  simp_all only

theorem ListsLedger.combine (h : ListsLedger householdId asOf L S)
    (h' : ListsLedger householdId asOf' L' S') :
    ∃ R, combineSnapshots S S' = .ok R ∧ ListsLedger householdId (max asOf asOf') (L + L') R := by
  obtain ⟨rfl, rfl, hs, rfl⟩ := h
  obtain ⟨hh, rfl, hs', rfl⟩ := h'
  obtain ⟨lots, hc, hlots, hl⟩ := combineSnapshots_spec hs.nodup_keys hh.symm
  exact ⟨_, hc, rfl, rfl, hlots, hl⟩

theorem ListsLedger.empty (householdId : UUID) (asOf : Instant) :
    ListsLedger householdId asOf 0 (emptySnapshot householdId asOf) :=
  ⟨rfl, rfl, List.Pairwise.nil, rfl⟩

theorem Listed.lists (h : Listed S.lots) : ListsLedger S.householdId S.asOf (lotsLedger S.lots) S :=
  ⟨rfl, rfl, h, rfl⟩

variable [UnicodeTables] {events : List InventoryEvent}

theorem ListsLedger.apply (h : ListsLedger householdId asOf L S) (ha : asOf ≤ asOf')
    (hk : ∀ event ∈ events, event.KnownAt householdId asOf') :
    ∃ R, applyEvents S events asOf' = .ok R ∧
      ListsLedger householdId asOf' (L + eventsLedger events) R := by
  obtain ⟨rfl, rfl, hs, rfl⟩ := h
  obtain ⟨lots, he, hlots, hl⟩ := applyEvents_spec S events hs.nodup_keys ha hk
  exact ⟨_, he, rfl, rfl, hlots, hl⟩

theorem lists_foldEvents (hk : ∀ event ∈ events, event.KnownAt householdId asOf) :
    ∃ S, foldEvents events householdId asOf = .ok S ∧
      ListsLedger householdId asOf (eventsLedger events) S := by
  obtain ⟨lots, he, hs, hl⟩ := foldEvents_spec events hk
  exact ⟨_, he, rfl, rfl, hs, hl⟩

end Lists

section Laws

variable {A B C : InventorySnapshot}

theorem combineSnapshots_comm (ha : Listed A.lots) (hb : Listed B.lots)
    (h : A.householdId = B.householdId) :
    ∃ S, combineSnapshots A B = .ok S ∧ combineSnapshots B A = .ok S := by
  obtain ⟨S, hS, hl⟩ := ListsLedger.combine ha.lists (h ▸ hb.lists)
  obtain ⟨S', hS', hl'⟩ := ListsLedger.combine (h ▸ hb.lists) ha.lists
  rw [max_comm, add_comm] at hl'
  cases ListsLedger.unique hl hl'
  exact ⟨S, hS, hS'⟩

theorem combineSnapshots_assoc (ha : Listed A.lots) (hb : Listed B.lots) (hc : Listed C.lots)
    (hab : A.householdId = B.householdId) (hbc : B.householdId = C.householdId) :
    ∃ AB BC S, combineSnapshots A B = .ok AB ∧ combineSnapshots B C = .ok BC ∧
      combineSnapshots AB C = .ok S ∧ combineSnapshots A BC = .ok S := by
  have hb := hab ▸ hb.lists
  have hc := hab.trans hbc ▸ hc.lists
  obtain ⟨AB, hAB, hlAB⟩ := ListsLedger.combine ha.lists hb
  obtain ⟨BC, hBC, hlBC⟩ := ListsLedger.combine hb hc
  obtain ⟨S, hS, hl⟩ := ListsLedger.combine hlAB hc
  obtain ⟨S', hS', hl'⟩ := ListsLedger.combine ha.lists hlBC
  rw [← max_assoc, ← add_assoc] at hl'
  cases ListsLedger.unique hl hl'
  exact ⟨AB, BC, S, hAB, hBC, hS, hS'⟩

theorem combineSnapshots_empty (ha : Listed A.lots) {t : Instant} (ht : t ≤ A.asOf) :
    combineSnapshots A (emptySnapshot A.householdId t) = .ok A ∧
      combineSnapshots (emptySnapshot A.householdId t) A = .ok A := by
  obtain ⟨S, hS, hl⟩ := ListsLedger.combine ha.lists (ListsLedger.empty A.householdId t)
  obtain ⟨S', hS', hl'⟩ := ListsLedger.combine (ListsLedger.empty A.householdId t) ha.lists
  rw [max_eq_left ht, add_zero] at hl
  rw [max_eq_right ht, zero_add] at hl'
  cases ListsLedger.unique hl ha.lists
  cases ListsLedger.unique hl' ha.lists
  exact ⟨hS, hS'⟩

theorem combineSnapshots_of_ne (h : A.householdId ≠ B.householdId) :
    ∃ e, combineSnapshots A B = .error e ∧ e.IsHouseholdMismatch :=
  ⟨_, if_pos h, trivial⟩

end Laws

/-- Some of a household's events, to be replayed at an instant. -/
structure Shard where
  events : List InventoryEvent
  asOf : Instant

inductive MergeTree
  | shard (s : Shard)
  | merge (left right : MergeTree)

def MergeTree.shards : MergeTree → List Shard
  | .shard s => [s]
  | .merge left right => left.shards ++ right.shards

section Split

variable {householdId : UUID} {events : List InventoryEvent} {shards : List Shard} {t : Instant}

/-- The shards hold exactly the events, and each is replayed no earlier than its events. -/
structure SplitInto (householdId : UUID) (events : List InventoryEvent) (shards : List Shard) :
    Prop where
  perm : (shards.flatMap (·.events)).Perm events
  known : ∀ s ∈ shards, ∀ event ∈ s.events, event.KnownAt householdId s.asOf

theorem SplitInto.of_perm {shards' : List Shard} (h : SplitInto householdId events shards)
    (hp : shards'.Perm shards) : SplitInto householdId events shards' where
  perm := (hp.flatMap_right _).trans h.perm
  known s hs := h.known s (hp.mem_iff.mp hs)

theorem SplitInto.knownAt (h : SplitInto householdId events shards)
    (ht : ∀ s ∈ shards, s.asOf ≤ t) : ∀ event ∈ events, event.KnownAt householdId t := by
  intro event hm
  obtain ⟨s, hs, hm⟩ := List.mem_flatMap.mp (h.perm.mem_iff.mpr hm)
  obtain ⟨hh, ho, hr⟩ := h.known s hs event hm
  exact ⟨hh, ho.trans (ht s hs), hr.trans (ht s hs)⟩

def MergeTree.asOf : MergeTree → Instant
  | .shard s => s.asOf
  | .merge left right => max left.asOf right.asOf

theorem MergeTree.max?_asOf (tree : MergeTree) :
    (tree.shards.map (·.asOf)).max? = some tree.asOf := by
  induction tree with
  | shard s => rfl
  | merge left right ihl ihr =>
    rw [List.max?_eq_some_iff] at ihl ihr ⊢
    rw [shards, asOf, List.map_append]
    constructor
    · rcases max_choice left.asOf right.asOf with h | h
      · exact List.mem_append_left _ (h.symm ▸ ihl.1)
      · exact List.mem_append_right _ (h.symm ▸ ihr.1)
    · intro t ht
      rcases List.mem_append.mp ht with ht | ht
      · exact (ihl.2 t ht).trans (le_max_left ..)
      · exact (ihr.2 t ht).trans (le_max_right ..)

end Split

section Sharded

variable [UnicodeTables] {householdId : UUID} {events : List InventoryEvent} {t : Instant}

def MergeTree.run (householdId : UUID) : MergeTree → Except InventoryFoldError InventorySnapshot
  | .shard s => foldEvents s.events householdId s.asOf
  | .merge left right => do combineSnapshots (← left.run householdId) (← right.run householdId)

def absorbShards (householdId : UUID) (first : Shard) (others : List Shard) :
    Except InventoryFoldError InventorySnapshot := do
  let snapshot ← foldEvents first.events householdId first.asOf
  others.foldlM (fun snapshot s => applyEvents snapshot s.events s.asOf) snapshot

/-- Whatever the shape of the tree, it lists the ledger of the events of its shards. -/
theorem MergeTree.lists_run (tree : MergeTree)
    (hk : ∀ s ∈ tree.shards, ∀ event ∈ s.events, event.KnownAt householdId s.asOf) :
    ∃ S, tree.run householdId = .ok S ∧
      ListsLedger householdId tree.asOf (eventsLedger (tree.shards.flatMap (·.events))) S := by
  induction tree with
  | shard s =>
    obtain ⟨S, hS, hl⟩ := lists_foldEvents (hk s (by simp [shards]))
    exact ⟨S, hS, by simpa [shards, asOf] using hl⟩
  | merge left right ihl ihr =>
    rw [shards, List.forall_mem_append] at hk
    obtain ⟨Sl, hSl, hl⟩ := ihl hk.1
    obtain ⟨Sr, hSr, hr⟩ := ihr hk.2
    obtain ⟨S, hS, h⟩ := hl.combine hr
    refine ⟨S, ?_, by simpa [shards, asOf] using h⟩
    rw [run, hSl, hSr]
    exact hS

theorem ListsLedger.foldlM_apply {S : InventorySnapshot} {L : Ledger LotKey LotTally}
    (h : ListsLedger householdId t L S) {others : List Shard}
    (hc : List.IsChain (· ≤ ·) (t :: others.map (·.asOf)))
    (hk : ∀ s ∈ others, ∀ event ∈ s.events, event.KnownAt householdId s.asOf) :
    ∃ R, others.foldlM (fun snapshot s => applyEvents snapshot s.events s.asOf) S = .ok R ∧
      ListsLedger householdId ((others.map (·.asOf)).getLastD t)
        (L + eventsLedger (others.flatMap (·.events))) R ∧
      t ≤ R.asOf ∧ ∀ s ∈ others, s.asOf ≤ R.asOf := by
  induction others generalizing S L t with
  | nil => exact ⟨S, rfl, by simpa using h, h.asOf_eq.ge, by simp⟩
  | cons s others ih =>
    obtain ⟨hk, hks⟩ := List.forall_mem_cons.mp hk
    rw [List.map_cons, List.isChain_cons_cons] at hc
    obtain ⟨S₁, hS₁, hl₁⟩ := h.apply hc.1 hk
    obtain ⟨R, hR, hl, hs, hle⟩ := ih hl₁ hc.2 hks
    refine ⟨R, ?_, ?_, hc.1.trans hs, List.forall_mem_cons.mpr ⟨hs, hle⟩⟩
    · rw [List.foldlM_cons, hS₁]
      exact hR
    · rw [add_assoc, ← eventsLedger_append] at hl
      rwa [List.map_cons, List.getLastD_cons, List.flatMap_cons]

theorem lots_of_foldEvents {S : InventorySnapshot} {L : Ledger LotKey LotTally}
    (h : ListsLedger householdId t L S) (hL : L = eventsLedger events) {asOf : Instant}
    {S' : InventorySnapshot} (h' : foldEvents events householdId asOf = .ok S') :
    S'.lots = S.lots := by
  have hk := (known_of_applyEvents (by simp [emptySnapshot]) h').2
  obtain ⟨R, hR, hl⟩ := lists_foldEvents hk
  cases hR.symm.trans h'
  exact hl.listed.eq_of_ledger_eq h.listed (by rw [hl.ledger, h.ledger, hL])

theorem MergeTree.run_eq_foldEvents (tree : MergeTree) {shards : List Shard}
    (h : SplitInto householdId events shards) (hp : tree.shards.Perm shards) :
    ∃ asOf S, (shards.map (·.asOf)).max? = some asOf ∧ tree.run householdId = .ok S ∧
      foldEvents events householdId asOf = .ok S := by
  have ht := h.of_perm hp
  have hmax := tree.max?_asOf
  obtain ⟨S, hS, hl⟩ := tree.lists_run ht.known
  have hle : ∀ s ∈ tree.shards, s.asOf ≤ tree.asOf := fun s hs =>
    (List.max?_eq_some_iff.mp hmax).2 _ (List.mem_map_of_mem hs)
  obtain ⟨R, hR, hr⟩ := lists_foldEvents (ht.knownAt hle)
  rw [eventsLedger_perm ht.perm] at hl
  cases hl.unique hr
  refine ⟨tree.asOf, S, ?_, hS, hR⟩
  rw [List.max?_eq_some_iff] at hmax ⊢
  have hpm := hp.map (·.asOf)
  exact ⟨hpm.mem_iff.mp hmax.1, fun t ht => hmax.2 t (hpm.mem_iff.mpr ht)⟩

/-- Applying the shards one after the other is replaying everything at the last instant. -/
theorem absorbShards_eq_foldEvents {first : Shard} {others : List Shard}
    (h : SplitInto householdId events (first :: others))
    (hc : List.IsChain (· ≤ ·) (first.asOf :: others.map (·.asOf))) :
    ∃ S, absorbShards householdId first others = .ok S ∧
      S.asOf = (others.map (·.asOf)).getLastD first.asOf ∧
      foldEvents events householdId S.asOf = .ok S ∧
      ∀ asOf S', foldEvents events householdId asOf = .ok S' → S'.lots = S.lots := by
  obtain ⟨hk, hks⟩ := List.forall_mem_cons.mp h.known
  obtain ⟨S₀, hS₀, hl₀⟩ := lists_foldEvents hk
  obtain ⟨S, hS, hl, hfirst, hle⟩ := hl₀.foldlM_apply hc hks
  have hL : eventsLedger first.events + eventsLedger (others.flatMap (·.events)) =
      eventsLedger events := by
    rw [← eventsLedger_append]
    exact eventsLedger_perm (by simpa using h.perm)
  refine ⟨S, ?_, hl.asOf_eq, ?_, fun _ _ => lots_of_foldEvents hl hL⟩
  · rw [absorbShards, hS₀]
    exact hS
  · obtain ⟨R, hR, hr⟩ :=
      lists_foldEvents (h.knownAt (List.forall_mem_cons.mpr ⟨hfirst, hle⟩))
    rw [hL, ← hl.asOf_eq] at hl
    cases hl.unique hr
    exact hR

/-- However a household's events are split into shards, merging their replays along any tree gives
the replay of all the events at the latest instant, and so does applying the shards one after the
other; the merge is commutative and associative, and empty snapshots are its identities. -/
theorem sharded_replay (householdId : UUID) (events : List InventoryEvent) :
    (∀ (shards : List Shard) (tree : MergeTree), SplitInto householdId events shards →
      tree.shards.Perm shards → ∃ asOf S, (shards.map (·.asOf)).max? = some asOf ∧
        tree.run householdId = .ok S ∧ foldEvents events householdId asOf = .ok S) ∧
    (∀ (first : Shard) (others : List Shard), SplitInto householdId events (first :: others) →
      List.IsChain (· ≤ ·) (first.asOf :: others.map (·.asOf)) →
      ∃ S, absorbShards householdId first others = .ok S ∧
        S.asOf = (others.map (·.asOf)).getLastD first.asOf ∧
        foldEvents events householdId S.asOf = .ok S ∧
        ∀ asOf S', foldEvents events householdId asOf = .ok S' → S'.lots = S.lots) ∧
    (∀ A B : InventorySnapshot, Listed A.lots → Listed B.lots → A.householdId = B.householdId →
      ∃ S, combineSnapshots A B = .ok S ∧ combineSnapshots B A = .ok S) ∧
    (∀ A B C : InventorySnapshot, Listed A.lots → Listed B.lots → Listed C.lots →
      A.householdId = B.householdId → B.householdId = C.householdId →
      ∃ AB BC S, combineSnapshots A B = .ok AB ∧ combineSnapshots B C = .ok BC ∧
        combineSnapshots AB C = .ok S ∧ combineSnapshots A BC = .ok S) ∧
    (∀ (A : InventorySnapshot) (t : Instant), Listed A.lots → t ≤ A.asOf →
      combineSnapshots A (emptySnapshot A.householdId t) = .ok A ∧
        combineSnapshots (emptySnapshot A.householdId t) A = .ok A) ∧
    ∀ A B : InventorySnapshot, A.householdId ≠ B.householdId →
      ∃ e, combineSnapshots A B = .error e ∧ e.IsHouseholdMismatch := by
  refine ⟨fun shards tree h hp => ?_, fun first others h hc => ?_,
    fun _ _ => combineSnapshots_comm, fun _ _ _ => combineSnapshots_assoc,
    fun _ _ ha => combineSnapshots_empty ha, fun _ _ => combineSnapshots_of_ne⟩
  · exact tree.run_eq_foldEvents h hp
  · exact absorbShards_eq_foldEvents h hc

end Sharded

section Sample

def yoghurt (id : UUID) (eventType : EventType) (quantityDelta : Decimal) (unit : String)
    (t : Instant) : InventoryEvent where
  id := id
  householdId := 1
  canonicalProductId := 7
  eventType := eventType
  quantityDelta := quantityDelta
  unit := unit
  storageLocation := .fridge
  printedDate := none
  dateLabelType := none
  occurredAt := t
  recordedAt := t
  source := "receipt"
  confidence := 1
  idempotencyKey := "k"
  metadata := "{}"

def morning : Shard := ⟨[yoghurt 1 .purchased 4000 " G " 1, yoghurt 2 .opened 0 "g" 2], 3⟩

def evening : Shard := ⟨[yoghurt 3 .consumed (-1000) "G" 5], 8⟩

def yoghurtLot : LotState :=
  ⟨⟨7, .fridge, "g", none, none⟩, 3000, 4000, 1000, 0, 3, 1, 5, 5, some 2⟩

theorem sharded_replay_twoShards :
    letI := asciiTables
    (∃ asOf S, ([morning, evening].map (·.asOf)).max? = some asOf ∧
      (MergeTree.merge (.shard evening) (.shard morning)).run 1 = .ok S ∧
      foldEvents (morning.events ++ evening.events) 1 asOf = .ok S) ∧
    (∃ S, absorbShards 1 morning [evening] = .ok S ∧ S.asOf = 8 ∧
      foldEvents (morning.events ++ evening.events) 1 S.asOf = .ok S ∧
      S.lots = [yoghurtLot]) ∧
    (∃ S, combineSnapshots ⟨1, 4, [yoghurtLot]⟩ ⟨1, 6, [yoghurtLot]⟩ = .ok S ∧
      combineSnapshots ⟨1, 6, [yoghurtLot]⟩ ⟨1, 4, [yoghurtLot]⟩ = .ok S) ∧
    (∃ AB BC S, combineSnapshots ⟨1, 4, [yoghurtLot]⟩ ⟨1, 6, [yoghurtLot]⟩ = .ok AB ∧
      combineSnapshots ⟨1, 6, [yoghurtLot]⟩ ⟨1, 5, []⟩ = .ok BC ∧
      combineSnapshots AB ⟨1, 5, []⟩ = .ok S ∧
      combineSnapshots ⟨1, 4, [yoghurtLot]⟩ BC = .ok S) ∧
    combineSnapshots ⟨1, 4, [yoghurtLot]⟩ (emptySnapshot 1 3) = .ok ⟨1, 4, [yoghurtLot]⟩ ∧
    ∃ e, combineSnapshots ⟨1, 4, [yoghurtLot]⟩ ⟨2, 4, []⟩ = .error e ∧ e.IsHouseholdMismatch := by
  let _ := asciiTables
  have hsplit : SplitInto 1 (morning.events ++ evening.events) [morning, evening] :=
    ⟨by simp, by simp [morning, evening, yoghurt, InventoryEvent.KnownAt]⟩
  have hone : Listed [yoghurtLot] := List.pairwise_singleton ..
  obtain ⟨htree, hline, hcomm, hassoc, hempty, hne⟩ :=
    sharded_replay 1 (morning.events ++ evening.events)
  obtain ⟨S, hS, ht, hf, hlots⟩ := hline morning [evening] hsplit (by decide)
  refine ⟨htree _ _ hsplit (List.Perm.swap ..), ⟨S, hS, ht, hf, ?_⟩,
    hcomm ⟨1, 4, [yoghurtLot]⟩ ⟨1, 6, [yoghurtLot]⟩ hone hone rfl,
    hassoc ⟨1, 4, [yoghurtLot]⟩ ⟨1, 6, [yoghurtLot]⟩ ⟨1, 5, []⟩ hone hone .nil rfl rfl,
    (hempty ⟨1, 4, [yoghurtLot]⟩ 3 hone (by decide)).1,
    hne ⟨1, 4, [yoghurtLot]⟩ ⟨2, 4, []⟩ (by decide)⟩
  exact (hlots 8 ⟨1, 8, [yoghurtLot]⟩ (by decide +kernel)).symm

end Sample

end KitchenSense
