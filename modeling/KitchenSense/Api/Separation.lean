import KitchenSense.Api.Accountability
import KitchenSense.Tenancy.Isolation

/-! # Requests that do not see each other

Requests of other households, under keys of their own, and requests that are
not let through can be left out of a run. Every other request goes as it went,
down to its reply.
-/

namespace KitchenSense

open InventoryEventRepository

section Households

namespace FirstSight

structure Alike (homes : UUID → Prop) (ours : ℕ → Prop) (s t : FirstSight) : Prop where
  phase : ∀ i, ours i → s.phase i = t.phase i
  rows : ∀ id, homes id → HouseholdRepository.scopedTo s.households id =
    HouseholdRepository.scopedTo t.households id
  writer : ∀ id, homes id → s.writer id = t.writer id

variable {requests : ℕ → SightRequest} {homes : UUID → Prop} {ours : ℕ → Prop}
  {s s' t : FirstSight} {action : SightAction} {i : ℕ}

theorem Alike.symm (h : Alike homes ours s t) : Alike homes ours t s :=
  ⟨fun i hi => (h.phase i hi).symm, fun id hid => (h.rows id hid).symm,
    fun id hid => (h.writer id hid).symm⟩

theorem Alike.enter (h : Alike homes ours s t) (i : ℕ) (p : SightPhase) :
    Alike homes ours (s.enter i p) (t.enter i p) where
  phase j hj := by
    change Function.update s.phase i p j = Function.update t.phase i p j
    by_cases hji : j = i
    · rw [hji, Function.update_self, Function.update_self]
    · rw [Function.update_of_ne hji, Function.update_of_ne hji, h.phase j hj]
  rows := h.rows
  writer := h.writer

theorem Alike.setWriter (h : Alike homes ours s t) (id : UUID) (w : Option ℕ) :
    Alike homes ours { s with writer := Function.update s.writer id w }
      { t with writer := Function.update t.writer id w } where
  phase := h.phase
  rows := h.rows
  writer id' hid := by
    change Function.update s.writer id w id' = Function.update t.writer id w id'
    by_cases he : id' = id
    · rw [he, Function.update_self, Function.update_self]
    · rw [Function.update_of_ne he, Function.update_of_ne he, h.writer id' hid]

theorem Alike.addRow (h : Alike homes ours s t) (row : HouseholdRow) :
    Alike homes ours { s with households := s.households ++ [row] }
      { t with households := t.households ++ [row] } where
  phase := h.phase
  rows id hid := by
    have hr := h.rows id hid
    simp only [HouseholdRepository.scopedTo, List.filter_append] at hr ⊢
    rw [hr]
  writer := h.writer

theorem mem_ids_iff {rows : List HouseholdRow} {id : UUID} :
    id ∈ rows.map (·.id) ↔ HouseholdRepository.scopedTo rows id ≠ [] := by
  rw [HouseholdRepository.scopedTo, ne_eq, List.filter_eq_nil_iff]
  simp

theorem insertIfNew_congr {row : HouseholdRow} {rows rows' : List HouseholdRow}
    (h : HouseholdRepository.scopedTo rows row.id = HouseholdRepository.scopedTo rows' row.id) :
    HouseholdRepository.insertIfNew row rows = HouseholdRepository.insertIfNew row rows' := by
  have hids : row.id ∈ rows.map (·.id) ↔ row.id ∈ rows'.map (·.id) := by
    rw [mem_ids_iff, mem_ids_iff, h]
  rw [HouseholdRepository.insertIfNew, HouseholdRepository.insertIfNew, all_ne_congr hids]

theorem Alike.rollback (h : Alike homes ours s t) (hi : ours i)
    (hs : FirstSight.step requests s (.rollback i) = some s') :
    ∃ t', FirstSight.step requests t (.rollback i) = some t' ∧ Alike homes ours s' t' := by
  rw [FirstSight.step] at hs ⊢
  rw [← h.phase i hi]
  split at hs
  next => cases hs; exact ⟨_, rfl, h.enter i _⟩
  next => cases hs; exact ⟨_, rfl, h.enter i _⟩
  next => cases hs; exact ⟨_, rfl, (h.enter i _).setWriter _ _⟩
  next => cases hs

theorem Alike.getD_rollback (h : Alike homes ours s t) (hi : ours i) :
    Alike homes ours ((FirstSight.step requests s (.rollback i)).getD s)
      ((FirstSight.step requests t (.rollback i)).getD t) := by
  cases hs : FirstSight.step requests s (.rollback i) with
  | some s' =>
    obtain ⟨t', ht, ha⟩ := h.rollback hi hs
    rw [ht]
    exact ha
  | none =>
    cases ht : FirstSight.step requests t (.rollback i) with
    | some t' =>
      obtain ⟨s', hs', -⟩ := h.symm.rollback hi ht
      cases hs.symm.trans hs'
    | none => exact h

theorem households_getD_rollback :
    ((FirstSight.step requests s (.rollback i)).getD s).households = s.households := by
  rw [FirstSight.step]
  split <;> rfl

theorem Alike.step (h : Alike homes ours s t) (hi : ours action.index)
    (hh : homes (requests action.index).householdId)
    (hs : FirstSight.step requests s action = some s') :
    ∃ t', FirstSight.step requests t action = some t' ∧ Alike homes ours s' t' := by
  have hp := h.phase _ hi
  cases action with
  | exists_ i =>
    change s.phase i = t.phase i at hp
    change homes (requests i).householdId at hh
    rw [FirstSight.step] at hs ⊢
    rw [← hp]
    split at hs
    next =>
      cases hs
      refine ⟨_, rfl, ?_⟩
      rw [HouseholdRepository.exists_, HouseholdRepository.exists_, h.rows _ hh]
      exact h.enter i _
    next => cases hs
  | insert i =>
    change s.phase i = t.phase i at hp
    change homes (requests i).householdId at hh
    rw [FirstSight.step] at hs ⊢
    rw [← hp]
    split at hs
    next =>
      have heq : HouseholdRepository.insertIfNew (requests i).row s.households =
          HouseholdRepository.insertIfNew (requests i).row t.households :=
        insertIfNew_congr (h.rows _ hh)
      rw [← heq]
      unfold afterInsert at hs ⊢
      rw [← h.writer _ hh]
      split at hs
      next => cases hs; exact ⟨_, rfl, h.enter i _⟩
      next => cases hs; exact ⟨_, rfl, h.enter i _⟩
      next =>
        rw [Option.ite_none_right_eq_some] at hs
        obtain ⟨hw, ⟨⟩⟩ := hs
        exact ⟨_, if_pos hw, (h.enter i _).setWriter _ _⟩
    next => cases hs
  | commit i =>
    change s.phase i = t.phase i at hp
    change homes (requests i).householdId at hh
    rw [FirstSight.step] at hs ⊢
    rw [← hp]
    split at hs
    next => cases hs; exact ⟨_, rfl, ((h.enter i _).setWriter _ _).addRow _⟩
    next => cases hs
  | rollback i => exact h.rollback hi hs

theorem effects_of_step (hs : FirstSight.step requests s action = some s') :
    (s'.households = s.households ∨
      s'.households = s.households ++ [(requests action.index).row]) ∧
    ∀ id ≠ (requests action.index).householdId, s'.writer id = s.writer id := by
  cases action with
  | exists_ i =>
    rw [FirstSight.step] at hs
    split at hs <;> cases hs
    exact ⟨.inl rfl, fun _ _ => rfl⟩
  | insert i =>
    rw [FirstSight.step] at hs
    split at hs
    next =>
      unfold afterInsert at hs
      split at hs
      next => cases hs; exact ⟨.inl rfl, fun _ _ => rfl⟩
      next => cases hs; exact ⟨.inl rfl, fun _ _ => rfl⟩
      next =>
        rw [Option.ite_none_right_eq_some] at hs
        obtain ⟨-, ⟨⟩⟩ := hs
        exact ⟨.inl rfl, fun id hid => Function.update_of_ne hid ..⟩
    next => cases hs
  | commit i =>
    rw [FirstSight.step] at hs
    split at hs
    next => cases hs; exact ⟨.inr rfl, fun id hid => Function.update_of_ne hid ..⟩
    next => cases hs
  | rollback i =>
    rw [FirstSight.step] at hs
    split at hs
    next => cases hs; exact ⟨.inl rfl, fun _ _ => rfl⟩
    next => cases hs; exact ⟨.inl rfl, fun _ _ => rfl⟩
    next => cases hs; exact ⟨.inl rfl, fun id hid => Function.update_of_ne hid ..⟩
    next => cases hs

theorem Alike.step_of_other (h : Alike homes ours s t) (hi : ¬ ours action.index)
    (hh : ¬ homes (requests action.index).householdId)
    (hs : FirstSight.step requests s action = some s') : Alike homes ours s' t := by
  obtain ⟨hrows, hwriter⟩ := effects_of_step hs
  refine ⟨fun i hi' => ?_, fun id hid => ?_, fun id hid => ?_⟩
  · rw [phase_of_ne hs (by rintro rfl; exact hi hi'), h.phase i hi']
  · have hne : (requests action.index).householdId ≠ id := by
      rintro rfl
      exact hh hid
    rw [← h.rows id hid]
    rcases hrows with he | he
    · rw [he]
    · have hnil : [(requests action.index).row].filter (fun row => row.id = id) = [] := by
        rw [List.filter_eq_nil_iff]
        simpa [SightRequest.row] using hne
      rw [he, HouseholdRepository.scopedTo, List.filter_append, hnil, List.append_nil]
      rfl
  · have hne : id ≠ (requests action.index).householdId := by
      rintro rfl
      exact hh hid
    rw [hwriter id hne, h.writer id hid]

end FirstSight

end Households

section Log

/-- A property that holds only of rows that are kept is decided by them. -/
theorem any_filter_of_imp {ρ : Type} {kept p : ρ → Bool} {rows : List ρ}
    (h : ∀ r, p r = true → kept r = true) : (rows.filter kept).any p = rows.any p := by
  rw [List.any_filter, Bool.eq_iff_iff, List.any_eq_true, List.any_eq_true]
  constructor
  · rintro ⟨r, hr, hp⟩
    exact ⟨r, hr, (Bool.and_eq_true_iff.mp hp).2⟩
  · rintro ⟨r, hr, hp⟩
    exact ⟨r, hr, Bool.and_eq_true_iff.mpr ⟨h r hp, hp⟩⟩

theorem all_filter_of_imp {ρ : Type} {kept p : ρ → Bool} {rows : List ρ}
    (h : ∀ r, p r = false → kept r = true) : (rows.filter kept).all p = rows.all p := by
  rw [List.all_eq_not_any_not, List.all_eq_not_any_not, any_filter_of_imp]
  intro r hr
  exact h r (by simpa using hr)

theorem filter_filter_of_imp {ρ : Type} {kept p : ρ → Bool} {rows : List ρ}
    (h : ∀ r, p r = true → kept r = true) : (rows.filter kept).filter p = rows.filter p := by
  rw [List.filter_filter]
  apply List.filter_congr
  intro r _
  rw [Bool.and_eq_left_iff_imp]
  exact h r

namespace AppendState

structure Alike (mine : InventoryEventRow → Bool) (ours : ℕ → Prop) (s t : AppendState) :
    Prop where
  phase : ∀ i, ours i → s.phase i = t.phase i
  events : s.db.events.filter mine = t.db.events.filter mine
  uncommitted : s.uncommitted.filter mine = t.uncommitted.filter mine
  products : s.db.products = t.db.products

structure Concerns (mine : InventoryEventRow → Bool) (request : AppendRequest) : Prop where
  household : ∀ r : InventoryEventRow, r.householdId = request.householdId → mine r = true
  key : ∀ r : InventoryEventRow, r.idempotencyKey = request.event.idempotencyKey → mine r = true
  id : ∀ r : InventoryEventRow, r.id = request.id → mine r = true

variable {requests : ℕ → AppendRequest} {mine : InventoryEventRow → Bool} {ours : ℕ → Prop}
  {s s' t : AppendState} {action : AppendAction} {i : ℕ} {db db' : Db}
  {row : InventoryEventRow}

theorem Alike.symm (h : Alike mine ours s t) : Alike mine ours t s :=
  ⟨fun i hi => (h.phase i hi).symm, h.events.symm, h.uncommitted.symm, h.products.symm⟩

theorem Alike.enter (h : Alike mine ours s t) (i : ℕ) (p : AppendPhase) :
    Alike mine ours (s.enter i p) (t.enter i p) where
  phase j hj := by
    change Function.update s.phase i p j = Function.update t.phase i p j
    by_cases hji : j = i
    · rw [hji, Function.update_self, Function.update_self]
    · rw [Function.update_of_ne hji, Function.update_of_ne hji, h.phase j hj]
  events := h.events
  uncommitted := h.uncommitted
  products := h.products

theorem Alike.hold (h : Alike mine ours s t) (row : InventoryEventRow) :
    Alike mine ours { s with uncommitted := s.uncommitted ++ [row] }
      { t with uncommitted := t.uncommitted ++ [row] } where
  phase := h.phase
  events := h.events
  uncommitted := by rw [List.filter_append, List.filter_append, h.uncommitted]
  products := h.products

theorem Alike.let_go (h : Alike mine ours s t) (row : InventoryEventRow) :
    Alike mine ours { s with uncommitted := s.uncommitted.erase row }
      { t with uncommitted := t.uncommitted.erase row } where
  phase := h.phase
  events := h.events
  uncommitted := by rw [← List.erase_filter, ← List.erase_filter, h.uncommitted]
  products := h.products

theorem Alike.addEvent (h : Alike mine ours s t) (row : InventoryEventRow) :
    Alike mine ours { s with db := s.db.addEvents [row] }
      { t with db := t.db.addEvents [row] } where
  phase := h.phase
  events := by
    change (s.db.events ++ [row]).filter mine = (t.db.events ++ [row]).filter mine
    rw [List.filter_append, List.filter_append, h.events]
  uncommitted := h.uncommitted
  products := h.products

theorem Alike.scopedTo_eq (h : Alike mine ours s t) {householdId : UUID}
    (hm : ∀ r : InventoryEventRow, r.householdId = householdId → mine r = true) :
    scopedTo s.db.events householdId = scopedTo t.db.events householdId := by
  have himp : ∀ r : InventoryEventRow,
      decide (r.householdId = householdId) = true → mine r = true :=
    fun r hr => hm r (of_decide_eq_true hr)
  rw [scopedTo, scopedTo, ← filter_filter_of_imp himp, h.events, filter_filter_of_imp himp]

/-- What an insertion answers is decided by the rows under its key and its id, and by what it
refers to. -/
theorem insertEventIfNew_answer_congr
    (hk : (db.events.any fun r => r.idempotencyKey = row.idempotencyKey) =
      db'.events.any fun r => r.idempotencyKey = row.idempotencyKey)
    (hid : (db.events.all fun r => r.id ≠ row.id) = db'.events.all fun r => r.id ≠ row.id)
    (href : row.referenceChecks db = row.referenceChecks db') :
    (insertEventIfNew row).answer db = (insertEventIfNew row).answer db' := by
  unfold Transaction.answer insertEventIfNew
  cases hv : violated row.rowChecks with
  | some c =>
    rw [Transaction.bind_of_error (require_of_some hv),
      Transaction.bind_of_error (require_of_some hv)]
  | none =>
    rw [Transaction.bind_of_ok (require_of_none hv), Transaction.bind_of_ok (require_of_none hv),
      Transaction.get_bind, Transaction.get_bind, hk]
    split
    · rfl
    · rw [hid, href]
      cases hi : violated [(EventConstraint.primaryKey, db'.events.all fun r => r.id ≠ row.id)] with
      | some c =>
        rw [Transaction.bind_of_error (require_of_some hi),
          Transaction.bind_of_error (require_of_some hi)]
      | none =>
        rw [Transaction.bind_of_ok (require_of_none hi),
          Transaction.bind_of_ok (require_of_none hi)]
        cases hr : violated (row.referenceChecks db') with
        | some c =>
          rw [Transaction.bind_of_error (require_of_some hr),
            Transaction.bind_of_error (require_of_some hr)]
        | none =>
          rw [Transaction.bind_of_ok (require_of_none hr),
            Transaction.bind_of_ok (require_of_none hr)]
          rfl

variable [UnicodeTables]

theorem step_insert_eq (hp : s.phase i = .begun) : step requests s (.insert i) =
    if s.uncommitted.any (blocks (requests i).row) then none
    else match (insertEventIfNew (requests i).row).answer s.db with
      | .ok true => some { s.enter i (.inserted (requests i).row) with
          uncommitted := s.uncommitted ++ [(requests i).row] }
      | .ok false => some (s.enter i .conflicted)
      | .error e => some (s.enter i (.failed e)) := by
  rw [step, hp]
  dsimp only
  unfold Transaction.answer
  cases insertEventIfNew (requests i).row s.db with
  | error e => rfl
  | ok result =>
    obtain ⟨_ | _, _⟩ := result <;> rfl

theorem Alike.rollback (h : Alike mine ours s t) (hi : ours i)
    (hs : AppendState.step requests s (.rollback i) = some s') :
    ∃ t', AppendState.step requests t (.rollback i) = some t' ∧ Alike mine ours s' t' := by
  rw [AppendState.step] at hs ⊢
  rw [← h.phase i hi]
  split at hs
  next => cases hs; exact ⟨_, rfl, h.enter i _⟩
  next row _ => cases hs; exact ⟨_, rfl, (h.enter i _).let_go row⟩
  next => cases hs; exact ⟨_, rfl, h.enter i _⟩
  next => cases hs; exact ⟨_, rfl, h.enter i _⟩
  next => cases hs

theorem Alike.getD_rollback (h : Alike mine ours s t) (hi : ours i) :
    Alike mine ours ((AppendState.step requests s (.rollback i)).getD s)
      ((AppendState.step requests t (.rollback i)).getD t) := by
  cases hs : AppendState.step requests s (.rollback i) with
  | some s' =>
    obtain ⟨t', ht, ha⟩ := h.rollback hi hs
    rw [ht]
    exact ha
  | none =>
    cases ht : AppendState.step requests t (.rollback i) with
    | some t' =>
      obtain ⟨s', hs', -⟩ := h.symm.rollback hi ht
      cases hs.symm.trans hs'
    | none => exact h

theorem households_getD_rollback :
    ((AppendState.step requests s (.rollback i)).getD s).db.households = s.db.households := by
  rw [AppendState.step]
  split <;> rfl

theorem Alike.step (h : Alike mine ours s t) (hi : ours action.index)
    (hc : Concerns mine (requests action.index))
    (hh : (requests action.index).householdId ∈ s.db.households ↔
      (requests action.index).householdId ∈ t.db.households)
    (hs : AppendState.step requests s action = some s') :
    ∃ t', AppendState.step requests t action = some t' ∧ Alike mine ours s' t' := by
  have hp := h.phase _ hi
  cases action with
  | insert i =>
    change s.phase i = t.phase i at hp
    change Concerns mine (requests i) at hc
    cases hb : s.phase i with
    | begun =>
      have hblocked : s.uncommitted.any (blocks (requests i).row) =
          t.uncommitted.any (blocks (requests i).row) := by
        have himp : ∀ r, blocks (requests i).row r = true → mine r = true := by
          intro r hr
          simp only [blocks, decide_eq_true_eq] at hr
          exact hr.elim (hc.key r) (hc.id r)
        rw [← any_filter_of_imp himp, h.uncommitted, any_filter_of_imp himp]
      have hanswer : (insertEventIfNew (requests i).row).answer s.db =
          (insertEventIfNew (requests i).row).answer t.db := by
        apply insertEventIfNew_answer_congr
        · have himp : ∀ r : InventoryEventRow,
              decide (r.idempotencyKey = (requests i).row.idempotencyKey) = true → mine r = true :=
            fun r hr => hc.key r (of_decide_eq_true hr)
          rw [← any_filter_of_imp himp, h.events, any_filter_of_imp himp]
        · have himp : ∀ r : InventoryEventRow,
              decide (r.id ≠ (requests i).row.id) = false → mine r = true :=
            fun r hr => hc.id r (not_not.mp (of_decide_eq_false hr))
          rw [← all_filter_of_imp himp, h.events, all_filter_of_imp himp]
        · have hhome : (requests i).row.householdId ∈ s.db.households ↔
              (requests i).row.householdId ∈ t.db.households := hh
          rw [InventoryEventRow.referenceChecks, InventoryEventRow.referenceChecks, h.products,
            decide_eq_decide.mpr hhome]
      rw [step_insert_eq hb, hblocked, hanswer] at hs
      rw [step_insert_eq (hp.symm.trans hb)]
      split at hs
      next => cases hs
      next hn =>
        rw [if_neg hn]
        split at hs
        next => cases hs; exact ⟨_, rfl, (h.enter i _).hold _⟩
        next => cases hs; exact ⟨_, rfl, h.enter i _⟩
        next => cases hs; exact ⟨_, rfl, h.enter i _⟩
    | _ => rw [AppendState.step, hb] at hs; cases hs
  | lookup i =>
    change s.phase i = t.phase i at hp
    change Concerns mine (requests i) at hc
    have hlookup : getByIdempotencyKey s.db.events (requests i).householdId
        (requests i).event.idempotencyKey = getByIdempotencyKey t.db.events
          (requests i).householdId (requests i).event.idempotencyKey := by
      rw [getByIdempotencyKey, getByIdempotencyKey, h.scopedTo_eq hc.household]
    rw [AppendState.step] at hs ⊢
    rw [← hp, ← hlookup]
    split at hs
    next =>
      split at hs <;> cases hs <;> exact ⟨_, rfl, h.enter i _⟩
    next => cases hs
  | commit i =>
    change s.phase i = t.phase i at hp
    rw [AppendState.step] at hs ⊢
    rw [← hp]
    split at hs
    next row _ =>
      cases hs
      exact ⟨_, rfl, ((h.enter i _).addEvent row).let_go row⟩
    next => cases hs; exact ⟨_, rfl, h.enter i _⟩
    next => cases hs
  | rollback i => exact h.rollback hi hs

theorem effects_of_step (hs : AppendState.step requests s action = some s')
    (hrow : ∀ row, s.phase action.index = .inserted row → row = (requests action.index).row)
    (hm : mine (requests action.index).row = false) :
    s'.db.events.filter mine = s.db.events.filter mine ∧
      s'.uncommitted.filter mine = s.uncommitted.filter mine := by
  have happend : ∀ rows : List InventoryEventRow,
      (rows ++ [(requests action.index).row]).filter mine = rows.filter mine := by
    intro rows
    rw [List.filter_append, List.filter_cons_of_neg (by simp [hm]), List.filter_nil,
      List.append_nil]
  have herase : ∀ rows : List InventoryEventRow,
      (rows.erase (requests action.index).row).filter mine = rows.filter mine := by
    intro rows
    rw [← List.erase_filter, List.erase_of_not_mem]
    simp [hm]
  obtain ⟨i, p, hphase, hcase⟩ := step_cases hs
  have hself : p ≠ s.phase i → i = action.index := by
    intro hne
    by_contra hi
    have hsame := phase_of_ne hs hi
    rw [hphase, Function.update_self] at hsame
    exact hne hsame
  rcases hcase with ⟨rfl, hp, -, -, hd, hu⟩ | ⟨-, -, -, hd, hu⟩ | ⟨row, hp, hu, hcase⟩
  · obtain rfl := hself (by simp [hp])
    rw [hd, hu]
    exact ⟨rfl, happend _⟩
  · rw [hd, hu]
    exact ⟨rfl, rfl⟩
  · obtain rfl : i = action.index := hself (by rcases hcase with ⟨rfl, -⟩ | ⟨rfl, -⟩ <;> simp [hp])
    obtain rfl := hrow row hp
    rw [hu, herase]
    rcases hcase with ⟨-, hd⟩ | ⟨-, hd⟩ <;> rw [hd]
    · exact ⟨happend _, rfl⟩
    · exact ⟨rfl, rfl⟩

theorem Alike.step_of_other (h : Alike mine ours s t) (hi : ¬ ours action.index)
    (hrow : ∀ row, s.phase action.index = .inserted row → row = (requests action.index).row)
    (hm : mine (requests action.index).row = false)
    (hs : AppendState.step requests s action = some s') : Alike mine ours s' t := by
  obtain ⟨hevents, huncommitted⟩ := effects_of_step hs hrow hm
  refine ⟨fun i hi' => ?_, hevents.trans h.events, huncommitted.trans h.uncommitted, ?_⟩
  · rw [phase_of_ne hs (by rintro rfl; exact hi hi'), h.phase i hi']
  · rw [(tables_of_step hs).2, h.products]

end AppendState

end Log

def ServiceAction.index : ServiceAction → ℕ
  | .authenticate i | .openSession i | .readHousehold i | .insertHousehold i | .commitHousehold i
  | .handle i | .insertEvent i | .lookupEvent i | .commitEvent i | .project i | .respond i
  | .disconnect i _ => i

namespace InventoryService

variable [UnicodeTables] {settings : Settings} {uuid5 : UUID → String → UUID}
  {jsonb : String → Bool} {requests : ℕ → InventoryRequest} {kept : ℕ → Bool}
  {mine : InventoryEventRow → Bool} {s s' t : InventoryService} {action : ServiceAction} {i : ℕ}
  {first : List HouseholdRow} {db₀ : Db}

section Relation

def Ours (settings : Settings) (requests : ℕ → InventoryRequest) (kept : ℕ → Bool) (i : ℕ) :
    Prop :=
  kept i = true ∧ Authenticated settings (requests i)

def Homes (settings : Settings) (uuid5 : UUID → String → UUID) (requests : ℕ → InventoryRequest)
    (kept : ℕ → Bool) (id : UUID) : Prop :=
  ∃ i, Ours settings requests kept i ∧ (sights uuid5 requests i).householdId = id

def Met (settings : Settings) (uuid5 : UUID → String → UUID) (requests : ℕ → InventoryRequest)
    (kept : ℕ → Bool) (r : InventoryEventRow) : Prop :=
  ∃ i, Ours settings requests kept i ∧ (r.householdId = (sights uuid5 requests i).householdId ∨
    (requests i).endpoint = .appendEvent ∧
      (r.idempotencyKey = (posts uuid5 requests i).event.idempotencyKey ∨
        r.id = (requests i).rowId))

/-- A request that is left out is not let through, or is of another household and appends under
another key and another id. -/
structure Apart (settings : Settings) (uuid5 : UUID → String → UUID)
    (requests : ℕ → InventoryRequest) (kept : ℕ → Bool) : Prop where
  household : ∀ i j, Ours settings requests kept i → kept j = false →
    Authenticated settings (requests j) →
    (sights uuid5 requests j).householdId ≠ (sights uuid5 requests i).householdId
  event : ∀ i j, Ours settings requests kept i → kept j = false →
    Authenticated settings (requests j) → (requests i).endpoint = .appendEvent →
    (requests j).endpoint = .appendEvent →
    (posts uuid5 requests j).event.idempotencyKey ≠ (posts uuid5 requests i).event.idempotencyKey ∧
      (requests j).rowId ≠ (requests i).rowId

/-- Two states that differ in nothing that a request that is kept can meet. -/
structure Alike (settings : Settings) (uuid5 : UUID → String → UUID)
    (requests : ℕ → InventoryRequest) (kept : ℕ → Bool) (mine : InventoryEventRow → Bool)
    (s t : InventoryService) : Prop where
  phase : ∀ i, kept i = true → s.phase i = t.phase i
  sight : FirstSight.Alike (Homes settings uuid5 requests kept) (Ours settings requests kept)
    s.sight t.sight
  appends : AppendState.Alike mine (Ours settings requests kept) s.appends t.appends
  households : t.appends.db.households = t.sight.households.map (·.id)

theorem Alike.enter (h : Alike settings uuid5 requests kept mine s t) (i : ℕ) (p : ServicePhase) :
    Alike settings uuid5 requests kept mine (s.enter i p) (t.enter i p) where
  phase j hj := by
    change Function.update s.phase i p j = Function.update t.phase i p j
    by_cases hji : j = i
    · rw [hji, Function.update_self, Function.update_self]
    · rw [Function.update_of_ne hji, Function.update_of_ne hji, h.phase j hj]
  sight := h.sight
  appends := h.appends
  households := h.households

theorem Alike.enter_other (h : Alike settings uuid5 requests kept mine s t) (hi : kept i = false)
    (p : ServicePhase) : Alike settings uuid5 requests kept mine (s.enter i p) t where
  phase j hj := by
    have hji : j ≠ i := by
      rintro rfl
      rw [hi] at hj
      cases hj
    exact (Function.update_of_ne hji ..).trans (h.phase j hj)
  sight := h.sight
  appends := h.appends
  households := h.households

theorem Alike.withSight (h : Alike settings uuid5 requests kept mine s t)
    {sight sight' : FirstSight}
    (hs : FirstSight.Alike (Homes settings uuid5 requests kept) (Ours settings requests kept)
      sight sight') :
    Alike settings uuid5 requests kept mine (s.withSight sight) (t.withSight sight') where
  phase := h.phase
  sight := hs
  appends := ⟨h.appends.phase, h.appends.events, h.appends.uncommitted, h.appends.products⟩
  households := rfl

theorem Alike.setSight (h : Alike settings uuid5 requests kept mine s t) {sight sight' : FirstSight}
    (hs : FirstSight.Alike (Homes settings uuid5 requests kept) (Ours settings requests kept)
      sight sight') (hh : sight'.households = t.sight.households) :
    Alike settings uuid5 requests kept mine { s with sight } { t with sight := sight' } where
  phase := h.phase
  sight := hs
  appends := h.appends
  households := by
    change t.appends.db.households = sight'.households.map (·.id)
    rw [hh, h.households]

theorem Alike.setAppends (h : Alike settings uuid5 requests kept mine s t)
    {appends appends' : AppendState}
    (ha : AppendState.Alike mine (Ours settings requests kept) appends appends')
    (hh : appends'.db.households = t.appends.db.households) :
    Alike settings uuid5 requests kept mine { s with appends } { t with appends := appends' } where
  phase := h.phase
  sight := h.sight
  appends := ha
  households := hh.trans h.households

theorem concerns (hmine : ∀ r, mine r = true ↔ Met settings uuid5 requests kept r)
    (hi : Ours settings requests kept i) (he : (requests i).endpoint = .appendEvent) :
    AppendState.Concerns mine (posts uuid5 requests i) where
  household r hr := (hmine r).mpr ⟨i, hi, .inl hr⟩
  key r hr := (hmine r).mpr ⟨i, hi, .inr ⟨he, .inl hr⟩⟩
  id r hr := (hmine r).mpr ⟨i, hi, .inr ⟨he, .inr hr⟩⟩

theorem Alike.mem_households (h : Alike settings uuid5 requests kept mine s t)
    (hs : Sound settings uuid5 jsonb requests first db₀ s) (hi : Ours settings requests kept i) :
    (sights uuid5 requests i).householdId ∈ s.appends.db.households ↔
      (sights uuid5 requests i).householdId ∈ t.appends.db.households := by
  rw [hs.households, h.households, FirstSight.mem_ids_iff, FirstSight.mem_ids_iff,
    h.sight.rows _ ⟨i, hi, rfl⟩]

theorem Alike.readReply_eq (h : Alike settings uuid5 requests kept mine s t)
    (hmine : ∀ r, mine r = true ↔ Met settings uuid5 requests kept r)
    (hi : Ours settings requests kept i) :
    s.readReply uuid5 requests i = t.readReply uuid5 requests i := by
  cases hd : (requests i).dated with
  | false => simp [readReply, hd]
  | true =>
    obtain ⟨S, hS, hs⟩ := exists_readReply uuid5 requests s i hd
    obtain ⟨T, hT, ht⟩ := exists_readReply uuid5 requests t i hd
    have hrows : knownRows s.appends.db.events (sights uuid5 requests i).householdId
        (requests i).asOf = knownRows t.appends.db.events (sights uuid5 requests i).householdId
          (requests i).asOf := by
      rw [knownRows, knownRows, h.appends.scopedTo_eq fun r hr => (hmine r).mpr ⟨i, hi, .inl hr⟩]
    rw [hs, ht, (hS.of_knownRows_eq hrows).unique hT]

end Relation

section Kept

theorem Alike.runSight (h : Alike settings uuid5 requests kept mine s t) (action : SightAction)
    (hs : Sound settings uuid5 jsonb requests first db₀ s) (hk : kept action.index = true)
    (hstep : s.runSight uuid5 requests action.index action = some s') :
    ∃ t', t.runSight uuid5 requests action.index action = some t' ∧
      Alike settings uuid5 requests kept mine s' t' := by
  unfold InventoryService.runSight at hstep ⊢
  rw [← h.phase _ hk]
  split at hstep
  next hp =>
    have hours : Ours settings requests kept action.index := ⟨hk, (hs.stage_of_phase hp).1⟩
    obtain ⟨sight, hsight, rfl⟩ := Option.map_eq_some_iff.mp hstep
    obtain ⟨sight', hsight', ha⟩ := h.sight.step hours ⟨_, hours, rfl⟩ hsight
    refine ⟨_, Option.map_eq_some_iff.mpr ⟨sight', hsight', rfl⟩, ?_⟩
    rw [← ha.phase _ hours]
    exact (h.withSight ha).enter _ _
  next => cases hstep

theorem Alike.runAppend (h : Alike settings uuid5 requests kept mine s t) (action : AppendAction)
    (hmine : ∀ r, mine r = true ↔ Met settings uuid5 requests kept r)
    (hs : Sound settings uuid5 jsonb requests first db₀ s) (hk : kept action.index = true)
    (hstep : s.runAppend uuid5 requests action.index action = some s') :
    ∃ t', t.runAppend uuid5 requests action.index action = some t' ∧
      Alike settings uuid5 requests kept mine s' t' := by
  unfold InventoryService.runAppend at hstep ⊢
  rw [← h.phase _ hk]
  split at hstep
  next hp he =>
    have hours : Ours settings requests kept action.index := ⟨hk, (hs.stage_of_phase hp).1⟩
    obtain ⟨appends, happends, rfl⟩ := Option.map_eq_some_iff.mp hstep
    obtain ⟨appends', happends', ha⟩ := h.appends.step hours (concerns hmine hours he)
      (h.mem_households hs hours) happends
    refine ⟨_, Option.map_eq_some_iff.mpr ⟨appends', happends', rfl⟩, ?_⟩
    rw [← ha.phase _ hours]
    exact (h.setAppends ha (AppendState.tables_of_step happends').1).enter _ _
  next => cases hstep

theorem Alike.disconnect {failure : ConnectionFailure}
    (h : Alike settings uuid5 requests kept mine s t)
    (hs : Sound settings uuid5 jsonb requests first db₀ s) (hk : kept i = true)
    (hstep : InventoryService.step settings uuid5 jsonb requests s (.disconnect i failure) =
      some s') :
    ∃ t', InventoryService.step settings uuid5 jsonb requests t (.disconnect i failure) =
      some t' ∧ Alike settings uuid5 requests kept mine s' t' := by
  rw [InventoryService.step] at hstep ⊢
  rw [← h.phase i hk]
  split at hstep
  next hp =>
    have hours : Ours settings requests kept i := ⟨hk, (hs.stage_of_phase hp).1⟩
    cases hstep
    exact ⟨_, rfl, (h.setSight (h.sight.getD_rollback hours)
      FirstSight.households_getD_rollback).enter i _⟩
  next hp =>
    have hours : Ours settings requests kept i := ⟨hk, (hs.stage_of_phase hp).1⟩
    cases hstep
    exact ⟨_, rfl, (h.setAppends (h.appends.getD_rollback hours)
      AppendState.households_getD_rollback).enter i _⟩
  next => cases hstep; exact ⟨_, rfl, h.enter i _⟩
  next => cases hstep

theorem Alike.step (h : Alike settings uuid5 requests kept mine s t)
    (hmine : ∀ r, mine r = true ↔ Met settings uuid5 requests kept r)
    (hs : Sound settings uuid5 jsonb requests first db₀ s) (hk : kept action.index = true)
    (hstep : InventoryService.step settings uuid5 jsonb requests s action = some s') :
    ∃ t', InventoryService.step settings uuid5 jsonb requests t action = some t' ∧
      Alike settings uuid5 requests kept mine s' t' := by
  cases action with
  | authenticate i =>
    rw [InventoryService.step] at hstep ⊢
    rw [← h.phase i hk]
    split at hstep
    next => cases hstep; exact ⟨_, rfl, h.enter i _⟩
    next => cases hstep
  | openSession i =>
    rw [InventoryService.step] at hstep ⊢
    rw [← h.phase i hk]
    split at hstep
    next => cases hstep; exact ⟨_, rfl, h.enter i _⟩
    next => cases hstep; exact ⟨_, rfl, h.enter i _⟩
    next =>
      split at hstep
      next hn => cases hstep; exact ⟨_, if_pos hn, h.enter i _⟩
      next hn => cases hstep; exact ⟨_, if_neg hn, h.enter i _⟩
    next => cases hstep
  | readHousehold i => exact h.runSight (.exists_ i) hs hk hstep
  | insertHousehold i => exact h.runSight (.insert i) hs hk hstep
  | commitHousehold i => exact h.runSight (.commit i) hs hk hstep
  | handle i =>
    rw [InventoryService.step] at hstep ⊢
    split at hstep
    next hp hc =>
      cases hstep
      have hours : Ours settings requests kept i := ⟨hk, (hs.stage_of_phase hp).1⟩
      rw [← h.phase i hk, ← h.sight.phase i hours, hp, hc]
      exact ⟨_, rfl, h.enter i _⟩
    next => cases hstep
  | insertEvent i => exact h.runAppend (.insert i) hmine hs hk hstep
  | lookupEvent i => exact h.runAppend (.lookup i) hmine hs hk hstep
  | commitEvent i => exact h.runAppend (.commit i) hmine hs hk hstep
  | project i =>
    rw [InventoryService.step] at hstep ⊢
    split at hstep
    next hp he =>
      cases hstep
      have hours : Ours settings requests kept i := ⟨hk, (hs.stage_of_phase hp).1⟩
      rw [← h.phase i hk, hp, he, h.readReply_eq hmine hours]
      exact ⟨_, rfl, h.enter i _⟩
    next hp he =>
      cases hstep
      have hours : Ours settings requests kept i := ⟨hk, (hs.stage_of_phase hp).1⟩
      rw [← h.phase i hk, hp, he, h.readReply_eq hmine hours]
      exact ⟨_, rfl, h.enter i _⟩
    next => cases hstep
  | respond i =>
    rw [InventoryService.step] at hstep ⊢
    split at hstep
    next hp =>
      cases hstep
      rw [← h.phase i hk, hp]
      exact ⟨_, rfl, h.enter i _⟩
    next hp ha =>
      cases hstep
      have hours : Ours settings requests kept i := ⟨hk, (hs.stage_of_phase hp).1⟩
      rw [← h.phase i hk, ← h.appends.phase i hours, hp, ha]
      exact ⟨_, rfl, h.enter i _⟩
    next => cases hstep
  | disconnect i failure => exact h.disconnect hs hk hstep

end Kept

section Erased

theorem Apart.not_homes (hapart : Apart settings uuid5 requests kept) (hk : kept i = false)
    (ha : Authenticated settings (requests i)) :
    ¬ Homes settings uuid5 requests kept (sights uuid5 requests i).householdId := by
  rintro ⟨j, hj, hh⟩
  exact hapart.household j i hj hk ha hh.symm

theorem Apart.not_mine (hapart : Apart settings uuid5 requests kept)
    (hmine : ∀ r, mine r = true ↔ Met settings uuid5 requests kept r) (hk : kept i = false)
    (ha : Authenticated settings (requests i)) (he : (requests i).endpoint = .appendEvent) :
    mine (posts uuid5 requests i).row = false := by
  rw [Bool.eq_false_iff, ne_eq, hmine]
  rintro ⟨j, hj, hh | ⟨hej, hkey | hid⟩⟩
  · exact hapart.household j i hj hk ha hh
  · exact (hapart.event j i hj hk ha hej he).1 hkey
  · exact (hapart.event j i hj hk ha hej he).2 hid

theorem not_ours (hk : kept i = false) : ¬ Ours settings requests kept i := by
  rintro ⟨h, -⟩
  rw [hk] at h
  cases h

theorem Alike.sight_other (h : Alike settings uuid5 requests kept mine s t)
    (action : SightAction) {sight : FirstSight}
    (hapart : Apart settings uuid5 requests kept)
    (hs : Sound settings uuid5 jsonb requests first db₀ s) (hk : kept action.index = false)
    (hp : s.phase action.index = .opened)
    (hstep : FirstSight.step (sights uuid5 requests) s.sight action = some sight) :
    FirstSight.Alike (Homes settings uuid5 requests kept) (Ours settings requests kept)
      sight t.sight :=
  h.sight.step_of_other (not_ours hk) (hapart.not_homes hk (hs.stage_of_phase hp).1) hstep

theorem Alike.appends_other (h : Alike settings uuid5 requests kept mine s t)
    (action : AppendAction) {appends : AppendState}
    (hmine : ∀ r, mine r = true ↔ Met settings uuid5 requests kept r)
    (hapart : Apart settings uuid5 requests kept)
    (hs : Sound settings uuid5 jsonb requests first db₀ s) (hk : kept action.index = false)
    (hposted : Posted settings uuid5 jsonb (requests action.index))
    (hstep : AppendState.step (posts uuid5 requests) s.appends action = some appends) :
    AppendState.Alike mine (Ours settings requests kept) appends t.appends := by
  refine h.appends.step_of_other (not_ours hk) (fun row hrow => ?_)
    (hapart.not_mine hmine hk hposted.authenticated hposted.endpoint) hstep
  have he := hs.appends.established action.index
  rw [hrow] at he
  exact he.1

theorem Alike.broken_other (h : Alike settings uuid5 requests kept mine s t)
    (hmine : ∀ r, mine r = true ↔ Met settings uuid5 requests kept r)
    (hapart : Apart settings uuid5 requests kept)
    (hs : Sound settings uuid5 jsonb requests first db₀ s) (hk : kept i = false)
    (hp : s.phase i = .handling) :
    AppendState.Alike mine (Ours settings requests kept)
      ((AppendState.step (posts uuid5 requests) s.appends (.rollback i)).getD s.appends)
      t.appends := by
  obtain ⟨-, -, hposted | ⟨-, hbegun⟩⟩ : Authenticated settings (requests i) ∧
    (∃ created, s.sight.phase i = .proceeded created) ∧ (Posted settings uuid5 jsonb (requests i) ∨
      (requests i).endpoint ≠ .appendEvent ∧ s.appends.phase i = .begun) := hs.stage_of_phase hp
  · cases hstep : AppendState.step (posts uuid5 requests) s.appends (.rollback i) with
    | none => exact h.appends
    | some appends => exact h.appends_other (.rollback i) hmine hapart hs hk hposted hstep
  · rw [AppendState.step, hbegun]
    refine ⟨fun j hj => ?_, h.appends.events, h.appends.uncommitted, h.appends.products⟩
    have hji : j ≠ i := by
      rintro rfl
      exact not_ours hk hj
    exact (Function.update_of_ne hji ..).trans (h.appends.phase j hj)

theorem Alike.runSight_other (h : Alike settings uuid5 requests kept mine s t)
    (action : SightAction) (hapart : Apart settings uuid5 requests kept)
    (hs : Sound settings uuid5 jsonb requests first db₀ s) (hk : kept action.index = false)
    (hstep : s.runSight uuid5 requests action.index action = some s') :
    Alike settings uuid5 requests kept mine s' t := by
  unfold InventoryService.runSight at hstep
  split at hstep
  next hp =>
    obtain ⟨sight, hsight, rfl⟩ := Option.map_eq_some_iff.mp hstep
    have ha : Alike settings uuid5 requests kept mine (s.withSight sight) t :=
      ⟨h.phase, h.sight_other action hapart hs hk hp hsight,
        ⟨h.appends.phase, h.appends.events, h.appends.uncommitted, h.appends.products⟩,
        h.households⟩
    exact ha.enter_other hk _
  next => cases hstep

theorem Alike.runAppend_other (h : Alike settings uuid5 requests kept mine s t)
    (action : AppendAction) (hmine : ∀ r, mine r = true ↔ Met settings uuid5 requests kept r)
    (hapart : Apart settings uuid5 requests kept)
    (hs : Sound settings uuid5 jsonb requests first db₀ s) (hk : kept action.index = false)
    (hstep : s.runAppend uuid5 requests action.index action = some s') :
    Alike settings uuid5 requests kept mine s' t := by
  unfold InventoryService.runAppend at hstep
  split at hstep
  next hp he =>
    obtain ⟨appends, happends, rfl⟩ := Option.map_eq_some_iff.mp hstep
    obtain ⟨-, -, hposted | ⟨hne, -⟩⟩ : Authenticated settings (requests action.index) ∧
      (∃ created, s.sight.phase action.index = .proceeded created) ∧
      (Posted settings uuid5 jsonb (requests action.index) ∨
        (requests action.index).endpoint ≠ .appendEvent ∧
          s.appends.phase action.index = .begun) := hs.stage_of_phase hp
    · have ha : Alike settings uuid5 requests kept mine { s with appends } t :=
        ⟨h.phase, h.sight, h.appends_other action hmine hapart hs hk hposted happends, h.households⟩
      exact ha.enter_other hk _
    · exact absurd he hne
  next => cases hstep

theorem Alike.disconnect_other {failure : ConnectionFailure}
    (h : Alike settings uuid5 requests kept mine s t)
    (hmine : ∀ r, mine r = true ↔ Met settings uuid5 requests kept r)
    (hapart : Apart settings uuid5 requests kept)
    (hs : Sound settings uuid5 jsonb requests first db₀ s) (hk : kept i = false)
    (hstep : InventoryService.step settings uuid5 jsonb requests s (.disconnect i failure) =
      some s') : Alike settings uuid5 requests kept mine s' t := by
  rw [InventoryService.step] at hstep
  split at hstep
  next hp =>
    cases hstep
    have hsight : FirstSight.Alike (Homes settings uuid5 requests kept)
        (Ours settings requests kept)
        ((FirstSight.step (sights uuid5 requests) s.sight (.rollback i)).getD s.sight)
        t.sight := by
      cases hr : FirstSight.step (sights uuid5 requests) s.sight (.rollback i) with
      | none => exact h.sight
      | some sight => exact h.sight_other (.rollback i) hapart hs hk hp hr
    generalize (FirstSight.step _ _ _).getD _ = sight at hsight
    have ha : Alike settings uuid5 requests kept mine { s with sight } t :=
      ⟨h.phase, hsight, h.appends, h.households⟩
    exact ha.enter_other hk _
  next hp =>
    cases hstep
    have happends := h.broken_other hmine hapart hs hk hp
    generalize (AppendState.step _ _ _).getD _ = appends at happends
    have ha : Alike settings uuid5 requests kept mine { s with appends } t :=
      ⟨h.phase, h.sight, happends, h.households⟩
    exact ha.enter_other hk _
  next => cases hstep; exact h.enter_other hk _
  next => cases hstep

/-- A step of a request that is left out changes nothing that a kept one can meet. -/
theorem Alike.erased (h : Alike settings uuid5 requests kept mine s t)
    (hmine : ∀ r, mine r = true ↔ Met settings uuid5 requests kept r)
    (hapart : Apart settings uuid5 requests kept)
    (hs : Sound settings uuid5 jsonb requests first db₀ s) (hk : kept action.index = false)
    (hstep : InventoryService.step settings uuid5 jsonb requests s action = some s') :
    Alike settings uuid5 requests kept mine s' t := by
  cases action with
  | readHousehold i => exact h.runSight_other (.exists_ i) hapart hs hk hstep
  | insertHousehold i => exact h.runSight_other (.insert i) hapart hs hk hstep
  | commitHousehold i => exact h.runSight_other (.commit i) hapart hs hk hstep
  | insertEvent i => exact h.runAppend_other (.insert i) hmine hapart hs hk hstep
  | lookupEvent i => exact h.runAppend_other (.lookup i) hmine hapart hs hk hstep
  | commitEvent i => exact h.runAppend_other (.commit i) hmine hapart hs hk hstep
  | disconnect i failure => exact h.disconnect_other hmine hapart hs hk hstep
  | openSession i =>
    rw [InventoryService.step] at hstep
    split at hstep
    next => cases hstep; exact h.enter_other hk _
    next => cases hstep; exact h.enter_other hk _
    next => split at hstep <;> cases hstep <;> exact h.enter_other hk _
    next => cases hstep
  | authenticate i | handle i | project i | respond i =>
    rw [InventoryService.step] at hstep
    split at hstep <;> cases hstep <;> exact h.enter_other hk _

end Erased

section Results

/-- Requests of other households, under keys and ids of their own, and requests that are not let
through leave no trace: without them the same run is possible, and every other request comes to the
same reply, with the same rows of its household behind it. -/
theorem others_leave_no_trace (hl : LowerSettled)
    (hw : ∀ c, (UnicodeTables.lowerOf c).length = if c = 'İ' then 2 else 1)
    (hv : Vouched settings requests) (hn : (first.map (·.id)).Nodup)
    (hdb : Db.Valid { db₀ with households := first.map (·.id) })
    (hapart : Apart settings uuid5 requests kept) {actions : List ServiceAction}
    (h : exec (step settings uuid5 jsonb requests) (initial first db₀) actions = some s) :
    ∃ t, exec (step settings uuid5 jsonb requests) (initial first db₀)
        (actions.filter fun action => kept action.index) = some t ∧
      ∀ i, kept i = true → t.phase i = s.phase i ∧ (Authenticated settings (requests i) →
        scopedTo t.appends.db.events (sights uuid5 requests i).householdId =
          scopedTo s.appends.db.events (sights uuid5 requests i).householdId ∧
        HouseholdRepository.scopedTo t.sight.households (sights uuid5 requests i).householdId =
          HouseholdRepository.scopedTo s.sight.households
            (sights uuid5 requests i).householdId) := by
  classical
  have hmine : ∀ r, decide (Met settings uuid5 requests kept r) = true ↔
      Met settings uuid5 requests kept r := fun r => decide_eq_true_iff
  have herases : Erases (step settings uuid5 jsonb requests)
      (fun action => kept action.index) fun s t => Sound settings uuid5 jsonb requests first db₀ s ∧
        Alike settings uuid5 requests kept
          (fun r => decide (Met settings uuid5 requests kept r)) s t := by
    constructor
    · rintro s t a s' ⟨hs, ha⟩ hk hstep
      obtain ⟨t', ht, ha'⟩ := ha.step hmine hs hk hstep
      exact ⟨t', ht, hs.step hl hw hv hstep, ha'⟩
    · rintro s t a s' ⟨hs, ha⟩ hk hstep
      exact ⟨hs.step hl hw hv hstep, ha.erased hmine hapart hs hk hstep⟩
  have hfirst : Alike settings uuid5 requests kept
      (fun r => decide (Met settings uuid5 requests kept r)) (initial first db₀)
      (initial first db₀) :=
    ⟨fun _ _ => rfl, ⟨fun _ _ => rfl, fun _ _ => rfl, fun _ _ => rfl⟩,
      ⟨fun _ _ => rfl, rfl, rfl, rfl⟩, rfl⟩
  obtain ⟨t, ht, -, ha⟩ := herases.exec_filter ⟨.initial hn hdb, hfirst⟩ h
  refine ⟨t, ht, fun i hk => ⟨(ha.phase i hk).symm, fun hauth => ⟨?_, ?_⟩⟩⟩
  · exact (ha.appends.scopedTo_eq fun r hr => (hmine r).mpr ⟨i, ⟨hk, hauth⟩, .inl hr⟩).symm
  · exact (ha.sight.rows _ ⟨i, ⟨hk, hauth⟩, rfl⟩).symm

end Results

end InventoryService

namespace InventoryService

open TokenVerifier (kitchenSettings)

/-- Requests of a host, one of a guest under a key of its own, and others without credentials. -/
def tenantRequests [UnicodeTables] (i : ℕ) : InventoryRequest :=
  { memberRequests i with
    credentials := if i = 3 ∨ 4 < i then none else some "signed"
    body := { bodyWithUnit " Pack" with idempotencyKey := if i = 2 then "guest" else "host" } }

def notGuest (i : ℕ) : Bool := i ≠ 2 ∧ i ≠ 3

/-- The guest's event is appended before the host's, and the host reads. -/
def hostAndGuest : List ServiceAction :=
  [.authenticate 3, .authenticate 0, .openSession 0, .readHousehold 0, .authenticate 2,
    .openSession 2, .readHousehold 2, .insertHousehold 2, .insertHousehold 0,
    .commitHousehold 2, .commitHousehold 0, .handle 0, .handle 2, .insertEvent 2, .insertEvent 0,
    .commitEvent 2, .respond 2, .commitEvent 0, .authenticate 4, .openSession 4,
    .readHousehold 4, .handle 4, .project 4, .disconnect 0 .operationalError, .respond 4]

theorem lt_of_authenticated [UnicodeTables] {i : ℕ}
    (h : Authenticated kitchenSettings (tenantRequests i)) : i ≤ 4 ∧ i ≠ 3 := by
  by_contra hi
  obtain ⟨principal, hp⟩ := h
  have hnone : (tenantRequests i).credentials = none := if_pos (by omega)
  rw [hnone] at hp
  unfold getPrincipal at hp
  split at hp <;> cases hp

theorem vouched_tenantRequests [UnicodeTables] : Vouched kitchenSettings tenantRequests := by
  intro i principal h
  simp only [tenantRequests, memberRequests] at h
  exact ⟨_, h⟩

theorem apart_tenantRequests :
    letI := dottedTables
    Apart kitchenSettings memberUuid5 tenantRequests notGuest := by
  let _ := dottedTables
  have begins : ∀ i j, Ours kitchenSettings tenantRequests notGuest i → notGuest j = false →
      Authenticated kitchenSettings (tenantRequests j) → (i = 0 ∨ i = 1 ∨ i = 4) ∧ j = 2 := by
    rintro i j ⟨hi, hauth⟩ hj hauth'
    have hlt := lt_of_authenticated hauth
    have hlt' := lt_of_authenticated hauth'
    have hi : i ≠ 2 ∧ i ≠ 3 := of_decide_eq_true hi
    have hj : ¬ (j ≠ 2 ∧ j ≠ 3) := of_decide_eq_false hj
    omega
  constructor
  · intro i j hi hj hauth
    obtain ⟨rfl | rfl | rfl, rfl⟩ := begins i j hi hj hauth <;> decide +kernel
  · intro i j hi hj hauth _ _
    obtain ⟨rfl | rfl | rfl, rfl⟩ := begins i j hi hj hauth <;> decide +kernel

theorem others_leave_no_trace_hostAndGuest :
    letI := dottedTables
    ∃ s t, exec (step kitchenSettings memberUuid5 (fun _ => true) tenantRequests)
        (initial [] emptyKitchen) hostAndGuest = some s ∧
      exec (step kitchenSettings memberUuid5 (fun _ => true) tenantRequests)
        (initial [] emptyKitchen) (hostAndGuest.filter fun action => notGuest action.index) =
          some t ∧
      s.appends.db.events.map (·.householdId) = [2, 1] ∧ t.phase 4 = s.phase 4 := by
  let _ := dottedTables
  have h : (exec (step kitchenSettings memberUuid5 (fun _ => true) tenantRequests)
      (initial [] emptyKitchen) hostAndGuest).map (fun s =>
        s.appends.db.events.map (·.householdId)) = some [2, 1] := by
    decide +kernel
  obtain ⟨s, hs, hevents⟩ := Option.map_eq_some_iff.mp h
  have hdb : Db.Valid { emptyKitchen with
      households := ([] : List HouseholdRow).map (·.id) } :=
    ⟨by decide, by decide, by decide, by decide⟩
  obtain ⟨t, ht, hsame⟩ := others_leave_no_trace dottedTables_lowerSettled dottedTables_length
    vouched_tenantRequests (by simp) hdb apart_tenantRequests hs
  exact ⟨s, t, hs, ht, hevents, (hsame 4 rfl).1⟩

end InventoryService

end KitchenSense
