import KitchenSense.Concurrency.Projections

/-! # The watermark of overlapping calls

The instant that the stored rows carry moves forward as long as no commit
replaces rows of a later instant than its own call. A slow call that read
before a fast one committed does replace them.
-/

namespace KitchenSense

open InventorySnapshotRepository

namespace ProjectionState

section Forward

theorem asOf_of_mem {S : InventorySnapshot} {tag : Option ℕ} {v : RowVersion}
    (h : v ∈ (toRows S).map (tag, ·)) : v.2.asOf = S.asOf := by
  obtain ⟨row, hm, rfl⟩ := List.mem_map.mp h
  obtain ⟨lot, -, rfl⟩ := List.mem_map.mp hm
  rfl

variable {base : Db} {householdId : UUID}

/-- The second state stores a projection at least as late as the first one does. -/
def Forward (base : Db) (householdId : UUID) (s s' : ProjectionState) : Prop :=
  ∀ S, s.current base householdId = some S →
    ∃ S', s'.current base householdId = some S' ∧ S.asOf ≤ S'.asOf

theorem Forward.refl (s : ProjectionState) : Forward base householdId s s :=
  fun S h => ⟨S, h, le_rfl⟩

theorem Forward.trans {s₁ s₂ s₃ : ProjectionState} (h : Forward base householdId s₁ s₂)
    (h' : Forward base householdId s₂ s₃) : Forward base householdId s₁ s₃ := by
  intro S hS
  obtain ⟨S₂, h₂, ht⟩ := h S hS
  obtain ⟨S₃, h₃, ht'⟩ := h' S₂ h₂
  exact ⟨S₃, h₃, ht.trans ht'⟩

end Forward

section Calls

variable [UnicodeTables] {base : Db} {householdId : UUID} {tasks : ℕ → ProjectionTask}
  {s s' : ProjectionState} {action : ProjectionAction} {i : ℕ} {S : InventorySnapshot}

/-- The rows that the `DELETE` of a committing call removed are not of a later instant. -/
def SavesForward (tasks : ℕ → ProjectionTask) (s : ProjectionState) : ProjectionAction → Prop
  | .commit i => ∀ d ∈ s.doomed, d.1 = i → d.2.2.asOf ≤ (tasks i).asOf
  | _ => True

instance (s : ProjectionState) (action : ProjectionAction) :
    Decidable (SavesForward tasks s action) :=
  match action with
  | .commit _ => inferInstanceAs (Decidable (∀ d ∈ s.doomed, _ → _))
  | .getStored _ | .readEvents _ | .startDelete _ | .delete _ | .insert _ | .rollback _ =>
    inferInstanceAs (Decidable True)

theorem step_commit (h : step base householdId tasks s (.commit i) = some s') :
    ∃ S, s.phase i = .saved S ∧ s' = s.settle i S := by
  rw [step] at h
  cases hp : s.phase i with
  | saved S =>
    rw [hp] at h
    cases h
    exact ⟨S, rfl, rfl⟩
  | _ => rw [hp] at h; cases h

/-- Only a commit changes the committed rows, and it replaces all of them. -/
theorem Sound.step_live (hs : Sound base householdId tasks s)
    (h : ProjectionState.step base householdId tasks s action = some s') :
    s'.live = s.live ∨ ∃ i S, action = .commit i ∧ s.phase i = .saved S ∧
      s'.live = (toRows S).map (some i, ·) ∧ s.doomed = s.live.map (i, ·) := by
  obtain ⟨i, -, ⟨p, -, -, rfl⟩ | ⟨S, seen, -, -, rfl⟩ | ⟨S, r, -, -, -, rfl⟩ | ⟨S, rfl, hp, rfl⟩ |
    ⟨-, rfl⟩⟩ := step_cases h
  · exact .inl rfl
  · exact .inl rfl
  · exact .inl rfl
  · rcases hs.held.settle_live hp with ⟨hl, -, -⟩ | ⟨hl, hd⟩
    · exact .inl hl
    · exact .inr ⟨i, S, rfl, hp, hl, hd⟩
  · exact .inl rfl

theorem Sound.step_forward (hs : Sound base householdId tasks s)
    (hok : SavesForward tasks s action)
    (h : ProjectionState.step base householdId tasks s action = some s') :
    Forward base householdId s s' := by
  rcases hs.step_live h with hl | ⟨i, S, rfl, hp, hl, hd⟩
  · have hdb : s'.current base householdId = s.current base householdId := by
      rw [current, current, db, db, hl]
    exact fun S hS => ⟨S, hdb ▸ hS, le_rfl⟩
  · intro S₀ hS₀
    rcases hs.current_cases with ⟨-, hc⟩ | ⟨tag, S₁, hS₁, hne, hlive, hc⟩
    · cases hc.symm.trans hS₀
    cases hc.symm.trans hS₀
    have hS := hp ▸ hs.observed.supported i
    have hat : S.asOf = (tasks i).asOf := (isReplay_iff.mp hS).2.1
    obtain ⟨lot, hm⟩ := List.exists_mem_of_ne_nil _ hne
    have hv : (tag, toRow S₀.householdId S₀.asOf lot) ∈ s.live :=
      hlive ▸ List.mem_map_of_mem (List.mem_map_of_mem hm)
    have hle : S₀.asOf ≤ (tasks i).asOf := hok _ (hd ▸ List.mem_map_of_mem hv) rfl
    -- the later replay still lists the lots of the earlier one
    obtain ⟨lot', hm', -⟩ := hS₁.lot_of_le hS hle lot hm
    have hne' : S.lots ≠ [] := List.ne_nil_of_mem hm'
    exact ⟨S, current_eq_some (IsReplay.self hS) hne' hl, hle.trans hat.ge⟩

/-- As long as no commit replaces rows of a later instant than its own call, the stored instant
never moves backwards. -/
theorem watermark_never_moves_backwards (h₀ : StoredReplay base householdId)
    (h : Reach (step base householdId tasks) (SavesForward tasks) (initial base householdId) s)
    (h' : Reach (step base householdId tasks) (SavesForward tasks) s s') :
    ∀ S, s.current base householdId = some S →
      ∃ S', s'.current base householdId = some S' ∧ S.asOf ≤ S'.asOf := by
  have hs := (Sound.initial h₀).reach h
  have hi : Sound base householdId tasks s' ∧ Forward base householdId s s' := by
    refine h'.invariant (I := fun s' => Sound base householdId tasks s' ∧
      Forward base householdId s s') ⟨hs, .refl s⟩ ?_
    rintro s₁ a s₂ ⟨hs₁, hf⟩ hok hstep
    exact ⟨hs₁.step hstep, hf.trans (hs₁.step_forward hok hstep)⟩
  exact hi.2

/-- A commit that replaces rows of a later instant loses that instant. -/
theorem watermark_moves_backwards (hs : Sound base householdId tasks s)
    (hok : ¬ SavesForward tasks s (.commit i))
    (h : step base householdId tasks s (.commit i) = some s') :
    ∃ S, s.current base householdId = some S ∧
      ∀ S', s'.current base householdId = some S' → S'.asOf < S.asOf := by
  obtain ⟨d, hm, hdi, hlt⟩ : ∃ d ∈ s.doomed, d.1 = i ∧ (tasks i).asOf < d.2.2.asOf := by
    rw [SavesForward] at hok
    push Not at hok
    exact hok
  obtain ⟨S, hp, rfl⟩ := step_commit h
  rcases hs.held.settle_live hp with ⟨-, -, hnone⟩ | ⟨hl, hd⟩
  · exact absurd hdi (hnone d hm)
  obtain ⟨v, hv, rfl⟩ := List.mem_map.mp (hd ▸ hm)
  rcases hs.current_cases with ⟨hnil, -⟩ | ⟨tag, S₀, -, -, hlive, hc⟩
  · rw [hnil] at hv; cases hv
  refine ⟨S₀, hc, fun S' hS' => ?_⟩
  have hv₀ : v.2.asOf = S₀.asOf := asOf_of_mem (hlive ▸ hv)
  have hat : S.asOf = (tasks i).asOf := (isReplay_iff.mp (hp ▸ hs.observed.supported i)).2.1
  rcases (hs.step h).current_cases with ⟨-, hc'⟩ | ⟨tag', S₁, -, hne, hlive', hc'⟩
  · cases hc'.symm.trans hS'
  cases hc'.symm.trans hS'
  obtain ⟨lot, hlot⟩ := List.exists_mem_of_ne_nil _ hne
  have hrow : (tag', toRow S'.householdId S'.asOf lot) ∈ (toRows S).map (some i, ·) :=
    hl ▸ hlive' ▸ List.mem_map_of_mem (List.mem_map_of_mem hlot)
  calc S'.asOf = S.asOf := asOf_of_mem hrow
    _ = (tasks i).asOf := hat
    _ < v.2.asOf := hlt
    _ = S₀.asOf := hv₀

end Calls

section Sample

def advances (i : ℕ) : ProjectionTask := .advance (if i = 0 then 5 else 10)

/-- The first call moves the stored instant forward before the second one reads it. -/
def savesInTurn : List ProjectionAction :=
  [.getStored 0, .readEvents 0, .startDelete 0, .delete 0, .insert 0, .commit 0,
    .getStored 1, .readEvents 1, .startDelete 1, .delete 1, .insert 1, .commit 1]

/-- The first call reads, and the second one does all its work before the first goes on. -/
def slowSave : List ProjectionAction :=
  [.getStored 0, .readEvents 0,
    .getStored 1, .readEvents 1, .startDelete 1, .delete 1, .insert 1, .commit 1,
    .startDelete 0, .delete 0, .insert 0, .commit 0]

theorem watermark_never_moves_backwards_savesInTurn :
    letI := asciiTables
    ∃ s s', exec (step stockedKitchen 1 advances) (initial stockedKitchen 1)
        (savesInTurn.take 6) = some s ∧
      exec (step stockedKitchen 1 advances) s (savesInTurn.drop 6) = some s' ∧
      (s.current stockedKitchen 1).map (·.asOf) = some 5 ∧
      (s'.current stockedKitchen 1).map (·.asOf) = some 10 ∧
      ∀ S, s.current stockedKitchen 1 = some S →
        ∃ S', s'.current stockedKitchen 1 = some S' ∧ S.asOf ≤ S'.asOf := by
  let _ := asciiTables
  have h : ((exec (guarded (step stockedKitchen 1 advances) (SavesForward advances))
      (initial stockedKitchen 1) (savesInTurn.take 6)).bind fun s =>
        (exec (guarded (step stockedKitchen 1 advances) (SavesForward advances)) s
          (savesInTurn.drop 6)).map fun s' =>
          ((s.current stockedKitchen 1).map (·.asOf), (s'.current stockedKitchen 1).map (·.asOf)))
    = some (some 5, some 10) := by decide +kernel
  obtain ⟨s, hr, h⟩ := Option.bind_eq_some_iff.mp h
  obtain ⟨s', hr', h⟩ := Option.map_eq_some_iff.mp h
  obtain ⟨ht, ht'⟩ := Prod.mk.inj h
  exact ⟨s, s', exec_of_guarded hr, exec_of_guarded hr', ht, ht',
    watermark_never_moves_backwards (.inl rfl) (Reach.of_exec hr) (Reach.of_exec hr')⟩

/-- The stored instant moves from 10 back to 5. -/
theorem watermark_moves_backwards_slowSave :
    letI := asciiTables
    ∃ s s', exec (step stockedKitchen 1 advances) (initial stockedKitchen 1)
        (slowSave.take 8) = some s ∧
      exec (step stockedKitchen 1 advances) s (slowSave.drop 8) = some s' ∧
      (s.current stockedKitchen 1).map (·.asOf) = some 10 ∧
      (s'.current stockedKitchen 1).map (·.asOf) = some 5 := by
  let _ := asciiTables
  have h : ((exec (step stockedKitchen 1 advances) (initial stockedKitchen 1)
      (slowSave.take 8)).bind fun s =>
        (exec (step stockedKitchen 1 advances) s (slowSave.drop 8)).map fun s' =>
          ((s.current stockedKitchen 1).map (·.asOf), (s'.current stockedKitchen 1).map (·.asOf)))
    = some (some 10, some 5) := by decide +kernel
  obtain ⟨s, hr, h⟩ := Option.bind_eq_some_iff.mp h
  obtain ⟨s', hr', h⟩ := Option.map_eq_some_iff.mp h
  obtain ⟨ht, ht'⟩ := Prod.mk.inj h
  exact ⟨s, s', hr, hr', ht, ht'⟩

end Sample

end ProjectionState

end KitchenSense
