import KitchenSense.Foundations.Progress
import KitchenSense.Provider.BackOff

/-! # Calls of the provider come to their ends

The lock is held only while the vault is asked, and the vault answers or runs
out of time. A call that waits takes the lock at most once, so none is left
waiting for a lookup of another.
-/

namespace KitchenSense

/-- The steps of a call after the one that gives it its session factory. -/
def DatabaseCall.rest : DatabaseCall → ℕ
  | .check => 1
  | .sessionmaker | .warm => 0

def DatabasePhase.rank : DatabasePhase → ℕ
  | .awaitingLock call => call.rest + 2
  | .lookingUp call => call.rest + 1
  | .probing | .disposing _ => 1
  | .idle | .ended _ => 0

def DatabaseAction.own : DatabaseAction → Option ℕ
  | .acquire i | .vault i _ | .probe i _ | .disposed i _ => some i
  | .tick _ | .call _ _ | .dispose _ => none

theorem DatabasePhase.rank_le (p : DatabasePhase) : p.rank ≤ 3 := by
  cases p with
  | awaitingLock call | lookingUp call => cases call <;> decide
  | _ => simp [rank]

theorem DatabasePhase.rank_eq_zero_iff {p : DatabasePhase} : p.rank = 0 ↔ p.Free := by
  cases p with
  | awaitingLock call | lookingUp call => exact iff_of_false (Nat.succ_ne_zero _) id
  | probing | disposing => exact iff_of_false Nat.one_ne_zero id
  | idle | ended => exact iff_of_true rfl trivial

namespace Provider

section Ends

variable {ν ρ : Type} {sa : SqlAlchemy ν ρ} {env : Environment} {cfg : DatabaseSettings}
  {s s' : Provider} {i : ℕ} {action : DatabaseAction} {call : DatabaseCall} {p : DatabasePhase}

def rank (s : Provider) (i : ℕ) : ℕ := (s.phase i).rank

def Occupied (s : Provider) : Prop := ∀ j, s.lock = some j → ∃ call, s.phase j = .lookingUp call

theorem rank_replied {α : Type} {reply : α → DatabaseReply} {result : Except SessionError α} :
    (replied reply result).rank = 0 := by
  cases result <;> rfl

theorem rank_proceed_le (source : UrlSource) (call : DatabaseCall)
    (result : Except SessionError ℕ) : (proceed source call result).rank ≤ call.rest := by
  cases call with
  | sessionmaker => exact rank_replied.le
  | warm => exact rank_replied.le
  | check =>
    cases result with
    | ok factory => exact le_rfl
    | error error => exact rank_replied.le.trans (Nat.zero_le 1)

structure Turns (action : DatabaseAction) (s s' : Provider) (i : ℕ) (p : DatabasePhase) :
    Prop where
  phase : s'.phase = Function.update s.phase i p
  nears : Nears action.own i (s.rank i) p.rank
  lock : s'.lock = none ∨ (s'.lock = s.lock ∧ ∀ call, s.phase i = .lookingUp call → p = s.phase i) ∨
    (s'.lock = some i ∧ ∃ call, p = .lookingUp call)

variable [UnicodeTables]

theorem turns_of_acquire (h : step sa env cfg s (.acquire i) = some s') :
    ∃ p, Turns (.acquire i) s s' i p := by
  rw [step, Option.ite_none_left_eq_some] at h
  obtain ⟨hl, h⟩ := h
  have hl : s.lock = none := not_not.mp hl
  cases hp : s.phase i with
  | awaitingLock call =>
    have hlt : call.rest + 1 < s.rank i := by
      rw [rank, hp]
      exact Nat.lt_succ_self _
    rw [hp] at h
    dsimp only at h
    split at h
    next factory hf =>
      cases h
      exact ⟨_, rfl, .of_lt ((rank_proceed_le ..).trans_lt (Nat.lt_of_succ_lt hlt)), .inl hl⟩
    next hf =>
      split at h
      next result db hs =>
        cases h
        exact ⟨_, rfl, .of_lt ((rank_proceed_le ..).trans_lt (Nat.lt_of_succ_lt hlt)), .inl hl⟩
      next db hs => cases h; exact ⟨_, rfl, .of_lt hlt, .inr (.inr ⟨rfl, call, rfl⟩)⟩
  | _ => rw [hp] at h; cases h

/-- A step concerns one call, and one that has begun comes closer to its end. -/
theorem turns_of_step (h : step sa env cfg s action = some s') : ∃ i p, Turns action s s' i p := by
  have hfree : ∀ {i} {p : DatabasePhase}, (s.phase i).Free →
      ∀ call, s.phase i = .lookingUp call → p = s.phase i := by
    intro i p hf call hp
    rw [hp] at hf
    exact hf.elim
  have hbegins : ∀ {i r}, (s.phase i).Free → Nears none i (s.rank i) r := by
    intro i r hf
    rw [rank, DatabasePhase.rank_eq_zero_iff.mpr hf]
    exact .of_zero
  cases action with
  | tick now =>
    rw [step, Option.ite_none_right_eq_some] at h
    obtain ⟨-, ⟨⟩⟩ := h
    exact ⟨0, s.phase 0, (Function.update_eq_self 0 s.phase).symm, .refl,
      .inr (.inl ⟨rfl, fun _ _ => rfl⟩)⟩
  | call i call =>
    rw [step, Option.ite_none_left_eq_some] at h
    obtain ⟨hf, h⟩ := h
    have hf : (s.phase i).Free := not_not.mp hf
    split at h
    next => cases h; exact ⟨i, _, rfl, hbegins hf, .inr (.inl ⟨rfl, hfree hf⟩)⟩
    next => cases h; exact ⟨i, _, rfl, hbegins hf, .inr (.inl ⟨rfl, hfree hf⟩)⟩
  | acquire i => exact ⟨i, turns_of_acquire h⟩
  | vault i outcome =>
    obtain ⟨call, hp, rfl⟩ := step_vault h
    refine ⟨i, _, rfl, .of_lt ((rank_proceed_le ..).trans_lt ?_), .inl rfl⟩
    rw [rank, hp]
    exact Nat.lt_succ_self _
  | probe i outcome =>
    rw [step] at h
    cases hp : s.phase i with
    | probing =>
      rw [hp] at h
      cases h
      refine ⟨i, _, rfl, .of_lt ?_, .inr (.inl ⟨rfl, fun _ h => by rw [hp] at h; cases h⟩)⟩
      rw [rank, hp]
      exact Nat.zero_lt_one
    | _ => rw [hp] at h; cases h
  | dispose i =>
    rw [step, Option.ite_none_left_eq_some] at h
    obtain ⟨hf, h⟩ := h
    have hf : (s.phase i).Free := not_not.mp hf
    split at h
    next => cases h; exact ⟨i, _, rfl, hbegins hf, .inr (.inl ⟨rfl, hfree hf⟩)⟩
    next => cases h; exact ⟨i, _, rfl, hbegins hf, .inr (.inl ⟨rfl, hfree hf⟩)⟩
  | disposed i raised =>
    rw [step] at h
    cases hp : s.phase i with
    | disposing engine =>
      have hlt : 0 < s.rank i := by
        rw [rank, hp]
        exact Nat.zero_lt_one
      have hn : ∀ p call, s.phase i = .lookingUp call → p = s.phase i := by
        rw [hp]
        rintro p call ⟨⟩
      rw [hp] at h
      cases raised with
      | none => cases h; exact ⟨i, _, rfl, .of_lt hlt, .inr (.inl ⟨rfl, hn _⟩)⟩
      | some message => cases h; exact ⟨i, _, rfl, .of_lt hlt, .inr (.inl ⟨rfl, hn _⟩)⟩
    | _ => rw [hp] at h; cases h

theorem Occupied.step (hs : Occupied s) (h : Provider.step sa env cfg s action = some s') :
    Occupied s' := by
  obtain ⟨i, p, ht⟩ := turns_of_step h
  intro j hj
  rw [ht.phase]
  rcases ht.lock with hl | ⟨hl, hp⟩ | ⟨hl, call, hp⟩
  · rw [hl] at hj
    cases hj
  · obtain ⟨call, hcall⟩ := hs j (hl ▸ hj)
    refine ⟨call, ?_⟩
    by_cases hi : j = i
    · subst hi
      rw [Function.update_self, hp call hcall, hcall]
    · rw [Function.update_of_ne hi, hcall]
  · rw [hl] at hj
    cases hj
    exact ⟨call, by rw [Function.update_self, hp]⟩

theorem continues_of_free (hl : s.lock = none) (hp : s.phase i = .awaitingLock call) :
    ∃ s', step sa env cfg s (.acquire i) = some s' := by
  rw [step, if_neg (not_not.mpr hl), hp]
  dsimp only
  split
  next => exact ⟨_, rfl⟩
  next => split <;> exact ⟨_, rfl⟩

theorem Occupied.continues (hs : Occupied s) (hr : s.rank i ≠ 0) :
    ∃ action s', Draining (fun _ action => DatabaseAction.own action) s action ∧
      Provider.step sa env cfg s action = some s' := by
  have hanswer : ∀ {j call}, s.phase j = .lookingUp call →
      ∃ action s', Draining (fun _ action => DatabaseAction.own action) s action ∧
        Provider.step sa env cfg s action = some s' :=
    fun {j} _ hp => ⟨.vault j .timedOut, _, Option.some_ne_none j, step_answer hp⟩
  cases hp : s.phase i with
  | awaitingLock call =>
    cases hl : s.lock with
    | some j =>
      obtain ⟨call, hj⟩ := hs j hl
      exact hanswer hj
    | none =>
      obtain ⟨s', h⟩ := continues_of_free hl hp
      exact ⟨.acquire i, s', Option.some_ne_none i, h⟩
  | lookingUp call => exact hanswer hp
  | probing => exact ⟨.probe i .timedOut, _, Option.some_ne_none i, by rw [Provider.step, hp]⟩
  | disposing engine =>
    exact ⟨.disposed i none, _, Option.some_ne_none i, by rw [Provider.step, hp]⟩
  | idle | ended => exact absurd (by rw [rank, hp]; rfl) hr

theorem progress : Progress (step sa env cfg) (fun _ action => action.own) rank Occupied where
  keeps hs h := hs.step h
  turns _ h := by
    obtain ⟨i, p, ht⟩ := turns_of_step h
    refine ⟨i, ?_, fun j hj => le_of_eq ?_⟩
    · unfold rank
      rw [ht.phase, Function.update_self]
      exact ht.nears
    · rw [rank, ht.phase, Function.update_of_ne hj]
      rfl
  continues hs hr := hs.continues hr

/-- No call of the provider waits for ever: whatever the vault and the database answer, each ends
after at most three more steps of its own. -/
theorem calls_end {now : Seconds} (h : Reachable (step sa env cfg) (initial now) s) :
    Settles (step sa env cfg) (fun _ action => action.own) rank s ∧
      ∀ i, s.rank i ≤ 3 ∧ (s.rank i = 0 ↔ (s.phase i).Free) := by
  have h₀ : Occupied (initial now) := fun j hj => by cases hj
  exact ⟨progress.settles h₀ (fun _ => rfl) h,
    fun _ => ⟨DatabasePhase.rank_le _, DatabasePhase.rank_eq_zero_iff⟩⟩

end Ends

open Database (plainSqlAlchemy noUrl thirtySeconds)

/-- The first of three calls asks the vault, and a fourth is over. -/
theorem calls_end_coldStart :
    letI := asciiTables
    ∃ s, exec (guarded (step plainSqlAlchemy noUrl thirtySeconds) unrestricted) (initial 0)
        (coldStart ++ [.dispose 3]) = some s ∧
      (s.rank 0, s.rank 1, s.rank 2, s.rank 3) = (1, 2, 3, 0) ∧
      Settles (step plainSqlAlchemy noUrl thirtySeconds) (fun _ action => action.own) rank s := by
  let _ := asciiTables
  have h : (exec (guarded (step plainSqlAlchemy noUrl thirtySeconds) unrestricted) (initial 0)
      (coldStart ++ [.dispose 3])).map (fun s => (s.rank 0, s.rank 1, s.rank 2, s.rank 3)) =
        some (1, 2, 3, 0) := by
    decide +kernel
  obtain ⟨s, hr, hp⟩ := Option.map_eq_some_iff.mp h
  exact ⟨s, hr, hp, (calls_end (Reach.of_exec hr)).1⟩

end Provider

end KitchenSense
