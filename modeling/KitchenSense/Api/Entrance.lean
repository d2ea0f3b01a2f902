import KitchenSense.Api.Service

/-! # The way to a handler

Every router has a request authenticated first, then its session opened, then
its household looked up or created, then its body checked, and only then its
handler run. What holds of that way holds of every router, whatever its
handlers do.
-/

namespace KitchenSense

/-- What the dependencies of an endpoint read of a request, with what `verify` ends with for its
credentials. -/
structure Caller where
  credentials : Option String
  verified : Except AuthError Principal
  session : SessionOutcome

namespace Caller

variable (uuid5 : UUID → String → UUID)

def sight? (caller : Caller) : Option SightRequest :=
  match caller.verified with
  | .ok principal => (SightRequest.ofPrincipal uuid5 principal).toOption
  | .error _ => none

def sight (caller : Caller) : SightRequest := (caller.sight? uuid5).getD ⟨0, ""⟩

section Callers

variable [UnicodeTables] {settings : Settings} {caller : Caller}

/-- `get_principal` lets a request through. -/
def Authenticated (settings : Settings) (caller : Caller) : Prop :=
  ∃ principal, getPrincipal settings caller.credentials caller.verified = .principal principal

def Vouched (settings : Settings) (caller : Caller) : Prop :=
  ∀ principal, caller.verified = .ok principal →
    ∃ claims, toPrincipal settings claims = .ok principal

theorem verified_of_getPrincipal {principal : Principal}
    (h : getPrincipal settings caller.credentials caller.verified = .principal principal) :
    caller.verified = .ok principal := by
  unfold getPrincipal at h
  split at h
  next => cases h
  next =>
    split at h
    next => cases h
    next =>
      split at h
      next hv => cases h; exact hv
      next e _ => cases he : e.tokenError <;> rw [he] at h <;> cases h

theorem sight_of_authenticated {uuid5 : UUID → String → UUID} (caller : Caller)
    (hv : Vouched settings caller) (h : Authenticated settings caller) :
    (∃ request, caller.sight? uuid5 = some request) ∧
      (storableText (caller.sight uuid5).name →
        violated (caller.sight uuid5).row.rowChecks = none) := by
  obtain ⟨principal, hp⟩ := h
  have hok := verified_of_getPrincipal hp
  obtain ⟨claims, hc⟩ := hv principal hok
  obtain ⟨request, hr, hrow⟩ := ofPrincipal_of_toPrincipal uuid5 hc
  have hsight : caller.sight? uuid5 = some request := by
    rw [sight?, hok]
    simp only [hr]
    rfl
  refine ⟨⟨request, hsight⟩, ?_⟩
  rw [sight, hsight]
  exact hrow

def Owns (settings : Settings) (uuid5 : UUID → String → UUID) (caller : Caller)
    (householdId : UUID) : Prop :=
  ∃ principal, getPrincipal settings caller.credentials caller.verified = .principal principal ∧
    householdIdFor uuid5 principal.issuer principal.subject = .ok householdId

theorem owns_of_authenticated {uuid5 : UUID → String → UUID} (caller : Caller)
    (hv : Vouched settings caller) (h : Authenticated settings caller) :
    Owns settings uuid5 caller (caller.sight uuid5).householdId := by
  obtain ⟨request, hsight⟩ : ∃ request, caller.sight? uuid5 = some request :=
    (sight_of_authenticated caller hv h).1
  obtain ⟨principal, hp⟩ := h
  refine ⟨principal, hp, ?_⟩
  rw [sight, hsight, Option.getD_some]
  rw [sight?, verified_of_getPrincipal hp] at hsight
  simp only [SightRequest.ofPrincipal] at hsight
  cases hid : householdIdFor uuid5 principal.issuer principal.subject with
  | error e => rw [hid] at hsight; cases hsight
  | ok householdId => rw [hid] at hsight; cases hsight; rfl

end Callers

end Caller

inductive EntryPhase (ε : Type)
  | received
  | admitted
  /-- It has a session, and its household is looked up or created. -/
  | opened
  /-- Its handler has been called. -/
  | handling
  /-- 422: its body is not accepted. -/
  | invalid (errors : ε)
  | refused (exception : HTTPException)
  /-- 500. -/
  | failed
  /-- Its connection is lost before its handler is called. -/
  | disconnected (failure : ConnectionFailure)
  deriving DecidableEq

/-- The endpoints of a router: their handlers take actions on what they share, given the committed
households. -/
structure Router (σ β ε : Type) where
  /-- The caller whose handler takes an action. -/
  owner : β → ℕ
  /-- Whether the body of a caller is accepted. -/
  check : ℕ → Except ε Unit
  step : List UUID → σ → β → Option σ

/-- The households with their creation, what the handlers share, and the callers. -/
structure Entrance (σ ε : Type) where
  sight : FirstSight
  handlers : σ
  phase : ℕ → EntryPhase ε

inductive EntryAction (β : Type)
  | authenticate (i : ℕ)
  | openSession (i : ℕ)
  | readHousehold (i : ℕ)
  | insertHousehold (i : ℕ)
  | commitHousehold (i : ℕ)
  | handle (i : ℕ)
  | handler (action : β)
  | disconnect (i : ℕ) (failure : ConnectionFailure)

/-- The request that a statement of `ensure` belongs to. -/
def SightAction.index : SightAction → ℕ
  | .exists_ i | .insert i | .commit i | .rollback i => i

namespace FirstSight

variable {requests : ℕ → SightRequest} {s s' : FirstSight} {action : SightAction}
  {first : List HouseholdRow} {i : ℕ}

theorem phase_of_ne (h : step requests s action = some s') (hi : i ≠ action.index) :
    s'.phase i = s.phase i := by
  cases action with
  | exists_ j =>
    rw [step] at h
    split at h
    next => cases h; exact Function.update_of_ne hi ..
    next => cases h
  | insert j =>
    rw [step] at h
    split at h
    next =>
      unfold afterInsert at h
      split at h
      next => cases h; exact Function.update_of_ne hi ..
      next => cases h; exact Function.update_of_ne hi ..
      next =>
        rw [Option.ite_none_right_eq_some] at h
        obtain ⟨-, ⟨⟩⟩ := h
        exact Function.update_of_ne hi ..
    next => cases h
  | commit j =>
    rw [step] at h
    split at h
    next => cases h; exact Function.update_of_ne hi ..
    next => cases h
  | rollback j =>
    rw [step] at h
    split at h
    next => cases h; exact Function.update_of_ne hi ..
    next => cases h; exact Function.update_of_ne hi ..
    next => cases h; exact Function.update_of_ne hi ..
    next => cases h

theorem exists_of_nodup {rows : List HouseholdRow} (hn : (rows.map (·.id)).Nodup)
    (householdId : UUID) :
    ∃ found, HouseholdRepository.exists_ rows householdId = .ok found := by
  by_cases hr : ∃ r ∈ rows, r.id = householdId
  · obtain ⟨r, hr, rfl⟩ := hr
    refine ⟨true, ?_⟩
    rw [HouseholdRepository.exists_, HouseholdRepository.scopedTo, filter_eq_singleton hn hr]
    rfl
  · refine ⟨false, ?_⟩
    have hnil : HouseholdRepository.scopedTo rows householdId = [] := by
      simpa [HouseholdRepository.scopedTo, List.filter_eq_nil_iff] using hr
    rw [HouseholdRepository.exists_, hnil]
    rfl

theorem not_failed_of_step (hn : (s.households.map (·.id)).Nodup)
    (hrow : violated (requests action.index).row.rowChecks = none)
    (hr : ∀ i, action ≠ .rollback i) (h : step requests s action = some s') :
    s'.phase action.index ≠ .failed := by
  cases action with
  | exists_ i =>
    rw [step] at h
    split at h
    next =>
      cases h
      obtain ⟨found, hf⟩ := exists_of_nodup hn (requests i).householdId
      rw [hf]
      change Function.update s.phase i _ i ≠ _
      rw [Function.update_self]
      cases found <;> simp [afterExists]
    next => cases h
  | insert i =>
    have hinsert : HouseholdRepository.insertIfNew (requests i).row s.households =
        .ok (s.households.all fun r => r.id ≠ (requests i).row.id) := by
      rw [HouseholdRepository.insertIfNew,
        show violated (requests i).row.rowChecks = none from hrow]
    rw [step, hinsert] at h
    split at h
    next =>
      unfold afterInsert at h
      split at h
      next he => cases he
      next =>
        cases h
        change Function.update s.phase i _ i ≠ _
        rw [Function.update_self]
        simp
      next =>
        rw [Option.ite_none_right_eq_some] at h
        obtain ⟨-, ⟨⟩⟩ := h
        change Function.update s.phase i _ i ≠ _
        rw [Function.update_self]
        simp
    next => cases h
  | commit i =>
    rw [step] at h
    split at h
    next =>
      cases h
      change Function.update s.phase i _ i ≠ _
      rw [Function.update_self]
      simp
    next => cases h
  | rollback i => exact absurd rfl (hr i)

end FirstSight

namespace Entrance

variable {σ β ε : Type}

def initial (households : List HouseholdRow) (handlers : σ) : Entrance σ ε where
  sight := .initial households
  handlers
  phase _ := .received

def enter (s : Entrance σ ε) (i : ℕ) (phase : EntryPhase ε) : Entrance σ ε :=
  { s with phase := Function.update s.phase i phase }

def afterAuthentication : AuthReply → EntryPhase ε
  | .principal _ => .admitted
  | .refused exception => .refused exception
  | .failed => .failed

/-- What a statement of `ensure` leads to. -/
def afterSight : SightPhase → EntryPhase ε
  | .failed => .failed
  | _ => .opened

def afterCheck : Except ε Unit → EntryPhase ε
  | .error errors => .invalid errors
  | .ok () => .handling

variable [UnicodeTables] (settings : Settings) (uuid5 : UUID → String → UUID)
  (router : Router σ β ε) (callers : ℕ → Caller)

def sights (i : ℕ) : SightRequest := (callers i).sight uuid5

/-- A statement of `ensure`, for a caller whose session is open. -/
def runSight (s : Entrance σ ε) (action : SightAction) : Option (Entrance σ ε) :=
  match s.phase action.index with
  | .opened => (FirstSight.step (sights uuid5 callers) s.sight action).map fun sight =>
      { s with sight }.enter action.index (afterSight (sight.phase action.index))
  | _ => none

def step (s : Entrance σ ε) : EntryAction β → Option (Entrance σ ε)
  | .authenticate i =>
    match s.phase i with
    | .received => some (s.enter i (afterAuthentication
        (authReply settings (callers i).credentials (callers i).verified)))
    | _ => none
  | .openSession i =>
    match s.phase i, (callers i).session with
    | .admitted, .unavailable => some (s.enter i (.refused databaseUnconfigured))
    | .admitted, .raised => some (s.enter i .failed)
    | .admitted, .factory =>
      -- `principal.household_id` raises a `ValueError`
      if ((callers i).sight? uuid5).isNone then some (s.enter i .failed)
      else some (s.enter i .opened)
    | _, _ => none
  | .readHousehold i => s.runSight uuid5 callers (.exists_ i)
  | .insertHousehold i => s.runSight uuid5 callers (.insert i)
  | .commitHousehold i => s.runSight uuid5 callers (.commit i)
  | .handle i =>
    match s.phase i, s.sight.phase i with
    | .opened, .proceeded _ => some (s.enter i (afterCheck (router.check i)))
    | _, _ => none
  | .handler action =>
    match s.phase (router.owner action) with
    | .handling =>
      (router.step (s.sight.households.map (·.id)) s.handlers action).map fun handlers =>
        { s with handlers }
    | _ => none
  | .disconnect i failure =>
    match s.phase i with
    -- the transaction is rolled back unless it has been committed
    | .opened => some { s with
        sight := (FirstSight.step (sights uuid5 callers) s.sight (.rollback i)).getD s.sight
        phase := Function.update s.phase i (.disconnected failure) }
    | _ => none

section Invariant

variable {settings uuid5 router callers} {s s' : Entrance σ ε} {action : EntryAction β}
  {first : List HouseholdRow} {handlers : σ} {p : EntryPhase ε} {i : ℕ}

def Stage (settings : Settings) (uuid5 : UUID → String → UUID) (caller : Caller)
    (check : Except ε Unit) (sight : SightPhase) : EntryPhase ε → Prop
  | .received => sight = .started
  | .admitted => caller.Authenticated settings ∧ sight = .started
  | .opened | .disconnected _ => caller.Authenticated settings
  | .handling => caller.Authenticated settings ∧ (∃ created, sight = .proceeded created) ∧
      check = .ok ()
  | .invalid errors => caller.Authenticated settings ∧ (∃ created, sight = .proceeded created) ∧
      check = .error errors
  | .refused exception => sight = .started ∧
      (authReply settings caller.credentials caller.verified = .refused exception ∨
        caller.Authenticated settings ∧ exception = databaseUnconfigured)
  | .failed =>
      (sight = .started ∧ authReply settings caller.credentials caller.verified = .failed) ∨
      (caller.Authenticated settings ∧
        (caller.session = .raised ∨ storableText (caller.sight uuid5).name = false))

structure Sound (settings : Settings) (uuid5 : UUID → String → UUID) (router : Router σ β ε)
    (callers : ℕ → Caller) (first : List HouseholdRow) (s : Entrance σ ε) : Prop where
  sight : FirstSight.Sound (sights uuid5 callers) first s.sight
  stage : ∀ i, Stage settings uuid5 (callers i) (router.check i) (s.sight.phase i) (s.phase i)

theorem Sound.initial (hn : (first.map (·.id)).Nodup) :
    Sound settings uuid5 router callers first (initial first handlers) where
  sight := .initial hn
  stage _ := rfl

theorem Sound.stage_of_phase (hs : Sound settings uuid5 router callers first s)
    (hp : s.phase i = p) : Stage settings uuid5 (callers i) (router.check i) (s.sight.phase i) p :=
  hp ▸ hs.stage i

theorem Sound.move (hs : Sound settings uuid5 router callers first s)
    (hsight : FirstSight.Sound (sights uuid5 callers) first s'.sight)
    (hphase : s'.phase = Function.update s.phase i p)
    (hsights : ∀ j ≠ i, s'.sight.phase j = s.sight.phase j)
    (hi : Stage settings uuid5 (callers i) (router.check i) (s'.sight.phase i) p) :
    Sound settings uuid5 router callers first s' where
  sight := hsight
  stage := by
    intro j
    rw [hphase]
    by_cases hj : j = i
    · subst hj
      rw [Function.update_self]
      exact hi
    · rw [Function.update_of_ne hj, hsights j hj]
      exact hs.stage j

theorem Sound.enter (hs : Sound settings uuid5 router callers first s)
    (hi : Stage settings uuid5 (callers i) (router.check i) (s.sight.phase i) p) :
    Sound settings uuid5 router callers first (s.enter i p) :=
  hs.move hs.sight rfl (fun _ _ => rfl) hi

theorem Sound.ensure {action : SightAction} (hs : Sound settings uuid5 router callers first s)
    (hv : ∀ i, (callers i).Vouched settings) (ha : ∀ i, action ≠ .rollback i)
    (h : s.runSight uuid5 callers action = some s') :
    Sound settings uuid5 router callers first s' := by
  unfold runSight at h
  split at h
  next hp =>
    obtain ⟨sight, hstep, rfl⟩ := Option.map_eq_some_iff.mp h
    have hauth : (callers action.index).Authenticated settings := hs.stage_of_phase hp
    have hrow : storableText (sights uuid5 callers action.index).name →
        violated (sights uuid5 callers action.index).row.rowChecks = none :=
      (Caller.sight_of_authenticated (callers action.index) (hv _) hauth).2
    have hname (hf : sight.phase action.index = .failed) :
        storableText (sights uuid5 callers action.index).name = false := by
      rw [Bool.eq_false_iff]
      exact fun ht => FirstSight.not_failed_of_step hs.sight.ids (hrow ht) ha hstep hf
    refine hs.move (hs.sight.step hstep).1 rfl (fun j hj => FirstSight.phase_of_ne hstep hj) ?_
    unfold afterSight
    split
    next hf => exact .inr ⟨hauth, .inr (hname hf)⟩
    next => exact hauth
  next => cases h

theorem Sound.authenticate (hs : Sound settings uuid5 router callers first s)
    (hp : s.phase i = .received) : Sound settings uuid5 router callers first
      (s.enter i (afterAuthentication
        (authReply settings (callers i).credentials (callers i).verified))) := by
  have hstarted : s.sight.phase i = .started := hs.stage_of_phase hp
  apply hs.enter
  cases h : authReply settings (callers i).credentials (callers i).verified with
  | principal principal => exact ⟨⟨principal, principal_of_authReply h⟩, hstarted⟩
  | refused exception => exact ⟨hstarted, .inl h⟩
  | failed => exact .inl ⟨hstarted, h⟩

theorem Sound.openSession (hs : Sound settings uuid5 router callers first s)
    (hv : ∀ i, (callers i).Vouched settings)
    (h : step settings uuid5 router callers s (.openSession i) = some s') :
    Sound settings uuid5 router callers first s' := by
  have admitted (hp : s.phase i = .admitted) :
      (callers i).Authenticated settings ∧ s.sight.phase i = .started := hs.stage_of_phase hp
  rw [step] at h
  split at h
  next hp _ =>
    cases h
    exact hs.enter ⟨(admitted hp).2, .inr ⟨(admitted hp).1, rfl⟩⟩
  next hp hr =>
    cases h
    exact hs.enter (.inr ⟨(admitted hp).1, .inl hr⟩)
  next hp _ =>
    obtain ⟨request, hsight⟩ : ∃ request, (callers i).sight? uuid5 = some request :=
      (Caller.sight_of_authenticated (callers i) (hv i) (admitted hp).1).1
    rw [hsight, Option.isNone_some, if_neg Bool.false_ne_true] at h
    cases h
    exact hs.enter (admitted hp).1
  next => cases h

theorem Sound.disconnect {failure : ConnectionFailure}
    (hs : Sound settings uuid5 router callers first s)
    (h : step settings uuid5 router callers s (.disconnect i failure) = some s') :
    Sound settings uuid5 router callers first s' := by
  rw [step] at h
  split at h
  next hp =>
    cases h
    have hauth : (callers i).Authenticated settings := hs.stage_of_phase hp
    cases hr : FirstSight.step (sights uuid5 callers) s.sight (.rollback i) with
    | none => exact hs.enter hauth
    | some sight =>
      exact hs.move (hs.sight.step hr).1 rfl (fun j hj => FirstSight.phase_of_ne hr hj) hauth
  next => cases h

theorem Sound.step (hs : Sound settings uuid5 router callers first s)
    (hv : ∀ i, (callers i).Vouched settings)
    (h : Entrance.step settings uuid5 router callers s action = some s') :
    Sound settings uuid5 router callers first s' := by
  cases action with
  | authenticate i =>
    rw [Entrance.step] at h
    split at h
    next hp => cases h; exact hs.authenticate hp
    next => cases h
  | openSession i => exact hs.openSession hv h
  | readHousehold i => exact hs.ensure hv (by simp) h
  | insertHousehold i => exact hs.ensure hv (by simp) h
  | commitHousehold i => exact hs.ensure hv (by simp) h
  | handle i =>
    rw [Entrance.step] at h
    split at h
    next created hp hsight =>
      cases h
      have hauth : (callers i).Authenticated settings := hs.stage_of_phase hp
      apply hs.enter
      cases hc : router.check i with
      | error errors => exact ⟨hauth, ⟨created, hsight⟩, rfl⟩
      | ok accepted => exact ⟨hauth, ⟨created, hsight⟩, rfl⟩
    next => cases h
  | handler action =>
    rw [Entrance.step] at h
    split at h
    next =>
      obtain ⟨handlers, -, rfl⟩ := Option.map_eq_some_iff.mp h
      exact ⟨hs.sight, hs.stage⟩
    next => cases h
  | disconnect i failure => exact hs.disconnect h

theorem Sound.refused (hs : Sound settings uuid5 router callers first s)
    (hn : ¬ (callers i).Authenticated settings) : s.sight.phase i = .started ∧
      (s.phase i = .received ∨
      (∃ exception, s.phase i = .refused exception ∧
        authReply settings (callers i).credentials (callers i).verified = .refused exception) ∨
      s.phase i = .failed ∧
        authReply settings (callers i).credentials (callers i).verified = .failed) := by
  have h := hs.stage i
  cases hp : s.phase i with
  | received => rw [hp] at h; exact ⟨h, .inl rfl⟩
  | admitted | handling | invalid => rw [hp] at h; exact absurd h.1 hn
  | opened | disconnected => rw [hp] at h; exact absurd h hn
  | refused exception =>
    rw [hp] at h
    exact ⟨h.1, .inr (.inl ⟨exception, rfl, h.2.resolve_right fun h => hn h.1⟩)⟩
  | failed =>
    rw [hp] at h
    obtain ⟨hstarted, hf⟩ := h.resolve_right fun h => hn h.1
    exact ⟨hstarted, .inr (.inr ⟨rfl, hf⟩)⟩

theorem Sound.reach (hn : (first.map (·.id)).Nodup) (hv : ∀ i, (callers i).Vouched settings)
    (h : Reachable (Entrance.step settings uuid5 router callers)
      (Entrance.initial first handlers) s) : Sound settings uuid5 router callers first s :=
  h.invariant (I := Sound settings uuid5 router callers first) (.initial hn)
    fun _ _ _ hs _ hstep => hs.step hv hstep

end Invariant

section Handlers

variable {settings uuid5 router callers} {s s' : Entrance σ ε} {action : EntryAction β}
  {first : List HouseholdRow} {handlers : σ} {i : ℕ}

/-- A step is one of a handler whose caller has been let through, or moves a caller on that has not
come to its handler. -/
theorem turns_of_step (h : step settings uuid5 router callers s action = some s') :
    (s'.handlers = s.handlers ∧ ∃ j p, s'.phase = Function.update s.phase j p ∧
      (action = .authenticate j ∧ s.phase j = .received ∨ s.phase j = .admitted ∨
        s.phase j = .opened)) ∨
    ∃ a, action = .handler a ∧ s.phase (router.owner a) = .handling ∧
      router.step (s.sight.households.map (·.id)) s.handlers a = some s'.handlers ∧
      s'.phase = s.phase := by
  have looked : ∀ {a : SightAction}, s.runSight uuid5 callers a = some s' →
      s'.handlers = s.handlers ∧ ∃ j p, s'.phase = Function.update s.phase j p ∧
        (action = .authenticate j ∧ s.phase j = .received ∨ s.phase j = .admitted ∨
          s.phase j = .opened) := by
    intro a h
    unfold runSight at h
    split at h
    next hp =>
      obtain ⟨sight, -, rfl⟩ := Option.map_eq_some_iff.mp h
      exact ⟨rfl, _, _, rfl, .inr (.inr hp)⟩
    next => cases h
  cases action with
  | authenticate i =>
    rw [step] at h
    split at h
    next hp => cases h; exact .inl ⟨rfl, _, _, rfl, .inl ⟨rfl, hp⟩⟩
    next => cases h
  | openSession i =>
    rw [step] at h
    split at h
    next hp _ => cases h; exact .inl ⟨rfl, _, _, rfl, .inr (.inl hp)⟩
    next hp _ => cases h; exact .inl ⟨rfl, _, _, rfl, .inr (.inl hp)⟩
    next hp _ => split at h <;> cases h <;> exact .inl ⟨rfl, _, _, rfl, .inr (.inl hp)⟩
    next => cases h
  | readHousehold i => exact .inl (looked h)
  | insertHousehold i => exact .inl (looked h)
  | commitHousehold i => exact .inl (looked h)
  | handle i =>
    rw [step] at h
    split at h
    next hp _ => cases h; exact .inl ⟨rfl, _, _, rfl, .inr (.inr hp)⟩
    next => cases h
  | handler a =>
    rw [step] at h
    split at h
    next hp =>
      obtain ⟨handlers, hstep, rfl⟩ := Option.map_eq_some_iff.mp h
      exact .inr ⟨a, rfl, hp, hstep, rfl⟩
    next => cases h
  | disconnect i failure =>
    rw [step] at h
    split at h
    next hp => cases h; exact .inl ⟨rfl, _, _, rfl, .inr (.inr hp)⟩
    next => cases h

theorem handling_of_step (h : step settings uuid5 router callers s action = some s')
    (hi : s.phase i = .handling) : s'.phase i = .handling := by
  rcases turns_of_step h with ⟨-, j, p, hphase, hj⟩ | ⟨-, -, -, -, hphase⟩
  · have hne : i ≠ j := by
      rintro rfl
      rw [hi] at hj
      simp at hj
    rw [hphase, Function.update_of_ne hne]
    exact hi
  · rw [hphase]
    exact hi

def authenticates : EntryAction β → Option ℕ
  | .authenticate i => some i
  | _ => none

theorem passed_of_step (h : step settings uuid5 router callers s action = some s')
    (hi : s'.phase i ≠ .received) : s.phase i ≠ .received ∨ authenticates action = some i := by
  rcases turns_of_step h with ⟨-, j, p, hphase, hj⟩ | ⟨-, -, -, -, hphase⟩
  · rw [hphase] at hi
    by_cases hij : i = j
    · subst hij
      rcases hj with ⟨rfl, -⟩ | hj | hj
      · exact .inr rfl
      · exact .inl (by simp [hj])
      · exact .inl (by simp [hj])
    · rw [Function.update_of_ne hij] at hi
      exact .inl hi
  · rw [hphase] at hi
    exact .inl hi

/-- What every handler keeps, for whatever households, holds in every state of a run. -/
theorem handlers_invariant {I : σ → Prop} (h₀ : I handlers)
    (hI : ∀ households x a x', I x → router.step households x a = some x' → I x')
    (h : Reachable (step settings uuid5 router callers) (initial first handlers) s) :
    I s.handlers := by
  refine h.invariant (I := fun s => I s.handlers) h₀ ?_
  rintro s₁ action s₂ hs - hstep
  rcases turns_of_step hstep with ⟨he, -⟩ | ⟨a, -, -, ha, -⟩
  · rw [he]
    exact hs
  · exact hI _ _ _ _ hs ha

/-- Whoever has left a mark on the handlers has been let through, if only its own actions do. -/
theorem handling_of_mark {mark : σ → ℕ → Prop} (h₀ : ∀ i, ¬ mark handlers i)
    (hmark : ∀ households x a x' i, router.step households x a = some x' → i ≠ router.owner a →
      mark x' i → mark x i)
    (h : Reachable (step settings uuid5 router callers) (initial first handlers) s) :
    ∀ i, mark s.handlers i → s.phase i = .handling := by
  refine h.invariant (I := fun s => ∀ i, mark s.handlers i → s.phase i = .handling)
    (fun i hi => absurd hi (h₀ i)) ?_
  rintro s₁ action s₂ hs - hstep i hi
  rcases turns_of_step hstep with ⟨he, -⟩ | ⟨a, -, hp, ha, -⟩
  · rw [he] at hi
    exact handling_of_step hstep (hs i hi)
  · by_cases hown : i = router.owner a
    · rw [hown]
      exact handling_of_step hstep hp
    · exact handling_of_step hstep (hs i (hmark _ _ _ _ i ha hown hi))

end Handlers

end Entrance

end KitchenSense
