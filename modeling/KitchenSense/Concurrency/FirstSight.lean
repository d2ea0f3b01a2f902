import Mathlib.Logic.Function.Basic
import KitchenSense.Auth.Principal
import KitchenSense.Database.Statements
import KitchenSense.Domain.Household
import KitchenSense.Foundations.Runs
import KitchenSense.Repositories.Households

/-! # First sight of a household

A request reads whether its household exists, inserts it where it does not, and
commits at once where it inserted. The statements of several requests
interleave: a read sees what is committed, and an insertion waits for the
transaction that has inserted the same id and not committed.
-/

namespace KitchenSense

/-- The household a request is for, and the name that its row would get. -/
structure SightRequest where
  householdId : UUID
  name : String

/-- `household_name`: a label for the row, no wider than its column. -/
def Principal.householdName (principal : Principal) : String :=
  let label := ((principal.name.filter (· ≠ "")).or (principal.email.filter (· ≠ ""))).getD
    ("Household " ++ principal.subject)
  String.ofList (label.toList.take 200)

def SightRequest.ofPrincipal (uuid5 : UUID → String → UUID) (principal : Principal) :
    Except HouseholdError SightRequest :=
  (householdIdFor uuid5 principal.issuer principal.subject).map fun householdId =>
    ⟨householdId, principal.householdName⟩

def SightRequest.row (request : SightRequest) : HouseholdRow :=
  ⟨request.householdId, request.name, "Europe/London"⟩

inductive SightPhase
  | started
  /-- It found no row. -/
  | unseen
  /-- It has inserted its row and not committed. -/
  | inserted
  /-- It goes on to its handler; whether it created the household. -/
  | proceeded (created : Bool)
  | failed
  deriving DecidableEq

/-- The committed households, the transaction that has inserted each id, and the requests. -/
structure FirstSight where
  households : List HouseholdRow
  writer : UUID → Option ℕ
  phase : ℕ → SightPhase

inductive SightAction
  | exists_ (i : ℕ)
  | insert (i : ℕ)
  | commit (i : ℕ)
  | rollback (i : ℕ)

section Principals

theorem notBlank_take {s : String} {n : ℕ} (hs : s ≠ "")
    (hc : ∀ c ∈ s.toList.head?, isSpace c = false) :
    notBlank (String.ofList (s.toList.take (n + 1))) = true := by
  cases hl : s.toList with
  | nil => exact absurd (String.toList_eq_nil_iff.mp hl) hs
  | cons c l =>
    rw [hl] at hc
    have hblank : (c == ' ') = false := by
      rw [beq_eq_false_iff_ne]
      rintro rfl
      exact absurd (hc ' ' rfl) (by decide)
    have hm : c ∈ stripBy (· == ' ') (c :: l.take n) := mem_stripBy List.mem_cons_self hblank
    rw [List.take_succ_cons, notBlank, String.toList_ofList, decide_eq_true_eq]
    exact List.ne_nil_of_mem hm

theorem begins_of_optionalText {v : Option Json} {s : String} (h : optionalText v = some s) :
    s ≠ "" ∧ ∀ c ∈ s.toList.head?, isSpace c = false := by
  unfold optionalText at h
  split at h
  next t =>
    split at h
    next => cases h
    next hne =>
      cases h
      exact ⟨hne, (trimmed_of_strip (strip_strip t)).1⟩
  next => cases h

variable [UnicodeTables] {settings : Settings} {claims : Claims} {principal : Principal}

theorem notBlank_householdName (h : toPrincipal settings claims = .ok principal) :
    notBlank principal.householdName = true := by
  have hname : ∀ s, principal.name = some s ∨ principal.email = some s →
      s ≠ "" ∧ ∀ c ∈ s.toList.head?, isSpace c = false := by
    rw [toPrincipal] at h
    split at h
    next => cases h
    next =>
      split at h
      next => cases h
      next =>
        cases h
        rintro s (hs | hs)
        · exact begins_of_optionalText hs
        · exact begins_of_optionalText hs
  unfold Principal.householdName
  cases hn : principal.name.filter (· ≠ "") with
  | some s =>
    have hb := hname s (.inl (Option.filter_eq_some_iff.mp hn).1)
    exact notBlank_take hb.1 hb.2
  | none =>
    cases he : principal.email.filter (· ≠ "") with
    | some s =>
      have hb := hname s (.inr (Option.filter_eq_some_iff.mp he).1)
      exact notBlank_take hb.1 hb.2
    | none =>
      have hb : ("Household " ++ principal.subject).toList.head? = some 'H' := by
        simp [String.toList_append]
      have hne : "Household " ++ principal.subject ≠ "" := by
        intro hs
        rw [hs] at hb
        cases hb
      refine notBlank_take hne fun c hc => ?_
      rw [Option.none_or, Option.getD_none, hb] at hc
      cases hc
      decide

/-- A verified principal has a household, and its row can be inserted unless its name holds
U+0000. -/
theorem ofPrincipal_of_toPrincipal (uuid5 : UUID → String → UUID)
    (h : toPrincipal settings claims = .ok principal) :
    ∃ request, SightRequest.ofPrincipal uuid5 principal = .ok request ∧
      (storableText request.name → violated request.row.rowChecks = none) := by
  have hstrip : strip principal.subject = principal.subject ∧ principal.subject ≠ "" ∧
      strip principal.issuer = principal.issuer ∧ principal.issuer ≠ "" := by
    have h' := h
    rw [toPrincipal] at h'
    split at h'
    next => cases h'
    next hne =>
      split at h'
      next => cases h'
      next =>
        cases h'
        rw [not_or] at hne
        exact ⟨strip_strip _, hne.1, strip_strip _, hne.2⟩
  obtain ⟨hs, hsne, hi, hine⟩ := hstrip
  have hid : householdIdFor uuid5 principal.issuer principal.subject =
      .ok (uuid5 householdNamespace (principal.issuer ++ "\n" ++ principal.subject)) := by
    rw [householdIdFor, hashedName]
    rw [hi, hs, if_neg hine, if_neg hsne, Except.map]
  refine ⟨_, by rw [SightRequest.ofPrincipal, hid]; rfl, ?_⟩
  have hwidth : principal.householdName.length ≤ 200 := by
    rw [← String.length_toList, Principal.householdName, String.toList_ofList]
    exact List.length_take_le _ _
  intro ht
  rw [violated_eq_none_iff]
  have hzone : decide ("Europe/London".length ≤ 64) = true ∧ notBlank "Europe/London" = true := by
    decide +kernel
  simp only [SightRequest.row, HouseholdRow.rowChecks, List.forall_mem_cons]
  exact ⟨ht, decide_eq_true hwidth, hzone.1, notBlank_householdName h, hzone.2,
    List.forall_mem_nil _⟩

end Principals

namespace FirstSight

def initial (households : List HouseholdRow) : FirstSight where
  households := households
  writer _ := none
  phase _ := .started

def enter (s : FirstSight) (i : ℕ) (phase : SightPhase) : FirstSight :=
  { s with phase := Function.update s.phase i phase }

@[simp] theorem enter_phase (s : FirstSight) (i : ℕ) (p : SightPhase) :
    (s.enter i p).phase = Function.update s.phase i p := rfl

def afterExists : Except Failure Bool → SightPhase
  | .error _ => .failed
  | .ok true => .proceeded false
  | .ok false => .unseen

variable (requests : ℕ → SightRequest)

def afterInsert (s : FirstSight) (i : ℕ) : Except HouseholdConstraint Bool → Option FirstSight
  | .error _ => some (s.enter i .failed)
  | .ok false => some (s.enter i (.proceeded false))
  | .ok true =>
    if s.writer (requests i).householdId = none then
      some { s.enter i .inserted with
        writer := Function.update s.writer (requests i).householdId (some i) }
    else none

def release (s : FirstSight) (i : ℕ) (phase : SightPhase) : FirstSight :=
  { s.enter i phase with
    writer := Function.update s.writer (requests i).householdId none }

def step (s : FirstSight) : SightAction → Option FirstSight
  | .exists_ i =>
    match s.phase i with
    | .started => some (s.enter i
        (afterExists (HouseholdRepository.exists_ s.households (requests i).householdId)))
    | _ => none
  | .insert i =>
    match s.phase i with
    | .unseen => s.afterInsert requests i
        (HouseholdRepository.insertIfNew (requests i).row s.households)
    | _ => none
  | .commit i =>
    match s.phase i with
    | .inserted => some { s.release requests i (.proceeded true) with
        households := s.households ++ [(requests i).row] }
    | _ => none
  | .rollback i =>
    match s.phase i with
    | .started | .unseen => some (s.enter i .failed)
    | .inserted => some (s.release requests i .failed)
    | _ => none

variable {requests} {s s' s₀ : FirstSight} {action : SightAction} {i j : ℕ}

inductive Moves (requests : ℕ → SightRequest) (s : FirstSight) : FirstSight → Prop
  | fail {i : ℕ} (hp : s.phase i = .started ∨ s.phase i = .unseen) :
      Moves requests s (s.enter i .failed)
  | miss {i : ℕ} (hp : s.phase i = .started) : Moves requests s (s.enter i .unseen)
  | find {i : ℕ} (hp : s.phase i = .started ∨ s.phase i = .unseen)
      (hr : ∃ r ∈ s.households, r.id = (requests i).householdId) :
      Moves requests s (s.enter i (.proceeded false))
  | insert {i : ℕ} (hp : s.phase i = .unseen)
      (hr : ∀ r ∈ s.households, r.id ≠ (requests i).householdId)
      (hw : s.writer (requests i).householdId = none) :
      Moves requests s { s.enter i .inserted with
        writer := Function.update s.writer (requests i).householdId (some i) }
  | commit {i : ℕ} (hp : s.phase i = .inserted) :
      Moves requests s { s.release requests i (.proceeded true) with
        households := s.households ++ [(requests i).row] }
  | rollback {i : ℕ} (hp : s.phase i = .inserted) :
      Moves requests s (s.release requests i .failed)

theorem moves_of_step (h : step requests s action = some s') : Moves requests s s' := by
  cases action with
  | exists_ i =>
    rw [step] at h
    cases hp : s.phase i with
    | started =>
      rw [hp] at h
      cases h
      cases he : HouseholdRepository.exists_ s.households (requests i).householdId with
      | error e => exact .fail (.inl hp)
      | ok found =>
        cases found with
        | true => exact .find (.inl hp) (HouseholdRepository.mem_of_exists he)
        | false => exact .miss hp
    | _ => rw [hp] at h; cases h
  | insert i =>
    rw [step] at h
    cases hp : s.phase i with
    | unseen =>
      rw [hp] at h
      dsimp only at h
      cases hi : HouseholdRepository.insertIfNew (requests i).row s.households with
      | error c => rw [hi] at h; cases h; exact .fail (.inr hp)
      | ok created =>
        rw [hi] at h
        cases created with
        | false => cases h; exact .find (.inr hp) (HouseholdRepository.insertIfNew_eq_false hi)
        | true =>
          rw [afterInsert, Option.ite_none_right_eq_some] at h
          obtain ⟨hw, ⟨⟩⟩ := h
          exact .insert hp (HouseholdRepository.insertIfNew_eq_true hi) hw
    | _ => rw [hp] at h; cases h
  | commit i =>
    rw [step] at h
    cases hp : s.phase i with
    | inserted => rw [hp] at h; cases h; exact .commit hp
    | _ => rw [hp] at h; cases h
  | rollback i =>
    rw [step] at h
    cases hp : s.phase i with
    | started => rw [hp] at h; cases h; exact .fail (.inl hp)
    | unseen => rw [hp] at h; cases h; exact .fail (.inr hp)
    | inserted => rw [hp] at h; cases h; exact .rollback hp
    | _ => rw [hp] at h; cases h

section Alone

/-- How a request ends that runs `ensure` alone, and the rows it leaves. -/
def response (rows : List HouseholdRow) :
    Except EnsureFailure (Bool × List HouseholdRow) → SightPhase × List HouseholdRow
  | .error _ => (.failed, rows)
  | .ok (created, rows) => (.proceeded created, rows)

/-- A request whose statements are not interleaved runs the repository's `ensure`. -/
theorem exec_alone (hp : s.phase i = .started) (hw : ∀ id, s.writer id = none) :
    ∃ actions s', exec (step requests) s actions = some s' ∧ (s'.phase i, s'.households) =
      response s.households (HouseholdRepository.ensure s.households (requests i).row) := by
  have hexists : step requests s (.exists_ i) = some (s.enter i (afterExists
      (HouseholdRepository.exists_ s.households (requests i).householdId))) := by
    rw [step, hp]
  have hid : (requests i).row.id = (requests i).householdId := rfl
  rw [HouseholdRepository.ensure, hid]
  cases he : HouseholdRepository.exists_ s.households (requests i).householdId with
  | error e =>
    rw [he] at hexists
    exact ⟨_, _, exec_cons hexists (exec_nil _), by rw [enter_phase, Function.update_self]; rfl⟩
  | ok found =>
    rw [he] at hexists
    cases found with
    | true =>
      exact ⟨_, _, exec_cons hexists (exec_nil _), by rw [enter_phase, Function.update_self]; rfl⟩
    | false =>
      have hinsert : step requests (s.enter i .unseen) (.insert i) =
          (s.enter i .unseen).afterInsert requests i
            (HouseholdRepository.insertIfNew (requests i).row s.households) := by
        rw [step, enter_phase, Function.update_self]
        rfl
      cases hi : HouseholdRepository.insertIfNew (requests i).row s.households with
      | error c =>
        rw [hi] at hinsert
        exact ⟨_, _, exec_cons hexists (exec_cons hinsert (exec_nil _)),
          by rw [enter_phase, Function.update_self]; rfl⟩
      | ok created =>
        rw [hi] at hinsert
        cases created with
        | false =>
          exact ⟨_, _, exec_cons hexists (exec_cons hinsert (exec_nil _)),
            by rw [enter_phase, Function.update_self]; rfl⟩
        | true =>
          have hfree : (s.enter i .unseen).writer (requests i).householdId = none := hw _
          rw [afterInsert, if_pos hfree] at hinsert
          have hcommit {t : FirstSight} (ht : t.phase i = .inserted) :
              step requests t (.commit i) = some { t.release requests i (.proceeded true) with
                households := t.households ++ [(requests i).row] } := by
            rw [step, ht]
          refine ⟨_, _, exec_cons hexists (exec_cons hinsert
            (exec_cons (hcommit (Function.update_self ..)) (exec_nil _))), ?_⟩
          exact Prod.ext (Function.update_self ..) rfl

end Alone

section Invariant

/-- What a phase stands for: an inserted row is nobody else's and new, a request proceeds where its
household is committed, and one that created it did so with its own row. -/
def Supported (requests : ℕ → SightRequest) (first : List HouseholdRow) (s : FirstSight) (i : ℕ) :
    SightPhase → Prop
  | .inserted => s.writer (requests i).householdId = some i ∧
      ∀ r ∈ s.households, r.id ≠ (requests i).householdId
  | .proceeded created => (∃ r ∈ s.households, r.id = (requests i).householdId) ∧
      (created = true → (requests i).row ∈ s.households ∧
        ∀ r ∈ first, r.id ≠ (requests i).householdId)
  | _ => True

/-- The households committed since the first state, and who created them. -/
structure Sound (requests : ℕ → SightRequest) (first : List HouseholdRow) (s : FirstSight) :
    Prop where
  ids : (s.households.map (·.id)).Nodup
  kept : ∀ r ∈ first, r ∈ s.households
  supported : ∀ i, Supported requests first s i (s.phase i)
  creator : ∀ r ∈ s.households, r ∈ first ∨
    ∃ i, s.phase i = .proceeded true ∧ r = (requests i).row
  once : ∀ i j, s.phase i = .proceeded true → s.phase j = .proceeded true →
    (requests i).householdId = (requests j).householdId → i = j

variable {first : List HouseholdRow} {p : SightPhase}

theorem Sound.initial (hn : (first.map (·.id)).Nodup) : Sound requests first (initial first) :=
  ⟨hn, fun _ h => h, fun _ => trivial, fun _ h => .inl h, by rintro _ _ ⟨⟩⟩

theorem Sound.supported_of_phase (hs : Sound requests first s) (hp : s.phase i = p) :
    Supported requests first s i p :=
  hp ▸ hs.supported i

theorem Sound.inserted (hs : Sound requests first s) (hp : s.phase i = .inserted) :
    s.writer (requests i).householdId = some i ∧
      ∀ r ∈ s.households, r.id ≠ (requests i).householdId :=
  hs.supported_of_phase hp

theorem Sound.householdId_ne (hs : Sound requests first s) (hi : s.phase i = .inserted)
    (hj : s.phase j = .inserted) (h : j ≠ i) :
    (requests j).householdId ≠ (requests i).householdId := by
  intro he
  have hw := (hs.inserted hj).1
  rw [he, (hs.inserted hi).1] at hw
  exact h (Option.some.inj hw).symm

theorem phase_of_enter (hp : p ≠ .proceeded true)
    (h : (s.enter i p).phase j = .proceeded true) : s.phase j = .proceeded true := by
  by_cases hj : j = i
  · rw [hj] at h
    exact absurd ((Function.update_self ..).symm.trans h) hp
  · exact (Function.update_of_ne hj ..).symm.trans h

theorem enter_phase_of_proceeded (hi : s.phase i ≠ .proceeded true)
    (hj : s.phase j = .proceeded true) : (s.enter i p).phase j = .proceeded true := by
  have hne : j ≠ i := by
    rintro rfl
    exact hi hj
  exact (Function.update_of_ne hne ..).trans hj

theorem Sound.of_enter (hs : Sound requests first s) (hi : s.phase i ≠ .proceeded true)
    (hp : p ≠ .proceeded true) (hh : s'.households = s.households)
    (hphase : s'.phase = (s.enter i p).phase)
    (hsup : ∀ j, Supported requests first s' j (s'.phase j)) : Sound requests first s' where
  ids := by rw [hh]; exact hs.ids
  kept := by rw [hh]; exact hs.kept
  supported := hsup
  creator := by
    rw [hh, hphase]
    intro r hr
    rcases hs.creator r hr with h | ⟨k, hk, rfl⟩
    · exact .inl h
    · exact .inr ⟨k, enter_phase_of_proceeded hi hk, rfl⟩
  once := by
    rw [hphase]
    intro j k hj hk
    exact hs.once j k (phase_of_enter hp hj) (phase_of_enter hp hk)

theorem Sound.supported_update (hs : Sound requests first s)
    (hphase : s'.phase = Function.update s.phase i p)
    (hp : Supported requests first s' i p)
    (ho : ∀ j ≠ i, Supported requests first s j (s.phase j) →
      Supported requests first s' j (s.phase j)) :
    ∀ j, Supported requests first s' j (s'.phase j) := by
  rw [hphase]
  apply (Function.forall_update_iff s.phase (Supported requests first s')).mpr
  exact ⟨hp, fun j hj => ho j hj (hs.supported j)⟩

theorem Sound.enter (hs : Sound requests first s) (hi : s.phase i ≠ .proceeded true)
    (hp : p ≠ .proceeded true) (hsup : Supported requests first s i p) :
    Sound requests first (s.enter i p) :=
  hs.of_enter hi hp rfl rfl (hs.supported_update rfl hsup fun _ _ h => h)

theorem not_created_of_begun (hp : s.phase i = .started ∨ s.phase i = .unseen) :
    s.phase i ≠ .proceeded true := by
  rcases hp with hp | hp <;> simp [hp]

theorem Sound.insert (hs : Sound requests first s) (hp : s.phase i = .unseen)
    (hr : ∀ r ∈ s.households, r.id ≠ (requests i).householdId)
    (hw : s.writer (requests i).householdId = none) :
    Sound requests first { s.enter i .inserted with
      writer := Function.update s.writer (requests i).householdId (some i) } := by
  refine hs.of_enter (i := i) (p := .inserted) (by simp [hp]) (by simp) rfl rfl ?_
  refine hs.supported_update rfl ⟨Function.update_self .., hr⟩ fun j hj hsup => ?_
  cases hpj : s.phase j with
  | inserted =>
    rw [hpj] at hsup
    refine ⟨?_, hsup.2⟩
    have hne : (requests j).householdId ≠ (requests i).householdId := by
      intro he
      rw [← he, hsup.1] at hw
      cases hw
    exact (Function.update_of_ne hne ..).trans hsup.1
  | proceeded created => rw [hpj] at hsup; exact hsup
  | _ => trivial

theorem Sound.released (hs : Sound requests first s) (hp : s.phase i = .inserted) (hj : j ≠ i)
    (hpj : s.phase j = .inserted) :
    Function.update s.writer (requests i).householdId none (requests j).householdId = some j :=
  (Function.update_of_ne (hs.householdId_ne hp hpj hj) ..).trans (hs.inserted hpj).1

theorem Sound.rollback (hs : Sound requests first s) (hp : s.phase i = .inserted) :
    Sound requests first (s.release requests i .failed) := by
  refine hs.of_enter (i := i) (p := .failed) (by simp [hp]) (by simp) rfl rfl ?_
  refine hs.supported_update rfl trivial fun j hj hsup => ?_
  cases hpj : s.phase j with
  | inserted =>
    rw [hpj] at hsup
    exact ⟨hs.released hp hj hpj, hsup.2⟩
  | proceeded created => rw [hpj] at hsup; exact hsup
  | _ => trivial

theorem Sound.commit (hs : Sound requests first s) (hp : s.phase i = .inserted) :
    Sound requests first { s.release requests i (.proceeded true) with
      households := s.households ++ [(requests i).row] } := by
  obtain ⟨hw, hnew⟩ := hs.inserted hp
  have hrow : (requests i).row ∈ s.households ++ [(requests i).row] :=
    List.mem_append_right _ (List.mem_singleton_self _)
  refine ⟨?_, fun r hr => List.mem_append_left _ (hs.kept r hr), ?_, ?_, ?_⟩
  · rw [List.map_append, List.nodup_append]
    refine ⟨hs.ids, List.nodup_singleton _, ?_⟩
    rintro id hid id' hid' rfl
    obtain ⟨r, hr, rfl⟩ := List.mem_map.mp hid
    exact hnew r hr (List.mem_singleton.mp hid')
  · refine hs.supported_update (p := .proceeded true) rfl ?_ fun j hj hsup => ?_
    · exact ⟨⟨_, hrow, rfl⟩, fun _ => ⟨hrow, fun r hr => hnew r (hs.kept r hr)⟩⟩
    · cases hpj : s.phase j with
      | inserted =>
        rw [hpj] at hsup
        refine ⟨hs.released hp hj hpj, fun r hr => ?_⟩
        rcases List.mem_append.mp hr with hr | hr
        · exact hsup.2 r hr
        · rw [List.mem_singleton.mp hr]
          exact (hs.householdId_ne hp hpj hj).symm
      | proceeded created =>
        rw [hpj] at hsup
        obtain ⟨⟨r, hr, hid⟩, hc⟩ := hsup
        exact ⟨⟨r, List.mem_append_left _ hr, hid⟩, fun h =>
          ⟨List.mem_append_left _ (hc h).1, (hc h).2⟩⟩
      | _ => trivial
  · intro r hr
    rcases List.mem_append.mp hr with hr | hr
    · rcases hs.creator r hr with h | ⟨k, hk, rfl⟩
      · exact .inl h
      · exact .inr ⟨k, enter_phase_of_proceeded (by simp [hp]) hk, rfl⟩
    · exact .inr ⟨i, Function.update_self .., List.mem_singleton.mp hr⟩
  · have created {j : ℕ} (h : (s.enter i (.proceeded true)).phase j = .proceeded true) :
        j = i ∨ s.phase j = .proceeded true := by
      by_cases hj : j = i
      · exact .inl hj
      · exact .inr ((Function.update_of_ne hj ..).symm.trans h)
    -- whoever created the household before has a row that the inserted one would repeat
    have fresh {j : ℕ} (h : s.phase j = .proceeded true) :
        (requests j).householdId ≠ (requests i).householdId := by
      have hj := hs.supported_of_phase h
      exact hnew _ (hj.2 rfl).1
    intro j k hj hk hid
    rcases created hj with rfl | hj' <;> rcases created hk with rfl | hk'
    · rfl
    · exact absurd hid.symm (fresh hk')
    · exact absurd hid (fresh hj')
    · exact hs.once j k hj' hk' hid

theorem Sound.step (hs : Sound requests first s)
    (h : FirstSight.step requests s action = some s') :
    Sound requests first s' ∧ ∀ r ∈ s.households, r ∈ s'.households := by
  cases moves_of_step h with
  | fail hp =>
    exact ⟨hs.enter (not_created_of_begun hp) (by simp) trivial, fun _ h => h⟩
  | miss hp =>
    exact ⟨hs.enter (not_created_of_begun (.inl hp)) (by simp) trivial, fun _ h => h⟩
  | find hp hr =>
    exact ⟨hs.enter (not_created_of_begun hp) (by simp) ⟨hr, by simp⟩, fun _ h => h⟩
  | insert hp hr hw => exact ⟨hs.insert hp hr hw, fun _ h => h⟩
  | commit hp => exact ⟨hs.commit hp, fun _ h => List.mem_append_left _ h⟩
  | rollback hp => exact ⟨hs.rollback hp, fun _ h => h⟩

theorem Sound.reach (hs : Sound requests first s) (h : Reachable (FirstSight.step requests) s s') :
    Sound requests first s' ∧ ∀ r ∈ s.households, r ∈ s'.households := by
  refine h.invariant (I := fun s' => Sound requests first s' ∧
    ∀ r ∈ s.households, r ∈ s'.households) ⟨hs, fun _ h => h⟩ ?_
  intro t _ t' ht _ hstep
  obtain ⟨hnext, hkept⟩ := ht.1.step hstep
  exact ⟨hnext, fun r hr => hkept r (ht.2 r hr)⟩

end Invariant

section Results

variable {first : List HouseholdRow}

/-- The households, the requests that proceeded, and those that created. -/
structure RaceFree (requests : ℕ → SightRequest) (first : List HouseholdRow) (s : FirstSight) :
    Prop where
  ids : (s.households.map (·.id)).Nodup
  /-- A request proceeds with a committed row, on which an event of the household can rely from
  then on. -/
  proceeds : ∀ i created, s.phase i = .proceeded created →
    ∀ s', Reachable (step requests) s s' →
      (∃ r ∈ s'.households, r.id = (requests i).householdId) ∧
      ∀ (db : Db) (event : InventoryEventRow), db.households = s'.households.map (·.id) →
        event.householdId = (requests i).householdId →
        (.householdExists, true) ∈ event.referenceChecks db
  /-- Of the requests for a household that was not there, one reports that it created it. -/
  creator : ∀ r ∈ s.households, r.id ∉ first.map (·.id) →
    ∃! i, (requests i).householdId = r.id ∧ s.phase i = .proceeded true
  /-- The row of the request that created a household stays, as its only row. -/
  created : ∀ i, s.phase i = .proceeded true → (requests i).householdId ∉ first.map (·.id) ∧
    ∀ s', Reachable (step requests) s s' → ∀ r ∈ s'.households,
      r.id = (requests i).householdId ↔ r = (requests i).row

/-- First sight of a household is race free in every run. -/
theorem race_free (hn : (first.map (·.id)).Nodup)
    (h : Reachable (step requests) (initial first) s) : RaceFree requests first s := by
  have hs := ((Sound.initial hn).reach h).1
  refine ⟨hs.ids, fun i created hp s' h' => ?_, fun r hr hnew => ?_, fun i hp => ?_⟩
  · obtain ⟨hs', hkept⟩ := hs.reach h'
    obtain ⟨⟨r, hr, hid⟩, -⟩ := hs.supported_of_phase hp
    refine ⟨⟨r, hkept r hr, hid⟩, fun db event hdb hevent => ?_⟩
    have hm : event.householdId ∈ db.households := by
      rw [hdb, hevent, ← hid]
      exact List.mem_map_of_mem (hkept r hr)
    simp [InventoryEventRow.referenceChecks, hm]
  · rcases hs.creator r hr with hf | ⟨i, hp, rfl⟩
    · exact absurd (List.mem_map_of_mem hf) hnew
    · refine ⟨i, ⟨rfl, hp⟩, ?_⟩
      rintro j ⟨hid, hj⟩
      exact hs.once j i hj hp hid
  · obtain ⟨-, hc⟩ := hs.supported_of_phase hp
    obtain ⟨hrow, hfirst⟩ := hc rfl
    refine ⟨?_, fun s' h' r hr => ⟨fun hid => ?_, fun he => he ▸ rfl⟩⟩
    · intro hm
      obtain ⟨r, hr, hid⟩ := List.mem_map.mp hm
      exact hfirst r hr hid
    · obtain ⟨hs', hkept⟩ := hs.reach h'
      exact List.inj_on_of_nodup_map hs'.ids hr (hkept _ hrow) hid

end Results

section Sample

def newcomers (i : ℕ) : SightRequest := ⟨7, if i = 0 then "first" else "second"⟩

/-- Three requests find nothing. The first inserts and is rolled back, the second creates the
household, and the third finds it there when it inserts. -/
def newcomersInTurn : List SightAction :=
  [.exists_ 0, .exists_ 1, .exists_ 2, .insert 0, .rollback 0, .insert 1, .commit 1, .insert 2]

theorem race_free_newcomers :
    ∃ s, exec (guarded (step newcomers) unrestricted) (initial []) newcomersInTurn = some s ∧
      s.households = [⟨7, "second", "Europe/London"⟩] ∧
      s.phase 1 = .proceeded true ∧ s.phase 2 = .proceeded false ∧ RaceFree newcomers [] s := by
  have h : (exec (guarded (step newcomers) unrestricted) (initial []) newcomersInTurn).map
      (fun s => (s.households, s.phase 1, s.phase 2)) =
        some ([⟨7, "second", "Europe/London"⟩], .proceeded true, .proceeded false) := by
    decide +kernel
  obtain ⟨s, hr, hp⟩ := Option.map_eq_some_iff.mp h
  simp only [Prod.mk.injEq] at hp
  exact ⟨s, hr, hp.1, hp.2.1, hp.2.2, race_free List.nodup_nil (Reach.of_exec hr)⟩

/-- An insertion waits for the transaction that has inserted the same household. -/
example : exec (step newcomers) (initial []) [.exists_ 0, .exists_ 1, .insert 0, .insert 1] =
    none := by
  rfl

end Sample

end FirstSight

end KitchenSense
