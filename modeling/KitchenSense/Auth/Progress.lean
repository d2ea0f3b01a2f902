import KitchenSense.Auth.Verifier
import KitchenSense.Foundations.Progress

/-! # Verifications come to their ends

A call of the key source holds the lock while it waits for a document, and lets
go of it when the document has come or could not be read. Every step brings a
call closer to its end, so no verification is left waiting, whatever the
provider answers.
-/

namespace KitchenSense

section Ranks

variable {κ : Type}

def RefreshReason.rest : RefreshReason → ℕ
  | .expired => 5
  | .unknownKeyId => 0

/-- The steps that a call still takes at most; fewer where the configuration is known. -/
def KeyPhase.rank (configured : Bool) : KeyPhase κ → ℕ
  | .awaitingCached _ => 10
  | .awaitingUnknown _ => 5
  | .refreshing reason _ => reason.rest + if configured then 2 else 4
  | .discovering reason _ => reason.rest + 3
  | .fetching reason _ => reason.rest + 1
  | .awaitingConfiguration => 2
  | .discoveringConfiguration => 1
  | .idle | .found _ _ _ | .configured _ | .refused _ => 0

/-- A phase of a call of `signing_key` that has begun. -/
def KeyPhase.ForKey : KeyPhase κ → Prop
  | .awaitingCached _ | .awaitingUnknown _ | .refreshing _ _ | .discovering _ _ | .fetching _ _
  | .found _ _ _ | .refused _ => True
  | _ => False

/-- A phase of a call of `configuration` that has begun. -/
def KeyPhase.ForConfiguration : KeyPhase κ → Prop
  | .awaitingConfiguration | .discoveringConfiguration | .configured _ | .refused _ => True
  | _ => False

def KeyAction.own : KeyAction κ → Option ℕ
  | .acquire i | .request i | .openId i _ | .jwks i _ => some i
  | .tick _ | .signingKey _ _ | .configuration _ => none

theorem KeyAction.continues_of_own {action : KeyAction κ} (h : action.own ≠ none) :
    action.Continues := by
  cases action with
  | acquire | request | openId | jwks => trivial
  | tick | signingKey | configuration => exact absurd rfl h

theorem RefreshReason.rest_le (reason : RefreshReason) : reason.rest ≤ 5 := by
  cases reason <;> decide

theorem KeyPhase.rank_le (p : KeyPhase κ) (c : Bool) : p.rank c ≤ 10 := by
  cases p with
  | refreshing reason call =>
    have := reason.rest_le
    simp only [rank]
    split <;> omega
  | discovering reason call | fetching reason call =>
    have := reason.rest_le
    simp only [rank]
    omega
  | _ => simp [rank]

theorem KeyPhase.rank_anti (p : KeyPhase κ) {c c' : Bool} (h : c = true → c' = true) :
    p.rank c' ≤ p.rank c := by
  cases p with
  | refreshing reason call =>
    cases c with
    | true => rw [h rfl]
    | false =>
      simp only [rank]
      split <;> simp
  | _ => exact le_rfl

end Ranks

namespace KeySource

variable {κ : Type} {cfg : KeySettings} {s s' : KeySource κ} {action : KeyAction κ} {i : ℕ}
  {p : KeyPhase κ} {call : KeyCall}

/-- The lock is held by a call that waits for a document, or is about to. -/
def Occupied (s : KeySource κ) : Prop := ∀ j, s.lock = some j → (s.phase j).Holding

theorem Occupied.enter (hs : Occupied s) (hp : (s.phase i).Holding → p.Holding) :
    Occupied (s.enter i p) := by
  intro j hj
  by_cases h : j = i
  · subst h
    rw [enter_phase, Function.update_self]
    exact hp (hs j hj)
  · rw [enter_phase, Function.update_of_ne h]
    exact hs j hj

theorem Occupied.free (hl : s.lock = none) : Occupied s := by
  intro j hj
  rw [hl] at hj
  cases hj

theorem Occupied.take (hp : p.Holding) : Occupied (s.take i p) := by
  rintro j ⟨⟩
  rw [KeySource.take, enter_phase, Function.update_self]
  exact hp

theorem Occupied.step (hs : Occupied s) (h : KeySource.step cfg s action = some s') :
    Occupied s' := by
  cases moves_of_step h with
  | tick => exact hs
  | answer hp => exact hs.enter fun hh => absurd hh hp
  | wait _ hp => exact hs.enter fun hh => by rw [hp] at hh; exact hh.elim
  | read hp =>
    refine hs.enter fun hh => ?_
    rcases hp with hp | ⟨hp, -⟩ <;> rw [hp] at hh <;> exact hh.elim
  | reread hp => exact hs.enter fun hh => by rw [hp] at hh; exact hh.elim
  | refreshExpired | refreshUnknown | discover => exact .take trivial
  | requestOpenId => exact hs.enter fun _ => trivial
  | requestJwks => exact Occupied.enter (s := s.recordAttempt) hs fun _ => trivial
  | configure => exact Occupied.enter (s := s.configure _ _) hs fun _ => trivial
  | configureAlone | openIdFailed | install | jwksFailed => exact .free rfl

/-- What a step of a call that has begun does to it and to the others. -/
structure Descends (s s' : KeySource κ) (i : ℕ) (p : KeyPhase κ) : Prop where
  phase : s'.phase = Function.update s.phase i p
  configured : s.configuration.isSome → s'.configuration.isSome
  rank : p.rank s'.configuration.isSome < (s.phase i).rank s.configuration.isSome
  forKey : (s.phase i).ForKey → p.ForKey
  forConfiguration : (s.phase i).ForConfiguration → p.ForConfiguration

theorem rank_lookUp_le {missing : KeyPhase κ} (c : Bool) :
    (s.lookUp call missing).rank c ≤ missing.rank c := by
  unfold lookUp
  split
  next => exact Nat.zero_le _
  next => exact le_rfl

theorem forKey_lookUp {missing : KeyPhase κ} (h : missing.ForKey) :
    (s.lookUp call missing).ForKey := by
  unfold lookUp
  split
  next => trivial
  next => exact h

theorem rank_missingAfter (reason : RefreshReason) (c : Bool) :
    (missingAfter reason call : KeyPhase κ).rank c = reason.rest := by
  cases reason <;> rfl

theorem forKey_missingAfter (reason : RefreshReason) :
    (missingAfter reason call : KeyPhase κ).ForKey := by
  cases reason <;> trivial

theorem descends_of_acquire (h : KeySource.step cfg s (.acquire i) = some s') :
    ∃ p, Descends s s' i p := by
  rw [KeySource.step, Option.ite_none_left_eq_some] at h
  obtain ⟨-, h⟩ := h
  cases hp : s.phase i with
  | awaitingCached call =>
    rw [hp] at h
    dsimp only at h
    split at h
    next =>
      cases h
      refine ⟨_, rfl, id, ?_, fun _ => trivial, ?_⟩
      · rw [hp]
        simp only [KeyPhase.rank, RefreshReason.rest]
        split <;> omega
      · rw [hp]
        exact False.elim
    next =>
      cases h
      refine ⟨_, rfl, id, (rank_lookUp_le _).trans_lt ?_, fun _ => forKey_lookUp trivial, ?_⟩
      · rw [hp]
        exact (by decide : 5 < 10)
      · rw [hp]
        exact False.elim
  | awaitingUnknown call =>
    have hpos : ∀ c, 0 < (s.phase i).rank c := fun c => by rw [hp]; exact Nat.succ_pos 4
    have hconf : ∀ p : KeyPhase κ, (s.phase i).ForConfiguration → p.ForConfiguration :=
      fun p h => by rw [hp] at h; exact h.elim
    rw [hp] at h
    dsimp only at h
    split at h
    next => cases h; exact ⟨_, rfl, id, hpos _, fun _ => trivial, hconf _⟩
    next =>
      split at h
      next => cases h; exact ⟨_, rfl, id, hpos _, fun _ => trivial, hconf _⟩
      next =>
        cases h
        refine ⟨_, rfl, id, ?_, fun _ => trivial, hconf _⟩
        rw [hp]
        simp only [KeyPhase.rank, RefreshReason.rest]
        split <;> omega
  | awaitingConfiguration =>
    have hpos : ∀ c, 1 < (s.phase i).rank c := fun c => by rw [hp]; exact Nat.lt_succ_self 1
    have hkey : ∀ p : KeyPhase κ, (s.phase i).ForKey → p.ForKey :=
      fun p h => by rw [hp] at h; exact h.elim
    rw [hp] at h
    dsimp only at h
    split at h
    next =>
      cases h
      exact ⟨_, rfl, id, Nat.zero_lt_of_lt (hpos _), hkey _, fun _ => trivial⟩
    next => cases h; exact ⟨_, rfl, id, hpos _, hkey _, fun _ => trivial⟩
  | _ => rw [hp] at h; cases h

theorem descends_of_request (h : KeySource.step cfg s (.request i) = some s') :
    ∃ p, Descends s s' i p := by
  rw [KeySource.step] at h
  cases hp : s.phase i with
  | refreshing reason call =>
    have hconf : ∀ p : KeyPhase κ, (s.phase i).ForConfiguration → p.ForConfiguration :=
      fun p h => by rw [hp] at h; exact h.elim
    rw [hp] at h
    dsimp only at h
    split at h
    next hc =>
      cases h
      refine ⟨_, rfl, id, ?_, fun _ => trivial, hconf _⟩
      rw [hp]
      simp [KeyPhase.rank, hc]
    next hc =>
      cases h
      refine ⟨_, rfl, id, ?_, fun _ => trivial, hconf _⟩
      rw [hp]
      simp only [KeyPhase.rank]
      split <;> omega
  | _ => rw [hp] at h; cases h

theorem descends_of_openId {fetched : Fetched OpenIDDocument}
    (h : KeySource.step cfg s (.openId i fetched) = some s') : ∃ p, Descends s s' i p := by
  rw [KeySource.step] at h
  split at h
  next reason call document configuration hp _ =>
    cases h
    refine ⟨_, rfl, fun _ => rfl, ?_, fun _ => trivial, fun h => by rw [hp] at h; exact h.elim⟩
    rw [hp]
    simp only [KeyPhase.rank, enter, configure, Option.isSome_some, if_true]
    omega
  next document configuration hp _ =>
    cases h
    refine ⟨_, rfl, fun _ => rfl, ?_, fun h => by rw [hp] at h; exact h.elim, fun _ => trivial⟩
    rw [hp]
    exact Nat.zero_lt_one
  next reason call e hp _ =>
    cases h
    refine ⟨_, rfl, id, ?_, fun _ => trivial, fun _ => trivial⟩
    rw [hp]
    exact Nat.succ_pos _
  next e hp _ =>
    cases h
    refine ⟨_, rfl, id, ?_, fun _ => trivial, fun _ => trivial⟩
    rw [hp]
    exact Nat.zero_lt_one
  next => cases h

theorem descends_of_jwks {fetched : Fetched (List (Jwk κ))}
    (h : KeySource.step cfg s (.jwks i fetched) = some s') : ∃ p, Descends s s' i p := by
  rw [KeySource.step] at h
  split at h
  next reason call entries hp _ =>
    cases h
    refine ⟨_, rfl, id, (rank_lookUp_le _).trans_lt ?_,
      fun _ => forKey_lookUp (forKey_missingAfter reason), fun h => by rw [hp] at h; exact h.elim⟩
    rw [hp, rank_missingAfter]
    exact Nat.lt_succ_self _
  next reason call e hp _ =>
    cases h
    refine ⟨_, rfl, id, ?_, fun _ => trivial, fun _ => trivial⟩
    rw [hp]
    exact Nat.succ_pos _
  next => cases h

theorem descends_of_step (ha : action.own = some i)
    (h : KeySource.step cfg s action = some s') : ∃ p, Descends s s' i p := by
  cases action with
  | acquire => cases ha; exact descends_of_acquire h
  | request => cases ha; exact descends_of_request h
  | openId => cases ha; exact descends_of_openId h
  | jwks => cases ha; exact descends_of_jwks h
  | tick | signingKey | configuration => cases ha

/-- A call that holds the lock can go on, whatever happens around it. -/
theorem continues_of_holding (hp : (s.phase i).Holding) :
    ∃ action s', KeyAction.own action ≠ none ∧ KeySource.step cfg s action = some s' := by
  cases hi : s.phase i with
  | refreshing reason call =>
    by_cases hc : s.configuration = none
    · exact ⟨.request i, _, Option.some_ne_none i, by rw [KeySource.step, hi]; exact if_pos hc⟩
    · exact ⟨.request i, _, Option.some_ne_none i, by rw [KeySource.step, hi]; exact if_neg hc⟩
  | discovering reason call =>
    exact ⟨.openId i .unreadable, _, Option.some_ne_none i, by rw [KeySource.step, hi]; rfl⟩
  | fetching reason call =>
    exact ⟨.jwks i .unreadable, _, Option.some_ne_none i, by rw [KeySource.step, hi]; rfl⟩
  | discoveringConfiguration =>
    exact ⟨.openId i .unreadable, _, Option.some_ne_none i, by rw [KeySource.step, hi]; rfl⟩
  | _ => rw [hi] at hp; exact hp.elim

theorem continues_of_free (hl : s.lock = none) (hr : (s.phase i).rank s.configuration.isSome ≠ 0)
    (hn : ¬ (s.phase i).Holding) : ∃ s', KeySource.step cfg s (.acquire i) = some s' := by
  rw [KeySource.step, if_neg (not_not.mpr hl)]
  cases hi : s.phase i with
  | awaitingCached call => dsimp only; split <;> exact ⟨_, rfl⟩
  | awaitingUnknown call =>
    dsimp only
    split
    next => exact ⟨_, rfl⟩
    next => split <;> exact ⟨_, rfl⟩
  | awaitingConfiguration => dsimp only; split <;> exact ⟨_, rfl⟩
  | refreshing | discovering | fetching | discoveringConfiguration =>
    rw [hi] at hn
    exact absurd trivial hn
  | idle | found | configured | refused => rw [hi] at hr; exact absurd rfl hr

theorem Occupied.continues (hs : Occupied s)
    (hr : (s.phase i).rank s.configuration.isSome ≠ 0) :
    ∃ action s', KeyAction.own action ≠ none ∧ KeySource.step cfg s action = some s' := by
  cases hl : s.lock with
  | some j => exact continues_of_holding (hs j hl)
  | none =>
    by_cases hi : (s.phase i).Holding
    · exact continues_of_holding hi
    · obtain ⟨s', h⟩ := continues_of_free hl hr hi
      exact ⟨.acquire i, s', Option.some_ne_none i, h⟩

theorem forKey_of_signingKey {kid : String}
    (h : KeySource.step cfg s (.signingKey i kid) = some s') : ∃ p : KeyPhase κ,
      s'.phase = Function.update s.phase i p ∧ p.ForKey ∧ s'.configuration = s.configuration := by
  rw [KeySource.step] at h
  split at h
  next =>
    dsimp only at h
    split at h
    next => cases h; exact ⟨_, rfl, trivial, rfl⟩
    next =>
      split at h
      next => cases h; exact ⟨_, rfl, forKey_lookUp trivial, rfl⟩
      next => cases h; exact ⟨_, rfl, trivial, rfl⟩
  next => cases h

theorem configuration_cases (h : KeySource.step cfg s (.configuration i) = some s') :
    (∃ configuration, s' = s.enter i (.configured configuration)) ∨
      s' = s.enter i .awaitingConfiguration := by
  rw [KeySource.step] at h
  cases hc : s.configuration with
  | some configuration =>
    rw [hc] at h
    split at h <;> cases h <;> exact .inl ⟨configuration, rfl⟩
  | none =>
    rw [hc] at h
    split at h <;> cases h <;> exact .inr rfl

theorem forConfiguration_of_configuration
    (h : KeySource.step cfg s (.configuration i) = some s') : ∃ p : KeyPhase κ,
      s'.phase = Function.update s.phase i p ∧ p.ForConfiguration ∧
        p.rank s.configuration.isSome ≤ 2 ∧ s'.configuration = s.configuration := by
  rcases configuration_cases h with ⟨configuration, rfl⟩ | rfl
  · exact ⟨_, rfl, trivial, Nat.zero_le 2, rfl⟩
  · exact ⟨_, rfl, trivial, le_rfl, rfl⟩

end KeySource

section Verifications

variable {κ : Type}

/-- The steps that a verification still takes at most, its call of the key source included. -/
def VerifyPhase.rank (configured : Bool) (source : KeyPhase κ) : VerifyPhase κ → ℕ
  | .signing _ =>
    match source with
    | .refused _ => 1
    | p => p.rank configured + 4
  | .configuring _ _ _ _ => source.rank configured + 1
  | .idle | .verified _ _ _ _ _ _ | .refused _ => 0

def VerifyPhase.Rests : VerifyPhase κ → Prop
  | .signing _ | .configuring _ _ _ _ => False
  | .idle | .verified _ _ _ _ _ _ | .refused _ => True

def VerifyAction.own : VerifyAction κ → Option ℕ
  | .keys action => action.own
  | .signed i | .decode i _ => some i
  | .verify _ _ => none

theorem VerifyPhase.rank_signing_le (c : Bool) (q : KeyPhase κ) (token : String) :
    (VerifyPhase.signing token : VerifyPhase κ).rank c q ≤ q.rank c + 4 := by
  cases q with
  | refused e => exact Nat.le_add_left 1 3
  | _ => exact le_rfl

theorem VerifyPhase.rank_signing_of_ne {c : Bool} {q : KeyPhase κ} (h : q.rank c ≠ 0)
    (token : String) : (VerifyPhase.signing token : VerifyPhase κ).rank c q = q.rank c + 4 := by
  cases q with
  | refused e => exact absurd rfl h
  | _ => rfl

theorem VerifyPhase.rank_lt {c c' : Bool} {q q' : KeyPhase κ} {p : VerifyPhase κ} (hp : ¬ p.Rests)
    (h : q'.rank c' < q.rank c) : p.rank c' q' < p.rank c q := by
  cases p with
  | signing token =>
    have hne : q.rank c ≠ 0 := Nat.ne_zero_of_lt h
    have hle := rank_signing_le c' q' token
    rw [rank_signing_of_ne hne]
    omega
  | configuring => exact Nat.succ_lt_succ h
  | idle | verified | refused => exact absurd trivial hp

theorem VerifyPhase.rank_anti {c c' : Bool} (h : c = true → c' = true) (q : KeyPhase κ)
    (p : VerifyPhase κ) : p.rank c' q ≤ p.rank c q := by
  have hq : q.rank c' ≤ q.rank c := q.rank_anti h
  cases p with
  | signing token =>
    cases q with
    | refused e => exact le_rfl
    | _ => exact Nat.add_le_add_right hq 4
  | configuring => exact Nat.succ_le_succ hq
  | _ => exact le_rfl

theorem VerifyPhase.rank_le (c : Bool) (q : KeyPhase κ) (p : VerifyPhase κ) : p.rank c q ≤ 14 := by
  have hq := q.rank_le c
  cases p with
  | signing token =>
    have := rank_signing_le c q token
    omega
  | configuring =>
    simp only [rank]
    omega
  | _ => exact Nat.zero_le _

theorem VerifyPhase.rank_eq_zero_iff {c : Bool} {q : KeyPhase κ} {p : VerifyPhase κ} :
    p.rank c q = 0 ↔ p.Rests := by
  cases p with
  | signing token =>
    refine iff_of_false ?_ id
    cases q <;> simp [rank]
  | configuring => exact iff_of_false (Nat.succ_ne_zero _) id
  | _ => exact iff_of_true rfl trivial

end Verifications

namespace TokenVerifier

open KeySource (Occupied)

section Ends

variable {κ : Type} {settings : Settings} {v v' : TokenVerifier κ} {action : VerifyAction κ}
  {i : ℕ}

def Paired : VerifyPhase κ → KeyPhase κ → Prop
  | .signing _, q => q.ForKey
  | .configuring _ _ _ _, q => q.ForConfiguration
  | .idle, q | .verified _ _ _ _ _ _, q | .refused _, q => ∀ c, q.rank c = 0

/-- The verifications and the calls of the key source go together. -/
structure InStep (v : TokenVerifier κ) : Prop where
  occupied : v.source.Occupied
  paired : ∀ i, Paired (v.phase i) (v.source.phase i)

def rank (v : TokenVerifier κ) (i : ℕ) : ℕ :=
  (v.phase i).rank v.source.configuration.isSome (v.source.phase i)

theorem InStep.initial (now : Seconds) : InStep (initial now : TokenVerifier κ) where
  occupied := .free rfl
  paired _ _ := rfl

/-- What a step does to the one verification that it concerns. -/
structure Turns (action : VerifyAction κ) (v v' : TokenVerifier κ) (i : ℕ) (p : VerifyPhase κ)
    (q : KeyPhase κ) : Prop where
  phase : v'.phase = Function.update v.phase i p
  source : v'.source.phase = Function.update v.source.phase i q
  configured : v.source.configuration.isSome → v'.source.configuration.isSome
  paired : Paired p q
  nears : Nears action.own i (v.rank i) (p.rank v'.source.configuration.isSome q)

theorem Turns.rank_of_ne {p : VerifyPhase κ} {q : KeyPhase κ} (h : Turns action v v' i p q)
    {j : ℕ} (hj : j ≠ i) : v'.rank j ≤ v.rank j := by
  unfold TokenVerifier.rank
  rw [h.phase, h.source, Function.update_of_ne hj, Function.update_of_ne hj]
  exact VerifyPhase.rank_anti h.configured ..

theorem Turns.rank_self {p : VerifyPhase κ} {q : KeyPhase κ} (h : Turns action v v' i p q) :
    v'.rank i = p.rank v'.source.configuration.isSome q := by
  unfold TokenVerifier.rank
  rw [h.phase, h.source, Function.update_self, Function.update_self]

theorem InStep.turns_keys {keyAction : KeyAction κ} {source : KeySource κ} (hv : InStep v)
    (hc : keyAction.Continues)
    (h : KeySource.step settings.keySettings v.source keyAction = some source) :
    ∃ i p q, Turns (.keys keyAction) v (v.withSource source) i p q := by
  cases ho : keyAction.own with
  | some i =>
    obtain ⟨q, hd⟩ := KeySource.descends_of_step ho h
    have hpaired : ¬ (v.phase i).Rests ∧ Paired (v.phase i) q := by
      have hi := hv.paired i
      cases hp : v.phase i with
      | signing token => rw [hp] at hi; exact ⟨id, hd.forKey hi⟩
      | configuring => rw [hp] at hi; exact ⟨id, hd.forConfiguration hi⟩
      | idle | verified | refused =>
        -- a call of the key source that no verification waits for has ended
        rw [hp] at hi
        exact absurd (hi _) (Nat.ne_zero_of_lt hd.rank)
    exact ⟨i, v.phase i, q, (Function.update_eq_self i v.phase).symm, hd.phase, hd.configured,
      hpaired.2, .inl ⟨ho, VerifyPhase.rank_lt hpaired.1 hd.rank⟩⟩
  | none =>
    cases keyAction with
    | tick now =>
      rw [KeySource.step, Option.ite_none_right_eq_some] at h
      obtain ⟨-, ⟨⟩⟩ := h
      exact ⟨0, v.phase 0, v.source.phase 0, (Function.update_eq_self 0 v.phase).symm,
        (Function.update_eq_self 0 v.source.phase).symm, id, hv.paired 0, .refl⟩
    | signingKey | configuration => exact hc.elim
    | acquire | request | openId | jwks => cases ho

theorem paired_of_rests {p : VerifyPhase κ} {q : KeyPhase κ} (hp : p.Rests)
    (hq : ∀ c, q.rank c = 0) : Paired p q := by
  cases p with
  | signing | configuring => exact hp.elim
  | idle | verified | refused => exact hq

theorem turns_rests {p : VerifyPhase κ} (hp : p.Rests)
    (hq : ∀ c, (v.source.phase i).rank c = 0)
    (hr : action.own = some i ∧ ¬ (v.phase i).Rests ∨ action.own = none) :
    Turns action v (v.enter i p) i p (v.source.phase i) := by
  refine ⟨rfl, (Function.update_eq_self i v.source.phase).symm, id, paired_of_rests hp hq, ?_⟩
  rw [VerifyPhase.rank_eq_zero_iff.mpr hp]
  rcases hr with ⟨ho, hr⟩ | ho
  · exact .inl ⟨ho, Nat.pos_of_ne_zero fun hz => hr (VerifyPhase.rank_eq_zero_iff.mp hz)⟩
  · exact .inr ⟨ho, .inr (Nat.zero_le _)⟩

variable [UnicodeTables] {jwt : PyJWT κ}

theorem rests_concluded {token : String} {call : KeyCall} {key : κ} {lookup : Lookup}
    {issuer : String} {now : Seconds} :
    (concluded settings jwt token call key lookup issuer now).Rests := by
  unfold concluded
  split <;> trivial

theorem InStep.turns (hv : InStep v) (h : TokenVerifier.step settings jwt v action = some v') :
    ∃ i p q, Turns action v v' i p q := by
  cases action with
  | verify i token =>
    rw [TokenVerifier.step] at h
    split at h
    next e hp _ =>
      cases h
      have hi := hv.paired i
      rw [hp] at hi
      exact ⟨i, _, _, turns_rests trivial hi (.inr rfl)⟩
    next header hp _ =>
      obtain ⟨source, hs, rfl⟩ := Option.map_eq_some_iff.mp h
      obtain ⟨q, hq, hkey, hconf⟩ := KeySource.forKey_of_signingKey hs
      have hc : (v.withSource source).source.configuration = v.source.configuration := hconf
      refine ⟨i, .signing token, q, rfl, hq, fun h => by rw [enter, hc]; exact h, hkey, ?_⟩
      rw [TokenVerifier.rank, hp]
      exact .of_zero
    next => cases h
  | keys keyAction =>
    rw [TokenVerifier.step, Option.ite_none_right_eq_some] at h
    obtain ⟨hc, h⟩ := h
    obtain ⟨source, hs, rfl⟩ := Option.map_eq_some_iff.mp h
    exact hv.turns_keys hc hs
  | signed i =>
    rw [TokenVerifier.step] at h
    split at h
    next token call key lookup hp hs =>
      obtain ⟨source, hstep, rfl⟩ := Option.map_eq_some_iff.mp h
      obtain ⟨q, hq, hkey, hr, hconf⟩ := KeySource.forConfiguration_of_configuration hstep
      have hc : (v.withSource source).source.configuration = v.source.configuration := hconf
      refine ⟨i, .configuring token call key lookup, q, rfl, hq,
        fun h => by rw [enter, hc]; exact h, hkey, ?_⟩
      rw [enter, hc, TokenVerifier.rank, hp, hs]
      exact .of_lt ((Nat.succ_le_succ hr).trans_lt (by decide : 3 < 4))
    next e hp hs =>
      cases h
      exact ⟨i, _, _, turns_rests trivial (fun c => by rw [hs]; rfl)
        (.inl ⟨rfl, by rw [hp]; exact id⟩)⟩
    next => cases h
  | decode i now =>
    rw [TokenVerifier.step] at h
    split at h
    next token call key lookup configuration hp hs =>
      cases h
      exact ⟨i, _, _,
        turns_rests rests_concluded (fun c => by rw [hs]; rfl)
          (.inl ⟨rfl, by rw [hp]; exact id⟩)⟩
    next e hp hs =>
      cases h
      exact ⟨i, _, _, turns_rests trivial (fun c => by rw [hs]; rfl)
        (.inl ⟨rfl, by rw [hp]; exact id⟩)⟩
    next => cases h

/-- A step leaves the key source alone, begins a call of it, or is a step of one. -/
theorem source_of_step (h : TokenVerifier.step settings jwt v action = some v') :
    v'.source = v.source ∨ ∃ keyAction : KeyAction κ,
      (keyAction.Continues → action = .keys keyAction) ∧
      KeySource.step settings.keySettings v.source keyAction = some v'.source := by
  cases action with
  | verify i token =>
    rw [TokenVerifier.step] at h
    split at h
    next => cases h; exact .inl rfl
    next =>
      obtain ⟨source, hs, rfl⟩ := Option.map_eq_some_iff.mp h
      exact .inr ⟨_, False.elim, hs⟩
    next => cases h
  | keys keyAction =>
    rw [TokenVerifier.step, Option.ite_none_right_eq_some] at h
    obtain ⟨-, h⟩ := h
    obtain ⟨source, hs, rfl⟩ := Option.map_eq_some_iff.mp h
    exact .inr ⟨keyAction, fun _ => rfl, hs⟩
  | signed i =>
    rw [TokenVerifier.step] at h
    split at h
    next =>
      obtain ⟨source, hs, rfl⟩ := Option.map_eq_some_iff.mp h
      exact .inr ⟨_, False.elim, hs⟩
    next => cases h; exact .inl rfl
    next => cases h
  | decode i now =>
    rw [TokenVerifier.step] at h
    split at h
    next => cases h; exact .inl rfl
    next => cases h; exact .inl rfl
    next => cases h

theorem occupied_of_step (ho : v.source.Occupied)
    (h : TokenVerifier.step settings jwt v action = some v') : v'.source.Occupied := by
  rcases source_of_step h with hs | ⟨keyAction, -, hs⟩
  · rw [hs]
    exact ho
  · exact ho.step hs

theorem InStep.step (hv : InStep v) (h : TokenVerifier.step settings jwt v action = some v') :
    InStep v' := by
  obtain ⟨i, p, q, ht⟩ := hv.turns h
  refine ⟨occupied_of_step hv.occupied h, fun j => ?_⟩
  rw [ht.phase, ht.source]
  by_cases hj : j = i
  · rw [hj, Function.update_self, Function.update_self]
    exact ht.paired
  · rw [Function.update_of_ne hj, Function.update_of_ne hj]
    exact hv.paired j

theorem exists_step_keys {keyAction : KeyAction κ} {source : KeySource κ}
    (ho : keyAction.own ≠ none)
    (h : KeySource.step settings.keySettings v.source keyAction = some source) :
    ∃ action v', VerifyAction.own action ≠ none ∧
      TokenVerifier.step settings jwt v action = some v' := by
  refine ⟨.keys keyAction, v.withSource source, ho, ?_⟩
  rw [TokenVerifier.step, if_pos (KeyAction.continues_of_own ho), h]
  rfl

theorem InStep.continues_of_ended (hv : InStep v) (hp : ¬ (v.phase i).Rests)
    (hq : (v.source.phase i).rank v.source.configuration.isSome = 0) :
    ∃ action v', VerifyAction.own action ≠ none ∧
      TokenVerifier.step settings jwt v action = some v' := by
  have hi := hv.paired i
  cases hph : v.phase i with
  | signing token =>
    rw [hph] at hi
    cases hs : v.source.phase i with
    | found call key lookup =>
      have hbegin : ∃ source, KeySource.step settings.keySettings v.source (.configuration i) =
          some source := by
        rw [KeySource.step, hs]
        dsimp only
        split <;> exact ⟨_, rfl⟩
      obtain ⟨source, hbegin⟩ := hbegin
      exact ⟨.signed i, _, Option.some_ne_none i,
        by rw [TokenVerifier.step, hph, hs]; simp only [hbegin]; rfl⟩
    | refused e =>
      exact ⟨.signed i, _, Option.some_ne_none i, by rw [TokenVerifier.step, hph, hs]⟩
    | refreshing reason call =>
      rw [hs] at hq
      simp only [KeyPhase.rank] at hq
      split at hq <;> omega
    | awaitingCached | awaitingUnknown | discovering | fetching => rw [hs] at hq; cases hq
    | idle | awaitingConfiguration | discoveringConfiguration | configured =>
      rw [hs] at hi
      exact hi.elim
  | configuring token call key lookup =>
    rw [hph] at hi
    cases hs : v.source.phase i with
    | configured configuration =>
      exact ⟨.decode i 0, _, Option.some_ne_none i, by rw [TokenVerifier.step, hph, hs]⟩
    | refused e =>
      exact ⟨.decode i 0, _, Option.some_ne_none i, by rw [TokenVerifier.step, hph, hs]⟩
    | awaitingConfiguration | discoveringConfiguration => rw [hs] at hq; cases hq
    | idle | awaitingCached | awaitingUnknown | refreshing | discovering | fetching | found =>
      rw [hs] at hi
      exact hi.elim
  | idle | verified | refused => rw [hph] at hp; exact absurd trivial hp

theorem InStep.continues (hv : InStep v) (hr : v.rank i ≠ 0) :
    ∃ action v', VerifyAction.own action ≠ none ∧
      TokenVerifier.step settings jwt v action = some v' := by
  by_cases hq : (v.source.phase i).rank v.source.configuration.isSome = 0
  · exact hv.continues_of_ended (fun hp => hr (VerifyPhase.rank_eq_zero_iff.mpr hp)) hq
  · obtain ⟨keyAction, source, ho, h⟩ := hv.occupied.continues hq
    exact exists_step_keys ho h

theorem progress : Progress (step settings jwt) (fun _ action => action.own) rank InStep where
  keeps hv h := hv.step h
  turns hv h := by
    obtain ⟨i, p, q, ht⟩ := hv.turns h
    exact ⟨i, ht.rank_self ▸ ht.nears, fun j hj => ht.rank_of_ne hj⟩
  continues hv hr := hv.continues hr

/-- Verifications never wait for each other in a circle: however the provider answers, each ends
after at most fourteen more steps of its own. -/
theorem verifications_end {now : Seconds} (h : Reachable (step settings jwt) (initial now) v) :
    Settles (step settings jwt) (fun _ action => action.own) rank v ∧
      ∀ i, v.rank i ≤ 14 ∧ (v.rank i = 0 ↔ (v.phase i).Rests) :=
  ⟨progress.settles (.initial now) (fun _ => rfl) h,
    fun _ => ⟨VerifyPhase.rank_le .., VerifyPhase.rank_eq_zero_iff⟩⟩

end Ends

/-- The first of two verifications holds the lock. -/
theorem verifications_end_atOnce :
    letI := asciiTables
    ∃ v, exec (guarded (step kitchenSettings kitchenLibrary) unrestricted) (initial 5000)
        [.verify 0 "signed", .verify 1 "signed", .keys (.acquire 0)] = some v ∧
      v.rank 0 = 13 ∧ v.rank 1 = 14 ∧
      Settles (step kitchenSettings kitchenLibrary) (fun _ action => action.own) rank v := by
  let _ := asciiTables
  have h : (exec (guarded (step kitchenSettings kitchenLibrary) unrestricted) (initial 5000)
      [.verify 0 "signed", .verify 1 "signed", .keys (.acquire 0)]).map
        (fun v => (v.rank 0, v.rank 1)) = some (13, 14) := by
    decide +kernel
  obtain ⟨v, hr, hp⟩ := Option.map_eq_some_iff.mp h
  obtain ⟨h₀, h₁⟩ := Prod.mk.inj hp
  exact ⟨v, hr, h₀, h₁, (verifications_end (Reach.of_exec hr)).1⟩

end TokenVerifier

end KitchenSense
