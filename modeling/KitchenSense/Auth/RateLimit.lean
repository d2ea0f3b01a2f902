import Mathlib.Tactic.Linarith
import KitchenSense.Auth.Discovery

/-! # The rate limit on key set requests

The limiter compares the clock with the time of the last key set that was
cached. Requests that succeed are therefore kept apart, whatever made them
necessary. A request that fails leaves that time as it was, so nothing keeps
the next one away from it.
-/

namespace KitchenSense

namespace KeySource

section Calls

variable {κ : Type} {cfg : KeySettings} {s s' : KeySource κ} {action : KeyAction κ} {i j : ℕ}
  {p : KeyPhase κ} {now : Seconds}

/-- A request made with keys cached starts late enough after the request before it. -/
def Spaced (cfg : KeySettings) (attempts : List Attempt) : Prop :=
  attempts.IsChain fun later earlier =>
    later.cached = true → cfg.minRefreshSeconds ≤ later.start - earlier.start

/-- With keys cached, a request does not start too soon after one that failed. -/
def PausesAfterFailure (cfg : KeySettings) (s : KeySource κ) : KeyAction κ → Prop
  | .request _ => s.keys.entries ≠ [] → ∀ attempt ∈ s.attempts.head?, attempt.failed = true →
      cfg.minRefreshSeconds ≤ s.clock - attempt.start
  | _ => True

instance (s : KeySource κ) (action : KeyAction κ) :
    Decidable (PausesAfterFailure cfg s action) :=
  match action with
  | .request _ =>
    inferInstanceAs (Decidable (s.keys.entries ≠ [] → ∀ attempt ∈ s.attempts.head?, _))
  | .tick _ | .signingKey _ _ | .acquire _ | .openId _ _ | .jwks _ _ | .configuration _ =>
    inferInstanceAs (Decidable True)

/-- A call refreshes cached keys only when they are old enough, and with a configuration. -/
def Due (cfg : KeySettings) (s : KeySource κ) : KeyPhase κ → Prop
  | .refreshing _ _ | .discovering _ _ =>
    s.keys.entries ≠ [] → cfg.minRefreshSeconds ≤ s.clock - s.keysFetchedAt
  | .fetching _ _ => s.configuration ≠ none
  | _ => True

theorem Due.tick (hd : Due cfg s p) (hn : s.clock ≤ now) :
    Due cfg { s with clock := now } p := by
  cases p <;> first
    | exact fun hk => (hd hk).trans (sub_le_sub_right hn _)
    | exact hd

def IsFetching : KeyPhase κ → Prop
  | .fetching _ _ => True
  | _ => False

/-- The lock has one holder, and the last request failed, is under way or was answered. -/
structure Limited (cfg : KeySettings) (s : KeySource κ) : Prop where
  lock : Exclusive s
  due : ∀ i, Due cfg s (s.phase i)
  configured : s.keys.entries ≠ [] → s.configuration ≠ none
  started : ∀ attempt ∈ s.attempts.head?, attempt.start ≤ s.clock
  answered : ∀ attempt ∈ s.attempts.head?, attempt.failed = true ∨
    (∃ i, IsFetching (s.phase i)) ∨ attempt.start ≤ s.keysFetchedAt

theorem Limited.initial (now : Seconds) : Limited cfg (initial now : KeySource κ) :=
  ⟨.initial now, fun _ => trivial, fun h => absurd rfl h, nofun, nofun⟩

theorem holding_of_isFetching (h : IsFetching p) : p.Holding := by
  cases p <;> trivial

theorem Limited.enter (hs : Limited cfg s) (hi : ¬ (s.phase i).Holding) (hp : ¬ p.Holding) :
    Limited cfg (s.enter i p) where
  lock := hs.lock.enter fun h => absurd h hp
  due j := by
    by_cases h : j = i
    · subst h
      rw [enter_phase, Function.update_self]
      cases p <;> first | trivial | exact absurd trivial hp
    · rw [enter_phase, Function.update_of_ne h]; exact hs.due j
  configured := hs.configured
  started := hs.started
  answered a ha := by
    refine (hs.answered a ha).imp_right (Or.imp_left ?_)
    rintro ⟨j, hj⟩
    have h : j ≠ i := by rintro rfl; exact hi (holding_of_isFetching hj)
    exact ⟨j, by rwa [enter_phase, Function.update_of_ne h]⟩

theorem due_of_not_holding (hp : ¬ p.Holding) : Due cfg s p := by
  cases p <;> first | trivial | exact absurd trivial hp

/-- While a call that is not fetching holds the lock, no request is under way. -/
theorem Limited.answered_of_holding (hs : Limited cfg s) (hi : (s.phase i).Holding)
    (hf : ¬ IsFetching (s.phase i)) :
    ∀ attempt ∈ s.attempts.head?, attempt.failed = true ∨ attempt.start ≤ s.keysFetchedAt := by
  intro a ha
  rcases hs.answered a ha with h | ⟨j, hj⟩ | h
  · exact .inl h
  · rw [hs.lock.holder hi (holding_of_isFetching hj)] at hj
    exact absurd hj hf
  · exact .inr h

theorem Limited.take (hs : Limited cfg s) (hl : s.lock = none) (hd : Due cfg s p) :
    Limited cfg (s.take i p) := by
  refine ⟨hs.lock.take hl, fun j => ?_, hs.configured, hs.started, fun a ha => ?_⟩
  · by_cases h : j = i
    · subst h
      rw [KeySource.take, enter_phase, Function.update_self]
      exact hd
    · rw [KeySource.take, enter_phase, Function.update_of_ne h]
      exact hs.due j
  · rcases hs.answered a ha with h | ⟨j, hj⟩ | h
    · exact .inl h
    · exact absurd (holding_of_isFetching hj) (hs.lock.free hl)
    · exact .inr (.inr h)

theorem Limited.proceed (hs : Limited cfg s) (hi : (s.phase i).Holding) {t : KeySource κ}
    (hphase : t.phase = s.phase) (hlock : t.lock = s.lock) (hd : Due cfg t p)
    (hc : t.keys.entries ≠ [] → t.configuration ≠ none)
    (hst : ∀ attempt ∈ t.attempts.head?, attempt.start ≤ t.clock)
    (ha : IsFetching p ∨
      ∀ attempt ∈ t.attempts.head?, attempt.failed = true ∨ attempt.start ≤ t.keysFetchedAt) :
    Limited cfg (t.enter i p) := by
  have ht : Exclusive t := fun j hj => hlock.trans (hs.lock j (hphase ▸ hj))
  refine ⟨ht.enter fun _ => hphase ▸ hi, fun j => ?_, hc, hst, fun a hm => ?_⟩
  · by_cases h : j = i
    · subst h
      rw [enter_phase, Function.update_self]; exact hd
    · rw [enter_phase, Function.update_of_ne h, hphase]
      exact due_of_not_holding fun hj => h (hs.lock.holder hi hj)
  · rcases ha with hp | ha
    · exact .inr (.inl ⟨i, by rwa [enter_phase, Function.update_self]⟩)
    · exact (ha a hm).imp_right .inr

theorem Limited.leave (hs : Limited cfg s) (hi : (s.phase i).Holding) (hp : ¬ p.Holding)
    {t : KeySource κ} (hphase : t.phase = s.phase) (hlock : t.lock = s.lock)
    (hc : t.keys.entries ≠ [] → t.configuration ≠ none)
    (hst : ∀ attempt ∈ t.attempts.head?, attempt.start ≤ t.clock)
    (ha : ∀ attempt ∈ t.attempts.head?, attempt.failed = true ∨
      attempt.start ≤ t.keysFetchedAt) : Limited cfg (t.leave i p) := by
  have ht : Exclusive t := fun j hj => hlock.trans (hs.lock j (hphase ▸ hj))
  have hfree := ht.not_holding_leave (hphase ▸ hi) hp
  exact ⟨ht.leave (hphase ▸ hi) hp, fun j => due_of_not_holding (hfree j), hc, hst,
    fun a hm => (ha a hm).imp_right .inr⟩

theorem head?_markFailed : s.markFailed.attempts.head? =
    s.attempts.head?.map fun attempt => { attempt with failed := true } := by
  rw [markFailed]
  cases s.attempts <;> rfl

theorem Limited.step (hs : Limited cfg s) (hle : cfg.minRefreshSeconds ≤ cfg.cacheSeconds)
    (h : KeySource.step cfg s action = some s') : Limited cfg s' := by
  cases moves_of_step h with
  | tick hn =>
    exact ⟨hs.lock, fun i => (hs.due i).tick hn, hs.configured,
      fun a ha => (hs.started a ha).trans hn, hs.answered⟩
  | answer hi ha => exact hs.enter hi (by cases ha <;> exact id)
  | wait hk hp => exact hs.enter (by rw [hp]; exact id) id
  | read hp hn he =>
    refine hs.enter ?_ (not_holding_lookUp id)
    rcases hp with hp | ⟨hp, -⟩ <;> rw [hp] <;> exact id
  | reread hp hk => exact hs.enter (by rw [hp]; exact id) id
  | refreshExpired hl hp he =>
    exact hs.take hl fun hk => hle.trans (he.resolve_left hk)
  | refreshUnknown hl hp ht => exact hs.take hl fun _ => ht
  | discover hl hp hc => exact hs.take hl trivial
  | @requestOpenId i reason call hp hc =>
    have hi : (s.phase i).Holding := by rw [hp]; trivial
    have hd := hp ▸ hs.due i
    exact hs.proceed hi rfl rfl hd hs.configured hs.started
      (.inr (hs.answered_of_holding hi (by rw [hp]; exact id)))
  | @requestJwks i reason call hp hc =>
    have hi : (s.phase i).Holding := by rw [hp]; trivial
    refine hs.proceed hi (t := s.recordAttempt) rfl rfl hc hs.configured ?_ (.inl trivial)
    rintro a ⟨⟩
    exact le_rfl
  | @configure i reason call fetched document configuration hp hd =>
    have hi : (s.phase i).Holding := by rw [hp]; trivial
    have hdue := hp ▸ hs.due i
    exact hs.proceed hi (t := s.configure document configuration) rfl rfl hdue (by simp [configure])
      hs.started (.inr (hs.answered_of_holding hi (by rw [hp]; exact id)))
  | @configureAlone i fetched document configuration hp hd =>
    have hi : (s.phase i).Holding := by rw [hp]; trivial
    exact hs.leave hi id (t := s.configure document configuration) rfl rfl
      (by simp [configure]) hs.started (hs.answered_of_holding hi (by rw [hp]; exact id))
  | @openIdFailed i fetched e hi hf =>
    refine hs.leave hi id rfl rfl hs.configured hs.started (hs.answered_of_holding hi ?_)
    intro h
    cases hp : s.phase i with
    | fetching reason call => exact hf reason call hp
    | _ => rw [hp] at h; exact h
  | @install i reason call entries hp hk =>
    have hi : (s.phase i).Holding := by rw [hp]; trivial
    have hc : s.configuration ≠ none := (hp ▸ hs.due i : Due cfg s (.fetching reason call))
    refine hs.leave hi (not_holding_lookUp ?_) (t := s.install entries) rfl rfl (fun _ => hc)
      hs.started fun a ha => .inr (hs.started a ha)
    cases reason <;> exact id
  | @jwksFailed i reason call fetched e hp hf =>
    have hi : (s.phase i).Holding := by rw [hp]; trivial
    have hhead := head?_markFailed (s := s)
    refine hs.leave hi id (t := s.markFailed) rfl rfl hs.configured ?_ ?_
    · rw [hhead]
      intro a ha
      obtain ⟨b, hb, rfl⟩ := Option.map_eq_some_iff.mp ha
      exact hs.started b hb
    · rw [hhead]
      intro a ha
      obtain ⟨b, -, rfl⟩ := Option.map_eq_some_iff.mp ha
      exact .inl rfl

theorem Limited.reach {ok : KeySource κ → KeyAction κ → Prop}
    (hle : cfg.minRefreshSeconds ≤ cfg.cacheSeconds)
    (h : Reach (KeySource.step cfg) ok (KeySource.initial now) s) : Limited cfg s :=
  h.invariant (Limited.initial now) fun _ _ _ hi _ h => hi.step hle h

theorem Spaced.markFailed (h : Spaced cfg s.attempts) : Spaced cfg s.markFailed.attempts := by
  rw [KeySource.markFailed]
  cases ha : s.attempts with
  | nil => exact .nil
  | cons a attempts =>
    rw [ha] at h
    cases attempts with
    | nil => exact .singleton _
    | cons b attempts =>
      obtain ⟨hab, h⟩ := List.isChain_cons_cons.mp h
      exact List.isChain_cons_cons.mpr ⟨hab, h⟩

/-- A request keeps its distance from the one before, unless that one failed. -/
theorem Limited.step_spaced (hs : Limited cfg s) (hok : PausesAfterFailure cfg s action)
    (hsp : Spaced cfg s.attempts) (h : KeySource.step cfg s action = some s') :
    Spaced cfg s'.attempts := by
  cases moves_of_step h with
  | @requestJwks i reason call hp hc =>
    have hi : (s.phase i).Holding := by rw [hp]; trivial
    have ha := hs.answered_of_holding hi (by rw [hp]; exact id)
    have hdue := (hp ▸ hs.due i : Due cfg s (.refreshing reason call))
    show Spaced cfg (⟨s.clock, s.keys.entries ≠ [], false⟩ :: s.attempts)
    cases hat : s.attempts with
    | nil => exact .singleton _
    | cons a attempts =>
      refine List.isChain_cons_cons.mpr ⟨fun hk => ?_, hat ▸ hsp⟩
      have hk : s.keys.entries ≠ [] := of_decide_eq_true hk
      rcases ha a (by rw [hat]; rfl) with hf | hle
      · exact hok hk a (by rw [hat]; rfl) hf
      · exact (hdue hk).trans (sub_le_sub_left hle _)
  | jwksFailed hp hf => exact hsp.markFailed
  | _ => exact hsp

/-- As long as requests pause after one that failed, any two that follow each other once keys are
cached start far enough apart. -/
theorem requests_are_rate_limited (hle : cfg.minRefreshSeconds ≤ cfg.cacheSeconds)
    (h : Reach (step cfg) (PausesAfterFailure cfg) (initial now) s) : Spaced cfg s.attempts := by
  have hi : Limited cfg s ∧ Spaced cfg s.attempts := by
    refine h.invariant (I := fun s => Limited cfg s ∧ Spaced cfg s.attempts)
      ⟨.initial now, .nil⟩ ?_
    rintro s₁ a s₂ ⟨hs, hsp⟩ hok hstep
    exact ⟨hs.step hle hstep, hs.step_spaced hok hsp hstep⟩
  exact hi.2

theorem requests_too_close (hs : Limited cfg s) (hok : ¬ PausesAfterFailure cfg s (.request i))
    (h : step cfg s (.request i) = some s') : ¬ Spaced cfg s'.attempts := by
  rw [PausesAfterFailure] at hok
  push Not at hok
  obtain ⟨hk, a, ha, -, hlt⟩ := hok
  rw [step] at h
  cases hp : s.phase i with
  | refreshing reason call =>
    rw [hp] at h
    dsimp only at h
    rw [if_neg (hs.configured hk)] at h
    cases h
    intro hsp
    have hsp : Spaced cfg (⟨s.clock, s.keys.entries ≠ [], false⟩ :: s.attempts) := hsp
    cases hat : s.attempts with
    | nil => rw [hat] at ha; cases ha
    | cons b attempts =>
      rw [hat] at hsp ha
      cases ha
      exact absurd ((List.isChain_cons_cons.mp hsp).1 (decide_eq_true hk)) (not_le.mpr hlt)
  | _ => rw [hp] at h; cases h

end Calls

section Sample

def hourly : KeySettings := ⟨"tenant", 3600, 60⟩

def oneKey : Fetched (List (Jwk String)) := .document [⟨some "kid", some "key"⟩]

def openIdDocument : Fetched OpenIDDocument :=
  .document ⟨some "https://{tenantid}.example", some "https://keys.example"⟩

def firstCall : List (KeyAction String) :=
  [.signingKey 0 "kid", .acquire 0, .request 0, .openId 0 openIdDocument, .request 0,
    .jwks 0 oneKey]

/-- Two forged key ids; the second call waits a minute after the request of the first. -/
def forgedIdsInTurn : List (KeyAction String) :=
  firstCall ++ [.tick 6000, .signingKey 1 "forged", .acquire 1, .request 1, .jwks 1 .unreadable,
    .signingKey 2 "forged", .tick 6060, .acquire 2, .request 2, .jwks 2 oneKey]

def forgedIdsAtOnce : List (KeyAction String) :=
  firstCall ++ [.tick 6000, .signingKey 1 "forged", .acquire 1, .request 1, .jwks 1 .unreadable,
    .tick 6001, .signingKey 2 "forged", .acquire 2, .request 2, .jwks 2 .unreadable]

theorem requests_are_rate_limited_forgedIdsInTurn :
    ∃ s, exec (guarded (step hourly) (PausesAfterFailure hourly)) (initial 5000) forgedIdsInTurn =
        some s ∧
      s.attempts.map (·.start) = [6060, 6000, 5000] ∧ Spaced hourly s.attempts := by
  have h : (exec (guarded (step hourly) (PausesAfterFailure hourly)) (initial 5000)
      forgedIdsInTurn).map (·.attempts.map (·.start)) = some [6060, 6000, 5000] := by
    decide +kernel
  obtain ⟨s, hr, ha⟩ := Option.map_eq_some_iff.mp h
  exact ⟨s, hr, ha, requests_are_rate_limited (by decide) (Reach.of_exec hr)⟩

/-- One second lies between two requests made with keys cached. -/
theorem requests_too_close_forgedIdsAtOnce :
    ∃ s, exec (step hourly) (initial 5000) forgedIdsAtOnce = some s ∧
      s.attempts = [⟨6001, true, true⟩, ⟨6000, true, true⟩, ⟨5000, false, false⟩] ∧
      ¬ Spaced hourly s.attempts := by
  have h : (exec (step hourly) (initial 5000) forgedIdsAtOnce).map (·.attempts) =
      some [⟨6001, true, true⟩, ⟨6000, true, true⟩, ⟨5000, false, false⟩] := by decide +kernel
  obtain ⟨s, hr, ha⟩ := Option.map_eq_some_iff.mp h
  refine ⟨s, hr, ha, fun hsp => ?_⟩
  rw [ha] at hsp
  exact absurd ((List.isChain_cons_cons.mp hsp).1 rfl) (by decide +kernel)

end Sample

end KeySource

end KitchenSense
