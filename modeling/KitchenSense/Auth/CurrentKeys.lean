import KitchenSense.Auth.KeySource

/-! # The cached keys are current

The cached keys are those of the newest key set, with its time. A key that a
call finds is the one the newest key set lists, and that set is younger than
its time to live or was cached while the call ran: a call that missed its key
and finds it later finds it in another set.
-/

namespace KitchenSense

namespace KeySource

variable {κ : Type} {cfg : KeySettings} {s s' t : KeySource κ} {action : KeyAction κ} {i : ℕ}
  {p : KeyPhase κ} {call : KeyCall} {key : κ} {lookup : Lookup} {keySets : List (KeySet κ)}

/-- The key set that was the newest at a lookup lists the key last under the id of the call, and
was young enough then or had been cached since the call began. -/
def Current (cfg : KeySettings) (keySets : List (KeySet κ)) (call : KeyCall) (key : κ)
    (lookup : Lookup) : Prop :=
  lookup.keySets ≤ keySets.length ∧ ∃ set, (keySets.take lookup.keySets).getLast? = some set ∧
    lastListed call.kid set.entries = some key ∧
    (lookup.at_ - set.fetchedAt < cfg.cacheSeconds ∨ call.began < lookup.keySets)

theorem Current.append (h : Current cfg keySets call key lookup) (set : KeySet κ) :
    Current cfg (keySets ++ [set]) call key lookup := by
  obtain ⟨hle, hset⟩ := h
  refine ⟨hle.trans (by simp), ?_⟩
  rwa [List.take_append_of_le_length hle]

/-- What a call holds can be relied on; a call that missed its key has not overlooked it. -/
def Trusted (cfg : KeySettings) (s : KeySource κ) : KeyPhase κ → Prop
  | .awaitingCached call | .refreshing _ call | .discovering _ call | .fetching _ call =>
    call.kid ≠ "" ∧ call.began ≤ s.keySets.length
  | .awaitingUnknown call => (call.kid ≠ "" ∧ call.began ≤ s.keySets.length) ∧
    (s.keys.get? call.kid = none ∨ call.began < s.keySets.length)
  | .found call key lookup => call.kid ≠ "" ∧ Current cfg s.keySets call key lookup
  | _ => True

structure Cached (cfg : KeySettings) (s : KeySource κ) : Prop where
  newest : (s.keySets = [] ∧ s.keys = .empty) ∨ ∃ set, s.keySets.getLast? = some set ∧
    s.keys = keysOf set.entries ∧ s.keysFetchedAt = set.fetchedAt
  trusted : ∀ i, Trusted cfg s (s.phase i)

theorem Cached.initial (now : Seconds) : Cached cfg (initial now : KeySource κ) :=
  ⟨.inl ⟨rfl, rfl⟩, fun _ => trivial⟩

theorem Cached.trusted_of_phase (hs : Cached cfg s) (hp : s.phase i = p) : Trusted cfg s p :=
  hp ▸ hs.trusted i

theorem Cached.move (hs : Cached cfg s) (hp : Trusted cfg s p)
    (hphase : t.phase = Function.update s.phase i p) (hsets : t.keySets = s.keySets)
    (hkeys : t.keys = s.keys) (hat : t.keysFetchedAt = s.keysFetchedAt) : Cached cfg t := by
  constructor
  · rw [hsets, hkeys, hat]; exact hs.newest
  · have hq : ∀ q, Trusted cfg s q → Trusted cfg t q := by
      intro q hq
      cases q <;> simp only [Trusted, hsets, hkeys] at hq ⊢ <;> exact hq
    rw [hphase, Function.forall_update_iff s.phase fun _ => Trusted cfg t]
    exact ⟨hq p hp, fun j _ => hq _ (hs.trusted j)⟩

/-- A key found among the cached keys is current when these are young enough or newer than the
call. -/
theorem Cached.trusted_lookUp (hs : Cached cfg s) (hcall : call.kid ≠ "")
    (hfresh : ¬ s.Expired cfg ∨ call.began < s.keySets.length)
    (hp : s.keys.get? call.kid = none → Trusted cfg s p) : Trusted cfg s (s.lookUp call p) := by
  rw [lookUp]
  split
  next key hk =>
    rcases hs.newest with ⟨-, he⟩ | ⟨set, hset, hkeys, hat⟩
    · rw [he] at hk; cases hk
    · refine ⟨hcall, le_rfl, set, ?_, ?_, ?_⟩
      · rw [List.take_length]; exact hset
      · rw [← get?_keysOf, ← hkeys]; exact hk
      · rw [← hat]
        exact hfresh.imp_left not_le.mp
  next hk => exact hp hk

theorem Cached.install (hs : Cached cfg s) (entries : List (Jwk κ)) :
    Cached cfg (s.install entries) := by
  refine ⟨.inr ⟨⟨entries, s.clock⟩, by simp [KeySource.install], rfl, rfl⟩, fun j => ?_⟩
  have hlen : (s.install entries).keySets.length = s.keySets.length + 1 := by
    simp [KeySource.install]
  have hj := hs.trusted j
  show Trusted cfg (s.install entries) (s.phase j)
  cases hp : s.phase j with
  | awaitingUnknown call =>
    rw [hp] at hj
    obtain ⟨⟨hk, hb⟩, -⟩ := hj
    exact ⟨⟨hk, by omega⟩, .inr (by omega)⟩
  | found call key lookup =>
    rw [hp] at hj
    exact ⟨hj.1, hj.2.append _⟩
  | awaitingCached call => rw [hp] at hj; exact ⟨hj.1, hj.2.trans (by omega)⟩
  | refreshing reason call => rw [hp] at hj; exact ⟨hj.1, hj.2.trans (by omega)⟩
  | discovering reason call => rw [hp] at hj; exact ⟨hj.1, hj.2.trans (by omega)⟩
  | fetching reason call => rw [hp] at hj; exact ⟨hj.1, hj.2.trans (by omega)⟩
  | _ => trivial

theorem Cached.step (hs : Cached cfg s) (h : KeySource.step cfg s action = some s') :
    Cached cfg s' := by
  cases moves_of_step h with
  | tick hn => exact ⟨hs.newest, hs.trusted⟩
  | answer hi ha =>
    exact hs.move (by cases ha <;> trivial) rfl rfl rfl rfl
  | wait hk hp => exact hs.move (p := .awaitingCached _) ⟨hk, le_rfl⟩ rfl rfl rfl rfl
  | @read _ i call hp hn he =>
    have hcall : call.kid ≠ "" ∧ call.began ≤ s.keySets.length := by
      rcases hp with hp | ⟨-, hk, hb⟩
      · exact hs.trusted_of_phase hp
      · exact ⟨hk, hb.le⟩
    have hread := hs.trusted_lookUp hcall.1 (.inl he) (p := .awaitingUnknown call)
      fun hk => ⟨hcall, .inl hk⟩
    exact hs.move hread rfl rfl rfl rfl
  | @reread i call key hp hk =>
    obtain ⟨hcall, hb⟩ := hs.trusted_of_phase hp
    have hb : call.began < s.keySets.length := hb.resolve_left (by rw [hk]; simp)
    have hread := hs.trusted_lookUp (p := .idle) hcall.1 (.inr hb) fun _ => trivial
    rw [lookUp, hk] at hread
    exact hs.move hread rfl rfl rfl rfl
  | @refreshExpired i call hl hp he =>
    have hcall := hs.trusted_of_phase hp
    exact hs.move (p := .refreshing _ call) hcall rfl rfl rfl rfl
  | @refreshUnknown i call hl hp ht =>
    have hcall := hs.trusted_of_phase hp
    exact hs.move (p := .refreshing _ call) hcall.1 rfl rfl rfl rfl
  | discover hl hp hc =>
    exact hs.move (p := .discoveringConfiguration) trivial rfl rfl rfl rfl
  | @requestOpenId i reason call hp hc =>
    have hcall := hs.trusted_of_phase hp
    exact hs.move (p := .discovering reason call) hcall rfl rfl rfl rfl
  | @requestJwks i reason call hp hc =>
    have hcall := hs.trusted_of_phase hp
    exact hs.move (p := .fetching reason call) hcall rfl rfl rfl rfl
  | @configure i reason call fetched document configuration hp hd =>
    have hcall := hs.trusted_of_phase hp
    exact hs.move (p := .refreshing reason call) hcall rfl rfl rfl rfl
  | @configureAlone i fetched document configuration hp hd =>
    exact hs.move (p := .configured configuration) trivial rfl rfl rfl rfl
  | openIdFailed hi hf => exact hs.move (p := .refused _) trivial rfl rfl rfl rfl
  | @install i reason call entries hp hk =>
    have hcall := hs.trusted_of_phase hp
    have hle : call.began ≤ s.keySets.length := hcall.2
    have hb : call.began < (s.install entries).keySets.length := by
      simp only [KeySource.install, List.length_append, List.length_singleton]
      omega
    have hmiss : (s.install entries).keys.get? call.kid = none →
        Trusted cfg (s.install entries) (missingAfter reason call) := by
      intro hn
      cases reason with
      | expired => exact ⟨⟨hcall.1, hb.le⟩, .inl hn⟩
      | unknownKeyId => trivial
    have hread := (hs.install entries).trusted_lookUp hcall.1 (.inr hb) hmiss
    exact (hs.install entries).move hread rfl rfl rfl rfl
  | jwksFailed hp hf => exact hs.move (p := .refused _) trivial rfl rfl rfl rfl

theorem Cached.reach {ok : KeySource κ → KeyAction κ → Prop} {now : Seconds}
    (h : Reach (KeySource.step cfg) ok (KeySource.initial now) s) : Cached cfg s :=
  h.invariant (.initial now) fun _ _ _ hi _ h => hi.step h

theorem keys_of_step (h : step cfg s action = some s') :
    (∃ i entries, action = .jwks i (.document entries) ∧ (keysOf entries).entries ≠ []) ∨
      (s'.keys = s.keys ∧ s'.keysFetchedAt = s.keysFetchedAt) := by
  cases moves_of_step h with
  | @install i reason call entries hp hk => exact .inl ⟨i, entries, rfl, hk⟩
  | _ => exact .inr ⟨rfl, rfl⟩

theorem Current.step (hc : Current cfg s.keySets call key lookup)
    (h : KeySource.step cfg s action = some s') : Current cfg s'.keySets call key lookup := by
  cases moves_of_step h with
  | install hp hk => exact hc.append _
  | _ => exact hc

section KeyIds

variable {kid : String}

/-- A call that was begun with a key id, and is not done with it unless it was refused. -/
def Asks (kid : String) : KeyPhase κ → Prop
  | .idle => False
  | .awaitingCached call | .awaitingUnknown call | .refreshing _ call | .discovering _ call
  | .fetching _ call | .found call _ _ => call.kid = kid
  | _ => True

theorem asks_lookUp (hk : call.kid = kid) (hp : Asks kid p) : Asks kid (s.lookUp call p) := by
  rw [lookUp]
  split
  · exact hk
  · exact hp

theorem asks_update {j : ℕ} (hj : Asks kid (s.phase j)) (hp : j = i → Asks kid p) :
    Asks kid (Function.update s.phase i p j) := by
  by_cases h : j = i
  · rw [h, Function.update_self]; exact hp h
  · rw [Function.update_of_ne h]; exact hj

theorem asks_signingKey (h : step cfg s (.signingKey i kid) = some s') :
    Asks kid (s'.phase i) := by
  rw [step] at h
  cases hp : s.phase i with
  | idle =>
    rw [hp] at h
    dsimp only at h
    split at h
    next => cases h; rw [enter_phase, Function.update_self]; trivial
    next =>
      split at h
      next => cases h; rw [enter_phase, Function.update_self]; exact asks_lookUp rfl rfl
      next => cases h; rw [enter_phase, Function.update_self]; exact rfl
  | _ => rw [hp] at h; cases h

theorem asks_step {j : ℕ} (hj : Asks kid (s.phase j)) (h : step cfg s action = some s') :
    Asks kid (s'.phase j) := by
  cases moves_of_step h with
  | tick hn => exact hj
  | answer hi ha => exact asks_update hj fun _ => by cases ha <;> trivial
  | wait hk hp => exact asks_update hj fun hi => by subst hi; rw [hp] at hj; exact hj.elim
  | @read _ i call hp hn he =>
    refine asks_update hj ?_
    rintro rfl
    rcases hp with hp | ⟨hp, -⟩
    · have hk : call.kid = kid := (hp ▸ hj : Asks kid (.awaitingCached call))
      exact asks_lookUp hk hk
    · rw [hp] at hj; exact hj.elim
  | reread hp hk => exact asks_update hj fun hi => by subst hi; rw [hp] at hj; exact hj
  | refreshExpired hl hp he => exact asks_update hj fun hi => by subst hi; rw [hp] at hj; exact hj
  | refreshUnknown hl hp ht => exact asks_update hj fun hi => by subst hi; rw [hp] at hj; exact hj
  | discover hl hp hc => exact asks_update hj fun _ => trivial
  | requestOpenId hp hc => exact asks_update hj fun hi => by subst hi; rw [hp] at hj; exact hj
  | @requestJwks i reason call hp hc =>
    exact asks_update hj fun hi => by subst hi; rw [hp] at hj; exact hj
  | @configure i reason call fetched document configuration hp hd =>
    exact asks_update hj fun hi => by subst hi; rw [hp] at hj; exact hj
  | configureAlone hp hd => exact asks_update hj fun _ => trivial
  | openIdFailed hi hf => exact asks_update hj fun _ => trivial
  | @install i reason call entries hp hk =>
    refine asks_update hj ?_
    rintro rfl
    have hk : call.kid = kid := (hp ▸ hj : Asks kid (.fetching reason call))
    refine asks_lookUp hk ?_
    cases reason with
    | expired => exact hk
    | unknownKeyId => trivial
  | jwksFailed hp hf => exact asks_update hj fun _ => trivial

end KeyIds

end KeySource

end KitchenSense
