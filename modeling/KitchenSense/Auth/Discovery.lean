import KitchenSense.Auth.KeySource

/-! # The configuration is discovered once

One call at a time holds the lock. The OpenID document is requested by the
holder, and only while no configuration is kept. So one document decides the
issuer, whatever documents the provider would send later.
-/

namespace KitchenSense

namespace KeySource

variable {κ : Type} {cfg : KeySettings} {s s' t : KeySource κ} {action : KeyAction κ} {i j : ℕ}
  {p : KeyPhase κ} {call : KeyCall}

theorem not_holding_lookUp (hp : ¬ p.Holding) : ¬ (s.lookUp call p).Holding := by
  rw [lookUp]
  split
  · exact id
  · exact hp

section Lock

def Exclusive (s : KeySource κ) : Prop := ∀ i, (s.phase i).Holding → s.lock = some i

theorem Exclusive.initial (now : Seconds) : Exclusive (initial now : KeySource κ) :=
  fun _ h => h.elim

theorem Exclusive.holder (hs : Exclusive s) (hi : (s.phase i).Holding)
    (hj : (s.phase j).Holding) : j = i :=
  Option.some.inj ((hs j hj).symm.trans (hs i hi))

theorem Exclusive.free (hs : Exclusive s) (hl : s.lock = none) : ¬ (s.phase j).Holding := by
  intro hj
  cases hl.symm.trans (hs j hj)

theorem Exclusive.enter (hs : Exclusive s) (hp : p.Holding → (s.phase i).Holding) :
    Exclusive (s.enter i p) := by
  intro j hj
  by_cases h : j = i
  · subst h
    rw [enter_phase, Function.update_self] at hj
    exact hs j (hp hj)
  · rw [enter_phase, Function.update_of_ne h] at hj
    exact hs j hj

theorem Exclusive.take (hs : Exclusive s) (hl : s.lock = none) : Exclusive (s.take i p) := by
  intro j hj
  by_cases h : j = i
  · exact h ▸ rfl
  · rw [KeySource.take, enter_phase, Function.update_of_ne h] at hj
    exact absurd hj (hs.free hl)

theorem Exclusive.not_holding_leave (hs : Exclusive s) (hi : (s.phase i).Holding)
    (hp : ¬ p.Holding) (j : ℕ) : ¬ ((s.leave i p).phase j).Holding := by
  intro hj
  change ((s.enter i p).phase j).Holding at hj
  by_cases h : j = i
  · subst h
    rw [enter_phase, Function.update_self] at hj
    exact hp hj
  · rw [enter_phase, Function.update_of_ne h] at hj
    exact h (hs.holder hi hj)

theorem Exclusive.leave (hs : Exclusive s) (hi : (s.phase i).Holding) (hp : ¬ p.Holding) :
    Exclusive (s.leave i p) :=
  fun j hj => absurd hj (hs.not_holding_leave hi hp j)

theorem Exclusive.step (hs : Exclusive s) (h : KeySource.step cfg s action = some s') :
    Exclusive s' := by
  cases moves_of_step h with
  | tick hn => exact hs
  | answer hi ha => exact hs.enter fun hp => by cases ha <;> exact hp.elim
  | wait hk hp => exact hs.enter fun hp => hp.elim
  | read hp hn he => exact hs.enter fun hp => absurd hp (not_holding_lookUp id)
  | reread hp hk => exact hs.enter fun hp => hp.elim
  | refreshExpired hl hp he => exact hs.take hl
  | refreshUnknown hl hp ht => exact hs.take hl
  | discover hl hp hc => exact hs.take hl
  | requestOpenId hp hc => exact hs.enter fun _ => by rw [hp]; trivial
  | @requestJwks i reason call hp hc =>
    exact Exclusive.enter (s := s.recordAttempt) hs fun _ => by
      show (s.phase i).Holding
      rw [hp]; trivial
  | @configure i reason call fetched document configuration hp hd =>
    exact Exclusive.enter (s := s.configure document configuration) hs fun _ => by
      show (s.phase i).Holding
      rw [hp]; trivial
  | @configureAlone i fetched document configuration hp hd =>
    have hi : (s.phase i).Holding := by rw [hp]; trivial
    exact Exclusive.leave (s := s.configure document configuration) hs hi id
  | openIdFailed hi hf => exact hs.leave hi id
  | @install i reason call entries hp hk =>
    have hi : (s.phase i).Holding := by rw [hp]; trivial
    have hm : ¬ (missingAfter reason call : KeyPhase κ).Holding := by cases reason <;> exact id
    exact Exclusive.leave (s := s.install entries) hs hi (not_holding_lookUp hm)
  | @jwksFailed i reason call fetched e hp hf =>
    have hi : (s.phase i).Holding := by rw [hp]; trivial
    exact Exclusive.leave (s := s.markFailed) hs hi id

end Lock

section Configuration

/-- The kept configuration is that of the only document it was read from. -/
def ReadOnce (cfg : KeySettings) (documents : List OpenIDDocument) :
    Option OpenIDConfiguration → Prop
  | none => documents = []
  | some configuration => ∃ document, documents = [document] ∧
      OpenIDConfiguration.ofDocument cfg.tenantId document = .ok configuration

/-- A call asks for the document while no configuration is kept, and gets the one that is. -/
def Settled (s : KeySource κ) : KeyPhase κ → Prop
  | .discovering _ _ | .discoveringConfiguration => s.configuration = none
  | .configured configuration => s.configuration = some configuration
  | _ => True

/-- The configuration is read once, and every call gets it. -/
structure Discovered (cfg : KeySettings) (s : KeySource κ) : Prop where
  lock : Exclusive s
  once : ReadOnce cfg s.documents s.configuration
  settled : ∀ i, Settled s (s.phase i)

theorem Discovered.initial (now : Seconds) : Discovered cfg (initial now : KeySource κ) :=
  ⟨.initial now, rfl, fun _ => trivial⟩

theorem Discovered.settled_of_phase (hs : Discovered cfg s) (hp : s.phase i = p) : Settled s p :=
  hp ▸ hs.settled i

theorem settled_congr (h : t.configuration = s.configuration) (hp : Settled s p) :
    Settled t p := by
  cases p <;> simp only [Settled, h] at hp ⊢ <;> exact hp

theorem settled_lookUp (hp : Settled s p) : Settled s (s.lookUp call p) := by
  rw [lookUp]
  split
  · trivial
  · exact hp

theorem Discovered.move (hs : Discovered cfg s) (ht : Exclusive t) (hp : Settled s p)
    (hphase : t.phase = Function.update s.phase i p) (hdocs : t.documents = s.documents)
    (hconf : t.configuration = s.configuration) : Discovered cfg t := by
  refine ⟨ht, ?_, ?_⟩
  · rw [hdocs, hconf]; exact hs.once
  · rw [hphase, Function.forall_update_iff s.phase fun _ => Settled t]
    exact ⟨settled_congr hconf hp, fun j _ => settled_congr hconf (hs.settled j)⟩

theorem Discovered.configure (hs : Discovered cfg s) (hi : (s.phase i).Holding)
    (hnone : s.configuration = none) {document : OpenIDDocument}
    {configuration : OpenIDConfiguration}
    (hd : OpenIDConfiguration.ofDocument cfg.tenantId document = .ok configuration)
    (ht : Exclusive t) (hp : Settled t p) (hphase : t.phase = Function.update s.phase i p)
    (hdocs : t.documents = s.documents ++ [document])
    (hconf : t.configuration = some configuration) : Discovered cfg t := by
  have honce : s.documents = [] := by
    have h := hs.once
    rwa [hnone] at h
  refine ⟨ht, ?_, ?_⟩
  · rw [hdocs, hconf, honce]
    exact ⟨document, rfl, hd⟩
  · rw [hphase, Function.forall_update_iff s.phase fun _ => Settled t]
    refine ⟨hp, fun j h => ?_⟩
    have hfree : ¬ (s.phase j).Holding := fun hj => h (hs.lock.holder hi hj)
    have hj := hs.settled j
    cases hpj : s.phase j with
    | discovering reason call => rw [hpj] at hfree; exact absurd trivial hfree
    | discoveringConfiguration => rw [hpj] at hfree; exact absurd trivial hfree
    | configured configuration' => rw [hpj] at hj; cases hnone.symm.trans hj
    | _ => trivial

theorem Discovered.step (hs : Discovered cfg s) (h : KeySource.step cfg s action = some s') :
    Discovered cfg s' := by
  have hl := hs.lock.step h
  cases moves_of_step h with
  | tick hn => exact ⟨hs.lock, hs.once, hs.settled⟩
  | answer hi ha =>
    refine hs.move hl ?_ rfl rfl rfl
    cases ha with
    | refused e => trivial
    | awaitingConfiguration => trivial
    | configured hc => exact hc
  | wait hk hp => exact hs.move (p := .awaitingCached _) hl trivial rfl rfl rfl
  | @read _ i call hp hn he =>
    have hread : Settled s (s.lookUp call (.awaitingUnknown call)) := settled_lookUp trivial
    exact hs.move hl hread rfl rfl rfl
  | @reread i call key hp hk =>
    exact hs.move (p := .found call key _) hl trivial rfl rfl rfl
  | @refreshExpired i call hl' hp he =>
    exact hs.move (p := .refreshing _ call) hl trivial rfl rfl rfl
  | @refreshUnknown i call hl' hp ht =>
    exact hs.move (p := .refreshing _ call) hl trivial rfl rfl rfl
  | discover hl' hp hc => exact hs.move (p := .discoveringConfiguration) hl hc rfl rfl rfl
  | @requestOpenId i reason call hp hc =>
    exact hs.move (p := .discovering reason call) hl hc rfl rfl rfl
  | @requestJwks i reason call hp hc =>
    exact hs.move (p := .fetching reason call) hl trivial rfl rfl rfl
  | @configure i reason call fetched document configuration hp hd =>
    have hi : (s.phase i).Holding := by rw [hp]; trivial
    have hc : s.configuration = none := hs.settled_of_phase hp
    exact hs.configure (p := .refreshing reason call) hi hc hd hl trivial rfl rfl rfl
  | @configureAlone i fetched document configuration hp hd =>
    have hi : (s.phase i).Holding := by rw [hp]; trivial
    have hc : s.configuration = none := hs.settled_of_phase hp
    exact hs.configure (p := .configured configuration) hi hc hd hl rfl rfl rfl rfl
  | openIdFailed hi hf => exact hs.move (p := .refused _) hl trivial rfl rfl rfl
  | @install i reason call entries hp hk =>
    have hm : Settled (s.install entries) (missingAfter reason call) := by
      cases reason <;> trivial
    have hs' : Discovered cfg (s.install entries) := ⟨hs.lock, hs.once, hs.settled⟩
    exact hs'.move hl (settled_lookUp hm) rfl rfl rfl
  | jwksFailed hp hf => exact hs.move (p := .refused _) hl trivial rfl rfl rfl

/-- The configuration stays once it is read. -/
theorem Discovered.stays (hs : Discovered cfg s) (h : KeySource.step cfg s action = some s')
    {configuration : OpenIDConfiguration} (hc : s.configuration = some configuration) :
    s'.configuration = some configuration := by
  cases moves_of_step h with
  | @configure i reason call fetched document configuration' hp hd =>
    have hnone : s.configuration = none := hs.settled_of_phase hp
    cases hc.symm.trans hnone
  | @configureAlone i fetched document configuration' hp hd =>
    have hnone : s.configuration = none := hs.settled_of_phase hp
    cases hc.symm.trans hnone
  | _ => exact hc

end Configuration

end KeySource

end KitchenSense
