import KitchenSense.Provider.BackOff

/-! # The engines of the provider

An engine holds connections until `dispose` closes it. A closed engine is never
kept, and no factory of one is handed out. A `dispose` that ends after the engine
it closes has been replaced drops the new engine, which may never be closed; where
no two calls of `dispose` overlap, every engine made is kept or closed.
-/

namespace KitchenSense

open Provider (IsDispose ClosesKept Ordered passive_proceed moves_of_step forall_enter)

/-- The provider, and the engines that it has closed, in order. -/
structure Engines where
  provider : Provider
  closed : List ℕ

namespace Engines

def closes (d : Provider) : DatabaseAction → List ℕ
  | .disposed i none =>
    match d.phase i with
    | .disposing engine => [engine]
    | _ => []
  | _ => []

variable {ν ρ : Type} (sa : SqlAlchemy ν ρ) (env : Environment) (cfg : DatabaseSettings)

def initial (now : Seconds) : Engines := ⟨.initial now, []⟩

def step [UnicodeTables] (s : Engines) (action : DatabaseAction) : Option Engines :=
  (Provider.step sa env cfg s.provider action).map fun provider =>
    { provider, closed := s.closed ++ closes s.provider action }

def Accounted (s : Engines) : Prop :=
  ∀ engine < s.provider.db.enginesMade, s.provider.db.engine = some engine ∨ engine ∈ s.closed

/-- A call of `dispose` does not begin while another closes an engine. -/
def Apart (s : Engines) (action : DatabaseAction) : Prop :=
  IsDispose action → ∀ i engine, s.provider.phase i ≠ .disposing engine

variable {sa env cfg} {s s' : Engines} {action : DatabaseAction} {now : Seconds}

section Changes

variable {d d' : Provider}

def NoneBegun (d d' : Provider) : Prop :=
  ∀ i engine, d'.phase i = .disposing engine → d.phase i = .disposing engine

/-- What a step does to the engine kept and to the calls that close one. -/
inductive Changes (d : Provider) (action : DatabaseAction) (d' : Provider) : Prop
  | same (ha : ∀ i, action ≠ .disposed i none) (he : d'.db.engine = d.db.engine)
      (hm : d'.db.enginesMade = d.db.enginesMade) (hp : NoneBegun d d')
  | made (ha : ∀ i, action ≠ .disposed i none) (hn : d.db.engine = none)
      (he : d'.db.engine = some d.db.enginesMade)
      (hm : d'.db.enginesMade = d.db.enginesMade + 1) (hp : NoneBegun d d')
  | begun (i engine : ℕ) (ha : action = .dispose i) (hk : d.db.engine = some engine)
      (hd : d' = d.enter i (.disposing engine))
  | ended (i engine : ℕ) (ha : action = .disposed i none) (hp : d.phase i = .disposing engine)
      (hd : d' = { d.enter i (.ended .disposed) with db := d.db.cleared })

theorem noneBegun_of_phase {i : ℕ} {p : DatabasePhase} (hp : ∀ engine, p ≠ .disposing engine)
    (h : d'.phase = Function.update d.phase i p) : NoneBegun d d' := by
  intro j engine hj
  rw [h] at hj
  by_cases hij : j = i
  · subst hij
    rw [Function.update_self] at hj
    exact absurd hj (hp engine)
  · rwa [Function.update_of_ne hij] at hj

/-- A call that finds no factory makes an engine, or changes none. -/
theorem changes_of_ends {r : Except SessionError ℕ × Database} (hr : Database.Ends d.db r)
    (ha : ∀ i, action ≠ .disposed i none) (hn : d.db.engine = none) (he : d'.db = r.2)
    (hp : NoneBegun d d') : Changes d action d' := by
  cases hr with
  | made hengine _ hm => exact .made ha hn (he ▸ hengine) (he ▸ hm) hp
  | unavailable _ hengine _ hm => exact .same ha (he ▸ hengine) (he ▸ hm) hp
  | sqlAlchemy _ hengine _ hm => exact .same ha (he ▸ hengine) (he ▸ hm) hp

theorem changes_of_step [UnicodeTables] (hd : Ordered d)
    (h : Provider.step sa env cfg d action = some d') : Changes d action d' := by
  by_cases ha : ∀ i, action ≠ .disposed i none
  · cases moves_of_step h with
    | tick => exact .same ha rfl rfl fun _ _ h => h
    | turn hp => exact .same ha rfl rfl (noneBegun_of_phase (fun _ => hp.ne_disposing) rfl)
    | kept =>
      exact .same ha rfl rfl (noneBegun_of_phase (fun _ => passive_proceed.ne_disposing) rfl)
    | settle hl hf hstart =>
      exact changes_of_ends (Database.ends_of_startSessionmaker hstart) ha (hd.engine.trans hf) rfl
        (noneBegun_of_phase (fun _ => passive_proceed.ne_disposing) rfl)
    | ask hl hf hstart =>
      obtain ⟨rfl, -⟩ := Database.startSessionmaker_eq_none hstart
      exact .same ha rfl rfl (noneBegun_of_phase (by simp) rfl)
    | @answer i call outcome hp =>
      exact changes_of_ends (Database.ends_endSessionmaker d.db) ha
        (hd.engine.trans (hd.lock i call hp).2) rfl
        (noneBegun_of_phase (fun _ => passive_proceed.ne_disposing) rfl)
    | dispose he => exact .begun _ _ rfl he rfl
    | clear => exact absurd rfl (ha _)
  · push Not at ha
    obtain ⟨i, rfl⟩ := ha
    rw [Provider.step] at h
    split at h
    next engine hp => cases h; exact .ended i engine rfl hp rfl
    next => cases h

theorem engine_of_handed [UnicodeTables] {engine : ℕ} (hd : Ordered d)
    (h : Provider.step sa env cfg d action = some d')
    (hr : d'.results = d.results ++ [.ok engine]) : d'.db.engine = some engine := by
  have given : ∀ {result : Except SessionError ℕ},
      d.results ++ [result] = d.results ++ [.ok engine] → result = .ok engine :=
    fun h => List.singleton_inj.mp (List.append_cancel_left h)
  cases moves_of_step h with
  | tick | turn | ask | dispose | clear => cases List.self_eq_append_right.mp hr
  | kept hf =>
    cases given hr
    exact hd.engine.trans hf
  | settle hl hf hstart =>
    have hends := Database.ends_of_startSessionmaker hstart
    exact (hends.engine_eq_factory hd.engine).trans (hends.factory_of_ok (given hr))
  | @answer i call outcome hp =>
    have hends : Database.Ends d.db (d.db.endSessionmaker sa env cfg d.clock outcome) :=
      Database.ends_endSessionmaker d.db
    exact (hends.engine_eq_factory hd.engine).trans (hends.factory_of_ok (given hr))

theorem closes_of_ne (ha : ∀ i, action ≠ .disposed i none) : closes d action = [] := by
  unfold closes
  split
  next i => exact absurd rfl (ha i)
  next => rfl

theorem closesKept_of_ne (ha : ∀ i, action ≠ .disposed i none) : ClosesKept d action := by
  unfold ClosesKept
  split
  next i => exact absurd rfl (ha i)
  next => trivial

end Changes

section Invariant

structure Sound (s : Engines) : Prop where
  ordered : Ordered s.provider
  closed : ∀ engine ∈ s.closed,
    engine < s.provider.db.enginesMade ∧ s.provider.db.engine ≠ some engine

theorem Sound.initial (now : Seconds) : Sound (initial now) where
  ordered := .initial now
  closed _ h := by cases h

variable [UnicodeTables]

theorem step_eq_some (h : step sa env cfg s action = some s') :
    Provider.step sa env cfg s.provider action = some s'.provider ∧
      s'.closed = s.closed ++ closes s.provider action := by
  obtain ⟨provider, hd, rfl⟩ := Option.map_eq_some_iff.mp h
  exact ⟨hd, rfl⟩

theorem Sound.step (hs : Sound s) (h : Engines.step sa env cfg s action = some s') : Sound s' := by
  obtain ⟨hd, hc⟩ := step_eq_some h
  refine ⟨hs.ordered.step hd, ?_⟩
  cases changes_of_step hs.ordered hd with
  | same ha he hm =>
    rw [hc, closes_of_ne ha, List.append_nil, he, hm]
    exact hs.closed
  | made ha hn he hm =>
    rw [hc, closes_of_ne ha, List.append_nil, he, hm]
    intro engine hengine
    have hlt := (hs.closed engine hengine).1
    exact ⟨Nat.lt_succ_of_lt hlt, fun heq => hlt.ne (Option.some.inj heq).symm⟩
  | begun i engine ha hk heq =>
    rw [hc, ha, heq]
    rw [closes_of_ne (by simp), List.append_nil]
    exact hs.closed
  | ended i engine ha hp heq =>
    rw [hc, ha, heq, closes, hp]
    intro other hother
    refine ⟨?_, by simp [Database.cleared]⟩
    rcases List.mem_append.mp hother with hm | hm
    · exact (hs.closed other hm).1
    · rw [List.mem_singleton.mp hm]
      exact hs.ordered.disposing i engine hp

theorem Sound.reach (h : Reachable (Engines.step sa env cfg) (Engines.initial now) s) : Sound s :=
  h.invariant (.initial now) fun _ _ _ hs _ h => hs.step h

theorem Sound.accounted_iff (hs : Sound s) (hacc : Accounted s)
    (h : Engines.step sa env cfg s action = some s') :
    Accounted s' ↔ ClosesKept s.provider action := by
  obtain ⟨hd, hc⟩ := step_eq_some h
  cases changes_of_step hs.ordered hd with
  | same ha he hm =>
    rw [Accounted, hc, closes_of_ne ha, List.append_nil, he, hm]
    exact iff_of_true hacc (closesKept_of_ne ha)
  | made ha hn he hm =>
    rw [Accounted, hc, closes_of_ne ha, List.append_nil, he, hm]
    refine iff_of_true (fun engine hlt => ?_) (closesKept_of_ne ha)
    rcases Nat.lt_succ_iff_lt_or_eq.mp hlt with hlt | rfl
    · refine .inr ((hacc engine hlt).resolve_left ?_)
      rw [hn]
      rintro ⟨⟩
    · exact .inl rfl
  | begun i engine ha hk heq =>
    rw [Accounted, hc, ha, heq, closes_of_ne (by simp), List.append_nil]
    exact iff_of_true hacc (closesKept_of_ne (by simp))
  | ended i engine ha hp heq =>
    rw [Accounted, hc, ha, heq, closes, hp]
    change (∀ other < s.provider.db.enginesMade, none = some other ∨
      other ∈ s.closed ++ [engine]) ↔ ∀ kept ∈ s.provider.db.engine, s.provider.phase i = _
    constructor
    · intro hacc' kept hkept
      rcases List.mem_append.mp ((hacc' kept (hs.ordered.made kept hkept)).resolve_left (by simp))
        with hm | hm
      · exact absurd hkept (hs.closed kept hm).2
      · rw [List.mem_singleton.mp hm, hp]
    · intro hkept other hlt
      refine .inr (List.mem_append.mpr ((hacc other hlt).symm.imp_right fun hk => ?_))
      have heq := hp.symm.trans (hkept other hk)
      exact List.mem_singleton.mpr (by cases heq; rfl)

end Invariant

section Apart

variable [UnicodeTables]

def Single (d : Provider) : Prop :=
  ∀ i engine, d.phase i = .disposing engine → d.db.engine = some engine ∧
    ∀ j other, d.phase j = .disposing other → j = i

theorem Single.step (hd : Single s.provider) (hs : Sound s) (hok : Apart s action)
    (h : Engines.step sa env cfg s action = some s') : Single s'.provider := by
  obtain ⟨hstep, -⟩ := step_eq_some h
  cases changes_of_step hs.ordered hstep with
  | same ha he hm hp =>
    intro i engine hi
    obtain ⟨hk, honly⟩ := hd i engine (hp i engine hi)
    exact ⟨he.trans hk, fun j other hj => honly j other (hp j other hj)⟩
  | made ha hn he hm hp =>
    intro i engine hi
    cases hn.symm.trans (hd i engine (hp i engine hi)).1
  | begun i engine ha hk heq =>
    have hnone := hok (by rw [ha]; trivial)
    rw [heq]
    have honly : ∀ j other, (s.provider.enter i (.disposing engine)).phase j = .disposing other →
        j = i ∧ other = engine :=
      forall_enter (Q := fun j p => ∀ other, p = .disposing other → j = i ∧ other = engine)
        (by rintro other ⟨⟩; exact ⟨rfl, rfl⟩) fun j _ other hj => absurd hj (hnone j other)
    intro j other hj
    obtain ⟨rfl, rfl⟩ := honly j other hj
    exact ⟨hk, fun k third hk => (honly k third hk).1⟩
  | ended i engine ha hp heq =>
    rw [heq]
    intro j other hj
    by_cases hij : j = i
    · subst hij
      cases (Function.update_self ..).symm.trans hj
    · have hj' : s.provider.phase j = .disposing other :=
        (Function.update_of_ne hij ..).symm.trans hj
      exact absurd ((hd i engine hp).2 j other hj') hij

/-- The one call that closes an engine closes the one kept. -/
theorem Single.closesKept (hd : Single s.provider)
    (h : Engines.step sa env cfg s action = some s') : ClosesKept s.provider action := by
  unfold ClosesKept
  split
  next i =>
    obtain ⟨hstep, -⟩ := step_eq_some h
    rw [Provider.step] at hstep
    split at hstep
    next engine hp =>
      intro kept hkept
      cases (hd i engine hp).1.symm.trans hkept
      exact hp
    next => cases hstep
  next => trivial

end Apart

section Results

variable [UnicodeTables]

structure EnginesAccounted (sa : SqlAlchemy ν ρ) (env : Environment) (cfg : DatabaseSettings)
    (now : Seconds) : Prop where
  /-- A call is given the factory of the engine kept, which has not been closed. -/
  handed : ∀ s action s' engine, Reachable (step sa env cfg) (initial now) s →
    step sa env cfg s action = some s' →
    s'.provider.results = s.provider.results ++ [.ok engine] →
      s'.provider.db.engine = some engine ∧ engine ∉ s'.closed
  /-- No engine is lost along a run exactly when each `dispose` that ends has closed the engine that
  is kept, if one is. -/
  accounted : ∀ actions s, exec (step sa env cfg) (initial now) actions = some s →
    (Throughout (step sa env cfg) (fun s action => ClosesKept s.provider action) (initial now)
        actions ↔
      ∀ n t, exec (step sa env cfg) (initial now) (actions.take n) = some t → Accounted t)
  /-- No engine is lost where the calls of `dispose` do not overlap. -/
  apart : ∀ s, Reach (step sa env cfg) Apart (initial now) s → Accounted s

/-- An engine is lost only to a `dispose` that has closed another one. -/
theorem engines_accounted (now : Seconds) : EnginesAccounted sa env cfg now where
  handed s action s' engine hreach h hr := by
    have hs := Sound.reach hreach
    have hk := engine_of_handed hs.ordered (step_eq_some h).1 hr
    exact ⟨hk, fun hm => ((hs.step h).closed engine hm).2 hk⟩
  accounted actions s h :=
    throughout_iff_forall_take (fun _ _ _ hs h => Sound.step hs h)
      (fun _ _ _ hs hacc h => hs.accounted_iff hacc h) (.initial now) (by rintro _ ⟨⟩) h
  apart s h := by
    have hinv : Sound s ∧ Accounted s ∧ Single s.provider := by
      refine h.invariant (I := fun s => Sound s ∧ Accounted s ∧ Single s.provider)
        ⟨.initial now, by rintro _ ⟨⟩, by rintro _ _ ⟨⟩⟩ ?_
      rintro s₁ action s₂ ⟨hs, hacc, hd⟩ hok hstep
      exact ⟨hs.step hstep, (hs.accounted_iff hacc hstep).mpr (hd.closesKept hstep),
        hd.step hs hok hstep⟩
    exact hinv.2.1

open Database (plainSqlAlchemy noUrl thirtySeconds)

/-- The engine of the second lookup is neither kept nor closed. -/
example :
    letI := asciiTables
    (exec (step plainSqlAlchemy noUrl thirtySeconds) (initial 0)
      (Provider.disposedTwice ++ [.vault 3 Provider.vaultUrl, .disposed 2 none])).map (fun s =>
        (s.provider.db.enginesMade, s.provider.db.engine, s.closed)) = some (2, none, [0, 0]) := by
  decide +kernel

end Results

end Engines

end KitchenSense
