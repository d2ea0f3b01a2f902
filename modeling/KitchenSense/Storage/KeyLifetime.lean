import KitchenSense.Storage.BlobStore
import Mathlib.Data.List.Chain
import Mathlib.Tactic.Linarith

/-! # No upload URL outlives its key

A key is asked for by the holder of the lock, and only where no key is usable.
The deadline of the cached key is its expiry less the lifetime of a URL, so a
URL signed before the deadline ends before the key, and keys are fetched at
least that far apart.
-/

namespace KitchenSense

namespace ReceiptBlobStore

variable {κ : Type} {cfg : StorageSettings} {s s' t : ReceiptBlobStore κ} {i j : ℕ}
  {action : UploadAction κ} {call : UploadCall} {key : DelegationKey κ} {p : UploadPhase κ}

section Moves

inductive Moves (cfg : StorageSettings) (s : ReceiptBlobStore κ) :
    UploadAction κ → ReceiptBlobStore κ → Prop
  | refused {i : ℕ} {action : UploadAction κ} {e : StorageError} :
      Moves cfg s action (s.enter i (.failed e))
  | signed {i : ℕ} {call : UploadCall} {key : DelegationKey κ} {action : UploadAction κ} :
      s.usableKey call.requestedAt = some key → Moves cfg s action (s.enter i (sign cfg call key))
  | wait {i : ℕ} {call : UploadCall} {action : UploadAction κ} :
      Moves cfg s action (s.enter i (.awaitingLock call))
  | ask {i : ℕ} {call : UploadCall} {start expiry : Instant} :
      s.lock = none → s.usableKey call.requestedAt = none →
      shift call.requestedAt cfg.delegationKeyTtl = some expiry →
      Moves cfg s (.acquire i) { s.enter i (.fetching call start expiry) with lock := some i }
  | install {i : ℕ} {call : UploadCall} {start expiry usableUntil : Instant} {value : κ} :
      s.phase i = .fetching call start expiry →
      shift expiry (-cfg.uploadSasTtl) = some usableUntil →
      Moves cfg s (.fetched i (.key value))
        { (s.install call.requestedAt ⟨value, start, expiry⟩ (some usableUntil)).enter i
            (sign cfg call ⟨value, start, expiry⟩) with lock := none }
  | installOverflow {i : ℕ} {call : UploadCall} {start expiry : Instant} {value : κ} :
      s.phase i = .fetching call start expiry → shift expiry (-cfg.uploadSasTtl) = none →
      Moves cfg s (.fetched i (.key value))
        ((s.install call.requestedAt ⟨value, start, expiry⟩ none).refuse i .overflow)
  | unavailable {i : ℕ} {call : UploadCall} {start expiry : Instant} {outcome : KeyOutcome κ}
      {e : StorageError} : s.phase i = .fetching call start expiry → e.IsUnavailable →
      Moves cfg s (.fetched i outcome) (s.refuse i e)

theorem moves_of_step (h : step cfg s action = some s') : Moves cfg s action s' := by
  cases action with
  | uploadTicket i call =>
    rw [step] at h
    cases hp : s.phase i with
    | idle =>
      rw [hp] at h
      dsimp only at h
      split at h
      next => cases h; exact .refused
      next =>
        split at h
        next => cases h; exact .refused
        next =>
          split at h
          next hk => cases h; exact .signed hk
          next => cases h; exact .wait
    | _ => rw [hp] at h; cases h
  | acquire i =>
    rw [step, Option.ite_none_left_eq_some] at h
    obtain ⟨hl, h⟩ := h
    cases hp : s.phase i with
    | awaitingLock call =>
      rw [hp] at h
      dsimp only at h
      split at h
      next hk => cases h; exact .signed hk
      next hk =>
        split at h
        next he => cases h; exact .ask (not_not.mp hl) hk he
        next => cases h; exact .refused
    | _ => rw [hp] at h; cases h
  | fetched i outcome =>
    rw [step] at h
    cases hp : s.phase i with
    | fetching call start expiry =>
      rw [hp] at h
      cases outcome with
      | key value =>
        dsimp only at h
        split at h
        next hu => cases h; exact .install hp hu
        next hu => cases h; exact .installOverflow hp hu
      | failed reason => cases h; exact .unavailable hp trivial
      | timedOut => cases h; exact .unavailable hp trivial
    | _ => rw [hp] at h; cases h

end Moves

section Invariant

def Fetching : UploadPhase κ → Prop
  | .fetching _ _ _ => True
  | _ => False

/-- The cached key is the last one fetched, and its deadline a URL's lifetime before its expiry. -/
def CachedLast (cfg : StorageSettings) (s : ReceiptBlobStore κ) : Prop :=
  match s.key with
  | none => s.fetches = []
  | some key => ∃ now, s.fetches.getLast? = some ⟨now, key⟩ ∧
      s.keyUsableUntil = now + cfg.delegationKeyTtl - cfg.uploadSasTtl

/-- A call asks for a key where none is usable; a ticket ends before the key that signed it. -/
def PhaseOk (cfg : StorageSettings) (s : ReceiptBlobStore κ) : UploadPhase κ → Prop
  | .fetching call _ expiry => expiry = call.requestedAt + cfg.delegationKeyTtl ∧
      InDatetime expiry ∧ s.usableKey call.requestedAt = none
  | .issued _ ticket => ∃ fetch ∈ s.fetches, ticket.sas.userDelegationKey = fetch.key ∧
      ticket.expiresAt ≤ fetch.key.expiry
  | _ => True

def Spaced (cfg : StorageSettings) (a b : KeyFetch κ) : Prop :=
  a.now + cfg.delegationKeyTtl - cfg.uploadSasTtl ≤ b.now

structure KeyLifetime (cfg : StorageSettings) (s : ReceiptBlobStore κ) : Prop where
  lock : ∀ i, Fetching (s.phase i) → s.lock = some i
  cached : CachedLast cfg s
  expiry : ∀ fetch ∈ s.fetches, fetch.key.expiry = fetch.now + cfg.delegationKeyTtl
  spaced : s.fetches.IsChain (Spaced cfg)
  phases : ∀ i, PhaseOk cfg s (s.phase i)

theorem KeyLifetime.initial : KeyLifetime cfg (initial : ReceiptBlobStore κ) :=
  ⟨fun _ h => h.elim, rfl, List.forall_mem_nil _, .nil, fun _ => trivial⟩

theorem phaseOk_congr (hk : t.key = s.key) (hu : t.keyUsableUntil = s.keyUsableUntil)
    (hf : t.fetches = s.fetches) (hp : PhaseOk cfg s p) : PhaseOk cfg t p := by
  cases p <;> simp only [PhaseOk, usableKey, hk, hu, hf] at hp ⊢ <;> exact hp

theorem KeyLifetime.move (hs : KeyLifetime cfg s) (hp : PhaseOk cfg s p)
    (hl : ∀ j, Fetching (Function.update s.phase i p j) → t.lock = some j)
    (hphase : t.phase = Function.update s.phase i p) (hk : t.key = s.key)
    (hu : t.keyUsableUntil = s.keyUsableUntil) (hf : t.fetches = s.fetches) :
    KeyLifetime cfg t where
  lock := by
    rw [hphase]
    exact hl
  cached := by
    have hc := hs.cached
    unfold CachedLast at hc ⊢
    rw [hk, hu, hf]
    exact hc
  expiry := hf ▸ hs.expiry
  spaced := hf ▸ hs.spaced
  phases := by
    rw [hphase, Function.forall_update_iff s.phase fun _ => PhaseOk cfg t]
    exact ⟨phaseOk_congr hk hu hf hp, fun j _ => phaseOk_congr hk hu hf (hs.phases j)⟩

theorem KeyLifetime.not_fetching_of_ne (hs : KeyLifetime cfg s) (hi : Fetching (s.phase i))
    (h : j ≠ i) : ¬ Fetching (s.phase j) := by
  intro hj
  have hlock := (hs.lock i hi).symm.trans (hs.lock j hj)
  exact h (Option.some.inj hlock).symm

theorem fetching_update_of_not (hp : ¬ Fetching p) (h : Fetching (Function.update s.phase i p j)) :
    j ≠ i ∧ Fetching (s.phase j) := by
  by_cases hj : j = i
  · rw [hj, Function.update_self] at h
    exact absurd h hp
  · rw [Function.update_of_ne hj] at h
    exact ⟨hj, h⟩

theorem not_fetching_sign : ¬ Fetching (sign cfg call key) := by
  unfold sign
  split <;> exact id

theorem phaseOk_sign {now : Instant} (hm : ⟨now, key⟩ ∈ s.fetches)
    (he : call.requestedAt + cfg.uploadSasTtl ≤ key.expiry) :
    PhaseOk cfg s (sign cfg call key) := by
  unfold sign
  split
  next expiresAt start hexp hstart =>
    obtain ⟨rfl, -⟩ := shift_eq_some hexp
    exact ⟨_, hm, rfl, he⟩
  next => trivial

/-- A usable key is in the record and lasts a URL's lifetime. -/
theorem KeyLifetime.usable (hs : KeyLifetime cfg s) {now : Instant}
    (h : s.usableKey now = some key) :
    (∃ t, ⟨t, key⟩ ∈ s.fetches) ∧ now + cfg.uploadSasTtl ≤ key.expiry := by
  unfold usableKey at h
  split at h
  next hlt =>
    have hc := hs.cached
    unfold CachedLast at hc
    rw [h] at hc
    obtain ⟨t, hlast, hu⟩ := hc
    have hm := List.mem_of_getLast? hlast
    have he : key.expiry = t + cfg.delegationKeyTtl := hs.expiry _ hm
    have hend : now + cfg.uploadSasTtl ≤ key.expiry := by
      rw [he]
      linarith
    exact ⟨⟨t, hm⟩, hend⟩
  next => cases h

theorem inDatetime_deadline (h0 : 0 < cfg.uploadSasTtlSeconds)
    (h1 : cfg.uploadSasTtlSeconds ≤ cfg.delegationKeyTtlSeconds) {expiry : Instant}
    (he : expiry = call.requestedAt + cfg.delegationKeyTtl) (hin : InDatetime expiry) :
    InDatetime (expiry + -cfg.uploadSasTtl) := by
  have hpos : 0 ≤ cfg.uploadSasTtl := timedelta_nonneg h0.le
  have hle : cfg.uploadSasTtl ≤ cfg.delegationKeyTtl := timedelta_mono h1
  have hreq := call.requestedAt_valid
  exact ⟨by linarith [hreq.1], by linarith [hin.2]⟩

/-- Where no key is usable the last one fetched has passed its deadline. -/
theorem KeyLifetime.last_retired (hs : KeyLifetime cfg s) {now : Instant}
    (hk : s.usableKey now = none) {fetch : KeyFetch κ} (hf : fetch ∈ s.fetches.getLast?) :
    fetch.now + cfg.delegationKeyTtl - cfg.uploadSasTtl ≤ now := by
  have hc := hs.cached
  unfold CachedLast at hc
  cases hkey : s.key with
  | none =>
    rw [hkey] at hc
    rw [hc] at hf
    cases hf
  | some key =>
    rw [hkey] at hc
    obtain ⟨fetchedAt, hlast, hdeadline⟩ := hc
    cases hlast.symm.trans hf
    have hlate : s.keyUsableUntil ≤ now := by
      by_contra hlt
      rw [usableKey, if_pos (not_le.mp hlt), hkey] at hk
      cases hk
    rwa [hdeadline] at hlate

theorem phaseOk_of_subset (hp : PhaseOk cfg s p) (hn : ¬ Fetching p)
    (hf : s.fetches ⊆ t.fetches) : PhaseOk cfg t p := by
  cases p with
  | fetching => exact absurd trivial hn
  | issued call ticket =>
    obtain ⟨fetch, hm, hkey, hend⟩ := hp
    exact ⟨fetch, hf hm, hkey, hend⟩
  | _ => trivial

theorem KeyLifetime.install (hs : KeyLifetime cfg s)
    (h1 : cfg.uploadSasTtlSeconds ≤ cfg.delegationKeyTtlSeconds) (hi : Fetching (s.phase i))
    (hk : s.usableKey call.requestedAt = none) {value : κ} {start usableUntil : Instant}
    (hu : usableUntil = call.requestedAt + cfg.delegationKeyTtl + -cfg.uploadSasTtl) :
    KeyLifetime cfg { (s.install call.requestedAt
      ⟨value, start, call.requestedAt + cfg.delegationKeyTtl⟩ (some usableUntil)).enter i
        (sign cfg call ⟨value, start, call.requestedAt + cfg.delegationKeyTtl⟩) with
      lock := none } where
  lock j hj := by
    obtain ⟨hij, hj⟩ := fetching_update_of_not not_fetching_sign hj
    exact absurd hj (hs.not_fetching_of_ne hi hij)
  cached := ⟨call.requestedAt, by simp [ReceiptBlobStore.install, enter], hu⟩
  expiry := by
    intro fetch hm
    rcases List.mem_append.mp hm with hm | hm
    · exact hs.expiry fetch hm
    · cases List.mem_singleton.mp hm
      rfl
  spaced := by
    refine List.isChain_append.mpr ⟨hs.spaced, List.isChain_singleton _, fun a ha b hb => ?_⟩
    cases Option.mem_some_iff.mp hb
    exact hs.last_retired hk ha
  phases := by
    apply (Function.forall_update_iff s.phase fun _ => PhaseOk cfg _).mpr
    constructor
    · apply phaseOk_sign (List.mem_append_right _ (List.mem_singleton_self _))
      have hle : cfg.uploadSasTtl ≤ cfg.delegationKeyTtl := timedelta_mono h1
      exact Int.add_le_add_left hle _
    · intro j hij
      exact phaseOk_of_subset (hs.phases j) (hs.not_fetching_of_ne hi hij)
        (List.subset_append_left ..)

theorem KeyLifetime.step (hs : KeyLifetime cfg s) (h0 : 0 < cfg.uploadSasTtlSeconds)
    (h1 : cfg.uploadSasTtlSeconds ≤ cfg.delegationKeyTtlSeconds)
    (h : ReceiptBlobStore.step cfg s action = some s') : KeyLifetime cfg s' := by
  have keep : ∀ {p : UploadPhase κ} {i : ℕ}, ¬ Fetching p →
      ∀ j, Fetching (Function.update s.phase i p j) → s.lock = some j :=
    fun hp j hj => hs.lock j (fetching_update_of_not hp hj).2
  cases moves_of_step h with
  | @refused i action e => exact hs.move (p := .failed e) trivial (keep id) rfl rfl rfl rfl
  | @wait i call action => exact hs.move (p := .awaitingLock call) trivial (keep id) rfl rfl rfl rfl
  | signed hk =>
    obtain ⟨⟨t, hm⟩, he⟩ := hs.usable hk
    exact hs.move (phaseOk_sign hm he) (keep not_fetching_sign) rfl rfl rfl rfl
  | @ask i call start expiry hl hk hexp =>
    obtain ⟨rfl, hin⟩ := shift_eq_some hexp
    refine hs.move (p := .fetching call start _) ⟨rfl, hin, hk⟩ ?_ rfl rfl rfl rfl
    rw [Function.forall_update_iff s.phase fun j q => Fetching q → some i = some j]
    exact ⟨fun _ => rfl, fun j _ hj => by cases hl.symm.trans (hs.lock j hj)⟩
  | @unavailable i call start expiry outcome e hp he =>
    have hi : Fetching (s.phase i) := by rw [hp]; trivial
    refine hs.move (p := .failed e) trivial (fun j hj => ?_) rfl rfl rfl rfl
    obtain ⟨hij, hj⟩ := fetching_update_of_not id hj
    exact absurd hj (hs.not_fetching_of_ne hi hij)
  | @installOverflow i call start expiry value hp hu =>
    obtain ⟨hexp, hin, -⟩ := (hp ▸ hs.phases i : PhaseOk cfg s (.fetching call start expiry))
    rw [shift_of_inDatetime (inDatetime_deadline h0 h1 hexp hin)] at hu
    cases hu
  | @install i call start expiry usableUntil value hp hu =>
    obtain ⟨rfl, hin, hk⟩ := (hp ▸ hs.phases i : PhaseOk cfg s (.fetching call start expiry))
    have hi : Fetching (s.phase i) := by rw [hp]; trivial
    exact hs.install h1 hi hk (shift_eq_some hu).1

/-- A call whose key is not obtained fails, and leaves the cached key as it was. -/
theorem fetched_failed {outcome : KeyOutcome κ} (ho : ∀ value, outcome ≠ .key value)
    (h : ReceiptBlobStore.step cfg s (.fetched i outcome) = some s') :
    (∃ e, s'.phase i = .failed e ∧ e.IsUnavailable) ∧ s'.key = s.key ∧
      s'.keyUsableUntil = s.keyUsableUntil := by
  rw [ReceiptBlobStore.step] at h
  cases hp : s.phase i with
  | fetching call start expiry =>
    rw [hp] at h
    cases outcome with
    | key value => exact absurd rfl (ho value)
    | failed reason =>
      cases h
      exact ⟨⟨_, Function.update_self .., trivial⟩, rfl, rfl⟩
    | timedOut =>
      cases h
      exact ⟨⟨_, Function.update_self .., trivial⟩, rfl, rfl⟩
  | _ => rw [hp] at h; cases h

end Invariant

/-- In every run each ticket ends no later than the key that signed it was requested to, successive
keys are fetched at least the usable time of a key apart, and a fetch that fails or times out makes
the storage unavailable and leaves the cached key and its deadline alone. -/
theorem no_url_outlives_its_key (h0 : 0 < cfg.uploadSasTtlSeconds)
    (h1 : cfg.uploadSasTtlSeconds ≤ cfg.delegationKeyTtlSeconds)
    (h : Reachable (step cfg) (initial : ReceiptBlobStore κ) s) :
    (∀ i call ticket, s.phase i = .issued call ticket → ∃ fetch ∈ s.fetches,
      ticket.sas.userDelegationKey = fetch.key ∧
        fetch.key.expiry = fetch.now + cfg.delegationKeyTtl ∧
        ticket.expiresAt ≤ fetch.key.expiry) ∧
    s.fetches.IsChain (fun a b => a.now + cfg.delegationKeyTtl - cfg.uploadSasTtl ≤ b.now) ∧
    ∀ i outcome s', step cfg s (.fetched i outcome) = some s' → (∀ value, outcome ≠ .key value) →
      (∃ e, s'.phase i = .failed e ∧ e.IsUnavailable) ∧ s'.key = s.key ∧
        s'.keyUsableUntil = s.keyUsableUntil := by
  have hs : KeyLifetime cfg s := h.invariant .initial fun _ _ _ hs _ hstep => hs.step h0 h1 hstep
  refine ⟨fun i call ticket hp => ?_, hs.spaced, fun _ _ _ hstep ho => fetched_failed ho hstep⟩
  obtain ⟨fetch, hm, hkey, hend⟩ := (hp ▸ hs.phases i : PhaseOk cfg s (.issued call ticket))
  exact ⟨fetch, hm, hkey, hs.expiry fetch hm, hend⟩

section Sample

def tenMinutes : StorageSettings where
  storageAccountName := "kitchen"
  storageBlobEndpoint := "https://kitchen.example"
  receiptsContainer := "receipts"
  uploadSasTtlSeconds := 300
  delegationKeyTtlSeconds := 600
  storageClockSkewSeconds := 300

def uploadAt (seconds : ℤ) (h : InDatetime (seconds * 1000000) := by decide) : UploadCall where
  householdId := 1
  uploadId := 2
  requestedAt := seconds * 1000000
  day := ⟨1970, 1, 1, by decide, by decide, by decide⟩
  contentType := "image/jpeg"
  requestedAt_valid := h

/-- A key is fetched, reused, found retired and not obtained, and fetched again. -/
def fourUploads : List (UploadAction String) :=
  [.uploadTicket 0 (uploadAt 0), .uploadTicket 1 (uploadAt 240), .acquire 0,
    .fetched 0 (.key "first"), .acquire 1, .uploadTicket 2 (uploadAt 360), .acquire 2,
    .fetched 2 .timedOut, .uploadTicket 3 (uploadAt 300), .acquire 3, .fetched 3 (.key "second")]

theorem no_url_outlives_its_key_fourUploads :
    ∃ s, exec (guarded (step tenMinutes) unrestricted) initial fourUploads = some s ∧
      s.fetches.map (·.now) = [0, 300000000] ∧
      (∀ i call ticket, s.phase i = .issued call ticket → ∃ fetch ∈ s.fetches,
        ticket.sas.userDelegationKey = fetch.key ∧
          fetch.key.expiry = fetch.now + tenMinutes.delegationKeyTtl ∧
          ticket.expiresAt ≤ fetch.key.expiry) := by
  have h : (exec (guarded (step tenMinutes) unrestricted) initial fourUploads).map
      (·.fetches.map (·.now)) = some [0, 300000000] := by decide +kernel
  obtain ⟨s, hr, hf⟩ := Option.map_eq_some_iff.mp h
  exact ⟨s, hr, hf,
    (no_url_outlives_its_key (by decide) (by decide) (Reach.of_exec hr)).1⟩

end Sample

end ReceiptBlobStore

end KitchenSense
