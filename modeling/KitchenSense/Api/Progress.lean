import KitchenSense.Api.Uploads
import KitchenSense.Foundations.Progress

/-! # Uploads and confirmations come to their ends

A request for an upload URL may wait for the lock of the store and for another
request that inserts the same id; a confirmation may wait for one that has
written the same row. What they wait for waits for nothing but the storage
account, so none of them is left waiting.
-/

namespace KitchenSense

section Ranks

variable {κ : Type}

def UploadPhase.rank : UploadPhase κ → ℕ
  | .awaitingLock _ => 2
  | .fetching _ _ _ => 1
  | .idle | .issued _ _ | .failed _ => 0

def ConfirmPhase.rank : ConfirmPhase → ℕ
  | .selected _ => 2
  | .flushed _ => 1
  | .started | .answered _ | .notFound | .failed => 0

/-- The steps that a request for an upload URL still takes at most, its call of the store
included. -/
def IssuePhase.rank (store : UploadPhase κ) : IssuePhase κ → ℕ
  | .signing => store.rank + 3
  | .flushed _ => 2
  | .committed _ => 1
  | .started | .answered _ | .failed | .lost => 0

def ConfirmPhase.Rests : ConfirmPhase → Prop
  | .selected _ | .flushed _ => False
  | .started | .answered _ | .notFound | .failed => True

def IssuePhase.Rests : IssuePhase κ → Prop
  | .signing | .flushed _ | .committed _ => False
  | .started | .answered _ | .failed | .lost => True

end Ranks

def UploadAction.own {κ : Type} : UploadAction κ → Option ℕ
  | .acquire i | .fetched i _ => some i
  | .uploadTicket _ _ => none

theorem UploadAction.own_ne_none_iff {κ : Type} {action : UploadAction κ} :
    action.own ≠ none ↔ action.Continues := by
  cases action with
  | acquire | fetched => exact iff_of_true (Option.some_ne_none _) trivial
  | uploadTicket => exact iff_of_false (absurd rfl) id

namespace ReceiptBlobStore

variable {κ : Type} {cfg : StorageSettings} {s s' : ReceiptBlobStore κ} {action : UploadAction κ}
  {i : ℕ} {p : UploadPhase κ} {call : UploadCall}

def Occupied (s : ReceiptBlobStore κ) : Prop :=
  ∀ j, s.lock = some j → ∃ call start expiry, s.phase j = .fetching call start expiry

/-- What a step does to the call that it concerns, and to the lock. -/
structure Turns (action : UploadAction κ) (s s' : ReceiptBlobStore κ) (i : ℕ)
    (p : UploadPhase κ) : Prop where
  phase : s'.phase = Function.update s.phase i p
  begun : p ≠ .idle
  nears : Nears action.own i (s.phase i).rank p.rank
  lock : s'.lock = none ∨ (s'.lock = s.lock ∧ s.phase i = .idle) ∨
    (s'.lock = some i ∧ ∃ call start expiry, p = .fetching call start expiry)

theorem rank_sign (call : UploadCall) (key : DelegationKey κ) :
    (sign cfg call key).rank = 0 ∧ sign cfg call key ≠ .idle := by
  unfold sign
  split <;> exact ⟨rfl, by simp⟩

theorem turns_of_uploadTicket (h : step cfg s (.uploadTicket i call) = some s') :
    ∃ p, Turns (.uploadTicket i call) s s' i p ∧ s.phase i = .idle := by
  rw [step] at h
  split at h
  next hp =>
    have hbegins : ∀ {r}, Nears none i (s.phase i).rank r := by
      rw [hp]
      exact .of_zero
    split at h
    next => cases h; exact ⟨_, ⟨rfl, by simp, hbegins, .inr (.inl ⟨rfl, hp⟩)⟩, hp⟩
    next =>
      split at h
      next => cases h; exact ⟨_, ⟨rfl, by simp, hbegins, .inr (.inl ⟨rfl, hp⟩)⟩, hp⟩
      next =>
        split at h
        next =>
          cases h
          exact ⟨_, ⟨rfl, (rank_sign ..).2, hbegins, .inr (.inl ⟨rfl, hp⟩)⟩, hp⟩
        next => cases h; exact ⟨_, ⟨rfl, by simp, hbegins, .inr (.inl ⟨rfl, hp⟩)⟩, hp⟩
  next => cases h

theorem turns_of_acquire (h : step cfg s (.acquire i) = some s') :
    ∃ p, Turns (.acquire i) s s' i p := by
  rw [step, Option.ite_none_left_eq_some] at h
  obtain ⟨hl, h⟩ := h
  have hl : s.lock = none := not_not.mp hl
  cases hp : s.phase i with
  | awaitingLock call =>
    have hr : (s.phase i).rank = 2 := by rw [hp]; rfl
    rw [hp] at h
    dsimp only at h
    split at h
    next =>
      cases h
      exact ⟨_, rfl, (rank_sign ..).2, .of_lt (by rw [(rank_sign ..).1, hr]; decide), .inl hl⟩
    next =>
      split at h
      next =>
        cases h
        exact ⟨_, rfl, by simp, .of_lt (by rw [hr]; exact Nat.one_lt_two),
          .inr (.inr ⟨rfl, _, _, _, rfl⟩)⟩
      next =>
        cases h
        exact ⟨_, rfl, by simp, .of_lt (by rw [hr]; exact Nat.two_pos), .inl hl⟩
  | _ => rw [hp] at h; cases h

theorem turns_of_fetched {outcome : KeyOutcome κ}
    (h : step cfg s (.fetched i outcome) = some s') : ∃ p, Turns (.fetched i outcome) s s' i p := by
  rw [step] at h
  cases hp : s.phase i with
  | fetching call start expiry =>
    have hr : (s.phase i).rank = 1 := by rw [hp]; rfl
    rw [hp] at h
    cases outcome with
    | key value =>
      dsimp only at h
      split at h
      next =>
        cases h
        exact ⟨_, rfl, (rank_sign ..).2, .of_lt (by rw [(rank_sign ..).1, hr]; decide), .inl rfl⟩
      next =>
        cases h
        exact ⟨_, rfl, by simp, .of_lt (by rw [hr]; exact Nat.one_pos), .inl rfl⟩
    | failed | timedOut =>
      cases h
      exact ⟨_, rfl, by simp, .of_lt (by rw [hr]; exact Nat.one_pos), .inl rfl⟩
  | _ => rw [hp] at h; cases h

theorem turns_of_step (h : step cfg s action = some s') : ∃ i p, Turns action s s' i p := by
  cases action with
  | uploadTicket i call =>
    obtain ⟨p, ht, -⟩ := turns_of_uploadTicket h
    exact ⟨i, p, ht⟩
  | acquire i => exact ⟨i, turns_of_acquire h⟩
  | fetched i outcome => exact ⟨i, turns_of_fetched h⟩

theorem Occupied.step (hs : Occupied s) (h : ReceiptBlobStore.step cfg s action = some s') :
    Occupied s' := by
  obtain ⟨i, p, ht⟩ := turns_of_step h
  intro j hj
  rw [ht.phase]
  rcases ht.lock with hl | ⟨hl, hp⟩ | ⟨hl, call, start, expiry, hp⟩
  · rw [hl] at hj
    cases hj
  · obtain ⟨call, start, expiry, hf⟩ := hs j (hl ▸ hj)
    refine ⟨call, start, expiry, ?_⟩
    rw [Function.update_of_ne, hf]
    rintro rfl
    rw [hp] at hf
    cases hf
  · rw [hl] at hj
    cases hj
    exact ⟨call, start, expiry, by rw [Function.update_self, hp]⟩

theorem continues_of_fetching {start expiry : Instant}
    (hp : s.phase i = .fetching call start expiry) :
    ∃ s', step cfg s (.fetched i .timedOut) = some s' := by
  rw [step, hp]
  exact ⟨_, rfl⟩

theorem Occupied.continues (hs : Occupied s) (hr : (s.phase i).rank ≠ 0) :
    ∃ action s', UploadAction.own action ≠ none ∧ ReceiptBlobStore.step cfg s action = some s' := by
  cases hp : s.phase i with
  | awaitingLock call =>
    cases hl : s.lock with
    | some j =>
      obtain ⟨call, start, expiry, hj⟩ := hs j hl
      obtain ⟨s', h⟩ := continues_of_fetching hj
      exact ⟨.fetched j .timedOut, s', Option.some_ne_none j, h⟩
    | none =>
      refine ⟨.acquire i, ?_⟩
      rw [ReceiptBlobStore.step, if_neg (not_not.mpr hl), hp]
      dsimp only
      split
      next => exact ⟨_, Option.some_ne_none i, rfl⟩
      next => split <;> exact ⟨_, Option.some_ne_none i, rfl⟩
  | fetching call start expiry =>
    obtain ⟨s', h⟩ := continues_of_fetching hp
    exact ⟨.fetched i .timedOut, s', Option.some_ne_none i, h⟩
  | idle | issued | failed => exact absurd (by rw [hp]; rfl) hr

end ReceiptBlobStore

namespace ConfirmState

variable {requests : ℕ → ConfirmRequest} {s s' : ConfirmState} {action : ConfirmAction} {i : ℕ}
  {p : ConfirmPhase}

def own (s : ConfirmState) : ConfirmAction → Option ℕ
  | .select _ => none
  | .flush i | .commit i => some i
  | .rollback i =>
    match s.phase i with
    | .started => none
    | _ => some i

def Held (s : ConfirmState) : Prop :=
  Holders s.writer fun j id => ∃ row, s.phase j = .flushed row ∧ row.id = id

/-- What a step does to the confirmation that it concerns, and to the rows that are held. -/
structure Turns (action : ConfirmAction) (s s' : ConfirmState) (i : ℕ) (p : ConfirmPhase) :
    Prop where
  phase : s'.phase = Function.update s.phase i p
  nears : Nears (s.own action) i (s.phase i).rank p.rank
  writer : (s'.writer = s.writer ∧ ∀ row, s.phase i ≠ .flushed row) ∨
    (∃ row, p = .flushed row ∧ (∀ row, s.phase i ≠ .flushed row) ∧
      s'.writer = Function.update s.writer row.id (some i)) ∨
    ∃ row, s.phase i = .flushed row ∧ s'.writer = Function.update s.writer row.id none

theorem turns_of_step (h : step requests s action = some s') : ∃ i p, Turns action s s' i p := by
  cases action with
  | select i =>
    rw [step] at h
    cases hp : s.phase i with
    | started =>
      rw [hp] at h
      cases h
      exact ⟨i, _, rfl, by rw [hp]; exact .of_zero, .inl ⟨rfl, by rw [hp]; simp⟩⟩
    | _ => rw [hp] at h; cases h
  | flush i =>
    rw [step] at h
    cases hp : s.phase i with
    | selected row =>
      have hr : (s.phase i).rank = 2 := by rw [hp]; rfl
      have hn : ∀ row, s.phase i ≠ .flushed row := by rw [hp]; simp
      rw [hp] at h
      simp only [Option.ite_none_right_eq_some] at h
      obtain ⟨-, h⟩ := h
      split at h
      next =>
        cases h
        exact ⟨i, _, rfl, .of_lt (by rw [hr]; exact Nat.one_lt_two),
          .inr (.inl ⟨_, rfl, hn, rfl⟩)⟩
      next =>
        cases h
        exact ⟨i, _, rfl, .of_lt (by rw [hr]; exact Nat.two_pos), .inl ⟨rfl, hn⟩⟩
    | _ => rw [hp] at h; cases h
  | commit i =>
    rw [step] at h
    cases hp : s.phase i with
    | selected row =>
      rw [hp] at h
      simp only [Option.ite_none_left_eq_some] at h
      obtain ⟨-, ⟨⟩⟩ := h
      exact ⟨i, _, rfl, .of_lt (by rw [hp]; exact Nat.two_pos), .inl ⟨rfl, by rw [hp]; simp⟩⟩
    | flushed row =>
      rw [hp] at h
      cases h
      exact ⟨i, _, rfl, .of_lt (by rw [hp]; exact Nat.one_pos), .inr (.inr ⟨row, hp, rfl⟩)⟩
    | _ => rw [hp] at h; cases h
  | rollback i =>
    rw [step] at h
    cases hp : s.phase i with
    | started =>
      rw [hp] at h
      cases h
      refine ⟨i, _, rfl, ?_, .inl ⟨rfl, by rw [hp]; simp⟩⟩
      rw [own, hp]
      exact .of_zero
    | selected row =>
      rw [hp] at h
      cases h
      refine ⟨i, _, rfl, ?_, .inl ⟨rfl, by rw [hp]; simp⟩⟩
      rw [own, hp]
      exact .of_lt Nat.two_pos
    | flushed row =>
      rw [hp] at h
      cases h
      refine ⟨i, _, rfl, ?_, .inr (.inr ⟨row, hp, rfl⟩)⟩
      rw [own, hp]
      exact .of_lt Nat.one_pos
    | _ => rw [hp] at h; cases h

theorem Held.step (hs : Held s) (h : ConfirmState.step requests s action = some s') :
    Held s' := by
  obtain ⟨i, p, ht⟩ := turns_of_step h
  -- the rows of the other confirmations stay theirs
  have hother : ∀ j id, j ≠ i → (∃ row, s.phase j = .flushed row ∧ row.id = id) →
      ∃ row, s'.phase j = .flushed row ∧ row.id = id := by
    intro j id hj hw
    rwa [ht.phase, Function.update_of_ne hj]
  rcases ht.writer with ⟨hwriter, hn⟩ | ⟨row, hp, hn, hwriter⟩ | ⟨row, hi, hwriter⟩ <;>
    rw [Held, hwriter]
  · exact hs.keep (by rintro id ⟨row, hf, -⟩; exact hn row hf) hother
  · exact hs.take (by rintro id ⟨row, hf, -⟩; exact hn row hf) hother
      ⟨row, by rw [ht.phase, Function.update_self, hp], rfl⟩
  · refine hs.release ?_ hother
    rintro id ⟨row', hf, rfl⟩
    cases hi.symm.trans hf
    rfl

theorem Held.continues (hs : Held s) (hr : (s.phase i).rank ≠ 0) :
    ∃ action s', s.own action ≠ none ∧ ConfirmState.step requests s action = some s' := by
  have hcommit : ∀ {j row}, s.phase j = .flushed row →
      ∃ action s', s.own action ≠ none ∧ ConfirmState.step requests s action = some s' :=
    fun {j row} hp => ⟨.commit j, _, Option.some_ne_none j, step_commit_of_flushed hp⟩
  cases hp : s.phase i with
  | selected row =>
    by_cases hc : row.confirmedAt = none
    · cases hw : s.writer row.id with
      | some j =>
        obtain ⟨row', hj, -⟩ := hs _ _ hw
        exact hcommit hj
      | none =>
        by_cases hv : violated (confirmedRow requests i row).rowChecks = none
        · exact ⟨.flush i, _, Option.some_ne_none i, step_flush_of_checks hp hc hw hv⟩
        · exact ⟨.flush i, _, Option.some_ne_none i, step_flush_of_violated hp hc hw hv⟩
    · exact ⟨.commit i, _, Option.some_ne_none i, step_commit_of_selected hp hc⟩
  | flushed row => exact hcommit hp
  | started | answered | notFound | failed => exact absurd (by rw [hp]; rfl) hr

end ConfirmState

namespace UploadsApi

section Ends

variable {κ : Type} {cfg : StorageSettings} {generateBlobSas : BlobSas κ → String}
  {households : List UUID} {calls : ℕ → UploadCall} {confirmations : ℕ → ConfirmRequest}
  {s s' : UploadsApi κ} {action : UploadsAction κ} {i : ℕ}

/-- The steps that a request for an upload URL, or a confirmation, still takes at most. -/
def rank (s : UploadsApi κ) : ℕ ⊕ ℕ → ℕ
  | .inl i => (s.phase i).rank (s.store.phase i)
  | .inr i => (s.confirms.phase i).rank

def own (s : UploadsApi κ) : UploadsAction κ → Option (ℕ ⊕ ℕ)
  | .request _ => none
  | .store action => action.own.map .inl
  | .insert i | .commit i | .respond i => some (.inl i)
  | .fail i =>
    match s.phase i with
    | .started => none
    | _ => some (.inl i)
  | .confirm action => (s.confirms.own action).map .inr

/-- A request waits for its ticket exactly while its call of the store has begun. -/
def Paired : IssuePhase κ → UploadPhase κ → Prop
  | .signing, p => p ≠ .idle
  | .started, p | .flushed _, p | .committed _, p | .answered _, p | .failed, p | .lost, p =>
    p.rank = 0

/-- Whatever is waited for is held by a request or a confirmation that can go on. -/
structure Orderly (calls : ℕ → UploadCall) (s : UploadsApi κ) : Prop where
  store : s.store.Occupied
  confirms : s.confirms.Held
  inserting : Holders s.inserting fun j id =>
    ∃ ticket, s.phase j = .flushed ticket ∧ (calls j).uploadId = id
  paired : ∀ i, Paired (s.phase i) (s.store.phase i)

theorem Orderly.initial (uploads : List ReceiptUploadRow) :
    Orderly calls (initial uploads : UploadsApi κ) where
  store _ hj := by cases hj
  confirms _ _ hj := by cases hj
  inserting _ _ hj := by cases hj
  paired _ := rfl

/-- What a step of a request does that leaves the store and the confirmations where they are. -/
structure Advances (calls : ℕ → UploadCall) (action : UploadsAction κ) (s s' : UploadsApi κ)
    (i : ℕ) (p : IssuePhase κ) : Prop where
  phase : s'.phase = Function.update s.phase i p
  store : s'.store = s.store
  confirms : s'.confirms.phase = s.confirms.phase ∧ s'.confirms.writer = s.confirms.writer
  nears : Nears (s.own action) (.inl i) (s.rank (.inl i)) (p.rank (s.store.phase i))
  paired : Paired p (s.store.phase i)
  inserting : (s'.inserting = s.inserting ∧ ∀ ticket, s.phase i ≠ .flushed ticket) ∨
    (∃ ticket, p = .flushed ticket ∧ (∀ ticket, s.phase i ≠ .flushed ticket) ∧
      s'.inserting = Function.update s.inserting (calls i).uploadId (some i)) ∨
    ((∃ ticket, s.phase i = .flushed ticket) ∧
      s'.inserting = Function.update s.inserting (calls i).uploadId none)

theorem advances_of_insert
    (h : step cfg generateBlobSas households calls confirmations s (.insert i) = some s') :
    ∃ p, Advances calls (.insert i) s s' i p := by
  rw [step] at h
  split at h
  next call ticket hp ht =>
    rw [Option.ite_none_right_eq_some, Option.some_inj] at h
    obtain ⟨-, rfl⟩ := h
    have hr : s.rank (.inl i) = 3 := by rw [rank, hp, ht]; rfl
    have hn : ∀ ticket, s.phase i ≠ .flushed ticket := by rw [hp]; simp
    have hz : (s.store.phase i).rank = 0 := by rw [ht]; rfl
    cases (ReceiptUploadRepository.recordRequest (calls i).householdId (calls i).uploadId
      ticket.blobName ticket.contentType (calls i).requestedAt ticket.expiresAt).answer
        (s.db households) with
    | error e =>
      exact ⟨.failed, rfl, rfl, ⟨rfl, rfl⟩, .of_lt (by rw [hr]; exact Nat.succ_pos 2), hz,
        .inl ⟨rfl, hn⟩⟩
    | ok upload =>
      exact ⟨.flushed ticket, rfl, rfl, ⟨rfl, rfl⟩, .of_lt (by rw [hr]; exact Nat.lt_succ_self 2),
        hz, .inr (.inl ⟨ticket, rfl, hn, rfl⟩)⟩
  next => cases h

theorem advances_of_fail (hs : Orderly calls s)
    (h : step cfg generateBlobSas households calls confirmations s (.fail i) = some s') :
    ∃ p, Advances calls (.fail i) s s' i p := by
  have hi := hs.paired i
  have hown : s.phase i ≠ .started → s.own (.fail i) = some (.inl i) := by
    intro hn
    rw [own]
    split
    next hp => exact absurd hp hn
    next => rfl
  rw [step] at h
  split at h
  next hp =>
    rw [hp] at hi
    cases h
    refine ⟨.failed, rfl, rfl, ⟨rfl, rfl⟩, ?_, hi, .inl ⟨rfl, by rw [hp]; simp⟩⟩
    rw [own, rank, hp]
    exact .of_zero
  next hp ht =>
    cases h
    exact ⟨.failed, rfl, rfl, ⟨rfl, rfl⟩,
      .inl ⟨hown (by simp [hp]), by rw [rank, hp]; exact Nat.succ_pos _⟩,
      by rw [ht]; rfl, .inl ⟨rfl, by rw [hp]; simp⟩⟩
  next hp ht =>
    cases h
    exact ⟨.failed, rfl, rfl, ⟨rfl, rfl⟩,
      .inl ⟨hown (by simp [hp]), by rw [rank, hp]; exact Nat.succ_pos _⟩,
      by rw [ht]; rfl, .inl ⟨rfl, by rw [hp]; simp⟩⟩
  next ticket hp =>
    rw [hp] at hi
    cases h
    exact ⟨.failed, rfl, rfl, ⟨rfl, rfl⟩,
      .inl ⟨hown (by simp [hp]), by rw [rank, hp]; exact Nat.two_pos⟩, hi,
      .inr (.inr ⟨⟨ticket, hp⟩, rfl⟩)⟩
  next ticket hp =>
    rw [hp] at hi
    cases h
    exact ⟨.lost, rfl, rfl, ⟨rfl, rfl⟩,
      .inl ⟨hown (by simp [hp]), by rw [rank, hp]; exact Nat.one_pos⟩, hi,
      .inl ⟨rfl, by rw [hp]; simp⟩⟩
  next => cases h

theorem advances_of_commit (hs : Orderly calls s)
    (h : step cfg generateBlobSas households calls confirmations s (.commit i) = some s') :
    ∃ p, Advances calls (.commit i) s s' i p := by
  have hi := hs.paired i
  rw [step] at h
  split at h
  next ticket hp =>
    rw [hp] at hi
    cases h
    exact ⟨.committed ticket, rfl, rfl, ⟨rfl, rfl⟩,
      .of_lt (by rw [rank, hp]; exact Nat.one_lt_two), hi, .inr (.inr ⟨⟨ticket, hp⟩, rfl⟩)⟩
  next => cases h

theorem advances_of_respond (hs : Orderly calls s)
    (h : step cfg generateBlobSas households calls confirmations s (.respond i) = some s') :
    ∃ p, Advances calls (.respond i) s s' i p := by
  have hi := hs.paired i
  rw [step] at h
  split at h
  next ticket hp =>
    rw [hp] at hi
    cases h
    exact ⟨_, rfl, rfl, ⟨rfl, rfl⟩, .of_lt (by rw [rank, hp]; exact Nat.one_pos), hi,
      .inl ⟨rfl, by rw [hp]; simp⟩⟩
  next => cases h

theorem Advances.orderly {p : IssuePhase κ} (hs : Orderly calls s)
    (h : Advances calls action s s' i p) : Orderly calls s' where
  store := h.store ▸ hs.store
  confirms := by
    intro id j hj
    rw [h.confirms.1]
    exact hs.confirms id j (h.confirms.2 ▸ hj)
  inserting := by
    have hother : ∀ j id, j ≠ i →
        (∃ ticket, s.phase j = .flushed ticket ∧ (calls j).uploadId = id) →
        ∃ ticket, s'.phase j = .flushed ticket ∧ (calls j).uploadId = id := by
      intro j id hj hw
      rwa [h.phase, Function.update_of_ne hj]
    rcases h.inserting with ⟨hins, hn⟩ | ⟨ticket, hp, hn, hins⟩ | ⟨-, hins⟩ <;> rw [hins]
    · exact hs.inserting.keep (by rintro id ⟨ticket, hf, -⟩; exact hn ticket hf) hother
    · exact hs.inserting.take (by rintro id ⟨ticket, hf, -⟩; exact hn ticket hf) hother
        ⟨ticket, by rw [h.phase, Function.update_self, hp], rfl⟩
    · exact hs.inserting.release (by rintro id ⟨-, -, hid⟩; exact hid.symm) hother
  paired := by
    rw [h.phase, h.store]
    apply (Function.forall_update_iff s.phase fun j q => Paired q (s.store.phase j)).mpr
    exact ⟨h.paired, fun j _ => hs.paired j⟩

theorem Advances.turns {p : IssuePhase κ} (h : Advances calls action s s' i p) :
    Nears (s.own action) (.inl i) (s.rank (.inl i)) (s'.rank (.inl i)) ∧
      ∀ x, x ≠ .inl i → s'.rank x ≤ s.rank x := by
  constructor
  · have hself : s'.rank (.inl i) = p.rank (s.store.phase i) := by
      rw [UploadsApi.rank, h.phase, h.store, Function.update_self]
    rw [hself]
    exact h.nears
  · rintro (j | j) hj
    · have hne : j ≠ i := fun he => hj (he ▸ rfl)
      rw [UploadsApi.rank, h.phase, h.store, Function.update_of_ne hne]
      rfl
    · rw [UploadsApi.rank, h.confirms.1]
      rfl

theorem turns_of_store {a : UploadAction κ} (hs : Orderly calls s)
    (h : step cfg generateBlobSas households calls confirmations s (.store a) = some s') :
    Orderly calls s' ∧ ∃ x, Nears (s.own (.store a)) x (s.rank x) (s'.rank x) ∧
      ∀ y, y ≠ x → s'.rank y ≤ s.rank y := by
  rw [step, Option.ite_none_right_eq_some] at h
  obtain ⟨ha, h⟩ := h
  obtain ⟨store, hstore, rfl⟩ := Option.map_eq_some_iff.mp h
  obtain ⟨i, p, ht⟩ := ReceiptBlobStore.turns_of_step hstore
  obtain ⟨hown, hlt⟩ : a.own = some i ∧ p.rank < (s.store.phase i).rank :=
    ht.nears.resolve_right fun hn => absurd hn.1 (UploadAction.own_ne_none_iff.mpr ha)
  have hsigning : s.phase i = .signing := by
    have hi := hs.paired i
    cases hp : s.phase i with
    | signing => rfl
    | _ =>
      rw [hp] at hi
      exact absurd hi (Nat.ne_zero_of_lt hlt)
  refine ⟨⟨hs.store.step hstore, hs.confirms, hs.inserting, fun j => ?_⟩, .inl i, .inl ⟨?_, ?_⟩, ?_⟩
  · show Paired (s.phase j) (store.phase j)
    rw [ht.phase]
    by_cases hj : j = i
    · rw [hj, Function.update_self, hsigning]
      exact ht.begun
    · rw [Function.update_of_ne hj]
      exact hs.paired j
  · rw [own, hown]
    rfl
  · show (s.phase i).rank (store.phase i) < (s.phase i).rank (s.store.phase i)
    rw [ht.phase, Function.update_self, hsigning]
    exact Nat.add_lt_add_right hlt 3
  · rintro (j | j) hj
    · have hne : j ≠ i := fun he => hj (he ▸ rfl)
      show (s.phase j).rank (store.phase j) ≤ (s.phase j).rank (s.store.phase j)
      rw [ht.phase, Function.update_of_ne hne]
    · exact le_rfl

theorem turns_of_request (hs : Orderly calls s)
    (h : step cfg generateBlobSas households calls confirmations s (.request i) = some s') :
    Orderly calls s' ∧ s.rank (.inl i) = 0 ∧ ∀ y, y ≠ .inl i → s'.rank y ≤ s.rank y := by
  rw [step] at h
  split at h
  next hp =>
    obtain ⟨store, hstore, rfl⟩ := Option.map_eq_some_iff.mp h
    obtain ⟨p, ht, -⟩ := ReceiptBlobStore.turns_of_uploadTicket hstore
    refine ⟨⟨hs.store.step hstore, hs.confirms, ?_, fun j => ?_⟩, by rw [rank, hp]; rfl, ?_⟩
    · refine hs.inserting.keep (i := i) ?_ ?_
      · rintro id ⟨ticket, hf, -⟩
        rw [hp] at hf
        cases hf
      · intro j id hj hw
        rwa [show (s.enter i .signing).phase j = s.phase j from Function.update_of_ne hj ..]
    · show Paired (Function.update s.phase i .signing j) (store.phase j)
      rw [ht.phase]
      by_cases hj : j = i
      · rw [hj, Function.update_self, Function.update_self]
        exact ht.begun
      · rw [Function.update_of_ne hj, Function.update_of_ne hj]
        exact hs.paired j
    · rintro (j | j) hj
      · have hne : j ≠ i := fun he => hj (he ▸ rfl)
        show (Function.update s.phase i .signing j).rank (store.phase j) ≤ _
        rw [ht.phase, Function.update_of_ne hne, Function.update_of_ne hne]
        rfl
      · exact le_rfl
  next => cases h

theorem turns_of_confirm {a : ConfirmAction} (hs : Orderly calls s)
    (h : step cfg generateBlobSas households calls confirmations s (.confirm a) = some s') :
    Orderly calls s' ∧ ∃ x, Nears (s.own (.confirm a)) x (s.rank x) (s'.rank x) ∧
      ∀ y, y ≠ x → s'.rank y ≤ s.rank y := by
  obtain ⟨confirms, hc, rfl⟩ := Option.map_eq_some_iff.mp h
  obtain ⟨i, p, ht⟩ := ConfirmState.turns_of_step hc
  refine ⟨⟨hs.store, hs.confirms.step hc, hs.inserting, hs.paired⟩, .inr i, ?_, ?_⟩
  · have hself : confirms.phase i = p := by rw [ht.phase, Function.update_self]
    show Nears ((s.confirms.own a).map (Sum.inr : ℕ → ℕ ⊕ ℕ)) (.inr i) (s.confirms.phase i).rank
      (confirms.phase i).rank
    rw [hself]
    rcases ht.nears with ⟨ho, hlt⟩ | ⟨ho, hle⟩
    · exact .inl ⟨by rw [ho]; rfl, hlt⟩
    · exact .inr ⟨by rw [ho]; rfl, hle⟩
  · rintro (j | j) hj
    · exact le_rfl
    · have hne : j ≠ i := fun he => hj (he ▸ rfl)
      show (confirms.phase j).rank ≤ _
      rw [ht.phase, Function.update_of_ne hne]
      rfl

theorem Orderly.turns (hs : Orderly calls s)
    (h : step cfg generateBlobSas households calls confirmations s action = some s') :
    Orderly calls s' ∧ ∃ x, Nears (s.own action) x (s.rank x) (s'.rank x) ∧
      ∀ y, y ≠ x → s'.rank y ≤ s.rank y := by
  have hadvance : ∀ {i}, (∃ p, Advances calls action s s' i p) → Orderly calls s' ∧
      ∃ x, Nears (s.own action) x (s.rank x) (s'.rank x) ∧ ∀ y, y ≠ x → s'.rank y ≤ s.rank y := by
    rintro i ⟨p, ha⟩
    exact ⟨ha.orderly hs, .inl i, ha.turns⟩
  cases action with
  | request i =>
    obtain ⟨hs', hz, hle⟩ := turns_of_request hs h
    exact ⟨hs', .inl i, .inr ⟨rfl, .inl hz⟩, hle⟩
  | store a => exact turns_of_store hs h
  | insert i => exact hadvance (advances_of_insert h)
  | commit i => exact hadvance (advances_of_commit hs h)
  | respond i => exact hadvance (advances_of_respond hs h)
  | fail i => exact hadvance (advances_of_fail hs h)
  | confirm a => exact turns_of_confirm hs h

theorem step_commit {ticket : UploadTicket κ} (hp : s.phase i = .flushed ticket) :
    ∃ s', step cfg generateBlobSas households calls confirmations s (.commit i) = some s' := by
  rw [step, hp]
  exact ⟨_, rfl⟩

/-- A request that waits for its ticket goes on, or the call of the store that it waits for does,
or the request that is inserting its id. -/
theorem Orderly.continues_signing (hs : Orderly calls s) (hp : s.phase i = .signing) :
    ∃ action s', s.own action ≠ none ∧
      step cfg generateBlobSas households calls confirmations s action = some s' := by
  have hi := hs.paired i
  rw [hp] at hi
  by_cases hr : (s.store.phase i).rank = 0
  · cases ht : s.store.phase i with
    | issued call ticket =>
      cases hins : s.inserting (calls i).uploadId with
      | none =>
        refine ⟨.insert i, s.afterInsert calls i ticket ((ReceiptUploadRepository.recordRequest
          (calls i).householdId (calls i).uploadId ticket.blobName ticket.contentType
          (calls i).requestedAt ticket.expiresAt).answer (s.db households)),
          Option.some_ne_none _, ?_⟩
        rw [step, hp, ht]
        exact if_pos hins
      | some j =>
        obtain ⟨ticket, hj, -⟩ := hs.inserting _ _ hins
        obtain ⟨s', h⟩ := step_commit hj
        exact ⟨.commit j, s', Option.some_ne_none _, h⟩
    | failed e =>
      refine ⟨.fail i, s.enter i .failed, ?_, by rw [step, hp, ht]⟩
      rw [own, hp]
      exact Option.some_ne_none _
    | idle => exact absurd ht hi
    | awaitingLock | fetching => rw [ht] at hr; cases hr
  · obtain ⟨a, store, ha, h⟩ := hs.store.continues hr
    refine ⟨.store a, { s with store }, by simpa [own] using ha, ?_⟩
    rw [step, if_pos (UploadAction.own_ne_none_iff.mp ha), h]
    rfl

theorem Orderly.continues (hs : Orderly calls s) {x : ℕ ⊕ ℕ} (hr : s.rank x ≠ 0) :
    ∃ action s', s.own action ≠ none ∧
      step cfg generateBlobSas households calls confirmations s action = some s' := by
  cases x with
  | inl i =>
    cases hp : s.phase i with
    | signing => exact hs.continues_signing hp
    | flushed ticket =>
      obtain ⟨s', h⟩ := step_commit hp
      exact ⟨.commit i, s', Option.some_ne_none _, h⟩
    | committed ticket => exact ⟨.respond i, _, Option.some_ne_none _, by rw [step, hp]⟩
    | started | answered | failed | lost =>
      rw [rank, hp] at hr
      exact absurd rfl hr
  | inr i =>
    obtain ⟨a, confirms, ha, h⟩ := hs.confirms.continues hr
    exact ⟨.confirm a, { s with confirms }, by simpa [own] using ha, by rw [step, h]; rfl⟩

theorem progress : Progress (step cfg generateBlobSas households calls confirmations) own rank
    (Orderly calls) where
  keeps hs h := (hs.turns h).1
  turns hs h := (hs.turns h).2
  continues hs hr := hs.continues hr

end Ends

open ReceiptBlobStore (tenMinutes)

end UploadsApi

end KitchenSense
