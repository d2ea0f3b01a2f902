import KitchenSense.Tenancy.Isolation

/-! # Households do not interfere

Operations of a household answer alike and leave alike on databases that are
alike for it, and operations of others keep a database alike. So deleting the
operations of others from a run changes no answer and no row of the household.
-/

namespace KitchenSense

open Transaction

namespace Operation

structure Avoids (F : Foreign) (operation : Operation) : Prop where
  keys : ∀ key ∈ operation.keys, key ∉ F.keys
  eventIds : ∀ id ∈ operation.eventIds, id ∉ F.eventIds
  uploadIds : ∀ id ∈ operation.newUploadIds, id ∉ F.uploadIds

/-- The operation uses only keys that are left to others. -/
structure Within (F : Foreign) (operation : Operation) : Prop where
  keys : ∀ key ∈ operation.keys, key ∈ F.keys
  eventIds : ∀ id ∈ operation.eventIds, id ∈ F.eventIds
  uploadIds : ∀ id ∈ operation.newUploadIds, id ∈ F.uploadIds

variable {F : Foreign} {householdId other : UUID} {db db' : Db}

theorem read_agree {R : Db → Db → Prop} {reply : Db → Reply} (hr : reply db = reply db')
    (h : R db db') :
    Agree R ((do return reply (← get) : Tx Reply) db)
      ((do return reply (← get) : Tx Reply) db') := by
  rw [get_bind, get_bind, hr]
  exact .ok _ h

theorem lookup_agree {α : Type} {R : Db → Db → Prop} {lookup : Db → Except Failure α}
    {reply : α → Reply} (hl : lookup db = lookup db') (h : R db db') :
    Agree R ((do return reply (← raise (lookup (← get))) : Tx Reply) db)
      ((do return reply (← raise (lookup (← get))) : Tx Reply) db') := by
  rw [get_bind, get_bind]
  exact (raise_agree hl h).bind fun _ _ _ h => .ok _ h

theorem raise_preserves {α : Type} {P : Db → Prop} (r : Except Failure α) :
    Preserves P (raise r) := by
  cases r with
  | ok a => exact .pure a
  | error e => exact .throw e

theorem mem_foreignBlobNames {uploadId : UUID} {day : Date} (hh : other ≠ householdId) :
    receiptBlobName other uploadId day ∈ foreignBlobNames householdId :=
  ⟨other, hh, uploadId, day, rfl⟩

theorem not_mem_foreignBlobNames {uploadId : UUID} {day : Date} :
    receiptBlobName householdId uploadId day ∉ foreignBlobNames householdId := by
  rintro ⟨other, hh, uploadId', day', hb⟩
  exact hh (householdId_of_receiptBlobName hb).symm

variable [UnicodeTables]

/-- An operation of the household answers alike and leaves alike. -/
theorem run_agree {operation : Operation} (h : Alike F householdId db db')
    (ha : operation.Avoids F) (hn : operation.NamedByServer householdId) :
    Agree (Alike F householdId) (operation.run householdId db)
      (operation.run householdId db') := by
  cases operation with
  | append now id event =>
    exact (append_agree h (ha.eventIds id (List.mem_singleton_self id))
      (ha.keys _ (List.mem_singleton_self _))).bind fun e _ _ h => .ok _ h
  | appendMany now events =>
    refine (appendMany_agree h fun e he => ⟨ha.eventIds _ ?_, ha.keys _ ?_⟩).bind
      fun es _ _ h => .ok _ h
    · exact List.mem_map_of_mem he
    · exact List.mem_map_of_mem (f := fun e : UUID × NewInventoryEvent => e.2.idempotencyKey) he
  | appendIfNew now id event =>
    exact (appendIfNew_agree h (ha.eventIds id (List.mem_singleton_self id))
      (ha.keys _ (List.mem_singleton_self _))).bind fun e _ _ h => .ok _ h
  | eventsKnownAsOf asOf canonicalProductId =>
    refine read_agree ?_ h
    unfold InventoryEventRepository.eventsKnownAsOf
    rw [h.events]
  | eventsKnownBetween after asOf =>
    refine read_agree ?_ h
    rw [InventoryEventRepository.eventsKnownBetween, h.events]
    rfl
  | getEvent eventId =>
    refine lookup_agree ?_ h
    rw [InventoryEventRepository.getEvent, h.events]
    rfl
  | getByIdempotencyKey key => exact lookup_agree (getByIdempotencyKey_congr h) h
  | countKnownAsOf asOf =>
    refine read_agree ?_ h
    rw [InventoryEventRepository.countKnownAsOf, h.events]
    rfl
  | latestRecordedAt asOf =>
    refine read_agree ?_ h
    rw [InventoryEventRepository.latestRecordedAt, h.events]
    rfl
  | productsKnownAsOf asOf =>
    refine read_agree ?_ h
    rw [InventoryEventRepository.productsKnownAsOf, h.events]
    rfl
  | getSnapshot => exact read_agree (congrArg Reply.snapshotOrNone (stored_congr h)) h
  | projectKnownAsOf asOf => exact (projectKnownAsOf_agree h).bind fun S _ _ h => .ok _ h
  | rebuild asOf => exact (rebuild_agree h).bind fun S _ _ h => .ok _ h
  | advance asOf => exact (advance_agree h).bind fun S _ _ h => .ok _ h
  | save snapshot => exact (save_agree h snapshot).bind fun _ _ _ h => .ok _ h
  | clear => exact (clear_agree h).bind fun _ _ _ h => .ok _ h
  | recordRequest uploadId blobName contentType requestedAt expiresAt =>
    obtain ⟨day, rfl⟩ := hn
    exact (recordRequest_agree h (ha.uploadIds _ (List.mem_singleton_self _))
      not_mem_foreignBlobNames).bind fun _ _ _ h => .ok _ h
  | getUpload uploadId =>
    refine lookup_agree ?_ h
    rw [ReceiptUploadRepository.get, row_congr h]
    rfl
  | confirm uploadId at_ => exact (confirm_agree h).bind fun _ _ _ h => .ok _ h
  | unconfirmed asOf =>
    refine read_agree ?_ h
    rw [ReceiptUploadRepository.unconfirmed, h.uploads]
    rfl

/-- An operation of another household keeps a database alike. -/
theorem run_preserves {operation : Operation} (hh : other ≠ householdId)
    (hw : operation.Within F) (hn : operation.NamedByServer other) :
    Preserves (fun db => Alike F householdId db db') (operation.run other) := by
  cases operation with
  | append now id event =>
    exact (append_preserves hh (hw.eventIds id (List.mem_singleton_self id))
      (hw.keys _ (List.mem_singleton_self _))).bind fun _ => .pure _
  | appendMany now events =>
    refine (appendMany_preserves hh fun e he => ⟨hw.eventIds _ ?_, hw.keys _ ?_⟩).bind
      fun _ => .pure _
    · exact List.mem_map_of_mem he
    · exact List.mem_map_of_mem (f := fun e : UUID × NewInventoryEvent => e.2.idempotencyKey) he
  | appendIfNew now id event =>
    exact (appendIfNew_preserves hh (hw.eventIds id (List.mem_singleton_self id))
      (hw.keys _ (List.mem_singleton_self _))).bind fun _ => .pure _
  | eventsKnownAsOf | eventsKnownBetween | countKnownAsOf | latestRecordedAt | productsKnownAsOf
  | getSnapshot | unconfirmed => exact Preserves.get.bind fun _ => .pure _
  | getEvent | getByIdempotencyKey | getUpload =>
    exact Preserves.get.bind fun _ => (raise_preserves _).bind fun _ => .pure _
  | projectKnownAsOf asOf => exact (projectKnownAsOf_preserves asOf).bind fun _ => .pure _
  | rebuild asOf => exact (rebuild_preserves (save_preserves hh) asOf).bind fun _ => .pure _
  | advance asOf => exact (advance_preserves (save_preserves hh) asOf).bind fun _ => .pure _
  | save snapshot => exact (save_preserves hh snapshot).bind fun _ => .pure _
  | clear => exact (clear_preserves hh).bind fun _ => .pure _
  | recordRequest uploadId blobName contentType requestedAt expiresAt =>
    obtain ⟨day, rfl⟩ := hn
    exact (recordRequest_preserves hh (hw.uploadIds _ (List.mem_singleton_self _))
      (mem_foreignBlobNames hh)).bind fun _ => .pure _
  | confirm uploadId at_ => exact (confirm_preserves hh).bind fun _ => .pure _

end Operation

section Runs

variable {F : Foreign} {householdId : UUID} {db db' : Db}

def callsOf (householdId : UUID) (calls : List Call) : List Call :=
  calls.filter fun c => c.householdId = householdId

def callsOfOthers (householdId : UUID) (calls : List Call) : List Call :=
  calls.filter fun c => c.householdId ≠ householdId

def used {κ : Type} (uses : Operation → List κ) (calls : List Call) : List κ :=
  calls.flatMap fun c => uses c.operation

theorem mem_used {κ : Type} {uses : Operation → List κ} {calls : List Call} {c : Call} {k : κ}
    (hc : c ∈ calls) (hk : k ∈ uses c.operation) : k ∈ used uses calls :=
  List.mem_flatMap.mpr ⟨c, hc, hk⟩

/-- The household and the others append and record under different keys and ids. -/
structure Separate (householdId : UUID) (calls : List Call) : Prop where
  keys : (used Operation.keys (callsOf householdId calls)).Disjoint
    (used Operation.keys (callsOfOthers householdId calls))
  eventIds : (used Operation.eventIds (callsOf householdId calls)).Disjoint
    (used Operation.eventIds (callsOfOthers householdId calls))
  uploadIds : (used Operation.newUploadIds (callsOf householdId calls)).Disjoint
    (used Operation.newUploadIds (callsOfOthers householdId calls))
  named : ∀ c ∈ calls, c.operation.NamedByServer c.householdId

def foreignOf (householdId : UUID) (calls : List Call) : Foreign where
  keys := {key | key ∈ used Operation.keys (callsOfOthers householdId calls)}
  eventIds := {id | id ∈ used Operation.eventIds (callsOfOthers householdId calls)}
  uploadIds := {id | id ∈ used Operation.newUploadIds (callsOfOthers householdId calls)}

theorem Separate.avoids {calls : List Call} (hs : Separate householdId calls) {c : Call}
    (hc : c ∈ calls) (hh : c.householdId = householdId) :
    c.operation.Avoids (foreignOf householdId calls) := by
  have hm : c ∈ callsOf householdId calls := List.mem_filter.mpr ⟨hc, decide_eq_true hh⟩
  exact ⟨fun key hk => hs.keys (mem_used hm hk), fun id hi => hs.eventIds (mem_used hm hi),
    fun id hi => hs.uploadIds (mem_used hm hi)⟩

theorem within_foreignOf {calls : List Call} {c : Call} (hc : c ∈ calls)
    (hh : c.householdId ≠ householdId) : c.operation.Within (foreignOf householdId calls) := by
  have hm : c ∈ callsOfOthers householdId calls := List.mem_filter.mpr ⟨hc, decide_eq_true hh⟩
  exact ⟨fun _ hk => mem_used hm hk, fun _ hi => mem_used hm hi, fun _ hi => mem_used hm hi⟩

variable [UnicodeTables]

/-- One run against the run without the calls of others, from databases that are alike. -/
theorem runCalls_alike {calls : List Call} (h : Alike F householdId db db')
    (hn : ∀ c ∈ calls, c.operation.NamedByServer c.householdId)
    (ha : ∀ c ∈ calls, c.householdId = householdId → c.operation.Avoids F)
    (hw : ∀ c ∈ calls, c.householdId ≠ householdId → c.operation.Within F) :
    (runCalls db calls).1.filter (fun p => p.1 = householdId) =
        (runCalls db' (callsOf householdId calls)).1 ∧
      Alike F householdId (runCalls db calls).2
        (runCalls db' (callsOf householdId calls)).2 := by
  induction calls generalizing db db' with
  | nil => exact ⟨rfl, h⟩
  | cons c calls ih =>
    obtain ⟨hn, hns⟩ := List.forall_mem_cons.mp hn
    obtain ⟨ha, has⟩ := List.forall_mem_cons.mp ha
    obtain ⟨hw, hws⟩ := List.forall_mem_cons.mp hw
    by_cases hc : c.householdId = householdId
    · have hagree := Operation.run_agree h (ha hc) (hc ▸ hn)
      obtain ⟨hanswers, hdb⟩ := ih (hagree.commit h) hns has hws
      simp only [callsOf, runCalls, List.filter_cons, hc, decide_true, if_true]
      rw [callsOf] at hanswers hdb
      rw [hanswers, hagree.answer]
      exact ⟨rfl, hdb⟩
    · have hp : Alike F householdId ((c.operation.run c.householdId).commit db) db' :=
        (Operation.run_preserves hc (hw hc) hn).commit h
      obtain ⟨hanswers, hdb⟩ := ih hp hns has hws
      simp only [callsOf, runCalls, List.filter_cons, hc, decide_false, Bool.false_eq_true, if_false]
      exact ⟨hanswers, hdb⟩

theorem upload_not_found (db : Db) {other uploadId : UUID}
    (h : ∀ r ∈ db.uploads, r.id = uploadId → r.householdId ≠ other) (at_ : Instant) :
    (Operation.confirm uploadId at_).run other db = .ok (.uploadOrNone none, db) ∧
      (Operation.getUpload uploadId).run other db = .ok (.uploadOrNone none, db) := by
  have hr : ReceiptUploadRepository.row db.uploads other uploadId = .ok none := by
    rw [ReceiptUploadRepository.row, oneOrNone_eq_none, List.filter_eq_nil_iff]
    intro r hm
    simp only [ReceiptUploadRepository.scopedTo, List.mem_filter, decide_eq_true_eq] at hm ⊢
    exact fun hid => h r hm.1 hid hm.2
  constructor
  · exact bind_of_ok (confirm_of_none at_ hr)
  · rw [Operation.run, get_bind, ReceiptUploadRepository.get, hr]
    rfl

/-- Deleting the calls of others changes nothing for a household, and its uploads stay unseen. -/
theorem households_do_not_interfere {calls : List Call} (hu : (db.uploads.map (·.id)).Nodup)
    (hs : Separate householdId calls) :
    let full := runCalls db calls
    let own := runCalls db (callsOf householdId calls)
    full.1.filter (fun p => p.1 = householdId) = own.1 ∧
      full.2.ownedBy householdId = own.2.ownedBy householdId ∧
      ∀ other ≠ householdId, ∀ r ∈ full.2.uploads, r.householdId = householdId →
        ∀ unknown, (∀ r ∈ full.2.uploads, r.id ≠ unknown) → ∀ at_ : Instant,
        (Operation.confirm r.id at_).run other full.2 =
            (Operation.confirm unknown at_).run other full.2 ∧
          (Operation.getUpload r.id).run other full.2 =
            (Operation.getUpload unknown).run other full.2 := by
  intro full own
  obtain ⟨hanswers, halike⟩ := runCalls_alike (F := foreignOf householdId calls) (.refl hu)
    hs.named (fun c hc => hs.avoids hc) fun c hc => within_foreignOf hc
  refine ⟨hanswers, halike.owned, fun other ho r hr hh unknown hn at_ => ?_⟩
  have howned : ∀ r' ∈ full.2.uploads, r'.id = r.id → r'.householdId ≠ other := by
    intro r' hr' hid
    rw [List.inj_on_of_nodup_map halike.uniqueIds hr' hr hid, hh]
    exact ho.symm
  have hunknown : ∀ r' ∈ full.2.uploads, r'.id = unknown → r'.householdId ≠ other :=
    fun r' hr' hid => absurd hid (hn r' hr')
  have hfound := upload_not_found full.2 howned at_
  have hnone := upload_not_found full.2 hunknown at_
  exact ⟨hfound.1.trans hnone.1.symm, hfound.2.trans hnone.2.symm⟩

end Runs

/-- The second household records an upload under the blob name that the first one records next. -/
def sharedBlobName : List Call :=
  [⟨2, .recordRequest 100 "x" "image/png" 0 300⟩, ⟨1, .recordRequest 101 "x" "image/png" 0 300⟩]

/-- Blob names are unique over all households, so a request can fail because of another one's. -/
theorem households_interfere_sharedBlobName :
    letI := asciiTables
    (used Operation.keys (callsOf 1 sharedBlobName)).Disjoint
        (used Operation.keys (callsOfOthers 1 sharedBlobName)) ∧
      (used Operation.eventIds (callsOf 1 sharedBlobName)).Disjoint
        (used Operation.eventIds (callsOfOthers 1 sharedBlobName)) ∧
      (used Operation.newUploadIds (callsOf 1 sharedBlobName)).Disjoint
        (used Operation.newUploadIds (callsOfOthers 1 sharedBlobName)) ∧
      ((runCalls emptyKitchen sharedBlobName).1.filter fun p => p.1 = 1) =
        [(1, .error (.upload .blobNameUnique))] ∧
      (runCalls emptyKitchen (callsOf 1 sharedBlobName)).1 =
        [(1, .ok (.upload ⟨101, 1, "x", "image/png", 0, 300, none⟩))] := by
  have h : used Operation.newUploadIds (callsOf 1 sharedBlobName) = [101] := by decide
  have h' : used Operation.newUploadIds (callsOfOthers 1 sharedBlobName) = [100] := by decide
  refine ⟨List.disjoint_nil_left _, List.disjoint_nil_left _, ?_, by decide +kernel,
    by decide +kernel⟩
  rw [h, h']
  simp

/-- The second household names an event and an upload of the first and appends an event. -/
def crossingCalls : List Call :=
  [⟨1, .append 5 10 (purchase "a" 3)⟩, ⟨2, .append 5 20 (purchase "b" 3)⟩,
    ⟨1, .recordRequest 100 (receiptBlobName 1 100 ⟨2026, 3, 5, by decide, by decide, by decide⟩)
      "image/png" 0 300⟩,
    ⟨2, .getEvent 10⟩, ⟨1, .rebuild 9⟩, ⟨2, .confirm 100 6⟩, ⟨2, .rebuild 9⟩, ⟨1, .confirm 100 7⟩,
    ⟨2, .clear⟩]

theorem crossingCalls_separate : Separate 1 crossingCalls where
  keys := by
    have h : used Operation.keys (callsOf 1 crossingCalls) = ["a"] := by decide
    have h' : used Operation.keys (callsOfOthers 1 crossingCalls) = ["b"] := by decide
    rw [h, h']
    simp
  eventIds := by
    have h : used Operation.eventIds (callsOf 1 crossingCalls) = [10] := by decide
    have h' : used Operation.eventIds (callsOfOthers 1 crossingCalls) = [20] := by decide
    rw [h, h']
    simp
  uploadIds := by
    have h : used Operation.newUploadIds (callsOfOthers 1 crossingCalls) = [] := by decide
    rw [h]
    exact List.disjoint_nil_right _
  named := by
    intro c hc
    simp only [crossingCalls, List.mem_cons, List.not_mem_nil, or_false] at hc
    rcases hc with rfl | rfl | rfl | rfl | rfl | rfl | rfl | rfl | rfl
    case inr.inr.inl => exact ⟨_, rfl⟩
    all_goals trivial

theorem households_do_not_interfere_crossingCalls :
    letI := asciiTables
    let full := runCalls emptyKitchen crossingCalls
    full.2.uploads.map (·.confirmedAt) = [some 7] ∧
      (full.1.filter fun p => p.1 = 2).tail.take 2 =
        [(2, .ok (.eventOrNone none)), (2, .ok (.uploadOrNone none))] ∧
      full.2.ownedBy 1 = (runCalls emptyKitchen (callsOf 1 crossingCalls)).2.ownedBy 1 := by
  let _ := asciiTables
  refine ⟨by decide +kernel, by decide +kernel, ?_⟩
  have hu : (emptyKitchen.uploads.map (·.id)).Nodup := List.nodup_nil
  exact (households_do_not_interfere hu crossingCalls_separate).2.1

end KitchenSense
