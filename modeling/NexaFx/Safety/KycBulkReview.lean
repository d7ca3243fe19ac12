import NexaFx.Model.Kyc

/-!
# NexaFx — what a bulk review leaves behind

A bulk review with nobody else at the documents, while time passes before each
of its statements. Each review decides the document it is about, if it can, and
touches no other; so a batch decides the reviewable documents of its ids, in
whatever order and however often these are listed.

Main result: `bulk_review_accounts`.
-/

namespace NexaFx

open Async

namespace Kyc

/-! ## Statements that nobody overlaps -/

/-- The database, and how long it takes until the next statements. -/
abbrev Clocked := KycDb × (ℕ → ℕ)

def execAlone (rows : Pick) (c : KycCmd) (s : Clocked) : Except KycErr (c.Reply × Clocked) :=
  (exec rows c { s.1 with now := s.1.now + s.2 0 }).map fun r => (r.1, r.2, fun n => s.2 (n + 1))

/-! ## Decisions -/

/-- The document as the review leaves it at the time `t`. -/
def KycDocument.decide (dto : ReviewKycDto) (t : ℕ) (d : KycDocument) : KycDocument :=
  { d with status := dto.status, reviewedBy := some dto.reviewerId, reviewedAt := some t }

/-- The document after reviews of `ids` at the times `at'`. -/
def KycDocument.settle (dto : ReviewKycDto) (ids : List ℕ) (at' : ℕ → ℕ) (d : KycDocument) :
    KycDocument :=
  if d.id ∈ ids ∧ d.status.undecided = true then d.decide dto (at' d.id) else d

/-- The document without the time of its review. -/
def KycDocument.untimed (d : KycDocument) : KycDocument := { d with reviewedAt := none }

/-- Why a document cannot be reviewed. -/
def KycDb.refusal (db : KycDb) (id : ℕ) : Option String :=
  match db.document id with
  | none => some (notFoundMessage id)
  | some d => if d.status.undecided = true then none else some "Document has already been reviewed"

def KycDb.failures (db : KycDb) (ids : List ℕ) : List Failure :=
  ids.filterMap fun id => (db.refusal id).map (⟨id, ·⟩)

section Settle

variable {dto : ReviewKycDto} {ids : List ℕ} {at' : ℕ → ℕ} {db db' : KycDb} {id : ℕ}

@[simp] theorem settle_id (d : KycDocument) : (d.settle dto ids at').id = d.id := by
  unfold KycDocument.settle
  split <;> rfl

theorem settle_notMem {d : KycDocument} (h : d.id ∉ ids) : d.settle dto ids at' = d :=
  if_neg fun hd => h hd.1

theorem settle_nil (d : KycDocument) : d.settle dto [] at' = d := settle_notMem List.not_mem_nil

/-- The order of the ids, and how often they are listed, is immaterial. -/
theorem settle_congr {ids' : List ℕ} (h : ∀ id, id ∈ ids ↔ id ∈ ids') (d : KycDocument) :
    d.settle dto ids at' = d.settle dto ids' at' := by
  unfold KycDocument.settle
  simp only [h d.id]

theorem settle_untimed (at₁ at₂ : ℕ → ℕ) (d : KycDocument) :
    (d.settle dto ids at₁).untimed = (d.settle dto ids at₂).untimed := by
  unfold KycDocument.settle
  split <;> rfl

/-- A review of `id`, and then reviews of others. -/
theorem settle_settle (hid : id ∉ ids) (t : ℕ) (d : KycDocument) :
    (d.settle dto [id] fun _ => t).settle dto ids at' =
      d.settle dto (id :: ids) (Function.update at' id t) := by
  by_cases hd : d.id = id
  · rw [settle_notMem (by rw [settle_id, hd]; exact hid)]
    unfold KycDocument.settle
    rw [hd, Function.update_self]
    simp
  · have hid' : d.id ∉ [id] := by rwa [List.mem_singleton]
    rw [settle_notMem hid']
    unfold KycDocument.settle
    rw [Function.update_of_ne hd]
    simp only [List.mem_cons, hd, false_or]

theorem document_settle (h : db'.documents = db.documents.map (·.settle dto ids at')) (id : ℕ) :
    db'.document id = (db.document id).map (·.settle dto ids at') := by
  unfold KycDb.document
  rw [h, List.find?_map]
  congr 2
  funext d
  rw [Function.comp_apply, settle_id]

theorem refusal_notMem (h : db'.documents = db.documents.map (·.settle dto ids at'))
    (hid : id ∉ ids) : db'.refusal id = db.refusal id := by
  have hdocument : db'.document id = db.document id := by
    rw [document_settle h]
    cases hd : db.document id with
    | none => rfl
    | some d =>
      have heq := Table.key_of_get KycDocument.id hd
      rw [Option.map_some, settle_notMem (by rwa [heq])]
  unfold KycDb.refusal
  rw [hdocument]

end Settle

/-! ## One review -/

section Review

variable {rows : Pick} {i id : ℕ} {dto : ReviewKycDto} {db : KycDb} {ticks : ℕ → ℕ}

theorem nodup_documents (db : KycDb) : (db.documents.map KycDocument.id).Nodup := by
  have hsame : db.documents.map KycDocument.id = (db.rows.filter Row.committed).map Row.id := by
    rw [KycDb.documents, List.map_map]
    rfl
  rw [hsame]
  exact Table.nodup_filter Row.id db.keyed _

/-- A save reaches the committed rows. -/
theorem documents_save (db : KycDb) (i : ℕ) (d : KycDocument) :
    (db.save i d).documents = db.documents.map fun x => if x.id = d.id then d else x := by
  show ((db.rows.map (Row.update d)).filter Row.committed).map Row.doc =
    ((db.rows.filter Row.committed).map Row.doc).map _
  rw [List.filter_map, List.map_map, List.map_map]
  have hkept : Row.committed ∘ Row.update d = Row.committed := by
    funext r
    unfold Row.committed
    rw [Function.comp_apply, Row.update_openIn]
  rw [hkept]
  refine List.map_congr_left fun r hr => ?_
  have hcommitted : r.openIn = none := by
    have hr := List.of_mem_filter hr
    simpa [Row.committed] using hr
  rw [Function.comp_apply, Function.comp_apply, Row.update]
  by_cases hid : r.id = d.id
  · rw [if_pos ⟨hid, hcommitted⟩]
    exact (if_pos hid).symm
  · rw [if_neg fun h => hid h.1]
    exact (if_neg hid).symm

/-- The document that was found is saved as decided. -/
theorem documents_save_decided {d : KycDocument} (hd : db.document id = some d)
    (hundecided : d.status.undecided = true) (t : ℕ) :
    (db.save i (d.decide dto t)).documents = db.documents.map (·.settle dto [id] fun _ => t) := by
  have hid := Table.key_of_get KycDocument.id hd
  rw [documents_save]
  refine List.map_congr_left fun x hx => ?_
  unfold KycDocument.settle
  by_cases hx' : x.id = id
  · obtain rfl : x = d := List.inj_on_of_nodup_map (nodup_documents db) hx
      (Table.mem_of_get KycDocument.id hd) (hx'.trans hid.symm)
    have hsame : x.id = (x.decide dto t).id := rfl
    rw [if_pos hsame, if_pos ⟨List.mem_singleton.mpr hid, hundecided⟩]
  · have hne : x.id ≠ (d.decide dto t).id := fun h => hx' (h.trans hid)
    rw [if_neg hne, if_neg fun h => hx' (List.mem_singleton.mp h.1)]

/-- A review could not decide a document that is refused. -/
theorem documents_of_refusal (dto : ReviewKycDto) {message : String}
    (h : db.refusal id = some message) (t : ℕ) :
    db.documents = db.documents.map (·.settle dto [id] fun _ => t) := by
  have hsettled : ∀ d ∈ db.documents, d.settle dto [id] (fun _ => t) = d := by
    intro d hd
    refine if_neg ?_
    rintro ⟨hid, hundecided⟩
    have hdocument : db.document id = some d := by
      rw [← List.mem_singleton.mp hid]
      exact Table.get_of_mem KycDocument.id (nodup_documents db) hd
    rw [KycDb.refusal, hdocument] at h
    simp [hundecided] at h
  calc db.documents = db.documents.map fun d => d := (List.map_id' _).symm
    _ = _ := List.map_congr_left fun d hd => (hsettled d hd).symm

variable (rows i) in
/-- A review that is refused changes nothing. -/
theorem review_refused {message : String} (h : db.refusal id = some message) :
    ∃ e db' ticks', (review i id dto).run (execAlone rows) Proc.noFault (db, ticks) =
        (.error e, db', ticks') ∧
      e.message = message ∧ db'.documents = db.documents ∧ db.now ≤ db'.now := by
  unfold KycDb.refusal at h
  unfold review
  simp only [Proc.bind_eq]
  rw [Proc.run_call_bind_ok (a := db.document id) rfl rfl]
  split at h
  · rename_i hnone
    rw [hnone]
    exact ⟨_, _, _, rfl, Option.some.inj h, rfl, Nat.le_add_right _ _⟩
  · rename_i d hd
    rw [hd]
    split at h
    · simp at h
    · rename_i hdecided
      have hstatus : d.status ≠ .pending ∧ d.status ≠ .appealed := by
        constructor <;>
        · intro heq
          rw [heq] at hdecided
          exact hdecided rfl
      show ∃ e db' ticks', ((Proc.rejectWhen _ _).bind _).run _ _ _ = _ ∧ _
      rw [Proc.run_rejectWhen_bind, if_pos hstatus]
      exact ⟨_, _, _, rfl, Option.some.inj h, rfl, Nat.le_add_right _ _⟩

variable (rows i) in
/-- A review that is not refused decides its document. -/
theorem review_decides (h : db.refusal id = none) :
    ∃ d t db' ticks', (review i id dto).run (execAlone rows) Proc.noFault (db, ticks) =
        (.ok d, db', ticks') ∧
      db'.documents = db.documents.map (·.settle dto [id] fun _ => t) ∧
      db.now ≤ t ∧ t ≤ db'.now := by
  unfold KycDb.refusal at h
  unfold review
  simp only [Proc.bind_eq]
  rw [Proc.run_call_bind_ok (a := db.document id) rfl rfl]
  split at h
  · simp at h
  · rename_i d hd
    rw [hd]
    split at h
    · rename_i hundecided
      have hstatus : ¬ (d.status ≠ .pending ∧ d.status ≠ .appealed) := by
        rintro ⟨hpending, happealed⟩
        unfold KycDocumentStatus.undecided at hundecided
        split at hundecided
        · exact hpending ‹_›
        · exact happealed ‹_›
        · simp at hundecided
      show ∃ d' t db' ticks', ((Proc.rejectWhen _ _).bind _).run _ _ _ = _ ∧ _
      rw [Proc.run_rejectWhen_bind, if_neg hstatus]
      refine ⟨d.decide dto (db.now + ticks 0 + ticks 1), db.now + ticks 0 + ticks 1, _, _, rfl,
        documents_save_decided (i := i) hd hundecided _, ?_, ?_⟩
      · omega
      · show db.now + ticks 0 + ticks 1 ≤ db.now + ticks 0 + ticks 1 + ticks 2 + ticks 3
        omega
    · simp at h

end Review

/-! ## The batch -/

theorem nodup_eraseDups {α : Type} [DecidableEq α] (l : List α) : l.eraseDups.Nodup := by
  induction h : l.length using Nat.strong_induction_on generalizing l with
  | _ n ih =>
    cases l with
    | nil => simp
    | cons a rest =>
      rw [List.eraseDups_cons, List.nodup_cons]
      constructor
      · simp [List.mem_eraseDups]
      · refine ih _ ?_ _ rfl
        have hle := List.length_filter_le (fun b => !b == a) rest
        rw [List.length_cons] at h
        omega

/-- The same ids, in another order or listed again. -/
theorem eraseDups_perm {α : Type} [DecidableEq α] {l l' : List α} (h : ∀ a, a ∈ l ↔ a ∈ l') :
    l.eraseDups.Perm l'.eraseDups :=
  (List.perm_ext_iff_of_nodup (nodup_eraseDups l) (nodup_eraseDups l')).mpr fun a => by
    rw [List.mem_eraseDups, List.mem_eraseDups, h a]

section Batch

variable {rows : Pick} {i : ℕ} {dto : ReviewKycDto}

variable (rows i dto) in
/-- One review of the loop. -/
theorem review_settles (id : ℕ) (db : KycDb) (ticks : ℕ → ℕ) : ∃ r t db' ticks',
    (review i id dto).run (execAlone rows) Proc.noFault (db, ticks) = (r, db', ticks') ∧
      (match r with
        | .ok _ => db.refusal id = none
        | .error e => db.refusal id = some e.message) ∧
      db'.documents = db.documents.map (·.settle dto [id] fun _ => t) ∧
      db.now ≤ t ∧ t ≤ db'.now := by
  cases hrefusal : db.refusal id with
  | none =>
    obtain ⟨d, t, db', ticks', hrun, hrest⟩ := review_decides rows i hrefusal
    exact ⟨_, t, db', ticks', hrun, rfl, hrest⟩
  | some message =>
    obtain ⟨e, db', ticks', hrun, hmessage, hdocuments, hnow⟩ :=
      review_refused rows i hrefusal
    refine ⟨_, db.now, db', ticks', hrun, congrArg some hmessage.symm, ?_, le_refl _, hnow⟩
    rw [hdocuments]
    exact documents_of_refusal dto hrefusal db.now

theorem failures_notMem {id t : ℕ} {ids : List ℕ} {db db' : KycDb}
    (h : db'.documents = db.documents.map (·.settle dto [id] fun _ => t)) (hid : id ∉ ids) :
    db'.failures ids = db.failures ids := by
  refine List.filterMap_congr fun j hj => ?_
  have hne : j ∉ [id] := fun hmem => hid (List.mem_singleton.mp hmem ▸ hj)
  rw [refusal_notMem h hne]

variable (rows i dto) in
/-- The loop decides the documents of its ids and gathers the refusals. -/
theorem reviewEach_run (ids : List ℕ) (hnodup : ids.Nodup) (failed : List Failure) (db : KycDb)
    (ticks : ℕ → ℕ) : ∃ at' db' ticks',
      (reviewEach i dto ids failed).run (execAlone rows) Proc.noFault (db, ticks) =
        (.ok (failed ++ db.failures ids), db', ticks') ∧
      db'.documents = db.documents.map (·.settle dto ids at') ∧
      (∀ id ∈ ids, db.now ≤ at' id ∧ at' id ≤ db'.now) ∧ db.now ≤ db'.now := by
  induction ids generalizing failed db ticks with
  | nil =>
    refine ⟨id, db, ticks, ?_, ?_, fun id hid => absurd hid List.not_mem_nil, le_refl _⟩
    · rw [KycDb.failures, List.filterMap_nil, List.append_nil]
      rfl
    · simp [settle_nil]
  | cons id ids ih =>
    obtain ⟨hid, hnodup⟩ := List.nodup_cons.mp hnodup
    obtain ⟨r, t, db₁, ticks₁, hrun, hr, hdocuments, hfrom, hto⟩ :=
      review_settles rows i dto id db ticks
    -- what the rest of the loop makes of the failures up to here
    have hrest (failed' : List Failure) (hfailed : failed' ++ db.failures ids =
        failed ++ db.failures (id :: ids)) (hloop : (reviewEach i dto (id :: ids) failed).run
          (execAlone rows) Proc.noFault (db, ticks) = (reviewEach i dto ids failed').run
          (execAlone rows) Proc.noFault (db₁, ticks₁)) : ∃ at' db' ticks',
        (reviewEach i dto (id :: ids) failed).run (execAlone rows) Proc.noFault (db, ticks) =
          (.ok (failed ++ db.failures (id :: ids)), db', ticks') ∧
        db'.documents = db.documents.map (·.settle dto (id :: ids) at') ∧
        (∀ j ∈ id :: ids, db.now ≤ at' j ∧ at' j ≤ db'.now) ∧ db.now ≤ db'.now := by
      obtain ⟨at', db', ticks', hends, hdocuments', hat, hnow⟩ := ih hnodup failed' db₁ ticks₁
      refine ⟨Function.update at' id t, db', ticks', ?_, ?_, fun j hj => ?_, by omega⟩
      · rw [hloop, hends, failures_notMem hdocuments hid, hfailed]
      · rw [hdocuments', hdocuments, List.map_map]
        exact List.map_congr_left fun d _ => settle_settle hid t d
      · by_cases hj' : j = id
        · rw [hj', Function.update_self]
          omega
        · rw [Function.update_of_ne hj']
          have hbounds := hat j ((List.mem_cons.mp hj).resolve_left hj')
          omega
    have hloop : (reviewEach i dto (id :: ids) failed).run (execAlone rows) Proc.noFault
        (db, ticks) = (match r with
          | .ok _ => reviewEach i dto ids failed
          | .error e => reviewEach i dto ids (failed ++ [(⟨id, e.message⟩ : Failure)])).run
            (execAlone rows) Proc.noFault (db₁, ticks₁) := by
      rw [reviewEach]
      simp only [Proc.bind_eq]
      cases r <;> rw [Proc.run_attempt_bind, hrun]
    cases r with
    | ok d =>
      refine hrest failed ?_ hloop
      rw [KycDb.failures, KycDb.failures, List.filterMap_cons, hr]
      rfl
    | error e =>
      refine hrest (failed ++ [(⟨id, e.message⟩ : Failure)]) ?_ hloop
      rw [KycDb.failures, KycDb.failures, List.filterMap_cons, hr, List.append_assoc]
      rfl

/-- What a bulk review answers and leaves behind. -/
structure Accounted (dto : BulkReviewDto) (db : KycDb) (result : BulkReviewResult) (db' : KycDb) :
    Prop where
  documents : ∃ at' : ℕ → ℕ, db'.documents = db.documents.map (·.settle dto.decision dto.kycIds at') ∧
    ∀ id ∈ dto.kycIds, db.now ≤ at' id ∧ at' id ≤ db'.now
  failed : result.failed = db.failures dto.kycIds.eraseDups
  processed : result.processed = dto.kycIds.eraseDups.length
  counted : result.succeeded + result.failed.length = result.processed

variable (rows i) in
/-- The batch runs through, whatever the ids and the documents are. -/
theorem bulkReview_run (dto : BulkReviewDto) (db : KycDb) (ticks : ℕ → ℕ)
    (hsome : dto.kycIds.eraseDups ≠ []) (hmax : dto.kycIds.eraseDups.length ≤ maxBulkReviewIds) :
    ∃ result db' ticks', (bulkReview i dto).run (execAlone rows) Proc.noFault (db, ticks) =
      (.ok result, db', ticks') ∧ Accounted dto db result db' := by
  obtain ⟨at', db', ticks', hrun, hdocuments, hat, -⟩ :=
    reviewEach_run rows i dto.decision dto.kycIds.eraseDups
      (nodup_eraseDups _) [] db ticks
  refine ⟨⟨dto.kycIds.eraseDups.length, dto.kycIds.eraseDups.length -
    (db.failures dto.kycIds.eraseDups).length, db.failures dto.kycIds.eraseDups⟩, db', ticks',
    ?_, ⟨at', ?_, fun id hid => hat id (List.mem_eraseDups.mpr hid)⟩, rfl, rfl, ?_⟩
  · unfold bulkReview
    simp only [Proc.bind_eq]
    rw [Proc.run_rejectWhen_bind, if_neg fun h => hsome (List.length_eq_zero_iff.mp h),
      Proc.run_rejectWhen_bind, if_neg (not_lt.mpr hmax), Proc.run_bind_ok hrun]
    rfl
  · rw [hdocuments]
    exact List.map_congr_left fun d _ => settle_congr (fun id => List.mem_eraseDups) d
  · exact Nat.sub_add_cancel (List.length_filterMap_le _ _)

/-- Document `id` of user `id`, with the status. -/
def document (id : ℕ) (status : KycDocumentStatus) : KycDocument :=
  ⟨id, id, "passport", "X1", "https://kyc.example/1", status, none, none, none⟩

/-- A pending, an approved and an appealed document. -/
def threeDocuments : KycDb where
  rows := [⟨document 1 .pending, none⟩, ⟨document 2 .approved, none⟩, ⟨document 3 .appealed, none⟩]
  keyed := by decide
  now := 0
  stores := []
  reviewed := []

/-- The ids 3, 4 and 1, the first twice. -/
def threeIds : BulkReviewDto := ⟨[3, 4, 3, 1], approval 9⟩

end Batch

end Kyc

end NexaFx
