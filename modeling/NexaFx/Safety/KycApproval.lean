import NexaFx.Lib.RelyGuarantee
import NexaFx.Model.Kyc

/-!
# NexaFx — reading the KYC approval

Over the years a user can collect several approved documents. `isApproved` and
`checkExpiry` each load one of them, whichever the database returns.

* `prog_writes` — what each call writes, whatever it is answered;
* `approval_read_iff` — in every state reached, both answer as all approved
  documents of the user together say if and only if none of these is current, or
  all were reviewed at one instant.
-/

namespace NexaFx

open Async

namespace Kyc

-- ---------------------------------------------------------------------------
-- What the calls write
-- ---------------------------------------------------------------------------

/-- What a review stores and announces. -/
structure ReviewKycDto.Decides (dto : ReviewKycDto) (id : ℕ) (d : KycDocument) : Prop where
  id : d.id = id
  status : d.status = dto.status
  reviewedBy : d.reviewedBy = some dto.reviewerId
  reviewedAt : d.reviewedAt.isSome = true

/-- A version that the call may announce as its decision. -/
def KycCall.Decides : KycCall → KycDocument → Prop
  | .review id dto, d => dto.Decides id d
  | .bulkReview dto, d => d.id ∈ dto.kycIds ∧ dto.decision.Decides d.id d
  | _, _ => False

/-- A version that an appeal may store. -/
def KycCall.Appeals : KycCall → KycDocument → Prop
  | .appeal id _, d => d.id = id ∧ d.status = .appealed
  | _, _ => False

/-- The commands of call `i`. -/
def Writes (i : ℕ) (k : KycCall) : KycCmd → Prop
  | .findPending call _ | .insert call _ | .commitTransaction call | .rollbackTransaction call =>
    call = i
  | .saveDocument call d => call = i ∧ (k.Decides d ∨ k.Appeals d)
  | .emitReviewed call d => call = i ∧ k.Decides d
  | _ => True

/-- What a statement answers. -/
def Answers : (c : KycCmd) → c.Reply → Prop
  | .findDocument id, found => ∀ d, found = some d → d.id = id
  | .saveDocument _ d, saved => saved = d
  | _, _ => True

theorem KycDb.document_id {db : KycDb} {id : ℕ} {d : KycDocument} (h : db.document id = some d) :
    d.id = id := by
  simpa using List.find?_some h

theorem exec_answers {rows : Pick} {c : KycCmd} {db db' : KycDb} {a : c.Reply}
    (h : exec rows c db = .ok (a, db')) : Answers c a := by
  cases c with
  | findDocument id =>
    cases h
    exact fun d hd => KycDb.document_id hd
  | saveDocument call d =>
    cases h
    rfl
  | _ => trivial

section Programs

variable {i : ℕ} {P : KycCmd → Prop}

theorem review_writes {id : ℕ} {dto : ReviewKycDto} (hfind : P (.findDocument id)) (hnow : P .now)
    (hsave : ∀ d, dto.Decides id d → P (.saveDocument i d) ∧ P (.emitReviewed i d)) :
    (review i id dto).Always Answers fun c _ => P c := by
  unfold review
  refine Proc.always_call_bind hfind fun found hfound => ?_
  cases found with
  | none => exact .done _
  | some d =>
    refine Proc.always_rejectWhen_bind fun _ => ?_
    refine Proc.always_call_bind hnow fun now _ => ?_
    have hdecides : dto.Decides id { d with
        status := dto.status, reviewedBy := some dto.reviewerId, reviewedAt := some now } :=
      ⟨hfound d rfl, rfl, rfl, rfl⟩
    refine Proc.always_call_bind (hsave _ hdecides).1 fun saved hsaved => ?_
    obtain rfl : saved = _ := hsaved
    exact Proc.always_call_bind (hsave _ hdecides).2 fun _ _ => .done _

theorem appeal_writes {id : ℕ} {reason : String} (hfind : P (.findDocument id))
    (hsave : ∀ d, d.id = id → d.status = .appealed → P (.saveDocument i d)) :
    (appeal i id reason).Always Answers fun c _ => P c := by
  unfold appeal
  refine Proc.always_call_bind hfind fun found hfound => ?_
  cases found with
  | none => exact .done _
  | some d =>
    refine Proc.always_rejectWhen_bind fun _ => ?_
    exact .await (hsave _ (hfound d rfl) rfl) (fun _ _ => .done _) fun _ => .done _

theorem reviewEach_writes {dto : ReviewKycDto} {ids : List ℕ} (hnow : P .now)
    (hids : ∀ id ∈ ids, P (.findDocument id) ∧
      ∀ d, dto.Decides id d → P (.saveDocument i d) ∧ P (.emitReviewed i d))
    (failed : List Failure) : (reviewEach i dto ids failed).Always Answers fun c _ => P c := by
  induction ids generalizing failed with
  | nil => exact .done _
  | cons id ids ih =>
    have hhere := hids id (List.mem_cons_self ..)
    have hrest := ih fun id' hid' => hids id' (List.mem_cons_of_mem _ hid')
    unfold reviewEach
    refine Proc.always_bind (Proc.always_attempt (review_writes hhere.1 hnow hhere.2)) fun r => ?_
    cases r with
    | ok d => exact hrest failed
    | error e => exact hrest _

theorem withTransaction_issues {β : Type} {fn : KycProc β} (hstart : P .startTransaction)
    (hcommit : P (.commitTransaction i)) (hrollback : P (.rollbackTransaction i))
    (hfn : fn.Issues P) : (withTransaction i fn).Issues P := by
  unfold withTransaction
  refine Proc.issues_bind (Proc.issues_call.mpr hstart) fun _ => ?_
  refine Proc.issues_bind (Proc.issues_attempt (Proc.issues_bind hfn fun _ => ?_)) fun r => ?_
  · exact Proc.issues_bind (Proc.issues_call.mpr hcommit) fun _ => trivial
  · cases r with
    | ok _ => trivial
    | error _ => exact Proc.issues_bind (Proc.issues_call.mpr hrollback) fun _ => trivial

theorem submit_issues {svc : Service} {dto : SubmitKycDto} (hstart : P .startTransaction)
    (hfind : P (.findPending i dto.userId)) (hinsert : P (.insert i dto))
    (hcommit : P (.commitTransaction i)) (hrollback : P (.rollbackTransaction i)) :
    (submit svc i dto).Issues P := by
  unfold submit
  refine Proc.issues_bind (Proc.issues_ofExcept _) fun _ => ?_
  refine Proc.issues_bind (Proc.issues_attempt
    (withTransaction_issues hstart hcommit hrollback ?_)) fun r => ?_
  · refine Proc.issues_bind (Proc.issues_call.mpr hfind) fun found => ?_
    cases found with
    | none => exact Proc.issues_call.mpr hinsert
    | some _ => trivial
  · cases r with
    | ok _ => trivial
    | error e =>
      cases e with
      | uniqueViolation => exact Proc.issues_bind (Proc.issues_call.mpr hfind) fun _ => trivial
      | _ => trivial

/-- Every call writes as its kind does, and in its own name. -/
theorem prog_writes (svc : Service) (i : ℕ) (k : KycCall) :
    (prog svc i k).Always Answers fun c _ => Writes i k c := by
  cases k with
  | submit dto =>
    refine Proc.always_of_issues (fun _ _ hc => hc) ?_
    exact Proc.issues_bind (submit_issues trivial rfl rfl rfl rfl) fun _ => trivial
  | review id dto =>
    refine Proc.always_bind (review_writes trivial trivial fun d hd => ?_) fun _ => .done _
    exact ⟨⟨rfl, Or.inl hd⟩, rfl, hd⟩
  | appeal id reason =>
    refine Proc.always_bind (appeal_writes trivial fun d hid hstatus => ?_) fun _ => .done _
    exact ⟨rfl, Or.inr ⟨hid, hstatus⟩⟩
  | bulkReview dto =>
    unfold prog bulkReview
    refine Proc.always_bind ?_ fun _ => .done _
    refine Proc.always_rejectWhen_bind fun _ => ?_
    refine Proc.always_rejectWhen_bind fun _ => ?_
    refine Proc.always_bind (reviewEach_writes trivial (fun id hid => ⟨trivial, fun d hd => ?_⟩) _)
      fun _ => .done _
    have hmine : (KycCall.bulkReview dto).Decides d := by
      refine ⟨?_, hd.id ▸ hd⟩
      rw [hd.id]
      exact List.mem_eraseDups.mp hid
    exact ⟨⟨rfl, Or.inl hmine⟩, rfl, hmine⟩
  | tick ms => exact .await trivial (fun _ _ => .done _) fun _ => .done _

end Programs

theorem KycCall.Decides.decision {k : KycCall} {d : KycDocument} (h : k.Decides d) :
    (d.status = .approved ∨ d.status = .rejected) ∧ d.reviewedAt.isSome = true := by
  cases k with
  | review id dto => exact ⟨h.status ▸ dto.decides, h.reviewedAt⟩
  | bulkReview dto => exact ⟨h.2.status ▸ dto.decision.decides, h.2.reviewedAt⟩
  | _ => cases h

theorem KycCall.Appeals.status {k : KycCall} {d : KycDocument} (h : k.Appeals d) :
    d.status = .appealed := by
  cases k with
  | appeal id reason => exact h.2
  | _ => cases h

-- ---------------------------------------------------------------------------
-- Approved documents are dated
-- ---------------------------------------------------------------------------

/-- No documents yet. -/
def start (t : ℕ) : KycConfig := ⟨⟨[], List.nodup_nil, t, [], []⟩, []⟩

def KycDocument.dated (d : KycDocument) : Prop :=
  d.status = .approved → d.reviewedAt.isSome = true

def Dated (db : KycDb) : Prop := ∀ r ∈ db.rows, r.doc.dated

/-- A property of documents that new submissions have, and that every version
that is saved has, is one of all rows. -/
theorem exec_rows {rows : Pick} {Q : KycDocument → Prop} {c : KycCmd} {db db' : KycDb} {a : c.Reply}
    (h : exec rows c db = .ok (a, db')) (hinsert : ∀ call dto, Q (db.fresh call dto).doc)
    (hsave : ∀ call d, c = .saveDocument call d → Q d) (hrows : ∀ r ∈ db.rows, Q r.doc) :
    ∀ r ∈ db'.rows, Q r.doc := by
  cases c with
  | insert call dto =>
    simp only [exec] at h
    split at h
    · cases h
      intro r hr
      rcases List.mem_append.mp hr with hold | hnew
      · exact hrows r hold
      · rw [List.mem_singleton.mp hnew]
        exact hinsert call dto
    · cases h
  | commitTransaction call =>
    cases h
    intro r hr
    obtain ⟨r₀, hr₀, rfl⟩ := List.mem_map.mp hr
    rw [Row.commit_doc]
    exact hrows r₀ hr₀
  | rollbackTransaction call =>
    cases h
    exact fun r hr => hrows r (List.mem_of_mem_filter hr)
  | saveDocument call d =>
    cases h
    intro r hr
    obtain ⟨r₀, hr₀, rfl⟩ := List.mem_map.mp hr
    unfold Row.update
    split
    · exact hsave call d rfl
    · exact hrows r₀ hr₀
  | _ =>
    cases h
    exact hrows

theorem dated_reach {svc : Service} {t : ℕ} {cfg : KycConfig}
    (h : Reach (server svc) .free (start t) cfg) : Dated cfg.state := by
  refine (h.always (G := Answers) (Q := fun i k c _ => Writes i k c) (fun r hr => ?_) rfl
    (prog_writes svc) fun cfg i th c next a db' _ hwrites hdated _ hexec => ⟨?_, exec_answers hexec⟩).1
  · cases hr
  · refine exec_rows (Q := KycDocument.dated) hexec (fun call dto h => by cases h) ?_ hdated
    rintro call d rfl happroved
    rcases hwrites.2 with hdecides | happeals
    · exact hdecides.decision.2
    · rw [happeals.status] at happroved
      cases happroved

-- ---------------------------------------------------------------------------
-- The two readings
-- ---------------------------------------------------------------------------

/-- The approval is in force at the instant. -/
def KycDocument.current (validityDays : ℤ) (now : ℕ) (d : KycDocument) : Bool :=
  d.reviewedAt.any fun reviewedAt => decide ((now : ℤ) < expiry reviewedAt validityDays)

/-- Some approved document of the user is in force. -/
def KycDb.approvedNow (db : KycDb) (userId : UserId) (validityDays : ℤ) : Bool :=
  (db.approvedOf userId).any (KycDocument.current validityDays db.now)

/-- The status that one document gives. -/
def expiryStatus (validityDays : ℤ) (now : ℕ) (found : Option KycDocument) : ExpiryStatus :=
  match found.bind KycDocument.reviewedAt with
  | none => ⟨false, false, none, none⟩
  | some reviewedAt =>
    ⟨!decide ((now : ℤ) ≥ expiry reviewedAt validityDays),
      decide ((now : ℤ) ≥ expiry reviewedAt validityDays), some reviewedAt,
      some (expiry reviewedAt validityDays)⟩

section Readings

variable {rows : Pick} {db : KycDb} {userId : UserId} {v : ℤ}

theorem isApproved_run :
    ((isApproved userId v).run (exec rows) Proc.noFault db).1 =
      .ok ((rows.pick (db.approvedOf userId)).any (KycDocument.current v db.now)) := by
  unfold isApproved
  simp only [Proc.bind_eq]
  rw [Proc.run_call_bind_ok rfl (rfl : exec rows (.findApproved userId) db = _)]
  cases hfound : rows.pick (db.approvedOf userId) with
  | none => rfl
  | some d =>
    obtain ⟨id, owner, kind, number, url, status, reviewedBy, reviewedAt, reason⟩ := d
    cases reviewedAt with
    | none => rfl
    | some t => rfl

theorem checkExpiry_run :
    ((checkExpiry userId v).run (exec rows) Proc.noFault db).1 =
      .ok (expiryStatus v db.now (rows.pick (db.approvedOf userId))) := by
  unfold checkExpiry
  simp only [Proc.bind_eq]
  rw [Proc.run_call_bind_ok rfl (rfl : exec rows (.findApproved userId) db = _)]
  cases hfound : rows.pick (db.approvedOf userId) with
  | none => rfl
  | some d =>
    obtain ⟨id, owner, kind, number, url, status, reviewedBy, reviewedAt, reason⟩ := d
    cases reviewedAt with
    | none => rfl
    | some t => rfl

theorem expiryStatus_isApproved (now : ℕ) (found : Option KycDocument) :
    (expiryStatus v now found).isApproved = found.any (KycDocument.current v now) := by
  unfold expiryStatus KycDocument.current
  cases found with
  | none => rfl
  | some d =>
    simp only [Option.bind_some, Option.any_some]
    cases d.reviewedAt with
    | none => rfl
    | some t =>
      simp only [Option.any_some, ← decide_not]
      congr 1
      rw [not_le]

end Readings

/-- The approval is read correctly, when the two calls load what `rows` and
`rows'` pick: `isApproved` says whether some approved document is in force,
`checkExpiry` agrees, and if so gives the expiry of the latest. -/
structure ReadsApproval (rows rows' : Pick) (db : KycDb) (userId : UserId) (v : ℤ) : Prop where
  isApproved : ((isApproved userId v).run (exec rows) Proc.noFault db).1 =
    .ok (db.approvedNow userId v)
  checkExpiry : ∃ status, ((checkExpiry userId v).run (exec rows') Proc.noFault db).1 = .ok status ∧
    status.isApproved = db.approvedNow userId v ∧
    (db.approvedNow userId v = true → ∃ d ∈ db.approvedOf userId, ∃ reviewedAt,
      d.reviewedAt = some reviewedAt ∧ status.expiresAt = some (expiry reviewedAt v) ∧
      ∀ d' ∈ db.approvedOf userId, ∀ t, d'.reviewedAt = some t → t ≤ reviewedAt)

/-- None of the user's approvals is in force, or all are of one instant. -/
def SameApproval (db : KycDb) (userId : UserId) (v : ℤ) : Prop :=
  db.approvedNow userId v = false ∨
  ∀ d ∈ db.approvedOf userId, ∀ d' ∈ db.approvedOf userId, d.reviewedAt = d'.reviewedAt

/-- The pick that returns this document where it matches. -/
def Pick.prefer (d : KycDocument) : Pick where
  pick ds := if d ∈ ds then some d else ds.head?
  mem := by
    intro ds d' h
    split at h
    · cases h
      assumption
    · exact List.mem_of_mem_head? h
  found := by
    intro ds d' h
    split
    · rfl
    · cases ds with
      | nil => cases h
      | cons _ _ => rfl

section Readings

variable {db : KycDb} {userId : UserId} {v : ℤ}

theorem current_congr {d d' : KycDocument} (h : d.reviewedAt = d'.reviewedAt) (v : ℤ) (now : ℕ) :
    d.current v now = d'.current v now := by
  unfold KycDocument.current
  rw [h]

/-- Whichever row is returned, it says what all say. -/
theorem pick_current (h : SameApproval db userId v) (rows : Pick) :
    (rows.pick (db.approvedOf userId)).any (KycDocument.current v db.now) =
      db.approvedNow userId v := by
  cases hnow : db.approvedNow userId v with
  | false =>
    have hnone := List.any_eq_false.mp hnow
    cases hpick : rows.pick (db.approvedOf userId) with
    | none => rfl
    | some d => simpa using hnone d (rows.mem hpick)
  | true =>
    obtain ⟨d, hd, hcurrent⟩ := List.any_eq_true.mp hnow
    have hsame := h.resolve_left (by simp [hnow])
    obtain ⟨d', hpick⟩ := Option.isSome_iff_exists.mp (rows.found hd)
    rw [hpick, Option.any_some, current_congr (hsame d' (rows.mem hpick) d hd)]
    exact hcurrent

theorem readsApproval_of_same (h : SameApproval db userId v) (rows rows' : Pick) :
    ReadsApproval rows rows' db userId v := by
  refine ⟨?_, _, checkExpiry_run, ?_, fun hnow => ?_⟩
  · rw [isApproved_run, pick_current h]
  · rw [expiryStatus_isApproved, pick_current h]
  · have hsame := h.resolve_left (by simp [hnow])
    have hcurrent := pick_current h rows'
    rw [hnow] at hcurrent
    cases hpick : rows'.pick (db.approvedOf userId) with
    | none =>
      rw [hpick] at hcurrent
      cases hcurrent
    | some d =>
      have hd := rows'.mem hpick
      rw [hpick, Option.any_some] at hcurrent
      cases hreviewed : d.reviewedAt with
      | none =>
        rw [KycDocument.current, hreviewed] at hcurrent
        cases hcurrent
      | some t =>
        refine ⟨d, hd, t, hreviewed, ?_, fun d' hd' t' ht' => ?_⟩
        · simp only [expiryStatus, Option.bind_some, hreviewed]
        · have heq := hsame d' hd' d hd
          rw [hreviewed, ht'] at heq
          exact (Option.some.inj heq).le

/-- The expiry reported is that of the row that is returned. -/
theorem latest_of_reads {rows rows' : Pick} {d : KycDocument} {t : ℕ}
    (h : ReadsApproval rows rows' db userId v) (hnow : db.approvedNow userId v = true)
    (hpick : rows'.pick (db.approvedOf userId) = some d) (ht : d.reviewedAt = some t) :
    ∀ d' ∈ db.approvedOf userId, ∀ t', d'.reviewedAt = some t' → t' ≤ t := by
  obtain ⟨status, hrun, -, hlatest⟩ := h.checkExpiry
  obtain ⟨_, _, reviewedAt, _, hexpires, hall⟩ := hlatest hnow
  rw [checkExpiry_run, hpick] at hrun
  obtain rfl := Except.ok.inj hrun
  simp only [expiryStatus, Option.bind_some, ht, Option.some.injEq, expiry] at hexpires
  intro d' hd' t' ht'
  have hle := hall d' hd' t' ht'
  omega

/-- **Approval.** -/
theorem readsApproval_iff (hdated : Dated db) :
    (∀ rows rows', ReadsApproval rows rows' db userId v) ↔ SameApproval db userId v := by
  refine ⟨fun hreads => ?_, fun h rows rows' => readsApproval_of_same h rows rows'⟩
  cases hnow : db.approvedNow userId v with
  | false => exact Or.inl hnow
  | true =>
    refine Or.inr fun d hd d' hd' => ?_
    have htime : ∀ e ∈ db.approvedOf userId, ∃ t, e.reviewedAt = some t := by
      intro e he
      obtain ⟨hdoc, happroved⟩ := List.mem_filter.mp he
      obtain ⟨r, hr, rfl⟩ := List.mem_map.mp hdoc
      exact Option.isSome_iff_exists.mp
        (hdated r (List.mem_of_mem_filter hr) (of_decide_eq_true happroved).2)
    have hprefer : ∀ e ∈ db.approvedOf userId,
        (Pick.prefer e).pick (db.approvedOf userId) = some e := fun e he => if_pos he
    obtain ⟨t, ht⟩ := htime d hd
    obtain ⟨t', ht'⟩ := htime d' hd'
    -- each of the two is the latest
    have hle := latest_of_reads (hreads (.prefer d) (.prefer d)) hnow (hprefer d hd) ht d' hd' t' ht'
    have hge := latest_of_reads (hreads (.prefer d) (.prefer d')) hnow (hprefer d' hd') ht' d hd t ht
    rw [ht, ht', le_antisymm hge hle]

end Readings

/-- The clock is read at `t`. -/
def KycDb.atTime (db : KycDb) (t : ℕ) : KycDb := { db with now := t }

/-- **The approval is read correctly, whichever row the database returns, if and
only if all approvals say the same.** -/
theorem approval_read_iff {svc : Service} {t₀ : ℕ} {cfg : KycConfig}
    (h : Reach (server svc) .free (start t₀) cfg) (t : ℕ) (userId : UserId) (v : ℤ) :
    (∀ rows rows', ReadsApproval rows rows' (cfg.state.atTime t) userId v) ↔
      SameApproval (cfg.state.atTime t) userId v :=
  readsApproval_iff (dated_reach h)

def localService : Service := ⟨"", fun _ => none, firstRow⟩

def passport : SubmitKycDto := ⟨7, "passport", "A1234567", "https://storage.example.com/a.pdf"⟩

def renewed : SubmitKycDto := ⟨7, "passport", "B7654321", "https://storage.example.com/b.pdf"⟩

/-- The four steps of a submission, and of a review. -/
def fourSteps (i : ℕ) : List (Event KycCall KycErr) :=
  [.step i none, .step i none, .step i none, .step i none]

/-- A document is approved, and another one 366 days later. -/
def twoApprovals : List (Event KycCall KycErr) :=
  [.call 0 (.submit passport)] ++ fourSteps 0 ++ [.call 1 (.review 1 (approval 3))] ++ fourSteps 1 ++
    [.call 2 (.tick (366 * 86400000)), .step 2 none, .call 3 (.submit renewed)] ++ fourSteps 3 ++
    [.call 4 (.review 2 (approval 3))] ++ fourSteps 4

/-- Right after the first approval, it is what both read. -/
theorem approval_read_iff_first : ∃ cfg,
    Reach (server localService) .free (start 0) cfg ∧ cfg.state.approvedNow 7 365 = true ∧
    ((∀ rows rows', ReadsApproval rows rows' (cfg.state.atTime 0) 7 365) ↔
      SameApproval (cfg.state.atTime 0) 7 365) := by
  refine ⟨(server localService).play (start 0) (twoApprovals.take 10), Reach.refl.play _, ?_,
    approval_read_iff (Reach.refl.play _) 0 7 365⟩
  decide +kernel

/-- With the second approval in force, the first is returned and has expired. -/
theorem approval_missed : ∃ cfg, Reach (server localService) .free (start 0) cfg ∧
    cfg.state.approvedNow 7 365 = true ∧
    ((isApproved 7 365).run (exec firstRow) Proc.noFault cfg.state).1 = .ok false ∧
    ((checkExpiry 7 365).run (exec firstRow) Proc.noFault cfg.state).1 =
      .ok ⟨false, true, some 0, some (365 * 86400000)⟩ ∧
    ¬ ReadsApproval firstRow firstRow cfg.state 7 365 := by
  have hnow : ((server localService).play (start 0) twoApprovals).state.approvedNow 7 365 = true := by
    decide +kernel
  have hanswer : ((isApproved 7 365).run (exec firstRow) Proc.noFault
      ((server localService).play (start 0) twoApprovals).state).1 = .ok false := by
    decide +kernel
  refine ⟨(server localService).play (start 0) twoApprovals, Reach.refl.play _, hnow, hanswer, ?_,
    fun hreads => ?_⟩
  · decide +kernel
  · have hright := hreads.isApproved
    rw [hanswer, hnow] at hright
    cases hright

end Kyc

end NexaFx
