import NexaFx.Safety.KycApproval

/-!
# NexaFx — one pending submission

Submissions, reviews and appeals, interleaved at every statement, any of which
may fail. A submission looks for a pending document of the user inside its
transaction; what slips in after that is stopped by the unique index.

* `exec_pending` — one step keeps at most one entry per user in the index;
* `submit_wp` — what one submission stores, whatever the others do;
* `one_pending_submission` — the three parts together. A URL that is refused is
  refused first, and a statement that fails is reported as such
  (`pending_not_reported`).
-/

namespace NexaFx

open Async

namespace Kyc

-- ---------------------------------------------------------------------------
-- The property
-- ---------------------------------------------------------------------------

/-- The PENDING documents of the user. -/
def KycDb.pendingOf (db : KycDb) (userId : UserId) : List KycDocument :=
  db.documents.filter fun d => decide (d.userId = userId ∧ d.status = .pending)

/-- The versions that the call has stored. -/
def KycDb.storesOf (db : KycDb) (call : ℕ) : List KycDocument :=
  (db.stores.filter fun x => decide (x.1 = call)).map Prod.snd

/-- The document that a submission is to store. -/
structure SubmitKycDto.Submits (dto : SubmitKycDto) (d : KycDocument) : Prop where
  userId : d.userId = dto.userId
  documentType : d.documentType = dto.documentType
  documentNumber : d.documentNumber = dto.documentNumber
  documentUrl : d.documentUrl = dto.documentUrl
  status : d.status = .pending

/-- No version that was stored before the pending ones is of the same document. -/
def KycDb.Fresh (db : KycDb) : Prop :=
  db.stores.Pairwise fun x y => y.2.status = .pending → x.2.id ≠ y.2.id

/-- A submission that returned has stored one new pending document, one that
threw nothing. -/
def SubmitKycDto.Stored (dto : SubmitKycDto) (i : ℕ) (db : KycDb) : Except KycErr Answer → Prop
  | .ok a => db.Fresh ∧ ∃ d, a = .document d ∧ dto.Submits d ∧ db.storesOf i = [d]
  | .error _ => db.storesOf i = []

/-- While call `i` is under way the document is there, and the statements of the
call fail only by what they find. -/
def whileThere (svc : Service) (i : ℕ) (d : KycDocument) :
    Discipline KycCall KycCmd KycCmd.Reply KycErr KycDb Answer where
  onCall _ _ _ := True
  onStep cfg th c f := th.id = i →
    d ∈ cfg.state.documents ∧ (f = true → failed (exec svc.rows c cfg.state) = true)

-- ---------------------------------------------------------------------------
-- The index
-- ---------------------------------------------------------------------------

/-- The index on pending documents has at most one entry per user, uncommitted
ones included. -/
def OnePending (db : KycDb) : Prop := ∀ userId, db.rows.countP (Row.pendingOf userId) ≤ 1

theorem pendingOf_commit (userId : UserId) (call : ℕ) (r : Row) :
    (r.commit call).pendingOf userId = r.pendingOf userId := by
  unfold Row.pendingOf
  rw [Row.commit_doc]

theorem pendingOf_update {userId : UserId} {d : KycDocument} (hd : d.status ≠ .pending) {r : Row}
    (h : (r.update d).pendingOf userId = true) : r.pendingOf userId = true := by
  unfold Row.update at h
  split at h
  · exact absurd (of_decide_eq_true h).2 hd
  · exact h

/-- An insert that neither waits nor violates the index finds no entry. -/
theorem no_entry {db : KycDb} {call : ℕ} {dto : SubmitKycDto}
    (hready : ready (.insert call dto) db = true) (hnone : db.pendingSeen call dto.userId = []) :
    db.rows.countP (Row.pendingOf dto.userId) = 0 := by
  rw [List.countP_eq_zero]
  intro r hr hentry
  have hseen := List.all_eq_true.mp hready r hr
  rw [hentry, Bool.not_true, Bool.or_false] at hseen
  have hmem : r.doc ∈ db.pendingSeen call dto.userId :=
    List.mem_map.mpr ⟨r, List.mem_filter.mpr ⟨hr, by rw [hseen, hentry]; rfl⟩, rfl⟩
  rw [hnone] at hmem
  cases hmem

/-- **Step lemma.** -/
theorem exec_pending {rows : Pick} {c : KycCmd} {db db' : KycDb} {a : c.Reply}
    (h : exec rows c db = .ok (a, db')) (hready : ready c db = true)
    (hsave : ∀ call d, c = .saveDocument call d → d.status ≠ .pending) (hone : OnePending db) :
    OnePending db' := by
  intro userId
  have hhere := hone userId
  cases c with
  | insert call dto =>
    simp only [exec] at h
    split at h
    · rename_i hnone
      cases h
      show (db.rows ++ [db.fresh call dto]).countP (Row.pendingOf userId) ≤ 1
      rw [List.countP_append, List.countP_singleton]
      by_cases huser : dto.userId = userId
      · rw [← huser, no_entry hready hnone]
        split <;> omega
      · have hother : (db.fresh call dto).pendingOf userId = false :=
          decide_eq_false fun hentry => huser hentry.1
        rw [hother]
        simpa using hhere
    · cases h
  | commitTransaction call =>
    cases h
    show (db.rows.map (Row.commit call)).countP (Row.pendingOf userId) ≤ 1
    rw [List.countP_map]
    simpa only [Function.comp_def, pendingOf_commit] using hhere
  | rollbackTransaction call =>
    cases h
    exact le_trans (List.filter_sublist.countP_le) hhere
  | saveDocument call d =>
    cases h
    show (db.rows.map (Row.update d)).countP (Row.pendingOf userId) ≤ 1
    rw [List.countP_map]
    refine le_trans (List.countP_mono_left fun r _ hr => ?_) hhere
    exact pendingOf_update (hsave call d rfl) hr
  | _ =>
    cases h
    exact hhere

-- ---------------------------------------------------------------------------
-- New documents are new
-- ---------------------------------------------------------------------------

/-- The versions that were stored are of committed rows, and each pending one is
the first of its document. -/
structure Recorded (db : KycDb) : Prop where
  committed : ∀ x ∈ db.stores, ∃ r ∈ db.rows, r.id = x.2.id ∧ r.openIn = none
  fresh : db.Fresh

theorem notMem_staged {db : KycDb} (h : Recorded db) {call : ℕ} {d : KycDocument}
    (hd : d ∈ db.staged call) : ∀ x ∈ db.stores, x.2.id ≠ d.id := by
  intro x hx hid
  obtain ⟨r, hr, rfl⟩ := List.mem_map.mp hd
  obtain ⟨hrow, hopen⟩ := List.mem_filter.mp hr
  obtain ⟨r', hr', hid', hnone⟩ := h.committed x hx
  have hsame := Table.get_of_mem Row.id db.keyed hr'
  rw [hid', hid, show r.doc.id = r.id from rfl, Table.get_of_mem Row.id db.keyed hrow] at hsame
  cases hsame
  rw [hnone] at hopen
  cases hopen

theorem nodup_staged (db : KycDb) (call : ℕ) : ((db.staged call).map KycDocument.id).Nodup := by
  unfold KycDb.staged
  rw [List.map_map]
  exact Table.nodup_filter Row.id db.keyed _

theorem committed_commit {db : KycDb} (h : Recorded db) (call : ℕ) :
    ∀ x ∈ (db.commit call).stores, ∃ r ∈ (db.commit call).rows, r.id = x.2.id ∧ r.openIn = none := by
  intro x hx
  rcases List.mem_append.mp hx with hold | hnew
  · obtain ⟨r, hr, hid, hnone⟩ := h.committed x hold
    refine ⟨r.commit call, List.mem_map_of_mem hr, (r.commit_id call).trans hid, ?_⟩
    unfold Row.commit
    split
    · rfl
    · exact hnone
  · obtain ⟨d, hd, rfl⟩ := List.mem_map.mp hnew
    obtain ⟨r, hr, rfl⟩ := List.mem_map.mp hd
    obtain ⟨hrow, hopen⟩ := List.mem_filter.mp hr
    refine ⟨r.commit call, List.mem_map_of_mem hrow, r.commit_id call, ?_⟩
    rw [Row.commit, if_pos (of_decide_eq_true hopen)]

theorem fresh_commit {db : KycDb} (h : Recorded db) (call : ℕ) : (db.commit call).Fresh := by
  show (db.stores ++ (db.staged call).map fun d => (call, d)).Pairwise _
  rw [List.pairwise_append]
  refine ⟨h.fresh, ?_, ?_⟩
  · rw [List.pairwise_map]
    refine (List.pairwise_map.mp (nodup_staged db call)).imp ?_
    intro d d' hne _
    exact hne
  · intro x hx y hy _
    obtain ⟨d, hd, rfl⟩ := List.mem_map.mp hy
    exact notMem_staged h hd x hx

theorem recorded_save {db : KycDb} (h : Recorded db) {call : ℕ} {d : KycDocument}
    (hd : d.status ≠ .pending) : Recorded (db.save call d) := by
  constructor
  · intro x hx
    rcases List.mem_append.mp hx with hold | hnew
    · obtain ⟨r, hr, hid, hnone⟩ := h.committed x hold
      exact ⟨r.update d, List.mem_map_of_mem hr, (r.update_id d).trans hid,
        (r.update_openIn d).trans hnone⟩
    · obtain ⟨r, hr, rfl⟩ := List.mem_map.mp hnew
      obtain ⟨hrow, hhere⟩ := List.mem_filter.mp hr
      obtain ⟨hid, hnone⟩ := of_decide_eq_true hhere
      exact ⟨r.update d, List.mem_map_of_mem hrow, (r.update_id d).trans hid,
        (r.update_openIn d).trans hnone⟩
  · show (db.stores ++ _).Pairwise _
    rw [List.pairwise_append]
    refine ⟨h.fresh, ?_, ?_⟩
    · rw [List.pairwise_map]
      exact List.pairwise_of_forall fun _ _ hpending => absurd hpending hd
    · intro x _ y hy hpending
      obtain ⟨_, _, rfl⟩ := List.mem_map.mp hy
      exact absurd hpending hd

/-- **Step lemma.** -/
theorem exec_recorded {rows : Pick} {c : KycCmd} {db db' : KycDb} {a : c.Reply}
    (h : exec rows c db = .ok (a, db'))
    (hsave : ∀ call d, c = .saveDocument call d → d.status ≠ .pending) (hrecorded : Recorded db) :
    Recorded db' := by
  cases c with
  | insert call dto =>
    simp only [exec] at h
    split at h
    · cases h
      refine ⟨fun x hx => ?_, hrecorded.fresh⟩
      obtain ⟨r, hr, hsame⟩ := hrecorded.committed x hx
      exact ⟨r, List.mem_append_left _ hr, hsame⟩
    · cases h
  | commitTransaction call =>
    cases h
    exact ⟨committed_commit hrecorded call, fresh_commit hrecorded call⟩
  | rollbackTransaction call =>
    cases h
    refine ⟨fun x hx => ?_, hrecorded.fresh⟩
    obtain ⟨r, hr, hid, hnone⟩ := hrecorded.committed x hx
    exact ⟨r, List.mem_filter.mpr ⟨hr, by simp [hnone]⟩, hid, hnone⟩
  | saveDocument call d =>
    cases h
    exact recorded_save hrecorded (hsave call d rfl)
  | _ =>
    cases h
    exact ⟨hrecorded.committed, hrecorded.fresh⟩

theorem Writes.saves {i : ℕ} {k : KycCall} {c : KycCmd} (h : Writes i k c) {call : ℕ}
    {d : KycDocument} (hc : c = .saveDocument call d) : d.status ≠ .pending := by
  subst hc
  intro hpending
  rcases h.2 with hdecides | happeals
  · rcases hdecides.decision.1 with hstatus | hstatus <;> rw [hpending] at hstatus <;> cases hstatus
  · have hstatus := happeals.status
    rw [hpending] at hstatus
    cases hstatus

section Runs

variable {svc : Service} {t₀ : ℕ} {cfg : KycConfig}
  {D : Discipline KycCall KycCmd KycCmd.Reply KycErr KycDb Answer}

/-- What every call still to come will write. -/
theorem calls_write (h : Reach (server svc) D (start t₀) cfg) :
    ∀ i th, cfg.thread i = some th → th.proc.Always Answers fun c _ => Writes i th.call c :=
  (h.always (I := fun _ => True) (G := Answers) (Q := fun i k c _ => Writes i k c) trivial rfl
    (prog_writes svc) fun _ _ _ _ _ _ _ _ _ _ _ hexec => ⟨trivial, exec_answers hexec⟩).2

theorem one_pending (h : Reach (server svc) D (start t₀) cfg) :
    OnePending cfg.state ∧ Recorded cfg.state := by
  induction h with
  | refl =>
    refine ⟨fun userId => ?_, fun x hx => ?_, List.Pairwise.nil⟩
    · show ([] : List Row).countP _ ≤ 1
      rw [List.countP_nil]
      omega
    · cases hx
  | call i k _ _ _ ih => exact ih
  | @step cfg i fault th c next hreach hth hproc hready _ _ ih =>
    have hwrites := calls_write hreach i th hth
    rw [hproc] at hwrites
    rw [Config.resume_state]
    cases hout : outcome fault ((server svc).exec c cfg.state) with
    | error e => exact ih
    | ok r =>
      have hexec := (outcome_eq_ok hout).2
      have hsave := fun (call : ℕ) (d : KycDocument) (hc : c = .saveDocument call d) =>
        hwrites.inv.1.saves hc
      exact ⟨exec_pending hexec hready hsave ih.1, exec_recorded hexec hsave ih.2⟩

theorem pendingOf_length (h : OnePending cfg.state) (userId : UserId) :
    (cfg.state.pendingOf userId).length ≤ 1 := by
  refine le_trans (le_of_eq ?_) (le_trans (List.countP_mono_left (l := cfg.state.rows)
    (p := fun r => r.pendingOf userId && r.committed) fun r _ hr => ?_) (h userId))
  · unfold KycDb.pendingOf KycDb.documents
    rw [List.filter_map, List.length_map, List.filter_filter, ← List.countP_eq_length_filter]
    rfl
  · exact (Bool.and_eq_true _ _ ▸ hr).1

end Runs

-- ---------------------------------------------------------------------------
-- One submission
-- ---------------------------------------------------------------------------

/-- What a call has inserted and not committed, and what it has stored. -/
def own (i : ℕ) (db : KycDb) : List KycDocument × List KycDocument := (db.staged i, db.storesOf i)

/-- The command is one of call `i`. -/
def Owns (i : ℕ) (c : KycCmd) : Prop := ∃ k, Writes i k c

theorem filter_commit_other {i j : ℕ} (hij : j ≠ i) (rows : List Row) :
    ((rows.map (Row.commit j)).filter fun r => decide (r.openIn = some i)).map Row.doc =
      (rows.filter fun r => decide (r.openIn = some i)).map Row.doc := by
  induction rows with
  | nil => rfl
  | cons r rows ih =>
    have hsame : decide ((r.commit j).openIn = some i) = decide (r.openIn = some i) := by
      unfold Row.commit
      split
      · rename_i hj
        simp [hj, hij]
      · rfl
    rw [List.map_cons, List.filter_cons, List.filter_cons, hsame]
    split
    · rw [List.map_cons, List.map_cons, ih, Row.commit_doc]
    · exact ih

theorem filter_update (d : KycDocument) (i : ℕ) (rows : List Row) :
    ((rows.map (Row.update d)).filter fun r => decide (r.openIn = some i)).map Row.doc =
      (rows.filter fun r => decide (r.openIn = some i)).map Row.doc := by
  induction rows with
  | nil => rfl
  | cons r rows ih =>
    rw [List.map_cons, List.filter_cons, List.filter_cons, Row.update_openIn]
    split
    · rename_i hopen
      have hkeep : r.update d = r := if_neg (by simp [of_decide_eq_true hopen])
      rw [List.map_cons, List.map_cons, ih, hkeep]
    · exact ih

theorem storesOf_append (db : KycDb) {i : ℕ} {more : List (ℕ × KycDocument)}
    (h : ∀ x ∈ more, x.1 ≠ i) :
    ((db.stores ++ more).filter fun x => decide (x.1 = i)).map Prod.snd = db.storesOf i := by
  have hnone : (more.filter fun x => decide (x.1 = i)) = [] := by
    rw [List.filter_eq_nil_iff]
    intro x hx
    simpa using h x hx
  rw [List.filter_append, hnone, List.append_nil]
  rfl

/-- No call touches what is another's. -/
theorem own_frame {rows : Pick} {i j : ℕ} {c : KycCmd} {db db' : KycDb} {a : c.Reply} (hij : j ≠ i)
    (howns : Owns j c) (h : exec rows c db = .ok (a, db')) : own i db' = own i db := by
  obtain ⟨k, hwrites⟩ := howns
  cases c with
  | insert call dto =>
    obtain rfl : call = j := hwrites
    simp only [exec] at h
    split at h
    · cases h
      refine congrArg (Prod.mk · _) ?_
      show ((db.rows ++ [db.fresh call dto]).filter _).map Row.doc = db.staged i
      have hother : ([db.fresh call dto].filter fun r => decide (r.openIn = some i)) = [] :=
        List.filter_cons_of_neg (by simpa [KycDb.fresh] using hij)
      rw [List.filter_append, hother, List.append_nil]
      rfl
    · cases h
  | commitTransaction call =>
    obtain rfl : call = j := hwrites
    cases h
    refine Prod.ext (filter_commit_other hij db.rows) (storesOf_append db fun x hx => ?_)
    obtain ⟨d, _, rfl⟩ := List.mem_map.mp hx
    exact hij
  | rollbackTransaction call =>
    obtain rfl : call = j := hwrites
    cases h
    refine congrArg (Prod.mk · _) ?_
    show ((db.rows.filter _).filter _).map Row.doc = db.staged i
    rw [List.filter_filter]
    unfold KycDb.staged
    congr 1
    refine List.filter_congr fun r _ => ?_
    by_cases hopen : r.openIn = some i
    · simp [hopen, hij.symm]
    · simp [hopen]
  | saveDocument call d =>
    obtain rfl : call = j := hwrites.1
    cases h
    refine Prod.ext (filter_update d i db.rows) (storesOf_append db fun x hx => ?_)
    obtain ⟨_, _, rfl⟩ := List.mem_map.mp hx
    exact hij
  | _ =>
    cases h
    rfl

section Own

variable {svc : Service} {i : ℕ} {v : List KycDocument × List KycDocument}

/-- The rules of a submission. -/
abbrev logic (svc : Service) (i : ℕ) : Logic KycCmd KycCmd.Reply KycErr KycDb
    (List KycDocument × List KycDocument) :=
  (server svc).logic (own i)

/-- A statement that changes nothing of the call's own. -/
theorem wp_read {c : KycCmd} {post : Except KycErr c.Reply → List KycDocument × List KycDocument → Prop}
    (hquiet : ∀ db a db', exec svc.rows c db = .ok (a, db') → own i db' = own i db)
    (hok : ∀ a, post (.ok a) v) (herror : ∀ e, post (.error e) v) :
    (await c).wp (logic svc i) post v := by
  rw [Proc.wp_call]
  rintro db rfl
  refine ⟨fun a db' _ hexec => ⟨trivial, ?_⟩, fun _ e => herror e⟩
  show post (.ok a) (own i db')
  rw [hquiet db a db' hexec]
  exact hok a

theorem wp_insert {dto : SubmitKycDto}
    {post : Except KycErr KycDocument → List KycDocument × List KycDocument → Prop}
    (hok : ∀ d, dto.Submits d → post (.ok d) (v.1 ++ [d], v.2)) (herror : ∀ e, post (.error e) v) :
    (await (.insert i dto)).wp (logic svc i) post v := by
  refine (Proc.wp_call (c := KycCmd.insert i dto)).mpr ?_
  rintro db rfl
  refine ⟨fun a db' _ hexec => ⟨trivial, ?_⟩, fun _ e => herror e⟩
  have hinsert : exec svc.rows (.insert i dto) db = .ok (a, db') := hexec
  simp only [exec] at hinsert
  split at hinsert
  · cases hinsert
    have hstaged : (db.insert i dto).staged i = db.staged i ++ [(db.fresh i dto).doc] := by
      show ((db.rows ++ [db.fresh i dto]).filter _).map Row.doc = _
      have hmine : ([db.fresh i dto].filter fun r => decide (r.openIn = some i)) =
          [db.fresh i dto] := List.filter_cons_of_pos (by simp [KycDb.fresh])
      rw [List.filter_append, hmine, List.map_append]
      rfl
    show post _ ((db.insert i dto).staged i, db.storesOf i)
    rw [hstaged]
    exact hok _ ⟨rfl, rfl, rfl, rfl, rfl⟩
  · cases hinsert

/-- Nothing of a transaction that is over is uncommitted. -/
theorem staged_commit (db : KycDb) (i : ℕ) : (db.commit i).staged i = [] := by
  unfold KycDb.staged
  rw [List.map_eq_nil_iff, List.filter_eq_nil_iff]
  intro r hr
  obtain ⟨r₀, _, rfl⟩ := List.mem_map.mp hr
  unfold Row.commit
  split
  · simp
  · rename_i hopen
    simpa using hopen

theorem staged_rollback (db : KycDb) (i : ℕ) : (db.rollback i).staged i = [] := by
  unfold KycDb.staged
  rw [List.map_eq_nil_iff, List.filter_eq_nil_iff]
  intro r hr
  obtain ⟨_, hopen⟩ := List.mem_filter.mp hr
  simpa using hopen

theorem wp_commit {post : Except KycErr Unit → List KycDocument × List KycDocument → Prop}
    (hok : post (.ok ()) ([], v.2 ++ v.1)) (herror : ∀ e, post (.error e) v) :
    (await (.commitTransaction i)).wp (logic svc i) post v := by
  refine (Proc.wp_call (c := KycCmd.commitTransaction i)).mpr ?_
  rintro db rfl
  refine ⟨fun a db' _ hexec => ⟨trivial, ?_⟩, fun _ e => herror e⟩
  obtain ⟨-, rfl⟩ : a = () ∧ db.commit i = db' := by
    cases hexec
    exact ⟨rfl, rfl⟩
  have hstores : (db.commit i).storesOf i = db.storesOf i ++ db.staged i := by
    show ((db.stores ++ (db.staged i).map fun d => (i, d)).filter _).map Prod.snd = _
    have hall : (((db.staged i).map fun d => (i, d)).filter fun x => decide (x.1 = i)) =
        (db.staged i).map fun d => (i, d) := by
      rw [List.filter_eq_self]
      intro x hx
      obtain ⟨d, _, rfl⟩ := List.mem_map.mp hx
      exact decide_eq_true rfl
    rw [List.filter_append, hall, List.map_append, List.map_map]
    exact congrArg (db.storesOf i ++ ·) (List.map_id _)
  show post _ ((db.commit i).staged i, (db.commit i).storesOf i)
  rw [staged_commit, hstores]
  exact hok

theorem wp_rollback {post : Except KycErr Unit → List KycDocument × List KycDocument → Prop}
    (hok : post (.ok ()) ([], v.2)) : (await (.rollbackTransaction i)).wp (logic svc i) post v := by
  refine (Proc.wp_call (c := KycCmd.rollbackTransaction i)).mpr ?_
  rintro db rfl
  refine ⟨fun a db' _ hexec => ⟨trivial, ?_⟩, fun hfails => ?_⟩
  · obtain ⟨-, rfl⟩ : a = () ∧ db.rollback i = db' := by
      cases hexec
      exact ⟨rfl, rfl⟩
    show post _ ((db.rollback i).staged i, db.storesOf i)
    rw [staged_rollback]
    exact hok
  · rcases hfails with hmay | ⟨e, hexec⟩
    · cases hmay
    · cases hexec

/-- A database transaction: what was inserted is stored at the commit, or gone. -/
theorem wp_withTransaction {β : Type} {fn : KycProc β}
    {post : Except KycErr β → List KycDocument × List KycDocument → Prop}
    (hstart : ∀ e, post (.error e) v)
    (hfn : fn.wp (logic svc i) (fun r w => (∀ e, post (.error e) ([], w.2)) ∧
      ∀ b, r = .ok b → post (.ok b) ([], w.2 ++ w.1)) v) :
    (withTransaction i fn).wp (logic svc i) post v := by
  unfold withTransaction
  simp only [Proc.bind_eq]
  rw [Proc.wp_bind]
  refine wp_read (fun db a db' h => by cases h; rfl) (fun _ => ?_) hstart
  show Proc.wp _ _ _ _
  rw [Proc.wp_bind, Proc.wp_attempt, Proc.wp_bind]
  refine Proc.wp_mono (fun r w hpost => ?_) hfn
  cases r with
  | error e =>
    show Proc.wp _ _ _ _
    rw [Proc.wp_bind]
    exact wp_rollback (hpost.1 e)
  | ok b =>
    show Proc.wp _ _ _ _
    rw [Proc.wp_bind]
    refine wp_commit (hpost.2 b rfl) fun e => ?_
    show Proc.wp _ _ _ _
    rw [Proc.wp_bind]
    exact wp_rollback (hpost.1 e)

/-- What a submission ends with. -/
def submitted (dto : SubmitKycDto) (r : Except KycErr Answer)
    (v : List KycDocument × List KycDocument) : Prop :=
  match r with
  | .ok a => ∃ d, a = .document d ∧ dto.Submits d ∧ v = ([], [d])
  | .error _ => v = ([], [])

/-- An error of the transaction goes to the caller, or leads to one more lookup. -/
theorem translate_wp (dto : SubmitKycDto) (e : KycErr) :
    ((translate i dto (.error e)).bind fun d => Proc.done (.ok (Answer.document d))).wp (logic svc i)
      (submitted dto) ([], []) := by
  cases e with
  | uniqueViolation =>
    unfold translate
    simp only [Proc.bind_eq, Proc.bind_assoc]
    rw [Proc.wp_bind]
    exact wp_read (fun db a db' h => by cases h; rfl) (fun _ => rfl) fun _ => rfl
  | _ => exact rfl

/-- **One submission.** -/
theorem submit_wp (svc : Service) (i : ℕ) (dto : SubmitKycDto) :
    (prog svc i (.submit dto)).wp (logic svc i) (submitted dto) ([], []) := by
  unfold prog submit
  simp only [Proc.bind_eq, Proc.bind_assoc]
  rw [Proc.wp_bind, Proc.wp_ofExcept]
  cases svc.checkUrl dto.documentUrl with
  | error e => exact rfl
  | ok _ =>
    show Proc.wp _ _ _ _
    rw [Proc.wp_bind, Proc.wp_attempt]
    refine wp_withTransaction (fun e => translate_wp dto e) ?_
    unfold insertPending
    simp only [Proc.bind_eq]
    rw [Proc.wp_bind]
    refine wp_read (fun db a db' h => by cases h; rfl) (fun found => ?_) fun e => ?_
    · cases found with
      | some existing => exact ⟨fun e => translate_wp dto e, fun b hb => by cases hb⟩
      | none =>
        refine wp_insert (fun d hd => ⟨fun e => translate_wp dto e, fun b hb => ?_⟩) fun e => ?_
        · cases hb
          exact ⟨d, rfl, hd, rfl⟩
        · exact ⟨fun e => translate_wp dto e, fun b hb => by cases hb⟩
    · exact ⟨fun e => translate_wp dto e, fun b hb => by cases hb⟩

end Own

/-- What is asked of a call: of a submission, that it stores what it should. -/
def KycCall.Ends (k : KycCall) (r : Except KycErr Answer)
    (v : List KycDocument × List KycDocument) : Prop :=
  match k with
  | .submit dto => submitted dto r v
  | _ => True

theorem ends_wp (svc : Service) (i : ℕ) (k : KycCall) :
    (prog svc i k).wp (logic svc i) k.Ends ([], []) := by
  cases k with
  | submit dto => exact submit_wp svc i dto
  | _ => exact Proc.wp_trivial (fun _ _ => trivial) _ _

/-- **Each submission stores one document or nothing.** -/
theorem submission_stored {svc : Service} {t₀ : ℕ} {cfg : KycConfig} {i : ℕ} {th : KycThread}
    {dto : SubmitKycDto} {r : Except KycErr Answer} (h : Reach (server svc) .free (start t₀) cfg)
    (hth : cfg.thread i = some th) (hcall : th.call = .submit dto) (hdone : th.proc = .done r) :
    dto.Stored i cfg.state r := by
  have howns := (h.owns own (fun _ => KycCall.Ends) (P := Owns) rfl (fun _ => rfl)
    (fun i k => (prog_writes svc i k).mono fun c _ hc => ⟨k, hc⟩)
    (fun c s a s' hexec => exec_answers hexec)
    (fun i j c s a s' hij howns hexec => own_frame hij howns hexec) (ends_wp svc)).2 i th hth
  rw [hdone, hcall, Proc.wp_done] at howns
  cases r with
  | error e => exact congrArg Prod.snd howns
  | ok a =>
    obtain ⟨d, hd, hsubmits, hown⟩ := howns
    exact ⟨(one_pending h).2.fresh, d, hd, hsubmits, congrArg Prod.snd hown⟩

-- ---------------------------------------------------------------------------
-- While a document is pending
-- ---------------------------------------------------------------------------

/-- It is the one that a lookup returns. -/
theorem pick_pending {rows : Pick} {db : KycDb} {d : KycDocument} {userId : UserId} (call : ℕ)
    (hone : OnePending db) (hd : d ∈ db.documents) (huser : d.userId = userId)
    (hpending : d.status = .pending) : rows.pick (db.pendingSeen call userId) = some d := by
  obtain ⟨r, hr, rfl⟩ := List.mem_map.mp hd
  obtain ⟨hrow, hcommitted⟩ := List.mem_filter.mp hr
  have hentry : r.pendingOf userId = true := decide_eq_true ⟨huser, hpending⟩
  have hseen : r.doc ∈ db.pendingSeen call userId := by
    refine List.mem_map.mpr ⟨r, List.mem_filter.mpr ⟨hrow, ?_⟩, rfl⟩
    rw [Row.visibleTo, hcommitted, hentry]
    rfl
  obtain ⟨d', hpick⟩ := Option.isSome_iff_exists.mp (rows.found hseen)
  obtain ⟨r', hr', rfl⟩ := List.mem_map.mp (rows.mem hpick)
  obtain ⟨hrow', hentry'⟩ := List.mem_filter.mp hr'
  obtain rfl := Table.eq_of_countP_le_one (hone userId) hrow' (Bool.and_eq_true _ _ ▸ hentry').2
    hrow hentry
  exact hpick

/-- Where the document is there, a submission that is not turned away for its
URL finds it. -/
theorem submit_meets {svc : Service} {i : ℕ} {dto : SubmitKycDto} {d : KycDocument}
    (hurl : svc.checkUrl dto.documentUrl = .ok ()) (huser : d.userId = dto.userId)
    (hpending : d.status = .pending) :
    (prog svc i (.submit dto)).Meets (exec svc.rows) (fun db => OnePending db ∧ d ∈ db.documents)
      fun r => r = .error (.conflict activeSubmission (some d.id)) := by
  unfold prog submit withTransaction insertPending
  simp only [Proc.bind_eq, Proc.bind_assoc, hurl, Proc.ofExcept, Proc.done_ok_bind]
  refine Proc.meets_bind (Proc.meets_attempt ?_)
  refine Proc.meets_call_bind fun db _ => ⟨(), db, rfl, ?_⟩
  refine Proc.meets_bind (Proc.meets_attempt ?_)
  refine Proc.meets_call_bind fun db hdb => ⟨some d, db, ?_, ?_⟩
  · exact congrArg (fun found => Except.ok (found, db)) (pick_pending i hdb.1 hdb.2 huser hpending)
  · exact fun db' _ => ⟨(), db'.rollback i, rfl, rfl⟩

/-- What holds of submissions in a configuration. -/
structure OneSubmission (svc : Service) (cfg : KycConfig) : Prop where
  /-- No user has two PENDING documents. -/
  atMostOne : ∀ userId, (cfg.state.pendingOf userId).length ≤ 1
  stored : ∀ i th dto r, cfg.thread i = some th → th.call = .submit dto → th.proc = .done r →
    dto.Stored i cfg.state r
  /-- A submission made from here on, while the user has a PENDING document,
  is refused with its id. -/
  refused : ∀ i dto d cfg' th r, cfg.thread i = none → svc.checkUrl dto.documentUrl = .ok () →
    d.userId = dto.userId → d.status = .pending →
    Reach (server svc) (whileThere svc i d) (cfg.spawn i (.submit dto) (prog svc i (.submit dto)))
      cfg' → cfg'.thread i = some th → th.proc = .done r →
    r = .error (.conflict activeSubmission (some d.id))

/-- **One pending submission.** -/
theorem one_pending_submission {svc : Service} {t₀ : ℕ} {cfg : KycConfig}
    (h : Reach (server svc) .free (start t₀) cfg) : OneSubmission svc cfg := by
  refine ⟨pendingOf_length (one_pending h).1, fun i th dto r hth hcall hdone =>
    submission_stored h hth hcall hdone, ?_⟩
  intro i dto d cfg' th r hfresh hurl huser hpending h' hth hdone
  have hmade : Reach (server svc) .free (start t₀)
      (cfg.spawn i (.submit dto) (prog svc i (.submit dto))) := .call i _ h hfresh trivial
  have hthread : (cfg.spawn i (.submit dto) (prog svc i (.submit dto))).thread i =
      some ⟨i, .submit dto, false, prog svc i (.submit dto)⟩ := by
    rw [Config.thread_spawn, if_pos rfl]
  obtain ⟨th', hth', -, hends⟩ := h'.meets
    (W := fun db => OnePending db ∧ d ∈ db.documents) (i := i)
    (fun cfg₁ th₁ c f hreach hD hid => ⟨⟨(one_pending (hmade.trans hreach.toFree)).1, (hD hid).1⟩,
      (hD hid).2⟩) hthread (submit_meets hurl huser hpending)
  obtain rfl := Option.some.inj (hth.symm.trans hth')
  rw [hdone] at hends
  exact hends

/-- The URL of one document, and anything else. -/
def storageService : Service where
  storageHost := "storage.example.com"
  hostname url :=
    if url = "https://storage.example.com/a.pdf" then some "storage.example.com" else none
  rows := firstRow

/-- The document of `passport`, as it is stored first. -/
def firstDocument : KycDocument :=
  ⟨1, 7, "passport", "A1234567", "https://storage.example.com/a.pdf", .pending, none, none, none⟩

/-- A user has submitted a document. -/
def pendingConfig : KycConfig :=
  (server storageService).play (start 0) (.call 0 (.submit passport) :: fourSteps 0)

theorem pendingConfig_reached : Reach (server storageService) .free (start 0) pendingConfig :=
  Reach.refl.play _

def thereStep (svc : Service) (i : ℕ) (d : KycDocument) (cfg : KycConfig) (th : KycThread)
    (c : KycCmd) (f : Bool) : Bool :=
  decide (th.id ≠ i) ||
    (decide (d ∈ cfg.state.documents) && (!f || failed (exec svc.rows c cfg.state)))

theorem whileThere_of_step {svc : Service} {i : ℕ} {d : KycDocument} {cfg : KycConfig}
    {th : KycThread} {c : KycCmd} {f : Bool} (h : thereStep svc i d cfg th c f = true) :
    (whileThere svc i d).onStep cfg th c f := by
  intro hid
  simp only [thereStep, hid, ne_eq, not_true_eq_false, decide_false, Bool.false_or,
    Bool.and_eq_true, decide_eq_true_eq, Bool.or_eq_true, Bool.not_eq_true'] at h
  refine ⟨h.1, fun hf => h.2.resolve_left ?_⟩
  rw [hf]
  exact Bool.noConfusion

/-- A second submission while the first is pending. -/
theorem one_pending_submission_second : ∃ cfg cfg' th r,
    Reach (server storageService) .free (start 0) cfg ∧ OneSubmission storageService cfg ∧
    Reach (server storageService) (whileThere storageService 1 firstDocument)
      (cfg.spawn 1 (.submit passport) (prog storageService 1 (.submit passport))) cfg' ∧
    cfg'.thread 1 = some th ∧ th.proc = .done r ∧
    r = .error (.conflict activeSubmission (some 1)) := by
  have hrun : ((server storageService).runChecked (thereStep storageService 1 firstDocument)
      (pendingConfig.spawn 1 (.submit passport) (prog storageService 1 (.submit passport)))
      [.step 1 none, .step 1 none, .step 1 none]).bind (fun cfg' => (cfg'.thread 1).map
        fun th => th.proc.isDone) = some true := by decide +kernel
  obtain ⟨cfg', hcfg', hth'⟩ := Option.bind_eq_some_iff.mp hrun
  obtain ⟨th, hth, hdone⟩ := Option.map_eq_some_iff.mp hth'
  have h' : Reach (server storageService) (whileThere storageService 1 firstDocument)
      (pendingConfig.spawn 1 (.submit passport) (prog storageService 1 (.submit passport))) cfg' :=
    Reach.refl.of_runChecked (fun _ _ _ _ => trivial) (fun _ _ _ _ => whileThere_of_step) hcfg'
  cases hproc : th.proc with
  | await c next =>
    rw [hproc] at hdone
    cases hdone
  | done r =>
    have hone := one_pending_submission pendingConfig_reached
    refine ⟨pendingConfig, cfg', th, r, pendingConfig_reached, hone, h', hth, hproc, ?_⟩
    exact hone.refused 1 passport firstDocument cfg' th r rfl (by decide) rfl rfl h' hth hproc

def elsewhere : SubmitKycDto := ⟨7, "passport", "B7654321", "b.pdf"⟩

/-- While a document is pending, a URL that is refused is refused first; and a
submission whose first statement fails throws what it failed with. -/
theorem pending_not_reported :
    (∃ cfg cfg' th, Reach (server storageService) .free (start 0) cfg ∧ cfg.thread 1 = none ∧
      firstDocument ∈ cfg.state.documents ∧ firstDocument.userId = elsewhere.userId ∧
      firstDocument.status = .pending ∧
      Reach (server storageService) (whileThere storageService 1 firstDocument)
        (cfg.spawn 1 (.submit elsewhere) (prog storageService 1 (.submit elsewhere))) cfg' ∧
      cfg'.thread 1 = some th ∧
      th.proc = .done (.error (.badRequest "documentUrl must be a valid URL"))) ∧
    ∃ cfg cfg' th, Reach (server storageService) .free (start 0) cfg ∧ cfg.thread 1 = none ∧
      firstDocument ∈ cfg.state.documents ∧ firstDocument.userId = passport.userId ∧
      firstDocument.status = .pending ∧
      Reach (server storageService) .free
        (cfg.spawn 1 (.submit passport) (prog storageService 1 (.submit passport))) cfg' ∧
      firstDocument ∈ cfg'.state.documents ∧ cfg'.thread 1 = some th ∧
      th.proc = .done (.error (.fault "connection lost")) := by
  have hthere : firstDocument ∈ pendingConfig.state.documents := by decide +kernel
  constructor
  · refine ⟨pendingConfig, _, ⟨1, .submit elsewhere, false,
      .done (.error (.badRequest "documentUrl must be a valid URL"))⟩, pendingConfig_reached, rfl,
      hthere, rfl, rfl, .refl, ?_, rfl⟩
    rw [Config.thread_spawn, if_pos rfl]
    rfl
  · refine ⟨pendingConfig, (server storageService).play
      (pendingConfig.spawn 1 (.submit passport) (prog storageService 1 (.submit passport)))
      [.step 1 (some (.fault "connection lost"))],
      ⟨1, .submit passport, true, .done (.error (.fault "connection lost"))⟩, pendingConfig_reached,
      rfl, hthere, rfl, rfl, Reach.refl.play _, ?_, rfl, rfl⟩
    decide +kernel

end Kyc

end NexaFx
