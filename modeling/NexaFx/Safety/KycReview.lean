import NexaFx.Lib.Turns
import NexaFx.Safety.KycSubmission

/-!
# NexaFx — one decision at a time

Reviews, appeals and bulk reviews of a document, interleaved at every await. Each
loads the document, looks at its status and saves all of it later; a review then
announces its decision.

When a call looks the document up only while every other call that has loaded it
is done with it, the versions of the document follow one another as they should:
a decision only after the document was open, an appeal only after a rejection, and
nothing after an approval (`review_decides_once`). Two reviews that have loaded
the same version both decide (`decided_twice`).
-/

namespace NexaFx

open Async

namespace Kyc

-- ---------------------------------------------------------------------------
-- The property
-- ---------------------------------------------------------------------------

/-- The versions of the document that were stored, each with its call. -/
def KycDb.versions (db : KycDb) (id : ℕ) : List (ℕ × KycDocument) :=
  db.stores.filter fun x => decide (x.2.id = id)

/-- The decisions on the document that were announced. -/
def KycDb.announced (db : KycDb) (id : ℕ) : List (ℕ × KycDocument) :=
  db.reviewed.filter fun x => decide (x.2.id = id)

def KycDocument.decided (d : KycDocument) : Bool := !d.status.undecided

/-- The version that may come after this one: a decision on an open document, or
the appeal against a rejection. -/
def Follows (d d' : KycDocument) : Prop :=
  (d.status.undecided = true ∧ d'.decided = true ∧ d' =
    { d with status := d'.status, reviewedBy := d'.reviewedBy, reviewedAt := d'.reviewedAt }) ∨
  (d.status = .rejected ∧ d' = { d with status := .appealed, appealReason := d'.appealReason })

/-- The versions that are decisions. -/
def decisions (versions : List (ℕ × KycDocument)) : List (ℕ × KycDocument) :=
  versions.filter fun x => x.2.decided

/-- The command looks the document up. -/
def KycCmd.opens (id : ℕ) : KycCmd → Bool
  | .findDocument id' => decide (id' = id)
  | _ => false

/-- The command stores a version of the document, or announces one. -/
def KycCmd.touches (id : ℕ) : KycCmd → Bool
  | .saveDocument _ d | .emitReviewed _ d => decide (d.id = id)
  | _ => false

/-- The document is looked up only while no other call that has loaded it still
has a save or an announcement of it in front of it. -/
def inTurn (id : ℕ) : Discipline KycCall KycCmd KycCmd.Reply KycErr KycDb Answer where
  onCall _ _ _ := True
  onStep cfg th c _ := c.opens id = true → ∀ j thj, cfg.thread j = some thj → j ≠ th.id →
    thj.proc.Aside (KycCmd.touches id) (KycCmd.opens id) Answers

/-- The document, once a version `d₀`, has been decided once each time it was open. -/
structure DecidedOnce (svc : Service) (id : ℕ) (d₀ : KycDocument) (cfg : KycConfig) : Prop where
  /-- Each version follows the one before it. -/
  history : (d₀ :: (cfg.state.versions id).map Prod.snd).IsChain Follows
  stored : cfg.state.document id = (d₀ :: (cfg.state.versions id).map Prod.snd).getLast?
  /-- The status, the reviewer and the instant of a decision are of one review. -/
  own : ∀ x ∈ decisions (cfg.state.versions id), ∃ k, cfg.called x.1 = some k ∧ k.Decides x.2
  /-- Each decision is announced once, the last one maybe not yet. -/
  announced : cfg.state.announced id = decisions (cfg.state.versions id) ∨
    ∃ x, decisions (cfg.state.versions id) = cfg.state.announced id ++ [x]
  settled : (∀ i th, cfg.thread i = some th →
      th.proc.Aside (KycCmd.touches id) (KycCmd.opens id) Answers) →
    cfg.state.announced id = decisions (cfg.state.versions id)
  returned : ∀ i th dto d, cfg.thread i = some th → th.call = .review id dto →
    th.proc = .done (.ok (.document d)) → (i, d) ∈ cfg.state.versions id
  threw : ∀ i th dto e, cfg.thread i = some th → th.call = .review id dto →
    th.proc = .done (.error e) → ∀ x ∈ cfg.state.versions id, x.1 ≠ i
  bulk : ∀ i th dto r, cfg.thread i = some th → th.call = .bulkReview dto →
    th.proc = .done (.ok (.bulk r)) → id ∈ dto.kycIds → (∀ f ∈ r.failed, f.id ≠ id) →
    ∃ d, (i, d) ∈ cfg.state.versions id
  /-- A document stored as APPROVED never changes again. -/
  final : ∀ d cfg', cfg.state.document id = some d → d.status = .approved →
    Reach (server svc) (inTurn id) cfg cfg' → cfg'.state.document id = some d

-- ---------------------------------------------------------------------------
-- What becomes of a document
-- ---------------------------------------------------------------------------

/-- The document has been committed. -/
def Committed (id : ℕ) (db : KycDb) : Prop := ∃ r ∈ db.rows, r.id = id ∧ r.openIn = none

section Effects

variable {rows : Pick} {id : ℕ} {db db' : KycDb}

theorem document_eq {r : Row} (hr : r ∈ db.rows) (hnone : r.openIn = none) :
    db.document r.id = some r.doc := by
  have hmem : r.doc ∈ db.documents :=
    List.mem_map.mpr ⟨r, List.mem_filter.mpr ⟨hr, by rw [Row.committed, hnone]; rfl⟩, rfl⟩
  refine Table.get_of_mem KycDocument.id ?_ hmem
  unfold KycDb.documents
  rw [List.map_map]
  exact Table.nodup_filter Row.id db.keyed _

theorem committed_of_document {d : KycDocument} (h : db.document id = some d) : Committed id db := by
  have hd := KycDb.document_id h
  obtain ⟨r, hr, rfl⟩ := List.mem_map.mp (List.mem_of_find?_eq_some h)
  obtain ⟨hrow, hcommitted⟩ := List.mem_filter.mp hr
  exact ⟨r, hrow, hd, Option.isNone_iff_eq_none.mp hcommitted⟩

/-- A committed row that no save is about stays. -/
theorem exec_row {c : KycCmd} {a : c.Reply} {r : Row} (h : exec rows c db = .ok (a, db'))
    (hr : r ∈ db.rows) (hnone : r.openIn = none)
    (hc : ∀ call d, c = .saveDocument call d → d.id ≠ r.id) : r ∈ db'.rows := by
  cases c with
  | insert call dto =>
    simp only [exec] at h
    split at h
    · cases h
      exact List.mem_append_left _ hr
    · cases h
  | commitTransaction call =>
    cases h
    have hkeep : r.commit call = r := if_neg (by simp [hnone])
    exact List.mem_map.mpr ⟨r, hr, hkeep⟩
  | rollbackTransaction call =>
    cases h
    exact List.mem_filter.mpr ⟨hr, by simp [hnone]⟩
  | saveDocument call d =>
    cases h
    have hkeep : r.update d = r := if_neg fun hhere => hc call d rfl hhere.1.symm
    exact List.mem_map.mpr ⟨r, hr, hkeep⟩
  | _ =>
    cases h
    exact hr

theorem exec_committed {c : KycCmd} {a : c.Reply} (h : exec rows c db = .ok (a, db'))
    (hdoc : Committed id db) : Committed id db' := by
  obtain ⟨r, hr, hid, hnone⟩ := hdoc
  cases c with
  | saveDocument call d =>
    cases h
    exact ⟨r.update d, List.mem_map_of_mem hr, (r.update_id d).trans hid,
      (r.update_openIn d).trans hnone⟩
  | _ => exact ⟨r, exec_row h hr hnone (fun call d hc => by cases hc), hid, hnone⟩

/-- The document, its versions and its announcements. -/
structure Progress where
  current : Option KycDocument
  versions : List (ℕ × KycDocument)
  announced : List (ℕ × KycDocument)

def progress (id : ℕ) (db : KycDb) : Progress := ⟨db.document id, db.versions id, db.announced id⟩

theorem filter_append_none {β : Type} {l more : List β} {p : β → Bool} (h : ∀ x ∈ more, p x = false) :
    (l ++ more).filter p = l.filter p := by
  have hnone : more.filter p = [] := List.filter_eq_nil_iff.mpr fun x hx => by simp [h x hx]
  rw [List.filter_append, hnone, List.append_nil]

/-- What is committed now was not committed before. -/
theorem staged_ne {call : ℕ} (hdoc : Committed id db) {d : KycDocument} (hd : d ∈ db.staged call) :
    d.id ≠ id := by
  rintro rfl
  obtain ⟨r, hr, hid, hnone⟩ := hdoc
  obtain ⟨r', hr', rfl⟩ := List.mem_map.mp hd
  obtain ⟨hrow, hopen⟩ := List.mem_filter.mp hr'
  have hsame := Table.get_of_mem Row.id db.keyed hrow
  rw [show r'.id = r'.doc.id from rfl, ← hid, Table.get_of_mem Row.id db.keyed hr] at hsame
  cases hsame
  rw [hnone] at hopen
  cases hopen

/-- The other commands leave the document alone. -/
theorem exec_quiet {c : KycCmd} {a : c.Reply} (hc : c.touches id = false) (hdoc : Committed id db)
    (h : exec rows c db = .ok (a, db')) : progress id db' = progress id db := by
  have hcurrent : db'.document id = db.document id := by
    obtain ⟨r, hr, rfl, hnone⟩ := hdoc
    rw [document_eq hr hnone, document_eq (exec_row h hr hnone ?_) hnone]
    rintro call d rfl
    exact of_decide_eq_false hc
  have hversions : db'.versions id = db.versions id := by
    cases c with
    | insert call dto =>
      simp only [exec] at h
      split at h <;> cases h
      rfl
    | commitTransaction call =>
      cases h
      refine filter_append_none fun x hx => ?_
      obtain ⟨d, hd, rfl⟩ := List.mem_map.mp hx
      exact decide_eq_false (staged_ne hdoc hd)
    | saveDocument call d =>
      cases h
      refine filter_append_none fun x hx => ?_
      obtain ⟨_, _, rfl⟩ := List.mem_map.mp hx
      exact hc
    | _ =>
      cases h
      rfl
  have hannounced : db'.announced id = db.announced id := by
    cases c with
    | insert call dto =>
      simp only [exec] at h
      split at h <;> cases h
      rfl
    | emitReviewed call d =>
      cases h
      refine filter_append_none fun x hx => ?_
      rw [List.mem_singleton.mp hx]
      exact hc
    | _ =>
      cases h
      rfl
  unfold progress
  rw [hcurrent, hversions, hannounced]

/-- A save of the document. -/
theorem progress_save {call : ℕ} {d : KycDocument} (hid : d.id = id) (hdoc : Committed id db) :
    progress id (db.save call d) =
      ⟨some d, db.versions id ++ [(call, d)], db.announced id⟩ := by
  obtain ⟨r, hr, hrid, hnone⟩ := hdoc
  have hwritten : r.update d = ⟨d, none⟩ := by
    unfold Row.update
    rw [if_pos ⟨hrid.trans hid.symm, hnone⟩, hnone]
  have hcurrent : (db.save call d).document id = some d := by
    have hmem : (⟨d, none⟩ : Row) ∈ (db.save call d).rows := List.mem_map.mpr ⟨r, hr, hwritten⟩
    rw [← hid]
    exact document_eq hmem rfl
  have hone : (db.rows.filter fun r => decide (r.id = d.id ∧ r.openIn = none)) = [r] := by
    have hkey := Table.filter_key Row.id db.keyed (Table.get_of_mem Row.id db.keyed hr)
    have hsplit : (db.rows.filter fun x => decide (x.id = d.id ∧ x.openIn = none)) =
        (db.rows.filter fun x => decide (x.id = r.id)).filter fun x => decide (x.openIn = none) := by
      rw [List.filter_filter]
      refine List.filter_congr fun x _ => ?_
      rw [hid, hrid, Bool.and_comm, Bool.decide_and]
    rw [hsplit, hkey]
    exact List.filter_cons_of_pos (decide_eq_true hnone)
  have hversions : (db.save call d).versions id = db.versions id ++ [(call, d)] := by
    show (db.stores ++ (db.rows.filter _).map fun _ => (call, d)).filter _ = _
    rw [hone, List.filter_append]
    exact congrArg (db.versions id ++ ·) (List.filter_cons_of_pos (decide_eq_true hid))
  unfold progress
  rw [hcurrent, hversions]
  rfl

end Effects

-- ---------------------------------------------------------------------------
-- Turns
-- ---------------------------------------------------------------------------

/-- Each version follows the one before it, and the last is the one stored. -/
structure Ordered (d₀ : KycDocument) (p : Progress) : Prop where
  history : (d₀ :: p.versions.map Prod.snd).IsChain Follows
  stored : p.current = (d₀ :: p.versions.map Prod.snd).getLast?

theorem Ordered.append {d₀ d d' : KycDocument} {p : Progress} (h : Ordered d₀ p) (i : ℕ)
    (hcurrent : p.current = some d) (hfollows : Follows d d') (announced : List (ℕ × KycDocument)) :
    Ordered d₀ ⟨some d', p.versions ++ [(i, d')], announced⟩ := by
  constructor
  · show (d₀ :: (p.versions ++ [(i, d')]).map Prod.snd).IsChain Follows
    rw [List.map_append, ← List.cons_append, List.isChain_append]
    refine ⟨h.history, List.isChain_singleton _, fun x hx y hy => ?_⟩
    rw [← h.stored, hcurrent] at hx
    cases hx
    cases hy
    exact hfollows
  · show some d' = (d₀ :: (p.versions ++ [(i, d')]).map Prod.snd).getLast?
    rw [List.map_append, ← List.cons_append]
    exact List.getLast?_concat.symm

/-- What the calls on a document take turns with. -/
def documentTurn (rows : Pick) (id : ℕ) (d₀ : KycDocument) :
    Turn KycCmd KycCmd.Reply KycErr KycDb Progress where
  exec := exec rows
  view := progress id
  opens := KycCmd.opens id
  touches := KycCmd.touches id
  allows c failed _ := ∀ call d, c = .emitReviewed call d → failed = false
  inv := Committed id
  safe p := Ordered d₀ p ∧ (p.announced = decisions p.versions ∨
    ∃ x, decisions p.versions = p.announced ++ [x])
  rest p := Ordered d₀ p ∧ p.announced = decisions p.versions

section Programs

variable {svc : Service} {id : ℕ} {d₀ : KycDocument} {i : ℕ} {α : Type}

/-- The call is aside. -/
abbrev Clear (id : ℕ) (p : KycProc α) : Prop :=
  p.Aside (KycCmd.touches id) (KycCmd.opens id) Answers

/-- The call begins its turns well. -/
abbrev InTurn (svc : Service) (id : ℕ) (d₀ : KycDocument) (p : KycProc α) : Prop :=
  p.Always Answers fun c next => (documentTurn svc.rows id d₀).Begins c next

theorem begins_aside {c : KycCmd} {next : Except KycErr c.Reply → KycProc α}
    (h : c.opens id = false) : (documentTurn svc.rows id d₀).Begins c next := by
  intro hopens
  have hlookup : c.opens id = true := hopens
  rw [h] at hlookup
  cases hlookup

theorem review_clear (j : ℕ) (dto : ReviewKycDto) : Clear id (review i j dto) := by
  unfold review
  by_cases hj : j = id
  · exact Proc.aside_open_bind rfl (decide_eq_true hj)
  · refine Proc.aside_call_bind rfl fun found hfound => ?_
    cases found with
    | none => trivial
    | some d =>
      have hother : decide (d.id = id) = false := decide_eq_false (by rw [hfound d rfl]; exact hj)
      refine Proc.aside_rejectWhen_bind fun _ => ?_
      refine Proc.aside_call_bind rfl fun now _ => ?_
      refine Proc.aside_call_bind hother fun saved hsaved => ?_
      obtain rfl : saved = _ := hsaved
      exact Proc.aside_call_bind hother fun _ _ => trivial

theorem reviewEach_clear (dto : ReviewKycDto) (ids : List ℕ) (failed : List Failure) :
    Clear id (reviewEach i dto ids failed) := by
  induction ids generalizing failed with
  | nil => trivial
  | cons j ids ih =>
    unfold reviewEach
    refine Proc.aside_bind (Proc.aside_attempt (review_clear j dto)) fun r => ?_
    cases r with
    | ok d => exact ih failed
    | error e => exact ih _

theorem appeal_clear (j : ℕ) (reason : String) : Clear id (appeal i j reason) := by
  unfold appeal
  by_cases hj : j = id
  · exact Proc.aside_open_bind rfl (decide_eq_true hj)
  · refine Proc.aside_call_bind rfl fun found hfound => ?_
    cases found with
    | none => trivial
    | some d =>
      have hother : decide (d.id = id) = false := decide_eq_false (by rw [hfound d rfl]; exact hj)
      refine Proc.aside_rejectWhen_bind fun _ => ?_
      exact ⟨hother, fun _ => ⟨fun _ _ => trivial, fun _ => trivial⟩⟩

theorem prog_clear (svc : Service) (i : ℕ) (k : KycCall) : Clear id (prog svc i k) := by
  cases k with
  | submit dto =>
    exact Proc.aside_of_issues
      (Proc.issues_bind (submit_issues rfl rfl rfl rfl rfl) fun _ => trivial)
  | review j dto => exact Proc.aside_bind (review_clear j dto) fun _ => trivial
  | appeal j reason => exact Proc.aside_bind (appeal_clear j reason) fun _ => trivial
  | bulkReview dto =>
    unfold prog bulkReview
    refine Proc.aside_bind ?_ fun _ => trivial
    refine Proc.aside_rejectWhen_bind fun _ => ?_
    refine Proc.aside_rejectWhen_bind fun _ => ?_
    exact Proc.aside_bind (reviewEach_clear dto.decision _ _) fun _ => trivial
  | tick ms => exact ⟨rfl, fun _ => ⟨fun _ _ => trivial, fun _ => trivial⟩⟩

theorem documentTurn_commands (svc : Service) (id : ℕ) (d₀ : KycDocument) :
    TurnCommands (server svc) (documentTurn svc.rows id d₀) Answers where
  exec := rfl
  safe _ h := ⟨h.1, Or.inl h.2⟩
  lookup c h := by
    cases c with
    | findDocument _ => rfl
    | _ => cases h
  keeps _ _ _ _ h hdoc := exec_committed h hdoc
  quiet _ _ _ _ hc hdoc h := exec_quiet hc hdoc h
  possible c db _ := by
    rintro call d rfl
    rfl
  replied _ _ _ _ h := exec_answers h

/-- A call that leaves the document alone from here on. -/
theorem turns_aside {p : KycProc α} {v : Progress} (hp : Clear id p)
    (hrest : (documentTurn svc.rows id d₀).rest v) : p.Turns (documentTurn svc.rows id d₀) v :=
  (documentTurn_commands svc id d₀).turns_of_aside hp hrest

theorem progress_emit {db : KycDb} {d : KycDocument} (hid : d.id = id) :
    progress id { db with reviewed := db.reviewed ++ [(i, d)] } =
      ⟨db.document id, db.versions id, db.announced id ++ [(i, d)]⟩ := by
  have hannounced : KycDb.announced { db with reviewed := db.reviewed ++ [(i, d)] } id =
      db.announced id ++ [(i, d)] := by
    show (db.reviewed ++ [(i, d)]).filter _ = _
    rw [List.filter_append]
    exact congrArg (db.announced id ++ ·) (List.filter_cons_of_pos (decide_eq_true hid))
  unfold progress
  rw [hannounced]
  rfl

theorem decisions_append (versions : List (ℕ × KycDocument)) {d : KycDocument}
    (hd : d.decided = true) :
    decisions (versions ++ [(i, d)]) = decisions versions ++ [(i, d)] := by
  have hone : [(i, d)].filter (fun x => x.2.decided) = [(i, d)] := List.filter_cons_of_pos hd
  unfold decisions
  rw [List.filter_append, hone]

theorem decisions_skip (versions : List (ℕ × KycDocument)) {d : KycDocument}
    (hd : d.decided = false) : decisions (versions ++ [(i, d)]) = decisions versions := by
  unfold decisions
  exact filter_append_none fun x hx => by rw [List.mem_singleton.mp hx, hd]

/-- What is left of a review that is to store the decision `d'`. -/
theorem decide_turns {h : Except KycErr KycDocument → KycProc α} (hh : ∀ r, Clear id (h r))
    {d d' : KycDocument} {v : Progress} (hrest : (documentTurn svc.rows id d₀).rest v)
    (hcurrent : v.current = some d) (hid : d'.id = id) (hfollows : Follows d d')
    (hdecided : d'.decided = true) :
    ((((await (.saveDocument i d')).bind fun saved =>
      (await (.emitReviewed i saved)).bind fun _ => Proc.done (.ok saved)).attempt).bind h).Turns
        (documentTurn svc.rows id d₀) v := by
  refine Proc.turns_try_call_bind rfl ⟨hrest.1, Or.inl hrest.2⟩
    (fun db saved db' hdoc hview _ hexec => ?_) fun _ _ _ _ _ => turns_aside (hh _) hrest
  obtain ⟨rfl, rfl⟩ : d' = saved ∧ db.save i d' = db' := by
    cases hexec
    exact ⟨rfl, rfl⟩
  have hstored : (documentTurn svc.rows id d₀).view (db.save i d') =
      ⟨some d', v.versions ++ [(i, d')], v.announced⟩ := by
    rw [← hview]
    exact progress_save hid hdoc
  have hordered := hrest.1.append i hcurrent hfollows
  have hdecisions := decisions_append (i := i) v.versions hdecided
  rw [hstored]
  refine Proc.turns_try_call_bind rfl ⟨hordered _, Or.inr ⟨(i, d'), ?_⟩⟩
    (fun db₁ _ db₂ _ hview₁ _ hexec₁ => ?_) fun _ _ _ _ hfails => ?_
  · show decisions (v.versions ++ [(i, d')]) = v.announced ++ [(i, d')]
    rw [hdecisions, hrest.2]
  · obtain rfl : { db₁ with reviewed := db₁.reviewed ++ [(i, d')] } = db₂ := by
      cases hexec₁
      rfl
    have hannounced : (documentTurn svc.rows id d₀).view
        { db₁ with reviewed := db₁.reviewed ++ [(i, d')] } =
          ⟨some d', v.versions ++ [(i, d')], v.announced ++ [(i, d')]⟩ := by
      refine (progress_emit hid).trans ?_
      have hsame : progress id db₁ = ⟨some d', v.versions ++ [(i, d')], v.announced⟩ := hview₁
      rw [show db₁.document id = _ from congrArg Progress.current hsame,
        show db₁.versions id = _ from congrArg Progress.versions hsame,
        show db₁.announced id = _ from congrArg Progress.announced hsame]
    rw [hannounced]
    refine turns_aside (hh _) ⟨hordered _, ?_⟩
    show v.announced ++ [(i, d')] = decisions (v.versions ++ [(i, d')])
    rw [hdecisions, hrest.2]
  · exact absurd (hfails i d' rfl) Bool.noConfusion

/-- **The turn of a review**, and of what comes after it. -/
theorem review_turns {h : Except KycErr KycDocument → KycProc α} (hh : ∀ r, Clear id (h r))
    (hall : ∀ r, InTurn svc id d₀ (h r)) (j : ℕ) (dto : ReviewKycDto) :
    InTurn svc id d₀ ((review i j dto).attempt.bind h) := by
  unfold review
  simp only [Proc.bind_eq]
  refine Proc.always_try_call_bind ?_ (fun found _ => ?_) fun e => hall _
  · intro hopens db hdoc hrest
    obtain rfl : j = id := of_decide_eq_true hopens
    refine ⟨fun found db' hexec => ?_, fun e => turns_aside (hh _) hrest⟩
    obtain rfl : db.document j = found := by
      cases hexec
      rfl
    cases hfound : db.document j with
    | none => exact turns_aside (hh _) hrest
    | some d =>
      have hid := KycDb.document_id hfound
      refine Proc.turns_try_rejectWhen_bind (fun _ => turns_aside (hh _) hrest) fun hopen => ?_
      refine Proc.turns_try_call_bind rfl ⟨hrest.1, Or.inl hrest.2⟩
        (fun db₁ now db₂ hdoc₁ hview _ hexec => ?_) fun _ _ _ _ _ => turns_aside (hh _) hrest
      have hsame : (documentTurn svc.rows j d₀).view db₂ =
          (documentTurn svc.rows j d₀).view db := by
        have hnow : exec svc.rows .now db₁ = .ok (now, db₂) := hexec
        rw [← hview]
        exact exec_quiet (c := KycCmd.now) rfl hdoc₁ hnow
      rw [hsame]
      refine decide_turns (d := d) hh hrest hfound hid (Or.inl ⟨?_, ?_, rfl⟩) ?_
      · cases hstatus : d.status <;> simp [hstatus] at hopen <;> rfl
      · rcases dto.decides with hstatus | hstatus <;> simp [KycDocument.decided, hstatus,
          KycDocumentStatus.undecided]
      · rcases dto.decides with hstatus | hstatus <;> simp [KycDocument.decided, hstatus,
          KycDocumentStatus.undecided]
  · cases found with
    | none => exact hall _
    | some d =>
      refine Proc.always_try_rejectWhen_bind (hall _) fun _ => ?_
      refine Proc.always_try_call_bind (begins_aside rfl) (fun now _ => ?_) fun e => hall _
      refine Proc.always_try_call_bind (begins_aside rfl) (fun saved _ => ?_) fun e => hall _
      exact Proc.always_try_call_bind (begins_aside rfl) (fun _ _ => hall _) fun e => hall _

theorem reviewEach_turns {h : List Failure → KycProc α} (hh : ∀ failed, Clear id (h failed))
    (hall : ∀ failed, InTurn svc id d₀ (h failed)) (dto : ReviewKycDto) (ids : List ℕ)
    (failed : List Failure) : InTurn svc id d₀ ((reviewEach i dto ids failed).bind h) := by
  induction ids generalizing failed with
  | nil => exact hall failed
  | cons j ids ih =>
    unfold reviewEach
    simp only [Proc.bind_eq, Proc.bind_assoc]
    refine review_turns (fun r => ?_) (fun r => ?_) j dto
    · cases r with
      | ok d => exact Proc.aside_bind (reviewEach_clear dto ids failed) hh
      | error e => exact Proc.aside_bind (reviewEach_clear dto ids _) hh
    · cases r with
      | ok d => exact ih failed
      | error e => exact ih _

/-- **The turn of an appeal.** -/
theorem appeal_turns (j : ℕ) (reason : String) :
    InTurn svc id d₀ ((appeal i j reason).bind fun d => Proc.done (.ok (Answer.document d))) := by
  unfold appeal
  simp only [Proc.bind_eq, Proc.bind_assoc]
  refine Proc.always_call_bind ?_ fun found _ => ?_
  · intro hopens db hdoc hrest
    obtain rfl : j = id := of_decide_eq_true hopens
    refine ⟨fun found db' hexec => ?_, fun e => hrest⟩
    obtain rfl : db.document j = found := by
      cases hexec
      rfl
    cases hfound : db.document j with
    | none => exact hrest
    | some d =>
      have hid := KycDb.document_id hfound
      show Proc.Turns _ (Proc.bind (Proc.bind _ _) _) _
      rw [Proc.bind_assoc]
      by_cases hrejected : d.status = .rejected
      · rw [Proc.rejectWhen_neg (not_not.mpr hrejected), Proc.done_ok_bind]
        refine Proc.turns_call_bind rfl ⟨hrest.1, Or.inl hrest.2⟩
          (fun db₁ saved db₂ hdoc₁ hview _ hexec => ?_) fun _ _ _ _ => hrest
        obtain ⟨rfl, rfl⟩ : { d with status := .appealed, appealReason := some reason } = saved ∧
            db₁.save i { d with status := .appealed, appealReason := some reason } = db₂ := by
          cases hexec
          exact ⟨rfl, rfl⟩
        have hstored : (documentTurn svc.rows j d₀).view
            (db₁.save i { d with status := .appealed, appealReason := some reason }) =
              ⟨some { d with status := .appealed, appealReason := some reason },
                db.versions j ++ [(i, { d with status := .appealed, appealReason := some reason })],
                db.announced j⟩ := by
          have hsame : progress j db₁ = progress j db := hview
          rw [show db.versions j = _ from (congrArg Progress.versions hsame).symm,
            show db.announced j = _ from (congrArg Progress.announced hsame).symm]
          exact progress_save hid hdoc₁
        rw [hstored]
        refine ⟨hrest.1.append i hfound (Or.inr ⟨hrejected, rfl⟩) _, ?_⟩
        show db.announced j = decisions (db.versions j ++ [_])
        rw [decisions_skip _ rfl]
        exact hrest.2
      · rw [Proc.rejectWhen_pos hrejected]
        exact hrest
  · cases found with
    | none => exact .done _
    | some d =>
      rw [Proc.bind_assoc]
      refine Proc.always_rejectWhen_bind fun _ => ?_
      exact Proc.always_call_bind (begins_aside rfl) fun _ _ => .done _

theorem prog_turns (svc : Service) (i : ℕ) (k : KycCall) : InTurn svc id d₀ (prog svc i k) := by
  cases k with
  | submit dto =>
    refine Proc.always_of_issues (P := fun c => c.opens id = false)
      (fun c next hc => begins_aside hc) ?_
    exact Proc.issues_bind (submit_issues rfl rfl rfl rfl rfl) fun _ => trivial
  | review j dto =>
    unfold prog
    simp only [Proc.bind_eq]
    rw [Proc.bind_eq_attempt]
    refine review_turns (fun r => ?_) (fun r => ?_) j dto
    · cases r <;> trivial
    · cases r <;> exact .done _
  | appeal j reason => exact appeal_turns j reason
  | bulkReview dto =>
    unfold prog bulkReview
    simp only [Proc.bind_eq, Proc.bind_assoc]
    refine Proc.always_rejectWhen_bind fun _ => ?_
    refine Proc.always_rejectWhen_bind fun _ => ?_
    refine reviewEach_turns (fun failed => ?_) (fun failed => ?_) dto.decision _ _
    · trivial
    · exact .done _
  | tick ms => exact .await (begins_aside rfl) (fun _ _ => .done _) fun _ => .done _

theorem documentTurn_takes (svc : Service) (id : ℕ) (d₀ : KycDocument) :
    TakesTurns (server svc) (inTurn id) (documentTurn svc.rows id d₀) Answers where
  toTurnCommands := documentTurn_commands svc id d₀
  prog := prog_turns svc
  fresh := prog_clear svc
  allows := by
    rintro cfg th c fault hfault _ call d rfl
    rcases hfault with rfl | hmay
    · rfl
    · cases hmay
  alone _ _ _ _ hD := hD

end Programs

-- ---------------------------------------------------------------------------
-- What a call has decided
-- ---------------------------------------------------------------------------

/-- The decisions that the call has announced. -/
def KycDb.announcedBy (db : KycDb) (call : ℕ) : List KycDocument :=
  (db.reviewed.filter fun x => decide (x.1 = call)).map Prod.snd

/-- What a call has stored, and what it has announced. -/
def done (i : ℕ) (db : KycDb) : List KycDocument × List KycDocument :=
  (db.storesOf i, db.announcedBy i)

/-- No call adds to what another has done. -/
theorem done_frame {rows : Pick} {i j : ℕ} {c : KycCmd} {db db' : KycDb} {a : c.Reply} (hij : j ≠ i)
    (howns : Owns j c) (h : exec rows c db = .ok (a, db')) : done i db' = done i db := by
  refine Prod.ext (congrArg Prod.snd (own_frame hij howns h)) ?_
  show ((db'.reviewed).filter _).map Prod.snd = db.announcedBy i
  cases c with
  | insert call dto =>
    simp only [exec] at h
    split at h <;> cases h
    rfl
  | emitReviewed call d =>
    obtain ⟨k, rfl, -⟩ := howns
    cases h
    rw [filter_append_none]
    · rfl
    · intro x hx
      rw [List.mem_singleton.mp hx]
      exact decide_eq_false hij
  | _ =>
    cases h
    rfl

section Done

variable {svc : Service} {i : ℕ} {v : List KycDocument × List KycDocument}

abbrev doneLogic (svc : Service) (i : ℕ) : Logic KycCmd KycCmd.Reply KycErr KycDb
    (List KycDocument × List KycDocument) :=
  (server svc).logic (done i)

/-- A statement that adds nothing. -/
theorem done_read {c : KycCmd} {post : Except KycErr c.Reply → List KycDocument × List KycDocument → Prop}
    (hquiet : ∀ db a db', exec svc.rows c db = .ok (a, db') → done i db' = done i db)
    (hok : ∀ a, (∃ db db', exec svc.rows c db = .ok (a, db')) → post (.ok a) v)
    (herror : ∀ e, post (.error e) v) : (await c).wp (doneLogic svc i) post v := by
  rw [Proc.wp_call]
  rintro db rfl
  refine ⟨fun a db' _ hexec => ⟨trivial, ?_⟩, fun _ e => herror e⟩
  show post (.ok a) (done i db')
  rw [hquiet db a db' hexec]
  exact hok a ⟨db, db', hexec⟩

theorem done_save {d : KycDocument}
    {post : Except KycErr KycDocument → List KycDocument × List KycDocument → Prop}
    (hok : ∀ stored, post (.ok d) (stored, v.2)) (herror : ∀ e, post (.error e) v) :
    (await (.saveDocument i d)).wp (doneLogic svc i) post v := by
  refine (Proc.wp_call (c := KycCmd.saveDocument i d)).mpr ?_
  rintro db rfl
  refine ⟨fun a db' _ hexec => ⟨trivial, ?_⟩, fun _ e => herror e⟩
  cases hexec
  exact hok _

theorem done_emit {d : KycDocument}
    {post : Except KycErr Unit → List KycDocument × List KycDocument → Prop}
    (hok : post (.ok ()) (v.1, v.2 ++ [d])) :
    (await (.emitReviewed i d)).wp (doneLogic svc i) post v := by
  refine (Proc.wp_call (c := KycCmd.emitReviewed i d)).mpr ?_
  rintro db rfl
  refine ⟨fun a db' _ hexec => ⟨trivial, ?_⟩, fun hfails => ?_⟩
  · cases hexec
    have hmore : KycDb.announcedBy { db with reviewed := db.reviewed ++ [(i, d)] } i =
        db.announcedBy i ++ [d] := by
      have hone : [(i, d)].filter (fun x => decide (x.1 = i)) = [(i, d)] :=
        List.filter_cons_of_pos (decide_eq_true rfl)
      show ((db.reviewed ++ [(i, d)]).filter _).map Prod.snd = _
      rw [List.filter_append, hone, List.map_append]
      rfl
    show post (.ok ()) (db.storesOf i, _)
    rw [hmore]
    exact hok
  · rcases hfails with hmay | ⟨e, hexec⟩
    · cases hmay
    · cases hexec

/-- **One review.** When it returns it has announced what it returns, and when it
throws it has done nothing. -/
theorem review_wp (id : ℕ) (dto : ReviewKycDto)
    {post : Except KycErr KycDocument → List KycDocument × List KycDocument → Prop}
    (hok : ∀ d stored, d.id = id → post (.ok d) (stored, v.2 ++ [d]))
    (herror : ∀ e, post (.error e) v) : (review i id dto).wp (doneLogic svc i) post v := by
  unfold review
  simp only [Proc.bind_eq]
  rw [Proc.wp_bind]
  refine done_read (fun db a db' h => by cases h; rfl) (fun found hfound => ?_) fun e => herror e
  obtain ⟨db, db', hexec⟩ := hfound
  have hanswer : ∀ d, found = some d → d.id = id := exec_answers (c := KycCmd.findDocument id) hexec
  cases found with
  | none => exact herror _
  | some d =>
    have hid := hanswer d rfl
    show Proc.wp _ _ _ _
    rw [Proc.wp_bind, Proc.wp_rejectWhen]
    refine ⟨fun _ => herror _, fun _ => ?_⟩
    show Proc.wp _ _ _ _
    rw [Proc.wp_bind]
    refine done_read (fun db a db' h => by cases h; rfl) (fun now _ => ?_) fun e => herror e
    show Proc.wp _ _ _ _
    rw [Proc.wp_bind]
    refine done_save (fun stored => ?_) fun e => herror e
    show Proc.wp _ _ _ _
    rw [Proc.wp_bind]
    exact done_emit (hok _ _ hid)

/-- **A bulk review.** Each id that has not failed has been decided. -/
theorem reviewEach_wp (dto : ReviewKycDto) (ids : List ℕ) (failed : List Failure) :
    (reviewEach i dto ids failed).wp (doneLogic svc i)
      (fun r w => ∀ failed', r = .ok failed' → failed ⊆ failed' ∧ v.2 ⊆ w.2 ∧
        ∀ id ∈ ids, (∀ f ∈ failed', f.id ≠ id) → ∃ d ∈ w.2, d.id = id) v := by
  induction ids generalizing failed v with
  | nil =>
    intro failed' h
    cases h
    exact ⟨fun _ h => h, fun _ h => h, fun id hid => by cases hid⟩
  | cons j ids ih =>
    unfold reviewEach
    simp only [Proc.bind_eq]
    rw [Proc.wp_bind, Proc.wp_attempt]
    refine review_wp j dto (fun d stored hid => ?_) fun e => ?_
    · refine Proc.wp_mono (fun r w hrest failed' hr => ?_) (ih failed)
      obtain ⟨hfailed, hmore, hall⟩ := hrest failed' hr
      have hkept : v.2 ⊆ w.2 := fun x hx => hmore (List.mem_append_left _ hx)
      refine ⟨hfailed, hkept, fun id hmem hnot => ?_⟩
      rcases List.mem_cons.mp hmem with rfl | hrest'
      · exact ⟨d, hmore (List.mem_append_right _ (List.mem_singleton_self d)), hid⟩
      · exact hall id hrest' hnot
    · refine Proc.wp_mono (fun r w hrest failed' hr => ?_) (ih (failed ++ [⟨j, e.message⟩]))
      obtain ⟨hfailed, hmore, hall⟩ := hrest failed' hr
      refine ⟨fun x hx => hfailed (List.mem_append_left _ hx), hmore, fun id hmem hnot => ?_⟩
      rcases List.mem_cons.mp hmem with rfl | hrest'
      · exact absurd rfl (hnot _ (hfailed (List.mem_append_right _ (List.mem_singleton_self _))))
      · exact hall id hrest' hnot

/-- What is asked of a call about its decisions. -/
def KycCall.Done (k : KycCall) (r : Except KycErr Answer)
    (v : List KycDocument × List KycDocument) : Prop :=
  match k, r with
  | .review id _, .ok a => ∃ d, a = .document d ∧ d.id = id ∧ d ∈ v.2
  | .review _ _, .error _ => v.1 = []
  | .bulkReview dto, .ok a => ∃ result, a = .bulk result ∧
      ∀ id ∈ dto.kycIds, (∀ f ∈ result.failed, f.id ≠ id) → ∃ d ∈ v.2, d.id = id
  | _, _ => True

theorem done_wp (svc : Service) (i : ℕ) (k : KycCall) :
    (prog svc i k).wp (doneLogic svc i) k.Done ([], []) := by
  cases k with
  | review id dto =>
    unfold prog
    simp only [Proc.bind_eq]
    rw [Proc.wp_bind]
    refine review_wp id dto (fun d stored hid => ?_) fun e => ?_
    · exact ⟨d, rfl, hid, List.mem_singleton_self d⟩
    · exact rfl
  | bulkReview dto =>
    unfold prog bulkReview
    simp only [Proc.bind_eq, Proc.bind_assoc]
    rw [Proc.wp_bind, Proc.wp_rejectWhen]
    refine ⟨fun _ => trivial, fun _ => ?_⟩
    show Proc.wp _ _ _ _
    rw [Proc.wp_bind, Proc.wp_rejectWhen]
    refine ⟨fun _ => trivial, fun _ => ?_⟩
    show Proc.wp _ _ _ _
    rw [Proc.wp_bind]
    refine Proc.wp_mono (fun r w hpost => ?_) (reviewEach_wp dto.decision dto.kycIds.eraseDups [])
    cases r with
    | error e => trivial
    | ok failed =>
      refine ⟨_, rfl, fun id hid hnot => ?_⟩
      exact (hpost failed rfl).2.2 id (List.mem_eraseDups.mpr hid) hnot
  | _ => exact Proc.wp_trivial (fun _ _ => trivial) _ _

end Done

-- ---------------------------------------------------------------------------
-- One decision at a time
-- ---------------------------------------------------------------------------

/-- Versions are added and never taken away. -/
theorem exec_versions {rows : Pick} {c : KycCmd} {db db' : KycDb} {a : c.Reply} (id : ℕ)
    (h : exec rows c db = .ok (a, db')) : ∃ more, db'.versions id = db.versions id ++ more := by
  suffices hstores : ∃ more, db'.stores = db.stores ++ more by
    obtain ⟨more, hmore⟩ := hstores
    refine ⟨more.filter fun x => decide (x.2.id = id), ?_⟩
    unfold KycDb.versions
    rw [hmore, List.filter_append]
  cases c with
  | insert call dto =>
    simp only [exec] at h
    split at h <;> cases h
    exact ⟨[], (List.append_nil _).symm⟩
  | commitTransaction call =>
    cases h
    exact ⟨_, rfl⟩
  | saveDocument call d =>
    cases h
    exact ⟨_, rfl⟩
  | _ =>
    cases h
    exact ⟨[], (List.append_nil _).symm⟩

section Runs

variable {svc : Service} {id : ℕ} {db : KycDb} {d₀ : KycDocument} {cfg cfg' : KycConfig}
  {D : Discipline KycCall KycCmd KycCmd.Reply KycErr KycDb Answer}

theorem versions_grow (h : Reach (server svc) D cfg cfg') :
    ∃ more, cfg'.state.versions id = cfg.state.versions id ++ more := by
  refine h.invariant (I := fun cfg' : KycConfig => ∃ more, cfg'.state.versions id =
    cfg.state.versions id ++ more) ⟨[], (List.append_nil _).symm⟩ (fun cfg₁ _ _ hI _ _ => hI)
    fun cfg₁ i fault th c next hI _ _ _ _ _ => ?_
  rw [Config.resume_state]
  cases hout : outcome fault ((server svc).exec c cfg₁.state) with
  | error e => exact hI
  | ok r =>
    obtain ⟨more, hmore⟩ := hI
    obtain ⟨more', hmore'⟩ := exec_versions id (outcome_eq_ok hout).2
    exact ⟨more ++ more', by rw [after_ok, hmore', hmore, List.append_assoc]⟩

/-- Each decision is of the call that made it. -/
theorem decisions_own (hdoc : db.document id = some d₀) (hstores : db.stores = [])
    (h : Reach (server svc) D ⟨db, []⟩ cfg) :
    ∀ x ∈ cfg.state.versions id, x.2.decided = true →
      ∃ k, cfg.called x.1 = some k ∧ k.Decides x.2 := by
  refine (h.invariant_always (I := fun cfg => Committed id cfg.state ∧
      ∀ x ∈ cfg.state.versions id, x.2.decided = true →
        ∃ k, cfg.called x.1 = some k ∧ k.Decides x.2) (G := Answers)
    (Q := fun i k c _ => Writes i k c) ⟨committed_of_document hdoc, fun x hx => ?_⟩ rfl
    (prog_writes svc) (fun cfg i k hI hfresh _ => ⟨hI.1, fun x hx hdecided => ?_⟩)
    fun cfg i fault th c next hI hth _ hwrites _ =>
      ⟨?_, fun a s' hout => exec_answers (outcome_eq_ok hout).2⟩).1.2
  · have hnone : db.versions id = [] := by
      unfold KycDb.versions
      rw [hstores]
      rfl
    rw [hnone] at hx
    cases hx
  · obtain ⟨k', hcalled, hdecides⟩ := hI.2 x hx hdecided
    refine ⟨k', ?_, hdecides⟩
    have hne : i ≠ x.1 := by
      rintro rfl
      rw [Config.called, hfresh] at hcalled
      cases hcalled
    rw [Config.called_spawn, if_neg hne, hcalled]
  · rw [Config.resume_state]
    simp only [Config.called_resume hth]
    cases hout : outcome fault ((server svc).exec c cfg.state) with
    | error e => exact hI
    | ok r =>
      have hexec := (outcome_eq_ok hout).2
      refine ⟨exec_committed hexec hI.1, ?_⟩
      cases htouches : c.touches id with
      | false =>
        rw [after_ok, show r.2.versions id = _ from
          congrArg Progress.versions (exec_quiet htouches hI.1 hexec)]
        exact hI.2
      | true =>
        cases c with
        | saveDocument call d =>
          cases hexec
          obtain ⟨rfl, hmine⟩ := hwrites
          rw [after_ok, show (cfg.state.save call d).versions id = _ from
            congrArg Progress.versions (progress_save (of_decide_eq_true htouches) hI.1)]
          intro x hx hdecided
          rcases List.mem_append.mp hx with hold | hnew
          · exact hI.2 x hold hdecided
          · rw [List.mem_singleton.mp hnew] at hdecided ⊢
            refine ⟨th.call, Config.called_of_thread hth, hmine.resolve_right fun happeals => ?_⟩
            rw [KycDocument.decided, happeals.status] at hdecided
            cases hdecided
        | emitReviewed call d =>
          cases hexec
          exact hI.2
        | _ => cases htouches

/-- What a call announced is a version. -/
theorem mem_versions {i : ℕ} {d : KycDocument} (hid : d.id = id)
    (hannounced : cfg.state.announced id = decisions (cfg.state.versions id) ∨
      ∃ x, decisions (cfg.state.versions id) = cfg.state.announced id ++ [x])
    (hd : d ∈ cfg.state.announcedBy i) : (i, d) ∈ cfg.state.versions id := by
  obtain ⟨x, hx, rfl⟩ := List.mem_map.mp hd
  obtain ⟨hmem, hcall⟩ := List.mem_filter.mp hx
  have hhere : x ∈ cfg.state.announced id := List.mem_filter.mpr ⟨hmem, decide_eq_true hid⟩
  obtain rfl : x.1 = i := of_decide_eq_true hcall
  rcases hannounced with hall | ⟨last, hall⟩
  · rw [hall] at hhere
    exact List.mem_of_mem_filter hhere
  · have hdecision : x ∈ decisions (cfg.state.versions id) := by
      rw [hall]
      exact List.mem_append_left _ hhere
    exact List.mem_of_mem_filter hdecision

/-- Nothing follows an approval. -/
theorem final_of_history {d : KycDocument} {vs more : List (ℕ × KycDocument)}
    (hlast : (d₀ :: vs.map Prod.snd).getLast? = some d) (happroved : d.status = .approved)
    (h : (d₀ :: (vs ++ more).map Prod.snd).IsChain Follows) : more = [] := by
  cases more with
  | nil => rfl
  | cons x more =>
    rw [List.map_append, ← List.cons_append, List.isChain_append] at h
    have hfollows := h.2.2 d hlast x.2 rfl
    rcases hfollows with ⟨hopen, -, -⟩ | ⟨hrejected, -⟩
    · rw [happroved] at hopen
      cases hopen
    · rw [happroved] at hrejected
      cases hrejected

/-- **One decision at a time.** -/
theorem review_decides_once (hdoc : db.document id = some d₀) (hstores : db.stores = [])
    (hreviewed : db.reviewed = []) (h : Reach (server svc) (inTurn id) ⟨db, []⟩ cfg) :
    DecidedOnce svc id d₀ cfg := by
  have hstart : (documentTurn svc.rows id d₀).rest (progress id db) := by
    have hversions : db.versions id = [] := by rw [KycDb.versions, hstores, List.filter_nil]
    have hannounced : db.announced id = [] := by rw [KycDb.announced, hreviewed, List.filter_nil]
    unfold progress
    rw [hversions, hannounced, hdoc]
    exact ⟨⟨List.isChain_singleton _, rfl⟩, rfl⟩
  have hturns : ∀ {cfg' : KycConfig}, Reach (server svc) (inTurn id) ⟨db, []⟩ cfg' →
      (documentTurn svc.rows id d₀).safe (progress id cfg'.state) ∧
      ((∀ i th, cfg'.thread i = some th → Clear id th.proc) →
        (documentTurn svc.rows id d₀).rest (progress id cfg'.state)) := fun h' =>
    h'.turns (documentTurn_takes svc id d₀) rfl (committed_of_document hdoc) hstart
  obtain ⟨⟨hordered, hannounced⟩, hrest⟩ := hturns h
  have hdone := (h.owns done (fun _ => KycCall.Done) (P := Owns) rfl (fun i => ?_)
    (fun i k => (prog_writes svc i k).mono fun c _ hc => ⟨k, hc⟩)
    (fun c s a s' hexec => exec_answers hexec)
    (fun i j c s a s' hij howns hexec => done_frame hij howns hexec) (done_wp svc)).2
  · refine ⟨hordered.history, hordered.stored, fun x hx => ?_, hannounced, fun haside => (hrest haside).2,
      fun i th dto d hth hcall hproc => ?_, fun i th dto e hth hcall hproc x hx hxi => ?_,
      fun i th dto r hth hcall hproc hid hnot => ?_, fun d cfg' hd happroved h' => ?_⟩
    · obtain ⟨hversion, hdecided⟩ := List.mem_filter.mp hx
      exact decisions_own hdoc hstores h x hversion hdecided
    · have hmine := hdone i th hth
      rw [hproc, hcall, Proc.wp_done] at hmine
      obtain ⟨d', heq, hid, hmem⟩ := hmine
      cases heq
      exact mem_versions hid hannounced hmem
    · have hmine := hdone i th hth
      rw [hproc, hcall, Proc.wp_done] at hmine
      have hstored : x.2 ∈ cfg.state.storesOf i :=
        List.mem_map.mpr ⟨x, List.mem_filter.mpr ⟨List.mem_of_mem_filter hx, decide_eq_true hxi⟩, rfl⟩
      rw [show cfg.state.storesOf i = [] from hmine] at hstored
      cases hstored
    · have hmine := hdone i th hth
      rw [hproc, hcall, Proc.wp_done] at hmine
      obtain ⟨result, heq, hall⟩ := hmine
      cases heq
      obtain ⟨d, hmem, hdid⟩ := hall id hid hnot
      exact ⟨d, mem_versions hdid hannounced hmem⟩
    · have hordered' := (hturns (h.trans h')).1.1
      obtain ⟨more, hmore⟩ : ∃ more, cfg'.state.versions id = cfg.state.versions id ++ more :=
        versions_grow h'
      have hhistory : (d₀ :: (cfg.state.versions id ++ more).map Prod.snd).IsChain Follows := by
        rw [← hmore]
        exact hordered'.history
      have hstored : cfg.state.document id =
          (d₀ :: (cfg.state.versions id).map Prod.snd).getLast? := hordered.stored
      have hlast := hstored.symm.trans hd
      have hnone := final_of_history hlast happroved hhistory
      rw [hnone, List.append_nil] at hmore
      have hstored' : cfg'.state.document id =
          (d₀ :: (cfg'.state.versions id).map Prod.snd).getLast? := hordered'.stored
      rw [hstored', hmore, hlast]
  · show (db.storesOf i, db.announcedBy i) = ([], [])
    rw [KycDb.storesOf, KycDb.announcedBy, hstores, hreviewed]
    rfl

end Runs

/-- One document, submitted and not reviewed. -/
def oneDocument : KycDb := ⟨[⟨firstDocument, none⟩], by decide, 0, [], []⟩

/-- What `inTurn` asks, where every other call has ended or is at a lookup. -/
def inTurnStep (id : ℕ) (cfg : KycConfig) (th : KycThread) (c : KycCmd) (_ : Bool) : Bool :=
  !c.opens id || cfg.threads.all fun thj =>
    decide (thj.id = th.id) || thj.proc.waitsOn.all (KycCmd.opens id)

theorem inTurn_of_step {id : ℕ} {cfg : KycConfig} {th : KycThread} {c : KycCmd} {b : Bool}
    (h : inTurnStep id cfg th c b = true) : (inTurn id).onStep cfg th c b := by
  intro hopens j thj hthj hj
  rw [inTurnStep, hopens, Bool.not_true, Bool.false_or] at h
  have hhere := List.all_eq_true.mp h thj (Table.mem_of_get _ hthj)
  rw [Bool.or_eq_true, decide_eq_true_eq] at hhere
  refine Proc.aside_of_waitsOn (hhere.resolve_left fun hid => hj ?_)
    (documentTurn_commands localService id firstDocument).lookup
  rw [← hid]
  exact (Config.id_of_thread hthj).symm

/-- A rejection, the appeal against it and an approval; the second reviewer
looks the document up when the appeal is stored. -/
def appealed : List (Event KycCall KycErr) :=
  [.call 0 (.review 1 (rejection 3)), .call 2 (.review 1 (approval 4))] ++ fourSteps 0 ++
    [.call 1 (.appeal 1 "clearer scan"), .step 1 none, .step 1 none] ++ fourSteps 2

theorem review_decides_once_appealed : ∃ cfg,
    Reach (server localService) (inTurn 1) ⟨oneDocument, []⟩ cfg ∧
    (cfg.state.versions 1).map (fun x => x.2.status) = [.rejected, .appealed, .approved] ∧
    DecidedOnce localService 1 firstDocument cfg := by
  have hrun : ((server localService).runChecked (inTurnStep 1) ⟨oneDocument, []⟩ appealed).map
      (fun cfg => (cfg.state.versions 1).map fun x => x.2.status) =
      some [.rejected, .appealed, .approved] := by decide +kernel
  obtain ⟨cfg, hcfg, hversions⟩ := Option.map_eq_some_iff.mp hrun
  have h : Reach (server localService) (inTurn 1) ⟨oneDocument, []⟩ cfg :=
    Reach.refl.of_runChecked (fun _ _ _ _ => trivial) (fun _ _ _ _ => inTurn_of_step) hcfg
  exact ⟨cfg, h, hversions, review_decides_once rfl rfl rfl h⟩

/-- Two reviewers load the pending document; one approves it. -/
def approving : List (Event KycCall KycErr) :=
  [.call 0 (.review 1 (approval 3)), .call 1 (.review 1 (rejection 4)), .step 0 none,
    .step 1 none, .step 0 none, .step 0 none, .step 0 none]

/-- The other one goes on and rejects it. -/
def rejecting : List (Event KycCall KycErr) := [.step 1 none, .step 1 none, .step 1 none]

/-- Both reviews return, both are announced, and an approved document is rejected. -/
theorem decided_twice : ∃ cfg cfg' th th' d d',
    Reach (server localService) .free ⟨oneDocument, []⟩ cfg ∧
    cfg.state.document 1 = some d ∧ d.status = .approved ∧ d.reviewedBy = some 3 ∧
    Reach (server localService) .free cfg cfg' ∧
    cfg'.thread 0 = some th ∧ th.proc.returned = some (.document d) ∧
    cfg'.thread 1 = some th' ∧ th'.proc.returned = some (.document d') ∧
    cfg'.state.document 1 = some d' ∧ d'.status = .rejected ∧ d'.reviewedBy = some 4 ∧
    cfg'.state.announced 1 = [(0, d), (1, d')] := by
  have hrun : ((((server localService).play ((server localService).play ⟨oneDocument, []⟩ approving)
      rejecting).thread 0).bind fun th => th.proc.returned) =
        some (.document { firstDocument with
          status := .approved, reviewedBy := some 3, reviewedAt := some 0 }) := by decide +kernel
  have hrun' : ((((server localService).play ((server localService).play ⟨oneDocument, []⟩ approving)
      rejecting).thread 1).bind fun th => th.proc.returned) =
        some (.document { firstDocument with
          status := .rejected, reviewedBy := some 4, reviewedAt := some 0 }) := by decide +kernel
  obtain ⟨th, hth, hreturned⟩ := Option.bind_eq_some_iff.mp hrun
  obtain ⟨th', hth', hreturned'⟩ := Option.bind_eq_some_iff.mp hrun'
  refine ⟨_, _, th, th', _, _, Reach.refl.play approving, ?_, rfl, rfl, Reach.refl.play rejecting,
    hth, hreturned, hth', hreturned', ?_, rfl, rfl, ?_⟩ <;> decide +kernel

end Kyc

end NexaFx
