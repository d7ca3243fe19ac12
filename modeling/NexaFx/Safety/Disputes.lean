import NexaFx.Lib.Finality
import NexaFx.Model.Disputes

/-!
# NexaFx — closed disputes

All calls on disputes, interleaved at every await. A call loads a row, and saves
all of it later; `escalate`, `resolveDispute` and the nightly job leave a row
alone that they find closed, `resolve` and `reject` do not look.

When a dispute is closed only while no other call that has loaded it still has
its save in front of it, and no `resolve` or `reject` finds it closed, then it
stays as it was closed (`closed_disputes_stay`). A save of a row that was loaded
before reopens a dispute, or closes it another time (`dispute_reopened`).
-/

namespace NexaFx

open Async

namespace Disputes

-- ---------------------------------------------------------------------------
-- The property
-- ---------------------------------------------------------------------------

/-- A row of one of the two kinds. -/
inductive Ref where
  | dispute (id : ℕ)
  | entity (id : ℕ)
  deriving DecidableEq

/-- How a row was closed. -/
inductive Outcome where
  | dispute (status : DisputeStatus) (resolution : Option String) (resolvedAt : Option ℕ)
  | entity (status : EntityStatus) (resolvedAt : Option ℕ)
  deriving DecidableEq

def Dispute.outcome (d : Dispute) : Option Outcome :=
  if d.status.closed then some (.dispute d.status d.resolution d.resolvedAt) else none

def DisputeEntity.outcome (e : DisputeEntity) : Option Outcome :=
  if e.status.closed then some (.entity e.status e.resolvedAt) else none

/-- How the row is closed, if it is. -/
def outcome : Ref → DisputesDb → Option Outcome
  | .dispute id, db => (db.dispute id).bind Dispute.outcome
  | .entity id, db => (db.entity id).bind DisputeEntity.outcome

def DisputeCmd.writes (ref : Ref) : DisputeCmd → Bool
  | .saveDispute d => decide (ref = .dispute d.id)
  | .saveEntity e => decide (ref = .entity e.id)
  | _ => false

/-- The command looks rows of this kind up. -/
def DisputeCmd.reads : Ref → DisputeCmd → Bool
  | .dispute _, .findDispute _ | .dispute _, .findStale _ => true
  | .entity _, .findEntity _ | .entity _, .findEntityOf _ _ => true
  | _, _ => false

/-- The save stores the row as closed. -/
def DisputeCmd.closes (ref : Ref) : DisputeCmd → Bool
  | .saveDispute d => decide (ref = .dispute d.id) && d.status.closed
  | .saveEntity e => decide (ref = .entity e.id) && e.status.closed
  | _ => false

/-- The call closes the row without looking at its status. -/
def DisputeCall.unchecked (ref : Ref) : DisputeCall → Bool
  | .resolve id | .reject id => decide (ref = .entity id)
  | _ => false

/-- The row is closed only while no other call that has loaded rows of its kind
has a save of it in front of it, and no `resolve` or `reject` finds it closed. -/
def orderly (ref : Ref) :
    Discipline DisputeCall DisputeCmd DisputeCmd.Reply DisputeErr DisputesDb Unit where
  onCall _ _ _ := True
  onStep cfg th c _ :=
    (c.closes ref = true → ∀ j thj, cfg.thread j = some thj → j ≠ th.id →
      thj.proc.Clear (DisputeCmd.writes ref) (DisputeCmd.reads ref)) ∧
    (th.call.unchecked ref = true → c.reads ref = true → outcome ref cfg.state = none)

-- ---------------------------------------------------------------------------
-- The commands
-- ---------------------------------------------------------------------------

/-- The row, once it is closed. -/
def closedRow (ref : Ref) : Finality DisputeCall DisputeCmd DisputesDb Outcome where
  value := outcome ref
  writes := DisputeCmd.writes ref
  reads := DisputeCmd.reads ref
  allows k c db := k.unchecked ref = true → c.reads ref = true → outcome ref db = none

/-- What a lookup answers. -/
def Answers : (c : DisputeCmd) → c.Reply → Prop
  | .findStale _, stale => (stale.map Dispute.id).Nodup
  | _, _ => True

section Commands

variable {ref : Ref} {db db' : DisputesDb}

theorem exec_answers {c : DisputeCmd} {a : c.Reply} (h : exec c db = .ok (a, db')) :
    Answers c a := by
  cases c with
  | findStale cutoff =>
    cases h
    exact Table.nodup_filter Dispute.id db.keyed _
  | _ => trivial

/-- A row that is not saved is closed as before; a new row is not closed. -/
theorem outcome_quiet {c : DisputeCmd} {a : c.Reply} (hc : c.writes ref = false)
    (h : exec c db = .ok (a, db')) : outcome ref db' = outcome ref db := by
  cases c with
  | insertDispute dto =>
    cases h
    cases ref with
    | entity id => rfl
    | dispute id => exact Table.get_concat_bind Dispute.id (Table.freshKey_notMem _) rfl id
  | insertEntity userId dto =>
    cases h
    cases ref with
    | dispute id => rfl
    | entity id => exact Table.get_concat_bind DisputeEntity.id (Table.freshKey_notMem _) rfl id
  | saveDispute d =>
    cases h
    cases ref with
    | entity id => rfl
    | dispute id =>
      have hid : d.id ≠ id := fun h => of_decide_eq_false hc (congrArg Ref.dispute h.symm)
      exact congrArg (Option.bind · Dispute.outcome) (Table.get_put_ne Dispute.id hid)
  | saveEntity e =>
    cases h
    cases ref with
    | dispute id => rfl
    | entity id =>
      have hid : e.id ≠ id := fun h => of_decide_eq_false hc (congrArg Ref.entity h.symm)
      exact congrArg (Option.bind · DisputeEntity.outcome) (Table.get_put_ne DisputeEntity.id hid)
  | _ =>
    cases h
    cases ref <;> rfl

end Commands

-- ---------------------------------------------------------------------------
-- The calls, await by await
-- ---------------------------------------------------------------------------

section Programs

variable {ref : Ref} {k : DisputeCall}

/-- Neither a save of the row nor a lookup. -/
theorem stops_aside {c : DisputeCmd} {next : Except DisputeErr c.Reply → DisputeProc Unit}
    (hwrites : c.writes ref = false) (hreads : c.reads ref = false) :
    (closedRow ref).Stops exec k c next where
  written h := by
    have hw : c.writes ref = true := h
    rw [hwrites] at hw
    cases hw
  found h := by
    have hr : c.reads ref = true := h
    rw [hreads] at hr
    cases hr
  failed h := by
    have hr : c.reads ref = true := h
    rw [hreads] at hr
    cases hr

/-- A save after which the call leaves the row alone. -/
theorem stops_save {c : DisputeCmd} {next : Except DisputeErr c.Reply → DisputeProc Unit}
    (hreads : c.reads ref = false) (hnext : c.writes ref = true →
      ∀ r, (next r).Clear (DisputeCmd.writes ref) (DisputeCmd.reads ref)) :
    (closedRow ref).Stops exec k c next where
  written := hnext
  found h := by
    have hr : c.reads ref = true := h
    rw [hreads] at hr
    cases hr
  failed h := by
    have hr : c.reads ref = true := h
    rw [hreads] at hr
    cases hr

/-- A lookup that finds the row closed, after which the call leaves it alone. -/
theorem stops_lookup {c : DisputeCmd} {next : c.Reply → DisputeProc Unit}
    (hwrites : c.writes ref = false)
    (hfound : ∀ db a db', (outcome ref db).isSome = true →
      (k.unchecked ref = true → c.reads ref = true → outcome ref db = none) →
      exec c db = .ok (a, db') →
      (next a).Clear (DisputeCmd.writes ref) (DisputeCmd.reads ref)) :
    (closedRow ref).Stops exec k c fun r => (Proc.done r).bind next where
  written h := by
    have hw : c.writes ref = true := h
    rw [hwrites] at hw
    cases hw
  found _ db a db' := hfound db a db'
  failed _ _ := trivial

theorem closeEach_clear {stale : List Dispute} (h : ∀ d ∈ stale, ref ≠ .dispute d.id) :
    (closeEach stale).Clear (DisputeCmd.writes ref) (DisputeCmd.reads ref) := by
  induction stale with
  | nil => trivial
  | cons d stale ih =>
    rw [closeEach]
    refine Proc.clear_call_bind rfl fun now => ?_
    refine Proc.clear_call_bind ?_ fun _ => ih fun d' hd' => h d' (List.mem_cons_of_mem _ hd')
    exact decide_eq_false (h d List.mem_cons_self)

theorem closeEach_stops {stale : List Dispute} (h : (stale.map Dispute.id).Nodup) :
    (closeEach stale).Always Answers fun c next => (closedRow ref).Stops exec k c next := by
  induction stale with
  | nil => exact .done _
  | cons d stale ih =>
    rw [List.map_cons, List.nodup_cons] at h
    rw [closeEach]
    refine Proc.always_call_bind (stops_aside rfl (by cases ref <;> rfl)) fun now _ => ?_
    refine Proc.always_call_bind (stops_save (by cases ref <;> rfl) fun hw r => ?_)
      fun _ _ => ih h.2
    cases r with
    | error e => trivial
    | ok _ =>
      -- the others in the list are other rows
      refine closeEach_clear fun d' hd' hsame => h.1 ?_
      have hid : ref = .dispute d.id := of_decide_eq_true hw
      rw [hid] at hsame
      exact List.mem_map.mpr ⟨d', hd', (Ref.dispute.inj hsame).symm⟩

theorem autoClose_stops : autoCloseStaleDisputes.Always Answers
    fun c next => (closedRow ref).Stops exec k c next := by
  unfold autoCloseStaleDisputes
  refine Proc.always_call_bind (stops_aside rfl (by cases ref <;> rfl)) fun now _ => ?_
  refine Proc.always_call_bind (stops_lookup rfl fun db a db' hclosed _ hexec => ?_)
    fun stale hnodup => closeEach_stops hnodup
  cases hexec
  refine closeEach_clear fun d hd hsame => ?_
  rw [hsame] at hclosed
  -- what the job finds is not closed
  obtain ⟨hmem, hstale⟩ := List.mem_filter.mp hd
  have hrow : db.dispute d.id = some d := Table.get_of_mem Dispute.id db.keyed hmem
  simp only [Bool.and_eq_true, Bool.not_eq_true'] at hstale
  simp [outcome, hrow, Dispute.outcome, hstale.1] at hclosed

/-- A row that is found closed, or that is another one. -/
theorem dispute_found {db : DisputesDb} {id : ℕ} {d : Dispute} (hfound : db.dispute id = some d)
    (hclosed : (outcome ref db).isSome = true) (hopen : ¬ d.status.closed = true) :
    ref ≠ .dispute d.id := by
  have hid : d.id = id := Table.key_of_get Dispute.id hfound
  rintro rfl
  rw [hid] at hclosed
  simp [outcome, hfound, Dispute.outcome, hopen] at hclosed

theorem entity_found {db : DisputesDb} {id : ℕ} {e : DisputeEntity} (hfound : db.entity id = some e)
    (hclosed : (outcome ref db).isSome = true) (hopen : ¬ e.status.closed = true) :
    ref ≠ .entity e.id := by
  have hid : e.id = id := Table.key_of_get DisputeEntity.id hfound
  rintro rfl
  rw [hid] at hclosed
  simp [outcome, hfound, DisputeEntity.outcome, hopen] at hclosed

theorem resolveDispute_stops (id : ℕ) (dto : ResolveDisputeDto) :
    (prog (.resolveDispute id dto)).Always Answers fun c next =>
      (closedRow ref).Stops exec (.resolveDispute id dto) c next := by
  unfold prog resolveDispute findDisputeById
  simp only [Proc.bind_eq, Proc.bind_assoc]
  refine Proc.always_call_bind (stops_lookup rfl fun db a db' hclosed _ hexec => ?_)
    fun found _ => ?_
  · obtain ⟨rfl, rfl⟩ : db.dispute id = a ∧ db = db' := by
      cases hexec
      exact ⟨rfl, rfl⟩
    cases hfound : db.dispute id with
    | none => trivial
    | some d =>
      refine Proc.clear_rejectWhen_bind fun hopen => ?_
      have hother := dispute_found hfound hclosed hopen
      exact Proc.clear_call_bind rfl fun now =>
        Proc.clear_call_bind (decide_eq_false hother) fun _ => trivial
  · cases found with
    | none => exact .done _
    | some d =>
      refine Proc.always_rejectWhen_bind fun _ => ?_
      refine Proc.always_call_bind (stops_aside rfl (by cases ref <;> rfl)) fun now _ => ?_
      refine Proc.always_call_bind (stops_save (by cases ref <;> rfl) fun _ r => ?_)
        fun _ _ => .done _
      cases r <;> trivial

theorem escalate_stops (id : ℕ) (userId : UserId) (assignTo : Option UserId) :
    (prog (.escalate id userId assignTo)).Always Answers fun c next =>
      (closedRow ref).Stops exec (.escalate id userId assignTo) c next := by
  unfold prog escalate
  simp only [Proc.bind_eq, Proc.bind_assoc]
  refine Proc.always_call_bind (stops_lookup rfl fun db a db' hclosed _ hexec => ?_)
    fun found _ => ?_
  · obtain ⟨rfl, rfl⟩ :
        (db.entity id).filter (fun e => decide (e.userId = userId)) = a ∧ db = db' := by
      cases hexec
      exact ⟨rfl, rfl⟩
    cases hfound : (db.entity id).filter fun e => decide (e.userId = userId) with
    | none => trivial
    | some e =>
      rw [Proc.bind_assoc]
      refine Proc.clear_rejectWhen_bind fun hopen => ?_
      have hother := entity_found (Option.filter_eq_some_iff.mp hfound).1 hclosed hopen
      rw [Proc.bind_assoc]
      refine Proc.clear_call_bind (decide_eq_false hother) fun _ => ?_
      rw [Proc.bind_assoc]
      exact Proc.clear_call_bind rfl fun _ => trivial
  · cases found with
    | none => exact .done _
    | some e =>
      rw [Proc.bind_assoc]
      refine Proc.always_rejectWhen_bind fun _ => ?_
      rw [Proc.bind_assoc]
      refine Proc.always_call_bind (stops_save (by cases ref <;> rfl) fun _ r => ?_)
        fun updated _ => ?_
      · cases r with
        | error e => trivial
        | ok updated =>
          show Proc.Clear _ _ (Proc.bind (Proc.bind _ _) _)
          rw [Proc.bind_assoc]
          exact Proc.clear_call_bind rfl fun _ => trivial
      · rw [Proc.bind_assoc]
        exact Proc.always_call_bind (stops_aside rfl (by cases ref <;> rfl)) fun _ _ => .done _

/-- `resolve` and `reject` do not look, so the row that they find is not closed
by what is asked of the run. -/
theorem close_stops (status : EntityStatus) (id : ℕ)
    (hunchecked : k.unchecked (.entity id) = true) :
    ((close status id).bind fun _ => Proc.done (.ok ())).Always Answers fun c next =>
      (closedRow ref).Stops exec k c next := by
  unfold close
  simp only [Proc.bind_eq, Proc.bind_assoc]
  refine Proc.always_call_bind (stops_lookup rfl fun db a db' hclosed hallows hexec => ?_)
    fun found _ => ?_
  · obtain ⟨rfl, rfl⟩ : db.entity id = a ∧ db = db' := by
      cases hexec
      exact ⟨rfl, rfl⟩
    cases hfound : db.entity id with
    | none => trivial
    | some e =>
      have hother : ref ≠ .entity e.id := by
        rw [Table.key_of_get DisputeEntity.id hfound]
        rintro rfl
        rw [hallows hunchecked rfl] at hclosed
        cases hclosed
      rw [Proc.bind_assoc]
      exact Proc.clear_call_bind rfl fun now =>
        Proc.clear_call_bind (decide_eq_false hother) fun _ => trivial
  · cases found with
    | none => exact .done _
    | some e =>
      rw [Proc.bind_assoc]
      refine Proc.always_call_bind (stops_aside rfl (by cases ref <;> rfl)) fun now _ => ?_
      refine Proc.always_call_bind (stops_save (by cases ref <;> rfl) fun _ r => ?_)
        fun _ _ => .done _
      cases r <;> trivial

theorem close_clear (ref : Ref) (status : EntityStatus) (id : ℕ) :
    ((close status id).bind fun _ => Proc.done (.ok ())).Clear (DisputeCmd.writes ref)
      (DisputeCmd.reads ref) := by
  unfold close
  simp only [Proc.bind_eq, Proc.bind_assoc]
  cases ref with
  | entity _ => exact Proc.clear_read_bind rfl rfl
  | dispute _ =>
    refine Proc.clear_call_bind rfl fun found => ?_
    cases found with
    | none => trivial
    | some e =>
      rw [Proc.bind_assoc]
      exact Proc.clear_call_bind rfl fun _ => Proc.clear_call_bind rfl fun _ => trivial

/-- A new call looks the row up before it saves it. -/
theorem prog_clear (ref : Ref) (k : DisputeCall) :
    (prog k).Clear (DisputeCmd.writes ref) (DisputeCmd.reads ref) := by
  cases k with
  | fileDispute userId dto =>
    unfold prog fileDispute
    simp only [Proc.bind_eq, Proc.bind_assoc]
    exact Proc.clear_call_bind rfl fun _ => Proc.clear_call_bind rfl fun _ => trivial
  | escalate id userId assignTo =>
    unfold prog escalate
    simp only [Proc.bind_eq, Proc.bind_assoc]
    cases ref with
    | entity _ => exact Proc.clear_read_bind rfl rfl
    | dispute _ =>
      refine Proc.clear_call_bind rfl fun found => ?_
      cases found with
      | none => trivial
      | some e =>
        rw [Proc.bind_assoc]
        refine Proc.clear_rejectWhen_bind fun _ => ?_
        rw [Proc.bind_assoc]
        refine Proc.clear_call_bind rfl fun _ => ?_
        rw [Proc.bind_assoc]
        exact Proc.clear_call_bind rfl fun _ => trivial
  | resolve id => exact close_clear ref .resolved id
  | reject id => exact close_clear ref .rejected id
  | openDispute dto =>
    unfold prog openDispute
    simp only [Proc.bind_eq, Proc.bind_assoc]
    refine Proc.clear_call_bind rfl fun found => ?_
    cases found with
    | none => trivial
    | some status =>
      rw [Proc.bind_assoc]
      refine Proc.clear_rejectWhen_bind fun _ => ?_
      exact Proc.clear_call_bind rfl fun _ => trivial
  | resolveDispute id dto =>
    unfold prog resolveDispute findDisputeById
    simp only [Proc.bind_eq, Proc.bind_assoc]
    cases ref with
    | dispute _ => exact Proc.clear_read_bind rfl rfl
    | entity _ =>
      refine Proc.clear_call_bind rfl fun found => ?_
      cases found with
      | none => trivial
      | some d =>
        exact Proc.clear_rejectWhen_bind fun _ => Proc.clear_call_bind rfl fun _ =>
          Proc.clear_call_bind rfl fun _ => trivial
  | autoCloseStaleDisputes =>
    refine Proc.clear_call_bind rfl fun now => ?_
    cases ref with
    | dispute _ => exact Proc.clear_read_bind rfl rfl
    | entity _ =>
      exact Proc.clear_call_bind rfl fun stale => closeEach_clear fun d _ h => by cases h
  | tick ms => exact ⟨rfl, fun _ _ => trivial⟩

theorem prog_stops (ref : Ref) (k : DisputeCall) :
    (prog k).Always Answers fun c next => (closedRow ref).Stops exec k c next := by
  cases k with
  | fileDispute userId dto =>
    unfold prog fileDispute
    simp only [Proc.bind_eq, Proc.bind_assoc]
    refine Proc.always_call_bind (stops_aside rfl (by cases ref <;> rfl)) fun saved _ => ?_
    exact Proc.always_call_bind (stops_aside rfl (by cases ref <;> rfl)) fun _ _ => .done _
  | escalate id userId assignTo => exact escalate_stops id userId assignTo
  | resolve id => exact close_stops .resolved id (decide_eq_true rfl)
  | reject id => exact close_stops .rejected id (decide_eq_true rfl)
  | openDispute dto =>
    unfold prog openDispute
    simp only [Proc.bind_eq, Proc.bind_assoc]
    refine Proc.always_call_bind (stops_aside rfl (by cases ref <;> rfl)) fun found _ => ?_
    cases found with
    | none => exact .done _
    | some status =>
      rw [Proc.bind_assoc]
      refine Proc.always_rejectWhen_bind fun _ => ?_
      exact Proc.always_call_bind (stops_aside rfl (by cases ref <;> rfl)) fun _ _ => .done _
  | resolveDispute id dto => exact resolveDispute_stops id dto
  | autoCloseStaleDisputes => exact autoClose_stops
  | tick ms =>
    unfold prog
    refine .await ?_ (fun _ _ => .done _) fun _ => .done _
    exact stops_aside rfl (by cases ref <;> rfl)

end Programs

-- ---------------------------------------------------------------------------
-- Closed disputes
-- ---------------------------------------------------------------------------

theorem closes_of_closed {ref : Ref} {c : DisputeCmd} {a : c.Reply} {db db' : DisputesDb}
    (hwrites : c.writes ref = true) (hexec : exec c db = .ok (a, db'))
    (hclosed : (outcome ref db').isSome = true) : c.closes ref = true := by
  cases c with
  | saveDispute d =>
    cases hexec
    obtain rfl : ref = .dispute d.id := of_decide_eq_true hwrites
    have hrow : (db.saveDispute d).dispute d.id = some d := Table.get_put_self Dispute.id d _
    simp only [outcome, hrow, Option.bind_some, Dispute.outcome] at hclosed
    split at hclosed
    · simpa [DisputeCmd.closes] using by assumption
    · cases hclosed
  | saveEntity e =>
    cases hexec
    obtain rfl : ref = .entity e.id := of_decide_eq_true hwrites
    have hrow : Table.get DisputeEntity.id (Table.put DisputeEntity.id e db.entities) e.id =
        some e := Table.get_put_self DisputeEntity.id e _
    simp only [outcome, DisputesDb.entity, hrow, Option.bind_some, DisputeEntity.outcome] at hclosed
    split at hclosed
    · simpa [DisputeCmd.closes] using by assumption
    · cases hclosed
  | _ => cases hwrites

theorem closedRow_lasting (ref : Ref) :
    Lasting server (orderly ref) (closedRow ref) Answers where
  prog _ k := prog_stops ref k
  fresh _ k := prog_clear ref k
  replied _ _ _ _ h := exec_answers h
  quiet _ _ _ _ hc h := outcome_quiet hc h
  allows _ _ _ _ hD := hD.2
  alone _ _ _ _ _ hD hwrites hexec hclosed := hD.1 (closes_of_closed hwrites hexec hclosed)

/-- **Closed disputes stay closed.** -/
theorem closed_disputes_stay {db : DisputesDb} {ref : Ref} {cfg cfg' : DisputesConfig} {o : Outcome}
    (h : Reach server (orderly ref) ⟨db, []⟩ cfg) (hclosed : outcome ref cfg.state = some o)
    (h' : Reach server (orderly ref) cfg cfg') : outcome ref cfg'.state = some o := by
  have hstays : outcome ref cfg'.state = outcome ref cfg.state :=
    h.final (closedRow_lasting ref) rfl h' (by
      show (outcome ref cfg.state).isSome = true
      rw [hclosed]
      rfl)
  rw [hstays, hclosed]

/-- One dispute of each kind, opened more than thirty days ago. -/
def twoDisputes : DisputesDb where
  transactions := [(1, .completed)]
  disputes := [⟨1, 1, 7, "not received", .opened, none, 0, none⟩]
  entities := [⟨1, 7, 1, "not received", none, .opened, none, 1, none⟩]
  messages := []
  now := 2600000000
  keyed := List.nodup_singleton 1

def refund : ResolveDisputeDto := ⟨.resolved, "refunded", rfl⟩

def refusal : ResolveDisputeDto := ⟨.rejected, "no evidence", rfl⟩

/-- What `orderly` asks, where every other call has ended or is at a lookup. -/
def orderlyStep (ref : Ref) (cfg : DisputesConfig)
    (th : Thread DisputeCall DisputeCmd DisputeCmd.Reply DisputeErr Unit) (c : DisputeCmd)
    (_ : Bool) : Bool :=
  (!c.closes ref || cfg.threads.all fun thj =>
    decide (thj.id = th.id) || thj.proc.waitsOn.all (DisputeCmd.reads ref)) &&
  (!th.call.unchecked ref || (outcome ref cfg.state).isNone)

theorem orderly_of_step {ref : Ref} {cfg : DisputesConfig}
    {th : Thread DisputeCall DisputeCmd DisputeCmd.Reply DisputeErr Unit} {c : DisputeCmd} {b : Bool}
    (h : orderlyStep ref cfg th c b = true) : (orderly ref).onStep cfg th c b := by
  simp only [orderlyStep, Bool.and_eq_true, Bool.or_eq_true, Bool.not_eq_true'] at h
  constructor
  · intro hcloses j thj hthj hj
    have hall := h.1.resolve_left (by simp [hcloses])
    have hhere := List.all_eq_true.mp hall thj (Table.mem_of_get _ hthj)
    rw [Bool.or_eq_true, decide_eq_true_eq] at hhere
    refine Proc.clear_of_waitsOn (hhere.resolve_left fun hid => hj ?_) fun c hc => ?_
    · rw [← hid]
      exact (Config.id_of_thread hthj).symm
    · cases ref <;> cases c <;> first | rfl | cases hc
  · intro hunchecked _
    have hnone := h.2.resolve_left (by simp [hunchecked])
    exact Option.isNone_iff_eq_none.mp hnone

/-- Two admins decide; the second loads the dispute after the first has closed it. -/
def closing : List (Event DisputeCall DisputeErr) :=
  [.call 0 (.resolveDispute 1 refund), .call 1 (.resolveDispute 1 refusal), .step 0 none,
    .step 0 none, .step 0 none]

theorem closed_disputes_stay_two : ∃ cfg cfg' o,
    Reach server (orderly (.dispute 1)) ⟨twoDisputes, []⟩ cfg ∧
    outcome (.dispute 1) cfg.state = some o ∧ Reach server (orderly (.dispute 1)) cfg cfg' ∧
    outcome (.dispute 1) cfg'.state = some o := by
  have hrun : (server.runChecked (orderlyStep (.dispute 1)) ⟨twoDisputes, []⟩ closing).bind
      (fun cfg => (server.runChecked (orderlyStep (.dispute 1)) cfg [.step 1 none]).map
        fun _ => outcome (.dispute 1) cfg.state) =
      some (some (.dispute .resolved (some "refunded") (some 2600000000))) := by decide +kernel
  obtain ⟨cfg, hcfg, hlater⟩ := Option.bind_eq_some_iff.mp hrun
  obtain ⟨cfg', hcfg', hclosed⟩ := Option.map_eq_some_iff.mp hlater
  have h : Reach server (orderly (.dispute 1)) ⟨twoDisputes, []⟩ cfg :=
    Reach.refl.of_runChecked (fun _ _ _ _ => trivial) (fun _ _ _ _ => orderly_of_step) hcfg
  have h' : Reach server (orderly (.dispute 1)) cfg cfg' :=
    Reach.refl.of_runChecked (fun _ _ _ _ => trivial) (fun _ _ _ _ => orderly_of_step) hcfg'
  exact ⟨cfg, cfg', _, h, hclosed, h', closed_disputes_stay h hclosed h'⟩

/-- An admin resolves a filed dispute. -/
def resolving : List (Event DisputeCall DisputeErr) :=
  [.call 0 (.resolve 1), .step 0 none, .step 0 none, .step 0 none]

/-- Later it is rejected. -/
def rejecting : List (Event DisputeCall DisputeErr) :=
  [.call 1 (.reject 1), .step 1 none, .step 1 none, .step 1 none]

/-- The nightly job has found the dispute when an admin rejects it. -/
def closingMeanwhile : List (Event DisputeCall DisputeErr) :=
  [.call 0 .autoCloseStaleDisputes, .step 0 none, .step 0 none,
    .call 1 (.resolveDispute 1 refusal), .step 1 none, .step 1 none, .step 1 none]

/-- A resolved dispute becomes a rejected one; and a rejected one is auto-closed. -/
theorem dispute_reopened :
    (∃ cfg cfg' o o', Reach server .free ⟨twoDisputes, []⟩ cfg ∧
      outcome (.entity 1) cfg.state = some o ∧ Reach server .free cfg cfg' ∧
      outcome (.entity 1) cfg'.state = some o' ∧ o ≠ o') ∧
    ∃ cfg cfg' o o', Reach server .free ⟨twoDisputes, []⟩ cfg ∧
      outcome (.dispute 1) cfg.state = some o ∧ Reach server .free cfg cfg' ∧
      outcome (.dispute 1) cfg'.state = some o' ∧ o ≠ o' := by
  constructor
  · refine ⟨server.play ⟨twoDisputes, []⟩ resolving, _, .entity .resolved (some 2600000000),
      .entity .rejected (some 2600000000), Reach.refl.play _, ?_, Reach.refl.play rejecting, ?_,
      by decide⟩ <;> decide +kernel
  · refine ⟨server.play ⟨twoDisputes, []⟩ closingMeanwhile, _,
      .dispute .rejected (some "no evidence") (some 2600000000),
      .dispute .resolved (some "Auto-closed after 30 days") (some 2600000000), Reach.refl.play _, ?_,
      Reach.refl.play [.step 0 none, .step 0 none], ?_, by decide⟩ <;> decide +kernel

end Disputes

end NexaFx
