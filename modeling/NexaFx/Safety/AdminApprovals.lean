import NexaFx.Lib.Turns
import NexaFx.Model.AdminApprovals

/-!
# NexaFx — four eyes

Requests and approvals, interleaved at every await. An approval stores the
request as APPROVED first and executes its action then; nothing takes the status
back when the action fails, and the PENDING status is looked at without a lock.

When an approval looks its request up only while no other call is between that
and the end of its work, the type of the action is known and nothing fails after
the status is stored, a request is APPROVED exactly when its action has been
executed, once and by another admin (`four_eyes`). `approved_not_executed` and
`executed_twice` are what happens otherwise.
-/

namespace NexaFx

open Async

namespace Admin

-- ---------------------------------------------------------------------------
-- The property
-- ---------------------------------------------------------------------------

/-- What an event executes for the request. -/
def AdminEvent.execution (id : ℕ) : AdminEvent → Option Execution
  | .approved _ => none
  | .executed execution => if execution.origin.approvalId = id then some execution else none

/-- What has been executed for the request. -/
def AdminDb.executions (db : AdminDb) (id : ℕ) : List Execution :=
  db.log.filterMap (AdminEvent.execution id)

/-- What the request asks for, where its type is known. -/
def AdminApproval.action (approval : AdminApproval) : Option Action :=
  if approval.actionType = "override_transaction_status" then
    some (.overrideTransactionStatus approval.actionData.transactionId
      approval.actionData.newStatus approval.actionData.reason)
  else if approval.actionType = "update_user_status" then
    some (.updateUserStatus approval.actionData.targetUserId approval.actionData.isActive
      approval.actionData.reason)
  else none

/-- The command looks the request up. -/
def AdminCmd.opens (id : ℕ) : AdminCmd → Bool
  | .findApproval id' => decide (id' = id)
  | _ => false

/-- The command stores the request, or works on the target of its action. -/
def AdminCmd.touches (id : ℕ) : AdminCmd → Bool
  | .saveApproval _ approval => decide (approval.id = id)
  | .findTransaction origin _ | .findUser origin _ => decide (origin.approvalId = id)
  | .saveTransaction _ execution | .saveUser _ execution =>
    decide (execution.origin.approvalId = id)
  | _ => false

/-- What comes after the request is stored. -/
def AdminCmd.executes : AdminCmd → Bool
  | .findTransaction .. | .saveTransaction .. | .findUser .. | .saveUser .. | .audit _ => true
  | _ => false

/-- The target is there. -/
def AdminCmd.Finds : AdminCmd → AdminDb → Prop
  | .findTransaction _ id, db => (db.transaction id).isSome = true
  | .findUser _ id, db => (db.user id).isSome = true
  | _, _ => True

/-- The type of an approved request is known. -/
def AdminCmd.Known : AdminCmd → Prop
  | .saveApproval _ approval => approval.action.isSome = true
  | _ => True

/-- What a command is answered with. -/
def Answers : (c : AdminCmd) → c.Reply → Prop
  | .findApproval id, found => ∀ approval ∈ found, approval.id = id
  | .saveApproval _ approval, saved => saved = approval
  | _, _ => True

/-- No other call works on the request. -/
def Alone (cfg : AdminPool) (i id : ℕ) : Prop :=
  ∀ j thj, cfg.thread j = some thj → j ≠ i →
    thj.proc.Aside (AdminCmd.touches id) (AdminCmd.opens id) Answers

/-- Requests are looked up by one approval at a time, requests of unknown types
are not approved, and nothing fails once a request is stored as APPROVED. -/
def heedful : Discipline AdminCall AdminCmd AdminCmd.Reply Thrown AdminDb AdminApproval where
  onCall _ _ _ := True
  onStep cfg th c failed :=
    (∀ id, c.opens id = true → Alone cfg th.id id) ∧ c.Known ∧
      (c.executes = true → failed = false ∧ c.Finds cfg.state)

/-- The action of the request has been executed exactly when it is stored as
APPROVED: once, as requested, and by another admin. -/
def Executed (approval : AdminApproval) (executions : List Execution) : Prop :=
  if approval.status = .approved then
    ∃ execution, executions = [execution] ∧ execution.adminUserId ≠ approval.requestedBy ∧
      approval.action = some execution.action
  else executions = []

structure FourEyes (cfg : AdminPool) : Prop where
  /-- Once no call works on the request. -/
  settled : ∀ id approval, cfg.state.approval id = some approval →
    (∀ i th, cfg.thread i = some th →
      th.proc.Aside (AdminCmd.touches id) (AdminCmd.opens id) Answers) →
    Executed approval (cfg.state.executions id)
  /-- At any time, nothing is executed that is not approved, and nothing twice. -/
  once : ∀ id, cfg.state.executions id = [] ∨ ∃ approval,
    cfg.state.approval id = some approval ∧ Executed approval (cfg.state.executions id)
  /-- A call that throws has stored neither its request nor a target. -/
  threw : ∀ i th e, cfg.thread i = some th → th.proc = .done (.error e) →
    ∀ event ∈ cfg.state.log, event.origin.call ≠ i

-- ---------------------------------------------------------------------------
-- Turns
-- ---------------------------------------------------------------------------

/-- The request, once it is approved, and what has been executed for it. -/
structure Progress where
  approved : Option AdminApproval
  executions : List Execution

def progress (id : ℕ) (db : AdminDb) : Progress where
  approved := (db.approval id).filter fun approval => decide (approval.status = .approved)
  executions := db.executions id

/-- Nothing has happened, or all of it. -/
def Progress.Rest (p : Progress) : Prop :=
  match p.approved with
  | none => p.executions = []
  | some approval => ∃ execution, p.executions = [execution] ∧
      execution.adminUserId ≠ approval.requestedBy ∧ approval.action = some execution.action

/-- What the approvals of a request take turns with. -/
def requestTurn (id : ℕ) : Turn AdminCmd AdminCmd.Reply Thrown AdminDb Progress where
  exec := exec
  view := progress id
  opens := AdminCmd.opens id
  touches := AdminCmd.touches id
  allows c failed db :=
    (c.touches id = true → c.Known ∧ c.Finds db) ∧ (c.executes = true → failed = false)
  inv _ := True
  safe p := p.Rest ∨ p.executions = []
  rest := Progress.Rest

section Effects

variable {id : ℕ} {db db' : AdminDb}

/-- What is noted of other requests. -/
theorem executions_other (log : List AdminEvent) {e : AdminEvent} (h : e.execution id = none) :
    (log ++ [e]).filterMap (AdminEvent.execution id) =
      log.filterMap (AdminEvent.execution id) := by
  rw [List.filterMap_append, List.filterMap_cons_none h, List.filterMap_nil, List.append_nil]

theorem executions_own (log : List AdminEvent) (execution : Execution)
    (h : execution.origin.approvalId = id) :
    (log ++ [AdminEvent.executed execution]).filterMap (AdminEvent.execution id) =
      log.filterMap (AdminEvent.execution id) ++ [execution] := by
  rw [List.filterMap_append]
  exact congrArg (_ ++ ·) (List.filterMap_cons_some (if_pos h))

theorem exec_answers {c : AdminCmd} {a : c.Reply} (h : exec c db = .ok (a, db')) : Answers c a := by
  cases c with
  | findApproval id =>
    cases h
    exact fun approval happroval => Table.key_of_get _ happroval
  | saveApproval call approval =>
    cases h
    rfl
  | _ => trivial

/-- The request is stored. -/
theorem approval_put (db : AdminDb) (approval : AdminApproval) (id : ℕ) :
    AdminDb.approval { db with approvals := Table.put AdminApproval.id approval db.approvals } id =
      if approval.id = id then some approval else db.approval id := Table.get_put ..

/-- The other commands leave the request alone. -/
theorem exec_quiet {c : AdminCmd} {a : c.Reply} (hc : c.touches id = false)
    (h : exec c db = .ok (a, db')) : progress id db' = progress id db := by
  cases c with
  | insertApproval id' actionType actionData requestedBy =>
    simp only [exec] at h
    split at h
    · cases h
    · rename_i hfresh
      cases h
      unfold progress
      rw [approval_put]
      split
      · rename_i hid
        obtain rfl : id' = id := hid
        have hnone : db.approval id' = none := by simpa using hfresh
        rw [hnone]
        rfl
      · rfl
  | saveApproval call approval =>
    cases h
    have hrow := (approval_put db approval id).trans (if_neg (of_decide_eq_false hc))
    exact congrArg₂ Progress.mk (congrArg (Option.filter _) hrow) (executions_other db.log rfl)
  | saveTransaction transaction execution =>
    cases h
    exact congrArg (Progress.mk _) (executions_other db.log (if_neg (of_decide_eq_false hc)))
  | saveUser user execution =>
    cases h
    exact congrArg (Progress.mk _) (executions_other db.log (if_neg (of_decide_eq_false hc)))
  | _ =>
    cases h
    rfl

theorem requestTurn_commands (id : ℕ) : TurnCommands server (requestTurn id) Answers where
  exec := rfl
  safe _ h := .inl h
  lookup c h := by
    cases c with
    | findApproval _ => rfl
    | _ => cases h
  keeps _ _ _ _ _ _ := trivial
  quiet _ _ _ _ hc _ h := exec_quiet hc h
  possible c db hc := by
    refine ⟨fun htouches => ?_, fun hexecutes => ?_⟩
    · rw [show c.touches id = false from hc] at htouches
      cases htouches
    · cases c with
      | findTransaction _ _ => rfl
      | saveTransaction _ _ => rfl
      | findUser _ _ => rfl
      | saveUser _ _ => rfl
      | audit _ => rfl
      | _ => cases hexecutes
  replied _ _ _ _ h := exec_answers h

end Effects

section Programs

variable {id i : ℕ} {α : Type} {origin : Origin} {v : Progress}

/-- The call is aside. -/
abbrev Clear (id : ℕ) (p : AdminProc α) : Prop :=
  p.Aside (AdminCmd.touches id) (AdminCmd.opens id) Answers

theorem overrideTransactionStatus_clear (hne : origin.approvalId ≠ id) (transactionId : ℕ)
    (newStatus : TransactionStatus) (adminUserId : UserId) (reason : Option String) :
    Clear id (overrideTransactionStatus origin transactionId newStatus adminUserId reason) := by
  unfold overrideTransactionStatus
  refine Proc.aside_call_bind (decide_eq_false hne) fun found _ => ?_
  cases found with
  | none => trivial
  | some tx =>
    refine Proc.aside_call_bind (decide_eq_false hne) fun updated _ => ?_
    exact Proc.aside_call_bind rfl fun _ _ => trivial

theorem updateUserStatus_clear (hne : origin.approvalId ≠ id) (targetUserId : UserId)
    (isActive : Bool) (adminUserId : UserId) (reason : Option String) :
    Clear id (updateUserStatus origin targetUserId isActive adminUserId reason) := by
  unfold updateUserStatus
  refine Proc.aside_call_bind (decide_eq_false hne) fun found _ => ?_
  cases found with
  | none => trivial
  | some user =>
    refine Proc.aside_call_bind (decide_eq_false hne) fun updated _ => ?_
    exact Proc.aside_call_bind rfl fun _ _ => trivial

theorem execute_clear {saved : AdminApproval} (hne : saved.id ≠ id) (approvedBy : UserId) :
    Clear id (execute i saved approvedBy) := by
  unfold execute
  split
  · exact Proc.aside_bind (overrideTransactionStatus_clear hne ..) fun _ => trivial
  · split
    · exact Proc.aside_bind (updateUserStatus_clear hne ..) fun _ => trivial
    · trivial

theorem prog_clear (i : ℕ) (k : AdminCall) : Clear id (prog i k) := by
  cases k with
  | requestAdminApproval actionType actionData requestedBy =>
    exact ⟨rfl, fun _ => ⟨fun _ _ => trivial, fun _ => trivial⟩⟩
  | approveAdminRequest approvalId approvedBy =>
    show Clear id (approveAdminRequest i approvalId approvedBy)
    unfold approveAdminRequest
    by_cases hid : approvalId = id
    · exact Proc.aside_open_bind rfl (decide_eq_true hid)
    · refine Proc.aside_call_bind rfl fun found hfound => ?_
      cases found with
      | none => trivial
      | some approval =>
        have hne : approval.id ≠ id := by
          rw [hfound approval rfl]
          exact hid
        refine Proc.aside_rejectWhen_bind fun _ => ?_
        refine Proc.aside_rejectWhen_bind fun _ => ?_
        refine Proc.aside_call_bind (decide_eq_false hne) fun saved hsaved => ?_
        obtain rfl : saved = _ := hsaved
        exact Proc.aside_bind (execute_clear hne approvedBy) fun _ => trivial

/-- An approved request, of which nothing has been executed. -/
structure Due (saved : AdminApproval) (adminUserId : UserId) (action : Action) (v : Progress) :
    Prop where
  approved : v.approved = some saved
  executions : v.executions = []
  other : adminUserId ≠ saved.requestedBy
  action : saved.action = some action

/-- The target is stored. -/
theorem Due.executed {saved : AdminApproval} {adminUserId : UserId} {action : Action}
    (h : Due saved adminUserId action v) (hid : origin.approvalId = id) {db db' : AdminDb}
    (hview : progress id db = v) (happrovals : db'.approvals = db.approvals)
    (hlog : db'.log = db.log ++ [.executed ⟨origin, adminUserId, action⟩]) :
    (progress id db').Rest := by
  have hview' : progress id db' = ⟨some saved, [⟨origin, adminUserId, action⟩]⟩ := by
    have happroved := h.approved
    have hexecutions := h.executions
    rw [← hview] at happroved hexecutions
    unfold progress AdminDb.approval AdminDb.executions
    rw [happrovals, hlog, executions_own db.log ⟨origin, adminUserId, action⟩ hid]
    exact congrArg₂ Progress.mk happroved (congrArg (· ++ _) hexecutions)
  rw [hview']
  exact ⟨_, rfl, h.other, h.action⟩

/-- What is left of the turn once the target is stored. -/
theorem audit_turns {event : AuditEvent} {k : Unit → AdminProc α}
    (hk : ∀ v : Progress, v.Rest → (k ()).Turns (requestTurn id) v) (hrest : v.Rest) :
    ((await (.audit event)).bind k).Turns (requestTurn id) v := by
  refine Proc.turns_call_bind rfl (.inl hrest) (fun db _ db' _ hview _ hexec => ?_)
    fun _ _ _ hfails => absurd (hfails.2 rfl) Bool.noConfusion
  cases hexec
  rw [show (requestTurn id).view { db with audit := db.audit ++ [event] } = v from hview]
  exact hk v hrest

theorem overrideTransactionStatus_turns {k : Transaction → AdminProc α}
    (hk : ∀ tx (v : Progress), v.Rest → (k tx).Turns (requestTurn id) v) {saved : AdminApproval}
    {transactionId : ℕ} {newStatus : TransactionStatus} {adminUserId : UserId}
    {reason : Option String} (hid : origin.approvalId = id)
    (h : Due saved adminUserId (.overrideTransactionStatus transactionId newStatus reason) v) :
    ((overrideTransactionStatus origin transactionId newStatus adminUserId reason).bind k).Turns
      (requestTurn id) v := by
  unfold overrideTransactionStatus
  simp only [Proc.bind_eq, Proc.bind_assoc]
  refine Proc.turns_call_bind rfl (.inr h.executions) (fun db found db' _ hview hallows hexec => ?_)
    fun _ _ _ hfails => absurd (hfails.2 rfl) Bool.noConfusion
  cases hexec
  have hfinds := (hallows.1 (decide_eq_true hid)).2
  obtain ⟨tx, htx⟩ := Option.isSome_iff_exists.mp hfinds
  rw [htx, hview]
  show (Proc.bind (Proc.bind _ _) k).Turns _ v
  simp only [Proc.bind_assoc]
  refine Proc.turns_call_bind rfl (.inr h.executions) (fun db _ db' _ hview _ hexec => ?_)
    fun _ _ _ hfails => absurd (hfails.2 rfl) Bool.noConfusion
  cases hexec
  exact audit_turns (hk _) (h.executed hid hview rfl rfl)

theorem updateUserStatus_turns {k : User → AdminProc α}
    (hk : ∀ user (v : Progress), v.Rest → (k user).Turns (requestTurn id) v) {saved : AdminApproval}
    {targetUserId : UserId} {isActive : Bool} {adminUserId : UserId} {reason : Option String}
    (hid : origin.approvalId = id)
    (h : Due saved adminUserId (.updateUserStatus targetUserId isActive reason) v) :
    ((updateUserStatus origin targetUserId isActive adminUserId reason).bind k).Turns
      (requestTurn id) v := by
  unfold updateUserStatus
  simp only [Proc.bind_eq, Proc.bind_assoc]
  refine Proc.turns_call_bind rfl (.inr h.executions) (fun db found db' _ hview hallows hexec => ?_)
    fun _ _ _ hfails => absurd (hfails.2 rfl) Bool.noConfusion
  cases hexec
  have hfinds := (hallows.1 (decide_eq_true hid)).2
  obtain ⟨user, huser⟩ := Option.isSome_iff_exists.mp hfinds
  rw [huser, hview]
  show (Proc.bind (Proc.bind _ _) k).Turns _ v
  simp only [Proc.bind_assoc]
  refine Proc.turns_call_bind rfl (.inr h.executions) (fun db _ db' _ hview _ hexec => ?_)
    fun _ _ _ hfails => absurd (hfails.2 rfl) Bool.noConfusion
  cases hexec
  exact audit_turns (hk _) (h.executed hid hview rfl rfl)

/-- What is left of the turn once the request is stored. -/
theorem execute_turns {k : Unit → AdminProc α}
    (hk : ∀ v : Progress, v.Rest → (k ()).Turns (requestTurn id) v) (saved : AdminApproval)
    (hid : saved.id = id) {approvedBy : UserId} (hother : approvedBy ≠ saved.requestedBy)
    (hknown : saved.action.isSome = true) :
    ((execute i saved approvedBy).bind k).Turns (requestTurn id) ⟨some saved, []⟩ := by
  obtain ⟨action, haction⟩ := Option.isSome_iff_exists.mp hknown
  have hwritten := haction
  unfold AdminApproval.action at hwritten
  unfold execute
  split
  · rename_i htype
    rw [if_pos htype] at hwritten
    cases hwritten
    rw [Proc.bind_eq, Proc.bind_assoc]
    exact overrideTransactionStatus_turns (fun _ v hv => hk v hv) hid ⟨rfl, rfl, hother, haction⟩
  · rename_i htype
    rw [if_neg htype] at hwritten
    split
    · rename_i htype'
      rw [if_pos htype'] at hwritten
      cases hwritten
      rw [Proc.bind_eq, Proc.bind_assoc]
      exact updateUserStatus_turns (fun _ v hv => hk v hv) hid ⟨rfl, rfl, hother, haction⟩
    · rename_i htype'
      rw [if_neg htype'] at hwritten
      cases hwritten

theorem begins_aside {c : AdminCmd} {next : Except Thrown c.Reply → AdminProc α}
    (h : c.opens id = false) : (requestTurn id).Begins c next := by
  intro hopens
  have hlookup : c.opens id = true := hopens
  rw [h] at hlookup
  cases hlookup

/-- **The turn of an approval**, of which the lookup has found the request. -/
theorem approve_turns {approvalId : ℕ} {approval : AdminApproval} {db : AdminDb}
    (approvedBy : UserId) (hrest : (progress approvalId db).Rest)
    (hfound : db.approval approvalId = some approval) :
    (do
      Proc.rejectWhen (approval.status ≠ .pending) ⟨"Approval is not pending"⟩
      Proc.rejectWhen (approval.requestedBy = approvedBy)
        ⟨"Admin cannot approve their own request"⟩
      let saved ← await (.saveApproval i
        { approval with status := .approved, approvedBy := some approvedBy })
      execute i saved approvedBy
      return saved : AdminProc AdminApproval).Turns (requestTurn approvalId)
        (progress approvalId db) := by
  have hid : approval.id = approvalId := Table.key_of_get _ hfound
  refine Proc.turns_rejectWhen_bind (fun _ => hrest) fun hpending => ?_
  refine Proc.turns_rejectWhen_bind (fun _ => hrest) fun hwho => ?_
  have hpending : approval.status = .pending := not_not.mp hpending
  have hnone : (progress approvalId db).approved = none := by
    unfold progress
    rw [hfound]
    simp [hpending]
  have hexecutions : (progress approvalId db).executions = [] := by
    unfold Progress.Rest at hrest
    rw [hnone] at hrest
    exact hrest
  refine Proc.turns_call_bind rfl (.inl hrest) (fun db₁ saved db₂ _ hview hallows hexec => ?_)
    fun _ _ _ _ => hrest
  cases hexec
  have hview' : (requestTurn approvalId).view { db₁ with
      approvals := Table.put AdminApproval.id
        { approval with status := .approved, approvedBy := some approvedBy } db₁.approvals
      log := db₁.log ++ [.approved ⟨i, approval.id⟩] } =
        ⟨some { approval with status := .approved, approvedBy := some approvedBy }, []⟩ := by
    rw [← hview] at hexecutions
    refine congrArg₂ Progress.mk ?_ ((executions_other db₁.log rfl).trans hexecutions)
    have hrow := (approval_put db₁ { approval with
      status := .approved, approvedBy := some approvedBy } approvalId).trans (if_pos hid)
    exact congrArg (Option.filter fun approval => decide (approval.status = .approved)) hrow
  rw [hview']
  refine execute_turns (fun v hv => ?_) { approval with
    status := .approved, approvedBy := some approvedBy } hid (fun heq => hwho heq.symm)
    (hallows.1 (decide_eq_true hid)).1
  exact hv

theorem execute_issues (saved : AdminApproval) (approvedBy : UserId) :
    (execute i saved approvedBy).Issues fun c => c.executes = true := by
  have hoverride : ∀ t s r, (overrideTransactionStatus ⟨i, saved.id⟩ t s approvedBy r).Issues
      fun c => c.executes = true := by
    intro t s r
    unfold overrideTransactionStatus
    refine Proc.issues_bind (Proc.issues_call.mpr rfl) fun found => ?_
    cases found with
    | none => trivial
    | some tx =>
      refine Proc.issues_bind (Proc.issues_call.mpr rfl) fun updated => ?_
      exact Proc.issues_bind (Proc.issues_call.mpr rfl) fun _ => trivial
  have hupdate : ∀ t a r, (updateUserStatus ⟨i, saved.id⟩ t a approvedBy r).Issues
      fun c => c.executes = true := by
    intro t a r
    unfold updateUserStatus
    refine Proc.issues_bind (Proc.issues_call.mpr rfl) fun found => ?_
    cases found with
    | none => trivial
    | some user =>
      refine Proc.issues_bind (Proc.issues_call.mpr rfl) fun updated => ?_
      exact Proc.issues_bind (Proc.issues_call.mpr rfl) fun _ => trivial
  unfold execute
  split
  · exact Proc.issues_bind (hoverride ..) fun _ => trivial
  · split
    · exact Proc.issues_bind (hupdate ..) fun _ => trivial
    · trivial

theorem opens_of_executes {c : AdminCmd} (h : c.executes = true) : c.opens id = false := by
  cases c with
  | findApproval _ => cases h
  | _ => rfl

theorem prog_turns (i : ℕ) (k : AdminCall) :
    (prog i k).Always Answers fun c next => (requestTurn id).Begins c next := by
  cases k with
  | requestAdminApproval actionType actionData requestedBy =>
    exact .await (begins_aside rfl) (fun _ _ => .done _) fun _ => .done _
  | approveAdminRequest approvalId approvedBy =>
    show (approveAdminRequest i approvalId approvedBy).Always _ _
    unfold approveAdminRequest
    refine Proc.always_call_bind ?_ fun found _ => ?_
    · intro hopens db _ hrest
      refine ⟨fun found db' hexec => ?_, fun _ => hrest⟩
      cases hexec
      obtain rfl : approvalId = id := of_decide_eq_true hopens
      show (Proc.bind (.done (.ok (db.approval approvalId))) _).Turns _ _
      cases hfound : db.approval approvalId with
      | none => exact hrest
      | some approval => exact approve_turns approvedBy hrest hfound
    · cases found with
      | none => exact .done _
      | some approval =>
        refine Proc.always_rejectWhen_bind fun _ => ?_
        refine Proc.always_rejectWhen_bind fun _ => ?_
        refine Proc.always_call_bind (begins_aside rfl) fun saved _ => ?_
        exact Proc.always_bind_of_issues (execute_issues saved approvedBy)
          (fun c next hc => begins_aside (opens_of_executes hc)) fun _ => .done _

end Programs

theorem takesTurns (id : ℕ) : TakesTurns server heedful (requestTurn id) Answers where
  toTurnCommands := requestTurn_commands id
  prog := prog_turns
  fresh := prog_clear
  allows cfg th c fault _ hD := by
    refine ⟨fun htouches => ⟨hD.2.1, ?_⟩, fun hexecutes => (hD.2.2 hexecutes).1⟩
    cases hexecutes : c.executes with
    | true => exact (hD.2.2 hexecutes).2
    | false =>
      cases c with
      | findTransaction _ _ => cases hexecutes
      | findUser _ _ => cases hexecutes
      | _ => trivial
  alone cfg th c _ hD hopens := hD.1 id hopens

-- ---------------------------------------------------------------------------
-- Calls that throw
-- ---------------------------------------------------------------------------

/-- What is noted of a command. -/
def AdminCmd.event : AdminCmd → Option AdminEvent
  | .saveApproval call approval => some (.approved ⟨call, approval.id⟩)
  | .saveTransaction _ execution | .saveUser _ execution => some (.executed execution)
  | _ => none

/-- The lookup has found the target. -/
def Found : (c : AdminCmd) → c.Reply → Prop
  | .findTransaction _ _, found => found.isSome = true
  | .findUser _ _, found => found.isSome = true
  | _, _ => True

/-- When nothing fails and every target is found, the call returns. -/
def Sure {α : Type} : AdminProc α → Prop
  | .done r => ∃ a, r = .ok a
  | .await c next => c.executes = true ∧ ∀ a, Found c a → Sure (next (.ok a))

/-- A call notes what it does under its own number, and returns from then on. -/
def Notes (i : ℕ) {α : Type} (c : AdminCmd) (next : Except Thrown c.Reply → AdminProc α) : Prop :=
  ∀ e ∈ c.event, e.origin.call = i ∧ ∀ a, Sure (next (.ok a))

section Throws

variable {i : ℕ} {α β : Type} {origin : Origin} {db db' : AdminDb}

theorem exec_log {c : AdminCmd} {a : c.Reply} (h : exec c db = .ok (a, db')) :
    db'.log = db.log ++ c.event.toList := by
  cases c with
  | insertApproval id actionType actionData requestedBy =>
    simp only [exec] at h
    split at h
    · cases h
    · cases h
      exact (List.append_nil _).symm
  | saveApproval call approval =>
    cases h
    rfl
  | saveTransaction transaction execution =>
    cases h
    rfl
  | saveUser user execution =>
    cases h
    rfl
  | _ =>
    cases h
    exact (List.append_nil _).symm

theorem exec_found {c : AdminCmd} {a : c.Reply} (hfinds : c.Finds db)
    (h : exec c db = .ok (a, db')) : Found c a := by
  cases c with
  | findTransaction origin id =>
    cases h
    exact hfinds
  | findUser origin id =>
    cases h
    exact hfinds
  | _ => trivial

theorem sure_override {k : Transaction → AdminProc α} (hk : ∀ tx, Sure (k tx)) (transactionId : ℕ)
    (newStatus : TransactionStatus) (adminUserId : UserId) (reason : Option String) :
    Sure ((overrideTransactionStatus origin transactionId newStatus adminUserId reason).bind k) := by
  refine ⟨rfl, fun found hfound => ?_⟩
  obtain ⟨tx, rfl⟩ := Option.isSome_iff_exists.mp hfound
  exact ⟨rfl, fun updated _ => ⟨rfl, fun _ _ => hk updated⟩⟩

theorem sure_update {k : User → AdminProc α} (hk : ∀ user, Sure (k user)) (targetUserId : UserId)
    (isActive : Bool) (adminUserId : UserId) (reason : Option String) :
    Sure ((updateUserStatus origin targetUserId isActive adminUserId reason).bind k) := by
  refine ⟨rfl, fun found hfound => ?_⟩
  obtain ⟨user, rfl⟩ := Option.isSome_iff_exists.mp hfound
  exact ⟨rfl, fun updated _ => ⟨rfl, fun _ _ => hk updated⟩⟩

theorem sure_execute {k : Unit → AdminProc α} (hk : Sure (k ())) (saved : AdminApproval)
    (approvedBy : UserId) : Sure ((execute i saved approvedBy).bind k) := by
  unfold execute
  split
  · rw [Proc.bind_eq, Proc.bind_assoc]
    exact sure_override (fun _ => hk) ..
  · split
    · rw [Proc.bind_eq, Proc.bind_assoc]
      exact sure_update (fun _ => hk) ..
    · exact hk

theorem notes_none {c : AdminCmd} {next : Except Thrown c.Reply → AdminProc α}
    (h : c.event = none) : Notes i c next := by
  intro e he
  rw [h] at he
  cases he

theorem always_override {k : Transaction → AdminProc α} (horigin : origin.call = i)
    (hk : ∀ tx, (k tx).Always (fun _ _ => True) (Notes i)) (hsure : ∀ tx, Sure (k tx))
    (transactionId : ℕ) (newStatus : TransactionStatus) (adminUserId : UserId)
    (reason : Option String) :
    ((overrideTransactionStatus origin transactionId newStatus adminUserId reason).bind k).Always
      (fun _ _ => True) (Notes i) := by
  unfold overrideTransactionStatus
  simp only [Proc.bind_eq, Proc.bind_assoc]
  refine Proc.always_call_bind (notes_none rfl) fun found _ => ?_
  cases found with
  | none => exact .done _
  | some tx =>
    simp only [Proc.bind_assoc]
    refine Proc.always_call_bind ?_ fun updated _ =>
      Proc.always_call_bind (notes_none rfl) fun _ _ => hk updated
    rintro e ⟨⟩
    exact ⟨horigin, fun updated => ⟨rfl, fun _ _ => hsure updated⟩⟩

theorem always_update {k : User → AdminProc α} (horigin : origin.call = i)
    (hk : ∀ user, (k user).Always (fun _ _ => True) (Notes i)) (hsure : ∀ user, Sure (k user))
    (targetUserId : UserId) (isActive : Bool) (adminUserId : UserId) (reason : Option String) :
    ((updateUserStatus origin targetUserId isActive adminUserId reason).bind k).Always
      (fun _ _ => True) (Notes i) := by
  unfold updateUserStatus
  simp only [Proc.bind_eq, Proc.bind_assoc]
  refine Proc.always_call_bind (notes_none rfl) fun found _ => ?_
  cases found with
  | none => exact .done _
  | some user =>
    simp only [Proc.bind_assoc]
    refine Proc.always_call_bind ?_ fun updated _ =>
      Proc.always_call_bind (notes_none rfl) fun _ _ => hk updated
    rintro e ⟨⟩
    exact ⟨horigin, fun updated => ⟨rfl, fun _ _ => hsure updated⟩⟩

theorem always_execute {k : Unit → AdminProc α}
    (hk : (k ()).Always (fun _ _ => True) (Notes i)) (hsure : Sure (k ())) (saved : AdminApproval)
    (approvedBy : UserId) :
    ((execute i saved approvedBy).bind k).Always (fun _ _ => True) (Notes i) := by
  have horigin : (⟨i, saved.id⟩ : Origin).call = i := rfl
  unfold execute
  split
  · rw [Proc.bind_eq, Proc.bind_assoc]
    exact always_override horigin (fun _ => hk) (fun _ => hsure) ..
  · split
    · rw [Proc.bind_eq, Proc.bind_assoc]
      exact always_update horigin (fun _ => hk) (fun _ => hsure) ..
    · exact hk

theorem prog_notes (i : ℕ) (k : AdminCall) :
    (prog i k).Always (fun _ _ => True) (Notes i) := by
  cases k with
  | requestAdminApproval actionType actionData requestedBy =>
    exact .await (notes_none rfl) (fun _ _ => .done _) fun _ => .done _
  | approveAdminRequest approvalId approvedBy =>
    show (approveAdminRequest i approvalId approvedBy).Always _ _
    unfold approveAdminRequest
    refine Proc.always_call_bind (notes_none rfl) fun found _ => ?_
    cases found with
    | none => exact .done _
    | some approval =>
      refine Proc.always_rejectWhen_bind fun _ => ?_
      refine Proc.always_rejectWhen_bind fun _ => ?_
      refine Proc.always_call_bind ?_ fun saved _ => ?_
      · rintro e ⟨⟩
        exact ⟨rfl, fun saved =>
          sure_execute (k := fun _ => .done (.ok saved)) ⟨saved, rfl⟩ saved approvedBy⟩
      · exact always_execute (k := fun _ => .done (.ok saved)) (.done _) ⟨saved, rfl⟩ saved
          approvedBy

/-- A call has noted nothing, or returns from here on. -/
structure Committed (cfg : AdminPool) : Prop where
  calls : ∀ e ∈ cfg.state.log, (cfg.thread e.origin.call).isSome = true
  sure : ∀ i th, cfg.thread i = some th →
    (∀ e ∈ cfg.state.log, e.origin.call ≠ i) ∨ Sure th.proc

theorem Committed.spawn {cfg : AdminPool} (h : Committed cfg) {k : AdminCall}
    (hfresh : cfg.thread i = none) : Committed (cfg.spawn i k (prog i k)) where
  calls e he := by
    have hold := h.calls e he
    rw [Config.thread_spawn]
    split
    · rfl
    · exact hold
  sure j th hth := by
    rcases Config.thread_spawn_cases hth with ⟨rfl, rfl⟩ | hold
    · refine .inl fun e he hcall => ?_
      have hsome := h.calls e he
      rw [hcall, hfresh] at hsome
      cases hsome
    · exact h.sure j th hold

theorem Committed.step {cfg : AdminPool} {fault : Option Thrown}
    {th : Thread AdminCall AdminCmd AdminCmd.Reply Thrown AdminApproval} {c : AdminCmd}
    {next : Except Thrown c.Reply → AdminProc AdminApproval} (h : Committed cfg)
    (hth : cfg.thread i = some th) (hproc : th.proc = .await c next) (hnotes : Notes i c next)
    (hD : heedful.onStep cfg th c (failed (outcome fault (exec c cfg.state)))) :
    Committed (cfg.resume th next (outcome fault (exec c cfg.state))) := by
  have hself : ∀ j, (cfg.thread j).isSome = true →
      ((cfg.resume th next (outcome fault (exec c cfg.state))).thread j).isSome = true := by
    intro j hj
    rw [Config.thread_resume]
    split
    · rfl
    · exact hj
  cases hout : outcome fault (exec c cfg.state) with
  | error e =>
    rw [hout] at hD hself
    refine ⟨fun event hevent => hself _ (h.calls event hevent), fun j thj hthj => ?_⟩
    rcases Config.thread_resume_cases hth hthj with ⟨rfl, rfl⟩ | hold
    · -- nothing that fails comes after a save
      rcases h.sure j th hth with hnone | hsure
      · exact .inl hnone
      · rw [hproc] at hsure
        exact absurd (hD.2.2 hsure.1).1 Bool.noConfusion
    · exact h.sure j thj hold
  | ok r =>
    obtain ⟨a, db'⟩ := r
    rw [hout] at hD hself
    have hexec := (outcome_eq_ok hout).2
    have hlog := exec_log hexec
    have hi := Config.id_of_thread hth
    refine ⟨fun event hevent => hself _ ?_, fun j thj hthj => ?_⟩
    · rw [Config.resume_state, after_ok, hlog, List.mem_append] at hevent
      rcases hevent with hevent | hevent
      · exact h.calls event hevent
      · rw [(hnotes event (Option.mem_toList.mp hevent)).1, hth]
        rfl
    · rw [Config.resume_state, after_ok, hlog]
      rcases eq_or_ne j i with rfl | hji
      · rw [Config.thread_resume, if_pos hi] at hthj
        cases hthj
        cases hevent : c.event with
        | some e => exact .inr ((hnotes e hevent).2 a)
        | none =>
          rcases h.sure j th hth with hnone | hsure
          · exact .inl fun e he => hnone e (by simpa using he)
          · rw [hproc] at hsure
            exact .inr (hsure.2 a (exec_found (hD.2.2 hsure.1).2 hexec))
      · rw [Config.thread_resume_ne hth hji] at hthj
        refine (h.sure j thj hthj).imp_left fun hnone e he => ?_
        rcases List.mem_append.mp he with he | he
        · exact hnone e he
        · rw [(hnotes e (Option.mem_toList.mp he)).1]
          exact Ne.symm hji

/-- **Throws.** -/
theorem committed_of_reach {cfg₀ cfg : AdminPool} (hnil : cfg₀.threads = [])
    (hlog : cfg₀.state.log = []) (h : Reach server heedful cfg₀ cfg) : Committed cfg := by
  have hstart : Committed cfg₀ := by
    refine ⟨fun e he => ?_, fun i th hth => ?_⟩
    · rw [hlog] at he
      cases he
    · rw [Config.thread, hnil] at hth
      cases hth
  refine (h.invariant_always (I := Committed) (G := fun _ _ => True)
    (Q := fun i _ c next => Notes i c next) hstart hnil prog_notes
    (fun cfg i k hI hfresh _ => hI.spawn hfresh) ?_).1
  exact fun cfg i fault th c next hI hth hproc hnotes hD =>
    ⟨hI.step hth hproc hnotes hD, fun _ _ _ => trivial⟩

end Throws

-- ---------------------------------------------------------------------------
-- Four eyes
-- ---------------------------------------------------------------------------

theorem approved_of_row {id : ℕ} {db : AdminDb} {approval : AdminApproval}
    (hrow : db.approval id = some approval) :
    (progress id db).approved = if approval.status = .approved then some approval else none := by
  unfold progress
  rw [hrow]
  split
  · rename_i hstatus
    simp [hstatus]
  · rename_i hstatus
    simp [hstatus]

theorem Progress.Rest.executed {id : ℕ} {db : AdminDb} {approval : AdminApproval}
    (h : (progress id db).Rest) (hrow : db.approval id = some approval) :
    Executed approval (db.executions id) := by
  unfold Progress.Rest at h
  rw [approved_of_row hrow] at h
  unfold Executed
  split
  · rename_i hstatus
    rw [if_pos hstatus] at h
    exact h
  · rename_i hstatus
    rw [if_neg hstatus] at h
    exact h

/-- **Four eyes.** From a database in which no request is approved yet. -/
theorem four_eyes {db : AdminDb} {cfg : AdminPool} (hlog : db.log = [])
    (hpending : ∀ approval ∈ db.approvals, approval.status ≠ .approved)
    (h : Reach server heedful ⟨db, []⟩ cfg) : FourEyes cfg := by
  have hrest : ∀ id, (progress id db).Rest := by
    intro id
    have hnone : (progress id db).approved = none := by
      unfold progress
      cases hrow : db.approval id with
      | none => rfl
      | some approval =>
        have hstatus := hpending approval (Table.mem_of_get _ hrow)
        simp [hstatus]
    unfold Progress.Rest
    rw [hnone]
    show db.log.filterMap _ = []
    rw [hlog, List.filterMap_nil]
  have hturns := fun id => h.turns (takesTurns id) rfl trivial (hrest id)
  refine ⟨fun id approval hrow haside => ?_, fun id => ?_, fun i th e hth hproc => ?_⟩
  · exact Progress.Rest.executed ((hturns id).2 haside) hrow
  · rcases (hturns id).1 with hsafe | hsafe
    · cases hrow : cfg.state.approval id with
      | none =>
        have hsafe : (progress id cfg.state).Rest := hsafe
        unfold Progress.Rest progress at hsafe
        rw [hrow] at hsafe
        exact .inl hsafe
      | some approval => exact .inr ⟨approval, rfl, Progress.Rest.executed hsafe hrow⟩
    · exact .inl hsafe
  · rcases (committed_of_reach rfl hlog h).sure i th hth with hnone | hsure
    · exact hnone
    · rw [hproc] at hsure
      obtain ⟨a, ha⟩ := hsure
      cases ha

-- ---------------------------------------------------------------------------
-- Runs
-- ---------------------------------------------------------------------------

/-- What `heedful` asks, where every other call has ended. -/
def heedfulStep (cfg : AdminPool)
    (th : Thread AdminCall AdminCmd AdminCmd.Reply Thrown AdminApproval) (c : AdminCmd)
    (failed : Bool) : Bool :=
  match c with
  | .findApproval _ => cfg.threads.all fun thj => decide (thj.id = th.id) || thj.proc.isDone
  | .saveApproval _ approval => approval.action.isSome
  | .findTransaction _ id => !failed && (cfg.state.transaction id).isSome
  | .findUser _ id => !failed && (cfg.state.user id).isSome
  | .saveTransaction .. | .saveUser .. | .audit _ => !failed
  | .insertApproval .. => true

theorem heedful_of_step {cfg : AdminPool}
    {th : Thread AdminCall AdminCmd AdminCmd.Reply Thrown AdminApproval} {c : AdminCmd} {b : Bool}
    (h : heedfulStep cfg th c b = true) : heedful.onStep cfg th c b := by
  cases c with
  | findApproval id' =>
    refine ⟨fun id _ j thj hthj hj => ?_, trivial, nofun⟩
    have hhere := List.all_eq_true.mp h thj (Table.mem_of_get _ hthj)
    rw [Bool.or_eq_true, decide_eq_true_eq, Config.id_of_thread hthj] at hhere
    cases hproc : thj.proc with
    | done r => trivial
    | await c next =>
      rw [hproc] at hhere
      exact absurd (hhere.resolve_left hj) Bool.noConfusion
  | saveApproval call approval =>
    exact ⟨nofun, h, nofun⟩
  | findTransaction origin id =>
    obtain ⟨hok, hfinds⟩ := Bool.and_eq_true_iff.mp h
    exact ⟨nofun, trivial, fun _ => ⟨by simpa using hok, hfinds⟩⟩
  | findUser origin id =>
    obtain ⟨hok, hfinds⟩ := Bool.and_eq_true_iff.mp h
    exact ⟨nofun, trivial, fun _ => ⟨by simpa using hok, hfinds⟩⟩
  | insertApproval _ _ _ _ =>
    exact ⟨nofun, trivial, nofun⟩
  | _ =>
    have hok : b = false := by simpa [heedfulStep] using h
    exact ⟨nofun, trivial, fun _ => ⟨hok, trivial⟩⟩

/-- A payment that hangs. -/
def pendingPayment : AdminDb where
  approvals := []
  transactions := [⟨5, .pending, 60, "USD", 1, 2, "TX-1"⟩]
  users := []
  audit := []
  log := []

def completePayment (transactionId : ℕ) : ActionData where
  transactionId := transactionId
  newStatus := .completed
  targetUserId := 0
  isActive := true
  reason := some "settled by the bank"

/-- Admin 7 asks for it to be completed, and admin 8 approves. -/
def requested (transactionId : ℕ) : List (Event AdminCall Thrown) :=
  [.call 0 (.requestAdminApproval "override_transaction_status" (completePayment transactionId) 7),
    .step 0 none, .call 1 (.approveAdminRequest 0 8)]

theorem four_eyes_completed : ∃ cfg, Reach server heedful ⟨pendingPayment, []⟩ cfg ∧
    (cfg.state.approval 0).map AdminApproval.status = some .approved ∧
    (cfg.state.transaction 5).map Transaction.status = some .completed ∧ FourEyes cfg := by
  have hrun : (server.runChecked heedfulStep ⟨pendingPayment, []⟩ (requested 5 ++
      [.step 1 none, .step 1 none, .step 1 none, .step 1 none, .step 1 none])).map (fun cfg =>
        ((cfg.state.approval 0).map AdminApproval.status,
          (cfg.state.transaction 5).map Transaction.status)) =
      some (some .approved, some .completed) := by decide +kernel
  obtain ⟨cfg, hcfg, hstatus⟩ := Option.map_eq_some_iff.mp hrun
  have h : Reach server heedful ⟨pendingPayment, []⟩ cfg :=
    Reach.refl.of_runChecked (fun _ _ _ _ => trivial) (fun _ _ _ _ => heedful_of_step) hcfg
  exact ⟨cfg, h, congrArg Prod.fst hstatus, congrArg Prod.snd hstatus,
    four_eyes rfl (fun _ hmem => absurd hmem List.not_mem_nil) h⟩

/-- What the call has thrown. -/
def thrown : AdminProc AdminApproval → Option Thrown
  | .done (.error e) => some e
  | _ => none

theorem done_of_thrown {p : AdminProc AdminApproval} {e : Thrown} (h : thrown p = some e) :
    p = .done (.error e) := by
  unfold thrown at h
  split at h
  · cases h
    rfl
  · cases h

/-- The transaction does not exist: the approval throws, and the request is
stored as APPROVED all the same. -/
theorem approved_not_executed : ∃ cfg th, Reach server .free ⟨pendingPayment, []⟩ cfg ∧
    cfg.thread 1 = some th ∧ thrown th.proc = some ⟨"Transaction 6 not found"⟩ ∧
    (cfg.state.approval 0).map AdminApproval.status = some .approved ∧
    cfg.state.executions 0 = [] ∧ ¬ FourEyes cfg := by
  have hrun : ((server.play ⟨pendingPayment, []⟩ (requested 6 ++
      [.step 1 none, .step 1 none, .step 1 none])).thread 1).bind (fun th => thrown th.proc) =
        some ⟨"Transaction 6 not found"⟩ := by decide +kernel
  obtain ⟨th, hth, hthrown⟩ := Option.bind_eq_some_iff.mp hrun
  refine ⟨_, th, Reach.refl.play _, hth, hthrown, ?_, ?_, fun hfour => ?_⟩
  · decide +kernel
  · decide +kernel
  · refine hfour.threw 1 th _ hth (done_of_thrown hthrown) (.approved ⟨1, 0⟩) ?_ rfl
    decide +kernel

/-- Two admins look the request up before either has stored it. -/
theorem executed_twice : ∃ cfg, Reach server .free ⟨pendingPayment, []⟩ cfg ∧
    (cfg.state.executions 0).map (fun execution => execution.adminUserId) = [8, 9] := by
  refine ⟨server.play ⟨pendingPayment, []⟩ (requested 5 ++ [.call 2 (.approveAdminRequest 0 9),
    .step 1 none, .step 2 none, .step 1 none, .step 1 none, .step 1 none, .step 2 none,
    .step 2 none, .step 2 none]), Reach.refl.play _, ?_⟩
  decide +kernel

end Admin

end NexaFx
