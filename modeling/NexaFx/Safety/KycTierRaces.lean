import NexaFx.Lib.Turns
import NexaFx.Safety.KycTiers

/-!
# NexaFx — the decision and the tier

Approvals and rejections of one request, and changes of its user by other
services, interleaved at every await. The decision and the grant are two saves
of two rows, each of a row that was loaded before.

Calls take turns with the request, and with the row of the user
(`requestTurn`, `accountTurn`). When each looks its row up only while every other
call that has loaded it is done with it, and nothing fails between the decision
and the grant, the tier is granted if and only if the request is approved, and
all changes of the user are in force (`tier_agrees`). Without that it is approved
and not granted, granted and rejected, or a change of the user is lost
(`decision_without_tier`).
-/

namespace NexaFx

open Async

namespace KycTiers

variable {F : Type}

-- ---------------------------------------------------------------------------
-- The property
-- ---------------------------------------------------------------------------

/-- The tier, when the change grants the request. -/
def UserChange.grants (q : ℕ) : UserChange F → Option String
  | .grant id tier => if id = q then some tier else none
  | .others _ => none

/-- To whom the request was granted, each time with which tier. -/
def TierDb.grantsOf (db : TierDb F) (q : ℕ) : List (UserId × String) :=
  db.changes.filterMap fun x => (x.2.grants q).map fun tier => (x.1, tier)

/-- What the saves of the user were to change. -/
def TierDb.changesOf (db : TierDb F) (x : UserId) : List (UserChange F) :=
  (db.changes.filter fun c => decide (c.1 = x)).map Prod.snd

/-- The row with all changes in force. -/
def UserEntity.after (w : UserEntity F) (changes : List (UserChange F)) : UserEntity F :=
  changes.foldl (fun u c => c.apply u) w

/-- The command looks the request up. -/
def TierCmd.opensRequest (q : ℕ) : TierCmd F → Bool
  | .findUpgrade id => decide (id = q)
  | _ => false

/-- The command decides the request, or grants it. -/
def TierCmd.touchesRequest (q : ℕ) : TierCmd F → Bool
  | .saveUpgrade u => decide (u.id = q)
  | .saveUser _ (.grant id _) => decide (id = q)
  | _ => false

/-- The command is part of the grant. -/
def TierCmd.grants (q : ℕ) : TierCmd F → Bool
  | .findUser _ (.grant id) => decide (id = q)
  | .saveUser _ (.grant id _) => decide (id = q)
  | _ => false

/-- The command looks the user up to save the row. -/
def TierCmd.opensUser (x : UserId) : TierCmd F → Bool
  | .findUser _ .check => false
  | .findUser userId _ => decide (userId = x)
  | _ => false

def TierCmd.touchesUser (x : UserId) : TierCmd F → Bool
  | .saveUser u _ => decide (u.id = x)
  | _ => false

/-- What a statement answers. -/
def Answers : (c : TierCmd F) → c.Reply → Prop
  | .findUpgrade id, found => ∀ u, found = some u → u.id = id
  | .findUser userId _, found => ∀ u, found = some u → u.id = userId
  | _, _ => True

/-- The call leaves the request alone until it looks it up again. -/
abbrev ClearOfRequest {α : Type} (q : ℕ) (p : TierProc F α) : Prop :=
  p.Aside (TierCmd.touchesRequest q) (TierCmd.opensRequest q) Answers

/-- The call leaves the user alone until it looks the row up again. -/
abbrev ClearOfUser {α : Type} (x : UserId) (p : TierProc F α) : Prop :=
  p.Aside (TierCmd.touchesUser x) (TierCmd.opensUser x) Answers

/-- A step within the condition. -/
structure InTurn (q : ℕ) (x : UserId) (cfg : TierConfig F) (th : TierThread F) (c : TierCmd F)
    (failed : Bool) : Prop where
  /-- The request is looked up while no other call that has loaded it still has
  its decision or its grant in front of it. -/
  request : c.opensRequest q = true → ∀ j thj, cfg.thread j = some thj → j ≠ th.id →
    ClearOfRequest q thj.proc
  /-- The lookup and the save of the user by the approval do not fail. -/
  carried : c.grants q = true → failed = false
  /-- The user is looked up, to be saved, while no other call that has loaded the
  row still has its save in front of it. -/
  user : c.opensUser x = true → ∀ j thj, cfg.thread j = some thj → j ≠ th.id →
    ClearOfUser x thj.proc
  /-- Once the request is granted, other grants raise the tier. -/
  raises : ∀ u id tier, c = .saveUser u (.grant id tier) → u.id = x → cfg.state.grantsOf q ≠ [] →
    ∀ w, cfg.state.user x = some w → level w.currentTier < level tier

def inTurn (q : ℕ) (x : UserId) :
    Discipline (TierCall F) (TierCmd F) TierCmd.Reply TierErr (TierDb F) TierAnswer where
  onCall _ _ _ := True
  onStep := InTurn q x

/-- The request, pending as `u₀` in `db₀`, and the tier of its user. -/
structure Agrees (q : ℕ) (u₀ : KycTierUpgradeEntity) (db₀ : TierDb F) (cfg : TierConfig F) :
    Prop where
  /-- It is decided once at most, by changing the status and what goes with it. -/
  stored : ∃ d, cfg.state.upgrade q = some d ∧ d.userId = u₀.userId ∧
    d.requestedTier = u₀.requestedTier
  once : (cfg.state.decisions.filter fun d => d.id = q).length ≤ 1
  /-- Pending or rejected, it was never granted. -/
  ungranted : ∀ d, cfg.state.upgrade q = some d → d.status ≠ .approved → cfg.state.grantsOf q = []
  /-- Approved, and no approval on the way: it was granted once, and the user has
  the tier, or was raised further. -/
  granted : ∀ d, cfg.state.upgrade q = some d → d.status = .approved →
    (∀ i th, cfg.thread i = some th → ClearOfRequest q th.proc) →
    ∀ w, cfg.state.user u₀.userId = some w →
      cfg.state.grantsOf q = [(u₀.userId, u₀.requestedTier)] ∧
      (w.kycTier = some u₀.requestedTier ∨ level u₀.requestedTier < level w.currentTier)
  /-- No change of the user is lost. -/
  fields : ∀ w₀, db₀.user u₀.userId = some w₀ →
    cfg.state.user u₀.userId = some (w₀.after (cfg.state.changesOf u₀.userId))

-- ---------------------------------------------------------------------------
-- What commands do to the request
-- ---------------------------------------------------------------------------

/-- What has become of the request. -/
structure Standing where
  row : Option KycTierUpgradeEntity
  saved : List KycTierUpgradeEntity
  grants : List (UserId × String)

def standing (q : ℕ) (db : TierDb F) : Standing where
  row := db.upgrade q
  saved := db.decisions.filter fun d => d.id = q
  grants := db.grantsOf q

/-- The row of the user, and what it was saved with. -/
structure Account (F : Type) where
  row : Option (UserEntity F)
  changes : List (UserChange F)

def account (x : UserId) (db : TierDb F) : Account F := ⟨db.user x, db.changesOf x⟩

section Effects

variable {q : ℕ} {x : UserId} {db db' : TierDb F}

theorem exec_answers {c : TierCmd F} {a : c.Reply} (h : exec c db = .ok (a, db')) : Answers c a := by
  cases c with
  | findUpgrade id =>
    obtain rfl : db.upgrade id = a := (Prod.mk.inj (Except.ok.inj h)).1
    exact fun u hu => TierDb.upgrade_id hu
  | findUser userId purpose =>
    obtain rfl : db.user userId = a := (Prod.mk.inj (Except.ok.inj h)).1
    exact fun u hu => TierDb.user_id hu
  | _ => trivial

theorem exec_carried (c : TierCmd F) (db : TierDb F) : failed (exec c db) = false := by
  cases c <;> rfl

theorem TierDb.upgrade_saveUpgrade (db : TierDb F) (d : KycTierUpgradeEntity) (id : ℕ) :
    (db.saveUpgrade d).upgrade id = (db.upgrade id).map d.update := by
  have hsame : (fun u : KycTierUpgradeEntity => decide (u.id = id)) ∘ d.update =
      fun u => decide (u.id = id) := by
    funext u
    exact congrArg (fun k => decide (k = id)) (d.update_id u)
  unfold TierDb.upgrade TierDb.saveUpgrade
  rw [List.find?_map, hsame]

/-- The decision on a request that was loaded. -/
theorem standing_saveUpgrade {d u : KycTierUpgradeEntity} (hid : d.id = q) (h : db.upgrade q = some u) :
    standing q (db.saveUpgrade d) =
      ⟨some d, (standing q db).saved ++ [d], (standing q db).grants⟩ := by
  have hrow : (db.saveUpgrade d).upgrade q = some d := by
    rw [TierDb.upgrade_saveUpgrade, h, Option.map_some, KycTierUpgradeEntity.update,
      if_pos ((TierDb.upgrade_id h).trans hid.symm)]
  have hsaved : (db.decisions ++ [d]).filter (fun d => d.id = q) =
      (db.decisions.filter fun d => d.id = q) ++ [d] := by
    rw [List.filter_append]
    exact congrArg _ (List.filter_cons_of_pos (decide_eq_true hid))
  unfold standing
  rw [hrow]
  exact congrArg (fun saved => Standing.mk (some d) saved (db.grantsOf q)) hsaved

theorem standing_grant (u : UserEntity F) (tier : String) :
    standing q (db.saveUser u (.grant q tier)) =
      ⟨(standing q db).row, (standing q db).saved, (standing q db).grants ++ [(u.id, tier)]⟩ := by
  have hone : [(u.id, (UserChange.grant q tier : UserChange F))].filterMap
      (fun x => (x.2.grants q).map fun tier => (x.1, tier)) = [(u.id, tier)] := by
    rw [List.filterMap_cons_some (b := (u.id, tier))]
    · rfl
    · show ((if q = q then some tier else none).map fun tier => (u.id, tier)) = _
      rw [if_pos rfl]
      rfl
  have hgrants : (db.saveUser u (.grant q tier)).grantsOf q = db.grantsOf q ++ [(u.id, tier)] := by
    unfold TierDb.grantsOf TierDb.saveUser
    rw [List.filterMap_append, hone]
  unfold standing
  rw [hgrants]
  rfl

/-- The other statements. -/
theorem standing_quiet {c : TierCmd F} {a : c.Reply} (hc : c.touchesRequest q = false)
    (hthere : (db.upgrade q).isSome = true) (h : exec c db = .ok (a, db')) :
    standing q db' = standing q db := by
  cases c with
  | insertUpgrade userId currentTier dto =>
    obtain rfl : db.insert userId currentTier dto = db' := (Prod.mk.inj (Except.ok.inj h)).2
    obtain ⟨u, hu⟩ := Option.isSome_iff_exists.mp hthere
    have hrow : (db.insert userId currentTier dto).upgrade q = db.upgrade q := by
      unfold TierDb.upgrade TierDb.insert
      rw [List.find?_append, show db.upgrades.find? _ = some u from hu]
      rfl
    unfold standing
    rw [hrow]
    rfl
  | saveUpgrade d =>
    obtain rfl : db.saveUpgrade d = db' := (Prod.mk.inj (Except.ok.inj h)).2
    have hne : d.id ≠ q := of_decide_eq_false hc
    obtain ⟨u, hu⟩ := Option.isSome_iff_exists.mp hthere
    have hrow : (db.saveUpgrade d).upgrade q = db.upgrade q := by
      rw [TierDb.upgrade_saveUpgrade, hu, Option.map_some, KycTierUpgradeEntity.update, if_neg]
      rw [TierDb.upgrade_id hu]
      exact hne.symm
    have hsaved : (db.decisions ++ [d]).filter (fun d => d.id = q) =
        db.decisions.filter fun d => d.id = q := by
      rw [List.filter_append, List.filter_cons_of_neg (by simpa using hne), List.filter_nil,
        List.append_nil]
    unfold standing
    rw [hrow]
    exact congrArg (fun saved => Standing.mk (db.upgrade q) saved (db.grantsOf q)) hsaved
  | saveUser u change =>
    obtain rfl : db.saveUser u change = db' := (Prod.mk.inj (Except.ok.inj h)).2
    have hnone : change.grants q = none := by
      cases change with
      | grant id tier => exact if_neg (of_decide_eq_false hc)
      | others f => rfl
    have hgrants : (db.saveUser u change).grantsOf q = db.grantsOf q := by
      unfold TierDb.grantsOf TierDb.saveUser
      rw [List.filterMap_append, List.filterMap_cons_none (by rw [hnone]; rfl), List.filterMap_nil,
        List.append_nil]
    unfold standing
    rw [hgrants]
    rfl
  | _ =>
    cases h
    rfl

theorem TierDb.changesOf_saveUser (db : TierDb F) {u : UserEntity F} (change : UserChange F)
    (hid : u.id = x) : (db.saveUser u change).changesOf x = db.changesOf x ++ [change] := by
  have hone : [(u.id, change)].filter (fun c => decide (c.1 = x)) = [(u.id, change)] :=
    List.filter_cons_of_pos (decide_eq_true hid)
  unfold TierDb.changesOf TierDb.saveUser
  rw [List.filter_append, hone, List.map_append]
  rfl

theorem account_quiet {c : TierCmd F} {a : c.Reply} (hc : c.touchesUser x = false)
    (h : exec c db = .ok (a, db')) : account x db' = account x db := by
  cases c with
  | saveUser u change =>
    obtain rfl : db.saveUser u change = db' := (Prod.mk.inj (Except.ok.inj h)).2
    have hne : u.id ≠ x := of_decide_eq_false hc
    have hrow : (db.saveUser u change).user x = db.user x := by
      rw [TierDb.user_saveUser]
      cases hw : db.user x with
      | none => rfl
      | some w =>
        rw [Option.map_some, UserEntity.update, if_neg]
        rw [TierDb.user_id hw]
        exact hne.symm
    have hchanges : (db.saveUser u change).changesOf x = db.changesOf x := by
      unfold TierDb.changesOf TierDb.saveUser
      rw [List.filter_append, List.filter_cons_of_neg (by simpa using hne), List.filter_nil,
        List.append_nil]
    unfold account
    rw [hrow, hchanges]
  | _ =>
    cases h
    rfl

end Effects

-- ---------------------------------------------------------------------------
-- Turns with the request
-- ---------------------------------------------------------------------------

/-- A decision on the request. -/
structure Decides (u₀ d : KycTierUpgradeEntity) : Prop where
  id : d.id = u₀.id
  userId : d.userId = u₀.userId
  requestedTier : d.requestedTier = u₀.requestedTier

/-- The grants of a request that is approved; a user there is not has none. -/
def due (u₀ : KycTierUpgradeEntity) (known : Bool) : List (UserId × String) :=
  if known then [(u₀.userId, u₀.requestedTier)] else []

/-- Pending, rejected, or approved and granted. -/
inductive Settled (u₀ : KycTierUpgradeEntity) (known : Bool) : Standing → Prop
  | pending : Settled u₀ known ⟨some u₀, [], []⟩
  | rejected (d : KycTierUpgradeEntity) (decides : Decides u₀ d) (status : d.status = .rejected) :
      Settled u₀ known ⟨some d, [d], []⟩
  | approved (d : KycTierUpgradeEntity) (decides : Decides u₀ d) (status : d.status = .approved) :
      Settled u₀ known ⟨some d, [d], due u₀ known⟩

/-- Or approved, and the grant is under way. -/
inductive Standing.Sound (u₀ : KycTierUpgradeEntity) (known : Bool) : Standing → Prop
  | settled {s : Standing} (h : Settled u₀ known s) : Sound u₀ known s
  | granting (d : KycTierUpgradeEntity) (decides : Decides u₀ d) (status : d.status = .approved) :
      Sound u₀ known ⟨some d, [d], []⟩

/-- What the decisions on a request take turns with. -/
def requestTurn (F : Type) (u₀ : KycTierUpgradeEntity) (known : Bool) :
    Turn (TierCmd F) TierCmd.Reply TierErr (TierDb F) Standing where
  exec := exec
  view := standing u₀.id
  opens := TierCmd.opensRequest u₀.id
  touches := TierCmd.touchesRequest u₀.id
  allows c failed _ := c.grants u₀.id = true → failed = false
  inv db := (db.upgrade u₀.id).isSome = true ∧ (db.user u₀.userId).isSome = known
  safe := Standing.Sound u₀ known
  rest := Settled u₀ known

theorem exec_there {q : ℕ} {c : TierCmd F} {a : c.Reply} {db db' : TierDb F}
    (h : exec c db = .ok (a, db')) (hthere : (db.upgrade q).isSome = true) :
    (db'.upgrade q).isSome = true := by
  cases c with
  | insertUpgrade userId currentTier dto =>
    obtain rfl : db.insert userId currentTier dto = db' := (Prod.mk.inj (Except.ok.inj h)).2
    obtain ⟨u, hu⟩ := Option.isSome_iff_exists.mp hthere
    unfold TierDb.upgrade TierDb.insert
    rw [List.find?_append, show db.upgrades.find? _ = some u from hu]
    rfl
  | saveUpgrade d =>
    obtain rfl : db.saveUpgrade d = db' := (Prod.mk.inj (Except.ok.inj h)).2
    rw [TierDb.upgrade_saveUpgrade, Option.isSome_map]
    exact hthere
  | _ =>
    cases h
    exact hthere

/-- No user comes or goes. -/
theorem exec_users {x : UserId} {c : TierCmd F} {a : c.Reply} {db db' : TierDb F}
    (h : exec c db = .ok (a, db')) : (db'.user x).isSome = (db.user x).isSome := by
  cases c with
  | saveUser u change =>
    obtain rfl : db.saveUser u change = db' := (Prod.mk.inj (Except.ok.inj h)).2
    rw [TierDb.user_saveUser, Option.isSome_map]
  | _ =>
    cases h
    rfl

theorem requestTurn_commands (u₀ : KycTierUpgradeEntity) (known : Bool) :
    TurnCommands (server F) (requestTurn F u₀ known) Answers where
  exec := rfl
  safe _ h := .settled h
  lookup c h := by
    cases c with
    | findUpgrade _ => rfl
    | _ => cases h
  keeps _ _ _ _ h hinv := ⟨exec_there h hinv.1, (exec_users h).trans hinv.2⟩
  quiet _ _ _ _ hc hinv h := standing_quiet hc hinv.1 h
  possible c db _ _ := exec_carried c db
  replied _ _ _ _ h := exec_answers h

section Request

variable {u₀ : KycTierUpgradeEntity} {known : Bool} {q : ℕ}

theorem request_aside {α : Type} {c : TierCmd F} {next : Except TierErr c.Reply → TierProc F α}
    (h : c.opensRequest u₀.id = false) : (requestTurn F u₀ known).Begins c next := by
  intro hopens
  have hlookup : c.opensRequest u₀.id = true := hopens
  rw [h] at hlookup
  cases hlookup

theorem approve_clear (id : ℕ) (adminId : UserId) :
    ClearOfRequest q (approve id adminId : TierProc F KycTierUpgradeEntity) := by
  unfold approve
  by_cases hid : id = q
  · exact Proc.aside_open_bind rfl (decide_eq_true hid)
  · refine Proc.aside_call_bind rfl fun found hfound => ?_
    cases found with
    | none => trivial
    | some u =>
      have hother : decide (u.id = q) = false := decide_eq_false (by rw [hfound u rfl]; exact hid)
      refine Proc.aside_rejectWhen_bind fun _ => ?_
      refine Proc.aside_call_bind rfl fun now _ => ?_
      refine Proc.aside_call_bind hother fun saved _ => ?_
      refine Proc.aside_call_bind rfl fun found _ => ?_
      cases found with
      | none => trivial
      | some user => exact Proc.aside_call_bind hother fun _ _ => trivial

theorem reject_clear (id : ℕ) (adminId : UserId) (reason : Option String) :
    ClearOfRequest q (reject id adminId reason : TierProc F KycTierUpgradeEntity) := by
  unfold reject
  by_cases hid : id = q
  · exact Proc.aside_open_bind rfl (decide_eq_true hid)
  · refine Proc.aside_call_bind rfl fun found hfound => ?_
    cases found with
    | none => trivial
    | some u =>
      have hother : decide (u.id = q) = false := decide_eq_false (by rw [hfound u rfl]; exact hid)
      refine Proc.aside_rejectWhen_bind fun _ => ?_
      refine Proc.aside_call_bind rfl fun now _ => ?_
      exact ⟨hother, fun _ => ⟨fun _ _ => trivial, fun _ => trivial⟩⟩

/-- The other calls decide nothing. -/
theorem requestUpgrade_issues {P : TierCmd F → Prop} {userId : UserId}
    {dto : RequestKycTierUpgradeDto} (hfind : P (.findUser userId .check))
    (hpending : P (.findPending userId)) (hinsert : ∀ tier, P (.insertUpgrade userId tier dto)) :
    (requestUpgrade userId dto).Issues P := by
  unfold requestUpgrade
  refine Proc.issues_bind (Proc.issues_call.mpr hfind) fun found => ?_
  cases found with
  | none => trivial
  | some user =>
    dsimp only
    split
    · trivial
    · refine Proc.issues_bind (by simp) fun _ => ?_
      refine Proc.issues_bind (Proc.issues_call.mpr hpending) fun found => ?_
      cases found with
      | none => exact Proc.issues_call.mpr (hinsert user.currentTier)
      | some u => trivial

theorem updateUser_issues {P : TierCmd F → Prop} {userId : UserId} {f : F → F}
    (hfind : P (.findUser userId .others)) (hsave : ∀ u, P (.saveUser u (.others f))) :
    (updateUser userId f).Issues P := by
  unfold updateUser
  refine Proc.issues_bind (Proc.issues_call.mpr hfind) fun found => ?_
  cases found with
  | none => trivial
  | some user => exact Proc.issues_call.mpr (hsave { user with others := f user.others })

theorem prog_clearOfRequest (k : TierCall F) : ClearOfRequest q (prog k) := by
  cases k with
  | requestUpgrade userId dto =>
    exact Proc.aside_of_issues
      (Proc.issues_bind (requestUpgrade_issues rfl rfl fun _ => rfl) fun _ => trivial)
  | approve id adminId => exact Proc.aside_bind (approve_clear id adminId) fun _ => trivial
  | reject id adminId reason => exact Proc.aside_bind (reject_clear id adminId reason) fun _ => trivial
  | updateUser userId f =>
    exact Proc.aside_of_issues (Proc.issues_bind (updateUser_issues rfl fun _ => rfl) fun _ => trivial)
  | tick ms => exact ⟨rfl, fun _ => ⟨fun _ _ => trivial, fun _ => trivial⟩⟩

abbrev RequestTurns {α : Type} (u₀ : KycTierUpgradeEntity) (known : Bool) (p : TierProc F α) : Prop :=
  p.Always Answers fun c next => (requestTurn F u₀ known).Begins c next

/-- A lookup that finds the request pending. -/
theorem pending_of_settled {db : TierDb F} {u : KycTierUpgradeEntity}
    (h : Settled u₀ known (standing u₀.id db)) (hfound : db.upgrade u₀.id = some u)
    (hpending : u.status = .pending) : standing u₀.id db = ⟨some u₀, [], []⟩ ∧ u = u₀ := by
  have hrow : (standing u₀.id db).row = some u := hfound
  generalize standing u₀.id db = s at h hrow
  cases h with
  | pending => exact ⟨rfl, (Option.some.inj hrow).symm⟩
  | rejected d _ hstatus =>
    obtain rfl := Option.some.inj hrow
    rw [hstatus] at hpending
    cases hpending
  | approved d _ hstatus =>
    obtain rfl := Option.some.inj hrow
    rw [hstatus] at hpending
    cases hpending

/-- The clock is read while the request is as it was found. -/
theorem request_now {α : Type} {k : ℕ → TierProc F α} {s : Standing} (h : Settled u₀ known s)
    (hk : ∀ now, (k now).Turns (requestTurn F u₀ known) s) :
    ((await .now).bind k).Turns (requestTurn F u₀ known) s := by
  refine Proc.turns_call_bind rfl (.settled h) (fun db now db' hinv hview _ hexec => ?_) fun _ _ _ _ => h
  have hsame : (requestTurn F u₀ known).view db' = s := by
    rw [← hview]
    exact (requestTurn_commands u₀ known).quiet .now db now db' rfl hinv hexec
  rw [hsame]
  exact hk now

/-- The decision on the pending request is saved. -/
theorem request_decide {α : Type} {d : KycTierUpgradeEntity} {k : KycTierUpgradeEntity → TierProc F α}
    (hid : d.id = u₀.id) (hk : (k d).Turns (requestTurn F u₀ known) ⟨some d, [d], []⟩) :
    ((await (.saveUpgrade d)).bind k).Turns (requestTurn F u₀ known) ⟨some u₀, [], []⟩ := by
  refine Proc.turns_call_bind rfl (.settled .pending) (fun db saved db' hinv hview _ hexec => ?_)
    fun _ _ _ _ => .pending
  obtain ⟨rfl, rfl⟩ : d = saved ∧ db.saveUpgrade d = db' := Prod.mk.inj (Except.ok.inj hexec)
  have hrow : db.upgrade u₀.id = some u₀ := congrArg Standing.row hview
  have hstored : (requestTurn F u₀ known).view (db.saveUpgrade d) = ⟨some d, [d], []⟩ := by
    refine (standing_saveUpgrade hid hrow).trans ?_
    rw [show standing u₀.id db = _ from hview]
    rfl
  rw [hstored]
  exact hk

/-- The approved request is granted; nothing of that fails. -/
theorem grant_turns {d : KycTierUpgradeEntity} (hdecides : Decides u₀ d) (hstatus : d.status = .approved) :
    ((await (.findUser u₀.userId (.grant u₀.id))).bind fun found =>
      match found with
      | none => Proc.done (.ok d)
      | some user => (await (.saveUser { user with kycTier := some u₀.requestedTier }
          (.grant u₀.id u₀.requestedTier))).bind fun _ => Proc.done (.ok d)).Turns
      (requestTurn F u₀ known) ⟨some d, [d], []⟩ := by
  refine Proc.turns_call_bind rfl (.granting d hdecides hstatus)
    (fun db found db' hinv hview _ hexec => ?_) fun db _ _ hallows => ?_
  · have hsame : (requestTurn F u₀ known).view db' = ⟨some d, [d], []⟩ := by
      rw [← hview]
      exact (requestTurn_commands u₀ known).quiet _ db found db' rfl hinv hexec
    rw [hsame]
    obtain rfl : db.user u₀.userId = found := (Prod.mk.inj (Except.ok.inj hexec)).1
    have hknown := hinv.2
    cases huser : db.user u₀.userId with
    | none =>
      obtain rfl : false = known := by rw [← hknown, huser]; rfl
      exact .approved d hdecides hstatus
    | some user =>
      obtain rfl : true = known := by rw [← hknown, huser]; rfl
      refine Proc.turns_call_bind rfl (.granting d hdecides hstatus)
        (fun db₁ _ db₂ _ hview₁ _ hexec₁ => ?_) fun _ _ _ hallows => ?_
      · obtain rfl : db₁.saveUser { user with kycTier := some u₀.requestedTier }
            (.grant u₀.id u₀.requestedTier) = db₂ := (Prod.mk.inj (Except.ok.inj hexec₁)).2
        have hgranted : (requestTurn F u₀ true).view (db₁.saveUser
            { user with kycTier := some u₀.requestedTier } (.grant u₀.id u₀.requestedTier)) =
              ⟨some d, [d], [(u₀.userId, u₀.requestedTier)]⟩ := by
          refine (standing_grant _ _).trans ?_
          rw [show standing u₀.id db₁ = _ from hview₁, ← TierDb.user_id huser]
          rfl
        rw [hgranted]
        exact .approved d hdecides hstatus
      · exact absurd (hallows (decide_eq_true rfl)) Bool.noConfusion
  · exact absurd (hallows (decide_eq_true rfl)) Bool.noConfusion

/-- **The turn of an approval.** -/
theorem approve_turns (id : ℕ) (adminId : UserId) :
    RequestTurns u₀ known (approve id adminId : TierProc F KycTierUpgradeEntity) := by
  unfold approve
  simp only [Proc.bind_eq]
  refine Proc.always_call_bind ?_ fun found _ => ?_
  · intro hopens db hinv hrest
    obtain rfl : id = u₀.id := of_decide_eq_true hopens
    refine ⟨fun found db' hexec => ?_, fun e => hrest⟩
    obtain rfl : db.upgrade u₀.id = found := (Prod.mk.inj (Except.ok.inj hexec)).1
    cases hfound : db.upgrade u₀.id with
    | none => exact hrest
    | some u =>
      refine Proc.turns_rejectWhen_bind (fun _ => hrest) fun hstatus => ?_
      obtain ⟨hview, rfl⟩ := pending_of_settled hrest hfound (not_not.mp hstatus)
      show Proc.Turns _ _ (standing u.id db)
      rw [hview]
      refine request_now .pending fun now => ?_
      refine request_decide rfl ?_
      exact grant_turns ⟨rfl, rfl, rfl⟩ rfl
  · cases found with
    | none => exact .done _
    | some u =>
      refine Proc.always_rejectWhen_bind fun _ => ?_
      refine Proc.always_call_bind (request_aside rfl) fun now _ => ?_
      refine Proc.always_call_bind (request_aside rfl) fun saved _ => ?_
      refine Proc.always_call_bind (request_aside rfl) fun found _ => ?_
      cases found with
      | none => exact .done _
      | some user => exact Proc.always_call_bind (request_aside rfl) fun _ _ => .done _

theorem reject_turns (id : ℕ) (adminId : UserId) (reason : Option String) :
    RequestTurns u₀ known (reject id adminId reason : TierProc F KycTierUpgradeEntity) := by
  unfold reject
  simp only [Proc.bind_eq]
  refine Proc.always_call_bind ?_ fun found _ => ?_
  · intro hopens db hinv hrest
    obtain rfl : id = u₀.id := of_decide_eq_true hopens
    refine ⟨fun found db' hexec => ?_, fun e => hrest⟩
    obtain rfl : db.upgrade u₀.id = found := (Prod.mk.inj (Except.ok.inj hexec)).1
    cases hfound : db.upgrade u₀.id with
    | none => exact hrest
    | some u =>
      refine Proc.turns_rejectWhen_bind (fun _ => hrest) fun hstatus => ?_
      obtain ⟨hview, rfl⟩ := pending_of_settled hrest hfound (not_not.mp hstatus)
      show Proc.Turns _ _ (standing u.id db)
      rw [hview]
      refine request_now .pending fun now => ?_
      rw [← Proc.bind_return (await _)]
      exact request_decide rfl (.rejected _ ⟨rfl, rfl, rfl⟩ rfl)
  · cases found with
    | none => exact .done _
    | some u =>
      refine Proc.always_rejectWhen_bind fun _ => ?_
      refine Proc.always_call_bind (request_aside rfl) fun now _ => ?_
      exact .await (request_aside rfl) (fun _ _ => .done _) fun _ => .done _

theorem prog_requestTurns (k : TierCall F) : RequestTurns u₀ known (prog k) := by
  cases k with
  | requestUpgrade userId dto =>
    refine Proc.always_of_issues (P := fun c => c.opensRequest u₀.id = false)
      (fun c next hc => request_aside hc) ?_
    exact Proc.issues_bind (requestUpgrade_issues rfl rfl fun _ => rfl) fun _ => trivial
  | approve id adminId => exact Proc.begins_bind_done _ (approve_turns id adminId)
  | reject id adminId reason => exact Proc.begins_bind_done _ (reject_turns id adminId reason)
  | updateUser userId f =>
    refine Proc.always_of_issues (P := fun c => c.opensRequest u₀.id = false)
      (fun c next hc => request_aside hc) ?_
    exact Proc.issues_bind (updateUser_issues rfl fun _ => rfl) fun _ => trivial
  | tick ms => exact .await (request_aside rfl) (fun _ _ => .done _) fun _ => .done _

theorem requestTurn_takes (x : UserId) :
    TakesTurns (server F) (inTurn u₀.id x) (requestTurn F u₀ known) Answers where
  toTurnCommands := requestTurn_commands u₀ known
  prog _ := prog_requestTurns
  fresh _ := prog_clearOfRequest
  allows _ _ _ _ _ hD := hD.carried
  alone _ _ _ _ hD := hD.request

end Request

-- ---------------------------------------------------------------------------
-- Turns with the row of the user
-- ---------------------------------------------------------------------------

/-- The tiers granted for the request are below the tier of the row, or it. -/
def Raised (q : ℕ) (w : UserEntity F) (changes : List (UserChange F)) : Prop :=
  ∀ c ∈ changes, ∀ tier, c.grants q = some tier →
    w.kycTier = some tier ∨ level tier < level w.currentTier

/-- All changes are in force. -/
def InForce (q : ℕ) (w₀ : UserEntity F) (a : Account F) : Prop :=
  a.row = some (w₀.after a.changes) ∧ Raised q (w₀.after a.changes) a.changes

/-- A change that may be saved: after the grant of the request, only a higher tier. -/
def UserChange.MayFollow (q : ℕ) (x : UserId) (db : TierDb F) : UserChange F → Prop
  | .grant _ tier => db.grantsOf q ≠ [] → ∀ w, db.user x = some w → level w.currentTier < level tier
  | .others _ => True

/-- What the changes of a user take turns with. -/
def accountTurn (q : ℕ) (w₀ : UserEntity F) :
    Turn (TierCmd F) TierCmd.Reply TierErr (TierDb F) (Account F) where
  exec := exec
  view := account w₀.id
  opens := TierCmd.opensUser w₀.id
  touches := TierCmd.touchesUser w₀.id
  allows c _ db := ∀ u change, c = .saveUser u change → u.id = w₀.id →
    change.MayFollow q w₀.id db
  inv _ := True
  safe := InForce q w₀
  rest := InForce q w₀

theorem accountTurn_commands (q : ℕ) (w₀ : UserEntity F) :
    TurnCommands (server F) (accountTurn q w₀) Answers where
  exec := rfl
  safe _ h := h
  lookup c h := by
    cases c with
    | findUser _ _ => rfl
    | _ => cases h
  keeps _ _ _ _ _ hinv := hinv
  quiet _ _ _ _ hc _ h := account_quiet hc h
  possible c db hc := by
    rintro u change rfl hid
    exact absurd hid (of_decide_eq_false hc)
  replied _ _ _ _ h := exec_answers h

section User

variable {q : ℕ} {w₀ : UserEntity F} {x : UserId}

theorem account_aside {α : Type} {c : TierCmd F} {next : Except TierErr c.Reply → TierProc F α}
    (h : c.opensUser w₀.id = false) : (accountTurn q w₀).Begins c next := by
  intro hopens
  have hlookup : c.opensUser w₀.id = true := hopens
  rw [h] at hlookup
  cases hlookup

/-- A change of a row all of whose changes are in force. -/
theorem InForce.change {db : TierDb F} {c : UserChange F} {u : UserEntity F}
    (h : InForce q w₀ (account w₀.id db)) (hrow : db.user w₀.id = some u)
    (hmay : c.MayFollow q w₀.id db) : InForce q w₀ (account w₀.id (db.saveUser (c.apply u) c)) := by
  have hid : (c.apply u).id = w₀.id := (c.apply_id u).trans (TierDb.user_id hrow)
  have hold : db.user w₀.id = some (w₀.after (db.changesOf w₀.id)) := h.1
  obtain rfl : u = w₀.after (db.changesOf w₀.id) := Option.some.inj (hrow.symm.trans hold)
  have hafter : w₀.after (db.changesOf w₀.id ++ [c]) = c.apply (w₀.after (db.changesOf w₀.id)) :=
    List.foldl_concat ..
  have hchanges : (db.saveUser (c.apply (w₀.after (db.changesOf w₀.id))) c).changesOf w₀.id =
      db.changesOf w₀.id ++ [c] := db.changesOf_saveUser c hid
  have hstored : (db.saveUser (c.apply (w₀.after (db.changesOf w₀.id))) c).user w₀.id =
      some (c.apply (w₀.after (db.changesOf w₀.id))) := by
    rw [TierDb.user_saveUser, hrow, Option.map_some, UserEntity.update,
      if_pos ((TierDb.user_id hrow).trans hid.symm)]
  unfold account
  rw [hchanges, hstored]
  refine ⟨congrArg some hafter.symm, ?_⟩
  show Raised q (w₀.after (db.changesOf w₀.id ++ [c])) (db.changesOf w₀.id ++ [c])
  rw [hafter]
  intro c' hc' tier htier
  rcases List.mem_append.mp hc' with hbefore | hnew
  · have hbelow := h.2 c' hbefore tier htier
    cases c with
    | others f => exact hbelow
    | grant id t =>
      -- the request was granted before
      have hgranted : db.grantsOf q ≠ [] := by
        obtain ⟨y, hy, rfl⟩ := List.mem_map.mp hbefore
        have hmem : (y.1, tier) ∈ db.grantsOf q :=
          List.mem_filterMap.mpr ⟨y, List.mem_of_mem_filter hy, by rw [htier]; rfl⟩
        intro hnil
        rw [hnil] at hmem
        cases hmem
      have hhigher : level (w₀.after (db.changesOf w₀.id)).currentTier < level t :=
        hmay hgranted _ hrow
      refine Or.inr ?_
      show level tier < level t
      rcases hbelow with hsame | hlower
      · have hcurrent : (w₀.after (db.changesOf w₀.id)).currentTier = tier := by
          have hkyc : (w₀.after (db.changesOf w₀.id)).kycTier = some tier := hsame
          rw [UserEntity.currentTier, hkyc]
          rfl
        rw [← hcurrent]
        exact hhigher
      · exact lt_trans hlower hhigher
  · obtain rfl := List.mem_singleton.mp hnew
    cases c' with
    | others f => cases htier
    | grant id t =>
      refine Or.inl ?_
      show some t = some tier
      have hgrants : (if id = q then some t else none) = some tier := htier
      split at hgrants
      · exact hgrants
      · cases hgrants

/-- **The turn of a change**: the row is looked up and saved. -/
theorem change_turns {α : Type} {purpose : Purpose} {userId : UserId} {c : UserChange F}
    {k : Option (UserEntity F) → TierProc F α} {r : Except TierErr α} {last : TierProc F α}
    (hnone : k none = .done r)
    (hsome : ∀ u, k (some u) = (await (.saveUser (c.apply u) c)).bind fun _ => last)
    (hlast : last = .done r) :
    (accountTurn q w₀).Begins (.findUser userId purpose) fun found => (Proc.done found).bind k := by
  intro hopens db _ hrest
  obtain rfl : userId = w₀.id := by
    cases purpose with
    | check => cases hopens
    | grant id => exact of_decide_eq_true hopens
    | others => exact of_decide_eq_true hopens
  refine ⟨fun found db' hexec => ?_, fun e => hrest⟩
  obtain rfl : db.user w₀.id = found := (Prod.mk.inj (Except.ok.inj hexec)).1
  show (k (db.user w₀.id)).Turns _ _
  cases huser : db.user w₀.id with
  | none =>
    rw [hnone]
    exact hrest
  | some u =>
    rw [hsome]
    refine Proc.turns_call_bind rfl hrest (fun db₁ _ db₂ _ hview hallows hexec₁ => ?_) fun _ _ _ _ => hrest
    obtain rfl : db₁.saveUser (c.apply u) c = db₂ := (Prod.mk.inj (Except.ok.inj hexec₁)).2
    have hsame : account w₀.id db₁ = account w₀.id db := hview
    have hrow : db₁.user w₀.id = some u := (congrArg Account.row hsame).trans huser
    have hforce : InForce q w₀ (account w₀.id db₁) := hsame ▸ hrest
    have hmay := hallows _ c rfl ((c.apply_id u).trans (TierDb.user_id hrow))
    rw [hlast]
    exact hforce.change hrow hmay

theorem approve_clearOfUser (id : ℕ) (adminId : UserId) :
    ClearOfUser x (approve id adminId : TierProc F KycTierUpgradeEntity) := by
  unfold approve
  refine Proc.aside_call_bind rfl fun found _ => ?_
  cases found with
  | none => trivial
  | some u =>
    refine Proc.aside_rejectWhen_bind fun _ => ?_
    refine Proc.aside_call_bind rfl fun now _ => ?_
    refine Proc.aside_call_bind rfl fun saved _ => ?_
    by_cases hu : u.userId = x
    · exact Proc.aside_open_bind rfl (decide_eq_true hu)
    · refine Proc.aside_call_bind rfl fun found hfound => ?_
      cases found with
      | none => trivial
      | some user =>
        have hother : decide (user.id = x) = false := decide_eq_false (by rw [hfound user rfl]; exact hu)
        exact Proc.aside_call_bind hother fun _ _ => trivial

theorem updateUser_clearOfUser (userId : UserId) (f : F → F) : ClearOfUser x (updateUser userId f) := by
  unfold updateUser
  by_cases hu : userId = x
  · exact Proc.aside_open_bind rfl (decide_eq_true hu)
  · refine Proc.aside_call_bind rfl fun found hfound => ?_
    cases found with
    | none => trivial
    | some user =>
      have hother : decide (user.id = x) = false := decide_eq_false (by rw [hfound user rfl]; exact hu)
      exact ⟨hother, fun _ => ⟨fun _ _ => trivial, fun _ => trivial⟩⟩

/-- A rejection has no part in the user. -/
theorem reject_issues {P : TierCmd F → Prop} {id : ℕ} {adminId : UserId} {reason : Option String}
    (hfind : P (.findUpgrade id)) (hnow : P .now) (hsave : ∀ u, P (.saveUpgrade u)) :
    (reject id adminId reason).Issues P := by
  unfold reject
  refine Proc.issues_bind (Proc.issues_call.mpr hfind) fun found => ?_
  cases found with
  | none => trivial
  | some u =>
    refine Proc.issues_bind (by simp) fun _ => ?_
    exact Proc.issues_bind (Proc.issues_call.mpr hnow) fun now => Proc.issues_call.mpr (hsave _)

theorem prog_clearOfUser (k : TierCall F) : ClearOfUser x (prog k) := by
  cases k with
  | requestUpgrade userId dto =>
    exact Proc.aside_of_issues
      (Proc.issues_bind (requestUpgrade_issues rfl rfl fun _ => rfl) fun _ => trivial)
  | approve id adminId => exact Proc.aside_bind (approve_clearOfUser id adminId) fun _ => trivial
  | reject id adminId reason =>
    exact Proc.aside_of_issues
      (Proc.issues_bind (reject_issues rfl rfl fun _ => rfl) fun _ => trivial)
  | updateUser userId f => exact Proc.aside_bind (updateUser_clearOfUser userId f) fun _ => trivial
  | tick ms => exact ⟨rfl, fun _ => ⟨fun _ _ => trivial, fun _ => trivial⟩⟩

abbrev AccountTurns {α : Type} (q : ℕ) (w₀ : UserEntity F) (p : TierProc F α) : Prop :=
  p.Always Answers fun c next => (accountTurn q w₀).Begins c next

theorem prog_accountTurns (k : TierCall F) : AccountTurns q w₀ (prog k) := by
  cases k with
  | requestUpgrade userId dto =>
    refine Proc.always_of_issues (P := fun c => c.opensUser w₀.id = false)
      (fun c next hc => account_aside hc) ?_
    exact Proc.issues_bind (requestUpgrade_issues rfl rfl fun _ => rfl) fun _ => trivial
  | approve id adminId =>
    refine Proc.begins_bind_done _ ?_
    unfold approve
    simp only [Proc.bind_eq]
    refine Proc.always_call_bind (account_aside rfl) fun found _ => ?_
    cases found with
    | none => exact .done _
    | some u =>
      refine Proc.always_rejectWhen_bind fun _ => ?_
      refine Proc.always_call_bind (account_aside rfl) fun now _ => ?_
      refine Proc.always_call_bind (account_aside rfl) fun saved _ => ?_
      refine Proc.always_call_bind (change_turns (c := .grant u.id u.requestedTier) rfl (fun _ => rfl) rfl)
        fun found _ => ?_
      cases found with
      | none => exact .done _
      | some user => exact Proc.always_call_bind (account_aside rfl) fun _ _ => .done _
  | reject id adminId reason =>
    refine Proc.always_of_issues (P := fun c => c.opensUser w₀.id = false)
      (fun c next hc => account_aside hc) ?_
    exact Proc.issues_bind (reject_issues rfl rfl fun _ => rfl) fun _ => trivial
  | updateUser userId f =>
    refine Proc.begins_bind_done _ ?_
    unfold updateUser
    simp only [Proc.bind_eq]
    refine Proc.always_call_bind (change_turns (c := .others f) rfl
      (fun _ => (Proc.bind_return _).symm) rfl) fun found _ => ?_
    cases found with
    | none => exact .done _
    | some user => exact .await (account_aside rfl) (fun _ _ => .done _) fun _ => .done _
  | tick ms => exact .await (account_aside rfl) (fun _ _ => .done _) fun _ => .done _

theorem accountTurn_takes (q : ℕ) (w₀ : UserEntity F) :
    TakesTurns (server F) (inTurn q w₀.id) (accountTurn q w₀) Answers where
  toTurnCommands := accountTurn_commands q w₀
  prog _ := prog_accountTurns
  fresh _ := prog_clearOfUser
  allows cfg th c fault _ hD := by
    intro u change hc hid
    cases change with
    | grant id tier => exact hD.raises u id tier hc hid
    | others f => trivial
  alone _ _ _ _ hD := hD.user

end User

-- ---------------------------------------------------------------------------
-- The tier and the decision
-- ---------------------------------------------------------------------------

/-- What can be read off at any time. -/
theorem Standing.Sound.read {u₀ : KycTierUpgradeEntity} {known : Bool} {s : Standing}
    (h : s.Sound u₀ known) : ∃ d, s.row = some d ∧ d.userId = u₀.userId ∧
      d.requestedTier = u₀.requestedTier ∧ s.saved.length ≤ 1 ∧ (d.status ≠ .approved → s.grants = []) := by
  cases h with
  | granting d hdecides hstatus =>
    exact ⟨d, rfl, hdecides.userId, hdecides.requestedTier, le_rfl, fun _ => rfl⟩
  | settled h =>
    cases h with
    | pending => exact ⟨u₀, rfl, rfl, rfl, Nat.zero_le _, fun _ => rfl⟩
    | rejected d hdecides hstatus =>
      exact ⟨d, rfl, hdecides.userId, hdecides.requestedTier, le_rfl, fun _ => rfl⟩
    | approved d hdecides hstatus =>
      exact ⟨d, rfl, hdecides.userId, hdecides.requestedTier, le_rfl, fun hnot => absurd hstatus hnot⟩

theorem Settled.granted {u₀ d : KycTierUpgradeEntity} {known : Bool} {s : Standing}
    (h : Settled u₀ known s) (hpending : u₀.status = .pending) (hrow : s.row = some d)
    (happroved : d.status = .approved) : s.grants = due u₀ known := by
  cases h with
  | pending =>
    obtain rfl := Option.some.inj hrow
    rw [hpending] at happroved
    cases happroved
  | rejected d' _ hstatus =>
    obtain rfl := Option.some.inj hrow
    rw [hstatus] at happroved
    cases happroved
  | approved d' _ _ => rfl

/-- **The tier agrees with the decision.** -/
theorem tier_agrees {u₀ : KycTierUpgradeEntity} {db₀ : TierDb F} {cfg : TierConfig F}
    (hrow : db₀.upgrade u₀.id = some u₀) (hpending : u₀.status = .pending)
    (hdecisions : db₀.decisions = []) (hchanges : db₀.changes = [])
    (h : Reach (server F) (inTurn u₀.id u₀.userId) ⟨db₀, []⟩ cfg) :
    Agrees u₀.id u₀ db₀ cfg := by
  have hinv : (requestTurn F u₀ (db₀.user u₀.userId).isSome).inv db₀ := by
    refine ⟨?_, rfl⟩
    rw [hrow]
    rfl
  have hrest : (requestTurn F u₀ (db₀.user u₀.userId).isSome).rest (standing u₀.id db₀) := by
    have hstart : standing u₀.id db₀ = ⟨some u₀, [], []⟩ := by
      unfold standing TierDb.grantsOf
      rw [hrow, hdecisions, hchanges]
      rfl
    rw [hstart]
    exact .pending
  have hknown := ((requestTurn_takes u₀.userId).taken rfl hinv hrest h).1.2
  obtain ⟨hsound, hsettled⟩ := h.turns (requestTurn_takes u₀.userId) rfl hinv hrest
  -- the changes of the user, when there is one
  have haccount : ∀ w₀, db₀.user u₀.userId = some w₀ →
      InForce u₀.id w₀ (account u₀.userId cfg.state) := by
    intro w₀ hw₀
    have hid : w₀.id = u₀.userId := TierDb.user_id hw₀
    rw [← hid] at h hw₀ ⊢
    have hstart : account w₀.id db₀ = ⟨some w₀, []⟩ := by
      unfold account TierDb.changesOf
      rw [hw₀, hchanges]
      rfl
    refine (h.turns (accountTurn_takes u₀.id w₀) rfl trivial ?_).1
    show InForce u₀.id w₀ (account w₀.id db₀)
    rw [hstart]
    exact ⟨rfl, fun c hc => by cases hc⟩
  obtain ⟨d, hd, huser, htier, honce, hnone⟩ := hsound.read
  have hstored : cfg.state.upgrade u₀.id = some d := hd
  refine ⟨⟨d, hstored, huser, htier⟩, honce, fun d' hd' hstatus => ?_,
    fun d' hd' hstatus haside w hw => ?_, fun w₀ hw₀ => (haccount w₀ hw₀).1⟩
  · obtain rfl := Option.some.inj (hstored.symm.trans hd')
    exact hnone hstatus
  · obtain ⟨w₀, hw₀⟩ : ∃ w₀, db₀.user u₀.userId = some w₀ := by
      refine Option.isSome_iff_exists.mp ?_
      rw [← hknown, hw]
      rfl
    have hgrants : cfg.state.grantsOf u₀.id = [(u₀.userId, u₀.requestedTier)] := by
      have hdue := (hsettled haside).granted hpending hd' hstatus
      rw [hw₀] at hdue
      exact hdue
    refine ⟨hgrants, ?_⟩
    obtain ⟨hforce, hraised⟩ := haccount w₀ hw₀
    have hcurrent : w = w₀.after (cfg.state.changesOf u₀.userId) :=
      Option.some.inj (hw.symm.trans hforce)
    -- the grant is among the changes of the user
    have hmem : (u₀.userId, u₀.requestedTier) ∈ cfg.state.grantsOf u₀.id := by
      rw [hgrants]
      exact List.mem_singleton_self _
    obtain ⟨c, hc, hgrant⟩ := List.mem_filterMap.mp hmem
    obtain ⟨tier, hc', heq⟩ := Option.map_eq_some_iff.mp hgrant
    obtain ⟨hcuser, rfl⟩ := Prod.mk.inj heq
    rw [hcurrent]
    exact hraised c.2 (List.mem_map.mpr ⟨c, List.mem_filter.mpr ⟨hc, decide_eq_true hcuser⟩, rfl⟩)
      _ hc'

-- ---------------------------------------------------------------------------
-- Runs
-- ---------------------------------------------------------------------------

/-- A user of the first tier asks for the third. -/
def verification : KycTierUpgradeEntity := ⟨1, 1, "BASIC", "VERIFIED", [], .pending, none, none⟩

def oneRequest : TierDb ℕ where
  users := [⟨1, some "BASIC", 0⟩]
  upgrades := [verification]
  keyed := by decide
  now := 0
  decisions := []
  changes := []

/-- Every other call has ended or is at a lookup. -/
def othersAt (opens : TierCmd F → Bool) (cfg : TierConfig F) (th : TierThread F) : Bool :=
  cfg.threads.all fun thj => decide (thj.id = th.id) || thj.proc.waitsOn.all opens

/-- What `raises` asks. -/
def mayRaise (q : ℕ) (x : UserId) (db : TierDb F) : TierCmd F → Bool
  | .saveUser u (.grant _ tier) => decide (u.id ≠ x) || (db.grantsOf q).isEmpty ||
      (db.user x).all fun w => decide (level w.currentTier < level tier)
  | _ => true

def inTurnStep (q : ℕ) (x : UserId) (cfg : TierConfig F) (th : TierThread F) (c : TierCmd F)
    (failed : Bool) : Bool :=
  (!c.opensRequest q || othersAt (TierCmd.opensRequest q) cfg th) && (!c.grants q || !failed) &&
    (!c.opensUser x || othersAt (TierCmd.opensUser x) cfg th) && mayRaise q x cfg.state c

theorem aside_of_othersAt {opens touches : TierCmd F → Bool} {cfg : TierConfig F} {th : TierThread F}
    (hopens : ∀ c, opens c = true → touches c = false) (h : othersAt opens cfg th = true) (j : ℕ)
    (thj : TierThread F) (hthj : cfg.thread j = some thj) (hj : j ≠ th.id) :
    thj.proc.Aside touches opens Answers := by
  have hhere := List.all_eq_true.mp h thj (Table.mem_of_get _ hthj)
  rw [Bool.or_eq_true, decide_eq_true_eq] at hhere
  refine Proc.aside_of_waitsOn (hhere.resolve_left fun hid => hj ?_) hopens
  rw [← hid]
  exact (Config.id_of_thread hthj).symm

theorem inTurn_of_step {q : ℕ} {x : UserId} {cfg : TierConfig F} {th : TierThread F} {c : TierCmd F}
    {failed : Bool} (h : inTurnStep q x cfg th c failed = true) : InTurn q x cfg th c failed := by
  unfold inTurnStep at h
  simp only [Bool.and_eq_true, Bool.or_eq_true, Bool.not_eq_true'] at h
  obtain ⟨⟨⟨hrequest, hcarried⟩, huser⟩, hraises⟩ := h
  refine ⟨fun hopens j thj hthj hj => ?_, fun hgrants => ?_, fun hopens j thj hthj hj => ?_, ?_⟩
  · refine aside_of_othersAt (fun c hc => ?_) (hrequest.resolve_left (by simp [hopens])) j thj hthj hj
    cases c with
    | findUpgrade _ => rfl
    | _ => cases hc
  · exact hcarried.resolve_left (by simp [hgrants])
  · refine aside_of_othersAt (fun c hc => ?_) (huser.resolve_left (by simp [hopens])) j thj hthj hj
    cases c with
    | findUser _ _ => rfl
    | _ => cases hc
  · rintro u id tier rfl hid hgranted w hw
    have hraised : (decide (u.id ≠ x) || (cfg.state.grantsOf q).isEmpty ||
        (cfg.state.user x).all fun w => decide (level w.currentTier < level tier)) = true := hraises
    rw [hw] at hraised
    simpa [hid, hgranted] using hraised

def steps (i n : ℕ) : List (Event (TierCall ℕ) TierErr) := List.replicate n (.step i none)

/-- The request is approved; another service changes the user after that. -/
def approving : List (Event (TierCall ℕ) TierErr) :=
  [.call 0 (.approve 1 9)] ++ steps 0 1 ++ [.call 1 (.updateUser 1 fun n => n + 1)] ++ steps 0 4 ++
    steps 1 2

theorem tier_agrees_approved : ∃ cfg,
    Reach (server ℕ) (inTurn 1 1) ⟨oneRequest, []⟩ cfg ∧
    (cfg.state.user 1).map (fun w => (w.kycTier, w.others)) = some (some "VERIFIED", 1) ∧
    Agrees 1 verification oneRequest cfg := by
  have hrun : ((server ℕ).runChecked (inTurnStep 1 1) ⟨oneRequest, []⟩ approving).map
      (fun cfg => (cfg.state.user 1).map fun w => (w.kycTier, w.others)) =
      some (some (some "VERIFIED", 1)) := by decide +kernel
  obtain ⟨cfg, hcfg, huser⟩ := Option.map_eq_some_iff.mp hrun
  have h : Reach (server ℕ) (inTurn 1 1) ⟨oneRequest, []⟩ cfg :=
    Reach.refl.of_runChecked (fun _ _ _ _ => trivial) (fun _ _ _ _ => inTurn_of_step) hcfg
  have hrow : oneRequest.upgrade verification.id = some verification := rfl
  exact ⟨cfg, h, huser, tier_agrees hrow rfl rfl rfl h⟩

/-- The save of the user fails. -/
def notGranted : List (Event (TierCall ℕ) TierErr) :=
  [.call 0 (.approve 1 9)] ++ steps 0 4 ++ [.step 0 (some (.fault "Connection terminated"))]

/-- An approval and a rejection load the pending request; the approval goes first. -/
def bothDecide : List (Event (TierCall ℕ) TierErr) :=
  [.call 0 (.approve 1 9), .call 1 (.reject 1 8 none)] ++ steps 0 1 ++ steps 1 1 ++ steps 0 4 ++
    steps 1 2

/-- The approval loads the user before another service saves the row. -/
def overwritten : List (Event (TierCall ℕ) TierErr) :=
  [.call 0 (.approve 1 9), .call 1 (.updateUser 1 fun n => n + 1)] ++ steps 0 4 ++ steps 1 2 ++
    steps 0 1

def ended (cfg : TierConfig ℕ) : Bool := cfg.threads.all fun th => th.proc.waitsOn.isNone

/-- Approved and not granted; granted and rejected; and a change of the user lost
whose call returned. -/
theorem decision_without_tier :
    (∃ cfg, Reach (server ℕ) .free ⟨oneRequest, []⟩ cfg ∧ ended cfg = true ∧
      (cfg.state.upgrade 1).map KycTierUpgradeEntity.status = some .approved ∧
      (cfg.state.user 1).map UserEntity.kycTier = some (some "BASIC")) ∧
    (∃ cfg, Reach (server ℕ) .free ⟨oneRequest, []⟩ cfg ∧ ended cfg = true ∧
      (cfg.state.upgrade 1).map KycTierUpgradeEntity.status = some .rejected ∧
      (cfg.state.user 1).map UserEntity.kycTier = some (some "VERIFIED")) ∧
    (∃ cfg, Reach (server ℕ) .free ⟨oneRequest, []⟩ cfg ∧ ended cfg = true ∧
      (cfg.thread 1).bind (fun th => th.proc.returned) = some none ∧
      (cfg.state.user 1).map UserEntity.others = some 0) := by
  refine ⟨⟨_, Reach.refl.play notGranted, ?_, ?_, ?_⟩, ⟨_, Reach.refl.play bothDecide, ?_, ?_, ?_⟩,
    ⟨_, Reach.refl.play overwritten, ?_, ?_, ?_⟩⟩ <;> decide +kernel

end KycTiers

end NexaFx
