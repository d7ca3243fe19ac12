import NexaFx.Lib.Exclusive
import NexaFx.Lib.Growth
import NexaFx.Lib.Overlap
import NexaFx.Model.ActiveRecords

/-!
# NexaFx — records that are on or off

Account freezes, deactivations and federation addresses, with all calls of a
service interleaved at every await and any of the awaits failing.

* `active_at_most` — a key has no more active records than there are calls at
  once that create one for it: one, when they never overlap;
* `records_final` — a record stays, under its key; while it is active it is as
  it was created, and once it is off it is off for good.
-/

namespace NexaFx

open Async Proc

namespace Active

variable {K κ δ : Type} [DecidableEq κ]

-- ---------------------------------------------------------------------------
-- What the services have in common
-- ---------------------------------------------------------------------------

/-- A call that is about to insert a record. -/
def clear {α : Type} (p : Proc (Cmd κ δ) Cmd.Reply Err α) : Bool :=
  match p.waitsOn with
  | some .now => true
  | some (.insert _) => true
  | _ => false

/-- What a call does that may open a record for `opens`. -/
def Follows {α : Type} (opens : Option κ) : (c : Cmd κ δ) →
    (Except Err c.Reply → Proc (Cmd κ δ) Cmd.Reply Err α) → Prop
  | .findActive key, next => ∀ k, opens = some k → (k = key ∧ ∀ r, clear (next r) = true →
      r = .ok none)
  | .findOwned _ _, _ => opens = none
  | .insert row, next => opens = some row.key ∧ ∀ r, clear (next r) = false
  | .save row, _ => opens = none ∧ row.isActive = false
  | .tick _, _ => opens = none
  | .now, _ => True

/-- The row is as it was, or off under its key. -/
def Row.Follows (r r' : Row κ δ) : Prop :=
  r'.key = r.key ∧ r'.userId = r.userId ∧ (r'.isActive = true → r' = r)

/-- Rows stay, and go one way only. -/
def Kept (db db' : ActiveDb κ δ) : Prop :=
  ∀ id r, db.row id = some r → ∃ r', db'.row id = some r' ∧ r.Follows r'

/-- A service over a table of records. -/
structure Service (K κ δ : Type) [DecidableEq κ] where
  prog : ℕ → K → ActiveProc κ δ (Answer κ δ)
  /-- The key that a call may open a record for. -/
  opens : K → Option κ
  starts : ∀ i k, clear (prog i k) = false
  follows : ∀ i k, (prog i k).Always (fun _ _ => True) fun c next => Active.Follows (opens k) c next
  grows : ∀ i k db, (prog i k).Grows exec Kept db

namespace Service

variable (A : Service K κ δ)

/-- The call may open a record for the key. -/
def contends (key : κ) (k : K) : Bool := decide (A.opens k = some key)

/-- At most `n` calls at once that may open a record for one key. -/
def atMost (n : ℕ) : Discipline K (Cmd κ δ) Cmd.Reply Err (ActiveDb κ δ) (Answer κ δ) where
  onCall cfg _ k := ∀ key, A.contends key k = true → cfg.underWay (A.contends key) < n
  onStep _ _ _ _ := True

end Service

-- ---------------------------------------------------------------------------
-- How many records are active
-- ---------------------------------------------------------------------------

section Counts

variable {db : ActiveDb κ δ} {row : Row κ δ}

/-- Nothing is found where nothing is active. -/
theorem active_of_findActive {key : κ} (h : db.findActive key = none) : db.active key = 0 := by
  rw [ActiveDb.findActive, List.find?_eq_none] at h
  exact List.countP_eq_zero.mpr h

theorem active_insert (h : db.row row.id = none) (key : κ) : (db.put row).active key =
    db.active key + if row.key = key ∧ row.isActive = true then 1 else 0 := by
  rw [ActiveDb.active, ActiveDb.put, Table.countP_put_new Row.id _ h, ← ActiveDb.active]
  simp only [decide_eq_true_eq]

theorem active_save (h : row.isActive = false) (key : κ) :
    (db.put row).active key ≤ db.active key := by
  cases hrow : db.row row.id with
  | none =>
    rw [active_insert hrow, if_neg fun hon => by rw [h] at hon; cases hon.2]
    exact le_refl _
  | some old =>
    have hcount : (db.put row).active key +
        (if decide (old.key = key ∧ old.isActive = true) = true then 1 else 0) =
        db.active key + if decide (row.key = key ∧ row.isActive = true) = true then 1 else 0 :=
      Table.countP_put_old Row.id _ hrow
    simp only [h, Bool.false_eq_true, and_false, decide_false, if_false] at hcount
    omega

end Counts

section Steps

variable (A : Service K κ δ) {key : κ} {k : K} {c : Cmd κ δ}
  {next : Except Err c.Reply → ActiveProc κ δ (Answer κ δ)} {db db' : ActiveDb κ δ}

/-- A failed await takes nothing, and does not show the key free. -/
theorem clear_of_error (hfollows : Follows (A.opens k) c next) (e : Err)
    (hclear : (A.contends key k && clear (next (.error e))) = true) :
    (A.contends key k && clear (Proc.await c next)) = true := by
  obtain ⟨hcontends, hnext⟩ := Bool.and_eq_true_iff.mp hclear
  have hopens : A.opens k = some key := of_decide_eq_true hcontends
  rw [hcontends, Bool.true_and]
  cases c with
  | findActive key' => exact absurd ((hfollows key hopens).2 _ hnext) (by simp)
  | findOwned id userId => exact absurd (hopens.symm.trans hfollows) (by simp)
  | save row => exact absurd (hopens.symm.trans hfollows.1) (by simp)
  | tick ms => exact absurd (hopens.symm.trans hfollows) (by simp)
  | now => rfl
  | insert row => rfl

/-- The call takes no part in the contest. -/
theorem not_contends (h : A.opens k = none) (p : ActiveProc κ δ (Answer κ δ)) :
    (A.contends key k && clear p) = false := by
  rw [Service.contends, h]
  rfl

/-- A command that is carried out: it leaves the number, or it creates one record
for a call that was clear to, or it shows the key free. -/
theorem step_active (hfollows : Follows (A.opens k) c next) {a : c.Reply}
    (hexec : exec c db = .ok (a, db')) :
    db'.active key + (if (A.contends key k && clear (next (.ok a))) = true then 1 else 0) ≤
      db.active key + (if (A.contends key k && clear (Proc.await c next)) = true then 1 else 0) ∨
    db'.active key = 0 := by
  cases c with
  | findActive key' =>
    cases hexec
    by_cases hclear : (A.contends key k && clear (next (.ok (db.findActive key')))) = true
    · obtain ⟨hcontends, hnext⟩ := Bool.and_eq_true_iff.mp hclear
      obtain ⟨rfl, hfree⟩ := hfollows key (of_decide_eq_true hcontends)
      exact Or.inr (active_of_findActive (Except.ok.inj (hfree _ hnext)))
    · rw [if_neg hclear]
      exact Or.inl (Nat.add_le_add_left (Nat.zero_le _) _)
  | findOwned id userId =>
    cases hexec
    simp only [not_contends A hfollows]
    exact Or.inl (le_refl _)
  | now =>
    cases hexec
    left
    rw [show clear (Proc.await .now next) = true from rfl, Bool.and_true]
    refine Nat.add_le_add_left ?_ _
    by_cases hcontends : A.contends key k = true
    · rw [if_pos hcontends]
      split <;> omega
    · rw [if_neg fun h => hcontends (Bool.and_eq_true_iff.mp h).1, if_neg hcontends]
  | insert row =>
    obtain ⟨hopens, hnext⟩ := hfollows
    rw [exec] at hexec
    split at hexec
    · cases hexec
    · rename_i hfresh
      cases hexec
      left
      rw [active_insert (by simpa using hfresh), hnext, Bool.and_false,
        show clear (Proc.await (.insert row) next) = true from rfl, Bool.and_true]
      by_cases hkey : row.key = key
      · subst hkey
        rw [if_pos (show A.contends row.key k = true from decide_eq_true hopens)]
        split <;> simp
      · rw [if_neg fun h => hkey h.1]
        simp
  | save row =>
    cases hexec
    simp only [not_contends A hfollows.1]
    exact Or.inl (Nat.add_le_add_right (active_save hfollows.2 key) _)
  | tick ms =>
    cases hexec
    simp only [not_contends A hfollows]
    exact Or.inl (le_refl _)

end Steps

omit [DecidableEq κ] in
/-- A call that is clear has not ended. -/
theorem running_of_clear {α : Type} (p : Proc (Cmd κ δ) Cmd.Reply Err α) (h : clear p = true) :
    p.isDone = false := by
  cases p with
  | done r => cases h
  | await c next => rfl

-- ---------------------------------------------------------------------------
-- Records stay
-- ---------------------------------------------------------------------------

section Kept

variable {db db' db'' : ActiveDb κ δ}

omit [DecidableEq κ] in
theorem Kept.refl (db : ActiveDb κ δ) : Kept db db :=
  fun _ r hr => ⟨r, hr, rfl, rfl, fun _ => rfl⟩

omit [DecidableEq κ] in
theorem Kept.trans (h : Kept db db') (h' : Kept db' db'') : Kept db db'' := by
  intro id r hr
  obtain ⟨r', hr', hkey, huser, hsame⟩ := h id r hr
  obtain ⟨r'', hr'', hkey', huser', hsame'⟩ := h' id r' hr'
  refine ⟨r'', hr'', hkey'.trans hkey, huser'.trans huser, fun hon => ?_⟩
  have hback := hsame' hon
  rw [hback] at hon ⊢
  exact hsame hon

omit [DecidableEq κ] in
theorem Kept.of_rows (h : db'.rows = db.rows) : Kept db db' := by
  intro id r hr
  refine ⟨r, ?_, rfl, rfl, fun _ => rfl⟩
  rw [ActiveDb.row, h]
  exact hr

omit [DecidableEq κ] in
/-- A row with a new key is added, or one that is off is written over a row with
its key. -/
theorem Kept.of_put {row : Row κ δ} (h : ∀ r, db.row row.id = some r →
    row.key = r.key ∧ row.userId = r.userId ∧ row.isActive = false) : Kept db (db.put row) := by
  intro id r hr
  by_cases hid : row.id = id
  · subst hid
    obtain ⟨hkey, huser, hoff⟩ := h r hr
    refine ⟨row, Table.get_put_self Row.id row db.rows, hkey, huser, fun hon => ?_⟩
    rw [hoff] at hon
    cases hon
  · refine ⟨r, ?_, rfl, rfl, fun _ => rfl⟩
    rw [ActiveDb.row, ActiveDb.put, Table.get_put, if_neg hid]
    exact hr

/-- Commands that leave the rows. -/
def leavesRows : Cmd κ δ → Bool
  | .insert _ => false
  | .save _ => false
  | _ => true

theorem kept_of_leavesRows {c : Cmd κ δ} {a : c.Reply} (h : leavesRows c = true)
    (hexec : exec c db = .ok (a, db')) : Kept db db' := by
  cases c with
  | insert | save => cases h
  | findActive | findOwned | now | tick =>
    cases hexec
    exact Kept.of_rows rfl

omit [DecidableEq κ] in
theorem kept_trans (db₁ db₂ db₃ : ActiveDb κ δ) (h : Kept db₁ db₂) (h' : Kept db₂ db₃) :
    Kept db₁ db₃ := h.trans h'

/-! ### The shared methods -/

theorem switchOn_grows {i : ℕ} {userId : UserId} {key : κ} {conflict : String}
    {make : ActiveProc κ δ δ} (hmake : make.Issues (leavesRows · = true)) :
    (switchOn i userId key conflict make).Grows exec Kept db := by
  refine grows_call_bind fun db₁ hle existing db₂ hexec => ?_
  cases hexec
  refine ⟨Kept.refl _, grows_rejectWhen_bind fun _ => ?_⟩
  refine grows_bind_of_issues kept_trans hmake (fun c s a s' => kept_of_leavesRows) fun data => ?_
  intro db₃ hle'
  refine ⟨fun row db₄ hexec => ⟨?_, trivial⟩, fun _ => trivial⟩
  rw [exec] at hexec
  split at hexec
  · cases hexec
  · rename_i hfresh
    cases hexec
    refine Kept.of_put fun r hr => ?_
    rw [hr] at hfresh
    exact absurd rfl hfresh

/-- The row that was found is stored, as it was or off. -/
theorem switchOff_grows {found : Option (Row κ δ)} {missing : String} {close : δ → ActiveProc κ δ δ}
    (hclose : ∀ d, (close d).Issues (leavesRows · = true))
    (hfound : ∀ row, found = some row → db.row row.id = some row) :
    (switchOff found missing close).Grows exec Kept db := by
  cases found with
  | none => trivial
  | some row =>
    have hstored := hfound row rfl
    refine grows_bind_of_issues kept_trans (hclose _) (fun c s a s' => kept_of_leavesRows)
      fun data => ?_
    intro db₁ hle
    refine ⟨fun row' db₂ hexec => ⟨?_, trivial⟩, fun _ => trivial⟩
    cases hexec
    refine Kept.of_put fun r hr => ?_
    obtain ⟨r', hr', hkey, huser, -⟩ := hle row.id row hstored
    rw [hr'] at hr
    cases hr
    exact ⟨hkey.symm, huser.symm, rfl⟩

end Kept

-- ---------------------------------------------------------------------------
-- The services
-- ---------------------------------------------------------------------------

section Found

variable {db : ActiveDb κ δ} {row : Row κ δ}

omit [DecidableEq κ] in
theorem row_of_find {p : Row κ δ → Bool} (h : db.rows.find? p = some row) :
    db.row row.id = some row :=
  Table.get_of_mem Row.id db.nodup (List.mem_of_find?_eq_some h)

/-- Look up the active record, and switch it off. -/
theorem findActive_switchOff_grows {key : κ} {missing : String} {close : δ → ActiveProc κ δ δ}
    (hclose : ∀ d, (close d).Issues (leavesRows · = true)) :
    ((await (.findActive key)).bind fun found => switchOff found missing close).Grows exec Kept
      db := by
  refine grows_call_bind fun db₁ _ found db₂ hexec => ?_
  cases hexec
  exact ⟨Kept.refl _, switchOff_grows hclose fun row hfound => row_of_find hfound⟩

theorem findOwned_switchOff_grows {id : ℕ} {userId : UserId} {missing : String}
    {close : δ → ActiveProc κ δ δ} (hclose : ∀ d, (close d).Issues (leavesRows · = true)) :
    ((await (.findOwned id userId)).bind fun found => switchOff found missing close).Grows exec
      Kept db := by
  refine grows_call_bind fun db₁ _ found db₂ hexec => ?_
  cases hexec
  exact ⟨Kept.refl _, switchOff_grows hclose fun row hfound => row_of_find hfound⟩

end Found

section Follow

/-- Nothing is known of the replies. -/
abbrev AnyReply (c : Cmd κ δ) : c.Reply → Prop := fun _ => True

omit [DecidableEq κ] in
theorem clear_return {α β : Type} (f : α → β) (p : ActiveProc κ δ α) :
    clear (p.bind fun a => .done (.ok (f a))) = clear p := by
  cases p with
  | done r => cases r <;> rfl
  | await c next => rfl

omit [DecidableEq κ] in
theorem follows_return {α β : Type} {opens : Option κ} {c : Cmd κ δ}
    {next : Except Err c.Reply → ActiveProc κ δ α} (f : α → β) (h : Follows opens c next) :
    Follows opens c fun r => (next r).bind fun a => .done (.ok (f a)) := by
  cases c with
  | findActive key =>
    intro k hk
    refine ⟨(h k hk).1, fun r hclear => (h k hk).2 r ?_⟩
    rwa [clear_return] at hclear
  | insert row =>
    refine ⟨h.1, fun r => ?_⟩
    rw [clear_return]
    exact h.2 r
  | _ => exact h

omit [DecidableEq κ] in
theorem always_return {α β : Type} {opens : Option κ} {p : ActiveProc κ δ α} (f : α → β)
    (h : p.Always AnyReply fun c next => Follows opens c next) :
    (p.bind fun a => .done (.ok (f a))).Always AnyReply fun c next => Follows opens c next := by
  induction h with
  | done r => cases r <;> exact .done _
  | await here _ _ ihok iherror => exact .await (follows_return f here) ihok iherror

/-- A call that opens nothing, looks up, and saves what is off. -/
def Harmless : Cmd κ δ → Prop
  | .insert _ => False
  | .save row => row.isActive = false
  | _ => True

omit [DecidableEq κ] in
theorem always_of_harmless {α : Type} {p : ActiveProc κ δ α} (h : p.Issues Harmless) :
    p.Always AnyReply fun c next => Follows none c next := by
  refine always_of_issues (fun c next hc => ?_) h
  cases c with
  | findActive key => exact fun k hk => by cases hk
  | findOwned | tick => exact rfl
  | now => trivial
  | insert row => exact hc.elim
  | save row => exact ⟨rfl, hc⟩

omit [DecidableEq κ] in
theorem switchOff_harmless {found : Option (Row κ δ)} {missing : String}
    {close : δ → ActiveProc κ δ δ} (hclose : ∀ d, (close d).Issues Harmless) :
    (switchOff found missing close).Issues Harmless := by
  cases found with
  | none => exact issues_throw _
  | some row => exact issues_bind (hclose _) fun data => issues_call.mpr rfl

omit [DecidableEq κ] in
theorem switchOn_follows {i : ℕ} {userId : UserId} {key : κ} {conflict : String}
    {make : ActiveProc κ δ δ} (hmake : make.Issues (· = .now)) :
    (switchOn i userId key conflict make).Always AnyReply
      fun c next => Follows (some key) c next := by
  refine always_call_bind ?_ fun existing _ => always_rejectWhen_bind fun _ => ?_
  · intro k hk
    cases hk
    refine ⟨rfl, fun r hclear => ?_⟩
    rcases r with e | (_ | row)
    · cases hclear
    · rfl
    · cases hclear
  · refine always_bind_of_issues hmake (fun c next hc => ?_) fun data => ?_
    · subst hc
      trivial
    · exact .await ⟨rfl, fun r => rfl⟩ (fun _ _ => .done _) fun _ => .done _

end Follow

section Methods

variable {db : ActiveDb κ δ}

omit [DecidableEq κ] in
/-- A reply of `new Date()` made into columns. -/
theorem issues_now {α : Type} (f : Time → α) :
    ((await (.now : Cmd κ δ)).bind fun t => .done (.ok (f t))).Issues (· = .now) :=
  issues_bind (issues_call.mpr rfl) fun _ => issues_done _

omit [DecidableEq κ] in
theorem leavesRows_of_now {α : Type} {p : ActiveProc κ δ α} (h : p.Issues (· = .now)) :
    p.Issues (leavesRows · = true) := h.mono fun c hc => by rw [hc]; rfl

omit [DecidableEq κ] in
theorem harmless_of_now {α : Type} {p : ActiveProc κ δ α} (h : p.Issues (· = .now)) :
    p.Issues Harmless := h.mono fun c hc => by rw [hc]; trivial

omit [DecidableEq κ] in
/-- A lookup, and what is made of the reply. -/
theorem lookup_follows {α : Type} (key : κ) {k : Option (Row κ δ) → ActiveProc κ δ α}
    (hk : ∀ found, (k found).Issues Harmless) :
    ((await (.findActive key)).bind k).Always AnyReply fun c next => Follows none c next :=
  always_of_harmless (issues_bind (issues_call.mpr trivial) hk)

theorem isOn_grows (key : κ) : (isOn key).Grows exec Kept db := by
  refine grows_of_issues (P := (leavesRows · = true)) ?_ fun c s a s' => kept_of_leavesRows
  exact issues_bind (issues_call.mpr rfl) fun _ => issues_done _

theorem tick_grows {α : Type} (ms : ℕ) (r : Except Err α) :
    ((await (.tick ms : Cmd κ δ)).bind fun _ => .done r).Grows exec Kept db := by
  refine grows_of_issues (P := (leavesRows · = true)) ?_ fun c s a s' => kept_of_leavesRows
  exact issues_bind (issues_call.mpr rfl) fun _ => issues_done _

omit [DecidableEq κ] in
theorem tick_follows {α : Type} (ms : ℕ) (r : Except Err α) :
    ((await (.tick ms : Cmd κ δ)).bind fun _ => .done r).Always AnyReply
      fun c next => Follows none c next :=
  always_of_harmless (issues_bind (issues_call.mpr trivial) fun _ => issues_done _)

end Methods

/-! ### Freezes -/

def FreezeCall.opens : FreezeCall → Option UserId
  | .freezeAccount userId _ _ _ => some userId
  | _ => none

def freezes : Service FreezeCall UserId Freeze where
  prog := FreezeCall.prog
  opens := FreezeCall.opens
  starts i k := by cases k <;> rfl
  follows i k := by
    cases k with
    | freezeAccount => exact always_return _ (switchOn_follows (issues_now _))
    | unfreezeAccount => exact always_return _ (lookup_follows _ fun _ =>
        switchOff_harmless fun _ => harmless_of_now (issues_now _))
    | isAccountFrozen => exact always_return _ (lookup_follows _ fun _ => issues_done _)
    | tick ms => exact tick_follows ms _
  grows i k db := by
    cases k with
    | freezeAccount =>
      exact grows_bind_done _ (switchOn_grows (leavesRows_of_now (issues_now _)))
    | unfreezeAccount =>
      exact grows_bind_done _ (findActive_switchOff_grows fun _ => leavesRows_of_now (issues_now _))
    | isAccountFrozen userId => exact grows_bind_done _ (isOn_grows userId)
    | tick ms => exact tick_grows ms _

/-! ### Deactivations -/

def DeactivationCall.opens : DeactivationCall → Option UserId
  | .deactivate userId _ _ => some userId
  | _ => none

def deactivations : Service DeactivationCall UserId Deactivation where
  prog := DeactivationCall.prog
  opens := DeactivationCall.opens
  starts i k := by cases k <;> rfl
  follows i k := by
    cases k with
    | deactivate => exact always_return _ (switchOn_follows (issues_now _))
    | reactivate => exact always_return _ (lookup_follows _ fun _ =>
        switchOff_harmless fun _ => harmless_of_now (issues_now _))
    | isUserDeactivated => exact always_return _ (lookup_follows _ fun _ => issues_done _)
    | tick ms => exact tick_follows ms _
  grows i k db := by
    cases k with
    | deactivate =>
      exact grows_bind_done _ (switchOn_grows (leavesRows_of_now (issues_now _)))
    | reactivate =>
      exact grows_bind_done _ (findActive_switchOff_grows fun _ => leavesRows_of_now (issues_now _))
    | isUserDeactivated userId => exact grows_bind_done _ (isOn_grows userId)
    | tick ms => exact tick_grows ms _

/-! ### Federation addresses -/

def FederationCall.opens : FederationCall → Option Address
  | .createAddress _ domain stellarAddress _ => some (domain, stellarAddress)
  | _ => none

/-- Resolving looks one address up, or none. -/
theorem resolveAddress_reads {P : Cmd Address Memo → Prop} (hP : ∀ key, P (.findActive key))
    (query : String) : (resolveAddress query).Issues P := by
  unfold resolveAddress
  split
  · exact issues_throw _
  · refine issues_bind (issues_call.mpr (hP _)) fun found => ?_
    cases found with
    | none => exact issues_throw _
    | some address => exact issues_done _

def federation : Service FederationCall Address Memo where
  prog := FederationCall.prog
  opens := FederationCall.opens
  starts i k := by
    cases k with
    | resolveAddress query =>
      rw [FederationCall.prog]
      refine (clear_return _ _).trans ?_
      unfold resolveAddress
      split <;> rfl
    | _ => rfl
  follows i k := by
    cases k with
    | createAddress => exact always_return _ (switchOn_follows (issues_done _))
    | resolveAddress query =>
      exact always_return _ (always_of_harmless (resolveAddress_reads (fun _ => trivial) query))
    | deleteAddress =>
      refine always_return _ ?_
      refine always_of_harmless (issues_bind (issues_call.mpr trivial) fun _ => ?_)
      exact switchOff_harmless fun _ => issues_done _
    | tick ms => exact tick_follows ms _
  grows i k db := by
    cases k with
    | createAddress => exact grows_bind_done _ (switchOn_grows (issues_done _))
    | resolveAddress query =>
      refine grows_bind_done _ (grows_of_issues (P := (leavesRows · = true))
        (resolveAddress_reads (fun _ => rfl) query) fun c s a s' => kept_of_leavesRows)
    | deleteAddress =>
      exact grows_bind_done _ (findOwned_switchOff_grows fun _ => issues_done _)
    | tick ms => exact tick_grows ms _

-- ---------------------------------------------------------------------------
-- The records over all runs
-- ---------------------------------------------------------------------------

/-- **At most `n` active records.** -/
theorem active_at_most (A : Service K κ δ) {n : ℕ} {db : ActiveDb κ δ}
    (h₀ : ∀ key, db.active key ≤ n) {cfg : ActiveConfig K κ δ}
    (h : Reach (server A.prog) (A.atMost n) (start db) cfg) (key : κ) :
    cfg.state.active key ≤ n := by
  have hwithin := (Reach.invariant_always (I := Within (A.contends key) clear
    (fun db : ActiveDb κ δ => db.active key) n) ?_ rfl A.follows ?_ ?_ h).1
  · have hused := hwithin.used
    omega
  · exact ⟨Nat.zero_le n, h₀ key⟩
  · intro cfg i k hI hfresh hlimit
    exact hI.spawn hfresh (A.starts i k) (hlimit key)
  · intro cfg i fault th c next hI hth hproc hfollows _
    refine ⟨hI.resume running_of_clear hth hproc ?_, fun _ _ _ => trivial⟩
    rw [hproc]
    cases hres : outcome fault ((server A.prog).exec c cfg.state) with
    | error e =>
      left
      rw [after_error, reply_error]
      refine Nat.add_le_add_left ?_ _
      by_cases hclear : (A.contends key th.call && clear (next (.error e))) = true
      · rw [if_pos hclear, if_pos (clear_of_error A hfollows e hclear)]
      · rw [if_neg hclear]
        exact Nat.zero_le _
    | ok r => exact step_active A hfollows (outcome_eq_ok hres).2

def noRows : ActiveDb UserId Freeze := ⟨[], 0, List.nodup_nil⟩

/-- A request to freeze the account of user 7. -/
def freezeSeven : FreezeCall := .freezeAccount 7 "chargeback" "admin-1" none

/-- Two such requests look before either of them inserts. -/
theorem active_at_most_two : ∃ cfg : ActiveConfig FreezeCall UserId Freeze,
    Reach (server freezes.prog) (freezes.atMost 2) (start noRows) cfg ∧
    cfg.state.active 7 ≤ 2 ∧ cfg.state.active 7 = 2 := by
  have hfirst : Reach (server freezes.prog) (freezes.atMost 2) (start noRows)
      ((start noRows).spawn 0 freezeSeven (freezes.prog 0 freezeSeven)) :=
    .call 0 freezeSeven .refl rfl fun key _ => Nat.zero_lt_two
  have hsecond : Reach (server freezes.prog) (freezes.atMost 2) (start noRows)
      (((start noRows).spawn 0 freezeSeven (freezes.prog 0 freezeSeven)).spawn 1 freezeSeven
        (freezes.prog 1 freezeSeven)) := by
    refine .call 1 freezeSeven hfirst rfl fun key hkey => ?_
    obtain rfl : 7 = key := Option.some.inj (of_decide_eq_true hkey)
    decide
  have hrun : (server freezes.prog).run
      (((start noRows).spawn 0 freezeSeven (freezes.prog 0 freezeSeven)).spawn 1 freezeSeven
        (freezes.prog 1 freezeSeven))
      [.step 0 none, .step 1 none, .step 0 none, .step 0 none, .step 1 none, .step 1 none] =
      some _ := rfl
  have hreach := hsecond.of_run (fun i k hmem => by simp at hmem) (fun _ _ _ _ => trivial) hrun
  exact ⟨_, hreach, active_at_most freezes (fun _ => Nat.zero_le 2) hreach 7, rfl⟩

/-- The account is frozen. -/
def frozenSeven : ActiveConfig FreezeCall UserId Freeze :=
  (server freezes.prog).play (start noRows)
    [.call 0 freezeSeven, .step 0 none, .step 0 none, .step 0 none]

/-- It is unfrozen. -/
def thawedSeven : ActiveConfig FreezeCall UserId Freeze :=
  (server freezes.prog).play frozenSeven [.call 1 (.unfreezeAccount 7 "admin-2" none),
    .step 1 none, .step 1 none, .step 1 none]

end Active

end NexaFx
