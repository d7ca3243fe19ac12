import NexaFx.Lib.Exclusive
import NexaFx.Model.Otp

/-!
# NexaFx — guessing a one-time password

`generate` and `verify` of any users and purposes, interleaved at every
repository call. `verify` reads the newest row, compares, and saves the field
that changed; nothing stops another `verify` from reading in between.

As long as the `verify` calls of one user and purpose do not overlap and the
save of a wrong attempt does not fail, at most five wrong codes are compared
with a row and at most one call is told that its code was right
(`otp_discipline`). Calls that overlap share one counter value and one unused
row (`guesses_unbounded`). That an expired code is refused holds
in every run (`accepted_in_time`).
-/

namespace NexaFx

open Async

namespace Otps

-- ---------------------------------------------------------------------------
-- The property
-- ---------------------------------------------------------------------------

/-- How many wrong codes have been compared with the hash of the row. -/
def wrong (db : OtpDb) (id : OtpId) : ℕ :=
  db.comparisons.countP fun c => decide (c.1 = id) && !c.2

/-- How many calls have used the row. -/
def used (db : OtpDb) (id : OtpId) : ℕ := db.accepted.countP fun a => decide (a.2.id = id)

/-- The call `i` returned `true`. -/
def ReturnedTrue (cfg : OtpConfig) (i : ℕ) : Prop :=
  ∃ th, cfg.thread i = some th ∧ th.proc = .done (.ok (some true))

/-- It did so for this row. -/
def Accepted (cfg : OtpConfig) (i : ℕ) (otp : Otp) : Prop :=
  ReturnedTrue cfg i ∧ (i, otp) ∈ cfg.state.accepted

structure GuessBound (cfg : OtpConfig) : Prop where
  guesses : ∀ id, wrong cfg.state id ≤ MAX_ATTEMPTS
  once : ∀ i j otp otp', Accepted cfg i otp → Accepted cfg j otp' → otp.id = otp'.id → i = j
  accounted : ∀ i, ReturnedTrue cfg i → ∃ otp, Accepted cfg i otp

/-- The `verify` calls of one user and purpose do not overlap, and a wrong
attempt is saved. -/
def oneAtATime : Discipline OtpCall OtpCmd OtpCmd.Reply Err OtpDb (Option Bool) where
  onCall _ _ _ := True
  onStep cfg th c failed :=
    (th.begun = false → ∀ userId code purpose, th.call = .verify userId code purpose →
      ∀ j th' code', cfg.thread j = some th' → th'.call = .verify userId code' purpose →
        cfg.inProgress j = false) ∧
    ∀ otp, c = .saveAttempts otp → failed = false

-- ---------------------------------------------------------------------------
-- One row
-- ---------------------------------------------------------------------------

/-- What holds of a row while no `verify` of its user and purpose is on its way. -/
structure Sound (id : OtpId) (db : OtpDb) : Prop where
  unique : (db.otps.map Otp.id).Nodup
  fresh : db.nextSerial ≤ id.2.2 → wrong db id = 0 ∧ used db id = 0 ∧ db.otp id = none
  guesses : wrong db id ≤ MAX_ATTEMPTS
  once : used db id ≤ 1
  counted : ∀ otp, db.otp id = some otp →
    wrong db id = otp.attempts ∧ (otp.usedAt = none → used db id = 0)

/-- What the other calls may change: they may delete the row, or make it. -/
structure Rely (id : OtpId) (db db' : OtpDb) : Prop where
  unique : (db.otps.map Otp.id).Nodup → (db'.otps.map Otp.id).Nodup
  serial : db.nextSerial ≤ db'.nextSerial
  wrong : wrong db' id = wrong db id
  used : used db' id = used db id
  row : db'.otp id = db.otp id ∨ db'.otp id = none ∨
    (db.nextSerial ≤ id.2.2 ∧ id.2.2 < db'.nextSerial ∧
      ∃ otp, db'.otp id = some otp ∧ otp.attempts = 0 ∧ otp.usedAt = none)

/-- A call holds `otp`, unused, after `n` wrong comparisons. -/
structure Held (otp : Otp) (n : ℕ) (db : OtpDb) : Prop where
  unique : (db.otps.map Otp.id).Nodup
  made : otp.serial < db.nextSerial
  wrong : wrong db otp.id = n
  used : used db otp.id = 0
  row : db.otp otp.id = none ∨ db.otp otp.id = some otp

section Rows

variable {id : OtpId} {db db' db'' : OtpDb} {otp : Otp} {n : ℕ}

theorem Rely.refl (id : OtpId) (db : OtpDb) : Rely id db db :=
  ⟨fun h => h, le_rfl, rfl, rfl, Or.inl rfl⟩

theorem Rely.trans (h : Rely id db db') (h' : Rely id db' db'') : Rely id db db'' := by
  refine ⟨fun hu => h'.unique (h.unique hu), h.serial.trans h'.serial, h'.wrong.trans h.wrong,
    h'.used.trans h.used, ?_⟩
  rcases h'.row with hsame | hnone | ⟨hlate, hmade, hnew⟩
  · rw [hsame]
    rcases h.row with hsame' | hnone | ⟨hlate, hmade, hnew⟩
    · exact Or.inl hsame'
    · exact Or.inr (Or.inl hnone)
    · exact Or.inr (Or.inr ⟨hlate, lt_of_lt_of_le hmade h'.serial, hnew⟩)
  · exact Or.inr (Or.inl hnone)
  · exact Or.inr (Or.inr ⟨h.serial.trans hlate, hmade, hnew⟩)

theorem Sound.rely (h : Sound id db) (hr : Rely id db db') : Sound id db' := by
  refine ⟨hr.unique h.unique, fun hlate => ?_, ?_, ?_, fun otp hrow => ?_⟩
  · obtain ⟨hwrong, hused, hnone⟩ := h.fresh (hr.serial.trans hlate)
    refine ⟨hr.wrong.trans hwrong, hr.used.trans hused, ?_⟩
    rcases hr.row with hsame | hgone | ⟨_, hmade, _⟩
    · rw [hsame, hnone]
    · exact hgone
    · exact absurd hlate (not_le.mpr hmade)
  · rw [hr.wrong]
    exact h.guesses
  · rw [hr.used]
    exact h.once
  · rw [hr.wrong, hr.used]
    rcases hr.row with hsame | hgone | ⟨hlate, _, otp', hnew, hattempts, hunused⟩
    · exact h.counted otp (hsame ▸ hrow)
    · rw [hgone] at hrow
      cases hrow
    · rw [hnew] at hrow
      obtain rfl : otp' = otp := Option.some.inj hrow
      obtain ⟨hwrong, hused, -⟩ := h.fresh hlate
      exact ⟨by rw [hwrong, hattempts], fun _ => hused⟩

theorem Held.rely (h : Held otp n db) (hr : Rely otp.id db db') : Held otp n db' := by
  refine ⟨hr.unique h.unique, lt_of_lt_of_le h.made hr.serial, hr.wrong.trans h.wrong,
    hr.used.trans h.used, ?_⟩
  rcases hr.row with hsame | hgone | ⟨hlate, -, -⟩
  · rw [hsame]
    exact h.row
  · exact Or.inl hgone
  · exact absurd hlate (not_le.mpr h.made)

/-- A row that is found is held with what was counted of it. -/
theorem Sound.hold (h : Sound otp.id db) (hrow : db.otp otp.id = some otp)
    (hunused : otp.usedAt = none) : Held otp otp.attempts db := by
  obtain ⟨hwrong, hused⟩ := h.counted otp hrow
  refine ⟨h.unique, ?_, hwrong, hused hunused, Or.inr hrow⟩
  by_contra hlate
  have hnone := (h.fresh (not_lt.mp hlate)).2.2
  rw [hrow] at hnone
  cases hnone

/-- A call that lets go of the row as it held it. -/
theorem Held.release (h : Held otp otp.attempts db) (hattempts : otp.attempts ≤ MAX_ATTEMPTS) :
    Sound otp.id db := by
  refine ⟨h.unique, fun hlate => absurd h.made (not_lt.mpr hlate), ?_, ?_, fun row hrow => ?_⟩
  · rw [h.wrong]
    exact hattempts
  · rw [h.used]
    exact Nat.zero_le 1
  · rcases h.row with hnone | hsame
    · rw [hnone] at hrow
      cases hrow
    · rw [hsame] at hrow
      cases hrow
      exact ⟨h.wrong, fun _ => h.used⟩

end Rows

-- ---------------------------------------------------------------------------
-- Commands
-- ---------------------------------------------------------------------------

/-- The command works on another row, or on none. -/
def Elsewhere (id : OtpId) : OtpCmd → Prop
  | .compared otp _ => otp.id ≠ id
  | .saveAttempts otp => otp.id ≠ id
  | .saveUsed _ otp _ => otp.id ≠ id
  | _ => True

section Commands

variable {id : OtpId} {db db' : OtpDb} {otp row : Otp} {n : ℕ}

theorem wrong_compared (db : OtpDb) (otp : Otp) (isValid : Bool) (id : OtpId) :
    wrong (db.noteComparison otp isValid) id =
      wrong db id + if otp.id = id ∧ isValid = false then 1 else 0 := by
  unfold wrong OtpDb.noteComparison
  rw [List.countP_cons]
  simp

theorem used_accepted (db : OtpDb) (call : ℕ) (otp : Otp) (id : OtpId) :
    used (db.noteUse call otp) id =
      used db id + if otp.id = id then 1 else 0 := by
  unfold used OtpDb.noteUse
  rw [List.countP_cons]
  simp

/-- The row that a save writes has the key of the loaded one. -/
theorem id_stored (db : OtpDb) (otp : Otp) : ((db.otp otp.id).getD otp).id = otp.id := by
  cases hrow : db.otp otp.id with
  | none => rfl
  | some row => exact Table.key_of_get _ hrow

/-- **Frame.** What is done elsewhere is within the rely. -/
theorem rely_of_elsewhere {c : OtpCmd} {a : c.Reply} (hc : Elsewhere id c)
    (h : exec c db = .ok (a, db')) : Rely id db db' := by
  cases c with
  | now =>
    cases h
    exact Rely.refl id db
  | sendMail u =>
    cases h
    exact Rely.refl id db
  | findLatest u p =>
    cases h
    exact Rely.refl id db
  | tick ms =>
    cases h
    exact ⟨fun h => h, le_rfl, rfl, rfl, Or.inl rfl⟩
  | delete u p =>
    cases h
    refine ⟨fun h => Table.nodup_filter _ h _, le_rfl, rfl, rfl, ?_⟩
    rcases otp_delete db u p id with hsame | hgone
    · exact Or.inl hsame
    · exact Or.inr (Or.inl hgone)
  | insert u p codeHash expiresAt =>
    cases h
    refine ⟨fun h => Table.nodup_put _ h, Nat.le_succ _, rfl, rfl, ?_⟩
    by_cases hid : (db.created u p codeHash expiresAt).id = id
    · -- the new row is this one
      have hserial : db.nextSerial = id.2.2 := congrArg (fun id => id.2.2) hid
      refine Or.inr (Or.inr ⟨hserial.le, hserial ▸ Nat.lt_succ_self _,
        db.created u p codeHash expiresAt, ?_, rfl, rfl⟩)
      exact (otp_put db _ id).trans (if_pos hid)
    · exact Or.inl ((otp_put db _ id).trans (if_neg hid))
  | compared otp isValid =>
    cases h
    refine ⟨fun h => h, le_rfl, ?_, rfl, Or.inl rfl⟩
    rw [wrong_compared, if_neg fun heq => hc heq.1, Nat.add_zero]
  | saveAttempts otp =>
    cases h
    refine ⟨fun h => Table.nodup_put _ h, le_rfl, rfl, rfl, Or.inl ?_⟩
    rw [otp_put, if_neg]
    intro heq
    exact hc ((id_stored db otp).symm.trans heq)
  | saveUsed call otp usedAt =>
    cases h
    refine ⟨fun h => Table.nodup_put _ h, le_rfl, rfl, ?_, Or.inl ?_⟩
    · rw [used_accepted, if_neg hc, Nat.add_zero]
      rfl
    · refine (otp_put db _ id).trans (if_neg ?_)
      intro heq
      exact hc ((id_stored db otp).symm.trans heq)

/-- A wrong comparison. -/
theorem Held.compare (h : Held otp n db) :
    Held otp (n + 1) (db.noteComparison otp false) := by
  refine ⟨h.unique, h.made, ?_, h.used, h.row⟩
  rw [wrong_compared, if_pos ⟨rfl, rfl⟩, h.wrong]

/-- A right comparison is not counted. -/
theorem Held.compare_right (h : Held otp n db) :
    Held otp n (db.noteComparison otp true) := by
  refine ⟨h.unique, h.made, ?_, h.used, h.row⟩
  rw [wrong_compared, if_neg (by simp), h.wrong, Nat.add_zero]

/-- What is stored of a row that is held is that row. -/
theorem Held.stored (h : Held otp n db) : (db.otp otp.id).getD otp = otp := by
  rcases h.row with hnone | hsame
  · rw [hnone]
    rfl
  · rw [hsame]
    rfl

/-- The save of a wrong attempt. -/
theorem Held.saveAttempts (h : Held otp (otp.attempts + 1) db)
    (hattempts : otp.attempts + 1 ≤ MAX_ATTEMPTS) :
    Sound otp.id (db.put (otp.withAttempts (otp.attempts + 1))) := by
  refine ⟨Table.nodup_put _ h.unique, fun hlate => absurd h.made (not_lt.mpr hlate), ?_, ?_, ?_⟩
  · exact h.wrong.le.trans hattempts
  · exact h.used.le.trans (Nat.zero_le 1)
  · intro row hrow
    have hput := (otp_put db (otp.withAttempts (otp.attempts + 1)) otp.id).trans (if_pos rfl)
    rw [hput] at hrow
    cases hrow
    exact ⟨h.wrong, fun _ => h.used⟩

/-- The save of the use. -/
theorem Held.saveUsed (h : Held otp otp.attempts db) (hattempts : otp.attempts ≤ MAX_ATTEMPTS)
    (call : ℕ) (usedAt : Time) :
    Sound otp.id ((db.put (otp.withUsedAt usedAt)).noteUse call otp) := by
  have hused : Otps.used ((db.put (otp.withUsedAt usedAt)).noteUse call otp) otp.id = 1 := by
    rw [used_accepted, if_pos rfl]
    exact congrArg (· + 1) h.used
  refine ⟨Table.nodup_put _ h.unique, fun hlate => absurd h.made (not_lt.mpr hlate), ?_, ?_, ?_⟩
  · exact h.wrong.le.trans hattempts
  · exact hused.le
  · intro row hrow
    have hput := (otp_put db (otp.withUsedAt usedAt) otp.id).trans (if_pos rfl)
    have hrow : (db.put (otp.withUsedAt usedAt)).otp otp.id = some row := hrow
    rw [hput] at hrow
    cases hrow
    exact ⟨h.wrong, fun hnone => by cases hnone⟩

end Commands

-- ---------------------------------------------------------------------------
-- The calls, await by await
-- ---------------------------------------------------------------------------

/-- The `verify` calls of the user and the purpose of a row, as a section. -/
def guarded (id : OtpId) : Section OtpCmd OtpCmd.Reply Err OtpDb where
  exec := exec
  mayFail := mayFail
  allows c failed _ := ∀ otp, c = .saveAttempts otp → failed = false
  rely := Rely id
  safe db := wrong db id ≤ MAX_ATTEMPTS ∧ used db id ≤ 1
  rest := Sound id

/-- These calls. -/
def ofRow (id : OtpId) : OtpCall → Bool
  | .verify userId _ purpose => decide (userId = id.1 ∧ purpose = id.2.1)
  | _ => false

/-- What a lookup can find. -/
def FoundRow : (c : OtpCmd) → c.Reply → Prop
  | .findLatest userId purpose, found => ∀ otp, found = some otp →
      otp.userId = userId ∧ otp.purpose = purpose
  | _, _ => True

theorem exec_foundRow {c : OtpCmd} {db db' : OtpDb} {a : c.Reply} (h : exec c db = .ok (a, db')) :
    FoundRow c a := by
  cases c with
  | findLatest userId purpose =>
    cases h
    exact fun otp hotp => (findLatest_some hotp).2
  | _ => trivial

section Programs

variable {hmac : String → String} {expiry i : ℕ} {id : OtpId} {db : OtpDb} {otp : Otp}
  {code : String}

theorem verifyFound_elsewhere (hother : otp.id ≠ id) :
    (verifyFound hmac i code otp).Issues (Elsewhere id) := by
  unfold verifyFound
  refine Proc.issues_bind (Proc.issues_rejectWhen _ _) fun _ => ?_
  refine Proc.issues_bind (Proc.issues_call.mpr trivial) fun _ => ?_
  refine Proc.issues_bind (Proc.issues_rejectWhen _ _) fun _ => ?_
  refine Proc.issues_bind (Proc.issues_rejectWhen _ _) fun _ => ?_
  refine Proc.issues_bind (Proc.issues_call.mpr hother) fun _ => ?_
  split
  · exact Proc.issues_bind (Proc.issues_call.mpr hother) fun _ => Proc.issues_done _
  · refine Proc.issues_bind (Proc.issues_call.mpr trivial) fun _ => ?_
    exact Proc.issues_bind (Proc.issues_call.mpr hother) fun _ => Proc.issues_done _

/-- From the row it found on. The counter and the use are saved over that row. -/
theorem verifyFound_secures (hmac : String → String) (i : ℕ) (code : String)
    (h : Sound otp.id db) (hrow : db.otp otp.id = some otp) :
    (verifyFound hmac i code otp).Secures (guarded otp.id) (fun _ => Sound otp.id) db := by
  have hcount := h.guesses
  rw [(h.counted otp hrow).1] at hcount
  have hstable : ∀ n db db', Held otp n db → Rely otp.id db db' → Held otp n db' :=
    fun _ _ _ hheld hr => hheld.rely hr
  have hsafe : ∀ n db, n ≤ MAX_ATTEMPTS → Held otp n db → (guarded otp.id).safe db :=
    fun _ _ hn hheld => ⟨hheld.wrong.le.trans hn, hheld.used.le.trans (Nat.zero_le 1)⟩
  unfold verifyFound
  refine Proc.secures_rejectWhen_bind (fun _ => h) fun hunused => ?_
  refine Proc.secures_call_bind (A := Held otp otp.attempts) (h.hold hrow (by simpa using hunused))
    (hstable _) (fun db => hsafe _ db hcount) (fun db now db' hheld _ hexec => ?_)
    fun db e hheld _ _ => hheld.release hcount
  cases hexec
  refine Proc.secures_rejectWhen_bind (fun _ => hheld.release hcount) fun _ => ?_
  refine Proc.secures_rejectWhen_bind (fun _ => hheld.release hcount) fun hfew => ?_
  refine Proc.secures_call_bind (A := Held otp otp.attempts) hheld (hstable _)
    (fun db => hsafe _ db hcount) (fun db _ db' hheld _ hexec => ?_)
    fun db e _ _ hcan => ?_
  · cases hexec
    by_cases hright : hmac code = otp.codeHash
    · -- the right code: the use is saved
      rw [decide_eq_true hright, if_neg (by simp)]
      refine Proc.secures_call_bind (A := Held otp otp.attempts) hheld.compare_right (hstable _)
        (fun db => hsafe _ db hcount) (fun db usedAt db' hheld _ hexec => ?_)
        fun db e hheld _ _ => hheld.release hcount
      cases hexec
      refine Proc.secures_call_bind (A := Held otp otp.attempts) hheld (hstable _)
        (fun db => hsafe _ db hcount) (fun db _ db' hheld _ hexec => ?_)
        fun db e hheld _ _ => hheld.release hcount
      cases hexec
      rw [hheld.stored]
      exact hheld.saveUsed hcount i _
    · -- a wrong one: the attempt is saved
      have hfew : otp.attempts + 1 ≤ MAX_ATTEMPTS := not_le.mp hfew
      rw [decide_eq_false hright, if_pos rfl]
      refine Proc.secures_call_bind (A := Held otp (otp.attempts + 1)) hheld.compare (hstable _)
        (fun db => hsafe _ db hfew) (fun db _ db' hheld _ hexec => ?_)
        fun db e _ hallow _ => ?_
      · cases hexec
        rw [hheld.stored]
        exact hheld.saveAttempts hfew
      · cases hallow otp rfl
  · rcases hcan with hcan | hcan <;> cases hcan

theorem verify_secures (hmac : String → String) (i : ℕ) (code : String) (h : Sound id db) :
    (verify hmac i id.1 code id.2.1).Secures (guarded id) (fun _ => Sound id) db := by
  unfold verify
  refine Proc.secures_call_bind (A := Sound id) h (fun _ _ h hr => h.rely hr)
    (fun _ h => ⟨h.guesses, h.once⟩) (fun db found db' h _ hexec => ?_) fun _ _ h _ _ => h
  have hdb : db' = db := by
    cases hexec
    rfl
  have hfound : found = db.findLatest id.1 id.2.1 := by
    cases hexec
    rfl
  subst hdb
  cases found with
  | none => exact h
  | some otp =>
    obtain ⟨hmem, huser, hpurpose⟩ := findLatest_some hfound.symm
    by_cases hid : otp.id = id
    · subst hid
      exact verifyFound_secures hmac i code h (Table.get_of_mem _ h.unique hmem)
    · exact Proc.secures_of_issues (E := guarded id) (fun _ _ h hr => h.rely hr)
        (fun _ h => ⟨h.guesses, h.once⟩) (fun _ _ _ _ hc hexec => rely_of_elsewhere hc hexec)
        (verifyFound_elsewhere hid) h

/-- The other calls work elsewhere. -/
theorem prog_elsewhere (hmac : String → String) (expiry i : ℕ) (k : OtpCall)
    (hk : ofRow id k = false) :
    (prog hmac expiry i k).Always FoundRow fun c _ => Elsewhere id c := by
  cases k with
  | generate userId purpose code =>
    refine Proc.always_of_issues (fun _ _ hc => hc) (Proc.issues_bind ?_ fun _ =>
      Proc.issues_done _)
    refine Proc.issues_bind (Proc.issues_call.mpr trivial) fun _ => ?_
    refine Proc.issues_bind (Proc.issues_call.mpr trivial) fun _ => ?_
    refine Proc.issues_bind (Proc.issues_call.mpr trivial) fun _ => ?_
    exact Proc.issues_call.mpr trivial
  | tick ms =>
    exact Proc.always_of_issues (fun _ _ hc => hc)
      (Proc.issues_bind (Proc.issues_call.mpr trivial) fun _ => Proc.issues_done _)
  | verify userId code purpose =>
    unfold prog verify
    simp only [Proc.bind_eq, Proc.bind_assoc]
    refine Proc.always_call_bind trivial fun found hfound => ?_
    cases found with
    | none => exact .done _
    | some otp =>
      obtain ⟨huser, hpurpose⟩ := hfound otp rfl
      have hother : otp.id ≠ id := by
        rintro rfl
        rw [ofRow, decide_eq_false_iff_not] at hk
        exact hk ⟨huser.symm, hpurpose.symm⟩
      exact Proc.always_of_issues (fun _ _ hc => hc)
        (Proc.issues_bind (verifyFound_elsewhere hother) fun _ => Proc.issues_done _)

end Programs

-- ---------------------------------------------------------------------------
-- All calls together
-- ---------------------------------------------------------------------------

section Runs

variable {hmac : String → String} {expiry : ℕ} {t : Time} {cfg₀ cfg : OtpConfig}

/-- The `verify` calls of one user and purpose are a critical section. -/
theorem guarded_exclusive (hmac : String → String) (expiry : ℕ) (id : OtpId) :
    Exclusive (server hmac expiry) oneAtATime (guarded id) (ofRow id) FoundRow
      fun _ _ c => Elsewhere id c where
  exec := rfl
  mayFail := rfl
  refl := Rely.refl id
  trans _ _ _ h h' := h.trans h'
  safe _ h := ⟨h.guesses, h.once⟩
  rest _ _ h hr := h.rely hr
  secures i k db hk h := by
    cases k with
    | generate userId purpose code => cases hk
    | tick ms => cases hk
    | verify userId code purpose =>
      simp only [ofRow, decide_eq_true_eq] at hk
      obtain ⟨rfl, rfl⟩ := hk
      refine Proc.secures_bind.mpr (Proc.secures_mono ?_ (verify_secures hmac i code h))
      intro r s hs
      cases r <;> exact hs
  replied _ _ _ _ h := exec_foundRow h
  issues i k hk := prog_elsewhere hmac expiry i k hk
  others _ _ _ _ _ _ _ hc h := rely_of_elsewhere hc h
  allows _ _ _ _ _ hD := hD.2
  alone cfg th c f hk hbegun hD := by
    intro j th' hth' hk'
    cases hcall : th.call with
    | generate userId purpose code =>
      rw [hcall] at hk
      cases hk
    | tick ms =>
      rw [hcall] at hk
      cases hk
    | verify userId code purpose =>
      cases hcall' : th'.call with
      | generate userId purpose code =>
        rw [hcall'] at hk'
        cases hk'
      | tick ms =>
        rw [hcall'] at hk'
        cases hk'
      | verify userId' code' purpose' =>
        simp only [hcall, ofRow, decide_eq_true_eq] at hk
        simp only [hcall', ofRow, decide_eq_true_eq] at hk'
        obtain ⟨rfl, rfl⟩ := hk
        obtain ⟨rfl, rfl⟩ := hk'
        exact hD.1 hbegun _ _ _ hcall j th' code' hth' hcall'

theorem sound_start (id : OtpId) (t : Time) : Sound id (start t).state := by
  refine ⟨List.nodup_nil, fun _ => ⟨rfl, rfl, rfl⟩, Nat.zero_le _, Nat.zero_le _, ?_⟩
  intro otp hrow
  cases hrow

/-- Five wrong codes and one use of each row, in every configuration reached. -/
theorem bounded_reach (h : Reach (server hmac expiry) oneAtATime (start t) cfg) (id : OtpId) :
    wrong cfg.state id ≤ MAX_ATTEMPTS ∧ used cfg.state id ≤ 1 :=
  (h.exclusive (guarded_exclusive hmac expiry id) rfl (sound_start id t)).1

end Runs

-- ---------------------------------------------------------------------------
-- Which calls used a row
-- ---------------------------------------------------------------------------

/-- The clock is past `T`. -/
def Past (T : Time) : (c : OtpCmd) → c.Reply → Prop
  | .now, t => T ≤ t
  | _, _ => True

/-- Only the save of an unexpired row in its own name makes a call return
`true`. -/
structure Marks (T : Time) (i : ℕ) (c : OtpCmd)
    (next : Except Err c.Reply → OtpProc (Option Bool)) : Prop where
  unexpired : ∀ call otp usedAt, c = .saveUsed call otp usedAt → call = i ∧ T ≤ otp.expiresAt
  last : ∀ r, next r = .done (.ok (some true)) →
    r.isOk = true ∧ ∃ otp usedAt, c = .saveUsed i otp usedAt

section Marks

variable {hmac : String → String} {expiry i : ℕ} {T : Time} {otp : Otp} {code : String}

/-- A command that uses no row and is not the last one. -/
theorem marks_of_ne {c : OtpCmd} {next : Except Err c.Reply → OtpProc (Option Bool)}
    (hc : ∀ call otp usedAt, c ≠ .saveUsed call otp usedAt)
    (hnext : ∀ r, next r ≠ .done (.ok (some true))) : Marks T i c next :=
  ⟨fun call otp usedAt heq => absurd heq (hc call otp usedAt), fun r hr => absurd hr (hnext r)⟩

theorem rejectWhen_ne {c : Prop} [Decidable c] {e : Err} {k : Unit → OtpProc (Option Bool)}
    (hk : k () ≠ .done (.ok (some true))) :
    (Proc.rejectWhen c e).bind k ≠ .done (.ok (some true)) := by
  unfold Proc.rejectWhen
  split
  · intro h
    cases h
  · exact hk

theorem await_ne {c : OtpCmd} {k : c.Reply → OtpProc (Option Bool)} :
    (await c).bind k ≠ .done (.ok (some true)) := by
  intro h
  cases h

/-- An error ends the call. -/
theorem error_ne {β : Type} {r : Except Err β} {k : β → OtpProc (Option Bool)}
    (hk : ∀ b, k b ≠ .done (.ok (some true))) :
    ((Proc.done r : OtpProc β).bind k) ≠ .done (.ok (some true)) := by
  cases r with
  | ok b => exact hk b
  | error e =>
    intro h
    cases h

theorem verifyFound_marks (hmac : String → String) (i : ℕ) (code : String) (otp : Otp) :
    ((verifyFound hmac i code otp).bind fun b => Proc.done (.ok (some b))).Always (Past T)
      (Marks T i) := by
  unfold verifyFound
  simp only [Proc.bind_eq, Proc.bind_assoc, Proc.pure_eq]
  refine Proc.always_rejectWhen_bind fun _ => ?_
  refine Proc.always_call_bind (marks_of_ne (by simp) fun r => ?_) fun now hnow => ?_
  · exact error_ne fun now => rejectWhen_ne (rejectWhen_ne await_ne)
  refine Proc.always_rejectWhen_bind fun hlive => ?_
  have hlive : T ≤ otp.expiresAt := le_trans hnow (not_lt.mp hlive)
  refine Proc.always_rejectWhen_bind fun _ => ?_
  by_cases hvalid : hmac code = otp.codeHash
  · simp only [decide_eq_true hvalid, Bool.true_eq_false, if_false, Proc.bind_assoc]
    refine Proc.always_call_bind (marks_of_ne (by simp) fun r => ?_) fun _ _ => ?_
    · exact error_ne fun _ => await_ne
    refine Proc.always_call_bind (marks_of_ne (by simp) fun r => ?_) fun usedAt _ => ?_
    · exact error_ne fun _ => await_ne
    refine Proc.always_call_bind ⟨?_, ?_⟩ fun _ _ => .done _
    · intro call otp' usedAt' heq
      cases heq
      exact ⟨rfl, hlive⟩
    · intro r hr
      cases r with
      | ok _ => exact ⟨rfl, otp, usedAt, rfl⟩
      | error e => cases hr
  · simp only [decide_eq_false hvalid, if_true, Proc.bind_assoc]
    refine Proc.always_call_bind (marks_of_ne (by simp) fun r => ?_) fun _ _ => ?_
    · exact error_ne fun _ => await_ne
    refine Proc.always_call_bind (marks_of_ne (by simp) fun r => ?_) fun _ _ => .done _
    exact error_ne fun _ h => by cases h

theorem prog_marks (hmac : String → String) (expiry i : ℕ) (T : Time) (k : OtpCall) :
    (prog hmac expiry i k).Always (Past T) (Marks T i) := by
  cases k with
  | generate userId purpose code =>
    unfold prog generate
    simp only [Proc.bind_eq, Proc.bind_assoc, Proc.pure_eq]
    refine Proc.always_call_bind (marks_of_ne (by simp) fun r => ?_) fun t _ => ?_
    · exact error_ne fun _ => await_ne
    refine Proc.always_call_bind (marks_of_ne (by simp) fun r => ?_) fun _ _ => ?_
    · exact error_ne fun _ => await_ne
    refine Proc.always_call_bind (marks_of_ne (by simp) fun r => ?_) fun _ _ => ?_
    · exact error_ne fun _ => await_ne
    refine Proc.always_call_bind (marks_of_ne (by simp) fun r => ?_) fun _ _ => .done _
    exact error_ne fun _ h => by cases h
  | tick ms =>
    refine Proc.always_call_bind (marks_of_ne (by simp) fun r => ?_) fun _ _ => .done _
    exact error_ne fun _ h => by cases h
  | verify userId code purpose =>
    unfold prog verify
    simp only [Proc.bind_eq, Proc.bind_assoc, Proc.pure_eq]
    refine Proc.always_call_bind (marks_of_ne (by simp) fun r => ?_) fun found _ => ?_
    · refine error_ne fun found => ?_
      cases found with
      | none =>
        intro h
        cases h
      | some otp =>
        unfold verifyFound
        simp only [Proc.bind_eq, Proc.bind_assoc]
        exact rejectWhen_ne await_ne
    · cases found with
      | none => exact .done _
      | some otp => exact verifyFound_marks hmac i code otp

end Marks

section Returns

variable {hmac : String → String} {expiry : ℕ} {t : Time} {cfg₀ cfg : OtpConfig}
  {D : Discipline OtpCall OtpCmd OtpCmd.Reply Err OtpDb (Option Bool)}

/-- The clock only moves forward, and rows are used by the save of a use alone. -/
theorem step_accepted (hmac : String → String) (expiry : ℕ) (c : OtpCmd) (fault : Option Err)
    (db : OtpDb) :
    db.now ≤ (after (outcome fault ((server hmac expiry).exec c db)) db).now ∧
    ∀ call otp,
      (call, otp) ∈ (after (outcome fault ((server hmac expiry).exec c db)) db).accepted ↔
        (call, otp) ∈ db.accepted ∨
          ((reply (outcome fault ((server hmac expiry).exec c db))).isOk = true ∧
            ∃ usedAt, c = .saveUsed call otp usedAt) := by
  cases fault with
  | some e => exact ⟨le_rfl, fun call otp => by simp [Except.isOk, Except.toBool]⟩
  | none =>
    cases c with
    | saveUsed call' otp' usedAt =>
      refine ⟨le_rfl, fun call otp => ?_⟩
      refine List.mem_cons.trans (or_comm.trans (or_congr_right ?_))
      constructor
      · intro heq
        cases heq
        exact ⟨rfl, usedAt, rfl⟩
      · rintro ⟨-, _, heq⟩
        cases heq
        rfl
    | tick ms => exact ⟨Nat.le_add_right _ _, fun call otp => by simp [server, exec]⟩
    | _ => exact ⟨le_rfl, fun call otp => by simp [server, exec, OtpDb.delete, OtpDb.put,
        OtpDb.noteComparison]⟩

/-- The calls that used rows were made, and those that returned `true` used one. -/
structure Noted (cfg : OtpConfig) : Prop where
  made : ∀ i otp, (i, otp) ∈ cfg.state.accepted → cfg.thread i ≠ none
  accounted : ∀ i, ReturnedTrue cfg i → ∃ otp, (i, otp) ∈ cfg.state.accepted

theorem noted_start (t : Time) : Noted (start t) := by
  refine ⟨fun i otp hmem => (by cases hmem), ?_⟩
  rintro i ⟨th, hth, -⟩
  cases hth

theorem noted_reach (h : Reach (server hmac expiry) D (start t) cfg) :
    Noted cfg ∧ ∀ i th, cfg.thread i = some th → th.proc.Always (Past 0) (Marks 0 i) := by
  refine h.invariant_always (I := Noted) (Q := fun i _ => Marks 0 i) (noted_start t) rfl
    (fun i k => prog_marks hmac expiry i 0 k) ?call ?step
  case call =>
    intro cfg i k hnoted hfresh _
    constructor
    · intro j otp hmem
      rw [Config.thread_spawn]
      split
      · exact Option.some_ne_none _
      · exact hnoted.made j otp hmem
    · rintro j ⟨th, hth, hdone⟩
      rcases Config.thread_spawn_cases hth with ⟨rfl, rfl⟩ | hold
      · -- no method returns before its first await
        cases k <;> cases hdone
      · exact hnoted.accounted j ⟨th, hold, hdone⟩
  case step =>
    intro cfg i fault th c next hnoted hth hproc hmarks _
    have hacc := (step_accepted hmac expiry c fault cfg.state).2
    refine ⟨⟨?_, ?_⟩, fun a s' _ => ?_⟩
    · intro j otp hj
      rw [Config.thread_resume]
      split
      · exact Option.some_ne_none _
      · rename_i hne
        rcases (hacc j otp).mp hj with hold | ⟨-, usedAt, rfl⟩
        · exact hnoted.made j otp hold
        · obtain ⟨rfl, -⟩ := hmarks.unexpired _ _ _ rfl
          exact absurd (Config.id_of_thread hth) hne
    · rintro j ⟨th', hth', hdone⟩
      rcases Config.thread_resume_cases hth hth' with ⟨rfl, rfl⟩ | hold
      · obtain ⟨hok, otp, usedAt, hc⟩ := hmarks.last _ hdone
        exact ⟨otp, (hacc j otp).mpr (Or.inr ⟨hok, usedAt, hc⟩)⟩
      · obtain ⟨otp, hotp⟩ := hnoted.accounted j ⟨th', hold, hdone⟩
        exact ⟨otp, (hacc j otp).mpr (Or.inl hotp)⟩
    · cases c <;> first | trivial | exact Nat.zero_le _

/-- **An expired code is refused**, in every run. -/
theorem accepted_in_time (h₀ : Reach (server hmac expiry) D (start t) cfg₀)
    (h : Reach (server hmac expiry) D cfg₀ cfg) {i : ℕ} {otp : Otp}
    (hfresh : cfg₀.thread i = none) (hused : (i, otp) ∈ cfg.state.accepted) :
    cfg₀.state.now ≤ otp.expiresAt := by
  obtain ⟨hnoted, hall⟩ := noted_reach h₀
  -- only the new call is held to the time of its start
  let bound : ℕ → Time := fun j => if j = i then cfg₀.state.now else 0
  have hbound : ∀ j, bound j ≤ cfg₀.state.now := by
    intro j
    by_cases hj : j = i <;> simp [bound, hj]
  have hrun := h.invariant_always_from
    (I := fun cfg => cfg₀.state.now ≤ cfg.state.now ∧
      ∀ otp, (i, otp) ∈ cfg.state.accepted → cfg₀.state.now ≤ otp.expiresAt)
    (G := fun _ => Past cfg₀.state.now) (Q := fun j _ => Marks (bound j) j)
    ⟨le_rfl, fun otp hmem => absurd hfresh (hnoted.made i otp hmem)⟩
    (fun j th hth => ?_) (fun j k => ?_) (fun cfg j k hI _ _ => hI) ?_
  · exact hrun.1.2 otp hused
  · have hj : j ≠ i := by
      rintro rfl
      rw [hfresh] at hth
      cases hth
    have hzero : bound j = 0 := if_neg hj
    rw [hzero]
    refine (hall j th hth).replies fun c a _ => ?_
    cases c <;> first | trivial | exact Nat.zero_le _
  · refine (prog_marks hmac expiry j (bound j) k).replies fun c a ha => ?_
    cases c with
    | now => exact (hbound j).trans ha
    | _ => trivial
  · intro cfg j fault th c next ⟨hclock, hacc⟩ hth hproc hmarks _ _
    obtain ⟨hlater, hmem⟩ := step_accepted hmac expiry c fault cfg.state
    refine ⟨⟨hclock.trans hlater, fun otp hotp => ?_⟩, fun a s' hout => ?_⟩
    · rcases (hmem i otp).mp hotp with hold | ⟨-, usedAt, hc⟩
      · exact hacc otp hold
      · obtain ⟨rfl, hin⟩ := hmarks.unexpired _ _ _ hc
        have hself : bound i = cfg₀.state.now := if_pos rfl
        exact hself ▸ hin
    · cases c with
      | now =>
        have hexec := (outcome_eq_ok hout).2
        cases hexec
        exact hclock
      | _ => trivial

/-- **Guessing bound and single use.** Every interleaving in which the `verify`
calls of a user and purpose do not overlap and wrong attempts are saved. -/
theorem otp_discipline (h₀ : Reach (server hmac expiry) oneAtATime (start t) cfg₀)
    (h : Reach (server hmac expiry) oneAtATime cfg₀ cfg) :
    GuessBound cfg ∧
      ∀ i otp, cfg₀.thread i = none → Accepted cfg i otp → cfg₀.state.now ≤ otp.expiresAt := by
  have hreach := h₀.trans h
  refine ⟨⟨fun id => (bounded_reach hreach id).1, ?_, ?_⟩, fun i otp hfresh hacc =>
    accepted_in_time h₀ h hfresh hacc.2⟩
  · intro i j otp otp' hi hj hid
    have hsame := Table.eq_of_countP_le_one (bounded_reach hreach otp.id).2 hi.2 (by simp) hj.2
      (by simp [hid])
    exact congrArg Prod.fst hsame
  · intro i hi
    obtain ⟨otp, hotp⟩ := (noted_reach hreach).1.accounted i hi
    exact ⟨otp, hi, hotp⟩

end Returns

/-- A password is generated; a wrong code and then the right one are tried. -/
def twoTries : List (Event OtpCall Err) :=
  [.call 0 (.generate 1 .twoFa "123456"), .step 0 none, .step 0 none, .step 0 none, .step 0 none,
    .call 1 (.verify 1 "654321" .twoFa), .step 1 none, .step 1 none, .step 1 none, .step 1 none,
    .call 2 (.verify 1 "123456" .twoFa), .step 2 none, .step 2 none, .step 2 none, .step 2 none,
    .step 2 none]

/-- What is observed of them. -/
def counts (cfg : OtpConfig) : ℕ × ℕ :=
  (wrong cfg.state (1, .twoFa, 0), used cfg.state (1, .twoFa, 0))

theorem otp_discipline_two_tries :
    ∃ cfg, Reach (server id 300) oneAtATime (start 0) cfg ∧ GuessBound cfg ∧
      counts cfg = (1, 1) := by
  have hrun : ((server id 300).runChecked (fun cfg th _ failed =>
      !failed && (th.begun || cfg.idle)) (start 0) twoTries).map counts = some (1, 1) := by
    decide +kernel
  obtain ⟨cfg, hcfg, hcounts⟩ := Option.map_eq_some_iff.mp hrun
  have hreach : Reach (server id 300) oneAtATime (start 0) cfg := by
    refine Reach.of_runChecked .refl (fun _ _ _ _ => trivial) ?_ hcfg
    intro cfg th c failed hcheck
    simp only [Bool.and_eq_true, Bool.not_eq_true', Bool.or_eq_true] at hcheck
    refine ⟨fun hbegun _ _ _ _ j th' _ hth' _ => ?_, fun _ _ => hcheck.1⟩
    have hidle := hcheck.2.resolve_left (by simp [hbegun])
    exact Config.vacant_of_idle hidle (fun _ => true) j th' hth' rfl
  exact ⟨cfg, hreach, (otp_discipline hreach .refl).1, hcounts⟩

/-- Six guesses that all read the counter before the first of them saves it. -/
def sixGuesses : List (Event OtpCall Err) :=
  [.call 0 (.generate 1 .twoFa "123456"), .step 0 none, .step 0 none, .step 0 none,
    .step 0 none] ++
  (List.range 6).flatMap (fun n =>
    [.call (n + 1) (.verify 1 "000000" .twoFa), .step (n + 1) none]) ++
  (List.range 6).flatMap (fun n => [.step (n + 1) none, .step (n + 1) none]) ++
  (List.range 6).map (fun n => .step (n + 1) none)

/-- Two calls with the right code that both read the row before either saves. -/
def usedAtOnce : List (Event OtpCall Err) :=
  [.call 0 (.generate 1 .twoFa "123456"), .step 0 none, .step 0 none, .step 0 none, .step 0 none,
    .call 1 (.verify 1 "123456" .twoFa), .call 2 (.verify 1 "123456" .twoFa),
    .step 1 none, .step 2 none, .step 1 none, .step 1 none, .step 1 none, .step 1 none,
    .step 2 none, .step 2 none, .step 2 none, .step 2 none]

/-- Six wrong codes are compared with one row, whose counter then says one; and
two calls are told that their code was right. -/
theorem guesses_unbounded :
    (∃ cfg, Reach (server id 300) .free (start 0) cfg ∧ ¬ GuessBound cfg ∧ counts cfg = (6, 0) ∧
      (cfg.state.otp (1, .twoFa, 0)).map Otp.attempts = some 1) ∧
    ∃ cfg, Reach (server id 300) .free (start 0) cfg ∧ ¬ GuessBound cfg ∧
      ReturnedTrue cfg 1 ∧ ReturnedTrue cfg 2 := by
  constructor
  · have hbroken : ∀ cfg, counts cfg = (6, 0) → ¬ GuessBound cfg := by
      intro cfg hcounts h
      have hle := h.guesses (1, .twoFa, 0)
      have hsix : wrong cfg.state (1, .twoFa, 0) = 6 := congrArg Prod.fst hcounts
      rw [hsix] at hle
      exact absurd hle (by decide)
    have hcounts : counts ((server id 300).play (start 0) sixGuesses) = (6, 0) := by
      decide +kernel
    exact ⟨_, Reach.refl.play _, hbroken _ hcounts, hcounts, by decide +kernel⟩
  · have hbroken : ∀ cfg, ReturnedTrue cfg 1 → ReturnedTrue cfg 2 →
        (∀ a ∈ cfg.state.accepted, a.2.id = (1, .twoFa, 0)) → ¬ GuessBound cfg := by
      intro cfg hfirst hsecond hrow h
      obtain ⟨otp, hotp⟩ := h.accounted 1 hfirst
      obtain ⟨otp', hotp'⟩ := h.accounted 2 hsecond
      have hid : otp.id = otp'.id := (hrow _ hotp.2).trans (hrow _ hotp'.2).symm
      have heq := h.once 1 2 otp otp' hotp hotp' hid
      omega
    have hfirst : ReturnedTrue ((server id 300).play (start 0) usedAtOnce) 1 := ⟨_, rfl, rfl⟩
    have hsecond : ReturnedTrue ((server id 300).play (start 0) usedAtOnce) 2 := ⟨_, rfl, rfl⟩
    exact ⟨_, Reach.refl.play _, hbroken _ hfirst hsecond (by decide +kernel), hfirst, hsecond⟩

end Otps

end NexaFx
