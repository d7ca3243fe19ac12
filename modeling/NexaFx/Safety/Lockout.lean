import NexaFx.Model.Login

/-!
# NexaFx — the login lockout

The lock is checked before the password and a right password clears it, but no
login ever sets it: the branch that would store it throws on an undeclared name
before the update (`lock_never_stored`), and with it the fifth failure is not
counted either. So a sequence of logins keeps the lockout promise exactly when
no five wrong passwords in a row meet the account unlocked (`lockout_iff`).
-/

namespace NexaFx

namespace Auth

-- ---------------------------------------------------------------------------
-- The property
-- ---------------------------------------------------------------------------

/-- The calls on one account, in order. -/
def onAccount (email : String) (h : List LoginEntry) : List LoginEntry :=
  h.filter fun e => decide (e.call.dto.email = email)

namespace LoginEntry

/-- The account as the call finds it, and as it leaves it. -/
def found (e : LoginEntry) : Option User := e.before.findByEmail e.call.dto.email
def left (e : LoginEntry) : Option User := e.after.findByEmail e.call.dto.email

/-- A wrong password on an account that is not locked. -/
def Wrong (hash : String → String) (e : LoginEntry) : Prop :=
  ∃ user, e.found = some user ∧ user.lock e.call.now = none ∧
    hash e.call.dto.password ≠ user.passwordHash

instance (hash : String → String) (e : LoginEntry) : Decidable (e.Wrong hash) :=
  inferInstanceAs (Decidable (∃ user ∈ e.found, user.lock e.call.now = none ∧
    hash e.call.dto.password ≠ user.passwordHash))

end LoginEntry

/-- Five wrong passwords in a row, of which `fifth` is the last. -/
structure FiveWrong (hash : String → String) (h earlier four : List LoginEntry)
    (fifth : LoginEntry) (later : List LoginEntry) : Prop where
  split : h = earlier ++ four ++ fifth :: later
  length : four.length = 4
  wrong : ∀ e ∈ four, e.Wrong hash
  last : fifth.Wrong hash

structure Lockout (hash : String → String) (h : List LoginEntry) : Prop where
  /-- The fifth wrong password locks the stored account for 30 minutes. -/
  stored : ∀ earlier four fifth later, FiveWrong hash h earlier four fifth later →
    fifth.left.map User.lockedUntil = some (some (fifth.call.now + LOCKOUT_MS))
  /-- Until then no token is issued, whatever the password. -/
  closed : ∀ earlier four fifth later, FiveWrong hash h earlier four fifth later →
    ∀ e ∈ later, e.call.now < fifth.call.now + LOCKOUT_MS → ∃ err, e.result = .error err
  /-- The same of any lock that is stored. -/
  respected : ∀ e ∈ h, ∀ user, e.found = some user → (user.lock e.call.now).isSome = true →
    ∃ err, e.result = .error err
  /-- A token is issued with the counter and the lock cleared. -/
  reset : ∀ e ∈ h, ∀ token, e.result = .ok token →
    ∃ user, e.left = some user ∧ user.failedLoginAttempts = 0 ∧ user.lockedUntil = none

-- ---------------------------------------------------------------------------
-- One call
-- ---------------------------------------------------------------------------

section Call

variable {hash : String → String} {jwtExpiry : ℕ} {users : Users} {now : Time}
  {standing : Standing} {dto : LoginDto} {user : User}

/-- A wrong password leaves the lock as it is, and no token is issued. -/
theorem rejectPassword_spec (h : users.findByEmail dto.email = some user) :
    (∃ err, (rejectPassword users user).1 = .error err) ∧
    ((rejectPassword users user).2.findByEmail dto.email).map User.lockedUntil =
      some user.lockedUntil := by
  unfold rejectPassword
  split
  · -- the threshold: nothing is stored
    exact ⟨⟨_, rfl⟩, by rw [h]; rfl⟩
  · rw [Users.update_found h]
    refine ⟨⟨_, rfl⟩, ?_⟩
    rw [Users.findByEmail_written h]
    rfl

theorem letIn_users : (letIn jwtExpiry standing now user users).2 = users := by
  unfold letIn
  split
  · rfl
  · split <;> rfl

/-- A right password leaves the account with counter and lock cleared. -/
theorem acceptPassword_spec (h : users.findByEmail dto.email = some user) :
    ∃ user', (acceptPassword jwtExpiry standing now users user).2.findByEmail dto.email =
      some user' ∧ user'.failedLoginAttempts = 0 ∧ user'.lockedUntil = none := by
  unfold acceptPassword
  split
  · rw [Users.update_found h]
    simp only [letIn_users]
    exact ⟨_, Users.findByEmail_written h _, rfl, rfl⟩
  · rename_i hclear
    push Not at hclear
    rw [letIn_users]
    exact ⟨user, h, by omega, by simpa using hclear.2⟩

/-- **Inversion.** A call on the account is turned away before the password, or
has a wrong password, or the right one. -/
theorem login_cases (hash : String → String) (jwtExpiry : ℕ) (now : Time) (standing : Standing)
    (h : users.findByEmail dto.email = some user) :
    (∃ err, login hash jwtExpiry users now standing dto = (.error err, users)) ∨
    (user.lock now = none ∧ hash dto.password ≠ user.passwordHash ∧
      login hash jwtExpiry users now standing dto = rejectPassword users user) ∨
    (user.lock now = none ∧ hash dto.password = user.passwordHash ∧
      login hash jwtExpiry users now standing dto =
        acceptPassword jwtExpiry standing now users user) := by
  unfold login
  simp only [h]
  split
  · exact Or.inl ⟨_, rfl⟩
  · cases hlock : user.lock now with
    | some until_ => exact Or.inl ⟨_, rfl⟩
    | none =>
      right
      by_cases hpassword : hash dto.password = user.passwordHash
      · exact Or.inr ⟨rfl, hpassword, if_neg (not_not.mpr hpassword)⟩
      · exact Or.inl ⟨rfl, hpassword, if_pos hpassword⟩

end Call

-- ---------------------------------------------------------------------------
-- Sequences of calls
-- ---------------------------------------------------------------------------

/-- The stored lock of an account. -/
def Users.lockedUntil (users : Users) (email : String) : Option Time :=
  (users.findByEmail email).bind User.lockedUntil

section Sequences

variable {hash : String → String} {jwtExpiry : ℕ} {users : Users} {calls : List LoginCall}
  {e : LoginEntry} {email : String}

/-- An update that names no lock, or clears it. -/
theorem lockedUntil_write (users : Users) (id : UserId) {dto : UpdateUserDto}
    (hdto : dto.lockedUntil = none ∨ dto.lockedUntil = some none) (email : String) :
    (users.write id dto).lockedUntil email = users.lockedUntil email ∨
      (users.write id dto).lockedUntil email = none := by
  unfold Users.lockedUntil
  rw [Users.findByEmail_write]
  cases users.findByEmail email with
  | none => exact Or.inl rfl
  | some user =>
    simp only [Option.map_some, Option.bind_some]
    split
    · rcases hdto with hdto | hdto
      · left
        simp [User.assign, hdto]
      · right
        simp [User.assign, hdto]
    · exact Or.inl rfl

/-- A call leaves the lock of every account as it finds it, or clears it. -/
theorem login_lockedUntil (hash : String → String) (jwtExpiry : ℕ) (users : Users) (call : LoginCall) (email : String) :
    (login hash jwtExpiry users call.now call.standing call.dto).2.lockedUntil email =
        users.lockedUntil email ∨
      (login hash jwtExpiry users call.now call.standing call.dto).2.lockedUntil email = none := by
  cases hfound : users.findByEmail call.dto.email with
  | none =>
    left
    rw [login, hfound]
  | some user =>
    rcases login_cases hash jwtExpiry call.now call.standing hfound with
      ⟨err, hlogin⟩ | ⟨-, -, hlogin⟩ | ⟨-, -, hlogin⟩
    · left
      rw [hlogin]
    · rw [hlogin, rejectPassword]
      split
      · exact Or.inl rfl
      · rw [Users.update_found hfound]
        exact lockedUntil_write users user.id (Or.inl rfl) email
    · rw [hlogin, acceptPassword]
      split
      · rw [Users.update_found hfound]
        simp only [letIn_users]
        exact lockedUntil_write users user.id (Or.inr rfl) email
      · rw [letIn_users]
        exact Or.inl rfl

/-- **No lock is ever stored.** A lock that is found after a sequence of logins
was there before it. -/
theorem lock_never_stored {t : Time} (he : e ∈ logins hash jwtExpiry users calls)
    (ht : e.after.lockedUntil email = some t) : users.lockedUntil email = some t := by
  induction calls generalizing users with
  | nil => cases he
  | cons call calls ih =>
    have hstep := login_lockedUntil hash jwtExpiry users call email
    rw [logins, List.mem_cons] at he
    have hfirst : (login hash jwtExpiry users call.now call.standing call.dto).2.lockedUntil email =
        some t := by
      rcases he with rfl | he
      · exact ht
      · exact ih he
    rw [hfirst] at hstep
    exact (hstep.resolve_right (by simp)).symm

/-- Every entry of a sequence is one call. -/
theorem login_of_mem (he : e ∈ logins hash jwtExpiry users calls) :
    e.result = (login hash jwtExpiry e.before e.call.now e.call.standing e.call.dto).1 ∧
    e.after = (login hash jwtExpiry e.before e.call.now e.call.standing e.call.dto).2 := by
  induction calls generalizing users with
  | nil => cases he
  | cons call calls ih =>
    rw [logins, List.mem_cons] at he
    rcases he with rfl | he
    · exact ⟨rfl, rfl⟩
    · exact ih he

/-- A call that issues a token leaves counter and lock cleared. -/
theorem cleared_of_ok {token : Token} (he : e ∈ logins hash jwtExpiry users calls)
    (htoken : e.result = .ok token) :
    ∃ user, e.left = some user ∧ user.failedLoginAttempts = 0 ∧ user.lockedUntil = none := by
  obtain ⟨hresult, hafter⟩ := login_of_mem he
  rw [hresult] at htoken
  rw [LoginEntry.left, hafter]
  cases hfound : e.before.findByEmail e.call.dto.email with
  | none =>
    rw [login, hfound] at htoken
    cases htoken
  | some user =>
    rcases login_cases hash jwtExpiry e.call.now e.call.standing hfound with
      ⟨err, hlogin⟩ | ⟨-, -, hlogin⟩ | ⟨-, -, hlogin⟩
    · rw [hlogin] at htoken
      cases htoken
    · obtain ⟨err, herr⟩ := (rejectPassword_spec hfound).1
      rw [hlogin, herr] at htoken
      cases htoken
    · rw [hlogin]
      exact acceptPassword_spec hfound

/-- A wrong password stores no lock. -/
theorem left_of_wrong (he : e ∈ logins hash jwtExpiry users calls) (hwrong : e.Wrong hash) :
    e.left.map User.lockedUntil ≠ some (some (e.call.now + LOCKOUT_MS)) := by
  obtain ⟨user, hfound, hunlocked, hpassword⟩ := hwrong
  have hleft : e.left.map User.lockedUntil = some user.lockedUntil := by
    rcases login_cases hash jwtExpiry e.call.now e.call.standing hfound with
      ⟨err, hlogin⟩ | ⟨-, -, hlogin⟩ | ⟨-, hright, -⟩
    · rw [LoginEntry.left, (login_of_mem he).2, hlogin]
      rw [LoginEntry.found] at hfound
      rw [hfound]
      rfl
    · rw [LoginEntry.left, (login_of_mem he).2, hlogin]
      exact (rejectPassword_spec hfound).2
    · exact absurd hright hpassword
  rw [hleft]
  intro hlock
  -- a lock half an hour ahead would have turned the call away
  rw [User.lock, Option.some.inj hlock] at hunlocked
  simp [LOCKOUT_MS] at hunlocked

/-- **When the lockout promise is kept.** -/
theorem lockout_iff (hash : String → String) (jwtExpiry : ℕ) (users : Users)
    (calls : List LoginCall) (email : String) :
    Lockout hash (onAccount email (logins hash jwtExpiry users calls)) ↔
      ¬ ∃ earlier four fifth later,
        FiveWrong hash (onAccount email (logins hash jwtExpiry users calls)) earlier four fifth
          later := by
  have hmem : ∀ e ∈ onAccount email (logins hash jwtExpiry users calls),
      e ∈ logins hash jwtExpiry users calls := fun e he => List.mem_of_mem_filter he
  constructor
  · rintro h ⟨earlier, four, fifth, later, hfive⟩
    have hfifth : fifth ∈ logins hash jwtExpiry users calls :=
      hmem fifth (by rw [hfive.split]; simp)
    exact left_of_wrong hfifth hfive.last (h.stored earlier four fifth later hfive)
  · intro hno
    refine ⟨?_, ?_, ?_, ?_⟩
    · intro earlier four fifth later hfive
      exact absurd ⟨earlier, four, fifth, later, hfive⟩ hno
    · intro earlier four fifth later hfive
      exact absurd ⟨earlier, four, fifth, later, hfive⟩ hno
    · intro e he user hfound hlocked
      rw [(login_of_mem (hmem e he)).1]
      rcases login_cases hash jwtExpiry e.call.now e.call.standing hfound with
        ⟨err, hlogin⟩ | ⟨hunlocked, -, -⟩ | ⟨hunlocked, -, -⟩
      · exact ⟨err, by rw [hlogin]⟩
      · simp [hunlocked] at hlocked
      · simp [hunlocked] at hlocked
    · intro e he token htoken
      exact cleared_of_ok (hmem e he) htoken

end Sequences

-- ---------------------------------------------------------------------------
-- Five wrong passwords
-- ---------------------------------------------------------------------------

/-- One account, with the password itself for its digest. -/
def oneUser : Users where
  rows := [⟨1, "ada@nexafx.io", "countess", .user, false, 0, none⟩]
  ids := by decide
  emails := by decide

/-- A login of that account, one minute after the other. -/
def tryPassword (minute : ℕ) (password : String) : LoginCall :=
  ⟨minute * 60000, ⟨true, false⟩, ⟨"ada@nexafx.io", password, none⟩⟩

/-- Five guesses, and the right password after them. -/
def sixCalls : List LoginCall :=
  [tryPassword 1 "guess-1", tryPassword 2 "guess-2", tryPassword 3 "guess-3",
    tryPassword 4 "guess-4", tryPassword 5 "guess-5", tryPassword 6 "countess"]

/-- What the six calls do. -/
def sixLogins : List LoginEntry := onAccount "ada@nexafx.io" (logins id 3600 oneUser sixCalls)

theorem sixLogins_drop : sixLogins.drop 4 ≠ [] := by
  intro hnil
  have hlength : (sixLogins.drop 4).length = 2 := by decide +kernel
  rw [hnil] at hlength
  cases hlength

/-- The account is not locked by the five, and the sixth is let in. -/
theorem lockout_missing :
    sixCalls.Pairwise (fun call call' => call.now ≤ call'.now) ∧
      (∀ call ∈ sixCalls, call.dto.email = "ada@nexafx.io") ∧
      sixLogins.map (fun e => e.result.isOk) = [false, false, false, false, false, true] ∧
      ¬ Lockout id sixLogins := by
  refine ⟨by decide, by decide +kernel, by decide +kernel, ?_⟩
  intro h
  have hfive : FiveWrong id sixLogins [] (sixLogins.take 4) ((sixLogins.drop 4).head sixLogins_drop)
      (sixLogins.drop 4).tail := by
    refine ⟨?_, by decide +kernel, by decide +kernel, by decide +kernel⟩
    rw [List.nil_append, List.cons_head_tail, List.take_append_drop]
  have hmem : (sixLogins.drop 4).head sixLogins_drop ∈ logins id 3600 oneUser sixCalls := by
    refine List.mem_of_mem_filter (p := fun e => decide (e.call.dto.email = "ada@nexafx.io")) ?_
    exact List.mem_of_mem_drop (List.head_mem sixLogins_drop)
  exact left_of_wrong hmem hfive.last (h.stored [] _ _ _ hfive)

end Auth

end NexaFx
