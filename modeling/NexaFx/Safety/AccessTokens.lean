import NexaFx.Model.AccessTokens

/-!
# NexaFx — access tokens after a password change

The strategy turns away what was issued in an earlier second than the change;
the guard of the controllers does not look at the change at all. So a token from
before a change is turned away on both paths exactly if it has expired by itself
(`password_change_respected_iff`).
-/

namespace NexaFx

open Auth

namespace Jwt

-- ---------------------------------------------------------------------------
-- The property
-- ---------------------------------------------------------------------------

/-- A request to a protected route with this token. -/
def presenting (token : Token) : Request := ⟨false, some (.credentials "Bearer" token)⟩

/-- Both paths turn the token away. -/
def RejectedBy (db : UsersDb) (token : Token) : Prop :=
  (jwtStrategy db (presenting token)).isOk = false ∧
    (canActivate db (presenting token)).isOk = false

def AcceptedBy (db : UsersDb) (token : Token) : Prop :=
  (jwtStrategy db (presenting token)).isOk = true ∧
    (canActivate db (presenting token)).isOk = true

/-- A token is presented after these events. -/
structure PasswordChangeRespected (db : UsersDb) (events : List UserEvent) (id : UserId)
    (issuedAt : Time) (token : Token) : Prop where
  /-- It was issued before a change that has returned. -/
  earlier : ∀ before newPasswordHash after db', events = before ++
    .updatePassword id newPasswordHash :: after →
    (db.run before).updatePassword id newPasswordHash = .ok db' → issuedAt < (db.run before).now →
    RejectedBy (db.run events) token
  /-- It was issued after the change that the row records, and has not expired. -/
  later : (∀ user changedAt, (db.run events).user id = some user →
    user.passwordChangedAt = some changedAt → changedAt ≤ issuedAt) →
    verify (db.run events).now token ≠ none → AcceptedBy (db.run events) token

-- ---------------------------------------------------------------------------
-- The two paths
-- ---------------------------------------------------------------------------

section Paths

variable {db : UsersDb} {id : UserId} {token : Token} {payload : Claims}

/-- The guard looks at the token alone. -/
theorem canActivate_presenting (db : UsersDb) (token : Token) :
    (canActivate db (presenting token)).isOk = (verify db.now token).isSome := by
  have hbearer : bearerToken (presenting token) = some token := rfl
  rw [canActivate, if_neg (by simp [presenting]), hbearer]
  simp only
  cases verify db.now token <;> rfl

/-- The strategy looks at the row as well. -/
theorem jwtStrategy_presenting (db : UsersDb) (token : Token) :
    (jwtStrategy db (presenting token)).isOk =
      (verify db.now token).any fun payload => (validate db payload).isOk := by
  have hbearer : fromAuthHeaderAsBearerToken (presenting token) = some token := by
    show (if "Bearer".toList.map Char.toLower = "bearer".toList then some token else none) = some token
    rw [if_pos (by decide)]
  rw [jwtStrategy, hbearer]
  simp only
  cases verify db.now token <;> rfl

theorem validate_isOk {user : User} (huser : db.user payload.sub = some user) :
    (validate db payload).isOk = true ↔
      ∀ changedAt, user.passwordChangedAt = some changedAt → seconds changedAt ≤ payload.iat := by
  have hfound : db.findById payload.sub = .ok user := by
    rw [UsersDb.findById, huser]
  rw [validate, hfound]
  simp only
  cases hchanged : user.passwordChangedAt with
  | none => simp [Except.isOk, Except.toBool]
  | some changedAt =>
    by_cases hearly : payload.iat < seconds changedAt
    · simp [hearly, Except.isOk, Except.toBool]
    · simp [hearly, Except.isOk, Except.toBool]
      omega

theorem seconds_mono {t t' : Time} (h : t ≤ t') : seconds t ≤ seconds t' := Nat.div_le_div_right h

end Paths

-- ---------------------------------------------------------------------------
-- Users stay
-- ---------------------------------------------------------------------------

section Runs

variable {db : UsersDb} {id : UserId}

theorem UsersDb.user_step {user : User} (huser : db.user id = some user) (e : UserEvent) :
    ∃ user', (db.step e).user id = some user' := by
  cases e with
  | tick ms => exact ⟨user, huser⟩
  | updatePassword id' newPasswordHash =>
    rw [UsersDb.step]
    cases hupdate : db.updatePassword id' newPasswordHash with
    | error e => exact ⟨user, huser⟩
    | ok db' =>
      rw [UsersDb.updatePassword] at hupdate
      split at hupdate
      · cases hupdate
      · rename_i found _
        cases hupdate
        rw [UsersDb.user]
        simp only [Table.get_put]
        split
        · exact ⟨_, rfl⟩
        · exact ⟨user, huser⟩

theorem UsersDb.user_run {user : User} (huser : db.user id = some user) (events : List UserEvent) :
    ∃ user', (db.run events).user id = some user' := by
  induction events generalizing db user with
  | nil => exact ⟨user, huser⟩
  | cons e events ih =>
    obtain ⟨user', huser'⟩ := UsersDb.user_step huser e
    exact ih huser'

end Runs

/-- **Password changes.** Tokens from before a change are turned away exactly if
they have expired. -/
theorem password_change_respected_iff {db : UsersDb} {user : User} {id : UserId}
    (huser : db.user id = some user) (events : List UserEvent) (jwtExpiry : ℕ) (issuedAt : Time)
    (email role : String) :
    PasswordChangeRespected db events id issuedAt (issueToken jwtExpiry issuedAt id email role) ↔
      ∀ before newPasswordHash after db', events = before ++
        .updatePassword id newPasswordHash :: after →
        (db.run before).updatePassword id newPasswordHash = .ok db' →
        issuedAt < (db.run before).now →
        seconds issuedAt + jwtExpiry ≤ seconds (db.run events).now := by
  let payload : Claims := ⟨id, email, role, none, seconds issuedAt, seconds issuedAt + jwtExpiry⟩
  have htoken : issueToken jwtExpiry issuedAt id email role = .signed payload := rfl
  have hverify : verify (db.run events).now (.signed payload) =
      if seconds (db.run events).now < payload.exp then some payload else none := rfl
  constructor
  · intro h before newPasswordHash after db' hevents hupdate hissued
    obtain ⟨-, hguard⟩ := h.earlier before newPasswordHash after db' hevents hupdate hissued
    by_contra hunexpired
    rw [canActivate_presenting, htoken, hverify, if_pos (not_le.mp hunexpired)] at hguard
    cases hguard
  · intro h
    constructor
    · intro before newPasswordHash after db' hevents hupdate hissued
      have hexpired := h before newPasswordHash after db' hevents hupdate hissued
      have hnone : verify (db.run events).now (.signed payload) = none := by
        rw [hverify, if_neg (not_lt.mpr hexpired)]
      rw [htoken, RejectedBy, jwtStrategy_presenting, canActivate_presenting, hnone]
      exact ⟨rfl, rfl⟩
    · intro hchanged hunexpired
      rw [htoken] at hunexpired ⊢
      have hsome : verify (db.run events).now (.signed payload) = some payload := by
        rw [hverify] at hunexpired ⊢
        split at hunexpired
        · rename_i hexp
          rw [if_pos hexp]
        · exact absurd rfl hunexpired
      obtain ⟨user', huser'⟩ := UsersDb.user_run huser events
      have hvalid : (validate (db.run events) payload).isOk = true := by
        rw [validate_isOk huser']
        intro changedAt hat
        exact seconds_mono (hchanged user' changedAt huser' hat)
      rw [AcceptedBy, jwtStrategy_presenting, canActivate_presenting, hsome]
      exact ⟨hvalid, rfl⟩

/-- User 1, with a password that has not been changed. -/
def oneUser : UsersDb := ⟨[⟨1, "hash", none⟩], 1767225600000⟩

/-- The password is changed after a second, and an hour passes. -/
def changedLongAgo : List UserEvent := [.tick 1000, .updatePassword 1 "hash'", .tick 3600000]

/-- A token that lives an hour has expired. -/
theorem password_change_respected_expired :
    PasswordChangeRespected oneUser changedLongAgo 1 1767225600000
      (issueToken 3600 1767225600000 1 "user@example.com" "user") :=
  (password_change_respected_iff rfl changedLongAgo 3600 1767225600000
    "user@example.com" "user").mpr fun _ _ _ _ _ _ _ => by decide +kernel

/-- A minute after the change, the guard lets the old token in. -/
theorem accepted_after_change :
    ¬ PasswordChangeRespected oneUser [.tick 1000, .updatePassword 1 "hash'", .tick 60000] 1
      1767225600000 (issueToken 3600 1767225600000 1 "user@example.com" "user") := by
  intro h
  obtain ⟨-, hguard⟩ := h.earlier [.tick 1000] "hash'" [.tick 60000] _ rfl rfl (by decide +kernel)
  have haccepts : (canActivate (oneUser.run [.tick 1000, .updatePassword 1 "hash'", .tick 60000])
      (presenting (issueToken 3600 1767225600000 1 "user@example.com" "user"))).isOk = true := by
    decide +kernel
  rw [haccepts] at hguard
  cases hguard

end Jwt

end NexaFx
