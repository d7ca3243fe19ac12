import NexaFx.Model.Database

/-!
# NexaFx — rotation of JWT refresh tokens

`AuthService.rotateRefreshToken` and `issueToken` of `auth/auth.service.ts`.

A token that the service has signed is the text of its claims with a signature
that depends on nothing else, so it is kept as its claims: signing the same
claims again gives the same token. `verify` accepts the unexpired ones among
these, by the clock in whole seconds. `usedRefreshTokens` is a set in memory;
the method has no await, so a call is one step on it.
-/

namespace NexaFx

namespace Auth

-- ---------------------------------------------------------------------------
-- Tokens
-- ---------------------------------------------------------------------------

/-- The claims of a token. An access token has no `type`. -/
structure Claims where
  sub : UserId
  email : String
  role : String
  type : Option String
  iat : ℕ
  exp : ℕ
  deriving DecidableEq

/-- The text of a token: signed by the service, or anything else. -/
inductive Token where
  | signed (claims : Claims)
  | other (text : String)
  deriving DecidableEq

/-- `Math.floor(Date.now() / 1000)`. -/
def seconds (now : Time) : ℕ := now / 1000

/-- `jwtService.verify`. -/
def verify (now : Time) : Token → Option Claims
  | .signed claims => if seconds now < claims.exp then some claims else none
  | .other _ => none

/-- `jwtService.sign`, valid for `expiresIn` seconds. -/
def sign (now : Time) (sub : UserId) (email role : String) (type : Option String)
    (expiresIn : ℕ) : Token :=
  .signed ⟨sub, email, role, type, seconds now, seconds now + expiresIn⟩

/-- `'7d'`. -/
def REFRESH_EXPIRES_IN : ℕ := 604800

-- ---------------------------------------------------------------------------
-- The service
-- ---------------------------------------------------------------------------

/-- `issueToken`; `jwtExpiry` is the `expiresIn` of the signing module. -/
def issueToken (jwtExpiry : ℕ) (now : Time) (userId : UserId) (email role : String) : Token :=
  sign now userId email role none jwtExpiry

/-- What a rotation returns. -/
structure TokenPair where
  accessToken : Token
  refreshToken : Token
  deriving DecidableEq

def newAccessToken (jwtExpiry : ℕ) (now : Time) (payload : Claims) : Token :=
  sign now payload.sub payload.email payload.role none jwtExpiry

def newRefreshToken (now : Time) (payload : Claims) : Token :=
  sign now payload.sub payload.email payload.role (some "refresh") REFRESH_EXPIRES_IN

/-- `rotateRefreshToken`: what it returns or throws, and the used tokens after
it. A request without a token is `none`. -/
def rotateRefreshToken (jwtExpiry : ℕ) (used : List Token) (now : Time) :
    Option Token → Except Err TokenPair × List Token
  | none => (.error (.unauthorized "Refresh token required"), used)
  | some refreshToken =>
    if refreshToken ∈ used then
      (.error (.forbidden "Refresh token has already been used (token rotation policy)"), used)
    else
      match verify now refreshToken with
      | none => (.error (.unauthorized "Invalid or expired refresh token"), used)
      | some payload =>
        (.ok ⟨newAccessToken jwtExpiry now payload, newRefreshToken now payload⟩,
          refreshToken :: used)

-- ---------------------------------------------------------------------------
-- Sequences of calls
-- ---------------------------------------------------------------------------

/-- A call of `rotateRefreshToken` with the time at which it is made. -/
structure RotateCall where
  now : Time
  refreshToken : Option Token
  deriving DecidableEq

/-- The calls of a sequence, each with what it returned or threw. -/
def outcomes (jwtExpiry : ℕ) :
    List Token → List RotateCall → List (RotateCall × Except Err TokenPair)
  | _, [] => []
  | used, call :: calls =>
    (call, (rotateRefreshToken jwtExpiry used call.now call.refreshToken).1) ::
      outcomes jwtExpiry (rotateRefreshToken jwtExpiry used call.now call.refreshToken).2 calls

/-! ## When a call succeeds -/

/-- **Inversion.** A call that succeeds found an unused token that verifies, and
has marked it as used; a call that throws has changed nothing. -/
theorem rotate_ok {jwtExpiry : ℕ} {used : List Token} {now : Time} {refreshToken : Option Token}
    {pair : TokenPair} (h : (rotateRefreshToken jwtExpiry used now refreshToken).1 = .ok pair) :
    ∃ token payload, refreshToken = some token ∧ token ∉ used ∧
      verify now token = some payload ∧
      pair = ⟨newAccessToken jwtExpiry now payload, newRefreshToken now payload⟩ ∧
      (rotateRefreshToken jwtExpiry used now refreshToken).2 = token :: used := by
  cases refreshToken with
  | none => cases h
  | some token =>
    rw [rotateRefreshToken] at h ⊢
    split at h
    · cases h
    · rename_i hunused
      rw [if_neg hunused]
      split at h
      · cases h
      · rename_i payload hverify
        cases h
        exact ⟨token, payload, rfl, hunused, hverify, rfl, rfl⟩

theorem rotate_error {jwtExpiry : ℕ} {used : List Token} {now : Time}
    {refreshToken : Option Token} {e : Err}
    (h : (rotateRefreshToken jwtExpiry used now refreshToken).1 = .error e) :
    (rotateRefreshToken jwtExpiry used now refreshToken).2 = used := by
  cases refreshToken with
  | none => rfl
  | some token =>
    rw [rotateRefreshToken] at h ⊢
    split at h
    · rename_i hused
      rw [if_pos hused]
    · rename_i hunused
      rw [if_neg hunused]
      split at h
      · rfl
      · cases h

theorem rotate_accepts (jwtExpiry : ℕ) {used : List Token} {now : Time} {token : Token}
    {payload : Claims} (hunused : token ∉ used) (hverify : verify now token = some payload) :
    rotateRefreshToken jwtExpiry used now (some token) =
      (.ok ⟨newAccessToken jwtExpiry now payload, newRefreshToken now payload⟩, token :: used) := by
  rw [rotateRefreshToken, if_neg hunused, hverify]

/-- What verifies is unexpired and signed by the service. -/
theorem verify_some {now : Time} {token : Token} {payload : Claims}
    (h : verify now token = some payload) : token = .signed payload ∧ seconds now < payload.exp := by
  cases token with
  | other text => cases h
  | signed claims =>
    rw [verify] at h
    split at h
    · rename_i hexp
      cases h
      exact ⟨rfl, hexp⟩
    · cases h

theorem outcomes_map_fst (jwtExpiry : ℕ) (used : List Token) (calls : List RotateCall) :
    (outcomes jwtExpiry used calls).map Prod.fst = calls := by
  induction calls generalizing used with
  | nil => rfl
  | cons call calls ih => rw [outcomes, List.map_cons, ih]

end Auth

end NexaFx
