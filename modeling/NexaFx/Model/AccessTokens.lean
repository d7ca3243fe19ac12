import NexaFx.Model.Auth

/-!
# NexaFx — two ways to check an access token

`auth/strategies/jwt.strategy.ts`, which passport runs, `auth/jwt-auth.guard.ts`,
which the controllers use, and `updatePassword` of `users/users.service.ts`.
Both verify the token; the strategy then reads the user's row.
-/

namespace NexaFx

open Auth

namespace Jwt

-- ---------------------------------------------------------------------------
-- Users
-- ---------------------------------------------------------------------------

structure User where
  id : UserId
  passwordHash : String
  passwordChangedAt : Option Time
  deriving DecidableEq

structure UsersDb where
  users : List User
  now : Time
  deriving DecidableEq

namespace UsersDb

def user (db : UsersDb) (id : UserId) : Option User := Table.get User.id db.users id

/-- `UsersService.findById`. -/
def findById (db : UsersDb) (id : UserId) : Except Err User :=
  match db.user id with
  | none => .error (.notFound ("User " ++ toString id ++ " not found"))
  | some user => .ok user

/-- `UsersService.updatePassword`. -/
def updatePassword (db : UsersDb) (id : UserId) (newPasswordHash : String) : Except Err UsersDb :=
  match db.findById id with
  | .error e => .error e
  | .ok user => .ok { db with
      users := Table.put User.id
        { user with passwordHash := newPasswordHash, passwordChangedAt := some db.now } db.users }

end UsersDb

/-- A password is changed, or time passes. -/
inductive UserEvent where
  | updatePassword (id : UserId) (newPasswordHash : String)
  | tick (ms : ℕ)
  deriving DecidableEq

/-- A call that throws has changed nothing. -/
def UsersDb.step (db : UsersDb) : UserEvent → UsersDb
  | .updatePassword id newPasswordHash =>
    match db.updatePassword id newPasswordHash with
    | .error _ => db
    | .ok db' => db'
  | .tick ms => { db with now := db.now + ms }

def UsersDb.run (db : UsersDb) (events : List UserEvent) : UsersDb := events.foldl UsersDb.step db

-- ---------------------------------------------------------------------------
-- Requests
-- ---------------------------------------------------------------------------

/-- An `Authorization` header: a scheme and a token, or anything else. -/
inductive Authorization where
  | credentials (scheme : String) (token : Token)
  | other (text : String)
  deriving DecidableEq

/-- A request to a route; `isPublic` is what the reflector says of the route. -/
structure Request where
  isPublic : Bool
  authorization : Option Authorization
  deriving DecidableEq

/-- `JwtAuthGuard`'s bearer token: the scheme has to be written `Bearer`. -/
def bearerToken (request : Request) : Option Token :=
  match request.authorization with
  | some (.credentials scheme token) => if scheme = "Bearer" then some token else none
  | _ => none

/-- `ExtractJwt.fromAuthHeaderAsBearerToken`, for which the scheme's case does not matter. -/
def fromAuthHeaderAsBearerToken (request : Request) : Option Token :=
  match request.authorization with
  | some (.credentials scheme token) =>
    if scheme.toList.map Char.toLower = "bearer".toList then some token else none
  | _ => none

/-- What `JwtStrategy` puts on the request. -/
structure AuthenticatedUser where
  id : UserId
  email : String
  role : String
  isEmailVerified : Option Bool
  deriving DecidableEq

/-- `JwtStrategy.validate`; the tokens carry no `isEmailVerified`. -/
def validate (db : UsersDb) (payload : Claims) : Except Err AuthenticatedUser :=
  match db.findById payload.sub with
  | .error e => .error e
  | .ok user =>
    if user.passwordChangedAt.any fun changedAt => decide (payload.iat < seconds changedAt) then
      .error (.unauthorized "Token invalidated by password change")
    else .ok ⟨payload.sub, payload.email, payload.role, none⟩

/-- Passport with `JwtStrategy`. -/
def jwtStrategy (db : UsersDb) (request : Request) : Except Err AuthenticatedUser :=
  match fromAuthHeaderAsBearerToken request with
  | none => .error (.unauthorized "Invalid or expired token")
  | some token =>
    match verify db.now token with
    | none => .error (.unauthorized "Invalid or expired token")
    | some payload => validate db payload

/-- `JwtAuthGuard.canActivate`: the claims it puts on the request, none on a
public route. -/
def canActivate (db : UsersDb) (request : Request) : Except Err (Option Claims) :=
  if request.isPublic then .ok none
  else
    match bearerToken request with
    | none => .error (.unauthorized "Missing bearer token")
    | some token =>
      match verify db.now token with
      | none => .error (.unauthorized "Invalid authentication token")
      | some payload => .ok (some payload)

end Jwt

end NexaFx
