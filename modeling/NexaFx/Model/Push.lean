import Mathlib.Data.List.Sort
import NexaFx.Lib.Pool
import NexaFx.Lib.Table
import NexaFx.Model.Database

/-!
# NexaFx — device tokens and push messages

`registerToken`, `deregisterToken`, `sendToUser` and `send` of
`notifications/push/push.service.ts`, await by await, over the table
`device_tokens`.

* `sendToUser` maps the rows it has loaded to promises and waits for all of
  them: a `Send` is such a promise with the entity that it holds. Each is a
  `send` call of its own, so the sends of one `sendToUser` overlap.
* The push service answers from `net`, one request after the other.
* `log` is a ghost field that nothing in the program reads.
-/

namespace NexaFx

open Async

namespace Push

-- ---------------------------------------------------------------------------
-- The table
-- ---------------------------------------------------------------------------

/-- `DevicePlatform`. -/
inductive DevicePlatform where
  | ios
  | android
  | web
  deriving DecidableEq, Repr

/-- A generated id: by which call it is generated, and for which token. The
token of a row never changes. -/
structure TokenId where
  call : ℕ
  token : String
  deriving DecidableEq, Repr

structure DeviceToken where
  id : TokenId
  userId : UserId
  platform : DevicePlatform
  createdAt : Time
  lastUsedAt : Option Time
  deriving DecidableEq, Repr

def DeviceToken.token (dt : DeviceToken) : String := dt.id.token

/-- The table, whose tokens are unique. -/
structure DeviceTokens where
  rows : List DeviceToken
  tokens : (rows.map DeviceToken.token).Nodup

/-- What is thrown: its message, and from a response its `data.error` and the
errors of its `data.results`. -/
structure Thrown where
  message : Option String
  error : Option String := none
  results : List (Option String) := []
  deriving DecidableEq, Repr

structure PushPayload where
  title : String
  body : String
  data : Option (List (String × String)) := none
  deriving DecidableEq, Repr

/-- How a promise stands; a waiting one has not been looked at by its call. -/
inductive SendState where
  | waiting
  | running
  | fulfilled
  | rejected (error : Thrown)
  deriving DecidableEq, Repr

/-- A promise of a `sendToUser` call, with its number in it. -/
structure Send where
  key : ℕ × ℕ
  dt : DeviceToken
  payload : PushPayload
  state : SendState
  deriving DecidableEq

/-- The promise has not settled. -/
def Send.live (send : Send) : Bool :=
  match send.state with
  | .waiting | .running => true
  | .fulfilled | .rejected _ => false

inductive TokenEvent where
  /-- `registerToken` has begun. -/
  | began (call : ℕ) (userId : UserId) (token : String)
  | registered (call : ℕ) (userId : UserId) (token : String)
  | deregistered (call : ℕ) (token : String)
  /-- The oldest token of a user makes room for another one. -/
  | evicted (userId : UserId) (row : DeviceToken)
  /-- The push service does not know the token. -/
  | stale (token : String)
  deriving DecidableEq

structure PushDb where
  tokens : DeviceTokens
  sends : List Send
  net : ℕ → Except Thrown Unit
  served : ℕ
  now : Time
  log : List TokenEvent

namespace PushDb

/-- `findOne({ where: { token } })`. -/
def token (st : PushDb) (t : String) : Option DeviceToken :=
  Table.get DeviceToken.token st.tokens.rows t

def ofUser (st : PushDb) (userId : UserId) : List DeviceToken :=
  st.tokens.rows.filter fun row => row.userId = userId

def put (st : PushDb) (row : DeviceToken) : PushDb :=
  { st with
    tokens := ⟨Table.put DeviceToken.token row st.tokens.rows,
      Table.nodup_put _ st.tokens.tokens⟩ }

def deleteWhere (st : PushDb) (p : DeviceToken → Bool) : PushDb :=
  { st with
    tokens := ⟨st.tokens.rows.filter fun row => !p row,
      Table.nodup_filter _ st.tokens.tokens _⟩ }

def note (st : PushDb) (events : List TokenEvent) : PushDb :=
  { st with log := st.log ++ events }

/-- `save`: the row with the id of the entity is written over; where there is
none, it is inserted, unless another row has the token. -/
def save (st : PushDb) (dt : DeviceToken) : Except Thrown PushDb :=
  match st.token dt.token with
  | none => .ok (st.put dt)
  | some row => if row.id = dt.id then .ok (st.put dt) else
      .error { message := some "duplicate key value violates unique constraint" }

/-- NULLs come last. -/
def usedBefore : Option Time → Option Time → Bool
  | _, none => true
  | none, some _ => false
  | some t, some t' => t ≤ t'

/-- `find({ where: { userId }, order: { lastUsedAt: 'ASC' } })`. -/
def oldestFirst (st : PushDb) (userId : UserId) : List DeviceToken :=
  (st.ofUser userId).insertionSort fun r r' => usedBefore r.lastUsedAt r'.lastUsedAt = true

def send (st : PushDb) (key : ℕ × ℕ) : Option Send := Table.get Send.key st.sends key

/-- The promises of a call for the rows that it has loaded. -/
def promise (st : PushDb) (call : ℕ) (payload : PushPayload) (loaded : List DeviceToken) :
    PushDb :=
  { st with
    sends := st.sends ++ loaded.mapIdx fun n dt => ⟨(call, n), dt, payload, .waiting⟩ }

/-- A promise goes over into another state, unless it has settled. -/
def become (st : PushDb) (key : ℕ × ℕ) (state : SendState) : PushDb :=
  { st with
    sends := st.sends.map fun send =>
      if send.key = key ∧ send.live = true then { send with state := state } else send }

end PushDb

-- ---------------------------------------------------------------------------
-- Commands
-- ---------------------------------------------------------------------------

/-- What is posted to `https://fcm.googleapis.com/fcm/send`. -/
structure FcmRequest where
  /-- `to`. -/
  target : String
  title : String
  body : String
  data : Option (List (String × String))
  authorization : String
  deriving DecidableEq

inductive PushCmd where
  /-- `findOne({ where: { token } })`, with which `registerToken` begins. -/
  | findToken (call : ℕ) (userId : UserId) (token : String)
  | findByUser (userId : UserId)
  /-- `delete({ id })` of the oldest token. -/
  | evict (userId : UserId) (id : TokenId)
  /-- The `save` of the row that `registerToken` has found. -/
  | save (call : ℕ) (dt : DeviceToken)
  /-- `create({ userId, token, platform })` and its `save`. -/
  | insert (call : ℕ) (userId : UserId) (token : String) (platform : DevicePlatform)
  /-- The `delete({ token })` of `deregisterToken`. -/
  | deleteToken (call : ℕ) (token : String)
  /-- `find({ where: { userId } })`, and its rows mapped to promises. -/
  | findToSend (call : ℕ) (userId : UserId) (payload : PushPayload)
  /-- `Promise.all`. -/
  | all (call : ℕ)
  /-- The promise begins to run. -/
  | takeSend (key : ℕ × ℕ)
  | post (request : FcmRequest)
  /-- `dt.lastUsedAt = lastUsedAt` and `save(dt)` of the entity that the promise holds. -/
  | saveUsed (key : ℕ × ℕ) (lastUsedAt : Time)
  /-- The `delete({ token })` of a token that is not registered. -/
  | deleteStale (token : String)
  | settle (key : ℕ × ℕ) (result : Except Thrown Unit)
  /-- `new Date()`, which is no await and cannot fail. -/
  | now
  | tick (ms : ℕ)

@[reducible] def PushCmd.Reply : PushCmd → Type
  | .findToken .. => Option DeviceToken
  | .findByUser _ => List DeviceToken
  | .save .. => DeviceToken
  | .insert .. => DeviceToken
  | .takeSend _ => Option (DeviceToken × PushPayload)
  | .post _ => Except Thrown Unit
  | .now => Time
  | _ => Unit

/-- `tokenRepo.create({ userId, token, platform })`, as it is inserted. -/
def createToken (call : ℕ) (userId : UserId) (token : String) (platform : DevicePlatform)
    (now : Time) : DeviceToken where
  id := ⟨call, token⟩
  userId := userId
  platform := platform
  createdAt := now
  lastUsedAt := none

def exec : (c : PushCmd) → PushDb → Except Thrown (c.Reply × PushDb)
  | .findToken call userId token, st => .ok (st.token token, st.note [.began call userId token])
  | .findByUser userId, st => .ok (st.oldestFirst userId, st)
  | .evict userId id, st =>
    .ok ((), (st.deleteWhere fun row => row.id = id).note
      ((st.tokens.rows.filter fun row => row.id = id).map (.evicted userId)))
  | .save call dt, st =>
    match st.save dt with
    | .error e => .error e
    | .ok st' => .ok (dt, st'.note [.registered call dt.userId dt.token])
  | .insert call userId token platform, st =>
    match st.save (createToken call userId token platform st.now) with
    | .error e => .error e
    | .ok st' =>
      .ok (createToken call userId token platform st.now,
        st'.note [.registered call userId token])
  | .deleteToken call token, st =>
    .ok ((), (st.deleteWhere fun row => row.token = token).note [.deregistered call token])
  | .findToSend call userId payload, st => .ok ((), st.promise call payload (st.ofUser userId))
  | .all call, st =>
    match st.sends.findSome? fun send =>
      if send.key.1 = call then
        match send.state with
        | .rejected e => some e
        | _ => none
      else none with
    | some e => .error e
    | none => .ok ((), st)
  | .takeSend key, st =>
    match st.send key with
    | none => .ok (none, st)
    | some send =>
      if send.state = .waiting then .ok (some (send.dt, send.payload), st.become key .running)
      else .ok (none, st)
  | .post _, st => .ok (st.net st.served, { st with served := st.served + 1 })
  | .saveUsed key lastUsedAt, st =>
    match st.send key with
    | none => .ok ((), st)
    | some send =>
      if send.live = true then
        match st.save { send.dt with lastUsedAt := some lastUsedAt } with
        | .error e => .error e
        | .ok st' => .ok ((), st')
      else .ok ((), st)
  | .deleteStale token, st =>
    .ok ((), (st.deleteWhere fun row => row.token = token).note [.stale token])
  | .settle key (.ok _), st => .ok ((), st.become key .fulfilled)
  | .settle key (.error e), st => .ok ((), st.become key (.rejected e))
  | .now, st => .ok (st.now, st)
  | .tick ms, st => .ok ((), { st with now := st.now + ms })

/-- `Promise.all` settles when all promises are fulfilled or one is rejected. -/
def ready : PushCmd → PushDb → Bool
  | .all call, st =>
    (st.sends.all fun send => send.key.1 ≠ call || !send.live) ||
      st.sends.any fun send => send.key.1 = call && !send.live && send.state ≠ .fulfilled
  | _, _ => true

def mayFail : PushCmd → Bool
  | .all _ | .takeSend _ | .post _ | .settle .. | .now | .tick _ => false
  | _ => true

-- ---------------------------------------------------------------------------
-- Calls
-- ---------------------------------------------------------------------------

abbrev PushProc := Proc PushCmd PushCmd.Reply Thrown

abbrev await (c : PushCmd) : PushProc c.Reply := Proc.call c

def MAX_TOKENS_PER_USER : ℕ := 20

/-- The first of the user's tokens makes room when there are too many. -/
def evictOldest (userId : UserId) : List DeviceToken → PushProc Unit
  | [] => return ()
  | oldest :: rest =>
    if MAX_TOKENS_PER_USER ≤ (oldest :: rest).length then await (.evict userId oldest.id)
    else return ()

def registerToken (i : ℕ) (userId : UserId) (token : String) (platform : DevicePlatform) :
    PushProc DeviceToken := do
  match ← await (.findToken i userId token) with
  | some existing =>
    let now ← await .now
    await (.save i { existing with userId := userId, lastUsedAt := some now })
  | none =>
    let userTokens ← await (.findByUser userId)
    evictOldest userId userTokens
    await (.insert i userId token platform)

def deregisterToken (i : ℕ) (token : String) : PushProc Unit :=
  await (.deleteToken i token)

def sendToUser (i : ℕ) (userId : UserId) (payload : PushPayload) : PushProc Unit := do
  await (.findToSend i userId payload)
  await (.all i)

/-- `response.data.error` or `response.data.results[0].error` is NotRegistered. -/
def Thrown.notRegistered (err : Thrown) : Bool :=
  err.error = some "NotRegistered" || err.results.head? = some (some "NotRegistered")

/-- The `catch` of `send`. -/
def sendFailed (dt : DeviceToken) (err : Thrown) : PushProc Unit := do
  if err.notRegistered = true then
    await (.deleteStale dt.token)
  else
    return ()

section Service

variable (serverKey : String)

def fcmRequest (token : String) (payload : PushPayload) : FcmRequest where
  target := token
  title := payload.title
  body := payload.body
  data := payload.data
  authorization := "key=" ++ serverKey

/-- `sendApns` only writes a log line. -/
def push (dt : DeviceToken) (payload : PushPayload) : PushProc (Except Thrown Unit) :=
  if dt.platform = .ios then return .ok ()
  else await (.post (fcmRequest serverKey dt.token payload))

def send (key : ℕ × ℕ) (dt : DeviceToken) (payload : PushPayload) : PushProc Unit := do
  match ← push serverKey dt payload with
  | .error err => sendFailed dt err
  | .ok _ =>
    let lastUsedAt ← await .now
    match ← (await (.saveUsed key lastUsedAt)).attempt with
    | .ok _ => return ()
    | .error err => sendFailed dt err

/-- A promise from its start to its end. -/
def runSend (key : ℕ × ℕ) : PushProc Unit := do
  match ← await (.takeSend key) with
  | none => return ()
  | some (dt, payload) =>
    let result ← (send serverKey key dt payload).attempt
    await (.settle key result)

inductive PushCall where
  | registerToken (userId : UserId) (token : String) (platform : DevicePlatform)
  | deregisterToken (token : String)
  | sendToUser (userId : UserId) (payload : PushPayload)
  | send (key : ℕ × ℕ)
  | tick (ms : ℕ)
  deriving DecidableEq

def prog (i : ℕ) : PushCall → PushProc Unit
  | .registerToken userId token platform => do
    let _ ← registerToken i userId token platform
    return ()
  | .deregisterToken token => deregisterToken i token
  | .sendToUser userId payload => sendToUser i userId payload
  | .send key => runSend serverKey key
  | .tick ms => await (.tick ms)

/-- All calls, interleaved at every await. -/
def server : System PushCall PushCmd PushCmd.Reply Thrown PushDb Unit where
  prog := prog serverKey
  exec := exec
  ready := ready
  mayFail := mayFail

end Service

abbrev PushPool := Config PushCall PushCmd PushCmd.Reply Thrown PushDb Unit

/-- No token has been registered. -/
def start (net : ℕ → Except Thrown Unit) (now : Time) : PushDb where
  tokens := ⟨[], List.nodup_nil⟩
  sends := []
  net := net
  served := 0
  now := now
  log := []

-- ---------------------------------------------------------------------------
-- What the commands do
-- ---------------------------------------------------------------------------

section Commands

variable {st st' : PushDb}

theorem save_eq {dt : DeviceToken} (h : st.save dt = .ok st') : st' = st.put dt := by
  unfold PushDb.save at h
  split at h
  · cases h
    rfl
  · split at h
    · cases h
      rfl
    · cases h

-- the equations of `exec` are generated here, once for all its inversions
attribute [local simp] exec in
theorem exec_save {call : ℕ} {dt a : DeviceToken} (h : exec (.save call dt) st = .ok (a, st')) :
    st' = (st.put dt).note [.registered call dt.userId dt.token] := by
  rw [exec] at h
  split at h
  · cases h
  · rename_i hsave
    cases h
    rw [save_eq hsave]

theorem exec_insert {call : ℕ} {userId : UserId} {token : String} {platform : DevicePlatform}
    {a : DeviceToken} (h : exec (.insert call userId token platform) st = .ok (a, st')) :
    st' = (st.put (createToken call userId token platform st.now)).note
      [.registered call userId token] := by
  rw [exec] at h
  split at h
  · cases h
  · rename_i hsave
    cases h
    rw [save_eq hsave]

theorem exec_all {call : ℕ} {a : Unit} (h : exec (.all call) st = .ok (a, st')) : st' = st := by
  rw [exec] at h
  split at h
  · cases h
  · cases h
    rfl

theorem exec_takeSend {key : ℕ × ℕ} {a : Option (DeviceToken × PushPayload)}
    (h : exec (.takeSend key) st = .ok (a, st')) : st' = st ∨ st' = st.become key .running := by
  rw [exec] at h
  split at h
  · cases h
    exact .inl rfl
  · split at h
    · cases h
      exact .inr rfl
    · cases h
      exact .inl rfl

theorem exec_saveUsed {key : ℕ × ℕ} {t : Time} {a : Unit}
    (h : exec (.saveUsed key t) st = .ok (a, st')) :
    st' = st ∨ ∃ send, st.send key = some send ∧ send.live = true ∧
      st' = st.put { send.dt with lastUsedAt := some t } := by
  rw [exec] at h
  split at h
  · cases h
    exact .inl rfl
  · rename_i send hsend
    split at h
    · rename_i hlive
      split at h
      · cases h
      · rename_i hsave
        cases h
        exact .inr ⟨send, hsend, hlive, save_eq hsave⟩
    · cases h
      exact .inl rfl

theorem exec_settle {key : ℕ × ℕ} {result : Except Thrown Unit} {a : Unit}
    (h : exec (.settle key result) st = .ok (a, st')) : ∃ state, st' = st.become key state := by
  cases result with
  | ok u =>
    cases h
    exact ⟨_, rfl⟩
  | error e =>
    cases h
    exact ⟨_, rfl⟩

/-- A promise that is on its way was so before, with the same entity. -/
theorem live_of_become {key : ℕ × ℕ} {state : SendState} {send : Send}
    (h : send ∈ (st.become key state).sends) (hlive : send.live = true) :
    ∃ old ∈ st.sends, old.live = true ∧ old.dt = send.dt := by
  obtain ⟨old, hold, heq⟩ := List.mem_map.mp h
  split at heq
  · rename_i hkey
    exact ⟨old, hold, hkey.2, heq ▸ rfl⟩
  · exact ⟨old, hold, heq ▸ hlive, heq ▸ rfl⟩

end Commands

-- ---------------------------------------------------------------------------
-- Promises
-- ---------------------------------------------------------------------------

/-- The calls of the service; its promises are on their way beside them. -/
def PushCall.whole : PushCall → Bool
  | .registerToken .. | .deregisterToken _ | .sendToUser .. => true
  | .send _ | .tick _ => false

/-- The commands of promises, and time. -/
def PushCmd.promised : PushCmd → Bool
  | .takeSend _ | .post _ | .saveUsed .. | .deleteStale _ | .settle .. | .now | .tick _ => true
  | _ => false

section Promises

variable (serverKey : String)

theorem sendFailed_promised (dt : DeviceToken) (err : Thrown) :
    (sendFailed dt err).Issues fun c => c.promised = true := by
  unfold sendFailed
  split
  · exact Proc.issues_call.mpr rfl
  · trivial

theorem send_promised (key : ℕ × ℕ) (dt : DeviceToken) (payload : PushPayload) :
    (send serverKey key dt payload).Issues fun c => c.promised = true := by
  have hpush : (push serverKey dt payload).Issues fun c => c.promised = true := by
    unfold push
    split
    · trivial
    · exact Proc.issues_call.mpr rfl
  refine Proc.issues_bind hpush fun result => ?_
  cases result with
  | error err => exact sendFailed_promised dt err
  | ok u =>
    refine Proc.issues_bind (Proc.issues_call.mpr rfl) fun now => ?_
    refine Proc.issues_bind (Proc.issues_attempt (Proc.issues_call.mpr rfl)) fun result => ?_
    cases result with
    | error err => exact sendFailed_promised dt err
    | ok u => trivial

/-- A promise, and time, keep to the commands of promises. -/
theorem prog_promised (i : ℕ) {k : PushCall} (hk : k.whole = false) :
    (prog serverKey i k).Issues fun c => c.promised = true := by
  cases k with
  | send key =>
    refine Proc.issues_bind (Proc.issues_call.mpr rfl) fun taken => ?_
    cases taken with
    | none => trivial
    | some held =>
      exact Proc.issues_bind (Proc.issues_attempt (send_promised serverKey key _ _))
        fun result => Proc.issues_call.mpr rfl
  | tick ms => exact Proc.issues_call.mpr rfl
  | _ => cases hk

end Promises

end Push

end NexaFx
