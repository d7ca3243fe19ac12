import NexaFx.Lib.Notes
import NexaFx.Model.Database

/-!
# NexaFx — single-flight balance loads

`getWalletBalances` and `invalidateWalletBalanceCache` of
`users/users.service.ts` with loaders of which nothing is assumed. What the
loader of a call resolves with, if it does, comes with the call; a loader and an
operation of the cache may also reject, with any error, or never be answered.

A fetch is an `async` function that the call `i` starts and carries out; `i`
stands for its promise. What is synchronous (`startFetch`, `finish`) is a command
that cannot fail.

`Notes` is ghost: what the lookups were answered, which fetch a call waits for,
and how loaders and writes ended.
-/

namespace NexaFx

open Async

namespace BalanceLoads

-- ---------------------------------------------------------------------------
-- The state
-- ---------------------------------------------------------------------------

/-- The fields of `UsersService`, its cache, and the promises that are settled.
`B` is the `Record<string, number>` of a loader. -/
structure State (B E : Type) where
  cache : UserId → Option B
  pendingFetches : UserId → Option ℕ
  settled : ℕ → Option (Except E B)

variable {B E : Type}

namespace State

/-- `cacheManager.set(cacheKey, balances, ttl)`. -/
def set (st : State B E) (userId : UserId) (balances : B) : State B E :=
  { st with cache := Function.update st.cache userId (some balances) }

/-- `cacheManager.del`, and what becomes of an entry after its `ttl`. -/
def del (st : State B E) (userId : UserId) : State B E :=
  { st with cache := Function.update st.cache userId none }

/-- `pendingFetches.get(userId)`; when there is none, a new fetch is started and
set. The flag says which. -/
def startFetch (st : State B E) (i : ℕ) (userId : UserId) : (ℕ × Bool) × State B E :=
  match st.pendingFetches userId with
  | some pending => ((pending, false), st)
  | none =>
    ((i, true),
      { st with pendingFetches := Function.update st.pendingFetches userId (some i) })

/-- The `finally` of a fetch, and its promise is settled. -/
def finish (st : State B E) (i : ℕ) (userId : UserId) (r : Except E B) : State B E where
  cache := st.cache
  pendingFetches := Function.update st.pendingFetches userId none
  settled := Function.update st.settled i (some r)

end State

-- ---------------------------------------------------------------------------
-- Commands
-- ---------------------------------------------------------------------------

inductive LoadCmd (B E : Type) where
  | cacheGet (userId : UserId)
  /-- Synchronous, like `finish`. -/
  | startFetch (i : ℕ) (userId : UserId)
  /-- The loader, which may resolve with `balances`. -/
  | loader (userId : UserId) (balances : B)
  | cacheSet (userId : UserId) (balances : B)
  | finish (i : ℕ) (userId : UserId) (r : Except E B)
  /-- Wait for the promise of a fetch. -/
  | fetched (f : ℕ)
  | cacheDel (userId : UserId)
  /-- The entry of the user has outlived its `ttl`. -/
  | expire (userId : UserId)

@[reducible] def LoadCmd.Reply : LoadCmd B E → Type
  | .cacheGet _ => Option B
  | .startFetch _ _ => ℕ × Bool
  | .loader _ _ => B
  | .fetched _ => B
  | _ => Unit

/-- A promise can be waited for until it is settled. -/
def ready : LoadCmd B E → State B E → Bool
  | .fetched f, st => (st.settled f).isSome
  | _, _ => true

def mayFail : LoadCmd B E → Bool
  | .startFetch _ _ | .finish _ _ _ | .fetched _ | .expire _ => false
  | _ => true

variable [Inhabited E]

def exec : (c : LoadCmd B E) → State B E → Except E (c.Reply × State B E)
  | .cacheGet userId, st => .ok (st.cache userId, st)
  | .startFetch i userId, st => .ok (st.startFetch i userId)
  | .loader _ balances, st => .ok (balances, st)
  | .cacheSet userId balances, st => .ok ((), st.set userId balances)
  | .finish i userId r, st => .ok ((), st.finish i userId r)
  | .fetched f, st =>
    match st.settled f with
    | some (.ok balances) => .ok (balances, st)
    | some (.error e) => .error e
    | none => .error default
  | .cacheDel userId, st => .ok ((), st.del userId)
  | .expire userId, st => .ok ((), st.del userId)

-- ---------------------------------------------------------------------------
-- The service
-- ---------------------------------------------------------------------------

abbrev LoadProc (B E : Type) := Proc (LoadCmd B E) LoadCmd.Reply E

abbrev await (c : LoadCmd B E) : LoadProc B E c.Reply := Proc.call c

/-- The body of a fetch: what its `try` ends with is what its promise is settled
with. -/
def runFetch (i : ℕ) (userId : UserId) (balances : B) : LoadProc B E Unit := do
  let r ← (do
    let balances ← await (.loader userId balances)
    await (.cacheSet userId balances)
    return balances : LoadProc B E B).attempt
  await (.finish i userId r)

def getWalletBalances (i : ℕ) (userId : UserId) (balances : B) : LoadProc B E B := do
  match ← await (.cacheGet userId) with
  | some cached => return cached
  | none =>
    let (f, isNew) ← await (.startFetch i userId)
    if isNew = true then runFetch i userId balances
    await (.fetched f)

def invalidateWalletBalanceCache (userId : UserId) : LoadProc B E Unit :=
  await (.cacheDel userId)

inductive LoadCall (B : Type) where
  | getWalletBalances (userId : UserId) (balances : B)
  | invalidateWalletBalanceCache (userId : UserId)
  /-- Not a call: time passes for an entry of the cache. -/
  | expire (userId : UserId)

def LoadCall.userId : LoadCall B → UserId
  | .getWalletBalances userId _ => userId
  | .invalidateWalletBalanceCache userId => userId
  | .expire userId => userId

/-- The calls; those that have nothing to return end with `none`. -/
def loadProg (i : ℕ) : LoadCall B → LoadProc B E (Option B)
  | .getWalletBalances userId balances => do
    return some (← getWalletBalances i userId balances)
  | .invalidateWalletBalanceCache userId => do
    invalidateWalletBalanceCache userId
    return none
  | .expire userId => do
    await (.expire userId)
    return none

variable (B E) in
/-- The calls of one process, interleaved at every await. -/
def loadServer : System (LoadCall B) (LoadCmd B E) LoadCmd.Reply E (State B E) (Option B) where
  prog := loadProg
  exec := exec
  ready := ready
  mayFail := mayFail

-- ---------------------------------------------------------------------------
-- Notes
-- ---------------------------------------------------------------------------

/-- What the calls were answered. -/
structure Notes (B E : Type) where
  looked : ℕ → Option (Except E (Option B))
  /-- The fetch that a call has started or found. -/
  joined : ℕ → Option ℕ
  loaded : ℕ → Option (Except E B)
  written : ℕ → Option (Except E Unit)

/-- The answer `r` to a command of call `i` is noted. -/
def Notes.note (notes : Notes B E) (i : ℕ) : (c : LoadCmd B E) → Except E c.Reply → Notes B E
  | .cacheGet _, r => { notes with looked := Function.update notes.looked i (some r) }
  | .startFetch _ _, .ok (f, _) => { notes with joined := Function.update notes.joined i (some f) }
  | .loader _ _, r => { notes with loaded := Function.update notes.loaded i (some r) }
  | .cacheSet _ _, r => { notes with written := Function.update notes.written i (some r) }
  | _, _ => notes

abbrev LoadRun (B E : Type) :=
  Annotated (LoadCall B) (LoadCmd B E) LoadCmd.Reply E (State B E) (Option B) (Notes B E)

/-- No call has been made, whatever is in the cache. -/
def begin (cache : UserId → Option B) : LoadRun B E :=
  ⟨⟨⟨cache, fun _ => none, fun _ => none⟩, []⟩,
    ⟨fun _ => none, fun _ => none, fun _ => none, fun _ => none⟩⟩

def LoadRun.step (run : LoadRun B E) (e : Event (LoadCall B) E) : Option (LoadRun B E) :=
  (loadServer B E).annotate Notes.note run e

def LoadRun.follow (run : LoadRun B E) (es : List (Event (LoadCall B) E)) :
    Option (LoadRun B E) :=
  (loadServer B E).follow Notes.note run es

end BalanceLoads

end NexaFx
