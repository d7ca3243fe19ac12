import NexaFx.Model.Transactions

/-!
# NexaFx — the cache of wallet balances

`getWalletBalances` and `invalidateWalletBalanceCache` of
`users/users.service.ts` beside the transaction services, await by await.

A fetch is an `async` function of its own that several calls may wait for: it
reads the balances through the loader, puts them into the cache, and in a
`finally` leaves `pendingFetches`. Its promise is a `FetchId`; its local
variable `balances` and what the promise was settled with are kept under that
id (`Fetch`). The call that starts a fetch carries it out and then waits for
it like the others.

The entries of the cache outlive the run. `seen` in `Balances` is ghost: how
many balance changes there had been when the loader read.
-/

namespace NexaFx

open Async

namespace BalanceCache

-- ---------------------------------------------------------------------------
-- The state
-- ---------------------------------------------------------------------------

/-- The `Record<string, number>` of a loader, in hundredths. -/
structure Balances where
  balances : List (String × ℤ)
  seen : ℕ
  deriving DecidableEq

/-- The promise of a fetch. -/
structure FetchId where
  userId : UserId
  seq : ℕ
  deriving DecidableEq

/-- The frame of a fetch and what its promise was settled with. -/
structure Fetch where
  balances : Option Balances
  outcome : Option (Except Err Balances)

structure State where
  db : Db
  cache : UserId → Option Balances
  pendingFetches : UserId → Option FetchId
  fetches : List (FetchId × Fetch)
  nextFetch : ℕ

namespace State

def fetch (st : State) (f : FetchId) : Fetch :=
  ((Table.get Prod.fst st.fetches f).map Prod.snd).getD ⟨none, none⟩

def putFetch (st : State) (f : FetchId) (frame : Fetch) : State :=
  { st with fetches := Table.put Prod.fst (f, frame) st.fetches }

/-- What the loader reads. -/
def load (st : State) (userId : UserId) : Balances where
  balances := (st.db.wallets.filter fun w => decide (w.accountId = userId)).map
    fun w => (w.currency, w.balance)
  seen := st.db.moves.length

/-- `cacheManager.del`. -/
def del (st : State) (userId : UserId) : State :=
  { st with cache := Function.update st.cache userId none }

/-- `pendingFetches.get(userId)`; when there is none, a new fetch is started and
set. The flag says which. -/
def startFetch (st : State) (userId : UserId) : (FetchId × Bool) × State :=
  match st.pendingFetches userId with
  | some pending => ((pending, false), st)
  | none =>
    ((⟨userId, st.nextFetch⟩, true),
      { st.putFetch ⟨userId, st.nextFetch⟩ ⟨none, none⟩ with
        pendingFetches := Function.update st.pendingFetches userId (some ⟨userId, st.nextFetch⟩)
        nextFetch := st.nextFetch + 1 })

/-- `const balances = await loader(userId)`. -/
def loaded (st : State) (f : FetchId) : State :=
  st.putFetch f { st.fetch f with balances := some (st.load f.userId) }

/-- `cacheManager.set(cacheKey, balances, ttl)`. -/
def set (st : State) (f : FetchId) : State :=
  { st with cache := Function.update st.cache f.userId (st.fetch f).balances }

/-- What the promise of a fetch is settled with: the error that was thrown, or
`balances`. It is settled once. -/
def settled (st : State) (f : FetchId) (thrown : Option Err) : Option (Except Err Balances) :=
  match (st.fetch f).outcome with
  | some outcome => some outcome
  | none =>
    match thrown with
    | some e => some (.error e)
    | none => (st.fetch f).balances.map .ok

/-- The `finally` of a fetch, with which its frame is gone. -/
def finish (st : State) (f : FetchId) (thrown : Option Err) : State :=
  { st.putFetch f ⟨none, st.settled f thrown⟩ with
    pendingFetches := Function.update st.pendingFetches f.userId none }

end State

-- ---------------------------------------------------------------------------
-- Commands
-- ---------------------------------------------------------------------------

inductive CacheCmd where
  /-- An await of the transaction services. -/
  | tx (c : Cmd)
  | cacheGet (userId : UserId)
  /-- Synchronous, like `finish`. -/
  | startFetch (userId : UserId)
  | loader (f : FetchId)
  | cacheSet (f : FetchId)
  | finish (f : FetchId) (thrown : Option Err)
  /-- Wait for the promise of a fetch. -/
  | fetched (f : FetchId)
  | cacheDel (userId : UserId)

@[reducible] def CacheCmd.Reply : CacheCmd → Type
  | .tx c => c.Reply
  | .cacheGet _ => Option Balances
  | .startFetch _ => FetchId × Bool
  | .fetched _ => Balances
  | _ => Unit

/-- The one command of the transaction services that reaches the cache. -/
def State.afterTx (st : State) (c : Cmd) (db : Db) : State :=
  match c with
  | .invalidateWalletBalanceCache userId => { st.del userId with db := db }
  | _ => { st with db := db }

def exec : (c : CacheCmd) → State → Except Err (c.Reply × State)
  | .tx c, st =>
    match NexaFx.exec c st.db with
    | .error e => .error e
    | .ok (a, db) => .ok (a, st.afterTx c db)
  | .cacheGet userId, st => .ok (st.cache userId, st)
  | .startFetch userId, st => .ok (st.startFetch userId)
  | .loader f, st => .ok ((), st.loaded f)
  | .cacheSet f, st => .ok ((), st.set f)
  | .finish f thrown, st => .ok ((), st.finish f thrown)
  | .fetched f, st =>
    match (st.fetch f).outcome with
    | some (.ok balances) => .ok (balances, st)
    | some (.error e) => .error e
    | none => .error .fault
  | .cacheDel userId, st => .ok ((), st.del userId)

/-- A promise can be waited for until it is settled. -/
def ready : CacheCmd → State → Bool
  | .fetched f, st => (st.fetch f).outcome.isSome
  | _, _ => true

def mayFail : CacheCmd → Bool
  | .tx c => NexaFx.mayFail c
  | .startFetch _ | .finish _ _ | .fetched _ => false
  | _ => true

-- ---------------------------------------------------------------------------
-- The service
-- ---------------------------------------------------------------------------

abbrev CacheProc := Proc CacheCmd CacheCmd.Reply Err

abbrev await (c : CacheCmd) : CacheProc c.Reply := Proc.call c

/-- The error of a `try`, if it was left by one. -/
def thrown {α : Type} : Except Err α → Option Err
  | .ok _ => none
  | .error e => some e

/-- The body of a fetch. -/
def runFetch (f : FetchId) : CacheProc Unit := do
  let r ← (do
    await (.loader f)
    await (.cacheSet f) : CacheProc Unit).attempt
  await (.finish f (thrown r))

def getWalletBalances (userId : UserId) : CacheProc Balances := do
  match ← await (.cacheGet userId) with
  | some cached => return cached
  | none =>
    let (f, isNew) ← await (.startFetch userId)
    if isNew = true then runFetch f
    await (.fetched f)

def invalidateWalletBalanceCache (userId : UserId) : CacheProc Unit := await (.cacheDel userId)

inductive CacheCall where
  | tx (k : Call)
  | getWalletBalances (userId : UserId)
  | invalidateWalletBalanceCache (userId : UserId)
  deriving DecidableEq

inductive Answer where
  | transaction (tx : Option Transaction)
  | balances (balances : Balances)
  | nothing
  deriving DecidableEq

/-- A call of the transaction services beside the cache. -/
def txProg (i : ℕ) (k : Call) : CacheProc Answer :=
  (prog i k).embed CacheCmd.tx (fun _ a => a) Answer.transaction

def cacheProg (i : ℕ) : CacheCall → CacheProc Answer
  | .tx k => txProg i k
  | .getWalletBalances userId => do return .balances (← getWalletBalances userId)
  | .invalidateWalletBalanceCache userId => do
    invalidateWalletBalanceCache userId
    return .nothing

/-- The transaction services and the cache, interleaved at every await. -/
def cacheServer : System CacheCall CacheCmd CacheCmd.Reply Err State Answer where
  prog := cacheProg
  exec := exec
  ready := ready
  mayFail := mayFail

abbrev CacheConfig := Config CacheCall CacheCmd CacheCmd.Reply Err State Answer

/-- An empty cache over the database `db`, from which on balance changes are
logged. -/
def start (db : Db) : CacheConfig :=
  ⟨⟨{ db with moves := [] }, fun _ => none, fun _ => none, [], 0⟩, []⟩

-- ---------------------------------------------------------------------------
-- What a command changes
-- ---------------------------------------------------------------------------

theorem exec_tx {c : Cmd} {st st' : State} {a : c.Reply} (h : exec (.tx c) st = .ok (a, st')) :
    ∃ db, NexaFx.exec c st.db = .ok (a, db) ∧ st' = st.afterTx c db := by
  rw [exec] at h
  split at h
  · cases h
  · rename_i a' db hexec
    cases h
    exact ⟨db, hexec, rfl⟩

theorem exec_fetched {f : FetchId} {st st' : State} {b : Balances}
    (h : exec (.fetched f) st = .ok (b, st')) : (st.fetch f).outcome = some (.ok b) ∧ st' = st := by
  rw [exec] at h
  split at h
  · rename_i houtcome
    cases h
    exact ⟨houtcome, rfl⟩
  · cases h
  · cases h

/-- Balance changes are only ever added to the log, one at a time. -/
theorem exec_moves {c : Cmd} {db db' : Db} {a : c.Reply} (h : NexaFx.exec c db = .ok (a, db')) :
    db'.moves = db.moves ∨ ∃ site call tx accountId currency delta m, delta ≠ 0 ∧
      c = .adjustBalance site call tx accountId currency delta ∧
      m.call = call ∧ m.account = accountId ∧ db'.moves = db.moves ++ [m] := by
  by_cases hmover : c.mover = none
  · exact Or.inl (exec_wallets h hmover).2
  · rcases exec_cases h with ⟨-, hunt⟩ | ⟨rows, -, hcommit⟩ |
      ⟨site, call, tx, accountId, currency, delta, rfl, hadj⟩
    · exact Or.inl hunt.moves
    · rw [Db.commit_ok hcommit]
      obtain ⟨ts, hts⟩ := Db.foldl_putTransaction db rows
      rw [hts]
      exact Or.inl rfl
    · by_cases hzero : delta = 0
      · have hmoves := hadj.moves
        rw [if_pos hzero, List.append_nil] at hmoves
        exact Or.inl hmoves
      · have hmoves := hadj.moves
        rw [if_neg hzero] at hmoves
        exact Or.inr ⟨site, call, tx, accountId, currency, delta, _, hzero, rfl, rfl, rfl, hmoves⟩

/-! ### Frames -/

theorem fetch_put (st : State) (f g : FetchId) (frame : Fetch) :
    (st.putFetch f frame).fetch g = if f = g then frame else st.fetch g := by
  unfold State.fetch State.putFetch
  rw [Table.get_put]
  split <;> rfl

theorem fetch_loaded (st : State) (f g : FetchId) :
    (st.loaded f).fetch g =
      if f = g then { st.fetch f with balances := some (st.load f.userId) } else st.fetch g :=
  fetch_put ..

theorem fetch_finish (st : State) (f g : FetchId) (thrown : Option Err) :
    (st.finish f thrown).fetch g =
      if f = g then ⟨none, st.settled f thrown⟩ else st.fetch g :=
  fetch_put ..

theorem pendingFetches_finish (st : State) (f : FetchId) (thrown : Option Err) :
    (st.finish f thrown).pendingFetches = Function.update st.pendingFetches f.userId none := rfl

/-- Only a frame that was written holds anything. -/
theorem mem_of_fetch {st : State} {f : FetchId} {b : Balances}
    (h : (st.fetch f).balances = some b) : (f, st.fetch f) ∈ st.fetches := by
  unfold State.fetch at h ⊢
  cases hget : Table.get Prod.fst st.fetches f with
  | none =>
    rw [hget] at h
    cases h
  | some entry =>
    have hkey := Table.key_of_get _ hget
    obtain ⟨g, frame⟩ := entry
    obtain rfl : g = f := hkey
    exact Table.mem_of_get _ hget

/-- What `startFetch` replies is a pending fetch, or a new one. -/
theorem State.startFetch_cases (st : State) (userId : UserId) :
    (∃ pending, st.pendingFetches userId = some pending ∧
      st.startFetch userId = ((pending, false), st)) ∨
    (st.pendingFetches userId = none ∧ ∃ st',
      st.startFetch userId = ((⟨userId, st.nextFetch⟩, true), st') ∧
      st'.db = st.db ∧ st'.cache = st.cache ∧
      st'.pendingFetches =
        Function.update st.pendingFetches userId (some ⟨userId, st.nextFetch⟩) ∧
      ∀ g, st'.fetch g =
        if (⟨userId, st.nextFetch⟩ : FetchId) = g then ⟨none, none⟩ else st.fetch g) := by
  unfold State.startFetch
  cases hpending : st.pendingFetches userId with
  | some pending => exact Or.inl ⟨pending, rfl, rfl⟩
  | none => exact Or.inr ⟨rfl, _, rfl, rfl, rfl, rfl, fun g => fetch_put ..⟩

/-! ### The transaction services -/

@[simp] theorem afterTx_db (st : State) (c : Cmd) (db : Db) : (st.afterTx c db).db = db := by
  unfold State.afterTx
  split <;> rfl

@[simp] theorem afterTx_fetch (st : State) (c : Cmd) (db : Db) :
    (st.afterTx c db).fetch = st.fetch := by
  unfold State.afterTx
  split <;> rfl

@[simp] theorem afterTx_pendingFetches (st : State) (c : Cmd) (db : Db) :
    (st.afterTx c db).pendingFetches = st.pendingFetches := by
  unfold State.afterTx
  split <;> rfl

/-- The transaction services put nothing into the cache. -/
theorem afterTx_cache {st : State} {c : Cmd} {db : Db} {userId : UserId} {b : Balances}
    (h : (st.afterTx c db).cache userId = some b) : st.cache userId = some b := by
  unfold State.afterTx at h
  split at h
  · rename_i deleted
    by_cases hu : userId = deleted
    · subst hu
      have hnone : (st.del userId).cache userId = none := Function.update_self ..
      exact absurd (hnone.symm.trans h) (by simp)
    · have hsame : (st.del deleted).cache userId = st.cache userId :=
        Function.update_of_ne hu ..
      exact hsame.symm.trans h
  · exact h

end BalanceCache

end NexaFx
