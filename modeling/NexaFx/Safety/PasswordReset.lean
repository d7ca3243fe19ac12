import NexaFx.Model.PasswordReset

/-!
# NexaFx — reset links and reset tokens

A link is accepted until it expires or a newer one is sent, and a reset that
succeeds means to take it out of force; but it hands `undefined` to `update`,
which leaves the column. So a link changes the password as often as it is
presented in time (`changesAt_eq`), and once only if it is presented in time
once (`links_single_use_iff`).

The tokens of the other service are accepted exactly while they are in force
(`validates_iff`).
-/

namespace NexaFx

-- ---------------------------------------------------------------------------
-- Links
-- ---------------------------------------------------------------------------

namespace ResetLinks

variable {H : Type} {sha256 : String → H}

/-- The link that was sent to the account last: its time and its token. -/
def latestLink (email : String) (calls : List TimedCall) : Option (ℕ × String) :=
  (calls.filterMap fun
    | (now, .forgotPassword e rawToken) => if e = email then some (now, rawToken) else none
    | _ => none).getLast?

/-- The `i`-th call presents the token to the account, and changes the password. -/
def changesAt [DecidableEq H] (sha256 : String → H) (users : Users H) (calls : List TimedCall)
    (email token : String) (i : ℕ) : Bool :=
  match calls[i]? with
  | some (now, .resetPassword e t newPasswordHash) =>
    decide (e = email ∧ t = token) &&
      (resetPassword sha256 now e t newPasswordHash (users.calls sha256 (calls.take i))).isOk
  | _ => false

/-- Each link changes the password at most once, before it expires and before a
newer one is sent. -/
structure SingleUse [DecidableEq H] (sha256 : String → H) (users : Users H) (calls : List TimedCall)
    (email : String) : Prop where
  once : ∀ token,
    (List.range calls.length).countP (changesAt sha256 users calls email token) ≤ 1
  inForce : ∀ token i, changesAt sha256 users calls email token i = true →
    ∃ now call sent, calls[i]? = some (now, call) ∧
      latestLink email (calls.take i) = some (sent, token) ∧ now ≤ sent + EXPIRY_MS

/-- The `i`-th call presents the token to the account, which is that of the link
sent last, and has not expired. -/
def timelyAt (calls : List TimedCall) (email token : String) (i : ℕ) : Bool :=
  match calls[i]? with
  | some (now, .resetPassword e t _) =>
    decide (e = email ∧ t = token) && (latestLink email (calls.take i)).any fun link =>
      decide (link.2 = token ∧ now ≤ link.1 + EXPIRY_MS)
  | _ => false

section Account

variable {users : Users H} {email : String} {user : UserEntity H}

theorem find_update (users : Users H) (id : UserId) (changes : Changes H) (email : String) :
    (users.update id changes).find email =
      (users.find email).map fun user => if user.id = id then user.apply changes else user := by
  unfold Users.find Users.update
  rw [List.find?_map]
  congr 2
  funext user
  by_cases h : user.id = id <;> simp [h, UserEntity.apply]

/-- Another address is another account. -/
theorem id_ne_of_find {email' : String} {user' : UserEntity H} (h : users.find email = some user)
    (h' : users.find email' = some user') (hne : email' ≠ email) : user.id ≠ user'.id := by
  intro hid
  have hsame : user = user' :=
    List.inj_on_of_nodup_map users.keyed (List.mem_of_find?_eq_some h)
      (List.mem_of_find?_eq_some h') hid
  have hemail := List.find?_some h
  have hemail' := List.find?_some h'
  simp only [Bool.and_eq_true, decide_eq_true_eq] at hemail hemail'
  rw [hsame, hemail'.1] at hemail
  exact hne hemail.1

/-- The row of the account holds the link that was sent last. -/
structure Holds (sha256 : String → H) (link : Option (ℕ × String)) (user : UserEntity H) :
    Prop where
  hash : user.passwordResetTokenHash = link.map fun l => sha256 l.2
  expiry : ∀ l, link = some l → user.passwordResetExpiry = some (l.1 + EXPIRY_MS)

theorem latestLink_concat (email : String) (calls : List TimedCall) (call : TimedCall) :
    latestLink email (calls ++ [call]) =
      match call with
      | (now, .forgotPassword e rawToken) =>
        if e = email then some (now, rawToken) else latestLink email calls
      | _ => latestLink email calls := by
  obtain ⟨now, call⟩ := call
  cases call with
  | forgotPassword e rawToken =>
    by_cases h : e = email <;> simp [latestLink, List.filterMap_append, h]
  | resetPassword e token newPasswordHash => simp [latestLink, List.filterMap_append]

variable [DecidableEq H]

theorem resetPassword_ok_iff {now : ℕ} {token newPasswordHash : String} {users' : Users H} :
    resetPassword sha256 now email token newPasswordHash users = .ok users' ↔
      ∃ user expiry, users.find email = some user ∧
        user.passwordResetTokenHash = some (sha256 token) ∧
        user.passwordResetExpiry = some expiry ∧ now ≤ expiry ∧
        users' = users.update user.id { passwordHash := some newPasswordHash } := by
  unfold resetPassword
  cases hfind : users.find email with
  | none => simp
  | some user =>
    cases hhash : user.passwordResetTokenHash with
    | none => simp [hhash]
    | some hash =>
      cases hexpiry : user.passwordResetExpiry with
      | none => simp [hhash, hexpiry]
      | some expiry =>
        simp only [hhash, hexpiry]
        split
        · rename_i hlate
          constructor
          · intro h
            cases h
          · rintro ⟨user', expiry', hfind', -, hexpiry', hnow, -⟩
            cases hfind'
            rw [hexpiry] at hexpiry'
            cases hexpiry'
            omega
        · rename_i hintime
          split
          · rename_i hother
            constructor
            · intro h
              cases h
            · rintro ⟨user', expiry', hfind', hhash', -⟩
              cases hfind'
              rw [hhash] at hhash'
              cases hhash'
              exact absurd rfl hother
          · rename_i hsame
            rw [not_not] at hsame
            constructor
            · intro h
              cases h
              exact ⟨user, expiry, rfl, by rw [hhash, hsame], hexpiry, by omega, rfl⟩
            · rintro ⟨user', expiry', hfind', -, -, -, rfl⟩
              cases hfind'
              rfl

/-- **Step lemma.** -/
theorem holds_call {link : Option (ℕ × String)} (hfind : users.find email = some user)
    (h : Holds sha256 link user) (call : TimedCall) :
    ∃ user', (users.call sha256 call).find email = some user' ∧
      Holds sha256 (match call with
        | (now, .forgotPassword e rawToken) => if e = email then some (now, rawToken) else link
        | _ => link) user' := by
  obtain ⟨now, call⟩ := call
  cases call with
  | forgotPassword e rawToken =>
    simp only [Users.call, forgotPassword]
    by_cases he : e = email
    · subst he
      rw [hfind, if_pos rfl]
      refine ⟨user.apply
        { passwordResetTokenHash := some (sha256 rawToken)
          passwordResetExpiry := some (now + EXPIRY_MS) }, ?_, rfl, fun l hl => ?_⟩
      · show (users.update user.id _).find e = _
        rw [find_update, hfind, Option.map_some, if_pos rfl]
      · cases hl
        rfl
    · rw [if_neg he]
      cases hother : users.find e with
      | none => exact ⟨user, hfind, h⟩
      | some other =>
        refine ⟨user, ?_, h⟩
        show (users.update other.id _).find email = some user
        rw [find_update, hfind, Option.map_some, if_neg (id_ne_of_find hfind hother he)]
  | resetPassword e token newPasswordHash =>
    simp only [Users.call]
    cases hreset : resetPassword sha256 now e token newPasswordHash users with
    | error err => exact ⟨user, hfind, h⟩
    | ok users' =>
      obtain ⟨other, expiry, hother, hhash, hexpiry, -, rfl⟩ := resetPassword_ok_iff.mp hreset
      -- the columns of the link are left as they are
      refine ⟨if user.id = other.id then
        user.apply { passwordHash := some newPasswordHash } else user, ?_, ?_⟩
      · show (users.update other.id _).find email = _
        rw [find_update, hfind, Option.map_some]
      · split
        · exact ⟨h.hash, h.expiry⟩
        · exact h

/-- The row of the account holds the link that was sent last. -/
theorem holds_calls (hfind : users.find email = some user)
    (hnone : user.passwordResetTokenHash = none) (calls : List TimedCall) :
    ∃ user', (users.calls sha256 calls).find email = some user' ∧
      Holds sha256 (latestLink email calls) user' := by
  induction calls using List.reverseRecOn with
  | nil => exact ⟨user, hfind, hnone, fun l hl => by cases hl⟩
  | append_singleton calls call ih =>
    obtain ⟨user', hfind', h'⟩ := ih
    have hcall : users.calls sha256 (calls ++ [call]) =
        (users.calls sha256 calls).call sha256 call := List.foldl_concat ..
    rw [hcall, latestLink_concat]
    exact holds_call hfind' h' call

/-- A token is accepted while it is that of the link sent last, and not expired. -/
theorem resets_eq (hinjective : Function.Injective sha256) (hfind : users.find email = some user)
    (hnone : user.passwordResetTokenHash = none) (calls : List TimedCall) (now : ℕ)
    (token newPasswordHash : String) :
    (resetPassword sha256 now email token newPasswordHash (users.calls sha256 calls)).isOk =
      (latestLink email calls).any fun link =>
        decide (link.2 = token ∧ now ≤ link.1 + EXPIRY_MS) := by
  obtain ⟨user', hfind', hhash, hexpiry⟩ := holds_calls hfind hnone calls
  rw [Bool.eq_iff_iff, Option.any_eq_true]
  constructor
  · intro hok
    cases hreset : resetPassword sha256 now email token newPasswordHash (users.calls sha256 calls) with
    | error e =>
      rw [hreset] at hok
      cases hok
    | ok users' =>
      obtain ⟨user₀, expiry, hfind₀, hhash₀, hexpiry₀, hnow, -⟩ := resetPassword_ok_iff.mp hreset
      obtain rfl : user' = user₀ := Option.some.inj (hfind'.symm.trans hfind₀)
      rw [hhash] at hhash₀
      obtain ⟨link, hlink, htoken⟩ := Option.map_eq_some_iff.mp hhash₀
      have hthis := hexpiry link hlink
      rw [hexpiry₀, Option.some.injEq] at hthis
      refine ⟨link, hlink, decide_eq_true ⟨hinjective htoken, ?_⟩⟩
      omega
  · rintro ⟨link, hlink, hin⟩
    obtain ⟨htoken, hnow⟩ := of_decide_eq_true hin
    have htokenHash : user'.passwordResetTokenHash = some (sha256 token) := by
      rw [hhash, hlink, Option.map_some, htoken]
    rw [resetPassword_ok_iff.mpr ⟨user', _, hfind', htokenHash, hexpiry link hlink, hnow, rfl⟩]
    rfl

/-- A link changes the password as often as it is presented in time. -/
theorem changesAt_eq (hinjective : Function.Injective sha256) (hfind : users.find email = some user)
    (hnone : user.passwordResetTokenHash = none) (calls : List TimedCall) (token : String) (i : ℕ) :
    changesAt sha256 users calls email token i = timelyAt calls email token i := by
  unfold changesAt timelyAt
  cases calls[i]? with
  | none => rfl
  | some call =>
    obtain ⟨now, call⟩ := call
    cases call with
    | forgotPassword e rawToken => rfl
    | resetPassword e t newPasswordHash =>
      by_cases hthis : e = email ∧ t = token
      · obtain ⟨rfl, rfl⟩ := hthis
        simp only [and_self, decide_true, Bool.true_and]
        exact resets_eq hinjective hfind hnone (calls.take i) now t newPasswordHash
      · simp only [hthis, decide_false, Bool.false_and]

omit [DecidableEq H] in
theorem inForce_of_timelyAt {calls : List TimedCall} {token : String} {i : ℕ}
    (h : timelyAt calls email token i = true) :
    ∃ now call sent, calls[i]? = some (now, call) ∧
      latestLink email (calls.take i) = some (sent, token) ∧ now ≤ sent + EXPIRY_MS := by
  unfold timelyAt at h
  split at h
  · rename_i now e t newPasswordHash hcall
    rw [Bool.and_eq_true, Option.any_eq_true] at h
    obtain ⟨-, ⟨sent, token'⟩, hlink, hin⟩ := h
    obtain ⟨rfl, hnow⟩ := of_decide_eq_true hin
    exact ⟨now, _, sent, hcall, hlink, hnow⟩
  · cases h

/-- **Reset links.** -/
theorem links_single_use_iff (hinjective : Function.Injective sha256)
    (hfind : users.find email = some user) (hnone : user.passwordResetTokenHash = none)
    (calls : List TimedCall) :
    SingleUse sha256 users calls email ↔
      ∀ token, (List.range calls.length).countP (timelyAt calls email token) ≤ 1 := by
  have hsame : ∀ token, changesAt sha256 users calls email token = timelyAt calls email token :=
    fun token => funext fun i => changesAt_eq hinjective hfind hnone calls token i
  constructor
  · intro h token
    rw [← hsame]
    exact h.once token
  · intro h
    refine ⟨fun token => ?_, fun token i hi => ?_⟩
    · rw [hsame]
      exact h token
    · rw [hsame] at hi
      exact inForce_of_timelyAt hi

end Account

/-- One account, without a link. -/
def oneUser : Users String where
  rows := [⟨1, "user@example.com", false, "hash", none, none⟩]
  keyed := List.nodup_singleton 1

/-- The link of one mail, `"token"`, is followed twice within a minute. -/
def followedTwice : List TimedCall :=
  [(0, .forgotPassword "user@example.com" "token"),
    (30000, .resetPassword "user@example.com" "token" "first"),
    (60000, .resetPassword "user@example.com" "token" "second")]

/-- The second time is after the link has expired. -/
def followedLate : List TimedCall :=
  [(0, .forgotPassword "user@example.com" "token"),
    (30000, .resetPassword "user@example.com" "token" "first"),
    (900001, .resetPassword "user@example.com" "token" "second")]

theorem links_single_use_late : SingleUse id oneUser followedLate "user@example.com" := by
  refine (links_single_use_iff Function.injective_id rfl rfl followedLate).mpr fun token => ?_
  by_cases h : token = "token"
  · subst h
    decide
  · have hnone : (List.range 3).countP (timelyAt followedLate "user@example.com" token) = 0 := by
      simp [List.range_succ, timelyAt, followedLate, Ne.symm h]
    exact hnone.trans_le (Nat.zero_le 1)

theorem link_used_twice : ¬ SingleUse id oneUser followedTwice "user@example.com" := by
  intro h
  have honce := h.once "token"
  revert honce
  decide

end ResetLinks

-- ---------------------------------------------------------------------------
-- Tokens
-- ---------------------------------------------------------------------------

namespace ResetTokens

variable {H : Type} {sha256 : String → H}

/-- What has happened to a token since it was returned. -/
structure Entry where
  token : String
  userId : UserId
  createdAt : ℕ
  consumed : Bool
  /-- A newer token was created for the user. -/
  superseded : Bool
  /-- How often it validated. -/
  validated : ℕ
  deriving DecidableEq

/-- The token is in force. -/
structure Entry.InForce (e : Entry) (now : ℕ) : Prop where
  unexpired : now ≤ e.createdAt + TOKEN_TTL_MS
  notConsumed : e.consumed = false
  latest : e.superseded = false
  tries : e.validated < 3

def Entry.supersede (userId : UserId) (e : Entry) : Entry :=
  if e.userId = userId then { e with superseded := true } else e

def Entry.validate (token : String) (e : Entry) : Entry :=
  if e.token = token then { e with validated := e.validated + 1 } else e

def Entry.consume (token : String) (e : Entry) : Entry :=
  if e.token = token then { e with consumed := true } else e

/-- What a call means for the tokens. -/
def note [DecidableEq H] (sha256 : String → H) (tokens : Tokens H) (history : List Entry) :
    TimedCall → List Entry
  | (now, .createResetToken userId rawToken) =>
    history.map (Entry.supersede userId) ++ [⟨rawToken, userId, now, false, false, 0⟩]
  | (now, .validateToken rawToken) =>
    if (validateToken sha256 now rawToken tokens).1.isOk then
      history.map (Entry.validate rawToken) else history
  | (_, .consumeToken rawToken) => history.map (Entry.consume rawToken)
  | (_, .purgeExpiredTokens) => history

/-- An empty table. -/
def noTokens : Tokens H := ⟨[], List.nodup_nil⟩

/-- The table and the history after these calls. -/
def lives [DecidableEq H] (sha256 : String → H) (calls : List TimedCall) :
    Tokens H × List Entry :=
  calls.foldl (fun st call => (st.1.call sha256 call, note sha256 st.1 st.2 call)) (noTokens, [])

/-- The tokens that the calls return. -/
def created (calls : List TimedCall) : List String :=
  calls.filterMap fun
    | (_, .createResetToken _ rawToken) => some rawToken
    | _ => none

/-- Calls at nondecreasing times, of which none returns the token of another. -/
structure Proper (calls : List TimedCall) : Prop where
  times : (calls.map Prod.fst).Pairwise (· ≤ ·)
  distinct : (created calls).Nodup

/-- The row is that of the token, as far as it matters: once it is used, newer
tokens leave it. -/
structure PasswordResetToken.Of (sha256 : String → H) (e : Entry) (r : PasswordResetToken H) :
    Prop where
  hash : r.tokenHash = sha256 e.token
  userId : r.userId = e.userId
  expiresAt : r.expiresAt = e.createdAt + TOKEN_TTL_MS
  used : r.used = e.consumed
  attempts : r.attempts = e.validated
  latest : r.used = false → e.superseded = false

/-- The table follows the history: every row is that of a token, and every token
in force has a row. -/
structure Follows (sha256 : String → H) (now : ℕ) (tokens : Tokens H) (history : List Entry) :
    Prop where
  distinct : (history.map Entry.token).Nodup
  hashes : (tokens.rows.map PasswordResetToken.tokenHash).Nodup
  noted : ∀ r ∈ tokens.rows, ∃ e ∈ history, r.Of sha256 e
  kept : ∀ e ∈ history, e.InForce now → ∃ r ∈ tokens.rows, r.Of sha256 e

section Steps

variable {now : ℕ} {tokens : Tokens H} {history : List Entry}

theorem Follows.later {now' : ℕ} (h : Follows sha256 now tokens history) (hle : now ≤ now') :
    Follows sha256 now' tokens history where
  distinct := h.distinct
  hashes := h.hashes
  noted := h.noted
  kept e he hforce := by
    have hearlier := hforce.unexpired
    exact h.kept e he ⟨by omega, hforce.notConsumed, hforce.latest, hforce.tries⟩

/-- A row is that of one token. -/
theorem Follows.entry_unique (hinjective : Function.Injective sha256)
    (h : Follows sha256 now tokens history) {e e' : Entry} (he : e ∈ history) (he' : e' ∈ history)
    {r : PasswordResetToken H} (hr : r.Of sha256 e) (hr' : r.Of sha256 e') : e = e' :=
  List.inj_on_of_nodup_map h.distinct he he' (hinjective (hr.hash.symm.trans hr'.hash))

theorem Follows.row_unique (h : Follows sha256 now tokens history) {e : Entry}
    {r r' : PasswordResetToken H} (hr : r ∈ tokens.rows) (hr' : r' ∈ tokens.rows)
    (hof : r.Of sha256 e) (hof' : r'.Of sha256 e) : r = r' :=
  List.inj_on_of_nodup_map h.hashes hr hr' (hof.hash.trans hof'.hash.symm)

/-- Rows of tokens that are not in force may go. -/
theorem Follows.delete (h : Follows sha256 now tokens history) {p : PasswordResetToken H → Bool}
    (hp : ∀ r ∈ tokens.rows, p r = true → ∀ e ∈ history, r.Of sha256 e → ¬ e.InForce now) :
    Follows sha256 now (tokens.delete p) history where
  distinct := h.distinct
  hashes := h.hashes.sublist (List.filter_sublist.map _)
  noted r hr := h.noted r (List.mem_of_mem_filter hr)
  kept e he hforce := by
    obtain ⟨r, hr, hof⟩ := h.kept e he hforce
    refine ⟨r, List.mem_filter.mpr ⟨hr, ?_⟩, hof⟩
    rw [Bool.not_eq_true']
    by_contra hgone
    exact hp r hr (by simpa using hgone) e he hof hforce

/-- The same change of a token and of its row. -/
theorem Follows.map (h : Follows sha256 now tokens history) {p : PasswordResetToken H → Bool}
    {f : PasswordResetToken H → PasswordResetToken H} (hf : ∀ r, (f r).id = r.id) {g : Entry → Entry}
    (hhash : ∀ r, (f r).tokenHash = r.tokenHash) (htoken : ∀ e, (g e).token = e.token)
    (hforce : ∀ e, (g e).InForce now → e.InForce now)
    (hof : ∀ r ∈ tokens.rows, ∀ e ∈ history, r.Of sha256 e →
      (if p r then f r else r).Of sha256 (g e)) :
    Follows sha256 now (tokens.update p f hf) (history.map g) where
  distinct := by
    rw [List.map_map]
    have hsame : Entry.token ∘ g = Entry.token := funext htoken
    rw [hsame]
    exact h.distinct
  hashes := by
    have hsame : (PasswordResetToken.tokenHash ∘ fun r => if p r then f r else r) =
        PasswordResetToken.tokenHash := by
      funext r
      by_cases hr : p r <;> simp [hr, hhash]
    show ((tokens.rows.map fun r => if p r then f r else r).map
      PasswordResetToken.tokenHash).Nodup
    rw [List.map_map, hsame]
    exact h.hashes
  noted r hr := by
    obtain ⟨r₀, hr₀, rfl⟩ := List.mem_map.mp hr
    obtain ⟨e, he, hre⟩ := h.noted r₀ hr₀
    exact ⟨g e, List.mem_map_of_mem he, hof r₀ hr₀ e he hre⟩
  kept e he hin := by
    obtain ⟨e₀, he₀, rfl⟩ := List.mem_map.mp he
    obtain ⟨r, hr, hre⟩ := h.kept e₀ he₀ (hforce e₀ hin)
    exact ⟨_, List.mem_map_of_mem hr, hof r hr e₀ he₀ hre⟩

theorem Follows.purge (h : Follows sha256 now tokens history) :
    Follows sha256 now (purgeExpiredTokens now tokens) history := by
  refine h.delete fun r _ hexpired e _ hof hforce => ?_
  have hearlier := hforce.unexpired
  have hlate : r.expiresAt < now := of_decide_eq_true hexpired
  rw [hof.expiresAt] at hlate
  omega

theorem Follows.consume [DecidableEq H] (hinjective : Function.Injective sha256)
    (h : Follows sha256 now tokens history) (token : String) :
    Follows sha256 now (consumeToken sha256 token tokens) (history.map (Entry.consume token)) := by
  refine h.map (f := fun r => { r with used := true }) (fun _ => rfl) (fun _ => rfl) (fun e => ?_) (fun e hforce => ?_) fun r _ e _ hof => ?_
  · unfold Entry.consume
    split <;> rfl
  · unfold Entry.consume at hforce
    split at hforce
    · exact absurd hforce.notConsumed (by simp)
    · exact hforce
  · have hthis : r.tokenHash = sha256 token ↔ e.token = token := by
      rw [hof.hash]
      exact hinjective.eq_iff
    unfold Entry.consume
    by_cases ht : e.token = token
    · rw [if_pos ht, if_pos (decide_eq_true (hthis.mpr ht))]
      exact ⟨hof.hash, hof.userId, hof.expiresAt, rfl, hof.attempts, fun hused => by cases hused⟩
    · rw [if_neg ht, if_neg (by simpa using fun hr => ht (hthis.mp hr))]
      exact hof

/-- The new token is not one of the old ones. -/
theorem Follows.create (hinjective : Function.Injective sha256)
    (h : Follows sha256 now tokens history) (userId : UserId) {token : String}
    (hnew : token ∉ history.map Entry.token) :
    Follows sha256 now (createResetToken sha256 now userId token tokens)
      (history.map (Entry.supersede userId) ++ [⟨token, userId, now, false, false, 0⟩]) := by
  have hsame : Entry.token ∘ Entry.supersede userId = Entry.token := by
    funext e
    simp only [Function.comp, Entry.supersede]
    split <;> rfl
  have hrows : ∀ r ∈ (createResetToken sha256 now userId token tokens).rows,
      (r ∈ tokens.rows ∧ ¬ (r.userId = userId ∧ r.used = false)) ∨
        r.Of sha256 ⟨token, userId, now, false, false, 0⟩ := by
    intro r hr
    rcases List.mem_append.mp hr with hold | hthis
    · obtain ⟨hmem, hstays⟩ := List.mem_filter.mp hold
      simp only [Bool.not_eq_true', Bool.and_eq_false_iff, decide_eq_false_iff_not] at hstays
      refine Or.inl ⟨hmem, ?_⟩
      rintro ⟨huser, hunused⟩
      rcases hstays with hother | hused
      · exact hother huser
      · rw [hunused] at hused
        cases hused
    · rw [List.mem_singleton.mp hthis]
      exact Or.inr ⟨rfl, rfl, rfl, rfl, rfl, fun _ => rfl⟩
  -- a row that stays is used, or that of another user
  have hstays : ∀ r : PasswordResetToken H, ¬ (r.userId = userId ∧ r.used = false) → ∀ e, r.Of sha256 e →
      r.Of sha256 (e.supersede userId) := by
    intro r hr e hof
    unfold Entry.supersede
    split
    · rename_i huser
      refine ⟨hof.hash, hof.userId, hof.expiresAt, hof.used, hof.attempts, fun hunused => ?_⟩
      exact absurd ⟨hof.userId.trans huser, hunused⟩ hr
    · exact hof
  refine ⟨?distinct, ?hashes, fun r hr => ?_, fun e he hforce => ?_⟩
  case distinct =>
    refine Table.nodup_concat Entry.token ?_ ?_
    · rw [List.map_map, hsame]
      exact h.distinct
    · rw [List.map_map, hsame]
      exact hnew
  case hashes =>
    refine Table.nodup_concat PasswordResetToken.tokenHash
      (h.hashes.sublist (List.filter_sublist.map _)) ?_
    intro hold
    obtain ⟨r, hr, hhash⟩ := List.mem_map.mp hold
    obtain ⟨e, he, hof⟩ := h.noted r (List.mem_of_mem_filter hr)
    refine hnew (List.mem_map.mpr ⟨e, he, hinjective ?_⟩)
    rw [← hof.hash, hhash]
  · rcases hrows r hr with ⟨hmem, hstay⟩ | hthis
    · obtain ⟨e, he, hof⟩ := h.noted r hmem
      exact ⟨_, List.mem_append_left _ (List.mem_map_of_mem he), hstays r hstay e hof⟩
    · exact ⟨_, List.mem_append_right _ List.mem_cons_self, hthis⟩
  · rcases List.mem_append.mp he with hold | hthis
    · obtain ⟨e₀, he₀, rfl⟩ := List.mem_map.mp hold
      have huser : e₀.userId ≠ userId := by
        intro huser
        have hlatest := hforce.latest
        rw [Entry.supersede, if_pos huser] at hlatest
        cases hlatest
      have hentry : e₀.supersede userId = e₀ := if_neg huser
      rw [hentry] at hforce ⊢
      obtain ⟨r, hr, hof⟩ := h.kept e₀ he₀ hforce
      refine ⟨r, List.mem_append_left _ (List.mem_filter.mpr ⟨hr, ?_⟩), hof⟩
      simp [hof.userId, huser]
    · rw [List.mem_singleton.mp hthis]
      exact ⟨_, List.mem_append_right _ List.mem_cons_self, rfl, rfl, rfl, rfl, rfl, fun _ => rfl⟩

/-- The row that is found is that of the token. -/
theorem Follows.found [DecidableEq H] (hinjective : Function.Injective sha256)
    (h : Follows sha256 now tokens history) {token : String} {r : PasswordResetToken H}
    (hfind : tokens.find (sha256 token) = some r) :
    r ∈ tokens.rows ∧ ∃ e ∈ history, e.token = token ∧ r.Of sha256 e := by
  have hmem := List.mem_of_find?_eq_some hfind
  have hhash : r.tokenHash = sha256 token := by simpa using List.find?_some hfind
  obtain ⟨e, he, hof⟩ := h.noted r hmem
  exact ⟨hmem, e, he, hinjective (hof.hash.symm.trans hhash), hof⟩

/-- A token that is not in force does not validate, and its row may go. -/
theorem Follows.deleteId (hinjective : Function.Injective sha256)
    (h : Follows sha256 now tokens history) {r : PasswordResetToken H} {e : Entry}
    (hr : r ∈ tokens.rows) (he : e ∈ history) (hof : r.Of sha256 e) (hforce : ¬ e.InForce now) :
    Follows sha256 now (tokens.deleteId r.id) history := by
  refine h.delete fun r' hr' hid e' he' hof' => ?_
  obtain rfl : r' = r := List.inj_on_of_nodup_map tokens.keyed hr' hr (of_decide_eq_true hid)
  rw [h.entry_unique hinjective he' he hof' hof]
  exact hforce

/-- A validation: the token is not in force, and its row may go, or it is, and a
try is counted. -/
theorem validateToken_cases [DecidableEq H] (hinjective : Function.Injective sha256)
    (h : Follows sha256 now tokens history) (token : String) :
    (∃ err, (validateToken sha256 now token tokens).1 = .error err ∧
      (∀ e ∈ history, e.token = token → ¬ e.InForce now) ∧
      ((validateToken sha256 now token tokens).2 = tokens ∨ ∃ r ∈ tokens.rows, ∃ e ∈ history,
        e.token = token ∧ r.Of sha256 e ∧
        (validateToken sha256 now token tokens).2 = tokens.deleteId r.id)) ∨
    ∃ r ∈ tokens.rows, ∃ e ∈ history, e.token = token ∧ r.Of sha256 e ∧ e.InForce now ∧
      validateToken sha256 now token tokens =
        (.ok r.userId, tokens.setAttempts r.id (r.attempts + 1)) := by
  unfold validateToken
  cases hfind : tokens.find (sha256 token) with
  | none =>
    refine Or.inl ⟨_, rfl, fun e he htoken hforce => ?_, Or.inl rfl⟩
    obtain ⟨r, hr, hof⟩ := h.kept e he hforce
    have hother := List.find?_eq_none.mp hfind r hr
    rw [decide_eq_true_eq, hof.hash, htoken] at hother
    exact hother rfl
  | some r =>
    obtain ⟨hr, e, he, htoken, hof⟩ := h.found hinjective hfind
    -- the history has one entry of the token
    have hentry : ∀ e' ∈ history, e'.token = token → e' = e := fun e' he' htoken' =>
      List.inj_on_of_nodup_map h.distinct he' he (htoken'.trans htoken.symm)
    simp only
    split
    · rename_i hused
      refine Or.inl ⟨_, rfl, fun e' he' htoken' hforce => ?_, Or.inl rfl⟩
      rw [hentry e' he' htoken'] at hforce
      rw [hof.used, hforce.notConsumed] at hused
      cases hused
    · rename_i hunused
      split
      · rename_i hlate
        refine Or.inl ⟨_, rfl, fun e' he' htoken' hforce => ?_,
          Or.inr ⟨r, hr, e, he, htoken, hof, rfl⟩⟩
        rw [hentry e' he' htoken'] at hforce
        have hearlier := hforce.unexpired
        rw [hof.expiresAt] at hlate
        omega
      · rename_i hintime
        split
        · rename_i htries
          refine Or.inl ⟨_, rfl, fun e' he' htoken' hforce => ?_,
            Or.inr ⟨r, hr, e, he, htoken, hof, rfl⟩⟩
          rw [hentry e' he' htoken'] at hforce
          have hfew := hforce.tries
          rw [hof.attempts] at htries
          unfold MAX_ATTEMPTS at htries
          omega
        · rename_i htries
          refine Or.inr ⟨r, hr, e, he, htoken, hof, ⟨?_, ?_, ?_, ?_⟩, rfl⟩
          · rw [hof.expiresAt] at hintime
            omega
          · rw [← hof.used]
            simpa using hunused
          · exact hof.latest (by simpa using hunused)
          · rw [hof.attempts] at htries
            unfold MAX_ATTEMPTS at htries
            omega

/-- A token validates for its user exactly while it is in force. -/
theorem validateToken_ok_iff [DecidableEq H] (hinjective : Function.Injective sha256)
    (h : Follows sha256 now tokens history) {token : String} {userId : UserId} :
    (validateToken sha256 now token tokens).1 = .ok userId ↔
      ∃ e ∈ history, e.token = token ∧ e.userId = userId ∧ e.InForce now := by
  rcases validateToken_cases hinjective h token with
    ⟨err, herr, hnone, -⟩ | ⟨r, hr, e, he, htoken, hof, hforce, hok⟩
  · rw [herr]
    constructor
    · intro h
      cases h
    · rintro ⟨e, he, htoken, -, hforce⟩
      exact absurd hforce (hnone e he htoken)
  · rw [hok]
    constructor
    · intro hsame
      cases hsame
      exact ⟨e, he, htoken, hof.userId.symm, hforce⟩
    · rintro ⟨e', he', htoken', huser, -⟩
      have hentry : e' = e :=
        List.inj_on_of_nodup_map h.distinct he' he (htoken'.trans htoken.symm)
      rw [← huser, hentry, hof.userId]

theorem Follows.validate [DecidableEq H] (hinjective : Function.Injective sha256)
    (h : Follows sha256 now tokens history) (token : String) :
    Follows sha256 now (validateToken sha256 now token tokens).2
      (if (validateToken sha256 now token tokens).1.isOk then
        history.map (Entry.validate token) else history) := by
  rcases validateToken_cases hinjective h token with
    ⟨err, herr, hnone, hsame | ⟨r, hr, e, he, htoken, hof, hgone⟩⟩ |
    ⟨r, hr, e, he, htoken, hof, hforce, hok⟩
  · rw [herr, hsame]
    exact h
  · rw [herr, hgone]
    exact h.deleteId hinjective hr he hof (hnone e he htoken)
  · rw [hok]
    refine h.map (f := fun x => { x with attempts := r.attempts + 1 }) (fun _ => rfl) (fun _ => rfl)
      (fun e => ?_) (fun e hforce => ?_) fun r' hr' e' he' hof' => ?_
    · unfold Entry.validate
      split <;> rfl
    · unfold Entry.validate at hforce
      split at hforce
      · refine ⟨hforce.unexpired, hforce.notConsumed, hforce.latest, ?_⟩
        have hfew : e.validated + 1 < 3 := hforce.tries
        omega
      · exact hforce
    · unfold Entry.validate
      by_cases htoken' : e'.token = token
      · have hentry : e' = e :=
          List.inj_on_of_nodup_map h.distinct he' he (htoken'.trans htoken.symm)
        subst hentry
        obtain rfl : r' = r := h.row_unique hr' hr hof' hof
        rw [if_pos htoken', if_pos (decide_eq_true rfl)]
        exact ⟨hof.hash, hof.userId, hof.expiresAt, hof.used,
          congrArg (· + 1) hof.attempts, hof.latest⟩
      · have hid : r'.id ≠ r.id := by
          intro hid
          obtain rfl : r' = r := List.inj_on_of_nodup_map tokens.keyed hr' hr hid
          rw [h.entry_unique hinjective he' he hof' hof] at htoken'
          exact htoken' htoken
        rw [if_neg htoken', if_neg (by simpa using hid)]
        exact hof'

end Steps

-- ---------------------------------------------------------------------------
-- The life of a token
-- ---------------------------------------------------------------------------

section Lives

variable [DecidableEq H]

/-- **Step lemma.** -/
theorem Follows.call (hinjective : Function.Injective sha256) {now : ℕ} {tokens : Tokens H}
    {history : List Entry} (h : Follows sha256 now tokens history) {call : Call}
    (hnew : ∀ userId token, call = .createResetToken userId token →
      token ∉ history.map Entry.token) :
    Follows sha256 now (tokens.call sha256 (now, call)) (note sha256 tokens history (now, call)) := by
  cases call with
  | createResetToken userId rawToken => exact h.create hinjective userId (hnew userId rawToken rfl)
  | validateToken rawToken => exact h.validate hinjective rawToken
  | consumeToken rawToken => exact h.consume hinjective rawToken
  | purgeExpiredTokens => exact h.purge

theorem map_token_of_same {g : Entry → Entry} (hg : ∀ e, (g e).token = e.token)
    (history : List Entry) : (history.map g).map Entry.token = history.map Entry.token := by
  rw [List.map_map]
  exact List.map_congr_left fun e _ => hg e

/-- The history has an entry for each token that was returned. -/
theorem tokens_note (tokens : Tokens H) (history : List Entry) (call : TimedCall) :
    (note sha256 tokens history call).map Entry.token =
      history.map Entry.token ++ created [call] := by
  obtain ⟨now, call⟩ := call
  cases call with
  | createResetToken userId rawToken =>
    show (history.map (Entry.supersede userId) ++ [_]).map Entry.token = _
    rw [List.map_append, map_token_of_same fun e => ?_]
    · rfl
    · unfold Entry.supersede
      split <;> rfl
  | validateToken rawToken =>
    show (if _ then history.map (Entry.validate rawToken) else history).map Entry.token = _
    have hsame : (history.map (Entry.validate rawToken)).map Entry.token =
        history.map Entry.token := by
      refine map_token_of_same (fun e => ?_) history
      unfold Entry.validate
      split <;> rfl
    split
    · rw [hsame]
      exact (List.append_nil _).symm
    · exact (List.append_nil _).symm
  | consumeToken rawToken =>
    show (history.map (Entry.consume rawToken)).map Entry.token = _
    rw [map_token_of_same fun e => ?_]
    · exact (List.append_nil _).symm
    · unfold Entry.consume
      split <;> rfl
  | purgeExpiredTokens => exact (List.append_nil _).symm

/-- **Run lemma.** -/
theorem follows_lives (hinjective : Function.Injective sha256) {calls : List TimedCall}
    (hproper : Proper calls) {now : ℕ} (hnow : ∀ call ∈ calls, call.1 ≤ now) :
    Follows sha256 now (lives sha256 calls).1 (lives sha256 calls).2 ∧
      (lives sha256 calls).2.map Entry.token = created calls := by
  induction calls using List.reverseRecOn generalizing now with
  | nil =>
    refine ⟨⟨List.nodup_nil, List.nodup_nil, fun r hr => ?_, fun e he => ?_⟩, rfl⟩
    · cases hr
    · cases he
  | append_singleton calls call ih =>
    obtain ⟨t, call⟩ := call
    have hlives : lives sha256 (calls ++ [(t, call)]) =
        ((lives sha256 calls).1.call sha256 (t, call),
          note sha256 (lives sha256 calls).1 (lives sha256 calls).2 (t, call)) :=
      List.foldl_concat ..
    have hcreated : created (calls ++ [(t, call)]) = created calls ++ created [(t, call)] :=
      List.filterMap_append
    have htimes := hproper.times
    rw [List.map_append, List.pairwise_append] at htimes
    have hdistinct := hproper.distinct
    rw [hcreated, List.nodup_append] at hdistinct
    have hearlier : ∀ c ∈ calls, c.1 ≤ t := fun c hc =>
      htimes.2.2 c.1 (List.mem_map_of_mem hc) t List.mem_cons_self
    obtain ⟨hfollows, htokens⟩ := ih ⟨htimes.1, hdistinct.1⟩ hearlier
    rw [hlives]
    refine ⟨(hfollows.call hinjective fun userId token hcall hold => ?_).later ?_, ?_⟩
    · subst hcall
      rw [htokens] at hold
      exact hdistinct.2.2 token hold token List.mem_cons_self rfl
    · exact hnow (t, call) (List.mem_append_right _ List.mem_cons_self)
    · rw [tokens_note, htokens, hcreated]

/-- **Reset tokens.** -/
theorem validates_iff (hinjective : Function.Injective sha256) {calls : List TimedCall}
    (hproper : Proper calls) {earlier later : List TimedCall} {now : ℕ} {token : String}
    (hcalls : calls = earlier ++ (now, .validateToken token) :: later) (userId : UserId) :
    (validateToken sha256 now token (lives sha256 earlier).1).1 = .ok userId ↔
      ∃ e ∈ (lives sha256 earlier).2, e.token = token ∧ e.userId = userId ∧ e.InForce now := by
  subst hcalls
  have htimes := hproper.times
  rw [List.map_append, List.pairwise_append] at htimes
  have hdistinct := hproper.distinct
  rw [created, List.filterMap_append, List.nodup_append] at hdistinct
  have hbefore : ∀ c ∈ earlier, c.1 ≤ now := fun c hc =>
    htimes.2.2 c.1 (List.mem_map_of_mem hc) now List.mem_cons_self
  exact validateToken_ok_iff hinjective
    (follows_lives hinjective ⟨htimes.1, hdistinct.1⟩ hbefore).1

end Lives

/-- Two tokens of user 7; the second, which has validated once, is presented in
the last millisecond. -/
def twoTokens : List TimedCall :=
  [(0, .createResetToken 7 "first"), (1000, .createResetToken 7 "second"),
    (2000, .validateToken "second"), (3000, .validateToken "first"), (3000, .purgeExpiredTokens)]

theorem validates_iff_second :
    (validateToken id 901000 "second" (lives id twoTokens).1).1 = .ok 7 := by
  refine (validates_iff Function.injective_id
    (show Proper (twoTokens ++ [(901000, .validateToken "second")]) from ⟨?_, ?_⟩) rfl 7).mpr ⟨⟨"second", 7, 1000, false, false, 1⟩, ?_, rfl, rfl, ?_⟩
  · decide
  · decide
  · decide
  · exact ⟨by decide, rfl, rfl, by decide⟩

end ResetTokens

end NexaFx
