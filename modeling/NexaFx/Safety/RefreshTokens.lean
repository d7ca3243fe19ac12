import NexaFx.Model.RefreshTokens

/-!
# NexaFx — refresh-token families

`createToken`, `rotateToken` and `revokeUserTokens` of any users, interleaved
at every repository call. `rotateToken` reads the presented token, checks it,
and saves it with its successor; the save does not look at the row again. The
family discipline

* at most one token of a family is live,
* a token is rotated at most once,
* a family that was logged out has no live token,

holds in every configuration reached as long as no rotation saves over a row
that has changed since it was read (`family_discipline`). Two rotations of one
token, or a logout, between the read and the save break each part
(`families_broken`).
-/

namespace NexaFx

open Async

namespace RefreshTokens

-- ---------------------------------------------------------------------------
-- The property
-- ---------------------------------------------------------------------------

/-- The call `i` rotated `oldToken` successfully. -/
def RotatedBy (cfg : TokenConfig) (i oldToken : ℕ) : Prop :=
  ∃ th issued, cfg.thread i = some th ∧ th.call = .rotateToken oldToken ∧
    th.proc = .done (.ok issued)

structure FamilyDiscipline (cfg : TokenConfig) : Prop where
  live : ∀ familyId, cfg.state.tokens.countP
    (fun r => decide (r.familyId = familyId) && r.live) ≤ 1
  once : ∀ i j oldToken, RotatedBy cfg i oldToken → RotatedBy cfg j oldToken → i = j
  loggedOut : ∀ r ∈ cfg.state.tokens, r.familyId ∈ cfg.state.loggedOut → r.live = false

/-- A rotation saves only over the row as it was read. -/
def unchangedSinceRead :
    Discipline TokenCall TokenCmd TokenCmd.Reply Err TokenDb (Option IssuedToken) where
  onCall _ _ _ := True
  onStep cfg _ c failed := failed = false → ∀ existing at_ newEntity,
    c = .saveRotated existing at_ newEntity → cfg.state.token existing.id = some existing

-- ---------------------------------------------------------------------------
-- The calls, await by await
-- ---------------------------------------------------------------------------

/-- A live row under the identity of the call that makes it. -/
structure Fresh (hash : ℕ → ℕ) (i : ℕ) (r : RefreshToken) : Prop where
  id : r.id = i
  tokenHash : r.tokenHash = hash i
  live : r.live = true
  replacedBy : r.replacedByTokenId = none

/-- What a call writes, and that it ends with it. -/
def Writes (hash : ℕ → ℕ) (i : ℕ) (k : TokenCall) :
    (c : TokenCmd) → (Except Err c.Reply → TokenProc (Option IssuedToken)) → Prop
  | .insert entity, next => Fresh hash i entity ∧ entity.familyId = i ∧
      (∀ a, (next (.ok a)).isDone = true) ∧ ∀ oldToken, k ≠ .rotateToken oldToken
  | .saveRotated existing _ newEntity, next => Fresh hash i newEntity ∧
      newEntity.familyId = existing.familyId ∧ newEntity.userId = existing.userId ∧
      existing.live = true ∧ (∀ a, (next (.ok a)).isDone = true) ∧
      ∀ oldToken, k = .rotateToken oldToken → existing.tokenHash = hash oldToken
  | _, _ => True

/-- A rotation returns only after its save. -/
def ReturnsLast (k : TokenCall) (c : TokenCmd)
    (next : Except Err c.Reply → TokenProc (Option IssuedToken)) : Prop :=
  ∀ oldToken, k = .rotateToken oldToken → ∀ r issued, next r = .done (.ok issued) →
    ∃ existing at_ newEntity, c = .saveRotated existing at_ newEntity ∧ r.isOk = true

def Within (hash : ℕ → ℕ) (i : ℕ) (k : TokenCall) (c : TokenCmd)
    (next : Except Err c.Reply → TokenProc (Option IssuedToken)) : Prop :=
  Writes hash i k c next ∧ ReturnsLast k c next

/-- A row that is found has the hash that was looked for. -/
def FoundByHash : (c : TokenCmd) → c.Reply → Prop
  | .findByHash tokenHash, found => ∀ r, found = some r → r.tokenHash = tokenHash
  | _, _ => True

theorem exec_foundByHash {c : TokenCmd} {db db' : TokenDb} {a : c.Reply}
    (h : exec c db = .ok (a, db')) : FoundByHash c a := by
  cases c with
  | findByHash tokenHash =>
    cases h
    exact fun r hr => tokenHash_of_findByHash hr
  | _ => trivial

theorem returnsLast_of_ne {k : TokenCall} (hk : ∀ oldToken, k ≠ .rotateToken oldToken)
    (c : TokenCmd) (next : Except Err c.Reply → TokenProc (Option IssuedToken)) :
    ReturnsLast k c next :=
  fun oldToken heq => absurd heq (hk oldToken)

section Programs

variable (hash : ℕ → ℕ) (expirySeconds : ℕ) (i : ℕ)

theorem createToken_within (userId : UserId) :
    (prog hash expirySeconds i (.createToken userId)).Always FoundByHash
      (Within hash i (.createToken userId)) := by
  have hk : ∀ oldToken, TokenCall.createToken userId ≠ .rotateToken oldToken := by
    intro oldToken heq
    cases heq
  unfold prog createToken
  simp only [Proc.bind_eq, Proc.bind_assoc, Proc.pure_eq, Proc.done_ok_bind]
  refine Proc.always_call_bind ⟨trivial, returnsLast_of_ne hk _ _⟩ fun t _ => ?_
  refine Proc.always_call_bind ⟨?_, returnsLast_of_ne hk _ _⟩ fun _ _ => .done _
  exact ⟨⟨rfl, rfl, rfl, rfl⟩, rfl, fun _ => rfl, hk⟩

theorem revokeUserTokens_within (userId : UserId) :
    (prog hash expirySeconds i (.revokeUserTokens userId)).Always FoundByHash
      (Within hash i (.revokeUserTokens userId)) := by
  have hk : ∀ oldToken, TokenCall.revokeUserTokens userId ≠ .rotateToken oldToken := by
    intro oldToken heq
    cases heq
  unfold prog revokeUserTokens
  simp only [Proc.bind_eq, Proc.bind_assoc, Proc.pure_eq]
  refine Proc.always_call_bind ⟨trivial, returnsLast_of_ne hk _ _⟩ fun t _ => ?_
  exact Proc.always_call_bind ⟨trivial, returnsLast_of_ne hk _ _⟩ fun _ _ => .done _

theorem tick_within (ms : ℕ) :
    (prog hash expirySeconds i (.tick ms)).Always FoundByHash (Within hash i (.tick ms)) := by
  have hk : ∀ oldToken, TokenCall.tick ms ≠ .rotateToken oldToken := by
    intro oldToken heq
    cases heq
  exact Proc.always_call_bind ⟨trivial, returnsLast_of_ne hk _ _⟩ fun _ _ => .done _

/-- From the row it found on, a rotation is refused or comes to its save. -/
theorem rotateExisting_within {oldToken : ℕ} {existing : RefreshToken}
    (hhash : existing.tokenHash = hash oldToken) :
    ((rotateExisting hash expirySeconds i existing).bind fun issued =>
      Proc.done (.ok (some issued))).Always FoundByHash (Within hash i (.rotateToken oldToken)) := by
  unfold rotateExisting
  simp only [Proc.bind_eq, Proc.bind_assoc, Proc.pure_eq, Proc.done_ok_bind]
  by_cases hrevoked : existing.revokedAt.isSome = true
  · rw [Proc.rejectWhen_pos hrevoked]
    exact .done _
  rw [Proc.rejectWhen_neg hrevoked, Proc.done_ok_bind]
  have hlive : existing.live = true := by simpa [RefreshToken.live] using hrevoked
  refine Proc.always_call_bind ⟨trivial, ?_⟩ fun now _ => ?_
  · intro _ _ r issued hdone
    cases r with
    | error e => cases hdone
    | ok now =>
      by_cases hexpired : existing.expiresAt < now
      · simp only [Proc.done_ok_bind, Proc.rejectWhen_pos hexpired] at hdone
        cases hdone
      · simp only [Proc.done_ok_bind, Proc.rejectWhen_neg hexpired] at hdone
        cases hdone
  by_cases hexpired : existing.expiresAt < now
  · rw [Proc.rejectWhen_pos hexpired]
    exact .done _
  rw [Proc.rejectWhen_neg hexpired, Proc.done_ok_bind]
  refine Proc.always_call_bind ⟨trivial, ?_⟩ fun t _ => ?_
  · intro _ _ r issued hdone
    cases r with
    | error e => cases hdone
    | ok t => cases hdone
  refine Proc.always_call_bind ⟨?_, ?_⟩ fun _ _ => .done _
  · refine ⟨⟨rfl, rfl, rfl, rfl⟩, rfl, rfl, hlive, fun _ => rfl, ?_⟩
    intro oldToken' heq
    cases heq
    exact hhash
  · intro _ _ r issued hdone
    cases r with
    | error e => cases hdone
    | ok _ => exact ⟨_, _, _, rfl, rfl⟩

theorem rotateToken_within (oldToken : ℕ) :
    (prog hash expirySeconds i (.rotateToken oldToken)).Always FoundByHash
      (Within hash i (.rotateToken oldToken)) := by
  unfold prog rotateToken
  simp only [Proc.bind_eq, Proc.bind_assoc, Proc.pure_eq]
  refine Proc.always_call_bind ⟨trivial, ?_⟩ fun found hfound => ?_
  · intro _ _ r issued hdone
    cases r with
    | error e => cases hdone
    | ok found =>
      cases found with
      | none => cases hdone
      | some existing =>
        simp only [Proc.done_ok_bind, rotateExisting, Proc.bind_eq] at hdone
        by_cases hrevoked : existing.revokedAt.isSome = true
        · rw [Proc.rejectWhen_pos hrevoked] at hdone
          cases hdone
        · rw [Proc.rejectWhen_neg hrevoked] at hdone
          cases hdone
  · cases found with
    | none => exact .done _
    | some existing =>
      exact rotateExisting_within hash expirySeconds i (hfound existing rfl)

theorem prog_within (k : TokenCall) :
    (prog hash expirySeconds i k).Always FoundByHash (Within hash i k) := by
  cases k with
  | createToken userId => exact createToken_within hash expirySeconds i userId
  | rotateToken oldToken => exact rotateToken_within hash expirySeconds i oldToken
  | revokeUserTokens userId => exact revokeUserTokens_within hash expirySeconds i userId
  | tick ms => exact tick_within hash expirySeconds i ms

end Programs

-- ---------------------------------------------------------------------------
-- The invariant
-- ---------------------------------------------------------------------------

/-- The rows were made by calls that have ended; a family belongs to one user,
has at most one live row, and none once it was logged out. -/
structure Families (hash : ℕ → ℕ) (ended : ℕ → Prop) (db : TokenDb) : Prop where
  unique : (db.tokens.map RefreshToken.id).Nodup
  made : ∀ r ∈ db.tokens, r.tokenHash = hash r.id ∧ ended r.id ∧ ended r.familyId
  user : ∀ r ∈ db.tokens, ∀ r' ∈ db.tokens, r.familyId = r'.familyId → r.userId = r'.userId
  live : ∀ r ∈ db.tokens, ∀ r' ∈ db.tokens, r.familyId = r'.familyId → r.live = true →
    r'.live = true → r = r'
  replaced : ∀ r ∈ db.tokens, r.replacedByTokenId.isSome = true → r.live = false
  loggedOut : ∀ r ∈ db.tokens, r.familyId ∈ db.loggedOut → r.live = false
  families : ∀ familyId ∈ db.loggedOut, ended familyId

/-- The token was rotated by the call `i`. -/
def ReplacedBy (hash : ℕ → ℕ) (db : TokenDb) (oldToken i : ℕ) : Prop :=
  ∃ r ∈ db.tokens, r.tokenHash = hash oldToken ∧ r.replacedByTokenId = some i

section Steps

variable {hash : ℕ → ℕ} {ended ended' : ℕ → Prop} {db : TokenDb} {i : ℕ}

theorem Families.mono (h : Families hash ended db) (hmono : ∀ j, ended j → ended' j) :
    Families hash ended' db :=
  ⟨h.unique, fun r hr => ⟨(h.made r hr).1, hmono _ (h.made r hr).2.1, hmono _ (h.made r hr).2.2⟩,
    h.user, h.live, h.replaced, h.loggedOut, fun f hf => hmono f (h.families f hf)⟩

/-- A new family. -/
theorem Families.insert (h : Families hash ended db) (hi : ¬ ended i)
    (hmono : ∀ j, ended j → ended' j) (hi' : ended' i) {entity : RefreshToken}
    (hfresh : Fresh hash i entity) (hfamily : entity.familyId = i) :
    Families hash ended' (db.put entity) := by
  have hcases : ∀ r ∈ (db.put entity).tokens, r = entity ∨ r ∈ db.tokens :=
    fun r hr => Table.mem_put _ hr
  -- no stored row is of this family
  have hother : ∀ r ∈ db.tokens, r.familyId ≠ entity.familyId := by
    intro r hr heq
    rw [hfamily] at heq
    exact hi (heq ▸ (h.made r hr).2.2)
  constructor
  case unique => exact Table.nodup_put _ h.unique
  case made =>
    intro r hr
    rcases hcases r hr with rfl | hold
    · rw [hfresh.id, hfamily]
      exact ⟨hfresh.tokenHash, hi', hi'⟩
    · exact ((h.mono hmono).made r hold)
  case user =>
    intro r hr r' hr' hfam
    rcases hcases r hr with rfl | hold
    · rcases hcases r' hr' with rfl | hold'
      · rfl
      · exact absurd hfam.symm (hother r' hold')
    · rcases hcases r' hr' with rfl | hold'
      · exact absurd hfam (hother r hold)
      · exact h.user r hold r' hold' hfam
  case live =>
    intro r hr r' hr' hfam hlive hlive'
    rcases hcases r hr with rfl | hold
    · rcases hcases r' hr' with rfl | hold'
      · rfl
      · exact absurd hfam.symm (hother r' hold')
    · rcases hcases r' hr' with rfl | hold'
      · exact absurd hfam (hother r hold)
      · exact h.live r hold r' hold' hfam hlive hlive'
  case replaced =>
    intro r hr hrep
    rcases hcases r hr with rfl | hold
    · rw [hfresh.replacedBy] at hrep
      cases hrep
    · exact h.replaced r hold hrep
  case loggedOut =>
    intro r hr hout
    rcases hcases r hr with rfl | hold
    · rw [hfamily] at hout
      exact absurd (h.families i hout) hi
    · exact h.loggedOut r hold hout
  case families => exact fun f hf => hmono f (h.families f hf)

/-- A successor in the family of a live row. -/
theorem Families.rotate (h : Families hash ended db)
    (hmono : ∀ j, ended j → ended' j) (hi' : ended' i) {existing newEntity : RefreshToken}
    (hstored : db.token existing.id = some existing) (hlive : existing.live = true)
    (hfresh : Fresh hash i newEntity) (hfamily : newEntity.familyId = existing.familyId)
    (huser : newEntity.userId = existing.userId) (at_ : Time) :
    Families hash ended' ((db.put (existing.replaced at_ newEntity.id)).put newEntity) := by
  have hmem : existing ∈ db.tokens := Table.mem_of_get _ hstored
  obtain ⟨hhash, hended, hendedFamily⟩ := h.made existing hmem
  have hcases : ∀ r ∈ ((db.put (existing.replaced at_ newEntity.id)).put newEntity).tokens,
      r = newEntity ∨ r = existing.replaced at_ newEntity.id ∨
      (r ∈ db.tokens ∧ r.id ≠ existing.id) := by
    intro r hr
    rcases Table.mem_put _ hr with rfl | hr
    · exact Or.inl rfl
    · rcases Table.mem_put_cases _ h.unique hr with rfl | hold
      · exact Or.inr (Or.inl rfl)
      · exact Or.inr (Or.inr hold)
  -- of the rows that stay, none is live in this family
  have hrest : ∀ r ∈ db.tokens, r.id ≠ existing.id → r.familyId = existing.familyId →
      r.live = false := by
    intro r hr hid hfam
    by_contra hr'
    rw [Bool.not_eq_false] at hr'
    exact hid (congrArg RefreshToken.id (h.live r hr existing hmem hfam hr' hlive))
  -- every row of the family is the user's
  have hsame : ∀ r ∈ ((db.put (existing.replaced at_ newEntity.id)).put newEntity).tokens,
      r.familyId = existing.familyId → r.userId = existing.userId := by
    intro r hr hfam
    rcases hcases r hr with rfl | rfl | ⟨hold, -⟩
    · exact huser
    · rfl
    · exact h.user r hold existing hmem hfam
  constructor
  case unique => exact Table.nodup_put _ (Table.nodup_put _ h.unique)
  case made =>
    intro r hr
    rcases hcases r hr with rfl | rfl | ⟨hold, -⟩
    · rw [hfresh.id, hfamily]
      exact ⟨hfresh.tokenHash, hi', hmono _ hendedFamily⟩
    · exact ⟨hhash, hmono _ hended, hmono _ hendedFamily⟩
    · exact (h.mono hmono).made r hold
  case user =>
    intro r hr r' hr' hfam
    by_cases hthis : r.familyId = existing.familyId
    · rw [hsame r hr hthis, hsame r' hr' (hfam ▸ hthis)]
    · rcases hcases r hr with rfl | rfl | ⟨hold, -⟩
      · exact absurd hfamily hthis
      · exact absurd rfl hthis
      · rcases hcases r' hr' with rfl | rfl | ⟨hold', -⟩
        · exact absurd (hfam.trans hfamily) hthis
        · exact absurd hfam hthis
        · exact h.user r hold r' hold' hfam
  case live =>
    intro r hr r' hr' hfam hl hl'
    rcases hcases r hr with rfl | rfl | ⟨hold, hid⟩
    · rcases hcases r' hr' with rfl | rfl | ⟨hold', hid'⟩
      · rfl
      · cases hl'
      · rw [hrest r' hold' hid' (hfam.symm.trans hfamily)] at hl'
        cases hl'
    · cases hl
    · rcases hcases r' hr' with rfl | rfl | ⟨hold', hid'⟩
      · rw [hrest r hold hid (hfam.trans hfamily)] at hl
        cases hl
      · cases hl'
      · exact h.live r hold r' hold' hfam hl hl'
  case replaced =>
    intro r hr hrep
    rcases hcases r hr with rfl | rfl | ⟨hold, -⟩
    · rw [hfresh.replacedBy] at hrep
      cases hrep
    · rfl
    · exact h.replaced r hold hrep
  case loggedOut =>
    intro r hr hout
    rcases hcases r hr with rfl | rfl | ⟨hold, -⟩
    · rw [hfamily] at hout
      have hdead := h.loggedOut existing hmem hout
      rw [hlive] at hdead
      cases hdead
    · rfl
    · exact h.loggedOut r hold hout
  case families => exact fun f hf => hmono f (h.families f hf)

/-- A row after `revokeUserTokens`. -/
theorem mem_revoke {userId : UserId} {at_ : Time} {r : RefreshToken}
    (hr : r ∈ (db.revoke userId at_).tokens) :
    ∃ x ∈ db.tokens, r.id = x.id ∧ r.userId = x.userId ∧ r.familyId = x.familyId ∧
      r.tokenHash = x.tokenHash ∧ r.replacedByTokenId = x.replacedByTokenId ∧
      (r.live = true → r = x ∧ x.userId ≠ userId) := by
  obtain ⟨x, hx, hrx⟩ := List.mem_map.mp hr
  refine ⟨x, hx, ?_⟩
  split at hrx
  · subst hrx
    refine ⟨rfl, rfl, rfl, rfl, rfl, ?_⟩
    intro hlive
    cases hlive
  · rename_i hne
    subst hrx
    exact ⟨rfl, rfl, rfl, rfl, rfl, fun _ => ⟨rfl, hne⟩⟩

theorem Families.revoke (h : Families hash ended db) (hmono : ∀ j, ended j → ended' j)
    (userId : UserId) (at_ : Time) : Families hash ended' (db.revoke userId at_) := by
  have hids : (db.revoke userId at_).tokens.map RefreshToken.id =
      db.tokens.map RefreshToken.id := by
    rw [TokenDb.revoke, List.map_map]
    apply List.map_congr_left
    intro r _
    show (if r.userId = userId then { r with revokedAt := some at_ } else r).id = r.id
    split <;> rfl
  constructor
  case unique =>
    rw [hids]
    exact h.unique
  case made =>
    intro r hr
    obtain ⟨x, hx, hid, -, hfam, hhash, -, -⟩ := mem_revoke hr
    rw [hid, hfam, hhash]
    exact (h.mono hmono).made x hx
  case user =>
    intro r hr r' hr' hfam
    obtain ⟨x, hx, -, huser, hxfam, -, -, -⟩ := mem_revoke hr
    obtain ⟨x', hx', -, huser', hxfam', -, -, -⟩ := mem_revoke hr'
    rw [huser, huser']
    exact h.user x hx x' hx' (by rw [← hxfam, ← hxfam', hfam])
  case live =>
    intro r hr r' hr' hfam hl hl'
    obtain ⟨x, hx, -, -, -, -, -, hlive⟩ := mem_revoke hr
    obtain ⟨x', hx', -, -, -, -, -, hlive'⟩ := mem_revoke hr'
    obtain ⟨rfl, -⟩ := hlive hl
    obtain ⟨rfl, -⟩ := hlive' hl'
    exact h.live r hx r' hx' hfam hl hl'
  case replaced =>
    intro r hr hrep
    obtain ⟨x, hx, -, -, -, -, hxrep, hlive⟩ := mem_revoke hr
    rw [hxrep] at hrep
    by_contra hl
    rw [Bool.not_eq_false] at hl
    obtain ⟨rfl, -⟩ := hlive hl
    rw [h.replaced r hx hrep] at hl
    cases hl
  case loggedOut =>
    intro r hr hout
    obtain ⟨x, hx, -, -, hxfam, -, -, hlive⟩ := mem_revoke hr
    by_contra hl
    rw [Bool.not_eq_false] at hl
    obtain ⟨rfl, hother⟩ := hlive hl
    rcases List.mem_append.mp hout with hold | hnew
    · rw [h.loggedOut r hx hold] at hl
      cases hl
    · -- the family is one of the user's, and so is the row
      obtain ⟨y, hy, hyfam⟩ := List.mem_map.mp hnew
      obtain ⟨hymem, hyuser⟩ := List.mem_filter.mp hy
      rw [h.user r hx y hymem hyfam.symm] at hother
      exact hother (of_decide_eq_true hyuser)
  case families =>
    intro f hf
    rcases List.mem_append.mp hf with hold | hnew
    · exact hmono f (h.families f hold)
    · obtain ⟨y, hy, rfl⟩ := List.mem_map.mp hnew
      exact hmono _ (h.made y (List.mem_of_mem_filter hy)).2.2

-- A token that was rotated stays so.

theorem ReplacedBy.insert (h : Families hash ended db) (hi : ¬ ended i) {entity : RefreshToken}
    (hid : entity.id = i) {oldToken j : ℕ} (hrep : ReplacedBy hash db oldToken j) :
    ReplacedBy hash (db.put entity) oldToken j := by
  obtain ⟨r, hr, hhash, hby⟩ := hrep
  have hne : r.id ≠ entity.id := by
    intro heq
    rw [hid] at heq
    exact hi (heq ▸ (h.made r hr).2.1)
  exact ⟨r, Table.mem_put_of_ne _ hr hne, hhash, hby⟩

theorem ReplacedBy.rotate (h : Families hash ended db) (hi : ¬ ended i)
    {existing newEntity : RefreshToken} (hstored : db.token existing.id = some existing)
    (hlive : existing.live = true) (hid : newEntity.id = i) (at_ : Time) {oldToken j : ℕ}
    (hrep : ReplacedBy hash db oldToken j) :
    ReplacedBy hash ((db.put (existing.replaced at_ newEntity.id)).put newEntity) oldToken j := by
  obtain ⟨r, hr, hhash, hby⟩ := hrep
  -- a replaced row is not the live one that is rotated now
  have hother : r.id ≠ existing.id := by
    intro heq
    have hget := Table.get_of_mem RefreshToken.id h.unique hr
    rw [heq] at hget
    obtain rfl : existing = r := Option.some.inj (hstored.symm.trans hget)
    have hdead := h.replaced existing hr (by rw [hby]; rfl)
    rw [hlive] at hdead
    cases hdead
  have hne : r.id ≠ newEntity.id := by
    intro heq
    rw [hid] at heq
    exact hi (heq ▸ (h.made r hr).2.1)
  exact ⟨r, Table.mem_put_of_ne _ (Table.mem_put_of_ne _ hr hother) hne, hhash, hby⟩

theorem ReplacedBy.revoke {oldToken j : ℕ} (hrep : ReplacedBy hash db oldToken j)
    (userId : UserId) (at_ : Time) : ReplacedBy hash (db.revoke userId at_) oldToken j := by
  obtain ⟨r, hr, hhash, hby⟩ := hrep
  refine ⟨_, List.mem_map_of_mem hr, ?_⟩
  split
  · exact ⟨hhash, hby⟩
  · exact ⟨hhash, hby⟩

/-- The rotation itself. -/
theorem replacedBy_saveRotated {existing newEntity : RefreshToken} {oldToken : ℕ}
    (hhash : existing.tokenHash = hash oldToken) (hid : newEntity.id = i)
    (hne : existing.id ≠ i) (at_ : Time) :
    ReplacedBy hash ((db.put (existing.replaced at_ newEntity.id)).put newEntity) oldToken i := by
  refine ⟨existing.replaced at_ newEntity.id, ?_, hhash, congrArg some hid⟩
  refine Table.mem_put_of_ne _ (Table.mem_put_self ..) ?_
  intro heq
  exact hne (heq.trans hid)

end Steps

-- ---------------------------------------------------------------------------
-- Every interleaving
-- ---------------------------------------------------------------------------

/-- The rows are in order, and a rotation that returned is on record. -/
structure InOrder (hash : ℕ → ℕ) (cfg : TokenConfig) : Prop where
  families : Families hash (fun j => cfg.ended j = true) cfg.state
  rotated : ∀ i oldToken, RotatedBy cfg i oldToken → ReplacedBy hash cfg.state oldToken i

section Interleavings

variable {hash : ℕ → ℕ} {expirySeconds : ℕ} {cfg : TokenConfig} {i : ℕ}

theorem InOrder.spawn (h : InOrder hash cfg) (hfresh : cfg.thread i = none) (k : TokenCall) :
    InOrder hash (cfg.spawn i k (prog hash expirySeconds i k)) := by
  constructor
  · exact h.families.mono fun j hj => Config.ended_spawn hfresh _ _ hj
  · rintro j oldToken ⟨th, issued, hth, hcall, hdone⟩
    rcases Config.thread_spawn_cases hth with ⟨rfl, rfl⟩ | hold
    · -- a rotation that has not begun has not returned
      have hk : k = .rotateToken oldToken := hcall
      subst hk
      cases hdone
    · exact h.rotated j oldToken ⟨th, issued, hold, hcall, hdone⟩

/-- A rotation on record after a step was so before, or it is the one that has
just saved. -/
theorem rotatedBy_resume {th : Thread TokenCall TokenCmd TokenCmd.Reply Err (Option IssuedToken)}
    {c : TokenCmd} {next : Except Err c.Reply → TokenProc (Option IssuedToken)}
    (hth : cfg.thread i = some th) (hlast : ReturnsLast th.call c next)
    {r : Except Err (c.Reply × TokenDb)} {j oldToken : ℕ}
    (hrot : RotatedBy (cfg.resume th next r) j oldToken) :
    RotatedBy cfg j oldToken ∨ (j = i ∧ th.call = .rotateToken oldToken ∧
      ∃ existing at_ newEntity, c = .saveRotated existing at_ newEntity ∧
        ∃ a s', r = .ok (a, s')) := by
  obtain ⟨th', issued, hth', hcall, hdone⟩ := hrot
  rcases Config.thread_resume_cases hth hth' with ⟨rfl, rfl⟩ | hold
  · obtain ⟨existing, at_, newEntity, hc, hok⟩ := hlast oldToken hcall _ _ hdone
    refine Or.inr ⟨rfl, hcall, existing, at_, newEntity, hc, ?_⟩
    cases r with
    | error e => cases hok
    | ok r => exact ⟨r.1, r.2, rfl⟩
  · exact Or.inl ⟨th', issued, hold, hcall, hdone⟩

/-- A step that writes nothing. -/
theorem InOrder.idle {th : Thread TokenCall TokenCmd TokenCmd.Reply Err (Option IssuedToken)}
    {c : TokenCmd} {next : Except Err c.Reply → TokenProc (Option IssuedToken)}
    (h : InOrder hash cfg) (hth : cfg.thread i = some th) (hproc : th.proc = .await c next)
    (hlast : ReturnsLast th.call c next) {r : Except Err (c.Reply × TokenDb)}
    (htokens : (after r cfg.state).tokens = cfg.state.tokens)
    (hout : (after r cfg.state).loggedOut = cfg.state.loggedOut)
    (hnosave : ∀ existing at_ newEntity, c = .saveRotated existing at_ newEntity →
      ∀ a s', r ≠ .ok (a, s')) :
    InOrder hash (cfg.resume th next r) := by
  have hmono := h.families.mono fun j hj => Config.ended_resume hth hproc r hj
  constructor
  · rw [Config.resume_state]
    constructor
    case unique => rw [htokens]; exact hmono.unique
    case made => rw [htokens]; exact hmono.made
    case user => rw [htokens]; exact hmono.user
    case live => rw [htokens]; exact hmono.live
    case replaced => rw [htokens]; exact hmono.replaced
    case loggedOut => rw [htokens, hout]; exact hmono.loggedOut
    case families => rw [hout]; exact hmono.families
  · intro j oldToken hrot
    rcases rotatedBy_resume hth hlast hrot with hold | ⟨-, -, e, t, n, hc, a, s', hr⟩
    · obtain ⟨row, hrow, hrest⟩ := h.rotated j oldToken hold
      refine ⟨row, ?_, hrest⟩
      rw [Config.resume_state, htokens]
      exact hrow
    · exact absurd hr (hnosave e t n hc a s')

/-- A step that is carried out. -/
theorem InOrder.step {th : Thread TokenCall TokenCmd TokenCmd.Reply Err (Option IssuedToken)}
    {c : TokenCmd} {next : Except Err c.Reply → TokenProc (Option IssuedToken)}
    {a : c.Reply} {s' : TokenDb} (h : InOrder hash cfg) (hth : cfg.thread i = some th)
    (hproc : th.proc = .await c next) (hwithin : Within hash i th.call c next)
    (hD : unchangedSinceRead.onStep cfg th c false) (hexec : exec c cfg.state = .ok (a, s')) :
    InOrder hash (cfg.resume th next (.ok (a, s'))) := by
  obtain ⟨hwrites, hlast⟩ := hwithin
  have hmono : ∀ j, cfg.ended j = true →
      (cfg.resume th next (.ok (a, s'))).ended j = true :=
    fun j hj => Config.ended_resume hth hproc _ hj
  have hi : ¬ cfg.ended i = true := by
    rw [Config.ended_of_await hth hproc]
    exact Bool.false_ne_true
  -- a call that writes a row ends with it
  have hends : (∀ a, (next (.ok a)).isDone = true) →
      (cfg.resume th next (.ok (a, s'))).ended i = true := by
    intro hdone
    rw [Config.ended_resume_self hth]
    exact hdone a
  cases c with
  | findByHash tokenHash =>
    cases hexec
    exact h.idle hth hproc hlast rfl rfl (fun _ _ _ hc => by cases hc)
  | now =>
    cases hexec
    exact h.idle hth hproc hlast rfl rfl (fun _ _ _ hc => by cases hc)
  | tick ms =>
    cases hexec
    exact h.idle hth hproc hlast rfl rfl (fun _ _ _ hc => by cases hc)
  | insert entity =>
    obtain ⟨hfresh, hfamily, hdone, hk⟩ := hwrites
    have hs' := exec_insert hexec
    subst hs'
    constructor
    · exact h.families.insert hi hmono (hends hdone) hfresh hfamily
    · intro j oldToken hrot
      rcases rotatedBy_resume hth hlast hrot with hold | ⟨-, hcall, -⟩
      · exact (h.rotated j oldToken hold).insert h.families hi hfresh.id
      · exact absurd hcall (hk oldToken)
  | saveRotated existing at_ newEntity =>
    obtain ⟨hfresh, hfamily, huser, hlive, hdone, hhash⟩ := hwrites
    have hstored := hD rfl existing at_ newEntity rfl
    have hs' := exec_saveRotated hexec
    subst hs'
    constructor
    · exact h.families.rotate hmono (hends hdone) hstored hlive hfresh hfamily huser at_
    · intro j oldToken hrot
      rcases rotatedBy_resume hth hlast hrot with hold | ⟨rfl, hcall, -⟩
      · exact (h.rotated j oldToken hold).rotate h.families hi hstored hlive hfresh.id at_
      · have hne : existing.id ≠ j := by
          intro heq
          exact hi (heq ▸ (h.families.made existing (Table.mem_of_get _ hstored)).2.1)
        exact replacedBy_saveRotated (hhash oldToken hcall) hfresh.id hne at_
  | revoke userId at_ =>
    cases hexec
    constructor
    · exact h.families.revoke hmono userId at_
    · intro j oldToken hrot
      rcases rotatedBy_resume hth hlast hrot with hold | ⟨-, -, _, _, _, hc, -⟩
      · exact (h.rotated j oldToken hold).revoke userId at_
      · cases hc

theorem inOrder_of_reach {now : Time}
    (h : Reach (server hash expirySeconds) unchangedSinceRead (start now) cfg) :
    InOrder hash cfg := by
  refine (Reach.invariant_always (I := InOrder hash) (G := FoundByHash) (Q := Within hash)
    ?init rfl (prog_within hash expirySeconds) ?call ?step h).1
  case init =>
    constructor
    · exact ⟨List.nodup_nil, fun r hr => (List.not_mem_nil hr).elim,
        fun r hr => (List.not_mem_nil hr).elim, fun r hr => (List.not_mem_nil hr).elim,
        fun r hr => (List.not_mem_nil hr).elim, fun r hr => (List.not_mem_nil hr).elim,
        fun f hf => (List.not_mem_nil hf).elim⟩
    · rintro i oldToken ⟨th, issued, hth, -⟩
      cases hth
  case call =>
    intro cfg i k hI hfresh _
    exact hI.spawn hfresh k
  case step =>
    intro cfg i fault th c next hI hth hproc hwithin hD
    cases hout : outcome fault ((server hash expirySeconds).exec c cfg.state) with
    | error e =>
      refine ⟨?_, fun a s' hok => by cases hok⟩
      exact hI.idle hth hproc hwithin.2 rfl rfl (fun _ _ _ _ _ _ hok => by cases hok)
    | ok r =>
      obtain ⟨a, s'⟩ := r
      have hexec : exec c cfg.state = .ok (a, s') := (outcome_eq_ok hout).2
      rw [hout] at hD
      refine ⟨hI.step hth hproc hwithin hD hexec, ?_⟩
      intro a' s'' hok
      cases hok
      exact exec_foundByHash hexec

/-- At most one row of a family is live. -/
theorem countP_live_le_one {ended : ℕ → Prop} {db : TokenDb} (h : Families hash ended db)
    (familyId : ℕ) :
    db.tokens.countP (fun r => decide (r.familyId = familyId) && r.live) ≤ 1 := by
  have hnodup : (db.tokens.filter
      (fun r => decide (r.familyId = familyId) && r.live)).Nodup :=
    (List.Nodup.of_map _ h.unique).filter _
  rw [List.countP_eq_length_filter]
  match hrows : db.tokens.filter (fun r => decide (r.familyId = familyId) && r.live) with
  | [] => simp [hrows]
  | [r] => simp [hrows]
  | r :: r' :: rows =>
    have hr : r ∈ db.tokens.filter (fun r => decide (r.familyId = familyId) && r.live) := by
      simp [hrows]
    have hr' : r' ∈ db.tokens.filter (fun r => decide (r.familyId = familyId) && r.live) := by
      simp [hrows]
    simp only [List.mem_filter, Bool.and_eq_true, decide_eq_true_eq] at hr hr'
    have heq := h.live r hr.1 r' hr'.1 (hr.2.1.trans hr'.2.1.symm) hr.2.2 hr'.2.2
    rw [hrows, heq] at hnodup
    simp at hnodup

end Interleavings

/-- **Family discipline.** Every interleaving in which no rotation saves over a
row that has changed since it was read. -/
theorem family_discipline {hash : ℕ → ℕ} (hinj : Function.Injective hash) {expirySeconds : ℕ}
    {now : Time} {cfg : TokenConfig}
    (h : Reach (server hash expirySeconds) unchangedSinceRead (start now) cfg) :
    FamilyDiscipline cfg := by
  have hI := inOrder_of_reach h
  constructor
  case live => exact countP_live_le_one hI.families
  case once =>
    intro i j oldToken hrotI hrotJ
    obtain ⟨r, hr, hhash, hby⟩ := hI.rotated i oldToken hrotI
    obtain ⟨r', hr', hhash', hby'⟩ := hI.rotated j oldToken hrotJ
    -- one row has that hash
    have hid : r.id = r'.id := by
      apply hinj
      rw [← (hI.families.made r hr).1, ← (hI.families.made r' hr').1, hhash, hhash']
    have hget := Table.get_of_mem RefreshToken.id hI.families.unique hr
    rw [hid, Table.get_of_mem RefreshToken.id hI.families.unique hr'] at hget
    cases hget
    exact Option.some.inj (hby.symm.trans hby')
  case loggedOut => exact hI.families.loggedOut

/-- A token is issued and rotated; its successor is rotated after a replay of
the first was refused; then the user logs out. -/
def rotatedTwice : List (Event TokenCall Err) :=
  [.call 0 (.createToken 1), .step 0 none, .step 0 none,
    .call 1 (.rotateToken 0), .step 1 none, .step 1 none, .step 1 none, .step 1 none,
    .call 2 (.rotateToken 0), .step 2 none,
    .call 3 (.rotateToken 1), .step 3 none, .step 3 none, .step 3 none, .step 3 none,
    .call 4 (.revokeUserTokens 1), .step 4 none, .step 4 none]

/-- The condition, as a check on a schedule. -/
def savesUnchanged (cfg : TokenConfig) : TokenCmd → Bool
  | .saveRotated existing _ _ => decide (cfg.state.token existing.id = some existing)
  | _ => true

theorem family_discipline_rotated_twice :
    ∃ cfg, Function.Injective (id : ℕ → ℕ) ∧
      Reach (server id 3600) unchangedSinceRead (start 0) cfg ∧ FamilyDiscipline cfg ∧
      cfg.state.tokens.map (fun r => (r.id, r.replacedByTokenId, r.live)) =
        [(0, some 1, false), (1, some 3, false), (3, none, false)] := by
  have hrun : (((server id 3600).runChecked (fun cfg _ c _ => savesUnchanged cfg c) (start 0)
      rotatedTwice).map fun cfg =>
        cfg.state.tokens.map (fun r => (r.id, r.replacedByTokenId, r.live))) =
      some [(0, some 1, false), (1, some 3, false), (3, none, false)] := by decide +kernel
  obtain ⟨cfg, hcfg, htokens⟩ := Option.map_eq_some_iff.mp hrun
  have hreach : Reach (server id 3600) unchangedSinceRead (start 0) cfg := by
    refine Reach.of_runChecked .refl (fun _ _ _ _ => trivial) ?_ hcfg
    intro cfg th c b hcheck _ existing at_ newEntity hc
    subst hc
    exact of_decide_eq_true hcheck
  exact ⟨cfg, Function.injective_id, hreach,
    family_discipline Function.injective_id hreach, htokens⟩

/-- Two rotations of one token that both read it before either saves. -/
def rotatedAtOnce : List (Event TokenCall Err) :=
  [.call 0 (.createToken 1), .step 0 none, .step 0 none,
    .call 1 (.rotateToken 0), .call 2 (.rotateToken 0), .step 1 none, .step 2 none,
    .step 1 none, .step 1 none, .step 1 none, .step 2 none, .step 2 none, .step 2 none]

/-- A logout between the read and the save of a rotation. -/
def loggedOutMeanwhile : List (Event TokenCall Err) :=
  [.call 0 (.createToken 1), .step 0 none, .step 0 none,
    .call 1 (.rotateToken 0), .step 1 none,
    .call 2 (.revokeUserTokens 1), .step 2 none, .step 2 none,
    .step 1 none, .step 1 none, .step 1 none]

/-- The first leaves two live tokens of one family, and one token rotated
twice; the second a live token of a family that was logged out. -/
theorem families_broken :
    (∃ cfg, Reach (server id 3600) .free (start 0) cfg ∧ ¬ FamilyDiscipline cfg ∧
      cfg.state.tokens.countP (fun r => decide (r.familyId = 0) && r.live) = 2 ∧
      RotatedBy cfg 1 0 ∧ RotatedBy cfg 2 0) ∧
    ∃ cfg, Reach (server id 3600) .free (start 0) cfg ∧ ¬ FamilyDiscipline cfg ∧
      ∃ r ∈ cfg.state.tokens, r.familyId ∈ cfg.state.loggedOut ∧ r.live = true := by
  constructor
  · have hfirst : RotatedBy ((server id 3600).play (start 0) rotatedAtOnce) 1 0 :=
      ⟨_, some ⟨1, 3600000⟩, rfl, rfl, rfl⟩
    have hsecond : RotatedBy ((server id 3600).play (start 0) rotatedAtOnce) 2 0 :=
      ⟨_, some ⟨2, 3600000⟩, rfl, rfl, rfl⟩
    refine ⟨(server id 3600).play (start 0) rotatedAtOnce, Reach.refl.play _, ?_,
      by decide +kernel, hfirst, hsecond⟩
    intro h
    have heq := h.once 1 2 0 hfirst hsecond
    omega
  · have hlive : ∃ r ∈ ((server id 3600).play (start 0) loggedOutMeanwhile).state.tokens,
        r.familyId ∈ ((server id 3600).play (start 0) loggedOutMeanwhile).state.loggedOut ∧
        r.live = true := by decide +kernel
    refine ⟨(server id 3600).play (start 0) loggedOutMeanwhile, Reach.refl.play _, ?_, hlive⟩
    intro h
    obtain ⟨r, hr, hout, hl⟩ := hlive
    rw [h.loggedOut r hr hout] at hl
    cases hl

end RefreshTokens

end NexaFx
