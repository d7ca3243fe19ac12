import NexaFx.Model.ApiKeys

/-!
# NexaFx — revoked API keys

`createApiKey`, `revokeApiKey` and `validateApiKey` calls, interleaved at every
repository call. To record the use of a key, `validateApiKey` saves the whole
row as it read it, `isActive` included.

A revocation is final in every run in which a validation saves only over a row
that is still active (`revocation_final`). A validation that has read the row
before the revocation and saves it afterwards brings the key back
(`key_revived`).
-/

namespace NexaFx

open Async

namespace ApiKeys

-- ---------------------------------------------------------------------------
-- The property
-- ---------------------------------------------------------------------------

/-- The call `j` revoked the key of the row `revoked`. -/
def RevokedBy (cfg : KeyConfig) (j : ℕ) (revoked : ApiKey) : Prop :=
  ∃ th id userId, cfg.thread j = some th ∧ th.call = .revokeApiKey id userId ∧
    th.proc = .done (.ok (some revoked))

/-- The call `i` validated `key`. -/
def Validated (cfg : KeyConfig) (i key : ℕ) : Prop :=
  ∃ th apiKey, cfg.thread i = some th ∧ th.call = .validateApiKey key ∧
    th.proc = .done (.ok (some apiKey))

/-- A key that was revoked by the time of `cfg₀` is not validated by a call made
after that. -/
def RevocationFinal (hashKey : ℕ → ℕ) (cfg₀ cfg : KeyConfig) : Prop :=
  ∀ j revoked i key, RevokedBy cfg₀ j revoked → hashKey key = revoked.keyHash →
    cfg₀.thread i = none → ¬ Validated cfg i key

/-- A validation saves only over a row that is still active. -/
def savesActive : Discipline KeyCall KeyCmd KeyCmd.Reply Err KeyDb (Option ApiKey) where
  onCall _ _ _ := True
  onStep cfg _ c failed := failed = false → ∀ apiKey lastUsedAt, c = .saveUsed apiKey lastUsedAt →
    ∀ row, cfg.state.key apiKey.id = some row → row.isActive = true

-- ---------------------------------------------------------------------------
-- The table
-- ---------------------------------------------------------------------------

/-- Rows are named by keys of their own. -/
structure Keyed (hashKey : ℕ → ℕ) (db : KeyDb) : Prop where
  ids : (db.keys.map ApiKey.id).Nodup
  hashed : ∀ r ∈ db.keys, r.keyHash = hashKey r.id
  unique : ∀ r ∈ db.keys, ∀ r' ∈ db.keys, r.keyHash = r'.keyHash → r = r'

/-- The row is stored and inactive. -/
def Inactive (id : ℕ) (db : KeyDb) : Prop := ∃ row, db.key id = some row ∧ row.isActive = false

/-- What a command saves carries the key of its row. -/
def SavesKeyed (hashKey : ℕ → ℕ) : KeyCmd → Prop
  | .insert apiKey => apiKey.keyHash = hashKey apiKey.id
  | .saveRevoked apiKey => apiKey.keyHash = hashKey apiKey.id
  | .saveUsed apiKey _ => apiKey.keyHash = hashKey apiKey.id
  | _ => True

/-- What a lookup finds carries the key of its row. -/
def FindsKeyed (hashKey : ℕ → ℕ) : (c : KeyCmd) → c.Reply → Prop
  | .findOwned id _, found => ∀ r, found = some r → r.id = id ∧ r.keyHash = hashKey r.id
  | .findActive _, found => ∀ r, found = some r → r.keyHash = hashKey r.id
  | _, _ => True

section Table

variable {hashKey : ℕ → ℕ} {db db' : KeyDb} {apiKey : ApiKey} {id : ℕ}

theorem Keyed.put (h : Keyed hashKey db) (hkey : apiKey.keyHash = hashKey apiKey.id)
    (hunique : db.violatesUnique apiKey = false) : Keyed hashKey (db.put apiKey) := by
  have hnone : ∀ r ∈ db.keys, r.keyHash = apiKey.keyHash → r.id = apiKey.id := by
    intro r hr heq
    unfold KeyDb.violatesUnique at hunique
    rw [List.any_eq_false] at hunique
    have hr' := hunique r hr
    simp only [heq, and_true, decide_eq_true_eq, not_not] at hr'
    exact hr'
  refine ⟨Table.nodup_put _ h.ids, fun r hr => ?_, fun r hr r' hr' heq => ?_⟩
  · rcases Table.mem_put _ hr with rfl | hold
    · exact hkey
    · exact h.hashed r hold
  · rcases Table.mem_put_cases _ h.ids hr with rfl | ⟨hold, hne⟩
    · rcases Table.mem_put_cases _ h.ids hr' with rfl | ⟨hold', hne'⟩
      · rfl
      · exact absurd (hnone r' hold' heq.symm) hne'
    · rcases Table.mem_put_cases _ h.ids hr' with rfl | ⟨hold', _⟩
      · exact absurd (hnone r hold heq) hne
      · exact h.unique r hold r' hold' heq

/-- What is stored under a key is the row of that key. -/
theorem Inactive.not_active (h : Inactive id db) (hkeyed : Keyed hashKey db) :
    db.findActive (hashKey id) = none := by
  obtain ⟨row, hrow, hinactive⟩ := h
  unfold KeyDb.findActive
  rw [List.find?_eq_none]
  intro r hr
  rw [decide_eq_true_eq]
  rintro ⟨hhash, hactive⟩
  have hid : row.id = id := Table.key_of_get _ hrow
  have hmem : row ∈ db.keys := Table.mem_of_get _ hrow
  have hsame : r = row := by
    refine hkeyed.unique r hr row hmem ?_
    rw [hhash, hkeyed.hashed row hmem, hid]
  rw [hsame, hinactive] at hactive
  cases hactive

/-- **One command.** The table stays keyed, lookups find keyed rows, and an
inactive row stays inactive unless a use is saved over it. -/
theorem keyed_step (id : ℕ) {c : KeyCmd} {a : c.Reply} (hkeyed : Keyed hashKey db)
    (hc : SavesKeyed hashKey c) (h : exec c db = .ok (a, db')) :
    Keyed hashKey db' ∧ FindsKeyed hashKey c a ∧
    ((∀ apiKey t, c = .saveUsed apiKey t → ∀ row, db.key apiKey.id = some row →
      row.isActive = true) → Inactive id db → Inactive id db') := by
  cases c with
  | insert apiKey =>
    rw [exec] at h
    split at h
    · cases h
    · rename_i hinsert
      cases h
      obtain ⟨hnew, hunique, rfl⟩ := insert_ok hinsert
      refine ⟨hkeyed.put hc hunique, trivial, fun _ => ?_⟩
      rintro ⟨row, hrow, hinactive⟩
      refine ⟨row, ?_, hinactive⟩
      rw [key_put, if_neg, hrow]
      rintro rfl
      rw [hnew] at hrow
      cases hrow
  | saveRevoked apiKey =>
    rw [exec] at h
    split at h
    · cases h
    · rename_i hsave
      cases h
      obtain ⟨hunique, rfl⟩ := save_ok hsave
      refine ⟨hkeyed.put hc hunique, trivial, fun _ => ?_⟩
      rintro ⟨row, hrow, hinactive⟩
      unfold Inactive
      rw [key_put]
      split
      · exact ⟨apiKey.revoked, rfl, rfl⟩
      · exact ⟨row, hrow, hinactive⟩
  | saveUsed apiKey t =>
    rw [exec] at h
    split at h
    · cases h
    · rename_i hsave
      cases h
      obtain ⟨hunique, rfl⟩ := save_ok hsave
      refine ⟨hkeyed.put hc hunique, trivial, fun hactive => ?_⟩
      rintro ⟨row, hrow, hinactive⟩
      refine ⟨row, ?_, hinactive⟩
      rw [key_put, if_neg, hrow]
      rintro hid
      have hid : apiKey.id = id := hid
      rw [hactive apiKey t rfl row (hid ▸ hrow)] at hinactive
      cases hinactive
  | findOwned rowId userId =>
    cases h
    refine ⟨hkeyed, fun r hr => ?_, fun _ h => h⟩
    have hfound := List.find?_some hr
    rw [decide_eq_true_eq] at hfound
    exact ⟨hfound.1, hkeyed.hashed r (List.mem_of_find?_eq_some hr)⟩
  | findActive keyHash =>
    cases h
    exact ⟨hkeyed, fun r hr => hkeyed.hashed r (List.mem_of_find?_eq_some hr), fun _ h => h⟩
  | findByName userId name =>
    cases h
    exact ⟨hkeyed, trivial, fun _ h => h⟩
  | now =>
    cases h
    exact ⟨hkeyed, trivial, fun _ h => h⟩
  | tick ms =>
    cases h
    exact ⟨⟨hkeyed.ids, hkeyed.hashed, hkeyed.unique⟩, trivial, fun _ h => h⟩

end Table

-- ---------------------------------------------------------------------------
-- The calls, await by await
-- ---------------------------------------------------------------------------

/-- A call saves keyed rows, and a revocation returns right after its save. -/
structure Within (hashKey : ℕ → ℕ) (k : KeyCall) (c : KeyCmd)
    (next : Except Err c.Reply → KeyProc (Option ApiKey)) : Prop where
  keyed : SavesKeyed hashKey c
  last : ∀ id userId, k = .revokeApiKey id userId → ∀ r revoked,
    next r = .done (.ok (some revoked)) → r.isOk = true ∧
      ∃ apiKey, c = .saveRevoked apiKey ∧ revoked = apiKey.revoked ∧ apiKey.id = id

section Programs

variable (hashKey : ℕ → ℕ)

theorem within_of_ne {k : KeyCall} {c : KeyCmd}
    {next : Except Err c.Reply → KeyProc (Option ApiKey)} (hc : SavesKeyed hashKey c)
    (hk : ∀ id userId, k ≠ .revokeApiKey id userId) : Within hashKey k c next :=
  ⟨hc, fun id userId heq => absurd heq (hk id userId)⟩

theorem revokeApiKey_within (i id : ℕ) (userId : UserId) :
    (prog hashKey i (.revokeApiKey id userId)).Always (FindsKeyed hashKey)
      (Within hashKey (.revokeApiKey id userId)) := by
  unfold prog revokeApiKey
  simp only [Proc.bind_eq, Proc.bind_assoc, Proc.pure_eq]
  refine Proc.always_call_bind (Q := Within hashKey (.revokeApiKey id userId))
    ⟨trivial, fun id' userId' _ r revoked hr => ?_⟩ fun found hfound => ?_
  · -- nothing is returned before the save
    cases r with
    | error e => cases hr
    | ok found => cases found <;> cases hr
  · cases found with
    | none => exact .done _
    | some apiKey =>
      obtain ⟨hid, hhash⟩ := hfound apiKey rfl
      simp only [Proc.bind_assoc, Proc.done_ok_bind]
      refine Proc.always_call_bind (Q := Within hashKey (.revokeApiKey id userId))
        (c := .saveRevoked apiKey) ⟨hhash, fun id' userId' heq r revoked hr => ?_⟩
        fun _ _ => .done _
      cases heq
      cases r with
      | error e => cases hr
      | ok _ =>
        cases hr
        exact ⟨rfl, apiKey, rfl, rfl, hid⟩

theorem prog_within (i : ℕ) (k : KeyCall) :
    (prog hashKey i k).Always (FindsKeyed hashKey) (Within hashKey k) := by
  cases k with
  | revokeApiKey id userId => exact revokeApiKey_within hashKey i id userId
  | createApiKey userId data =>
    unfold prog createApiKey
    simp only [Proc.bind_eq, Proc.bind_assoc]
    refine Proc.always_call_bind (within_of_ne hashKey trivial (by simp)) fun existing _ => ?_
    refine Proc.always_rejectWhen_bind fun _ => ?_
    exact Proc.always_call_bind (within_of_ne hashKey rfl (by simp)) fun _ _ => .done _
  | validateApiKey key =>
    unfold prog validateApiKey
    simp only [Proc.bind_eq, Proc.bind_assoc]
    refine Proc.always_call_bind (within_of_ne hashKey trivial (by simp)) fun found hfound => ?_
    cases found with
    | none => exact .done _
    | some apiKey =>
      simp only [Proc.bind_assoc]
      refine Proc.always_call_bind (within_of_ne hashKey trivial (by simp)) fun now _ => ?_
      refine Proc.always_rejectWhen_bind fun _ => ?_
      refine Proc.always_call_bind (within_of_ne hashKey trivial (by simp)) fun t _ => ?_
      exact Proc.always_call_bind (within_of_ne hashKey (hfound apiKey rfl) (by simp))
        fun _ _ => .done _
  | tick ms =>
    exact Proc.always_call_bind (within_of_ne hashKey trivial (by simp)) fun _ _ => .done _

/-- The key is not found active. -/
def NotFound (keyHash : ℕ) : (c : KeyCmd) → c.Reply → Prop
  | .findActive keyHash', found => keyHash' = keyHash → found = none
  | _, _ => True

/-- The call does not succeed by this step. -/
def Fails (keyHash : ℕ) (c : KeyCmd) (next : Except Err c.Reply → KeyProc (Option ApiKey)) :
    Prop :=
  ∀ r, (∀ a, r = .ok a → NotFound keyHash c a) → ∀ apiKey, next r ≠ .done (.ok (some apiKey))

/-- A validation of a key that is not found active does not succeed. -/
theorem validateApiKey_fails (i key : ℕ) :
    (prog hashKey i (.validateApiKey key)).Always (NotFound (hashKey key))
      (Fails (hashKey key)) := by
  unfold prog validateApiKey
  simp only [Proc.bind_eq, Proc.bind_assoc]
  refine Proc.always_call_bind (Q := Fails (hashKey key)) (fun r hr apiKey hdone => ?_)
    fun found hfound => ?_
  · cases r with
    | error e => cases hdone
    | ok found =>
      obtain rfl := hr found rfl rfl
      cases hdone
  · obtain rfl := hfound rfl
    exact .done _

end Programs

-- ---------------------------------------------------------------------------
-- Runs
-- ---------------------------------------------------------------------------

section Runs

variable {hashKey : ℕ → ℕ} {t : Time} {cfg₀ cfg : KeyConfig}

/-- The table is keyed, and what was revoked is inactive. -/
structure Kept (hashKey : ℕ → ℕ) (cfg : KeyConfig) : Prop where
  keyed : Keyed hashKey cfg.state
  revoked : ∀ j revoked, RevokedBy cfg j revoked →
    Inactive revoked.id cfg.state ∧ revoked.keyHash = hashKey revoked.id

theorem kept_start (hashKey : ℕ → ℕ) (t : Time) : Kept hashKey (start t) := by
  refine ⟨⟨List.nodup_nil, fun r hr => ?_, fun r hr => ?_⟩, ?_⟩
  · cases hr
  · cases hr
  · rintro j revoked ⟨th, id, userId, hth, -⟩
    cases hth

/-- A step of a call within its program. -/
theorem Kept.step (h : Kept hashKey cfg) {i : ℕ} {fault : Option Err}
    {th : Thread KeyCall KeyCmd KeyCmd.Reply Err (Option ApiKey)} {c : KeyCmd}
    {next : Except Err c.Reply → KeyProc (Option ApiKey)} (hth : cfg.thread i = some th)
    (hwithin : Within hashKey th.call c next)
    (hD : savesActive.onStep cfg th c (failed (outcome fault (exec c cfg.state)))) :
    Kept hashKey (cfg.resume th next (outcome fault (exec c cfg.state))) ∧
    (∀ id, Inactive id cfg.state →
      Inactive id (after (outcome fault (exec c cfg.state)) cfg.state)) ∧
    ∀ a s', outcome fault (exec c cfg.state) = .ok (a, s') → FindsKeyed hashKey c a := by
  -- what the step does to the table
  have hstate : Keyed hashKey (after (outcome fault (exec c cfg.state)) cfg.state) ∧
      (∀ id, Inactive id cfg.state →
        Inactive id (after (outcome fault (exec c cfg.state)) cfg.state)) ∧
      ∀ a s', outcome fault (exec c cfg.state) = .ok (a, s') → FindsKeyed hashKey c a := by
    cases hout : outcome fault (exec c cfg.state) with
    | error e => exact ⟨h.keyed, fun _ h => h, fun a s' hok => by cases hok⟩
    | ok r =>
      obtain ⟨a, s'⟩ := r
      rw [hout] at hD
      have hstep := fun id => keyed_step id h.keyed hwithin.keyed (outcome_eq_ok hout).2
      refine ⟨(hstep 0).1, fun id => (hstep id).2.2 (hD rfl), fun a' s'' hok => ?_⟩
      cases hok
      exact (hstep 0).2.1
  refine ⟨⟨hstate.1, ?_⟩, hstate.2⟩
  rintro j revoked ⟨th', id, userId, hth', hcall, hdone⟩
  rcases Config.thread_resume_cases hth hth' with ⟨rfl, rfl⟩ | hold
  · obtain ⟨hok, apiKey, rfl, rfl, hid⟩ := hwithin.last id userId hcall _ _ hdone
    refine ⟨?_, hwithin.keyed⟩
    cases hout : outcome fault (exec (.saveRevoked apiKey) cfg.state) with
    | error e =>
      rw [hout] at hok
      cases hok
    | ok r =>
      have hexec := (outcome_eq_ok hout).2
      rw [exec] at hexec
      split at hexec
      · cases hexec
      · rename_i hsave
        cases hexec
        obtain ⟨-, rfl⟩ := save_ok hsave
        exact ⟨apiKey.revoked, (key_put _ _ _).trans (if_pos rfl), rfl⟩
  · obtain ⟨hinactive, hhash⟩ := h.revoked j revoked ⟨th', id, userId, hold, hcall, hdone⟩
    exact ⟨hstate.2.1 _ hinactive, hhash⟩

theorem Kept.spawn (h : Kept hashKey cfg) (i : ℕ) (k : KeyCall) :
    Kept hashKey (cfg.spawn i k (prog hashKey i k)) := by
  refine ⟨h.keyed, ?_⟩
  rintro j revoked ⟨th, id, userId, hth, hcall, hdone⟩
  rcases Config.thread_spawn_cases hth with ⟨rfl, rfl⟩ | hold
  · have hcall : k = .revokeApiKey id userId := hcall
    subst hcall
    cases hdone
  · exact h.revoked j revoked ⟨th, id, userId, hold, hcall, hdone⟩

theorem kept_reach (h : Reach (server hashKey) savesActive (start t) cfg) :
    Kept hashKey cfg ∧ ∀ i th, cfg.thread i = some th →
      th.proc.Always (FindsKeyed hashKey) (Within hashKey th.call) := by
  refine h.invariant_always (I := Kept hashKey) (Q := fun _ k => Within hashKey k)
    (kept_start hashKey t) rfl (fun i k => prog_within hashKey i k)
    (fun cfg i k hkept _ _ => hkept.spawn i k) ?_
  intro cfg i fault th c next hkept hth _ hwithin hD
  obtain ⟨hkept', -, hfinds⟩ := hkept.step hth hwithin hD
  exact ⟨hkept', hfinds⟩

/-- **Revocation is final.** Every interleaving in which validations save only
over active rows. -/
theorem revocation_final (h₀ : Reach (server hashKey) savesActive (start t) cfg₀)
    (h : Reach (server hashKey) savesActive cfg₀ cfg) : RevocationFinal hashKey cfg₀ cfg := by
  intro j revoked i key hrevoked hkey hfresh
  obtain ⟨hkept, hall⟩ := kept_reach h₀
  obtain ⟨hinactive, hhash⟩ := hkept.revoked j revoked hrevoked
  rw [hhash] at hkey
  -- the row stays inactive, and the call that is made later does not get past its lookup
  have hrun := h.invariant_always_from
    (I := fun cfg => Kept hashKey cfg ∧ Inactive revoked.id cfg.state ∧ ¬ Validated cfg i key)
    (G := fun _ c a => FindsKeyed hashKey c a ∧ NotFound (hashKey revoked.id) c a)
    (Q := fun l k c next => Within hashKey k c next ∧
      (l = i → k = .validateApiKey key → Fails (hashKey revoked.id) c next))
    ⟨hkept, hinactive, ?init⟩ (fun l th hth => ?old) (fun l k => ?prog) ?call ?step
  · exact hrun.1.2.2
  case init =>
    rintro ⟨th, apiKey, hth, -⟩
    rw [hfresh] at hth
    cases hth
  case old =>
    have hl : l ≠ i := by
      rintro rfl
      rw [hfresh] at hth
      cases hth
    refine ((hall l th hth).replies fun _ _ ha => ha.1).mono fun c next hwithin => ?_
    exact ⟨hwithin, fun heq => absurd heq hl⟩
  case prog =>
    have hreplies : ∀ c a, FindsKeyed hashKey c a ∧ NotFound (hashKey revoked.id) c a →
        FindsKeyed hashKey c a := fun _ _ ha => ha.1
    have hwithin := (prog_within hashKey l k).replies hreplies
    by_cases hk : k = .validateApiKey key
    · subst hk
      have hnotFound : ∀ c a, FindsKeyed hashKey c a ∧ NotFound (hashKey revoked.id) c a →
          NotFound (hashKey key) c a := fun _ _ ha => hkey ▸ ha.2
      have hfails := (validateApiKey_fails hashKey l key).replies hnotFound
      exact (hwithin.and hfails).mono fun c next hQ => ⟨hQ.1, fun _ _ => hkey ▸ hQ.2⟩
    · exact hwithin.mono fun c next hQ => ⟨hQ, fun _ heq => absurd heq hk⟩
  case call =>
    intro cfg l k ⟨hkept, hinactive, hno⟩ hnew _
    refine ⟨hkept.spawn l k, hinactive, ?_⟩
    rintro ⟨th, apiKey, hth, hcall, hdone⟩
    rcases Config.thread_spawn_cases hth with ⟨rfl, rfl⟩ | hold
    · have hcall : k = .validateApiKey key := hcall
      subst hcall
      cases hdone
    · exact hno ⟨th, apiKey, hold, hcall, hdone⟩
  case step =>
    intro cfg l fault th c next ⟨hkept, hinactive, hno⟩ hth _ hQ _ hD
    obtain ⟨hkept', hstays, hfinds⟩ := hkept.step hth hQ.1 hD
    have hnone : ∀ a s', outcome fault (exec c cfg.state) = .ok (a, s') →
        NotFound (hashKey revoked.id) c a := by
      intro a s' hout
      cases c with
      | findActive keyHash =>
        have hexec := (outcome_eq_ok hout).2
        cases hexec
        rintro rfl
        exact hinactive.not_active hkept.keyed
      | _ => trivial
    refine ⟨⟨hkept', hstays _ hinactive, ?_⟩, fun a s' hout => ⟨hfinds a s' hout, hnone a s' hout⟩⟩
    rintro ⟨th', apiKey, hth', hcall, hdone⟩
    rcases Config.thread_resume_cases hth hth' with ⟨rfl, rfl⟩ | hold
    · refine hQ.2 rfl hcall _ (fun a ha => ?_) apiKey hdone
      cases hout : outcome fault (exec c cfg.state) with
      | error e =>
        rw [show (server hashKey).exec = exec from rfl, hout] at ha
        cases ha
      | ok r =>
        rw [show (server hashKey).exec = exec from rfl, hout] at ha
        cases ha
        exact hnone r.1 r.2 hout
    · exact hno ⟨th', apiKey, hold, hcall, hdone⟩

end Runs

/-- The request for a key. -/
def botKey : CreateApiKeyDto := ⟨"bot", none, none, none⟩

/-- A key is created, used and revoked. -/
def usedThenRevoked : List (Event KeyCall Err) :=
  [.call 0 (.createApiKey 1 botKey), .step 0 none, .step 0 none,
    .call 1 (.validateApiKey 0), .step 1 none, .step 1 none, .step 1 none, .step 1 none,
    .call 2 (.revokeApiKey 0 1), .step 2 none, .step 2 none]

/-- It is presented again. -/
def presentedAgain : List (Event KeyCall Err) := [.call 3 (.validateApiKey 0), .step 3 none]

/-- The condition, as a check on a schedule. -/
def savesOverActive (cfg : KeyConfig) : KeyCmd → Bool
  | .saveUsed apiKey _ => (cfg.state.key apiKey.id).all ApiKey.isActive
  | _ => true

theorem reach_of_run {cfg cfg' : KeyConfig} {es : List (Event KeyCall Err)}
    (hrun : (server id).runChecked (fun cfg _ c _ => savesOverActive cfg c) cfg es = some cfg') :
    Reach (server id) savesActive cfg cfg' := by
  refine Reach.of_runChecked .refl (fun _ _ _ _ => trivial) ?_ hrun
  intro cfg th c b hcheck _ apiKey t hc row hrow
  subst hc
  have hall : (cfg.state.key apiKey.id).all ApiKey.isActive = true := hcheck
  rw [hrow] at hall
  exact hall

theorem revocation_final_bot :
    ∃ cfg₀ cfg, Reach (server id) savesActive (start 0) cfg₀ ∧
      Reach (server id) savesActive cfg₀ cfg ∧ RevocationFinal id cfg₀ cfg ∧
      cfg₀.state.keys.map (fun r => (r.id, r.isActive)) = [(0, false)] := by
  have hrun : ((server id).runChecked (fun cfg _ c _ => savesOverActive cfg c) (start 0)
      usedThenRevoked).map (fun cfg => (cfg.state.keys.map (fun r => (r.id, r.isActive)),
        ((server id).runChecked (fun cfg _ c _ => savesOverActive cfg c) cfg
          presentedAgain).isSome)) = some ([(0, false)], true) := by decide +kernel
  obtain ⟨cfg₀, hcfg₀, hobserved⟩ := Option.map_eq_some_iff.mp hrun
  obtain ⟨hkeys, hagain⟩ := Prod.mk.inj hobserved
  obtain ⟨cfg, hcfg⟩ := Option.isSome_iff_exists.mp hagain
  exact ⟨cfg₀, cfg, reach_of_run hcfg₀, reach_of_run hcfg,
    revocation_final (reach_of_run hcfg₀) (reach_of_run hcfg), hkeys⟩

/-- A validation reads the key before it is revoked. -/
def validatedMeanwhile : List (Event KeyCall Err) :=
  [.call 0 (.createApiKey 1 botKey), .step 0 none, .step 0 none,
    .call 1 (.validateApiKey 0), .step 1 none,
    .call 2 (.revokeApiKey 0 1), .step 2 none, .step 2 none]

/-- It then saves what it read, and the key is presented again. -/
def revived : List (Event KeyCall Err) :=
  [.step 1 none, .step 1 none, .step 1 none,
    .call 3 (.validateApiKey 0), .step 3 none, .step 3 none, .step 3 none, .step 3 none]

/-- The revocation has returned, and a later validation succeeds. -/
theorem key_revived :
    ∃ cfg₀ cfg, Reach (server id) .free (start 0) cfg₀ ∧ Reach (server id) .free cfg₀ cfg ∧
      ¬ RevocationFinal id cfg₀ cfg := by
  refine ⟨(server id).play (start 0) validatedMeanwhile,
    (server id).play ((server id).play (start 0) validatedMeanwhile) revived,
    Reach.refl.play _, Reach.refl.play _, fun h => ?_⟩
  have hrevoked : RevokedBy ((server id).play (start 0) validatedMeanwhile) 2
      ((botKey.create id 0 1).revoked) := ⟨_, 0, 1, rfl, rfl, rfl⟩
  have hvalidated : Validated ((server id).play ((server id).play (start 0) validatedMeanwhile)
      revived) 3 0 := ⟨_, (botKey.create id 0 1).usedAt 0, rfl, rfl, rfl⟩
  exact h 2 _ 3 0 hrevoked rfl rfl hvalidated

end ApiKeys

end NexaFx
