import NexaFx.Lib.Exclusive
import NexaFx.Model.Push

/-!
# NexaFx — how many device tokens a user has

Calls one after the other: a `registerToken`, `deregisterToken` or `sendToUser`
begins only when no other one is under way and no promise of a `sendToUser` is
unsettled. The promises of one `sendToUser` overlap.

* `Spare` — a user who can take a token.
* `registerToken_secures` — a registration, step by step.

Main result: `token_cap`, for runs in which nobody takes over a token of
another user at the cap.
-/

namespace NexaFx

open Async

namespace Push

-- ---------------------------------------------------------------------------
-- Rows
-- ---------------------------------------------------------------------------

section Rows

variable {rows : List DeviceToken} {r : DeviceToken} {userId : UserId} {token : String}

/-- How many tokens a user has. -/
def owned (rows : List DeviceToken) (userId : UserId) : ℕ :=
  rows.countP fun row => row.userId = userId

/-- How many a user has besides `token`. -/
def others (rows : List DeviceToken) (userId : UserId) (token : String) : ℕ :=
  rows.countP fun row => row.userId = userId && decide (row.token ≠ token)

theorem others_le (rows : List DeviceToken) (userId : UserId) (token : String) :
    others rows userId token ≤ owned rows userId := by
  apply List.countP_mono_left
  intro x _ hx
  simp only [Bool.and_eq_true] at hx
  exact hx.1

/-- A count that leaves a row out. -/
theorem countP_and_lt {p q : DeviceToken → Bool} (hr : r ∈ rows) (hp : p r = true)
    (hq : q r = false) : rows.countP (fun row => p row && q row) < rows.countP p := by
  have hle : ∀ l : List DeviceToken, l.countP (fun row => p row && q row) ≤ l.countP p := by
    intro l
    apply List.countP_mono_left
    intro x _ hx
    simp only [Bool.and_eq_true] at hx
    exact hx.1
  obtain ⟨front, back, rfl⟩ := List.append_of_mem hr
  have hfront := hle front
  have hback := hle back
  rw [List.countP_append, List.countP_append, List.countP_cons_of_neg (by simp [hq]),
    List.countP_cons_of_pos hp]
  omega

/-- A user's own token is not among the others. -/
theorem others_lt (hr : r ∈ rows) : others rows r.userId r.token < owned rows r.userId :=
  countP_and_lt hr (by simp) (by simp)

/-- A row is written: nobody else has more tokens than before. -/
theorem owned_put_ne (hne : r.userId ≠ userId) (rows : List DeviceToken) :
    owned (Table.put DeviceToken.token r rows) userId ≤ owned rows userId := by
  unfold owned
  cases hget : Table.get DeviceToken.token rows r.token with
  | none =>
    rw [Table.countP_put_new DeviceToken.token _ hget, if_neg (by simpa using hne)]
    exact le_refl _
  | some x =>
    have hold := Table.countP_put_old DeviceToken.token
      (fun row => decide (row.userId = userId)) hget
    rw [if_neg (by simpa using hne) (c := decide (r.userId = userId) = true)] at hold
    omega

/-- A row is written: its owner has it and the others. -/
theorem owned_put_le (hrows : (rows.map DeviceToken.token).Nodup) :
    owned (Table.put DeviceToken.token r rows) r.userId ≤ others rows r.userId r.token + 1 := by
  induction rows with
  | nil => simp [Table.put, owned]
  | cons x rows ih =>
    obtain ⟨hx, hrest⟩ := List.nodup_cons.mp hrows
    have ih := ih hrest
    unfold owned others at ih ⊢
    rw [Table.put]
    split
    · rename_i heq
      have hsame : rows.countP (fun row => decide (row.userId = r.userId)) =
          rows.countP fun row => row.userId = r.userId && decide (row.token ≠ r.token) := by
        apply List.countP_congr
        intro y hy
        have hne : y.token ≠ r.token := fun h => hx (heq ▸ h ▸ List.mem_map_of_mem hy)
        simp [hne]
      rw [List.countP_cons_of_pos (by simp), List.countP_cons_of_neg (by simp [heq]), hsame]
    · rename_i hne
      have hkept : (decide (x.userId = r.userId) && decide (x.token ≠ r.token)) =
          decide (x.userId = r.userId) := by simp [hne]
      rw [List.countP_cons, List.countP_cons, hkept]
      omega

/-- Rows with one id are one row. -/
theorem eq_of_id (hrows : (rows.map DeviceToken.token).Nodup) {x y : DeviceToken} (hx : x ∈ rows)
    (hy : y ∈ rows) (h : x.id = y.id) : x = y :=
  List.inj_on_of_nodup_map hrows hx hy (congrArg TokenId.token h)

end Rows

-- ---------------------------------------------------------------------------
-- One call at a time
-- ---------------------------------------------------------------------------

/-- The commands with which the calls of the service begin. -/
def PushCmd.opens : PushCmd → Bool
  | .findToken .. | .deleteToken .. | .findToSend .. => true
  | _ => false

/-- All promises have settled. -/
def PushDb.Settled (st : PushDb) : Prop := ∀ send ∈ st.sends, send.live = false

instance (st : PushDb) : Decidable st.Settled := inferInstanceAs (Decidable (∀ _ ∈ _, _))

/-- A user who takes over a token of another one has room for it. -/
def Room : PushCmd → PushDb → Prop
  | .findToken _ userId token, st => ∀ row ∈ st.token token, row.userId ≠ userId →
      owned st.tokens.rows userId < MAX_TOKENS_PER_USER
  | _, _ => True

instance (c : PushCmd) (st : PushDb) : Decidable (Room c st) := by
  unfold Room
  split <;> infer_instance

/-- The calls do not overlap. -/
def oneByOne : Discipline PushCall PushCmd PushCmd.Reply Thrown PushDb Unit where
  onCall _ _ _ := True
  onStep cfg th c _ :=
    (th.call.whole = true → th.begun = false → cfg.Vacant PushCall.whole) ∧
    (c.opens = true → cfg.state.Settled)

/-- The calls do not overlap, and find room. -/
def withRoom : Discipline PushCall PushCmd PushCmd.Reply Thrown PushDb Unit where
  onCall _ _ _ := True
  onStep cfg th c failed := oneByOne.onStep cfg th c failed ∧ Room c cfg.state

/-- Nobody is over the cap, and only a user's own tokens have made room. -/
structure Capped (st : PushDb) : Prop where
  owned : ∀ userId, owned st.tokens.rows userId ≤ MAX_TOKENS_PER_USER
  evictions : ∀ userId row, .evicted userId row ∈ st.log → row.userId = userId

/-- What is in the table between two calls: the promises on their way hold
tokens of one user, who has no others. -/
structure Rest (st : PushDb) : Prop extends Capped st where
  loaded : ∃ (userId : UserId) (tokens : List String), tokens.length ≤ MAX_TOKENS_PER_USER ∧
    (∀ row ∈ st.tokens.rows, row.userId = userId → row.token ∈ tokens) ∧
    ∀ send ∈ st.sends, send.live = true → send.dt.userId = userId ∧ send.dt.token ∈ tokens

/-- What the promises do, and time. -/
structure Beside (st st' : PushDb) : Prop where
  shrinks : st.Settled → st'.Settled ∧ st'.tokens.rows.Sublist st.tokens.rows
  rest : Rest st → Rest st'

theorem Beside.refl (st : PushDb) : Beside st st := ⟨fun h => ⟨h, .refl _⟩, id⟩

theorem Beside.trans {st₁ st₂ st₃ : PushDb} (h : Beside st₁ st₂) (h' : Beside st₂ st₃) :
    Beside st₁ st₃ where
  shrinks hsettled :=
    have hfirst := h.shrinks hsettled
    have hsecond := h'.shrinks hfirst.1
    ⟨hsecond.1, hsecond.2.trans hfirst.2⟩
  rest hrest := h'.rest (h.rest hrest)

/-- The tokens are handed out one call at a time. -/
def tokenSection : Section PushCmd PushCmd.Reply Thrown PushDb where
  exec := exec
  mayFail := mayFail
  allows c _ st := (c.opens = true → st.Settled) ∧ Room c st
  rely := Beside
  safe := Capped
  rest := Rest

section Rest

variable {st st' : PushDb}

/-- With all promises settled, the table only has to be within the cap. -/
theorem rest_of_settled (h : Capped st) (hsettled : st.Settled) : Rest st where
  toCapped := h
  loaded := by
    refine ⟨0, (st.ofUser 0).map DeviceToken.token, ?_, ?_, ?_⟩
    · rw [List.length_map]
      exact le_trans (le_of_eq List.countP_eq_length_filter.symm) (h.owned 0)
    · intro row hrow huser
      exact List.mem_map_of_mem (List.mem_filter.mpr ⟨hrow, by simpa using huser⟩)
    · intro send hsend hlive
      rw [hsettled send hsend] at hlive
      cases hlive

/-- Rows are deleted. -/
theorem Capped.shrink (h : Capped st) (hrows : st'.tokens.rows.Sublist st.tokens.rows)
    (hlog : ∀ userId row, .evicted userId row ∈ st'.log → row.userId = userId) : Capped st' where
  owned userId := le_trans (hrows.countP_le) (h.owned userId)
  evictions := hlog

theorem Rest.shrink (h : Rest st) (hrows : st'.tokens.rows.Sublist st.tokens.rows)
    (hsends : st'.sends = st.sends)
    (hlog : ∀ userId row, .evicted userId row ∈ st'.log → row.userId = userId) : Rest st' where
  toCapped := h.toCapped.shrink hrows hlog
  loaded := by
    obtain ⟨userId, tokens, hlength, htokens, hlive⟩ := h.loaded
    exact ⟨userId, tokens, hlength, fun row hrow => htokens row (hrows.subset hrow),
      hsends ▸ hlive⟩

end Rest

-- ---------------------------------------------------------------------------
-- Promises
-- ---------------------------------------------------------------------------

section Promises

variable {st st' : PushDb}

theorem beside_become (st : PushDb) (key : ℕ × ℕ) (state : SendState) :
    Beside st (st.become key state) where
  shrinks hsettled := by
    refine ⟨fun send hsend => ?_, .refl _⟩
    by_contra hlive
    obtain ⟨old, hold, hlive', -⟩ := live_of_become hsend (Bool.not_eq_false _ ▸ hlive)
    rw [hsettled old hold] at hlive'
    cases hlive'
  rest h := by
    obtain ⟨userId, tokens, hlength, htokens, hsends⟩ := h.loaded
    refine ⟨⟨h.owned, h.evictions⟩, userId, tokens, hlength, htokens, fun send hsend hlive => ?_⟩
    obtain ⟨old, hold, hlive', hdt⟩ := live_of_become hsend hlive
    rw [← hdt]
    exact hsends old hold hlive'

/-- The entity of a promise is written back. -/
theorem rest_save (h : Rest st) {key : ℕ × ℕ} {send : Send} (hsend : st.send key = some send)
    (hlive : send.live = true) (t : Time) :
    Rest (st.put { send.dt with lastUsedAt := some t }) := by
  obtain ⟨userId, tokens, hlength, htokens, hsends⟩ := h.loaded
  obtain ⟨huser, htoken⟩ := hsends send (Table.mem_of_get _ hsend) hlive
  have htokens' : ∀ row ∈ (st.put { send.dt with lastUsedAt := some t }).tokens.rows,
      row.userId = userId → row.token ∈ tokens := by
    intro row hrow hrow'
    rcases Table.mem_put _ hrow with rfl | hold
    · exact htoken
    · exact htokens row hold hrow'
  refine ⟨⟨fun user => ?_, h.evictions⟩, userId, tokens, hlength, htokens', hsends⟩
  by_cases hne : send.dt.userId = user
  · -- all tokens of this user are among those that were loaded
    obtain rfl : userId = user := huser.symm.trans hne
    have hnodup := (Table.nodup_filter DeviceToken.token
      (st.put { send.dt with lastUsedAt := some t }).tokens.tokens
      fun row => decide (row.userId = userId))
    have hsub : ((st.put { send.dt with lastUsedAt := some t }).tokens.rows.filter
        fun row => decide (row.userId = userId)).map DeviceToken.token ⊆ tokens := by
      intro token hmem
      obtain ⟨row, hrow, rfl⟩ := List.mem_map.mp hmem
      obtain ⟨hrow, huser⟩ := List.mem_filter.mp hrow
      exact htokens' row hrow (of_decide_eq_true huser)
    have hle := (List.subperm_of_subset hnodup hsub).length_le
    rw [List.length_map, ← List.countP_eq_length_filter] at hle
    exact le_trans hle hlength
  · have hle := owned_put_ne (r := { send.dt with lastUsedAt := some t }) hne st.tokens.rows
    exact le_trans hle (h.owned user)

theorem beside_of_exec {c : PushCmd} {a : c.Reply} (hc : c.promised = true)
    (h : exec c st = .ok (a, st')) : Beside st st' := by
  cases c with
  | takeSend key =>
    rcases exec_takeSend h with rfl | rfl
    · exact .refl _
    · exact beside_become ..
  | post request =>
    cases h
    exact ⟨fun hsettled => ⟨hsettled, .refl _⟩, fun hrest => hrest.shrink (.refl _) rfl
      hrest.evictions⟩
  | saveUsed key t =>
    rcases exec_saveUsed h with rfl | ⟨send, hsend, hlive, rfl⟩
    · exact .refl _
    · refine ⟨fun hsettled => ?_, fun hrest => rest_save hrest hsend hlive t⟩
      rw [hsettled send (Table.mem_of_get _ hsend)] at hlive
      cases hlive
  | deleteStale token =>
    cases h
    refine ⟨fun hsettled => ⟨hsettled, List.filter_sublist⟩, fun hrest => ?_⟩
    refine hrest.shrink List.filter_sublist rfl fun userId row hmem => ?_
    rcases List.mem_append.mp hmem with hmem | hmem
    · exact hrest.evictions userId row hmem
    · simp at hmem
  | settle key result =>
    obtain ⟨state, rfl⟩ := exec_settle h
    exact beside_become ..
  | now =>
    cases h
    exact .refl _
  | tick ms =>
    cases h
    exact ⟨fun hsettled => ⟨hsettled, .refl _⟩, fun hrest => hrest.shrink (.refl _) rfl
      hrest.evictions⟩
  | _ => cases hc

end Promises

-- ---------------------------------------------------------------------------
-- Calls
-- ---------------------------------------------------------------------------

section Calls

variable {st st' : PushDb} {userId : UserId} {token : String}

/-- The table while a registration goes on: at rest, without promises, and with
no row that was not there at `rows`. -/
structure Within (rows : List DeviceToken) (st : PushDb) : Prop where
  rest : Rest st
  settled : st.Settled
  rows : st.tokens.rows.Sublist rows

theorem Within.beside {rows : List DeviceToken} (h : Within rows st) (hbeside : Beside st st') :
    Within rows st' where
  rest := hbeside.rest h.rest
  settled := (hbeside.shrinks h.settled).1
  rows := (hbeside.shrinks h.settled).2.trans h.rows

theorem Within.others_le {rows : List DeviceToken} (h : Within rows st) (userId : UserId)
    (token : String) : others st.tokens.rows userId token ≤ owned rows userId :=
  le_trans (Push.others_le st.tokens.rows userId token) h.rows.countP_le

/-- The user can take the token. -/
structure Spare (userId : UserId) (token : String) (st : PushDb) : Prop where
  rest : Rest st
  settled : st.Settled
  spare : others st.tokens.rows userId token < MAX_TOKENS_PER_USER

theorem Spare.beside (h : Spare userId token st) (hbeside : Beside st st') :
    Spare userId token st' where
  rest := hbeside.rest h.rest
  settled := (hbeside.shrinks h.settled).1
  spare := lt_of_le_of_lt (hbeside.shrinks h.settled).2.countP_le h.spare

/-- The token is stored for the user. -/
theorem Spare.put {r : DeviceToken} (h : Spare r.userId r.token st) (call : ℕ) :
    Rest ((st.put r).note [.registered call r.userId r.token]) := by
  refine rest_of_settled ⟨fun user => ?_, fun user row hmem => ?_⟩ h.settled
  · by_cases hne : r.userId = user
    · have hle := owned_put_le (r := r) st.tokens.tokens
      rw [← hne]
      exact le_trans hle h.spare
    · exact le_trans (owned_put_ne hne st.tokens.rows) (h.rest.owned user)
  · rcases List.mem_append.mp hmem with hmem | hmem
    · exact h.rest.evictions user row hmem
    · simp at hmem

/-- The row that has been found is handed over. -/
theorem saveExisting_secures (call : ℕ) {r : DeviceToken} (h : Spare r.userId r.token st) :
    (await (.save call r)).Secures tokenSection (fun _ => Rest) st := by
  apply Proc.secures_call h
  · exact fun _ _ h => h.beside
  · exact fun _ h => h.rest.toCapped
  · intro st a st' h _ hexec
    rw [exec_save hexec]
    exact h.put call
  · exact fun _ _ h _ _ => h.rest

theorem insert_secures (call : ℕ) (platform : DevicePlatform) (h : Spare userId token st) :
    (await (.insert call userId token platform)).Secures tokenSection (fun _ => Rest) st := by
  apply Proc.secures_call h
  · exact fun _ _ h => h.beside
  · exact fun _ h => h.rest.toCapped
  · intro st a st' h _ hexec
    rw [exec_insert hexec]
    exact Spare.put (r := createToken call userId token platform st.now) h call
  · exact fun _ _ h _ _ => h.rest

/-- The user's tokens, of which the oldest makes room. -/
theorem evictOldest_secures (token : String) {rows loaded : List DeviceToken}
    (h : Within rows st)
    (hnodup : (rows.map DeviceToken.token).Nodup) (hloaded : ∀ row ∈ loaded, row ∈ rows)
    (howner : ∀ row ∈ loaded, row.userId = userId) (hcount : loaded.length = owned rows userId)
    (hcap : owned rows userId ≤ MAX_TOKENS_PER_USER) :
    (evictOldest userId loaded).Secures tokenSection
      (fun r st => match r with
        | .ok _ => Spare userId token st
        | .error _ => Rest st) st := by
  cases loaded with
  | nil =>
    refine ⟨h.rest, h.settled, ?_⟩
    have hle := h.others_le userId token
    rw [← hcount] at hle
    exact lt_of_le_of_lt hle (by decide)
  | cons oldest rest =>
    rw [evictOldest]
    split
    · apply Proc.secures_call h
      · exact fun _ _ h => h.beside
      · exact fun _ h => h.rest.toCapped
      · intro st a st' h _ hexec
        cases hexec
        have holdest : oldest ∈ rows := hloaded _ (List.mem_cons_self ..)
        have hsame : ∀ row ∈ st.tokens.rows, row.id = oldest.id → row = oldest :=
          fun row hrow hid => eq_of_id hnodup (h.rows.subset hrow) holdest hid
        have hrest : Rest ((st.deleteWhere fun row => row.id = oldest.id).note
            ((st.tokens.rows.filter fun row => row.id = oldest.id).map (.evicted userId))) := by
          refine h.rest.shrink List.filter_sublist rfl ?_
          intro user row hmem
          rcases List.mem_append.mp hmem with hmem | hmem
          · exact h.rest.evictions user row hmem
          · obtain ⟨x, hx, heq⟩ := List.mem_map.mp hmem
            cases heq
            obtain ⟨hx, hid⟩ := List.mem_filter.mp hx
            rw [hsame row hx (of_decide_eq_true hid)]
            exact howner _ (List.mem_cons_self ..)
        refine ⟨hrest, h.settled, ?_⟩
        -- what is left are rows that were loaded, without the oldest
        have hleft : owned (st.tokens.rows.filter fun row => !decide (row.id = oldest.id)) userId <
            owned rows userId := by
          refine lt_of_le_of_lt (List.Sublist.countP_le (h.rows.filter _)) ?_
          rw [List.countP_filter]
          exact countP_and_lt holdest (by simpa using howner _ (List.mem_cons_self ..)) (by simp)
        exact lt_of_le_of_lt (others_le _ _ _) (lt_of_lt_of_le hleft hcap)
      · exact fun _ _ h _ _ => h.rest
    · rename_i hroom
      refine ⟨h.rest, h.settled, ?_⟩
      have hle := h.others_le userId token
      rw [← hcount] at hle
      exact lt_of_le_of_lt hle (not_le.mp hroom)

theorem mem_oldestFirst {row : DeviceToken} :
    row ∈ st.oldestFirst userId ↔ row ∈ st.tokens.rows ∧ row.userId = userId := by
  unfold PushDb.oldestFirst PushDb.ofUser
  rw [List.mem_insertionSort, List.mem_filter, decide_eq_true_eq]

theorem length_oldestFirst (st : PushDb) (userId : UserId) :
    (st.oldestFirst userId).length = owned st.tokens.rows userId := by
  unfold PushDb.oldestFirst
  rw [List.length_insertionSort]
  exact List.countP_eq_length_filter.symm

/-- A registration has begun. -/
theorem rest_began (h : Rest st) (call : ℕ) :
    Rest (st.note [.began call userId token]) := by
  refine h.shrink (.refl _) rfl fun user row hmem => ?_
  rcases List.mem_append.mp hmem with hmem | hmem
  · exact h.evictions user row hmem
  · simp at hmem

/-- A token that is found can be taken. -/
theorem spare_of_found (h : Rest st) {i : ℕ} (hroom : Room (.findToken i userId token) st)
    {existing : DeviceToken} (hfound : st.token token = some existing) :
    others st.tokens.rows userId token < MAX_TOKENS_PER_USER := by
  have hmem : existing ∈ st.tokens.rows := Table.mem_of_get _ hfound
  have htoken : existing.token = token := Table.key_of_get _ hfound
  by_cases hown : existing.userId = userId
  · rw [← hown, ← htoken]
    exact lt_of_lt_of_le (others_lt hmem) (h.owned _)
  · exact lt_of_le_of_lt (others_le ..) (hroom existing hfound hown)

theorem registerToken_secures (i : ℕ) (platform : DevicePlatform) (h : Rest st) :
    (registerToken i userId token platform).Secures tokenSection (fun _ => Rest) st := by
  unfold registerToken
  apply Proc.secures_call_bind h
  · exact fun _ _ h hbeside => hbeside.rest h
  · exact fun _ h => h.toCapped
  · intro st found st' h hallows hexec
    cases hexec
    have hrest : Rest (st.note [.began i userId token]) := rest_began h i
    have hsettled : st.Settled := hallows.1 rfl
    cases hfound : st.token token with
    | some existing =>
      have hothers := spare_of_found h hallows.2 hfound
      have hspare : Spare userId token (st.note [.began i userId token]) :=
        ⟨hrest, hsettled, hothers⟩
      obtain rfl : existing.token = token := Table.key_of_get _ hfound
      apply Proc.secures_call_bind hspare
      · exact fun _ _ h => h.beside
      · exact fun _ h => h.rest.toCapped
      · intro st now st' h _ hexec
        cases hexec
        exact saveExisting_secures i
          (r := { existing with userId := userId, lastUsedAt := some st.now }) h
      · exact fun _ _ h _ _ => h.rest
    | none =>
      have hwithin : Within st.tokens.rows (st.note [.began i userId token]) :=
        ⟨hrest, hsettled, .refl _⟩
      apply Proc.secures_call_bind hwithin
      · exact fun _ _ h => h.beside
      · exact fun _ h => h.rest.toCapped
      · intro st userTokens st' h _ hexec
        cases hexec
        apply Proc.secures_bind.mpr
        refine Proc.secures_mono ?_ (evictOldest_secures token
          (show Within st.tokens.rows st from ⟨h.rest, h.settled, .refl _⟩) st.tokens.tokens (fun row hrow => (mem_oldestFirst.mp hrow).1)
          (fun row hrow => (mem_oldestFirst.mp hrow).2) (length_oldestFirst st userId)
          (h.rest.owned userId))
        intro r st hpost
        cases r with
        | error e => exact hpost
        | ok u => exact insert_secures i platform hpost
      · exact fun _ _ h _ _ => h.rest
  · exact fun _ _ h _ _ => h

theorem deregisterToken_secures (i : ℕ) (h : Rest st) :
    (deregisterToken i token).Secures tokenSection (fun _ => Rest) st := by
  apply Proc.secures_call h
  · exact fun _ _ h hbeside => hbeside.rest h
  · exact fun _ h => h.toCapped
  · intro st a st' h _ hexec
    cases hexec
    refine h.shrink List.filter_sublist rfl fun user row hmem => ?_
    rcases List.mem_append.mp hmem with hmem | hmem
    · exact h.evictions user row hmem
    · simp at hmem
  · exact fun _ _ h _ _ => h

/-- The promises of a call hold all the tokens of its user. -/
theorem rest_promise (h : Rest st) (hsettled : st.Settled) (call : ℕ) (payload : PushPayload) :
    Rest (st.promise call payload (st.ofUser userId)) := by
  refine ⟨⟨h.owned, h.evictions⟩, userId, (st.ofUser userId).map DeviceToken.token, ?_, ?_, ?_⟩
  · rw [List.length_map]
    exact le_trans (le_of_eq List.countP_eq_length_filter.symm) (h.owned userId)
  · intro row hrow huser
    exact List.mem_map_of_mem (List.mem_filter.mpr ⟨hrow, by simpa using huser⟩)
  · intro send hsend hlive
    rcases List.mem_append.mp hsend with hold | hnew
    · rw [hsettled send hold] at hlive
      cases hlive
    · obtain ⟨n, hn, heq⟩ := List.mem_mapIdx.mp hnew
      have hmem := List.getElem_mem hn
      rw [← heq]
      exact ⟨of_decide_eq_true (List.mem_filter.mp hmem).2, List.mem_map_of_mem hmem⟩

theorem sendToUser_secures (i : ℕ) (payload : PushPayload) (h : Rest st) :
    (sendToUser i userId payload).Secures tokenSection (fun _ => Rest) st := by
  apply Proc.secures_call_bind h
  · exact fun _ _ h hbeside => hbeside.rest h
  · exact fun _ h => h.toCapped
  · intro st a st' h hallows hexec
    cases hexec
    apply Proc.secures_call (rest_promise h (hallows.1 rfl) i payload)
    · exact fun _ _ h hbeside => hbeside.rest h
    · exact fun _ h => h.toCapped
    · intro st a st' h _ hexec
      rw [exec_all hexec]
      exact h
    · exact fun _ _ h _ _ => h
  · exact fun _ _ h _ _ => h

end Calls

-- ---------------------------------------------------------------------------
-- All calls together
-- ---------------------------------------------------------------------------

section Together

variable (serverKey : String)

/-- The calls that do not overlap are a critical section. -/
theorem tokens_exclusive : Exclusive (server serverKey) withRoom tokenSection PushCall.whole
    (fun _ _ => True) fun _ _ c => c.promised = true where
  exec := rfl
  mayFail := rfl
  refl := Beside.refl
  trans _ _ _ h h' := h.trans h'
  safe _ h := h.toCapped
  rest _ _ h hbeside := hbeside.rest h
  secures i k st hk h := by
    cases k with
    | registerToken userId token platform =>
      refine Proc.secures_bind.mpr (Proc.secures_mono ?_ (registerToken_secures i platform h))
      intro r st hrest
      cases r with
      | ok dt => exact hrest
      | error e => exact hrest
    | deregisterToken token => exact deregisterToken_secures i h
    | sendToUser userId payload => exact sendToUser_secures i payload h
    | _ => cases hk
  replied _ _ _ _ _ := trivial
  issues i k hk := Proc.always_of_issues (fun _ _ h => h) (prog_promised serverKey i hk)
  others _ _ _ _ _ _ _ hc h := beside_of_exec hc h
  allows _ _ _ _ _ hD := ⟨hD.1.2, hD.2⟩
  alone _ _ _ _ hk hbegun hD := hD.1.1 hk hbegun

/-- **The cap.** In every sequence of calls that find room, nobody ever has
more than `MAX_TOKENS_PER_USER` tokens, no token has two owners, and a
registration removes no token of another user. -/
theorem token_cap {net : ℕ → Except Thrown Unit} {now : Time} {cfg : PushPool}
    (h : Reach (server serverKey) withRoom ⟨start net now, []⟩ cfg) :
    (∀ userId, (cfg.state.ofUser userId).length ≤ MAX_TOKENS_PER_USER) ∧
    (∀ row ∈ cfg.state.tokens.rows, ∀ row' ∈ cfg.state.tokens.rows,
      row.token = row'.token → row.userId = row'.userId) ∧
    ∀ userId row, .evicted userId row ∈ cfg.state.log → row.userId = userId := by
  have hrest : Rest (start net now) :=
    rest_of_settled ⟨fun _ => Nat.zero_le _, fun _ _ h => by cases h⟩ fun _ h => by cases h
  have hcapped : Capped cfg.state := (h.exclusive (tokens_exclusive serverKey) rfl
    (show tokenSection.rest (start net now) from hrest)).1
  refine ⟨fun userId => ?_, fun row hrow row' hrow' htoken => ?_, hcapped.evictions⟩
  · have hle := hcapped.owned userId
    rw [owned, List.countP_eq_length_filter] at hle
    exact hle
  · rw [List.inj_on_of_nodup_map cfg.state.tokens.tokens hrow hrow' htoken]

end Together

-- ---------------------------------------------------------------------------
-- Two users
-- ---------------------------------------------------------------------------

def noTokens : PushPool := ⟨start (fun _ => .ok ()) 0, []⟩

/-- A registration from its start to its end. -/
def whole (i : ℕ) (k : PushCall) : List (Event PushCall Thrown) :=
  .call i k :: List.replicate 3 (.step i none)

def checkOne (cfg : PushPool) (th : Thread PushCall PushCmd PushCmd.Reply Thrown Unit)
    (_ : PushCmd) (_ : Bool) : Bool :=
  (th.begun || cfg.idle) && decide cfg.state.Settled

theorem oneByOne_of_check {cfg : PushPool} {th : Thread PushCall PushCmd PushCmd.Reply Thrown Unit}
    {c : PushCmd} {failed : Bool} (h : checkOne cfg th c failed = true) :
    oneByOne.onStep cfg th c failed := by
  unfold checkOne at h
  simp only [Bool.and_eq_true, Bool.or_eq_true, decide_eq_true_eq] at h
  refine ⟨fun _ hbegun => ?_, fun _ => h.2⟩
  exact Config.vacant_of_idle (h.1.resolve_left (by simp [hbegun])) _

/-- A token is registered for user 1 and taken over by user 2. -/
def takenOver : List (Event PushCall Thrown) :=
  whole 0 (.registerToken 1 "t" .ios) ++ whole 1 (.registerToken 2 "t" .ios)

theorem token_cap_takenOver : ∃ cfg, Reach (server "") withRoom noTokens cfg ∧
    cfg.state.tokens.rows.map (fun row => (row.token, row.userId)) = [("t", 2)] ∧
    (∀ userId, (cfg.state.ofUser userId).length ≤ MAX_TOKENS_PER_USER) ∧
    (∀ row ∈ cfg.state.tokens.rows, ∀ row' ∈ cfg.state.tokens.rows,
      row.token = row'.token → row.userId = row'.userId) ∧
    ∀ userId row, .evicted userId row ∈ cfg.state.log → row.userId = userId := by
  have hrun : ((server "").runChecked (fun cfg th c failed =>
      checkOne cfg th c failed && decide (Room c cfg.state)) noTokens takenOver).map
        (fun cfg => cfg.state.tokens.rows.map fun row => (row.token, row.userId)) =
          some [("t", 2)] := by decide +kernel
  obtain ⟨cfg, hcfg, hrows⟩ := Option.map_eq_some_iff.mp hrun
  have h : Reach (server "") withRoom noTokens cfg := by
    refine Reach.of_runChecked .refl (fun _ _ _ _ => trivial) ?_ hcfg
    intro cfg th c failed hcheck
    rw [Bool.and_eq_true, decide_eq_true_eq] at hcheck
    exact ⟨oneByOne_of_check hcheck.1, hcheck.2⟩
  exact ⟨cfg, h, hrows, token_cap "" h⟩

/-- User 1 registers twenty tokens, user 2 another one, which user 1 takes over. -/
def twentyOne : List (Event PushCall Thrown) :=
  ((List.range 20).map fun n =>
    whole n (.registerToken 1 (String.ofList [Char.ofNat (65 + n)]) .android)).flatten ++
  whole 20 (.registerToken 2 "z" .android) ++ whole 21 (.registerToken 1 "z" .android)

/-- User 1 has 21 tokens. -/
theorem token_cap_exceeded : ∃ cfg, Reach (server "") oneByOne noTokens cfg ∧
    (cfg.state.ofUser 1).length = 21 := by
  have hrun : ((server "").runChecked checkOne noTokens twentyOne).map
      (fun cfg => (cfg.state.ofUser 1).length) = some 21 := by decide +kernel
  obtain ⟨cfg, hcfg, hlength⟩ := Option.map_eq_some_iff.mp hrun
  have h : Reach (server "") oneByOne noTokens cfg := by
    refine Reach.of_runChecked .refl (fun _ _ _ _ => trivial) ?_ hcfg
    intro cfg th c failed hcheck
    exact oneByOne_of_check hcheck
  exact ⟨cfg, h, hlength⟩

end Push

end NexaFx
