import NexaFx.Lib.Latest
import NexaFx.Model.Push

/-!
# NexaFx — whose a device token is

A `sendToUser` writes the rows that it has loaded back after the push service
has answered. The token follows its last `registerToken` or `deregisterToken`
as long as none of them is stored while such a copy is out (`handOver`).

* `Held`, `Gone` — what the table and the copies show of the last call.
* `ownership_reach` — in every interleaving of such calls they show it.

Main result: `token_ownership`.
-/

namespace NexaFx

open Async Latest

namespace Push

-- ---------------------------------------------------------------------------
-- The last call
-- ---------------------------------------------------------------------------

/-- The event is about the row of the token. -/
def TokenEvent.moves (t : String) : TokenEvent → Bool
  | .began .. => false
  | .registered _ _ token => token = t
  | .deregistered _ token => token = t
  | .evicted _ row => row.token = t
  | .stale token => token = t

/-- The token is deregistered, or a registration of it begins. -/
def TokenEvent.bounds (t : String) : TokenEvent → Bool
  | .began _ _ token => token = t
  | .deregistered _ token => token = t
  | _ => false

/-- The call registers the token. -/
def PushCall.registers (t : String) : PushCall → Bool
  | .registerToken _ token _ => token = t
  | _ => false

/-- No copy of a row of the token is out that `sendToUser` has yet to write back. -/
def NoCopies (t : String) (st : PushDb) : Prop :=
  ∀ send ∈ st.sends, send.live = true → send.dt.token ≠ t

/-- All copies that are out are of this user. -/
def CopiesOf (userId : UserId) (t : String) (st : PushDb) : Prop :=
  ∀ send ∈ st.sends, send.live = true → send.dt.token = t → send.dt.userId = userId

/-- No copy is out that would undo what is written. -/
def Undisturbed : PushCmd → PushDb → Prop
  | .save _ dt, st => CopiesOf dt.userId dt.token st
  | .insert _ userId token _, st => CopiesOf userId token st
  | .deleteToken _ token, st => NoCopies token st
  | _, _ => True

/-- A token is stored for a user while no copy of another user is out, and it
is deregistered while no copy is out and nobody registers it. -/
def handOver : Discipline PushCall PushCmd PushCmd.Reply Thrown PushDb Unit where
  onCall _ _ _ := True
  onStep cfg _ c _ := Undisturbed c cfg.state ∧ ∀ call t, c = .deleteToken call t →
    ∀ j th, cfg.thread j = some th → th.call.registers t = true → cfg.inProgress j = false

/-- The row belongs to the user, and so do the copies. -/
structure Held (userId : UserId) (t : String) (st : PushDb) : Prop where
  owner : ∃ row, st.token t = some row ∧ row.userId = userId
  copies : CopiesOf userId t st

/-- There is no row, and no copy. -/
structure Gone (t : String) (st : PushDb) : Prop where
  row : st.token t = none
  copies : NoCopies t st

section Rows

variable {st st' : PushDb} {t : String} {userId : UserId}

theorem token_put (st : PushDb) (r : DeviceToken) (t : String) :
    (st.put r).token t = if r.token = t then some r else st.token t :=
  Table.get_put ..

/-- A row that is not deleted. -/
theorem token_deleteWhere {row : DeviceToken} {p : DeviceToken → Bool} (h : st.token t = some row)
    (hp : p row = false) : (st.deleteWhere p).token t = some row :=
  Table.get_filter _ h (by rw [hp]; rfl)

theorem token_deleteWhere_none {p : DeviceToken → Bool} (h : st.token t = none) :
    (st.deleteWhere p).token t = none := by
  rw [PushDb.token, Table.get_eq_none] at h ⊢
  exact fun row hrow => h row (List.mem_of_mem_filter hrow)

/-- The copies of a call that loads its user's rows. -/
theorem live_of_promise {call : ℕ} {payload : PushPayload} {send : Send}
    (h : send ∈ (st.promise call payload (st.ofUser userId)).sends) :
    send ∈ st.sends ∨ st.token send.dt.token = some send.dt := by
  rcases List.mem_append.mp h with hold | hnew
  · exact .inl hold
  · obtain ⟨n, hn, heq⟩ := List.mem_mapIdx.mp hnew
    have hmem := List.mem_of_mem_filter (List.getElem_mem hn)
    rw [← heq]
    exact .inr (Table.get_of_mem DeviceToken.token st.tokens.tokens hmem)

theorem Held.become (h : Held userId t st) (key : ℕ × ℕ) (state : SendState) :
    Held userId t (st.become key state) where
  owner := h.owner
  copies send hsend hlive ht := by
    obtain ⟨old, hold, hlive', hdt⟩ := live_of_become hsend hlive
    rw [← hdt] at ht ⊢
    exact h.copies old hold hlive' ht

theorem Gone.become (h : Gone t st) (key : ℕ × ℕ) (state : SendState) :
    Gone t (st.become key state) where
  row := h.row
  copies send hsend hlive := by
    obtain ⟨old, hold, hlive', hdt⟩ := live_of_become hsend hlive
    rw [← hdt]
    exact h.copies old hold hlive'

theorem Held.promise (h : Held userId t st) (call : ℕ) (payload : PushPayload) (user : UserId) :
    Held userId t (st.promise call payload (st.ofUser user)) where
  owner := h.owner
  copies send hsend hlive ht := by
    rcases live_of_promise hsend with hold | hrow
    · exact h.copies send hold hlive ht
    · obtain ⟨row, hfound, huser⟩ := h.owner
      rw [ht, hfound, Option.some.injEq] at hrow
      rw [← hrow]
      exact huser

theorem Gone.promise (h : Gone t st) (call : ℕ) (payload : PushPayload) (user : UserId) :
    Gone t (st.promise call payload (st.ofUser user)) where
  row := h.row
  copies send hsend hlive ht := by
    rcases live_of_promise hsend with hold | hrow
    · exact h.copies send hold hlive ht
    · rw [ht, h.row] at hrow
      cases hrow

/-- A copy is written back. -/
theorem Held.saveUsed (h : Held userId t st) {key : ℕ × ℕ} {send : Send}
    (hsend : st.send key = some send) (hlive : send.live = true) (now : Time) :
    Held userId t (st.put { send.dt with lastUsedAt := some now }) where
  owner := by
    rw [token_put]
    split
    · rename_i ht
      exact ⟨_, rfl, h.copies send (Table.mem_of_get _ hsend) hlive ht⟩
    · exact h.owner
  copies := h.copies

theorem Gone.saveUsed (h : Gone t st) {key : ℕ × ℕ} {send : Send}
    (hsend : st.send key = some send) (hlive : send.live = true) (now : Time) :
    Gone t (st.put { send.dt with lastUsedAt := some now }) where
  row := by
    rw [token_put, if_neg]
    · exact h.row
    · exact h.copies send (Table.mem_of_get _ hsend) hlive
  copies := h.copies

/-- A registration is stored. -/
theorem held_stored {r : DeviceToken} {call : ℕ} (hcopies : CopiesOf r.userId r.token st)
    (h : ∀ i u, latest (TokenEvent.moves t) st.log = some (.registered i u t) → Held u t st)
    {i : ℕ} {u : UserId} (hlatest : latest (TokenEvent.moves t)
      ((st.put r).note [.registered call r.userId r.token]).log = some (.registered i u t)) :
    Held u t ((st.put r).note [.registered call r.userId r.token]) := by
  have hlog : ((st.put r).note [.registered call r.userId r.token]).log =
      st.log ++ [.registered call r.userId r.token] := rfl
  rw [hlog, latest_concat] at hlatest
  split at hlatest
  · rename_i ht
    obtain rfl : r.token = t := of_decide_eq_true ht
    cases hlatest
    refine ⟨⟨r, ?_, rfl⟩, hcopies⟩
    exact (token_put st r r.token).trans (if_pos rfl)
  · rename_i ht
    have hheld := h i u hlatest
    have hrow : (st.put r).token t = st.token t :=
      (token_put st r t).trans (if_neg (by simpa [TokenEvent.moves] using ht))
    refine ⟨?_, hheld.copies⟩
    show ∃ row, (st.put r).token t = some row ∧ row.userId = u
    rw [hrow]
    exact hheld.owner

/-- Rows are deleted, each with an event of its token. -/
theorem held_deleted {p : DeviceToken → Bool} {events : List TokenEvent}
    (hp : ∀ row ∈ st.tokens.rows, p row = true → ∃ e ∈ events, e.moves row.token = true)
    (hevents : ∀ e ∈ events, ∀ i u, e ≠ .registered i u t)
    (h : ∀ i u, latest (TokenEvent.moves t) st.log = some (.registered i u t) → Held u t st)
    {i : ℕ} {u : UserId} (hlatest : latest (TokenEvent.moves t)
      ((st.deleteWhere p).note events).log = some (.registered i u t)) :
    Held u t ((st.deleteWhere p).note events) := by
  have hlog : ((st.deleteWhere p).note events).log = st.log ++ events := rfl
  rw [hlog] at hlatest
  rcases latest_append (TokenEvent.moves t) st.log events with ⟨hsame, hnone⟩ | ⟨e, he, -, hnew⟩
  · rw [hsame] at hlatest
    obtain ⟨⟨row, hrow, huser⟩, hcopies⟩ := h i u hlatest
    refine ⟨⟨row, ?_, huser⟩, hcopies⟩
    apply token_deleteWhere hrow
    cases hdeleted : p row with
    | false => rfl
    | true =>
      obtain ⟨e, he, hmoves⟩ := hp row (Table.mem_of_get _ hrow) hdeleted
      rw [Table.key_of_get _ hrow, hnone e he] at hmoves
      cases hmoves
  · rw [hnew, Option.some.injEq] at hlatest
    exact absurd hlatest (hevents e he i u)

/-- After a registration the token is held until something else happens to it. -/
theorem held_exec {c : PushCmd} {a : c.Reply} (hcopies : Undisturbed c st)
    (h : ∀ i u, latest (TokenEvent.moves t) st.log = some (.registered i u t) → Held u t st)
    (hexec : exec c st = .ok (a, st')) {i : ℕ} {u : UserId}
    (hlatest : latest (TokenEvent.moves t) st'.log = some (.registered i u t)) : Held u t st' := by
  cases c with
  | findToken call userId token =>
    cases hexec
    have hlog : (st.note [.began call userId token]).log = st.log ++ [.began call userId token] := rfl
    rw [hlog, latest_concat, if_neg (by simp [TokenEvent.moves])] at hlatest
    obtain ⟨howner, hcopies⟩ := h i u hlatest
    exact ⟨howner, hcopies⟩
  | findByUser userId =>
    cases hexec
    exact h i u hlatest
  | evict userId id =>
    cases hexec
    refine held_deleted (fun row hrow hid => ?_) (fun e he i u => ?_) h hlatest
    · exact ⟨.evicted userId row, List.mem_map_of_mem (List.mem_filter.mpr ⟨hrow, hid⟩),
        by simp [TokenEvent.moves]⟩
    · obtain ⟨row, -, rfl⟩ := List.mem_map.mp he
      exact fun heq => by cases heq
  | save call dt =>
    rw [exec_save hexec] at hlatest ⊢
    exact held_stored hcopies h hlatest
  | insert call userId token platform =>
    rw [exec_insert hexec] at hlatest ⊢
    exact held_stored (r := createToken call userId token platform st.now) hcopies h hlatest
  | deleteToken call token =>
    cases hexec
    refine held_deleted (fun row _ hdeleted => ⟨_, List.mem_singleton_self _, ?_⟩)
      (fun e he i u => ?_) h hlatest
    · simpa [TokenEvent.moves, eq_comm] using hdeleted
    · rw [List.mem_singleton.mp he]
      exact fun heq => by cases heq
  | findToSend call userId payload =>
    cases hexec
    exact (h i u hlatest).promise call payload userId
  | all call =>
    rw [exec_all hexec] at hlatest ⊢
    exact h i u hlatest
  | takeSend key =>
    rcases exec_takeSend hexec with rfl | rfl
    · exact h i u hlatest
    · exact (h i u hlatest).become key _
  | post request =>
    cases hexec
    obtain ⟨howner, hcopies⟩ := h i u hlatest
    exact ⟨howner, hcopies⟩
  | saveUsed key now =>
    rcases exec_saveUsed hexec with rfl | ⟨send, hsend, hlive, rfl⟩
    · exact h i u hlatest
    · exact (h i u hlatest).saveUsed hsend hlive now
  | deleteStale token =>
    cases hexec
    refine held_deleted (fun row _ hdeleted => ⟨_, List.mem_singleton_self _, ?_⟩)
      (fun e he i u => ?_) h hlatest
    · simpa [TokenEvent.moves, eq_comm] using hdeleted
    · rw [List.mem_singleton.mp he]
      exact fun heq => by cases heq
  | settle key result =>
    obtain ⟨state, rfl⟩ := exec_settle hexec
    exact (h i u hlatest).become key state
  | now =>
    cases hexec
    exact h i u hlatest
  | tick ms =>
    cases hexec
    obtain ⟨howner, hcopies⟩ := h i u hlatest
    exact ⟨howner, hcopies⟩

/-- The token whose row the command stores for `registerToken`. -/
def PushCmd.stores : PushCmd → Option String
  | .save _ dt => some dt.token
  | .insert _ _ token _ => some token
  | _ => none

/-- A log that goes on with events of no token, or of others. -/
theorem gone_noted {events : List TokenEvent}
    (h : ∀ i, latest (TokenEvent.bounds t) st.log = some (.deregistered i t) → Gone t st)
    (hevents : ∀ e ∈ events, ∀ i, e ≠ .deregistered i t) {i : ℕ}
    (hlatest : latest (TokenEvent.bounds t) (st.log ++ events) = some (.deregistered i t)) :
    Gone t st := by
  rcases latest_append (TokenEvent.bounds t) st.log events with ⟨hsame, -⟩ | ⟨e, he, -, hnew⟩
  · exact h i (hsame ▸ hlatest)
  · rw [hnew, Option.some.injEq] at hlatest
    exact absurd hlatest (hevents e he i)

/-- After a deregistration nothing is left until a registration begins. -/
theorem gone_exec {c : PushCmd} {a : c.Reply} (hcopies : Undisturbed c st)
    (hstores : c.stores ≠ some t)
    (h : ∀ i, latest (TokenEvent.bounds t) st.log = some (.deregistered i t) → Gone t st)
    (hexec : exec c st = .ok (a, st')) {i : ℕ}
    (hlatest : latest (TokenEvent.bounds t) st'.log = some (.deregistered i t)) : Gone t st' := by
  cases c with
  | findToken call userId token =>
    cases hexec
    have hgone := gone_noted h (fun e he i => by rw [List.mem_singleton.mp he]; simp) hlatest
    exact ⟨hgone.row, hgone.copies⟩
  | findByUser userId =>
    cases hexec
    exact h i hlatest
  | evict userId id =>
    cases hexec
    have hgone := gone_noted h (fun e he i => by
      obtain ⟨row, -, rfl⟩ := List.mem_map.mp he
      simp) hlatest
    exact ⟨token_deleteWhere_none hgone.row, hgone.copies⟩
  | save call dt =>
    rw [exec_save hexec] at hlatest ⊢
    have hgone := gone_noted h (fun e he i => by rw [List.mem_singleton.mp he]; simp) hlatest
    refine ⟨?_, hgone.copies⟩
    exact (token_put st dt t).trans ((if_neg fun ht => hstores (congrArg some ht)).trans hgone.row)
  | insert call userId token platform =>
    rw [exec_insert hexec] at hlatest ⊢
    have hgone := gone_noted h (fun e he i => by rw [List.mem_singleton.mp he]; simp) hlatest
    refine ⟨?_, hgone.copies⟩
    exact (token_put st _ t).trans ((if_neg fun ht => hstores (congrArg some ht)).trans hgone.row)
  | deleteToken call token =>
    cases hexec
    by_cases ht : token = t
    · subst ht
      refine ⟨?_, hcopies⟩
      show Table.get _ (st.tokens.rows.filter _) token = none
      rw [Table.get_eq_none]
      intro row hrow
      simpa using (List.mem_filter.mp hrow).2
    · have hgone := gone_noted h (fun e he i => by
        rw [List.mem_singleton.mp he]
        simp [ht]) hlatest
      exact ⟨token_deleteWhere_none hgone.row, hgone.copies⟩
  | findToSend call userId payload =>
    cases hexec
    exact (h i hlatest).promise call payload userId
  | all call =>
    rw [exec_all hexec] at hlatest ⊢
    exact h i hlatest
  | takeSend key =>
    rcases exec_takeSend hexec with rfl | rfl
    · exact h i hlatest
    · exact (h i hlatest).become key _
  | post request =>
    cases hexec
    have hgone := h i hlatest
    exact ⟨hgone.row, hgone.copies⟩
  | saveUsed key now =>
    rcases exec_saveUsed hexec with rfl | ⟨send, hsend, hlive, rfl⟩
    · exact h i hlatest
    · exact (h i hlatest).saveUsed hsend hlive now
  | deleteStale token =>
    cases hexec
    have hgone := gone_noted h (fun e he i => by rw [List.mem_singleton.mp he]; simp) hlatest
    exact ⟨token_deleteWhere_none hgone.row, hgone.copies⟩
  | settle key result =>
    obtain ⟨state, rfl⟩ := exec_settle hexec
    exact (h i hlatest).become key state
  | now =>
    cases hexec
    exact h i hlatest
  | tick ms =>
    cases hexec
    have hgone := h i hlatest
    exact ⟨hgone.row, hgone.copies⟩

end Rows

-- ---------------------------------------------------------------------------
-- Programs
-- ---------------------------------------------------------------------------

/-- The commands of a call. -/
def Issued (i : ℕ) : PushCall → PushCmd → Prop
  | .registerToken userId token platform, c =>
    c.stores = none ∨ (∃ dt, c = .save i dt ∧ dt.userId = userId ∧ dt.token = token) ∨
      c = .insert i userId token platform
  | .deregisterToken token, c => c = .deleteToken i token
  | _, c => c.stores = none

/-- With what a registration or a deregistration returns. -/
def Last (i : ℕ) : PushCall → (c : PushCmd) → Except Thrown c.Reply → Prop
  | .registerToken userId token platform, c, r => r.isOk = true ∧
      ((∃ dt, c = .save i dt ∧ dt.userId = userId ∧ dt.token = token) ∨
        c = .insert i userId token platform)
  | .deregisterToken token, c, r => r.isOk = true ∧ c = .deleteToken i token
  | _, _, _ => True

/-- A row is found by its token. -/
def Found : (c : PushCmd) → c.Reply → Prop
  | .findToken _ _ token, found => ∀ row, found = some row → row.token = token
  | _, _ => True

section Programs

variable (serverKey : String)

theorem exec_found {c : PushCmd} {st st' : PushDb} {a : c.Reply}
    (h : exec c st = .ok (a, st')) : Found c a := by
  cases c with
  | findToken call userId token =>
    cases h
    exact fun row hrow => Table.key_of_get _ hrow
  | _ => trivial

/-- A call that ends with storing a row. -/
theorem closes_stores {c : PushCmd} (hc : c.stores ≠ none) :
    (Proc.Closes (fun c => c.stores ≠ none)
      ((await c).bind fun _ => (.done (.ok ()) : PushProc Unit))) :=
  .last hc (fun _ => rfl) fun e => .error e

theorem registerToken_closes (i : ℕ) (userId : UserId) (token : String)
    (platform : DevicePlatform) :
    (prog serverKey i (.registerToken userId token platform)).Closes fun c => c.stores ≠ none := by
  unfold prog registerToken
  simp only [Proc.bind_eq, Proc.bind_assoc]
  refine Proc.closes_bind fun found => ?_
  cases found with
  | some existing =>
    simp only [Proc.bind_assoc]
    exact Proc.closes_bind fun now => closes_stores (by simp [PushCmd.stores])
  | none =>
    simp only [Proc.bind_assoc]
    exact Proc.closes_bind fun userTokens => Proc.closes_bind fun u =>
      closes_stores (by simp [PushCmd.stores])

theorem registerToken_issued (i : ℕ) (userId : UserId) (token : String)
    (platform : DevicePlatform) :
    (prog serverKey i (.registerToken userId token platform)).Always Found
      fun c _ => Issued i (.registerToken userId token platform) c := by
  unfold prog registerToken
  simp only [Proc.bind_eq, Proc.bind_assoc]
  refine Proc.always_call_bind (.inl rfl) fun found hfound => ?_
  cases found with
  | some existing =>
    simp only [Proc.bind_assoc]
    refine Proc.always_call_bind (.inl rfl) fun now _ => ?_
    exact Proc.always_call_bind (.inr (.inl ⟨_, rfl, rfl, hfound existing rfl⟩)) fun _ _ => .done _
  | none =>
    simp only [Proc.bind_assoc]
    refine Proc.always_call_bind (.inl rfl) fun userTokens _ => ?_
    have hevict : (evictOldest userId userTokens).Issues fun c => c.stores = none := by
      unfold evictOldest
      split
      · trivial
      · split
        · exact Proc.issues_call.mpr rfl
        · trivial
    refine Proc.always_bind_of_issues hevict (fun c next hc => .inl hc) fun u => ?_
    exact Proc.always_call_bind (.inr (.inr rfl)) fun _ _ => .done _

theorem prog_issued (i : ℕ) (k : PushCall) :
    (prog serverKey i k).Always Found fun c _ => Issued i k c := by
  have hpromised : ∀ c : PushCmd, c.promised = true → c.stores = none := by
    intro c hc
    cases c <;> first | rfl | cases hc
  cases k with
  | registerToken userId token platform =>
    exact registerToken_issued serverKey i userId token platform
  | deregisterToken token => exact .await rfl (fun _ _ => .done _) fun _ => .done _
  | sendToUser userId payload =>
    exact Proc.always_call_bind rfl fun _ _ => .await rfl (fun _ _ => .done _) fun _ => .done _
  | send key =>
    exact Proc.always_of_issues (fun c _ hc => hpromised c hc) (prog_promised serverKey i rfl)
  | tick ms =>
    exact Proc.always_of_issues (fun c _ hc => hpromised c hc) (prog_promised serverKey i rfl)

theorem prog_last (i : ℕ) (k : PushCall) :
    (prog serverKey i k).Always Found fun c next => Issued i k c ∧
      ∀ r a, next r = .done (.ok a) → Last i k c r := by
  cases k with
  | registerToken userId token platform =>
    refine ((registerToken_issued serverKey i userId token platform).and
      (Proc.always_of_closes (registerToken_closes serverKey i userId token platform))).mono ?_
    intro c next ⟨hissued, hcloses⟩
    refine ⟨hissued, fun r a hdone => ?_⟩
    obtain ⟨hstores, hok⟩ := hcloses r a hdone
    exact ⟨hok, hissued.resolve_left hstores⟩
  | deregisterToken token =>
    refine .await ⟨rfl, fun r a hdone => ?_⟩ (fun _ _ => .done _) fun _ => .done _
    cases hdone
    exact ⟨rfl, rfl⟩
  | _ => exact (prog_issued serverKey i _).mono fun c next hissued => ⟨hissued, fun _ _ _ => trivial⟩

end Programs

-- ---------------------------------------------------------------------------
-- All calls together
-- ---------------------------------------------------------------------------

/-- What holds of every configuration. -/
structure Ownership (serverKey : String) (cfg : PushPool) : Prop where
  held : ∀ t i u, latest (TokenEvent.moves t) cfg.state.log = some (.registered i u t) →
    Held u t cfg.state
  gone : ∀ t i, latest (TokenEvent.bounds t) cfg.state.log = some (.deregistered i t) →
    Gone t cfg.state ∧
    ∀ j th, cfg.thread j = some th → th.call.registers t = true → cfg.inProgress j = false
  begins : ∀ i th, cfg.thread i = some th → th.begun = false → th.proc = prog serverKey i th.call
  deregistered : ∀ i th t, cfg.thread i = some th → th.call = .deregisterToken t →
    th.proc = .done (.ok ()) → .deregistered i t ∈ cfg.state.log
  registered : ∀ i th u t p, cfg.thread i = some th → th.call = .registerToken u t p →
    th.proc = .done (.ok ()) → .registered i u t ∈ cfg.state.log

section Together

variable {serverKey : String} {cfg : PushPool}

/-- What a command notes. -/
def PushCmd.events : PushCmd → PushDb → List TokenEvent
  | .findToken call userId token, _ => [.began call userId token]
  | .evict userId id, st => (st.tokens.rows.filter fun row => row.id = id).map (.evicted userId)
  | .save call dt, _ => [.registered call dt.userId dt.token]
  | .insert call userId token _, _ => [.registered call userId token]
  | .deleteToken call token, _ => [.deregistered call token]
  | .deleteStale token, _ => [.stale token]
  | _, _ => []

theorem exec_log {c : PushCmd} {st st' : PushDb} {a : c.Reply} (h : exec c st = .ok (a, st')) :
    st'.log = st.log ++ c.events st := by
  cases c with
  | save call dt => rw [exec_save h]; rfl
  | insert call userId token platform => rw [exec_insert h]; rfl
  | all call => rw [exec_all h]; exact (List.append_nil _).symm
  | takeSend key =>
    rcases exec_takeSend h with rfl | rfl
    · exact (List.append_nil _).symm
    · exact (List.append_nil _).symm
  | saveUsed key now =>
    rcases exec_saveUsed h with rfl | ⟨send, -, -, rfl⟩
    · exact (List.append_nil _).symm
    · exact (List.append_nil _).symm
  | settle key result =>
    obtain ⟨state, rfl⟩ := exec_settle h
    exact (List.append_nil _).symm
  | findToken | evict | deleteToken | deleteStale =>
    cases h
    rfl
  | _ =>
    cases h
    exact (List.append_nil _).symm

/-- A token that is now deregistered was so before, or has just been deleted. -/
theorem deregistered_cases {c : PushCmd} {st st' : PushDb} {a : c.Reply} {t : String} {i : ℕ}
    (h : exec c st = .ok (a, st'))
    (hlatest : latest (TokenEvent.bounds t) st'.log = some (.deregistered i t)) :
    latest (TokenEvent.bounds t) st.log = some (.deregistered i t) ∨ c = .deleteToken i t := by
  rw [exec_log h] at hlatest
  rcases latest_append (TokenEvent.bounds t) st.log (c.events st) with
    ⟨hsame, -⟩ | ⟨e, he, -, hnew⟩
  · exact .inl (hsame ▸ hlatest)
  · rw [hnew, Option.some.injEq] at hlatest
    subst hlatest
    refine .inr ?_
    cases c with
    | deleteToken call token =>
      have heq := List.mem_singleton.mp he
      cases heq
      rfl
    | evict userId id =>
      obtain ⟨row, -, heq⟩ := List.mem_map.mp he
      cases heq
    | findToken call userId token => cases List.mem_singleton.mp he
    | save call dt => cases List.mem_singleton.mp he
    | insert call userId token platform => cases List.mem_singleton.mp he
    | deleteStale token => cases List.mem_singleton.mp he
    | _ => cases he

/-- A registration that is not in progress takes its first step. -/
theorem first_of_registers (h : Ownership serverKey cfg) {i : ℕ}
    {th : Thread PushCall PushCmd PushCmd.Reply Thrown Unit} {c : PushCmd}
    {next : Except Thrown c.Reply → PushProc Unit} (hth : cfg.thread i = some th)
    (hproc : th.proc = .await c next) {t : String} (hregisters : th.call.registers t = true)
    (hidle : cfg.inProgress i = false) :
    (∃ userId, c = .findToken i userId t) ∧ ∀ e, (next (.error e)).isDone = true := by
  have hbegun : th.begun = false := by
    rw [Config.inProgress, hth] at hidle
    simpa [hproc, Proc.isDone] using hidle
  have hprog := h.begins i th hth hbegun
  cases hcall : th.call with
  | registerToken userId token platform =>
    rw [hcall] at hregisters hprog
    obtain rfl : token = t := of_decide_eq_true hregisters
    rw [hproc] at hprog
    cases hprog
    exact ⟨⟨userId, rfl⟩, fun _ => rfl⟩
  | _ =>
    rw [hcall] at hregisters
    cases hregisters

/-- Only registrations of a token store it. -/
theorem registers_of_issued {i : ℕ} {k : PushCall} {c : PushCmd} {t : String} (h : Issued i k c)
    (hc : c.stores = some t) : k.registers t = true := by
  cases k with
  | registerToken userId token platform =>
    rcases h with hnone | ⟨dt, rfl, -, rfl⟩ | rfl
    · rw [hnone] at hc
      cases hc
    · exact decide_eq_true (Option.some.inj hc)
    · exact decide_eq_true (Option.some.inj hc)
  | deregisterToken token =>
    rw [show c = .deleteToken i token from h] at hc
    cases hc
  | _ =>
    rw [show c.stores = none from h] at hc
    cases hc

section Step

variable {i : ℕ} {fault : Option Thrown} {th : Thread PushCall PushCmd PushCmd.Reply Thrown Unit}
  {c : PushCmd} {next : Except Thrown c.Reply → PushProc Unit}

theorem held_step (h : Ownership serverKey cfg)
    (hD : handOver.onStep cfg th c (failed (outcome fault (exec c cfg.state)))) :
    ∀ t j u, latest (TokenEvent.moves t) (cfg.resume th next
        (outcome fault (exec c cfg.state))).state.log = some (.registered j u t) →
      Held u t (cfg.resume th next (outcome fault (exec c cfg.state))).state := by
  intro t j u hlatest
  rw [Config.resume_state] at hlatest ⊢
  cases hout : outcome fault (exec c cfg.state) with
  | error e =>
    rw [hout] at hlatest
    exact h.held t j u hlatest
  | ok r =>
    rw [hout] at hlatest
    exact held_exec hD.1 (h.held t) (outcome_eq_ok hout).2 hlatest

theorem gone_step (h : Ownership serverKey cfg) (hth : cfg.thread i = some th)
    (hproc : th.proc = .await c next) (hissued : Issued i th.call c)
    (hD : handOver.onStep cfg th c (failed (outcome fault (exec c cfg.state)))) :
    ∀ t j, latest (TokenEvent.bounds t) (cfg.resume th next
        (outcome fault (exec c cfg.state))).state.log = some (.deregistered j t) →
      Gone t (cfg.resume th next (outcome fault (exec c cfg.state))).state ∧
      ∀ l th', (cfg.resume th next (outcome fault (exec c cfg.state))).thread l = some th' →
        th'.call.registers t = true →
        (cfg.resume th next (outcome fault (exec c cfg.state))).inProgress l = false := by
  intro t j hlatest
  rw [Config.resume_state] at hlatest ⊢
  cases hout : outcome fault (exec c cfg.state) with
  | error e =>
    rw [hout] at hlatest
    obtain ⟨hgone, hidle⟩ := h.gone t j hlatest
    refine ⟨hgone, fun l th' hth' hregisters => ?_⟩
    by_cases hl : l = i
    · subst hl
      rw [Config.thread_resume, if_pos (Config.id_of_thread hth)] at hth'
      cases hth'
      have hfirst := first_of_registers h hth hproc hregisters (hidle l th hth hregisters)
      rw [Config.inProgress_resume_self hth, reply_error, hfirst.2 e]
      rfl
    · rw [Config.thread_resume_ne hth hl] at hth'
      rw [Config.inProgress_resume_ne hth hl]
      exact hidle l th' hth' hregisters
  | ok r =>
    obtain ⟨a, s'⟩ := r
    rw [hout] at hlatest
    have hexec := (outcome_eq_ok hout).2
    -- when it was deregistered, and since then, nobody has been registering the token
    have hidle : ∀ l th', cfg.thread l = some th' → th'.call.registers t = true →
        cfg.inProgress l = false := by
      rcases deregistered_cases hexec hlatest with hold | hdelete
      · exact (h.gone t j hold).2
      · exact hD.2 j t hdelete
    have hnot : ¬ th.call.registers t = true := by
      intro hregisters
      obtain ⟨⟨userId, rfl⟩, -⟩ := first_of_registers h hth hproc hregisters
        (hidle i th hth hregisters)
      rw [after_ok, exec_log hexec, PushCmd.events, latest_concat,
        if_pos (by simp [TokenEvent.bounds])] at hlatest
      cases hlatest
    have hstores : c.stores ≠ some t := fun hc => hnot (registers_of_issued hissued hc)
    refine ⟨gone_exec hD.1 hstores (fun i hold => (h.gone t i hold).1) hexec hlatest, ?_⟩
    intro l th' hth' hregisters
    by_cases hl : l = i
    · subst hl
      rw [Config.thread_resume, if_pos (Config.id_of_thread hth)] at hth'
      cases hth'
      exact absurd hregisters hnot
    · rw [Config.thread_resume_ne hth hl] at hth'
      rw [Config.inProgress_resume_ne hth hl]
      exact hidle l th' hth' hregisters

/-- What has been noted stays in the log. -/
theorem mem_log_resume {e : TokenEvent} (he : e ∈ cfg.state.log) :
    e ∈ (cfg.resume th next (outcome fault (exec c cfg.state))).state.log := by
  rw [Config.resume_state]
  cases hout : outcome fault (exec c cfg.state) with
  | error err => exact he
  | ok r =>
    rw [after_ok, exec_log (outcome_eq_ok hout).2]
    exact List.mem_append_left _ he

/-- A command that is carried out is noted. -/
theorem mem_log_of_ok {e : TokenEvent} (he : ∀ st, e ∈ c.events st)
    (hok : (reply (outcome fault (exec c cfg.state))).isOk = true) :
    e ∈ (cfg.resume th next (outcome fault (exec c cfg.state))).state.log := by
  rw [Config.resume_state]
  cases hout : outcome fault (exec c cfg.state) with
  | error err =>
    rw [hout] at hok
    cases hok
  | ok r =>
    rw [after_ok, exec_log (outcome_eq_ok hout).2]
    exact List.mem_append_right _ (he _)

theorem ownership_step (h : Ownership serverKey cfg) (hth : cfg.thread i = some th)
    (hproc : th.proc = .await c next) (hissued : Issued i th.call c)
    (hlast : ∀ r a, next r = .done (.ok a) → Last i th.call c r)
    (hD : handOver.onStep cfg th c (failed (outcome fault (exec c cfg.state)))) :
    Ownership serverKey (cfg.resume th next (outcome fault (exec c cfg.state))) where
  held := held_step h hD
  gone := gone_step h hth hproc hissued hD
  begins l th' hth' hbegun := by
    rcases Config.thread_resume_cases hth hth' with ⟨rfl, rfl⟩ | hold
    · cases hbegun
    · exact h.begins l th' hold hbegun
  deregistered l th' t hth' hcall hdone := by
    rcases Config.thread_resume_cases hth hth' with ⟨rfl, rfl⟩ | hold
    · have hends := hlast _ _ hdone
      rw [show th.call = .deregisterToken t from hcall] at hends
      obtain ⟨hok, rfl⟩ := hends
      exact mem_log_of_ok (fun _ => List.mem_singleton_self _) hok
    · exact mem_log_resume (h.deregistered l th' t hold hcall hdone)
  registered l th' u t p hth' hcall hdone := by
    rcases Config.thread_resume_cases hth hth' with ⟨rfl, rfl⟩ | hold
    · have hends := hlast _ _ hdone
      rw [show th.call = .registerToken u t p from hcall] at hends
      obtain ⟨hok, ⟨dt, rfl, rfl, rfl⟩ | rfl⟩ := hends
      · exact mem_log_of_ok (fun _ => List.mem_singleton_self _) hok
      · exact mem_log_of_ok (fun _ => List.mem_singleton_self _) hok
    · exact mem_log_resume (h.registered l th' u t p hold hcall hdone)

end Step

theorem ownership_spawn (h : Ownership serverKey cfg) {i : ℕ} (hfresh : cfg.thread i = none)
    (k : PushCall) : Ownership serverKey (cfg.spawn i k (prog serverKey i k)) where
  held := h.held
  gone t j hlatest := by
    obtain ⟨hgone, hidle⟩ := h.gone t j hlatest
    refine ⟨hgone, fun l th hth hregisters => ?_⟩
    rw [Config.inProgress_spawn hfresh]
    rcases Config.thread_spawn_cases hth with ⟨rfl, rfl⟩ | hold
    · rw [Config.inProgress, hfresh]
    · exact hidle l th hold hregisters
  begins l th hth hbegun := by
    rcases Config.thread_spawn_cases hth with ⟨rfl, rfl⟩ | hold
    · rfl
    · exact h.begins l th hold hbegun
  deregistered l th t hth hcall hdone := by
    rcases Config.thread_spawn_cases hth with ⟨rfl, rfl⟩ | hold
    · cases hcall
      cases hdone
    · exact h.deregistered l th t hold hcall hdone
  registered l th u t p hth hcall hdone := by
    rcases Config.thread_spawn_cases hth with ⟨rfl, rfl⟩ | hold
    · cases hcall
      cases hdone
    · exact h.registered l th u t p hold hcall hdone

/-- **Any interleaving.** -/
theorem ownership_reach {net : ℕ → Except Thrown Unit} {now : Time}
    (h : Reach (server serverKey) handOver ⟨start net now, []⟩ cfg) : Ownership serverKey cfg := by
  refine (h.invariant_always (I := Ownership serverKey) ?init rfl (prog_last serverKey)
    (fun cfg i k h hfresh _ => ownership_spawn h hfresh k) ?step).1
  case init =>
    refine ⟨fun t i u hlatest => ?_, fun t i hlatest => ?_, fun i th hth => ?_,
      fun i th t hth => ?_, fun i th u t p hth => ?_⟩ <;> cases ‹_›
  case step =>
    intro cfg i fault th c next h hth hproc hQ hD
    exact ⟨ownership_step h hth hproc hQ.1 hQ.2 hD, fun a s' hok => exec_found (outcome_eq_ok hok).2⟩

end Together

-- ---------------------------------------------------------------------------
-- One token
-- ---------------------------------------------------------------------------

/-- User 1 registers a token and deregisters it. -/
def registeredAndNot : List (Event PushCall Thrown) :=
  [.call 0 (.registerToken 1 "t" .android), .step 0 none, .step 0 none, .step 0 none,
    .call 1 (.deregisterToken "t"), .step 1 none]

/-- No copies are out, and nobody registers a token that is deregistered. -/
def checkHandOver (cfg : PushPool) (_ : Thread PushCall PushCmd PushCmd.Reply Thrown Unit)
    (c : PushCmd) (_ : Bool) : Bool :=
  cfg.state.sends.isEmpty && match c with
    | .deleteToken _ t => cfg.threads.all fun th => !th.call.registers t || !cfg.inProgress th.id
    | _ => true

theorem handOver_of_check {cfg : PushPool} {th : Thread PushCall PushCmd PushCmd.Reply Thrown Unit}
    {c : PushCmd} {failed : Bool} (h : checkHandOver cfg th c failed = true) :
    handOver.onStep cfg th c failed := by
  unfold checkHandOver at h
  rw [Bool.and_eq_true, List.isEmpty_iff] at h
  obtain ⟨hsends, hidle⟩ := h
  constructor
  · cases c with
    | save call dt => intro send hsend; rw [hsends] at hsend; cases hsend
    | insert call userId token platform => intro send hsend; rw [hsends] at hsend; cases hsend
    | deleteToken call token => intro send hsend; rw [hsends] at hsend; cases hsend
    | _ => trivial
  · rintro call t rfl j th' hth' hregisters
    have hhere := List.all_eq_true.mp hidle th' (Table.mem_of_get _ hth')
    rw [hregisters, Config.id_of_thread hth'] at hhere
    simpa using hhere

/-- The token of user 1 is registered; then the push service no longer knows it. -/
def forgotten : List (Event PushCall Thrown) :=
  [.call 0 (.registerToken 1 "t" .android), .step 0 none, .step 0 none, .step 0 none,
    .call 1 (.sendToUser 1 ⟨"Hello", "World", none⟩), .step 1 none,
    .call 2 (.send (1, 0))] ++ List.replicate 4 (.step 2 none)

end Push

end NexaFx
