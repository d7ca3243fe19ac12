import NexaFx.Model.BalanceCache
import NexaFx.Safety.Agreement

/-!
# NexaFx — no stale balances

A balance that `getWalletBalances` returns was read after every balance change
of an operation that had returned before it started
(`balances_not_stale`), in every interleaving in which

* a method that does not delete the cache entry of the user it moves money of
  (`transfer`, `createSwap`, `reverseTransaction`) does so only while no copy
  of that user's balances is in the cache or in a running fetch, and
* `createDeposit` and `createWithdrawal` delete the entry only while no running
  fetch holds balances read before their change.

Without this a transfer leaves the cached balances of both users in place, and
a fetch that read before a deposit puts its result into the cache after the
deletion (`balances_stale`).

The argument: once no copy of a user's balances is older than a change, none
is ever again (`UpToDate.exec`), and a call that starts from there on takes a
copy from the cache, from a promise that is not settled yet, or from a fetch of
its own.
-/

namespace NexaFx

open Async

namespace BalanceCache

-- ---------------------------------------------------------------------------
-- The property
-- ---------------------------------------------------------------------------

/-- The user whose cache entry a method deletes before it returns. -/
def invalidates : Call → Option UserId
  | .deposit dto => some dto.userId
  | .withdrawal dto => some dto.userId
  | _ => none

/-- No copy of the user's balances is kept. -/
def NoCopy (st : State) (userId : UserId) : Prop :=
  st.cache userId = none ∧ ∀ f, f.userId = userId → (st.fetch f).balances = none

/-- Balances change and entries are deleted while no older copy is left behind. -/
def invalidatedInTime :
    Discipline CacheCall CacheCmd CacheCmd.Reply Err State Answer where
  onCall _ _ _ := True
  onStep cfg th c failed := failed = false →
    (∀ k site call tx userId currency delta, th.call = .tx k → invalidates k = none →
      c = .tx (.adjustBalance site call tx userId currency delta) → delta ≠ 0 →
      NoCopy cfg.state userId) ∧
    (∀ userId, c = .tx (.invalidateWalletBalanceCache userId) →
      ∀ f b (k : ℕ) m, f.userId = userId →
      (cfg.state.fetch f).balances = some b → cfg.state.db.moves[k]? = some m → m.call = th.id →
      k < b.seen)

/-- The call `i` has returned. -/
def Succeeded (cfg : CacheConfig) (i : ℕ) : Prop :=
  ∃ th answer, cfg.thread i = some th ∧ th.proc = .done (.ok answer)

/-- No copy of the user's balances is older than the balance change number `k`. -/
structure UpToDate (st : State) (userId : UserId) (k : ℕ) : Prop where
  logged : k < st.db.moves.length
  cache : ∀ b, st.cache userId = some b → k < b.seen
  fetch : ∀ f b, f.userId = userId → (st.fetch f).balances = some b → k < b.seen

-- ---------------------------------------------------------------------------
-- What the methods ask for
-- ---------------------------------------------------------------------------

/-- A command that the call `i` may issue: it moves money in its own name, and
where it deletes a cache entry, the entry is of the one user it moves money of. -/
def By (i : ℕ) (k : Call) : Cmd → Prop
  | .adjustBalance _ call _ userId _ _ => call = i ∧ ∀ u, invalidates k = some u → userId = u
  | _ => True

section Methods

open Proc

variable (i : ℕ)

theorem by_of_preparatory {k : Call} {c : Cmd} (h : c.preparatory = true) : By i k c := by
  cases c with
  | adjustBalance => cases h
  | _ => trivial

theorem generateReceiptNumber_by (k : Call) (tx : Transaction) :
    (generateReceiptNumber tx).Issues (By i k) := by
  refine issues_bind (issues_attempt (issues_call.mpr trivial)) fun _ => ?_
  refine issues_bind (issues_call.mpr trivial) fun _ => ?_
  exact issues_bind (issues_call.mpr trivial) fun _ => issues_done _

theorem transfer_by (dto : TransferDto) : (transfer i dto).Issues (By i (.transfer dto)) := by
  have hmove : ∀ site userId delta, By i (.transfer dto)
      (.adjustBalance site i i userId dto.currency delta) := by
    intro site userId delta
    refine ⟨rfl, fun u hu => ?_⟩
    cases hu
  refine issues_bind ?_ fun tx => ?_
  · refine issues_bind (issues_call.mpr trivial) fun _ => ?_
    refine issues_bind (issues_call.mpr trivial) fun _ => ?_
    refine issues_bind (issues_rejectWhen _ _) fun _ => ?_
    refine issues_bind (issues_rejectWhen _ _) fun _ => ?_
    refine issues_bind (issues_rejectWhen _ _) fun _ => ?_
    refine issues_bind (issues_call.mpr trivial) fun _ => ?_
    refine issues_bind (issues_rejectWhen _ _) fun _ => ?_
    refine issues_bind (issues_call.mpr trivial) fun _ => ?_
    exact generateReceiptNumber_by i _ _
  · refine issues_bind (issues_attempt ?_) fun r => ?_
    · refine issues_bind (issues_call.mpr trivial) fun _ => ?_
      refine issues_bind (issues_call.mpr (hmove _ _ _)) fun _ => ?_
      exact issues_call.mpr (hmove _ _ _)
    · cases r with
      | error e => exact issues_done _
      | ok _ =>
        refine issues_bind (issues_call.mpr trivial) fun t => ?_
        refine issues_bind (issues_attempt ?_) fun _ => issues_done _
        exact issues_bind (issues_call.mpr trivial) fun _ => issues_call.mpr trivial

theorem createDeposit_by (dto : DepositDto) :
    (createDeposit i dto).Issues (By i (.deposit dto)) := by
  have hfailed : ∀ tx err, (depositFailed dto tx err).Issues (By i (.deposit dto)) := by
    intro tx err
    refine issues_bind (issues_call.mpr trivial) fun _ => ?_
    exact issues_bind (issues_call.mpr trivial) fun _ => issues_throw _
  refine issues_bind ?_ fun tx => ?_
  · refine issues_bind (issues_call.mpr trivial) fun _ => ?_
    refine issues_bind (issues_call.mpr trivial) fun _ => ?_
    refine issues_bind (issues_call.mpr trivial) fun _ => ?_
    exact generateReceiptNumber_by i _ _
  · refine issues_bind (issues_attempt (issues_call.mpr ⟨rfl, fun u hu => ?_⟩)) fun r => ?_
    · exact Option.some.inj hu
    · cases r with
      | error e => exact hfailed _ _
      | ok _ =>
        refine issues_bind (issues_call.mpr trivial) fun t => ?_
        refine issues_bind (issues_attempt ?_) fun r => ?_
        · exact issues_bind (issues_call.mpr trivial) fun _ => issues_call.mpr trivial
        · cases r with
          | error e => exact hfailed _ _
          | ok _ => exact issues_done _

theorem createWithdrawal_by (dto : WithdrawalDto) :
    (createWithdrawal i dto).Issues (By i (.withdrawal dto)) := by
  have hmove : ∀ site delta, By i (.withdrawal dto)
      (.adjustBalance site i i dto.userId dto.currency delta) :=
    fun site delta => ⟨rfl, fun u hu => Option.some.inj hu⟩
  refine issues_bind ?_ fun tx => ?_
  · refine issues_bind (issues_call.mpr trivial) fun _ => ?_
    refine issues_bind (issues_call.mpr trivial) fun _ => ?_
    refine issues_bind (issues_rejectWhen _ _) fun _ => ?_
    refine issues_bind (issues_call.mpr trivial) fun _ => ?_
    refine issues_bind (issues_call.mpr trivial) fun _ => ?_
    refine issues_bind (issues_rejectWhen _ _) fun _ => ?_
    refine issues_bind (issues_call.mpr trivial) fun _ => ?_
    refine issues_bind (generateReceiptNumber_by i _ _) fun _ => ?_
    exact issues_bind (issues_call.mpr (hmove _ _)) fun _ => issues_done _
  · refine issues_bind (issues_call.mpr trivial) fun t => ?_
    refine issues_bind (issues_attempt ?_) fun r => ?_
    · exact issues_bind (issues_call.mpr trivial) fun _ => issues_call.mpr trivial
    · cases r with
      | ok _ => exact issues_done _
      | error e =>
        refine issues_bind (issues_call.mpr (hmove _ _)) fun _ => ?_
        refine issues_bind (issues_call.mpr trivial) fun _ => ?_
        exact issues_bind (issues_call.mpr trivial) fun _ => issues_throw _

theorem createSwap_by (dto : SwapDto) : (createSwap i dto).Issues (By i (.swap dto)) := by
  have hmove : ∀ site currency delta, By i (.swap dto)
      (.adjustBalance site i i dto.userId currency delta) := by
    intro site currency delta
    refine ⟨rfl, fun u hu => ?_⟩
    cases hu
  have hattempt : ∀ attempt tx, (swapAttempt i dto attempt tx).Issues (By i (.swap dto)) := by
    intro attempt tx
    refine issues_bind (issues_attempt (issues_call.mpr (hmove _ _ _))) fun r => ?_
    cases r with
    | error e => exact issues_done _
    | ok _ =>
      refine issues_bind (issues_call.mpr trivial) fun t => ?_
      refine issues_bind (issues_attempt ?_) fun r => ?_
      · exact issues_bind (issues_call.mpr trivial) fun _ => issues_call.mpr trivial
      · cases r <;> exact issues_done _
  have hloop : ∀ left lastError tx, (swapLoop i dto left lastError tx).Issues
      (By i (.swap dto)) := by
    intro left
    induction left with
    | zero =>
      intro lastError tx
      refine issues_bind (issues_call.mpr (hmove _ _ _)) fun _ => ?_
      refine issues_bind (issues_call.mpr trivial) fun _ => ?_
      exact issues_bind (issues_call.mpr trivial) fun _ => issues_throw _
    | succ left ih =>
      intro lastError tx
      refine issues_bind (hattempt _ _) fun r => ?_
      cases r with
      | ok tx => exact issues_done _
      | error r =>
        obtain ⟨err, tx⟩ := r
        exact issues_bind (issues_call.mpr trivial) fun _ => ih _ _
  refine issues_bind ?_ fun tx => ?_
  · refine issues_bind (issues_call.mpr trivial) fun _ => ?_
    refine issues_bind (issues_call.mpr trivial) fun _ => ?_
    refine issues_bind (issues_call.mpr trivial) fun _ => ?_
    refine issues_bind (issues_rejectWhen _ _) fun _ => ?_
    exact issues_call.mpr trivial
  · exact issues_bind (issues_call.mpr (hmove _ _ _)) fun _ => hloop _ _ _

theorem reverseTransaction_by (id : TxId) (input : ReverseInput) :
    (reverseTransaction i id input).Issues (By i (.reverse id input)) := by
  have hmove : ∀ site tx userId currency delta, By i (.reverse id input)
      (.adjustBalance site i tx userId currency delta) := by
    intro site tx userId currency delta
    refine ⟨rfl, fun u hu => ?_⟩
    cases hu
  refine issues_bind (issues_bind (issues_call.mpr trivial) ?_) fun tx => ?_
  · rintro (_ | tx)
    · exact issues_throw _
    · exact issues_done _
  refine issues_bind (issues_rejectWhen _ _) fun _ => ?_
  refine issues_bind ?_ fun _ => ?_
  · refine issues_bind (issues_call.mpr trivial) fun _ => ?_
    refine issues_bind (issues_call.mpr (hmove _ _ _ _ _)) fun _ => ?_
    exact issues_call.mpr (hmove _ _ _ _ _)
  · refine issues_bind (issues_call.mpr trivial) fun t => ?_
    refine issues_bind (issues_call.mpr trivial) fun _ => ?_
    refine issues_bind (issues_call.mpr trivial) fun t' => ?_
    refine issues_bind (issues_call.mpr trivial) fun _ => ?_
    refine issues_bind (issues_call.mpr trivial) fun _ => ?_
    refine issues_bind (issues_call.mpr trivial) fun _ => ?_
    refine issues_bind (issues_call.mpr trivial) fun _ => ?_
    exact issues_bind (issues_call.mpr trivial) fun _ => issues_done _

theorem prog_by (k : Call) : (prog i k).Issues (By i k) := by
  have hundoes : k.creates = false → (prog i k).Issues (By i k) := by
    intro hk
    refine Issues.mono ?_ (prog_undoes hk)
    intro c hc
    cases c with
    | adjustBalance => cases hc.1
    | _ => trivial
  cases k with
  | transfer dto => exact issues_bind (transfer_by i dto) fun _ => issues_done _
  | deposit dto => exact issues_bind (createDeposit_by i dto) fun _ => issues_done _
  | withdrawal dto => exact issues_bind (createWithdrawal_by i dto) fun _ => issues_done _
  | swap dto => exact issues_bind (createSwap_by i dto) fun _ => issues_done _
  | reverse id input => exact issues_bind (reverseTransaction_by i id input) fun _ => issues_done _
  | cancel id => exact hundoes rfl
  | reconcile => exact hundoes rfl
  | tick ms => exact hundoes rfl

/-- A deposit that returns has just deleted the cache entry. -/
theorem createDeposit_closes (dto : DepositDto) :
    (prog i (.deposit dto)).Closes (· = .invalidateWalletBalanceCache dto.userId) := by
  have hfailed : ∀ tx err (k : Transaction → TxProc (Option Transaction)),
      ((depositFailed dto tx err).bind k).Closes
        (· = .invalidateWalletBalanceCache dto.userId) := by
    intro tx err k
    unfold depositFailed
    simp only [bind_eq, bind_assoc]
    exact closes_bind fun _ => closes_bind fun _ => .error err
  unfold prog createDeposit depositSettle depositConfirm
  simp only [bind_eq, bind_assoc]
  refine closes_bind fun tx => closes_bind fun r => ?_
  cases r with
  | error err => exact hfailed tx err _
  | ok _ =>
    simp only [bind_assoc]
    refine closes_bind fun t => ?_
    -- the two writes, of which the second is the deletion
    refine .await (fun _ => .last rfl (fun _ => rfl) fun err => ?_) fun err => ?_
    · exact hfailed (tx.complete t) err _
    · exact hfailed (tx.complete t) err _

theorem createWithdrawal_closes (dto : WithdrawalDto) :
    (prog i (.withdrawal dto)).Closes (· = .invalidateWalletBalanceCache dto.userId) := by
  have hfailed : ∀ tx err (k : Transaction → TxProc (Option Transaction)),
      ((withdrawalFailed i dto tx err).bind k).Closes
        (· = .invalidateWalletBalanceCache dto.userId) := by
    intro tx err k
    unfold withdrawalFailed
    simp only [bind_eq, bind_assoc]
    exact closes_bind fun _ => closes_bind fun _ => closes_bind fun _ => .error err
  unfold prog createWithdrawal withdrawalSettle withdrawalConfirm
  simp only [bind_eq, bind_assoc]
  refine closes_bind fun tx => closes_bind fun t => ?_
  refine .await (fun _ => .last rfl (fun _ => rfl) fun err => ?_) fun err => ?_
  · exact hfailed (tx.complete t) err _
  · exact hfailed (tx.complete t) err _

end Methods

-- ---------------------------------------------------------------------------
-- The calls, await by await
-- ---------------------------------------------------------------------------

/-- Where the calls are: the transaction services issue their own commands, and
those that delete a cache entry end with that. -/
structure Within (i : ℕ) (k : CacheCall) (c : CacheCmd)
    (next : Except Err c.Reply → CacheProc Answer) : Prop where
  tx : ∀ c', c = .tx c' → ∃ k', k = .tx k' ∧ By i k' c'
  closes : ∀ k' userId, k = .tx k' → invalidates k' = some userId → ∀ r answer,
    next r = .done (.ok answer) →
    c = .tx (.invalidateWalletBalanceCache userId) ∧ r.isOk = true

/-- Nothing is assumed of the replies. -/
def Any (c : CacheCmd) : c.Reply → Prop := fun _ => True

theorem within_of_issues {i : ℕ} {k : CacheCall} (hk : ∀ k', k ≠ .tx k') {p : CacheProc Answer}
    (hp : p.Issues fun c => ∀ c', c ≠ .tx c') : p.Always Any (Within i k) :=
  Proc.always_of_issues (fun _ _ hc => ⟨fun c' heq => absurd heq (hc c'),
    fun k' _ heq => absurd heq (hk k')⟩) hp

theorem txProg_within (i : ℕ) (k : Call) : (txProg i k).Always Any (Within i (.tx k)) := by
  -- by the command, and by the end of the call
  have hclosed : ∀ userId, invalidates k = some userId →
      (prog i k).Closes (· = .invalidateWalletBalanceCache userId) := by
    intro userId hk
    cases k with
    | deposit dto =>
      cases hk
      exact createDeposit_closes i dto
    | withdrawal dto =>
      cases hk
      exact createWithdrawal_closes i dto
    | _ => cases hk
  have hby : (prog i k).Always (fun _ _ => True) fun c _ => By i k c :=
    Proc.always_of_issues (fun _ _ h => h) (prog_by i k)
  cases hinv : invalidates k with
  | none =>
    refine Proc.always_embed (fun _ _ _ => trivial) ?_ hby
    intro c next hc
    refine ⟨fun c' heq => ?_, fun k' userId hk' huser => ?_⟩
    · cases heq
      exact ⟨k, rfl, hc⟩
    · cases hk'
      rw [hinv] at huser
      cases huser
  | some userId =>
    refine Proc.always_embed (fun _ _ _ => trivial) ?_
      (hby.and (Proc.always_of_closes (hclosed userId hinv)))
    intro c next ⟨hc, hlast⟩
    refine ⟨fun c' heq => ?_, fun k' userId' hk' huser r answer hdone => ?_⟩
    · cases heq
      exact ⟨k, rfl, hc⟩
    · cases hk'
      rw [hinv] at huser
      cases huser
      obtain ⟨a, hnext, -⟩ := Proc.embed_returns hdone
      obtain ⟨hcmd, hok⟩ := hlast _ a hnext
      refine ⟨congrArg CacheCmd.tx hcmd, ?_⟩
      cases r with
      | error e => cases hok
      | ok a => rfl

theorem cacheProg_within (i : ℕ) (k : CacheCall) :
    (cacheProg i k).Always Any (Within i k) := by
  cases k with
  | tx k => exact txProg_within i k
  | invalidateWalletBalanceCache userId =>
    refine within_of_issues (fun _ heq => by cases heq) ?_
    exact Proc.issues_bind (Proc.issues_call.mpr fun _ heq => by cases heq) fun _ =>
      Proc.issues_done _
  | getWalletBalances userId =>
    refine within_of_issues (fun _ heq => by cases heq) ?_
    have hrun : ∀ f, (runFetch f).Issues fun c => ∀ c', c ≠ .tx c' := by
      intro f
      refine Proc.issues_bind (Proc.issues_attempt ?_) fun r => ?_
      · exact Proc.issues_bind (Proc.issues_call.mpr fun _ heq => by cases heq) fun _ =>
          Proc.issues_call.mpr fun _ heq => by cases heq
      · exact Proc.issues_call.mpr fun _ heq => by cases heq
    refine Proc.issues_bind (Proc.issues_bind
      (Proc.issues_call.mpr fun _ heq => by cases heq) fun cached => ?_) fun _ =>
        Proc.issues_done _
    cases cached with
    | some cached => exact Proc.issues_done _
    | none =>
      refine Proc.issues_bind (Proc.issues_call.mpr fun _ heq => by cases heq) fun r => ?_
      obtain ⟨f, isNew⟩ := r
      have hwait : (await (.fetched f)).Issues fun c => ∀ c', c ≠ .tx c' :=
        Proc.issues_call.mpr fun _ heq => by cases heq
      cases isNew with
      | true => exact Proc.issues_bind (hrun f) fun _ => hwait
      | false => exact hwait

-- ---------------------------------------------------------------------------
-- What a step does to the copies
-- ---------------------------------------------------------------------------

/-- A pending fetch is one of its user's that is not settled. -/
def Pending (st : State) : Prop :=
  ∀ userId f, st.pendingFetches userId = some f →
    f.userId = userId ∧ (st.fetch f).outcome = none

section Steps

variable {st st' : State} {c : CacheCmd} {a : c.Reply} {userId : UserId} {k : ℕ}

theorem Pending.exec (h : Pending st) (hexec : exec c st = .ok (a, st')) : Pending st' := by
  cases c with
  | tx c =>
    obtain ⟨db, -, rfl⟩ := exec_tx hexec
    intro u f hf
    rw [afterTx_pendingFetches] at hf
    rw [afterTx_fetch]
    exact h u f hf
  | startFetch u =>
    rw [BalanceCache.exec] at hexec
    rcases st.startFetch_cases u with ⟨pending, -, heq⟩ | ⟨-, st₁, heq, -, -, hpend, hfetch⟩
    · rw [heq] at hexec
      cases hexec
      exact h
    · rw [heq] at hexec
      cases hexec
      intro u' f hf
      rw [hpend] at hf
      rw [hfetch]
      by_cases hu : u' = u
      · subst hu
        rw [Function.update_self] at hf
        cases hf
        exact ⟨rfl, by rw [if_pos rfl]⟩
      · rw [Function.update_of_ne hu] at hf
        obtain ⟨huser, hout⟩ := h u' f hf
        have hne : (⟨u, st.nextFetch⟩ : FetchId) ≠ f := by
          rintro rfl
          exact hu huser.symm
        exact ⟨huser, by rw [if_neg hne, hout]⟩
  | loader f' =>
    cases hexec
    intro u f hf
    obtain ⟨huser, hout⟩ := h u f hf
    refine ⟨huser, ?_⟩
    rw [fetch_loaded]
    split
    · rename_i heq
      rw [heq]
      exact hout
    · exact hout
  | finish f' thrown =>
    cases hexec
    intro u f hf
    by_cases hu : u = f'.userId
    · rw [pendingFetches_finish, hu, Function.update_self] at hf
      cases hf
    · rw [pendingFetches_finish, Function.update_of_ne hu] at hf
      obtain ⟨huser, hout⟩ := h u f hf
      have hne : f' ≠ f := by
        rintro rfl
        exact hu huser.symm
      exact ⟨huser, by rw [fetch_finish, if_neg hne, hout]⟩
  | fetched f =>
    obtain ⟨-, rfl⟩ := exec_fetched hexec
    exact h
  | _ =>
    cases hexec
    exact h

/-- The log only grows, and a new entry is of the command that is carried out. -/
theorem exec_log (hexec : exec c st = .ok (a, st')) :
    st'.db.moves = st.db.moves ∨ ∃ site call tx accountId currency delta m, delta ≠ 0 ∧
      c = .tx (.adjustBalance site call tx accountId currency delta) ∧
      m.call = call ∧ m.account = accountId ∧ st'.db.moves = st.db.moves ++ [m] := by
  cases c with
  | tx c =>
    obtain ⟨db, hdb, rfl⟩ := exec_tx hexec
    rw [afterTx_db]
    rcases exec_moves hdb with hsame | ⟨site, call, tx, acc, cur, delta, m, hzero, rfl, hm⟩
    · exact Or.inl hsame
    · exact Or.inr ⟨site, call, tx, acc, cur, delta, m, hzero, rfl, hm⟩
  | startFetch u =>
    rw [BalanceCache.exec] at hexec
    rcases st.startFetch_cases u with ⟨_, -, heq⟩ | ⟨-, st₁, heq, hdb, -⟩
    · rw [heq] at hexec
      cases hexec
      exact Or.inl rfl
    · rw [heq] at hexec
      cases hexec
      exact Or.inl (congrArg Db.moves hdb)
  | fetched f =>
    obtain ⟨-, rfl⟩ := exec_fetched hexec
    exact Or.inl rfl
  | _ =>
    cases hexec
    exact Or.inl rfl

theorem moves_length_le (hexec : exec c st = .ok (a, st')) :
    st.db.moves.length ≤ st'.db.moves.length := by
  rcases exec_log hexec with hsame | ⟨_, _, _, _, _, _, m, _, _, _, _, happ⟩
  · rw [hsame]
  · rw [happ, List.length_append]
    omega

/-- An entry of the new log is an old one, or the one that was added. -/
theorem mem_log_cases (hexec : exec c st = .ok (a, st')) {m : Move}
    (hm : st'.db.moves[k]? = some m) :
    st.db.moves[k]? = some m ∨ (k = st.db.moves.length ∧ k < st'.db.moves.length ∧
      ∃ site tx currency delta, delta ≠ 0 ∧
        c = .tx (.adjustBalance site m.call tx m.account currency delta)) := by
  rcases exec_log hexec with hsame | ⟨site, _, tx, _, cur, delta, m', hzero, hc, rfl, rfl, happ⟩
  · rw [hsame] at hm
    exact Or.inl hm
  · rw [happ] at hm ⊢
    rcases Nat.lt_trichotomy k st.db.moves.length with hlt | heq | hgt
    · rw [List.getElem?_append_left hlt] at hm
      exact Or.inl hm
    · subst heq
      have hlast : m' = m := by simpa using hm
      subst hlast
      exact Or.inr ⟨rfl, by simp, site, tx, cur, delta, hzero, hc⟩
    · have hnone : (st.db.moves ++ [m'])[k]? = none := by
        rw [List.getElem?_eq_none_iff, List.length_append, List.length_singleton]
        omega
      rw [hnone] at hm
      cases hm

/-- **Step lemma.** No copy becomes older than a change again: copies are made
of what is stored now, or of a copy. -/
theorem UpToDate.exec (h : UpToDate st userId k) (hexec : exec c st = .ok (a, st')) :
    UpToDate st' userId k := by
  have hlogged : k < st'.db.moves.length := h.logged.trans_le (moves_length_le hexec)
  cases c with
  | tx c =>
    obtain ⟨db, -, rfl⟩ := exec_tx hexec
    refine ⟨hlogged, fun b hb => h.cache b (afterTx_cache hb), ?_⟩
    rw [afterTx_fetch]
    exact h.fetch
  | startFetch u =>
    rw [BalanceCache.exec] at hexec
    rcases st.startFetch_cases u with ⟨_, -, heq⟩ | ⟨-, st₁, heq, -, hcache, -, hfetch⟩
    · rw [heq] at hexec
      cases hexec
      exact h
    · rw [heq] at hexec
      cases hexec
      refine ⟨hlogged, by rw [hcache]; exact h.cache, ?_⟩
      intro f b hf hb
      rw [hfetch] at hb
      split at hb
      · cases hb
      · exact h.fetch f b hf hb
  | loader f' =>
    cases hexec
    refine ⟨hlogged, h.cache, ?_⟩
    intro f b hf hb
    rw [fetch_loaded] at hb
    split at hb
    · -- read just now
      cases hb
      exact h.logged
    · exact h.fetch f b hf hb
  | cacheSet f =>
    cases hexec
    refine ⟨hlogged, ?_, h.fetch⟩
    intro b hb
    by_cases hu : userId = f.userId
    · subst hu
      exact h.fetch f b rfl (by simpa [State.set] using hb)
    · exact h.cache b (by simpa [State.set, hu] using hb)
  | finish f' thrown =>
    cases hexec
    refine ⟨hlogged, h.cache, ?_⟩
    intro f b hf hb
    rw [fetch_finish] at hb
    split at hb
    · cases hb
    · exact h.fetch f b hf hb
  | cacheDel u =>
    cases hexec
    refine ⟨hlogged, ?_, h.fetch⟩
    intro b hb
    by_cases hu : userId = u
    · subst hu
      simp [State.del] at hb
    · exact h.cache b (by simpa [State.del, hu] using hb)
  | cacheGet u =>
    cases hexec
    exact h
  | fetched f =>
    obtain ⟨-, rfl⟩ := exec_fetched hexec
    exact h

end Steps

-- ---------------------------------------------------------------------------
-- Every interleaving
-- ---------------------------------------------------------------------------

/-- Every logged change was made by a call of the transaction services, and
once that call is past its deletion (if it has one) no copy is older. -/
structure Copies (cfg : CacheConfig) : Prop where
  pending : Pending cfg.state
  made : ∀ (k : ℕ) (m : Move), cfg.state.db.moves[k]? = some m → ∃ call, cfg.called m.call = some (.tx call) ∧
    ∀ userId, invalidates call = some userId → m.account = userId
  upToDate : ∀ (k : ℕ) (m : Move) (call : Call), cfg.state.db.moves[k]? = some m → cfg.called m.call = some (.tx call) →
    (invalidates call = none ∨ Succeeded cfg m.call) → UpToDate cfg.state m.account k

section Interleavings

variable {cfg : CacheConfig} {i : ℕ}
  {th : Thread CacheCall CacheCmd CacheCmd.Reply Err Answer} {c : CacheCmd}
  {next : Except Err c.Reply → CacheProc Answer}

theorem Copies.spawn (h : Copies cfg) (hfresh : cfg.thread i = none) (k : CacheCall) :
    Copies (cfg.spawn i k (cacheProg i k)) := by
  have hold : ∀ (j : ℕ) (m : Move), cfg.state.db.moves[j]? = some m →
      (cfg.spawn i k (cacheProg i k)).called m.call = cfg.called m.call := by
    intro j m hm
    obtain ⟨call, hcalled, -⟩ := h.made j m hm
    rw [Config.called_spawn, if_neg]
    intro heq
    rw [← heq, Config.called, hfresh] at hcalled
    cases hcalled
  refine ⟨h.pending, fun j m hm => ?_, fun j m call hm hcalled hpast => ?_⟩
  · rw [hold j m hm]
    exact h.made j m hm
  · rw [hold j m hm] at hcalled
    refine h.upToDate j m call hm hcalled (hpast.imp_right ?_)
    rintro ⟨th, answer, hth, hdone⟩
    rcases Config.thread_spawn_cases hth with ⟨heq, -⟩ | hth
    · rw [heq, Config.called, hfresh] at hcalled
      cases hcalled
    · exact ⟨th, answer, hth, hdone⟩

/-- A call that has returned after a step had done so before, or returned with
this step. -/
theorem succeeded_resume (hth : cfg.thread i = some th) {r : Except Err (c.Reply × State)} {j : ℕ}
    (h : Succeeded (cfg.resume th next r) j) :
    Succeeded cfg j ∨ (j = i ∧ ∃ answer, next (reply r) = .done (.ok answer)) := by
  obtain ⟨th', answer, hth', hdone⟩ := h
  rcases Config.thread_resume_cases hth hth' with ⟨rfl, rfl⟩ | hold
  · exact Or.inr ⟨rfl, answer, hdone⟩
  · exact Or.inl ⟨th', answer, hold, hdone⟩

/-- A step that is rejected. -/
theorem Copies.rejected (h : Copies cfg) (hth : cfg.thread i = some th)
    (hwithin : Within i th.call c next) (e : Err) :
    Copies (cfg.resume th next (.error e)) := by
  refine ⟨h.pending, fun k m hm => ?_, fun k m call hm hcalled hpast => ?_⟩
  · rw [Config.called_resume hth]
    exact h.made k m hm
  · rw [Config.called_resume hth] at hcalled
    rcases hpast with hnone | hsucc
    · exact h.upToDate k m call hm hcalled (Or.inl hnone)
    rcases succeeded_resume hth hsucc with hold | ⟨rfl, answer, hdone⟩
    · exact h.upToDate k m call hm hcalled (Or.inr hold)
    · -- a method with a deletion does not return on an error
      cases hinv : invalidates call with
      | none => exact h.upToDate k m call hm hcalled (Or.inl hinv)
      | some userId =>
        rw [Config.called_of_thread hth] at hcalled
        have hok := (hwithin.closes call userId (Option.some.inj hcalled) hinv _ _ hdone).2
        cases hok

/-- The deletion of a cache entry by a call that ends with it. -/
theorem upToDate_of_deletion {st st' : State} {userId k : ℕ} {a : Unit}
    (hexec : exec (.tx (.invalidateWalletBalanceCache userId)) st = .ok (a, st'))
    (hlogged : k < st.db.moves.length)
    (hfetch : ∀ f b, f.userId = userId → (st.fetch f).balances = some b → k < b.seen) :
    UpToDate st' userId k := by
  have hle := moves_length_le hexec
  obtain ⟨db, -, rfl⟩ := exec_tx hexec
  refine ⟨hlogged.trans_le hle, ?_, hfetch⟩
  intro b hb
  have hnone : (st.del userId).cache userId = none := Function.update_self ..
  exact absurd (hnone.symm.trans hb) (by simp)

/-- A change of a user's balance of whom no copy is kept. -/
theorem upToDate_of_noCopy {st st' : State} {userId k : ℕ} {c : Cmd} {a : c.Reply}
    (hexec : exec (.tx c) st = .ok (a, st')) (hnone : NoCopy st userId)
    (hlogged : k < st'.db.moves.length) : UpToDate st' userId k := by
  obtain ⟨db, -, rfl⟩ := exec_tx hexec
  refine ⟨hlogged, fun b hb => ?_, fun f b hf hb => ?_⟩
  · exact absurd (hnone.1.symm.trans (afterTx_cache hb)) (by simp)
  · rw [afterTx_fetch, hnone.2 f hf] at hb
    cases hb

/-- A step that is carried out. -/
theorem Copies.step {a : c.Reply} {s' : State} (h : Copies cfg) (hth : cfg.thread i = some th)
    (hproc : th.proc = .await c next) (hwithin : Within i th.call c next)
    (hD : invalidatedInTime.onStep cfg th c false) (hexec : exec c cfg.state = .ok (a, s')) :
    Copies (cfg.resume th next (.ok (a, s'))) := by
  obtain ⟨hmoves, hdeletes⟩ := hD rfl
  have hid := Config.id_of_thread hth
  have hcall := Config.called_of_thread hth
  -- a new entry of the log is of this call
  have hnew : ∀ site (m : Move) tx currency delta,
      c = .tx (.adjustBalance site m.call tx m.account currency delta) →
      ∃ call, th.call = .tx call ∧ m.call = i ∧
        ∀ userId, invalidates call = some userId → m.account = userId := by
    intro site m tx currency delta hc
    obtain ⟨call, hk, hmine, huser⟩ := hwithin.tx _ hc
    exact ⟨call, hk, hmine, huser⟩
  refine ⟨h.pending.exec hexec, fun k m hm => ?_, fun k m call hm hcalled hpast => ?_⟩
  · rw [Config.called_resume hth]
    rcases mem_log_cases hexec hm with hold | ⟨-, -, site, tx, cur, delta, -, hc⟩
    · exact h.made k m hold
    · obtain ⟨call, hk, hmine, huser⟩ := hnew site m tx cur delta hc
      rw [hmine, hcall, hk]
      exact ⟨call, rfl, huser⟩
  · rw [Config.called_resume hth] at hcalled
    rw [Config.resume_state, after_ok]
    rcases mem_log_cases hexec hm with hold | ⟨rfl, hlogged, site, tx, cur, delta, hzero, hc⟩
    · -- an old entry: its call was past its deletion before, or is now
      cases hinv : invalidates call with
      | none => exact (h.upToDate k m call hold hcalled (Or.inl hinv)).exec hexec
      | some userId =>
        have hsucc := hpast.resolve_left (by rw [hinv]; simp)
        rcases succeeded_resume hth hsucc with hbefore | ⟨heq, answer, hdone⟩
        · exact (h.upToDate k m call hold hcalled (Or.inr hbefore)).exec hexec
        · obtain ⟨call', hcalled', haccount⟩ := h.made k m hold
          rw [hcalled'] at hcalled
          cases hcalled
          rw [haccount userId hinv]
          rw [heq, hcall] at hcalled'
          have hk : th.call = .tx call := Option.some.inj hcalled'
          obtain ⟨rfl, -⟩ := hwithin.closes call userId hk hinv _ _ hdone
          refine upToDate_of_deletion hexec (List.getElem?_eq_some_iff.mp hold).1 ?_
          intro f b hf hb
          exact hdeletes userId rfl f b k m hf hb hold (heq.trans hid.symm)
    · -- the new entry
      obtain ⟨call', hk, hmine, -⟩ := hnew site m tx cur delta hc
      rw [hmine, hcall, hk] at hcalled
      cases hcalled
      subst hc
      cases hinv : invalidates call with
      | none =>
        exact upToDate_of_noCopy hexec
          (hmoves call site m.call tx m.account cur delta hk hinv rfl hzero) hlogged
      | some userId =>
        have hsucc := hpast.resolve_left (by rw [hinv]; simp)
        rw [hmine] at hsucc
        rcases succeeded_resume hth hsucc with ⟨th', answer, hth', hdone⟩ | ⟨-, answer, hdone⟩
        · -- it was waiting for this command
          obtain rfl : th = th' := Option.some.inj (hth.symm.trans hth')
          rw [hproc] at hdone
          cases hdone
        · obtain ⟨hdel, -⟩ := hwithin.closes call userId hk hinv _ _ hdone
          cases hdel

theorem copies_of_reach {db : Db} (h : Reach cacheServer invalidatedInTime (start db) cfg) :
    Copies cfg := by
  refine (Reach.invariant_always (I := Copies) (G := Any) (Q := Within) ?init rfl cacheProg_within
    ?call ?step h).1
  case init =>
    refine ⟨fun u f hf => ?_, fun k m hm => ?_, fun k m call hm => ?_⟩
    · cases hf
    · cases hm
    · cases hm
  case call =>
    intro cfg i k hI hfresh _
    exact hI.spawn hfresh k
  case step =>
    intro cfg i fault th c next hI hth hproc hwithin hD
    refine ⟨?_, fun _ _ _ => trivial⟩
    cases hout : outcome fault (cacheServer.exec c cfg.state) with
    | error e => exact hI.rejected hth hwithin e
    | ok r =>
      obtain ⟨a, s'⟩ := r
      have hexec : exec c cfg.state = .ok (a, s') := (outcome_eq_ok hout).2
      rw [hout] at hD
      exact hI.step hth hproc hwithin hD hexec

end Interleavings

-- ---------------------------------------------------------------------------
-- A call that starts afterwards
-- ---------------------------------------------------------------------------

section Afterwards

variable (userId : UserId) (k : ℕ)

/-- What a fetch of the user's balances is settled with from now on is not
older than the change number `k`. -/
def SettlesUpToDate (st st' : State) : Prop :=
  ∀ f b, f.userId = userId → (st'.fetch f).outcome = some (.ok b) →
    (st.fetch f).outcome = some (.ok b) ∨ k < b.seen

theorem settlesUpToDate_of_outcome {st st' : State}
    (h : ∀ f, (st'.fetch f).outcome = (st.fetch f).outcome ∨ (st'.fetch f).outcome = none) :
    SettlesUpToDate userId k st st' := by
  intro f b _ hb
  rcases h f with hsame | hnone
  · rw [hsame] at hb
    exact Or.inl hb
  · rw [hnone] at hb
    cases hb

theorem settlesUpToDate_exec {st st' : State} {c : CacheCmd} {a : c.Reply}
    (h : UpToDate st userId k) (hexec : exec c st = .ok (a, st')) :
    SettlesUpToDate userId k st st' := by
  cases c with
  | tx c =>
    obtain ⟨db, -, rfl⟩ := exec_tx hexec
    refine settlesUpToDate_of_outcome userId k fun f => Or.inl ?_
    rw [afterTx_fetch]
  | startFetch u =>
    rw [exec] at hexec
    rcases st.startFetch_cases u with ⟨_, -, heq⟩ | ⟨-, st₁, heq, -, -, -, hfetch⟩
    · rw [heq] at hexec
      cases hexec
      exact settlesUpToDate_of_outcome userId k fun f => Or.inl rfl
    · rw [heq] at hexec
      cases hexec
      refine settlesUpToDate_of_outcome userId k fun f => ?_
      rw [hfetch]
      split
      · exact Or.inr rfl
      · exact Or.inl rfl
  | loader f' =>
    cases hexec
    refine settlesUpToDate_of_outcome userId k fun f => Or.inl ?_
    rw [fetch_loaded]
    split
    · rename_i heq
      rw [heq]
    · rfl
  | finish f' thrown =>
    cases hexec
    intro f b hf hb
    rw [fetch_finish] at hb
    split at hb
    · -- the promise is settled with what the frame holds
      rename_i heq
      subst heq
      have hsettled : st.settled f' thrown = some (.ok b) := hb
      unfold State.settled at hsettled
      split at hsettled
      · rename_i houtcome
        exact Or.inl (houtcome.trans hsettled)
      · split at hsettled
        · cases hsettled
        · obtain ⟨b', hb', hok⟩ := Option.map_eq_some_iff.mp hsettled
          cases hok
          exact Or.inr (h.fetch f' b hf hb')
    · exact Or.inl hb
  | fetched f =>
    obtain ⟨-, rfl⟩ := exec_fetched hexec
    exact settlesUpToDate_of_outcome userId k fun f => Or.inl rfl
  | _ =>
    cases hexec
    exact settlesUpToDate_of_outcome userId k fun f => Or.inl rfl

theorem develops :
    Develops exec (fun st => Pending st ∧ UpToDate st userId k) (SettlesUpToDate userId k) where
  refl _ _ _ _ hb := Or.inl hb
  trans s₁ s₂ s₃ h₁₂ h₂₃ f b hf hb := by
    rcases h₂₃ f b hf hb with hb₂ | hlt
    · exact h₁₂ f b hf hb₂
    · exact Or.inr hlt
  step c st a st' hI hexec :=
    ⟨⟨hI.1.exec hexec, hI.2.exec hexec⟩, settlesUpToDate_exec userId k hI.2 hexec⟩

/-- The answer was read after the change number `k`. -/
def ReadAfter (answer : Answer) : Prop := ∀ b, answer = .balances b → k < b.seen

/-- Waiting for a promise that is not settled yet. -/
theorem fetched_follows {f : FetchId} (hf : f.userId = userId) {st : State}
    (hopen : (st.fetch f).outcome = none) :
    ((await (.fetched f)).bind fun b => Proc.done (.ok (Answer.balances b))).Follows exec
      (fun st => Pending st ∧ UpToDate st userId k) (SettlesUpToDate userId k) (ReadAfter k)
      st := by
  refine Proc.follows_call_bind fun s' hle _ b s'' hexec => ?_
  obtain ⟨houtcome, -⟩ := exec_fetched hexec
  intro answer hanswer b' hb'
  cases hanswer
  cases hb'
  rcases hle f b hf houtcome with hbefore | hlt
  · rw [hopen] at hbefore
    cases hbefore
  · exact hlt

/-- The three ways in which a call comes to its balances. -/
theorem getWalletBalances_follows (i : ℕ) (st : State) :
    (cacheProg i (.getWalletBalances userId)).Follows exec
      (fun st => Pending st ∧ UpToDate st userId k) (SettlesUpToDate userId k) (ReadAfter k)
      st := by
  unfold cacheProg getWalletBalances
  simp only [Proc.bind_eq, Proc.bind_assoc]
  refine Proc.follows_call_bind fun s' _ hI cached s'' hexec => ?_
  cases hexec
  cases hcached : s'.cache userId with
  | some b =>
    -- from the cache
    intro answer hanswer b' hb'
    cases hanswer
    cases hb'
    exact hI.2.cache b hcached
  | none =>
    simp only [Proc.bind_assoc]
    refine Proc.follows_call_bind fun s₁ _ hI₁ r s₂ hexec => ?_
    -- the promise is open, whether it was pending or is new
    have hopen : r.1.userId = userId ∧ (s₂.fetch r.1).outcome = none := by
      rw [exec] at hexec
      rcases s₁.startFetch_cases userId with ⟨pending, hpending, heq⟩ |
        ⟨-, st₁, heq, -, -, -, hfetch⟩
      · rw [heq] at hexec
        cases hexec
        exact hI₁.1 userId pending hpending
      · rw [heq] at hexec
        cases hexec
        exact ⟨rfl, by rw [hfetch, if_pos rfl]⟩
    obtain ⟨f, isNew⟩ := r
    cases isNew with
    | false => exact fetched_follows userId k hopen.1 hopen.2
    | true =>
      show (((runFetch f).bind fun _ => await (.fetched f)).bind
        fun b => Proc.done (.ok (Answer.balances b))).Follows exec _ _ _ s₂
      rw [Proc.bind_assoc]
      refine Proc.follows_bind (develops userId k) fun s' hle _ => ?_
      exact (fetched_follows userId k hopen.1 hopen.2).later (develops userId k) hle

end Afterwards

/-- **No stale balances.** The call `i` of the transaction services has
returned and changed a balance of the user (the entry `k` of the log); what a
later call `j` of `getWalletBalances` returns was read after that change. -/
theorem balances_not_stale {db : Db} {cfg₁ cfg₂ : CacheConfig} {i j k : ℕ} {userId : UserId}
    {m : Move} {th : Thread CacheCall CacheCmd CacheCmd.Reply Err Answer} {b : Balances}
    (hbefore : Reach cacheServer invalidatedInTime (start db) cfg₁)
    (hreturned : Succeeded cfg₁ i) (hlogged : cfg₁.state.db.moves[k]? = some m)
    (hcall : m.call = i) (haccount : m.account = userId)
    (hafter : Reach cacheServer invalidatedInTime
      (cfg₁.spawn j (.getWalletBalances userId) (cacheProg j (.getWalletBalances userId))) cfg₂)
    (hth : cfg₂.thread j = some th) (hdone : th.proc = .done (.ok (.balances b))) :
    k < b.seen := by
  have hcopies := copies_of_reach hbefore
  obtain ⟨call, hcalled, -⟩ := hcopies.made k m hlogged
  subst hcall haccount
  have hnow := hcopies.upToDate k m call hlogged hcalled (Or.inr hreturned)
  obtain ⟨-, th', hth', hfollows⟩ := hafter.follow (develops m.account k)
    ⟨hcopies.pending, hnow⟩ (by rw [Config.thread_spawn, if_pos rfl])
    (getWalletBalances_follows m.account k j cfg₁.state)
  obtain rfl : th = th' := Option.some.inj (hth.symm.trans hth')
  rw [hdone] at hfollows
  exact hfollows _ rfl b rfl

-- ---------------------------------------------------------------------------
-- Runs
-- ---------------------------------------------------------------------------

/-- No running fetch holds balances of the user. -/
def noFrame (st : State) (userId : UserId) : Bool :=
  st.fetches.all fun e => decide (e.1.userId ≠ userId) || e.2.balances.isNone

theorem noFrame_spec {st : State} {userId : UserId} (h : noFrame st userId = true) {f : FetchId}
    (hf : f.userId = userId) : (st.fetch f).balances = none := by
  cases hb : (st.fetch f).balances with
  | none => rfl
  | some b =>
    have hentry := List.all_eq_true.mp h _ (mem_of_fetch hb)
    simp [hf, hb] at hentry

/-- The condition, as a check on a schedule: it asks more of a deletion. -/
def copiesGone (cfg : CacheConfig) (th : Thread CacheCall CacheCmd CacheCmd.Reply Err Answer) :
    CacheCmd → Bool
  | .tx (.adjustBalance _ _ _ userId _ _) =>
    match th.call with
    | .tx k => (invalidates k).isSome ||
        (decide (cfg.state.cache userId = none) && noFrame cfg.state userId)
    | _ => true
  | .tx (.invalidateWalletBalanceCache userId) => noFrame cfg.state userId
  | _ => true

theorem invalidatedInTime_of_check {cfg : CacheConfig}
    {th : Thread CacheCall CacheCmd CacheCmd.Reply Err Answer} {c : CacheCmd} {failed : Bool}
    (h : copiesGone cfg th c = true) : invalidatedInTime.onStep cfg th c failed := by
  intro _
  constructor
  · intro k site call tx userId currency delta hk hinv hc _
    subst hc
    simp only [copiesGone, hk, hinv, Option.isSome_none, Bool.false_or, Bool.and_eq_true,
      decide_eq_true_eq] at h
    exact ⟨h.1, fun f hf => noFrame_spec h.2 hf⟩
  · intro userId hc f b k m hf hb
    subst hc
    rw [noFrame_spec h hf] at hb
    cases hb

/-- `n` steps of the call `i`. -/
def steps (i n : ℕ) : List (Event CacheCall Err) := List.replicate n (.step i none)

/-- The balances of user 1 are cached, user 1 deposits 25.00, and the balances
are asked for again. -/
def askedAgain : List (Event CacheCall Err) :=
  [.call 0 (.getWalletBalances 1)] ++ steps 0 6 ++
    [.call 1 (.tx (.deposit ⟨1, 25, "USD", "d"⟩))] ++ steps 1 10

/-- What the call `i` has returned. -/
def answerOf (cfg : CacheConfig) (i : ℕ) : Option Answer :=
  (cfg.thread i).bind fun th => th.proc.returned

theorem thread_of_answerOf {cfg : CacheConfig} {i : ℕ} {answer : Answer}
    (h : answerOf cfg i = some answer) :
    ∃ th, cfg.thread i = some th ∧ th.proc = .done (.ok answer) := by
  obtain ⟨th, hth, hreturned⟩ := Option.bind_eq_some_iff.mp h
  refine ⟨th, hth, ?_⟩
  cases hproc : th.proc with
  | await c next =>
    rw [hproc] at hreturned
    cases hreturned
  | done r =>
    rw [hproc] at hreturned
    cases r with
    | error e => cases hreturned
    | ok a =>
      cases hreturned
      rfl

/-- A call that asks for the balances of user 1 after `cfg`. -/
def askAfter (cfg : CacheConfig) (j : ℕ) : CacheConfig :=
  cfg.spawn j (.getWalletBalances 1) (cacheProg j (.getWalletBalances 1))

theorem balances_not_stale_deposit :
    ∃ cfg₁ cfg₂ m th b, Reach cacheServer invalidatedInTime (start (.deployed [])) cfg₁ ∧
      Succeeded cfg₁ 1 ∧ cfg₁.state.db.moves[0]? = some m ∧ m.call = 1 ∧ m.account = 1 ∧
      Reach cacheServer invalidatedInTime (askAfter cfg₁ 2) cfg₂ ∧
      cfg₂.thread 2 = some th ∧ th.proc = .done (.ok (.balances b)) ∧
      0 < b.seen ∧ b.balances = [("USD", 2500)] := by
  have hrun : ((cacheServer.runChecked (fun cfg th c _ => copiesGone cfg th c)
      (start (.deployed [])) askedAgain).bind fun cfg₁ =>
        (cacheServer.runChecked (fun cfg th c _ => copiesGone cfg th c)
          (askAfter cfg₁ 2) (steps 2 6)).map fun cfg₂ =>
            ((answerOf cfg₁ 1).isSome, cfg₁.state.db.moves, answerOf cfg₂ 2)) =
      some (true, [⟨1, 1, 1, "USD", 2500⟩], some (.balances ⟨[("USD", 2500)], 1⟩)) := by
    decide +kernel
  obtain ⟨cfg₁, hcfg₁, hrest⟩ := Option.bind_eq_some_iff.mp hrun
  obtain ⟨cfg₂, hcfg₂, hsummary⟩ := Option.map_eq_some_iff.mp hrest
  obtain ⟨hreturned, hmoves, hanswer⟩ : (answerOf cfg₁ 1).isSome = true ∧
      cfg₁.state.db.moves = [⟨1, 1, 1, "USD", 2500⟩] ∧
      answerOf cfg₂ 2 = some (.balances ⟨[("USD", 2500)], 1⟩) := by
    simpa only [Prod.mk.injEq] using hsummary
  have hreach₁ : Reach cacheServer invalidatedInTime (start (.deployed [])) cfg₁ :=
    .of_runChecked .refl (fun _ _ _ _ => trivial) (fun _ _ _ _ h => invalidatedInTime_of_check h)
      hcfg₁
  have hreach₂ : Reach cacheServer invalidatedInTime (askAfter cfg₁ 2) cfg₂ :=
    .of_runChecked .refl (fun _ _ _ _ => trivial) (fun _ _ _ _ h => invalidatedInTime_of_check h)
      hcfg₂
  obtain ⟨answer, hans⟩ := Option.isSome_iff_exists.mp hreturned
  obtain ⟨th₁, hth₁, hdone₁⟩ := thread_of_answerOf hans
  obtain ⟨th, hth, hdone⟩ := thread_of_answerOf hanswer
  have hlogged : cfg₁.state.db.moves[0]? = some ⟨1, 1, 1, "USD", 2500⟩ := by
    rw [hmoves]
    rfl
  exact ⟨cfg₁, cfg₂, _, th, _, hreach₁, ⟨th₁, answer, hth₁, hdone₁⟩, hlogged, rfl, rfl, hreach₂,
    hth, hdone, balances_not_stale hreach₁ ⟨th₁, answer, hth₁, hdone₁⟩ hlogged rfl rfl hreach₂ hth
      hdone, rfl⟩

/-- User 2's empty balances are cached; user 1 transfers 60.00 to user 2. -/
def transferAfterCaching : List (Event CacheCall Err) :=
  [.call 0 (.getWalletBalances 1)] ++ steps 0 6 ++
    [.call 1 (.tx (.transfer ⟨2, 1, 60, "USD", "t", none⟩))] ++ steps 1 13

/-- A fetch of user 1's balances reads; user 1's deposit runs to its end; the
fetch goes on. -/
def depositDuringFetch : List (Event CacheCall Err) :=
  [.call 0 (.getWalletBalances 1)] ++ steps 0 3 ++
    [.call 1 (.tx (.deposit ⟨1, 25, "USD", "d"⟩))] ++ steps 1 10 ++ steps 0 3

/-- Account 2 holds 100.00 USD. -/
def funded : Db := .deployed [{ Wallet.create 2 "USD" with balance := 10000 }]

/-- The schedule ends when call 1 has returned and changed a balance of user 1;
a call that starts then returns balances read before that change. -/
def StaleAfter (es : List (Event CacheCall Err)) : Prop :=
  ∃ (k : ℕ) (m : Move) (b : Balances),
    (answerOf (cacheServer.play (start funded) es) 1).isSome = true ∧
    (cacheServer.play (start funded) es).state.db.moves[k]? = some m ∧ m.call = 1 ∧
    m.account = 1 ∧
    answerOf (cacheServer.play (askAfter (cacheServer.play (start funded) es) 2) (steps 2 6)) 2 =
      some (.balances b) ∧ b.seen ≤ k

theorem balances_stale : StaleAfter transferAfterCaching ∧ StaleAfter depositDuringFetch ∧
    ∀ es, Reach cacheServer .free (start funded) (cacheServer.play (start funded) es) ∧
      Reach cacheServer .free (askAfter (cacheServer.play (start funded) es) 2)
        (cacheServer.play (askAfter (cacheServer.play (start funded) es) 2) (steps 2 6)) := by
  refine ⟨⟨1, ⟨1, 1, 1, "USD", 6000⟩, ⟨[], 0⟩, ?_⟩, ⟨0, ⟨1, 1, 1, "USD", 2500⟩, ⟨[], 0⟩, ?_⟩, ?_⟩
  · decide +kernel
  · decide +kernel
  · exact fun es => ⟨Reach.refl.play es, Reach.refl.play _⟩

end BalanceCache

end NexaFx
