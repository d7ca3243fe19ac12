import NexaFx.Safety.AtMostOnce

/-!
# NexaFx — isolation between users

Does what one user requests show in what another user gets? The handlers take
the user from the token, but the table of idempotency keys is shared: key and
hash are computed from header, method, URL and body alone.

The two-run statement is proved by *removing* the requests of user `A` from a
schedule (`withoutUser`): as long as no key of theirs is used by anyone else
(`PrivateKeys`), the schedule without them leads everybody else to the same
place (`Agree.play`), so any two schedules that differ only in the requests of
`A` do (`isolation`).
-/

namespace NexaFx

namespace Idempotency

open Async Proc

variable {J H : Type} {hashRequest : String → String → J → H}

/-! ## Schedules without a user -/

/-- The call is a request of the user. -/
def IdemCall.ofUser (A : ℕ) : IdemCall J → Bool
  | .request r => decide (r.userId = A)
  | _ => false

/-- The first call with identity `i` is a request of the user. -/
def madeBy (A : ℕ) (es : List (Event (IdemCall J) Err)) (i : ℕ) : Bool :=
  match es with
  | [] => false
  | .call j k :: es => if j = i then k.ofUser A else madeBy A es i
  | .step _ _ :: es => madeBy A es i

/-- The schedule without the requests of the user and their steps. -/
def withoutUser (A : ℕ) (es : List (Event (IdemCall J) Err)) : List (Event (IdemCall J) Err) :=
  es.filter fun e => !madeBy A es e.id

/-- No two users send the same key. -/
def PrivateKeys (es : List (Event (IdemCall J) Err)) : Prop :=
  ∀ i r j r' key, .call i (.request r) ∈ es → .call j (.request r') ∈ es →
    checkKey r.idempotencyKey = .ok key → checkKey r'.idempotencyKey = .ok key →
    r.userId = r'.userId

/-! ## Agreement up to some calls and keys -/

section Agree

variable (own : ℕ → Bool) (keys : String → Prop)

/-- The tables agree on the other keys, and the logs on the other calls. -/
structure StateAgree (db db' : IdemDb J H) : Prop where
  now : db'.now = db.now
  ttlHours : db'.ttlHours = db.ttlHours
  nodup : (db.records.map Record.key).Nodup
  nodup' : (db'.records.map Record.key).Nodup
  records : ∀ key, ¬ keys key → db'.findByKey key = db.findByKey key
  executed : ∀ i r, own i = false → ((i, r) ∈ db'.executed ↔ (i, r) ∈ db.executed)

/-- The other calls are where they are in the first configuration; the count
that a finished cleanup returns may differ. -/
structure Agree [DecidableEq H] (hashRequest : String → String → J → H)
    (cfg cfg' : IdemConfig J H) : Prop where
  state : StateAgree own keys cfg.state cfg'.state
  stage : ∀ i th, cfg.thread i = some th → Stage hashRequest i th
  keyed : ∀ i th r key, cfg.thread i = some th → th.call = .request r →
    checkKey r.idempotencyKey = .ok key → (own i = true ↔ keys key)
  mine : ∀ i th, own i = true → cfg.thread i = some th → ∃ r, th.call = .request r
  absent : ∀ i, own i = true → cfg'.thread i = none
  threads : ∀ i, own i = false → cfg'.thread i = cfg.thread i ∨
    ∃ th th', cfg.thread i = some th ∧ cfg'.thread i = some th' ∧ th.call = .cleanup ∧
      th'.call = .cleanup ∧ th.proc.isDone = true ∧ th'.proc.isDone = true

end Agree

section StateSteps

variable {own : ℕ → Bool} {keys : String → Prop} {db db' : IdemDb J H}

theorem StateAgree.tick (h : StateAgree own keys db db') (ms : ℕ) :
    StateAgree own keys { db with now := db.now + ms } { db' with now := db'.now + ms } :=
  { h with now := congrArg (· + ms) h.now }

theorem StateAgree.deleteExpired (h : StateAgree own keys db db') :
    StateAgree own keys { db with records := db.records.filter db.fresh }
      { db' with records := db'.records.filter db'.fresh } := by
  have hfresh : db'.fresh = db.fresh := by
    funext r
    rw [IdemDb.fresh, IdemDb.fresh, h.now]
  refine ⟨h.now, h.ttlHours, Table.nodup_filter _ h.nodup _, Table.nodup_filter _ h.nodup' _, ?_,
    h.executed⟩
  intro key hkey
  change Table.get Record.key (db'.records.filter db'.fresh) key =
    Table.get Record.key (db.records.filter db.fresh) key
  rw [Table.get_filter_of_nodup _ h.nodup', Table.get_filter_of_nodup _ h.nodup, hfresh]
  exact congrArg (Option.filter db.fresh) (h.records key hkey)

/-- The same handler runs on both sides. -/
theorem StateAgree.handle (h : StateAgree own keys db db') (i : ℕ) (r : Request J) :
    StateAgree own keys { db with executed := db.executed ++ [(i, r)] }
      { db' with executed := db'.executed ++ [(i, r)] } := by
  refine ⟨h.now, h.ttlHours, h.nodup, h.nodup', h.records, ?_⟩
  intro j r' hj
  simp only [List.mem_append, h.executed j r' hj]

/-- A handler of an own call runs on one side. -/
theorem StateAgree.handle_own (h : StateAgree own keys db db') {i : ℕ} (hi : own i = true)
    (r : Request J) :
    StateAgree own keys { db with executed := db.executed ++ [(i, r)] } db' := by
  refine ⟨h.now, h.ttlHours, h.nodup, h.nodup', h.records, ?_⟩
  intro j r' hj
  rw [h.executed j r' hj]
  have hne : (j, r') ≠ (i, r) := by
    rintro ⟨⟩
    rw [hi] at hj
    cases hj
  simp [hne]

/-- The same response is stored on both sides. -/
theorem StateAgree.store (h : StateAgree own keys db db') (i : ℕ) (key : String) (hash : H)
    (d : J) (s : ℕ) :
    StateAgree own keys (db.store i (db.record key hash d s))
      (db'.store i (db'.record key hash d s)) := by
  have hrec : db'.record key hash d s = db.record key hash d s := by
    rw [IdemDb.record, IdemDb.record, h.now, h.ttlHours]
  refine ⟨h.now, h.ttlHours, Table.nodup_put _ h.nodup, Table.nodup_put _ h.nodup', ?_, h.executed⟩
  intro key' hkey'
  change Table.get Record.key (Table.put Record.key (db'.record key hash d s) db'.records) key' =
    Table.get Record.key (Table.put Record.key (db.record key hash d s) db.records) key'
  rw [Table.get_put, Table.get_put, hrec]
  split
  · rfl
  · exact h.records key' hkey'

/-- A response under one of the keys is stored on one side. -/
theorem StateAgree.store_own (h : StateAgree own keys db db') {key : String} (hkey : keys key)
    (i : ℕ) (hash : H) (d : J) (s : ℕ) :
    StateAgree own keys (db.store i (db.record key hash d s)) db' := by
  refine ⟨h.now, h.ttlHours, Table.nodup_put _ h.nodup, h.nodup', ?_, h.executed⟩
  intro key' hkey'
  have hne : (db.record key hash d s).key ≠ key' := by
    rintro rfl
    exact hkey' hkey
  exact (h.records key' hkey').trans (Table.get_put_ne _ hne).symm

end StateSteps

/-! ## One event -/

section Events

variable [DecidableEq H] {own : ℕ → Bool} {keys : String → Prop} {cfg cfg' : IdemConfig J H}
  {i : ℕ} {th : IdemThread J H} {c : IdemCmd J H}
  {next : Except Err c.Reply → IdemProc J H (Answer J)}

/-- An own call takes a step on one side. -/
theorem Agree.resume_own (h : Agree own keys hashRequest cfg cfg') (hth : cfg.thread i = some th)
    (hown : own i = true) {r : Except Err (c.Reply × IdemDb J H)}
    (hstate : StateAgree own keys (after r cfg.state) cfg'.state)
    (hstage : Stage hashRequest i { th with begun := true, proc := next (reply r) }) :
    Agree own keys hashRequest (cfg.resume th next r) cfg' := by
  have hthreads : ∀ j th', (cfg.resume th next r).thread j = some th' →
      (j = i ∧ th' = { th with begun := true, proc := next (reply r) }) ∨
      cfg.thread j = some th' := fun j th' => Config.thread_resume_cases hth
  refine ⟨hstate, ?_, ?_, ?_, h.absent, ?_⟩
  · intro j th' hth'
    rcases hthreads j th' hth' with ⟨rfl, rfl⟩ | hold
    · exact hstage
    · exact h.stage j th' hold
  · intro j th' r' key hth' hcall hkey
    rcases hthreads j th' hth' with ⟨rfl, rfl⟩ | hold
    · exact h.keyed j th r' key hth hcall hkey
    · exact h.keyed j th' r' key hold hcall hkey
  · intro j th' hj hth'
    rcases hthreads j th' hth' with ⟨rfl, rfl⟩ | hold
    · exact h.mine j th hj hth
    · exact h.mine j th' hj hold
  · intro j hj
    have hji : j ≠ i := by
      rintro rfl
      rw [hown] at hj
      cases hj
    rw [Config.thread_resume_ne hth hji]
    exact h.threads j hj

/-- An event of the calls that are left out. -/
theorem Agree.advance_own (h : Agree own keys hashRequest cfg cfg')
    {e : Event (IdemCall J) Err} (hown : own e.id = true)
    (hfit : ∀ i k, e = .call i k → cfg.thread i = none → ∃ r, k = .request r ∧
      ∀ key, checkKey r.idempotencyKey = .ok key → keys key) :
    Agree own keys hashRequest ((server hashRequest).advance cfg e) cfg' := by
  cases e with
  | call i k =>
    change own i = true at hown
    cases hth : cfg.thread i with
    | some th =>
      rw [System.advance_call_taken hth]
      exact h
    | none =>
      obtain ⟨r, rfl, hkeys⟩ := hfit i k rfl hth
      rw [System.advance_call hth]
      refine ⟨h.state, ?_, ?_, ?_, h.absent, ?_⟩
      · intro j th hj
        rcases Config.thread_spawn_cases hj with ⟨rfl, rfl⟩ | hold
        · exact .made rfl rfl
        · exact h.stage j th hold
      · intro j th r' key hj hcall hkey
        rcases Config.thread_spawn_cases hj with ⟨rfl, rfl⟩ | hold
        · cases hcall
          exact ⟨fun _ => hkeys key hkey, fun _ => hown⟩
        · exact h.keyed j th r' key hold hcall hkey
      · intro j th hjown hj
        rcases Config.thread_spawn_cases hj with ⟨rfl, rfl⟩ | hold
        · exact ⟨r, rfl⟩
        · exact h.mine j th hjown hold
      · intro j hj
        have hij : i ≠ j := by
          rintro rfl
          rw [hown] at hj
          cases hj
        rw [Config.thread_spawn, if_neg hij]
        exact h.threads j hj
  | step i fault =>
    change own i = true at hown
    cases hth : cfg.thread i with
    | none =>
      rw [System.advance_none hth]
      exact h
    | some th =>
      cases hproc : th.proc with
      | done r =>
        rw [System.advance_done hth (congrArg Proc.isDone hproc)]
        exact h
      | await c next =>
        rw [System.advance_await hth hproc]
        split
        · have hawaits := (h.stage i th hth).awaits hproc
          refine h.resume_own hth hown ?_ (hawaits.stage fault cfg.state)
          obtain ⟨r, hcall⟩ := h.mine i th hown hth
          cases fault with
          | some e => exact h.state
          | none =>
            cases hawaits with
            | tick ms next htick =>
              rw [hcall] at htick
              cases htick
            | cleanup next hcleanup =>
              rw [hcall] at hcleanup
              cases hcleanup
            | lookup r' key next => exact h.state
            | handle r' key next => exact h.state.handle_own hown r'
            | store r' key d next _ hcall' hkey =>
              exact h.state.store_own ((h.keyed i th r' key hth hcall' hkey).mp hown) i _ d CREATED
        · exact h

/-- The same call takes the same step on both sides. -/
theorem Agree.resume_both (h : Agree own keys hashRequest cfg cfg') (hth : cfg.thread i = some th)
    (hth' : cfg'.thread i = some th) (hown : own i = false)
    {r r' : Except Err (c.Reply × IdemDb J H)}
    (hstate : StateAgree own keys (after r cfg.state) (after r' cfg'.state))
    (hstage : Stage hashRequest i { th with begun := true, proc := next (reply r) })
    (hreply : reply r' = reply r ∨ th.call = .cleanup ∧ (next (reply r)).isDone = true ∧
      (next (reply r')).isDone = true) :
    Agree own keys hashRequest (cfg.resume th next r) (cfg'.resume th next r') := by
  refine ⟨hstate, ?_, ?_, ?_, ?_, ?_⟩
  · intro j t ht
    rcases Config.thread_resume_cases hth ht with ⟨rfl, rfl⟩ | hold
    · exact hstage
    · exact h.stage j t hold
  · intro j t r' key ht hcall hkey
    rcases Config.thread_resume_cases hth ht with ⟨rfl, rfl⟩ | hold
    · exact h.keyed j th r' key hth hcall hkey
    · exact h.keyed j t r' key hold hcall hkey
  · intro j t hj ht
    rcases Config.thread_resume_cases hth ht with ⟨rfl, rfl⟩ | hold
    · exact h.mine j th hj hth
    · exact h.mine j t hj hold
  · intro j hj
    have hji : j ≠ i := by
      rintro rfl
      rw [hown] at hj
      cases hj
    rw [Config.thread_resume_ne hth' hji]
    exact h.absent j hj
  · intro j hj
    by_cases hji : j = i
    · subst hji
      rw [Config.thread_resume, Config.thread_resume, if_pos (Config.id_of_thread hth),
        if_pos (Config.id_of_thread hth)]
      rcases hreply with heq | ⟨hcall, hdone, hdone'⟩
      · rw [heq]
        exact Or.inl rfl
      · exact Or.inr ⟨_, _, rfl, rfl, hcall, hcall, hdone, hdone'⟩
    · rw [Config.thread_resume_ne hth hji, Config.thread_resume_ne hth' hji]
      exact h.threads j hj

/-- A step of the others, on both sides. -/
theorem Agree.step_other (h : Agree own keys hashRequest cfg cfg') (hth : cfg.thread i = some th)
    (hth' : cfg'.thread i = some th) (hown : own i = false) (hproc : th.proc = .await c next)
    (fault : Option Err) :
    Agree own keys hashRequest (cfg.resume th next (outcome fault (exec c cfg.state)))
      (cfg'.resume th next (outcome fault (exec c cfg'.state))) := by
  have hawaits := (h.stage i th hth).awaits hproc
  have hstage := hawaits.stage fault cfg.state
  cases fault with
  | some e => exact h.resume_both hth hth' hown h.state hstage (Or.inl rfl)
  | none =>
    cases hawaits with
    | tick ms next =>
      have hreply : ∀ db : IdemDb J H, reply (outcome none (exec (.tick ms) db)) = .ok () :=
        fun _ => rfl
      exact h.resume_both hth hth' hown (h.state.tick ms) hstage
        (Or.inl ((hreply _).trans (hreply _).symm))
    | cleanup next hcall hdone =>
      exact h.resume_both hth hth' hown h.state.deleteExpired hstage
        (Or.inr ⟨hcall, hdone _, hdone _⟩)
    | lookup r key next _ hcall hkey =>
      refine h.resume_both hth hth' hown h.state hstage (Or.inl ?_)
      have hother : ¬ keys key := by
        rw [← h.keyed i th r key hth hcall hkey, hown]
        exact Bool.false_ne_true
      exact congrArg Except.ok (h.state.records key hother)
    | handle r key next =>
      have hreply : ∀ db : IdemDb J H,
          reply (outcome none (exec (.handle i r) db)) = .ok r.outcome.result := fun _ => rfl
      exact h.resume_both hth hth' hown (h.state.handle i r) hstage
        (Or.inl ((hreply _).trans (hreply _).symm))
    | store r key d next =>
      have hreply : ∀ (hash : H) (db : IdemDb J H),
          reply (outcome none (exec (.store i key hash d CREATED) db)) = .ok () := fun _ _ => rfl
      exact h.resume_both hth hth' hown (h.state.store i key _ d CREATED) hstage
        (Or.inl ((hreply _ _).trans (hreply _ _).symm))

/-- An event of the others happens on both sides. -/
theorem Agree.advance_other (h : Agree own keys hashRequest cfg cfg')
    {e : Event (IdemCall J) Err} (hown : own e.id = false)
    (hfit : ∀ i k, e = .call i k → cfg.thread i = none → ∀ r key, k = .request r →
      checkKey r.idempotencyKey = .ok key → ¬ keys key) :
    Agree own keys hashRequest ((server hashRequest).advance cfg e)
      ((server hashRequest).advance cfg' e) := by
  cases e with
  | call i k =>
    change own i = false at hown
    cases hth : cfg.thread i with
    | some th =>
      rw [System.advance_call_taken hth]
      rcases h.threads i hown with heq | ⟨t, t', -, ht', -⟩
      · rw [System.advance_call_taken (heq.trans hth)]
        exact h
      · rw [System.advance_call_taken ht']
        exact h
    | none =>
      have hth' : cfg'.thread i = none := by
        rcases h.threads i hown with heq | ⟨t, t', ht, -⟩
        · exact heq.trans hth
        · rw [hth] at ht
          cases ht
      rw [System.advance_call hth, System.advance_call hth']
      refine ⟨h.state, ?_, ?_, ?_, ?_, ?_⟩
      · intro j th hj
        rcases Config.thread_spawn_cases hj with ⟨rfl, rfl⟩ | hold
        · exact .made rfl rfl
        · exact h.stage j th hold
      · intro j th r key hj hcall hkey
        rcases Config.thread_spawn_cases hj with ⟨rfl, rfl⟩ | hold
        · rw [hown]
          exact ⟨fun hc => absurd hc Bool.false_ne_true,
            fun hkeys => absurd hkeys (hfit j k rfl hth r key hcall hkey)⟩
        · exact h.keyed j th r key hold hcall hkey
      · intro j th hjown hj
        rcases Config.thread_spawn_cases hj with ⟨rfl, rfl⟩ | hold
        · rw [hown] at hjown
          cases hjown
        · exact h.mine j th hjown hold
      · intro j hj
        have hij : i ≠ j := by
          rintro rfl
          rw [hown] at hj
          cases hj
        rw [Config.thread_spawn, if_neg hij]
        exact h.absent j hj
      · intro j hj
        rw [Config.thread_spawn, Config.thread_spawn]
        split
        · exact Or.inl rfl
        · exact h.threads j hj
  | step i fault =>
    change own i = false at hown
    rcases h.threads i hown with heq | ⟨t, t', ht, ht', -, -, hdone, hdone'⟩
    · cases hth : cfg.thread i with
      | none =>
        rw [System.advance_none hth, System.advance_none (heq.trans hth)]
        exact h
      | some th =>
        rw [hth] at heq
        cases hproc : th.proc with
        | done r =>
          rw [System.advance_done hth (congrArg Proc.isDone hproc),
            System.advance_done heq (congrArg Proc.isDone hproc)]
          exact h
        | await c next =>
          rw [System.advance_await hth hproc, System.advance_await heq hproc]
          change Agree own keys hashRequest
            (if true && (fault.isNone || mayFail c) then _ else _)
            (if true && (fault.isNone || mayFail c) then _ else _)
          split
          · exact h.step_other hth heq hown hproc fault
          · exact h
    · rw [System.advance_done ht hdone, System.advance_done ht' hdone']
      exact h

end Events

/-! ## Whole schedules -/

-- the equations of `madeBy` are generated here, once
attribute [local simp] madeBy in
theorem madeBy_of_called {A : ℕ} {es : List (Event (IdemCall J) Err)} {i : ℕ}
    (h : madeBy A es i = true) : ∃ r, .call i (.request r) ∈ es ∧ r.userId = A := by
  induction es with
  | nil => cases h
  | cons e es ih =>
    cases e with
    | step j fault =>
      obtain ⟨r, hmem, hr⟩ := ih h
      exact ⟨r, List.mem_cons_of_mem _ hmem, hr⟩
    | call j k =>
      rw [madeBy] at h
      split at h
      · rename_i hji
        subst hji
        cases k with
        | request r => exact ⟨r, List.mem_cons_self .., of_decide_eq_true h⟩
        | cleanup => cases h
        | tick ms => cases h
      · obtain ⟨r, hmem, hr⟩ := ih h
        exact ⟨r, List.mem_cons_of_mem _ hmem, hr⟩

section Play

variable [DecidableEq H] {A : ℕ} {own : ℕ → Bool} {keys : String → Prop}

/-- The calls to leave out are those made by the user, or still to be made. -/
def Owns (A : ℕ) (own : ℕ → Bool) (cfg : IdemConfig J H) (es : List (Event (IdemCall J) Err)) :
    Prop :=
  ∀ i, own i = match cfg.called i with
    | some k => k.ofUser A
    | none => madeBy A es i

theorem Owns.advance (hashRequest : String → String → J → H) {cfg : IdemConfig J H}
    {e : Event (IdemCall J) Err} {es : List (Event (IdemCall J) Err)}
    (h : Owns A own cfg (e :: es)) :
    Owns A own ((server hashRequest).advance cfg e) es := by
  intro i
  rw [h i]
  cases e with
  | step j fault =>
    rw [System.called_advance_step]
    rfl
  | call j k =>
    cases hth : cfg.thread j with
    | some th =>
      rw [System.advance_call_taken hth]
      cases hcalled : cfg.called i with
      | some k' => rfl
      | none =>
        have hji : j ≠ i := by
          rintro rfl
          rw [Config.called_of_thread hth] at hcalled
          cases hcalled
        change madeBy A (.call j k :: es) i = madeBy A es i
        rw [madeBy, if_neg hji]
    | none =>
      rw [System.advance_call hth, Config.called_spawn]
      by_cases hji : j = i
      · subst hji
        have hcalled : cfg.called j = none := by rw [Config.called, hth]; rfl
        rw [hcalled, if_pos rfl]
        change madeBy A (.call j k :: es) j = k.ofUser A
        rw [madeBy, if_pos rfl]
      · rw [if_neg hji]
        cases cfg.called i with
        | some k' => rfl
        | none =>
          change madeBy A (.call j k :: es) i = madeBy A es i
          rw [madeBy, if_neg hji]

/-- **Removal.** Leaving out the calls of a user leaves everybody else where
they are. -/
theorem Agree.play {cfg cfg' : IdemConfig J H} {es : List (Event (IdemCall J) Err)}
    (h : Agree own keys hashRequest cfg cfg') (howns : Owns A own cfg es)
    (hkeys : ∀ i r key, .call i (.request r) ∈ es → checkKey r.idempotencyKey = .ok key →
      (r.userId = A ↔ keys key)) :
    Agree own keys hashRequest ((server hashRequest).play cfg es)
      ((server hashRequest).play cfg' (es.filter fun e => !own e.id)) := by
  induction es generalizing cfg cfg' with
  | nil => exact h
  | cons e es ih =>
    have hnext := howns.advance hashRequest
    have hkeys' := fun i r key hmem => hkeys i r key (List.mem_cons_of_mem _ hmem)
    -- the first call under an identity decides to whom it belongs
    have hfirst : ∀ i k, e = .call i k → cfg.thread i = none → own i = k.ofUser A := by
      rintro i k rfl hth
      rw [howns i, Config.called, hth]
      change madeBy A (.call i k :: es) i = k.ofUser A
      rw [madeBy, if_pos rfl]
    cases hown : own e.id with
    | true =>
      rw [List.filter_cons_of_neg (by simp [hown])]
      refine ih (h.advance_own hown ?_) hnext hkeys'
      rintro i k rfl hth
      have hA := (hfirst i k rfl hth).symm.trans hown
      cases k with
      | request r =>
        refine ⟨r, rfl, fun key hkey => ?_⟩
        exact (hkeys i r key (List.mem_cons_self ..) hkey).mp (of_decide_eq_true hA)
      | cleanup => cases hA
      | tick ms => cases hA
    | false =>
      rw [List.filter_cons_of_pos (by simp [hown])]
      refine ih (h.advance_other hown ?_) hnext hkeys'
      rintro i k rfl hth r key rfl hkey hk
      have hA := (hfirst i _ rfl hth).symm.trans hown
      refine absurd ((hkeys i r key (List.mem_cons_self ..) hkey).mpr hk) ?_
      exact of_decide_eq_false hA

end Play

/-! ## Where a response comes from -/

/-- A response that a handler produced, for a request with the key. -/
def Produced (db : IdemDb J H) (key : String) (a : Response J) : Prop :=
  ∃ j r d, (j, r) ∈ db.executed ∧ checkKey r.idempotencyKey = .ok key ∧
    r.outcome.result = .ok d ∧ a = ⟨CREATED, d⟩

/-- Handlers that ran stay in the log. -/
theorem executed_mono (c : IdemCmd J H) (fault : Option Err) (db : IdemDb J H)
    {p : ℕ × Request J} (h : p ∈ db.executed) :
    p ∈ (after (outcome fault (exec c db)) db).executed := by
  cases fault with
  | some e => exact h
  | none =>
    cases c with
    | handle i r => exact List.mem_append_left _ h
    | _ => exact h

theorem Produced.mono {db db' : IdemDb J H} {key : String} {a : Response J}
    (h : Produced db key a) (hmono : ∀ p ∈ db.executed, p ∈ db'.executed) :
    Produced db' key a := by
  obtain ⟨j, r, d, hmem, hrest⟩ := h
  exact ⟨j, r, d, hmono _ hmem, hrest⟩

/-- Records and answers come from handlers that ran. -/
structure Origin [DecidableEq H] (hashRequest : String → String → J → H) (cfg : IdemConfig J H) :
    Prop where
  stage : ∀ i th, cfg.thread i = some th → Stage hashRequest i th
  logged : ∀ i r, (i, r) ∈ cfg.state.executed → cfg.called i = some (.request r)
  ran : ∀ i th r key d, cfg.thread i = some th → th.call = .request r →
    th.proc = atStore hashRequest i r key d → (i, r) ∈ cfg.state.executed
  records : ∀ rec ∈ cfg.state.records,
    Produced cfg.state rec.key ⟨rec.statusCode, rec.response⟩
  answered : ∀ i th r a, cfg.thread i = some th → th.call = .request r →
    th.proc = .done (.ok (.response a)) → (i, r) ∈ cfg.state.executed ∨
    ∃ key, checkKey r.idempotencyKey = .ok key ∧ Produced cfg.state key a

section Origins

variable [DecidableEq H] {cfg : IdemConfig J H} {t : ℕ} {th : IdemThread J H} {c : IdemCmd J H}
  {next : Except Err c.Reply → IdemProc J H (Answer J)} {fault : Option Err}

theorem prog_not_storing (i : ℕ) (k : IdemCall J) (r : Request J) (key : String) (d : J) :
    prog hashRequest i k ≠ atStore hashRequest i r key d := by
  cases k with
  | tick ms =>
    intro h
    cases h
  | cleanup =>
    intro h
    cases h
  | request r' =>
    cases hkey : checkKey r'.idempotencyKey with
    | error e =>
      rw [prog_request_error hkey]
      intro h
      cases h
    | ok key' =>
      rw [prog_request_ok hkey]
      intro h
      cases h

/-- What a step has to show about the call that takes it. -/
theorem Origin.resume (h : Origin hashRequest cfg) (hth : cfg.thread t = some th)
    (hproc : th.proc = .await c next)
    (hlogged : ∀ i r, (i, r) ∈ (after (outcome fault (exec c cfg.state)) cfg.state).executed →
      (i, r) ∈ cfg.state.executed ∨ i = t ∧ th.call = .request r)
    (hran : ∀ r key d, th.call = .request r →
      next (reply (outcome fault (exec c cfg.state))) = atStore hashRequest t r key d →
      (t, r) ∈ (after (outcome fault (exec c cfg.state)) cfg.state).executed)
    (hrecords : ∀ rec ∈ (after (outcome fault (exec c cfg.state)) cfg.state).records,
      rec ∈ cfg.state.records ∨ Produced (after (outcome fault (exec c cfg.state)) cfg.state)
        rec.key ⟨rec.statusCode, rec.response⟩)
    (hanswered : ∀ r a, th.call = .request r →
      next (reply (outcome fault (exec c cfg.state))) = .done (.ok (.response a)) →
      (t, r) ∈ (after (outcome fault (exec c cfg.state)) cfg.state).executed ∨
      ∃ key, checkKey r.idempotencyKey = .ok key ∧ Produced cfg.state key a) :
    Origin hashRequest (cfg.resume th next (outcome fault (exec c cfg.state))) := by
  have hmono : ∀ p ∈ cfg.state.executed,
      p ∈ (after (outcome fault (exec c cfg.state)) cfg.state).executed :=
    fun p => executed_mono c fault cfg.state
  refine ⟨?_, ?_, ?_, ?_, ?_⟩
  · intro j th' hth'
    rcases Config.thread_resume_cases hth hth' with ⟨rfl, rfl⟩ | hold
    · exact ((h.stage j th hth).awaits hproc).stage fault cfg.state
    · exact h.stage j th' hold
  · intro j r hmem
    rw [Config.called_resume hth]
    rcases hlogged j r hmem with hold | ⟨rfl, hcall⟩
    · exact h.logged j r hold
    · rw [Config.called_of_thread hth, hcall]
  · intro j th' r key d hth' hcall hp
    rcases Config.thread_resume_cases hth hth' with ⟨rfl, rfl⟩ | hold
    · exact hran r key d hcall hp
    · exact hmono _ (h.ran j th' r key d hold hcall hp)
  · intro rec hrec
    rcases hrecords rec hrec with hold | hnew
    · exact (h.records rec hold).mono hmono
    · exact hnew
  · intro j th' r a hth' hcall hp
    have hgrow : (∃ key, checkKey r.idempotencyKey = .ok key ∧ Produced cfg.state key a) →
        ∃ key, checkKey r.idempotencyKey = .ok key ∧
          Produced (after (outcome fault (exec c cfg.state)) cfg.state) key a := by
      rintro ⟨key, hkey, hprod⟩
      exact ⟨key, hkey, hprod.mono hmono⟩
    rcases Config.thread_resume_cases hth hth' with ⟨rfl, rfl⟩ | hold
    · exact (hanswered r a hcall hp).imp id hgrow
    · exact (h.answered j th' r a hold hcall hp).imp (hmono _) hgrow

theorem Origin.step (h : Origin hashRequest cfg) (hth : cfg.thread t = some th)
    (hproc : th.proc = .await c next) (fault : Option Err) :
    Origin hashRequest (cfg.resume th next (outcome fault (exec c cfg.state))) := by
  cases (h.stage t th hth).awaits hproc with
  | tick ms next hcall hdone =>
    have hnot : ∀ r, th.call ≠ .request r := by
      rw [hcall]
      rintro r ⟨⟩
    refine h.resume hth hproc ?_ (fun r _ _ hr => absurd hr (hnot r)) ?_
      fun r _ hr => absurd hr (hnot r)
    · cases fault <;> exact fun _ _ => Or.inl
    · cases fault <;> exact fun _ => Or.inl
  | cleanup next hcall hdone =>
    have hnot : ∀ r, th.call ≠ .request r := by
      rw [hcall]
      rintro r ⟨⟩
    refine h.resume hth hproc ?_ (fun r _ _ hr => absurd hr (hnot r)) ?_
      fun r _ hr => absurd hr (hnot r)
    · cases fault <;> exact fun _ _ => Or.inl
    · cases fault with
      | some e => exact fun _ => Or.inl
      | none => exact fun rec hrec => Or.inl (List.mem_of_mem_filter hrec)
  | lookup r key next _ hcall hkey herr hnone hsome =>
    cases fault with
    | some e =>
      refine h.resume hth hproc (fun _ _ => Or.inl) ?_ (fun _ => Or.inl) ?_
      · intro r' key' d _ hp
        cases (herr e).symm.trans hp
      · intro r' a _ hp
        cases (herr e).symm.trans hp
    | none =>
      refine h.resume hth hproc (fun _ _ => Or.inl) ?_ (fun _ => Or.inl) ?_
      · intro r' key' d _ hp
        change next (.ok (cfg.state.findByKey key)) = _ at hp
        cases hrec : cfg.state.findByKey key with
        | none =>
          rw [hrec] at hp
          cases hnone.symm.trans hp
        | some rec =>
          rw [hrec] at hp
          rcases hsome rec with ⟨e, he⟩ | hok
          · cases he.symm.trans hp
          · cases hok.symm.trans hp
      · intro r' a hcall' hp
        change next (.ok (cfg.state.findByKey key)) = _ at hp
        cases hrec : cfg.state.findByKey key with
        | none =>
          rw [hrec] at hp
          cases hnone.symm.trans hp
        | some rec =>
          rw [hrec] at hp
          rcases hsome rec with ⟨e, he⟩ | hok
          · cases he.symm.trans hp
          · cases hok.symm.trans hp
            rw [hcall] at hcall'
            cases hcall'
            have hprod := h.records rec (Table.mem_of_get _ hrec)
            rw [Table.key_of_get _ hrec] at hprod
            exact Or.inr ⟨key, hkey, hprod⟩
  | handle r key next _ hcall hkey _ herr hthrow hok =>
    cases fault with
    | some e =>
      refine h.resume hth hproc (fun _ _ => Or.inl) ?_ (fun _ => Or.inl) ?_
      · intro r' key' d _ hp
        cases (herr e).symm.trans hp
      · intro r' a _ hp
        cases (herr e).symm.trans hp
    | none =>
      have hself : (t, r) ∈ cfg.state.executed ++ [(t, r)] :=
        List.mem_append_right _ (List.mem_singleton.mpr rfl)
      refine h.resume hth hproc ?_ ?_ (fun _ => Or.inl) ?_
      · intro i r' hmem
        rcases List.mem_append.mp hmem with hold | hnew
        · exact Or.inl hold
        · cases List.mem_singleton.mp hnew
          exact Or.inr ⟨rfl, hcall⟩
      · intro r' key' d hcall' _
        rw [hcall] at hcall'
        cases hcall'
        exact hself
      · intro r' a hcall' _
        rw [hcall] at hcall'
        cases hcall'
        exact Or.inl hself
  | store r key d next _ hcall hkey hres hp hdone =>
    have hself : (t, r) ∈ cfg.state.executed := h.ran t th r key d hth hcall hp
    have hanswer : ∀ r' (a : Response J), th.call = .request r' → (t, r') ∈ cfg.state.executed := by
      intro r' a hcall'
      rw [hcall] at hcall'
      cases hcall'
      exact hself
    cases fault with
    | some e =>
      refine h.resume hth hproc (fun _ _ => Or.inl) ?_ (fun _ => Or.inl) ?_
      · intro r' key' d' _ hstore
        cases (hdone _).symm.trans hstore
      · exact fun r' a hcall' _ => Or.inl (hanswer r' a hcall')
    | none =>
      refine h.resume hth hproc (fun _ _ => Or.inl) ?_ ?_ ?_
      · intro r' key' d' _ hstore
        cases (hdone _).symm.trans hstore
      · intro rec hrec
        rcases Table.mem_put _ hrec with rfl | hold
        · exact Or.inr ⟨t, r, d, hself, hkey, hres, rfl⟩
        · exact Or.inl hold
      · exact fun r' a hcall' _ => Or.inl (hanswer r' a hcall')

theorem origin_reach {now : Time} {ttlHours : ℕ}
    (h : Reach (server hashRequest) .free (start now ttlHours) cfg) : Origin hashRequest cfg := by
  refine h.invariant (I := Origin hashRequest) ?init ?call ?step
  case init =>
    have hnone : ∀ i th, ¬ (start now ttlHours : IdemConfig J H).thread i = some th := by
      rintro i th ⟨⟩
    refine ⟨fun i th hth => absurd hth (hnone i th), ?_,
      fun i th _ _ _ hth => absurd hth (hnone i th), ?_,
      fun i th _ _ hth => absurd hth (hnone i th)⟩
    · rintro i r ⟨⟩
    · rintro rec ⟨⟩
  case call =>
    intro cfg i k hI hfresh _
    refine ⟨?_, ?_, ?_, hI.records, ?_⟩
    · intro j th hth
      rcases Config.thread_spawn_cases hth with ⟨rfl, rfl⟩ | hold
      · exact .made rfl rfl
      · exact hI.stage j th hold
    · intro j r hmem
      have hcalled := hI.logged j r hmem
      rw [Config.called_spawn, if_neg, hcalled]
      rintro rfl
      rw [Config.called, hfresh] at hcalled
      cases hcalled
    · intro j th r key d hth hcall hp
      rcases Config.thread_spawn_cases hth with ⟨rfl, rfl⟩ | hold
      · exact absurd hp (prog_not_storing j k r key d)
      · exact hI.ran j th r key d hold hcall hp
    · intro j th r a hth hcall hp
      rcases Config.thread_spawn_cases hth with ⟨rfl, rfl⟩ | hold
      · exact absurd hp (prog_not_answered j k a)
      · exact hI.answered j th r a hold hcall hp
  case step =>
    intro cfg i fault th c next hI hth hproc _ _ _
    exact hI.step hth hproc fault

end Origins

/-! ## Isolation -/

/-- Everybody but the user is at the same place with the same answers, and the
same handlers ran for them. -/
structure SameForOthers (A : ℕ) (cfg₁ cfg₂ : IdemConfig J H) : Prop where
  threads : ∀ i th r, th.call = .request r → r.userId ≠ A →
    (cfg₁.thread i = some th ↔ cfg₂.thread i = some th)
  executed : ∀ i r, r.userId ≠ A →
    ((i, r) ∈ cfg₁.state.executed ↔ (i, r) ∈ cfg₂.state.executed)

/-- A response that was replayed was produced by a request of the same user. -/
def OwnReplays (cfg : IdemConfig J H) : Prop :=
  ∀ i th r a, cfg.thread i = some th → th.call = .request r →
    th.proc = .done (.ok (.response a)) → (i, r) ∉ cfg.state.executed →
    ∃ j r' d, (j, r') ∈ cfg.state.executed ∧ r'.userId = r.userId ∧
      r'.outcome.result = .ok d ∧ a = ⟨CREATED, d⟩

theorem SameForOthers.symm {A : ℕ} {cfg₁ cfg₂ : IdemConfig J H} (h : SameForOthers A cfg₁ cfg₂) :
    SameForOthers A cfg₂ cfg₁ :=
  ⟨fun i th r hc hr => (h.threads i th r hc hr).symm, fun i r hr => (h.executed i r hr).symm⟩

theorem SameForOthers.trans {A : ℕ} {cfg₁ cfg₂ cfg₃ : IdemConfig J H}
    (h : SameForOthers A cfg₁ cfg₂) (h' : SameForOthers A cfg₂ cfg₃) :
    SameForOthers A cfg₁ cfg₃ :=
  ⟨fun i th r hc hr => (h.threads i th r hc hr).trans (h'.threads i th r hc hr),
    fun i r hr => (h.executed i r hr).trans (h'.executed i r hr)⟩

section Theorem

variable [DecidableEq H] {A : ℕ} {es : List (Event (IdemCall J) Err)} {now : Time} {ttlHours : ℕ}

theorem Owns.play (hashRequest : String → String → J → H) {own : ℕ → Bool}
    {cfg : IdemConfig J H} (h : Owns A own cfg es) :
    Owns A own ((server hashRequest).play cfg es) [] := by
  induction es generalizing cfg with
  | nil => exact h
  | cons e es ih => exact ih (h.advance hashRequest)

/-- The keys of the user. -/
def keysOf (A : ℕ) (es : List (Event (IdemCall J) Err)) (key : String) : Prop :=
  ∃ i r, .call i (.request r) ∈ es ∧ r.userId = A ∧ checkKey r.idempotencyKey = .ok key

theorem play_reach (hashRequest : String → String → J → H) (now : Time) (ttlHours : ℕ)
    (es : List (Event (IdemCall J) Err)) :
    Reach (server hashRequest) .free (start now ttlHours)
      ((server hashRequest).play (start now ttlHours) es) :=
  Reach.refl.play es

theorem agree_withoutUser (hashRequest : String → String → J → H) (A : ℕ) (now : Time)
    (ttlHours : ℕ) (hpriv : PrivateKeys es) :
    Agree (madeBy A es) (keysOf A es) hashRequest
      ((server hashRequest).play (start now ttlHours) es)
      ((server hashRequest).play (start now ttlHours) (withoutUser A es)) := by
  have hnone : ∀ i th, ¬ (start now ttlHours : IdemConfig J H).thread i = some th := by
    rintro i th ⟨⟩
  refine Agree.play (A := A) ⟨⟨rfl, rfl, List.nodup_nil, List.nodup_nil, fun _ _ => rfl,
    fun _ _ _ => Iff.rfl⟩, fun i th hth => absurd hth (hnone i th),
    fun i th _ _ hth => absurd hth (hnone i th), fun i th _ hth => absurd hth (hnone i th),
    fun _ _ => rfl, fun _ _ => Or.inl rfl⟩ (fun _ => rfl) ?_
  intro i r key hmem hkey
  constructor
  · exact fun hA => ⟨i, r, hmem, hA, hkey⟩
  · rintro ⟨j, r', hmem', hA, hkey'⟩
    exact (hpriv i r j r' key hmem hmem' hkey hkey').trans hA

/-- Leaving out a user is not seen by the others. -/
theorem sameForOthers_withoutUser (hashRequest : String → String → J → H) (A : ℕ) (now : Time)
    (ttlHours : ℕ) (hpriv : PrivateKeys es) :
    SameForOthers A ((server hashRequest).play (start now ttlHours) es)
      ((server hashRequest).play (start now ttlHours) (withoutUser A es)) := by
  have hagree := agree_withoutUser hashRequest A now ttlHours hpriv
  have howns : Owns A (madeBy A es) ((server hashRequest).play (start now ttlHours) es) [] :=
    Owns.play hashRequest fun _ => rfl
  have horigin := origin_reach (play_reach hashRequest now ttlHours es)
  have horigin' := origin_reach (play_reach hashRequest now ttlHours (withoutUser A es))
  generalize (server hashRequest).play (start now ttlHours) es = cfg at *
  generalize (server hashRequest).play (start now ttlHours) (withoutUser A es) = cfg' at *
  have hother : ∀ i r, cfg.called i = some (.request r) → r.userId ≠ A →
      madeBy A es i = false := by
    intro i r hcalled hr
    rw [howns i, hcalled]
    exact decide_eq_false hr
  have hother' : ∀ i k, cfg'.called i = some k → madeBy A es i = false := by
    intro i k hcalled
    cases hown : madeBy A es i with
    | false => rfl
    | true =>
      rw [Config.called, hagree.absent i hown] at hcalled
      cases hcalled
  refine ⟨?_, ?_⟩
  · intro i th r hcall hr
    constructor
    · intro hth
      have hcalled : cfg.called i = some (.request r) := by
        rw [Config.called_of_thread hth, hcall]
      rcases hagree.threads i (hother i r hcalled hr) with heq | ⟨t, t', ht, -, hclean, -⟩
      · rw [heq, hth]
      · rw [hth] at ht
        cases ht
        rw [hcall] at hclean
        cases hclean
    · intro hth
      rcases hagree.threads i (hother' i _ (Config.called_of_thread hth)) with
        heq | ⟨t, t', -, ht', -, hclean, -⟩
      · rw [← heq, hth]
      · rw [hth] at ht'
        cases ht'
        rw [hcall] at hclean
        cases hclean
  · intro i r hr
    constructor
    · intro hmem
      exact (hagree.state.executed i r (hother i r (horigin.logged i r hmem) hr)).mpr hmem
    · intro hmem
      exact (hagree.state.executed i r (hother' i _ (horigin'.logged i r hmem))).mp hmem

theorem ownReplays_play (hashRequest : String → String → J → H) (now : Time) (ttlHours : ℕ)
    (hpriv : PrivateKeys es) :
    OwnReplays ((server hashRequest).play (start now ttlHours) es) := by
  have horigin := origin_reach (play_reach hashRequest now ttlHours es)
  have hmade : ∀ i r, ((server hashRequest).play (start now ttlHours) es).called i =
      some (.request r) → .call i (.request r) ∈ es := by
    intro i r hcalled
    rcases System.mem_of_called_play hcalled with hstart | hmem
    · cases hstart
    · exact hmem
  intro i th r a hth hcall hproc hnot
  rcases horigin.answered i th r a hth hcall hproc with hran | ⟨key, hkey, hprod⟩
  · exact absurd hran hnot
  · obtain ⟨j, r', d, hmem, hkey', hres, ha⟩ := hprod
    refine ⟨j, r', d, hmem, ?_, hres, ha⟩
    have hcalled := Config.called_of_thread hth
    rw [hcall] at hcalled
    exact hpriv j r' i r key (hmade j r' (horigin.logged j r' hmem)) (hmade i r hcalled) hkey' hkey

end Theorem

/-! ### Two users -/

/-- User 1 deposits with one key, then user 2 deposits with another. -/
def bothUsers (key : String) : List (Event (IdemCall String) Err) :=
  [.call 0 (.request (depositRequest 1 "order-0000000001" "tx-0")), .step 0 none, .step 0 none,
    .step 0 none, .call 1 (.request (depositRequest 2 key "tx-1")), .step 1 none, .step 1 none,
    .step 1 none]

/-- User 2 alone. -/
def userTwo (key : String) : List (Event (IdemCall String) Err) :=
  [.call 1 (.request (depositRequest 2 key "tx-1")), .step 1 none, .step 1 none, .step 1 none]

theorem privateKeys_bothUsers : PrivateKeys (bothUsers "order-0000000002") := by
  have hone : checkKey (some "order-0000000001") = .ok "order-0000000001" := by decide +kernel
  have htwo : checkKey (some "order-0000000002") = .ok "order-0000000002" := by decide +kernel
  intro i r j r' key hmem hmem' hkey hkey'
  simp only [bothUsers, List.mem_cons, Event.call.injEq, IdemCall.request.injEq, reduceCtorEq,
    or_false, false_or, List.not_mem_nil] at hmem hmem'
  rcases hmem with ⟨-, rfl⟩ | ⟨-, rfl⟩ <;> rcases hmem' with ⟨-, rfl⟩ | ⟨-, rfl⟩
  · rfl
  · exact absurd ((hone.symm.trans hkey).trans (hkey'.symm.trans htwo)) (by decide)
  · exact absurd ((htwo.symm.trans hkey).trans (hkey'.symm.trans hone)) (by decide)
  · rfl

theorem privateKeys_userTwo (key : String) : PrivateKeys (userTwo key) := by
  intro i r j r' key' hmem hmem' _ _
  simp only [userTwo, List.mem_cons, Event.call.injEq, IdemCall.request.injEq, reduceCtorEq,
    or_false, List.not_mem_nil] at hmem hmem'
  rw [hmem.2, hmem'.2]

end Idempotency

end NexaFx
