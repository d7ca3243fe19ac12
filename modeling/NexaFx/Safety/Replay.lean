import NexaFx.Model.RequestHash
import NexaFx.Safety.AtMostOnce

/-!
# NexaFx — whose response a request gets

A request with an `Idempotency-Key` may be answered with a response that another
request has left in the table. Requests, cleanups and the clock are interleaved
at every await, with any of the awaits failing, also the store of a response.

* `responses_accounted` — a response with success is always what a handler
  returned to a request with the same key, method, URL and body. That is the
  request's own handler, or the own handler has not run; and no handler runs
  twice for one request.

That SHA-256 has no collision among the texts of the requests made is assumed.
-/

namespace NexaFx

namespace Idempotency

open Async Proc JsonText

-- ---------------------------------------------------------------------------
-- Responses and the handlers they come from
-- ---------------------------------------------------------------------------

section Steps

variable {J H : Type} {hashRequest : String → String → J → H}

/-- No handler has run for the call. -/
def Unhandled (db : IdemDb J H) (i : ℕ) : Prop := ∀ p ∈ db.executed, p.1 ≠ i

/-- The handler of call `j` returned this response, to a request with this key
and hash. -/
structure Returned (hashRequest : String → String → J → H) (db : IdemDb J H) (key : String)
    (hash : H) (a : Response J) (j : ℕ) (r : Request J) : Prop where
  executed : (j, r) ∈ db.executed
  key : checkKey r.idempotencyKey = .ok key
  hash : hashRequest r.method r.url r.body = hash
  body : r.outcome.result = .ok a.body
  status : a.statusCode = CREATED

/-- What a record answers. -/
abbrev Record.answer (rec : Record J H) : Response J := ⟨rec.statusCode, rec.response⟩

variable [DecidableEq H]

variable (hashRequest) in
/-- How far a call has come, and which handler its response comes from. -/
inductive Standing (i : ℕ) (db : IdemDb J H) (th : IdemThread J H) : Prop
  | made : th.proc = prog hashRequest i th.call → Unhandled db i → Standing i db th
  | handling (r : Request J) (key : String) : th.call = .request r →
      checkKey r.idempotencyKey = .ok key → th.proc = atHandler hashRequest i r key →
      Unhandled db i → Standing i db th
  | storing (r : Request J) (key : String) (d : J) : th.call = .request r →
      th.proc = atStore hashRequest i r key d →
      Returned hashRequest db key (hashRequest r.method r.url r.body) ⟨CREATED, d⟩ i r →
      Standing i db th
  | answered (r : Request J) (key : String) (a : Response J) (j : ℕ) (r' : Request J) :
      th.call = .request r → checkKey r.idempotencyKey = .ok key →
      th.proc = .done (.ok (.response a)) →
      Returned hashRequest db key (hashRequest r.method r.url r.body) a j r' →
      (j = i ∨ Unhandled db i) → Standing i db th
  | silent : th.proc.isDone = true → (∀ a, th.proc ≠ .done (.ok (.response a))) →
      Standing i db th

/-- Every record is the response of some handler. -/
def Accountable (hashRequest : String → String → J → H) (db : IdemDb J H) : Prop :=
  ∀ rec ∈ db.records, ∃ j r, Returned hashRequest db rec.key rec.requestHash rec.answer j r

omit [DecidableEq H] in
theorem Returned.grow {db db' : IdemDb J H} {key : String} {hash : H} {a : Response J} {j : ℕ}
    {r : Request J} (h : Returned hashRequest db key hash a j r)
    (hsub : ∀ p ∈ db.executed, p ∈ db'.executed) : Returned hashRequest db' key hash a j r :=
  { h with executed := hsub _ h.executed }

/-- Handlers that run for other calls change nothing for this one. -/
theorem Standing.frame {i : ℕ} {db db' : IdemDb J H} {th : IdemThread J H}
    (h : Standing hashRequest i db th) (hsub : ∀ p ∈ db.executed, p ∈ db'.executed)
    (hother : Unhandled db i → Unhandled db' i) : Standing hashRequest i db' th := by
  cases h with
  | made hproc hun => exact .made hproc (hother hun)
  | handling r key hcall hkey hproc hun => exact .handling r key hcall hkey hproc (hother hun)
  | storing r key d hcall hproc hret => exact .storing r key d hcall hproc (hret.grow hsub)
  | answered r key a j r' hcall hkey hproc hret hown =>
    exact .answered r key a j r' hcall hkey hproc (hret.grow hsub) (hown.imp_right hother)
  | silent hdone hno => exact .silent hdone hno

/-- A call with a response got it from a handler. -/
theorem Standing.answer {i : ℕ} {db : IdemDb J H} {th : IdemThread J H}
    (h : Standing hashRequest i db th) {a : Response J}
    (hproc : th.proc = .done (.ok (.response a))) :
    ∃ r key j r', th.call = .request r ∧ checkKey r.idempotencyKey = .ok key ∧
      Returned hashRequest db key (hashRequest r.method r.url r.body) a j r' ∧
      (j = i ∨ Unhandled db i) := by
  cases h with
  | made hp _ => exact absurd (hp.symm.trans hproc) (prog_not_answered i th.call a)
  | handling r key _ _ hp _ =>
    have heq := hproc.symm.trans hp
    cases heq
  | storing r key d _ hp _ =>
    have heq := hproc.symm.trans hp
    cases heq
  | answered r key b j r' hcall hkey hp hret hown =>
    cases hproc.symm.trans hp
    exact ⟨r, key, j, r', hcall, hkey, hret, hown⟩
  | silent _ hno => exact absurd hproc (hno a)

-- ---------------------------------------------------------------------------
-- One step
-- ---------------------------------------------------------------------------

/-- What follows the handler. -/
def afterHandler (hashRequest : String → String → J → H) (i : ℕ) (r : Request J) (key : String)
    (result : Except Err J) : IdemProc J H (Answer J) :=
  match result with
  | .error e => .done (.error e)
  | .ok d => atStore hashRequest i r key d

omit [DecidableEq H] in
theorem atHandler_eq (i : ℕ) (r : Request J) (key : String) :
    atHandler hashRequest i r key =
      (await (.handle i r)).bind (afterHandler hashRequest i r key) := by
  rw [atHandler, handle, bind_eq, bind_assoc]
  congr 1
  funext result
  cases result <;> rfl

/-- What a step of call `i` does. -/
structure Moved (hashRequest : String → String → J → H) (i : ℕ) (db : IdemDb J H)
    (th : IdemThread J H) (db' : IdemDb J H) (p : IdemProc J H (Answer J)) : Prop where
  standing : Standing hashRequest i db' { th with begun := true, proc := p }
  executed : db'.executed = db.executed ∨ ∃ r, th.call = .request r ∧ Unhandled db i ∧
    db'.executed = db.executed ++ [(i, r)]
  records : ∀ rec ∈ db'.records, rec ∈ db.records ∨
    ∃ r, Returned hashRequest db' rec.key rec.requestHash rec.answer i r

section Moves

variable {i : ℕ} {db : IdemDb J H} {th : IdemThread J H}

/-- The call ends without a response. -/
theorem Moved.silently {db' : IdemDb J H} {p : IdemProc J H (Answer J)}
    (hdone : p.isDone = true) (hno : ∀ a, p ≠ .done (.ok (.response a)))
    (hexecuted : db'.executed = db.executed)
    (hrecords : ∀ rec ∈ db'.records, rec ∈ db.records) : Moved hashRequest i db th db' p :=
  ⟨.silent hdone hno, Or.inl hexecuted, fun rec hrec => Or.inl (hrecords rec hrec)⟩

/-- A failed await of a call that does not catch it. -/
theorem Moved.failed (e : Err) : Moved hashRequest i db th db (.done (.error e)) :=
  .silently rfl (fun _ h => by cases h) rfl fun _ hrec => hrec

/-- The state stays as it is. -/
theorem Moved.here {p : IdemProc J H (Answer J)}
    (h : Standing hashRequest i db { th with begun := true, proc := p }) :
    Moved hashRequest i db th db p :=
  ⟨h, Or.inl rfl, fun _ hrec => Or.inl hrec⟩

/-- The guard has looked the key up. -/
theorem moved_lookup (hrecords : Accountable hashRequest db) {r : Request J} {key : String}
    (hcall : th.call = .request r) (hkey : checkKey r.idempotencyKey = .ok key)
    (hun : Unhandled db i) :
    Moved hashRequest i db th db (afterLookup hashRequest i r key (db.findByKey key)) := by
  cases hfind : db.findByKey key with
  | none => exact .here (.handling r key hcall hkey rfl hun)
  | some rec =>
    unfold afterLookup
    dsimp only
    by_cases hmis : rec.requestHash ≠ hashRequest r.method r.url r.body
    · rw [rejectWhen_pos hmis]
      exact .failed _
    · rw [rejectWhen_neg hmis]
      obtain ⟨j, r', hret⟩ := hrecords rec (Table.mem_of_get _ hfind)
      rw [not_not.mp hmis, show rec.key = key from Table.key_of_get _ hfind] at hret
      exact .here (.answered r key rec.answer j r' hcall hkey rfl hret (Or.inr hun))

/-- The handler has run. -/
theorem moved_handle {r : Request J} {key : String} (hcall : th.call = .request r)
    (hkey : checkKey r.idempotencyKey = .ok key) (hun : Unhandled db i) :
    Moved hashRequest i db th { db with executed := db.executed ++ [(i, r)] }
      (afterHandler hashRequest i r key r.outcome.result) := by
  refine ⟨?_, Or.inr ⟨r, hcall, hun, rfl⟩, fun rec hrec => Or.inl hrec⟩
  cases hres : r.outcome.result with
  | error e => exact .silent rfl fun _ h => by cases h
  | ok d =>
    have hmem : (i, r) ∈ db.executed ++ [(i, r)] :=
      List.mem_append_right _ (List.mem_singleton_self _)
    exact .storing r key d hcall rfl ⟨hmem, hkey, rfl, hres, rfl⟩

/-- The response is in the table, or the store has failed. -/
theorem moved_store {r : Request J} {key : String} {d : J} (hcall : th.call = .request r)
    (hret : Returned hashRequest db key (hashRequest r.method r.url r.body) ⟨CREATED, d⟩ i r)
    (fault : Option Err) :
    Moved hashRequest i db th
      (after (outcome fault
        (exec (.store i key (hashRequest r.method r.url r.body) d CREATED) db)) db)
      (.done (.ok (.response ⟨CREATED, d⟩))) := by
  cases fault with
  | some e => exact .here (.answered r key _ i r hcall hret.key rfl hret (Or.inl rfl))
  | none =>
    refine ⟨.answered r key _ i r hcall hret.key rfl ⟨hret.1, hret.2, hret.3, hret.4, hret.5⟩
      (Or.inl rfl), Or.inl rfl, fun rec hrec => ?_⟩
    rcases Table.mem_put _ hrec with rfl | hold
    · exact Or.inr ⟨r, hret.1, hret.2, hret.3, hret.4, hret.5⟩
    · exact Or.inl hold

/-- **A step.** -/
theorem Standing.step (h : Standing hashRequest i db th) (hrecords : Accountable hashRequest db)
    {c : IdemCmd J H} {next : Except Err c.Reply → IdemProc J H (Answer J)}
    (hproc : th.proc = .await c next) (fault : Option Err) :
    Moved hashRequest i db th (after (outcome fault (exec c db)) db)
      (next (reply (outcome fault (exec c db)))) := by
  cases h with
  | silent hdone _ =>
    rw [hproc] at hdone
    cases hdone
  | answered r key a j r' _ _ hp =>
    rw [hproc] at hp
    cases hp
  | storing r key d hcall hp hret =>
    have heq := hproc.symm.trans hp
    cases heq
    have hmoved := moved_store hcall hret fault
    cases fault with
    | some e => exact hmoved
    | none => exact hmoved
  | handling r key hcall hkey hp hun =>
    rw [atHandler_eq] at hp
    have heq := hproc.symm.trans hp
    cases heq
    cases fault with
    | some e => exact .failed e
    | none => exact moved_handle hcall hkey hun
  | made hp hun =>
    cases hcall : th.call with
    | tick ms =>
      rw [hcall] at hp
      have heq := hproc.symm.trans hp
      cases heq
      cases fault with
      | some e => exact .failed e
      | none => exact .silently rfl (fun _ h => by cases h) rfl fun _ hrec => hrec
    | cleanup =>
      rw [hcall] at hp
      have heq := hproc.symm.trans hp
      cases heq
      cases fault with
      | some e => exact .failed e
      | none =>
        exact .silently rfl (fun _ h => by cases h) rfl fun _ hrec => List.mem_of_mem_filter hrec
    | request r =>
      rw [hcall] at hp
      cases hkey : checkKey r.idempotencyKey with
      | error e =>
        rw [prog_request_error hkey, hproc] at hp
        cases hp
      | ok key =>
        rw [prog_request_ok hkey] at hp
        have heq := hproc.symm.trans hp
        cases heq
        cases fault with
        | some e => exact .failed e
        | none => exact moved_lookup hrecords hcall hkey hun

end Moves

-- ---------------------------------------------------------------------------
-- All runs
-- ---------------------------------------------------------------------------

/-- The invariant. -/
structure Truthful (hashRequest : String → String → J → H) (cfg : IdemConfig J H) : Prop where
  standing : ∀ i th, cfg.thread i = some th → Standing hashRequest i cfg.state th
  executed : ∀ p ∈ cfg.state.executed, cfg.called p.1 = some (.request p.2)
  once : (cfg.state.executed.map Prod.fst).Nodup
  records : Accountable hashRequest cfg.state

variable {cfg : IdemConfig J H}

theorem Truthful.spawn (h : Truthful hashRequest cfg) {i : ℕ} {k : IdemCall J}
    (hfresh : cfg.thread i = none) :
    Truthful hashRequest (cfg.spawn i k (prog hashRequest i k)) := by
  have hnew : ∀ p ∈ cfg.state.executed, p.1 ≠ i := by
    rintro p hp rfl
    have hcalled := h.executed p hp
    rw [Config.called, hfresh] at hcalled
    cases hcalled
  refine ⟨?_, ?_, h.once, h.records⟩
  · intro j th hth
    rcases Config.thread_spawn_cases hth with ⟨rfl, rfl⟩ | hold
    · exact .made rfl hnew
    · exact h.standing j th hold
  · intro p hp
    rw [Config.called_spawn, if_neg (hnew p hp).symm]
    exact h.executed p hp

theorem Truthful.resume (h : Truthful hashRequest cfg) {i : ℕ} {th : IdemThread J H}
    (hth : cfg.thread i = some th) {c : IdemCmd J H}
    {next : Except Err c.Reply → IdemProc J H (Answer J)} (hproc : th.proc = .await c next)
    (fault : Option Err) :
    Truthful hashRequest (cfg.resume th next (outcome fault (exec c cfg.state))) := by
  have hmoved := (h.standing i th hth).step h.records hproc fault
  generalize outcome fault (exec c cfg.state) = o at hmoved
  obtain ⟨hself, hexecuted, hrecords⟩ := hmoved
  have hsub : ∀ p ∈ cfg.state.executed, p ∈ (after o cfg.state).executed := by
    intro p hp
    rcases hexecuted with hsame | ⟨r, -, -, hmore⟩
    · rwa [hsame]
    · rw [hmore]
      exact List.mem_append_left _ hp
  have hother : ∀ j, j ≠ i → Unhandled cfg.state j → Unhandled (after o cfg.state) j := by
    intro j hj hun p hp
    rcases hexecuted with hsame | ⟨r, -, -, hmore⟩
    · exact hun p (hsame ▸ hp)
    · rw [hmore] at hp
      rcases List.mem_append.mp hp with hold | hnew
      · exact hun p hold
      · rw [List.mem_singleton.mp hnew]
        exact hj.symm
  refine ⟨?_, ?_, ?_, ?_⟩
  · intro j th' hth'
    by_cases hj : j = i
    · subst hj
      rw [Config.thread_resume, if_pos (Config.id_of_thread hth)] at hth'
      cases hth'
      exact hself
    · rw [Config.thread_resume_ne hth hj] at hth'
      exact (h.standing j th' hth').frame hsub (hother j hj)
  · intro p hp
    rw [Config.called_resume hth]
    rcases hexecuted with hsame | ⟨r, hcall, -, hmore⟩
    · exact h.executed p (hsame ▸ hp)
    · rw [Config.resume_state, hmore] at hp
      rcases List.mem_append.mp hp with hold | hnew
      · exact h.executed p hold
      · rw [List.mem_singleton.mp hnew, Config.called_of_thread hth, hcall]
  · rw [Config.resume_state]
    rcases hexecuted with hsame | ⟨r, -, hun, hmore⟩
    · rw [hsame]
      exact h.once
    · rw [hmore, List.map_append, List.nodup_append]
      refine ⟨h.once, List.nodup_singleton _, ?_⟩
      intro x hx y hy
      obtain ⟨p, hp, rfl⟩ := List.mem_map.mp hx
      rw [List.mem_singleton.mp hy]
      exact hun p hp
  · intro rec hrec
    rcases hrecords rec hrec with hold | ⟨r, hret⟩
    · obtain ⟨j, r, hret⟩ := h.records rec hold
      exact ⟨j, r, hret.grow hsub⟩
    · exact ⟨i, r, hret⟩

omit [DecidableEq H] in
theorem answered_thread {i : ℕ} {a : Answer J} (h : answerOf cfg i = some a) :
    ∃ th, cfg.thread i = some th ∧ th.proc = .done (.ok a) := by
  obtain ⟨th, hth, hreturned⟩ := Option.bind_eq_some_iff.mp h
  refine ⟨th, hth, ?_⟩
  cases hproc : th.proc with
  | done x =>
    rw [hproc] at hreturned
    cases x with
    | error e => cases hreturned
    | ok b =>
      cases hreturned
      rfl
  | await c next =>
    rw [hproc] at hreturned
    cases hreturned

theorem truthful_reach {now : Time} {ttlHours : ℕ}
    (h : Reach (server hashRequest) .free (start now ttlHours) cfg) :
    Truthful hashRequest cfg := by
  refine h.invariant (I := Truthful hashRequest) ?init ?call ?step
  case init =>
    refine ⟨?_, ?_, List.nodup_nil, ?_⟩
    · rintro i th ⟨⟩
    · rintro p ⟨⟩
    · rintro rec ⟨⟩
  case call =>
    intro cfg i k hI hfresh _
    exact hI.spawn hfresh
  case step =>
    intro cfg i fault th c next hI hth hproc _ _ _
    exact hI.resume hth hproc fault

end Steps

-- ---------------------------------------------------------------------------
-- The same request
-- ---------------------------------------------------------------------------

/-- The response to the request of call `i` is what the handler of call `j`
returned to the same request. -/
structure Accounted {J H : Type} (json : J → Body) (cfg : IdemConfig J H) (i : ℕ) (r : Request J)
    (a : Response J) (j : ℕ) (r' : Request J) : Prop where
  called : cfg.called j = some (.request r')
  handled : (j, r') ∈ cfg.state.executed
  key : checkKey r'.idempotencyKey = checkKey r.idempotencyKey
  same : Same json r' r
  body : r'.outcome.result = .ok a.body
  status : a.statusCode = CREATED
  own : j = i ∨ Unhandled cfg.state i

/-- **Whose response a request gets.** -/
theorem responses_accounted {J H : Type} [DecidableEq H] {sha256 : JsonText.Text → H}
    {json : J → Body} {now : Time} {ttlHours : ℕ} {cfg : IdemConfig J H}
    (h : Reach (server (hashRequest sha256 json)) .free (start now ttlHours) cfg)
    (hsha256 : ∀ i j r r', cfg.called i = some (.request r) → cfg.called j = some (.request r') →
      sha256 (r.text json) = sha256 (r'.text json) → r.text json = r'.text json) :
    (cfg.state.executed.map Prod.fst).Nodup ∧
    ∀ i r a, cfg.called i = some (.request r) → answerOf cfg i = some (.response a) →
      ∃ j r', Accounted json cfg i r a j r' := by
  have htruth := truthful_reach h
  refine ⟨htruth.once, ?_⟩
  intro i r a hcalled hanswer
  obtain ⟨th, hth, hproc⟩ := answered_thread hanswer
  obtain ⟨r₁, key, j, r', hcall, hkey, hret, hown⟩ := (htruth.standing i th hth).answer hproc
  have hcalled₁ := Config.called_of_thread hth
  rw [hcall, hcalled] at hcalled₁
  cases hcalled₁
  have hcalled' := htruth.executed _ hret.executed
  have htext := hsha256 j i r' r hcalled' hcalled hret.hash
  exact ⟨j, r', hcalled', hret.executed, hret.key.trans hkey.symm, text_eq_iff.mp htext,
    hret.body, hret.status, hown⟩

/-! ### A request sent again -/

/-- A withdrawal with the given body. -/
def withdrawalRequest (body response : String) : Request String where
  userId := 1
  idempotencyKey := some "order-0000000001"
  method := "POST"
  url := "/api/v1/transactions/withdrawal"
  body := body
  outcome := ⟨true, .ok response⟩

def bodyOf (raw : String) : Body := Body.parse (units raw)

/-- The second text has blanks, and the same value. -/
def sentAgain : List (Event (IdemCall String) Err) :=
  [.call 0 (.request (withdrawalRequest "\x7b\"amount\":\"10.00\"\x7d" "tx-0")),
    .step 0 none, .step 0 none, .step 0 none,
    .call 1 (.request (withdrawalRequest "\x7b \"amount\" : \"10.00\" \x7d" "tx-1")),
    .step 1 none]

theorem responses_accounted_sentAgain :
    ∃ cfg : IdemConfig String JsonText.Text,
      answerOf cfg 1 = some (.response ⟨201, "tx-0"⟩) ∧
      ∃ j r', Accounted bodyOf cfg 1
        (withdrawalRequest "\x7b \"amount\" : \"10.00\" \x7d" "tx-1") ⟨201, "tx-0"⟩ j r' := by
  obtain ⟨cfg, hrun⟩ : ∃ cfg, (server (hashRequest id bodyOf)).run
      (start 0 24 : IdemConfig String JsonText.Text) sentAgain = some cfg :=
    Option.isSome_iff_exists.mp (by decide +kernel)
  have hfinal : (((server (hashRequest id bodyOf)).run
      (start 0 24 : IdemConfig String JsonText.Text) sentAgain).map fun cfg => answerOf cfg 1) =
      some (some (.response ⟨201, "tx-0"⟩)) := by
    decide +kernel
  have hcalled : ((server (hashRequest id bodyOf)).run
      (start 0 24 : IdemConfig String JsonText.Text) sentAgain).map (fun cfg => cfg.called 1) =
      some (some (.request (withdrawalRequest "\x7b \"amount\" : \"10.00\" \x7d" "tx-1"))) := by
    rfl
  rw [hrun] at hfinal hcalled
  have hreach : Reach (server (hashRequest id bodyOf)) .free
      (start 0 24 : IdemConfig String JsonText.Text) cfg :=
    Reach.refl.of_run (fun _ _ _ _ => trivial) (fun _ _ _ _ => trivial) hrun
  exact ⟨cfg, Option.some.inj hfinal, (responses_accounted hreach fun _ _ _ _ _ _ h => h).2 1 _ _
    (Option.some.inj hcalled) (Option.some.inj hfinal)⟩

end Idempotency

end NexaFx
