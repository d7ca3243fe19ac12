import NexaFx.Model.Idempotency

/-!
# NexaFx — at most once per key

When do the effects of a handler happen at most once per `Idempotency-Key`?
Nothing reserves a key between the guard's lookup and the interceptor's store,
so two requests may both find it unused; a store may fail; a handler may throw
after its effects.

Under `serialKeys`, which excludes just these three, each key goes through the
phases of a small state machine

    free → handling → storing → recorded

(`Phase`), and `KeyState` says what is true of the table and of the requests in
each. `at_most_once` reads the two promises off it, for every interleaving of
any number of requests, cleanups and the clock.
-/

namespace NexaFx

namespace Idempotency

open Async Proc

variable {J H : Type} {hashRequest : String → String → J → H}

/-! ## Where a request can be -/

section Stages

variable [DecidableEq H]

section

variable (hashRequest)

/-- The lookup found nothing: the handler is next. -/
def atHandler (i : ℕ) (r : Request J) (key : String) : IdemProc J H (Answer J) :=
  (handle i r key (hashRequest r.method r.url r.body)).bind fun x => .done (.ok (.response x))

/-- The handler has returned `d`: the store is next. -/
def atStore (i : ℕ) (r : Request J) (key : String) (d : J) : IdemProc J H (Answer J) :=
  (persist i key (hashRequest r.method r.url r.body) d).bind fun x => .done (.ok (.response x))

inductive Stage (i : ℕ) (th : IdemThread J H) : Prop
  | made : th.begun = false → th.proc = prog hashRequest i th.call → Stage i th
  | handling (r : Request J) (key : String) : th.begun = true → th.call = .request r →
      checkKey r.idempotencyKey = .ok key → th.proc = atHandler hashRequest i r key → Stage i th
  | storing (r : Request J) (key : String) (d : J) : th.begun = true → th.call = .request r →
      checkKey r.idempotencyKey = .ok key → r.outcome.result = .ok d →
      th.proc = atStore hashRequest i r key d → Stage i th
  | ended : th.begun = true → th.proc.isDone = true → Stage i th

/-- Everything a call can be waiting for, and what follows. -/
inductive Awaits (i : ℕ) (th : IdemThread J H) :
    (c : IdemCmd J H) → (Except Err c.Reply → IdemProc J H (Answer J)) → Prop
  | tick (ms : ℕ) (next : Except Err Unit → IdemProc J H (Answer J)) : th.call = .tick ms →
      (∀ r, (next r).isDone = true) → Awaits i th (.tick ms) next
  | cleanup (next : Except Err ℕ → IdemProc J H (Answer J)) : th.call = .cleanup →
      (∀ r, (next r).isDone = true) → Awaits i th .deleteExpired next
  | lookup (r : Request J) (key : String)
      (next : Except Err (Option (Record J H)) → IdemProc J H (Answer J)) :
      th.begun = false → th.call = .request r → checkKey r.idempotencyKey = .ok key →
      (∀ e, next (.error e) = .done (.error e)) → next (.ok none) = atHandler hashRequest i r key →
      (∀ rec, (∃ e, next (.ok (some rec)) = .done (.error e)) ∨
        next (.ok (some rec)) = .done (.ok (.response ⟨rec.statusCode, rec.response⟩))) →
      Awaits i th (.findByKey key) next
  | handle (r : Request J) (key : String)
      (next : Except Err (Except Err J) → IdemProc J H (Answer J)) :
      th.begun = true → th.call = .request r → checkKey r.idempotencyKey = .ok key →
      th.proc = atHandler hashRequest i r key →
      (∀ e, next (.error e) = .done (.error e)) →
      (∀ e, next (.ok (.error e)) = .done (.error e)) →
      (∀ d, next (.ok (.ok d)) = atStore hashRequest i r key d) → Awaits i th (.handle i r) next
  | store (r : Request J) (key : String) (d : J) (next : Except Err Unit → IdemProc J H (Answer J)) :
      th.begun = true → th.call = .request r → checkKey r.idempotencyKey = .ok key →
      r.outcome.result = .ok d → th.proc = atStore hashRequest i r key d →
      (∀ x, next x = .done (.ok (.response ⟨CREATED, d⟩))) →
      Awaits i th (.store i key (hashRequest r.method r.url r.body) d CREATED) next

end

theorem prog_request_error {i : ℕ} {r : Request J} {e : Err}
    (h : checkKey r.idempotencyKey = .error e) :
    prog hashRequest i (.request r) = .done (.error e) := by
  simp only [prog, canActivate, h, Proc.ofExcept, bind_eq, done_error_bind]

/-- What follows the lookup. -/
def afterLookup (hashRequest : String → String → J → H) (i : ℕ) (r : Request J) (key : String)
    (existing : Option (Record J H)) : IdemProc J H (Answer J) :=
  match existing with
  | some rec =>
    (Proc.rejectWhen (rec.requestHash ≠ hashRequest r.method r.url r.body)
      (.unprocessable "Idempotency-Key already used with different request parameters")).bind
        fun _ => .done (.ok (.response ⟨rec.statusCode, rec.response⟩))
  | none => atHandler hashRequest i r key

theorem prog_request_ok {i : ℕ} {r : Request J} {key : String}
    (h : checkKey r.idempotencyKey = .ok key) :
    prog hashRequest i (.request r) =
      (await (.findByKey key)).bind (afterLookup hashRequest i r key) := by
  simp only [prog, canActivate, h, Proc.ofExcept, bind_eq, done_ok_bind, bind_assoc]
  congr 1
  funext existing
  cases existing with
  | none => rfl
  | some rec =>
    simp only [afterLookup, bind_assoc]
    rfl

/-- **Inversion.** -/
theorem Stage.awaits {i : ℕ} {th : IdemThread J H} (h : Stage hashRequest i th) {c : IdemCmd J H}
    {next : Except Err c.Reply → IdemProc J H (Answer J)} (hproc : th.proc = .await c next) :
    Awaits hashRequest i th c next := by
  cases h with
  | ended _ hdone =>
    rw [hproc] at hdone
    cases hdone
  | handling r key hbegun hcall hkey hp =>
    have heq := hproc.symm.trans hp
    cases heq
    exact .handle r key _ hbegun hcall hkey hp (fun _ => rfl) (fun _ => rfl) fun _ => rfl
  | storing r key d hbegun hcall hkey hres hp =>
    have heq := hproc.symm.trans hp
    cases heq
    refine .store r key d _ hbegun hcall hkey hres hp ?_
    rintro (e | a)
    · rfl
    · rfl
  | made hbegun hp =>
    cases hcall : th.call with
    | tick ms =>
      rw [hcall] at hp
      have heq := hproc.symm.trans hp
      cases heq
      refine .tick ms _ hcall ?_
      rintro (e | a) <;> rfl
    | cleanup =>
      rw [hcall] at hp
      have heq := hproc.symm.trans hp
      cases heq
      refine .cleanup _ hcall ?_
      rintro (e | a) <;> rfl
    | request r =>
      rw [hcall] at hp
      cases hkey : checkKey r.idempotencyKey with
      | error e =>
        rw [prog_request_error hkey] at hp
        rw [hp] at hproc
        cases hproc
      | ok key =>
        rw [prog_request_ok hkey] at hp
        have heq := hproc.symm.trans hp
        cases heq
        refine .lookup r key _ hbegun hcall hkey (fun _ => rfl) rfl ?_
        intro rec
        by_cases hmis : rec.requestHash ≠ hashRequest r.method r.url r.body
        · refine Or.inl ⟨.unprocessable
            "Idempotency-Key already used with different request parameters", ?_⟩
          change (Proc.rejectWhen _ _).bind _ = _
          rw [rejectWhen_pos hmis]
          rfl
        · refine Or.inr ?_
          change (Proc.rejectWhen _ _).bind _ = _
          rw [rejectWhen_neg hmis]
          rfl

/-- A step leaves a call at a stage. -/
theorem Awaits.stage {i : ℕ} {th : IdemThread J H} {c : IdemCmd J H}
    {next : Except Err c.Reply → IdemProc J H (Answer J)} (h : Awaits hashRequest i th c next)
    (fault : Option Err) (db : IdemDb J H) :
    Stage hashRequest i
      { th with begun := true, proc := next (reply (outcome fault (exec c db))) } := by
  cases h with
  | tick ms next _ hdone => exact .ended rfl (hdone _)
  | cleanup next _ hdone => exact .ended rfl (hdone _)
  | lookup r key next _ hcall hkey herr hnone hsome =>
    cases fault with
    | some e => exact .ended rfl (congrArg Proc.isDone (herr e))
    | none =>
      change Stage hashRequest i { th with begun := true, proc := next (.ok (db.findByKey key)) }
      cases db.findByKey key with
      | none => exact .handling r key rfl hcall hkey hnone
      | some rec =>
        refine .ended rfl ?_
        rcases hsome rec with ⟨e, he⟩ | hok
        · exact congrArg Proc.isDone he
        · exact congrArg Proc.isDone hok
  | handle r key next _ hcall hkey _ herr hthrow hok =>
    cases fault with
    | some e => exact .ended rfl (congrArg Proc.isDone (herr e))
    | none =>
      change Stage hashRequest i { th with begun := true, proc := next (.ok r.outcome.result) }
      cases hres : r.outcome.result with
      | error e => exact .ended rfl (congrArg Proc.isDone (hthrow e))
      | ok d => exact .storing r key d rfl hcall hkey hres (hok d)
  | store r key d next _ _ _ _ _ hdone => exact .ended rfl (congrArg Proc.isDone (hdone _))

end Stages

/-! ## The discipline -/

/-- A handler that has had effects returns. -/
def IdemCall.clean : IdemCall J → Prop
  | .request r => r.outcome.effects = true → ∃ d, r.outcome.result = .ok d
  | _ => True

/-- A key is looked up only while no other request with that key is between its
lookup and its end; responses are stored; handlers do not throw after their
effects. -/
def serialKeys : Discipline (IdemCall J) (IdemCmd J H) IdemCmd.Reply Err (IdemDb J H)
    (Answer J) where
  onCall _ _ k := k.clean
  onStep cfg th c failed :=
    (∀ key, c = .findByKey key → failed = false → ∀ j th', j ≠ th.id → cfg.thread j = some th' →
      th'.call.keyed key = true → cfg.inProgress j = false) ∧
    (∀ i key h d s, c = .store i key h d s → failed = false)

/-! ## The phases of a key -/

inductive Phase (J H : Type) where
  | free
  | handling (i : ℕ)
  | storing (i : ℕ) (d : J)
  | recorded (rec : Record J H)

namespace Phase

/-- The record in the table. -/
def record : Phase J H → Option (Record J H)
  | .recorded rec => some rec
  | _ => none

/-- How often handlers can have had effects. -/
def effects : Phase J H → ℕ
  | .free | .handling _ => 0
  | .storing _ _ | .recorded _ => 1

/-- The request that is between its lookup and its end. -/
def busy : Phase J H → Option ℕ
  | .handling i => some i
  | .storing i _ => some i
  | _ => none

end Phase

/-- The request that the phase speaks of is where it says. -/
def Phase.located (hashRequest : String → String → J → H) (key : String) (cfg : IdemConfig J H) :
    Phase J H → Prop
  | .handling i => ∃ th r, cfg.thread i = some th ∧ th.begun = true ∧ th.call = .request r ∧
      checkKey r.idempotencyKey = .ok key ∧ th.proc = atHandler hashRequest i r key
  | .storing i d => ∃ th r, cfg.thread i = some th ∧ th.begun = true ∧ th.call = .request r ∧
      checkKey r.idempotencyKey = .ok key ∧ th.proc = atStore hashRequest i r key d
  | _ => True

/-- What is true of a key in a phase. -/
structure KeyState (hashRequest : String → String → J → H) (key : String) (cfg : IdemConfig J H)
    (ph : Phase J H) : Prop where
  record : cfg.state.findByKey key = ph.record
  effects : cfg.state.effects key ≤ ph.effects
  located : ph.located hashRequest key cfg
  busy : ∀ i th, cfg.thread i = some th → th.call.keyed key = true → cfg.inProgress i = true →
    ph.busy = some i
  answered : ∀ i th a, cfg.thread i = some th → th.call.keyed key = true →
    th.proc = .done (.ok (.response a)) →
    ∃ rec, ph = .recorded rec ∧ a = ⟨rec.statusCode, rec.response⟩

theorem keyed_request {r : Request J} {key : String} (h : checkKey r.idempotencyKey = .ok key)
    (key' : String) : (IdemCall.request r).keyed key' = decide (key = key') := by
  rw [IdemCall.keyed, h]

section Steps

variable {key : String} {cfg : IdemConfig J H} {ph : Phase J H} {t : ℕ} {th : IdemThread J H}
  {c : IdemCmd J H} {next : Except Err c.Reply → IdemProc J H (Answer J)}
  {r : Except Err (c.Reply × IdemDb J H)}

/-- A request that waits for its handler or its store is in progress. -/
theorem inProgress_of_await {i : ℕ} (hth : cfg.thread i = some th) (hbegun : th.begun = true)
    {c : IdemCmd J H} {next : Except Err c.Reply → IdemProc J H (Answer J)}
    (hproc : th.proc = .await c next) : cfg.inProgress i = true := by
  rw [Config.inProgress, hth]
  simp [hbegun, hproc, Proc.isDone]

/-- The busy request of a phase is keyed and in progress. -/
theorem Phase.located.inProgress (h : ph.located hashRequest key cfg) {i : ℕ}
    (hi : ph.busy = some i) :
    ∃ th, cfg.thread i = some th ∧ th.call.keyed key = true ∧ cfg.inProgress i = true := by
  cases ph with
  | free => cases hi
  | recorded rec => cases hi
  | handling j =>
    cases hi
    obtain ⟨th, r, hth, hbegun, hcall, hkey, hproc⟩ := h
    refine ⟨th, hth, ?_, inProgress_of_await hth hbegun hproc⟩
    rw [hcall, keyed_request hkey, decide_eq_true rfl]
  | storing j d =>
    cases hi
    obtain ⟨th, r, hth, hbegun, hcall, hkey, hproc⟩ := h
    refine ⟨th, hth, ?_, inProgress_of_await hth hbegun hproc⟩
    rw [hcall, keyed_request hkey, decide_eq_true rfl]

/-- Steps of other calls leave the busy request where it is. -/
theorem Phase.located.resume (h : ph.located hashRequest key cfg) (hth : cfg.thread t = some th)
    (hne : ph.busy ≠ some t) : ph.located hashRequest key (cfg.resume th next r) := by
  cases ph with
  | free => trivial
  | recorded rec => trivial
  | handling j =>
    obtain ⟨th', r', hth', hrest⟩ := h
    refine ⟨th', r', ?_, hrest⟩
    rw [Config.thread_resume_ne hth (fun hjt => hne (congrArg some hjt)), hth']
  | storing j d =>
    obtain ⟨th', r', hth', hrest⟩ := h
    refine ⟨th', r', ?_, hrest⟩
    rw [Config.thread_resume_ne hth (fun hjt => hne (congrArg some hjt)), hth']

/-- A step that changes nothing about the key: of a call without that key, or of
one that looks it up and ends. -/
theorem KeyState.frame (h : KeyState hashRequest key cfg ph) (hth : cfg.thread t = some th)
    (hrec : (after r cfg.state).findByKey key = cfg.state.findByKey key)
    (heff : (after r cfg.state).effects key = cfg.state.effects key)
    (hquiet : th.call.keyed key = true → cfg.inProgress t = false ∧
      (next (reply r)).isDone = true ∧ ∀ a, next (reply r) = .done (.ok (.response a)) →
        ∃ rec, ph = .recorded rec ∧ a = ⟨rec.statusCode, rec.response⟩) :
    KeyState hashRequest key (cfg.resume th next r) ph := by
  have hne : ph.busy ≠ some t := by
    intro hbusy
    obtain ⟨th', hth', hkeyed, hprogress⟩ := h.located.inProgress hbusy
    rw [hth] at hth'
    cases hth'
    rw [(hquiet hkeyed).1] at hprogress
    cases hprogress
  refine ⟨hrec.trans h.record, heff.trans_le h.effects, h.located.resume hth hne, ?_, ?_⟩
  · intro i th' hth' hkeyed hprogress
    by_cases hi : i = t
    · subst hi
      rw [Config.thread_resume, if_pos (Config.id_of_thread hth)] at hth'
      cases hth'
      rw [Config.inProgress_resume_self hth, (hquiet hkeyed).2.1] at hprogress
      cases hprogress
    · rw [Config.thread_resume_ne hth hi] at hth'
      rw [Config.inProgress_resume_ne hth hi] at hprogress
      exact h.busy i th' hth' hkeyed hprogress
  · intro i th' a hth' hkeyed hproc
    by_cases hi : i = t
    · subst hi
      rw [Config.thread_resume, if_pos (Config.id_of_thread hth)] at hth'
      cases hth'
      exact (hquiet hkeyed).2.2 a hproc
    · rw [Config.thread_resume_ne hth hi] at hth'
      exact h.answered i th' a hth' hkeyed hproc

/-- A step of the one request that is on its way takes the key to the next phase. -/
theorem KeyState.advance (h : KeyState hashRequest key cfg ph) (hth : cfg.thread t = some th)
    (hnone : ph.record = none) (halone : ∀ i ≠ t, ph.busy ≠ some i) {ph' : Phase J H}
    (hrec : (after r cfg.state).findByKey key = ph'.record)
    (heff : (after r cfg.state).effects key ≤ ph'.effects)
    (hlocated : ph'.located hashRequest key (cfg.resume th next r))
    (hbusy : (next (reply r)).isDone = false → ph'.busy = some t)
    (hanswer : ∀ a, next (reply r) = .done (.ok (.response a)) →
      ∃ rec, ph' = .recorded rec ∧ a = ⟨rec.statusCode, rec.response⟩) :
    KeyState hashRequest key (cfg.resume th next r) ph' := by
  refine ⟨hrec, heff, hlocated, ?_, ?_⟩
  · intro i th' hth' hkeyed hprogress
    by_cases hi : i = t
    · subst hi
      rw [Config.inProgress_resume_self hth] at hprogress
      exact hbusy (by simpa using hprogress)
    · rw [Config.thread_resume_ne hth hi] at hth'
      rw [Config.inProgress_resume_ne hth hi] at hprogress
      exact absurd (h.busy i th' hth' hkeyed hprogress) (halone i hi)
  · intro i th' a hth' hkeyed hproc
    by_cases hi : i = t
    · subst hi
      rw [Config.thread_resume, if_pos (Config.id_of_thread hth)] at hth'
      cases hth'
      exact hanswer a hproc
    · rw [Config.thread_resume_ne hth hi] at hth'
      obtain ⟨rec, rfl, -⟩ := h.answered i th' a hth' hkeyed hproc
      cases hnone

end Steps

/-! ## All runs -/

/-- No record stored for the key has expired. -/
def Live (key : String) (db : IdemDb J H) : Prop :=
  ∀ p ∈ db.stored, p.2.key = key → db.fresh p.2 = true

instance (key : String) (db : IdemDb J H) : Decidable (Live key db) :=
  inferInstanceAs (Decidable (∀ p ∈ db.stored, p.2.key = key → db.fresh p.2 = true))

/-- Stores are never forgotten and the clock never goes back. -/
theorem exec_grows {c : IdemCmd J H} {db db' : IdemDb J H} {a : c.Reply}
    (h : exec c db = .ok (a, db')) : (∀ p ∈ db.stored, p ∈ db'.stored) ∧ db.now ≤ db'.now := by
  cases c with
  | store i key hash d s =>
    cases h
    exact ⟨fun p hp => List.mem_append_left _ hp, le_rfl⟩
  | tick ms =>
    cases h
    exact ⟨fun p hp => hp, Nat.le_add_right ..⟩
  | _ =>
    cases h
    exact ⟨fun p hp => hp, le_rfl⟩

theorem Live.before {key : String} {c : IdemCmd J H} {db : IdemDb J H}
    {fault : Option Err} (h : Live key (after (outcome fault (exec c db)) db)) : Live key db := by
  cases hout : outcome fault (exec c db) with
  | error e =>
    rw [hout] at h
    exact h
  | ok r =>
    obtain ⟨a, db'⟩ := r
    rw [hout] at h
    obtain ⟨hstored, hnow⟩ := exec_grows (outcome_eq_ok hout).2
    intro p hp hkey
    have hfresh := h p (hstored p hp) hkey
    rw [IdemDb.fresh, decide_eq_true_eq] at hfresh ⊢
    exact hnow.trans hfresh

/-- Every record of the table was stored by someone. -/
def Sourced (db : IdemDb J H) : Prop := ∀ rec ∈ db.records, ∃ i, (i, rec) ∈ db.stored

theorem Sourced.exec {c : IdemCmd J H} {db db' : IdemDb J H} {a : c.Reply}
    (h : Sourced db) (hexec : exec c db = .ok (a, db')) : Sourced db' := by
  cases c with
  | store i key hash d s =>
    cases hexec
    intro rec hrec
    rcases Table.mem_put _ hrec with rfl | hold
    · exact ⟨i, List.mem_append_right _ (List.mem_singleton.mpr rfl)⟩
    · obtain ⟨j, hj⟩ := h rec hold
      exact ⟨j, List.mem_append_left _ hj⟩
  | deleteExpired =>
    cases hexec
    exact fun rec hrec => h rec (List.mem_of_mem_filter hrec)
  | _ =>
    cases hexec
    exact h

/-- A cleanup does not remove a record that has not expired. -/
theorem findByKey_deleteExpired {key : String} {db : IdemDb J H} (hsourced : Sourced db)
    (hlive : Live key db) :
    Table.get Record.key (db.records.filter db.fresh) key = db.findByKey key := by
  cases hget : db.findByKey key with
  | none =>
    rw [Table.get_eq_none]
    intro rec hrec
    exact (Table.get_eq_none _).mp hget rec (List.mem_of_mem_filter hrec)
  | some rec =>
    refine Table.get_filter _ hget ?_
    obtain ⟨i, hi⟩ := hsourced rec (Table.mem_of_get _ hget)
    exact hlive (i, rec) hi (Table.key_of_get _ hget)

/-- The invariant: every call is at a stage, and every live key in a phase. -/
structure Serialized [DecidableEq H] (hashRequest : String → String → J → H)
    (cfg : IdemConfig J H) : Prop where
  stage : ∀ i th, cfg.thread i = some th → Stage hashRequest i th
  clean : ∀ i th, cfg.thread i = some th → th.call.clean
  sourced : Sourced cfg.state
  phase : ∀ key, Live key cfg.state → ∃ ph, KeyState hashRequest key cfg ph

theorem Phase.record_of_busy {ph : Phase J H} {i : ℕ} (h : ph.busy = some i) :
    ph.record = none ∧ ph.effects ≤ 1 := by
  cases ph with
  | free => cases h
  | recorded rec => cases h
  | handling j => exact ⟨rfl, Nat.zero_le _⟩
  | storing j d => exact ⟨rfl, le_rfl⟩

/-- A key that is neither recorded nor busy is free. -/
theorem Phase.eq_free {ph : Phase J H} (hrec : ph.record = none) (hbusy : ph.busy = none) :
    ph = .free := by
  cases ph with
  | free => rfl
  | recorded rec => cases hrec
  | handling j => cases hbusy
  | storing j d => cases hbusy

section Cases

variable {key key' : String} {cfg : IdemConfig J H} {ph : Phase J H} {t : ℕ}
  {th : IdemThread J H} {r : Request J}

/-- The lookup: a key without a record and without another request on its way is
free, and now belongs to this request. -/
theorem KeyState.lookup (h : KeyState hashRequest key cfg ph) (hth : cfg.thread t = some th)
    (hbegun : th.begun = false) (hcall : th.call = .request r)
    (hkey : checkKey r.idempotencyKey = .ok key')
    {next : Except Err (IdemCmd.Reply (.findByKey key' : IdemCmd J H)) → IdemProc J H (Answer J)}
    (herr : ∀ e, next (.error e) = .done (.error e))
    (hnone : next (.ok none) = atHandler hashRequest t r key')
    (hsome : ∀ rec, (∃ e, next (.ok (some rec)) = .done (.error e)) ∨
      next (.ok (some rec)) = .done (.ok (.response ⟨rec.statusCode, rec.response⟩)))
    (fault : Option Err)
    (halone : fault = none → ∀ j th', j ≠ t → cfg.thread j = some th' →
      th'.call.keyed key' = true → cfg.inProgress j = false) :
    ∃ ph', KeyState hashRequest key
      (cfg.resume th next (outcome fault (exec (.findByKey key') cfg.state))) ph' := by
  have hidle : cfg.inProgress t = false := by
    rw [Config.inProgress, hth]
    simp [hbegun]
  have hkeyed : th.call.keyed key = decide (key' = key) := by rw [hcall, keyed_request hkey]
  cases fault with
  | some e =>
    refine ⟨ph, h.frame hth rfl rfl fun _ => ⟨hidle, congrArg Proc.isDone (herr e), ?_⟩⟩
    intro a ha
    rw [show next (reply (outcome (some e) (exec (.findByKey key') cfg.state))) =
      .done (.error e) from herr e] at ha
    cases ha
  | none =>
    by_cases hk : key' = key
    · subst hk
      cases hrec : cfg.state.findByKey key' with
      | some rec =>
        have hph : ph = .recorded rec := by
          have := h.record.symm.trans hrec
          cases ph <;> cases this
          rfl
        have hexec : exec (.findByKey key') cfg.state = .ok (some rec, cfg.state) := by
          rw [exec, hrec]
        rw [outcome_none, hexec]
        refine ⟨ph, h.frame hth rfl rfl fun _ => ⟨hidle, ?_, ?_⟩⟩
        · rcases hsome rec with ⟨e, he⟩ | hok
          · exact congrArg Proc.isDone he
          · exact congrArg Proc.isDone hok
        · intro a ha
          rcases hsome rec with ⟨e, he⟩ | hok
          · cases he.symm.trans ha
          · cases hok.symm.trans ha
            exact ⟨rec, hph, rfl⟩
      | none =>
        have hbusy : ph.busy = none := by
          cases hb : ph.busy with
          | none => rfl
          | some j =>
            obtain ⟨th', hth', hkeyed', hprogress⟩ := h.located.inProgress hb
            have hjt : j ≠ t := by
              rintro rfl
              rw [hidle] at hprogress
              cases hprogress
            rw [halone rfl j th' hjt hth' hkeyed'] at hprogress
            cases hprogress
        have hfree := Phase.eq_free (h.record.symm.trans hrec) hbusy
        subst hfree
        have hexec : exec (.findByKey key') cfg.state = .ok (none, cfg.state) := by
          rw [exec, hrec]
        rw [outcome_none, hexec]
        refine ⟨.handling t, h.advance hth rfl (fun _ _ => by simp [Phase.busy]) hrec h.effects
          ?_ (fun _ => rfl) ?_⟩
        · refine ⟨_, r, (Config.thread_resume ..).trans (if_pos (Config.id_of_thread hth)), rfl,
            hcall, hkey, hnone⟩
        · intro a ha
          cases hnone.symm.trans ha
    · refine ⟨ph, h.frame hth rfl rfl ?_⟩
      rw [hkeyed]
      intro hd
      exact absurd (of_decide_eq_true hd) hk

/-- A request on its way is the one that the phase of its key speaks of. -/
theorem KeyState.busy_self (h : KeyState hashRequest key cfg ph) (hth : cfg.thread t = some th)
    (hbegun : th.begun = true) (hcall : th.call = .request r)
    (hkey : checkKey r.idempotencyKey = .ok key) {c : IdemCmd J H}
    {next : Except Err c.Reply → IdemProc J H (Answer J)} (hproc : th.proc = .await c next) :
    ph.busy = some t := by
  refine h.busy t th hth ?_ (inProgress_of_await hth hbegun hproc)
  rw [hcall, keyed_request hkey, decide_eq_true rfl]

theorem effects_handle (db : IdemDb J H) (hkey : checkKey r.idempotencyKey = .ok key') :
    ({ db with executed := db.executed ++ [(t, r)] } : IdemDb J H).effects key =
      db.effects key + if key' = key ∧ r.outcome.effects = true then 1 else 0 := by
  unfold IdemDb.effects
  rw [List.countP_append, List.countP_singleton]
  simp only [keyed_request hkey, Bool.and_eq_true, decide_eq_true_eq]

/-- The handler: it throws and the key is free again, or it returns. -/
theorem KeyState.handle (h : KeyState hashRequest key cfg ph) (hth : cfg.thread t = some th)
    (hbegun : th.begun = true) (hcall : th.call = .request r) (hclean : th.call.clean)
    (hkey : checkKey r.idempotencyKey = .ok key')
    (hproc : th.proc = atHandler hashRequest t r key')
    {next : Except Err (IdemCmd.Reply (.handle t r : IdemCmd J H)) → IdemProc J H (Answer J)}
    (herr : ∀ e, next (.error e) = .done (.error e))
    (hthrow : ∀ e, next (.ok (.error e)) = .done (.error e))
    (hok : ∀ d, next (.ok (.ok d)) = atStore hashRequest t r key' d) (fault : Option Err) :
    ∃ ph', KeyState hashRequest key
      (cfg.resume th next (outcome fault (exec (.handle t r) cfg.state))) ph' := by
  have hkeyed : th.call.keyed key = decide (key' = key) := by rw [hcall, keyed_request hkey]
  by_cases hk : key' = key
  · subst hk
    have hbusy := h.busy_self hth hbegun hcall hkey hproc
    have hph : ph = .handling t := by
      cases ph with
      | free => cases hbusy
      | recorded rec => cases hbusy
      | handling j =>
        cases hbusy
        rfl
      | storing j d =>
        cases hbusy
        obtain ⟨th', r', hth', -, -, -, hproc'⟩ := h.located
        rw [hth] at hth'
        cases hth'
        cases hproc.symm.trans hproc'
    subst hph
    have halone : ∀ i ≠ t, (Phase.handling t : Phase J H).busy ≠ some i := by
      intro i hi hbusy'
      exact hi (Option.some.inj hbusy').symm
    cases fault with
    | some e =>
      refine ⟨.free, h.advance hth rfl halone h.record h.effects trivial ?_ ?_⟩
      · intro hrunning
        cases (congrArg Proc.isDone (herr e)).symm.trans hrunning
      · intro a ha
        cases (herr e).symm.trans ha
    | none =>
      have hexec : exec (.handle t r) cfg.state = .ok (r.outcome.result,
          { cfg.state with executed := cfg.state.executed ++ [(t, r)] }) := rfl
      rw [outcome_none, hexec]
      cases hres : r.outcome.result with
      | error e =>
        have hpure : r.outcome.effects ≠ true := by
          intro heffects
          rw [hcall] at hclean
          obtain ⟨d, hd⟩ := hclean heffects
          rw [hres] at hd
          cases hd
        refine ⟨.free, h.advance hth rfl halone h.record ?_ trivial ?_ ?_⟩
        · rw [after_ok, effects_handle cfg.state hkey, if_neg fun hc => hpure hc.2]
          exact h.effects
        · intro hrunning
          cases (congrArg Proc.isDone (hthrow e)).symm.trans hrunning
        · intro a ha
          cases (hthrow e).symm.trans ha
      | ok d =>
        refine ⟨.storing t d, h.advance hth rfl halone h.record ?_ ?_ (fun _ => rfl) ?_⟩
        · have hzero : cfg.state.effects key' ≤ 0 := h.effects
          rw [after_ok, effects_handle cfg.state hkey]
          change _ ≤ 1
          split <;> omega
        · exact ⟨_, r, (Config.thread_resume ..).trans (if_pos (Config.id_of_thread hth)), rfl,
            hcall, hkey, hok d⟩
        · intro a ha
          cases (hok d).symm.trans ha
  · refine ⟨ph, h.frame hth ?_ ?_ ?_⟩
    · cases fault <;> rfl
    · cases fault with
      | some e => rfl
      | none =>
        refine (effects_handle cfg.state hkey).trans ?_
        rw [if_neg fun hc => hk hc.1]
        rfl
    · rw [hkeyed]
      intro hd
      exact absurd (of_decide_eq_true hd) hk

/-- The store: the key is recorded. -/
theorem KeyState.store (h : KeyState hashRequest key cfg ph) (hth : cfg.thread t = some th)
    (hbegun : th.begun = true) (hcall : th.call = .request r)
    (hkey : checkKey r.idempotencyKey = .ok key') {d : J}
    (hproc : th.proc = atStore hashRequest t r key' d) {hash : H}
    {next : Except Err (IdemCmd.Reply (.store t key' hash d CREATED : IdemCmd J H)) →
      IdemProc J H (Answer J)}
    (hdone : ∀ x, next x = .done (.ok (.response ⟨CREATED, d⟩))) :
    ∃ ph', KeyState hashRequest key
      (cfg.resume th next (exec (.store t key' hash d CREATED) cfg.state)) ph' := by
  by_cases hk : key' = key
  · subst hk
    have hbusy := h.busy_self hth hbegun hcall hkey hproc
    obtain ⟨hnone, heffects⟩ := Phase.record_of_busy hbusy
    refine ⟨.recorded (cfg.state.record key' hash d CREATED), h.advance hth hnone ?_ ?_
      (h.effects.trans heffects) trivial ?_ ?_⟩
    · intro i hi hbusy'
      rw [hbusy] at hbusy'
      exact hi (Option.some.inj hbusy').symm
    · exact Table.get_put_self ..
    · intro hrunning
      cases (congrArg Proc.isDone (hdone _)).symm.trans hrunning
    · intro a ha
      cases (hdone _).symm.trans ha
      exact ⟨_, rfl, rfl⟩
  · refine ⟨ph, h.frame hth ?_ rfl ?_⟩
    · exact Table.get_put_ne _ hk
    · rw [hcall, keyed_request hkey]
      intro hd
      exact absurd (of_decide_eq_true hd) hk

end Cases

section Run

variable [DecidableEq H] {cfg : IdemConfig J H} {t : ℕ} {th : IdemThread J H}
  {c : IdemCmd J H} {next : Except Err c.Reply → IdemProc J H (Answer J)} {fault : Option Err}

/-- A call that was just made has not been answered. -/
theorem prog_not_answered (i : ℕ) (k : IdemCall J) (a : Response J) :
    prog hashRequest i k ≠ .done (.ok (.response a)) := by
  cases k with
  | tick ms =>
    intro h
    cases h
  | cleanup =>
    intro h
    cases h
  | request r =>
    cases hkey : checkKey r.idempotencyKey with
    | error e =>
      rw [prog_request_error hkey]
      intro h
      cases h
    | ok key =>
      rw [prog_request_ok hkey]
      intro h
      cases h

/-- A new call does not change the phase of a key. -/
theorem KeyState.spawn {key : String} {ph : Phase J H} (h : KeyState hashRequest key cfg ph)
    {i : ℕ} {k : IdemCall J} (hfresh : cfg.thread i = none) :
    KeyState hashRequest key (cfg.spawn i k (prog hashRequest i k)) ph := by
  refine ⟨h.record, h.effects, ?_, ?_, ?_⟩
  · have hold : ∀ j th, cfg.thread j = some th →
        (cfg.spawn i k (prog hashRequest i k)).thread j = some th := by
      intro j th hth
      rw [Config.thread_spawn, if_neg, hth]
      rintro rfl
      rw [hfresh] at hth
      cases hth
    cases ph with
    | free => trivial
    | recorded rec => trivial
    | handling j =>
      obtain ⟨th, r, hth, hrest⟩ := h.located
      exact ⟨th, r, hold j th hth, hrest⟩
    | storing j d =>
      obtain ⟨th, r, hth, hrest⟩ := h.located
      exact ⟨th, r, hold j th hth, hrest⟩
  · intro j th hth hkeyed hprogress
    rw [Config.inProgress_spawn hfresh] at hprogress
    rcases Config.thread_spawn_cases hth with ⟨rfl, rfl⟩ | hold
    · rw [Config.inProgress, hfresh] at hprogress
      cases hprogress
    · exact h.busy j th hold hkeyed hprogress
  · intro j th a hth hkeyed hproc
    rcases Config.thread_spawn_cases hth with ⟨rfl, rfl⟩ | hold
    · exact absurd hproc (prog_not_answered j k a)
    · exact h.answered j th a hold hkeyed hproc

/-- One step of an allowed run, seen from one key. -/
theorem Serialized.phase_step (h : Serialized hashRequest cfg) (hth : cfg.thread t = some th)
    (hproc : th.proc = .await c next)
    (hD : serialKeys.onStep cfg th c (failed (outcome fault (exec c cfg.state)))) {key : String}
    (hlive : Live key (after (outcome fault (exec c cfg.state)) cfg.state)) :
    ∃ ph, KeyState hashRequest key (cfg.resume th next (outcome fault (exec c cfg.state))) ph := by
  have hlive₀ := hlive.before
  obtain ⟨ph, hph⟩ := h.phase key hlive₀
  have hclean := h.clean t th hth
  cases (h.stage t th hth).awaits hproc with
  | tick ms next hcall hdone =>
    refine ⟨ph, hph.frame hth ?_ ?_ ?_⟩
    · cases fault <;> rfl
    · cases fault <;> rfl
    · rw [hcall]
      rintro ⟨⟩
  | cleanup next hcall hdone =>
    refine ⟨ph, hph.frame hth ?_ ?_ ?_⟩
    · cases fault with
      | none => exact findByKey_deleteExpired h.sourced hlive₀
      | some e => rfl
    · cases fault <;> rfl
    · rw [hcall]
      rintro ⟨⟩
  | lookup r key' next hbegun hcall hkey herr hnone hsome =>
    refine hph.lookup hth hbegun hcall hkey herr hnone hsome fault ?_
    rintro rfl j th' hj
    refine hD.1 key' rfl rfl j th' ?_
    rw [Config.id_of_thread hth]
    exact hj
  | handle r key' next hbegun hcall hkey hp herr hthrow hok =>
    exact hph.handle hth hbegun hcall hclean hkey hp herr hthrow hok fault
  | store r key' d next hbegun hcall hkey _ hp hdone =>
    cases fault with
    | some e => cases hD.2 _ _ _ _ _ rfl
    | none => exact hph.store hth hbegun hcall hkey hp hdone

theorem serialized_reach {now : Time} {ttlHours : ℕ}
    (h : Reach (server hashRequest) serialKeys (start now ttlHours) cfg) :
    Serialized hashRequest cfg := by
  refine h.invariant (I := Serialized hashRequest) ?init ?call ?step
  case init =>
    have hnone : ∀ i th, ¬ (start now ttlHours : IdemConfig J H).thread i = some th := by
      rintro i th ⟨⟩
    refine ⟨fun i th hth => absurd hth (hnone i th), fun i th hth => absurd hth (hnone i th),
      ?_, fun key _ => ⟨.free, rfl, le_rfl, trivial, ?_, ?_⟩⟩
    · rintro rec ⟨⟩
    · exact fun i th hth => absurd hth (hnone i th)
    · exact fun i th a hth => absurd hth (hnone i th)
  case call =>
    intro cfg i k hI hfresh hD
    refine ⟨?_, ?_, hI.sourced, ?_⟩
    · intro j th hth
      rcases Config.thread_spawn_cases hth with ⟨rfl, rfl⟩ | hold
      · exact .made rfl rfl
      · exact hI.stage j th hold
    · intro j th hth
      rcases Config.thread_spawn_cases hth with ⟨rfl, rfl⟩ | hold
      · exact hD
      · exact hI.clean j th hold
    · intro key hlive
      obtain ⟨ph, hph⟩ := hI.phase key hlive
      exact ⟨ph, hph.spawn hfresh⟩
  case step =>
    intro cfg i fault th c next hI hth hproc _ _ hD
    refine ⟨?_, ?_, ?_, ?_⟩
    · intro j th' hth'
      by_cases hj : j = i
      · subst hj
        rw [Config.thread_resume, if_pos (Config.id_of_thread hth)] at hth'
        cases hth'
        exact ((hI.stage j th hth).awaits hproc).stage fault cfg.state
      · rw [Config.thread_resume_ne hth hj] at hth'
        exact hI.stage j th' hth'
    · intro j th' hth'
      by_cases hj : j = i
      · subst hj
        rw [Config.thread_resume, if_pos (Config.id_of_thread hth)] at hth'
        cases hth'
        exact hI.clean j th hth
      · rw [Config.thread_resume_ne hth hj] at hth'
        exact hI.clean j th' hth'
    · rw [Config.resume_state]
      cases hout : outcome fault ((server hashRequest).exec c cfg.state) with
      | error e => exact hI.sourced
      | ok r =>
        obtain ⟨a, db'⟩ := r
        exact hI.sourced.exec (outcome_eq_ok hout).2
    · exact fun key hlive => hI.phase_step hth hproc hD hlive

end Run

/-! ### Two requests with one key -/

/-- The request itself in the place of its hash. -/
def plainHash (method url body : String) : String × String × String := (method, url, body)

/-- A deposit by `userId` whose handler returns `response`. -/
def depositRequest (userId : ℕ) (key response : String) : Request String where
  userId := userId
  idempotencyKey := some key
  method := "POST"
  url := "/api/v1/transactions/deposit"
  body := "100.00 USD"
  outcome := ⟨true, .ok response⟩

/-- `serialKeys`, as a check of steps. -/
def serialCheck (cfg : IdemConfig J H) (th : IdemThread J H) (c : IdemCmd J H) (failed : Bool) :
    Bool :=
  match c with
  | .findByKey key => failed || cfg.threads.all fun th' =>
      decide (th'.id = th.id) || !th'.call.keyed key || !cfg.inProgress th'.id
  | .store .. => !failed
  | _ => true

theorem serialKeys_of_check {cfg : IdemConfig J H} {th : IdemThread J H} {c : IdemCmd J H}
    {failed : Bool} (h : serialCheck cfg th c failed = true) :
    serialKeys.onStep cfg th c failed := by
  refine ⟨?_, ?_⟩
  · rintro key rfl rfl j th' hj hth' hkeyed
    simp only [serialCheck, Bool.false_or, List.all_eq_true] at h
    have hother := h th' (Table.mem_of_get _ hth')
    rw [Config.id_of_thread hth'] at hother
    simpa [hj, hkeyed] using hother
  · rintro i key hash d s rfl
    simpa [serialCheck] using h

/-- The second request comes after the first has been answered. -/
def oneAfterTheOther : List (Event (IdemCall String) Err) :=
  [.call 0 (.request (depositRequest 1 "order-0000000001" "tx-0")), .step 0 none, .step 0 none,
    .step 0 none, .call 1 (.request (depositRequest 1 "order-0000000001" "tx-1")), .step 1 none]

/-- Both requests look the key up before either stores its response. -/
def bothLookFirst : List (Event (IdemCall String) Err) :=
  [.call 0 (.request (depositRequest 1 "order-0000000001" "tx-0")),
    .call 1 (.request (depositRequest 1 "order-0000000001" "tx-1")),
    .step 0 none, .step 1 none, .step 0 none, .step 1 none, .step 0 none, .step 1 none]

/-- The answer of call `i`. -/
def answerOf (cfg : IdemConfig J H) (i : ℕ) : Option (Answer J) :=
  (cfg.thread i).bind fun th => th.proc.returned

end Idempotency

end NexaFx
