import NexaFx.Safety.AtMostOnce

/-!
# NexaFx — expired idempotency keys

`store` dates a record a number of hours ahead, the nightly job deletes what is
past its date, and the guard does not look at the date. So an expired key counts
as new exactly if the job has run since it expired (`first_request_iff`).
-/

namespace NexaFx

namespace Idempotency

open Async Proc

variable {J H : Type} {hashRequest : String → String → J → H}

-- ---------------------------------------------------------------------------
-- The property
-- ---------------------------------------------------------------------------

/-- What happens between two requests. -/
inductive Meanwhile where
  | cleanup
  | tick (ms : ℕ)
  deriving DecidableEq

/-- The job, or time passing. -/
def Meanwhile.apply (db : IdemDb J H) : Meanwhile → IdemDb J H
  | .cleanup => (cleanupExpiredKeys.run exec Proc.noFault db).2
  | .tick ms => ((await (.tick ms)).run exec Proc.noFault db).2

def IdemDb.later (db : IdemDb J H) (ms : List Meanwhile) : IdemDb J H := ms.foldl Meanwhile.apply db

/-- The job has run at a time when the record had expired. -/
def CleanedUp (expiresAt : Time) : IdemDb J H → List Meanwhile → Prop
  | _, [] => False
  | db, m :: ms => (m = .cleanup ∧ expiresAt < db.now) ∨ CleanedUp expiresAt (m.apply db) ms

section Property

variable [DecidableEq H]

/-- The request is served as the first one with its key. -/
structure FirstRequest (hashRequest : String → String → J → H) (i : ℕ) (request : Request J)
    (key : String) (db : IdemDb J H) : Prop where
  handled : ((prog hashRequest i (.request request)).run exec Proc.noFault db).2.executed =
    db.executed ++ [(i, request)]
  answered : ((prog hashRequest i (.request request)).run exec Proc.noFault db).1 =
    request.outcome.result.map fun d => .response ⟨CREATED, d⟩
  recorded : ∀ d, request.outcome.result = .ok d →
    ((prog hashRequest i (.request request)).run exec Proc.noFault db).2.findByKey key =
      some ⟨key, hashRequest request.method request.url request.body, d, CREATED,
        db.now + db.ttlHours * 3600000⟩

end Property

-- ---------------------------------------------------------------------------
-- The job and the clock
-- ---------------------------------------------------------------------------

section Later

variable {db : IdemDb J H} {key : String} {record : Record J H}

theorem Meanwhile.apply_cleanup (db : IdemDb J H) :
    Meanwhile.cleanup.apply db = { db with records := db.records.filter db.fresh } := rfl

theorem Meanwhile.apply_tick (db : IdemDb J H) (ms : ℕ) :
    (Meanwhile.tick ms).apply db = { db with now := db.now + ms } := rfl

theorem Meanwhile.keyed {m : Meanwhile} (h : (db.records.map Record.key).Nodup) :
    ((m.apply db).records.map Record.key).Nodup := by
  cases m with
  | cleanup => exact Table.nodup_filter Record.key h _
  | tick ms => exact h

/-- A record that is gone does not come back. -/
theorem findByKey_later_none {ms : List Meanwhile} (hkeyed : (db.records.map Record.key).Nodup)
    (hnone : db.findByKey key = none) : (db.later ms).findByKey key = none := by
  induction ms generalizing db with
  | nil => exact hnone
  | cons m ms ih =>
    refine ih (Meanwhile.keyed hkeyed) ?_
    cases m with
    | cleanup =>
      rw [Meanwhile.apply_cleanup, IdemDb.findByKey, Table.get_filter_of_nodup _ hkeyed]
      rw [IdemDb.findByKey] at hnone
      rw [hnone]
      rfl
    | tick ms => exact hnone

/-- A record is found until the job has run after its date. -/
theorem findByKey_later {ms : List Meanwhile} (hkeyed : (db.records.map Record.key).Nodup)
    (hrecord : db.findByKey key = some record) :
    (CleanedUp record.expiresAt db ms → (db.later ms).findByKey key = none) ∧
    (¬ CleanedUp record.expiresAt db ms → (db.later ms).findByKey key = some record) := by
  induction ms generalizing db with
  | nil => exact ⟨fun h => h.elim, fun _ => hrecord⟩
  | cons m ms ih =>
    cases m with
    | tick t =>
      obtain ⟨hgone, hthere⟩ := ih (Meanwhile.keyed (m := .tick t) hkeyed) hrecord
      refine ⟨fun h => hgone ?_, fun h => hthere fun hlater => h (Or.inr hlater)⟩
      rcases h with ⟨hcleanup, -⟩ | hlater
      · cases hcleanup
      · exact hlater
    | cleanup =>
      have hfound : (Meanwhile.cleanup.apply db).findByKey key =
          (some record).filter db.fresh := by
        rw [Meanwhile.apply_cleanup, IdemDb.findByKey, Table.get_filter_of_nodup _ hkeyed]
        exact congrArg (Option.filter db.fresh) hrecord
      by_cases hexpired : record.expiresAt < db.now
      · have hnone : (Meanwhile.cleanup.apply db).findByKey key = none := by
          rw [hfound]
          exact if_neg (by simp [IdemDb.fresh, hexpired])
        have hlater : ((Meanwhile.cleanup.apply db).later ms).findByKey key = none :=
          findByKey_later_none (Meanwhile.keyed (m := .cleanup) hkeyed) hnone
        exact ⟨fun _ => hlater, fun h => absurd (Or.inl ⟨rfl, hexpired⟩) h⟩
      · have hkept : (Meanwhile.cleanup.apply db).findByKey key = some record := by
          rw [hfound]
          exact if_pos (by simpa [IdemDb.fresh] using hexpired)
        obtain ⟨hgone, hthere⟩ := ih (Meanwhile.keyed (m := .cleanup) hkeyed) hkept
        refine ⟨fun h => hgone ?_, fun h => hthere fun hlater => h (Or.inr hlater)⟩
        rcases h with ⟨-, hpast⟩ | hlater
        · exact absurd hpast hexpired
        · exact hlater

end Later

-- ---------------------------------------------------------------------------
-- A request
-- ---------------------------------------------------------------------------

section Requests

variable [DecidableEq H] {db : IdemDb J H} {i : ℕ} {request : Request J} {key : String}

/-- Without a record the request is the first one. -/
theorem first_of_none (hkey : checkKey request.idempotencyKey = .ok key)
    (hnone : db.findByKey key = none) : FirstRequest hashRequest i request key db := by
  have hfirst : (prog hashRequest i (.request request)).run exec Proc.noFault db =
      (atHandler hashRequest i request key).run exec Proc.noFault db := by
    rw [prog_request_ok hkey, run_call_bind_ok rfl (show exec (.findByKey key) db =
      .ok (none, db) by rw [← hnone]; rfl)]
    rfl
  have hhandled : exec (.handle i request) db = .ok (request.outcome.result,
    { db with executed := db.executed ++ [(i, request)] }) := rfl
  unfold atHandler handle at hfirst
  simp only [Proc.bind_eq, Proc.bind_assoc] at hfirst
  rw [run_call_bind_ok rfl hhandled] at hfirst
  cases hresult : request.outcome.result with
  | error e =>
    rw [hresult] at hfirst
    refine ⟨?_, ?_, fun d hd => ?_⟩
    · rw [hfirst]
      rfl
    · rw [hfirst, hresult]
      rfl
    · rw [hresult] at hd
      cases hd
  | ok data =>
    rw [hresult] at hfirst
    refine ⟨?_, ?_, fun d hd => ?_⟩
    · rw [hfirst]
      rfl
    · rw [hfirst, hresult]
      rfl
    · rw [hresult] at hd
      cases hd
      rw [hfirst]
      exact Table.get_put_self Record.key _ _

/-- With a record the handler does not run. -/
theorem not_first_of_some (hkey : checkKey request.idempotencyKey = .ok key) {record : Record J H}
    (hsome : db.findByKey key = some record) : ¬ FirstRequest hashRequest i request key db := by
  intro h
  have hhandled := h.handled
  rw [prog_request_ok hkey, run_call_bind_ok rfl (show exec (.findByKey key) db =
    .ok (some record, db) by rw [← hsome]; rfl), afterLookup, run_rejectWhen_bind] at hhandled
  have hlength := congrArg List.length hhandled
  split at hlength <;> simp at hlength

/-- **Expired keys.** -/
theorem first_request_iff {record : Record J H} {ms : List Meanwhile}
    (hkeyed : (db.records.map Record.key).Nodup) (hrecord : db.findByKey key = some record)
    (hkey : checkKey request.idempotencyKey = .ok key) :
    FirstRequest hashRequest i request key (db.later ms) ↔ CleanedUp record.expiresAt db ms := by
  constructor
  · intro hfirst
    by_contra hcleaned
    exact not_first_of_some hkey ((findByKey_later hkeyed hrecord).2 hcleaned) hfirst
  · intro hcleaned
    exact first_of_none hkey ((findByKey_later hkeyed hrecord).1 hcleaned)

/-- A deposit is stored; the job runs, two days later. -/
def expiredKey : IdemDb String (String × String × String) where
  records := [⟨"order-0000000001", plainHash "POST" "/api/v1/transactions/deposit" "100.00 USD",
    "tx-0", 201, 86400000⟩]
  now := 172800000
  ttlHours := 24
  executed := []
  stored := []

/-- After the job has run, the deposit is made again. -/
theorem first_request_cleaned : FirstRequest plainHash 1 (depositRequest 1 "order-0000000001" "tx-1")
    "order-0000000001" (expiredKey.later [.cleanup]) :=
  (first_request_iff (by simp [expiredKey]) rfl (by decide +kernel)).mpr
    (Or.inl ⟨rfl, by decide⟩)

/-- Before it has, the old response is replayed. -/
theorem replayed_expired :
    ¬ FirstRequest plainHash 1 (depositRequest 1 "order-0000000001" "tx-1") "order-0000000001"
      expiredKey := by
  intro h
  have hreplayed : ((prog plainHash 1 (.request (depositRequest 1 "order-0000000001" "tx-1"))).run
      exec Proc.noFault expiredKey).2.executed.length = 0 := by decide +kernel
  rw [h.handled] at hreplayed
  cases hreplayed

end Requests

end Idempotency

end NexaFx
