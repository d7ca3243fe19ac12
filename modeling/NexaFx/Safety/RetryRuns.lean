import NexaFx.Model.Webhooks

/-!
# NexaFx — runs of the retry job

What `retryFailedDeliveries` does when it runs alone and no await of it fails:
delivery after delivery, one step each (`retryStep`).
-/

namespace NexaFx

open Async Proc

namespace Webhooks

/-- What one retry does. -/
def retryStep (st : WebhookDb) (delivery : WebhookDelivery) : WebhookDb :=
  if delivery.maxRetries ≤ delivery.retryCount then st.update delivery.id exhausted
  else
    match st.endpoint delivery.endpointId with
    | none => st
    | some endpoint =>
      if endpoint.isActive = false then st
      else
        let answered : WebhookDb := WebhookDb.serve
          { st with log := st.log ++ [.sent delivery.id] } delivery.id
        match (st.net st.served).result with
        | .error error =>
          answered.update delivery.id (delivery.retried error
            (if delivery.retryCount + 1 < delivery.maxRetries
              then some (answered.now + backoffMs (delivery.retryCount + 1)) else none))
        | .ok status => answered.update delivery.id (delivery.succeeded status answered.now)

section Runs

variable (sign : String → Body → String)

theorem retryFailed_run (st : WebhookDb) (delivery : WebhookDelivery) (error : Thrown) :
    (retryFailed delivery error).run exec noFault st =
      (.ok (), st.update delivery.id (delivery.retried error
        (if delivery.retryCount + 1 < delivery.maxRetries
          then some (st.now + backoffMs (delivery.retryCount + 1)) else none))) := by
  unfold retryFailed
  split
  · rfl
  · rfl

theorem retryOne_run (st : WebhookDb) (delivery : WebhookDelivery) :
    (retryOne sign delivery).run exec noFault st = (.ok (), retryStep st delivery) := by
  unfold retryOne retryStep
  split
  · rfl
  · simp only [Proc.bind_eq]
    rw [Proc.run_call_bind_ok rfl (show exec (.findEndpoint delivery.endpointId) st =
      .ok (st.endpoint delivery.endpointId, st) from rfl)]
    cases st.endpoint delivery.endpointId with
    | none => rfl
    | some endpoint =>
      simp only
      split
      · rfl
      · rw [Proc.run_call_bind_ok rfl rfl, Proc.run_call_bind_ok rfl rfl,
          Proc.run_call_bind_ok rfl rfl]
        dsimp only
        cases (st.net st.served).result with
        | error error => exact retryFailed_run _ delivery error
        | ok status => rfl

theorem retryAll_run (due : List WebhookDelivery) (st : WebhookDb) :
    (retryAll sign due).run exec noFault st = (.ok (), due.foldl retryStep st) := by
  induction due generalizing st with
  | nil => rfl
  | cons delivery due ih =>
    rw [retryAll, Proc.bind_eq, Proc.run_bind_ok (retryOne_run sign st delivery), ih]
    rfl

theorem retryFailedDeliveries_run (st : WebhookDb) :
    (retryFailedDeliveries sign).run exec noFault st =
      (.ok (), st.findDue.foldl retryStep st) := by
  unfold retryFailedDeliveries
  rw [Proc.bind_eq, Proc.run_call_bind_ok rfl rfl]
  exact retryAll_run sign st.findDue st

end Runs

end Webhooks

end NexaFx
