import TribeHub.Library.Js

/-! Alert payloads and DiscordAlertService.sendAlert. The request body is a rendering
of the payload that nothing reads back, and is left out. -/
namespace TribeHub.Observability

inductive AlertSeverity where
  | critical
  | ops
  | security
  deriving DecidableEq

structure AlertPayload where
  queueName : String
  metric : String
  currentValue : ℚ
  threshold : Js.Number
  severity : AlertSeverity
  deriving DecidableEq

structure Alert where
  webhookUrl : Option String
  payload : AlertPayload
  deriving DecidableEq

structure Webhooks where
  critical : Option String
  ops : Option String
  security : Option String

inductive Delivery where
  | webhookNotConfigured
  | sendFailed (status : Nat)
  | sent
  | sendError (message : String)

/-- DiscordAlertService.sendAlert; `fetch` is the status of the response or the message of
the rejection, which the `catch` logs. -/
def sendAlert (alert : Alert) (fetch : Except String Nat) : Except String Delivery :=
  if alert.webhookUrl.getD "" = "" then .ok .webhookNotConfigured
  else
    match fetch with
    | .ok status => .ok (if 200 ≤ status ∧ status < 300 then .sent else .sendFailed status)
    | .error message => .ok (.sendError message)

theorem sendAlert_resolves (alert : Alert) (fetch : Except String Nat) :
    ∃ delivery, sendAlert alert fetch = .ok delivery := by
  unfold sendAlert
  split
  · exact ⟨_,rfl⟩
  · cases fetch with
    | ok status => exact ⟨_,rfl⟩
    | error message => exact ⟨_,rfl⟩

def sendAlerts (alerts : List Alert) (fetch : Alert → Except String Nat) :
    Except String (List Delivery) :=
  alerts.mapM (fun alert => sendAlert alert (fetch alert))

theorem sendAlerts_resolves (alerts : List Alert) (fetch : Alert → Except String Nat) :
    ∃ deliveries, sendAlerts alerts fetch = .ok deliveries := by
  unfold sendAlerts
  induction alerts with
  | nil => exact ⟨[],rfl⟩
  | cons alert rest ih =>
    obtain ⟨delivery,sent⟩ := sendAlert_resolves alert (fetch alert)
    obtain ⟨deliveries,others⟩ := ih
    exact ⟨delivery :: deliveries,by rw [List.mapM_cons,sent,others]; rfl⟩

end TribeHub.Observability
