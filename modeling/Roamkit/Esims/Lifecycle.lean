import Roamkit.Lib.Isoformat
import Roamkit.Spend.Program

/-!
# `LifecycleService`

The lifecycle status of an eSIM and the events that are recorded for it. A client
records events under keys of its own; the system and the provider record theirs,
by get-or-create, under keys derived from the eSIM and the time of the change.
-/

namespace Roamkit.Esims

open Lib Billing Spend

/-- `Esim.Status` -/
inductive EsimStatus where
  | purchased
  | installationStarted
  | installed
  | activated
  | inUse
  | exhausted
  | expired
  | unknown
deriving DecidableEq

def EsimStatus.value : EsimStatus → String
  | purchased => "purchased"
  | installationStarted => "installation_started"
  | installed => "installed"
  | activated => "activated"
  | inUse => "in_use"
  | exhausted => "exhausted"
  | expired => "expired"
  | unknown => "unknown"

/-- `_ALLOWED` -/
def allowed : EsimStatus → List EsimStatus
  | .purchased => [.installationStarted, .installed]
  | .installationStarted => [.installed]
  | .installed => [.activated, .exhausted, .expired]
  | .activated => [.inUse, .exhausted, .expired]
  | .inUse => [.exhausted, .expired]
  | .exhausted => [.expired, .activated, .inUse]
  | .expired => [.activated, .inUse]
  | .unknown =>
    [.purchased, .installationStarted, .installed, .activated, .inUse, .exhausted, .expired]

inductive EventSource where
  | client
  | system
  | provider
deriving DecidableEq

/-- `EsimLifecycleEvent` -/
structure LifecycleEvent where
  esim : Nat
  eventType : String
  source : EventSource
  idempotencyKey : String
deriving DecidableEq

instance : Constraint LifecycleEvent where
  clash v w := v.esim = w.esim ∧ v.idempotencyKey = w.idempotencyKey
  symm h := ⟨h.1.symm, h.2.symm⟩
  decClash _ _ := inferInstance

/-- `CLIENT_EVENT_ALLOWLIST` -/
def clientEventAllowlist : List String :=
  ["install.opened", "install.qr_rendered", "install.qr_zoomed", "install.apple_install_clicked",
    "install.manual_install_clicked", "install.completed", "install.roaming_checklist_viewed",
    "install.setup_confirmed", "install.setup_skipped"]

structure LifecycleDb where
  spend : SpendDb
  /-- The lifecycle status of an eSIM. -/
  status : Nat → EsimStatus
  events : Table LifecycleEvent
  /-- Not a column: the top-ups that a client's purchase reserved. -/
  manual : Uuid → Bool

/-! ## Keys -/

variable (esim : Nat)

/-- `f"system.purchased:{esim.pk}"` -/
def purchasedKey : String := "system.purchased:" ++ toString esim

/-- `f"system.status.{target}:{esim.pk}:{esim.updated_at.isoformat()}"` -/
def statusKey (target : EsimStatus) (updatedAt : Time) : String :=
  "system.status." ++ target.value ++ ":" ++ toString esim ++ ":" ++ Isoformat.isoformat updatedAt

/-- `f"provider.usage_unknown:{esim.pk}:{esim.updated_at.isoformat()}"` -/
def usageUnknownKey (updatedAt : Time) : String :=
  "provider.usage_unknown:" ++ toString esim ++ ":" ++ Isoformat.isoformat updatedAt

def purchasedEvent : LifecycleEvent :=
  ⟨esim, "system.purchased", .system, purchasedKey esim⟩

def statusEvent (target : EsimStatus) (updatedAt : Time) : LifecycleEvent :=
  ⟨esim, "system.status." ++ target.value, .system, statusKey esim target updatedAt⟩

def usageUnknownEvent (updatedAt : Time) : LifecycleEvent :=
  ⟨esim, "provider.usage_unknown", .provider, usageUnknownKey esim updatedAt⟩

variable (s : LifecycleDb)

namespace LifecycleDb

/-- The event of an eSIM that has a key. -/
def eventOf (esim : Nat) (key : String) : Option LifecycleEvent :=
  s.events.find? fun v => v.esim = esim && v.idempotencyKey = key

/--
`_record_system_event`, `_record_provider_event`: get or create. What is derived
fits its column, so a row is created where none has the key.
-/
def record (v : LifecycleEvent) : LifecycleDb :=
  match s.eventOf v.esim v.idempotencyKey with
  | some _ => s
  | none =>
    match s.events.insert? v with
    | none => s
    | some events => { s with events }

/-- A status is saved. -/
def saveStatus (esim : Nat) (target : EsimStatus) : LifecycleDb :=
  { s with status := Function.update s.status esim target }

/-- `transition`; `current` is the status of the copy it is called with. -/
def transition (esim : Nat) (current target : EsimStatus) :
    Except Exc LifecycleDb :=
  if current = target then .ok s
  else if target ∉ allowed current then
    .error (.invalidLifecycleTransition current.value target.value)
  else .ok ((s.saveStatus esim target).record (statusEvent esim target s.spend.now))

/-! ## Client events -/

/-- An eSIM whose setup was confirmed. -/
def confirmed (now : Time) (e : Esim) : Esim := { e with setupCompletedAt := some now }

/-- `_apply_client_side_effects`, on the copy of the eSIM the view loaded. -/
def applyClientSideEffects (copy : Esim) (status : EsimStatus) (eventType : String) :
    Except Exc LifecycleDb :=
  if eventType = "install.opened" then
    if status = .purchased then s.transition copy.id status .installationStarted else .ok s
  else if eventType = "install.completed" then
    if status = .purchased ∨ status = .installationStarted then
      s.transition copy.id status .installed
    else .ok s
  else if eventType = "install.setup_confirmed" then
    if copy.setupCompletedAt = none then
      .ok { s with spend := { s.spend with
        esims := s.spend.esims.update (·.id = copy.id) (confirmed s.spend.now) (fun _ _ h => h) } }
    else .ok s
  else .ok s

/-- The row `record_client_event` creates. -/
def clientEvent (eventType key : String) : LifecycleEvent :=
  ⟨esim, eventType, .client, key⟩

/-- The transaction of `record_client_event`. -/
def createClientEvent (copy : Esim) (status : EsimStatus) (eventType key : String) :
    Except Exc LifecycleDb :=
  if 128 < key.length then .error .data
  else
    match s.events.insert? (clientEvent copy.id eventType key) with
    | none => .error .integrity
    | some events => { s with events }.applyClientSideEffects copy status eventType

end LifecycleDb

/-! ## What the provider reports -/

/-- The keys of `_PROVIDER_USAGE_STATUS`. -/
inductive ProviderStatus where
  | active
  | finished
  | expired
  | notActive
  | unknown
  | blank
deriving DecidableEq

/-- `_PROVIDER_USAGE_STATUS` -/
def ProviderStatus.target : ProviderStatus → EsimStatus
  | active => .inUse
  | finished => .exhausted
  | expired => .expired
  | notActive => .purchased
  | unknown => .unknown
  | blank => .purchased

/-- The events `apply_provider_usage` records for a status it overwrote. -/
def ProviderStatus.events (p : ProviderStatus) (esim : Nat) (updatedAt : Time) :
    List LifecycleEvent :=
  statusEvent esim p.target updatedAt
    :: if p = .unknown then [usageUnknownEvent esim updatedAt] else []

end Roamkit.Esims
