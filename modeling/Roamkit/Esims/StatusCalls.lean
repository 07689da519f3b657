import Roamkit.Esims.Lifecycle
import Roamkit.Lib.Recorded
import Roamkit.Lib.LetterCase

/-!
# The calls that move a status

`record_client_event`, `transition` and `apply_provider_usage` take an eSIM that their
request has loaded. They read the status off that object and save it to the row, whatever
the row holds by then. `deliver` is a call by a request that loads the eSIM and has it to
itself; `statusProgram` runs any number of requests at once, each with an object of its own.
-/

namespace Roamkit.Esims

open Lib Billing Spend

/-! ## What the provider sent -/

namespace ProviderStatus

def key : ProviderStatus → String
  | active => "ACTIVE"
  | finished => "FINISHED"
  | expired => "EXPIRED"
  | notActive => "NOT_ACTIVE"
  | unknown => "UNKNOWN"
  | blank => ""

def all : List ProviderStatus := [active, finished, expired, notActive, unknown, blank]

end ProviderStatus

/-- `(usage.status or "").strip().upper()`, looked up in `_PROVIDER_USAGE_STATUS`. -/
def providerStatus? (status : String) : Option ProviderStatus :=
  ProviderStatus.all.find? (·.key = PyText.upper (PyText.strip status))

/-- The domain events about an eSIM. -/
inductive EsimNews where
  /-- `EsimInstalled` -/
  | installed
  /-- `EsimActivated` -/
  | activated
  /-- `EsimFirstUsageDetected` -/
  | firstUsageDetected
deriving DecidableEq

/-- What `apply_provider_usage` publishes; `status` is the one read back from the row. -/
def detections (previous status : EsimStatus) : List EsimNews :=
  (if previous ≠ .activated ∧ status ∈ [EsimStatus.activated, .inUse]
      ∧ previous ∉ [EsimStatus.activated, .inUse, .exhausted, .expired] then [.activated] else [])
    ++ (if previous ≠ .inUse ∧ status = .inUse
      ∧ previous ∉ [EsimStatus.exhausted, .expired] then [.firstUsageDetected] else [])

/-- What `_apply_client_side_effects` publishes. -/
def clientNews (eventType : String) : List EsimNews :=
  if eventType = "install.completed" then [.installed] else []

/-! ## One call at a time -/

variable (s : LifecycleDb)

namespace LifecycleDb

def atTime (now : Time) : LifecycleDb := { s with spend := { s.spend with now } }

/-- The events of `apply_provider_usage`, once the status is saved. -/
def recordUsage (esim : Nat) (p : ProviderStatus) : LifecycleDb :=
  (p.events esim s.spend.now).foldl record s

/-- `apply_provider_usage`, on an object that holds the status `previous`. -/
def applyProviderUsage (copy : Esim) (previous : EsimStatus) (payload : String) :
    LifecycleDb × List EsimNews :=
  match providerStatus? payload with
  | none => (s, [])
  | some p =>
    if previous = p.target then (s, [])
    else
      let s' := (s.saveStatus copy.id p.target).recordUsage copy.id p
      (s', detections previous (s'.status copy.id))

/-- `record_client_event`: the event, whether it was created, and what was published. -/
def recordClientEvent (copy : Esim) (status : EsimStatus) (eventType key : String) :
    Except Exc ((LifecycleEvent × Bool) × LifecycleDb × List EsimNews) :=
  if eventType ∉ clientEventAllowlist then .error (.unknownLifecycleEventType eventType)
  else
    match s.eventOf copy.id key with
    | some existing => .ok ((existing, false), s, [])
    | none =>
      match s.createClientEvent copy status eventType key with
      | .error e => .error e
      | .ok s' => .ok ((clientEvent copy.id eventType key, true), s', clientNews eventType)

end LifecycleDb

/-- What reaches the service about one eSIM. -/
inductive Delivery where
  | usage (payload : String)
  | client (eventType key : String)
deriving DecidableEq

/-- A request that loads the eSIM, and what it publishes. -/
def deliver (esim : Nat) (now : Time) (d : Delivery) : LifecycleDb × List EsimNews :=
  match s.spend.esims.find? (·.id = esim) with
  | none => (s, [])
  | some copy =>
    match d with
    | .usage payload => (s.atTime now).applyProviderUsage copy (s.status esim) payload
    | .client eventType key =>
      match (s.atTime now).recordClientEvent copy (s.status esim) eventType key with
      | .error _ => (s, [])
      | .ok (_, s', news) => (s', news)

/-- Requests one after the other, each at its time, and everything they publish. -/
def deliverAll (s : LifecycleDb) (esim : Nat) : List (Time × Delivery) → LifecycleDb × List EsimNews
  | [] => (s, [])
  | (now, d) :: ds =>
    let r := deliver s esim now d
    let rest := deliverAll r.1 esim ds
    (rest.1, r.2 ++ rest.2)

/-! ## Many requests at once -/

/-- A call a request makes on its object. -/
inductive StatusCall where
  | event (eventType key : String)
  | transition (target : EsimStatus)
  | usage (payload : String)
deriving DecidableEq

/-- Where a request is; `status` is what its object holds. -/
inductive StatusPc where
  /-- The eSIM is not loaded yet. -/
  | asked
  /-- Between two calls. -/
  | holding (copy : Esim) (status : EsimStatus)
  /-- In `record_client_event`: no event has the key, and its transaction comes next. -/
  | missed (copy : Esim) (status : EsimStatus) (eventType key : String)
  /-- In `apply_provider_usage`: the status is saved, its events come next. -/
  | overwritten (copy : Esim) (previous : EsimStatus) (p : ProviderStatus)
  | raised (e : Exc)
deriving DecidableEq

structure StatusRequest where
  esim : Nat
  calls : List StatusCall

structure StatusThread where
  esim : Nat
  /-- The calls that are left, the one that is under way first. -/
  left : List StatusCall
  pc : StatusPc

inductive StatusInput where
  /-- The query is answered, at a time. -/
  | go (now : Time)
  /-- The query fails, or the process is gone. -/
  | fail
deriving DecidableEq

variable (t : StatusThread)

namespace StatusThread

def stop (e : Exc) : StatusThread := { t with pc := .raised e }

/-- The call under way has returned. -/
def next (copy : Esim) (status : EsimStatus) : StatusThread :=
  { t with left := t.left.tail, pc := .holding copy status }

end StatusThread

/-- The status an object holds after a call of `_apply_client_side_effects` on it. -/
def clientTarget (status : EsimStatus) (eventType : String) : EsimStatus :=
  if eventType = "install.opened" ∧ status = .purchased then .installationStarted
  else if eventType = "install.completed"
    ∧ (status = .purchased ∨ status = .installationStarted) then
    .installed
  else status

/-- The object after its event; `setup_completed_at` is set on it as on the row. -/
def clientCopy (now : Time) (copy : Esim) (eventType : String) : Esim :=
  if eventType = "install.setup_confirmed" ∧ copy.setupCompletedAt = none then
    LifecycleDb.confirmed now copy else copy

/-- The step that begins a call. -/
def beginCall (t : StatusThread) (copy : Esim) (status : EsimStatus) :
    StatusCall → LifecycleDb × StatusThread
  | .event eventType key =>
    if eventType ∉ clientEventAllowlist then (s, t.stop (.unknownLifecycleEventType eventType))
    else
      match s.eventOf copy.id key with
      | some _ => (s, t.next copy status)
      | none => (s, { t with pc := .missed copy status eventType key })
  | .transition target =>
    match s.transition copy.id status target with
    | .error e => (s, t.stop e)
    | .ok s' => (s', t.next copy target)
  | .usage payload =>
    match providerStatus? payload with
    | none => (s, t.next copy status)
    | some p =>
      if status = p.target then (s, t.next copy status)
      else (s.saveStatus copy.id p.target, { t with pc := .overwritten copy status p })

/-- One query of a request; what it publishes is put behind what was published before. -/
def statusStep (t : StatusThread) : StatusInput → Option (LifecycleDb × StatusThread)
  | .fail =>
    match t.pc with
    | .raised _ => none
    | _ => some (s, t.stop .operational)
  | .go now =>
    match t.pc with
    | .raised _ => none
    | .asked =>
      match s.spend.esims.find? (·.id = t.esim) with
      | none => some (s, t.stop (.doesNotExist "Esim"))
      | some copy => some (s, { t with pc := .holding copy (s.status t.esim) })
    | .holding copy status =>
      match t.left with
      | [] => none
      | call :: _ => some (beginCall (s.atTime now) t copy status call)
    | .missed copy status eventType key =>
      match (s.atTime now).createClientEvent copy status eventType key with
      | .error e => some (s, t.stop e)
      | .ok s' => some (s', t.next (clientCopy now copy eventType) (clientTarget status eventType))
    | .overwritten copy _ p =>
      -- the object is refreshed from the row, which may have moved again
      let s' := (s.atTime now).recordUsage copy.id p
      some (s', t.next copy (s'.status copy.id))

def statusProgram : Program LifecycleDb StatusThread StatusRequest StatusInput where
  start r := ⟨r.esim, r.calls, .asked⟩
  step := statusStep

/-! ## The changes -/

inductive StatusWriter where
  | client
  | provider
deriving DecidableEq

/-- A committed change of a status. -/
structure StatusChange where
  esim : Nat
  before : EsimStatus
  after : EsimStatus
  writer : StatusWriter
deriving DecidableEq

/-- The object a request holds. -/
def StatusPc.copy? : StatusPc → Option Esim
  | .holding copy _ => some copy
  | .missed copy _ _ _ => some copy
  | .overwritten copy _ _ => some copy
  | _ => none

/-- In whose name a request writes next. -/
def StatusThread.writer : StatusWriter :=
  match t.pc, t.left with
  | .holding _ _, .usage _ :: _ => .provider
  | _, _ => .client

/-- The record of the changes, the newest first. -/
def noteChange (t : StatusThread) (_ : StatusInput) (s' : LifecycleDb) (_ : StatusThread)
    (changes : List StatusChange) : List StatusChange :=
  match t.pc.copy? with
  | none => changes
  | some copy =>
    if s'.status copy.id = s.status copy.id then changes
    else ⟨copy.id, s.status copy.id, s'.status copy.id, t.writer⟩ :: changes

end Roamkit.Esims
