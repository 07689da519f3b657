import Roamkit.AutoTopup.Policy
import Roamkit.Esims.Lifecycle

/-!
# Four writers and two key spaces

Clients choose the keys of their purchases and of their lifecycle events. The
initial credits, the evaluations of auto top-up policies, and the events of the
system and of the provider have keys the code derives, in the same two columns.
`keyProgram` runs all of them at once; a purchase takes its steps as in
`spendProgram`, and `record_client_event` and `get_usage` one query at a time.
-/

namespace Roamkit.Esims

open Lib Billing Spend AutoTopup

/-- An evaluation that has decided to buy, from whatever it read. -/
structure Evaluation (c : AutoTopupSettings) where
  policy : Policy
  esim : Esim
  now : Time
  plan : Plan
  decided : prepare c policy esim now = .ok (.buy plan)

inductive KeyCall (c : AutoTopupSettings) where
  /-- An order or a purchase of a client, or what goes on beside them. -/
  | spend (call : SpendCall)
  /-- The purchase of an evaluation. -/
  | evaluation (e : Evaluation c)
  /-- `record_client_event` -/
  | event (esim : Nat) (eventType key : String)
  /-- `UsageService.get_usage` -/
  | usage (esim : Nat)

/-- Where a call is; `copy` is the eSIM it has loaded. -/
inductive KeyPc where
  /-- Not begun. -/
  | asked
  | spending (t : SpendThread)
  /-- `record_client_event`, before its look-up. -/
  | loaded (copy : Esim) (status : EsimStatus)
  /-- No event has the key. -/
  | missed (copy : Esim) (status : EsimStatus)
  /-- The provider is asked for the usage. -/
  | observing (copy : Esim) (status : EsimStatus)
  /-- The usage is saved; the status is overwritten next. -/
  | overwriting (copy : Esim) (status : EsimStatus) (p : ProviderStatus)
  /-- The events of an overwritten status, those recorded and those left. -/
  | recording (recorded left : List LifecycleEvent)
  /-- `record_client_event` returned; whether it created the event. -/
  | answered (v : LifecycleEvent) (created : Bool)
  /-- `get_usage` returned, with the events it recorded. -/
  | recorded (events : List LifecycleEvent)
  | raised (e : Exc)
  /-- The process is gone. -/
  | gone

structure KeyThread (c : AutoTopupSettings) where
  call : KeyCall c
  pc : KeyPc

/-- What a step gets from outside. -/
inductive KeyInput where
  | go
  | spend (x : SpendInput)
  /-- The usage the provider sent, and the entry its status has in the table, if it has one. -/
  | usage (u : UsageCache) (p : Option ProviderStatus)
  /-- The transaction fails. -/
  | fail
  /-- The process is gone. -/
  | crash

variable (s : LifecycleDb)

namespace LifecycleDb

/-- The end of `create_purchased`. -/
def notePurchased (e : Esim) : LifecycleDb :=
  (s.saveStatus e.id .purchased).record (purchasedEvent e.id)

/-- The top-up that a step has just reserved. -/
def reservedBy : SpendPc → Option Topup
  | .requesting (.topup _ _ w) => some w
  | _ => none

/-- The top-ups of clients, after a step of a call. -/
def manualAfter (isManual : Bool) (pc : SpendPc) : Uuid → Bool :=
  match reservedBy pc with
  | some w => if isManual then Function.update s.manual w.id true else s.manual
  | none => s.manual

/-- The eSIMs a step made. -/
def newEsims (spend : SpendDb) : List Esim :=
  spend.esims.rows.filter fun e => (s.spend.esims.find? (·.id = e.id)).isNone

/-- A step of a purchase, with the events of the eSIMs it makes. -/
def spent (isManual : Bool) (pc : SpendPc) (spend : SpendDb) : LifecycleDb :=
  (s.newEsims spend).foldl notePurchased
    { s with spend, manual := s.manualAfter isManual pc }

/-- The look-up of `record_client_event`. -/
def lookUpEvent (copy : Esim) (status : EsimStatus) (eventType key : String) :
    KeyPc :=
  if eventType ∉ clientEventAllowlist then .raised (.unknownLifecycleEventType eventType)
  else
    match s.eventOf copy.id key with
    | some existing => .answered existing false
    | none => .missed copy status

end LifecycleDb

/-- A purchase of a client. -/
def KeyCall.isManual {c : AutoTopupSettings} : KeyCall c → Bool
  | .spend (.purchase _) => true
  | _ => false

/-- The first step of a call that is no purchase: its eSIM is loaded. -/
def load {c : AutoTopupSettings} : KeyCall c → Option KeyPc
  | .event esim _ _ =>
    match s.spend.esims.find? (·.id = esim) with
    | none => some (.raised (.doesNotExist "Esim"))
    | some copy => some (.loaded copy (s.status esim))
  | .usage esim =>
    match s.spend.esims.find? (·.id = esim) with
    | none => some (.raised (.doesNotExist "Esim"))
    | some copy => some (.observing copy (s.status esim))
  | _ => none

/-- A step of `record_client_event` after its eSIM is loaded. -/
def eventStep {c : AutoTopupSettings} :
    KeyCall c → KeyPc → Option (LifecycleDb × KeyPc)
  | .event _ eventType key, .loaded copy status =>
    some (s, s.lookUpEvent copy status eventType key)
  | .event _ eventType key, .missed copy status =>
    match s.createClientEvent copy status eventType key with
    | .error e => some (s, .raised e)
    | .ok s' => some (s', .answered (LifecycleDb.clientEvent copy.id eventType key) true)
  | _, _ => none

/-- A step of `get_usage` after its eSIM is loaded. -/
def usageStep : KeyPc → KeyInput → Option (LifecycleDb × KeyPc)
  | .observing copy status, .usage u p =>
    let s' := { s with spend := saveUsage s.spend copy.id u }
    match p with
    | none => some (s', .recorded [])
    | some p => some (s', if status = p.target then .recorded [] else .overwriting copy status p)
  | .overwriting copy _ p, .go =>
    some (s.saveStatus copy.id p.target, .recording [] (p.events copy.id s.spend.now))
  | .recording recorded [], .go => some (s, .recorded recorded)
  | .recording recorded (v :: left), .go => some (s.record v, .recording (recorded ++ [v]) left)
  | _, _ => none

/-- Whether a call has a query left. -/
def KeyPc.isLive : KeyPc → Bool
  | .asked => true
  | .loaded _ _ => true
  | .missed _ _ => true
  | .observing _ _ => true
  | .overwriting _ _ _ => true
  | .recording _ _ => true
  | _ => false

/-- One step of a call. -/
def keyStep (c : AutoTopupSettings) (s : LifecycleDb) (t : KeyThread c) (x : KeyInput) :
    Option (LifecycleDb × KeyPc) :=
  match t.pc, x with
  | .spending u, .spend y =>
    (spendStep c.spend s.spend u y).map fun r =>
      (s.spent t.call.isManual r.2.pc r.1, .spending r.2)
  | .spending _, _ => none
  | pc, .crash => if pc.isLive then some (s, .gone) else none
  | pc, .fail => if pc.isLive then some (s, .raised .operational) else none
  | .asked, .go => (load s t.call).map fun pc => (s, pc)
  | .loaded copy status, .go => eventStep s t.call (.loaded copy status)
  | .missed copy status, .go => eventStep s t.call (.missed copy status)
  | pc, x => usageStep s pc x

/-- The four writers, run concurrently. -/
def keyProgram (c : AutoTopupSettings) :
    Program LifecycleDb (KeyThread c) (KeyCall c) KeyInput where
  start
    | .spend call => ⟨.spend call, .spending ⟨call, .asked⟩⟩
    | .evaluation e => ⟨.evaluation e, .spending ⟨.purchase e.plan.args, .asked⟩⟩
    | call => ⟨call, .asked⟩
  step s t x := (keyStep c s t x).map fun r => (r.1, { t with pc := r.2 })

end Roamkit.Esims
