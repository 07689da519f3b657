import Roamkit.AutoTopup.Versions

/-!
# The beat

`evaluate_due` evaluates one policy after the other. Others write between any two
reads of an evaluation, so a `Visit` says what each of its reads and calls meets:
a row that may have changed since the last read or be gone, a transaction that
fails, an answer of the usage service and of the purchase.
-/

namespace Roamkit.AutoTopup

open Lib Spend

/-- A policy, its eSIM, and whether the user of its account is staff, if it has one. -/
structure PolicyRow where
  policy : Policy
  esim : Esim
  isStaff : Option Bool

/-- What an evaluation meets, in the order it asks. -/
structure Visit where
  /-- The row the first transaction of `_prepare` locks. -/
  first : Except Exc (Option PolicyRow)
  firstAt : Time
  /-- `UsageService.get_usage` -/
  usage : Except Exc Unit
  /-- The eSIM as `refresh_from_db` reads it after that. -/
  reread : Except Exc (Option Esim)
  rereadAt : Time
  /-- The row the second transaction of `_prepare` locks. -/
  second : Except Exc (Option PolicyRow)
  secondAt : Time
  /-- `TopupService.purchase` -/
  purchase : PurchaseArgs → Except Exc Topup
  /-- The row the transaction of the outcome reads. -/
  outcome : Except Exc (Option Policy)

/-- `.get(…)`, which raises when there is no row. -/
def get {α : Type} (model : String) : Except Exc (Option α) → Except Exc α
  | .error e => .error e
  | .ok none => .error (.doesNotExist model)
  | .ok (some a) => .ok a

variable (c : AutoTopupSettings) (s : PolicyDb)

/-- `_master_enabled` -/
def AutoTopupSettings.masterEnabled : Bool :=
  c.enabled && c.spend.billingEnabled

/-- `_ensure_fresh_usage` -/
def ensureFreshUsage (v : Visit) (esim : Esim) : Except Exc Bool :=
  if isFresh c esim.usage.syncedAt v.firstAt then .ok true
  else
    match v.usage with
    | .error _ => .ok false
    | .ok () => do
      let esim ← get "Esim" v.reread
      return isFresh c esim.usage.syncedAt v.rereadAt

/-- `_prepare` -/
def prepareVisit (v : Visit) : Except Exc Prepared :=
  match v.first with
  | .error e => .error e
  | .ok none => .ok .skipped
  | .ok (some row) =>
    if ¬ row.policy.enabled ∨ row.policy.status ≠ .active then .ok .skipped
    else
      match rolloutAllows c row.policy.account row.isStaff with
      | .error e => .error e
      | .ok false => .ok .skipped
      | .ok true =>
        match ensureFreshUsage c v row.esim with
        | .error e => .error e
        | .ok false => .ok .skipped
        | .ok true => do
          let row ← get "EsimAutoTopupPolicy" v.second
          prepare c row.policy row.esim v.secondAt

/-- A transaction on the policy after the decision, and what is returned after it. -/
def Visit.conclude (v : Visit) (o : Outcome) : Except Exc Outcome := do
  let _ ← get "EsimAutoTopupPolicy" v.outcome
  return o

/-- `evaluate_one` -/
def evaluateOne (v : Visit) : Except Exc Outcome :=
  match prepareVisit c v with
  | .error e => .error e
  | .ok .skipped => .ok .skipped
  -- `_finalize_schedule_ended`
  | .ok .scheduleEnded => v.conclude .paused
  | .ok (.buy plan) =>
    match v.purchase plan.args with
    -- `_on_success`
    | .ok _ => v.conclude .success
    | .error e =>
      match caught e with
      | .ended o => .ok o
      | .pausing => v.conclude .paused
      | .blocking => v.conclude .blocked
      | _ => .error e

/-- What `evaluate_due` returns. -/
inductive Stats where
  /-- `{"disabled": 1}` -/
  | disabled
  | counted (count : Outcome → Nat)

/-- How a batch ended, and the policies evaluated before that. -/
structure Batch where
  evaluated : List Uuid
  result : Except Exc Stats

/-- The loop of `evaluate_due`. -/
def evaluateEach (c : AutoTopupSettings) (visit : Uuid → Visit) :
    List Uuid → (Outcome → Nat) → List Uuid → Batch
  | [], count, evaluated => ⟨evaluated, .ok (.counted count)⟩
  | id :: ids, count, evaluated =>
    match evaluateOne c (visit id) with
    | .error e => ⟨evaluated, .error e⟩
    | .ok o =>
      evaluateEach c visit ids (Function.update count o (count o + 1)) (evaluated ++ [id])

/-- Whether the batch takes a policy up. -/
def Policy.isDue (policy : Policy) : Bool := policy.enabled && policy.status = .active

/-- `evaluate_due`, of policies in the order they were created. -/
def evaluateDue (policies : List Policy) (visit : Uuid → Visit) : Batch :=
  if c.masterEnabled then
    evaluateEach c visit ((policies.filter Policy.isDue).map Policy.id) (fun _ => 0) []
  else ⟨[], .ok .disabled⟩

/-!
## Whether an eSIM is topped up

Three parts of the program read it off the policies, each in its own way: the status of a
device, the public status of an eSIM, and the beat, which takes policies up.
-/

/-- `_auto_topup_snapshot` of `device_status` -/
def deviceAutoTopup (esim : Nat) : Bool :=
  match s.policyOf esim with
  | none => false
  | some row => row.policy.enabled && row.policy.status = .active

/-- `_auto_topup_snapshot` of `public_status` -/
def publicAutoTopup (esim : Nat) : Bool :=
  s.policies.rows.any fun row => row.policy.esim = esim && row.policy.status = .active

/-- The eSIMs of the policies that `evaluate_due` takes up. -/
def dueEsims : List Nat :=
  ((s.policies.rows.map StoredPolicy.policy).filter Policy.isDue).map Policy.esim

end Roamkit.AutoTopup
