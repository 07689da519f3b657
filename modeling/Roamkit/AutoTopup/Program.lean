import Roamkit.AutoTopup.Policy

/-!
# Evaluations in flight

`autoTopupProgram` runs any number of `evaluate_one` calls of one policy at once,
by the beat or enqueued, among refreshes of the eSIM's usage, postings of other
services and the passing of time. Each transaction of `_prepare`, the usage
refresh in between, each step of the purchase and the transaction of
`_on_success` is one step, and the process may be gone between any two.
-/

namespace Roamkit.AutoTopup

open Lib Spend Billing

inductive AutoTopupCall where
  | evaluate
  /-- `UsageService.get_usage` of the policy's eSIM. -/
  | refresh
  | post (p : ForeignPosting)
  | wait (d : Nat)

/-- What `evaluate_one` returns. -/
inductive Outcome where
  | success
  | skipped
  | paused
  | blocked
  | failed
deriving DecidableEq

/-- Where a call is. -/
inductive AutoTopupPc where
  /-- Not begun. -/
  | asked
  /-- `_ensure_fresh_usage`, with the eSIM as the first transaction loaded it. -/
  | refreshing (esim : Esim)
  /-- The usage was refreshed and is read back. -/
  | rereading (esim : Nat)
  /-- The second transaction of `_prepare`. -/
  | preparing
  /-- The purchase; `seen` is what had been published when it was decided. -/
  | purchasing (plan : Plan) (seen : List AutoTopupSucceeded) (t : SpendThread)
  /-- `_on_success` -/
  | succeeding (plan : Plan) (topup : Topup)
  /-- `_pause_funds` -/
  | pausing
  /-- `_block_package` -/
  | blocking
  | ended (o : Outcome)
  | raised (e : Exc)
  /-- The process is gone. -/
  | crashed
  /-- A call beside the evaluations is done. -/
  | done

structure AutoTopupThread where
  call : AutoTopupCall
  pc : AutoTopupPc

/-- What a step gets from outside. -/
inductive AutoTopupInput where
  | go
  /-- Whether the user of the account is staff, if there is one. -/
  | staff (isStaff : Option Bool)
  /-- The provider's reply, and whether the lifecycle service raises on it. -/
  | usage (r : Airalo.HttpReply) (lifecycleRaises : Bool)
  | spend (x : SpendInput)
  /-- The transaction fails. -/
  | fail
  /-- The process is gone. -/
  | crash

structure AutoTopupDb where
  spend : SpendDb
  policy : Policy
  /-- The `AutoTopupSucceeded` events published. -/
  events : List AutoTopupSucceeded

/-- The eSIM of a primary key. -/
def AutoTopupDb.esim? (s : AutoTopupDb) (esim : Nat) : Option Esim :=
  s.spend.esims.find? (·.id = esim)

/-- The spend call of a call beside the evaluations. -/
def AutoTopupCall.beside : AutoTopupCall → Option SpendCall
  | post p => some (.post p)
  | wait d => some (.wait d)
  | _ => none

/-- What `_evaluate_one_inner` does with what `purchase` raised. -/
def caught : Exc → AutoTopupPc
  | .esimOwnershipChanged _ => .ended .skipped
  | .insufficientFunds _ _ => .pausing
  | .topupPackageNotFound _ => .blocking
  | .spendInProgress _ => .ended .failed
  | .providerFulfillment _ => .ended .failed
  | e => .raised e

/-- Where an evaluation is after a step of its purchase. -/
def purchased (plan : Plan) (seen : List AutoTopupSucceeded) (t : SpendThread) : AutoTopupPc :=
  match t.pc with
  | .replayed (.topup u) => .succeeding plan u
  | .fulfilled (.topup u) => .succeeding plan u
  | .refused e => caught e
  | .refunded _ e => caught e
  | .abandoned _ e => caught e
  | .crashed _ => .crashed
  | _ => .purchasing plan seen t

variable (c : AutoTopupSettings)

/-- The first transaction of `_prepare`. -/
def firstRead (s : AutoTopupDb) (isStaff : Option Bool) : AutoTopupPc :=
  if ¬ s.policy.enabled ∨ s.policy.status ≠ .active then .ended .skipped
  else
    match rolloutAllows c s.policy.account isStaff with
    | .error e => .raised e
    | .ok false => .ended .skipped
    | .ok true =>
      match s.esim? s.policy.esim with
      | none => .raised (.doesNotExist "Esim")
      | some esim => .refreshing esim

/-- The second transaction of `_prepare`, with the pause it writes. -/
def decideTopup (s : AutoTopupDb) : AutoTopupDb × AutoTopupPc :=
  match s.esim? s.policy.esim with
  | none => (s, .raised (.doesNotExist "Esim"))
  | some esim =>
    match prepare c s.policy esim s.spend.now with
    | .error e => (s, .raised e)
    | .ok .skipped => (s, .ended .skipped)
    | .ok .scheduleEnded => ({ s with policy := s.policy.paused .scheduleEnded }, .ended .paused)
    | .ok (.buy plan) => (s, .purchasing plan s.events ⟨.purchase plan.args, .asked⟩)

/-- The transaction of `_on_success`, and its event. -/
def recordSuccess (s : AutoTopupDb) (plan : Plan) (topup : Topup) :
    AutoTopupDb :=
  { s with
    policy := s.policy.succeeded c s.spend.now topup plan.idempotencyKey
    events := s.events ++ [s.policy.successEvent s.spend.now topup] }

/-- Whether a call can still take a step. -/
def AutoTopupPc.isLive : AutoTopupPc → Bool
  | ended _ => false
  | raised _ => false
  | crashed => false
  | done => false
  | _ => true

/-- Whether a call is at a transaction of its own. -/
def AutoTopupPc.isQuerying : AutoTopupPc → Bool
  | asked => true
  | rereading _ => true
  | preparing => true
  | succeeding _ _ => true
  | pausing => true
  | blocking => true
  | _ => false

/-- One step of a call. -/
def autoTopupStep (s : AutoTopupDb) (t : AutoTopupThread) (x : AutoTopupInput) :
    Option (AutoTopupDb × AutoTopupThread) :=
  let move (s : AutoTopupDb) (pc : AutoTopupPc) := some (s, { t with pc })
  match t.pc, x with
  | .purchasing plan seen u, .spend y =>
    match spendStep c.spend s.spend u y with
    | none => none
    | some (spend, u') => move { s with spend } (purchased plan seen u')
  | .purchasing _ _ _, _ => none
  | pc, .crash => if pc.isLive then move s .crashed else none
  | pc, .fail => if pc.isQuerying then move s (.raised .operational) else none
  | .asked, .staff isStaff =>
    match t.call with
    | .evaluate => move s (firstRead c s isStaff)
    | _ => none
  | .asked, .usage r _ =>
    match t.call with
    | .refresh =>
      match s.esim? s.policy.esim with
      | none => move s (.raised (.doesNotExist "Esim"))
      | some esim =>
        match getUsage c.spend.writer c.parseDatetime s.spend.now esim.iccid r with
        | .error e => move s (.raised e)
        | .ok usage => move { s with spend := saveUsage s.spend esim.id usage } .done
    | _ => none
  | .asked, .spend y =>
    match t.call.beside with
    | none => none
    | some call =>
      match spendStep c.spend s.spend ⟨call, .asked⟩ y with
      | none => none
      | some (spend, _) => move { s with spend } .done
  | .refreshing esim, .go =>
    if isFresh c esim.usage.syncedAt s.spend.now then move s .preparing else none
  | .refreshing esim, .usage r lifecycleRaises =>
    if isFresh c esim.usage.syncedAt s.spend.now then none
    else
      match getUsage c.spend.writer c.parseDatetime s.spend.now esim.iccid r with
      | .error _ => move s (.ended .skipped)
      | .ok usage =>
        move { s with spend := saveUsage s.spend esim.id usage }
          (if lifecycleRaises then .ended .skipped else .rereading esim.id)
  | .rereading esim, .go =>
    match s.esim? esim with
    | none => move s (.raised (.doesNotExist "Esim"))
    | some esim =>
      move s (if isFresh c esim.usage.syncedAt s.spend.now then .preparing else .ended .skipped)
  | .preparing, .go => move (decideTopup c s).1 (decideTopup c s).2
  | .succeeding plan topup, .go => move (recordSuccess c s plan topup) (.ended .success)
  | .pausing, .go =>
    move { s with policy := s.policy.paused .insufficientFunds } (.ended .paused)
  | .blocking, .go => move { s with policy := s.policy.blocked } (.ended .blocked)
  | _, _ => none

/-- The evaluations of one policy, run concurrently. -/
def autoTopupProgram :
    Program AutoTopupDb AutoTopupThread AutoTopupCall AutoTopupInput where
  start call := ⟨call, .asked⟩
  step := autoTopupStep c

end Roamkit.AutoTopup
