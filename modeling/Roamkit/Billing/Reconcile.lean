import Mathlib.Data.List.Sort
import Roamkit.Billing.Credit
import Roamkit.Lib.Sweep

/-!
# Balances against the ledger

`Account.balance` is a cache of the sum of an account's entries. `ReconcileService`
compares the two and reports, `RebuildService` sets the cache anew; neither writes an
entry. Both go through the accounts in the order of their keys. A rebuild of one account
is a transaction of its own, so `rebuild_all` keeps what it repaired before the account
it raises at. It is read twice, as the service is: on its own, and as a loop of calls with
others served meanwhile.
-/

namespace Roamkit.Billing

open Lib

/-- `BalanceDrift` -/
structure BalanceDrift where
  accountId : Uuid
  cachedBalance : Int
  ledgerSum : Int
deriving DecidableEq

def BalanceDrift.drift (d : BalanceDrift) : Int := d.cachedBalance - d.ledgerSum

/-- The event `reconcile` publishes. -/
structure BalanceDriftDetected (τ : Type) where
  accountId : Uuid
  cachedBalance : Int
  ledgerSum : Int
  drift : Int
  detectedAt : τ

/-- What `reconcile` returns, and the events it published. -/
structure ReconcileReport (τ : Type) where
  checked : Nat
  drifts : Nat
  published : List (BalanceDriftDetected τ)

/-- What `rebuild_all` returns. -/
structure RebuildStats where
  checked : Nat
  repaired : Nat
deriving DecidableEq

variable (b : Books)

namespace Books

/-- `Account.objects.order_by("pk")` -/
def accountsByPk : List Account :=
  b.accounts.rows.insertionSort fun x y => x.id.str ≤ y.id.str

/-- `ledger_sum`, raising where the sum has too many digits. -/
def expected (account : Uuid) : Except Exc Int :=
  match b.ledgerSum account with
  | none => .error .invalidOperation
  | some n => .ok n

/-! ## `ReconcileService` -/

/-- The loop of `find_drifts`. -/
def driftsAmong (b : Books) : List Account → Except Exc (List BalanceDrift)
  | [] => .ok []
  | account :: rest => do
    let expected ← b.expected account.id
    let drifts ← b.driftsAmong rest
    return if account.balance ≠ expected then ⟨account.id, account.balance, expected⟩ :: drifts
      else drifts

def findDrifts : Except Exc (List BalanceDrift) := b.driftsAmong b.accountsByPk

def reconcile {τ : Type} (now : τ) : Except Exc (ReconcileReport τ) := do
  let drifts ← b.findDrifts
  return {
    checked := b.accounts.rows.length
    drifts := drifts.length
    published := drifts.map fun d => ⟨d.accountId, d.cachedBalance, d.ledgerSum, d.drift, now⟩ }

/-! ## `rebuild_balance_from_ledger` on its own -/

/-- Save the balance and the next version of a locked row. -/
def mend (row : Account) (expected : Int) : Books where
  accounts := b.accounts.update (·.id = row.id)
    (fun a => { a with balance := expected, version := row.version + 1 }) (fun _ _ h => h)
  entries := b.entries

def rebuild (account : Uuid) : Except Exc (Books × Int) :=
  match b.accounts.find? (·.id = account) with
  | none => .error (.doesNotExist "Account")
  | some locked =>
    match b.expected locked.id with
    | .error e => .error e
    | .ok expected =>
      if locked.balance = expected then .ok (b, expected)
      else if maxVersion < locked.version + 1 ∨ maxMoney ≤ expected.natAbs then .error .data
      -- `CHECK (balance >= 0)`
      else if expected < 0 then .error .integrity
      else .ok (b.mend locked expected, expected)

/-! ## `RebuildService` -/

/-- The loop of `rebuild_all`: each account is rebuilt in its own transaction. -/
def rebuildAmong (b : Books) (stats : RebuildStats) : List Account → Books × Except Exc RebuildStats
  | [] => (b, .ok stats)
  | account :: rest =>
    match b.rebuild account.id with
    | .error e => (b, .error e)
    | .ok (b', after) =>
      b'.rebuildAmong
        { checked := stats.checked + 1
          repaired := if account.balance ≠ after then stats.repaired + 1 else stats.repaired }
        rest

def rebuildAll : Books × Except Exc RebuildStats := b.rebuildAmong ⟨0, 0⟩ b.accountsByPk

end Books

/-! ## A call on its own -/

/-- What a call answers. -/
inductive CreditAnswer where
  | entry (e : CreditLedgerEntry)
  | balance (n : Int)

/-- What a call of `CreditService` does when no other is served meanwhile. -/
def CreditCall.serve (call : CreditCall) : Except Exc (Books × CreditAnswer) :=
  match call.prepare with
  | .error e => .error e
  | .ok (.post p) => (b.apply p).map fun r => (r.1, .entry r.2)
  | .ok (.rebuild account) => (b.rebuild account).map fun r => (r.1, .balance r.2)

/-- What an outcome answers; a used key is answered with its entry. -/
def CreditOutcome.answer : CreditOutcome → Option CreditAnswer
  | applied e => some (.entry e)
  | replayed e => some (.entry e)
  | rebuilt n => some (.balance n)
  | raised _ => none

/-! ## `rebuild_all` among other calls -/

/-- How a call ended, once it has. -/
def CreditThread.outcome : CreditThread → Option CreditOutcome
  | asked _ => none
  | finished o => some o
  | _ => none

def CreditThread.answer (t : CreditThread) : Option CreditAnswer :=
  t.outcome.bind CreditOutcome.answer

/-- `rebuild_all` keeps the rows it goes through, for the balances before. -/
def rebuildSweep : Sweep LedgerDb CreditThread CreditCall Unit
    (Option (List Account)) CreditOutcome where
  ask _ := none
  plan s _ := (some s.books.accountsByPk, some (s.books.accountsByPk.map fun a => .rebuild a.id))
  outcome := CreditThread.outcome
  -- nothing is caught
  stops
    | .raised _ => true
    | _ => false

/-- What `rebuild_all` answers, of the rows it went through and how each call ended. -/
def rebuildAnswer (before : List Account) (done : List (CreditCall × CreditOutcome)) :
    Except Exc RebuildStats :=
  match done.getLast? with
  | some (_, .raised e) => .error e
  | _ =>
    .ok {
      checked := done.length
      repaired := (before.zip done).countP fun r =>
        match r.2.2 with
        | .rebuilt after => r.1.balance ≠ after
        | _ => false }

/-- `CreditService`, and `rebuild_all` as it calls it. -/
def rebuildProgram := creditProgram.withSweep rebuildSweep

end Roamkit.Billing
