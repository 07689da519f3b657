import Roamkit.Exceptions
import Roamkit.Lib.Table
import Roamkit.Lib.Tally
import Roamkit.Lib.Threads
import Roamkit.Values

/-!
# The credit ledger

`CreditService` is the only writer of `Account.balance` and of the append-only
ledger. Money is a number of millionths, the scale of the `numeric(20, 6)`
columns.

Two readings of the service are given. `Books.apply` is one call of `_apply` run
on its own. `creditProgram` is the same calls as threads that take the row lock,
look the key up, insert the entry, save the account and commit in separate
steps, any of which may raise; a transaction's writes are its own until it
commits.
-/

namespace Roamkit.Billing

open Lib

inductive LedgerReferenceType where
  | deposit
  | order
  | topup
  | subscription
  | refund
  | adminAdjustment
  | voucher
  | partnerMargin
  | partnerGrantOut
  | partnerGrantIn
  | partnerInviteBonus
deriving DecidableEq

namespace LedgerReferenceType

def value : LedgerReferenceType → String
  | deposit => "deposit"
  | order => "order"
  | topup => "topup"
  | subscription => "subscription"
  | refund => "refund"
  | adminAdjustment => "admin_adjustment"
  | voucher => "voucher"
  | partnerMargin => "partner_margin"
  | partnerGrantOut => "partner_grant_out"
  | partnerGrantIn => "partner_grant_in"
  | partnerInviteBonus => "partner_invite_bonus"

def choices : List LedgerReferenceType :=
  [deposit, order, topup, subscription, refund, adminAdjustment, voucher, partnerMargin,
    partnerGrantOut, partnerGrantIn, partnerInviteBonus]

end LedgerReferenceType

/-- A reference type as a caller gives it: a member, or its value. -/
inductive RawReferenceType where
  | member (t : LedgerReferenceType)
  | str (s : String)
deriving DecidableEq

/-! ## Rows -/

/-- `max_digits=20, decimal_places=6`: at most 14 digits before the point. -/
def maxMoney : Int := 10 ^ 20

/-- The largest value of a `PositiveIntegerField`. -/
def maxVersion : Nat := 2147483647

/-- The columns of `Account` the ledger reads and writes. -/
structure Account where
  id : Uuid
  balance : Int
  version : Nat
deriving DecidableEq

instance : Constraint Account where
  clash a b := a.id = b.id
  symm := Eq.symm
  decClash _ _ := inferInstance

structure CreditLedgerEntry where
  account : Uuid
  delta : Int
  balanceAfter : Int
  referenceType : LedgerReferenceType
  referenceId : String
  idempotencyKey : String
deriving DecidableEq

instance : Constraint CreditLedgerEntry where
  clash e f := e.idempotencyKey = f.idempotencyKey
  symm := Eq.symm
  decClash _ _ := inferInstance

/-- Whether every value fits its column. -/
def CreditLedgerEntry.fits (e : CreditLedgerEntry) : Bool :=
  e.balanceAfter.natAbs < maxMoney && e.referenceId.length ≤ 64 && e.idempotencyKey.length ≤ 128

/-- The two tables of the ledger. -/
structure Books where
  accounts : Table Account
  entries : Table CreditLedgerEntry

variable (b : Books)

/-- The entries of one account, in the order they were applied. -/
def Books.entriesOf (account : Uuid) : List CreditLedgerEntry :=
  b.entries.rows.filter (·.account = account)

/-! ## `_normalize_amount`, `_normalize_reference_type` -/

/-- A positive amount of money that fits a column. -/
@[ext] structure Amount where
  micros : Int
  pos : 0 < micros
  lt : micros < maxMoney
deriving DecidableEq

/-- `Decimal(str(amount))`; `none` where it raises. -/
def toDecimal : RawAmount → Option PyDecimal
  | .decimal d => some d
  | .int n => if PyText.fitsStr n then some (.finite ⟨n, 0⟩) else none
  | .str s => PyDecimal.ofStr s

/-- Writing the message of an `int` too long for `str` raises in its turn. -/
def unreadable : RawAmount → Exc
  | .int _ => .valueError
  | amount => .invalidAmount (.unreadable amount)

def normalizeAmount (amount : RawAmount) : Except Exc Amount :=
  match toDecimal amount with
  | none => .error (unreadable amount)
  | some (.infinity _) => .error (.invalidAmount .notFinite)
  | some (.nan _) => .error (.invalidAmount .notFinite)
  | some (.finite d) =>
    match d.quantize 6 with
    | none => .error .invalidOperation
    | some n =>
      if h : 0 < n then
        if h' : n < maxMoney then .ok ⟨n, h, h'⟩
        else .error (.invalidAmount .outOfRange)
      else .error (.invalidAmount .notPositive)

def normalizeReferenceType : RawReferenceType → Except Exc LedgerReferenceType
  | .member t => .ok t
  | .str s =>
    match LedgerReferenceType.choices.find? (·.value = s) with
    | some t => .ok t
    | none => .error (.invalidReferenceType s)

/-! ## Postings -/

/-- The arguments of `_apply` once it has normalized them. -/
structure Posting where
  account : Uuid
  amount : Amount
  /-- `sign > 0`: a credit. -/
  credit : Bool
  referenceType : LedgerReferenceType
  referenceId : String
  idempotencyKey : String
  /-- A key is required. -/
  keyed : idempotencyKey ≠ ""

namespace Posting

def delta (p : Posting) : Int := if p.credit then p.amount.micros else -p.amount.micros

/-- The row `_apply` inserts when the balance before is `balance`. -/
def entry (p : Posting) (balance : Int) : CreditLedgerEntry where
  account := p.account
  delta := p.delta
  balanceAfter := balance + p.delta
  referenceType := p.referenceType
  referenceId := p.referenceId
  idempotencyKey := p.idempotencyKey

end Posting

/-- The part of `_apply` before its transaction. -/
def preparePosting (account : Uuid) (amount : RawAmount) (referenceType : RawReferenceType)
    (referenceId idempotencyKey : String) (credit : Bool) : Except Exc Posting := do
  let normalized ← normalizeAmount amount
  let refType ← normalizeReferenceType referenceType
  if h : idempotencyKey = "" then
    .error (.creditService "idempotency_key is required")
  else
    .ok ⟨account, normalized, credit, refType, referenceId, idempotencyKey, h⟩

/-! ## `_apply` on its own -/

namespace Books

/-- Insert the entry and save the balance and the version of the locked row. -/
def post (row : Account) (e : CreditLedgerEntry) : Option Books :=
  match b.entries.insert? e with
  | none => none
  | some entries =>
    some {
      accounts := b.accounts.update (·.id = row.id)
        (fun a => { a with balance := e.balanceAfter, version := row.version + 1 })
        (fun _ _ h => h)
      entries }

/-- The transaction of `_apply`, with nothing else going on. -/
def apply (p : Posting) : Except Exc (Books × CreditLedgerEntry) :=
  match b.accounts.find? (·.id = p.account) with
  | none => .error (.doesNotExist "Account")
  | some locked =>
    match b.entries.find? (·.idempotencyKey = p.idempotencyKey) with
    | some existing => .ok (b, existing)
    | none =>
      if locked.balance + p.delta < 0 then
        .error (.insufficientFunds locked.balance p.amount.micros)
      else if ¬ (p.entry locked.balance).fits then .error .data
      else
        match b.post locked (p.entry locked.balance) with
        | none => .error .integrity
        | some b' =>
          if maxVersion < locked.version + 1 then .error .data
          else .ok (b', p.entry locked.balance)

/-- `ledger_sum`. -/
def ledgerSum (account : Uuid) : Option Int :=
  (Dec.ofUnits 6 (total CreditLedgerEntry.delta (b.entriesOf account))).quantize 6

end Books

/-! ## The calls as threads -/

/-- A call of the service. `uuid` arguments are what `uuid4()` answers during the call. -/
inductive CreditCall where
  | credit (account : Uuid) (amount : RawAmount) (referenceType : RawReferenceType)
      (referenceId idempotencyKey : String)
  | debit (account : Uuid) (amount : RawAmount) (referenceType : RawReferenceType)
      (referenceId idempotencyKey : String)
  | adminAdjust (account : Uuid) (amount : RawAmount) (credit : Bool) (reason actorId : String)
      (idempotencyKey : Option String) (keyUuid refUuid : Uuid)
  | rebuild (account : Uuid)

/-- What a call does once its arguments are checked. -/
inductive CreditTask where
  | post (p : Posting)
  | rebuild (account : Uuid)

/-- `idempotency_key or f"admin-adjust:{uuid4()}"` -/
def adminKey (idempotencyKey : Option String) (keyUuid : Uuid) : String :=
  match idempotencyKey with
  | some key => if key = "" then "admin-adjust:" ++ keyUuid.str else key
  | none => "admin-adjust:" ++ keyUuid.str

def CreditCall.prepare : CreditCall → Except Exc CreditTask
  | credit account amount referenceType referenceId key =>
    .post <$> preparePosting account amount referenceType referenceId key true
  | debit account amount referenceType referenceId key =>
    .post <$> preparePosting account amount referenceType referenceId key false
  | adminAdjust account amount isCredit reason actorId idempotencyKey keyUuid refUuid =>
    if PyText.strip reason = "" then
      .error (.creditService "Admin adjustment reason is required")
    else
      .post <$> preparePosting account amount (.member .adminAdjustment)
        (actorId ++ ":" ++ refUuid.str) (adminKey idempotencyKey keyUuid) isCredit
  | rebuild account => .ok (.rebuild account)

/-- How a call ended. -/
inductive CreditOutcome where
  | applied (e : CreditLedgerEntry)
  | replayed (e : CreditLedgerEntry)
  | rebuilt (balance : Int)
  | raised (e : Exc)
deriving DecidableEq

/-- Where a call is. -/
inductive CreditThread where
  /-- Not begun. -/
  | asked (call : CreditCall)
  /-- Holds the account's row, read as `row`. -/
  | locked (p : Posting) (row : Account)
  /-- The key is new and the balance suffices. -/
  | cleared (p : Posting) (row : Account)
  /-- `entry.save()` is done, uncommitted. -/
  | inserted (p : Posting) (row : Account)
  /-- `locked.save(…)` is done too. -/
  | saved (p : Posting) (row : Account)
  /-- The insert met a committed entry with the key; the transaction is rolled back. -/
  | conflicted (p : Posting)
  /-- `rebuild_balance_from_ledger` holds the row. -/
  | rebuilding (row : Account)
  /-- The balance was found wrong and saved anew, uncommitted. -/
  | repaired (row : Account) (expected : Int)
  | finished (o : CreditOutcome)

/-- The committed tables, the locked account rows and the keys inserted but not committed. -/
structure LedgerDb where
  books : Books
  locked : Uuid → Bool
  inserting : String → Bool

/-- A database at rest. -/
def LedgerDb.ofBooks : LedgerDb := ⟨b, fun _ => false, fun _ => false⟩

namespace CreditThread

/-- The account row a thread holds, as it read it. -/
def row : CreditThread → Option Account
  | locked _ row => some row
  | cleared _ row => some row
  | inserted _ row => some row
  | saved _ row => some row
  | rebuilding row => some row
  | repaired row _ => some row
  | _ => none

/-- The posting a thread is at. -/
def posting : CreditThread → Option Posting
  | locked p _ => some p
  | cleared p _ => some p
  | inserted p _ => some p
  | saved p _ => some p
  | conflicted p => some p
  | _ => none

/-- The account a thread holds the lock of. -/
def held (t : CreditThread) : Option Uuid := t.row.map Account.id

/-- The key of the uncommitted entry of a thread. -/
def key : CreditThread → Option String
  | inserted p _ => some p.idempotencyKey
  | saved p _ => some p.idempotencyKey
  | _ => none

end CreditThread

variable (s : LedgerDb)

namespace LedgerDb

def lock (account : Uuid) : LedgerDb :=
  { s with locked := Function.update s.locked account true }

def reserve (key : String) : LedgerDb :=
  { s with inserting := Function.update s.inserting key true }

/-- The end of a thread's transaction, committed or rolled back. -/
def release (t : CreditThread) : LedgerDb where
  books := s.books
  locked a := s.locked a && t.held ≠ some a
  inserting k := s.inserting k && t.key ≠ some k

end LedgerDb

open CreditThread in
/--
One step of a call. `go = false` is the step that raises instead, from the
database or because the process is gone: whatever the transaction wrote is
rolled back.
-/
def creditStep (t : CreditThread) (go : Bool) : Option (LedgerDb × CreditThread) :=
  let raise (e : Exc) := some (s.release t, finished (.raised e))
  match t with
  | finished _ => none
  | asked call =>
    if ¬ go then raise .operational
    else
      match call.prepare with
      | .error e => raise e
      | .ok (.post p) =>
        if s.locked p.account then none
        else
          match s.books.accounts.find? (·.id = p.account) with
          | none => raise (.doesNotExist "Account")
          | some row => some (s.lock row.id, locked p row)
      | .ok (.rebuild account) =>
        if s.locked account then none
        else
          match s.books.accounts.find? (·.id = account) with
          | none => raise (.doesNotExist "Account")
          | some row => some (s.lock row.id, rebuilding row)
  | locked p row =>
    if ¬ go then raise .operational
    else
      match s.books.entries.find? (·.idempotencyKey = p.idempotencyKey) with
      | some existing => some (s.release t, finished (.replayed existing))
      | none =>
        if row.balance + p.delta < 0 then
          raise (.insufficientFunds row.balance p.amount.micros)
        else some (s, cleared p row)
  | cleared p row =>
    if ¬ go then raise .operational
    else if ¬ (p.entry row.balance).fits then raise .data
    else if s.inserting p.idempotencyKey then none
    else
      match s.books.entries.find? (·.idempotencyKey = p.idempotencyKey) with
      | some _ => some (s.release t, conflicted p)
      | none => some (s.reserve p.idempotencyKey, inserted p row)
  | inserted p row =>
    if ¬ go then raise .operational
    else if maxVersion < row.version + 1 then raise .data
    else some (s, saved p row)
  | saved p row =>
    if ¬ go then raise .operational
    else
      match s.books.post row (p.entry row.balance) with
      | none => raise .integrity
      | some books =>
        some ({ s.release t with books }, finished (.applied (p.entry row.balance)))
  | conflicted p =>
    if ¬ go then raise .operational
    else
      match s.books.entries.find? (·.idempotencyKey = p.idempotencyKey) with
      | some existing => some (s.release t, finished (.replayed existing))
      | none => raise .integrity
  | rebuilding row =>
    if ¬ go then raise .operational
    else
      match s.books.ledgerSum row.id with
      | none => raise .invalidOperation
      | some expected =>
        if row.balance = expected then some (s.release t, finished (.rebuilt expected))
        else if maxVersion < row.version + 1 ∨ maxMoney ≤ expected.natAbs then raise .data
        else if expected < 0 then raise .integrity
        else some (s, repaired row expected)
  | repaired row expected =>
    if ¬ go then raise .operational
    else
      some ({ s.release t with
        books := { s.books with
          accounts := s.books.accounts.update (·.id = row.id)
            (fun a => { a with balance := expected, version := row.version + 1 })
            (fun _ _ h => h) } }, finished (.rebuilt expected))

/-- `CreditService`, its calls run concurrently. -/
def creditProgram : Program LedgerDb CreditThread CreditCall Bool where
  start := .asked
  step := creditStep

end Roamkit.Billing
