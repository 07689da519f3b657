import Roamkit.Billing.Credit
import Roamkit.Lib.Json

/-!
# Deposit verification

`DepositVerificationService` on the legacy path: a client names a transaction and
an amount, the service finds or creates the row for it, asks the blockchain
provider for the transfer, checks it against the row it holds in memory, and
credits the account.

`depositProgram` runs any number of `verify` and `reverify` calls at once. What a
call does in one transaction, or in one query, is one step; between two steps the
rows are anyone's, and a call goes on with the copy of the row it last read.
Other services' postings on the same ledger are calls of their own.
-/

namespace Roamkit.Billing

open Lib

inductive PaymentMethod where
  | walletConnect
  | cexManual
deriving DecidableEq

def PaymentMethod.value : PaymentMethod → String
  | walletConnect => "wallet_connect"
  | cexManual => "cex_manual"

inductive DepositStatus where
  | pending
  | completed
  | failed
deriving DecidableEq

structure DepositRequest where
  id : Uuid
  account : Uuid
  amountRequested : Amount
  amountCredited : Option Amount
  paymentMethod : PaymentMethod
  txHash : Option String
  idempotencyKey : String
  status : DepositStatus
  failureReason : String
  rawRpcResponse : Option Json

instance : Constraint DepositRequest where
  clash d e := d.id = e.id ∨ d.idempotencyKey = e.idempotencyKey
    ∨ (d.txHash ≠ none ∧ d.txHash = e.txHash)
  symm := by
    intro d e h
    rcases h with h | h | ⟨hne, h⟩
    · exact .inl h.symm
    · exact .inr (.inl h.symm)
    · exact .inr (.inr ⟨h ▸ hne, h.symm⟩)
  decClash _ _ := inferInstance

/-- The settings the service reads. -/
structure DepositSettings where
  billingEnabled : Bool
  minConfirmations : Int

/-! ## Arguments -/

/-- The arguments of `verify`. -/
structure VerifyArgs where
  account : Uuid
  txHash : String
  paymentMethod : String
  amountRequested : RawAmount
  idempotencyKey : String

/-- The arguments of `verify` once it has normalized them. -/
structure VerifyRequest where
  account : Uuid
  txHash : String
  paymentMethod : PaymentMethod
  amount : Amount
  idempotencyKey : String

/-- A hexadecimal digit as `int(text, 16)` reads one. -/
def isHex (c : Char) : Bool := (PyText.digit? c).isSome || ('a' ≤ c && c ≤ 'f')

/-- Hexadecimal digits with single underscores between them. -/
def isHexGroups : List Char → Bool
  | [] => false
  | [c] => isHex c
  | c :: '_' :: cs => isHex c && isHexGroups cs
  | c :: cs => isHex c && isHexGroups cs

/-- What follows the `0x` of a text `int(text, 16)` reads. -/
def isHexBody : List Char → Bool
  | '_' :: cs => isHexGroups cs
  | cs => isHexGroups cs

/-- `_normalize_tx_hash` -/
def normalizeTxHash (value : String) : Except Exc String :=
  let text := ((PyText.strip value).toList.map Char.toLower)
  let text := if text.take 2 = "0x".toList then text else "0x".toList ++ text
  if text.length = 66 ∧ isHexBody (text.drop 2) then .ok (String.ofList text)
  else .error (.depositVerification ("Invalid transaction hash: " ++ PyText.repr value))

def normalizePaymentMethod (value : String) : Except Exc PaymentMethod :=
  if value = PaymentMethod.walletConnect.value then .ok .walletConnect
  else if value = PaymentMethod.cexManual.value then .ok .cexManual
  else .error (.depositVerification ("Unknown payment_method: " ++ PyText.repr value))

variable (c : DepositSettings)

/-- The part of `verify` before its first query. -/
def VerifyArgs.normalize (a : VerifyArgs) : Except Exc VerifyRequest := do
  if ¬ c.billingEnabled then .error (.billingDisabled "Billing is disabled")
  else if a.idempotencyKey = "" then .error (.depositVerification "idempotency_key is required")
  else
    let method ← normalizePaymentMethod a.paymentMethod
    let amount ← normalizeAmount a.amountRequested
    let txHash ← normalizeTxHash a.txHash
    .ok ⟨a.account, txHash, method, amount, a.idempotencyKey⟩

/-! ## The blockchain provider -/

/-- What the service reads of a `TransferResult`. -/
structure TransferResult where
  amount : PyDecimal
  confirmations : Int
  status : String
  rawRpcResponse : Json

/-- What `fetch_usdt_transfer` gives: a transfer, or one of the provider's errors. -/
inductive FetchAnswer where
  | transfer (t : TransferResult)
  | notFound (message : String)
  | rpcError (message : String)
  | providerError (message : String)

/-! ## Calls in flight -/

/-- `f"deposit:{deposit.pk}"` -/
def depositKey (id : Uuid) : String := "deposit:" ++ id.str

/-- A posting of another service: no deposit, and not under a deposit's key. -/
structure OtherPosting where
  posting : Posting
  notDeposit : posting.referenceType ≠ .deposit
  notDepositKey : ∀ id : Uuid, posting.idempotencyKey ≠ depositKey id

inductive DepositCall where
  | verify (a : VerifyArgs)
  | reverify (id : Uuid)
  | other (p : OtherPosting)

/-- Where a call is; `d` is the copy of the row it goes on with. -/
inductive DepositPc where
  /-- Not begun. -/
  | asked
  /-- No row has the key. -/
  | searching (v : VerifyRequest)
  /-- `_recover_failed_deposit` -/
  | recovering (d : DepositRequest) (v : VerifyRequest)
  /-- `_create_pending_deposit`, before its query. -/
  | checking (v : VerifyRequest)
  /-- Before its insert. -/
  | creating (v : VerifyRequest)
  /-- The insert met a row; look one up by key. -/
  | racedByKey (v : VerifyRequest)
  /-- No row has the key; look one up by transaction. -/
  | racedByTx (v : VerifyRequest)
  /-- `_verify_pending_legacy` -/
  | fetching (d : DepositRequest)
  /-- `_apply_transfer_gates` -/
  | gating (d : DepositRequest) (t : TransferResult)
  /-- `_mark_failed`, after which `e` is raised. -/
  | failing (d : DepositRequest) (reason : String) (raw : Option Json) (e : Exc)
  /-- `_complete` -/
  | completing (d : DepositRequest) (t : TransferResult)
  | returned (d : DepositRequest)
  | posted (e : CreditLedgerEntry)
  | raised (e : Exc)

structure DepositThread where
  call : DepositCall
  pc : DepositPc

/-- What a step gets from outside: nothing, a fresh UUID, the provider's answer, or a failure. -/
inductive DepositInput where
  | go
  | uuid (id : Uuid)
  | answer (a : FetchAnswer)
  | fail

structure DepositDb where
  books : Books
  deposits : Table DepositRequest

variable (s : DepositDb)

namespace DepositDb

/-- Rewrite one row, in columns no unique constraint is about. -/
def save (id : Uuid) (f : DepositRequest → DepositRequest) (hf : Table.Keeps f) : DepositDb :=
  { s with deposits := s.deposits.update (·.id = id) f hf }

/-- A row as `reverify` saves it. -/
def reopened (r : DepositRequest) : DepositRequest :=
  { r with status := .pending, failureReason := "" }

/-- The transaction of `reverify`; what it goes on with. -/
def reset (id : Uuid) : Except Exc (DepositDb × DepositPc) :=
  match s.deposits.find? (·.id = id) with
  | none => .error (.doesNotExist "DepositRequest")
  | some locked =>
    match locked.status with
    | .completed => .ok (s, .returned locked)
    | .pending => .ok (s, .fetching locked)
    | .failed =>
      if locked.txHash = none ∨ locked.txHash = some "" then
        .error (.depositVerification "Cannot re-verify a failed deposit without tx_hash")
      else
        .ok (s.save id reopened (fun _ _ h => h), .fetching (reopened locked))

/-- What `verify` does with the row that has its key. -/
def resume (existing : DepositRequest) (v : VerifyRequest) : DepositPc :=
  match existing.status with
  | .completed => .returned existing
  | .pending => .fetching existing
  | .failed =>
    if existing.account ≠ v.account then .returned existing
    else if existing.amountRequested = v.amount then .returned existing
    else .recovering existing v

/-- A row as `_recover_failed_deposit` saves it. -/
def corrected (v : VerifyRequest) (r : DepositRequest) : DepositRequest :=
  { r with
    amountRequested := v.amount
    status := .pending
    failureReason := ""
    idempotencyKey := v.idempotencyKey }

/-- `_recover_failed_deposit` -/
def recover (s : DepositDb) (d : DepositRequest) (v : VerifyRequest) :
    Except Exc (DepositDb × DepositPc) :=
  if d.account ≠ v.account then
    .error (.duplicateTransaction ("Transaction already submitted: " ++ d.txHash.getD "None"))
  else if d.txHash = none ∨ d.txHash = some "" then
    .error (.depositVerification "Cannot recover a failed deposit without tx_hash")
  else
    match s.deposits.find? (·.id = d.id) with
    | none => .error (.doesNotExist "DepositRequest")
    | some locked =>
      if locked.status ≠ .failed then .ok (s, .fetching locked)
      else if locked.account ≠ v.account then
        .error (.duplicateTransaction
          ("Transaction already submitted: " ++ locked.txHash.getD "None"))
      else if 128 < v.idempotencyKey.length then .error .data
      else
        match s.deposits.update? (·.id = locked.id) (corrected v) with
        | none => .error .integrity
        | some deposits => .ok ({ s with deposits }, .fetching (corrected v locked))

/-- The row `_create_pending_deposit` inserts. -/
def pendingRow (id : Uuid) (v : VerifyRequest) : DepositRequest where
  id
  account := v.account
  amountRequested := v.amount
  amountCredited := none
  paymentMethod := v.paymentMethod
  txHash := some v.txHash
  idempotencyKey := v.idempotencyKey
  status := .pending
  failureReason := ""
  rawRpcResponse := none

/-- `DepositRequest.objects.create(…)`; `IntegrityError` goes on to the raced look-ups. -/
def create (s : DepositDb) (id : Uuid) (v : VerifyRequest) : Except Exc (DepositDb × DepositPc) :=
  if 128 < v.idempotencyKey.length then .error .data
  else if s.books.accounts.find? (·.id = v.account) |>.isNone then .ok (s, .racedByKey v)
  else
    match s.deposits.insert? (pendingRow id v) with
    | none => .ok (s, .racedByKey v)
    | some deposits => .ok ({ s with deposits }, .fetching (pendingRow id v))

/-- A row as `_apply_transfer_gates` saves it. -/
def observed (t : TransferResult) (r : DepositRequest) : DepositRequest :=
  { r with rawRpcResponse := some t.rawRpcResponse }

/-- `_apply_transfer_gates`, up to the step that writes next. -/
def gate (d : DepositRequest) (t : TransferResult) : Except Exc DepositPc :=
  if t.status ≠ "success" then
    let reason := "Transaction status is " ++ PyText.repr t.status
    .ok (.failing d reason (some t.rawRpcResponse) (.depositVerificationFailed reason))
  else if t.confirmations < c.minConfirmations then
    .error (.insufficientConfirmations t.confirmations c.minConfirmations)
  else
    match t.amount.eq? (.finite (Dec.ofUnits 6 d.amountRequested.micros)) with
    | none => .error .invalidOperation
    | some true => .ok (.completing d t)
    | some false =>
      .ok (.failing d (amountMismatchMessage t.amount d.amountRequested.micros)
        (some t.rawRpcResponse) (.amountMismatch t.amount d.amountRequested.micros))

/-- A row as `_mark_failed` saves it. -/
def markedFailed (reason : String) (raw : Option Json) (r : DepositRequest) : DepositRequest :=
  { r with status := .failed, failureReason := reason, rawRpcResponse := raw }

/-- `_mark_failed` -/
def markFailed (d : DepositRequest) (reason : String) (raw : Option Json) :
    Except Exc DepositDb :=
  match s.deposits.find? (·.id = d.id) with
  | none => .error (.doesNotExist "DepositRequest")
  | some locked =>
    if locked.status = .completed then .ok s
    else
      let stored := match raw, locked.rawRpcResponse with
        | some r, _ => some r
        | none, some r => some r
        | none, none => d.rawRpcResponse
      .ok (s.save d.id (markedFailed reason stored) (fun _ _ h => h))

/-- A row as `_complete` saves it. -/
def completed (amount : Amount) (t : TransferResult) (r : DepositRequest) : DepositRequest :=
  { r with
    amountCredited := some amount
    status := .completed
    failureReason := ""
    rawRpcResponse := some t.rawRpcResponse }

/-- `_complete`; raising rolls its writes back, the `FAILED` row of a duplicate included. -/
def complete (d : DepositRequest) (t : TransferResult) :
    Except Exc (DepositDb × DepositPc) :=
  match s.deposits.find? (·.id = d.id) with
  | none => .error (.doesNotExist "DepositRequest")
  | some locked =>
    if locked.status ≠ .pending then .ok (s, .returned locked)
    else if s.deposits.rows.any fun r =>
        r.txHash = locked.txHash && r.status = .completed && r.id ≠ locked.id then
      .error (.duplicateTransaction
        ("Transaction already credited: " ++ locked.txHash.getD "None"))
    else
      match preparePosting locked.account (.decimal t.amount) (.member .deposit) locked.id.str
          (depositKey locked.id) true with
      | .error e => .error e
      | .ok p =>
        match s.books.apply p with
        | .error e => .error e
        | .ok (books, _) =>
          .ok ({ s with books }.save locked.id (completed p.amount t) (fun _ _ h => h),
            .returned (completed p.amount t locked))

end DepositDb

/-- What a call does after a step of it raised or came to its next point. -/
def DepositThread.goOn (t : DepositThread) (s : DepositDb) :
    Except Exc (DepositDb × DepositPc) → DepositDb × DepositThread
  | .error e => (s, { t with pc := .raised e })
  | .ok (s', pc) => (s', { t with pc })

/-- One step of a call. -/
def depositStep (s : DepositDb) (t : DepositThread) (x : DepositInput) :
    Option (DepositDb × DepositThread) :=
  let move (pc : DepositPc) := some (s, { t with pc })
  match t.pc, x with
  | .returned _, _ => none
  | .posted _, _ => none
  | .raised _, _ => none
  | _, .fail => move (.raised .operational)
  | .asked, .go =>
    match t.call with
    | .verify a =>
      match a.normalize c with
      | .error e => move (.raised e)
      | .ok v =>
        match s.deposits.find? (·.idempotencyKey = v.idempotencyKey) with
        | some existing => move (DepositDb.resume existing v)
        | none => move (.searching v)
    | .reverify id =>
      if ¬ c.billingEnabled then move (.raised (.billingDisabled "Billing is disabled"))
      else t.goOn s (s.reset id)
    | .other p =>
      t.goOn s ((fun r => ({ s with books := r.1 }, .posted r.2)) <$> s.books.apply p.posting)
  | .searching v, .go =>
    match s.deposits.find? fun d => d.txHash = some v.txHash && d.status = .failed with
    | some d =>
      if d.account ≠ v.account then
        move (.raised (.duplicateTransaction ("Transaction already submitted: " ++ v.txHash)))
      else if d.amountRequested = v.amount then move (.returned d)
      else move (.recovering d v)
    | none => move (.checking v)
  | .recovering d v, .go => t.goOn s (s.recover d v)
  | .checking v, .go =>
    match s.deposits.find? fun d => d.txHash = some v.txHash && d.status = .completed with
    | some _ =>
      move (.raised (.duplicateTransaction ("Transaction already credited: " ++ v.txHash)))
    | none => move (.creating v)
  | .creating v, .uuid id => t.goOn s (s.create id v)
  | .racedByKey v, .go =>
    match s.deposits.find? (·.idempotencyKey = v.idempotencyKey) with
    | some raced =>
      if raced.status ≠ .pending then move (.returned raced) else move (.fetching raced)
    | none => move (.racedByTx v)
  | .racedByTx v, .go =>
    match s.deposits.find? (·.txHash = some v.txHash) with
    | some other =>
      if other.status = .completed then
        move (.raised (.duplicateTransaction ("Transaction already credited: " ++ v.txHash)))
      else move (.raised (.duplicateTransaction ("Transaction already submitted: " ++ v.txHash)))
    | none => move (.raised .integrity)
  | .fetching d, .answer a =>
    if d.txHash = none ∨ d.txHash = some "" then
      move (.failing d "Deposit is missing tx_hash" none
        (.depositVerificationFailed "Deposit is missing tx_hash"))
    else
      match a with
      | .transfer tr => move (.gating d tr)
      | .notFound m => move (.failing d m none (.depositVerificationFailed m))
      | .rpcError m => move (.failing d ("RPC error: " ++ m) none (.blockchainRpc m))
      | .providerError m => move (.failing d m none (.depositVerificationFailed m))
  | .gating d tr, .go =>
    let s' := s.save d.id (DepositDb.observed tr) (fun _ _ h => h)
    t.goOn s' ((s', ·) <$> DepositDb.gate c (DepositDb.observed tr d) tr)
  | .failing d reason raw e, .go => t.goOn s ((·, .raised e) <$> s.markFailed d reason raw)
  | .completing d tr, .go => t.goOn s (s.complete d tr)
  | _, _ => none

/-- `DepositVerificationService`, its calls run concurrently. -/
def depositProgram :
    Program DepositDb DepositThread DepositCall DepositInput where
  start call := ⟨call, .asked⟩
  step := depositStep c

end Roamkit.Billing
