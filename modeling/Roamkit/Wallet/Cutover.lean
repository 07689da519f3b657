import Roamkit.Wallet.Program

/-!
# Deposits while the wallet is cut over to

`_verify_pending` takes the legacy path or, for an account the flags and the cohort
say so for, the wallet path: the transfer is looked for at an address of the
account's own, observed, and credited by the conversion of the observation. A
deposit the legacy path has credited may be compared with what the wallet path
would have made of it. The flags and the cohort may change at any time, so each
step that reads them gets them from outside.
-/

namespace Roamkit.Wallet

open Lib Billing

/-! ## Flags -/

structure WalletCutoverFlags where
  walletAddressEnabled : Bool
  observationEnabled : Bool
  creditConversionV2 : Bool
  shadowMode : Bool

/-- The flags and the cohort, at one time. -/
structure Cutover where
  flags : WalletCutoverFlags
  cohort : List Uuid

variable (x : Cutover)

namespace Cutover

/-- `is_in_cutover_cohort` -/
def isInCohort (account : Uuid) : Bool := account ∈ x.cohort

/-- `should_use_credit_conversion_v2` -/
def shouldUseCreditConversionV2 (account : Uuid) : Bool :=
  x.flags.creditConversionV2 && x.isInCohort account

/-- `should_use_wallet_money_path` -/
def shouldUseWalletMoneyPath (account : Uuid) : Bool :=
  x.flags.walletAddressEnabled && x.flags.observationEnabled && x.flags.creditConversionV2
    && x.isInCohort account

end Cutover

/-! ## Transfers -/

/-- A `TransferResult`, with what only the wallet reads of it. -/
structure OnChainTransfer extends TransferResult where
  txHash : String
  fromAddress : String
  tokenContract : String
  blockNumber : Int

/-- An exception the provider does not make one of its own. -/
inductive ProviderFault where
  | badValue
  | badType
  | noAttribute
  | badDecimal
deriving DecidableEq

def ProviderFault.exc : ProviderFault → Exc
  | badValue => .valueError
  | badType => .typeError
  | noAttribute => .attributeError
  | badDecimal => .invalidOperation

/-- What `fetch_usdt_transfer` gives. -/
inductive TransferAnswer where
  | transfer (t : OnChainTransfer)
  | notFound (message : String)
  | rpcError (message : String)
  | providerError (message : String)
  | fault (f : ProviderFault)

/-- The value of a hexadecimal digit. -/
def hexDigit (c : Char) : Nat :=
  match PyText.digit? c with
  | some d => d
  | none => c.toNat - 'a'.toNat + 10

/-- `int(text, 16)` of a text that starts with `0x`; `none` where Python raises `ValueError`. -/
def hexInt? (text : List Char) : Option Int :=
  if isHexBody (text.drop 2) then
    some (((text.drop 2).filter (· ≠ '_')).foldl (fun n c => 16 * n + hexDigit c) 0 : Nat)
  else none

/-- What `int` makes of a value that is no text. -/
def wholeOf (j : Json) : Except Exc Int :=
  match j.orElse (.int 0) with
  | .float (.infinity _) => .error .overflowError
  | .list _ => .error .typeError
  | .dict _ => .error .typeError
  | value =>
    match value.toInt with
    | some n => .ok n
    | none => .error .valueError

/-- `_log_index_from_transfer` -/
def logIndexFromTransfer (raw : Json) : Except Exc Int :=
  let response := raw.orElse (.dict [])
  if ¬ response.isDict then .error .attributeError
  else
    let matched := (response.get "matched_log").orElse (.dict [])
    if ¬ matched.isDict then .error .attributeError
    else
      match matched.getD "logIndex" (matched.getD "index" (.int 0)) with
      | .str s =>
        let text := (PyText.strip s).toList.map Char.toLower
        match if text.take 2 = "0x".toList then hexInt? text
          else PyText.int? (String.ofList text) with
        | some n => .ok n
        | none => .error .valueError
      | value => wholeOf value

example : logIndexFromTransfer
    (.dict [("matched_log", .dict [("logIndex", .str " 0X1f ")])]) = .ok 31 := by
  decide

/-! ## The rows -/

/-- The comparison of a deposit that was recorded. -/
structure ShadowDecision where
  depositRequest : Uuid
  observation : Option Uuid
deriving DecidableEq

instance : Constraint ShadowDecision where
  clash a b := a.depositRequest = b.depositRequest
  symm h := h.symm
  decClash _ _ := inferInstance

structure MoneySettings where
  deposit : DepositSettings
  wallet : WalletSettings
  /-- `derive_evm_address`, from the configured mnemonic. -/
  deriveEvmAddress : Nat → Except Exc String

structure MoneyDb where
  deposit : DepositDb
  addresses : Table WalletAddress
  observations : Table DepositObservation
  decisions : Table ShadowDecision

variable (s : MoneyDb) (c : MoneySettings)

namespace MoneyDb

/-- The rows the observation services work on. -/
def wallet : WalletDb := ⟨s.deposit.books, s.addresses, s.observations⟩

/-- The rows after a step of the observation services. -/
def withWallet (w : WalletDb) : MoneyDb :=
  { s with
    deposit := { s.deposit with books := w.books }
    addresses := w.addresses
    observations := w.observations }

/-! ## Addresses -/

/-- The active address of an account. -/
def activeAddress (account : Uuid) : Option WalletAddress :=
  s.addresses.find? fun a => a.account = account && a.chain = polygon && a.status = .active

/-- `_next_derivation_index` -/
def nextDerivationIndex : Nat :=
  s.addresses.rows.foldr (fun a n => max n (a.derivationIndex + 1)) 0

/-- The message of `WalletAllocationError`. -/
def allocationMessage : String := "failed to allocate WalletAddress after concurrency retries"

/-- `ensure_active_address`; attempts that nothing comes between fail alike. -/
def ensureActiveAddress (s : MoneyDb) (account id : Uuid) (now : Time) :
    Except Exc (MoneyDb × WalletAddress) :=
  match s.activeAddress account with
  | some address => .ok (s, address)
  | none => do
    let text ← c.deriveEvmAddress s.nextDerivationIndex
    if 42 < text.length then .error .data
    else
      let address : WalletAddress :=
        ⟨id, account, polygon, text, s.nextDerivationIndex, .active, now⟩
      match s.addresses.insert? address with
      | none => .error (.walletAllocation allocationMessage)
      | some addresses => .ok ({ s with addresses }, address)

/-! ## The wallet path -/

/--
`ingest` with nothing else writing the transfer's row: only the call that holds
the deposit's lock, or the one that has completed it, ingests its transfer. What
fails then fails five times, and the last look-up finds no row.
-/
def ingestAlone (c : WalletSettings) (s : WalletDb) (signal : ObservationSignal) (shadowOnly : Bool)
    (id : Uuid) : Except Exc (WalletDb × DepositObservation) := do
  let a ← s.prepareIngest signal shadowOnly
  match s.observationOf a with
  | some o => s.refreshFound c o a.confirmations
  | none =>
    match ← s.insertNew c a id with
    | none => .error (.doesNotExist "DepositObservation")
    | some r => .ok r

/-- `text or other` -/
def orElse (text : Option String) (other : String) : String :=
  match text with
  | none => other
  | some text => if text = "" then other else text

/-- The signal of a transfer to an address. -/
def signalOf (txHash : String) (logIndex : Int) (address : WalletAddress) (tr : OnChainTransfer) :
    ObservationSignal where
  chain := polygon
  txHash
  logIndex
  toAddress := address.address
  amount := tr.amount
  tokenContract := tr.tokenContract
  confirmations := tr.confirmations
  fromAddress := tr.fromAddress
  blockNumber := some tr.blockNumber

/-- An amount as `amount_credited` stores it. -/
def storedCredit (x : PyDecimal) : Except Exc Amount :=
  match Spend.finite? x with
  | none => .error .validation
  | some amount =>
    if ¬ fitsNumeric 20 6 amount then .error .data
    else
      match Spend.storedAmount amount with
      | none => .error .integrity
      | some stored => .ok stored

/-- Whether another completed row has the transaction of a row. -/
def otherCompleted (locked : DepositRequest) : Bool :=
  s.deposit.deposits.rows.any fun r =>
    r.txHash = locked.txHash && r.status = .completed && r.id ≠ locked.id

/-- `_complete_wallet_path`; raising rolls its writes back, those of the observation included. -/
def completeWalletPath (s : MoneyDb) (d : DepositRequest) (tr : OnChainTransfer)
    (address : WalletAddress) (id : Uuid) : Except Exc (MoneyDb × DepositRequest) :=
  match s.deposit.deposits.find? (·.id = d.id) with
  | none => .error (.doesNotExist "DepositRequest")
  | some locked =>
    if locked.status ≠ .pending then .ok (s, locked)
    else if s.otherCompleted locked then
      .error (.duplicateTransaction
        ("Transaction already credited: " ++ locked.txHash.getD "None"))
    else do
      let logIndex ← logIndexFromTransfer tr.rawRpcResponse
      let signal := signalOf (orElse locked.txHash tr.txHash) logIndex address tr
      let (observed, observation) ← ingestAlone c.wallet s.wallet signal false id
      if observation.status ≠ .confirmed then
        .error (.depositVerificationFailed ("Observation not confirmed: "
          ++ observation.status.value ++ " (" ++ observation.statusReason ++ ")"))
      else do
        let (converted, _) ← observed.convert observation.id
        let amount ← storedCredit tr.amount
        let row := DepositDb.completed amount tr.toTransferResult
        let s' := s.withWallet converted
        return ({ s' with deposit := s'.deposit.save locked.id row (fun _ _ h => h) }, row locked)

/-! ## The comparison -/

/-- Record a comparison; a deposit that has one keeps it. -/
def record (decision : ShadowDecision) : MoneyDb :=
  match s.decisions.insert? decision with
  | none => s
  | some decisions => { s with decisions }

/-- Whether `compare_legacy_deposit` goes on to compare. -/
def compares (x : Cutover) (d : DepositRequest) : Bool :=
  x.flags.shadowMode && (s.decisions.find? (·.depositRequest = d.id)).isNone

/-- `_compare_once` up to its record; what it raises is recorded as well. -/
def compareOnce (s : MoneyDb) (d : DepositRequest) (tr : OnChainTransfer) (id : Uuid) :
    MoneyDb × Option Uuid :=
  match s.activeAddress d.account with
  | none => (s, none)
  | some address =>
    let observed := do
      let logIndex ← logIndexFromTransfer tr.rawRpcResponse
      let signal := signalOf (PyText.lower (orElse d.txHash tr.txHash)) logIndex address tr
      ingestAlone c.wallet s.wallet signal true id
    match observed with
    | .error _ => (s, none)
    | .ok (w, observation) => (s.withWallet w, some observation.id)

/-! ## Resuming conversions -/

/-- `iter_convertible_observations` -/
def convertible (limit : Option Nat) : List Uuid :=
  let ids := (s.observations.rows.filter fun o =>
    (o.status = .confirmed || o.status = .conversionStarted) && !o.shadowOnly).map (·.id)
  match limit with
  | none => ids
  | some n => ids.take n

/-- The account whose wallet an observation is in. -/
def accountOf (observation : Uuid) : Option Uuid := do
  let o ← s.observations.find? (·.id = observation)
  let address ← s.addresses.find? (·.id = o.walletAddress)
  return address.account

/-- One round of the loop of `resume_converts`; what `convert` raises is reported. -/
def resumeConvert (x : Cutover) (observation : Uuid) : MoneyDb :=
  match s.accountOf observation with
  | none => s
  | some account =>
    if ¬ x.shouldUseCreditConversionV2 account then s
    else
      match s.wallet.convert observation with
      | .error _ => s
      | .ok (w, _) => s.withWallet w

end MoneyDb

end Roamkit.Wallet
