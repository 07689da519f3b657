import Roamkit.Billing.Deposit
import Roamkit.Spend.Topups

/-!
# Deposit observations

A transfer that was seen on a chain is one row, told by its chain, its transaction
and the index of its log. `DepositObservationService` makes the row and moves its
status on as confirmations come in; `CreditConversionService` credits a confirmed
one to the account of the address it was sent to.
-/

namespace Roamkit.Wallet

open Lib Billing

/-- `WalletChain.POLYGON` -/
def polygon : String := "polygon"

inductive WalletAddressStatus where
  | active
  | retired
deriving DecidableEq

/-- An address that receives deposits; an account has one wallet identity, so `account` names it. -/
structure WalletAddress where
  id : Uuid
  account : Uuid
  chain : String
  address : String
  derivationIndex : Nat
  status : WalletAddressStatus
  createdAt : Time
deriving DecidableEq

instance : Constraint WalletAddress where
  clash a b := a.id = b.id ∨ a.derivationIndex = b.derivationIndex
    ∨ (a.account = b.account ∧ a.chain = b.chain
      ∧ (a.address = b.address ∨ (a.status = .active ∧ b.status = .active)))
  symm := by
    intro a b h
    rcases h with h | h | ⟨h, h', h'' | ⟨ha, hb⟩⟩
    · exact .inl h.symm
    · exact .inr (.inl h.symm)
    · exact .inr (.inr ⟨h.symm, h'.symm, .inl h''.symm⟩)
    · exact .inr (.inr ⟨h.symm, h'.symm, .inr ⟨hb, ha⟩⟩)
  decClash _ _ := inferInstance

inductive ObservationStatus where
  | observed
  | pendingConfirmation
  | confirmed
  | conversionStarted
  | credited
  | rejected
  | expired
deriving DecidableEq

namespace ObservationStatus

def value : ObservationStatus → String
  | observed => "observed"
  | pendingConfirmation => "pending_confirmation"
  | confirmed => "confirmed"
  | conversionStarted => "conversion_started"
  | credited => "credited"
  | rejected => "rejected"
  | expired => "expired"

/-- `status in _TERMINAL` -/
def isTerminal : ObservationStatus → Bool
  | observed => false
  | pendingConfirmation => false
  | _ => true

end ObservationStatus

structure DepositObservation where
  id : Uuid
  walletAddress : Uuid
  chain : String
  txHash : String
  logIndex : Nat
  status : ObservationStatus
  amount : Amount
  tokenContract : String
  fromAddress : String
  confirmations : Nat
  blockNumber : Option Nat
  statusReason : String
  shadowOnly : Bool
deriving DecidableEq

instance : Constraint DepositObservation where
  clash o p := o.id = p.id ∨ (o.chain = p.chain ∧ o.txHash = p.txHash ∧ o.logIndex = p.logIndex)
  symm := by
    intro o p h
    rcases h with h | ⟨h, h', h''⟩
    · exact .inl h.symm
    · exact .inr ⟨h.symm, h'.symm, h''.symm⟩
  decClash _ _ := inferInstance

/-- `normalize_evm_address` -/
def normalizeEvmAddress (value : String) : String :=
  let text := (PyText.strip value).toList.map Char.toLower
  let text := if text.take 2 = "0x".toList then text.drop 2 else text
  if text = [] then "0x"
  else String.ofList ("0x".toList ++ PyText.takeLast 40 (PyText.zfill 40 text))

/-- `normalize_tx_hash`: as for a deposit, but with another exception. -/
def normalizeObservedHash (value : String) : Except Exc String :=
  (normalizeTxHash value).mapError fun _ => .valueError

/-! ## Confirmation policy -/

/-- The settings of the wallet that are read for an observation. -/
structure WalletSettings where
  polygonMinConfirmations : Int
  polygonUsdtContract : String

variable (c : WalletSettings)

/-- `ChainPolicy.min_confirmations` -/
def WalletSettings.minConfirmations (chain : String) : Except Exc Int :=
  if chain = polygon then .ok c.polygonMinConfirmations else .error .valueError

/-- `ChainPolicy.accepted_token_contract` -/
def WalletSettings.acceptedTokenContract (chain : String) : Except Exc String :=
  if chain = polygon then .ok (normalizeEvmAddress c.polygonUsdtContract) else .error .valueError

inductive ConfirmationOutcome where
  | pending (reason : String)
  | confirmed
  | rejected (reason : String)
deriving DecidableEq

/-- `ConfirmationPolicy.evaluate` -/
def evaluate (o : DepositObservation) : Except Exc ConfirmationOutcome := do
  let accepted ← c.acceptedTokenContract o.chain
  if normalizeEvmAddress o.tokenContract ≠ accepted then .ok (.rejected "unaccepted_asset")
  else
    let required ← c.minConfirmations o.chain
    if (o.confirmations : Int) < required then
      .ok (.pending ("insufficient_confirmations:" ++ toString o.confirmations ++ "<"
        ++ toString required))
    else .ok .confirmed

variable (o : DepositObservation)

/-- What an outcome makes of an observation. -/
def ConfirmationOutcome.apply : ConfirmationOutcome → DepositObservation
  | pending reason => { o with status := .pendingConfirmation, statusReason := reason }
  | rejected reason => { o with status := .rejected, statusReason := reason }
  | confirmed => { o with status := .confirmed, statusReason := "" }

/-- `_apply_policy`; a status that is not terminal is observed or pending. -/
def applyPolicy (o : DepositObservation) : Except Exc DepositObservation :=
  if o.status.isTerminal then .ok o else (evaluate c o).map (·.apply o)

/-- The largest value of an integer column, and of a big one. -/
def maxInteger : Int := 2147483647

def maxBigInteger : Int := 9223372036854775807

/-- The confirmations of an observation, when more have come in. -/
def raiseConfirmations (confirmations : Int) :
    Except Exc DepositObservation :=
  if confirmations ≤ o.confirmations then .ok o
  else if maxInteger < confirmations then .error .data
  else .ok { o with confirmations := confirmations.toNat }

def markPending : DepositObservation :=
  if o.status = .observed then { o with status := .pendingConfirmation } else o

/-- `_refresh_locked`, on the row it is called with. -/
def refresh (o : DepositObservation) (confirmations : Int) :
    Except Exc DepositObservation :=
  if o.status.isTerminal then .ok o
  else do
    let raised ← raiseConfirmations o confirmations
    applyPolicy c (markPending raised)

/-! ## Signals -/

structure ObservationSignal where
  chain : String
  txHash : String
  logIndex : Int
  toAddress : String
  amount : PyDecimal
  tokenContract : String
  confirmations : Int
  fromAddress : String
  blockNumber : Option Int

/-- The arguments of `_ingest_once`. -/
structure Ingest where
  walletAddress : Uuid
  chain : String
  txHash : String
  logIndex : Int
  amount : PyDecimal
  tokenContract : String
  fromAddress : String
  confirmations : Int
  blockNumber : Option Int
  shadowOnly : Bool

def fitsInteger (n : Int) : Bool := -maxInteger - 1 ≤ n && n ≤ maxInteger

def fitsBigInteger (n : Int) : Bool := -maxBigInteger - 1 ≤ n && n ≤ maxBigInteger

/-- The row `_ingest_once` inserts, once its amount is stored. -/
def Ingest.row (a : Ingest) (id : Uuid) (amount : Amount) : DepositObservation where
  id
  walletAddress := a.walletAddress
  chain := a.chain
  txHash := a.txHash
  logIndex := a.logIndex.toNat
  status := .observed
  amount
  tokenContract := a.tokenContract
  fromAddress := a.fromAddress
  confirmations := a.confirmations.toNat
  blockNumber := a.blockNumber.map Int.toNat
  statusReason := ""
  shadowOnly := a.shadowOnly

/-- The checks of the row's values; `none` where a check constraint refuses one. -/
def Ingest.columns (a : Ingest) (id : Uuid) : Except Exc (Option DepositObservation) :=
  match Spend.finite? a.amount with
  | none => .error .validation
  | some amount =>
    if fitsNumeric 20 6 amount && a.chain.length ≤ 32 && fitsInteger a.logIndex
        && fitsInteger a.confirmations && a.blockNumber.all fitsBigInteger then
      if 0 ≤ a.logIndex ∧ 0 ≤ a.confirmations ∧ a.blockNumber.all (0 ≤ ·) then
        .ok ((Spend.storedAmount amount).map (a.row id))
      else .ok none
    else .error .data

/-! ## The rows -/

structure WalletDb where
  books : Books
  addresses : Table WalletAddress
  observations : Table DepositObservation

/-- `f"wallet-obs:{chain}:{tx_hash}:{log_index}"` -/
def observationKey : String :=
  "wallet-obs:" ++ o.chain ++ ":" ++ o.txHash ++ ":" ++ toString o.logIndex

variable (s : WalletDb)

namespace WalletDb

/-- `filter(chain=…, address=…).order_by("-created_at").first()` -/
def newestAddress (chain address : String) : Option WalletAddress :=
  (s.addresses.rows.filter fun a => a.chain = chain && a.address = address).foldl
    (fun newest a => match newest with
      | none => some a
      | some b => if b.createdAt < a.createdAt then some a else some b) none

/-- The part of `ingest` before its attempts. -/
def prepareIngest (signal : ObservationSignal) (shadowOnly : Bool) :
    Except Exc Ingest := do
  let chain := if signal.chain = "" then polygon else signal.chain
  let txHash ← normalizeObservedHash signal.txHash
  let toAddress := normalizeEvmAddress signal.toAddress
  match s.newestAddress chain toAddress with
  | none => .error (.observationAttribution
      ("no WalletAddress for chain=" ++ chain ++ " address=" ++ toAddress))
  | some address =>
    .ok {
      walletAddress := address.id
      chain
      txHash
      logIndex := signal.logIndex
      amount := signal.amount
      tokenContract := normalizeEvmAddress signal.tokenContract
      fromAddress :=
        if signal.fromAddress = "" then "" else normalizeEvmAddress signal.fromAddress
      confirmations := signal.confirmations
      blockNumber := signal.blockNumber
      shadowOnly }

/-- The row of an observation identity. -/
def observationOf (a : Ingest) : Option DepositObservation :=
  s.observations.find? fun o =>
    o.chain = a.chain && o.txHash = a.txHash && (o.logIndex : Int) = a.logIndex

/-- A row saved with the status, the confirmations and the reason of another. -/
def written (o r : DepositObservation) : DepositObservation :=
  { r with
    status := o.status
    confirmations := o.confirmations
    statusReason := o.statusReason }

/-- Save a row that is locked. -/
def saveObservation (o : DepositObservation) : WalletDb :=
  { s with observations := s.observations.update (·.id = o.id) (written o) (fun _ _ h => h) }

/-- `_ingest_once`, when its look-up found a row. -/
def refreshFound (s : WalletDb) (o : DepositObservation) (confirmations : Int) :
    Except Exc (WalletDb × DepositObservation) := do
  let refreshed ← refresh c o confirmations
  return (s.saveObservation refreshed, refreshed)

/-- `_ingest_once`, when its look-up found none; `none` for an `IntegrityError`. -/
def insertNew (s : WalletDb) (a : Ingest) (id : Uuid) :
    Except Exc (Option (WalletDb × DepositObservation)) := do
  match ← a.columns id with
  | none => .ok none
  | some row =>
    match s.observations.insert? row with
    | none => .ok none
    | some observations =>
      let judged ← applyPolicy c (markPending row)
      .ok (some ({ s with observations }.saveObservation judged, judged))

/-- `advance_confirmation` -/
def advanceConfirmation (s : WalletDb) (id : Uuid) :
    Except Exc (WalletDb × DepositObservation) :=
  match s.observations.find? (·.id = id) with
  | none => .error (.doesNotExist "DepositObservation")
  | some locked => do
    let judged ← applyPolicy c locked
    return (s.saveObservation judged, judged)

/-- A row as `expire` saves it. -/
def expired : DepositObservation :=
  { o with
    status := .expired
    statusReason := if o.statusReason = "" then "observation_window_timeout" else o.statusReason }

/-- `expire` -/
def expire (s : WalletDb) (id : Uuid) : Except Exc (WalletDb × DepositObservation) :=
  match s.observations.find? (·.id = id) with
  | none => .error (.doesNotExist "DepositObservation")
  | some locked =>
    if locked.status.isTerminal then
      if locked.status = .expired then .ok (s, locked)
      else .error (.observationTransition
        ("cannot expire observation in status=" ++ locked.status.value))
    else .ok (s.saveObservation (expired locked), expired locked)

/-! ## Conversion -/

/-- A row as `_credit_and_finish` saves it. -/
def credited : DepositObservation :=
  { o with status := .credited, statusReason := "" }

/-- `_credit_and_finish` -/
def creditAndFinish (o : DepositObservation) :
    Except Exc (WalletDb × CreditLedgerEntry) :=
  match s.addresses.find? (·.id = o.walletAddress) with
  | none => .error (.doesNotExist "WalletAddress")
  | some address => do
    let p ← preparePosting address.account (.decimal (.finite (Dec.ofUnits 6 o.amount.micros)))
      (.member .deposit) o.id.str (observationKey o) true
    let (books, entry) ← s.books.apply p
    return ({ s with books }.saveObservation (credited o), entry)

/-- `CreditConversionService.convert` -/
def convert (s : WalletDb) (id : Uuid) : Except Exc (WalletDb × CreditLedgerEntry) :=
  match s.observations.find? (·.id = id) with
  | none => .error (.doesNotExist "DepositObservation")
  | some locked =>
    if locked.status = .credited then
      match s.books.entries.find? (·.idempotencyKey = observationKey locked) with
      | none => .error (.observationTransition "observation CREDITED but ledger entry missing")
      | some entry => .ok (s, entry)
    else if locked.shadowOnly then
      .error (.observationTransition "shadow_only observation cannot convert (ADR 018 Phase 1)")
    else if locked.status = .conversionStarted then s.creditAndFinish locked
    else if locked.status ≠ .confirmed then
      .error (.observationTransition ("convert requires CONFIRMED, got " ++ locked.status.value))
    else s.creditAndFinish { locked with status := .conversionStarted }

end WalletDb

end Roamkit.Wallet
