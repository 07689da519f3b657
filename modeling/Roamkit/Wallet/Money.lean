import Roamkit.Wallet.Cutover

/-!
# Verifications in flight while the flags change

`moneyProgram` runs any number of `verify`, `reverify` and `resume_converts` calls
at once, among postings of other services. A call goes the way the flags and the
cohort say when it asks for them: on the legacy path it credits the deposit and then
compares, on the wallet path it credits through an observation. What a call does in
one transaction, or in one query, is one step.
-/

namespace Roamkit.Wallet

open Lib Billing

/-- A posting of another service: no deposit, and not under the key of a deposit or of an
observation. -/
structure MoneyPosting extends OtherPosting where
  notObservation : ∀ rest, posting.idempotencyKey ≠ "wallet-obs:" ++ rest

inductive MoneyCall where
  | verify (a : VerifyArgs)
  | reverify (id : Uuid)
  /-- `resume_converts(apply=True)` -/
  | resumeConverts
  | other (p : MoneyPosting)

/-- The call of the legacy path that a call begins as. -/
def MoneyCall.deposit : MoneyCall → Option DepositCall
  | verify a => some (.verify a)
  | reverify id => some (.reverify id)
  | resumeConverts => none
  | other p => some (.other p.toOtherPosting)

/-- Where a call is; `address` is the one the transfer is looked for at, on the wallet path. -/
inductive MoneyPc where
  /-- Before `_verify_pending`, at a point that both paths share. -/
  | locating (pc : DepositPc)
  /-- `_verify_pending` -/
  | verifying (d : DepositRequest)
  /-- `ensure_active_address` -/
  | allocating (d : DepositRequest)
  /-- `fetch_usdt_transfer` -/
  | fetching (d : DepositRequest) (address : Option WalletAddress)
  /-- `_apply_transfer_gates` -/
  | gating (d : DepositRequest) (tr : OnChainTransfer) (address : Option WalletAddress)
  /-- `_mark_failed`, after which `e` is raised. -/
  | failing (d : DepositRequest) (reason : String) (raw : Option Json) (e : Exc)
  /-- `_complete`, or `_complete_wallet_path`. -/
  | completing (d : DepositRequest) (tr : OnChainTransfer) (address : Option WalletAddress)
  /-- `compare_legacy_deposit` -/
  | comparing (d : DepositRequest) (tr : OnChainTransfer)
  /-- `_compare_once` -/
  | observing (d : DepositRequest) (tr : OnChainTransfer)
  /-- The decision is recorded. -/
  | recording (d : DepositRequest) (decision : ShadowDecision)
  /-- `iter_convertible_observations` -/
  | listing
  /-- The loop of `resume_converts`. -/
  | resuming (ids : List Uuid)
  | returned (d : DepositRequest)
  | posted (e : CreditLedgerEntry)
  | reported
  | raised (e : Exc)

structure MoneyThread where
  call : MoneyCall
  pc : MoneyPc

/-- What a step gets from outside. -/
inductive MoneyInput where
  | go
  /-- What a step of the shared part gets. -/
  | deposit (x : DepositInput)
  /-- The flags and the cohort, as they are now. -/
  | cutover (x : Cutover)
  /-- A fresh UUID and the time, for an address. -/
  | address (id : Uuid) (now : Time)
  | answer (a : TransferAnswer)
  | uuid (id : Uuid)
  /-- The observations that are listed, in their order. -/
  | listed (ids : List Uuid)
  | fail

/-- Where a call is after a step of the shared part. -/
def located : DepositPc → MoneyPc
  | .fetching d => .verifying d
  | .returned d => .returned d
  | .posted e => .posted e
  | .raised e => .raised e
  | pc => .locating pc

/-- Where a call is after the gates. -/
def gated (tr : OnChainTransfer) (address : Option WalletAddress) : DepositPc → MoneyPc
  | .failing d reason raw e => .failing d reason raw e
  | .completing d _ => .completing d tr address
  | pc => .locating pc

/-- `_verify_pending`, up to the first thing it does on the path it takes. -/
def verifyPending (x : Cutover) (d : DepositRequest) : MoneyPc :=
  if d.txHash = none ∨ d.txHash = some "" then
    .failing d "Deposit is missing tx_hash" none
      (.depositVerificationFailed "Deposit is missing tx_hash")
  else if x.shouldUseWalletMoneyPath d.account then .allocating d
  else .fetching d none

/-- What is done with the provider's answer. -/
def answered (d : DepositRequest) (address : Option WalletAddress) : TransferAnswer → MoneyPc
  | .transfer tr => .gating d tr address
  | .notFound m => .failing d m none (.depositVerificationFailed m)
  | .rpcError m => .failing d ("RPC error: " ++ m) none (.blockchainRpc m)
  | .providerError m => .failing d m none (.depositVerificationFailed m)
  | .fault f => .raised f.exc

namespace MoneyDb

/-- `_apply_transfer_gates` -/
def applyTransferGates (c : MoneySettings) (s : MoneyDb) (d : DepositRequest) (tr : OnChainTransfer)
    (address : Option WalletAddress) : MoneyDb × MoneyPc :=
  let row := DepositDb.observed tr.toTransferResult
  let s' := { s with deposit := s.deposit.save d.id row (fun _ _ h => h) }
  match DepositDb.gate c.deposit (row d) tr.toTransferResult with
  | .error e => (s', .raised e)
  | .ok pc => (s', gated tr address pc)

/-- `_complete`, and whether it goes on to compare: not with a row it found settled. -/
def complete (s : MoneyDb) (d : DepositRequest) (tr : OnChainTransfer) : MoneyDb × MoneyPc :=
  match s.deposit.complete d tr.toTransferResult with
  | .error e => (s, .raised e)
  | .ok (deposit, .returned r) =>
    let pending := s.deposit.deposits.rows.any fun row => row.id = d.id && row.status = .pending
    ({ s with deposit }, if pending then .comparing r tr else .returned r)
  | .ok (deposit, pc) => ({ s with deposit }, .locating pc)

end MoneyDb

/-- Whether a call has a query left. -/
def MoneyPc.isLive : MoneyPc → Bool
  | returned _ => false
  | posted _ => false
  | reported => false
  | raised _ => false
  | _ => true

/-- What a call does when the database fails it; a comparison and a report go on. -/
def MoneyPc.failed : MoneyPc → MoneyPc
  | comparing d _ => .returned d
  | observing d _ => .recording d ⟨d.id, none⟩
  | recording d _ => .returned d
  | resuming (_ :: ids) => .resuming ids
  | _ => .raised .operational

/-- One step of a call. -/
def moneyStep (c : MoneySettings) (s : MoneyDb) (t : MoneyThread) (x : MoneyInput) :
    Option (MoneyDb × MoneyThread) :=
  let move (r : MoneyDb × MoneyPc) := some (r.1, { t with pc := r.2 })
  match t.pc, x with
  | .locating pc, .deposit y =>
    match t.call.deposit with
    | none => none
    | some call =>
      match depositStep c.deposit s.deposit ⟨call, pc⟩ y with
      | none => none
      | some (deposit, u) => move ({ s with deposit }, located u.pc)
  | pc, .fail => if pc.isLive then move (s, pc.failed) else none
  | .verifying d, .cutover x => move (s, verifyPending x d)
  | .allocating d, .address id now =>
    match s.ensureActiveAddress c d.account id now with
    | .error e => move (s, .raised e)
    | .ok (s', address) => move (s', .fetching d (some address))
  | .fetching d address, .answer a => move (s, answered d address a)
  | .gating d tr address, .go => move (s.applyTransferGates c d tr address)
  | .failing d reason raw e, .go =>
    match s.deposit.markFailed d reason raw with
    | .error e' => move (s, .raised e')
    | .ok deposit => move ({ s with deposit }, .raised e)
  | .completing d tr none, .go => move (s.complete d tr)
  | .completing d tr (some address), .uuid id =>
    match s.completeWalletPath c d tr address id with
    | .error e => move (s, .raised e)
    | .ok (s', r) => move (s', .returned r)
  | .comparing d tr, .cutover x => move (s, if s.compares x d then .observing d tr else .returned d)
  | .observing d tr, .uuid id =>
    move ((s.compareOnce c d tr id).1, .recording d ⟨d.id, (s.compareOnce c d tr id).2⟩)
  | .recording d decision, .go => move (s.record decision, .returned d)
  | .listing, .listed ids =>
    if ids.all (· ∈ s.convertible none) then move (s, .resuming ids) else none
  | .resuming [], .go => move (s, .reported)
  | .resuming (id :: ids), .cutover x => move (s.resumeConvert x id, .resuming ids)
  | _, _ => none

/-- The verifications of deposits on both paths, run concurrently. -/
def moneyProgram (c : MoneySettings) : Program MoneyDb MoneyThread MoneyCall MoneyInput where
  start call := ⟨call, if call.deposit.isSome then .locating .asked else .listing⟩
  step := moneyStep c

end Roamkit.Wallet
