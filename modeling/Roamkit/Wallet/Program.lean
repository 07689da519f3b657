import Roamkit.Wallet.Observation

/-!
# Observations in flight

`walletProgram` runs any number of `ingest`, `advance_confirmation`, `expire` and
`convert` calls at once. A transaction that works on a locked row is one step. An
attempt of `ingest` is two when its look-up finds no row, for another call may
insert one before it does; and when its attempts are used up, `ingest` reads the
row without a lock and saves it column by column, each save a step of its own.
-/

namespace Roamkit.Wallet

open Lib Billing

/-- A posting of another service: not under an observation's key. -/
structure LedgerPosting where
  posting : Posting
  notObservation : ∀ rest, posting.idempotencyKey ≠ "wallet-obs:" ++ rest

inductive WalletCall where
  | ingest (signal : ObservationSignal) (shadowOnly : Bool)
  | advance (id : Uuid)
  | expire (id : Uuid)
  | convert (id : Uuid)
  /-- An address is allocated. -/
  | allocate (address : WalletAddress)
  /-- An address is retired. -/
  | retire (id : Uuid)
  | post (p : LedgerPosting)

/-- Where a call is. -/
inductive WalletPc where
  /-- Not begun. -/
  | asked
  /-- Before the look-up of an attempt; so many attempts are left. -/
  | attempting (a : Ingest) (left : Nat)
  /-- The look-up found no row. -/
  | inserting (a : Ingest) (left : Nat)
  /-- The attempts are used up. -/
  | fallingBack (a : Ingest)
  /-- `_refresh_locked` on a copy that was read without a lock: the confirmations are saved, -/
  | refreshing (copy : DepositObservation) (confirmations : Int)
  /-- an observed row is marked pending, -/
  | marking (copy : DepositObservation)
  /-- and the policy is applied. -/
  | judging (copy : DepositObservation)
  | returned (o : DepositObservation)
  | posted (e : CreditLedgerEntry)
  | done
  | raised (e : Exc)

structure WalletThread where
  call : WalletCall
  pc : WalletPc

/-- What a step gets from outside: nothing, a fresh UUID, or a failure. -/
inductive WalletInput where
  | go
  | uuid (id : Uuid)
  | fail

variable (s : WalletDb) (c : WalletSettings)

namespace WalletDb

/-- A row with the status and the reason of another. -/
def restated (o r : DepositObservation) : DepositObservation :=
  { r with status := o.status, statusReason := o.statusReason }

/-- Save the status and the reason of a copy. -/
def saveStatus (o : DepositObservation) : WalletDb :=
  { s with observations := s.observations.update (·.id = o.id) (restated o) (fun _ _ h => h) }

/-- A row with the confirmations of another. -/
def recounted (o r : DepositObservation) : DepositObservation :=
  { r with confirmations := o.confirmations }

/-- Save the confirmations of a copy. -/
def saveConfirmations (o : DepositObservation) : WalletDb :=
  { s with observations := s.observations.update (·.id = o.id) (recounted o) (fun _ _ h => h) }

/-- A row of an address as it is retired. -/
def retired (a : WalletAddress) : WalletAddress := { a with status := .retired }

theorem retired_keeps : Table.Keeps retired := by
  rintro a b (h | h | ⟨hacc, hchain, h | ⟨h, _⟩⟩)
  · exact .inl h
  · exact .inr (.inl h)
  · exact .inr (.inr ⟨hacc, hchain, .inl h⟩)
  · cases h

/-- Retire an address. -/
def retire (id : Uuid) : WalletDb :=
  { s with addresses := s.addresses.update (·.id = id) retired retired_keeps }

end WalletDb

/-- An attempt met an `IntegrityError`. -/
def nextAttempt (a : Ingest) : Nat → WalletPc
  | 0 => .fallingBack a
  | left + 1 => .attempting a left

/-- The first step of a call. -/
def beginWallet (s : WalletDb) : WalletCall → Except Exc (WalletDb × WalletPc)
  | .ingest signal shadowOnly => do
    let a ← s.prepareIngest signal shadowOnly
    return (s, .attempting a 4)
  | .advance id => do
    let (s', o) ← s.advanceConfirmation c id
    return (s', .returned o)
  | .expire id => do
    let (s', o) ← s.expire id
    return (s', .returned o)
  | .convert id => do
    let (s', e) ← s.convert id
    return (s', .posted e)
  | .allocate address =>
    match s.addresses.insert? address with
    | none => .error .integrity
    | some addresses => .ok ({ s with addresses }, .done)
  | .retire id => .ok (s.retire id, .done)
  | .post p => do
    let (books, e) ← s.books.apply p.posting
    return ({ s with books }, .posted e)

/-- The look-up of an attempt, and all of it when it finds a row. -/
def attempt (s : WalletDb) (a : Ingest) (left : Nat) :
    Except Exc (WalletDb × WalletPc) :=
  match s.observationOf a with
  | none => .ok (s, .inserting a left)
  | some o => do
    let (s', refreshed) ← s.refreshFound c o a.confirmations
    return (s', .returned refreshed)

/-- The rest of an attempt that found no row. -/
def insert (s : WalletDb) (a : Ingest) (left : Nat) (id : Uuid) :
    Except Exc (WalletDb × WalletPc) := do
  match ← s.insertNew c a id with
  | none => .ok (s, nextAttempt a left)
  | some (s', o) => .ok (s', .returned o)

/-- The look-up of `ingest` after its attempts. -/
def fallBack (a : Ingest) : Except Exc (WalletDb × WalletPc) :=
  match s.observationOf a with
  | none => .error (.doesNotExist "DepositObservation")
  | some copy =>
    .ok (s, if copy.status.isTerminal then .returned copy else .refreshing copy a.confirmations)

/-- The first save of `_refresh_locked`. -/
def recount (copy : DepositObservation) (confirmations : Int) :
    Except Exc (WalletDb × WalletPc) :=
  if confirmations ≤ copy.confirmations then .ok (s, .marking copy)
  else do
    let raised ← raiseConfirmations copy confirmations
    return (s.saveConfirmations raised, .marking raised)

/-- Its second save. -/
def mark (copy : DepositObservation) : WalletDb × WalletPc :=
  if copy.status = .observed then (s.saveStatus (markPending copy), .judging (markPending copy))
  else (s, .judging copy)

/-- Its last save. -/
def judge (s : WalletDb) (copy : DepositObservation) :
    Except Exc (WalletDb × WalletPc) := do
  let judged ← applyPolicy c copy
  return (s.saveStatus judged, .returned judged)

/-- What a call does after a step of it raised or came to its next point. -/
def WalletThread.goOn (t : WalletThread) (s : WalletDb) :
    Except Exc (WalletDb × WalletPc) → WalletDb × WalletThread
  | .error e => (s, { t with pc := .raised e })
  | .ok (s', pc) => (s', { t with pc })

/-- Whether a call has a query left. -/
def WalletPc.isLive : WalletPc → Bool
  | .returned _ => false
  | .posted _ => false
  | .done => false
  | .raised _ => false
  | _ => true

/-- One step of a call. -/
def walletStep (s : WalletDb) (t : WalletThread) (x : WalletInput) :
    Option (WalletDb × WalletThread) :=
  match t.pc, x with
  | pc, .fail => if pc.isLive then some (s, { t with pc := .raised .operational }) else none
  | .asked, .go => t.goOn s (beginWallet c s t.call)
  | .attempting a left, .go => t.goOn s (attempt c s a left)
  | .inserting a left, .uuid id => t.goOn s (insert c s a left id)
  | .fallingBack a, .go => t.goOn s (fallBack s a)
  | .refreshing copy confirmations, .go => t.goOn s (recount s copy confirmations)
  | .marking copy, .go => t.goOn s (.ok (mark s copy))
  | .judging copy, .go => t.goOn s (judge c s copy)
  | _, _ => none

/-- The observation services, their calls run concurrently. -/
def walletProgram : Program WalletDb WalletThread WalletCall WalletInput where
  start call := ⟨call, .asked⟩
  step := walletStep c

end Roamkit.Wallet
