import Roamkit.Lib.Recorded
import Roamkit.Wallet.Observation

/-!
# Allocating receive addresses

`ensure_active_address` and `rotate_active_address` try one transaction up to eight times.
It locks the wallet identity of the account, or makes it, and gives out the index after the
highest one that is stored. Between two statements of it others may step: they may be
allocating for another account, and they may be deleting one. What a transaction writes is
seen when it commits; a row it has locked, or the identity it is making, is in the way of
others until then.
-/

namespace Roamkit.Wallet

open Lib Billing

/-! ## Rows -/

/-- An account of `apps.billing`, as far as its deletion goes. -/
structure WalletAccount where
  id : Uuid
  user : Option UserId
deriving DecidableEq

instance : Constraint WalletAccount where
  clash a b := a.id = b.id ∨ (a.user ≠ none ∧ a.user = b.user)
  symm := by
    intro a b h
    rcases h with h | ⟨hne, h⟩
    · exact .inl h.symm
    · exact .inr ⟨h ▸ hne, h.symm⟩
  decClash _ _ := inferInstance

structure WalletIdentity where
  id : Uuid
  account : Uuid
deriving DecidableEq

instance : Constraint WalletIdentity where
  clash i j := i.id = j.id ∨ i.account = j.account
  symm := by
    intro i j h
    rcases h with h | h
    · exact .inl h.symm
    · exact .inr h.symm
  decClash _ _ := inferInstance

/-- A transaction that has locked the identity of an account, and the index it has computed. -/
structure Hold where
  account : Uuid
  index : Option Nat
deriving DecidableEq

structure AllocationDb where
  accounts : Table WalletAccount
  identities : Table WalletIdentity
  addresses : Table WalletAddress
  /-- The addresses a deposit was observed for. -/
  observed : List Uuid
  /-- The transactions in progress. -/
  holds : List Hold

/-! ## Derivation -/

/-- The seed, and what `eth_account` derives from one at `m/44'/60'/0'/0/{index}`. -/
structure HdSettings where
  mnemonic : String
  fromMnemonic : String → Nat → Except Exc String

variable (c : HdSettings)

/-- `derive_evm_address` -/
def HdSettings.deriveEvmAddress (index : Nat) : Except Exc String :=
  let seed := PyText.strip c.mnemonic
  if seed = "" then .error (.walletSeedNotConfigured "WALLET_HD_MNEMONIC is not configured")
  else normalizeEvmAddress <$> c.fromMnemonic seed index

variable (s : AllocationDb)

namespace AllocationDb

/-- The highest index that is stored. -/
def topIndex : Option Nat := (s.addresses.rows.map (·.derivationIndex)).max?

/-- `_next_derivation_index` -/
def nextDerivationIndex : Nat :=
  match s.topIndex with
  | none => 0
  | some current => current + 1

/-! ## Locks -/

def isHeld (account : Uuid) : Bool := s.holds.any (·.account = account)

def hold (account : Uuid) : AllocationDb :=
  { s with holds := ⟨account, none⟩ :: s.holds }

/-- A transaction ends. -/
def release (account : Uuid) : AllocationDb :=
  { s with holds := s.holds.filter (·.account ≠ account) }

/-- A transaction has computed an index. -/
def compute (account : Uuid) (index : Nat) : AllocationDb :=
  { s with
    holds := s.holds.map fun h =>
      if h.account = account then { h with index := some index } else h }

end AllocationDb

/-! ## Calls -/

inductive AllocationCall where
  /-- `ensure_active_address` -/
  | ensure (account : Uuid) (chain : String)
  /-- `rotate_active_address` -/
  | rotate (account : Uuid) (chain : String)
  | openAccount (account : WalletAccount)
  | deleteAccount (account : Uuid)
  | deleteUser (user : UserId)
  /-- A deposit is observed for an address. -/
  | observe (address : Uuid)

/-- Where a call is; `left` attempts are left after this one. -/
inductive AllocationPc where
  | asked
  /-- At the start of an attempt. -/
  | seeking (left : Nat)
  /-- The account has no identity. -/
  | creating (left : Nat)
  | locking (left : Nat) (identity : Uuid)
  /-- The identity is locked; it is `fresh` when this transaction makes it. -/
  | held (left : Nat) (identity : WalletIdentity) (fresh : Bool)
  /-- An index is to be computed; a rotation retires an address. -/
  | counting (left : Nat) (identity : WalletIdentity) (fresh : Bool) (retires : Option Uuid)
  | inserting (left : Nat) (identity : WalletIdentity) (fresh : Bool) (retires : Option Uuid)
      (index : Nat)
    (address : String)
  | returned (a : WalletAddress)
  | done
  | raised (e : Exc)

structure AllocationThread where
  call : AllocationCall
  pc : AllocationPc

/-- What a step gets from outside. -/
inductive AllocationInput where
  | go
  /-- A fresh primary key, and the clock. -/
  | row (id : Uuid) (now : Time)
  /-- A row of another component protects an account that is to be deleted. -/
  | protects
  | fail

namespace AllocationCall

/-- The account and the chain of an allocation. -/
def target : AllocationCall → Option (Uuid × String)
  | ensure account chain => some (account, chain)
  | rotate account chain => some (account, chain)
  | _ => none

/-- What is raised after the last attempt. -/
def exhausted : AllocationCall → String
  | rotate _ _ => "failed to rotate WalletAddress after concurrency retries"
  | _ => "failed to allocate WalletAddress after concurrency retries"

def isDeletion : AllocationCall → Bool
  | deleteAccount _ => true
  | deleteUser _ => true
  | _ => false

/-- An account that a call deletes. -/
def deletes (k : AllocationCall) (a : WalletAccount) : Bool :=
  match k with
  | deleteAccount account => a.id = account
  | deleteUser user => a.user = some user
  | _ => false

end AllocationCall

/-- `_MAX_INDEX_RETRIES` -/
def maxIndexRetries : Nat := 8

def AllocationThread.at (t : AllocationThread) (pc : AllocationPc) : AllocationThread :=
  { t with pc }

/-- `except IntegrityError: continue` -/
def AllocationThread.again (t : AllocationThread) : Nat → AllocationThread
  | 0 => t.at (.raised (.walletAllocation t.call.exhausted))
  | left + 1 => t.at (.seeking left)

/-- The account whose identity a call has locked. -/
def AllocationPc.holding : AllocationPc → Option Uuid
  | held _ identity _ => some identity.account
  | counting _ identity _ _ => some identity.account
  | inserting _ identity _ _ _ _ => some identity.account
  | _ => none

def AllocationPc.isLive : AllocationPc → Bool
  | returned _ => false
  | done => false
  | raised _ => false
  | _ => true

namespace AllocationDb

/-! ## The transaction -/

/-- The look-up of `_lock_identity`. -/
def seek (account : Uuid) (left : Nat) : AllocationPc :=
  match s.identities.find? (·.account = account) with
  | some identity => .locking left identity.id
  | none => .creating left

/-- Its insert, and the look-up after one that fails. -/
def create (s : AllocationDb) (account : Uuid) (left : Nat) (id : Uuid) :
    Option (AllocationDb × AllocationPc) :=
  match s.identities.insert? ⟨id, account⟩ with
  | none =>
    match s.identities.find? (·.account = account) with
    | some identity => some (s, .locking left identity.id)
    | none => some (s, .raised (.doesNotExist "WalletIdentity"))
  | some _ =>
    -- an identity that another transaction is making is waited for
    if s.isHeld account then none else some (s.hold account, .held left ⟨id, account⟩ true)

/-- `select_for_update().get(pk=identity.pk)` -/
def lock (left : Nat) (id : Uuid) : Option (AllocationDb × AllocationPc) :=
  match s.identities.find? (·.id = id) with
  | none => some (s, .raised (.doesNotExist "WalletIdentity"))
  | some identity =>
    if s.isHeld identity.account then none
      else some (s.hold identity.account, .held left identity false)

/-- The active address of an identity. -/
def active (account : Uuid) (chain : String) : Option WalletAddress :=
  s.addresses.find? fun a => a.account = account && a.chain = chain && a.status = .active

/-- The identity as it is committed; its foreign key is checked then. -/
def withIdentity (identity : WalletIdentity) (fresh : Bool) : Except Exc AllocationDb :=
  if ¬ fresh then .ok s
  else if (s.accounts.find? (·.id = identity.account)).isNone then .error .integrity
  else
    match s.identities.insert? identity with
    | none => .error .integrity
    | some identities => .ok { s with identities }

/-- A row of an address as it is retired. -/
def retired (a : WalletAddress) : WalletAddress := { a with status := .retired }

theorem retired_keeps : Table.Keeps retired := by
  rintro a b (h | h | ⟨hacc, hchain, h | ⟨h, _⟩⟩)
  · exact .inl h
  · exact .inr (.inl h)
  · exact .inr (.inr ⟨hacc, hchain, .inl h⟩)
  · cases h

/-- The save of a rotation. -/
def retire : Option Uuid → AllocationDb
  | none => s
  | some id => { s with addresses := s.addresses.update (·.id = id) retired retired_keeps }

/-- The insert of `_allocate_new`, and the commit. -/
def insertAddress (identity : WalletIdentity) (fresh : Bool) (retires : Option Uuid)
    (a : WalletAddress) : Except Exc AllocationDb :=
  if 2147483647 < a.derivationIndex ∨ 32 < a.chain.length then .error .data
  else do
    let s₁ ← s.withIdentity identity fresh
    match (s₁.retire retires).addresses.insert? a with
    | none => .error .integrity
    | some addresses => .ok { s₁ with addresses }

/-! ## Deletion -/

/-- The account of a row is among those deleted. -/
def gone (k : AllocationCall) (account : Uuid) : Bool :=
  s.accounts.rows.any fun a => k.deletes a && a.id = account

/-- The accounts a call deletes, with the identities and the addresses that hang on them. -/
def cascade (k : AllocationCall) : AllocationDb :=
  { s with
    accounts := s.accounts.remove k.deletes
    identities := s.identities.remove fun i => s.gone k i.account
    addresses := s.addresses.remove fun a => s.gone k a.account }

/-- An observation protects an address that is to go. -/
def refuses (k : AllocationCall) : Bool :=
  s.addresses.rows.any fun a => s.gone k a.account && s.observed.contains a.id

/-- A deletion, once no transaction has locked what it deletes; `blocked` by other components or
not. -/
def delete (k : AllocationCall) (blocked : Bool) : Option (AllocationDb × AllocationPc) :=
  if s.identities.rows.any fun i => s.gone k i.account && s.isHeld i.account then none
  else if blocked then some (s, .raised (.protectedRows "Account"))
  else if s.refuses k then some (s, .raised (.protectedRows "WalletAddress"))
  else some (s.cascade k, .done)

end AllocationDb

/-! ## One step -/

/-- The first step of a call. -/
def beginAllocation (t : AllocationThread) : Option (AllocationDb × AllocationThread) :=
  match t.call with
  | .ensure account _ => some (s, t.at (s.seek account (maxIndexRetries - 1)))
  | .rotate account _ => some (s, t.at (s.seek account (maxIndexRetries - 1)))
  | .openAccount account =>
    match s.accounts.insert? account with
    | none => some (s, t.at (.raised .integrity))
    | some accounts => some ({ s with accounts }, t.at .done)
  | .observe address =>
    if (s.addresses.find? (·.id = address)).isNone then some (s, t.at (.raised .integrity))
    else some ({ s with observed := address :: s.observed }, t.at .done)
  | .deleteAccount _ => (s.delete t.call false).map fun r => (r.1, t.at r.2)
  | .deleteUser _ => (s.delete t.call false).map fun r => (r.1, t.at r.2)

/-- What follows the lock of the identity. -/
def lookUpActive (t : AllocationThread) (left : Nat) (identity : WalletIdentity) (fresh : Bool) :
    AllocationDb × AllocationThread :=
  match t.call with
  | .rotate account chain =>
    match s.active identity.account chain with
    | none =>
      (s.release identity.account, t.at (.raised (.walletAddressNotFound
        ("no active WalletAddress for account=" ++ account.str ++ " chain=" ++ chain))))
    | some a => (s, t.at (.counting left identity fresh (some a.id)))
  | .ensure _ chain =>
    match s.active identity.account chain with
    | none => (s, t.at (.counting left identity fresh none))
    | some a =>
      match s.withIdentity identity fresh with
      | .error _ => (s.release identity.account, t.again left)
      | .ok s' => (s'.release identity.account, t.at (.returned a))
  | _ => (s, t)

/-- The index after the highest, and its address. -/
def count (s : AllocationDb) (t : AllocationThread) (left : Nat) (identity : WalletIdentity)
    (fresh : Bool) (retires : Option Uuid) : AllocationDb × AllocationThread :=
  match c.deriveEvmAddress s.nextDerivationIndex with
  | .error e => (s.release identity.account, t.at (.raised e))
  | .ok address =>
    (s.compute identity.account s.nextDerivationIndex,
      t.at (.inserting left identity fresh retires s.nextDerivationIndex address))

/-- The insert of the new address. -/
def allocateNew (t : AllocationThread) (left : Nat) (identity : WalletIdentity) (fresh : Bool)
    (retires : Option Uuid) (a : WalletAddress) : AllocationDb × AllocationThread :=
  match s.insertAddress identity fresh retires a with
  | .ok s' => (s'.release identity.account, t.at (.returned a))
  | .error .integrity => (s.release identity.account, t.again left)
  | .error e => (s.release identity.account, t.at (.raised e))

/-- One step of a call. -/
def allocationStep (s : AllocationDb) (t : AllocationThread) (x : AllocationInput) :
    Option (AllocationDb × AllocationThread) :=
  match t.pc, t.call.target, x with
  | pc, _, .fail =>
    if pc.isLive then
      some (match pc.holding with
        | none => s
        | some account => s.release account, t.at (.raised .operational))
    else none
  | .asked, _, .go => beginAllocation s t
  | .asked, _, .protects =>
    if t.call.isDeletion then (s.delete t.call true).map fun r => (r.1, t.at r.2) else none
  | .seeking left, some (account, _), .go => some (s, t.at (s.seek account left))
  | .creating left, some (account, _), .row id _ =>
      (s.create account left id).map fun r => (r.1, t.at r.2)
  | .locking left identity, some _, .go => (s.lock left identity).map fun r => (r.1, t.at r.2)
  | .held left identity fresh, some _, .go => some (lookUpActive s t left identity fresh)
  | .counting left identity fresh retires, some _, .go =>
      some (count c s t left identity fresh retires)
  | .inserting left identity fresh retires index address, some (_, chain), .row id now =>
    some (allocateNew s t left identity fresh retires
      ⟨id, identity.account, chain, address, index, .active, now⟩)
  | _, _, _ => none

/-- The allocation service and deletions, their calls run concurrently. -/
def walletAllocations : Program AllocationDb AllocationThread AllocationCall AllocationInput where
  start call := ⟨call, .asked⟩
  step := allocationStep c

/-- The addresses that were ever allocated, the newest first. -/
def noteAllocation (_ : AllocationDb) (t : AllocationThread) (_ : AllocationInput)
    (_ : AllocationDb) (t' : AllocationThread) (record : List WalletAddress) : List WalletAddress :=
  match t.pc, t'.pc with
  | .inserting .., .returned a => a :: record
  | _, _ => record

end Roamkit.Wallet
