import Roamkit.Partner.Calls
import Roamkit.Partner.Settlement

/-!
# Partner credit grants

`PartnerGrantService` moves credits from the settlement account of a channel to an
attributed customer. A call first looks for a grant with its key; then one transaction
locks the attribution and looks again, and everything after that, up to its commit, is
one step. An `IntegrityError` is handled after the transaction is rolled back.
-/

namespace Roamkit.Partner

open Lib Billing Organizations

/-- A grant; an entry of the ledger is named by its key. -/
structure PartnerCreditGrant where
  id : Uuid
  partnerChannel : Uuid
  /-- `customer_user_id_snapshot` -/
  customer : UserId
  /-- `customer_attribution` -/
  attribution : Uuid
  /-- `granted_by_user_id_snapshot` -/
  grantedBy : UserId
  amount : Amount
  idempotencyKey : String
  debitEntry : String
  creditEntry : String
deriving DecidableEq

instance : Constraint PartnerCreditGrant where
  clash g h := g.id = h.id
    ∨ (g.partnerChannel = h.partnerChannel ∧ g.idempotencyKey = h.idempotencyKey)
    ∨ g.debitEntry = h.debitEntry ∨ g.creditEntry = h.creditEntry
  symm := by
    intro g h hclash
    rcases hclash with hid | ⟨hch, hkey⟩ | hdebit | hcredit
    · exact .inl hid.symm
    · exact .inr (.inl ⟨hch.symm, hkey.symm⟩)
    · exact .inr (.inr (.inl hdebit.symm))
    · exact .inr (.inr (.inr hcredit.symm))
  decClash _ _ := inferInstance

/-- `f"partner-grant-out:{grant_id}"` -/
def grantOutKey (id : Uuid) : String := "partner-grant-out:" ++ id.str

/-- `f"partner-grant-in:{grant_id}"` -/
def grantInKey (id : Uuid) : String := "partner-grant-in:" ++ id.str

/-! ## Calls -/

/-- The arguments of a grant. -/
structure GrantArgs where
  actor : UserId
  partnerChannel : Uuid
  customer : UserId
  amount : RawAmount
  idempotencyKey : String

/-- How the source of a grant is found. -/
inductive GrantCall where
  /-- `grant`, on the account of the organization. -/
  | grant (a : GrantArgs)
  /-- `resolve_partner_settlement_account`, then `grant_from_account`. -/
  | grantFromAccount (a : GrantArgs)

def GrantCall.args : GrantCall → GrantArgs
  | grant a => a
  | grantFromAccount a => a

/-- What `_execute` is called with, beside the arguments. -/
structure GrantPlan where
  source : Uuid
  amount : Amount

inductive GrantPc where
  /-- Not begun. -/
  | asked
  /-- `_execute` before its first look-up. -/
  | looking (plan : GrantPlan)
  /-- Before its transaction. -/
  | locking (plan : GrantPlan)
  /-- The attribution is locked, and on the channel. -/
  | writing (plan : GrantPlan) (attribution : CustomerAttribution)
  /-- The transaction met an `IntegrityError`, and is rolled back. -/
  | conflicted (plan : GrantPlan)
  | returned (g : PartnerCreditGrant)
  | raised (e : Exc)

structure GrantThread where
  call : GrantCall
  pc : GrantPc
  /-- The rows its transaction holds. -/
  held : List LockedRow

/-- What a step gets from outside: `uuid 0` is that of the grant, `uuid 1` of a new account. -/
inductive GrantInput where
  | go (uuid : Nat → Uuid)
  | fail

structure GrantDb where
  rows : ReferralDb
  grants : Table PartnerCreditGrant

variable (s : GrantDb)

namespace GrantDb

/-- `_existing` -/
def existing? (channel : Uuid) (key : String) : Option PartnerCreditGrant :=
  s.grants.find? fun g => g.partnerChannel = channel && g.idempotencyKey = key

/-- `_matching` -/
def matching (g : PartnerCreditGrant) (customer : UserId) (amount : Amount) :
    Except Exc PartnerCreditGrant :=
  if g.customer ≠ customer ∨ g.amount ≠ amount then
    .error
      (.partnerGrantIdempotencyConflict "idempotency_key was already used for a different grant")
  else .ok g

/-- `_require_grant_membership` -/
def mayGrant (actor : UserId) (owner : ChannelOwner) : Bool :=
  s.rows.memberships.rows.any fun m => owner.organization = some m.organization && m.user = actor
    && m.status = .active && (m.role = .owner || m.role = .admin)

/-- `partner_channel.organization.account_id` -/
def organizationAccount : ChannelOwner → Except Exc Uuid
  | .individual _ => .error .attributeError
  | .team organization =>
    match s.rows.organization? organization with
    | none => .error (.doesNotExist "Organization")
    | some o => .ok o.account

/-- The checks of the arguments, the same in both calls. -/
def checkArgs (partnerChannelEnabled : Bool) (a : GrantArgs) : Except Exc Amount :=
  if a.idempotencyKey = "" then .error (.partnerGrant "idempotency_key is required")
  else do
    let quantized ← normalizeAmount a.amount
    if partnerChannelEnabled then .ok quantized
    else .error (.partnerChannelDisabled "Partner channel is disabled")

/-- A call up to `_execute`. -/
def plan (partnerChannelEnabled : Bool) (channel : PartnerChannel) :
    GrantCall → Except Exc GrantPlan
  | .grant a => do
    let amount ← checkArgs partnerChannelEnabled a
    if s.mayGrant a.actor channel.owner then
      return ⟨← s.organizationAccount channel.owner, amount⟩
    else .error (.partnerGrantForbidden "Grant requires an active owner or admin membership")
  | .grantFromAccount a => do
    let source ← s.rows.settlementAccount channel.owner
    let amount ← checkArgs partnerChannelEnabled a
    return ⟨source, amount⟩

/-! ## The transaction -/

/-- `ensure_billing_account` -/
def ensureBillingAccount (customer : UserId) (id : Uuid) : Except Exc (GrantDb × Uuid) :=
  match s.rows.accounts.find? (·.user = some customer) with
  | some a => .ok (s, a.id)
  | none =>
    match s.rows.accounts.insert? ⟨id, some customer, .personal⟩,
      s.rows.books.accounts.insert? ⟨id, 0, 0⟩ with
    | some accounts, some balances =>
      .ok ({ s with
        rows := { s.rows with accounts, books := { s.rows.books with accounts := balances } } }, id)
    | _, _ => .error .integrity

/-- `_lock_ordered_accounts`, and the check of the source's balance. -/
def lockAccounts (b : Books) (source destination : Uuid) : Except Exc Unit :=
  if source = destination then
    .error (.partnerGrantSameAccount "Grant source and destination accounts are the same")
  else
    match b.accounts.find? (·.id = source), b.accounts.find? (·.id = destination) with
    | some row, some _ =>
      if row.balance < 0 then
        .error (.partnerGrantNegativeBalance "Settlement account balance is already negative")
      else .ok ()
    | _, _ => .error (.doesNotExist "Account")

/-- The two postings of a grant. -/
def transfer (b : Books) (source destination : Uuid) (amount : Amount)
    (grant : Uuid) : Except Exc Books :=
  do
  let money : RawAmount := .decimal (.finite (Dec.ofUnits 6 amount.micros))
  let debit ← preparePosting source money (.member .partnerGrantOut) grant.str
    (grantOutKey grant) false
  let (b₁, _) ← b.apply debit
  let credit ← preparePosting destination money (.member .partnerGrantIn) grant.str
    (grantInKey grant) true
  let (b₂, _) ← b₁.apply credit
  return b₂

/-- The row of a grant. -/
def newGrant (a : GrantArgs) (plan : GrantPlan) (attribution : CustomerAttribution) (id : Uuid) :
    PartnerCreditGrant where
  id
  partnerChannel := a.partnerChannel
  customer := a.customer
  attribution := attribution.id
  grantedBy := a.actor
  amount := plan.amount
  idempotencyKey := a.idempotencyKey
  debitEntry := grantOutKey id
  creditEntry := grantInKey id

/-- The transaction, once the attribution is locked and checked. -/
def write (a : GrantArgs) (plan : GrantPlan) (attribution : CustomerAttribution)
    (uuid : Nat → Uuid) : Except Exc (GrantDb × PartnerCreditGrant) := do
  let (s₁, destination) ← s.ensureBillingAccount a.customer (uuid 1)
  lockAccounts s₁.rows.books plan.source destination
  let books ← transfer s₁.rows.books plan.source destination plan.amount (uuid 0)
  let g := newGrant a plan attribution (uuid 0)
  if 128 < g.idempotencyKey.length then .error .data
  else
    match s₁.grants.insert? g with
    | none => .error .integrity
    | some grants => .ok ({ rows := { s₁.rows with books }, grants }, g)

/-! ## The steps of a call -/

/-- The call raises; its transaction is rolled back. -/
def raise (t : GrantThread) (e : Exc) : GrantDb × GrantThread :=
  ({ s with rows := s.rows.release t.held }, { t with pc := .raised e, held := [] })

/-- The call returns. -/
def answer (t : GrantThread) (g : PartnerCreditGrant) : GrantDb × GrantThread :=
  ({ s with rows := s.rows.release t.held }, { t with pc := .returned g, held := [] })

/-- The call goes on. -/
def goto (t : GrantThread) (pc : GrantPc) : GrantDb × GrantThread := (s, { t with pc })

/-- A grant with the key was found. -/
def replay (t : GrantThread) (plan : GrantPlan) (g : PartnerCreditGrant) :
    GrantDb × GrantThread :=
  match matching g t.call.args.customer plan.amount with
  | .error e => s.raise t e
  | .ok g => s.answer t g

/-- The first step of a call. -/
def begin (t : GrantThread) (partnerChannelEnabled : Bool) : GrantDb × GrantThread :=
  match s.rows.channel? t.call.args.partnerChannel with
  | none => s.raise t (.doesNotExist "PartnerChannel")
  | some channel =>
    match s.plan partnerChannelEnabled channel t.call with
    | .error e => s.raise t e
    | .ok plan => s.goto t (.looking plan)

/-- The look-up before the transaction. -/
def look (t : GrantThread) (plan : GrantPlan) : GrantDb × GrantThread :=
  match s.existing? t.call.args.partnerChannel t.call.args.idempotencyKey with
  | some g => s.replay t plan g
  | none => s.goto t (.locking plan)

/-- The attribution is locked, and no grant has the key: `_require_current_channel`. -/
def requireChannel (t : GrantThread) (plan : GrantPlan) (attribution : CustomerAttribution) :
    GrantDb × GrantThread :=
  if attribution.partnerChannel ≠ t.call.args.partnerChannel then
    s.raise t (.customerAttributionChanged "Customer is no longer attributed to this channel")
  else
    let row := LockedRow.attribution attribution.user
    ({ s with rows := { s.rows with locks := row :: s.rows.locks } },
      { t with pc := .writing plan attribution, held := row :: t.held })

/-- `_lock_attribution`, and the second look-up. -/
def lock (t : GrantThread) (plan : GrantPlan) : Option (GrantDb × GrantThread) :=
  let existing := s.existing? t.call.args.partnerChannel t.call.args.idempotencyKey
  match s.rows.attribution? t.call.args.customer with
  | none =>
    match existing with
    | some g => some (s.replay t plan g)
    | none => some (s.raise t (.customerNotAttributed "Customer has no partner attribution"))
  | some attribution =>
    if .attribution attribution.user ∈ s.rows.locks then none
    else
      match existing with
      | some g => some (s.replay t plan g)
      | none => some (s.requireChannel t plan attribution)

/-- The rest of the transaction. -/
def commit (t : GrantThread) (plan : GrantPlan) (attribution : CustomerAttribution)
    (uuid : Nat → Uuid) : GrantDb × GrantThread :=
  match s.write t.call.args plan attribution uuid with
  | .error .integrity =>
    ({ s with rows := s.rows.release t.held }, { t with pc := .conflicted plan, held := [] })
  | .error e => s.raise t e
  | .ok (s', g) => s'.answer t g

/-- The look-up after an `IntegrityError`. -/
def race (t : GrantThread) (plan : GrantPlan) : GrantDb × GrantThread :=
  match s.existing? t.call.args.partnerChannel t.call.args.idempotencyKey with
  | some g => s.replay t plan g
  | none => s.raise t .integrity

end GrantDb

/-- Whether a call has a query left. -/
def GrantPc.isLive : GrantPc → Bool
  | returned _ => false
  | raised _ => false
  | _ => true

/-- One step of a call. -/
def grantStep (partnerChannelEnabled : Bool) (s : GrantDb) (t : GrantThread) (x : GrantInput) :
    Option (GrantDb × GrantThread) :=
  match x with
  | .fail => if t.pc.isLive then some (s.raise t .operational) else none
  | .go uuid =>
    match t.pc with
    | .asked => some (s.begin t partnerChannelEnabled)
    | .looking plan => some (s.look t plan)
    | .locking plan => s.lock t plan
    | .writing plan attribution => some (s.commit t plan attribution uuid)
    | .conflicted plan => some (s.race t plan)
    | .returned _ => none
    | .raised _ => none

end Roamkit.Partner
