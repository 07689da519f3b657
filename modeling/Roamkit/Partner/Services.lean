import Roamkit.Partner.Grants
import Roamkit.Partner.Referrals

/-!
# The partner services at once

Grants move credits and purchases accrue margin while organizations, channels, invites
and attributions change. `partnerProgram` runs any number of calls of all of them over
one ledger, among postings of other services. A grant goes on query by query; an
accrual, which waits for the attribution and the channel it locks, is one step, with
the fulfilment it is part of around it.
-/

namespace Roamkit.Partner

open Lib Billing Organizations

structure PartnerDb where
  rows : ReferralDb
  grants : Table PartnerCreditGrant
  accruals : Table PartnerMarginAccrual

namespace PartnerDb

/-- The rows the grant service works on. -/
def grantDb (s : PartnerDb) : GrantDb := ⟨s.rows, s.grants⟩

/-- The rows after a step of the grant service. -/
def withGrants (s : PartnerDb) (g : GrantDb) :
    PartnerDb := { s with rows := g.rows, grants := g.grants }

/-- The ledger and the accruals. -/
def marginBooks (s : PartnerDb) : MarginBooks := ⟨s.rows.books, s.accruals⟩

/-- The rows after an accrual. -/
def withMargin (s : PartnerDb) (m : MarginBooks) : PartnerDb :=
  { s with rows := { s.rows with books := m.books }, accruals := m.accruals }

end PartnerDb

/-! ## Calls -/

/-- The kinds of entries that grants and accruals make. -/
def isPartnerType (t : LedgerReferenceType) : Bool :=
  t = .partnerMargin || t = .partnerGrantOut || t = .partnerGrantIn

/-- The keys they make them under. -/
inductive IsPartnerKey (key : String) : Prop
  | margin {sourceType : SourceType} {sourceId : String} :
      key = marginKey sourceType sourceId → IsPartnerKey key
  | grantOut {id : Uuid} : key = grantOutKey id → IsPartnerKey key
  | grantIn {id : Uuid} : key = grantInKey id → IsPartnerKey key

/-- A call of the organization and referral services; what another service posts is none of
theirs. -/
structure RowsCall where
  call : ReferralCall
  notPartner : ∀ p, call = .post p
    → isPartnerType p.referenceType = false ∧ ¬ IsPartnerKey p.idempotencyKey

/-- A fulfilment that accrues. -/
structure AccrueCall where
  sourceType : SourceType
  sourceId : String
  listPrice : Option Dec
  netPrice : Option Dec
  customer : Option UserId

inductive PartnerCall where
  | rows (k : RowsCall)
  | grant (k : GrantCall)
  | accrue (k : AccrueCall)

inductive AccruePc where
  | asked
  /-- It has accrued or skipped. -/
  | returned
  | raised (e : Exc)

inductive PartnerThread where
  | rows (t : ReferralThread)
  | grant (t : GrantThread)
  | accrue (k : AccrueCall) (pc : AccruePc)

/-- What a step gets from outside; an accrual gets its primary key. -/
inductive PartnerInput where
  | rows (x : ReferralInput)
  | grant (x : GrantInput)
  | accrue (id : Uuid)
  | fail

/-! ## Steps -/

/-- The rows an accrual waits for. -/
def AccrueCall.rows (k : AccrueCall) (partnerChannelEnabled : Bool)
    (s : ReferralDb) : List LockedRow :=
  match k.customer with
  | none => []
  | some user => if partnerChannelEnabled then s.accrualRows user else []

/-- `accrue`, on the attribution of the customer as it is. -/
def AccrueCall.run (k : AccrueCall) (partnerChannelEnabled : Bool) (s : PartnerDb) (id : Uuid) :
    Except Exc PartnerDb := do
  let m ← s.marginBooks.accrue partnerChannelEnabled k.sourceType k.sourceId k.listPrice k.netPrice
    k.customer (k.customer.bind s.rows.marginView) id
  return s.withMargin m

variable (c : ReferralSettings)

/-- One step of an accrual. -/
def accrueStep (s : PartnerDb) (k : AccrueCall) (id : Uuid) :
    Option (PartnerDb × PartnerThread) :=
  if (k.rows c.partnerChannelEnabled s.rows).all (· ∉ s.rows.locks) then
    match k.run c.partnerChannelEnabled s id with
    | .error e => some (s, .accrue k (.raised e))
    | .ok s' => some (s', .accrue k .returned)
  else none

/-- One step of a call. -/
def partnerStep (s : PartnerDb) (t : PartnerThread) (x : PartnerInput) :
    Option (PartnerDb × PartnerThread) :=
  match t, x with
  | .rows t, .rows x => (referralStep c s.rows t x).map fun r => ({ s with rows := r.1 }, .rows r.2)
  | .grant t, .grant x =>
    (grantStep c.partnerChannelEnabled s.grantDb t x).map fun r => (s.withGrants r.1, .grant r.2)
  | .accrue k .asked, .accrue id => accrueStep c s k id
  | .accrue k .asked, .fail => some (s, .accrue k (.raised .operational))
  | _, _ => none

/-- The partner services, their calls run concurrently. -/
def partnerProgram : Program PartnerDb PartnerThread PartnerCall PartnerInput where
  start
    | .rows k => .rows ⟨k.call, .asked, []⟩
    | .grant k => .grant ⟨k, .asked, []⟩
    | .accrue k => .accrue k .asked
  step := partnerStep c

/-!
## The reports on partners

`collect_partner_drift` looks for accruals and grants that their entries do not bear
out, for entries that nothing names and for channels without a link.
`collect_partner_integrity` adds what is wrong with settlement accounts, attributions,
grants and tokens. Both are made of several queries and no transaction: each query sees
the rows as they are when it is made, which `DriftReads` and `IntegrityReads` keep apart.
-/

/-- A line of a report, where there is something to say. -/
def flag (wrong : Bool) (line : String) : List String := if wrong then [line] else []

/-- A `Decimal` of six places as text. -/
def moneyText (n : Int) : String := Dec.fixed 6 n

/-! ### Drift -/

/-- The rows as each query of `collect_partner_drift` sees them. -/
structure DriftReads where
  accruals : PartnerDb
  marginOrphans : PartnerDb
  grants : PartnerDb
  /-- When the settlement account of a grant is resolved. -/
  settlement : PartnerCreditGrant → PartnerDb
  outOrphans : PartnerDb
  inOrphans : PartnerDb
  channels : PartnerDb

/-- All queries at one moment. -/
def DriftReads.at (s : PartnerDb) : DriftReads := ⟨s, s, s, fun _ => s, s, s, s⟩

namespace PartnerDb

/-- `select_related`, on an entry. -/
def entry? (s : PartnerDb) (key : String) : Option CreditLedgerEntry :=
  s.rows.books.entries.find? (·.idempotencyKey = key)

/-- `select_related`, on the account of an entry. -/
def account? (s : PartnerDb) (id : Uuid) : Option AccountIdentity :=
  s.rows.accounts.find? (·.id = id)

end PartnerDb

variable (r : GrantRead)

section Lines

variable (pk : CreditLedgerEntry → String)

/-- What is wrong with an accrual and its entry. -/
def accrualLines (a : PartnerMarginAccrual) (e : CreditLedgerEntry) : List String :=
  flag (e.referenceType ≠ .partnerMargin)
      ("accrual " ++ a.id.str ++ " ledger " ++ pk e ++ " is not partner_margin")
    ++ flag (e.referenceId ≠ a.id.str)
      ("accrual " ++ a.id.str ++ " ledger reference_id is " ++ e.referenceId)
    ++ flag (e.delta ≠ a.partnerShare.micros)
      ("accrual " ++ a.id.str ++ " partner_share " ++ moneyText a.partnerShare.micros
        ++ " != ledger delta " ++ moneyText e.delta)

/-- The entries of a kind that are not among those seen. -/
def orphans (s : PartnerDb) (type : LedgerReferenceType) (seen : List CreditLedgerEntry) :
    List CreditLedgerEntry :=
  s.rows.books.entries.rows.filter fun e => e.referenceType = type && e ∉ seen

/-- The accruals with their entries. -/
def accrualPairs (s : PartnerDb) : List (PartnerMarginAccrual × CreditLedgerEntry) :=
  s.accruals.rows.filterMap fun a => (s.entry? a.ledgerEntry).map fun e => (a, e)

/-- `_accrual_drift` -/
def accrualDrift (accruals marginOrphans : PartnerDb) : List String :=
  let pairs := accrualPairs accruals
  pairs.flatMap (fun r => accrualLines pk r.1 r.2)
    ++ (orphans marginOrphans .partnerMargin (pairs.map Prod.snd)).map fun e =>
      "partner_margin ledger " ++ pk e ++ " has no accrual"

/-- What a row of the grants is read with. -/
structure GrantRead where
  grant : PartnerCreditGrant
  channel : PartnerChannel
  debit : CreditLedgerEntry
  credit : CreditLedgerEntry
  creditAccount : AccountIdentity

/-- The rows a grant is joined with. -/
def grantRead? (s : PartnerDb) (g : PartnerCreditGrant) : Option GrantRead := do
  let channel ← s.rows.channel? g.partnerChannel
  let debit ← s.entry? g.debitEntry
  let credit ← s.entry? g.creditEntry
  let creditAccount ← s.account? credit.account
  return ⟨g, channel, debit, credit, creditAccount⟩

/-- The grants with their entries and the account of the credit. -/
def grantReads (s : PartnerDb) : List GrantRead := s.grants.rows.filterMap (grantRead? s)

/-- What is wrong with the account of the credit of a grant. -/
def creditAccountLines : List String :=
  if r.creditAccount.kind ≠ .personal then
    ["grant " ++ r.grant.id.str ++ " credit is not on a personal account"]
  else
    flag (r.creditAccount.user ≠ some r.grant.customer)
      ("grant " ++ r.grant.id.str ++ " credit account does not match the customer snapshot")

/-- What is wrong with a grant and its entries, by the account its channel settles on. -/
def grantLines (settlement : Except Exc Uuid) : List String :=
  let name := "grant " ++ r.grant.id.str
  (match settlement with
    | .error _ => [name ++ " settlement account is not valid"]
    | .ok _ => [])
    ++ flag (r.debit.referenceType ≠ .partnerGrantOut) (name ++ " debit is not partner_grant_out")
    ++ flag (r.credit.referenceType ≠ .partnerGrantIn) (name ++ " credit is not partner_grant_in")
    ++ (match settlement with
      | .error _ => []
      | .ok account =>
          flag (r.debit.account ≠ account) (name ++ " debit is not on the settlement account"))
    ++ creditAccountLines r
    ++ flag (r.debit.delta.natAbs ≠ r.grant.amount.micros || r.credit.delta ≠ r.grant.amount.micros)
      (name ++ " amount " ++ moneyText r.grant.amount.micros ++ " != debit "
        ++ moneyText r.debit.delta ++ " credit " ++ moneyText r.credit.delta)
    ++ flag (r.debit.referenceId ≠ r.grant.id.str || r.credit.referenceId ≠ r.grant.id.str)
      (name ++ " ledger reference_id does not match")

/-- `_orphan_ledgers` -/
def orphanLedgers (s : PartnerDb) (type : LedgerReferenceType) (seen : List CreditLedgerEntry)
    (label : String) : List String :=
  (orphans s type seen).map fun e =>
    "partner_grant_" ++ label ++ " ledger " ++ pk e ++ " has no grant"

/-- `_grant_drift` -/
def grantDrift (grants : PartnerDb) (settlement : PartnerCreditGrant → PartnerDb)
    (outOrphans inOrphans : PartnerDb) : List String :=
  let reads := grantReads grants
  reads.flatMap
    (fun r => grantLines r ((settlement r.grant).rows.settlementAccount r.channel.owner))
    ++ orphanLedgers pk outOrphans .partnerGrantOut (reads.map (·.debit)) "out"
    ++ orphanLedgers pk inOrphans .partnerGrantIn (reads.map (·.credit)) "in"

/-- `_invite_drift` -/
def inviteDrift (s : PartnerDb) : List String :=
  (s.rows.channels.rows.filter fun k => !s.rows.links.rows.any (·.partnerChannel = k.id)).map
    fun k =>
    "partner channel " ++ k.id.str ++ " has no invite link"

/-- `collect_partner_drift` -/
def collectPartnerDrift (r : DriftReads) : List String :=
  accrualDrift pk r.accruals r.marginOrphans
    ++ grantDrift pk r.grants r.settlement r.outOrphans r.inOrphans
    ++ inviteDrift r.channels

end Lines

/-! ### Integrity -/

structure PartnerIntegrityIssue where
  code : String
  channelId : Option String
  kind : Option String
  owner : Option String
  detail : String
deriving DecidableEq

/-- `PartnerChannel.Kind` -/
def kindValue : ChannelKind → String
  | .individual => "individual"
  | .team => "team"

/-- `_owner_label` -/
def ownerLabel : ChannelOwner → String
  | .individual user => "user:" ++ toString user
  | .team organization => "org:" ++ organization.str

/-- `_issue`, on a channel. -/
def issue (code : String) (channel : PartnerChannel) (detail : String) : PartnerIntegrityIssue where
  code
  channelId := some channel.id.str
  kind := some (kindValue channel.owner.kind)
  owner := some (ownerLabel channel.owner)
  detail

/-- The rows as each query of `collect_partner_integrity` sees them. -/
structure IntegrityReads where
  drift : DriftReads
  channels : PartnerDb
  /-- When the settlement account of a channel is resolved, and its balance read. -/
  resolved : PartnerChannel → PartnerDb
  /-- When the entries of that account are added up. -/
  summed : PartnerChannel → PartnerDb
  individuals : PartnerDb
  teams : PartnerDb
  grants : PartnerDb
  links : PartnerDb

/-- All queries at one moment. -/
def IntegrityReads.at (s : PartnerDb) : IntegrityReads :=
  ⟨.at s, s, fun _ => s, fun _ => s, s, s, s, s⟩

/-- The messages of `PartnerChannelOwnershipInvalid`; the others are of
`PartnerSettlementAccountMissing`. -/
def isOwnershipInvalid : Exc → Bool
  | .partnerSettlement message =>
    message = "Individual PartnerChannel ownership is not valid"
      || message = "Team PartnerChannel ownership is not valid"
  | _ => false

/-- `_channel_settlement`, on one channel. -/
def channelSettlementIssue (resolved summed : PartnerDb) (channel : PartnerChannel) :
    Except Exc (List PartnerIntegrityIssue) :=
  match resolved.rows.settlementAccount channel.owner with
  | .error e =>
    if isOwnershipInvalid e then .ok [issue "partner_channel_ownership_invalid" channel ""]
    else .ok [issue "settlement_account_missing" channel ""]
  | .ok account =>
    match resolved.rows.books.accounts.find? (·.id = account),
      summed.rows.books.ledgerSum account with
    | none, _ => .error (.doesNotExist "Account")
    | _, none => .error .invalidOperation
    | some row, some expected =>
      if row.balance ≠ expected then .ok [issue "settlement_balance_drift" channel ""] else .ok []

/-- `_channel_settlement` -/
def channelSettlement (channels : PartnerDb) (resolved summed : PartnerChannel → PartnerDb) :
    Except Exc (List PartnerIntegrityIssue) := do
  let ordered := channels.rows.channels.rows.insertionSort fun a b => a.id.str ≤ b.id.str
  return (← ordered.mapM fun k => channelSettlementIssue (resolved k) (summed k) k).flatten

/-- The attributions with their channels. -/
def attributionPairs (s : PartnerDb) : List (CustomerAttribution × PartnerChannel) :=
  s.rows.attributions.rows.filterMap fun a => (s.rows.channel? a.partnerChannel).map fun k => (a, k)

/-- `_attribution_conflicts` -/
def attributionConflicts (individuals teams : PartnerDb) : List PartnerIntegrityIssue :=
  ((attributionPairs individuals).filter fun r => r.2.owner = .individual r.1.user).map
      (fun r => issue "individual_self_attribution" r.2 "")
    ++ ((attributionPairs teams).filter fun r =>
        r.2.owner.organization.any fun o => teams.rows.activeMember o r.1.user).map
      fun r => issue "team_self_attribution" r.2 ("user:" ++ toString r.1.user)

/-- `_grant_shape`, on one grant. -/
def grantShapeIssues : Except Exc (List PartnerIntegrityIssue) :=
  match (Dec.ofUnits 6 r.grant.amount.micros).quantize 6 with
  | none => .error .invalidOperation
  | some amount =>
    .ok
      ((if r.debit.account = r.credit.account then
        [issue "grant_same_account" r.channel ""] else [])
      ++ if amount ≠ r.grant.amount.micros then
        [issue "grant_amount_precision" r.channel ""] else [])

/-- `_grant_shape` -/
def grantShape (s : PartnerDb) : Except Exc (List PartnerIntegrityIssue) := do
  return (← (grantReads s).mapM grantShapeIssues).flatten

/-- `partner_invite_token_is_usable` -/
def tokenIsUsable (token : String) : Bool := PyText.strip token ≠ ""

/-- `_invite_shape` -/
def inviteShape (s : PartnerDb) : List PartnerIntegrityIssue :=
  s.rows.links.rows.filterMap fun l =>
    if tokenIsUsable l.token then none
    else (s.rows.channel? l.partnerChannel).map fun k => issue "invite_token_missing" k ""

/-- `collect_partner_integrity` -/
def collectPartnerIntegrity (pk : CreditLedgerEntry → String) (r : IntegrityReads) :
    Except Exc (List PartnerIntegrityIssue) := do
  let drift :=
    (collectPartnerDrift pk r.drift).map fun line => ⟨"partner_drift", none, none, none, line⟩
  let settlement ← channelSettlement r.channels r.resolved r.summed
  let conflicts := attributionConflicts r.individuals r.teams
  let shape ← grantShape r.grants
  return drift ++ settlement ++ conflicts ++ shape ++ inviteShape r.links

end Roamkit.Partner
