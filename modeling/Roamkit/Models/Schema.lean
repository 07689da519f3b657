import Roamkit.Exceptions
import Roamkit.Lib.Cascade
import Roamkit.Lib.Table

/-!
# The models and their foreign keys

Which model refers to which, what its `on_delete` does when the row it refers to
goes, and which models refuse to have their rows deleted, one at a time or by
query set. Deletion reads nothing else of a model, so a row is its model and its
columns, and the columns that nothing here names are left open.
-/

namespace Roamkit.Models

open Lib

inductive Model where
  | user
  | signupCode
  | account
  | depositRequest
  | creditLedgerEntry
  | subscription
  | voucherCampaign
  | voucherBatch
  | voucher
  | voucherRedemption
  | voucherExportAudit
  | partnerChannel
  | partnerInviteLink
  | inviteVisit
  | customerAttribution
  | pendingPartnerAttribution
  | customerAttributionHistory
  | partnerMarginAccrual
  | partnerCreditGrant
  | subscriptionRenewalCycle
  | location
  | package
  | esim
  | esimLifecycleEvent
  | topup
  | esimAppliedPackage
  | esimAutoTopupPolicy
  | order
  | organization
  | membership
  | organizationInvite
  | deviceBinding
  | deviceBindingEvent
  | organizationFleetCredential
  | fleetCredentialEvent
  | pricingProfile
  | pricingProfileAudit
  | walletIdentity
  | walletAddress
  | depositObservation
  | shadowDecision
deriving DecidableEq

/-- `Model.__name__` -/
def Model.name : Model → String
  | .user => "User"
  | .signupCode => "SignupCode"
  | .account => "Account"
  | .depositRequest => "DepositRequest"
  | .creditLedgerEntry => "CreditLedgerEntry"
  | .subscription => "Subscription"
  | .voucherCampaign => "VoucherCampaign"
  | .voucherBatch => "VoucherBatch"
  | .voucher => "Voucher"
  | .voucherRedemption => "VoucherRedemption"
  | .voucherExportAudit => "VoucherExportAudit"
  | .partnerChannel => "PartnerChannel"
  | .partnerInviteLink => "PartnerInviteLink"
  | .inviteVisit => "InviteVisit"
  | .customerAttribution => "CustomerAttribution"
  | .pendingPartnerAttribution => "PendingPartnerAttribution"
  | .customerAttributionHistory => "CustomerAttributionHistory"
  | .partnerMarginAccrual => "PartnerMarginAccrual"
  | .partnerCreditGrant => "PartnerCreditGrant"
  | .subscriptionRenewalCycle => "SubscriptionRenewalCycle"
  | .location => "Location"
  | .package => "Package"
  | .esim => "Esim"
  | .esimLifecycleEvent => "EsimLifecycleEvent"
  | .topup => "Topup"
  | .esimAppliedPackage => "EsimAppliedPackage"
  | .esimAutoTopupPolicy => "EsimAutoTopupPolicy"
  | .order => "Order"
  | .organization => "Organization"
  | .membership => "Membership"
  | .organizationInvite => "OrganizationInvite"
  | .deviceBinding => "DeviceBinding"
  | .deviceBindingEvent => "DeviceBindingEvent"
  | .organizationFleetCredential => "OrganizationFleetCredential"
  | .fleetCredentialEvent => "FleetCredentialEvent"
  | .pricingProfile => "PricingProfile"
  | .pricingProfileAudit => "PricingProfileAudit"
  | .walletIdentity => "WalletIdentity"
  | .walletAddress => "WalletAddress"
  | .depositObservation => "DepositObservation"
  | .shadowDecision => "ShadowDecision"

/-- `on_delete` -/
inductive OnDelete where
  | cascade
  | protect
  | setNull
deriving DecidableEq

/-- A `ForeignKey` or a `OneToOneField`. -/
structure ForeignKey where
  model : Model
  field : String
  target : Model
  onDelete : OnDelete
deriving DecidableEq

/-- `ForeignKey.attname`: the name of the column. -/
def ForeignKey.attname (fk : ForeignKey) : String := fk.field ++ "_id"

def foreignKeys : List ForeignKey :=
  [
    ⟨.signupCode, "user", .user, .cascade⟩,
    ⟨.account, "user", .user, .cascade⟩,
    ⟨.account, "pricing_profile", .pricingProfile, .setNull⟩,
    ⟨.depositRequest, "account", .account, .cascade⟩,
    ⟨.creditLedgerEntry, "account", .account, .cascade⟩,
    ⟨.subscription, "account", .account, .cascade⟩,
    ⟨.subscription, "esim", .esim, .cascade⟩,
    ⟨.voucherBatch, "campaign", .voucherCampaign, .protect⟩,
    ⟨.voucher, "campaign", .voucherCampaign, .protect⟩,
    ⟨.voucher, "batch", .voucherBatch, .protect⟩,
    ⟨.voucherRedemption, "account", .account, .cascade⟩,
    ⟨.voucherRedemption, "voucher", .voucher, .protect⟩,
    ⟨.voucherRedemption, "campaign", .voucherCampaign, .protect⟩,
    ⟨.voucherExportAudit, "batch", .voucherBatch, .protect⟩,
    ⟨.partnerChannel, "owner_user", .user, .protect⟩,
    ⟨.partnerChannel, "organization", .organization, .protect⟩,
    ⟨.partnerInviteLink, "partner_channel", .partnerChannel, .protect⟩,
    ⟨.inviteVisit, "invite_link", .partnerInviteLink, .protect⟩,
    ⟨.customerAttribution, "user", .user, .protect⟩,
    ⟨.customerAttribution, "partner_channel", .partnerChannel, .protect⟩,
    ⟨.customerAttribution, "invite_link", .partnerInviteLink, .protect⟩,
    ⟨.customerAttribution, "invite_visit", .inviteVisit, .protect⟩,
    ⟨.pendingPartnerAttribution, "user", .user, .cascade⟩,
    ⟨.pendingPartnerAttribution, "partner_channel", .partnerChannel, .protect⟩,
    ⟨.pendingPartnerAttribution, "invite_visit", .inviteVisit, .protect⟩,
    ⟨.customerAttributionHistory, "user", .user, .protect⟩,
    ⟨.customerAttributionHistory, "from_partner_channel", .partnerChannel, .protect⟩,
    ⟨.customerAttributionHistory, "to_partner_channel", .partnerChannel, .protect⟩,
    ⟨.customerAttributionHistory, "changed_by", .user, .setNull⟩,
    ⟨.partnerMarginAccrual, "partner_channel", .partnerChannel, .protect⟩,
    ⟨.partnerMarginAccrual, "customer_user", .user, .setNull⟩,
    ⟨.partnerMarginAccrual, "customer_attribution", .customerAttribution, .protect⟩,
    ⟨.partnerMarginAccrual, "ledger_entry", .creditLedgerEntry, .protect⟩,
    ⟨.partnerCreditGrant, "partner_channel", .partnerChannel, .protect⟩,
    ⟨.partnerCreditGrant, "customer_user", .user, .setNull⟩,
    ⟨.partnerCreditGrant, "customer_attribution", .customerAttribution, .protect⟩,
    ⟨.partnerCreditGrant, "granted_by", .user, .setNull⟩,
    ⟨.partnerCreditGrant, "debit_ledger_entry", .creditLedgerEntry, .protect⟩,
    ⟨.partnerCreditGrant, "credit_ledger_entry", .creditLedgerEntry, .protect⟩,
    ⟨.subscriptionRenewalCycle, "subscription", .subscription, .protect⟩,
    ⟨.package, "location", .location, .setNull⟩,
    ⟨.esim, "account", .account, .cascade⟩,
    ⟨.esim, "user", .user, .cascade⟩,
    ⟨.esim, "assigned_user", .user, .setNull⟩,
    ⟨.esim, "order", .order, .cascade⟩,
    ⟨.esimLifecycleEvent, "esim", .esim, .cascade⟩,
    ⟨.esimLifecycleEvent, "user", .user, .cascade⟩,
    ⟨.topup, "account", .account, .cascade⟩,
    ⟨.topup, "esim", .esim, .cascade⟩,
    ⟨.esimAppliedPackage, "esim", .esim, .cascade⟩,
    ⟨.esimAppliedPackage, "topup", .topup, .cascade⟩,
    ⟨.esimAutoTopupPolicy, "account", .account, .cascade⟩,
    ⟨.esimAutoTopupPolicy, "esim", .esim, .cascade⟩,
    ⟨.esimAutoTopupPolicy, "last_topup", .topup, .setNull⟩,
    ⟨.order, "account", .account, .cascade⟩,
    ⟨.order, "package", .package, .protect⟩,
    ⟨.organization, "account", .account, .protect⟩,
    ⟨.membership, "organization", .organization, .cascade⟩,
    ⟨.membership, "user", .user, .cascade⟩,
    ⟨.organizationInvite, "organization", .organization, .cascade⟩,
    ⟨.organizationInvite, "invited_by", .user, .cascade⟩,
    ⟨.organizationInvite, "accepted_by", .user, .setNull⟩,
    ⟨.deviceBinding, "organization", .organization, .cascade⟩,
    ⟨.deviceBinding, "esim", .esim, .protect⟩,
    ⟨.deviceBinding, "bound_by", .user, .setNull⟩,
    ⟨.deviceBinding, "unbound_by", .user, .setNull⟩,
    ⟨.deviceBinding, "replaced_by", .deviceBinding, .setNull⟩,
    ⟨.deviceBindingEvent, "organization", .organization, .cascade⟩,
    ⟨.deviceBindingEvent, "binding", .deviceBinding, .cascade⟩,
    ⟨.deviceBindingEvent, "esim", .esim, .protect⟩,
    ⟨.deviceBindingEvent, "actor", .user, .setNull⟩,
    ⟨.deviceBindingEvent, "previous_binding", .deviceBinding, .setNull⟩,
    ⟨.organizationFleetCredential, "organization", .organization, .cascade⟩,
    ⟨.fleetCredentialEvent, "organization", .organization, .cascade⟩,
    ⟨.fleetCredentialEvent, "fleet_credential", .organizationFleetCredential, .cascade⟩,
    ⟨.fleetCredentialEvent, "actor", .user, .setNull⟩,
    ⟨.pricingProfileAudit, "profile", .pricingProfile, .cascade⟩,
    ⟨.pricingProfileAudit, "actor", .user, .setNull⟩,
    ⟨.walletIdentity, "account", .account, .cascade⟩,
    ⟨.walletAddress, "wallet_identity", .walletIdentity, .cascade⟩,
    ⟨.depositObservation, "wallet_address", .walletAddress, .protect⟩,
    ⟨.shadowDecision, "deposit_request", .depositRequest, .cascade⟩,
    ⟨.shadowDecision, "observation", .depositObservation, .setNull⟩
  ]

/-! ## Rows -/

/-- What a column holds; a decimal in units of its last place. -/
inductive Value where
  | null
  | key (pk : Nat)
  | number (n : Int)
  | text (s : String)
deriving DecidableEq

/-- A row as the foreign keys name it. -/
structure Key where
  model : Model
  pk : Value
deriving DecidableEq

/-- A row: the value of each column, by attribute name. -/
structure Row where
  model : Model
  values : String → Value

/-- Every primary key is the column `id`. -/
def Row.key (r : Row) : Key := ⟨r.model, r.values "id"⟩

@[simp] theorem Row.key_model (r : Row) : r.key.model = r.model := rfl

/-- The primary key. The other constraints are left to the database. -/
instance : Constraint Row where
  clash r r' := r.key = r'.key
  symm h := h.symm
  decClash r r' := inferInstanceAs (Decidable (r.key = r'.key))

theorem clash_iff {r r' : Row} : Constraint.clash r r' ↔ r.key = r'.key := Iff.rfl

/-- A row refers to another by a foreign key. -/
def ForeignKey.refers (fk : ForeignKey) (r : Row) (k : Key) : Bool :=
  fk.model == r.model && fk.target == k.model && k.pk != .null && r.values fk.attname == k.pk

/-- A row refers to another by some foreign key that does this when the other goes. -/
def refers (o : OnDelete) (r : Row) (k : Key) : Bool :=
  foreignKeys.any fun fk => fk.onDelete == o && fk.refers r k

/-! ## Which rows may be deleted -/

/-- What `instance.delete()` of a model raises, where it deletes nothing. -/
def deleteRefusal (m : Model) : Option Exc :=
  match m with
  | .creditLedgerEntry =>
    some (.appendOnlyViolation "CreditLedgerEntry is append-only; deletes are forbidden")
  | .partnerChannel =>
    some (.appendOnlyViolation "PartnerChannel must not be hard-deleted; set is_active=False")
  | .partnerInviteLink | .inviteVisit | .customerAttributionHistory | .partnerMarginAccrual
  | .partnerCreditGrant | .subscriptionRenewalCycle =>
    some (.appendOnlyViolation (m.name ++ " must not be hard-deleted"))
  | .voucherCampaign | .voucherBatch | .voucher =>
    some (.softDeleteViolation (m.name ++ " must not be hard-deleted; use status transitions"))
  | .voucherRedemption | .voucherExportAudit =>
    some (.softDeleteViolation (m.name ++ " must not be hard-deleted"))
  | .organization | .membership | .organizationInvite | .deviceBinding =>
    some (.hardDeleteViolation (m.name ++ " must not be hard-deleted; use status transitions"))
  | .deviceBindingEvent | .organizationFleetCredential | .fleetCredentialEvent =>
    some (.hardDeleteViolation (m.name ++ " must not be hard-deleted"))
  | _ => none

/-- What `delete()` of a model's query sets raises, where it deletes nothing. -/
def queryDeleteRefusal (m : Model) : Option Exc :=
  match m with
  -- `RefuseDeleteQuerySet`
  | .partnerChannel | .partnerInviteLink | .inviteVisit | .customerAttributionHistory
  | .partnerMarginAccrual | .partnerCreditGrant | .subscriptionRenewalCycle =>
    some (.appendOnlyViolation (m.name ++ " must not be hard-deleted"))
  -- `SoftDeleteQuerySet`
  | .voucherCampaign | .voucherBatch | .voucher | .voucherRedemption | .voucherExportAudit =>
    some (.softDeleteViolation (m.name ++ " must not be hard-deleted; use status transitions"))
  -- `SoftLifecycleQuerySet`
  | .organization | .membership | .organizationInvite | .deviceBinding
  | .organizationFleetCredential =>
    some (.hardDeleteViolation (m.name ++ " must not be hard-deleted; use status transitions"))
  | _ => none

end Roamkit.Models
