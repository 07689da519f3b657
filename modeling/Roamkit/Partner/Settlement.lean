import Roamkit.Partner.Rows

/-!
# Settlement accounts

The account a channel settles on: the personal account of its owner, or the account of
its organization. Nothing is created here, and the two are never exchanged.

`marginView` is what `PartnerMarginService.accrue` reads of the customer it is called
for, under the locks `accrualRows`.
-/

namespace Roamkit.Partner

open Lib Billing Organizations

variable (s : ReferralDb)

namespace ReferralDb

/-- `_is_owner_personal_account` -/
def isOwnerPersonalAccount (a : AccountIdentity) (owner : UserId) : Bool :=
  a.kind = .personal && a.user = some owner && (s.organizations.find? (·.account = a.id)).isNone

/-- `_is_organization_account`; the account is the one the organization points at. -/
def isOrganizationAccount (a : AccountIdentity) (o : Organization) : Bool :=
  a.kind = .organization && a.user.isNone
    && (s.organizations.find? (·.account = a.id)).any fun linked => linked.id = o.id

/-- `_personal_settlement_account` -/
def personalSettlementAccount (owner : UserId) : Except Exc Uuid :=
  match s.accounts.find? (·.user = some owner) with
  | none =>
      .error (.partnerSettlement "Individual PartnerChannel has no personal settlement Account")
  | some a =>
    if s.isOwnerPersonalAccount a owner then .ok a.id
    else
      .error
        (.partnerSettlement "Individual settlement Account does not belong to the channel owner")

/-- `_organization_settlement_account` -/
def organizationSettlementAccount (organization : Uuid) : Except Exc Uuid :=
  match s.organization? organization with
  | none => .error (.partnerSettlement "Team PartnerChannel ownership is not valid")
  | some o =>
    match s.accounts.find? (·.id = o.account) with
    | none =>
        .error (.partnerSettlement "Team PartnerChannel has no organization settlement Account")
    | some a =>
      if s.isOrganizationAccount a o then .ok a.id
      else
        .error (.partnerSettlement
          "Team settlement Account does not belong to the channel organization")

/-- `resolve_partner_settlement_account` -/
def settlementAccount (owner : ChannelOwner) : Except Exc Uuid :=
  match owner with
  | .individual owner => s.personalSettlementAccount owner
  | .team organization => s.organizationSettlementAccount organization

/-! ## What an accrual reads -/

/-- A channel as `accrue` reads it for a customer. -/
def channelView (customer : UserId) (channel : PartnerChannel) : ChannelView where
  id := channel.id
  kind := channel.owner.kind
  ownerUser := channel.owner.ownerUser
  organization := channel.owner.organization
  isActive := channel.isActive
  revenueSharePercent := channel.revenueSharePercent.hundredths
  activeMember := channel.owner.organization.any fun o => s.activeMember o customer
  settlement := s.settlementAccount channel.owner

/-- The attribution of a customer, and its channel. -/
def marginView (customer : UserId) : Option ChannelView :=
  match s.attribution? customer with
  | none => none
  | some a => (s.channel? a.partnerChannel).map (s.channelView customer)

/-- The rows `accrue` locks. -/
def accrualRows (customer : UserId) : List LockedRow :=
  match s.attribution? customer with
  | none => []
  | some a => [.attribution customer, .channel a.partnerChannel]

end ReferralDb

end Roamkit.Partner
