import Mathlib.Data.List.Sort
import Roamkit.Organizations.Rows

/-!
# Partner channels and customers

A channel is owned by one user or by one organization, never by both and never by
none. A customer has at most one current attribution. `ReferralDb` is these tables
and those of the organizations, with the row locks that transactions in flight hold.
-/

namespace Roamkit.Partner

open Lib Billing Organizations

/-- `kind`, `owner_user` and `organization`, as the check constraint ties them. -/
inductive ChannelOwner where
  | individual (user : UserId)
  | team (organization : Uuid)
deriving DecidableEq

namespace ChannelOwner

def kind : ChannelOwner → ChannelKind
  | individual _ => .individual
  | team _ => .team

def ownerUser : ChannelOwner → Option UserId
  | individual user => some user
  | team _ => none

def organization : ChannelOwner → Option Uuid
  | individual _ => none
  | team organization => some organization

end ChannelOwner

/-- A percentage between 0 and 100, in hundredths. -/
structure SharePercent where
  hundredths : Int
  nonneg : 0 ≤ hundredths
  le : hundredths ≤ 10000
deriving DecidableEq

/-- The share a number of hundredths is; `none` where it violates the check constraint. -/
def SharePercent.of? (n : Int) : Option SharePercent :=
  if h : 0 ≤ n ∧ n ≤ 10000 then some ⟨n, h.1, h.2⟩ else none

structure PartnerChannel where
  id : Uuid
  owner : ChannelOwner
  revenueSharePercent : SharePercent
  isActive : Bool
deriving DecidableEq

instance : Constraint PartnerChannel where
  clash a b := a.id = b.id ∨ a.owner = b.owner
  symm h := h.imp Eq.symm Eq.symm
  decClash _ _ := inferInstance

structure PartnerInviteLink where
  id : Uuid
  partnerChannel : Uuid
  token : String
  /-- In millionths. -/
  bonusAmount : Nat
  isActive : Bool
  createdAt : Time
  regeneratedAt : Option Time
deriving DecidableEq

instance : Constraint PartnerInviteLink where
  clash a b := a.id = b.id ∨ a.token = b.token
  symm h := h.imp Eq.symm Eq.symm
  decClash _ _ := inferInstance

structure InviteVisit where
  id : Uuid
  inviteLink : Uuid
  createdAt : Time
deriving DecidableEq

instance : Constraint InviteVisit where
  clash a b := a.id = b.id
  symm := Eq.symm
  decClash _ _ := inferInstance

structure PendingPartnerAttribution where
  id : Uuid
  user : UserId
  partnerChannel : Uuid
  inviteTokenSnapshot : String
  /-- `none` in rows older than the column. -/
  inviteVisit : Option Uuid
  expiresAt : Time
deriving DecidableEq

instance : Constraint PendingPartnerAttribution where
  clash a b := a.id = b.id ∨ a.user = b.user
  symm h := h.imp Eq.symm Eq.symm
  decClash _ _ := inferInstance

inductive AttributionSource where
  | inviteLink
  | admin
deriving DecidableEq

structure CustomerAttribution where
  id : Uuid
  user : UserId
  partnerChannel : Uuid
  source : AttributionSource
  inviteLink : Option Uuid
  inviteVisit : Option Uuid
  inviteToken : Option String
  registeredViaInvite : Bool
  bonusAmountSnapshot : Option Nat
  attributedAt : Time
deriving DecidableEq

instance : Constraint CustomerAttribution where
  clash a b := a.id = b.id ∨ a.user = b.user
  symm h := h.imp Eq.symm Eq.symm
  decClash _ _ := inferInstance

/-! ## The database -/

/-- A row a transaction may hold. -/
inductive LockedRow where
  | user (id : UserId)
  | organization (id : Uuid)
  | channel (id : Uuid)
  | membership (id : Uuid)
  | invite (id : Uuid)
  | link (id : Uuid)
  | pending (id : Uuid)
  | attribution (user : UserId)
deriving DecidableEq

inductive AccountKind where
  | personal
  | organization
deriving DecidableEq

/-- The columns of `Account` that say whose it is. -/
structure AccountIdentity where
  id : Uuid
  user : Option UserId
  kind : AccountKind
deriving DecidableEq

instance : Constraint AccountIdentity where
  clash a b := a.id = b.id ∨ (a.user.isSome = true ∧ a.user = b.user)
  symm := by
    intro a b h
    rcases h with h | ⟨h, h'⟩
    · exact .inl h.symm
    · exact .inr ⟨h' ▸ h, h'.symm⟩
  decClash _ _ := inferInstance

structure ReferralDb where
  books : Books
  accounts : Table AccountIdentity
  people : Table Person
  organizations : Table Organization
  memberships : Table Membership
  invites : Table OrganizationInvite
  channels : Table PartnerChannel
  links : Table PartnerInviteLink
  visits : Table InviteVisit
  pendings : Table PendingPartnerAttribution
  attributions : Table CustomerAttribution
  /-- The rows that transactions in flight hold. -/
  locks : List LockedRow

variable (s : ReferralDb)

namespace ReferralDb

/-! ### Look-ups -/

def organization? (id : Uuid) : Option Organization :=
  s.organizations.find? (·.id = id)

/-- `Membership.objects.filter(organization=…, user=…).first()` -/
def membership? (organization : Uuid) (user : UserId) : Option Membership :=
  s.memberships.find? fun m => m.organization = organization && m.user = user

/-- `filter(organization_id=…, user_id=…, status=ACTIVE).exists()` -/
def activeMember (organization : Uuid) (user : UserId) : Bool :=
  s.memberships.rows.any fun m => m.organization = organization && m.user = user && m.isActive

/-- `_active_owner_count` -/
def activeOwnerCount (organization : Uuid) : Nat :=
  s.memberships.rows.countP fun m => m.organization = organization && m.isActiveOwner

/-- The team channel of an organization. -/
def teamChannel? (organization : Uuid) : Option PartnerChannel :=
  s.channels.find? (·.owner = .team organization)

def channel? (id : Uuid) : Option PartnerChannel := s.channels.find? (·.id = id)

/-- `CustomerAttribution.objects.filter(user_id=…).first()` -/
def attribution? (user : UserId) : Option CustomerAttribution :=
  s.attributions.find? (·.user = user)

/-- `PendingPartnerAttribution.objects.filter(user_id=…).first()` -/
def pending? (user : UserId) : Option PendingPartnerAttribution :=
  s.pendings.find? (·.user = user)

/-- `order_by("created_at", "id")` -/
def linkBefore (a b : PartnerInviteLink) : Bool :=
  a.createdAt < b.createdAt || (a.createdAt = b.createdAt && a.id.str ≤ b.id.str)

/-- `canonical_invite_link` -/
def canonicalLink? (channel : Uuid) : Option PartnerInviteLink :=
  ((s.links.rows.filter (·.partnerChannel = channel)).insertionSort (linkBefore · ·)).head?

/-! ### The guards of self-referral -/

/-- Whether a user may not be a customer of a channel: the two checks of
`ensure_current_attribution_allowed`. -/
def refersToSelf (user : UserId) (channel : PartnerChannel) : Option Exc :=
  match channel.owner with
  | .individual owner =>
    if owner = user then
      some (.partnerSelfReferral "The channel owner cannot be attributed to that channel")
    else none
  | .team organization =>
    if s.activeMember organization user then
      some (.partnerSelfReferral
        "An active organization member cannot be attributed to its partner channel")
    else none

/-- Whether a user is attributed to a channel: the check of `ensure_active_membership_allowed`. -/
def isAttributed (user : UserId) (channel : Uuid) : Bool :=
  s.attributions.rows.any fun a => a.user = user && a.partnerChannel = channel

end ReferralDb

end Roamkit.Partner
