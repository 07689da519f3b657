import Roamkit.Partner.Rows

/-!
# The channels a user may access

Listing and resolving load the authorization separately, each by its own queries.
Neither looks at whether the channel is active or at the status of the organization.
-/

namespace Roamkit.Partner

open Lib Billing Organizations

/-- What is shown of owners and how the database orders names. -/
structure ContextText where
  /-- `User.display_label` -/
  displayLabel : UserId → String
  /-- The collation of `Organization.name`: whether a name may stand before another. -/
  collation : String → String → Bool

/-- `PartnerContext` -/
structure PartnerContext where
  channel : PartnerChannel
  channelId : Uuid
  kind : ChannelKind
  label : String
  effectiveRole : MembershipRole
deriving DecidableEq

/-- `_PLANS_ROLES` -/
def plansRoles : List MembershipRole := [.owner, .admin]

/-- `_SUMMARY_ROLES` -/
def summaryRoles : List MembershipRole := [.owner, .admin, .viewer]

/-- `_CUSTOMERS_ROLES` -/
def customersRoles : List MembershipRole := [.owner, .admin, .viewer, .member]

/-- `_ACCESS_DENIED` -/
def accessDenied : String := "No partner channel is available for this user"

variable (s : ReferralDb)

namespace ReferralDb

/-- `Membership.objects.filter(organization_id=…, user_id=…, status=ACTIVE, role__in=…)` -/
def membershipWith? (organization : Uuid) (user : UserId)
    (roles : List MembershipRole) : Option Membership :=
  s.memberships.find? fun m =>
    m.organization = organization && m.user = user && m.isActive && roles.contains m.role

/-- `organization.name`; the foreign key has its row. -/
def organizationName (organization : Uuid) : String :=
  match s.organization? organization with
  | some o => o.name
  | none => ""

/-- `_partner_context` -/
def partnerContext (x : ContextText) (channel : PartnerChannel)
    (role : MembershipRole) : PartnerContext where
  channel := channel
  channelId := channel.id
  kind := channel.owner.kind
  label :=
    match channel.owner with
    | .individual user => x.displayLabel user
    | .team organization => s.organizationName organization
  effectiveRole := role

/-! ### Resolving -/

/-- `_individual_owner_matches` -/
def individualOwnerMatches (channel : PartnerChannel) (user : UserId) : Bool :=
  channel.owner.kind = .individual && channel.owner.ownerUser = some user
    && channel.owner.organization = none

/-- `_active_membership_role` -/
def activeMembershipRole (user : UserId) (channel : PartnerChannel) (roles : List MembershipRole) :
    Option MembershipRole :=
  if channel.owner.kind ≠ .team ∨ channel.owner.ownerUser ≠ none then none
  else
    match channel.owner.organization with
    | none => none
    | some organization => (s.membershipWith? organization user roles).map (·.role)

/-- `_resolve_authorized_context` -/
def resolveAuthorizedContext (x : ContextText) (user : UserId) (channelId : Uuid)
    (roles : List MembershipRole) : Except Exc PartnerContext :=
  match s.channel? channelId with
  | none => .error (.partnerAccessDenied accessDenied)
  | some channel =>
    match channel.owner.kind with
    | .individual =>
      if individualOwnerMatches channel user then .ok (s.partnerContext x channel .owner)
      else .error (.partnerAccessDenied accessDenied)
    | .team =>
      match s.activeMembershipRole user channel roles with
      | none => .error (.partnerAccessDenied accessDenied)
      | some role => .ok (s.partnerContext x channel role)

def resolveAuthorizedPlansContext (x : ContextText) (user : UserId) (channelId : Uuid) :
    Except Exc PartnerContext :=
  s.resolveAuthorizedContext x user channelId plansRoles

def resolveAuthorizedCustomersContext (x : ContextText) (user : UserId) (channelId : Uuid) :
    Except Exc PartnerContext :=
  s.resolveAuthorizedContext x user channelId customersRoles

def resolveAuthorizedPartnerContext (x : ContextText) (user : UserId) (channelId : Uuid) :
    Except Exc PartnerContext :=
  s.resolveAuthorizedContext x user channelId summaryRoles

/-! ### Listing -/

/-- The subquery of `_team_contexts`: a membership of the user in the channel's organization. -/
def authorizedMembership? (user : UserId) (channel : PartnerChannel) :
    Option Membership :=
  match channel.owner.organization with
  | none => none
  | some organization => s.membershipWith? organization user customersRoles

/-- The query of `_team_contexts`, before its order. -/
def teamChannels (user : UserId) : List PartnerChannel :=
  s.channels.rows.filter fun channel =>
    channel.owner.kind = .team && (s.authorizedMembership? user channel).isSome

/-- `order_by("organization__name", "id")` -/
def channelBefore (x : ContextText) (a b : PartnerChannel) : Bool :=
  let name := fun channel : PartnerChannel => channel.owner.organization.elim "" s.organizationName
  if name a = name b then a.id.str ≤ b.id.str else x.collation (name a) (name b)

/-- What the loop of `_team_contexts` appends for a channel. -/
def teamContext? (x : ContextText) (user : UserId) (channel : PartnerChannel) :
    Option PartnerContext :=
  match (s.authorizedMembership? user channel).map (·.role) with
  | none => none
  | some role =>
    if role ∉ customersRoles ∨ channel.owner.ownerUser ≠ none then none
    else some (s.partnerContext x channel role)

/-- `_team_contexts` -/
def teamContexts (x : ContextText) (user : UserId) : List PartnerContext :=
  ((s.teamChannels user).insertionSort (s.channelBefore x · ·)).filterMap (s.teamContext? x user)

/-- The channel the user owns: the first query of the list. -/
def individualChannel? (user : UserId) : Option PartnerChannel :=
  s.channels.find? (·.owner = .individual user)

/-- `list_authorized_partner_contexts` -/
def listAuthorizedPartnerContexts (x : ContextText) (user : UserId) :
    List PartnerContext :=
  let own :=
    match s.individualChannel? user with
    | none => []
    | some channel =>
      if individualOwnerMatches channel user then [s.partnerContext x channel .owner] else []
  own ++ s.teamContexts x user

end ReferralDb

end Roamkit.Partner
