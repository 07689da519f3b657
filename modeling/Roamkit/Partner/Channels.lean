import Roamkit.Partner.Calls

/-!
# Channels and invite links

The services that make a channel with its invite link and that edit both, and the
visit that a click records.
-/

namespace Roamkit.Partner

open Lib Billing Organizations

/-! ## Creating a channel -/

variable (s : ReferralDb)

/-- The checks before `_create_channel_and_link`. -/
def checkOwner : ChannelOwner → Except Exc Unit
  | .individual owner =>
    match s.accounts.find? (·.user = some owner) with
    | none => .error (.partnerInvite "Owner has no personal account")
    | some account =>
      if account.kind = .personal then .ok ()
      else .error (.partnerInvite "Owner settlement account is not a personal account")
  | .team organization =>
    match s.organization? organization with
    | none => .error (.doesNotExist "Organization")
    | some _ => .ok ()

/-- `_INVITE_TOKEN_ATTEMPTS` -/
def inviteTokenAttempts : Nat := 5

/-- The link `_create_channel_and_link` creates. -/
def firstLink (id channel : Uuid) (now : Time) (token : String) : PartnerInviteLink :=
  ⟨id, channel, token, 0, true, now, none⟩

/-- `persist_with_unique_invite_token`: the first of some tokens with which a write succeeds. -/
def withUniqueToken (write : String → Option (Table PartnerInviteLink)) (token : Nat → String) :
    Except Exc (Table PartnerInviteLink) :=
  match (List.range inviteTokenAttempts).findSome? fun n => write (token n) with
  | none => .error (.partnerInvite "Could not mint a unique invite token")
  | some links => .ok links

/-- One attempt of `_create_channel_and_link`; `none` is an `IntegrityError`, which it catches. -/
def createChannelAndLink (owner : ChannelOwner) (percent : Int) (v : ReferralView) :
    Option (Except Exc (ReferralDb × ReferralAnswer)) :=
  match SharePercent.of? percent with
  | none => none
  | some share =>
    let channel : PartnerChannel := ⟨v.uuid 0, owner, share, true⟩
    match s.channels.insert? channel with
    | none => none
    | some channels =>
      some <| (fun links => ({ s with channels, links }, .channel channel)) <$>
        withUniqueToken (fun token => s.links.insert? (firstLink (v.uuid 1) (v.uuid 0) v.now token))
          v.token

/-- The row a new channel refers to. -/
def ChannelOwner.lockedRow : ChannelOwner → LockedRow
  | individual user => .user user
  | team organization => .organization organization

def mintStep (t : ReferralThread) (owner : ChannelOwner) (percent : Int) (attempt : Nat)
    (v : ReferralView) : Option Stepped :=
  if attempt < inviteTokenAttempts then
    s.await t [owner.lockedRow]
      (match createChannelAndLink s owner percent v with
      | none => s.goto t (.minting (attempt + 1))
      | some r => s.settle t r)
  else some (s.raise t (.partnerInvite "Could not mint a unique invite token"))

/-! ## Editing -/

/-- A channel as `update_partner_channel_settings` saves it. -/
def resettled (isActive : Bool) (share : SharePercent) (c : PartnerChannel) : PartnerChannel :=
  { c with isActive, revenueSharePercent := share }

/-- `update_partner_channel_settings` -/
def updateSettings (id : Uuid) (isActive : Bool) (percent : Int) :
    Except Exc (ReferralDb × ReferralAnswer) :=
  match s.channel? id with
  | none => .error (.doesNotExist "PartnerChannel")
  | some locked =>
    match SharePercent.of? percent with
    | none => .error .integrity
    | some share =>
      .ok ({ s with
        channels := s.channels.update (·.id = id) (resettled isActive share) (fun _ _ h => h) },
        .channel (resettled isActive share locked))

/-- `regenerate_invite_link` -/
def regenerateInviteLink (channel : Uuid) (v : ReferralView) :
    Except Exc (ReferralDb × ReferralAnswer) :=
  match s.canonicalLink? channel with
  | none => .error (.doesNotExist "PartnerInviteLink")
  | some link => do
    let links ← withUniqueToken (fun token =>
      s.links.update? (·.id = link.id) fun l =>
        { l with token, regeneratedAt := some v.now }) v.token
    return ({ s with
      links
      pendings := s.pendings.remove fun p => p.partnerChannel = channel
        && p.inviteTokenSnapshot = link.token }, .nothing)

/-- `set_invite_active` -/
def setInviteActive (channel : Uuid) (active : Bool) :
    Except Exc (ReferralDb × ReferralAnswer) :=
  match s.canonicalLink? channel with
  | none => .error (.doesNotExist "PartnerInviteLink")
  | some link =>
    .ok ({ s with
      links :=
        s.links.update (·.id = link.id) (fun l => { l with isActive := active }) (fun _ _ h => h) },
      .nothing)

/-- `record_visit` -/
def recordVisit (c : ReferralSettings) (s : ReferralDb) (token : String) (v : ReferralView) :
    Except Exc (ReferralDb × ReferralAnswer) :=
  if PyText.strip token = "" ∨ ¬ c.partnerChannelEnabled then .ok (s, .nothing)
  else
    match s.links.find? (·.token = token) with
    | none => .ok (s, .nothing)
    | some link =>
      if ¬ link.isActive then .ok (s, .nothing)
      else
        let visit : InviteVisit := ⟨v.uuid 0, link.id, v.now⟩
        match s.visits.insert? visit with
        | none => .error .integrity
        | some visits => .ok ({ s with visits }, .visit visit)

/-- The row of the canonical link. -/
def canonicalRow (channel : Uuid) : List LockedRow :=
  ((s.canonicalLink? channel).map fun l => .link l.id).toList

/-- The row of the link a token is of. -/
def tokenRow (token : String) : List LockedRow :=
  ((s.links.find? (·.token = token)).map fun l => .link l.id).toList

/-- The first step of a call about channels and links. -/
def beginChannel (c : ReferralSettings) (s : ReferralDb) (t : ReferralThread) (v : ReferralView) :
    ChannelCall → Option Stepped
  | .createIndividual owner _ =>
    match checkOwner s (.individual owner) with
    | .error e => some (s.raise t e)
    | .ok _ => some (s.goto t (.minting 0))
  | .createTeam organization _ =>
    match checkOwner s (.team organization) with
    | .error e => some (s.raise t e)
    | .ok _ => some (s.goto t (.minting 0))
  | .updateSettings channel isActive percent =>
    s.await t [.channel channel] (s.settle t (updateSettings s channel isActive percent))
  | .recordVisit token => s.await t (tokenRow s token) (s.settle t (recordVisit c s token v))
  | .regenerateLink channel =>
    s.await t (canonicalRow s channel) (s.settle t (regenerateInviteLink s channel v))
  | .setInviteActive channel active =>
    s.await t (canonicalRow s channel) (s.settle t (setInviteActive s channel active))

/-- The channel a call creates. -/
def ChannelCall.creates? : ChannelCall → Option (ChannelOwner × Int)
  | createIndividual owner percent => some (.individual owner, percent)
  | createTeam organization percent => some (.team organization, percent)
  | _ => none

end Roamkit.Partner
