import Roamkit.Partner.Attribution

/-!
# Invites inside another transaction

The calls of `services/partner_attribution.py` that a login makes, each as one function:
the login holds the row of the user, and what the call does is part of its transaction.
A visit is what the cookie carries when its signature holds.
-/

namespace Roamkit.Partner

open Lib Billing Organizations

variable (s : ReferralDb) (c : ReferralSettings)

/-- `_lock_visit` -/
def lockVisit (id : Uuid) (checkWindow : Bool) (now : Time) :
    Option (InviteVisit × PartnerInviteLink) :=
  match visitLink? s id with
  | none => none
  | some (visit, link) =>
      if validInviteVisit visit link checkWindow now then some (visit, link) else none

/-- `ensure_current_attribution_allowed` and the insert; `blocked` is the end of a refused one. -/
def insertIfAllowed (a : NewAttribution) (pending : Option Uuid) (v : ReferralView)
    (blocked : Exc → Except Exc (ReferralDb × ReferralAnswer)) :
    Except Exc (ReferralDb × ReferralAnswer) :=
  match s.channel? a.partnerChannel with
  | none => .error (.doesNotExist "PartnerChannel")
  | some channel =>
    match s.refersToSelf a.user channel with
    | some e => blocked e
    | none => insertAttribution s a pending v

/-- `apply_pending_on_activation`; a self-referral conflict leaves the pending row in place. -/
def applyPendingOnActivation (s : ReferralDb) (user : UserId) (v : ReferralView) :
    Except Exc (ReferralDb × ReferralAnswer) :=
  match s.pending? user with
  | none => .ok (s, .nothing)
  | some p =>
    if p.expiresAt ≤ v.now then .ok (dropPending s p.id, .nothing)
    else if (s.attribution? user).isSome then .ok (dropPending s p.id, .nothing)
    else if ¬ c.partnerChannelEnabled then .ok (s, .nothing)
    else
      match p.inviteVisit with
      | some id =>
        match lockVisit s id false v.now with
        | none => .ok (dropPending s p.id, .nothing)
        | some (visit, link) =>
          insertIfAllowed s (visitAttribution user visit link true) (some p.id) v fun _ =>
            .ok (s, .nothing)
      | none =>
        match currentLink? s p with
        | none => .ok (dropPending s p.id, .nothing)
        | some link =>
          insertIfAllowed s (legacyAttribution user p link) (some p.id) v fun _ => .ok (s, .nothing)

/-- `attribute_created_invite` -/
def attributeCreatedInvite (s : ReferralDb) (user : UserId) (visit : Option Uuid)
    (v : ReferralView) : Except Exc (ReferralDb × ReferralAnswer) :=
  match visit with
  | none => .ok (s, .nothing)
  | some id =>
    if ¬ c.partnerChannelEnabled then .ok (s, .nothing)
    else if (s.attribution? user).isSome then .ok (s, .nothing)
    else
      match lockVisit s id true v.now with
      | none => .ok (s, .nothing)
      | some (visit, link) =>
          insertIfAllowed s (visitAttribution user visit link true) none v .error

/-- `except IntegrityError` of `consume_partner_pending`, around its transaction. -/
def consumed : Except Exc (ReferralDb × ReferralAnswer) → Except Exc (ReferralDb × ReferralAnswer)
  | .ok (s', _) => .ok (s', .consumed "created")
  | .error .integrity => .ok (s, .consumed "noop")
  | .error e => .error e

/-- `consume_partner_pending` -/
def consumePartnerPending (s : ReferralDb) (user : UserId) (visit : Option Uuid)
    (v : ReferralView) : Except Exc (ReferralDb × ReferralAnswer) :=
  if (s.attribution? user).isSome then .ok (s, .consumed "noop")
  else
    match visit with
    | none => .ok (s, .consumed "ignored")
    | some id =>
      if ¬ c.partnerChannelEnabled then .ok (s, .consumed "ignored")
      else if (s.pending? user).isSome then .ok (s, .consumed "ignored")
      else
        match lockVisit s id true v.now with
        | none => .ok (s, .consumed "ignored")
        | some (visit, link) =>
          consumed s (insertIfAllowed s (visitAttribution user visit link false) none v .error)

end Roamkit.Partner
