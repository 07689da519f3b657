import Roamkit.Accounts.Activation
import Roamkit.Accounts.GoogleLogin

/-!
# Registering, activating and consuming with an invite

The calls of `accessProgram`, with what each transaction does to the partner tables. A
registration records the visit of its cookie, a link and a Google login apply the pending row
of the user they make active, and a login consumes its cookie; `confirm_signup` does neither.
What the partner services raise rolls the transaction back. Whoever writes a pending row, an
attribution or the activity of a user has locked the row of the user, so a transaction is one
step.
-/

namespace Roamkit.Accounts

open Lib Billing Organizations Partner

structure InviteDb where
  login : LoginDb
  /-- `PARTNER_CHANNEL_ENABLED`, as it is set at the moment. -/
  enabled : Bool

structure InviteSettings where
  access : ActivationSettings
  login : LoginSettings

/-- The settings of the partner services, with the channel as it is set. -/
def InviteSettings.at (c : InviteSettings) (enabled : Bool) : LoginSettings :=
  { c.login with referral := { c.login.referral with partnerChannelEnabled := enabled } }

inductive InviteCall where
  /-- A call of the accounts services, with the cookie that came with it. -/
  | access (request : AccessRequest) (cookie : Option String)
  /-- `consume_partner_pending`, of a user who is signed in. -/
  | consume (user : UserId) (cookie : Option String)
  /-- Another component writes; pending rows it may only delete. -/
  | partners (referral : ReferralDb)
  | setEnabled (enabled : Bool)

inductive InvitePc where
  | asked
  | answered (answer : ReferralAnswer)
  | done
  | raised (e : Exc)

inductive InviteThread where
  | access (t : AccessThread) (cookie : Option String)
  | own (call : InviteCall) (pc : InvitePc)

/-- What a step gets from outside. -/
structure InviteInput where
  access : AccessInput
  /-- The primary key of a new account. -/
  account : Uuid
  view : ReferralView

/-! ## What a transaction does to the partner tables -/

variable (c : LoginSettings) (s : ReferralDb)

/-- `record_pending_for_new_user` -/
def recordPendingForNewUser (s : ReferralDb) (user : UserId) (cookie : Option String)
    (v : ReferralView) : Except Exc ReferralDb :=
  if ¬ recordsPending c.referral s user false then .ok s
  else
    match (c.visit cookie v.now).bind fun id => lockVisit s id true v.now with
    | none => .ok s
    | some (visit, link) => (recordPending s user visit link v).map Prod.fst

/-- A user was inserted, with an account. -/
def LoginDb.withPerson (s : LoginDb) (user : UserId) (email : String)
    (account : Uuid) : Except Exc LoginDb :=
  s.referred (registerPerson s.referral ⟨user, email⟩ account)

/-- `apply_pending_on_activation` -/
def LoginDb.applyPending (s : LoginDb) (user : UserId) (v : ReferralView) : Except Exc LoginDb :=
  s.referred (applyPendingOnActivation c.referral s.referral user v)

/-- The paths a user becomes active by. -/
inductive ActivationPath where
  | activateUser
  | confirmSignup
  | google (cookie : Option String)

/-- What the partner tables are after a path. -/
def ActivationPath.run (s : LoginDb) (user : UserId) (v : ReferralView) :
    ActivationPath → Except Exc LoginDb
  | activateUser => s.applyPending c user v
  | confirmSignup => .ok s
  | google cookie => do
    let s ← s.applyPending c user v
    consumeInvite c s user cookie v

/-- A user is there and inactive. -/
def SignInDb.isInactive (s : SignInDb) (user : UserId) : Bool :=
  s.users.rows.any fun u => u.id = user && !u.isActive

/-- What a transaction of a request does next to its own writes, which have led to `s`. -/
def requestReferral (s : LoginDb) (before : SignInDb) (t u : RaceThread) (cookie : Option String)
    (x : InviteInput) : Except Exc LoginDb :=
  match t.pc, u.pc, x.access with
  | .missedUser email _, .registered .created, .signIn (.user id) => do
    let s ← s.withPerson id email x.account
    return { s with referral := ← recordPendingForNewUser c s.referral id cookie x.view }
  | .missedSignup a, .signedUp, _ =>
    if (before.users.find? (·.id = a.id)).isNone ∧ (s.signIn.users.find? (·.id = a.id)).isSome then
      s.withPerson a.id a.email x.account
    else .ok s
  | _, _, _ => .ok s

/-- The same of a login. -/
def googleReferral (s : LoginDb) (before : SignInDb) (identity : GoogleIdentity)
    (pc pc' : GooglePc) (cookie : Option String) (x : InviteInput) : Except Exc LoginDb :=
  match pc, pc' with
  | .seeking _, .signedIn user _ => consumeInvite c s user cookie x.view
  | .missedSubject _, .signedIn user _ =>
    if before.isInactive user then (ActivationPath.google cookie).run c s user x.view
    else consumeInvite c s user cookie x.view
  | .missedEmail _, .signedIn user _ => do
    let s ← s.withPerson user (googleEmail identity.email) x.account
    attributeInvite c s user cookie x.view
  | _, _ => .ok s

/-- What a transaction does next to its own writes. -/
def referralOf (s : LoginDb) (before : SignInDb) (t u : AccessThread) (cookie : Option String)
    (x : InviteInput) : Except Exc LoginDb :=
  match t, u with
  | .own (.activateUser _) (.accepted copy), .own _ (.answered _) =>
      ActivationPath.activateUser.run c s copy.id x.view
  | .own (.confirmSignup _ _) .asked, .own _ (.answered user) =>
      ActivationPath.confirmSignup.run c s user x.view
  | .signIn (.google identity pc), .signIn (.google _ pc') =>
      googleReferral c s before identity pc pc' cookie x
  | .signIn (.request t), .signIn (.request u) => requestReferral c s before t u cookie x
  | _, _ => .ok s

/-- What a login does about an exception of its transaction. -/
def GooglePc.caught (e : Exc) : GooglePc → GooglePc
  | seeking attempt => if e = .integrity then .retry attempt else .raised e
  | missedSubject attempt => if e = .integrity then .retry attempt else .raised e
  | missedEmail attempt => if e = .integrity then .retry attempt else .raised e
  | _ => .raised e

/-- A transaction was rolled back. -/
def AccessThread.failed (t : AccessThread) (e : Exc) : AccessThread :=
  match t with
  | .own call _ => .own call (.raised e)
  | .signIn (.request t) => .signIn (.request { t with pc := .raised e })
  | .signIn (.google identity pc) => .signIn (.google identity (pc.caught e))

/-! ## One step -/

/-- A step of a call of the accounts services. -/
def accessWithInvite (c : InviteSettings) (s : InviteDb) (t : AccessThread) (cookie : Option String)
    (x : InviteInput) : Option (InviteDb × InviteThread) :=
  match accessStep c.access s.login.signIn t x.access with
  | none => none
  | some (signIn, u) =>
    match referralOf (c.at s.enabled) { s.login with signIn } s.login.signIn t u cookie x with
    | .ok login => some ({ s with login }, .access u cookie)
    | .error e => some (s, .access (t.failed e) cookie)

/-- Whether pending rows are only deleted. -/
def keepsToPending (s referral : ReferralDb) : Bool :=
  referral.pendings.rows.all fun p => s.pendings.rows.contains p

/-- The step of another call. -/
def ownInvite (c : InviteSettings) (s : InviteDb) (call : InviteCall) (v : ReferralView) :
    Option (InviteDb × InvitePc) :=
  match call with
  | .access _ _ => none
  | .consume user cookie =>
    match consumePartnerPending (c.at s.enabled).referral s.login.referral user
      ((c.at s.enabled).visit cookie v.now) v with
    | .error e => some (s, .raised e)
    | .ok (referral, answer) =>
        some ({ s with login := { s.login with referral } }, .answered answer)
  | .partners referral =>
    if keepsToPending s.login.referral referral then
      some ({ s with login := { s.login with referral } }, .done)
    else none
  | .setEnabled enabled => some ({ s with enabled }, .done)

/-- One step of any call. -/
def inviteStep (c : InviteSettings) (s : InviteDb) (t : InviteThread) (x : InviteInput) :
    Option (InviteDb × InviteThread) :=
  match t with
  | .access t cookie => accessWithInvite c s t cookie x
  | .own call .asked => (ownInvite c s call x.view).map fun r => (r.1, .own call r.2)
  | .own _ _ => none

/-- The calls, run concurrently. -/
def inviteProgram (c : InviteSettings) : Program InviteDb InviteThread InviteCall InviteInput where
  start
    | .access request cookie => .access ((accessProgram c.access).start request) cookie
    | call => .own call .asked
  step := inviteStep c

/-! ## Pending rows that an activation leaves -/

/-- A pending row that is neither out of time nor of a user who has an attribution. -/
def standingPending (user : UserId) (now : Time) : Option PendingPartnerAttribution :=
  (s.pending? user).filter fun p => now < p.expiresAt && (s.attribution? user).isNone

/-- The channel an activation would attribute by a pending row. -/
def pendingChannel? (p : PendingPartnerAttribution) (now : Time) : Option PartnerChannel :=
  match p.inviteVisit with
  | some id => (lockVisit s id false now).bind fun found => s.channel? found.2.partnerChannel
  | none => (currentLink? s p).bind fun _ => s.channel? p.partnerChannel

/-- The conflict of `_keep_pending_self_referral`. -/
def selfReferral (s : ReferralDb) (user : UserId) (now : Time) : Bool :=
  c.referral.partnerChannelEnabled &&
    ((standingPending s user now).bind (pendingChannel? s · now)).any fun channel =>
      (s.refersToSelf user channel).isSome

/-- The row an activation would leave as it is. -/
def keepsPending (s : ReferralDb) (user : UserId) (now : Time) : Bool :=
  (standingPending s user now).isSome
    && (!c.referral.partnerChannelEnabled || selfReferral c s user now)

/-- The user a step makes active, and whether it applies the pending row. -/
def activates (c : ActivationSettings) (s : SignInDb) (t : AccessThread) (x : AccessInput) :
    Option (UserId × Bool) :=
  match t, x with
  | .own (.setActive user true) .asked, .go =>
      if s.isInactive user then some (user, false) else none
  | .own (.confirmPasswordReset _) _, _ => none
  | .own (.confirmSignup _ _) _, _ => ((letsIn c s t x).filter s.isInactive).map (·, false)
  | _, _ => ((letsIn c s t x).filter s.isInactive).map (·, true)

/-- The users whose pending row stays for a conflict. -/
def noteConflict (c : InviteSettings) (s : InviteDb) (t : InviteThread) (x : InviteInput)
    (_ : InviteDb) (_ : InviteThread) (record : List UserId) : List UserId :=
  match t with
  | .own _ _ => record
  | .access t _ =>
    match activates c.access s.login.signIn t x.access with
    | none => record
    | some (user, _) =>
      if selfReferral (c.at s.enabled) s.login.referral user x.view.now then
        user :: record else record

/-! ## What becomes of the invite of a user -/

/-- The attribution, the bonus and the pending row of a user. -/
structure InviteOutcome where
  attribution : Option CustomerAttribution
  bonus : Option CreditLedgerEntry
  pending : Option PendingPartnerAttribution
deriving DecidableEq

def outcomeOf (user : UserId) : InviteOutcome where
  attribution := s.attribution? user
  bonus := s.books.entries.find? (·.idempotencyKey = bonusKey user)
  pending := s.pending? user

/-- What a path leads to for the user. -/
def ActivationPath.outcome (s : LoginDb) (user : UserId) (v : ReferralView)
    (path : ActivationPath) : Except Exc InviteOutcome :=
  (path.run c s user v).map fun s => outcomeOf s.referral user

end Roamkit.Accounts
