import Roamkit.Accounts.SignIn
import Roamkit.Lib.Retry
import Roamkit.Partner.InviteCalls
import Roamkit.Partner.Referrals

/-!
# Google logins and the invite cookie

`authenticate_with_google` from a verified identity on. An attempt resolves the user in one
transaction, and hands the cookie to the partner services inside it; an `IntegrityError`
makes the next attempt, anything else ends the login. Other transactions commit between
the look-ups of an attempt, so each of them has the database it reads.
-/

namespace Roamkit.Accounts

open Lib Billing Organizations Partner

structure LoginDb where
  signIn : SignInDb
  referral : ReferralDb

structure LoginSettings where
  referral : ReferralSettings
  /-- `unsign_partner_pending` at a time: the visit, when the signature holds. -/
  unsign : String → Time → Option Uuid

/-- What an attempt reads and draws. -/
structure LoginAttempt where
  /-- The database at the look-up by subject, -/
  bySubject : LoginDb
  /-- at the look-up by address, -/
  byEmail : LoginDb
  /-- and where a user is inserted. -/
  atInsert : LoginDb
  id : UserId
  account : Uuid
  view : ReferralView

inductive LoginFailure where
  | auth (code : GoogleAuthErrorCode)
  /-- Any other exception. -/
  | raised (e : Exc)
deriving DecidableEq

/-- The database, the user and the outcome of a login. -/
abbrev LoggedIn := LoginDb × UserId × GoogleLoginOutcome

/-! ## The invite -/

/-- `not signed` -/
def unsigned (signed : Option String) : Bool := signed.all (· = "")

variable (c : LoginSettings)

/-- `unsign_partner_pending`, of a cookie that may be absent. -/
def LoginSettings.visit (signed : Option String) (now : Time) : Option Uuid :=
  match signed with
  | none => none
  | some value => if value = "" then none else c.unsign value now

/-- The rest of a login, after what the partner services answered. -/
def LoginDb.referred (s : LoginDb)
    (r : Except Exc (ReferralDb × ReferralAnswer)) : Except Exc LoginDb :=
  r.map fun r => { s with referral := r.1 }

/-- `_attribute_created_invite` -/
def attributeInvite (s : LoginDb) (user : UserId) (signed : Option String)
    (v : ReferralView) : Except Exc LoginDb :=
  if unsigned signed ∨ ¬ c.referral.partnerChannelEnabled then .ok s
  else s.referred (attributeCreatedInvite c.referral s.referral user (c.visit signed v.now) v)

/-- `_consume_invite` -/
def consumeInvite (s : LoginDb) (user : UserId) (signed : Option String)
    (v : ReferralView) : Except Exc LoginDb :=
  if unsigned signed ∨ ¬ c.referral.partnerChannelEnabled then .ok s
  else s.referred (consumePartnerPending c.referral s.referral user (c.visit signed v.now) v)

/-! ## `_resolve_user` -/

inductive Found where
  | bySubject (user : User)
  | byEmail (user : User)
  | nobody

namespace LoginAttempt

/-- The two look-ups. -/
def look (a : LoginAttempt) (identity : GoogleIdentity) : Found :=
  match (a.bySubject.signIn.links.find? (·.subject = identity.subject)).bind fun link =>
      a.bySubject.signIn.users.find? (·.id = link.user) with
  | some user => .bySubject user
  | none =>
    match a.byEmail.signIn.race.accounts.userOf (googleEmail identity.email) with
    | some user => .byEmail user
    | none => .nobody

/-- The rows of a new user. -/
def create (a : LoginAttempt) (identity : GoogleIdentity) : Except Exc LoginDb :=
  let email := googleEmail identity.email
  match a.atInsert.signIn.race.accounts.insertUser (googleUser email a.id),
      a.atInsert.signIn.links.insert? ⟨a.id, identity.subject⟩,
      registerPerson a.atInsert.referral ⟨a.id, email⟩ a.account with
  | .ok accounts, some links, .ok (referral, _) =>
    .ok
      ⟨{ a.atInsert.signIn.withAccounts (accounts.ensureBillingAccount a.id) with links }, referral⟩
  | _, _, _ => .error .integrity

end LoginAttempt

/-- `_link_or_activate`, from its save on. -/
def saveAndActivate (s : LoginDb) (user : User) (identity : GoogleIdentity)
    (v : ReferralView) : Except Exc LoginDb :=
  match saveLink s.signIn user identity with
  | none => .error .integrity
  | some signIn =>
    if user.isActive then .ok { s with signIn }
    else LoginDb.referred { s with signIn }
      (applyPendingOnActivation c.referral s.referral user.id v)

/-- The end of an attempt. -/
def loggedIn (user : UserId) (outcome : GoogleLoginOutcome) :
    Except Exc LoginDb → Except LoginFailure LoggedIn
  | .ok s => .ok (s, user, outcome)
  | .error e => .error (.raised e)

/-- `_resolve_user` -/
def resolveUser (identity : GoogleIdentity) (signed : Option String) (a : LoginAttempt) :
    Except LoginFailure LoggedIn :=
  match a.look identity with
  | .bySubject user =>
    if user.isActive then loggedIn user.id .existing
      (consumeInvite c a.bySubject user.id signed a.view)
    else .error (.auth .accountDisabled)
  | .byEmail user =>
    match linkOrActivate user (a.byEmail.signIn.subjectOf user.id) identity with
    | .error code => .error (.auth code)
    | .ok outcome =>
      loggedIn user.id outcome do
        let s ← saveAndActivate c a.byEmail user identity a.view
        consumeInvite c s user.id signed a.view
  | .nobody =>
    loggedIn a.id .created do
      let s ← a.create identity
      attributeInvite c s a.id signed a.view

/-- `except IntegrityError` -/
def LoginFailure.isIntegrity : LoginFailure → Bool
  | .raised .integrity => true
  | _ => false

/-- `authenticate_with_google`, of a verified identity. -/
def authenticateWithGoogle (identity : GoogleIdentity) (signed : Option String)
    (attempts : Nat → LoginAttempt) : Except LoginFailure LoggedIn :=
  retry LoginFailure.isIntegrity (.auth .subConflict) (resolveUser c identity signed)
    ((List.range 3).map attempts)

end Roamkit.Accounts
