import Roamkit.Accounts.Races

/-!
# Google sign-in

`authenticate_with_google` looks a user up by the subject of the identity, then by its
address, and creates one when neither is there. Each look-up is a step; a user that is
found is locked and written in the same step. A row that another transaction was first
with makes the transaction fail, and the whole of it is tried again, three times at most.
The profile and the invite of the request touch no user's address and are left out here.
-/

namespace Roamkit.Accounts

open Lib Billing Airalo Spend

/-! ## Identities -/

/-- What `verify_google_id_token` returns. -/
structure GoogleIdentity where
  subject : String
  email : String

/-- `google_sub` of a user who has one. -/
structure GoogleLink where
  user : UserId
  subject : String
deriving DecidableEq

instance : Constraint GoogleLink where
  clash a b := a.user = b.user ∨ a.subject = b.subject
  symm h := h.imp Eq.symm Eq.symm
  decClash _ _ := inferInstance

inductive GoogleAuthErrorCode where
  | accountDisabled
  | subConflict
deriving DecidableEq

inductive GoogleLoginOutcome where
  | existing
  | linked
  | created
deriving DecidableEq

/-- `_normalize_email`, of an address within ASCII. -/
def googleEmail (email : String) : String := normalizeEmail (PyText.lower (PyText.strip email))

example : googleEmail " Bob@Example.org " = "bob@example.org" := by decide

/-- `_link_or_activate`, its checks: `subject` is the one the user has. -/
def linkOrActivate (user : User) (subject : Option String) (identity : GoogleIdentity) :
    Except GoogleAuthErrorCode GoogleLoginOutcome :=
  if subject.any (· ≠ identity.subject) then .error .subConflict
  else if ¬ user.isActive ∧ user.password.isSome then .error .accountDisabled
  else .ok (if subject.isNone then .linked else .existing)

/-- The row a login creates. -/
def googleUser (email : String) (id : UserId) : User := ⟨id, email, true, "", none⟩

/-! ## The program -/

structure SignInDb where
  race : RaceDb
  links : Table GoogleLink

variable (s : SignInDb)

namespace SignInDb

def users : Table User := s.race.accounts.users

def withAccounts (accounts : AccountsDb) : SignInDb :=
  { s with race := { s.race with accounts } }

/-- `google_sub` of a user. -/
def subjectOf (user : UserId) : Option String :=
  (s.links.find? (·.user = user)).map GoogleLink.subject

end SignInDb

inductive GooglePc where
  /-- Before the look-up by subject, after some attempts. -/
  | seeking (attempt : Nat)
  /-- No user has the subject. -/
  | missedSubject (attempt : Nat)
  /-- And none the address. -/
  | missedEmail (attempt : Nat)
  | signedIn (user : UserId) (outcome : GoogleLoginOutcome)
  | refused (code : GoogleAuthErrorCode)
  | raised (e : Exc)
  /-- The process is gone. -/
  | gone

/-- Whether a login has a transaction left. -/
def GooglePc.isLive : GooglePc → Bool
  | .seeking _ => true
  | .missedSubject _ => true
  | .missedEmail _ => true
  | _ => false

/-- `except IntegrityError: continue`, and what follows the last attempt. -/
def GooglePc.retry (attempt : Nat) : GooglePc :=
  if attempt + 1 < 3 then .seeking (attempt + 1) else .refused .subConflict

/-- What is done with a user who has the subject. -/
def signInLinked (user : User) : GooglePc :=
  if user.isActive then .signedIn user.id .existing else .refused .accountDisabled

/-- The look-up by subject. -/
def seekSubject (identity : GoogleIdentity) (attempt : Nat) : GooglePc :=
  match s.links.find? (·.subject = identity.subject) with
  | none => .missedSubject attempt
  | some link =>
    match s.users.find? (·.id = link.user) with
    | none => .missedSubject attempt
    | some user => signInLinked user

/-- The save of `_link_or_activate`; the subject may have been taken meanwhile. -/
def saveLink (user : User) (identity : GoogleIdentity) : Option SignInDb :=
  let s' := s.withAccounts { s.race.accounts with
    users := s.users.update (·.id = user.id) activated (fun _ _ h => h) }
  if (s.subjectOf user.id).isSome then some s'
  else (s.links.insert? ⟨user.id, identity.subject⟩).map fun links => { s' with links }

/-- What is done with a user who has the address. -/
def signInFound (user : User) (identity : GoogleIdentity) (attempt : Nat) :
    SignInDb × GooglePc :=
  match linkOrActivate user (s.subjectOf user.id) identity with
  | .error code => (s, .refused code)
  | .ok outcome =>
    match saveLink s user identity with
    | none => (s, .retry attempt)
    | some s' => (s', .signedIn user.id outcome)

/-- The look-up by address. -/
def seekEmail (identity : GoogleIdentity) (attempt : Nat) : SignInDb × GooglePc :=
  match s.race.accounts.userOf (googleEmail identity.email) with
  | none => (s, .missedEmail attempt)
  | some user => signInFound s user identity attempt

/-- The insert of a user. -/
def createUser (identity : GoogleIdentity) (attempt : Nat) (id : UserId) :
    SignInDb × GooglePc :=
  match s.race.accounts.insertUser (googleUser (googleEmail identity.email) id),
      s.links.insert? ⟨id, identity.subject⟩ with
  | .ok accounts, some links =>
    ({ s.withAccounts (accounts.ensureBillingAccount id) with links }, .signedIn id .created)
  | _, _ => (s, .retry attempt)

/-- One step of a login. -/
def googlePc (identity : GoogleIdentity) : GooglePc → RaceInput → Option (SignInDb × GooglePc)
  | .seeking attempt, .lookUp => some (s, seekSubject s identity attempt)
  | .missedSubject attempt, .lookUp => some (seekEmail s identity attempt)
  | .missedEmail attempt, .user id => some (createUser s identity attempt id)
  | pc, .fail => if pc.isLive then some (s, .raised .operational) else none
  | pc, .crash => if pc.isLive then some (s, .gone) else none
  | _, _ => none

inductive SignInCall where
  | request (call : RaceCall)
  | google (identity : GoogleIdentity)

inductive SignInThread where
  | request (t : RaceThread)
  | google (identity : GoogleIdentity) (pc : GooglePc)

/-- Logins run concurrently with registrations, signups, their confirmations and purchases. -/
def signInProgram (c : SpendSettings) : Program SignInDb SignInThread SignInCall RaceInput where
  start
    | .request call => .request ((raceProgram c).start call)
    | .google identity => .google identity (.seeking 0)
  step s
    | .request t, x =>
        ((raceProgram c).step s.race t x).map fun r => ({ s with race := r.1 }, .request r.2)
    | .google identity pc, x => (googlePc s identity pc x).map fun r => (r.1, .google identity r.2)

end Roamkit.Accounts
