import Roamkit.Accounts.SignIn
import Roamkit.Lib.Recorded

/-!
# Who is let in

The services that make a user active, or answer one as signed in, next to an administrator
who switches users off and on. `register_user`, `start_signup` and the Google login are those
of `signInProgram`. A transaction that locks the row of its user is one step; `activate_user`
and `confirm_password_reset` read the user, and save the copy later.
-/

namespace Roamkit.Accounts

open Lib Billing Spend

/-- What the services take from Django: the forms of links and passwords, and the settings. -/
structure ActivationSettings where
  spend : SpendSettings
  /-- `decode_uid` -/
  decodeUid : String → Option UserId
  /-- The messages of `validate_password`. -/
  validatePassword : String → List String
  /-- `check_token` of the two generators, at a time. -/
  checkActivationToken : User → Time → String → Bool
  checkResetToken : User → Time → String → Bool
  /-- `check_password` -/
  checkPassword : String → String → Bool

/-! ## The services -/

/-- The arguments of `activate_user` and `confirm_password_reset`. -/
structure LinkArgs where
  uid : String
  token : String
  password : String
  passwordConfirm : String

variable (c : ActivationSettings) (s : AccountsDb)

/-- The checks of the two passwords; `raises` makes the error of a service. -/
def checkPasswords (a : LinkArgs) (raises : String → String → Option String → Exc) :
    Except Exc Unit :=
  if a.password ≠ a.passwordConfirm then
    .error (raises "Passwords do not match." "password_mismatch" (some "password_confirm"))
  else
    match c.validatePassword a.password with
    | [] => .ok ()
    | messages => .error (raises (" ".intercalate messages) "password_invalid" (some "password"))

/-- `activate_user`, up to its transaction. -/
def activateUser (s : AccountsDb) (a : LinkArgs) : Except Exc User := do
  checkPasswords c a .activation
  match (c.decodeUid a.uid).bind fun id => s.users.find? (·.id = id) with
  | none => .error (.activation "Invalid or expired activation link." "invalid_link" none)
  | some user =>
    if user.isActive ∧ user.password.isSome then
      .error (.activation "This account is already activated." "already_active" none)
    else if ¬ c.checkActivationToken user s.now a.token then
      .error (.activation "Invalid or expired activation link." "invalid_token" none)
    else .ok user

/-- `confirm_password_reset`, up to its save. -/
def confirmPasswordReset (s : AccountsDb) (a : LinkArgs) : Except Exc User := do
  checkPasswords c a .passwordReset
  match (c.decodeUid a.uid).bind fun id => s.users.find? fun u => u.id = id && u.isActive with
  | none => .error (.passwordReset "Invalid or expired reset link." "invalid_link" none)
  | some user =>
    if ¬ c.checkResetToken user s.now a.token then
      .error (.passwordReset "Invalid or expired reset link." "invalid_token" none)
    else .ok user

/-- `request_password_reset` -/
def requestPasswordReset (email : String) : AccountsDb :=
  match s.users.find? fun u => u.email = normalizeEmail email && u.isActive with
  | none => s
  | some user =>
      if user.password.isSome then { s with mails := s.mails ++ [.passwordReset user.email] } else s

/-- `resend_signup_code`; whether a mail may be sent, the code and its hash. -/
def resendSignupCode (email : String) (granted : Bool) (code codeHash : String) : AccountsDb :=
  match s.userOf (normalizeEmail email) with
  | none => s
  | some user =>
    if user.isActive then
      if granted then { s with mails := s.mails ++ [.signupAccountExists user.email] } else s
    else if (s.codes user.id).isNone ∨ ¬ granted then s
    else
      let s' := s.saveCode user.id codeHash
      { s' with mails := s'.mails ++ [.signupCode user.email code] }

/-- `MAX_ATTEMPTS` -/
def maxAttempts : Nat := 5

/-- `SignupCodeError()` -/
def signupCodeError : Exc := .signupCode "Invalid or expired verification code."

/-- The user of a confirmation, and whether the code is the right one. -/
def checkSignupCode (s : AccountsDb) (email code : String) : Except Exc (User × Bool) :=
  match s.userOf (normalizeEmail email) with
  | none => .error signupCodeError
  | some user =>
    if user.isActive then .error signupCodeError
    else
      match s.codes user.id with
      | none => .error signupCodeError
      | some signupCode =>
        if maxAttempts ≤ signupCode.attemptCount ∨ signupCode.expiresAt ≤ s.now then
          .error signupCodeError
        else .ok (user, c.checkPassword code signupCode.codeHash)

/-- A wrong code counts as an attempt. -/
def AccountsDb.countAttempt (user : UserId) : AccountsDb :=
  let counted := (s.codes user).map fun k => { k with attemptCount := k.attemptCount + 1 }
  { s with codes := Function.update s.codes user counted }

/-- A user becomes active, or is switched off. -/
def withActive (active : Bool) (user : User) : User := { user with isActive := active }

/-- A user with a new password. -/
def withPassword (password : String) (user : User) : User := { user with password := some password }

/-- Write one user, in columns no unique constraint is about. -/
def AccountsDb.saveUser (id : UserId) (f : User → User) (hf : Table.Keeps f) : AccountsDb :=
  { s with users := s.users.update (·.id = id) f hf }

/-- `confirm_signup` -/
def confirmSignup (s : AccountsDb) (email code : String) : AccountsDb × Except Exc User :=
  match checkSignupCode c s email code with
  | .error e => (s, .error e)
  | .ok (user, false) => (s.countAttempt user.id, .error signupCodeError)
  | .ok (user, true) =>
    let s' := s.saveUser user.id (withActive true) (fun _ _ h => h)
    ({ s' with codes := Function.update s'.codes user.id none }, .ok user)

/-! ## The program -/

/-- The calls that are not those of `signInProgram`. -/
inductive AccessCall where
  | activateUser (a : LinkArgs)
  | resendSignupCode (email : String)
  | confirmSignup (email code : String)
  | requestPasswordReset (email : String)
  | confirmPasswordReset (a : LinkArgs)
  /-- An administrator switches a user on or off. -/
  | setActive (user : UserId) (active : Bool)
  /-- Time passes. -/
  | elapse (time : Time)

inductive AccessPc where
  | asked
  /-- The link was accepted for this copy of the user. -/
  | accepted (copy : User)
  /-- The call has returned this user. -/
  | answered (user : UserId)
  | done
  | raised (e : Exc)

inductive AccessThread where
  | signIn (t : SignInThread)
  | own (call : AccessCall) (pc : AccessPc)

inductive AccessRequest where
  | register (email : String) (invite : Bool)
  | startSignup (a : SignupArgs)
  | google (identity : GoogleIdentity)
  | own (call : AccessCall)

inductive AccessInput where
  | signIn (x : RaceInput)
  | go
  /-- The hash `make_password` makes. -/
  | hash (password : String)
  /-- Whether the address may be sent a mail, a code and its hash. -/
  | claim (granted : Bool) (code codeHash : String)
  /-- A partner service raises in the transaction of `activate_user`. -/
  | refuse (e : Exc)
  | fail

/-- The step of a call that has not begun. -/
def beginAccess (s : AccountsDb) : AccessCall → AccessInput → Option (AccountsDb × AccessPc)
  | .activateUser a, .go =>
    match activateUser c s a with
    | .error e => some (s, .raised e)
    | .ok user => some (s, .accepted user)
  | .confirmPasswordReset a, .go =>
    match confirmPasswordReset c s a with
    | .error e => some (s, .raised e)
    | .ok user => some (s, .accepted user)
  | .resendSignupCode email, .claim granted code codeHash =>
    some (resendSignupCode s email granted code codeHash, .done)
  | .confirmSignup email code, .go =>
    match confirmSignup c s email code with
    | (s', .error e) => some (s', .raised e)
    | (s', .ok user) => some (s', .answered user.id)
  | .requestPasswordReset email, .go => some (requestPasswordReset s email, .done)
  | .setActive user active, .go =>
      some (s.saveUser user (withActive active) (fun _ _ h => h), .done)
  | .elapse time, .go => some ({ s with now := max s.now time }, .done)
  | _, _ => none

/-- The save of a copy that was read before. -/
def saveAccess (copy : User) : AccessCall → AccessInput → Option (AccountsDb × AccessPc)
  | .activateUser _, .hash password =>
    some (s.saveUser copy.id (fun u => withActive true (withPassword password u)) (fun _ _ h => h),
      .answered copy.id)
  | .activateUser _, .refuse e => some (s, .raised e)
  | .confirmPasswordReset _, .hash password =>
    some (s.saveUser copy.id (withPassword password) (fun _ _ h => h), .answered copy.id)
  | _, _ => none

/-- One step of such a call. -/
def accessPc (s : AccountsDb) (call : AccessCall) :
    AccessPc → AccessInput → Option (AccountsDb × AccessPc)
  | .asked, .fail => some (s, .raised .operational)
  | .accepted _, .fail => some (s, .raised .operational)
  | .asked, x => beginAccess c s call x
  | .accepted copy, x => saveAccess s copy call x
  | _, _ => none

/-- One step of any call. -/
def accessStep (s : SignInDb) : AccessThread → AccessInput → Option (SignInDb × AccessThread)
  | .signIn t, .signIn x => ((signInProgram c.spend).step s t x).map fun r => (r.1, .signIn r.2)
  | .own call pc, x =>
      (accessPc c s.race.accounts call pc x).map fun r => (s.withAccounts r.1, .own call r.2)
  | _, _ => none

/-- The services of accounts, their calls run concurrently. -/
def accessProgram : Program SignInDb AccessThread AccessRequest AccessInput where
  start
    | .register email invite =>
        .signIn ((signInProgram c.spend).start (.request (.register email invite)))
    | .startSignup a => .signIn ((signInProgram c.spend).start (.request (.signup a)))
    | .google identity => .signIn ((signInProgram c.spend).start (.google identity))
    | .own call => .own call .asked
  step := accessStep c

/-! ## The record -/

/-- The user a call has returned as signed in. -/
def AccessThread.answer : AccessThread → Option UserId
  | .signIn (.google _ (.signedIn user _)) => some user
  | .own _ (.answered user) => some user
  | _ => none

/-- What a run has done, as far as the database does not tell. -/
structure AccessRecord where
  /-- The users an administrator switched off while they were active, and has not switched on
  since. -/
  disabled : List UserId
  /-- The users that were returned as signed in, and whether they were among those then. -/
  answers : List (UserId × Bool)

/-- The users switched off after a step. -/
def disabledAfter (s : SignInDb) (t : AccessThread) (x : AccessInput)
    (disabled : List UserId) : List UserId :=
  match t, x with
  | .own (.setActive user true) .asked, .go => disabled.filter (· ≠ user)
  | .own (.setActive user false) .asked, .go =>
    if (s.users.find? fun u => u.id = user && u.isActive).isSome then user :: disabled else disabled
  | _, _ => disabled

def noteAccess (s : SignInDb) (t : AccessThread) (x : AccessInput) (_ : SignInDb)
    (t' : AccessThread) (r : AccessRecord) : AccessRecord :=
  let disabled := disabledAfter s t x r.disabled
  match t'.answer with
  | none => ⟨disabled, r.answers⟩
  | some user => ⟨disabled, (user, disabled.contains user) :: r.answers⟩

/-! ## Whom a step lets in -/

/--
Whether a login by address may take a user: active or without a usable password, and with
the subject of the identity, or with none while no other user has it.
-/
def mayTake (s : SignInDb) (user : User) (identity : GoogleIdentity) : Bool :=
  (user.isActive || user.password.isNone) &&
    match s.subjectOf user.id with
    | some subject => subject = identity.subject
    | none => s.links.rows.all (·.subject ≠ identity.subject)

/-- The user a step of a service makes active, or returns, past the checks it makes. -/
def letsIn (s : SignInDb) : AccessThread → AccessInput → Option UserId
  -- the link was accepted for a copy; how the user is now is not asked
  | .own (.activateUser _) (.accepted copy), .hash _ => some copy.id
  | .own (.confirmPasswordReset _) (.accepted copy), .hash _ => some copy.id
  | .own (.confirmSignup email code) .asked, .go =>
    match checkSignupCode c s.race.accounts email code with
    | .ok (user, true) => some user.id
    | _ => none
  | .signIn (.google identity (.missedSubject _)), .signIn .lookUp =>
    match s.race.accounts.userOf (googleEmail identity.email) with
    | none => none
    | some user => if mayTake s user identity then some user.id else none
  | _, _ => none

end Roamkit.Accounts
