import Roamkit.Billing.PartnerMargin
import Roamkit.Lib.Transaction

/-!
# Registration

`register_user` and `start_signup` each look the e-mail address up and, when no
user has it, insert one. Both expect the insert to fail because another request
was first. The part of each transaction that follows the look-up is a `Stmt`, so
that what a failed insert does to it is the rule of transactions and not a choice
made here.
-/

namespace Roamkit.Accounts

open Lib Billing

instance : DbError Exc := ⟨.integrity, .transactionManagement⟩

/-! ## Rows -/

/-- A user; `password` is the hash of a usable password. -/
structure User where
  id : UserId
  email : String
  isActive : Bool
  displayName : String
  password : Option String
deriving DecidableEq

instance : Constraint User where
  clash u v := u.id = v.id ∨ u.email = v.email
  symm h := h.imp Eq.symm Eq.symm
  decClash _ _ := inferInstance

/-- The code a signup is confirmed with. -/
structure SignupCode where
  codeHash : String
  expiresAt : Time
  attemptCount : Nat
deriving DecidableEq

/-- A mail that was sent. -/
inductive Mail where
  | activation (email : String)
  | passwordReset (email : String)
  | signupCode (email code : String)
  | signupAccountExists (email : String)
deriving DecidableEq

structure AccountsDb where
  users : Table User
  /-- The users with a personal billing account. -/
  billed : List UserId
  codes : UserId → Option SignupCode
  mails : List Mail
  now : Time

variable (s : AccountsDb) (email : String)

namespace AccountsDb

/-- `filter(email=…).first()` -/
def userOf (email : String) : Option User := s.users.find? (·.email = email)

/-- `ensure_billing_account` -/
def ensureBillingAccount (user : UserId) : AccountsDb :=
  if user ∈ s.billed then s else { s with billed := s.billed ++ [user] }

/-- An insert of a user. -/
def insertUser (user : User) : Except Exc AccountsDb :=
  match s.users.insert? user with
  | none => .error .integrity
  | some users => .ok { s with users }

end AccountsDb

/-- A mail goes out; it asks the database nothing. -/
def send (m : Mail) : Stmt AccountsDb Exc Unit := fun tx =>
  (.ok (), { tx with db := { tx.db with mails := tx.db.mails ++ [m] } })

/-- `normalize_email`, of an address whose domain is within ASCII. -/
def normalizeEmail : String :=
  let cs := PyText.trim email.toList
  let domain := (cs.reverse.takeWhile (· ≠ '@')).reverse
  if domain.length = cs.length then email
  else String.ofList (cs.take (cs.length - domain.length) ++ domain.map Char.toLower)

example : normalizeEmail " A@b@EXAMPLE.org " = "A@b@example.org"
    ∧ normalizeEmail "Nobody" = "Nobody" := by
  decide

/-! ## `register_user` -/

inductive RegistrationResult where
  | created
  | existing
  | accountExistsForInvite
deriving DecidableEq

/-- `_active_account_result`; whether a verified invite came with the request. -/
def activeAccountResult (user : User) (invite : Bool) : Stmt AccountsDb Exc RegistrationResult :=
  if invite then pure .accountExistsForInvite
  else do
    if user.password.isSome then send (.passwordReset user.email)
    return .existing

/-- What `register_user` does with a user it found. -/
def registerFound (user : User) (invite : Bool) : Stmt AccountsDb Exc RegistrationResult :=
  if user.isActive then activeAccountResult user invite
  else do
    send (.activation user.email)
    return .existing

/-- The row `register_user` creates. -/
def registeredUser (id : UserId) : User := ⟨id, email, false, "", none⟩

/-- `register_user` where the look-up found no user. -/
def registerNew (invite : Bool) (id : UserId) :
    Stmt AccountsDb Exc RegistrationResult :=
  .tryInsert
    (.write fun s => return (← s.insertUser (registeredUser email id)).ensureBillingAccount id)
    (do
      match ← Stmt.read fun s => .ok (s.userOf email) with
      | none => return .existing
      | some user => registerFound user invite)
    (fun _ => do
      send (.activation email)
      return .created)

/-! ## `start_signup` -/

/-- The arguments of `start_signup`, after the form is checked. -/
structure SignupArgs where
  email : String
  password : String
  firstName : String
  lastName : String

/-- `display_name_for` -/
def displayNameFor (firstName lastName : String) : String :=
  let name := PyText.strip (PyText.strip firstName ++ " " ++ PyText.strip lastName)
  String.ofList (name.toList.take 255)

/-- `CODE_TTL` -/
def codeTtl : Int := seconds 600

/-- What is drawn for a signup: the primary key and the code; and how passwords are hashed. -/
structure SignupDraw where
  id : UserId
  code : String
  makePassword : String → String

/-- What `start_signup` has made of its arguments before its transaction. -/
structure Signup where
  id : UserId
  email : String
  name : String
  password : String
  code : String
  codeHash : String

def SignupArgs.signup (a : SignupArgs) (d : SignupDraw) : Signup where
  id := d.id
  email := normalizeEmail a.email
  name := displayNameFor a.firstName a.lastName
  password := d.makePassword a.password
  code := d.code
  codeHash := d.makePassword d.code

/-- `_save_code` -/
def AccountsDb.saveCode (user : UserId) (codeHash : String) : AccountsDb :=
  { s with codes := Function.update s.codes user (some ⟨codeHash, s.now + codeTtl, 0⟩) }

variable (a : Signup)

/-- A user as `start_signup` saves one that is pending. -/
def resigned (user : User) : User :=
  { user with displayName := a.name, password := some a.password }

/-- The database after a pending user signed up again. -/
def AccountsDb.resign (a : Signup) (user : UserId) : AccountsDb :=
  let s' := { s with users := s.users.update (·.id = user) (resigned a) (fun _ _ h => h) }
  (s'.ensureBillingAccount user).saveCode user a.codeHash

/-- What `start_signup` does with a user it found. -/
def signupFound (user : User) : Stmt AccountsDb Exc Unit :=
  if user.isActive then send (.signupAccountExists user.email)
  else do
    Stmt.write fun s => .ok (s.resign a user.id)
    send (.signupCode user.email a.code)

/-- The row `start_signup` creates. -/
def signedUpUser : User := ⟨a.id, a.email, false, a.name, some a.password⟩

/-- `start_signup` where the look-up found no user; the insert has a savepoint of its own. -/
def signupNew : Stmt AccountsDb Exc Unit :=
  .tryInsert
    (.savepoint (.write fun s => s.insertUser (signedUpUser a)))
    (do
      match ← Stmt.read fun s => .ok (s.userOf a.email) with
      | none => .raise (.doesNotExist "User")
      | some user => signupFound a user)
    (fun _ => do
      Stmt.write fun s => .ok ((s.ensureBillingAccount a.id).saveCode a.id a.codeHash)
      send (.signupCode a.email a.code))

end Roamkit.Accounts
