import Roamkit.Accounts.Activation

/-!
# Mobile signup

`start_signup`, `resend_signup_code` and `confirm_signup`, run concurrently. A mail is
claimed in the cache, one operation at a time: a slot of the day and the gap since the last
mail, each a key that lives for a while. A transaction holds the row of its user until it
ends; `resend_signup_code` claims its mail while it holds it, `start_signup` before.
-/

namespace Roamkit.Accounts

open Lib Billing

/-! ## Settings -/

/-- What signups take from Django besides: its password hashers and the digest of an address. -/
structure SignupSettings extends ActivationSettings where
  /-- `make_password` of a text, with a salt. -/
  makePassword : Nat → String → String
  check_make : ∀ salt text guess, checkPassword guess (makePassword salt text) = true ↔ guess = text
  /-- `hashlib.sha256(text.encode()).hexdigest()` -/
  sha256 : String → String

variable (c : SignupSettings)

/-- `_mail_digest` -/
def SignupSettings.mailDigest (email : String) : String := c.sha256 (normalizeEmail email)

/-- `MAIL_GAP_SECONDS` -/
def mailGap : Int := seconds 600

/-- `MAIL_DAY_SECONDS` -/
def mailDay : Int := seconds 86400

/-- `MAIL_DAY_MAX` -/
def mailDayMax : Nat := 10

/-! ## The cache -/

inductive CacheKey where
  /-- `f"signup-mail:day:{digest}:{index}"` -/
  | day (digest : String) (index : Nat)
  /-- `f"signup-mail:gap:{digest}"` -/
  | gap (digest : String)
deriving DecidableEq

/-- Until when each key lives. -/
abbrev MailCache := CacheKey → Option Time

variable (cache : MailCache)

namespace MailCache

/-- Whether a key is in the cache. -/
def has (now : Time) (key : CacheKey) : Bool := (cache key).any (now < ·)

/-- `cache.add` of a key that is not in the cache. -/
def put (key : CacheKey) (until_ : Time) : MailCache := Function.update cache key (some until_)

/-- `cache.delete` -/
def delete (key : CacheKey) : MailCache := Function.update cache key none

end MailCache

/-! ## The store -/

/-- Who makes a call. -/
inductive Party where
  | owner
  | other
deriving DecidableEq

/-- What a run has done so far. -/
inductive SignupEvent where
  /-- `claim_signup_mail` has answered `True`, with this slot of the day. -/
  | granted (digest : String) (time : Time) (index : Nat)
  /-- A mail has gone out. -/
  | mailed (digest : String) (time : Time)
  /-- A party has called `start_signup`. -/
  | called (by_ : Party) (email password : String)
  /-- The call has saved its password. -/
  | started (by_ : Party) (user : UserId) (password : String)
  /-- `_save_code` -/
  | issued (user : UserId) (code : String) (time : Time)
  /-- A wrong code was checked. -/
  | guessed (user : UserId)
  /-- The right code was checked. -/
  | activated (by_ : Party) (user : UserId) (code : String) (time : Time)
deriving DecidableEq

structure SignupDb where
  accounts : AccountsDb
  cache : MailCache
  /-- The rows that transactions hold. -/
  held : List UserId
  /-- The record of the run, its newest entry first; no step reads it. -/
  log : List SignupEvent

variable (s : SignupDb)

namespace SignupDb

/-- Whether no other transaction holds the row of an address. -/
def isFree (email : String) : Bool := (s.accounts.userOf email).all fun u => u.id ∉ s.held

/-- The end of a transaction. -/
def unlock (user : Option UserId) :
    SignupDb := { s with held := s.held.filter fun u => user ≠ some u }

end SignupDb

/-! ## Claims -/

/-- Where `claim_signup_mail` stands. -/
inductive ClaimPc where
  /-- It tries a slot of the day. -/
  | day (index : Nat)
  /-- It has the slot, and tries the gap. -/
  | gap (index : Nat)
  /-- It gives the slot back. -/
  | release (index : Nat)
  | answered (granted : Bool)
deriving DecidableEq

/-- One operation of `claim_signup_mail` on the cache. -/
def claimSignupMail (digest : String) (s : SignupDb) : ClaimPc → Option (SignupDb × ClaimPc)
  | .day index =>
    let key := CacheKey.day digest index
    if s.cache.has s.accounts.now key then
      some (s, if index + 1 < mailDayMax then .day (index + 1) else .answered false)
    else some ({ s with cache := s.cache.put key (s.accounts.now + mailDay) }, .gap index)
  | .gap index =>
    let key := CacheKey.gap digest
    if s.cache.has s.accounts.now key then some (s, .release index)
    else
      some ({ s with cache := s.cache.put key (s.accounts.now + mailGap),
                     log := .granted digest s.accounts.now index :: s.log }, .answered true)
  | .release index => some ({ s with cache := s.cache.delete (.day digest index) }, .answered false)
  | .answered _ => none

/-! ## Calls -/

inductive SignupCall where
  | start (by_ : Party) (a : SignupArgs)
  | resend (email : String)
  | confirm (by_ : Party) (email code : String)
  /-- Time passes. -/
  | elapse (time : Nat)

/-- The address of a call. -/
def SignupCall.email : SignupCall → String
  | .start _ a => normalizeEmail a.email
  | .resend email => normalizeEmail email
  | .confirm _ email _ => normalizeEmail email
  | .elapse _ => ""

inductive SignupPc where
  | asked
  /-- It claims a mail since then, and holds the row. -/
  | claiming (since : Time) (held : Option UserId) (pc : ClaimPc)
  /-- It has found no user. -/
  | missed (since : Time) (a : Signup)
  | done
  /-- It has returned this user. -/
  | answered (user : UserId)
  | raised (e : Exc)

structure SignupThread where
  call : SignupCall
  pc : SignupPc

inductive SignupInput where
  | go
  /-- A primary key, a code and the salts. -/
  | draw (id : UserId) (code : String) (salts : String → Nat)
  | fail

/-- The hash of a text with the salt that was drawn for it. -/
def SignupSettings.hash (salts : String → Nat) (text : String) : String :=
  c.makePassword (salts text) text

/-- The mails that went out between two states. -/
def mailedSince (email : String) (s s' : AccountsDb) : List SignupEvent :=
  List.replicate (s'.mails.length - s.mails.length) (.mailed (c.mailDigest email) s.now)

/-- What a transaction of `start_signup` has done, once it has committed. -/
def startedSince (by_ : Party) (password : String) (a : Signup)
    (s s' : AccountsDb) : List SignupEvent :=
  match s'.userOf a.email with
  | some user =>
      if user.isActive then [] else [.issued user.id a.code s.now, .started by_ user.id password]
  | none => []

/-- A transaction of `start_signup`. -/
def runSignup (by_ : Party) (password : String) (a : Signup) (s : SignupDb)
    (m : Stmt AccountsDb Exc Unit) : SignupDb × SignupPc :=
  match m.atomic s.accounts with
  | (.error e, _) => (s, .raised e)
  | (.ok (), s') =>
    ({ s with
      accounts := s',
      log := mailedSince c a.email s.accounts s' ++ startedSince by_ password a s.accounts s'
        ++ s.log }, .done)

/-- `start_signup`, the look-up of its transaction and what follows for a user that is found. -/
def startSignup (s : SignupDb) (since : Time) (by_ : Party) (args : SignupArgs) (a : Signup) :
    SignupDb × SignupPc :=
  match s.accounts.userOf a.email with
  | none => (s, .missed since a)
  | some user => runSignup c by_ args.password a s (signupFound a user)

/-- `resend_signup_code`, up to its claim. -/
def beginResend (email : String) : SignupDb × SignupPc :=
  match s.accounts.userOf email with
  | none => (s, .done)
  | some user =>
    if user.isActive ∨ (s.accounts.codes user.id).isSome then
      ({ s with held := user.id :: s.held }, .claiming s.accounts.now (some user.id) (.day 0))
    else (s, .done)

/-- The code that `resend_signup_code` issues. -/
def resentSince (code : String) (email : String) (s : AccountsDb) : List SignupEvent :=
  match s.userOf email with
  | some user =>
      if user.isActive ∨ (s.codes user.id).isNone then [] else [.issued user.id code s.now]
  | none => []

/-- `resend_signup_code` behind its claim. -/
def endResend (s : SignupDb) (email : String) (code codeHash : String) : SignupDb :=
  let accounts := resendSignupCode s.accounts email true code codeHash
  { s with accounts, log := mailedSince c (normalizeEmail email) s.accounts accounts
      ++ resentSince code (normalizeEmail email) s.accounts ++ s.log }

/-- `confirm_signup`, and what has been checked of the code. -/
def confirmStep (s : SignupDb) (by_ : Party) (email code : String) : SignupDb × SignupPc :=
  let r := confirmSignup c.toActivationSettings s.accounts email code
  let checked := match checkSignupCode c.toActivationSettings s.accounts email code with
    | .ok (user, true) => [.activated by_ user.id code s.accounts.now]
    | .ok (user, false) => [.guessed user.id]
    | .error _ => []
  ({ s with accounts := r.1, log := checked ++ s.log },
    match r.2 with
    | .ok user => .answered user.id
    | .error e => .raised e)

/-- The rows that a call holds. -/
def SignupPc.holds : SignupPc → Option UserId
  | .claiming _ held _ => held
  | _ => none

/-- Whether a call has something left to do. -/
def SignupPc.isLive : SignupPc → Bool
  | .asked => true
  | .claiming _ _ _ => true
  | .missed _ _ => true
  | _ => false

/-- The step of a call that has not begun; a transaction waits for the row of its user. -/
def beginSignup (s : SignupDb) : SignupCall → Option (SignupDb × SignupPc)
  | .start by_ a =>
    some ({ s with log := .called by_ (normalizeEmail a.email) a.password :: s.log },
      .claiming s.accounts.now none (.day 0))
  | .resend email =>
      if s.isFree (normalizeEmail email) then some (beginResend s (normalizeEmail email)) else none
  | .confirm by_ email code =>
    if s.isFree (normalizeEmail email) then some (confirmStep c s by_ email code) else none
  | .elapse time =>
      some ({ s with accounts := { s.accounts with now := s.accounts.now + time } }, .done)

/-- The step of a call whose claim is answered. -/
def claimedSignup (s : SignupDb) (since : Time) (held : Option UserId) :
    SignupCall → Bool → SignupInput → Option (SignupDb × SignupPc)
  | .start by_ a, true, .draw id code salts =>
    if s.isFree (normalizeEmail a.email) then
      some (startSignup c s since by_ a (a.signup ⟨id, code, c.hash salts⟩))
    else none
  | .resend email, true, .draw _ code salts =>
    some ((endResend c s email code (c.hash salts code)).unlock held, .done)
  | _, false, .go => some (s.unlock held, .done)
  | _, _, _ => none

/-- One step of a call. -/
def signupPc (s : SignupDb) (call : SignupCall) :
    SignupPc → SignupInput → Option (SignupDb × SignupPc)
  | .asked, .go => beginSignup c s call
  | .claiming since held (.answered granted), .go => claimedSignup c s since held call granted .go
  | .claiming since held (.answered granted), .draw id code salts =>
    claimedSignup c s since held call granted (.draw id code salts)
  | .claiming since held pc, .go =>
    (claimSignupMail (c.mailDigest call.email) s pc).map fun r => (r.1, .claiming since held r.2)
  | .missed _ a, .go =>
    match call with
    | .start by_ args =>
      if s.isFree a.email then some (runSignup c by_ args.password a s (signupNew a)) else none
    | _ => none
  | pc, .fail => if pc.isLive then some (s.unlock pc.holds, .raised .operational) else none
  | _, _ => none

/-- The calls of mobile signup, run concurrently. -/
def signupProgram : Program SignupDb SignupThread SignupCall SignupInput where
  start call := ⟨call, .asked⟩
  step s t x := (signupPc c s t.call t.pc x).map fun r => (r.1, { t with pc := r.2 })

end Roamkit.Accounts
