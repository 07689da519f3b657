import Roamkit.Accounts.Signups
import Roamkit.Proof.SignIn

/-!
# Steps of mobile signup

What a transaction of `start_signup` and a step of a call can do, each branch with what it
asks of the database. Everything else about runs of mobile signup is derived from these.
-/

namespace Roamkit.Accounts.Proof

open Lib Billing

/-! ## The transaction of `start_signup` -/

/-- The database with one more mail. -/
def mailing (s : AccountsDb) (m : Mail) : AccountsDb := { s with mails := s.mails ++ [m] }

/-- What the transaction of a `start_signup` does when it commits. -/
inductive Signed (a : Signup) (s : AccountsDb) : AccountsDb → Prop
  /-- The account exists. -/
  | exists_ {user : User} : s.userOf a.email = some user → user.isActive = true →
      Signed a s (mailing s (.signupAccountExists user.email))
  /-- The user is pending. -/
  | again {user : User} : s.userOf a.email = some user → user.isActive = false →
      Signed a s (mailing (s.resign a user.id) (.signupCode user.email a.code))
  /-- The user is new. -/
  | new {s₁ : AccountsDb} : s.insertUser (signedUpUser a) = .ok s₁ →
      Signed a s (mailing ((s₁.ensureBillingAccount a.id).saveCode a.id a.codeHash)
        (.signupCode a.email a.code))

section Transactions

variable {s s' : AccountsDb} {a : Signup} {r : Except Exc Unit}

theorem signupFound_signed {user : User} (hfound : s.userOf a.email = some user)
    (h : (signupFound a user).atomic s = (.ok (), s')) : Signed a s s' := by
  unfold signupFound at h
  by_cases hactive : user.isActive = true
  · rw [if_pos hactive] at h
    cases h
    exact .exists_ hfound hactive
  · rw [if_neg hactive] at h
    cases h
    exact .again hfound (Bool.eq_false_iff.2 hactive)

theorem signupNew_signed (h : (signupNew a).atomic s = (.ok (), s')) : Signed a s s' := by
  cases hi : s.insertUser (signedUpUser a) with
  | ok s₁ =>
    have hrun : signupNew a ⟨s, false⟩ = (.ok (),
        ⟨mailing ((s₁.ensureBillingAccount a.id).saveCode a.id a.codeHash)
          (.signupCode a.email a.code), false⟩) := by
      rw [signupNew, Stmt.tryInsert_savepoint_ok hi]
      rfl
    rw [Stmt.atomic_ok hrun] at h
    cases h
    exact .new hi
  | error e =>
    rw [insertUser_error hi] at hi
    -- another request was first, and its row is read again
    cases hfound : s.userOf a.email with
    | none =>
      rw [Stmt.atomic_error (signupNew_missing hi hfound)] at h
      cases h
    | some user =>
      rw [Stmt.atomic_congr (signupNew_found hi hfound)] at h
      exact signupFound_signed hfound h

end Transactions

/-! ## What it leaves -/

section Left

variable {s s' : AccountsDb} {a : Signup}

theorem insertUser_rows {user : User} (h : s.insertUser user = .ok s') :
    s.users.insert? user = some s'.users ∧ s'.now = s.now ∧ s'.codes = s.codes
      ∧ s'.mails = s.mails := by
  unfold AccountsDb.insertUser at h
  split at h
  · cases h
  rename_i users hi
  cases h
  exact ⟨hi, rfl, rfl, rfl⟩

theorem ensureBillingAccount_rest (s : AccountsDb) (user : UserId) :
    (s.ensureBillingAccount user).now = s.now
    ∧ (s.ensureBillingAccount user).codes = s.codes
      ∧ (s.ensureBillingAccount user).mails = s.mails := by
  unfold AccountsDb.ensureBillingAccount
  split <;> exact ⟨rfl, rfl, rfl⟩

/-- A pending user who signed up again: the row, the code, the clock and the mails. -/
theorem resign_rows (s : AccountsDb) (a : Signup) (user : UserId) :
    (s.resign a user).users = s.users.update (·.id = user) (resigned a) (fun _ _ h => h)
      ∧ (s.resign a user).codes
        = Function.update s.codes user (some ⟨a.codeHash, s.now + codeTtl, 0⟩)
      ∧ (s.resign a user).now = s.now ∧ (s.resign a user).mails = s.mails := by
  let s₁ : AccountsDb :=
      { s with users := s.users.update (·.id = user) (resigned a) (fun _ _ h => h) }
  obtain ⟨hnow, hcodes, hmails⟩ := ensureBillingAccount_rest s₁ user
  refine ⟨ensureBillingAccount_users user, ?_, hnow, hmails⟩
  show Function.update (s₁.ensureBillingAccount user).codes user
    (some ⟨a.codeHash, (s₁.ensureBillingAccount user).now + codeTtl, 0⟩) = _
  rw [hcodes, hnow]

/-- A new user: the row, the code, the clock and the mails. -/
theorem signedUp_rows {s₁ : AccountsDb} (hi : s.insertUser (signedUpUser a) = .ok s₁) :
    s.users.insert? (signedUpUser a)
      = some ((s₁.ensureBillingAccount a.id).saveCode a.id a.codeHash).users
      ∧ ((s₁.ensureBillingAccount a.id).saveCode a.id a.codeHash).codes
        = Function.update s.codes a.id (some ⟨a.codeHash, s.now + codeTtl, 0⟩)
      ∧ ((s₁.ensureBillingAccount a.id).saveCode a.id a.codeHash).now = s.now
      ∧ ((s₁.ensureBillingAccount a.id).saveCode a.id a.codeHash).mails = s.mails := by
  obtain ⟨hinsert, hnow₁, hcodes₁, hmails₁⟩ := insertUser_rows hi
  obtain ⟨hnow, hcodes, hmails⟩ := ensureBillingAccount_rest s₁ a.id
  refine ⟨?_, ?_, hnow.trans hnow₁, hmails.trans hmails₁⟩
  · rw [hinsert]
    exact congrArg some (ensureBillingAccount_users a.id).symm
  · show Function.update (s₁.ensureBillingAccount a.id).codes a.id
      (some ⟨a.codeHash, (s₁.ensureBillingAccount a.id).now + codeTtl, 0⟩) = _
    rw [hcodes, hcodes₁, hnow, hnow₁]

theorem Signed.now (h : Signed a s s') : s'.now = s.now := by
  cases h with
  | exists_ _ _ => rfl
  | again _ _ => exact (resign_rows s a _).2.2.1
  | new hi => exact (signedUp_rows hi).2.2.1

/-- A transaction of `start_signup` sends one mail. -/
theorem Signed.mails (h : Signed a s s') : s'.mails.length - s.mails.length = 1 := by
  have hone : ∀ (xs : List Mail) (m : Mail), (xs ++ [m]).length - xs.length = 1 := by
    intro xs m
    rw [List.length_append, List.length_singleton]
    omega
  cases h with
  | exists_ _ _ => exact hone _ _
  | @again user _ _ =>
    have hmails := (resign_rows s a user.id).2.2.2
    unfold mailing
    rw [hmails]
    exact hone _ _
  | new hi =>
    have hmails := (signedUp_rows hi).2.2.2
    unfold mailing
    rw [hmails]
    exact hone _ _

/-- An update of one user leaves the rows of the others. -/
theorem mem_users_other {users : Table User} {id : UserId} {f : User → User} (hf : Table.Keeps f)
    (hid : ∀ u, (f u).id = u.id) {u : User} (hu : u.id ≠ id) :
    u ∈ users.update (·.id = id) f hf ↔ u ∈ users := by
  constructor
  · intro hmem
    obtain ⟨v, hv, ⟨hown, rfl⟩ | ⟨_, rfl⟩⟩ := Table.of_mem_rewritten hmem
    · exact absurd ((hid v).trans (of_decide_eq_true hown)) hu
    · exact hv
  · intro hmem
    have hkept : rewrite (fun v : User => decide (v.id = id)) f u = u :=
      rewrite_neg _ (fun hown => hu (of_decide_eq_true hown))
    exact Table.mem_update.2 ⟨u, hmem, hkept⟩

/-- A user with a new password and a new code. -/
structure Saved (a : Signup) (s s' : AccountsDb) (user : User) : Prop where
  found : s'.userOf a.email = some user
  pending : user.isActive = false
  password : user.password = some a.password
  /-- Nobody else's row has changed. -/
  rows : ∀ u, u.id ≠ user.id → (u ∈ s'.users ↔ u ∈ s.users)
  before : ∀ u ∈ s.users, u.id = user.id → u.isActive = false
  codes : s'.codes = Function.update s.codes user.id (some ⟨a.codeHash, s.now + codeTtl, 0⟩)

theorem saved_again {user : User} (hfound : s.userOf a.email = some user)
    (hpending : user.isActive = false) (m : Mail) :
    Saved a s (mailing (s.resign a user.id) m) (resigned a user) := by
  obtain ⟨husers, hcodes, _, _⟩ := resign_rows s a user.id
  have hmem : user ∈ s.users := Table.mem_of_find? hfound
  refine ⟨?_, hpending, rfl, ?_, ?_, hcodes⟩
  · show (s.resign a user.id).users.find? _ = _
    rw [husers]
    refine (Table.find?_update s.users (·.id = user.id) (·.email = a.email) (resigned a) _
      (fun _ => rfl)).trans ?_
    have hfind : s.users.find? (·.email = a.email) = some user := hfound
    rw [hfind]
    exact congrArg some (rewrite_pos _ (decide_eq_true rfl))
  · intro u hother
    have hother' : u.id ≠ user.id := hother
    show u ∈ (s.resign a user.id).users ↔ _
    rw [husers]
    have hkeeps : Table.Keeps (resigned a) := fun _ _ h => h
    exact mem_users_other hkeeps (fun _ => rfl) hother'
  · intro u hu hid
    have hsame : u = user := Table.eq_of_clash hu hmem (.inl hid)
    rw [hsame]
    exact hpending

theorem saved_new {s₁ : AccountsDb} (hi : s.insertUser (signedUpUser a) = .ok s₁) (m : Mail) :
    Saved a s (mailing ((s₁.ensureBillingAccount a.id).saveCode a.id a.codeHash) m)
      (signedUpUser a) := by
  obtain ⟨hinsert, hcodes, _, _⟩ := signedUp_rows hi
  refine ⟨?_, rfl, rfl, ?_, ?_, hcodes⟩
  · have hnobody : s.users.find? (·.email = a.email) = none := by
      refine Table.find?_eq_none.2 fun u hu hsame => ?_
      exact Table.apart_of_insert hinsert hu (.inr (of_decide_eq_true hsame))
    refine (Table.find?_insert hinsert (·.email = a.email)).trans ?_
    rw [hnobody, Option.none_or]
    exact if_pos (decide_eq_true rfl)
  · intro u hother
    constructor
    · intro hu
      rcases (Table.mem_insert hinsert).1 hu with hold | rfl
      · exact hold
      · exact absurd rfl hother
    · exact fun hu => (Table.mem_insert hinsert).2 (.inl hu)
  · intro u hu hid
    exact absurd (.inl hid) (Table.apart_of_insert hinsert hu)

/-- **A transaction of `start_signup` finds an active account, or saves a pending one.** -/
theorem Signed.effect (h : Signed a s s') :
    (∃ user, s'.userOf a.email = some user ∧ user.isActive = true ∧ s'.users = s.users
      ∧ s'.codes = s.codes)
      ∨ ∃ user, Saved a s s' user := by
  cases h with
  | @exists_ user hfound hactive => exact .inl ⟨user, hfound, hactive, rfl, rfl⟩
  | @again user hfound hpending => exact .inr ⟨_, saved_again hfound hpending _⟩
  | new hi => exact .inr ⟨_, saved_new hi _⟩

end Left

/-! ## A confirmation -/

/-- The database after a code was accepted. -/
def accepted (s : AccountsDb) (user : UserId) : AccountsDb :=
  { s.saveUser user (withActive true) (fun _ _ h => h) with
    codes := Function.update s.codes user none }

/-- What a `confirm_signup` does. -/
inductive Confirmed (c : SignupSettings) (s : SignupDb) (by_ : Party) (email code : String) :
    SignupDb × SignupPc → Prop
  | refused {e : Exc} : checkSignupCode c.toActivationSettings s.accounts email code = .error e →
      Confirmed c s by_ email code (s, .raised e)
  | guessed {user : User} :
      checkSignupCode c.toActivationSettings s.accounts email code = .ok (user, false) →
      Confirmed c s by_ email code
        ({ s with accounts := s.accounts.countAttempt user.id, log := .guessed user.id :: s.log },
          .raised signupCodeError)
  | activated {user : User} :
      checkSignupCode c.toActivationSettings s.accounts email code = .ok (user, true) →
      Confirmed c s by_ email code
        ({ s with accounts := accepted s.accounts user.id,
                  log := .activated by_ user.id code s.accounts.now :: s.log }, .answered user.id)

theorem confirmStep_confirmed (c : SignupSettings) (s : SignupDb) (by_ : Party)
    (email code : String) :
    Confirmed c s by_ email code (confirmStep c s by_ email code) := by
  unfold confirmStep confirmSignup
  cases hcheck : checkSignupCode c.toActivationSettings s.accounts email code with
  | error e => exact .refused hcheck
  | ok r =>
    obtain ⟨user, right⟩ := r
    cases right with
    | false => exact .guessed hcheck
    | true => exact .activated hcheck

/-! ## The steps -/

/-- The arguments with which a call of `start_signup` has its transaction. -/
inductive Signs (c : SignupSettings) (args : SignupArgs) : SignupPc → Signup → Prop
  | drawn (since : Time) (held : Option UserId) (id : UserId) (code : String)
      (salts : String → Nat) :
      Signs c args (.claiming since held (.answered true)) (args.signup ⟨id, code, c.hash salts⟩)
  | missed (since : Time) (a : Signup) : Signs c args (.missed since a) a

/-- What a step of a call does. -/
inductive SignupMove (c : SignupSettings) (s : SignupDb) :
    SignupCall → SignupPc → SignupDb → SignupPc → Prop
  /-- `start_signup` begins. -/
  | called (by_ : Party) (a : SignupArgs) :
      SignupMove c s (.start by_ a) .asked
        { s with log := .called by_ (normalizeEmail a.email) a.password :: s.log }
        (.claiming s.accounts.now none (.day 0))
  /-- `resend_signup_code` has nobody to mail to. -/
  | ignored (email : String) : SignupMove c s (.resend email) .asked s .done
  /-- `resend_signup_code` has locked its user. -/
  | locked {email : String} {user : User} : s.isFree (normalizeEmail email) = true →
      s.accounts.userOf (normalizeEmail email) = some user →
      user.isActive = true ∨ (s.accounts.codes user.id).isSome = true →
      SignupMove c s (.resend email) .asked { s with held := user.id :: s.held }
        (.claiming s.accounts.now (some user.id) (.day 0))
  /-- `confirm_signup` -/
  | confirmed {by_ : Party} {email code : String} : s.isFree (normalizeEmail email) = true →
      SignupMove c s (.confirm by_ email code) .asked (confirmStep c s by_ email code).1
        (confirmStep c s by_ email code).2
  | elapsed (time : Nat) :
      SignupMove c s (.elapse time) .asked
        { s with accounts := { s.accounts with now := s.accounts.now + time } } .done
  /-- An operation of `claim_signup_mail`. -/
  | claimed {call : SignupCall} {since : Time} {held : Option UserId} {pc pc' : ClaimPc}
      {s' : SignupDb} :
      claimSignupMail (c.mailDigest call.email) s pc = some (s', pc') →
      SignupMove c s call (.claiming since held pc) s' (.claiming since held pc')
  /-- No mail may go out. -/
  | dropped {call : SignupCall} {since : Time} {held : Option UserId} :
      SignupMove c s call (.claiming since held (.answered false)) (s.unlock held) .done
  /-- The transaction of `start_signup` finds no user. -/
  | missed {by_ : Party} {args : SignupArgs} {since : Time} {held : Option UserId} {a : Signup} :
      Signs c args (.claiming since held (.answered true)) a → s.accounts.userOf a.email = none →
      SignupMove c s (.start by_ args) (.claiming since held (.answered true)) s (.missed since a)
  /-- It commits. -/
  | signed {by_ : Party} {args : SignupArgs} {pc : SignupPc} {a : Signup} {accounts : AccountsDb} :
      Signs c args pc a → s.isFree a.email = true → Signed a s.accounts accounts →
      SignupMove c s (.start by_ args) pc
        { s with accounts, log := mailedSince c a.email s.accounts accounts
            ++ startedSince by_ args.password a s.accounts accounts ++ s.log } .done
  /-- It fails. -/
  | refused {by_ : Party} {args : SignupArgs} {pc : SignupPc} {a : Signup} {e : Exc} :
      Signs c args pc a → SignupMove c s (.start by_ args) pc s (.raised e)
  /-- `resend_signup_code` behind its claim. -/
  | resent {email code : String} {since : Time} {held : Option UserId} (salts : String → Nat) :
      SignupMove c s (.resend email) (.claiming since held (.answered true))
        ((endResend c s email code (c.hash salts code)).unlock held) .done
  /-- The database fails. -/
  | failed {call : SignupCall} {pc : SignupPc} : pc.isLive = true →
      SignupMove c s call pc (s.unlock pc.holds) (.raised .operational)

section Steps

variable {c : SignupSettings} {s s' : SignupDb} {call : SignupCall} {pc pc' : SignupPc}
  {x : SignupInput}

theorem runSignup_move {by_ : Party} {args : SignupArgs} {a : Signup} {m : Stmt AccountsDb Exc Unit}
    (hpc : Signs c args pc a) (hfree : s.isFree a.email = true)
    (hm : ∀ accounts, m.atomic s.accounts = (.ok (), accounts) → Signed a s.accounts accounts)
    (h : runSignup c by_ args.password a s m = (s', pc')) :
    SignupMove c s (.start by_ args) pc s' pc' := by
  unfold runSignup at h
  split at h
  · cases h
    exact .refused hpc
  · rename_i accounts hrun
    cases h
    exact .signed hpc hfree (hm accounts hrun)

theorem beginSignup_move (h : beginSignup c s call = some (s', pc')) :
    SignupMove c s call .asked s' pc' := by
  unfold beginSignup at h
  split at h
  · cases h
    exact .called _ _
  · rename_i email
    split at h
    · rename_i hfree
      have hres := Option.some.inj h
      unfold beginResend at hres
      split at hres
      · cases hres
        exact .ignored email
      · rename_i user hfound
        split at hres
        · rename_i hmay
          cases hres
          exact .locked hfree hfound hmay
        · cases hres
          exact .ignored email
    · cases h
  · split at h
    · rename_i hfree
      cases h
      exact .confirmed hfree
    · cases h
  · cases h
    exact .elapsed _

theorem claimedSignup_move {since : Time} {held : Option UserId} {granted : Bool}
    (h : claimedSignup c s since held call granted x = some (s', pc')) :
    SignupMove c s call (.claiming since held (.answered granted)) s' pc' := by
  unfold claimedSignup at h
  split at h
  · rename_i by_ args id code salts
    split at h
    · rename_i hfree
      have hres := Option.some.inj h
      unfold startSignup at hres
      split at hres
      · rename_i hmissed
        cases hres
        exact .missed (.drawn since held id code salts) hmissed
      · rename_i user hfound
        exact runSignup_move (.drawn since held id code salts) hfree
          (fun _ hrun => signupFound_signed hfound hrun) hres
    · cases h
  · cases h
    exact .resent _
  · cases h
    exact .dropped
  · cases h

/-- **What a step of a call can do.** -/
theorem signupPc_move (h : signupPc c s call pc x = some (s', pc')) :
    SignupMove c s call pc s' pc' := by
  unfold signupPc at h
  split at h
  · exact beginSignup_move h
  · exact claimedSignup_move h
  · exact claimedSignup_move h
  · obtain ⟨⟨s₁, pc₁⟩, hclaim, heq⟩ := Option.map_eq_some_iff.1 h
    cases heq
    exact .claimed hclaim
  · split at h
    · split at h
      · rename_i hfree
        have hres := Option.some.inj h
        exact runSignup_move (.missed _ _) hfree (fun _ hrun => signupNew_signed hrun) hres
      · cases h
    · cases h
  · split at h
    · rename_i hlive
      cases h
      exact .failed hlive
    · cases h
  · cases h

theorem signupStep_move {t t' : SignupThread} (h : (signupProgram c).step s t x = some (s', t')) :
    t'.call = t.call ∧ SignupMove c s t.call t.pc s' t'.pc := by
  obtain ⟨⟨s₁, pc₁⟩, hpc, heq⟩ := Option.map_eq_some_iff.1 h
  cases heq
  exact ⟨rfl, signupPc_move hpc⟩

end Steps

/-! ## What a step does to users and codes -/

/-- A call of `start_signup` that has found no user goes on with its own arguments. -/
def Drawn (c : SignupSettings) (call : SignupCall) (pc : SignupPc) : Prop :=
  ∀ since a, pc = .missed since a →
    ∃ by_ args id code salts, call = .start by_ args ∧ a = args.signup ⟨id, code, c.hash salts⟩

/-- An event that is about no code and no password. -/
def silent : SignupEvent → Bool
  | .granted _ _ _ => true
  | .mailed _ _ => true
  | .called _ _ _ => true
  | _ => false

/-- A step, as far as users and their codes go. -/
inductive StoreMove (c : SignupSettings) (s : SignupDb) : SignupCall → SignupDb → Prop
  | quiet {call : SignupCall} {s' : SignupDb} (es : List SignupEvent) :
      s'.accounts.users = s.accounts.users →
      s'.accounts.codes = s.accounts.codes → s'.log = es ++ s.log → (∀ e ∈ es, silent e = true) →
      StoreMove c s call s'
  /-- `start_signup` has saved its password and issued a code. -/
  | signed {by_ : Party} {args : SignupArgs} {s' : SignupDb} {user : User} {code digest : String}
      (salts : String → Nat) : s'.accounts.userOf (normalizeEmail args.email) = some user
        → user.isActive = false →
      user.password = some (c.hash salts args.password) →
      (∀ u, u.id ≠ user.id → (u ∈ s'.accounts.users ↔ u ∈ s.accounts.users)) →
      (∀ u ∈ s.accounts.users, u.id = user.id → u.isActive = false) →
      s'.accounts.codes
        = Function.update s.accounts.codes user.id
          (some ⟨c.hash salts code, s.accounts.now + codeTtl, 0⟩) →
      s'.log = .mailed digest s.accounts.now :: .issued user.id code s.accounts.now
        :: .started by_ user.id args.password :: s.log → StoreMove c s (.start by_ args) s'
  /-- `resend_signup_code` has issued a code. -/
  | resent {email : String} {s' : SignupDb} {user : User} {code digest : String}
      (salts : String → Nat) :
      s.accounts.userOf (normalizeEmail email) = some user → user.isActive = false →
      s.accounts.codes user.id ≠ none → s'.accounts.users = s.accounts.users →
      s'.accounts.codes
        = Function.update s.accounts.codes user.id
          (some ⟨c.hash salts code, s.accounts.now + codeTtl, 0⟩) →
      s'.log = .mailed digest s.accounts.now :: .issued user.id code s.accounts.now :: s.log →
      StoreMove c s (.resend email) s'
  /-- A wrong code was checked. -/
  | guessed {by_ : Party} {email code : String} {user : User} :
      checkSignupCode c.toActivationSettings s.accounts email code = .ok (user, false) →
      StoreMove c s (.confirm by_ email code)
        { s with accounts := s.accounts.countAttempt user.id, log := .guessed user.id :: s.log }
  /-- The right code was checked. -/
  | activated {by_ : Party} {email code : String} {user : User} :
      checkSignupCode c.toActivationSettings s.accounts email code = .ok (user, true) →
      StoreMove c s (.confirm by_ email code)
        { s with accounts := accepted s.accounts user.id,
                 log := .activated by_ user.id code s.accounts.now :: s.log }

section Store

variable {c : SignupSettings} {s s' : SignupDb} {call : SignupCall} {pc pc' : SignupPc}

theorem SignupMove.drawn (h : SignupMove c s call pc s' pc') : Drawn c call pc' := by
  intro since a hpc
  cases h with
  | @confirmed by_ email code _ =>
    have hconfirmed := confirmStep_confirmed c s by_ email code
    generalize confirmStep c s by_ email code = r at hconfirmed hpc
    cases hconfirmed <;> cases hpc
  | @missed by_ args _ _ _ hs _ =>
    cases hpc
    cases hs with
    | drawn _ _ id code salts => exact ⟨by_, args, id, code, salts, rfl, rfl⟩
  | _ => cases hpc

theorem Signs.args {by_ : Party} {args : SignupArgs} {a : Signup} (h : Signs c args pc a)
    (hpc : Drawn c (.start by_ args) pc) :
    ∃ id code salts, a = args.signup ⟨id, code, c.hash salts⟩ := by
  cases h with
  | drawn _ _ id code salts => exact ⟨id, code, salts, rfl⟩
  | missed since a =>
    obtain ⟨_, _, id, code, salts, hcall, ha⟩ := hpc since a rfl
    cases hcall
    exact ⟨id, code, salts, ha⟩

/-- The mail of a transaction of `start_signup`. -/
theorem mailedSince_signed {a : Signup} {accounts : AccountsDb} (h : Signed a s.accounts accounts) :
    mailedSince c a.email s.accounts accounts
      = [.mailed (c.mailDigest a.email) s.accounts.now] := by
  unfold mailedSince
  rw [h.mails]
  rfl

/-- **What a committed transaction does to users and codes.** -/
theorem signed_store {by_ : Party} {args : SignupArgs} {id : UserId} {code : String}
    {salts : String → Nat} {a : Signup} {accounts : AccountsDb}
    (ha : a = args.signup ⟨id, code, c.hash salts⟩) (h : Signed a s.accounts accounts) :
    StoreMove c s (.start by_ args)
      { s with accounts, log := mailedSince c a.email s.accounts accounts
          ++ startedSince by_ args.password a s.accounts accounts ++ s.log } := by
  have hemail : a.email = normalizeEmail args.email := by rw [ha]; rfl
  have hcode : a.code = code := by rw [ha]; rfl
  have hhash : a.codeHash = c.hash salts code := by rw [ha]; rfl
  have hpassword : a.password = c.hash salts args.password := by rw [ha]; rfl
  rw [mailedSince_signed h]
  unfold startedSince
  rcases h.effect with ⟨user, hfound, hactive, husers, hcodes⟩ | ⟨user, hsaved⟩
  · rw [hfound]
    dsimp only
    rw [if_pos hactive]
    refine .quiet [.mailed (c.mailDigest a.email) s.accounts.now] husers hcodes rfl ?_
    intro e he
    rw [List.mem_singleton.1 he]
    rfl
  · have hpending : ¬ user.isActive = true := by
      rw [hsaved.pending]
      decide
    rw [hsaved.found]
    dsimp only
    rw [if_neg hpending, hcode]
    refine .signed salts (hemail ▸ hsaved.found) hsaved.pending ?_ hsaved.rows hsaved.before ?_ rfl
    · rw [hsaved.password, hpassword]
    · rw [← hhash]
      exact hsaved.codes

theorem endResend_store (email code : String) (salts : String → Nat) (held : Option UserId) :
    StoreMove c s (.resend email) ((endResend c s email code (c.hash salts code)).unlock held) := by
  have hquiet : ∀ acc' : AccountsDb, resendSignupCode s.accounts email true code
    (c.hash salts code) = acc' →
      acc'.users = s.accounts.users → acc'.codes = s.accounts.codes →
      resentSince code (normalizeEmail email) s.accounts = [] →
      StoreMove c s (.resend email)
        ((endResend c s email code (c.hash salts code)).unlock held) := by
    intro acc' hacc husers hcodes hnone
    refine .quiet (mailedSince c (normalizeEmail email) s.accounts acc') ?_ ?_ ?_ ?_
    · exact (congrArg AccountsDb.users hacc).trans husers
    · exact (congrArg AccountsDb.codes hacc).trans hcodes
    · show mailedSince c _ s.accounts
        (resendSignupCode s.accounts email true code (c.hash salts code))
        ++ resentSince code _ s.accounts ++ s.log = _
      rw [hacc, hnone, List.append_nil]
    · intro e he
      rw [List.eq_of_mem_replicate he]
      rfl
  cases hfound : s.accounts.userOf (normalizeEmail email) with
  | none =>
    refine hquiet s.accounts ?_ rfl rfl ?_
    · unfold resendSignupCode
      rw [hfound]
    · unfold resentSince
      rw [hfound]
  | some user =>
    by_cases hactive : user.isActive = true
    · refine hquiet (mailing s.accounts (.signupAccountExists user.email)) ?_ rfl rfl ?_
      · unfold resendSignupCode
        rw [hfound]
        dsimp only
        rw [if_pos hactive, if_pos rfl]
        rfl
      · unfold resentSince
        rw [hfound]
        exact if_pos (.inl hactive)
    · by_cases hcode : (s.accounts.codes user.id).isNone = true
      · refine hquiet s.accounts ?_ rfl rfl ?_
        · unfold resendSignupCode
          rw [hfound]
          dsimp only
          rw [if_neg hactive, if_pos (.inl hcode)]
        · unfold resentSince
          rw [hfound]
          exact if_pos (.inr hcode)
      · -- a pending user who has a code gets another
        let saved := s.accounts.saveCode user.id (c.hash salts code)
        have hacc : resendSignupCode s.accounts email true code (c.hash salts code)
            = mailing saved (.signupCode user.email code) := by
          unfold resendSignupCode
          rw [hfound]
          dsimp only
          rw [if_neg hactive, if_neg (not_or.2 ⟨hcode, fun hno => hno rfl⟩)]
          rfl
        have hresent : resentSince code (normalizeEmail email) s.accounts
            = [.issued user.id code s.accounts.now] := by
          unfold resentSince
          rw [hfound]
          exact if_neg (not_or.2 ⟨hactive, hcode⟩)
        have hmailed : mailedSince c (normalizeEmail email) s.accounts
          (mailing saved (.signupCode user.email code))
            = [.mailed (c.mailDigest (normalizeEmail email)) s.accounts.now] := by
          have hlength : (s.accounts.mails ++ [Mail.signupCode user.email code]).length
              - s.accounts.mails.length = 1 := by
            rw [List.length_append, List.length_singleton]
            omega
          exact congrArg (List.replicate · _) hlength
        have hlog : ((endResend c s email code (c.hash salts code)).unlock held).log
            = .mailed (c.mailDigest (normalizeEmail email)) s.accounts.now
              :: .issued user.id code s.accounts.now :: s.log := by
          show mailedSince c _ s.accounts
            (resendSignupCode s.accounts email true code (c.hash salts code))
            ++ resentSince code _ s.accounts ++ s.log = _
          rw [hacc, hresent, hmailed]
          rfl
        have husers : ((endResend c s email code (c.hash salts code)).unlock held).accounts.users
            = s.accounts.users :=
          (congrArg AccountsDb.users hacc).trans rfl
        have hcodes : ((endResend c s email code (c.hash salts code)).unlock held).accounts.codes
            = saved.codes :=
          (congrArg AccountsDb.codes hacc).trans rfl
        have hstored : s.accounts.codes user.id ≠ none := fun hnone => hcode (by rw [hnone]; rfl)
        exact .resent salts hfound (Bool.eq_false_iff.2 hactive) hstored husers hcodes hlog

/-- **What a step does to users and codes.** -/
theorem SignupMove.store (h : SignupMove c s call pc s' pc') (hpc : Drawn c call pc) :
    StoreMove c s call s' := by
  have hnone : ∀ e ∈ ([] : List SignupEvent), silent e = true :=
    fun e he => absurd he List.not_mem_nil
  cases h with
  | called by_ a =>
    refine .quiet [.called by_ (normalizeEmail a.email) a.password] rfl rfl rfl ?_
    intro e he
    rw [List.mem_singleton.1 he]
    rfl
  | ignored email => exact .quiet [] rfl rfl rfl hnone
  | locked _ _ _ => exact .quiet [] rfl rfl rfl hnone
  | @confirmed by_ email code _ =>
    have hconfirmed := confirmStep_confirmed c s by_ email code
    generalize confirmStep c s by_ email code = r at hconfirmed ⊢
    cases hconfirmed with
    | refused _ => exact .quiet [] rfl rfl rfl hnone
    | guessed hcheck => exact .guessed hcheck
    | activated hcheck => exact .activated hcheck
  | elapsed time => exact .quiet [] rfl rfl rfl hnone
  | claimed hclaim =>
    unfold claimSignupMail at hclaim
    dsimp only at hclaim
    split at hclaim
    · split at hclaim <;> (cases hclaim; exact .quiet [] rfl rfl rfl hnone)
    · rename_i index
      split at hclaim
      · cases hclaim
        exact .quiet [] rfl rfl rfl hnone
      · cases hclaim
        refine .quiet [.granted (c.mailDigest call.email) s.accounts.now index] rfl rfl rfl ?_
        intro e he
        rw [List.mem_singleton.1 he]
        rfl
    · cases hclaim
      exact .quiet [] rfl rfl rfl hnone
    · cases hclaim
  | dropped => exact .quiet [] rfl rfl rfl hnone
  | missed _ _ => exact .quiet [] rfl rfl rfl hnone
  | signed hs _ hsigned =>
    obtain ⟨id, code, salts, ha⟩ := hs.args hpc
    exact signed_store ha hsigned
  | refused _ => exact .quiet [] rfl rfl rfl hnone
  | resent salts => exact endResend_store _ _ salts _
  | failed _ => exact .quiet [] rfl rfl rfl hnone

end Store

/-! ## A signup -/

/-- Hashes that begin with the name of the hasher. -/
def signupSettings : SignupSettings where
  spend := Spend.Proof.spendSettings
  decodeUid _ := none
  validatePassword _ := []
  checkActivationToken _ _ _ := false
  checkResetToken _ _ _ := false
  checkPassword guess encoded := encoded = "pbkdf2$" ++ guess
  makePassword _ text := "pbkdf2$" ++ text
  check_make salt text guess := by
    rw [decide_eq_true_iff]
    constructor
    · intro h
      have hlist := congrArg String.toList h
      rw [String.toList_append, String.toList_append] at hlist
      exact String.toList_inj.1 (List.append_cancel_left hlist).symm
    · rintro rfl
      rfl
  sha256 text := text

/-- Nobody has signed up. -/
def noSignups : SignupDb where
  accounts := ⟨.empty, [], fun _ => none, [], 0⟩
  cache := fun _ => none
  held := []
  log := []

/-- Bob's arguments, with a password. -/
def bobSignup (password : String) : SignupArgs := ⟨"bob@example.org", password, "Bob", ""⟩

/-- The steps of a `start_signup` that finds no user, of a thread. -/
def signsUp (p : Nat) (code : String) : List (Act SignupCall SignupInput) :=
  [.tick p .go, .tick p .go, .tick p .go, .tick p (.draw 1 code (fun _ => 0)), .tick p .go]

end Roamkit.Accounts.Proof
