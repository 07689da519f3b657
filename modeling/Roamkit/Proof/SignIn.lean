import Roamkit.Accounts.SignIn
import Roamkit.Lib.LetterCase
import Roamkit.Lib.Ucd
import Roamkit.Proof.Races

/-!
# One user for one address

Google sign-in writes an address in lower case; registrations and signups lower-case
its domain only. As long as what they are given is in lower case otherwise, every
address that is stored is, and a spelling of one finds the user who has it. The
addresses are within ASCII, where `str.lower` is read exactly.
-/

namespace Roamkit.Accounts.Proof

open Lib Billing Airalo Spend Billing.Proof Spend.Proof

/-! ## Addresses -/

/-- An address within ASCII without blanks around it, in lower case. -/
def Canonical (email : String) : Prop :=
  isAscii email = true ∧ PyText.lower (PyText.strip email) = email

/-- Two spellings of an address. -/
def Spells (email stored : String) : Prop := PyText.lower (PyText.strip email) = PyText.lower stored

/-- Within ASCII, `normalize_email` leaves no letter in upper case, and no blank around the
address. -/
def Plain (email : String) : Prop :=
  isAscii (PyText.strip email) = true ∧ normalizeEmail email = PyText.lower (PyText.strip email)

instance (email : String) : Decidable (Plain email) := inferInstanceAs (Decidable (_ ∧ _))

theorem isAscii_lower {s : String} (h : isAscii s = true) : isAscii (PyText.lower s) = true := by
  unfold isAscii PyText.lower at *
  rw [String.toList_ofList, List.all_map]
  refine List.all_eq_true.2 fun ch hch => decide_eq_true ?_
  have hlt : ch.toNat < 128 := of_decide_eq_true (List.all_eq_true.1 h ch hch)
  by_cases hupper : 65 ≤ ch.toNat ∧ ch.toNat ≤ 90
  · rw [PyText.toNat_toLower hupper]
    omega
  · rwa [PyText.toLower_of_not hupper]

variable (a : Signup) {email : String} {user : User} {attempt : Nat}

/-- An address within ASCII is canonical once it is stripped and lower-cased. -/
theorem canonical_lower_strip (h : isAscii (PyText.strip email) = true) :
    Canonical (PyText.lower (PyText.strip email)) :=
  ⟨isAscii_lower h, PyText.lower_strip_idem email⟩

/-- A text is what is before its end, and its end. -/
theorem take_append_suffix (front back : List Char) :
    (front ++ back).take ((front ++ back).length - back.length) ++ back = front ++ back := by
  have hlength : (front ++ back).length - back.length = front.length := by
    rw [List.length_append]
    omega
  rw [hlength, List.take_left' rfl]

theorem take_domain (cs : List Char) (p : Char → Bool) :
    cs.take (cs.length - (cs.reverse.takeWhile p).reverse.length)
      ++ (cs.reverse.takeWhile p).reverse = cs := by
  have hsplit : (cs.reverse.dropWhile p).reverse ++ (cs.reverse.takeWhile p).reverse = cs := by
    rw [← List.reverse_append, List.takeWhile_append_dropWhile, List.reverse_reverse]
  have htake := take_append_suffix (cs.reverse.dropWhile p).reverse (cs.reverse.takeWhile p).reverse
  rw [hsplit] at htake
  exact htake

/-- `normalize_email` has nothing to do in an address in lower case. -/
theorem normalizeEmail_lower (h : PyText.lower (PyText.strip email) = email) :
    normalizeEmail email = email := by
  have hlist : email.toList = (PyText.trim email.toList).map Char.toLower := by
    rw [← PyText.toList_lower_strip, h]
  have htrim : PyText.trim email.toList = email.toList := by
    rw [hlist, PyText.trim_lower, PyText.trim_trim]
  have hlower : ∀ ch ∈ email.toList, ch.toLower = ch := by
    intro ch hch
    rw [hlist] at hch
    obtain ⟨ch', _, rfl⟩ := List.mem_map.1 hch
    exact PyText.toLower_toLower ch'
  unfold normalizeEmail
  dsimp only
  rw [htrim]
  split
  · rfl
  · have hdomain : ∀ p : Char → Bool, (email.toList.reverse.takeWhile p).reverse.map Char.toLower
        = (email.toList.reverse.takeWhile p).reverse := by
      intro p
      refine List.map_congr_left (fun ch hch => hlower ch ?_) |>.trans (List.map_id' _)
      exact List.mem_reverse.1 (List.takeWhile_subset p (List.mem_reverse.1 hch))
    rw [hdomain, take_domain, String.ofList_toList]

theorem googleEmail_eq (email : String) : googleEmail email = PyText.lower (PyText.strip email) :=
  normalizeEmail_lower (PyText.lower_strip_idem email)

theorem canonical_googleEmail (h : isAscii (PyText.strip email) = true) :
    Canonical (googleEmail email) := by
  rw [googleEmail_eq]
  exact canonical_lower_strip h

theorem canonical_of_plain (h : Plain email) : Canonical (normalizeEmail email) := by
  rw [h.2]
  exact canonical_lower_strip h.1

theorem lower_of_canonical (h : Canonical email) : PyText.lower email = email := by
  have hlower : PyText.lower (PyText.lower (PyText.strip email))
      = PyText.lower (PyText.strip email) :=
    PyText.lower_lower _
  rwa [h.2] at hlower

/-! ## What is kept -/

/-- The addresses of all users are within ASCII and in lower case. -/
def CanonicalUsers (s : SignInDb) : Prop := ∀ u ∈ s.users, Canonical u.email

/-- The address a request comes with. -/
def enteredEmail? : RaceCall → Option String
  | .register email _ => some email
  | .signup a => some a.email
  | _ => none

/-- The address a request is about to insert or to look up. -/
def normalizedEmail? : RacePc → Option String
  | .missedUser email _ => some email
  | .claimed a => some a.email
  | .missedSignup a => some a.email
  | _ => none

/-- A user who has the subject of an identity has its address. -/
def SubjectAgrees (s : SignInDb) (identity : GoogleIdentity) : Prop :=
  ∀ link ∈ s.links, link.subject = identity.subject → ∀ u ∈ s.users, u.id = link.user →
    u.email = googleEmail identity.email

/-- The addresses of registrations and signups are plain, and Google's are in ASCII and agree with
the subjects. -/
def PlainSignIn (s : SignInDb) (t : SignInThread) (_ : RaceInput) : Prop :=
  match t with
  | .request r => ∀ email, enteredEmail? r.call = some email → Plain email
  | .google identity _ => isAscii (PyText.strip identity.email) = true ∧ SubjectAgrees s identity

/-- A request looks up and inserts the address it came with. -/
def SignInLocal (_ : SignInDb) : SignInThread → Prop
  | .request r => ∀ email, normalizedEmail? r.pc = some email →
      ∃ entered, enteredEmail? r.call = some entered ∧ email = normalizeEmail entered
  | .google _ _ => True

/-! ## What a step does to addresses -/

section Moves

variable {s s' : AccountsDb}

theorem registerFound_users (user : User) (invite : Bool) :
    ((registerFound user invite).atomic s).2.users = s.users := by
  unfold registerFound activeAccountResult
  cases user.isActive with
  | false => rfl
  | true =>
    cases invite with
    | true => rfl
    | false => cases user.password <;> rfl

theorem insertUser_users (h : s.insertUser user = .ok s') :
    ∀ u ∈ s'.users, u ∈ s.users ∨ u = user := by
  unfold AccountsDb.insertUser at h
  split at h
  · cases h
  rename_i users hi
  cases h
  exact fun u hu => (Table.mem_insert hi).1 hu

theorem insertUser_error {e : Exc} (h : s.insertUser user = .error e) : e = .integrity := by
  unfold AccountsDb.insertUser at h
  split at h
  · cases h
    rfl
  · cases h

theorem ensureBillingAccount_users (user : UserId) :
    (s.ensureBillingAccount user).users = s.users := by
  unfold AccountsDb.ensureBillingAccount
  split <;> rfl

/-- A signup writes the name and the password of the user it found. -/
theorem signupFound_cases (user : User) :
    ((signupFound a user).atomic s).2.users = s.users
      ∨ ((signupFound a user).atomic s).2.users
        = s.users.update (·.id = user.id) (resigned a) (fun _ _ h => h) := by
  unfold signupFound
  by_cases hactive : user.isActive = true
  · rw [if_pos hactive]
    exact .inl rfl
  · rw [if_neg hactive]
    refine .inr ?_
    show (s.resign a user.id).users = _
    unfold AccountsDb.resign AccountsDb.saveCode
    exact ensureBillingAccount_users user.id

theorem signupFound_users (user : User) :
    ∀ u' ∈ ((signupFound a user).atomic s).2.users, ∃ u ∈ s.users, u.email = u'.email := by
  intro u' hu'
  rcases signupFound_cases a user with hsame | hrow
  · rw [hsame] at hu'
    exact ⟨u', hu', rfl⟩
  · rw [hrow] at hu'
    obtain ⟨u, hu, ⟨_, rfl⟩ | ⟨_, rfl⟩⟩ := Table.of_mem_rewritten hu'
    · exact ⟨u, hu, rfl⟩
    · exact ⟨u', hu, rfl⟩

/-- A registration that found no user inserts one, or writes nothing. -/
theorem registerNew_cases (email : String) (invite : Bool) (id : UserId) :
    (((registerNew email invite id).atomic s).1 = .error .transactionManagement
        ∧ ((registerNew email invite id).atomic s).2.users = s.users)
      ∨ ∃ s₁, s.insertUser (registeredUser email id) = .ok s₁
        ∧ ((registerNew email invite id).atomic s).2.users = s₁.users := by
  cases hi : s.insertUser (registeredUser email id) with
  | ok s₁ =>
    have hins : (do return (← s.insertUser (registeredUser email id)).ensureBillingAccount id)
        = (.ok (s₁.ensureBillingAccount id) : Except Exc AccountsDb) := by
      rw [hi]
      rfl
    have hrun : registerNew email invite id ⟨s, false⟩ = (.ok .created,
        ⟨{ s₁.ensureBillingAccount id with
          mails := (s₁.ensureBillingAccount id).mails ++ [.activation email] }, false⟩) := by
      rw [registerNew, Stmt.tryInsert_ok hins]
      rfl
    refine .inr ⟨s₁, rfl, ?_⟩
    rw [Stmt.atomic_ok hrun]
    exact ensureBillingAccount_users id
  | error e =>
    have hins : (do return (← s.insertUser (registeredUser email id)).ensureBillingAccount id)
        = (.error .integrity : Except Exc AccountsDb) := by
      rw [hi, insertUser_error hi]
      rfl
    have hrun : registerNew email invite id ⟨s, false⟩
        = (.error .transactionManagement, ⟨s, true⟩) := by
      rw [registerNew, Stmt.tryInsert_integrity hins]
      rfl
    rw [Stmt.atomic_error hrun]
    exact .inl ⟨rfl, rfl⟩

theorem registerNew_users (invite : Bool) (id : UserId) :
    ∀ u ∈ ((registerNew email invite id).atomic s).2.users, u ∈ s.users ∨ u.email = email := by
  intro u hu
  rcases registerNew_cases email invite id with ⟨_, hsame⟩ | ⟨s₁, hi, hrow⟩
  · rw [hsame] at hu
    exact .inl hu
  · rw [hrow] at hu
    rcases insertUser_users hi u hu with hold | rfl
    · exact .inl hold
    · exact .inr rfl

/-- Another request inserted the email first, and its row is not there when it is read again. -/
theorem signupNew_missing {a : Signup} (hi : s.insertUser (signedUpUser a) = .error .integrity)
    (hfound : s.userOf a.email = none) :
    signupNew a ⟨s, false⟩ = (.error (.doesNotExist "User"), ⟨s, false⟩) := by
  rw [signupNew, Stmt.tryInsert_savepoint_integrity hi, Stmt.bind_eq, Stmt.read_open, hfound]
  rfl

/-- Another request inserted the email first, and its row is read again. -/
theorem signupNew_found {a : Signup} (hi : s.insertUser (signedUpUser a) = .error .integrity)
    (hfound : s.userOf a.email = some user) :
    signupNew a ⟨s, false⟩ = signupFound a user ⟨s, false⟩ := by
  rw [signupNew, Stmt.tryInsert_savepoint_integrity hi, Stmt.bind_eq, Stmt.read_open, hfound]

/-- A signup that found no user inserts one, or goes on with the one that was first. -/
theorem signupNew_cases :
    ((signupNew a).atomic s).2.users = s.users
      ∨ (∃ s₁, s.insertUser (signedUpUser a) = .ok s₁ ∧ ((signupNew a).atomic s).2.users = s₁.users)
      ∨ ∃ user, ((signupNew a).atomic s).2.users = ((signupFound a user).atomic s).2.users := by
  cases hi : s.insertUser (signedUpUser a) with
  | ok s₁ =>
    have hrun : signupNew a ⟨s, false⟩ = (.ok (),
        ⟨{ (s₁.ensureBillingAccount a.id).saveCode a.id a.codeHash with
          mails := ((s₁.ensureBillingAccount a.id).saveCode a.id a.codeHash).mails
            ++ [.signupCode a.email a.code] }, false⟩) := by
      rw [signupNew, Stmt.tryInsert_savepoint_ok hi]
      rfl
    refine .inr (.inl ⟨s₁, rfl, ?_⟩)
    rw [Stmt.atomic_ok hrun]
    exact ensureBillingAccount_users a.id
  | error e =>
    rw [insertUser_error hi] at hi
    cases hfound : s.userOf a.email with
    | none =>
      rw [Stmt.atomic_error (signupNew_missing hi hfound)]
      exact .inl rfl
    | some user =>
      rw [Stmt.atomic_congr (signupNew_found hi hfound)]
      exact .inr (.inr ⟨user, rfl⟩)

theorem signupNew_users :
    ∀ u' ∈ ((signupNew a).atomic s).2.users, (∃ u ∈ s.users, u.email = u'.email)
      ∨ u'.email = a.email := by
  intro u' hu'
  rcases signupNew_cases a with hsame | ⟨s₁, hi, hrow⟩ | ⟨user, hfound⟩
  · rw [hsame] at hu'
    exact .inl ⟨u', hu', rfl⟩
  · rw [hrow] at hu'
    rcases insertUser_users hi u' hu' with hold | rfl
    · exact .inl ⟨u', hold, rfl⟩
    · exact .inr rfl
  · rw [hfound] at hu'
    exact .inl (signupFound_users a user u' hu')

end Moves

section Steps

variable {c : SpendSettings} {s s' : RaceDb} {call : RaceCall} {pc pc' : RacePc} {x : RaceInput}

theorem lookUpUser_users (h : lookUpUser s call pc = some (s', pc')) :
    ∀ u' ∈ s'.accounts.users, ∃ u ∈ s.accounts.users, u.email = u'.email := by
  intro u' hu'
  unfold lookUpUser at h
  split at h
  · split at h
    · cases h
      exact ⟨u', hu', rfl⟩
    · rename_i email invite _ user _
      cases h
      have hrow : u' ∈ ((registerFound user invite).atomic s.accounts).2.users := hu'
      rw [registerFound_users] at hrow
      exact ⟨u', hrow, rfl⟩
  · split at h
    · cases h
      exact ⟨u', hu', rfl⟩
    · cases h
      exact signupFound_users _ _ u' hu'
  · cases h

/-- A user after a step of a request has an address that was there, or the one the request
inserts. -/
theorem racePc_users (h : racePc c s call pc x = some (s', pc')) :
    ∀ u' ∈ s'.accounts.users, (∃ u ∈ s.accounts.users, u.email = u'.email)
      ∨ normalizedEmail? pc = some u'.email := by
  intro u' hu'
  unfold racePc at h
  split at h
  · obtain ⟨_, _, heq⟩ := Option.map_eq_some_iff.1 h
    cases heq
    exact .inl ⟨u', hu', rfl⟩
  · obtain ⟨_, _, heq⟩ := Option.map_eq_some_iff.1 h
    cases heq
    exact .inl ⟨u', hu', rfl⟩
  · cases h
    exact .inl ⟨u', hu', rfl⟩
  · cases h
    exact .inl ⟨u', hu', rfl⟩
  · rename_i email invite id
    cases h
    rcases registerNew_users invite id u' hu' with hold | hnew
    · exact .inl ⟨u', hold, rfl⟩
    · exact .inr (congrArg some hnew.symm)
  · split at h
    · cases h
      exact .inl ⟨u', hu', rfl⟩
    · cases h
  · rename_i a
    cases h
    rcases signupNew_users a u' hu' with hold | hnew
    · exact .inl hold
    · exact .inr (congrArg some hnew.symm)
  · split at h
    · cases h
      obtain ⟨u, hu, ⟨_, rfl⟩ | ⟨_, rfl⟩⟩ := Table.of_mem_rewritten hu'
      · exact .inl ⟨u, hu, rfl⟩
      · exact .inl ⟨u', hu, rfl⟩
    · cases h
  · exact .inl (lookUpUser_users h u' hu')
  · split at h
    · cases h
      exact .inl ⟨u', hu', rfl⟩
    · cases h
  · split at h
    · cases h
      exact .inl ⟨u', hu', rfl⟩
    · cases h
  · cases h

theorem not_normalized_registration (r : Except Exc RegistrationResult) :
    normalizedEmail? (registration r) = none := by
  cases r <;> rfl

theorem not_normalized_signup (r : Except Exc Unit) : normalizedEmail? (signup r) = none := by
  cases r <;> rfl

/-- A request goes on with the address it came with. -/
theorem racePc_normalized (h : racePc c s call pc x = some (s', pc'))
    (hpc : normalizedEmail? pc' = some email) :
    normalizedEmail? pc = some email
      ∨ ∃ entered, enteredEmail? call = some entered ∧ email = normalizeEmail entered := by
  unfold racePc at h
  split at h
  · obtain ⟨pc₁, hlook, heq⟩ := Option.map_eq_some_iff.1 h
    cases heq
    unfold lookUpSpend at hlook
    split at hlook
    · split at hlook
      · cases hlook
      · split at hlook <;> cases hlook <;> cases hpc
    · split at hlook <;> cases hlook <;> cases hpc
    · cases hlook
  · obtain ⟨r, hr, heq⟩ := Option.map_eq_some_iff.1 h
    cases heq
    unfold spendStepOf at hr
    split at hr
    · cases hr
    · cases hr
    · obtain ⟨_, _, hr⟩ := Option.map_eq_some_iff.1 hr
      cases hr
      cases hpc
    · cases hr
  · cases h
    cases hpc
  · cases h
    cases hpc
  · cases h
    rw [not_normalized_registration] at hpc
    cases hpc
  · split at h
    · rename_i granted d a
      cases h
      split at hpc
      · exact .inr ⟨a.email, rfl, (Option.some.inj hpc).symm⟩
      · cases hpc
    · cases h
  · cases h
    rw [not_normalized_signup] at hpc
    cases hpc
  · split at h
    · cases h
      cases hpc
    · cases h
  · unfold lookUpUser at h
    split at h
    · split at h
      · rename_i entered _ _ _ _
        cases h
        exact .inr ⟨entered, rfl, (Option.some.inj hpc).symm⟩
      · cases h
        rw [not_normalized_registration] at hpc
        cases hpc
    · split at h
      · cases h
        exact .inl hpc
      · cases h
        rw [not_normalized_signup] at hpc
        cases hpc
    · cases h
  · split at h
    · cases h
      cases hpc
    · cases h
  · split at h
    · cases h
      cases hpc
    · cases h
  · cases h

end Steps

/-! ## Google -/

section Google

variable {s s' : SignInDb} {identity : GoogleIdentity} {pc pc' : GooglePc} {x : RaceInput}

theorem saveLink_rows (h : saveLink s user identity = some s') :
    s'.users = s.users.update (·.id = user.id) activated (fun _ _ h => h) := by
  unfold saveLink at h
  dsimp only at h
  split at h
  · cases h
    rfl
  · obtain ⟨_, _, heq⟩ := Option.map_eq_some_iff.1 h
    cases heq
    rfl

theorem saveLink_users (h : saveLink s user identity = some s') :
    ∀ u' ∈ s'.users, ∃ u ∈ s.users, u.email = u'.email := by
  intro u' hu'
  rw [saveLink_rows h] at hu'
  obtain ⟨u, hu, ⟨_, rfl⟩ | ⟨_, rfl⟩⟩ := Table.of_mem_rewritten hu'
  · exact ⟨u, hu, rfl⟩
  · exact ⟨u', hu, rfl⟩

theorem signInFound_users :
    ∀ u' ∈ (signInFound s user identity attempt).1.users, ∃ u ∈ s.users, u.email = u'.email := by
  intro u' hu'
  unfold signInFound at hu'
  split at hu'
  · exact ⟨u', hu', rfl⟩
  · split at hu'
    · exact ⟨u', hu', rfl⟩
    · rename_i hsave
      exact saveLink_users hsave u' hu'

theorem googleUser_email (email : String) (id : UserId) : (googleUser email id).email = email := rfl

theorem createUser_cases {id : UserId} (h : createUser s identity attempt id = (s', pc')) :
    s' = s ∨ ∃ accounts, s.race.accounts.insertUser (googleUser (googleEmail identity.email) id)
      = .ok accounts
      ∧ s'.users = accounts.users := by
  unfold createUser at h
  split at h
  · rename_i accounts links hi _
    have hs' := (Prod.mk.inj h).1
    refine .inr ⟨accounts, hi, ?_⟩
    rw [← hs']
    exact ensureBillingAccount_users id
  · exact .inl (Prod.mk.inj h).1.symm

theorem createUser_users {id : UserId} (h : createUser s identity attempt id = (s', pc')) :
    ∀ u ∈ s'.users, u ∈ s.users ∨ u.email = googleEmail identity.email := by
  intro u hu
  rcases createUser_cases h with rfl | ⟨accounts, hi, hsame⟩
  · exact .inl hu
  · rw [hsame] at hu
    rcases insertUser_users hi u hu with hold | hnew
    · exact .inl hold
    · right
      rw [hnew, googleUser_email]

theorem googlePc_users (h : googlePc s identity pc x = some (s', pc')) :
    ∀ u' ∈ s'.users, (∃ u ∈ s.users, u.email = u'.email)
      ∨ u'.email = googleEmail identity.email := by
  intro u' hu'
  unfold googlePc at h
  split at h
  · cases h
    exact .inl ⟨u', hu', rfl⟩
  · rename_i attempt
    have hstep : seekEmail s identity attempt = (s', pc') := Option.some.inj h
    unfold seekEmail at hstep
    split at hstep
    · cases hstep
      exact .inl ⟨u', hu', rfl⟩
    · rename_i user _
      have hs' : (signInFound s user identity attempt).1 = s' := congrArg Prod.fst hstep
      exact .inl (signInFound_users u' (hs' ▸ hu'))
  · rcases createUser_users (Option.some.inj h) u' hu' with hold | hnew
    · exact .inl ⟨u', hold, rfl⟩
    · exact .inr hnew
  · split at h
    · cases h
      exact .inl ⟨u', hu', rfl⟩
    · cases h
  · split at h
    · cases h
      exact .inl ⟨u', hu', rfl⟩
    · cases h
  · cases h

end Google

/-! ## The headline -/

theorem signInInvariant (c : SpendSettings) :
    Invariant (signInProgram c) CanonicalUsers PlainSignIn CanonicalUsers SignInLocal
      (fun _ _ => True) where
  init h := h
  start call _ := by
    cases call with
    | google identity => trivial
    | request call =>
      intro email hpc
      cases call <;> cases hpc
  apart_start _ _ := trivial
  symm _ := trivial
  step := by
    intro s t x s' t' hG hL hok hstep
    cases t with
    | request r =>
      obtain ⟨⟨race, r'⟩, hrace, heq⟩ := Option.map_eq_some_iff.1 hstep
      obtain ⟨hs', ht'⟩ := Prod.mk.inj heq
      subst hs' ht'
      obtain ⟨⟨race₁, pc'⟩, hpc, heq⟩ := Option.map_eq_some_iff.1 hrace
      obtain ⟨hrace₁, hr'⟩ := Prod.mk.inj heq
      subst hrace₁ hr'
      refine ⟨?_, ?_⟩
      · intro u' hu'
        rcases racePc_users hpc u' hu' with ⟨u, hu, hsame⟩ | hnew
        · exact hsame ▸ hG u hu
        · obtain ⟨entered, hentered, hemail⟩ := hL _ hnew
          rw [hemail]
          exact canonical_of_plain (hok entered hentered)
      · intro email hemail
        rcases racePc_normalized hpc hemail with hbefore | hentered
        · exact hL email hbefore
        · exact hentered
    | google identity pc =>
      obtain ⟨⟨s₁, pc'⟩, hpc, heq⟩ := Option.map_eq_some_iff.1 hstep
      obtain ⟨hs', ht'⟩ := Prod.mk.inj heq
      subst hs' ht'
      refine ⟨?_, trivial⟩
      intro u' hu'
      rcases googlePc_users hpc u' hu' with ⟨u, hu, hsame⟩ | hnew
      · exact hsame ▸ hG u hu
      · rw [hnew]
        exact canonical_googleEmail hok.1
  frame := by
    intro s t x s' t' u _ _ _ _ hu _
    refine ⟨?_, trivial⟩
    cases u with
    | request r => exact hu
    | google identity pc => trivial

/-- What the entry points do with an address: each goes on with the user. -/
structure Resolves (s : SignInDb) (u : User) (email : String) : Prop where
  /-- `register_user` -/
  register : Plain email → ∀ invite, lookUpUser s.race (.register email invite) .asked
    = some (s.race.run (registerFound u invite) registration)
  /-- `start_signup` -/
  signup : ∀ a : SignupArgs, a.email = email → Plain email
    → ∀ d, lookUpUser s.race (.signup a) (.claimed (a.signup d))
    = some (s.race.run (signupFound (a.signup d) u) signup)
  /-- `_resolve_user`, by the subject if a user has it, -/
  subject : ∀ identity : GoogleIdentity, identity.email = email → SubjectAgrees s identity
    → ∀ attempt,
    seekSubject s identity attempt = .missedSubject attempt
      ∨ seekSubject s identity attempt = signInLinked u
  /-- and by the address. -/
  address : ∀ identity : GoogleIdentity, identity.email = email → ∀ attempt,
    seekEmail s identity attempt = signInFound s u identity attempt

theorem resolves {s : SignInDb} (h : CanonicalUsers s) {u : User} (hu : u ∈ s.users)
    (hspells : Spells email u.email) : Resolves s u email := by
  have hlower : PyText.lower (PyText.strip email) = u.email :=
    hspells.trans (lower_of_canonical (h u hu))
  have hfound : s.race.accounts.userOf u.email = some u := userOf_of_mem hu
  refine ⟨?_, ?_, ?_, ?_⟩
  · intro hplain invite
    have hemail : normalizeEmail email = u.email := hplain.2.trans hlower
    unfold lookUpUser
    dsimp only
    rw [hemail, hfound]
  · intro a ha hplain d
    have hemail : (a.signup d).email = u.email := by
      show normalizeEmail a.email = u.email
      rw [ha]
      exact hplain.2.trans hlower
    rw [lookUpUser_claimed, hemail, hfound]
  · intro identity hidentity hagrees attempt
    have hemail : googleEmail identity.email = u.email := by
      rw [hidentity, googleEmail_eq]
      exact hlower
    unfold seekSubject
    cases hlink : s.links.find? (·.subject = identity.subject) with
    | none => exact .inl rfl
    | some link =>
      dsimp only
      cases huser : s.users.find? (·.id = link.user) with
      | none => exact .inl rfl
      | some w =>
        have hsubject : link.subject = identity.subject := by simpa using Table.prop_of_find? hlink
        have hid : w.id = link.user := by simpa using Table.prop_of_find? huser
        have hw := Table.mem_of_find? huser
        have hwemail := hagrees link (Table.mem_of_find? hlink) hsubject w hw hid
        have hsame : w = u := Table.eq_of_clash hw hu (.inr (hwemail.trans hemail))
        rw [hsame]
        exact .inr rfl
  · intro identity hidentity attempt
    have hemail : googleEmail identity.email = u.email := by
      rw [hidentity, googleEmail_eq]
      exact hlower
    unfold seekEmail
    rw [hemail, hfound]

/--
**One user for one address.** As long as addresses are within ASCII, and those given to
registrations and signups have no letter in upper case but in the domain, no two users
have one address but for its case, and every entry point goes on with the user who has it.
-/
theorem sign_in_sound {c : SpendSettings} {g : Config SignInDb SignInThread}
    (h : (signInProgram c).ReachWhere CanonicalUsers PlainSignIn g) :
    (∀ u ∈ g.store.users, ∀ v ∈ g.store.users, PyText.lower u.email = PyText.lower v.email → u = v)
      ∧ ∀ u ∈ g.store.users, ∀ email, Spells email u.email → Resolves g.store u email := by
  have hinv : CanonicalUsers g.store := ((signInInvariant c).reach h).store
  refine ⟨?_, fun u hu email hspells => resolves hinv hu hspells⟩
  intro u hu v hv hlower
  rw [lower_of_canonical (hinv u hu), lower_of_canonical (hinv v hv)] at hlower
  exact Table.eq_of_clash hu hv (.inr hlower)

/-! ## Two spellings -/

def noSignIns : SignInDb := ⟨noRaces, .empty⟩

theorem canonical_noSignIns : CanonicalUsers noSignIns :=
    fun u hu => absurd hu (Table.not_mem_empty u)

/-- A registration, and then a Google login with the address in lower case. -/
def twoSpellings (entered : String) : List (Act SignInCall RaceInput) :=
  [.call 0 (.request (.register entered false)), .tick 0 .lookUp, .tick 0 (.user 1),
    .call 1 (.google ⟨"110169484474386276334", "bob@example.org"⟩), .tick 1 .lookUp,
      .tick 1 .lookUp]

/-- A step meets the condition, as a check; no user has the subject yet. -/
def plainSignIn (s : SignInDb) (t : SignInThread) (_ : RaceInput) : Bool :=
  match t with
  | .request r => (enteredEmail? r.call).all fun email => decide (Plain email)
  | .google identity _ => isAscii (PyText.strip identity.email)
      && s.links.rows.all fun link => decide (link.subject ≠ identity.subject)

theorem plainSignIn_check (s : SignInDb) (t : SignInThread) (x : RaceInput)
    (h : plainSignIn s t x = true) :
    PlainSignIn s t x := by
  cases t with
  | request r =>
    intro email hemail
    have hall : (enteredEmail? r.call).all (fun email => decide (Plain email)) = true := h
    rw [hemail, Option.all_some, decide_eq_true_iff] at hall
    exact hall
  | google identity pc =>
    obtain ⟨hascii, hall⟩ := Bool.and_eq_true_iff.1 h
    refine ⟨hascii, fun link hlink hsubject => ?_⟩
    have hne : link.subject ≠ identity.subject :=
      of_decide_eq_true (List.all_eq_true.1 hall link hlink)
    exact absurd hsubject hne

theorem sign_in_sound_registered :
    ∃ (g : Config SignInDb SignInThread) (u : User), u ∈ g.store.users ∧ u.email = "bob@example.org"
    ∧ Resolves g.store u "Bob@Example.org" := by
  have hrun : ∃ g, (signInProgram spendSettings).ReachWhere CanonicalUsers PlainSignIn g
      ∧ (g.store.users.rows.any fun u => u.email = "bob@example.org") = true :=
    Program.reachWhere_check plainSignIn plainSignIn_check
      canonical_noSignIns (twoSpellings "bob@example.org") _ (by decide)
  obtain ⟨g, hg, hany⟩ := hrun
  obtain ⟨u, hu, hemail⟩ := List.any_eq_true.1 hany
  have hemail := of_decide_eq_true hemail
  have hspells : Spells "Bob@Example.org" u.email := by
    rw [hemail, Spells]
    decide
  exact ⟨g, u, hu, hemail, (sign_in_sound hg).2 u hu _ hspells⟩

/--
**Two users with one address.** `register_user` keeps the case of the part before the
`@`, and Google sign-in then misses the user and creates another.
-/
theorem two_users : ∃ g, (signInProgram spendSettings).Reach CanonicalUsers g
    ∧ ∃ u ∈ g.store.users, ∃ v ∈ g.store.users, PyText.lower u.email = PyText.lower v.email
      ∧ u ≠ v := by
  obtain ⟨g, hr, hg⟩ := Program.run_check (signInProgram spendSettings) noSignIns
    (twoSpellings "Bob@example.org" ++ [.tick 1 (.user 2)])
    (fun g => decide (g.store.users.rows.map User.email = ["Bob@example.org", "bob@example.org"]))
    (by decide)
  have hemails := of_decide_eq_true hg
  have hreach : (signInProgram spendSettings).Reach CanonicalUsers g :=
    Program.reach_run canonical_noSignIns hr
  obtain ⟨u, hu, huemail⟩ := List.mem_map.1
    (hemails ▸ List.mem_cons_self : "Bob@example.org" ∈ g.store.users.rows.map User.email)
  obtain ⟨v, hv, hvemail⟩ := List.mem_map.1
    (hemails ▸ List.mem_cons_of_mem _ List.mem_cons_self : "bob@example.org"
      ∈ g.store.users.rows.map User.email)
  refine ⟨g, hreach, u, hu, v, hv, ?_, ?_⟩
  · rw [huemail, hvemail]
    decide
  · rintro rfl
    rw [huemail] at hvemail
    exact absurd hvemail (by decide)

end Roamkit.Accounts.Proof
