import Roamkit.Accounts.Races
import Roamkit.Proof.Locks

/-!
# Who loses a race

A request that finds the key or the address of another gives the documented
answer. So does one that looked it up before the other committed, if its insert
has a savepoint; without one the answer is a broken transaction. The handlers of
`OrderService`, `TopupService` and `register_user` have none, and `start_signup`
has one.
-/

namespace Roamkit.Accounts.Proof

open Lib Billing Airalo Spend Billing.Proof Spend.Proof

/-! ## A reservation in its two parts -/

variable {e : Exc} {amount : PyDecimal}

section Reserving

variable {c : SpendSettings} {s : SpendDb}

/-- **The rest of an order's reservation is the reservation of a look-up that raced.** -/
theorem newOrder_atomic (a : FulfillArgs) (d : Draw Nat) :
    (newOrder c a d).atomic s =
      match reserveOrder c s a { d with raced := true } with
      | .error e => (.error e, s)
      | .ok (s', r) => (.ok r, s') := by
  unfold reserveOrder
  cases hp : resolvePackageCharge c s a.spendAccount a.package d.profile with
  | error e =>
    have hread : newOrder c a d ⟨s, false⟩ = (.error e, ⟨s, false⟩) := by
      rw [newOrder, Stmt.bind_eq, Stmt.read_open, hp]
      rfl
    exact Stmt.atomic_error hread
  | ok charge =>
    simp only [if_true, bind, Except.bind]
    generalize horder : a.newOrder d.id charge.1 charge.2 s.now = order
    have hread : newOrder c a d ⟨s, false⟩
        = (Stmt.tryInsert (.write (insertOrder order)) (recoverOrder a) fun _ => do
            Stmt.write (debitOrder c a order)
            return .fresh order : Stmt SpendDb Exc (Reserved Order)) ⟨s, false⟩ := by
      rw [newOrder, Stmt.bind_eq, Stmt.read_open, hp, ← horder]
      rfl
    rw [Stmt.atomic_congr hread, recoverOrder, Stmt.atomic_tryInsert]
    unfold insertOrder
    by_cases hfits : order.fits = true
    · rw [if_neg (not_not.2 hfits), if_neg (not_not.2 hfits)]
      cases hi : s.orders.insert? order with
      | none => rfl
      | some orders =>
        dsimp only
        unfold debitOrder
        by_cases hskip : a.skipPayment = true
        · rw [if_pos hskip, if_pos hskip]
          by_cases hacc : (s.books.accounts.find? (·.id = order.account)).isNone = true
          · rw [if_pos hacc, if_pos hacc]
          · rw [if_neg hacc, if_neg hacc]
        · rw [if_neg hskip, if_neg hskip]
          by_cases hb : c.billingEnabled = true
          · rw [if_neg (not_not.2 hb), if_neg (not_not.2 hb)]
            simp only [bind, Except.bind, pure, Except.pure]
            generalize preparePosting _ _ _ _ _ _ = posting
            cases posting with
            | error e => rfl
            | ok p =>
              dsimp only
              cases s.books.apply p <;> rfl
          · rw [if_pos hb, if_pos hb]
    · rw [if_pos hfits, if_pos hfits]
      rfl

section Topups

variable {a : PurchaseArgs} {package : TopupPackage} {d : Draw Uuid}

theorem newTopup_unpriced (hp : priceTopup c a package d s = .error e) :
    (newTopup c a package d).atomic s = (.error e, s) := by
  have hread : newTopup c a package d ⟨s, false⟩ = (.error e, ⟨s, false⟩) := by
    rw [newTopup, Stmt.bind_eq, Stmt.read_open, hp]
  exact Stmt.atomic_error hread

/-- An amount that the check constraint refuses breaks the transaction too. -/
theorem newTopup_refused (hp : priceTopup c a package d s = .ok (amount, none)) :
    (newTopup c a package d).atomic s = (.error .transactionManagement, s) := by
  have hread : newTopup c a package d ⟨s, false⟩ = (.error .transactionManagement, ⟨s, true⟩) := by
    rw [newTopup, Stmt.bind_eq, Stmt.read_open, hp]
    rfl
  exact Stmt.atomic_error hread

theorem newTopup_priced {topup : Topup}
    (hp : priceTopup c a package d s = .ok (amount, some topup)) :
    (newTopup c a package d).atomic s =
      match insertTopupRow (some topup) s with
      | .error e => (.error (if e = .integrity then .transactionManagement else e), s)
      | .ok s₁ =>
        match debitTopup topup amount s₁ with
        | .error e => (.error e, s)
        | .ok s₂ => (.ok (.fresh topup), s₂) := by
  have hread : newTopup c a package d ⟨s, false⟩
      = (Stmt.tryInsert (.write (insertTopupRow (some topup))) (recoverTopup a) fun _ => do
          Stmt.write (debitTopup topup amount)
          return .fresh topup : Stmt SpendDb Exc (Reserved Topup)) ⟨s, false⟩ := by
    rw [newTopup, Stmt.bind_eq, Stmt.read_open, hp]
  rw [Stmt.atomic_congr hread, recoverTopup, Stmt.atomic_tryInsert]
  cases insertTopupRow (some topup) s with
  | error e => rfl
  | ok s₁ =>
    dsimp only
    cases debitTopup topup amount s₁ <;> rfl

end Topups

end Reserving

/-! ## What a price may raise -/

theorem moneyRound_raises {d : PyDecimal} (h : Pricing.moneyRound d = .error e) :
    e = .invalidOperation := by
  unfold Pricing.moneyRound at h
  split at h
  · split at h <;> cases h
    rfl
  · cases h
    rfl

/-- A price that was rounded and is wrapped in a quote. -/
theorem quoted_raises {x : Except Exc Int} {f : Int → Pricing.PricingQuote}
    (hx : x = .error e → e = .invalidOperation)
    (h : (do return f (← x) : Except Exc Pricing.PricingQuote) = .error e) :
    e = .invalidOperation := by
  rcases bind_error h with h | ⟨_, _, h⟩
  · exact hx h
  · cases h

theorem resolve_raises {flag : Bool} {ctx : Pricing.PricingContext}
    (h : Pricing.resolve flag ctx = .error e) : e = .invalidOperation := by
  unfold Pricing.resolve at h
  rcases bind_error h with h | ⟨listPrice, _, h⟩
  · exact moneyRound_raises h
  rcases bind_error h with h | ⟨_, _, h⟩
  · cases hnet : ctx.netPrice with
    | none =>
      rw [hnet] at h
      cases h
    | some net =>
      rw [hnet] at h
      rcases bind_error h with h | ⟨_, _, h⟩
      · exact moneyRound_raises h
      · cases h
  · cases hprofile : ctx.profile with
    | none =>
      rw [hprofile] at h
      cases h
    | some p =>
      rw [hprofile] at h
      dsimp only at h
      split at h
      · cases h
      split at h
      · cases h
      split at h
      · exact quoted_raises moneyRound_raises h
      · split at h
        · cases h
        rcases bind_error h with h | ⟨netPrice, _, h⟩
        · exact moneyRound_raises h
        · split at h
          · cases h
          refine quoted_raises ?_ h
          rw [Pricing.marginShareCustomer]
          exact moneyRound_raises

/-! ## A request that lost -/

section Losing

variable {c : SpendSettings} {s : SpendDb}

theorem resolvePackageCharge_raises {account : Uuid} {package : Package}
    {profile : Option Pricing.PricingProfile}
    (h : resolvePackageCharge c s account package profile = .error e) (m : String) :
    e ≠ .spendInProgress m := by
  unfold resolvePackageCharge at h
  split at h
  · cases h
  split at h
  · cases h
    nofun
  · rcases bind_error h with h | ⟨_, _, h⟩
    · rw [resolve_raises h]
      nofun
    · cases h

theorem resolveTopupCharge_raises {account : Uuid} {package : TopupPackage}
    {profile : Option Pricing.PricingProfile}
    (h : resolveTopupCharge c s account package profile = .error e) (m : String) :
    e ≠ .spendInProgress m := by
  unfold resolveTopupCharge at h
  split at h
  · cases h
  split at h
  · cases h
    nofun
  · rcases bind_error h with h | ⟨_, _, h⟩
    · rw [resolve_raises h]
      nofun
    · cases h

theorem columns_raises {a : PurchaseArgs} {package : TopupPackage}
    (h : a.columns package amount = .error e) (m : String) : e ≠ .spendInProgress m := by
  unfold PurchaseArgs.columns at h
  split at h
  · split at h
    · cases h
    · cases h
      nofun
  · cases h
    nofun

/-- An order whose key stands is not told of it by its insert. -/
theorem newOrder_loses {a : FulfillArgs} (d : Draw Nat) {o : Order} (ho : o ∈ s.orders)
    (hne : o.idempotencyKey ≠ none) (hkey : o.idempotencyKey = nonempty a.idempotencyKey) :
    ∃ e, ((newOrder c a d).atomic s).1 = .error e ∧ ∀ m, e ≠ .spendInProgress m := by
  rw [newOrder_atomic]
  unfold reserveOrder
  cases hp : resolvePackageCharge c s a.spendAccount a.package d.profile with
  | error e => exact ⟨e, rfl, resolvePackageCharge_raises hp⟩
  | ok charge =>
    have hi : s.orders.insert? (a.newOrder d.id charge.1 charge.2 s.now) = none := by
      cases hi : s.orders.insert? (a.newOrder d.id charge.1 charge.2 s.now) with
      | none => rfl
      | some orders => exact absurd (.inr ⟨hne, hkey⟩) (Table.apart_of_insert hi ho)
    simp only [if_true, bind, Except.bind]
    by_cases hfits : (a.newOrder d.id charge.1 charge.2 s.now).fits = true
    · rw [if_neg (not_not.2 hfits), hi]
      exact ⟨_, rfl, nofun⟩
    · rw [if_pos hfits]
      exact ⟨_, rfl, nofun⟩

/-- A top-up whose key stands is not told of it by its insert. -/
theorem newTopup_loses {a : PurchaseArgs} {package : TopupPackage} (d : Draw Uuid) {u : Topup}
    (hu : u ∈ s.topups) (hkey : u.idempotencyKey = a.idempotencyKey) :
    ∃ e, ((newTopup c a package d).atomic s).1 = .error e ∧ ∀ m, e ≠ .spendInProgress m := by
  cases hp : priceTopup c a package d s with
  | error e =>
    rw [newTopup_unpriced hp]
    refine ⟨e, rfl, ?_⟩
    intro m
    unfold priceTopup at hp
    split at hp
    · cases hp
      nofun
    · split at hp
      · cases hp
        nofun
      · rcases bind_error hp with hp | ⟨amount, _, hp⟩
        · exact resolveTopupCharge_raises hp m
        · rcases bind_error hp with hp | ⟨_, _, hp⟩
          · exact columns_raises hp m
          · cases hp
  | ok priced =>
    obtain ⟨amount, row⟩ := priced
    cases row with
    | none =>
      rw [newTopup_refused hp]
      exact ⟨_, rfl, nofun⟩
    | some topup =>
      have htopup : topup.idempotencyKey = a.idempotencyKey := by
        unfold priceTopup at hp
        split at hp
        · cases hp
        split at hp
        · cases hp
        obtain ⟨_, _, hp⟩ := bind_ok hp
        obtain ⟨stored, _, hp⟩ := bind_ok hp
        cases stored with
        | none => cases hp
        | some stored =>
          cases hp
          rfl
      have hi : insertTopupRow (some topup) s = .error .integrity := by
        unfold insertTopupRow
        dsimp only
        cases hi : s.topups.insert? topup with
        | none => rfl
        | some topups =>
          exact absurd (.inr (.inl (hkey.trans htopup.symm))) (Table.apart_of_insert hi hu)
      rw [newTopup_priced hp, hi]
      exact ⟨_, rfl, nofun⟩

end Losing

/-! ## An address that is taken -/

section Users

variable {s : AccountsDb} {user : User}

/-- What is answered to a registration with the address of a user. -/
def existingAnswer (user : User) (invite : Bool) : RegistrationResult :=
  if user.isActive ∧ invite then .accountExistsForInvite else .existing

theorem registerFound_answers (user : User) (invite : Bool) :
    ((registerFound user invite).atomic s).1 = .ok (existingAnswer user invite) := by
  unfold registerFound existingAnswer
  by_cases hactive : user.isActive = true
  · rw [if_pos hactive]
    unfold activeAccountResult
    cases invite with
    | true =>
      rw [if_pos rfl, if_pos ⟨hactive, rfl⟩]
      rfl
    | false =>
      have hinvite : ¬ (user.isActive = true ∧ false = true) := fun h => Bool.false_ne_true h.2
      rw [if_neg Bool.false_ne_true, if_neg hinvite]
      by_cases hpassword : user.password.isSome = true
      · rw [if_pos hpassword]
        rfl
      · rw [if_neg hpassword]
        rfl
  · rw [if_neg hactive, if_neg (fun h => hactive h.1)]
    rfl

theorem signupFound_answers (a : Signup) (user : User) :
    ((signupFound a user).atomic s).1 = .ok () := by
  unfold signupFound
  by_cases hactive : user.isActive = true
  · rw [if_pos hactive]
    rfl
  · rw [if_neg hactive]
    rfl

theorem userOf_of_mem (hu : user ∈ s.users) : s.userOf user.email = some user :=
  Table.find?_of_mem hu (by simp) fun x hx => .inr (of_decide_eq_true hx)

theorem insertUser_taken {u : User} (hu : u ∈ s.users) (hemail : u.email = user.email) :
    s.insertUser user = .error .integrity := by
  unfold AccountsDb.insertUser
  cases hi : s.users.insert? user with
  | none => rfl
  | some users => exact absurd (.inr hemail) (Table.apart_of_insert hi hu)

/-- **`register_user` ends in a broken transaction** when its look-up missed a user. -/
theorem registerNew_loses {email : String} (invite : Bool) (id : UserId) (hu : user ∈ s.users)
    (hemail : user.email = email) :
    ((registerNew email invite id).atomic s).1 = .error .transactionManagement := by
  have hins : (do return (← s.insertUser (registeredUser email id)).ensureBillingAccount id)
      = (.error .integrity : Except Exc AccountsDb) := by
    rw [insertUser_taken hu (hemail.trans rfl)]
    rfl
  have hrun : registerNew email invite id ⟨s, false⟩
      = (.error .transactionManagement, ⟨s, true⟩) := by
    rw [registerNew, Stmt.tryInsert_integrity hins]
    rfl
  rw [Stmt.atomic_error hrun]

/-- **`start_signup` goes on with the user its look-up missed.** -/
theorem signupNew_answers {a : Signup} (hu : user ∈ s.users) (hemail : user.email = a.email) :
    ((signupNew a).atomic s).1 = .ok () := by
  have hrun : signupNew a ⟨s, false⟩ = signupFound a user ⟨s, false⟩ := by
    rw [signupNew, Stmt.tryInsert_savepoint_integrity (insertUser_taken hu (hemail.trans rfl)),
      Stmt.bind_eq, Stmt.read_open, ← hemail, userOf_of_mem hu]
  rw [Stmt.atomic_congr hrun]
  exact signupFound_answers a user

end Users

/-! ## The answers of a run -/

/-- What a purchase is told whose key has a row. -/
def keyAnswer (inProgress : Prop) [Decidable inProgress] (message : String) (row : Row) : RacePc :=
  .spending (if inProgress then .refused (.spendInProgress message) else .replayed row)

/--
What is documented for a request that meets the key or the address of another, at
its look-up or after it. It is a replay, `SpendInProgressError`, or the answer for
a user who exists.
-/
inductive Documented (c : SpendSettings) (s : RaceDb) :
    RaceCall → RacePc → RaceInput → RacePc → Prop
  | order {a : FulfillArgs} {o : Order} : o ∈ s.spend.orders → o.idempotencyKey ≠ none →
      o.idempotencyKey = nonempty a.idempotencyKey →
      Documented c s (.spend (.fulfill a)) (.spending .asked) .lookUp
        (keyAnswer (o.status = .fulfilling) "Order request is still in progress" (.order o))
  | missedOrder {call : RaceCall} {a : FulfillArgs} {o : Order} {d : Draw Nat} :
      o ∈ s.spend.orders → o.idempotencyKey ≠ none → o.idempotencyKey = nonempty a.idempotencyKey →
      Documented c s call (.missedOrder a) (.order d)
        (keyAnswer (o.status = .fulfilling) "Order request is still in progress" (.order o))
  | topup {call : RaceCall} {a : PurchaseArgs} {package : TopupPackage} {u : Topup} :
      c.billingEnabled = true → u ∈ s.spend.topups → u.idempotencyKey = a.idempotencyKey →
      Documented c s call (.spending (.reserving a package)) .lookUp
        (keyAnswer (u.status = .fulfilling) "Top-up request is still in progress" (.topup u))
  | missedTopup {call : RaceCall} {a : PurchaseArgs} {package : TopupPackage} {u : Topup}
      {d : Draw Uuid} : c.billingEnabled = true → u ∈ s.spend.topups →
      u.idempotencyKey = a.idempotencyKey →
      Documented c s call (.missedTopup a package) (.topup d)
        (keyAnswer (u.status = .fulfilling) "Top-up request is still in progress" (.topup u))
  | user {email : String} {invite : Bool} {user : User} : user ∈ s.accounts.users →
      user.email = normalizeEmail email →
      Documented c s (.register email invite) .asked .lookUp
        (.registered (existingAnswer user invite))
  | missedUser {call : RaceCall} {email : String} {invite : Bool} {user : User} {id : UserId} :
      user ∈ s.accounts.users → user.email = email →
      Documented c s call (.missedUser email invite) (.user id)
        (.registered (existingAnswer user invite))
  | signup {call : RaceCall} {a : Signup} {user : User} : user ∈ s.accounts.users →
      user.email = a.email → Documented c s call (.claimed a) .lookUp .signedUp
  | missedSignup {call : RaceCall} {a : Signup} {user : User} : user ∈ s.accounts.users →
      user.email = a.email → Documented c s call (.missedSignup a) .go .signedUp

/--
What a look-up found is still so when the row is inserted: nobody has committed a
row with the key or the address in between. A signup does not depend on it.
-/
def LookUpCurrent (s : RaceDb) : RacePc → RaceInput → Prop
  | .missedOrder a, .order _ => ∀ o ∈ s.spend.orders, o.idempotencyKey ≠ none →
      o.idempotencyKey ≠ nonempty a.idempotencyKey
  | .missedTopup a _, .topup _ => ∀ u ∈ s.spend.topups, u.idempotencyKey ≠ a.idempotencyKey
  | .missedUser email _, .user _ => ∀ user ∈ s.accounts.users, user.email ≠ email
  | _, _ => True

theorem orderOfKey_of_mem {s : SpendDb} {o : Order} (ho : o ∈ s.orders)
    (hne : o.idempotencyKey ≠ none) : s.orderOfKey o.idempotencyKey = some o := by
  rw [SpendDb.orderOfKey, if_neg hne]
  refine Table.find?_of_mem ho (by simp) fun x hx => ?_
  have hkey : x.idempotencyKey = o.idempotencyKey := of_decide_eq_true hx
  exact .inr ⟨hkey ▸ hne, hkey⟩

theorem topupOfKey_of_mem {s : SpendDb} {u : Topup} (hu : u ∈ s.topups) :
    s.topups.find? (·.idempotencyKey = u.idempotencyKey) = some u :=
  Table.find?_of_mem hu (by simp) fun _ hx => .inr (.inl (of_decide_eq_true hx))

section Answers

variable {c : SpendSettings} {s s' : RaceDb} {call : RaceCall} {pc pc' pc'' : RacePc}
  {x : RaceInput}

theorem lookUpSpend_reserving (s : SpendDb) (a : PurchaseArgs) (package : TopupPackage) :
    lookUpSpend c s call (.reserving a package) =
      match lookUpTopup c s a with
      | .error e => some (.spending (.refused e))
      | .ok (some existing) => some (.spending (.replayed (.topup existing)))
      | .ok none => some (.missedTopup a package) := by
  cases call with
  | spend call => cases call <;> rfl
  | _ => rfl

theorem lookUpUser_claimed (a : Signup) :
    lookUpUser s call (.claimed a) =
      match s.accounts.userOf a.email with
      | none => some (s, .missedSignup a)
      | some user => some (s.run (signupFound a user) signup) := by
  cases call <;> rfl

/-- **A look-up that finds a row gives the documented answer**, and so does a signup's insert. -/
theorem documented_of_current (hcur : LookUpCurrent s pc x)
    (hs : racePc c s call pc x = some (s', pc')) (hdoc : Documented c s call pc x pc'') :
    pc' = pc'' := by
  cases hdoc with
  | @order a o ho hne hkey =>
    have hlook : lookUpSpend c s.spend (.spend (.fulfill a)) .asked
        = some (.spending (reserved .order (.order a) (replayOrder o))) := by
      unfold lookUpSpend
      dsimp only
      rw [if_neg (fun h => hne (hkey.trans h.2)), ← hkey, orderOfKey_of_mem ho hne]
    unfold racePc at hs
    dsimp only at hs
    rw [hlook] at hs
    cases hs
    unfold replayOrder keyAnswer
    by_cases hstatus : o.status = .fulfilling
    · rw [if_pos hstatus, if_pos hstatus]
      rfl
    · rw [if_neg hstatus, if_neg hstatus]
      rfl
  | missedOrder ho hne hkey => exact absurd hkey (hcur _ ho hne)
  | @topup _ a package u hb hu hkey =>
    have hlook : lookUpTopup c s.spend a = if u.status = .fulfilling then
        .error (.spendInProgress "Top-up request is still in progress") else .ok (some u) := by
      rw [lookUpTopup, if_neg (not_not.2 hb), ← hkey, topupOfKey_of_mem hu]
    unfold racePc at hs
    dsimp only at hs
    rw [lookUpSpend_reserving, hlook] at hs
    unfold keyAnswer
    by_cases hstatus : u.status = .fulfilling
    · rw [if_pos hstatus] at hs ⊢
      cases hs
      rfl
    · rw [if_neg hstatus] at hs ⊢
      cases hs
      rfl
  | missedTopup _ hu hkey => exact absurd hkey (hcur _ hu)
  | @user email invite user hu hemail =>
    unfold racePc lookUpUser at hs
    dsimp only at hs
    rw [← hemail, userOf_of_mem hu] at hs
    cases hs
    rw [registerFound_answers]
    rfl
  | missedUser hu hemail => exact absurd hemail (hcur _ hu)
  | @signup _ a user hu hemail =>
    unfold racePc at hs
    dsimp only at hs
    rw [lookUpUser_claimed, ← hemail, userOf_of_mem hu] at hs
    cases hs
    rw [signupFound_answers]
    rfl
  | @missedSignup _ a user hu hemail =>
    unfold racePc at hs
    cases hs
    rw [signupNew_answers hu hemail]
    rfl

theorem keyAnswer_ne_refused {inProgress : Prop} [Decidable inProgress] {message : String}
    {row : Row} (he : ∀ m, e ≠ .spendInProgress m) :
    RacePc.spending (.refused e) ≠ keyAnswer inProgress message row := by
  intro h
  unfold keyAnswer at h
  split at h
  · exact he message (SpendPc.refused.inj (RacePc.spending.inj h))
  · cases RacePc.spending.inj h

/-- **An answer that is documented needs a look-up that is current.** -/
theorem current_of_documented (hbilling : ∀ a package, pc = .missedTopup a package →
      c.billingEnabled = true) (hs : racePc c s call pc x = some (s', pc'))
    (h : ∀ pc'', Documented c s call pc x pc'' → pc' = pc'') : LookUpCurrent s pc x := by
  unfold LookUpCurrent
  split
  · rename_i a d
    intro o ho hne hkey
    obtain ⟨e, he, hmsg⟩ := newOrder_loses (c := c) d ho hne hkey
    have hpc := congrArg Prod.snd (Option.some.inj hs)
    dsimp only [RaceDb.reserve] at hpc
    rw [he] at hpc
    exact keyAnswer_ne_refused hmsg (hpc.trans (h _ (.missedOrder ho hne hkey)))
  · rename_i a package d
    intro u hu hkey
    obtain ⟨e, he, hmsg⟩ := newTopup_loses (c := c) d hu hkey
    have hpc := congrArg Prod.snd (Option.some.inj hs)
    dsimp only [RaceDb.reserve] at hpc
    rw [he] at hpc
    exact keyAnswer_ne_refused hmsg
      (hpc.trans (h _ (.missedTopup (hbilling a package rfl) hu hkey)))
  · rename_i email invite id
    intro user hu hemail
    have hpc := congrArg Prod.snd (Option.some.inj hs)
    dsimp only [RaceDb.run] at hpc
    rw [registerNew_loses invite id hu hemail] at hpc
    cases hpc.trans (h _ (.missedUser hu hemail))
  · trivial

end Answers

/-! ## Runs -/

section Runs

variable {c : SpendSettings}

/-- A call whose look-up found no top-up. -/
def missesTopup : RacePc → Bool
  | .missedTopup _ _ => true
  | _ => false

theorem registration_keeps (r : Except Exc RegistrationResult) :
    missesTopup (registration r) = false := by
  cases r <;> rfl

theorem signup_keeps (r : Except Exc Unit) : missesTopup (signup r) = false := by
  cases r <;> rfl

theorem lookUpUser_keeps {s s' : RaceDb} {call : RaceCall} {pc pc' : RacePc}
    (h : lookUpUser s call pc = some (s', pc')) : missesTopup pc' = false := by
  unfold lookUpUser at h
  split at h
  · split at h
    · cases h
      rfl
    · cases h
      exact registration_keeps _
  · split at h
    · cases h
      rfl
    · cases h
      exact signup_keeps _
  · cases h

theorem spendStepOf_keeps {s s' : SpendDb} {call : RaceCall} {pc : SpendPc} {pc' : RacePc}
    {x : SpendInput} (h : spendStepOf c s call pc x = some (s', pc')) :
    missesTopup pc' = false := by
  unfold spendStepOf at h
  split at h
  · cases h
  · cases h
  · obtain ⟨r, _, hr⟩ := Option.map_eq_some_iff.1 h
    cases hr
    rfl
  · cases h

theorem billing_of_misses {s s' : RaceDb} {call : RaceCall} {pc pc' : RacePc} {x : RaceInput}
    (hs : racePc c s call pc x = some (s', pc')) (hmiss : missesTopup pc' = true) :
    c.billingEnabled = true := by
  unfold racePc at hs
  split at hs
  · obtain ⟨pc₁, hlook, hpc⟩ := Option.map_eq_some_iff.1 hs
    cases hpc
    unfold lookUpSpend at hlook
    split at hlook
    · split at hlook
      · cases hlook
      · split at hlook <;> cases hlook <;> cases hmiss
    · split at hlook
      · cases hlook
        cases hmiss
      · cases hlook
        cases hmiss
      · rename_i hrow
        exact billing_of_lookUp hrow
    · cases hlook
  · obtain ⟨r, hr, hpc⟩ := Option.map_eq_some_iff.1 hs
    cases hpc
    rw [spendStepOf_keeps hr] at hmiss
    cases hmiss
  · cases hs
    cases hmiss
  · cases hs
    cases hmiss
  · cases hs
    rw [registration_keeps] at hmiss
    cases hmiss
  · split at hs
    · cases hs
      split at hmiss <;> cases hmiss
    · cases hs
  · cases hs
    rw [signup_keeps] at hmiss
    cases hmiss
  · split at hs
    · cases hs
      cases hmiss
    · cases hs
  · rw [lookUpUser_keeps hs] at hmiss
    cases hmiss
  · split at hs
    · cases hs
      cases hmiss
    · cases hs
  · split at hs
    · cases hs
      cases hmiss
    · cases hs
  · cases hs

/-- A call at the insert of a top-up has found billing enabled. -/
def RaceLocal (c : SpendSettings) (_ : RaceDb) (t : RaceThread) : Prop :=
  missesTopup t.pc = true → c.billingEnabled = true

theorem raceInvariant (c : SpendSettings) :
    Invariant (raceProgram c) (fun _ => True) (fun _ _ _ => True) (fun _ => True) (RaceLocal c)
      (fun _ _ => True) where
  init _ := trivial
  start call _ := by
    intro hmiss
    cases call <;> cases hmiss
  apart_start _ _ := trivial
  symm _ := trivial
  step := by
    intro s t x s' t' _ _ _ hs
    obtain ⟨⟨s₁, pc'⟩, hr, ht⟩ := Option.map_eq_some_iff.1 hs
    cases ht
    exact ⟨trivial, billing_of_misses hr⟩
  frame := by
    intro s t x s' t' u _ _ _ _ hu _
    exact ⟨hu, trivial⟩

end Runs

/--
**When the loser of a race is answered as documented.** In any run of purchases,
registrations and signups, a request that meets the key or the address of another
gets the documented answer exactly when its look-up is still current at its insert;
a signup gets it always.
-/
theorem loser_answered_iff {c : SpendSettings} {g : Config RaceDb RaceThread}
    (h : (raceProgram c).Reach (fun _ => True) g) {p : Nat} {t t' : RaceThread} {x : RaceInput}
    {s' : RaceDb} (ht : g.threads p = some t)
    (hs : (raceProgram c).step g.store t x = some (s', t')) :
    (∀ pc, Documented c g.store t.call t.pc x pc → t'.pc = pc) ↔ LookUpCurrent g.store t.pc x := by
  obtain ⟨⟨s₁, pc'⟩, hr, hpc⟩ := Option.map_eq_some_iff.1 hs
  cases hpc
  have hlocal : RaceLocal c g.store t := ((raceInvariant c).reach h).thread p t ht
  constructor
  · intro hdoc
    refine current_of_documented ?_ hr hdoc
    intro a package hpc
    exact hlocal (by rw [hpc]; rfl)
  · intro hcur pc hdoc
    exact documented_of_current hcur hr hdoc

/-! ## Two orders with one key -/

def noUsers : AccountsDb := ⟨.empty, [], fun _ => none, [], 0⟩

def noRaces : RaceDb := ⟨noPurchases, noUsers⟩

/-- Both requests look the key up before either has reserved. -/
def lookUpsMeet : List (Act RaceCall RaceInput) :=
  [.call 0 (.spend (.post (voucher alice "v"))), .tick 0 (.spend .go),
    .call 1 (.spend aliceOrder), .call 2 (.spend aliceOrder), .tick 1 .lookUp, .tick 2 .lookUp,
    .tick 1 (.order ⟨1, false, none⟩)]

/-- The second request goes on to an order with the key of one that stands, and the transaction
breaks. -/
def breaksTransaction (g : Config RaceDb RaceThread) : Bool :=
  match g.threads 2 with
  | some t =>
    match (raceProgram spendSettings).step g.store t (.order ⟨2, false, none⟩), t.pc with
    | some (_, ⟨_, .spending (.refused e)⟩), .missedOrder a =>
      e = .transactionManagement && g.store.spend.orders.rows.any fun o =>
        o.idempotencyKey ≠ none ∧ o.idempotencyKey = nonempty a.idempotencyKey
    | _, _ => false
  | none => false

theorem loser_breaks :
    ¬ ∀ c g p t t' x s' pc, (raceProgram c).Reach (fun _ => True) g → g.threads p = some t →
      (raceProgram c).step g.store t x = some (s', t') → Documented c g.store t.call t.pc x pc →
      t'.pc = pc := by
  intro h
  obtain ⟨g, hr, hg⟩ := Program.run_check (raceProgram spendSettings) noRaces lookUpsMeet
    breaksTransaction (by decide)
  have hreach : (raceProgram spendSettings).Reach (fun _ => True) g := Program.reach_run trivial hr
  unfold breaksTransaction at hg
  split at hg
  · rename_i t ht
    split at hg
    · rename_i s' call e a hs hpc
      rw [Bool.and_eq_true, decide_eq_true_eq, List.any_eq_true] at hg
      obtain ⟨he, o, ho, hkey⟩ := hg
      have hkey' := of_decide_eq_true hkey
      have hans := h spendSettings g 2 t _ _ s' _ hreach ht hs
        (by rw [hpc]; exact .missedOrder ho hkey'.1 hkey'.2)
      rw [he] at hans
      exact keyAnswer_ne_refused (by nofun) hans
    · cases hg
  · cases hg

/-- The second request is at its look-up when the first has reserved. -/
def lookUpWaits : List (Act RaceCall RaceInput) :=
  [.call 0 (.spend (.post (voucher alice "v"))), .tick 0 (.spend .go),
    .call 1 (.spend aliceOrder), .tick 1 .lookUp, .tick 1 (.order ⟨1, false, none⟩),
    .call 2 (.spend aliceOrder)]

/-- The look-up of the second request is answered. -/
def looksUp (g : Config RaceDb RaceThread) : Bool :=
  match g.threads 2 with
  | some t =>
    match (raceProgram spendSettings).step g.store t .lookUp with
    | some (_, ⟨_, .spending (.refused (.spendInProgress _))⟩) => true
    | _ => false
  | none => false

theorem loser_answered_iff_waits :
    ∃ g t t' s' m, (raceProgram spendSettings).Reach (fun _ => True) g ∧ g.threads 2 = some t
      ∧ (raceProgram spendSettings).step g.store t .lookUp = some (s', t')
      ∧ t'.pc = .spending (.refused (.spendInProgress m))
      ∧ ((∀ pc, Documented spendSettings g.store t.call t.pc .lookUp pc → t'.pc = pc)
        ↔ LookUpCurrent g.store t.pc .lookUp) := by
  obtain ⟨g, hr, hg⟩ := Program.run_check (raceProgram spendSettings) noRaces lookUpWaits looksUp
    (by decide)
  have hreach : (raceProgram spendSettings).Reach (fun _ => True) g := Program.reach_run trivial hr
  unfold looksUp at hg
  split at hg
  · rename_i t ht
    split at hg
    · rename_i s' call m hs
      exact ⟨g, t, _, s', m, hreach, ht, hs, rfl, loser_answered_iff hreach ht hs⟩
    · cases hg
  · cases hg

end Roamkit.Accounts.Proof
