import Roamkit.Proof.Prices
import Roamkit.Proof.SpendSound

/-!
# The price shown and the price charged

Both are quotes of one service. They are for one account when the context is personal, and
while profiles are switched off the purchase makes no quote and takes the price of the
package as it is.
-/

namespace Roamkit.Pricing.Proof

open Lib Billing Spend Airalo Billing.Proof Spend.Proof

/-! ## What a purchase charges -/

variable {a : PurchaseArgs} {package : TopupPackage} {d : Draw Uuid}

section Charge

variable {c : SpendSettings} {s s' : SpendDb}

theorem reserveOrder_charge {a : FulfillArgs} {d : Draw Nat} {o : Order}
    (h : reserveOrder c s a d = .ok (s', .fresh o)) :
    ∃ charge list, resolvePackageCharge c s a.spendAccount a.package d.profile = .ok (charge, list)
      ∧ o = a.newOrder d.id charge list s.now := by
  unfold reserveOrder at h
  split at h
  · split at h <;> cases h
  · obtain ⟨⟨charge, list⟩, hcharge, h⟩ := bind_ok h
    refine ⟨charge, list, hcharge, ?_⟩
    dsimp only at h
    split at h
    · cases h
    split at h
    · cases h
    split at h
    · split at h
      · cases h
      · cases h
        rfl
    · split at h
      · cases h
      obtain ⟨p, _, h⟩ := bind_ok h
      obtain ⟨⟨books, e⟩, _, h⟩ := bind_ok h
      cases h
      rfl

theorem reserveTopup_charge {t : Topup} (h : reserveTopup c s a package d = .ok (s', .fresh t)) :
    ∃ amount, resolveTopupCharge c s a.spendAccount package d.profile = .ok amount
      ∧ a.columns package amount = .ok (some t.amount) := by
  unfold reserveTopup at h
  split at h
  · cases h
  split at h
  · split at h <;> cases h
  · split at h
    · cases h
    split at h
    · cases h
    obtain ⟨amount, hamount, h⟩ := bind_ok h
    obtain ⟨stored, hstored, h⟩ := bind_ok h
    refine ⟨amount, hamount, ?_⟩
    split at h
    · cases h
    dsimp only at h
    split at h
    · cases h
    obtain ⟨p, _, h⟩ := bind_ok h
    obtain ⟨⟨books, e⟩, _, h⟩ := bind_ok h
    cases h
    exact hstored

/-- The values a top-up is made of are finite and fit their columns. -/
theorem columns_fit {amount : PyDecimal} {stored : Amount}
    (h : a.columns package amount = .ok (some stored)) :
    ∃ dec list, amount = .finite dec ∧ stored.micros = dec.units 6 ∧ package.priceUsd = .finite list
      ∧ fitsNumeric 10 2 list = true
      ∧ ∀ net, package.netPriceUsd = some net
        → ∃ n, net = .finite n ∧ fitsNumeric 20 6 n = true := by
  have hfinite : ∀ x d, finite? x = some d → x = .finite d := by
    intro x d hx
    cases x with
    | finite d' => rw [Option.some.inj hx]
    | infinity _ => cases hx
    | nan _ => cases hx
  obtain ⟨dec, hdec, hstored⟩ := columns_stored h
  unfold PurchaseArgs.columns at h
  split at h
  · rename_i amount' list net hamount hlist hnet
    split at h
    · rename_i hfits
      simp only [Bool.and_eq_true] at hfits
      refine ⟨dec, list, hdec, hstored, hfinite _ _ hlist, hfits.1.1.1.2, ?_⟩
      intro net' hnet'
      rw [hnet', Option.getD_some] at hnet
      exact ⟨net, hfinite _ _ hnet, hfits.1.1.2⟩
    · cases h
  · cases h

end Charge

/-! ## What is shown -/

/-- What is due of a price under a profile. -/
def dueUnder (c : SpendSettings) (now : Time) (list : Dec) (net : Option Dec)
    (profile : Option PricingProfile) : Int :=
  due (list.units 2) (net.map (Dec.units 2)) (terms c.pricingProfilesEnabled profile now)

/-- A price below the size of any column, and a profile within its range, are quoted. -/
theorem quote_due (c : SpendSettings) (now : Time) {list : Dec} {net : Option Dec}
    {profile : Option PricingProfile} (hlist : (list.units 2).natAbs < 10 ^ 20)
    (hnet : ∀ n, net = some n → (n.units 2).natAbs < 10 ^ 20)
    (hrange : ∀ p, profile = some p → p.InRange) :
    ∃ q, resolve c.pricingProfilesEnabled ⟨.finite list, net.map .finite, now, profile⟩ = .ok q
      ∧ q.customerPrice = dueUnder c now list net profile ∧ q.listPrice = list.units 2 := by
  obtain ⟨q, hq, hlistq, hprice⟩ := resolve_due hlist hnet hrange
  exact ⟨q, hq, hprice, hlistq⟩

/-- The columns of a package of the catalog. -/
def PackageFits (package : Package) : Prop :=
  package.priceUsd.natAbs < maxPrice ∧ ∀ net, package.netPriceUsd = some net → net.natAbs < maxPrice

/-- What is due of a package of the catalog under a profile. -/
def packageDue (c : SpendSettings) (now : Time) (package : Package)
    (profile : Option PricingProfile) : Int :=
  due package.priceUsd package.netPriceUsd (terms c.pricingProfilesEnabled profile now)

theorem package_quote (c : SpendSettings) (now : Time) {package : Package}
    {profile : Option PricingProfile} (hfits : PackageFits package)
    (hrange : ∀ p, profile = some p → p.InRange) :
    ∃ q, resolve c.pricingProfilesEnabled
        ⟨cents package.priceUsd, package.netPriceUsd.map cents, now, profile⟩ = .ok q
      ∧ q.customerPrice = packageDue c now package profile := by
  have hsmall : maxPrice < 10 ^ 20 := by decide
  obtain ⟨q, hq, hprice, _⟩ := @quote_due c now (Dec.ofUnits 2 package.priceUsd)
    (package.netPriceUsd.map (Dec.ofUnits 2)) profile
    (by
      rw [Dec.units_ofUnits]
      exact hfits.1.trans hsmall)
    (by
      intro n hn
      obtain ⟨net, hnet, rfl⟩ := Option.map_eq_some_iff.1 hn
      rw [Dec.units_ofUnits]
      exact (hfits.2 net hnet).trans hsmall)
    hrange
  have hback : ∀ net : Option Int, (net.map (Dec.ofUnits 2)).map (Dec.units 2) = net := by
    intro net
    cases net with
    | none => rfl
    | some n => rw [Option.map_some, Option.map_some, Dec.units_ofUnits]
  rw [Option.map_map] at hq
  refine ⟨q, hq, ?_⟩
  rw [hprice, dueUnder, packageDue, Dec.units_ofUnits, hback]

/-- **An order is charged what is due under the profile of the account it is charged to.** -/
theorem order_charge {c : SpendSettings} {s s' : SpendDb} {a : FulfillArgs} {d : Draw Nat}
    {o : Order} (h : reserveOrder c s a d = .ok (s', .fresh o)) (hfits : PackageFits a.package)
    (hrange : ∀ p, d.profile = some p → p.InRange) :
    o.retailPriceUsd = packageDue c s.now a.package d.profile := by
  obtain ⟨charge, list, hcharge, rfl⟩ := reserveOrder_charge h
  show charge = _
  unfold resolvePackageCharge at hcharge
  by_cases hflag : c.pricingProfilesEnabled = true
  · rw [if_neg (not_not.2 hflag)] at hcharge
    split at hcharge
    · cases hcharge
    obtain ⟨q, hq, hprice⟩ := package_quote c s.now hfits hrange
    rw [hq] at hcharge
    rw [← hprice]
    exact (Prod.mk.inj (Except.ok.inj hcharge)).1.symm
  · rw [if_pos hflag] at hcharge
    rw [packageDue, terms_off hflag]
    exact (Prod.mk.inj (Except.ok.inj hcharge)).1.symm

/-- The finite values of a top-up package, as far as its reservation checks them. -/
structure TopupFits (package : TopupPackage) (list : Dec) (net : Option Dec) : Prop where
  listPrice : package.priceUsd = .finite list
  netPrice : package.netPriceUsd = net.map .finite
  list_lt : (list.units 2).natAbs < 10 ^ 20
  net_lt : ∀ n, net = some n → (n.units 2).natAbs < 10 ^ 20

/--
**A top-up is charged what is due under the profile of the account it is charged to, or,
while profiles are switched off, the price of the package.** In millionths.
-/
theorem topup_charge {c : SpendSettings} {s s' : SpendDb} {t : Topup} {list : Dec}
    {net : Option Dec} (hfits : TopupFits package list net)
    (h : reserveTopup c s a package d = .ok (s', .fresh t))
    (hrange : ∀ p, d.profile = some p → p.InRange) :
    t.amount.micros = if c.pricingProfilesEnabled then dueUnder c s.now list net d.profile * 10000
      else list.units 6 := by
  obtain ⟨amount, hamount, hcolumns⟩ := reserveTopup_charge h
  obtain ⟨dec, _, hdec, hstored, _⟩ := columns_fit hcolumns
  rw [hstored]
  unfold resolveTopupCharge at hamount
  by_cases hflag : c.pricingProfilesEnabled = true
  · rw [if_neg (not_not.2 hflag)] at hamount
    split at hamount
    · cases hamount
    obtain ⟨q, hq, hprice, _⟩ := quote_due c s.now hfits.list_lt hfits.net_lt hrange
    rw [hfits.listPrice, hfits.netPrice, hq] at hamount
    have heq : PyDecimal.finite (Dec.ofUnits 2 q.customerPrice) = .finite dec := by
      rw [← hdec]
      exact Except.ok.inj hamount
    rw [if_pos hflag, ← PyDecimal.finite.inj heq, units_cents, hprice]
  · rw [if_pos hflag, hfits.listPrice] at hamount
    have heq : PyDecimal.finite list = .finite dec := by
      rw [← hdec]
      exact Except.ok.inj hamount
    rw [if_neg hflag, PyDecimal.finite.inj heq]

/-! ## Where they agree -/

section Agreement

variable {c : SpendSettings} {s s' : SpendDb} {r : PricedAccounts}

theorem shown_package {package : Package} (hfits : PackageFits package)
    (hrange : ∀ account p, r.profile account = some p → p.InRange) (now : Time) :
    ∃ shown, packagePrice c now r package = .ok shown
      ∧ shown.priceUsd = packageDue c now package (r.profile r.personal) := by
  obtain ⟨q, hq, hprice⟩ := package_quote c now hfits (hrange r.personal)
  refine ⟨publicPriceDict q, ?_, hprice⟩
  unfold packagePrice pricingAccountForRequest
  rw [hq]
  rfl

theorem shown_topup {list : Dec} {net : Option Dec} (hfits : TopupFits package list net)
    (hrange : ∀ account p, r.profile account = some p → p.InRange) (now : Time) :
    ∃ shown, topupPrice c now r package = .ok shown
      ∧ shown.priceUsd = dueUnder c now list net (r.profile r.personal) := by
  obtain ⟨q, hq, hprice, _⟩ := quote_due c now hfits.list_lt hfits.net_lt (hrange r.personal)
  refine ⟨publicPriceDict q, ?_, hprice⟩
  unfold topupPrice pricingAccountForRequest
  rw [hfits.listPrice, hfits.netPrice, hq]
  rfl

/-- The movement of a purchase is posted on the way from one database to another. -/
def Debits (s s' : SpendDb) (src : Source) (account : Uuid) (micros : Int) : Prop :=
  ∃ p e, s.books.apply p = .ok (s'.books, e) ∧ movementOf p = Purchase.debit src account micros

theorem reserveOrder_debits {a : FulfillArgs} {d : Draw Nat} {o : Order}
    (h : reserveOrder c s a d = .ok (s', .fresh o)) (hpaid : a.skipPayment = false) :
    Debits s s' (.order o.id) a.spendAccount (o.retailPriceUsd * 10000) := by
  obtain ⟨orders, _, haccount, _, _, hcases⟩ := reserveOrder_fresh h
  rcases hcases with ⟨hskip, _⟩ | ⟨_, p, books, e, rfl, happly, hmovement⟩
  · rw [hpaid] at hskip
    cases hskip
  · rw [haccount] at hmovement
    exact ⟨p, e, happly, hmovement⟩

theorem reserveTopup_debits {t : Topup} (h : reserveTopup c s a package d = .ok (s', .fresh t)) :
    Debits s s' (.topup t.id) a.spendAccount t.amount.micros := by
  obtain ⟨topups, p, books, e, _, rfl, happly, hmovement, haccount, _⟩ := reserveTopup_fresh h
  rw [haccount] at hmovement
  exact ⟨p, e, happly, hmovement⟩

/-- A price is shown, and it is a number of millionths. -/
def Shows (shown : Except Exc PublicPrice) (micros : Int) : Prop :=
  ∃ price, shown = .ok price ∧ price.priceUsd * 10000 = micros

theorem shows_iff {shown : Except Exc PublicPrice} {price : PublicPrice} {micros : Int}
    (h : shown = .ok price) : Shows shown micros ↔ price.priceUsd * 10000 = micros := by
  constructor
  · rintro ⟨price', hprice, heq⟩
    rw [h] at hprice
    rw [Except.ok.inj hprice]
    exact heq
  · intro heq
    exact ⟨price, h, heq⟩

/--
**The price shown is the one charged exactly when the terms in force for the personal account
and for the charged one leave the same to pay, and, for a top-up while profiles are switched
off, when the price of the package has no part below a cent.**
-/
theorem shown_iff_charged (hrange : ∀ account p, r.profile account = some p → p.InRange)
    (context : AccountContext) :
    (∀ a d o, reserveOrder c s a d = .ok (s', .fresh o) → a.skipPayment = false →
        a.spendAccount = context.account r → d.profile = r.profile a.spendAccount
          → PackageFits a.package →
        Debits s s' (.order o.id) (context.account r) (o.retailPriceUsd * 10000)
        ∧ (Shows (packagePrice c s.now r a.package) (o.retailPriceUsd * 10000)
          ↔ packageDue c s.now a.package (r.profile r.personal)
            = packageDue c s.now a.package (r.profile (context.account r))))
      ∧ ∀ a package d t list net, reserveTopup c s a package d = .ok (s', .fresh t) →
        a.spendAccount = context.account r → d.profile = r.profile a.spendAccount →
        TopupFits package list net →
        Debits s s' (.topup t.id) (context.account r) t.amount.micros
        ∧ (Shows (topupPrice c s.now r package) t.amount.micros
          ↔ if c.pricingProfilesEnabled then
              dueUnder c s.now list net (r.profile r.personal)
                = dueUnder c s.now list net (r.profile (context.account r))
            else list.units 2 * 10000 = list.units 6) := by
  constructor
  · intro a d o h hpaid haccount hprofile hfits
    have hdebits := reserveOrder_debits h hpaid
    rw [haccount] at hprofile hdebits
    refine ⟨hdebits, ?_⟩
    obtain ⟨shown, hshown, hprice⟩ := shown_package (c := c) (r := r) hfits hrange s.now
    have hcharge := order_charge h hfits (by rw [hprofile]; exact hrange _)
    rw [shows_iff hshown, hprice, hcharge, hprofile]
    constructor
    · intro heq
      exact Int.eq_of_mul_eq_mul_right (by decide) heq
    · intro heq
      rw [heq]
  · intro a package d t list net h haccount hprofile hfits
    have hdebits := reserveTopup_debits h
    rw [haccount] at hprofile hdebits
    refine ⟨hdebits, ?_⟩
    obtain ⟨shown, hshown, hprice⟩ := shown_topup (c := c) hfits hrange s.now
    have hcharge := topup_charge hfits h (by rw [hprofile]; exact hrange _)
    rw [shows_iff hshown, hprice, hcharge, hprofile]
    by_cases hflag : c.pricingProfilesEnabled = true
    · rw [if_pos hflag, if_pos hflag]
      constructor
      · intro heq
        exact Int.eq_of_mul_eq_mul_right (by decide) heq
      · intro heq
        rw [heq]
    · rw [if_neg hflag, if_neg hflag, dueUnder, terms_off hflag]
      rfl

end Agreement

/-! ## A team with a profile -/

/-- Half of the margin, for as long as the profile stands. -/
def halfMargin : PricingProfile := ⟨alice, 1, 5000, .wholesale, true, none, none, none⟩

/-- Alice is the user; the account of her team is the other one, and it has the profile. -/
def teamPricing : PricedAccounts :=
    ⟨alice, fun account => if account = bob then some halfMargin else none⟩

/-- Both accounts have a hundred, and the team has an eSIM. -/
def twoFunded : SpendDb :=
  ⟨⟨⟨[⟨alice, 100000000, 0⟩, ⟨bob, 100000000, 0⟩], by decide⟩, .empty⟩, .empty, .empty, .empty,
    ⟨[⟨1, bob, 7, 1, "8988", "", .blank, none, 0⟩], by decide⟩, fun _ => none, 0⟩

/-- Alice orders a package of twenty-five, five of it net, for an account. -/
def orderFor (account : Uuid) : FulfillArgs :=
  ⟨7, alice, ⟨"pkg", 2500, some 500⟩, none, false, some "key", some account⟩

/-- The charge of an order that was just reserved. -/
def reservedOrder (r : Except Exc (SpendDb × Reserved Order)) : Option Int :=
  match r with
  | .ok (_, .fresh o) => some o.retailPriceUsd
  | _ => none

theorem reservedOrder_some {r : Except Exc (SpendDb × Reserved Order)} (charge : Int)
    (h : reservedOrder r = some charge) :
    ∃ s' o, r = .ok (s', .fresh o) ∧ o.retailPriceUsd = charge := by
  unfold reservedOrder at h
  split at h
  · rename_i s' o
    exact ⟨s', o, rfl, Option.some.inj h⟩
  · cases h

/-- The amount of a top-up that was just reserved. -/
def reservedTopup (r : Except Exc (SpendDb × Reserved Topup)) : Option Int :=
  match r with
  | .ok (_, .fresh t) => some t.amount.micros
  | _ => none

theorem reservedTopup_some {r : Except Exc (SpendDb × Reserved Topup)} (micros : Int)
    (h : reservedTopup r = some micros) :
    ∃ s' t, r = .ok (s', .fresh t) ∧ t.amount.micros = micros := by
  unfold reservedTopup at h
  split at h
  · rename_i s' t
    exact ⟨s', t, rfl, Option.some.inj h⟩
  · cases h

def withProfiles : SpendSettings := ⟨true, true, true, plainWriter⟩

/-- A top-up of five dollars and half a cent. -/
def halfCentTopup : TopupPackage :=
  ⟨"topup", "1 GB", "1 GB", 7, .finite ⟨5005, -3⟩, none, false, "topup"⟩

/-- Alice tops up the eSIM of the team. -/
def topupTeam : PurchaseArgs :=
    ⟨⟨1, bob, 7, 1, "8988", "", .blank, none, 0⟩, "topup", "key", some bob⟩

theorem not_shows {shown : Except Exc PublicPrice} {price : PublicPrice} {micros : Int}
    (h : shown.toOption = some price) (hne : price.priceUsd * 10000 ≠ micros) :
    ¬ Shows shown micros := by
  rintro ⟨price', rfl, heq⟩
  rw [Option.some.inj h] at heq
  exact hne heq

/-- A team's order is charged less than what is shown, and a top-up of half a cent less than
shown. -/
theorem shown_not_charged :
    (∃ s' o, reserveOrder withProfiles twoFunded (orderFor bob) ⟨1, false, some halfMargin⟩
      = .ok (s', .fresh o)
        ∧ (orderFor bob).spendAccount = (AccountContext.team bob).account teamPricing
        ∧ o.retailPriceUsd = 1500
        ∧ ¬ Shows (packagePrice withProfiles twoFunded.now teamPricing (orderFor bob).package)
          15000000)
      ∧ ∃ s' t, reserveTopup spendSettings twoFunded topupTeam halfCentTopup
        ⟨alice, false, some halfMargin⟩
          = .ok (s', .fresh t)
        ∧ t.amount.micros = 5005000
        ∧ ¬ Shows (topupPrice spendSettings twoFunded.now teamPricing halfCentTopup) 5005000 := by
  constructor
  · obtain ⟨s', o, hreserve, hcharge⟩ := @reservedOrder_some
      (reserveOrder withProfiles twoFunded (orderFor bob) ⟨1, false, some halfMargin⟩)
        1500 (by decide)
    refine ⟨s', o, hreserve, rfl, hcharge, ?_⟩
    have hshown :
      (packagePrice withProfiles twoFunded.now teamPricing (orderFor bob).package).toOption
        = some ⟨2500, 2500, 0, .retail⟩ := by decide
    exact not_shows hshown (by decide)
  · obtain ⟨s', t, hreserve, hcharge⟩ := @reservedTopup_some
      (reserveTopup spendSettings twoFunded topupTeam halfCentTopup ⟨alice, false, some halfMargin⟩)
        5005000
      (by decide)
    refine ⟨s', t, hreserve, hcharge, ?_⟩
    have hshown : (topupPrice spendSettings twoFunded.now teamPricing halfCentTopup).toOption
        = some ⟨501, 501, 0, .retail⟩ := by decide
    exact not_shows hshown (by decide)

theorem teamPricing_inRange : ∀ account p, teamPricing.profile account = some p → p.InRange := by
  intro account p h
  have hp : p = halfMargin := by
    unfold teamPricing at h
    dsimp only at h
    split at h
    · exact (Option.some.inj h).symm
    · cases h
  rw [hp]
  exact ⟨by decide, by decide⟩

theorem teamPricing_bob : teamPricing.profile bob = some halfMargin := by
  unfold teamPricing
  dsimp only
  exact if_pos rfl

/-- An order for Alice herself, and a top-up of the team while profiles are on. -/
theorem shown_iff_charged_alice :
    (∃ s' o, reserveOrder withProfiles twoFunded (orderFor alice) ⟨1, false, none⟩
      = .ok (s', .fresh o)
        ∧ Shows (packagePrice withProfiles twoFunded.now teamPricing (orderFor alice).package)
          (o.retailPriceUsd * 10000))
      ∧ ∃ s' t, reserveTopup withProfiles twoFunded topupTeam halfCentTopup
        ⟨alice, false, some halfMargin⟩
          = .ok (s', .fresh t)
        ∧ Shows (topupPrice withProfiles twoFunded.now teamPricing halfCentTopup)
          t.amount.micros := by
  constructor
  · obtain ⟨s', o, hreserve, _⟩ := @reservedOrder_some
      (reserveOrder withProfiles twoFunded (orderFor alice) ⟨1, false, none⟩) 2500 (by decide)
    refine ⟨s', o, hreserve, ?_⟩
    have hiff := (shown_iff_charged teamPricing_inRange .personal).1 (orderFor alice)
      ⟨1, false, none⟩ o hreserve rfl
      rfl (by decide) ⟨by decide, fun net hnet => by cases hnet; decide⟩
    exact hiff.2.2 rfl
  · obtain ⟨s', t, hreserve, _⟩ := @reservedTopup_some
      (reserveTopup withProfiles twoFunded topupTeam halfCentTopup ⟨alice, false, some halfMargin⟩)
        5010000
      (by decide)
    refine ⟨s', t, hreserve, ?_⟩
    have hiff := (shown_iff_charged teamPricing_inRange (.team bob)).2 topupTeam halfCentTopup
      ⟨alice, false, some halfMargin⟩ t ⟨5005, -3⟩ none hreserve rfl teamPricing_bob.symm
      ⟨rfl, rfl, by decide, fun n hn => nomatch hn⟩
    -- without a net price both accounts pay the list price
    exact hiff.2.2 (by decide)

end Roamkit.Pricing.Proof
