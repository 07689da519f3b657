import Roamkit.Lib.Rounding
import Roamkit.Proof.Esims
import Roamkit.Proof.Presentation

/-!
# What the customer pays and what the partner gets

The discount of a profile and the share of a partner are both taken out of the margin
between the list price and the net price, by services that do not know of each other. The
charge covers the net price. Whether it covers the share on top depends on the two
percentages together, and on how the price was rounded.
-/

namespace Roamkit.Pricing.Proof

open Lib Lib.Dec Billing Spend Billing.Proof Spend.Proof

/-! ## The share -/

/-- What a new accrual was made from. -/
structure AccruedFrom (list net : Option Dec) (r : PartnerMarginAccrual) : Prop where
  prices : ∃ l n, list = some l ∧ net = some n ∧ 0 ≤ n.coeff ∧ ¬ l.lt n = true
    ∧ partnerShare l n r.revenueSharePercent = some r.partnerShare.micros
  percent : 0 < r.revenueSharePercent

theorem accrue_new {c : SpendSettings} {s s' : SpendDb} {sourceType : SourceType}
    {sourceId : String} {list net : Option Dec} {customer : Option UserId} {d : PersistDraw}
    {r : PartnerMarginAccrual} (h : s.accrue c sourceType sourceId list net customer d = .ok s')
    (hr : r ∈ s'.accruals) (hnew : r ∉ s.accruals) : AccruedFrom list net r := by
  obtain ⟨m, hm, h⟩ := bind_ok h
  cases h
  rcases accrue_ok hm with rfl | ⟨src, channel, account, share, ha⟩
  · exact absurd hr hnew
  · obtain ⟨p, e, _, _, _, _, _, _, hmicros, _, hi⟩ := pay_cases ha.pays
    rcases (Table.mem_insert hi).1 hr with hold | rfl
    · exact absurd hold hnew
    · have hpriced := ha.priced
      unfold priceSkip at hpriced
      simp only [Bool.or_eq_false_iff, decide_eq_false_iff_not] at hpriced
      refine ⟨⟨src.listPrice, src.netPrice, ha.prices.1, ha.prices.2, by omega, ?_, ?_⟩, ?_⟩
      · rw [hpriced.1.2]
        decide
      · exact ha.shares.trans (congrArg some hmicros.symm)
      · exact Int.not_le.1 hpriced.2

theorem createSims_accruals {s s' : SpendDb} {o : Order} {user : UserId} {package : Package}
    {guide : String} {d : PersistDraw} {n : Nat} {sims : List Airalo.OrderedSimDTO}
    (h : createSims s o user package guide d n sims = .ok s') : s'.accruals = s.accruals := by
  induction sims generalizing s n with
  | nil =>
    obtain rfl : s = s' := by simpa [createSims] using h
    rfl
  | cons sim sims ih =>
    obtain ⟨s₁, hfirst, hrest⟩ := bind_ok h
    obtain ⟨esims, _, hcredit⟩ := createPurchased_cases hfirst
    have hone : s₁.accruals = s.accruals := by
      rcases ensureInitialCredit_cases hcredit with ⟨rfl, _⟩ | ⟨_, _, _, rfl, _⟩
      · rfl
      · rfl
    exact (ih hrest).trans hone

theorem persistOrder_new {c : SpendSettings} {s s' : SpendDb} {o : Order} {user : UserId}
    {package : Package} {result : Airalo.OrderResult} {d : PersistDraw} {r : PartnerMarginAccrual}
    (h : persistOrder c s o user package result d = .ok s') (hr : r ∈ s'.accruals)
    (hnew : r ∉ s.accruals) :
    AccruedFrom (some (Dec.ofUnits 2 o.listPriceUsd)) (o.netPriceUsd.map (Dec.ofUnits 2)) r := by
  unfold persistOrder at h
  split at h
  · cases h
  obtain ⟨s₂, hsims, h⟩ := bind_ok h
  refine accrue_new h hr ?_
  rw [createSims_accruals hsims]
  exact hnew

theorem persistTopup_new {c : SpendSettings} {s s' : SpendDb} {t : Topup}
    {package : Airalo.TopupPackage} {result : Airalo.TopupResult} {d : PersistDraw}
    {r : PartnerMarginAccrual} (h : persistTopup c s t package result d = .ok s')
    (hr : r ∈ s'.accruals) (hnew : r ∉ s.accruals) :
    AccruedFrom (finite? package.priceUsd) (package.netPriceUsd.bind finite?) r := by
  unfold persistTopup at h
  split at h
  · cases h
  · exact accrue_new h hr hnew

/-- The share of a margin between a list price in cents and a net price in millionths, however
the two are written. -/
theorem partnerShare_eq {l n : Dec} {list net percent share : Int} (hl : l.eqv (Dec.ofUnits 2 list))
    (hn : n.eqv (Dec.ofUnits 6 net)) (hnet : 0 ≤ net) (hle : net ≤ list * 10000)
    (hlist : list < 10 ^ 10) (hpercent : 0 ≤ percent) (hpercent' : percent ≤ 10000)
    (h : partnerShare l n percent = some share) :
    share = halfUp ((list * 10000 - net) * percent) 10000 := by
  obtain ⟨list, rfl⟩ := Int.eq_ofNat_of_zero_le (by omega : 0 ≤ list)
  obtain ⟨net, rfl⟩ := Int.eq_ofNat_of_zero_le hnet
  obtain ⟨percent, rfl⟩ := Int.eq_ofNat_of_zero_le hpercent
  -- a place fine enough for both prices
  obtain ⟨j, hj⟩ : ∃ j : Nat, j = (-(min l.exp n.exp) - 6).toNat := ⟨_, rfl⟩
  have hcl : Counts l (-(6 + j : Nat)) (list * 10000 * 10 ^ j) := by
    have hfine := @counts_of_eqv l 2 list (4 + j) hl (by omega)
    rwa [show 2 + (4 + j) = 6 + j by omega, Nat.pow_add, ← Nat.mul_assoc] at hfine
  have hcn : Counts n (-(6 + j : Nat)) (net * 10 ^ j) := counts_of_eqv hn (by omega)
  have hmargin : net * 10 ^ j ≤ list * 10000 * 10 ^ j := Nat.mul_le_mul_right _ (by omega)
  obtain ⟨m, hm⟩ : ∃ m, m = list * 10000 - net := ⟨_, rfl⟩
  have hsub := hcl.sub hcn hmargin
  rw [← Nat.sub_mul, ← hm, keep_of_short (by unfold precision; omega)] at hsub
  -- neither the difference nor the product has more digits than the context keeps
  have hpart : m * percent ≤ m * 10000 := Nat.mul_le_mul_left _ (by omega)
  have hsmall : m * percent < 10 ^ precision := by
    unfold precision
    omega
  have hmul := hsub.mul (counts_ofUnits 2 percent)
  rw [Nat.mul_right_comm, keep_of_short hsmall] at hmul
  have hshare := hmul.percent
  rw [keep_of_short hsmall] at hshare
  have hplace : (-(6 + j : Nat) : Int) + -(2 : Nat) - 2 = -(6 + (4 + j) : Nat) := by omega
  rw [hplace] at hshare
  unfold partnerShare Dec.quantize at h
  split at h
  · -- the finer place is divided out of the rounding
    have hnum : 2 * (m * percent * 10 ^ j) + 10 ^ (4 + j)
        = (2 * (m * percent) + 10000) * 10 ^ j := by
      rw [Nat.pow_add]
      ring
    have hden : 2 * 10 ^ (4 + j) = 20000 * 10 ^ j := by
      rw [Nat.pow_add]
      ring
    have hround := halfUp_natCast (m * percent) (by decide : 0 < 10000)
    have hmargin : (m : Int) = list * 10000 - net := by omega
    rw [Nat.cast_mul, hmargin] at hround
    rw [← Option.some.inj h, hshare.units, hnum, hden,
      Nat.mul_div_mul_right _ _ (Nat.pow_pos (by decide)), hround]
  · cases h

/-- The share of a margin between prices in cents is exact. -/
theorem partnerShare_cents {list net percent share : Int} (hnet : 0 ≤ net) (hle : net ≤ list)
    (hlist : list < 10 ^ 10) (hpercent : 0 ≤ percent) (hpercent' : percent ≤ 10000)
    (h : partnerShare (Dec.ofUnits 2 list) (Dec.ofUnits 2 net) percent = some share) :
    share = (list - net) * percent := by
  have hn : (Dec.ofUnits 2 net).eqv (Dec.ofUnits 6 (net * 10000)) = true := by
    simp [Dec.eqv, Dec.ofUnits]
  have hl : (Dec.ofUnits 2 list).eqv (Dec.ofUnits 2 list) = true := by simp [Dec.eqv]
  rw [partnerShare_eq hl hn (by omega) (by omega) hlist hpercent hpercent' h, ← Int.sub_mul,
    Int.mul_right_comm]
  exact halfUp_mul _ (by decide)

/-! ## The charge -/

theorem halfUp_of_nonneg {x : Int} (h : 0 ≤ x) : halfUp x 10000 = (2 * x + 10000) / 20000 := by
  have habs : (x.natAbs : Int) = x := Int.natAbs_of_nonneg h
  unfold halfUp
  rw [habs]
  rcases Int.lt_or_eq_of_le h with hpos | rfl
  · rw [Int.sign_eq_one_of_pos hpos, Int.one_mul]
    rfl
  · decide

/-- Whole cents are not rounded. -/
theorem halfUp_add {n x : Int} (hn : 0 ≤ n) (hx : 0 ≤ x) :
    halfUp (n * 10000 + x) 10000 = n + halfUp x 10000 := by
  rw [halfUp_of_nonneg (by omega), halfUp_of_nonneg hx]
  omega

/-! ## The two together -/

/-- An order that is paid for and priced by the margin. -/
structure WholesaleOrder (c : SpendSettings) (s s' : SpendDb) (a : FulfillArgs)
    (d : Draw Nat) (o : Order) (discount net : Int) : Prop where
  fits : PackageFits a.package
  range : ∀ p, d.profile = some p → p.InRange
  /-- The profile is in force, with its discount on the margin. -/
  inForce : terms c.pricingProfilesEnabled d.profile s.now = some (discount, .wholesale)
  netPrice : a.package.netPriceUsd = some net
  paid : a.skipPayment = false
  reserved : reserveOrder c s a d = .ok (s', .fresh o)

/-- An accrual the fulfilment of an order makes. -/
structure OrderCredits (c : SpendSettings) (package : Package) (o : Order)
    (r : PartnerMarginAccrual) : Prop where
  fulfilled : ∃ s₁ s₂ user result dp, persistOrder c s₁ o user package result dp = .ok s₂
    ∧ r ∈ s₂.accruals ∧ r ∉ s₁.accruals
  /-- The check constraint of `revenue_share_percent`. -/
  percent : r.revenueSharePercent ≤ 10000

/-- The same of a top-up, with the list price in cents and the net price in millionths. -/
structure WholesaleTopup (c : SpendSettings) (s s' : SpendDb) (a : PurchaseArgs)
    (package : Airalo.TopupPackage)
    (d : Draw Uuid) (t : Topup) (discount list net : Int) : Prop where
  range : ∀ p, d.profile = some p → p.InRange
  inForce : terms c.pricingProfilesEnabled d.profile s.now = some (discount, .wholesale)
  listPrice : ∃ l, package.priceUsd = .finite l ∧ l.eqv (Dec.ofUnits 2 list)
  netPrice : ∃ n, package.netPriceUsd = some (.finite n) ∧ n.eqv (Dec.ofUnits 6 net)
  reserved : reserveTopup c s a package d = .ok (s', .fresh t)

structure TopupCredits (c : SpendSettings) (package : Airalo.TopupPackage) (t : Topup)
    (r : PartnerMarginAccrual) : Prop where
  fulfilled : ∃ s₁ s₂ result dp, persistTopup c s₁ t package result dp = .ok s₂
    ∧ r ∈ s₂.accruals ∧ r ∉ s₁.accruals
  percent : r.revenueSharePercent ≤ 10000

theorem terms_range {flag : Bool} {profile : Option PricingProfile} {now : Time} {discount : Int}
    {policy : FloorPolicy} (hrange : ∀ p, profile = some p → p.InRange)
    (h : terms flag profile now = some (discount, policy)) :
    flag = true ∧ 0 ≤ discount ∧ discount ≤ 10000 := by
  unfold terms at h
  split at h
  · cases h
  rename_i p
  split at h
  · rename_i hforce
    rw [← (Prod.mk.inj (Option.some.inj h)).1]
    exact ⟨hforce.1, hrange p rfl⟩
  · cases h

/-- A decimal of no more units is no larger. -/
theorem le_of_not_lt {places : Nat} {m n : Int}
    (h : ¬ (Dec.ofUnits places m).lt (Dec.ofUnits places n) = true) :
    n ≤ m := by
  unfold Dec.lt Dec.ofUnits at h
  simpa using h

section Order

variable {c : SpendSettings} {s s' : SpendDb} {a : FulfillArgs} {d : Draw Nat} {o : Order}
  {discount net : Int} {r : PartnerMarginAccrual}

theorem WholesaleOrder.charge (h : WholesaleOrder c s s' a d o discount net) :
    o.retailPriceUsd = due a.package.priceUsd (some net) (some (discount, .wholesale)) := by
  rw [order_charge h.reserved h.fits h.range, packageDue, h.inForce, h.netPrice]

/-- The prices an order is stored with are those of its package. -/
theorem WholesaleOrder.prices (h : WholesaleOrder c s s' a d o discount net) :
    o.listPriceUsd = a.package.priceUsd ∧ o.netPriceUsd = some net := by
  obtain ⟨hflag, _, _⟩ := terms_range h.range h.inForce
  obtain ⟨charge, list, hresolve, hrow⟩ := reserveOrder_charge h.reserved
  have hsmall : maxPrice < 10 ^ 20 := by decide
  obtain ⟨q, hq, hqlist, _⟩ :=
    @resolve_due c.pricingProfilesEnabled (Dec.ofUnits 2 a.package.priceUsd)
    (some (Dec.ofUnits 2 net)) s.now d.profile
    (by
      rw [Dec.units_ofUnits]
      exact h.fits.1.trans hsmall)
    (by
      rintro n hn
      rw [← Option.some.inj hn, Dec.units_ofUnits]
      exact (h.fits.2 net h.netPrice).trans hsmall)
    h.range
  constructor
  · unfold resolvePackageCharge at hresolve
    rw [if_neg (not_not.2 hflag)] at hresolve
    split at hresolve
    · cases hresolve
    rw [h.netPrice] at hresolve
    have hquote : resolve c.pricingProfilesEnabled
      ⟨cents a.package.priceUsd, (some net).map cents, s.now, d.profile⟩ = .ok q := hq
    rw [hquote] at hresolve
    rw [hrow]
    show list = _
    rw [← (Prod.mk.inj (Except.ok.inj hresolve)).2]
    exact hqlist.trans (Dec.units_ofUnits 2 _)
  · rw [hrow]
    exact h.netPrice

/-- What the order is charged, and what its partner is credited. -/
theorem WholesaleOrder.amounts (h : WholesaleOrder c s s' a d o discount net)
    (hr : OrderCredits c a.package o r) :
    o.retailPriceUsd = net + halfUp ((a.package.priceUsd - net) * (10000 - discount)) 10000
      ∧ r.partnerShare.micros = (a.package.priceUsd - net) * r.revenueSharePercent
      ∧ 0 ≤ net ∧ net ≤ a.package.priceUsd ∧ 0 < r.revenueSharePercent := by
  obtain ⟨s₁, s₂, user, result, dp, hpersist, hin, hnew⟩ := hr.fulfilled
  obtain ⟨_, _, hle⟩ := terms_range h.range h.inForce
  obtain ⟨hlist, hnet⟩ := h.prices
  obtain ⟨⟨l, n, hl, hn, hcoeff, hnotlt, hshare⟩, hpos⟩ := persistOrder_new hpersist hin hnew
  rw [hlist] at hl
  rw [hnet, Option.map_some] at hn
  rw [← Option.some.inj hl, ← Option.some.inj hn] at hnotlt hshare
  rw [← Option.some.inj hn] at hcoeff
  have hnonneg : 0 ≤ net := hcoeff
  have hlistnet := le_of_not_lt hnotlt
  have hkept : 0 ≤ (a.package.priceUsd - net) * (10000 - discount) :=
    Int.mul_nonneg (by omega) (by omega)
  refine ⟨?_, ?_, hnonneg, hlistnet, hpos⟩
  · rw [h.charge, due, if_neg (by omega), halfUp_add hnonneg hkept]
  · have hlist : a.package.priceUsd < 10 ^ 10 := by
      have hfits := h.fits.1
      unfold maxPrice at hfits
      omega
    exact partnerShare_cents hnonneg hlistnet hlist (Int.le_of_lt hpos) hr.percent hshare

end Order

section Topup

variable {c : SpendSettings} {s s' : SpendDb} {a : PurchaseArgs} {package : Airalo.TopupPackage}
  {d : Draw Uuid} {t : Topup} {discount list net : Int} {r : PartnerMarginAccrual}

/-- The prices of a top-up that was reserved fit its columns. -/
theorem WholesaleTopup.small (h : WholesaleTopup c s s' a package d t discount list net) :
    list.natAbs < 10 ^ 10 ∧ net.natAbs < 10 ^ 20 ∧ (halfUp net 10000).natAbs < 10 ^ 20 := by
  obtain ⟨amount, _, hcolumns⟩ := reserveTopup_charge h.reserved
  obtain ⟨_, l, _, _, hl, hlfits, hnfits⟩ := columns_fit hcolumns
  obtain ⟨l', hl', hlist⟩ := h.listPrice
  obtain ⟨n', hn', hnet⟩ := h.netPrice
  obtain ⟨n, hn, hnfit⟩ := hnfits _ hn'
  rw [hl'] at hl
  have hlfit := of_decide_eq_true hlfits
  rw [← PyDecimal.finite.inj hl, Dec.units_of_eqv hlist, Dec.units_ofUnits] at hlfit
  have hfit := of_decide_eq_true hnfit
  rw [← PyDecimal.finite.inj hn, Dec.units_of_eqv hnet, Dec.units_ofUnits] at hfit
  refine ⟨hlfit, hfit, ?_⟩
  rw [← units_micros net]
  refine (units_two_le ⟨net, -6⟩).trans_lt ?_
  rwa [show (⟨net, -6⟩ : Dec) = Dec.ofUnits 6 net from rfl, Dec.units_ofUnits]

theorem WholesaleTopup.charge (h : WholesaleTopup c s s' a package d t discount list net) :
    t.amount.micros = due list (some (halfUp net 10000)) (some (discount, .wholesale)) * 10000 := by
  obtain ⟨hflag, _, _⟩ := terms_range h.range h.inForce
  obtain ⟨hlist, _, hcents⟩ := h.small
  obtain ⟨l, hl, hlunits⟩ := h.listPrice
  obtain ⟨n, hn, hnunits⟩ := h.netPrice
  have hl2 : l.units 2 = list := (Dec.units_of_eqv hlunits 2).trans (Dec.units_ofUnits 2 list)
  have hn2 : n.units 2 = halfUp net 10000 := (Dec.units_of_eqv hnunits 2).trans (units_micros net)
  have hfits : TopupFits package l (some n) := by
    refine ⟨hl, hn, ?_, ?_⟩
    · rw [hl2]
      omega
    · intro m hm
      rw [← Option.some.inj hm, hn2]
      exact hcents
  rw [topup_charge hfits h.reserved h.range, if_pos hflag, dueUnder, h.inForce,
    Option.map_some, hl2, hn2]

/-- What the top-up is charged, and what its partner is credited. -/
theorem WholesaleTopup.amounts (h : WholesaleTopup c s s' a package d t discount list net)
    (hr : TopupCredits c package t r) :
    t.amount.micros
        = (halfUp net 10000 + halfUp ((list - halfUp net 10000) * (10000 - discount)) 10000) * 10000
      ∧ r.partnerShare.micros = halfUp ((list * 10000 - net) * r.revenueSharePercent) 10000
      ∧ 0 ≤ net ∧ net ≤ list * 10000 ∧ 0 < r.revenueSharePercent := by
  obtain ⟨s₁, s₂, result, dp, hpersist, hin, hnew⟩ := hr.fulfilled
  obtain ⟨_, _, hle⟩ := terms_range h.range h.inForce
  obtain ⟨hlist, hnet, _⟩ := h.small
  obtain ⟨l, hl, hlunits⟩ := h.listPrice
  obtain ⟨n, hn, hnunits⟩ := h.netPrice
  obtain ⟨⟨l', n', hl', hn', hcoeff, hnotlt, hshare⟩, hpos⟩ := persistTopup_new hpersist hin hnew
  rw [hl] at hl'
  rw [hn] at hn'
  obtain rfl : l = l' := Option.some.inj hl'
  obtain rfl : n = n' := Option.some.inj hn'
  have hnonneg : 0 ≤ net := by
    rw [← Dec.units_ofUnits 6 net, ← Dec.units_of_eqv hnunits]
    exact units_nonneg 6 hcoeff
  have hlcoeff := nonneg_of_not_lt hcoeff hnotlt
  have hlistnet : net ≤ list * 10000 := by
    have hmono := units_mono 6 hcoeff hlcoeff hnotlt
    have hmicros : (Dec.ofUnits 2 list).units 6 = list * 10000 := rfl
    rwa [Dec.units_of_eqv hnunits, Dec.units_of_eqv hlunits, Dec.units_ofUnits, hmicros] at hmono
  obtain ⟨hlow, hhigh⟩ := halfUp_close net
  have hle' : halfUp net 10000 ≤ list := by omega
  have hcents : 0 ≤ halfUp net 10000 := by omega
  have hkept : 0 ≤ (list - halfUp net 10000) * (10000 - discount) :=
    Int.mul_nonneg (by omega) (by omega)
  refine ⟨?_, ?_, hnonneg, hlistnet, hpos⟩
  · rw [h.charge, due, if_neg (by omega), halfUp_add hcents hkept]
  · exact partnerShare_eq hlunits hnunits hnonneg hlistnet (by omega)
      (Int.le_of_lt hpos) hr.percent hshare

end Topup

/-- What is charged is the net price at least, or else the list price. -/
theorem due_covers {list net discount : Int} (h : discount ≤ 10000) :
    min net list ≤ due list (some net) (some (discount, .wholesale)) := by
  unfold due
  dsimp only
  by_cases hlt : list < net
  · rw [if_pos hlt]
    exact min_le_right _ _
  · have hkept : 0 ≤ (list - net) * (10000 - discount) := Int.mul_nonneg (by omega) (by omega)
    obtain ⟨hlow, _⟩ := halfUp_close (net * 10000 + (list - net) * (10000 - discount))
    rw [if_neg hlt]
    omega

/-- A part of what was rounded is no more than half a cent. -/
theorem rounding_part {x percent : Int} (hx : x ≤ 5000) (h : 0 ≤ percent) (h' : percent ≤ 10000) :
    x * (10000 - percent) ≤ 5000 * 10000 := by
  calc x * (10000 - percent) ≤ 5000 * (10000 - percent) := Int.mul_le_mul_of_nonneg_right hx (by
    omega)
    _ ≤ 5000 * 10000 := by omega

/-- A smaller percentage of a margin is no more of it. -/
theorem share_le_kept {m discount percent : Int} (hm : 0 ≤ m) (h : discount + percent ≤ 10000) :
    m * percent ≤ m * (10000 - discount) := Int.mul_le_mul_of_nonneg_left (by omega) hm

/--
**A purchase priced by the margin is charged its net price at least, where that is no more
than the list price. It is charged the partner's share as well exactly when the share is no
more than the part of the margin that is charged, as rounded; where the two percentages come
to a hundred at most, an order falls short by half a cent at most and a top-up by a cent.**
-/
theorem wholesale_covers :
    (∀ c s s' a d o discount net, WholesaleOrder c s s' a d o discount net →
        Debits s s' (.order o.id) a.spendAccount (o.retailPriceUsd * 10000)
          ∧ min net a.package.priceUsd ≤ o.retailPriceUsd
          ∧ ∀ r, OrderCredits c a.package o r →
            net ≤ a.package.priceUsd ∧ net ≤ o.retailPriceUsd
              ∧ (net * 10000 + r.partnerShare.micros ≤ o.retailPriceUsd * 10000
                ↔ (a.package.priceUsd - net) * r.revenueSharePercent
                  ≤ halfUp ((a.package.priceUsd - net) * (10000 - discount)) 10000 * 10000)
              ∧ (discount + r.revenueSharePercent ≤ 10000 →
                net * 10000 + r.partnerShare.micros ≤ o.retailPriceUsd * 10000 + 5000))
      ∧ ∀ c s s' a package d t discount list net,
        WholesaleTopup c s s' a package d t discount list net →
        Debits s s' (.topup t.id) a.spendAccount t.amount.micros
          ∧ min (halfUp net 10000) list * 10000 ≤ t.amount.micros
          ∧ ∀ r, TopupCredits c package t r →
            net ≤ list * 10000 ∧ halfUp net 10000 * 10000 ≤ t.amount.micros
              ∧ (net + r.partnerShare.micros ≤ t.amount.micros
                ↔ halfUp ((list * 10000 - net) * r.revenueSharePercent) 10000
                  + (net - halfUp net 10000 * 10000)
                  ≤ halfUp ((list - halfUp net 10000) * (10000 - discount)) 10000 * 10000)
              ∧ (discount + r.revenueSharePercent ≤ 10000 →
                net + r.partnerShare.micros ≤ t.amount.micros + 10000) := by
  constructor
  · intro c s s' a d o discount net h
    obtain ⟨_, _, hdiscount⟩ := terms_range h.range h.inForce
    refine ⟨reserveOrder_debits h.reserved h.paid, ?_, ?_⟩
    · rw [h.charge]
      exact due_covers hdiscount
    · intro r hr
      obtain ⟨hcharge, hshare, hnet, hle, hpos⟩ := h.amounts hr
      rw [hcharge, hshare]
      have hkept : 0 ≤ (a.package.priceUsd - net) * (10000 - discount) :=
        Int.mul_nonneg (by omega) (by omega)
      -- the charge is the net price and the kept part of the margin, rounded to a cent
      obtain ⟨hlow, hhigh⟩ := halfUp_close ((a.package.priceUsd - net) * (10000 - discount))
      refine ⟨hle, by omega, ?_, ?_⟩
      · constructor
        · intro hcovers
          omega
        · intro hcovers
          omega
      · intro hsum
        have hmargin : 0 ≤ a.package.priceUsd - net := by omega
        have hpart := share_le_kept hmargin hsum
        omega
  · intro c s s' a package d t discount list net h
    obtain ⟨_, _, hdiscount⟩ := terms_range h.range h.inForce
    refine ⟨reserveTopup_debits h.reserved, ?_, ?_⟩
    · rw [h.charge]
      exact Int.mul_le_mul_of_nonneg_right (due_covers hdiscount) (by omega)
    · intro r hr
      obtain ⟨hcharge, hshare, hnet, hle, hpos⟩ := h.amounts hr
      rw [hcharge, hshare]
      obtain ⟨hnetlow, hnethigh⟩ := halfUp_close net
      have hmargin : 0 ≤ list - halfUp net 10000 := by omega
      have hkept : 0 ≤ (list - halfUp net 10000) * (10000 - discount) :=
        Int.mul_nonneg hmargin (by omega)
      obtain ⟨hlow, hhigh⟩ := halfUp_close ((list - halfUp net 10000) * (10000 - discount))
      refine ⟨hle, by omega, ?_, ?_⟩
      · constructor
        · intro hcovers
          omega
        · intro hcovers
          omega
      · intro hsum
        obtain ⟨_, hshigh⟩ := halfUp_close ((list * 10000 - net) * r.revenueSharePercent)
        have hpart := share_le_kept hmargin hsum
        -- the share is taken of the net price as it is, the charge of what it rounds to
        have hrest : (net - halfUp net 10000 * 10000) * (10000 - r.revenueSharePercent)
            ≤ 5000 * 10000 :=
          rounding_part (by omega) (Int.le_of_lt hpos) hr.percent
        have hexpand : (list * 10000 - net) * r.revenueSharePercent
            = (list - halfUp net 10000) * r.revenueSharePercent * 10000
              - (net - halfUp net 10000 * 10000) * r.revenueSharePercent := by ring
        have hexpand' : (net - halfUp net 10000 * 10000) * (10000 - r.revenueSharePercent)
            = (net - halfUp net 10000 * 10000) * 10000
              - (net - halfUp net 10000 * 10000) * r.revenueSharePercent := by ring
        omega

/-! ## Half the margin off, and most of it to the partner -/

/-- The channel that brought Alice, with its percentage in hundredths. -/
def broughtBy (percent : Int) : ChannelView :=
  ⟨alice, .individual, some 9, none, true, percent, false, .ok bob⟩

def crediting (percent : Int) : PersistDraw :=
  ⟨fun _ => (1, alice), some 7, some (broughtBy percent), alice⟩

def orderPlaced : Airalo.OrderResult :=
    ⟨"ext", "", "pkg", "", "USD", .finite ⟨0, 0⟩, "", "", "", []⟩

def topupPlaced : Airalo.TopupResult := ⟨"ext", "", "topup", "8988", "USD", .finite ⟨0, 0⟩, ""⟩

section Credited

variable {Row : Type}

/-- A purchase that was reserved, then fulfilled with one new accrual. -/
def credited (r : Except Exc (SpendDb × Reserved Row)) (f : SpendDb → Row → Except Exc SpendDb) :
    Option (SpendDb × Row × SpendDb × PartnerMarginAccrual) :=
  match r with
  | .ok (s, .fresh row) =>
    match f s row with
    | .ok s' =>
        if s.accruals.rows = [] then s'.accruals.rows.head?.map fun r => (s, row, s', r) else none
    | .error _ => none
  | _ => none

theorem credited_some {r : Except Exc (SpendDb × Reserved Row)}
    {f : SpendDb → Row → Except Exc SpendDb} {s s' : SpendDb} {row : Row}
    {accrual : PartnerMarginAccrual} (h : credited r f = some (s, row, s', accrual)) :
    r = .ok (s, .fresh row) ∧ f s row = .ok s' ∧ accrual ∈ s'.accruals ∧ accrual ∉ s.accruals := by
  unfold credited at h
  split at h
  · rename_i s₁ row₁
    split at h
    · rename_i s₂ hf
      split at h
      · rename_i hempty
        obtain ⟨x, hx, heq⟩ := Option.map_eq_some_iff.1 h
        cases heq
        refine ⟨rfl, hf, List.mem_of_head? hx, ?_⟩
        show accrual ∉ s.accruals.rows
        rw [hempty]
        exact List.not_mem_nil
      · cases h
    · cases h
  · cases h

/-- What was charged, what was credited, and the percentage of it. -/
def sums (charge : Row → Int)
    (x : SpendDb × Row × SpendDb × PartnerMarginAccrual) : Int × Int × Int :=
  (charge x.2.1, x.2.2.2.partnerShare.micros, x.2.2.2.revenueSharePercent)

theorem credited_sums {r : Except Exc (SpendDb × Reserved Row)}
    {f : SpendDb → Row → Except Exc SpendDb} {charge : Row → Int} {x : Int × Int × Int}
    (h : (credited r f).map (sums charge) = some x) :
    ∃ s row s' accrual, r = .ok (s, .fresh row) ∧ f s row = .ok s' ∧ accrual ∈ s'.accruals
      ∧ accrual ∉ s.accruals ∧ charge row = x.1 ∧ accrual.partnerShare.micros = x.2.1
      ∧ accrual.revenueSharePercent = x.2.2 := by
  obtain ⟨⟨s, row, s', accrual⟩, hsome, rfl⟩ := Option.map_eq_some_iff.1 h
  obtain ⟨hr, hf, hin, hnew⟩ := credited_some hsome
  exact ⟨s, row, s', accrual, hr, hf, hin, hnew, rfl, rfl, rfl⟩

end Credited

theorem halfMargin_inRange : ∀ p, some halfMargin = some p → p.InRange := by
  intro p hp
  rw [← Option.some.inj hp]
  exact ⟨by decide, by decide⟩

theorem orderFor_fits (account : Uuid) : PackageFits (orderFor account).package := by
  have hsmall : (2500 : Int).natAbs < maxPrice := by decide
  refine ⟨hsmall, ?_⟩
  intro net hnet
  rw [← Option.some.inj hnet]
  decide

/-- Alice pays fifteen for a package of twenty-five, five of it net, and her partner gets
sixteen. -/
theorem wholesale_falls_short :
    ∃ s' o r, WholesaleOrder withProfiles twoFunded s' (orderFor alice)
      ⟨1, false, some halfMargin⟩ o 5000 500
      ∧ OrderCredits withProfiles (orderFor alice).package o r
      ∧ o.retailPriceUsd * 10000 < 500 * 10000 + r.partnerShare.micros := by
  obtain ⟨s, o, s₂, r, hreserve, hpersist, hin, hnew, hcharge, hshare, hpercent⟩ :=
    @credited_sums Order
    (reserveOrder withProfiles twoFunded (orderFor alice) ⟨1, false, some halfMargin⟩)
    (fun s o => persistOrder withProfiles s o 7 (orderFor alice).package orderPlaced
      (crediting 8000))
    Order.retailPriceUsd (1500, 16000000, 8000) (by decide)
  refine ⟨s, o, r, ?_, ?_, ?_⟩
  · exact ⟨orderFor_fits alice, halfMargin_inRange, by decide, rfl, rfl, hreserve⟩
  · exact ⟨⟨s, s₂, 7, orderPlaced, crediting 8000, hpersist, hin, hnew⟩, by rw [hpercent]; decide⟩
  · rw [hcharge, hshare]
    decide

/-- A top-up of twenty-five dollars, five and a third of a cent of it net. -/
def thirdCentTopup : Airalo.TopupPackage :=
  ⟨"topup", "1 GB", "1 GB", 7, .finite (Dec.ofUnits 2 2500), some (.finite (Dec.ofUnits 6 5003333)),
    false, "topup"⟩

/-- With a share of half the margin both are paid in full, but for what the net price of the top-up
was rounded. -/
theorem wholesale_covers_half :
    (∃ s' o r, reserveOrder withProfiles twoFunded (orderFor alice) ⟨1, false, some halfMargin⟩
      = .ok (s', .fresh o)
        ∧ OrderCredits withProfiles (orderFor alice).package o r
        ∧ 500 * 10000 + r.partnerShare.micros ≤ o.retailPriceUsd * 10000)
      ∧ ∃ s' t r, reserveTopup withProfiles twoFunded topupTeam thirdCentTopup
        ⟨alice, false, some halfMargin⟩
          = .ok (s', .fresh t)
        ∧ TopupCredits withProfiles thirdCentTopup t r
        ∧ 5003333 + r.partnerShare.micros ≤ t.amount.micros + 10000 := by
  constructor
  · obtain ⟨s, o, s₂, r, hreserve, hpersist, hin, hnew, _, _, hpercent⟩ := @credited_sums Order
      (reserveOrder withProfiles twoFunded (orderFor alice) ⟨1, false, some halfMargin⟩)
      (fun s o => persistOrder withProfiles s o 7 (orderFor alice).package orderPlaced
        (crediting 5000))
      Order.retailPriceUsd (1500, 10000000, 5000) (by decide)
    have horder : WholesaleOrder withProfiles twoFunded s (orderFor alice)
        ⟨1, false, some halfMargin⟩ o 5000 500 :=
      ⟨orderFor_fits alice, halfMargin_inRange, by decide, rfl, rfl, hreserve⟩
    have hcredits : OrderCredits withProfiles (orderFor alice).package o r :=
      ⟨⟨s, s₂, 7, orderPlaced, crediting 5000, hpersist, hin, hnew⟩, by rw [hpercent]; decide⟩
    have hcovers := (wholesale_covers.1 _ _ _ _ _ _ _ _ horder).2.2 r hcredits
    refine ⟨s, o, r, hreserve, hcredits, hcovers.2.2.1.2 ?_⟩
    rw [hpercent]
    decide
  · obtain ⟨s, t, s₂, r, hreserve, hpersist, hin, hnew, _, _, hpercent⟩ := @credited_sums Topup
      (reserveTopup withProfiles twoFunded topupTeam thirdCentTopup ⟨alice, false, some halfMargin⟩)
      (fun s t => persistTopup withProfiles s t thirdCentTopup topupPlaced (crediting 5000))
      (fun t => t.amount.micros) (15000000, 9998334, 5000) (by decide)
    have htopup : WholesaleTopup withProfiles twoFunded s topupTeam thirdCentTopup
      ⟨alice, false, some halfMargin⟩ t
        5000 2500 5003333 :=
          ⟨halfMargin_inRange, by decide, ⟨_, rfl, by decide⟩, ⟨_, rfl, by decide⟩, hreserve⟩
    have hcredits : TopupCredits withProfiles thirdCentTopup t r :=
      ⟨⟨s, s₂, topupPlaced, crediting 5000, hpersist, hin, hnew⟩, by rw [hpercent]; decide⟩
    have hcovers := (wholesale_covers.2 _ _ _ _ _ _ _ _ _ _ htopup).2.2 r hcredits
    refine ⟨s, t, r, hreserve, hcredits, hcovers.2.2.2 ?_⟩
    rw [hpercent]
    decide

end Roamkit.Pricing.Proof
