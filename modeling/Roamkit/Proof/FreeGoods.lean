import Roamkit.Proof.CustomerPrice
import Roamkit.Proof.Presentation
import Roamkit.Proof.Races

/-!
# Goods that are free

A charge of zero or less is refused by the ledger, with `InvalidAmountError`. An order comes to
the ledger, because its row takes any price. A top-up does not: the check on its amount refuses
the row before, and the query of the handler is in a transaction that is broken by then.
-/

namespace Roamkit.Spend.Proof

open Lib Airalo Billing Billing.Proof Pricing Pricing.Proof

/-- The errors of the database that nobody is to see: `IntegrityError`, and a query in a
transaction an error has broken. -/
def leaks : Exc → Bool
  | .integrity | .transactionManagement => true
  | _ => false

theorem bind_leaks {α β : Type} {x : Except Exc α} {f : α → Except Exc β} {e : Exc}
    (hx : ∀ e, x = .error e → leaks e = false)
    (hf : ∀ a e, x = .ok a → f a = .error e → leaks e = false)
    (h : (x >>= f) = .error e) : leaks e = false := by
  rcases bind_error h with h | ⟨a, ha, h⟩
  · exact hx e h
  · exact hf a e ha h

/-! ## What a debit may raise -/

theorem normalizeAmount_leaks {amount : RawAmount} {e : Exc}
    (h : normalizeAmount amount = .error e) :
    leaks e = false := by
  unfold normalizeAmount at h
  split at h
  · cases h
    cases amount <;> rfl
  · cases h
    rfl
  · cases h
    rfl
  · split at h
    · cases h
      rfl
    · split at h
      · split at h
        · cases h
        · cases h
          rfl
      · cases h
        rfl

theorem preparePosting_leaks {account : Uuid} {amount : RawAmount} {type : LedgerReferenceType}
    {referenceId key : String} {credit : Bool} {e : Exc}
    (h : preparePosting account amount (.member type) referenceId key credit = .error e) :
    leaks e = false := by
  unfold preparePosting at h
  refine bind_leaks (fun _ => normalizeAmount_leaks) ?_ h
  intro normalized e _ h
  refine bind_leaks (fun e he => by cases he) ?_ h
  intro type e _ h
  split at h
  · cases h
    rfl
  · cases h

/-- An entry under a key that was looked up clashes with none. -/
theorem apply_leaks {b : Books} {p : Posting} {e : Exc}
    (h : b.apply p = .error e) : leaks e = false := by
  unfold Books.apply at h
  cases hrow : b.accounts.find? (·.id = p.account) with
  | none =>
    rw [hrow] at h
    cases h
    rfl
  | some row =>
    rw [hrow] at h
    dsimp only at h
    cases hkey : b.entries.find? (·.idempotencyKey = p.idempotencyKey) with
    | some existing =>
      rw [hkey] at h
      cases h
    | none =>
      rw [hkey] at h
      dsimp only at h
      split at h
      · cases h
        rfl
      · split at h
        · cases h
          rfl
        · split at h
          · rename_i hpost
            exfalso
            unfold Books.post at hpost
            split at hpost
            · rename_i hinsert
              obtain ⟨x, hx, hclash⟩ := Table.clash_of_insert_none hinsert
              exact Table.not_of_find? hkey hx (decide_eq_true hclash)
            · cases hpost
          · split at h
            · cases h
              rfl
            · cases h

variable {package : TopupPackage} {a : PurchaseArgs} {d : Draw Nat}

section Charge

variable {c : SpendSettings} {s : SpendDb} {account : Uuid} {profile : Option PricingProfile}
  {e : Exc}

theorem resolvePackageCharge_leaks {package : Package}
    (h : resolvePackageCharge c s account package profile = .error e) : leaks e = false := by
  unfold resolvePackageCharge at h
  split at h
  · cases h
  split at h
  · cases h
    rfl
  · refine bind_leaks (fun e he => ?_) (fun _ e _ he => by cases he) h
    rw [Accounts.Proof.resolve_raises he]
    rfl

theorem resolveTopupCharge_leaks
    (h : resolveTopupCharge c s account package profile = .error e) : leaks e = false := by
  unfold resolveTopupCharge at h
  split at h
  · cases h
  split at h
  · cases h
    rfl
  · refine bind_leaks (fun e he => ?_) (fun _ e _ he => by cases he) h
    rw [Accounts.Proof.resolve_raises he]
    rfl

theorem columns_error {amount : PyDecimal} (h : a.columns package amount = .error e) :
    e = .data ∨ e = .validation := by
  unfold PurchaseArgs.columns at h
  split at h
  · split at h
    · cases h
    · cases h
      exact .inl rfl
  · cases h
    exact .inr rfl

theorem columns_leaks {amount : PyDecimal}
    (h : a.columns package amount = .error e) : leaks e = false := by
  rcases columns_error h with rfl | rfl <;> rfl

/-- A price of the catalog as one `money_round` takes. -/
def catalogPrice (n : Nat) (h : n < 10 ^ precision) : RoundedPrice where
  price := Dec.ofUnits 2 n
  nonneg := Int.natCast_nonneg n
  fits := by
    rw [Dec.units_ofUnits]
    exact h

/-- What is charged for a package whose prices are not below zero is not below zero either. -/
theorem packageCharge_nonneg {package : Package} {charge list : Int} (hfits : PackageFits package)
    (hprice : 0 ≤ package.priceUsd) (hnet : ∀ net, package.netPriceUsd = some net → 0 ≤ net)
    (hrange : ∀ p, profile = some p → p.InRange)
    (h : resolvePackageCharge c s account package profile = .ok (charge, list)) :
    0 ≤ charge ∧ list = package.priceUsd := by
  unfold resolvePackageCharge at h
  by_cases hflag : c.pricingProfilesEnabled = true
  · rw [if_neg (not_not.2 hflag)] at h
    split at h
    · cases h
    obtain ⟨q, hq, h⟩ := bind_ok h
    cases h
    have hsmall : maxPrice < 10 ^ precision := by decide
    obtain ⟨listCents, hlistCents⟩ := Int.eq_ofNat_of_zero_le hprice
    have hlistFits : listCents < 10 ^ precision := by
      have := hfits.1
      omega
    obtain ⟨net?, hnet?⟩ : ∃ net? : Option RoundedPrice,
        package.netPriceUsd.map cents = net?.map fun n => .finite n.price := by
      cases hpackage : package.netPriceUsd with
      | none => exact ⟨none, rfl⟩
      | some net =>
        obtain ⟨netCents, hnetCents⟩ := Int.eq_ofNat_of_zero_le (hnet net hpackage)
        have hnetFits : netCents < 10 ^ precision := by
          have := hfits.2 net hpackage
          omega
        refine ⟨some (catalogPrice netCents hnetFits), ?_⟩
        rw [hnetCents]
        rfl
    obtain ⟨customer, q', hq', hlist', hcustomer'⟩ :
        ∃ customer, Charges s.now profile (catalogPrice listCents hlistFits) net? customer := by
      by_cases hnone : ∀ p, profile = some p → ¬ p.isEffective s.now = true
      · exact ⟨_, charges_retail hnone⟩
      · push Not at hnone
        obtain ⟨p, rfl, heffective⟩ := hnone
        obtain ⟨discount, hdiscount, hle⟩ := discount_nat (hrange p rfl)
        exact ⟨_, charges_effective heffective hdiscount hle⟩
    have hsame : q = q' := by
      rw [hflag, hnet?, hlistCents] at hq
      exact Except.ok.inj (hq.symm.trans hq')
    rw [hsame, hcustomer', hlist', hlistCents]
    refine ⟨Int.natCast_nonneg _, ?_⟩
    unfold RoundedPrice.cents catalogPrice
    dsimp only
    rw [Dec.units_ofUnits, Int.natAbs_natCast]
  · rw [if_pos hflag] at h
    cases h
    exact ⟨hprice, rfl⟩

end Charge

/-! ## Orders -/

/-- A paid order under a new key, of a package of the catalog whose prices are not below zero. -/
structure UnusedOrder (c : SpendSettings) (s : SpendDb) (a : FulfillArgs)
    (d : Draw Nat) : Prop where
  billing : c.billingEnabled = true
  paid : a.skipPayment = false
  /-- The key is given, and no order has it. -/
  given : nonempty a.idempotencyKey ≠ none
  unraced : d.raced = false
  unused : s.orderOfKey (nonempty a.idempotencyKey) = none
  newId : ∀ o ∈ s.orders, o.id ≠ d.id
  price : 0 ≤ a.package.priceUsd
  net : ∀ net, a.package.netPriceUsd = some net → 0 ≤ net
  fits : PackageFits a.package
  profile : ∀ p, d.profile = some p → p.InRange
  /-- The texts of the row fit their columns. -/
  texts : let o := a.newOrder d.id 0 0 s.now
    o.customerRef.length ≤ 255 ∧ (o.idempotencyKey.getD "").length ≤ 128
      ∧ o.packageExternalId.length ≤ 64

/-- The reservation of a free order is refused by the ledger, which leaves nothing behind, and no
error of the database is seen. -/
def OrderAgrees (c : SpendSettings) (s : SpendDb) (a : FulfillArgs) (d : Draw Nat) : Prop :=
  (∀ charge list, resolvePackageCharge c s a.spendAccount a.package d.profile = .ok (charge, list) →
      charge ≤ 0 → spendStep c s ⟨.fulfill a, .asked⟩ (.order d)
        = some (s, ⟨.fulfill a, .refused (.invalidAmount .notPositive)⟩))
    ∧ ∀ s' e, spendStep c s ⟨.fulfill a, .asked⟩ (.order d) = some (s', ⟨.fulfill a, .refused e⟩) →
      s' = s ∧ leaks e = false

theorem order_step {c : SpendSettings} {s : SpendDb} {a : FulfillArgs} (h : UnusedOrder c s a d) :
    spendStep c s ⟨.fulfill a, .asked⟩ (.order d) = match reserveOrder c s a d with
      | .error e => some (s, ⟨.fulfill a, .refused e⟩)
      | .ok (s', .replay o) => some (s', ⟨.fulfill a, .replayed (.order o)⟩)
      | .ok (s', .fresh o) => some (s', ⟨.fulfill a, .requesting (.order a o)⟩) := by
  unfold spendStep
  refine (if_neg fun hc => h.given hc.2).trans ?_
  cases reserveOrder c s a d with
  | error e => rfl
  | ok r => cases r.2 <;> rfl

/-- The insert of a new order succeeds. -/
theorem order_inserted {c : SpendSettings} {s : SpendDb} {a : FulfillArgs}
    (h : UnusedOrder c s a d) (charge list : Int) :
    ∃ orders, s.orders.insert? (a.newOrder d.id charge list s.now) = some orders := by
  cases hinsert : s.orders.insert? (a.newOrder d.id charge list s.now) with
  | some orders => exact ⟨orders, rfl⟩
  | none =>
    exfalso
    obtain ⟨x, hx, hclash⟩ := Table.clash_of_insert_none hinsert
    rcases hclash with hid | ⟨-, hkey⟩
    · exact h.newId x hx hid
    · have hunused := h.unused
      unfold SpendDb.orderOfKey at hunused
      rw [if_neg h.given] at hunused
      exact Table.not_of_find? hunused hx (decide_eq_true hkey)

theorem reserveOrder_new {c : SpendSettings} {s : SpendDb} {a : FulfillArgs}
    (h : UnusedOrder c s a d) :
    reserveOrder c s a d = (do
      let (charge, listPrice) ← resolvePackageCharge c s a.spendAccount a.package d.profile
      let order := a.newOrder d.id charge listPrice s.now
      if ¬ order.fits then .error .data
      else
        match s.orders.insert? order with
        | none => .error .transactionManagement
        | some orders =>
          let src := Source.order order.id
          let p ← preparePosting order.account (.decimal (Pricing.cents order.retailPriceUsd))
            (.member .order) src.reference src.debitKey false
          let (books, _) ← s.books.apply p
          .ok ({ s with orders, books }, .fresh order)) := by
  unfold reserveOrder
  rw [h.unraced, if_neg Bool.false_ne_true, h.unused]
  dsimp only
  rw [h.paid, h.billing]
  rfl

theorem newOrder_fits {c : SpendSettings} {s : SpendDb} {a : FulfillArgs}
    (h : UnusedOrder c s a d) :
    (a.newOrder d.id 0 a.package.priceUsd s.now).fits = true := by
  obtain ⟨href, hkey, hpackage⟩ := h.texts
  have hnet : ((a.newOrder d.id 0 a.package.priceUsd s.now).netPriceUsd.getD 0).natAbs
      < maxPrice := by
    show (a.package.netPriceUsd.getD 0).natAbs < maxPrice
    cases hpackageNet : a.package.netPriceUsd with
    | none => decide
    | some net => exact h.fits.2 net hpackageNet
  have hretail : (a.newOrder d.id 0 a.package.priceUsd s.now).retailPriceUsd.natAbs < maxPrice := by
    show (0 : Int).natAbs < maxPrice
    decide
  have hlist : (a.newOrder d.id 0 a.package.priceUsd s.now).listPriceUsd.natAbs < maxPrice :=
    h.fits.1
  have hrefs : (a.newOrder d.id 0 a.package.priceUsd s.now).customerRef.length ≤ 255 := href
  have hkeys : ((a.newOrder d.id 0 a.package.priceUsd s.now).idempotencyKey.getD "").length ≤ 128 :=
    hkey
  have hpackages : (a.newOrder d.id 0 a.package.priceUsd s.now).packageExternalId.length ≤ 64 :=
    hpackage
  unfold Order.fits
  rw [decide_eq_true hrefs, decide_eq_true hkeys, decide_eq_true hpackages, decide_eq_true hnet,
    decide_eq_true hretail, decide_eq_true hlist]
  rfl

/-- **A new order agrees, at every price of the catalog.** -/
theorem order_agrees {c : SpendSettings} {s : SpendDb} {a : FulfillArgs} (h : UnusedOrder c s a d) :
    OrderAgrees c s a d := by
  unfold OrderAgrees
  rw [order_step h, reserveOrder_new h]
  constructor
  · intro charge list hcharge hfree
    obtain ⟨hnonneg, rfl⟩ := packageCharge_nonneg h.fits h.price h.net h.profile hcharge
    obtain rfl : charge = 0 := by omega
    obtain ⟨orders, horders⟩ := order_inserted h 0 a.package.priceUsd
    have hrefused : ∀ account type referenceId key credit,
        preparePosting account (.decimal (Pricing.cents 0)) type referenceId key credit
          = .error (.invalidAmount .notPositive) := fun _ _ _ _ _ => rfl
    rw [hcharge]
    simp only [bind, Except.bind]
    rw [if_neg (not_not.2 (newOrder_fits h)), horders]
    dsimp only
    rw [show (a.newOrder d.id 0 a.package.priceUsd s.now).retailPriceUsd = 0 from rfl, hrefused]
  · intro s' e hstep
    split at hstep
    · rename_i e' herror
      cases hstep
      refine ⟨rfl, ?_⟩
      refine bind_leaks (fun _ => resolvePackageCharge_leaks) ?_ herror
      rintro ⟨charge, list⟩ e _ h'
      dsimp only at h'
      obtain ⟨orders, horders⟩ := order_inserted h charge list
      rw [horders] at h'
      split at h'
      · cases h'
        rfl
      · dsimp only at h'
        refine bind_leaks (fun _ => preparePosting_leaks) ?_ h'
        intro p e _ h'
        exact bind_leaks (fun _ => apply_leaks) (fun _ _ _ hc => by cases hc) h'
    · cases hstep
    · cases hstep

/-! ## Top-ups -/

/-- A top-up under a new key, of an eSIM of the account. -/
structure UnusedTopup (c : SpendSettings) (s : SpendDb) (a : PurchaseArgs)
    (d : Draw Uuid) : Prop where
  billing : c.billingEnabled = true
  unraced : d.raced = false
  unused : s.topups.find? (·.idempotencyKey = a.idempotencyKey) = none
  newId : ∀ t ∈ s.topups, t.id ≠ d.id
  owned : ∃ locked, s.esims.find? (·.id = a.esim.id) = some locked ∧ locked.account = a.spendAccount

/-- The same of the reservation of a top-up, at a charge that is a number. -/
def TopupAgrees (c : SpendSettings) (s : SpendDb) (a : PurchaseArgs) (package : TopupPackage)
    (d : Draw Uuid) : Prop :=
  (∀ charge, resolveTopupCharge c s a.spendAccount package d.profile = .ok (.finite charge) →
      charge.coeff ≤ 0 → spendStep c s ⟨.purchase a, .reserving a package⟩ (.topup d)
        = some (s, ⟨.purchase a, .refused (.invalidAmount .notPositive)⟩))
    ∧ ∀ s' e, spendStep c s ⟨.purchase a, .reserving a package⟩ (.topup d)
        = some (s', ⟨.purchase a, .refused e⟩) → s' = s ∧ leaks e = false

/-- The charge is above zero, and in millionths as well, unless the row is refused for another
value. -/
def PaidFor (c : SpendSettings) (s : SpendDb) (a : PurchaseArgs) (package : TopupPackage)
    (d : Draw Uuid) : Prop :=
  ∀ charge, resolveTopupCharge c s a.spendAccount package d.profile = .ok (.finite charge) →
    0 < charge.coeff ∧ (0 < charge.units 6 ∨ ∃ e, a.columns package (.finite charge) = .error e)

theorem lt_nextSequence {s : SpendDb} {t : Topup} (h : t ∈ s.topups) :
    t.sequence < nextSequence s t.esim := by
  have hmem : t ∈ s.topups.rows := h
  unfold nextSequence
  generalize s.topups.rows = rows at hmem ⊢
  induction rows with
  | nil => cases hmem
  | cons u us ih =>
    rw [List.foldr_cons]
    rcases List.mem_cons.1 hmem with rfl | hrest
    · rw [if_pos rfl]
      omega
    · have hlt := ih hrest
      split <;> omega

/-- The insert of a new top-up succeeds. -/
theorem topup_inserted {c : SpendSettings} {s : SpendDb} {d : Draw Uuid} (h : UnusedTopup c s a d)
    (package : TopupPackage) (amount : Amount) :
    ∃ topups, s.topups.insert? (a.newTopup s package d.id amount) = some topups := by
  cases hinsert : s.topups.insert? (a.newTopup s package d.id amount) with
  | some topups => exact ⟨topups, rfl⟩
  | none =>
    exfalso
    obtain ⟨x, hx, hclash⟩ := Table.clash_of_insert_none hinsert
    rcases hclash with hid | hkey | ⟨hesim, hsequence⟩
    · exact h.newId x hx hid
    · exact Table.not_of_find? h.unused hx (decide_eq_true hkey)
    · have hlt := lt_nextSequence hx
      have hesim' : x.esim = a.esim.id := hesim
      have hsequence' : x.sequence = nextSequence s a.esim.id := hsequence
      rw [hesim'] at hlt
      omega

theorem reserveTopup_new {c : SpendSettings} {s : SpendDb} {a : PurchaseArgs}
    {package : TopupPackage} {d : Draw Uuid} (h : UnusedTopup c s a d) :
    reserveTopup c s a package d = (do
      let amount ← resolveTopupCharge c s a.spendAccount package d.profile
      match ← a.columns package amount with
      | none => .error .transactionManagement
      | some stored =>
        let topup := a.newTopup s package d.id stored
        match s.topups.insert? topup with
        | none => .error .transactionManagement
        | some topups =>
          let src := Source.topup topup.id
          let p ← preparePosting topup.account (.decimal amount) (.member .topup)
            src.reference src.debitKey false
          let (books, _) ← s.books.apply p
          .ok ({ s with topups, books }, .fresh topup)) := by
  obtain ⟨locked, hlocked, howner⟩ := h.owned
  unfold reserveTopup
  rw [h.billing, if_neg (not_not.2 rfl), h.unraced, if_neg Bool.false_ne_true, h.unused]
  dsimp only
  rw [hlocked]
  dsimp only
  exact (if_neg (not_not.2 howner)).trans rfl

theorem topup_step {c : SpendSettings} {s : SpendDb} {d : Draw Uuid} :
    spendStep c s ⟨.purchase a, .reserving a package⟩ (.topup d)
      = match reserveTopup c s a package d with
      | .error e => some (s, ⟨.purchase a, .refused e⟩)
      | .ok (s', .replay t) => some (s', ⟨.purchase a, .replayed (.topup t)⟩)
      | .ok (s', .fresh t) => some (s', ⟨.purchase a, .requesting (.topup a package t)⟩) := by
  cases hreserve : reserveTopup c s a package d with
  | error e => simp only [spendStep, hreserve]
  | ok r =>
    obtain ⟨s', reserved⟩ := r
    cases reserved <;> simp only [spendStep, hreserve]

/-- What the columns of a row make of a charge: where they take it, it is below their bound. -/
theorem columns_finite {a : PurchaseArgs} {package : TopupPackage} {charge : Dec} :
    (∃ e, a.columns package (.finite charge) = .error e)
      ∨ a.columns package (.finite charge) = .ok (storedAmount charge)
        ∧ charge.units 6 < maxMoney := by
  unfold PurchaseArgs.columns
  split
  · rename_i amount list net hamount _ _
    cases hamount
    split
    · rename_i hfits
      simp only [Bool.and_eq_true] at hfits
      obtain ⟨⟨⟨⟨hamountFits, -⟩, -⟩, -⟩, -⟩ := hfits
      have hlt : (charge.units 6).natAbs < 10 ^ 20 := of_decide_eq_true hamountFits
      refine .inr ⟨rfl, ?_⟩
      unfold maxMoney
      omega
    · exact .inl ⟨_, rfl⟩
  · exact .inl ⟨_, rfl⟩

theorem storedAmount_none {charge : Dec} (h : charge.units 6 ≤ 0) : storedAmount charge = none := by
  unfold storedAmount
  rw [dif_neg]
  rintro ⟨hpos, -⟩
  omega

/-- What is above zero in millionths is above zero. -/
theorem coeff_pos {charge : Dec} (h : 0 < charge.units 6) : 0 < charge.coeff := by
  by_contra hle
  have hnonpos : charge.units 6 ≤ 0 := by
    unfold Dec.units
    dsimp only
    split
    · have hpow : (0 : Int) ≤ 10 ^ (charge.exp + (6 : Nat)).toNat := by positivity
      exact Int.mul_nonpos_of_nonpos_of_nonneg (by omega) hpow
    · have hquot :
        0 ≤ (2 * (charge.coeff.natAbs : Int) + (10 ^ (-(charge.exp + (6 : Nat))).toNat : Nat))
          / (2 * (10 ^ (-(charge.exp + (6 : Nat))).toNat : Nat)) :=
        Int.ediv_nonneg (by positivity) (by positivity)
      have hsign : charge.coeff.sign ≤ 0 := by
        rcases Int.lt_trichotomy charge.coeff 0 with hneg | hzero | hpos
        · rw [Int.sign_eq_neg_one_of_neg hneg]
          omega
        · rw [hzero]
          exact Int.le_refl 0
        · omega
      exact Int.mul_nonpos_of_nonpos_of_nonneg hsign hquot
  omega

/-- **A new top-up agrees exactly when it is paid for.** -/
theorem topup_agrees_iff {c : SpendSettings} {s : SpendDb} {d : Draw Uuid}
    (h : UnusedTopup c s a d) : TopupAgrees c s a package d ↔ PaidFor c s a package d := by
  unfold TopupAgrees
  rw [topup_step]
  constructor
  · rintro ⟨hfree, hleaks⟩ charge hcharge
    have hreserve := @reserveTopup_new c s a package d h
    rw [hcharge] at hreserve
    simp only [bind, Except.bind] at hreserve
    rcases @columns_finite a package charge with ⟨e, herror⟩ | ⟨hcolumns, -⟩
    · refine ⟨?_, .inr ⟨e, herror⟩⟩
      by_contra hle
      -- The row is refused for another value, and that is what the caller sees.
      have hresult := hfree charge hcharge (by omega)
      rw [herror] at hreserve
      rw [hreserve] at hresult
      cases hresult
      rcases columns_error herror with hdata | hvalidation
      · cases hdata
      · cases hvalidation
    · have hpos : 0 < charge.units 6 := by
        by_contra hle
        rw [hcolumns, storedAmount_none (by omega)] at hreserve
        have hleak := (hleaks s .transactionManagement (by rw [hreserve])).2
        cases hleak
      exact ⟨coeff_pos hpos, .inl hpos⟩
  · intro hpaid
    constructor
    · intro charge hcharge hle
      have := (hpaid charge hcharge).1
      omega
    · intro s' e hstep
      split at hstep
      · rename_i e' herror
        cases hstep
        refine ⟨rfl, ?_⟩
        rw [reserveTopup_new h] at herror
        refine bind_leaks (fun _ => resolveTopupCharge_leaks) ?_ herror
        intro amount e hamount herror
        refine bind_leaks (fun _ => columns_leaks) ?_ herror
        intro stored e hstored herror
        cases stored with
        | none =>
          exfalso
          cases amount with
          | finite charge =>
            obtain ⟨-, hpos⟩ := hpaid charge hamount
            rcases @columns_finite a package charge with ⟨e, hrefused⟩ | ⟨hcolumns, hlt⟩
            · rw [hrefused] at hstored
              cases hstored
            · rcases hpos with hpos | ⟨e, hrefused⟩
              · rw [hcolumns, storedAmount, dif_pos ⟨hpos, hlt⟩] at hstored
                cases hstored
              · rw [hrefused] at hcolumns
                cases hcolumns
          | infinity negative => cases hstored
          | nan signaling => cases hstored
        | some stored =>
          obtain ⟨topups, htopups⟩ := topup_inserted h package stored
          dsimp only at herror
          rw [htopups] at herror
          dsimp only at herror
          refine bind_leaks (fun _ => preparePosting_leaks) ?_ herror
          intro p e _ herror
          exact bind_leaks (fun _ => apply_leaks) (fun _ _ _ hc => by cases hc) herror
      · cases hstep
      · cases hstep

/-- **An order and a top-up agree on what is free exactly when the top-up is paid for.** -/
theorem free_goods_iff {c : SpendSettings} {s : SpendDb} {order : FulfillArgs} {draw : Draw Nat}
    {topup : PurchaseArgs} {package : TopupPackage} {topupDraw : Draw Uuid}
    (horder : UnusedOrder c s order draw) (htopup : UnusedTopup c s topup topupDraw) :
    (OrderAgrees c s order draw ∧ TopupAgrees c s topup package topupDraw)
      ↔ PaidFor c s topup package topupDraw := by
  rw [topup_agrees_iff htopup]
  exact ⟨And.right, fun h => ⟨order_agrees horder, h⟩⟩

/-- A top-up that costs nothing. -/
def freeTopup : TopupPackage := ⟨"topup", "1 GB", "1 GB", 7, .finite ⟨0, 0⟩, none, false, "topup"⟩

theorem freeTopup_new : UnusedTopup spendSettings twoFunded topupTeam ⟨alice, false, none⟩ where
  billing := rfl
  unraced := rfl
  unused := rfl
  newId := fun _ ht => nomatch ht
  owned := ⟨_, rfl, rfl⟩

theorem freeOrder_new :
    UnusedOrder spendSettings twoFunded ⟨7, alice, ⟨"pkg", 0, none⟩, none, false, some "key", none⟩
      ⟨1, false, none⟩ where
  billing := rfl
  paid := rfl
  given := by decide
  unraced := rfl
  unused := by decide
  newId := fun _ ho => nomatch ho
  price := by decide
  net := fun _ hnet => nomatch hnet
  fits := ⟨by decide, fun _ hnet => nomatch hnet⟩
  profile := fun _ hp => nomatch hp
  texts := ⟨by decide, by decide, by decide⟩

/-- The free order is refused with `InvalidAmountError`, and the free top-up with an error of the
database. -/
theorem free_topup_leaks :
    spendStep spendSettings twoFunded
        ⟨.fulfill ⟨7, alice, ⟨"pkg", 0, none⟩, none, false, some "key", none⟩, .asked⟩
          (.order ⟨1, false, none⟩)
      = some (twoFunded, ⟨.fulfill ⟨7, alice, ⟨"pkg", 0, none⟩, none, false, some "key", none⟩,
          .refused (.invalidAmount .notPositive)⟩)
    ∧ spendStep spendSettings twoFunded ⟨.purchase topupTeam, .reserving topupTeam freeTopup⟩
        (.topup ⟨alice, false, none⟩)
      = some (twoFunded, ⟨.purchase topupTeam, .refused .transactionManagement⟩)
    ∧ ¬ TopupAgrees spendSettings twoFunded topupTeam freeTopup ⟨alice, false, none⟩ := by
  refine ⟨rfl, rfl, ?_⟩
  rintro ⟨hfree, -⟩
  have hresult := hfree ⟨0, 0⟩ rfl (by decide)
  cases hresult

/-- The order that is free, and a top-up of five dollars and half a cent. -/
theorem free_goods_halfCent :
    OrderAgrees spendSettings twoFunded ⟨7, alice, ⟨"pkg", 0, none⟩, none, false, some "key", none⟩
        ⟨1, false, none⟩
      ∧ TopupAgrees spendSettings twoFunded topupTeam halfCentTopup ⟨alice, false, none⟩ := by
  refine (free_goods_iff freeOrder_new freeTopup_new).2 ?_
  intro charge hcharge
  cases hcharge
  exact ⟨by decide, .inl (by decide)⟩

end Roamkit.Spend.Proof
