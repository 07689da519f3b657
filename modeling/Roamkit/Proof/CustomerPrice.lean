import Roamkit.Lib.Rounding
import Roamkit.Proof.Prices

/-!
# What a customer pays

`resolve` at every price `money_round` takes, up to the 28 digits of the context. The
products it forms may be longer and are rounded on the way, which `Lib.Dec.Counts` follows;
`charge` is what comes out, and what it does with each of its arguments is monotonicity of
`Lib.Dec.keep`.
-/

namespace Roamkit.Pricing.Proof

open Lib Lib.Dec

/-- A number of units of `10 ^ -6` in cents, halves up. -/
def toCents (n : Nat) : Nat := (2 * n + 10 ^ 4) / (2 * 10 ^ 4)

theorem toCents_cents (n : Nat) : toCents (n * 10 ^ 4) = n := by
  unfold toCents
  omega

theorem toCents_mono {m n : Nat} (h : m ≤ n) : toCents m ≤ toCents n := by
  unfold toCents
  omega

/-- What `_legacy_percent_off_list` leaves of a list price, of which `rest` hundredths of a
percent remain. -/
def legacyPrice (list rest : Nat) : Nat := toCents (keep (keep (list * rest)))

/-- What `_margin_share_customer` puts on a net price. -/
def wholesalePrice (list net rest : Nat) : Nat :=
  toCents (keep (net * 10 ^ 4 + keep (keep ((list - net) * rest))))

section Prices

variable {list list' net net' rest rest' : Nat}

/-- A part of a price is no more than the price. -/
theorem keep_part_le (hlist : list < 10 ^ precision) (hrest : rest ≤ 10 ^ 4) :
    keep (keep (list * rest)) ≤ list * 10 ^ 4 := by
  have hmul : list * rest ≤ list * 10 ^ 4 := Nat.mul_le_mul_left _ hrest
  have honce := keep_mono hmul
  rw [keep_of_short hlist] at honce
  have htwice := keep_mono honce
  rwa [keep_of_short hlist] at htwice

theorem legacyPrice_le (hlist : list < 10 ^ precision) (hrest : rest ≤ 10 ^ 4) :
    legacyPrice list rest ≤ list := by
  have h := toCents_mono (keep_part_le hlist hrest)
  rwa [toCents_cents] at h

theorem legacyPrice_mono (hlist : list ≤ list') (hrest : rest ≤ rest') :
    legacyPrice list rest ≤ legacyPrice list' rest' :=
  toCents_mono (keep_mono (keep_mono (Nat.mul_le_mul hlist hrest)))

theorem keep_zero : keep 0 = 0 := keep_of_lt (Nat.pow_pos (by omega))

theorem legacyPrice_zero : legacyPrice list 0 = 0 := by
  rw [legacyPrice, Nat.mul_zero, keep_zero, keep_zero]
  rfl

theorem net_le_wholesalePrice (hnet : net < 10 ^ precision) :
    net ≤ wholesalePrice list net rest := by
  have hsum : net * 10 ^ 4 ≤ net * 10 ^ 4 + keep (keep ((list - net) * rest)) :=
    Nat.le_add_right _ _
  have hkeep := keep_mono hsum
  rw [keep_of_short hnet] at hkeep
  have h := toCents_mono hkeep
  rwa [toCents_cents] at h

theorem wholesalePrice_le (hlist : list < 10 ^ precision) (hle : net ≤ list)
    (hrest : rest ≤ 10 ^ 4) :
    wholesalePrice list net rest ≤ list := by
  have hmargin : list - net < 10 ^ precision := by omega
  have hpart := keep_part_le hmargin hrest
  have hsum : net * 10 ^ 4 + keep (keep ((list - net) * rest)) ≤ list * 10 ^ 4 := by
    have hsplit : net * 10 ^ 4 + (list - net) * 10 ^ 4 = list * 10 ^ 4 := by
      rw [← Nat.add_mul, Nat.add_sub_cancel' hle]
    omega
  have hkeep := keep_mono hsum
  rw [keep_of_short hlist] at hkeep
  have h := toCents_mono hkeep
  rwa [toCents_cents] at h

theorem wholesalePrice_mono (hlist : list ≤ list') (hrest : rest ≤ rest') :
    wholesalePrice list net rest ≤ wholesalePrice list' net rest' := by
  have hmul : (list - net) * rest ≤ (list' - net) * rest' :=
    Nat.mul_le_mul (Nat.sub_le_sub_right hlist _) hrest
  exact toCents_mono (keep_mono (Nat.add_le_add_left (keep_mono (keep_mono hmul)) _))

theorem wholesalePrice_zero (hnet : net < 10 ^ precision) : wholesalePrice list net 0 = net := by
  rw [wholesalePrice, Nat.mul_zero, keep_zero, keep_zero, Nat.add_zero, keep_of_short hnet,
    toCents_cents]

/-- As long as no product has more than 28 digits, nothing is rounded before the cents. -/
theorem wholesalePrice_exact (hlist : list < 10 ^ 24) (hle : net ≤ list) (hrest : rest ≤ 10 ^ 4) :
    wholesalePrice list net rest = toCents (net * 10 ^ 4 + (list - net) * rest) := by
  have hprec : 10 ^ precision = 10 ^ 24 * 10 ^ 4 := rfl
  have hmul : (list - net) * rest ≤ (list - net) * 10 ^ 4 := Nat.mul_le_mul_left _ hrest
  have hsum : net * 10 ^ 4 + (list - net) * rest < 10 ^ precision := by omega
  have hpart : (list - net) * rest < 10 ^ precision := by omega
  rw [wholesalePrice, keep_of_lt hpart, keep_of_lt hpart, keep_of_lt hsum]

theorem wholesalePrice_mono_net (hlist : list < 10 ^ 24) (hle : net ≤ net') (hle' : net' ≤ list)
    (hrest : rest ≤ 10 ^ 4) : wholesalePrice list net rest ≤ wholesalePrice list net' rest := by
  rw [wholesalePrice_exact hlist (by omega) hrest, wholesalePrice_exact hlist hle' hrest]
  refine toCents_mono ?_
  obtain ⟨d, rfl⟩ : ∃ d, net' = net + d := ⟨net' - net, by omega⟩
  have hsplit : (list - net) * rest = (list - (net + d)) * rest + d * rest := by
    rw [← Nat.add_mul]
    congr 1
    omega
  have hstep : d * rest ≤ d * 10 ^ 4 := Nat.mul_le_mul_left _ hrest
  have hexpand : (net + d) * 10 ^ 4 = net * 10 ^ 4 + d * 10 ^ 4 := Nat.add_mul ..
  omega

end Prices

/-! ## The formulas of the service -/

theorem counts_remainder {discount : Nat} (h : discount ≤ 10000) :
    Counts (remainder discount) (-2) (10000 - discount : Nat) := by
  rw [remainder_eq (by omega) (by omega)]
  refine ⟨Int.le_refl _, ?_⟩
  norm_num
  omega

theorem moneyRound_counts {d : Dec} {n : Nat} (h : Counts d (-6) n)
    (hfits : toCents n < 10 ^ precision) : moneyRound (.finite d) = .ok (toCents n : Nat) := by
  have hunits : d.units 2 = (toCents n : Nat) := @Counts.units d 2 4 n h
  rw [moneyRound_eq, hunits]
  rw [hunits]
  exact hfits

theorem legacyPercentOffList_counts {list discount : Nat} (hlist : list < 10 ^ precision)
    (h : discount ≤ 10000) :
    legacyPercentOffList list discount = .ok (legacyPrice list (10000 - discount) : Nat) := by
  have hfits := (legacyPrice_le hlist (Nat.sub_le 10000 discount)).trans_lt hlist
  have hlist2 : Counts (Dec.ofUnits 2 list) (-2) list := counts_ofUnits 2 list
  exact moneyRound_counts (hlist2.mul (counts_remainder h)).percent hfits

theorem marginShareCustomer_counts {list net discount : Nat} (hlist : list < 10 ^ precision)
    (hle : net ≤ list) (h : discount ≤ 10000) :
    marginShareCustomer list net discount
      = .ok (wholesalePrice list net (10000 - discount) : Nat) := by
  have hfits := (wholesalePrice_le hlist hle (Nat.sub_le 10000 discount)).trans_lt hlist
  have hmargin : Dec.sub (Dec.ofUnits 2 list) (Dec.ofUnits 2 net)
      = Dec.ofUnits 2 (list - net : Nat) := by
    rw [sub_cents (by omega), Int.ofNat_sub hle]
  have hnet : Counts (Dec.ofUnits 2 net) (-6) (net * 10 ^ 4) := (counts_ofUnits 2 net).finer 4
  have hshare : Counts (if 0 < (Dec.ofUnits 2 (list - net : Nat)).coeff then
    Dec.ofUnits 2 (list - net : Nat)
      else ⟨0, 0⟩) (-2) (list - net) := by
    split
    · exact counts_ofUnits 2 _
    · rename_i hnone
      have hsame : list - net = 0 := by
        have hcoeff : ¬ (0 : Int) < (list - net : Nat) := hnone
        omega
      rw [hsame]
      exact ⟨by decide, by decide⟩
  unfold marginShareCustomer
  dsimp only
  rw [hmargin]
  exact moneyRound_counts (hnet.add (hshare.mul (counts_remainder h)).percent) hfits

/-- What a profile in force charges for a list price and, where it is known, a net price. -/
def charge (policy : FloorPolicy) (discount list : Nat) (net : Option Nat) : Nat :=
  if discount = 0 then list
  else
    match policy, net with
    | .none, _ => legacyPrice list (10000 - discount)
    | .wholesale, none => list
    | .wholesale, some net =>
        if list < net then list else wholesalePrice list net (10000 - discount)

section Charge

variable {policy : FloorPolicy} {discount discount' list list' net net' : Nat} {net? : Option Nat}

theorem charge_free : charge policy 0 list net? = list := if_pos rfl

theorem charge_of_missing : charge .wholesale discount list none = list := by
  unfold charge
  split
  · rfl
  · rfl

theorem charge_of_invalid (h : list < net) : charge .wholesale discount list (some net) = list := by
  unfold charge
  split
  · rfl
  · exact if_pos h

theorem charge_of_margin (h : net ≤ list) (hnet : net < 10 ^ precision) :
    charge .wholesale 10000 list (some net) = net := by
  unfold charge
  rw [if_neg (by omega)]
  dsimp only
  rw [if_neg (by omega)]
  exact wholesalePrice_zero hnet

theorem charge_of_legacy : charge .none 10000 list net? = 0 := by
  unfold charge
  rw [if_neg (by omega)]
  exact legacyPrice_zero

/-- **Nobody is charged more than the list price.** -/
theorem charge_le (hlist : list < 10 ^ precision) : charge policy discount list net? ≤ list := by
  unfold charge
  split
  · exact Nat.le_refl _
  · split
    · exact legacyPrice_le hlist (Nat.sub_le _ _)
    · exact Nat.le_refl _
    · split
      · exact Nat.le_refl _
      · exact wholesalePrice_le hlist (by omega) (Nat.sub_le _ _)

/-- **A profile with a wholesale floor charges the net price at least.** -/
theorem net_le_charge (h : net ≤ list) (hnet : net < 10 ^ precision) :
    net ≤ charge .wholesale discount list (some net) := by
  unfold charge
  split
  · exact h
  · dsimp only
    rw [if_neg (by omega)]
    exact net_le_wholesalePrice hnet

/-- **A larger discount charges no more.** -/
theorem charge_antitone (hlist : list < 10 ^ precision) (h : discount ≤ discount') :
    charge policy discount' list net? ≤ charge policy discount list net? := by
  by_cases hzero : discount = 0
  · rw [hzero, charge_free]
    exact charge_le hlist
  · have hrest : 10000 - discount' ≤ 10000 - discount := by omega
    unfold charge
    rw [if_neg hzero, if_neg (by omega : discount' ≠ 0)]
    split
    · exact legacyPrice_mono (Nat.le_refl _) hrest
    · exact Nat.le_refl _
    · split
      · exact Nat.le_refl _
      · exact wholesalePrice_mono (Nat.le_refl _) hrest

/-- **A higher list price charges no less**, also where it comes to cover the net price. -/
theorem charge_mono (hlist' : list' < 10 ^ precision) (h : list ≤ list') :
    charge policy discount list net? ≤ charge policy discount list' net? := by
  unfold charge
  split
  · exact h
  · split
    · exact legacyPrice_mono h (Nat.le_refl _)
    · exact h
    · rename_i net
      by_cases hlow : list < net
      · rw [if_pos hlow]
        by_cases hhigh : list' < net
        · rw [if_pos hhigh]
          exact h
        · -- the net price is charged at least, and the lower list price was below it
          have hnet : net ≤ wholesalePrice list' net (10000 - discount) :=
            net_le_wholesalePrice (by omega)
          rw [if_neg hhigh]
          omega
      · rw [if_neg hlow, if_neg (by omega)]
        exact wholesalePrice_mono h (Nat.le_refl _)

/-- **A higher net price charges no less**, as long as no product loses a digit. -/
theorem charge_mono_net (hlist : list < 10 ^ 24) (h : net ≤ net') :
    charge policy discount list (some net) ≤ charge policy discount list (some net') := by
  have hprec : (10 : Nat) ^ 24 ≤ 10 ^ precision := by decide
  unfold charge
  split
  · exact Nat.le_refl _
  · cases policy with
    | none => exact Nat.le_refl _
    | wholesale =>
      dsimp only
      by_cases hlow : list < net
      · rw [if_pos hlow, if_pos (by omega)]
      · rw [if_neg hlow]
        by_cases hhigh : list < net'
        · rw [if_pos hhigh]
          exact wholesalePrice_le (by omega) (by omega) (Nat.sub_le _ _)
        · rw [if_neg hhigh]
          exact wholesalePrice_mono_net hlist h (by omega) (Nat.sub_le _ _)

end Charge

/-! ## The answer of `resolve` -/

/-- A price of zero or more that `money_round` takes. -/
structure RoundedPrice where
  price : Dec
  nonneg : 0 ≤ price.coeff
  fits : (price.units 2).natAbs < 10 ^ precision

namespace RoundedPrice

/-- What `money_round` makes of the price. -/
def cents (p : RoundedPrice) : Nat := (p.price.units 2).natAbs

theorem cents_lt (p : RoundedPrice) : p.cents < 10 ^ precision := p.fits

theorem cents_mono {p q : RoundedPrice} (h : ¬ q.price.lt p.price = true) : p.cents ≤ q.cents := by
  have hmono := units_mono 2 p.nonneg q.nonneg h
  have hzero := units_nonneg 2 p.nonneg
  unfold cents
  omega

theorem moneyRound_eq (p : RoundedPrice) : moneyRound (.finite p.price) = .ok (p.cents : Nat) := by
  have hzero := units_nonneg 2 p.nonneg
  rw [Proof.moneyRound_eq p.fits]
  unfold cents
  congr 1
  omega

end RoundedPrice

/-- `resolve` quotes a list price and what the customer pays of it, in cents. -/
def Charges (now : Time) (profile : Option PricingProfile) (list : RoundedPrice)
    (net : Option RoundedPrice) (customer : Nat) : Prop :=
  ∃ q, resolve true ⟨.finite list.price, net.map fun n => .finite n.price, now, profile⟩ = .ok q
    ∧ q.listPrice = list.cents ∧ q.customerPrice = customer

theorem discount_nat {p : PricingProfile} (h : p.InRange) :
    ∃ discount : Nat, p.discountPercent = discount ∧ discount ≤ 10000 := by
  obtain ⟨hnonneg, hle⟩ := h
  exact ⟨p.discountPercent.toNat, by omega, by omega⟩

theorem mapM_moneyRound (net : Option RoundedPrice) :
    (net.map fun n => PyDecimal.finite n.price).mapM moneyRound
      = .ok (net.map fun n => (n.cents : Int)) := by
  cases net with
  | none => rfl
  | some n =>
    show (do return some (← moneyRound (.finite n.price)) : Except Exc (Option Int)) = _
    rw [n.moneyRound_eq]
    rfl

section Resolve

variable {now : Time} {p : PricingProfile} {list : RoundedPrice} {net : Option RoundedPrice}

/-- A list price is due in full without a profile in force. -/
theorem charges_retail {profile : Option PricingProfile}
    (h : ∀ p, profile = some p → ¬ p.isEffective now = true) :
    Charges now profile list net list.cents := by
  unfold Charges resolve
  rw [list.moneyRound_eq, mapM_moneyRound]
  cases profile with
  | none => exact ⟨_, rfl, rfl, rfl⟩
  | some p =>
    dsimp only [bind, Except.bind]
    rw [if_pos (.inr (h p rfl))]
    exact ⟨_, rfl, rfl, rfl⟩

/-- **With a profile in force, `resolve` quotes `charge`.** -/
theorem charges_effective (heffective : p.isEffective now = true) {discount : Nat}
    (hdiscount : p.discountPercent = discount) (hle : discount ≤ 10000) :
    Charges now (some p) list net
      (charge p.floorPolicy discount list.cents (net.map RoundedPrice.cents)) := by
  unfold Charges resolve
  rw [list.moneyRound_eq, mapM_moneyRound]
  dsimp only [bind, Except.bind]
  rw [if_neg (by simp [heffective])]
  unfold charge
  by_cases hzero : discount = 0
  · rw [if_pos hzero, if_pos (by omega)]
    exact ⟨_, rfl, rfl, rfl⟩
  · rw [if_neg hzero, if_neg (by omega), hdiscount]
    cases hpolicy : p.floorPolicy with
    | none =>
      rw [if_pos rfl, legacyPercentOffList_counts list.cents_lt hle]
      exact ⟨_, rfl, rfl, rfl⟩
    | wholesale =>
      rw [if_neg (by decide)]
      cases net with
      | none => exact ⟨_, rfl, rfl, rfl⟩
      | some n =>
        dsimp only [Option.map_some]
        rw [n.moneyRound_eq]
        dsimp only
        by_cases hlt : list.cents < n.cents
        · rw [if_pos (by omega), if_pos hlt]
          exact ⟨_, rfl, rfl, rfl⟩
        · rw [if_neg (by omega), if_neg hlt,
            marginShareCustomer_counts list.cents_lt (by omega) hle]
          exact ⟨_, rfl, rfl, rfl⟩

theorem Charges.unique {profile : Option PricingProfile} {customer customer' : Nat}
    (h : Charges now profile list net customer) (h' : Charges now profile list net customer') :
    customer = customer' := by
  obtain ⟨q, hq, -, hcustomer⟩ := h
  obtain ⟨q', hq', -, hcustomer'⟩ := h'
  rw [hq] at hq'
  cases hq'
  omega

/-- What is charged under a profile in force. -/
theorem Charges.eq_charge (heffective : p.isEffective now = true) {discount customer : Nat}
    (hdiscount : p.discountPercent = discount) (hle : discount ≤ 10000)
    (h : Charges now (some p) list net customer) :
    customer = charge p.floorPolicy discount list.cents (net.map RoundedPrice.cents) :=
  h.unique (charges_effective heffective hdiscount hle)

end Resolve

/-- What holds of the prices `resolve` quotes at one moment, of every list price and net price
and of every profile within its range. -/
structure PriceLaws (now : Time) : Prop where
  /-- A price of more digits than the context has is refused, the net price also where
  nothing reads it. -/
  refused : ∀ (profile : Option PricingProfile) (list : Dec) (net : Option Dec),
    10 ^ precision ≤ (list.units 2).natAbs
      ∨ (∃ n, net = some n ∧ 10 ^ precision ≤ (n.units 2).natAbs) →
    resolve true ⟨.finite list, net.map .finite, now, profile⟩ = .error .invalidOperation
  /-- Every other price is quoted. -/
  quoted : ∀ (profile : Option PricingProfile) (list : RoundedPrice) (net : Option RoundedPrice),
    (∀ p, profile = some p → p.InRange) → ∃ customer, Charges now profile list net customer
  /-- Without a profile in force the list price is due. -/
  retail : ∀ (profile : Option PricingProfile) (list : RoundedPrice) (net : Option RoundedPrice)
    (customer : Nat), (∀ p, profile = some p → ¬ p.isEffective now = true) →
    Charges now profile list net customer → customer = list.cents
  /-- Neither is less due without a discount. -/
  free : ∀ (p : PricingProfile) (list : RoundedPrice) (net : Option RoundedPrice) (customer : Nat),
    p.isEffective now = true → p.discountPercent = 0 →
    Charges now (some p) list net customer → customer = list.cents
  /-- A percentage off the list price stays below it, and the whole of it leaves nothing. -/
  legacy : ∀ (p : PricingProfile) (list : RoundedPrice) (net : Option RoundedPrice)
    (customer : Nat), p.isEffective now = true → p.InRange → p.floorPolicy = .none →
    Charges now (some p) list net customer →
    customer ≤ list.cents ∧ (p.discountPercent = 10000 → customer = 0)
  /-- A share of the margin stays between the two prices, and the whole of it leaves the net
  price; without a margin the list price is due. -/
  wholesale : ∀ (p : PricingProfile) (list : RoundedPrice) (customer : Nat),
    p.isEffective now = true → p.InRange → p.floorPolicy = .wholesale →
    (Charges now (some p) list none customer → customer = list.cents)
    ∧ ∀ net, Charges now (some p) list (some net) customer →
      (list.cents < net.cents → customer = list.cents)
      ∧ (net.cents ≤ list.cents → net.cents ≤ customer ∧ customer ≤ list.cents
        ∧ (p.discountPercent = 10000 → customer = net.cents))
  /-- A larger discount leaves no more to pay. -/
  discounts : ∀ (p p' : PricingProfile) (list : RoundedPrice) (net : Option RoundedPrice)
    (customer customer' : Nat), p.isEffective now = true → p'.isEffective now = true →
    p.InRange → p'.InRange → p.floorPolicy = p'.floorPolicy →
    p.discountPercent ≤ p'.discountPercent →
    Charges now (some p) list net customer → Charges now (some p') list net customer' →
    customer' ≤ customer
  /-- A higher list price leaves no less to pay. -/
  lists : ∀ (p : PricingProfile) (list list' : RoundedPrice) (net : Option RoundedPrice)
    (customer customer' : Nat), p.isEffective now = true → p.InRange →
    ¬ list'.price.lt list.price = true →
    Charges now (some p) list net customer → Charges now (some p) list' net customer' →
    customer ≤ customer'
  /-- A higher net price leaves no less to pay of a list price below `10 ^ 22`. -/
  nets : ∀ (p : PricingProfile) (list net net' : RoundedPrice) (customer customer' : Nat),
    p.isEffective now = true → p.InRange → list.cents < 10 ^ 24 →
    ¬ net'.price.lt net.price = true →
    Charges now (some p) list (some net) customer
      → Charges now (some p) list (some net') customer' →
    customer ≤ customer'

theorem moneyRound_refused {d : Dec} (h : 10 ^ precision ≤ (d.units 2).natAbs) :
    moneyRound (.finite d) = .error .invalidOperation := by
  have hquantize : d.quantize 2 = none := if_neg (Nat.not_lt_of_le h)
  unfold moneyRound
  dsimp only
  rw [hquantize]

theorem moneyRound_finite (d : Dec) :
    (∃ n, moneyRound (.finite d) = .ok n) ∨ moneyRound (.finite d) = .error .invalidOperation := by
  by_cases h : (d.units 2).natAbs < 10 ^ precision
  · exact .inl ⟨_, moneyRound_eq h⟩
  · exact .inr (moneyRound_refused (Nat.le_of_not_lt h))

theorem resolve_refused {flagEnabled : Bool} {now : Time} {profile : Option PricingProfile}
    {list : Dec} {net : Option Dec} (h : 10 ^ precision ≤ (list.units 2).natAbs
      ∨ ∃ n, net = some n ∧ 10 ^ precision ≤ (n.units 2).natAbs) :
    resolve flagEnabled ⟨.finite list, net.map .finite, now, profile⟩
      = .error .invalidOperation := by
  unfold resolve
  rcases moneyRound_finite list with ⟨n, hn⟩ | herror
  · rcases h with hlist | ⟨m, rfl, hm⟩
    · rw [moneyRound_refused hlist] at hn
      cases hn
    · have hnet : ((some m).map PyDecimal.finite).mapM moneyRound = .error .invalidOperation := by
        show (do return some (← moneyRound (.finite m)) : Except Exc (Option Int)) = _
        rw [moneyRound_refused hm]
        rfl
      rw [hn, hnet]
      rfl
  · rw [herror]
    rfl

theorem customer_price_laws (now : Time) : PriceLaws now where
  refused := fun _ _ _ h => resolve_refused h
  quoted := by
    intro profile list net hrange
    by_cases hnone : ∀ p, profile = some p → ¬ p.isEffective now = true
    · exact ⟨_, charges_retail hnone⟩
    · push Not at hnone
      obtain ⟨p, rfl, heffective⟩ := hnone
      obtain ⟨discount, hdiscount, hle⟩ := discount_nat (hrange p rfl)
      exact ⟨_, charges_effective heffective hdiscount hle⟩
  retail := fun _ _ _ _ hnone h => h.unique (charges_retail hnone)
  free := by
    intro p list net customer heffective hzero h
    have heq := h.eq_charge heffective hzero (Nat.zero_le _)
    rwa [charge_free] at heq
  legacy := by
    intro p list net customer heffective hrange hpolicy h
    obtain ⟨discount, hdiscount, hle⟩ := discount_nat hrange
    have heq := h.eq_charge heffective hdiscount hle
    rw [hpolicy] at heq
    rw [heq]
    refine ⟨charge_le list.cents_lt, ?_⟩
    intro hall
    obtain rfl : discount = 10000 := by omega
    exact charge_of_legacy
  wholesale := by
    intro p list customer heffective hrange hpolicy
    obtain ⟨discount, hdiscount, hle⟩ := discount_nat hrange
    constructor
    · intro h
      have heq := h.eq_charge heffective hdiscount hle
      rw [hpolicy] at heq
      exact heq.trans charge_of_missing
    · intro net h
      have heq := h.eq_charge heffective hdiscount hle
      rw [hpolicy] at heq
      rw [heq]
      refine ⟨charge_of_invalid, fun hmargin => ⟨?_, charge_le list.cents_lt, ?_⟩⟩
      · exact net_le_charge hmargin net.cents_lt
      · intro hall
        obtain rfl : discount = 10000 := by omega
        exact charge_of_margin hmargin net.cents_lt
  discounts := by
    intro p p' list net customer customer' heffective heffective' hrange hrange' hpolicy hle h h'
    obtain ⟨discount, hdiscount, hmax⟩ := discount_nat hrange
    obtain ⟨discount', hdiscount', hmax'⟩ := discount_nat hrange'
    rw [h.eq_charge heffective hdiscount hmax, h'.eq_charge heffective' hdiscount' hmax', hpolicy]
    exact charge_antitone list.cents_lt (by omega)
  lists := by
    intro p list list' net customer customer' heffective hrange hle h h'
    obtain ⟨discount, hdiscount, hmax⟩ := discount_nat hrange
    rw [h.eq_charge heffective hdiscount hmax, h'.eq_charge heffective hdiscount hmax]
    exact charge_mono list'.cents_lt (RoundedPrice.cents_mono hle)
  nets := by
    intro p list net net' customer customer' heffective hrange hsmall hle h h'
    obtain ⟨discount, hdiscount, hmax⟩ := discount_nat hrange
    rw [h.eq_charge heffective hdiscount hmax, h'.eq_charge heffective hdiscount hmax]
    exact charge_mono_net hsmall (RoundedPrice.cents_mono hle)

/-- A profile that leaves 4.65 percent of the margin to the customer. -/
def smallShare : PricingProfile :=
  ⟨⟨"3f1c9a52-0b7d-4e6a-9c41-5d2e8f70ab14", by decide⟩, 1, 465, .wholesale, true, none, none, none⟩

/-- A list price of `10 ^ 26` is refused. At one below it the share of the margin and the sum
are each rounded to 28 digits, and a net price of one cent brings the customer's price down
from a cent above `10 ^ 25` to that number. -/
theorem customer_price_steps_back :
    resolve true ⟨.finite ⟨10 ^ 26, 0⟩, none, 0, none⟩ = .error .invalidOperation
    ∧ ((resolve true ⟨cents 1048767697954902988987939172, some (cents 0), 0, some smallShare⟩).map
        PricingQuote.customerPrice).toOption = some 1000000000000000000000000001
    ∧ ((resolve true ⟨cents 1048767697954902988987939172, some (cents 1), 0, some smallShare⟩).map
        PricingQuote.customerPrice).toOption = some 1000000000000000000000000000 := by
  refine ⟨?_, by decide, by decide⟩
  exact @resolve_refused true 0 none ⟨10 ^ 26, 0⟩ none (.inl (by decide))

end Roamkit.Pricing.Proof
