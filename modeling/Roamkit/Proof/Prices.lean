import Roamkit.Pricing.Presentation

/-!
# What a quote comes to

The arithmetic of a quote stays within the precision of a `Decimal`, so no product or sum
is rounded before `money_round` rounds the price. What the customer pays is therefore a
function of the list price and the net price in cents and of the terms in force.
-/

namespace Roamkit.Pricing.Proof

open Lib

/-! ## Arithmetic that keeps every digit -/

theorem round_eq {d : Dec} (h : d.coeff.natAbs < 10 ^ precision) : Dec.round d = d := by
  have hdigits : (Nat.toDigits 10 d.coeff.natAbs).length ≤ precision :=
    (Nat.length_toDigits_le_iff (by omega) (by decide)).2 h
  unfold Dec.round
  exact if_pos hdigits

theorem quantize_eq {places : Nat} {d : Dec} (h : (d.units places).natAbs < 10 ^ precision) :
    d.quantize places = some (d.units places) := if_pos h

theorem moneyRound_eq {d : Dec} (h : (d.units 2).natAbs < 10 ^ precision) :
    moneyRound (.finite d) = .ok (d.units 2) := by
  unfold moneyRound
  dsimp only
  rw [quantize_eq h]

theorem remainder_eq {discount : Int} (h : 0 ≤ discount) (h' : discount ≤ 10000) :
    remainder discount = ⟨10000 - discount, -2⟩ := by
  have hsub : remainder discount = Dec.round ⟨10000 - discount, -2⟩ := by
    unfold remainder Dec.sub Dec.ofUnits
    norm_num [Int.toNat]
  rw [hsub]
  refine round_eq ?_
  show (10000 - discount).natAbs < 10 ^ precision
  unfold precision
  omega

variable (x : Int) {m n r : Int}

/-- A product of cents and of a percentage, in millionths. -/
theorem percent_mul (h : (m * r).natAbs < 10 ^ precision) :
    Dec.percent (Dec.mul (Dec.ofUnits 2 m) ⟨r, -2⟩) = ⟨m * r, -6⟩ := by
  have hmul : Dec.mul (Dec.ofUnits 2 m) ⟨r, -2⟩ = ⟨m * r, -4⟩ := by
    unfold Dec.mul Dec.ofUnits
    exact round_eq h
  rw [hmul]
  unfold Dec.percent
  exact round_eq h

theorem sub_cents (h : (m - n).natAbs < 10 ^ precision) :
    Dec.sub (Dec.ofUnits 2 m) (Dec.ofUnits 2 n) = Dec.ofUnits 2 (m - n) := by
  have hsub : Dec.sub (Dec.ofUnits 2 m) (Dec.ofUnits 2 n) = Dec.round ⟨m - n, -2⟩ := by
    unfold Dec.sub Dec.ofUnits
    norm_num [Int.toNat]
  rw [hsub]
  exact round_eq h

theorem add_cents {x : Int} (h : (n * 10000 + x).natAbs < 10 ^ precision) :
    Dec.add (Dec.ofUnits 2 n) ⟨x, -6⟩ = ⟨n * 10000 + x, -6⟩ := by
  have hadd : Dec.add (Dec.ofUnits 2 n) ⟨x, -6⟩ = Dec.round ⟨n * 10000 + x, -6⟩ := by
    unfold Dec.add Dec.sub Dec.ofUnits
    norm_num [Int.toNat]
  rw [hadd]
  exact round_eq h

theorem units_micros : (⟨x, -6⟩ : Dec).units 2 = halfUp x 10000 := by
  unfold Dec.units
  norm_num [Int.toNat]

/-- No share of the margin is added where there is none. -/
theorem add_nothing (h : (n * 100).natAbs < 10 ^ precision) :
    moneyRound (.finite (Dec.add (Dec.ofUnits 2 n) (Dec.percent (Dec.mul ⟨0, 0⟩ ⟨r, -2⟩))))
      = .ok n := by
  have hmul : Dec.mul ⟨0, 0⟩ ⟨r, -2⟩ = ⟨0, -2⟩ := by
    unfold Dec.mul
    rw [Int.zero_mul]
    exact round_eq (Nat.pow_pos (by decide))
  have hadd : Dec.add (Dec.ofUnits 2 n) ⟨0, -4⟩ = ⟨n * 100, -4⟩ := by
    have hround : Dec.add (Dec.ofUnits 2 n) ⟨0, -4⟩ = Dec.round ⟨n * 100, -4⟩ := by
      unfold Dec.add Dec.sub Dec.ofUnits
      norm_num [Int.toNat]
    rw [hround]
    exact round_eq h
  have hunits : (⟨n * 100, -4⟩ : Dec).units 2 = n := halfUp_mul n (by decide)
  rw [hmul, show Dec.percent ⟨0, -2⟩ = ⟨0, -4⟩ from rfl, hadd, moneyRound_eq, hunits]
  rw [hunits]
  omega

/-- Rounding moves a number by half a unit at most. -/
theorem halfUp_close : 2 * x - 10000 ≤ 2 * (halfUp x 10000 * 10000)
    ∧ 2 * (halfUp x 10000 * 10000) ≤ 2 * x + 10000 := by
  unfold halfUp
  rcases lt_trichotomy x 0 with hneg | rfl | hpos
  · rw [Int.sign_eq_neg_one_of_neg hneg]
    omega
  · decide
  · rw [Int.sign_eq_one_of_pos hpos]
    omega

theorem natAbs_halfUp_le : (halfUp x 10000).natAbs ≤ x.natAbs + 1 := by
  obtain ⟨hlow, hhigh⟩ := halfUp_close x
  omega

theorem natAbs_halfUp (num : Int) {den : Nat} (hden : 0 < den) :
    (halfUp num den).natAbs = (2 * num.natAbs + den) / (2 * den) := by
  have hcast : ((2 * num.natAbs + den : Nat) / (2 * den) : Int)
      = ((2 * num.natAbs + den) / (2 * den) : Nat) := by
    norm_cast
  unfold halfUp
  rw [Int.natAbs_mul, Int.natAbs_sign]
  by_cases hnum : num = 0
  · rw [if_pos hnum, hnum, Nat.zero_mul]
    rw [Int.natAbs_zero, Nat.mul_zero, Nat.zero_add, Nat.div_eq_of_lt (by omega)]
  · rw [if_neg hnum, Nat.one_mul]
    norm_cast

/-- Rounding in larger units gives no larger a number. -/
theorem halfUp_antitone (n : Nat) {den den' : Nat} (hden : 0 < den) (hle : den ≤ den') :
    (2 * n + den') / (2 * den') ≤ (2 * n + den) / (2 * den) := by
  obtain ⟨q, hq⟩ : ∃ q, (2 * n + den') / (2 * den') = q := ⟨_, rfl⟩
  rw [hq, Nat.le_div_iff_mul_le (by omega)]
  have hmul : q * (2 * den') ≤ 2 * n + den' := by
    rw [← hq]
    exact Nat.div_mul_le_self _ _
  cases q with
  | zero => omega
  | succ q =>
    have hstep : (2 * q + 1) * den ≤ (2 * q + 1) * den' := Nat.mul_le_mul_left _ hle
    have hexpand : ∀ k : Nat, (q + 1) * (2 * k) = (2 * q + 1) * k + k := fun k => by ring
    rw [hexpand] at hmul ⊢
    omega

/-- A price is no more cents than millionths. -/
theorem units_two_le (d : Dec) : (d.units 2).natAbs ≤ (d.units 6).natAbs := by
  have hpow : ∀ k : Nat, 0 < 10 ^ k := fun k => Nat.pow_pos (by omega)
  have hone : ∀ k : Nat, (halfUp d.coeff (10 ^ k)).natAbs ≤ d.coeff.natAbs := by
    intro k
    have h := @halfUp_antitone d.coeff.natAbs 1 (10 ^ k) (by omega) (hpow k)
    rw [natAbs_halfUp _ (hpow k)]
    omega
  unfold Dec.units
  dsimp only
  by_cases htwo : 0 ≤ d.exp + (2 : Nat)
  · have hsix : 0 ≤ d.exp + (6 : Nat) := by omega
    rw [if_pos htwo, if_pos hsix, Int.natAbs_mul, Int.natAbs_mul, Int.natAbs_pow, Int.natAbs_pow]
    exact Nat.mul_le_mul_left _ (Nat.pow_le_pow_right (by decide) (by omega))
  · rw [if_neg htwo]
    by_cases hsix : 0 ≤ d.exp + (6 : Nat)
    · rw [if_pos hsix, Int.natAbs_mul, Int.natAbs_pow]
      exact (hone _).trans (Nat.le_mul_of_pos_right _ (Nat.pow_pos (by decide)))
    · rw [if_neg hsix, natAbs_halfUp _ (hpow _), natAbs_halfUp _ (hpow _)]
      exact halfUp_antitone _ (hpow _) (Nat.pow_le_pow_right (by omega) (by omega))

/-! ## The terms in force -/

/-- The discount and the policy of a profile that is in force. -/
def terms (flagEnabled : Bool) (profile : Option PricingProfile) (now : Time) :
    Option (Int × FloorPolicy) :=
  match profile with
  | none => none
  | some p =>
    if flagEnabled ∧ p.isEffective now ∧ 0 < p.discountPercent then
      some (p.discountPercent, p.floorPolicy)
    else none

theorem terms_off {flagEnabled : Bool} {profile : Option PricingProfile} {now : Time}
    (h : ¬ flagEnabled = true) : terms flagEnabled profile now = none := by
  unfold terms
  split
  · rfl
  · exact if_neg fun hc => h hc.1

/-- What is due, in cents, for prices in cents. -/
def due (list : Int) (net : Option Int) : Option (Int × FloorPolicy) → Int
  | none => list
  | some (discount, .none) => halfUp (list * (10000 - discount)) 10000
  | some (discount, .wholesale) =>
    match net with
    | none => list
    | some net =>
      if list < net then list
      else halfUp (net * 10000 + (list - net) * (10000 - discount)) 10000

section Bounds

variable {list net discount : Int}

/-- A part of a price is no larger than the price at full percentage. -/
theorem natAbs_mul_le (hr : 0 ≤ r) (hr' : r ≤ 10000) : (m * r).natAbs ≤ m.natAbs * 10000 := by
  rw [Int.natAbs_mul]
  exact Nat.mul_le_mul_left _ (by omega)

theorem legacyPercentOffList_eq (hlist : list.natAbs < 10 ^ 20) (h : 0 ≤ discount)
    (h' : discount ≤ 10000) :
    legacyPercentOffList list discount = .ok (halfUp (list * (10000 - discount)) 10000) := by
  have hmul := natAbs_mul_le (m := list) (r := 10000 - discount) (by omega) (by omega)
  have hsmall : (list * (10000 - discount)).natAbs + 1 < 10 ^ precision := by
    unfold precision
    omega
  unfold legacyPercentOffList
  rw [remainder_eq h h', percent_mul (by omega)]
  rw [moneyRound_eq, units_micros]
  rw [units_micros]
  have hclose := natAbs_halfUp_le (list * (10000 - discount))
  omega

theorem marginShareCustomer_eq (hlist : list.natAbs < 10 ^ 20) (hnet : net.natAbs < 10 ^ 20)
    (hle : net ≤ list) (h : 0 ≤ discount) (h' : discount ≤ 10000) :
    marginShareCustomer list net discount
      = .ok (halfUp (net * 10000 + (list - net) * (10000 - discount)) 10000) := by
  have hmul := natAbs_mul_le (m := list - net) (r := 10000 - discount) (by omega) (by omega)
  have hsmall : ((list - net) * (10000 - discount)).natAbs < 10 ^ precision := by
    unfold precision
    omega
  have hsum : (net * 10000 + (list - net) * (10000 - discount)).natAbs + 1 < 10 ^ precision := by
    unfold precision
    omega
  unfold marginShareCustomer
  dsimp only
  rw [sub_cents (by unfold precision; omega), remainder_eq h h']
  by_cases hlt : net < list
  · have hpos : 0 < (Dec.ofUnits 2 (list - net)).coeff := Int.sub_pos_of_lt hlt
    rw [if_pos hpos, percent_mul hsmall, add_cents (by omega)]
    rw [moneyRound_eq, units_micros]
    rw [units_micros]
    have hclose := natAbs_halfUp_le (net * 10000 + (list - net) * (10000 - discount))
    omega
  · obtain rfl : list = net := by omega
    have hnone : ¬ 0 < (Dec.ofUnits 2 (list - list)).coeff := by simp [Dec.ofUnits]
    rw [if_neg hnone, add_nothing (by unfold precision; omega)]
    rw [Int.sub_self, Int.zero_mul, Int.add_zero]
    exact congrArg Except.ok (halfUp_mul list (by decide)).symm

end Bounds

/-- **A quote is what the terms in force leave to pay.** -/
theorem resolve_due {flagEnabled : Bool} {list : Dec} {net : Option Dec} {now : Time}
    {profile : Option PricingProfile} (hlist : (list.units 2).natAbs < 10 ^ 20)
    (hnet : ∀ n, net = some n → (n.units 2).natAbs < 10 ^ 20)
    (hrange : ∀ p, profile = some p → p.InRange) :
    ∃ q, resolve flagEnabled ⟨.finite list, net.map .finite, now, profile⟩ = .ok q
      ∧ q.listPrice = list.units 2
      ∧ q.customerPrice
        = due (list.units 2) (net.map (Dec.units 2)) (terms flagEnabled profile now) := by
  have hfits : ∀ d : Dec, (d.units 2).natAbs < 10 ^ 20 → (d.units 2).natAbs < 10 ^ precision := by
    intro d hd
    unfold precision
    omega
  have hhash : ∃ n, (net.map PyDecimal.finite).mapM moneyRound = .ok n := by
    cases net with
    | none => exact ⟨none, rfl⟩
    | some n =>
      refine ⟨some (n.units 2), ?_⟩
      show (do return some (← moneyRound (.finite n)) : Except Exc (Option Int)) = _
      rw [moneyRound_eq (hfits _ (hnet n rfl))]
      rfl
  obtain ⟨n, hn⟩ := hhash
  unfold resolve
  simp only [moneyRound_eq (hfits _ hlist), hn, bind, Except.bind]
  cases profile with
  | none => exact ⟨_, rfl, rfl, rfl⟩
  | some p =>
    obtain ⟨hnonneg, hle⟩ := hrange p rfl
    dsimp only
    by_cases hforce : ¬ flagEnabled = true ∨ ¬ p.isEffective now = true
    · have hterms : terms flagEnabled (some p) now = none := by
        unfold terms
        dsimp only
        rw [if_neg]
        rintro ⟨hflag, heffective, _⟩
        exact hforce.elim (· hflag) (· heffective)
      rw [if_pos hforce, hterms]
      exact ⟨_, rfl, rfl, rfl⟩
    · rw [if_neg hforce]
      have hon : flagEnabled = true ∧ p.isEffective now = true := by
        constructor
        · exact not_not.1 fun hc => hforce (.inl hc)
        · exact not_not.1 fun hc => hforce (.inr hc)
      by_cases hzero : p.discountPercent ≤ 0
      · have hterms : terms flagEnabled (some p) now = none := by
          unfold terms
          dsimp only
          rw [if_neg]
          rintro ⟨_, _, hpos⟩
          omega
        rw [if_pos hzero, hterms]
        exact ⟨_, rfl, rfl, rfl⟩
      · rw [if_neg hzero]
        have hterms : terms flagEnabled (some p) now = some (p.discountPercent, p.floorPolicy) := by
          unfold terms
          dsimp only
          rw [if_pos ⟨hon.1, hon.2, by omega⟩]
        rw [hterms]
        cases hpolicy : p.floorPolicy with
        | none =>
          rw [if_pos rfl, legacyPercentOffList_eq hlist hnonneg hle]
          exact ⟨_, rfl, rfl, rfl⟩
        | wholesale =>
          rw [if_neg (by decide)]
          cases net with
          | none => exact ⟨_, rfl, rfl, rfl⟩
          | some n =>
            have hn := hnet n rfl
            simp only [Option.map_some, moneyRound_eq (hfits _ hn)]
            by_cases hlt : list.units 2 < n.units 2
            · rw [if_pos hlt]
              exact ⟨_, rfl, rfl, by rw [due, if_pos hlt]; rfl⟩
            · rw [if_neg hlt, marginShareCustomer_eq hlist hn (by omega) hnonneg hle]
              exact ⟨_, rfl, rfl, by rw [due, if_neg hlt]; rfl⟩

end Roamkit.Pricing.Proof
