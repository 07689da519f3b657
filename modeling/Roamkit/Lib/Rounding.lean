import Roamkit.Lib.Decimal

/-!
# Rounding to the digits of the context

An operation on decimals keeps `precision` significant digits of its result. On natural
numbers that is `keep`: it does not change a number of so few digits, it commutes with a
shift of the point and it is monotone. `Counts` says how many units of a decimal place a
decimal comes to, and each operation is one on these counts, followed by `keep`.
-/

namespace Roamkit.Lib.Dec

/-! ## Halves to even -/

/-- A number that is a whole number of units rounds to that number. -/
theorem halfEven_exact (q : Nat) {den : Nat} (h : 0 < den) : halfEven (q * den) den = q := by
  have hmod : q * den % den = 0 := Nat.mul_mod_left q den
  have hdiv : q * den / den = q := Nat.mul_div_cancel q h
  unfold halfEven
  dsimp only
  rw [hmod, hdiv, if_pos (.inl (by omega))]

theorem halfEven_bounds (n den : Nat) :
    n / den ≤ halfEven n den ∧ halfEven n den ≤ n / den + 1 := by
  unfold halfEven
  dsimp only
  split
  · omega
  · omega

theorem halfEven_mono {m n : Nat} (den : Nat) (h : m ≤ n) : halfEven m den ≤ halfEven n den := by
  have hdiv : m / den ≤ n / den := Nat.div_le_div_right h
  rcases Nat.lt_or_ge (m / den) (n / den) with hlt | hge
  · have hm := (halfEven_bounds m den).2
    have hn := (halfEven_bounds n den).1
    omega
  · -- the quotients agree, so the remainders are in the same order
    have heq : m / den = n / den := by omega
    have hm := Nat.div_add_mod m den
    have hn := Nat.div_add_mod n den
    rw [heq] at hm
    have hmod : m % den ≤ n % den := by omega
    unfold halfEven
    dsimp only
    rw [heq]
    split
    · split
      · omega
      · omega
    · rename_i hup
      split
      · rename_i hdown
        exfalso
        apply hup
        rcases hdown with hlt | ⟨htie, heven⟩
        · exact .inl (by omega)
        · rcases Nat.lt_or_ge (2 * (m % den)) den with hl | hl
          · exact .inl hl
          · exact .inr ⟨by omega, heven⟩
      · omega

theorem halfEven_scale (n den : Nat) {k : Nat} (hk : 0 < k) :
    halfEven (n * k) (den * k) = halfEven n den := by
  have hdiv : n * k / (den * k) = n / den := Nat.mul_div_mul_right n den hk
  have hmod : n * k % (den * k) = n % den * k := Nat.mul_mod_mul_right k n den
  have hlt : 2 * (n % den * k) < den * k ↔ 2 * (n % den) < den := by
    rw [← Nat.mul_assoc]
    exact Nat.mul_lt_mul_right hk
  have heq : 2 * (n % den * k) = den * k ↔ 2 * (n % den) = den := by
    rw [← Nat.mul_assoc]
    exact Nat.mul_left_inj (by omega)
  unfold halfEven
  dsimp only
  rw [hdiv, hmod]
  simp only [hlt, heq]

/-! ## Keeping the significant digits -/

/-- The number of decimal digits. -/
def digits (n : Nat) : Nat := (Nat.toDigits 10 n).length

theorem digits_le_iff {n k : Nat} (hk : 0 < k) : digits n ≤ k ↔ n < 10 ^ k :=
  Nat.length_toDigits_le_iff (by omega) hk

theorem digits_pos (n : Nat) : 0 < digits n := by
  rw [digits, List.length_pos_iff]
  exact Nat.toDigits_ne_nil

theorem lt_pow_digits (n : Nat) : n < 10 ^ digits n :=
  (digits_le_iff (digits_pos n)).1 (Nat.le_refl _)

/-- A number other than zero is no smaller than the power of its first digit. -/
theorem pow_le_of_lt_digits {n k : Nat} (hn : 0 < n) (h : k < digits n) : 10 ^ k ≤ n := by
  by_contra hlt
  rcases Nat.eq_zero_or_pos k with rfl | hk
  · rw [Nat.pow_zero] at hlt
    omega
  · have := (digits_le_iff hk).2 (Nat.lt_of_not_le hlt)
    omega

theorem digits_eq {n k : Nat} (hlow : 10 ^ k ≤ n)
    (hhigh : n < 10 ^ (k + 1)) : digits n = k + 1 := by
  have hle := (digits_le_iff (by omega)).2 hhigh
  rcases Nat.lt_or_ge k (digits n) with h | h
  · omega
  · exfalso
    have hlt := lt_pow_digits n
    have hpow : 10 ^ digits n ≤ 10 ^ k := Nat.pow_le_pow_right (by omega) h
    omega

theorem digits_mono {m n : Nat} (h : m ≤ n) : digits m ≤ digits n :=
  (digits_le_iff (digits_pos n)).2 (h.trans_lt (lt_pow_digits n))

/-- Zeros behind a number are digits of it. -/
theorem digits_scale {n : Nat} (hn : 0 < n) (j : Nat) : digits (n * 10 ^ j) = digits n + j := by
  obtain ⟨k, hk⟩ : ∃ k, digits n = k + 1 := Nat.exists_eq_succ_of_ne_zero (digits_pos n).ne'
  have hpow : 0 < 10 ^ j := Nat.pow_pos (by omega)
  have hlow : 10 ^ k ≤ n := pow_le_of_lt_digits hn (by omega)
  have hhigh : n < 10 ^ (k + 1) := hk ▸ lt_pow_digits n
  have heq : digits (n * 10 ^ j) = (k + j) + 1 := by
    apply digits_eq
    · rw [Nat.pow_add]
      exact Nat.mul_le_mul_right _ hlow
    · rw [Nat.add_right_comm, Nat.pow_add]
      exact (Nat.mul_lt_mul_right hpow).2 hhigh
  omega

/-- The digits of a result that are dropped. -/
def dropped (n : Nat) : Nat := digits n - precision

/-- A number with its significant digits kept and zeros behind them. -/
def keep (n : Nat) : Nat := halfEven n (10 ^ dropped n) * 10 ^ dropped n

theorem keep_of_lt {n : Nat} (h : n < 10 ^ precision) : keep n = n := by
  have hd : dropped n = 0 := by
    have := (digits_le_iff (by decide : 0 < precision)).2 h
    unfold dropped
    omega
  have hexact := halfEven_exact n (by omega : 0 < 1)
  rw [Nat.mul_one] at hexact
  rw [keep, hd, Nat.pow_zero, Nat.mul_one, hexact]

/-- What is a whole number of the units that are kept is kept. -/
theorem keep_of_dvd {n : Nat} (h : 10 ^ dropped n ∣ n) : keep n = n := by
  obtain ⟨q, hq⟩ := h
  have hexact := halfEven_exact q (Nat.pow_pos (by omega) : 0 < 10 ^ dropped n)
  rw [Nat.mul_comm, ← hq] at hexact
  rw [keep, hexact, Nat.mul_comm]
  exact hq.symm

/-- Rounding does not go past a multiple of the units that are kept. -/
theorem keep_le {n q : Nat} (h : n ≤ q) (hq : 10 ^ dropped n ∣ q) : keep n ≤ q := by
  obtain ⟨k, rfl⟩ := hq
  have hpos : 0 < 10 ^ dropped n := Nat.pow_pos (by omega)
  have hmono := halfEven_mono (10 ^ dropped n) h
  rw [Nat.mul_comm, halfEven_exact k hpos] at hmono
  rw [keep, Nat.mul_comm (10 ^ dropped n) k]
  exact Nat.mul_le_mul_right _ hmono

theorem le_keep {n q : Nat} (h : q ≤ n) (hq : 10 ^ dropped n ∣ q) : q ≤ keep n := by
  obtain ⟨k, rfl⟩ := hq
  have hpos : 0 < 10 ^ dropped n := Nat.pow_pos (by omega)
  have hmono := halfEven_mono (10 ^ dropped n) h
  rw [Nat.mul_comm, halfEven_exact k hpos] at hmono
  rw [keep, Nat.mul_comm (10 ^ dropped n) k]
  exact Nat.mul_le_mul_right _ hmono

theorem keep_mono {m n : Nat} (h : m ≤ n) : keep m ≤ keep n := by
  rcases Nat.eq_zero_or_pos m with rfl | hm
  · rw [keep_of_lt (Nat.pow_pos (by omega))]
    exact Nat.zero_le _
  have hdigits := digits_mono h
  rcases Nat.lt_or_ge (digits m) (digits n) with hlt | hge
  · -- the power of ten between the two is a multiple of either's units
    have hlow : m ≤ 10 ^ (digits n - 1) := by
      have hpow : 10 ^ digits m ≤ 10 ^ (digits n - 1) := Nat.pow_le_pow_right (by omega) (by omega)
      exact (lt_pow_digits m).le.trans hpow
    have hhigh : 10 ^ (digits n - 1) ≤ n := pow_le_of_lt_digits (by omega) (by omega)
    have hprec : 0 < precision := by decide
    have hdm : dropped m ≤ digits n - 1 := by
      unfold dropped
      omega
    have hdn : dropped n ≤ digits n - 1 := by
      unfold dropped
      omega
    exact (keep_le hlow (Nat.pow_dvd_pow 10 hdm)).trans (le_keep hhigh (Nat.pow_dvd_pow 10 hdn))
  · have heq : dropped m = dropped n := by
      unfold dropped
      omega
    rw [keep, keep, heq]
    exact Nat.mul_le_mul_right _ (halfEven_mono _ h)

theorem keep_scale (n j : Nat) : keep (n * 10 ^ j) = keep n * 10 ^ j := by
  rcases Nat.eq_zero_or_pos n with rfl | hn
  · rw [Nat.zero_mul, keep_of_lt (Nat.pow_pos (by omega)), Nat.zero_mul]
  have hdigits := digits_scale hn j
  by_cases hlong : precision ≤ digits n
  · have hdropped : dropped (n * 10 ^ j) = dropped n + j := by
      unfold dropped
      omega
    have hpow : 0 < 10 ^ j := Nat.pow_pos (by omega)
    rw [keep, keep, hdropped, Nat.pow_add, halfEven_scale _ _ hpow, Nat.mul_assoc]
  · have hdvd : 10 ^ dropped (n * 10 ^ j) ∣ n * 10 ^ j := by
      have hle : dropped (n * 10 ^ j) ≤ j := by
        unfold dropped
        omega
      exact (Nat.pow_dvd_pow 10 hle).trans (Nat.dvd_mul_left _ _)
    have hshort : n < 10 ^ precision := (digits_le_iff (by decide)).1 (by omega)
    rw [keep_of_dvd hdvd, keep_of_lt hshort]

/-- A number with zeros in place of what is not kept. -/
theorem keep_of_short {n : Nat} (h : n < 10 ^ precision) (j : Nat) :
    keep (n * 10 ^ j) = n * 10 ^ j := by
  rw [keep_scale, keep_of_lt h]

/-! ## Counts of a decimal place -/

/-- A decimal that is this number of units of the place `e`. -/
def Counts (d : Dec) (e : Int) (n : Nat) : Prop :=
  e ≤ d.exp ∧ d.coeff * 10 ^ (d.exp - e).toNat = n

theorem Counts.finer {d : Dec} {e : Int} {n : Nat} (h : Counts d e n) (j : Nat) :
    Counts d (e - j) (n * 10 ^ j) := by
  obtain ⟨he, hn⟩ := h
  refine ⟨by omega, ?_⟩
  have hexp : (d.exp - (e - j)).toNat = (d.exp - e).toNat + j := by omega
  rw [hexp, Int.pow_add, ← Int.mul_assoc, hn]
  push_cast
  rfl

theorem Counts.coeff_nonneg {d : Dec} {e : Int} {n : Nat} (h : Counts d e n) : 0 ≤ d.coeff := by
  obtain ⟨-, hn⟩ := h
  by_contra hneg
  have hpow : (0 : Int) < 10 ^ (d.exp - e).toNat := Int.pow_pos (by omega)
  have := Int.mul_neg_of_neg_of_pos (Int.lt_of_not_ge hneg) hpow
  omega

theorem round_natCast (k : Nat) (x : Int) :
    round ⟨k, x⟩ = ⟨(halfEven k (10 ^ dropped k) : Nat), x + dropped k⟩ := by
  unfold round
  dsimp only
  rw [Int.natAbs_natCast]
  by_cases hshort : (Nat.toDigits 10 k).length ≤ precision
  · have hd : dropped k = 0 := by
      unfold dropped digits
      omega
    have hexact := halfEven_exact k (by omega : 0 < 1)
    rw [Nat.mul_one] at hexact
    rw [if_pos hshort, hd, Nat.pow_zero, hexact]
    simp
  · have hk : 0 < k := by
      rcases Nat.eq_zero_or_pos k with rfl | hk
      · exact absurd (by decide) hshort
      · exact hk
    have hsign : (k : Int).sign = 1 := Int.sign_eq_one_of_pos (by omega)
    rw [if_neg hshort, hsign, Int.one_mul]
    rfl

/-- **Rounding keeps the significant digits of a count, whatever the place.** -/
theorem Counts.round {d : Dec} {e : Int} {n : Nat} (h : Counts d e n) :
    Counts (Dec.round d) e (keep n) := by
  obtain ⟨k, hk⟩ : ∃ k : Nat, d.coeff = k := Int.eq_ofNat_of_zero_le h.coeff_nonneg
  obtain ⟨he, hn⟩ := h
  obtain ⟨coeff, x⟩ := d
  dsimp only at hk he hn
  subst hk
  have hcount : n = k * 10 ^ (x - e).toNat := by
    have hcast : ((k * 10 ^ (x - e).toNat : Nat) : Int) = n := by
      rw [← hn]
      push_cast
      rfl
    exact_mod_cast hcast.symm
  rw [round_natCast]
  refine ⟨by dsimp only; omega, ?_⟩
  dsimp only
  have hexp : (x + dropped k - e).toNat = dropped k + (x - e).toNat := by omega
  rw [hexp, hcount, keep_scale, keep, Nat.mul_assoc, ← Nat.pow_add]
  push_cast
  rfl

theorem counts_ofUnits (places n : Nat) : Counts (ofUnits places n) (-places) n := by
  refine ⟨Int.le_refl _, ?_⟩
  have hexp : ((ofUnits places n).exp - -(places : Int)).toNat = 0 := by
    unfold ofUnits
    dsimp only
    omega
  rw [hexp, Int.pow_zero, Int.mul_one]
  rfl

theorem Counts.mul {a b : Dec} {e f : Int} {m n : Nat} (ha : Counts a e m) (hb : Counts b f n) :
    Counts (Dec.mul a b) (e + f) (keep (m * n)) := by
  refine Counts.round ?_
  obtain ⟨he, hm⟩ := ha
  obtain ⟨hf, hn⟩ := hb
  refine ⟨by dsimp only; omega, ?_⟩
  dsimp only
  have hexp : (a.exp + b.exp - (e + f)).toNat = (a.exp - e).toNat + (b.exp - f).toNat := by omega
  rw [hexp, Int.pow_add]
  push_cast
  rw [← hm, ← hn]
  ring

theorem Counts.percent {a : Dec} {e : Int} {n : Nat} (h : Counts a e n) :
    Counts (Dec.percent a) (e - 2) (keep n) := by
  refine Counts.round ?_
  obtain ⟨he, hn⟩ := h
  refine ⟨by dsimp only; omega, ?_⟩
  dsimp only
  have hexp : (a.exp - 2 - (e - 2)).toNat = (a.exp - e).toNat := by omega
  rw [hexp, hn]

theorem pow_between {e m x : Int} (he : e ≤ m) (hx : m ≤ x) :
    (10 : Int) ^ (x - m).toNat * 10 ^ (m - e).toNat = 10 ^ (x - e).toNat := by
  rw [← Int.pow_add]
  congr 1
  omega

theorem Counts.add {a b : Dec} {e : Int} {m n : Nat} (ha : Counts a e m) (hb : Counts b e n) :
    Counts (Dec.add a b) e (keep (m + n)) := by
  obtain ⟨he, hm⟩ := ha
  obtain ⟨hf, hn⟩ := hb
  unfold Dec.add Dec.sub
  have hmin : e ≤ min a.exp b.exp := le_min he hf
  refine Counts.round ⟨hmin, ?_⟩
  dsimp only
  push_cast
  rw [← hm, ← hn, ← pow_between hmin (min_le_left _ _), ← pow_between hmin (min_le_right _ _)]
  ring

theorem Counts.sub {a b : Dec} {e : Int} {m n : Nat} (ha : Counts a e m) (hb : Counts b e n)
    (hle : n ≤ m) :
    Counts (Dec.sub a b) e (keep (m - n)) := by
  obtain ⟨he, hm⟩ := ha
  obtain ⟨hf, hn⟩ := hb
  unfold Dec.sub
  have hmin : e ≤ min a.exp b.exp := le_min he hf
  refine Counts.round ⟨hmin, ?_⟩
  dsimp only
  rw [Int.ofNat_sub hle, ← hm, ← hn, ← pow_between hmin (min_le_left _ _),
    ← pow_between hmin (min_le_right _ _)]
  ring

theorem Counts.le_of_not_lt {a b : Dec} {e : Int} {m n : Nat} (ha : Counts a e m)
    (hb : Counts b e n) (h : ¬ b.lt a = true) : m ≤ n := by
  have hmin : e ≤ min b.exp a.exp := le_min hb.1 ha.1
  have hcoeffs : a.coeff * 10 ^ (a.exp - min b.exp a.exp).toNat
      ≤ b.coeff * 10 ^ (b.exp - min b.exp a.exp).toNat :=
        Int.not_lt.1 fun hc => h (decide_eq_true hc)
  have hpow : (0 : Int) ≤ 10 ^ (min b.exp a.exp - e).toNat := Int.le_of_lt (Int.pow_pos (by omega))
  have hscaled := Int.mul_le_mul_of_nonneg_right hcoeffs hpow
  rw [Int.mul_assoc, Int.mul_assoc, pow_between hmin (min_le_right _ _),
    pow_between hmin (min_le_left _ _), ha.2, hb.2] at hscaled
  exact_mod_cast hscaled

theorem halfUp_natCast (k : Nat) {den : Nat} (h : 0 < den) :
    halfUp k den = ((2 * k + den) / (2 * den) : Nat) := by
  unfold halfUp
  rw [Int.natAbs_natCast]
  rcases Nat.eq_zero_or_pos k with rfl | hk
  · have hzero : (2 * 0 + den) / (2 * den) = 0 := Nat.div_eq_of_lt (by omega)
    rw [hzero]
    simp
  · have hsign : (k : Int).sign = 1 := Int.sign_eq_one_of_pos (by omega)
    rw [hsign, Int.one_mul]
    push_cast
    rfl

theorem counts_of_nonneg {d : Dec} {e : Int} (h : 0 ≤ d.coeff) (he : e ≤ d.exp) :
    ∃ n, Counts d e n := by
  obtain ⟨k, hk⟩ : ∃ k : Nat, d.coeff = k := Int.eq_ofNat_of_zero_le h
  refine ⟨k * 10 ^ (d.exp - e).toNat, he, ?_⟩
  rw [hk]
  push_cast
  rfl

theorem Counts.eqv {d : Dec} {e : Int} {n : Nat} (h : Counts d e n) : d.eqv ⟨n, e⟩ := by
  obtain ⟨he, hn⟩ := h
  unfold Dec.eqv
  dsimp only
  rw [Int.min_eq_right he, hn]
  simp

/-- What is counted in small units is rounded half up to larger ones. -/
theorem Counts.units {d : Dec} {places j n : Nat} (h : Counts d (-(places + j : Nat)) n) :
    d.units places = ((2 * n + 10 ^ j) / (2 * 10 ^ j) : Nat) := by
  have hexp : -((places + j : Nat) : Int) + places = -j := by omega
  rw [Dec.units_of_eqv h.eqv]
  unfold Dec.units
  dsimp only
  rw [hexp]
  rcases Nat.eq_zero_or_pos j with rfl | hj
  · have hwhole : (2 * n + 10 ^ 0) / (2 * 10 ^ 0) = n := by omega
    rw [hwhole]
    simp
  · rw [if_neg (by omega), Int.neg_neg, Int.toNat_natCast]
    exact halfUp_natCast n (Nat.pow_pos (by decide))

/-- A decimal that equals a number of units is so many of them, and more of smaller ones. -/
theorem counts_of_eqv {d : Dec} {places n j : Nat} (h : d.eqv (ofUnits places n))
    (hj : -((places + j : Nat) : Int) ≤ d.exp) : Counts d (-(places + j : Nat)) (n * 10 ^ j) := by
  have hsame : d.coeff * 10 ^ (d.exp - min d.exp (-places)).toNat
      = n * 10 ^ (-places - min d.exp (-places)).toNat := of_decide_eq_true h
  obtain ⟨i, hi⟩ : ∃ i, i = (min d.exp (-places) - -((places + j : Nat) : Int)).toNat := ⟨_, rfl⟩
  have hexp : (d.exp - -((places + j : Nat) : Int)).toNat
      = (d.exp - min d.exp (-places)).toNat + i := by omega
  have hfine : (-(places : Int) - min d.exp (-places)).toNat + i = j := by omega
  refine ⟨hj, ?_⟩
  rw [hexp, Int.pow_add, ← Int.mul_assoc, hsame, Int.mul_assoc, ← Int.pow_add, hfine]
  push_cast
  rfl

theorem units_nonneg {d : Dec} (places : Nat) (h : 0 ≤ d.coeff) : 0 ≤ d.units places := by
  obtain ⟨j, hj⟩ : ∃ j : Nat, j = (-d.exp - places).toNat := ⟨_, rfl⟩
  obtain ⟨n, hn⟩ := counts_of_nonneg h (by omega : -((places + j : Nat) : Int) ≤ d.exp)
  rw [hn.units]
  exact Int.natCast_nonneg _

/-- What is no less than a decimal that is not negative is not negative. -/
theorem nonneg_of_not_lt {a b : Dec} (hb : 0 ≤ b.coeff) (h : ¬ a.lt b = true) : 0 ≤ a.coeff := by
  by_contra hneg
  refine h (decide_eq_true ?_)
  calc a.coeff * 10 ^ (a.exp - min a.exp b.exp).toNat < 0 :=
        Int.mul_neg_of_neg_of_pos (Int.lt_of_not_ge hneg) (Int.pow_pos (by omega))
    _ ≤ b.coeff * 10 ^ (b.exp - min a.exp b.exp).toNat :=
        Int.mul_nonneg hb (Int.le_of_lt (Int.pow_pos (by omega)))

/-- **Rounding halves up keeps the order of decimals.** -/
theorem units_mono {a b : Dec} (places : Nat) (ha : 0 ≤ a.coeff) (hb : 0 ≤ b.coeff)
    (hle : ¬ b.lt a = true) : a.units places ≤ b.units places := by
  -- a place fine enough for both decimals, and for the one that is rounded to
  obtain ⟨j, hj⟩ : ∃ j : Nat, j = (-(min a.exp b.exp) - places).toNat := ⟨_, rfl⟩
  have hplace : -((places + j : Nat) : Int) ≤ min a.exp b.exp := by omega
  obtain ⟨m, hm⟩ := counts_of_nonneg ha (hplace.trans (min_le_left _ _))
  obtain ⟨n, hn⟩ := counts_of_nonneg hb (hplace.trans (min_le_right _ _))
  have hmn : m ≤ n := hm.le_of_not_lt hn hle
  rw [hm.units, hn.units]
  have hdiv : (2 * m + 10 ^ j) / (2 * 10 ^ j) ≤ (2 * n + 10 ^ j) / (2 * 10 ^ j) :=
    Nat.div_le_div_right (by omega)
  omega

end Roamkit.Lib.Dec
