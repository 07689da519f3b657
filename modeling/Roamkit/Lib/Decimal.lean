import Roamkit.Lib.PyText
import Mathlib.Tactic.Ring

/-!
# Decimal numbers

A decimal is a coefficient times a power of ten. `Dec.quantize` counts it in
units of a given decimal place, rounding halves away from zero; it fails where
Python's `Decimal.quantize` does, when the count needs more digits than the
context's precision.
-/

namespace Roamkit.Lib

/-- `coeff * 10 ^ exp`. -/
structure Dec where
  coeff : Int
  exp : Int
deriving DecidableEq

/-- The significant digits of Python's default context. -/
def precision : Nat := 28

/-- `num / den` to the nearest integer, halves away from zero. -/
def halfUp (num : Int) (den : Nat) : Int := num.sign * ((2 * num.natAbs + den) / (2 * den))

/-- Both parts of a quotient may be taken in finer units. -/
theorem halfUp_scale (n : Int) (den : Nat) {k : Nat} (hk : 0 < k) :
    halfUp (n * k) (den * k) = halfUp n den := by
  have hk' : (0 : Int) < k := Int.natCast_pos.2 hk
  have hsign : (n * (k : Int)).sign = n.sign := by
    rw [Int.sign_mul, Int.sign_eq_one_of_pos hk', Int.mul_one]
  have hnum : 2 * ((n * (k : Int)).natAbs : Int) + (den * k : Nat) = (2 * n.natAbs + den) * k := by
    rw [Int.natAbs_mul, Int.natAbs_natCast]
    push_cast
    ring
  have hden : 2 * ((den * k : Nat) : Int) = 2 * den * k := by
    push_cast
    ring
  unfold halfUp
  rw [hsign, hnum, hden, Int.mul_ediv_mul_of_pos_left _ _ hk']

/-- What is a whole number of units rounds to that number. -/
theorem halfUp_mul (n : Int) {k : Nat} (hk : 0 < k) : halfUp (n * k) k = n := by
  have hone : ((2 * n.natAbs + (1 : Nat)) / (2 * (1 : Nat)) : Int) = n.natAbs := by omega
  rw [← Nat.one_mul k, Nat.cast_mul, Nat.cast_one, Int.one_mul, halfUp_scale n 1 hk, halfUp, hone]
  exact Int.sign_mul_natAbs n

namespace Dec

/-- The number of units of the `places`-th decimal place, halves rounded away from zero. -/
def units (places : Nat) (d : Dec) : Int :=
  let e := d.exp + places
  if 0 ≤ e then d.coeff * 10 ^ e.toNat else halfUp d.coeff (10 ^ (-e).toNat)

/-- `quantize(Decimal(1).scaleb(-places), ROUND_HALF_UP)`, counted in units of the last place. -/
def quantize (places : Nat) (d : Dec) : Option Int :=
  if (d.units places).natAbs < 10 ^ precision then some (d.units places) else none

/-- A number of units of the `places`-th decimal place. -/
def ofUnits (places : Nat) (n : Int) : Dec := ⟨n, -places⟩

@[simp] theorem units_ofUnits (places : Nat) (n : Int) : (ofUnits places n).units places = n := by
  have h : -(places : Int) + places = 0 := by omega
  simp [units, ofUnits, h]

/-- `a == b`. -/
def eqv (a b : Dec) : Bool :=
  let e := min a.exp b.exp
  a.coeff * 10 ^ (a.exp - e).toNat = b.coeff * 10 ^ (b.exp - e).toNat

/-- `str` of a number of units: a point and as many digits behind it as the place. -/
def fixed (places : Nat) (n : Int) : String :=
  let frac := (Nat.toDigits 10 (n.natAbs % 10 ^ places)).leftpad places '0'
  (if n < 0 then "-" else "") ++ toString (n.natAbs / 10 ^ places) ++ "." ++ String.ofList frac

example : fixed 6 (-1500000) = "-1.500000" := by decide

/-- `num / den` to the nearest integer, halves to the even one. -/
def halfEven (num : Nat) (den : Nat) : Nat :=
  let q := num / den
  let r := num % den
  if 2 * r < den ∨ (2 * r = den ∧ q % 2 = 0) then q else q + 1

/-- The result of an operation, to as many significant digits as the context keeps. -/
def round (d : Dec) : Dec :=
  let digits := (Nat.toDigits 10 d.coeff.natAbs).length
  if digits ≤ precision then d
  else
    let dropped := digits - precision
    ⟨d.coeff.sign * halfEven d.coeff.natAbs (10 ^ dropped), d.exp + dropped⟩

/-- `a - b` -/
def sub (a b : Dec) : Dec :=
  let e := min a.exp b.exp
  round ⟨a.coeff * 10 ^ (a.exp - e).toNat - b.coeff * 10 ^ (b.exp - e).toNat, e⟩

/-- `a + b` -/
def add (a b : Dec) : Dec := sub a ⟨-b.coeff, b.exp⟩

/-- `a * b` -/
def mul (a b : Dec) : Dec := round ⟨a.coeff * b.coeff, a.exp + b.exp⟩

/-- `a / Decimal(100)` -/
def percent (a : Dec) : Dec := round ⟨a.coeff, a.exp - 2⟩

/-- `a < b` -/
def lt (a b : Dec) : Bool :=
  let e := min a.exp b.exp
  a.coeff * 10 ^ (a.exp - e).toNat < b.coeff * 10 ^ (b.exp - e).toNat

example : (sub ⟨1000, -2⟩ ⟨25, -1⟩).eqv ⟨75, -1⟩ ∧ lt ⟨99, -1⟩ ⟨10, 0⟩ := by decide

theorem units_scale (places k : Nat) (c x : Int) :
    units places ⟨c * 10 ^ k, x - k⟩ = units places ⟨c, x⟩ := by
  have hpow : ∀ n : Nat, ((10 ^ n : Nat) : Int) = 10 ^ n := fun n => by push_cast; rfl
  unfold units
  dsimp only
  by_cases hfine : 0 ≤ x - k + places
  · have hexp : (x + places).toNat = k + (x - k + places).toNat := by omega
    rw [if_pos hfine, if_pos (by omega), hexp, Int.pow_add, Int.mul_assoc]
  · rw [if_neg hfine]
    by_cases hcoarse : 0 ≤ x + places
    · have hexp : k = (x + places).toNat + (-(x - k + places)).toNat := by omega
      have hsplit : c * 10 ^ k = c * 10 ^
          (x + places).toNat * (10 ^ (-(x - k + places)).toNat : Nat) := by
        rw [hpow, Int.mul_assoc, ← Int.pow_add, ← hexp]
      rw [if_pos hcoarse, hsplit]
      exact halfUp_mul _ (Nat.pow_pos (by decide))
    · have hexp : (-(x - k + places)).toNat = (-(x + places)).toNat + k := by omega
      rw [if_neg hcoarse, hexp, Nat.pow_add, ← hpow k]
      exact halfUp_scale c _ (Nat.pow_pos (by decide))

/-- Equal decimals are rounded to the same number of units. -/
theorem units_of_eqv {d d' : Dec} (h : d.eqv d') (places : Nat) :
    d.units places = d'.units places := by
  obtain ⟨c, x⟩ := d
  obtain ⟨c', x'⟩ := d'
  have hsame : c * 10 ^ (x - min x x').toNat = c' * 10 ^ (x' - min x x').toNat :=
    of_decide_eq_true h
  have hexp : x - (x - min x x').toNat = x' - (x' - min x x').toNat := by omega
  rw [← units_scale places (x - min x x').toNat c x, hsame, hexp, units_scale]

end Dec

/-- Whether a value fits a `numeric(digits, places)` column, which rounds it. -/
def fitsNumeric (digits places : Nat) (d : Dec) : Bool := (d.units places).natAbs < 10 ^ digits

/-- Python's `Decimal`. -/
inductive PyDecimal where
  | finite (d : Dec)
  | infinity (negative : Bool)
  | nan (signaling : Bool)
deriving DecidableEq

namespace PyDecimal

open PyText

/-- The largest adjusted exponent and the smallest exponent a `Decimal` may have. -/
def maxEmax : Int := 999999999999999999

def minEtiny : Int := -1999999999999999997

/-- A coefficient and an exponent, when the exponent is one a `Decimal` may have. -/
def make (negative : Bool) (ds : List Nat) (exp : Int) : Option PyDecimal :=
  let significant := (ds.dropWhile (· = 0)).length
  if minEtiny ≤ exp ∧ exp + significant ≤ maxEmax + 1 then
    some (finite ⟨signed negative (ofDigits ds), exp⟩)
  else none

/-- The exponent after the digits: absent, or `e` and a signed number. -/
def exponent : List Char → Option Int
  | [] => some 0
  | e :: cs =>
    if e = 'e' ∨ e = 'E' then
      match spanDigits (sign cs).2 with
      | (d :: ds, []) => some (signed (sign cs).1 (ofDigits (d :: ds)))
      | _ => none
    else none

/-- The special values, written in any case: an infinity, or a NaN with a payload of digits. -/
def special (negative : Bool) (cs : List Char) : Option PyDecimal :=
  let low := cs.map Char.toLower
  if low = "inf".toList ∨ low = "infinity".toList then some (infinity negative)
  else
    let signaling := low.take 1 = "s".toList
    let name := if signaling then low.drop 1 else low
    if name.take 3 = "nan".toList ∧ (spanDigits (name.drop 3)).2 = [] then some (nan signaling)
    else none

/-- `Decimal(s)` of a text; `none` where Python raises `InvalidOperation`. -/
def ofStr (s : String) : Option PyDecimal :=
  let (negative, cs) := sign ((trim s.toList).filter (· ≠ '_'))
  let (whole, rest) := spanDigits cs
  let (frac, rest) := match rest with
    | '.' :: cs => spanDigits cs
    | cs => ([], cs)
  if whole = [] ∧ frac = [] then special negative cs
  else
    match exponent rest with
    | none => none
    | some e => make negative (whole ++ frac) (e - frac.length)

/-- `a == b`; `none` where it raises, on a signaling NaN. -/
def eq? : PyDecimal → PyDecimal → Option Bool
  | nan true, _ => none
  | _, nan true => none
  | finite a, finite b => some (a.eqv b)
  | infinity a, infinity b => some (a == b)
  | _, _ => some false

/-- `str(d)`: in fixed notation unless the exponent is positive or the number too small for it. -/
def str : PyDecimal → String
  | infinity negative => if negative then "-Infinity" else "Infinity"
  | nan signaling => if signaling then "sNaN" else "NaN"
  | finite ⟨coeff, exp⟩ =>
    let digits := Nat.toDigits 10 coeff.natAbs
    let adjusted := exp + digits.length - 1
    if exp ≤ 0 ∧ -6 ≤ adjusted then
      if exp = 0 then toString coeff else Dec.fixed (-exp).toNat coeff
    else
      (if coeff < 0 then "-" else "") ++ String.ofList (digits.take 1)
        ++ (if digits.length = 1 then "" else "." ++ String.ofList (digits.drop 1))
        ++ "E" ++ (if adjusted < 0 then "" else "+") ++ toString adjusted

example : str (finite ⟨1250, -2⟩) = "12.50" ∧ str (finite ⟨12, 3⟩) = "1.2E+4" := by decide

example : ofStr " +1_2.50e1 " = some (finite ⟨1250, -1⟩) ∧ ofStr "sNaN7" = some (nan true)
    ∧ ofStr "." = none ∧ ofStr "12x" = none := by decide

end PyDecimal

end Roamkit.Lib
