import Mathlib.Tactic.Common
import Roamkit.Lib.Fields

/-!
# Dates

A date is a number of days since 1970, within the years 1 to 9999. Its year, month
and day are found by counting from the first of March of the year 0: the
centuries of four hundred years, the fourths of a century and the years of a fourth
are as long as each other but for the last, which `min` takes care of. A date is
read off the text `date.isoformat` writes for it.
-/

namespace Roamkit.Lib

/-- A date of the proleptic Gregorian calendar, by its days since 1970. -/
@[ext] structure Date where
  days : Int
  low : -719162 ≤ days
  high : days ≤ 2932896
deriving DecidableEq

namespace Date

/-- Days from the first of March of the year 0 to the first of January 1970. -/
def epoch : Int := 719468

/-- The year since March of the year 0, and the day of it. -/
def marchYear (z : Int) : Int × Int :=
  let dayOfEra := z % 146097
  let century := min 3 (dayOfEra / 36524)
  let dayOfCentury := dayOfEra - 36524 * century
  let year := min 3 (dayOfCentury % 1461 / 365)
  (z / 146097 * 400 + century * 100 + dayOfCentury / 1461 * 4 + year,
    dayOfCentury % 1461 - 365 * year)

/-- The month since March of a day of the year. -/
def marchMonth (dayOfYear : Int) : Int := (5 * dayOfYear + 2) / 153

/-- The day of its month. -/
def dayOfMonth (dayOfYear : Int) : Int := dayOfYear - (153 * marchMonth dayOfYear + 2) / 5 + 1

/-- The year, the month and the day. -/
def civil (d : Date) : Int × Int × Int :=
  let (year, dayOfYear) := marchYear (d.days + epoch)
  if marchMonth dayOfYear < 10 then (year, marchMonth dayOfYear + 3, dayOfMonth dayOfYear)
  else (year + 1, marchMonth dayOfYear - 9, dayOfMonth dayOfYear)

/-- A number, with zeros in front. -/
def pad (width n : Nat) : List Char := (Nat.toDigits 10 n).leftpad width '0'

/-- `value.isoformat()` of a date. -/
def isoformat (d : Date) : String :=
  String.ofList (pad 4 d.civil.1.toNat ++ '-' :: pad 2 d.civil.2.1.toNat
    ++ '-' :: pad 2 d.civil.2.2.toNat)

/-- `value + timedelta(days=…)`; `none` for an `OverflowError`. -/
def addDays? (d : Date) (n : Int) : Option Date :=
  if h : -719162 ≤ d.days + n ∧ d.days + n ≤ 2932896 then some ⟨d.days + n, h.1, h.2⟩ else none

instance : LE Date := ⟨fun a b => a.days ≤ b.days⟩

instance (a b : Date) : Decidable (a ≤ b) := inferInstanceAs (Decidable (a.days ≤ b.days))

theorem days_addDays {d d' : Date} {n : Int} (h : d.addDays? n = some d') :
    d'.days = d.days + n := by
  unfold addDays? at h
  split at h
  · cases h
    rfl
  · cases h

example : (⟨20678, by decide, by decide⟩ : Date).isoformat = "2026-08-13" := by decide

/-! ## A date is read off its text -/

theorem marchYear_day (z : Int) : 0 ≤ (marchYear z).2 ∧ (marchYear z).2 ≤ 365 := by
  unfold marchYear
  dsimp only
  omega

theorem marchYear_inj {z w : Int} (hyear : (marchYear z).1 = (marchYear w).1)
    (hday : (marchYear z).2 = (marchYear w).2) : z = w := by
  unfold marchYear at hyear hday
  dsimp only at hyear hday
  omega

theorem dayOfMonth_inj {a b : Int} (hmonth : marchMonth a = marchMonth b)
    (hday : dayOfMonth a = dayOfMonth b) : a = b := by
  unfold dayOfMonth at hday
  rw [hmonth] at hday
  omega

/-- A date is its year, its month and its day. -/
theorem civil_inj {d e : Date} (h : d.civil = e.civil) : d = e := by
  have hd := marchYear_day (d.days + epoch)
  have he := marchYear_day (e.days + epoch)
  have hparts : (marchYear (d.days + epoch)).1 = (marchYear (e.days + epoch)).1
      ∧ marchMonth (marchYear (d.days + epoch)).2 = marchMonth (marchYear (e.days + epoch)).2
      ∧ dayOfMonth (marchYear (d.days + epoch)).2 = dayOfMonth (marchYear (e.days + epoch)).2 := by
    unfold civil at h
    dsimp only at h
    have hm : ∀ {n : Int}, 0 ≤ n → n ≤ 365 → 0 ≤ marchMonth n ∧ marchMonth n ≤ 11 := by
      intro n h0 h1
      unfold marchMonth
      omega
    have hmd := hm hd.1 hd.2
    have hme := hm he.1 he.2
    split at h <;> split at h <;> simp only [Prod.mk.injEq] at h <;> omega
  have hdays := marchYear_inj hparts.1 (dayOfMonth_inj hparts.2.1 hparts.2.2)
  exact Date.ext (by omega)

/-- The parts of a date are no negative numbers. -/
theorem civil_nonneg (d : Date) : 0 ≤ d.civil.1 ∧ 0 ≤ d.civil.2.1 ∧ 0 ≤ d.civil.2.2 := by
  have hday := marchYear_day (d.days + epoch)
  have hlow := d.low
  have hyear : 0 ≤ (marchYear (d.days + epoch)).1 := by
    unfold marchYear epoch
    dsimp only
    omega
  have hmonth : 0 ≤ dayOfMonth (marchYear (d.days + epoch)).2 := by
    unfold dayOfMonth marchMonth
    omega
  unfold civil
  dsimp only
  split
  · refine ⟨hyear, ?_, hmonth⟩
    dsimp only
    unfold marchMonth
    omega
  · refine ⟨?_, ?_, hmonth⟩ <;>
      · dsimp only
        omega

theorem pad_digits {width n : Nat} {c : Char} (h : c ∈ pad width n) : c.isDigit := by
  unfold pad List.leftpad at h
  rcases List.mem_append.1 h with h | h
  · rw [List.eq_of_mem_replicate h]
    rfl
  · exact Nat.isDigit_of_mem_toDigits (by omega) (by omega) h

theorem not_dash_pad (width n : Nat) : '-' ∉ pad width n := by
  intro h
  have hdigit := pad_digits h
  revert hdigit
  decide

theorem ofDigitChars_zeros (k : Nat) (ds : List Char) :
    Nat.ofDigitChars 10 (List.replicate k '0' ++ ds) 0 = Nat.ofDigitChars 10 ds 0 := by
  induction k with
  | zero => rfl
  | succ k ih =>
    rw [List.replicate_succ, List.cons_append, Nat.ofDigitChars_cons]
    exact ih

theorem pad_inj {width m n : Nat} (h : pad width m = pad width n) : m = n := by
  have value : ∀ k, Nat.ofDigitChars 10 (pad width k) 0 = k := by
    intro k
    unfold pad List.leftpad
    rw [ofDigitChars_zeros, Nat.ofDigitChars_ten_toDigits]
  rw [← value m, ← value n, h]

/-- **A date is read off its text.** -/
theorem isoformat_inj {d e : Date} (h : d.isoformat = e.isoformat) : d = e := by
  have hlist := String.ofList_injective h
  obtain ⟨hfront, hday⟩ := append_cons_inj (not_dash_pad _ _) (not_dash_pad _ _) hlist
  obtain ⟨hyear, hmonth⟩ := append_cons_inj (not_dash_pad _ _) (not_dash_pad _ _) hfront
  have hyear := pad_inj hyear
  have hmonth := pad_inj hmonth
  have hday := pad_inj hday
  have hd := civil_nonneg d
  have he := civil_nonneg e
  exact civil_inj (Prod.ext (by omega) (Prod.ext (by omega) (by omega)))

/-- A date is written in digits and dashes. -/
theorem not_colon_isoformat (d : Date) : ':' ∉ d.isoformat.toList := by
  have hpad : ∀ width n, ':' ∉ pad width n := by
    intro width n h
    have hdigit := pad_digits h
    revert hdigit
    decide
  unfold isoformat
  rw [String.toList_ofList, List.mem_append, List.mem_append]
  rintro ((h | h) | h)
  · exact hpad _ _ h
  · rcases List.mem_cons.1 h with h | h
    · cases h
    · exact hpad _ _ h
  · rcases List.mem_cons.1 h with h | h
    · cases h
    · exact hpad _ _ h

-- a text is compared by the two facts above, never by writing it out
attribute [irreducible] isoformat

end Date

end Roamkit.Lib
