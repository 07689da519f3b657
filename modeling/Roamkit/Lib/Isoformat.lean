import Mathlib.Tactic.Common
import Roamkit.Lib.Dates

/-!
# Dates as ISO texts

What `datetime.isoformat` writes for an instant in UTC, and the instant such a
text stands for. An instant is a number of microseconds since 1970; its date is
found by counting days from the first of March of the year 0, so that the leap
day is the last of its year.
-/

namespace Roamkit.Lib.Isoformat

/-- Microseconds in a second, and in a day. -/
def perSecond : Int := 1000000

def perDay : Int := 86400 * perSecond

/-- Days from the first of March of the year 0 to the first of January 1970. -/
def epoch : Int := 719468

/-- The year, the month and the day of a number of days since 1970. -/
def civil (days : Int) : Int × Int × Int :=
  let z := days + epoch
  let era := z / 146097
  let dayOfEra := z % 146097
  let yearOfEra := (dayOfEra - dayOfEra / 1460 + dayOfEra / 36524 - dayOfEra / 146096) / 365
  let dayOfYear := dayOfEra - (365 * yearOfEra + yearOfEra / 4 - yearOfEra / 100)
  let month := (5 * dayOfYear + 2) / 153
  let year := yearOfEra + era * 400
  if month < 10 then (year, month + 3, dayOfYear - (153 * month + 2) / 5 + 1)
  else (year + 1, month - 9, dayOfYear - (153 * month + 2) / 5 + 1)

/-- The number of days since 1970 of a date. -/
def days (year month day : Int) : Int :=
  let y := if month ≤ 2 then year - 1 else year
  let m := if month ≤ 2 then month + 9 else month - 3
  let yearOfEra := y % 400
  let dayOfYear := (153 * m + 2) / 5 + day - 1
  y / 400 * 146097 + yearOfEra * 365 + yearOfEra / 4 - yearOfEra / 100 + dayOfYear - epoch

/-- A number that is not negative, with zeros in front. -/
def pad (width : Nat) (n : Int) : List Char := (Nat.toDigits 10 n.toNat).leftpad width '0'

/-- `value.isoformat()` of an instant in UTC. -/
def isoformat (t : Int) : String :=
  let (year, month, day) := civil (t / perDay)
  let second := t % perDay / perSecond
  let fraction := t % perSecond
  String.ofList <|
    pad 4 year ++ '-' :: pad 2 month ++ '-' :: pad 2 day ++ 'T' :: pad 2 (second / 3600)
      ++ ':' :: pad 2 (second / 60 % 60) ++ ':' :: pad 2 (second % 60)
      ++ (if fraction = 0 then [] else '.' :: pad 6 fraction) ++ "+00:00".toList

/-- The value of a digit. -/
def digit? (c : Char) : Option Int := if c.isDigit then some (c.toNat - '0'.toNat : Nat) else none

/-- The number that all of the digits spell. -/
def number? (cs : List Char) : Option Int :=
  cs.foldlM (fun n c => (digit? c).map (10 * n + ·)) 0

/-- What follows the seconds: a fraction of six digits, or none, and the offset of UTC. -/
def fraction? (cs : List Char) : Option Int :=
  if cs = "+00:00".toList then some 0
  else if cs.head? = some '.' ∧ cs.drop 7 = "+00:00".toList then number? (cs.tail.take 6)
  else none

/-- `datetime.fromisoformat`, of the texts `isoformat` writes for instants in UTC. -/
def fromIsoformat (s : String) : Option Int :=
  let cs := s.toList
  let part (i n : Nat) := number? ((cs.drop i).take n)
  if [4, 7, 10, 13, 16].map (cs[·]?) = ['-', '-', 'T', ':', ':'].map some then do
    let day := days (← part 0 4) (← part 5 2) (← part 8 2)
    let second := (← part 11 2) * 3600 + (← part 14 2) * 60 + (← part 17 2)
    return day * perDay + second * perSecond + (← fraction? (cs.drop 19))
  else none

example : isoformat 1786524601123456 = "2026-08-12T08:50:01.123456+00:00" := by decide

example : fromIsoformat "2026-08-12T08:50:01.123456+00:00" = some 1786524601123456
    ∧ fromIsoformat "2026-08-12T08:50:01+00:00" = some 1786524601000000
    ∧ fromIsoformat "unknown" = none := by decide

/-! ## An instant is read off its text -/

/-- A day of an era of four hundred years: its century, the four years it follows, and the day
since. -/
theorem split_era {e : Int} (h0 : 0 ≤ e) (h1 : e < 146097) :
    ∃ c q r : Int, (0 ≤ c ∧ c ≤ 3) ∧ (0 ≤ q ∧ q ≤ 24) ∧ (0 ≤ r ∧ r ≤ 1460)
      ∧ e = 36524 * c + 1461 * q + r
      ∧ (c = 3 ∨ 1461 * q + r ≤ 36523) := by
  have hcentury : ∃ c : Int, 0 ≤ c ∧ c ≤ 3 ∧ 0 ≤ e - 36524 * c ∧ e - 36524 * c ≤ 36524
      ∧ (c = 3 ∨ e - 36524 * c ≤ 36523) :=
    ⟨min 3 (e / 36524), by omega, by omega, by omega, by omega, by omega⟩
  obtain ⟨c, hc0, hc3, hr0, hr1, hlast⟩ := hcentury
  refine ⟨c, (e - 36524 * c) / 1461, (e - 36524 * c) % 1461, ⟨hc0, hc3⟩, ?_, ?_, ?_, ?_⟩ <;> omega

/-- The year `civil` divides out, the last day of a leap year taken off. -/
theorem year_eq {e c q r : Int} (hc : 0 ≤ c ∧ c ≤ 3) (hq : 0 ≤ q ∧ q ≤ 24) (hr : 0 ≤ r ∧ r ≤ 1460)
    (he : e = 36524 * c + 1461 * q + r) (hlast : c = 3 ∨ 1461 * q + r ≤ 36523) :
    (e - e / 1460 + e / 36524 - e / 146096) / 365 = 100 * c + 4 * q + min 3 (r / 365) := by
  have hfourths : e / 1460 = (24 * c + q + r) / 1460 + (25 * c + q) := by omega
  have hcenturies : e / 36524 = c + e / 146096 := by omega
  have hera : e / 146096 = 0 ∨ e / 146096 = 1 ∧ r = 1460 := by omega
  generalize e / 146096 = k at *
  have hf : (24 * c + q + r) / 1460 = 0 ∧ r < 1460
      ∨ (24 * c + q + r) / 1460 = 1 ∧ 1364 ≤ r := by omega
  rw [hfourths, hcenturies]
  generalize (24 * c + q + r) / 1460 = f at *
  have hdiff : e - (f + (25 * c + q)) + (c + k) - k = 365 * (100 * c + 4 * q) + (r - f) := by omega
  rw [hdiff]
  omega

/-- The year of the era is one of four hundred, and the day one of its own. -/
theorem year_day {e : Int} (h0 : 0 ≤ e) (h1 : e < 146097) :
    let y := (e - e / 1460 + e / 36524 - e / 146096) / 365
    (0 ≤ y ∧ y ≤ 399) ∧ 0 ≤ e - (365 * y + y / 4 - y / 100)
      ∧ e - (365 * y + y / 4 - y / 100) ≤ 365 := by
  obtain ⟨c, q, r, hc, hq, hr, he, hlast⟩ := split_era h0 h1
  dsimp only
  rw [year_eq hc hq hr he hlast]
  have hu : 0 ≤ min 3 (r / 365) ∧ min 3 (r / 365) ≤ 3 ∧ 0 ≤ r - 365 * min 3 (r / 365)
      ∧ r - 365 * min 3 (r / 365) ≤ 365 := by omega
  generalize min 3 (r / 365) = u at *
  have hfour : (100 * c + 4 * q + u) / 4 = 25 * c + q := by omega
  have hhundred : (100 * c + 4 * q + u) / 100 = c := by omega
  rw [hfour, hhundred]
  omega

/-- A date by its era, the year of it and the day of that: `civil`, before the months. -/
theorem civil_eq (n : Int) :
    ∃ era y d : Int, n + epoch = era * 146097 + (365 * y + y / 4 - y / 100) + d
    ∧ (0 ≤ y ∧ y ≤ 399) ∧ (0 ≤ d ∧ d ≤ 365)
    ∧ civil n = if (5 * d + 2) / 153 < 10 then
        (y + era * 400, (5 * d + 2) / 153 + 3, d - (153 * ((5 * d + 2) / 153) + 2) / 5 + 1)
      else (y + era * 400 + 1, (5 * d + 2) / 153 - 9,
        d - (153 * ((5 * d + 2) / 153) + 2) / 5 + 1) := by
  have hday := @year_day ((n + epoch) % 146097) (by omega) (by omega)
  dsimp only at hday
  refine ⟨(n + epoch) / 146097, _, _, ?_, hday.1, hday.2, rfl⟩
  generalize ((n + epoch) % 146097 - (n + epoch) % 146097 / 1460 + (n + epoch) % 146097 / 36524
    - (n + epoch) % 146097 / 146096) / 365 = y
  omega

/-- A day is its year, its month and its day. -/
theorem civil_inj {m n : Int} (h : civil m = civil n) : m = n := by
  obtain ⟨era, y, d, hm, hy, hd, hcivil⟩ := civil_eq m
  obtain ⟨era', y', d', hn, hy', hd', hcivil'⟩ := civil_eq n
  rw [hcivil, hcivil'] at h
  have hparts : y + era * 400 = y' + era' * 400 ∧ d = d' := by
    split at h <;> split at h <;> simp only [Prod.mk.injEq] at h <;> omega
  have hera : era = era' := by omega
  have hyear : y = y' := by omega
  rw [hera, hyear, hparts.2] at hm
  omega

/-- The instants a `datetime` can hold, of the years 1 to 9999. -/
def InYears (t : Int) : Prop := -62135596800000000 ≤ t ∧ t < 253402300800000000

instance (t : Int) : Decidable (InYears t) := inferInstanceAs (Decidable (_ ∧ _))

/-- The parts of its date are no negative numbers. -/
theorem civil_nonneg {t : Int} (h : InYears t) :
    0 ≤ (civil (t / perDay)).1 ∧ 0 ≤ (civil (t / perDay)).2.1 ∧ 0 ≤ (civil (t / perDay)).2.2 := by
  have hdays : -719162 ≤ t / perDay := by
    have hlow := h.1
    unfold perDay perSecond
    omega
  obtain ⟨era, y, d, heq, hy, hd, hcivil⟩ := civil_eq (t / perDay)
  have hera : 0 ≤ era := by
    unfold epoch at heq
    omega
  rw [hcivil]
  split
  · refine ⟨?_, ?_, ?_⟩ <;>
      · dsimp only
        omega
  · refine ⟨?_, ?_, ?_⟩ <;>
      · dsimp only
        omega

theorem not_mem_pad {width : Nat} {n : Int} {c : Char}
    (hc : c.isDigit = false) : c ∉ pad width n := by
  intro h
  rw [Date.pad_digits (n := n.toNat) h] at hc
  cases hc

theorem pad_inj {width : Nat} {m n : Int} (hm : 0 ≤ m) (hn : 0 ≤ n)
    (h : pad width m = pad width n) : m = n := by
  have hnat : m.toNat = n.toNat := Date.pad_inj h
  omega

/-- A part of a text that ends in a number is read off from the back. -/
theorem parts_inj {a b : List Char} {c : Char} {width : Nat} {m n : Int} (hc : c.isDigit = false)
    (hm : 0 ≤ m) (hn : 0 ≤ n)
    (h : a ++ c :: pad width m = b ++ c :: pad width n) : a = b ∧ m = n := by
  obtain ⟨hfront, hpad⟩ := append_cons_inj (not_mem_pad hc) (not_mem_pad hc) h
  exact ⟨hfront, pad_inj hm hn hpad⟩

/-- The text of an instant, before its fraction. -/
def seconds (t : Int) : List Char :=
  pad 4 (civil (t / perDay)).1 ++ '-' :: pad 2 (civil (t / perDay)).2.1
    ++ '-' :: pad 2 (civil (t / perDay)).2.2
    ++ 'T' :: pad 2 (t % perDay / perSecond / 3600)
      ++ ':' :: pad 2 (t % perDay / perSecond / 60 % 60)
    ++ ':' :: pad 2 (t % perDay / perSecond % 60)

theorem isoformat_eq (t : Int) : isoformat t = String.ofList (seconds t
    ++ (if t % perSecond = 0 then [] else '.' :: pad 6 (t % perSecond)) ++ "+00:00".toList) := rfl

theorem not_dot_seconds (t : Int) : '.' ∉ seconds t := by
  have hpad : ∀ width n, '.' ∉ pad width n := fun _ _ => not_mem_pad rfl
  unfold seconds
  simp only [List.mem_append, List.mem_cons, hpad, or_false, not_or]
  decide

/-- Instants with one text before the fraction are of one second. -/
theorem seconds_inj {t u : Int} (ht : InYears t) (hu : InYears u) (h : seconds t = seconds u) :
    t / perSecond = u / perSecond := by
  have hct := civil_nonneg ht
  have hcu := civil_nonneg hu
  have hclock : ∀ v : Int, 0 ≤ v % perDay / perSecond / 3600 ∧ 0 ≤ v % perDay / perSecond / 60 % 60
      ∧ 0 ≤ v % perDay / perSecond % 60 := by
    intro v
    unfold perDay perSecond
    omega
  obtain ⟨h, hsecond⟩ := parts_inj rfl (hclock t).2.2 (hclock u).2.2 h
  obtain ⟨h, hminute⟩ := parts_inj rfl (hclock t).2.1 (hclock u).2.1 h
  obtain ⟨h, hhour⟩ := parts_inj rfl (hclock t).1 (hclock u).1 h
  obtain ⟨h, hday⟩ := parts_inj rfl hct.2.2 hcu.2.2 h
  obtain ⟨h, hmonth⟩ := parts_inj rfl hct.2.1 hcu.2.1 h
  have hyear := pad_inj hct.1 hcu.1 h
  have hdays := civil_inj (Prod.ext hyear (Prod.ext hmonth hday))
  unfold perDay perSecond at *
  omega

/-- **An instant is read off its text.** -/
theorem isoformat_inj {t u : Int} (ht : InYears t) (hu : InYears u)
    (h : isoformat t = isoformat u) : t = u := by
  rw [isoformat_eq, isoformat_eq] at h
  have hlist := List.append_cancel_right (String.ofList_injective h)
  have hfraction : 0 ≤ t % perSecond ∧ 0 ≤ u % perSecond := by
    unfold perSecond
    omega
  -- a fraction of zero is left out, and the point of another stands nowhere else
  have hparts : seconds t = seconds u ∧ t % perSecond = u % perSecond := by
    by_cases ht0 : t % perSecond = 0
    · by_cases hu0 : u % perSecond = 0
      · rw [if_pos ht0, if_pos hu0, List.append_nil, List.append_nil] at hlist
        exact ⟨hlist, by omega⟩
      · rw [if_pos ht0, if_neg hu0, List.append_nil] at hlist
        refine absurd ?_ (not_dot_seconds t)
        rw [hlist]
        exact List.mem_append_right _ (List.mem_cons_self)
    · by_cases hu0 : u % perSecond = 0
      · rw [if_neg ht0, if_pos hu0, List.append_nil] at hlist
        refine absurd ?_ (not_dot_seconds u)
        rw [← hlist]
        exact List.mem_append_right _ (List.mem_cons_self)
      · rw [if_neg ht0, if_neg hu0] at hlist
        exact parts_inj rfl hfraction.1 hfraction.2 hlist
  have hsecond := seconds_inj ht hu hparts.1
  have hfraction' := hparts.2
  unfold perSecond at *
  omega

end Roamkit.Lib.Isoformat
