import Mathlib.Tactic.Common

/-!
# Identifiers and times

UUIDs are the primary keys of most tables, and what `uuid4()` answers. A `Uuid`
is the text `str` gives for one: five groups of lower-case hexadecimal digits. A
time is a number of microseconds in UTC.
-/

namespace Roamkit

/-- Microseconds since the epoch. -/
abbrev Time := Int

/-- The microseconds of a number of seconds: `timedelta(seconds=…)`. -/
def seconds (n : Int) : Int := n * 1000000

/-- A lower-case hexadecimal digit. -/
def isHexDigit (c : Char) : Bool := ('0' ≤ c && c ≤ '9') || ('a' ≤ c && c ≤ 'f')

/-- Five groups of hexadecimal digits of the lengths a UUID is written with. -/
def isUuidText (s : String) : Bool :=
  let groups := s.toList.splitOn '-'
  groups.map List.length == [8, 4, 4, 4, 12] && groups.all (·.all isHexDigit)

/-- A UUID, as the text it is written as. -/
structure Uuid where
  str : String
  canonical : isUuidText str = true
deriving DecidableEq

namespace Uuid

@[ext] theorem ext {a b : Uuid} (h : a.str = b.str) : a = b := by
  cases a
  cases b
  cases h
  rfl

end Uuid

/-- A text without a dash splits into itself, so it is no UUID's text. -/
theorem Uuid.dash_mem (u : Uuid) : '-' ∈ u.str.toList := by
  by_contra h
  have hsplit : u.str.toList.splitOn '-' = [u.str.toList] :=
    List.splitOn_eq_singleton (by simpa using h)
  have hc := u.canonical
  rw [isUuidText, hsplit] at hc
  simp at hc

end Roamkit
