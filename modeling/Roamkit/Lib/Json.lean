import Mathlib.Algebra.Order.Field.Basic
import Mathlib.Algebra.Order.Field.Rat
import Mathlib.Tactic.NormNum
import Roamkit.Lib.PyText

/-!
# JSON values as Python holds them

What `json.loads` gives: an object is its list of pairs, of which `dict.get`
sees the last one under a key, and a number is an `int` or, written with a point
or an exponent, a `float`. A float is a whole number times a power of two, or one
of the constants `json.loads` also reads.
-/

namespace Roamkit.Lib

/-- A Python `float`: `num * 2 ^ exp`, an infinity, or not a number. -/
inductive PyFloat where
  | finite (num exp : Int)
  | infinity (negative : Bool)
  | nan
deriving DecidableEq

/-- `int(x)` of a float: towards zero; `none` for the values that have no whole part. -/
def PyFloat.trunc : PyFloat → Option Int
  | finite num exp =>
    if 0 ≤ exp then some (num * 2 ^ exp.toNat) else some (num.tdiv (2 ^ (-exp).toNat))
  | _ => none

/-- The number a float is. -/
def PyFloat.value : PyFloat → Option ℚ
  | finite num exp => some (num * 2 ^ exp)
  | _ => none

inductive Json where
  | null
  | bool (b : Bool)
  | int (n : Int)
  | float (x : PyFloat)
  | str (s : String)
  | list (xs : List Json)
  | dict (kvs : List (String × Json))

namespace Json

/-- `value is None`. -/
def isNull : Json → Bool
  | null => true
  | _ => false

/-- `isinstance(value, dict)`. -/
def isDict : Json → Bool
  | dict _ => true
  | _ => false

/-- `bool(value)`. -/
def truthy : Json → Bool
  | null => false
  | bool b => b
  | int n => n ≠ 0
  | float (.finite num _) => num ≠ 0
  | float _ => true
  | str s => s ≠ ""
  | list xs => !xs.isEmpty
  | dict kvs => !kvs.isEmpty

/-- `key in value` and `value[key]`, of an object. -/
def find? (key : String) : Json → Option Json
  | dict kvs => (kvs.reverse.find? (·.1 = key)).map (·.2)
  | _ => none

/-- `value.get(key, default)`, of an object. -/
def getD (j : Json) (key : String) (default : Json) : Json := (j.find? key).getD default

/-- `value.get(key)`, of an object. -/
def get (j : Json) (key : String) : Json := j.getD key null

/-- `value or default`. -/
def orElse (j default : Json) : Json := if j.truthy then j else default

/-- `int(value)`; `none` where Python raises. -/
def toInt : Json → Option Int
  | bool b => some (if b then 1 else 0)
  | int n => some n
  | float x => x.trunc
  | str s => PyText.int? s
  | _ => none

/-- The number a JSON number is, or a text spells. -/
def amount : Json → Option ℚ
  | int n => some n
  | float x => x.value
  | str s => (PyText.int? s).map fun n => (n : ℚ)
  | _ => none

/-- How Python writes what is no text: its floats, and the `repr` of lists and objects. -/
structure Writer where
  float : PyFloat → String
  list : List Json → String
  dict : List (String × Json) → String

/-- `str(value)`; `none` where Python raises, on an `int` too long to write. -/
def toStr (w : Writer) : Json → Option String
  | null => some "None"
  | bool true => some "True"
  | bool false => some "False"
  | int n => if PyText.fitsStr n then some (toString n) else none
  | float x => some (w.float x)
  | str s => some s
  | list xs => some (w.list xs)
  | dict kvs => some (w.dict kvs)

/-! ## What `int` makes of an amount -/

/-- Rounding towards zero crosses no whole bound upwards. -/
theorem tdiv_bounds {num d k : Int} (hd : 0 < d) :
    (num.tdiv d < k → (num : ℚ) / d < k) ∧ ((num : ℚ) / d < 1 → num.tdiv d ≤ 0) := by
  have hd' : (0 : ℚ) < d := by exact_mod_cast hd
  refine ⟨?_, ?_⟩
  · intro h
    have hlt : num < k * d := Int.lt_mul_of_tdiv_lt hd h
    rw [div_lt_iff₀ hd']
    exact_mod_cast hlt
  · intro h
    rw [div_lt_one hd'] at h
    have hlt : num < d := by exact_mod_cast h
    rcases lt_or_ge num 0 with hneg | hpos
    · have hpos : 0 ≤ (-num).tdiv d := Int.tdiv_nonneg (by omega) (Int.le_of_lt hd)
      rw [Int.neg_tdiv] at hpos
      omega
    · exact Int.le_of_eq (Int.tdiv_eq_zero_of_lt hpos hlt)

/-- What `int` makes of a float is under a whole bound only if the float is. -/
theorem trunc_bounds {x : PyFloat} {n : Int} {q : ℚ} (hn : x.trunc = some n)
    (hq : x.value = some q) :
    (∀ k : Int, n < k → q < k) ∧ (q < 1 → n ≤ 0) := by
  cases x with
  | infinity negative => cases hn
  | nan => cases hn
  | finite num exp =>
    obtain rfl : (num * 2 ^ exp : ℚ) = q := Option.some.inj hq
    by_cases hexp : 0 ≤ exp
    · obtain ⟨e, rfl⟩ := Int.eq_ofNat_of_zero_le hexp
      rw [PyFloat.trunc, if_pos hexp, Int.toNat_natCast] at hn
      obtain rfl : num * 2 ^ e = n := Option.some.inj hn
      have hcast : (num * 2 ^ (e : Int) : ℚ) = ((num * 2 ^ e : Int) : ℚ) := by push_cast; simp
      rw [hcast]
      refine ⟨fun k hk => by exact_mod_cast hk, fun h => ?_⟩
      have hlt : num * 2 ^ e < 1 := by exact_mod_cast h
      omega
    · obtain ⟨e, he⟩ := Int.eq_ofNat_of_zero_le (a := -exp) (by omega)
      obtain rfl : exp = -(e : Int) := by omega
      rw [PyFloat.trunc, if_neg hexp, neg_neg, Int.toNat_natCast] at hn
      obtain rfl : num.tdiv (2 ^ e) = n := Option.some.inj hn
      have hcast : (num * 2 ^ (-(e : Int)) : ℚ) = (num : ℚ) / ((2 ^ e : Int) : ℚ) := by
        push_cast
        rw [zpow_neg, zpow_natCast, div_eq_mul_inv]
      rw [hcast]
      have hpos : (0 : Int) < 2 ^ e := by positivity
      exact ⟨fun k => (tdiv_bounds hpos).1, (tdiv_bounds (k := 0) hpos).2⟩

/--
What `int(value or 0)` reads: a number under a whole bound only if the amount is;
and where there is no amount, zero or one.
-/
theorem toInt_amount {j : Json} {n : Int} (h : (j.orElse (int 0)).toInt = some n) :
    match j.amount with
    | some q => (∀ k : Int, n < k → q < k) ∧ (q < 1 → n ≤ 0)
    | none => n < 2 := by
  have whole : ∀ m : Int, (∀ k : Int, m < k → (m : ℚ) < k) ∧ ((m : ℚ) < 1 → m ≤ 0) := by
    intro m
    refine ⟨fun k hk => by exact_mod_cast hk, fun hm => ?_⟩
    have hlt : m < 1 := by exact_mod_cast hm
    omega
  unfold orElse at h
  cases j with
  | null =>
    cases h
    simp [amount]
  | bool b => cases b <;> cases h <;> simp [amount]
  | int m =>
    have hm : m = n := by
      by_cases hz : m = 0
      · subst hz
        exact Option.some.inj h
      · rw [if_pos (by simpa [truthy] using hz)] at h
        exact Option.some.inj h
    exact hm ▸ whole m
  | float x =>
    by_cases ht : (float x).truthy = true
    · rw [if_pos ht] at h
      cases x with
      | finite num exp =>
        have htrunc : (PyFloat.finite num exp).trunc = some n := h
        exact trunc_bounds htrunc rfl
      | infinity negative => cases h
      | nan => cases h
    · -- a float that is false is zero
      rw [if_neg ht] at h
      cases x with
      | finite num exp =>
        obtain rfl : num = 0 := by simpa [truthy] using ht
        cases h
        simp [amount, PyFloat.value]
      | infinity negative => simp [truthy] at ht
      | nan => simp [truthy] at ht
  | str s =>
    by_cases ht : (str s).truthy = true
    · rw [if_pos ht, toInt] at h
      simp only [amount, h]
      exact whole n
    · rw [if_neg ht] at h
      obtain rfl : s = "" := by simpa [truthy] using ht
      cases h
      have hnone : amount (str "") = none := rfl
      simp [hnone]
  | list xs =>
    cases xs with
    | nil => cases h; simp [amount]
    | cons x xs => cases h
  | dict kvs =>
    cases kvs with
    | nil => cases h; simp [amount]
    | cons kv kvs => cases h

/-!
## Reading JSON

`json.loads` is given by Python. What it reads has no integer that is too long to be
written again, since it refuses one of more digits.
-/

/-- The first value stands somewhere in the second. -/
inductive Within : Json → Json → Prop
  | self (j : Json) : Within j j
  | item {j x : Json} {xs : List Json} (hx : x ∈ xs) (h : Within j x) : Within j (.list xs)
  | value {j : Json} {kv : String × Json} {kvs : List (String × Json)} (hkv : kv ∈ kvs)
      (h : Within j kv.2) :
      Within j (.dict kvs)

/-- Python writes every integer in it. -/
def Writable (j : Json) : Prop := ∀ n, Within (.int n) j → PyText.fitsStr n = true

namespace Writable

variable {j : Json}

theorem item {xs : List Json} (h : Writable (.list xs)) {x : Json} (hx : x ∈ xs) : x.Writable :=
  fun n hn => h n (.item hx hn)

theorem list {xs : List Json} (h : ∀ x ∈ xs, x.Writable) : (Json.list xs).Writable := by
  intro n hn
  cases hn with
  | item hx hin => exact h _ hx n hin

theorem dict {kvs : List (String × Json)} (h : ∀ kv ∈ kvs, kv.2.Writable) :
    (Json.dict kvs).Writable := by
  intro n hn
  cases hn with
  | value hkv hin => exact h _ hkv n hin

theorem null : Writable .null := by
  intro n hn
  cases hn

theorem str (s : String) : Writable (.str s) := by
  intro n hn
  cases hn

theorem get (h : j.Writable) (key : String) : (j.get key).Writable := by
  unfold Json.get getD find?
  split
  · rename_i kvs
    cases hfind : kvs.reverse.find? (·.1 = key) with
    | none => exact null
    | some kv =>
        exact fun n hn => h n (.value (List.mem_reverse.1 (List.mem_of_find?_eq_some hfind)) hn)
  · exact null

theorem nil : (Json.list []).Writable := list fun _ hx => nomatch hx

theorem orElse_of (h : j.Writable) {default : Json} (hdefault : default.Writable) :
    (j.orElse default).Writable := by
  unfold Json.orElse
  split
  · exact h
  · exact hdefault

theorem orElse (h : j.Writable) (default : String) : (j.orElse (.str default)).Writable :=
  h.orElse_of (str default)

theorem toStr (h : j.Writable) (w : Writer) : ∃ s, j.toStr w = some s := by
  cases j with
  | null => exact ⟨_, rfl⟩
  | bool b => cases b <;> exact ⟨_, rfl⟩
  | int n =>
    have hfits := h n (.self _)
    refine ⟨toString n, ?_⟩
    unfold Json.toStr
    dsimp only
    rw [if_pos hfits]
  | float x => exact ⟨_, rfl⟩
  | str s => exact ⟨_, rfl⟩
  | list xs => exact ⟨_, rfl⟩
  | dict kvs => exact ⟨_, rfl⟩

end Writable

end Json

/-- `json.loads`. A text that is no Unicode, with half of a surrogate pair, has a NUL in the place
of the half: where it is stored, and where it is put into a header, both are refused alike. -/
structure JsonReader where
  /-- `none` where it raises. -/
  loads : String → Option Json
  writable : ∀ text j, loads text = some j → j.Writable

end Roamkit.Lib
