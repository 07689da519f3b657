import Mathlib.Algebra.Group.Nat.Defs
import Mathlib.Data.List.DropRight
import Mathlib.Tactic.Common

/-!
# Text as Python reads it

What `str.strip`, `str.lower` on ASCII and the decimal digits of `int` and
`Decimal` take a text for. Python reads a number in the digits of any script, so
the digits are the Unicode category `Nd`, listed by the code point of each zero.
-/

namespace Roamkit.Lib.PyText

/-- `str.isspace`: the code points outside ASCII that Python takes for white space. -/
def wideSpaces : List Nat :=
  [0x85, 0xa0, 0x1680, 0x2000, 0x2001, 0x2002, 0x2003, 0x2004, 0x2005, 0x2006, 0x2007, 0x2008,
    0x2009, 0x200a, 0x2028, 0x2029, 0x202f, 0x205f, 0x3000]

/-- `str.isspace` of one character. -/
def isSpace (c : Char) : Bool :=
  let n := c.toNat
  (0x9 ≤ n && n ≤ 0xd) || (0x1c ≤ n && n ≤ 0x20) || wideSpaces.contains n

/-- The zeros of the decimal digits, one for every script that has them. -/
def zeros : List Nat :=
  [0x30, 0x660, 0x6f0, 0x7c0, 0x966, 0x9e6, 0xa66, 0xae6, 0xb66, 0xbe6, 0xc66, 0xce6, 0xd66, 0xde6,
    0xe50, 0xed0, 0xf20, 0x1040, 0x1090, 0x17e0, 0x1810, 0x1946, 0x19d0, 0x1a80, 0x1a90, 0x1b50,
    0x1bb0, 0x1c40, 0x1c50, 0xa620, 0xa8d0, 0xa900, 0xa9d0, 0xa9f0, 0xaa50, 0xabf0, 0xff10,
    0x104a0, 0x10d30, 0x11066, 0x110f0, 0x11136, 0x111d0, 0x112f0, 0x11450, 0x114d0, 0x11650,
    0x116c0, 0x11730, 0x118e0, 0x11950, 0x11c50, 0x11d50, 0x11da0, 0x11f50, 0x16a60, 0x16ac0,
    0x16b50, 0x1d7ce, 0x1d7d8, 0x1d7e2, 0x1d7ec, 0x1d7f6, 0x1e140, 0x1e2f0, 0x1e4f0, 0x1e950,
    0x1fbf0]

/-- The value of a decimal digit of any script. -/
def digit? (c : Char) : Option Nat :=
  (zeros.find? fun z => z ≤ c.toNat && c.toNat < z + 10).map fun z => c.toNat - z

/-- White space off both ends. -/
def trim (cs : List Char) : List Char :=
  ((cs.dropWhile isSpace).reverse.dropWhile isSpace).reverse

/-- `str.strip()`. -/
def strip (s : String) : String := String.ofList (trim s.toList)

/-- Trimming takes white space off both ends. -/
theorem exists_trim (cs : List Char) : ∃ front back, cs = front ++ trim cs ++ back ∧
    (∀ c ∈ front, isSpace c = true) ∧ ∀ c ∈ back, isSpace c = true := by
  refine ⟨cs.takeWhile isSpace, ((cs.dropWhile isSpace).reverse.takeWhile isSpace).reverse, ?_,
    fun c hc => List.mem_takeWhile_imp hc, fun c hc =>
      List.mem_takeWhile_imp (List.mem_reverse.1 hc)⟩
  unfold trim
  rw [List.append_assoc, ← List.reverse_append, List.takeWhile_append_dropWhile,
    List.reverse_reverse, List.takeWhile_append_dropWhile]

theorem mem_trim {c : Char} {cs : List Char} (h : c ∈ cs)
    (hc : isSpace c = false) : c ∈ trim cs := by
  obtain ⟨front, back, hcs, hfront, hback⟩ := exists_trim cs
  rw [hcs, List.mem_append, List.mem_append] at h
  rcases h with (h | h) | h
  · rw [hfront c h] at hc
    cases hc
  · exact h
  · rw [hback c h] at hc
    cases hc

/-- A text that keeps its white space is not trimmed. -/
theorem trim_of_count {cs : List Char} (h : (trim cs).countP isSpace = cs.countP isSpace) :
    trim cs = cs := by
  obtain ⟨front, back, hcs, hfront, hback⟩ := exists_trim cs
  have hcount : cs.countP isSpace = front.length + (trim cs).countP isSpace + back.length := by
    rw [← List.countP_eq_length.2 hfront, ← List.countP_eq_length.2 hback, ← List.countP_append,
      ← List.countP_append, ← hcs]
  have hnone : front.length = 0 ∧ back.length = 0 := by omega
  have hsame := hcs
  rw [List.length_eq_zero_iff.1 hnone.1, List.length_eq_zero_iff.1 hnone.2, List.nil_append,
    List.append_nil] at hsame
  exact hsame.symm

/-- A text is not trimmed when there is no white space at its ends. -/
theorem trim_eq_self_iff {cs : List Char} : trim cs = cs ↔
    (∀ c ∈ cs.head?, isSpace c = false) ∧ ∀ c ∈ cs.getLast?, isSpace c = false := by
  have hdrop : ∀ xs : List Char, (∀ c ∈ xs.head?, isSpace c = false)
      → xs.dropWhile isSpace = xs := by
    intro xs hxs
    cases xs with
    | nil => rfl
    | cons x xs => exact List.dropWhile_cons_of_neg (by rw [hxs x rfl]; exact Bool.false_ne_true)
  have hshort : ∀ xs : List Char, ∀ c ∈ xs.head?, isSpace c = true →
      (xs.dropWhile isSpace).length < xs.length := by
    intro xs c hc hspace
    cases xs with
    | nil => cases hc
    | cons x xs =>
      cases hc
      rw [List.dropWhile_cons_of_pos hspace]
      have hle := (List.dropWhile_sublist isSpace (l := xs)).length_le
      exact Nat.lt_succ_of_le hle
  constructor
  · intro h
    have hlength : ((cs.dropWhile isSpace).reverse.dropWhile isSpace).length = cs.length := by
      have hlen := congrArg List.length h
      unfold trim at hlen
      rwa [List.length_reverse] at hlen
    have hback := (List.dropWhile_sublist isSpace (l := (cs.dropWhile isSpace).reverse)).length_le
    have hfront := (List.dropWhile_sublist isSpace (l := cs)).length_le
    rw [List.length_reverse] at hback
    constructor
    · intro c hc
      by_contra hspace
      have hlt := hshort cs c hc (Bool.not_eq_false _ ▸ hspace)
      omega
    · intro c hc
      by_contra hspace
      have hsame : cs.dropWhile isSpace = cs :=
        (List.dropWhile_sublist isSpace).eq_of_length (by omega)
      have hlt := hshort cs.reverse c (by rwa [List.head?_reverse]) (Bool.not_eq_false _ ▸ hspace)
      rw [hsame] at hlength
      rw [List.length_reverse] at hlt
      omega
  · rintro ⟨hhead, hlast⟩
    unfold trim
    rw [hdrop cs hhead, hdrop cs.reverse (by rwa [List.head?_reverse]), List.reverse_reverse]

/-- What is off both ends stays off. -/
theorem trim_trim (cs : List Char) : trim (trim cs) = trim cs := by
  have htrim : ∀ cs, trim cs = (cs.dropWhile isSpace).rdropWhile isSpace := fun _ => rfl
  have hfront : (trim cs).dropWhile isSpace = trim cs := by
    rw [htrim]
    have hbegins := List.rdropWhile_prefix isSpace (cs.dropWhile isSpace)
    cases hkept : (cs.dropWhile isSpace).rdropWhile isSpace with
    | nil => rfl
    | cons c rest =>
      -- its first character is the first that is no white space
      rw [hkept] at hbegins
      obtain ⟨after, hafter⟩ := hbegins
      have hne : cs.dropWhile isSpace ≠ [] := by
        rw [← hafter]
        exact List.cons_ne_nil _ _
      have hhead := List.head_dropWhile_not isSpace hne
      simp only [← hafter, List.cons_append, List.head_cons] at hhead
      exact List.dropWhile_cons_of_neg (by rw [hhead]; exact Bool.false_ne_true)
  rw [htrim (trim cs), hfront, htrim]
  exact List.rdropWhile_idempotent isSpace _

/-- No letter within ASCII is white space. -/
theorem isSpace_of_letter {ch : Char} (h : 65 ≤ ch.toNat ∧ ch.toNat ≤ 122) :
    isSpace ch = false := by
  unfold isSpace wideSpaces
  simp
  omega

/-- Trimming commutes with a map that neither makes nor removes white space. -/
theorem trim_map {f : Char → Char} (h : ∀ ch, isSpace (f ch) = isSpace ch) (cs : List Char) :
    trim (cs.map f) = (trim cs).map f := by
  have hdrop : ∀ xs : List Char, (xs.map f).dropWhile isSpace = (xs.dropWhile isSpace).map f := by
    intro xs
    have hsame : isSpace ∘ f = isSpace := funext h
    rw [List.dropWhile_map, hsame]
  unfold trim
  rw [hdrop, ← List.map_reverse, hdrop, ← List.map_reverse]

theorem strip_strip (s : String) : strip (strip s) = strip s := by
  unfold strip
  rw [String.toList_ofList, trim_trim]

/-- `s.lower()` of a text within ASCII. -/
def lower (s : String) : String := String.ofList (s.toList.map Char.toLower)

/-- `text.zfill(width)`: zeros in front of the text, after its sign. -/
def zfill (width : Nat) : List Char → List Char
  | '+' :: cs => '+' :: (List.replicate (width - (cs.length + 1)) '0' ++ cs)
  | '-' :: cs => '-' :: (List.replicate (width - (cs.length + 1)) '0' ++ cs)
  | cs => List.replicate (width - cs.length) '0' ++ cs

/-- `text[-n:]`, for a positive `n`. -/
def takeLast (n : Nat) (cs : List Char) : List Char := cs.drop (cs.length - n)

example : String.ofList (zfill 4 "-7".toList) = "-007" ∧ takeLast 2 "abc".toList = ['b', 'c'] := by
  decide

/-- Whether some tail of a text begins with another text. -/
def hasInfix (part : List Char) : List Char → Bool
  | [] => part.isEmpty
  | c :: cs => part.isPrefixOf (c :: cs) || hasInfix part cs

/-- `part in s`. -/
def contains (s part : String) : Bool := hasInfix part.toList s.toList

/-- The digits at the front of a text, and the rest of it. -/
def spanDigits : List Char → List Nat × List Char
  | [] => ([], [])
  | c :: cs =>
    match digit? c with
    | none => ([], c :: cs)
    | some d => (d :: (spanDigits cs).1, (spanDigits cs).2)

/-- The number a list of digits spells. -/
def ofDigits (ds : List Nat) : Nat := ds.foldl (fun n d => 10 * n + d) 0

/-- An optional sign at the front, and the rest. -/
def sign : List Char → Bool × List Char
  | '-' :: cs => (true, cs)
  | '+' :: cs => (false, cs)
  | cs => (false, cs)

/-- A number with the sign in front of it. -/
def signed (negative : Bool) (n : Nat) : Int := if negative then -n else n

/-- The most digits `int` reads from a text and `str` writes for an `int`. -/
def maxStrDigits : Nat := 4300

/-- Digits with single underscores between them, and nothing after. -/
def digitGroups : List Char → Option (List Nat)
  | [] => none
  | [c] => (digit? c).map ([·])
  | c :: '_' :: cs =>
    match digit? c, digitGroups cs with
    | some d, some ds => some (d :: ds)
    | _, _ => none
  | c :: cs =>
    match digit? c, digitGroups cs with
    | some d, some ds => some (d :: ds)
    | _, _ => none

/-- `int(s)` of a text; `none` where Python raises `ValueError`. -/
def int? (s : String) : Option Int :=
  let (negative, cs) := sign (trim s.toList)
  match digitGroups cs with
  | none => none
  | some ds => if ds.length ≤ maxStrDigits then some (signed negative (ofDigits ds)) else none

example : int? " -1_024\n" = some (-1024) ∧ int? "1__0" = none ∧ int? "" = none := by decide

/-- One character as `repr` writes it between quotes. -/
def escape (quote c : Char) : String :=
  if c = quote ∨ c = '\\' then String.ofList ['\\', c]
  else if c = '\n' then "\\n"
  else if c = '\r' then "\\r"
  else if c = '\t' then "\\t"
  else if c.toNat < 0x20 ∨ c.toNat = 0x7f then
    "\\x" ++ String.ofList ((Nat.toDigits 16 c.toNat).leftpad 2 '0')
  else String.ofList [c]

/-- `repr(s)` of a text, of which everything outside ASCII is printable. -/
def repr (s : String) : String :=
  let quote := if s.toList.contains '\'' && !s.toList.contains '"' then '"' else '\''
  String.ofList [quote] ++ String.join (s.toList.map (escape quote)) ++ String.ofList [quote]

example : repr "a'b" = "\"a'b\"" ∧ repr "x\n" = "'x\\n'" := by decide

/-- Whether `str(n)` is within the digits Python writes. -/
def fitsStr (n : Int) : Bool := n.natAbs < 10 ^ maxStrDigits

end Roamkit.Lib.PyText
