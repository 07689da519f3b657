import Mathlib.Tactic.Common
import Roamkit.Lib.Decimal

/-!
# Texts of several fields

A text that joins fields with a separator is read back field by field, as long as the field
in front does not hold the separator. What follows the last such field may be any text.
-/

namespace Roamkit.Lib

/-!
## Keys written as text

A key is often a prefix that says what it is for, and the identifier of one thing
of that kind. Keys of different kinds are different when their prefixes *part*:
at some place both have a character, and not the same one. Keys of one kind are
different when the identifiers are.
-/

/-- At some place both texts have a character, and not the same one. -/
def parts (p q : String) : Bool := (p.toList.zip q.toList).any fun c => c.1 ≠ c.2

theorem list_ne_of_parts {p q : List Char} (h : (p.zip q).any (fun c => decide (c.1 ≠ c.2)) = true)
    (x y : List Char) : p ++ x ≠ q ++ y := by
  induction p generalizing q with
  | nil => simp at h
  | cons a p ih =>
    cases q with
    | nil => simp at h
    | cons b q =>
      rw [List.zip_cons_cons, List.any_cons, Bool.or_eq_true] at h
      intro heq
      obtain ⟨hab, hrest⟩ := List.cons.inj heq
      rcases h with h | h
      · exact of_decide_eq_true h hab
      · exact ih h hrest

/-- Keys of kinds whose prefixes part are different. -/
theorem ne_of_parts {p q : String} (h : parts p q = true) (x y : String) : p ++ x ≠ q ++ y := by
  intro heq
  have hlist := congrArg String.toList heq
  rw [String.toList_append, String.toList_append] at hlist
  exact list_ne_of_parts h _ _ hlist

/-- A text is cut at the last place a character stands. -/
theorem append_cons_inj {a b x y : List Char} {c : Char} (hx : c ∉ x) (hy : c ∉ y)
    (h : a ++ c :: x = b ++ c :: y) : a = b ∧ x = y := by
  have cut : ∀ {a b x y : List Char}, c ∉ x → a ++ c :: x = b ++ c :: y →
      (∃ as, b = a ++ as ∧ c :: x = as ++ c :: y) → a = b ∧ x = y := by
    rintro a b x y hx _ ⟨as, rfl, hrest⟩
    cases as with
    | nil =>
      obtain ⟨_, rfl⟩ := List.cons.inj hrest
      exact ⟨(List.append_nil a).symm, rfl⟩
    | cons d as =>
      obtain ⟨_, rfl⟩ := List.cons.inj hrest
      exact absurd (by simp) hx
  rcases List.append_eq_append_iff.1 h with hleft | hright
  · exact cut hx h hleft
  · obtain ⟨hab, hxy⟩ := cut hy h.symm hright
    exact ⟨hab.symm, hxy.symm⟩

/-- A key of two parts with a colon between them, cut at the colon. -/
theorem toList_colon (a b x : String) :
    (a ++ b ++ ":" ++ x).toList = (a.toList ++ b.toList) ++ ':' :: x.toList := by
  rw [String.toList_append, String.toList_append, String.toList_append,
    List.append_assoc _ _ x.toList]
  rfl

/-- A key and the kind it is of. -/
theorem append_kind (a b c d : String) : a ++ b ++ c ++ d = a ++ (b ++ c ++ d) := by
  rw [String.append_assoc, String.append_assoc, String.append_assoc]

/-- A number is read off its decimal digits. -/
theorem toString_nat_inj {m n : Nat} (h : toString m = toString n) : m = n := by
  rw [Nat.toString_eq_ofList_toDigits, Nat.toString_eq_ofList_toDigits] at h
  have hdigits := String.ofList_injective h
  rw [← Nat.ofDigitChars_ten_toDigits (n := m), hdigits, Nat.ofDigitChars_ten_toDigits]

/-- A number is written in digits only. -/
theorem isDigit_of_mem_toString {n : Nat} {c : Char} (h : c ∈ (toString n).toList) : c.isDigit := by
  rw [Nat.toString_eq_ofList_toDigits, String.toList_ofList] at h
  exact Nat.isDigit_of_mem_toDigits (by omega) (by omega) h

/-! ## Fields -/

/-- A text is cut at the first place a character stands. -/
theorem cut_first {a b x y : List Char} {c : Char} (ha : c ∉ a) (hb : c ∉ b)
    (h : a ++ c :: x = b ++ c :: y) : a = b ∧ x = y := by
  induction a generalizing b with
  | nil =>
    cases b with
    | nil => exact ⟨rfl, (List.cons.inj h).2⟩
    | cons d b =>
      obtain ⟨rfl, -⟩ := List.cons.inj h
      exact absurd (List.mem_cons_self ..) hb
  | cons d a ih =>
    cases b with
    | nil =>
      obtain ⟨rfl, -⟩ := List.cons.inj h
      exact absurd (List.mem_cons_self ..) ha
    | cons e b =>
      obtain ⟨rfl, hrest⟩ := List.cons.inj h
      have ha' : c ∉ a := fun hc => ha (List.mem_cons_of_mem _ hc)
      have hb' : c ∉ b := fun hc => hb (List.mem_cons_of_mem _ hc)
      obtain ⟨rfl, hxy⟩ := ih ha' hb' hrest
      exact ⟨rfl, hxy⟩

/-- A text with a character in it, cut before that character. -/
theorem toList_cut (s t : String) (c : Char) :
    (s ++ String.singleton c ++ t).toList = s.toList ++ c :: t.toList := by
  rw [String.toList_append, String.toList_append, String.toList_singleton, List.append_assoc]
  rfl

theorem string_cut {s t x y : String} {c : Char} (hs : c ∉ s.toList) (ht : c ∉ t.toList)
    (h : s ++ String.singleton c ++ x = t ++ String.singleton c ++ y) : s = t ∧ x = y := by
  have hlist := congrArg String.toList h
  rw [toList_cut, toList_cut] at hlist
  obtain ⟨hst, hxy⟩ := cut_first hs ht hlist
  exact ⟨String.toList_inj.1 hst, String.toList_inj.1 hxy⟩

/-- **The field in front of the first separator is read off the text.** -/
theorem intercalate_cut {s t u v : String} {l l' : List String} {c : Char} (hs : c ∉ s.toList)
    (ht : c ∉ t.toList)
    (h : (String.singleton c).intercalate (s :: u :: l)
      = (String.singleton c).intercalate (t :: v :: l')) :
    s = t ∧ (String.singleton c).intercalate (u :: l)
      = (String.singleton c).intercalate (v :: l') := by
  rw [String.intercalate_cons_cons, String.intercalate_cons_cons] at h
  exact string_cut hs ht h

/-- What is joined holds the separator and what the fields hold. -/
theorem mem_intercalate {α : Type} {sep : List α} {fields : List (List α)} {x : α}
    (h : x ∈ sep.intercalate fields) : x ∈ sep ∨ ∃ field ∈ fields, x ∈ field := by
  induction fields with
  | nil => cases h
  | cons field rest ih =>
    cases rest with
    | nil =>
      rw [List.intercalate_singleton] at h
      exact .inr ⟨field, List.mem_cons_self .., h⟩
    | cons next rest =>
      rw [List.intercalate_cons_cons, List.mem_append, List.mem_append] at h
      rcases h with (hfield | hsep) | hrest
      · exact .inr ⟨field, List.mem_cons_self .., hfield⟩
      · exact .inl hsep
      · rcases ih hrest with hsep | ⟨f, hf, hx⟩
        · exact .inl hsep
        · exact .inr ⟨f, List.mem_cons_of_mem _ hf, hx⟩

/-! ## Amounts -/

namespace Dec

/-- A number of units without its sign. -/
def magnitudeText (places n : Nat) : String :=
  toString (n / 10 ^ places) ++ "."
    ++ String.ofList ((Nat.toDigits 10 (n % 10 ^ places)).leftpad places '0')

theorem fixed_eq (places : Nat) (n : Int) :
    fixed places n = (if n < 0 then "-" else "") ++ magnitudeText places n.natAbs := by
  unfold fixed magnitudeText
  dsimp only
  rw [String.append_assoc, String.append_assoc, String.append_assoc]

theorem ofDigitChars_leftpad (places n : Nat) :
    Nat.ofDigitChars 10 ((Nat.toDigits 10 n).leftpad places '0') 0 = n := by
  rw [List.leftpad, Nat.ofDigitChars_append, Nat.ofDigitChars_replicate_zero, Nat.mul_zero,
    Nat.ofDigitChars_ten_toDigits]

theorem leftpad_inj {places m n : Nat}
    (h : (Nat.toDigits 10 m).leftpad places '0' = (Nat.toDigits 10 n).leftpad places '0') :
    m = n := by
  rw [← ofDigitChars_leftpad places m, h, ofDigitChars_leftpad]

theorem isDigit_of_mem_leftpad {places n : Nat} {c : Char}
    (h : c ∈ (Nat.toDigits 10 n).leftpad places '0') : c.isDigit := by
  rw [List.leftpad, List.mem_append] at h
  rcases h with hpad | hdigit
  · rw [List.eq_of_mem_replicate hpad]
    rfl
  · exact Nat.isDigit_of_mem_toDigits (by omega) (by omega) hdigit

theorem magnitudeText_inj {places m n : Nat}
    (h : magnitudeText places m = magnitudeText places n) : m = n := by
  have hpoint : ∀ k : Nat, '.' ∉ (toString k).toList := by
    intro k hc
    exact absurd (isDigit_of_mem_toString hc) (by decide)
  obtain ⟨hwhole, hpart⟩ := @string_cut _ _ _ _ '.' (hpoint _) (hpoint _) h
  have hdiv := toString_nat_inj hwhole
  have hmod := leftpad_inj (String.ofList_injective hpart)
  rw [← Nat.div_add_mod m (10 ^ places), hdiv, hmod, Nat.div_add_mod]

/-- A magnitude is written in digits and a point. -/
theorem mem_magnitudeText {places n : Nat} {c : Char} (h : c ∈ (magnitudeText places n).toList) :
    c.isDigit ∨ c = '.' := by
  unfold magnitudeText at h
  rw [String.toList_append, String.toList_append, List.mem_append, List.mem_append] at h
  rcases h with (hwhole | hpoint) | hpart
  · exact .inl (isDigit_of_mem_toString hwhole)
  · exact .inr (List.mem_singleton.1 hpoint)
  · rw [String.toList_ofList] at hpart
    exact .inl (isDigit_of_mem_leftpad hpart)

/-- An amount is read off its sign and its magnitude. -/
theorem signed_inj {places m n : Nat} {a b : Bool}
    (h : (if a then "-" else "") ++ magnitudeText places m
      = (if b then "-" else "") ++ magnitudeText places n) :
    a = b ∧ m = n := by
  have hminus : ∀ {k l : Nat}, "-" ++ magnitudeText places k ≠ "" ++ magnitudeText places l := by
    intro k l hc
    have hmem : '-' ∈ ("-" ++ magnitudeText places k).toList := by
      rw [String.toList_append]
      exact List.mem_append_left _ (List.mem_singleton.2 rfl)
    rw [hc, String.toList_append] at hmem
    rcases List.mem_append.1 hmem with hempty | hmem
    · cases hempty
    rcases mem_magnitudeText hmem with hdigit | hpoint
    · exact absurd hdigit (by decide)
    · exact absurd hpoint (by decide)
  have hcut : ∀ {s : String} {x y : String}, s ++ x = s ++ y → x = y := by
    intro s x y hxy
    have hlist := congrArg String.toList hxy
    rw [String.toList_append, String.toList_append] at hlist
    exact String.toList_inj.1 (List.append_cancel_left hlist)
  cases a with
  | false =>
    cases b with
    | false => exact ⟨rfl, magnitudeText_inj (hcut h)⟩
    | true => exact absurd h.symm hminus
  | true =>
    cases b with
    | false => exact absurd h hminus
    | true => exact ⟨rfl, magnitudeText_inj (hcut h)⟩

end Dec

end Roamkit.Lib
