import Mathlib.Data.List.Basic
import Mathlib.Tactic.Common
import Roamkit.Lib.Fields

/-!
# What a page of a PDF shows

The text of a page is in the literal strings of its content stream: between parentheses,
which stand for themselves inside when they are balanced or behind a backslash. The stream
is found by its length. A text whose parentheses and backslashes are all escaped is shown
as it is, but for its ends of line, which are all one.
-/

namespace Roamkit.Lib.PdfText

/-! ## Literal strings -/

def backslash : UInt8 := 92

def leftParen : UInt8 := 40

def rightParen : UInt8 := 41

def carriageReturn : UInt8 := 13

def lineFeed : UInt8 := 10

/-- Where the reader of a content stream stands. -/
inductive Mode where
  | outside
  /-- In a string, in so many parentheses of its own, behind a carriage return or not. -/
  | literal (depth : Nat) (cr : Bool) (text : List UInt8)
  /-- Behind a backslash. -/
  | escaped (depth : Nat) (text : List UInt8)

/-- The strings of a content stream. Behind a backslash stands a backslash or a parenthesis: other
escapes are not read. -/
def scan : Mode → List UInt8 → List (List UInt8)
  | _, [] => []
  | .outside, b :: bs => if b = leftParen then scan (.literal 0 false []) bs else scan .outside bs
  | .literal depth cr text, b :: bs =>
    if cr = true ∧ b = lineFeed then scan (.literal depth false text) bs
    else if b = backslash then scan (.escaped depth text) bs
    else if b = leftParen then scan (.literal (depth + 1) false (text ++ [b])) bs
    else if b = rightParen then
      if depth = 0 then text :: scan .outside bs
        else scan (.literal (depth - 1) false (text ++ [b])) bs
    else if b = carriageReturn then scan (.literal depth true (text ++ [lineFeed])) bs
    else scan (.literal depth false (text ++ [b])) bs
  | .escaped depth text, b :: bs => scan (.literal depth false (text ++ [b])) bs

/-- A text with every parenthesis and backslash behind a backslash. -/
def escape (bs : List UInt8) : List UInt8 :=
  bs.flatMap fun b => if b = backslash ∨ b = leftParen ∨ b = rightParen then [backslash, b] else [b]

/-- A text with one end of line for all of them, read behind a carriage return or not. -/
def eol : Bool → List UInt8 → List UInt8
  | _, [] => []
  | cr, b :: bs =>
    if cr = true ∧ b = lineFeed then eol false bs
    else if b = carriageReturn then lineFeed :: eol true bs
    else b :: eol false bs

attribute [local simp] scan escape eol

/-- What an escaped text is read as. -/
theorem scan_escape (bs : List UInt8) (cr : Bool) (text rest : List UInt8) :
    scan (.literal 0 cr text) (escape bs ++ rightParen :: rest)
      = (text ++ eol cr bs) :: scan .outside rest := by
  induction bs generalizing cr text with
  | nil =>
    have hend : rightParen ≠ lineFeed ∧ rightParen ≠ backslash ∧ rightParen ≠ leftParen := by decide
    rw [eol, List.append_nil]
    show scan (.literal 0 cr text) (rightParen :: rest) = _
    rw [scan, if_neg fun hc => hend.1 hc.2, if_neg hend.2.1, if_neg hend.2.2,
      if_pos rfl, if_pos rfl]
  | cons b bs ih =>
    have hnext : ∀ cr' (b' : UInt8), text ++ b' :: eol cr' bs = text ++ [b'] ++ eol cr' bs := by
      simp
    unfold escape at ih ⊢
    rw [List.flatMap_cons, List.append_assoc]
    by_cases hspecial : b = backslash ∨ b = leftParen ∨ b = rightParen
    · have hplain : ¬ (cr = true ∧ b = lineFeed) ∧ b ≠ carriageReturn := by
        rcases hspecial with rfl | rfl | rfl
        · decide +revert
        · decide +revert
        · decide +revert
      have hslash : backslash ≠ lineFeed := by decide
      rw [if_pos hspecial, List.cons_append, List.singleton_append, scan,
        if_neg fun hc => hslash hc.2, if_pos rfl, scan,
        ih, eol, if_neg hplain.1, if_neg hplain.2, hnext]
    · obtain ⟨hslash, hleft, hright⟩ : b ≠ backslash ∧ b ≠ leftParen ∧ b ≠ rightParen := by
        refine ⟨fun hc => hspecial (.inl hc), fun hc => hspecial (.inr (.inl hc)),
          fun hc => hspecial (.inr (.inr hc))⟩
      rw [if_neg hspecial, List.singleton_append, scan, eol]
      by_cases hfeed : cr = true ∧ b = lineFeed
      · -- the second half of an end of line
        rw [if_pos hfeed, if_pos hfeed, ih]
      · rw [if_neg hfeed, if_neg hfeed, if_neg hslash, if_neg hleft, if_neg hright]
        by_cases hreturn : b = carriageReturn
        · rw [if_pos hreturn, if_pos hreturn, ih, hnext]
        · rw [if_neg hreturn, if_neg hreturn, ih, hnext]

/-! ## Ends of line -/

theorem eol_return (cr : Bool) (bs : List UInt8) : carriageReturn ∉ eol cr bs := by
  induction bs generalizing cr with
  | nil => exact List.not_mem_nil
  | cons b bs ih =>
    unfold eol
    split
    · exact ih false
    · split
      · rw [List.mem_cons, not_or]
        exact ⟨by decide, ih true⟩
      · rename_i hne
        rw [List.mem_cons, not_or]
        exact ⟨fun hc => hne hc.symm, ih false⟩

theorem eol_length (cr : Bool) (bs : List UInt8) : (eol cr bs).length ≤ bs.length := by
  induction bs generalizing cr with
  | nil => exact Nat.le_refl _
  | cons b bs ih =>
    have hfalse := ih false
    have htrue := ih true
    unfold eol
    split
    · rw [List.length_cons]
      omega
    · split
      · rw [List.length_cons, List.length_cons]
        omega
      · rw [List.length_cons, List.length_cons]
        omega

/-- A text without carriage returns is left alone, whatever comes behind it. -/
theorem eol_append {bs : List UInt8} (h : carriageReturn ∉ bs) (cs : List UInt8) :
    eol false (bs ++ cs) = bs ++ eol false cs := by
  induction bs with
  | nil => rfl
  | cons b bs ih =>
    rw [List.mem_cons, not_or] at h
    have hcr : ¬ (false = true ∧ b = lineFeed) := fun hc => Bool.false_ne_true hc.1
    rw [List.cons_append, eol, if_neg hcr, if_neg (Ne.symm h.1), ih h.2, List.cons_append]

/-! ## Operators -/

/-- A stretch of a content stream that shows these strings, whatever comes behind it. -/
def Shows (bs : List UInt8) (texts : List (List UInt8)) : Prop :=
  ∀ rest, scan .outside (bs ++ rest) = texts ++ scan .outside rest

theorem Shows.append {bs cs : List UInt8} {texts more : List (List UInt8)} (h : Shows bs texts)
    (h' : Shows cs more) :
    Shows (bs ++ cs) (texts ++ more) := by
  intro rest
  rw [List.append_assoc, h, h', List.append_assoc]

/-- Without parentheses nothing is shown. -/
theorem shows_nothing {bs : List UInt8} (h : leftParen ∉ bs) : Shows bs [] := by
  intro rest
  induction bs with
  | nil => rfl
  | cons b bs ih =>
    rw [List.mem_cons, not_or] at h
    rw [List.cons_append, scan, if_neg fun hc => h.1 hc.symm]
    exact ih h.2

/-- A string is shown. -/
theorem shows_literal (bs : List UInt8) {operator : List UInt8} (h : leftParen ∉ operator) :
    Shows (leftParen :: (escape bs ++ rightParen :: operator)) [eol false bs] := by
  intro rest
  rw [List.cons_append, List.append_assoc, List.cons_append, scan, if_pos rfl, scan_escape,
    shows_nothing h]
  rfl

theorem intercalate_map {α β : Type} (f : α → β) (sep : List α) (xs : List (List α)) :
    (sep.intercalate xs).map f = (sep.map f).intercalate (xs.map (·.map f)) := by
  induction xs with
  | nil => simp [List.intercalate]
  | cons x xs ih =>
    cases xs with
    | nil => simp [List.intercalate]
    | cons y ys =>
      have hmore : ∀ {γ : Type} (sep a b : List γ) (rest : List (List γ)),
          sep.intercalate (a :: b :: rest) = a ++ (sep ++ sep.intercalate (b :: rest)) := by
        simp [List.intercalate]
      rw [List.map_cons, List.map_cons, hmore, hmore, List.map_append, List.map_append, ih,
        List.map_cons]

/-- A reader of content streams, that reads nothing where there are no parentheses, and `f` of a
text that is escaped. -/
structure Reader (R : List UInt8 → List (List UInt8) → Prop)
    (f : List UInt8 → List UInt8) : Prop where
  append : ∀ {bs cs texts more}, R bs texts → R cs more → R (bs ++ cs) (texts ++ more)
  plain : ∀ {bs}, leftParen ∉ bs → rightParen ∉ bs → R bs []
  literal : ∀ bs {operator}, leftParen ∉ operator → rightParen ∉ operator →
    R (leftParen :: (escape bs ++ rightParen :: operator)) [f bs]

/-- Commands on lines of their own. -/
theorem Reader.intercalate {R : List UInt8 → List (List UInt8) → Prop} {f : List UInt8 → List UInt8}
    (h : Reader R f) {sep : List UInt8} (hleft : leftParen ∉ sep) (hright : rightParen ∉ sep)
    {cmds : List (List UInt8)} {texts : List (List (List UInt8))}
    (hcmds : List.Forall₂ R cmds texts) : R (sep.intercalate cmds) texts.flatten := by
  induction hcmds with
  | nil => exact h.plain List.not_mem_nil List.not_mem_nil
  | @cons cmd text cmds texts hcmd hrest ih =>
    cases cmds with
    | nil =>
      cases hrest
      have hone : sep.intercalate [cmd] = cmd := by simp [List.intercalate]
      rw [hone, List.flatten_cons, List.flatten_nil, List.append_nil]
      exact hcmd
    | cons cmd' cmds =>
      have hmore : sep.intercalate (cmd :: cmd' :: cmds)
          = cmd ++ (sep ++ sep.intercalate (cmd' :: cmds)) := by
        simp [List.intercalate]
      rw [hmore, List.flatten_cons]
      exact h.append hcmd (h.append (h.plain hleft hright) ih)

theorem shows_reader : Reader Shows (eol false) where
  append := Shows.append
  plain hleft _ := shows_nothing hleft
  literal bs _ hleft _ := shows_literal bs hleft

/-! ## Literal strings that are closed -/

/-- Where a reader stands that takes escaped parentheses only. -/
inductive Place where
  | outside
  | literal (text : List UInt8)
  | escaped (text : List UInt8)

/--
The literal strings of a content stream, when each is closed by the next parenthesis that is not
behind a backslash, that parenthesis is a right one, and a backslash stands before a backslash or a
parenthesis only.
-/
def literals : Place → List UInt8 → Option (List (List UInt8))
  | .outside, [] => some []
  | _, [] => none
  | .outside, b :: bs =>
    if b = leftParen then literals (.literal []) bs
    else if b = rightParen then none
    else literals .outside bs
  | .literal text, b :: bs =>
    if b = backslash then literals (.escaped text) bs
    else if b = leftParen then none
    else if b = rightParen then (text :: ·) <$> literals .outside bs
    else literals (.literal (text ++ [b])) bs
  | .escaped text, b :: bs =>
    if b = backslash ∨ b = leftParen ∨ b = rightParen then
      literals (.literal (text ++ [b])) bs else none

attribute [local simp] literals

/-- An escaped text is read to its own parenthesis. -/
theorem literals_escape (bs text rest : List UInt8) :
    literals (.literal text) (escape bs ++ rightParen :: rest)
      = ((text ++ bs) :: ·) <$> literals .outside rest := by
  induction bs generalizing text with
  | nil =>
    have hend : rightParen ≠ backslash ∧ rightParen ≠ leftParen := by decide
    show literals (.literal text) (rightParen :: rest) = _
    rw [literals, if_neg hend.1, if_neg hend.2, if_pos rfl, List.append_nil]
  | cons b bs ih =>
    have hnext : text ++ b :: bs = text ++ [b] ++ bs := by simp
    unfold escape at ih ⊢
    rw [List.flatMap_cons, List.append_assoc, hnext]
    by_cases hspecial : b = backslash ∨ b = leftParen ∨ b = rightParen
    · rw [if_pos hspecial, List.cons_append, List.singleton_append, literals, if_pos rfl, literals,
        if_pos hspecial, ih]
    · obtain ⟨hslash, hleft, hright⟩ : b ≠ backslash ∧ b ≠ leftParen ∧ b ≠ rightParen :=
        ⟨fun hc => hspecial (.inl hc), fun hc => hspecial (.inr (.inl hc)),
          fun hc => hspecial (.inr (.inr hc))⟩
      rw [if_neg hspecial, List.singleton_append, literals, if_neg hslash, if_neg hleft,
        if_neg hright, ih]

/-- A stretch of a content stream with these strings, whatever comes behind it. -/
def Closed (bs : List UInt8) (texts : List (List UInt8)) : Prop :=
  ∀ rest, literals .outside (bs ++ rest) = (texts ++ ·) <$> literals .outside rest

theorem Closed.append {bs cs : List UInt8} {texts more : List (List UInt8)} (h : Closed bs texts)
    (h' : Closed cs more) :
    Closed (bs ++ cs) (texts ++ more) := by
  intro rest
  rw [List.append_assoc, h, h']
  cases literals .outside rest with
  | none => rfl
  | some strings => exact congrArg some (List.append_assoc ..).symm

theorem closed_nothing {bs : List UInt8} (hleft : leftParen ∉ bs)
    (hright : rightParen ∉ bs) : Closed bs [] := by
  intro rest
  have hnothing : (([] : List (List UInt8)) ++ ·) <$> literals .outside rest
      = literals .outside rest := by
    cases literals .outside rest with
    | none => rfl
    | some strings => rfl
  rw [hnothing]
  induction bs with
  | nil => rfl
  | cons b bs ih =>
    rw [List.mem_cons, not_or] at hleft hright
    rw [List.cons_append, literals, if_neg fun hc => hleft.1 hc.symm,
      if_neg fun hc => hright.1 hc.symm]
    exact ih hleft.2 hright.2

theorem closed_reader : Reader Closed id where
  append := Closed.append
  plain := closed_nothing
  literal bs operator hleft hright := by
    intro rest
    rw [List.cons_append, List.append_assoc, List.cons_append, literals, if_pos rfl,
      literals_escape, closed_nothing hleft hright]
    cases literals .outside rest with
    | none => rfl
    | some strings => rfl

/-- A whole content stream. -/
theorem Closed.literals {bs : List UInt8} {texts : List (List UInt8)} (h : Closed bs texts) :
    PdfText.literals .outside bs = some texts := by
  have hall := h []
  rw [List.append_nil] at hall
  rw [hall]
  exact congrArg some (List.append_nil _)

/-! ## The stream of a page -/

/-- What comes behind the first place of a mark. -/
def after? (mark : List UInt8) : List UInt8 → Option (List UInt8)
  | [] => if mark = [] then some [] else none
  | b :: bs =>
      if mark.isPrefixOf (b :: bs) then some ((b :: bs).drop mark.length) else after? mark bs

/-- `s.encode()` of a text within ASCII. -/
def ascii (s : String) : List UInt8 := s.toList.map fun c => UInt8.ofNat c.toNat

def isDigit (b : UInt8) : Bool := 48 ≤ b && b ≤ 57

/-- The number that digits spell. -/
def number (digits : List UInt8) : Nat :=
  Nat.ofDigitChars 10 (digits.map fun b => Char.ofNat b.toNat) 0

/-- The content stream of a document with one. -/
def contentStream (pdf : List UInt8) : Option (List UInt8) := do
  let rest ← after? (ascii "/Length ") pdf
  let stream ← after? (ascii ">>stream\n") rest
  some (stream.take (number (rest.takeWhile isDigit)))

/-- The strings that a document with one page shows. -/
def shown (pdf : List UInt8) : Option (List (List UInt8)) := (contentStream pdf).map (scan .outside)

theorem after?_append {mark before : List UInt8}
    (h : ∀ k < before.length, ¬ mark <+: (before ++ mark).drop k) (rest : List UInt8) :
    after? mark (before ++ (mark ++ rest)) = some rest := by
  induction before with
  | nil =>
    rw [List.nil_append]
    cases hmark : mark with
    | nil =>
      cases rest with
      | nil => rfl
      | cons b rest => rfl
    | cons b bs =>
      have hbegins : (b :: bs).isPrefixOf (b :: (bs ++ rest)) = true :=
        List.isPrefixOf_iff_prefix.2 ⟨rest, rfl⟩
      rw [List.cons_append, after?, if_pos hbegins]
      exact congrArg some List.drop_left
  | cons b before ih =>
    have hnot : ¬ mark <+: b :: (before ++ (mark ++ rest)) := by
      intro hbegins
      -- it would be a prefix of the text up to the mark
      have hshort : b :: (before ++ mark) <+: b :: (before ++ (mark ++ rest)) := ⟨rest, by simp⟩
      have hlength : mark.length ≤ (b :: (before ++ mark)).length := by
        simp only [List.length_cons, List.length_append]
        omega
      exact h 0 (Nat.succ_pos _) (List.prefix_of_prefix_length_le hbegins hshort hlength)
    rw [List.cons_append, after?, if_neg fun hc => hnot (List.isPrefixOf_iff_prefix.1 hc)]
    refine ih fun k hk hbegins => h (k + 1) (Nat.succ_lt_succ hk) ?_
    rw [List.cons_append, List.drop_succ_cons]
    exact hbegins

/-- A mark that begins with a byte that does not stand before it. -/
theorem after?_first {b : UInt8} {mark before : List UInt8} (h : b ∉ before) (rest : List UInt8) :
    after? (b :: mark) (before ++ (b :: mark ++ rest)) = some rest := by
  refine after?_append (fun k hk hbegins => h ?_) rest
  have hdrop : (before ++ b :: mark).drop k = before[k] :: (before.drop (k + 1) ++ b :: mark) := by
    rw [List.drop_append_of_le_length (by omega), List.drop_eq_getElem_cons hk, List.cons_append]
  rw [hdrop, List.cons_prefix_cons] at hbegins
  rw [hbegins.1]
  exact List.getElem_mem hk

/-- And one whose second byte does not. -/
theorem after?_second {a b : UInt8} {mark before : List UInt8} (hne : b ≠ a) (h : b ∉ before)
    (rest : List UInt8) :
    after? (a :: b :: mark) (before ++ (a :: b :: mark ++ rest)) = some rest := by
  refine after?_append (fun k hk hbegins => ?_) rest
  have hdrop : (before ++ a :: b :: mark).drop k
      = before[k] :: (before.drop (k + 1) ++ a :: b :: mark) := by
    rw [List.drop_append_of_le_length (by omega), List.drop_eq_getElem_cons hk, List.cons_append]
  rw [hdrop, List.cons_prefix_cons] at hbegins
  have hsecond := hbegins.2
  cases hrest : before.drop (k + 1) with
  | nil =>
    rw [hrest, List.nil_append, List.cons_prefix_cons] at hsecond
    exact hne hsecond.1
  | cons c more =>
    rw [hrest, List.cons_append, List.cons_prefix_cons] at hsecond
    refine h (List.mem_of_mem_drop (i := k + 1) ?_)
    rw [hrest, hsecond.1]
    exact List.mem_cons_self

/-- A digit is read as the number it is. -/
theorem digit_ascii {c : Char} (hc : c.isDigit = true) : isDigit (UInt8.ofNat c.toNat) = true
    ∧ Char.ofNat (UInt8.ofNat c.toNat).toNat = c := by
  have hrange : 48 ≤ c.toNat ∧ c.toNat ≤ 57 := Char.isDigit_iff_toNat.1 hc
  have hbyte : (UInt8.ofNat c.toNat).toNat = c.toNat := by
    rw [UInt8.toNat_ofNat']
    omega
  refine ⟨?_, by rw [hbyte, Char.ofNat_toNat]⟩
  unfold isDigit
  rw [Bool.and_eq_true, decide_eq_true_eq, decide_eq_true_eq, UInt8.le_iff_toNat_le,
    UInt8.le_iff_toNat_le, hbyte]
  exact hrange

/-- Digits are read as the number they spell, -/
theorem number_digits {cs : List Char} (h : ∀ c ∈ cs, c.isDigit = true) :
    number (cs.map fun c => UInt8.ofNat c.toNat) = Nat.ofDigitChars 10 cs 0 := by
  unfold number
  rw [List.map_map]
  congr 1
  exact (List.map_congr_left fun c hc => (digit_ascii (h c hc)).2).trans (List.map_id _)

/-- and a number as it was written. -/
theorem number_ascii (n : Nat) : number (ascii (toString n)) = n := by
  have hdigits : (toString n).toList = Nat.toDigits 10 n := by
    rw [Nat.toString_eq_ofList_toDigits, String.toList_ofList]
  unfold ascii
  rw [number_digits fun c hc => isDigit_of_mem_toString hc, hdigits, Nat.ofDigitChars_ten_toDigits]

theorem isDigit_ascii {n : Nat} {b : UInt8} (h : b ∈ ascii (toString n)) : isDigit b = true := by
  obtain ⟨c, hc, rfl⟩ := List.mem_map.1 h
  exact (digit_ascii (isDigit_of_mem_toString hc)).1

/-- The length is looked for behind bytes without the capital letter of its name. -/
theorem after?_length {before : List UInt8} (h : UInt8.ofNat 'L'.toNat ∉ before)
    (rest : List UInt8) :
    after? (ascii "/Length ") (before ++ (ascii "/Length " ++ rest)) = some rest := by
  have hlength : ascii "/Length " = 47 :: UInt8.ofNat 'L'.toNat :: ascii "ength " := by decide
  rw [hlength]
  exact after?_second (by decide) h rest

/-- A stream is found by its length, behind bytes without the capital letter of the name. -/
theorem contentStream_eq {before stream rest : List UInt8} (h : UInt8.ofNat 'L'.toNat ∉ before) :
    contentStream (before ++ (ascii "/Length " ++ (ascii (toString stream.length)
      ++ (ascii " " ++ (ascii ">>stream\n" ++ (stream ++ rest)))))) = some stream := by
  have hmark : ascii ">>stream\n" = 62 :: ascii ">stream\n" := by decide
  have hspace : ascii " " = [32] := by decide
  have hbefore : (62 : UInt8) ∉ ascii (toString stream.length) ++ ascii " " := by
    intro hc
    rcases List.mem_append.1 hc with hc | hc
    · have hdigit := isDigit_ascii hc
      revert hdigit
      decide
    · rw [hspace] at hc
      revert hc
      decide
  have hstream : after? (62 :: ascii ">stream\n") ((ascii (toString stream.length) ++ ascii " ")
      ++ (62 :: ascii ">stream\n" ++ (stream ++ rest))) = some (stream ++ rest) :=
        after?_first hbefore _
  rw [← hmark, List.append_assoc] at hstream
  have hdigits : (ascii (toString stream.length)
    ++ (ascii " " ++ (ascii ">>stream\n" ++ (stream ++ rest)))).takeWhile
      isDigit = ascii (toString stream.length) := by
    rw [List.takeWhile_append_of_pos fun b hb => isDigit_ascii hb, hspace, List.singleton_append,
      List.takeWhile_cons_of_neg (by decide), List.append_nil]
  unfold contentStream
  rw [after?_length h]
  show (after? _ _ >>= _) = _
  rw [hstream]
  show some (List.take (number _) _) = _
  rw [hdigits, number_ascii, List.take_left]

end Roamkit.Lib.PdfText
