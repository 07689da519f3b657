import Roamkit.Lib.PdfText

/-!
# The tables of a PDF

A reader starts at the end of a document, where the place of its cross-reference table
is written, finds in the table where each object begins, and takes as many bytes of a
stream as its length says.
-/

namespace Roamkit.Lib.PdfText

/-! ## Numbers and marks -/

theorem dropPrefix?_append (mark rest : List UInt8) : (mark ++ rest).dropPrefix? mark = some rest :=
  List.dropPrefix?_eq_some_iff.2 ⟨mark, rfl, beq_self_eq_true mark⟩

/-- A number, and what comes behind it. -/
def readNumber (bs : List UInt8) : Nat × List UInt8 :=
  (number (bs.takeWhile isDigit), bs.dropWhile isDigit)

/-- The digits of a number end at the first byte that is none. -/
theorem readNumber_append (n : Nat) {b : UInt8} (hb : isDigit b = false) (rest : List UInt8) :
    readNumber (ascii (toString n) ++ b :: rest) = (n, b :: rest) := by
  have hdigits : ∀ d ∈ ascii (toString n), isDigit d = true := fun d hd => isDigit_ascii hd
  have hb : ¬ isDigit b = true := by
    rw [hb]
    exact Bool.false_ne_true
  unfold readNumber
  rw [List.takeWhile_append_of_pos hdigits, List.dropWhile_append_of_pos hdigits,
    List.takeWhile_cons_of_neg hb, List.dropWhile_cons_of_neg hb, List.append_nil, number_ascii]

/-! ## The cross-reference table -/

/-- The place of the table, as it is written at the end of a document. -/
def startxref? (pdf : List UInt8) : Option Nat := do
  let back ← pdf.reverse.dropPrefix? (ascii "\n%%EOF\n").reverse
  let _ ← (back.dropWhile isDigit).dropPrefix? (ascii "startxref\n").reverse
  some (number (back.takeWhile isDigit).reverse)

theorem startxref?_append (before : List UInt8) (n : Nat) :
    startxref? (before ++ (ascii "startxref\n" ++ (ascii (toString n) ++ ascii "\n%%EOF\n")))
      = some n := by
  have hback :
    (before ++ (ascii "startxref\n" ++ (ascii (toString n) ++ ascii "\n%%EOF\n"))).reverse
      = (ascii "\n%%EOF\n").reverse ++ ((ascii (toString n)).reverse
        ++ ((ascii "startxref\n").reverse ++ before.reverse)) := by
    simp only [List.reverse_append, List.append_assoc]
  have hdigits : ∀ d ∈ (ascii (toString n)).reverse, isDigit d = true :=
    fun d hd => isDigit_ascii (List.mem_reverse.1 hd)
  obtain ⟨rest, hrest⟩ : ∃ rest, (ascii "startxref\n").reverse ++ before.reverse
      = lineFeed :: rest :=
    ⟨_, rfl⟩
  have hfeed : ¬ isDigit lineFeed = true := by decide
  have hdrop : ((ascii (toString n)).reverse
    ++ ((ascii "startxref\n").reverse ++ before.reverse)).dropWhile isDigit
      = (ascii "startxref\n").reverse ++ before.reverse := by
    rw [List.dropWhile_append_of_pos hdigits, hrest, List.dropWhile_cons_of_neg hfeed]
  have htake : ((ascii (toString n)).reverse
    ++ ((ascii "startxref\n").reverse ++ before.reverse)).takeWhile isDigit
      = (ascii (toString n)).reverse := by
    rw [List.takeWhile_append_of_pos hdigits, hrest, List.takeWhile_cons_of_neg hfeed,
      List.append_nil]
  unfold startxref?
  simp only [hback, dropPrefix?_append, hdrop, htake, List.reverse_reverse, number_ascii, bind,
    Option.bind]

/-- An entry of twenty bytes: the place of an object in ten digits, its generation in five, and
whether it is in use. -/
structure XrefEntry where
  place : Nat
  generation : Nat
  inUse : Bool
deriving DecidableEq

def readEntry? (bs : List UInt8) : Option XrefEntry := do
  let place := bs.take 10
  let generation := (bs.drop 11).take 5
  let rest := bs.drop 16
  if ¬ place.all isDigit ∨ ¬ generation.all isDigit ∨ bs[10]? ≠ some 32 then none
  else if rest = ascii " n \n" then some ⟨number place, number generation, true⟩
  else if rest = ascii " f \n" then some ⟨number place, number generation, false⟩
  else none

/-- The entry of an object at a place that ten digits can write. -/
theorem readEntry?_inUse {n : Nat} (h : n < 10 ^ 10) :
    let written := ascii (String.ofList ((Nat.toDigits 10 n).leftpad 10 '0') ++ " 00000 n \n")
    written.length = 20 ∧ readEntry? written = some ⟨n, 0, true⟩ := by
  have hlength : ((Nat.toDigits 10 n).leftpad 10 '0').length = 10 := by
    have hle := (Nat.length_toDigits_le_iff (by omega) (by omega)).2 h
    rw [List.length_leftpad]
    omega
  have hdigits : ∀ c ∈ (Nat.toDigits 10 n).leftpad 10 '0', c.isDigit = true :=
    fun c hc => Dec.isDigit_of_mem_leftpad hc
  have hnumber := number_digits hdigits
  rw [Dec.ofDigitChars_leftpad] at hnumber
  generalize hplace : ((Nat.toDigits 10 n).leftpad 10 '0').map (fun c => UInt8.ofNat c.toNat)
    = place at hnumber
  have hten : place.length = 10 := by rw [← hplace, List.length_map, hlength]
  have hall : place.all isDigit = true := by
    rw [← hplace, List.all_map, List.all_eq_true]
    exact fun c hc => (digit_ascii (hdigits c hc)).1
  have hwritten : ascii (String.ofList ((Nat.toDigits 10 n).leftpad 10 '0') ++ " 00000 n \n")
      = place ++ ascii " 00000 n \n" := by
    unfold ascii
    rw [String.toList_append, String.toList_ofList, List.map_append, hplace]
  have htail : (ascii " 00000 n \n").length = 10 := by decide
  dsimp only
  rw [hwritten]
  refine ⟨by rw [List.length_append, hten, htail], ?_⟩
  have htake : (place ++ ascii " 00000 n \n").take 10 = place := by rw [← hten, List.take_left]
  have hdrop : ∀ k, (place ++ ascii " 00000 n \n").drop (10 + k)
      = (ascii " 00000 n \n").drop k := by
    intro k
    rw [← hten, List.drop_length_add_append]
  have hspace : (place ++ ascii " 00000 n \n")[10]? = some 32 := by
    rw [List.getElem?_append_right (Nat.le_of_eq hten), hten]
    decide
  unfold readEntry?
  simp only [htake, hdrop 1, hdrop 6, hspace, hall, hnumber]
  rfl

/-- So many entries. -/
def readEntries? : Nat → List UInt8 → Option (List XrefEntry)
  | 0, _ => some []
  | n + 1, bs => do
    let entry ← readEntry? (bs.take 20)
    let entries ← readEntries? n (bs.drop 20)
    some (entry :: entries)

/-- A table that begins with entry zero. -/
def readXref? (bs : List UInt8) : Option (List XrefEntry) := do
  let rest ← bs.dropPrefix? (ascii "xref\n0 ")
  let entries ← (readNumber rest).2.dropPrefix? (ascii "\n")
  readEntries? (readNumber rest).1 entries

theorem readEntries?_append {written : List (List UInt8)} {entries : List XrefEntry}
    (h : List.Forall₂ (fun bs entry => bs.length = 20 ∧ readEntry? bs = some entry) written entries)
    (rest : List UInt8) : readEntries? written.length (written.flatten ++ rest) = some entries := by
  induction h with
  | nil => rfl
  | @cons bs entry written entries hbs _ ih =>
    have htake : (bs ++ (written.flatten ++ rest)).take 20 = bs := by rw [← hbs.1, List.take_left]
    have hdrop : (bs ++ (written.flatten ++ rest)).drop 20 = written.flatten ++ rest := by
      rw [← hbs.1, List.drop_left]
    rw [List.flatten_cons, List.append_assoc, List.length_cons, readEntries?, htake,
      hdrop, hbs.2, ih]
    rfl

theorem readXref?_append {written : List (List UInt8)} {entries : List XrefEntry}
    (h : List.Forall₂ (fun bs entry => bs.length = 20 ∧ readEntry? bs = some entry) written entries)
    (rest : List UInt8) :
    readXref? (ascii "xref\n0 " ++ (ascii (toString written.length) ++ (ascii "\n"
      ++ (written.flatten ++ rest)))) = some entries := by
  have hfeed : ascii "\n" = [lineFeed] := by decide
  have hnumber : readNumber
    (ascii (toString written.length) ++ (ascii "\n" ++ (written.flatten ++ rest)))
      = (written.length, ascii "\n" ++ (written.flatten ++ rest)) := by
    rw [hfeed, List.singleton_append]
    exact readNumber_append _ (by decide) _
  unfold readXref?
  rw [dropPrefix?_append]
  show ((readNumber _).2.dropPrefix? (ascii "\n") >>= _) = _
  rw [hnumber, dropPrefix?_append]
  exact readEntries?_append h rest

/-- The number of an object that begins here. -/
def objectNumber? (bs : List UInt8) : Option Nat := do
  let _ ← (readNumber bs).2.dropPrefix? (ascii " 0 obj")
  some (readNumber bs).1

theorem objectNumber?_append (n : Nat) (rest : List UInt8) :
    objectNumber? (ascii (toString n) ++ (ascii " 0 obj" ++ rest)) = some n := by
  have hspace : ascii " 0 obj" = 32 :: ascii "0 obj" := by decide
  have hnumber : readNumber (ascii (toString n) ++ (ascii " 0 obj" ++ rest))
      = (n, ascii " 0 obj" ++ rest) := by
    rw [hspace, List.cons_append]
    exact readNumber_append _ (by decide) _
  unfold objectNumber?
  simp only [hnumber, dropPrefix?_append, bind, Option.bind]

/-! ## Streams -/

/-- The stream of an object, which is followed by its end mark. -/
def readStream? (bs : List UInt8) : Option (List UInt8) := do
  let rest ← after? (ascii "/Length ") bs
  let body ← (readNumber rest).2.dropPrefix? (ascii " >>stream\n")
  let _ ← (body.drop (readNumber rest).1).dropPrefix? (ascii "\nendstream\n")
  some (body.take (readNumber rest).1)

/-- A stream is read behind bytes without the capital letter of its length. -/
theorem readStream?_append {before stream : List UInt8} (h : UInt8.ofNat 'L'.toNat ∉ before)
    (rest : List UInt8) :
    readStream?
      (before ++ (ascii "/Length " ++ (ascii (toString stream.length) ++ (ascii " >>stream\n"
      ++ (stream ++ (ascii "\nendstream\n" ++ rest)))))) = some stream := by
  have hspace : ascii " >>stream\n" = 32 :: ascii ">>stream\n" := by decide
  have hnumber : ∀ more, readNumber
    (ascii (toString stream.length) ++ (ascii " >>stream\n" ++ more))
      = (stream.length, ascii " >>stream\n" ++ more) := by
    intro more
    rw [hspace, List.cons_append]
    exact readNumber_append _ (by decide) _
  unfold readStream?
  simp only [after?_length h, hnumber, dropPrefix?_append, List.drop_left, List.take_left, bind,
    Option.bind]

end Roamkit.Lib.PdfText
