import Mathlib.Tactic.Common

/-!
# CSV texts

What `csv.writer` writes in its default dialect, and what is read of such a text. A field
is put in quotes when it has a comma, a quote or an end of line in it; a quote in it is
doubled. What was written is read back as it was, whatever the fields are.
-/

namespace Roamkit.Lib.Csv

/-! ## Writing -/

variable (field : List Char) {c : Char}

/-- Whether a field is put in quotes. -/
def needsQuotes : Bool := field.any fun c => c = ',' || c = '"' || c = '\r' || c = '\n'

/-- A character between quotes. -/
def escape (c : Char) : List Char := if c = '"' then ['"', '"'] else [c]

def writeField : List Char :=
  if needsQuotes field then '"' :: (field.flatMap escape ++ ['"']) else field

/-- The fields of a row behind a comma each. -/
def writeMore (fields : List (List Char)) : List Char :=
  fields.flatMap fun field => ',' :: writeField field

/-- `writer.writerow(fields)`; an empty text that is all of a row is put in quotes too. -/
def writeRow : List (List Char) → List Char
  | [] => ['\r', '\n']
  | [[]] => ['"', '"', '\r', '\n']
  | field :: fields => writeField field ++ writeMore fields ++ ['\r', '\n']

def writeRows (rows : List (List (List Char))) : List Char := rows.flatMap writeRow

/-! ## Reading -/

/-- Where the reader stands. -/
inductive Mode where
  /-- At the beginning of a row. -/
  | startRow
  /-- Behind a comma. -/
  | startField
  /-- In a field without quotes. -/
  | plain
  /-- Between quotes. -/
  | quoted
  /-- Behind a quote that may be the first of two. -/
  | quote
  /-- Behind a carriage return. -/
  | afterCr
deriving DecidableEq

/-- What is read of a row, and of the field the reader is in. -/
structure Reader where
  mode : Mode
  row : List (List Char)
  field : List Char

/-- The reader at the beginning of a text. -/
def start : Reader := ⟨.startRow, [], []⟩

variable (r : Reader)

/-- The row that ends here: a line with nothing on it is a row without fields. -/
def Reader.ended : List (List Char) := if r.mode = .startRow then [] else r.row ++ [r.field]

/-- A character that does not stand between quotes. -/
def Reader.stepOpen (c : Char) : Reader × List (List (List Char)) :=
  if c = ',' then (⟨.startField, r.row ++ [r.field], []⟩, [])
  else if c = '\r' then (⟨.afterCr, [], []⟩, [r.ended])
  else if c = '\n' then (start, [r.ended])
  else if c = '"' ∧ r.mode ≠ .plain then (⟨.quoted, r.row, r.field⟩, [])
  else (⟨.plain, r.row, r.field ++ [c]⟩, [])

/-- One character, and the row that ends with it. -/
def Reader.step (c : Char) : Reader × List (List (List Char)) :=
  match r.mode with
  | .quoted =>
      if c = '"' then ({ r with mode := .quote }, []) else ({ r with field := r.field ++ [c] }, [])
  | .quote => if c = '"' then ({ r with mode := .quoted, field := r.field ++ [c] }, [])
      else { r with mode := .plain }.stepOpen c
  | .afterCr => if c = '\n' then (start, []) else start.stepOpen c
  | _ => r.stepOpen c

/-- The rows of a text. -/
def Reader.read (r : Reader) : List Char → List (List (List Char))
  | [] => match r.mode with
      | .startRow => []
      | .afterCr => []
      | _ => [r.row ++ [r.field]]
  | c :: cs => (r.step c).2 ++ (r.step c).1.read cs

/-- What is read of a text. -/
def parse (text : List Char) : List (List (List Char)) := start.read text

example : parse "a,\"b\"\"c\"\r\n\"\"\r\n".toList = [["a".toList, "b\"c".toList], [[]]] := by decide

/-! ## What was written is read -/

variable {row : List (List Char)}

theorem read_cons (c : Char) (cs : List Char) :
    r.read (c :: cs) = (r.step c).2 ++ (r.step c).1.read cs := rfl

/-- What ends a field. -/
def Ends (c : Char) : Prop := c = ',' ∨ c = '\r'

/-- The reader behind a whole field, at what ends it. -/
def Reader.atEnd (row : List (List Char)) (field : List Char) (c : Char) (rest : List Char) :
    List (List (List Char)) :=
  if c = ',' then (Reader.mk .startField (row ++ [field]) []).read rest
  else (row ++ [field]) :: (Reader.mk .afterCr [] []).read rest

theorem stepOpen_ends {mode : Mode} (hmode : mode ≠ .startRow) {field : List Char} (hc : Ends c)
    (rest : List Char) :
    ((Reader.mk mode row field).stepOpen c).2 ++ ((Reader.mk mode row field).stepOpen c).1.read rest
      = Reader.atEnd row field c rest := by
  unfold Reader.stepOpen Reader.atEnd
  rcases hc with rfl | rfl
  · rw [if_pos rfl, if_pos rfl]
    rfl
  · have hcomma : '\r' ≠ ',' := by decide
    rw [if_neg hcomma, if_pos rfl, if_neg hcomma]
    unfold Reader.ended
    rw [if_neg hmode]
    rfl

theorem plain_ne : Mode.plain ≠ .startRow := by decide

/-- A field without quotes, from its second character on. -/
theorem read_plain {field : List Char} (h : needsQuotes field = false) (read : List Char)
    (hc : Ends c) (rest : List Char) :
    (Reader.mk .plain row read).read (field ++ c :: rest)
      = Reader.atEnd row (read ++ field) c rest := by
  induction field generalizing read with
  | nil =>
    rw [List.nil_append, List.append_nil, read_cons]
    exact stepOpen_ends plain_ne hc rest
  | cons d field ih =>
    unfold needsQuotes at h
    rw [List.any_cons, Bool.or_eq_false_iff] at h
    obtain ⟨hd, hfield⟩ := h
    have hstep : (Reader.mk .plain row read).step d = (⟨.plain, row, read ++ [d]⟩, []) := by
      show (Reader.mk .plain row read).stepOpen d = _
      simp_all [Reader.stepOpen]
    have ih := ih hfield (read ++ [d])
    rw [List.append_assoc, List.singleton_append] at ih
    rw [List.cons_append, read_cons, hstep, List.nil_append, ih]

/-- A field between quotes. -/
theorem read_quoted (field read : List Char) (hc : Ends c) (rest : List Char) :
    (Reader.mk .quoted row read).read (field.flatMap escape ++ '"' :: c :: rest)
      = Reader.atEnd row (read ++ field) c rest := by
  induction field generalizing read with
  | nil =>
    rw [List.flatMap_nil, List.nil_append, List.append_nil, read_cons, read_cons]
    have hquote : (Reader.mk .quoted row read).step '"' = (⟨.quote, row, read⟩, []) := rfl
    have hne : c ≠ '"' := by
      rcases hc with rfl | rfl
      · decide
      · decide
    have hstep : (Reader.mk .quote row read).step c = (Reader.mk .plain row read).stepOpen c :=
      if_neg hne
    rw [hquote, List.nil_append, hstep]
    exact stepOpen_ends plain_ne hc rest
  | cons d field ih =>
    have ih := ih (read ++ [d])
    rw [List.append_assoc, List.singleton_append] at ih
    rw [List.flatMap_cons, List.append_assoc]
    by_cases hd : d = '"'
    · -- a quote is written twice
      rw [hd] at ih ⊢
      have hescape : escape '"' = ['"', '"'] := rfl
      have hfirst : (Reader.mk .quoted row read).step '"' = (⟨.quote, row, read⟩, []) := rfl
      have hsecond : (Reader.mk .quote row read).step '"' = (⟨.quoted, row, read ++ ['"']⟩, []) :=
        rfl
      rw [hescape, List.cons_append, List.singleton_append, read_cons, hfirst, List.nil_append,
        read_cons, hsecond, List.nil_append, ih]
    · have hescape : escape d = [d] := if_neg hd
      have hstep : (Reader.mk .quoted row read).step d = (⟨.quoted, row, read ++ [d]⟩, []) :=
        if_neg hd
      rw [hescape, List.singleton_append, read_cons, hstep, List.nil_append, ih]

/-- A field at the beginning of a row or behind a comma, unless it is a row that is written as
nothing. -/
theorem read_field (row : List (List Char)) (field : List Char) {mode : Mode}
    (hmode : mode = .startRow ∨ mode = .startField) (hc : Ends c)
    (hrow : mode = .startRow → field = [] → c = ',') (rest : List Char) :
    (Reader.mk mode row []).read (writeField field ++ c :: rest)
      = Reader.atEnd row field c rest := by
  have hopen : ∀ d, (Reader.mk mode row []).step d = (Reader.mk mode row []).stepOpen d := by
    intro d
    rcases hmode with rfl | rfl
    · rfl
    · rfl
  have hnot : mode ≠ .plain := by
    rcases hmode with rfl | rfl
    · exact fun hc => nomatch hc
    · exact fun hc => nomatch hc
  unfold writeField
  by_cases hquotes : needsQuotes field = true
  · have hstep : (Reader.mk mode row []).step '"' = (⟨.quoted, row, []⟩, []) := by
      rw [hopen]
      simp [Reader.stepOpen, hnot]
    rw [if_pos hquotes, List.cons_append, List.append_assoc, List.singleton_append, read_cons,
      hstep, List.nil_append, read_quoted field [] hc, List.nil_append]
  · rw [if_neg hquotes]
    cases field with
    | nil =>
      rw [List.nil_append, read_cons, hopen]
      by_cases hstart : mode = .startRow
      · obtain rfl := hrow hstart rfl
        rfl
      · exact stepOpen_ends hstart hc rest
    | cons d field =>
      have hplain : needsQuotes (d :: field) = false := (Bool.not_eq_true _).mp hquotes
      unfold needsQuotes at hplain
      rw [List.any_cons, Bool.or_eq_false_iff] at hplain
      obtain ⟨hd, hfield⟩ := hplain
      have hstep : (Reader.mk mode row []).step d = (⟨.plain, row, [d]⟩, []) := by
        rw [hopen]
        simp_all [Reader.stepOpen]
      rw [List.cons_append, read_cons, hstep, List.nil_append, read_plain hfield [d] hc,
        List.singleton_append]

/-- The rest of a row, behind one of its fields. -/
theorem read_more (fields : List (List Char)) (rest : List Char) :
    (Reader.mk .startField row []).read
      (writeField field ++ writeMore fields ++ '\r' :: '\n' :: rest)
      = (row ++ field :: fields) :: start.read rest := by
  induction fields generalizing row field with
  | nil =>
    have hread := read_field row field (.inr rfl) (.inr rfl) (fun hc => nomatch hc) ('\n' :: rest)
    rw [writeMore, List.flatMap_nil, List.append_nil, hread]
    rfl
  | cons field' fields ih =>
    have hread := read_field row field (.inr rfl) (.inl rfl) (fun hc => nomatch hc)
      (writeField field' ++ writeMore fields ++ '\r' :: '\n' :: rest)
    have htext : writeField field ++ writeMore (field' :: fields) ++ '\r' :: '\n' :: rest
        = writeField field ++ ','
          :: (writeField field' ++ writeMore fields ++ '\r' :: '\n' :: rest) := by
      simp [writeMore]
    have hrow : row ++ [field] ++ field' :: fields = row ++ field :: field' :: fields := by simp
    rw [htext, hread, ← hrow]
    exact ih field'

theorem read_row (fields : List (List Char)) (rest : List Char) :
    start.read (writeRow fields ++ rest) = fields :: start.read rest := by
  unfold writeRow
  split
  · rfl
  · rfl
  · rename_i field fields hone
    rw [List.append_assoc]
    show start.read (_ ++ '\r' :: '\n' :: rest) = _
    cases fields with
    | nil =>
      have hne : field ≠ [] := fun hc => hone hc rfl
      have hread := read_field [] field (.inl rfl) (.inr rfl)
        (fun _ hc => absurd hc hne) ('\n' :: rest)
      rw [writeMore, List.flatMap_nil, List.append_nil]
      exact hread
    | cons field' fields =>
      have hread := read_field [] field (.inl rfl) (.inl rfl) (fun _ _ => rfl)
        (writeField field' ++ writeMore fields ++ '\r' :: '\n' :: rest)
      have htext : writeField field ++ writeMore (field' :: fields) ++ '\r' :: '\n' :: rest
          = writeField field ++ ','
            :: (writeField field' ++ writeMore fields ++ '\r' :: '\n' :: rest) := by
        simp [writeMore]
      rw [htext]
      exact hread.trans (read_more field' fields rest)

/-- **What is written is read back, row by row and field by field.** -/
theorem parse_writeRows (rows : List (List (List Char))) : parse (writeRows rows) = rows := by
  unfold parse
  induction rows with
  | nil => rfl
  | cons fields rows ih =>
    rw [writeRows, List.flatMap_cons, read_row]
    exact congrArg (fields :: ·) ih

end Roamkit.Lib.Csv
