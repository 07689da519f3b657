import Roamkit.Lib.PdfFile
import Roamkit.Proof.Exports

/-!
# The bytes of the PDF

Whatever the lines are, the document is read back from its end: the place of its
table, in it the places of its objects, and in the fourth of these as many bytes as its
length says, with one literal string for each line.
-/

namespace Roamkit.Vouchers.Proof

open Lib PdfText

/-- What a reader finds in a document. -/
structure ReadsBack (pdf : List UInt8) (objects : List (List UInt8)) (stream : List UInt8)
    (texts : List (List UInt8)) : Prop where
  /-- The table is where the end says, and each of its entries in use is where an object begins, -/
  table : ∃ place offsets, startxref? pdf = some place
    ∧ readXref? (pdf.drop place) = some (⟨0, 65535, false⟩ :: offsets.map (⟨·, 0, true⟩))
    ∧ List.Forall₂ (fun off object => object <+: pdf.drop off) offsets objects
    -- by their numbers
    ∧ offsets.map (fun off => objectNumber? (pdf.drop off))
      = (List.range' 1 objects.length).map some
    -- the stream is that of the fourth, between its marks
    ∧ (offsets[3]?.bind fun off => readStream? (pdf.drop off)) = some stream
  /-- and each literal string of the stream is closed by its own parenthesis. -/
  literals : literals .outside stream = some texts

/-! ## Text within ASCII -/

theorem encode_ascii {s : String} (h : s.toList.all (·.toNat < 256) = true) :
    encode s = ascii s := by
  unfold encode ascii
  refine List.map_congr_left fun c hc => ?_
  have hlt := of_decide_eq_true (List.all_eq_true.1 h c hc)
  unfold latin1
  rw [if_pos hlt]

theorem encode_entry (n : Nat) : encode (tenDigits n ++ " 00000 n \n")
    = ascii (String.ofList ((Nat.toDigits 10 n).leftpad 10 '0') ++ " 00000 n \n") := by
  refine encode_ascii (List.all_eq_true.2 fun c hc => decide_eq_true ?_)
  unfold tenDigits at hc
  rw [String.toList_append, String.toList_ofList, List.mem_append] at hc
  rcases hc with hc | hc
  · have hdigit := Char.isDigit_iff_toNat.1 (Dec.isDigit_of_mem_leftpad hc)
    have hnine : '9'.toNat = 57 := rfl
    omega
  · have hall : " 00000 n \n".toList.all (·.toNat < 256) = true := by decide
    exact of_decide_eq_true (List.all_eq_true.1 hall c hc)

/-! ## Places -/

/-- Objects begin at their offsets. -/
theorem offsetsFrom_begin (before rest : List UInt8) (objects : List (List UInt8)) :
    List.Forall₂ (fun off object => object <+: (before ++ (objects.flatten ++ rest)).drop off)
      (offsetsFrom before.length objects) objects := by
  induction objects generalizing before with
  | nil => exact .nil
  | cons o objects ih =>
    have hnext := ih (before ++ o)
    rw [List.length_append, List.append_assoc, ← List.append_assoc o, ← List.flatten_cons] at hnext
    refine .cons ?_ hnext
    rw [List.drop_left, List.flatten_cons, List.append_assoc]
    exact List.prefix_append _ _

variable (lines : List String) {objects : List (List UInt8)}

theorem offsetsFrom_le {place : Nat} :
    ∀ off ∈ offsetsFrom place objects, off ≤ place + objects.flatten.length := by
  induction objects generalizing place with
  | nil => exact fun _ h => by cases h
  | cons o objects ih =>
    intro off hoff
    rw [List.flatten_cons, List.length_append]
    rcases List.mem_cons.1 hoff with rfl | hoff
    · omega
    · have hle := ih off hoff
      omega

theorem offsetsFrom_length {place : Nat} :
    (offsetsFrom place objects).length = objects.length := by
  induction objects generalizing place with
  | nil => rfl
  | cons o objects ih =>
    show (offsetsFrom _ objects).length + 1 = objects.length + 1
    rw [ih]

/-! ## How long a document is -/

theorem escape_length (bs : List UInt8) : (escape bs).length ≤ 2 * bs.length := by
  induction bs with
  | nil => exact Nat.le_refl _
  | cons b bs ih =>
    unfold escape at ih ⊢
    rw [List.flatMap_cons, List.length_append, List.length_cons]
    split
    · simp only [List.length_cons, List.length_nil]
      omega
    · simp only [List.length_cons, List.length_nil]
      omega

/-- A line is cut, and so is its command short. -/
theorem showLine_length (first : Bool) (line : String) :
    (showLine first line).length ≤ 2 ∧ ∀ cmd ∈ showLine first line, cmd.length ≤ 225 := by
  have hmove : "0 -12 Td".toList.length = 8 := by decide
  have hshow : ('(' :: (esc (line.toList.take 110) ++ ") Tj".toList)).length ≤ 225 := by
    have hesc : (esc (line.toList.take 110)).length ≤ 2 * 110 := by
      have hbytes := escape_length ((line.toList.take 110).map latin1)
      rw [← esc_latin1, List.length_map, List.length_map] at hbytes
      have hcut : (line.toList.take 110).length ≤ 110 := List.length_take_le _ _
      omega
    have hend : ") Tj".toList.length = 4 := by decide
    rw [List.length_cons, List.length_append, hend]
    omega
  unfold showLine
  cases first with
  | true =>
    refine ⟨by simp, fun cmd hcmd => ?_⟩
    rw [List.mem_singleton.1 hcmd]
    exact hshow
  | false =>
    refine ⟨by simp, fun cmd hcmd => ?_⟩
    rcases List.mem_cons.1 hcmd with rfl | hcmd
    · rw [hmove]
      omega
    · rw [List.mem_singleton.1 hcmd]
      exact hshow

theorem showLines_length (n : Nat) (first : Bool) (lines : List String) :
    (showLines (32 + 12 * (n + 1)) first lines).length ≤ 2 * (n + 1)
      ∧ ∀ cmd ∈ showLines (32 + 12 * (n + 1)) first lines, cmd.length ≤ 225 := by
  induction lines generalizing n first with
  | nil => exact ⟨Nat.zero_le _, fun _ h => by cases h⟩
  | cons line lines ih =>
    obtain ⟨hcount, hshort⟩ := showLine_length first line
    unfold showLines
    cases n with
    | zero =>
      rw [if_pos (by omega), List.append_nil]
      exact ⟨hcount, hshort⟩
    | succ n =>
      obtain ⟨hmore, hrest⟩ := ih n false
      have hnext : (32 + 12 * (((n + 1 : Nat) : Int) + 1) - 12) = 32 + 12 * ((n : Int) + 1) := by
        omega
      rw [if_neg (by omega), hnext]
      refine ⟨?_, fun cmd hcmd => ?_⟩
      · rw [List.length_append]
        omega
      · rcases List.mem_append.1 hcmd with hcmd | hcmd
        · exact hshort cmd hcmd
        · exact hrest cmd hcmd

theorem intercalate_length {k : Nat} {cmds : List (List Char)} (h : ∀ cmd ∈ cmds, cmd.length ≤ k) :
    (['\n'].intercalate cmds).length ≤ cmds.length * (k + 1) := by
  induction cmds with
  | nil => simp [List.intercalate]
  | cons cmd cmds ih =>
    obtain ⟨hcmd, hcmds⟩ := List.forall_mem_cons.1 h
    have hrest := ih hcmds
    rw [List.length_cons, Nat.add_mul, Nat.one_mul]
    cases cmds with
    | nil =>
      have hone : ['\n'].intercalate [cmd] = cmd := by simp [List.intercalate]
      rw [hone]
      omega
    | cons next more =>
      have hmore : ['\n'].intercalate (cmd :: next :: more)
          = cmd ++ ('\n' :: ['\n'].intercalate (next :: more)) := by simp [List.intercalate]
      rw [hmore, List.length_append, List.length_cons]
      omega

theorem contentBytes_length : (contentBytes lines).length ≤ 30000 := by
  obtain ⟨hcount, hshort⟩ := showLines_length 63 true lines
  have hstart : (32 + 12 * (((63 : Nat) : Int) + 1)) = 800 := by decide
  rw [hstart] at hcount hshort
  have hcmds : ∀ cmd ∈ contentCmds lines, cmd.length ≤ 225 := by
    intro cmd hcmd
    unfold contentCmds at hcmd
    simp only [List.mem_cons, List.mem_append, List.not_mem_nil, or_false] at hcmd
    rcases hcmd with rfl | rfl | rfl | hcmd | rfl
    · decide
    · decide
    · decide
    · exact hshort cmd hcmd
    · decide
  have hlength : (contentCmds lines).length ≤ 132 := by
    unfold contentCmds
    simp only [List.length_cons, List.length_append, List.length_nil]
    omega
  have hjoined := intercalate_length hcmds
  unfold contentBytes
  rw [List.length_map]
  calc (['\n'].intercalate (contentCmds lines)).length
      ≤ (contentCmds lines).length * (225 + 1) := hjoined
    _ ≤ 132 * (225 + 1) := Nat.mul_le_mul_right _ hlength
    _ ≤ 30000 := by decide

/-! ## The document -/

/-- The objects are numbered from one. -/
theorem pdfObjects_numbered :
    List.Forall₂ (fun n object => ∃ rest, object = ascii (toString n) ++ (ascii " 0 obj" ++ rest))
      (List.range' 1 (pdfObjects lines).length) (pdfObjects lines) := by
  have hlength : encode "4 0 obj<< /Length "
      = ascii (toString 4) ++ (ascii " 0 obj" ++ encode "<< /Length ") := by decide
  refine .cons ⟨encode "<< /Type /Catalog /Pages 2 0 R >>endobj\n", by decide⟩ ?_
  refine .cons ⟨encode "<< /Type /Pages /Kids [3 0 R] /Count 1 >>endobj\n", by decide⟩ ?_
  refine .cons ⟨encode ("<< /Type /Page /Parent 2 0 R /MediaBox [0 0 612 792] "
    ++ "/Contents 4 0 R /Resources << /Font << /F1 5 0 R >> >> >>endobj\n"), by decide +kernel⟩ ?_
  refine .cons ?_ ?_
  · rw [encode_append, encode_append, hlength]
    simp only [List.append_assoc]
    exact ⟨_, rfl⟩
  · exact .cons ⟨encode "<< /Type /Font /Subtype /Type1 /BaseFont /Helvetica >>endobj\n", by
      decide⟩ .nil

/-- Their numbers are read where they begin. -/
theorem numbers_read {pdf : List UInt8} {offsets numbers : List Nat}
    (hbegin : List.Forall₂ (fun off object => object <+: pdf.drop off) offsets objects)
    (hnumbered : List.Forall₂
      (fun n object => ∃ rest, object = ascii (toString n) ++ (ascii " 0 obj" ++ rest))
      numbers objects) :
    offsets.map (fun off => objectNumber? (pdf.drop off)) = numbers.map some := by
  induction hbegin generalizing numbers with
  | nil =>
    cases hnumbered
    rfl
  | @cons off object offsets objects hoff _ ih =>
    cases hnumbered with
    | @cons n _ numbers _ hn hrest =>
      obtain ⟨rest, rfl⟩ := hn
      obtain ⟨more, hmore⟩ := hoff
      rw [List.append_assoc, List.append_assoc] at hmore
      rw [List.map_cons, List.map_cons, ih hrest, ← hmore, objectNumber?_append]

/-- The fourth object is the stream between its marks. -/
theorem fourth_eq : (pdfObjects lines)[3]? = some (encode "4 0 obj<< " ++ (ascii "/Length "
    ++ (ascii (toString (contentBytes lines).length) ++ (ascii " >>stream\n"
      ++ (contentBytes lines ++ (ascii "\nendstream\n" ++ ascii "endobj\n")))))) := by
  have hlength : encode "4 0 obj<< /Length " = encode "4 0 obj<< " ++ ascii "/Length " := by decide
  have hstream : encode " >>stream\n" = ascii " >>stream\n" := by decide
  have hend : encode "\nendstream\nendobj\n" = ascii "\nendstream\n" ++ ascii "endobj\n" := by
    decide
  show some _ = _
  simp only [encode_append, encode_nat, hlength, hstream, hend, List.append_assoc]

/-- Ten digits are enough for its places. -/
theorem pdfObjects_length :
    pdfHeader.length + (pdfObjects lines).flatten.length < 10 ^ 10 := by
  have hcontent := contentBytes_length lines
  have hdigits : (toString (contentBytes lines).length).toList.length ≤ 5 := by
    rw [Nat.toString_eq_ofList_toDigits, String.toList_ofList]
    exact (Nat.length_toDigits_le_iff (by omega) (by omega)).2 (by omega)
  have hnumber : (encode (toString (contentBytes lines).length)).length ≤ 5 := by
    unfold encode
    rwa [List.length_map]
  unfold pdfObjects
  simp only [List.flatten_cons, List.flatten_nil, List.length_append, encode_append,
    List.length_nil]
  have hencode : ∀ s : String, (encode s).length = s.length := by
    intro s
    unfold encode
    rw [List.length_map, String.length_toList]
  have hheader : pdfHeader.length = 9 := by decide
  rw [hencode] at hnumber
  simp only [hencode, hheader]
  generalize (toString (contentBytes lines).length).length = digits at hnumber ⊢
  generalize (contentBytes lines).length = content at hcontent ⊢
  show 9 + (47 + (55 + (60 + 64 + (18 + digits + 10 + content + 18 + (68 + 0))))) < 10 ^ 10
  omega

/-- The table, entry by entry. -/
def xrefRows (objects : List (List UInt8)) : List (List UInt8) :=
  ascii "0000000000 65535 f \n" :: (offsetsFrom pdfHeader.length objects).map fun off =>
    ascii (String.ofList ((Nat.toDigits 10 off).leftpad 10 '0') ++ " 00000 n \n")

theorem pdfXref_eq (objects : List (List UInt8)) :
    pdfXref objects = ascii "xref\n0 " ++ (ascii (toString (xrefRows objects).length)
      ++ (ascii "\n" ++ (xrefRows objects).flatten)) := by
  have hcount : (xrefRows objects).length = objects.length + 1 := by
    unfold xrefRows
    rw [List.length_cons, List.length_map, offsetsFrom_length]
  have hstart : encode "xref\n0 " = ascii "xref\n0 " := by decide
  have hfeed : encode "\n" = ascii "\n" := by decide
  have hfree : encode "0000000000 65535 f \n" = ascii "0000000000 65535 f \n" := by decide
  rw [hcount]
  unfold pdfXref xrefRows
  rw [List.flatten_cons, ← List.flatMap_def, List.flatMap_congr fun off _ => encode_entry off]
  simp only [encode_append, encode_nat, hstart, hfeed, hfree, List.append_assoc]

theorem xrefRows_read (h : pdfHeader.length + objects.flatten.length < 10 ^ 10) :
    List.Forall₂ (fun bs entry => bs.length = 20 ∧ readEntry? bs = some entry) (xrefRows objects)
      (⟨0, 65535, false⟩ :: (offsetsFrom pdfHeader.length objects).map (⟨·, 0, true⟩)) := by
  refine .cons (by decide) ?_
  rw [List.forall₂_map_left_iff, List.forall₂_map_right_iff, List.forall₂_same]
  intro off hoff
  have hle := offsetsFrom_le off hoff
  exact readEntry?_inUse (by omega)

/--
**The document is read back from its bytes.** For every list of lines the end has the
place of the table, the table the places of the objects, the stream as many bytes as
its length says, and each of its literal strings, cut or not, is closed by its own
parenthesis, with the others and the backslashes escaped.
-/
theorem minimalPdf_readsBack (lines : List String) :
    ReadsBack (minimalPdfBytes lines) (pdfObjects lines) (contentBytes lines)
      ((lines.take 64).map keptLine) := by
  have hsize := pdfObjects_length lines
  generalize hbody : pdfHeader ++ (pdfObjects lines).flatten = body
  have hpdf : minimalPdfBytes lines
      = body ++ (pdfXref (pdfObjects lines) ++ pdfTrailer (pdfObjects lines) body.length) := by
    unfold minimalPdfBytes
    dsimp only
    rw [hbody, List.append_assoc]
  have hbegin : List.Forall₂ (fun off object => object <+: (minimalPdfBytes lines).drop off)
      (offsetsFrom pdfHeader.length (pdfObjects lines)) (pdfObjects lines) := by
    have hall := offsetsFrom_begin pdfHeader
      (pdfXref (pdfObjects lines) ++ pdfTrailer (pdfObjects lines) body.length) (pdfObjects lines)
    rwa [← List.append_assoc, hbody, ← hpdf] at hall
  refine ⟨⟨body.length, offsetsFrom pdfHeader.length (pdfObjects lines), ?_, ?_, hbegin,
    numbers_read hbegin (pdfObjects_numbered lines), ?_⟩,
      (contentBytes_reads closed_reader lines).literals⟩
  · have hroot : encode " /Root 1 0 R >>\nstartxref\n"
        = encode " /Root 1 0 R >>\n" ++ ascii "startxref\n" := by decide
    have hend : encode "\n%%EOF\n" = ascii "\n%%EOF\n" := by decide
    obtain ⟨before, hbefore⟩ : ∃ before, minimalPdfBytes lines
        = before
          ++ (ascii "startxref\n" ++ (ascii (toString body.length) ++ ascii "\n%%EOF\n")) := by
      rw [hpdf]
      unfold pdfTrailer
      simp only [encode_append, encode_nat, hroot, hend, ← List.append_assoc]
      exact ⟨_, rfl⟩
    rw [hbefore]
    exact startxref?_append before body.length
  · rw [hpdf, List.drop_left, pdfXref_eq]
    simp only [List.append_assoc]
    exact readXref?_append (xrefRows_read hsize) _
  · have hfourth := fourth_eq lines
    obtain ⟨hlt, hobject⟩ := List.getElem?_eq_some_iff.1 hfourth
    have hlength := hbegin.length_eq
    have hoff : 3 < (offsetsFrom pdfHeader.length (pdfObjects lines)).length := by
      rw [hlength]
      exact hlt
    have hbegins := (List.forall₂_iff_get.1 hbegin).2 3 hoff hlt
    simp only [List.get_eq_getElem, hobject] at hbegins
    obtain ⟨rest, hrest⟩ := hbegins
    rw [List.getElem?_eq_getElem hoff, Option.bind_some, ← hrest]
    simp only [List.append_assoc]
    exact readStream?_append (by decide) _

end Roamkit.Vouchers.Proof
