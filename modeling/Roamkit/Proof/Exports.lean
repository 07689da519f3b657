import Mathlib.Data.List.Forall2
import Roamkit.Lib.PdfText
import Roamkit.Vouchers.Exports

/-!
# What an export of a batch has in it

The CSV text is read back as the rows it was made of, however many there are and whatever
is in them. The page of the PDF has room for sixty-four lines, three of them the heading,
and a line shows a code as far as Latin-1 can write it.
-/

namespace Roamkit.Vouchers.Proof

open Lib Billing

variable {s : VoucherDb} {batch : VoucherBatch}

/-! ## What is asked for -/

/-- The line begins with the code, character for byte. -/
def HasCode (v : Voucher) (line : List UInt8) : Prop :=
  v.code.toList.map Char.toNat <+: line.map UInt8.toNat

/-- Both exports have each voucher of the batch in them. -/
structure ExportsAll (x : ExportCall) (vouchers : BatchVouchers s batch)
    (audits : List ExportAudit) : Prop where
  /-- The CSV text has a row for each, behind the row of the names. -/
  csv : ∃ rows, Csv.parse (exportBatchCsv x vouchers audits).1.toList
    = csvFieldnames.map String.toList :: rows
    ∧ List.Forall₂ (fun v row => row = v.exportRow.fields.map String.toList) vouchers.rows rows
  /-- The PDF shows a line for each, behind the heading. -/
  pdf : ∃ lines, PdfText.shown (exportBatchPdf x vouchers audits).1 = some lines
    ∧ List.Forall₂ HasCode vouchers.rows (lines.drop 3)

/-- The code can be shown on a line. -/
def Printable (code : String) : Prop :=
  code.toList.length ≤ 110 ∧ ∀ c ∈ code.toList, c.toNat < 256 ∧ c ≠ '\r'

/-! ## Characters and bytes -/

theorem latin1_of_lt {c : Char} (h : c.toNat < 256) : (latin1 c).toNat = c.toNat := by
  unfold latin1
  rw [if_pos h, UInt8.toNat_ofNat']
  omega

/-- A byte of ASCII other than the question mark is written for one character only. -/
theorem latin1_eq_iff {c d : Char} (hd : d.toNat < 128) (hne : d ≠ '?') :
    latin1 c = latin1 d ↔ c = d := by
  constructor
  · intro h
    have hbytes : (latin1 c).toNat = d.toNat := by
      rw [h]
      exact latin1_of_lt (by omega)
    by_cases hc : c.toNat < 256
    · rw [latin1_of_lt hc] at hbytes
      exact Char.toNat_inj.1 hbytes
    · -- it is replaced
      have hmark : (latin1 c).toNat = '?'.toNat := by
        unfold latin1
        rw [if_neg hc]
        rfl
      exact absurd (Char.toNat_inj.1 (hbytes.symm.trans hmark)) hne
  · intro h
    rw [h]

theorem esc_cons (c : Char) (cs : List Char) :
    esc (c :: cs) = (if c = '\\' ∨ c = '(' ∨ c = ')' then ['\\', c] else [c]) ++ esc cs := by
  by_cases hslash : c = '\\'
  · rw [hslash]
    simp [esc, escapeChar]
  · by_cases hleft : c = '('
    · rw [hleft]
      simp [esc, escapeChar]
    · by_cases hright : c = ')'
      · rw [hright]
        simp [esc, escapeChar]
      · simp [esc, escapeChar, hslash, hleft, hright]

/-- The bytes of an escaped text are its bytes, escaped. -/
theorem esc_latin1 (cs : List Char) : (esc cs).map latin1 = PdfText.escape (cs.map latin1) := by
  induction cs with
  | nil => rfl
  | cons c cs ih =>
    have hslash : latin1 c = PdfText.backslash ↔ c = '\\' :=
        latin1_eq_iff (d := '\\') (by decide) (by decide)
    have hleft : latin1 c = PdfText.leftParen ↔ c = '(' :=
        latin1_eq_iff (d := '(') (by decide) (by decide)
    have hright : latin1 c = PdfText.rightParen ↔ c = ')' :=
        latin1_eq_iff (d := ')') (by decide) (by decide)
    have hbackslash : latin1 '\\' = PdfText.backslash := by decide
    unfold PdfText.escape at ih ⊢
    rw [esc_cons, List.map_append, ih, List.map_cons, List.flatMap_cons]
    simp only [hslash, hleft, hright]
    split
    · rw [List.map_cons, List.map_singleton, hbackslash]
    · rfl

theorem encode_append (a b : String) : encode (a ++ b) = encode a ++ encode b := by
  unfold encode
  rw [String.toList_append, List.map_append]

theorem encode_nat (n : Nat) : encode (toString n) = PdfText.ascii (toString n) := by
  unfold encode PdfText.ascii
  refine List.map_congr_left fun c hc => ?_
  have hdigit := Char.isDigit_iff_toNat.1 (isDigit_of_mem_toString hc)
  have hnine : '9'.toNat = 57 := rfl
  unfold latin1
  rw [if_pos (by omega)]

/-! ## The page -/

/-- What is shown of a line. -/
def shownLine (line : String) : List UInt8 := PdfText.eol false ((line.toList.take 110).map latin1)

/-- The bytes of what a line keeps. -/
def keptLine (line : String) : List UInt8 := (line.toList.take 110).map latin1

section Reader

variable {R : List UInt8 → List (List UInt8) → Prop} {f : List UInt8 → List UInt8}
  (hR : PdfText.Reader R f)
include hR

theorem showLine_reads (first : Bool) (line : String) :
    ∃ texts, List.Forall₂ R ((showLine first line).map (·.map latin1)) texts
      ∧ texts.flatten = [f (keptLine line)] := by
  have hline : R (('(' :: (esc (line.toList.take 110) ++ ") Tj".toList)).map latin1)
      [f (keptLine line)] := by
    have hleft : latin1 '(' = PdfText.leftParen := by decide
    have hoperator : ") Tj".toList.map latin1 = PdfText.rightParen :: " Tj".toList.map latin1 := by
      decide
    rw [List.map_cons, hleft, List.map_append, esc_latin1, hoperator]
    exact hR.literal _ (by decide) (by decide)
  have hmove : R ("0 -12 Td".toList.map latin1) [] := hR.plain (by decide) (by decide)
  unfold showLine
  cases first with
  | true => exact ⟨[[f (keptLine line)]], .cons hline .nil, rfl⟩
  | false => exact ⟨[[], [f (keptLine line)]], .cons hmove (.cons hline .nil), rfl⟩

/-- The loop shows as many lines as there is room for. -/
theorem showLines_reads (n : Nat) (first : Bool) (lines : List String) :
    ∃ texts, List.Forall₂ R ((showLines (32 + 12 * (n + 1)) first lines).map (·.map latin1)) texts
      ∧ texts.flatten = (lines.take (n + 1)).map fun line => f (keptLine line) := by
  induction lines generalizing n first with
  | nil => exact ⟨[], .nil, rfl⟩
  | cons line lines ih =>
    obtain ⟨texts, htexts, hflat⟩ := showLine_reads hR first line
    unfold showLines
    cases n with
    | zero =>
      -- the last line of the page
      rw [if_pos (by omega), List.append_nil]
      refine ⟨texts, htexts, ?_⟩
      rw [hflat, List.take_succ_cons, List.take_zero]
      rfl
    | succ n =>
      obtain ⟨more, hmore, hmoreFlat⟩ := ih n false
      have hnext : (32 + 12 * (((n + 1 : Nat) : Int) + 1) - 12) = 32 + 12 * ((n : Int) + 1) := by
        omega
      rw [if_neg (by omega), hnext, List.map_append]
      refine ⟨texts ++ more, List.rel_append htexts hmore, ?_⟩
      rw [List.flatten_append, hflat, hmoreFlat, List.take_succ_cons, List.map_cons,
        List.singleton_append]

theorem contentBytes_reads (lines : List String) :
    R (contentBytes lines) ((lines.take 64).map fun line => f (keptLine line)) := by
  obtain ⟨texts, htexts, hflat⟩ := showLines_reads hR 63 true lines
  have hstart : (32 + 12 * (((63 : Nat) : Int) + 1)) = 800 := by decide
  rw [hstart] at htexts
  have hplain : ∀ {cmd : List Char}, PdfText.leftParen ∉ cmd.map latin1
    → PdfText.rightParen ∉ cmd.map latin1 →
      R (cmd.map latin1) [] := fun hleft hright => hR.plain hleft hright
  have hcmds : List.Forall₂ R ((contentCmds lines).map (·.map latin1))
      ([] :: [] :: [] :: (texts ++ [[]])) := by
    unfold contentCmds
    simp only [List.map_cons, List.map_append, List.map_nil]
    refine .cons (hplain (by decide) (by decide)) (.cons (hplain (by decide) (by decide))
      (.cons (hplain (by decide) (by decide)) ?_))
    exact List.rel_append htexts (.cons (hplain (by decide) (by decide)) .nil)
  have hflatten : ([] :: [] :: [] :: (texts ++ [[]])).flatten = (lines.take 64).map fun line =>
      f (keptLine line) := by
    simp [hflat]
  have hjoin : contentBytes lines
      = [PdfText.lineFeed].intercalate ((contentCmds lines).map (·.map latin1)) := by
    unfold contentBytes
    exact PdfText.intercalate_map latin1 ['\n'] (contentCmds lines)
  rw [hjoin, ← hflatten]
  exact hR.intercalate (by decide) (by decide) hcmds

end Reader

theorem contentBytes_shows (lines : List String) :
    PdfText.Shows (contentBytes lines) ((lines.take 64).map shownLine) :=
      contentBytes_reads PdfText.shows_reader lines

/-- The document up to the length of its stream. -/
def beforeLength : List UInt8 :=
  pdfHeader ++ (encode "1 0 obj<< /Type /Catalog /Pages 2 0 R >>endobj\n"
    ++ (encode "2 0 obj<< /Type /Pages /Kids [3 0 R] /Count 1 >>endobj\n"
    ++ (encode ("3 0 obj<< /Type /Page /Parent 2 0 R /MediaBox [0 0 612 792] "
      ++ "/Contents 4 0 R /Resources << /Font << /F1 5 0 R >> >> >>endobj\n")
        ++ encode "4 0 obj<< ")))

theorem beforeLength_plain : UInt8.ofNat 'L'.toNat ∉ beforeLength := by
  unfold beforeLength pdfHeader
  simp only [List.mem_append, not_or, encode_append]
  refine ⟨by
    simp [encode, latin1], by
      simp [encode, latin1], by simp [encode, latin1], ⟨?_, ?_⟩, by simp [encode, latin1]⟩
  · simp [encode, latin1]
  · simp [encode, latin1]

/-- **The page shows the first sixty-four lines.** -/
theorem shown_eq (lines : List String) :
    PdfText.shown (minimalPdfBytes lines) = some ((lines.take 64).map shownLine) := by
  obtain ⟨rest, hrest⟩ : ∃ rest, minimalPdfBytes lines = beforeLength ++ (PdfText.ascii "/Length "
      ++ (PdfText.ascii (toString (contentBytes lines).length) ++ (PdfText.ascii " "
      ++ (PdfText.ascii ">>stream\n" ++ (contentBytes lines ++ rest))))) := by
    have hlength : encode "4 0 obj<< /Length "
        = encode "4 0 obj<< " ++ PdfText.ascii "/Length " := by
      simp [encode, latin1, PdfText.ascii]
    have hstream : encode " >>stream\n" = PdfText.ascii " " ++ PdfText.ascii ">>stream\n" := by
      simp [encode, latin1, PdfText.ascii]
    unfold minimalPdfBytes pdfObjects beforeLength
    dsimp only
    simp only [List.flatten_cons, List.flatten_nil, encode_append, hlength, hstream, encode_nat,
      List.append_assoc]
    exact ⟨_, rfl⟩
  have hscan := contentBytes_shows lines []
  rw [List.append_nil, PdfText.scan, List.append_nil] at hscan
  unfold PdfText.shown
  rw [hrest, PdfText.contentStream_eq beforeLength_plain, Option.map_some, hscan]

/-! ## Codes -/

/-- A line that begins with a code shows it when it can be shown. -/
theorem hasCode_iff (v : Voucher) : HasCode v (shownLine v.exportRow.line) ↔ Printable v.code := by
  have hline : v.exportRow.line.toList = v.code.toList
      ++ ("  " ++ v.exportRow.creditAmount ++ "  " ++ v.exportRow.status).toList := by
    unfold ExportRow.line
    simp only [String.toList_append, List.append_assoc]
    rfl
  have hreturn : latin1 '\r' = PdfText.carriageReturn := by decide
  unfold HasCode shownLine Printable
  constructor
  · intro h
    obtain ⟨more, hmore⟩ := h
    refine ⟨?_, fun c hc => ?_⟩
    · -- no more is shown than what is left of the line
      have hshown := PdfText.eol_length false ((v.exportRow.line.toList.take 110).map latin1)
      have hcut : ((v.exportRow.line.toList.take 110).map latin1).length ≤ 110 := by
        rw [List.length_map]
        exact List.length_take_le _ _
      have hlength := congrArg List.length hmore
      rw [List.length_append, List.length_map, List.length_map] at hlength
      omega
    · have hbyte : c.toNat ∈ (PdfText.eol false ((v.exportRow.line.toList.take 110).map latin1)).map
          UInt8.toNat := by
        rw [← hmore]
        exact List.mem_append_left _ (List.mem_map_of_mem hc)
      obtain ⟨b, hb, hbc⟩ := List.mem_map.1 hbyte
      have hlt := b.toNat_lt
      refine ⟨by omega, fun hcr => ?_⟩
      have hb13 : b = PdfText.carriageReturn := by
        rw [hcr] at hbc
        exact UInt8.toNat_inj.1 hbc
      rw [hb13] at hb
      exact PdfText.eol_return _ _ hb
  · rintro ⟨hlength, hplain⟩
    have htake : v.exportRow.line.toList.take 110 = v.code.toList
        ++ ("  " ++ v.exportRow.creditAmount ++ "  " ++ v.exportRow.status).toList.take
          (110 - v.code.toList.length) := by
      rw [hline, List.take_append, List.take_of_length_le hlength]
    have hnone : PdfText.carriageReturn ∉ v.code.toList.map latin1 := by
      intro hc
      obtain ⟨c, hc, heq⟩ := List.mem_map.1 hc
      rw [← hreturn] at heq
      exact (hplain c hc).2 ((latin1_eq_iff (by decide) (by decide)).1 heq)
    have hcodes : (v.code.toList.map latin1).map UInt8.toNat = v.code.toList.map Char.toNat := by
      rw [List.map_map]
      exact List.map_congr_left fun c hc => latin1_of_lt (hplain c hc).1
    rw [htake, List.map_append, PdfText.eol_append hnone, List.map_append, hcodes]
    exact List.prefix_append _ _

/-- A list goes with the beginning of its images just when that is all of them. -/
theorem forall₂_take_iff {α β : Type} {R : α → β → Prop} {f : α → β} {xs : List α} {n : Nat} :
    List.Forall₂ R xs ((xs.take n).map f) ↔ xs.length ≤ n ∧ ∀ x ∈ xs, R x (f x) := by
  constructor
  · intro h
    have hlength := h.length_eq
    rw [List.length_map, List.length_take] at hlength
    have hle : xs.length ≤ n := by omega
    rw [List.take_of_length_le hle, List.forall₂_map_right_iff, List.forall₂_same] at h
    exact ⟨hle, h⟩
  · rintro ⟨hle, h⟩
    rw [List.take_of_length_le hle, List.forall₂_map_right_iff, List.forall₂_same]
    exact h

/-- The CSV text is complete for every batch. -/
theorem csv_complete (vouchers : BatchVouchers s batch) :
    Csv.parse (buildBatchCsvText vouchers).toList
    = csvFieldnames.map String.toList :: vouchers.rows.map fun v =>
      v.exportRow.fields.map String.toList := by
  unfold buildBatchCsvText
  rw [String.toList_ofList, Csv.parse_writeRows, List.map_cons]
  unfold iterBatchExportRows
  rw [List.map_map, List.map_map]
  rfl

/-- The PDF is complete for a batch that fits on the page. -/
theorem pdf_iff (x : ExportCall) (vouchers : BatchVouchers s batch) (audits : List ExportAudit) :
    (∃ lines, PdfText.shown (exportBatchPdf x vouchers audits).1 = some lines
      ∧ List.Forall₂ HasCode vouchers.rows (lines.drop 3)) ↔ vouchers.rows.length ≤ 61
        ∧ ∀ v ∈ vouchers.rows, Printable v.code := by
  have hshown : PdfText.shown (exportBatchPdf x vouchers audits).1
      = some (((pdfHeading batch ++ vouchers.rows.map (fun v => v.exportRow.line)).take 64).map
        shownLine) := by
    have hrows : (iterBatchExportRows vouchers).map ExportRow.line = vouchers.rows.map fun v =>
        v.exportRow.line := by
      unfold iterBatchExportRows
      rw [List.map_map]
      rfl
    unfold exportBatchPdf buildBatchPdfBytes
    dsimp only
    rw [shown_eq, hrows]
  -- three of the sixty-four lines are the heading
  have hdrop :
    (((pdfHeading batch ++ vouchers.rows.map (fun v => v.exportRow.line)).take 64).map
      shownLine).drop 3
      = (vouchers.rows.take 61).map fun v => shownLine v.exportRow.line := by
    have hheading : (pdfHeading batch).length = 3 := rfl
    rw [← List.map_drop, List.drop_take,
      List.drop_append_of_le_length (Nat.le_of_eq hheading.symm), ← hheading,
      List.drop_length, List.nil_append, ← List.map_take, List.map_map]
    rfl
  rw [hshown]
  constructor
  · rintro ⟨lines, hlines, hall⟩
    cases hlines
    rw [hdrop, forall₂_take_iff] at hall
    exact ⟨hall.1, fun v hv => (hasCode_iff v).1 (hall.2 v hv)⟩
  · rintro ⟨hle, hall⟩
    refine ⟨_, rfl, ?_⟩
    rw [hdrop, forall₂_take_iff]
    exact ⟨hle, fun v hv => (hasCode_iff v).2 (hall v hv)⟩

/--
**Both exports have every voucher of a batch in them exactly when it has at most sixty-one, each
with a code that Latin-1 can write and a line can show.**
-/
theorem exportsAll_iff (x : ExportCall) (vouchers : BatchVouchers s batch)
    (audits : List ExportAudit) :
    ExportsAll x vouchers audits ↔ (s.vouchers.rows.filter (·.batch = some batch.id)).length ≤ 61
      ∧ ∀ v ∈ s.vouchers, v.batch = some batch.id → Printable v.code := by
  have hmember : ∀ v, v ∈ vouchers.rows ↔ v ∈ s.vouchers ∧ v.batch = some batch.id := by
    intro v
    rw [vouchers.perm.mem_iff, List.mem_filter, decide_eq_true_eq]
    rfl
  rw [← vouchers.perm.length_eq]
  constructor
  · intro h
    obtain ⟨hle, hall⟩ := (pdf_iff x vouchers audits).1 h.pdf
    exact ⟨hle, fun v hv hbatch => hall v ((hmember v).2 ⟨hv, hbatch⟩)⟩
  · rintro ⟨hle, hall⟩
    refine ⟨⟨_, csv_complete vouchers, ?_⟩, (pdf_iff x vouchers audits).2 ⟨hle, fun v hv => ?_⟩⟩
    · rw [List.forall₂_map_right_iff, List.forall₂_same]
      exact fun _ _ => rfl
    · obtain ⟨hmem, hbatch⟩ := (hmember v).1 hv
      exact hall v hmem hbatch

/-! ## A batch of sixty-two -/

/-- Ids that differ in their last two digits. -/
def idChars (i : Fin 64) : List Char :=
  let zeros := fun n => List.replicate n '0'
  zeros 8 ++ '-' :: zeros 4 ++ '-' :: zeros 4 ++ '-' :: zeros 4 ++ '-' :: zeros 10
    ++ (Nat.toDigits 10 i).leftpad 2 '0'

def idText (i : Fin 64) : String := String.ofList (idChars i)

theorem idText_canonical : ∀ i, isUuidText (idText i) = true := by
  intro i
  unfold isUuidText idText
  rw [String.toList_ofList]
  revert i
  decide

def idOf (i : Fin 64) : Uuid := ⟨idText i, idText_canonical i⟩

def bigBatch : VoucherBatch := ⟨idOf 63, none, 62, .active, 0⟩

/-- A voucher of the batch, worth a dollar. -/
def voucherOf (i : Fin 62) : Voucher where
  id := idOf (i.castLE (by omega))
  code := "RK-" ++ toString i.val
  redemptionMode := .unique
  rewardType := .fixedCredit
  creditAmount := ⟨1000000, by decide, by decide⟩
  campaign := none
  batch := some bigBatch.id
  status := .active
  expiresAt := none
  updatedAt := 0

theorem voucherOf_apart : ((List.finRange 62).map voucherOf).Pairwise fun v v' =>
    ¬ Constraint.clash v v' := by
  rw [List.pairwise_map]
  refine (List.nodup_finRange 62).imp ?_
  intro i j hne hclash
  rcases hclash with hid | hcode
  · have htext : idText (i.castLE (by omega)) = idText (j.castLE (by omega)) :=
      congrArg Uuid.str hid
    have hchars : idChars (i.castLE (by omega)) = idChars (j.castLE (by omega)) :=
      String.ofList_injective htext
    unfold idChars at hchars
    exact hne (Fin.ext (Dec.leftpad_inj (List.append_cancel_left hchars)))
  · have htext : "RK-" ++ toString i.val = "RK-" ++ toString j.val := hcode
    exact hne (Fin.ext (toString_nat_inj ((String.append_right_inj _).1 htext)))

/-- The tables with the batch. -/
def sixtyTwo : VoucherDb where
  books := ⟨.empty, .empty⟩
  campaigns := .empty
  batches := .empty
  vouchers := ⟨(List.finRange 62).map voucherOf, voucherOf_apart⟩
  redemptions := .empty
  locks := []

def sixtyTwoVouchers : BatchVouchers sixtyTwo bigBatch where
  rows := (List.finRange 62).map voucherOf
  perm := by
    have hall : ((List.finRange 62).map voucherOf).filter (·.batch = some bigBatch.id)
        = (List.finRange 62).map voucherOf := by
      refine List.filter_eq_self.2 fun v hv => ?_
      obtain ⟨i, -, rfl⟩ := List.mem_map.1 hv
      exact decide_eq_true rfl
    exact hall ▸ List.Perm.refl _

/-- The last of the codes is missing from the PDF. -/
theorem exports_sixtyTwo : ¬ ExportsAll ⟨"1", true, idOf 0, 0⟩ sixtyTwoVouchers [] := by
  intro h
  obtain ⟨hle, -⟩ := (pdf_iff _ _ _).1 h.pdf
  have hlength : sixtyTwoVouchers.rows.length = 62 := by
    show ((List.finRange 62).map voucherOf).length = 62
    rw [List.length_map, List.length_finRange]
  omega

end Roamkit.Vouchers.Proof
