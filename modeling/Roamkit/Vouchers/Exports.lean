import Roamkit.Lib.Csv
import Roamkit.Lib.Isoformat
import Roamkit.Vouchers.Rows

/-!
# Exports of a batch

The vouchers of a batch are exported as a CSV text or as a PDF, and an export that is
downloaded is recorded. The PDF is written byte by byte: one page, a line of text for each
voucher behind three lines of a heading, and a table of where its objects begin.
-/

namespace Roamkit.Vouchers

open Lib Billing

def BatchStatus.value : BatchStatus → String
  | created => "created"
  | active => "active"
  | revoked => "revoked"

def VoucherStatus.value : VoucherStatus → String
  | created => "created"
  | active => "active"
  | redeemed => "redeemed"
  | expired => "expired"
  | revoked => "revoked"

/-! ## The rows -/

/-- `Voucher.objects.filter(batch=batch).order_by("created_at")`: each of them once. -/
structure BatchVouchers (s : VoucherDb) (batch : VoucherBatch) where
  rows : List Voucher
  perm : rows.Perm (s.vouchers.rows.filter (·.batch = some batch.id))

/-- A row of an export. -/
structure ExportRow where
  code : String
  creditAmount : String
  status : String
  expiresAt : String
deriving DecidableEq

def Voucher.exportRow (v : Voucher) : ExportRow where
  code := v.code
  creditAmount := Dec.fixed 6 v.creditAmount.micros
  status := v.status.value
  expiresAt := (v.expiresAt.map Isoformat.isoformat).getD ""

variable {s : VoucherDb} {batch : VoucherBatch}

variable (vouchers : BatchVouchers s batch) (lines : List String)

/-- `iter_batch_export_rows` -/
def iterBatchExportRows : List ExportRow := vouchers.rows.map Voucher.exportRow

/-! ## CSV -/

def csvFieldnames : List String := ["code", "credit_amount", "status", "expires_at"]

/-- The fields in their order. -/
def ExportRow.fields (r : ExportRow) : List String :=
  [r.code, r.creditAmount, r.status, r.expiresAt]

/-- `build_batch_csv_text` -/
def buildBatchCsvText : String :=
  String.ofList
    (Csv.writeRows ((csvFieldnames :: (iterBatchExportRows vouchers).map ExportRow.fields).map
    (·.map String.toList)))

/-! ## PDF -/

/-- `text.replace(c, "\\" + c)` -/
def escapeChar (c : Char) (text : List Char) : List Char :=
  text.flatMap fun d => if d = c then ['\\', d] else [d]

/-- `_esc` -/
def esc (text : List Char) : List Char := escapeChar ')' (escapeChar '(' (escapeChar '\\' text))

/-- The commands of a line, which is cut behind its 110th character. -/
def showLine (first : Bool) (line : String) : List (List Char) :=
  (if first then [] else ["0 -12 Td".toList])
    ++ ['(' :: (esc (line.toList.take 110) ++ ") Tj".toList)]

/-- The loop over the lines: it ends when there is no more room on the page. -/
def showLines (y : Int) (first : Bool) : List String → List (List Char)
  | [] => []
  | line :: lines =>
      showLine first line ++ (if y - 12 < 40 then [] else showLines (y - 12) false lines)

/-- `content_cmds` -/
def contentCmds : List (List Char) :=
  "BT".toList :: "/F1 10 Tf".toList :: "50 800 Td".toList
    :: (showLines 800 true lines ++ ["ET".toList])

/-- `c.encode("latin-1", errors="replace")` -/
def latin1 (c : Char) : UInt8 :=
  if c.toNat < 256 then UInt8.ofNat c.toNat else UInt8.ofNat '?'.toNat

/-- `s.encode()` of a text within ASCII. -/
def encode (s : String) : List UInt8 := s.toList.map latin1

/-- `"\n".join(content_cmds).encode("latin-1", errors="replace")` -/
def contentBytes : List UInt8 := (['\n'].intercalate (contentCmds lines)).map latin1

/-- The five objects of the document. -/
def pdfObjects : List (List UInt8) :=
  [encode "1 0 obj<< /Type /Catalog /Pages 2 0 R >>endobj\n",
    encode "2 0 obj<< /Type /Pages /Kids [3 0 R] /Count 1 >>endobj\n",
    encode ("3 0 obj<< /Type /Page /Parent 2 0 R /MediaBox [0 0 612 792] "
      ++ "/Contents 4 0 R /Resources << /Font << /F1 5 0 R >> >> >>endobj\n"),
    encode ("4 0 obj<< /Length " ++ toString (contentBytes lines).length ++ " >>stream\n")
      ++ contentBytes lines ++ encode "\nendstream\nendobj\n",
    encode "5 0 obj<< /Type /Font /Subtype /Type1 /BaseFont /Helvetica >>endobj\n"]

def pdfHeader : List UInt8 := encode "%PDF-1.4\n"

/-- Where each of some objects begins, the first of them at this place. -/
def offsetsFrom (place : Nat) : List (List UInt8) → List Nat
  | [] => []
  | o :: objects => place :: offsetsFrom (place + o.length) objects

/-- `f"{off:010d}"` -/
def tenDigits (n : Nat) : String := String.ofList ((Nat.toDigits 10 n).leftpad 10 '0')

/-- The cross-reference table. -/
def pdfXref (objects : List (List UInt8)) : List UInt8 :=
  encode ("xref\n0 " ++ toString (objects.length + 1) ++ "\n") ++ encode "0000000000 65535 f \n"
    ++ (offsetsFrom pdfHeader.length objects).flatMap fun off =>
      encode (tenDigits off ++ " 00000 n \n")

/-- What stands at the end, with the place of the table. -/
def pdfTrailer (objects : List (List UInt8)) (xrefPos : Nat) : List UInt8 :=
  encode ("trailer<< /Size " ++ toString (objects.length + 1) ++ " /Root 1 0 R >>\nstartxref\n"
    ++ toString xrefPos ++ "\n%%EOF\n")

/-- `_minimal_pdf_bytes` -/
def minimalPdfBytes : List UInt8 :=
  let objects := pdfObjects lines
  let body := pdfHeader ++ objects.flatten
  body ++ pdfXref objects ++ pdfTrailer objects body.length

/-- The lines above the codes. -/
def pdfHeading (batch : VoucherBatch) : List String :=
  ["RoamKit voucher batch " ++ batch.id.str,
    "Size=" ++ toString batch.size ++ " status=" ++ batch.status.value, ""]

/-- The line of a row. -/
def ExportRow.line (r : ExportRow) : String := r.code ++ "  " ++ r.creditAmount ++ "  " ++ r.status

/-- `build_batch_pdf_bytes` -/
def buildBatchPdfBytes : List UInt8 :=
  minimalPdfBytes (pdfHeading batch ++ (iterBatchExportRows vouchers).map ExportRow.line)

/-! ## Exports -/

inductive ExportFormat where
  | csv
  | pdf
deriving DecidableEq

/-- `VoucherExportAudit` -/
structure ExportAudit where
  id : Uuid
  batch : Uuid
  format : ExportFormat
  exportedById : String
  exportedAt : Time
deriving DecidableEq

/-- Who exports, when, and the id of the record. -/
structure ExportCall where
  actorId : String
  recordAudit : Bool
  id : Uuid
  now : Time

variable (x : ExportCall)

/-- `_record_export`, where the call asks for it. -/
def ExportCall.record (batch : VoucherBatch) (format : ExportFormat) (audits : List ExportAudit) :
    List ExportAudit :=
  if x.recordAudit then ⟨x.id, batch.id, format, x.actorId, x.now⟩ :: audits else audits

/-- `export_batch_csv` -/
def exportBatchCsv (vouchers : BatchVouchers s batch) (audits : List ExportAudit) :
    String × List ExportAudit :=
  (buildBatchCsvText vouchers, x.record batch .csv audits)

/-- `export_batch_pdf` -/
def exportBatchPdf (vouchers : BatchVouchers s batch) (audits : List ExportAudit) :
    List UInt8 × List ExportAudit :=
  (buildBatchPdfBytes vouchers, x.record batch .pdf audits)

end Roamkit.Vouchers
