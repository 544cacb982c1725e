import Extractor.Html

/-!
# PDF documents

`from_pdf` of `crates/pdf`: one paragraph for each page with text, within the page and the text
budget, and the title of the information dictionary.

Files are parsed by `lopdf` and page texts and text strings decoded by `pdf_extract`, both
outside the repository and part of the parameter `PdfLib`. A panic of these crates is caught at
the boundary of `from_pdf` and reported as a malformed file.

## Main definitions

* `metadataTitle`: the title of a file.
* `fromPdf`: the conversion.
-/

namespace Extractor

/-! ### Files -/

/-- `lopdf::Object`, with the kinds that the title lookup tells apart. -/
inductive PdfObject
  | reference (id : ℕ)
  | string (bytes : List UInt8)
  | dictionary (entries : List (String × PdfObject))
  | other

/-- `lopdf::Document`: the trailer, the objects that references resolve to, and the text of each
page in the order of the page tree; a page whose text cannot be extracted has none. -/
structure PdfFile where
  encrypted : Bool
  trailer : List (String × PdfObject)
  objects : List (ℕ × PdfObject)
  pages : List (Option String)

/-- `DecryptionError`, with the one variant that is told apart. -/
inductive DecryptionError
  | incorrectPassword
  | other

/-- What the PDF and hash crates compute. -/
structure PdfLib where
  documents : DocumentLib
  /-- `Document::load_mem`. -/
  loadMem : List UInt8 → Option PdfFile
  /-- `Document::decrypt` with the blank password. -/
  decrypt : PdfFile → Except DecryptionError PdfFile
  /-- `decode_text_string`; the outer level is a panic. -/
  decodeTextString : List UInt8 → Option (Option String)

/-! ### Titles -/

/-- The entry of a dictionary. -/
def pdfEntry (key : String) (entries : List (String × PdfObject)) : Option PdfObject :=
  (entries.find? fun e => e.1 == key).map Prod.snd

/-- `resolved`. -/
def PdfFile.resolved (file : PdfFile) : PdfObject → Option PdfObject
  | .reference id => (file.objects.find? fun o => o.1 == id).map Prod.snd
  | object => some object

/-- `Object::as_dict`. -/
def PdfObject.asDict : PdfObject → Option (List (String × PdfObject))
  | .dictionary entries => some entries
  | _ => none

/-- The bytes of a string object. -/
def PdfObject.asString : PdfObject → Option (List UInt8)
  | .string bytes => some bytes
  | _ => none

/-- The string that `metadata_title` decodes. -/
def PdfFile.titleString (file : PdfFile) : Option (List UInt8) := do
  let info ← pdfEntry "Info" file.trailer
  let info ← file.resolved info
  let info ← info.asDict
  let title ← pdfEntry "Title" info
  let title ← file.resolved title
  title.asString

/-- A text without the white space around it, if anything is left. -/
def trimmedText (text : String) : Option String :=
  let trimmed := Text.trim text.toList
  if trimmed = [] then none else some (String.ofList trimmed)

/-- `metadata_title`. -/
def metadataTitle (lib : PdfLib) (file : PdfFile) : Except PdfError (Option String) :=
  match file.titleString with
  | none => .ok none
  | some bytes => do
      let decoded ← okOr (lib.decodeTextString bytes) PdfError.malformed
      return decoded.bind trimmedText

/-! ### Pages -/

/-- `normalized_paragraph`. -/
def normalizedParagraph (pageText : String) : Option String :=
  let text := joinWords (Text.splitWhitespace pageText.toList)
  if text = "" then none else some text

/-- `usize::saturating_add` on a 64-bit machine. -/
def saturatingAdd (a b : ℕ) : ℕ := min (a + b) (2 ^ 64 - 1)

/-- The page loop of `parse_document`. -/
def pageBlocks (limits : PdfConfig) :
    List (Option String) → ℕ → List DocumentBlock → Except PdfError (List DocumentBlock)
  | [], _, blocks => .ok blocks
  | page :: rest, textBytes, blocks => do
      let pageText ← okOr page PdfError.malformed
      let textBytes := saturatingAdd textBytes pageText.utf8ByteSize
      require (textBytes ≤ limits.maxTextBytes) PdfError.resourceLimit
      pageBlocks limits rest textBytes
        (blocks ++ (normalizedParagraph pageText).toList.map paragraphBlock)

/-! ### Conversion -/

/-- `DIRECT_PDF_STRATEGY`. -/
def directPdfStrategy : String := "direct_pdf"

/-- `decryption_failure`. -/
def decryptionFailure : DecryptionError → PdfError
  | .incorrectPassword => .encrypted
  | .other => .malformed

/-- `pdf_identity_error`. -/
def pdfIdentityError : DocumentIrError → PdfError
  | .serialization => .serialization
  | _ => .invalidIdentity

/-- The file of some bytes, decrypted if it has to be. -/
def openPdf (lib : PdfLib) (bytes : List UInt8) : Except PdfError PdfFile := do
  let file ← okOr (lib.loadMem bytes) PdfError.malformed
  if file.encrypted then (lib.decrypt file).mapError decryptionFailure else .ok file

/-- `parse_document` up to the assembly. -/
def pdfAssembly (lib : PdfLib) (input : DocumentInput) (limits : PdfConfig) :
    Except PdfError (Assembly × List CandidateDecision) := do
  require (input.bytes.length ≤ limits.maxInputBytes) PdfError.resourceLimit
  let file ← openPdf lib input.bytes
  require (file.pages.length ≤ limits.maxPages) PdfError.resourceLimit
  let title ← metadataTitle lib file
  require (file.pages.length < 2 ^ 32) PdfError.resourceLimit
  let blocks ← pageBlocks limits file.pages 0 []
  let decision := evaluatePlainText directPdfStrategy blocks title
  require decision.accepted (PdfError.noTextLayer [decision])
  return (⟨directPdfStrategy, title, none, blocks⟩, [{ decision with selected := true }])

/-- `from_pdf`. -/
def fromPdf (lib : PdfLib) (input : DocumentInput) (limits : PdfConfig) :
    Except PdfError Extraction := do
  let (assembly, decisions) ← pdfAssembly lib input limits
  let document ← (assembly.document lib.documents input.owner input.sourceAddress
    input.sourceBlob).mapError pdfIdentityError
  return ⟨document, decisions⟩

end Extractor
