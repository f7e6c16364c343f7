import ImposbroSearch.Foundation.JsonCharacters
import ImposbroSearch.Foundation.Lines
import ImposbroSearch.Indexing.Envelope

/-!
# Reading the export of a collection

A cluster exports a collection as JSON lines. The executor splits the export into lines
itself, and at more characters than the newline: a document whose strings have one of the
others is torn apart.
-/

namespace ImposbroSearch.Migration

open ImposbroSearch.Foundation ImposbroSearch.Indexing

/-- What a client returns for an export. -/
inductive RawExport where
  | bytes (bytes : List ℕ)
  | text (text : Text)
  | other

/-- Why an export is not read: a `RoutingMigrationError` with its message, or an error of the
decoder or the reader that is not caught. -/
inductive ExportError where
  | migration (message : String)
  | undecodable
  | tooManyDigits
  deriving DecidableEq

section Parsing

variable {F : Type} [PyFloat F] (clusterName : ClusterName)

/-- The checks of one document. -/
def checkDocument (document : JsonValue F) : Except ExportError (JsonValue F) :=
  match document.json with
  | .object fields =>
    match fields.lookup (chars "id") with
    | some (.str (_ :: _)) => .ok document
    | _ =>
      .error (.migration ("Cluster '" ++ clusterName ++ "' exported a document without a string id"))
  | _ => .error (.migration ("Cluster '" ++ clusterName ++ "' returned a non-object document"))

/-- The document of a line that is not blank. -/
def parseLine (lineNumber : ℕ) (line : Text) : Except ExportError (JsonValue F) :=
  match Json.loads line with
  | .error .malformed =>
    .error (.migration ("Cluster '" ++ clusterName ++ "' returned invalid JSONL at line " ++
      toString lineNumber))
  | .error .tooManyDigits => .error .tooManyDigits
  | .ok document => checkDocument clusterName document

/-- The loop over the lines, from a line number on. -/
def parseLines (lineNumber : ℕ) : List Text → Except ExportError (List (JsonValue F))
  | [] => .ok []
  | line :: lines =>
    if isVisible line then
      match parseLine clusterName lineNumber line with
      | .error error => .error error
      | .ok document =>
        match parseLines (lineNumber + 1) lines with
        | .error error => .error error
        | .ok documents => .ok (document :: documents)
    else parseLines (lineNumber + 1) lines

/-- `_parse_export`, run to its end. -/
def parseExport : RawExport → Except ExportError (List (JsonValue F))
  | .bytes bytes =>
    match utf8Decode bytes with
    | none => .error .undecodable
    | some text => parseLines clusterName 1 (splitLines text)
  | .text text => parseLines clusterName 1 (splitLines text)
  | .other =>
    .error (.migration ("Cluster '" ++ clusterName ++ "' returned a non-text document export"))

end Parsing

/-! ## Documents and their export -/

/-- A stored document: an object whose id is a string that is not empty. -/
structure StoredDocument (F : Type) where
  fields : List (Text × Json F)
  unique : (Json.object fields).Unique
  id : ∃ documentId, fields.lookup (chars "id") = some (.str documentId) ∧ documentId ≠ []

namespace StoredDocument

variable {F : Type} (document : StoredDocument F)

def value : JsonValue F := ⟨.object document.fields, document.unique⟩

variable [PyFloat F]

/-- The line of a document, where nothing beyond ASCII is escaped. -/
def line : Text := Json.print Json.compact document.value.json

end StoredDocument

section RoundTrip

variable {F : Type} [PyFloat F] {clusterName : ClusterName}

/-- The export of a collection: a line for each document. -/
def exportText (documents : List (StoredDocument F)) : Text :=
  joinLines (documents.map (·.line))

/-- The bytes of an export are read as its text is. -/
theorem parse_export_bytes (documents : List (StoredDocument F)) {bytes : List ℕ}
    (encoded : utf8Encode (exportText documents) = some bytes) :
    parseExport (F := F) clusterName (.bytes bytes) =
      parseExport clusterName (.text (exportText documents)) := by
  simp only [parseExport, utf8Decode_encode encoded]

end RoundTrip

end ImposbroSearch.Migration
