import Steward.Analysis.Duplicates
import Steward.Native.EvidenceSet
import Steward.Py.PurePath

/-!
# Document discovery

`search_current_documents`: the regular files of a scan whose extension is
supported and whose path matches the query, in the order of the match, the
newest first. What the interpreter knows of Unicode is given; on ASCII texts
`upper` is known.
-/

namespace Steward.Native

open Py

/-- The text methods that look at paths. -/
structure PathTable extends Unicode where
  casefold : Text → Text
  upper : Text → Text
  /-- `\w` -/
  word : CodePoint → Bool
  upper_ascii : ∀ t : Text, (∀ c ∈ t, c.val < 128) → upper t = asciiUpper t

/-- `SUPPORTED_DOCUMENT_EXTENSIONS` -/
def supportedDocumentExtensions : List Text :=
  [txt ".pdf", txt ".epub", txt ".docx", txt ".xlsx", txt ".pptx", txt ".png", txt ".jpg", txt ".jpeg",
    txt ".tif", txt ".tiff", txt ".wav", txt ".flac", txt ".mp3", txt ".m4a", txt ".aac", txt ".ogg",
    txt ".opus", txt ".mp4", txt ".m4v", txt ".mov", txt ".mkv", txt ".webm"]

/-- `_CANONICAL_FORMAT_BY_EXTENSION` -/
def canonicalFormatByExtension : List (Text × Text) := [(txt ".m4v", txt "MP4")]

/-! ## Names -/

/-- `Path(...).name`, by the names of the path -/
def nameOf (names : List Text) : Text := names.getLast?.getD []

/-- The suffix of a name: it starts at the last dot, which is neither first nor last. -/
def suffixOf (name : Text) : Text :=
  let tail := (name.reverse.takeWhile (· ≠ ch '.')).reverse
  if tail ≠ [] ∧ tail.length + 1 < name.length then ch '.' :: tail else []

/-- `Path(relative_path).suffix` -/
def pathSuffix (relativePath : Text) : Text := suffixOf (nameOf (PurePath.names relativePath))

/-- `text.lstrip(".")` -/
def stripDots (text : Text) : Text := text.dropWhile (· = ch '.')

namespace PathTable

variable (T : PathTable)

def normalizeDocumentExtensions (extensions : Option (List Text)) : Result (List Text) :=
  match extensions with
  | none => .ok supportedDocumentExtensions
  | some items =>
    let normalized := sortedSet (items.map fun item => ch '.' :: stripDots (T.casefold item))
    if normalized = [] ∨ normalized.any fun item => item ∉ supportedDocumentExtensions then
      .error (.python .valueError)
    else .ok normalized

/-- The tokens of a query: runs of word characters, dots and hyphens. -/
def queryTokens (query : Text) : List Text :=
  (query.splitOnP fun c => !(T.word c || c = ch '.' || c = ch '-')).filter (· ≠ [])

def matchDocumentPath (relativePath query : Text) : Option (Int × Text) :=
  let path := T.nfkcCasefold relativePath
  let basename := T.nfkcCasefold (nameOf (PurePath.names relativePath))
  let tokens := T.queryTokens query
  if basename = query then some (0, txt "BASENAME_EXACT")
  else if basename.startsWith query then some (1, txt "BASENAME_PREFIX")
  else if Text.hasInfix query path then some (2, txt "PATH_CONTAINS")
  else if tokens ≠ [] ∧ tokens.all fun token => Text.hasInfix token path then some (3, txt "TOKEN_MATCH")
  else none

/-- The extension of the path, when it is one of `extensions`. -/
def extensionIn (extensions : List Text) (relativePath : Text) : Option Text :=
  let suffix := T.casefold (pathSuffix relativePath)
  if suffix ∈ extensions then some suffix else none

/-- `suffix[1:].upper()` -/
def plainFormat (suffix : Text) : Text := T.upper (suffix.drop 1)

/-- The format that discovery gives an extension. -/
def discoveredFormat (suffix : Text) : Text :=
  (lookup canonicalFormatByExtension suffix).getD (T.plainFormat suffix)

end PathTable

/-! ## Search -/

/-- A candidate of the search, as its members are read. -/
structure DiscoveredDocument where
  scopeId : Text
  relativePath : Text
  sourceFormat : Text
  sizeBytes : Option Int
  mtimeNs : Option Int
  readable : Bool
  matchKind : Text
  deriving DecidableEq

structure DocumentDiscovery where
  partialScan : Bool
  scopeId : Text
  query : Text
  extensions : List Text
  examinedEntries : Nat
  matchedCount : Nat
  returnedCount : Nat
  hasMore : Bool
  candidates : List DiscoveredDocument
  warnings : List Text
  deriving DecidableEq

/-- `1 <= limit <= maximum` -/
def checkLimit (maximum limit : Int) : Result Unit :=
  if 1 ≤ limit ∧ limit ≤ maximum then .ok () else .error (.python .valueError)

/-- What a match is sorted by before its path: the rank, and the newest first. -/
def matchOrder (rank : Int) (mtimeNs : Option Int) : Int ×ₗ Int := toLex (rank, -mtimeNs.getD 0)

/-- `item[1:].upper()` of each extension -/
def PathTable.formats (T : PathTable) (extensions : List Text) : List Text := extensions.map T.plainFormat

/-- The entries that a search examines. -/
def examined (entries : List FilesystemEntry) : List FilesystemEntry :=
  entries.filter fun entry => !(entry.relativePath = txt "." || entry.excluded)

/-- A match and its candidate. -/
def PathTable.currentMatch (T : PathTable) (extensions : List Text) (query : Text) (entry : FilesystemEntry) :
    Option ((Int ×ₗ Int) × DiscoveredDocument) :=
  if entry.objectType ≠ .regularFile then none
  else do
    let suffix ← T.extensionIn extensions entry.relativePath
    let (rank, matchKind) ← T.matchDocumentPath entry.relativePath query
    some (matchOrder rank entry.mtimeNs, ⟨entry.scopeId, entry.relativePath, T.discoveredFormat suffix,
      entry.sizeBytes, entry.mtimeNs, entry.readable, matchKind⟩)

/-- `search_current_documents` on what the scan returned -/
def searchCurrentDocuments (T : PathTable) (scan : Result (List FilesystemEntry × Bool)) (scopeId query : Text)
    (extensions : Option (List Text)) (limit : Int) : Result DocumentDiscovery := do
  let normalizedQuery ← normalizeDocumentQuery T.toUnicode query
  let normalizedExtensions ← T.normalizeDocumentExtensions extensions
  checkLimit 50 limit
  let (entries, partialScan) ← scan
  let found := (examined entries).filterMap (T.currentMatch normalizedExtensions normalizedQuery)
  let ordered ← sortedByM (fun (m : (Int ×ₗ Int) × DiscoveredDocument) => do
    let bytes ← pathBytes m.2.relativePath
    pure (toLex (m.1, bytes))) found
  let candidates := (ordered.take limit.toNat).map Prod.snd
  pure {
    partialScan
    scopeId
    query
    extensions := T.formats normalizedExtensions
    examinedEntries := (examined entries).length
    matchedCount := found.length
    returnedCount := candidates.length
    hasMore := decide (limit < found.length)
    candidates
    warnings := if partialScan then [txt "DISCOVERY_BUDGET_REACHED"] else [] }

end Steward.Native
