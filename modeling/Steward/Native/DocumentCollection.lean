import Steward.Native.DocumentDiscovery
import Steward.Session.ScopedPath

/-!
# Document collections

A plan names documents, from a Snapshot or from a scan of the scope, and each of
them is revalidated before it is read. Plan and revalidation take the format of
a document from its path, each with a table of its own: `revalidate_planned_iff`
says which documents pass.
-/

namespace Steward.Native

open Py Sqlite Steward.Session

variable {F : Type} [SqliteFloat F]

/-! ## Plans -/

/-- An entry of a Snapshot and its id. -/
structure DocumentEntry extends FilesystemEntry where
  entryId : Text

/-- What a plan reads of a verified Snapshot. -/
structure DocumentSnapshot where
  valid : Bool
  snapshotId : Text
  runId : Text
  snapshotDigest : Text
  scopeIds : List Text
  entries : List DocumentEntry

/-- `SnapshotDocumentPlan` and `CurrentDocumentPlan` -/
structure PlannedDocuments extends DocumentPlan where
  query : Text
  matchedCount : Nat
  returnedCount : Nat
  hasMore : Bool
  partialScan : Bool
  warnings : List Text
  candidateSetDigest : Text

/-- `_historical_payload_sha256` -/
def historicalPayloadSha256 (entry : FilesystemEntry) : Option Text := do
  let observation := (← entry.v2).payloadObservation
  if observation.hashed ∧ observation.algorithm = some (txt "sha256") then observation.digest else none

/-- `verified_snapshot_document_entries` -/
def verifiedSnapshotDocumentEntries (snapshot : DocumentSnapshot) (scopeId : Option Text) :
    Result (List DocumentEntry) :=
  if scopeId.any fun scopeId => scopeId ∉ snapshot.scopeIds then .error (.steward .snapshotScopeError)
  else if snapshot.valid = false then .error (.steward .storageCorruptionError)
  else .ok (snapshot.entries.filter fun entry =>
    scopeId.all (fun scopeId => entry.scopeId = scopeId) && entry.objectType = .regularFile && !entry.excluded)

def DocumentSnapshot.historical (snapshot : DocumentSnapshot) (entry : DocumentEntry) :
    HistoricalDocumentIdentity where
  snapshotId := snapshot.snapshotId
  runId := snapshot.runId
  snapshotDigest := snapshot.snapshotDigest
  entryId := entry.entryId
  scopeId := entry.scopeId
  relativePath := entry.relativePath
  sizeBytes := entry.sizeBytes
  mtimeNs := entry.mtimeNs
  deviceId := entry.deviceId
  inode := entry.inode
  payloadSha256 := historicalPayloadSha256 entry.toFilesystemEntry

/-- A match, its candidate and the path it is sorted by. -/
def snapshotMatch (T : PathTable) (snapshot : DocumentSnapshot) (extensions : List Text) (query : Text)
    (entry : DocumentEntry) : Option ((Int ×ₗ Int) × Text × DocumentCandidate) := do
  let suffix ← T.extensionIn extensions entry.relativePath
  let (rank, matchKind) ← T.matchDocumentPath entry.relativePath query
  some (matchOrder rank entry.mtimeNs, entry.relativePath,
    .snapshot rank matchKind (T.plainFormat suffix) (snapshot.historical entry))

/-- `relative_path.encode("utf-8")` -/
def strictPathBytes (path : Text) : Result (List Byte) :=
  match Text.encode path with
  | some bytes => .ok bytes
  | none => .error (.python .unicodeEncodeError)

def planSnapshotDocuments (F : Type) [SqliteFloat F] (T : PathTable) (snapshot : DocumentSnapshot)
    (compatibleScopeId : Option Text) (policy query : Text) (extensions : Option (List Text))
    (maxDocuments : Int) : Result PlannedDocuments := do
  checkLimit 8 maxDocuments
  let normalizedQuery ← normalizeDocumentQuery T.toUnicode query
  let normalizedExtensions ← T.normalizeDocumentExtensions extensions
  let entries ← verifiedSnapshotDocumentEntries snapshot compatibleScopeId
  let found := entries.filterMap (snapshotMatch T snapshot normalizedExtensions normalizedQuery)
  let ordered ← sortedByM (fun (m : (Int ×ₗ Int) × Text × DocumentCandidate) => do
    let bytes ← strictPathBytes m.2.1
    pure (toLex (m.1, bytes))) found
  let candidates := (ordered.take maxDocuments.toNat).map fun m => m.2.2
  let plan : DocumentPlan :=
    ⟨txt "VERIFIED_HISTORICAL_SNAPSHOT", policy, T.formats normalizedExtensions, candidates⟩
  let digest ← candidateSetDigest F plan
  pure { plan with
    query, matchedCount := found.length, returnedCount := candidates.length
    hasMore := decide (candidates.length < found.length), partialScan := false, warnings := []
    candidateSetDigest := digest }

/-- A discovered document, matched again. -/
def currentCandidate (T : PathTable) (query : Text) (item : DiscoveredDocument) : Result DocumentCandidate :=
  match T.matchDocumentPath item.relativePath query with
  | none => .error (.python .valueError)
  | some (rank, matchKind) => .ok (.current rank matchKind item.sourceFormat item.scopeId item.relativePath
      item.sizeBytes item.mtimeNs)

def planCurrentDocuments (F : Type) [SqliteFloat F] (T : PathTable) (scan : Result (List FilesystemEntry × Bool))
    (scopeId policy query : Text) (extensions : Option (List Text)) (maxDocuments : Int) :
    Result PlannedDocuments := do
  checkLimit 8 maxDocuments
  let discovery ← searchCurrentDocuments T scan scopeId query extensions maxDocuments
  let normalizedQuery ← normalizeDocumentQuery T.toUnicode query
  let candidates ← discovery.candidates.mapM (currentCandidate T normalizedQuery)
  let plan : DocumentPlan := ⟨txt "CURRENT_SCOPE_DISCOVERY", policy, discovery.extensions, candidates⟩
  let digest ← candidateSetDigest F plan
  pure { plan with
    query, matchedCount := discovery.matchedCount, returnedCount := candidates.length
    hasMore := discovery.hasMore, partialScan := discovery.partialScan, warnings := discovery.warnings
    candidateSetDigest := digest }

/-! ## Revalidation -/

inductive DocumentError where
  | path (e : PathError)
  | valueError (message : Text)
  | osError
  | stopIteration
  deriving DecidableEq, Repr

/-- `JPG`, `TIF` and `TIFF` under the names the parsers use. -/
def canonicalSuffix (suffix : Text) : Text :=
  if suffix = txt "JPG" then txt "JPEG"
  else if suffix = txt "TIF" ∨ suffix = txt "TIFF" then txt "TIFF"
  else suffix

/-- The format revalidation takes from the names of a path. -/
def PathTable.currentFormat (T : PathTable) (names : List Text) : Text :=
  canonicalSuffix (T.upper (stripDots (T.casefold (suffixOf (nameOf names)))))

def metadataRelation (expected : List (Option Int)) (observed : List Int) : Text :=
  if none ∈ expected then txt "UNKNOWN"
  else if observed.map some = expected then txt "METADATA_MATCH"
  else txt "METADATA_CHANGED"

/-- The path of the first scope of the name. -/
def documentPath (scopes : List ScopeConfig) (scopeId relativePath : Text) : Option HostPath :=
  (scopes.find? fun scope => scope.scopeId = scopeId).map fun scope => scope.joined relativePath

/-- The checks both revalidations make, and the identity they return. -/
def revalidateDocument (T : PathTable) (fs : FileSystem) (scopes : List ScopeConfig)
    (scopeId relativePath sourceFormat mismatch : Text) (relation : FileState → Text)
    (payloadSha256 : Option Text) : Except DocumentError CurrentDocumentIdentity := do
  let resolved ← (resolveScopedPath fs scopes scopeId relativePath).mapError .path
  match documentPath scopes resolved.scopeId resolved.relativePath with
  | none => throw .stopIteration
  | some path =>
    match fs.lstat path with
    | none => throw .osError
    | some metadata =>
      if metadata.kind ≠ .regular then
        throw (.valueError (txt "current document candidate is not a regular file"))
      else if T.currentFormat path ≠ sourceFormat then throw (.valueError mismatch)
      else pure {
        sourceKind := txt "CURRENT_FILESYSTEM_DOCUMENT"
        scopeId := resolved.scopeId
        relativePath := resolved.relativePath
        sourceFormat := T.currentFormat path
        sizeBytes := metadata.size
        mtimeNs := metadata.mtimeNs
        deviceId := metadata.device
        inode := metadata.inode
        historicalMetadataRelation := relation metadata
        historicalPayloadSha256 := payloadSha256 }

def revalidateSnapshotDocument (T : PathTable) (fs : FileSystem) (scopes : List ScopeConfig)
    (sourceFormat : Text) (historical : HistoricalDocumentIdentity) :
    Except DocumentError CurrentDocumentIdentity :=
  revalidateDocument T fs scopes historical.scopeId historical.relativePath sourceFormat
    (txt "current document format differs from the historical candidate")
    (fun st => metadataRelation
      [historical.sizeBytes, historical.mtimeNs, historical.deviceId, historical.inode]
      [st.size, st.mtimeNs, st.device, st.inode])
    historical.payloadSha256

def revalidateCurrentDocument (T : PathTable) (fs : FileSystem) (scopes : List ScopeConfig)
    (sourceFormat scopeId relativePath : Text) (discoveredSizeBytes discoveredMtimeNs : Option Int) :
    Except DocumentError CurrentDocumentIdentity :=
  revalidateDocument T fs scopes scopeId relativePath sourceFormat
    (txt "current document format differs from discovery")
    (fun st => metadataRelation [discoveredSizeBytes, discoveredMtimeNs] [st.size, st.mtimeNs])
    none

/-- The revalidation of a candidate, by its kind. -/
def revalidate (T : PathTable) (fs : FileSystem) (scopes : List ScopeConfig) :
    DocumentCandidate → Except DocumentError CurrentDocumentIdentity
  | .snapshot _ _ sourceFormat historical => revalidateSnapshotDocument T fs scopes sourceFormat historical
  | .current _ _ sourceFormat scopeId relativePath size mtime =>
    revalidateCurrentDocument T fs scopes sourceFormat scopeId relativePath size mtime

/-! ## Planned documents pass -/

namespace DocumentCandidate

def sourceFormat : DocumentCandidate → Text
  | snapshot _ _ format _ => format
  | current _ _ format .. => format

def scopeId : DocumentCandidate → Text
  | snapshot _ _ _ historical => historical.scopeId
  | current _ _ _ scope .. => scope

def relativePath : DocumentCandidate → Text
  | snapshot _ _ _ historical => historical.relativePath
  | current _ _ _ _ path .. => path

/-- The metadata that the plan has recorded. -/
def expected : DocumentCandidate → List (Option Int)
  | snapshot _ _ _ h => [h.sizeBytes, h.mtimeNs, h.deviceId, h.inode]
  | current _ _ _ _ _ size mtime => [size, mtime]

/-- The same fields of a current file. -/
def compared (st : FileState) : DocumentCandidate → List Int
  | snapshot .. => [st.size, st.mtimeNs, st.device, st.inode]
  | current .. => [st.size, st.mtimeNs]

/-- The format a plan gives an extension. -/
def plannedFormat (T : PathTable) (suffix : Text) : DocumentCandidate → Text
  | snapshot .. => T.plainFormat suffix
  | current .. => T.discoveredFormat suffix

/-- The extensions that the plan and revalidation name differently. -/
def renamed : DocumentCandidate → List Text
  | snapshot .. => [txt ".jpg", txt ".tif"]
  | current .. => [txt ".jpg", txt ".tif", txt ".m4v"]

end DocumentCandidate

/-- The candidates of both kinds of plan. -/
inductive Planned (F : Type) [SqliteFloat F] (T : PathTable) : DocumentCandidate → Prop
  | snapshot {snapshot : DocumentSnapshot} {scopeId : Option Text} {policy query : Text}
      {extensions : Option (List Text)} {maxDocuments : Int} {plan : PlannedDocuments}
      {candidate : DocumentCandidate}
      (hplan : planSnapshotDocuments F T snapshot scopeId policy query extensions maxDocuments = .ok plan)
      (h : candidate ∈ plan.candidates) : Planned F T candidate
  | current {scan : Result (List FilesystemEntry × Bool)} {scopeId policy query : Text}
      {extensions : Option (List Text)} {maxDocuments : Int} {plan : PlannedDocuments}
      {candidate : DocumentCandidate}
      (hplan : planCurrentDocuments F T scan scopeId policy query extensions maxDocuments = .ok plan)
      (h : candidate ∈ plan.candidates) : Planned F T candidate

/-- The identity names the candidate, and its relation tells what the comparison of the file with the
recorded metadata found. -/
structure Reports (candidate : DocumentCandidate) (st : FileState) (identity : CurrentDocumentIdentity) :
    Prop where
  scopeId : identity.scopeId = candidate.scopeId
  relativePath : identity.relativePath = candidate.relativePath
  sourceFormat : identity.sourceFormat = candidate.sourceFormat
  matched : identity.historicalMetadataRelation = txt "METADATA_MATCH" ↔
    candidate.expected = (candidate.compared st).map some
  changed : identity.historicalMetadataRelation = txt "METADATA_CHANGED" ↔
    none ∉ candidate.expected ∧ candidate.expected ≠ (candidate.compared st).map some
  unknown : identity.historicalMetadataRelation = txt "UNKNOWN" ↔ none ∈ candidate.expected

section
variable {T : PathTable} {candidate : DocumentCandidate} {fs : FileSystem} {scopes : List ScopeConfig}
  {path : HostPath} {st : FileState} {suffix : Text}

theorem normalizeDocumentExtensions_supported {extensions : Option (List Text)} {normalized : List Text}
    (h : T.normalizeDocumentExtensions extensions = .ok normalized) (hs : suffix ∈ normalized) :
    suffix ∈ supportedDocumentExtensions := by
  unfold PathTable.normalizeDocumentExtensions at h
  cases extensions with
  | none => cases h; exact hs
  | some items =>
    dsimp only at h
    split_ifs at h with hbad
    cases h
    rw [not_or, Bool.not_eq_true, List.any_eq_false] at hbad
    simpa using hbad.2 suffix hs

theorem extensionIn_eq_some {extensions : List Text} {relativePath : Text} :
    T.extensionIn extensions relativePath = some suffix ↔
      T.casefold (pathSuffix relativePath) = suffix ∧ suffix ∈ extensions := by
  unfold PathTable.extensionIn
  constructor
  · intro h
    dsimp only at h
    split_ifs at h with hmem
    exact ⟨Option.some.inj h, Option.some.inj h ▸ hmem⟩
  · rintro ⟨rfl, hmem⟩
    exact if_pos hmem

/-- A plan takes the format of a candidate from the supported extension of its path. -/
structure PlannedBy (T : PathTable) (candidate : DocumentCandidate) : Prop where
  supported : T.casefold (pathSuffix candidate.relativePath) ∈ supportedDocumentExtensions
  format : candidate.sourceFormat =
    candidate.plannedFormat T (T.casefold (pathSuffix candidate.relativePath))

theorem snapshotMatch_planned {snapshot : DocumentSnapshot} {extensions : List Text} {query : Text}
    {entry : DocumentEntry} {m : (Int ×ₗ Int) × Text × DocumentCandidate}
    (hext : ∀ e ∈ extensions, e ∈ supportedDocumentExtensions)
    (h : snapshotMatch T snapshot extensions query entry = some m) : PlannedBy T m.2.2 := by
  unfold snapshotMatch at h
  obtain ⟨suffix, hsuffix, h⟩ := Option.bind_eq_some_iff.1 h
  obtain ⟨⟨rank, matchKind⟩, -, h⟩ := Option.bind_eq_some_iff.1 h
  obtain ⟨rfl, hmem⟩ := extensionIn_eq_some.1 hsuffix
  cases h
  exact ⟨hext _ hmem, rfl⟩

theorem currentMatch_planned {extensions : List Text} {query query' : Text} {entry : FilesystemEntry}
    {m : (Int ×ₗ Int) × DiscoveredDocument} (hext : ∀ e ∈ extensions, e ∈ supportedDocumentExtensions)
    (h : T.currentMatch extensions query entry = some m) (hc : currentCandidate T query' m.2 = .ok candidate) :
    PlannedBy T candidate := by
  unfold PathTable.currentMatch at h
  split_ifs at h
  obtain ⟨suffix, hsuffix, h⟩ := Option.bind_eq_some_iff.1 h
  obtain ⟨⟨rank, matchKind⟩, -, h⟩ := Option.bind_eq_some_iff.1 h
  obtain ⟨rfl, hmem⟩ := extensionIn_eq_some.1 hsuffix
  cases h
  unfold currentCandidate at hc
  split at hc
  · cases hc
  · cases hc
    exact ⟨hext _ hmem, rfl⟩

theorem plannedBy (h : Planned F T candidate) : PlannedBy T candidate := by
  cases h with
  | snapshot hplan h =>
    unfold planSnapshotDocuments at hplan
    obtain ⟨-, -, hplan⟩ := bind_eq_ok.1 hplan
    obtain ⟨query, -, hplan⟩ := bind_eq_ok.1 hplan
    obtain ⟨extensions, hext, hplan⟩ := bind_eq_ok.1 hplan
    obtain ⟨entries, -, hplan⟩ := bind_eq_ok.1 hplan
    obtain ⟨ordered, hsort, hplan⟩ := bind_eq_ok.1 hplan
    obtain ⟨digest, -, hplan⟩ := bind_eq_ok.1 hplan
    cases hplan
    obtain ⟨m, hm, rfl⟩ := List.mem_map.1 h
    obtain ⟨entry, -, hmatch⟩ :=
      List.mem_filterMap.1 ((mem_sortedByM hsort).1 (List.mem_of_mem_take hm))
    exact snapshotMatch_planned (fun e he => normalizeDocumentExtensions_supported hext he) hmatch
  | current hplan h =>
    unfold planCurrentDocuments at hplan
    obtain ⟨-, -, hplan⟩ := bind_eq_ok.1 hplan
    obtain ⟨discovery, hsearch, hplan⟩ := bind_eq_ok.1 hplan
    obtain ⟨query, -, hplan⟩ := bind_eq_ok.1 hplan
    obtain ⟨candidates, hcand, hplan⟩ := bind_eq_ok.1 hplan
    obtain ⟨digest, -, hplan⟩ := bind_eq_ok.1 hplan
    cases hplan
    unfold searchCurrentDocuments at hsearch
    obtain ⟨query', -, hsearch⟩ := bind_eq_ok.1 hsearch
    obtain ⟨extensions, hext, hsearch⟩ := bind_eq_ok.1 hsearch
    obtain ⟨-, -, hsearch⟩ := bind_eq_ok.1 hsearch
    obtain ⟨⟨entries, partialScan⟩, -, hsearch⟩ := bind_eq_ok.1 hsearch
    obtain ⟨ordered, hsort, hsearch⟩ := bind_eq_ok.1 hsearch
    cases hsearch
    obtain ⟨item, hitem, hc⟩ := exists_of_mem_mapM hcand h
    obtain ⟨m, hm, rfl⟩ := List.mem_map.1 hitem
    obtain ⟨entry, -, hmatch⟩ :=
      List.mem_filterMap.1 ((mem_sortedByM hsort).1 (List.mem_of_mem_take hm))
    exact currentMatch_planned (fun e he => normalizeDocumentExtensions_supported hext he) hmatch hc

/-! ### Formats -/

/-- On the supported extensions, `upper` is that of ASCII. -/
theorem upper_supported (h : suffix ∈ supportedDocumentExtensions) :
    T.upper (suffix.drop 1) = asciiUpper (suffix.drop 1) := by
  have hascii : (supportedDocumentExtensions.all fun s => (s.drop 1).all fun c => c.val < 128) = true := by
    decide
  refine T.upper_ascii _ fun c hc => ?_
  have hchar := List.all_eq_true.1 (List.all_eq_true.1 hascii suffix h) c hc
  exact of_decide_eq_true hchar

/-- Revalidation takes another format than the plan from the renamed extensions, and from no others. -/
theorem currentFormat_eq_plannedFormat (h : suffix ∈ supportedDocumentExtensions) :
    canonicalSuffix (T.upper (stripDots suffix)) = candidate.plannedFormat T suffix ↔
      suffix ∉ candidate.renamed := by
  have hdots : ∀ s ∈ supportedDocumentExtensions, stripDots s = s.drop 1 := by decide
  have hplain : ∀ s ∈ supportedDocumentExtensions,
      canonicalSuffix (asciiUpper (s.drop 1)) = asciiUpper (s.drop 1) ↔
        s ∉ [txt ".jpg", txt ".tif"] := by decide
  have hdiscovered : ∀ s ∈ supportedDocumentExtensions,
      canonicalSuffix (asciiUpper (s.drop 1)) =
          (lookup canonicalFormatByExtension s).getD (asciiUpper (s.drop 1)) ↔
        s ∉ [txt ".jpg", txt ".tif", txt ".m4v"] := by decide
  rw [hdots suffix h, upper_supported h]
  cases candidate with
  | snapshot =>
    rw [DocumentCandidate.plannedFormat, PathTable.plainFormat, upper_supported h]
    exact hplain suffix h
  | current =>
    rw [DocumentCandidate.plannedFormat, PathTable.discoveredFormat, PathTable.plainFormat,
      upper_supported h]
    exact hdiscovered suffix h

/-- The name of a joined path is the name of the relative path. -/
theorem currentFormat_joined {scope : ScopeConfig} {relativePath : Text}
    (h : PurePath.names relativePath ≠ []) :
    T.currentFormat (scope.joined relativePath) =
      canonicalSuffix (T.upper (stripDots (T.casefold (pathSuffix relativePath)))) := by
  have hname : nameOf (scope.joined relativePath) = nameOf (PurePath.names relativePath) := by
    rw [ScopeConfig.joined, nameOf, nameOf, List.getLast?_append_of_ne_nil _ h]
  rw [PathTable.currentFormat, hname, pathSuffix]

/-! ### Relations -/

theorem metadataRelation_cases (expected : List (Option Int)) (observed : List Int) :
    (metadataRelation expected observed = txt "UNKNOWN" ∧ none ∈ expected) ∨
    (metadataRelation expected observed = txt "METADATA_MATCH" ∧ expected = observed.map some) ∨
    (metadataRelation expected observed = txt "METADATA_CHANGED" ∧ none ∉ expected ∧
      expected ≠ observed.map some) := by
  unfold metadataRelation
  by_cases hnone : none ∈ expected
  · exact .inl ⟨if_pos hnone, hnone⟩
  · rw [if_neg hnone]
    by_cases heq : observed.map some = expected
    · exact .inr (.inl ⟨if_pos heq, heq.symm⟩)
    · exact .inr (.inr ⟨if_neg heq, hnone, fun h => heq h.symm⟩)

/-- A well-formed path has a name. -/
theorem names_ne_nil {relativePath : Text} (h : admitsRelativePath relativePath = true) :
    PurePath.names relativePath ≠ [] := by
  have hparts : hierarchyInvalid relativePath = false := by
    have hb := (Bool.and_eq_true_iff.1 h).2
    simp only [bindingAdmits, Bool.not_eq_true', Bool.or_eq_false_iff] at hb
    exact hb.2
  have hnames : PurePath.names relativePath = Path.components relativePath := by
    refine List.filter_eq_self.2 fun part hpart => ?_
    have hp := List.any_eq_false.1 hparts part hpart
    simp only [Bool.or_eq_true, decide_eq_true_eq, not_or] at hp
    simp [hp.1.1, hp.1.2]
  rw [hnames]
  exact List.splitOn_ne_nil _ _

/-- On a regular file that is admitted, only the format is left to decide. -/
theorem revalidateDocument_admitted {scopeId relativePath sourceFormat mismatch : Text}
    {relation : FileState → Text} {payload : Option Text} (hadm : Admitted fs scopes scopeId relativePath)
    (hpath : documentPath scopes scopeId relativePath = some path) (hfile : fs.lstat path = some st)
    (hregular : st.kind = .regular) :
    revalidateDocument T fs scopes scopeId relativePath sourceFormat mismatch relation payload =
      if T.currentFormat path ≠ sourceFormat then .error (.valueError mismatch)
      else .ok ⟨txt "CURRENT_FILESYSTEM_DOCUMENT", scopeId, relativePath, T.currentFormat path, st.size,
        st.mtimeNs, st.device, st.inode, relation st, payload⟩ := by
  rw [revalidateDocument, resolveScopedPath_eq_ok.2 ⟨hadm, rfl⟩]
  show (match documentPath scopes scopeId relativePath with
    | none => throw DocumentError.stopIteration
    | some path => _) = _
  rw [hpath]
  dsimp only
  rw [hfile]
  dsimp only
  rw [if_neg (by simp [hregular])]
  rfl

theorem admitted_of_revalidateDocument {scopeId relativePath sourceFormat mismatch : Text}
    {relation : FileState → Text} {payload : Option Text} {identity : CurrentDocumentIdentity}
    (h : revalidateDocument T fs scopes scopeId relativePath sourceFormat mismatch relation payload =
      .ok identity) : Admitted fs scopes scopeId relativePath := by
  unfold revalidateDocument at h
  cases hresolve : resolveScopedPath fs scopes scopeId relativePath with
  | error e => rw [hresolve] at h; cases h
  | ok resolved => exact (resolveScopedPath_eq_ok.1 hresolve).1

/-- What revalidation says of a format that is not the planned one. -/
def DocumentCandidate.mismatch : DocumentCandidate → Text
  | .snapshot .. => txt "current document format differs from the historical candidate"
  | .current .. => txt "current document format differs from discovery"

/-- Both revalidations compare the metadata that their plan has recorded. -/
theorem revalidate_admitted (hadm : Admitted fs scopes candidate.scopeId candidate.relativePath)
    (hpath : documentPath scopes candidate.scopeId candidate.relativePath = some path)
    (hfile : fs.lstat path = some st) (hregular : st.kind = .regular) :
    revalidate T fs scopes candidate =
      if T.currentFormat path ≠ candidate.sourceFormat then .error (.valueError candidate.mismatch)
      else .ok ⟨txt "CURRENT_FILESYSTEM_DOCUMENT", candidate.scopeId, candidate.relativePath,
        T.currentFormat path, st.size, st.mtimeNs, st.device, st.inode,
        metadataRelation candidate.expected (candidate.compared st),
        candidate.historical.bind HistoricalDocumentIdentity.payloadSha256⟩ := by
  cases candidate with
  | snapshot rank matchKind sourceFormat historical =>
    exact revalidateDocument_admitted hadm hpath hfile hregular
  | current rank matchKind sourceFormat scopeId relativePath size mtime =>
    exact revalidateDocument_admitted hadm hpath hfile hregular

theorem admitted_of_revalidate {identity : CurrentDocumentIdentity}
    (h : revalidate T fs scopes candidate = .ok identity) :
    Admitted fs scopes candidate.scopeId candidate.relativePath := by
  cases candidate with
  | snapshot => exact admitted_of_revalidateDocument h
  | current => exact admitted_of_revalidateDocument h

/-- Revalidation takes the planned format from an admitted path, but for the renamed extensions. -/
theorem currentFormat_planned (h : Planned F T candidate)
    (hadm : Admitted fs scopes candidate.scopeId candidate.relativePath)
    (hpath : documentPath scopes candidate.scopeId candidate.relativePath = some path) :
    T.currentFormat path = candidate.sourceFormat ↔
      T.casefold (pathSuffix candidate.relativePath) ∉ candidate.renamed := by
  obtain ⟨scope', -, hscope'⟩ := hadm
  unfold documentPath at hpath
  obtain ⟨scope, -, rfl⟩ := Option.map_eq_some_iff.1 hpath
  rw [currentFormat_joined (names_ne_nil hscope'.wellFormed), (plannedBy h).format]
  exact currentFormat_eq_plannedFormat (plannedBy h).supported

/-- The relation says what the comparison found, when the identity is that of the candidate. -/
theorem reports_of_relation {identity : CurrentDocumentIdentity} (hscope : identity.scopeId = candidate.scopeId)
    (hpath : identity.relativePath = candidate.relativePath)
    (hformat : identity.sourceFormat = candidate.sourceFormat)
    (hrelation : identity.historicalMetadataRelation =
      metadataRelation candidate.expected (candidate.compared st)) : Reports candidate st identity := by
  have hnone : none ∈ candidate.expected → candidate.expected ≠ (candidate.compared st).map some := by
    intro h heq
    rw [heq] at h
    simp at h
  rcases metadataRelation_cases candidate.expected (candidate.compared st) with
    ⟨h, hc⟩ | ⟨h, hc⟩ | ⟨h, hc⟩
  · rw [h] at hrelation
    exact ⟨hscope, hpath, hformat,
      iff_of_false (by rw [hrelation]; decide) (hnone hc),
      iff_of_false (by rw [hrelation]; decide) fun h => h.1 hc, iff_of_true hrelation hc⟩
  · rw [h] at hrelation
    exact ⟨hscope, hpath, hformat, iff_of_true hrelation hc,
      iff_of_false (by rw [hrelation]; decide) fun h => h.2 hc,
      iff_of_false (by rw [hrelation]; decide) fun h => hnone h hc⟩
  · rw [h] at hrelation
    exact ⟨hscope, hpath, hformat, iff_of_false (by rw [hrelation]; decide) hc.2,
      iff_of_true hrelation hc, iff_of_false (by rw [hrelation]; decide) hc.1⟩

/-- A planned document that is still a regular file passes revalidation exactly when its path is still
admitted and its extension is not one that plan and revalidation name differently. -/
theorem revalidate_planned_iff (h : Planned F T candidate)
    (hpath : documentPath scopes candidate.scopeId candidate.relativePath = some path)
    (hfile : fs.lstat path = some st) (hregular : st.kind = .regular) :
    (∃ identity, revalidate T fs scopes candidate = .ok identity ∧ Reports candidate st identity) ↔
      Admitted fs scopes candidate.scopeId candidate.relativePath ∧
        T.casefold (pathSuffix candidate.relativePath) ∉ candidate.renamed := by
  constructor
  · rintro ⟨identity, hok, -⟩
    have hadm := admitted_of_revalidate hok
    refine ⟨hadm, (currentFormat_planned h hadm hpath).1 ?_⟩
    by_contra hformat
    rw [revalidate_admitted hadm hpath hfile hregular, if_pos hformat] at hok
    cases hok
  · rintro ⟨hadm, hsuffix⟩
    have hformat := (currentFormat_planned h hadm hpath).2 hsuffix
    have hok := revalidate_admitted (T := T) hadm hpath hfile hregular
    rw [if_neg (not_not.2 hformat)] at hok
    exact ⟨_, hok, reports_of_relation rfl rfl hformat rfl⟩

end

/-! ### A photo and a report -/

namespace Album

def lower (t : Text) : Text :=
  t.map fun c => if h : 65 ≤ c.val ∧ c.val ≤ 90 then ⟨c.val + 32, lower_lt h⟩ else c

def table : PathTable where
  nfkcCasefold := lower
  casefold := lower
  upper := asciiUpper
  word c := (97 ≤ c.val && c.val ≤ 122) || (48 ≤ c.val && c.val ≤ 57) || c = ch '_'
  upper_ascii _ _ := rfl

def entry (path : Text) : DocumentEntry where
  entryId := txt "e1"
  snapshotId := txt "s1"
  scopeId := txt "album"
  relativePath := path
  objectType := .regularFile
  deviceId := some 1
  inode := some 7
  mode := none
  uid := none
  gid := none
  sizeBytes := some 40
  mtimeNs := some 5
  ctimeNs := none
  birthtimeNs := none
  linkCount := some 1
  symlinkTargetRaw := none
  readable := true
  writable := true
  executable := false
  observationStatus := .observed
  errorCode := none
  errorMessage := none
  excluded := false
  v2 := none

def snapshot (path : Text) : DocumentSnapshot :=
  ⟨true, txt "s1", txt "r1", txt "d1", [txt "album"], [entry path]⟩

def candidate (path format : Text) : DocumentCandidate :=
  .snapshot 1 (txt "BASENAME_PREFIX") format ((snapshot path).historical (entry path))

def plan (path format : Text) : DocumentPlan :=
  ⟨txt "VERIFIED_HISTORICAL_SNAPSHOT", txt "LATEST_VALID",
    table.formats supportedDocumentExtensions, [candidate path format]⟩

def scope : ScopeConfig :=
  ⟨txt "album", .managedRoot, txt "/album", [txt "album"], true, false, false⟩

/-- The metadata that the Snapshot has recorded. -/
def file : FileState := ⟨.regular, 40, 5, 1, 7⟩

def fs : FileSystem where
  lstat path := if path = [txt "album"] then some ⟨.directory, 0, 0, 1, 2⟩ else some file
  configured _ := .ok ⟨.directory, 0, 0, 1, 2⟩

/-- The album's one document is planned. -/
theorem planned {path format : Text} {bytes : List Byte} (hbytes : Text.encode path = some bytes)
    (hmatch : snapshotMatch table (snapshot path) supportedDocumentExtensions (txt "trip") (entry path) =
      some (toLex (1, -5), path, candidate path format))
    (hsafe : (candidateSet [candidate path format] : Value Integral).safe = true) :
    Planned Integral table (candidate path format) := by
  obtain ⟨digest, hdigest⟩ : Ok (candidateSetDigest Integral (plan path format)) := ok_digestOf.2 hsafe
  have hplan : planSnapshotDocuments Integral table (snapshot path) none (txt "LATEST_VALID")
      (txt "trip") none 4 = .ok ⟨plan path format, txt "trip", 1, 1, false, false, [], digest⟩ := by
    refine bind_eq_ok.2 ⟨(), rfl, bind_eq_ok.2 ⟨txt "trip", by decide, ?_⟩⟩
    refine bind_eq_ok.2 ⟨supportedDocumentExtensions, rfl, bind_eq_ok.2 ⟨[entry path], rfl, ?_⟩⟩
    simp only [List.filterMap_cons, hmatch, List.filterMap_nil]
    refine bind_eq_ok.2 ⟨[(toLex (1, -5), path, candidate path format)], ?_, ?_⟩
    · simp only [sortedByM, strictPathBytes, hbytes, List.mapM_cons, List.mapM_nil]
      rfl
    · exact bind_eq_ok.2 ⟨digest, hdigest, rfl⟩
  exact .snapshot hplan (List.mem_singleton_self _)

end Album

/-- A PDF, in upper case, passes. -/
theorem revalidate_report : ∃ identity,
    revalidate Album.table Album.fs [Album.scope] (Album.candidate (txt "trip.PDF") (txt "PDF")) = .ok identity ∧
      Reports (Album.candidate (txt "trip.PDF") (txt "PDF")) Album.file identity := by
  have hplanned : Planned Integral Album.table (Album.candidate (txt "trip.PDF") (txt "PDF")) :=
    Album.planned rfl rfl (by decide +kernel)
  have hpath : documentPath [Album.scope] (txt "album") (txt "trip.PDF") =
      some [txt "album", txt "trip.PDF"] := by decide
  have hadm : resolveScopedPath Album.fs [Album.scope] (txt "album") (txt "trip.PDF") =
      .ok ⟨txt "album", txt "trip.PDF"⟩ := by decide
  have hfile : Album.fs.lstat [txt "album", txt "trip.PDF"] = some Album.file := by decide
  exact (revalidate_planned_iff hplanned hpath hfile rfl).2
    ⟨(resolveScopedPath_eq_ok.1 hadm).1, by decide⟩

/-- A photo that is still what the Snapshot has recorded is refused: the plan calls its format `JPG`, and
revalidation calls it `JPEG`. -/
theorem photo_refused : Planned Integral Album.table (Album.candidate (txt "trip.jpg") (txt "JPG")) ∧
    documentPath [Album.scope] (txt "album") (txt "trip.jpg") = some [txt "album", txt "trip.jpg"] ∧
    Album.fs.lstat [txt "album", txt "trip.jpg"] = some Album.file ∧
    (Album.candidate (txt "trip.jpg") (txt "JPG")).expected =
      ((Album.candidate (txt "trip.jpg") (txt "JPG")).compared Album.file).map some ∧
    Admitted Album.fs [Album.scope] (txt "album") (txt "trip.jpg") ∧
    revalidate Album.table Album.fs [Album.scope] (Album.candidate (txt "trip.jpg") (txt "JPG")) =
      .error (.valueError (txt "current document format differs from the historical candidate")) := by
  have hadm : resolveScopedPath Album.fs [Album.scope] (txt "album") (txt "trip.jpg") =
      .ok ⟨txt "album", txt "trip.jpg"⟩ := by decide
  refine ⟨Album.planned rfl rfl (by decide +kernel), by decide, by decide, by decide,
    (resolveScopedPath_eq_ok.1 hadm).1, ?_⟩
  rfl

end Steward.Native
