import Steward.Runs.Coordinator

/-!
# Document evidence sets

`_document_evidence_set`: a batch of the planned candidates is inspected, and a
continuation that is bound to the request and to the plan is published while
candidates are left. What revalidation, inspection and the packet builder do is
given; each sees and changes an environment of its own, and may raise.
-/

namespace Steward.Native

open Py Sqlite

variable {F σ : Type}

/-! ## Candidates and plans -/

/-- `HistoricalDocumentIdentity` -/
structure HistoricalDocumentIdentity where
  snapshotId : Text
  runId : Text
  snapshotDigest : Text
  entryId : Text
  scopeId : Text
  relativePath : Text
  sizeBytes : Option Int
  mtimeNs : Option Int
  deviceId : Option Int
  inode : Option Int
  payloadSha256 : Option Text
  deriving DecidableEq

/-- `SnapshotDocumentCandidate` and `CurrentDocumentCandidate` -/
inductive DocumentCandidate where
  | snapshot (rank : Int) (matchKind sourceFormat : Text) (historical : HistoricalDocumentIdentity)
  | current (rank : Int) (matchKind sourceFormat scopeId relativePath : Text)
      (discoveredSizeBytes discoveredMtimeNs : Option Int)
  deriving DecidableEq

def DocumentCandidate.historical : DocumentCandidate → Option HistoricalDocumentIdentity
  | .snapshot _ _ _ historical => some historical
  | .current .. => none

def optionalInt : Option Int → Value F
  | some n => .int n
  | none => .none

def optionalStr : Option Text → Value F
  | some t => .str t
  | none => .none

def HistoricalDocumentIdentity.machineObject (h : HistoricalDocumentIdentity) : List (Text × Value F) :=
  [(txt "snapshot_id", .str h.snapshotId), (txt "run_id", .str h.runId),
    (txt "snapshot_digest", .str h.snapshotDigest), (txt "entry_id", .str h.entryId),
    (txt "scope_id", .str h.scopeId), (txt "relative_path", .str h.relativePath),
    (txt "size_bytes", optionalInt h.sizeBytes), (txt "mtime_ns", optionalInt h.mtimeNs),
    (txt "device_id", optionalInt h.deviceId), (txt "inode", optionalInt h.inode),
    (txt "payload_sha256", optionalStr h.payloadSha256)]

/-- `asdict(candidate)` -/
def DocumentCandidate.machineObject : DocumentCandidate → List (Text × Value F)
  | .snapshot rank matchKind sourceFormat historical =>
    [(txt "rank", .int rank), (txt "match_kind", .str matchKind),
      (txt "source_format", .str sourceFormat), (txt "historical", .dict historical.machineObject)]
  | .current rank matchKind sourceFormat scopeId relativePath size mtime =>
    [(txt "rank", .int rank), (txt "match_kind", .str matchKind),
      (txt "source_format", .str sourceFormat), (txt "scope_id", .str scopeId),
      (txt "relative_path", .str relativePath), (txt "discovered_size_bytes", optionalInt size),
      (txt "discovered_mtime_ns", optionalInt mtime)]

/-- The object that `candidate_set_digest` is a digest of. -/
def candidateSet (candidates : List DocumentCandidate) : Value F :=
  .list (candidates.map fun c => .dict c.machineObject)

/-- What the operation uses of a `SnapshotDocumentPlan` or a `CurrentDocumentPlan`. -/
structure DocumentPlan where
  sourceKind : Text
  selectionPolicy : Text
  extensions : List Text
  candidates : List DocumentCandidate
  deriving DecidableEq

/-! ## Requests -/

/-- The arguments of the operation, as its checks admit them. A timeout between 5 and 120 is
a finite float. -/
structure CollectionRequest (F : Type) [PyFloat F] where
  query : Text
  contentQuery : Text
  maxDocuments : Nat
  batchSize : Nat
  parserTimeoutSeconds : F
  evidenceMode : Text
  evidenceContextItems : Int
  evidenceMaxCharacters : Int
  contentLimit : Int
  fullDetail : Bool
  documents_range : 1 ≤ maxDocuments ∧ maxDocuments ≤ 8
  batch_range : 1 ≤ batchSize ∧ batchSize ≤ 2
  timeout_range : PyFloat.intLe 5 parserTimeoutSeconds ∧ PyFloat.leInt parserTimeoutSeconds 120
  timeout_finite : PyFloat.isFinite parserTimeoutSeconds

/-- Unicode, as the interpreter has it: `normalize("NFKC", text).casefold()`. -/
structure Unicode where
  nfkcCasefold : Text → Text

/-- `normalize_document_query` -/
def normalizeDocumentQuery (unicode : Unicode) (query : Text) : Result Text :=
  if strip query = [] then .error (.python .valueError)
  else if query.any (fun c => c.val < 32) then .error (.python .valueError)
  else match Text.encode query with
    | none => .error (.python .unicodeEncodeError)
    | some bytes =>
      if bytes.length > 512 then .error (.python .valueError)
      else .ok ((unicode.nfkcCasefold (strip query)).map fun c => if c.val = 0x5C then ch '/' else c)

variable [SqliteFloat F]

def CollectionRequest.diagnosticDetail (request : CollectionRequest F) : Text :=
  if request.fullDetail then txt "FULL" else txt "COMPACT"

/-- The object that the request digest is a digest of. -/
def requestFacts (request : CollectionRequest F) (plan : DocumentPlan) (query : Text) :
    List (Text × Value F) :=
  [(txt "source_kind", .str plan.sourceKind), (txt "selection_policy", .str plan.selectionPolicy),
    (txt "query", .str query), (txt "content_query", .str request.contentQuery),
    (txt "extensions", .list (plan.extensions.map .str)),
    (txt "max_documents", .int request.maxDocuments), (txt "batch_size", .int request.batchSize),
    (txt "parser_timeout_seconds", .float request.parserTimeoutSeconds),
    (txt "evidence_mode", .str request.evidenceMode),
    (txt "evidence_context_items", .int request.evidenceContextItems),
    (txt "evidence_max_characters", .int request.evidenceMaxCharacters),
    (txt "content_limit", .int request.contentLimit),
    (txt "diagnostic_detail", .str request.diagnosticDetail)]

/-- `document_collection_request_digest` -/
def documentCollectionRequestDigest (unicode : Unicode) (request : CollectionRequest F)
    (plan : DocumentPlan) : Result Text := do
  let query ← normalizeDocumentQuery unicode request.query
  digestOf (.dict (requestFacts request plan query))

/-- `plan.candidate_set_digest` -/
def candidateSetDigest (F : Type) [SqliteFloat F] (plan : DocumentPlan) : Result Text :=
  digestOf (candidateSet plan.candidates : Value F)

/-- `collection_continuation` -/
structure CollectionContinuation where
  requestDigest : Text
  candidateSetDigest : Text
  nextIndex : Nat
  deriving DecidableEq

def CollectionContinuation.machineObject (c : CollectionContinuation) : Value F :=
  .dict [(txt "request_digest", .str c.requestDigest),
    (txt "candidate_set_digest", .str c.candidateSetDigest), (txt "next_index", .int c.nextIndex)]

/-- The value is this text. -/
def isStr (v : Value F) (t : Text) : Bool :=
  match v with
  | .str s => s = t
  | _ => false

/-- Where the batch starts. `None` is no continuation. -/
def startIndex (requestDigest setDigest : Text) (planned : Nat) : Value F → Result Nat
  | .none => .ok 0
  | .dict fields =>
    match Value.get fields (txt "next_index") with
    | .int start =>
      if isStr (Value.get fields (txt "request_digest")) requestDigest ∧
          isStr (Value.get fields (txt "candidate_set_digest")) setDigest ∧
          0 ≤ start ∧ start < planned then .ok start.toNat
      else .error (.python .valueError)
    | _ => .error (.python .valueError)
  | _ => .error (.python .valueError)

/-! ## Items -/

/-- What the `except` clauses of an item tell apart: a `StewardError`, an `OSError` or
`ValueError`, or any other. -/
inductive ItemError where
  | steward (code : Text)
  | admission
  | other

/-- `CurrentDocumentIdentity` -/
structure CurrentDocumentIdentity where
  sourceKind : Text
  scopeId : Text
  relativePath : Text
  sourceFormat : Text
  sizeBytes : Int
  mtimeNs : Int
  deviceId : Int
  inode : Int
  historicalMetadataRelation : Text
  historicalPayloadSha256 : Option Text

/-- What an item uses of an inspected page. Its diagnostics may not be serializable. -/
structure InspectedPage (F : Type) where
  status : Text
  sourceSha256 : Option Text
  documentObservationDigest : Option Text
  diagnostics : Except ItemError (Value F)

/-- Revalidation, inspection with a character budget, and the packet builder. -/
structure Inspector (F σ : Type) [PyFloat F] where
  revalidate : DocumentCandidate → σ → Except ItemError CurrentDocumentIdentity × σ
  inspectDocument : CurrentDocumentIdentity → CollectionRequest F → Int → σ →
    Except ItemError (InspectedPage F) × σ
  buildPacket : InspectedPage F → Except ItemError (List (Text × Value F))

inductive ItemStatus where
  | complete
  | noEvidence
  | failed
  deriving DecidableEq

/-- The `current` member of an item. -/
structure CurrentDocument where
  identity : CurrentDocumentIdentity
  sourceSha256 : Option Text
  historicalPayloadRelation : Text

structure CollectionItem (F : Type) where
  index : Nat
  status : ItemStatus
  reasonCode : Option Text
  candidate : DocumentCandidate
  historical : Option HistoricalDocumentIdentity
  current : Option CurrentDocument
  documentObservationDigest : Option Text
  evidencePacket : Option (List (Text × Value F))
  diagnostics : Option (Value F)

def ItemError.reasonCode : ItemError → Text
  | steward code => code
  | admission => txt "CURRENT_DOCUMENT_ADMISSION_FAILED"
  | other => txt "DOCUMENT_COLLECTION_ITEM_FAILED"

def failedItem (index : Nat) (candidate : DocumentCandidate) (e : ItemError) : CollectionItem F :=
  ⟨index, .failed, some e.reasonCode, candidate, candidate.historical, none, none, none, none⟩

def payloadRelation (historical current : Option Text) : Text :=
  match historical, current with
  | some h, some c => if h = c then txt "PAYLOAD_MATCH" else txt "PAYLOAD_CHANGED"
  | _, _ => txt "UNKNOWN"

/-- The status of a page and its packet. A packet without a status raises a `KeyError`. -/
def itemStatus (page : InspectedPage F) (packet : List (Text × Value F)) : Except ItemError ItemStatus :=
  if page.status ≠ txt "COMPLETE" then .ok .failed
  else match lookup packet (txt "packet_status") with
    | none => .error .other
    | some status => .ok (if isStr status (txt "READY") then .complete else .noEvidence)

def itemReason (page : InspectedPage F) : ItemStatus → Option Text
  | .complete => none
  | .noEvidence => some (txt "CONTENT_QUERY_NOT_OBSERVED")
  | .failed => some page.status

/-- `FULL` detail adds the diagnostics. -/
def itemDiagnostics (request : CollectionRequest F) (page : InspectedPage F) :
    Except ItemError (Option (Value F)) :=
  if request.fullDetail then some <$> page.diagnostics else .ok none

/-- The item of an inspected page. -/
def inspectedItem (inspector : Inspector F σ) (request : CollectionRequest F) (index : Nat)
    (candidate : DocumentCandidate) (identity : CurrentDocumentIdentity) (page : InspectedPage F) :
    Except ItemError (CollectionItem F) := do
  let packet ← inspector.buildPacket page
  let status ← itemStatus page packet
  let diagnostics ← itemDiagnostics request page
  pure ⟨index, status, itemReason page status, candidate, candidate.historical,
    some ⟨identity, page.sourceSha256,
      payloadRelation identity.historicalPayloadSha256 page.sourceSha256⟩,
    page.documentObservationDigest, some packet, diagnostics⟩

/-- The item of a candidate, and the identity selected for it, whatever is raised. -/
def processCandidate (inspector : Inspector F σ) (request : CollectionRequest F) (allocated : Int)
    (index : Nat) (candidate : DocumentCandidate) (env : σ) :
    CollectionItem F × List CurrentDocumentIdentity × σ :=
  match inspector.revalidate candidate env with
  | (.error e, env) => (failedItem index candidate e, [], env)
  | (.ok identity, env) =>
    match inspector.inspectDocument identity request allocated env with
    | (.error e, env) => (failedItem index candidate e, [identity], env)
    | (.ok page, env) =>
      match inspectedItem inspector request index candidate identity page with
      | .error e => (failedItem index candidate e, [identity], env)
      | .ok item => (item, [identity], env)

/-- The loop over the candidates of a batch. -/
def processBatch (inspector : Inspector F σ) (request : CollectionRequest F) (allocated : Int) :
    Nat → List DocumentCandidate → σ → List (CollectionItem F) × List CurrentDocumentIdentity × σ
  | _, [], env => ([], [], env)
  | index, candidate :: candidates, env =>
    let (item, selection, env) := processCandidate inspector request allocated index candidate env
    let (items, selections, env) := processBatch inspector request allocated (index + 1) candidates env
    (item :: items, selection ++ selections, env)

/-! ## The operation -/

structure CollectionCounts where
  planned : Nat
  processed : Nat
  complete : Nat
  noEvidence : Nat
  failed : Nat

/-- What the operation returns. -/
structure EvidenceCollection (F : Type) where
  requestDigest : Text
  plan : DocumentPlan
  start : Nat
  stop : Nat
  batchSize : Nat
  allocatedCharacters : Int
  items : List (CollectionItem F)
  counts : CollectionCounts
  continuation : Option CollectionContinuation
  diagnosticDetail : Text
  selections : List CurrentDocumentIdentity

/-- `max(512, evidence_max_characters // max(1, stop - start))` -/
def allocatedCharacters (evidenceMaxCharacters : Int) (documents : Nat) : Int :=
  max 512 (evidenceMaxCharacters / (max 1 documents : Nat))

def countStatus (items : List (CollectionItem F)) (status : ItemStatus) : Nat :=
  items.countP fun item => item.status = status

def collectionCounts (planned : Nat) (items : List (CollectionItem F)) : CollectionCounts :=
  ⟨planned, items.length, countStatus items .complete, countStatus items .noEvidence,
    countStatus items .failed⟩

/-- `_document_evidence_set`, on a plan. -/
def documentEvidenceSet (unicode : Unicode) (inspector : Inspector F σ) (request : CollectionRequest F)
    (plan : DocumentPlan) (continuation : Value F) (env : σ) : Result (EvidenceCollection F) × σ :=
  match (do
      let setDigest ← candidateSetDigest F plan
      let requestDigest ← documentCollectionRequestDigest unicode request plan
      let start ← startIndex requestDigest setDigest plan.candidates.length continuation
      pure (setDigest, requestDigest, start) : Result (Text × Text × Nat)) with
  | .error e => (.error e, env)
  | .ok (setDigest, requestDigest, start) =>
    let stop := min (start + request.batchSize) plan.candidates.length
    let allocated := allocatedCharacters request.evidenceMaxCharacters (stop - start)
    let batch := (plan.candidates.drop start).take (stop - start)
    let (items, selections, env) := processBatch inspector request allocated start batch env
    let next := if stop < plan.candidates.length then some ⟨requestDigest, setDigest, stop⟩ else none
    (.ok ⟨requestDigest, plan, start, stop, request.batchSize, allocated, items,
      collectionCounts plan.candidates.length items, next, request.diagnosticDetail, selections⟩, env)

/-- Following the continuations: the outcomes of the calls, `calls` at most. -/
def follow (unicode : Unicode) (inspector : Inspector F σ) (request : CollectionRequest F)
    (plan : DocumentPlan) : Nat → Value F → σ → List (Result (EvidenceCollection F))
  | 0, _, _ => []
  | calls + 1, continuation, env =>
    match documentEvidenceSet unicode inspector request plan continuation env with
    | (.error e, _) => [.error e]
    | (.ok collection, env) =>
      .ok collection :: match collection.continuation with
        | none => []
        | some next => follow unicode inspector request plan calls next.machineObject env

end Steward.Native
