import Steward.Evidence.Corpus
import Steward.Snapshot.Index

/-!
# Payload reuse

A `REUSED_FROM_VERIFIED_SNAPSHOT` observation names a source Snapshot. The
source is looked up in the corpus, validated, ordered before the current
Snapshot and then verified; `verify` is that recursive call.
-/

namespace Steward

open Py Sqlite

variable {F : Type} [SqliteFloat F]

inductive VerificationStatus where
  | valid | invalid | incomplete
  deriving DecidableEq, Repr

/-! ## Finding the source -/

/-- The `snapshot` object of an Evidence document, `None` when there is none. -/
def snapshotFact (evidence : Value F) : Value F :=
  (evidence.getIf (txt "payload")).getIf (txt "snapshot")

/-- The file persists Snapshot `id`; a document that is no object raises. -/
def persistsSnapshot (id evidence : Value F) : Result Bool := do
  let kind ← py (evidence.callGet (txt "evidence_type"))
  pure (kind.eq (lit "filesystem.snapshot") && (snapshotFact evidence).isDict &&
    ((snapshotFact evidence).getIf (txt "snapshot_id")).eq id)

/-- A persisted document with its path under the evidence directory. -/
abbrev Fact (F : Type) := Document F × Text

/-- The facts among the files of one Run directory. -/
def matchesAmong (id : Value F) (runId : Text) : List (Text × Document F) → Result (List (Fact F))
  | [] => .ok []
  | (name, d) :: rest => do
    let hit ← persistsSnapshot id d.value
    let hits ← matchesAmong id runId rest
    pure (if hit then (d, evidencePath runId name) :: hits else hits)

def matchesInRuns (c : Corpus F) (id : Value F) : List Text → Result (List (Fact F))
  | [] => .ok []
  | runId :: rest => do
    let files ← loadRunFiles c runId
    let hits ← matchesAmong id runId files.files
    pure (hits ++ (← matchesInRuns c id rest))

/-- Find a persisted Snapshot fact by identity without consulting SQLite. -/
def findSnapshotEvidence (c : Corpus F) (id : Value F) : Result (Option (Fact F)) :=
  if c.runs.isNone then .error (.steward .evidenceError)
  else do
    match ← matchesInRuns c id (keys c.dirs) with
    | [] => pure none
    | [fact] => pure (some fact)
    | _ => throw (.steward .evidenceError)

/-! ## Eligibility -/

/-- The fields a reusable entry must repeat, none of them null. -/
def requiredFields : List EntryField := [.deviceId, .inode, .sizeBytes, .mtimeNs, .ctimeNs]

/-- The frozen same-location continuity predicate, never a content relation. -/
def metadataReuseEligible (current source : Entry F) : Bool :=
  (current.field .scopeId).eq (source.field .scopeId) &&
    (current.field .relativePath).eq (source.field .relativePath) &&
    current.objectType = .regularFile && source.objectType = .regularFile &&
    current.observationStatus = .observed && source.observationStatus = .observed &&
    !current.flag .excluded && !source.flag .excluded &&
    (requiredFields.all fun f => !(current.field f).isNone && !(source.field f).isNone) &&
    (requiredFields.all fun f => (current.field f).eq (source.field f)) &&
    (if !(current.field .birthtimeNs).isNone && !(source.field .birthtimeNs).isNone then
      (current.field .birthtimeNs).eq (source.field .birthtimeNs)
    else (current.field .birthtimeNs).isNone && (source.field .birthtimeNs).isNone)

def directReuseSourceEligible (current source : Entry F) (observation : Observation F)
    (policy : PolicyKey → Value F) : Bool :=
  metadataReuseEligible current source &&
    (observation.status = .hashed || observation.status = .emptyFileHashed) &&
    observation.provenance = some .directRead &&
    (observation.field .reusedFromSnapshotId).isNone &&
    (observation.field .algorithm).eq (policy .algorithm) &&
    (observation.field .algorithmVersion).eq (policy .algorithmVersion) &&
    isSha256Hex (observation.field .digest) &&
    (observation.field .bytesHashed).eq (source.field .sizeBytes)

/-- The payload facts a reuse copies. -/
def samePayload (a b : Observation F) : Bool :=
  a.status = b.status && (a.field .algorithm).eq (b.field .algorithm) &&
    (a.field .algorithmVersion).eq (b.field .algorithmVersion) &&
    (a.field .bytesHashed).eq (b.field .bytesHashed)

/-! ## Checking the references -/

/-- `a > b`; both are timestamps. -/
def later : Value F → Value F → Except Py.Error Bool
  | .str s, .str t => .ok (t < s)
  | _, _ => .error .typeError

/-- The entry of `source` at the location of `entry`. -/
def entryAt (source : Snapshot F) (entry : Entry F) : Option (Entry F) :=
  source.entries.find? fun e => (e.field .scopeId).same (entry.field .scopeId) &&
    (e.field .relativePath).same (entry.field .relativePath)

/-- What the source's own entry says about a reused one. -/
def sourceEntryIssue (current source : Snapshot F) (entry : Entry F) (observation : Observation F) :
    Except Py.Error (Option Issue) :=
  match entryAt source entry with
  | none => .ok (some (issue "PAYLOAD_REUSE_SOURCE_ENTRY_MISSING" "reuse source Entry is missing"))
  | some e => match e.v2, current.v2 with
    | some v, some w => .ok (
      if !directReuseSourceEligible entry e v.observation w.hashPolicy then
        some (issue "PAYLOAD_REUSE_SOURCE_METADATA_MISMATCH" "reuse source is not eligible")
      else if !samePayload observation v.observation then
        some (issue "PAYLOAD_REUSE_SOURCE_PAYLOAD_INVALID" "reuse payload fields differ")
      else if !(observation.field .digest).eq (v.observation.field .digest) then
        some (issue "PAYLOAD_REUSE_SOURCE_DIGEST_MISMATCH" "reuse digest differs")
      else none)
    | _, _ => .error .attributeError

/-- What becomes of one reference before the source is verified. -/
inductive Reference (F : Type) where
  | refused (i : Issue)
  | source (s : Snapshot F)

/-- Every check before the recursive call. -/
def sourceReference (c : Corpus F) (current : Snapshot F) (sourceId : Value F) :
    Result (Reference F) := do
  match ← (if sourceId.truthy then findSnapshotEvidence c sourceId else .ok none) with
  | none => pure (.refused (issue "PAYLOAD_REUSE_SOURCE_MISSING" "reuse source is missing"))
  | some (d, relative) =>
    if snapshotEvidenceSchemaVersion d.value ≠ some 2 then
      pure (.refused
        (issue "PAYLOAD_REUSE_SOURCE_SCHEMA_UNSUPPORTED" "reuse source schema is unsupported"))
    else
      let result ← validateSnapshotEvidence d.value
      if !result.valid then
        pure (.refused (issue "PAYLOAD_REUSE_SOURCE_INVALID" "reuse source is invalid"))
      else
        let source ← py (snapshotV2FromValidEvidence d.value relative)
        let after ← py (later (source.field .completedAt) (current.field .startedAt))
        pure (if after then
          .refused (issue "PAYLOAD_REUSE_SOURCE_NOT_EARLIER" "reuse source is not earlier")
        else .source source)

def referenceIssue (c : Corpus F) (verify : Value F → Result VerificationStatus)
    (current : Snapshot F) (entry : Entry F) (observation : Observation F) :
    Result (Option Issue) := do
  match ← sourceReference c current (observation.field .reusedFromSnapshotId) with
  | .refused i => pure (some i)
  | .source source =>
    let status ← verify (source.field .snapshotId)
    if status ≠ .valid then
      pure (some (issue "PAYLOAD_REUSE_SOURCE_INVALID" "reuse source is not VALID"))
    else py (sourceEntryIssue current source entry observation)

/-- The entries that reuse a payload, with their observations. -/
def reusedEntries (current : Snapshot F) : List (Entry F × Observation F) :=
  current.entries.filterMap fun e => match e.v2 with
    | some v => if v.observation.provenance = some .reusedFromVerifiedSnapshot then
        some (e, v.observation) else none
    | none => none

/-- Repository-aware validation of already intrinsic-valid REUSED facts. -/
def validateSnapshotReuseReferences (c : Corpus F) (verify : Value F → Result VerificationStatus)
    (current : Snapshot F) : Result (List Issue) := do
  let issues ← (reusedEntries current).mapM fun e => referenceIssue c verify current e.1 e.2
  pure (issues.reduceOption.insertionSort Issue.le)

end Steward
