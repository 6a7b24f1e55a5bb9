import Steward.Replay.Plan
import Steward.Snapshot.Reuse
import Steward.Storage.History

/-!
# Classification of the Evidence corpus

`classify_operational_evidence`: every Run ledger is accounted for, every
Snapshot document judged against its Run, and the plan then validates itself.
The verification that reuse references ask for is a parameter.
-/

namespace Steward

open Py Sqlite

variable {F : Type} [SqliteFloat F]

/-! ## Runs -/

/-- `" ".join(ts)` -/
def joinSpace : List Text → Text
  | [] => []
  | [t] => t
  | t :: ts => t ++ [ch ' '] ++ joinSpace ts

/-- `_run_integrity_code` -/
def runIntegrityCode (errors : List Text) : Text :=
  let joined := Runtime.lower F (joinSpace errors)
  if Text.hasInfix (txt "unsupported evidence schema version") joined then
    txt "EVIDENCE_SCHEMA_VERSION_UNSUPPORTED"
  else if Text.hasInfix (txt "digest") joined then txt "EVIDENCE_DIGEST_INVALID"
  else if Text.hasInfix (txt "invalid json") joined || Text.hasInfix (txt "schema") joined then
    txt "EVIDENCE_INTEGRITY_INVALID"
  else txt "EVIDENCE_INTEGRITY_UNKNOWN"

/-- The status after the transitions of `documents`. -/
def foldStatus : RunStatus → List (Value F) → Except Py.Error RunStatus
  | status, [] => .ok status
  | status, d :: ds => do
    if (← d.item (txt "evidence_type")).eq (lit "run.state_transition") then
      foldStatus (← enumOf RunStatus (← (← d.item (txt "payload")).item (txt "to_status"))) ds
    else foldStatus status ds

/-- The kind and the final status of an accepted ledger. -/
def ledgerConclusion (files : List (Text × Document F)) : Except Py.Error (Value F × RunStatus) := do
  match files with
  | [] => throw .indexError
  | first :: rest =>
    let runKind ← (← first.2.value.item (txt "payload")).item (txt "run_kind")
    let status ← foldStatus .created (rest.map fun f => f.2.value)
    pure (runKind, status)

/-- `str(document.get(k, ""))` -/
def textField (document : Value F) (k : String) : Except Py.Error Text :=
  match document with
  | .dict fs => .ok ((lookup fs (txt k)).getD (lit "")).pyStr
  | _ => .error .attributeError

/-- One Run directory as `classify_operational_evidence` accounts for it. -/
structure RunAccount (F : Type) where
  item : RunEvidenceAccountingItem F
  files : List (Text × Document F)
  issues : List ClassifiedIssue

/-- `EvidenceIntegrityStatus` of a ledger with an issue code, or none. -/
def runIntegrity (valid : Bool) (codes : List Text) : EvidenceIntegrityStatus :=
  if valid then .valid
  else if codes.any fun c => c = txt "EVIDENCE_SCHEMA_VERSION_UNSUPPORTED" ∨ c = txt "EVIDENCE_INTEGRITY_UNKNOWN"
    then .unknown
  else .invalid

/-- `run_kind` and `final_status`, when the ledger is valid. -/
def conclusionIf (valid : Bool) (files : List (Text × Document F)) : Result (Option (Value F × RunStatus)) :=
  if valid then some <$> py (ledgerConclusion files) else .ok none

/-- `files[-1][1].get("evidence_digest") if files else None` -/
def lastEvidenceDigest (files : List (Text × Document F)) : Result (Value F) :=
  match files.getLast? with
  | none => .ok .none
  | some f => py (f.2.value.callGet (txt "evidence_digest"))

def accountRun (c : Corpus F) (runId : Text) : Result (RunAccount F) := do
  let loaded ← loadRunFiles c runId
  let verification ← verifyRun c runId
  let errors := sortedSet (loaded.errors ++ verification.errors)
  let valid := verification.ledgerValid && loaded.errors = []
  let conclusion ← conclusionIf valid loaded.files
  let codes := if errors = [] then [] else [runIntegrityCode (F := F) errors]
  let last ← lastEvidenceDigest loaded.files
  let ids ← loaded.files.mapM fun f => py (textField f.2.value "evidence_id")
  let digests ← loaded.files.mapM fun f => py (textField f.2.value "evidence_digest")
  pure {
    item := {
      runId
      evidenceCount := loaded.files.length
      evidenceIntegrity := runIntegrity valid codes
      runKind := (conclusion.map Prod.fst).getD .none
      finalStatus := conclusion.map Prod.snd
      lastEvidenceDigest := last
      evidenceIds := ids
      evidenceDigests := digests
      issueCodes := codes }
    files := loaded.files
    issues := codes.map fun code => ⟨code,
      txt "authoritative Run Evidence did not pass structural integrity validation", [], [], runId, []⟩ }

/-! ## Snapshot documents -/

/-- One Snapshot document, before duplicates are looked for. -/
structure RawSnapshot (F : Type) where
  snapshotId : Option Text
  evidenceId : Option Text
  runId : Text
  relative : Text
  evidenceDigest : Option Text
  entries : List (Value F)
  status : Value F
  intrinsicValid : Bool
  codes : List Text

/-- `except (KeyError, TypeError, ValueError, EvidenceError)` -/
def Exc.caughtByClassification : Exc → Bool
  | .python .keyError | .python .typeError => true
  | .python e => e.isValueError
  | .steward e => e = .evidenceError || e = .evidenceConflictError || e = .snapshotAcquisitionIntegrityError
  | _ => false

/-- The codes of the reuse references of a version 2 document. -/
def reuseCodes (c : Corpus F) (verify : Value F → Result VerificationStatus) (document : Value F)
    (relative : Text) : Result (List Text) :=
  let checked : Result (List Issue) := do
    let parsed ← py (snapshotV2FromValidEvidence document relative)
    validateSnapshotReuseReferences c verify parsed
  match checked with
  | .ok issues => .ok (issues.map Issue.code)
  | .error e => if e.caughtByClassification then .ok [txt "SNAPSHOT_REPLAY_SOURCE_INVALID"] else .error e

/-- Only a valid version 2 document has reuse references. -/
def reuseCodesIf (valid : Bool) (c : Corpus F) (verify : Value F → Result VerificationStatus)
    (document : Value F) (relative : Text) : Result (List Text) :=
  if valid && snapshotEvidenceSchemaVersion document = some 2 then reuseCodes c verify document relative
  else .ok []

/-- The document is Snapshot Evidence. -/
def isSnapshotEvidence (document : Value F) : Result Bool := do
  pure ((← py (document.callGet (txt "evidence_type"))).eq (lit "filesystem.snapshot"))

def rawSnapshot (c : Corpus F) (verify : Value F → Result VerificationStatus) (runId name : Text)
    (document : Value F) : Result (RawSnapshot F) := do
  let relative := evidencePath runId name
  let intrinsic ← validateSnapshotEvidence document
  let reuse ← reuseCodesIf intrinsic.valid c verify document relative
  let codes := intrinsic.errors.map Issue.code ++ reuse
  let payload := keyOf document EnvelopeKey.payload
  pure {
    snapshotId := intrinsic.snapshotId
    evidenceId := intrinsic.evidenceId
    runId := (str? (keyOf document EnvelopeKey.runId)).getD runId
    relative
    evidenceDigest := str? (keyOf document EnvelopeKey.evidenceDigest)
    entries := elements (payload.getIf (txt "entries"))
    status := (payload.getIf (txt "snapshot")).getIf (txt "status")
    intrinsicValid := intrinsic.valid && codes = []
    codes }

/-- The Snapshot documents among the files of a Run. -/
def rawSnapshots (c : Corpus F) (verify : Value F → Result VerificationStatus) (runId : Text) :
    List (Text × Document F) → Result (List (RawSnapshot F))
  | [] => .ok []
  | (name, d) :: rest => do
    if ← isSnapshotEvidence d.value then
      let raw ← rawSnapshot c verify runId name d.value
      pure (raw :: (← rawSnapshots c verify runId rest))
    else rawSnapshots c verify runId rest

/-! ### Shared identities -/

/-- Another document has the identity too; the empty identity is none. -/
def sharesIdentity (raws : List (RawSnapshot F)) (key : RawSnapshot F → Option Text) (raw : RawSnapshot F) :
    Bool :=
  match key raw with
  | some v => v ≠ [] && 1 < raws.countP (key · = some v)
  | none => false

/-- The identities that must not be shared, with the code of each. -/
def identityKeys : List ((RawSnapshot F → Option Text) × Text) :=
  [(RawSnapshot.snapshotId, txt "SNAPSHOT_ID_DUPLICATE"),
    (fun r => some r.runId, txt "SNAPSHOT_RUN_DUPLICATE"),
    (RawSnapshot.evidenceId, txt "SNAPSHOT_EVIDENCE_ID_CONFLICT")]

/-- The document with the codes of its shared identities. -/
def RawSnapshot.marked (raws : List (RawSnapshot F)) (raw : RawSnapshot F) : RawSnapshot F :=
  let shared := (identityKeys.filter fun k => sharesIdentity raws k.1 raw).map Prod.snd
  { raw with intrinsicValid := raw.intrinsicValid && shared = [], codes := raw.codes ++ shared }

/-! ### Judgement -/

/-- What becomes of a Snapshot: its consistency, its eligibility and its codes. -/
structure Judgement where
  semantic : SemanticConsistencyStatus
  eligibility : Option ReplayEligibility
  codes : List Text

/-- The judgement of an intact document whose Run has the right kind. -/
def judgeCompatibility (raw : RawSnapshot F) (run : RunAccount F) : Result Judgement := do
  let documents := run.files.map fun f => f.2.value
  let finalStatus := optName run.item.finalStatus
  let expected ← snapshotRunCompatible raw.status run.item.runKind finalStatus documents
  let observed ← py (raw.status.memStrs (names [SnapshotStatus.complete, .partialStatus]))
  if !observed || run.item.finalStatus = none then
    pure ⟨.unknown, none, raw.codes ++ [txt "SNAPSHOT_SEMANTIC_CONSISTENCY_UNKNOWN"]⟩
  else if expected then pure ⟨.consistent, some .eligible, raw.codes⟩
  else
    let legacy ← andThen (.ok (raw.status.eq (nameValue SnapshotStatus.partialStatus) &&
      run.item.finalStatus = some .scanning)) (Bool.not <$> isSupportedAcquisitionRun documents)
    pure ⟨.inconsistent, if legacy then some .ineligible else none,
      raw.codes ++ [txt "SNAPSHOT_RUN_STATUS_INVALID"]⟩

/-- The Run ledger was accepted. -/
def RunAccount.intact (run : RunAccount F) : Bool := run.item.evidenceIntegrity = .valid

def judge (raw : RawSnapshot F) (run : Option (RunAccount F)) : Result Judgement :=
  match run with
  | none => .ok ⟨.unknown, none, raw.codes ++ [txt "SNAPSHOT_RUN_MISSING"]⟩
  | some run =>
    if !(raw.intrinsicValid && run.intact) then
      .ok ⟨.unknown, none,
        raw.codes ++ if run.intact then [] else [txt "SNAPSHOT_REPLAY_SOURCE_INVALID"]⟩
    else if !run.item.runKind.eq (lit "filesystem.snapshot") then
      .ok ⟨.inconsistent, none, raw.codes ++ [txt "SNAPSHOT_RUN_KIND_INVALID"]⟩
    else judgeCompatibility raw run

def snapshotIntegrity (raw : RawSnapshot F) (run : Option (RunAccount F)) (codes : List Text) :
    EvidenceIntegrityStatus :=
  if raw.intrinsicValid && run.any RunAccount.intact then .valid
  else if run.any (fun r => r.item.evidenceIntegrity = .unknown) ||
      codes.any (· = txt "EVIDENCE_SCHEMA_VERSION_UNSUPPORTED") then .unknown
  else .invalid

/-- The accounting of one entry that is an object. -/
def entryItem (raw : RawSnapshot F) (eligibility : Option ReplayEligibility) (codes : List Text)
    (entry : List (Text × Value F)) : ClassifiedSnapshotEntryAccountingItem :=
  let text (k : String) : Text := ((lookup entry (txt k)).getD (lit "")).pyStr
  { entryId := text "entry_id"
    snapshotId := text "snapshot_id"
    scopeId := text "scope_id"
    relativePath := text "relative_path"
    evidenceId := raw.evidenceId
    evidenceRelativePath := some raw.relative
    evidenceDigest := raw.evidenceDigest
    replayEligibility := eligibility
    reasonCodes := if eligibility = some .ineligible then sortedSet codes else [] }

def ClassifiedSnapshotEntryAccountingItem.key (e : ClassifiedSnapshotEntryAccountingItem) :
    Text ×ₗ Text ×ₗ Text := toLex (e.scopeId, toLex (e.relativePath, e.entryId))

/-- The objects of a list. -/
def objects (vs : List (Value F)) : List (List (Text × Value F)) :=
  vs.filterMap fun v => match v with
    | .dict fs => some fs
    | _ => none

/-- The plan item of a document and its Run. -/
def snapshotItem (raw : RawSnapshot F) (run : Option (RunAccount F)) (j : Judgement) :
    ClassifiedSnapshotReplayItem where
  snapshotId := raw.snapshotId
  evidenceId := raw.evidenceId
  persistentRunId := some raw.runId
  evidenceRelativePath := some raw.relative
  evidenceDigest := raw.evidenceDigest
  entryCount := raw.entries.length
  evidenceIntegrity := snapshotIntegrity raw run j.codes
  semanticConsistency := j.semantic
  replayEligibility := j.eligibility
  reasonCodes := sortedSet j.codes
  entries := sortedBy ClassifiedSnapshotEntryAccountingItem.key
    ((objects raw.entries).map (entryItem raw j.eligibility j.codes))

def classifySnapshot (runs : List (RunAccount F)) (raw : RawSnapshot F) :
    Result ClassifiedSnapshotReplayItem := do
  let run := runs.find? (·.item.runId = raw.runId)
  pure (snapshotItem raw run (← judge raw run))

/-! ## The plan -/

/-- The order of the plan's Snapshots. -/
def ClassifiedSnapshotReplayItem.key (s : ClassifiedSnapshotReplayItem) : Bool ×ₗ Text ×ₗ Text ×ₗ Text :=
  toLex (s.snapshotId.isNone, toLex (orEmpty s.snapshotId, toLex (orEmpty s.evidenceId, orEmpty s.persistentRunId)))

def planCounts (runs : List (RunEvidenceAccountingItem F)) (snapshots : List ClassifiedSnapshotReplayItem) :
    PlanCounts :=
  let nonSnapshot := runs.filter fun r => !snapshots.any (·.persistentRunId = some r.runId)
  { totalRunCount := runs.length
    totalEvidenceCount := (runs.map (·.evidenceCount)).sum
    totalSnapshotCount := snapshots.length
    totalSnapshotEntryCount := plannedEntries snapshots
    eligibleSnapshotCount := (ofEligibility .eligible snapshots).length
    eligibleEntryCount := plannedEntries (ofEligibility .eligible snapshots)
    ineligibleSnapshotCount := (ofEligibility .ineligible snapshots).length
    ineligibleEntryCount := plannedEntries (ofEligibility .ineligible snapshots)
    nonSnapshotRunCount := nonSnapshot.length
    nonSnapshotEvidenceCount := (nonSnapshot.map (·.evidenceCount)).sum }

/-- The conclusion of the classifier, before the plan is validated. -/
def conclusive (issues : List ClassifiedIssue) (runs : List (RunEvidenceAccountingItem F))
    (snapshots : List ClassifiedSnapshotReplayItem) : Bool :=
  issues = [] && runs.all (·.evidenceIntegrity = .valid) &&
    snapshots.all fun s => s.evidenceIntegrity = .valid && s.semanticConsistency ≠ .unknown &&
      s.replayEligibility ≠ none

/-- The plan of the accounted Runs and the judged Snapshots. -/
def assemblePlan (runs : List (RunAccount F)) (snapshots : List ClassifiedSnapshotReplayItem) :
    Result (ClassifiedReplayPlan F) := do
  let orderedRuns := sortedBy RunEvidenceAccountingItem.runId (runs.map RunAccount.item)
  let orderedSnapshots := sortedBy ClassifiedSnapshotReplayItem.key snapshots
  let issues := runs.flatMap RunAccount.issues
  let counts := planCounts orderedRuns orderedSnapshots
  let digest ← classifiedAccountingDigest orderedRuns orderedSnapshots counts
  pure {
    classificationComplete := conclusive issues orderedRuns orderedSnapshots
    counts
    accountingDigest := digest
    runs := orderedRuns
    snapshots := orderedSnapshots
    issues := sortedBy ClassifiedIssue.key issues }

/-- A plan with validation issues is incomplete and carries them. -/
def settlePlan (plan : ClassifiedReplayPlan F) : Result (ClassifiedReplayPlan F) := do
  let issues ← validateClassifiedReplayPlan plan
  if issues = [] then pure plan
  else pure { plan with
    classificationComplete := false
    issues := sortedBy ClassifiedIssue.key (collectBy ClassifiedIssue.key (plan.issues ++ issues)) }

/-- Classify a complete Evidence corpus before any candidate database mutation. -/
def classifyOperationalEvidence (c : Corpus F) (verify : Value F → Result VerificationStatus) :
    Result (ClassifiedReplayPlan F) := do
  let runs ← (keys c.dirs).mapM (accountRun c)
  let raws ← runs.mapM fun r => rawSnapshots c verify r.item.runId r.files
  let marked := raws.flatten.map (RawSnapshot.marked raws.flatten)
  let snapshots ← marked.mapM (classifySnapshot runs)
  settlePlan (← assemblePlan runs snapshots)

end Steward
