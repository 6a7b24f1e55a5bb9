import Steward.Runs.Coordinator
import Steward.Snapshot.Serialize
import Steward.Snapshot.Verify

/-!
# Persisting a Snapshot

`_persist`: the Evidence of a Snapshot is validated, its reuse references are
checked against the corpus, and it is published like any other item of the Run.
-/

namespace Steward

open Py Sqlite

variable {F : Type} [SqliteFloat F]

/-- `UPDATE runs SET last_sequence=?,last_evidence_digest=?,updated_at=?` -/
def persistSets (item : List (Text × Value F)) : RunColumn → Option (Value F)
  | .lastSequence => some (fieldOf item EnvelopeKey.sequence)
  | .lastEvidenceDigest => some (fieldOf item EnvelopeKey.evidenceDigest)
  | .updatedAt => some (fieldOf item EnvelopeKey.createdAt)
  | _ => none

/-- The reuse references of a v2 Snapshot; v1 has none. -/
def persistReuseErrors (w : World F) (depth : Nat) (s : Snapshot F) : Result (List Issue) :=
  if s.v2.isSome then
    validateSnapshotReuseReferences w.corpus (verifyStatus w.corpus w.index depth) s
  else .ok []

/-- `2` for a v2 Snapshot. -/
def Snapshot.evidenceVersion (s : Snapshot F) : Int := if s.v2.isSome then 2 else 1

/-- The index after `_persist` inserted the record, moved the Run on and wrote the Snapshot rows. -/
def persistProjection (ix : Index F) (s : Snapshot F) (runId : Value F) (item : List (Text × Value F))
    (relative : Text) : Result (Index F) := do
  let inserted ← insertEvidenceRecord ix (evidenceRow item runId (fieldOf item EnvelopeKey.sequence)
    (fieldOf item EnvelopeKey.previousEvidenceDigest) s.evidenceVersion relative)
  let runs ← sql (runSchema.update inserted.runs (persistSets item) .runId runId)
  insertSnapshotIndexRows { inserted with runs } s
    (.str (fieldOf item EnvelopeKey.evidenceId).pyStr) (.str relative)

def persistPlan (w : World F) (depth : Nat) (s : Snapshot F) (stamp : Stamp) :
    Result (Publication.Plan F) := do
  match ← findRun w.index (s.field .runId) with
  | none => throw (.steward .snapshotNotFoundError)
  | some row =>
    let run ← py (runFromRow row)
    let payload ← snapshotPayload s
    let item ← evidence run (txt "filesystem.snapshot") payload s.evidenceVersion stamp
    let validation ← validateSnapshotEvidence (.dict item)
    if !validation.valid then throw (.steward .evidenceError)
    let reuseErrors ← persistReuseErrors w depth s
    if reuseErrors ≠ [] then throw (.steward .evidenceError)
    pure ⟨txt "snapshot.persist", item, persistProjection w.index s run.runId item⟩

/-- Persist only intrinsically valid Snapshot Evidence before its SQLite projection. -/
def persist (injector : Option FaultInjector) (depth : Nat) (w : World F) (s : Snapshot F)
    (stamp : Stamp) : Result Unit × World F :=
  match persistPlan w depth s stamp with
  | .error e => (.error e, w)
  | .ok p => publish injector w p

end Steward
