import Steward.Evidence.Corpus
import Steward.Lifecycle
import Steward.Snapshot.Index

/-!
# Run records

`RunRecord`, as `_run` reads it from a row of `runs`. Only the status is parsed;
the other columns are whatever the row holds.
-/

namespace Steward

open Py Sqlite

variable {F : Type} [SqliteFloat F]

structure RunRecord (F : Type) where
  runId : Value F
  runKind : Value F
  status : RunStatus
  createdAt : Value F
  updatedAt : Value F
  configDigest : Value F
  metadata : Value F
  lastSequence : Value F
  lastEvidenceDigest : Value F
  terminal : Bool

/-- `_run` -/
def runFromRow (row : Row RunColumn F) : Except Py.Error (RunRecord F) := do
  let status ← enumOf RunStatus (row .status).toValue
  let metadata ← loadsCell (row .metadataJson)
  pure ⟨(row .runId).toValue, (row .runKind).toValue, status, (row .createdAt).toValue,
    (row .updatedAt).toValue, (row .configDigest).toValue, metadata, (row .lastSequence).toValue,
    (row .lastEvidenceDigest).toValue, (row .terminal).toValue.truthy⟩

/-- `SELECT * FROM runs WHERE run_id=?`, the first row. -/
def findRun (ix : Index F) (runId : Value F) : Result (Option (Row RunColumn F)) :=
  List.head? <$> sql (runSchema.select ix.runs .runId runId)

/-- `_get_run` -/
def getRun (ix : Index F) (runId : Value F) : Result (RunRecord F) := do
  match ← findRun ix runId with
  | none => throw (.steward .runNotFoundError)
  | some row => py (runFromRow row)

end Steward
