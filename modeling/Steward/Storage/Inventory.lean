import Steward.Py.Collections

/-!
# Snapshot inventories

The facts `_inspect_snapshot_inventory` records about the Snapshot documents of
the ledger and the rows of the index.
-/

namespace Steward

open Py

structure SnapshotInventoryItem where
  snapshotId : Option Text
  evidenceId : Option Text
  persistentRunId : Option Text
  evidencePresent : Bool
  indexPresent : Bool
  runPresent : Bool
  indexedEntryCount : Nat
  evidenceRelativePath : Option Text
  issueCodes : List Text
  deriving DecidableEq

/-- The dictionaries of `issues` map strings to strings. -/
structure SnapshotInventory where
  snapshotEvidenceRecords : Nat
  indexedSnapshots : Nat
  indexedEntryGroups : Nat
  runs : Nat
  items : List SnapshotInventoryItem
  issues : List (List (Text × Text))
  indexedEntryCount : Nat

/-- `v or ""` -/
def orEmpty (v : Option Text) : Text := v.getD []

/-- `issue.get(k, "")` -/
def issueField (issue : List (Text × Text)) (k : String) : Text := (lookup issue (txt k)).getD []

end Steward
