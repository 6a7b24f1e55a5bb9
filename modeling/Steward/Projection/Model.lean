import Steward.Analysis.SnapshotDiff

/-!
# The projection contract

Reasons, references and budgets of an observation projection, and the check a
budget passes before anything is projected.
-/

namespace Steward.Projection

open Py

inductive SelectionReason where
  | metadataFailure | observationFailure | accessFailure | unknownSize | payloadUnknown | excluded | unreadable
  | nonLocal | integrityConflict | reuseProvenance | ambiguousRelation | userRequestedLocation | added | removed
  | modified | sizeIncrease | sizeDecrease | contentChanged | coverageChanged | transitionEndpoint
  | hardLinkRepresentative | duplicateRepresentative | relationComponentRepresentative
  | scopeBoundaryRepresentative | objectHintBoundaryRepresentative | logicalByteContributor | growthContributor
  | structureAnchor | diagnosticNeighbor
  deriving DecidableEq, Repr

instance : Named SelectionReason where
  all := [.metadataFailure, .observationFailure, .accessFailure, .unknownSize, .payloadUnknown, .excluded,
    .unreadable, .nonLocal, .integrityConflict, .reuseProvenance, .ambiguousRelation, .userRequestedLocation, .added,
    .removed, .modified, .sizeIncrease, .sizeDecrease, .contentChanged, .coverageChanged, .transitionEndpoint,
    .hardLinkRepresentative, .duplicateRepresentative, .relationComponentRepresentative,
    .scopeBoundaryRepresentative, .objectHintBoundaryRepresentative, .logicalByteContributor, .growthContributor,
    .structureAnchor, .diagnosticNeighbor]
  name
    | .metadataFailure => txt "METADATA_FAILURE"
    | .observationFailure => txt "OBSERVATION_FAILURE"
    | .accessFailure => txt "ACCESS_FAILURE"
    | .unknownSize => txt "UNKNOWN_SIZE"
    | .payloadUnknown => txt "PAYLOAD_UNKNOWN"
    | .excluded => txt "EXCLUDED"
    | .unreadable => txt "UNREADABLE"
    | .nonLocal => txt "NON_LOCAL"
    | .integrityConflict => txt "INTEGRITY_CONFLICT"
    | .reuseProvenance => txt "REUSE_PROVENANCE"
    | .ambiguousRelation => txt "AMBIGUOUS_RELATION"
    | .userRequestedLocation => txt "USER_REQUESTED_LOCATION"
    | .added => txt "ADDED"
    | .removed => txt "REMOVED"
    | .modified => txt "MODIFIED"
    | .sizeIncrease => txt "SIZE_INCREASE"
    | .sizeDecrease => txt "SIZE_DECREASE"
    | .contentChanged => txt "CONTENT_CHANGED"
    | .coverageChanged => txt "COVERAGE_CHANGED"
    | .transitionEndpoint => txt "TRANSITION_ENDPOINT"
    | .hardLinkRepresentative => txt "HARD_LINK_REPRESENTATIVE"
    | .duplicateRepresentative => txt "DUPLICATE_REPRESENTATIVE"
    | .relationComponentRepresentative => txt "RELATION_COMPONENT_REPRESENTATIVE"
    | .scopeBoundaryRepresentative => txt "SCOPE_BOUNDARY_REPRESENTATIVE"
    | .objectHintBoundaryRepresentative => txt "OBJECT_HINT_BOUNDARY_REPRESENTATIVE"
    | .logicalByteContributor => txt "LOGICAL_BYTE_CONTRIBUTOR"
    | .growthContributor => txt "GROWTH_CONTRIBUTOR"
    | .structureAnchor => txt "STRUCTURE_ANCHOR"
    | .diagnosticNeighbor => txt "DIAGNOSTIC_NEIGHBOR"

/-- `normalize_reasons` -/
def normalizeReasons (values : List SelectionReason) : List SelectionReason :=
  sortedBy Named.name values.dedup

/-! ## References -/

inductive ResultKind where
  | snapshot | structureResult | growth | diff | relation | duplicate
  deriving DecidableEq, Repr

instance : Named ResultKind where
  all := [.snapshot, .structureResult, .growth, .diff, .relation, .duplicate]
  name
    | .snapshot => txt "SNAPSHOT"
    | .structureResult => txt "STRUCTURE"
    | .growth => txt "GROWTH"
    | .diff => txt "DIFF"
    | .relation => txt "RELATION"
    | .duplicate => txt "DUPLICATE"

structure SnapshotSourceIdentity where
  snapshotId : Text
  schemaVersion : Int
  snapshotDigest : Option Text
  deriving DecidableEq

/-- `SnapshotSourceIdentity | SnapshotPairSourceIdentity` -/
inductive SourceIdentity where
  | one (snapshot : SnapshotSourceIdentity)
  | pair (base target : SnapshotSourceIdentity)
  deriving DecidableEq

structure ResultNamespace where
  resultKind : ResultKind
  sourceIdentity : SourceIdentity
  sourceResultDigest : Option Text
  deriving DecidableEq

structure ResultLocalReference where
  space : ResultNamespace
  resultLocalId : Text
  deriving DecidableEq

/-- `(item.namespace.result_kind.value, item.result_local_id)` -/
def ResultLocalReference.sortKey (r : ResultLocalReference) : Text ×ₗ Text :=
  toLex (Named.name r.space.resultKind, r.resultLocalId)

/-! ## Budgets -/

/-- `int | BudgetValue` -/
inductive BudgetLimit where
  | count (n : Int)
  | requiresCalibration
  deriving DecidableEq, Repr

/-- The number of a limit that passed its check. -/
def BudgetLimit.toNat : BudgetLimit → Nat
  | .count n => n.toNat
  | .requiresCalibration => 0

structure ProjectionBudget where
  explicitEntryTotal : BudgetLimit
  hierarchyNodeTotal : BudgetLimit
  trackingItemTotal : BudgetLimit
  relationComponentTotal : BudgetLimit
  duplicateAliasComponentTotal : BudgetLimit
  membersPerComponent : BudgetLimit
  scopeMinimumGuarantee : BudgetLimit
  priorityQuotas : List (Text × BudgetLimit)
  serializedBytesSoft : BudgetLimit

/-- The values `validate_budget` checks, in its order. -/
def ProjectionBudget.values (b : ProjectionBudget) : List BudgetLimit :=
  [b.explicitEntryTotal, b.hierarchyNodeTotal, b.trackingItemTotal, b.relationComponentTotal,
    b.duplicateAliasComponentTotal, b.membersPerComponent, b.scopeMinimumGuarantee, b.serializedBytesSoft] ++
  b.priorityQuotas.map Prod.snd

def BudgetLimit.admitted (allowCalibration : Bool) : BudgetLimit → Bool
  | .count n => 0 ≤ n
  | .requiresCalibration => allowCalibration

/-- `validate_budget` -/
def validateBudget (allowCalibration : Bool) (b : ProjectionBudget) : Result Unit :=
  if b.values.all (BudgetLimit.admitted allowCalibration) then .ok () else .error (.steward .projectionRequestError)

/-- The limits of an accepted budget are natural numbers. -/
theorem eq_count_of_validateBudget {b : ProjectionBudget} (h : validateBudget false b = .ok ()) {v : BudgetLimit}
    (hv : v ∈ b.values) : v = .count v.toNat := by
  unfold validateBudget at h
  split_ifs at h with hall
  have hadmitted := List.all_eq_true.1 hall v hv
  cases v with
  | count n =>
    have hn : 0 ≤ n := of_decide_eq_true hadmitted
    rw [BudgetLimit.toNat, Int.toNat_of_nonneg hn]
  | requiresCalibration => cases hadmitted

end Steward.Projection
