import Steward.Exceptions
import Steward.Snapshot.Keys

/-!
# The Run state machine

The transition graph of `state_machine.py`, and paths through it.
-/

namespace Steward

open Py

inductive RunStatus where
  | created | scanning | scanned | planning | planned | applying | applied | verifying | verified
  | partialStatus | failed | cancelled | rollingBack | rolledBack
  deriving DecidableEq, Repr

instance : Named RunStatus where
  all := [.created, .scanning, .scanned, .planning, .planned, .applying, .applied, .verifying,
    .verified, .partialStatus, .failed, .cancelled, .rollingBack, .rolledBack]
  name
    | .created => txt "created"
    | .scanning => txt "scanning"
    | .scanned => txt "scanned"
    | .planning => txt "planning"
    | .planned => txt "planned"
    | .applying => txt "applying"
    | .applied => txt "applied"
    | .verifying => txt "verifying"
    | .verified => txt "verified"
    | .partialStatus => txt "partial"
    | .failed => txt "failed"
    | .cancelled => txt "cancelled"
    | .rollingBack => txt "rolling_back"
    | .rolledBack => txt "rolled_back"

/-- Frozen, deterministic targets. -/
def allowedTargets : RunStatus → List RunStatus
  | .created => [.scanning, .planning, .applying, .verifying, .rollingBack, .cancelled, .failed]
  | .scanning => [.scanned, .partialStatus, .cancelled, .failed]
  | .scanned => [.planning, .verifying, .failed]
  | .planning => [.planned, .cancelled, .failed]
  | .planned => [.applying, .cancelled, .failed]
  | .applying => [.applied, .partialStatus, .failed]
  | .applied => [.verifying, .rollingBack, .failed]
  | .verifying => [.verified, .partialStatus, .failed]
  | .verified => [.rollingBack]
  | .partialStatus => [.verifying, .rollingBack, .failed]
  | .failed => [.rollingBack]
  | .cancelled => []
  | .rollingBack => [.rolledBack, .partialStatus, .failed]
  | .rolledBack => []

/-- Reject all transitions outside the single graph. -/
def validateTransition (current target : RunStatus) : Result Unit :=
  if target ∈ allowedTargets current then .ok () else .error (.steward .invalidRunTransitionError)

def isTerminal (status : RunStatus) : Bool :=
  status ∈ [RunStatus.verified, .failed, .cancelled, .rolledBack]

theorem validateTransition_eq_ok {a b : RunStatus} {u : Unit} :
    validateTransition a b = .ok u ↔ b ∈ allowedTargets a := by
  unfold validateTransition
  split_ifs with h <;> simp [h]

/-- A walk from `a` to `b` along allowed transitions. -/
inductive LegalPath : RunStatus → List (RunStatus × RunStatus) → RunStatus → Prop where
  | nil (a : RunStatus) : LegalPath a [] a
  | snoc {a b c : RunStatus} {p : List (RunStatus × RunStatus)} (h : LegalPath a p b)
      (hc : c ∈ allowedTargets b) : LegalPath a (p ++ [(b, c)]) c

end Steward
