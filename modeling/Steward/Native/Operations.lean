import Mathlib.Data.List.Sublists
import Steward.Native.Adapter
import Steward.StateMachine

/-!
# Update and recovery operations

What the operations of the native tools write: an acquisition appends the
Evidence of one new Run, a recovery closes the Run it is given, and the read
tools write nothing. What the product does at each call is a parameter.
-/

namespace Steward.Native

open Py Sqlite

/-! ## Effects -/

/-- An Evidence file appended to the ledger of a Run: its creation or a transition, or a Snapshot. -/
inductive Effect where
  | run (runId : Text)
  | snapshot (runId snapshotId : Text)
  deriving DecidableEq

def Effect.runId : Effect → Text
  | run runId | snapshot runId _ => runId

def Effect.isSnapshot : Effect → Bool
  | run _ => false
  | snapshot _ _ => true

abbrev Operation (α : Type) := Writing Effect Raised α

abbrev Stages := Stage Raised

/-- `SNAPSHOT_ACQUISITION_RECOVERY_REQUIRED` -/
def recoveryRequired : Text := txt "SNAPSHOT_ACQUISITION_RECOVERY_REQUIRED"

/-- `SNAPSHOT_ACQUISITION_INTEGRITY_FAILED` -/
def integrityFailed : Text := txt "SNAPSHOT_ACQUISITION_INTEGRITY_FAILED"

/-! ## Acquisition -/

/-- A report as `machine_result` renders it: the identities, and the other members. -/
structure SnapshotAcquisitionReport (F : Type) where
  runId : Text
  snapshotId : Option Text
  members : List (Text × Value F)

/-- What happens at each call of `_acquire_snapshot`. -/
structure Acquisition (F : Type) where
  /-- the budget, the Scope and the lease -/
  admitted : Except Raised Unit
  runId : Text
  snapshotId : Text
  create : Stages
  scanning : Stages
  observe : Stages
  persist : Stages
  close : Stages
  verify : Stages
  verifying : Stages
  verified : Stages
  publish : Stages
  /-- the other members of the report -/
  members : List (Text × Value F)

section
variable {F : Type}

/-- The `except` clauses of `_acquire_snapshot`: once a Run is durable, every other failure asks for recovery. -/
def closeAcquisition (written : List Effect) (raised : Raised) : Raised :=
  match raised with
  | .steward code causeCode =>
    if written = [] ∨ code = integrityFailed ∨ code = recoveryRequired then .steward code causeCode
    else .steward recoveryRequired none
  | raised => if written = [] then raised else .steward recoveryRequired none

/-- `acquire_snapshot` -/
def acquireSnapshot (a : Acquisition F) : Operation (SnapshotAcquisitionReport F) := do
  Writing.lift a.admitted
  Writing.rethrow closeAcquisition do
    Writing.call a.create [.run a.runId]
    Writing.call a.scanning [.run a.runId]
    Writing.call a.observe []
    Writing.call a.persist [.snapshot a.runId a.snapshotId]
    Writing.call a.close [.run a.runId]
    Writing.call a.verify []
    Writing.call a.verifying [.run a.runId]
    Writing.call a.verified [.run a.runId]
    Writing.call a.publish []
    pure ⟨a.runId, some a.snapshotId, a.members⟩

/-- The Evidence of an acquisition. -/
def acquisitionEvidence (runId snapshotId : Text) : List Effect :=
  [.run runId, .run runId, .snapshot runId snapshotId, .run runId, .run runId, .run runId]

/-! ## Recovery -/

/-- What happens at each call of `_recover_snapshot_acquisition`. -/
structure Recovery (F : Type) where
  /-- the ledger is read and governed, and the lease is free -/
  admitted : Except Raised Unit
  status : RunStatus
  hasSnapshot : Bool
  close : Stages
  project : Stages
  verifying : Stages
  verified : Stages
  publish : Stages
  report : SnapshotAcquisitionReport F

/-- From a Run whose observation is closed. -/
def Recovery.finish (r : Recovery F) (runId : Text) (status : RunStatus) :
    Operation (SnapshotAcquisitionReport F) := do
  Writing.call r.project []
  Writing.call r.verifying (if status = .scanned ∨ status = .partialStatus then [.run runId] else [])
  Writing.call r.verified (if status = .verified then [] else [.run runId])
  Writing.call r.publish []
  pure r.report

/-- `recover_snapshot_acquisition` -/
def recoverSnapshotAcquisition (r : Recovery F) (runId : Text) : Operation (SnapshotAcquisitionReport F) := do
  Writing.lift r.admitted
  match r.status, r.hasSnapshot with
  | .created, _ | .scanning, false => do
    Writing.call r.close [.run runId]
    Writing.call r.project []
    pure r.report
  | .scanning, true => do
    Writing.call r.close [.run runId]
    r.finish runId .scanned
  | .scanned, _ | .partialStatus, _ | .verifying, _ | .verified, _ => r.finish runId r.status
  | .failed, _ | .cancelled, _ => do
    Writing.call r.project []
    pure r.report
  | _, _ => Writing.lift (.error (.steward integrityFailed none))

/-! ## Operations -/

/-- `ScanBudget`, as the update tool fills it. -/
structure ScanBudget (F : Type) where
  maxEntries : Value F
  maxDurationSeconds : Value F

/-- What the session and the product do while an operation holds the lock. -/
structure Session (F : Type) [PyFloat F] where
  /-- the read tools -/
  read : Text → List (Text × Value F) → Except Raised (OperationResult F)
  /-- `_resolve_update_scope`: policy and scope -/
  resolveUpdateScope : Value F → Except Raised (Text × Text)
  /-- `_selector` with `_selection`: the Snapshot and its selection -/
  selector : Value F → Except Raised (Text × Value F)
  acquire : Text → ScanBudget F → Acquisition F
  /-- `refresh_snapshot` up to its acquisition -/
  refreshAdmitted : Text → Text → ScanBudget F → Value F → Value F → Except Raised Unit
  /-- the members of the refresh report besides its acquisition; a review that raises is one of them -/
  refreshMembers : Text → SnapshotAcquisitionReport F → List (Text × Value F)
  recover : Text → Recovery F

def reportValue (report : SnapshotAcquisitionReport F) : Value F :=
  .dict ([(txt "run_id", .str report.runId), (txt "snapshot_id", nullable report.snapshotId)] ++ report.members)

/-- `arguments[key]` -/
def argument (arguments : List (Text × Value F)) (key : Text) : Except Raised (Value F) :=
  match lookup arguments key with
  | some value => .ok value
  | none => .error .argument

def withDefault (arguments : List (Text × Value F)) (key : Text) (value : Value F) : Value F :=
  (lookup arguments key).getD value

def createdIdentity (acquisition : SnapshotAcquisitionReport F) : Text × Value F :=
  (txt "created_identity", .dict [(txt "run_id", .str acquisition.runId),
    (txt "snapshot_id", nullable acquisition.snapshotId)])

end

section
variable {F : Type} [PyFloat F] (session : Session F)

/-- `refresh_snapshot` -/
def refreshSnapshot (scopeId baseSnapshotId : Text) (budget : ScanBudget F) (changeLimit changeOffset : Value F) :
    Operation (SnapshotAcquisitionReport F) := do
  Writing.lift (session.refreshAdmitted scopeId baseSnapshotId budget changeLimit changeOffset)
  acquireSnapshot (session.acquire scopeId budget)

/-- `_update` -/
def update (arguments : List (Text × Value F)) : Operation (OperationResult F) := do
  let action ← Writing.lift (argument arguments (txt "action"))
  let scope ← Writing.lift (argument arguments (txt "scope"))
  let (policy, scopeId) ← Writing.lift (session.resolveUpdateScope scope)
  let budget : ScanBudget F := ⟨withDefault arguments (txt "max_entries") (.int 100000),
    withDefault arguments (txt "max_duration_seconds") (.float (PyFloat.ofLiteral (txt "60.0")))⟩
  let selection : Value F := .dict [(txt "object_kind", .str (txt "SCOPE")), (txt "policy", .str policy),
    (txt "scope_id", .str scopeId)]
  if action.same (.str (txt "ACQUIRE")) then do
    let acquisition ← acquireSnapshot (session.acquire scopeId budget)
    pure ⟨[(txt "acquisition", reportValue acquisition), createdIdentity acquisition], [selection], []⟩
  else if action.same (.str (txt "REFRESH")) then do
    let (baseSnapshotId, baseSelection) ← Writing.lift (session.selector (Value.get arguments (txt "base_selector")))
    let acquisition ← refreshSnapshot session scopeId baseSnapshotId budget
      (withDefault arguments (txt "change_limit") (.int 100)) (withDefault arguments (txt "change_offset") (.int 0))
    pure ⟨[(txt "refresh", .dict ((txt "acquisition", reportValue acquisition) ::
      session.refreshMembers baseSnapshotId acquisition)), createdIdentity acquisition],
      [selection, baseSelection], []⟩
  else Writing.lift (.error .argument)

/-- `_recovery`; `recover_snapshot_acquisition` rejects what is not the text of a UUID. -/
def recovery (arguments : List (Text × Value F)) : Operation (OperationResult F) := do
  let runId ← Writing.lift (argument arguments (txt "run_id"))
  match runId with
  | .str runId => do
    let report ← recoverSnapshotAcquisition (session.recover runId) runId
    pure ⟨[(txt "recovery", reportValue report)], [.dict [(txt "object_kind", .str (txt "RUN")),
      (txt "policy", .str (txt "EXACT_ID")), (txt "run_id", .str runId)]], []⟩
  | _ => Writing.lift (.error (.steward (txt "RUN_NOT_FOUND") none))

/-- `_operation` -/
def operation (toolName : Text) (arguments : List (Text × Value F)) : Operation (OperationResult F) :=
  if toolName = updateTool then update session arguments
  else if toolName = recoveryTool then recovery session arguments
  else Writing.lift (session.read toolName arguments)

/-! ## What operations write -/

section

omit [PyFloat F]

theorem acquireSnapshot_written (a : Acquisition F) :
    (acquireSnapshot a).written.Sublist (acquisitionEvidence a.runId a.snapshotId) := by
  refine Writing.sublist_lift_bind fun _ => ?_
  rw [Writing.written_rethrow]
  change List.Sublist _ ([Effect.run a.runId] ++ ([Effect.run a.runId] ++ ([] ++
    ([Effect.snapshot a.runId a.snapshotId] ++ ([Effect.run a.runId] ++ ([] ++ ([Effect.run a.runId] ++
      ([Effect.run a.runId] ++ ([] ++ [])))))))))
  iterate 9 refine Writing.sublist_call_bind fun _ => ?_
  exact List.Sublist.refl _

theorem finish_written (r : Recovery F) (runId : Text) (status : RunStatus) :
    (r.finish runId status).written.Sublist [.run runId, .run runId] := by
  change List.Sublist _ ([] ++ ([Effect.run runId] ++ ([Effect.run runId] ++ ([] ++ []))))
  refine Writing.sublist_call_bind fun _ => ?_
  refine Writing.sublist_bind ((Writing.sublist_call _ _).trans ?_) fun _ => ?_
  · split_ifs
    · exact List.Sublist.refl _
    · exact List.nil_sublist _
  refine Writing.sublist_bind ((Writing.sublist_call _ _).trans ?_) fun _ => ?_
  · split_ifs
    · exact List.nil_sublist _
    · exact List.Sublist.refl _
  exact Writing.sublist_call_bind fun _ => List.Sublist.refl _

theorem recoverSnapshotAcquisition_written (r : Recovery F) (runId : Text) :
    (recoverSnapshotAcquisition r runId).written.Sublist [.run runId, .run runId, .run runId] := by
  have hclosed : List.Sublist [Effect.run runId] [.run runId, .run runId, .run runId] := by simp
  have hfinished (status : RunStatus) :
      (r.finish runId status).written.Sublist [.run runId, .run runId, .run runId] :=
    (finish_written r runId status).trans (by simp)
  have hpublished : (Writing.call r.project [] >>= fun _ => pure r.report :
      Operation (SnapshotAcquisitionReport F)).written.Sublist [] :=
    Writing.sublist_call_bind fun _ => List.Sublist.refl []
  refine Writing.sublist_lift_bind fun _ => ?_
  split
  · exact (Writing.sublist_call_bind (w := [Effect.run runId]) fun _ => hpublished).trans hclosed
  · exact (Writing.sublist_call_bind (w := [Effect.run runId]) fun _ => hpublished).trans hclosed
  · exact Writing.sublist_call_bind (w := [Effect.run runId]) fun _ => finish_written r runId _
  · exact hfinished _
  · exact hfinished _
  · exact hfinished _
  · exact hfinished _
  · exact hpublished.trans (List.nil_sublist _)
  · exact hpublished.trans (List.nil_sublist _)
  · exact List.nil_sublist _

end

variable {session} {toolName : Text} {arguments : List (Text × Value F)}

/-- An update writes Evidence of one acquisition. -/
theorem update_written : ∃ runId snapshotId, (update session arguments).written.Sublist
    (acquisitionEvidence runId snapshotId) := by
  let P : List Effect → Prop := fun ws => ∃ runId snapshotId, ws.Sublist (acquisitionEvidence runId snapshotId)
  have hnil : P [] := ⟨[], [], List.nil_sublist _⟩
  have hacquired (a : Acquisition F) : P (acquireSnapshot a).written := ⟨_, _, acquireSnapshot_written a⟩
  refine Writing.lift_bind_induction (P := P) hnil fun action _ => ?_
  refine Writing.lift_bind_induction (P := P) hnil fun scope _ => ?_
  refine Writing.lift_bind_induction (P := P) hnil fun ⟨policy, scopeId⟩ _ => ?_
  simp only
  split_ifs
  · rw [Writing.written_bind_pure]
    exact hacquired _
  · refine Writing.lift_bind_induction (P := P) hnil fun base _ => ?_
    rw [Writing.written_bind_pure]
    exact Writing.lift_bind_induction (P := P) hnil fun _ _ => hacquired _
  · exact hnil

/-- A recovery writes Evidence of the Run it is given, and no Snapshot. -/
theorem recovery_written : ∀ e ∈ (recovery session arguments).written,
    lookup arguments (txt "run_id") = some (.str e.runId) ∧ e.isSnapshot = false := by
  let P : List Effect → Prop := fun ws =>
    ∀ e ∈ ws, lookup arguments (txt "run_id") = some (.str e.runId) ∧ e.isSnapshot = false
  have hnil : P [] := by simp [P]
  refine Writing.lift_bind_induction (P := P) hnil fun runId hrunId => ?_
  split
  · rename_i runId
    have hgiven : lookup arguments (txt "run_id") = some (.str runId) := by
      unfold argument at hrunId
      split at hrunId
      · rename_i h
        rw [h, Except.ok.inj hrunId]
      · cases hrunId
    rw [Writing.written_bind_pure]
    intro e he
    have hrun := (recoverSnapshotAcquisition_written (session.recover runId) runId).subset he
    simp only [List.mem_cons, List.not_mem_nil, or_false, or_self] at hrun
    rw [hrun]
    exact ⟨hgiven, rfl⟩
  · exact hnil

/-- An operation publishes at most one Snapshot. -/
theorem operation_snapshots : (operation session toolName arguments).written.countP Effect.isSnapshot ≤ 1 := by
  unfold operation
  split_ifs
  · obtain ⟨runId, snapshotId, h⟩ : ∃ runId snapshotId, (update session arguments).written.Sublist
        (acquisitionEvidence runId snapshotId) := update_written
    exact h.countP_le
  · rw [List.countP_eq_zero.2 fun e he => by simp [(recovery_written e he).2]]
    exact Nat.zero_le 1
  · exact Nat.zero_le 1

/-- The read tools write nothing. -/
theorem operation_read (hupdate : toolName ≠ updateTool) (hrecovery : toolName ≠ recoveryTool) :
    (operation session toolName arguments).written = [] := by
  rw [operation, if_neg hupdate, if_neg hrecovery, Writing.written_lift]

end

end Steward.Native
