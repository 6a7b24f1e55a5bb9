import Steward.Lifecycle
import Steward.Storage.Inventory

/-!
# Classified replay plans

The accounting `classify_operational_evidence` returns, its digest, and
`validate_classified_replay_plan`, which re-derives the conclusion from the plan
alone. `Sound` says when it finds nothing.
-/

namespace Steward

open Py Sqlite

variable {F : Type} [SqliteFloat F]

inductive EvidenceIntegrityStatus where
  | valid | invalid | unknown
  deriving DecidableEq, Repr

instance : Named EvidenceIntegrityStatus where
  all := [.valid, .invalid, .unknown]
  name
    | .valid => txt "VALID"
    | .invalid => txt "INVALID"
    | .unknown => txt "UNKNOWN"

inductive SemanticConsistencyStatus where
  | consistent | inconsistent | unknown
  deriving DecidableEq, Repr

instance : Named SemanticConsistencyStatus where
  all := [.consistent, .inconsistent, .unknown]
  name
    | .consistent => txt "CONSISTENT"
    | .inconsistent => txt "INCONSISTENT"
    | .unknown => txt "UNKNOWN"

inductive ReplayEligibility where
  | eligible | ineligible
  deriving DecidableEq, Repr

instance : Named ReplayEligibility where
  all := [.eligible, .ineligible]
  name
    | .eligible => txt "ELIGIBLE"
    | .ineligible => txt "INELIGIBLE"

/-! ## Accounting -/

/-- `run_kind` and `last_evidence_digest` are copied from documents that need not be valid. -/
structure RunEvidenceAccountingItem (F : Type) where
  runId : Text
  evidenceCount : Nat
  evidenceIntegrity : EvidenceIntegrityStatus
  runKind : Value F
  finalStatus : Option RunStatus
  lastEvidenceDigest : Value F
  evidenceIds : List Text
  evidenceDigests : List Text
  issueCodes : List Text

structure ClassifiedSnapshotEntryAccountingItem where
  entryId : Text
  snapshotId : Text
  scopeId : Text
  relativePath : Text
  evidenceId : Option Text
  evidenceRelativePath : Option Text
  evidenceDigest : Option Text
  replayEligibility : Option ReplayEligibility
  reasonCodes : List Text
  deriving DecidableEq

/-- The code never sets `replayed`. -/
structure ClassifiedSnapshotReplayItem where
  snapshotId : Option Text
  evidenceId : Option Text
  persistentRunId : Option Text
  evidenceRelativePath : Option Text
  evidenceDigest : Option Text
  entryCount : Nat
  evidenceIntegrity : EvidenceIntegrityStatus
  semanticConsistency : SemanticConsistencyStatus
  replayEligibility : Option ReplayEligibility
  reasonCodes : List Text
  entries : List ClassifiedSnapshotEntryAccountingItem
  deriving DecidableEq

structure PlanCounts where
  totalRunCount : Nat
  totalEvidenceCount : Nat
  totalSnapshotCount : Nat
  totalSnapshotEntryCount : Nat
  eligibleSnapshotCount : Nat
  eligibleEntryCount : Nat
  ineligibleSnapshotCount : Nat
  ineligibleEntryCount : Nat
  nonSnapshotRunCount : Nat
  nonSnapshotEvidenceCount : Nat
  deriving DecidableEq

/-- The counts as a tuple, in field order. -/
def PlanCounts.values (c : PlanCounts) : List Nat :=
  [c.totalRunCount, c.totalEvidenceCount, c.totalSnapshotCount, c.totalSnapshotEntryCount,
    c.eligibleSnapshotCount, c.eligibleEntryCount, c.ineligibleSnapshotCount, c.ineligibleEntryCount,
    c.nonSnapshotRunCount, c.nonSnapshotEvidenceCount]

structure ClassifiedIssue where
  code : Text
  message : Text
  snapshotId : Text
  evidenceId : Text
  persistentRunId : Text
  path : Text
  deriving DecidableEq

structure ClassifiedReplayPlan (F : Type) where
  classificationComplete : Bool
  counts : PlanCounts
  accountingDigest : Text
  runs : List (RunEvidenceAccountingItem F)
  snapshots : List ClassifiedSnapshotReplayItem
  issues : List ClassifiedIssue

/-! ## The accounting digest -/

def texts (ts : List Text) : Value F := .list (ts.map .str)

/-- `status.value if status else None` -/
def optName {κ : Type} [Named κ] (a : Option κ) : Value F := optText (a.map Named.name)

def RunEvidenceAccountingItem.toValue (r : RunEvidenceAccountingItem F) : Value F :=
  .dict [(txt "run_id", .str r.runId),
    (txt "evidence_count", .int r.evidenceCount),
    (txt "evidence_integrity", nameValue r.evidenceIntegrity),
    (txt "run_kind", r.runKind),
    (txt "final_status", optName r.finalStatus),
    (txt "last_evidence_digest", r.lastEvidenceDigest),
    (txt "evidence_ids", texts r.evidenceIds),
    (txt "evidence_digests", texts r.evidenceDigests),
    (txt "issue_codes", texts r.issueCodes)]

def ClassifiedSnapshotEntryAccountingItem.toValue (e : ClassifiedSnapshotEntryAccountingItem) : Value F :=
  .dict [(txt "entry_id", .str e.entryId),
    (txt "snapshot_id", .str e.snapshotId),
    (txt "scope_id", .str e.scopeId),
    (txt "relative_path", .str e.relativePath),
    (txt "evidence_id", optText e.evidenceId),
    (txt "evidence_relative_path", optText e.evidenceRelativePath),
    (txt "evidence_digest", optText e.evidenceDigest),
    (txt "replay_eligibility", optName e.replayEligibility),
    (txt "reason_codes", texts e.reasonCodes)]

def ClassifiedSnapshotReplayItem.toValue (s : ClassifiedSnapshotReplayItem) : Value F :=
  .dict [(txt "snapshot_id", optText s.snapshotId),
    (txt "evidence_id", optText s.evidenceId),
    (txt "persistent_run_id", optText s.persistentRunId),
    (txt "evidence_relative_path", optText s.evidenceRelativePath),
    (txt "evidence_digest", optText s.evidenceDigest),
    (txt "entry_count", .int s.entryCount),
    (txt "evidence_integrity", nameValue s.evidenceIntegrity),
    (txt "semantic_consistency", nameValue s.semanticConsistency),
    (txt "replay_eligibility", optName s.replayEligibility),
    (txt "reason_codes", texts s.reasonCodes),
    (txt "entries", .list (s.entries.map ClassifiedSnapshotEntryAccountingItem.toValue))]

def accountingValue (runs : List (RunEvidenceAccountingItem F))
    (snapshots : List ClassifiedSnapshotReplayItem) (counts : PlanCounts) : Value F :=
  .dict [(txt "domain", lit "local_steward.classified_operational_replay.accounting.v1"),
    (txt "counts", .list (counts.values.map fun n => .int n)),
    (txt "runs", .list (runs.map RunEvidenceAccountingItem.toValue)),
    (txt "snapshots", .list (snapshots.map ClassifiedSnapshotReplayItem.toValue))]

/-- `_classified_accounting_digest` -/
def classifiedAccountingDigest (runs : List (RunEvidenceAccountingItem F))
    (snapshots : List ClassifiedSnapshotReplayItem) (counts : PlanCounts) : Result Text :=
  digestOf (accountingValue runs snapshots counts)

/-! ### The values it digests -/

theorem safe_optText {t : Option Text} :
    (optText (F := F) t).safe = true ↔ ∀ s ∈ t, s.encodable = true := by
  cases t <;> simp [optText]

theorem safe_texts {ts : List Text} :
    (texts (F := F) ts).safe = true ↔ ∀ t ∈ ts, t.encodable = true := by
  simp [texts, Value.safe_list]

theorem safe_optName {κ : Type} [Named κ] (a : Option κ) : (optName (F := F) a).safe = true := by
  rw [optName, safe_optText]
  rintro t ht
  obtain ⟨k, -, rfl⟩ := Option.mem_map.1 ht
  exact Named.encodable k

/-- An object whose keys are ASCII literals. -/
theorem safe_object (ks : List String) {fs : List (Text × Value F)} (hk : keys fs = ks.map txt)
    (h : (ks.map txt).all Text.encodable = true) :
    (Value.dict fs).safe = true ↔ ∀ f ∈ fs, f.2.safe = true := by
  rw [Value.safe_dict, hk]
  exact and_iff_right fun k hk => List.all_eq_true.1 h k hk

theorem safe_runItem {r : RunEvidenceAccountingItem F} : r.toValue.safe = true ↔
    r.runId.encodable = true ∧ r.runKind.safe = true ∧ r.lastEvidenceDigest.safe = true ∧
      (∀ t ∈ r.evidenceIds, t.encodable = true) ∧ (∀ t ∈ r.evidenceDigests, t.encodable = true) ∧
      ∀ t ∈ r.issueCodes, t.encodable = true := by
  rw [RunEvidenceAccountingItem.toValue, safe_object ["run_id", "evidence_count", "evidence_integrity",
    "run_kind", "final_status", "last_evidence_digest", "evidence_ids", "evidence_digests", "issue_codes"]
    rfl (by decide)]
  simp [safe_texts, safe_optName, nameValue, Named.encodable]

theorem safe_entryItem {e : ClassifiedSnapshotEntryAccountingItem} :
    (e.toValue (F := F)).safe = true ↔
      e.entryId.encodable = true ∧ e.snapshotId.encodable = true ∧ e.scopeId.encodable = true ∧
      e.relativePath.encodable = true ∧ (∀ t ∈ e.evidenceId, t.encodable = true) ∧
      (∀ t ∈ e.evidenceRelativePath, t.encodable = true) ∧ (∀ t ∈ e.evidenceDigest, t.encodable = true) ∧
      ∀ t ∈ e.reasonCodes, t.encodable = true := by
  rw [ClassifiedSnapshotEntryAccountingItem.toValue, safe_object ["entry_id", "snapshot_id", "scope_id",
    "relative_path", "evidence_id", "evidence_relative_path", "evidence_digest", "replay_eligibility",
    "reason_codes"] rfl (by decide)]
  simp [safe_texts, safe_optName, safe_optText]

theorem safe_snapshotItem {s : ClassifiedSnapshotReplayItem} :
    (s.toValue (F := F)).safe = true ↔
      (∀ t ∈ s.snapshotId, t.encodable = true) ∧ (∀ t ∈ s.evidenceId, t.encodable = true) ∧
      (∀ t ∈ s.persistentRunId, t.encodable = true) ∧ (∀ t ∈ s.evidenceRelativePath, t.encodable = true) ∧
      (∀ t ∈ s.evidenceDigest, t.encodable = true) ∧ (∀ t ∈ s.reasonCodes, t.encodable = true) ∧
      ∀ e ∈ s.entries, (e.toValue (F := F)).safe = true := by
  rw [ClassifiedSnapshotReplayItem.toValue, safe_object ["snapshot_id", "evidence_id",
    "persistent_run_id", "evidence_relative_path", "evidence_digest", "entry_count", "evidence_integrity",
    "semantic_consistency", "replay_eligibility", "reason_codes", "entries"] rfl (by decide)]
  simp [safe_texts, safe_optName, safe_optText, nameValue, Named.encodable, Value.safe_list]

theorem safe_accountingValue {runs : List (RunEvidenceAccountingItem F)}
    {snapshots : List ClassifiedSnapshotReplayItem} {counts : PlanCounts} :
    (accountingValue runs snapshots counts).safe = true ↔
      (∀ r ∈ runs, r.toValue.safe = true) ∧ ∀ s ∈ snapshots, (s.toValue (F := F)).safe = true := by
  have hdomain : (lit (F := F) "local_steward.classified_operational_replay.accounting.v1").safe = true :=
    (by decide :
      (txt "local_steward.classified_operational_replay.accounting.v1").encodable = true)
  rw [accountingValue, safe_object ["domain", "counts", "runs", "snapshots"] rfl (by decide)]
  simp [Value.safe_list, hdomain]

/-! ## Validation -/

/-- `_classified_issue` without identity. -/
def corpusIssue (code message : String) : ClassifiedIssue := ⟨txt code, txt message, [], [], [], []⟩

/-- `_classified_issue(code, message, **identity)` for an item of the plan. -/
def ClassifiedSnapshotReplayItem.issue (s : ClassifiedSnapshotReplayItem) (code message : String) :
    ClassifiedIssue :=
  ⟨txt code, txt message, orEmpty s.snapshotId, orEmpty s.evidenceId, orEmpty s.persistentRunId,
    orEmpty s.evidenceRelativePath⟩

/-- The only reason a Snapshot may be excluded for. -/
def governedReason : Text := txt "SNAPSHOT_RUN_STATUS_INVALID"

/-- `set(reason_codes) == {"SNAPSHOT_RUN_STATUS_INVALID"}` -/
def onlyGovernedReason (codes : List Text) : Bool := codes ≠ [] && codes.all (· = governedReason)

def exclusionIssues (s : ClassifiedSnapshotReplayItem) : List ClassifiedIssue :=
  if s.evidenceIntegrity ≠ .valid then
    [s.issue "OPERATIONAL_REPLAY_EVIDENCE_INTEGRITY_FAILED"
      "Snapshot Evidence did not pass structural integrity validation"]
  else if s.semanticConsistency = .unknown then
    [s.issue "OPERATIONAL_REPLAY_SEMANTIC_CONSISTENCY_UNKNOWN"
      "Snapshot semantic consistency could not be classified"]
  else if s.replayEligibility = none then
    [s.issue "OPERATIONAL_REPLAY_ELIGIBILITY_UNCLASSIFIED"
      "Snapshot replay eligibility was not classified"]
  else if s.replayEligibility = some .ineligible ∧
      (s.semanticConsistency ≠ .inconsistent ∨ onlyGovernedReason s.reasonCodes = false) then
    [s.issue "OPERATIONAL_REPLAY_EXCLUSION_NOT_GOVERNED"
      "Snapshot exclusion is outside the frozen lifecycle-mismatch rule"]
  else []

def snapshotIssues (s : ClassifiedSnapshotReplayItem) : List ClassifiedIssue :=
  exclusionIssues s ++
    if s.entryCount ≠ s.entries.length then
      [s.issue "OPERATIONAL_REPLAY_ENTRY_ACCOUNTING_INCOMPLETE"
        "Snapshot Entry identities do not match the classified entry count"]
    else []

def ofEligibility (e : ReplayEligibility) (snapshots : List ClassifiedSnapshotReplayItem) :
    List ClassifiedSnapshotReplayItem := snapshots.filter (·.replayEligibility = some e)

def plannedEntries (snapshots : List ClassifiedSnapshotReplayItem) : Nat := (snapshots.map (·.entryCount)).sum

/-- The counts of the partitions; those of the Runs without Snapshot are taken over. -/
def expectedCounts (plan : ClassifiedReplayPlan F) : PlanCounts :=
  { plan.counts with
    totalRunCount := plan.runs.length
    totalEvidenceCount := (plan.runs.map (·.evidenceCount)).sum
    totalSnapshotCount := plan.snapshots.length
    totalSnapshotEntryCount := plannedEntries plan.snapshots
    eligibleSnapshotCount := (ofEligibility .eligible plan.snapshots).length
    eligibleEntryCount := plannedEntries (ofEligibility .eligible plan.snapshots)
    ineligibleSnapshotCount := (ofEligibility .ineligible plan.snapshots).length
    ineligibleEntryCount := plannedEntries (ofEligibility .ineligible plan.snapshots) }

def planIssues (plan : ClassifiedReplayPlan F) (digest : Text) : List ClassifiedIssue :=
  (if plan.runs.any (·.evidenceIntegrity ≠ .valid) then
    [corpusIssue "OPERATIONAL_REPLAY_EVIDENCE_INTEGRITY_FAILED"
      "one or more Run ledgers are not structurally trustworthy"] else []) ++
  plan.snapshots.flatMap snapshotIssues ++
  (if plan.counts ≠ expectedCounts plan then
    [corpusIssue "OPERATIONAL_REPLAY_ACCOUNTING_INCOMPLETE"
      "classified replay counts do not account for the complete corpus"] else []) ++
  (if plan.accountingDigest ≠ digest then
    [corpusIssue "OPERATIONAL_REPLAY_ACCOUNTING_DIGEST_INVALID"
      "classified replay accounting digest does not match the plan"] else []) ++
  (if plan.classificationComplete = false then
    [corpusIssue "OPERATIONAL_REPLAY_CLASSIFICATION_INCOMPLETE"
      "classified replay plan is not complete"] else [])

/-- The key issues are collected and ordered by. -/
def ClassifiedIssue.key (q : ClassifiedIssue) : Text ×ₗ Text ×ₗ Text ×ₗ Text :=
  toLex (q.code, toLex (q.snapshotId, toLex (q.evidenceId, q.persistentRunId)))

/-- Reject incomplete accounting and every non-governed exclusion deterministically. -/
def validateClassifiedReplayPlan (plan : ClassifiedReplayPlan F) : Result (List ClassifiedIssue) := do
  let digest ← classifiedAccountingDigest plan.runs plan.snapshots plan.counts
  pure (sortedBy ClassifiedIssue.key (collectBy ClassifiedIssue.key (planIssues plan digest)))

/-! ## Plans without issues -/

/-- What a valid item of a plan looks like. -/
structure Governed (s : ClassifiedSnapshotReplayItem) : Prop where
  integrity : s.evidenceIntegrity = .valid
  semantic : s.semanticConsistency ≠ .unknown
  classified : s.replayEligibility ≠ none
  excluded : s.replayEligibility = some .ineligible →
    s.semanticConsistency = .inconsistent ∧ onlyGovernedReason s.reasonCodes = true
  entries : s.entryCount = s.entries.length

/-- The plan conclusion, re-derived from the plan. -/
structure ClassifiedReplayPlan.Sound (plan : ClassifiedReplayPlan F) : Prop where
  runs : ∀ r ∈ plan.runs, r.evidenceIntegrity = .valid
  snapshots : ∀ s ∈ plan.snapshots, Governed s
  counts : plan.counts = expectedCounts plan
  digest : classifiedAccountingDigest plan.runs plan.snapshots plan.counts = .ok plan.accountingDigest
  complete : plan.classificationComplete = true

theorem exclusionIssues_eq_nil {s : ClassifiedSnapshotReplayItem} : exclusionIssues s = [] ↔
    s.evidenceIntegrity = .valid ∧ s.semanticConsistency ≠ .unknown ∧ s.replayEligibility ≠ none ∧
      (s.replayEligibility = some .ineligible →
        s.semanticConsistency = .inconsistent ∧ onlyGovernedReason s.reasonCodes = true) := by
  unfold exclusionIssues
  split_ifs with h1 h2 h3 h4
  · simp [h1]
  · simp [h2]
  · simp [h3]
  · obtain ⟨he, h⟩ := h4
    rw [iff_false_left (by simp)]
    rintro ⟨-, -, -, hx⟩
    obtain ⟨hs, hr⟩ := hx he
    rcases h with h | h
    · exact h hs
    · rw [hr] at h; cases h
  · rw [iff_true_left rfl]
    refine ⟨not_not.1 h1, h2, h3, fun he => ?_⟩
    rw [not_and, not_or, not_not, Bool.not_eq_false] at h4
    exact h4 he

theorem snapshotIssues_eq_nil {s : ClassifiedSnapshotReplayItem} : snapshotIssues s = [] ↔ Governed s := by
  rw [snapshotIssues, List.append_eq_nil_iff, exclusionIssues_eq_nil, ite_eq_right_iff]
  constructor
  · rintro ⟨⟨h1, h2, h3, h4⟩, h5⟩
    exact ⟨h1, h2, h3, h4, not_not.1 fun h => by cases h5 h⟩
  · rintro ⟨h1, h2, h3, h4, h5⟩
    exact ⟨⟨h1, h2, h3, h4⟩, fun h => absurd h5 h⟩

/-- The validator finds nothing exactly on sound plans. -/
theorem validate_eq_nil {plan : ClassifiedReplayPlan F} :
    validateClassifiedReplayPlan plan = .ok [] ↔ plan.Sound := by
  have hone {c : Prop} [Decidable c] {q : ClassifiedIssue} : (if c then [q] else []) = [] ↔ ¬ c := by
    split_ifs with h <;> simp [h]
  have hissues (d : Text) : planIssues plan d = [] ↔ (∀ r ∈ plan.runs, r.evidenceIntegrity = .valid) ∧
      (∀ s ∈ plan.snapshots, Governed s) ∧ plan.counts = expectedCounts plan ∧
      plan.accountingDigest = d ∧ plan.classificationComplete = true := by
    simp only [planIssues, List.append_eq_nil_iff, hone, List.flatMap_eq_nil_iff, snapshotIssues_eq_nil,
      List.any_eq_true, decide_eq_true_eq, not_exists, not_and, ne_eq, not_not, Bool.not_eq_false, and_assoc]
  simp only [validateClassifiedReplayPlan, bind_eq_ok, pure_eq_ok, sortedBy_eq_nil, collectBy_eq_nil, hissues]
  constructor
  · rintro ⟨d, hd, h1, h2, h3, h4, h5⟩
    exact ⟨h1, h2, h3, h4 ▸ hd, h5⟩
  · rintro ⟨h1, h2, h3, h4, h5⟩
    exact ⟨_, h4, h1, h2, h3, rfl, h5⟩

end Steward
