import Steward.Replay.Plan
import Steward.Sqlite.Integral

/-!
# The operational inventory assessment

`_operational_inventory_assessment` compares an inventory of the derived index
with a classified plan. It keeps one item for each evidence id, the last; an
earlier one is never looked at, and `Masked` says when that hides a misfit.
-/

namespace Steward

open Py

variable {F : Type}

/-- Rows of the Snapshot or of its entries are in the index. -/
def SnapshotInventoryItem.hasRows (i : SnapshotInventoryItem) : Bool :=
  i.indexPresent || i.indexedEntryCount ≠ 0

/-- `inventory_by_evidence.get(evidence_id)` -/
def inventoryByEvidence (items : List SnapshotInventoryItem) (evidenceId : Option Text) :
    Option SnapshotInventoryItem :=
  if evidenceId = none then none else (items.filter (·.evidenceId = evidenceId)).getLast?

/-- `evidence_id in planned_ids` -/
def planned (snapshots : List ClassifiedSnapshotReplayItem) (evidenceId : Option Text) : Bool :=
  evidenceId ≠ none && snapshots.any (·.evidenceId = evidenceId)

/-- The index holds the item as the plan has it. -/
def indexedAsPlanned (s : ClassifiedSnapshotReplayItem) (i : SnapshotInventoryItem) : Bool :=
  i.indexPresent && i.indexedEntryCount = s.entryCount && i.issueCodes = []

def plannedIssues (items : List SnapshotInventoryItem) (s : ClassifiedSnapshotReplayItem) :
    List ClassifiedIssue :=
  let indexed := inventoryByEvidence items s.evidenceId
  match s.replayEligibility with
  | some .ineligible =>
    if indexed.any SnapshotInventoryItem.hasRows then
      [s.issue "OPERATIONAL_REPLAY_INELIGIBLE_ROWS_PRESENT"
        "replay-ineligible Snapshot or Entry rows exist in the derived index"]
    else []
  | some .eligible =>
    if indexed.any (indexedAsPlanned s) then []
    else [s.issue "OPERATIONAL_REPLAY_ELIGIBLE_ROWS_INCOMPLETE"
      "eligible Snapshot business rows are missing or inconsistent"]
  | none => []

def unplannedIssues (snapshots : List ClassifiedSnapshotReplayItem) (i : SnapshotInventoryItem) :
    List ClassifiedIssue :=
  if !planned snapshots i.evidenceId && i.hasRows then
    [⟨txt "OPERATIONAL_REPLAY_UNACCOUNTED_INDEX_ROWS",
      txt "derived Snapshot rows are not represented in classified accounting",
      orEmpty i.snapshotId, orEmpty i.evidenceId, orEmpty i.persistentRunId, orEmpty i.evidenceRelativePath⟩]
  else []

def blockingIssues (inventory : SnapshotInventory) (plan : ClassifiedReplayPlan F) : List ClassifiedIssue :=
  plan.snapshots.flatMap (plannedIssues inventory.items) ++
  inventory.items.flatMap (unplannedIssues plan.snapshots) ++
  if inventory.indexedSnapshots ≠ plan.counts.eligibleSnapshotCount ∨
      inventory.indexedEntryCount ≠ plan.counts.eligibleEntryCount then
    [corpusIssue "OPERATIONAL_REPLAY_INDEX_COUNT_MISMATCH"
      "derived Snapshot counts differ from the classified eligible set"]
  else []

def diagnosticIssues (plan : ClassifiedReplayPlan F) : List ClassifiedIssue :=
  (ofEligibility .ineligible plan.snapshots).map fun s => s.issue "SNAPSHOT_RUN_STATUS_INVALID"
    "historical Snapshot is replay-ineligible under classified operational replay"

inductive OperationalStatus where
  | healthy | inconsistent
  deriving DecidableEq, Repr

structure OperationalAssessment where
  status : OperationalStatus
  blocking : List ClassifiedIssue
  diagnostics : List ClassifiedIssue

/-- Compare one derived index with the frozen classified eligible Snapshot set. -/
def operationalInventoryAssessment (inventory : SnapshotInventory) (plan : ClassifiedReplayPlan F) :
    OperationalAssessment :=
  let blocking := sortedBy ClassifiedIssue.key (blockingIssues inventory plan)
  { status := if blocking = [] then .healthy else .inconsistent
    blocking
    diagnostics := sortedBy (fun q => toLex (q.code, toLex (q.snapshotId, q.evidenceId)))
      (diagnosticIssues plan) }

/-! ## Exactness -/

variable {inventory : SnapshotInventory} {plan : ClassifiedReplayPlan F}

/-- What the plan asks of an item of its Snapshot. -/
def suits (s : ClassifiedSnapshotReplayItem) (i : SnapshotInventoryItem) : Bool :=
  match s.replayEligibility with
  | some .eligible => indexedAsPlanned s i
  | some .ineligible => !i.hasRows
  | none => true

/-- The Snapshots of the index, by evidence id. -/
def indexedIds (inventory : SnapshotInventory) : Set Text :=
  {e | ∃ i ∈ inventory.items, i.indexPresent = true ∧ i.evidenceId = some e}

/-- The eligible Snapshots of the plan, by evidence id. -/
def eligibleIds (plan : ClassifiedReplayPlan F) : Set Text :=
  {e | ∃ s ∈ plan.snapshots, s.replayEligibility = some .eligible ∧ s.evidenceId = some e}

/-- The index holds the eligible Snapshots of the plan, each as planned, and nothing else. -/
structure ExactIndex (inventory : SnapshotInventory) (plan : ClassifiedReplayPlan F) : Prop where
  ids : indexedIds inventory = eligibleIds plan
  identified : ∀ s ∈ plan.snapshots, s.replayEligibility = some .eligible → s.evidenceId ≠ none
  eligible : ∀ s ∈ plan.snapshots, s.replayEligibility = some .eligible →
    ∀ i ∈ inventory.items, i.evidenceId = s.evidenceId →
      i.indexPresent = true ∧ i.indexedEntryCount = s.entryCount ∧ i.issueCodes = []
  ineligible : ∀ s ∈ plan.snapshots, s.replayEligibility = some .ineligible → s.evidenceId ≠ none →
    ∀ i ∈ inventory.items, i.evidenceId = s.evidenceId → i.hasRows = false
  unplanned : ∀ i ∈ inventory.items, (∀ s ∈ plan.snapshots, i.evidenceId = none ∨ s.evidenceId ≠ i.evidenceId) →
    i.hasRows = false
  totals : inventory.indexedSnapshots = plan.counts.eligibleSnapshotCount ∧
    inventory.indexedEntryCount = plan.counts.eligibleEntryCount

/-- What the assessment looks at is as planned. -/
structure Apparent (inventory : SnapshotInventory) (plan : ClassifiedReplayPlan F) : Prop where
  eligible : ∀ s ∈ plan.snapshots, s.replayEligibility = some .eligible →
    ∃ i ∈ inventoryByEvidence inventory.items s.evidenceId, suits s i = true
  ineligible : ∀ s ∈ plan.snapshots, s.replayEligibility = some .ineligible →
    ∀ i ∈ inventoryByEvidence inventory.items s.evidenceId, suits s i = true
  unplanned : ∀ i ∈ inventory.items, planned plan.snapshots i.evidenceId = false → i.hasRows = false
  totals : inventory.indexedSnapshots = plan.counts.eligibleSnapshotCount ∧
    inventory.indexedEntryCount = plan.counts.eligibleEntryCount

/-- An item of a planned Snapshot is not as planned and followed by another of the same evidence id,
and everything else is as planned. -/
def Masked (inventory : SnapshotInventory) (plan : ClassifiedReplayPlan F) : Prop :=
  (∃ s ∈ plan.snapshots, ∃ i ∈ inventory.items, s.evidenceId ≠ none ∧ i.evidenceId = s.evidenceId ∧
    inventoryByEvidence inventory.items i.evidenceId ≠ some i ∧ suits s i = false) ∧
  Apparent inventory plan

theorem mem_of_inventoryByEvidence {items : List SnapshotInventoryItem} {e : Option Text}
    {i : SnapshotInventoryItem} (h : inventoryByEvidence items e = some i) :
    i ∈ items ∧ e ≠ none ∧ i.evidenceId = e := by
  unfold inventoryByEvidence at h
  split_ifs at h with he
  have hmem := List.mem_of_getLast? h
  rw [List.mem_filter, decide_eq_true_eq] at hmem
  exact ⟨hmem.1, he, hmem.2⟩

theorem inventoryByEvidence_isSome {items : List SnapshotInventoryItem} {i : SnapshotInventoryItem}
    (hi : i ∈ items) (he : i.evidenceId ≠ none) : ∃ j, inventoryByEvidence items i.evidenceId = some j := by
  have hmem : i ∈ items.filter (·.evidenceId = i.evidenceId) :=
    List.mem_filter.2 ⟨hi, decide_eq_true rfl⟩
  rw [inventoryByEvidence, if_neg he, List.getLast?_eq_some_getLast (List.ne_nil_of_mem hmem)]
  exact ⟨_, rfl⟩

theorem planned_eq_false {snapshots : List ClassifiedSnapshotReplayItem} {e : Option Text} :
    planned snapshots e = false ↔ ∀ s ∈ snapshots, e = none ∨ s.evidenceId ≠ e := by
  cases e with
  | none => simp [planned]
  | some e => simp [planned]

/-- The assessment is healthy exactly when what it looks at is as planned. -/
theorem healthy_iff_apparent :
    (operationalInventoryAssessment inventory plan).status = .healthy ↔ Apparent inventory plan := by
  have hstatus : (operationalInventoryAssessment inventory plan).status = .healthy ↔
      blockingIssues inventory plan = [] := by
    rw [operationalInventoryAssessment]
    simp only [sortedBy_eq_nil]
    split_ifs with h <;> simp [h]
  have hplanned (s : ClassifiedSnapshotReplayItem) : plannedIssues inventory.items s = [] ↔
      (s.replayEligibility = some .eligible →
        ∃ i ∈ inventoryByEvidence inventory.items s.evidenceId, suits s i = true) ∧
      (s.replayEligibility = some .ineligible →
        ∀ i ∈ inventoryByEvidence inventory.items s.evidenceId, suits s i = true) := by
    unfold plannedIssues suits
    cases s.replayEligibility with
    | none => simp
    | some e =>
      cases e with
      | eligible => cases inventoryByEvidence inventory.items s.evidenceId <;> simp
      | ineligible => cases inventoryByEvidence inventory.items s.evidenceId <;> simp
  have hunplanned (i : SnapshotInventoryItem) : unplannedIssues plan.snapshots i = [] ↔
      (planned plan.snapshots i.evidenceId = false → i.hasRows = false) := by
    unfold unplannedIssues
    cases planned plan.snapshots i.evidenceId <;> cases i.hasRows <;> simp
  rw [hstatus]
  simp only [blockingIssues, List.append_eq_nil_iff, List.flatMap_eq_nil_iff, hplanned, hunplanned]
  constructor
  · rintro ⟨⟨h1, h2⟩, h3⟩
    refine ⟨fun s hs => (h1 s hs).1, fun s hs => (h1 s hs).2, h2, ?_⟩
    by_contra hne
    rw [if_pos (by rwa [not_and_or] at hne)] at h3
    cases h3
  · rintro ⟨h1, h2, h3, h4⟩
    refine ⟨⟨fun s hs => ⟨h1 s hs, h2 s hs⟩, h3⟩, if_neg ?_⟩
    rw [not_or, not_not, not_not]
    exact h4

theorem suits_of_eligible {s : ClassifiedSnapshotReplayItem} {i : SnapshotInventoryItem}
    (h : s.replayEligibility = some .eligible) : suits s i = true ↔
      i.indexPresent = true ∧ i.indexedEntryCount = s.entryCount ∧ i.issueCodes = [] := by
  rw [suits, h]
  simp [indexedAsPlanned, and_assoc]

theorem suits_of_ineligible {s : ClassifiedSnapshotReplayItem} {i : SnapshotInventoryItem}
    (h : s.replayEligibility = some .ineligible) : suits s i = true ↔ i.hasRows = false := by
  rw [suits, h]
  simp

/-- An exact index looks exact. -/
theorem ExactIndex.apparent (h : ExactIndex inventory plan) : Apparent inventory plan where
  eligible s hs he := by
    obtain ⟨e, hid⟩ := Option.ne_none_iff_exists'.1 (h.identified s hs he)
    have hmem : e ∈ indexedIds inventory := h.ids ▸ ⟨s, hs, he, hid⟩
    obtain ⟨i, hi, -, hie⟩ := hmem
    obtain ⟨j, hj⟩ := inventoryByEvidence_isSome hi (by rw [hie]; simp)
    rw [hie, ← hid] at hj
    obtain ⟨hjm, -, hje⟩ := mem_of_inventoryByEvidence hj
    exact ⟨j, hj, (suits_of_eligible he).2 (h.eligible s hs he j hjm hje)⟩
  ineligible s hs he i hi := by
    obtain ⟨him, hne, hie⟩ := mem_of_inventoryByEvidence hi
    exact (suits_of_ineligible he).2 (h.ineligible s hs he hne i him hie)
  unplanned i hi hp := h.unplanned i hi (planned_eq_false.1 hp)
  totals := h.totals

/-- What looks exact is exact when every item of a planned Snapshot is as planned. -/
theorem Apparent.exact (h : Apparent inventory plan) (hc : ∀ s ∈ plan.snapshots, s.replayEligibility ≠ none)
    (hall : ∀ s ∈ plan.snapshots, ∀ i ∈ inventory.items, s.evidenceId ≠ none →
      i.evidenceId = s.evidenceId → suits s i = true) : ExactIndex inventory plan := by
  have hid (s) (hs : s ∈ plan.snapshots) (he : s.replayEligibility = some .eligible) : s.evidenceId ≠ none := by
    obtain ⟨i, hi, -⟩ := h.eligible s hs he
    exact (mem_of_inventoryByEvidence hi).2.1
  have hunplanned (i) (hi : i ∈ inventory.items)
      (hp : ∀ s ∈ plan.snapshots, i.evidenceId = none ∨ s.evidenceId ≠ i.evidenceId) : i.hasRows = false :=
    h.unplanned i hi (planned_eq_false.2 hp)
  refine ⟨?_, hid, fun s hs he i hi hie => ?_, fun s hs he hne i hi hie => ?_, hunplanned, h.totals⟩
  · ext e
    constructor
    · rintro ⟨i, hi, hpresent, hie⟩
      have hrows : i.hasRows = true := by rw [SnapshotInventoryItem.hasRows, hpresent]; rfl
      -- the item has rows, so it is planned, and its Snapshot is not ineligible
      by_contra hnot
      have hp : ∀ s ∈ plan.snapshots, i.evidenceId = none ∨ s.evidenceId ≠ i.evidenceId := by
        refine fun s hs => .inr fun hse => ?_
        have hsuits := hall s hs i hi (by rw [hse, hie]; simp) hse.symm
        cases he : s.replayEligibility with
        | none => exact hc s hs he
        | some el =>
          cases el with
          | eligible => exact hnot ⟨s, hs, he, hse.trans hie⟩
          | ineligible =>
            rw [(suits_of_ineligible he).1 hsuits] at hrows
            cases hrows
      rw [hunplanned i hi hp] at hrows
      cases hrows
    · rintro ⟨s, hs, he, hse⟩
      obtain ⟨i, hi, hsuits⟩ := h.eligible s hs he
      obtain ⟨him, -, hie⟩ := mem_of_inventoryByEvidence hi
      exact ⟨i, him, ((suits_of_eligible he).1 hsuits).1, hie.trans hse⟩
  · exact (suits_of_eligible he).1 (hall s hs i hi (hid s hs he) hie)
  · exact (suits_of_ineligible he).1 (hall s hs i hi hne hie)

theorem ExactIndex.suits_of_mem (h : ExactIndex inventory plan) {s : ClassifiedSnapshotReplayItem}
    (hs : s ∈ plan.snapshots) {i : SnapshotInventoryItem} (hi : i ∈ inventory.items)
    (hne : s.evidenceId ≠ none) (hie : i.evidenceId = s.evidenceId) : suits s i = true := by
  cases he : s.replayEligibility with
  | none => rw [suits, he]
  | some el =>
    cases el with
    | eligible => exact (suits_of_eligible he).2 (h.eligible s hs he i hi hie)
    | ineligible => exact (suits_of_ineligible he).2 (h.ineligible s hs he hne i hi hie)

/-- The assessment of a complete plan is exact unless an earlier item of a planned Snapshot is masked. -/
theorem assessment_exact_iff_not_masked [Sqlite.SqliteFloat F] (inventory : SnapshotInventory)
    (plan : ClassifiedReplayPlan F) (h : validateClassifiedReplayPlan plan = .ok []) :
    ((operationalInventoryAssessment inventory plan).status = .healthy ↔ ExactIndex inventory plan) ↔
      ¬ Masked inventory plan := by
  have hc : ∀ s ∈ plan.snapshots, s.replayEligibility ≠ none :=
    fun s hs => ((validate_eq_nil.1 h).snapshots s hs).classified
  rw [healthy_iff_apparent]
  constructor
  · rintro hiff ⟨⟨s, hs, i, hi, hne, hie, -, hsuits⟩, happarent⟩
    have hexact := (hiff.1 happarent).suits_of_mem hs hi hne hie
    rw [hexact] at hsuits
    cases hsuits
  · refine fun hmask => ⟨fun happarent => happarent.exact hc fun s hs i hi hne hie => ?_, ExactIndex.apparent⟩
    by_contra hsuits
    rw [Bool.not_eq_true] at hsuits
    -- the kept item of the evidence id suits, so this one was followed by it
    have hkept : inventoryByEvidence inventory.items i.evidenceId ≠ some i := by
      intro hk
      rw [hie] at hk
      have hyes : suits s i = true := by
        cases he : s.replayEligibility with
        | none => exact absurd he (hc s hs)
        | some el =>
          cases el with
          | eligible =>
            obtain ⟨j, hj, hsj⟩ := happarent.eligible s hs he
            rw [Option.mem_def, hk] at hj
            cases hj
            exact hsj
          | ineligible => exact happarent.ineligible s hs he i hk
      rw [hyes] at hsuits
      cases hsuits
    exact hmask ⟨⟨s, hs, i, hi, hne, hie, hkept, hsuits⟩, happarent⟩

/-! ## A masked item -/

/-- A scanned Run of four records. -/
def oneRun : List (RunEvidenceAccountingItem Integral) :=
  [⟨txt "b", 4, .valid, lit "filesystem.snapshot", some .scanned, .str (txt "d"),
    [txt "f", txt "g", txt "e", txt "h"], [txt "a", txt "b", txt "c", txt "d"], []⟩]

/-- Its Snapshot, without entries. -/
def oneSnapshot : List ClassifiedSnapshotReplayItem :=
  [⟨some (txt "s"), some (txt "e"), some (txt "b"), some (txt "q"), some (txt "c"), 0, .valid, .consistent,
    some .eligible, [], []⟩]

def onePlan : ClassifiedReplayPlan Integral where
  classificationComplete := true
  counts := ⟨1, 4, 1, 0, 1, 0, 0, 0, 0, 0⟩
  accountingDigest := sha (accountingValue oneRun oneSnapshot ⟨1, 4, 1, 0, 1, 0, 0, 0, 0, 0⟩)
  runs := oneRun
  snapshots := oneSnapshot
  issues := []

theorem sound_onePlan : onePlan.Sound where
  runs r hr := by
    rw [onePlan, oneRun, List.mem_singleton] at hr
    rw [hr]
  snapshots s hs := by
    rw [onePlan, oneSnapshot, List.mem_singleton] at hs
    subst hs
    exact ⟨rfl, by simp, by simp, by simp, rfl⟩
  counts := by decide
  digest := by
    refine digestOf_eq_ok.2 ⟨safe_accountingValue.2 ⟨fun r hr => ?_, fun s hs => ?_⟩, rfl⟩
    · rw [onePlan, oneRun, List.mem_singleton] at hr
      subst hr
      exact safe_runItem.2 (by decide)
    · rw [onePlan, oneSnapshot, List.mem_singleton] at hs
      subst hs
      exact safe_snapshotItem.2 (by simp; decide)
  complete := rfl

/-- The Snapshot is indexed; an altered copy of its Evidence lies in the directory of a Run `a`. -/
def copiedInventory : SnapshotInventory where
  snapshotEvidenceRecords := 2
  indexedSnapshots := 1
  indexedEntryGroups := 0
  runs := 2
  items :=
    [⟨some (txt "s"), some (txt "e"), some (txt "a"), true, true, true, 0, some (txt "p"),
      [txt "SNAPSHOT_EVIDENCE_INVALID"]⟩,
      ⟨some (txt "s"), some (txt "e"), some (txt "b"), true, true, true, 0, some (txt "q"), []⟩]
  issues := [[(txt "code", txt "SNAPSHOT_EVIDENCE_INVALID"), (txt "snapshot_id", txt "s"),
    (txt "evidence_id", txt "e")]]
  indexedEntryCount := 0

/-- The copy has an issue code and the index is healthy all the same. -/
theorem copied_evidence_assessed_healthy : validateClassifiedReplayPlan onePlan = .ok [] ∧
    (operationalInventoryAssessment copiedInventory onePlan).status = .healthy ∧
    ¬ ExactIndex copiedInventory onePlan := by
  refine ⟨validate_eq_nil.2 sound_onePlan, by decide, fun h => ?_⟩
  have hcodes := (h.eligible _ List.mem_cons_self rfl _ List.mem_cons_self rfl).2.2
  exact absurd hcodes (by decide)

theorem assessment_exact_iff_not_masked_copied :
    ((operationalInventoryAssessment copiedInventory onePlan).status = .healthy ↔
      ExactIndex copiedInventory onePlan) ↔ ¬ Masked copiedInventory onePlan :=
  assessment_exact_iff_not_masked copiedInventory onePlan (validate_eq_nil.2 sound_onePlan)

end Steward
