import Steward.Storage.Inventory

/-!
# Integrity reports

`classify_snapshot_inventory`: the severity of every inventory item and the
issues of the report. The pass that charges codes to items skips issues without
identity; the pass that reports them does not, and `Identified` says when this
attributes no issue to a foreign Run.
-/

namespace Steward

open Py

inductive IntegrityStatus where
  | healthy | degraded | invalid
  deriving DecidableEq, Repr

/-- `_INTEGRITY_ISSUE_SEVERITIES` -/
def integrityIssueSeverities : List (Text × IntegrityStatus) :=
  [(txt "SNAPSHOT_EVIDENCE_ORPHANED", .degraded),
    (txt "SNAPSHOT_INDEX_MISSING", .degraded),
    (txt "SNAPSHOT_INDEX_INCOMPLETE", .degraded),
    (txt "SNAPSHOT_ENTRY_INDEX_INCOMPLETE", .degraded),
    (txt "SNAPSHOT_ENTRY_INDEX_INCONSISTENT", .degraded),
    (txt "SNAPSHOT_EVIDENCE_MISSING", .invalid),
    (txt "SNAPSHOT_EVIDENCE_INVALID", .invalid),
    (txt "SNAPSHOT_EVIDENCE_SCHEMA_INVALID", .invalid),
    (txt "SNAPSHOT_EVIDENCE_TYPE_INVALID", .invalid),
    (txt "SNAPSHOT_PAYLOAD_SCHEMA_INVALID", .invalid),
    (txt "SNAPSHOT_RUN_ID_MISMATCH", .invalid),
    (txt "SNAPSHOT_PAYLOAD_RUN_ID_MISMATCH", .invalid),
    (txt "SNAPSHOT_ENTRY_SCHEMA_INVALID", .invalid),
    (txt "SNAPSHOT_ENTRY_ORDER_INVALID", .invalid),
    (txt "SNAPSHOT_ENTRY_DUPLICATE", .invalid),
    (txt "SNAPSHOT_ENTRY_ID_INVALID", .invalid),
    (txt "SNAPSHOT_SCOPE_MISMATCH", .invalid),
    (txt "SNAPSHOT_PATH_INVALID", .invalid),
    (txt "SNAPSHOT_SUMMARY_INVALID", .invalid),
    (txt "SNAPSHOT_ENTRIES_DIGEST_INVALID", .invalid),
    (txt "SNAPSHOT_DIGEST_INVALID", .invalid),
    (txt "SNAPSHOT_INDEX_EVIDENCE_MISSING", .invalid),
    (txt "SNAPSHOT_INDEX_EVIDENCE_TYPE_MISMATCH", .invalid),
    (txt "SNAPSHOT_INDEX_EVIDENCE_ID_MISMATCH", .invalid),
    (txt "SNAPSHOT_INDEX_SNAPSHOT_ID_MISMATCH", .invalid),
    (txt "SNAPSHOT_RUN_MISSING", .invalid),
    (txt "SNAPSHOT_RUN_KIND_INVALID", .invalid),
    (txt "SNAPSHOT_RUN_STATUS_INVALID", .invalid),
    (txt "SNAPSHOT_ID_DUPLICATE", .invalid),
    (txt "SNAPSHOT_RUN_DUPLICATE", .invalid),
    (txt "SNAPSHOT_EVIDENCE_INDEX_DUPLICATE", .invalid),
    (txt "SNAPSHOT_ENTRY_ORPHANED", .invalid),
    (txt "SNAPSHOT_ENTRY_CROSS_REFERENCE", .invalid)]

/-- Unknown integrity facts are unsafe to classify as healthy. -/
def integritySeverity (code : Text) : IntegrityStatus := (lookup integrityIssueSeverities code).getD .invalid

/-- `_INTEGRITY_STATUS_ORDER` -/
def IntegrityStatus.order : IntegrityStatus → Nat
  | .invalid => 0
  | .degraded => 1
  | .healthy => 2

/-! ## Items -/

/-- Derive absence facts already represented by an inventory item, without reading storage. -/
def itemIntegrityCodes (item : SnapshotInventoryItem) : List Text :=
  sortedSet (item.issueCodes ++
    (if !item.evidencePresent then [txt "SNAPSHOT_EVIDENCE_MISSING"] else []) ++
    (if !item.runPresent then [txt "SNAPSHOT_RUN_MISSING"] else []) ++
    (if !item.indexPresent && item.evidencePresent && item.runPresent then
      [txt "SNAPSHOT_INDEX_MISSING"] else []))

/-- The first of the least statuses by `_INTEGRITY_STATUS_ORDER`. -/
def worstStatus : List IntegrityStatus → IntegrityStatus
  | [] => .healthy
  | s :: ss => ss.foldl (fun a b => if b.order < a.order then b else a) s

def itemIntegrityStatus (codes : List Text) : IntegrityStatus := worstStatus (codes.map integritySeverity)

/-- `SnapshotStorageIntegrityItem` -/
structure SnapshotIntegrityItem where
  snapshotId : Option Text
  evidenceId : Option Text
  persistentRunId : Option Text
  status : IntegrityStatus
  evidencePresent : Bool
  indexPresent : Bool
  runPresent : Bool
  indexedEntryCount : Nat
  issueCodes : List Text
  evidenceRelativePath : Option Text

/-- `raw_issue.get("code", …)` -/
def rawCode (raw : List (Text × Text)) : Text :=
  (lookup raw (txt "code")).getD (txt "SNAPSHOT_INTEGRITY_CLASSIFICATION_UNKNOWN")

/-- The identities the issue gives are the item's. -/
def matchesItem (raw : List (Text × Text)) (item : SnapshotInventoryItem) : Bool :=
  (issueField raw "snapshot_id" = [] || item.snapshotId = some (issueField raw "snapshot_id")) &&
    (issueField raw "evidence_id" = [] || item.evidenceId = some (issueField raw "evidence_id"))

/-- The issue gives a Snapshot or Evidence identity. -/
def identified (raw : List (Text × Text)) : Bool :=
  issueField raw "snapshot_id" ≠ [] || issueField raw "evidence_id" ≠ []

/-- The set the first pass collects for an item. -/
def rawCodes (issues : List (List (Text × Text))) (item : SnapshotInventoryItem) : List Text :=
  (issues.filter fun raw => identified raw && matchesItem raw item).map rawCode

def classifiedItem (issues : List (List (Text × Text))) (item : SnapshotInventoryItem) :
    SnapshotIntegrityItem :=
  let codes := sortedSet (itemIntegrityCodes item ++ rawCodes issues item)
  { snapshotId := item.snapshotId
    evidenceId := item.evidenceId
    persistentRunId := item.persistentRunId
    status := itemIntegrityStatus codes
    evidencePresent := item.evidencePresent
    indexPresent := item.indexPresent
    runPresent := item.runPresent
    indexedEntryCount := item.indexedEntryCount
    issueCodes := codes
    evidenceRelativePath := item.evidenceRelativePath }

/-! ## Issues -/

/-- An issue of the report; its severity is that of its code. -/
structure IntegrityIssue where
  code : Text
  snapshotId : Text
  evidenceId : Text
  persistentRunId : Text
  evidenceRelativePath : Text
  deriving DecidableEq

def IntegrityIssue.severity (q : IntegrityIssue) : IntegrityStatus := integritySeverity q.code

/-- `issue_by_key[_integrity_issue_key(issue)] = issue`: the key is all of the issue but its severity. -/
def assignIssue (issues : List IntegrityIssue) (q : IntegrityIssue) : List IntegrityIssue :=
  if q ∈ issues then issues else issues ++ [q]

/-- The issue of one code of an item. -/
def itemIssue (item : SnapshotInventoryItem) (code : Text) : IntegrityIssue :=
  ⟨code, orEmpty item.snapshotId, orEmpty item.evidenceId, orEmpty item.persistentRunId,
    orEmpty item.evidenceRelativePath⟩

def itemIssues (issues : List (List (Text × Text))) (item : SnapshotInventoryItem) : List IntegrityIssue :=
  (classifiedItem issues item).issueCodes.map (itemIssue item)

/-- An inventory issue, located at an item. -/
def locatedIssue (raw : List (Text × Text)) (item : SnapshotInventoryItem) : IntegrityIssue :=
  ⟨rawCode raw, issueField raw "snapshot_id", issueField raw "evidence_id", orEmpty item.persistentRunId,
    orEmpty item.evidenceRelativePath⟩

/-- What the second pass reports of an inventory issue; it does not ask whether it is identified. -/
def rawIssues (items : List SnapshotInventoryItem) (raw : List (Text × Text)) : List IntegrityIssue :=
  let matching := items.filter (matchesItem raw)
  if matching = [] then
    [⟨rawCode raw, issueField raw "snapshot_id", issueField raw "evidence_id", [], []⟩]
  else matching.map (locatedIssue raw)

/-- `issue_by_key.values()` -/
def inventoryIssues (inventory : SnapshotInventory) : List IntegrityIssue :=
  (inventory.items.flatMap (itemIssues inventory.issues) ++
    inventory.issues.flatMap (rawIssues inventory.items)).foldl assignIssue []

/-! ## The report -/

/-- `SnapshotStorageIntegrityReport`; its warnings are always empty. -/
structure IntegrityReport where
  status : IntegrityStatus
  snapshotEvidenceCount : Nat
  indexedSnapshotCount : Nat
  indexedEntryGroupCount : Nat
  indexedEntryCount : Nat
  runCount : Nat
  healthySnapshotCount : Nat
  degradedSnapshotCount : Nat
  invalidSnapshotCount : Nat
  orphanEvidenceCount : Nat
  missingEvidenceCount : Nat
  duplicateSnapshotIdCount : Nat
  duplicateRunSnapshotCount : Nat
  duplicateEvidenceIndexCount : Nat
  orphanEntryCount : Nat
  crossReferenceEntryCount : Nat
  items : List SnapshotIntegrityItem
  issues : List IntegrityIssue

/-- `_integrity_relation_count` -/
def integrityRelationCount (issues : List IntegrityIssue) (codes : List Text)
    (fields : IntegrityIssue → List Text) : Nat :=
  ((issues.filter fun q => q.code ∈ codes).map fields).dedup.length

/-- The order of the report's items. -/
def itemKey (item : SnapshotIntegrityItem) : ℕ ×ₗ Bool ×ₗ Text ×ₗ Text ×ₗ Text :=
  toLex (item.status.order, toLex (item.snapshotId.isNone, toLex (orEmpty item.snapshotId,
    toLex (orEmpty item.evidenceId, orEmpty item.persistentRunId))))

/-- The order of its issues. -/
def issueKey (q : IntegrityIssue) : ℕ ×ₗ Text ×ₗ Text ×ₗ Text ×ₗ Text ×ₗ Text :=
  toLex (q.severity.order, toLex (q.code, toLex (q.snapshotId, toLex (q.evidenceId,
    toLex (q.persistentRunId, q.evidenceRelativePath)))))

/-- The status of the report. -/
def reportStatus (degraded invalid : Nat) (severities : List IntegrityStatus) : IntegrityStatus :=
  if 0 < invalid ∨ .invalid ∈ severities then .invalid
  else if 0 < degraded ∨ .degraded ∈ severities then .degraded
  else .healthy

/-- Purely classify already-enumerated Snapshot inventory facts; never read or repair storage. -/
def classifySnapshotInventory (inventory : SnapshotInventory) : IntegrityReport :=
  let items := sortedBy itemKey (inventory.items.map (classifiedItem inventory.issues))
  let issues := sortedBy issueKey (inventoryIssues inventory)
  let degraded := items.countP (·.status = .degraded)
  let invalid := items.countP (·.status = .invalid)
  { status := reportStatus degraded invalid (issues.map IntegrityIssue.severity)
    snapshotEvidenceCount := inventory.snapshotEvidenceRecords
    indexedSnapshotCount := inventory.indexedSnapshots
    indexedEntryGroupCount := inventory.indexedEntryGroups
    indexedEntryCount := inventory.indexedEntryCount
    runCount := inventory.runs
    healthySnapshotCount := items.countP (·.status = .healthy)
    degradedSnapshotCount := degraded
    invalidSnapshotCount := invalid
    orphanEvidenceCount := integrityRelationCount issues [txt "SNAPSHOT_EVIDENCE_ORPHANED"]
      fun q => [q.evidenceId, q.evidenceRelativePath]
    missingEvidenceCount := integrityRelationCount issues
      [txt "SNAPSHOT_EVIDENCE_MISSING", txt "SNAPSHOT_INDEX_EVIDENCE_MISSING"]
      fun q => [q.snapshotId, q.evidenceId, q.evidenceRelativePath]
    duplicateSnapshotIdCount := integrityRelationCount issues [txt "SNAPSHOT_ID_DUPLICATE"]
      fun q => [q.snapshotId]
    duplicateRunSnapshotCount := integrityRelationCount issues [txt "SNAPSHOT_RUN_DUPLICATE"]
      fun q => [q.persistentRunId]
    duplicateEvidenceIndexCount := integrityRelationCount issues
      [txt "SNAPSHOT_EVIDENCE_INDEX_DUPLICATE"] fun q => [q.evidenceId]
    orphanEntryCount := integrityRelationCount issues [txt "SNAPSHOT_ENTRY_ORPHANED"]
      fun q => [q.snapshotId]
    crossReferenceEntryCount := integrityRelationCount issues [txt "SNAPSHOT_ENTRY_CROSS_REFERENCE"]
      fun q => [q.snapshotId]
    items, issues }

/-! ## Severities -/

theorem integritySeverity_ne_healthy (code : Text) : integritySeverity code ≠ .healthy := by
  have htable : ∀ r ∈ integrityIssueSeverities, r.2 ≠ .healthy := by
    simp only [integrityIssueSeverities, List.forall_mem_cons, List.not_mem_nil, false_imp_iff,
      implies_true, and_true, ne_eq, reduceCtorEq, not_false_eq_true]
  unfold integritySeverity
  cases h : lookup integrityIssueSeverities code with
  | none => simp
  | some s => exact htable _ (mem_of_lookup h)

/-- The worst status is one of them, and none is worse. -/
theorem worstStatus_spec {s : IntegrityStatus} {ss : List IntegrityStatus} :
    worstStatus (s :: ss) ∈ s :: ss ∧ ∀ t ∈ s :: ss, (worstStatus (s :: ss)).order ≤ t.order := by
  induction ss generalizing s with
  | nil => simp [worstStatus]
  | cons t ss ih =>
    obtain ⟨hm, hle⟩ := ih (s := if t.order < s.order then t else s)
    have hstep : worstStatus (s :: t :: ss) = worstStatus ((if t.order < s.order then t else s) :: ss) := rfl
    rw [hstep]
    refine ⟨?_, fun u hu => ?_⟩
    · rcases List.mem_cons.1 hm with h | h
      · rw [h]
        split_ifs <;> simp
      · exact List.mem_cons_of_mem _ (List.mem_cons_of_mem _ h)
    · have hhead := hle _ List.mem_cons_self
      have hmin : (if t.order < s.order then t else s).order ≤ s.order ∧
          (if t.order < s.order then t else s).order ≤ t.order := by
        split_ifs <;> omega
      rcases List.mem_cons.1 hu with rfl | hu
      · exact hhead.trans hmin.1
      · rcases List.mem_cons.1 hu with rfl | hu
        · exact hhead.trans hmin.2
        · exact hle u (List.mem_cons_of_mem _ hu)

/-- An item is healthy exactly without codes. -/
theorem itemIntegrityStatus_eq_healthy {codes : List Text} :
    itemIntegrityStatus codes = .healthy ↔ codes = [] := by
  cases codes with
  | nil => exact iff_of_true rfl rfl
  | cons c cs =>
    refine iff_of_false (fun h => ?_) (by simp)
    have hmem : worstStatus (integritySeverity c :: cs.map integritySeverity) ∈
        integritySeverity c :: cs.map integritySeverity := worstStatus_spec.1
    rw [itemIntegrityStatus, List.map_cons] at h
    rw [h, ← List.map_cons, List.mem_map] at hmem
    obtain ⟨d, -, hd⟩ := hmem
    exact integritySeverity_ne_healthy d hd

/-! ## What the report holds -/

theorem mem_foldl_assignIssue {xs acc : List IntegrityIssue} {q : IntegrityIssue} :
    q ∈ xs.foldl assignIssue acc ↔ q ∈ acc ∨ q ∈ xs := by
  induction xs generalizing acc with
  | nil => simp
  | cons x xs ih =>
    have hassign : q ∈ assignIssue acc x ↔ q ∈ acc ∨ q = x := by
      unfold assignIssue
      split_ifs with h
      · exact ⟨.inl, fun hq => hq.elim id fun he => he ▸ h⟩
      · rw [List.mem_append, List.mem_singleton]
    rw [List.foldl_cons, ih, hassign, List.mem_cons, or_assoc]

variable {inv : SnapshotInventory}

theorem mem_reportIssues {q : IntegrityIssue} : q ∈ (classifySnapshotInventory inv).issues ↔
    (∃ i ∈ inv.items, ∃ code ∈ (classifiedItem inv.issues i).issueCodes, q = itemIssue i code) ∨
      ∃ raw ∈ inv.issues, q ∈ rawIssues inv.items raw := by
  show q ∈ sortedBy issueKey (inventoryIssues inv) ↔ _
  rw [mem_sortedBy, inventoryIssues, mem_foldl_assignIssue, List.mem_append, List.mem_flatMap,
    List.mem_flatMap]
  simp only [List.not_mem_nil, false_or, itemIssues, List.mem_map, eq_comm (a := q)]

theorem mem_rawIssues {items : List SnapshotInventoryItem} {raw : List (Text × Text)} {q : IntegrityIssue} :
    q ∈ rawIssues items raw ↔
      (∃ i ∈ items, matchesItem raw i = true ∧ q = locatedIssue raw i) ∨
        (∀ i ∈ items, matchesItem raw i = false) ∧
          q = ⟨rawCode raw, issueField raw "snapshot_id", issueField raw "evidence_id", [], []⟩ := by
  unfold rawIssues
  by_cases h : items.filter (matchesItem raw) = []
  · have hnone : ∀ i ∈ items, matchesItem raw i = false := fun i hi =>
      Bool.eq_false_iff.2 (List.filter_eq_nil_iff.1 h i hi)
    rw [if_pos h, List.mem_singleton]
    refine ⟨fun hq => .inr ⟨hnone, hq⟩, fun hq => hq.elim ?_ And.right⟩
    rintro ⟨i, hi, hm, -⟩
    exact absurd hm (Bool.eq_false_iff.1 (hnone i hi))
  · rw [if_neg h, List.mem_map]
    constructor
    · rintro ⟨i, hi, rfl⟩
      obtain ⟨hi, hm⟩ := List.mem_filter.1 hi
      exact .inl ⟨i, hi, hm, rfl⟩
    · rintro (⟨i, hi, hm, rfl⟩ | ⟨hnone, -⟩)
      · exact ⟨i, List.mem_filter.2 ⟨hi, hm⟩, rfl⟩
      · refine absurd (List.filter_eq_nil_iff.2 fun i hi => ?_) h
        exact Bool.eq_false_iff.1 (hnone i hi)

/-- A code is charged to an item by the item itself or by an identified issue that names it. -/
theorem mem_issueCodes {issues : List (List (Text × Text))} {item : SnapshotInventoryItem} {code : Text} :
    code ∈ (classifiedItem issues item).issueCodes ↔ code ∈ itemIntegrityCodes item ∨
      ∃ raw ∈ issues, identified raw = true ∧ matchesItem raw item = true ∧ rawCode raw = code := by
  show code ∈ sortedSet (itemIntegrityCodes item ++ rawCodes issues item) ↔ _
  rw [mem_sortedSet, List.mem_append, rawCodes, List.mem_map]
  simp only [List.mem_filter, Bool.and_eq_true, and_assoc]

/-! ## Attribution -/

/-- The issue is about the item: the same Run and path, the identities it gives are the item's, and
without any the item has none either. -/
structure IntegrityIssue.Concerns (q : IntegrityIssue) (i : SnapshotInventoryItem) : Prop where
  snapshotId : q.snapshotId = [] ∨ i.snapshotId = some q.snapshotId
  evidenceId : q.evidenceId = [] ∨ i.evidenceId = some q.evidenceId
  anonymous : q.snapshotId = [] → q.evidenceId = [] → orEmpty i.snapshotId = [] ∧ orEmpty i.evidenceId = []
  persistentRunId : q.persistentRunId = orEmpty i.persistentRunId
  evidenceRelativePath : q.evidenceRelativePath = orEmpty i.evidenceRelativePath

/-- The issue carries a Snapshot, Evidence or Run identity. -/
def IntegrityIssue.Carries (q : IntegrityIssue) : Prop :=
  q.snapshotId ≠ [] ∨ q.evidenceId ≠ [] ∨ q.persistentRunId ≠ []

/-- No item has the identities of the issue. -/
def IntegrityIssue.Unmatched (q : IntegrityIssue) (items : List SnapshotInventoryItem) : Prop :=
  q.persistentRunId = [] ∧ ∀ i ∈ items, ¬ ((q.snapshotId = [] ∨ i.snapshotId = some q.snapshotId) ∧
    (q.evidenceId = [] ∨ i.evidenceId = some q.evidenceId))

/-- The report of an inventory attributes issues to the items they are about, and its status and
counts are those of its items and issues. -/
structure Attributed (inv : SnapshotInventory) : Prop where
  items : (classifySnapshotInventory inv).items.Perm (inv.items.map (classifiedItem inv.issues))
  charged : ∀ i ∈ inv.items, ∀ code, code ∈ (classifiedItem inv.issues i).issueCodes ↔
    code ∈ itemIntegrityCodes i ∨ ∃ raw ∈ inv.issues,
      identified raw = true ∧ matchesItem raw i = true ∧ rawCode raw = code
  reported : ∀ i ∈ inv.items, ∀ code ∈ (classifiedItem inv.issues i).issueCodes,
    itemIssue i code ∈ (classifySnapshotInventory inv).issues
  owned : ∀ q ∈ (classifySnapshotInventory inv).issues, q.Carries →
    (∃ i ∈ inv.items, q.Concerns i ∧ q.code ∈ (classifiedItem inv.issues i).issueCodes) ∨
      q.Unmatched inv.items
  healthy : (classifySnapshotInventory inv).status = .healthy ↔ (classifySnapshotInventory inv).issues = []
  severities : ∀ i ∈ (classifySnapshotInventory inv).items, i.status = itemIntegrityStatus i.issueCodes
  counts : ∀ st, (match st with
    | .healthy => (classifySnapshotInventory inv).healthySnapshotCount
    | .degraded => (classifySnapshotInventory inv).degradedSnapshotCount
    | .invalid => (classifySnapshotInventory inv).invalidSnapshotCount) =
      (classifySnapshotInventory inv).items.countP (·.status = st)

/-- Every issue without identity repeats, for each Run of an item, a code that an item without
identity of that Run and path already has. -/
def Identified (inv : SnapshotInventory) : Prop :=
  ∀ raw ∈ inv.issues, identified raw = false → ∀ i ∈ inv.items, orEmpty i.persistentRunId ≠ [] →
    ∃ j ∈ inv.items, orEmpty j.snapshotId = [] ∧ orEmpty j.evidenceId = [] ∧
      orEmpty j.persistentRunId = orEmpty i.persistentRunId ∧
      orEmpty j.evidenceRelativePath = orEmpty i.evidenceRelativePath ∧ rawCode raw ∈ itemIntegrityCodes j

theorem identified_eq_false {raw : List (Text × Text)} : identified raw = false ↔
    issueField raw "snapshot_id" = [] ∧ issueField raw "evidence_id" = [] := by
  simp [identified]

theorem matchesItem_eq_true {raw : List (Text × Text)} {i : SnapshotInventoryItem} :
    matchesItem raw i = true ↔
      (issueField raw "snapshot_id" = [] ∨ i.snapshotId = some (issueField raw "snapshot_id")) ∧
        (issueField raw "evidence_id" = [] ∨ i.evidenceId = some (issueField raw "evidence_id")) := by
  simp [matchesItem]

/-- An issue an item without identity has was not charged to it by an identified one. -/
theorem own_of_anonymous {i : SnapshotInventoryItem} {code : Text}
    (hs : orEmpty i.snapshotId = []) (he : orEmpty i.evidenceId = [])
    (hc : code ∈ (classifiedItem inv.issues i).issueCodes) : code ∈ itemIntegrityCodes i := by
  rcases mem_issueCodes.1 hc with h | ⟨raw, -, hid, hm, -⟩
  · exact h
  · obtain ⟨h1, h2⟩ := matchesItem_eq_true.1 hm
    have hs' : issueField raw "snapshot_id" = [] :=
      h1.elim id fun h => by rw [h] at hs; exact hs
    have he' : issueField raw "evidence_id" = [] :=
      h2.elim id fun h => by rw [h] at he; exact he
    rw [identified_eq_false.2 ⟨hs', he'⟩] at hid
    cases hid

/-- What an item reports is about it. -/
theorem concerns_itemIssue (i : SnapshotInventoryItem) (code : Text) : (itemIssue i code).Concerns i where
  snapshotId := by cases h : i.snapshotId <;> simp [itemIssue, orEmpty, h]
  evidenceId := by cases h : i.evidenceId <;> simp [itemIssue, orEmpty, h]
  anonymous hs he := ⟨hs, he⟩
  persistentRunId := rfl
  evidenceRelativePath := rfl

/-- An identified issue located at an item it names is about that item. -/
theorem concerns_locatedIssue {raw : List (Text × Text)} {i : SnapshotInventoryItem}
    (hid : identified raw = true) (hm : matchesItem raw i = true) : (locatedIssue raw i).Concerns i where
  snapshotId := (matchesItem_eq_true.1 hm).1
  evidenceId := (matchesItem_eq_true.1 hm).2
  anonymous hs he := absurd (identified_eq_false.2 ⟨hs, he⟩) (by rw [hid]; simp)
  persistentRunId := rfl
  evidenceRelativePath := rfl

/-- The issues of the report have owners exactly on the identified inventories. -/
theorem owned_iff : (∀ q ∈ (classifySnapshotInventory inv).issues, q.Carries →
    (∃ i ∈ inv.items, q.Concerns i ∧ q.code ∈ (classifiedItem inv.issues i).issueCodes) ∨
      q.Unmatched inv.items) ↔ Identified inv := by
  constructor
  · intro h raw hraw hid i hi hrun
    obtain ⟨hs, he⟩ := identified_eq_false.1 hid
    have hm : matchesItem raw i = true := matchesItem_eq_true.2 ⟨.inl hs, .inl he⟩
    have hq := mem_reportIssues.2 (.inr ⟨raw, hraw, mem_rawIssues.2 (.inl ⟨i, hi, hm, rfl⟩)⟩)
    rcases h _ hq (.inr (.inr hrun)) with ⟨j, hj, hc, hcode⟩ | ⟨hnone, -⟩
    · obtain ⟨hjs, hje⟩ := hc.anonymous hs he
      exact ⟨j, hj, hjs, hje, hc.persistentRunId.symm, hc.evidenceRelativePath.symm,
        own_of_anonymous hjs hje hcode⟩
    · exact absurd hnone hrun
  · intro h q hq hcarries
    rcases mem_reportIssues.1 hq with ⟨i, hi, code, hcode, rfl⟩ | ⟨raw, hraw, hq⟩
    · exact .inl ⟨i, hi, concerns_itemIssue i code, hcode⟩
    · rcases mem_rawIssues.1 hq with ⟨i, hi, hm, rfl⟩ | ⟨hnone, rfl⟩
      · cases hid : identified raw with
        | true => exact .inl ⟨i, hi, concerns_locatedIssue hid hm, mem_issueCodes.2 (.inr ⟨raw, hraw, hid, hm, rfl⟩)⟩
        | false =>
          -- only the Run is left to carry, and the condition names the item that owns it
          obtain ⟨hs, he⟩ := identified_eq_false.1 hid
          have hrun : orEmpty i.persistentRunId ≠ [] :=
            (hcarries.resolve_left (not_not_intro hs)).resolve_left (not_not_intro he)
          obtain ⟨j, hj, hjs, hje, hjr, hjp, hcode⟩ := h raw hraw hid i hi hrun
          exact .inl ⟨j, hj, ⟨.inl hs, .inl he, fun _ _ => ⟨hjs, hje⟩, hjr.symm, hjp.symm⟩,
            mem_issueCodes.2 (.inl hcode)⟩
      · refine .inr ⟨rfl, fun i hi hc => ?_⟩
        exact Bool.false_ne_true ((hnone i hi).symm.trans (matchesItem_eq_true.2 hc))

theorem reportStatus_eq_healthy {d i : Nat} {ss : List IntegrityStatus} :
    reportStatus d i ss = .healthy ↔ d = 0 ∧ i = 0 ∧ ∀ s ∈ ss, s = .healthy := by
  have hall : (∀ s ∈ ss, s = .healthy) ↔ IntegrityStatus.invalid ∉ ss ∧ IntegrityStatus.degraded ∉ ss := by
    refine ⟨fun h => ⟨fun hm => by simpa using h _ hm, fun hm => by simpa using h _ hm⟩, fun h s hs => ?_⟩
    cases s with
    | healthy => rfl
    | degraded => exact absurd hs h.2
    | invalid => exact absurd hs h.1
  rw [hall]
  unfold reportStatus
  split_ifs with h1 h2
  · refine iff_of_false (by simp) fun h => ?_
    rcases h1 with h1 | h1
    · omega
    · exact h.2.2.1 h1
  · refine iff_of_false (by simp) fun h => ?_
    rcases h2 with h2 | h2
    · omega
    · exact h.2.2.2 h2
  · rw [not_or, Nat.not_lt, Nat.le_zero] at h1 h2
    exact iff_of_true rfl ⟨h2.1, h1.1, h1.2, h2.2⟩

/-- The report is healthy exactly without issues. -/
theorem healthy_iff_no_issue :
    (classifySnapshotInventory inv).status = .healthy ↔ (classifySnapshotInventory inv).issues = [] := by
  have hstatus : (classifySnapshotInventory inv).status = reportStatus
      ((classifySnapshotInventory inv).items.countP (·.status = .degraded))
      ((classifySnapshotInventory inv).items.countP (·.status = .invalid))
      ((classifySnapshotInventory inv).issues.map IntegrityIssue.severity) := rfl
  rw [hstatus, reportStatus_eq_healthy]
  constructor
  · rintro ⟨-, -, hall⟩
    refine List.eq_nil_iff_forall_not_mem.2 fun q hq => ?_
    exact integritySeverity_ne_healthy q.code (hall _ (List.mem_map_of_mem hq))
  · intro h
    have hhealthy : ∀ i ∈ (classifySnapshotInventory inv).items, i.status = .healthy := by
      intro i hi
      obtain ⟨j, hj, rfl⟩ := List.mem_map.1 (mem_sortedBy.1 hi)
      refine itemIntegrityStatus_eq_healthy.2 (List.eq_nil_iff_forall_not_mem.2 fun code hcode => ?_)
      have hq := mem_reportIssues.2 (.inl ⟨j, hj, code, hcode, rfl⟩)
      rw [h] at hq
      cases hq
    refine ⟨List.countP_eq_zero.2 fun i hi => ?_, List.countP_eq_zero.2 fun i hi => ?_, ?_⟩
    · rw [hhealthy i hi]; simp
    · rw [hhealthy i hi]; simp
    · rw [h]; simp

/-- The report attributes its issues exactly on the identified inventories. -/
theorem report_attributed_iff_identified (inv : SnapshotInventory) : Attributed inv ↔ Identified inv := by
  refine ⟨fun h => owned_iff.1 h.owned, fun h => ?_⟩
  exact {
    items := sortedBy_perm
    charged := fun i _ code => mem_issueCodes
    reported := fun i hi code hc => mem_reportIssues.2 (.inl ⟨i, hi, code, hc, rfl⟩)
    owned := owned_iff.2 h
    healthy := healthy_iff_no_issue
    severities := fun i hi => by
      obtain ⟨j, -, rfl⟩ := List.mem_map.1 (mem_sortedBy.1 hi)
      rfl
    counts := fun st => by cases st <;> rfl }

/-! ## An issue without identity -/

/-- An unreadable file of one Run, and a sound Snapshot of another. -/
def unreadableInventory : SnapshotInventory where
  snapshotEvidenceRecords := 2
  indexedSnapshots := 1
  indexedEntryGroups := 0
  runs := 2
  items :=
    [⟨some (txt "s"), some (txt "e"), some (txt "b"), true, true, true, 0, some (txt "q"), []⟩,
      ⟨none, none, some (txt "a"), true, false, true, 0, some (txt "p"), [txt "SNAPSHOT_EVIDENCE_INVALID"]⟩]
  issues := [[(txt "code", txt "SNAPSHOT_EVIDENCE_INVALID"), (txt "snapshot_id", []), (txt "evidence_id", [])]]
  indexedEntryCount := 0

/-- The issue of the unreadable file is reported under the Run and path of the sound Snapshot. -/
theorem unreadable_file_charged_to_other_run :
    (⟨txt "SNAPSHOT_EVIDENCE_INVALID", [], [], txt "b", txt "q"⟩ : IntegrityIssue) ∈
        (classifySnapshotInventory unreadableInventory).issues ∧
      ¬ Attributed unreadableInventory := by
  have hraw : issueField [(txt "code", txt "SNAPSHOT_EVIDENCE_INVALID"), (txt "snapshot_id", []),
      (txt "evidence_id", [])] "snapshot_id" = [] ∧ issueField [(txt "code", txt "SNAPSHOT_EVIDENCE_INVALID"),
      (txt "snapshot_id", []), (txt "evidence_id", [])] "evidence_id" = [] := by decide +kernel
  constructor
  · refine mem_reportIssues.2 (.inr ⟨_, List.mem_cons_self, mem_rawIssues.2 (.inl ⟨_, List.mem_cons_self,
      matchesItem_eq_true.2 ⟨.inl hraw.1, .inl hraw.2⟩, ?_⟩)⟩)
    decide +kernel
  · intro h
    obtain ⟨j, hj, hs, -, hr, -⟩ := owned_iff.1 h.owned _ List.mem_cons_self
      (identified_eq_false.2 hraw) _ List.mem_cons_self (by decide)
    simp only [unreadableInventory, List.mem_cons, List.not_mem_nil, or_false] at hj
    rcases hj with rfl | rfl
    · exact absurd hs (by decide)
    · exact absurd hr (by decide)

end Steward
