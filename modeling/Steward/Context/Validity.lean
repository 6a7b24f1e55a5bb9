import Steward.Context.Interpretation
import Steward.Sqlite.Integral

/-!
# Valid interpretations and the constraints that were sent

A result that is valid for its packet cites references of the packet only and
declares the ones it uses. It keeps to the request constraints of the packet
exactly if no exploration has one of the two classes that the constraints always
exclude: the validation of the result does not look at the class.
-/

namespace Steward.Context

open Py Sqlite

/-! ## Validations without a violation -/

theorem violations_eq_nil {checks : List Check} :
    violations checks = [] ↔ ∀ c ∈ checks, c.1 = false := by
  unfold violations
  have hfold : ∀ codes : List Text,
      checks.foldl (fun codes c => if c.1 ∧ c.2 ∉ codes then codes ++ [c.2] else codes) codes = [] ↔
        codes = [] ∧ ∀ c ∈ checks, c.1 = false := by
    induction checks with
    | nil => simp
    | cons c checks ih =>
      intro codes
      rw [List.foldl_cons, ih, List.forall_mem_cons, ← and_assoc]
      refine and_congr_left fun _ => ?_
      cases hc : c.1 with
      | false => simp
      | true =>
        by_cases hmem : c.2 ∈ codes
        · simp [hmem, List.ne_nil_of_mem hmem]
        · simp [hmem]
  simpa using hfold []

theorem status_valid {checks : List Check} :
    (validationResult checks).status = .valid ↔ ∀ c ∈ checks, c.1 = false := by
  unfold validationResult
  rw [← violations_eq_nil]
  by_cases h : violations checks = []
  · simp [h]
  · simp [h]

@[simp] theorem check_fst {violated : Prop} [Decidable violated] {code : String} :
    (check violated code).1 = false ↔ ¬ violated := by
  simp [check]

/-! ## The constraints of a packet -/

theorem sortedSet_sortedUnique (xs : List Text) : SortedUnique (sortedSet xs) := by
  refine ⟨(List.perm_insertionSort _ _).nodup_iff.2 xs.nodup_dedup, ?_⟩
  exact sortedBy_unique (List.Perm.refl _) (List.pairwise_insertionSort _ _) fun _ _ _ _ h => h

/-- The classes that the constraints of a packet permit, in their sorted order. -/
def permittedClasses (expansion : Bool) : List ExplorationCapabilityClass :=
  if expansion then [.currentProjectionExpansion, .newObservationRequired, .outOfScope]
  else [.newObservationRequired, .outOfScope]

section Packet

variable {F : Type} {packet : LLMContextPacket F}

theorem mem_expansionTokens {token : Text} : token ∈ expansionTokens packet ↔
    ∃ r ∈ packet.evidenceReferences, r.kind = .expansion ∧ r.token = token := by
  simp [expansionTokens, and_assoc]

theorem expansionTokens_subset : expansionTokens packet ⊆ tokens packet := by
  intro token h
  obtain ⟨r, hr, -, rfl⟩ := mem_expansionTokens.1 h
  exact List.mem_map_of_mem hr

/-- The normalized classes, with and without expansion. -/
theorem sortedBy_classes (expansion : Bool) :
    sortedBy ExplorationCapabilityClass.value
      (([.newObservationRequired, .outOfScope] ++ if expansion then [.currentProjectionExpansion]
        else []) : List ExplorationCapabilityClass).dedup = permittedClasses expansion := by
  revert expansion
  decide

/-- The constraints that the runner builds for the packet. -/
def constraintsOf (packet : LLMContextPacket F) : RequestConstraints where
  schemaVersion := requestConstraintsVersion
  taskDomain := packet.taskDomain
  evidenceTokens := sortedSet (tokens packet)
  capabilityClasses := permittedClasses (expansionTokens packet ≠ [])
  expansionTargetTokens := sortedSet (expansionTokens packet)
  excludedCapabilityClasses := sortedBy ExplorationCapabilityClass.value
    (ExplorationCapabilityClass.members.filter (· ∉ permittedClasses (expansionTokens packet ≠ [])))

theorem sortedExpansion_subset (packet : LLMContextPacket F) :
    ¬ ∃ token ∈ sortedSet (expansionTokens packet), token ∉ sortedSet (tokens packet) := by
  rintro ⟨token, htoken, hnot⟩
  exact hnot (mem_sortedSet.2 (expansionTokens_subset (mem_sortedSet.1 htoken)))

/-- A packet of a supported domain has constraints. -/
theorem packetRequestConstraints_ok (hdomain : packet.taskDomain.supported = true) :
    packetRequestConstraints packet = .ok (constraintsOf packet) := by
  have hclasses := sortedBy_classes (decide (expansionTokens packet ≠ []))
  have hlist : (if expansionTokens packet = [] then [] else [ExplorationCapabilityClass.currentProjectionExpansion]) =
      if decide (expansionTokens packet ≠ []) = true then [.currentProjectionExpansion] else [] := by
    by_cases h : expansionTokens packet = [] <;> simp [h]
  have hexpansion : ¬ (sortedSet (expansionTokens packet) ≠ [] ∧
      .currentProjectionExpansion ∉ permittedClasses (decide (expansionTokens packet ≠ []))) := by
    rintro ⟨hne, hnot⟩
    have hnonempty : expansionTokens packet ≠ [] := fun h => hne (sortedSet_eq_nil.2 h)
    simp [permittedClasses, hnonempty] at hnot
  unfold packetRequestConstraints buildRequestConstraints
  simp only [hlist, hclasses]
  rw [if_neg (by simp [hdomain]), if_neg (sortedExpansion_subset packet), if_neg hexpansion]
  rfl

/-- Those constraints pass their own checks. -/
theorem constraintChecks_constraintsOf (packet : LLMContextPacket F) :
    ∀ c ∈ constraintChecks (constraintsOf packet), c.1 = false := by
  have hclasses : ∀ expansion : Bool,
      let classes := permittedClasses expansion
      let excluded := sortedBy ExplorationCapabilityClass.value
        (ExplorationCapabilityClass.members.filter (· ∉ classes))
      sortedBy id (classes.map ExplorationCapabilityClass.value) =
        classes.map ExplorationCapabilityClass.value ∧ classes.Nodup ∧
      sortedBy id (excluded.map ExplorationCapabilityClass.value) =
        excluded.map ExplorationCapabilityClass.value ∧
      ¬ ((∃ c ∈ classes, c ∈ excluded) ∨
        ∃ c ∈ ExplorationCapabilityClass.members, c ∉ classes ∧ c ∉ excluded) := by
    decide
  obtain ⟨hsorted, hnodup, hexcluded, hcover⟩ := hclasses (decide (expansionTokens packet ≠ []))
  unfold constraintChecks
  simp only [List.forall_mem_cons, check_fst]
  refine ⟨fun h => h rfl, fun h => h (sortedSet_sortedUnique _), fun h => h hsorted, fun h => h hnodup,
    fun h => h hexcluded, hcover, ?_, fun h => h (sortedSet_sortedUnique _), sortedExpansion_subset packet, by simp⟩
  rintro (h | h | h | h | h)
  · exact h rfl
  · cases h
  · exact h rfl
  · exact h rfl
  · exact h rfl

end Packet

/-! ## Valid results -/

theorem sortedSet_of_sortedUnique {xs : List Text} (h : SortedUnique xs) : sortedSet xs = xs := by
  have hdedup : xs.dedup = xs := h.1.dedup
  unfold sortedSet
  rw [hdedup]
  exact h.2

/-- A sorted list without repetition is the sorted set of any list with its members. -/
theorem eq_sortedSet {xs ys : List Text} (h : SortedUnique xs) (hxy : xs ⊆ ys) (hyx : ys ⊆ xs) :
    xs = sortedSet ys := by
  rw [← sortedSet_of_sortedUnique h]
  exact sortedSet_congr fun t => ⟨fun hx => hxy hx, fun hy => hyx hy⟩

/-- The references are declared as they are used, and all are in the registry. -/
structure Cites (registry : List Text) (result : LLMInterpretationResult) : Prop where
  sorted : SortedUnique result.evidenceReferences
  declared : ∀ token ∈ result.evidenceReferences, token ∈ registry
  used : ∀ token ∈ usedTokens result, token ∈ registry
  complete : result.evidenceReferences ⊆ usedTokens result ∧ usedTokens result ⊆ result.evidenceReferences

theorem referenceChecks_iff {registry : List Text} {result : LLMInterpretationResult} :
    (∀ c ∈ referenceChecks registry result, c.1 = false) ↔ Cites registry result := by
  unfold referenceChecks
  simp only [List.forall_mem_cons, check_fst, not_not]
  constructor
  · rintro ⟨hsorted, hdeclared, hused, hcomplete, -⟩
    exact ⟨hsorted, fun token h => by_contra fun hnot => hdeclared ⟨token, h, hnot⟩,
      fun token h => by_contra fun hnot => hused ⟨token, h, hnot⟩, hcomplete⟩
  · exact fun h => ⟨h.sorted, fun ⟨token, hmem, hnot⟩ => hnot (h.declared token hmem),
      fun ⟨token, hmem, hnot⟩ => hnot (h.used token hmem), h.complete, by simp⟩

section Valid

variable {F : Type} [SqliteFloat F] {table : CaseTable} {packet : LLMContextPacket F}
  {result : LLMInterpretationResult}

/-- `validate_interpretation_result` reports `VALID`. -/
def Valid (table : CaseTable) (packet : LLMContextPacket F) (result : LLMInterpretationResult) : Prop :=
  ∃ v, validateInterpretationResult table packet result = .ok v ∧ v.status = .valid

theorem Valid.checks (h : Valid table packet result) :
    ∃ digest, packetDigest packet = .ok digest ∧ (∀ c ∈ contextPacketChecks packet digest, c.1 = false) ∧
      ∀ c ∈ resultChecks table packet result, c.1 = false := by
  obtain ⟨v, hv, hstatus⟩ := h
  obtain ⟨digest, hdigest, hv⟩ := bind_eq_ok.1 hv
  rw [← pure_eq_ok.1 hv, status_valid] at hstatus
  exact ⟨digest, hdigest, fun c hc => hstatus c (List.mem_append_left _ hc),
    fun c hc => hstatus c (List.mem_append_right _ hc)⟩

theorem Valid.supported (h : Valid table packet result) : packet.taskDomain.supported = true := by
  obtain ⟨digest, -, hpacket, -⟩ := h.checks
  have hdomain := hpacket (check (packet.taskDomain.supported = false) "TASK_DOMAIN_UNSUPPORTED")
    (by simp [contextPacketChecks])
  simpa using check_fst.1 hdomain

theorem Valid.sameDomain (h : Valid table packet result) : result.taskDomain = packet.taskDomain := by
  obtain ⟨digest, -, -, hresult⟩ := h.checks
  have hdomain := hresult (check (result.taskDomain ≠ packet.taskDomain) "RESULT_TASK_DOMAIN_MISMATCH")
    (by simp [resultChecks])
  simpa using check_fst.1 hdomain

theorem Valid.cites (h : Valid table packet result) : Cites (tokens packet) result := by
  obtain ⟨digest, -, -, hresult⟩ := h.checks
  refine referenceChecks_iff.1 fun c hc => hresult c ?_
  unfold resultChecks
  simp only [List.mem_append]
  exact .inl (.inl (.inl (.inl (.inl (.inr hc)))))

omit [SqliteFloat F] in
theorem available_mem {token : Text} {r : EvidenceReference F} (h : available packet token = some r) :
    r ∈ packet.evidenceReferences ∧ r.token = token :=
  ⟨List.mem_reverse.1 (List.mem_of_find?_eq_some h), by simpa using List.find?_some h⟩

/-- The target of an expansion is the token of an expansion reference. -/
theorem Valid.target (h : Valid table packet result) {e : ExplorationItem} (he : e ∈ result.explorations)
    (hclass : e.capabilityClass = .currentProjectionExpansion) : e.target ∈ expansionTokens packet := by
  obtain ⟨digest, -, -, hresult⟩ := h.checks
  have hexpansion := hresult (check (e.capabilityClass = .currentProjectionExpansion ∧
    ∀ r ∈ available packet e.target, r.kind ≠ .expansion) "EXPANSION_DESCRIPTOR_REQUIRED") (by
      unfold resultChecks
      simp only [List.mem_append]
      refine .inl (.inr (List.mem_flatMap.2 ⟨e, he, ?_⟩))
      simp [explorationChecks])
  have hkind := check_fst.1 hexpansion
  push Not at hkind
  obtain ⟨r, hr, hr'⟩ := hkind hclass
  obtain ⟨hmem, htoken⟩ := available_mem hr
  exact mem_expansionTokens.2 ⟨r, hmem, hr', htoken⟩

/-- The classes that the constraints of every packet exclude. -/
def AlwaysExcluded (c : ExplorationCapabilityClass) : Prop :=
  c = .currentSnapshotReprojection ∨ c = .futureTemporalCapability

theorem mem_permittedClasses {c : ExplorationCapabilityClass} {expansion : Bool} :
    c ∈ permittedClasses expansion ↔
      ¬ AlwaysExcluded c ∧ (c = .currentProjectionExpansion → expansion = true) := by
  unfold AlwaysExcluded
  cases c <;> cases expansion <;> decide

/-- What the claims of validity promise of a result. -/
structure Respects (packet : LLMContextPacket F) (result : LLMInterpretationResult) : Prop where
  constraints : ∃ constraints, packetRequestConstraints packet = .ok constraints ∧
    (validateRequestConstraints constraints result).status = .valid
  cited : ∀ token ∈ usedTokens result ++ result.evidenceReferences, token ∈ tokens packet
  declared : result.evidenceReferences = sortedSet (usedTokens result)

/-- A valid result passes the constraints of its packet if its explorations do. -/
theorem Valid.constraints_iff (h : Valid table packet result) :
    (validateRequestConstraints (constraintsOf packet) result).status = .valid ↔
      ∀ e ∈ result.explorations, ¬ AlwaysExcluded e.capabilityClass := by
  have hcites : Cites (sortedSet (tokens packet)) result :=
    ⟨h.cites.sorted, fun t ht => mem_sortedSet.2 (h.cites.declared t ht),
      fun t ht => mem_sortedSet.2 (h.cites.used t ht), h.cites.complete⟩
  have hexpansion : ∀ e ∈ result.explorations, e.capabilityClass = .currentProjectionExpansion →
      e.target ∈ sortedSet (expansionTokens packet) ∧ decide (expansionTokens packet ≠ []) = true :=
    fun e he hclass => ⟨mem_sortedSet.2 (h.target he hclass),
      decide_eq_true (List.ne_nil_of_mem (h.target he hclass))⟩
  have hcapability : ∀ e ∈ result.explorations,
      (∀ c ∈ capabilityChecks (constraintsOf packet) e, c.1 = false) ↔
        ¬ AlwaysExcluded e.capabilityClass := by
    intro e he
    unfold capabilityChecks
    simp only [List.forall_mem_cons, check_fst, not_not, not_and]
    refine ⟨fun hchecks => (mem_permittedClasses.1 hchecks.1).1, fun hexcluded =>
      ⟨mem_permittedClasses.2 ⟨hexcluded, fun hclass => (hexpansion e he hclass).2⟩,
        fun hclass => (hexpansion e he hclass).1, by simp⟩⟩
  unfold validateRequestConstraints
  rw [status_valid]
  simp only [List.forall_mem_append, List.forall_mem_flatMap, List.forall_mem_singleton, check_fst]
  constructor
  · exact fun hall e he => (hcapability e he).1 (hall.2 e he)
  · exact fun hall => ⟨⟨⟨constraintChecks_constraintsOf packet, fun hne => hne h.sameDomain⟩,
      referenceChecks_iff.2 hcites⟩, fun e he => (hcapability e he).2 (hall e he)⟩

/-- A valid result respects the constraints that were sent, and the citations, exactly if no
exploration of it has one of the classes that are always excluded. -/
theorem valid_respects_iff (h : Valid table packet result) :
    Respects packet result ↔ ∀ e ∈ result.explorations, ¬ AlwaysExcluded e.capabilityClass := by
  have hconstraints := packetRequestConstraints_ok h.supported
  constructor
  · rintro ⟨⟨constraints, hbuilt, hvalid⟩, -, -⟩
    rw [hconstraints] at hbuilt
    rw [← Except.ok.inj hbuilt] at hvalid
    exact h.constraints_iff.1 hvalid
  · intro hexplorations
    refine ⟨⟨_, hconstraints, h.constraints_iff.2 hexplorations⟩, fun token htoken => ?_,
      eq_sortedSet h.cites.sorted h.cites.complete.1 h.cites.complete.2⟩
    rcases List.mem_append.1 htoken with htoken | htoken
    · exact h.cites.used token htoken
    · exact h.cites.declared token htoken

end Valid

/-! ## One exploration of each class -/

namespace Sample

def reference : EvidenceReference Integral where
  kind := .entry
  token := txt "entry-1"
  entryReference := some (.str (txt "a.txt"))
  resultReference := none
  accountingDomain := none
  expansionDescriptor := none
  sourceIdentity := none

def machineObject : List (Text × Value Integral) :=
  [(txt "protocol_version", .int 0), (txt "task_domain", .str (txt "STATIC_SNAPSHOT")),
    (txt "projection_digest", .str (txt "projection")),
    (txt "evidence_references", .list [.dict [(txt "kind", .str (txt "ENTRY")),
      (txt "token", .str (txt "entry-1")), (txt "entry_reference", .str (txt "a.txt"))]])]

/-- The packet, with the digest that `finalize_packet` gives it. -/
def packet : LLMContextPacket Integral where
  protocolVersion := 0
  taskDomain := .staticSnapshot
  projectionDigest := txt "projection"
  evidenceReferences := [reference]
  machineObject := machineObject
  packetDigest := Runtime.sha256 Integral (Text.utf8 (txt "local_steward.llm_context_packet.v0" ++ [0] ++
    canonicalText (.dict machineObject : Value Integral)))

def exploration (c : ExplorationCapabilityClass) : ExplorationItem where
  semanticClass := .exploration
  question := txt "What else is there?"
  target := txt "The same scope"
  supportingEvidenceReferences := [txt "entry-1"]
  missingInformation := [txt "Other entries"]
  expectedValue := txt "More entries"
  capabilityClass := c

def result (c : ExplorationCapabilityClass) : LLMInterpretationResult where
  protocolVersion := 0
  taskDomain := .staticSnapshot
  status := .completed
  summary := txt "One entry."
  observations := []
  interpretations := []
  hypotheses := []
  explorations := [exploration c]
  unknowns := []
  limitations := []
  evidenceReferences := [txt "entry-1"]

/-- ASCII letters and digits are word characters; case counts. -/
def table : CaseTable :=
  ⟨fun c d => c = d, fun c => isNameCharacter c⟩
where
  isNameCharacter (c : CodePoint) : Bool :=
    Text.isDigit c || (65 ≤ c.val && c.val ≤ 90) || (97 ≤ c.val && c.val ≤ 122) || c = ch '_'

/-- The result is valid whatever its class is, but for the one that needs a descriptor. -/
theorem valid {c : ExplorationCapabilityClass} (hc : c ≠ .currentProjectionExpansion) :
    Valid table packet (result c) := by
  have hsafe : (Value.dict machineObject).safe = true := by decide
  have hdigest : packetDigest packet = .ok packet.packetDigest := domainDigest_eq_ok.2 ⟨hsafe, rfl⟩
  have hpacket : ∀ c ∈ contextPacketChecks packet packet.packetDigest, c.1 = false := by
    have hreferences : ∀ c ∈ [reference].flatMap (fun r =>
        [check (payloadCount r ≠ 1) "PACKET_REFERENCE_PAYLOAD_INVALID",
          check (payloadCount r = 1 ∧ (r.payload r.kind).isNone) "PACKET_REFERENCE_KIND_INVALID"]),
        c.1 = false := by decide
    have htokens : SortedUnique (tokens packet) := by decide
    unfold contextPacketChecks
    simp only [List.forall_mem_append, List.forall_mem_cons, check_fst]
    exact ⟨⟨fun h => h rfl, by decide, by decide, fun h => h rfl, fun h => h htokens, by simp⟩,
      hreferences⟩
  have hresult : ∀ check ∈ resultChecks table packet (result c), check.1 = false := by
    cases c with
    | currentProjectionExpansion => exact absurd rfl hc
    | currentSnapshotReprojection => decide
    | newObservationRequired => decide
    | futureTemporalCapability => decide
    | outOfScope => decide +kernel
  refine ⟨_, bind_eq_ok.2 ⟨_, hdigest, rfl⟩, status_valid.2 fun check hcheck => ?_⟩
  rcases List.mem_append.1 hcheck with hcheck | hcheck
  · exact hpacket check hcheck
  · exact hresult check hcheck

end Sample

/-- An exploration of a permitted class. -/
theorem permitted_class_respects :
    Respects Sample.packet (Sample.result .newObservationRequired) := by
  refine (valid_respects_iff (Sample.valid (by decide))).2 fun e he => ?_
  obtain rfl : e = Sample.exploration .newObservationRequired := by simpa [Sample.result] using he
  rintro (h | h) <;> cases h

/-- The result is valid for its packet, and its exploration has a class that the constraints
which were sent exclude. -/
theorem excluded_class_is_valid :
    Valid Sample.table Sample.packet (Sample.result .currentSnapshotReprojection) ∧
      ∃ constraints, packetRequestConstraints Sample.packet = .ok constraints ∧
        (validateRequestConstraints constraints (Sample.result .currentSnapshotReprojection)).status =
          .invalid := by
  have hvalid := Sample.valid (c := .currentSnapshotReprojection) (by decide)
  refine ⟨hvalid, _, packetRequestConstraints_ok hvalid.supported, ?_⟩
  cases hstatus : (validateRequestConstraints (constraintsOf Sample.packet)
    (Sample.result .currentSnapshotReprojection)).status with
  | invalid => rfl
  | valid =>
    exact absurd (.inl rfl) (hvalid.constraints_iff.1 hstatus
      (Sample.exploration .currentSnapshotReprojection) List.mem_cons_self)

end Steward.Context
