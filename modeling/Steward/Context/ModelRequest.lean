import Steward.Context.OutputContract
import Steward.Context.Validity

/-!
# Model requests

The request of a packet carries the static contract of the answer and the
constraints of this packet, both as canonical text with a digest. What was
rendered is read back unchanged, so a request that is built passes its own check.
-/

namespace Steward.Context

open Py Sqlite

deriving instance DecidableEq for RequestConstraints

/-- What building or checking a request raises: an error of the Context layer by its code, or another. -/
inductive RequestFailure where
  | context (code : Text)
  | raised (e : Exc)
  deriving DecidableEq, Repr

abbrev Requested (α : Type) := Except RequestFailure α

def contextInvalid {α : Type} (code : String) : Requested α := .error (.context (txt code))

def orRaised {α : Type} (x : Result α) : Requested α := x.mapError .raised

@[simp] theorem orRaised_eq_ok {α : Type} {x : Result α} {a : α} : orRaised x = .ok a ↔ x = .ok a := by
  cases x <;> simp [orRaised, Except.mapError]

@[simp] theorem orRaised_ok {α : Type} (a : α) : orRaised (.ok a : Result α) = .ok a := rfl

def orCode {α : Type} (x : Except Text α) : Requested α := x.mapError .context

@[simp] theorem orCode_eq_ok {α : Type} {x : Except Text α} {a : α} : orCode x = .ok a ↔ x = .ok a := by
  cases x <;> simp [orCode, Except.mapError]

@[simp] theorem orCode_ok {α : Type} (a : α) : orCode (.ok a : Except Text α) = .ok a := rfl

structure LLMModelRequest where
  protocolVersion : Int
  taskDomain : LLMTaskDomain
  instructionContract : Text
  contextPacketJson : Text
  requiredOutputSchema : Text
  requestConstraintsJson : Text
  outputContractDigest : Text
  requestConstraintsDigest : Text
  deriving DecidableEq

/-- `_INSTRUCTION_CONTRACT` -/
def instructionContract : Text :=
  txt ("Use the supplied Observation Projection Context Packet as the only fact source. " ++
    "Return exactly one JSON object. Separate OBSERVATION, INTERPRETATION, " ++
    "HYPOTHESIS, and EXPLORATION. Every OBSERVATION requires packet evidence. " ++
    "A hypothesis is not a fact. Every exploration requires a capability class. " ++
    "Do not claim filesystem operations, safe deletion, physical reclaimable space, " ++
    "or a long-term trend from one Snapshot or one Snapshot pair.")

section
variable (F : Type) [SqliteFloat F]

/-! ## The constraints as text -/

/-- `request_constraints_machine_object` -/
def constraintsObject (value : RequestConstraints) : List (Text × Value F) :=
  [(txt "capability_classes", strings (value.capabilityClasses.map ExplorationCapabilityClass.value)),
    (txt "empty_registry_rule", .str value.emptyRegistryRule),
    (txt "evidence_array_unique", .bool value.evidenceArrayUnique),
    (txt "evidence_token_wire_type", .str value.evidenceTokenWireType),
    (txt "evidence_tokens", strings value.evidenceTokens),
    (txt "excluded_capability_classes", strings (value.excludedCapabilityClasses.map ExplorationCapabilityClass.value)),
    (txt "expansion_target_tokens", strings value.expansionTargetTokens),
    (txt "schema_version", .int value.schemaVersion),
    (txt "task_domain", .str (Named.name value.taskDomain)),
    (txt "token_order_rule", .str value.tokenOrderRule),
    (txt "top_level_reference_rule", .str value.topLevelReferenceRule)]

/-- `render_request_constraints` -/
def renderRequestConstraints (value : RequestConstraints) : Result Text :=
  canonicalJson (.dict (constraintsObject F value))

/-- `request_constraints_digest` -/
def requestConstraintsDigest (value : RequestConstraints) : Result Text :=
  domainDigest F (txt "local_steward.llm_request_constraints.v1") (.dict (constraintsObject F value))

/-- The keys `parse_request_constraints` asks for. -/
def constraintsKeys : List Text :=
  [txt "schema_version", txt "task_domain", txt "evidence_tokens", txt "capability_classes",
    txt "expansion_target_tokens", txt "excluded_capability_classes", txt "evidence_token_wire_type",
    txt "evidence_array_unique", txt "top_level_reference_rule", txt "token_order_rule", txt "empty_registry_rule"]

end

section
variable {F : Type} [SqliteFloat F]

/-! ## Reading them -/

omit [SqliteFloat F]

/-- `isinstance(value, str)`; `none` is the `ValueError`. -/
def readString : Value F → Option Text
  | .str s => some s
  | _ => none

/-- `isinstance(value, list) and all(isinstance(item, str) for item in value)` -/
def readStrings : Value F → Option (List Text)
  | .list items => items.mapM readString
  | _ => none

/-- The members of the enumeration that a list names. -/
def readClasses (v : Value F) : Option (List ExplorationCapabilityClass) := do
  let names ← readStrings v
  names.mapM Named.ofName?

def readInteger : Value F → Option Int
  | .int n => some n
  | _ => none

def readFlag : Value F → Option Bool
  | .bool b => some b
  | _ => none

def readDomain (v : Value F) : Option LLMTaskDomain := do
  let name ← readString v
  Named.ofName? name

/-- The constraints that the members spell. -/
def readConstraints (members : List (Text × Value F)) : Option RequestConstraints := do
  let schemaVersion ← (lookup members (txt "schema_version")).bind readInteger
  let taskDomain ← (lookup members (txt "task_domain")).bind readDomain
  let evidenceTokens ← (lookup members (txt "evidence_tokens")).bind readStrings
  let capabilityClasses ← (lookup members (txt "capability_classes")).bind readClasses
  let expansionTargetTokens ← (lookup members (txt "expansion_target_tokens")).bind readStrings
  let excludedCapabilityClasses ← (lookup members (txt "excluded_capability_classes")).bind readClasses
  let evidenceTokenWireType ← (lookup members (txt "evidence_token_wire_type")).bind readString
  let evidenceArrayUnique ← (lookup members (txt "evidence_array_unique")).bind readFlag
  let topLevelReferenceRule ← (lookup members (txt "top_level_reference_rule")).bind readString
  let tokenOrderRule ← (lookup members (txt "token_order_rule")).bind readString
  let emptyRegistryRule ← (lookup members (txt "empty_registry_rule")).bind readString
  return { schemaVersion, taskDomain, evidenceTokens, capabilityClasses, expansionTargetTokens,
           excludedCapabilityClasses, evidenceTokenWireType, evidenceArrayUnique, topLevelReferenceRule,
           tokenOrderRule, emptyRegistryRule }

end

section
variable (F : Type) [SqliteFloat F]

/-- `parse_request_constraints` -/
def parseRequestConstraints (raw : Text) : Requested RequestConstraints :=
  match Json.loads (F := F) raw with
  | some (.dict members) =>
    if ¬ hasKeys constraintsKeys members then contextInvalid "REQUEST_CONSTRAINTS_CANONICAL_INVALID"
    else match readConstraints members with
      | none => contextInvalid "REQUEST_CONSTRAINTS_CANONICAL_INVALID"
      | some constraints => do
        let rendered ← orRaised (renderRequestConstraints F constraints)
        if rendered ≠ raw then contextInvalid "REQUEST_CONSTRAINTS_CANONICAL_INVALID" else .ok constraints
  | _ => contextInvalid "REQUEST_CONSTRAINTS_CANONICAL_INVALID"

/-! ## Requests -/

/-- `render_output_contract_manifest` -/
def renderOutputContractManifest : Result Text := canonicalJson (outputContractManifest (F := F) canonicalOutputContract)

/-- `output_contract_digest` -/
def outputContractDigest : Result Text :=
  domainDigest F (txt "local_steward.llm_output_contract.v1") (outputContractManifest canonicalOutputContract)

/-- `validate_model_request_contract` -/
def validateModelRequestContract (request : LLMModelRequest) : Requested RequestConstraints := do
  let manifest ← orRaised (renderOutputContractManifest F)
  if request.requiredOutputSchema ≠ manifest then contextInvalid "OUTPUT_CONTRACT_MANIFEST_INVALID"
  let contractDigest ← orRaised (outputContractDigest F)
  if request.outputContractDigest ≠ contractDigest then contextInvalid "OUTPUT_CONTRACT_DIGEST_INVALID"
  let constraints ← parseRequestConstraints F request.requestConstraintsJson
  let normalized ← orCode (buildRequestConstraints constraints.taskDomain constraints.evidenceTokens
    constraints.capabilityClasses constraints.expansionTargetTokens)
  if normalized ≠ constraints then contextInvalid "REQUEST_CONSTRAINTS_CANONICAL_INVALID"
  if constraints.taskDomain ≠ request.taskDomain then contextInvalid "RESULT_TASK_DOMAIN_MISMATCH"
  let constraintsDigest ← orRaised (requestConstraintsDigest F constraints)
  if request.requestConstraintsDigest ≠ constraintsDigest then contextInvalid "REQUEST_CONSTRAINTS_DIGEST_INVALID"
  return constraints

/-- `build_model_request_from_context` -/
def buildModelRequestFromContext (taskDomain : LLMTaskDomain) (contextJson : Text) (constraints : RequestConstraints) :
    Requested LLMModelRequest := do
  if constraints.taskDomain ≠ taskDomain then contextInvalid "RESULT_TASK_DOMAIN_MISMATCH"
  let requiredOutputSchema ← orRaised (renderOutputContractManifest F)
  let requestConstraintsJson ← orRaised (renderRequestConstraints F constraints)
  let contractDigest ← orRaised (outputContractDigest F)
  let constraintsDigest ← orRaised (requestConstraintsDigest F constraints)
  let request : LLMModelRequest := ⟨contextProtocolVersion, taskDomain, instructionContract, contextJson,
    requiredOutputSchema, requestConstraintsJson, contractDigest, constraintsDigest⟩
  let _ ← validateModelRequestContract F request
  return request

variable {F}

/-- `render_context_packet` -/
def renderContextPacket (packet : LLMContextPacket F) : Result Text :=
  canonicalJson (.dict (packet.machineObject ++ [(txt "packet_digest", .str packet.packetDigest)]))

/-- `build_model_request` -/
def buildModelRequest (packet : LLMContextPacket F) : Requested LLMModelRequest := do
  if ¬ packet.taskDomain.supported then contextInvalid "LLM_TASK_DOMAIN_UNSUPPORTED"
  let digest ← orRaised (packetDigest packet)
  match violations (contextPacketChecks packet digest) with
  | code :: _ => .error (.context code)
  | [] => do
    let contextJson ← orRaised (renderContextPacket packet)
    let constraints ← orCode (packetRequestConstraints packet)
    buildModelRequestFromContext F packet.taskDomain contextJson constraints

end

/-! ## The round trip -/

section
variable {F : Type}

theorem constraintsObject_sorted (value : RequestConstraints) :
    (Value.dict (constraintsObject F value)).sortKeys = .dict (constraintsObject F value) := by
  have hstrings : ∀ ts : List Text, (strings ts : Value F).sortKeys = strings ts := by
    intro ts
    rw [strings, Value.sortKeys_list, List.map_map]
    exact congrArg Value.list (List.map_congr_left fun _ _ => rfl)
  have hvalues : (constraintsObject F value).map (fun f => (f.1, f.2.sortKeys)) = constraintsObject F value := by
    simp only [constraintsObject, List.map_cons, List.map_nil, hstrings, Value.sortKeys]
  rw [Value.sortKeys_dict, hvalues]
  refine congrArg Value.dict (Value.sortFields_of_sorted ?_)
  have hkeys : ((constraintsObject F value).map Prod.fst).Pairwise (· ≤ ·) := by
    simp only [constraintsObject, List.map_cons, List.map_nil]
    decide +kernel
  rw [List.pairwise_map] at hkeys
  exact hkeys

theorem constraintsObject_wf (value : RequestConstraints) : (Value.dict (constraintsObject F value)).wf = true := by
  have hstrings : ∀ ts : List Text, (strings ts : Value F).wf = true := by
    intro ts
    refine Value.wf_list.2 fun x hx => ?_
    obtain ⟨t, -, rfl⟩ := List.mem_map.1 hx
    rfl
  refine Value.wf_dict.2 ⟨?_, ?_⟩
  · simp only [constraintsObject, keys, List.map_cons, List.map_nil]
    decide +kernel
  · simp only [constraintsObject, List.forall_mem_cons, hstrings]
    exact ⟨trivial, rfl, rfl, rfl, trivial, trivial, trivial, rfl, rfl, rfl, rfl, List.forall_mem_nil _⟩

theorem readStrings_strings (ts : List Text) : readStrings (strings ts : Value F) = some ts := by
  rw [strings, readStrings]
  induction ts with
  | nil => rfl
  | cons t ts ih =>
    rw [List.map_cons, List.mapM_cons, ih]
    rfl

theorem readClasses_strings (cs : List ExplorationCapabilityClass) :
    readClasses (strings (cs.map ExplorationCapabilityClass.value) : Value F) = some cs := by
  rw [readClasses, readStrings_strings]
  show (cs.map ExplorationCapabilityClass.value).mapM Named.ofName? = some cs
  induction cs with
  | nil => rfl
  | cons c cs ih =>
    have hc : Named.ofName? c.value = some c := Named.ofName?_name c
    rw [List.map_cons, List.mapM_cons, ih, hc]
    rfl

theorem readDomain_name (d : LLMTaskDomain) : readDomain (.str (Named.name d) : Value F) = some d := Named.ofName?_name d

/-- The members spell the constraints they were made of. -/
theorem readConstraints_constraintsObject (value : RequestConstraints) :
    readConstraints (constraintsObject F value) = some value := by
  have hfirst : lookup (constraintsObject F value) (txt "schema_version") = some (.int value.schemaVersion) := rfl
  have hdomain : lookup (constraintsObject F value) (txt "task_domain") = some (.str (Named.name value.taskDomain)) := rfl
  have hevidence : lookup (constraintsObject F value) (txt "evidence_tokens") = some (strings value.evidenceTokens) := rfl
  have hclasses : lookup (constraintsObject F value) (txt "capability_classes") =
      some (strings (value.capabilityClasses.map ExplorationCapabilityClass.value)) := rfl
  have htargets : lookup (constraintsObject F value) (txt "expansion_target_tokens") =
      some (strings value.expansionTargetTokens) := rfl
  have hexcluded : lookup (constraintsObject F value) (txt "excluded_capability_classes") =
      some (strings (value.excludedCapabilityClasses.map ExplorationCapabilityClass.value)) := rfl
  rw [readConstraints, hfirst, hdomain, hevidence, hclasses, htargets, hexcluded]
  simp only [Option.bind_some, readStrings_strings, readClasses_strings, readDomain_name]
  rfl

theorem hasKeys_constraintsObject (value : RequestConstraints) :
    hasKeys constraintsKeys (constraintsObject F value) = true := by
  have hkeys : keys (constraintsObject F value) = [txt "capability_classes", txt "empty_registry_rule",
      txt "evidence_array_unique", txt "evidence_token_wire_type", txt "evidence_tokens",
      txt "excluded_capability_classes", txt "expansion_target_tokens", txt "schema_version", txt "task_domain",
      txt "token_order_rule", txt "top_level_reference_rule"] := rfl
  unfold hasKeys
  rw [hkeys]
  decide +kernel

variable [SqliteFloat F] {value : RequestConstraints}

/-- Rendered constraints are read back. -/
theorem parse_render {raw : Text} (h : renderRequestConstraints F value = .ok raw) :
    parseRequestConstraints F raw = .ok value := by
  obtain ⟨hsafe, hraw⟩ := canonicalJson_eq_ok.1 h
  have hloads := loads_canonicalText hsafe (constraintsObject_wf value)
  rw [constraintsObject_sorted, ← hraw] at hloads
  unfold parseRequestConstraints
  rw [hloads]
  dsimp only
  rw [if_neg (not_not.2 (hasKeys_constraintsObject value)), readConstraints_constraintsObject]
  dsimp only
  rw [h]
  show (if raw ≠ raw then _ else _) = _
  rw [if_neg (not_not.2 rfl)]

/-! ## Built requests pass -/

omit [SqliteFloat F] in
/-- Built constraints are normalized. -/
theorem buildRequestConstraints_normal {taskDomain : LLMTaskDomain} {evidence targets : List Text}
    {classes : List ExplorationCapabilityClass} (h : buildRequestConstraints taskDomain evidence classes targets = .ok value) :
    buildRequestConstraints value.taskDomain value.evidenceTokens value.capabilityClasses value.expansionTargetTokens =
      .ok value := by
  have hset : ∀ ts : List Text, sortedSet (sortedSet ts) = sortedSet ts := fun ts =>
    sortedSet_of_sortedUnique (sortedSet_sortedUnique ts)
  have hclasses : sortedBy ExplorationCapabilityClass.value (sortedBy ExplorationCapabilityClass.value classes.dedup).dedup =
      sortedBy ExplorationCapabilityClass.value classes.dedup := by
    rw [(sortedBy_perm.nodup_iff.2 classes.nodup_dedup).dedup]
    exact sortedBy_unique (List.Perm.refl _) sortedBy_pairwise fun a _ b _ hab => Named.name_inj hab
  unfold buildRequestConstraints at h
  dsimp only at h
  split_ifs at h with hdomain htargets hcapability
  cases h
  unfold buildRequestConstraints
  dsimp only
  rw [hset, hset, hclasses, if_neg hdomain, if_neg htargets, if_neg hcapability]

/-- A request that carries the contract and rendered, normalized constraints passes. -/
theorem validate_of_rendered {request : LLMModelRequest}
    (hschema : renderOutputContractManifest F = .ok request.requiredOutputSchema)
    (hcontract : outputContractDigest F = .ok request.outputContractDigest)
    (hraw : renderRequestConstraints F value = .ok request.requestConstraintsJson)
    (hnormal : buildRequestConstraints value.taskDomain value.evidenceTokens value.capabilityClasses
      value.expansionTargetTokens = .ok value)
    (hdomain : value.taskDomain = request.taskDomain)
    (hdigest : requestConstraintsDigest F value = .ok request.requestConstraintsDigest) :
    validateModelRequestContract F request = .ok value := by
  unfold validateModelRequestContract
  rw [hdomain] at hnormal
  rw [hschema, hcontract, parse_render hraw]
  simp only [orRaised_ok, ok_bind_ok, ne_eq, not_true_eq_false, if_false, hnormal, orCode_ok, hdomain, hdigest]
  rfl

/-! ## The contract can be encoded -/

section

omit [SqliteFloat F]

theorem safe_fields [PyFloat F] {fs : List (Text × Value F)} :
    (Value.dict fs).safe = true ↔ ∀ f ∈ fs, f.1.encodable = true ∧ f.2.safe = true := by
  rw [Value.safe_dict, keys, List.forall_mem_map]
  exact ⟨fun h f hf => ⟨h.1 f hf, h.2 f hf⟩, fun h => ⟨fun f hf => (h f hf).1, fun f hf => (h f hf).2⟩⟩

theorem strings_safe [PyFloat F] (ts : List Text) : (strings ts : Value F).safe = true ↔ ∀ t ∈ ts, t.encodable = true := by
  rw [strings, Value.safe_list, List.forall_mem_map]
  rfl

theorem wireEnum_encodable (α : Type) [Named α] (name : String) : ∀ t ∈ (wireEnum α name).values, t.encodable = true := by
  rw [wireEnum, List.forall_mem_map]
  exact fun a _ => Named.encodable a

end

/-- The texts of the rules of a field. -/
structure FieldRules.Encodable (rules : FieldRules) : Prop where
  name : rules.name.encodable = true
  literal : ∀ l ∈ rules.literal, ∀ t, l = .text t → t.encodable = true
  enumType : ∀ e ∈ rules.enumType, ∀ t ∈ e.values, t.encodable = true

omit [SqliteFloat F] in
theorem plain_encodable (name : String) (wireType : WireType) : (plain name wireType).Encodable where
  name := Text.encodable_txt name
  literal _ hl := nomatch hl
  enumType _ he := nomatch he

theorem WireType.name_encodable (wireType : WireType) : wireType.name.encodable = true := by
  cases wireType <;> exact Text.encodable_txt _

theorem WireLiteral.data_safe {l : WireLiteral} (h : ∀ t, l = .text t → t.encodable = true) : (l.data : Value F).safe = true := by
  cases l with
  | text t => exact h t rfl
  | number n => rfl

theorem rulesManifest_safe {rules : FieldRules} (h : rules.Encodable) :
    ∀ f ∈ (rulesManifest rules : List (Text × Value F)), f.1.encodable = true ∧ f.2.safe = true := by
  have htype : (Value.str rules.wireType.name : Value F).safe = true := rules.wireType.name_encodable
  have hname : (Value.str rules.name : Value F).safe = true := h.name
  have hfirst : ∀ f ∈ [(txt "name", (.str rules.name : Value F)), (txt "nullable", .bool rules.nullable),
      (txt "wire_type", .str rules.wireType.name)], f.1.encodable = true ∧ f.2.safe = true :=
    List.forall_mem_cons.2 ⟨⟨Text.encodable_txt _, hname⟩, List.forall_mem_cons.2 ⟨⟨Text.encodable_txt _, rfl⟩,
      List.forall_mem_singleton.2 ⟨Text.encodable_txt _, htype⟩⟩⟩
  have hempty : ∀ f ∈ (if rules.wireType = .array ∨ rules.wireType = .string then
      [(txt "allows_empty", (.bool rules.allowsEmpty : Value F))] else []), f.1.encodable = true ∧ f.2.safe = true := by
    split_ifs
    · exact List.forall_mem_singleton.2 ⟨Text.encodable_txt _, rfl⟩
    · exact List.forall_mem_nil _
  intro f hf
  rw [rulesManifest, List.mem_append, List.mem_append, List.mem_append] at hf
  rcases hf with ((hf | hf) | hf) | hf
  · exact hfirst f hf
  · exact hempty f hf
  · obtain ⟨l, hl, rfl⟩ := List.mem_map.1 hf
    exact ⟨Text.encodable_txt _, WireLiteral.data_safe (h.literal l (Option.mem_toList.1 hl))⟩
  · obtain ⟨e, he, rfl⟩ := List.mem_map.1 hf
    exact ⟨Text.encodable_txt _, (strings_safe _).2 (h.enumType e (Option.mem_toList.1 he))⟩

/-- What an array adds: the type of its items, and the object each of them is. -/
theorem arrayManifest_safe {types : List WireType} {object : List (Text × Value F)} {unique : Bool}
    (h : ∀ f ∈ object, f.1.encodable = true ∧ f.2.safe = true) :
    ∀ f ∈ [(txt "array_item", (.dict ((types.map fun t => (txt "wire_type", .str t.name)) ++ object) : Value F)),
      (txt "unique_items", .bool unique)], f.1.encodable = true ∧ f.2.safe = true := by
  have hitem : (.dict ((types.map fun t => (txt "wire_type", .str t.name)) ++ object) : Value F).safe = true := by
    refine safe_fields.2 fun g hg => ?_
    rcases List.mem_append.1 hg with hg | hg
    · obtain ⟨t, -, rfl⟩ := List.mem_map.1 hg
      exact ⟨Text.encodable_txt _, t.name_encodable⟩
    · exact h g hg
  exact List.forall_mem_cons.2 ⟨⟨Text.encodable_txt _, hitem⟩, List.forall_mem_singleton.2 ⟨Text.encodable_txt _, rfl⟩⟩

/-- A field without objects. -/
theorem fieldManifest_safe {rules : FieldRules} (h : rules.Encodable) : (fieldManifest (.mk rules none none) : Value F).safe = true := by
  rw [fieldManifest, safe_fields]
  intro f hf
  rw [List.append_nil, List.mem_append] at hf
  rcases hf with hf | hf
  · exact rulesManifest_safe h f hf
  · split_ifs at hf with harray
    · exact arrayManifest_safe (List.forall_mem_nil _) f hf
    · exact absurd hf List.not_mem_nil

/-- The name and the manifest of the field can be encoded. -/
def WireField.Safe (F : Type) [SqliteFloat F] (field : WireField) : Prop :=
  field.name.encodable = true ∧ (fieldManifest field : Value F).safe = true

/-- The manifest of an object whose fields can be encoded. -/
theorem objectManifest_safe {name : Text} {fields : List WireField} {forbidden : Bool}
    (h : ∀ field ∈ fields, field.Safe F) : (objectManifest (.mk name fields forbidden) : Value F).safe = true := by
  have hfields : ∀ fields : List WireField, (∀ field ∈ fields, (fieldManifest field : Value F).safe = true) →
      ∀ x ∈ (fieldsManifest fields : List (Value F)), x.safe = true := by
    intro fields hsafe
    induction fields with
    | nil =>
      rw [fieldsManifest]
      exact List.forall_mem_nil _
    | cons field fields ih =>
      rw [fieldsManifest]
      exact List.forall_mem_cons.2 ⟨hsafe field List.mem_cons_self, ih fun g hg => hsafe g (List.mem_cons_of_mem _ hg)⟩
  rw [objectManifest, safe_fields]
  refine List.forall_mem_cons.2 ⟨⟨Text.encodable_txt _, rfl⟩, List.forall_mem_cons.2 ⟨⟨Text.encodable_txt _, ?_⟩,
    List.forall_mem_cons.2 ⟨⟨Text.encodable_txt _, ?_⟩, List.forall_mem_singleton.2 ⟨Text.encodable_txt _, ?_⟩⟩⟩⟩
  · exact Value.safe_list.2 (hfields fields fun field hf => (h field hf).2)
  · exact (strings_safe _).2 (List.forall_mem_map.2 fun field hf => (h field hf).1)
  · exact Text.encodable_txt _

/-! The kinds of fields the schemas are made of. -/

theorem stringField_safe (name : String) : (stringField name).Safe F :=
  ⟨Text.encodable_txt _, fieldManifest_safe (plain_encodable name .string)⟩

theorem nullableField_safe (name : String) : (nullableField name).Safe F :=
  ⟨Text.encodable_txt _, fieldManifest_safe { plain_encodable name .string with }⟩

theorem usesField_safe (name : String) : (usesField name).Safe F :=
  ⟨Text.encodable_txt _, fieldManifest_safe { plain_encodable name .array with }⟩

theorem stringsField_safe (name : String) : (stringsField name).Safe F :=
  ⟨Text.encodable_txt _, fieldManifest_safe { plain_encodable name .array with }⟩

theorem enumField_safe (name : String) (α : Type) [Named α] (enumName : String) :
    (enumField name (wireEnum α enumName)).Safe F := by
  refine ⟨Text.encodable_txt _, fieldManifest_safe { plain_encodable name .string with enumType := ?_ }⟩
  rintro e ⟨⟩
  exact wireEnum_encodable α enumName

theorem classField_safe (c : SemanticClass) : (classField c).Safe F := by
  refine ⟨Text.encodable_txt _, fieldManifest_safe { plain_encodable "semantic_class" .string with literal := ?_, enumType := ?_ }⟩
  · rintro l ⟨⟩ t ⟨⟩
    exact Named.encodable c
  · rintro e ⟨⟩
    exact wireEnum_encodable SemanticClass _

theorem itemsField_safe (name : String) {item : WireObject} (h : (objectManifest item : Value F).safe = true) :
    (itemsField name item).Safe F := by
  have hobject : ∀ f ∈ [(txt "object", (objectManifest item : Value F))], f.1.encodable = true ∧ f.2.safe = true :=
    List.forall_mem_singleton.2 ⟨Text.encodable_txt _, h⟩
  refine ⟨Text.encodable_txt _, ?_⟩
  rw [itemsField, fieldManifest, safe_fields]
  intro f hf
  rw [List.append_nil, List.mem_append] at hf
  rcases hf with hf | hf
  · exact rulesManifest_safe (plain_encodable name .array) f hf
  · exact arrayManifest_safe hobject f hf

theorem rootSchema_safe : (objectManifest rootSchema : Value F).safe = true := by
  have hobservations : (objectManifest observationSchema : Value F).safe = true := by
    refine objectManifest_safe ?_
    simp only [List.forall_mem_cons, classField_safe, stringField_safe, usesField_safe, List.not_mem_nil, false_implies, implies_true, and_true]
  have hinterpretations : (objectManifest interpretationSchema : Value F).safe = true := by
    refine objectManifest_safe ?_
    simp only [List.forall_mem_cons, classField_safe, stringField_safe, usesField_safe, stringsField_safe,
      List.not_mem_nil, false_implies, implies_true, and_true]
  have hhypotheses : (objectManifest hypothesisSchema : Value F).safe = true := by
    refine objectManifest_safe ?_
    simp only [List.forall_mem_cons, classField_safe, stringField_safe, usesField_safe, stringsField_safe,
      nullableField_safe, List.not_mem_nil, false_implies, implies_true, and_true]
  have hexplorations : (objectManifest explorationSchema : Value F).safe = true := by
    refine objectManifest_safe ?_
    simp only [List.forall_mem_cons, classField_safe, stringField_safe, usesField_safe, stringsField_safe,
      enumField_safe, List.not_mem_nil, false_implies, implies_true, and_true]
  have hversion : ({ plain "protocol_version" .integer with
      literal := some (.number contextProtocolVersion) } : FieldRules).Encodable :=
    { plain_encodable "protocol_version" .integer with literal := by rintro l ⟨⟩ t ⟨⟩ }
  refine objectManifest_safe (List.forall_mem_cons.2 ⟨⟨Text.encodable_txt _, fieldManifest_safe hversion⟩, ?_⟩)
  simp only [List.forall_mem_cons, enumField_safe, stringField_safe, usesField_safe, stringsField_safe,
    itemsField_safe, hobservations, hinterpretations, hhypotheses, hexplorations, List.not_mem_nil, false_implies, implies_true, and_true]

theorem outputContractManifest_safe :
    (outputContractManifest canonicalOutputContract : Value F).safe = true := by
  have henums : ∀ e ∈ canonicalOutputContract.enumTypes, e.name.encodable = true ∧ ∀ t ∈ e.values, t.encodable = true := by
    have henum : ∀ (α : Type) [Named α] (name : String), (wireEnum α name).name.encodable = true ∧
        ∀ t ∈ (wireEnum α name).values, t.encodable = true :=
      fun α _ name => ⟨Text.encodable_txt name, wireEnum_encodable α name⟩
    exact List.forall_mem_cons.2 ⟨henum _ _, List.forall_mem_cons.2 ⟨henum _ _, List.forall_mem_cons.2
      ⟨henum _ _, List.forall_mem_singleton.2 (henum _ _)⟩⟩⟩
  have hdict : (Value.dict (canonicalOutputContract.enumTypes.map fun e => (e.name, strings e.values)) : Value F).safe = true :=
    safe_fields.2 (List.forall_mem_map.2 fun e he => ⟨(henums e he).1, (strings_safe _).2 (henums e he).2⟩)
  rw [outputContractManifest, safe_fields]
  refine List.forall_mem_cons.2 ⟨⟨Text.encodable_txt _, Text.encodable_txt _⟩, List.forall_mem_cons.2
    ⟨⟨Text.encodable_txt _, rfl⟩, List.forall_mem_cons.2 ⟨⟨Text.encodable_txt _, rfl⟩, List.forall_mem_cons.2
      ⟨⟨Text.encodable_txt _, hdict⟩, List.forall_mem_singleton.2 ⟨Text.encodable_txt _, rootSchema_safe⟩⟩⟩⟩⟩

/-! ## Requests that can be sent -/

/-- The tokens of the packet can be encoded; the other texts of its constraints always can. -/
theorem constraintsObject_safe (packet : LLMContextPacket F) :
    (Value.dict (constraintsObject F (constraintsOf packet))).safe = true ↔ ∀ t ∈ tokens packet, t.encodable = true := by
  have hclasses : ∀ cs : List ExplorationCapabilityClass,
      (strings (cs.map ExplorationCapabilityClass.value) : Value F).safe = true := by
    intro cs
    rw [strings_safe, List.forall_mem_map]
    exact fun c _ => Named.encodable c
  have hkeys : ∀ k ∈ keys (constraintsObject F (constraintsOf packet)), k.encodable = true := by
    have hall : (constraintsKeys.all Text.encodable) = true := by decide +kernel
    intro k hk
    exact List.all_eq_true.1 hall k ((hasKeys_iff.1 (hasKeys_constraintsObject (constraintsOf packet)) k).1 hk)
  rw [Value.safe_dict, and_iff_right hkeys]
  simp only [constraintsObject, List.forall_mem_cons, hclasses, strings_safe, constraintsOf, mem_sortedSet]
  constructor
  · exact fun h => h.2.2.2.2.1
  · intro h
    exact ⟨trivial, rfl, rfl, rfl, h, trivial, fun t ht => h t (expansionTokens_subset ht), rfl,
      Named.encodable packet.taskDomain, rfl, rfl, List.forall_mem_nil _⟩

/-- A packet of a supported domain without a violation, whose texts can be encoded. -/
structure Sendable (packet : LLMContextPacket F) : Prop where
  supported : packet.taskDomain.supported = true
  valid : ∃ digest, packetDigest packet = .ok digest ∧ violations (contextPacketChecks packet digest) = []
  rendered : Ok (renderContextPacket packet)
  tokens : ∀ t ∈ tokens packet, t.encodable = true

/-- The request carries the constraints of the packet, and passes its check with them. -/
structure Carries (packet : LLMContextPacket F) (request : LLMModelRequest) (constraints : RequestConstraints) : Prop where
  built : packetRequestConstraints packet = .ok constraints
  rendered : renderRequestConstraints F constraints = .ok request.requestConstraintsJson
  parsed : parseRequestConstraints F request.requestConstraintsJson = .ok constraints
  validated : validateModelRequestContract F request = .ok constraints

/-- What is built of constraints that are normalized and can be rendered. -/
theorem buildModelRequestFromContext_eq {taskDomain : LLMTaskDomain} (contextJson : Text)
    (hdomain : value.taskDomain = taskDomain) (hsafe : (Value.dict (constraintsObject F value)).safe = true)
    (hnormal : buildRequestConstraints value.taskDomain value.evidenceTokens value.capabilityClasses
      value.expansionTargetTokens = .ok value) :
    ∃ request, buildModelRequestFromContext F taskDomain contextJson value = .ok request ∧
      renderRequestConstraints F value = .ok request.requestConstraintsJson ∧
      validateModelRequestContract F request = .ok value := by
  obtain ⟨schema, hschema⟩ : Ok (renderOutputContractManifest F) := ok_canonicalJson.2 outputContractManifest_safe
  obtain ⟨raw, hraw⟩ : Ok (renderRequestConstraints F value) := ok_canonicalJson.2 hsafe
  obtain ⟨contract, hcontract⟩ : Ok (outputContractDigest F) := ⟨_, domainDigest_eq_ok.2 ⟨outputContractManifest_safe, rfl⟩⟩
  obtain ⟨digest, hdigest⟩ : Ok (requestConstraintsDigest F value) := ⟨_, domainDigest_eq_ok.2 ⟨hsafe, rfl⟩⟩
  have hvalid : validateModelRequestContract F ⟨contextProtocolVersion, taskDomain, instructionContract, contextJson,
      schema, raw, contract, digest⟩ = .ok value :=
    validate_of_rendered hschema hcontract hraw hnormal hdomain hdigest
  refine ⟨_, ?_, hraw, hvalid⟩
  unfold buildModelRequestFromContext
  rw [hschema, hraw, hcontract, hdigest]
  simp only [orRaised_ok, ok_bind_ok, hvalid, hdomain, ne_eq, not_true_eq_false, if_false]
  rfl

theorem buildModelRequest_ok {packet : LLMContextPacket F} (h : Sendable packet) :
    ∃ request, buildModelRequest packet = .ok request ∧ Carries packet request (constraintsOf packet) := by
  obtain ⟨digest, hdigest, hviolations⟩ := h.valid
  obtain ⟨contextJson, hcontext⟩ := h.rendered
  have hbuilt := packetRequestConstraints_ok h.supported
  obtain ⟨request, hrequest, hrendered, hvalid⟩ := buildModelRequestFromContext_eq contextJson rfl
    ((constraintsObject_safe packet).2 h.tokens) (buildRequestConstraints_normal hbuilt)
  refine ⟨request, ?_, hbuilt, hrendered, parse_render hrendered, hvalid⟩
  unfold buildModelRequest
  rw [if_neg (not_not.2 h.supported), hdigest]
  simp only [orRaised_ok, ok_bind_ok, hviolations, hcontext, hbuilt, orCode_ok]
  exact hrequest

/-- Nothing else is built. -/
theorem sendable_of_built {packet : LLMContextPacket F} {request : LLMModelRequest}
    (h : buildModelRequest packet = .ok request) : Sendable packet := by
  unfold buildModelRequest at h
  by_cases hsupported : packet.taskDomain.supported = true
  · rw [if_neg (not_not.2 hsupported)] at h
    obtain ⟨digest, hdigest, h⟩ := bind_eq_ok.1 h
    rw [orRaised_eq_ok] at hdigest
    cases hviolations : violations (contextPacketChecks packet digest) with
    | cons code codes =>
      rw [hviolations] at h
      cases h
    | nil =>
      rw [hviolations] at h
      obtain ⟨contextJson, hcontext, h⟩ := bind_eq_ok.1 h
      obtain ⟨constraints, hconstraints, h⟩ := bind_eq_ok.1 h
      rw [orRaised_eq_ok] at hcontext
      rw [orCode_eq_ok, packetRequestConstraints_ok hsupported] at hconstraints
      cases hconstraints
      have hsame : (constraintsOf packet).taskDomain = packet.taskDomain := rfl
      unfold buildModelRequestFromContext at h
      dsimp only at h
      rw [if_neg (not_not.2 hsame)] at h
      obtain ⟨schema, -, h⟩ := bind_eq_ok.1 h
      obtain ⟨raw, hraw, -⟩ := bind_eq_ok.1 h
      rw [orRaised_eq_ok] at hraw
      exact ⟨hsupported, ⟨digest, hdigest, hviolations⟩, ⟨_, hcontext⟩,
        (constraintsObject_safe packet).1 (canonicalJson_eq_ok.1 hraw).1⟩
  · rw [if_pos hsupported] at h
    cases h

end

/-- The checker and the parser accept the same values and the same texts; a request is built for every
sendable packet and no other, and it carries the constraints of the packet and passes its own check. -/
theorem contracts_agree (F : Type) [SqliteFloat F] :
    (∀ decoded : Value F, validateObject canonicalOutputContract.root decoded = .ok () ↔ Ok (parseDecoded decoded)) ∧
    (∀ raw : Text, validateOutputContractStructure F raw canonicalOutputContract = .ok () ↔
      Ok (parseInterpretationResult F raw)) ∧
    ∀ packet : LLMContextPacket F, (Ok (buildModelRequest packet) ↔ Sendable packet) ∧
      ∀ request, buildModelRequest packet = .ok request → ∃ constraints, Carries packet request constraints := by
  refine ⟨root_agrees, parse_agrees, fun packet => ⟨⟨?_, fun h => ?_⟩, fun request hrequest => ?_⟩⟩
  · rintro ⟨request, hrequest⟩
    exact sendable_of_built hrequest
  · obtain ⟨request, hrequest, -⟩ := buildModelRequest_ok h
    exact ⟨request, hrequest⟩
  · obtain ⟨request', hrequest', hcarries⟩ := buildModelRequest_ok (sendable_of_built hrequest)
    cases hrequest.symm.trans hrequest'
    exact ⟨_, hcarries⟩

end Steward.Context
