import Steward.Context.Interpretation
import Steward.Py.StrictJson

/-!
# The output grammar

The wire contract of an interpretation result, twice: as a descriptor with a
structural checker over it, and as the parser that builds the result. The
checker passes exactly what the parser builds.
-/

namespace Steward.Context

open Py Sqlite

/-! ## Enumerations -/

instance : Named LLMTaskDomain where
  all := [.staticSnapshot, .staticPairComparison, .temporalSequence, .temporalWindow, .longitudinalTrend,
    .periodicity, .lifecycleState]
  name
    | .staticSnapshot => txt "STATIC_SNAPSHOT"
    | .staticPairComparison => txt "STATIC_PAIR_COMPARISON"
    | .temporalSequence => txt "TEMPORAL_SEQUENCE"
    | .temporalWindow => txt "TEMPORAL_WINDOW"
    | .longitudinalTrend => txt "LONGITUDINAL_TREND"
    | .periodicity => txt "PERIODICITY"
    | .lifecycleState => txt "LIFECYCLE_STATE"

instance : Named InterpretationStatus where
  all := [.completed, .partialResult, .needsMoreObservation, .insufficientContext, .unsupportedTask,
    .invalidModelOutput]
  name
    | .completed => txt "COMPLETED"
    | .partialResult => txt "PARTIAL"
    | .needsMoreObservation => txt "NEEDS_MORE_OBSERVATION"
    | .insufficientContext => txt "INSUFFICIENT_CONTEXT"
    | .unsupportedTask => txt "UNSUPPORTED_TASK"
    | .invalidModelOutput => txt "INVALID_MODEL_OUTPUT"

instance : Named SemanticClass where
  all := [.observation, .interpretation, .hypothesis, .exploration]
  name
    | .observation => txt "OBSERVATION"
    | .interpretation => txt "INTERPRETATION"
    | .hypothesis => txt "HYPOTHESIS"
    | .exploration => txt "EXPLORATION"

instance : Named ExplorationCapabilityClass where
  all := ExplorationCapabilityClass.members
  name := ExplorationCapabilityClass.value
  nodup := by simp [txt_inj, ExplorationCapabilityClass.members, ExplorationCapabilityClass.value]

/-! ## Descriptors -/

inductive WireType where
  | integer | string | object | array
  deriving DecidableEq, Repr

def WireType.name : WireType → Text
  | .integer => txt "integer"
  | .string => txt "string"
  | .object => txt "object"
  | .array => txt "array"

/-- `str | int` -/
inductive WireLiteral where
  | text (t : Text)
  | number (n : Int)
  deriving DecidableEq, Repr

/-- An enumeration class: its name and the values of its members. -/
structure WireEnum where
  name : Text
  values : List Text

def wireEnum (α : Type) [Named α] (name : String) : WireEnum := ⟨txt name, Named.all.map (Named.name (α := α))⟩

/-- What a `WireField` says of itself. -/
structure FieldRules where
  name : Text
  wireType : WireType
  nullable : Bool
  literal : Option WireLiteral
  enumType : Option WireEnum
  arrayItemWireType : Option WireType
  uniqueItems : Bool
  allowsEmpty : Bool

mutual
/-- One exact JSON object. -/
inductive WireObject where
  | mk (name : Text) (fields : List WireField) (additionalFieldsForbidden : Bool)
/-- A field: its rules, the object it holds, and the object each item of it holds. -/
inductive WireField where
  | mk (rules : FieldRules) (objectSchema arrayItemObject : Option WireObject)
end

def WireField.rules : WireField → FieldRules
  | .mk rules _ _ => rules

def WireField.name (field : WireField) : Text := field.rules.name

/-- `_field` with its defaults. -/
def plain (name : String) (wireType : WireType) : FieldRules :=
  ⟨txt name, wireType, false, none, none, none, false, true⟩

def stringField (name : String) : WireField := .mk (plain name .string) none none

def nullableField (name : String) : WireField := .mk { plain name .string with nullable := true } none none

def enumField (name : String) (enumType : WireEnum) : WireField :=
  .mk { plain name .string with enumType := some enumType } none none

def classField (c : SemanticClass) : WireField :=
  .mk { plain "semantic_class" .string with
    literal := some (.text (Named.name c))
    enumType := some (wireEnum SemanticClass "SemanticClass") } none none

/-- An array of tokens: `array_item_wire_type="string", unique_items=True`. -/
def usesField (name : String) : WireField :=
  .mk { plain name .array with arrayItemWireType := some .string, uniqueItems := true } none none

def stringsField (name : String) : WireField :=
  .mk { plain name .array with arrayItemWireType := some .string } none none

def itemsField (name : String) (item : WireObject) : WireField := .mk (plain name .array) none (some item)

/-- `_OBSERVATION` -/
def observationSchema : WireObject :=
  .mk (txt "ObservationItem") [classField .observation, stringField "statement", usesField "evidence_references"] true

/-- `_INTERPRETATION` -/
def interpretationSchema : WireObject :=
  .mk (txt "InterpretationItem") [classField .interpretation, stringField "statement",
    usesField "supporting_evidence_references", stringsField "qualifications"] true

/-- `_HYPOTHESIS` -/
def hypothesisSchema : WireObject :=
  .mk (txt "HypothesisItem") [classField .hypothesis, stringField "statement",
    usesField "supporting_evidence_references", stringsField "missing_information",
    nullableField "competing_explanation", nullableField "discriminating_observation"] true

/-- `_EXPLORATION` -/
def explorationSchema : WireObject :=
  .mk (txt "ExplorationItem") [classField .exploration, stringField "question", stringField "target",
    usesField "supporting_evidence_references", stringsField "missing_information", stringField "expected_value",
    enumField "capability_class" (wireEnum ExplorationCapabilityClass "ExplorationCapabilityClass")] true

/-- `_ROOT` -/
def rootSchema : WireObject :=
  .mk (txt "LLMInterpretationResult") [
    .mk { plain "protocol_version" .integer with literal := some (.number contextProtocolVersion) } none none,
    enumField "task_domain" (wireEnum LLMTaskDomain "LLMTaskDomain"),
    enumField "status" (wireEnum InterpretationStatus "InterpretationStatus"),
    stringField "summary",
    itemsField "observations" observationSchema,
    itemsField "interpretations" interpretationSchema,
    itemsField "hypotheses" hypothesisSchema,
    itemsField "explorations" explorationSchema,
    stringsField "unknowns",
    stringsField "limitations",
    usesField "evidence_references"] true

structure OutputContractDescriptor where
  contractId : Text
  contractVersion : Int
  root : WireObject
  duplicateObjectKeysForbidden : Bool
  enumTypes : List WireEnum

/-- `CANONICAL_OUTPUT_CONTRACT` -/
def canonicalOutputContract : OutputContractDescriptor where
  contractId := txt "local_steward.llm_interpretation_result"
  contractVersion := 1
  root := rootSchema
  duplicateObjectKeysForbidden := true
  enumTypes := [wireEnum LLMTaskDomain "LLMTaskDomain", wireEnum InterpretationStatus "InterpretationStatus",
    wireEnum SemanticClass "SemanticClass", wireEnum ExplorationCapabilityClass "ExplorationCapabilityClass"]

variable {F : Type}

/-! ## The manifest -/

def WireLiteral.data : WireLiteral → Value F
  | .text t => .str t
  | .number n => .int n

def strings (ts : List Text) : Value F := .list (ts.map .str)

/-- The part of `_field_manifest` before the objects. -/
def rulesManifest (rules : FieldRules) : List (Text × Value F) :=
  [(txt "name", .str rules.name), (txt "nullable", .bool rules.nullable), (txt "wire_type", .str rules.wireType.name)] ++
  (if rules.wireType = .array ∨ rules.wireType = .string then [(txt "allows_empty", .bool rules.allowsEmpty)] else []) ++
  (rules.literal.toList.map fun l => (txt "literal", l.data)) ++
  rules.enumType.toList.map fun e => (txt "enum", strings e.values)

mutual
/-- `_field_manifest` -/
def fieldManifest : WireField → Value F
  | .mk rules objectSchema arrayItemObject =>
    .dict (rulesManifest rules ++
      (match objectSchema with
      | some schema => [(txt "object", objectManifest schema)]
      | none => []) ++
      if rules.wireType = .array then
        [(txt "array_item", .dict ((rules.arrayItemWireType.toList.map fun t => (txt "wire_type", .str t.name)) ++
          match arrayItemObject with
          | some schema => [(txt "object", objectManifest schema)]
          | none => [])), (txt "unique_items", .bool rules.uniqueItems)]
      else [])
/-- `_object_manifest` -/
def objectManifest : WireObject → Value F
  | .mk _ fields additionalFieldsForbidden =>
    .dict [(txt "additional_fields_forbidden", .bool additionalFieldsForbidden),
      (txt "fields", .list (fieldsManifest fields)), (txt "required_fields", strings (fields.map WireField.name)),
      (txt "wire_type", .str (txt "object"))]
def fieldsManifest : List WireField → List (Value F)
  | [] => []
  | field :: fields => fieldManifest field :: fieldsManifest fields
end

attribute [local simp] fieldManifest objectManifest fieldsManifest

/-- `output_contract_manifest` -/
def outputContractManifest (descriptor : OutputContractDescriptor) : Value F :=
  .dict [(txt "contract_id", .str descriptor.contractId), (txt "contract_version", .int descriptor.contractVersion),
    (txt "duplicate_object_keys_forbidden", .bool descriptor.duplicateObjectKeysForbidden),
    (txt "enums", .dict (descriptor.enumTypes.map fun e => (e.name, strings e.values))),
    (txt "root", objectManifest descriptor.root)]

/-! ## The checker -/

/-- `_reject`; the error is the subtype of the failure. -/
def reject {α : Type} (failureSubtype : String) : Except Text α := .error (txt failureSubtype)

def WireLiteral.matches (l : WireLiteral) (v : Value F) : Bool :=
  match l, v with
  | .text t, .str s => s = t
  | .number n, .int m => m = n
  | _, _ => false

/-- The strings of a list. -/
def stringsOf (items : List (Value F)) : List Text :=
  items.filterMap fun
    | .str s => some s
    | _ => none

/-- The tests of a literal and of an enumeration, which end `_validate_field`. -/
def validateValue (v : Value F) (rules : FieldRules) : Except Text Unit := do
  if rules.literal.any fun l => !l.matches v then
    reject (if rules.enumType.isSome then "OUTPUT_ENUM_FAILURE" else "OUTPUT_CONTRACT_FAILURE")
  if rules.enumType.any fun e => !(match v with
    | .str s => s ∈ e.values
    | _ => false) then reject "OUTPUT_ENUM_FAILURE"

mutual
/-- `_validate_field`; only items that are strings are asked to be unique. -/
def validateField : WireField → Value F → Except Text Unit
  | .mk rules objectSchema arrayItemObject, v =>
    if v.isNone then
      if rules.nullable then .ok () else reject "OUTPUT_TYPE_FAILURE"
    else do
      match rules.wireType with
      | .integer => if ¬ v.isInt then reject "OUTPUT_TYPE_FAILURE"
      | .string =>
        match v with
        | .str s => if ¬ rules.allowsEmpty ∧ s = [] then reject "OUTPUT_CONTRACT_FAILURE"
        | _ => reject "OUTPUT_TYPE_FAILURE"
      | .object =>
        match objectSchema with
        | some schema => validateObject schema v
        | none => reject "OUTPUT_CONTRACT_FAILURE"
      | .array =>
        match v with
        | .list items => do
          items.forM fun item =>
            if rules.arrayItemWireType = some .string then
              if item.isStr then .ok () else reject "OUTPUT_REFERENCE_FAILURE"
            else match arrayItemObject with
              | some schema => validateObject schema item
              | none => reject "OUTPUT_CONTRACT_FAILURE"
          if rules.uniqueItems ∧ ¬ (stringsOf items).Nodup then reject "OUTPUT_REFERENCE_FAILURE"
          if ¬ rules.allowsEmpty ∧ items = [] then reject "OUTPUT_CONTRACT_FAILURE"
        | _ => reject "OUTPUT_TYPE_FAILURE"
      validateValue v rules
/-- `_validate_object` -/
def validateObject : WireObject → Value F → Except Text Unit
  | .mk _ fields additionalFieldsForbidden, v =>
    match v with
    | .dict members =>
      if additionalFieldsForbidden ∧ ¬ hasKeys (fields.map WireField.name) members then reject "OUTPUT_SHAPE_FAILURE"
      else validateFields fields members
    | _ => reject "OUTPUT_SHAPE_FAILURE"
/-- Its loop over the fields. -/
def validateFields : List WireField → List (Text × Value F) → Except Text Unit
  | [], _ => .ok ()
  | field :: fields, members => do
    match lookup members field.name with
    | some v => validateField field v
    | none => reject "OUTPUT_SHAPE_FAILURE"
    validateFields fields members
end

attribute [local simp] validateField validateObject validateFields

/-- Why a response is no result: its text is not JSON or repeats a key, or its structure is another. -/
inductive OutputFailure where
  | unreadable
  | structural (failureSubtype : Text)
  deriving DecidableEq, Repr

/-- `validate_output_contract_structure` -/
def validateOutputContractStructure (F : Type) [PyFloat F] (raw : Text) (descriptor : OutputContractDescriptor) :
    Except OutputFailure Unit :=
  match Json.strictLoads (F := F) raw with
  | none => .error .unreadable
  | some decoded => (validateObject descriptor.root decoded).mapError .structural

/-! ## The parser -/

/-- `_invalid`; the error is the code of the exception. -/
def parseInvalid {α : Type} : Except Text α := .error (txt "LLM_OUTPUT_PARSE_INVALID")

/-- `_object` -/
def parseObject (v : Value F) : Except Text (List (Text × Value F)) :=
  match v with
  | .dict members => .ok members
  | _ => parseInvalid

/-- `_array` -/
def parseArray (v : Value F) : Except Text (List (Value F)) :=
  match v with
  | .list items => .ok items
  | _ => parseInvalid

/-- `_string` -/
def parseString (v : Value F) : Except Text Text :=
  match v with
  | .str s => .ok s
  | _ => parseInvalid

/-- `_optional_string` -/
def parseOptionalString (v : Value F) : Except Text (Option Text) :=
  if v.isNone then .ok none else some <$> parseString v

/-- `_integer` -/
def parseInteger (v : Value F) : Except Text Int :=
  match v with
  | .int n => .ok n
  | _ => parseInvalid

/-- `_fields` -/
def parseFields (members : List (Text × Value F)) (expected : List String) : Except Text Unit :=
  if ¬ hasKeys (expected.map txt) members then parseInvalid else .ok ()

/-- `_enum` -/
def parseEnum (α : Type) [Named α] (v : Value F) : Except Text α := do
  match Named.ofName? (← parseString v) with
  | some a => .ok a
  | none => parseInvalid

/-- `_uses` -/
def parseUses (v : Value F) : Except Text (List Text) := do
  let items ← parseArray v
  let tokens ← items.mapM parseString
  if ¬ tokens.Nodup then parseInvalid else .ok tokens

/-- `_strings` -/
def parseStrings (v : Value F) : Except Text (List Text) := do
  let items ← parseArray v
  items.mapM parseString

/-- `item[name]`; the names are tested before. -/
def member (members : List (Text × Value F)) (name : String) : Except Text (Value F) :=
  match lookup members (txt name) with
  | some v => .ok v
  | none => parseInvalid

/-- The semantic class of an item has to be the expected one. -/
def parseClass (members : List (Text × Value F)) (expected : SemanticClass) : Except Text Unit := do
  let c ← parseEnum SemanticClass (← member members "semantic_class")
  if c ≠ expected then parseInvalid else .ok ()

/-- `_observation` -/
def parseObservation (v : Value F) : Except Text ObservationItem := do
  let item ← parseObject v
  parseFields item ["semantic_class", "statement", "evidence_references"]
  parseClass item .observation
  let statement ← parseString (← member item "statement")
  let evidenceReferences ← parseUses (← member item "evidence_references")
  return ⟨.observation, statement, evidenceReferences⟩

/-- `_interpretation` -/
def parseInterpretation (v : Value F) : Except Text InterpretationItem := do
  let item ← parseObject v
  parseFields item ["semantic_class", "statement", "supporting_evidence_references", "qualifications"]
  parseClass item .interpretation
  let statement ← parseString (← member item "statement")
  let supportingEvidenceReferences ← parseUses (← member item "supporting_evidence_references")
  let qualifications ← parseStrings (← member item "qualifications")
  return ⟨.interpretation, statement, supportingEvidenceReferences, qualifications⟩

/-- `_hypothesis` -/
def parseHypothesis (v : Value F) : Except Text HypothesisItem := do
  let item ← parseObject v
  parseFields item ["semantic_class", "statement", "supporting_evidence_references", "missing_information",
    "competing_explanation", "discriminating_observation"]
  parseClass item .hypothesis
  let statement ← parseString (← member item "statement")
  let supportingEvidenceReferences ← parseUses (← member item "supporting_evidence_references")
  let missingInformation ← parseStrings (← member item "missing_information")
  let competingExplanation ← parseOptionalString (← member item "competing_explanation")
  let discriminatingObservation ← parseOptionalString (← member item "discriminating_observation")
  return ⟨.hypothesis, statement, supportingEvidenceReferences, missingInformation, competingExplanation,
    discriminatingObservation⟩

/-- `_exploration` -/
def parseExploration (v : Value F) : Except Text ExplorationItem := do
  let item ← parseObject v
  parseFields item ["semantic_class", "question", "target", "supporting_evidence_references", "missing_information",
    "expected_value", "capability_class"]
  parseClass item .exploration
  let question ← parseString (← member item "question")
  let target ← parseString (← member item "target")
  let supportingEvidenceReferences ← parseUses (← member item "supporting_evidence_references")
  let missingInformation ← parseStrings (← member item "missing_information")
  let expectedValue ← parseString (← member item "expected_value")
  let capabilityClass ← parseEnum ExplorationCapabilityClass (← member item "capability_class")
  return ⟨.exploration, question, target, supportingEvidenceReferences, missingInformation, expectedValue,
    capabilityClass⟩

/-- The items of an array. -/
def parseItems {α : Type} (parse : Value F → Except Text α) (v : Value F) : Except Text (List α) := do
  let items ← parseArray v
  items.mapM parse

/-- What `parse_interpretation_result` builds of the decoded text. -/
def parseDecoded (decoded : Value F) : Except Text LLMInterpretationResult := do
  let value ← parseObject decoded
  parseFields value ["protocol_version", "task_domain", "status", "summary", "observations", "interpretations",
    "hypotheses", "explorations", "unknowns", "limitations", "evidence_references"]
  let protocolVersion ← parseInteger (← member value "protocol_version")
  if protocolVersion ≠ contextProtocolVersion then parseInvalid
  let taskDomain ← parseEnum LLMTaskDomain (← member value "task_domain")
  let status ← parseEnum InterpretationStatus (← member value "status")
  let summary ← parseString (← member value "summary")
  let observations ← parseItems parseObservation (← member value "observations")
  let interpretations ← parseItems parseInterpretation (← member value "interpretations")
  let hypotheses ← parseItems parseHypothesis (← member value "hypotheses")
  let explorations ← parseItems parseExploration (← member value "explorations")
  let unknowns ← parseStrings (← member value "unknowns")
  let limitations ← parseStrings (← member value "limitations")
  let evidenceReferences ← parseUses (← member value "evidence_references")
  return ⟨contextProtocolVersion, taskDomain, status, summary, observations, interpretations, hypotheses, explorations,
    unknowns, limitations, evidenceReferences⟩

/-- `LLMOutputParseError`, with what the checker reported if it was the checker that refused. -/
structure ParseError where
  code : Text
  checked : Option OutputFailure
  deriving DecidableEq, Repr

/-- `parse_interpretation_result` -/
def parseInterpretationResult (F : Type) [PyFloat F] (raw : Text) : Except ParseError LLMInterpretationResult := do
  (validateOutputContractStructure F raw canonicalOutputContract).mapError fun failure =>
    ⟨txt "LLM_OUTPUT_PARSE_INVALID", some failure⟩
  match Json.strictLoads (F := F) raw with
  | none => .error ⟨txt "LLM_OUTPUT_PARSE_INVALID", none⟩
  | some decoded => (parseDecoded decoded).mapError fun code => ⟨code, none⟩

/-! ## The fields agree -/

section
variable {v : Value F} {name : String}

theorem ok_parseString : Ok (parseString v) ↔ v.isStr = true := by
  cases v <;> simp [parseString, parseInvalid, Value.isStr]

theorem validateField_string : validateField (stringField name) v = .ok () ↔ Ok (parseString v) := by
  rw [ok_parseString]
  cases v <;> simp [stringField, plain, validateField, validateValue, reject, Value.isNone, Value.isStr]

theorem validateField_nullable : validateField (nullableField name) v = .ok () ↔ Ok (parseOptionalString v) := by
  cases v <;> simp [nullableField, plain, validateField, validateValue, reject, Value.isNone, parseOptionalString,
    parseString, parseInvalid]

theorem ok_parseEnum {α : Type} [Named α] : Ok (parseEnum α v) ↔ ∃ a : α, v = .str (Named.name a) := by
  cases v with
  | str s =>
    rw [parseEnum, parseString, ok_bind_ok]
    cases h : Named.ofName? (α := α) s with
    | none =>
      refine iff_of_false (not_ok_error _) ?_
      rintro ⟨a, ha⟩
      exact Named.ofName?_eq_none.1 h a (Value.str.inj ha).symm
    | some a => exact iff_of_true (ok_ok a) ⟨a, by rw [Named.ofName?_eq_some.1 h]⟩
  | _ => exact iff_of_false (not_ok_error _) (by rintro ⟨a, ⟨⟩⟩)

theorem mem_wireEnum {α : Type} [Named α] {s : Text} : s ∈ (wireEnum α name).values ↔ ∃ a : α, s = Named.name a := by
  rw [wireEnum, List.mem_map]
  exact ⟨fun ⟨a, _, h⟩ => ⟨a, h.symm⟩, fun ⟨a, h⟩ => ⟨a, Named.complete a, h.symm⟩⟩

theorem validateField_enum {α : Type} [Named α] {enumName : String} :
    validateField (enumField name (wireEnum α enumName)) v = .ok () ↔ Ok (parseEnum α v) := by
  rw [ok_parseEnum]
  cases v with
  | str s =>
    simp only [enumField, plain, validateField, validateValue, reject, Value.isNone]
    by_cases hs : ∃ a : α, s = Named.name a
    · simp [mem_wireEnum.2 hs, hs]
    · simp [mem_wireEnum, not_exists.1 hs]
  | _ => simp [enumField, plain, validateField, reject, Value.isNone]

theorem validateField_class {c : SemanticClass} :
    validateField (classField c) v = .ok () ↔ v = .str (Named.name c) := by
  cases v with
  | str s =>
    simp only [classField, plain, validateField, validateValue, reject, Value.isNone]
    by_cases hs : s = Named.name c
    · subst hs
      have hmem : Named.name c ∈ (wireEnum SemanticClass "SemanticClass").values := mem_wireEnum.2 ⟨c, rfl⟩
      simp [WireLiteral.matches, hmem]
    · simp [WireLiteral.matches, hs]
  | _ => simp [classField, plain, validateField, reject, Value.isNone]

theorem mapM_parseString {items : List (Value F)} {tokens : List Text} :
    items.mapM parseString = .ok tokens ↔ (∀ item ∈ items, item.isStr = true) ∧ tokens = stringsOf items := by
  induction items generalizing tokens with
  | nil => exact ⟨fun h => by cases h; exact ⟨List.forall_mem_nil _, rfl⟩, fun h => by rw [h.2]; rfl⟩
  | cons item items ih =>
    rw [List.mapM_cons, bind_eq_ok, List.forall_mem_cons]
    simp only [bind_eq_ok, ih]
    cases item with
    | str s =>
      constructor
      · rintro ⟨s', hs', tokens', ⟨hall, rfl⟩, h⟩
        cases hs'
        cases h
        exact ⟨⟨rfl, hall⟩, rfl⟩
      · rintro ⟨⟨-, hall⟩, rfl⟩
        exact ⟨s, rfl, _, ⟨hall, rfl⟩, rfl⟩
    | _ => exact iff_of_false (by rintro ⟨_, ⟨⟩, _⟩) (by rintro ⟨⟨⟨⟩, _⟩, _⟩)

/-- An array of strings, of distinct ones if that is asked. -/
theorem validateField_array {unique : Bool} :
    validateField (.mk { plain name .array with arrayItemWireType := some .string, uniqueItems := unique } none none) v =
      .ok () ↔ ∃ items, v = .list items ∧ (∀ item ∈ items, item.isStr = true) ∧
        (unique = true → (stringsOf items).Nodup) := by
  cases v with
  | list items =>
    have hloop : (items.forM fun item => if item.isStr = true then Except.ok () else
        (Except.error (txt "OUTPUT_REFERENCE_FAILURE") : Except Text Unit)) = .ok () ↔ ∀ item ∈ items, item.isStr = true := by
      rw [forM_eq_ok]
      refine forall₂_congr fun item _ => ?_
      split_ifs with h <;> simp [h]
    simp only [plain, validateField, reject, Value.isNone, Bool.false_eq_true, if_false, if_true, bind_eq_ok]
    constructor
    · rintro ⟨⟨⟩, hitems, hrest⟩
      refine ⟨items, rfl, hloop.1 hitems, fun hunique => ?_⟩
      by_contra hnodup
      rw [if_pos ⟨hunique, hnodup⟩] at hrest
      cases hrest
    · rintro ⟨items', h, hall, hnodup⟩
      cases h
      refine ⟨(), hloop.2 hall, ?_⟩
      rw [if_neg fun h => h.2 (hnodup h.1), if_neg fun h => h.1 trivial]
      rfl
  | _ => simp [plain, validateField, reject, Value.isNone]

theorem validateField_uses : validateField (usesField name) v = .ok () ↔ Ok (parseUses v) := by
  rw [usesField, validateField_array]
  cases v with
  | list items =>
    rw [parseUses, parseArray, ok_bind_ok, ok_bind]
    simp only [mapM_parseString]
    constructor
    · rintro ⟨items', h, hall, hnodup⟩
      cases h
      exact ⟨_, ⟨hall, rfl⟩, by rw [if_neg (not_not.2 (hnodup trivial))]; exact ok_ok _⟩
    · rintro ⟨tokens, ⟨hall, rfl⟩, hok⟩
      refine ⟨items, rfl, hall, fun _ => ?_⟩
      by_contra hnodup
      rw [if_pos hnodup] at hok
      exact not_ok_error _ hok
  | _ => exact iff_of_false (by rintro ⟨_, ⟨⟩, _⟩) (not_ok_error _)

theorem validateField_strings : validateField (stringsField name) v = .ok () ↔ Ok (parseStrings v) := by
  have harray : validateField (stringsField name) v = .ok () ↔ ∃ items, v = .list items ∧
      (∀ item ∈ items, item.isStr = true) ∧ (false = true → (stringsOf items).Nodup) := validateField_array
  rw [harray]
  cases v with
  | list items =>
    rw [parseStrings, parseArray, ok_bind_ok]
    constructor
    · rintro ⟨items', h, hall, -⟩
      cases h
      exact ⟨_, mapM_parseString.2 ⟨hall, rfl⟩⟩
    · rintro ⟨tokens, h⟩
      exact ⟨items, rfl, (mapM_parseString.1 h).1, by rintro ⟨⟩⟩
  | _ => exact iff_of_false (by rintro ⟨_, ⟨⟩, _⟩) (not_ok_error _)

theorem validateField_items {α : Type} {schema : WireObject} {parse : Value F → Except Text α}
    (h : ∀ item : Value F, validateObject schema item = .ok () ↔ Ok (parse item)) :
    validateField (itemsField name schema) v = .ok () ↔ Ok (parseItems parse v) := by
  cases v with
  | list items =>
    rw [parseItems, parseArray, ok_bind_ok, ok_mapM]
    have hloop : (items.forM fun item => validateObject schema item) = .ok () ↔ ∀ item ∈ items, Ok (parse item) := by
      rw [forM_eq_ok]
      exact forall₂_congr fun item _ => h item
    simp only [itemsField, plain, validateField, reject, Value.isNone, Bool.false_eq_true, if_false, reduceCtorEq,
      bind_eq_ok]
    constructor
    · rintro ⟨⟨⟩, hitems, -⟩
      exact hloop.1 hitems
    · intro hitems
      refine ⟨(), hloop.2 hitems, ?_⟩
      rw [if_neg fun h => h.1, if_neg fun h => h.1 trivial]
      rfl
  | _ => simp [itemsField, plain, validateField, reject, Value.isNone, parseItems, parseArray, parseInvalid]

/-- The version of the protocol. -/
theorem validateField_version {version : Int} :
    validateField (.mk { plain name .integer with literal := some (.number version) } none none) v = .ok () ↔
      v = .int version := by
  cases v with
  | int n =>
    by_cases hn : n = version <;>
      simp [plain, validateField, validateValue, reject, Value.isNone, Value.isInt, WireLiteral.matches, hn]
  | _ => simp [plain, validateField, reject, Value.isNone, Value.isInt]

end

/-! ## The objects agree -/

section
variable {v : Value F} {members : List (Text × Value F)}

/-- A member that a parser takes. -/
def MemberOk {α : Type} (members : List (Text × Value F)) (name : String) (parse : Value F → Except Text α) : Prop :=
  ∃ w, lookup members (txt name) = some w ∧ Ok (parse w)

theorem ok_member {α β : Type} {name : String} {parse : Value F → Except Text α} {rest : α → Except Text β} {p : Prop}
    (h : ∀ a, Ok (rest a) ↔ p) :
    Ok (member members name >>= fun w => parse w >>= rest) ↔ MemberOk members name parse ∧ p := by
  unfold member MemberOk
  cases lookup members (txt name) with
  | none => exact iff_of_false (not_ok_error _) (by rintro ⟨⟨_, ⟨⟩, _⟩, _⟩)
  | some w =>
    rw [ok_bind_ok, ok_bind_const h]
    simp

theorem validateFields_eq_ok {fields : List WireField} :
    validateFields fields members = .ok () ↔
      ∀ field ∈ fields, ∃ w, lookup members field.name = some w ∧ validateField field w = .ok () := by
  induction fields with
  | nil => exact iff_of_true rfl (List.forall_mem_nil _)
  | cons field fields ih =>
    rw [validateFields, List.forall_mem_cons, ← ih]
    cases lookup members field.name with
    | none => exact iff_of_false (by rintro ⟨⟩) (by rintro ⟨⟨_, ⟨⟩, _⟩, _⟩)
    | some w =>
      dsimp only
      rw [bind_eq_ok]
      constructor
      · rintro ⟨⟨⟩, hfield, hrest⟩
        exact ⟨⟨w, rfl, hfield⟩, hrest⟩
      · rintro ⟨⟨w', h, hfield⟩, hrest⟩
        cases h
        exact ⟨(), hfield, hrest⟩

theorem validateObject_eq_ok {name : Text} {fields : List WireField} :
    validateObject (.mk name fields true) v = .ok () ↔ ∃ members, v = .dict members ∧
      hasKeys (fields.map WireField.name) members = true ∧
      ∀ field ∈ fields, ∃ w, lookup members field.name = some w ∧ validateField field w = .ok () := by
  cases v with
  | dict members =>
    rw [validateObject]
    split_ifs with hkeys
    · refine iff_of_false (by rintro ⟨⟩) ?_
      rintro ⟨members', h, hhas, -⟩
      cases h
      exact hkeys.2 hhas
    · rw [validateFields_eq_ok]
      constructor
      · intro h
        exact ⟨members, rfl, by simpa using hkeys, h⟩
      · rintro ⟨members', h, -, hall⟩
        cases h
        exact hall
  | _ => exact iff_of_false (by rintro ⟨⟩) (by rintro ⟨_, ⟨⟩, _⟩)

theorem ok_parseFields {β : Type} {names : List String} {rest : Except Text β} :
    Ok (parseFields members names >>= fun _ => rest) ↔ hasKeys (names.map txt) members = true ∧ Ok rest := by
  unfold parseFields
  by_cases h : hasKeys (names.map txt) members = true
  · rw [if_neg (not_not.2 h), ok_bind_ok, and_iff_right h]
  · rw [if_pos h]
    exact iff_of_false (not_ok_error _) fun hk => h hk.1

/-- The class of an item is the expected one. -/
def ClassOk (members : List (Text × Value F)) (c : SemanticClass) : Prop :=
  lookup members (txt "semantic_class") = some (.str (Named.name c))

theorem ok_parseClass {β : Type} {c : SemanticClass} {rest : Except Text β} :
    Ok (parseClass members c >>= fun _ => rest) ↔ ClassOk members c ∧ Ok rest := by
  rw [ok_bind_const fun _ => Iff.rfl]
  refine and_congr_left fun _ => ?_
  unfold parseClass member ClassOk
  cases lookup members (txt "semantic_class") with
  | none => exact iff_of_false (not_ok_error _) (by rintro ⟨⟩)
  | some w =>
    rw [ok_bind_ok, ok_bind, Option.some.injEq]
    constructor
    · rintro ⟨c', hc', hok⟩
      by_cases heq : c' = c
      · obtain ⟨a, rfl⟩ := ok_parseEnum.1 ⟨c', hc'⟩
        rw [parseEnum, parseString, ok_bind_ok, Named.ofName?_name] at hc'
        cases hc'
        rw [heq]
      · rw [if_pos heq] at hok
        exact absurd hok (not_ok_error _)
    · rintro rfl
      refine ⟨c, by rw [parseEnum, parseString, ok_bind_ok, Named.ofName?_name], ?_⟩
      rw [if_neg (not_not.2 rfl)]
      exact ok_ok _

theorem fieldOk_iff {α : Type} {field : WireField} {name : String} {parse : Value F → Except Text α}
    (hname : field.name = txt name) (h : ∀ w : Value F, validateField field w = .ok () ↔ Ok (parse w)) :
    (∃ w, lookup members field.name = some w ∧ validateField field w = .ok ()) ↔ MemberOk members name parse := by
  rw [hname]
  exact exists_congr fun w => and_congr_right fun _ => h w

theorem stringOk_iff {name : String} : (∃ w, lookup members (stringField name).name = some w ∧
    validateField (stringField name) w = .ok ()) ↔ MemberOk members name parseString :=
  fieldOk_iff rfl fun _ => validateField_string

theorem nullableOk_iff {name : String} : (∃ w, lookup members (nullableField name).name = some w ∧
    validateField (nullableField name) w = .ok ()) ↔ MemberOk members name parseOptionalString :=
  fieldOk_iff rfl fun _ => validateField_nullable

theorem usesOk_iff {name : String} : (∃ w, lookup members (usesField name).name = some w ∧
    validateField (usesField name) w = .ok ()) ↔ MemberOk members name parseUses :=
  fieldOk_iff rfl fun _ => validateField_uses

theorem stringsOk_iff {name : String} : (∃ w, lookup members (stringsField name).name = some w ∧
    validateField (stringsField name) w = .ok ()) ↔ MemberOk members name parseStrings :=
  fieldOk_iff rfl fun _ => validateField_strings

theorem enumOk_iff {α : Type} [Named α] {name enumName : String} :
    (∃ w, lookup members (enumField name (wireEnum α enumName)).name = some w ∧
      validateField (enumField name (wireEnum α enumName)) w = .ok ()) ↔ MemberOk members name (parseEnum α) :=
  fieldOk_iff rfl fun _ => validateField_enum

theorem classOk_iff {c : SemanticClass} : (∃ w, lookup members (classField c).name = some w ∧
    validateField (classField c) w = .ok ()) ↔ ClassOk members c := by
  simp only [validateField_class]
  constructor
  · rintro ⟨w, hw, rfl⟩
    exact hw
  · exact fun h => ⟨_, h, rfl⟩

theorem itemsOk_iff {α : Type} {name : String} {schema : WireObject} {parse : Value F → Except Text α}
    (h : ∀ item : Value F, validateObject schema item = .ok () ↔ Ok (parse item)) :
    (∃ w, lookup members (itemsField name schema).name = some w ∧ validateField (itemsField name schema) w = .ok ()) ↔
      MemberOk members name (parseItems parse) :=
  fieldOk_iff rfl fun _ => validateField_items h

/-- An object of the checker and the parser of it agree when they agree on the members. -/
theorem object_agrees {α : Type} {name : Text} {fields : List WireField} {build : List (Text × Value F) → Except Text α}
    {names : List String} (hnames : fields.map WireField.name = names.map txt)
    (h : ∀ members : List (Text × Value F), Ok (build members) ↔ ∀ field ∈ fields, ∃ w, lookup members field.name = some w ∧
      validateField field w = .ok ()) (v : Value F) :
    validateObject (.mk name fields true) v = .ok () ↔
      Ok (parseObject v >>= fun item => parseFields item names >>= fun _ => build item) := by
  rw [validateObject_eq_ok, hnames]
  cases v with
  | dict members =>
    rw [parseObject, ok_bind_ok, ok_parseFields, h]
    constructor
    · rintro ⟨members', heq, hall⟩
      cases heq
      exact hall
    · exact fun hall => ⟨members, rfl, hall⟩
  | _ => exact iff_of_false (by rintro ⟨_, ⟨⟩, _⟩) (not_ok_error _)

theorem observation_agrees (v : Value F) : validateObject observationSchema v = .ok () ↔ Ok (parseObservation v) := by
  refine object_agrees rfl (fun members => ?_) v
  simp only [List.forall_mem_cons, List.not_mem_nil, false_imp_iff, implies_true, classOk_iff, stringOk_iff, usesOk_iff]
  rw [ok_parseClass]
  exact and_congr_right fun _ => ok_member fun _ => ok_member fun _ => iff_true_intro (ok_pure _)

theorem interpretation_agrees (v : Value F) :
    validateObject interpretationSchema v = .ok () ↔ Ok (parseInterpretation v) := by
  refine object_agrees rfl (fun members => ?_) v
  simp only [List.forall_mem_cons, List.not_mem_nil, false_imp_iff, implies_true, classOk_iff, stringOk_iff, usesOk_iff,
    stringsOk_iff]
  rw [ok_parseClass]
  exact and_congr_right fun _ => ok_member fun _ => ok_member fun _ => ok_member fun _ => iff_true_intro (ok_pure _)

theorem hypothesis_agrees (v : Value F) : validateObject hypothesisSchema v = .ok () ↔ Ok (parseHypothesis v) := by
  refine object_agrees rfl (fun members => ?_) v
  simp only [List.forall_mem_cons, List.not_mem_nil, false_imp_iff, implies_true, classOk_iff, stringOk_iff, usesOk_iff,
    stringsOk_iff, nullableOk_iff]
  rw [ok_parseClass]
  exact and_congr_right fun _ => ok_member fun _ => ok_member fun _ => ok_member fun _ => ok_member fun _ =>
    ok_member fun _ => iff_true_intro (ok_pure _)

theorem exploration_agrees (v : Value F) : validateObject explorationSchema v = .ok () ↔ Ok (parseExploration v) := by
  refine object_agrees rfl (fun members => ?_) v
  simp only [List.forall_mem_cons, List.not_mem_nil, false_imp_iff, implies_true, classOk_iff, stringOk_iff, usesOk_iff,
    stringsOk_iff, enumOk_iff]
  rw [ok_parseClass]
  exact and_congr_right fun _ => ok_member fun _ => ok_member fun _ => ok_member fun _ => ok_member fun _ =>
    ok_member fun _ => ok_member fun _ => iff_true_intro (ok_pure _)

/-- The version of the protocol is the one this contract is for. -/
def VersionOk (members : List (Text × Value F)) : Prop :=
  lookup members (txt "protocol_version") = some (.int contextProtocolVersion)

theorem ok_parseVersion {β : Type} {rest : Except Text β} :
    Ok (member members "protocol_version" >>= fun w => parseInteger w >>= fun version =>
      if version ≠ contextProtocolVersion then parseInvalid >>= fun (_ : PUnit) => rest else rest) ↔
      VersionOk members ∧ Ok rest := by
  unfold member VersionOk
  cases lookup members (txt "protocol_version") with
  | none => exact iff_of_false (not_ok_error _) (by rintro ⟨⟨⟩, _⟩)
  | some w =>
    rw [ok_bind_ok, Option.some.injEq]
    cases w with
    | int n =>
      rw [parseInteger, ok_bind_ok, Value.int.injEq]
      by_cases h : n = contextProtocolVersion
      · rw [if_neg (not_not.2 h), and_iff_right h]
      · rw [if_pos h]
        exact iff_of_false (not_ok_error _) fun hk => h hk.1
    | _ => exact iff_of_false (not_ok_error _) (by rintro ⟨⟨⟩, _⟩)

/-- The checker passes a decoded value exactly when the parser builds a result of it. -/
theorem root_agrees (v : Value F) : validateObject rootSchema v = .ok () ↔ Ok (parseDecoded v) := by
  refine object_agrees rfl (fun members => ?_) v
  have hversion : (∃ w, lookup members (WireField.mk { plain "protocol_version" .integer with
      literal := some (.number contextProtocolVersion) } none none).name = some w ∧
      validateField (.mk { plain "protocol_version" .integer with
        literal := some (.number contextProtocolVersion) } none none) w = .ok ()) ↔ VersionOk members := by
    simp only [validateField_version]
    constructor
    · rintro ⟨w, hw, rfl⟩
      exact hw
    · exact fun h => ⟨_, h, rfl⟩
  simp only [List.forall_mem_cons, List.not_mem_nil, false_imp_iff, implies_true, hversion, enumOk_iff, stringOk_iff,
    itemsOk_iff observation_agrees, itemsOk_iff interpretation_agrees, itemsOk_iff hypothesis_agrees,
    itemsOk_iff exploration_agrees, stringsOk_iff, usesOk_iff]
  refine ok_parseVersion.trans (and_congr_right fun _ => ?_)
  exact ok_member fun _ => ok_member fun _ => ok_member fun _ => ok_member fun _ => ok_member fun _ => ok_member fun _ =>
    ok_member fun _ => ok_member fun _ => ok_member fun _ => ok_member fun _ => iff_true_intro (ok_pure _)

end

/-- A text passes the checker exactly when it parses. -/
theorem parse_agrees [PyFloat F] (raw : Text) :
    validateOutputContractStructure F raw canonicalOutputContract = .ok () ↔ Ok (parseInterpretationResult F raw) := by
  unfold parseInterpretationResult validateOutputContractStructure
  cases Json.strictLoads (F := F) raw with
  | none => exact iff_of_false (by rintro ⟨⟩) (not_ok_error _)
  | some decoded =>
    have hroot : validateObject canonicalOutputContract.root decoded = .ok () ↔ Ok (parseDecoded decoded) :=
      root_agrees decoded
    dsimp only
    cases hcheck : validateObject canonicalOutputContract.root decoded with
    | error e => exact iff_of_false (by rintro ⟨⟩) (not_ok_error _)
    | ok u =>
      obtain ⟨result, hresult⟩ := hroot.1 hcheck
      rw [hresult]
      exact iff_of_true rfl (ok_ok result)

end Steward.Context
