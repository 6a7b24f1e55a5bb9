import Steward.Evidence.Canonical
import Steward.Py.Named
import Steward.Py.Path

/-!
# Route requests

Requests of `agent_routing`, their validation, their identities, and the closed
decision `route_steward_operation` takes on them.
-/

namespace Steward

open Py Sqlite

/-! ## Models -/

inductive RouteDecision where
  | core
  | context
  | clarify
  | unsupported
  deriving DecidableEq, Repr

def RouteDecision.text : RouteDecision → Text
  | .core => txt "CORE"
  | .context => txt "CONTEXT"
  | .clarify => txt "CLARIFY"
  | .unsupported => txt "UNSUPPORTED"

instance : Named RouteDecision where
  all := [.core, .context, .clarify, .unsupported]
  name := RouteDecision.text
  nodup := by simp [txt_inj, RouteDecision.text]

inductive OperationKind where
  | configurationOrHealth
  | verifiedSnapshotInventory
  | exactSnapshotInspection
  | exactHistoricalEntryResolution
  | typedHistoricalFailure
  | historicalCurrentTruthBoundary
  | minimalResumableHandoff
  | snapshotLifecycle
  | boundedChangeReview
  | confirmedDocumentInspection
  | boundedStructuralDiagnostic
  | orderedHistoricalChangeExplanation
  deriving DecidableEq, Repr

def OperationKind.text : OperationKind → Text
  | .configurationOrHealth => txt "CONFIGURATION_OR_HEALTH"
  | .verifiedSnapshotInventory => txt "VERIFIED_SNAPSHOT_INVENTORY"
  | .exactSnapshotInspection => txt "EXACT_SNAPSHOT_INSPECTION"
  | .exactHistoricalEntryResolution => txt "EXACT_HISTORICAL_ENTRY_RESOLUTION"
  | .typedHistoricalFailure => txt "TYPED_HISTORICAL_FAILURE"
  | .historicalCurrentTruthBoundary => txt "HISTORICAL_CURRENT_TRUTH_BOUNDARY"
  | .minimalResumableHandoff => txt "MINIMAL_RESUMABLE_HANDOFF"
  | .snapshotLifecycle => txt "SNAPSHOT_LIFECYCLE"
  | .boundedChangeReview => txt "BOUNDED_CHANGE_REVIEW"
  | .confirmedDocumentInspection => txt "CONFIRMED_DOCUMENT_INSPECTION"
  | .boundedStructuralDiagnostic => txt "BOUNDED_STRUCTURAL_DIAGNOSTIC"
  | .orderedHistoricalChangeExplanation => txt "ORDERED_HISTORICAL_CHANGE_EXPLANATION"

instance : Named OperationKind where
  all := [.configurationOrHealth, .verifiedSnapshotInventory, .exactSnapshotInspection,
    .exactHistoricalEntryResolution, .typedHistoricalFailure, .historicalCurrentTruthBoundary,
    .minimalResumableHandoff, .snapshotLifecycle, .boundedChangeReview, .confirmedDocumentInspection,
    .boundedStructuralDiagnostic, .orderedHistoricalChangeExplanation]
  name := OperationKind.text
  nodup := by simp [txt_inj, OperationKind.text]

structure RouteBounds where
  limit : Int
  offset : Int := 0
  deriving DecidableEq

structure StewardRouteRequest where
  operationKind : Text
  orderedSnapshotIds : List Text
  scopeId : Option Text
  pathOrPrefix : Option Text
  bounds : Option RouteBounds
  deriving DecidableEq

structure StewardRouteGrant where
  schemaVersion : Int
  grantId : Text
  operationKind : OperationKind
  orderedSnapshotIds : List Text
  scopeId : Text
  pathOrPrefix : Option Text
  bounds : RouteBounds
  requestDigest : Text
  reusable : Bool
  deriving DecidableEq

structure StewardRouteOutcome where
  schemaName : Text
  schemaVersion : Int
  decision : RouteDecision
  operationKind : Text
  requestDigest : Text
  missingFields : List Text
  grant : Option StewardRouteGrant
  deriving DecidableEq

def routeSchemaName : Text := txt "local_steward.agent_route_outcome"

def routeSchemaVersion : Int := 1

def maxRouteOperationLength : Nat := 96

def maxRouteScopeLength : Nat := 256

def maxRoutePathLength : Nat := 4096

def maxRouteLimit : Int := 64

def maxRouteOffset : Int := 1000000

/-! ## Validation -/

def requestInvalid {α : Type} : Result α := .error (.steward .agentRoutingRequestError)

def isUpper (c : CodePoint) : Bool := 65 ≤ c.val && c.val ≤ 90

/-- `^[A-Z][A-Z0-9_]*$` -/
def operationPattern : Text → Bool
  | [] => false
  | c :: s => isUpper c && s.all fun c => isUpper c || Text.isDigit c || c = ch '_'

/-- The text of a UUID as `str` writes it: hexadecimal digits in groups of 8, 4, 4, 4 and 12. -/
def uuidPattern (t : Text) : Bool :=
  t.length = 36 && t.zipIdx.all fun x => if x.2 ∈ [8, 13, 18, 23] then x.1 = ch '-' else isHexDigit x.1

/-- `_canonical_uuid`: `str(UUID(value)) == value` -/
def canonicalUuid (value : Text) : Bool := uuidPattern value

/-- `value.encode("utf-8")` -/
def encodeStrict (value : Text) : Result (List Byte) :=
  match Text.encode value with
  | some bytes => .ok bytes
  | none => .error (.python .unicodeEncodeError)

/-- `_validate_text` -/
def validateText (value : Option Text) (maximum : Nat) : Result Unit :=
  match value with
  | none => .ok ()
  | some value =>
    if value = [] then requestInvalid
    else do
      let bytes ← encodeStrict value
      if bytes.length > maximum then requestInvalid
      else if value.any fun c => c.val < 32 then requestInvalid
      else .ok ()

/-- `PurePosixPath(value).is_absolute()` -/
def isAbsolute (value : Text) : Bool := value.startsWith (txt "/")

/-- The names in `PurePosixPath(value).parts`. -/
def purePathParts (value : Text) : List Text :=
  (Path.components value).filter fun part => part ≠ [] ∧ part ≠ txt "."

/-- `_validate_path` -/
def validatePath (value : Option Text) : Result Unit := do
  validateText value maxRoutePathLength
  match value with
  | none => .ok ()
  | some value =>
    if isAbsolute value ∨ value ∈ [txt ".", txt ".."] ∨ txt ".." ∈ purePathParts value then requestInvalid
    else .ok ()

/-- `_validate_bounds` -/
def validateBounds : Option RouteBounds → Result Unit
  | none => .ok ()
  | some value =>
    if ¬ (1 ≤ value.limit ∧ value.limit ≤ maxRouteLimit) then requestInvalid
    else if ¬ (0 ≤ value.offset ∧ value.offset ≤ maxRouteOffset) then requestInvalid
    else .ok ()

/-- `_validate_route_request` -/
def validateRouteRequest (request : StewardRouteRequest) : Result Unit := do
  if request.operationKind = [] ∨ maxRouteOperationLength < request.operationKind.length ∨
      ¬ operationPattern request.operationKind then requestInvalid
  else if request.orderedSnapshotIds.any fun item => !canonicalUuid item then requestInvalid
  else if ¬ request.orderedSnapshotIds.Nodup then requestInvalid
  else
    validateText request.scopeId maxRouteScopeLength
    validatePath request.pathOrPrefix
    validateBounds request.bounds

/-! ## Requirements -/

/-- `_RouteRequirements` -/
structure RouteRequirements where
  snapshotCount : Option Nat := none
  scope : Bool := false
  path : Bool := false
  bounds : Bool := false

/-- `_ROUTE_REQUIREMENTS` -/
def routeRequirements : OperationKind → RouteRequirements
  | .configurationOrHealth => {}
  | .verifiedSnapshotInventory => {}
  | .exactSnapshotInspection => { snapshotCount := some 1 }
  | .exactHistoricalEntryResolution => { snapshotCount := some 1, scope := true, path := true }
  | .typedHistoricalFailure => { snapshotCount := some 1, scope := true, path := true }
  | .historicalCurrentTruthBoundary => { snapshotCount := some 1, scope := true, path := true }
  | .minimalResumableHandoff => { snapshotCount := some 2, scope := true }
  | .snapshotLifecycle => {}
  | .boundedChangeReview => { snapshotCount := some 2, scope := true }
  | .confirmedDocumentInspection => { scope := true, path := true, bounds := true }
  | .boundedStructuralDiagnostic => { snapshotCount := some 1, scope := true, bounds := true }
  | .orderedHistoricalChangeExplanation => { snapshotCount := some 2, scope := true, bounds := true }

/-- `_CONTEXT_OPERATIONS` -/
def contextOperations : List OperationKind :=
  [.boundedStructuralDiagnostic, .orderedHistoricalChangeExplanation]

/-- `_missing_fields` -/
def missingFields (request : StewardRouteRequest) (requirements : RouteRequirements) : List Text :=
  (match requirements.snapshotCount with
    | some n => if request.orderedSnapshotIds.length ≠ n then
        [txt "ordered_snapshot_ids_exactly_" ++ Text.ofNat n] else []
    | none => []) ++
  (if requirements.scope ∧ request.scopeId = none then [txt "scope_id"] else []) ++
  (if requirements.path ∧ request.pathOrPrefix = none then [txt "path_or_prefix"] else []) ++
  if requirements.bounds ∧ request.bounds = none then [txt "bounds"] else []

/-! ## Identities -/

section
variable {F : Type}

/-- A text that may be missing. -/
def textOrNone : Option Text → Value F
  | some t => .str t
  | none => .none

def boundsValue (bounds : RouteBounds) : Value F :=
  .dict [(txt "limit", .int bounds.limit), (txt "offset", .int bounds.offset)]

/-- `route_request_machine_object` -/
def routeRequestMachineObject (request : StewardRouteRequest) : List (Text × Value F) :=
  [(txt "operation_kind", .str request.operationKind),
    (txt "ordered_snapshot_ids", .list (request.orderedSnapshotIds.map .str)),
    (txt "scope_id", textOrNone request.scopeId),
    (txt "path_or_prefix", textOrNone request.pathOrPrefix),
    (txt "bounds", match request.bounds with
      | some bounds => boundsValue bounds
      | none => .none)]

/-- `route_grant_machine_object(grant, include_grant_id=False)` -/
def routeGrantMachineObject (grant : StewardRouteGrant) : List (Text × Value F) :=
  [(txt "schema_version", .int grant.schemaVersion),
    (txt "operation_kind", .str (Named.name grant.operationKind)),
    (txt "ordered_snapshot_ids", .list (grant.orderedSnapshotIds.map .str)),
    (txt "scope_id", .str grant.scopeId),
    (txt "path_or_prefix", textOrNone grant.pathOrPrefix),
    (txt "bounds", boundsValue grant.bounds),
    (txt "request_digest", .str grant.requestDigest),
    (txt "reusable", .bool grant.reusable)]

end

variable (F : Type) [SqliteFloat F]

/-- `sha256(domain.encode("utf-8") + b"\0" + canonical_json(value)).hexdigest()` -/
def domainDigest (domain : Text) (value : Value F) : Result Text := do
  let payload ← canonicalJson value
  pure (Runtime.sha256 F (Text.utf8 (domain ++ [0] ++ payload)))

/-- `route_request_digest` -/
def routeRequestDigest (request : StewardRouteRequest) : Result Text :=
  domainDigest F (txt "local_steward.agent_route_request.v1") (.dict (routeRequestMachineObject request))

/-- `route_grant_digest` -/
def routeGrantDigest (grant : StewardRouteGrant) : Result Text :=
  domainDigest F (txt "local_steward.agent_route_grant.v1") (.dict (routeGrantMachineObject grant))

/-! ## The decision -/

/-- `_grant_for_request` -/
def grantForRequest (request : StewardRouteRequest) (operation : OperationKind) (requestIdentity : Text) :
    Result StewardRouteGrant :=
  match request.scopeId, request.bounds with
  | some scopeId, some bounds => do
    let grant : StewardRouteGrant := ⟨routeSchemaVersion, [], operation, request.orderedSnapshotIds, scopeId,
      request.pathOrPrefix, bounds, requestIdentity, false⟩
    let grantId ← routeGrantDigest F grant
    pure { grant with grantId }
  | _, _ => requestInvalid

/-- Return one closed route decision without interpreting natural language. -/
def routeStewardOperation (request : StewardRouteRequest) : Result StewardRouteOutcome := do
  validateRouteRequest request
  let requestIdentity ← routeRequestDigest F request
  match Named.ofName? (α := OperationKind) request.operationKind with
  | none => pure ⟨routeSchemaName, routeSchemaVersion, .unsupported, request.operationKind, requestIdentity,
      [], none⟩
  | some operation =>
    let missing := missingFields request (routeRequirements operation)
    if missing ≠ [] then
      pure ⟨routeSchemaName, routeSchemaVersion, .clarify, Named.name operation, requestIdentity, missing, none⟩
    else if operation ∈ contextOperations then do
      let grant ← grantForRequest F request operation requestIdentity
      pure ⟨routeSchemaName, routeSchemaVersion, .context, Named.name operation, requestIdentity, [], some grant⟩
    else
      pure ⟨routeSchemaName, routeSchemaVersion, .core, Named.name operation, requestIdentity, [], none⟩

/-! ## What validation admits -/

/-- A text that `_validate_text` admits. -/
structure TextAdmitted (t : Text) (maximum : Nat) : Prop where
  nonempty : t ≠ []
  encodable : t.encodable = true
  length : (Text.utf8 t).length ≤ maximum
  printable : ∀ c ∈ t, 32 ≤ c.val

theorem validateText_eq_ok {value : Option Text} {maximum : Nat} :
    validateText value maximum = .ok () ↔ ∀ t ∈ value, TextAdmitted t maximum := by
  cases value with
  | none => simp [validateText]
  | some t =>
    simp only [validateText, requestInvalid, Option.mem_some_iff, forall_eq']
    by_cases hempty : t = []
    · rw [if_pos hempty]
      exact iff_of_false (by simp) fun h => h.nonempty hempty
    by_cases henc : t.encodable = true
    swap
    · rw [if_neg hempty, encodeStrict, Text.encode, if_neg henc]
      exact iff_of_false (by simp) fun h => henc h.encodable
    rw [if_neg hempty, encodeStrict, Text.encode, if_pos henc, ok_bind_ok]
    by_cases hlen : (Text.utf8 t).length > maximum
    · rw [if_pos hlen]
      exact iff_of_false (by simp) fun h => absurd h.length (Nat.not_le.2 hlen)
    by_cases hcontrol : t.any fun c => c.val < 32
    · rw [if_neg hlen, if_pos hcontrol]
      refine iff_of_false (by simp) fun h => ?_
      obtain ⟨c, hc, hlt⟩ := List.any_eq_true.1 hcontrol
      exact absurd (h.printable c hc) (Nat.not_le.2 (of_decide_eq_true hlt))
    · rw [if_neg hlen, if_neg hcontrol]
      refine iff_of_true rfl ⟨hempty, henc, Nat.not_lt.1 hlen, fun c hc => ?_⟩
      by_contra hlt
      exact hcontrol (List.any_eq_true.2 ⟨c, hc, decide_eq_true (Nat.not_le.1 hlt)⟩)

/-- A path that `_validate_path` admits. -/
structure PathAdmitted (t : Text) : Prop where
  text : TextAdmitted t maxRoutePathLength
  relative : isAbsolute t = false
  inside : t ≠ txt "." ∧ t ≠ txt ".." ∧ txt ".." ∉ purePathParts t

theorem validatePath_eq_ok {value : Option Text} :
    validatePath value = .ok () ↔ ∀ t ∈ value, PathAdmitted t := by
  unfold validatePath
  rw [bind_eq_ok]
  cases value with
  | none => exact iff_of_true ⟨(), rfl, rfl⟩ fun t ht => absurd ht (Option.not_mem_none t)
  | some t =>
    have htext : validateText (some t) maxRoutePathLength = .ok () ↔ TextAdmitted t maxRoutePathLength := by
      simp [validateText_eq_ok]
    simp only [requestInvalid, Option.mem_some_iff, forall_eq']
    constructor
    · rintro ⟨_, hvalid, h⟩
      split_ifs at h with hbad
      simp only [List.mem_cons, List.not_mem_nil, or_false, not_or, Bool.not_eq_true] at hbad
      exact ⟨htext.1 hvalid, hbad.1, hbad.2.1.1, hbad.2.1.2, hbad.2.2⟩
    · rintro ⟨hadmitted, hrelative, hdot, hparent, hparts⟩
      refine ⟨(), htext.2 hadmitted, if_neg ?_⟩
      simp [hrelative, hdot, hparent, hparts]

theorem validateBounds_eq_ok {value : Option RouteBounds} :
    validateBounds value = .ok () ↔ ∀ b ∈ value, (1 ≤ b.limit ∧ b.limit ≤ maxRouteLimit) ∧
      0 ≤ b.offset ∧ b.offset ≤ maxRouteOffset := by
  cases value with
  | none => simp [validateBounds]
  | some b =>
    simp only [validateBounds, requestInvalid, Option.mem_some_iff, forall_eq']
    split_ifs with hlimit hoffset <;> simp_all

/-- A request that `_validate_route_request` admits. -/
structure StewardRouteRequest.Valid (request : StewardRouteRequest) : Prop where
  operationKind : request.operationKind ≠ [] ∧ request.operationKind.length ≤ maxRouteOperationLength ∧
    operationPattern request.operationKind = true
  snapshotIds : ∀ id ∈ request.orderedSnapshotIds, canonicalUuid id = true
  distinct : request.orderedSnapshotIds.Nodup
  scopeId : ∀ t ∈ request.scopeId, TextAdmitted t maxRouteScopeLength
  pathOrPrefix : ∀ t ∈ request.pathOrPrefix, PathAdmitted t
  bounds : ∀ b ∈ request.bounds, (1 ≤ b.limit ∧ b.limit ≤ maxRouteLimit) ∧
    0 ≤ b.offset ∧ b.offset ≤ maxRouteOffset

theorem validateRouteRequest_eq_ok {request : StewardRouteRequest} :
    validateRouteRequest request = .ok () ↔ request.Valid := by
  have hany : (request.orderedSnapshotIds.any fun item => !canonicalUuid item) = true ↔
      ¬ ∀ id ∈ request.orderedSnapshotIds, canonicalUuid id = true := by simp
  unfold validateRouteRequest
  constructor
  · intro h
    by_cases hoperation : request.operationKind = [] ∨ maxRouteOperationLength < request.operationKind.length ∨
        ¬ operationPattern request.operationKind
    · rw [if_pos hoperation] at h
      cases h
    by_cases hids : request.orderedSnapshotIds.any fun item => !canonicalUuid item
    · rw [if_neg hoperation, if_pos hids] at h
      cases h
    by_cases hdistinct : request.orderedSnapshotIds.Nodup
    swap
    · rw [if_neg hoperation, if_neg hids, if_pos hdistinct] at h
      cases h
    rw [if_neg hoperation, if_neg hids, if_neg (not_not.2 hdistinct)] at h
    obtain ⟨_, hscope, h⟩ := bind_eq_ok.1 h
    obtain ⟨_, hpath, h⟩ := bind_eq_ok.1 h
    simp only [not_or, Nat.not_lt, not_not] at hoperation
    exact ⟨hoperation, not_not.1 (hany.not.1 hids), hdistinct, validateText_eq_ok.1 hscope,
      validatePath_eq_ok.1 hpath, validateBounds_eq_ok.1 h⟩
  · rintro ⟨⟨hempty, hlength, hpattern⟩, hids, hdistinct, hscope, hpath, hbounds⟩
    rw [if_neg (by simp [hempty, hlength, hpattern]), if_neg fun h => hany.1 h hids, if_neg (not_not.2 hdistinct),
      validateText_eq_ok.2 hscope, ok_bind_ok, validatePath_eq_ok.2 hpath, ok_bind_ok]
    exact validateBounds_eq_ok.2 hbounds

/-! ## Valid requests are routed -/

theorem encodable_of_operationPattern {t : Text} (h : operationPattern t = true) : t.encodable = true := by
  cases t with
  | nil => rfl
  | cons c s =>
    refine Text.encodable_of_lt fun x hx => ?_
    simp only [operationPattern, Bool.and_eq_true, List.all_eq_true, Bool.or_eq_true, decide_eq_true_eq, isUpper,
      Text.isDigit] at h
    rcases List.mem_cons.1 hx with rfl | hx
    · omega
    · rcases h.2 x hx with (hx | hx) | rfl
      · omega
      · omega
      · decide

theorem hexDigit_or_dash {t : Text} (h : canonicalUuid t = true) {c : CodePoint} (hc : c ∈ t) :
    isHexDigit c = true ∨ c = ch '-' := by
  simp only [canonicalUuid, uuidPattern, Bool.and_eq_true, List.all_eq_true] at h
  obtain ⟨i, hi, rfl⟩ := List.getElem_of_mem hc
  have hplace := h.2 (t[i], i) (List.mem_zipIdx_iff_getElem?.2 (List.getElem?_eq_getElem hi))
  split_ifs at hplace
  · exact .inr (of_decide_eq_true hplace)
  · exact .inl hplace

theorem encodable_of_canonicalUuid {t : Text} (h : canonicalUuid t = true) : t.encodable = true := by
  refine Text.encodable_of_lt fun c hc => ?_
  rcases hexDigit_or_dash h hc with hc | rfl
  · simp only [isHexDigit, Text.isDigit, Bool.or_eq_true, Bool.and_eq_true, decide_eq_true_eq] at hc
    omega
  · decide

section
variable {F} {request : StewardRouteRequest}

theorem safe_textOrNone {t : Option Text} : (textOrNone t : Value F).safe = true ↔ ∀ s ∈ t, s.encodable = true := by
  cases t <;> simp [textOrNone]

theorem safe_stringList {ts : List Text} :
    (Value.list (ts.map .str) : Value F).safe = true ↔ ∀ t ∈ ts, t.encodable = true := by
  simp [Value.safe_list]

theorem safe_boundsValue (bounds : RouteBounds) : (boundsValue bounds : Value F).safe = true := by
  have hkeys : ∀ k ∈ [txt "limit", txt "offset"], k.encodable = true := by decide
  exact Value.safe_dict.2 ⟨hkeys, by simp⟩

theorem StewardRouteRequest.Valid.safe (h : request.Valid) :
    (Value.dict (routeRequestMachineObject request) : Value F).safe = true := by
  have hkeys : ∀ k ∈ [txt "operation_kind", txt "ordered_snapshot_ids", txt "scope_id", txt "path_or_prefix",
      txt "bounds"], k.encodable = true := by decide
  have hbounds : (match request.bounds with
      | some bounds => boundsValue bounds
      | none => .none : Value F).safe = true := by
    split
    · exact safe_boundsValue _
    · rfl
  refine Value.safe_dict.2 ⟨hkeys, ?_⟩
  simp only [routeRequestMachineObject, List.forall_mem_cons]
  exact ⟨encodable_of_operationPattern h.operationKind.2.2,
    safe_stringList.2 fun id hid => encodable_of_canonicalUuid (h.snapshotIds id hid),
    safe_textOrNone.2 fun t ht => (h.scopeId t ht).encodable,
    safe_textOrNone.2 fun t ht => (h.pathOrPrefix t ht).text.encodable, hbounds, by simp⟩

theorem domainDigest_eq_ok {domain id : Text} {value : Value F} : domainDigest F domain value = .ok id ↔
    value.safe = true ∧ id = Runtime.sha256 F (Text.utf8 (domain ++ [0] ++ canonicalText value)) := by
  rw [domainDigest, bind_eq_ok]
  simp only [canonicalJson_eq_ok]
  constructor
  · rintro ⟨t, ⟨hs, rfl⟩, h⟩
    exact ⟨hs, (Except.ok.inj h).symm⟩
  · rintro ⟨hs, rfl⟩
    exact ⟨_, ⟨hs, rfl⟩, rfl⟩

/-- A grant over the fields of a valid request has an identity. -/
theorem ok_grantForRequest (h : request.Valid) (operation : OperationKind) {identity : Text}
    (hidentity : identity.encodable = true) {scopeId : Text} (hscope : request.scopeId = some scopeId)
    {bounds : RouteBounds} (hbounds : request.bounds = some bounds) :
    Ok (grantForRequest F request operation identity) := by
  have hkeys : ∀ k ∈ [txt "schema_version", txt "operation_kind", txt "ordered_snapshot_ids", txt "scope_id",
      txt "path_or_prefix", txt "bounds", txt "request_digest", txt "reusable"], k.encodable = true := by
    decide +kernel
  let grant : StewardRouteGrant := ⟨routeSchemaVersion, [], operation, request.orderedSnapshotIds, scopeId,
    request.pathOrPrefix, bounds, identity, false⟩
  have hsafe : (Value.dict (routeGrantMachineObject grant) : Value F).safe = true := by
    refine Value.safe_dict.2 ⟨hkeys, ?_⟩
    simp only [routeGrantMachineObject, List.forall_mem_cons]
    exact ⟨rfl, Named.encodable operation,
      safe_stringList.2 fun id hid => encodable_of_canonicalUuid (h.snapshotIds id hid),
      (h.scopeId scopeId hscope).encodable, safe_textOrNone.2 fun t ht => (h.pathOrPrefix t ht).text.encodable,
      safe_boundsValue bounds, hidentity, rfl, by simp⟩
  simp only [grantForRequest, hscope, hbounds]
  exact ⟨_, bind_eq_ok.2 ⟨_, domainDigest_eq_ok.2 ⟨hsafe, rfl⟩, rfl⟩⟩

theorem missingFields_eq_nil {requirements : RouteRequirements} (h : missingFields request requirements = []) :
    (∀ n ∈ requirements.snapshotCount, request.orderedSnapshotIds.length = n) ∧
      (requirements.scope = true → ∃ t, request.scopeId = some t) ∧
      (requirements.path = true → ∃ t, request.pathOrPrefix = some t) ∧
      (requirements.bounds = true → ∃ b, request.bounds = some b) := by
  simp only [missingFields, List.append_eq_nil_iff] at h
  obtain ⟨⟨⟨hcount, hscope⟩, hpath⟩, hbounds⟩ := h
  refine ⟨fun n hn => ?_, fun hs => ?_, fun hs => ?_, fun hs => ?_⟩
  · rw [Option.mem_def.1 hn] at hcount
    by_contra hne
    simp [hne] at hcount
  all_goals
    by_contra hnone
    simp_all [← Option.isSome_iff_exists]

/-- Every valid request is routed. -/
theorem ok_routeStewardOperation (h : request.Valid) : Ok (routeStewardOperation F request) := by
  have hvalid := validateRouteRequest_eq_ok.2 h
  have hdigest : Ok (routeRequestDigest F request) := ⟨_, domainDigest_eq_ok.2 ⟨h.safe, rfl⟩⟩
  obtain ⟨identity, hidentity⟩ := hdigest
  have hencodable : identity.encodable = true := by
    rw [(domainDigest_eq_ok.1 hidentity).2]
    exact sha256_encodable _
  rw [routeStewardOperation, hvalid, ok_bind_ok, hidentity, ok_bind_ok]
  cases Named.ofName? (α := OperationKind) request.operationKind with
  | none => exact ok_pure _
  | some operation =>
    simp only
    split_ifs with hmissing hcontext
    · exact ok_pure _
    · have hrequired : (routeRequirements operation).scope = true ∧ (routeRequirements operation).bounds = true := by
        revert hcontext
        cases operation <;> decide
      obtain ⟨-, hscope, -, hbounds⟩ := missingFields_eq_nil (not_not.1 hmissing)
      obtain ⟨scopeId, hscopeId⟩ := hscope hrequired.1
      obtain ⟨bounds, hb⟩ := hbounds hrequired.2
      obtain ⟨grant, hgrant⟩ := ok_grantForRequest (F := F) h operation hencodable hscopeId hb
      rw [hgrant]
      exact ok_pure _
    · exact ok_pure _

end

end Steward
