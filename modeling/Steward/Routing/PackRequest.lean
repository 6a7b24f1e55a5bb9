import Steward.Routing.Grant

/-!
# Pack requests

The decoder `build_pack_request` and the request that a granted route hands it.
The decoder admits fewer paths and questions than routing does; `Buildable` is
what is left.
-/

namespace Steward

open Py Sqlite

/-! ## Models -/

structure ContextBudget where
  maxExplicitFacts : Int
  maxHierarchyItems : Int
  maxOverlays : Int
  maxExpansionDescriptors : Int
  deriving DecidableEq

structure ProjectionBudget where
  explicitEntryTotal : Int
  hierarchyNodeTotal : Int
  trackingItemTotal : Int
  relationComponentTotal : Int
  duplicateAliasComponentTotal : Int
  membersPerComponent : Int
  scopeMinimumGuarantee : Int
  priorityQuotas : List (Text × Int)
  serializedBytesSoft : Int
  deriving DecidableEq

structure ProjectionPolicy where
  policySchemaVersion : Int
  orderingReference : Text
  budget : ProjectionBudget
  duplicateOverlay : Bool
  relationOverlay : Bool
  deriving DecidableEq

structure UserIntentContext where
  question : Text
  scopeEmphasis : Option Text
  userProvidedContext : Option Text
  deriving DecidableEq

/-- `SnapshotDiagnosticRequest` and `PairTrackingRequest`; their other fields keep their defaults. -/
inductive ProjectionRequest where
  | snapshotDiagnostic (primarySnapshotId : Text) (scope pathPrefix : Option Text)
  | pairTracking (baseSnapshotId targetSnapshotId : Text) (scope pathPrefix : Option Text)
  deriving DecidableEq

structure AgentContextPackRequest where
  projectionRequest : ProjectionRequest
  projectionPolicy : ProjectionPolicy
  userIntent : UserIntentContext
  contextBudget : ContextBudget
  deriving DecidableEq

/-- `BALANCED_V1_PROJECTION_POLICY` -/
def balancedV1ProjectionPolicy : ProjectionPolicy where
  policySchemaVersion := 0
  orderingReference := txt "raw-path"
  budget := ⟨12, 12, 12, 8, 4, 4, 1, [(txt "TRACKING_FACT", 12)], 100000⟩
  duplicateOverlay := false
  relationOverlay := false

/-- `BALANCED_V1_CONTEXT_BUDGET` -/
def balancedV1ContextBudget : ContextBudget := ⟨12, 12, 8, 8⟩

def profileName : Text := txt "balanced-v1"

def maxAgentContextIntentBytes : Nat := 16384

/-! ## The decoder -/

/-- What the decoder takes from the standard library. `PureWindowsPath` draws the line between
relative and absolute UNC paths differently from one version to the next. -/
structure Decoder where
  /-- `str(UUID(value))`; `none` is `ValueError`. -/
  uuidText : Text → Option Text
  /-- `PureWindowsPath(value).is_absolute()` -/
  windowsAbsolute : Text → Bool
  uuidText_canonical : ∀ t, canonicalUuid t = true → uuidText t = some t

/-- The decoder of canonical identities, on a platform without drives. -/
def plainDecoder : Decoder where
  uuidText t := if canonicalUuid t then some t else none
  windowsAbsolute _ := false
  uuidText_canonical _ h := if_pos h

def mcpArgumentInvalid {α : Type} : Result α := .error .mcpArgumentError

/-- `_utf8_length` -/
def utf8Length (value : Text) : Result Nat :=
  match Text.encode value with
  | some bytes => .ok bytes.length
  | none => mcpArgumentInvalid

section
variable {F : Type} (decoder : Decoder)

/-- `_uuid` -/
def Decoder.uuid (value : Value F) : Result Text :=
  match value with
  | .str s =>
    match decoder.uuidText s with
    | some id => .ok id
    | none => mcpArgumentInvalid
  | _ => mcpArgumentInvalid

/-- `_relative_path` with `optional=True` -/
def Decoder.relativePath (value : Value F) : Result (Option Text) :=
  match value with
  | .none => .ok none
  | .str s =>
    if s = [] then mcpArgumentInvalid
    else do
      let length ← utf8Length s
      if length > 4096 then mcpArgumentInvalid
      else if isAbsolute s ∨ decoder.windowsAbsolute s ∨ s.startsWith (txt "/") then mcpArgumentInvalid
      else if s ≠ txt "." ∧ (Path.components s).any fun part => part ∈ [[], txt ".", txt ".."] then
        mcpArgumentInvalid
      else .ok (some s)
  | _ => mcpArgumentInvalid

/-- A text of the user's intent that may be left out. -/
def intentText (value : Value F) (maximum : Nat) : Result (Option Text) :=
  match value with
  | .none => .ok none
  | .str s => do
    let length ← utf8Length s
    if length > maximum then mcpArgumentInvalid else .ok (some s)
  | _ => mcpArgumentInvalid

def userIntent (intent : List (Text × Value F)) : Result UserIntentContext :=
  match Value.get intent (txt "question") with
  | .str question =>
    if question = [] then mcpArgumentInvalid
    else do
      let length ← utf8Length question
      if length > 8192 then mcpArgumentInvalid
      else do
        let scopeEmphasis ← intentText (Value.get intent (txt "scope_emphasis")) 2048
        let userContext ← intentText (Value.get intent (txt "user_provided_context")) 4096
        let canonicalIntent ← encodeStrict
          (question ++ [0] ++ scopeEmphasis.getD [] ++ [0] ++ userContext.getD [])
        if canonicalIntent.length > maxAgentContextIntentBytes then mcpArgumentInvalid
        else .ok ⟨question, scopeEmphasis, userContext⟩
  | _ => mcpArgumentInvalid

def scopeOf (value : Value F) : Result (Option Text) :=
  match value with
  | .none => .ok none
  | .str s => .ok (some s)
  | _ => mcpArgumentInvalid

/-- The request of the source's kind, over its decoded scope and path. -/
def Decoder.sourceRequest (source : List (Text × Value F)) (scopeId pathPrefix : Option Text) :
    Result ProjectionRequest :=
  match Value.get source (txt "kind") with
  | .str kind =>
    if kind = txt "SNAPSHOT_DIAGNOSTIC" then do
      let primary ← decoder.uuid (Value.get source (txt "snapshot_id"))
      .ok (.snapshotDiagnostic primary scopeId pathPrefix)
    else if kind = txt "PAIR_TRACKING" then do
      let base ← decoder.uuid (Value.get source (txt "base_snapshot_id"))
      let target ← decoder.uuid (Value.get source (txt "target_snapshot_id"))
      if base = target then mcpArgumentInvalid else .ok (.pairTracking base target scopeId pathPrefix)
    else mcpArgumentInvalid
  | _ => mcpArgumentInvalid

def Decoder.projectionRequest (source : List (Text × Value F)) : Result ProjectionRequest := do
  let scopeId ← scopeOf (Value.get source (txt "scope_id"))
  let pathPrefix ← decoder.relativePath (Value.get source (txt "path_prefix"))
  decoder.sourceRequest source scopeId pathPrefix

/-- Decode already schema-valid untouched JSON into one exact core request. -/
def Decoder.buildPackRequest (arguments : List (Text × Value F)) : Result AgentContextPackRequest :=
  match Value.get arguments (txt "profile"), Value.get arguments (txt "source"),
    Value.get arguments (txt "user_intent") with
  | .str profile, .dict source, .dict intent =>
    if profile ≠ profileName then mcpArgumentInvalid
    else do
      let userIntent ← userIntent intent
      let projectionRequest ← decoder.projectionRequest source
      .ok ⟨projectionRequest, balancedV1ProjectionPolicy, userIntent, balancedV1ContextBudget⟩
  | _, _, _ => mcpArgumentInvalid

/-! ## The request of a granted route -/

def ContextBudget.limited (budget : ContextBudget) (limit : Int) : ContextBudget where
  maxExplicitFacts := min budget.maxExplicitFacts limit
  maxHierarchyItems := min budget.maxHierarchyItems limit
  maxOverlays := min budget.maxOverlays limit
  maxExpansionDescriptors := min budget.maxExpansionDescriptors limit

def ProjectionBudget.limited (budget : ProjectionBudget) (limit : Int) : ProjectionBudget :=
  { budget with
    explicitEntryTotal := min budget.explicitEntryTotal limit
    hierarchyNodeTotal := min budget.hierarchyNodeTotal limit
    trackingItemTotal := min budget.trackingItemTotal limit
    relationComponentTotal := min budget.relationComponentTotal limit
    duplicateAliasComponentTotal := min budget.duplicateAliasComponentTotal limit
    membersPerComponent := min budget.membersPerComponent limit
    priorityQuotas := budget.priorityQuotas.map fun quota => (quota.1, min quota.2 limit) }

def AgentContextPackRequest.limited (request : AgentContextPackRequest) (limit : Int) : AgentContextPackRequest :=
  { request with
    projectionPolicy := { request.projectionPolicy with budget := request.projectionPolicy.budget.limited limit }
    contextBudget := request.contextBudget.limited limit }

/-- `ids[i]` -/
def idAt (ids : List Text) (i : Nat) : Result Text :=
  match ids[i]? with
  | some id => .ok id
  | none => .error (.python .indexError)

def diagnosticSource (id scopeId : Text) (path : Option Text) : List (Text × Value F) :=
  [(txt "kind", .str (txt "SNAPSHOT_DIAGNOSTIC")), (txt "snapshot_id", .str id), (txt "scope_id", .str scopeId),
    (txt "path_prefix", textOrNone path)]

def pairSource (base target scopeId : Text) (path : Option Text) : List (Text × Value F) :=
  [(txt "kind", .str (txt "PAIR_TRACKING")), (txt "base_snapshot_id", .str base),
    (txt "target_snapshot_id", .str target), (txt "scope_id", .str scopeId), (txt "path_prefix", textOrNone path)]

/-- The `source` object of `_pack_request`. -/
def packSource (request : StewardRouteRequest) (scopeId : Text) : Result (List (Text × Value F)) :=
  if request.operationKind = Named.name OperationKind.boundedStructuralDiagnostic then do
    let id ← idAt request.orderedSnapshotIds 0
    .ok (diagnosticSource id scopeId request.pathOrPrefix)
  else if request.operationKind = Named.name OperationKind.orderedHistoricalChangeExplanation then do
    let base ← idAt request.orderedSnapshotIds 0
    let target ← idAt request.orderedSnapshotIds 1
    .ok (pairSource base target scopeId request.pathOrPrefix)
  else .error (.steward .agentRouteGrantError)

/-- `_pack_request` -/
def Decoder.packRequest (request : StewardRouteRequest) (question : Value F) : Result AgentContextPackRequest :=
  match request.bounds, request.scopeId with
  | some bounds, some scopeId => do
    let source ← packSource request scopeId
    let packRequest ← decoder.buildPackRequest [(txt "profile", .str profileName), (txt "source", .dict source),
      (txt "user_intent", .dict [(txt "question", question)])]
    .ok (packRequest.limited bounds.limit)
  | _, _ => .error (.steward .agentRouteGrantError)

end

/-! ## What the decoder admits -/

theorem utf8Length_eq_ok {value : Text} {length : Nat} :
    utf8Length value = .ok length ↔ value.encodable = true ∧ length = (Text.utf8 value).length := by
  rw [utf8Length, Text.encode]
  by_cases h : value.encodable = true <;> simp [h, mcpArgumentInvalid, eq_comm]

variable {F : Type} {decoder : Decoder}

/-- A path that the decoder admits after routing has. -/
def Decoder.PathBuildable (decoder : Decoder) (path : Text) : Prop :=
  decoder.windowsAbsolute path = false ∧ [] ∉ Path.components path ∧ txt "." ∉ Path.components path

/-- A question that the decoder admits. -/
def QuestionBuildable (question : Text) : Prop :=
  question.encodable = true ∧ (Text.utf8 question).length ≤ 8192

variable (decoder) in
theorem relativePath_cases {path : Text} (h : PathAdmitted path) :
    (decoder.PathBuildable path ∧ decoder.relativePath (.str path : Value F) = .ok (some path)) ∨
      (¬ decoder.PathBuildable path ∧ decoder.relativePath (.str path : Value F) = mcpArgumentInvalid) := by
  have hlength : utf8Length path = .ok (Text.utf8 path).length := utf8Length_eq_ok.2 ⟨h.text.encodable, rfl⟩
  have hparent : txt ".." ∉ Path.components path := fun hmem =>
    h.inside.2.2 (List.mem_filter.2 ⟨hmem, by decide⟩)
  have hparts : (Path.components path).any (fun part => part ∈ [[], txt ".", txt ".."]) = true ↔
      ¬ ([] ∉ Path.components path ∧ txt "." ∉ Path.components path) := by
    simp only [List.any_eq_true, decide_eq_true_eq, List.mem_cons, List.not_mem_nil, or_false]
    constructor
    · rintro ⟨part, hpart, rfl | rfl | rfl⟩ ⟨hempty, hdot⟩
      · exact hempty hpart
      · exact hdot hpart
      · exact hparent hpart
    · intro hne
      by_contra hnone
      exact hne ⟨fun hmem => hnone ⟨_, hmem, .inl rfl⟩, fun hmem => hnone ⟨_, hmem, .inr (.inl rfl)⟩⟩
  have hrelative : path.startsWith (txt "/") = false := h.relative
  have hshort : ¬ (Text.utf8 path).length > 4096 := Nat.not_lt.2 h.text.length
  rw [Decoder.relativePath, if_neg h.text.nonempty, hlength, ok_bind_ok, if_neg hshort, Decoder.PathBuildable]
  by_cases hwindows : decoder.windowsAbsolute path = true
  · rw [if_pos (.inr (.inl hwindows))]
    exact .inr ⟨fun hb => Bool.false_ne_true (hb.1.symm.trans hwindows), rfl⟩
  · rw [if_neg (by simp [h.relative, hrelative, hwindows])]
    by_cases hany : (Path.components path).any (fun part => part ∈ [[], txt ".", txt ".."]) = true
    · rw [if_pos ⟨h.inside.1, hany⟩]
      exact .inr ⟨fun hb => (hparts.1 hany) hb.2, rfl⟩
    · rw [if_neg fun hb => hany hb.2]
      refine .inl ⟨⟨Bool.eq_false_iff.2 hwindows, ?_⟩, rfl⟩
      by_contra hne
      exact hany (hparts.2 hne)

/-- The user's intent of a routed request: a question and nothing else. -/
theorem userIntent_cases {question : Text} (h : question ≠ []) :
    (QuestionBuildable question ∧
      userIntent [(txt "question", (.str question : Value F))] = .ok ⟨question, none, none⟩) ∨
      (¬ QuestionBuildable question ∧
        userIntent [(txt "question", (.str question : Value F))] = mcpArgumentInvalid) := by
  have hquestion : Value.get [(txt "question", (.str question : Value F))] (txt "question") = .str question := rfl
  have hemphasis : intentText (Value.get [(txt "question", (.str question : Value F))] (txt "scope_emphasis")) 2048 =
      .ok none := rfl
  have hcontext : intentText (Value.get [(txt "question", (.str question : Value F))]
      (txt "user_provided_context")) 4096 = .ok none := rfl
  rw [userIntent, hquestion, QuestionBuildable]
  simp only [if_neg h, hemphasis, hcontext, ok_bind_ok]
  by_cases hencodable : question.encodable = true
  swap
  · have hraise : utf8Length question = mcpArgumentInvalid := by rw [utf8Length, Text.encode, if_neg hencodable]
    rw [hraise]
    exact .inr ⟨fun hb => hencodable hb.1, rfl⟩
  rw [utf8Length_eq_ok.2 ⟨hencodable, rfl⟩, ok_bind_ok]
  by_cases hlong : (Text.utf8 question).length > 8192
  · rw [if_pos hlong]
    exact .inr ⟨fun hb => Nat.not_lt.2 hb.2 hlong, rfl⟩
  · rw [if_neg hlong]
    refine .inl ⟨⟨hencodable, Nat.not_lt.1 hlong⟩, ?_⟩
    have hsafe : (question ++ [0] ++ (none : Option Text).getD [] ++ [0] ++ (none : Option Text).getD []).encodable =
        true := by
      simp only [Text.encodable_append, hencodable]
      decide
    have hbytes : (Text.utf8 (question ++ [0] ++ (none : Option Text).getD [] ++ [0] ++
        (none : Option Text).getD [])).length = (Text.utf8 question).length + 2 := by
      simp only [Option.getD_none, List.append_nil, Text.utf8, List.flatMap_append, List.length_append]
      rfl
    rw [encodeStrict, Text.encode, if_pos hsafe, ok_bind_ok, if_neg]
    rw [hbytes, maxAgentContextIntentBytes]
    omega

/-! ## What routing grants -/

variable [SqliteFloat F] {request : StewardRouteRequest} {grant : StewardRouteGrant}

/-- A granted request is valid, names a Context operation and lacks nothing. -/
theorem Granted.request_complete (h : Granted F request grant) : request.Valid ∧
    ∃ operation ∈ contextOperations, request.operationKind = Named.name operation ∧
      missingFields request (routeRequirements operation) = [] := by
  obtain ⟨outcome, hroute, hgrant⟩ := h
  obtain ⟨_, hvalid, hroute⟩ := bind_eq_ok.1 hroute
  obtain ⟨identity, -, hroute⟩ := bind_eq_ok.1 hroute
  refine ⟨validateRouteRequest_eq_ok.1 hvalid, ?_⟩
  split at hroute
  · cases hroute
    cases hgrant
  · rename_i operation hname
    simp only at hroute
    split_ifs at hroute with hmissing hcontext
    · cases hroute
      cases hgrant
    · exact ⟨operation, hcontext, (Named.ofName?_eq_some.1 hname).symm, not_not.1 hmissing⟩
    · cases hroute
      cases hgrant

theorem idAt_eq_ok {ids : List Text} {i : Nat} (hi : i < ids.length) : idAt ids i = .ok ids[i] := by
  rw [idAt, List.getElem?_eq_getElem hi]

section

omit [SqliteFloat F]

theorem uuid_canonical {id : Text} (h : canonicalUuid id = true) : decoder.uuid (.str id : Value F) = .ok id := by
  rw [Decoder.uuid]
  simp only [decoder.uuidText_canonical id h]

theorem sourceRequest_diagnosticSource {id scopeId : Text} {path scope prefixPath : Option Text}
    (h : canonicalUuid id = true) :
    decoder.sourceRequest (diagnosticSource (F := F) id scopeId path) scope prefixPath =
      .ok (.snapshotDiagnostic id scope prefixPath) := by
  have hkind : Value.get (diagnosticSource (F := F) id scopeId path) (txt "kind") =
    .str (txt "SNAPSHOT_DIAGNOSTIC") := rfl
  have hid : Value.get (diagnosticSource (F := F) id scopeId path) (txt "snapshot_id") = .str id := rfl
  rw [Decoder.sourceRequest, hkind, hid]
  simp only [if_true, uuid_canonical h, ok_bind_ok]

theorem sourceRequest_pairSource {base target scopeId : Text} {path scope prefixPath : Option Text}
    (hbase : canonicalUuid base = true) (htarget : canonicalUuid target = true) (hne : base ≠ target) :
    decoder.sourceRequest (pairSource (F := F) base target scopeId path) scope prefixPath =
      .ok (.pairTracking base target scope prefixPath) := by
  have hkind : Value.get (pairSource (F := F) base target scopeId path) (txt "kind") =
    .str (txt "PAIR_TRACKING") := rfl
  have hb : Value.get (pairSource (F := F) base target scopeId path) (txt "base_snapshot_id") = .str base := rfl
  have ht : Value.get (pairSource (F := F) base target scopeId path) (txt "target_snapshot_id") = .str target := rfl
  have hother : txt "PAIR_TRACKING" ≠ txt "SNAPSHOT_DIAGNOSTIC" := by decide
  rw [Decoder.sourceRequest, hkind, hb, ht]
  simp only [if_neg hother, if_true, uuid_canonical hbase, uuid_canonical htarget, ok_bind_ok, if_neg hne]

end

/-- A source that decodes up to its path. -/
structure Decoder.Sourced (decoder : Decoder) (request : StewardRouteRequest) (scopeId : Text)
    (source : List (Text × Value F)) : Prop where
  path : Value.get source (txt "path_prefix") = textOrNone request.pathOrPrefix
  scope : Value.get source (txt "scope_id") = .str scopeId
  request : ∀ path, Ok (decoder.sourceRequest source (some scopeId) path)

omit [SqliteFloat F] in
theorem Decoder.Sourced.cases {scopeId : Text} {source : List (Text × Value F)}
    (hsource : decoder.Sourced request scopeId source) (h : request.Valid) :
    ((∀ p ∈ request.pathOrPrefix, decoder.PathBuildable p) ∧ Ok (decoder.projectionRequest source)) ∨
      (¬ (∀ p ∈ request.pathOrPrefix, decoder.PathBuildable p) ∧
        decoder.projectionRequest source = mcpArgumentInvalid) := by
  have hscopeOf : scopeOf (.str scopeId : Value F) = .ok (some scopeId) := rfl
  rw [Decoder.projectionRequest, hsource.scope, hscopeOf, ok_bind_ok, hsource.path]
  cases hp : request.pathOrPrefix with
  | none => exact .inl ⟨fun p hmem => absurd hmem (Option.not_mem_none p), hsource.request none⟩
  | some p =>
    rcases relativePath_cases (F := F) decoder (h.pathOrPrefix p hp) with ⟨hb, hpath⟩ | ⟨hb, hpath⟩
    · rw [textOrNone, hpath, ok_bind_ok]
      exact .inl ⟨by simpa using hb, hsource.request (some p)⟩
    · rw [textOrNone, hpath]
      exact .inr ⟨by simpa using hb, rfl⟩

variable (decoder) in
/-- The source of a granted request decodes up to its path. -/
theorem Granted.exists_sourced (h : Granted F request grant) :
    ∃ source, packSource (F := F) request grant.scopeId = .ok source ∧
      decoder.Sourced request grant.scopeId source := by
  obtain ⟨hvalid, operation, hcontext, hname, hmissing⟩ := h.request_complete
  obtain ⟨hcount, -⟩ := missingFields_eq_nil hmissing
  have hids : ∀ i (hi : i < request.orderedSnapshotIds.length),
      canonicalUuid request.orderedSnapshotIds[i] = true := fun i hi => hvalid.snapshotIds _ (List.getElem_mem hi)
  rw [contextOperations, List.mem_cons, List.mem_singleton] at hcontext
  rcases hcontext with rfl | rfl
  · have hlength : request.orderedSnapshotIds.length = 1 := hcount 1 rfl
    have hzero : 0 < request.orderedSnapshotIds.length := by omega
    refine ⟨diagnosticSource request.orderedSnapshotIds[0] grant.scopeId request.pathOrPrefix,
      by rw [packSource, if_pos hname, idAt_eq_ok hzero, ok_bind_ok], rfl, rfl, fun path => ?_⟩
    exact ⟨_, sourceRequest_diagnosticSource (hids 0 hzero)⟩
  · have hlength : request.orderedSnapshotIds.length = 2 := hcount 2 rfl
    have hzero : 0 < request.orderedSnapshotIds.length := by omega
    have hone : 1 < request.orderedSnapshotIds.length := by omega
    have hother : request.operationKind ≠ Named.name OperationKind.boundedStructuralDiagnostic := by
      rw [hname]
      decide +kernel
    have hdistinct : request.orderedSnapshotIds[0] ≠ request.orderedSnapshotIds[1] := fun heq =>
      absurd ((List.Nodup.getElem_inj_iff hvalid.distinct).1 heq) (by decide)
    refine ⟨pairSource request.orderedSnapshotIds[0] request.orderedSnapshotIds[1] grant.scopeId
      request.pathOrPrefix, by rw [packSource, if_neg hother, if_pos hname, idAt_eq_ok hzero, ok_bind_ok,
        idAt_eq_ok hone, ok_bind_ok], rfl, rfl, fun path => ?_⟩
    exact ⟨_, sourceRequest_pairSource (hids 0 hzero) (hids 1 hone) hdistinct⟩

/-- The decoder admits the path and the question. -/
def Decoder.Buildable (decoder : Decoder) (request : StewardRouteRequest) (question : Text) : Prop :=
  (∀ p ∈ request.pathOrPrefix, decoder.PathBuildable p) ∧ QuestionBuildable question

omit [SqliteFloat F] in
theorem buildPackRequest_eq {question : Text} {source : List (Text × Value F)} :
    decoder.buildPackRequest [(txt "profile", .str profileName), (txt "source", .dict source),
      (txt "user_intent", .dict [(txt "question", (.str question : Value F))])] = (do
        let userIntent ← userIntent [(txt "question", (.str question : Value F))]
        let projectionRequest ← decoder.projectionRequest source
        .ok ⟨projectionRequest, balancedV1ProjectionPolicy, userIntent, balancedV1ContextBudget⟩) := by
  have hprofile : Value.get [(txt "profile", (.str profileName : Value F)), (txt "source", .dict source),
      (txt "user_intent", .dict [(txt "question", .str question)])] (txt "profile") = .str profileName := rfl
  have hsource : Value.get [(txt "profile", (.str profileName : Value F)), (txt "source", .dict source),
      (txt "user_intent", .dict [(txt "question", .str question)])] (txt "source") = .dict source := rfl
  have hintent : Value.get [(txt "profile", (.str profileName : Value F)), (txt "source", .dict source),
      (txt "user_intent", .dict [(txt "question", .str question)])] (txt "user_intent") =
      .dict [(txt "question", .str question)] := rfl
  rw [Decoder.buildPackRequest, hprofile, hsource, hintent]
  simp only [ne_eq, not_true_eq_false, if_false]

variable (decoder) in
/-- The pack request of a granted route is built, or raises `McpArgumentError`, as the decoder admits its
path and question or not. -/
theorem packRequest_cases (h : Granted F request grant) {question : Text} (hquestion : question ≠ []) :
    (decoder.Buildable request question ∧ Ok (decoder.packRequest request (.str question : Value F))) ∨
      (¬ decoder.Buildable request question ∧
        decoder.packRequest request (.str question : Value F) = mcpArgumentInvalid) := by
  obtain ⟨source, hpacked, hsource⟩ := h.exists_sourced decoder
  rw [Decoder.packRequest, h.binds.scopeId, h.binds.bounds]
  simp only [hpacked, ok_bind_ok, buildPackRequest_eq]
  rcases userIntent_cases (F := F) hquestion with ⟨hq, hintent⟩ | ⟨hq, hintent⟩
  · rw [hintent, ok_bind_ok]
    rcases hsource.cases h.request_complete.1 with ⟨hp, projection, hprojection⟩ | ⟨hp, hprojection⟩
    · rw [hprojection]
      exact .inl ⟨⟨hp, hq⟩, ok_ok _⟩
    · rw [hprojection]
      exact .inr ⟨fun hb => hp hb.1, rfl⟩
  · rw [hintent]
    exact .inr ⟨fun hb => hq hb.2, rfl⟩

variable (decoder) in
theorem ok_packRequest_iff (h : Granted F request grant) {question : Text} (hquestion : question ≠ []) :
    Ok (decoder.packRequest request (.str question : Value F)) ↔ decoder.Buildable request question := by
  rcases packRequest_cases decoder h hquestion with ⟨hb, hok⟩ | ⟨hb, hraise⟩
  · exact iff_of_true hok hb
  · rw [hraise]
    exact iff_of_false (not_ok_error _) hb

end Steward
