import Steward.Context.Facts
import Steward.Context.ModelRequest

/-!
# Context packets

A projection becomes a packet: of every category the first facts of the
canonical order are taken, up to the budget, the others are counted as
omissions, and the packet cites what it holds. `buildContextPacket_spec` says
what a packet is that was built, and that the order of the facts in the
projection leaves no trace in it.
-/

namespace Steward.Context

open Py Sqlite

/-! ## Projections -/

/-- An instance of a frozen model: the required attributes are never `None`, nor are the members
of the listed ones. -/
structure Instance (required listed : List Text) where
  fact : Fact
  given : fact.isNone = false
  present : ∀ k ∈ required, (fact.attr k).isNone = false
  members : ∀ k ∈ listed, ∀ x ∈ (fact.attr k).items, x.isNone = false

abbrev ExplicitEntryAnchor := Instance [txt "entry_reference"] [txt "result_references"]

abbrev TrackingItem := Instance [txt "diff_reference"] [txt "relation_references"]

abbrev HierarchyItem := Instance [txt "node_reference"] [txt "boundary_references"]

abbrev GrowthHierarchyItem := Instance [txt "node_reference"] []

abbrev OverlayItem := Instance [txt "component_reference"] []

abbrev Accounting := Instance [txt "domain"] []

abbrev ExpansionDescriptor := Instance [] []

abbrev ProjectionSourceIdentity := Instance [] []

inductive ProjectionMode where
  | snapshotDiagnostic
  | pairTracking
  deriving DecidableEq, Repr

def ProjectionMode.value : ProjectionMode → Text
  | snapshotDiagnostic => txt "SNAPSHOT_DIAGNOSTIC"
  | pairTracking => txt "PAIR_TRACKING"

structure SnapshotDiagnosticBody where
  hierarchyItems : List HierarchyItem
  explicitEntryAnchors : List ExplicitEntryAnchor
  duplicateOverlays : List OverlayItem
  hardLinkAliasOverlays : List OverlayItem
  relationOverlays : List OverlayItem

structure GrowthHierarchyContext where
  state : Fact
  sourceResultIdentity : Fact
  hierarchyItems : List GrowthHierarchyItem

structure PairTrackingBody where
  trackingItems : List TrackingItem
  explicitEntryAnchors : List ExplicitEntryAnchor
  growthHierarchy : GrowthHierarchyContext
  relationOverlays : List OverlayItem

/-- `ContextRequestScope`, and what is read of the normalized request. -/
structure ContextRequestScope where
  scope : Option Text
  pathPrefix : Option Text

/-- `ProjectionPreDigest` -/
structure ProjectionFacts where
  mode : ProjectionMode
  normalizedRequest : ContextRequestScope
  resolvedPolicy : Fact
  sourceIdentity : ProjectionSourceIdentity
  sourcePlan : List Fact
  diagnosticState : Fact
  accounting : List Accounting
  expansionDescriptors : List ExpansionDescriptor
  snapshotDiagnostic : Option SnapshotDiagnosticBody
  pairTracking : Option PairTrackingBody

structure ObservationProjection where
  facts : ProjectionFacts
  projectionDigest : Text

namespace ProjectionFacts

variable (facts : ProjectionFacts)

/-! What the adapter takes of the bodies. -/

def anchors : List ExplicitEntryAnchor := facts.snapshotDiagnostic.elim [] SnapshotDiagnosticBody.explicitEntryAnchors

def trackingItems : List TrackingItem := facts.pairTracking.elim [] PairTrackingBody.trackingItems

def hierarchy : List HierarchyItem := facts.snapshotDiagnostic.elim [] SnapshotDiagnosticBody.hierarchyItems

def growthItems : List GrowthHierarchyItem := facts.pairTracking.elim [] fun body => body.growthHierarchy.hierarchyItems

def overlays : List OverlayItem :=
  match facts.snapshotDiagnostic, facts.pairTracking with
  | some body, _ => body.duplicateOverlays ++ body.hardLinkAliasOverlays ++ body.relationOverlays
  | none, some body => body.relationOverlays
  | none, none => []

end ProjectionFacts

structure ContextBudget where
  maxExplicitFacts : Int
  maxHierarchyItems : Int
  maxOverlays : Int
  maxExpansionDescriptors : Int

structure UserIntentContext where
  question : Text
  scopeEmphasis : Option Text
  userProvidedContext : Option Text

/-! ## Packets -/

inductive ContextOmissionCategory where
  | explicitEntryAnchors
  | trackingItems
  | hierarchyItems
  | overlays
  | expansionDescriptors
  deriving DecidableEq, Repr

def ContextOmissionCategory.value : ContextOmissionCategory → Text
  | explicitEntryAnchors => txt "EXPLICIT_ENTRY_ANCHORS"
  | trackingItems => txt "TRACKING_ITEMS"
  | hierarchyItems => txt "HIERARCHY_ITEMS"
  | overlays => txt "OVERLAYS"
  | expansionDescriptors => txt "EXPANSION_DESCRIPTORS"

/-- `ContextOmission`; what is omitted was explicit, and has no descriptor. -/
structure ContextOmission where
  category : ContextOmissionCategory
  omittedCount : Nat
  deriving DecidableEq

structure ContextGrowthHierarchy where
  sourceResultIdentity : Fact
  state : Fact
  hierarchyItems : List GrowthHierarchyItem

def EvidenceReferenceKind.value : EvidenceReferenceKind → Text
  | entry => txt "ENTRY"
  | resultLocal => txt "RESULT_LOCAL"
  | accounting => txt "ACCOUNTING"
  | expansion => txt "EXPANSION"
  | projectionSource => txt "PROJECTION_SOURCE"

/-- A cited fact, under the kind of its reference. -/
abbrev Citation := EvidenceReferenceKind × Fact

structure Reference where
  token : Text
  cited : Citation

/-- `LLMContextPacket` -/
structure ContextPacket where
  taskDomain : LLMTaskDomain
  userIntent : UserIntentContext
  contextBudget : ContextBudget
  projectionMode : ProjectionMode
  projectionDigest : Text
  sourceIdentity : ProjectionSourceIdentity
  normalizedRequestScope : ContextRequestScope
  resolvedPolicySummary : Fact
  sourcePlan : List Fact
  diagnosticState : Fact
  explicitEntryAnchors : List ExplicitEntryAnchor
  trackingItems : List TrackingItem
  hierarchyItems : List HierarchyItem
  growthHierarchy : Option ContextGrowthHierarchy
  overlays : List OverlayItem
  independentAccounting : List Accounting
  expansionDescriptors : List ExpansionDescriptor
  contextOmissions : List ContextOmission
  evidenceReferences : List Reference
  packetDigest : Text

/-! ## Packets as facts -/

def optionalFact (t : Option Text) : Fact := t.elim .none .str

def instances {required listed : List Text} (xs : List (Instance required listed)) : Fact :=
  .tuple (xs.map Instance.fact)

def UserIntentContext.fact (i : UserIntentContext) : Fact :=
  .dataclass [txt "question", txt "scope_emphasis", txt "user_provided_context"] (by decide)
    [.str i.question, optionalFact i.scopeEmphasis, optionalFact i.userProvidedContext]

def ContextBudget.fact (b : ContextBudget) : Fact :=
  .dataclass [txt "max_explicit_facts", txt "max_hierarchy_items", txt "max_overlays", txt "max_expansion_descriptors"]
    (by decide) [.int b.maxExplicitFacts, .int b.maxHierarchyItems, .int b.maxOverlays, .int b.maxExpansionDescriptors]

def ContextRequestScope.fact (s : ContextRequestScope) : Fact :=
  .dataclass [txt "scope", txt "path_prefix"] (by decide) [optionalFact s.scope, optionalFact s.pathPrefix]

def ContextGrowthHierarchy.fact (g : ContextGrowthHierarchy) : Fact :=
  .dataclass [txt "source_result_identity", txt "state", txt "hierarchy_items"] (by decide)
    [g.sourceResultIdentity, g.state, instances g.hierarchyItems]

def ContextOmission.fact (o : ContextOmission) : Fact :=
  .dataclass [txt "category", txt "omitted_count", txt "source_representation", txt "expansion_descriptor"] (by decide)
    [.member o.category.value, .int o.omittedCount, .member (txt "EXPLICIT"), .none]

/-- The payload in the field of a kind. -/
def Reference.slot (r : Reference) (kind : EvidenceReferenceKind) : Fact := if r.cited.1 = kind then r.cited.2 else .none

def Reference.fact (r : Reference) : Fact :=
  .dataclass [txt "kind", txt "token", txt "entry_reference", txt "result_reference", txt "accounting_domain",
      txt "expansion_descriptor", txt "source_identity"] (by decide)
    [.member r.cited.1.value, .str r.token, r.slot .entry, r.slot .resultLocal, r.slot .accounting, r.slot .expansion,
      r.slot .projectionSource]

/-- The fields of a packet but `packet_digest`. -/
def packetNames : List Text :=
  [txt "protocol_version", txt "task_domain", txt "user_intent", txt "context_budget", txt "projection_mode",
    txt "projection_digest", txt "source_identity", txt "normalized_request_scope", txt "resolved_policy_summary",
    txt "source_plan", txt "diagnostic_state", txt "explicit_entry_anchors", txt "tracking_items",
    txt "hierarchy_items", txt "growth_hierarchy", txt "overlays", txt "independent_accounting",
    txt "expansion_descriptors", txt "context_omissions", txt "evidence_references"]

def ContextPacket.values (p : ContextPacket) : List Fact :=
  [.int contextProtocolVersion, .member (Named.name p.taskDomain), p.userIntent.fact, p.contextBudget.fact,
    .member p.projectionMode.value, .str p.projectionDigest, p.sourceIdentity.fact, p.normalizedRequestScope.fact,
    p.resolvedPolicySummary, .tuple p.sourcePlan, p.diagnosticState, instances p.explicitEntryAnchors,
    instances p.trackingItems, instances p.hierarchyItems, p.growthHierarchy.elim .none ContextGrowthHierarchy.fact,
    instances p.overlays, instances p.independentAccounting, instances p.expansionDescriptors,
    .tuple (p.contextOmissions.map ContextOmission.fact), .tuple (p.evidenceReferences.map Reference.fact)]

section
variable (F : Type)

/-- `packet_machine_object(packet, include_digest=False)` -/
def ContextPacket.machineObject (p : ContextPacket) : List (Text × Value F) := Fact.machineFields F packetNames p.values

def payloadValue (x : Fact) : Option (Value F) := if x.isNone then none else some (x.machineValue F)

def Reference.evidence (r : Reference) : EvidenceReference F where
  kind := r.cited.1
  token := r.token
  entryReference := payloadValue F (r.slot .entry)
  resultReference := payloadValue F (r.slot .resultLocal)
  accountingDomain := payloadValue F (r.slot .accounting)
  expansionDescriptor := payloadValue F (r.slot .expansion)
  sourceIdentity := payloadValue F (r.slot .projectionSource)

/-- The packet as the validation reads it. -/
def ContextPacket.packet (p : ContextPacket) : LLMContextPacket F where
  protocolVersion := contextProtocolVersion
  taskDomain := p.taskDomain
  projectionDigest := p.projectionDigest
  evidenceReferences := p.evidenceReferences.map (Reference.evidence F)
  machineObject := p.machineObject F
  packetDigest := p.packetDigest

end

/-! ## What a packet cites -/

/-- The attribute, unless it is `None`. -/
def citeOptional (kind : EvidenceReferenceKind) (x : Fact) : List Citation := if x.isNone then [] else [(kind, x)]

def ExplicitEntryAnchor.citations (x : ExplicitEntryAnchor) : List Citation :=
  (.entry, x.fact.attr (txt "entry_reference")) ::
    (x.fact.attr (txt "result_references")).items.map fun r => (.resultLocal, r)

def TrackingItem.citations (x : TrackingItem) : List Citation :=
  citeOptional .entry (x.fact.attr (txt "base_entry_reference")) ++
    citeOptional .entry (x.fact.attr (txt "target_entry_reference")) ++
    [(.resultLocal, x.fact.attr (txt "diff_reference"))] ++
    citeOptional .resultLocal (x.fact.attr (txt "growth_contribution_reference")) ++
    (x.fact.attr (txt "relation_references")).items.map fun r => (.resultLocal, r)

def HierarchyItem.citations (x : HierarchyItem) : List Citation :=
  (.resultLocal, x.fact.attr (txt "node_reference")) ::
    (x.fact.attr (txt "boundary_references")).items.map fun r => (.resultLocal, r)

def ContextPacket.citations (p : ContextPacket) : List Citation :=
  (.projectionSource, p.sourceIdentity.fact) ::
    p.explicitEntryAnchors.flatMap ExplicitEntryAnchor.citations ++
    p.trackingItems.flatMap TrackingItem.citations ++
    p.hierarchyItems.flatMap HierarchyItem.citations ++
    (p.growthHierarchy.elim [] fun g =>
      g.hierarchyItems.map fun x => (.resultLocal, x.fact.attr (txt "node_reference"))) ++
    p.overlays.map (fun x => (.resultLocal, x.fact.attr (txt "component_reference"))) ++
    p.independentAccounting.map (fun x => (.accounting, x.fact.attr (txt "domain"))) ++
    p.expansionDescriptors.map fun x => (.expansion, x.fact)

section
variable (F : Type) [SqliteFloat F]

/-- `bytes.fromhex(text)` -/
def unhex : Text → List Byte
  | a :: b :: s => Fin.ofNat 256 (16 * (Json.hexVal a).getD 0 + (Json.hexVal b).getD 0) :: unhex s
  | _ => []

/-- `sha256(canonical_packet(packet)).digest()` -/
def packetScope (p : ContextPacket) : Result (List Byte) := do
  let payload ← canonicalJson (.dict (p.machineObject F))
  pure (unhex (Runtime.sha256 F (Text.utf8 payload)))

/-- `_token` -/
def referenceToken (scope : List Byte) (cited : Citation) : Result Text := do
  let raw ← canonicalJson (.dict [(txt "kind", .str cited.1.value), (txt "payload", cited.2.machineValue F)])
  pure (Runtime.sha256 F
    (Text.utf8 (txt "local_steward.llm_context_evidence_reference.v0" ++ [0]) ++ scope ++ Text.utf8 raw))

def reference (scope : List Byte) (cited : Citation) : Result Reference := do
  let token ← referenceToken F scope cited
  pure ⟨token, cited⟩

/-- `_unique_references` -/
def uniqueReferences (values : List Reference) : List Reference :=
  sortedBy Reference.token (collectBy Reference.token values)

/-- `_packet_references` -/
def packetReferences (p : ContextPacket) : Result (List Reference) := do
  let scope ← packetScope F p
  let values ← p.citations.mapM (reference F scope)
  pure (uniqueReferences values)

/-! ## Building a packet -/

/-- `_validate_budget` -/
def validateBudget (b : ContextBudget) : Requested Unit :=
  if b.maxExplicitFacts < 0 ∨ b.maxHierarchyItems < 0 ∨ b.maxOverlays < 0 ∨ b.maxExpansionDescriptors < 0 then
    contextInvalid "LLM_CONTEXT_BUDGET_INVALID"
  else pure ()

/-- `_validate_intent` -/
def validateIntent (i : UserIntentContext) : Requested Unit :=
  if strip i.question = [] then contextInvalid "LLM_USER_INTENT_INVALID" else pure ()

/-- `task_domain_for_projection` -/
def taskDomainForProjection (projection : ObservationProjection) : LLMTaskDomain :=
  match projection.facts.mode with
  | .snapshotDiagnostic => .staticSnapshot
  | .pairTracking => .staticPairComparison

/-- `_take` -/
def takeFacts {required listed : List Text} (values : List (Instance required listed)) (limit : Nat) :
    Requested (List (Instance required listed) × List (Instance required listed)) := do
  let ordered ← orRaised (Fact.sortedFacts F Instance.fact values)
  pure (ordered.take limit, ordered.drop limit)

/-- `_omission` -/
def omission (category : ContextOmissionCategory) (count : Nat) : List ContextOmission :=
  if count = 0 then [] else [⟨category, count⟩]

/-- The lists of a packet, selected or sorted. -/
structure PacketLists where
  anchors : List ExplicitEntryAnchor
  tracking : List TrackingItem
  hierarchy : List HierarchyItem
  growth : List GrowthHierarchyItem
  overlays : List OverlayItem
  descriptors : List ExpansionDescriptor
  sourcePlan : List Fact
  accounting : List Accounting
  omissions : List ContextOmission

/-- `build_context_packet` up to the packet: what is selected, what is only sorted, and what is omitted. -/
def packetLists (facts : ProjectionFacts) (budget : ContextBudget) : Requested PacketLists := do
  let (anchors, omittedAnchors) ← takeFacts F facts.anchors budget.maxExplicitFacts.toNat
  let (tracking, omittedTracking) ←
    takeFacts F facts.trackingItems (budget.maxExplicitFacts.toNat - anchors.length)
  let (hierarchy, omittedHierarchy) ← takeFacts F facts.hierarchy budget.maxHierarchyItems.toNat
  let (growth, omittedGrowth) ← takeFacts F facts.growthItems budget.maxHierarchyItems.toNat
  let (overlays, omittedOverlays) ← takeFacts F facts.overlays budget.maxOverlays.toNat
  let (descriptors, omittedDescriptors) ←
    takeFacts F facts.expansionDescriptors budget.maxExpansionDescriptors.toNat
  let sourcePlan ← orRaised (Fact.sortedFacts F id facts.sourcePlan)
  let accounting ← orRaised (Fact.sortedFacts F Instance.fact facts.accounting)
  let omissions ← orRaised (Fact.sortedFacts F ContextOmission.fact
    (omission .explicitEntryAnchors omittedAnchors.length ++ omission .trackingItems omittedTracking.length ++
      omission .hierarchyItems (omittedHierarchy.length + omittedGrowth.length) ++
      omission .overlays omittedOverlays.length ++ omission .expansionDescriptors omittedDescriptors.length))
  pure ⟨anchors, tracking, hierarchy, growth, overlays, descriptors, sourcePlan, accounting, omissions⟩

/-- The packet without its references and its digest. -/
def draftPacket (projection : ObservationProjection) (userIntent : UserIntentContext) (budget : ContextBudget)
    (lists : PacketLists) : ContextPacket where
  taskDomain := taskDomainForProjection projection
  userIntent := userIntent
  contextBudget := budget
  projectionMode := projection.facts.mode
  projectionDigest := projection.projectionDigest
  sourceIdentity := projection.facts.sourceIdentity
  normalizedRequestScope := projection.facts.normalizedRequest
  resolvedPolicySummary := projection.facts.resolvedPolicy
  sourcePlan := lists.sourcePlan
  diagnosticState := projection.facts.diagnosticState
  explicitEntryAnchors := lists.anchors
  trackingItems := lists.tracking
  hierarchyItems := lists.hierarchy
  growthHierarchy := projection.facts.pairTracking.map fun body =>
    ⟨body.growthHierarchy.sourceResultIdentity, body.growthHierarchy.state, lists.growth⟩
  overlays := lists.overlays
  independentAccounting := lists.accounting
  expansionDescriptors := lists.descriptors
  contextOmissions := lists.omissions
  evidenceReferences := []
  packetDigest := []

/-- `build_context_packet` -/
def buildContextPacket (projection : ObservationProjection) (userIntent : UserIntentContext) (budget : ContextBudget) :
    Requested ContextPacket := do
  validateBudget budget
  validateIntent userIntent
  let lists ← packetLists F projection.facts budget
  let draft := draftPacket projection userIntent budget lists
  let references ← orRaised (packetReferences F draft)
  let packet := { draft with evidenceReferences := references }
  let digest ← orRaised (Context.packetDigest (packet.packet F))
  pure { packet with packetDigest := digest }

/-- `validate_context_packet` -/
def validateContextPacket (packet : LLMContextPacket F) : Result (List Text) := do
  let digest ← packetDigest packet
  pure (violations (contextPacketChecks packet digest))

end

/-! ## Selecting -/

section
variable {F : Type} [SqliteFloat F] {required listed : List Text}

/-- The selected facts and the omitted ones are all there are. -/
structure Takes (values selected omitted : List (Instance required listed)) (limit : Nat) : Prop where
  all : (selected ++ omitted).Perm values
  bounded : selected.length ≤ limit

/-- Facts that agree one by one. -/
abbrev Alike (F : Type) (xs ys : List (Instance required listed)) : Prop :=
  List.Forall₂ (fun x y => Fact.Agree F x.fact y.fact) xs ys

theorem takeFacts_eq_ok {values selected omitted : List (Instance required listed)} {limit : Nat} :
    takeFacts F values limit = .ok (selected, omitted) ↔ ∃ ordered,
      Fact.sortedFacts F Instance.fact values = .ok ordered ∧ ordered.take limit = selected ∧
        ordered.drop limit = omitted := by
  rw [takeFacts, bind_eq_ok]
  simp only [orRaised_eq_ok, pure_eq_ok, Prod.mk.injEq]

theorem takes_of_takeFacts {values selected omitted : List (Instance required listed)} {limit : Nat}
    (h : takeFacts F values limit = .ok (selected, omitted)) : Takes values selected omitted limit := by
  obtain ⟨ordered, hordered, rfl, rfl⟩ := takeFacts_eq_ok.1 h
  obtain ⟨-, rfl⟩ := Fact.sortedFacts_eq_ok.1 hordered
  exact ⟨by rw [List.take_append_drop]; exact sortedBy_perm, List.length_take_le _ _⟩

/-- In any order, facts that agree are selected, and as many are omitted. -/
theorem takeFacts_perm {values values' selected omitted : List (Instance required listed)} {limit : Nat}
    (hperm : values.Perm values') (h : takeFacts F values limit = .ok (selected, omitted)) : ∃ selected' omitted',
      takeFacts F values' limit = .ok (selected', omitted') ∧ Alike F selected selected' ∧
        omitted.length = omitted'.length := by
  obtain ⟨ordered, hordered, rfl, rfl⟩ := takeFacts_eq_ok.1 h
  obtain ⟨ordered', hordered', hagree⟩ := Fact.agree_sortedFacts hperm hordered
  refine ⟨_, _, takeFacts_eq_ok.2 ⟨ordered', hordered', rfl, rfl⟩, List.forall₂_take limit hagree, ?_⟩
  rw [List.length_drop, List.length_drop, hagree.length_eq]

end

/-! ## The lists of a packet -/

/-- How many facts of a category are declared omitted. -/
def omittedIn (omissions : List ContextOmission) (category : ContextOmissionCategory) : Nat :=
  ((omissions.filter fun o => o.category = category).map ContextOmission.omittedCount).sum

section
variable {F : Type} [SqliteFloat F] {facts : ProjectionFacts} {budget : ContextBudget} {lists : PacketLists}

/-- What the lists of a packet hold of the projection. -/
structure Selects (facts : ProjectionFacts) (budget : ContextBudget) (lists : PacketLists) : Prop where
  anchors : ∃ omitted, Takes facts.anchors lists.anchors omitted budget.maxExplicitFacts.toNat ∧
    omitted.length = omittedIn lists.omissions .explicitEntryAnchors
  tracking : ∃ omitted,
    Takes facts.trackingItems lists.tracking omitted (budget.maxExplicitFacts.toNat - lists.anchors.length) ∧
    omitted.length = omittedIn lists.omissions .trackingItems
  hierarchy : ∃ omitted omittedGrowth,
    Takes facts.hierarchy lists.hierarchy omitted budget.maxHierarchyItems.toNat ∧
    Takes facts.growthItems lists.growth omittedGrowth budget.maxHierarchyItems.toNat ∧
    omitted.length + omittedGrowth.length = omittedIn lists.omissions .hierarchyItems
  overlays : ∃ omitted, Takes facts.overlays lists.overlays omitted budget.maxOverlays.toNat ∧
    omitted.length = omittedIn lists.omissions .overlays
  descriptors : ∃ omitted,
    Takes facts.expansionDescriptors lists.descriptors omitted budget.maxExpansionDescriptors.toNat ∧
    omitted.length = omittedIn lists.omissions .expansionDescriptors
  sourcePlan : lists.sourcePlan.Perm facts.sourcePlan
  accounting : lists.accounting.Perm facts.accounting

theorem omittedIn_perm {xs ys : List ContextOmission} (h : xs.Perm ys) (category : ContextOmissionCategory) :
    omittedIn xs category = omittedIn ys category := ((h.filter _).map _).sum_eq

theorem omittedIn_append (xs ys : List ContextOmission) (category : ContextOmissionCategory) :
    omittedIn (xs ++ ys) category = omittedIn xs category + omittedIn ys category := by
  simp [omittedIn]

theorem omittedIn_omission (c category : ContextOmissionCategory) (n : Nat) :
    omittedIn (omission c n) category = if c = category then n else 0 := by
  unfold omission omittedIn
  by_cases hn : n = 0
  · simp [hn]
  · by_cases hc : c = category <;> simp [hn, hc]

theorem packetLists_selects (h : packetLists F facts budget = .ok lists) : Selects facts budget lists := by
  simp only [packetLists, bind_eq_ok, orRaised_eq_ok, pure_eq_ok, Prod.exists] at h
  obtain ⟨anchors, oa, hanchors, tracking, ot, htracking, hierarchy, oh, hhierarchy, growth, og, hgrowth, overlays, oo,
    hoverlays, descriptors, od, hdescriptors, plan, hplan, accounting, haccounting, omissions, homissions, rfl⟩ := h
  obtain ⟨-, rfl⟩ := Fact.sortedFacts_eq_ok.1 homissions
  obtain ⟨-, rfl⟩ := Fact.sortedFacts_eq_ok.1 hplan
  obtain ⟨-, rfl⟩ := Fact.sortedFacts_eq_ok.1 haccounting
  have hcount (os : List ContextOmission) (category : ContextOmissionCategory) :
      omittedIn (sortedBy (fun x => Fact.canonicalKey F (ContextOmission.fact x)) os) category = omittedIn os category :=
    omittedIn_perm sortedBy_perm category
  exact {
    anchors := ⟨oa, takes_of_takeFacts hanchors, by rw [hcount]; simp [omittedIn_append, omittedIn_omission]⟩
    tracking := ⟨ot, takes_of_takeFacts htracking, by rw [hcount]; simp [omittedIn_append, omittedIn_omission]⟩
    hierarchy := ⟨oh, og, takes_of_takeFacts hhierarchy, takes_of_takeFacts hgrowth, by rw [hcount]; simp [omittedIn_append, omittedIn_omission]⟩
    overlays := ⟨oo, takes_of_takeFacts hoverlays, by rw [hcount]; simp [omittedIn_append, omittedIn_omission]⟩
    descriptors := ⟨od, takes_of_takeFacts hdescriptors, by rw [hcount]; simp [omittedIn_append, omittedIn_omission]⟩
    sourcePlan := sortedBy_perm
    accounting := sortedBy_perm }

end

/-! ## Reordered projections -/

structure SnapshotDiagnosticBody.Permuted (b c : SnapshotDiagnosticBody) : Prop where
  hierarchyItems : b.hierarchyItems.Perm c.hierarchyItems
  explicitEntryAnchors : b.explicitEntryAnchors.Perm c.explicitEntryAnchors
  duplicateOverlays : b.duplicateOverlays.Perm c.duplicateOverlays
  hardLinkAliasOverlays : b.hardLinkAliasOverlays.Perm c.hardLinkAliasOverlays
  relationOverlays : b.relationOverlays.Perm c.relationOverlays

structure PairTrackingBody.Permuted (b c : PairTrackingBody) : Prop where
  trackingItems : b.trackingItems.Perm c.trackingItems
  explicitEntryAnchors : b.explicitEntryAnchors.Perm c.explicitEntryAnchors
  state : b.growthHierarchy.state = c.growthHierarchy.state
  sourceResultIdentity : b.growthHierarchy.sourceResultIdentity = c.growthHierarchy.sourceResultIdentity
  hierarchyItems : b.growthHierarchy.hierarchyItems.Perm c.growthHierarchy.hierarchyItems
  relationOverlays : b.relationOverlays.Perm c.relationOverlays

/-- The facts of the lists stand in another order. -/
structure ProjectionFacts.Permuted (f g : ProjectionFacts) : Prop where
  mode : f.mode = g.mode
  normalizedRequest : f.normalizedRequest = g.normalizedRequest
  resolvedPolicy : f.resolvedPolicy = g.resolvedPolicy
  sourceIdentity : f.sourceIdentity = g.sourceIdentity
  diagnosticState : f.diagnosticState = g.diagnosticState
  sourcePlan : f.sourcePlan.Perm g.sourcePlan
  accounting : f.accounting.Perm g.accounting
  expansionDescriptors : f.expansionDescriptors.Perm g.expansionDescriptors
  snapshotDiagnostic : Option.Rel SnapshotDiagnosticBody.Permuted f.snapshotDiagnostic g.snapshotDiagnostic
  pairTracking : Option.Rel PairTrackingBody.Permuted f.pairTracking g.pairTracking

namespace ProjectionFacts.Permuted

variable {f g : ProjectionFacts}

theorem elim_perm {α β : Type} {R : α → α → Prop} {a b : Option α} {f : α → List β} (h : Option.Rel R a b)
    (hf : ∀ {x y}, R x y → (f x).Perm (f y)) : (a.elim [] f).Perm (b.elim [] f) := by
  cases h with
  | none => exact .refl _
  | some hxy => exact hf hxy

theorem anchors (h : f.Permuted g) : f.anchors.Perm g.anchors :=
  elim_perm h.snapshotDiagnostic SnapshotDiagnosticBody.Permuted.explicitEntryAnchors

theorem hierarchy (h : f.Permuted g) : f.hierarchy.Perm g.hierarchy :=
  elim_perm h.snapshotDiagnostic SnapshotDiagnosticBody.Permuted.hierarchyItems

theorem trackingItems (h : f.Permuted g) : f.trackingItems.Perm g.trackingItems :=
  elim_perm h.pairTracking PairTrackingBody.Permuted.trackingItems

theorem growthItems (h : f.Permuted g) : f.growthItems.Perm g.growthItems :=
  elim_perm h.pairTracking PairTrackingBody.Permuted.hierarchyItems

theorem overlays (h : f.Permuted g) : f.overlays.Perm g.overlays := by
  have hsnapshot := h.snapshotDiagnostic
  have hpair := h.pairTracking
  unfold ProjectionFacts.overlays
  generalize f.snapshotDiagnostic = s at hsnapshot ⊢
  generalize g.snapshotDiagnostic = s' at hsnapshot ⊢
  generalize f.pairTracking = p at hpair ⊢
  generalize g.pairTracking = p' at hpair ⊢
  cases hsnapshot with
  | some hbody => exact (hbody.duplicateOverlays.append hbody.hardLinkAliasOverlays).append hbody.relationOverlays
  | none =>
    cases hpair with
    | none => exact .refl _
    | some hbody => exact hbody.relationOverlays

end ProjectionFacts.Permuted

/-- The lists hold facts that agree, and declare the same omissions. -/
structure PacketLists.Alike (F : Type) (l m : PacketLists) : Prop where
  anchors : Context.Alike F l.anchors m.anchors
  tracking : Context.Alike F l.tracking m.tracking
  hierarchy : Context.Alike F l.hierarchy m.hierarchy
  growth : Context.Alike F l.growth m.growth
  overlays : Context.Alike F l.overlays m.overlays
  descriptors : Context.Alike F l.descriptors m.descriptors
  sourcePlan : List.Forall₂ (Fact.Agree F) l.sourcePlan m.sourcePlan
  accounting : Context.Alike F l.accounting m.accounting
  omissions : l.omissions = m.omissions

section
variable {F : Type} [SqliteFloat F] {facts facts' : ProjectionFacts} {budget : ContextBudget} {lists : PacketLists}

theorem packetLists_perm (hperm : facts.Permuted facts') (h : packetLists F facts budget = .ok lists) :
    ∃ lists', packetLists F facts' budget = .ok lists' ∧ lists.Alike F lists' := by
  simp only [packetLists, bind_eq_ok, orRaised_eq_ok, pure_eq_ok, Prod.exists] at h
  obtain ⟨anchors, oa, hanchors, tracking, ot, htracking, hierarchy, oh, hhierarchy, growth, og, hgrowth, overlays, oo,
    hoverlays, descriptors, od, hdescriptors, plan, hplan, accounting, haccounting, omissions, homissions, rfl⟩ := h
  obtain ⟨anchors', oa', hanchors', la, ca⟩ := takeFacts_perm hperm.anchors hanchors
  obtain ⟨tracking', ot', htracking', lt, ct⟩ := takeFacts_perm hperm.trackingItems htracking
  obtain ⟨hierarchy', oh', hhierarchy', lh, ch⟩ := takeFacts_perm hperm.hierarchy hhierarchy
  obtain ⟨growth', og', hgrowth', lg, cg⟩ := takeFacts_perm hperm.growthItems hgrowth
  obtain ⟨overlays', oo', hoverlays', lo, co⟩ := takeFacts_perm hperm.overlays hoverlays
  obtain ⟨descriptors', od', hdescriptors', ld, cd⟩ := takeFacts_perm hperm.expansionDescriptors hdescriptors
  obtain ⟨plan', hplan', lp⟩ := Fact.agree_sortedFacts hperm.sourcePlan hplan
  obtain ⟨accounting', haccounting', lc⟩ := Fact.agree_sortedFacts hperm.accounting haccounting
  rw [la.length_eq] at htracking'
  rw [ca, ct, ch, cg, co, cd] at homissions
  refine ⟨⟨anchors', tracking', hierarchy', growth', overlays', descriptors', plan', accounting', omissions⟩, ?_,
    ⟨la, lt, lh, lg, lo, ld, lp, lc, rfl⟩⟩
  simp only [packetLists, hanchors', htracking', hhierarchy', hgrowth', hoverlays', hdescriptors', hplan', haccounting',
    homissions, ok_bind_ok, orRaised_ok]
  rfl

end

/-! ## References -/

/-- Citations of the same kind, of facts that agree. -/
def CiteAgree (F : Type) (a b : Citation) : Prop := a.1 = b.1 ∧ Fact.Agree F a.2 b.2

def RefAgree (F : Type) (r s : Reference) : Prop := r.token = s.token ∧ CiteAgree F r.cited s.cited

section
variable {F : Type} {required listed : List Text}

theorem citeAgree_attr {kind : EvidenceReferenceKind} {x y : Fact} (h : Fact.Agree F x y) (k : Text) :
    CiteAgree F (kind, x.attr k) (kind, y.attr k) := ⟨rfl, h.attr k⟩

theorem citeAgree_items {kind : EvidenceReferenceKind} {x y : Fact} (h : Fact.Agree F x y) (k : Text) :
    List.Forall₂ (CiteAgree F) ((x.attr k).items.map fun r => (kind, r)) ((y.attr k).items.map fun r => (kind, r)) :=
  List.rel_map (fun _ _ hr => ⟨rfl, hr⟩) (h.attr k).items

theorem citeAgree_optional {kind : EvidenceReferenceKind} {x y : Fact} (h : Fact.Agree F x y) (k : Text) :
    List.Forall₂ (CiteAgree F) (citeOptional kind (x.attr k)) (citeOptional kind (y.attr k)) := by
  rw [citeOptional, citeOptional, (h.attr k).isNone]
  split_ifs
  · exact .nil
  · exact .cons (citeAgree_attr h k) .nil

theorem citeAgree_map {kind : EvidenceReferenceKind} {xs ys : List (Instance required listed)} (h : Alike F xs ys)
    (k : Text) : List.Forall₂ (CiteAgree F) (xs.map fun x => (kind, x.fact.attr k))
      (ys.map fun y => (kind, y.fact.attr k)) := by
  rw [List.forall₂_map_left_iff, List.forall₂_map_right_iff]
  exact h.imp fun _ _ hxy => citeAgree_attr hxy k

theorem ExplicitEntryAnchor.citations_agree {x y : ExplicitEntryAnchor} (h : Fact.Agree F x.fact y.fact) :
    List.Forall₂ (CiteAgree F) (citations x) (citations y) := .cons (citeAgree_attr h _) (citeAgree_items h _)

theorem HierarchyItem.citations_agree {x y : HierarchyItem} (h : Fact.Agree F x.fact y.fact) :
    List.Forall₂ (CiteAgree F) (citations x) (citations y) := .cons (citeAgree_attr h _) (citeAgree_items h _)

theorem TrackingItem.citations_agree {x y : TrackingItem} (h : Fact.Agree F x.fact y.fact) :
    List.Forall₂ (CiteAgree F) (citations x) (citations y) := by
  refine List.rel_append (List.rel_append (List.rel_append (List.rel_append ?_ ?_) ?_) ?_) (citeAgree_items h _)
  · exact citeAgree_optional h _
  · exact citeAgree_optional h _
  · exact .cons (citeAgree_attr h _) .nil
  · exact citeAgree_optional h _

/-- Packets that cite agreeing facts, but for their references. -/
structure ContextPacket.Alike (F : Type) (p q : ContextPacket) : Prop where
  taskDomain : p.taskDomain = q.taskDomain
  userIntent : p.userIntent = q.userIntent
  contextBudget : p.contextBudget = q.contextBudget
  projectionMode : p.projectionMode = q.projectionMode
  projectionDigest : p.projectionDigest = q.projectionDigest
  sourceIdentity : p.sourceIdentity = q.sourceIdentity
  normalizedRequestScope : p.normalizedRequestScope = q.normalizedRequestScope
  resolvedPolicySummary : p.resolvedPolicySummary = q.resolvedPolicySummary
  sourcePlan : List.Forall₂ (Fact.Agree F) p.sourcePlan q.sourcePlan
  diagnosticState : p.diagnosticState = q.diagnosticState
  explicitEntryAnchors : Context.Alike F p.explicitEntryAnchors q.explicitEntryAnchors
  trackingItems : Context.Alike F p.trackingItems q.trackingItems
  hierarchyItems : Context.Alike F p.hierarchyItems q.hierarchyItems
  growthHierarchy : Option.Rel (fun g h => g.sourceResultIdentity = h.sourceResultIdentity ∧ g.state = h.state ∧
    Context.Alike F g.hierarchyItems h.hierarchyItems) p.growthHierarchy q.growthHierarchy
  overlays : Context.Alike F p.overlays q.overlays
  independentAccounting : Context.Alike F p.independentAccounting q.independentAccounting
  expansionDescriptors : Context.Alike F p.expansionDescriptors q.expansionDescriptors
  contextOmissions : p.contextOmissions = q.contextOmissions

theorem ContextPacket.Alike.citations {p q : ContextPacket} (h : p.Alike F q) :
    List.Forall₂ (CiteAgree F) p.citations q.citations := by
  have hgrowth := h.growthHierarchy
  unfold ContextPacket.citations
  rw [h.sourceIdentity]
  generalize p.growthHierarchy = g at hgrowth ⊢
  generalize q.growthHierarchy = g' at hgrowth ⊢
  refine .cons ⟨rfl, .refl _⟩ (List.rel_append (List.rel_append (List.rel_append (List.rel_append (List.rel_append
    (List.rel_append ?_ ?_) ?_) ?_) ?_) ?_) ?_)
  · exact List.rel_flatMap h.explicitEntryAnchors fun _ _ => ExplicitEntryAnchor.citations_agree
  · exact List.rel_flatMap h.trackingItems fun _ _ => TrackingItem.citations_agree
  · exact List.rel_flatMap h.hierarchyItems fun _ _ => HierarchyItem.citations_agree
  · cases hgrowth with
    | none => exact .nil
    | some hg => exact citeAgree_map hg.2.2 _
  · exact citeAgree_map h.overlays _
  · exact citeAgree_map h.independentAccounting _
  · exact List.rel_map (fun _ _ hx => ⟨rfl, hx⟩) h.expansionDescriptors

end

section
variable {F : Type}

theorem agree_instances {required listed : List Text} {xs ys : List (Instance required listed)} (h : Alike F xs ys) :
    Fact.Agree F (instances xs) (instances ys) := by
  refine Fact.agree_tuple ?_
  rw [List.forall₂_map_left_iff, List.forall₂_map_right_iff]
  exact h

theorem RefAgree.fact {r s : Reference} (h : RefAgree F r s) : Fact.Agree F r.fact s.fact := by
  obtain ⟨htoken, hkind, hpayload⟩ := h
  have hslot (kind : EvidenceReferenceKind) : Fact.Agree F (r.slot kind) (s.slot kind) := by
    rw [Reference.slot, Reference.slot, hkind]
    split_ifs
    · exact hpayload
    · exact .refl _
  rw [Reference.fact, Reference.fact, htoken, hkind]
  exact Fact.agree_dataclass _ (.cons (.refl _) (.cons (.refl _) (.cons (hslot _) (.cons (hslot _) (.cons (hslot _)
    (.cons (hslot _) (.cons (hslot _) .nil)))))))

theorem ContextGrowthHierarchy.agree {g h : ContextGrowthHierarchy} (hid : g.sourceResultIdentity = h.sourceResultIdentity)
    (hstate : g.state = h.state) (hitems : Alike F g.hierarchyItems h.hierarchyItems) : Fact.Agree F g.fact h.fact := by
  rw [ContextGrowthHierarchy.fact, ContextGrowthHierarchy.fact, hid, hstate]
  exact Fact.agree_dataclass _ (.cons (.refl _) (.cons (.refl _) (.cons (agree_instances hitems) .nil)))

/-- Packets that are alike, their references included, have the same machine object up to the order of keys. -/
theorem ContextPacket.Alike.machineObject {p q : ContextPacket} (h : p.Alike F q)
    (hrefs : List.Forall₂ (RefAgree F) p.evidenceReferences q.evidenceReferences) :
    (Value.dict (p.machineObject F)).sortKeys = (Value.dict (q.machineObject F)).sortKeys := by
  have hgrowth : Fact.Agree F (p.growthHierarchy.elim .none ContextGrowthHierarchy.fact)
      (q.growthHierarchy.elim .none ContextGrowthHierarchy.fact) := by
    have hrel := h.growthHierarchy
    generalize p.growthHierarchy = g at hrel ⊢
    generalize q.growthHierarchy = g' at hrel ⊢
    cases hrel with
    | none => exact .refl _
    | some hg => exact ContextGrowthHierarchy.agree hg.1 hg.2.1 hg.2.2
  have hreferences : Fact.Agree F (.tuple (p.evidenceReferences.map Reference.fact))
      (.tuple (q.evidenceReferences.map Reference.fact)) :=
    Fact.agree_tuple (List.rel_map (fun _ _ hr => RefAgree.fact hr) hrefs)
  have hvalues : List.Forall₂ (Fact.Agree F) p.values q.values := by
    unfold ContextPacket.values
    rw [h.taskDomain, h.userIntent, h.contextBudget, h.projectionMode, h.projectionDigest, h.sourceIdentity,
      h.normalizedRequestScope, h.resolvedPolicySummary, h.diagnosticState, h.contextOmissions]
    simp only [List.forall₂_cons, List.forall₂_nil_left_iff]
    exact ⟨.refl _, .refl _, .refl _, .refl _, .refl _, .refl _, .refl _, .refl _, .refl _,
      Fact.agree_tuple h.sourcePlan, .refl _, agree_instances h.explicitEntryAnchors,
      agree_instances h.trackingItems, agree_instances h.hierarchyItems, hgrowth, agree_instances h.overlays,
      agree_instances h.independentAccounting, agree_instances h.expansionDescriptors, .refl _, hreferences, trivial⟩
  rw [Value.sortKeys_dict, Value.sortKeys_dict, ContextPacket.machineObject, ContextPacket.machineObject,
    Fact.map_machineFields hvalues]

variable [SqliteFloat F]

theorem canonicalText_congr {v w : Value F} (h : v.sortKeys = w.sortKeys) : canonicalText v = canonicalText w := by
  rw [← canonicalText_sortKeys, h, canonicalText_sortKeys]

theorem canonicalJson_congr {v w : Value F} (h : v.sortKeys = w.sortKeys) : canonicalJson v = canonicalJson w := by
  have hsafe : v.safe = w.safe := by rw [← Value.safe_sortKeys, h, Value.safe_sortKeys]
  rw [canonicalJson, canonicalJson, hsafe, canonicalText_congr h]

theorem referenceToken_congr (scope : List Byte) {a b : Citation} (h : CiteAgree F a b) :
    referenceToken F scope a = referenceToken F scope b := by
  have hpayload : (Value.dict [(txt "kind", .str a.1.value), (txt "payload", a.2.machineValue F)]).sortKeys =
      (Value.dict [(txt "kind", .str b.1.value), (txt "payload", b.2.machineValue F)]).sortKeys := by
    rw [Value.sortKeys_dict, Value.sortKeys_dict, h.1]
    simp only [List.map_cons, List.map_nil]
    rw [show (a.2.machineValue F).sortKeys = (b.2.machineValue F).sortKeys from h.2]
  rw [referenceToken, referenceToken, canonicalJson_congr hpayload]

theorem reference_congr {scope : List Byte} {a b : Citation} (h : CiteAgree F a b) {r : Reference}
    (hr : reference F scope a = .ok r) : ∃ s, reference F scope b = .ok s ∧ RefAgree F r s := by
  obtain ⟨token, htoken, hr⟩ := bind_eq_ok.1 hr
  obtain rfl := pure_eq_ok.1 hr
  rw [referenceToken_congr scope h] at htoken
  exact ⟨⟨token, b⟩, bind_eq_ok.2 ⟨token, htoken, rfl⟩, rfl, h⟩

theorem references_congr {scope : List Byte} {cs ds : List Citation} (h : List.Forall₂ (CiteAgree F) cs ds)
    {rs : List Reference} (hrs : cs.mapM (reference F scope) = .ok rs) :
    ∃ ss, ds.mapM (reference F scope) = .ok ss ∧ List.Forall₂ (RefAgree F) rs ss := by
  simp only [mapM_eq_ok] at hrs ⊢
  induction h generalizing rs with
  | nil => cases hrs; exact ⟨[], .nil, .nil⟩
  | cons hcd _ ih =>
    cases hrs with
    | cons hr hrs =>
      obtain ⟨s, hs, hagree⟩ := reference_congr hcd hr
      obtain ⟨ss, hss, hagrees⟩ := ih hrs
      exact ⟨s :: ss, .cons hs hss, .cons hagree hagrees⟩

theorem packetReferences_congr {p q : ContextPacket} (h : p.Alike F q)
    (hnone : p.evidenceReferences = []) (hnone' : q.evidenceReferences = []) {rs : List Reference}
    (hrs : packetReferences F p = .ok rs) :
    ∃ ss, packetReferences F q = .ok ss ∧ List.Forall₂ (RefAgree F) rs ss := by
  obtain ⟨scope, hscope, hrs⟩ := bind_eq_ok.1 hrs
  obtain ⟨values, hvalues, hrs⟩ := bind_eq_ok.1 hrs
  obtain rfl := pure_eq_ok.1 hrs
  have hobject := h.machineObject (by rw [hnone, hnone']; exact .nil)
  have hscope' : packetScope F q = .ok scope := by rw [← hscope, packetScope, packetScope, canonicalJson_congr hobject]
  obtain ⟨values', hvalues', hagree⟩ := references_congr h.citations hvalues
  refine ⟨uniqueReferences values', bind_eq_ok.2 ⟨scope, hscope', bind_eq_ok.2 ⟨values', hvalues', rfl⟩⟩, ?_⟩
  have htoken (r s : Reference) (hrs : RefAgree F r s) : r.token = s.token := hrs.1
  exact forall₂_sortedBy htoken (forall₂_collectBy htoken hagree)

end

/-! ## A packet that was built -/

/-- Another order of the same projection, which keeps its digest. -/
structure ObservationProjection.Permuted (p q : ObservationProjection) : Prop where
  facts : p.facts.Permuted q.facts
  projectionDigest : p.projectionDigest = q.projectionDigest

section
variable {F : Type} {projection projection' : ObservationProjection}

theorem draftPacket_alike (hperm : projection.Permuted projection') {lists lists' : PacketLists}
    (hlists : lists.Alike F lists') (userIntent : UserIntentContext) (budget : ContextBudget)
    (references references' : List Reference) :
    ContextPacket.Alike F { draftPacket projection userIntent budget lists with evidenceReferences := references }
      { draftPacket projection' userIntent budget lists' with evidenceReferences := references' } where
  taskDomain := by simp only [draftPacket, taskDomainForProjection, hperm.facts.mode]
  userIntent := rfl
  contextBudget := rfl
  projectionMode := hperm.facts.mode
  projectionDigest := hperm.projectionDigest
  sourceIdentity := hperm.facts.sourceIdentity
  normalizedRequestScope := hperm.facts.normalizedRequest
  resolvedPolicySummary := hperm.facts.resolvedPolicy
  sourcePlan := hlists.sourcePlan
  diagnosticState := hperm.facts.diagnosticState
  explicitEntryAnchors := hlists.anchors
  trackingItems := hlists.tracking
  hierarchyItems := hlists.hierarchy
  growthHierarchy := by
    have hpair := hperm.facts.pairTracking
    dsimp only [draftPacket]
    generalize projection.facts.pairTracking = a at hpair ⊢
    generalize projection'.facts.pairTracking = b at hpair ⊢
    cases hpair with
    | none => exact .none
    | some hbody => exact .some ⟨hbody.sourceResultIdentity, hbody.state, hlists.growth⟩
  overlays := hlists.overlays
  independentAccounting := hlists.accounting
  expansionDescriptors := hlists.descriptors
  contextOmissions := hlists.omissions

end

section
variable (F : Type) [SqliteFloat F] (projection : ObservationProjection) (userIntent : UserIntentContext)
  (budget : ContextBudget)

/-- The parts of a packet that was built. -/
structure Built (packet : ContextPacket) (lists : PacketLists) (references : List Reference) : Prop where
  budgetOk : validateBudget budget = .ok ()
  intentOk : validateIntent userIntent = .ok ()
  listsOk : packetLists F projection.facts budget = .ok lists
  referencesOk : packetReferences F (draftPacket projection userIntent budget lists) = .ok references
  digestOk : packetDigest (packet.packet F) = .ok packet.packetDigest
  packetEq : packet = { draftPacket projection userIntent budget lists with
    evidenceReferences := references
    packetDigest := packet.packetDigest }

end

section
variable {F : Type} [SqliteFloat F] {projection projection' : ObservationProjection} {userIntent : UserIntentContext}
  {budget : ContextBudget} {packet : ContextPacket} {lists : PacketLists} {references : List Reference}

theorem buildContextPacket_eq_ok : buildContextPacket F projection userIntent budget = .ok packet ↔
    ∃ lists references, Built F projection userIntent budget packet lists references := by
  simp only [buildContextPacket, bind_eq_ok, orRaised_eq_ok, pure_eq_ok]
  constructor
  · rintro ⟨⟨⟩, hbudget, ⟨⟩, hintent, lists, hlists, references, hreferences, digest, hdigest, rfl⟩
    exact ⟨lists, references, hbudget, hintent, hlists, hreferences, hdigest, rfl⟩
  · rintro ⟨lists, references, h⟩
    have hdigest := h.digestOk
    rw [h.packetEq] at hdigest
    exact ⟨(), h.budgetOk, (), h.intentOk, lists, h.listsOk, references, h.referencesOk, packet.packetDigest, hdigest,
      h.packetEq.symm⟩

/-- The order of the facts leaves no trace in the packet. -/
theorem buildContextPacket_perm (hperm : projection.Permuted projection')
    (h : buildContextPacket F projection userIntent budget = .ok packet) : ∃ packet',
      buildContextPacket F projection' userIntent budget = .ok packet' ∧
        canonicalText (.dict (packet.machineObject F)) = canonicalText (.dict (packet'.machineObject F)) ∧
        packet.packetDigest = packet'.packetDigest := by
  obtain ⟨lists, references, hbuilt⟩ := buildContextPacket_eq_ok.1 h
  obtain ⟨lists', hlists', halike⟩ := packetLists_perm hperm.facts hbuilt.listsOk
  obtain ⟨references', hreferences', hagree⟩ := packetReferences_congr
    (draftPacket_alike hperm halike userIntent budget [] []) rfl rfl hbuilt.referencesOk
  have hobject := (draftPacket_alike hperm halike userIntent budget references references').machineObject hagree
  have hmachine : packet.machineObject F =
      ({ draftPacket projection userIntent budget lists with evidenceReferences := references }).machineObject F := by
    rw [hbuilt.packetEq]
    rfl
  rw [← hmachine] at hobject
  have hdigest : packetDigest (ContextPacket.packet F { draftPacket projection' userIntent budget lists' with
      evidenceReferences := references', packetDigest := packet.packetDigest }) = .ok packet.packetDigest := by
    rw [← hbuilt.digestOk, packetDigest, packetDigest, domainDigest, domainDigest]
    exact congrArg (· >>= _) (canonicalJson_congr hobject.symm)
  exact ⟨_, buildContextPacket_eq_ok.2 ⟨lists', references', hbuilt.budgetOk, hbuilt.intentOk, hlists', hreferences',
    hdigest, rfl⟩, canonicalText_congr hobject, rfl⟩

end

end Steward.Context
