import Steward.Context.Packets

/-!
# Packets that were built

A packet keeps to its budget and accounts for what it leaves out, its references
are those of the facts it holds, each once, and its own validation rejects it
only if the projection carries no digest. `buildContextPacket_spec` collects
this, with the order that leaves no trace.
-/

namespace Steward.Context

open Py Sqlite

/-! ## Citations are given -/

theorem citeOptional_given (kind : EvidenceReferenceKind) (x : Fact) :
    ∀ c ∈ citeOptional kind x, c.2.isNone = false := by
  rw [citeOptional]
  split_ifs with h
  · exact List.forall_mem_nil _
  · exact List.forall_mem_singleton.2 (Bool.eq_false_iff.2 h)

section
variable {required listed : List Text}

theorem Instance.attr_given (x : Instance required listed) {k : Text} (hk : k ∈ required)
    (kind : EvidenceReferenceKind) : ∀ c ∈ [((kind, x.fact.attr k) : Citation)], c.2.isNone = false :=
  List.forall_mem_singleton.2 (x.present k hk)

theorem Instance.items_given (x : Instance required listed) {k : Text} (hk : k ∈ listed)
    (kind : EvidenceReferenceKind) :
    ∀ c ∈ (x.fact.attr k).items.map (fun r => ((kind, r) : Citation)), c.2.isNone = false :=
  List.forall_mem_map.2 (x.members k hk)

theorem attrs_given (xs : List (Instance required listed)) {k : Text} (hk : k ∈ required)
    (kind : EvidenceReferenceKind) :
    ∀ c ∈ xs.map (fun x => ((kind, x.fact.attr k) : Citation)), c.2.isNone = false :=
  List.forall_mem_map.2 fun x _ => x.present k hk

end

theorem ExplicitEntryAnchor.citations_given (x : ExplicitEntryAnchor) : ∀ c ∈ citations x, c.2.isNone = false :=
  List.forall_mem_append.2 ⟨x.attr_given List.mem_cons_self .entry, x.items_given List.mem_cons_self .resultLocal⟩

theorem HierarchyItem.citations_given (x : HierarchyItem) : ∀ c ∈ citations x, c.2.isNone = false :=
  List.forall_mem_append.2 ⟨x.attr_given List.mem_cons_self .resultLocal, x.items_given List.mem_cons_self .resultLocal⟩

theorem TrackingItem.citations_given (x : TrackingItem) : ∀ c ∈ citations x, c.2.isNone = false := by
  simp only [citations, List.forall_mem_append]
  exact ⟨⟨⟨⟨citeOptional_given _ _, citeOptional_given _ _⟩, x.attr_given List.mem_cons_self _⟩,
    citeOptional_given _ _⟩, x.items_given List.mem_cons_self _⟩

/-- A packet cites no `None`. -/
theorem ContextPacket.citations_given (p : ContextPacket) : ∀ c ∈ p.citations, c.2.isNone = false := by
  simp only [citations, List.forall_mem_append, List.forall_mem_cons, List.forall_mem_flatMap]
  refine ⟨⟨⟨⟨⟨⟨⟨p.sourceIdentity.given, fun x _ => x.citations_given⟩, fun x _ => x.citations_given⟩,
    fun x _ => x.citations_given⟩, ?_⟩, attrs_given _ List.mem_cons_self _⟩, attrs_given _ List.mem_cons_self _⟩,
    List.forall_mem_map.2 fun x _ => x.given⟩
  cases p.growthHierarchy with
  | none => exact List.forall_mem_nil _
  | some g => exact attrs_given _ List.mem_cons_self _

/-! ## The references of a packet -/

/-- The references of citations: every citation has its token among them, each token once. -/
structure ReferencesOf (F : Type) [SqliteFloat F] (scope : List Byte) (citations : List Citation)
    (references : List Reference) : Prop where
  once : SortedUnique (references.map Reference.token)
  cited : ∀ r ∈ references, r.cited ∈ citations ∧ referenceToken F scope r.cited = .ok r.token
  complete : ∀ c ∈ citations, ∃ r ∈ references, referenceToken F scope c = .ok r.token

theorem sortedUnique_uniqueReferences (values : List Reference) :
    SortedUnique ((uniqueReferences values).map Reference.token) := by
  have hperm : ((uniqueReferences values).map Reference.token).Perm
      ((collectBy Reference.token values).map Reference.token) := sortedBy_perm.map _
  refine ⟨hperm.nodup_iff.2 (keys_collectBy values).1, sortedBy_unique (.refl _) ?_ fun _ _ _ _ h => h⟩
  exact List.pairwise_map.2 sortedBy_pairwise

theorem mem_uniqueReferences {values : List Reference} {r : Reference} (h : r ∈ uniqueReferences values) : r ∈ values :=
  mem_collectBy (mem_sortedBy.1 h)

theorem exists_uniqueReferences {values : List Reference} {r : Reference} (h : r ∈ values) :
    ∃ s ∈ uniqueReferences values, s.token = r.token := by
  obtain ⟨s, hs, htoken⟩ := List.mem_map.1 (((keys_collectBy values).2 r.token).2 (List.mem_map_of_mem h))
  exact ⟨s, mem_sortedBy.2 hs, htoken⟩

section
variable {F : Type} [SqliteFloat F] {p : ContextPacket} {references : List Reference}

theorem reference_eq_ok {scope : List Byte} {c : Citation} {r : Reference} :
    reference F scope c = .ok r ↔ referenceToken F scope c = .ok r.token ∧ r.cited = c := by
  rw [reference, bind_eq_ok]
  constructor
  · rintro ⟨token, htoken, hr⟩
    obtain rfl := pure_eq_ok.1 hr
    exact ⟨htoken, rfl⟩
  · rintro ⟨htoken, rfl⟩
    exact ⟨_, htoken, rfl⟩

theorem referencesOf_packetReferences (h : packetReferences F p = .ok references) :
    ∃ scope, packetScope F p = .ok scope ∧ ReferencesOf F scope p.citations references := by
  obtain ⟨scope, hscope, h⟩ := bind_eq_ok.1 h
  obtain ⟨values, hvalues, h⟩ := bind_eq_ok.1 h
  obtain rfl := pure_eq_ok.1 h
  rw [mapM_eq_ok] at hvalues
  refine ⟨scope, hscope, sortedUnique_uniqueReferences values, fun r hr => ?_, fun c hc => ?_⟩
  · obtain ⟨c, hc, hcr⟩ := forall₂_mem_right hvalues (mem_uniqueReferences hr)
    obtain ⟨htoken, rfl⟩ := reference_eq_ok.1 hcr
    exact ⟨hc, htoken⟩
  · obtain ⟨r, hr, hcr⟩ := forall₂_mem_left hvalues hc
    obtain ⟨s, hs, htoken⟩ := exists_uniqueReferences hr
    exact ⟨s, hs, htoken ▸ (reference_eq_ok.1 hcr).1⟩

end

/-! ## Validity -/

section
variable {F : Type} {r : Reference}

theorem payload_evidence (r : Reference) (kind : EvidenceReferenceKind) :
    (r.evidence F).payload kind = payloadValue F (r.slot kind) := by
  cases kind <;> rfl

theorem isSome_payload (hgiven : r.cited.2.isNone = false) (kind : EvidenceReferenceKind) :
    ((r.evidence F).payload kind).isSome = decide (r.cited.1 = kind) := by
  rw [payload_evidence, Reference.slot, payloadValue]
  by_cases hkind : r.cited.1 = kind
  · rw [if_pos hkind, if_neg (by rw [hgiven]; exact Bool.false_ne_true), decide_eq_true hkind]
    rfl
  · rw [if_neg hkind, decide_eq_false hkind]
    rfl

/-- A reference has one payload, in the field of its kind. -/
theorem payloadCount_evidence (hgiven : r.cited.2.isNone = false) : payloadCount (r.evidence F) = 1 := by
  have hcount : payloadCount (r.evidence F) =
      [EvidenceReferenceKind.entry, .resultLocal, .accounting, .expansion, .projectionSource].countP
        fun kind => ((r.evidence F).payload kind).isSome := rfl
  rw [hcount]
  simp only [isSome_payload hgiven]
  cases r.cited.1 <;> rfl

variable [SqliteFloat F] {scope : List Byte} {p : ContextPacket} {digest : Text}

theorem supported_taskDomain (projection : ObservationProjection) :
    (taskDomainForProjection projection).supported = true := by
  unfold taskDomainForProjection
  cases projection.facts.mode <;> rfl

theorem contextPacketChecks_iff (hdomain : p.taskDomain.supported = true)
    (hrefs : ReferencesOf F scope p.citations p.evidenceReferences) :
    (∀ c ∈ contextPacketChecks (p.packet F) p.packetDigest, c.1 = false) ↔ p.projectionDigest ≠ [] := by
  have htokens : tokens (p.packet F) = p.evidenceReferences.map Reference.token := by
    rw [tokens, ContextPacket.packet, List.map_map]
    rfl
  have hpayloads : ∀ r ∈ (p.packet F).evidenceReferences, ∀ c ∈
      [check (payloadCount r ≠ 1) "PACKET_REFERENCE_PAYLOAD_INVALID",
        check (payloadCount r = 1 ∧ (r.payload r.kind).isNone) "PACKET_REFERENCE_KIND_INVALID"], c.1 = false := by
    refine List.forall_mem_map.2 fun r hr => ?_
    have hgiven := p.citations_given _ (hrefs.cited r hr).1
    have hkind : ((r.evidence F).payload (r.evidence F).kind).isSome = true :=
      (isSome_payload hgiven _).trans (decide_eq_true rfl)
    simp only [List.forall_mem_cons, check_fst]
    refine ⟨fun h => h (payloadCount_evidence hgiven), fun h => ?_, List.forall_mem_nil _⟩
    rw [← Option.not_isSome, hkind] at h
    exact absurd h.2 Bool.false_ne_true
  unfold contextPacketChecks
  simp only [List.forall_mem_append, List.forall_mem_flatMap, List.forall_mem_cons, check_fst, htokens]
  constructor
  · exact fun h => h.1.2.2.1
  · exact fun h => ⟨⟨fun hv => hv rfl, fun hd => absurd hdomain (hd ▸ Bool.false_ne_true), h, fun hd => hd rfl,
      fun ht => ht hrefs.once, List.forall_mem_nil _⟩, fun r hr => by
        simpa only [List.forall_mem_cons, check_fst] using hpayloads r hr⟩

end

/-! ## Budgets and accounts -/

def ContextPacket.growthItems (p : ContextPacket) : List GrowthHierarchyItem :=
  p.growthHierarchy.elim [] ContextGrowthHierarchy.hierarchyItems

/-- The selected facts keep to the budget; the hierarchy and the growth hierarchy each have the whole limit. -/
structure Bounded (budget : ContextBudget) (p : ContextPacket) : Prop where
  explicitFacts : (p.explicitEntryAnchors.length + p.trackingItems.length : Int) ≤ budget.maxExplicitFacts
  hierarchyItems : (p.hierarchyItems.length : Int) ≤ budget.maxHierarchyItems
  growthItems : (p.growthItems.length : Int) ≤ budget.maxHierarchyItems
  overlays : (p.overlays.length : Int) ≤ budget.maxOverlays
  expansionDescriptors : (p.expansionDescriptors.length : Int) ≤ budget.maxExpansionDescriptors

/-- With `n` omitted facts the selected ones are all there are. -/
def Completes {required listed : List Text} (selected values : List (Instance required listed)) (n : Nat) : Prop :=
  ∃ omitted, (selected ++ omitted).Perm values ∧ omitted.length = n

/-- What the packet declares omitted completes what it holds to what the projection has. -/
structure Accounted (facts : ProjectionFacts) (p : ContextPacket) : Prop where
  anchors : Completes p.explicitEntryAnchors facts.anchors (omittedIn p.contextOmissions .explicitEntryAnchors)
  trackingItems : Completes p.trackingItems facts.trackingItems (omittedIn p.contextOmissions .trackingItems)
  hierarchy : ∃ n m, n + m = omittedIn p.contextOmissions .hierarchyItems ∧
    Completes p.hierarchyItems facts.hierarchy n ∧ Completes p.growthItems facts.growthItems m
  overlays : Completes p.overlays facts.overlays (omittedIn p.contextOmissions .overlays)
  expansionDescriptors : Completes p.expansionDescriptors facts.expansionDescriptors
    (omittedIn p.contextOmissions .expansionDescriptors)
  sourcePlan : p.sourcePlan.Perm facts.sourcePlan
  accounting : p.independentAccounting.Perm facts.accounting

theorem validateBudget_eq_ok {b : ContextBudget} : validateBudget b = .ok () ↔
    0 ≤ b.maxExplicitFacts ∧ 0 ≤ b.maxHierarchyItems ∧ 0 ≤ b.maxOverlays ∧ 0 ≤ b.maxExpansionDescriptors := by
  rw [validateBudget]
  split_ifs with h
  · exact ⟨nofun, fun hb => by omega⟩
  · exact ⟨fun _ => by omega, fun _ => rfl⟩

section
variable {required listed : List Text} {values selected omitted : List (Instance required listed)} {limit : Nat}

theorem Takes.completes (h : Takes values selected omitted limit) : Completes selected values omitted.length :=
  ⟨omitted, h.all, rfl⟩

theorem Takes.le (h : Takes values selected omitted limit) {max : Int} (hmax : 0 ≤ max) (hlimit : limit = max.toNat) :
    (selected.length : Int) ≤ max := by
  have hbounded := h.bounded
  omega

/-- Nothing is taken of nothing. -/
theorem Takes.eq_nil (h : Takes values selected omitted limit) (hvalues : values = []) : selected = [] := by
  have hall := h.all
  rw [hvalues, List.perm_nil, List.append_eq_nil_iff] at hall
  exact hall.1

end

section
variable {F : Type} [SqliteFloat F] {projection : ObservationProjection} {userIntent : UserIntentContext}
  {budget : ContextBudget} {packet : ContextPacket} {lists : PacketLists} {references : List Reference}

theorem growthItems_draftPacket (hselects : Selects projection.facts budget lists) (userIntent : UserIntentContext) :
    (draftPacket projection userIntent budget lists).growthItems = lists.growth := by
  obtain ⟨_, _, -, hgrowth, -⟩ := hselects.hierarchy
  unfold ContextPacket.growthItems draftPacket
  dsimp only
  cases hpair : projection.facts.pairTracking with
  | none =>
    refine (hgrowth.eq_nil ?_).symm
    rw [ProjectionFacts.growthItems, hpair]
    rfl
  | some body => rfl

theorem Built.growthItems_eq (h : Built F projection userIntent budget packet lists references) :
    packet.growthItems = lists.growth := by
  rw [h.packetEq]
  exact growthItems_draftPacket (packetLists_selects h.listsOk) userIntent

theorem Built.bounded (h : Built F projection userIntent budget packet lists references) : Bounded budget packet := by
  have hselects := packetLists_selects h.listsOk
  obtain ⟨hexplicit, hhierarchy, hoverlays, hdescriptors⟩ := validateBudget_eq_ok.1 h.budgetOk
  obtain ⟨_, hanchors, -⟩ := hselects.anchors
  obtain ⟨_, htracking, -⟩ := hselects.tracking
  obtain ⟨_, _, htree, hgrowth, -⟩ := hselects.hierarchy
  obtain ⟨_, hover, -⟩ := hselects.overlays
  obtain ⟨_, hdesc, -⟩ := hselects.descriptors
  have hgrowthItems : (packet.growthItems.length : Int) ≤ budget.maxHierarchyItems := by
    rw [h.growthItems_eq]
    exact hgrowth.le hhierarchy rfl
  have hfacts : (lists.anchors.length + lists.tracking.length : Int) ≤ budget.maxExplicitFacts := by
    have ha := hanchors.bounded
    have ht := htracking.bounded
    omega
  rw [h.packetEq] at hgrowthItems ⊢
  exact ⟨hfacts, htree.le hhierarchy rfl, hgrowthItems, hover.le hoverlays rfl, hdesc.le hdescriptors rfl⟩

theorem Built.accounted (h : Built F projection userIntent budget packet lists references) :
    Accounted projection.facts packet := by
  have hselects := packetLists_selects h.listsOk
  obtain ⟨_, hanchors, ha⟩ := hselects.anchors
  obtain ⟨_, htracking, ht⟩ := hselects.tracking
  obtain ⟨_, omittedGrowth, htree, hgrowth, hh⟩ := hselects.hierarchy
  obtain ⟨_, hover, ho⟩ := hselects.overlays
  obtain ⟨_, hdesc, hd⟩ := hselects.descriptors
  have hgrowthItems : Completes packet.growthItems projection.facts.growthItems omittedGrowth.length := by
    rw [h.growthItems_eq]
    exact hgrowth.completes
  rw [h.packetEq] at hgrowthItems ⊢
  exact {
    anchors := ha ▸ hanchors.completes
    trackingItems := ht ▸ htracking.completes
    hierarchy := ⟨_, _, hh, htree.completes, hgrowthItems⟩
    overlays := ho ▸ hover.completes
    expansionDescriptors := hd ▸ hdesc.completes
    sourcePlan := hselects.sourcePlan
    accounting := hselects.accounting }

/-! ## Projections that are accepted -/

section
variable (F : Type) [SqliteFloat F]

/-- `canonical_json` accepts what the packet takes over. -/
structure Encodable (projection : ObservationProjection) (userIntent : UserIntentContext) : Prop where
  userIntent : Fact.canonical F userIntent.fact = true
  projectionDigest : projection.projectionDigest.encodable = true
  sourceIdentity : Fact.canonical F projection.facts.sourceIdentity.fact = true
  normalizedRequest : Fact.canonical F projection.facts.normalizedRequest.fact = true
  resolvedPolicy : Fact.canonical F projection.facts.resolvedPolicy = true
  diagnosticState : Fact.canonical F projection.facts.diagnosticState = true
  sourcePlan : ∀ x ∈ projection.facts.sourcePlan, Fact.canonical F x = true
  anchors : ∀ x ∈ projection.facts.anchors, Fact.canonical F x.fact = true
  trackingItems : ∀ x ∈ projection.facts.trackingItems, Fact.canonical F x.fact = true
  hierarchy : ∀ x ∈ projection.facts.hierarchy, Fact.canonical F x.fact = true
  growth : ∀ body ∈ projection.facts.pairTracking, Fact.canonical F body.growthHierarchy.state = true ∧
    Fact.canonical F body.growthHierarchy.sourceResultIdentity = true
  growthItems : ∀ x ∈ projection.facts.growthItems, Fact.canonical F x.fact = true
  overlays : ∀ x ∈ projection.facts.overlays, Fact.canonical F x.fact = true
  accounting : ∀ x ∈ projection.facts.accounting, Fact.canonical F x.fact = true
  expansionDescriptors : ∀ x ∈ projection.facts.expansionDescriptors, Fact.canonical F x.fact = true

end

section
variable {F : Type} [SqliteFloat F] {required listed : List Text}

theorem sortedFacts_ok {α : Type} (fact : α → Fact) {xs : List α} (h : ∀ x ∈ xs, Fact.canonical F (fact x) = true) :
    ∃ ys, Fact.sortedFacts F fact xs = .ok ys := ⟨_, Fact.sortedFacts_eq_ok.2 ⟨h, rfl⟩⟩

theorem takeFacts_ok {values : List (Instance required listed)} (h : ∀ x ∈ values, Fact.canonical F x.fact = true)
    (limit : Nat) : ∃ selected omitted, takeFacts F values limit = .ok (selected, omitted) :=
  ⟨_, _, takeFacts_eq_ok.2 ⟨_, Fact.sortedFacts_eq_ok.2 ⟨h, rfl⟩, rfl, rfl⟩⟩

theorem Takes.canonical {values selected omitted : List (Instance required listed)} {limit : Nat}
    (h : Takes values selected omitted limit) (hvalues : ∀ x ∈ values, Fact.canonical F x.fact = true) :
    ∀ x ∈ selected, Fact.canonical F x.fact = true :=
  fun x hx => hvalues x (h.all.mem_iff.1 (List.mem_append_left _ hx))

theorem canonical_instances {xs : List (Instance required listed)} (h : ∀ x ∈ xs, Fact.canonical F x.fact = true) :
    Fact.canonical F (instances xs) = true := Fact.canonical_tuple.2 (List.forall_mem_map.2 h)

theorem ContextOmission.canonical (o : ContextOmission) : Fact.canonical F o.fact = true := by
  refine Fact.canonical_dataclass _ (by decide) ?_
  simp only [List.forall_mem_cons]
  exact ⟨by cases o.category <;> rfl, rfl, rfl, rfl, List.forall_mem_nil _⟩

theorem ContextBudget.canonical (b : ContextBudget) : Fact.canonical F b.fact = true := by
  refine Fact.canonical_dataclass _ (by decide) ?_
  simp only [List.forall_mem_cons]
  exact ⟨rfl, rfl, rfl, rfl, List.forall_mem_nil _⟩

theorem Reference.canonical {r : Reference} (htoken : r.token.encodable = true)
    (hcited : Fact.canonical F r.cited.2 = true) : Fact.canonical F r.fact = true := by
  have hslot (kind : EvidenceReferenceKind) : Fact.canonical F (r.slot kind) = true := by
    rw [Reference.slot]
    split_ifs
    · exact hcited
    · rfl
  refine Fact.canonical_dataclass _ (by decide) ?_
  simp only [List.forall_mem_cons]
  exact ⟨by cases r.cited.1 <;> rfl, htoken, hslot _, hslot _, hslot _, hslot _, hslot _, List.forall_mem_nil _⟩

variable {projection : ObservationProjection} {userIntent : UserIntentContext} {budget : ContextBudget}

theorem packetLists_ok (h : Encodable F projection userIntent) (budget : ContextBudget) :
    ∃ lists, packetLists F projection.facts budget = .ok lists := by
  obtain ⟨anchors, oa, hanchors⟩ := takeFacts_ok h.anchors budget.maxExplicitFacts.toNat
  obtain ⟨tracking, ot, htracking⟩ :=
    takeFacts_ok h.trackingItems (budget.maxExplicitFacts.toNat - anchors.length)
  obtain ⟨hierarchy, oh, hhierarchy⟩ := takeFacts_ok h.hierarchy budget.maxHierarchyItems.toNat
  obtain ⟨growth, og, hgrowth⟩ := takeFacts_ok h.growthItems budget.maxHierarchyItems.toNat
  obtain ⟨overlays, oo, hoverlays⟩ := takeFacts_ok h.overlays budget.maxOverlays.toNat
  obtain ⟨descriptors, od, hdescriptors⟩ :=
    takeFacts_ok h.expansionDescriptors budget.maxExpansionDescriptors.toNat
  obtain ⟨plan, hplan⟩ := sortedFacts_ok id h.sourcePlan
  obtain ⟨accounting, haccounting⟩ := sortedFacts_ok Instance.fact h.accounting
  have hcanonical (os : List ContextOmission) : ∀ o ∈ os, Fact.canonical F o.fact = true := fun o _ => o.canonical
  obtain ⟨omissions, homissions⟩ := sortedFacts_ok ContextOmission.fact (hcanonical
    (omission .explicitEntryAnchors oa.length ++ omission .trackingItems ot.length ++
      omission .hierarchyItems (oh.length + og.length) ++ omission .overlays oo.length ++
      omission .expansionDescriptors od.length))
  refine ⟨⟨anchors, tracking, hierarchy, growth, overlays, descriptors, plan, accounting, omissions⟩, ?_⟩
  simp only [packetLists, hanchors, htracking, hhierarchy, hgrowth, hoverlays, hdescriptors, hplan, haccounting,
    homissions, ok_bind_ok, orRaised_ok]
  rfl

end

section
variable {F : Type} [SqliteFloat F]

theorem citeOptional_canonical {kind : EvidenceReferenceKind} {x : Fact} (h : Fact.canonical F x = true) :
    ∀ c ∈ citeOptional kind x, Fact.canonical F c.2 = true := by
  rw [citeOptional]
  split_ifs
  · exact List.forall_mem_nil _
  · exact List.forall_mem_singleton.2 h

theorem items_canonical {kind : EvidenceReferenceKind} {x : Fact} (h : Fact.canonical F x = true) (k : Text) :
    ∀ c ∈ (x.attr k).items.map (fun r => ((kind, r) : Citation)), Fact.canonical F c.2 = true :=
  List.forall_mem_map.2 (Fact.canonical_items (Fact.canonical_attr h k))

theorem ExplicitEntryAnchor.citations_canonical {x : ExplicitEntryAnchor} (h : Fact.canonical F x.fact = true) :
    ∀ c ∈ citations x, Fact.canonical F c.2 = true :=
  List.forall_mem_cons.2 ⟨Fact.canonical_attr h _, items_canonical h _⟩

theorem HierarchyItem.citations_canonical {x : HierarchyItem} (h : Fact.canonical F x.fact = true) :
    ∀ c ∈ citations x, Fact.canonical F c.2 = true :=
  List.forall_mem_cons.2 ⟨Fact.canonical_attr h _, items_canonical h _⟩

theorem TrackingItem.citations_canonical {x : TrackingItem} (h : Fact.canonical F x.fact = true) :
    ∀ c ∈ citations x, Fact.canonical F c.2 = true := by
  have hattr (k : Text) := Fact.canonical_attr h k
  simp only [citations, List.forall_mem_append]
  exact ⟨⟨⟨⟨citeOptional_canonical (hattr _), citeOptional_canonical (hattr _)⟩,
    List.forall_mem_singleton.2 (hattr _)⟩, citeOptional_canonical (hattr _)⟩, items_canonical h _⟩

variable {p : ContextPacket}

theorem canonical_of_instances {required listed : List Text} {xs : List (Instance required listed)}
    (h : Fact.canonical F (instances xs) = true) : ∀ x ∈ xs, Fact.canonical F x.fact = true :=
  List.forall_mem_map.1 (Fact.canonical_tuple.1 h)

theorem ContextPacket.citations_canonical (h : ∀ v ∈ p.values, Fact.canonical F v = true) :
    ∀ c ∈ p.citations, Fact.canonical F c.2 = true := by
  simp only [values, List.forall_mem_cons] at h
  obtain ⟨-, -, -, -, -, -, hsource, -, -, -, -, hanchors, htracking, hhierarchy, hgrowth, hoverlays, haccounting,
    hdescriptors, -⟩ := h
  have hattr {required listed : List Text} {xs : List (Instance required listed)}
      (hxs : ∀ x ∈ xs, Fact.canonical F x.fact = true) (kind : EvidenceReferenceKind) (k : Text) :
      ∀ c ∈ xs.map (fun x => ((kind, x.fact.attr k) : Citation)), Fact.canonical F c.2 = true :=
    List.forall_mem_map.2 fun x hx => Fact.canonical_attr (hxs x hx) k
  simp only [citations, List.forall_mem_append, List.forall_mem_cons, List.forall_mem_flatMap]
  refine ⟨⟨⟨⟨⟨⟨⟨hsource, fun x hx => ExplicitEntryAnchor.citations_canonical (canonical_of_instances hanchors x hx)⟩,
    fun x hx => TrackingItem.citations_canonical (canonical_of_instances htracking x hx)⟩,
    fun x hx => HierarchyItem.citations_canonical (canonical_of_instances hhierarchy x hx)⟩, ?_⟩,
    hattr (canonical_of_instances hoverlays) _ _⟩, hattr (canonical_of_instances haccounting) _ _⟩,
    List.forall_mem_map.2 (canonical_of_instances hdescriptors)⟩
  cases hg : p.growthHierarchy with
  | none => exact List.forall_mem_nil _
  | some g =>
    rw [hg] at hgrowth
    exact hattr (canonical_of_instances (Fact.canonical_attr hgrowth (txt "hierarchy_items"))) _ _

theorem packetReferences_ok (h : ∀ v ∈ p.values, Fact.canonical F v = true) :
    ∃ references, packetReferences F p = .ok references ∧ ∀ r ∈ references, Fact.canonical F r.fact = true := by
  have hscope : (Value.dict (p.machineObject F)).safe = true := Fact.safe_machineFields (by decide) h
  obtain ⟨scope, hscope⟩ : ∃ scope, packetScope F p = .ok scope :=
    ⟨_, bind_eq_ok.2 ⟨_, canonicalJson_eq_ok.2 ⟨hscope, rfl⟩, rfl⟩⟩
  have hreference : ∀ c ∈ p.citations, ∃ r, reference F scope c = .ok r ∧ Fact.canonical F r.fact = true := by
    intro c hc
    have hcited := ContextPacket.citations_canonical h c hc
    have hsafe : (Value.dict [(txt "kind", .str c.1.value), (txt "payload", c.2.machineValue F)]).safe = true := by
      refine Value.safe_dict.2 ⟨show ∀ k ∈ [txt "kind", txt "payload"], k.encodable = true by decide, ?_⟩
      refine List.forall_mem_cons.2 ⟨?_, List.forall_mem_singleton.2 hcited⟩
      cases c.1 <;> rfl
    obtain ⟨token, htoken, hencodable⟩ : ∃ token, referenceToken F scope c = .ok token ∧ token.encodable = true :=
      ⟨_, bind_eq_ok.2 ⟨_, canonicalJson_eq_ok.2 ⟨hsafe, rfl⟩, rfl⟩, sha256_encodable _⟩
    exact ⟨⟨token, c⟩, reference_eq_ok.2 ⟨htoken, rfl⟩, Reference.canonical hencodable hcited⟩
  obtain ⟨values, hvalues⟩ := ok_mapM.2 fun c hc => (hreference c hc).imp fun _ hr => hr.1
  refine ⟨uniqueReferences values, bind_eq_ok.2 ⟨scope, hscope, bind_eq_ok.2 ⟨values, hvalues, rfl⟩⟩, fun r hr => ?_⟩
  obtain ⟨c, hc, hcr⟩ := forall₂_mem_right (mapM_eq_ok.1 hvalues) (mem_uniqueReferences hr)
  obtain ⟨s, hs, hcanonical⟩ := hreference c hc
  rw [hcr] at hs
  exact Except.ok.inj hs ▸ hcanonical

variable {projection : ObservationProjection} {userIntent : UserIntentContext} {budget : ContextBudget}
  {lists : PacketLists}

theorem canonical_values_draftPacket (h : Encodable F projection userIntent)
    (hlists : packetLists F projection.facts budget = .ok lists) (references : List Reference)
    (hreferences : ∀ r ∈ references, Fact.canonical F r.fact = true) :
    ∀ v ∈ ({ draftPacket projection userIntent budget lists with evidenceReferences := references }).values,
      Fact.canonical F v = true := by
  have hselects := packetLists_selects hlists
  obtain ⟨_, hanchors, -⟩ := hselects.anchors
  obtain ⟨_, htracking, -⟩ := hselects.tracking
  obtain ⟨_, _, htree, hgrowth, -⟩ := hselects.hierarchy
  obtain ⟨_, hoverlays, -⟩ := hselects.overlays
  obtain ⟨_, hdescriptors, -⟩ := hselects.descriptors
  have hcontext : Fact.canonical F ((draftPacket projection userIntent budget lists).growthHierarchy.elim .none
      ContextGrowthHierarchy.fact) = true := by
    unfold draftPacket
    dsimp only
    cases hpair : projection.facts.pairTracking with
    | none => rfl
    | some body =>
      obtain ⟨hstate, hidentity⟩ := h.growth body hpair
      refine Fact.canonical_dataclass _ (by decide) ?_
      exact List.forall_mem_cons.2 ⟨hidentity, List.forall_mem_cons.2 ⟨hstate, List.forall_mem_singleton.2
        (canonical_instances (hgrowth.canonical h.growthItems))⟩⟩
  simp only [ContextPacket.values, List.forall_mem_cons]
  refine ⟨rfl, ?_, h.userIntent, ContextBudget.canonical budget, ?_, h.projectionDigest, h.sourceIdentity,
    h.normalizedRequest, h.resolvedPolicy, Fact.canonical_tuple.2 fun x hx => h.sourcePlan x (hselects.sourcePlan.mem_iff.1 hx),
    h.diagnosticState, canonical_instances (hanchors.canonical h.anchors),
    canonical_instances (htracking.canonical h.trackingItems), canonical_instances (htree.canonical h.hierarchy), hcontext,
    canonical_instances (hoverlays.canonical h.overlays),
    canonical_instances fun x hx => h.accounting x (hselects.accounting.mem_iff.1 hx),
    canonical_instances (hdescriptors.canonical h.expansionDescriptors),
    Fact.canonical_tuple.2 (List.forall_mem_map.2 fun o _ => o.canonical),
    Fact.canonical_tuple.2 (List.forall_mem_map.2 hreferences), List.forall_mem_nil _⟩
  · unfold draftPacket taskDomainForProjection
    dsimp only
    cases projection.facts.mode <;> rfl
  · unfold draftPacket
    dsimp only
    cases projection.facts.mode <;> rfl

/-- A projection that can be encoded is accepted, with a budget and an intent that are valid. -/
theorem exists_buildContextPacket (hbudget : validateBudget budget = .ok ()) (hintent : validateIntent userIntent = .ok ())
    (h : Encodable F projection userIntent) : ∃ packet, buildContextPacket F projection userIntent budget = .ok packet := by
  obtain ⟨lists, hlists⟩ := packetLists_ok h budget
  obtain ⟨references, hreferences, hcanonical⟩ := packetReferences_ok
    (canonical_values_draftPacket h hlists [] (List.forall_mem_nil _))
  have hsafe : (Value.dict (ContextPacket.machineObject F { draftPacket projection userIntent budget lists with
      evidenceReferences := references })).safe = true :=
    Fact.safe_machineFields (by decide) (canonical_values_draftPacket h hlists references hcanonical)
  obtain ⟨digest, hdigest⟩ : ∃ digest, packetDigest (ContextPacket.packet F
      { draftPacket projection userIntent budget lists with evidenceReferences := references }) = .ok digest :=
    ⟨_, domainDigest_eq_ok.2 ⟨hsafe, rfl⟩⟩
  exact ⟨{ draftPacket projection userIntent budget lists with evidenceReferences := references, packetDigest := digest },
    buildContextPacket_eq_ok.2 ⟨lists, references, hbudget, hintent, hlists, hreferences, hdigest, rfl⟩⟩

end

/-! ## What a packet is that was built -/

/-- The packet without its references, whose canonical bytes the tokens are made with. -/
def ContextPacket.unreferenced (p : ContextPacket) : ContextPacket := { p with evidenceReferences := [] }

theorem Built.referencesOf (h : Built F projection userIntent budget packet lists references) :
    ∃ scope, packetScope F packet.unreferenced = .ok scope ∧
      ReferencesOf F scope packet.citations packet.evidenceReferences := by
  obtain ⟨scope, hscope, hreferences⟩ := referencesOf_packetReferences h.referencesOk
  rw [h.packetEq]
  exact ⟨scope, hscope, hreferences⟩

/-- Only the digest of the projection can fail the packet. -/
theorem Built.validity (h : Built F projection userIntent budget packet lists references) :
    ∃ v, validateContextPacket F (packet.packet F) = .ok v ∧ (v = [] ↔ projection.projectionDigest ≠ []) := by
  obtain ⟨scope, -, hreferences⟩ := h.referencesOf
  have hdomain : packet.taskDomain.supported = true := by
    rw [h.packetEq]
    exact supported_taskDomain projection
  have hprojection : packet.projectionDigest = projection.projectionDigest := by
    rw [h.packetEq]
    rfl
  refine ⟨_, bind_eq_ok.2 ⟨_, h.digestOk, rfl⟩, ?_⟩
  rw [violations_eq_nil, contextPacketChecks_iff hdomain hreferences, hprojection]

/-- What `build_context_packet` promises of a packet. -/
theorem buildContextPacket_spec (h : buildContextPacket F projection userIntent budget = .ok packet) :
    (∃ v, validateContextPacket F (packet.packet F) = .ok v ∧ (v = [] ↔ projection.projectionDigest ≠ [])) ∧
      Bounded budget packet ∧ Accounted projection.facts packet ∧
      (∃ scope, packetScope F packet.unreferenced = .ok scope ∧
        ReferencesOf F scope packet.citations packet.evidenceReferences) ∧
      ∀ projection', projection.Permuted projection' → ∃ packet',
        buildContextPacket F projection' userIntent budget = .ok packet' ∧
          canonicalText (.dict (packet.machineObject F)) = canonicalText (.dict (packet'.machineObject F)) ∧
          packet.packetDigest = packet'.packetDigest := by
  obtain ⟨lists, references, hbuilt⟩ := buildContextPacket_eq_ok.1 h
  exact ⟨hbuilt.validity, hbuilt.bounded, hbuilt.accounted, hbuilt.referencesOf,
    fun _ hperm => buildContextPacket_perm hperm h⟩

end

/-! ## One anchor in each body -/

namespace Sample

def source : ProjectionSourceIdentity := ⟨.str (txt "snapshot-1"), rfl, List.forall_mem_nil _, List.forall_mem_nil _⟩

def anchor : ExplicitEntryAnchor where
  fact := .dataclass [txt "entry_reference", txt "result_references"] (by decide) [.str (txt "a.txt"), .tuple []]
  given := rfl
  present := by decide
  members := by decide

/-- Facts without a body. -/
def facts (mode : ProjectionMode) : ProjectionFacts where
  mode := mode
  normalizedRequest := ⟨none, none⟩
  resolvedPolicy := .none
  sourceIdentity := source
  sourcePlan := []
  diagnosticState := .none
  accounting := []
  expansionDescriptors := []
  snapshotDiagnostic := none
  pairTracking := none

def snapshotProjection : ObservationProjection :=
  ⟨{ facts .snapshotDiagnostic with snapshotDiagnostic := some ⟨[], [anchor], [], [], []⟩ }, txt "projection"⟩

def pairProjection : ObservationProjection :=
  ⟨{ facts .pairTracking with pairTracking := some ⟨[], [anchor], ⟨.none, .none, []⟩, []⟩ }, []⟩

def userIntent : UserIntentContext := ⟨txt "What is there?", none, none⟩

def budget : ContextBudget := ⟨0, 0, 0, 0⟩

theorem snapshotProjection_encodable : Encodable Integral snapshotProjection userIntent where
  userIntent := by decide
  projectionDigest := by decide
  sourceIdentity := by decide
  normalizedRequest := by decide
  resolvedPolicy := by decide
  diagnosticState := by decide
  sourcePlan := by decide
  anchors := by decide
  trackingItems := by decide
  hierarchy := by decide
  growth := nofun
  growthItems := by decide
  overlays := by decide
  accounting := by decide
  expansionDescriptors := by decide

theorem pairProjection_encodable : Encodable Integral pairProjection userIntent where
  userIntent := by decide
  projectionDigest := by decide
  sourceIdentity := by decide
  normalizedRequest := by decide
  resolvedPolicy := by decide
  diagnosticState := by decide
  sourcePlan := by decide
  anchors := by decide
  trackingItems := by decide
  hierarchy := by decide
  growth := fun body hbody => by cases hbody; decide
  growthItems := by decide
  overlays := by decide
  accounting := by decide
  expansionDescriptors := by decide

end Sample

/-- The anchor of a snapshot that does not fit is counted as an omission, and the packet is valid. -/
theorem snapshot_packet_valid : ∃ packet,
    buildContextPacket Integral Sample.snapshotProjection Sample.userIntent Sample.budget = .ok packet ∧
      validateContextPacket Integral (packet.packet Integral) = .ok [] ∧
      omittedIn packet.contextOmissions .explicitEntryAnchors = 1 := by
  have hbudget : validateBudget Sample.budget = .ok () := rfl
  obtain ⟨packet, h⟩ := exists_buildContextPacket hbudget rfl Sample.snapshotProjection_encodable
  obtain ⟨⟨v, hv, hvalid⟩, hbounded, haccounted, -⟩ := buildContextPacket_spec h
  have hnil : v = [] := hvalid.2 (by decide)
  obtain ⟨omitted, hperm, hlength⟩ := haccounted.anchors
  have hall : packet.explicitEntryAnchors.length + omitted.length = 1 := by
    rw [← List.length_append, hperm.length_eq]
    rfl
  have hzero : (packet.explicitEntryAnchors.length + packet.trackingItems.length : Int) ≤ 0 := hbounded.explicitFacts
  exact ⟨packet, h, hnil ▸ hv, by omega⟩

/-- The anchors of a pair are neither taken nor counted, and a projection without a digest is accepted, though its
packet is not valid. -/
theorem pair_packet_invalid : Sample.pairProjection.facts.pairTracking.map PairTrackingBody.explicitEntryAnchors =
      some [Sample.anchor] ∧
    ∃ packet, buildContextPacket Integral Sample.pairProjection Sample.userIntent Sample.budget = .ok packet ∧
      packet.explicitEntryAnchors.length + omittedIn packet.contextOmissions .explicitEntryAnchors = 0 ∧
      validateContextPacket Integral (packet.packet Integral) ≠ .ok [] := by
  have hbudget : validateBudget Sample.budget = .ok () := rfl
  obtain ⟨packet, h⟩ := exists_buildContextPacket hbudget rfl Sample.pairProjection_encodable
  obtain ⟨lists, references, hbuilt⟩ := buildContextPacket_eq_ok.1 h
  obtain ⟨omitted, hperm, hlength⟩ := hbuilt.accounted.anchors
  obtain ⟨v, hv, hvalid⟩ := hbuilt.validity
  refine ⟨rfl, packet, h, ?_, fun hnil => ?_⟩
  · rw [← hlength, ← List.length_append, hperm.length_eq]
    rfl
  · rw [hv] at hnil
    exact hvalid.1 (Except.ok.inj hnil) rfl

end Steward.Context
