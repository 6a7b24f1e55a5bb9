import Steward.Analysis.RelationOrder
import Steward.Analysis.Unknown

/-!
# Identifiers of a relation set

Contents determine relations and groups, and different hints yield different
contents unless they share device and inode: then each of them yields the
component of all aliases, once more.
-/

namespace Steward

open Py Sqlite

variable {F : Type} [SqliteFloat F]

/-! ## Contents -/

section

omit [SqliteFloat F]

theorem keys_referenceData (r : SnapshotEntryReference) :
    (keys (α := Value F) [(txt "snapshot_id", .str r.snapshotId), (txt "scope_id", .str r.scopeId),
      (txt "relative_path", .str r.relativePath)]).Nodup := by
  show [txt "snapshot_id", txt "scope_id", txt "relative_path"].Nodup
  decide

theorem wf_referencesData (rs : List SnapshotEntryReference) : (referencesData rs : Value F).wf = true := by
  rw [referencesData, Value.wf_list]
  intro v hv
  obtain ⟨r, -, rfl⟩ := List.mem_map.1 hv
  exact Value.wf_dict.2 ⟨keys_referenceData r, by simp [Value.wf, Value.everywhere, Value.distinctKeys]⟩

/-- References read back from their data. -/
theorem sortKeys_referencesData_injective :
    Function.Injective fun rs => (referencesData rs : Value F).sortKeys := by
  intro rs ss h
  simp only [referencesData, Value.sortKeys_list, Value.list.injEq, List.map_map] at h
  refine List.map_injective_iff.2 (fun r s hrs => ?_) h
  have hsame := lookup_of_sortKeys_eq (keys_referenceData r) (keys_referenceData s) hrs
  have hid : (some (Value.str r.snapshotId) : Option (Value F)) = some (.str s.snapshotId) :=
    hsame (txt "snapshot_id")
  have hscope : (some (Value.str r.scopeId) : Option (Value F)) = some (.str s.scopeId) :=
    hsame (txt "scope_id")
  have hpath : (some (Value.str r.relativePath) : Option (Value F)) = some (.str s.relativePath) :=
    hsame (txt "relative_path")
  exact SnapshotEntryReference.ext (Value.str.inj (Option.some.inj hid)) (Value.str.inj (Option.some.inj hscope))
    (Value.str.inj (Option.some.inj hpath))

theorem keys_itemContent (kind : RelationKind) (certainty : RelationCertainty) (reasonCodes : List Text)
    (groupId : Option Text) (sources targets : List SnapshotEntryReference) :
    (keys (itemContent (F := F) kind certainty reasonCodes groupId sources targets)).Nodup := by
  show [txt "kind", txt "certainty", txt "reason_codes", txt "ambiguity_group_id", txt "source_entries",
    txt "target_entries"].Nodup
  decide

theorem keys_groupContent (sources targets : List SnapshotEntryReference) :
    (keys (groupContent (F := F) sources targets)).Nodup := by
  show [txt "source_entries", txt "target_entries"].Nodup
  decide

theorem wf_itemContent (kind : RelationKind) (certainty : RelationCertainty) (groupId : Option Text)
    (sources targets : List SnapshotEntryReference) :
    (Value.dict (itemContent (F := F) kind certainty [Named.name kind] groupId sources targets)).wf = true := by
  refine Value.wf_dict.2 ⟨keys_itemContent _ _ _ _ _ _, ?_⟩
  have hgroup : (optionalText groupId : Value F).wf = true := by cases groupId <;> rfl
  simp only [itemContent, List.forall_mem_cons, hgroup, wf_referencesData]
  exact ⟨rfl, rfl, rfl, trivial, trivial, trivial, by simp⟩

theorem wf_groupContent (sources targets : List SnapshotEntryReference) :
    (Value.dict (groupContent (F := F) sources targets)).wf = true := by
  refine Value.wf_dict.2 ⟨keys_groupContent _ _, ?_⟩
  simp only [groupContent, List.forall_mem_cons, wf_referencesData]
  exact ⟨trivial, trivial, by simp⟩

end

/-- Equal contents are contents of one relation. -/
theorem itemOf_eq_of_content {a b : RelationItem} (ha : a.Formed F) (hb : b.Formed F)
    (h : canonicalText (F := F) (.dict (itemContent a.kind a.certainty a.reasonCodes a.ambiguityGroupId
      a.sourceEntries a.targetEntries)) = canonicalText (F := F) (.dict (itemContent b.kind b.certainty
        b.reasonCodes b.ambiguityGroupId b.sourceEntries b.targetEntries))) : a = b := by
  obtain ⟨kind, certainty, sources, targets, groupId, henc, -, rfl⟩ := ha
  obtain ⟨kind', certainty', sources', targets', groupId', henc', -, rfl⟩ := hb
  have hsame := lookup_of_sortKeys_eq (keys_itemContent _ _ _ _ _ _) (keys_itemContent _ _ _ _ _ _)
    (sortKeys_eq_of_canonicalText (safe_itemContent.2 henc) (wf_itemContent _ _ _ _ _)
      (safe_itemContent.2 henc') (wf_itemContent _ _ _ _ _) h)
  have hkind : (some (.str (Named.name kind)) : Option (Value F)) = some (.str (Named.name kind')) :=
    hsame (txt "kind")
  have hcertainty : (some (.str (Named.name certainty)) : Option (Value F)) =
    some (.str (Named.name certainty')) := hsame (txt "certainty")
  have hgroup : (some (optionalText groupId).sortKeys : Option (Value F)) =
    some (optionalText groupId').sortKeys := hsame (txt "ambiguity_group_id")
  obtain rfl : sources = sources' :=
    sortKeys_referencesData_injective (F := F) (Option.some.inj (hsame (txt "source_entries")))
  obtain rfl : targets = targets' :=
    sortKeys_referencesData_injective (F := F) (Option.some.inj (hsame (txt "target_entries")))
  have hgroup' : groupId = groupId' := by
    cases groupId <;> cases groupId' <;> cases hgroup <;> rfl
  rw [Named.name_inj (Value.str.inj (Option.some.inj hkind)),
    Named.name_inj (Value.str.inj (Option.some.inj hcertainty)), hgroup']

theorem group_eq_of_content {a b : RelationAmbiguityGroup} (ha : a.Formed F) (hb : b.Formed F)
    (h : canonicalText (F := F) (.dict (groupContent a.sourceEntries a.targetEntries)) =
      canonicalText (F := F) (.dict (groupContent b.sourceEntries b.targetEntries))) : a = b := by
  obtain ⟨sources, targets, henc, rfl⟩ := ha
  obtain ⟨sources', targets', henc', rfl⟩ := hb
  have hsafe {ss ts : List SnapshotEntryReference} (henc : Encodable ss ts none) :
      (Value.dict (groupContent (F := F) ss ts)).safe = true :=
    (ambiguityGroupId_eq_ok.2 ⟨henc, rfl⟩ |> digestOf_eq_ok.1).1
  have hsame := lookup_of_sortKeys_eq (keys_groupContent _ _) (keys_groupContent _ _)
    (sortKeys_eq_of_canonicalText (hsafe henc) (wf_groupContent _ _) (hsafe henc') (wf_groupContent _ _) h)
  obtain rfl : sources = sources' :=
    sortKeys_referencesData_injective (F := F) (Option.some.inj (hsame (txt "source_entries")))
  obtain rfl : targets = targets' :=
    sortKeys_referencesData_injective (F := F) (Option.some.inj (hsame (txt "target_entries")))
  rfl

/-! ## Components of a hint -/

section
variable {input : TransitionInput} {reused : Bool} {hint hint' : TransitionKey}

/-- The members of a component have the device and inode of its hint. -/
theorem aliasKey_of_component {e : FilesystemEntry} (hw : input.Within)
    (he : e ∈ input.componentSources hint ++ input.componentTargets hint) : aliasKey e = hint.aliasKey := by
  rcases List.mem_append.1 he with he | he
  · unfold TransitionInput.componentSources at he
    split_ifs at he
    · exact (mem_sourceAliases.1 he).2.2
    · exact (mem_sourceAliases.1 ((sources_sublist hw).subset he)).2.2
  · unfold TransitionInput.componentTargets at he
    split_ifs at he
    · exact (mem_targetAliases.1 he).2.2
    · exact (mem_targetAliases.1 ((targets_sublist hw).subset he)).2.2

theorem sources_subset_component (hw : input.Within) {e : FilesystemEntry} (he : e ∈ input.sources hint) :
    e ∈ input.componentSources hint := by
  unfold TransitionInput.componentSources
  split_ifs
  · exact (sources_sublist hw).subset he
  · exact he

/-- Hints of one device and inode have the same aliases. -/
theorem sourceAliases_congr (h : hint.aliasKey = hint'.aliasKey) :
    input.sourceAliases hint = input.sourceAliases hint' := by rw [TransitionInput.sourceAliases, h]; rfl

theorem targetAliases_congr (h : hint.aliasKey = hint'.aliasKey) :
    input.targetAliases hint = input.targetAliases hint' := by rw [TransitionInput.targetAliases, h]; rfl

theorem aliased_congr (h : hint.aliasKey = hint'.aliasKey) : input.Aliased hint ↔ input.Aliased hint' := by
  rw [TransitionInput.Aliased, sourceAliases_congr h, targetAliases_congr h]
  rfl

/-- Two shared hints of one device and inode make each other aliased. -/
theorem aliased_of_shared (hw : input.Within) (hh : hint ∈ sharedHints input) (hh' : hint' ∈ sharedHints input)
    (hne : hint ≠ hint') (h : hint.aliasKey = hint'.aliasKey) : input.Aliased hint := by
  obtain ⟨⟨e, he⟩, -⟩ := mem_sharedHints.1 hh
  obtain ⟨⟨e', he'⟩, -⟩ := mem_sharedHints.1 hh'
  have hdistinct : e ≠ e' := fun heq => hne (by
    rw [← (mem_sources.1 he).2.2, heq, (mem_sources.1 he').2.2])
  have hmem := (sources_sublist hw).subset he
  have hmem' := (sources_sublist hw).subset he'
  rw [← sourceAliases_congr h] at hmem'
  refine .inl (Nat.lt_of_not_le fun hle => hdistinct ?_)
  match hlist : input.sourceAliases hint with
  | [] =>
    rw [hlist] at hmem
    cases hmem
  | [x] =>
    rw [hlist] at hmem hmem'
    rw [List.mem_singleton.1 hmem, List.mem_singleton.1 hmem']
  | _ :: _ :: _ =>
    rw [hlist] at hle
    simp at hle

/-- What a hint yields is made of the component of the hint. -/
structure Yields (F : Type) [SqliteFloat F] (input : TransitionInput) (reused : Bool) (hint : TransitionKey)
    (item : RelationItem) (group? : Option RelationAmbiguityGroup) : Prop where
  known : input.Known reused hint
  sources : orderedReferences (input.componentSources hint) = .ok item.sourceEntries
  targets : orderedReferences (input.componentTargets hint) = .ok item.targetEntries
  kinds : group? = none ∧ item.certainty = .candidate ∧ ¬ input.Aliased hint ∧ ¬ input.Conflicting reused hint ∨
    (∃ group, group? = some group ∧ item.ambiguityGroupId = some group.ambiguityGroupId ∧
      group.sourceEntries = item.sourceEntries ∧ group.targetEntries = item.targetEntries) ∧
      item.certainty = .ambiguous ∧ (input.Aliased hint ∨ input.Conflicting reused hint)

theorem yields_of_result {item : RelationItem} {group? : Option RelationAmbiguityGroup}
    (h : TransitionResult F input reused hint (some (item, group?))) : Yields F input reused hint item group? := by
  cases h with
  | ambiguous hknown hamb hs ht => exact ⟨hknown, hs, ht, .inr ⟨⟨_, rfl, rfl, rfl, rfl⟩, rfl, hamb⟩⟩
  | candidate hknown hna hnc hs ht =>
    refine ⟨hknown, ?_, ?_, .inl ⟨rfl, rfl, hna, hnc⟩⟩
    · rw [TransitionInput.componentSources, if_neg hna]
      exact hs
    · rw [TransitionInput.componentTargets, if_neg hna]
      exact ht

/-- An aliased known hint yields its component, whatever its birth time. -/
theorem result_congr {out : Option (RelationItem × Option RelationAmbiguityGroup)}
    (hknown : input.Known reused hint) (hknown' : input.Known reused hint') (haliased : input.Aliased hint)
    (h : hint.aliasKey = hint'.aliasKey) (hout : TransitionResult F input reused hint out) :
    TransitionResult F input reused hint' out := by
  have haliased' := (aliased_congr h).1 haliased
  obtain ⟨cs, hcs, ct, hct, henc, rfl⟩ := (transitionResult_ambiguous hknown (.inl haliased)).1 hout
  refine .ambiguous hknown' (.inl haliased') ?_ ?_ henc
  · rw [TransitionInput.componentSources, if_pos haliased] at hcs
    rw [TransitionInput.componentSources, if_pos haliased', ← sourceAliases_congr h, hcs]
  · rw [TransitionInput.componentTargets, if_pos haliased] at hct
    rw [TransitionInput.componentTargets, if_pos haliased', ← targetAliases_congr h, hct]

/-- A candidate comes without a group. -/
theorem group_of_candidate {item : RelationItem} {group? : Option RelationAmbiguityGroup}
    (h : TransitionResult F input reused hint (some (item, group?)))
    (hkind : item.kind = .renameCandidate ∨ item.kind = .crossScopeTransitionCandidate) : group? = none := by
  cases h with
  | ambiguous => rcases hkind with hk | hk <;> cases hk
  | candidate => rfl

/-- A known hint yields a relation. -/
theorem exists_yields (hknown : input.Known reused hint)
    {out : Option (RelationItem × Option RelationAmbiguityGroup)}
    (hout : TransitionResult F input reused hint out) : ∃ item group?, out = some (item, group?) := by
  cases hout with
  | unknown hk => exact absurd hknown hk
  | ambiguous => exact ⟨_, _, rfl⟩
  | candidate => exact ⟨_, _, rfl⟩

end

/-! ## Well-formed sets -/

/-- The canonical texts the identifiers of a set are digests of. -/
def RelationSet.contentTexts (F : Type) [SqliteFloat F] (set : RelationSet) : List Text :=
  set.relations.map (fun item => canonicalText (F := F) (.dict (itemContent item.kind item.certainty
    item.reasonCodes item.ambiguityGroupId item.sourceEntries item.targetEntries))) ++
  set.ambiguityGroups.map fun group => canonicalText (F := F) (.dict (groupContent group.sourceEntries
    group.targetEntries))

/-- The references name entries of the snapshot. -/
def References (s : FilesystemSnapshot) (rs : List SnapshotEntryReference) : Prop :=
  ∀ r ∈ rs, ∃ e ∈ s.entries, reference e = r

/-- The location a reference names. -/
def SnapshotEntryReference.location (r : SnapshotEntryReference) : Text × Text := (r.scopeId, r.relativePath)

structure RelationSet.WellFormed (base target : FilesystemSnapshot) (set : RelationSet) : Prop where
  relationIds : (set.relations.map RelationItem.relationId).Nodup
  groupIds : (set.ambiguityGroups.map RelationAmbiguityGroup.ambiguityGroupId).Nodup
  /-- An ambiguous relation has one group, with its members. -/
  groupOf : ∀ item ∈ set.relations, item.certainty = .ambiguous → ∃ group,
    set.ambiguityGroups.filter (fun g => some g.ambiguityGroupId = item.ambiguityGroupId) = [group] ∧
      group.sourceEntries = item.sourceEntries ∧ group.targetEntries = item.targetEntries
  itemReferences : ∀ item ∈ set.relations, References base item.sourceEntries ∧ References target item.targetEntries
  groupReferences : ∀ group ∈ set.ambiguityGroups,
    References base group.sourceEntries ∧ References target group.targetEntries
  /-- No location is in a candidate and in a group. -/
  separate : ∀ item ∈ set.relations,
    item.kind = .renameCandidate ∨ item.kind = .crossScopeTransitionCandidate →
    ∀ group ∈ set.ambiguityGroups, ∀ r ∈ item.sourceEntries ++ item.targetEntries,
    ∀ s ∈ group.sourceEntries ++ group.targetEntries, r.location ≠ s.location

/-- Shared hints with known payloads differ in device or inode. -/
def HintsSeparated (base target : FilesystemSnapshot) (adjacent reused : Bool) : Prop :=
  adjacent = true → ∀ hint ∈ sharedHints (transitionInput base.entries target.entries),
    ∀ hint' ∈ sharedHints (transitionInput base.entries target.entries),
    (transitionInput base.entries target.entries).Known reused hint →
    (transitionInput base.entries target.entries).Known reused hint' →
    hint.aliasKey = hint'.aliasKey → hint = hint'

section
variable {base target : FilesystemSnapshot} {adjacent reused : Bool} {same : List (Option RelationItem)}
  {transitions : List RelationItem × List RelationAmbiguityGroup}
  (h : RelationParts F base target adjacent reused same transitions)
include h

/-- The transitions, hint by hint. -/
theorem RelationParts.outcomes (hadj : adjacent = true) :
    transitions.1 = (sharedHints (transitionInput base.entries target.entries)).filterMap (fun hint =>
      (returned (transitionOf F (transitionInput base.entries target.entries) reused hint)).map Prod.fst) ∧
    transitions.2 = (sharedHints (transitionInput base.entries target.entries)).filterMap (fun hint =>
      (returned (transitionOf F (transitionInput base.entries target.entries) reused hint)).bind Prod.snd) ∧
    ∀ hint ∈ sharedHints (transitionInput base.entries target.entries),
      transitionOf F (transitionInput base.entries target.entries) reused hint =
        .ok (returned (transitionOf F (transitionInput base.entries target.entries) reused hint)) := by
  rcases h.found with ⟨-, hfalse⟩ | ⟨-, found, hfound, rfl⟩
  · rw [hadj] at hfalse
    cases hfalse
  obtain ⟨hkept, hok⟩ := mapM_returned hfound
  refine ⟨?_, ?_, hok⟩
  · rw [hkept, List.map_filterMap]
  · rw [hkept, List.filterMap_filterMap]

end

/-! ## Hints and their relations -/

section
variable {base target : FilesystemSnapshot} {reused : Bool} {hint hint' : TransitionKey}
  {item item' : RelationItem} {group? group?' : Option RelationAmbiguityGroup}

theorem yields_of_ok
    (hok : transitionOf F (transitionInput base.entries target.entries) reused hint = .ok (some (item, group?))) :
    Yields F (transitionInput base.entries target.entries) reused hint item group? :=
  yields_of_result ((transitionOf_eq_ok (transitionInput_within _ _)).1 hok).2.2

theorem componentSources_subset {e : FilesystemEntry}
    (he : e ∈ (transitionInput base.entries target.entries).componentSources hint) : e ∈ base.entries := by
  unfold TransitionInput.componentSources at he
  split_ifs at he
  · exact (mem_sourceAliases.1 he).1
  · exact (mem_sourceAliases.1 ((sources_sublist (transitionInput_within _ _)).subset he)).1

theorem componentTargets_subset {e : FilesystemEntry}
    (he : e ∈ (transitionInput base.entries target.entries).componentTargets hint) : e ∈ target.entries := by
  unfold TransitionInput.componentTargets at he
  split_ifs at he
  · exact (mem_targetAliases.1 he).1
  · exact (mem_targetAliases.1 ((targets_sublist (transitionInput_within _ _)).subset he)).1

theorem Yields.references
    (h : Yields F (transitionInput base.entries target.entries) reused hint item group?) :
    References base item.sourceEntries ∧ References target item.targetEntries := by
  constructor
  · intro r hr
    obtain ⟨e, he, rfl⟩ := (mem_orderedReferences h.sources).1 hr
    exact ⟨e, componentSources_subset he, rfl⟩
  · intro r hr
    obtain ⟨e, he, rfl⟩ := (mem_orderedReferences h.targets).1 hr
    exact ⟨e, componentTargets_subset he, rfl⟩

/-- Equal source lists come from hints of one device and inode. -/
theorem Yields.aliasKey_eq (hb : base.Located)
    (h : Yields F (transitionInput base.entries target.entries) reused hint item group?)
    (h' : Yields F (transitionInput base.entries target.entries) reused hint' item' group?')
    (hshared : hint ∈ sharedHints (transitionInput base.entries target.entries))
    (heq : item.sourceEntries = item'.sourceEntries) : hint.aliasKey = hint'.aliasKey := by
  obtain ⟨⟨e, he⟩, -⟩ := mem_sharedHints.1 hshared
  have hcomponent := sources_subset_component (transitionInput_within _ _) he
  have hr := (mem_orderedReferences h.sources).2 ⟨e, hcomponent, rfl⟩
  rw [heq] at hr
  obtain ⟨e', he', href⟩ := (mem_orderedReferences h'.sources).1 hr
  have hee : e' = e :=
    hb.reference_inj (componentSources_subset he') (componentSources_subset hcomponent) href
  rw [← aliasKey_of_component (transitionInput_within _ _) (List.mem_append_left _ hcomponent),
    ← aliasKey_of_component (transitionInput_within _ _) (List.mem_append_left _ he'), hee]

/-- A candidate's entries are in no component of a group. -/
theorem Yields.entry_separate (h : Yields F (transitionInput base.entries target.entries) reused hint item none)
    {group : RelationAmbiguityGroup}
    (h' : Yields F (transitionInput base.entries target.entries) reused hint' item' (some group))
    {e : FilesystemEntry}
    (he : e ∈ (transitionInput base.entries target.entries).componentSources hint ++
      (transitionInput base.entries target.entries).componentTargets hint)
    (he' : e ∈ (transitionInput base.entries target.entries).componentSources hint' ++
      (transitionInput base.entries target.entries).componentTargets hint') : False := by
  obtain ⟨-, -, hna, hnc⟩ | ⟨⟨_, hsome, -⟩, -⟩ := h.kinds
  swap
  · cases hsome
  obtain ⟨hnone, -⟩ | ⟨-, -, hamb⟩ := h'.kinds
  · cases hnone
  have hkeys : hint.aliasKey = hint'.aliasKey := by
    rw [← aliasKey_of_component (transitionInput_within _ _) he,
      ← aliasKey_of_component (transitionInput_within _ _) he']
  have hna' : ¬ (transitionInput base.entries target.entries).Aliased hint' := fun ha =>
    hna ((aliased_congr hkeys).2 ha)
  -- without aliases both components are the entries of their hints
  have hhint : hint = hint' := by
    rw [TransitionInput.componentSources, TransitionInput.componentTargets, if_neg hna, if_neg hna,
      List.mem_append, mem_sources, mem_targets] at he
    rw [TransitionInput.componentSources, TransitionInput.componentTargets, if_neg hna', if_neg hna',
      List.mem_append, mem_sources, mem_targets] at he'
    have hkey := he.elim (·.2.2) (·.2.2)
    have hkey' := he'.elim (·.2.2) (·.2.2)
    exact hkey.symm.trans hkey'
  exact hamb.elim hna' fun hc => hnc (hhint ▸ hc)

/-- A candidate's entries lie where the other snapshot has nothing. -/
theorem candidate_exclusive (hna : ¬ (transitionInput base.entries target.entries).Aliased hint) :
    (∀ e ∈ (transitionInput base.entries target.entries).componentSources hint,
      ∀ t ∈ target.entries, t.location ≠ e.location) ∧
    ∀ e ∈ (transitionInput base.entries target.entries).componentTargets hint,
      ∀ b ∈ base.entries, b.location ≠ e.location := by
  rw [TransitionInput.componentSources, TransitionInput.componentTargets, if_neg hna, if_neg hna]
  exact ⟨fun e he => (mem_exclusiveEntries.1 (mem_sources.1 he).1).2,
    fun e he => (mem_exclusiveEntries.1 (mem_targets.1 he).1).2⟩

end

/-! ## Distinct relations -/

theorem certainty_of_sameLocationKind {reused : Bool} {b t : FilesystemEntry} {kind : RelationKind}
    {certainty : RelationCertainty} (h : sameLocationKind reused b t = some (kind, certainty)) :
    certainty = .fact ∨ certainty = .unknown := by
  simp only [sameLocationKind] at h
  split_ifs at h <;> cases h <;> simp

theorem sameLocationKind_ne_candidate {reused : Bool} {b t : FilesystemEntry} {kind : RelationKind}
    {certainty : RelationCertainty} (h : sameLocationKind reused b t = some (kind, certainty)) :
    ¬ (kind = .renameCandidate ∨ kind = .crossScopeTransitionCandidate) := by
  simp only [sameLocationKind] at h
  split_ifs at h <;> cases h <;> simp

section
variable {base target : FilesystemSnapshot} {adjacent reused : Bool} {same : List (Option RelationItem)}
  {transitions : List RelationItem × List RelationAmbiguityGroup} {item : RelationItem}
  (h : RelationParts F base target adjacent reused same transitions)
include h

theorem RelationParts.certainty_same (hitem : item ∈ same.filterMap id) :
    item.certainty = .fact ∨ item.certainty = .unknown := by
  obtain ⟨b, -, t, -, -, hok⟩ := h.mem_same.1 hitem
  rcases sameLocationRelation_eq_ok.1 hok with ⟨-, hnone⟩ | ⟨kind, certainty, hkind, -, hsome⟩
  · cases hnone
  · cases hsome
    exact certainty_of_sameLocationKind hkind

theorem RelationParts.yields_of_mem (hitem : item ∈ transitions.1) : adjacent = true ∧
    ∃ hint ∈ sharedHints (transitionInput base.entries target.entries), ∃ group?,
      transitionOf F (transitionInput base.entries target.entries) reused hint = .ok (some (item, group?)) ∧
        Yields F (transitionInput base.entries target.entries) reused hint item group? := by
  obtain ⟨hadj, hint, hhint, group?, hok⟩ := h.mem_transitions.1 hitem
  exact ⟨hadj, hint, hhint, group?, hok, yields_of_ok hok⟩

theorem RelationParts.certainty_transition (hitem : item ∈ transitions.1) :
    item.certainty = .candidate ∨ item.certainty = .ambiguous := by
  obtain ⟨-, hint, -, group?, -, hyields⟩ := h.yields_of_mem hitem
  exact hyields.kinds.elim (fun hc => .inl hc.2.1) fun ha => .inr ha.2.1

theorem RelationParts.same_nodup : (same.filterMap id).Nodup := by
  obtain ⟨common, hcommon, hsame⟩ := h.same
  obtain ⟨hkept, hok⟩ := mapM_returned hsame
  have hnodup : common.Nodup :=
    (sortedByM_perm hcommon).nodup_iff.2 (nodup_commonEntries h.baseLocated)
  rw [hkept, nodup_filterMap_iff hnodup]
  rintro ⟨b, t⟩ hpair ⟨b', t'⟩ hpair' item hitem hitem'
  have hout := hok _ hpair
  have hout' := hok _ hpair'
  rw [Option.mem_def.1 hitem] at hout
  rw [Option.mem_def.1 hitem'] at hout'
  obtain ⟨hb, ht, -⟩ := (mem_commonEntries h.targetLocated).1 ((mem_sortedByM hcommon).1 hpair)
  obtain ⟨hb', ht', -⟩ := (mem_commonEntries h.targetLocated).1 ((mem_sortedByM hcommon).1 hpair')
  rcases sameLocationRelation_eq_ok.1 hout with ⟨-, hnone⟩ | ⟨_, _, -, -, hsome⟩
  · cases hnone
  rcases sameLocationRelation_eq_ok.1 hout' with ⟨-, hnone⟩ | ⟨_, _, -, -, hsome'⟩
  · cases hnone
  cases hsome
  have hsources := congrArg RelationItem.sourceEntries (Option.some.inj hsome')
  have htargets := congrArg RelationItem.targetEntries (Option.some.inj hsome')
  exact Prod.ext (h.baseLocated.reference_inj hb hb' (List.singleton_injective hsources))
    (h.targetLocated.reference_inj ht ht' (List.singleton_injective htargets))

/-- Separated hints yield distinct relations. -/
theorem RelationParts.transitions_nodup (hsep : HintsSeparated base target adjacent reused) :
    transitions.1.Nodup := by
  rcases h.found with ⟨rfl, -⟩ | ⟨hadj, -⟩
  · exact List.nodup_nil
  obtain ⟨hrelations, -, hok⟩ := h.outcomes hadj
  rw [hrelations, nodup_filterMap_iff nodup_sharedHints]
  intro hint hhint hint' hhint' item hitem hitem'
  obtain ⟨⟨_, group?⟩, hout, rfl⟩ := Option.map_eq_some_iff.1 hitem
  obtain ⟨⟨item', group?'⟩, hout', heq⟩ := Option.map_eq_some_iff.1 hitem'
  have hyields := yields_of_ok ((hok hint hhint).trans (congrArg Except.ok hout))
  have hyields' := yields_of_ok ((hok hint' hhint').trans (congrArg Except.ok hout'))
  exact hsep hadj hint hhint hint' hhint' hyields.known hyields'.known
    (hyields.aliasKey_eq h.baseLocated hyields' hhint (congrArg RelationItem.sourceEntries heq.symm))

theorem RelationParts.relations_nodup (hsep : HintsSeparated base target adjacent reused) :
    (same.filterMap id ++ transitions.1).Nodup := by
  refine List.nodup_append'.2 ⟨h.same_nodup, h.transitions_nodup hsep, fun item hsame htransition => ?_⟩
  rcases h.certainty_same hsame with hc | hc <;>
    rcases h.certainty_transition htransition with hc' | hc' <;>
    · rw [hc] at hc'
      cases hc'

/-- Separated hints yield distinct groups. -/
theorem RelationParts.groups_nodup (hsep : HintsSeparated base target adjacent reused) :
    transitions.2.Nodup := by
  rcases h.found with ⟨rfl, -⟩ | ⟨hadj, -⟩
  · exact List.nodup_nil
  obtain ⟨-, hgroups, hok⟩ := h.outcomes hadj
  rw [hgroups, nodup_filterMap_iff nodup_sharedHints]
  intro hint hhint hint' hhint' group hgroup hgroup'
  obtain ⟨⟨item, _⟩, hout, rfl⟩ := Option.bind_eq_some_iff.1 hgroup
  obtain ⟨⟨item', group?'⟩, hout', heq⟩ := Option.bind_eq_some_iff.1 hgroup'
  have hyields := yields_of_ok ((hok hint hhint).trans (congrArg Except.ok hout))
  have hyields' := yields_of_ok ((hok hint' hhint').trans (congrArg Except.ok hout'))
  obtain ⟨hnone, -⟩ | ⟨⟨g, hg, -, hsources, -⟩, -⟩ := hyields.kinds
  · cases hnone
  obtain ⟨hnone, -⟩ | ⟨⟨g', hg', -, hsources', -⟩, -⟩ := hyields'.kinds
  · rw [hnone] at heq
    cases heq
  have hgg : g = g' := Option.some.inj (hg.symm.trans (heq.symm.trans hg'))
  exact hsep hadj hint hhint hint' hhint' hyields.known hyields'.known
    (hyields.aliasKey_eq h.baseLocated hyields' hhint (by rw [← hsources, ← hsources', hgg]))

/-- Groups with distinct identifiers come from separated hints. -/
theorem RelationParts.separated
    (hids : (transitions.2.map RelationAmbiguityGroup.ambiguityGroupId).Nodup) :
    HintsSeparated base target adjacent reused := by
  intro hadj hint hhint hint' hhint' hknown hknown' hkeys
  by_contra hne
  obtain ⟨-, hgroups, hok⟩ := h.outcomes hadj
  have hw := transitionInput_within base.entries target.entries
  have haliased := aliased_of_shared hw hhint hhint' hne hkeys
  obtain ⟨hpaths, haliases, hresult⟩ := (transitionOf_eq_ok hw).1 (hok hint hhint)
  obtain ⟨hpaths', haliases', -⟩ := (transitionOf_eq_ok hw).1 (hok hint' hhint')
  -- the second hint yields the very outcome of the first
  have hsame := (transitionOf_eq_ok hw).2
    ⟨hpaths', haliases', result_congr hknown hknown' haliased hkeys hresult⟩
  rw [hok hint' hhint', Except.ok.injEq] at hsame
  obtain ⟨item, group?, hout⟩ := exists_yields hknown hresult
  have hyields := yields_of_ok ((hok hint hhint).trans (congrArg Except.ok hout))
  obtain ⟨-, -, hna, -⟩ | ⟨⟨group, rfl, -⟩, -⟩ := hyields.kinds
  · exact hna haliased
  rw [hgroups, List.map_filterMap, nodup_filterMap_iff nodup_sharedHints] at hids
  refine hne (hids hint hhint hint' hhint' group.ambiguityGroupId ?_ ?_)
  · rw [hout]
    rfl
  · rw [hsame, hout]
    rfl

end

/-! ## The set -/

section
variable {base target : FilesystemSnapshot} {adjacent reused : Bool} {same : List (Option RelationItem)}
  {transitions : List RelationItem × List RelationAmbiguityGroup} {set : RelationSet}

/-- Without collisions, equal identifiers are identifiers of one relation. -/
theorem nodup_relationIds (hnodup : set.relations.Nodup) (hformed : ∀ item ∈ set.relations, item.Formed F)
    (hsha : Collisionless F (set.contentTexts F)) : (set.relations.map RelationItem.relationId).Nodup := by
  have hid (item : RelationItem) (hitem : item.Formed F) : item.relationId = Runtime.sha256 F (Text.utf8
      (canonicalText (F := F) (.dict (itemContent item.kind item.certainty item.reasonCodes
        item.ambiguityGroupId item.sourceEntries item.targetEntries)))) := by
    obtain ⟨kind, certainty, sources, targets, groupId, -, -, rfl⟩ := hitem
    rfl
  refine (List.nodup_map_iff_inj_on hnodup).2 fun a ha b hb hab => ?_
  rw [hid a (hformed a ha), hid b (hformed b hb)] at hab
  refine itemOf_eq_of_content (hformed a ha) (hformed b hb) (hsha _ ?_ _ ?_ hab)
  · exact List.mem_append_left _ (List.mem_map_of_mem ha)
  · exact List.mem_append_left _ (List.mem_map_of_mem hb)

theorem nodup_groupIds (hnodup : set.ambiguityGroups.Nodup)
    (hformed : ∀ group ∈ set.ambiguityGroups, group.Formed F) (hsha : Collisionless F (set.contentTexts F)) :
    (set.ambiguityGroups.map RelationAmbiguityGroup.ambiguityGroupId).Nodup := by
  have hid (group : RelationAmbiguityGroup) (hgroup : group.Formed F) : group.ambiguityGroupId =
      Runtime.sha256 F (Text.utf8 (canonicalText (F := F)
        (.dict (groupContent group.sourceEntries group.targetEntries)))) := by
    obtain ⟨sources, targets, -, rfl⟩ := hgroup
    rfl
  refine (List.nodup_map_iff_inj_on hnodup).2 fun a ha b hb hab => ?_
  rw [hid a (hformed a ha), hid b (hformed b hb)] at hab
  refine group_eq_of_content (hformed a ha) (hformed b hb) (hsha _ ?_ _ ?_ hab)
  · exact List.mem_append_right _ (List.mem_map_of_mem ha)
  · exact List.mem_append_right _ (List.mem_map_of_mem hb)

/-- An ambiguous relation's identifier is that of one group, with its members. -/
theorem RelationParts.group_of_ambiguous (h : RelationParts F base target adjacent reused same transitions)
    (hgroups : set.ambiguityGroups.Perm transitions.2)
    (hids : (set.ambiguityGroups.map RelationAmbiguityGroup.ambiguityGroupId).Nodup) {item : RelationItem}
    (hitem : item ∈ same.filterMap id ++ transitions.1) (hambiguous : item.certainty = .ambiguous) :
    ∃ group, set.ambiguityGroups.filter (fun g => some g.ambiguityGroupId = item.ambiguityGroupId) = [group] ∧
      group.sourceEntries = item.sourceEntries ∧ group.targetEntries = item.targetEntries := by
  rcases List.mem_append.1 hitem with hsame | htransition
  · rcases h.certainty_same hsame with hc | hc <;>
    · rw [hambiguous] at hc
      cases hc
  obtain ⟨hadj, hint, hhint, group?, hok, hyields⟩ := h.yields_of_mem htransition
  obtain ⟨-, hc, -⟩ | ⟨⟨group, rfl, hid, hsources, htargets⟩, -⟩ := hyields.kinds
  · rw [hambiguous] at hc
    cases hc
  have hmem : group ∈ set.ambiguityGroups :=
    hgroups.mem_iff.2 (h.mem_groups.2 ⟨hadj, hint, hhint, item, hok⟩)
  refine ⟨group, ?_, hsources, htargets⟩
  have hfilter : (set.ambiguityGroups.filter fun g => some g.ambiguityGroupId = item.ambiguityGroupId) =
      set.ambiguityGroups.filter (· = group) := by
    refine List.filter_congr fun g hg => ?_
    rw [hid, decide_eq_decide, Option.some.injEq]
    exact ⟨List.inj_on_of_nodup_map hids hg hmem, congrArg _⟩
  have hone := List.count_eq_one_of_mem (List.Nodup.of_map _ hids) hmem
  rw [hfilter]
  exact (List.filter_eq group).trans (by rw [hone]; rfl)

/-- No location is in a candidate and in a group. -/
theorem RelationParts.separate (h : RelationParts F base target adjacent reused same transitions)
    {item : RelationItem} (hitem : item ∈ same.filterMap id ++ transitions.1)
    (hkind : item.kind = .renameCandidate ∨ item.kind = .crossScopeTransitionCandidate)
    {group : RelationAmbiguityGroup} (hgroup : group ∈ transitions.2) {r s : SnapshotEntryReference}
    (hr : r ∈ item.sourceEntries ++ item.targetEntries) (hs : s ∈ group.sourceEntries ++ group.targetEntries) :
    r.location ≠ s.location := by
  rcases List.mem_append.1 hitem with hsame | htransition
  · obtain ⟨b, -, t, -, -, hok⟩ := h.mem_same.1 hsame
    rcases sameLocationRelation_eq_ok.1 hok with ⟨-, hnone⟩ | ⟨_, _, hk, -, hsome⟩
    · cases hnone
    · cases hsome
      exact absurd hkind (sameLocationKind_ne_candidate hk)
  obtain ⟨-, hint, -, group?, hok, hyields⟩ := h.yields_of_mem htransition
  obtain rfl := group_of_candidate ((transitionOf_eq_ok (transitionInput_within _ _)).1 hok).2.2 hkind
  obtain ⟨-, hint', -, item', hok'⟩ := h.mem_groups.1 hgroup
  have hyields' := yields_of_ok hok'
  obtain ⟨-, -, hna, -⟩ | ⟨⟨_, hsome, -⟩, -⟩ := hyields.kinds
  swap
  · cases hsome
  obtain ⟨hnone, -⟩ | ⟨⟨g, hg, -, hsources, htargets⟩, -⟩ := hyields'.kinds
  · cases hnone
  cases hg
  rw [hsources, htargets] at hs
  have hexclusive := candidate_exclusive hna
  intro hloc
  rcases List.mem_append.1 hr with hr | hr <;> rcases List.mem_append.1 hs with hs | hs
  · obtain ⟨e, he, rfl⟩ := (mem_orderedReferences hyields.sources).1 hr
    obtain ⟨e', he', rfl⟩ := (mem_orderedReferences hyields'.sources).1 hs
    have hee : e = e' := h.baseLocated.eq (componentSources_subset he) (componentSources_subset he') hloc
    exact hyields.entry_separate hyields' (List.mem_append_left _ he) (hee ▸ List.mem_append_left _ he')
  · obtain ⟨e, he, rfl⟩ := (mem_orderedReferences hyields.sources).1 hr
    obtain ⟨e', he', rfl⟩ := (mem_orderedReferences hyields'.targets).1 hs
    exact hexclusive.1 e he e' (componentTargets_subset he') hloc.symm
  · obtain ⟨e, he, rfl⟩ := (mem_orderedReferences hyields.targets).1 hr
    obtain ⟨e', he', rfl⟩ := (mem_orderedReferences hyields'.sources).1 hs
    exact hexclusive.2 e he e' (componentSources_subset he') hloc.symm
  · obtain ⟨e, he, rfl⟩ := (mem_orderedReferences hyields.targets).1 hr
    obtain ⟨e', he', rfl⟩ := (mem_orderedReferences hyields'.targets).1 hs
    have hee : e = e' := h.targetLocated.eq (componentTargets_subset he) (componentTargets_subset he') hloc
    exact hyields.entry_separate hyields' (List.mem_append_right _ he) (hee ▸ List.mem_append_right _ he')

end

/-- A regular file with a known payload. -/
def inodeEntry (snapshotId relativePath : Text) (inode birthtimeNs : Int) : FilesystemEntry where
  snapshotId
  scopeId := txt "s"
  relativePath
  objectType := .regularFile
  deviceId := some 1
  inode := some inode
  mode := some 33188
  uid := some 0
  gid := some 0
  sizeBytes := some 1
  mtimeNs := some 0
  ctimeNs := some 0
  birthtimeNs := some birthtimeNs
  linkCount := some 1
  symlinkTargetRaw := none
  readable := true
  writable := true
  executable := false
  observationStatus := .observed
  errorCode := none
  errorMessage := none
  excluded := false
  v2 := some ⟨none, .hashed, some (txt "sha256"), some 1, some (List.replicate 64 (ch 'a')), some 1,
    some .directRead, none, none⟩

/-- Two files of one inode, or of two. -/
def inodeSnapshot (snapshotId startedAt completedAt first second : Text) (inode : Int) : FilesystemSnapshot :=
  ⟨snapshotId, startedAt, completedAt, [txt "s"],
    [inodeEntry snapshotId first 10 5, inodeEntry snapshotId second inode 9]⟩

def inodeBase (inode : Int) : FilesystemSnapshot :=
  inodeSnapshot (txt "b") (txt "1") (txt "2") (txt "a") (txt "b") inode

def inodeTarget (inode : Int) : FilesystemSnapshot :=
  inodeSnapshot (txt "t") (txt "3") (txt "4") (txt "c") (txt "d") inode

theorem inode_computed (inode : Int) :
    Ok (computeSnapshotRelations Integral (inodeBase inode) (inodeTarget inode) true true) := by
  have hdistinct : txt "b" ≠ txt "t" := by decide
  have htime : ¬ txt "3" < txt "2" := by decide
  have henc : [txt "b", txt "t", txt "s", txt "a", txt "c", txt "d"].all Text.encodable = true := by decide
  simp only [List.all_cons, List.all_nil, Bool.and_eq_true, and_true] at henc
  obtain ⟨hb, ht, hs, ha, hc, hd⟩ := henc
  have hlocated (id started completed first second : Text) (hne : first ≠ second) :
      (inodeSnapshot id started completed first second inode).Located := by
    refine ⟨fun e he => ?_, ?_⟩
    · rcases List.mem_cons.1 he with rfl | he
      · rfl
      · rw [List.mem_singleton.1 he]
        rfl
    · show [(txt "s", first), (txt "s", second)].Nodup
      simp [hne]
  have hencodable (id started completed first second : Text) (hid : id.encodable = true)
      (hfirst : first.encodable = true) (hsecond : second.encodable = true) :
      (inodeSnapshot id started completed first second inode).Encodable := by
    refine ⟨hid, fun e he => ?_⟩
    rcases List.mem_cons.1 he with rfl | he
    · exact Bool.and_eq_true_iff.2 ⟨Bool.and_eq_true_iff.2 ⟨hid, hs⟩, hfirst⟩
    · rw [List.mem_singleton.1 he]
      exact Bool.and_eq_true_iff.2 ⟨Bool.and_eq_true_iff.2 ⟨hid, hs⟩, hsecond⟩
  exact ok_computeSnapshotRelations hdistinct htime (hlocated _ _ _ _ _ (by decide))
    (hlocated _ _ _ _ _ (by decide)) (hencodable _ _ _ _ _ hb ha hb) (hencodable _ _ _ _ _ ht hc hd)

theorem inode_payload (reused : Bool) (snapshotId relativePath : Text) (inode birthtimeNs : Int) :
    successfulPayloadDigest reused (inodeEntry snapshotId relativePath inode birthtimeNs) =
      some (List.replicate 64 (ch 'a')) := rfl

/-- The hints of the reused inode are shared, with known payloads. -/
theorem inode_shared {birthtimeNs : Int} (h : birthtimeNs = 5 ∨ birthtimeNs = 9) :
    transitionKey (inodeEntry [] [] 10 birthtimeNs) ∈
        sharedHints (transitionInput (inodeBase 10).entries (inodeTarget 10).entries) ∧
      (transitionInput (inodeBase 10).entries (inodeTarget 10).entries).Known true
        (transitionKey (inodeEntry [] [] 10 birthtimeNs)) := by
  have hseparate : ∀ b ∈ (inodeBase 10).entries, ∀ t ∈ (inodeTarget 10).entries, t.location ≠ b.location := by
    have hpaths : ∀ p ∈ [txt "a", txt "b"], ∀ q ∈ [txt "c", txt "d"], (txt "s", q) ≠ (txt "s", p) := by decide
    intro b hb t ht
    have hp : b.location.2 ∈ [txt "a", txt "b"] := by
      rcases List.mem_cons.1 hb with rfl | hb
      · exact List.mem_cons_self
      · rw [List.mem_singleton.1 hb]
        exact List.mem_cons_of_mem _ List.mem_cons_self
    have hq : t.location.2 ∈ [txt "c", txt "d"] := by
      rcases List.mem_cons.1 ht with rfl | ht
      · exact List.mem_cons_self
      · rw [List.mem_singleton.1 ht]
        exact List.mem_cons_of_mem _ List.mem_cons_self
    exact fun hloc => hpaths _ hp _ hq (Prod.ext rfl (show t.location.2 = b.location.2 from congrArg Prod.snd hloc))
  have hknown : ∀ e ∈ (inodeBase 10).entries ++ (inodeTarget 10).entries,
      successfulPayloadDigest true e ≠ none := by
    intro e he
    simp only [inodeBase, inodeTarget, inodeSnapshot, List.cons_append, List.nil_append, List.mem_cons,
      List.not_mem_nil, or_false] at he
    rcases he with rfl | rfl | rfl | rfl <;>
    · rw [inode_payload]
      exact Option.some_ne_none _
  constructor
  · obtain ⟨e, he, helig, hkey⟩ : ∃ e ∈ (inodeBase 10).entries, transitionEligible e = true ∧
        transitionKey e = transitionKey (inodeEntry [] [] 10 birthtimeNs) := by
      rcases h with rfl | rfl
      · exact ⟨_, List.mem_cons_self, rfl, rfl⟩
      · exact ⟨_, List.mem_cons_of_mem _ List.mem_cons_self, rfl, rfl⟩
    obtain ⟨e', he', helig', hkey'⟩ : ∃ e ∈ (inodeTarget 10).entries, transitionEligible e = true ∧
        transitionKey e = transitionKey (inodeEntry [] [] 10 birthtimeNs) := by
      rcases h with rfl | rfl
      · exact ⟨_, List.mem_cons_self, rfl, rfl⟩
      · exact ⟨_, List.mem_cons_of_mem _ List.mem_cons_self, rfl, rfl⟩
    exact mem_sharedHints.2
      ⟨⟨e, mem_sources.2 ⟨mem_exclusiveEntries.2 ⟨he, hseparate e he⟩, helig, hkey⟩⟩,
        ⟨e', mem_targets.2 ⟨mem_exclusiveEntries.2 ⟨he', fun b hb => (hseparate b hb e' he').symm⟩, helig', hkey'⟩⟩⟩
  · intro e he
    rcases List.mem_append.1 he with he | he
    · exact hknown e (List.mem_append_left _ (mem_exclusiveEntries.1 (mem_sources.1 he).1).1)
    · exact hknown e (List.mem_append_right _ (mem_exclusiveEntries.1 (mem_targets.1 he).1).1)

end Steward
