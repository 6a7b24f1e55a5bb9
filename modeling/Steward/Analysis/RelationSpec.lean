import Steward.Analysis.Relations

/-!
# What a relation set is made of

When each step of the computation returns, and what it returns then: the sorts
and digests taken apart, in terms of the entries alone.
-/

namespace Steward

open Py Sqlite

/-! ## Locations -/

theorem mem_commonEntries {base target : FilesystemSnapshot} (ht : target.Located)
    {b t : FilesystemEntry} : (b, t) ∈ commonEntries base.entries target.entries ↔
      b ∈ base.entries ∧ t ∈ target.entries ∧ b.location = t.location := by
  rw [commonEntries, List.mem_filterMap]
  constructor
  · rintro ⟨b', hb', h⟩
    obtain ⟨t', hfind, heq⟩ := Option.map_eq_some_iff.1 h
    rw [Prod.mk.injEq] at heq
    obtain ⟨rfl, rfl⟩ := heq
    have hloc : t'.location = b'.location := by simpa using List.find?_some hfind
    exact ⟨hb', List.mem_of_find?_eq_some hfind, hloc.symm⟩
  · rintro ⟨hb, htm, hloc⟩
    refine ⟨b, hb, ?_⟩
    cases hfind : target.entries.find? fun t => t.location = b.location with
    | none =>
      have := List.find?_eq_none.1 hfind t htm
      simp [hloc] at this
    | some t' =>
      have hloc' : t'.location = b.location := by simpa using List.find?_some hfind
      rw [Option.map_some, ht.eq (List.mem_of_find?_eq_some hfind) htm (hloc'.trans hloc)]

theorem mem_exclusiveEntries {es os : List FilesystemEntry} {e : FilesystemEntry} :
    e ∈ exclusiveEntries es os ↔ e ∈ es ∧ ∀ o ∈ os, o.location ≠ e.location := by
  simp [exclusiveEntries]

theorem validatePair_eq_ok {base target : FilesystemSnapshot} : validatePair base target = .ok () ↔
    base.snapshotId ≠ target.snapshotId ∧ ¬ target.startedAt < base.completedAt := by
  unfold validatePair
  split_ifs with hid htime
  · exact iff_of_false (by rintro ⟨⟩) fun h => h.1 hid
  · exact iff_of_false (by rintro ⟨⟩) fun h => h.2 htime
  · exact iff_of_true rfl ⟨hid, htime⟩

/-! ## Items and groups -/

variable {F : Type} [SqliteFloat F]

/-- The relation `_relation_item` returns, if it returns. -/
def relationItemOf (F : Type) [SqliteFloat F] (kind : RelationKind) (certainty : RelationCertainty)
    (sources targets : List SnapshotEntryReference) (groupId : Option Text) : RelationItem :=
  ⟨sha (F := F) (.dict (itemContent kind certainty [Named.name kind] groupId sources targets)),
    kind, certainty, [Named.name kind], groupId, sources, targets⟩

/-- The references and the group identifier can be encoded. -/
structure Encodable (sources targets : List SnapshotEntryReference) (groupId : Option Text) : Prop where
  sources : ∀ r ∈ sources, r.encodable = true
  targets : ∀ r ∈ targets, r.encodable = true
  groupId : ∀ g ∈ groupId, g.encodable = true

theorem safe_optionalText {t : Option Text} :
    (optionalText t : Value F).safe = true ↔ ∀ s ∈ t, s.encodable = true := by
  cases t with
  | none => simp [optionalText]
  | some t => simp [optionalText]

theorem safe_itemContent {kind : RelationKind} {certainty : RelationCertainty}
    {sources targets : List SnapshotEntryReference} {groupId : Option Text} :
    (Value.dict (itemContent kind certainty [Named.name kind] groupId sources targets) : Value F).safe = true ↔
      Encodable sources targets groupId := by
  have hkeys : (keys (itemContent (F := F) kind certainty [Named.name kind] groupId sources targets)) =
      [txt "kind", txt "certainty", txt "reason_codes", txt "ambiguity_group_id", txt "source_entries",
        txt "target_entries"] := rfl
  have henc : ([txt "kind", txt "certainty", txt "reason_codes", txt "ambiguity_group_id",
      txt "source_entries", txt "target_entries"].all Text.encodable) = true := by decide
  have hreasons : (Value.list ([Named.name kind].map Value.str) : Value F).safe = true :=
    Value.safe_list.2 fun v hv => by
      rw [List.mem_singleton.1 hv, Value.safe_str]
      exact Named.encodable kind
  rw [Value.safe_dict, hkeys, ← List.all_eq_true, henc]
  simp only [itemContent, List.forall_mem_cons, List.not_mem_nil, false_implies, implies_true, and_true,
    Value.safe_str, Named.encodable, hreasons, safe_optionalText, safe_referencesData, true_and]
  exact ⟨fun h => ⟨h.2.1, h.2.2, h.1⟩, fun h => ⟨h.groupId, h.sources, h.targets⟩⟩

theorem relationItem_eq_ok {kind : RelationKind} {certainty : RelationCertainty}
    {sources targets : List SnapshotEntryReference} {groupId : Option Text} {item : RelationItem} :
    relationItem F kind certainty sources targets groupId = .ok item ↔
      Encodable sources targets groupId ∧ item = relationItemOf F kind certainty sources targets groupId := by
  rw [relationItem, bind_eq_ok]
  simp only [digestOf_eq_ok, safe_itemContent, pure_eq_ok]
  constructor
  · rintro ⟨_, ⟨henc, rfl⟩, rfl⟩
    exact ⟨henc, rfl⟩
  · rintro ⟨henc, rfl⟩
    exact ⟨_, ⟨henc, rfl⟩, rfl⟩

/-- The identifier of a group, if it is computed. -/
def groupIdOf (F : Type) [SqliteFloat F] (sources targets : List SnapshotEntryReference) : Text :=
  sha (F := F) (.dict (groupContent sources targets))

theorem ambiguityGroupId_eq_ok {sources targets : List SnapshotEntryReference} {id : Text} :
    ambiguityGroupId F sources targets = .ok id ↔
      Encodable sources targets none ∧ id = groupIdOf F sources targets := by
  have hkeys : keys (groupContent (F := F) sources targets) = [txt "source_entries", txt "target_entries"] := rfl
  have henc : ([txt "source_entries", txt "target_entries"].all Text.encodable) = true := by decide
  rw [ambiguityGroupId, digestOf_eq_ok, Value.safe_dict, hkeys, ← List.all_eq_true, henc]
  simp only [groupContent, List.forall_mem_cons, List.not_mem_nil, false_implies, implies_true, and_true,
    safe_referencesData, true_and]
  exact ⟨fun h => ⟨⟨h.1.1, h.1.2, by simp⟩, h.2⟩, fun h => ⟨⟨h.1.sources, h.1.targets⟩, h.2⟩⟩

theorem groupIdOf_encodable (sources targets : List SnapshotEntryReference) :
    (groupIdOf F sources targets).encodable = true := sha_encodable _

theorem groupIdOf_ne_nil (sources targets : List SnapshotEntryReference) : groupIdOf F sources targets ≠ [] :=
  List.ne_nil_of_length_pos (by rw [groupIdOf, sha_length]; decide)

theorem sameLocationRelation_eq_ok {reused : Bool} {b t : FilesystemEntry} {out : Option RelationItem} :
    sameLocationRelation F reused b t = .ok out ↔
      (sameLocationKind reused b t = none ∧ out = none) ∨
      ∃ kind certainty, sameLocationKind reused b t = some (kind, certainty) ∧
        Encodable [reference b] [reference t] none ∧
        out = some (relationItemOf F kind certainty [reference b] [reference t] none) := by
  unfold sameLocationRelation
  cases h : sameLocationKind reused b t with
  | none => simp [eq_comm]
  | some k =>
    obtain ⟨kind, certainty⟩ := k
    simp only [reduceCtorEq, false_and, false_or]
    constructor
    · intro hok
      cases hitem : relationItem F kind certainty [reference b] [reference t] none with
      | error e => rw [hitem] at hok; cases hok
      | ok item =>
        rw [hitem] at hok
        cases hok
        obtain ⟨henc, rfl⟩ := relationItem_eq_ok.1 hitem
        exact ⟨kind, certainty, rfl, henc, rfl⟩
    · rintro ⟨_, _, hk, henc, rfl⟩
      cases hk
      rw [relationItem_eq_ok.2 ⟨henc, rfl⟩]
      rfl

/-! ## One hint -/

namespace TransitionInput

variable (input : TransitionInput) (reused : Bool) (hint : TransitionKey)

/-- `base_by_hint[hint]` -/
def sources : List FilesystemEntry :=
  (input.baseEntries.filter transitionEligible).filter fun e => transitionKey e = hint

/-- `target_by_hint[hint]` -/
def targets : List FilesystemEntry :=
  (input.targetEntries.filter transitionEligible).filter fun e => transitionKey e = hint

/-- `base_aliases[(hint[0], hint[1])]` -/
def sourceAliases : List FilesystemEntry :=
  (input.baseSnapshotEntries.filter hasObjectHint).filter fun e => aliasKey e = hint.aliasKey

/-- `target_aliases[(hint[0], hint[1])]` -/
def targetAliases : List FilesystemEntry :=
  (input.targetSnapshotEntries.filter hasObjectHint).filter fun e => aliasKey e = hint.aliasKey

/-- Every payload of the hint is known. -/
def Known : Prop := ∀ e ∈ input.sources hint ++ input.targets hint, successfulPayloadDigest reused e ≠ none

def Aliased : Prop := 1 < (input.sourceAliases hint).length ∨ 1 < (input.targetAliases hint).length

instance : Decidable (input.Aliased hint) := inferInstanceAs (Decidable (_ ∨ _))

/-- The payloads of the hint are not one. -/
def Conflicting : Prop :=
  (payloadDigests reused (input.sources hint) ∪ payloadDigests reused (input.targets hint)).card ≠ 1

instance : Decidable (input.Conflicting reused hint) := inferInstanceAs (Decidable (_ ≠ _))

def componentSources : List FilesystemEntry :=
  if input.Aliased hint then input.sourceAliases hint else input.sources hint

def componentTargets : List FilesystemEntry :=
  if input.Aliased hint then input.targetAliases hint else input.targets hint

/-- The entries a hint is sought among are entries of the snapshots. -/
structure Within (input : TransitionInput) : Prop where
  base : input.baseEntries.Sublist input.baseSnapshotEntries
  target : input.targetEntries.Sublist input.targetSnapshotEntries

end TransitionInput

/-- What the loop adds for one hint. -/
inductive TransitionResult (F : Type) [SqliteFloat F] (input : TransitionInput) (reused : Bool)
    (hint : TransitionKey) : Option (RelationItem × Option RelationAmbiguityGroup) → Prop where
  | unknown (hknown : ¬ input.Known reused hint) : TransitionResult F input reused hint none
  | ambiguous {cs ct : List SnapshotEntryReference} (hknown : input.Known reused hint)
      (hambiguous : input.Aliased hint ∨ input.Conflicting reused hint)
      (hsources : orderedReferences (input.componentSources hint) = .ok cs)
      (htargets : orderedReferences (input.componentTargets hint) = .ok ct) (henc : Encodable cs ct none) :
      TransitionResult F input reused hint
        (some (relationItemOf F .ambiguousLocationTransition .ambiguous cs ct (some (groupIdOf F cs ct)),
          some ⟨groupIdOf F cs ct, cs, ct⟩))
  | candidate {ss ts : List SnapshotEntryReference} (hknown : input.Known reused hint)
      (hunaliased : ¬ input.Aliased hint) (hagree : ¬ input.Conflicting reused hint)
      (hsources : orderedReferences (input.sources hint) = .ok ss)
      (htargets : orderedReferences (input.targets hint) = .ok ts) (henc : Encodable ss ts none) :
      TransitionResult F input reused hint
        (some (relationItemOf F (transitionKind (input.sources hint) (input.targets hint)) .candidate ss ts none, none))

section
variable {input : TransitionInput} {reused : Bool} {hint : TransitionKey}

theorem mem_sources {e : FilesystemEntry} : e ∈ input.sources hint ↔
    e ∈ input.baseEntries ∧ transitionEligible e = true ∧ transitionKey e = hint := by
  simp [TransitionInput.sources, and_comm]

theorem mem_targets {e : FilesystemEntry} : e ∈ input.targets hint ↔
    e ∈ input.targetEntries ∧ transitionEligible e = true ∧ transitionKey e = hint := by
  simp [TransitionInput.targets, and_comm]

theorem mem_sourceAliases {e : FilesystemEntry} : e ∈ input.sourceAliases hint ↔
    e ∈ input.baseSnapshotEntries ∧ hasObjectHint e = true ∧ aliasKey e = hint.aliasKey := by
  simp [TransitionInput.sourceAliases, and_comm]

theorem mem_targetAliases {e : FilesystemEntry} : e ∈ input.targetAliases hint ↔
    e ∈ input.targetSnapshotEntries ∧ hasObjectHint e = true ∧ aliasKey e = hint.aliasKey := by
  simp [TransitionInput.targetAliases, and_comm]

theorem hasObjectHint_of_eligible {e : FilesystemEntry} (h : transitionEligible e = true) :
    hasObjectHint e = true := by
  simp only [transitionEligible, hasObjectHint, Bool.and_eq_true] at h ⊢
  exact ⟨h.1.1.2, h.1.2⟩

theorem aliasKey_transitionKey (e : FilesystemEntry) : (transitionKey e).aliasKey = aliasKey e := rfl

/-- The entries of a hint are among its aliases. -/
theorem filter_hint_sublist {es all : List FilesystemEntry} (h : es.Sublist all) (hint : TransitionKey) :
    ((es.filter transitionEligible).filter fun e => transitionKey e = hint).Sublist
      ((all.filter hasObjectHint).filter fun e => aliasKey e = hint.aliasKey) := by
  rw [List.filter_filter, List.filter_filter]
  refine (h.filter _).trans (List.monotone_filter_right _ fun e he => ?_)
  simp only [Bool.and_eq_true, decide_eq_true_eq] at he ⊢
  exact ⟨by rw [← he.1, aliasKey_transitionKey], hasObjectHint_of_eligible he.2⟩

theorem sources_sublist (h : input.Within) : (input.sources hint).Sublist (input.sourceAliases hint) :=
  filter_hint_sublist h.base hint

theorem targets_sublist (h : input.Within) : (input.targets hint).Sublist (input.targetAliases hint) :=
  filter_hint_sublist h.target hint

theorem length_sources_le (h : input.Within) (hu : ¬ input.Aliased hint) : (input.sources hint).length ≤ 1 :=
  (sources_sublist h).length_le.trans (Nat.not_lt.1 fun hlt => hu (.inl hlt))

theorem length_targets_le (h : input.Within) (hu : ¬ input.Aliased hint) : (input.targets hint).length ≤ 1 :=
  (targets_sublist h).length_le.trans (Nat.not_lt.1 fun hlt => hu (.inr hlt))

/-- A list of at most one element has one order. -/
theorem eq_of_perm_of_length_le_one {α : Type} {xs ys : List α} (hp : xs.Perm ys) (h : xs.length ≤ 1) :
    ys = xs := by
  match xs with
  | [] => exact List.nil_perm.1 hp
  | [x] => exact List.perm_singleton.1 hp.symm

theorem payloadDigests_perm {es es' : List FilesystemEntry} (hp : es.Perm es') :
    payloadDigests reused es = payloadDigests reused es' := List.toFinset_eq_of_perm _ _ (hp.map _)

theorem none_mem_payloadDigests {es : List FilesystemEntry} :
    none ∈ payloadDigests reused es ↔ ∃ e ∈ es, successfulPayloadDigest reused e = none := by
  simp [payloadDigests]

theorem not_known : (none ∈ payloadDigests reused (input.sources hint) ∨
    none ∈ payloadDigests reused (input.targets hint)) ↔ ¬ input.Known reused hint := by
  simp only [none_mem_payloadDigests, TransitionInput.Known, List.mem_append, not_forall, not_not]
  constructor
  · rintro (⟨e, he, hn⟩ | ⟨e, he, hn⟩)
    · exact ⟨e, .inl he, hn⟩
    · exact ⟨e, .inr he, hn⟩
  · rintro ⟨e, he | he, hn⟩
    · exact .inl ⟨e, he, hn⟩
    · exact .inr ⟨e, he, hn⟩

/-- Sorting entries first does not change their sorted references. -/
theorem orderedReferences_sorted {es sorted : List FilesystemEntry} {rs : List SnapshotEntryReference}
    (h : sortedByM entrySortKey es = .ok sorted) (henc : ∀ r ∈ rs, r.encodable = true) :
    orderedReferences sorted = .ok rs ↔ orderedReferences es = .ok rs :=
  ⟨fun hrs => orderedReferences_of_perm hrs henc (sortedByM_perm h),
    fun hrs => orderedReferences_of_perm hrs henc (sortedByM_perm h).symm⟩

/-- The paths of the entries can be encoded. -/
def PathsEncodable (es : List FilesystemEntry) : Prop := ∀ e ∈ es, Ok (pathBytes e.relativePath)

theorem PathsEncodable.perm {es es' : List FilesystemEntry} (h : PathsEncodable es) (hp : es.Perm es') :
    PathsEncodable es' := fun e he => h e (hp.mem_iff.2 he)

theorem ambiguousTransition_eq_ok {cs ct : List SnapshotEntryReference}
    {out : Option (RelationItem × Option RelationAmbiguityGroup)} :
    ambiguousTransition F cs ct = .ok out ↔ Encodable cs ct none ∧
      out = some (relationItemOf F .ambiguousLocationTransition .ambiguous cs ct (some (groupIdOf F cs ct)),
        some ⟨groupIdOf F cs ct, cs, ct⟩) := by
  simp only [ambiguousTransition, bind_eq_ok, ambiguityGroupId_eq_ok, relationItem_eq_ok, pure_eq_ok]
  constructor
  · rintro ⟨_, ⟨henc, rfl⟩, _, ⟨-, rfl⟩, rfl⟩
    exact ⟨henc, rfl⟩
  · rintro ⟨henc, rfl⟩
    refine ⟨_, ⟨henc, rfl⟩, _, ⟨⟨henc.sources, henc.targets, fun g hg => ?_⟩, rfl⟩, rfl⟩
    rw [← Option.some.inj hg]
    exact groupIdOf_encodable cs ct

/-- Sorted and referenced: what the first lines of the loop need. -/
theorem sorted_references {es : List FilesystemEntry} (h : PathsEncodable es) :
    ∃ sorted rs, sortedByM entrySortKey es = .ok sorted ∧ orderedReferences sorted = .ok rs := by
  obtain ⟨sorted, hsorted⟩ := ok_sort_entries.2 h
  obtain ⟨rs, hrs⟩ := ok_orderedReferences.2 (h.perm (sortedByM_perm hsorted).symm)
  exact ⟨sorted, rs, hsorted, hrs⟩

/-- The component on one side: its aliases, or the entries of the hint alone. -/
theorem component_eq_ok {a b : Prop} [Decidable a] [Decidable b] {es al es' al' : List FilesystemEntry}
    {sr rs : List SnapshotEntryReference} (hab : a ↔ b) (hes : sortedByM entrySortKey es = .ok es')
    (hal : sortedByM entrySortKey al = .ok al') (hsr : orderedReferences es' = .ok sr)
    (henc : ∀ r ∈ rs, r.encodable = true) :
    component a al' sr = .ok rs ↔ orderedReferences (if b then al else es) = .ok rs := by
  simp only [component, hab]
  split_ifs
  · exact orderedReferences_sorted hal henc
  · rw [← orderedReferences_sorted hes henc, hsr]

theorem transitionResult_unknown {out : Option (RelationItem × Option RelationAmbiguityGroup)}
    (hknown : ¬ input.Known reused hint) : TransitionResult F input reused hint out ↔ out = none := by
  constructor
  · rintro (_ | ⟨hk, _⟩ | ⟨hk, _⟩)
    · rfl
    · exact absurd hk hknown
    · exact absurd hk hknown
  · rintro rfl
    exact .unknown hknown

theorem transitionResult_ambiguous {out : Option (RelationItem × Option RelationAmbiguityGroup)}
    (hknown : input.Known reused hint) (hamb : input.Aliased hint ∨ input.Conflicting reused hint) :
    TransitionResult F input reused hint out ↔
      ∃ cs, orderedReferences (input.componentSources hint) = .ok cs ∧
        ∃ ct, orderedReferences (input.componentTargets hint) = .ok ct ∧ Encodable cs ct none ∧
          out = some (relationItemOf F .ambiguousLocationTransition .ambiguous cs ct (some (groupIdOf F cs ct)),
            some ⟨groupIdOf F cs ct, cs, ct⟩) := by
  constructor
  · rintro (hk | ⟨_, _, hs, ht, henc⟩ | ⟨_, hna, hnc, _⟩)
    · exact absurd hknown hk
    · exact ⟨_, hs, _, ht, henc, rfl⟩
    · exact absurd hamb (not_or.2 ⟨hna, hnc⟩)
  · rintro ⟨cs, hs, ct, ht, henc, rfl⟩
    exact .ambiguous hknown hamb hs ht henc

theorem transitionResult_candidate {out : Option (RelationItem × Option RelationAmbiguityGroup)}
    (hknown : input.Known reused hint) (hamb : ¬ (input.Aliased hint ∨ input.Conflicting reused hint)) :
    TransitionResult F input reused hint out ↔
      ∃ ss, orderedReferences (input.sources hint) = .ok ss ∧
        ∃ ts, orderedReferences (input.targets hint) = .ok ts ∧ Encodable ss ts none ∧
          out = some (relationItemOf F (transitionKind (input.sources hint) (input.targets hint)) .candidate ss ts none,
            none) := by
  constructor
  · rintro (hk | ⟨_, ha, _⟩ | ⟨_, _, _, hs, ht, henc⟩)
    · exact absurd hknown hk
    · exact absurd ha hamb
    · exact ⟨_, hs, _, ht, henc, rfl⟩
  · rintro ⟨ss, hs, ts, ht, henc, rfl⟩
    exact .candidate hknown (not_or.1 hamb).1 (not_or.1 hamb).2 hs ht henc

theorem transitionOf_eq_ok {out : Option (RelationItem × Option RelationAmbiguityGroup)}
    (hw : input.Within) : transitionOf F input reused hint = .ok out ↔
      (PathsEncodable (input.sources hint) ∧ PathsEncodable (input.targets hint)) ∧
      (input.Known reused hint →
        PathsEncodable (input.sourceAliases hint) ∧ PathsEncodable (input.targetAliases hint)) ∧
      TransitionResult F input reused hint out := by
  have hs : groupOf (byHint input.baseEntries) hint = input.sources hint := groupOf_groupBy
  have ht : groupOf (byHint input.targetEntries) hint = input.targets hint := groupOf_groupBy
  have hsa : groupOf (aliasesOf input.baseSnapshotEntries) hint.aliasKey = input.sourceAliases hint :=
    groupOf_groupBy
  have hta : groupOf (aliasesOf input.targetSnapshotEntries) hint.aliasKey = input.targetAliases hint :=
    groupOf_groupBy
  rw [transitionOf, hs, ht, hsa, hta]
  by_cases hpaths : PathsEncodable (input.sources hint) ∧ PathsEncodable (input.targets hint)
  swap
  · refine iff_of_false (fun h => hpaths ?_) fun h => hpaths h.1
    obtain ⟨ss, hss, h⟩ := bind_eq_ok.1 h
    obtain ⟨ts, hts, h⟩ := bind_eq_ok.1 h
    exact ⟨ok_sort_entries.1 ⟨_, hss⟩, ok_sort_entries.1 ⟨_, hts⟩⟩
  obtain ⟨ss, sr, hss, hsr⟩ := sorted_references hpaths.1
  obtain ⟨ts, tr, hts, htr⟩ := sorted_references hpaths.2
  rw [hss, hts, ok_bind_ok, ok_bind_ok, hsr, htr, ok_bind_ok, ok_bind_ok]
  have hds : payloadDigests reused ss = payloadDigests reused (input.sources hint) :=
    payloadDigests_perm (sortedByM_perm hss)
  have hdt : payloadDigests reused ts = payloadDigests reused (input.targets hint) :=
    payloadDigests_perm (sortedByM_perm hts)
  have hunknown : (none ∈ payloadDigests reused ss ∨ none ∈ payloadDigests reused ts) ↔
      ¬ input.Known reused hint := by rw [hds, hdt, not_known]
  simp only [hpaths, and_self, true_and]
  by_cases hknown : input.Known reused hint
  swap
  · rw [if_pos (hunknown.2 hknown), transitionResult_unknown hknown, pure_eq_ok]
    exact ⟨fun h => ⟨fun hk => absurd hk hknown, h.symm⟩, fun h => h.2.symm⟩
  rw [if_neg (hunknown.not.2 (not_not.2 hknown))]
  by_cases halias : PathsEncodable (input.sourceAliases hint) ∧ PathsEncodable (input.targetAliases hint)
  swap
  · refine iff_of_false (fun h => halias ?_) fun h => halias (h.1 hknown)
    obtain ⟨sa, hsa, h⟩ := bind_eq_ok.1 h
    obtain ⟨ta, hta, h⟩ := bind_eq_ok.1 h
    exact ⟨ok_sort_entries.1 ⟨_, hsa⟩, ok_sort_entries.1 ⟨_, hta⟩⟩
  obtain ⟨sa, -, hsa, -⟩ := sorted_references halias.1
  obtain ⟨ta, -, hta, -⟩ := sorted_references halias.2
  have haliased : (1 < sa.length ∨ 1 < ta.length) ↔ input.Aliased hint := by
    rw [(sortedByM_perm hsa).length_eq, (sortedByM_perm hta).length_eq]
    rfl
  have hambiguous : ((1 < sa.length ∨ 1 < ta.length) ∨ (payloadDigests reused ss ∪ payloadDigests reused ts).card ≠ 1)
      ↔ input.Aliased hint ∨ input.Conflicting reused hint := by
    rw [haliased, hds, hdt]
    rfl
  rw [hsa, hta, ok_bind_ok, ok_bind_ok]
  simp only [halias, and_self, implies_true, true_and]
  by_cases hamb : input.Aliased hint ∨ input.Conflicting reused hint
  · rw [if_pos (hambiguous.2 hamb), transitionResult_ambiguous hknown hamb]
    simp only [bind_eq_ok, ambiguousTransition_eq_ok]
    constructor
    · rintro ⟨cs, hcs, ct, hct, henc, hout⟩
      exact ⟨cs, (component_eq_ok haliased hss hsa hsr henc.sources).1 hcs, ct,
        (component_eq_ok haliased hts hta htr henc.targets).1 hct, henc, hout⟩
    · rintro ⟨cs, hcs, ct, hct, henc, hout⟩
      exact ⟨cs, (component_eq_ok haliased hss hsa hsr henc.sources).2 hcs, ct,
        (component_eq_ok haliased hts hta htr henc.targets).2 hct, henc, hout⟩
  · have hss' := eq_of_perm_of_length_le_one (sortedByM_perm hss).symm
      (length_sources_le hw (not_or.1 hamb).1)
    have hts' := eq_of_perm_of_length_le_one (sortedByM_perm hts).symm
      (length_targets_le hw (not_or.1 hamb).1)
    rw [if_neg (hambiguous.not.2 hamb), transitionResult_candidate hknown hamb, hss', hts']
    rw [hss'] at hsr
    rw [hts'] at htr
    simp only [bind_eq_ok, relationItem_eq_ok, pure_eq_ok, hsr, htr, Except.ok.injEq]
    constructor
    · rintro ⟨item, ⟨henc, rfl⟩, rfl⟩
      exact ⟨_, rfl, _, rfl, henc, rfl⟩
    · rintro ⟨_, rfl, _, rfl, henc, rfl⟩
      exact ⟨_, ⟨henc, rfl⟩, rfl⟩

/-! ## All hints -/

theorem mem_sharedHints : hint ∈ sharedHints input ↔
    (∃ e, e ∈ input.sources hint) ∧ ∃ e, e ∈ input.targets hint := by
  simp only [sharedHints, mem_sortedKeys, List.mem_filter, decide_eq_true_eq, byHint, mem_keys_groupBy]
  simp only [List.mem_map, List.mem_filter, mem_sources, mem_targets, and_assoc]

theorem nodup_sharedHints : (sharedHints input).Nodup := nodup_sortedKeys

theorem transitionRelations_eq_ok {relations : List RelationItem} {groups : List RelationAmbiguityGroup} :
    transitionRelations F input reused = .ok (relations, groups) ↔
      ∃ found, (sharedHints input).mapM (transitionOf F input reused) = .ok found ∧
        relations = (found.filterMap id).map Prod.fst ∧
        groups = (found.filterMap id).filterMap Prod.snd := by
  simp only [transitionRelations, bind_eq_ok, pure_eq_ok, Prod.mk.injEq]
  constructor <;> rintro ⟨found, h, hr, hg⟩ <;> exact ⟨found, h, hr.symm, hg.symm⟩

theorem transitionInput_within (base target : List FilesystemEntry) : (transitionInput base target).Within :=
  ⟨List.filter_sublist, List.filter_sublist⟩

end

/-! ## The set -/

theorem relationSet_eq_ok {baseId targetId : Text} {relations : List RelationItem}
    {groups : List RelationAmbiguityGroup} {set : RelationSet} :
    relationSet F baseId targetId relations groups = .ok set ↔
      ∃ ors, sortedByM itemSortKey relations = .ok ors ∧
        ∃ ogs, sortedByM groupSortKey groups = .ok ogs ∧
          ∃ bytes, canonicalRelationSet F ⟨1, txt "cross_snapshot_relation", 1, baseId, targetId, ors, ogs, []⟩ =
            .ok bytes ∧ set = ⟨1, txt "cross_snapshot_relation", 1, baseId, targetId, ors, ogs,
              Runtime.sha256 F (Text.utf8 bytes)⟩ := by
  simp only [relationSet, bind_eq_ok, pure_eq_ok]
  constructor <;> rintro ⟨ors, ho, ogs, hg, bytes, hb, h⟩ <;> exact ⟨ors, ho, ogs, hg, bytes, hb, h.symm⟩

/-- The parts a computed set is put together from. -/
structure RelationParts (F : Type) [SqliteFloat F] (base target : FilesystemSnapshot) (adjacent reused : Bool)
    (same : List (Option RelationItem)) (transitions : List RelationItem × List RelationAmbiguityGroup) :
    Prop where
  pair : base.snapshotId ≠ target.snapshotId ∧ ¬ target.startedAt < base.completedAt
  baseLocated : base.Located
  targetLocated : target.Located
  same : ∃ common, sortedByM (fun pair => entrySortKey pair.1) (commonEntries base.entries target.entries) =
    .ok common ∧ common.mapM (fun pair => sameLocationRelation F reused pair.1 pair.2) = .ok same
  transitions : adjacentTransitions F adjacent (transitionInput base.entries target.entries) reused =
    .ok transitions

theorem computeSnapshotRelations_eq_ok {base target : FilesystemSnapshot} {adjacent reused : Bool}
    {set : RelationSet} : computeSnapshotRelations F base target adjacent reused = .ok set ↔
      ∃ same transitions, RelationParts F base target adjacent reused same transitions ∧
        relationSet F base.snapshotId target.snapshotId (same.filterMap id ++ transitions.1) transitions.2 =
          .ok set := by
  unfold computeSnapshotRelations
  constructor
  · intro h
    obtain ⟨_, hpair, h⟩ := bind_eq_ok.1 h
    obtain ⟨_, hbs, h⟩ := bind_eq_ok.1 h
    obtain ⟨rfl, hbase⟩ := locatedEntries_eq_ok.1 hbs
    obtain ⟨_, hts, h⟩ := bind_eq_ok.1 h
    obtain ⟨rfl, htarget⟩ := locatedEntries_eq_ok.1 hts
    obtain ⟨common, hcommon, h⟩ := bind_eq_ok.1 h
    obtain ⟨same, hsame, h⟩ := bind_eq_ok.1 h
    obtain ⟨transitions, htr, h⟩ := bind_eq_ok.1 h
    exact ⟨same, transitions, ⟨validatePair_eq_ok.1 hpair, hbase, htarget, ⟨common, hcommon, hsame⟩, htr⟩, h⟩
  · rintro ⟨same, transitions, ⟨hpair, hbase, htarget, ⟨common, hcommon, hsame⟩, htr⟩, h⟩
    rw [validatePair_eq_ok.2 hpair, ok_bind_ok, entriesByLocation, locatedEntries_eq_ok.2 ⟨rfl, hbase⟩, ok_bind_ok,
      entriesByLocation, locatedEntries_eq_ok.2 ⟨rfl, htarget⟩, ok_bind_ok, hcommon, ok_bind_ok, hsame, ok_bind_ok,
      htr, ok_bind_ok]
    exact h

/-- A computed set holds its parts, sorted. -/
theorem computeSnapshotRelations_parts {base target : FilesystemSnapshot} {adjacent reused : Bool}
    {set : RelationSet} (h : computeSnapshotRelations F base target adjacent reused = .ok set) :
    ∃ same transitions, RelationParts F base target adjacent reused same transitions ∧
      set.relations.Perm (same.filterMap id ++ transitions.1) ∧ set.ambiguityGroups.Perm transitions.2 := by
  obtain ⟨same, transitions, hparts, hset⟩ := computeSnapshotRelations_eq_ok.1 h
  obtain ⟨ors, hors, ogs, hogs, bytes, -, rfl⟩ := relationSet_eq_ok.1 hset
  exact ⟨same, transitions, hparts, sortedByM_perm hors, sortedByM_perm hogs⟩

/-! ## The members of the parts -/

theorem mem_mapM {ε α β : Type} {f : α → Except ε β} {xs : List α} {as : List β} (h : xs.mapM f = .ok as) {a : β} :
    a ∈ as ↔ ∃ x ∈ xs, f x = .ok a := by
  refine ⟨exists_of_mem_mapM h, fun ⟨x, hx, hok⟩ => ?_⟩
  obtain ⟨b, hb, hok'⟩ := exists_mapM_of_mem h hx
  exact Except.ok.inj (hok.symm.trans hok') ▸ hb

section
variable {base target : FilesystemSnapshot} {adjacent reused : Bool} {same : List (Option RelationItem)}
  {transitions : List RelationItem × List RelationAmbiguityGroup} {item : RelationItem}
  (h : RelationParts F base target adjacent reused same transitions)
include h

theorem RelationParts.mem_same : item ∈ same.filterMap id ↔ ∃ b ∈ base.entries, ∃ t ∈ target.entries,
    b.location = t.location ∧ sameLocationRelation F reused b t = .ok (some item) := by
  obtain ⟨common, hcommon, hsame⟩ := h.same
  simp only [List.mem_filterMap, id, exists_eq_right]
  constructor
  · intro hitem
    obtain ⟨⟨b, t⟩, hpair, hok⟩ := exists_of_mem_mapM hsame hitem
    obtain ⟨hb, ht, hloc⟩ := (mem_commonEntries h.targetLocated).1 ((mem_sortedByM hcommon).1 hpair)
    exact ⟨b, hb, t, ht, hloc, hok⟩
  · rintro ⟨b, hb, t, ht, hloc, hok⟩
    have hpair : (b, t) ∈ common :=
      (mem_sortedByM hcommon).2 ((mem_commonEntries h.targetLocated).2 ⟨hb, ht, hloc⟩)
    obtain ⟨out, hout, hok'⟩ := exists_mapM_of_mem hsame hpair
    rw [hok, Except.ok.injEq] at hok'
    rwa [hok']

theorem RelationParts.found : transitions = ([], []) ∧ adjacent = false ∨ adjacent = true ∧
    ∃ found, (sharedHints (transitionInput base.entries target.entries)).mapM
      (transitionOf F (transitionInput base.entries target.entries) reused) = .ok found ∧
      transitions = ((found.filterMap id).map Prod.fst, (found.filterMap id).filterMap Prod.snd) := by
  have htr := h.transitions
  cases adjacent with
  | false =>
    cases htr
    exact .inl ⟨rfl, rfl⟩
  | true =>
    obtain ⟨found, hfound, hr, hg⟩ := transitionRelations_eq_ok.1 htr
    exact .inr ⟨rfl, found, hfound, Prod.ext hr hg⟩

theorem RelationParts.mem_transitions : item ∈ transitions.1 ↔ adjacent = true ∧
    ∃ hint ∈ sharedHints (transitionInput base.entries target.entries), ∃ group?,
      transitionOf F (transitionInput base.entries target.entries) reused hint = .ok (some (item, group?)) := by
  rcases h.found with ⟨rfl, hadj⟩ | ⟨hadj, found, hfound, rfl⟩
  · simp [hadj]
  simp only [hadj, List.mem_map, List.mem_filterMap, id, exists_eq_right, true_and, mem_mapM hfound]
  constructor
  · rintro ⟨⟨_, group?⟩, ⟨hint, hhint, hok⟩, rfl⟩
    exact ⟨hint, hhint, group?, hok⟩
  · rintro ⟨hint, hhint, group?, hok⟩
    exact ⟨_, ⟨hint, hhint, hok⟩, rfl⟩

theorem RelationParts.mem_groups {group : RelationAmbiguityGroup} : group ∈ transitions.2 ↔ adjacent = true ∧
    ∃ hint ∈ sharedHints (transitionInput base.entries target.entries), ∃ item,
      transitionOf F (transitionInput base.entries target.entries) reused hint =
        .ok (some (item, some group)) := by
  rcases h.found with ⟨rfl, hadj⟩ | ⟨hadj, found, hfound, rfl⟩
  · simp [hadj]
  simp only [hadj, List.mem_filterMap, id, exists_eq_right, true_and, mem_mapM hfound]
  constructor
  · rintro ⟨⟨item, _⟩, ⟨hint, hhint, hok⟩, rfl⟩
    exact ⟨hint, hhint, item, hok⟩
  · rintro ⟨hint, hhint, item, hok⟩
    exact ⟨_, ⟨hint, hhint, hok⟩, rfl⟩

end

/-! ## What the sort of the set tells apart -/

/-- A relation as the computation makes it. -/
def RelationItem.Formed (F : Type) [SqliteFloat F] (item : RelationItem) : Prop :=
  ∃ kind certainty sources targets groupId, Encodable sources targets groupId ∧
    (∀ g ∈ groupId, g ≠ []) ∧ item = relationItemOf F kind certainty sources targets groupId

/-- A group as the computation makes it. -/
def RelationAmbiguityGroup.Formed (F : Type) [SqliteFloat F] (group : RelationAmbiguityGroup) : Prop :=
  ∃ sources targets, Encodable sources targets none ∧
    group = ⟨groupIdOf F sources targets, sources, targets⟩

theorem formed_of_transition {input : TransitionInput} {reused : Bool} {hint : TransitionKey}
    {item : RelationItem} {group? : Option RelationAmbiguityGroup}
    (h : TransitionResult F input reused hint (some (item, group?))) :
    item.Formed F ∧ ∀ group ∈ group?, group.Formed F := by
  cases h with
  | ambiguous _ _ _ _ henc =>
    refine ⟨⟨_, _, _, _, _, ⟨henc.sources, henc.targets, ?_⟩, ?_, rfl⟩, ?_⟩
    · rintro g hg
      rw [← Option.some.inj hg]
      exact groupIdOf_encodable _ _
    · rintro g hg
      rw [← Option.some.inj hg]
      exact groupIdOf_ne_nil _ _
    · rintro group hg
      rw [← Option.some.inj hg]
      exact ⟨_, _, henc, rfl⟩
  | candidate _ _ _ _ _ henc => exact ⟨⟨_, _, _, _, _, henc, by simp, rfl⟩, by simp⟩

section
variable {base target : FilesystemSnapshot} {adjacent reused : Bool} {same : List (Option RelationItem)}
  {transitions : List RelationItem × List RelationAmbiguityGroup}
  (h : RelationParts F base target adjacent reused same transitions)
include h

theorem RelationParts.item_formed {item : RelationItem} (hitem : item ∈ same.filterMap id ++ transitions.1) :
    item.Formed F := by
  rcases List.mem_append.1 hitem with hitem | hitem
  · obtain ⟨b, -, t, -, -, hok⟩ := h.mem_same.1 hitem
    rcases sameLocationRelation_eq_ok.1 hok with ⟨-, hnone⟩ | ⟨kind, certainty, -, henc, hsome⟩
    · cases hnone
    · exact ⟨kind, certainty, _, _, none, henc, by simp, Option.some.inj hsome⟩
  · obtain ⟨-, hint, -, group?, hok⟩ := h.mem_transitions.1 hitem
    exact (formed_of_transition ((transitionOf_eq_ok (transitionInput_within _ _)).1 hok).2.2).1

theorem RelationParts.group_formed {group : RelationAmbiguityGroup} (hgroup : group ∈ transitions.2) :
    group.Formed F := by
  obtain ⟨-, hint, -, item, hok⟩ := h.mem_groups.1 hgroup
  exact (formed_of_transition ((transitionOf_eq_ok (transitionInput_within _ _)).1 hok).2.2).2 group rfl

end

theorem itemSortKey_of_formed {item : RelationItem} (h : item.Formed F) : itemSortKey item =
    .ok (toLex (Named.name item.kind, toLex (Named.name item.certainty, toLex (item.sourceEntries.map refKey,
      toLex (item.targetEntries.map refKey, item.ambiguityGroupId.getD []))))) := by
  obtain ⟨kind, certainty, sources, targets, groupId, henc, -, rfl⟩ := h
  rw [itemSortKey]
  show (sources.mapM referenceSortKey >>= fun _ => targets.mapM referenceSortKey >>= _) = _
  rw [mapM_referenceSortKey henc.sources, ok_bind_ok, mapM_referenceSortKey henc.targets]
  rfl

/-- Relations with equal keys are equal. -/
theorem itemSortKey_inj {a b : RelationItem} (ha : a.Formed F) (hb : b.Formed F)
    (h : itemSortKey a = itemSortKey b) : a = b := by
  rw [itemSortKey_of_formed ha, itemSortKey_of_formed hb] at h
  have hkind := Prod.mk.inj (congrArg ofLex (Except.ok.inj h))
  have hcertainty := Prod.mk.inj (congrArg ofLex hkind.2)
  have hsources := Prod.mk.inj (congrArg ofLex hcertainty.2)
  have htargets := Prod.mk.inj (congrArg ofLex hsources.2)
  obtain ⟨kind, certainty, sources, targets, groupId, -, hg, rfl⟩ := ha
  obtain ⟨kind', certainty', sources', targets', groupId', -, hg', rfl⟩ := hb
  have hgroup : groupId = groupId' := by
    have hget : groupId.getD [] = groupId'.getD [] := htargets.2
    cases groupId with
    | none =>
      cases groupId' with
      | none => rfl
      | some g' => exact absurd hget.symm (hg' g' rfl)
    | some g =>
      cases groupId' with
      | none => exact absurd hget (hg g rfl)
      | some g' => exact congrArg some hget
  rw [show kind = kind' from Named.name_inj hkind.1, show certainty = certainty' from Named.name_inj hcertainty.1,
    show sources = sources' from List.map_injective_iff.2 refKey_injective hsources.1,
    show targets = targets' from List.map_injective_iff.2 refKey_injective htargets.1, hgroup]

theorem groupSortKey_of_formed {group : RelationAmbiguityGroup} (h : group.Formed F) : groupSortKey group =
    .ok (toLex (group.sourceEntries.map refKey, toLex (group.targetEntries.map refKey,
      group.ambiguityGroupId))) := by
  obtain ⟨sources, targets, henc, rfl⟩ := h
  rw [groupSortKey]
  show (sources.mapM referenceSortKey >>= fun _ => targets.mapM referenceSortKey >>= _) = _
  rw [mapM_referenceSortKey henc.sources, ok_bind_ok, mapM_referenceSortKey henc.targets]
  rfl

theorem groupSortKey_inj {a b : RelationAmbiguityGroup} (ha : a.Formed F) (hb : b.Formed F)
    (h : groupSortKey a = groupSortKey b) : a = b := by
  rw [groupSortKey_of_formed ha, groupSortKey_of_formed hb] at h
  have hsources := Prod.mk.inj (congrArg ofLex (Except.ok.inj h))
  have htargets := Prod.mk.inj (congrArg ofLex hsources.2)
  obtain ⟨sources, targets, -, rfl⟩ := ha
  obtain ⟨sources', targets', -, rfl⟩ := hb
  rw [show sources = sources' from List.map_injective_iff.2 refKey_injective hsources.1,
    show targets = targets' from List.map_injective_iff.2 refKey_injective htargets.1]

/-! ## When a set is returned -/

/-- Every text that reaches a digest can be encoded. -/
structure FilesystemSnapshot.Encodable (s : FilesystemSnapshot) : Prop where
  snapshotId : s.snapshotId.encodable = true
  entries : ∀ e ∈ s.entries, (reference e).encodable = true

theorem ok_pathBytes_of_reference {e : FilesystemEntry} (h : (reference e).encodable = true) :
    Ok (pathBytes e.relativePath) := by
  simp only [SnapshotEntryReference.encodable, Bool.and_eq_true] at h
  exact ⟨_, pathBytes_of_encodable h.2⟩

theorem orderedReferences_encodable {es : List FilesystemEntry} (h : ∀ e ∈ es, (reference e).encodable = true) :
    ∃ rs, orderedReferences es = .ok rs ∧ ∀ r ∈ rs, r.encodable = true := by
  obtain ⟨rs, hrs⟩ := ok_orderedReferences.2 fun e he => ok_pathBytes_of_reference (h e he)
  refine ⟨rs, hrs, fun r hr => ?_⟩
  obtain ⟨e, he, rfl⟩ := (mem_orderedReferences hrs).1 hr
  exact h e he

theorem ok_transitionOf {input : TransitionInput} (hw : input.Within)
    (hb : ∀ e ∈ input.baseSnapshotEntries, (reference e).encodable = true)
    (ht : ∀ e ∈ input.targetSnapshotEntries, (reference e).encodable = true) (reused : Bool)
    (hint : TransitionKey) : Ok (transitionOf F input reused hint) := by
  have hsa : ∀ e ∈ input.sourceAliases hint, (reference e).encodable = true := fun e he =>
    hb e (mem_sourceAliases.1 he).1
  have hta : ∀ e ∈ input.targetAliases hint, (reference e).encodable = true := fun e he =>
    ht e (mem_targetAliases.1 he).1
  have hs : ∀ e ∈ input.sources hint, (reference e).encodable = true := fun e he =>
    hsa e ((sources_sublist hw).subset he)
  have htg : ∀ e ∈ input.targets hint, (reference e).encodable = true := fun e he =>
    hta e ((targets_sublist hw).subset he)
  have hpaths : (PathsEncodable (input.sources hint) ∧ PathsEncodable (input.targets hint)) ∧
      (input.Known reused hint →
        PathsEncodable (input.sourceAliases hint) ∧ PathsEncodable (input.targetAliases hint)) :=
    ⟨⟨fun e he => ok_pathBytes_of_reference (hs e he), fun e he => ok_pathBytes_of_reference (htg e he)⟩,
      fun _ => ⟨fun e he => ok_pathBytes_of_reference (hsa e he), fun e he => ok_pathBytes_of_reference (hta e he)⟩⟩
  by_cases hknown : input.Known reused hint
  swap
  · exact ⟨none, (transitionOf_eq_ok hw).2 ⟨hpaths.1, hpaths.2, .unknown hknown⟩⟩
  by_cases hamb : input.Aliased hint ∨ input.Conflicting reused hint
  · have hsources : ∀ e ∈ input.componentSources hint, (reference e).encodable = true := by
      unfold TransitionInput.componentSources
      split_ifs <;> assumption
    have htargets : ∀ e ∈ input.componentTargets hint, (reference e).encodable = true := by
      unfold TransitionInput.componentTargets
      split_ifs <;> assumption
    obtain ⟨cs, hcs, henc⟩ := orderedReferences_encodable hsources
    obtain ⟨ct, hct, henc'⟩ := orderedReferences_encodable htargets
    exact ⟨_, (transitionOf_eq_ok hw).2 ⟨hpaths.1, hpaths.2,
      .ambiguous hknown hamb hcs hct ⟨henc, henc', by simp⟩⟩⟩
  · obtain ⟨ss, hss, henc⟩ := orderedReferences_encodable hs
    obtain ⟨ts, hts, henc'⟩ := orderedReferences_encodable htg
    exact ⟨_, (transitionOf_eq_ok hw).2 ⟨hpaths.1, hpaths.2,
      .candidate hknown (not_or.1 hamb).1 (not_or.1 hamb).2 hss hts ⟨henc, henc', by simp⟩⟩⟩

theorem safe_relationSetContent {set : RelationSet} (hbase : set.baseSnapshotId.encodable = true)
    (htarget : set.targetSnapshotId.encodable = true) (halgorithm : set.algorithm.encodable = true)
    (hitem : ∀ item ∈ set.relations, item.Formed F) (hgroup : ∀ group ∈ set.ambiguityGroups, group.Formed F) :
    (relationSetContent F set).safe = true := by
  have hitems : (Value.list (set.relations.map fun item => Value.dict ((txt "relation_id", .str item.relationId) ::
      itemContent item.kind item.certainty item.reasonCodes item.ambiguityGroupId item.sourceEntries
        item.targetEntries)) : Value F).safe = true := by
    have hid : (txt "relation_id").encodable = true := by decide
    refine Value.safe_list.2 fun v hv => ?_
    obtain ⟨item, hmem, rfl⟩ := List.mem_map.1 hv
    obtain ⟨kind, certainty, sources, targets, groupId, henc, -, rfl⟩ := hitem item hmem
    have hcontent : (Value.dict (itemContent kind certainty [Named.name kind] groupId sources targets) :
        Value F).safe = true := safe_itemContent.2 henc
    obtain ⟨hkeys, hvals⟩ := Value.safe_dict.1 hcontent
    refine Value.safe_dict.2 ⟨List.forall_mem_cons.2 ⟨hid, hkeys⟩, List.forall_mem_cons.2 ⟨?_, hvals⟩⟩
    exact sha_encodable _
  have hgroups : (Value.list (set.ambiguityGroups.map fun group =>
      Value.dict ((txt "ambiguity_group_id", .str group.ambiguityGroupId) ::
        groupContent group.sourceEntries group.targetEntries)) : Value F).safe = true := by
    refine Value.safe_list.2 fun v hv => ?_
    obtain ⟨group, hmem, rfl⟩ := List.mem_map.1 hv
    obtain ⟨sources, targets, henc, rfl⟩ := hgroup group hmem
    have hkeys : ([txt "ambiguity_group_id", txt "source_entries", txt "target_entries"].all Text.encodable) = true :=
      by decide
    rw [Value.safe_dict]
    refine ⟨List.all_eq_true.1 hkeys, ?_⟩
    simp only [groupContent, List.forall_mem_cons, safe_referencesData]
    exact ⟨sha_encodable _, henc.sources, henc.targets, by simp⟩
  have hkeys : ([txt "domain", txt "relation_schema_version", txt "algorithm", txt "algorithm_version",
      txt "base_snapshot_id", txt "target_snapshot_id", txt "relations", txt "ambiguity_groups"].all
      Text.encodable) = true := by decide
  have hdomain : (txt "local_steward.cross_snapshot_relation.v1").encodable = true := by decide
  rw [relationSetContent, Value.safe_dict]
  refine ⟨List.all_eq_true.1 hkeys, ?_⟩
  simp only [List.forall_mem_cons, Value.safe_str, Value.safe_int, hdomain, hbase, htarget, halgorithm, hitems,
    hgroups, true_and]
  simp

/-- Ordered snapshots whose references can be encoded have a relation set. -/
theorem ok_computeSnapshotRelations {base target : FilesystemSnapshot} {adjacent reused : Bool}
    (hid : base.snapshotId ≠ target.snapshotId) (htime : ¬ target.startedAt < base.completedAt)
    (hbl : base.Located) (htl : target.Located) (hb : base.Encodable) (ht : target.Encodable) :
    Ok (computeSnapshotRelations F base target adjacent reused) := by
  obtain ⟨common, hcommon⟩ : Ok (sortedByM (fun pair => entrySortKey pair.1)
      (commonEntries base.entries target.entries)) := by
    refine ok_sortedByM.2 fun ⟨b, t⟩ hpair => ?_
    obtain ⟨hbm, -, -⟩ := (mem_commonEntries htl).1 hpair
    exact (ok_bind_of_total fun _ => ok_pure _).2 (ok_pathBytes_of_reference (hb.entries b hbm))
  obtain ⟨same, hsame⟩ : Ok (common.mapM fun pair => sameLocationRelation F reused pair.1 pair.2) := by
    refine ok_mapM.2 fun ⟨b, t⟩ hpair => ?_
    obtain ⟨hbm, htm, -⟩ := (mem_commonEntries htl).1 ((mem_sortedByM hcommon).1 hpair)
    cases hk : sameLocationKind reused b t with
    | none => exact ⟨none, sameLocationRelation_eq_ok.2 (.inl ⟨hk, rfl⟩)⟩
    | some k =>
      refine ⟨_, sameLocationRelation_eq_ok.2 (.inr ⟨k.1, k.2, hk, ⟨?_, ?_, by simp⟩, rfl⟩)⟩
      · exact fun r hr => List.mem_singleton.1 hr ▸ hb.entries b hbm
      · exact fun r hr => List.mem_singleton.1 hr ▸ ht.entries t htm
  obtain ⟨transitions, htr⟩ : Ok (adjacentTransitions F adjacent (transitionInput base.entries target.entries)
      reused) := by
    cases adjacent with
    | false => exact ⟨_, rfl⟩
    | true =>
      refine (ok_bind_of_total fun _ => ok_pure _).2 (ok_mapM.2 fun hint _ => ?_)
      exact ok_transitionOf (transitionInput_within _ _) hb.entries ht.entries reused hint
  have hparts : RelationParts F base target adjacent reused same transitions :=
    ⟨⟨hid, htime⟩, hbl, htl, ⟨common, hcommon, hsame⟩, htr⟩
  obtain ⟨ors, hors⟩ : Ok (sortedByM itemSortKey (same.filterMap id ++ transitions.1)) :=
    ok_sortedByM.2 fun item hitem => ⟨_, itemSortKey_of_formed (hparts.item_formed hitem)⟩
  obtain ⟨ogs, hogs⟩ : Ok (sortedByM groupSortKey transitions.2) :=
    ok_sortedByM.2 fun group hgroup => ⟨_, groupSortKey_of_formed (hparts.group_formed hgroup)⟩
  have halgorithm : (txt "cross_snapshot_relation").encodable = true := by decide
  have hsafe : (relationSetContent F ⟨1, txt "cross_snapshot_relation", 1, base.snapshotId, target.snapshotId,
      ors, ogs, []⟩).safe = true :=
    safe_relationSetContent hb.snapshotId ht.snapshotId halgorithm
      (fun item hitem => hparts.item_formed ((mem_sortedByM hors).1 hitem))
      (fun group hgroup => hparts.group_formed ((mem_sortedByM hogs).1 hgroup))
  obtain ⟨bytes, hbytes⟩ := ok_canonicalJson.2 hsafe
  exact ⟨_, computeSnapshotRelations_eq_ok.2 ⟨same, transitions, hparts,
    relationSet_eq_ok.2 ⟨ors, hors, ogs, hogs, bytes, hbytes, rfl⟩⟩⟩

end Steward
