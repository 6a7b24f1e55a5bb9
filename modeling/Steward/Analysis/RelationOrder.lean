import Steward.Analysis.RelationSpec

/-!
# Relations do not depend on the order of entries

Each step of the computation on reordered entries: the hints are the same set,
one hint yields the same relation, and the sort that orders the result tells
apart all relations that are encodable.
-/

namespace Steward

open Py Sqlite

/-! ## Locations -/

theorem nodup_commonEntries {base target : FilesystemSnapshot} (hb : base.Located) :
    (commonEntries base.entries target.entries).Nodup := by
  refine hb.nodup.filterMap fun b b' p hp hp' => ?_
  obtain ⟨t, -, rfl⟩ := Option.map_eq_some_iff.1 (Option.mem_def.1 hp)
  obtain ⟨t', -, heq⟩ := Option.map_eq_some_iff.1 (Option.mem_def.1 hp')
  exact (Prod.mk.inj heq).1.symm

theorem commonEntries_perm {base base' target target' : FilesystemSnapshot} (hb : base.Located)
    (ht : target.Located) (hbase : base.Reordered base') (htarget : target.Reordered target') :
    (commonEntries base.entries target.entries).Perm (commonEntries base'.entries target'.entries) := by
  refine (List.perm_ext_iff_of_nodup (nodup_commonEntries hb) (nodup_commonEntries (hb.reordered hbase))).2 ?_
  rintro ⟨b, t⟩
  rw [mem_commonEntries ht, mem_commonEntries (ht.reordered htarget), hbase.entries.mem_iff,
    htarget.entries.mem_iff]

theorem exclusiveEntries_perm {es es' os os' : List FilesystemEntry} (he : es.Perm es') (ho : os.Perm os') :
    (exclusiveEntries es os).Perm (exclusiveEntries es' os') := by
  have hfilter : exclusiveEntries es' os' = es'.filter fun e => !os.any fun o => o.location = e.location := by
    refine List.filter_congr fun e _ => ?_
    rw [Bool.not_inj_iff, Bool.eq_iff_iff, List.any_eq_true, List.any_eq_true]
    exact exists_congr fun o => and_congr_left fun _ => ho.mem_iff.symm
  rw [hfilter]
  exact he.filter _

/-! ## Hints -/

/-- The same four collections in other orders. -/
structure TransitionInput.Reordered (a b : TransitionInput) : Prop where
  baseEntries : a.baseEntries.Perm b.baseEntries
  targetEntries : a.targetEntries.Perm b.targetEntries
  baseSnapshotEntries : a.baseSnapshotEntries.Perm b.baseSnapshotEntries
  targetSnapshotEntries : a.targetSnapshotEntries.Perm b.targetSnapshotEntries

variable {F : Type} [SqliteFloat F]

section
variable {a b : TransitionInput} {reused : Bool} {hint : TransitionKey} (h : a.Reordered b)
include h

theorem sources_perm : (a.sources hint).Perm (b.sources hint) := (h.baseEntries.filter _).filter _

theorem targets_perm : (a.targets hint).Perm (b.targets hint) := (h.targetEntries.filter _).filter _

theorem sourceAliases_perm : (a.sourceAliases hint).Perm (b.sourceAliases hint) :=
  (h.baseSnapshotEntries.filter _).filter _

theorem targetAliases_perm : (a.targetAliases hint).Perm (b.targetAliases hint) :=
  (h.targetSnapshotEntries.filter _).filter _

theorem known_perm : a.Known reused hint ↔ b.Known reused hint :=
  forall_congr' fun _ => imp_congr_left ((sources_perm h).append (targets_perm h)).mem_iff

theorem aliased_perm : a.Aliased hint ↔ b.Aliased hint := by
  rw [TransitionInput.Aliased, (sourceAliases_perm h).length_eq, (targetAliases_perm h).length_eq]
  rfl

theorem conflicting_perm : a.Conflicting reused hint ↔ b.Conflicting reused hint := by
  rw [TransitionInput.Conflicting, payloadDigests_perm (sources_perm h), payloadDigests_perm (targets_perm h)]
  rfl

theorem componentSources_perm : (a.componentSources hint).Perm (b.componentSources hint) := by
  simp only [TransitionInput.componentSources, aliased_perm h]
  split_ifs
  · exact sourceAliases_perm h
  · exact sources_perm h

theorem componentTargets_perm : (a.componentTargets hint).Perm (b.componentTargets hint) := by
  simp only [TransitionInput.componentTargets, aliased_perm h]
  split_ifs
  · exact targetAliases_perm h
  · exact targets_perm h

theorem sharedHints_eq : sharedHints a = sharedHints b := by
  have hsame (hint : TransitionKey) : hint ∈ sharedHints a ↔ hint ∈ sharedHints b := by
    rw [mem_sharedHints, mem_sharedHints]
    exact and_congr (exists_congr fun _ => (sources_perm h).mem_iff)
      (exists_congr fun _ => (targets_perm h).mem_iff)
  have hperm : (sharedHints a).Perm (sharedHints b) :=
    (List.perm_ext_iff_of_nodup nodup_sharedHints nodup_sharedHints).2 hsame
  exact hperm.eq_of_pairwise (fun _ _ _ _ => le_antisymm) (List.pairwise_insertionSort _ _)
    (List.pairwise_insertionSort _ _)

theorem transitionResult_perm (hw : a.Within) {out : Option (RelationItem × Option RelationAmbiguityGroup)}
    (hout : TransitionResult F a reused hint out) : TransitionResult F b reused hint out := by
  cases hout with
  | unknown hknown => exact .unknown ((known_perm h).not.1 hknown)
  | ambiguous hknown hamb hs ht henc =>
    exact .ambiguous ((known_perm h).1 hknown) ((or_congr (aliased_perm h) (conflicting_perm h)).1 hamb)
      (orderedReferences_of_perm hs henc.sources (componentSources_perm h))
      (orderedReferences_of_perm ht henc.targets (componentTargets_perm h)) henc
  | candidate hknown hna hnc hs ht henc =>
    have hsources := eq_of_perm_of_length_le_one (sources_perm h) (length_sources_le hw hna)
    have htargets := eq_of_perm_of_length_le_one (targets_perm h) (length_targets_le hw hna)
    have hcandidate : TransitionResult F b reused hint _ := .candidate ((known_perm h).1 hknown)
      ((aliased_perm h).not.1 hna) ((conflicting_perm h).not.1 hnc)
      (orderedReferences_of_perm hs henc.sources (sources_perm h))
      (orderedReferences_of_perm ht henc.targets (targets_perm h)) henc
    rwa [hsources, htargets] at hcandidate

theorem transitionOf_perm (ha : a.Within) (hb : b.Within)
    {out : Option (RelationItem × Option RelationAmbiguityGroup)}
    (hout : transitionOf F a reused hint = .ok out) : transitionOf F b reused hint = .ok out := by
  obtain ⟨hpaths, haliases, hresult⟩ := (transitionOf_eq_ok ha).1 hout
  refine (transitionOf_eq_ok hb).2 ⟨⟨hpaths.1.perm (sources_perm h), hpaths.2.perm (targets_perm h)⟩,
    fun hknown => ?_, transitionResult_perm h ha hresult⟩
  obtain ⟨hsa, hta⟩ := haliases ((known_perm h).2 hknown)
  exact ⟨hsa.perm (sourceAliases_perm h), hta.perm (targetAliases_perm h)⟩

theorem adjacentTransitions_perm (ha : a.Within) (hb : b.Within) {adjacent : Bool}
    {out : List RelationItem × List RelationAmbiguityGroup}
    (hout : adjacentTransitions F adjacent a reused = .ok out) :
    adjacentTransitions F adjacent b reused = .ok out := by
  cases adjacent with
  | false => exact hout
  | true =>
    obtain ⟨found, hfound, hrest⟩ := transitionRelations_eq_ok.1 hout
    refine transitionRelations_eq_ok.2 ⟨found, ?_, hrest⟩
    rw [sharedHints_eq h, mapM_eq_ok] at hfound
    exact mapM_eq_ok.2 (hfound.imp fun _ _ => transitionOf_perm h ha hb)

end

/-! ## The set -/

theorem relationSet_perm {baseId targetId : Text} {relations relations' : List RelationItem}
    {groups groups' : List RelationAmbiguityGroup} (hr : relations.Perm relations') (hg : groups.Perm groups')
    (hitem : ∀ item ∈ relations, item.Formed F) (hgroup : ∀ group ∈ groups, group.Formed F)
    {set : RelationSet} (h : relationSet F baseId targetId relations groups = .ok set) :
    relationSet F baseId targetId relations' groups' = .ok set := by
  obtain ⟨ors, hors, ogs, hogs, hrest⟩ := relationSet_eq_ok.1 h
  refine relationSet_eq_ok.2 ⟨ors, ?_, ogs, ?_, hrest⟩
  · exact sortedByM_of_perm hors hr fun a ha b hb => itemSortKey_inj (hitem a ha) (hitem b hb)
  · exact sortedByM_of_perm hogs hg fun a ha b hb => groupSortKey_inj (hgroup a ha) (hgroup b hb)

/-- Reordered snapshots give the same relation set. -/
theorem computeSnapshotRelations_reordered {base base' target target' : FilesystemSnapshot}
    (hbase : base.Reordered base') (htarget : target.Reordered target') {adjacent reused : Bool}
    {set : RelationSet} (h : computeSnapshotRelations F base target adjacent reused = .ok set) :
    computeSnapshotRelations F base' target' adjacent reused = .ok set := by
  obtain ⟨same, transitions, hparts, hset⟩ := computeSnapshotRelations_eq_ok.1 h
  have hinput : (transitionInput base.entries target.entries).Reordered
      (transitionInput base'.entries target'.entries) :=
    ⟨exclusiveEntries_perm hbase.entries htarget.entries, exclusiveEntries_perm htarget.entries hbase.entries,
      hbase.entries, htarget.entries⟩
  have hcommonPerm := commonEntries_perm hparts.baseLocated hparts.targetLocated hbase htarget
  obtain ⟨common, hcommon, hsame⟩ := hparts.same
  obtain ⟨common', hcommon'⟩ : Ok (sortedByM (fun pair => entrySortKey pair.1)
      (commonEntries base'.entries target'.entries)) :=
    ok_sortedByM.2 fun pair hpair => ok_sortedByM.1 ⟨common, hcommon⟩ pair (hcommonPerm.mem_iff.2 hpair)
  have hperm : common.Perm common' :=
    (sortedByM_perm hcommon).trans (hcommonPerm.trans (sortedByM_perm hcommon').symm)
  obtain ⟨same', hsame', hp⟩ := mapM_perm hperm hsame
  refine computeSnapshotRelations_eq_ok.2 ⟨same', transitions,
    ⟨?_, hparts.baseLocated.reordered hbase, hparts.targetLocated.reordered htarget,
      ⟨common', hcommon', hsame'⟩, ?_⟩, ?_⟩
  · rw [← hbase.snapshotId, ← htarget.snapshotId, ← hbase.completedAt, ← htarget.startedAt]
    exact hparts.pair
  · exact adjacentTransitions_perm hinput (transitionInput_within _ _) (transitionInput_within _ _)
      hparts.transitions
  · rw [← hbase.snapshotId, ← htarget.snapshotId]
    exact relationSet_perm ((hp.filterMap _).append_right _) (.refl _) (fun _ => hparts.item_formed)
      (fun _ => hparts.group_formed) hset

end Steward
