import Steward.Analysis.Duplicates
import Steward.Analysis.RelationIdentity

/-!
# Analyses do not depend on the order of entries

Reordered entries form the same groups of payloads, with their members
reordered. The members of every group are sorted before they are used, and only
encodable ones reach the result. With the like fact for relations, the canonical
bytes of both analyses are functions of the sets of entries.
-/

namespace Steward

open Py Sqlite

variable {F : Type} [SqliteFloat F]

/-! ## Groups with reordered members -/

/-- One key, and its members in another order. -/
def SameGroup {κ : Type} (g g' : κ × List FilesystemEntry) : Prop := g.1 = g'.1 ∧ g.2.Perm g'.2

section
variable {es es' : List FilesystemEntry} {reused : Bool} (h : es.Perm es')
include h

theorem regularEntries_perm : (regularEntries es).Perm (regularEntries es') := h.filter _

theorem observedEntries_perm : (observedEntries es).Perm (observedEntries es') := (h.filter _).filter _

theorem analyzableEntries_perm : (analyzableEntries reused es).Perm (analyzableEntries reused es') :=
  (h.filter _).filter _

theorem unknownEntries_perm : (unknownEntries reused es).Perm (unknownEntries reused es') :=
  (h.filter _).filter _

theorem sortedHints_perm : List.Forall₂ SameGroup (sortedHints es) (sortedHints es') :=
  sortedGroups_perm (h.filter _)

theorem aliasedHints_perm : List.Forall₂ SameGroup (aliasedHints es) (aliasedHints es') :=
  forall₂_filter (sortedHints_perm (observedEntries_perm h)) fun g g' hg => by rw [hg.2.length_eq]

end

theorem severalValues_perm {α : Type} [DecidableEq α] {xs ys : List α} (h : xs.Perm ys) :
    severalValues xs = severalValues ys := by
  rw [severalValues, severalValues, List.toFinset_eq_of_perm _ _ h]

theorem singleValue_perm {xs ys : List Int} (h : xs.Perm ys) : singleValue xs = singleValue ys := by
  have hd := h.dedup
  unfold singleValue
  match hx : xs.dedup with
  | [] => rw [hx] at hd; rw [List.nil_perm.1 hd]
  | [v] => rw [hx] at hd; rw [List.perm_singleton.1 hd.symm]
  | a :: b :: l =>
    rw [hx] at hd
    match hy : ys.dedup with
    | [] => rfl
    | [v] => rw [hy] at hd; simpa using hd.length_eq
    | _ :: _ :: _ => rfl

theorem hintConflictCodes_perm {reused : Bool} {ms ms' : List FilesystemEntry} (h : ms.Perm ms') :
    hintConflictCodes reused ms = hintConflictCodes reused ms' := by
  have hcounts : (ms.filterMap FilesystemEntry.linkCount).any (fun count => count < ms.length) =
      (ms'.filterMap FilesystemEntry.linkCount).any (fun count => count < ms'.length) := by
    rw [Bool.eq_iff_iff, List.any_eq_true, List.any_eq_true, h.length_eq]
    exact exists_congr fun c => and_congr_left fun _ => (h.filterMap _).mem_iff
  rw [hintConflictCodes, hintConflictCodes, severalValues_perm (h.filterMap _), severalValues_perm (h.filterMap _),
    severalValues_perm (h.filterMap _), hcounts]

theorem conflictedHints_perm {reused : Bool} {es es' : List FilesystemEntry} (h : es.Perm es') :
    conflictedHints reused es = conflictedHints reused es' := by
  refine forall₂_map_eq (forall₂_filter (aliasedHints_perm h) fun g g' hg => ?_) fun _ _ hg => hg.1
  rw [hintConflictCodes_perm hg.2]

theorem unitAllocation_perm {conflicted : List ObjectHint} {g g' : ObjectHint × List FilesystemEntry}
    (h : SameGroup g g') : unitAllocation conflicted g = unitAllocation conflicted g' := by
  rw [unitAllocation, unitAllocation, h.1, (h.2.filterMap entryAllocatedSize).dedup.length_eq, h.2.length_eq,
    singleValue_perm (h.2.filterMap entryAllocatedSize)]

theorem unitAllocations_perm {conflicted : List ObjectHint} {es es' : List FilesystemEntry} (h : es.Perm es') :
    (unitAllocations conflicted es).Perm (unitAllocations conflicted es') := by
  have hgroups : ((groupBy objectHint (es.filter hasObjectHint)).map (unitAllocation conflicted)).Perm
      ((groupBy objectHint (es'.filter hasObjectHint)).map (unitAllocation conflicted)) := by
    refine (sortedGroups_perm_groupBy.symm.map _).trans (List.Perm.trans ?_ (sortedGroups_perm_groupBy.map _))
    exact .of_eq (forall₂_map_eq (sortedHints_perm h) fun _ _ hg => unitAllocation_perm hg)
  refine hgroups.append ?_
  rw [h.countP_eq]

theorem physicalStorageSummary_perm {as as' : List (Option Int)} (h : as.Perm as') :
    physicalStorageSummary as = physicalStorageSummary as' := by
  rw [physicalStorageSummary, physicalStorageSummary, (h.filterMap id).sum_eq, h.countP_eq, h.countP_eq]

theorem sortedCounts_perm {cs cs' : List Text} (h : cs.Perm cs') : sortedCounts cs = sortedCounts cs' := by
  rw [sortedCounts, sortedCounts, sortedKeys_perm h]
  exact List.map_congr_left fun c _ => by rw [h.count_eq]

theorem coverageSummary_perm {reused : Bool} {es es' : List FilesystemEntry} {aliases : List HardLinkAliasSet}
    (h : es.Perm es') : coverageSummary reused es aliases = coverageSummary reused es' aliases := by
  have hhints : (groupBy objectHint ((observedEntries es).filter hasObjectHint)).length =
      (groupBy objectHint ((observedEntries es').filter hasObjectHint)).length := by
    rw [← sortedGroups_perm_groupBy.length_eq, ← sortedGroups_perm_groupBy.length_eq]
    exact (sortedHints_perm (observedEntries_perm h)).length_eq
  simp only [coverageSummary, logicalBytes, h.length_eq, (regularEntries_perm h).length_eq,
    (analyzableEntries_perm h).length_eq, ((analyzableEntries_perm h).map _).sum_eq,
    ((unknownEntries_perm h).map _).sum_eq, sortedCounts_perm ((regularEntries_perm h).map _),
    sortedCounts_perm ((unknownEntries_perm h).map _), hhints, (observedEntries_perm h).countP_eq]

/-! ## Members that reach the result -/

/-- A digest is only taken of references that can be encoded. -/
theorem encodable_of_digestOf {fields : List (Text × Value F)} {d : Text} {rs : List SnapshotEntryReference}
    (k : Text) (h : digestOf (.dict fields) = .ok d) (hk : (k, referencesData rs) ∈ fields) :
    ∀ r ∈ rs, r.encodable = true :=
  safe_referencesData.1 ((Value.safe_dict.1 (digestOf_eq_ok.1 h).1).2 _ hk)

theorem aliasSet_perm {hint : ObjectHint} {es es' : List FilesystemEntry} {set : HardLinkAliasSet}
    (h : aliasSet F hint es = .ok set) (hp : es.Perm es') : aliasSet F hint es' = .ok set := by
  obtain ⟨members, hmembers, h⟩ := bind_eq_ok.1 h
  obtain ⟨aliasSetId, hid, h⟩ := bind_eq_ok.1 h
  have henc : ∀ r ∈ members, r.encodable = true :=
    encodable_of_digestOf (txt "member_entries") hid (by simp [aliasContent])
  rw [aliasSet, orderedReferences_of_perm hmembers henc hp, ok_bind_ok, hid]
  exact h

theorem aliasSet_encodable {hint : ObjectHint} {es : List FilesystemEntry} {set : HardLinkAliasSet}
    (h : aliasSet F hint es = .ok set) : ∀ e ∈ es, (reference e).encodable = true := by
  obtain ⟨members, hmembers, h⟩ := bind_eq_ok.1 h
  obtain ⟨aliasSetId, hid, -⟩ := bind_eq_ok.1 h
  have henc : ∀ r ∈ members, r.encodable = true :=
    encodable_of_digestOf (txt "member_entries") hid (by simp [aliasContent])
  exact fun e he => henc _ ((mem_orderedReferences hmembers).2 ⟨e, he, rfl⟩)

theorem orderedReferences_perm {es es' : List FilesystemEntry} {rs : List SnapshotEntryReference}
    (h : orderedReferences es = .ok rs) (henc : ∀ e ∈ es, (reference e).encodable = true)
    (hp : es.Perm es') : orderedReferences es' = .ok rs := by
  refine orderedReferences_of_perm h (fun r hr => ?_) hp
  obtain ⟨e, he, rfl⟩ := (mem_orderedReferences h).1 hr
  exact henc e he

theorem hintConflicts_perm {reused : Bool} {g g' : ObjectHint × List FilesystemEntry}
    {conflicts : List IntegrityConflict} (h : hintConflicts reused g = .ok conflicts)
    (henc : ∀ e ∈ g.2, (reference e).encodable = true) (hg : SameGroup g g') :
    hintConflicts reused g' = .ok conflicts := by
  obtain ⟨rs, hrs, h⟩ := bind_eq_ok.1 h
  rw [hintConflicts, orderedReferences_perm hrs henc hg.2, ok_bind_ok, ← hintConflictCodes_perm hg.2]
  exact h

theorem sizeConflict_perm {es es' : List FilesystemEntry} {conflict : IntegrityConflict}
    (h : sizeConflict es = .ok conflict) (henc : ∀ r ∈ conflict.entries, r.encodable = true)
    (hp : es.Perm es') : sizeConflict es' = .ok conflict := by
  obtain ⟨rs, hrs, h⟩ := bind_eq_ok.1 h
  cases h
  rw [sizeConflict, orderedReferences_of_perm hrs henc hp]
  rfl

/-- Members told apart by their references sort in one way. -/
theorem sortMembers_perm {es es' members : List FilesystemEntry} (h : sortMembers es = .ok members)
    (henc : ∀ e ∈ es, (reference e).encodable = true)
    (hinj : ∀ a ∈ es, ∀ b ∈ es, reference a = reference b → a = b) (hp : es.Perm es') :
    sortMembers es' = .ok members :=
  sortedByM_of_perm h hp fun a ha b hb hab =>
    hinj a ha b hb (referenceSortKey_inj (henc a ha) (henc b hb) hab)

theorem payloadGroup_perm {aliases : List HardLinkAliasSet} {conflicted : List ObjectHint}
    {g g' : PayloadEqualityKey × List FilesystemEntry} {group : PayloadEqualityGroup}
    (h : payloadGroup F aliases conflicted g.1 g.2 = .ok group)
    (hinj : ∀ a ∈ g.2, ∀ b ∈ g.2, reference a = reference b → a = b) (hg : SameGroup g g') :
    payloadGroup F aliases conflicted g'.1 g'.2 = .ok group := by
  obtain ⟨members, hmembers, hrest⟩ := bind_eq_ok.1 h
  obtain ⟨units, hunits, hrest⟩ := bind_eq_ok.1 hrest
  obtain ⟨memberEntries, hentries, hrest⟩ := bind_eq_ok.1 hrest
  obtain ⟨payloadGroupId, hid, -⟩ := bind_eq_ok.1 hrest
  have hrefs : ∀ r ∈ memberEntries, r.encodable = true :=
    encodable_of_digestOf (txt "member_entries") hid (by simp [payloadGroupContent, groupWithoutId])
  have henc : ∀ e ∈ g.2, (reference e).encodable = true := fun e he =>
    hrefs _ ((mem_orderedReferences hentries).2 ⟨e, (mem_sortedByM hmembers).2 he, rfl⟩)
  rw [payloadGroup, sortMembers_perm hmembers henc hinj hg.2, ← hg.1]
  rwa [payloadGroup, hmembers] at h

/-! ## The analysis -/

section
variable {es es' : List FilesystemEntry} {reused : Bool} (h : es.Perm es')
include h

theorem aliasSets_perm {aliases : List HardLinkAliasSet} (ha : aliasSets F es = .ok aliases) :
    aliasSets F es' = .ok aliases :=
  mapM_transfer ha (aliasedHints_perm h) fun _ _ _ hg _ hset => hg.1 ▸ aliasSet_perm hset hg.2

theorem hintConflicts_mapM_perm {aliases : List HardLinkAliasSet} {byHint : List (List IntegrityConflict)}
    (ha : aliasSets F es = .ok aliases) (hc : (aliasedHints es).mapM (hintConflicts reused) = .ok byHint) :
    (aliasedHints es').mapM (hintConflicts reused) = .ok byHint := by
  have henc : ∀ g ∈ aliasedHints es, ∀ e ∈ g.2, (reference e).encodable = true := by
    intro g hg
    obtain ⟨set, -, hset⟩ := exists_mapM_of_mem ha hg
    exact aliasSet_encodable hset
  exact mapM_transfer hc ((List.forall₂_and_left _ _).2 ⟨henc, aliasedHints_perm h⟩)
    fun _ _ _ hg _ hok => hintConflicts_perm hok hg.1 hg.2

theorem sizeConflicts_perm : List.Forall₂ SameGroup (sizeConflicts reused es) (sizeConflicts reused es') := by
  refine forall₂_filter (sortedGroups_perm (analyzableEntries_perm h)) fun g g' hg => ?_
  rw [severalValues_perm (hg.2.map _)]

theorem equalPayloads_perm {conflicting : List SnapshotEntryReference} :
    List.Forall₂ SameGroup (equalPayloads reused es conflicting) (equalPayloads reused es' conflicting) := by
  refine forall₂_filter (sortedGroups_perm ((analyzableEntries_perm h).filter _)) fun g g' hg => ?_
  rw [hg.2.length_eq]

end

/-- Every conflict of a result can be encoded. -/
theorem analysisResult_encodable {id : Text} {groups : List PayloadEqualityGroup}
    {aliases : List HardLinkAliasSet} {coverage : CoverageSummary} {physical : PhysicalStorageSummary}
    {conflicts : List IntegrityConflict} {result : DuplicateAnalysisResult}
    (h : analysisResult F id groups aliases coverage physical conflicts = .ok result) :
    ∀ c ∈ conflicts, ∀ r ∈ c.entries, r.encodable = true := by
  obtain ⟨orderedGroups, -, h⟩ := bind_eq_ok.1 h
  obtain ⟨orderedAliases, -, h⟩ := bind_eq_ok.1 h
  obtain ⟨orderedConflicts, hconflicts, h⟩ := bind_eq_ok.1 h
  obtain ⟨bytes, hbytes, -⟩ := bind_eq_ok.1 h
  have hsafe := (Value.safe_dict.1 (canonicalJson_eq_ok.1 hbytes).1).2
    (txt "integrity_conflicts", .list (orderedConflicts.map conflictData)) (by simp)
  intro c hc r hr
  have hdata := Value.safe_list.1 hsafe (conflictData c)
    (List.mem_map_of_mem ((mem_sortedByM hconflicts).2 hc))
  have hentries := (Value.safe_dict.1 hdata).2 (txt "entries", referencesData c.entries) (by simp)
  exact safe_referencesData.1 hentries r hr

/-- Reordered snapshots give the same duplicate analysis. -/
theorem computeSnapshotDuplicateAnalysis_reordered {s s' : FilesystemSnapshot} (hs : s.Reordered s')
    {reused : Bool} {result : DuplicateAnalysisResult}
    (h : computeSnapshotDuplicateAnalysis F s reused = .ok result) :
    computeSnapshotDuplicateAnalysis F s' reused = .ok result := by
  obtain ⟨entries, hentries, h⟩ := bind_eq_ok.1 h
  obtain ⟨rfl, hlocated⟩ := locatedEntries_eq_ok.1 hentries
  obtain ⟨aliases, haliases, h⟩ := bind_eq_ok.1 h
  obtain ⟨byHint, hbyHint, h⟩ := bind_eq_ok.1 h
  obtain ⟨bySize, hbySize, h⟩ := bind_eq_ok.1 h
  obtain ⟨groups, hgroups, h⟩ := bind_eq_ok.1 h
  have hconflicts := analysisResult_encodable h
  have hbySize' : (sizeConflicts reused s'.entries).mapM (fun g => sizeConflict g.2) = .ok bySize :=
    mapM_transfer hbySize (sizeConflicts_perm hs.entries) fun _ _ c hg hc hok =>
      sizeConflict_perm hok (hconflicts c (List.mem_append_right _ hc)) hg.2
  have hinj : ∀ g ∈ equalPayloads reused s.entries (bySize.flatMap IntegrityConflict.entries),
      ∀ a ∈ g.2, ∀ b ∈ g.2, reference a = reference b → a = b := by
    intro g hg a ha b hb
    have hentry {e : FilesystemEntry} (he : e ∈ g.2) : e ∈ s.entries := by
      have hknown := (mem_of_mem_sortedGroups (List.mem_of_mem_filter hg) he).1
      exact List.mem_of_mem_filter (List.mem_of_mem_filter (List.mem_of_mem_filter hknown))
    exact hlocated.reference_inj (hentry ha) (hentry hb)
  have hgroups' := mapM_transfer (g := fun g => payloadGroup F aliases (conflictedHints reused s.entries) g.1 g.2)
    hgroups ((List.forall₂_and_left _ _).2 ⟨hinj, equalPayloads_perm hs.entries⟩)
    fun _ _ _ hg _ hok => payloadGroup_perm hok hg.1 hg.2
  rw [computeSnapshotDuplicateAnalysis, locatedEntries_eq_ok.2 ⟨rfl, hlocated.reordered hs⟩, ok_bind_ok,
    aliasSets_perm hs.entries haliases, ok_bind_ok, hintConflicts_mapM_perm hs.entries haliases hbyHint, ok_bind_ok,
    hbySize', ok_bind_ok, ← conflictedHints_perm hs.entries, hgroups', ok_bind_ok, ← coverageSummary_perm hs.entries,
    ← physicalStorageSummary_perm (unitAllocations_perm (observedEntries_perm hs.entries)), ← hs.snapshotId]
  exact h

/-! ## Canonical bytes -/

variable (F) in
/-- The canonical bytes of the relations of two snapshots. -/
def relationSetBytes (base target : FilesystemSnapshot) (adjacent reusedPayloadsVerified : Bool) : Result Text := do
  let set ← computeSnapshotRelations F base target adjacent reusedPayloadsVerified
  canonicalRelationSet F set

variable (F) in
/-- The canonical bytes of the duplicate analysis of a snapshot. -/
def duplicateAnalysisBytes (snapshot : FilesystemSnapshot) (reusedPayloadsVerified : Bool) : Result Text := do
  let result ← computeSnapshotDuplicateAnalysis F snapshot reusedPayloadsVerified
  canonicalDuplicateAnalysis F result

theorem bind_eq_ok_congr {α β : Type} {x y : Result α} {f : α → Result β} (h : ∀ a, x = .ok a ↔ y = .ok a)
    (b : β) : (x >>= f) = .ok b ↔ (y >>= f) = .ok b := by
  rw [bind_eq_ok, bind_eq_ok]
  exact exists_congr fun a => and_congr_left fun _ => h a

/-- Reordering the entries changes neither analysis, nor a byte of its canonical form. -/
theorem analyses_reordered {base base' target target' : FilesystemSnapshot} (hbase : base.Reordered base')
    (htarget : target.Reordered target') (adjacent reused : Bool) :
    (∀ set, computeSnapshotRelations F base target adjacent reused = .ok set ↔
      computeSnapshotRelations F base' target' adjacent reused = .ok set) ∧
    (∀ bytes, relationSetBytes F base target adjacent reused = .ok bytes ↔
      relationSetBytes F base' target' adjacent reused = .ok bytes) ∧
    (∀ result, computeSnapshotDuplicateAnalysis F base reused = .ok result ↔
      computeSnapshotDuplicateAnalysis F base' reused = .ok result) ∧
    (∀ bytes, duplicateAnalysisBytes F base reused = .ok bytes ↔
      duplicateAnalysisBytes F base' reused = .ok bytes) := by
  have hrelations : ∀ set, computeSnapshotRelations F base target adjacent reused = .ok set ↔
      computeSnapshotRelations F base' target' adjacent reused = .ok set := fun set =>
    ⟨computeSnapshotRelations_reordered hbase htarget,
      computeSnapshotRelations_reordered hbase.symm htarget.symm⟩
  have hduplicates : ∀ result, computeSnapshotDuplicateAnalysis F base reused = .ok result ↔
      computeSnapshotDuplicateAnalysis F base' reused = .ok result := fun result =>
    ⟨computeSnapshotDuplicateAnalysis_reordered hbase, computeSnapshotDuplicateAnalysis_reordered hbase.symm⟩
  exact ⟨hrelations, bind_eq_ok_congr hrelations, hduplicates, bind_eq_ok_congr hduplicates⟩

/-- The two files of a reused inode, listed the other way round. -/
theorem inode_reordered :
    let base' : FilesystemSnapshot := { inodeBase 10 with entries := (inodeBase 10).entries.reverse }
    (∀ bytes, relationSetBytes Integral (inodeBase 10) (inodeTarget 10) true true = .ok bytes ↔
      relationSetBytes Integral base' (inodeTarget 10) true true = .ok bytes) ∧
    ∀ bytes, duplicateAnalysisBytes Integral (inodeBase 10) true = .ok bytes ↔
      duplicateAnalysisBytes Integral base' true = .ok bytes := by
  have hbase : (inodeBase 10).Reordered { inodeBase 10 with entries := (inodeBase 10).entries.reverse } :=
    ⟨rfl, rfl, rfl, rfl, (List.reverse_perm _).symm⟩
  have htarget : (inodeTarget 10).Reordered (inodeTarget 10) := ⟨rfl, rfl, rfl, rfl, .refl _⟩
  obtain ⟨-, hrelations, -, hduplicates⟩ := analyses_reordered (F := Integral) hbase htarget true true
  exact ⟨hrelations, hduplicates⟩

end Steward
