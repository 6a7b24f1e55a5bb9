import Steward.Analysis.DuplicateOrder
import Steward.Analysis.StructureTotal

/-!
# The order of the entries

A structure does not depend on the order of the entries it is computed from:
the nodes of a scope are sorted by their paths, limitations by their references,
and the rest is counted. `structure_aggregates` puts together what a structure is.
-/

namespace Steward

open Py Sqlite

/-! ## Validation -/

/-- What is accepted passes. -/
theorem validPath_partsOf {path : Text} {parts : List Text} (h : validPath path = .ok parts) {parts' : List Text}
    (h' : ValidParts parts') (heq : path = pathOfParts parts') : parts = parts' :=
  pathOfParts_inj (validPath_eq_ok h).1 h' ((validPath_eq_ok h).2.trans heq)

section
variable {s s' : FilesystemSnapshot}

theorem foldlM_validateEntry_of_accepted (hs : StructureAccepted s) {before es : List FilesystemEntry}
    (h : before ++ es = s.entries) :
    es.foldlM (validateEntry s.snapshotId s.scopeIds) before = .ok s.entries := by
  induction es generalizing before with
  | nil =>
    rw [List.append_nil] at h
    rw [h]
    rfl
  | cons e es ih =>
    have he : e ∈ s.entries := h ▸ List.mem_append_right _ List.mem_cons_self
    have hfresh : ¬ (before.any fun a => a.location = e.location) = true := by
      rw [List.any_eq_true]
      rintro ⟨a, ha, hloc⟩
      have hnodup := hs.located.location
      rw [← h, List.map_append, List.nodup_append'] at hnodup
      exact hnodup.2.2 (List.mem_map_of_mem ha)
        (List.mem_map.2 ⟨e, List.mem_cons_self, (of_decide_eq_true hloc).symm⟩)
    have hsize : ¬ (e.sizeBytes.any fun size => size < 0) = true := by
      rw [Option.any_eq_true]
      rintro ⟨size, hsome, hneg⟩
      have := hs.size e he size hsome
      have := of_decide_eq_true hneg
      omega
    have hstep : validateEntry s.snapshotId s.scopeIds before e = .ok (before ++ [e]) := by
      rw [validateEntry, if_neg (not_not.2 (hs.located.snapshotId e he)), if_neg (not_not.2 (hs.scopeId e he)),
        hs.valid e he, ok_bind_ok, if_neg hfresh, if_neg hsize]
      rfl
    rw [List.foldlM_cons, hstep, ok_bind_ok]
    exact ih (by rw [List.append_assoc]; exact h)

theorem validateHierarchy_of_accepted (hs : StructureAccepted s) {e : FilesystemEntry} (he : e ∈ s.entries) :
    validateHierarchy s.entries e = .ok () := by
  have hvalid := hs.valid e he
  have hpath := validPath_eq_ok hvalid
  have hroot : ¬ (e.relativePath = txt "." ∧ e.objectType ≠ .directory) := by
    rintro ⟨hdot, hdir⟩
    refine hdir (hs.root e he ?_)
    exact validPath_partsOf hvalid (List.forall_mem_nil _) (hdot.trans (if_pos rfl).symm)
  unfold validateHierarchy
  rw [hvalid, ok_bind_ok]
  refine bind_eq_ok.2 ⟨(), forM_eq_ok.2 fun length hlength => ?_, if_neg hroot⟩
  rw [List.mem_range'_1] at hlength
  cases hfind : s.entries.find? fun a => a.location = (e.scopeId, pathOfParts ((partsOf e).take length)) with
  | none => rfl
  | some a =>
    have ha := List.mem_of_find?_eq_some hfind
    have hfound := List.find?_some hfind
    have hloc : a.location = (e.scopeId, pathOfParts ((partsOf e).take length)) := of_decide_eq_true hfound
    have hparts : partsOf a = (partsOf e).take length :=
      validPath_partsOf (hs.valid a ha) (hpath.1.ofPrefix (List.take_prefix _ _)) (Prod.mk.inj hloc).2
    have hne : partsOf a ≠ partsOf e := by
      intro heq
      have := congrArg List.length (hparts.symm.trans heq)
      rw [List.length_take] at this
      omega
    have hdir := hs.ancestors e he a ha (Prod.mk.inj hloc).1 (hparts ▸ List.take_prefix _ _) hne
    dsimp only
    rw [if_neg (not_not.2 hdir)]

theorem validateEntries_iff : validateEntries s = .ok () ↔ StructureAccepted s := by
  refine ⟨validateEntries_accepted, fun hs => ?_⟩
  unfold validateEntries
  rw [foldlM_validateEntry_of_accepted hs (List.nil_append s.entries), ok_bind_ok]
  exact forM_eq_ok.2 fun e he => validateHierarchy_of_accepted hs he

theorem StructureAccepted.reordered (hs : StructureAccepted s) (hre : s.Reordered s') : StructureAccepted s' := by
  have hmem {e : FilesystemEntry} : e ∈ s'.entries → e ∈ s.entries := hre.entries.mem_iff.2
  exact ⟨hs.located.reordered hre, fun e he => hre.scopeIds ▸ hs.scopeId e (hmem he), fun e he => hs.valid e (hmem he),
    fun e he => hs.size e (hmem he), fun e he => hs.root e (hmem he),
    fun e he a ha => hs.ancestors e (hmem he) a (hmem ha)⟩

end

/-! ## Nodes -/

section
variable {F : Type} [SqliteFloat F] {es es' : List FilesystemEntry} {snapshotId scopeId : Text}
  {nodes : List PathAggregateNode}

/-- The nodes of a scope do not depend on the order of its entries. -/
theorem scopeNodes_perm (h : scopeNodes F snapshotId scopeId es = .ok nodes) (hperm : es.Perm es')
    (hvalid : ∀ e ∈ es, validPath e.relativePath = .ok (partsOf e))
    (hroot : ∀ e ∈ es, partsOf e = [] → e.objectType = .directory)
    (hpaths : ∀ node ∈ nodes, node.relativeDirectoryPath.encodable = true) (hid : snapshotId.encodable = true)
    (hscope : scopeId.encodable = true) : scopeNodes F snapshotId scopeId es' = .ok nodes := by
  obtain ⟨hnodup, hmem⟩ := scopeNodes_spec h hvalid hroot
  have hvalid' : ∀ e ∈ es', validPath e.relativePath = .ok (partsOf e) := fun e he => hvalid e (hperm.mem_iff.2 he)
  have hroot' : ∀ e ∈ es', partsOf e = [] → e.objectType = .directory := fun e he => hroot e (hperm.mem_iff.2 he)
  have hsorts {es : List FilesystemEntry} {nodes : List PathAggregateNode}
      (h : scopeNodes F snapshotId scopeId es = .ok nodes) :
      (∀ e ∈ es, Ok (pathBytes e.relativePath)) ∧ ∃ unsorted, sortedByM structureNodeKey unsorted = .ok nodes := by
    unfold scopeNodes at h
    obtain ⟨values, hvalues, h⟩ := bind_eq_ok.1 h
    obtain ⟨builders, _, h⟩ := bind_eq_ok.1 h
    obtain ⟨resolved, _, h⟩ := bind_eq_ok.1 h
    exact ⟨ok_sort_entries.1 ⟨values, hvalues⟩, resolved.2.map Prod.snd, h⟩
  obtain ⟨hbytes, unsorted, hsorted⟩ := hsorts h
  have hnodePaths : ∀ q, IsNodePath es' q → (pathOfParts q).encodable = true := fun q hq =>
    hpaths _ ((hmem _).2 ⟨q, (isNodePath_perm hperm).2 hq, rfl⟩)
  obtain ⟨nodes', h'⟩ := ok_scopeNodes (F := F) hvalid' hroot' (fun e he => hbytes e (hperm.mem_iff.2 he)) hnodePaths
    hid hscope
  obtain ⟨hnodup', hmem'⟩ := scopeNodes_spec h' hvalid' hroot'
  obtain ⟨-, unsorted', hsorted'⟩ := hsorts h'
  have hsame : nodes.Perm nodes' :=
    (List.perm_ext_iff_of_nodup hnodup.of_map hnodup'.of_map).2 fun node => by
      rw [hmem, hmem']
      exact exists_congr fun p => and_congr (isNodePath_perm hperm) (by rw [structureNode_perm hperm])
  have hinj : ∀ x ∈ unsorted, ∀ y ∈ unsorted, structureNodeKey x = structureNodeKey y → x = y := by
    intro x hx y hy hkey
    have hx' := (mem_sortedByM hsorted).2 hx
    have hy' := (mem_sortedByM hsorted).2 hy
    rw [structureNodeKey, structureNodeKey, pathBytes_of_encodable (hpaths x hx'),
      pathBytes_of_encodable (hpaths y hy')] at hkey
    have hpath := Text.utf8_injective (Prod.mk.inj (toLex.injective (Except.ok.inj hkey))).2
    obtain ⟨p, hp, rfl⟩ := (hmem x).1 hx'
    obtain ⟨q, hq, rfl⟩ := (hmem y).1 hy'
    rw [pathOfParts_inj (hp.valid hvalid) (hq.valid hvalid) hpath]
  have hagain := sortedByM_of_perm hsorted
    ((sortedByM_perm hsorted).symm.trans (hsame.trans (sortedByM_perm hsorted'))) hinj
  rw [h', Except.ok.inj (hsorted'.symm.trans hagain)]

end

/-! ## Coverage -/

/-- The same groups, up to their order and the order in them. -/
def Regrouped (gs gs' : List (List FilesystemEntry)) : Prop :=
  ∃ hs hs', gs.Perm hs ∧ List.Forall₂ List.Perm hs hs' ∧ hs'.Perm gs'

namespace Regrouped
variable {gs gs' : List (List FilesystemEntry)} (h : Regrouped gs gs')
include h

theorem map_perm {α : Type} {f : List FilesystemEntry → α}
    (hf : ∀ {g g' : List FilesystemEntry}, g.Perm g' → f g = f g') : (gs.map f).Perm (gs'.map f) := by
  obtain ⟨hs, hs', hperm, hgroups, hperm'⟩ := h
  refine (hperm.map f).trans (List.Perm.trans ?_ (hperm'.map f))
  rw [forall₂_map_eq hgroups fun _ _ hg => hf hg]

theorem filter {p : List FilesystemEntry → Bool}
    (hp : ∀ {g g' : List FilesystemEntry}, g.Perm g' → p g = p g') : Regrouped (gs.filter p) (gs'.filter p) := by
  obtain ⟨hs, hs', hperm, hgroups, hperm'⟩ := h
  exact ⟨_, _, hperm.filter p, forall₂_filter hgroups fun _ _ hg => hp hg, hperm'.filter p⟩

end Regrouped

section
variable {es es' : List FilesystemEntry} (h : es.Perm es')
include h

theorem repeatedHints_regrouped : Regrouped (repeatedHints es) (repeatedHints es') := by
  refine Regrouped.filter ?_ fun hg => by rw [hg.length_eq]
  refine ⟨_, _, sortedGroups_perm_groupBy.symm.map _, ?_, sortedGroups_perm_groupBy.map _⟩
  refine List.forall₂_map_left_iff.2 (List.forall₂_map_right_iff.2 ?_)
  exact (sortedGroups_perm ((activeEntries_perm h).filter _)).imp fun _ _ hg => hg.2

theorem overlappingHints_regrouped : Regrouped (overlappingHints es) (overlappingHints es') := by
  refine (repeatedHints_regrouped h).filter fun hg => ?_
  rw [((hg.map FilesystemEntry.scopeId).dedup).length_eq]

theorem unavailableHints_perm : (unavailableHints es).Perm (unavailableHints es') := (activeEntries_perm h).filter _

theorem structureCoverage_perm : structureCoverage es = structureCoverage es' := by
  have hknown : (knownRegular es).Perm (knownRegular es') := (activeEntries_perm h).filter _
  have hunknown : (unknownRegular es).Perm (unknownRegular es') := (activeEntries_perm h).filter _
  have hfailed : (metadataFailed es).Perm (metadataFailed es') := (activeEntries_perm h).filter _
  have hcomplete : (unknownRegular es = [] ∧ metadataFailed es = []) ↔
      (unknownRegular es' = [] ∧ metadataFailed es' = []) := by
    rw [← List.length_eq_zero_iff, ← List.length_eq_zero_iff, hunknown.length_eq, hfailed.length_eq,
      List.length_eq_zero_iff, List.length_eq_zero_iff]
  have hoverlaps : (overlappingHints es).length = (overlappingHints es').length := by
    have := ((overlappingHints_regrouped h).map_perm (f := fun _ => ()) fun _ => rfl).length_eq
    rwa [List.length_map, List.length_map] at this
  have hrepeated : ((repeatedHints es).map List.length).sum = ((repeatedHints es').map List.length).sum :=
    ((repeatedHints_regrouped h).map_perm fun hg => hg.length_eq).sum_eq
  simp only [structureCoverage, h.length_eq, (regularEntries_perm h).length_eq, hknown.length_eq, hunknown.length_eq,
    (hknown.map _).sum_eq, h.countP_eq, hfailed.length_eq, hoverlaps, hrepeated, (unavailableHints_perm h).length_eq,
    hcomplete]

end

/-! ## Limitations -/

section
variable {es es' : List FilesystemEntry}

/-- The limitation of a group whose entries overlap. -/
def overlapLimitation (members : List FilesystemEntry) : Result StructureLimitation := do
  let references ← orderedReferences members
  return ⟨txt "SCOPE_OVERLAP_OBJECT_HINT", references⟩

/-- The limitation of the entries without a hint, if there is one. -/
def unavailableLimitations (es : List FilesystemEntry) : Result (List StructureLimitation) :=
  if unavailableHints es = [] then .ok []
  else do
    let references ← orderedReferences (unavailableHints es)
    return [⟨txt "OBJECT_HINT_UNAVAILABLE", references⟩]

theorem structureLimitations_eq (es : List FilesystemEntry) :
    structureLimitations es = (do
      let overlaps ← (overlappingHints es).mapM overlapLimitation
      let unavailable ← unavailableLimitations es
      sortedByM limitationSortKey (overlaps ++ unavailable)) := by
  unfold structureLimitations unavailableLimitations
  refine congrArg (_ >>= ·) (funext fun overlaps => ?_)
  by_cases hnil : unavailableHints es = []
  · rw [if_pos hnil, if_pos hnil]
    rfl
  · rw [if_neg hnil, if_neg hnil]
    cases orderedReferences (unavailableHints es) <;> rfl

theorem unavailableLimitations_perm (hp : es.Perm es') {unavailable : List StructureLimitation}
    (henc : ∀ l ∈ unavailable, ∀ r ∈ l.entries, r.encodable = true)
    (h : unavailableLimitations es = .ok unavailable) : unavailableLimitations es' = .ok unavailable := by
  have hpu := unavailableHints_perm hp
  unfold unavailableLimitations at h ⊢
  by_cases hnil : unavailableHints es = []
  · rw [if_pos hnil] at h
    rw [hnil, List.nil_perm] at hpu
    rwa [if_pos hpu]
  · have hnil' : ¬ unavailableHints es' = [] := by
      intro hnil'
      rw [hnil', List.perm_nil] at hpu
      exact hnil hpu
    rw [if_neg hnil] at h
    obtain ⟨references, hreferences, hone⟩ := bind_eq_ok.1 h
    cases hone
    rw [if_neg hnil', orderedReferences_of_perm hreferences (henc _ (List.mem_singleton_self _)) hpu]
    rfl

theorem overlapLimitation_perm {g g' : List FilesystemEntry} (hg : g.Perm g') {l : StructureLimitation}
    (henc : ∀ r ∈ l.entries, r.encodable = true) (h : overlapLimitation g = .ok l) : overlapLimitation g' = .ok l := by
  obtain ⟨references, hreferences, h⟩ := bind_eq_ok.1 h
  cases h
  rw [overlapLimitation, orderedReferences_of_perm hreferences henc hg]
  rfl

theorem overlapLimitations_perm (hp : es.Perm es') {overlaps : List StructureLimitation}
    (henc : ∀ l ∈ overlaps, ∀ r ∈ l.entries, r.encodable = true)
    (h : (overlappingHints es).mapM overlapLimitation = .ok overlaps) :
    ∃ overlaps', (overlappingHints es').mapM overlapLimitation = .ok overlaps' ∧ overlaps.Perm overlaps' := by
  obtain ⟨hs, hs', hperm, hgroups, hperm'⟩ := overlappingHints_regrouped hp
  obtain ⟨mid, hmid, hpmid⟩ := mapM_perm hperm h
  have hmid' : hs'.mapM overlapLimitation = .ok mid :=
    mapM_transfer hmid hgroups fun g g' l hg hl hok =>
      overlapLimitation_perm hg (henc l (hpmid.mem_iff.2 hl)) hok
  obtain ⟨overlaps', hoverlaps', hp'⟩ := mapM_perm hperm' hmid'
  exact ⟨overlaps', hoverlaps', hpmid.trans hp'⟩

theorem limitationSortKey_inj {l l' : StructureLimitation} (hl : ∀ r ∈ l.entries, r.encodable = true)
    (hl' : ∀ r ∈ l'.entries, r.encodable = true) (h : limitationSortKey l = limitationSortKey l') : l = l' := by
  rw [limitationSortKey, limitationSortKey, mapM_referenceSortKey hl, mapM_referenceSortKey hl'] at h
  have hkeys := Prod.mk.inj (toLex.injective (Except.ok.inj h))
  have hentries : l.entries = l'.entries := List.map_injective_iff.2 refKey_injective hkeys.2
  cases l
  cases l'
  exact congrArg₂ _ hkeys.1 hentries

/-- The limitations do not depend on the order of the entries. -/
theorem structureLimitations_perm (hp : es.Perm es') {limitations : List StructureLimitation}
    (henc : ∀ l ∈ limitations, ∀ r ∈ l.entries, r.encodable = true)
    (h : structureLimitations es = .ok limitations) : structureLimitations es' = .ok limitations := by
  rw [structureLimitations_eq] at h ⊢
  obtain ⟨overlaps, hoverlaps, h⟩ := bind_eq_ok.1 h
  obtain ⟨unavailable, hunavailable, h⟩ := bind_eq_ok.1 h
  have hmem : ∀ l ∈ overlaps ++ unavailable, ∀ r ∈ l.entries, r.encodable = true := fun l hl =>
    henc l ((mem_sortedByM h).2 hl)
  obtain ⟨hover, hunav⟩ := List.forall_mem_append.1 hmem
  obtain ⟨overlaps', hoverlaps', hperm⟩ := overlapLimitations_perm hp hover hoverlaps
  have hunavailable' := unavailableLimitations_perm hp hunav hunavailable
  have hsorted := sortedByM_of_perm h (hperm.append_right unavailable) fun l hl l' hl' hkey =>
    limitationSortKey_inj (hmem l hl) (hmem l' hl') hkey
  exact bind_eq_ok.2 ⟨overlaps', hoverlaps', bind_eq_ok.2 ⟨unavailable, hunavailable', hsorted⟩⟩

end

/-! ## The structure -/

section
variable {F : Type} [SqliteFloat F] {s s' : FilesystemSnapshot} {result : StorageStructureResult}

theorem computeSnapshotStructure_eq_ok :
    computeSnapshotStructure F s = .ok result ↔ StructureAccepted s ∧ ∃ nodes limitations,
      (sortedKeys s.scopeIds).mapM (fun scopeId => scopeNodes F s.snapshotId scopeId (scopeEntries s scopeId)) =
        .ok nodes ∧
      structureLimitations s.entries = .ok limitations ∧
      structureResult F s.snapshotId ((sortedKeys s.scopeIds).map (rootSummary F s)) nodes.flatten
        (structureCoverage s.entries) limitations = .ok result := by
  unfold computeSnapshotStructure
  constructor
  · intro h
    obtain ⟨⟨⟩, hvalidate, h⟩ := bind_eq_ok.1 h
    obtain ⟨nodes, hnodes, h⟩ := bind_eq_ok.1 h
    have hs := validateEntries_accepted hvalidate
    rw [mapM_scopeSummary hs hnodes, ok_bind_ok] at h
    obtain ⟨limitations, hlimitations, h⟩ := bind_eq_ok.1 h
    rw [if_neg (not_not.2 (sum_rootSummary hs))] at h
    exact ⟨hs, nodes, limitations, hnodes, hlimitations, h⟩
  · rintro ⟨hs, nodes, limitations, hnodes, hlimitations, h⟩
    refine bind_eq_ok.2 ⟨(), validateEntries_iff.2 hs, bind_eq_ok.2 ⟨nodes, hnodes, ?_⟩⟩
    rw [mapM_scopeSummary hs hnodes, ok_bind_ok]
    refine bind_eq_ok.2 ⟨limitations, hlimitations, ?_⟩
    rw [if_neg (not_not.2 (sum_rootSummary hs))]
    exact h

/-- What was hashed into a structure could be encoded. -/
theorem structureResult_encodable {snapshotId : Text} {summaries : List ScopeStructureSummary}
    {nodes : List PathAggregateNode} {coverage : StructureCoverageSummary} {limitations : List StructureLimitation}
    (h : structureResult F snapshotId summaries nodes coverage limitations = .ok result) :
    snapshotId.encodable = true ∧ (∀ summary ∈ summaries, summary.scopeId.encodable = true) ∧
      (∀ node ∈ nodes, node.relativeDirectoryPath.encodable = true) ∧
      ∀ l ∈ limitations, ∀ r ∈ l.entries, r.encodable = true := by
  obtain ⟨digest, hdigest, -⟩ := bind_eq_ok.1 h
  have hsafe := (Value.safe_dict.1 (digestOf_eq_ok.1 hdigest).1).2
  refine ⟨hsafe (txt "snapshot_id", .str snapshotId) (by simp), fun summary hsummary => ?_, fun node hnode => ?_,
    fun l hl => ?_⟩
  · have hsummaries := hsafe (txt "scope_summaries", .list (summaries.map scopeSummaryData)) (by simp)
    have hone := Value.safe_list.1 hsummaries _ (List.mem_map_of_mem hsummary)
    exact (Value.safe_dict.1 hone).2 (txt "scope_id", .str summary.scopeId) (by simp)
  · have hnodes := hsafe (txt "path_nodes", .list (nodes.map structureNodeData)) (by simp)
    have hone := Value.safe_list.1 hnodes _ (List.mem_map_of_mem hnode)
    exact (Value.safe_dict.1 hone).2 (txt "relative_directory_path", .str node.relativeDirectoryPath) (by simp)
  · have hlimitations := hsafe (txt "limitations", .list (limitations.map limitationData)) (by simp)
    have hone := Value.safe_list.1 hlimitations _ (List.mem_map_of_mem hl)
    exact safe_referencesData.1 ((Value.safe_dict.1 hone).2 (txt "entries", referencesData l.entries) (by simp))

/-- A structure is the same for the entries in any order. -/
theorem computeSnapshotStructure_reordered (hre : s.Reordered s') (h : computeSnapshotStructure F s = .ok result) :
    computeSnapshotStructure F s' = .ok result := by
  obtain ⟨hs, nodes, limitations, hnodes, hlimitations, h⟩ := computeSnapshotStructure_eq_ok.1 h
  obtain ⟨hid, hscopes, hpaths, hlimited⟩ := structureResult_encodable h
  have hscoped (scopeId : Text) : (scopeEntries s scopeId).Perm (scopeEntries s' scopeId) := hre.entries.filter _
  have hsummaries : (sortedKeys s'.scopeIds).map (rootSummary F s') = (sortedKeys s.scopeIds).map (rootSummary F s) := by
    rw [hre.scopeIds]
    refine List.map_congr_left fun scopeId _ => ?_
    rw [rootSummary, rootSummary, hre.snapshotId, structureNode_perm (hscoped scopeId)]
  have hnodes' : (sortedKeys s'.scopeIds).mapM (fun scopeId =>
      scopeNodes F s'.snapshotId scopeId (scopeEntries s' scopeId)) = .ok nodes := by
    rw [← hre.scopeIds, ← hre.snapshotId]
    have hsame : List.Forall₂ (fun scopeId scopeId' => scopeId ∈ sortedKeys s.scopeIds ∧ scopeId = scopeId')
        (sortedKeys s.scopeIds) (sortedKeys s.scopeIds) := List.forall₂_same.2 fun scopeId hscope => ⟨hscope, rfl⟩
    refine mapM_transfer hnodes hsame ?_
    rintro scopeId _ ns ⟨hscope, rfl⟩ hns hok
    exact scopeNodes_perm hok (hscoped scopeId) (fun e he => hs.valid e (mem_scopeEntries.1 he).1)
      (fun e he => hs.root e (mem_scopeEntries.1 he).1)
      (fun node hnode => hpaths node (List.mem_flatten.2 ⟨ns, hns, hnode⟩)) hid
      (hscopes (rootSummary F s scopeId) (List.mem_map_of_mem hscope))
  refine computeSnapshotStructure_eq_ok.2 ⟨hs.reordered hre, nodes, limitations, hnodes',
    structureLimitations_perm hre.entries hlimited hlimitations, ?_⟩
  rw [hsummaries, ← hre.snapshotId, ← structureCoverage_perm hre.entries]
  exact h

end

/-! ## What a structure is -/

/-- What the counted entries that pass add up to. -/
def countsOf (es : List FilesystemEntry) (p : FilesystemEntry → Bool) : NodeCounts :=
  (((activeEntries es).filter p).map entryCounts).sum

/-- A path has a node: the scope root, a proper ancestor of a counted entry, a counted directory. -/
def HasNode (es : List FilesystemEntry) (p : List Text) : Prop :=
  p = [] ∨ (∃ e ∈ activeEntries es, p <+: partsOf e ∧ p ≠ partsOf e) ∨
    ∃ e ∈ activeEntries es, e.objectType = .directory ∧ p = partsOf e

theorem isNodePath_iff {es : List FilesystemEntry} {p : List Text} : IsNodePath es p ↔ HasNode es p := by
  constructor
  · rintro (rfl | ⟨e, he, hp⟩)
    · exact .inl rfl
    · by_cases hdir : e.objectType = .directory
      · rw [homeOf, entryHome, if_pos hdir] at hp
        by_cases hself : p = partsOf e
        · exact .inr (.inr ⟨e, he, hdir, hself⟩)
        · exact .inr (.inl ⟨e, he, hp, hself⟩)
      · rw [homeOf, entryHome, if_neg hdir] at hp
        by_cases hself : p = partsOf e
        · -- only the root is its own parent
          have hle := hp.length_le
          rw [List.length_dropLast, hself] at hle
          exact .inl (List.length_eq_zero_iff.1 (by rw [hself]; omega))
        · exact .inr (.inl ⟨e, he, hp.trans (List.dropLast_prefix _), hself⟩)
  · rintro (rfl | ⟨e, he, hp, hne⟩ | ⟨e, he, hdir, rfl⟩)
    · exact .inl rfl
    · refine .inr ⟨e, he, ?_⟩
      unfold homeOf entryHome
      split_ifs
      · exact hp
      · have hlt : p.length < (partsOf e).length := lt_of_le_of_ne hp.length_le fun hlen => hne (hp.eq_of_length hlen)
        refine List.prefix_of_prefix_length_le hp (List.dropLast_prefix _) ?_
        rw [List.length_dropLast]
        omega
    · refine .inr ⟨e, he, ?_⟩
      rw [homeOf, entryHome, if_pos hdir]

/-- A structure of a snapshot: its nodes, what they count, and the totals of its scopes. -/
structure Aggregates (s : FilesystemSnapshot) (result : StorageStructureResult) : Prop where
  nodes : ∀ scopeId path,
    (∃ node ∈ result.pathNodes, node.scopeId = scopeId ∧ node.relativeDirectoryPath = path) ↔
      scopeId ∈ s.scopeIds ∧ ∃ p, HasNode (scopeEntries s scopeId) p ∧ path = pathOfParts p
  unique : (result.pathNodes.map fun node => (node.scopeId, node.relativeDirectoryPath)).Nodup
  counters : ∀ node ∈ result.pathNodes, ∃ p, node.relativeDirectoryPath = pathOfParts p ∧ ValidParts p ∧
    node.direct = countsOf (scopeEntries s node.scopeId) (fun e => homeOf e = p) ∧
    node.recursive = countsOf (scopeEntries s node.scopeId) fun e => p <+: homeOf e
  scopes : result.scopeSummaries.map (fun summary => (summary.scopeId, summary.recursive)) =
    (sortedKeys s.scopeIds).map fun scopeId => (scopeId, countsOf (scopeEntries s scopeId) fun _ => true)
  total : (result.scopeSummaries.map ScopeStructureSummary.recursive).sum = countsOf s.entries fun _ => true

section
variable {F : Type} [SqliteFloat F] {s : FilesystemSnapshot} {result : StorageStructureResult}

theorem countsAt_below (es : List FilesystemEntry) (p : List Text) :
    PathTree.total (countsAt es) p = countsOf es fun e => p <+: homeOf e := by
  unfold PathTree.total countsAt countsOf
  rw [List.filter_map, List.map_map]
  rfl

theorem countsOf_all (es : List FilesystemEntry) :
    (countsOf es fun _ => true) = ((activeEntries es).map entryCounts).sum := by
  rw [countsOf, List.filter_true]

theorem recursive_rootSummary (scopeId : Text) :
    (rootSummary F s scopeId).recursive = countsOf (scopeEntries s scopeId) fun _ => true := by
  rw [countsOf_all]
  exact total_root _

/-- No two nodes are at one path of one scope. -/
theorem nodup_scopeNodes (hs : StructureAccepted s) {scopes : List Text} (hscopes : scopes.Nodup)
    {nodes : List (List PathAggregateNode)}
    (h : scopes.mapM (fun scopeId => scopeNodes F s.snapshotId scopeId (scopeEntries s scopeId)) = .ok nodes) :
    (nodes.flatten.map fun node => (node.scopeId, node.relativeDirectoryPath)).Nodup := by
  have hspec : ∀ scopeId ns, scopeNodes F s.snapshotId scopeId (scopeEntries s scopeId) = .ok ns →
      (ns.map fun node => (node.scopeId, node.relativeDirectoryPath)).Nodup ∧ ∀ node ∈ ns, node.scopeId = scopeId := by
    intro scopeId ns hok
    obtain ⟨hnodup, hmem⟩ := scopeNodes_spec hok (fun e he => hs.valid e (mem_scopeEntries.1 he).1)
      fun e he => hs.root e (mem_scopeEntries.1 he).1
    refine ⟨List.Nodup.of_map Prod.snd (by rwa [List.map_map]), fun node hnode => ?_⟩
    obtain ⟨p, -, rfl⟩ := (hmem node).1 hnode
    rfl
  rw [mapM_eq_ok] at h
  induction h with
  | nil => exact List.nodup_nil
  | @cons scopeId ns scopes nss hok hrest ih =>
    obtain ⟨hfresh, hscopes⟩ := List.nodup_cons.1 hscopes
    obtain ⟨hnodup, hin⟩ := hspec scopeId ns hok
    rw [List.flatten_cons, List.map_append, List.nodup_append']
    refine ⟨hnodup, ih hscopes, fun key hkey hkey' => ?_⟩
    obtain ⟨node, hnode, rfl⟩ := List.mem_map.1 hkey
    obtain ⟨node', hnode', hsame⟩ := List.mem_map.1 hkey'
    obtain ⟨ns', hns', hnode'⟩ := List.mem_flatten.1 hnode'
    obtain ⟨scopeId', hscope', hok'⟩ := forall₂_mem_left hrest.flip hns'
    have hscope : scopeId' = scopeId :=
      ((hspec scopeId' ns' hok').2 node' hnode').symm.trans ((Prod.mk.inj hsame).1.trans (hin node hnode))
    exact hfresh (hscope ▸ hscope')

theorem aggregates_of_computed (h : computeSnapshotStructure F s = .ok result) : Aggregates s result := by
  obtain ⟨hs, nodes, limitations, hnodes, -, h⟩ := computeSnapshotStructure_eq_ok.1 h
  obtain ⟨digest, -, h⟩ := bind_eq_ok.1 h
  cases h
  have hmem := mem_scopeNodes hs hnodes
  refine ⟨fun scopeId path => ?_, nodup_scopeNodes hs nodup_sortedKeys hnodes, fun node hnode => ?_, ?_, ?_⟩
  · constructor
    · rintro ⟨node, hnode, rfl, rfl⟩
      obtain ⟨scopeId, hscope, p, hp, rfl⟩ := (hmem node).1 hnode
      exact ⟨hscope, p, isNodePath_iff.1 hp, rfl⟩
    · rintro ⟨hscope, p, hp, rfl⟩
      exact ⟨_, (hmem _).2 ⟨scopeId, hscope, p, isNodePath_iff.2 hp, rfl⟩, rfl, rfl⟩
  · obtain ⟨scopeId, hscope, p, hp, rfl⟩ := (hmem node).1 hnode
    exact ⟨p, rfl, hp.valid fun e he => hs.valid e (mem_scopeEntries.1 he).1, countsAt_own, countsAt_below _ p⟩
  · rw [List.map_map]
    exact List.map_congr_left fun scopeId _ => congrArg (Prod.mk scopeId) (recursive_rootSummary scopeId)
  · rw [List.map_map, countsOf_all, ← sum_scopes nodup_sortedKeys entryCounts
      fun e he => mem_sortedKeys.2 (hs.scopeId e he)]
    exact congrArg List.sum (List.map_congr_left fun scopeId _ => total_root _)

/-- The check of the logical bytes never fails; a structure is an aggregation, in any order of the entries. -/
theorem structure_aggregates (F : Type) [SqliteFloat F] (s : FilesystemSnapshot) :
    (∀ nodes summaries, validateEntries s = .ok () →
      (sortedKeys s.scopeIds).mapM (fun scopeId => scopeNodes F s.snapshotId scopeId (scopeEntries s scopeId)) =
        .ok nodes →
      (sortedKeys s.scopeIds).mapM (scopeSummary s.snapshotId nodes.flatten) = .ok summaries →
        (summaries.map fun summary => summary.recursive.knownLogicalBytes).sum =
          (structureCoverage s.entries).knownLogicalBytes) ∧
    ∀ result, computeSnapshotStructure F s = .ok result →
      Aggregates s result ∧ ∀ s', s.Reordered s' → computeSnapshotStructure F s' = .ok result := by
  refine ⟨fun nodes summaries hvalidate hnodes hsummaries => ?_, fun result h =>
    ⟨aggregates_of_computed h, fun s' hre => computeSnapshotStructure_reordered hre h⟩⟩
  have hs := validateEntries_accepted hvalidate
  rw [mapM_scopeSummary hs hnodes] at hsummaries
  cases hsummaries
  exact sum_rootSummary hs

end

/-- A scope root with one directory in it, and nothing in that. -/
def nestedDirectory : FilesystemSnapshot :=
  ⟨txt "s", [], [], [txt "home"],
    [⟨txt "s", txt "home", txt ".", .directory, none, none, none, none, none, none, none, none, none, none, none, true,
      true, false, .observed, none, none, false, none⟩,
    ⟨txt "s", txt "home", txt "d", .directory, none, none, none, none, none, none, none, none, none, none, none, true,
      true, false, .observed, none, none, false, none⟩]⟩

theorem nestedDirectory_computed : ∃ result, computeSnapshotStructure Integral nestedDirectory = .ok result :=
  ok_computeSnapshotStructure (by decide) ⟨by decide, by decide, by decide⟩

theorem structure_aggregates_nested :
    ∃ result, computeSnapshotStructure Integral nestedDirectory = .ok result ∧ Aggregates nestedDirectory result ∧
      computeSnapshotStructure Integral { nestedDirectory with entries := nestedDirectory.entries.reverse } =
        .ok result := by
  obtain ⟨result, h⟩ := nestedDirectory_computed
  obtain ⟨haggregates, hre⟩ := (structure_aggregates Integral nestedDirectory).2 result h
  exact ⟨result, h, haggregates, hre _ ⟨rfl, rfl, rfl, rfl, (List.reverse_perm _).symm⟩⟩

/-- A directory counts itself among the directories in it. -/
theorem nestedDirectory_counts_itself : ∃ result node, computeSnapshotStructure Integral nestedDirectory = .ok result ∧
    node ∈ result.pathNodes ∧ node.relativeDirectoryPath = txt "d" ∧ node.direct.directoryCount = 1 ∧
    node.recursive.directoryCount = 1 ∧
    ∀ e ∈ nestedDirectory.entries, ¬ ([txt "d"] <+: partsOf e ∧ [txt "d"] ≠ partsOf e) := by
  obtain ⟨result, h⟩ := nestedDirectory_computed
  obtain ⟨-, -, hnodes⟩ := computeSnapshotStructure_spec h
  refine ⟨result, structureNode Integral (txt "s") (txt "home") (scopeEntries nestedDirectory (txt "home")) [txt "d"], h,
    (hnodes _).2 ⟨txt "home", by decide, [txt "d"], ?_, rfl⟩, by decide, by decide, by decide, by decide⟩
  exact .inr ⟨nestedDirectory.entries.getLast (by decide), by decide, (by decide : [txt "d"] <+: [txt "d"])⟩

end Steward
