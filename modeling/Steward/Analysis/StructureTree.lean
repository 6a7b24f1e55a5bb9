import Steward.Analysis.Structure
import Steward.Py.PurePath

/-!
# The nodes of a storage structure

The nodes of a scope are its root, the directories that are entries and the
ancestors of what is counted. A node counts what is in it and what is below it.
-/

namespace Steward

open Py Sqlite

/-! ## Paths and their components -/

/-- Components that make a path: none is empty, special or has a slash. -/
def ValidParts (parts : List Text) : Prop :=
  ∀ part ∈ parts, part ≠ [] ∧ part ≠ txt "." ∧ part ≠ txt ".." ∧ ch '/' ∉ part

theorem ValidParts.ofPrefix {parts init : List Text} (h : ValidParts parts) (hp : init <+: parts) : ValidParts init :=
  fun part hpart => h part (hp.subset hpart)

theorem intercalate_ne_dot {parts : List Text} (h : ValidParts parts) (hne : parts ≠ []) :
    [ch '/'].intercalate parts ≠ txt "." := by
  intro hdot
  have hparts := PurePath.components_intercalate (fun part hpart => (h part hpart).2.2.2) hne
  have hsingle : Path.components (txt ".") = [txt "."] := by decide
  rw [hdot, hsingle] at hparts
  have hmem : txt "." ∈ parts := hparts ▸ List.mem_singleton_self _
  exact (h _ hmem).2.1 rfl

/-- A path names its components. -/
theorem pathOfParts_inj {parts parts' : List Text} (h : ValidParts parts) (h' : ValidParts parts')
    (heq : pathOfParts parts = pathOfParts parts') : parts = parts' := by
  unfold pathOfParts at heq
  split_ifs at heq with hp hp' hp'
  · rw [hp, hp']
  · exact absurd heq.symm (intercalate_ne_dot h' hp')
  · exact absurd heq (intercalate_ne_dot h hp)
  · have hparts := PurePath.components_intercalate (fun part hpart => (h part hpart).2.2.2) hp
    rw [heq, PurePath.components_intercalate (fun part hpart => (h' part hpart).2.2.2) hp'] at hparts
    exact hparts.symm

theorem pathOfParts_eq_dot {parts : List Text} (h : ValidParts parts) : pathOfParts parts = txt "." ↔ parts = [] := by
  constructor
  · intro heq
    exact pathOfParts_inj h (List.forall_mem_nil _) (heq.trans (if_pos rfl).symm)
  · rintro rfl
    exact if_pos rfl

theorem components_ne_nil (path : Text) : Path.components path ≠ [] := List.splitOn_ne_nil _ _

theorem validPath_eq_ok {path : Text} {parts : List Text} (h : validPath path = .ok parts) :
    ValidParts parts ∧ pathOfParts parts = path := by
  unfold validPath at h
  split_ifs at h with hdot hbad
  · cases h
    refine ⟨fun _ hmem => ?_, hdot.symm⟩
    cases hmem
  · cases h
  · dsimp only at h
    split_ifs at h with hany
    · cases h
    · cases h
      have hslash : ∀ part ∈ Path.components path, ch '/' ∉ part := by
        intro part hpart hin
        simpa using (Lines.mem_splitOnP hpart (ch '/') hin).2
      refine ⟨fun part hpart => ?_, ?_⟩
      · have hgood : ¬ (part = [] ∨ part = txt "." ∨ part = txt "..") := by
          intro hpart'
          exact hany (List.any_eq_true.2 ⟨part, hpart, decide_eq_true hpart'⟩)
        simp only [not_or] at hgood
        exact ⟨hgood.1, hgood.2.1, hgood.2.2, hslash part hpart⟩
      · unfold pathOfParts
        rw [if_neg (components_ne_nil path)]
        exact List.intercalate_splitOn _

/-! ## Accepted entries -/

/-- The components of an entry's path. -/
def partsOf (e : FilesystemEntry) : List Text :=
  match validPath e.relativePath with
  | .ok parts => parts
  | .error _ => []

def homeOf (e : FilesystemEntry) : List Text := entryHome e (partsOf e)

/-- What `_validate_entries` makes sure of. -/
structure StructureAccepted (s : FilesystemSnapshot) : Prop where
  located : s.Located
  scopeId : ∀ e ∈ s.entries, e.scopeId ∈ s.scopeIds
  valid : ∀ e ∈ s.entries, validPath e.relativePath = .ok (partsOf e)
  size : ∀ e ∈ s.entries, ∀ size, e.sizeBytes = some size → 0 ≤ size
  root : ∀ e ∈ s.entries, partsOf e = [] → e.objectType = .directory
  ancestors : ∀ e ∈ s.entries, ∀ a ∈ s.entries, a.scopeId = e.scopeId → partsOf a <+: partsOf e →
    partsOf a ≠ partsOf e → a.objectType = .directory

theorem structureInvalid_ne_ok {α : Type} {x : α} : (structureInvalid : Result α) ≠ .ok x := by
  rintro ⟨⟩

theorem foldlM_validateEntry {id : Text} {scopes : List Text} {before out es : List FilesystemEntry}
    (h : es.foldlM (validateEntry id scopes) before = .ok out) :
    out = before ++ es ∧ (∀ e ∈ es, e.snapshotId = id ∧ e.scopeId ∈ scopes ∧ validPath e.relativePath = .ok (partsOf e) ∧
      ∀ size, e.sizeBytes = some size → 0 ≤ size) ∧
      (∀ e ∈ es, ∀ a ∈ before, a.location ≠ e.location) ∧ (es.map FilesystemEntry.location).Nodup := by
  induction es generalizing before with
  | nil =>
    cases h
    exact ⟨(List.append_nil _).symm, List.forall_mem_nil _, List.forall_mem_nil _, List.nodup_nil⟩
  | cons e es ih =>
    rw [List.foldlM_cons] at h
    obtain ⟨next, he, h⟩ := bind_eq_ok.1 h
    unfold validateEntry at he
    by_cases hid : e.snapshotId ≠ id
    · rw [if_pos hid] at he
      exact absurd he structureInvalid_ne_ok
    rw [if_neg hid] at he
    by_cases hscope : e.scopeId ∉ scopes
    · rw [if_pos hscope] at he
      exact absurd he structureInvalid_ne_ok
    rw [if_neg hscope] at he
    obtain ⟨parts, hparts, he⟩ := bind_eq_ok.1 he
    split_ifs at he with hseen hsize
    · exact absurd he structureInvalid_ne_ok
    · exact absurd he structureInvalid_ne_ok
    cases he
    obtain ⟨hout, hall, hfresh, hnodup⟩ := ih h
    have hnew : ∀ a ∈ before, a.location ≠ e.location := by
      intro a ha heq
      exact hseen (List.any_eq_true.2 ⟨a, ha, decide_eq_true heq⟩)
    refine ⟨by rw [hout, List.append_assoc]; rfl, ?_, ?_, ?_⟩
    · refine List.forall_mem_cons.2 ⟨⟨not_not.1 hid, not_not.1 hscope, ?_, fun size hs => ?_⟩, hall⟩
      · unfold partsOf
        rw [hparts]
      · rw [hs] at hsize
        simpa using hsize
    · exact List.forall_mem_cons.2 ⟨hnew, fun e' he' a ha => hfresh e' he' a (List.mem_append_left _ ha)⟩
    · rw [List.map_cons]
      refine List.nodup_cons.2 ⟨fun hmem => ?_, hnodup⟩
      obtain ⟨e', he', heq⟩ := List.mem_map.1 hmem
      exact hfresh e' he' e (List.mem_append_right _ (List.mem_singleton_self e)) heq.symm

/-- A scope root that is an entry is a directory. -/
theorem directory_of_root {es : List FilesystemEntry} {e : FilesystemEntry} (h : validateHierarchy es e = .ok ())
    (hvalid : validPath e.relativePath = .ok []) : e.objectType = .directory := by
  unfold validateHierarchy at h
  rw [hvalid, ok_bind_ok] at h
  obtain ⟨-, -, h⟩ := bind_eq_ok.1 h
  split_ifs at h with hbad
  · exact absurd h structureInvalid_ne_ok
  · by_contra hdir
    exact hbad ⟨(validPath_eq_ok hvalid).2.symm, hdir⟩

theorem validateEntries_accepted {s : FilesystemSnapshot} (h : validateEntries s = .ok ()) : StructureAccepted s := by
  unfold validateEntries at h
  obtain ⟨entries, hfold, h⟩ := bind_eq_ok.1 h
  obtain ⟨hout, hall, -, hnodup⟩ := foldlM_validateEntry hfold
  rw [List.nil_append] at hout
  subst hout
  rw [forM_eq_ok] at h
  have hvalid : ∀ e ∈ s.entries, validPath e.relativePath = .ok (partsOf e) := fun e he => (hall e he).2.2.1
  have hlocated : s.Located := ⟨fun e he => (hall e he).1, hnodup⟩
  refine ⟨hlocated, fun e he => (hall e he).2.1, hvalid, fun e he => (hall e he).2.2.2, fun e he hroot => ?_,
    fun e he a ha hscope hpre hne => ?_⟩
  · exact directory_of_root (h e he) (hroot ▸ hvalid e he)
  · have hlt : (partsOf a).length < (partsOf e).length := by
      by_contra hge
      exact hne (hpre.eq_of_length (by have hle := hpre.length_le; omega))
    by_cases hempty : (partsOf a).length = 0
    · -- The scope root is checked where it is met itself.
      exact directory_of_root (h a ha) (List.length_eq_zero_iff.1 hempty ▸ hvalid a ha)
    have hcheck := h e he
    unfold validateHierarchy at hcheck
    rw [hvalid e he, ok_bind_ok] at hcheck
    obtain ⟨⟨⟩, hancestors, -⟩ := bind_eq_ok.1 hcheck
    have hthis := forM_eq_ok.1 hancestors (partsOf a).length (List.mem_range'_1.2 ⟨by omega, by omega⟩)
    have hpath : pathOfParts ((partsOf e).take (partsOf a).length) = a.relativePath := by
      rw [← List.prefix_iff_eq_take.1 hpre]
      exact (validPath_eq_ok (hvalid a ha)).2
    rw [hpath] at hthis
    cases hfind : s.entries.find? fun b => b.location = (e.scopeId, a.relativePath) with
    | none =>
      have hnone := List.find?_eq_none.1 hfind a ha
      exact absurd (show a.location = (e.scopeId, a.relativePath) by rw [← hscope]; rfl) (by simpa using hnone)
    | some b =>
      have hb := List.find?_some hfind
      have hba : b = a := hlocated.eq (List.mem_of_find?_eq_some hfind) ha
        ((of_decide_eq_true hb).trans (by rw [← hscope]; rfl))
      rw [hfind, hba] at hthis
      dsimp only at hthis
      split_ifs at hthis with hdir
      · exact absurd hthis structureInvalid_ne_ok
      · exact not_not.1 hdir

/-! ## The builders of a scope -/

/-- The entries that are counted, each with the path of the node it is counted in. -/
def countedAt (es : List FilesystemEntry) : List (List Text × FilesystemEntry) :=
  (activeEntries es).map fun e => (homeOf e, e)

/-- What the counted entries add. -/
def countsAt (es : List FilesystemEntry) : List (List Text × NodeCounts) :=
  (activeEntries es).map fun e => (homeOf e, entryCounts e)

abbrev Builders (rs : List (List Text × FilesystemEntry)) (t : PathTree.Tree Text NodeBuilder) : Prop :=
  PathTree.Grown NodeBuilder.fresh NodeBuilder.record rs t

theorem ensurePrefixes_dropLast {ε : Type} {missing : ε} {fresh : NodeBuilder} {parts : List Text}
    {t : PathTree.Tree Text NodeBuilder} {n : Nat} (hn : n ≤ parts.length) :
    PathTree.ensurePrefixes missing fresh parts n t = PathTree.ensurePrefixes missing fresh parts.dropLast n t := by
  induction n with
  | zero => rfl
  | succ n ih =>
    have htake : parts.dropLast.take n = parts.take n := by
      rw [List.dropLast_eq_take, List.take_take]
      congr 1
      omega
    rw [PathTree.ensurePrefixes_succ, PathTree.ensurePrefixes_succ, ih (by omega), htake]

/-- One turn of the loop counts an entry at its home. -/
theorem addStructureEntry_grown {rs : List (List Text × FilesystemEntry)} {t : PathTree.Tree Text NodeBuilder}
    {e : FilesystemEntry} (h : Builders rs t) (hactive : e.excluded = false)
    (hvalid : validPath e.relativePath = .ok (partsOf e)) (hroot : partsOf e = [] → e.objectType = .directory) :
    ∃ t', addStructureEntry t e = .ok t' ∧ Builders (rs ++ [(homeOf e, e)]) t' := by
  unfold addStructureEntry
  rw [if_neg (by simp [hactive]), hvalid, ok_bind_ok]
  obtain ⟨t', ht', hgrown⟩ := h.put (Exc.python Error.keyError) (homeOf e) e
  by_cases hdir : e.objectType = .directory
  · have hhome : homeOf e = partsOf e := if_pos hdir
    rw [hhome, PathTree.ensurePrefixes_succ, List.take_length] at ht'
    obtain ⟨t₁, ht₁, hlast⟩ := bind_eq_ok.1 ht'
    refine ⟨_, ?_, hgrown⟩
    show (PathTree.ensurePrefixes _ _ _ _ _ >>= fun _ => _) = _
    rw [ht₁, ok_bind_ok]
    have hensure : PathTree.ensure (Exc.python Error.keyError) NodeBuilder.fresh t₁ (homeOf e) = .ok t' := by
      rw [hhome]
      exact hlast
    show (PathTree.ensure _ _ t₁ (homeOf e) >>= fun _ => _) = _
    rw [hensure]
    rfl
  · have hhome : homeOf e = (partsOf e).dropLast := if_neg hdir
    have hpos : 0 < (partsOf e).length := List.length_pos_iff.2 fun hnil => hdir (hroot hnil)
    have hlen : (homeOf e).length + 1 = (partsOf e).length := by
      rw [hhome, List.length_dropLast]
      omega
    have hmem : homeOf e ∈ PathTree.paths t' := by
      have hput := (hgrown.mem_paths (homeOf e)).2
        (.inr ⟨(homeOf e, e), List.mem_append_right _ (List.mem_singleton_self _), List.prefix_refl _⟩)
      rwa [PathTree.paths_modify] at hput
    rw [hlen, hhome, ← ensurePrefixes_dropLast (Nat.le_refl _)] at ht'
    refine ⟨_, ?_, hgrown⟩
    show (PathTree.ensurePrefixes _ _ _ _ _ >>= fun _ => _) = _
    rw [ht', ok_bind_ok]
    have hensure : PathTree.ensure (Exc.python Error.keyError) NodeBuilder.fresh t' (homeOf e) = .ok t' := if_pos hmem
    show (PathTree.ensure _ _ t' (homeOf e) >>= fun _ => _) = _
    rw [hensure]
    rfl

theorem countedAt_cons {e : FilesystemEntry} {es : List FilesystemEntry} :
    countedAt (e :: es) = if e.excluded then countedAt es else (homeOf e, e) :: countedAt es := by
  unfold countedAt activeEntries
  cases hex : e.excluded <;> simp [hex]

/-- The loop over the entries of a scope. -/
theorem foldlM_addStructureEntry {rs : List (List Text × FilesystemEntry)} {t : PathTree.Tree Text NodeBuilder}
    {es : List FilesystemEntry} (h : Builders rs t)
    (hvalid : ∀ e ∈ es, validPath e.relativePath = .ok (partsOf e))
    (hroot : ∀ e ∈ es, partsOf e = [] → e.objectType = .directory) :
    ∃ t', es.foldlM addStructureEntry t = .ok t' ∧ Builders (rs ++ countedAt es) t' := by
  induction es generalizing rs t with
  | nil => exact ⟨t, rfl, by rwa [countedAt, activeEntries, List.filter_nil, List.map_nil, List.append_nil]⟩
  | cons e es ih =>
    obtain ⟨hve, hvalid⟩ := List.forall_mem_cons.1 hvalid
    obtain ⟨hre, hroot⟩ := List.forall_mem_cons.1 hroot
    rw [List.foldlM_cons, countedAt_cons]
    cases hex : e.excluded with
    | true =>
      have hskip : addStructureEntry t e = .ok t := by
        unfold addStructureEntry
        rw [if_pos hex]
      rw [hskip, ok_bind_ok, if_pos rfl]
      exact ih h hvalid hroot
    | false =>
      obtain ⟨t₁, ht₁, hgrown⟩ := addStructureEntry_grown h hex hve hre
      obtain ⟨t₂, ht₂, hgrown₂⟩ := ih hgrown hvalid hroot
      rw [ht₁, ok_bind_ok, if_neg Bool.false_ne_true]
      refine ⟨t₂, ht₂, ?_⟩
      rwa [List.append_assoc] at hgrown₂

/-! ## What a builder holds -/

theorem foldl_record (b : NodeBuilder) (es : List FilesystemEntry) :
    es.foldl NodeBuilder.record b =
      ⟨b.observedDirectoryEntry || es.any fun e => e.objectType = .directory, b.direct + (es.map entryCounts).sum⟩ := by
  induction es generalizing b with
  | nil => simp
  | cons e es ih =>
    rw [List.foldl_cons, ih]
    simp [NodeBuilder.record, Bool.or_assoc, add_assoc]

/-- A directory at a path is an entry that is counted. -/
def observedAt (es : List FilesystemEntry) (p : List Text) : Bool :=
  (activeEntries es).any fun e => e.objectType = .directory ∧ homeOf e = p

theorem countsAt_own {es : List FilesystemEntry} {p : List Text} :
    PathTree.ownTotal (countsAt es) p = (((activeEntries es).filter fun e => homeOf e = p).map entryCounts).sum := by
  unfold PathTree.ownTotal countsAt
  rw [List.filter_map, List.map_map]
  rfl

theorem builder_value {es : List FilesystemEntry} {p : List Text} :
    (((countedAt es).filter fun r => r.1 = p).map Prod.snd).foldl NodeBuilder.record NodeBuilder.fresh =
      ⟨observedAt es p, PathTree.ownTotal (countsAt es) p⟩ := by
  rw [foldl_record, countsAt_own]
  unfold countedAt observedAt NodeBuilder.fresh
  rw [List.filter_map, List.map_map]
  congr 1
  · rw [Bool.false_or, Bool.eq_iff_iff]
    simp only [List.any_eq_true, List.mem_map, List.mem_filter, Function.comp_apply, decide_eq_true_eq]
    constructor
    · rintro ⟨_, ⟨e, ⟨he, hp⟩, rfl⟩, hdir⟩
      exact ⟨e, he, hdir, hp⟩
    · rintro ⟨e, he, hdir, hp⟩
      exact ⟨e, ⟨e, ⟨he, hp⟩, rfl⟩, hdir⟩
  · rw [zero_add, List.map_map]
    rfl

/-! ## The nodes of a scope -/

/-- The paths of nodes: the root, and what leads to where an entry is counted. -/
def IsNodePath (es : List FilesystemEntry) (p : List Text) : Prop := p = [] ∨ ∃ e ∈ activeEntries es, p <+: homeOf e

section
variable (F : Type) [SqliteFloat F]

/-- The node of a path: what is counted at it, and at or below it. -/
def structureNode (snapshotId scopeId : Text) (es : List FilesystemEntry) (p : List Text) : PathAggregateNode where
  pathNodeId :=
    match structureNodeId F snapshotId scopeId (pathOfParts p) with
    | .ok pathNodeId => pathNodeId
    | .error _ => []
  snapshotId := snapshotId
  scopeId := scopeId
  relativeDirectoryPath := pathOfParts p
  observedDirectoryEntry := observedAt es p
  direct := PathTree.ownTotal (countsAt es) p
  recursive := PathTree.total (countsAt es) p

end

section
variable {F : Type} [SqliteFloat F] {snapshotId scopeId : Text} {es es' : List FilesystemEntry} {p : List Text}

theorem activeEntries_perm (h : es.Perm es') : (activeEntries es).Perm (activeEntries es') := h.filter _

theorem isNodePath_perm (h : es.Perm es') : IsNodePath es p ↔ IsNodePath es' p := by
  unfold IsNodePath
  simp only [(activeEntries_perm h).mem_iff]

theorem structureNode_perm (h : es.Perm es') :
    structureNode F snapshotId scopeId es p = structureNode F snapshotId scopeId es' p := by
  have hcounts : (countsAt es).Perm (countsAt es') := (activeEntries_perm h).map _
  have hobserved : observedAt es p = observedAt es' p := by
    unfold observedAt
    rw [Bool.eq_iff_iff]
    simp only [List.any_eq_true, (activeEntries_perm h).mem_iff]
  have hown : PathTree.ownTotal (countsAt es) p = PathTree.ownTotal (countsAt es') p := ((hcounts.filter _).map _).sum_eq
  have htotal : PathTree.total (countsAt es) p = PathTree.total (countsAt es') p := ((hcounts.filter _).map _).sum_eq
  unfold structureNode
  rw [hobserved, hown, htotal]

theorem validParts_home {e : FilesystemEntry} (h : validPath e.relativePath = .ok (partsOf e)) : ValidParts (homeOf e) := by
  have hparts := (validPath_eq_ok h).1
  unfold homeOf entryHome
  split_ifs
  · exact hparts
  · exact hparts.ofPrefix (List.dropLast_prefix _)

theorem IsNodePath.valid (hvalid : ∀ e ∈ es, validPath e.relativePath = .ok (partsOf e)) (h : IsNodePath es p) :
    ValidParts p := by
  rcases h with rfl | ⟨e, he, hp⟩
  · exact List.forall_mem_nil _
  · exact (validParts_home (hvalid e (List.mem_of_mem_filter he))).ofPrefix hp

theorem grown_isNodePath {t : PathTree.Tree Text NodeBuilder} (h : Builders (countedAt es) t) :
    p ∈ PathTree.paths t ↔ IsNodePath es p := by
  rw [h.mem_paths]
  refine or_congr_right ?_
  unfold countedAt
  constructor
  · rintro ⟨r, hr, hp⟩
    obtain ⟨e, he, rfl⟩ := List.mem_map.1 hr
    exact ⟨e, he, hp⟩
  · rintro ⟨e, he, hp⟩
    exact ⟨_, List.mem_map_of_mem he, hp⟩

theorem orderChildren_perm {children cs : List (List Text)} (h : orderChildren children = .ok cs) : cs.Perm children :=
  sortedByM_perm h

/-- The node of a path is aggregated from the nodes of its children. -/
theorem aggregateNode_eq {t : PathTree.Tree Text NodeBuilder} (h : Builders (countedAt es) t)
    {b : PathTree.Branch Text NodeBuilder} (hb : PathTree.branchAt t p = some b) {cs : List (List Text)}
    (hcs : cs.Perm b.children) {node : PathAggregateNode}
    (hnode : aggregateNode F snapshotId scopeId p b.value (cs.map (structureNode F snapshotId scopeId es)) = .ok node) :
    node = structureNode F snapshotId scopeId es p := by
  have hvalue : b.value = ⟨observedAt es p, PathTree.ownTotal (countsAt es) p⟩ := by
    have hat : PathTree.valueAt NodeBuilder.fresh t p = b.value := PathTree.valueAt_eq hb
    rw [← hat, h.valueAt, builder_value]
  have htotal : PathTree.total (countsAt es) p =
      PathTree.ownTotal (countsAt es) p + (cs.map (PathTree.total (countsAt es))).sum := by
    have hchild {c : List Text} (hc : c ∈ cs) := h.wellFormed.child hb (hcs.mem_iff.1 hc)
    refine PathTree.total_eq (hcs.nodup_iff.2 (h.wellFormed.children_nodup p b hb)) (fun c hc => (hchild hc).2) ?_
    intro w hw hpw hne
    obtain ⟨e, he, rfl⟩ := List.mem_map.1 hw
    have hhome : homeOf e ∈ PathTree.paths t := (grown_isNodePath h).2 (.inr ⟨e, he, List.prefix_refl _⟩)
    rcases (h.wellFormed.below_iff hb hhome).1 hpw with heq | ⟨c, hc, hch⟩
    · exact absurd heq hne
    · exact ⟨c, hcs.mem_iff.2 hc, hch⟩
  unfold aggregateNode at hnode
  obtain ⟨id, hid, hnode⟩ := bind_eq_ok.1 hnode
  cases hnode
  unfold structureNode
  rw [hid, hvalue, htotal, List.map_map]
  rfl

/-- The nodes of a scope are those of its node paths, each once. -/
theorem scopeNodes_spec {nodes : List PathAggregateNode} (h : scopeNodes F snapshotId scopeId es = .ok nodes)
    (hvalid : ∀ e ∈ es, validPath e.relativePath = .ok (partsOf e))
    (hroot : ∀ e ∈ es, partsOf e = [] → e.objectType = .directory) :
    (nodes.map PathAggregateNode.relativeDirectoryPath).Nodup ∧
      ∀ node, node ∈ nodes ↔ ∃ p, IsNodePath es p ∧ node = structureNode F snapshotId scopeId es p := by
  unfold scopeNodes at h
  obtain ⟨values, hvalues, h⟩ := bind_eq_ok.1 h
  obtain ⟨t, ht, h⟩ := bind_eq_ok.1 h
  obtain ⟨resolved, hresolved, h⟩ := bind_eq_ok.1 h
  have hperm := sortedByM_perm hvalues
  obtain ⟨t', ht', hgrown⟩ := @foldlM_addStructureEntry _ _ values PathTree.grown_root
    (fun e he => hvalid e (hperm.mem_iff.1 he)) fun e he => hroot e (hperm.mem_iff.1 he)
  rw [ht] at ht'
  cases ht'
  rw [List.nil_append] at hgrown
  have hspec : PathTree.Resolved t (structureNode F snapshotId scopeId values) [] resolved :=
    PathTree.resolve_spec hgrown.wellFormed
    (fun _ _ _ _ hcs => orderChildren_perm hcs) (fun q b cs hb hcs g hg => aggregateNode_eq hgrown hb hcs hg) hresolved
  obtain ⟨-, hnodup, hmem⟩ := hspec
  have hsorted := sortedByM_perm h
  refine ⟨?_, fun node => ?_⟩
  · refine ((hsorted.map _).nodup_iff).2 ?_
    rw [List.map_map]
    refine List.Nodup.map_on (fun x hx y hy hxy => ?_) (List.Nodup.of_map _ hnodup)
    obtain ⟨q, g⟩ := x
    obtain ⟨q', g'⟩ := y
    obtain ⟨hq, -, rfl⟩ := (hmem q g).1 hx
    obtain ⟨hq', -, rfl⟩ := (hmem q' g').1 hy
    have hvalid' : ∀ e ∈ values, validPath e.relativePath = .ok (partsOf e) := fun e he => hvalid e (hperm.mem_iff.1 he)
    have hpath := pathOfParts_inj (((grown_isNodePath hgrown).1 hq).valid hvalid')
      (((grown_isNodePath hgrown).1 hq').valid hvalid') hxy
    rw [hpath]
  · rw [hsorted.mem_iff, List.mem_map]
    constructor
    · rintro ⟨⟨q, g⟩, hqg, rfl⟩
      obtain ⟨hq, -, rfl⟩ := (hmem q g).1 hqg
      exact ⟨q, (isNodePath_perm hperm).1 ((grown_isNodePath hgrown).1 hq), structureNode_perm hperm⟩
    · rintro ⟨q, hq, rfl⟩
      exact ⟨(q, _), (hmem q _).2 ⟨(grown_isNodePath hgrown).2 ((isNodePath_perm hperm).2 hq), List.nil_prefix, rfl⟩,
        structureNode_perm hperm⟩

/-- The entries of a scope. -/
def scopeEntries (s : FilesystemSnapshot) (scopeId : Text) : List FilesystemEntry :=
  s.entries.filter fun e => e.scopeId = scopeId

theorem mem_scopeEntries {s : FilesystemSnapshot} {e : FilesystemEntry} :
    e ∈ scopeEntries s scopeId ↔ e ∈ s.entries ∧ e.scopeId = scopeId := by
  unfold scopeEntries
  rw [List.mem_filter, decide_eq_true_eq]

/-- The nodes of a snapshot are those of its scopes. -/
theorem mem_scopeNodes {s : FilesystemSnapshot} {nodes : List (List PathAggregateNode)} (hs : StructureAccepted s)
    (h : (sortedKeys s.scopeIds).mapM (fun scopeId => scopeNodes F s.snapshotId scopeId (scopeEntries s scopeId)) = .ok nodes)
    (node : PathAggregateNode) :
    node ∈ nodes.flatten ↔ ∃ scopeId ∈ s.scopeIds, ∃ p, IsNodePath (scopeEntries s scopeId) p ∧
      node = structureNode F s.snapshotId scopeId (scopeEntries s scopeId) p := by
  have hscope : ∀ (scopeId : Text) (ns : List PathAggregateNode),
      scopeNodes F s.snapshotId scopeId (scopeEntries s scopeId) = .ok ns →
        (node ∈ ns ↔ ∃ p, IsNodePath (scopeEntries s scopeId) p ∧
          node = structureNode F s.snapshotId scopeId (scopeEntries s scopeId) p) := by
    intro scopeId ns hns
    exact (scopeNodes_spec hns (fun e he => hs.valid e (List.mem_of_mem_filter he))
      fun e he => hs.root e (List.mem_of_mem_filter he)).2 node
  rw [List.mem_flatten]
  constructor
  · rintro ⟨ns, hns, hnode⟩
    obtain ⟨scopeId, hin, hok⟩ := exists_of_mem_mapM h hns
    exact ⟨scopeId, mem_sortedKeys.1 hin, (hscope scopeId ns hok).1 hnode⟩
  · rintro ⟨scopeId, hin, hnode⟩
    obtain ⟨ns, hns, hok⟩ := exists_mapM_of_mem h (mem_sortedKeys.2 hin)
    exact ⟨ns, hns, (hscope scopeId ns hok).2 hnode⟩

/-- What a structure that was computed is made of. -/
theorem computeSnapshotStructure_spec {s : FilesystemSnapshot} {result : StorageStructureResult}
    (h : computeSnapshotStructure F s = .ok result) :
    StructureAccepted s ∧ (∀ e ∈ s.entries, Ok (pathBytes e.relativePath)) ∧
      ∀ node, node ∈ result.pathNodes ↔ ∃ scopeId ∈ s.scopeIds, ∃ p, IsNodePath (scopeEntries s scopeId) p ∧
        node = structureNode F s.snapshotId scopeId (scopeEntries s scopeId) p := by
  unfold computeSnapshotStructure at h
  obtain ⟨⟨⟩, hvalidate, h⟩ := bind_eq_ok.1 h
  obtain ⟨nodes, hnodes, h⟩ := bind_eq_ok.1 h
  obtain ⟨summaries, -, h⟩ := bind_eq_ok.1 h
  obtain ⟨limitations, -, h⟩ := bind_eq_ok.1 h
  have haccepted := validateEntries_accepted hvalidate
  split_ifs at h
  · exact absurd h structureInvalid_ne_ok
  unfold structureResult at h
  obtain ⟨digest, -, h⟩ := bind_eq_ok.1 h
  cases h
  refine ⟨haccepted, fun e he => ?_, fun node => ?_⟩
  · obtain ⟨ns, -, hok⟩ := exists_mapM_of_mem hnodes (mem_sortedKeys.2 (haccepted.scopeId e he))
    unfold scopeNodes at hok
    obtain ⟨values, hvalues, -⟩ := bind_eq_ok.1 hok
    exact ok_sort_entries.1 ⟨values, hvalues⟩ e (List.mem_filter.2 ⟨he, decide_eq_true rfl⟩)
  exact mem_scopeNodes haccepted hnodes node

end

end Steward
