import Steward.Analysis.StructureTotal
import Steward.Py.Tally
import Steward.Sqlite.Integral

/-!
# Directory nodes of a Context projection

`_directory_nodes` of `context_projection.py` counts the entries below each
directory once more, with filters of its own. Its figures are those of the
storage structure and what the structure leaves out: excluded entries, the sizes
of files that were not observed, less a directory's own entry.
-/

namespace Steward.Context

open Py Sqlite

/-- What a directory node counts. -/
structure DirectoryFigures where
  entryCount : Int
  regularFileCount : Int
  logicalBytes : Int
  unknownSizeCount : Int
  deriving DecidableEq, Repr

structure DirectoryNode where
  scopeId : Text
  relativePath : Text
  figures : DirectoryFigures
  deriving DecidableEq, Repr

namespace DirectoryFigures

def fresh : DirectoryFigures := ⟨0, 0, 0, 0⟩

def count (figures : DirectoryFigures) (e : FilesystemEntry) : DirectoryFigures :=
  if e.objectType = .regularFile then
    match e.sizeBytes with
    | none =>
      { figures with entryCount := figures.entryCount + 1, regularFileCount := figures.regularFileCount + 1,
                     unknownSizeCount := figures.unknownSizeCount + 1 }
    | some size =>
      { figures with entryCount := figures.entryCount + 1, regularFileCount := figures.regularFileCount + 1,
                     logicalBytes := figures.logicalBytes + size }
  else { figures with entryCount := figures.entryCount + 1 }

end DirectoryFigures

/-- `paths`: the scope root and the directories above the entry. -/
def directoryPaths (e : FilesystemEntry) : List Text :=
  let parts := if e.relativePath = txt "." then [] else Path.components e.relativePath
  txt "." :: (List.range' 1 (parts.length - 1)).map fun index => [ch '/'].intercalate (parts.take index)

/-- `_location_key` -/
def locationKey (scopeId relativePath : Text) : Result (Text ×ₗ List Byte) := do
  let bytes ← pathBytes relativePath
  return toLex (scopeId, bytes)

/-- The uses of the dictionary `nodes`: a location and the entry counted there. -/
def directoryUses (entries : List FilesystemEntry) : List ((Text × Text) × FilesystemEntry) :=
  entries.flatMap fun e => (directoryPaths e).map fun path => ((e.scopeId, path), e)

/-- `_directory_nodes` -/
def directoryNodes (entries : List FilesystemEntry) : Result (List DirectoryNode) :=
  sortedByM (fun node => locationKey node.scopeId node.relativePath)
    ((tally DirectoryFigures.fresh DirectoryFigures.count (directoryUses entries)).map
      fun n => ⟨n.1.1, n.1.2, n.2⟩)

/-! ## The entries of a node -/

/-- The entry is counted in the node of `p`: it lies below it, or `p` is the scope root. -/
def Below (p : List Text) (e : FilesystemEntry) : Prop := p = [] ∨ p <+: partsOf e ∧ p ≠ partsOf e

instance (p : List Text) (e : FilesystemEntry) : Decidable (Below p e) := inferInstanceAs (Decidable (_ ∨ _ ∧ _))

section
variable {e : FilesystemEntry} {p : List Text}

/-- The components of a path that is accepted. -/
theorem directoryParts (h : validPath e.relativePath = .ok (partsOf e)) :
    (if e.relativePath = txt "." then [] else Path.components e.relativePath) = partsOf e := by
  have hpath := (validPath_eq_ok h).2
  have hparts := (validPath_eq_ok h).1
  by_cases hdot : e.relativePath = txt "."
  · rw [if_pos hdot]
    rw [← hpath, pathOfParts_eq_dot hparts] at hdot
    exact hdot.symm
  · rw [if_neg hdot]
    have hne : partsOf e ≠ [] := by
      intro hnil
      rw [← hpath, pathOfParts_eq_dot hparts] at hdot
      exact hdot hnil
    rw [← hpath, pathOfParts, if_neg hne]
    exact PurePath.components_intercalate (fun part hpart => (hparts part hpart).2.2.2) hne

/-- The paths of an entry are those of the directories above it, each once. -/
theorem directoryPaths_eq (h : validPath e.relativePath = .ok (partsOf e)) :
    directoryPaths e = (List.range (max 1 (partsOf e).length)).map fun index => pathOfParts ((partsOf e).take index) := by
  unfold directoryPaths
  rw [directoryParts h]
  obtain ⟨n, hn⟩ : ∃ n, max 1 (partsOf e).length = n + 1 := ⟨max 1 (partsOf e).length - 1, by omega⟩
  have hlen : (partsOf e).length - 1 = n := by omega
  dsimp only
  rw [hn, hlen, List.range_eq_range', List.range'_succ, List.map_cons]
  refine congrArg₂ List.cons rfl (List.map_congr_left fun index hindex => ?_)
  have hbounds := List.mem_range'_1.1 hindex
  have hne : (partsOf e).take index ≠ [] := by
    intro hnil
    have hzero := congrArg List.length hnil
    rw [List.length_take, List.length_nil] at hzero
    omega
  exact (if_neg hne).symm

theorem nodup_directoryPaths (h : validPath e.relativePath = .ok (partsOf e)) : (directoryPaths e).Nodup := by
  rw [directoryPaths_eq h]
  refine List.Nodup.map_on (fun i hi j hj hij => ?_) List.nodup_range
  have hparts := (validPath_eq_ok h).1
  have htake := pathOfParts_inj (hparts.ofPrefix (List.take_prefix _ _)) (hparts.ofPrefix (List.take_prefix _ _)) hij
  have hlen := congrArg List.length htake
  rw [List.length_take, List.length_take] at hlen
  have hi := List.mem_range.1 hi
  have hj := List.mem_range.1 hj
  omega

theorem mem_directoryPaths (h : validPath e.relativePath = .ok (partsOf e)) (hp : ValidParts p) :
    pathOfParts p ∈ directoryPaths e ↔ Below p e := by
  rw [directoryPaths_eq h, List.mem_map]
  have hparts := (validPath_eq_ok h).1
  unfold Below
  constructor
  · rintro ⟨index, hindex, hpath⟩
    have hindex := List.mem_range.1 hindex
    have htake := pathOfParts_inj (hparts.ofPrefix (List.take_prefix _ _)) hp hpath
    by_cases hnil : p = []
    · exact .inl hnil
    · refine .inr ⟨htake ▸ List.take_prefix _ _, fun heq => ?_⟩
      have hlen := congrArg List.length (htake.trans heq)
      rw [List.length_take] at hlen
      have hpos : 0 < (partsOf e).length := List.length_pos_iff.2 (heq ▸ hnil)
      omega
  · rintro (rfl | ⟨hpre, hne⟩)
    · exact ⟨0, List.mem_range.2 (by omega), rfl⟩
    · have hle := hpre.length_le
      have hlt : p.length < (partsOf e).length := by
        by_contra hge
        exact hne (hpre.eq_of_length (by omega))
      exact ⟨p.length, List.mem_range.2 (by omega), by rw [← List.prefix_iff_eq_take.1 hpre]⟩

end

/-- The entries that are counted at a location. -/
def belowEntries (scopeId : Text) (p : List Text) (es : List FilesystemEntry) : List FilesystemEntry :=
  es.filter fun e => e.scopeId = scopeId ∧ Below p e

section
variable {es : List FilesystemEntry} {scopeId : Text} {p : List Text}

theorem uses_at (hvalid : ∀ e ∈ es, validPath e.relativePath = .ok (partsOf e)) (hp : ValidParts p) :
    ((directoryUses es).filter fun u => u.1 = (scopeId, pathOfParts p)).map Prod.snd = belowEntries scopeId p es := by
  unfold directoryUses belowEntries
  induction es with
  | nil => rfl
  | cons e es ih =>
    obtain ⟨he, hvalid⟩ := List.forall_mem_cons.1 hvalid
    rw [List.flatMap_cons, List.filter_append, List.map_append, ih hvalid, List.filter_cons]
    have hone : (((directoryPaths e).map fun path => ((e.scopeId, path), e)).filter fun u => u.1 = (scopeId, pathOfParts p)).map
        Prod.snd = if e.scopeId = scopeId ∧ Below p e then [e] else [] := by
      rw [List.filter_map, List.map_map]
      by_cases hin : e.scopeId = scopeId ∧ Below p e
      · obtain ⟨rfl, hbelow⟩ := hin
        rw [if_pos ⟨rfl, hbelow⟩, filter_eq_singleton ((nodup_directoryPaths he).imp fun hne ha => ?_)
          ((mem_directoryPaths he hp).2 hbelow) (by simp)]
        · rfl
        · simp only [Function.comp_apply, decide_eq_true_eq, Prod.mk.injEq, true_and, decide_eq_false_iff_not] at ha ⊢
          exact fun hb => hne (ha.trans hb.symm)
      · rw [if_neg hin, List.filter_eq_nil_iff.2]
        · rfl
        · intro path hpath heq
          have heq := of_decide_eq_true heq
          simp only [Prod.mk.injEq] at heq
          obtain ⟨hscope, rfl⟩ := heq
          exact hin ⟨hscope, (mem_directoryPaths he hp).1 hpath⟩
    rw [hone]
    by_cases hin : e.scopeId = scopeId ∧ Below p e
    · rw [if_pos hin, if_pos (decide_eq_true hin)]
      rfl
    · rw [if_neg hin, if_neg (by simpa using hin)]
      rfl

end

/-! ## What the two count -/

theorem foldl_count (f : DirectoryFigures) (es : List FilesystemEntry) :
    es.foldl DirectoryFigures.count f =
      { entryCount := f.entryCount + es.length
        regularFileCount := f.regularFileCount + es.countP fun e => e.objectType = .regularFile
        logicalBytes := f.logicalBytes + logicalBytes (regularEntries es)
        unknownSizeCount := f.unknownSizeCount + (regularEntries es).countP fun e => e.sizeBytes = none } := by
  induction es generalizing f with
  | nil => simp [logicalBytes, regularEntries]
  | cons e es ih =>
    rw [List.foldl_cons, ih]
    unfold DirectoryFigures.count regularEntries logicalBytes
    by_cases hreg : e.objectType = .regularFile
    · rw [if_pos hreg, List.filter_cons_of_pos (by simpa using hreg), List.countP_cons_of_pos (by simpa using hreg)]
      cases hsize : e.sizeBytes with
      | none =>
        simp [hsize]
        omega
      | some size =>
        simp [hsize]
        omega
    · rw [if_neg hreg, List.filter_cons_of_neg (by simpa using hreg), List.countP_cons_of_neg (by simpa using hreg)]
      simp
      omega

/-- All that is counted at or below a node. -/
def NodeCounts.entries (counts : NodeCounts) : Int :=
  counts.regularFileCount + counts.directoryCount + counts.symlinkCount + counts.specialObjectCount

/-- The entry is counted in the node of a path or below: it lies below the path, or is its directory. -/
theorem prefix_home_iff {e : FilesystemEntry} {p : List Text} (hroot : partsOf e = [] → e.objectType = .directory) :
    p <+: homeOf e ↔ Below p e ∨ e.objectType = .directory ∧ partsOf e = p := by
  unfold homeOf entryHome Below
  by_cases hdir : e.objectType = .directory
  · rw [if_pos hdir]
    constructor
    · intro hp
      by_cases heq : p = partsOf e
      · exact .inr ⟨hdir, heq.symm⟩
      · exact .inl (.inr ⟨hp, heq⟩)
    · rintro ((rfl | ⟨hp, -⟩) | ⟨-, rfl⟩)
      · exact List.nil_prefix
      · exact hp
      · exact List.prefix_refl _
  · rw [if_neg hdir]
    have hne : partsOf e ≠ [] := fun hnil => hdir (hroot hnil)
    constructor
    · intro hp
      refine .inl (.inr ⟨hp.trans (List.dropLast_prefix _), fun heq => ?_⟩)
      have hle := hp.length_le
      have hpos := List.length_pos_iff.2 hne
      rw [List.length_dropLast, heq] at hle
      omega
    · rintro ((rfl | ⟨hp, hpne⟩) | ⟨hdir', -⟩)
      · exact List.nil_prefix
      · have hle := hp.length_le
        have hlt : p.length < (partsOf e).length := by
          by_contra hge
          exact hpne (hp.eq_of_length (by omega))
        rw [List.prefix_iff_eq_take.1 hp, List.dropLast_eq_take]
        exact List.take_prefix_take_left (by omega)
      · exact absurd hdir' hdir

/-- A regular file whose size the structure does not count: excluded, or not observed. -/
def sizeLeftOut (e : FilesystemEntry) : Bool :=
  e.objectType = .regularFile && (e.excluded || e.observationStatus ≠ .observed)

/-- A counted regular file that has a size and was not observed. -/
def sizeUnobserved (e : FilesystemEntry) : Bool :=
  e.objectType = .regularFile && !e.excluded && e.observationStatus ≠ .observed && e.sizeBytes.isSome

/-- The directory of a path, counted in its own node. -/
def ownDirectory (p : List Text) (e : FilesystemEntry) : Bool :=
  !e.excluded && e.objectType = .directory && partsOf e = p && p ≠ []

/-- The figures of a node against the counters of the structure. -/
structure Reconciled (below : List FilesystemEntry) (own : Int) (figures : DirectoryFigures) (counts : NodeCounts) :
    Prop where
  regularFileCount : figures.regularFileCount =
    counts.regularFileCount + below.countP fun e => e.excluded && e.objectType = .regularFile
  logicalBytes : figures.logicalBytes = counts.knownLogicalBytes + logicalBytes (below.filter sizeLeftOut)
  unknownSizeCount : figures.unknownSizeCount + below.countP sizeUnobserved =
    counts.unknownSizeRegularCount + below.countP fun e => e.excluded && e.objectType = .regularFile && e.sizeBytes = none
  entryCount : figures.entryCount + own = NodeCounts.entries counts + below.countP FilesystemEntry.excluded

theorem countsAt_cons {e : FilesystemEntry} {es : List FilesystemEntry} {p : List Text} :
    PathTree.total (countsAt (e :: es)) p =
      (if e.excluded = false ∧ p <+: homeOf e then entryCounts e else 0) + PathTree.total (countsAt es) p := by
  unfold countsAt activeEntries
  cases hex : e.excluded with
  | true => simp [hex]
  | false =>
    rw [List.filter_cons_of_pos (by simp [hex]), List.map_cons, PathTree.total_cons]
    simp

theorem entries_add (a b : NodeCounts) : NodeCounts.entries (a + b) = NodeCounts.entries a + NodeCounts.entries b := by
  simp only [NodeCounts.entries, NodeCounts.add_regularFileCount, NodeCounts.add_directoryCount,
    NodeCounts.add_symlinkCount, NodeCounts.add_specialObjectCount]
  omega

section
variable (e : FilesystemEntry)

theorem entryCounts_entries : NodeCounts.entries (entryCounts e) = 1 := by
  unfold NodeCounts.entries entryCounts
  cases e.objectType <;> try rfl
  cases knownRegularSize e <;> rfl

theorem entryCounts_regularFileCount :
    (entryCounts e).regularFileCount = if e.objectType = .regularFile then 1 else 0 := by
  unfold entryCounts
  cases e.objectType <;> try rfl
  cases knownRegularSize e <;> rfl

theorem entryCounts_knownLogicalBytes :
    (entryCounts e).knownLogicalBytes =
      if e.objectType = .regularFile ∧ e.observationStatus = .observed then e.sizeBytes.getD 0 else 0 := by
  unfold entryCounts knownRegularSize
  cases e.objectType <;> try rfl
  by_cases hstatus : e.observationStatus = .observed
  · cases e.sizeBytes <;> simp [hstatus]
  · simp [hstatus]

theorem entryCounts_unknownSizeRegularCount :
    (entryCounts e).unknownSizeRegularCount =
      if e.objectType = .regularFile ∧ (e.observationStatus ≠ .observed ∨ e.sizeBytes = none) then 1 else 0 := by
  unfold entryCounts knownRegularSize
  cases e.objectType <;> try rfl
  by_cases hstatus : e.observationStatus = .observed
  · cases e.sizeBytes <;> simp [hstatus]
  · simp [hstatus]

end

theorem reconciled_nil {p : List Text} :
    Reconciled [] 0 DirectoryFigures.fresh (PathTree.total (countsAt []) p) := ⟨rfl, rfl, rfl, rfl⟩

/-- What an entry adds to the figures of a node. -/
def DirectoryFigures.plus (f : DirectoryFigures) (e : FilesystemEntry) : DirectoryFigures where
  entryCount := f.entryCount + 1
  regularFileCount := f.regularFileCount + if e.objectType = .regularFile then 1 else 0
  logicalBytes := f.logicalBytes + if e.objectType = .regularFile then e.sizeBytes.getD 0 else 0
  unknownSizeCount := f.unknownSizeCount + if e.objectType = .regularFile ∧ e.sizeBytes = none then 1 else 0

theorem foldl_count_cons (e : FilesystemEntry) (es : List FilesystemEntry) :
    (e :: es).foldl DirectoryFigures.count .fresh = (es.foldl DirectoryFigures.count .fresh).plus e := by
  rw [foldl_count, foldl_count]
  unfold DirectoryFigures.plus DirectoryFigures.fresh regularEntries logicalBytes
  by_cases hreg : e.objectType = .regularFile
  · rw [List.filter_cons_of_pos (by simpa using hreg), List.countP_cons_of_pos (by simpa using hreg), List.countP_cons]
    cases hsize : e.sizeBytes with
    | none => simp [hreg, hsize]
    | some size =>
      simp [hreg, hsize]
      omega
  · rw [List.filter_cons_of_neg (by simpa using hreg), List.countP_cons_of_neg (by simpa using hreg)]
    simp [hreg]

section
variable {below : List FilesystemEntry} {own : Int} {f : DirectoryFigures} {counts : NodeCounts} {e : FilesystemEntry}

/-- One entry below the path that both count. -/
theorem Reconciled.counted (h : Reconciled below own f counts) (hex : e.excluded = false) :
    Reconciled (e :: below) own (f.plus e) (entryCounts e + counts) := by
  obtain ⟨hregular, hbytes, hunknown, hentries⟩ := h
  unfold Steward.logicalBytes at hbytes
  refine ⟨?_, ?_, ?_, ?_⟩
  · rw [NodeCounts.add_regularFileCount, entryCounts_regularFileCount, List.countP_cons_of_neg (by simp [hex])]
    dsimp only [DirectoryFigures.plus]
    omega
  · rw [NodeCounts.add_knownLogicalBytes, entryCounts_knownLogicalBytes]
    unfold Steward.logicalBytes
    dsimp only [DirectoryFigures.plus]
    by_cases hleft : sizeLeftOut e = true
    · rw [List.filter_cons_of_pos hleft, List.map_cons, List.sum_cons]
      simp only [sizeLeftOut, hex, Bool.false_or, Bool.and_eq_true, decide_eq_true_eq] at hleft
      rw [if_pos hleft.1, if_neg fun h => hleft.2 h.2]
      omega
    · rw [List.filter_cons_of_neg hleft]
      simp only [sizeLeftOut, hex, Bool.false_or, Bool.and_eq_true, decide_eq_true_eq, not_and, not_not] at hleft
      by_cases hreg : e.objectType = .regularFile
      · rw [if_pos hreg, if_pos ⟨hreg, hleft hreg⟩]
        omega
      · rw [if_neg hreg, if_neg fun h => hreg h.1]
        omega
  · rw [NodeCounts.add_unknownSizeRegularCount, entryCounts_unknownSizeRegularCount, List.countP_cons,
      List.countP_cons_of_neg (by simp [hex])]
    unfold sizeUnobserved at hunknown ⊢
    dsimp only [DirectoryFigures.plus]
    by_cases hreg : e.objectType = .regularFile <;> by_cases hstatus : e.observationStatus = .observed <;>
      cases hsize : e.sizeBytes <;> simp [hreg, hstatus, hex] at hunknown ⊢ <;> omega
  · rw [entries_add, entryCounts_entries, List.countP_cons_of_neg (by simp [hex])]
    dsimp only [DirectoryFigures.plus]
    omega

/-- One entry below the path that the structure leaves out. -/
theorem Reconciled.leftOut (h : Reconciled below own f counts) (hex : e.excluded = true) :
    Reconciled (e :: below) own (f.plus e) counts := by
  obtain ⟨hregular, hbytes, hunknown, hentries⟩ := h
  unfold Steward.logicalBytes at hbytes
  refine ⟨?_, ?_, ?_, ?_⟩
  · rw [List.countP_cons]
    dsimp only [DirectoryFigures.plus]
    by_cases hreg : e.objectType = .regularFile <;> simp [hreg, hex] <;> omega
  · unfold Steward.logicalBytes
    dsimp only [DirectoryFigures.plus]
    by_cases hreg : e.objectType = .regularFile
    · have hleft : sizeLeftOut e = true := by simp [sizeLeftOut, hreg, hex]
      rw [List.filter_cons_of_pos hleft, if_pos hreg, List.map_cons, List.sum_cons]
      omega
    · have hleft : ¬ sizeLeftOut e = true := by simp [sizeLeftOut, hreg]
      rw [List.filter_cons_of_neg hleft, if_neg hreg]
      omega
  · rw [List.countP_cons_of_neg (by simp [sizeUnobserved, hex]), List.countP_cons]
    dsimp only [DirectoryFigures.plus]
    by_cases hreg : e.objectType = .regularFile <;> cases hsize : e.sizeBytes <;> simp [hreg, hex] <;> omega
  · rw [List.countP_cons_of_pos hex]
    dsimp only [DirectoryFigures.plus]
    omega

/-- A directory that is counted in its own node. -/
theorem Reconciled.ownNode (h : Reconciled below own f counts) (hdir : e.objectType = .directory) :
    Reconciled below (own + 1) f (entryCounts e + counts) := by
  obtain ⟨hregular, hbytes, hunknown, hentries⟩ := h
  refine ⟨?_, ?_, ?_, ?_⟩
  · rw [hregular, NodeCounts.add_regularFileCount, entryCounts_regularFileCount, if_neg (by simp [hdir]), Int.zero_add]
  · rw [hbytes, NodeCounts.add_knownLogicalBytes, entryCounts_knownLogicalBytes, if_neg (by simp [hdir]), Int.zero_add]
  · rw [hunknown, NodeCounts.add_unknownSizeRegularCount, entryCounts_unknownSizeRegularCount, if_neg (by simp [hdir]),
      Int.zero_add]
  · rw [entries_add, entryCounts_entries]
    omega

end

/-- The entries of a scope, counted by both in their own ways. -/
theorem reconciled {es : List FilesystemEntry} {p : List Text}
    (hroot : ∀ e ∈ es, partsOf e = [] → e.objectType = .directory) :
    Reconciled (es.filter fun e => Below p e) (es.countP (ownDirectory p))
      ((es.filter fun e => Below p e).foldl DirectoryFigures.count .fresh) (PathTree.total (countsAt es) p) := by
  induction es with
  | nil => exact reconciled_nil
  | cons e es ih =>
    obtain ⟨hre, hroot⟩ := List.forall_mem_cons.1 hroot
    have hrest := ih hroot
    have hhome := @prefix_home_iff e p hre
    rw [countsAt_cons]
    by_cases hbelow : Below p e
    · have hown : ¬ ownDirectory p e = true := by
        unfold ownDirectory
        rcases hbelow with rfl | ⟨-, hne⟩
        · simp
        · simp [Ne.symm hne]
      have hfilter : (e :: es).filter (fun e => Below p e) = e :: es.filter fun e => Below p e :=
        List.filter_cons_of_pos (by simpa using hbelow)
      rw [hfilter, List.countP_cons_of_neg hown, foldl_count_cons]
      cases hex : e.excluded with
      | false =>
        rw [if_pos ⟨rfl, hhome.2 (.inl hbelow)⟩]
        exact hrest.counted hex
      | true =>
        rw [if_neg fun h => Bool.noConfusion h.1, zero_add]
        exact hrest.leftOut hex
    · have hfilter : (e :: es).filter (fun e => Below p e) = es.filter fun e => Below p e :=
        List.filter_cons_of_neg (by simpa using hbelow)
      rw [hfilter]
      have hne : p ≠ [] := fun hnil => hbelow (.inl hnil)
      by_cases hown : ownDirectory p e = true
      · rw [List.countP_cons_of_pos hown]
        simp only [ownDirectory, Bool.and_eq_true, decide_eq_true_eq, Bool.not_eq_true'] at hown
        obtain ⟨⟨⟨hex, hdir⟩, hparts⟩, -⟩ := hown
        rw [if_pos ⟨hex, hhome.2 (.inr ⟨hdir, hparts⟩)⟩]
        exact hrest.ownNode hdir
      · rw [List.countP_cons_of_neg hown, if_neg, zero_add]
        · exact hrest
        · rintro ⟨hex, hp⟩
          rcases hhome.1 hp with h | ⟨hdir, hparts⟩
          · exact hbelow h
          · exact hown (by simp [ownDirectory, hex, hdir, hparts, hne])

/-! ## Agreement -/

/-- The figures reported for a location, none where it has no node. -/
def figuresAt (nodes : List DirectoryNode) (scopeId path : Text) : DirectoryFigures :=
  match nodes.find? fun node => node.scopeId = scopeId ∧ node.relativePath = path with
  | some node => node.figures
  | none => .fresh

theorem utf8Escape_isSome {t : Text} :
    (Text.utf8Escape t).isSome = true ↔ ∀ c ∈ t, (Text.escapePoint c).isSome = true := by
  induction t with
  | nil => exact iff_of_true rfl (List.forall_mem_nil _)
  | cons c t ih =>
    have hcons : Text.utf8Escape (c :: t) =
        (Text.escapePoint c).bind fun b => (Text.utf8Escape t).bind fun bs => some (b ++ bs) := rfl
    rw [List.forall_mem_cons, ← ih, hcons]
    cases Text.escapePoint c with
    | none => simp
    | some b => cases Text.utf8Escape t <;> simp

theorem ok_pathBytes {path : Text} : Ok (pathBytes path) ↔ ∀ c ∈ path, (Text.escapePoint c).isSome = true := by
  rw [← utf8Escape_isSome]
  unfold pathBytes
  cases Text.utf8Escape path <;> simp

/-- What a path is made of, its ancestors are. -/
theorem ok_pathBytes_take {parts : List Text} {n : Nat} (h : Ok (pathBytes (pathOfParts parts))) :
    Ok (pathBytes (pathOfParts (parts.take n))) := by
  rw [ok_pathBytes] at h ⊢
  exact points_of_prefix (by rintro c (rfl | rfl) <;> decide) (List.take_prefix n parts) h

section
variable {F : Type} [SqliteFloat F] {s : FilesystemSnapshot} {result : StorageStructureResult}

theorem mem_directoryUses {es : List FilesystemEntry} {u : (Text × Text) × FilesystemEntry} :
    u ∈ directoryUses es ↔ u.2 ∈ es ∧ u.1.1 = u.2.scopeId ∧ u.1.2 ∈ directoryPaths u.2 := by
  unfold directoryUses
  rw [List.mem_flatMap]
  constructor
  · rintro ⟨e, he, hu⟩
    obtain ⟨path, hpath, rfl⟩ := List.mem_map.1 hu
    exact ⟨he, rfl, hpath⟩
  · obtain ⟨⟨scopeId, path⟩, e⟩ := u
    rintro ⟨he, hscope, hpath⟩
    dsimp only at hscope hpath
    subst hscope
    exact ⟨e, he, List.mem_map_of_mem hpath⟩

theorem directoryNodes_ok (haccepted : StructureAccepted s) (hbytes : ∀ e ∈ s.entries, Ok (pathBytes e.relativePath)) :
    ∃ nodes, directoryNodes s.entries = .ok nodes := by
  refine ok_sortedByM.2 fun node hnode => ?_
  obtain ⟨n, hn, rfl⟩ := List.mem_map.1 hnode
  obtain ⟨u, hu, hkey⟩ := List.mem_map.1 (mem_tally.1 hn).1
  obtain ⟨he, -, hpath⟩ := mem_directoryUses.1 hu
  have hvalid := haccepted.valid u.2 he
  rw [directoryPaths_eq hvalid] at hpath
  obtain ⟨index, -, hpath⟩ := List.mem_map.1 hpath
  unfold locationKey
  refine (ok_bind_of_total fun _ => ok_pure _).2 ?_
  dsimp only
  rw [← hkey, ← hpath]
  refine ok_pathBytes_take ?_
  rw [(validPath_eq_ok hvalid).2]
  exact hbytes u.2 he

/-- The figures of a location are counted over the entries below it. -/
theorem figuresAt_eq {nodes : List DirectoryNode} (h : directoryNodes s.entries = .ok nodes)
    (haccepted : StructureAccepted s) {scopeId : Text} {p : List Text} (hp : ValidParts p) :
    figuresAt nodes scopeId (pathOfParts p) =
      (belowEntries scopeId p s.entries).foldl DirectoryFigures.count .fresh := by
  have hmem : ∀ node, node ∈ nodes ↔ ((node.scopeId, node.relativePath), node.figures) ∈
      tally DirectoryFigures.fresh DirectoryFigures.count (directoryUses s.entries) := by
    intro node
    rw [mem_sortedByM h, List.mem_map]
    constructor
    · rintro ⟨n, hn, rfl⟩
      exact hn
    · exact fun hn => ⟨_, hn, rfl⟩
  have huses := @uses_at s.entries scopeId p haccepted.valid hp
  unfold figuresAt
  cases hfind : nodes.find? fun node => node.scopeId = scopeId ∧ node.relativePath = pathOfParts p with
  | some node =>
    have hfound := List.find?_some hfind
    obtain ⟨hscope, hpath⟩ := of_decide_eq_true hfound
    have hvalue := (mem_tally.1 ((hmem node).1 (List.mem_of_find?_eq_some hfind))).2
    dsimp only at hvalue ⊢
    rw [hvalue, hscope, hpath, huses]
  | none =>
    have hempty : belowEntries scopeId p s.entries = [] := by
      rw [← huses, List.map_eq_nil_iff, List.filter_eq_nil_iff]
      intro u hu hkey
      have hkey := of_decide_eq_true hkey
      have htally :=
        (@mem_keys_tally _ _ _ _ DirectoryFigures.fresh DirectoryFigures.count _ _).2 (List.mem_map_of_mem hu)
      obtain ⟨n, hn, hnk⟩ := List.mem_map.1 htally
      have hnode := (hmem ⟨n.1.1, n.1.2, n.2⟩).2 hn
      refine absurd (List.find?_eq_none.1 hfind _ hnode) ?_
      rw [not_not, decide_eq_true_eq, hnk, hkey]
      exact ⟨rfl, rfl⟩
    rw [hempty]
    rfl

/-- An entry's own node is its own once. -/
theorem countP_ownDirectory (haccepted : StructureAccepted s) {scopeId : Text} {p : List Text} :
    ((scopeEntries s scopeId).countP (ownDirectory p) : Int) =
      if observedAt (scopeEntries s scopeId) p = true ∧ p ≠ [] then 1 else 0 := by
  have hone : (scopeEntries s scopeId).Pairwise fun a b => ownDirectory p a = true → ownDirectory p b = false := by
    have hdistinct : s.entries.Pairwise fun a b => a.location ≠ b.location :=
      List.pairwise_map.1 haccepted.located.location
    refine (hdistinct.sublist List.filter_sublist).imp_of_mem fun {a b} ha hb hab hown => ?_
    by_contra hownb
    rw [Bool.not_eq_false] at hownb
    obtain ⟨ha, hscope⟩ := mem_scopeEntries.1 ha
    obtain ⟨hb, hscopeb⟩ := mem_scopeEntries.1 hb
    simp only [ownDirectory, Bool.and_eq_true, decide_eq_true_eq] at hown hownb
    refine hab (Prod.ext (hscope.trans hscopeb.symm) ?_)
    show a.relativePath = b.relativePath
    rw [← (validPath_eq_ok (haccepted.valid a ha)).2, ← (validPath_eq_ok (haccepted.valid b hb)).2, hown.1.2, hownb.1.2]
  have hobserved : (observedAt (scopeEntries s scopeId) p = true ∧ p ≠ []) ↔
      ∃ e ∈ scopeEntries s scopeId, ownDirectory p e = true := by
    unfold observedAt activeEntries ownDirectory homeOf entryHome
    simp only [List.any_eq_true, List.mem_filter, Bool.and_eq_true, decide_eq_true_eq]
    constructor
    · rintro ⟨⟨e, ⟨he, hex⟩, hdir, hhome⟩, hne⟩
      rw [if_pos hdir] at hhome
      exact ⟨e, he, ⟨⟨hex, hdir⟩, hhome⟩, hne⟩
    · rintro ⟨e, he, ⟨⟨hex, hdir⟩, hparts⟩, hne⟩
      refine ⟨⟨e, ⟨he, hex⟩, hdir, ?_⟩, hne⟩
      rwa [if_pos hdir]
  split_ifs with hcond
  · obtain ⟨e, he, hown⟩ := hobserved.1 hcond
    rw [List.countP_eq_length_filter, filter_eq_singleton hone he hown]
    rfl
  · rw [List.countP_eq_zero.2]
    · rfl
    · intro e he hown
      exact hcond (hobserved.2 ⟨e, he, hown⟩)

theorem belowEntries_eq {es : List FilesystemEntry} {scopeId : Text} {p : List Text} :
    belowEntries scopeId p es = (es.filter fun e => e.scopeId = scopeId).filter fun e => Below p e := by
  unfold belowEntries
  rw [List.filter_filter]
  refine List.filter_congr fun e _ => ?_
  rw [← Bool.decide_and]
  congr 1
  exact propext and_comm

end

/-- A directory with an excluded file of five bytes. -/
def excludedFile : FilesystemSnapshot :=
  ⟨txt "s", [], [], [txt "home"],
    [⟨txt "s", txt "home", txt "a", .directory, none, none, none, none, none, none, none, none, none, none, none, true,
      true, false, .observed, none, none, false, none⟩,
    ⟨txt "s", txt "home", txt "a/x", .regularFile, none, none, none, none, none, some 5, none, none, none, none, none,
      true, true, false, .observed, none, none, true, none⟩]⟩

theorem excludedFile_structure : ∃ result, computeSnapshotStructure Integral excludedFile = .ok result :=
  ok_computeSnapshotStructure (by decide) ⟨by decide, by decide, by decide⟩

end Steward.Context
