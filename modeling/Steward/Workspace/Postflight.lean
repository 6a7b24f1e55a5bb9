import Steward.Workspace.Observation
import Steward.Evidence.Canonical
import Steward.Sqlite.Integral

/-!
# The change of a project after an execution

`_observe_state` and `_postflight_changes` of the code execution grounding: the
observation of the project before and after, each with a digest of its facts,
and what the later one is reported to have changed.
-/

namespace Steward.Workspace.Execution

open Py Sqlite

/-! ## The observation -/

def codeExecutionPacketDigestDomain : Text := txt "local_steward.code_execution_packet.v1"

/-- What `_git_identity` answers, beside the fixed root. -/
structure Identity where
  head : Option Text
  branch : Text
  detached : Bool
  deriving DecidableEq

/-- The labels of `_protected_roots`. -/
inductive Area where
  | git
  | data
  | cache
  | evidence
  | quarantine
  deriving DecidableEq

def Area.label : Area → Text
  | .git => txt "git"
  | .data => txt "data"
  | .cache => txt "cache"
  | .evidence => txt "evidence"
  | .quarantine => txt "quarantine"

def Area.all : List Area := [.git, .data, .cache, .evidence, .quarantine]

/-- The protected roots within the project, relative to it. -/
def labelled (roots : Area → Option Text) : List (Text × Text) :=
  Area.all.filterMap fun area => (roots area).map fun root => (area.label, root)

/-- `_PROTECTED_SIDEcars` -/
inductive Sidecar where
  | wal
  | shm
  | journal
  deriving DecidableEq

def Sidecar.name : Sidecar → Text
  | .wal => txt "state.db-wal"
  | .shm => txt "state.db-shm"
  | .journal => txt "state.db-journal"

def Sidecar.all : List Sidecar := [.wal, .shm, .journal]

/-- `_KNOWN_RESIDUE_ROOTS` -/
inductive Residue where
  | pytest
  | mypy
  | ruff
  deriving DecidableEq

def Residue.name : Residue → Text
  | .pytest => txt ".pytest_cache"
  | .mypy => txt ".mypy_cache"
  | .ruff => txt ".ruff_cache"

def Residue.all : List Residue := [.pytest, .mypy, .ruff]

def toolchainMarkers : List Text := ["pyproject.toml", "package.json", "Cargo.toml", "go.mod", "Makefile"].map txt

/-- `state_without_digest`; every record carries the protected area of its path. -/
structure ObservedState where
  identity : Identity
  statusDigest : Text
  trackedDiffDigest : Text
  indexDiffDigest : Text
  records : List (Observed StateMetadata)
  markers : List Text
  protectedRoots : Area → Option Text
  sidecars : Sidecar → Bool
  knownResidue : Residue → Bool
  ruled : ∀ r ∈ records, r.metadata.protectedArea = protectedLabel (labelled protectedRoots) r.path

/-- A project as git and the file system show it. -/
structure Project where
  identity : Identity
  status : List Byte
  trackedDiff : List Byte
  indexDiff : List Byte
  worktree : Text → Node
  isFile : Text → Bool
  protectedRoots : Area → Option Text
  sidecars : Sidecar → Bool
  knownResidue : Residue → Bool

theorem observeState_ruled {areas : List (Text × Text)} {worktree : Text → Node} {raw : List Byte}
    {records : List (Observed StateMetadata)} (h : observeState areas worktree raw = .ok records) :
    ∀ r ∈ records, r.metadata.protectedArea = protectedLabel areas r.path := by
  unfold observeState at h
  cases hstatus : parseStatus raw with
  | error e => rw [hstatus] at h; cases h
  | ok decoded =>
    rw [hstatus] at h
    cases h
    intro r hr
    obtain ⟨s, -, rfl⟩ := mem_observe.1 hr
    rfl

/-- `_observe_state`, without the digest. -/
def Project.observe (project : Project) : Except Error ObservedState :=
  match h : observeState (labelled project.protectedRoots) project.worktree project.status with
  | .error e => .error e
  | .ok records =>
    .ok {
      identity := project.identity
      statusDigest := Sha256.hexdigest project.status
      trackedDiffDigest := Sha256.hexdigest project.trackedDiff
      indexDiffDigest := Sha256.hexdigest project.indexDiff
      records := records
      markers := toolchainMarkers.filter project.isFile
      protectedRoots := project.protectedRoots
      sidecars := project.sidecars
      knownResidue := project.knownResidue
      ruled := observeState_ruled h }

/-! ## Its digest -/

section Digest

variable {F : Type}

def visibilityText : Visibility → Text
  | .tracked => txt "TRACKED"
  | .untracked => txt "UNTRACKED"
  | .ignored => txt "IGNORED"

def textOrNone : Option Text → Value F
  | none => .none
  | some t => .str t

def sizeOrNone : Option Nat → Value F
  | none => .none
  | some n => .int n

/-- A member that is left out where there is no value. -/
def optionally (key : Text) : Option Text → List (Text × Value F)
  | none => []
  | some t => [(key, .str t)]

def recordFacts (r : Observed StateMetadata) : List (Text × Value F) :=
  [(txt "path", .str r.path), (txt "status", .str r.status), (txt "visibility", .str (visibilityText r.visibility)),
    (txt "object_type", .str r.metadata.content.objectType),
    (txt "size_bytes", sizeOrNone r.metadata.content.sizeBytes),
    (txt "content_sha256", textOrNone r.metadata.content.contentSha256)] ++
    optionally (txt "protected_area") r.metadata.content.protectedArea ++
    optionally (txt "hash_status") r.metadata.content.hashStatus ++
    [(txt "protected", textOrNone r.metadata.protectedArea)]

def Identity.facts (i : Identity) : List (Text × Value F) :=
  [(txt "root_id", .str (txt "PROJECT_ROOT")), (txt "head", textOrNone i.head), (txt "branch", .str i.branch),
    (txt "detached", .bool i.detached)]

namespace ObservedState

variable (s : ObservedState)

def ignoredPaths : List Text :=
  (s.records.filter fun r => r.visibility = .ignored).map Observed.path

def facts : List (Text × Value F) :=
  [(txt "identity", .dict s.identity.facts),
    (txt "dirty", .bool (s.records.any fun r => r.visibility ≠ .ignored)),
    (txt "ignored_dirty", .bool (s.ignoredPaths ≠ [])),
    (txt "ignored_paths", .list (s.ignoredPaths.map .str)),
    (txt "status_digest", .str s.statusDigest),
    (txt "tracked_diff_digest", .str s.trackedDiffDigest),
    (txt "index_diff_digest", .str s.indexDiffDigest),
    (txt "records", .list (s.records.map fun r => .dict (recordFacts r))),
    (txt "toolchain_markers", .list (s.markers.map .str)),
    (txt "protected_roots", .dict ((labelled s.protectedRoots).map fun a => (a.1, .str a.2))),
    (txt "sidecars", .dict (record Sidecar.name Sidecar.all fun name => .bool (s.sidecars name))),
    (txt "known_residue", .dict (record Residue.name Residue.all fun name => .bool (s.knownResidue name)))]

end ObservedState

variable [SqliteFloat F]

/-- The text that `_digest` hashes. -/
def hashed (v : Value F) : Text := codeExecutionPacketDigestDomain ++ 0 :: canonicalText v

/-- `_digest` -/
def digest (v : Value F) : Result Text :=
  if v.safe then .ok (Runtime.sha256 F (Text.utf8 (hashed v))) else .error (.python .unicodeEncodeError)

/-- What `_observe_state` returns. -/
structure WorkspaceState (F : Type) [SqliteFloat F] extends ObservedState where
  stateDigest : Text
  digested : digest (.dict toObservedState.facts : Value F) = .ok stateDigest

/-! ### What it tells apart -/

section

omit [SqliteFloat F]

theorem textOrNone_injective {o o' : Option Text} (h : (textOrNone o : Value F).sortKeys = (textOrNone o').sortKeys) :
    o = o' := by
  cases o <;> cases o' <;> simp_all [textOrNone, Value.sortKeys]

theorem sizeOrNone_injective {o o' : Option Nat} (h : (sizeOrNone o : Value F).sortKeys = (sizeOrNone o').sortKeys) :
    o = o' := by
  cases o <;> cases o' <;> simp_all [sizeOrNone, Value.sortKeys]

theorem optionStr_injective {o o' : Option Text} (h : (o.map (Value.str (F := F))).map Value.sortKeys =
    (o'.map Value.str).map Value.sortKeys) : o = o' := by
  cases o <;> cases o' <;> simp_all [Value.sortKeys]

end

theorem visibilityText_injective {v v' : Visibility} (h : visibilityText v = visibilityText v') : v = v' := by
  cases v <;> cases v' <;> first | rfl | exact absurd h (by decide)

omit [SqliteFloat F] in
theorem nodup_recordFacts (r : Observed StateMetadata) : (keys (recordFacts r : List (Text × Value F))).Nodup := by
  obtain ⟨path, status, visibility, ⟨objectType, size, sha, area, hash⟩, label⟩ := r
  have hkeys : ∀ area hash : Bool, ([txt "path", txt "status", txt "visibility", txt "object_type",
      txt "size_bytes", txt "content_sha256"] ++ (if area then [txt "protected_area"] else []) ++
        (if hash then [txt "hash_status"] else []) ++ [txt "protected"]).Nodup := by decide
  cases area <;> cases hash
  · exact hkeys false false
  · exact hkeys false true
  · exact hkeys true false
  · exact hkeys true true

omit [SqliteFloat F] in
theorem recordFacts_injective {r r' : Observed StateMetadata}
    (h : (Value.dict (recordFacts r) : Value F).sortKeys = (Value.dict (recordFacts r')).sortKeys) : r = r' := by
  have hmember := lookup_of_sortKeys_eq (nodup_recordFacts r) (nodup_recordFacts r') h
  have harea : ∀ r : Observed StateMetadata, (lookup (recordFacts r : List (Text × Value F)) (txt "protected_area")) =
      r.metadata.content.protectedArea.map .str := by
    rintro ⟨path, status, visibility, ⟨objectType, size, sha, area, hash⟩, label⟩
    cases area <;> cases hash <;> rfl
  have hhash : ∀ r : Observed StateMetadata, (lookup (recordFacts r : List (Text × Value F)) (txt "hash_status")) =
      r.metadata.content.hashStatus.map .str := by
    rintro ⟨path, status, visibility, ⟨objectType, size, sha, area, hash⟩, label⟩
    cases area <;> cases hash <;> rfl
  have hlabel : ∀ r : Observed StateMetadata, (lookup (recordFacts r : List (Text × Value F)) (txt "protected")) =
      some (textOrNone r.metadata.protectedArea) := by
    rintro ⟨path, status, visibility, ⟨objectType, size, sha, area, hash⟩, label⟩
    cases area <;> cases hash <;> rfl
  have hpath : Value.str r.path = Value.str (F := F) r'.path := Option.some.inj (hmember (txt "path"))
  have hstatus : Value.str r.status = Value.str (F := F) r'.status := Option.some.inj (hmember (txt "status"))
  have hvisibility : Value.str (visibilityText r.visibility) = Value.str (F := F) (visibilityText r'.visibility) :=
    Option.some.inj (hmember (txt "visibility"))
  have htype : Value.str r.metadata.content.objectType = Value.str (F := F) r'.metadata.content.objectType :=
    Option.some.inj (hmember (txt "object_type"))
  have hsize := sizeOrNone_injective (F := F) (Option.some.inj (hmember (txt "size_bytes")))
  have hsha := textOrNone_injective (F := F) (Option.some.inj (hmember (txt "content_sha256")))
  have harea' := hmember (txt "protected_area")
  rw [harea, harea] at harea'
  have hhash' := hmember (txt "hash_status")
  rw [hhash, hhash] at hhash'
  have hlabel' := hmember (txt "protected")
  rw [hlabel, hlabel] at hlabel'
  obtain ⟨path, status, visibility, ⟨objectType, size, sha, area, hash⟩, label⟩ := r
  obtain ⟨path', status', visibility', ⟨objectType', size', sha', area', hash'⟩, label'⟩ := r'
  cases hpath
  cases hstatus
  cases visibilityText_injective (Value.str.inj hvisibility)
  cases htype
  cases hsize
  cases hsha
  cases optionStr_injective harea'
  cases optionStr_injective hhash'
  cases textOrNone_injective (F := F) (Option.some.inj hlabel')
  rfl

theorem nodup_labels : (Area.all.map Area.label).Nodup := by decide

theorem keys_labelled (roots : Area → Option Text) : (keys (labelled roots)).Sublist (Area.all.map Area.label) := by
  have hkeys : keys (labelled roots) = (Area.all.filter fun area => (roots area).isSome).map Area.label := by
    rw [keys, labelled]
    induction Area.all with
    | nil => rfl
    | cons area areas ih =>
      cases hroot : roots area with
      | none => simpa [hroot] using ih
      | some root => simpa [hroot] using ih
  rw [hkeys]
  exact List.filter_sublist.map _

theorem lookup_labelled (roots : Area → Option Text) (area : Area) :
    lookup (labelled roots) area.label = roots area := by
  have hlabel : ∀ a b : Area, a.label = b.label → a = b := by
    intro a b
    cases a <;> cases b <;> first | exact fun _ => rfl | exact fun h => absurd h (by decide)
  have hnodup := nodup_labels.sublist (keys_labelled roots)
  cases hroot : roots area with
  | some root =>
    refine lookup_of_mem hnodup (List.mem_filterMap.2 ⟨area, ?_, by rw [hroot]; rfl⟩)
    cases area <;> decide
  | none =>
    rw [lookup_eq_none_iff, keys, List.mem_map]
    rintro ⟨f, hf, hkey⟩
    obtain ⟨a, -, ha⟩ := List.mem_filterMap.1 hf
    obtain ⟨root, hroot', rfl⟩ := Option.map_eq_some_iff.1 ha
    rw [hlabel _ _ hkey, hroot] at hroot'
    cases hroot'

section

omit [SqliteFloat F]

theorem lookup_labelled_value (roots : Area → Option Text) (area : Area) :
    lookup ((labelled roots).map fun a => (a.1, Value.str (F := F) a.2)) area.label = (roots area).map .str := by
  rw [lookup_map (Value.str (F := F)), lookup_labelled]

theorem labelled_injective {roots roots' : Area → Option Text}
    (h : (Value.dict ((labelled roots).map fun a => (a.1, .str a.2)) : Value F).sortKeys =
      (Value.dict ((labelled roots').map fun a => (a.1, .str a.2))).sortKeys) : roots = roots' := by
  have hnodup : ∀ roots : Area → Option Text,
      (keys ((labelled roots).map fun a => (a.1, Value.str (F := F) a.2))).Nodup := by
    intro roots
    rw [keys, List.map_map]
    exact nodup_labels.sublist (keys_labelled roots)
  funext area
  have hlookup := lookup_of_sortKeys_eq (hnodup roots) (hnodup roots') h area.label
  rw [lookup_labelled_value, lookup_labelled_value] at hlookup
  exact optionStr_injective hlookup

theorem record_bool_injective {α : Type} {name : α → Text} {names : List α} {f g : α → Bool}
    (hall : ∀ a, a ∈ names) (hnodup : (names.map name).Nodup)
    (h : (Value.dict (record name names fun a => .bool (f a)) : Value F).sortKeys =
      (Value.dict (record name names fun a => .bool (g a))).sortKeys) : f = g := by
  have hkeys : ∀ f : α → Bool, (keys (record name names fun a => Value.bool (F := F) (f a))).Nodup := by
    intro f
    rw [keys_record]
    exact hnodup
  have hinj : ∀ a ∈ names, ∀ b ∈ names, name a = name b → a = b :=
    fun a ha b hb heq => List.inj_on_of_nodup_map hnodup ha hb heq
  funext a
  have hlookup := lookup_of_sortKeys_eq (hkeys f) (hkeys g) h (name a)
  rw [lookup_record _ hinj (hall a), lookup_record _ hinj (hall a)] at hlookup
  exact Value.bool.inj (Option.some.inj hlookup)

theorem Identity.facts_injective {i i' : Identity}
    (h : (Value.dict i.facts : Value F).sortKeys = (Value.dict i'.facts).sortKeys) : i = i' := by
  have hnodup : [txt "root_id", txt "head", txt "branch", txt "detached"].Nodup := by decide
  have hmember := @lookup_of_sortKeys_eq F i.facts i'.facts hnodup hnodup h
  have hhead := textOrNone_injective (F := F) (Option.some.inj (hmember (txt "head")))
  have hbranch : Value.str i.branch = Value.str (F := F) i'.branch := Option.some.inj (hmember (txt "branch"))
  have hdetached : Value.bool i.detached = Value.bool (F := F) i'.detached :=
    Option.some.inj (hmember (txt "detached"))
  obtain ⟨head, branch, detached⟩ := i
  obtain ⟨head', branch', detached'⟩ := i'
  cases hhead
  cases hbranch
  cases hdetached
  rfl

theorem str_injective (a b : Text) (h : (Value.str (F := F) a).sortKeys = (Value.str b).sortKeys) : a = b :=
  Value.str.inj h

theorem map_sortKeys_injective {α : Type} {value : α → Value F} {xs ys : List α}
    (hinj : ∀ a b, (value a).sortKeys = (value b).sortKeys → a = b)
    (h : (Value.list (xs.map value)).sortKeys = (Value.list (ys.map value)).sortKeys) : xs = ys := by
  rw [Value.sortKeys_list, Value.sortKeys_list, Value.list.injEq, List.map_map, List.map_map] at h
  exact List.map_injective_iff.2 (fun a b hab => hinj a b hab) h

theorem nodup_facts (s : ObservedState) : (keys (s.facts : List (Text × Value F))).Nodup :=
  (by decide : [txt "identity", txt "dirty", txt "ignored_dirty", txt "ignored_paths", txt "status_digest",
    txt "tracked_diff_digest", txt "index_diff_digest", txt "records", txt "toolchain_markers",
    txt "protected_roots", txt "sidecars", txt "known_residue"].Nodup)

/-- Observations with the same facts are the same. -/
theorem facts_injective {s s' : ObservedState}
    (h : (Value.dict s.facts : Value F).sortKeys = (Value.dict s'.facts).sortKeys) : s = s' := by
  have hmember := lookup_of_sortKeys_eq (nodup_facts s) (nodup_facts s') h
  have hidentity : (Value.dict s.identity.facts : Value F).sortKeys = (Value.dict s'.identity.facts).sortKeys :=
    Option.some.inj (hmember (txt "identity"))
  have hstatus : Value.str s.statusDigest = Value.str (F := F) s'.statusDigest :=
    Option.some.inj (hmember (txt "status_digest"))
  have htracked : Value.str s.trackedDiffDigest = Value.str (F := F) s'.trackedDiffDigest :=
    Option.some.inj (hmember (txt "tracked_diff_digest"))
  have hindex : Value.str s.indexDiffDigest = Value.str (F := F) s'.indexDiffDigest :=
    Option.some.inj (hmember (txt "index_diff_digest"))
  have hrecords : (Value.list (s.records.map fun r => .dict (recordFacts r)) : Value F).sortKeys =
      (Value.list (s'.records.map fun r => .dict (recordFacts r))).sortKeys :=
    Option.some.inj (hmember (txt "records"))
  have hmarkers : (Value.list (s.markers.map .str) : Value F).sortKeys = (Value.list (s'.markers.map .str)).sortKeys :=
    Option.some.inj (hmember (txt "toolchain_markers"))
  have hroots := Option.some.inj (hmember (txt "protected_roots"))
  have hsidecars : (Value.dict (record Sidecar.name Sidecar.all fun name => .bool (s.sidecars name)) : Value F).sortKeys =
      (Value.dict (record Sidecar.name Sidecar.all fun name => .bool (s'.sidecars name))).sortKeys :=
    Option.some.inj (hmember (txt "sidecars"))
  have hresidue : (Value.dict (record Residue.name Residue.all fun name => .bool (s.knownResidue name)) : Value F).sortKeys =
      (Value.dict (record Residue.name Residue.all fun name => .bool (s'.knownResidue name))).sortKeys :=
    Option.some.inj (hmember (txt "known_residue"))
  obtain ⟨identity, status, tracked, index, records, markers, roots, sidecars, residue, ruled⟩ := s
  obtain ⟨identity', status', tracked', index', records', markers', roots', sidecars', residue', ruled'⟩ := s'
  cases Identity.facts_injective hidentity
  cases hstatus
  cases htracked
  cases hindex
  cases map_sortKeys_injective (fun _ _ => recordFacts_injective) hrecords
  cases map_sortKeys_injective (@str_injective F) hmarkers
  cases labelled_injective hroots
  cases record_bool_injective (fun a => by cases a <;> decide) (by decide) hsidecars
  cases record_bool_injective (fun a => by cases a <;> decide) (by decide) hresidue
  rfl

theorem wf_map {α : Type} {value : α → Value F} {xs : List α} (h : ∀ a, (value a).wf = true) :
    (Value.list (xs.map value)).wf = true := by
  refine Value.wf_list.2 fun v hv => ?_
  obtain ⟨a, -, rfl⟩ := List.mem_map.1 hv
  exact h a

theorem wf_recordFacts (r : Observed StateMetadata) : (Value.dict (recordFacts r) : Value F).wf = true := by
  refine Value.wf_dict.2 ⟨nodup_recordFacts r, ?_⟩
  have htext : ∀ o : Option Text, (textOrNone o : Value F).wf = true := fun o => by cases o <;> rfl
  have hsize : ∀ o : Option Nat, (sizeOrNone o : Value F).wf = true := fun o => by cases o <;> rfl
  have hoptional : ∀ key (o : Option Text), ∀ f ∈ (optionally key o : List (Text × Value F)), f.2.wf = true := by
    intro key o f hf
    cases o with
    | none => cases hf
    | some t => rw [List.mem_singleton.1 hf]; rfl
  simp only [recordFacts, List.forall_mem_append, List.forall_mem_cons]
  exact ⟨⟨⟨⟨rfl, rfl, rfl, rfl, hsize _, htext _, by simp⟩, hoptional _ _⟩, hoptional _ _⟩, htext _, by simp⟩

theorem wf_facts (s : ObservedState) : (Value.dict s.facts : Value F).wf = true := by
  have hidentity : (Value.dict s.identity.facts : Value F).wf = true := by
    refine Value.wf_dict.2 ⟨(by decide : [txt "root_id", txt "head", txt "branch", txt "detached"].Nodup), ?_⟩
    simp only [Identity.facts, List.forall_mem_cons]
    exact ⟨rfl, by cases s.identity.head <;> rfl, rfl, rfl, by simp⟩
  have hroots : (Value.dict ((labelled s.protectedRoots).map fun a => (a.1, .str a.2)) : Value F).wf = true := by
    refine Value.wf_dict.2 ⟨?_, fun f hf => ?_⟩
    · rw [keys, List.map_map]
      exact nodup_labels.sublist (keys_labelled _)
    · obtain ⟨a, -, rfl⟩ := List.mem_map.1 hf
      rfl
  have hflags : ∀ {α : Type} (name : α → Text) (names : List α) (f : α → Bool), (names.map name).Nodup →
      (Value.dict (record name names fun a => .bool (f a)) : Value F).wf = true := by
    intro α name names f hnodup
    refine Value.wf_dict.2 ⟨by rwa [keys_record], fun p hp => ?_⟩
    obtain ⟨a, -, rfl⟩ := List.mem_map.1 hp
    rfl
  refine Value.wf_dict.2 ⟨nodup_facts s, ?_⟩
  simp only [ObservedState.facts, List.forall_mem_cons]
  exact ⟨hidentity, rfl, rfl, wf_map fun _ => rfl, rfl, rfl, rfl, wf_map wf_recordFacts, wf_map fun _ => rfl, hroots,
    hflags _ _ _ (by decide), hflags _ _ _ (by decide), by simp⟩

end

theorem digest_eq_ok {v : Value F} {d : Text} :
    digest v = .ok d ↔ v.safe = true ∧ d = Runtime.sha256 F (Text.utf8 (hashed v)) := by
  rw [digest]
  split_ifs with h <;> simp [h, eq_comm]

namespace WorkspaceState

/-- The text that the state digest is a digest of. -/
def hashedState (s : WorkspaceState F) : Text := hashed (.dict s.facts : Value F)

/-- Where SHA-256 does not collide, the state digest tells observations apart. -/
theorem eq_of_stateDigest {s s' : WorkspaceState F} (hsha : Collisionless F [s.hashedState, s'.hashedState])
    (h : s.stateDigest = s'.stateDigest) : s = s' := by
  obtain ⟨hsafe, hdigest⟩ := digest_eq_ok.1 s.digested
  obtain ⟨hsafe', hdigest'⟩ := digest_eq_ok.1 s'.digested
  have htext : s.hashedState = s'.hashedState :=
    hsha _ List.mem_cons_self _ (List.mem_cons_of_mem _ List.mem_cons_self) (hdigest.symm.trans (h.trans hdigest'))
  have hcanonical : canonicalText (.dict s.facts : Value F) = canonicalText (.dict s'.facts) :=
    (List.cons.inj (List.append_cancel_left htext)).2
  have hfacts := sortKeys_eq_of_canonicalText hsafe (wf_facts _) hsafe' (wf_facts _) hcanonical
  have hstate := facts_injective hfacts
  obtain ⟨state, digest, digested⟩ := s
  obtain ⟨state', digest', digested'⟩ := s'
  cases hstate
  cases h
  rfl

end WorkspaceState

end Digest

/-! ## The classification -/

/-- `_target_contains` -/
def targetContains (path : Text) (targets : List Text) : Bool :=
  targets = [] || targets.any fun target => under path target || under target path

inductive ChangeType where
  | added
  | removed
  | modified
  | sidecar
  deriving DecidableEq

structure Change where
  path : Text
  changeType : ChangeType
  before : Option (Observed StateMetadata)
  after : Option (Observed StateMetadata)
  deriving DecidableEq

/-- `new or old` -/
def Change.latest (c : Change) : Option (Observed StateMetadata) := c.after <|> c.before

structure ProtectedChange where
  path : Text
  area : Text
  changeType : ChangeType
  deriving DecidableEq

inductive ChangeStatus where
  | identityDrift
  | protectedChange
  | scopeDrift
  | changed
  | noNetChange
  deriving DecidableEq

structure Changes where
  status : ChangeStatus
  identityDrift : Bool
  changedPaths : List Change
  unexpectedPaths : List Change
  protectedPaths : List ProtectedChange
  ignoredArtifactChanges : List Text
  untrackedChanges : List Text
  sidecarChanges : List Sidecar
  stateDigestChanged : Bool
  beforeStateDigest : Text
  afterStateDigest : Text
  contentDigestUnavailable : Bool

/-- The change of a path. -/
def changeOf (before after : List (Observed StateMetadata)) (path : Text) : Change where
  path := path
  changeType :=
    if recordMap before path = none then .added
    else if recordMap after path = none then .removed
    else .modified
  before := recordMap before path
  after := recordMap after path

section Postflight

variable {F : Type} [SqliteFloat F]

/-- The changes that touch a protected area, then the sidecar files. -/
def protectedChanges (changed : List Change) (sidecars : List Sidecar) : List ProtectedChange :=
  (changed.filterMap fun c => (c.latest.bind fun r => r.metadata.protectedArea).map fun area =>
    ⟨c.path, area, c.changeType⟩) ++
  sidecars.map fun name => ⟨txt "data/" ++ name.name, txt "data", .sidecar⟩

/-- `_postflight_changes`, of the states of a baseline and of the present; `contentDigestUnavailable`
is the one unknown. -/
def postflightChanges (baseline state : WorkspaceState F) (targets : List Text) : Changes :=
  let identityDrift : Bool := baseline.identity ≠ state.identity
  let changed := (changedPaths baseline.records state.records).map (changeOf baseline.records state.records)
  let seen (visibility : Visibility) : List Text :=
    (changed.filter fun c => c.latest.map Observed.visibility = some visibility).map Change.path
  let unexpected := changed.filter fun c => !targetContains c.path targets
  let sidecarChanges := Sidecar.all.filter fun name => baseline.sidecars name ≠ state.sidecars name
  let protectedPaths := protectedChanges changed sidecarChanges
  let stateDigestChanged : Bool := baseline.stateDigest ≠ state.stateDigest
  { status :=
      if identityDrift then .identityDrift
      else if protectedPaths ≠ [] then .protectedChange
      else if unexpected ≠ [] then .scopeDrift
      else if changed ≠ [] ∨ stateDigestChanged then .changed
      else .noNetChange
    identityDrift := identityDrift
    changedPaths := changed
    unexpectedPaths := unexpected
    protectedPaths := protectedPaths
    ignoredArtifactChanges := sortedBy id (seen .ignored)
    untrackedChanges := sortedBy id (seen .untracked)
    sidecarChanges := sidecarChanges
    stateDigestChanged := stateDigestChanged
    beforeStateDigest := baseline.stateDigest
    afterStateDigest := state.stateDigest
    contentDigestUnavailable := state.records.any fun r => r.metadata.content.contentSha256 = none }

/-! ## What a classification should say -/

/-- The path is the parent or lies in it. -/
def Within (path parent : Text) : Prop := parent = txt "." ∨ Path.components parent <+: Path.components path

/-- The innermost protected area over a path: of areas at paths of one length the last label. -/
def Protects (roots : Area → Option Text) (label path : Text) : Prop :=
  ∃ area root, roots area = some root ∧ area.label = label ∧ Within path root ∧
    ∀ area' root', roots area' = some root' → Within path root' →
      toLex (root'.length, area'.label) ≤ toLex (root.length, label)

/-- The path has at most one record on each side. -/
def SoleRecords (before after : List (Observed StateMetadata)) (path : Text) : Prop :=
  (recordsOf before path).length ≤ 1 ∧ (recordsOf after path).length ≤ 1

/-- The report accounts for two observations under a list of targets. -/
structure Classifies (r : Changes) (before after : WorkspaceState F) (targets : List Text) : Prop where
  sorted : (r.changedPaths.map Change.path).Pairwise (· < ·)
  sound : ∀ c ∈ r.changedPaths, recordsOf before.records c.path ≠ recordsOf after.records c.path
  complete : ∀ path, SoleRecords before.records after.records path →
    recordsOf before.records path ≠ recordsOf after.records path → ∃ c ∈ r.changedPaths, c.path = path
  records : ∀ c ∈ r.changedPaths, SoleRecords before.records after.records c.path →
    c.before.toList = recordsOf before.records c.path ∧ c.after.toList = recordsOf after.records c.path
  added : ∀ c ∈ r.changedPaths, c.changeType = .added ↔ recordsOf before.records c.path = []
  removed : ∀ c ∈ r.changedPaths, c.changeType = .removed ↔ recordsOf after.records c.path = []
  modified : ∀ c ∈ r.changedPaths,
    c.changeType = .modified ↔ recordsOf before.records c.path ≠ [] ∧ recordsOf after.records c.path ≠ []
  unexpected : ∀ c, c ∈ r.unexpectedPaths ↔ c ∈ r.changedPaths ∧ targets ≠ [] ∧
    ∀ target ∈ targets, ¬ Within c.path target ∧ ¬ Within target c.path
  protectedPaths : ∀ p, p ∈ r.protectedPaths ↔
    (∃ c ∈ r.changedPaths, c.path = p.path ∧ c.changeType = p.changeType ∧
      Protects (if recordsOf after.records c.path ≠ [] then after.protectedRoots else before.protectedRoots)
        p.area p.path) ∨
    ∃ name : Sidecar, before.sidecars name ≠ after.sidecars name ∧
      p = ⟨txt "data/" ++ name.name, txt "data", .sidecar⟩
  identityDrift : r.status = .identityDrift ↔ before.identity ≠ after.identity
  protectedChange : r.status = .protectedChange ↔ before.identity = after.identity ∧ r.protectedPaths ≠ []
  scopeDrift : r.status = .scopeDrift ↔
    before.identity = after.identity ∧ r.protectedPaths = [] ∧ r.unexpectedPaths ≠ []
  changed : r.status = .changed ↔ before.identity = after.identity ∧ r.protectedPaths = [] ∧
    r.unexpectedPaths = [] ∧ (r.changedPaths ≠ [] ∨ before.stateDigest ≠ after.stateDigest)
  noNetChange : r.status = .noNetChange ↔ before = after

end Postflight

/-! ## The rules -/

theorem under_iff {path parent : Text} : under path parent = true ↔ Within path parent := by
  rw [under, Within, Path.components_prefix, Bool.or_eq_true, Bool.or_eq_true, decide_eq_true_eq, decide_eq_true_eq,
    or_assoc]
  rfl

theorem targetContains_iff {path : Text} {targets : List Text} : targetContains path targets = true ↔
    targets = [] ∨ ∃ target ∈ targets, Within path target ∨ Within target path := by
  rw [targetContains, Bool.or_eq_true, decide_eq_true_eq, List.any_eq_true]
  simp only [Bool.or_eq_true, under_iff]

theorem mem_labelled {roots : Area → Option Text} {a : Text × Text} :
    a ∈ labelled roots ↔ ∃ area, roots area = some a.2 ∧ area.label = a.1 := by
  obtain ⟨label, root⟩ := a
  rw [labelled, List.mem_filterMap]
  constructor
  · rintro ⟨area, -, h⟩
    obtain ⟨root', hroot, heq⟩ := Option.map_eq_some_iff.1 h
    cases heq
    exact ⟨area, hroot, rfl⟩
  · rintro ⟨area, hroot, rfl⟩
    refine ⟨area, ?_, by rw [hroot]; rfl⟩
    cases area <;> decide

/-- The last element in the order of a key has the greatest key. -/
theorem getLast?_sortedBy {α κ : Type} [LinearOrder κ] {key : α → κ} {xs : List α} {x : α}
    (h : (sortedBy key xs).getLast? = some x) : x ∈ xs ∧ ∀ y ∈ xs, key y ≤ key x := by
  refine ⟨mem_sortedBy.1 (List.mem_of_getLast? h), fun y hy => ?_⟩
  obtain ⟨ys, hys⟩ := List.getLast?_eq_some_iff.1 h
  have hpairwise : (sortedBy key xs).Pairwise fun a b => key a ≤ key b := sortedBy_pairwise
  have hsorted : y ∈ sortedBy key xs := mem_sortedBy.2 hy
  rw [hys, List.pairwise_append] at hpairwise
  rw [hys, List.mem_append, List.mem_singleton] at hsorted
  rcases hsorted with hy | rfl
  · exact hpairwise.2.2 y hy x (List.mem_singleton_self x)
  · exact le_rfl

theorem protectedLabel_eq_some {roots : Area → Option Text} {path label : Text} :
    protectedLabel (labelled roots) path = some label ↔ Protects roots label path := by
  have hmem : ∀ a, a ∈ (labelled roots).filter (fun a => under path a.2) ↔
      (∃ area, roots area = some a.2 ∧ area.label = a.1) ∧ Within path a.2 := by
    intro a
    rw [List.mem_filter, mem_labelled, under_iff]
  rw [protectedLabel, List.getLast?_map, Option.map_eq_some_iff]
  constructor
  · rintro ⟨⟨label', root⟩, hlast, rfl⟩
    obtain ⟨ha, hmax⟩ := getLast?_sortedBy hlast
    obtain ⟨⟨area, hroot, hlabel⟩, hwithin⟩ := (hmem _).1 ha
    refine ⟨area, root, hroot, hlabel, hwithin, fun area' root' hroot' hwithin' => ?_⟩
    exact hmax (area'.label, root') ((hmem _).2 ⟨⟨area', hroot', rfl⟩, hwithin'⟩)
  · rintro ⟨area, root, hroot, rfl, hwithin, hmax⟩
    have ha := (hmem (area.label, root)).2 ⟨⟨area, hroot, rfl⟩, hwithin⟩
    obtain ⟨b, hlast⟩ : ∃ b, (sortedBy (fun a => toLex (a.2.length, a.1))
        ((labelled roots).filter fun a => under path a.2)).getLast? = some b := by
      refine Option.isSome_iff_exists.1 (List.getLast?_isSome.2 fun hnil => ?_)
      rw [sortedBy_eq_nil] at hnil
      rw [hnil] at ha
      cases ha
    obtain ⟨hb, hmaxb⟩ := getLast?_sortedBy hlast
    obtain ⟨⟨area', hroot', hlabel'⟩, hwithin'⟩ := (hmem b).1 hb
    have hle := hmax area' b.2 hroot' hwithin'
    rw [hlabel'] at hle
    have heq := le_antisymm hle (hmaxb _ ha)
    exact ⟨b, hlast, congrArg (fun k => (ofLex k).2) heq⟩

/-! ## The records of a change -/

section

variable {records : List (Observed StateMetadata)} {path : Text}

theorem recordMap_eq_none : recordMap records path = none ↔ recordsOf records path = [] := by
  rw [recordMap_eq, List.getLast?_eq_none_iff]

theorem mem_of_recordMap {r : Observed StateMetadata} (h : recordMap records path = some r) :
    r ∈ records ∧ r.path = path := by
  rw [recordMap_eq] at h
  have hr := List.mem_of_getLast? h
  rw [recordsOf, List.mem_filter, decide_eq_true_eq] at hr
  exact hr

theorem recordMap_toList (h : (recordsOf records path).length ≤ 1) :
    (recordMap records path).toList = recordsOf records path := by
  rw [recordMap_eq]
  match hrecords : recordsOf records path with
  | [] => rfl
  | [r] => rfl
  | r :: r' :: rs => rw [hrecords] at h; simp at h

end

section

variable {F : Type} [SqliteFloat F] {before after : WorkspaceState F} {targets : List Text} {c : Change}

theorem mem_changed : c ∈ (postflightChanges before after targets).changedPaths ↔
    recordMap before.records c.path ≠ recordMap after.records c.path ∧
      c = changeOf before.records after.records c.path := by
  show c ∈ (changedPaths before.records after.records).map (changeOf before.records after.records) ↔ _
  rw [List.mem_map]
  constructor
  · rintro ⟨path, hpath, rfl⟩
    exact ⟨mem_changedPaths.1 hpath, rfl⟩
  · rintro ⟨hne, hc⟩
    exact ⟨c.path, mem_changedPaths.2 hne, hc.symm⟩

theorem changed_sorted : ((postflightChanges before after targets).changedPaths.map Change.path).Pairwise (· < ·) := by
  have hpaths : (postflightChanges before after targets).changedPaths.map Change.path =
      changedPaths before.records after.records := by
    show ((changedPaths _ _).map (changeOf _ _)).map Change.path = _
    rw [List.map_map]
    exact List.map_id _
  rw [hpaths]
  exact List.Pairwise.filter _ pairwise_sortedSet

theorem changed_unexpected : c ∈ (postflightChanges before after targets).unexpectedPaths ↔
    c ∈ (postflightChanges before after targets).changedPaths ∧ targets ≠ [] ∧
      ∀ target ∈ targets, ¬ Within c.path target ∧ ¬ Within target c.path := by
  have htargets : targetContains c.path targets = false ↔
      targets ≠ [] ∧ ∀ target ∈ targets, ¬ Within c.path target ∧ ¬ Within target c.path := by
    rw [← Bool.not_eq_true, targetContains_iff]
    push Not
    rfl
  rw [← htargets]
  show c ∈ (postflightChanges before after targets).changedPaths.filter _ ↔ _
  rw [List.mem_filter, Bool.not_eq_true']

/-- The record that a change leaves is one of the state whose protected roots it falls under. -/
theorem latest_protected {path : Text}
    (hne : recordMap before.records path ≠ recordMap after.records path) {label : Text} :
    ((changeOf before.records after.records path).latest.bind fun r => r.metadata.protectedArea) = some label ↔
      Protects (if recordsOf after.records path ≠ [] then after.protectedRoots else before.protectedRoots) label path := by
  rw [← protectedLabel_eq_some]
  unfold Change.latest changeOf
  dsimp only
  cases hafter : recordMap after.records path with
  | some r =>
    obtain ⟨hr, hpath⟩ := mem_of_recordMap hafter
    have hsome : recordsOf after.records path ≠ [] := mt recordMap_eq_none.2 (by simp [hafter])
    rw [if_pos hsome, ← hpath, ← after.ruled r hr]
    rfl
  | none =>
    cases hbefore : recordMap before.records path with
    | none => exact absurd (hbefore.trans hafter.symm) hne
    | some r =>
      obtain ⟨hr, hpath⟩ := mem_of_recordMap hbefore
      rw [if_neg (not_not.2 (recordMap_eq_none.1 hafter)), ← hpath, ← before.ruled r hr]
      rfl

theorem changed_protected {p : ProtectedChange} : p ∈ (postflightChanges before after targets).protectedPaths ↔
    (∃ c ∈ (postflightChanges before after targets).changedPaths, c.path = p.path ∧ c.changeType = p.changeType ∧
      Protects (if recordsOf after.records c.path ≠ [] then after.protectedRoots else before.protectedRoots)
        p.area p.path) ∨
    ∃ name : Sidecar, before.sidecars name ≠ after.sidecars name ∧
      p = ⟨txt "data/" ++ name.name, txt "data", .sidecar⟩ := by
  show p ∈ protectedChanges (postflightChanges before after targets).changedPaths
    (Sidecar.all.filter fun name => before.sidecars name ≠ after.sidecars name) ↔ _
  rw [protectedChanges, List.mem_append, List.mem_filterMap, List.mem_map]
  refine or_congr (exists_congr fun c => and_congr_right fun hc => ?_) ⟨?_, ?_⟩
  · obtain ⟨hne, hchange⟩ := mem_changed.1 hc
    rw [Option.map_eq_some_iff]
    constructor
    · rintro ⟨area, harea, rfl⟩
      rw [hchange] at harea
      exact ⟨rfl, rfl, (latest_protected hne).1 harea⟩
    · rintro ⟨hpath, htype, hprotects⟩
      rw [← hpath] at hprotects
      refine ⟨p.area, ?_, by rw [hpath, htype]⟩
      rw [hchange]
      exact (latest_protected hne).2 hprotects
  · rintro ⟨name, hname, rfl⟩
    rw [List.mem_filter, decide_eq_true_eq] at hname
    exact ⟨name, hname.2, rfl⟩
  · rintro ⟨name, hname, rfl⟩
    refine ⟨name, List.mem_filter.2 ⟨?_, decide_eq_true hname⟩, rfl⟩
    cases name <;> decide

/-! ## The status -/

/-- One observation twice is no change. -/
theorem unchanged_self : (postflightChanges before before targets).changedPaths = [] ∧
    (postflightChanges before before targets).protectedPaths = [] := by
  have hchanged : (postflightChanges before before targets).changedPaths = [] := by
    rw [List.eq_nil_iff_forall_not_mem]
    exact fun c hc => (mem_changed.1 hc).1 rfl
  refine ⟨hchanged, List.eq_nil_iff_forall_not_mem.2 fun p hp => ?_⟩
  rcases changed_protected.1 hp with ⟨c, hc, -⟩ | ⟨name, hname, -⟩
  · rw [hchanged] at hc
    cases hc
  · exact hname rfl

theorem status_eq : (postflightChanges before after targets).status =
    if before.identity ≠ after.identity then .identityDrift
    else if (postflightChanges before after targets).protectedPaths ≠ [] then .protectedChange
    else if (postflightChanges before after targets).unexpectedPaths ≠ [] then .scopeDrift
    else if (postflightChanges before after targets).changedPaths ≠ [] ∨ before.stateDigest ≠ after.stateDigest then
      .changed
    else .noNetChange := by
  simp only [postflightChanges, decide_eq_true_eq]

/-- What the later tests of the status presuppose. -/
theorem status_precedence {r : Changes} (hr : r.status =
      if before.identity ≠ after.identity then .identityDrift
      else if r.protectedPaths ≠ [] then .protectedChange
      else if r.unexpectedPaths ≠ [] then .scopeDrift
      else if r.changedPaths ≠ [] ∨ before.stateDigest ≠ after.stateDigest then .changed
      else .noNetChange) :
    (r.status = .identityDrift ↔ before.identity ≠ after.identity) ∧
    (r.status = .protectedChange ↔ before.identity = after.identity ∧ r.protectedPaths ≠ []) ∧
    (r.status = .scopeDrift ↔
      before.identity = after.identity ∧ r.protectedPaths = [] ∧ r.unexpectedPaths ≠ []) ∧
    (r.status = .changed ↔ before.identity = after.identity ∧ r.protectedPaths = [] ∧
      r.unexpectedPaths = [] ∧ (r.changedPaths ≠ [] ∨ before.stateDigest ≠ after.stateDigest)) := by
  by_cases hidentity : before.identity = after.identity
  · by_cases hprotected : r.protectedPaths = []
    · by_cases hunexpected : r.unexpectedPaths = []
      · by_cases hchanged : r.changedPaths ≠ [] ∨ before.stateDigest ≠ after.stateDigest
        · simp [hr, hidentity, hprotected, hunexpected, hchanged]
        · simp [hr, hidentity, hprotected, hunexpected, hchanged]
      · simp [hr, hidentity, hprotected, hunexpected]
    · simp [hr, hidentity, hprotected]
  · simp [hr, hidentity]

theorem status_noNetChange (hsha : Collisionless F [before.hashedState, after.hashedState]) :
    (postflightChanges before after targets).status = .noNetChange ↔ before = after := by
  rw [status_eq]
  constructor
  · intro h
    split_ifs at h with hidentity hprotected hunexpected hchanged
    rw [not_or, not_not, not_not] at hchanged
    exact WorkspaceState.eq_of_stateDigest hsha hchanged.2
  · rintro rfl
    obtain ⟨hchanged, hprotected⟩ : (postflightChanges before before targets).changedPaths = [] ∧
        (postflightChanges before before targets).protectedPaths = [] := unchanged_self
    have hunexpected : (postflightChanges before before targets).unexpectedPaths = [] := by
      rw [List.eq_nil_iff_forall_not_mem]
      intro c hc
      rw [changed_unexpected, hchanged] at hc
      cases hc.1
    rw [hchanged, hprotected, hunexpected]
    simp

/-- The type of a change says which sides record its path. -/
theorem changeType_iff {path : Text} (hne : recordMap before.records path ≠ recordMap after.records path) :
    ((changeOf before.records after.records path).changeType = .added ↔ recordsOf before.records path = []) ∧
    ((changeOf before.records after.records path).changeType = .removed ↔ recordsOf after.records path = []) ∧
    ((changeOf before.records after.records path).changeType = .modified ↔
      recordsOf before.records path ≠ [] ∧ recordsOf after.records path ≠ []) := by
  simp only [← recordMap_eq_none, Ne, changeOf]
  cases hbefore : recordMap before.records path with
  | none =>
    have hafter : recordMap after.records path ≠ none := fun h => hne (hbefore.trans h.symm)
    simp [hafter]
  | some r => cases hafter : recordMap after.records path <;> simp

theorem exists_change {path : Text} (hsole : SoleRecords before.records after.records path)
    (hne : recordsOf before.records path ≠ recordsOf after.records path) :
    ∃ c ∈ (postflightChanges before after targets).changedPaths, c.path = path := by
  refine ⟨changeOf before.records after.records path, mem_changed.2 ⟨fun h => hne ?_, rfl⟩, rfl⟩
  rw [← recordMap_toList hsole.1, ← recordMap_toList hsole.2]
  exact congrArg Option.toList h

/-- The classification accounts for the observations it compares. -/
theorem postflight_classifies (before after : WorkspaceState F) (targets : List Text)
    (hsha : Collisionless F [before.hashedState, after.hashedState]) :
    Classifies (postflightChanges before after targets) before after targets := by
  have hchange : ∀ c ∈ (postflightChanges before after targets).changedPaths,
      recordMap before.records c.path ≠ recordMap after.records c.path ∧
        c = changeOf before.records after.records c.path := fun c hc => mem_changed.1 hc
  have htype := fun c hc => changeType_iff (hchange c hc).1
  refine {
    sorted := changed_sorted
    sound := fun c hc => recordsOf_ne (hchange c hc).1
    complete := fun path => exists_change
    records := fun c hc hsole => ?_
    added := fun c hc => (hchange c hc).2 ▸ (htype c hc).1
    removed := fun c hc => (hchange c hc).2 ▸ (htype c hc).2.1
    modified := fun c hc => (hchange c hc).2 ▸ (htype c hc).2.2
    unexpected := fun c => changed_unexpected
    protectedPaths := fun p => changed_protected
    identityDrift := (status_precedence status_eq).1
    protectedChange := (status_precedence status_eq).2.1
    scopeDrift := (status_precedence status_eq).2.2.1
    changed := (status_precedence status_eq).2.2.2
    noNetChange := status_noNetChange hsha }
  rw [(hchange c hc).2]
  exact ⟨recordMap_toList hsole.1, recordMap_toList hsole.2⟩

end

/-! ## A new file -/

/-- A project whose git reports no status. -/
def quiet : ObservedState where
  identity := ⟨some (txt "c0ffee"), txt "main", false⟩
  statusDigest := txt "e3b0"
  trackedDiffDigest := txt "e3b0"
  indexDiffDigest := txt "e3b0"
  records := []
  markers := []
  protectedRoots := fun _ => none
  sidecars := fun _ => false
  knownResidue := fun _ => false
  ruled := by simp

/-- The project with one untracked file. -/
def withFile : ObservedState :=
  { quiet with
    statusDigest := txt "5feceb"
    records := [⟨txt "a", txt "??", .untracked,
      ⟨{ objectType := txt "regular_file", sizeBytes := some 0, contentSha256 := some (txt "e3b0"),
         hashStatus := some (txt "OBSERVED") }, none⟩⟩]
    ruled := by decide }

/-- The state of an observation whose digest can be taken. -/
def ObservedState.state (s : ObservedState) (h : (Value.dict s.facts : Value Integral).safe = true) :
    WorkspaceState Integral :=
  ⟨s, _, digest_eq_ok.2 ⟨h, rfl⟩⟩

def quietState : WorkspaceState Integral := quiet.state (by decide)

def withFileState : WorkspaceState Integral := withFile.state (by decide)

theorem newFile_classified :
    Classifies (postflightChanges quietState withFileState [txt "b"]) quietState withFileState [txt "b"] := by
  refine postflight_classifies quietState withFileState _ ?_
  have hne : Sha256.hexdigest (Text.utf8 quietState.hashedState) ≠
      Sha256.hexdigest (Text.utf8 withFileState.hashedState) := by
    rw [Sha256.hexdigest_eq_direct, Sha256.hexdigest_eq_direct]
    decide +kernel
  simp only [Collisionless, List.forall_mem_cons, List.not_mem_nil, false_imp_iff, implies_true, and_true]
  exact ⟨⟨trivial, fun h => absurd h hne⟩, fun h => absurd h.symm hne⟩

/-- Where no target is declared the new file lies outside of all targets and is expected. -/
theorem newFile_expected_without_targets :
    ¬ ∀ c, c ∈ (postflightChanges quietState withFileState []).unexpectedPaths ↔
      c ∈ (postflightChanges quietState withFileState []).changedPaths ∧
        ∀ target ∈ ([] : List Text), ¬ Within c.path target ∧ ¬ Within target c.path := by
  intro h
  have hnone : (postflightChanges quietState withFileState []).unexpectedPaths = [] := by decide
  have hchanged := (h (changeOf [] withFile.records (txt "a"))).2 ⟨by decide, by simp⟩
  rw [hnone] at hchanged
  cases hchanged

end Steward.Workspace.Execution
