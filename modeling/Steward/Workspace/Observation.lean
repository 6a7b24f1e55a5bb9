import Steward.Py.Sha256
import Steward.Workspace.Status

/-!
# Observing a workspace

The two observers of a Git workspace: the lifecycle hooks and the code
execution grounding. Each decodes the status with its own byte decoding, path
check and bound, records metadata for every path it decoded, and compares two
observations path by path.
-/

namespace Steward.Workspace

open Py

/-! ## Records and their comparison -/

inductive Visibility where
  | tracked
  | untracked
  | ignored
  deriving DecidableEq, Repr

/-- One record of an observation. -/
structure Observed (M : Type) where
  path : Text
  status : Text
  visibility : Visibility
  metadata : M
  deriving DecidableEq

section Compare

variable {M : Type}

/-- The records of a decoded status, sorted by path and status. -/
def observe (visibility : Text → Visibility) (metadata : Text → M) (records : List (Text × Text)) :
    List (Observed M) :=
  sortedBy (fun r => toLex (r.path, r.status))
    (records.map fun r => ⟨r.2, r.1, visibility r.1, metadata r.2⟩)

/-- `_record_map(records).get(path)`: of two records with one path the later stays. -/
def recordMap (records : List (Observed M)) (path : Text) : Option (Observed M) :=
  records.reverse.find? fun r => r.path = path

/-- The paths whose record was added, removed or differs. -/
def changedPaths [DecidableEq M] (before after : List (Observed M)) : List Text :=
  (sortedSet (before.map Observed.path ++ after.map Observed.path)).filter fun path =>
    recordMap before path ≠ recordMap after path

theorem mem_observe {visibility : Text → Visibility} {metadata : Text → M}
    {records : List (Text × Text)} {o : Observed M} :
    o ∈ observe visibility metadata records ↔
      ∃ r ∈ records, o = ⟨r.2, r.1, visibility r.1, metadata r.2⟩ := by
  rw [observe, sortedBy_perm.mem_iff, List.mem_map]
  exact exists_congr fun _ => and_congr_right fun _ => eq_comm

/-- Every record of a path carries the metadata of that path. -/
theorem recordMap_observe {visibility : Text → Visibility} {metadata : Text → M}
    {records : List (Text × Text)} {r : Text × Text} (hr : r ∈ records) :
    ∃ o, recordMap (observe visibility metadata records) r.2 = some o ∧ o.metadata = metadata r.2 := by
  have hmem : (⟨r.2, r.1, visibility r.1, metadata r.2⟩ : Observed M) ∈
      (observe visibility metadata records).reverse :=
    List.mem_reverse.2 (mem_observe.2 ⟨r, hr, rfl⟩)
  obtain ⟨o, ho⟩ : ∃ o, recordMap (observe visibility metadata records) r.2 = some o :=
    Option.isSome_iff_exists.1 (List.find?_isSome.2 ⟨_, hmem, by simp⟩)
  obtain ⟨r', -, rfl⟩ := mem_observe.1 (List.mem_reverse.1 (List.mem_of_find?_eq_some ho))
  have hpath : r'.2 = r.2 := by simpa using List.find?_some ho
  exact ⟨_, ho, by rw [hpath]⟩

/-- A path that both observations record is reported when its metadata differ. -/
theorem mem_changedPaths_of_ne [DecidableEq M] {visibility : Text → Visibility}
    {before after : Text → M} {records records' : List (Text × Text)} {r r' : Text × Text}
    (hr : r ∈ records) (hr' : r' ∈ records') (hpath : r'.2 = r.2) (hne : before r.2 ≠ after r.2) :
    r.2 ∈ changedPaths (observe visibility before records) (observe visibility after records') := by
  obtain ⟨o, ho, hmeta⟩ := @recordMap_observe _ visibility before _ _ hr
  obtain ⟨o', ho', hmeta'⟩ := @recordMap_observe _ visibility after _ _ hr'
  rw [hpath] at ho' hmeta'
  refine List.mem_filter.2 ⟨?_, ?_⟩
  · rw [sortedSet, (List.perm_insertionSort _ _).mem_iff, List.mem_dedup, List.mem_append]
    exact .inl (List.mem_map.2 ⟨_, mem_observe.2 ⟨r, hr, rfl⟩, rfl⟩)
  · rw [ho, ho', decide_eq_true_eq, Ne, Option.some.injEq]
    rintro rfl
    exact hne (hmeta ▸ hmeta')

/-- The records of a path. -/
def recordsOf (records : List (Observed M)) (path : Text) : List (Observed M) :=
  records.filter fun r => r.path = path

section

variable {records before after : List (Observed M)} {path : Text}

theorem recordMap_eq : recordMap records path = (recordsOf records path).getLast? := by
  rw [recordMap, recordsOf, ← List.head?_filter, List.filter_reverse, List.head?_reverse]

theorem recordsOf_eq_nil : recordsOf records path = [] ↔ path ∉ records.map Observed.path := by
  rw [recordsOf, List.filter_eq_nil_iff, List.mem_map]
  simp

theorem recordsOf_ne (h : recordMap before path ≠ recordMap after path) :
    recordsOf before path ≠ recordsOf after path := by
  intro heq
  rw [recordMap_eq, recordMap_eq, heq] at h
  exact h rfl

/-- A path whose records differ is the path of a record. -/
theorem mem_paths_of_ne (h : recordsOf before path ≠ recordsOf after path) :
    path ∈ (before ++ after).map Observed.path := by
  rw [List.map_append, List.mem_append]
  by_contra hnot
  obtain ⟨hbefore, hafter⟩ := not_or.1 hnot
  exact h ((recordsOf_eq_nil.2 hbefore).trans (recordsOf_eq_nil.2 hafter).symm)

theorem mem_changedPaths [DecidableEq M] :
    path ∈ changedPaths before after ↔ recordMap before path ≠ recordMap after path := by
  rw [changedPaths, List.mem_filter, decide_eq_true_eq, mem_sortedSet, ← List.map_append]
  exact and_iff_right_of_imp fun h => mem_paths_of_ne (recordsOf_ne h)

end

end Compare

/-- What lies at a path of the worktree; `none` is content that cannot be read. -/
inductive Node where
  | missing
  | link (sizeBytes mtimeNs : Nat)
  | special (sizeBytes mtimeNs : Nat)
  | file (sizeBytes mtimeNs : Nat) (content : Option (List Byte))
  deriving DecidableEq, Repr

/-! ## The lifecycle hooks -/

namespace Hooks

/-- `_ObservationUnavailable`, which has no message. -/
inductive Unavailable where
  | observationUnavailable
  deriving DecidableEq, Repr

def maxPathChars : Nat := 1024

def maxStatusRecords : Nat := 512

def maxHashFileBytes : Nat := 2 * 1024 * 1024

/-- `_safe_relative_path` -/
def safeRelativePath (value : Text) : Except Unavailable Text :=
  if value = [] ∨ value.length > maxPathChars ∨ 0 ∈ value then .error .observationUnavailable
  else
    let normalized := PurePath.asPosix value
    let parts := PurePath.parts normalized
    if normalized.startsWith (txt "/") ∨ parts = [] ∨
        ∃ part ∈ parts, part ∈ [[], txt ".", txt ".."] then .error .observationUnavailable
    else .ok normalized

theorem safeRelativePath_eq {value path : Text} (h : safeRelativePath value = .ok path) :
    path = PurePath.asPosix value := by
  unfold safeRelativePath at h
  simp only at h
  split_ifs at h
  exact (Except.ok.inj h).symm

/-- The decoder of `_status_records`. -/
def statusDecoder : StatusDecoder Unavailable where
  decode := Utf8.decodeReplace
  safe := safeRelativePath
  malformed := .observationUnavailable
  incomplete := .observationUnavailable
  exceeded := .observationUnavailable
  maxRecords := maxStatusRecords
  decode_nil := rfl
  decode_ascii := Utf8.decodeReplace_append_ascii
  decode_nul := Utf8.nul_notMem_decodeReplace
  decode_ne_nil := Utf8.decodeReplace_ne_nil
  safe_eq := safeRelativePath_eq

/-- `_status_records` -/
def statusRecords (raw : List Byte) : Except Unavailable (List (Text × Text)) :=
  statusDecoder.parse raw

structure FileMetadata where
  objectType : Text
  sizeBytes : Option Nat := none
  mtimeNs : Option Nat := none
  contentSha256 : Option Text := none
  contentDigestStatus : Option Text := none
  deriving DecidableEq, Repr

/-- `_file_metadata` -/
def fileMetadata : Node → FileMetadata
  | .missing => { objectType := txt "missing" }
  | .link size mtime =>
    { objectType := txt "symlink", sizeBytes := some size, mtimeNs := some mtime }
  | .special size mtime =>
    { objectType := txt "non_regular", sizeBytes := some size, mtimeNs := some mtime }
  | .file size mtime content =>
    let result : FileMetadata :=
      { objectType := txt "regular_file", sizeBytes := some size, mtimeNs := some mtime }
    if size > maxHashFileBytes then
      { result with contentDigestStatus := some (txt "OMITTED_SIZE_LIMIT") }
    else match content with
      | none => { result with contentDigestStatus := some (txt "UNAVAILABLE") }
      | some payload =>
        if payload.length > maxHashFileBytes then
          { result with contentDigestStatus := some (txt "OMITTED_SIZE_LIMIT") }
        else
          { result with
            contentSha256 := some (Sha256.hexdigest payload)
            contentDigestStatus := some (txt "OBSERVED") }

def visibility (status : Text) : Visibility := if status = txt "??" then .untracked else .tracked

/-- The records of `_observe_workspace`. -/
def observeWorkspace (worktree : Text → Node) (raw : List Byte) :
    Except Unavailable (List (Observed FileMetadata)) := do
  let records ← statusRecords raw
  pure (observe visibility (fun path => fileMetadata (worktree path)) records)

end Hooks

/-! ## The code execution grounding -/

namespace Execution

inductive ErrorClass where
  | codeExecutionError
  | codeExecutionRepositoryError
  | codeExecutionResourceError
  deriving DecidableEq, Repr

structure Error where
  cls : ErrorClass
  message : Text
  deriving DecidableEq, Repr

def maxTargetPathChars : Nat := 256

def maxStatusRecords : Nat := 256

def maxFileHashBytes : Nat := 4 * 1024 * 1024

/-- `_safe_relative` -/
def safeRelative (raw : Text) : Except Error Text :=
  if raw = [] ∨ raw.length > maxTargetPathChars then
    .error ⟨.codeExecutionError, txt "relative code target is invalid"⟩
  else if 0 ∈ raw ∨ raw.startsWith (txt "/") ∨ ch '\\' ∈ raw then
    .error ⟨.codeExecutionError, txt "code targets must be relative POSIX paths"⟩
  else
    let parts := PurePath.parts raw
    if (∃ part ∈ parts, part ∈ [[], txt ".", txt ".."]) ∧
        raw ≠ txt "." ∧ ¬ (parts ≠ [] ∧ ∀ part ∈ parts, part ≠ txt "..") then
      .error ⟨.codeExecutionError, txt "code target traversal is not allowed"⟩
    else
      let normalized := PurePath.asPosix raw
      if normalized = [] ∨ normalized = txt "." then .ok (txt ".")
      else if normalized.startsWith (txt "../") ∨ normalized = txt ".." then
        .error ⟨.codeExecutionError, txt "code target traversal is not allowed"⟩
      else .ok normalized

theorem safeRelative_eq {value path : Text} (h : safeRelative value = .ok path) :
    path = PurePath.asPosix value := by
  unfold safeRelative at h
  simp only at h
  split_ifs at h with h1 h2 h3 hdot
  · rw [hdot.resolve_left (PurePath.asPosix_ne_nil _), Except.ok.inj h]
  · exact (Except.ok.inj h).symm

/-- The decoder of `_parse_status`. -/
def statusDecoder : StatusDecoder Error where
  decode := Utf8.decodeEscape
  safe := safeRelative
  malformed := ⟨.codeExecutionRepositoryError, txt "Git status record is malformed"⟩
  incomplete := ⟨.codeExecutionRepositoryError, txt "Git rename record is incomplete"⟩
  exceeded :=
    ⟨.codeExecutionResourceError, txt "Git status exceeds the bounded record budget"⟩
  maxRecords := maxStatusRecords
  decode_nil := rfl
  decode_ascii := Utf8.decodeEscape_append_ascii
  decode_nul := Utf8.nul_notMem_decodeEscape
  decode_ne_nil := Utf8.decodeEscape_ne_nil
  safe_eq := safeRelative_eq

/-- `_parse_status` -/
def parseStatus (raw : List Byte) : Except Error (List (Text × Text)) := statusDecoder.parse raw

/-- `_under` -/
def under (path parent : Text) : Bool :=
  parent = txt "." || path = parent || path.startsWith (parent ++ txt "/")

/-- `_protected_label`, for the protected areas as pairs of a label and its path:
of the areas that contain the path, the one with the longest path. -/
def protectedLabel (areas : List (Text × Text)) (path : Text) : Option Text :=
  ((sortedBy (fun a => toLex (a.2.length, a.1)) (areas.filter fun a => under path a.2)).map
    Prod.fst).getLast?

structure ContentObservation where
  objectType : Text
  sizeBytes : Option Nat
  contentSha256 : Option Text := none
  protectedArea : Option Text := none
  hashStatus : Option Text := none
  deriving DecidableEq, Repr

/-- `_content_observation`; `label` is the protected area of the path. -/
def contentObservation (label : Option Text) (node : Node) : ContentObservation :=
  match node, label with
  | .missing, _ => { objectType := txt "missing", sizeBytes := none }
  | .link size _, some area | .special size _, some area | .file size _ _, some area =>
    { objectType := txt "protected", sizeBytes := some size, protectedArea := some area }
  | .link size _, none => { objectType := txt "symlink", sizeBytes := some size }
  | .special size _, none => { objectType := txt "non_regular", sizeBytes := some size }
  | .file size _ content, none =>
    let result : ContentObservation := { objectType := txt "regular_file", sizeBytes := some size }
    if size > maxFileHashBytes then { result with hashStatus := some (txt "SIZE_LIMIT") }
    else match content with
      | none => { result with hashStatus := some (txt "UNAVAILABLE") }
      | some bytes =>
        { result with
          contentSha256 := some (Sha256.hexdigest bytes), hashStatus := some (txt "OBSERVED") }

/-- `_visibility` -/
def visibility (status : Text) : Visibility :=
  if status = txt "!!" then .ignored else if status = txt "??" then .untracked else .tracked

/-- What a record of `_observe_state` holds beside path, status and visibility. -/
structure StateMetadata where
  content : ContentObservation
  protectedArea : Option Text
  deriving DecidableEq, Repr

def stateMetadata (areas : List (Text × Text)) (worktree : Text → Node) (path : Text) :
    StateMetadata :=
  ⟨contentObservation (protectedLabel areas path) (worktree path), protectedLabel areas path⟩

/-- The records of `_observe_state`. -/
def observeState (areas : List (Text × Text)) (worktree : Text → Node) (raw : List Byte) :
    Except Error (List (Observed StateMetadata)) := do
  let records ← parseStatus raw
  pure (observe visibility (stateMetadata areas worktree) records)

end Execution

end Steward.Workspace
