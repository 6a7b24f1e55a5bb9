import Steward.Session.ScopedPath
import Steward.Snapshot.PayloadReader

/-!
# Scanning

`filesystem.py` and `scan_budget.py`: the walk over the selected scopes, with its
budgets. The file system does not change while it is scanned; the clock is the
sequence of answers to `time.monotonic() - started >= budget.max_duration_seconds`.
-/

namespace Steward.Scan

open Py Session

/-! ## Objects -/

/-- `os.stat_result` -/
structure StatResult where
  mode : Nat
  device : Int
  inode : Int
  uid : Int
  gid : Int
  size : Nat
  mtimeNs : Int
  ctimeNs : Int
  birthtimeNs : Option Int
  linkCount : Int
  deriving DecidableEq

/-- An `OSError`, with its text. -/
structure StatFault extends OsError where
  message : Text
  deriving DecidableEq

/-- `stat.S_IFMT` -/
def formatOf (mode : Nat) : Nat := mode &&& 0o170000

/-- `_kind` -/
def kindOf (mode : Nat) : FilesystemObjectType :=
  if formatOf mode = 0o100000 then .regularFile
  else if formatOf mode = 0o040000 then .directory
  else if formatOf mode = 0o120000 then .symlink
  else if formatOf mode = 0o010000 then .fifo
  else if formatOf mode = 0o140000 then .socket
  else if formatOf mode = 0o020000 then .characterDevice
  else if formatOf mode = 0o060000 then .blockDevice
  else .unknown

/-- `os.access` with `R_OK`, `W_OK` and `X_OK`. -/
structure Access where
  readable : Bool
  writable : Bool
  executable : Bool
  deriving DecidableEq

/-- A name in a directory: what `os.scandir` lists, decoded. -/
def IsName (name : Text) : Prop := name ≠ [] ∧ ch '/' ∉ name ∧ name ≠ txt "."

/-- The file system. -/
structure Tree where
  /-- `Path.is_dir`, which follows links. -/
  isDir : HostPath → Bool
  lstat : HostPath → Except StatFault StatResult
  /-- The names `os.scandir` lists; `none` when it raises. -/
  scandir : HostPath → Option (List Text)
  /-- `none` when `os.readlink` raises. -/
  readlink : HostPath → Option Text
  access : HostPath → Access
  names_nodup : ∀ path names, scandir path = some names → names.Nodup
  names_isName : ∀ path names, scandir path = some names → ∀ name ∈ names, IsName name

/-! ## Configuration -/

structure StewardPaths where
  dataDir : HostPath
  cacheDir : HostPath
  evidenceDir : HostPath
  quarantineDir : HostPath

structure StewardConfig where
  scopes : List ScopeConfig
  paths : StewardPaths

/-- `(*excluded, *internal)` -/
def StewardConfig.blocked (config : StewardConfig) : List HostPath :=
  (config.scopes.filter fun scope => scope.role = .excludedRoot).map ScopeConfig.normalizedPath ++
    [config.paths.dataDir, config.paths.cacheDir, config.paths.evidenceDir, config.paths.quarantineDir]

/-- `by_id.get(scope_id)`; the last scope of an id counts. -/
def StewardConfig.byId (config : StewardConfig) (scopeId : Text) : Option ScopeConfig :=
  config.scopes.reverse.find? fun scope => scope.scopeId = scopeId

/-- `selected` -/
def StewardConfig.selected (config : StewardConfig) (requested : List Text) : List ScopeConfig :=
  if requested = [] then config.scopes.filter fun scope => scope.enabled && scope.role = .managedRoot
  else requested.filterMap config.byId

/-- `select_scopes` -/
def selectScopes (config : StewardConfig) (requested : List Text) : Result (List ScopeConfig) :=
  let selected := config.selected requested
  if requested.any fun scopeId => (config.byId scopeId).isNone then .error (.steward .snapshotScopeError)
  else if selected = [] then .error (.steward .snapshotScopeError)
  else if selected.any fun scope => scope.role = .excludedRoot || !scope.enabled || scope.followDirectorySymlinks then
    .error (.steward .snapshotScopeError)
  else .ok (sortedBy ScopeConfig.scopeId selected)

/-- A `ScanBudget` that `make_budget` returns; the duration is the clock's. -/
structure ScanBudget where
  maxEntries : Int
  maxTotalStatBytes : Option Int
  maxDepth : Option Int
  entries_pos : 1 ≤ maxEntries
  bytes_nonneg : ∀ n ∈ maxTotalStatBytes, 0 ≤ n
  depth_nonneg : ∀ n ∈ maxDepth, 0 ≤ n

/-! ## Entries -/

/-- What the walk saw of an object: its names below the root, its `lstat`. -/
structure Sighting where
  scope : ScopeConfig
  below : List Text
  info : Except (FilesystemObservationStatus × StatFault) StatResult
  excluded : Bool

/-- `_relative` -/
def relativeText (below : List Text) : Text := if below = [] then txt "." else [ch '/'].intercalate below

/-- `FilesystemEntry` -/
structure ScannedEntry where
  entryId : Text
  entry : FilesystemEntry
  deriving DecidableEq

/-- `_entry` -/
def entryOf (tree : Tree) (snapshotId : Text) (s : Sighting) : Result ScannedEntry :=
  match (entryIdText snapshotId s.scope.scopeId (relativeText s.below)).encode with
  | none => .error (.python .unicodeEncodeError)
  | some bytes => .ok ⟨Sha256.hexdigest bytes, match s.info with
    | .error (status, fault) =>
      { snapshotId := snapshotId, scopeId := s.scope.scopeId, relativePath := relativeText s.below
        objectType := .unknown, deviceId := none, inode := none, mode := none, uid := none, gid := none
        sizeBytes := none, mtimeNs := none, ctimeNs := none, birthtimeNs := none, linkCount := none
        symlinkTargetRaw := none, readable := false, writable := false, executable := false
        observationStatus := status, errorCode := some ((fault.errno.map Text.ofNat).getD (txt "None"))
        errorMessage := some fault.message, excluded := s.excluded, v2 := none }
    | .ok st =>
      let path := s.scope.normalizedPath ++ s.below
      { snapshotId := snapshotId, scopeId := s.scope.scopeId, relativePath := relativeText s.below
        objectType := kindOf st.mode, deviceId := some st.device, inode := some st.inode
        mode := some st.mode, uid := some st.uid, gid := some st.gid, sizeBytes := some st.size
        mtimeNs := some st.mtimeNs, ctimeNs := some st.ctimeNs, birthtimeNs := st.birthtimeNs
        linkCount := some st.linkCount
        symlinkTargetRaw := if kindOf st.mode = .symlink then tree.readlink path else none
        readable := (tree.access path).readable, writable := (tree.access path).writable
        executable := (tree.access path).executable, observationStatus := .observed
        errorCode := none, errorMessage := none, excluded := s.excluded, v2 := none }⟩

/-! ## The walk -/

/-- The variables of `scan`: `entries`, `partial`, `byte_total`, the readings of the clock, and
`stack`, whose top comes first. -/
structure Walk where
  sightings : List Sighting
  isPartial : Bool
  byteTotal : Int
  readings : Nat
  stack : List (List Text × Int)

section
variable (tree : Tree) (late : Nat → Bool) (budget : ScanBudget) (blocked : List HostPath) (scope : ScopeConfig)
  (device : Int)

/-- The status of a child whose `stat` raised. -/
def childStatus (fault : StatFault) : FilesystemObservationStatus :=
  match fault.kind with
  | .fileNotFoundError => .notFound
  | .permissionError => .permissionDenied
  | .osError => .ioError

/-- A child lies in an excluded or internal root. -/
def skips (below : List Text) : Bool := blocked.any fun item => item.isPrefixOf (scope.normalizedPath ++ below)

/-- A child to be listed. -/
def opens (below : List Text) (info : StatResult) : Bool :=
  !skips blocked scope below && kindOf info.mode = .directory && (scope.allowCrossMount || info.device = device)

/-- What a child adds to `byte_total`. -/
def bytesOf (below : List Text) (info : StatResult) : Nat :=
  if !skips blocked scope below && kindOf info.mode = .regularFile then info.size else 0

/-- `for child in children` -/
def scanChildren (directory : List Text) (depth : Int) : List Text → Walk → Walk
  | [], w => w
  | name :: names, w =>
    if budget.maxEntries ≤ w.sightings.length then { w with isPartial := true }
    else if late w.readings then { w with isPartial := true, readings := w.readings + 1 }
    else
      let w := { w with readings := w.readings + 1 }
      let below := directory ++ [name]
      match tree.lstat (scope.normalizedPath ++ below) with
      | .error fault =>
        let sighting : Sighting := ⟨scope, below, .error (childStatus fault, fault), false⟩
        scanChildren directory depth names { w with sightings := w.sightings ++ [sighting], isPartial := true }
      | .ok info =>
        let w := { w with
          sightings := w.sightings ++ [⟨scope, below, .ok info, skips blocked scope below⟩]
          byteTotal := w.byteTotal + bytesOf blocked scope below info }
        if !skips blocked scope below && kindOf info.mode = .regularFile &&
            budget.maxTotalStatBytes.any (· < w.byteTotal) then { w with isPartial := true }
        else if opens blocked scope device below info then
          scanChildren directory depth names { w with stack := (below, depth + 1) :: w.stack }
        else scanChildren directory depth names w

/-- What is still to be done: an entry may put a directory on the stack. -/
def Walk.size (w : Walk) : Nat := 2 * (budget.maxEntries - w.sightings.length).toNat + w.stack.length

theorem size_scanChildren {directory : List Text} {depth : Int} {names : List Text} {w : Walk} :
    (scanChildren tree late budget blocked scope device directory depth names w).size budget ≤ w.size budget := by
  induction names generalizing w with
  | nil => exact Nat.le_refl _
  | cons name names ih =>
    unfold scanChildren
    split_ifs with hfull hlate
    · exact Nat.le_refl _
    · exact Nat.le_refl _
    have hroom : 2 * (budget.maxEntries - (w.sightings.length + 1 : Nat)).toNat + 2 ≤
        2 * (budget.maxEntries - w.sightings.length).toNat := by omega
    dsimp only
    split
    · refine ih.trans ?_
      simp only [Walk.size, List.length_append, List.length_singleton]
      omega
    · split_ifs
      · simp only [Walk.size, List.length_append, List.length_singleton]
        omega
      · refine ih.trans ?_
        simp only [Walk.size, List.length_append, List.length_cons]
        omega
      · refine ih.trans ?_
        simp only [Walk.size, List.length_append, List.length_singleton]
        omega

/-- `budget.max_depth is not None and depth >= budget.max_depth` -/
def tooDeep (depth : Int) : Bool := budget.maxDepth.any (· ≤ depth)

/-- `while stack and not partial` -/
def scanStack (w : Walk) : Walk :=
  if w.isPartial then w
  else match _hstack : w.stack with
    | [] => w
    | (directory, depth) :: rest =>
      if tooDeep budget depth then scanStack { w with stack := rest }
      else match tree.scandir (scope.normalizedPath ++ directory) with
        | none => { w with stack := rest, isPartial := true }
        | some names =>
          scanStack (scanChildren tree late budget blocked scope device directory depth names { w with stack := rest })
termination_by w.size budget
decreasing_by
  · simp only [Walk.size, _hstack, List.length_cons]
    omega
  · refine Nat.lt_of_le_of_lt (size_scanChildren ..) ?_
    simp only [Walk.size, _hstack, List.length_cons]
    omega

end

/-- `for scope in scopes` -/
def scanScope (tree : Tree) (late : Nat → Bool) (budget : ScanBudget) (blocked : List HostPath) (w : Walk)
    (scope : ScopeConfig) : Walk :=
  if tree.isDir scope.normalizedPath = false then { w with isPartial := true }
  else match tree.lstat scope.normalizedPath with
    | .error fault =>
      let status := if fault.errno = some 13 then .permissionDenied else .ioError
      { w with sightings := w.sightings ++ [⟨scope, [], .error (status, fault), false⟩], isPartial := true }
    | .ok info =>
      scanStack tree late budget blocked scope info.device
        { w with sightings := w.sightings ++ [⟨scope, [], .ok info, false⟩], stack := [([], 0)] }

/-- Before the first scope. -/
def Walk.start : Walk := ⟨[], false, 0, 0, []⟩

/-- What `scan` walks over. -/
def scanWalk (tree : Tree) (late : Nat → Bool) (budget : ScanBudget) (config : StewardConfig)
    (scopes : List ScopeConfig) : Walk :=
  scopes.foldl (scanScope tree late budget config.blocked) .start

/-- `scan`. An entry is made of each sighting; the source makes it at once, which raises as well. -/
def scan (tree : Tree) (late : Nat → Bool) (budget : ScanBudget) (config : StewardConfig) (snapshotId : Text)
    (scopes : List ScopeConfig) : Result (List ScannedEntry × Bool) := do
  let w := scanWalk tree late budget config scopes
  let entries ← w.sightings.mapM (entryOf tree snapshotId)
  let ordered ← sortedByM (fun e => entrySortKey e.entry) entries
  pure (ordered, w.isPartial)

end Steward.Scan
