import Steward.Py.PurePath
import Steward.Session.EntryReference

/-!
# Scoped paths

`resolve_scoped_path`: a path below an enabled actionable scope is admitted when
no exclusion holds it, no component of it is a symbolic link and it stays on the
device of the root. The file system is a table of `lstat` results.
-/

namespace Steward.Session

open Py

/-! ## Configuration and file system -/

inductive ScopeRole where
  | managedRoot
  | referenceRoot
  | excludedRoot
  deriving DecidableEq, Repr

/-- An absolute path, by its names from the root on. -/
abbrev HostPath := List Text

structure ScopeConfig where
  scopeId : Text
  role : ScopeRole
  rawPath : Text
  normalizedPath : HostPath
  enabled : Bool
  followDirectorySymlinks : Bool
  allowCrossMount : Bool

inductive FileKind where
  | regular
  | directory
  | symlink
  | other
  deriving DecidableEq, Repr

/-- What a `stat_result` is read for. -/
structure FileState where
  kind : FileKind
  size : Int
  mtimeNs : Int
  device : Int
  inode : Int
  deriving DecidableEq, Repr

inductive StatError where
  | osError
  /-- `expanduser` has no home directory. -/
  | runtimeError
  deriving DecidableEq, Repr

structure FileSystem where
  /-- `lstat`, of a file that is there. -/
  lstat : HostPath → Option FileState
  /-- `Path(raw_path).expanduser().lstat()` -/
  configured : Text → Except StatError FileState

/-- `contains` -/
def contains (parent child : HostPath) : Bool := parent.isPrefixOf child

/-! ## Admission -/

inductive PathError where
  | scopeResolution (message : Text)
  | pathResolution (message : Text)
  | runtimeError
  deriving DecidableEq, Repr

def unresolved {α : Type} (message : String) : Except PathError α := .error (.pathResolution (txt message))

/-- `path.lstat()`; the caller turns an `OSError` into its own. -/
def FileSystem.state (fs : FileSystem) (path : HostPath) : Except PathError FileState :=
  match fs.lstat path with
  | some st => .ok st
  | none => unresolved "path is unavailable"

def FileSystem.configuredState (fs : FileSystem) (rawPath : Text) : Except PathError FileState :=
  match fs.configured rawPath with
  | .ok st => .ok st
  | .error .osError => unresolved "path is unavailable"
  | .error .runtimeError => .error .runtimeError

/-- The scopes `_actionable_scopes` keeps. -/
def ScopeConfig.actionable (scope : ScopeConfig) : Bool := scope.enabled && scope.role ≠ .excludedRoot

/-- `_scope_by_id` -/
def scopeById (scopes : List ScopeConfig) (scopeId : Text) : Except PathError ScopeConfig :=
  match scopes.find? fun scope => scope.actionable && scope.scopeId = scopeId with
  | some scope => .ok scope
  | none => .error (.scopeResolution (txt "enabled actionable Scope does not exist"))

/-- The names from `current` on, one after the other. -/
def walk (fs : FileSystem) (current : HostPath) : List Text → Except PathError Unit
  | [] => .ok ()
  | component :: rest => do
    let st ← fs.state (current ++ [component])
    if st.kind = .symlink then unresolved "path contains a symbolic link"
    else walk fs (current ++ [component]) rest

/-- The scope's root, which must be a directory and no symbolic link. -/
def rootState (fs : FileSystem) (scope : ScopeConfig) : Except PathError FileState := do
  let configured ← fs.configuredState scope.rawPath
  let root ← fs.state scope.normalizedPath
  if configured.kind = .symlink ∨ root.kind = .symlink ∨ root.kind ≠ .directory then
    unresolved "Scope root is not a non-symlink directory"
  else pure root

/-- The device check of `_admit_current_path`. -/
def checkMount (fs : FileSystem) (scope : ScopeConfig) (root : FileState) (path : HostPath) :
    Except PathError Unit :=
  if scope.allowCrossMount then .ok ()
  else do
    let st ← fs.state path
    if st.device ≠ root.device then unresolved "path crosses a disallowed mount boundary"
    else pure ()

/-- `scope.normalized_path.joinpath(*PurePosixPath(relative_path).parts)`, of a relative path -/
def ScopeConfig.joined (scope : ScopeConfig) (relativePath : Text) : HostPath :=
  scope.normalizedPath ++ PurePath.names relativePath

/-- A configured exclusion holds the path, whether or not it is enabled. -/
def excludes (scopes : List ScopeConfig) (path : HostPath) : Bool :=
  scopes.any fun scope => scope.role = .excludedRoot && contains scope.normalizedPath path

/-- `_admit_current_path` -/
def admitCurrentPath (fs : FileSystem) (scopes : List ScopeConfig) (scope : ScopeConfig)
    (relativePath : Text) : Except PathError Unit :=
  if admitsRelativePath relativePath = false then unresolved "Scope-relative path is invalid"
  else if scope.followDirectorySymlinks then
    unresolved "Scope permits directory symlinks and is not path-safe"
  else if excludes scopes (scope.joined relativePath) then
    unresolved "path is inside a configured exclusion"
  else do
    let root ← rootState fs scope
    walk fs scope.normalizedPath (PurePath.names relativePath)
    checkMount fs scope root (scope.joined relativePath)

/-- What the callers read of a `ResolvedScopedPath`. -/
structure ResolvedScopedPath where
  scopeId : Text
  relativePath : Text
  deriving DecidableEq, Repr

def resolveScopedPath (fs : FileSystem) (scopes : List ScopeConfig) (scopeId relativePath : Text) :
    Except PathError ResolvedScopedPath := do
  let scope ← scopeById scopes scopeId
  admitCurrentPath fs scopes scope relativePath
  pure ⟨scope.scopeId, relativePath⟩

/-! ## What is admitted -/

/-- `scope` admits the path: it stands below the root, outside every exclusion, and nothing on the way
to it is a symbolic link or missing. -/
structure ScopeConfig.Admits (fs : FileSystem) (scopes : List ScopeConfig) (scope : ScopeConfig)
    (relativePath : Text) : Prop where
  wellFormed : admitsRelativePath relativePath = true
  noFollow : scope.followDirectorySymlinks = false
  notExcluded : ∀ s ∈ scopes, s.role = .excludedRoot → ¬ s.normalizedPath <+: scope.joined relativePath
  configured : ∃ st, fs.configured scope.rawPath = .ok st ∧ st.kind ≠ .symlink
  root : ∃ st, fs.lstat scope.normalizedPath = some st ∧ st.kind = .directory ∧
    (scope.allowCrossMount = false →
      ∃ file, fs.lstat (scope.joined relativePath) = some file ∧ file.device = st.device)
  clear : ∀ names, names <+: PurePath.names relativePath → names ≠ [] →
    ∃ st, fs.lstat (scope.normalizedPath ++ names) = some st ∧ st.kind ≠ .symlink

/-- The first enabled actionable scope of the name admits the path. -/
def Admitted (fs : FileSystem) (scopes : List ScopeConfig) (scopeId relativePath : Text) : Prop :=
  ∃ scope, scopes.find? (fun s => s.actionable && s.scopeId = scopeId) = some scope ∧
    scope.Admits fs scopes relativePath

variable {fs : FileSystem} {scopes : List ScopeConfig} {scope : ScopeConfig} {path : HostPath}
  {st : FileState} {relativePath scopeId : Text}

@[simp] theorem state_eq_ok : fs.state path = .ok st ↔ fs.lstat path = some st := by
  unfold FileSystem.state
  cases fs.lstat path <;> simp [unresolved]

@[simp] theorem configuredState_eq_ok {rawPath : Text} :
    fs.configuredState rawPath = .ok st ↔ fs.configured rawPath = .ok st := by
  unfold FileSystem.configuredState
  rcases fs.configured rawPath with (_ | _) | st' <;> simp [unresolved]

/-- The walk sees every path on its way. -/
theorem walk_eq_ok {names : List Text} : walk fs path names = .ok () ↔
    ∀ front, front <+: names → front ≠ [] →
      ∃ st, fs.lstat (path ++ front) = some st ∧ st.kind ≠ .symlink := by
  induction names generalizing path with
  | nil =>
    refine iff_of_true rfl fun front hfront hne => absurd (List.prefix_nil.1 hfront) hne
  | cons name names ih =>
    have hstep : walk fs path (name :: names) = .ok () ↔
        (∃ st, fs.lstat (path ++ [name]) = some st ∧ st.kind ≠ .symlink) ∧
          walk fs (path ++ [name]) names = .ok () := by
      rw [walk, bind_eq_ok]
      constructor
      · rintro ⟨st, hst, h⟩
        by_cases hlink : st.kind = .symlink
        · rw [if_pos hlink] at h; cases h
        · rw [if_neg hlink] at h
          exact ⟨⟨st, state_eq_ok.1 hst, hlink⟩, h⟩
      · rintro ⟨⟨st, hst, hlink⟩, h⟩
        exact ⟨st, state_eq_ok.2 hst, by rw [if_neg hlink]; exact h⟩
    rw [hstep, ih]
    constructor
    · rintro ⟨hfirst, hrest⟩ front hfront hne
      obtain ⟨x, front, rfl⟩ := List.exists_cons_of_ne_nil hne
      obtain ⟨rfl, htail⟩ := List.cons_prefix_cons.1 hfront
      by_cases hnil : front = []
      · rw [hnil]; exact hfirst
      · rw [List.append_cons]; exact hrest front htail hnil
    · intro h
      refine ⟨h [name] (List.cons_prefix_cons.2 ⟨rfl, List.nil_prefix⟩) (List.cons_ne_nil _ _),
        fun front hfront _ => ?_⟩
      rw [List.append_assoc]
      exact h (name :: front) (List.cons_prefix_cons.2 ⟨rfl, hfront⟩) (List.cons_ne_nil _ _)

theorem rootState_eq_ok : rootState fs scope = .ok st ↔
    (∃ st', fs.configured scope.rawPath = .ok st' ∧ st'.kind ≠ .symlink) ∧
      fs.lstat scope.normalizedPath = some st ∧ st.kind = .directory := by
  simp only [rootState, bind_eq_ok, configuredState_eq_ok, state_eq_ok]
  constructor
  · rintro ⟨st', hconf, root, hroot, h⟩
    by_cases hbad : st'.kind = .symlink ∨ root.kind = .symlink ∨ root.kind ≠ .directory
    · rw [if_pos hbad] at h
      cases h
    rw [if_neg hbad] at h
    obtain rfl : root = st := by cases h; rfl
    simp only [not_or, not_not] at hbad
    exact ⟨⟨st', hconf, hbad.1⟩, hroot, hbad.2.2⟩
  · rintro ⟨⟨st', hconf, hlink⟩, hroot, hdir⟩
    refine ⟨st', hconf, st, hroot, ?_⟩
    rw [if_neg (by simp [hlink, hdir])]
    rfl

theorem checkMount_eq_ok {root : FileState} : checkMount fs scope root path = .ok () ↔
    (scope.allowCrossMount = false → ∃ file, fs.lstat path = some file ∧ file.device = root.device) := by
  unfold checkMount
  split_ifs with hcross
  · simp [hcross]
  · simp only [bind_eq_ok, state_eq_ok, hcross, true_implies]
    refine exists_congr fun file => and_congr_right fun _ => ?_
    by_cases hdev : file.device = root.device
    · simp [hdev]
    · simp [hdev, unresolved]

theorem excludes_eq_false : excludes scopes path = false ↔
    ∀ s ∈ scopes, s.role = .excludedRoot → ¬ s.normalizedPath <+: path := by
  simp [excludes, contains, List.any_eq_false, List.isPrefixOf_iff_prefix]

theorem admitCurrentPath_eq_ok : admitCurrentPath fs scopes scope relativePath = .ok () ↔
    scope.Admits fs scopes relativePath := by
  unfold admitCurrentPath
  constructor
  · intro h
    split_ifs at h with hpath hfollow hexcl <;> try cases h
    obtain ⟨root, hroot, h⟩ := bind_eq_ok.1 h
    obtain ⟨⟨⟩, hwalk, hmount⟩ := bind_eq_ok.1 h
    obtain ⟨hconf, hstate, hdir⟩ := rootState_eq_ok.1 hroot
    exact {
      wellFormed := by simpa using hpath
      noFollow := by simpa using hfollow
      notExcluded := excludes_eq_false.1 (by simpa using hexcl)
      configured := hconf
      root := ⟨root, hstate, hdir, checkMount_eq_ok.1 hmount⟩
      clear := walk_eq_ok.1 hwalk }
  · intro h
    obtain ⟨root, hstate, hdir, hmount⟩ := h.root
    rw [if_neg (by simp [h.wellFormed]), if_neg (by simp [h.noFollow]),
      if_neg (by simp [excludes_eq_false.2 h.notExcluded])]
    refine bind_eq_ok.2 ⟨root, rootState_eq_ok.2 ⟨h.configured, hstate, hdir⟩, ?_⟩
    exact bind_eq_ok.2 ⟨(), walk_eq_ok.2 h.clear, checkMount_eq_ok.2 hmount⟩

/-- Exactly the admitted paths resolve, to themselves. -/
theorem resolveScopedPath_eq_ok {resolved : ResolvedScopedPath} :
    resolveScopedPath fs scopes scopeId relativePath = .ok resolved ↔
      Admitted fs scopes scopeId relativePath ∧ resolved = ⟨scopeId, relativePath⟩ := by
  unfold resolveScopedPath scopeById Admitted
  cases hfind : scopes.find? fun s => s.actionable && s.scopeId = scopeId with
  | none =>
    refine iff_of_false ?_ ?_
    · rintro ⟨⟩
    · rintro ⟨⟨scope, h, -⟩, -⟩
      cases h
  | some scope =>
    have hid : scope.scopeId = scopeId := by
      have h := List.find?_some hfind
      simp only [Bool.and_eq_true, decide_eq_true_eq] at h
      exact h.2
    show (admitCurrentPath fs scopes scope relativePath >>= fun _ =>
      pure (⟨scope.scopeId, relativePath⟩ : ResolvedScopedPath)) = .ok resolved ↔ _
    rw [bind_eq_ok, hid]
    constructor
    · rintro ⟨⟨⟩, hadm, h⟩
      exact ⟨⟨scope, rfl, admitCurrentPath_eq_ok.1 hadm⟩, by cases h; rfl⟩
    · rintro ⟨⟨scope', h, hadm⟩, rfl⟩
      obtain rfl := Option.some.inj h
      exact ⟨(), admitCurrentPath_eq_ok.2 hadm, rfl⟩

end Steward.Session
