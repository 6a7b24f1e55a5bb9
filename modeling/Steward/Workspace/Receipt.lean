import Steward.Workspace.Observation

/-!
# The change of a workspace

`_workspace_change` of the lifecycle hooks: the paths whose records differ
between two observations, and those that git reports between their heads. Of
the latter only so many are read, and only those that pass the path check.
-/

namespace Steward.Workspace.Hooks

open Py

def maxGitOutputBytes : Nat := 1024 * 1024

def maxReceiptPaths : Nat := 128

/-! ## What git reports -/

/-- `_HEX_OBJECT_ID` -/
def hexObjectId (value : Text) : Bool :=
  40 ≤ value.length && value.length ≤ 64 &&
    value.all fun c => Text.isDigit c || (ch 'a' ≤ c && c ≤ ch 'f')

/-- `_run_git` -/
def runGit (output : Option (List Byte)) : Except Unavailable (List Byte) :=
  match output with
  | none => .error .observationUnavailable
  | some raw => if raw.length > maxGitOutputBytes then .error .observationUnavailable else .ok raw

/-- The paths in the output of `git diff --name-only -z`. -/
def gitPaths (raw : List Byte) : List Text := ((Utf8.decodeReplace raw).splitOn 0).filter fun value => value ≠ []

/-- What `git diff` answers for two heads; `none` is a failure or a timeout. -/
abbrev GitDiff := Text → Text → Option (List Byte)

/-- `_committed_paths` -/
def committedPaths (git : GitDiff) : Option Text → Option Text → List Text
  | some before, some after =>
    if before = after ∨ hexObjectId before = false ∨ hexObjectId after = false then []
    else match runGit (git before after) with
      | .error _ => []
      | .ok raw => ((gitPaths raw).filterMap fun value => (safeRelativePath value).toOption).take maxReceiptPaths
  | _, _ => []

/-! ## The receipt -/

/-- What `_observe_workspace` returns, as far as the receipt reads it. -/
structure WorkspaceObservation where
  workspaceId : Text
  workspaceName : Text
  head : Option Text
  branch : Text
  dirty : Bool
  records : List (Observed FileMetadata)
  stateDigest : Text
  deriving DecidableEq

/-- `_path_categories`; `lowered` is the path in lower case. -/
def pathCategories (lowered : Text) : List Text :=
  let under (area : String) := lowered.startsWith (txt area)
  let suffix (end' : String) := lowered.endsWith (txt end')
  let result :=
    (if under "tests/" ∨ Text.hasInfix (txt "/tests/") lowered ∨ under "test_" then [txt "TEST"] else []) ++
    (if under "docs/" ∨ suffix ".md" ∨ suffix ".rst" then [txt "DOCUMENTATION"] else []) ++
    (if [".py", ".js", ".jsx", ".ts", ".tsx", ".go", ".rs", ".java"].any suffix then [txt "SOURCE"] else []) ++
    (if lowered ∈ ["pyproject.toml", "package.json", "package-lock.json", "pnpm-lock.yaml", "yarn.lock",
        "cargo.toml", "cargo.lock", "go.mod", "go.sum"].map txt then [txt "BUILD_OR_DEPENDENCY"] else []) ++
    if [".github/", ".codex/", ".agents/", "config/"].any under then [txt "CONFIGURATION"] else []
  if result = [] then [txt "OTHER"] else result

structure WorkspaceChange where
  status : Text
  workspaceId : Text
  workspaceName : Text
  headBefore : Option Text
  headAfter : Option Text
  branchBefore : Text
  branchAfter : Text
  headChanged : Bool
  branchChanged : Bool
  dirtyBefore : Bool
  dirtyAfter : Bool
  stateDigestBefore : Text
  stateDigestAfter : Text
  changedPathCount : Nat
  changedPaths : List Text
  pathsTruncated : Bool
  categoryCounts : List (Text × Nat)

/-- `_workspace_change`, of a baseline and a latest observation. -/
def workspaceChange (git : GitDiff) (lower : Text → Text) (baseline latest : WorkspaceObservation) :
    WorkspaceChange :=
  let changedPaths := changedPaths baseline.records latest.records
  let combined := sortedSet (changedPaths ++ committedPaths git baseline.head latest.head)
  let categories := combined.flatMap fun path => pathCategories (lower path)
  { status := if baseline.stateDigest ≠ latest.stateDigest then txt "CHANGED" else txt "NO_NET_CHANGE"
    workspaceId := latest.workspaceId
    workspaceName := latest.workspaceName
    headBefore := baseline.head
    headAfter := latest.head
    branchBefore := baseline.branch
    branchAfter := latest.branch
    headChanged := baseline.head ≠ latest.head
    branchChanged := baseline.branch ≠ latest.branch
    dirtyBefore := baseline.dirty
    dirtyAfter := latest.dirty
    stateDigestBefore := baseline.stateDigest
    stateDigestAfter := latest.stateDigest
    changedPathCount := combined.length
    changedPaths := combined.take maxReceiptPaths
    pathsTruncated := combined.length > maxReceiptPaths
    categoryCounts := (sortedSet categories).map fun category => (category, categories.count category) }

/-! ## What a receipt should say -/

/-- The paths that git reports between two heads. -/
def reportedPaths (git : GitDiff) : Option Text → Option Text → List Text
  | some before, some after => if before = after then [] else ((git before after).map gitPaths).getD []
  | _, _ => []

/-- The distinct paths that git reports or whose records differ, in their order. -/
def exactPaths (git : GitDiff) (baseline latest : WorkspaceObservation) : List Text :=
  sortedSet (((baseline.records ++ latest.records).map Observed.path).filter
    (fun path => recordsOf baseline.records path ≠ recordsOf latest.records path) ++
      reportedPaths git baseline.head latest.head)

/-- The receipt accounts for these paths. -/
structure Exact (change : WorkspaceChange) (paths : List Text) : Prop where
  count : change.changedPathCount = paths.length
  listed : change.changedPaths <+: paths
  truncated : change.pathsTruncated = true ↔ ∃ path ∈ paths, path ∉ change.changedPaths

/-- Git's answer is read, and the path is among the first of it that pass the path check. -/
def Read (git : GitDiff) (before after : Option Text) (path : Text) : Prop :=
  ∃ b a raw, before = some b ∧ after = some a ∧ b ≠ a ∧ hexObjectId b = true ∧ hexObjectId a = true ∧
    git b a = some raw ∧ raw.length ≤ maxGitOutputBytes ∧
    path ∈ ((gitPaths raw).filter fun value => (safeRelativePath value).toOption.isSome).take maxReceiptPaths

/-- Every path is seen: the last of its records differs, or it is read from git. -/
def Covered (git : GitDiff) (baseline latest : WorkspaceObservation) : Prop :=
  ∀ path ∈ exactPaths git baseline latest,
    recordMap baseline.records path ≠ recordMap latest.records path ∨ Read git baseline.head latest.head path

section
variable {git : GitDiff} {lower : Text → Text} {baseline latest : WorkspaceObservation} {path : Text}

theorem mem_exactPaths : path ∈ exactPaths git baseline latest ↔
    recordsOf baseline.records path ≠ recordsOf latest.records path ∨
      path ∈ reportedPaths git baseline.head latest.head := by
  rw [exactPaths, mem_sortedSet, List.mem_append, List.mem_filter, decide_eq_true_eq]
  exact or_congr_left (and_iff_right_of_imp mem_paths_of_ne)

/-! ## Git's answer -/

theorem filterMap_safe {values : List Text} (h : ∀ value ∈ values, PurePath.asPosix value = value) :
    values.filterMap (fun value => (safeRelativePath value).toOption) =
      values.filter fun value => (safeRelativePath value).toOption.isSome := by
  induction values with
  | nil => rfl
  | cons value values ih =>
    obtain ⟨hvalue, hvalues⟩ := List.forall_mem_cons.1 h
    rw [List.filterMap_cons, List.filter_cons, ih hvalues]
    cases hsafe : safeRelativePath value with
    | error e => rfl
    | ok relative =>
      rw [safeRelativePath_eq hsafe, hvalue]
      rfl

/-- Git's answer where the heads are worth asking for. -/
def asked (git : GitDiff) (before after : Text) : Option (List Byte) :=
  if before = after ∨ hexObjectId before = false ∨ hexObjectId after = false then none
  else (git before after).filter fun raw => raw.length ≤ maxGitOutputBytes

theorem committedPaths_some (before after : Text) : committedPaths git (some before) (some after) =
    ((asked git before after).map fun raw =>
      ((gitPaths raw).filterMap fun value => (safeRelativePath value).toOption).take maxReceiptPaths).getD [] := by
  unfold committedPaths asked runGit
  dsimp only
  split_ifs with hasked
  · rfl
  · cases git before after with
    | none => rfl
    | some raw =>
      dsimp only
      by_cases hsize : raw.length > maxGitOutputBytes
      · rw [if_pos hsize, Option.filter_some, if_neg (by simpa using hsize)]
        rfl
      · rw [if_neg hsize, Option.filter_some, if_pos (by simpa using hsize)]
        rfl

theorem asked_eq_some {before after : Text} {raw : List Byte} : asked git before after = some raw ↔
    before ≠ after ∧ hexObjectId before = true ∧ hexObjectId after = true ∧ git before after = some raw ∧
      raw.length ≤ maxGitOutputBytes := by
  unfold asked
  split_ifs with hasked
  · refine iff_of_false (by simp) fun ⟨hne, hb, ha, _⟩ => ?_
    simp [hne, hb, ha] at hasked
  · simp only [not_or, Bool.not_eq_false] at hasked
    simp [Option.filter_eq_some_iff, hasked]

/-- What is read from git, where git's paths are canonical. -/
theorem mem_committedPaths {before after : Option Text}
    (hgit : ∀ value ∈ reportedPaths git before after, PurePath.asPosix value = value) :
    path ∈ committedPaths git before after ↔ Read git before after path := by
  match before, after with
  | none, _ => exact iff_of_false List.not_mem_nil fun ⟨_, _, _, h, _⟩ => by cases h
  | some _, none => exact iff_of_false List.not_mem_nil fun ⟨_, _, _, _, h, _⟩ => by cases h
  | some before, some after =>
    rw [committedPaths_some]
    cases hasked : asked git before after with
    | none =>
      refine iff_of_false List.not_mem_nil ?_
      rintro ⟨b, a, raw, hb, ha, hne, hhb, hha, hraw, hsize, -⟩
      cases hb
      cases ha
      rw [asked_eq_some.2 ⟨hne, hhb, hha, hraw, hsize⟩] at hasked
      cases hasked
    | some raw =>
      obtain ⟨hne, hhb, hha, hraw, hsize⟩ := asked_eq_some.1 hasked
      have hreported : reportedPaths git (some before) (some after) = gitPaths raw := by
        rw [reportedPaths, if_neg hne, hraw]
        rfl
      rw [Option.map_some, Option.getD_some, filterMap_safe (hreported ▸ hgit)]
      constructor
      · exact fun hpath => ⟨before, after, raw, rfl, rfl, hne, hhb, hha, hraw, hsize, hpath⟩
      · rintro ⟨b, a, raw', hb, ha, -, -, -, hraw', -, hpath⟩
        cases hb
        cases ha
        rw [hraw] at hraw'
        cases hraw'
        exact hpath

theorem Read.reported {before after : Option Text} (h : Read git before after path) :
    path ∈ reportedPaths git before after := by
  obtain ⟨b, a, raw, rfl, rfl, hne, -, -, hraw, -, hpath⟩ := h
  rw [reportedPaths, if_neg hne, hraw]
  exact List.mem_of_mem_filter (List.mem_of_mem_take hpath)

/-! ## When a receipt is exact -/

/-- The receipt of paths without repetition accounts for them. -/
theorem exact_of_paths {change : WorkspaceChange} {paths : List Text} (hnodup : paths.Nodup)
    (hcount : change.changedPathCount = paths.length) (hlisted : change.changedPaths = paths.take maxReceiptPaths)
    (htruncated : change.pathsTruncated = decide (paths.length > maxReceiptPaths)) : Exact change paths := by
  refine ⟨hcount, hlisted ▸ List.take_prefix _ _, ?_⟩
  rw [htruncated, hlisted, decide_eq_true_eq]
  constructor
  · intro hlong
    have hdrop : paths.drop maxReceiptPaths ≠ [] := by
      rw [Ne, List.drop_eq_nil_iff]
      omega
    obtain ⟨path, hpath⟩ := List.exists_mem_of_ne_nil _ hdrop
    rw [← List.take_append_drop maxReceiptPaths paths, List.nodup_append'] at hnodup
    exact ⟨path, List.mem_of_mem_drop hpath, fun htake => hnodup.2.2 htake hpath⟩
  · rintro ⟨path, hpath, hnot⟩
    by_contra hshort
    rw [List.take_of_length_le (by omega)] at hnot
    exact hnot hpath

/-- Sorted sets of one size, one within the other, are one. -/
theorem sortedSet_eq_of_subset {xs ys : List Text} (hsub : ∀ t ∈ xs, t ∈ ys)
    (hlength : (sortedSet xs).length = (sortedSet ys).length) : ∀ t ∈ ys, t ∈ xs := by
  have hsubperm : (sortedSet xs).Subperm (sortedSet ys) :=
    List.subperm_of_subset nodup_sortedSet fun t ht => mem_sortedSet.2 (hsub t (mem_sortedSet.1 ht))
  have hperm := hsubperm.perm_of_length_le hlength.ge
  exact fun t ht => mem_sortedSet.1 (hperm.mem_iff.2 (mem_sortedSet.2 ht))

/-- A receipt is exact when every path of it is seen. -/
theorem workspaceChange_exact_iff
    (hgit : ∀ value ∈ reportedPaths git baseline.head latest.head, PurePath.asPosix value = value) :
    Exact (workspaceChange git lower baseline latest) (exactPaths git baseline latest) ↔
      Covered git baseline latest := by
  have hseen : ∀ path, path ∈ changedPaths baseline.records latest.records ++
      committedPaths git baseline.head latest.head ↔
      recordMap baseline.records path ≠ recordMap latest.records path ∨ Read git baseline.head latest.head path := by
    intro path
    rw [List.mem_append, mem_changedPaths, mem_committedPaths hgit]
  have hsub : ∀ path, recordMap baseline.records path ≠ recordMap latest.records path ∨
      Read git baseline.head latest.head path → path ∈ exactPaths git baseline latest := fun path h =>
    mem_exactPaths.2 (h.imp recordsOf_ne Read.reported)
  constructor
  · intro hexact path hpath
    have hcount := hexact.count
    unfold workspaceChange exactPaths at hcount
    unfold exactPaths at hpath
    refine (hseen path).1 (sortedSet_eq_of_subset (fun t ht => ?_) hcount path (mem_sortedSet.1 hpath))
    exact mem_sortedSet.1 (hsub t ((hseen t).1 ht))
  · intro hcovered
    have hpaths : sortedSet (changedPaths baseline.records latest.records ++
        committedPaths git baseline.head latest.head) = exactPaths git baseline latest := by
      rw [exactPaths]
      refine sortedSet_congr fun path => ?_
      exact (hseen path).trans (Iff.trans ⟨hsub path, hcovered path⟩ mem_sortedSet)
    exact exact_of_paths nodup_sortedSet (congrArg List.length hpaths) (congrArg (List.take _) hpaths)
      (congrArg (fun paths => decide (List.length paths > maxReceiptPaths)) hpaths)

end

/-! ## Two commits -/

def headOf (c : Char) : Text := List.replicate 40 (ch c)

/-- A clean workspace at a commit. -/
def cleanAt (head : Text) : WorkspaceObservation :=
  ⟨txt "W", txt "repo", some head, txt "main", false, [], head⟩

/-- A commit that changes one file. -/
def oneFile : GitDiff := fun _ _ => some [0x61, 0]

theorem oneFile_exact : Exact (workspaceChange oneFile id (cleanAt (headOf 'a')) (cleanAt (headOf 'b')))
    (exactPaths oneFile (cleanAt (headOf 'a')) (cleanAt (headOf 'b'))) := by
  have hreported : reportedPaths oneFile (some (headOf 'a')) (some (headOf 'b')) = [txt "a"] := by decide
  refine (workspaceChange_exact_iff (hreported ▸ by decide)).2 fun path hpath => .inr ?_
  have hpath : path = txt "a" := by
    rcases mem_exactPaths.1 hpath with hne | hpath
    · exact absurd rfl hne
    · exact List.mem_singleton.1 (hreported ▸ hpath)
  subst hpath
  exact ⟨headOf 'a', headOf 'b', [0x61, 0], rfl, rfl, by decide, by decide, by decide, rfl, by decide, by decide⟩

/-- The bytes of a path of 1025 characters. -/
def deepPath : List Byte := (List.replicate 512 [0x64, 0x2F]).flatten ++ [0x66]

/-- A commit that changes one file, far down. -/
def deepFile : GitDiff := fun _ _ => some (deepPath ++ [0])

theorem gitPaths_deepPath : gitPaths (deepPath ++ [0]) = [deepPath.map fun b => ⟨b.val, byte_lt b⟩] := by
  have hbytes : ∀ b ∈ deepPath, b = 0x64 ∨ b = 0x2F ∨ b = 0x66 := by
    intro b hb
    unfold deepPath at hb
    simp only [List.mem_append, List.mem_flatten, List.mem_replicate, List.mem_singleton] at hb
    rcases hb with ⟨bs, ⟨-, rfl⟩, hb⟩ | rfl
    · simp only [List.mem_cons, List.not_mem_nil, or_false] at hb
      rcases hb with rfl | rfl <;> decide
    · decide
  have hascii : ∀ b ∈ deepPath, b.val < 0x80 := by
    intro b hb
    rcases hbytes b hb with rfl | rfl | rfl <;> decide
  have hnul : (0 : CodePoint) ∉ deepPath.map fun b => (⟨b.val, byte_lt b⟩ : CodePoint) := by
    rw [List.mem_map]
    rintro ⟨b, hb, hzero⟩
    rcases hbytes b hb with rfl | rfl | rfl <;> exact absurd hzero (by decide)
  have hne : (deepPath.map fun b => (⟨b.val, byte_lt b⟩ : CodePoint)) ≠ [] := by
    rw [Ne, List.map_eq_nil_iff]
    exact List.append_ne_nil_of_right_ne_nil _ (List.cons_ne_nil _ _)
  have hdecode : Utf8.decodeReplace (deepPath ++ [0]) =
      (deepPath.map fun b => (⟨b.val, byte_lt b⟩ : CodePoint)) ++ 0 :: [] := by
    rw [Utf8.decodeReplace_append_ascii deepPath (by decide) [], Utf8.decodeReplace_ascii hascii]
    rfl
  rw [gitPaths, hdecode, List.splitOn_append_cons_self_of_not_mem hnul, List.splitOn_nil,
    List.filter_cons, if_pos (decide_eq_true hne)]
  rfl

theorem not_exact_of_unread {git : GitDiff} {before after path : Text}
    (hcommitted : committedPaths git (some before) (some after) = [])
    (hreported : path ∈ reportedPaths git (some before) (some after)) :
    ¬ Exact (workspaceChange git id (cleanAt before) (cleanAt after))
      (exactPaths git (cleanAt before) (cleanAt after)) := by
  intro hexact
  have hcount := hexact.count
  have hnone : (workspaceChange git id (cleanAt before) (cleanAt after)).changedPathCount = 0 := by
    show (sortedSet (changedPaths [] [] ++ committedPaths git (some before) (some after))).length = 0
    rw [hcommitted]
    rfl
  rw [hnone, eq_comm, List.length_eq_zero_iff] at hcount
  have hmem := (@mem_exactPaths git (cleanAt before) (cleanAt after) path).2 (.inr hreported)
  rw [hcount] at hmem
  cases hmem

/-- The receipt leaves the file out. -/
theorem deepFile_left_out : ¬ Exact (workspaceChange deepFile id (cleanAt (headOf 'a')) (cleanAt (headOf 'b')))
    (exactPaths deepFile (cleanAt (headOf 'a')) (cleanAt (headOf 'b'))) := by
  have hlength : deepPath.length = 1025 := by
    rw [deepPath, List.length_append, List.length_flatten, List.map_replicate, List.sum_replicate]
    rfl
  have hsafe : safeRelativePath (deepPath.map fun b => ⟨b.val, byte_lt b⟩) = .error .observationUnavailable := by
    refine if_pos (.inr (.inl ?_))
    rw [List.length_map, hlength]
    decide
  have hasked : asked deepFile (headOf 'a') (headOf 'b') = some (deepPath ++ [0]) := by
    refine asked_eq_some.2 ⟨by decide, by decide, by decide, rfl, ?_⟩
    rw [List.length_append, hlength]
    decide
  have hcommitted : committedPaths deepFile (some (headOf 'a')) (some (headOf 'b')) = [] := by
    rw [committedPaths_some, hasked, Option.map_some, gitPaths_deepPath, List.filterMap_cons, hsafe]
    rfl
  have hreported : reportedPaths deepFile (some (headOf 'a')) (some (headOf 'b')) =
      [deepPath.map fun b => ⟨b.val, byte_lt b⟩] := by
    rw [reportedPaths, if_neg (by decide), deepFile, Option.map_some, Option.getD_some, gitPaths_deepPath]
  exact not_exact_of_unread hcommitted (hreported.symm ▸ List.mem_singleton_self _)

end Steward.Workspace.Hooks
