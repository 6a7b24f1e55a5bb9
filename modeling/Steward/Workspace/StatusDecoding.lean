import Steward.Workspace.Observation

/-!
# Which status outputs are decoded right

For either observer, exactly the listings within its bound whose records it can
read: the path it takes must be admitted, and for a moved file the original
path, which is the one it takes, must be the current path as well. So no moved
file is observed under the path where it lies now, and what happens to it there
is not seen.
-/

namespace Steward.Workspace

open Py

/-- The observer `read` of a status undoes the encoding of the listing `rs`, and
it reports every file of the listing whose observed metadata change. -/
structure StatusDecoder.Inverts {ε M : Type} [DecidableEq M] (d : StatusDecoder ε)
    (metadata : (Text → Node) → Text → M)
    (read : (Text → Node) → List Byte → Except ε (List (Observed M)))
    (rs : List StatusRecord) : Prop where
  parse : d.parse (encodeStatus rs) = .ok (rs.map StatusRecord.observation)
  seen : ∀ (before after : Text → Node) (later : List StatusRecord),
    d.parse (encodeStatus later) = .ok (later.map StatusRecord.observation) →
    ∀ r ∈ rs, ∀ r' ∈ later, r'.currentPath = r.currentPath →
      metadata before r.currentPath ≠ metadata after r.currentPath →
      ∃ baseline postflight, read before (encodeStatus rs) = .ok baseline ∧
        read after (encodeStatus later) = .ok postflight ∧
        r.currentPath ∈ changedPaths baseline postflight

/-- Once the decoding is right, changes are seen. -/
theorem StatusDecoder.Inverts.of_parse {ε M : Type} [DecidableEq M] {d : StatusDecoder ε}
    {metadata : (Text → Node) → Text → M} {visibility : Text → Visibility}
    {rs : List StatusRecord}
    (h : d.parse (encodeStatus rs) = .ok (rs.map StatusRecord.observation)) :
    d.Inverts metadata
      (fun worktree raw => (d.parse raw).map (observe visibility (metadata worktree))) rs where
  parse := h
  seen before after later hlater r hr r' hr' hpath hne :=
    ⟨_, _, by rw [h]; rfl, by rw [hlater]; rfl,
      @mem_changedPaths_of_ne _ _ visibility _ _ _ _ r.observation r'.observation
        (List.mem_map_of_mem hr) (List.mem_map_of_mem hr') hpath hne⟩

theorem not_bad_name {value : Text} (hparent : txt ".." ∉ PurePath.names value) :
    ¬ ∃ part ∈ PurePath.names value, part ∈ [[], txt ".", txt ".."] := by
  rintro ⟨part, hpart, hbad⟩
  have hname := PurePath.mem_names hpart
  simp only [List.mem_cons, List.not_mem_nil, or_false] at hbad
  rcases hbad with rfl | rfl | rfl
  · exact hname.2.1 rfl
  · exact hname.2.2 rfl
  · exact hparent hpart

namespace Hooks

/-- The observer decodes the listing right. -/
def Inverts (rs : List StatusRecord) : Prop :=
  statusDecoder.Inverts (fun worktree path => fileMetadata (worktree path)) observeWorkspace rs

/-- What `_safe_relative_path` admits. -/
structure Admitted (value : Text) : Prop where
  ne_nil : value ≠ []
  length_le : value.length ≤ maxPathChars
  nul : 0 ∉ value
  relative : value.startsWith (txt "/") = false
  names_ne_nil : PurePath.names value ≠ []
  no_parent : txt ".." ∉ PurePath.names value

theorem admitted_iff {value : Text} :
    (∃ path, safeRelativePath value = .ok path) ↔ Admitted value := by
  have hparts (hr : PurePath.root value = []) :
      PurePath.parts (PurePath.asPosix value) = PurePath.names value := by
    have hroot := PurePath.root_eq_nil.2 (PurePath.startsWith_relative hr)
    rw [PurePath.parts, if_pos hroot, PurePath.names_relative hr]
  unfold safeRelativePath
  simp only [PurePath.startsWith_asPosix]
  constructor
  · rintro ⟨path, h⟩
    split_ifs at h with h1 h2
    simp only [not_or, not_exists, not_and] at h1 h2
    have hrel : value.startsWith (txt "/") = false := by simpa using h2.1
    rw [hparts (PurePath.root_eq_nil.2 hrel)] at h2
    exact ⟨h1.1, by omega, h1.2.2, hrel, h2.2.1, fun hp => h2.2.2 _ hp (by simp)⟩
  · rintro ⟨hne, hlen, hnul, hrel, hnames, hparent⟩
    rw [if_neg (by simp [hne, hnul]; omega), hparts (PurePath.root_eq_nil.2 hrel),
      if_neg (by rw [hrel]; simp only [hnames, not_bad_name hparent]; simp)]
    exact ⟨_, rfl⟩

/-- A record that the hooks observe under its status and current path. -/
structure Readable (r : StatusRecord) : Prop where
  path_ne_nil : r.path ≠ []
  admitted : Admitted (Utf8.decodeReplace (StatusDecoder.readPath r))
  valid : r.original = none → Utf8.valid r.path = true
  unmoved : ∀ o ∈ r.original, PurePath.asPosix (Utf8.decodeReplace o) = r.currentPath

/-- What `replace` loses of a path is lost for the pure path too. -/
theorem asPosix_decodeReplace {bs : List Byte} :
    PurePath.asPosix (Utf8.decodeReplace bs) = PurePath.asPosix (Utf8.decodeEscape bs) ↔
      Utf8.valid bs = true := by
  constructor
  · intro h
    by_contra hv
    obtain ⟨c, hc, hs⟩ := Utf8.exists_surrogate_of_not_valid (Bool.eq_false_iff.2 hv)
    have hslash : c ≠ ch '/' := by rintro rfl; exact absurd hs (by decide)
    have hdot : c ≠ ch '.' := by rintro rfl; exact absurd hs (by decide)
    have hmem := PurePath.mem_asPosix hc hslash hdot
    rw [← h] at hmem
    have := Utf8.isSurrogate_of_mem_decodeReplace (PurePath.mem_of_mem_asPosix hmem hslash hdot)
    rw [this] at hs
    cases hs
  · intro h
    rw [Utf8.decode_of_valid h]

theorem reads_iff {r : StatusRecord} : statusDecoder.Reads r ↔ Readable r := by
  have hsafe : (∃ path, statusDecoder.safe (statusDecoder.decode (StatusDecoder.readPath r)) =
      .ok path) ↔ Admitted (Utf8.decodeReplace (StatusDecoder.readPath r)) := admitted_iff
  constructor
  · rintro ⟨hp, -, hadm, hsame⟩
    refine ⟨hp, hsafe.1 hadm, fun h => ?_, fun o h => ?_⟩
    · rw [StatusDecoder.readPath_plain h] at hsame
      exact asPosix_decodeReplace.1 hsame
    · rw [StatusDecoder.readPath_moved h] at hsame
      exact hsame
  · rintro ⟨hp, hadm, hvalid, hunmoved⟩
    refine ⟨hp, fun h => hadm.ne_nil (by rw [h]; rfl), hsafe.2 hadm, ?_⟩
    cases ho : r.original with
    | none => rw [StatusDecoder.readPath_plain ho]; exact asPosix_decodeReplace.2 (hvalid ho)
    | some o => rw [StatusDecoder.readPath_moved ho]; exact hunmoved o ho

theorem inverts_iff {rs : List StatusRecord} :
    Inverts rs ↔ rs.length ≤ maxStatusRecords ∧ ∀ r ∈ rs, Readable r := by
  have hobserve : observeWorkspace = fun worktree raw => (statusDecoder.parse raw).map
      (observe visibility fun path => fileMetadata (worktree path)) := by
    funext worktree raw
    unfold observeWorkspace statusRecords
    cases statusDecoder.parse raw <;> rfl
  have hparse := @StatusDecoder.parse_eq_observations _ statusDecoder rs
  simp only [reads_iff] at hparse
  refine ⟨fun h => hparse.1 h.parse, fun h => ?_⟩
  rw [Inverts, hobserve]
  exact .of_parse (hparse.2 h)

end Hooks

namespace Execution

/-- The observer decodes the listing right, whatever the protected areas. -/
def Inverts (rs : List StatusRecord) : Prop :=
  ∀ areas, statusDecoder.Inverts (stateMetadata areas) (observeState areas) rs

/-- What `_safe_relative` admits. -/
structure Admitted (value : Text) : Prop where
  ne_nil : value ≠ []
  length_le : value.length ≤ maxTargetPathChars
  nul : 0 ∉ value
  relative : value.startsWith (txt "/") = false
  no_backslash : ch '\\' ∉ value
  no_parent : txt ".." ∉ PurePath.names value

theorem no_parent_of_relative {value : Text} (hr : PurePath.root value = [])
    (h : txt ".." ∉ PurePath.names value) :
    ¬ ((PurePath.asPosix value).startsWith (txt "../") = true ∨
      PurePath.asPosix value = txt "..") := by
  rw [← PurePath.names_relative hr] at h
  rintro (hstart | heq)
  · obtain ⟨t, ht⟩ := Text.startsWith_iff.1 hstart
    refine h (List.mem_filter.2 ⟨?_, by decide⟩)
    rw [ht]
    show txt ".." ∈ Path.components (txt ".." ++ ch '/' :: t)
    rw [Path.components_append]
    exact List.mem_append_left _ (by decide)
  · rw [heq] at h
    exact h (by decide)

theorem admitted_iff {value : Text} : (∃ path, safeRelative value = .ok path) ↔ Admitted value := by
  have hparts (hrel : value.startsWith (txt "/") = false) :
      PurePath.parts value = PurePath.names value :=
    if_pos (PurePath.root_eq_nil.2 hrel)
  unfold safeRelative
  simp only
  constructor
  · rintro ⟨path, h⟩
    split_ifs at h with h1 h2 h3
    all_goals
      simp only [not_or] at h1 h2
      have hrel : value.startsWith (txt "/") = false := by simpa using h2.2.1
      refine ⟨h1.1, by omega, h2.1, hrel, h2.2.2, fun hparent => h3 ⟨⟨txt "..", ?_, by decide⟩, ?_, ?_⟩⟩
      · rw [hparts hrel]; exact hparent
      · rintro rfl; exact absurd hparent (by decide)
      · rw [hparts hrel]; exact fun h => h.2 _ hparent rfl
  · rintro ⟨hne, hlen, hnul, hrel, hback, hparent⟩
    rw [if_neg (by simp [hne]; omega), if_neg (by simp [hnul, hrel, hback]), hparts hrel,
      if_neg fun h => not_bad_name hparent h.1]
    split_ifs with hdot hleft
    · exact ⟨_, rfl⟩
    · exact absurd hleft (no_parent_of_relative (PurePath.root_eq_nil.2 hrel) hparent)
    · exact ⟨_, rfl⟩

/-- A record that the grounding observes under its status and current path. -/
structure Readable (r : StatusRecord) : Prop where
  path_ne_nil : r.path ≠ []
  admitted : Admitted (Utf8.decodeEscape (StatusDecoder.readPath r))
  unmoved : ∀ o ∈ r.original, PurePath.asPosix (Utf8.decodeEscape o) = r.currentPath

theorem reads_iff {r : StatusRecord} : statusDecoder.Reads r ↔ Readable r := by
  have hsafe : (∃ path, statusDecoder.safe (statusDecoder.decode (StatusDecoder.readPath r)) =
      .ok path) ↔ Admitted (Utf8.decodeEscape (StatusDecoder.readPath r)) := admitted_iff
  constructor
  · rintro ⟨hp, -, hadm, hsame⟩
    refine ⟨hp, hsafe.1 hadm, fun o ho => ?_⟩
    rw [← StatusDecoder.readPath_moved ho]
    exact hsame
  · rintro ⟨hp, hadm, hunmoved⟩
    refine ⟨hp, fun h => hadm.ne_nil (by rw [h]; rfl), hsafe.2 hadm, ?_⟩
    cases ho : r.original with
    | none => rw [StatusDecoder.readPath_plain ho]; rfl
    | some o => rw [StatusDecoder.readPath_moved ho]; exact hunmoved o ho

theorem inverts_iff {rs : List StatusRecord} :
    Inverts rs ↔ rs.length ≤ maxStatusRecords ∧ ∀ r ∈ rs, Readable r := by
  have hobserve (areas : List (Text × Text)) : observeState areas = fun worktree raw =>
      (statusDecoder.parse raw).map (observe visibility (stateMetadata areas worktree)) := by
    funext worktree raw
    unfold observeState parseStatus
    cases statusDecoder.parse raw <;> rfl
  have hparse := @StatusDecoder.parse_eq_observations _ statusDecoder rs
  simp only [reads_iff] at hparse
  refine ⟨fun h => hparse.1 (h []).parse, fun h areas => ?_⟩
  rw [hobserve]
  exact .of_parse (hparse.2 h)

end Execution

/-- Both observers, exactly. -/
theorem status_inverts_iff (rs : List StatusRecord) :
    (Hooks.Inverts rs ↔ rs.length ≤ Hooks.maxStatusRecords ∧ ∀ r ∈ rs, Hooks.Readable r) ∧
      (Execution.Inverts rs ↔
        rs.length ≤ Execution.maxStatusRecords ∧ ∀ r ∈ rs, Execution.Readable r) :=
  ⟨Hooks.inverts_iff, Execution.inverts_iff⟩

/-! ## A renamed file -/

/-- `R  new`, renamed from `old`. -/
def renamed : StatusRecord where
  index := .renamed
  worktree := .unmodified
  path := Text.utf8 (txt "new")
  original := some (Text.utf8 (txt "old"))
  nul_path := by decide
  nul_original := by decide
  original_iff := by decide

theorem changedPaths_self {M : Type} [DecidableEq M] (records : List (Observed M)) :
    changedPaths records records = [] := by simp [changedPaths]

/-- Both observers report the renamed file under the path it no longer has, and
whatever becomes of the file at `new` they see no change. -/
theorem renamed_reported_as_original :
    (¬ Hooks.Inverts [renamed] ∧ ¬ Execution.Inverts [renamed]) ∧
      Hooks.statusRecords (encodeStatus [renamed]) = .ok [(txt "R ", txt "old")] ∧
      Execution.parseStatus (encodeStatus [renamed]) = .ok [(txt "R ", txt "old")] ∧
      ∀ before after : Text → Node, before (txt "old") = after (txt "old") →
        ∃ b a b' a', Hooks.observeWorkspace before (encodeStatus [renamed]) = .ok b ∧
          Hooks.observeWorkspace after (encodeStatus [renamed]) = .ok a ∧ changedPaths b a = [] ∧
          Execution.observeState [] before (encodeStatus [renamed]) = .ok b' ∧
          Execution.observeState [] after (encodeStatus [renamed]) = .ok a' ∧
          changedPaths b' a' = [] := by
  have hhooks : Hooks.statusRecords (encodeStatus [renamed]) = .ok [(txt "R ", txt "old")] := by
    decide +kernel
  have hexecution : Execution.parseStatus (encodeStatus [renamed]) = .ok [(txt "R ", txt "old")] := by
    decide +kernel
  have hwrong : [(txt "R ", txt "old")] ≠ [renamed].map StatusRecord.observation := by
    decide +kernel
  refine ⟨⟨fun h => ?_, fun h => ?_⟩, hhooks, hexecution, fun before after heq => ?_⟩
  · exact hwrong (Except.ok.inj (hhooks.symm.trans h.parse))
  · exact hwrong (Except.ok.inj (hexecution.symm.trans (h []).parse))
  · refine ⟨_, _, _, _, ?_, ?_, changedPaths_self
      (observe Hooks.visibility (fun path => Hooks.fileMetadata (before path))
        [(txt "R ", txt "old")]), ?_, ?_, changedPaths_self
      (observe Execution.visibility (Execution.stateMetadata [] before) [(txt "R ", txt "old")])⟩
    · rw [Hooks.observeWorkspace, hhooks]; rfl
    · rw [Hooks.observeWorkspace, hhooks]
      simp [observe, bind, Except.bind, pure, Except.pure, heq]
    · rw [Execution.observeState, hexecution]; rfl
    · rw [Execution.observeState, hexecution]
      simp [observe, bind, Except.bind, pure, Except.pure, Execution.stateMetadata, heq]

end Steward.Workspace
