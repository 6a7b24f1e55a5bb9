import Steward.Py.Path
import Steward.Snapshot.Create
import Steward.Sqlite.Integral

/-!
# Entry paths

The path test of the validators refuses `/…`, `..`, `../…` and `…/../…`. What
it leaves out decides whether the paths of accepted Evidence are canonical and
stay inside their scope.
-/

namespace Steward

open Py Sqlite

variable {F : Type} [SqliteFloat F]

/-- The tests the validators leave out: `.`, or no empty component, no `.` and no last `..`. -/
def tidy (s : Text) : Bool :=
  s = txt "." ||
    !(s = [] || s.endsWith (txt "/") || Text.hasInfix (txt "//") s) &&
    !(s.startsWith (txt "./") || s.endsWith (txt "/.") || Text.hasInfix (txt "/./") s) &&
    !s.endsWith (txt "/..")

omit [SqliteFloat F] in
/-- On the paths the validators let through, exactly the tidy ones are canonical. -/
theorem canonical_iff_tidy {s : Text} (h : safePath (F := F) (.str s) = true) :
    Path.Canonical s ↔ tidy s = true := by
  simp only [safePath, Bool.and_eq_true, Bool.not_eq_true', decide_eq_true_eq] at h
  obtain ⟨⟨⟨hroot, hparent⟩, hup⟩, hmid⟩ := h
  by_cases hdot : s = txt "."
  · exact iff_of_true (.inl hdot) (by simp [tidy, hdot])
  -- a component is empty, `.` or `..` exactly when one of its four tests is positive
  have hempty : [] ∈ Path.components s ↔ s = [] ∨ s.endsWith (txt "/") = true ∨
      Text.hasInfix (txt "//") s = true := by
    rw [Path.mem_components List.not_mem_nil]
    show s = [] ∨ s.startsWith (txt "/") = true ∨ Text.hasInfix (txt "//") s = true ∨
      s.endsWith (txt "/") = true ↔ _
    rw [hroot, or_comm (a := Text.hasInfix _ _ = true)]
    simp only [Bool.false_eq_true, false_or]
  have hone : txt "." ∈ Path.components s ↔ s.startsWith (txt "./") = true ∨
      s.endsWith (txt "/.") = true ∨ Text.hasInfix (txt "/./") s = true := by
    rw [Path.mem_components (by decide), or_iff_right hdot]
    show s.startsWith (txt "./") = true ∨ Text.hasInfix (txt "/./") s = true ∨
      s.endsWith (txt "/.") = true ↔ _
    rw [or_comm (a := Text.hasInfix _ _ = true)]
  have htwo : txt ".." ∈ Path.components s ↔ s.endsWith (txt "/..") = true := by
    rw [Path.mem_components (by decide), or_iff_right hparent]
    show s.startsWith (txt "../") = true ∨ Text.hasInfix (txt "/../") s = true ∨
      s.endsWith (txt "/..") = true ↔ _
    rw [hup, hmid]
    simp only [Bool.false_eq_true, false_or]
  have hcanonical : Path.Canonical s ↔ [] ∉ Path.components s ∧ txt "." ∉ Path.components s ∧
      txt ".." ∉ Path.components s := by
    rw [Path.Canonical, or_iff_right hdot]
    refine ⟨fun h => ⟨fun hm => (h _ hm).1 rfl, fun hm => (h _ hm).2.1 rfl,
      fun hm => (h _ hm).2.2 rfl⟩, fun h c hc => ⟨?_, ?_, ?_⟩⟩
    · rintro rfl; exact h.1 hc
    · rintro rfl; exact h.2.1 hc
    · rintro rfl; exact h.2.2 hc
  rw [hcanonical, hempty, hone, htwo, tidy]
  simp only [hdot, decide_false, Bool.false_or, Bool.and_eq_true, Bool.not_eq_true', Bool.or_eq_false_iff,
    decide_eq_false_iff_not, not_or, Bool.not_eq_true, and_assoc]

/-! ## Accepted Evidence -/

/-- The entries of a document. -/
def entryItems (evidence : Value F) : List (Value F) := elements (entriesOf (members evidence))

/-- The relative path of an entry. -/
def pathOf (item : Value F) : Value F := keyOf item (EntryKey.field .relativePath)

theorem safePath_of_accepts {evidence : Value F} (h : Accepts evidence) :
    ∀ item ∈ entryItems evidence, safePath (pathOf item) = true := by
  intro item hi
  rcases accepts_iff.1 h with ⟨-, a⟩ | ⟨-, a⟩
  · obtain ⟨st, hst, hv⟩ := a.scan
    exact ((scan_valid hst hv).2.1 item hi).path
  · have := List.all_eq_true.1 a.paths item hi
    cases item with
    | dict fs => exact this
    | _ => cases this

/-- Every entry path is canonical and stays inside any scope root it is joined to. -/
def Contained (evidence : Value F) : Prop :=
  ∀ item ∈ entryItems evidence, ∃ p, pathOf item = .str p ∧ Path.Canonical p ∧ Path.StaysInside p

/-- Accepted Evidence keeps its paths canonical and inside exactly when they are tidy. -/
theorem paths_contained_iff_tidy {evidence : Value F} (h : Accepts evidence) :
    Contained evidence ↔
      ∀ item ∈ entryItems evidence, ∀ p, pathOf item = .str p → tidy p = true := by
  refine forall₂_congr fun item hi => ?_
  have hsafe := safePath_of_accepts h item hi
  cases hp : pathOf item with
  | str p =>
    rw [hp] at hsafe
    have hiff := canonical_iff_tidy hsafe
    constructor
    · rintro ⟨q, hq, hc, -⟩ r hr
      rw [← Value.str.inj hr, Value.str.inj hq]
      rw [← Value.str.inj hq] at hc ⊢
      exact hiff.1 hc
    · intro ht
      have hc := hiff.2 (ht p rfl)
      exact ⟨p, rfl, hc, hc.staysInside⟩
  | _ => rw [hp] at hsafe; cases hsafe

/-! ## A path that escapes -/

/-- A directory at `./..`. -/
def escapingEntry : Entry Integral where
  field
    | .entryId => .str (Runtime.sha256 Integral (Text.utf8 (entryIdText (txt "a") (txt "s") (txt "./.."))))
    | .snapshotId => lit "a"
    | .scopeId => lit "s"
    | .relativePath => lit "./.."
    | _ => .none
  flag _ := false
  objectType := .directory
  observationStatus := .observed
  v2 := none

def escapingAcquisition : Acquisition Integral where
  snapshotId := txt "a"
  runId := lit "r"
  started := txt "t"
  completed := txt "t"
  configDigest := txt "c"
  scopeIds := [txt "s"]
  budget _ := .int 1
  entries := [escapingEntry]
  isPartial := false

theorem escapingEntry_observes : escapingEntry.Observes (txt "a") [txt "s"] where
  v1 := rfl
  wf := ⟨fun f => by cases f <;> rfl, fun v hv => by cases hv⟩
  safe := by
    refine safe_record fun k _ => ?_
    rcases k with f | f | _ | _ | _ | _
    · cases f
      case entryId => exact sha256_encodable _
      all_goals decide
    · rfl
    all_goals decide
  snapshotId := rfl
  located := ⟨txt "s", List.mem_cons_self, txt "./..", rfl, rfl, by decide, rfl⟩
  size := .inl rfl

theorem escapingAcquisition_writable : escapingAcquisition.Writable where
  snapshotId := by decide
  run := by decide
  started := by decide
  completed := by decide
  configDigest := by decide
  scopeIds := by decide
  budget _ := ⟨rfl, rfl⟩
  entries e he := by rw [List.mem_singleton.1 he]; exact escapingEntry_observes
  ordered := List.pairwise_singleton _ _

theorem pathOf_escaping : pathOf escapingEntry.toDict.sortKeys = lit "./.." :=
  escapingEntry_observes.keyOf_field .relativePath

/-- A built Snapshot with the one entry `./..` is accepted, and that path leaves its scope. -/
theorem path_escapes : ∃ s, createSnapshot escapingAcquisition = .ok s ∧ Accepts (plainEvidence s) ∧
    ¬ Contained (plainEvidence s) ∧ ¬ Path.StaysInside (txt "./..") := by
  obtain ⟨t, hs, hc⟩ := createSnapshot_coherent escapingAcquisition_writable
  refine ⟨_, hs, accepts_plainEvidence hc rfl, fun hcont => ?_, fun hin => ?_⟩
  · have hmem : escapingEntry.toDict.sortKeys ∈
        entryItems (plainEvidence (escapingAcquisition.snapshot t)) := by
      show _ ∈ elements (entriesOf (envelope _))
      rw [(publishes_plain hc rfl).entries]
      exact List.mem_cons_self
    obtain ⟨p, hp, hcan, -⟩ := hcont _ hmem
    rw [pathOf_escaping] at hp
    rw [← Value.str.inj hp] at hcan
    exact absurd hcan (by decide)
  · exact absurd (hin (txt "/r") (by decide)) (by decide)

theorem paths_contained_iff_tidy_escaping : ∃ s, createSnapshot escapingAcquisition = .ok s ∧
    (Contained (plainEvidence s) ↔ ∀ item ∈ entryItems (plainEvidence s), ∀ p,
      pathOf item = .str p → tidy p = true) := by
  obtain ⟨t, hs, hc⟩ := createSnapshot_coherent escapingAcquisition_writable
  exact ⟨_, hs, paths_contained_iff_tidy (accepts_plainEvidence hc rfl)⟩

end Steward
