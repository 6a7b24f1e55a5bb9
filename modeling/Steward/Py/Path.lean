import Steward.Py.Text

/-!
# Path texts

The components of a POSIX path, `posixpath.join`, and the names that
`posixpath.normpath` leaves of an absolute path. A component is found by the
four tests `==`, `startswith`, `in` and `endswith`.
-/

namespace Py

namespace Text

theorem startsWith_iff {s p : Text} : s.startsWith p = true ↔ ∃ t, s = p ++ t := by
  rw [startsWith, List.isPrefixOf_iff_prefix]
  exact exists_congr fun _ => eq_comm

theorem endsWith_iff {s p : Text} : s.endsWith p = true ↔ ∃ t, s = t ++ p := by
  rw [endsWith, List.isSuffixOf_iff_suffix]
  exact exists_congr fun _ => eq_comm

theorem hasInfix_iff {p s : Text} : hasInfix p s = true ↔ ∃ t u, s = t ++ p ++ u := by
  have key : hasInfix p s = true ↔ p <:+: s := by
    induction s with
    | nil => rw [hasInfix, List.isEmpty_iff, List.infix_nil]
    | cons c s ih => rw [hasInfix, Bool.or_eq_true, List.isPrefixOf_iff_prefix, ih, List.infix_cons_iff]
  rw [key]
  exact exists_congr fun _ => exists_congr fun _ => eq_comm

end Text

namespace Path

/-- `path.split("/")` -/
def components (path : Text) : List Text := path.splitOn (ch '/')

theorem components_append (s t : Text) :
    components (s ++ ch '/' :: t) = components s ++ components t :=
  List.splitOn_append_cons_self _ _

theorem components_name {x : Text} (h : ch '/' ∉ x) : components x = [x] :=
  List.splitOn_eq_singleton h

/-- A member of a joined list, with what stands around it. -/
theorem exists_of_mem_intercalate {x : Text} {cs : List Text} (h : x ∈ cs) :
    ∃ a b, [ch '/'].intercalate cs = a ++ x ++ b ∧ (a = [] ∨ ∃ a', a = a' ++ [ch '/']) ∧
      (b = [] ∨ ∃ b', b = ch '/' :: b') := by
  induction cs with
  | nil => cases h
  | cons c cs ih =>
    cases cs with
    | nil =>
      rw [List.mem_singleton.1 h]
      exact ⟨[], [], by simp, .inl rfl, .inl rfl⟩
    | cons d cs =>
      rw [List.intercalate_cons_cons]
      rcases List.mem_cons.1 h with rfl | h
      · exact ⟨[], ch '/' :: [ch '/'].intercalate (d :: cs), by simp, .inl rfl, .inr ⟨_, rfl⟩⟩
      · obtain ⟨a, b, hs, ha, hb⟩ := ih h
        refine ⟨c ++ [ch '/'] ++ a, b, by rw [hs]; simp, .inr ?_, hb⟩
        rcases ha with rfl | ⟨a', rfl⟩
        · exact ⟨c, by simp⟩
        · exact ⟨c ++ [ch '/'] ++ a', by simp⟩

/-- A component is the whole path, its start, a part of its middle or its end. -/
theorem mem_components {x s : Text} (h : ch '/' ∉ x) : x ∈ components s ↔
    s = x ∨ s.startsWith (x ++ [ch '/']) = true ∨ Text.hasInfix ([ch '/'] ++ x ++ [ch '/']) s = true ∨
      s.endsWith ([ch '/'] ++ x) = true := by
  rw [Text.startsWith_iff, Text.hasInfix_iff, Text.endsWith_iff]
  constructor
  · intro hx
    obtain ⟨a, b, hs, ha, hb⟩ := exists_of_mem_intercalate hx
    rw [components, List.intercalate_splitOn] at hs
    rcases ha with rfl | ⟨a, rfl⟩ <;> rcases hb with rfl | ⟨b, rfl⟩
    · exact .inl (by simpa using hs)
    · exact .inr (.inl ⟨b, by simpa using hs⟩)
    · exact .inr (.inr (.inr ⟨a, by simpa using hs⟩))
    · exact .inr (.inr (.inl ⟨a, b, by simpa using hs⟩))
  · have hx := components_name h
    rintro (rfl | ⟨t, rfl⟩ | ⟨t, u, rfl⟩ | ⟨t, rfl⟩)
    · rw [hx]; exact List.mem_singleton_self _
    · rw [List.append_assoc]
      show x ∈ components (x ++ ch '/' :: t)
      rw [components_append, hx]
      exact List.mem_append_left _ (List.mem_singleton_self _)
    · have : t ++ ([ch '/'] ++ x ++ [ch '/']) ++ u = t ++ ch '/' :: (x ++ ch '/' :: u) := by simp
      rw [this, components_append, components_append, hx]
      exact List.mem_append_right _ (List.mem_append_left _ (List.mem_singleton_self _))
    · show x ∈ components (t ++ ch '/' :: x)
      rw [components_append, hx]
      exact List.mem_append_right _ (List.mem_singleton_self _)

/-- The parts before and after one separator of a joined list. -/
theorem intercalate_append {x : CodePoint} {cs ds : List Text} (hcs : cs ≠ []) (hds : ds ≠ []) :
    [x].intercalate (cs ++ ds) = [x].intercalate cs ++ x :: [x].intercalate ds := by
  induction cs with
  | nil => exact absurd rfl hcs
  | cons c cs ih =>
    by_cases hnil : cs = []
    · rw [hnil, List.singleton_append, List.intercalate_cons_of_ne_nil hds, List.intercalate_singleton]
      simp
    · rw [List.cons_append, List.intercalate_cons_of_ne_nil (List.append_ne_nil_of_left_ne_nil hnil ds), ih hnil,
        List.intercalate_cons_of_ne_nil hnil]
      simp

/-- The components of a path begin with those of the paths that contain it. -/
theorem components_prefix {s t : Text} :
    components s <+: components t ↔ t = s ∨ t.startsWith (s ++ [ch '/']) = true := by
  constructor
  · rintro ⟨rest, hrest⟩
    have ht : [ch '/'].intercalate (components t) = t := List.intercalate_splitOn _
    have hs : [ch '/'].intercalate (components s) = s := List.intercalate_splitOn _
    have hne : components s ≠ [] := List.splitOn_ne_nil _ s
    cases rest with
    | nil =>
      rw [List.append_nil] at hrest
      exact .inl (by rw [← ht, ← hrest, hs])
    | cons c rest =>
      refine .inr (Text.startsWith_iff.2 ⟨[ch '/'].intercalate (c :: rest), ?_⟩)
      rw [← hrest, intercalate_append hne (List.cons_ne_nil c rest), hs] at ht
      simp [← ht]
  · rintro (rfl | h)
    · exact List.prefix_rfl
    · obtain ⟨u, rfl⟩ := Text.startsWith_iff.1 h
      rw [List.append_assoc]
      exact ⟨components u, (components_append s u).symm⟩

/-! ## Joining and normalizing -/

/-- One component of `normpath` on an absolute path; the innermost name comes first. -/
def descend (names : List Text) (c : Text) : List Text :=
  if c = [] ∨ c = txt "." then names
  else if c = txt ".." then names.tail
  else c :: names

/-- The names of `posixpath.normpath` of an absolute path, the innermost first. -/
def normalize (path : Text) : List Text := (components path).foldl descend []

/-- `posixpath.join(root, path)` -/
def join (root path : Text) : Text :=
  if path.startsWith (txt "/") then path
  else if root = [] ∨ root.endsWith (txt "/") = true then root ++ path
  else root ++ txt "/" ++ path

/-- The components of a relative path are taken from the normalized root on. -/
theorem normalize_join {root path : Text} (h : path.startsWith (txt "/") = false) :
    normalize (join root path) = (components path).foldl descend (normalize root) := by
  rw [join, if_neg (by rw [h]; exact Bool.false_ne_true)]
  split_ifs with hroot
  · rcases hroot with rfl | hroot
    · rfl
    · obtain ⟨t, rfl⟩ := Text.endsWith_iff.1 hroot
      have hempty : components [] = [[]] := components_name List.not_mem_nil
      have happ : t ++ txt "/" ++ path = t ++ ch '/' :: path := List.append_assoc _ _ _
      have hend : t ++ txt "/" = t ++ ch '/' :: [] := rfl
      rw [happ, hend, normalize, normalize, components_append, components_append, hempty,
        List.foldl_append, List.foldl_append]
      rfl
  · have happ : root ++ txt "/" ++ path = root ++ ch '/' :: path := List.append_assoc _ _ _
    rw [happ, normalize, components_append, List.foldl_append]
    rfl

/-- Under every absolute root, the normalized join is at or below the normalized root. -/
def StaysInside (path : Text) : Prop :=
  ∀ root, root.startsWith (txt "/") = true → normalize root <:+ normalize (join root path)

/-- `.`, or non-empty components joined by single `/`, none of them `.` or `..`. -/
def Canonical (path : Text) : Prop :=
  path = txt "." ∨ ∀ c ∈ components path, c ≠ [] ∧ c ≠ txt "." ∧ c ≠ txt ".."

instance (path : Text) : Decidable (Canonical path) := inferInstanceAs (Decidable (_ ∨ _))

theorem suffix_foldl_descend {cs : List Text} (h : ∀ c ∈ cs, c ≠ txt "..") (names : List Text) :
    names <:+ cs.foldl descend names := by
  induction cs generalizing names with
  | nil => exact List.suffix_rfl
  | cons c cs ih =>
    have hstep : names <:+ descend names c := by
      unfold descend
      split_ifs with hc hp
      · exact List.suffix_rfl
      · exact absurd hp (h c List.mem_cons_self)
      · exact List.suffix_cons _ _
    exact hstep.trans (ih (fun d hd => h d (List.mem_cons_of_mem _ hd)) _)

/-- A relative path without `..` never leaves its root. -/
theorem staysInside_of_no_parent {path : Text} (hrel : path.startsWith (txt "/") = false)
    (h : ∀ c ∈ components path, c ≠ txt "..") : StaysInside path := by
  intro root _
  rw [normalize_join hrel]
  exact suffix_foldl_descend h _

theorem Canonical.relative {path : Text} (h : Canonical path) : path.startsWith (txt "/") = false := by
  rcases h with rfl | h
  · decide
  · by_contra hs
    rw [Bool.not_eq_false] at hs
    have hmem : [] ∈ components path :=
      (mem_components List.not_mem_nil).2 (.inr (.inl hs))
    exact (h _ hmem).1 rfl

theorem Canonical.staysInside {path : Text} (h : Canonical path) : StaysInside path := by
  refine staysInside_of_no_parent h.relative fun c hc => ?_
  rcases h with rfl | h
  · rw [components_name (by decide), List.mem_singleton] at hc
    rw [hc]
    decide
  · exact (h c hc).2.2

end Path

end Py
