import Steward.Py.Path
import Steward.Py.Lines

/-!
# Pure POSIX paths

`PurePosixPath(s)`: the root of `s` and its names, which are the components
other than the empty one and `.`. `..` is kept: a pure path looks nothing up.
-/

namespace Py

namespace PurePath

/-- `//` is a root of its own, more slashes are one. -/
def root (s : Text) : Text :=
  if s.startsWith (txt "//") ∧ ¬ s.startsWith (txt "///") then txt "//"
  else if s.startsWith (txt "/") then txt "/"
  else []

def names (s : Text) : List Text := (Path.components s).filter fun c => c ≠ [] ∧ c ≠ txt "."

/-- `PurePosixPath(s).parts` -/
def parts (s : Text) : List Text := if root s = [] then names s else root s :: names s

/-- `PurePosixPath(s).as_posix()` -/
def asPosix (s : Text) : Text :=
  if root s = [] ∧ names s = [] then txt "." else root s ++ [ch '/'].intercalate (names s)

theorem mem_names {s c : Text} (h : c ∈ names s) :
    c ∈ Path.components s ∧ c ≠ [] ∧ c ≠ txt "." := by
  simpa [names] using h

theorem mem_intercalate {x : CodePoint} {cs : List Text} (hx : x ≠ ch '/')
    (h : x ∈ [ch '/'].intercalate cs) : ∃ c ∈ cs, x ∈ c := by
  induction cs with
  | nil => simp at h
  | cons c cs ih =>
    cases cs with
    | nil => exact ⟨c, List.mem_singleton_self _, by simpa using h⟩
    | cons d cs =>
      rw [List.intercalate_cons_cons, List.mem_append, List.mem_append] at h
      rcases h with (h | h) | h
      · exact ⟨c, List.mem_cons_self, h⟩
      · exact absurd (List.mem_singleton.1 h) hx
      · obtain ⟨e, he, hxe⟩ := ih h
        exact ⟨e, List.mem_cons_of_mem _ he, hxe⟩

theorem mem_intercalate_of_mem {x : CodePoint} {c : Text} {cs : List Text} (hc : c ∈ cs)
    (hx : x ∈ c) : x ∈ [ch '/'].intercalate cs := by
  obtain ⟨a, b, h, -, -⟩ := Path.exists_of_mem_intercalate hc
  rw [h]
  exact List.mem_append_left _ (List.mem_append_right _ hx)

theorem slash_notMem_name {s c : Text} (h : c ∈ names s) : ch '/' ∉ c := by
  intro hc
  have hcomp : c ∈ s.splitOnP (· == ch '/') := (mem_names h).1
  simpa using (Lines.mem_splitOnP hcomp (ch '/') hc).2

theorem root_eq_nil {s : Text} : root s = [] ↔ s.startsWith (txt "/") = false := by
  unfold root
  split_ifs with h2 h1
  · have hs : s.startsWith (txt "/") = true := by
      obtain ⟨t, rfl⟩ := Text.startsWith_iff.1 h2.1
      exact Text.startsWith_iff.2 ⟨txt "/" ++ t, rfl⟩
    rw [hs]
    exact iff_of_false (by decide) (by decide)
  · rw [h1]
    exact iff_of_false (by decide) (by decide)
  · simpa using h1

/-- Joined names split into the same names. -/
theorem components_intercalate {ns : List Text} (h : ∀ n ∈ ns, ch '/' ∉ n) (hne : ns ≠ []) :
    Path.components ([ch '/'].intercalate ns) = ns :=
  List.splitOn_intercalate _ h hne

theorem names_relative {s : Text} (hr : root s = []) : names (asPosix s) = names s := by
  by_cases hn : names s = []
  · rw [asPosix, if_pos ⟨hr, hn⟩, hn]; decide
  · rw [asPosix, if_neg (fun h => hn h.2), hr, List.nil_append, names,
      components_intercalate (fun n h => slash_notMem_name h) hn, List.filter_eq_self]
    intro c hc
    simpa using (mem_names hc).2

theorem startsWith_relative {s : Text} (hr : root s = []) :
    (asPosix s).startsWith (txt "/") = false := by
  by_cases hn : names s = []
  · rw [asPosix, if_pos ⟨hr, hn⟩]; decide
  · rw [asPosix, if_neg (fun h => hn h.2), hr, List.nil_append]
    cases hs : names s with
    | nil => exact absurd hs hn
    | cons c cs =>
      have hc := mem_names (s := s) (c := c) (by rw [hs]; exact List.mem_cons_self)
      have hslash := slash_notMem_name (s := s) (c := c) (by rw [hs]; exact List.mem_cons_self)
      obtain ⟨x, c, rfl⟩ := List.exists_cons_of_ne_nil hc.2.1
      have hx : ch '/' ≠ x := fun h => hslash (h ▸ List.mem_cons_self)
      cases cs <;> simp [Text.startsWith, txt, List.intercalate_cons_cons, List.isPrefixOf, hx]

theorem startsWith_asPosix (s : Text) :
    (asPosix s).startsWith (txt "/") = s.startsWith (txt "/") := by
  by_cases hr : root s = []
  · rw [startsWith_relative hr, root_eq_nil.1 hr]
  · have hs : s.startsWith (txt "/") = true := by
      rw [← Bool.not_eq_false]; exact fun h => hr (root_eq_nil.2 h)
    rw [asPosix, if_neg (fun h => hr h.1), hs]
    unfold root at hr ⊢
    split_ifs at hr ⊢ with h1
    · exact Text.startsWith_iff.2 ⟨txt "/" ++ _, rfl⟩
    · exact Text.startsWith_iff.2 ⟨_, rfl⟩

theorem asPosix_ne_nil (s : Text) : asPosix s ≠ [] := by
  unfold asPosix
  split_ifs with h
  · exact List.cons_ne_nil _ _
  · intro hnil
    obtain ⟨hr, hjoin⟩ := List.append_eq_nil_iff.1 hnil
    obtain ⟨c, cs, hc⟩ := List.exists_cons_of_ne_nil fun hn => h ⟨hr, hn⟩
    have hmem : c ∈ names s := by rw [hc]; exact List.mem_cons_self
    obtain ⟨x, c', hx⟩ := List.exists_cons_of_ne_nil (mem_names hmem).2.1
    have := mem_intercalate_of_mem hmem (hx ▸ List.mem_cons_self : x ∈ c)
    rw [hjoin] at this
    cases this

/-- A pure path keeps every character of its text, but for some `/` and `.`. -/
theorem mem_asPosix {s : Text} {x : CodePoint} (h : x ∈ s) (hs : x ≠ ch '/') (hd : x ≠ ch '.') :
    x ∈ asPosix s := by
  rw [← @List.intercalate_splitOn _ s _ _ (ch '/')] at h
  obtain ⟨c, hc, hx⟩ := mem_intercalate hs h
  have hdot : c ≠ txt "." := by rintro rfl; exact hd (by simpa [txt] using hx)
  have hname : c ∈ names s := List.mem_filter.2 ⟨hc, by simpa using ⟨List.ne_nil_of_mem hx, hdot⟩⟩
  rw [asPosix, if_neg (fun h => by rw [h.2] at hname; cases hname)]
  exact List.mem_append_right _ (mem_intercalate_of_mem hname hx)

/-- And it adds no other. -/
theorem mem_of_mem_asPosix {s : Text} {x : CodePoint} (h : x ∈ asPosix s) (hs : x ≠ ch '/')
    (hd : x ≠ ch '.') : x ∈ s := by
  have hroot : x ∉ root s := by
    unfold root
    split_ifs <;> simp [txt, hs]
  unfold asPosix at h
  split_ifs at h with hdot
  · exact absurd (by simpa [txt] using h) hd
  · obtain ⟨c, hc, hx⟩ := mem_intercalate hs ((List.mem_append.1 h).resolve_left hroot)
    exact (Lines.mem_splitOnP (mem_names hc).1 x hx).1

end PurePath

end Py
