import Steward.Py.Json

/-!
# Round trip

`loads (render st v) = some v` for safe, well-formed `v`. Each scanner is shown
to read back what its printer wrote, before any text that stops it.
-/

namespace Py

namespace Json

open Text

variable {F : Type} [PyFloat F]

/-! ## Strings -/

theorem hexVal_hexDigit (n : Nat) : hexVal (hexDigit n) = some (n % 16) := by
  have := Nat.mod_lt n (by decide : 16 > 0)
  unfold hexDigit hexVal
  split_ifs <;> simp_all <;> omega

theorem scanHex4_escape {n : Nat} (h : n < 65536) (s : Text) :
    scanHex4 (hexDigit (n / 4096) :: hexDigit (n / 256) :: hexDigit (n / 16) :: hexDigit n :: s) =
      some (n, s) := by
  simp only [scanHex4, hexVal_hexDigit, Option.pure_def, Option.bind_eq_bind, Option.bind_some,
    Option.some.injEq, Prod.mk.injEq, and_true]
  omega

theorem point_val (c : CodePoint) : point c.val = c := by
  apply Fin.ext; simp [point]

theorem scanEscape_unicode {n : Nat} (h : n < 65536) (hs : ¬ (0xD800 ≤ n ∧ n ≤ 0xDBFF)) (s : Text) :
    scanEscape ((unicodeEscape n).tail ++ s) = some (point n, s) := by
  simp only [unicodeEscape, List.tail_cons, List.cons_append, List.nil_append, scanEscape, if_pos,
    scanHex4_escape h, Option.map_some, if_neg hs]

/-- A surrogate pair of escapes is one character. -/
theorem scanEscape_pair {m : Nat} (h : m < 0x100000) (s : Text) :
    scanEscape ((unicodeEscape (0xD800 + m / 1024)).tail ++
      (unicodeEscape (0xDC00 + m % 1024) ++ s)) = some (point (0x10000 + m), s) := by
  have h1 : 0xD800 + m / 1024 < 65536 := by omega
  have h2 : 0xDC00 + m % 1024 < 65536 := by omega
  have h3 : 0xD800 ≤ 0xD800 + m / 1024 ∧ 0xD800 + m / 1024 ≤ 0xDBFF := by omega
  have h4 : 0xDC00 ≤ 0xDC00 + m % 1024 ∧ 0xDC00 + m % 1024 ≤ 0xDFFF := by omega
  have h5 : 0x10000 + 1024 * (0xD800 + m / 1024 - 0xD800) + (0xDC00 + m % 1024 - 0xDC00) =
      0x10000 + m := by omega
  have hlow : scanLow (unicodeEscape (0xDC00 + m % 1024) ++ s) = some (0xDC00 + m % 1024, s) := by
    rw [unicodeEscape]
    simp only [List.cons_append, List.nil_append, scanLow, and_self, if_pos, scanHex4_escape h2]
    rw [Option.filter_some, if_pos (decide_eq_true h4)]
  rw [unicodeEscape]
  simp only [List.tail_cons, List.cons_append, List.nil_append, scanEscape, if_pos,
    scanHex4_escape h1, Option.map_some, if_pos h3, hlow, h5]

theorem unicodeEscape_eq (n : Nat) : unicodeEscape n = ch '\\' :: (unicodeEscape n).tail := rfl

/-- `p` prints `c` in a string: the character itself, or a backslash and an escape that reads
back. -/
def Prints (p : Text) (c : CodePoint) : Prop :=
  (p = [c] ∧ c ≠ ch '"' ∧ c ≠ ch '\\' ∧ ¬ c.val < 0x20) ∨
    ∃ t, p = ch '\\' :: t ∧ ∀ s, scanEscape (t ++ s) = some (c, s)

theorem prints_escapePoint (ascii : Bool) {c : CodePoint} (hc : isSurrogate c = false) :
    Prints (escapePoint ascii c) c := by
  have hlt := c.isLt
  have hsur : ¬ (0xD800 ≤ c.val ∧ c.val ≤ 0xDFFF) := by
    simp only [isSurrogate, Bool.and_eq_false_iff, decide_eq_false_iff_not] at hc; omega
  rw [escapePoint]
  by_cases h1 : c = ch '"'
  · rw [if_pos h1, h1]; exact .inr ⟨_, rfl, fun s => rfl⟩
  by_cases h2 : c = ch '\\'
  · rw [if_neg h1, if_pos h2, h2]; exact .inr ⟨_, rfl, fun s => rfl⟩
  by_cases h3 : c = ch '\n'
  · rw [if_neg h1, if_neg h2, if_pos h3, h3]; exact .inr ⟨_, rfl, fun s => rfl⟩
  by_cases h4 : c = ch '\r'
  · rw [if_neg h1, if_neg h2, if_neg h3, if_pos h4, h4]; exact .inr ⟨_, rfl, fun s => rfl⟩
  by_cases h5 : c = ch '\t'
  · rw [if_neg h1, if_neg h2, if_neg h3, if_neg h4, if_pos h5, h5]
    exact .inr ⟨_, rfl, fun s => rfl⟩
  rw [if_neg h1, if_neg h2, if_neg h3, if_neg h4, if_neg h5]
  by_cases h6 : c.val = 8
  · have hc : c = point 8 := by rw [← point_val c, h6]
    rw [if_pos h6, hc]; exact .inr ⟨_, rfl, fun s => rfl⟩
  by_cases h7 : c.val = 12
  · have hc : c = point 12 := by rw [← point_val c, h7]
    rw [if_neg h6, if_pos h7, hc]; exact .inr ⟨_, rfl, fun s => rfl⟩
  rw [if_neg h6, if_neg h7]
  by_cases h8 : c.val < 0x20
  · rw [if_pos h8]
    exact .inr ⟨_, unicodeEscape_eq _, fun s => by
      rw [scanEscape_unicode (by omega) (by omega), point_val]⟩
  rw [if_neg h8]
  by_cases h9 : ascii ∧ 0x7f ≤ c.val
  · rw [if_pos h9]
    by_cases h10 : c.val < 0x10000
    · rw [if_pos h10]
      exact .inr ⟨_, unicodeEscape_eq _, fun s => by
        rw [scanEscape_unicode h10 (by omega), point_val]⟩
    · rw [if_neg h10]
      refine .inr ⟨(unicodeEscape (0xD800 + (c.val - 0x10000) / 1024)).tail ++
        unicodeEscape (0xDC00 + (c.val - 0x10000) % 1024), rfl, fun s => ?_⟩
      rw [List.append_assoc, scanEscape_pair (by omega),
        show 0x10000 + (c.val - 0x10000) = c.val by omega, point_val]
  · rw [if_neg h9]
    exact .inl ⟨rfl, h1, h2, h8⟩

/-- What prints each character prints the string. -/
theorem parseBody_flatMap {f : CodePoint → Text} {s : Text} (hs : ∀ c ∈ s, Prints (f c) c) (rest : Text)
    {n : Nat} (hn : s.length < n) : parseBody n (s.flatMap f ++ ch '"' :: rest) = some (s, rest) := by
  induction s generalizing n with
  | nil =>
    obtain ⟨n, rfl⟩ : ∃ m, n = m + 1 := ⟨n - 1, by simp at hn; omega⟩
    rfl
  | cons c s ih =>
    obtain ⟨hc, hs⟩ := List.forall_mem_cons.1 hs
    obtain ⟨n, rfl⟩ : ∃ m, n = m + 1 := ⟨n - 1, by simp at hn; omega⟩
    have ih := ih hs (n := n) (by simp at hn; omega)
    rw [List.flatMap_cons, List.append_assoc]
    rcases hc with ⟨he, h1, h2, h3⟩ | ⟨t, he, hscan⟩
    · rw [he, List.singleton_append, parseBody, if_neg h1, if_neg h2, if_neg h3, ih]; rfl
    · rw [he, List.cons_append, parseBody, if_neg (by decide), if_pos rfl, hscan, Option.bind_some, ih]
      rfl

theorem parseBody_quote {ascii : Bool} {s : Text} (hs : s.encodable = true) (rest : Text) {n : Nat}
    (hn : s.length < n) :
    parseBody n (s.flatMap (escapePoint ascii) ++ ch '"' :: rest) = some (s, rest) := by
  refine parseBody_flatMap (fun c hc => prints_escapePoint ascii ?_) rest hn
  simpa using List.all_eq_true.1 hs c hc

theorem escapePoint_ne_nil (ascii : Bool) (c : CodePoint) : escapePoint ascii c ≠ [] := by
  unfold escapePoint unicodeEscape
  split_ifs <;> simp

theorem length_le_flatMap {f : CodePoint → Text} {s : Text} (h : ∀ c ∈ s, f c ≠ []) :
    s.length ≤ (s.flatMap f).length := by
  induction s with
  | nil => simp
  | cons c s ih =>
    obtain ⟨hc, hs⟩ := List.forall_mem_cons.1 h
    have hpos := List.length_pos_of_ne_nil hc
    have hle := ih hs
    simp only [List.flatMap_cons, List.length_append, List.length_cons]
    omega

theorem length_le_escape (ascii : Bool) (s : Text) : s.length ≤ (s.flatMap (escapePoint ascii)).length :=
  length_le_flatMap fun c _ => escapePoint_ne_nil ascii c

theorem parseBody_quote_self {st : Style} {s : Text} (hs : s.encodable = true) (rest : Text) :
    parseBody ((s.flatMap (escapePoint st.ascii) ++ ch '"' :: rest).length + 1)
      (s.flatMap (escapePoint st.ascii) ++ ch '"' :: rest) = some (s, rest) := by
  refine parseBody_quote hs rest ?_
  have := length_le_escape st.ascii s
  simp only [List.length_append, List.length_cons]
  omega

theorem quote_append (st : Style) (s rest : Text) :
    quote st s ++ rest = ch '"' :: (s.flatMap (escapePoint st.ascii) ++ ch '"' :: rest) := by
  simp [quote]

/-! ## Atoms -/

theorem scanNumber_head {s r : Text} {n : Number} (h : scanNumber s = some (n, r)) :
    ∃ c t, s = c :: t ∧ (isDigit c = true ∨ c = ch '-' ∧ ∃ d u, t = d :: u ∧ isDigit d = true) := by
  have unsigned : ∀ {b : Bool} {s r : Text} {n : Number}, scanUnsigned b s = some (n, r) →
      ∃ d u, s = d :: u ∧ isDigit d = true := by
    intro b s r n h
    obtain ⟨i, hi, -⟩ := Option.map_eq_some_iff.1 h
    cases s with
    | nil => cases hi
    | cons d u =>
      refine ⟨d, u, rfl, ?_⟩
      rw [scanNat] at hi
      split_ifs at hi with h0 hd
      · subst h0; decide
      · exact hd
  cases s with
  | nil => cases h
  | cons c t =>
    refine ⟨c, t, rfl, ?_⟩
    rw [scanNumber] at h
    split_ifs at h with hc
    · exact .inr ⟨hc, unsigned h⟩
    · obtain ⟨d, u, hd, hdig⟩ := unsigned h
      cases hd
      exact .inl hdig

theorem literal_eq_none {p s : Text} {a c : CodePoint} {p' t : Text} (hp : p = a :: p')
    (hs : s = c :: t) (h : a ≠ c) : literal p s = none := by
  subst hp hs
  rw [literal, if_neg]
  simp [List.isPrefixOf, h]

/-- A number is none of the literals. -/
theorem parseAtom_number {s r : Text} {n : Number} (h : scanNumber s = some (n, r)) :
    parseAtom (F := F) s = some (number n, r) := by
  obtain ⟨c, t, hs, hc⟩ := scanNumber_head h
  have hne (a : CodePoint) (ha : isDigit a = false) (hm : a ≠ ch '-') : a ≠ c := by
    rintro rfl
    rcases hc with hc | ⟨hc, -⟩
    · rw [ha] at hc; cases hc
    · exact hm hc
  have hinf : literal (txt "-Infinity") s = none := by
    rcases hc with hc | ⟨-, d, u, hd, hdig⟩
    · refine literal_eq_none (a := ch '-') rfl hs ?_
      rintro rfl; exact absurd hc (by decide)
    · subst hs hd
      rw [literal, if_neg]
      intro hp
      have hp' : (txt "-Infinity").isPrefixOf (c :: d :: u) =
        ((ch '-' == c) && ((ch 'I' == d) && (txt "nfinity").isPrefixOf u)) := rfl
      rw [hp', Bool.and_eq_true, Bool.and_eq_true, beq_iff_eq, beq_iff_eq] at hp
      rw [← hp.2.1] at hdig
      exact absurd hdig (by decide)
  rw [parseAtom,
    literal_eq_none (p := txt "null") (a := ch 'n') rfl hs (hne _ (by decide) (by decide)),
    literal_eq_none (p := txt "true") (a := ch 't') rfl hs (hne _ (by decide) (by decide)),
    literal_eq_none (p := txt "false") (a := ch 'f') rfl hs (hne _ (by decide) (by decide)),
    literal_eq_none (p := txt "NaN") (a := ch 'N') rfl hs (hne _ (by decide) (by decide)),
    literal_eq_none (p := txt "Infinity") (a := ch 'I') rfl hs (hne _ (by decide) (by decide)),
    hinf, h]
  rfl

theorem not_opener_of_number {s r : Text} {n : Number} (h : scanNumber s = some (n, r)) (m : Nat) :
    parseValue (F := F) (m + 1) s = parseAtom s := by
  obtain ⟨c, t, rfl, hc⟩ := scanNumber_head h
  have hne (a : CodePoint) (ha : isDigit a = false) (hm : a ≠ ch '-') : c ≠ a := by
    rintro rfl
    rcases hc with hc | ⟨hc, -⟩
    · rw [ha] at hc; cases hc
    · exact hm hc
  rw [parseValue, if_neg (hne _ (by decide) (by decide)), if_neg (hne _ (by decide) (by decide)),
    if_neg (hne _ (by decide) (by decide))]

theorem literal_self (p rest : Text) : literal p (p ++ rest) = some rest := by
  have h : p.isPrefixOf (p ++ rest) = true := List.isPrefixOf_iff_prefix.2 (List.prefix_append p rest)
  rw [literal, if_pos h, List.drop_left]

/-- Text that no printed value is continued by. -/
theorem stop_of_head {c : CodePoint} {s : Text}
    (h : c = ch ',' ∨ c = ch ']' ∨ c = ch '}') : Stop (c :: s) := by
  intro d hd
  cases hd
  rcases h with rfl | rfl | rfl <;> decide

/-! ## What a printed value starts with -/

/-- The first character of a printed value. -/
def Opens (t : Text) : Prop := ∃ c s, t = c :: s ∧ isWs c = false ∧ c ≠ ch ']'

theorem opens_of_number {s r : Text} {n : Number} (h : scanNumber s = some (n, r)) : Opens s := by
  obtain ⟨c, t, rfl, hc⟩ := scanNumber_head h
  refine ⟨c, t, rfl, ?_⟩
  have hne (a : CodePoint) (ha : isDigit a = false) (hm : a ≠ ch '-') : c ≠ a := by
    rintro rfl
    rcases hc with hc | ⟨hc, -⟩
    · rw [ha] at hc; cases hc
    · exact hm hc
  refine ⟨?_, hne _ (by decide) (by decide)⟩
  simp [isWs, hne (ch ' ') (by decide) (by decide), hne (ch '\t') (by decide) (by decide),
    hne (ch '\n') (by decide) (by decide), hne (ch '\r') (by decide) (by decide)]

theorem floatText_finite {x : F} (h : PyFloat.isFinite x = true) : floatText x = PyFloat.repr x :=
  if_pos h

theorem opens_render (st : Style) {v : Value F} (hv : v.safe = true) : Opens (render st v) := by
  cases v with
  | none => exact ⟨_, _, rfl, by decide, by decide⟩
  | bool b => cases b <;> exact ⟨_, _, rfl, by decide, by decide⟩
  | int n => obtain ⟨l, hl, -⟩ := scanNumber_ofInt n; exact opens_of_number hl
  | float x =>
    have hx : PyFloat.isFinite x = true := hv
    obtain ⟨l, hl, -⟩ := PyFloat.repr_scan x hx
    rw [render, floatText_finite hx]
    exact opens_of_number hl
  | str s => exact ⟨_, _, rfl, by decide, by decide⟩
  | list xs => exact ⟨_, _, rfl, by decide, by decide⟩
  | dict fs => exact ⟨_, _, rfl, by decide, by decide⟩

theorem skipWs_opens {t : Text} (h : Opens t) (rest : Text) : skipWs (t ++ rest) = t ++ rest := by
  obtain ⟨c, s, rfl, hw, -⟩ := h
  exact skipWs_cons hw _

theorem skipWs_comma (st : Style) {t : Text} (ht : ∀ rest, skipWs (t ++ rest) = t ++ rest)
    (rest : Text) : ∃ r, st.comma ++ (t ++ rest) = ch ',' :: r ∧ skipWs r = t ++ rest := by
  cases hs : st.spaced with
  | false => exact ⟨t ++ rest, by simp [Style.comma, hs]; rfl, ht rest⟩
  | true =>
    refine ⟨ch ' ' :: (t ++ rest), by simp [Style.comma, hs]; rfl, ?_⟩
    rw [skipWs, List.dropWhile_cons_of_pos (by decide)]
    exact ht rest

theorem skipWs_colon (st : Style) {t : Text} (ht : ∀ rest, skipWs (t ++ rest) = t ++ rest)
    (rest : Text) : ∃ r, st.colon ++ (t ++ rest) = ch ':' :: r ∧ skipWs r = t ++ rest := by
  cases hs : st.spaced with
  | false => exact ⟨t ++ rest, by simp [Style.colon, hs]; rfl, ht rest⟩
  | true =>
    refine ⟨ch ' ' :: (t ++ rest), by simp [Style.colon, hs]; rfl, ?_⟩
    rw [skipWs, List.dropWhile_cons_of_pos (by decide)]
    exact ht rest

/-! ## Containers -/

theorem renderList_eq (st : Style) (xs : List (Value F)) : renderList st xs = xs.map (render st) := by
  induction xs with
  | nil => rfl
  | cons x xs ih => rw [renderList, ih]; rfl

def renderField (st : Style) (f : Text × Value F) : Text := quote st f.1 ++ st.colon ++ render st f.2

theorem renderFields_eq (st : Style) (fs : List (Text × Value F)) :
    renderFields st fs = fs.map (renderField st) := by
  induction fs with
  | nil => rfl
  | cons f fs ih => rw [renderFields, ih]; rfl

theorem join_cons_cons (sep t u : Text) (ts : List Text) :
    join sep (t :: u :: ts) = t ++ sep ++ join sep (u :: ts) := rfl

/-- `v` reads back from its text, given fuel for that text. -/
def Reads (st : Style) (v : Value F) : Prop :=
  ∀ (n : Nat) (rest : Text), (render st v).length < n → Stop rest →
    parseValue n (render st v ++ rest) = some (v, rest)

theorem parseElements_join (st : Style) {xs : List (Value F)} (hne : xs ≠ [])
    (hsafe : ∀ x ∈ xs, x.safe = true) (hr : ∀ x ∈ xs, Reads st x) (n : Nat) (rest : Text)
    (hn : (join st.comma (xs.map (render st))).length + 1 < n) :
    parseElements n (join st.comma (xs.map (render st)) ++ ch ']' :: rest) = some (xs, rest) := by
  induction xs generalizing n with
  | nil => exact absurd rfl hne
  | cons x xs ih =>
    obtain ⟨n, rfl⟩ : ∃ m, n = m + 1 := ⟨n - 1, by omega⟩
    have hx := hr x List.mem_cons_self
    cases xs with
    | nil =>
      simp only [List.map_cons, List.map_nil, join] at hn ⊢
      rw [parseElements, hx n _ (by omega) (stop_of_head (.inr (.inl rfl))), Option.bind_some,
        skipWs_cons (by decide)]
      rfl
    | cons y ys =>
      have hopen : ∀ rest, skipWs (join st.comma ((y :: ys).map (render st)) ++ rest) =
          join st.comma ((y :: ys).map (render st)) ++ rest := by
        intro rest
        have ho := opens_render st (hsafe y (by simp))
        cases ys with
        | nil => exact skipWs_opens ho rest
        | cons z zs =>
          rw [List.map_cons, List.map_cons, join_cons_cons, List.append_assoc, List.append_assoc]
          exact skipWs_opens ho _
      obtain ⟨r, hcomma, hskip⟩ := skipWs_comma st hopen (ch ']' :: rest)
      have hlen : 1 ≤ st.comma.length := by
        unfold Style.comma; split_ifs <;> decide
      have hstart := List.length_pos_of_ne_nil (l := render st x) (by
        obtain ⟨c, s, hc, -⟩ := opens_render st (hsafe x List.mem_cons_self)
        rw [hc]; simp)
      rw [List.map_cons, List.map_cons, join_cons_cons] at hn ⊢
      rw [List.length_append, List.length_append] at hn
      have hih := ih (by simp) (fun z hz => hsafe z (List.mem_cons_of_mem _ hz))
        (fun z hz => hr z (List.mem_cons_of_mem _ hz)) n (by rw [List.map_cons]; omega)
      rw [← List.map_cons, List.append_assoc, List.append_assoc, hcomma, parseElements,
        hx n _ (by omega) (stop_of_head (.inl rfl)), Option.bind_some]
      dsimp only
      rw [skipWs_cons (by decide)]
      dsimp only
      rw [if_neg (by decide), if_pos rfl, hskip, hih]
      rfl

theorem parseKey_quote (st : Style) {k : Text} (hk : k.encodable = true) {t : Text}
    (ht : ∀ rest, skipWs (t ++ rest) = t ++ rest) (rest : Text) :
    parseKey (quote st k ++ (st.colon ++ (t ++ rest))) = some (k, t ++ rest) := by
  obtain ⟨r, hcolon, hskip⟩ := skipWs_colon st ht rest
  rw [hcolon, quote_append, parseKey, if_pos rfl, parseBody_quote_self hk, Option.bind_some]
  dsimp only
  rw [skipWs_cons (by decide)]
  dsimp only
  rw [if_pos rfl, hskip]

theorem parseMembers_join (st : Style) {fs : List (Text × Value F)} (hne : fs ≠ [])
    (hkeys : ∀ f ∈ fs, f.1.encodable = true) (hsafe : ∀ f ∈ fs, f.2.safe = true)
    (hr : ∀ f ∈ fs, Reads st f.2) (n : Nat) (rest : Text)
    (hn : (join st.comma (fs.map (renderField st))).length + 1 < n) :
    parseMembers n (join st.comma (fs.map (renderField st)) ++ ch '}' :: rest) = some (fs, rest) := by
  induction fs generalizing n with
  | nil => exact absurd rfl hne
  | cons f fs ih =>
    obtain ⟨n, rfl⟩ : ∃ m, n = m + 1 := ⟨n - 1, by omega⟩
    have hf := hr f List.mem_cons_self
    have hkey (rest : Text) : parseKey (renderField st f ++ rest) = some (f.1, render st f.2 ++ rest) := by
      rw [renderField, List.append_assoc, List.append_assoc]
      exact parseKey_quote st (hkeys f List.mem_cons_self)
        (skipWs_opens (opens_render st (hsafe f List.mem_cons_self))) rest
    have hflen : (render st f.2).length < (renderField st f).length := by
      simp only [renderField, quote, List.length_append, List.length_cons]; omega
    cases fs with
    | nil =>
      simp only [List.map_cons, List.map_nil, join] at hn ⊢
      rw [parseMembers, hkey, Option.bind_some]
      dsimp only
      rw [hf n _ (by omega) (stop_of_head (.inr (.inr rfl))), Option.bind_some,
        skipWs_cons (by decide)]
      rfl
    | cons g gs =>
      have hopen : ∀ rest, skipWs (join st.comma ((g :: gs).map (renderField st)) ++ rest) =
          join st.comma ((g :: gs).map (renderField st)) ++ rest := by
        intro rest
        cases gs <;> exact skipWs_cons (c := ch '"') (by decide) _
      obtain ⟨r, hcomma, hskip⟩ := skipWs_comma st hopen (ch '}' :: rest)
      have hlen : 1 ≤ st.comma.length := by
        unfold Style.comma; split_ifs <;> decide
      rw [List.map_cons, List.map_cons, join_cons_cons] at hn ⊢
      rw [List.length_append, List.length_append] at hn
      have hih := ih (by simp) (fun z hz => hkeys z (List.mem_cons_of_mem _ hz))
        (fun z hz => hsafe z (List.mem_cons_of_mem _ hz))
        (fun z hz => hr z (List.mem_cons_of_mem _ hz)) n (by rw [List.map_cons]; omega)
      rw [← List.map_cons, List.append_assoc, List.append_assoc, hcomma, parseMembers, hkey,
        Option.bind_some]
      dsimp only
      rw [hf n _ (by omega) (stop_of_head (.inl rfl)), Option.bind_some]
      dsimp only
      rw [skipWs_cons (by decide)]
      dsimp only
      rw [if_neg (by decide), if_pos rfl, hskip, hih]
      rfl

omit [PyFloat F] in
theorem ofPairs_nodup {fs : List (Text × Value F)} (h : (keys fs).Nodup) : ofPairs fs = fs := by
  have key : ∀ (gs hs : List (Text × Value F)), (keys (gs ++ hs)).Nodup →
      hs.foldl (fun fs p => assign fs p.1 p.2) gs = gs ++ hs := by
    intro gs hs
    induction hs generalizing gs with
    | nil => intro _; simp
    | cons p hs ih =>
      intro hnd
      have hp : p.1 ∉ keys gs := by
        rw [keys, List.map_append, List.nodup_append] at hnd
        exact fun hmem => hnd.2.2 _ hmem _ (by simp) rfl
      rw [List.foldl_cons, assign, if_neg hp, ih _ (by simpa using hnd)]
      simp
  simpa [ofPairs] using key [] fs (by simpa using h)

theorem reads (st : Style) {v : Value F} (hs : v.safe = true) (hw : v.wf = true) : Reads st v := by
  induction v using Value.induct with
  | none =>
    rintro (_ | n) rest hn -
    · cases hn
    · rfl
  | bool b =>
    rintro (_ | n) rest hn -
    · cases hn
    · cases b <;> rfl
  | int m =>
    rintro (_ | n) rest hn hstop
    · cases hn
    · obtain ⟨l, hl, hf, hi⟩ := scanNumber_ofInt m
      have := scanNumber_append hstop hl
      rw [render, not_opener_of_number this, parseAtom_number this, number, hf, hi]; rfl
  | float x =>
    rintro (_ | n) rest hn hstop
    · cases hn
    · have hx : PyFloat.isFinite x = true := hs
      obtain ⟨l, hl, hf, ht⟩ := PyFloat.repr_scan x hx
      have := scanNumber_append hstop hl
      rw [render, floatText_finite hx, not_opener_of_number this, parseAtom_number this, number, hf,
        ht, if_pos rfl, PyFloat.ofLiteral_repr x hx]
      rfl
  | str s =>
    rintro (_ | n) rest hn -
    · cases hn
    · rw [render, quote_append, parseValue, if_pos rfl, parseBody_quote_self hs]; rfl
  | list xs ih =>
    rintro (_ | n) rest hn -
    · cases hn
    · rw [Value.safe_list] at hs
      rw [Value.wf_list] at hw
      rw [render, List.length_cons, List.length_append, renderList_eq] at hn
      rw [render, renderList_eq, List.cons_append, List.append_assoc, List.singleton_append, parseValue,
        if_neg (by decide), if_neg (by decide), if_pos rfl]
      rcases List.eq_nil_or_concat xs with rfl | hne
      · rfl
      · have hne : xs ≠ [] := by rintro rfl; simp at hne
        have hparse := parseElements_join st hne hs (fun x hx => ih x hx (hs x hx) (hw x hx)) n rest
          (by simp at hn; omega)
        obtain ⟨y, ys, rfl⟩ := List.exists_cons_of_ne_nil hne
        have ho : Opens (join st.comma ((y :: ys).map (render st))) := by
          obtain ⟨c, s, hc, hw', hb⟩ := opens_render st (hs y List.mem_cons_self)
          cases ys with
          | nil => exact ⟨c, s, hc, hw', hb⟩
          | cons z zs =>
            rw [List.map_cons, List.map_cons, join_cons_cons, hc]
            exact ⟨c, _, rfl, hw', hb⟩
        obtain ⟨c, s, hc, hw', hb⟩ := ho
        rw [hc] at hparse ⊢
        rw [List.cons_append] at hparse ⊢
        rw [skipWs_cons hw']
        dsimp only
        rw [if_neg hb, hparse]
        rfl
  | dict fs ih =>
    rintro (_ | n) rest hn -
    · cases hn
    · rw [Value.safe_dict] at hs
      rw [Value.wf_dict] at hw
      have hkeys : ∀ f ∈ fs, f.1.encodable = true := fun f hf => hs.1 _ (List.mem_map.2 ⟨f, hf, rfl⟩)
      rw [render, List.length_cons, List.length_append, renderFields_eq] at hn
      rw [render, renderFields_eq, List.cons_append, List.append_assoc, List.singleton_append, parseValue,
        if_neg (by decide), if_pos rfl]
      rcases List.eq_nil_or_concat fs with rfl | hne
      · rfl
      · have hne : fs ≠ [] := by rintro rfl; simp at hne
        have hparse := parseMembers_join st hne hkeys hs.2
          (fun f hf => ih f hf (hs.2 f hf) (hw.2 f hf)) n rest (by simp at hn; omega)
        obtain ⟨g, gs, rfl⟩ := List.exists_cons_of_ne_nil hne
        have hhead : ∃ s, join st.comma ((g :: gs).map (renderField st)) = ch '"' :: s := by
          cases gs <;> exact ⟨_, rfl⟩
        obtain ⟨s, hc⟩ := hhead
        rw [hc] at hparse ⊢
        rw [List.cons_append] at hparse ⊢
        rw [skipWs_cons (by decide)]
        dsimp only
        rw [if_neg (by decide), hparse, Option.map_some, ofPairs_nodup hw.1]

/-- `json.loads` reads back what `json.dumps` wrote. -/
theorem loads_render (st : Style) {v : Value F} (hs : v.safe = true) (hw : v.wf = true) :
    loads (render st v) = some v := by
  have hread := reads st hs hw ((render st v).length + 1) [] (Nat.lt_succ_self _) Stop.nil
  rw [List.append_nil] at hread
  have hskip := skipWs_opens (opens_render st hs) []
  rw [List.append_nil] at hskip
  rw [loads, hskip, hread]
  rfl

/-! ## Parsed values are well-formed -/

section

omit [PyFloat F]

theorem keys_assign_nodup {fs : List (Text × Value F)} (h : (keys fs).Nodup) (k : Text) (v : Value F) :
    (keys (assign fs k v)).Nodup := by
  unfold assign
  split_ifs with hk
  · have : keys (fs.map fun f => if f.1 = k then (k, v) else f) = keys fs := by
      rw [keys, keys, List.map_map]
      refine List.map_congr_left fun f _ => ?_
      by_cases hf : f.1 = k <;> simp [hf]
    rw [this]; exact h
  · rw [keys, List.map_append, List.nodup_append]
    refine ⟨h, by simp, fun a ha b hb => ?_⟩
    rintro rfl
    rw [List.mem_singleton.1 hb] at ha
    exact hk ha

theorem wf_assign {fs : List (Text × Value F)} (h : (Value.dict fs).wf = true) (k : Text) {v : Value F}
    (hv : v.wf = true) : (Value.dict (assign fs k v)).wf = true := by
  rw [Value.wf_dict] at h ⊢
  refine ⟨keys_assign_nodup h.1 _ _, fun f hf => ?_⟩
  unfold assign at hf
  split_ifs at hf
  · obtain ⟨g, hg, rfl⟩ := List.mem_map.1 hf
    split_ifs
    · exact hv
    · exact h.2 g hg
  · rcases List.mem_append.1 hf with hf | hf
    · exact h.2 f hf
    · rw [List.mem_singleton.1 hf]; exact hv

theorem wf_ofPairs {ps : List (Text × Value F)} (h : ∀ p ∈ ps, p.2.wf = true) :
    (Value.dict (ofPairs ps)).wf = true := by
  have key : ∀ (ps fs : List (Text × Value F)), (∀ p ∈ ps, p.2.wf = true) →
      (Value.dict fs).wf = true →
      (Value.dict (ps.foldl (fun fs p => assign fs p.1 p.2) fs)).wf = true := by
    intro ps
    induction ps with
    | nil => intro fs _ hfs; exact hfs
    | cons p ps ih =>
      intro fs hps hfs
      exact ih _ (fun q hq => hps q (List.mem_cons_of_mem _ hq))
        (wf_assign hfs p.1 (hps p List.mem_cons_self))
  exact key ps [] h rfl

end

theorem wf_parseAtom {s r : Text} {v : Value F} (h : parseAtom s = some (v, r)) : v.wf = true := by
  unfold parseAtom at h
  repeat' split at h
  all_goals first
    | (cases h; rfl)
    | skip
  obtain ⟨n, -, hn⟩ := Option.map_eq_some_iff.1 h
  cases hn
  unfold number
  split_ifs <;> rfl

theorem wf_parse (n : Nat) :
    (∀ (s r : Text) (v : Value F), parseValue n s = some (v, r) → v.wf = true) ∧
    (∀ (s r : Text) (vs : List (Value F)), parseElements n s = some (vs, r) → ∀ v ∈ vs, v.wf = true) ∧
    (∀ (s r : Text) (fs : List (Text × Value F)), parseMembers n s = some (fs, r) →
      ∀ f ∈ fs, f.2.wf = true) := by
  induction n with
  | zero => exact ⟨fun _ _ _ h => (by cases h), fun _ _ _ h => (by cases h), fun _ _ _ h => (by cases h)⟩
  | succ n ih =>
    obtain ⟨ihv, ihe, ihm⟩ := ih
    refine ⟨fun s r v h => ?_, fun s r vs h => ?_, fun s r fs h => ?_⟩
    · cases s with
      | nil => cases h
      | cons c s =>
        rw [parseValue] at h
        split_ifs at h
        · obtain ⟨t, -, ht⟩ := Option.map_eq_some_iff.1 h
          cases ht; rfl
        · cases hs : skipWs s with
          | nil => rw [hs] at h; cases h
          | cons c' s' =>
            rw [hs] at h
            dsimp only at h
            split_ifs at h
            · cases h; rfl
            · obtain ⟨t, ht, he⟩ := Option.map_eq_some_iff.1 h
              cases he
              exact wf_ofPairs (ihm _ _ _ ht)
        · cases hs : skipWs s with
          | nil => rw [hs] at h; cases h
          | cons c' s' =>
            rw [hs] at h
            dsimp only at h
            split_ifs at h
            · cases h; rfl
            · obtain ⟨t, ht, he⟩ := Option.map_eq_some_iff.1 h
              cases he
              exact Value.wf_list.2 (ihe _ _ _ ht)
        · exact wf_parseAtom h
    · rw [parseElements] at h
      obtain ⟨⟨v, r'⟩, hv, h⟩ := Option.bind_eq_some_iff.1 h
      have hwf := ihv _ _ _ hv
      dsimp only at h
      cases hs : skipWs r' with
      | nil => rw [hs] at h; cases h
      | cons c s' =>
        rw [hs] at h
        dsimp only at h
        split_ifs at h
        · cases h; simpa using hwf
        · obtain ⟨t, ht, he⟩ := Option.map_eq_some_iff.1 h
          cases he
          exact List.forall_mem_cons.2 ⟨hwf, ihe _ _ _ ht⟩
    · rw [parseMembers] at h
      obtain ⟨k, hk, h⟩ := Option.bind_eq_some_iff.1 h
      obtain ⟨⟨v, r'⟩, hv, h⟩ := Option.bind_eq_some_iff.1 h
      have hwf := ihv _ _ _ hv
      dsimp only at h
      cases hs : skipWs r' with
      | nil => rw [hs] at h; cases h
      | cons c s' =>
        rw [hs] at h
        dsimp only at h
        split_ifs at h
        · cases h; simpa using hwf
        · obtain ⟨t, ht, he⟩ := Option.map_eq_some_iff.1 h
          cases he
          exact List.forall_mem_cons.2 ⟨hwf, ihm _ _ _ ht⟩

/-- `json.loads` never returns an object with a repeated key. -/
theorem wf_loads {s : Text} {v : Value F} (h : loads s = some v) : v.wf = true := by
  obtain ⟨⟨w, r⟩, hw, h⟩ := Option.bind_eq_some_iff.1 h
  split_ifs at h
  cases h
  exact (wf_parse _).1 _ _ _ hw

end Json

end Py
