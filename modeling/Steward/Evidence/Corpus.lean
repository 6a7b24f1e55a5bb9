import Steward.Py.Directory
import Steward.Evidence.Canonical

/-!
# The Evidence corpus

The `runs` tree of `evidence.py`: one directory for each Run, holding Evidence
files. `load_run_files` reads it, `write_evidence` adds to it and never
replaces a file.
-/

namespace Steward

open Py Sqlite

/-- What reading a file gives: a parsed document, an `OSError` or `JSONDecodeError`, or another
exception. -/
inductive Content (F : Type) where
  | json (d : Document F)
  | invalid
  | raises (e : Py.Error)

/-- An object in a Run directory; a symlink may lead to a regular file. -/
inductive Node (F : Type) where
  | file (c : Content F)
  | link (target : Option (Content F))
  | other

abbrev RunDir (F : Type) := Directory (Node F)

/-- `runs` is absent until the first Run is created. Links and plain files directly under `runs` are
skipped by every reader and left out. `elsewhere` is what a path that is not of the form
`runs/<run>/<name>` leads to. -/
structure Corpus (F : Type) where
  runs : Option (Directory (RunDir F))
  elsewhere : Text → Option (Content F)

variable {F : Type} [SqliteFloat F]

def Corpus.dirs (c : Corpus F) : List (Text × RunDir F) := (c.runs.map Directory.listing).getD []

def Corpus.dir? (c : Corpus F) (runId : Text) : Option (RunDir F) := c.runs.bind (·.find runId)

/-- The file a text reads back as. -/
def Content.ofText (t : Text) : Content F :=
  match h : Json.loads (F := F) t with
  | some v => .json ⟨v, Json.wf_loads h⟩
  | none => .invalid

theorem Content.ofText_canonical {v : Value F} (hs : v.safe = true) (hw : v.wf = true) :
    Content.ofText (canonicalText v) = .json ⟨v.sortKeys, by rw [Value.wf_sortKeys, hw]⟩ := by
  have h := loads_canonicalText hs hw
  unfold Content.ofText
  split
  · rename_i w hw'
    rw [h] at hw'
    cases hw'
    rfl
  · rename_i hn
    rw [h] at hn
    cases hn

/-! ## File names -/

def isTypeChar (c : CodePoint) : Bool :=
  (97 ≤ c.val && c.val ≤ 122) || Text.isDigit c || c = ch '_' || c = ch '.' || c = ch '-'

/-- `[a-z][a-z0-9_.-]*` -/
def isTypeName : Text → Bool
  | [] => false
  | c :: s => (97 ≤ c.val && c.val ≤ 122) && s.all isTypeChar

/-- `_NAME.fullmatch` -/
def isEvidenceName (name : Text) : Bool :=
  let head := name.take 8
  let rest := name.drop 8
  head.length = 8 && head.all (Runtime.isDecimal F) &&
    (match rest with
      | [] => false
      | c :: stem => c = ch '_' && Text.endsWith stem (txt ".json") &&
          isTypeName (stem.take (stem.length - 5)))

/-- `f"{sequence:08d}"` -/
def padSequence : Int → Text
  | .ofNat n => Text.pad8 n
  | .negSucc n => ch '-' :: (List.replicate (7 - (Text.ofNat (n + 1)).length) (Text.digit 0) ++
      Text.ofNat (n + 1))

/-- `evidence_type.replace("/", ".")` -/
def safeType (evidenceType : Text) : Text := evidenceType.map fun c => if c = ch '/' then ch '.' else c

def filename (sequence : Int) (evidenceType : Text) : Result Text :=
  if isTypeName (safeType evidenceType) then
    .ok (padSequence sequence ++ [ch '_'] ++ safeType evidenceType ++ txt ".json")
  else .error (.steward .evidenceError)

theorem filename_eq_ok {n : Nat} {t name : Text} : filename n t = .ok name ↔
    isTypeName (safeType t) = true ∧ name = Text.pad8 n ++ (ch '_' :: (safeType t ++ txt ".json")) := by
  rw [filename]
  split_ifs with h
  · rw [Except.ok.injEq, List.append_assoc, List.append_assoc, eq_comm]
    simp [h, padSequence]
  · simp [h]

/-- A file name determines its number and type. -/
theorem filename_inj {m n : Nat} {t u name : Text} (h1 : filename m t = .ok name)
    (h2 : filename n u = .ok name) : m = n ∧ safeType t = safeType u := by
  obtain ⟨-, rfl⟩ := filename_eq_ok.1 h1
  obtain ⟨-, h⟩ := filename_eq_ok.1 h2
  have hw (k : Nat) (s : Text) : (Text.pad8 k ++ ch '_' :: s).takeWhile Text.isDigit = Text.pad8 k := by
    rw [List.takeWhile_append_of_pos (Text.pad8_all k), List.takeWhile_cons_of_neg (by decide),
      List.append_nil]
  have hp : Text.pad8 m = Text.pad8 n := by rw [← hw m, h, hw n]
  refine ⟨by rw [← Text.toNat_pad8 m, hp, Text.toNat_pad8], ?_⟩
  rw [hp, List.append_cancel_left_eq, List.cons.injEq, List.append_cancel_right_eq] at h
  exact h.2

/-- `runs/<run>/<name>` -/
def evidencePath (runId name : Text) : Text := txt "runs/" ++ runId ++ [ch '/'] ++ name

/-! ## Reading -/

/-- What `load_run_files` does with one directory entry. -/
inductive Loaded (F : Type) where
  | item (d : Document F)
  | skipped
  | failure (message : Text)

def loadNode (name : Text) : Node F → Result (Loaded F)
  | .link _ | .other => .ok (.failure (txt "unsafe evidence object: " ++ name))
  | .file c =>
    if name.endsWith (txt ".tmp") then .ok .skipped
    else if !isEvidenceName (F := F) name then .ok (.failure (txt "unknown evidence file: " ++ name))
    else match c with
      | .json d => .ok (.item d)
      | .invalid => .ok (.failure (txt "invalid JSON: " ++ name))
      | .raises e => .error (.python e)

theorem loadNode_eq_item {name : Text} {node : Node F} {d : Document F} :
    loadNode name node = .ok (.item d) ↔ node = .file (.json d) ∧
      Text.endsWith name (txt ".tmp") = false ∧ isEvidenceName (F := F) name = true := by
  cases node with
  | link t => simp [loadNode]
  | other => simp [loadNode]
  | file c =>
    unfold loadNode
    cases Text.endsWith name (txt ".tmp") with
    | true => simp
    | false => cases isEvidenceName (F := F) name <;> cases c <;> simp

theorem loadNode_eq_skipped {name : Text} {node : Node F} : loadNode name node = .ok .skipped ↔
    (∃ c, node = .file c) ∧ Text.endsWith name (txt ".tmp") = true := by
  cases node with
  | link t => simp [loadNode]
  | other => simp [loadNode]
  | file c =>
    unfold loadNode
    cases Text.endsWith name (txt ".tmp") with
    | true => simp
    | false => cases isEvidenceName (F := F) name <;> cases c <;> simp

/-- The items and errors of `load_run_files`. -/
structure RunFiles (F : Type) where
  files : List (Text × Document F)
  errors : List Text

def loadListing : List (Text × Node F) → Result (RunFiles F)
  | [] => .ok ⟨[], []⟩
  | (name, node) :: rest => do
    let l ← loadNode name node
    let r ← loadListing rest
    pure (match l with
      | .item d => ⟨(name, d) :: r.files, r.errors⟩
      | .skipped => r
      | .failure m => ⟨r.files, m :: r.errors⟩)

def loadRunFiles (c : Corpus F) (runId : Text) : Result (RunFiles F) :=
  match c.dir? runId with
  | none => .ok ⟨[], [txt "missing or unsafe run directory: " ++ runId]⟩
  | some dir => loadListing dir.listing

/-- The JSON documents under their names; what is still being written ends in `.tmp`. -/
def documentsIn (listing : List (Text × Node F)) : List (Text × Document F) :=
  listing.filterMap fun f => match f.2 with
    | .file (.json d) => if f.1.endsWith (txt ".tmp") then none else some (f.1, d)
    | _ => none

/-- The listing holds documents and files still being written, nothing else. -/
def CleanListing (listing : List (Text × Node F)) : Prop :=
  ∀ f ∈ listing, (∃ c, f.2 = .file c) ∧ (Text.endsWith f.1 (txt ".tmp") = true ∨
    isEvidenceName (F := F) f.1 = true ∧ ∃ d, f.2 = .file (.json d))

/-- A listing loads without errors exactly when it is clean, and then as its documents. -/
theorem loadListing_eq_ok {listing : List (Text × Node F)} {r : RunFiles F} :
    loadListing listing = .ok r ∧ r.errors = [] ↔ CleanListing listing ∧ r = ⟨documentsIn listing, []⟩ := by
  induction listing generalizing r with
  | nil =>
    constructor
    · rintro ⟨h, -⟩
      cases h
      exact ⟨List.forall_mem_nil _, rfl⟩
    · rintro ⟨-, rfl⟩
      exact ⟨rfl, rfl⟩
  | cons f fs ih =>
    obtain ⟨name, node⟩ := f
    have htmp (x : Content F) (h : Text.endsWith name (txt ".tmp") = true) :
        documentsIn ((name, .file x) :: fs) = documentsIn fs := by
      cases x <;> simp [documentsIn, h]
    have hcons (d : Document F) (h : Text.endsWith name (txt ".tmp") = false) :
        documentsIn ((name, .file (.json d)) :: fs) = (name, d) :: documentsIn fs := by
      simp [documentsIn, h]
    rw [CleanListing, List.forall_mem_cons]
    constructor
    · rintro ⟨h, he⟩
      rw [loadListing] at h
      obtain ⟨l, hl, h⟩ := bind_eq_ok.1 h
      obtain ⟨r', hr', h⟩ := bind_eq_ok.1 h
      cases h
      cases l with
      | item d =>
        obtain ⟨rfl, hn, hname⟩ := loadNode_eq_item.1 hl
        obtain ⟨hclean, rfl⟩ := ih.1 ⟨hr', he⟩
        exact ⟨⟨⟨⟨_, rfl⟩, .inr ⟨hname, d, rfl⟩⟩, hclean⟩, by rw [hcons d hn]⟩
      | skipped =>
        obtain ⟨⟨x, rfl⟩, hn⟩ := loadNode_eq_skipped.1 hl
        obtain ⟨hclean, rfl⟩ := ih.1 ⟨hr', he⟩
        exact ⟨⟨⟨⟨x, rfl⟩, .inl hn⟩, hclean⟩, by rw [htmp x hn]⟩
      | failure m => cases he
    · rintro ⟨⟨⟨⟨x, hx⟩, hname⟩, hclean⟩, rfl⟩
      obtain ⟨hrest, -⟩ := ih.2 ⟨hclean, rfl⟩
      change node = .file x at hx
      subst hx
      rw [loadListing, hrest]
      by_cases hn : Text.endsWith name (txt ".tmp") = true
      · rw [loadNode_eq_skipped.2 ⟨⟨x, rfl⟩, hn⟩, htmp x hn]
        exact ⟨rfl, rfl⟩
      · rw [Bool.not_eq_true] at hn
        obtain ⟨hev, d, hd⟩ := hname.resolve_left (by rw [hn]; exact Bool.false_ne_true)
        cases hd
        rw [loadNode_eq_item.2 ⟨rfl, hn, hev⟩, hcons d hn]
        exact ⟨rfl, rfl⟩

/-- No file that is read raises anything but what is reported. -/
def ReadableListing (listing : List (Text × Node F)) : Prop :=
  ∀ f ∈ listing, Text.endsWith f.1 (txt ".tmp") = false → isEvidenceName (F := F) f.1 = true →
    ∀ e, f.2 ≠ .file (.raises e)

theorem ok_loadListing {listing : List (Text × Node F)} :
    Ok (loadListing listing) ↔ ReadableListing listing := by
  induction listing with
  | nil => exact iff_of_true (ok_ok _) (List.forall_mem_nil _)
  | cons f fs ih =>
    obtain ⟨name, node⟩ := f
    have hnode : Ok (loadNode name node) ↔ (Text.endsWith name (txt ".tmp") = false →
        isEvidenceName (F := F) name = true → ∀ e, node ≠ .file (.raises e)) := by
      cases node with
      | link t => simp [loadNode]
      | other => simp [loadNode]
      | file x =>
        unfold loadNode
        cases Text.endsWith name (txt ".tmp") <;> cases isEvidenceName (F := F) name <;>
          cases x <;> simp
    rw [loadListing, ok_bind_const fun _ => ok_bind_of_total fun _ => ok_pure _, hnode, ih,
      ReadableListing, ReadableListing, List.forall_mem_cons]

/-! ## Paths of the index -/

/-- `text.split("/")` -/
def splitPath (t : Text) : List Text :=
  t.foldr (fun c acc => if c = ch '/' then [] :: acc else match acc with
    | [] => [[c]]
    | p :: ps => (c :: p) :: ps) [[]]

/-- The parts of a relative path, without empty and `.` components. -/
def pathParts (t : Text) : List Text := (splitPath t).filter fun p => p ≠ [] ∧ p ≠ txt "."

/-- The regular file an index path leads to, following a final symlink. -/
def Corpus.resolve (c : Corpus F) (path : Text) : Option (Content F) :=
  match path.startsWith (txt "/"), pathParts path with
  | false, [r, runId, name] =>
    if r = txt "runs" ∧ (c.dir? runId).isSome then
      match (c.dir? runId).bind (·.find name) with
      | some (.file x) => some x
      | some (.link target) => target
      | _ => none
    else c.elsewhere path
  | _, _ => c.elsewhere path

/-! ## Writing -/

def strOf : Value F → Except Py.Error Text
  | .str s => .ok s
  | _ => .error .typeError

def intOf : Value F → Except Py.Error Int
  | .int n => .ok n
  | .bool b => .ok (if b then 1 else 0)
  | _ => .error .valueError

/-- `mkdir(parents=True, exist_ok=True)` of a Run directory. -/
def Corpus.mkdir (c : Corpus F) (runId : Text) : Corpus F :=
  let runs := c.runs.getD .empty
  { c with runs := some (match runs.find runId with
    | some _ => runs
    | none => runs.insert runId .empty) }

def Corpus.put (c : Corpus F) (runId name : Text) (x : Content F) : Corpus F :=
  let runs := c.runs.getD .empty
  { c with runs := some (runs.insert runId (((runs.find runId).getD .empty).insert name (.file x))) }

section
omit [SqliteFloat F]

theorem Corpus.dir?_put (c : Corpus F) (r name : Text) (x : Content F) (r' : Text) :
    (c.put r name x).dir? r' =
      if r' = r then some (((c.dir? r).getD .empty).insert name (.file x)) else c.dir? r' := by
  have hd : ((c.runs.getD .empty).find r).getD .empty = (c.dir? r).getD .empty := by
    cases h : c.runs <;> simp [Corpus.dir?, h, Directory.find, Directory.empty]
  rw [Corpus.put, Corpus.dir?, hd]
  split_ifs with h
  · rw [h]; exact Directory.find_insert_self _ _ _
  · change Directory.find _ r' = _
    rw [Directory.find_insert_of_ne _ h]
    cases h : c.runs <;> simp [Corpus.dir?, h, Directory.find, Directory.empty]

theorem Corpus.dir?_mkdir (c : Corpus F) (r r' : Text) :
    (c.mkdir r).dir? r' = if r' = r then some ((c.dir? r).getD .empty) else c.dir? r' := by
  have hd (s : Text) : (c.runs.getD .empty).find s = c.dir? s := by
    cases h : c.runs <;> simp [Corpus.dir?, h, Directory.find, Directory.empty]
  rw [Corpus.mkdir, Corpus.dir?]
  simp only [hd, Option.bind_some]
  cases hr : c.dir? r with
  | some d =>
    simp only [hd, Option.getD_some]
    split_ifs with h
    · rw [h, hr]
    · rfl
  | none =>
    simp only [Option.getD_none]
    split_ifs with h
    · rw [h]; exact Directory.find_insert_self _ _ _
    · rw [Directory.find_insert_of_ne _ h, hd]

end

/-- The target of `write_evidence` and its canonical text, once every check passed. -/
structure Publication where
  runId : Text
  name : Text
  text : Text

/-- The checks of `write_evidence`: the name is free and the digest is the content's. -/
def checkEvidence (c : Corpus F) (record : List (Text × Value F)) : Result Publication := do
  let runId ← py (strOf (Value.get record (txt "run_id")))
  let sequence ← py (intOf (Value.get record (txt "sequence")))
  let evidenceType ← py (strOf (Value.get record (txt "evidence_type")))
  let name ← filename sequence evidenceType
  if ((c.dir? runId).bind (·.find name)).isSome then
    throw (.steward .evidenceConflictError)
  let expected ← digest record
  if !(Value.get record (txt "evidence_digest")).eq (.str expected) then
    throw (.steward .evidenceError)
  let text ← canonicalJson (.dict record)
  pure ⟨runId, name, text⟩

/-- Durably create a new immutable evidence file, never overwrite it. The post-write check re-reads
the file it wrote. -/
def writeEvidence (c : Corpus F) (record : List (Text × Value F)) : Result Text × Corpus F :=
  match checkEvidence c record with
  | .error e => (.error e, match Value.get record (txt "run_id") with
    | .str runId => c.mkdir runId
    | _ => c)
  | .ok p => (.ok (evidencePath p.runId p.name), c.put p.runId p.name (.ofText p.text))

end Steward
