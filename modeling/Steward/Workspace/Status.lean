import Steward.Py.Grouping
import Steward.Py.PurePath
import Steward.Py.Utf8

/-!
# The porcelain status of a workspace

What `git status --porcelain=v1 -z` writes, and the loop that both observers of
a workspace run over its NUL-separated tokens. The loop is one definition with
the observer's byte decoding, path check, errors and bound as parameters.

A moved record is written destination first. The loop takes the second token of
a moved record for its path, which is where the file was moved from.
-/

namespace Steward.Workspace

open Py

/-! ## What git writes -/

/-- A letter of the two-letter status. -/
inductive StatusLetter where
  | unmodified
  | modified
  | typeChanged
  | added
  | deleted
  | renamed
  | copied
  | unmerged
  | untracked
  | ignored
  deriving DecidableEq, Repr

namespace StatusLetter

def char : StatusLetter → CodePoint
  | unmodified => ch ' '
  | modified => ch 'M'
  | typeChanged => ch 'T'
  | added => ch 'A'
  | deleted => ch 'D'
  | renamed => ch 'R'
  | copied => ch 'C'
  | unmerged => ch 'U'
  | untracked => ch '?'
  | ignored => ch '!'

/-- The record names two paths. -/
def moved (l : StatusLetter) : Bool := l = renamed || l = copied

theorem char_lt (l : StatusLetter) : l.char.val < 0x80 := by cases l <;> decide

theorem char_ne_nul (l : StatusLetter) : l.char ≠ 0 := by cases l <;> decide

theorem moved_iff (l : StatusLetter) : l.moved = true ↔ l.char = ch 'R' ∨ l.char = ch 'C' := by
  cases l <;> decide

def byte (l : StatusLetter) : Byte := ⟨l.char.val, Nat.lt_trans l.char_lt (by decide)⟩

end StatusLetter

/-- One record: `original` is where a moved file came from. -/
structure StatusRecord where
  index : StatusLetter
  worktree : StatusLetter
  path : List Byte
  original : Option (List Byte)
  nul_path : 0 ∉ path
  nul_original : ∀ o ∈ original, 0 ∉ o
  original_iff : original.isSome = (index.moved || worktree.moved)

namespace StatusRecord

def status (r : StatusRecord) : Text := [r.index.char, r.worktree.char]

/-- `XY <path>NUL`, and `<original path>NUL` after it for a moved file. -/
def encode (r : StatusRecord) : List Byte :=
  r.index.byte :: r.worktree.byte :: 0x20 :: (r.path ++ 0 ::
    match r.original with
    | some o => o ++ [0]
    | none => [])

/-- The path the record is about, as `os.fsdecode` and `pathlib` name it. -/
def currentPath (r : StatusRecord) : Text := PurePath.asPosix (Utf8.decodeEscape r.path)

/-- What an observer has to report for the record. -/
def observation (r : StatusRecord) : Text × Text := (r.status, r.currentPath)

theorem mem_status (r : StatusRecord) :
    ch 'R' ∈ r.status ∨ ch 'C' ∈ r.status ↔ r.original.isSome = true := by
  rw [r.original_iff, Bool.or_eq_true, StatusLetter.moved_iff, StatusLetter.moved_iff, status]
  simp only [List.mem_cons, List.not_mem_nil, or_false]
  constructor
  · rintro ((h | h) | (h | h)) <;> simp [← h]
  · rintro ((h | h) | (h | h)) <;> simp [h]

end StatusRecord

/-- The whole output. -/
def encodeStatus (rs : List StatusRecord) : List Byte := rs.flatMap StatusRecord.encode

/-! ## The decoding loop -/

/-- How an observer reads the status. Its byte decoding keeps ASCII and its path
check returns the pure path of what it admits. -/
structure StatusDecoder (ε : Type) where
  decode : List Byte → Text
  safe : Text → Except ε Text
  malformed : ε
  incomplete : ε
  exceeded : ε
  maxRecords : Nat
  decode_nil : decode [] = []
  decode_ascii : ∀ (a : List Byte) {b : Byte} (_ : b.val < 0x80) (bs : List Byte),
    decode (a ++ b :: bs) = decode a ++ ⟨b.val, byte_lt b⟩ :: decode bs
  decode_nul : ∀ {bs : List Byte}, 0 ∉ bs → 0 ∉ decode bs
  decode_ne_nil : ∀ {bs : List Byte}, bs ≠ [] → decode bs ≠ []
  safe_eq : ∀ {value path : Text}, safe value = .ok path → path = PurePath.asPosix value

namespace StatusDecoder

variable {ε : Type} (d : StatusDecoder ε)

/-- The loop over the tokens. -/
def records : List Text → Except ε (List (Text × Text))
  | [] => .ok []
  | token :: rest =>
    if token = [] then records rest
    else if token.length < 4 ∨ token[2]? ≠ some (ch ' ') then .error d.malformed
    else
      let status := token.take 2
      if ch 'R' ∈ status ∨ ch 'C' ∈ status then
        match rest with
        | [] => .error d.incomplete
        | next :: rest =>
          if next = [] then .error d.incomplete
          else do
            let relative ← d.safe next
            let others ← records rest
            pure ((status, relative) :: others)
      else do
        let relative ← d.safe (token.drop 3)
        let others ← records rest
        pure ((status, relative) :: others)

/-- The decoder of a status output. -/
def parse (raw : List Byte) : Except ε (List (Text × Text)) := do
  let records ← d.records ((d.decode raw).splitOn 0)
  if records.length > d.maxRecords then .error d.exceeded else pure records

/-- What the loop does with one record: for a moved file, the path it checks and
reports is the original one. -/
def read (r : StatusRecord) : Except ε (Text × Text) :=
  if d.decode r.path = [] then .error d.malformed
  else match r.original with
    | some o =>
      if d.decode o = [] then .error d.incomplete
      else (d.safe (d.decode o)).map fun relative => (r.status, relative)
    | none => (d.safe (d.decode r.path)).map fun relative => (r.status, relative)

/-! ## The tokens of an encoded record -/

theorem decode_cons_ascii {b : Byte} (hb : b.val < 0x80) (bs : List Byte) :
    d.decode (b :: bs) = ⟨b.val, byte_lt b⟩ :: d.decode bs := by
  have h := d.decode_ascii [] hb bs
  rwa [d.decode_nil, List.nil_append, List.nil_append] at h

theorem splitOn_decode_path {bs : List Byte} (h : 0 ∉ bs) (rest : List Byte) :
    (d.decode (bs ++ 0 :: rest)).splitOn 0 = d.decode bs :: (d.decode rest).splitOn 0 := by
  rw [d.decode_ascii bs (by decide) rest]
  exact List.splitOn_append_cons_self_of_not_mem (d.decode_nul h) _

/-- The first token of a record. -/
def token (r : StatusRecord) : Text := r.index.char :: r.worktree.char :: ch ' ' :: d.decode r.path

theorem nul_notMem_token (r : StatusRecord) : 0 ∉ d.token r := by
  have hspace : (0 : CodePoint) ≠ ch ' ' := by decide
  simp [token, r.index.char_ne_nul.symm, r.worktree.char_ne_nul.symm, hspace,
    d.decode_nul r.nul_path]

theorem splitOn_encode (r : StatusRecord) (rest : List Byte) :
    (d.decode (r.encode ++ rest)).splitOn 0 =
      d.token r :: ((r.original.map d.decode).toList ++ (d.decode rest).splitOn 0) := by
  have hhead (bs : List Byte) :
      (d.decode (r.index.byte :: r.worktree.byte :: 0x20 :: (r.path ++ 0 :: bs))).splitOn 0 =
        d.token r :: (d.decode bs).splitOn 0 := by
    rw [d.decode_cons_ascii r.index.char_lt, d.decode_cons_ascii r.worktree.char_lt,
      d.decode_cons_ascii (by decide), d.decode_ascii r.path (by decide) bs]
    exact List.splitOn_append_cons_self_of_not_mem (d.nul_notMem_token r) _
  unfold StatusRecord.encode
  cases ho : r.original with
  | none => simpa using hhead rest
  | some o =>
    have hnul : 0 ∉ o := r.nul_original o ho
    have h := hhead (o ++ 0 :: rest)
    rw [d.splitOn_decode_path hnul] at h
    simpa using h

/-! ## The loop undoes the encoding, up to what it reads of each record -/

theorem records_encode (r : StatusRecord) (rest : List Byte) :
    d.records ((d.decode (r.encode ++ rest)).splitOn 0) = (do
      let observed ← d.read r
      let others ← d.records ((d.decode rest).splitOn 0)
      pure (observed :: others)) := by
  have hne : d.token r ≠ [] := List.cons_ne_nil _ _
  have hstatus : (d.token r).take 2 = r.status := rfl
  have hdrop : (d.token r).drop 3 = d.decode r.path := rfl
  rw [splitOn_encode, records, if_neg hne, read]
  by_cases hp : d.decode r.path = []
  · -- three characters are too few for a record
    rw [if_pos (.inl (by simp [token, hp])), if_pos hp]
    rfl
  · have hlen : ¬ ((d.token r).length < 4 ∨ (d.token r)[2]? ≠ some (ch ' ')) := by
      have := List.length_pos_iff.2 hp
      simp [token]
      omega
    rw [if_neg hlen, if_neg hp]
    simp only [hstatus, hdrop, r.mem_status]
    cases ho : r.original with
    | none =>
      rw [if_neg (by simp)]
      cases hs : d.safe (d.decode r.path) <;> rfl
    | some o =>
      rw [if_pos (by simp)]
      simp only [Option.map_some, Option.toList_some, List.singleton_append]
      split_ifs with hempty
      · rfl
      · cases hs : d.safe (d.decode o) <;> rfl

theorem records_encodeStatus (rs : List StatusRecord) :
    d.records ((d.decode (encodeStatus rs)).splitOn 0) = rs.mapM d.read := by
  induction rs with
  | nil => simp [encodeStatus, d.decode_nil, records]; rfl
  | cons r rs ih =>
    rw [encodeStatus, List.flatMap_cons, records_encode, List.mapM_cons, ← encodeStatus, ih]

theorem parse_encodeStatus (rs : List StatusRecord) :
    d.parse (encodeStatus rs) = (do
      let records ← rs.mapM d.read
      if rs.length > d.maxRecords then .error d.exceeded else pure records) := by
  rw [parse, records_encodeStatus]
  cases h : rs.mapM d.read with
  | error e => rfl
  | ok records =>
    show (if records.length > d.maxRecords then _ else _) = _
    rw [length_of_mapM h]
    rfl

/-! ## When the observation is the right one -/

/-- The path that the loop reads for a record. -/
def readPath (r : StatusRecord) : List Byte := r.original.getD r.path

theorem readPath_plain {r : StatusRecord} (h : r.original = none) : readPath r = r.path := by
  rw [readPath, h]; rfl

theorem readPath_moved {r : StatusRecord} {o : List Byte} (h : o ∈ r.original) :
    readPath r = o := by
  rw [readPath, Option.mem_def.1 h]; rfl

/-- The loop reports the record with its current path. -/
structure Reads (r : StatusRecord) : Prop where
  path_ne_nil : r.path ≠ []
  readPath_ne_nil : readPath r ≠ []
  admitted : ∃ path, d.safe (d.decode (readPath r)) = .ok path
  same : PurePath.asPosix (d.decode (readPath r)) = r.currentPath

theorem read_eq_observation {r : StatusRecord} : d.read r = .ok r.observation ↔ d.Reads r := by
  have hdecode (bs : List Byte) : d.decode bs = [] ↔ bs = [] :=
    ⟨fun h => by_contra fun hne => d.decode_ne_nil hne h, fun h => by rw [h, d.decode_nil]⟩
  have hsafe (value : Text) :
      (d.safe value).map (fun relative => (r.status, relative)) = .ok r.observation ↔
        (∃ path, d.safe value = .ok path) ∧ PurePath.asPosix value = r.currentPath := by
    cases hs : d.safe value with
    | error e => simp [Except.map]
    | ok path => simp [Except.map, StatusRecord.observation, d.safe_eq hs]
  unfold read
  simp only [hdecode]
  constructor
  · intro h
    split_ifs at h with hp
    cases ho : r.original with
    | none =>
      have hread := readPath_plain ho
      rw [ho] at h
      obtain ⟨hadm, hsame⟩ := (hsafe _).1 h
      exact ⟨hp, hread ▸ hp, hread ▸ hadm, hread ▸ hsame⟩
    | some o =>
      have hread := readPath_moved ho
      simp only [ho] at h
      split_ifs at h with hempty
      obtain ⟨hadm, hsame⟩ := (hsafe _).1 h
      exact ⟨hp, hread ▸ hempty, hread ▸ hadm, hread ▸ hsame⟩
  · rintro ⟨hp, hne, hadm, hsame⟩
    rw [if_neg hp]
    cases ho : r.original with
    | none =>
      have hread := readPath_plain ho
      rw [hread] at hadm hsame
      exact (hsafe _).2 ⟨hadm, hsame⟩
    | some o =>
      have hread := readPath_moved ho
      rw [hread] at hne hadm hsame
      simp only [if_neg hne]
      exact (hsafe _).2 ⟨hadm, hsame⟩

theorem mapM_eq_map {α β : Type} {f : α → Except ε β} {g : α → β} {xs : List α} :
    xs.mapM f = .ok (xs.map g) ↔ ∀ x ∈ xs, f x = .ok (g x) := by
  induction xs with
  | nil => simp [pure, Except.pure]
  | cons x xs ih =>
    rw [List.mapM_cons]
    cases hx : f x with
    | error e => simp [bind, Except.bind, hx]
    | ok y =>
      cases hxs : xs.mapM f with
      | error e =>
        have hne : ¬ ∀ x ∈ xs, f x = .ok (g x) := fun h => by rw [← ih, hxs] at h; cases h
        simp only [bind, Except.bind, List.mem_cons, forall_eq_or_imp, hx]
        exact iff_of_false (by simp) fun h => hne h.2
      | ok ys =>
        rw [hxs] at ih
        simp [bind, Except.bind, pure, Except.pure, hx, ← ih]

/-- The status is decoded right exactly when it is in bounds and every record is. -/
theorem parse_eq_observations {rs : List StatusRecord} :
    d.parse (encodeStatus rs) = .ok (rs.map StatusRecord.observation) ↔
      rs.length ≤ d.maxRecords ∧ ∀ r ∈ rs, d.Reads r := by
  have hreads : (∀ r ∈ rs, d.Reads r) ↔ rs.mapM d.read = .ok (rs.map StatusRecord.observation) :=
    (forall₂_congr fun _ _ => d.read_eq_observation.symm).trans mapM_eq_map.symm
  rw [parse_encodeStatus, hreads]
  cases h : rs.mapM d.read with
  | error e => simp [bind, Except.bind]
  | ok records =>
    simp only [bind, Except.bind]
    split_ifs with hlen
    · exact iff_of_false (by simp) fun h => by omega
    · exact (and_iff_right (by omega)).symm

end StatusDecoder

end Steward.Workspace
