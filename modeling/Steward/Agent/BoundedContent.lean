import Steward.Agent.Budget
import Steward.Py.Utf8
import Steward.Sqlite.Integral

/-!
# Bounded content

`read_bounded_utf8_file`: one bounded read of a regular file between two looks at
its state. Whatever is not complete is published without content. The one thing the
function takes on trust is that the reader returns all of the file.
-/

namespace Steward.Agent

open Py

def maxContentBytesPerRead : Nat := 8192

/-- An `errno`; those the function tells apart. -/
inductive Errno where
  | eacces
  | eloop
  | enoent
  | enotdir
  | estale
  | other (n : Int)
  deriving DecidableEq

/-- An `OSError`, or an exception of another class. -/
inductive Failure where
  | os (e : Errno)
  | other (name : Text)

/-- `os.stat_result` -/
structure StatResult where
  stMode : Nat
  stDev : Int
  stIno : Int
  stSize : Int
  stMtimeNs : Int
  deriving DecidableEq

/-- `stat.S_ISREG` -/
def StatResult.isRegular (s : StatResult) : Bool := s.stMode &&& 0o170000 = 0o100000

/-- `_same_state` -/
def sameState (before after : StatResult) : Bool :=
  (before.stDev, before.stIno, before.stSize, before.stMtimeNs) =
    (after.stDev, after.stIno, after.stSize, after.stMtimeNs)

inductive ContentStatus where
  | complete
  | empty
  | tooLarge
  | undecodable
  | unavailable
  | toolFailed
  deriving DecidableEq

/-- `status in {"COMPLETE", "EMPTY"}` -/
def ContentStatus.read : ContentStatus → Bool
  | complete | empty => true
  | _ => false

/-- `BoundedUtf8ContentResult` -/
structure BoundedUtf8ContentResult where
  status : ContentStatus
  scopeId : Text
  relativePath : Text
  sourceSizeBytes : Option Int
  contentBytesObserved : Nat
  content : Option Text
  observedContentSha256 : Option Text
  deriving DecidableEq

/-- What the file system and the reader answer in the course of one call. -/
structure FileAnswers where
  /-- Resolving the root and opening the directories and the file. -/
  opened : Except Failure Unit
  before : Except Failure StatResult
  readBytes : Except Failure (List Byte)
  after : Except Failure StatResult
  /-- Closing the descriptors. -/
  closed : Except Failure Unit

/-- `bytes.decode("utf-8", errors="strict")` -/
def decodeStrict (data : List Byte) : Option Text := if Utf8.valid data then some (Utf8.decodeReplace data) else none

section
variable (F : Type) [Runtime F] (scopeId relativePath : Text)

/-- A result without content. -/
def withoutContent (status : ContentStatus) (sourceSizeBytes : Option Int) : BoundedUtf8ContentResult :=
  ⟨status, scopeId, relativePath, sourceSizeBytes, 0, none, none⟩

/-- The result for the bytes of a file that looks as in `before`. -/
def published (before : StatResult) (data : List Byte) : BoundedUtf8ContentResult :=
  ⟨if data = [] then .empty else .complete, scopeId, relativePath, some before.stSize, data.length,
    decodeStrict data, some (Runtime.sha256 F data)⟩

/-- The descriptor-bound part of `_read`. -/
def readOpened (fs : FileAnswers) : Except Failure BoundedUtf8ContentResult := do
  let before ← fs.before
  if ¬ before.isRegular then pure (withoutContent scopeId relativePath .unavailable none)
  else if before.stSize > maxContentBytesPerRead then
    pure (withoutContent scopeId relativePath .tooLarge (some before.stSize))
  else do
    let data ← fs.readBytes
    if data.length > maxContentBytesPerRead then pure (withoutContent scopeId relativePath .tooLarge none)
    else do
      let after ← fs.after
      if ¬ sameState before after then pure (withoutContent scopeId relativePath .unavailable none)
      else if decodeStrict data = none then
        pure (withoutContent scopeId relativePath .undecodable (some before.stSize))
      else pure (published F scopeId relativePath before data)

/-- `_read`; what a close raises takes the place of the result. -/
def readFile (fs : FileAnswers) : Except Failure BoundedUtf8ContentResult := do
  fs.opened
  let result := readOpened F scopeId relativePath fs
  fs.closed
  result

/-- The status an `OSError` is turned into. -/
def Errno.status : Errno → ContentStatus
  | other _ => .toolFailed
  | _ => .unavailable

/-- `read_bounded_utf8_file`, after its arguments and its scope have been accepted. -/
def readBoundedUtf8File (fs : FileAnswers) : Except Failure BoundedUtf8ContentResult :=
  match readFile F scopeId relativePath fs with
  | .error (.os e) => .ok (withoutContent scopeId relativePath e.status none)
  | result => result

end

/-! ## Complete observations -/

section
variable {F : Type} [Runtime F] {scopeId relativePath : Text} {fs : FileAnswers} {r : BoundedUtf8ContentResult}

/-- The result is the whole of an unchanged regular file. -/
structure Whole (F : Type) [Runtime F] (fs : FileAnswers) (r : BoundedUtf8ContentResult) : Prop where
  regular : ∃ before after, fs.before = .ok before ∧ fs.after = .ok after ∧ before.isRegular = true ∧
    sameState before after = true ∧ r.sourceSizeBytes = some before.stSize
  size : r.sourceSizeBytes = some (r.contentBytesObserved : Int)
  bounded : r.contentBytesObserved ≤ maxContentBytesPerRead
  content : ∃ data, fs.readBytes = .ok data ∧ data.length = r.contentBytesObserved ∧ r.content = decodeStrict data ∧
    r.content ≠ none ∧ r.observedContentSha256 = some (Runtime.sha256 F data)

/-- Only whole files are published, and nothing of any other. -/
structure Honest (F : Type) [Runtime F] (fs : FileAnswers) (r : BoundedUtf8ContentResult) : Prop where
  read : r.status.read = true → Whole F fs r
  other : r.status.read = false → r.content = none ∧ r.observedContentSha256 = none ∧ r.contentBytesObserved = 0

/-- The run in which `data` is published, of a file that looks as in `before`. -/
structure Publishes (fs : FileAnswers) (before : StatResult) (data : List Byte) : Prop where
  opened : fs.opened = .ok ()
  looked : fs.before = .ok before
  regular : before.isRegular = true
  announced : before.stSize ≤ maxContentBytesPerRead
  returned : fs.readBytes = .ok data
  bounded : data.length ≤ maxContentBytesPerRead
  stable : ∃ after, fs.after = .ok after ∧ sameState before after = true
  valid : decodeStrict data ≠ none
  closed : fs.closed = .ok ()

theorem read_published (before : StatResult) (data : List Byte) :
    (published F scopeId relativePath before data).status.read = true := by
  rw [published]
  split_ifs <;> rfl

/-- A result either has no content, or is published. -/
theorem readOpened_cases (h : readOpened F scopeId relativePath fs = .ok r) :
    (∃ status size, status.read = false ∧ r = withoutContent scopeId relativePath status size) ∨
    ∃ before data, fs.before = .ok before ∧ before.isRegular = true ∧ before.stSize ≤ maxContentBytesPerRead ∧
      fs.readBytes = .ok data ∧ data.length ≤ maxContentBytesPerRead ∧
      (∃ after, fs.after = .ok after ∧ sameState before after = true) ∧ decodeStrict data ≠ none ∧
      r = published F scopeId relativePath before data := by
  unfold readOpened at h
  obtain ⟨before, hbefore, h⟩ := bind_eq_ok.1 h
  split_ifs at h with hregular hlarge
  · cases h
    exact .inl ⟨.tooLarge, _, rfl, rfl⟩
  · obtain ⟨data, hdata, h⟩ := bind_eq_ok.1 h
    split at h
    · cases h
      exact .inl ⟨.tooLarge, _, rfl, rfl⟩
    · rename_i hlong
      obtain ⟨after, hafter, h⟩ := bind_eq_ok.1 h
      split_ifs at h with hsame hvalid
      · cases h
        exact .inl ⟨.undecodable, _, rfl, rfl⟩
      · cases h
        exact .inr ⟨before, data, hbefore, hregular, not_lt.1 hlarge, hdata, not_lt.1 hlong, ⟨after, hafter, hsame⟩,
          hvalid, rfl⟩
      · cases h
        exact .inl ⟨.unavailable, _, rfl, rfl⟩
  · cases h
    exact .inl ⟨.unavailable, _, rfl, rfl⟩

theorem readFile_eq_ok : readFile F scopeId relativePath fs = .ok r ↔
    fs.opened = .ok () ∧ fs.closed = .ok () ∧ readOpened F scopeId relativePath fs = .ok r := by
  unfold readFile
  constructor
  · intro h
    obtain ⟨_, hopened, h⟩ := bind_eq_ok.1 h
    obtain ⟨_, hclosed, h⟩ := bind_eq_ok.1 h
    exact ⟨hopened, hclosed, h⟩
  · rintro ⟨hopened, hclosed, h⟩
    exact bind_eq_ok.2 ⟨_, hopened, bind_eq_ok.2 ⟨_, hclosed, h⟩⟩

theorem readBoundedUtf8File_cases (h : readBoundedUtf8File F scopeId relativePath fs = .ok r) :
    (∃ status size, status.read = false ∧ r = withoutContent scopeId relativePath status size) ∨
    ∃ before data, Publishes fs before data ∧ r = published F scopeId relativePath before data := by
  unfold readBoundedUtf8File at h
  cases hread : readFile F scopeId relativePath fs with
  | error e =>
    rw [hread] at h
    cases e with
    | os e =>
      cases h
      exact .inl ⟨e.status, _, by cases e <;> rfl, rfl⟩
    | other name => cases h
  | ok result =>
    rw [hread] at h
    cases h
    obtain ⟨hopened, hclosed, hresult⟩ := readFile_eq_ok.1 hread
    rcases readOpened_cases hresult with hnone | ⟨before, data, hbefore, hregular, hsize, hdata, hlength, hafter, hvalid, rfl⟩
    · exact .inl hnone
    · exact .inr ⟨before, data, ⟨hopened, hbefore, hregular, hsize, hdata, hlength, hafter, hvalid, hclosed⟩, rfl⟩

theorem Publishes.result {before : StatResult} {data : List Byte} (h : Publishes fs before data) :
    readBoundedUtf8File F scopeId relativePath fs = .ok (published F scopeId relativePath before data) := by
  obtain ⟨after, hafter, hsame⟩ := h.stable
  have hopened : readOpened F scopeId relativePath fs = .ok (published F scopeId relativePath before data) := by
    unfold readOpened
    rw [h.looked, ok_bind_ok, if_neg (not_not.2 h.regular), if_neg (not_lt.2 h.announced), h.returned, ok_bind_ok,
      if_neg (not_lt.2 h.bounded), hafter, ok_bind_ok, if_neg (not_not.2 hsame), if_neg h.valid]
    rfl
  unfold readBoundedUtf8File
  rw [readFile_eq_ok.2 ⟨h.opened, h.closed, hopened⟩]

/-- A published result is whole exactly when the reader returned as many bytes as the file has. -/
theorem Publishes.whole_iff {before : StatResult} {data : List Byte} (h : Publishes fs before data) :
    Whole F fs (published F scopeId relativePath before data) ↔ (data.length : Int) = before.stSize := by
  constructor
  · intro hwhole
    exact (Option.some.inj hwhole.size).symm
  · intro hlength
    obtain ⟨after, hafter, hsame⟩ := h.stable
    exact {
      regular := ⟨before, after, h.looked, hafter, h.regular, hsame, rfl⟩
      size := congrArg some hlength.symm
      bounded := h.bounded
      content := ⟨data, h.returned, rfl, rfl, h.valid, rfl⟩ }

/-- Observations are honest exactly when no published read is shorter or longer than the file. -/
theorem readBoundedUtf8File_honest_iff :
    (∀ r, readBoundedUtf8File F scopeId relativePath fs = .ok r → Honest F fs r) ↔
      ∀ before data, Publishes fs before data → (data.length : Int) = before.stSize := by
  constructor
  · intro h before data hpublishes
    have hhonest := h _ (hpublishes.result)
    exact hpublishes.whole_iff.1 (hhonest.read (read_published before data))
  · intro h r hr
    rcases readBoundedUtf8File_cases hr with ⟨status, size, hstatus, rfl⟩ | ⟨before, data, hpublishes, rfl⟩
    · exact ⟨fun hread => absurd (hread.symm.trans hstatus) (by decide), fun _ => ⟨rfl, rfl, rfl⟩⟩
    · refine ⟨fun _ => hpublishes.whole_iff.2 (h before data hpublishes), fun hread => ?_⟩
      exact absurd ((read_published before data).symm.trans hread) (by decide)

end

/-! ## A short read -/

/-- A file of five bytes, of which the reader returns two. -/
def shortRead : FileAnswers where
  opened := .ok ()
  before := .ok ⟨0o100644, 1, 2, 5, 0⟩
  readBytes := .ok [0x61, 0x62]
  after := .ok ⟨0o100644, 1, 2, 5, 0⟩
  closed := .ok ()

theorem shortRead_publishes : Publishes shortRead ⟨0o100644, 1, 2, 5, 0⟩ [0x61, 0x62] where
  opened := rfl
  looked := rfl
  regular := by decide
  announced := by decide
  returned := rfl
  bounded := by decide
  stable := ⟨_, rfl, by decide⟩
  valid := by decide
  closed := rfl

/-- Two of the five bytes are published as the complete content. -/
theorem shortRead_not_honest : ¬ ∀ r, readBoundedUtf8File Integral (txt "s") (txt "a.txt") shortRead = .ok r →
    Honest Integral shortRead r := by
  intro h
  have hwhole := (h _ shortRead_publishes.result).read (read_published _ _)
  exact absurd (shortRead_publishes.whole_iff.1 hwhole) (by decide)

end Steward.Agent
