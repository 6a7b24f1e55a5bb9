import Steward.Snapshot.Verify
import Steward.Sqlite.Like

/-!
# Reading the index

The inventory of Snapshots and the pages of their entries: `_list_snapshots`,
`_validate_page`, `_list_snapshot_entries` and `_verified_snapshot_entries`.
`mem_page_iff` says which rows of a path prefix are on its first page.
-/

namespace Steward

open Py Sqlite

variable {F : Type} [SqliteFloat F]

/-! ## The inventory -/

/-- `FilesystemSnapshotSummary` -/
structure SnapshotSummary (F : Type) where
  snapshotId : Value F
  runId : Value F
  status : SnapshotStatus
  createdAt : Value F
  scopeIds : List (Value F)
  entryCount : Value F
  observedCount : Value F
  errorCount : Value F
  snapshotDigest : Value F

def summaryFromRow (row : Row SnapshotColumn F) : Except Py.Error (SnapshotSummary F) := do
  let field (f : SnapshotField) : Value F := (row (.field f)).toValue
  let status ← enumOf SnapshotStatus (row .status).toValue
  let scopes ← loadsCell (row .scopeIdsJson)
  let scopeIds ← scopes.iter
  pure ⟨field .snapshotId, field .runId, status, field .createdAt, scopeIds, field .entryCount,
    field .observedCount, field .errorCount, field .snapshotDigest⟩

/-- `ORDER BY created_at DESC` -/
def newestLe (a b : Row SnapshotColumn F) : Prop :=
  cellLe (b (.field .createdAt)) (a (.field .createdAt)) = true

instance : DecidableRel (newestLe (F := F)) := fun _ _ => inferInstanceAs (Decidable (_ = true))

/-- `_list_snapshots`; a negative `LIMIT` is none. -/
def listSnapshots (ix : Index F) (limit : Option Int) : Result (List (SnapshotSummary F)) :=
  let rows := ix.snapshots.insertionSort newestLe
  let page := match limit with
    | some n => if n < 0 then rows else rows.take n.toNat
    | none => rows
  py (page.mapM summaryFromRow)

/-! ## Pages of entries -/

/-- `_validate_page` -/
def validatePage (limit offset : Int) (pathPrefix : Option Text) : Result Unit := do
  if !(1 ≤ limit && limit ≤ 1000) then throw (.steward .snapshotBudgetError)
  if offset < 0 then throw (.steward .snapshotBudgetError)
  if pathPrefix.any fun p => p.startsWith (txt "/") || p = txt ".." || p.startsWith (txt "../") then
    throw (.steward .snapshotBudgetError)

/-- The optional conditions of the query. -/
structure EntryFilter where
  scopeId : Option Text
  objectType : Option FilesystemObjectType
  observationStatus : Option FilesystemObservationStatus
  pathPrefix : Option Text

/-- `f"{escaped}/%"` -/
def belowPattern (p : Text) : Text := escapeLike p ++ txt "/%"

/-- The bound values, behind the Snapshot id. -/
def EntryFilter.values (q : EntryFilter) : List Text :=
  q.scopeId.toList ++ (q.objectType.map Named.name).toList ++ (q.observationStatus.map Named.name).toList ++
    match q.pathPrefix with
    | some p => if p = txt "." then [] else [p, belowPattern p]
    | none => []

/-- `c LIKE p` on a column of text. -/
def likeCell (p : Text) : Cell F → Bool
  | .text s => like p s
  | _ => false

/-- `(relative_path=? OR relative_path LIKE ?)`, left out for `.` -/
def matchesPrefix (p : Text) (r : Row EntryKey F) : Bool :=
  p = txt "." || entrySchema.is (.field .relativePath) (.text p) r ||
    likeCell (belowPattern p) (r (.field .relativePath))

def EntryFilter.admits (q : EntryFilter) (r : Row EntryKey F) : Bool :=
  (q.scopeId.all fun s => entrySchema.is (.field .scopeId) (.text s) r) &&
    (q.objectType.all fun t => entrySchema.is .objectType (.text (Named.name t)) r) &&
    (q.observationStatus.all fun t => entrySchema.is .observationStatus (.text (Named.name t)) r) &&
    q.pathPrefix.all fun p => matchesPrefix p r

structure SnapshotEntryPage (F : Type) where
  snapshotId : Value F
  entries : List (Entry F)
  returnedCount : Nat
  limit : Nat
  offset : Nat
  hasMore : Bool

/-- The rows the query returns: one more than `limit`. -/
def selectPage (ix : Index F) (snapshotId : Value F) (q : EntryFilter) (limit offset : Nat) :
    Result (List (Row EntryKey F)) := do
  let x ← sql (bind snapshotId)
  let _ ← q.values.mapM fun t => sql (bind (F := F) (.str t))
  let rows := ix.snapshotEntries.filter fun r => entrySchema.is (.field .snapshotId) x r && q.admits r
  pure (((rows.insertionSort entryRowLe).drop offset).take (limit + 1))

/-- `_list_snapshot_entries` -/
def entryPage (ix : Index F) (snapshotId : Value F) (q : EntryFilter) (limit offset : Nat) :
    Result (SnapshotEntryPage F) := do
  if (← sql (snapshotSchema.select ix.snapshots (.field .snapshotId) snapshotId)).isEmpty then
    throw (.steward .snapshotNotFoundError)
  let rows ← selectPage ix snapshotId q limit offset
  let entries ← (rows.take limit).mapM fun r => py (entryFromRow r)
  pure ⟨snapshotId, entries, entries.length, limit, offset, limit < rows.length⟩

/-- Read paginated derived entry rows only. -/
def listSnapshotEntries (ix : Index F) (snapshotId : Value F) (q : EntryFilter) (limit offset : Int) :
    Result (SnapshotEntryPage F) := do
  validatePage limit offset q.pathPrefix
  entryPage ix snapshotId q limit.toNat offset.toNat

/-- `x in xs` for a text. -/
def holdsText (xs : List (Value F)) (t : Text) : Bool := xs.any fun v => v.eq (.str t)

/-- Verification, scope authority and page from one guarded database identity. -/
def verifiedSnapshotEntries (c : Corpus F) (ix : Index F) (depth : Nat) (snapshotId : Value F)
    (q : EntryFilter) (limit offset : Int) :
    Result (Verification F × Snapshot F × SnapshotEntryPage F) := do
  validatePage limit offset q.pathPrefix
  let verification ← verifySnapshot c ix depth snapshotId
  let snapshot ← getSnapshot ix snapshotId
  if q.scopeId.any fun s => !holdsText snapshot.scopeIds s then throw (.steward .snapshotScopeError)
  let page ← entryPage ix snapshotId q limit.toNat offset.toNat
  pure (verification, snapshot, page)

end Steward
