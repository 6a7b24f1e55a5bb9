import Steward.Snapshot.ValidateV1

/-!
# Version 2 field tests

The tests `_validate_snapshot_evidence_v2` makes. Membership in an enumeration
hashes its left operand, so each such test is an `Except` computation. Its
Boolean versions say when it returns (`payloadTotal`, `entryTotal`,
`typedTotal`) and what it then says (`payloadValid`, `entryValid`,
`typedValid`); a `checks_…` lemma connects the three.
-/

namespace Steward

open Py Sqlite

variable {F : Type} [SqliteFloat F]

/-! ## Field tests -/

/-- `isinstance(v, int)`, not a boolean, and `p v`. -/
def isIntWith (p : Int → Bool) : Value F → Bool
  | .int n => p n
  | _ => false

def isNonnegativeInt (v : Value F) : Bool := isIntWith (0 ≤ ·) v

def isPositiveInt (v : Value F) : Bool := isIntWith (0 < ·) v

def isOptionalNonnegativeInt (v : Value F) : Bool := v.isNone || isNonnegativeInt v

def isOptionalInt (v : Value F) : Bool := v.isNone || v.isInt

def isOptionalStr (v : Value F) : Bool := v.isNone || v.isStr

/-- `v in α._value2member_map_` -/
def memberOf (α : Type) [Named α] (v : Value F) : Except Py.Error Bool := v.memStrs (memberNames α)

def isMember (α : Type) [Named α] (v : Value F) : Bool :=
  match v with
  | .str s => s ∈ memberNames α
  | _ => false

omit [SqliteFloat F] in
theorem checks_memberOf (α : Type) [Named α] (v : Value F) :
    Checks (memberOf α v) v.hashable (isMember α v) := fun b => by
  cases v <;> simp [memberOf, Value.memStrs, isMember, Value.hashable, eq_comm]

omit [SqliteFloat F] in
theorem isMember_iff {α : Type} [Named α] {v : Value F} :
    isMember α v = true ↔ ∃ a : α, v = nameValue a := by
  cases v with
  | str s =>
    simp only [isMember, decide_eq_true_eq, mem_memberNames, Named.ofName?_eq_some, nameValue,
      Value.str.injEq]
    exact exists_congr fun _ => eq_comm
  | _ => exact iff_of_false Bool.false_ne_true (by rintro ⟨a, ⟨⟩⟩)

/-! ## Hash policy -/

/-- `isinstance(d, (int, float))`, not a boolean, `math.isfinite(d)` and `d > 0`. -/
def finiteDuration : Value F → Except Py.Error Bool
  | .int n => match PyFloat.ofInt (F := F) n with
    | some _ => .ok (0 < n)
    | none => .error .overflowError
  | .float x => .ok (PyFloat.isFinite x && PyFloat.isPositive x)
  | _ => .ok false

/-- The conjuncts before the duration. -/
def policyHead (p : List (Text × Value F)) : Bool :=
  hasKeys (memberNames PolicyKey) p &&
    (fieldOf p PolicyKey.algorithm).eq (lit "sha256") &&
    isPositiveInt (fieldOf p PolicyKey.algorithmVersion) &&
    isOptionalNonnegativeInt (fieldOf p PolicyKey.maxHashFileBytes) &&
    isOptionalNonnegativeInt (fieldOf p PolicyKey.maxTotalHashBytes)

/-- The conjuncts after it. -/
def policyTail (p : List (Text × Value F)) : Bool :=
  isPositiveInt (fieldOf p PolicyKey.hashChunkSize) &&
    (fieldOf p PolicyKey.allowNonLocalContent).isBool &&
    (fieldOf p PolicyKey.allowVerifiedReuse).isBool

def validHashPolicy (policy : Value F) : Except Py.Error Bool :=
  match policy with
  | .dict p =>
    if policyHead p then
      andThen
        (if (fieldOf p PolicyKey.maxHashDurationSeconds).isNone then .ok true
          else finiteDuration (fieldOf p PolicyKey.maxHashDurationSeconds))
        (.ok (policyTail p))
    else .ok false
  | _ => .ok false

/-! ## Payload observations -/

def successStatuses : List Text :=
  names [PayloadObservationStatus.hashed, PayloadObservationStatus.emptyFileHashed]

/-- The observation of an entry, when it has exactly the payload fields. -/
def observationOf (item : List (Text × Value F)) : Option (List (Text × Value F)) :=
  match fieldOf item EntryKey.payloadObservation with
  | .dict p => if hasKeys (memberNames PayloadKey) p then some p else none
  | _ => none

/-- The error codes are well formed. -/
def payloadCodes (p : List (Text × Value F)) : Bool :=
  isOptionalNonnegativeInt (fieldOf p (PayloadKey.field .osErrorCode)) &&
    (match fieldOf p (PayloadKey.field .failureCode) with
      | .none => true
      | .str s => !s.isEmpty
      | _ => false)

def isSuccess (p : List (Text × Value F)) : Bool :=
  match fieldOf p PayloadKey.status with
  | .str s => s ∈ successStatuses
  | _ => false

/-- Everything but the codes is null. -/
def payloadBlank (p : List (Text × Value F)) : Bool :=
  (fieldOf p (PayloadKey.field .algorithm)).isNone &&
    (fieldOf p (PayloadKey.field .algorithmVersion)).isNone &&
    (fieldOf p (PayloadKey.field .digest)).isNone &&
    (fieldOf p (PayloadKey.field .bytesHashed)).isNone &&
    (fieldOf p PayloadKey.provenance).isNone &&
    (fieldOf p (PayloadKey.field .reusedFromSnapshotId)).isNone

def isSha256Hex : Value F → Bool
  | .str s => s.length = 64 && s.all isHexDigit
  | _ => false

/-- The tests on a successful observation before its provenance. -/
def payloadHead (p : List (Text × Value F)) : Bool :=
  (fieldOf p (PayloadKey.field .algorithm)).eq (lit "sha256") &&
    isPositiveInt (fieldOf p (PayloadKey.field .algorithmVersion)) &&
    isSha256Hex (fieldOf p (PayloadKey.field .digest)) &&
    isNonnegativeInt (fieldOf p (PayloadKey.field .bytesHashed)) &&
    (fieldOf p (PayloadKey.field .failureCode)).isNone &&
    (fieldOf p (PayloadKey.field .osErrorCode)).isNone

/-- The tests after it. -/
def payloadTail (item p : List (Text × Value F)) : Bool :=
  let size := fieldOf item (EntryKey.field .sizeBytes)
  let status := fieldOf p PayloadKey.status
  (fieldOf item EntryKey.objectType).eq (nameValue FilesystemObjectType.regularFile) &&
    isNonnegativeInt size && (fieldOf p (PayloadKey.field .bytesHashed)).eq size &&
    !(status.eq (nameValue PayloadObservationStatus.hashed) && size.eq (.int 0)) &&
    !(status.eq (nameValue PayloadObservationStatus.emptyFileHashed) && !size.eq (.int 0)) &&
    (if (fieldOf p PayloadKey.provenance).eq (nameValue PayloadObservationProvenance.directRead) then
      (fieldOf p (PayloadKey.field .reusedFromSnapshotId)).isNone
    else match fieldOf p (PayloadKey.field .reusedFromSnapshotId) with
      | .str s => (Runtime.uuidVersion F s).isSome
      | _ => false)

def validPayloadObservation (item : List (Text × Value F)) : Except Py.Error Bool :=
  match observationOf item with
  | none => .ok false
  | some p =>
    andThen (memberOf PayloadObservationStatus (fieldOf p PayloadKey.status))
      (if !payloadCodes p then .ok false
      else if !isSuccess p then .ok (payloadBlank p)
      else if !payloadHead p then .ok false
      else andThen (memberOf PayloadObservationProvenance (fieldOf p PayloadKey.provenance))
        (.ok (payloadTail item p)))

/-- What the test says when it returns. -/
def payloadValid (item : List (Text × Value F)) : Bool :=
  match observationOf item with
  | none => false
  | some p =>
    isMember PayloadObservationStatus (fieldOf p PayloadKey.status) && payloadCodes p &&
      (if isSuccess p then
        payloadHead p && isMember PayloadObservationProvenance (fieldOf p PayloadKey.provenance) &&
          payloadTail item p
      else payloadBlank p)

/-- It returns: the statuses it hashes are hashable. -/
def payloadTotal (item : List (Text × Value F)) : Bool :=
  match observationOf item with
  | none => true
  | some p =>
    (fieldOf p PayloadKey.status).hashable &&
      (!(isMember PayloadObservationStatus (fieldOf p PayloadKey.status) && payloadCodes p &&
          isSuccess p && payloadHead p) ||
        (fieldOf p PayloadKey.provenance).hashable)

theorem checks_validPayloadObservation (item : List (Text × Value F)) :
    Checks (validPayloadObservation item) (payloadTotal item) (payloadValid item) := by
  unfold validPayloadObservation payloadTotal payloadValid
  cases observationOf item with
  | none => exact checks_ok false
  | some p =>
    refine ((checks_memberOf _ _).andThen fun _ => checks_ite (fun _ => checks_ok _) fun _ =>
      checks_ite (fun _ => checks_ok _) fun _ => checks_ite (fun _ => checks_ok _) fun _ =>
      (checks_memberOf _ _).andThen fun _ => checks_ok _).of_eq ?_ fun _ => ?_
    all_goals
      cases hs : isMember PayloadObservationStatus (fieldOf p PayloadKey.status) <;>
        cases hc : payloadCodes p <;> cases hu : isSuccess p <;> cases hh : payloadHead p <;>
        simp [hs, hc, hu, hh]

/-- The hash policy test returns: a duration it looks at fits a float. -/
def policyTotal (policy : Value F) : Bool :=
  match policy with
  | .dict p => !policyHead p || (match fieldOf p PolicyKey.maxHashDurationSeconds with
    | .int n => (PyFloat.ofInt (F := F) n).isSome
    | _ => true)
  | _ => true

def policyValid (policy : Value F) : Bool :=
  match policy with
  | .dict p => policyHead p && (match fieldOf p PolicyKey.maxHashDurationSeconds with
    | .none => true
    | .int n => 0 < n
    | .float x => PyFloat.isFinite x && PyFloat.isPositive x
    | _ => false) && policyTail p
  | _ => false

theorem checks_validHashPolicy (policy : Value F) :
    Checks (validHashPolicy policy) (policyTotal policy) (policyValid policy) := by
  cases policy with
  | dict p =>
    have hd : Checks (if (fieldOf p PolicyKey.maxHashDurationSeconds).isNone then .ok true
          else finiteDuration (fieldOf p PolicyKey.maxHashDurationSeconds))
        (match fieldOf p PolicyKey.maxHashDurationSeconds with
          | .int n => (PyFloat.ofInt (F := F) n).isSome
          | _ => true)
        (match fieldOf p PolicyKey.maxHashDurationSeconds with
          | .none => true
          | .int n => 0 < n
          | .float x => PyFloat.isFinite x && PyFloat.isPositive x
          | _ => false) := by
      cases fieldOf p PolicyKey.maxHashDurationSeconds with
      | int n => intro b; cases h : PyFloat.ofInt (F := F) n <;> simp [Value.isNone, finiteDuration, h, eq_comm]
      | _ => exact checks_ok _
    refine (checks_ite (fun _ => hd.andThen fun _ => checks_ok (policyTail p))
      fun _ => checks_ok false).of_eq ?_ fun _ => ?_
    · cases hp : policyHead p <;> simp [policyTotal, hp]
    · cases hp : policyHead p <;> simp [policyValid, hp]
  | _ => exact checks_ok false

/-! ## Entry schema -/

def entryStrings : List EntryField := [.entryId, .snapshotId, .scopeId, .relativePath]

def entryIntegers : List EntryField :=
  [.deviceId, .inode, .mode, .uid, .gid, .sizeBytes, .mtimeNs, .ctimeNs, .birthtimeNs, .linkCount]

def entryOptionalStrings : List EntryField := [.symlinkTargetRaw, .errorCode, .errorMessage]

/-- The keys and the identifying strings. -/
def entryHead (fs : List (Text × Value F)) : Bool :=
  hasKeys (memberNames EntryKey) fs &&
    entryStrings.all fun f => (fieldOf fs (EntryKey.field f)).isStr

/-- The field types after the two enumerations. -/
def entryTail (fs : List (Text × Value F)) : Bool :=
  (EntryFlag.all.all fun f => (fieldOf fs (EntryKey.flag f)).isBool) &&
    (entryIntegers.all fun f => isOptionalInt (fieldOf fs (EntryKey.field f))) &&
    (entryOptionalStrings.all fun f => isOptionalStr (fieldOf fs (EntryKey.field f))) &&
    isOptionalNonnegativeInt (fieldOf fs EntryKey.allocatedSizeBytes)

def v2EntrySchemaValid (fs : List (Text × Value F)) : Except Py.Error Bool :=
  if !entryHead fs then .ok false
  else andThen (memberOf FilesystemObjectType (fieldOf fs EntryKey.objectType))
    (andThen (memberOf FilesystemObservationStatus (fieldOf fs EntryKey.observationStatus))
      (if !entryTail fs then .ok false else validPayloadObservation fs))

def entryValid (fs : List (Text × Value F)) : Bool :=
  entryHead fs && isMember FilesystemObjectType (fieldOf fs EntryKey.objectType) &&
    isMember FilesystemObservationStatus (fieldOf fs EntryKey.observationStatus) && entryTail fs &&
    payloadValid fs

/-- The schema test returns: what it hashes is hashable. -/
def entryTotal (fs : List (Text × Value F)) : Bool :=
  !entryHead fs ||
    (fieldOf fs EntryKey.objectType).hashable &&
      (!isMember FilesystemObjectType (fieldOf fs EntryKey.objectType) ||
        (fieldOf fs EntryKey.observationStatus).hashable &&
          (!(isMember FilesystemObservationStatus (fieldOf fs EntryKey.observationStatus) &&
              entryTail fs) || payloadTotal fs))

theorem checks_v2EntrySchemaValid (fs : List (Text × Value F)) :
    Checks (v2EntrySchemaValid fs) (entryTotal fs) (entryValid fs) := by
  refine (checks_ite (fun _ => checks_ok _) fun _ => (checks_memberOf _ _).andThen fun _ =>
    (checks_memberOf _ _).andThen fun _ => checks_ite (fun _ => checks_ok _) fun _ =>
    checks_validPayloadObservation fs).of_eq ?_ fun _ => ?_
  all_goals
    cases hh : entryHead fs <;> cases ht : entryTail fs <;>
      cases ho : isMember FilesystemObjectType (fieldOf fs EntryKey.objectType) <;>
      cases hs : isMember FilesystemObservationStatus (fieldOf fs EntryKey.observationStatus) <;>
      simp [entryTotal, entryValid, hh, ht, ho, hs]

/-! ## Snapshot field types -/

def snapshotStrings : List SnapshotField :=
  [.snapshotId, .runId, .createdAt, .startedAt, .completedAt, .configDigest, .entriesDigest,
    .snapshotDigest]

def snapshotCounts : List SnapshotKey :=
  [.field .entryCount, .field .observedCount, .field .errorCount, .field .excludedCount,
    .field .totalRegularFileBytes, .field .maxDepthObserved, .allocatedKnownSum,
    .allocatedUnknownCount]

def snapshotShapedV2 (env : List (Text × Value F)) : Bool :=
  (match snapshotOf env with
    | .dict s => hasKeys (memberNames SnapshotKey) s
    | _ => false) && (entriesOf env).isList

/-- The conjuncts of `typed_snapshot_valid` before the enumerations. -/
def typedHead (env : List (Text × Value F)) : Bool :=
  let data := members (snapshotOf env)
  snapshotShapedV2 env &&
    (snapshotStrings.all fun f => (fieldOf data (SnapshotKey.field f)).isStr) &&
    (fieldOf data SnapshotKey.snapshotSchemaVersion).eq (.int 2)

/-- Between them and the hash policy. -/
def typedScopes (data : List (Text × Value F)) : Bool :=
  (fieldOf data SnapshotKey.scopeIds).isList &&
    (elements (fieldOf data SnapshotKey.scopeIds)).all Value.isStr &&
    (fieldOf data SnapshotKey.budget).isDict

def typedCounts (data : List (Text × Value F)) : Bool :=
  snapshotCounts.all fun k => isNonnegativeInt (fieldOf data k)

/-- `typed_snapshot_valid` -/
def typedSnapshotValid (env : List (Text × Value F)) : Except Py.Error Bool :=
  let data := members (snapshotOf env)
  if !typedHead env then .ok false
  else andThen (memberOf SnapshotStatus (fieldOf data SnapshotKey.status))
    (andThen (memberOf SnapshotConsistency (fieldOf data SnapshotKey.consistency))
      (if !typedScopes data then .ok false
      else andThen (validHashPolicy (fieldOf data SnapshotKey.hashPolicy)) (.ok (typedCounts data))))

def typedValid (env : List (Text × Value F)) : Bool :=
  let data := members (snapshotOf env)
  typedHead env && isMember SnapshotStatus (fieldOf data SnapshotKey.status) &&
    isMember SnapshotConsistency (fieldOf data SnapshotKey.consistency) && typedScopes data &&
    policyValid (fieldOf data SnapshotKey.hashPolicy) && typedCounts data

def typedTotal (env : List (Text × Value F)) : Bool :=
  let data := members (snapshotOf env)
  !typedHead env ||
    (fieldOf data SnapshotKey.status).hashable &&
      (!isMember SnapshotStatus (fieldOf data SnapshotKey.status) ||
        (fieldOf data SnapshotKey.consistency).hashable &&
          (!(isMember SnapshotConsistency (fieldOf data SnapshotKey.consistency) &&
              typedScopes data) || policyTotal (fieldOf data SnapshotKey.hashPolicy)))

theorem checks_typedSnapshotValid (env : List (Text × Value F)) :
    Checks (typedSnapshotValid env) (typedTotal env) (typedValid env) := by
  refine (checks_ite (fun _ => checks_ok _) fun _ => (checks_memberOf _ _).andThen fun _ =>
    (checks_memberOf _ _).andThen fun _ => checks_ite (fun _ => checks_ok _) fun _ =>
    (checks_validHashPolicy _).andThen fun _ => checks_ok _).of_eq ?_ fun _ => ?_
  all_goals
    cases hh : typedHead env <;> cases hc : typedScopes (members (snapshotOf env)) <;>
      cases hs : isMember SnapshotStatus (fieldOf (members (snapshotOf env)) SnapshotKey.status) <;>
      cases hk : isMember SnapshotConsistency
        (fieldOf (members (snapshotOf env)) SnapshotKey.consistency) <;>
      simp [typedTotal, typedValid, hh, hc, hs, hk]

/-! ## Tests over the entries -/

/-- `isinstance(item, dict) and f(item)` -/
def onDict (f : List (Text × Value F) → Except Py.Error Bool) (item : Value F) :
    Except Py.Error Bool :=
  match item with
  | .dict fs => f fs
  | _ => .ok false

def dictAnd (p : List (Text × Value F) → Bool) (item : Value F) : Bool :=
  match item with
  | .dict fs => p fs
  | _ => false

def dictImp (p : List (Text × Value F) → Bool) (item : Value F) : Bool :=
  match item with
  | .dict fs => p fs
  | _ => true

omit [SqliteFloat F] in
theorem checks_onDict {f : List (Text × Value F) → Except Py.Error Bool}
    {t v : List (Text × Value F) → Bool} (h : ∀ fs, Checks (f fs) (t fs) (v fs)) (item : Value F) :
    Checks (onDict f item) (dictImp t item) (dictAnd v item) := by
  cases item with
  | dict fs => exact h fs
  | _ => exact checks_ok false

/-- The strings hashed into an entry's expected id. -/
def entryIdentity (snapshotId : Option Text) (fs : List (Text × Value F)) : Text × Text × Text :=
  ((optText (F := F) snapshotId).pyStr, (fieldOf fs (EntryKey.field .scopeId)).pyStr,
    (fieldOf fs (EntryKey.field .relativePath)).pyStr)

def entryIdValid (snapshotId : Option Text) (fs : List (Text × Value F)) : Except Py.Error Bool := do
  let i := entryIdentity snapshotId fs
  let expected ← entryId (F := F) i.1 i.2.1 i.2.2
  pure ((fieldOf fs (EntryKey.field .entryId)).eq (.str expected))

/-- The expected id, when the strings encode. -/
def idMatches (snapshotId : Option Text) (fs : List (Text × Value F)) : Bool :=
  let i := entryIdentity snapshotId fs
  (fieldOf fs (EntryKey.field .entryId)).eq
    (.str (Runtime.sha256 F (Text.utf8 (entryIdText i.1 i.2.1 i.2.2))))

def identityEncodable (snapshotId : Option Text) (fs : List (Text × Value F)) : Bool :=
  let i := entryIdentity snapshotId fs
  i.1.encodable && i.2.1.encodable && i.2.2.encodable

theorem entryId_eq_ok {a b c d : Text} : entryId (F := F) a b c = .ok d ↔
    (a.encodable = true ∧ b.encodable = true ∧ c.encodable = true) ∧
      d = Runtime.sha256 F (Text.utf8 (entryIdText a b c)) := by
  rw [← ok_entryId (F := F)]
  unfold entryId Text.encode
  split_ifs <;> simp [eq_comm]

theorem checks_entryIdValid (snapshotId : Option Text) (fs : List (Text × Value F)) :
    Checks (entryIdValid snapshotId fs) (identityEncodable snapshotId fs) (idMatches snapshotId fs) := by
  intro b
  simp only [entryIdValid, bind_eq_ok, entryId_eq_ok, identityEncodable, idMatches, Bool.and_eq_true,
    and_assoc]
  constructor
  · rintro ⟨_, h1, h2, h3, rfl, h⟩; cases h; exact ⟨h1, h2, h3, rfl⟩
  · rintro ⟨h1, h2, h3, rfl⟩; exact ⟨_, h1, h2, h3, rfl, rfl⟩

/-- What `x in c` says when it is defined. -/
def holds (c x : Value F) : Bool :=
  match c, x with
  | .list ys, x => ys.any (·.same x)
  | .dict fs, .str s => s ∈ keys fs
  | .str s, .str t => Text.hasInfix t s
  | _, _ => false

/-- `x in c` is defined. -/
def canHold (c x : Value F) : Bool :=
  match c, x with
  | .list _, _ => true
  | .dict _, x => x.hashable
  | .str _, .str _ => true
  | _, _ => false

theorem checks_contains (c x : Value F) : Checks (c.contains x) (canHold c x) (holds c x) := fun b => by
  cases c <;> cases x <;>
    simp [Value.contains, canHold, holds, Value.memStrs, Value.hashable, eq_comm]

/-- `item.get("snapshot_id") == snapshot_id and item.get("scope_id") in scope_ids` -/
def scopeValid (snapshotId : Option Text) (scopes : Value F) (fs : List (Text × Value F)) :
    Except Py.Error Bool :=
  if (fieldOf fs (EntryKey.field .snapshotId)).eq (optText snapshotId) then
    scopes.contains (fieldOf fs (EntryKey.field .scopeId))
  else .ok false

def scopeHolds (snapshotId : Option Text) (scopes : Value F) (fs : List (Text × Value F)) : Bool :=
  (fieldOf fs (EntryKey.field .snapshotId)).eq (optText snapshotId) &&
    holds scopes (fieldOf fs (EntryKey.field .scopeId))

def scopeTotal (snapshotId : Option Text) (scopes : Value F) (fs : List (Text × Value F)) : Bool :=
  !(fieldOf fs (EntryKey.field .snapshotId)).eq (optText snapshotId) ||
    canHold scopes (fieldOf fs (EntryKey.field .scopeId))

theorem checks_scopeValid (snapshotId : Option Text) (scopes : Value F) (fs : List (Text × Value F)) :
    Checks (scopeValid snapshotId scopes fs) (scopeTotal snapshotId scopes fs)
      (scopeHolds snapshotId scopes fs) := by
  refine (checks_ite (fun _ => checks_contains _ _) fun _ => checks_ok _).of_eq ?_ fun _ => ?_
  all_goals
    cases h : (fieldOf fs (EntryKey.field .snapshotId)).eq (optText snapshotId) <;>
      simp [scopeTotal, scopeHolds, h]

/-- The scoped locations of the dictionary items. -/
def scopedKeys (items : List (Value F)) : List (Value F × Value F) :=
  items.filterMap fun item => match item with
    | .dict fs => some (fieldOf fs (EntryKey.field .scopeId), fieldOf fs (EntryKey.field .relativePath))
    | _ => none

/-- `len(keys) == len(set(keys))` on tuples. -/
def allDistinct : List (Value F × Value F) → Bool
  | [] => true
  | p :: ps => ps.all (fun q => !(p.1.same q.1 && p.2.same q.2)) && allDistinct ps

def keysHashable (ps : List (Value F × Value F)) : Bool :=
  ps.all fun p => p.1.hashable && p.2.hashable

def keysDistinct (ps : List (Value F × Value F)) : Except Py.Error Bool :=
  if keysHashable ps then .ok (allDistinct ps) else .error .typeError

theorem checks_keysDistinct (ps : List (Value F × Value F)) :
    Checks (keysDistinct ps) (keysHashable ps) (allDistinct ps) := fun b => by
  unfold keysDistinct
  cases h : keysHashable ps <;> simp [eq_comm]

/-- The sort key of an item exists. -/
def sortable (item : Value F) : Bool :=
  dictAnd (fun fs => (((lookup fs (Named.name (EntryKey.field .relativePath))).getD
    (lit "")).pyStr.utf8Escape).isSome) item

theorem ok_v2EntrySortKey {item : Value F} : Ok (v2EntrySortKey item) ↔ sortable item = true := by
  cases item with
  | dict fs =>
    simp only [v2EntrySortKey, sortable, dictAnd, pure, Except.pure, ok_bind_ok]
    cases h : Text.utf8Escape _ <;> simp [throw, throwThe, MonadExceptOf.throw]
  | _ => exact iff_of_false (by rintro ⟨_, ⟨⟩⟩) Bool.false_ne_true

theorem ok_canonicalEntries {items : List (Value F)} :
    Ok (canonicalSnapshotV2Entries items) ↔ items.all sortable = true := by
  rw [canonicalSnapshotV2Entries, ok_bind_of_total fun _ => ok_pure _, ok_mapM, List.all_eq_true]
  exact forall₂_congr fun item _ => by
    rw [ok_bind_of_total fun _ => ok_pure _, ok_v2EntrySortKey]

end Steward
