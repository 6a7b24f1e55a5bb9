import Steward.Evidence.Envelope
import Steward.Runs.Record

/-!
# The Run coordinator

`runs.py`: the Evidence item of an operation, and `create_run` and
`transition_run`. An operation publishes one item and then commits its
projection to the index; the fault injector may stop it at four checkpoints.
What `uuid4` and `utc_now` return is an input.
-/

namespace Steward

open Py Sqlite

variable {F : Type} [SqliteFloat F]

/-- The durable state: the files and the committed rows. -/
structure World (F : Type) where
  corpus : Corpus F
  index : Index F

def World.empty {F : Type} : World F := ⟨⟨none, fun _ => none⟩, .empty⟩

/-! ## Faults -/

inductive Stage where
  | beforeEvidencePublish | afterEvidencePublish | beforeIndexCommit | afterIndexCommit
  deriving DecidableEq, Repr

/-- The stages of each operation at which `inject` raises. -/
abbrev FaultInjector := Text → Stage → Bool

/-- Invoke an optional fault injector; production callers pass no injector. -/
def checkpoint (injector : Option FaultInjector) (operation : Text) (stage : Stage) : Result Unit :=
  if injector.any fun inject => inject operation stage then .error .fault else .ok ()

/-! ## Evidence items -/

/-- One `str(uuid.uuid4())` and one `utc_now()`. -/
structure Stamp where
  evidenceId : Text
  createdAt : Text

/-- The fields of an item with a given sequence number and digest. -/
def evidenceField (run : RunRecord F) (evidenceType : Text) (payload : Value F) (schemaVersion : Int)
    (stamp : Stamp) (sequence evidenceDigest : Value F) : EnvelopeKey → Value F
  | .schemaVersion => .int schemaVersion
  | .evidenceId => .str stamp.evidenceId
  | .evidenceType => .str evidenceType
  | .runId => run.runId
  | .sequence => sequence
  | .createdAt => .str stamp.createdAt
  | .toolVersion => lit "0.1.0"
  | .configDigest => run.configDigest
  | .policyDigest => .none
  | .providerVersions => .dict []
  | .previousEvidenceDigest => run.lastEvidenceDigest
  | .payload => payload
  | .evidenceDigest => evidenceDigest

/-- `v + 1` -/
def successor (v : Value F) : Except Py.Error (Value F) := Value.Num.toValue <$> Value.Num.add (.int 1) v

/-- `_evidence` -/
def evidence (run : RunRecord F) (evidenceType : Text) (payload : Value F) (schemaVersion : Int)
    (stamp : Stamp) : Result (List (Text × Value F)) := do
  let sequence ← py (successor run.lastSequence)
  let item := record Named.name EnvelopeKey.unsealed
    (evidenceField run evidenceType payload schemaVersion stamp sequence .none)
  let d ← digest item
  pure (item ++ [(Named.name EnvelopeKey.evidenceDigest, .str d)])

/-- An item is the envelope of its fields, sealed. -/
theorem evidence_eq_ok {run : RunRecord F} {t : Text} {payload : Value F} {v : Int} {stamp : Stamp}
    {item : List (Text × Value F)} (h : evidence run t payload v stamp = .ok item) :
    ∃ n d, successor run.lastSequence = .ok n ∧
      item = envelope (evidenceField run t payload v stamp n d) ∧
      Sealed (evidenceField run t payload v stamp n d) := by
  simp only [evidence, bind_eq_ok, py_eq_ok] at h
  obtain ⟨n, hn, d, hd, h⟩ := h
  cases h
  have hrec (x : Value F) : record Named.name EnvelopeKey.unsealed
      (evidenceField run t payload v stamp n x) =
      record Named.name EnvelopeKey.unsealed (evidenceField run t payload v stamp n .none) :=
    record_congr fun k hk => by cases k <;> first | rfl | exact absurd rfl (EnvelopeKey.mem_unsealed.1 hk)
  rw [digest, without_unsealed] at hd
  obtain ⟨hs, rfl⟩ := digestOf_eq_ok.1 hd
  have hsplit (x : Value F) : envelope (evidenceField run t payload v stamp n x) =
      record Named.name EnvelopeKey.unsealed (evidenceField run t payload v stamp n x) ++
        [(Named.name EnvelopeKey.evidenceDigest, x)] := rfl
  refine ⟨n, .str (sealOf (evidenceField run t payload v stamp n .none)), hn, ?_, ?_, ?_⟩
  · rw [hsplit, hrec]; rfl
  · rw [hrec]; exact hs
  · rw [sealOf, hrec]; rfl

/-! ## Publishing -/

/-- What an operation publishes and the index it then commits, given the path of the file. -/
structure Publication.Plan (F : Type) where
  operation : Text
  item : List (Text × Value F)
  project : Text → Result (Index F)

/-- Publish the item, project it into a transaction and commit, with the four checkpoints. A failure
rolls the transaction back; the file stays. -/
def publish (injector : Option FaultInjector) (w : World F) (p : Publication.Plan F) :
    Result Unit × World F :=
  match checkpoint injector p.operation .beforeEvidencePublish with
  | .error e => (.error e, w)
  | .ok () =>
    let published := writeEvidence w.corpus p.item
    let transaction : Result (Index F) := do
      let relative ← published.1
      checkpoint injector p.operation .afterEvidencePublish
      let index ← p.project relative
      checkpoint injector p.operation .beforeIndexCommit
      pure index
    match transaction with
    | .error e => (.error e, ⟨published.2, w.index⟩)
    | .ok index => (checkpoint injector p.operation .afterIndexCommit, ⟨published.2, index⟩)

/-- `except sqlite3.OperationalError` -/
def lockTimeout {α : Type} : Result α → Result α
  | .error (.sqlite .operationalError) => .error (.steward .storageBusyError)
  | r => r

/-- `INSERT INTO evidence_records VALUES (…)` -/
def insertEvidenceRecord (ix : Index F) (vals : EvidenceColumn → Value F) : Result (Index F) := do
  let evidenceRecords ← sql (evidenceSchema.insert ix.evidenceRecords vals)
  sql (requireReference (evidenceSchema.cell .runId (vals .runId)) (ix.runs.map (· .runId)))
  pure { ix with evidenceRecords }

/-- The row of `evidence_records` an operation inserts for its item. -/
def evidenceRow (item : List (Text × Value F)) (runId sequence previous : Value F)
    (schemaVersion : Int) (relative : Text) : EvidenceColumn → Value F
  | .evidenceId => fieldOf item EnvelopeKey.evidenceId
  | .runId => runId
  | .sequence => sequence
  | .evidenceType => fieldOf item EnvelopeKey.evidenceType
  | .createdAt => fieldOf item EnvelopeKey.createdAt
  | .relativePath => .str relative
  | .previousEvidenceDigest => previous
  | .evidenceDigest => fieldOf item EnvelopeKey.evidenceDigest
  | .schemaVersion => .int schemaVersion

/-! ## Creating a Run -/

/-- `[a-z][a-z0-9._-]{0,63}` -/
def isRunKind (kind : Text) : Bool := isTypeName kind && kind.length ≤ 64

/-- `json.dumps(metadata or {}, sort_keys=True, separators=(",", ":"), allow_nan=False)` -/
def dumpsMetadata (metadata : Option (Document F)) : Option Text :=
  let value := match metadata with
    | some m => if m.value.truthy then m.value else .dict []
    | none => .dict []
  if value.finite then some (Json.render metadataStyle value.sortKeys) else none

/-- The Run ID is a canonical UUIDv4. -/
def canonicalRunId (runId : Text) : Bool :=
  match Runtime.uuidVersion F runId with
  | some version => version = some 4 && Runtime.uuidText F runId = runId
  | none => false

/-- The arguments of `create_run`; `fresh` is a `uuid4`, `now` the first `utc_now`. -/
structure Creation (F : Type) where
  configDigest : Text
  runKind : Text
  metadata : Option (Document F)
  requestedId : Option Text
  fresh : Text
  now : Text
  stamp : Stamp

/-- `_run_id or str(uuid.uuid4())` -/
def Creation.runId (a : Creation F) : Text :=
  match a.requestedId with
  | some r => if r = [] then a.fresh else r
  | none => a.fresh

/-- The Run record before its first Evidence. -/
def Creation.run (a : Creation F) (metadata : Value F) : RunRecord F where
  runId := .str a.runId
  runKind := .str a.runKind
  status := .created
  createdAt := .str a.now
  updatedAt := .str a.now
  configDigest := .str a.configDigest
  metadata := metadata
  lastSequence := .int 0
  lastEvidenceDigest := .none
  terminal := false

def creationPayload (a : Creation F) (metadata : Value F) : Value F :=
  .dict [(txt "run_kind", .str a.runKind), (txt "initial_status", nameValue RunStatus.created),
    (txt "metadata", metadata)]

/-- The row of `runs` of a new Run. -/
def creationRow (a : Creation F) (metadataJson : Text) (item : List (Text × Value F)) :
    RunColumn → Value F
  | .runId => .str a.runId
  | .runKind => .str a.runKind
  | .status => nameValue RunStatus.created
  | .createdAt | .updatedAt => fieldOf item EnvelopeKey.createdAt
  | .configDigest => .str a.configDigest
  | .metadataJson => .str metadataJson
  | .lastSequence => .int 1
  | .lastEvidenceDigest => fieldOf item EnvelopeKey.evidenceDigest
  | .terminal => .int 0

/-- The index with the new Run and its first record. -/
def creationProjection (ix : Index F) (a : Creation F) (metadataJson : Text)
    (item : List (Text × Value F)) (relative : Text) : Result (Index F) := do
  let runs ← sql (runSchema.insert ix.runs (creationRow a metadataJson item))
  insertEvidenceRecord { ix with runs } (evidenceRow item (.str a.runId) (.int 1) .none 1 relative)

def creationPlan (ix : Index F) (a : Creation F) : Result (Publication.Plan F) := do
  if !isRunKind a.runKind then throw (.steward .runKindError)
  if a.metadata.any fun m => !m.value.isDict then throw (.steward .runKindError)
  match dumpsMetadata a.metadata with
  | none => throw (.steward .runKindError)
  | some metadataJson =>
    if !canonicalRunId (F := F) a.runId then throw (.steward .runKindError)
    match Json.loads (F := F) metadataJson with
    | none => throw (.python .jsonDecodeError)
    | some metadata =>
      let item ← evidence (a.run metadata) (txt "run.created") (creationPayload a metadata) 1 a.stamp
      pure ⟨txt "run.create", item, creationProjection ix a metadataJson item⟩

def createRun (injector : Option FaultInjector) (w : World F) (a : Creation F) :
    Result (RunRecord F) × World F :=
  match creationPlan w.index a with
  | .error e => (.error e, w)
  | .ok p =>
    let r := publish injector w p
    (lockTimeout (do r.1; getRun r.2.index (.str a.runId)), r.2)

/-! ## Transitions -/

/-- `str.isspace` of one character. -/
def isSpace (c : CodePoint) : Bool :=
  (9 ≤ c.val && c.val ≤ 13) || (28 ≤ c.val && c.val ≤ 32) || c.val = 0x85 || c.val = 0xA0 ||
    c.val = 0x1680 || (0x2000 ≤ c.val && c.val ≤ 0x200A) || c.val = 0x2028 || c.val = 0x2029 ||
    c.val = 0x202F || c.val = 0x205F || c.val = 0x3000

/-- `text.strip()` -/
def strip (t : Text) : Text := ((t.dropWhile isSpace).reverse.dropWhile isSpace).reverse

structure Transition where
  runId : Text
  target : RunStatus
  reason : Text
  stamp : Stamp

def transitionPayload (current target : RunStatus) (reason : Text) : Value F :=
  .dict [(txt "from_status", nameValue current), (txt "to_status", nameValue target),
    (txt "reason", .str reason)]

/-- `UPDATE runs SET status=?, updated_at=?, last_sequence=?, last_evidence_digest=?, terminal=?` -/
def transitionSets (target : RunStatus) (item : List (Text × Value F)) : RunColumn → Option (Value F)
  | .status => some (nameValue target)
  | .updatedAt => some (fieldOf item EnvelopeKey.createdAt)
  | .lastSequence => some (fieldOf item EnvelopeKey.sequence)
  | .lastEvidenceDigest => some (fieldOf item EnvelopeKey.evidenceDigest)
  | .terminal => some (.int (if isTerminal target then 1 else 0))
  | _ => none

/-- The index with the new record and the Run moved on. -/
def transitionProjection (ix : Index F) (a : Transition) (item : List (Text × Value F))
    (relative : Text) : Result (Index F) := do
  let inserted ← insertEvidenceRecord ix (evidenceRow item (.str a.runId)
    (fieldOf item EnvelopeKey.sequence) (fieldOf item EnvelopeKey.previousEvidenceDigest) 1 relative)
  let runs ← sql (runSchema.update inserted.runs (transitionSets a.target item) .runId (.str a.runId))
  pure { inserted with runs }

/-- What the transition publishes; `none` when a cancelled Run is cancelled again. -/
def transitionPlan (ix : Index F) (a : Transition) : Result (RunRecord F × Option (Publication.Plan F)) := do
  let reason := strip a.reason
  if reason = [] || 1000 < reason.length then throw (.steward .invalidRunTransitionError)
  let current ← getRun ix (.str a.runId)
  if current.status = .cancelled && a.target = .cancelled then pure (current, none)
  else do
    validateTransition current.status a.target
    let item ← evidence current (txt "run.state_transition")
      (transitionPayload current.status a.target reason) 1 a.stamp
    pure (current, some ⟨txt "run.transition." ++ Named.name a.target, item,
      transitionProjection ix a item⟩)

def transitionRun (injector : Option FaultInjector) (w : World F) (a : Transition) :
    Result (RunRecord F) × World F :=
  match transitionPlan w.index a with
  | .error e => (lockTimeout (.error e), w)
  | .ok (current, none) => (.ok current, w)
  | .ok (_, some p) =>
    let r := publish injector w p
    (lockTimeout (do r.1; getRun r.2.index (.str a.runId)), r.2)

end Steward
