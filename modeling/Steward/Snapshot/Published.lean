import Steward.Snapshot.Create
import Steward.Snapshot.Lookup

/-!
# A Snapshot that verifies

The file of a coherent v1 Snapshot with the index rows that copy it:
verification finds it `VALID`. `shelf` is such a Snapshot over given paths.
-/

namespace Steward

open Py Sqlite

variable {F : Type} [SqliteFloat F]

/-- `s'` is read from the index rows that copy `s`. -/
structure Snapshot.Copies (s' s : Snapshot F) : Prop where
  stable : ∀ n ∈ stable, n.matches s' (s.value n.key).sortKeys = true
  entries : s'.entries = s.entries

theorem StableField.key_mem (n : StableField) (h : n ∈ stable) : n.key ∈ SnapshotKey.v1Current := by
  revert n
  decide

section
variable {s : Snapshot F} {f : EnvelopeKey → Value F} (hp : f .payload = payloadV1 s)
include hp

section

omit [SqliteFloat F]

theorem evidencePayload_envelope : evidencePayload (.dict (envelope f)) = payloadV1 s := by
  have hlookup : lookup (envelope f) (txt "payload") = some (f .payload) :=
    lookup_record f (fun _ _ _ _ => Named.name_inj) (Named.complete EnvelopeKey.payload)
  rw [evidencePayload, getOrEmpty, hlookup, hp]
  rfl

theorem factOf_envelope : factOf (.dict (envelope f)) = s.toDict.sortKeys := by
  rw [factOf, evidencePayload_envelope hp, payloadV1]
  simp [getOrEmpty, lookup_cons]

theorem evidenceEntries_envelope : evidenceEntries (.dict (envelope f)) = .list s.documents := by
  rw [evidenceEntries, evidencePayload_envelope hp, payloadV1]
  simp [lookup_cons, txt, ch]

end

end

theorem sameLocations_self (xs : List (Value F)) (h : ∀ x ∈ xs, x.wf = true) :
    sameLocations (locationsOf xs) (locationsOf xs) = true := by
  have hall : ∀ l ∈ locationsOf xs, l.1.wf = true ∧ l.2.wf = true := by
    intro l hl
    obtain ⟨x, hx, hxl⟩ := List.mem_filterMap.1 hl
    have hw := h x hx
    cases x with
    | dict fs =>
      cases hxl
      exact ⟨wf_keyOf hw (EntryKey.field .scopeId), wf_keyOf hw (EntryKey.field .relativePath)⟩
    | _ => cases hxl
  generalize locationsOf xs = ls at hall
  induction ls with
  | nil => rfl
  | cons l ls ih =>
    rw [List.forall_mem_cons] at hall
    rw [sameLocations, Value.same_self hall.1.1, Value.same_self hall.1.2, ih hall.2]
    rfl

/-- Verification of a published v1 Snapshot. -/
theorem verify_published {c : Corpus F} {ix : Index F} {sid run path : Text} {s s' : Snapshot F}
    {f : EnvelopeKey → Value F} {d : Document F} (depth : Nat) (hc : CoherentV1 s sid) (hf : Sealed f)
    (hpayload : f .payload = payloadV1 s) (htype : f .evidenceType = lit "filesystem.snapshot")
    (hversion : f .schemaVersion = .int 1) (hd : d.value = .dict (envelope f))
    (hget : getSnapshot ix (.str sid) = .ok s') (hcopy : s'.Copies s)
    (hpath : s'.field .evidenceRelativePath = .str path) (hfile : c.resolve path = some (.json d))
    (hevidence : (f .evidenceId).eq (s'.field .evidenceId) = true)
    (hrunId : f .runId = .str run ∧ s.field .runId = .str run ∧ s'.field .runId = .str run)
    (hrun : runChecks c ix s' = (true, true)) :
    ∃ v, verifySnapshot c ix depth (.str sid) = .ok v ∧ v.status = .valid := by
  have hpub : PublishesV1 s (envelope f) := publishesV1_envelope hf hpayload htype (by
    rw [hrunId.1, hrunId.2.1]
    exact Value.eq_str.2 rfl)
  have hv : snapshotEvidenceSchemaVersion d.value = some 1 := by
    rw [hd, snapshotEvidenceSchemaVersion, fieldOf_envelope, hversion]
    rfl
  obtain ⟨r, hvalidate, hvalid⟩ := accepts_iff.2 (.inl ⟨hv, by rw [hd]; exact hpub.accepted hc⟩)
  rw [verifySnapshot_json hget (by rw [hpath]; exact hfile), verifyDocument, hvalidate, ok_bind_ok, hvalid,
    reuseErrors, hv]
  have hfact (k : SnapshotKey) (hk : k ∈ SnapshotKey.v1Current) :
      fieldOf (members (factOf d.value)) k = (s.value k).sortKeys := by
    rw [hd, factOf_envelope hpayload, ← hpub.snapshot]
    exact hpub.fieldOf (by rwa [Snapshot.keys_v1 hc.v1])
  have hidentity : identityOk s' (.str sid) d.value = .ok true := by
    have hget (k : EnvelopeKey) : d.value.callGet (Named.name k) = .ok (f k) := by
      rw [hd]
      exact congrArg Except.ok (fieldOf_envelope f k)
    have hid : (factOf d.value).callGet (txt "snapshot_id") = .ok (.str sid) := by
      have hdict : factOf d.value = .dict (members (factOf d.value)) := by
        rw [hd, factOf_envelope hpayload, Snapshot.toDict, Value.sortKeys_dict]
        rfl
      have := hfact (.field .snapshotId) (by decide)
      rw [Snapshot.value, hc.id] at this
      rw [hdict]
      exact congrArg Except.ok this
    have he : d.value.callGet (txt "evidence_id") = .ok (f .evidenceId) := hget .evidenceId
    have hr : d.value.callGet (txt "run_id") = .ok (f .runId) := hget .runId
    rw [identityOk, he, hr, hid, hrunId.1, hrunId.2.2]
    simp only [ok_bind_ok, hevidence]
    simp [andThen]
  have hdocs : s'.entries.mapM entryDict = .ok s.documents := by
    rw [hcopy.entries]
    exact entryDicts fun e he => ⟨hc.wf.entries e he, safe_entries hc.safe e he⟩
  have hwf : ∀ x ∈ s.documents, x.wf = true := by
    intro x hx
    obtain ⟨e, he, rfl⟩ := List.mem_map.1 hx
    rw [Value.wf_sortKeys]
    exact Entry.wf_toDict (hc.wf.entries e he)
  have hcompare : compareEntries (evidenceEntries d.value) s' = .ok ⟨true, true, true⟩ := by
    have hself : (Value.list s.documents).eq (.list s.documents) = true := Value.same_self (Value.wf_list.2 hwf)
    rw [compareEntries, hdocs, hd, evidenceEntries_envelope hpayload]
    simp only [ok_bind_ok, Value.len, Value.iter, py_ok, hself, sameLocations_self _ hwf, decide_true]
    rfl
  have hrow : rowConsistent s' (members (factOf d.value)) = true := by
    refine List.all_eq_true.2 fun n hn => ?_
    rw [hfact n.key (n.key_mem hn)]
    exact hcopy.stable n hn
  rw [if_neg (by decide), ok_bind_ok, conclude, hidentity, py_ok, ok_bind_ok, hcompare, ok_bind_ok, hrun, hrow]
  exact ⟨_, rfl, by rw [hvalid]; rfl⟩

/-! ## Rows that copy a Snapshot -/

def scalarCell : Value F → Cell F
  | .str t => .text t
  | .int n => .integer n
  | _ => .null

/-- The row of a v1 Snapshot. -/
def snapshotCells (s : Snapshot F) (evidenceId path scopeIds budget : Text) : Row SnapshotColumn F
  | .field .evidenceId => .text evidenceId
  | .field .evidenceRelativePath => .text path
  | .field f => scalarCell (s.field f)
  | .status => .text (Named.name s.status)
  | .consistency => .text (Named.name s.consistency)
  | .scopeIdsJson => .text scopeIds
  | .budgetJson => .text budget
  | .schemaVersion => .integer 1
  | _ => .null

/-- The row of a v1 entry. -/
def entryCells (e : Entry F) : Row EntryKey F
  | .field f => scalarCell (e.field f)
  | .flag f => .integer (if e.flag f then 1 else 0)
  | .objectType => .text (Named.name e.objectType)
  | .observationStatus => .text (Named.name e.observationStatus)
  | _ => .null

/-- The row of a Run that no binding governs. -/
def runCells (runId : Text) (status : RunStatus) : Row RunColumn F
  | .runId => .text runId
  | .runKind => .text (txt "filesystem.snapshot")
  | .status => .text (Named.name status)
  | .metadataJson => .text (txt "\x7b\x7d")
  | .lastSequence => .integer 1
  | .terminal => .integer 0
  | _ => .text []

/-- The value comes back from its cell. -/
def Scalar (v : Value F) : Prop := (scalarCell v).toValue = v

omit [SqliteFloat F] in
theorem Scalar.same [PyFloat F] {v : Value F} (h : Scalar v) : v.eq v.sortKeys = true := by
  cases v with
  | none | int _ | str _ => exact Value.same_self rfl
  | bool _ | float _ | list _ | dict _ => cases h

theorem entryFromRow_cells {e : Entry F} (hv : e.v2 = none) (h : ∀ f, Scalar (e.field f)) :
    entryFromRow (entryCells e) = .ok e := by
  have htype : enumOf FilesystemObjectType (entryCells e .objectType).toValue = .ok e.objectType :=
    enumOf_eq_ok.2 rfl
  have hstatus : enumOf FilesystemObservationStatus (entryCells e .observationStatus).toValue =
      .ok e.observationStatus := enumOf_eq_ok.2 rfl
  rw [entryFromRow, htype, ok_bind_ok, hstatus, ok_bind_ok]
  refine congrArg Except.ok ?_
  obtain ⟨field, flag, type, status, v2⟩ := e
  cases hv
  have hfields : (fun f => (entryCells ⟨field, flag, type, status, none⟩ (.field f)).toValue) = field :=
    funext h
  have hflags : (fun f => (entryCells ⟨field, flag, type, status, none⟩ (.flag f)).toValue.truthy) = flag := by
    funext f
    show ((Cell.integer (if flag f then 1 else 0) : Cell F).toValue).truthy = flag f
    cases flag f <;> rfl
  rw [hfields, hflags]

/-- What `_snapshot` returns. -/
theorem createSnapshot_eq_ok {a : Acquisition F} {s : Snapshot F} (h : createSnapshot a = .ok s) :
    ∃ bytes, Value.sum (a.entries.filterMap Entry.regularSize) = .ok bytes ∧ ∃ depth entries digest,
      s = a.snapshot ⟨a.entries.countP fun e => e.observationStatus = .observed, bytes.toValue, depth,
        entries, digest⟩ := by
  simp only [createSnapshot, bind_eq_ok, py_eq_ok] at h
  obtain ⟨_, -, entries, -, bytes, hbytes, depths, -, _, -, digest, -, h⟩ := h
  cases h
  exact ⟨bytes, hbytes, _, entries, digest, rfl⟩

/-! ## A shelf of paths -/

def shelfId : Text := txt "22222222-2222-4222-8222-222222222222"

abbrev Shelf := List (Text × FilesystemObjectType)

def shelfEntryId (p : Text) : Text :=
  Runtime.sha256 Integral (Text.utf8 (entryIdText shelfId (txt "managed") p))

def shelfEntry (p : Text × FilesystemObjectType) : Entry Integral where
  field
    | .entryId => .str (shelfEntryId p.1)
    | .snapshotId => .str shelfId
    | .scopeId => lit "managed"
    | .relativePath => .str p.1
    | _ => .none
  flag _ := false
  objectType := p.2
  observationStatus := .observed
  v2 := none

def shelfScan (ps : Shelf) : Acquisition Integral where
  snapshotId := shelfId
  runId := lit "run"
  started := txt "2026-01-01T00:00:00.000000Z"
  completed := txt "2026-01-01T00:00:01.000000Z"
  configDigest := txt "c"
  scopeIds := [txt "managed"]
  budget _ := .int 1
  entries := ps.map shelfEntry
  isPartial := false

/-- Paths in the order of a scan, with entry ids of their own. -/
structure Shelved (ps : Shelf) : Prop where
  safe : ∀ p ∈ ps, safePath (F := Integral) (.str p.1) = true ∧ p.1.encodable = true
  ordered : (ps.map Prod.fst).Pairwise (· < ·)
  separate : (ps.map fun p => shelfEntryId p.1).Nodup

theorem shelfEntry_observes {ps : Shelf} (h : Shelved ps) {p : Text × FilesystemObjectType} (hp : p ∈ ps) :
    (shelfEntry p).Observes shelfId [txt "managed"] where
  v1 := rfl
  wf := ⟨fun f => by cases f <;> rfl, fun v hv => by cases hv⟩
  safe := by
    refine safe_record fun k _ => ?_
    rcases k with f | f | _ | _ | _ | _
    · cases f
      case entryId => exact sha256_encodable _
      case relativePath => exact (h.safe p hp).2
      case snapshotId => exact (by decide : shelfId.encodable = true)
      case scopeId => exact (by decide : (txt "managed").encodable = true)
      all_goals rfl
    · rfl
    · exact Named.encodable p.2
    · exact Named.encodable FilesystemObservationStatus.observed
    all_goals rfl
  snapshotId := rfl
  located := ⟨txt "managed", List.mem_cons_self, p.1, rfl, rfl, (h.safe p hp).1, rfl⟩
  size := .inl rfl

theorem shelfScan_writable {ps : Shelf} (h : Shelved ps) : (shelfScan ps).Writable where
  snapshotId := (by decide : shelfId.encodable = true)
  run := ⟨rfl, (by decide : (txt "run").encodable = true)⟩
  started := (by decide : (txt "2026-01-01T00:00:00.000000Z").encodable = true)
  completed := (by decide : (txt "2026-01-01T00:00:01.000000Z").encodable = true)
  configDigest := (by decide : (txt "c").encodable = true)
  scopeIds := (by decide : ∀ t ∈ [txt "managed"], t.encodable = true)
  budget _ := ⟨rfl, rfl⟩
  entries e he := by
    obtain ⟨p, hp, rfl⟩ := List.mem_map.1 he
    exact shelfEntry_observes h hp
  ordered := by
    rw [shelfScan, List.map_map, List.pairwise_map]
    have hordered := List.pairwise_map.1 h.ordered
    have hseparate := List.pairwise_map.1 h.separate
    refine (hordered.and hseparate).imp_of_mem fun {p q} hp hq hpq => ?_
    have hkey {p} (hp : p ∈ ps) (f : EntryField) :
        keyOf (shelfEntry p).toDict.sortKeys (EntryKey.field f) = ((shelfEntry p).field f).sortKeys :=
      (shelfEntry_observes h hp).keyOf_field f
    have hloc {p} (hp : p ∈ ps) : locationOf (shelfEntry p).toDict.sortKeys = (txt "managed", p.1) := by
      rw [locationOf, hkey hp, hkey hp]
      rfl
    have hid {p} (hp : p ∈ ps) : identityOf (shelfEntry p).toDict.sortKeys = shelfEntryId p.1 := by
      rw [identityOf, hkey hp]
      rfl
    refine ⟨?_, ?_, ?_⟩
    · show locationOf (shelfEntry p).toDict.sortKeys ≠ locationOf (shelfEntry q).toDict.sortKeys
      rw [hloc hp, hloc hq]
      exact fun heq => hpq.1.ne (congrArg Prod.snd heq)
    · show identityOf (shelfEntry p).toDict.sortKeys ≠ identityOf (shelfEntry q).toDict.sortKeys
      rw [hid hp, hid hq]
      exact hpq.2
    · show sortKeyLe (orderKey (shelfEntry p).toDict.sortKeys) (orderKey (shelfEntry q).toDict.sortKeys)
      rw [orderKey, orderKey, hloc hp, hloc hq]
      exact .inr ⟨rfl, (Text.utf8_lt_iff.2 hpq.1).le⟩

@[irreducible] def shelf (ps : Shelf) : Snapshot Integral := (shelfScan ps).created

/-- The fields of the item that publishes the shelf. -/
def shelfItem (ps : Shelf) : EnvelopeKey → Value Integral
  | .evidenceId => lit "e"
  | k => plainFields (shelf ps) k

/-- The row of the shelf's Evidence. -/
def shelfEvidenceCells : Row EvidenceColumn Integral
  | .evidenceId => .text (txt "e")
  | .runId => .text (txt "run")
  | .evidenceType => .text (txt "filesystem.snapshot")
  | .relativePath => .text (txt "e.json")
  | .sequence | .schemaVersion => .integer 1
  | _ => .text []

def shelfCells (ps : Shelf) : Row SnapshotColumn Integral :=
  snapshotCells (shelf ps) (txt "e") (txt "e.json") (txt "[\"managed\"]") (txt "\x7b\x7d")

def shelfIndex (ps : Shelf) : Index Integral where
  runs := [runCells (txt "run") .scanned]
  evidenceRecords := [shelfEvidenceCells]
  snapshots := [shelfCells ps]
  snapshotEntries := ps.map fun p => entryCells (shelfEntry p)

/-- The shelf as it is read back. -/
def shelfRead (ps : Shelf) : Snapshot Integral := { shelf ps with
  field := fun f => match f with
    | .evidenceId => lit "e"
    | .evidenceRelativePath => lit "e.json"
    | f => (shelf ps).field f
  budget := budgetDefault }

section shelf
variable {ps : Shelf} (h : Shelved ps)
include h

theorem shelf_eq : ∃ n depth entries digest,
    shelf ps = (shelfScan ps).snapshot ⟨ps.length, .int n, depth, entries, digest⟩ := by
  obtain ⟨t, ht, -⟩ := createSnapshot_coherent (shelfScan_writable h)
  have hshelf : shelf ps = (shelfScan ps).snapshot t := by rw [shelf, Acquisition.created, ht]
  obtain ⟨bytes, hbytes, depth, entries, digest, heq⟩ := createSnapshot_eq_ok ht
  obtain ⟨n, hn⟩ := sum_regularSizes fun e he => ((shelfScan_writable h).entries e he).size
  rw [hn] at hbytes
  cases hbytes
  have hobserved : (shelfScan ps).entries.countP (fun e => e.observationStatus = .observed) = ps.length := by
    rw [shelfScan, List.countP_map]
    exact List.countP_eq_length.2 fun p _ => rfl
  rw [hobserved] at heq
  exact ⟨n, depth, entries, digest, hshelf.trans heq⟩

theorem shelf_coherent : CoherentV1 (shelf ps) shelfId := by
  obtain ⟨t, -, hc⟩ := (shelfScan_writable h).created
  rw [shelf]
  exact hc

theorem shelf_entries : (shelf ps).entries = ps.map shelfEntry := by
  obtain ⟨n, depth, entries, digest, heq⟩ := shelf_eq h
  rw [heq]
  rfl

theorem shelf_scalar (f : SnapshotField) : Scalar ((shelf ps).field f) := by
  obtain ⟨n, depth, entries, digest, heq⟩ := shelf_eq h
  rw [heq]
  cases f <;> rfl

theorem shelf_status : (shelf ps).status = .complete := by
  obtain ⟨n, depth, entries, digest, heq⟩ := shelf_eq h
  rw [heq]
  simp [Acquisition.snapshot, shelfScan]

theorem shelf_id : (shelf ps).field .snapshotId = .str shelfId := (shelf_coherent h).id

theorem selectEntries_shelf : selectEntries (shelfIndex ps) (.str shelfId) =
    .ok (ps.map fun p => entryCells (shelfEntry p)) := by
  have hall : (shelfIndex ps).snapshotEntries.filter (entrySchema.is (.field .snapshotId) (.text shelfId)) =
      ps.map fun p => entryCells (shelfEntry p) := by
    refine List.filter_eq_self.2 fun r hr => ?_
    obtain ⟨p, -, rfl⟩ := List.mem_map.1 hr
    exact (is_text rfl).2 rfl
  have hsorted : (ps.map fun p => entryCells (shelfEntry p)).Pairwise entryRowLe := by
    rw [List.pairwise_map]
    refine (List.pairwise_map.1 h.ordered).imp fun {p q} hpq => ?_
    have hle : Text.utf8 p.1 ≤ Text.utf8 q.1 := (Text.utf8_lt_iff.2 hpq).le
    simp [entryRowLe, entryCells, shelfEntry, scalarCell, lit, cellLe, hle]
  rw [selectEntries, Schema.select, bind_text (by decide)]
  show Except.ok (List.insertionSort entryRowLe _) = _
  rw [hall, hsorted.insertionSort_eq]

theorem shelf_scopeIds : (shelf ps).scopeIds = [lit "managed"] := by
  obtain ⟨n, depth, entries, digest, heq⟩ := shelf_eq h
  rw [heq]
  rfl

theorem shelfCells_fields : (fun f => (shelfCells ps (.field f)).toValue) = (shelfRead ps).field := by
  funext f
  have hscalar := shelf_scalar h f
  cases f
  case evidenceId => rfl
  case evidenceRelativePath => rfl
  all_goals exact hscalar

omit h in
theorem loads_scopes : loadsCell (shelfCells ps .scopeIdsJson) = .ok (.list [lit "managed"]) := by
  have htext : Json.render (F := Integral) defaultStyle (.list [lit "managed"]) = txt "[\"managed\"]" := by
    decide +kernel
  have hcell : shelfCells ps .scopeIdsJson = .text (txt "[\"managed\"]") := rfl
  rw [hcell, loadsCell_eq_ok, ← htext]
  exact ⟨_, rfl, Json.loads_render _ (by decide) rfl⟩

omit h in
theorem loads_budget : loadsCell (shelfCells ps .budgetJson) = .ok (.dict []) := by
  have hcell : shelfCells ps .budgetJson = .text (txt "\x7b\x7d") := rfl
  rw [hcell]
  rfl

theorem snapshotFromRow_shelf : snapshotFromRow (shelfCells ps) (ps.map shelfEntry) = .ok (shelfRead ps) := by
  have hversion : shelfCells ps .schemaVersion = .integer 1 := rfl
  have hpart : snapshotV2Part (shelfCells ps) (ps.map shelfEntry) = .ok none := by
    rw [snapshotV2Part, hversion]
    rfl
  have hstatus : enumOf SnapshotStatus (shelfCells ps .status).toValue = .ok (shelf ps).status :=
    enumOf_eq_ok.2 rfl
  have hconsistency : enumOf SnapshotConsistency (shelfCells ps .consistency).toValue =
      .ok (shelf ps).consistency := enumOf_eq_ok.2 rfl
  have hiter : (Value.list [lit (F := Integral) "managed"]).iter = .ok [lit "managed"] := rfl
  have hscan : scanBudget (F := Integral) (.dict []) = .ok budgetDefault := by
    rw [scanBudget, if_pos (by rfl)]
    rfl
  rw [snapshotFromRow, hpart, ok_bind_ok, hstatus, py_ok, ok_bind_ok, hconsistency, py_ok, ok_bind_ok,
    loads_scopes, py_ok, ok_bind_ok, hiter, py_ok, ok_bind_ok, loads_budget, py_ok, ok_bind_ok, hscan, py_ok,
    ok_bind_ok, shelfCells_fields h]
  show Except.ok _ = Except.ok _
  have hread : shelfRead ps = ⟨(shelfRead ps).field, (shelf ps).status, (shelf ps).consistency,
    (shelf ps).scopeIds, budgetDefault, (shelf ps).entries, (shelf ps).v2⟩ := rfl
  rw [hread, shelf_scopeIds h, shelf_entries h, (shelf_coherent h).v1]

theorem getSnapshot_shelf : getSnapshot (shelfIndex ps) (.str shelfId) = .ok (shelfRead ps) := by
  have hid : shelfCells ps (.field .snapshotId) = .text shelfId := by
    show scalarCell ((shelf ps).field .snapshotId) = _
    rw [shelf_id h]
    rfl
  refine getSnapshot_eq_ok.2 ⟨shelfCells ps, [], _, ps.map shelfEntry, ?_, selectEntries_shelf h, ?_, ?_⟩
  · rw [Schema.select, bind_text (by decide)]
    exact congrArg Except.ok (List.filter_eq_self.2 fun r hr => by
      rw [List.mem_singleton.1 hr]
      exact agrees_text.2 hid)
  · rw [mapM_eq_ok, List.forall₂_map_left_iff, List.forall₂_map_right_iff, List.forall₂_same]
    intro p hp
    exact py_eq_ok.2 (entryFromRow_cells rfl fun f => by cases f <;> rfl)
  · exact snapshotFromRow_shelf h

theorem shelfIndex_keyed : (shelfIndex ps).Keyed where
  snapshots := List.pairwise_singleton _ _
  snapshotEntries := by
    rw [shelfIndex, List.pairwise_map]
    have hordered := List.pairwise_map.1 h.ordered
    have hseparate := List.pairwise_map.1 h.separate
    refine (hordered.and hseparate).imp fun {p q} hpq => ?_
    simp [Schema.clash, entrySchema, entryCells, shelfEntry, scalarCell, lit, Cell.agrees, hpq.1.ne, hpq.2]

theorem shelfRead_entries : (shelfRead ps).entries = ps.map shelfEntry := shelf_entries h

theorem shelfRead_scopeIds : (shelfRead ps).scopeIds = [lit "managed"] := shelf_scopeIds h

omit h in
theorem ok_listSnapshots_shelf (ps : Shelf) : Ok (listSnapshots (shelfIndex ps) none) := by
  have hstatus : enumOf SnapshotStatus (shelfCells ps .status).toValue = .ok (shelf ps).status :=
    enumOf_eq_ok.2 rfl
  have hsummary : Ok (summaryFromRow (shelfCells ps)) := by
    rw [summaryFromRow, hstatus, ok_bind_ok, loads_scopes]
    exact ⟨_, rfl⟩
  rw [listSnapshots, ok_py_iff, ok_mapM]
  intro row hrow
  rw [List.mem_insertionSort] at hrow
  rw [List.mem_singleton.1 hrow]
  exact hsummary

/-! ### Its verification -/

theorem shelf_run : (shelf ps).field .runId = lit "run" := by
  obtain ⟨n, depth, entries, digest, heq⟩ := shelf_eq h
  rw [heq]
  rfl

theorem sealed_shelf : Sealed (sealFields (shelfItem ps)) := by
  refine sealed_sealFields (safe_record fun k _ => ?_)
  cases k
  case evidenceId => exact (by decide : (txt "e").encodable = true)
  case evidenceType => exact (by decide : (txt "filesystem.snapshot").encodable = true)
  case runId =>
    show ((shelf ps).field .runId).safe = true
    rw [shelf_run h]
    decide
  case payload => exact safe_payloadV1 (shelf_coherent h)
  all_goals rfl

theorem wf_shelf : (Value.dict (envelope (sealFields (shelfItem ps)))).wf = true := by
  have hc := shelf_coherent h
  refine wf_record Named.nodup fun k => ?_
  rw [sealFields]
  split_ifs
  · rfl
  cases k
  case runId =>
    show ((shelf ps).field .runId).wf = true
    rw [shelf_run h]
    rfl
  case payload => exact wf_snapshotPayload hc.wf (snapshotPayload_v1 hc.v1 hc.wf hc.safe)
  all_goals rfl

/-- The file of the shelf. -/
def shelfDocument : Document Integral := ⟨.dict (envelope (sealFields (shelfItem ps))), wf_shelf h⟩

def shelfCorpus : Corpus Integral := plainCorpus (txt "e.json") (shelfDocument h)

omit h in
theorem runChecks_shelf (c : Corpus Integral) {s : Snapshot Integral} (hrun : s.field .runId = lit "run")
    (hstatus : s.status = .complete) : runChecks c (shelfIndex ps) s = (true, true) := by
  have hrow : findRun (shelfIndex ps) (lit "run") = .ok (some (runCells (txt "run") .scanned)) := rfl
  have hread : runFromRow (F := Integral) (runCells (txt "run") .scanned) =
      .ok ⟨lit "run", lit "filesystem.snapshot", .scanned, lit "", lit "", lit "", .dict [], .int 1, lit "",
        false⟩ := rfl
  have hget : getRun (shelfIndex ps) (lit "run") =
      .ok ⟨lit "run", lit "filesystem.snapshot", .scanned, lit "", lit "", lit "", .dict [], .int 1, lit "",
        false⟩ := by
    rw [getRun, hrow, ok_bind_ok]
    show py _ = _
    rw [hread]
    rfl
  rw [runChecks, runCompatible, hrun, hget, ok_bind_ok, hstatus]
  rfl

theorem shelf_copies : (shelfRead ps).Copies (shelf ps) where
  stable n hn := by
    cases n with
    | field f =>
      have hsame := (shelf_scalar h f).same
      rw [StableField.matches, Bool.or_eq_true]
      refine .inl ?_
      cases f
      case evidenceId => exact absurd hn (by decide)
      case evidenceRelativePath => exact absurd hn (by decide)
      all_goals exact hsame
    | status => exact Value.same_self rfl
    | consistency => exact Value.same_self rfl
  entries := rfl

/-- The shelf is `VALID` in every corpus that has its file. -/
theorem shelf_verifies_in {c : Corpus Integral} (hfile : c.resolve (txt "e.json") = some (.json (shelfDocument h)))
    (depth : Nat) : ∃ v, verifySnapshot c (shelfIndex ps) depth (.str shelfId) = .ok v ∧ v.status = .valid := by
  have hrun : (shelfRead ps).field .runId = lit "run" := shelf_run h
  refine verify_published depth (shelf_coherent h) (sealed_shelf h) rfl rfl rfl (d := shelfDocument h) rfl
    (getSnapshot_shelf h)
    (shelf_copies h) rfl hfile (Value.eq_str.2 rfl) ⟨?_, shelf_run h, hrun⟩
    (runChecks_shelf _ hrun (shelf_status h))
  exact shelf_run h

theorem shelf_verifies (depth : Nat) :
    ∃ v, verifySnapshot (shelfCorpus h) (shelfIndex ps) depth (.str shelfId) = .ok v ∧ v.status = .valid := by
  refine shelf_verifies_in h ?_ depth
  rw [shelfCorpus]
  rfl

end shelf

end Steward
