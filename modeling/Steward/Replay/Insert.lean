import Steward.Py.JsonText
import Steward.Replay.Classify
import Steward.Runs.Coordinator

/-!
# Inserting a Run ledger

`_insert_run_ledger`: a Run ledger becomes a row of `runs` and one row of
`evidence_records` for each record. A history is inserted unless its first
record lacks what the `runs` row needs.
-/

namespace Steward

open Py Sqlite

variable {F : Type} [SqliteFloat F]

/-- The parameters of the row of `runs`; `final` is the last record. -/
def ledgerRow (first final : Value F) (status : RunStatus) (count : Nat) :
    Except Py.Error (RunColumn → Value F) := do
  let runId ← first.item (txt "run_id")
  let payload ← first.item (txt "payload")
  let runKind ← payload.item (txt "run_kind")
  let createdAt ← first.item (txt "created_at")
  let updatedAt ← final.item (txt "created_at")
  let configDigest ← first.item (txt "config_digest")
  let metadata ← payload.item (txt "metadata")
  let lastDigest ← final.item (txt "evidence_digest")
  pure fun
    | .runId => runId
    | .runKind => runKind
    | .status => nameValue status
    | .createdAt => createdAt
    | .updatedAt => updatedAt
    | .configDigest => configDigest
    | .metadataJson => .str (Json.render metadataStyle metadata.sortKeys)
    | .lastSequence => .int count
    | .lastEvidenceDigest => lastDigest
    | .terminal => .int (if isTerminal status then 1 else 0)

/-- The parameters of one row of `evidence_records`. -/
def recordRow (runId name : Text) (document : Value F) : Except Py.Error (EvidenceColumn → Value F) := do
  let evidenceId ← document.item (txt "evidence_id")
  let run ← document.item (txt "run_id")
  let sequence ← document.item (txt "sequence")
  let evidenceType ← document.item (txt "evidence_type")
  let createdAt ← document.item (txt "created_at")
  let previous ← document.item (txt "previous_evidence_digest")
  let evidenceDigest ← document.item (txt "evidence_digest")
  let schemaVersion ← document.item (txt "schema_version")
  pure fun
    | .evidenceId => evidenceId
    | .runId => run
    | .sequence => sequence
    | .evidenceType => evidenceType
    | .createdAt => createdAt
    | .relativePath => .str (evidencePath runId name)
    | .previousEvidenceDigest => previous
    | .evidenceDigest => evidenceDigest
    | .schemaVersion => schemaVersion

/-- `executemany` of the records. -/
def insertEvidenceRecords (ix : Index F) : List (EvidenceColumn → Value F) → Result (Index F)
  | [] => .ok ix
  | v :: vs => do insertEvidenceRecords (← insertEvidenceRecord ix v) vs

/-- `_insert_run_ledger` of the files of a Run directory. -/
def insertRunLedger (ix : Index F) (runId : Text) (files : List (Text × Document F)) : Result (Index F) :=
  match files with
  | [] => .error (.python .indexError)
  | first :: rest => do
    let final := (rest.getLastD first).2.value
    let status ← py (foldStatus .created (rest.map fun f => f.2.value))
    let vals ← py (ledgerRow first.2.value final status (rest.length + 1))
    let runs ← sql (runSchema.insert ix.runs vals)
    let rows ← (first :: rest).mapM fun f => py (recordRow runId f.1 f.2.value)
    insertEvidenceRecords { ix with runs } rows

/-! ## The records of a history -/

/-- Inserting the records is inserting them all, each with its Run present. -/
theorem insertEvidenceRecords_eq_ok {ix ix' : Index F} {vs : List (EvidenceColumn → Value F)} :
    insertEvidenceRecords ix vs = .ok ix' ↔
      ∃ records, evidenceSchema.insertMany ix.evidenceRecords vs = .ok records ∧
        (∀ v ∈ vs, references (evidenceSchema.cell .runId (v .runId)) (ix.runs.map (· .runId)) = true) ∧
        ix' = { ix with evidenceRecords := records } := by
  induction vs generalizing ix with
  | nil =>
    simp only [insertEvidenceRecords, Schema.insertMany, Except.ok.injEq, pure_eq_ok, exists_eq_left']
    exact ⟨fun h => ⟨List.forall_mem_nil _, h.symm⟩, fun h => h.2.symm⟩
  | cons v vs ih =>
    have hone {ix₁ : Index F} : insertEvidenceRecord ix v = .ok ix₁ ↔
        ∃ records, evidenceSchema.insert ix.evidenceRecords v = .ok records ∧
          references (evidenceSchema.cell .runId (v .runId)) (ix.runs.map (· .runId)) = true ∧
          ix₁ = { ix with evidenceRecords := records } := by
      simp only [insertEvidenceRecord, bind_eq_ok, sql_eq_ok, requireReference]
      constructor
      · rintro ⟨records, hr, _, href, h⟩
        split_ifs at href with hr'
        cases h
        exact ⟨records, hr, hr', rfl⟩
      · rintro ⟨records, hr, href, rfl⟩
        exact ⟨records, hr, (), by rw [if_pos href], rfl⟩
    rw [insertEvidenceRecords, bind_eq_ok, Schema.insertMany]
    simp only [hone, ih, bind_eq_ok, List.forall_mem_cons]
    constructor
    · rintro ⟨_, ⟨records, hr, href, rfl⟩, records', hr', hrefs, rfl⟩
      exact ⟨records', ⟨records, hr, hr'⟩, ⟨href, hrefs⟩, rfl⟩
    · rintro ⟨records', ⟨records, hr, hr'⟩, ⟨href, hrefs⟩, rfl⟩
      exact ⟨_, ⟨records, hr, href, rfl⟩, records', hr', hrefs, rfl⟩

/-! ### Their rows -/

/-- The parameters of a record, once it has its fields. -/
def recordValues (runId name : Text) (item : Value F) : EvidenceColumn → Value F
  | .evidenceId => keyOf item EnvelopeKey.evidenceId
  | .runId => keyOf item EnvelopeKey.runId
  | .sequence => keyOf item EnvelopeKey.sequence
  | .evidenceType => keyOf item EnvelopeKey.evidenceType
  | .createdAt => keyOf item EnvelopeKey.createdAt
  | .relativePath => .str (evidencePath runId name)
  | .previousEvidenceDigest => keyOf item EnvelopeKey.previousEvidenceDigest
  | .evidenceDigest => keyOf item EnvelopeKey.evidenceDigest
  | .schemaVersion => keyOf item EnvelopeKey.schemaVersion

/-- A well-formed record has every field. -/
theorem RecordHead.item {runId name : Text} {n : Nat} {document : Value F}
    (h : RecordHead runId n name document) (k : EnvelopeKey) :
    document.item (Named.name k) = .ok (keyOf document k) := by
  have hobject := h.object
  have hkeys := h.keys
  cases document with
  | dict fs => exact Value.item_dict_of_hasKeys hkeys (List.mem_map_of_mem (Named.complete k))
  | _ => cases hobject

theorem recordRow_of_shape {runId name r n' : Text} {n : Nat} {document : Value F}
    (h : RecordHead r n n' document) : recordRow runId name document = .ok (recordValues runId name document) := by
  have h1 := h.item .evidenceId
  have h2 := h.item .runId
  have h3 := h.item .sequence
  have h4 := h.item .evidenceType
  have h5 := h.item .createdAt
  have h6 := h.item .previousEvidenceDigest
  have h7 := h.item .evidenceDigest
  have h8 := h.item .schemaVersion
  simp only [Named.name] at h1 h2 h3 h4 h5 h6 h7 h8
  rw [recordRow, h1, h2, h3, h4, h5, h6, h7, h8]
  simp only [ok_bind_ok]
  refine congrArg Except.ok (funext fun c => ?_)
  cases c <;> rfl

theorem not_nan_of_safe {v : Value F} (h : v.safe = true) : ∀ x, v = .float x → PyFloat.isNan x = false := by
  rintro x rfl
  exact PyFloat.not_nan_of_finite x h

omit [SqliteFloat F] in
/-- The name of a record can be encoded. -/
theorem Titled.encodable {n : Nat} {name : Text} {item : Value F} (h : Titled n name item) :
    name.encodable = true := by
  obtain ⟨t, ht, -, hname⟩ := h
  obtain ⟨-, rfl⟩ := filename_eq_ok.1 hname
  have htype : ∀ t ∈ ledgerTypes, Text.encodable (ch '_' :: (safeType t ++ txt ".json")) = true := by
    decide +kernel
  refine Text.encodable_append.2 ⟨Text.encodable_of_lt fun c hc => ?_, htype t ht⟩
  have hd := Text.pad8_all n c hc
  simp only [Text.isDigit, Bool.and_eq_true, decide_eq_true_eq] at hd
  omega

theorem evidencePath_encodable {runId name : Text} (hr : runId.encodable = true) (hn : name.encodable = true) :
    (evidencePath runId name).encodable = true :=
  Text.encodable_append.2 ⟨Text.encodable_append.2
    ⟨Text.encodable_append.2 ⟨by decide, hr⟩, by decide⟩, hn⟩

/-- The fields of a record as they are bound. -/
structure RecordFields (runId : Text) (n : Nat) (item : Value F) : Prop where
  run : keyOf item EnvelopeKey.runId = .str runId
  runText : runId.encodable = true
  evidenceId : ∃ u, keyOf item EnvelopeKey.evidenceId = .str u ∧ u.encodable = true
  evidenceType : ∃ t, keyOf item EnvelopeKey.evidenceType = .str t ∧ t.encodable = true
  createdAt : ∃ t, keyOf item EnvelopeKey.createdAt = .str t ∧ t.encodable = true
  evidenceDigest : ∃ d, keyOf item EnvelopeKey.evidenceDigest = .str d ∧ d.encodable = true
  previous : keyOf item EnvelopeKey.previousEvidenceDigest = .none ∨
    ∃ p, keyOf item EnvelopeKey.previousEvidenceDigest = .str p ∧ p.encodable = true
  sequence : (keyOf item EnvelopeKey.sequence).eq (.int n) = true
  sequenceFinite : ∀ x, keyOf item EnvelopeKey.sequence = .float x → PyFloat.isNan x = false
  version : ∃ v : Int, keyOf item EnvelopeKey.schemaVersion = .int v ∧ int64 v = true

theorem RecordHead.schemaVersion {runId name : Text} {n : Nat} {item : Value F}
    (h : RecordHead runId n name item) :
    ∃ v : Int, keyOf item EnvelopeKey.schemaVersion = .int v ∧ int64 v = true := by
  have hv : snapshotEvidenceSchemaVersion item = some 1 ∨ snapshotEvidenceSchemaVersion item = some 2 :=
    h.version.imp_right And.left
  rw [keyOf_eq_fieldOf]
  cases item with
  | dict fs =>
    rw [snapshotEvidenceSchemaVersion] at hv
    show ∃ v : Int, fieldOf fs EnvelopeKey.schemaVersion = .int v ∧ _
    cases hfield : fieldOf fs EnvelopeKey.schemaVersion with
    | int v =>
      rw [hfield] at hv
      dsimp only at hv
      split_ifs at hv
      · rcases hv with hv | hv
        · cases hv
          exact ⟨1, rfl, by decide⟩
        · cases hv
          exact ⟨2, rfl, by decide⟩
      · rcases hv with hv | hv <;> cases hv
    | _ => rw [hfield] at hv; rcases hv with hv | hv <;> cases hv
  | _ => cases h.object

/-- The fields of a record of a history. -/
theorem History.recordFields {runId : Text} {files : List (Text × Document F)} {st : LedgerScan F}
    (h : History runId files st) {f : Text × Document F} (hf : f ∈ files) {n : Nat}
    (hn : RecordShape runId n f.1 f.2.value) : RecordFields runId n f.2.value := by
  obtain ⟨earlier, st₀, st₁, -, hearlier, hrec⟩ := h.record hf
  have henc {t : Text} {k : EnvelopeKey} (hk : keyOf f.2.value k = .str t) : t.encodable = true := by
    have hs := hrec.safe k
    rwa [hk] at hs
  obtain ⟨u, hu, -⟩ := hn.evidenceId
  obtain ⟨t, -, ht, -⟩ := hn.title
  obtain ⟨s, hs, -⟩ := hn.createdAt
  obtain ⟨d, -, hd⟩ := hrec.digest
  refine ⟨hn.runId, henc hn.runId, ⟨u, hu, henc hu⟩, ⟨t, ht, henc ht⟩, ⟨s, hs, henc hs⟩, ⟨d, hd, henc hd⟩, ?_,
    hn.sequence, not_nan_of_safe (hrec.safe _), hn.schemaVersion⟩
  -- the previous digest is that of the record before, a text, if there is one
  have hp := hrec.previous
  rw [hearlier.remembers.previous] at hp
  cases hlast : earlier.getLast? with
  | none => rw [hlast] at hp; exact .inl (Value.eq_none.1 hp)
  | some g =>
    obtain ⟨_, _, _, -, -, hg⟩ := hearlier.record (List.mem_of_getLast? hlast)
    obtain ⟨p, -, hp'⟩ := hg.digest
    rw [hlast, Option.map_some, Option.getD_some, hp'] at hp
    have hprev := Value.eq_str.1 hp
    exact .inr ⟨p, hprev, henc hprev⟩

/-- A value that a column takes. -/
structure Storable (notNull : Bool) (v : Value F) : Prop where
  bindable : Bindable v = true
  present : notNull = true → v ≠ .none
  number : ∀ x, v = .float x → PyFloat.isNan x = false

section
omit [SqliteFloat F]
variable [SqliteFloat F] {b : Bool} {v : Value F}

theorem storable_str (h : ∃ t, v = .str t ∧ t.encodable = true) : Storable b v := by
  obtain ⟨t, rfl, ht⟩ := h
  exact ⟨ht, fun _ => by simp, by rintro _ ⟨⟩⟩

theorem storable_int (h : ∃ n, v = .int n ∧ int64 n = true) : Storable b v := by
  obtain ⟨n, rfl, hn⟩ := h
  exact ⟨hn, fun _ => by simp, by rintro _ ⟨⟩⟩

theorem storable_none : Storable false (.none : Value F) := ⟨rfl, by rintro ⟨⟩, by rintro _ ⟨⟩⟩

end

/-- Values that every column takes make a row. -/
theorem write_of_storable {C : Type} {sch : Schema C} {vals : C → Value F}
    (h : ∀ c, Storable (sch.notNull c) (vals c)) : sch.write vals = .ok fun c => sch.cell c (vals c) := by
  refine sch.write_eq_ok.2 ⟨fun c => (h c).bindable, fun c hc => ?_, rfl⟩
  rw [Bool.eq_false_iff, Ne, sch.isNull_cell (h c).bindable (h c).number]
  exact (h c).present hc

theorem RecordFields.storable {runId name : Text} {n : Nat} {item : Value F} (h : RecordFields runId n item)
    (hname : name.encodable = true) (hn : int64 (n : Int) = true) (c : EvidenceColumn) :
    Storable (evidenceSchema.notNull c) (recordValues runId name item c) := by
  cases c with
  | evidenceId => exact storable_str h.evidenceId
  | runId => exact storable_str ⟨runId, h.run, h.runText⟩
  | sequence =>
    refine ⟨(evidenceSchema.cell_of_eq_int (c := .sequence) rfl h.sequence hn h.sequenceFinite).1,
      fun _ hnone => ?_, h.sequenceFinite⟩
    have hseq := h.sequence
    change keyOf item EnvelopeKey.sequence = .none at hnone
    rw [hnone] at hseq
    exact absurd hseq Bool.false_ne_true
  | evidenceType => exact storable_str h.evidenceType
  | createdAt => exact storable_str h.createdAt
  | relativePath => exact storable_str ⟨_, rfl, evidencePath_encodable h.runText hname⟩
  | previousEvidenceDigest =>
    rcases h.previous with hp | hp
    · show Storable false (keyOf item EnvelopeKey.previousEvidenceDigest)
      rw [hp]
      exact storable_none
    · exact storable_str hp
  | evidenceDigest => exact storable_str h.evidenceDigest
  | schemaVersion => exact storable_int h.version

/-- The row of a record. -/
def recordCells (runId : Text) (f : Text × Document F) : Row EvidenceColumn F := fun c =>
  evidenceSchema.cell c (recordValues runId f.1 f.2.value c)

/-- Rows of records of different number, identity and digest do not clash. -/
theorem clash_of_apart {runId : Text} {f g : Text × Document F} {m n : Nat} (hf : RecordFields runId m f.2.value)
    (hg : RecordFields runId n g.2.value) (hm : int64 (m : Int) = true) (hn : int64 (n : Int) = true)
    (hne : m ≠ n) (hname : f.1 ≠ g.1) (hfe : f.1.encodable = true) (hge : g.1.encodable = true)
    (hid : keyOf f.2.value EnvelopeKey.evidenceId ≠ keyOf g.2.value EnvelopeKey.evidenceId)
    (hdigest : keyOf f.2.value EnvelopeKey.evidenceDigest ≠ keyOf g.2.value EnvelopeKey.evidenceDigest) :
    evidenceSchema.clash (recordCells runId f) (recordCells runId g) = false := by
  have htext {c : EvidenceColumn} (hc : evidenceSchema.affinity c = .text) {s t : Text}
      (hs : recordValues runId f.1 f.2.value c = .str s) (ht : recordValues runId g.1 g.2.value c = .str t)
      (hse : s.encodable = true) (hte : t.encodable = true) (hst : s ≠ t) :
      (recordCells runId f c).agrees (recordCells runId g c) = false := by
    rw [recordCells, recordCells, hs, ht, evidenceSchema.cell_str hc hse, evidenceSchema.cell_str hc hte]
    exact decide_eq_false hst
  obtain ⟨u, hu, hue⟩ := hf.evidenceId
  obtain ⟨u', hu', hue'⟩ := hg.evidenceId
  obtain ⟨d, hd, hde⟩ := hf.evidenceDigest
  obtain ⟨d', hd', hde'⟩ := hg.evidenceDigest
  have h1 := htext (c := .evidenceId) rfl hu hu' hue hue' fun he => hid (by rw [hu, hu', he])
  have h2 : (recordCells runId f .sequence).agrees (recordCells runId g .sequence) = false := by
    rw [Bool.eq_false_iff]
    intro hagree
    have hf' := evidenceSchema.cell_of_eq_int (c := .sequence) rfl hf.sequence hm hf.sequenceFinite
    have hg' := evidenceSchema.cell_of_eq_int (c := .sequence) rfl hg.sequence hn hg.sequenceFinite
    exact hne (Int.ofNat_inj.1 (hf'.2.unique hg'.2 hagree))
  have h3 := htext (c := .relativePath) rfl rfl rfl (evidencePath_encodable hf.runText hfe)
    (evidencePath_encodable hg.runText hge) fun he => hname (List.append_cancel_left he)
  have h4 := htext (c := .evidenceDigest) rfl hd hd' hde hde' fun he => hdigest (by rw [hd, hd', he])
  simp [Schema.clash, evidenceSchema, h1, h2, h3, h4]

/-- A record has one number. -/
theorem RecordShape.number_unique {runId name : Text} {m n : Nat} {item : Value F}
    (h : RecordShape runId m name item) (h' : RecordShape runId n name item) : m = n := by
  obtain ⟨_, -, -, h1⟩ := h.title
  obtain ⟨_, -, -, h2⟩ := h'.title
  exact (filename_inj h1 h2).1

theorem int64_of_le {m n : Nat} (h : int64 (n : Int) = true) (hle : m ≤ n) : int64 (m : Int) = true := by
  simp only [int64, Bool.and_eq_true, decide_eq_true_eq] at h ⊢
  omega

section
variable {runId : Text} {files : List (Text × Document F)} {st : LedgerScan F} (h : History runId files st)
  (hcount : int64 (files.length : Int) = true)
include h hcount

theorem History.write_records : List.Forall₂ (fun v r => evidenceSchema.write v = .ok r)
    (files.map fun f => recordValues runId f.1 f.2.value) (files.map (recordCells runId)) := by
  rw [List.forall₂_map_left_iff, List.forall₂_map_right_iff, List.forall₂_same]
  intro f hf
  obtain ⟨n, hn, hshape⟩ := h.shape hf
  exact write_of_storable
    ((h.recordFields hf hshape).storable hshape.title.encodable (int64_of_le hcount hn))

theorem History.rows_distinct :
    (files.map (recordCells runId)).Pairwise fun q r => evidenceSchema.clash r q = false := by
  rw [List.pairwise_map]
  refine h.pairwise.imp_of_mem fun {f g} hf hg hfg => ?_
  obtain ⟨m, hm, hfm⟩ := h.shape hf
  obtain ⟨n, hn, hgn⟩ := h.shape hg
  obtain ⟨m', n', hlt, hfm', hgn'⟩ := hfg.number
  rw [← hfm.number_unique hfm', ← hgn.number_unique hgn'] at hlt
  have hname : g.1 ≠ f.1 := by
    intro he
    obtain ⟨_, -, -, h1⟩ := hfm.title
    obtain ⟨_, -, -, h2⟩ := hgn.title
    rw [he] at h2
    have heq := (filename_inj h1 h2).1
    omega
  exact clash_of_apart (h.recordFields hg hgn) (h.recordFields hf hfm) (int64_of_le hcount hn)
    (int64_of_le hcount hm) (by omega) hname hgn.title.encodable hfm.title.encodable hfg.evidenceId.symm
    hfg.evidenceDigest.symm

omit hcount in
theorem History.run_cell {f : Text × Document F} (hf : f ∈ files) :
    evidenceSchema.cell .runId (recordValues runId f.1 f.2.value .runId) = .text runId := by
  obtain ⟨n, hn, hshape⟩ := h.shape hf
  have hfields := h.recordFields hf hshape
  show evidenceSchema.cell .runId (keyOf f.2.value EnvelopeKey.runId) = _
  rw [hfields.run, evidenceSchema.cell_str rfl hfields.runText]

/-- Inserting the records of a history. -/
theorem History.insertRecords_eq_ok {ix ix' : Index F}
    (href : references (.text runId) (ix.runs.map (· .runId)) = true) :
    insertEvidenceRecords ix (files.map fun f => recordValues runId f.1 f.2.value) = .ok ix' ↔
      (∀ q ∈ ix.evidenceRecords, ∀ r ∈ files.map (recordCells runId), evidenceSchema.clash r q = false) ∧
        ix' = { ix with evidenceRecords := ix.evidenceRecords ++ files.map (recordCells runId) } := by
  have hrefs : ∀ v ∈ files.map fun f => recordValues runId f.1 f.2.value,
      references (evidenceSchema.cell .runId (v .runId)) (ix.runs.map (· .runId)) = true := by
    rw [List.forall_mem_map]
    intro f hf
    rw [h.run_cell hf]
    exact href
  simp only [insertEvidenceRecords_eq_ok, evidenceSchema.insertMany_of_rows (h.write_records hcount)
    (h.rows_distinct hcount)]
  constructor
  · rintro ⟨records, ⟨hclash, rfl⟩, -, rfl⟩
    exact ⟨hclash, rfl⟩
  · rintro ⟨hclash, rfl⟩
    exact ⟨_, ⟨hclash, rfl⟩, hrefs, rfl⟩

end

/-! ## The row of the Run -/

/-- The parameters of the row of `runs`, once the records have their fields. -/
def ledgerValues (first final : Value F) (status : RunStatus) (count : Nat) : RunColumn → Value F
  | .runId => keyOf first EnvelopeKey.runId
  | .runKind => (keyOf first EnvelopeKey.payload).getIf (txt "run_kind")
  | .status => nameValue status
  | .createdAt => keyOf first EnvelopeKey.createdAt
  | .updatedAt => keyOf final EnvelopeKey.createdAt
  | .configDigest => keyOf first EnvelopeKey.configDigest
  | .metadataJson =>
    .str (Json.render metadataStyle ((keyOf first EnvelopeKey.payload).getIf (txt "metadata")).sortKeys)
  | .lastSequence => .int count
  | .lastEvidenceDigest => keyOf final EnvelopeKey.evidenceDigest
  | .terminal => .int (if isTerminal status then 1 else 0)

/-- The first record carries what replay reads. -/
structure Carries (first : Value F) : Prop where
  runKind : (lookup (members (keyOf first EnvelopeKey.payload)) (txt "run_kind")).isSome = true
  metadata : (lookup (members (keyOf first EnvelopeKey.payload)) (txt "metadata")).isSome = true

/-- What the row of a Run of `count` records takes from its first record can be stored. -/
structure Projectable (first : Value F) (count : Nat) : Prop where
  runKind : Bindable ((keyOf first EnvelopeKey.payload).getIf (txt "run_kind")) = true
  runKindGiven : (keyOf first EnvelopeKey.payload).getIf (txt "run_kind") ≠ .none
  configDigest : Bindable (keyOf first EnvelopeKey.configDigest) = true
  configDigestGiven : keyOf first EnvelopeKey.configDigest ≠ .none
  count : int64 (count : Int) = true

omit [SqliteFloat F] in
theorem ok_item {v : Value F} {k : Text} : Ok (v.item k) ↔ (lookup (members v) k).isSome = true := by
  cases v with
  | dict fs => cases h : lookup fs k <;> simp [Value.item, members, h]
  | _ => exact iff_of_false (not_ok_error _) Bool.false_ne_true

omit [SqliteFloat F] in
theorem item_eq_getIf {v w : Value F} {k : Text} (h : v.item k = .ok w) : w = v.getIf k := by
  cases v with
  | dict fs =>
    cases hk : lookup fs k with
    | none => rw [Value.item, hk] at h; cases h
    | some u =>
      rw [Value.item, hk] at h
      cases h
      exact (Value.get_of_lookup hk).symm
  | _ => cases h

theorem ledgerRow_eq_ok {runId name r name' : Text} {m n : Nat} {first final : Value F}
    (hfirst : RecordHead runId m name first) (hfinal : RecordHead r n name' final)
    {status : RunStatus} {count : Nat} {vals : RunColumn → Value F} :
    ledgerRow first final status count = .ok vals ↔
      Carries first ∧ vals = ledgerValues first final status count := by
  have h1 := hfirst.item .runId
  have h2 := hfirst.item .payload
  have h3 := hfirst.item .createdAt
  have h4 := hfinal.item .createdAt
  have h5 := hfirst.item .configDigest
  have h6 := hfinal.item .evidenceDigest
  simp only [Named.name] at h1 h2 h3 h4 h5 h6
  rw [ledgerRow, h1, h2, h3, h4, h5, h6]
  simp only [ok_bind_ok, bind_eq_ok, pure_eq_ok]
  have hval {kind metadata : Value F} (hk : (keyOf first EnvelopeKey.payload).item (txt "run_kind") = .ok kind)
      (hm : (keyOf first EnvelopeKey.payload).item (txt "metadata") = .ok metadata) :
      (fun
        | .runId => keyOf first EnvelopeKey.runId
        | .runKind => kind
        | .status => nameValue status
        | .createdAt => keyOf first EnvelopeKey.createdAt
        | .updatedAt => keyOf final EnvelopeKey.createdAt
        | .configDigest => keyOf first EnvelopeKey.configDigest
        | .metadataJson => .str (Json.render metadataStyle metadata.sortKeys)
        | .lastSequence => .int count
        | .lastEvidenceDigest => keyOf final EnvelopeKey.evidenceDigest
        | .terminal => .int (if isTerminal status then 1 else 0) : RunColumn → Value F) =
        ledgerValues first final status count := by
    rw [item_eq_getIf hk, item_eq_getIf hm]
    funext c
    cases c <;> rfl
  constructor
  · rintro ⟨kind, hk, metadata, hm, rfl⟩
    exact ⟨⟨ok_item.1 ⟨_, hk⟩, ok_item.1 ⟨_, hm⟩⟩, hval hk hm⟩
  · rintro ⟨hc, rfl⟩
    obtain ⟨kind, hk⟩ := ok_item.2 hc.runKind
    obtain ⟨metadata, hm⟩ := ok_item.2 hc.metadata
    exact ⟨kind, hk, metadata, hm, hval hk hm⟩

/-! ## The status -/

theorem foldStatus_append {status : RunStatus} {ds : List (Value F)} {d : Value F} :
    foldStatus status (ds ++ [d]) = foldStatus status ds >>= fun s => foldStatus s [d] := by
  induction ds generalizing status with
  | nil => rfl
  | cons e ds ih =>
    rw [List.cons_append, foldStatus, foldStatus]
    simp only [bind_assoc]
    refine bind_congr fun t => ?_
    split_ifs
    · simp only [bind_assoc]
      exact bind_congr fun p => bind_congr fun q => bind_congr fun s => ih
    · exact ih

/-- One record moves the folded status as it moves the verified one. -/
theorem foldStatus_of_moves {runId name : Text} {n : Nat} {item : Value F} {a b : RunStatus}
    (hshape : RecordShape runId n name item) (h : Moves n item a b) : foldStatus a [item] = .ok b := by
  have htype := hshape.item .evidenceType
  have hpayload := hshape.item .payload
  simp only [Named.name] at htype hpayload
  rw [foldStatus, htype, ok_bind_ok]
  cases h with
  | created hn ht _ =>
    have hne : txt "run.created" ≠ txt "run.state_transition" := by decide +kernel
    rw [ht, if_neg (by rw [eq_lit]; exact fun he => hne (Value.str.inj he))]
    rfl
  | transition hn ht hs hc ha =>
    have hitem : (keyOf item EnvelopeKey.payload).item (txt "to_status") = .ok (nameValue b) := by
      have hdict := hshape.payload
      cases hp : keyOf item EnvelopeKey.payload with
      | dict fs =>
        rw [hp, Value.getIf, Value.get] at hc
        cases hl : lookup fs (txt "to_status") with
        | none => rw [hl] at hc; cases hc
        | some v =>
          rw [hl] at hc
          rw [Value.item, hl]
          exact congrArg Except.ok hc
      | _ => rw [hp] at hdict; cases hdict
    rw [if_pos (eq_lit.2 ht), hpayload, ok_bind_ok, hitem, ok_bind_ok, enumOf_eq_ok.2 rfl]
    rfl
  | other hn ht =>
    rw [if_neg (mt eq_lit.1 ht)]
    rfl

/-- Folding the transitions of a history gives its status. -/
theorem History.folded {runId : Text} {files : List (Text × Document F)} {st : LedgerScan F}
    (h : History runId files st) :
    foldStatus .created (files.map fun f => f.2.value) = .ok st.status := by
  induction h with
  | start => rfl
  | append h last ih =>
    rw [List.map_append, List.map_singleton, foldStatus_append, ih]
    exact foldStatus_of_moves last.shape last.moves

/-! ## A whole ledger -/

/-- The row of a Run. -/
def ledgerCells (first final : Value F) (status : RunStatus) (count : Nat) : Row RunColumn F := fun c =>
  runSchema.cell c (ledgerValues first final status count c)

theorem safe_getIf {v : Value F} (h : v.safe = true) (k : Text) : (v.getIf k).safe = true := by
  cases v with
  | dict fs => exact Value.safe_get h k
  | _ => rfl

theorem getLastD_mem_cons {α : Type} {x : α} {xs : List α} : xs.getLastD x ∈ x :: xs := by
  rw [List.getLastD_eq_getLast?]
  cases hl : xs.getLast? with
  | none => exact List.mem_cons_self
  | some y => exact List.mem_cons_of_mem _ (List.mem_of_getLast? hl)

section
variable {runId : Text} {first : Text × Document F} {rest : List (Text × Document F)} {st : LedgerScan F}
  (h : History runId (first :: rest) st)
include h

/-- The first record is no transition. -/
theorem History.folded_rest : foldStatus .created (rest.map fun f => f.2.value) = .ok st.status := by
  have hall := h.folded
  obtain ⟨m, -, hfirst⟩ := h.shape (f := first) List.mem_cons_self
  have htype := hfirst.item .evidenceType
  simp only [Named.name] at htype
  have hne : txt "run.created" ≠ txt "run.state_transition" := by decide +kernel
  rwa [List.map_cons, foldStatus, htype, ok_bind_ok, h.created rfl,
    if_neg (by rw [eq_lit]; exact fun he => hne (Value.str.inj he))] at hall

/-- The row of a Run can be written exactly when its first record is projectable. -/
theorem History.write_run {row : Row RunColumn F} :
    runSchema.write (ledgerValues first.2.value (rest.getLastD first).2.value st.status (rest.length + 1)) =
        .ok row ↔
      Projectable first.2.value (rest.length + 1) ∧
        row = ledgerCells first.2.value (rest.getLastD first).2.value st.status (rest.length + 1) := by
  have hmem : rest.getLastD first ∈ first :: rest := getLastD_mem_cons
  obtain ⟨m, -, hfirst⟩ := h.shape (f := first) List.mem_cons_self
  obtain ⟨n, -, hfinal⟩ := h.shape hmem
  have hf := h.recordFields (f := first) List.mem_cons_self hfirst
  have hl := h.recordFields hmem hfinal
  obtain ⟨_, _, _, -, -, hrec⟩ := h.record (f := first) List.mem_cons_self
  have hsafe (k : Text) : ((keyOf first.2.value EnvelopeKey.payload).getIf k).safe = true :=
    safe_getIf (hrec.safe .payload) k
  have hmeta : ∃ t, ledgerValues first.2.value (rest.getLastD first).2.value st.status (rest.length + 1)
      .metadataJson = .str t ∧ t.encodable = true :=
    ⟨_, rfl, Json.render_encodable _ (by rw [Value.safe_sortKeys]; exact hsafe _)⟩
  constructor
  · intro hw
    obtain ⟨hb, hn, rfl⟩ := runSchema.write_eq_ok.1 hw
    refine ⟨⟨hb .runKind, fun hnone => ?_, hb .configDigest, fun hnone => ?_, hb .lastSequence⟩, rfl⟩
    · have hnull := hn .runKind rfl
      rw [(runSchema.isNull_cell (hb .runKind) (not_nan_of_safe (hsafe _))).2 hnone] at hnull
      cases hnull
    · have hnull := hn .configDigest rfl
      rw [(runSchema.isNull_cell (hb .configDigest) (not_nan_of_safe (hrec.safe _))).2 hnone] at hnull
      cases hnull
  · rintro ⟨hp, rfl⟩
    refine write_of_storable fun c => ?_
    cases c with
    | runId => exact storable_str ⟨runId, hf.run, hf.runText⟩
    | runKind => exact ⟨hp.runKind, fun _ => hp.runKindGiven, not_nan_of_safe (hsafe _)⟩
    | status => exact storable_str ⟨_, rfl, Named.encodable st.status⟩
    | createdAt => exact storable_str hf.createdAt
    | updatedAt => exact storable_str hl.createdAt
    | configDigest => exact ⟨hp.configDigest, fun _ => hp.configDigestGiven, not_nan_of_safe (hrec.safe _)⟩
    | metadataJson => exact storable_str hmeta
    | lastSequence => exact storable_int ⟨_, rfl, hp.count⟩
    | lastEvidenceDigest => exact storable_str hl.evidenceDigest
    | terminal => exact storable_int ⟨_, rfl, by split_ifs <;> decide⟩

/-- A history is inserted exactly when its first record gives what its row needs and no row of the
index has one of its keys. -/
theorem History.insertRunLedger_eq_ok {ix ix' : Index F} :
    insertRunLedger ix runId (first :: rest) = .ok ix' ↔
      Carries first.2.value ∧ Projectable first.2.value (rest.length + 1) ∧
        (∀ q ∈ ix.runs, runSchema.clash
          (ledgerCells first.2.value (rest.getLastD first).2.value st.status (rest.length + 1)) q = false) ∧
        (∀ q ∈ ix.evidenceRecords, ∀ r ∈ (first :: rest).map (recordCells runId),
          evidenceSchema.clash r q = false) ∧
        ix' = { ix with
          runs := ix.runs ++
            [ledgerCells first.2.value (rest.getLastD first).2.value st.status (rest.length + 1)]
          evidenceRecords := ix.evidenceRecords ++ (first :: rest).map (recordCells runId) } := by
  have hmem : rest.getLastD first ∈ first :: rest := getLastD_mem_cons
  obtain ⟨m, -, hfirst⟩ := h.shape (f := first) List.mem_cons_self
  obtain ⟨n, -, hfinal⟩ := h.shape hmem
  have hrows : ((first :: rest).mapM fun f => py (recordRow runId f.1 f.2.value)) =
      .ok ((first :: rest).map fun f => recordValues runId f.1 f.2.value) := by
    rw [mapM_eq_ok, List.forall₂_map_right_iff, List.forall₂_same]
    intro f hf
    obtain ⟨k, -, hk⟩ := h.shape hf
    rw [recordRow_of_shape hk.toRecordHead]
    rfl
  have hrun : ∀ {ix : Index F}, references (.text runId) ((ix.runs ++
      [ledgerCells first.2.value (rest.getLastD first).2.value st.status (rest.length + 1)]).map
        (· .runId)) = true := by
    intro ix
    have hf := h.recordFields (f := first) List.mem_cons_self hfirst
    have hcell : ledgerCells first.2.value (rest.getLastD first).2.value st.status (rest.length + 1) .runId =
        .text runId := by
      show runSchema.cell .runId (keyOf first.2.value EnvelopeKey.runId) = _
      rw [hf.run, runSchema.cell_str rfl hf.runText]
    exact Bool.or_eq_true_iff.2 (.inr (List.any_eq_true.2 ⟨.text runId,
      List.mem_map.2 ⟨_, List.mem_append_right _ List.mem_cons_self, hcell⟩, decide_eq_true rfl⟩))
  rw [insertRunLedger]
  simp only [h.folded_rest, py_ok, ok_bind_ok, hrows, bind_eq_ok, py_eq_ok, sql_eq_ok,
    ledgerRow_eq_ok hfirst.toRecordHead hfinal.toRecordHead, Schema.insert_eq_ok]
  constructor
  · rintro ⟨_, ⟨hcarries, rfl⟩, _, ⟨row, hrow, hclash, rfl⟩, hrecords⟩
    obtain ⟨hp, rfl⟩ := h.write_run.1 hrow
    obtain ⟨hdistinct, rfl⟩ := (h.insertRecords_eq_ok hp.count hrun).1 hrecords
    exact ⟨hcarries, hp, hclash, hdistinct, rfl⟩
  · rintro ⟨hcarries, hp, hclash, hdistinct, rfl⟩
    exact ⟨_, ⟨hcarries, rfl⟩, _, ⟨_, h.write_run.2 ⟨hp, rfl⟩, hclash, rfl⟩,
      (h.insertRecords_eq_ok hp.count hrun).2 ⟨hdistinct, rfl⟩⟩

end

end Steward
