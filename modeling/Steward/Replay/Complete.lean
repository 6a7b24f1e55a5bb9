import Steward.Replay.Accepted
import Steward.Replay.Agreement
import Steward.Snapshot.Create
import Steward.Snapshot.Verify
import Steward.Storage.Sealed

/-!
# Complete plans

Intact ledgers and governed items make a complete plan: everything they are
made of is strict JSON, so the accounting digest exists. A complete plan agrees
with its corpus; two Snapshots without an id can both be in one.
-/

namespace Steward

open Py Sqlite

variable {F : Type} [SqliteFloat F]

/-! ## Strict accounting -/

theorem encodable_pyStr {v : Value F} (h : v.safe = true) : v.pyStr.encodable = true := by
  cases hs : v.isStr with
  | false => exact Value.pyStr_encodable hs
  | true =>
    cases v with
    | str t => exact h
    | _ => cases hs

theorem encodable_str? {v : Value F} (h : v.safe = true) : ∀ t ∈ str? v, t.encodable = true := by
  intro t ht
  cases v with
  | str s => cases ht; exact h
  | _ => cases ht

/-- The account of an intact ledger is strict JSON. -/
theorem safe_intactAccount {runId : Text} {first : Text × Document F} {rest : List (Text × Document F)}
    {st : LedgerScan F} (h : History runId (first :: rest) st) :
    (intactAccount runId (first :: rest)
      ((keyOf first.2.value EnvelopeKey.payload).getIf (txt "run_kind")) st.status).item.toValue.safe = true := by
  have hsafe {f : Text × Document F} (hf : f ∈ first :: rest) (k : EnvelopeKey) :
      (keyOf f.2.value k).safe = true := by
    obtain ⟨_, _, _, -, -, hrec⟩ := h.record hf
    exact hrec.safe k
  have hrun : runId.encodable = true := by
    obtain ⟨n, -, hshape⟩ := h.shape (f := first) List.mem_cons_self
    have hs := hsafe (f := first) List.mem_cons_self .runId
    rwa [hshape.runId] at hs
  refine safe_runItem.2 ⟨hrun, safe_getIf (hsafe List.mem_cons_self _) _, ?_, ?_, ?_, List.forall_mem_nil _⟩
  · show (((first :: rest).getLast?.map fun f => keyOf f.2.value EnvelopeKey.evidenceDigest).getD .none).safe = true
    cases hl : (first :: rest).getLast? with
    | none => rfl
    | some f => exact hsafe (List.mem_of_getLast? hl) _
  · refine List.forall_mem_map.2 fun f hf => ?_
    exact encodable_pyStr (hsafe hf _)
  · refine List.forall_mem_map.2 fun f hf => ?_
    exact encodable_pyStr (hsafe hf _)

/-- The codes of a clean item are ASCII. -/
theorem encodable_reasonCodes {s : ClassifiedSnapshotReplayItem} (h : JudgedClean s) :
    ∀ t ∈ s.reasonCodes, t.encodable = true := by
  intro t ht
  have hgoverned : governedReason.encodable = true := by decide
  rcases h with ⟨-, -, h⟩ | ⟨-, -, h⟩
  · rw [h] at ht; cases ht
  · rw [h, List.mem_singleton] at ht
    rw [ht]
    exact hgoverned

/-- The item of a strict document is strict JSON. -/
theorem safe_classified {runId name : Text} {document : Value F} {raw : RawSnapshot F}
    {raws : List (RawSnapshot F)} {runs : List (RunAccount F)} {s : ClassifiedSnapshotReplayItem}
    (hraw : RawOf runId name document raw) (hitem : classifySnapshot runs (raw.marked raws) = .ok s)
    (hintact : raw.intrinsicValid = true) (hclean : JudgedClean s)
    (hsafe : ∀ k : EnvelopeKey, (keyOf document k).safe = true) (hrun : runId.encodable = true)
    (hname : name.encodable = true) : (s.toValue (F := F)).safe = true := by
  have hcodes := encodable_reasonCodes hclean
  rw [classifySnapshot] at hitem
  obtain ⟨j, -, hs⟩ := bind_eq_ok.1 hitem
  cases hs
  have hpath : (raw.relative).encodable = true := by
    rw [hraw.relative]
    exact evidencePath_encodable hrun hname
  have hid : ∀ t ∈ raw.evidenceId, t.encodable = true := by
    rw [hraw.evidenceId]
    exact encodable_str? (hsafe _)
  have hdigest : ∀ t ∈ raw.evidenceDigest, t.encodable = true := by
    rw [hraw.evidenceDigest]
    exact encodable_str? (hsafe _)
  have hrelative : ∀ t ∈ some raw.relative, t.encodable = true := by
    rintro _ ⟨⟩
    exact hpath
  refine safe_snapshotItem.2 ⟨?_, hid, ?_, hrelative, hdigest, hcodes, fun e he => ?_⟩
  · show ∀ t ∈ raw.snapshotId, t.encodable = true
    rw [hraw.snapshotId hintact, snapshotIdOf, snapshotOf, payloadOf, ← keyOf_eq_fieldOf]
    exact encodable_str? (safe_getIf (safe_getIf (hsafe _) _) _)
  · rintro _ ⟨⟩
    show raw.runId.encodable = true
    rw [hraw.runId]
    cases hr : str? (keyOf document EnvelopeKey.runId) with
    | none => exact hrun
    | some t => exact encodable_str? (hsafe .runId) t hr
  · obtain ⟨fs, hfs, rfl⟩ := List.mem_map.1 (mem_sortedBy.1 he)
    have hentry : (Value.dict fs).safe = true := by
      obtain ⟨v, hv, hvf⟩ := List.mem_filterMap.1 hfs
      have hv' : v ∈ elements ((keyOf document EnvelopeKey.payload).getIf (txt "entries")) := by
        rw [← hraw.entries]
        exact hv
      have hlist := safe_getIf (hsafe .payload) (txt "entries")
      cases hp : (keyOf document EnvelopeKey.payload).getIf (txt "entries") with
      | list vs =>
        rw [hp] at hv' hlist
        have hvs := Value.safe_list.1 hlist v hv'
        cases v with
        | dict gs => cases hvf; exact hvs
        | _ => cases hvf
      | _ => rw [hp] at hv'; cases hv'
    have htext (k : String) : (((lookup fs (txt k)).getD (lit "")).pyStr).encodable = true := by
      refine encodable_pyStr ?_
      cases hk : lookup fs (txt k) with
      | none => rfl
      | some v => exact (Value.safe_dict.1 hentry).2 _ (mem_of_lookup hk)
    refine safe_entryItem.2 ⟨htext _, htext _, htext _, htext _, hid, hrelative, hdigest, ?_⟩
    show ∀ t ∈ (if j.eligibility = some .ineligible then sortedSet j.codes else []), t.encodable = true
    split_ifs
    · exact hcodes
    · exact List.forall_mem_nil _

/-! ## Completeness -/

/-- Intact accounts and governed, strict items are returned as a complete plan. -/
theorem classify_of_governed {c : Corpus F} (verify : Value F → Result VerificationStatus)
    {runs : List (RunAccount F)} (raws : List (List (RawSnapshot F)))
    {snapshots : List ClassifiedSnapshotReplayItem}
    (haccounts : List.Forall₂ (fun id a => accountRun c id = .ok a) (keys c.dirs) runs)
    (hdocuments : List.Forall₂ (fun a rs => rawSnapshots c verify a.item.runId a.files = .ok rs) runs raws)
    (hitems : List.Forall₂ (fun raw s => classifySnapshot runs (raw.marked raws.flatten) = .ok s)
      raws.flatten snapshots)
    (hvalid : ∀ a ∈ runs, a.item.evidenceIntegrity = .valid ∧ a.issues = [])
    (hgoverned : ∀ s ∈ snapshots, Governed s) (hruns : ∀ a ∈ runs, a.item.toValue.safe = true)
    (hsafe : ∀ s ∈ snapshots, (s.toValue (F := F)).safe = true) :
    ∃ plan, classifyOperationalEvidence c verify = .ok plan ∧ PlanOf c verify plan runs raws snapshots := by
  set orderedRuns := sortedBy RunEvidenceAccountingItem.runId (runs.map RunAccount.item) with horderedRuns
  set orderedSnapshots := sortedBy ClassifiedSnapshotReplayItem.key snapshots with horderedSnapshots
  have hissues : runs.flatMap RunAccount.issues = [] :=
    List.flatMap_eq_nil_iff.2 fun a ha => (hvalid a ha).2
  have hrunsValid : ∀ r ∈ orderedRuns, r.evidenceIntegrity = .valid := by
    intro r hr
    obtain ⟨a, ha, rfl⟩ := List.mem_map.1 (mem_sortedBy.1 hr)
    exact (hvalid a ha).1
  have hordered : ∀ s ∈ orderedSnapshots, Governed s := fun s hs => hgoverned s (mem_sortedBy.1 hs)
  have hstrict : (accountingValue orderedRuns orderedSnapshots (planCounts orderedRuns orderedSnapshots)).safe =
      true := by
    refine safe_accountingValue.2 ⟨fun r hr => ?_, fun s hs => hsafe s (mem_sortedBy.1 hs)⟩
    obtain ⟨a, ha, rfl⟩ := List.mem_map.1 (mem_sortedBy.1 hr)
    exact hruns a ha
  have hdigest := digestOf_eq_ok.2 ⟨hstrict, rfl⟩
  have hconclusive : conclusive (runs.flatMap RunAccount.issues) orderedRuns orderedSnapshots = true := by
    rw [conclusive, hissues]
    simp only [decide_true, Bool.true_and, Bool.and_eq_true, List.all_eq_true, decide_eq_true_eq]
    exact ⟨hrunsValid, fun s hs => ⟨⟨(hordered s hs).integrity, (hordered s hs).semantic⟩,
      (hordered s hs).classified⟩⟩
  set plan : ClassifiedReplayPlan F := {
    classificationComplete := true
    counts := planCounts orderedRuns orderedSnapshots
    accountingDigest := sha (accountingValue orderedRuns orderedSnapshots (planCounts orderedRuns orderedSnapshots))
    runs := orderedRuns
    snapshots := orderedSnapshots
    issues := [] } with hplan
  have hsound : plan.Sound := ⟨hrunsValid, hordered, rfl, hdigest, rfl⟩
  have hassembled : assemblePlan runs snapshots = .ok plan := by
    rw [assemblePlan, ← horderedRuns, ← horderedSnapshots, hconclusive, hissues]
    show (classifiedAccountingDigest _ _ _ >>= _) = _
    rw [classifiedAccountingDigest, hdigest]
    rfl
  refine ⟨plan, ?_, haccounts, hdocuments, hitems, rfl, rfl, rfl, hsound⟩
  rw [classifyOperationalEvidence, mapM_eq_ok.2 haccounts, ok_bind_ok, mapM_eq_ok.2 hdocuments, ok_bind_ok]
  show ((raws.flatten.map (RawSnapshot.marked raws.flatten)).mapM (classifySnapshot runs) >>= _) = _
  rw [mapM_eq_ok.2 (List.forall₂_map_left_iff.2 hitems)]
  show (assemblePlan runs snapshots >>= settlePlan) = _
  rw [hassembled, ok_bind_ok, settlePlan, validate_eq_nil.2 hsound]
  rfl

/-! ## An intact document -/

theorem errors_of_valid {env : List (Text × Value F)} {r : Validation}
    (h : validateSnapshotEvidenceV1 env = .ok r) (hv : r.valid = true) : r.errors = [] := by
  rw [validateSnapshotEvidenceV1] at h
  simp only [bind_eq_ok] at h
  obtain ⟨_, -, _, -, _, -, _, -, _, -, h⟩ := h
  cases h
  exact List.isEmpty_iff.1 hv

/-- An accepted document of version 1 is intact. -/
theorem rawSnapshot_of_accepted {c : Corpus F} {verify : Value F → Result VerificationStatus}
    {runId name : Text} {document : Value F} (hversion : snapshotEvidenceSchemaVersion document = some 1)
    (haccepts : Accepts document) : ∃ raw, rawSnapshot c verify runId name document = .ok raw ∧
      raw.intrinsicValid = true ∧
      raw.status = (((keyOf document EnvelopeKey.payload).getIf (txt "snapshot")).getIf (txt "status")) := by
  obtain ⟨r, hr, hv⟩ := haccepts
  have herrors : r.errors = [] := by
    rw [validateSnapshotEvidence, hversion] at hr
    exact errors_of_valid hr hv
  have hreuse : reuseCodesIf r.valid c verify document (evidencePath runId name) = .ok [] := by
    rw [reuseCodesIf, hversion]
    cases r.valid <;> rfl
  rw [rawSnapshot, hr, ok_bind_ok, hreuse, ok_bind_ok]
  refine ⟨_, rfl, ?_, rfl⟩
  rw [hv, herrors]
  rfl

theorem rawSnapshots_skip {c : Corpus F} {verify : Value F → Result VerificationStatus} {runId name : Text}
    {d : Document F} {rest : List (Text × Document F)} (h : isSnapshotEvidence d.value = .ok false) :
    rawSnapshots c verify runId ((name, d) :: rest) = rawSnapshots c verify runId rest := by
  rw [rawSnapshots, h, ok_bind_ok]
  rfl

theorem rawSnapshots_take {c : Corpus F} {verify : Value F → Result VerificationStatus} {runId name : Text}
    {d : Document F} {rest : List (Text × Document F)} {raw : RawSnapshot F} {raws : List (RawSnapshot F)}
    (h : isSnapshotEvidence d.value = .ok true) (hraw : rawSnapshot c verify runId name d.value = .ok raw)
    (hrest : rawSnapshots c verify runId rest = .ok raws) :
    rawSnapshots c verify runId ((name, d) :: rest) = .ok (raw :: raws) := by
  rw [rawSnapshots, h, ok_bind_ok, if_pos rfl, hraw, ok_bind_ok, hrest]
  rfl

/-- A partial Snapshot of an ungoverned Run that is still scanning is excluded. -/
theorem judge_of_scanning {raw : RawSnapshot F} {run : RunAccount F} (hraw : raw.intrinsicValid = true)
    (hrun : run.item.evidenceIntegrity = .valid) (hkind : run.item.runKind = lit "filesystem.snapshot")
    (hstatus : raw.status = nameValue SnapshotStatus.partialStatus)
    (hfinal : run.item.finalStatus = some .scanning)
    (hungoverned : isSupportedAcquisitionRun (run.files.map fun f => f.2.value) = .ok false) :
    judge raw (some run) = .ok ⟨.inconsistent, some .ineligible, raw.codes ++ [governedReason]⟩ := by
  have hintact : run.intact = true := decide_eq_true hrun
  have hkindEq : (lit (F := F) "filesystem.snapshot").eq (lit "filesystem.snapshot") = true := Value.eq_str.2 rfl
  have hcompatible : snapshotRunCompatible (F := F) (nameValue SnapshotStatus.partialStatus)
      (lit "filesystem.snapshot") (nameValue RunStatus.scanning) (run.files.map fun f => f.2.value) = .ok false := by
    rw [snapshotRunCompatible]
    rfl
  rw [judge, hraw, hintact, hkind, hkindEq]
  show judgeCompatibility raw run = _
  rw [judgeCompatibility, hfinal, hkind, hstatus]
  show (snapshotRunCompatible (nameValue SnapshotStatus.partialStatus) (lit "filesystem.snapshot")
    (nameValue RunStatus.scanning) (run.files.map fun f => f.2.value) >>= _) = _
  rw [hcompatible, ok_bind_ok, hungoverned]
  rfl

/-- Empty metadata govern no Run. -/
theorem ungoverned_of_metadata {first : Value F} {rest : List (Value F)} (hdict : first.isDict = true)
    (hmetadata : (keyOf first EnvelopeKey.payload).getIf (txt "metadata") = .dict []) :
    isSupportedAcquisitionRun (first :: rest) = .ok false := by
  cases first with
  | dict fs =>
    have hfacts : runCreatedMetadata (.dict fs :: rest) =
        .ok (.dict [], Value.get fs (txt "config_digest")) := by
      rw [← hmetadata]
      rfl
    rw [isSupportedAcquisitionRun, hfacts]
    rfl
  | _ => cases hdict

omit [SqliteFloat F] in
/-- A document without shared identities keeps its codes. -/
theorem marked_of_unshared {raws : List (RawSnapshot F)} {raw : RawSnapshot F}
    (h : ∀ k ∈ identityKeys, sharesIdentity raws k.1 raw = false) : raw.marked raws = raw := by
  have hshared : (identityKeys.filter fun k => sharesIdentity raws k.1 raw).map Prod.snd = [] := by
    rw [List.map_eq_nil_iff, List.filter_eq_nil_iff]
    exact fun k hk => by rw [h k hk]; exact Bool.false_ne_true
  rw [RawSnapshot.marked, hshared, List.append_nil]
  cases raw
  simp

/-! ## Two Snapshots without an id -/

/-- `……nn-1111-4111-8111-111111111111`, with the Run's letter in front. -/
def recordId (runId : Text) (n : Nat) : Text :=
  runId ++ txt "000000" ++ Text.ofNat n ++ txt "-1111-4111-8111-111111111111"

/-- The `n`-th record of a Run. -/
def scanFields (runId : Text) (n : Nat) (type : String) (payload previous : Value Integral) :
    EnvelopeKey → Value Integral
  | .schemaVersion => .int 1
  | .evidenceId => .str (recordId runId n)
  | .evidenceType => lit type
  | .runId => .str runId
  | .sequence => .int n
  | .createdAt => lit "2026-01-01T00:00:00.000000Z"
  | .providerVersions => .dict []
  | .previousEvidenceDigest => previous
  | .payload => payload
  | _ => .none

def creationFields (runId : Text) : EnvelopeKey → Value Integral :=
  scanFields runId 1 "run.created" (.dict [(txt "run_kind", lit "filesystem.snapshot"),
    (txt "initial_status", nameValue RunStatus.created), (txt "metadata", .dict [])]) .none

def scanningFields (runId previous : Text) : EnvelopeKey → Value Integral :=
  scanFields runId 2 "run.state_transition" (.dict [(txt "from_status", nameValue RunStatus.created),
    (txt "to_status", nameValue RunStatus.scanning)]) (.str previous)

/-- A scan that ended before its first entry, and has no id. -/
def namelessScan (runId : Text) : Acquisition Integral where
  snapshotId := []
  runId := .str runId
  started := txt "2026-01-01T00:00:00.000000Z"
  completed := txt "2026-01-01T00:00:00.000000Z"
  configDigest := []
  scopeIds := []
  budget _ := .none
  entries := []
  isPartial := true

def namelessSnapshot (runId : Text) : Snapshot Integral := (namelessScan runId).created

def namelessFields (runId previous : Text) : EnvelopeKey → Value Integral :=
  scanFields runId 3 "filesystem.snapshot" (payloadV1 (namelessSnapshot runId)) (.str previous)

theorem sha_eq_direct (v : Value Integral) : sha v = Sha256.Direct.hexdigest (Text.utf8 (canonicalText v)) :=
  Integral.sha256_eq_direct _

/-- A seal is evaluated with the characters of its digest. -/
theorem sealOf_eq_txt {f : EnvelopeKey → Value Integral} {cs : List Char}
    (h : Sha256.Direct.hexdigest (Text.utf8 (canonicalText (.dict (record Named.name EnvelopeKey.unsealed f)))) =
      cs.map ch) : sealOf f = txt (String.ofList cs) := by
  rw [txt_ofList, ← h]
  exact sha_eq_direct _

/-- What is counted of no entries. -/
def namelessTotals (snapshotDigest : Text) : Totals Integral :=
  ⟨0, .int 0, 0, txt "4f53cda18c2baa0c0354bb5f9a3ecbe5ed12ab4d8e11ba873c2f11161202b945", snapshotDigest⟩

/-- What the Snapshot digest is taken of. -/
def namelessContent (runId : Text) : Value Integral :=
  .dict (record Named.name SnapshotKey.digestedV1 ((namelessScan runId).snapshot (namelessTotals [])).value)

theorem createSnapshot_nil {a : Acquisition Integral} {copy : Value Integral} {e d : Text} (ha : a.entries = [])
    (hcopy : jsonCopy (budgetDict a.budget) = .ok copy) (he : digestOf (.list [] : Value Integral) = .ok e)
    (hd : digestOf (.dict (record Named.name SnapshotKey.digestedV1 (a.snapshot ⟨0, .int 0, 0, e, []⟩).value)) = .ok d) :
    createSnapshot a = .ok (a.snapshot ⟨0, .int 0, 0, e, d⟩) := by
  rw [createSnapshot, ha]
  exact bind_eq_ok.2 ⟨[], rfl, bind_eq_ok.2 ⟨e, he, bind_eq_ok.2 ⟨.int 0, rfl, bind_eq_ok.2 ⟨[], rfl,
    bind_eq_ok.2 ⟨copy, hcopy, bind_eq_ok.2 ⟨d, hd, rfl⟩⟩⟩⟩⟩⟩

theorem namelessContent_safe {runId : Text} (h : runId.encodable = true) : (namelessContent runId).safe = true := by
  refine safe_record fun k _ => ?_
  cases k with
  | field f =>
    cases f
    case runId => exact h
    case createdAt | startedAt | completedAt | entriesDigest => exact Text.encodable_txt _
    all_goals rfl
  | status => exact Named.encodable SnapshotStatus.partialStatus
  | consistency => exact Named.encodable SnapshotConsistency.bestEffortPointInTime
  | budget => exact safe_record fun _ _ => rfl
  | _ => rfl

theorem entriesDigest_nil : sha (.list [] : Value Integral) =
    txt "4f53cda18c2baa0c0354bb5f9a3ecbe5ed12ab4d8e11ba873c2f11161202b945" := by
  rw [sha_eq_direct, txt_ofList]
  decide +kernel

/-- The Snapshot digest is evaluated with the characters of it. -/
theorem namelessSnapshot_eq {runId : Text} {cs : List Char} (hrun : runId.encodable = true)
    (hd : Sha256.Direct.hexdigest (Text.utf8 (canonicalText (namelessContent runId))) = cs.map ch) :
    namelessSnapshot runId = (namelessScan runId).snapshot (namelessTotals (txt (String.ofList cs))) := by
  have hentries : digestOf (.list [] : Value Integral) = .ok (namelessTotals []).entriesDigest :=
    digestOf_eq_ok.2 ⟨rfl, entriesDigest_nil.symm⟩
  have hdigest : digestOf (namelessContent runId) = .ok (txt (String.ofList cs)) :=
    digestOf_eq_ok.2 ⟨namelessContent_safe hrun, by rw [sha_eq_direct, hd, txt_ofList]⟩
  have hbudget : (budgetDict fun _ => (.none : Value Integral)).safe = true ∧
      (budgetDict fun _ => (.none : Value Integral)).wf = true :=
    ⟨safe_record fun _ _ => rfl, wf_record Named.nodup fun _ => rfl⟩
  rw [namelessSnapshot, Acquisition.created,
    createSnapshot_nil rfl (jsonCopy_of_safe hbudget.1 hbudget.2) hentries hdigest]
  rfl

/-- The Run has a short name, and the digests of its three records are the given ones. -/
structure Stalled (runId d₁ d₂ d₃ : Text) : Prop where
  name : runId.encodable = true
  ids : ∀ n ∈ [1, 2, 3], Runtime.uuidVersion Integral (recordId runId n) = some (some 4)
  first : sealOf (creationFields runId) = d₁
  second : sealOf (scanningFields runId d₁) = d₂
  third : sealOf (namelessFields runId d₂) = d₃
  distinct : [d₁, d₂, d₃].Nodup
  separate : ([1, 2, 3].map (recordId runId)).Nodup

section
variable {runId d₁ d₂ d₃ : Text} (h : Stalled runId d₁ d₂ d₃)
include h

theorem Stalled.writable : (namelessScan runId).Writable where
  snapshotId := rfl
  run := ⟨rfl, h.name⟩
  started := (by decide : (txt "2026-01-01T00:00:00.000000Z").encodable = true)
  completed := (by decide : (txt "2026-01-01T00:00:00.000000Z").encodable = true)
  configDigest := rfl
  scopeIds := List.forall_mem_nil _
  budget _ := ⟨rfl, rfl⟩
  entries := List.forall_mem_nil _
  ordered := .nil

/-- The Snapshot has the empty id and makes acceptable Evidence. -/
theorem Stalled.snapshot : ∃ t, namelessSnapshot runId = (namelessScan runId).snapshot t ∧
    CoherentV1 (namelessSnapshot runId) [] := h.writable.created

theorem Stalled.encodable_recordId (n : Nat) : (recordId runId n).encodable = true := by
  have h1 : (txt "000000").encodable = true := by decide
  have h2 : (txt "-1111-4111-8111-111111111111").encodable = true := by decide
  simp only [recordId, Text.encodable_append]
  exact ⟨⟨⟨h.name, h1⟩, Text.ofNat_encodable n⟩, h2⟩

theorem Stalled.seals {n : Nat} {type : String} {payload previous : Value Integral}
    (ht : (txt type).encodable = true) (hp : payload.safe = true) (hv : previous.safe = true) :
    Sealed (sealFields (scanFields runId n type payload previous)) := by
  have hdate : (txt "2026-01-01T00:00:00.000000Z").encodable = true := by decide
  refine sealed_sealFields (safe_record fun k _ => ?_)
  cases k
  case evidenceId => exact h.encodable_recordId n
  case evidenceType => exact ht
  case runId => exact h.name
  case createdAt => exact hdate
  case previousEvidenceDigest => exact hv
  case payload => exact hp
  all_goals rfl

omit h in
theorem wf_scanFields {n : Nat} {type : String} {payload previous : Value Integral}
    (hp : payload.wf = true) (hv : previous.wf = true) :
    (Value.dict (envelope (sealFields (scanFields runId n type payload previous)))).wf = true := by
  refine wf_record Named.nodup fun k => ?_
  cases k
  case previousEvidenceDigest => exact hv
  case payload => exact hp
  all_goals rfl

/-- Such a record continues the ledger it was made for. -/
theorem Stalled.nextRecord {n : Nat} {type : String} {payload previous : Value Integral} {st : LedgerScan Integral}
    {name : Text} {b : RunStatus} (hn : n ∈ [1, 2, 3]) (ht : (txt type).encodable = true)
    (hp : payload.safe = true ∧ payload.wf = true ∧ payload.isDict = true)
    (hv : previous.safe = true ∧ previous.wf = true)
    (htype : txt type ∈ ledgerTypes) (hname : filename n (txt type) = .ok name)
    (hnumber : name.take 8 = Text.pad8 n) (hprevious : previous.sortKeys.eq st.previous = true)
    (hid : recordId runId n ∉ st.seenIds)
    (hdigest : sealOf (scanFields runId n type payload previous) ∉ st.seenDigests)
    (hmoves : Moves n (.dict (envelope (sealFields (scanFields runId n type payload previous)))) st.status b) :
    NextRecord runId st n name (sealFields (scanFields runId n type payload previous)) b where
  sealed := h.seals ht hp.1 hv.1
  wf := wf_scanFields hp.2.1 hv.2
  runId := rfl
  sequence := rfl
  version := .inl rfl
  title := ⟨_, htype, rfl, hname⟩
  number := hnumber
  createdAt := ⟨_, rfl, by decide⟩
  evidenceId := ⟨_, rfl, h.ids n hn, hid⟩
  payload := hp.2.2
  providers := rfl
  previous := hprevious
  freshDigest := by rw [sealOf_sealFields]; exact hdigest
  moves := hmoves

theorem Stalled.creation : NextRecord runId .start 1 (txt "00000001_run.created.json")
    (sealFields (creationFields runId)) .created := by
  refine h.nextRecord (by decide) (by decide) ⟨by decide, by decide, rfl⟩ ⟨rfl, rfl⟩
    (by decide) (by decide) (by decide) rfl List.not_mem_nil List.not_mem_nil ?_
  exact .created rfl (keyOf_envelope _ _) (by rw [keyOf_envelope]; rfl)

/-- The state of the ledger after its first record. -/
def stalledStart (runId : Text) : LedgerScan Integral :=
  LedgerScan.start.next (sealFields (creationFields runId)) .created

theorem Stalled.scanning : NextRecord runId (stalledStart runId) 2 (txt "00000002_run.state_transition.json")
    (sealFields (scanningFields runId d₁)) .scanning := by
  have hseparate := h.separate
  have hdistinct := h.distinct
  simp only [List.map_cons, List.map_nil, List.nodup_cons, List.mem_cons, List.not_mem_nil, or_false,
    not_or] at hseparate hdistinct
  refine h.nextRecord (by decide) (by decide) ⟨by decide, by decide, rfl⟩ ⟨?_, rfl⟩
    (by decide) (by decide) (by decide) ?_ ?_ ?_ ?_
  · rw [← h.first]
    exact sha_encodable _
  · rw [← h.first]
    exact Value.eq_str.2 rfl
  · exact fun hm => hseparate.1.1 (List.mem_singleton.1 hm).symm
  · refine fun hm => hdistinct.1.1 ?_
    rw [← h.first, ← h.second]
    exact ((List.mem_singleton.1 hm).trans (sealOf_sealFields _)).symm
  · refine .transition (by decide) (keyOf_envelope _ _) (by rw [keyOf_envelope]; rfl)
      (by rw [keyOf_envelope]; rfl) (by decide : RunStatus.scanning ∈ allowedTargets .created)

/-- The state of the ledger before its Snapshot. -/
def stalledScan (runId d₁ : Text) : LedgerScan Integral :=
  (stalledStart runId).next (sealFields (scanningFields runId d₁)) .scanning

theorem Stalled.payload : (payloadV1 (namelessSnapshot runId)).safe = true ∧
    (payloadV1 (namelessSnapshot runId)).wf = true := by
  obtain ⟨t, ht, hc⟩ := h.snapshot
  refine ⟨safe_payloadV1 hc, ?_⟩
  have hnames : [txt "snapshot", txt "entries"].Nodup := by decide
  refine Value.wf_dict.2 ⟨hnames, ?_⟩
  simp only [List.forall_mem_cons, List.not_mem_nil, false_imp_iff, implies_true, and_true]
  refine ⟨by rw [Value.wf_sortKeys]; exact Snapshot.wf_toDict hc.wf, ?_⟩
  rw [Snapshot.documents, ht]
  rfl

theorem Stalled.snapshotted : NextRecord runId (stalledScan runId d₁) 3 (txt "00000003_filesystem.snapshot.json")
    (sealFields (namelessFields runId d₂)) .scanning := by
  have hseparate := h.separate
  have hdistinct := h.distinct
  simp only [List.map_cons, List.map_nil, List.nodup_cons, List.mem_cons, List.not_mem_nil, or_false,
    not_or] at hseparate hdistinct
  refine h.nextRecord (by decide) (by decide) ⟨h.payload.1, h.payload.2, rfl⟩ ⟨?_, rfl⟩
    (by decide) (by decide) (by decide) ?_ ?_ ?_ ?_
  · rw [← h.second]
    exact sha_encodable _
  · rw [← h.second]
    exact Value.eq_str.2 (congrArg Value.str (sealOf_sealFields _).symm)
  · intro hm
    rcases List.mem_cons.1 hm with hm | hm
    · exact hseparate.2.1 hm.symm
    · exact hseparate.1.2 (List.mem_singleton.1 hm).symm
  · intro hm
    have hd₃ : d₃ ∈ (stalledScan runId d₁).seenDigests := h.third ▸ hm
    rcases List.mem_cons.1 hd₃ with hm | hm
    · exact hdistinct.2.1 (by rw [hm, sealOf_sealFields, h.second])
    · exact hdistinct.1.2 (by rw [List.mem_singleton.1 hm, sealOf_sealFields, h.first])
  · refine .other (by decide) fun he => ?_
    rw [keyOf_envelope] at he
    exact absurd (Value.str.inj he) (by decide)

/-- The files of the Run. -/
def Stalled.files : List (Text × Document Integral) :=
  [(txt "00000001_run.created.json", written _ h.creation.wf),
    (txt "00000002_run.state_transition.json", written _ h.scanning.wf),
    (txt "00000003_filesystem.snapshot.json", written _ h.snapshotted.wf)]

theorem Stalled.history : History runId h.files
    ((stalledScan runId d₁).next (sealFields (namelessFields runId d₂)) .scanning) :=
  .append (.append (.append .start h.creation.appends) h.scanning.appends) h.snapshotted.appends

def Stalled.dir : RunDir Integral where
  listing := h.files.map fun f => (f.1, .file (.json f.2))
  sorted := by
    show [txt "00000001_run.created.json", txt "00000002_run.state_transition.json",
      txt "00000003_filesystem.snapshot.json"].Pairwise (· < ·)
    decide

theorem Stalled.documents : documentsIn h.dir.listing = h.files := by
  have h1 : Text.endsWith (txt "00000001_run.created.json") (txt ".tmp") = false := by decide
  have h2 : Text.endsWith (txt "00000002_run.state_transition.json") (txt ".tmp") = false := by decide
  have h3 : Text.endsWith (txt "00000003_filesystem.snapshot.json") (txt ".tmp") = false := by decide
  simp [documentsIn, Stalled.dir, Stalled.files, h1, h2, h3]

theorem Stalled.intact : Intact runId h.dir
    ((stalledScan runId d₁).next (sealFields (namelessFields runId d₂)) .scanning) where
  clean := by
    intro f hf
    obtain ⟨g, hg, rfl⟩ := List.mem_map.1 hf
    refine ⟨⟨_, rfl⟩, .inr ⟨?_, _, rfl⟩⟩
    have hnames : ∀ n ∈ [txt "00000001_run.created.json", txt "00000002_run.state_transition.json",
      txt "00000003_filesystem.snapshot.json"], isEvidenceName (F := Integral) n = true := by decide
    exact hnames _ (List.mem_map_of_mem (f := Prod.fst) hg)
  nonempty := by rw [h.documents]; exact List.cons_ne_nil _ _
  history := by rw [h.documents]; exact h.history

theorem Stalled.publishes :
    PublishesV1 (namelessSnapshot runId) (members (written _ h.snapshotted.wf).value) := by
  obtain ⟨t, ht, -⟩ := h.snapshot
  have hfields (k : EnvelopeKey) (hk : k ≠ .evidenceDigest) :
      sealFields (namelessFields runId d₂) k = namelessFields runId d₂ k := if_neg hk
  exact publishesV1_written h.snapshotted.sealed h.snapshotted.wf (hfields _ (by decide))
    (hfields _ (by decide)) (by rw [ht, hfields _ (by decide)]; exact Value.eq_str.2 rfl) rfl

theorem Stalled.version : snapshotEvidenceSchemaVersion (written _ h.snapshotted.wf).value = some 1 := by
  have hversion := keyOf_written _ h.snapshotted.wf .schemaVersion
  have hdict : ∃ fs, (written _ h.snapshotted.wf).value = .dict fs := ⟨_, Value.sortKeys_dict _⟩
  obtain ⟨fs, hfs⟩ := hdict
  rw [hfs] at hversion ⊢
  have hfield : fieldOf fs EnvelopeKey.schemaVersion = (.int 1 : Value Integral) := hversion
  rw [snapshotEvidenceSchemaVersion, hfield]
  rfl

theorem Stalled.accepts : Accepts (written _ h.snapshotted.wf).value := by
  obtain ⟨-, -, hc⟩ := h.snapshot
  exact accepts_iff.2 (.inl ⟨h.version, h.publishes.accepted hc⟩)

omit h in
theorem isSnapshotEvidence_written {n : Nat} {type : String} {payload previous : Value Integral}
    (hw : (Value.dict (envelope (sealFields (scanFields runId n type payload previous)))).wf = true) :
    isSnapshotEvidence (written _ hw).value = .ok ((lit (F := Integral) type).eq (lit "filesystem.snapshot")) := by
  have hget := keyOf_written _ hw .evidenceType
  have hdict : ∃ fs, (written _ hw).value = .dict fs := ⟨_, Value.sortKeys_dict _⟩
  obtain ⟨fs, hfs⟩ := hdict
  rw [hfs] at hget ⊢
  have hfield : Value.callGet (.dict fs) (txt "evidence_type") = .ok (lit type) := congrArg Except.ok hget
  rw [isSnapshotEvidence, hfield]
  rfl

/-- The Snapshot document before duplicates are looked for. -/
structure Nameless (runId : Text) (raw : RawSnapshot Integral) : Prop where
  intact : raw.intrinsicValid = true
  codes : raw.codes = []
  status : raw.status = nameValue SnapshotStatus.partialStatus
  snapshotId : raw.snapshotId = some []
  evidenceId : raw.evidenceId = some (recordId runId 3)
  run : raw.runId = runId
  entries : raw.entries = []

theorem Stalled.raws (c : Corpus Integral) (verify : Value Integral → Result VerificationStatus) :
    ∃ raw, rawSnapshots c verify runId h.files = .ok [raw] ∧ Nameless runId raw ∧
      RawOf runId (txt "00000003_filesystem.snapshot.json") (written _ h.snapshotted.wf).value raw := by
  obtain ⟨t, ht, -⟩ := h.snapshot
  obtain ⟨raw, hraw, hvalid, hstatus⟩ := @rawSnapshot_of_accepted _ _ c verify runId
    (txt "00000003_filesystem.snapshot.json") _ h.version h.accepts
  have hof := rawSnapshot_of_ok hraw
  have hkeys : (namelessSnapshot runId).keys = SnapshotKey.v1Current := by rw [ht, Snapshot.keys_v1 rfl]
  have hfield {k : SnapshotKey} (hk : k ∈ SnapshotKey.v1Current) :
      keyOf (snapshotOf (members (written _ h.snapshotted.wf).value)) k = ((namelessSnapshot runId).value k).sortKeys := by
    rw [keyOf_eq_fieldOf, h.publishes.fieldOf (hkeys ▸ hk)]
  refine ⟨raw, ?_, ⟨hvalid, hof.codes hvalid, ?_, ?_, ?_, ?_, ?_⟩, hof⟩
  · have hcreated : isSnapshotEvidence (written _ h.creation.wf).value = .ok false :=
      (isSnapshotEvidence_written h.creation.wf).trans (congrArg Except.ok (by decide))
    have hmoved : isSnapshotEvidence (written _ h.scanning.wf).value = .ok false :=
      (isSnapshotEvidence_written h.scanning.wf).trans (congrArg Except.ok (by decide))
    have hsnapshot : isSnapshotEvidence (written _ h.snapshotted.wf).value = .ok true :=
      (isSnapshotEvidence_written h.snapshotted.wf).trans (congrArg Except.ok (by decide))
    rw [Stalled.files, rawSnapshots_skip hcreated, rawSnapshots_skip hmoved]
    exact rawSnapshots_take hsnapshot hraw rfl
  · have hkey := hfield (k := .status) (by decide)
    rw [ht] at hkey
    rw [hstatus, keyOf_eq_fieldOf]
    exact hkey
  · have hkey := hfield (k := .field .snapshotId) (by decide)
    rw [ht] at hkey
    rw [hof.snapshotId hvalid, snapshotIdOf, hkey]
    rfl
  · rw [hof.evidenceId, keyOf_written]
    rfl
  · rw [hof.runId, keyOf_written]
    rfl
  · have hlist := h.publishes.entries
    rw [entriesOf, payloadOf, ← keyOf_eq_fieldOf] at hlist
    rw [hof.entries, hlist, Snapshot.documents, ht]
    rfl

/-- What the classifier makes of the Run. -/
def Stalled.account : RunAccount Integral :=
  intactAccount runId h.files (lit "filesystem.snapshot") .scanning

theorem Stalled.first_payload : keyOf (written _ h.creation.wf).value EnvelopeKey.payload =
    (Value.dict [(txt "run_kind", lit "filesystem.snapshot"),
      (txt "initial_status", nameValue RunStatus.created), (txt "metadata", .dict [])]).sortKeys :=
  keyOf_written _ h.creation.wf .payload

theorem Stalled.accountRun {c : Corpus Integral} (hdir : c.dir? runId = some h.dir) :
    Steward.accountRun c runId = .ok h.account := by
  refine (h.intact.accountRun_eq_ok hdir h.documents).2 ⟨?_, ?_⟩
  · rw [h.first_payload]
    decide
  · have hkind : (keyOf (written _ h.creation.wf).value EnvelopeKey.payload).getIf (txt "run_kind") =
        lit "filesystem.snapshot" := by
      rw [h.first_payload]
      rfl
    rw [Stalled.account, hkind]
    rfl

theorem Stalled.ungoverned : isSupportedAcquisitionRun (h.account.files.map fun f => f.2.value) = .ok false := by
  have hdict : (written _ h.creation.wf).value.isDict = true := isDict_sortKeys _
  refine ungoverned_of_metadata hdict ?_
  rw [h.first_payload]
  rfl

/-- What the classifier makes of the Snapshot. -/
def Stalled.item (raw : RawSnapshot Integral) : ClassifiedSnapshotReplayItem :=
  snapshotItem raw (some h.account) ⟨.inconsistent, some .ineligible, [governedReason]⟩

theorem Stalled.classified {raw : RawSnapshot Integral} (hraw : Nameless runId raw)
    (runs : List (RunAccount Integral)) {raws : List (RawSnapshot Integral)}
    (hfind : runs.find? (·.item.runId = runId) = some h.account)
    (hshared : ∀ k ∈ identityKeys, sharesIdentity raws k.1 raw = false) :
    classifySnapshot runs (raw.marked raws) = .ok (h.item raw) := by
  rw [marked_of_unshared hshared, classifySnapshot, hraw.run, hfind,
    judge_of_scanning hraw.intact rfl rfl hraw.status rfl h.ungoverned, hraw.codes]
  rfl

theorem Stalled.governed {raw : RawSnapshot Integral} (hraw : Nameless runId raw) : Governed (h.item raw) where
  integrity := by
    rw [Stalled.item, snapshotItem, snapshotIntegrity, hraw.intact]
    rfl
  semantic := SemanticConsistencyStatus.noConfusion
  classified := by simp [Stalled.item, snapshotItem]
  excluded _ := by
    have hcode : onlyGovernedReason [governedReason] = true := by decide
    refine ⟨rfl, ?_⟩
    rwa [← sortedSet_singleton] at hcode
  entries := by
    rw [Stalled.item, snapshotItem, hraw.entries]
    rfl

theorem Stalled.safe_account : h.account.item.toValue.safe = true := by
  have hkind : (keyOf (written _ h.creation.wf).value EnvelopeKey.payload).getIf (txt "run_kind") =
      lit "filesystem.snapshot" := by
    rw [h.first_payload]
    rfl
  have hsafe := safe_intactAccount h.history
  rwa [hkind] at hsafe

theorem Stalled.safe_item {raw : RawSnapshot Integral} (hraw : Nameless runId raw)
    (hof : RawOf runId (txt "00000003_filesystem.snapshot.json") (written _ h.snapshotted.wf).value raw)
    {runs : List (RunAccount Integral)} {raws : List (RawSnapshot Integral)}
    (hitem : classifySnapshot runs (raw.marked raws) = .ok (h.item raw)) :
    ((h.item raw).toValue (F := Integral)).safe = true := by
  obtain ⟨_, _, _, -, -, hrec⟩ := h.history.record (f := (txt "00000003_filesystem.snapshot.json", written _ h.snapshotted.wf))
    (List.mem_cons_of_mem _ (List.mem_cons_of_mem _ List.mem_cons_self))
  refine safe_classified hof hitem hraw.intact (.inr ⟨rfl, rfl, sortedSet_singleton _⟩) (fun k => hrec.safe k)
    h.name ?_
  decide

end

/-- The Runs `a` and `b`. -/
theorem stalled_a : Stalled (txt "a") (txt "86a01374947b024272093214ef6726603c52c7c246516c5d6068c1636afde1bf")
    (txt "47139c587ca6c3f7f33f3720ac2a6808fb47c35a9df29c1b89264d693f7d5de8")
    (txt "b148df8fa97933332621c85679c5342c66aecc4cd263153ef779fd3e320d6197") where
  name := Text.encodable_txt _
  ids := by decide +kernel
  first := by
    refine sealOf_eq_txt ?_
    simp only [creationFields, scanFields, record, EnvelopeKey.unsealed, Named.name, recordId, lit]
    repeat rw [txt_ofList]
    decide +kernel
  second := by
    refine sealOf_eq_txt ?_
    simp only [scanningFields, scanFields, record, EnvelopeKey.unsealed, Named.name, recordId, lit]
    repeat rw [txt_ofList]
    decide +kernel
  third := by
    have hsnapshot : namelessSnapshot (txt "a") = (namelessScan (txt "a")).snapshot
        (namelessTotals (txt "371192f9ca812bf4f6dc7d0310d5dd7f21e3d5674787acc63636b27d03ad5cf5")) := by
      refine namelessSnapshot_eq (Text.encodable_txt _) ?_
      simp only [namelessContent, record, SnapshotKey.digestedV1, SnapshotKey.v1Current, SnapshotKey.v1, Named.name,
        Acquisition.snapshot, namelessScan, namelessTotals, Snapshot.value]
      repeat rw [txt_ofList]
      decide +kernel
    refine sealOf_eq_txt ?_
    rw [namelessFields, hsnapshot]
    simp only [scanFields, record, EnvelopeKey.unsealed, Named.name, recordId, lit, payloadV1, Snapshot.toDict,
      Snapshot.keys, SnapshotKey.v1Current, SnapshotKey.v1, Acquisition.snapshot, namelessScan, namelessTotals,
      Snapshot.value, Snapshot.documents]
    repeat rw [txt_ofList]
    decide +kernel
  distinct := by simp [txt_inj]
  separate := by decide +kernel

theorem stalled_b : Stalled (txt "b") (txt "d5117db9c8cd0ef47908c96cb3981f0f65b49347550e9103cca6d6df1ef3a787")
    (txt "fc058648ae1708b28f68cfa020898e6b25d1252348284321e0aee2a6cf9b635a")
    (txt "c1c9be6cf8d825294611cd77d6132cee094f6e15881f01cf4f10d17e9f348c53") where
  name := Text.encodable_txt _
  ids := by decide +kernel
  first := by
    refine sealOf_eq_txt ?_
    simp only [creationFields, scanFields, record, EnvelopeKey.unsealed, Named.name, recordId, lit]
    repeat rw [txt_ofList]
    decide +kernel
  second := by
    refine sealOf_eq_txt ?_
    simp only [scanningFields, scanFields, record, EnvelopeKey.unsealed, Named.name, recordId, lit]
    repeat rw [txt_ofList]
    decide +kernel
  third := by
    have hsnapshot : namelessSnapshot (txt "b") = (namelessScan (txt "b")).snapshot
        (namelessTotals (txt "36a5ffec7c72d012e90d8436f7c00167428e5d1a04be0d56a92ad51a091fd39c")) := by
      refine namelessSnapshot_eq (Text.encodable_txt _) ?_
      simp only [namelessContent, record, SnapshotKey.digestedV1, SnapshotKey.v1Current, SnapshotKey.v1, Named.name,
        Acquisition.snapshot, namelessScan, namelessTotals, Snapshot.value]
      repeat rw [txt_ofList]
      decide +kernel
    refine sealOf_eq_txt ?_
    rw [namelessFields, hsnapshot]
    simp only [scanFields, record, EnvelopeKey.unsealed, Named.name, recordId, lit, payloadV1, Snapshot.toDict,
      Snapshot.keys, SnapshotKey.v1Current, SnapshotKey.v1, Acquisition.snapshot, namelessScan, namelessTotals,
      Snapshot.value, Snapshot.documents]
    repeat rw [txt_ofList]
    decide +kernel
  distinct := by simp [txt_inj]
  separate := by decide +kernel

/-- The corpus of the two Runs. -/
def namelessCorpus : Corpus Integral where
  runs := some ⟨[(txt "a", stalled_a.dir), (txt "b", stalled_b.dir)], by
    show [txt "a", txt "b"].Pairwise (· < ·)
    decide⟩
  elsewhere _ := none

/-- Its plan is complete. -/
theorem nameless_plan : ∃ plan, classifyOperationalEvidence namelessCorpus (verifyStatus namelessCorpus .empty 1) =
    .ok plan ∧ plan.classificationComplete = true ∧ ∃ a ∈ plan.snapshots, ∃ b ∈ plan.snapshots,
      a.evidenceId ≠ b.evidenceId ∧ a.snapshotId = some [] ∧ b.snapshotId = some [] := by
  obtain ⟨rawA, hrawA, hA, hofA⟩ := stalled_a.raws namelessCorpus (verifyStatus namelessCorpus .empty 1)
  obtain ⟨rawB, hrawB, hB, hofB⟩ := stalled_b.raws namelessCorpus (verifyStatus namelessCorpus .empty 1)
  have hne : recordId (txt "a") 3 ≠ recordId (txt "b") 3 := by decide
  have hshared : ∀ raw ∈ [rawA, rawB], ∀ k ∈ identityKeys, sharesIdentity [rawA, rawB] k.1 raw = false := by
    simp only [List.forall_mem_cons, List.not_mem_nil, false_imp_iff, implies_true, and_true, identityKeys,
      sharesIdentity, hA.snapshotId, hB.snapshotId, hA.run, hB.run, hA.evidenceId, hB.evidenceId, List.countP_cons,
      List.countP_nil]
    decide
  have hitemA := stalled_a.classified hA [stalled_a.account, stalled_b.account] rfl
    (hshared rawA List.mem_cons_self)
  have hitemB := stalled_b.classified hB [stalled_a.account, stalled_b.account] rfl
    (hshared rawB (List.mem_cons_of_mem _ List.mem_cons_self))
  obtain ⟨plan, hplan, hof⟩ := classify_of_governed (c := namelessCorpus)
    (verifyStatus namelessCorpus .empty 1) [[rawA], [rawB]]
    (.cons (stalled_a.accountRun rfl) (.cons (stalled_b.accountRun rfl) .nil))
    (.cons hrawA (.cons hrawB .nil)) (.cons hitemA (.cons hitemB .nil)) (by simp; exact ⟨⟨rfl, rfl⟩, rfl, rfl⟩)
    (by simpa using ⟨stalled_a.governed hA, stalled_b.governed hB⟩)
    (by simpa using ⟨stalled_a.safe_account, stalled_b.safe_account⟩)
    (by simpa using ⟨stalled_a.safe_item hA hofA hitemA, stalled_b.safe_item hB hofB hitemB⟩)
  have hmem {s : ClassifiedSnapshotReplayItem} (hs : s ∈ [stalled_a.item rawA, stalled_b.item rawB]) :
      s ∈ plan.snapshots := by
    rw [hof.planSnapshots]
    exact mem_sortedBy.2 hs
  refine ⟨plan, hplan, hof.sound.complete, _, hmem List.mem_cons_self, _,
    hmem (List.mem_cons_of_mem _ List.mem_cons_self), fun he => hne ?_, hA.snapshotId, hB.snapshotId⟩
  change rawA.evidenceId = rawB.evidenceId at he
  rw [hA.evidenceId, hB.evidenceId] at he
  exact Option.some.inj he

/-! ## Agreement -/

/-- The plan of a corpus is complete exactly when its validation finds nothing, and then it accounts
for the whole corpus. -/
theorem plan_agrees {c : Corpus F} {verify : Value F → Result VerificationStatus}
    {plan : ClassifiedReplayPlan F} (h : classifyOperationalEvidence c verify = .ok plan) :
    (plan.classificationComplete = true ↔ validateClassifiedReplayPlan plan = .ok []) ∧
      (plan.classificationComplete = true → PlanAgrees c plan) := by
  obtain ⟨hvalidated, hcomplete⟩ := classify_eq_ok h
  refine ⟨hvalidated, fun hc => ?_⟩
  obtain ⟨runs, raws, snapshots, hplan⟩ := hcomplete hc
  exact hplan.agrees

/-- The plan of the two Runs agrees with them. -/
theorem nameless_plan_agrees : ∃ plan,
    classifyOperationalEvidence namelessCorpus (verifyStatus namelessCorpus .empty 1) = .ok plan ∧
      PlanAgrees namelessCorpus plan := by
  obtain ⟨plan, hplan, hcomplete, -⟩ := nameless_plan
  exact ⟨plan, hplan, (plan_agrees hplan).2 hcomplete⟩

/-- The two Snapshots of their plan share an id, the empty one. -/
theorem nameless_snapshots_share : ∃ plan,
    classifyOperationalEvidence namelessCorpus (verifyStatus namelessCorpus .empty 1) = .ok plan ∧
      plan.classificationComplete = true ∧ ∃ a ∈ plan.snapshots, ∃ b ∈ plan.snapshots, a ≠ b ∧
        a.snapshotId ≠ none ∧ a.snapshotId = b.snapshotId := by
  obtain ⟨plan, hplan, hcomplete, a, ha, b, hb, hne, hsa, hsb⟩ := nameless_plan
  exact ⟨plan, hplan, hcomplete, a, ha, b, hb, fun he => hne (congrArg _ he), by rw [hsa]; exact Option.some_ne_none _,
    hsa.trans hsb.symm⟩

end Steward
