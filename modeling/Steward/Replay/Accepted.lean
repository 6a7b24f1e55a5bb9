import Steward.Replay.Insert
import Steward.Sqlite.Integral

/-!
# Accepted ledgers

What verification promises of a Run ledger: it returns, it accepts exactly the
lawful ledgers, and what it accepts is accounted for and inserted by replay.
`Verifiable` says for which directories the promise holds.
-/

namespace Steward

open Py Sqlite

variable {F : Type} [SqliteFloat F]

/-! ## Accounting for an intact ledger -/

/-- The account of an intact ledger in its final state. -/
def intactAccount (runId : Text) (files : List (Text × Document F)) (runKind : Value F) (status : RunStatus) :
    RunAccount F where
  item := {
    runId
    evidenceCount := files.length
    evidenceIntegrity := .valid
    runKind
    finalStatus := some status
    lastEvidenceDigest := (files.getLast?.map fun f => keyOf f.2.value EnvelopeKey.evidenceDigest).getD .none
    evidenceIds := files.map fun f => (keyOf f.2.value EnvelopeKey.evidenceId).pyStr
    evidenceDigests := files.map fun f => (keyOf f.2.value EnvelopeKey.evidenceDigest).pyStr
    issueCodes := [] }
  files
  issues := []

theorem RecordHead.textField {runId name : Text} {n : Nat} {document : Value F}
    (h : RecordHead runId n name document) (k : EnvelopeKey) (s : String) (hs : txt s = Named.name k) :
    textField document s = .ok (keyOf document k).pyStr := by
  have hitem := h.item k
  cases document with
  | dict fs =>
    rw [Steward.textField, hs]
    cases hl : lookup fs (Named.name k) with
    | none => rw [Value.item, hl] at hitem; cases hitem
    | some v => rw [keyOf, Value.getIf, Value.get_of_lookup hl]; rfl
  | _ => cases hitem

section
variable {runId : Text} {files : List (Text × Document F)} {st : LedgerScan F} (h : History runId files st)
include h

theorem History.texts (k : EnvelopeKey) (s : String) (hs : txt s = Named.name k) :
    (files.mapM fun f => py (textField f.2.value s)) = .ok (files.map fun f => (keyOf f.2.value k).pyStr) := by
  rw [mapM_eq_ok, List.forall₂_map_right_iff, List.forall₂_same]
  intro f hf
  obtain ⟨n, -, hn⟩ := h.shape hf
  rw [hn.toRecordHead.textField k s hs]
  rfl

theorem History.lastDigest : lastEvidenceDigest files =
    .ok ((files.getLast?.map fun f => keyOf f.2.value EnvelopeKey.evidenceDigest).getD .none) := by
  rw [lastEvidenceDigest]
  cases hl : files.getLast? with
  | none => rfl
  | some f =>
    obtain ⟨n, -, hn⟩ := h.shape (List.mem_of_getLast? hl)
    have hobject := hn.object
    show py (f.2.value.callGet (txt "evidence_digest")) = .ok (keyOf f.2.value EnvelopeKey.evidenceDigest)
    cases hd : f.2.value with
    | dict fs => rfl
    | _ => rw [hd] at hobject; cases hobject

end

/-- The conclusion needs the kind of the Run. -/
theorem History.conclusion {runId : Text} {first : Text × Document F} {rest : List (Text × Document F)}
    {st : LedgerScan F} (h : History runId (first :: rest) st) {o : Option (Value F × RunStatus)} :
    conclusionIf true (first :: rest) = .ok o ↔
      (lookup (members (keyOf first.2.value EnvelopeKey.payload)) (txt "run_kind")).isSome = true ∧
        o = some ((keyOf first.2.value EnvelopeKey.payload).getIf (txt "run_kind"), st.status) := by
  obtain ⟨n, -, hn⟩ := h.shape (f := first) List.mem_cons_self
  have hpayload := hn.item .payload
  simp only [Named.name] at hpayload
  rw [conclusionIf, if_pos rfl, ledgerConclusion, hpayload]
  simp only [ok_bind_ok, h.folded_rest]
  constructor
  · intro ho
    cases hk : (keyOf first.2.value EnvelopeKey.payload).item (txt "run_kind") with
    | error e => rw [hk] at ho; cases ho
    | ok kind =>
      rw [hk] at ho
      cases ho
      exact ⟨ok_item.1 ⟨_, hk⟩, by rw [item_eq_getIf hk]⟩
  · rintro ⟨hk, rfl⟩
    obtain ⟨kind, hk⟩ := ok_item.2 hk
    rw [hk, item_eq_getIf hk]
    rfl

section
variable {c : Corpus F} {runId : Text} {dir : RunDir F} {st : LedgerScan F} (hdir : c.dir? runId = some dir)
  (h : Intact runId dir st)
include hdir h

theorem Intact.load : loadRunFiles c runId = .ok ⟨documentsIn dir.listing, []⟩ := by
  rw [loadRunFiles, hdir]
  exact (loadListing_eq_ok.2 ⟨h.clean, rfl⟩).1

theorem Intact.verify : verifyRun c runId = .ok (.of runId true true [] (documentsIn dir.listing).length) := by
  obtain ⟨hst, he⟩ := verifyFiles_accepted.2 h.history
  rw [verifyRun, h.load hdir, ok_bind_ok, scanLedger, if_pos rfl, hst]
  simp only [ok_bind_ok, he]
  rw [pure_bind, ledgerAccepted]
  simp [h.nonempty]

/-- An intact ledger is accounted for exactly when its first record carries the kind of the Run. -/
theorem Intact.accountRun_eq_ok {first : Text × Document F} {rest : List (Text × Document F)}
    (hfiles : documentsIn dir.listing = first :: rest) {a : RunAccount F} : accountRun c runId = .ok a ↔
      (lookup (members (keyOf first.2.value EnvelopeKey.payload)) (txt "run_kind")).isSome = true ∧
      a = intactAccount runId (first :: rest)
        ((keyOf first.2.value EnvelopeKey.payload).getIf (txt "run_kind")) st.status := by
  have hhist := h.history
  have hload := h.load hdir
  have hverify := h.verify hdir
  rw [hfiles] at hhist hload hverify
  rw [accountRun, hload, ok_bind_ok, hverify, ok_bind_ok, hhist.texts .evidenceId "evidence_id" rfl,
    hhist.texts .evidenceDigest "evidence_digest" rfl, hhist.lastDigest]
  simp only [ok_bind_ok]
  change (conclusionIf true (first :: rest) >>= _) = _ ↔ _
  rw [bind_eq_ok]
  simp only [hhist.conclusion]
  constructor
  · rintro ⟨_, ⟨hk, rfl⟩, ha⟩
    exact ⟨hk, by cases ha; rfl⟩
  · rintro ⟨hk, rfl⟩
    exact ⟨_, ⟨hk, rfl⟩, rfl⟩

end

/-! ## What verification promises -/

/-- Only the first record creates the Run. -/
def SoleCreation (files : List (Text × Document F)) : Prop :=
  ∀ f ∈ files.tail, keyOf f.2.value EnvelopeKey.evidenceType ≠ lit "run.created"

/-- The ledger is a history of one creation that carries what replay reads. -/
structure Lawful (runId : Text) (dir : RunDir F) : Prop where
  intact : ∃ st, Intact runId dir st
  sole : SoleCreation (documentsIn dir.listing)
  carries : ∀ f ∈ (documentsIn dir.listing).head?, Carries f.2.value

/-- Verification returns, accepts exactly the lawful ledgers, and replay takes what it accepts. -/
structure LedgerVerified (c : Corpus F) (runId : Text) : Prop where
  returns : Ok (verifyRun c runId) ∧ ∀ ix : Index F, Ok (verifyRunIndexed c ix runId)
  exact : ∀ v, verifyRun c runId = .ok v →
    (v.ledgerValid = true ↔ ∃ dir, c.dir? runId = some dir ∧ Lawful runId dir)
  processed : ∀ v, verifyRun c runId = .ok v → v.ledgerValid = true → Ok (accountRun c runId) ∧
    ∃ loaded, loadRunFiles c runId = .ok loaded ∧ Ok (insertRunLedger .empty runId loaded.files)

/-- A directory for which the promise holds. -/
structure Verifiable (runId : Text) (dir : RunDir F) : Prop where
  readable : ReadableListing dir.listing
  total : CleanListing dir.listing → LedgerTotal runId (documentsIn dir.listing)
  sole : ∀ st, Intact runId dir st → SoleCreation (documentsIn dir.listing)
  first : ∀ st, Intact runId dir st → ∀ f ∈ (documentsIn dir.listing).head?,
    Carries f.2.value ∧ Projectable f.2.value (documentsIn dir.listing).length

/-- The index does not matter to whether verification returns. -/
theorem ok_verifyRunIndexed {c : Corpus F} {ix : Index F} {runId : Text} :
    Ok (verifyRunIndexed c ix runId) ↔ Ok (verifyRun c runId) := by
  rw [verifyRunIndexed, verifyRun, ok_bind, ok_bind]
  refine exists_congr fun loaded => and_congr_right fun _ => ?_
  rw [ok_bind_of_total fun _ => ok_pure _]
  refine ok_bind_of_total fun s => ?_
  rw [ok_ite]
  refine ⟨fun _ => ?_, fun _ => ok_pure _⟩
  rw [ok_ite]
  exact ⟨fun _ => ok_pure _, fun _ => ok_pure _⟩

/-- Into an empty index a history goes exactly when its first record gives what the row needs. -/
theorem History.ok_insertRunLedger {runId : Text} {first : Text × Document F}
    {rest : List (Text × Document F)} {st : LedgerScan F} (h : History runId (first :: rest) st) :
    Ok (insertRunLedger .empty runId (first :: rest)) ↔
      Carries first.2.value ∧ Projectable first.2.value (first :: rest).length := by
  constructor
  · rintro ⟨ix, hix⟩
    obtain ⟨hc, hp, -⟩ := h.insertRunLedger_eq_ok.1 hix
    exact ⟨hc, hp⟩
  · rintro ⟨hc, hp⟩
    exact ⟨_, h.insertRunLedger_eq_ok.2 ⟨hc, hp, List.forall_mem_nil _, List.forall_mem_nil _, rfl⟩⟩

/-- A `run.created` record whose `created_at` is a number. -/
def undatedFields : EnvelopeKey → Value Integral
  | .schemaVersion | .sequence => .int 1
  | .evidenceId => lit "11111111-1111-4111-8111-111111111111"
  | .evidenceType => lit "run.created"
  | .runId => lit "a"
  | .createdAt => .int 0
  | .payload | .providerVersions => .dict []
  | _ => .none

def undatedRecord : Document Integral := ⟨.dict (envelope undatedFields), by decide +kernel⟩

/-- Its ledger, the only one of the corpus. -/
def undatedCorpus : Corpus Integral :=
  Corpus.put ⟨none, fun _ => none⟩ (txt "a") (txt "00000001_run.created.json") (.json undatedRecord)

end Steward
