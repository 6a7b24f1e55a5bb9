import Steward.Evidence.Envelope
import Steward.Storage.History

/-!
# Sealed records

A sealed envelope with the fields of the next record, once written, continues
the ledger it was made for.
-/

namespace Steward

open Py Sqlite

variable {F : Type} [SqliteFloat F]

/-- The fields of the `n`-th record of a Run, which leaves the status `b`. -/
structure NextRecord (runId : Text) (st : LedgerScan F) (n : Nat) (name : Text) (f : EnvelopeKey → Value F)
    (b : RunStatus) : Prop where
  sealed : Sealed f
  wf : (Value.dict (envelope f)).wf = true
  runId : f .runId = .str runId
  sequence : f .sequence = .int n
  version : f .schemaVersion = .int 1 ∨ f .schemaVersion = .int 2 ∧ f .evidenceType = lit "filesystem.snapshot"
  title : ∃ t ∈ ledgerTypes, f .evidenceType = .str t ∧ filename n t = .ok name
  number : name.take 8 = Text.pad8 n
  createdAt : ∃ t, f .createdAt = .str t ∧ Runtime.isoAware F (zoned t) = some true
  evidenceId : ∃ u, f .evidenceId = .str u ∧ Runtime.uuidVersion F u = some (some 4) ∧ u ∉ st.seenIds
  payload : (f .payload).isDict = true
  providers : (f .providerVersions).isDict = true
  previous : (f .previousEvidenceDigest).sortKeys.eq st.previous = true
  freshDigest : sealOf f ∉ st.seenDigests
  moves : Moves n (.dict (envelope f)) st.status b

/-- The state after the record. -/
def LedgerScan.next (st : LedgerScan F) (f : EnvelopeKey → Value F) (b : RunStatus) : LedgerScan F :=
  ⟨[], b, .str (sealOf f), (f .evidenceId).pyStr :: st.seenIds, sealOf f :: st.seenDigests⟩

omit [SqliteFloat F] in
theorem moves_written {f : EnvelopeKey → Value F} (h : (Value.dict (envelope f)).wf = true) {n : Nat}
    {a b : RunStatus} (hm : Moves n (.dict (envelope f)) a b) : Moves n (written f h).value a b := by
  have hpayload : (f .payload).wf = true := by
    have hget := Value.wf_get h (Named.name EnvelopeKey.payload)
    rwa [show Value.get (envelope f) (Named.name EnvelopeKey.payload) = f .payload from fieldOf_envelope f _]
      at hget
  have hget (k : Text) : (keyOf (written f h).value EnvelopeKey.payload).getIf k =
      ((keyOf (.dict (envelope f)) EnvelopeKey.payload).getIf k).sortKeys := by
    rw [keyOf_written, keyOf_envelope, getIf_sortKeys hpayload]
  have htype : keyOf (written f h).value EnvelopeKey.evidenceType =
      (keyOf (.dict (envelope f)) EnvelopeKey.evidenceType).sortKeys := by
    rw [keyOf_written, keyOf_envelope]
  cases hm with
  | created hn ht hi => exact .created hn (htype.trans (sortKeys_str ht)) ((hget _).trans (sortKeys_str hi))
  | transition hn ht hs hc ha =>
    exact .transition hn (htype.trans (sortKeys_str ht)) ((hget _).trans (sortKeys_str hs))
      ((hget _).trans (sortKeys_str hc)) ha
  | other hn ht =>
    refine .other hn fun he => ht ?_
    rw [htype] at he
    cases hv : keyOf (.dict (envelope f)) EnvelopeKey.evidenceType with
    | str t => rw [hv] at he; exact he
    | list xs => rw [hv, Value.sortKeys_list] at he; cases he
    | dict fs => rw [hv, Value.sortKeys_dict] at he; cases he
    | _ => rw [hv] at he; cases he

/-- A written record continues its ledger. -/
theorem NextRecord.appends {runId : Text} {st : LedgerScan F} {n : Nat} {name : Text}
    {f : EnvelopeKey → Value F} {b : RunStatus} (h : NextRecord runId st n name f b) :
    Appends runId st n name (written f h.wf).value (st.next f b) := by
  have hkey {k : EnvelopeKey} {t : Text} (hk : f k = .str t) : keyOf (written f h.wf).value k = .str t :=
    (keyOf_written f h.wf k).trans (sortKeys_str hk)
  have hdict : ∃ fs, (written f h.wf).value = .dict fs := ⟨_, Value.sortKeys_dict _⟩
  obtain ⟨fs, hfs⟩ := hdict
  have hkeys : hasKeys (memberNames EnvelopeKey) (members (written f h.wf).value) = true :=
    (hasKeys_sortKeys _ _).trans (hasKeys_envelope f)
  have hversion : snapshotEvidenceSchemaVersion (written f h.wf).value = some 1 ∨
      snapshotEvidenceSchemaVersion (written f h.wf).value = some 2 ∧
        keyOf (written f h.wf).value EnvelopeKey.evidenceType = lit "filesystem.snapshot" := by
    have hfield : fieldOf fs EnvelopeKey.schemaVersion = (f .schemaVersion).sortKeys := by
      rw [← keyOf_written f h.wf, hfs]
      rfl
    rw [hfs, snapshotEvidenceSchemaVersion, hfield]
    rcases h.version with hv | ⟨hv, ht⟩
    · rw [hv]
      exact .inl rfl
    · rw [hv, ← hfs]
      exact .inr ⟨rfl, hkey ht⟩
  obtain ⟨t, ht, htype, hname⟩ := h.title
  obtain ⟨s, hs, hiso⟩ := h.createdAt
  obtain ⟨u, hu, hversion4, hfresh⟩ := h.evidenceId
  have hdigest := hkey h.sealed.digest
  have hid : (keyOf (written f h.wf).value EnvelopeKey.evidenceId).pyStr = (f .evidenceId).pyStr := by
    rw [hkey hu, hu]
  have hsequence : keyOf (written f h.wf).value EnvelopeKey.sequence = .int n := by
    rw [keyOf_written, h.sequence]
    rfl
  refine ⟨⟨⟨by rw [hfs]; rfl, hkey h.runId, ?_, h.number, hkeys, hversion⟩, ⟨t, ht, hkey htype, hname⟩,
    ⟨s, hkey hs, hiso⟩, ⟨u, hkey hu, hversion4⟩, ?_, ?_⟩, ?_, ⟨_, h.sealed.digest_written h.wf, hdigest⟩, ?_, ?_,
    moves_written h.wf h.moves, ?_⟩
  · rw [hsequence]
    exact decide_eq_true rfl
  · rw [keyOf_written, isDict_sortKeys]
    exact h.payload
  · rw [keyOf_written, isDict_sortKeys]
    exact h.providers
  · rw [keyOf_written]
    exact h.previous
  · rw [hkey hu]
    exact hfresh
  · rw [hdigest]
    exact h.freshDigest
  · rw [hid, hdigest]
    rfl

end Steward
