import Steward.Evidence.Corpus
import Steward.Snapshot.Statistics

/-!
# Sealed envelopes

An Evidence document is a record of its thirteen fields, sealed by the digest
of the other twelve. Writing it to a file sorts its keys and changes neither a
field nor the digest.
-/

namespace Steward

open Py Sqlite

variable {F : Type} [SqliteFloat F]

/-- The keys of an item before its digest is set. -/
def EnvelopeKey.unsealed : List EnvelopeKey :=
  [.schemaVersion, .evidenceId, .evidenceType, .runId, .sequence, .createdAt, .toolVersion,
    .configDigest, .policyDigest, .providerVersions, .previousEvidenceDigest, .payload]

theorem EnvelopeKey.mem_unsealed {k : EnvelopeKey} : k ∈ EnvelopeKey.unsealed ↔ k ≠ .evidenceDigest := by
  cases k <;> decide

/-- The document with the given fields. -/
def envelope (f : EnvelopeKey → Value F) : List (Text × Value F) := record Named.name Named.all f

/-- The digest of the other fields. -/
def sealOf (f : EnvelopeKey → Value F) : Text := sha (.dict (record Named.name EnvelopeKey.unsealed f))

/-- The digest field is the digest of the other fields. -/
structure Sealed (f : EnvelopeKey → Value F) : Prop where
  safe : (Value.dict (record Named.name EnvelopeKey.unsealed f)).safe = true
  digest : f .evidenceDigest = .str (sealOf f)

/-- The fields with their digest set. -/
def sealFields (f : EnvelopeKey → Value F) (k : EnvelopeKey) : Value F :=
  if k = .evidenceDigest then .str (sealOf f) else f k

omit [SqliteFloat F] in
theorem record_congr {α β : Type} {name : α → Text} {as : List α} {f g : α → β}
    (h : ∀ a ∈ as, f a = g a) : record name as f = record name as g :=
  List.map_congr_left fun a ha => by rw [h a ha]

theorem unsealed_sealFields (f : EnvelopeKey → Value F) :
    record Named.name EnvelopeKey.unsealed (sealFields f) = record Named.name EnvelopeKey.unsealed f :=
  record_congr fun _ hk => if_neg (EnvelopeKey.mem_unsealed.1 hk)

@[simp] theorem sealOf_sealFields (f : EnvelopeKey → Value F) : sealOf (sealFields f) = sealOf f := by
  rw [sealOf, unsealed_sealFields, sealOf]

theorem sealed_sealFields {f : EnvelopeKey → Value F}
    (h : (Value.dict (record Named.name EnvelopeKey.unsealed f)).safe = true) : Sealed (sealFields f) := by
  refine ⟨by rw [unsealed_sealFields]; exact h, ?_⟩
  rw [sealOf_sealFields]
  rfl

section

omit [SqliteFloat F]

@[simp] theorem fieldOf_envelope (f : EnvelopeKey → Value F) (k : EnvelopeKey) :
    fieldOf (envelope f) k = f k := fieldOf_record (Named.complete k)

theorem without_unsealed (f : EnvelopeKey → Value F) :
    without [txt "evidence_digest"] (record Named.name EnvelopeKey.unsealed f) =
      record Named.name EnvelopeKey.unsealed f := by
  have : ([txt "evidence_digest"] : List Text) = names [EnvelopeKey.evidenceDigest] := rfl
  rw [this, without_record]
  rfl

theorem without_envelope (f : EnvelopeKey → Value F) :
    without [txt "evidence_digest"] (envelope f) = record Named.name EnvelopeKey.unsealed f := by
  have : ([txt "evidence_digest"] : List Text) = names [EnvelopeKey.evidenceDigest] := rfl
  rw [this, envelope, without_record]
  rfl

theorem hasKeys_envelope (f : EnvelopeKey → Value F) :
    hasKeys (memberNames EnvelopeKey) (envelope f) = true :=
  hasKeys_record fun _ => Iff.rfl

end

theorem Sealed.safe_envelope {f : EnvelopeKey → Value F} (h : Sealed f) :
    (Value.dict (envelope f)).safe = true := by
  have hs := Value.safe_dict.1 h.safe
  refine safe_record fun k _ => ?_
  by_cases hk : k = .evidenceDigest
  · subst hk
    rw [h.digest]
    exact sha_encodable _
  · exact hs.2 (Named.name k, f k) (List.mem_map_of_mem (EnvelopeKey.mem_unsealed.2 hk))

theorem Sealed.digest_envelope {f : EnvelopeKey → Value F} (h : Sealed f) :
    Steward.digest (envelope f) = .ok (sealOf f) := by
  rw [Steward.digest, without_envelope]
  exact digestOf_eq_ok.2 ⟨h.safe, rfl⟩

/-! ## Sorting a document -/

section
omit [SqliteFloat F]

theorem keyOf_sortKeys {κ : Type} [Named κ] {v : Value F} (h : v.wf = true) (k : κ) :
    keyOf v.sortKeys k = (keyOf v k).sortKeys := by
  cases v with
  | dict fs =>
    rw [Value.sortKeys_dict, keyOf, keyOf, Value.getIf, Value.getIf, Value.get, Value.get,
      Value.lookup_sortKeys (Value.wf_dict.1 h).1]
    cases lookup fs (Named.name k) <;> rfl
  | list xs => rw [Value.sortKeys_list]; rfl
  | _ => rfl

theorem keyOf_envelope (f : EnvelopeKey → Value F) (k : EnvelopeKey) :
    keyOf (.dict (envelope f)) k = f k := fieldOf_envelope f k

theorem getIf_sortKeys {v : Value F} (h : v.wf = true) (k : Text) :
    v.sortKeys.getIf k = (v.getIf k).sortKeys := by
  cases v with
  | dict fs =>
    rw [Value.sortKeys_dict, Value.getIf, Value.getIf, Value.get, Value.get,
      Value.lookup_sortKeys (Value.wf_dict.1 h).1]
    cases lookup fs k <;> rfl
  | list xs => rw [Value.sortKeys_list]; rfl
  | _ => rfl

theorem isDict_sortKeys (v : Value F) : v.sortKeys.isDict = v.isDict := by
  cases v with
  | list xs => rw [Value.sortKeys_list]; rfl
  | dict fs => rw [Value.sortKeys_dict]; rfl
  | _ => rfl

theorem hasKeys_sortKeys (ks : List Text) (fs : List (Text × Value F)) :
    hasKeys ks (members (Value.dict fs).sortKeys) = hasKeys ks fs := by
  have hmembers : members (Value.dict fs).sortKeys =
      Value.sortFields (fs.map fun g => (g.1, g.2.sortKeys)) := by
    rw [Value.sortKeys_dict]
    rfl
  rw [Bool.eq_iff_iff, hasKeys_iff, hasKeys_iff]
  refine forall_congr' fun k => ?_
  rw [hmembers, (Value.keys_sortKeys_perm fs).mem_iff]

theorem sortKeys_str {v : Value F} {t : Text} (h : v = .str t) : v.sortKeys = .str t := by rw [h]; rfl

/-- Dropping keys from a sorted object and from the object itself sort alike. -/
theorem sortKeys_without (ks : List Text) {fs : List (Text × Value F)} (h : (Value.dict fs).wf = true) :
    (Value.dict (without ks (members (Value.dict fs).sortKeys))).sortKeys =
      (Value.dict (without ks fs)).sortKeys := by
  have hnd := (Value.wf_dict.1 h).1
  set gs := fs.map fun f => (f.1, f.2.sortKeys) with hgs
  have hsorted : members (Value.dict fs).sortKeys = Value.sortFields gs := by
    rw [Value.sortKeys_dict]; rfl
  have hperm : (without ks (Value.sortFields gs)).Perm (without ks gs) :=
    (Value.sortFields_perm gs).filter _
  have hmap : without ks gs = (without ks fs).map fun f => (f.1, f.2.sortKeys) := by
    rw [without, without, hgs, List.filter_map]; rfl
  have hfix (l : List (Text × Value F)) :
      ((l.map fun f => (f.1, f.2.sortKeys)).map fun f => (f.1, f.2.sortKeys)) =
        l.map fun f => (f.1, f.2.sortKeys) := by
    rw [List.map_map]
    exact List.map_congr_left fun f _ => by simp [Value.sortKeys_sortKeys]
  rw [hsorted, Value.sortKeys_dict, Value.sortKeys_dict]
  congr 1
  refine (Value.sortFields_eq_of_perm (hperm.map _) ?_).trans ?_
  · rw [Value.keys_map_snd]
    refine keys_without_nodup (((Value.sortFields_perm gs).map _).nodup_iff.2 ?_)
    rw [← keys, hgs, Value.keys_map_snd]
    exact hnd
  · rw [hmap, hfix]

end

theorem digest_sorted {fs : List (Text × Value F)} (h : (Value.dict fs).wf = true) {d : Text} :
    digest (members (Value.dict fs).sortKeys) = .ok d ↔ digest fs = .ok d := by
  have hs := sortKeys_without [txt "evidence_digest"] h
  have hsafe := congrArg Value.safe hs
  rw [Value.safe_sortKeys, Value.safe_sortKeys] at hsafe
  rw [digest, digest, digestOf_eq_ok, digestOf_eq_ok, hsafe, ← sha_sortKeys, hs, sha_sortKeys]

/-- The document a sealed envelope is read back as. -/
def written (f : EnvelopeKey → Value F) (h : (Value.dict (envelope f)).wf = true) : Document F :=
  ⟨(Value.dict (envelope f)).sortKeys, by rw [Value.wf_sortKeys, h]⟩

omit [SqliteFloat F] in
theorem keyOf_written (f : EnvelopeKey → Value F) (h : (Value.dict (envelope f)).wf = true)
    (k : EnvelopeKey) : keyOf (written f h).value k = (f k).sortKeys := by
  rw [written, keyOf_sortKeys h, keyOf_envelope]

theorem Sealed.digest_written {f : EnvelopeKey → Value F} (hf : Sealed f)
    (h : (Value.dict (envelope f)).wf = true) :
    Steward.digest (members (written f h).value) = .ok (sealOf f) := (digest_sorted h).2 hf.digest_envelope

/-! ## Writing a file -/

/-- A sealed envelope is written unless its name is taken; then only the directory is made. -/
theorem writeEvidence_envelope {f : EnvelopeKey → Value F} (hf : Sealed f)
    (hwf : (Value.dict (envelope f)).wf = true) (c : Corpus F) {runId type name : Text} {n : Int}
    (hr : f .runId = .str runId) (hs : f .sequence = .int n) (ht : f .evidenceType = .str type)
    (hn : filename n type = .ok name) :
    writeEvidence c (envelope f) =
      if ((c.dir? runId).bind (·.find name)).isSome then
        (.error (.steward .evidenceConflictError), c.mkdir runId)
      else (.ok (evidencePath runId name), c.put runId name (.json (written f hwf))) := by
  have hget (k : EnvelopeKey) : Value.get (envelope f) (Named.name k) = f k := fieldOf_envelope f k
  have h1 : Value.get (envelope f) (txt "run_id") = .str runId := (hget .runId).trans hr
  have h2 : Value.get (envelope f) (txt "sequence") = .int n := (hget .sequence).trans hs
  have h3 : Value.get (envelope f) (txt "evidence_type") = .str type := (hget .evidenceType).trans ht
  have h4 : Value.get (envelope f) (txt "evidence_digest") = .str (sealOf f) :=
    (hget .evidenceDigest).trans hf.digest
  have hcheck : checkEvidence c (envelope f) =
      if ((c.dir? runId).bind (·.find name)).isSome then .error (.steward .evidenceConflictError)
      else .ok ⟨runId, name, canonicalText (.dict (envelope f))⟩ := by
    have heq : (Value.str (F := F) (sealOf f)).eq (.str (sealOf f)) = true := Value.eq_str.2 rfl
    rw [checkEvidence, h1, h2, h3, h4]
    simp only [strOf, intOf, py_ok, ok_bind_ok, hn, hf.digest_envelope, heq]
    by_cases htaken : ((c.dir? runId).bind (·.find name)).isSome = true
    · rw [if_pos htaken, if_pos htaken]; rfl
    · rw [if_neg htaken, if_neg htaken, canonicalJson, if_pos hf.safe_envelope]; rfl
  rw [writeEvidence, hcheck]
  split_ifs
  · rw [h1]
  · change (_, c.put runId name (Content.ofText (canonicalText (.dict (envelope f))))) = _
    rw [Content.ofText_canonical hf.safe_envelope hwf]
    rfl

end Steward
