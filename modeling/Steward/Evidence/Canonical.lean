import Steward.Py.JsonRoundTrip
import Steward.Exceptions

/-!
# Canonical JSON and digests

`canonical_json` and `digest` of `evidence.py`. Key order does not matter to
either: a digest of a value is the digest of the value its canonical text reads
back as.
-/

namespace Steward

open Py Sqlite

variable {F : Type} [SqliteFloat F]

/-- `ensure_ascii=False, separators=(",", ":")` -/
def canonicalStyle : Json.Style := ⟨false, false⟩

/-- `ensure_ascii=True, separators=(",", ":")` -/
def metadataStyle : Json.Style := ⟨true, false⟩

/-- The defaults of `json.dumps`. -/
def defaultStyle : Json.Style := ⟨true, true⟩

def canonicalText (v : Value F) : Text := Json.render canonicalStyle v.sortKeys

/-- Encode only strict JSON values in the one ledger representation. -/
def canonicalJson (v : Value F) : Result Text :=
  if v.safe then .ok (canonicalText v) else .error (.steward .evidenceError)

/-- `sha256(canonical_json(value)).hexdigest()` -/
def digestOf (v : Value F) : Result Text := do
  let t ← canonicalJson v
  pure (Runtime.sha256 F (Text.utf8 t))

def digest (fs : List (Text × Value F)) : Result Text :=
  digestOf (.dict (without [txt "evidence_digest"] fs))

/-- `json.loads(canonical_json(value).decode("utf-8"))` -/
def jsonCopy (v : Value F) : Result (Value F) := do
  match Json.loads (F := F) (← canonicalJson v) with
  | some w => pure w
  | none => .error (.python .jsonDecodeError)

/-- The digest of a safe value. -/
def sha (v : Value F) : Text := Runtime.sha256 F (Text.utf8 (canonicalText v))

theorem canonicalJson_eq_ok {v : Value F} {t : Text} :
    canonicalJson v = .ok t ↔ v.safe = true ∧ t = canonicalText v := by
  rw [canonicalJson]
  split_ifs with h <;> simp [h, eq_comm]

theorem ok_canonicalJson {v : Value F} : Ok (canonicalJson v) ↔ v.safe = true := by
  simp [canonicalJson, ok_ite]

theorem digestOf_eq_ok {v : Value F} {d : Text} : digestOf v = .ok d ↔ v.safe = true ∧ d = sha v := by
  simp only [digestOf, bind_eq_ok, canonicalJson_eq_ok]
  exact ⟨fun ⟨t, ⟨hs, ht⟩, h⟩ => ⟨hs, by cases h; rw [ht]; rfl⟩, fun ⟨hs, hd⟩ => ⟨_, ⟨hs, rfl⟩, by rw [hd]; rfl⟩⟩

theorem digestOf_cases (v : Value F) :
    (∃ d, digestOf v = .ok d) ∨ digestOf v = .error (.steward .evidenceError) := by
  by_cases hs : v.safe = true
  · exact .inl ⟨_, digestOf_eq_ok.2 ⟨hs, rfl⟩⟩
  · exact .inr (by rw [digestOf, canonicalJson, if_neg hs]; rfl)

theorem digestOf_error {v : Value F} {e : Exc} (h : digestOf v = .error e) :
    e = .steward .evidenceError := by
  rcases digestOf_cases v with ⟨d, hd⟩ | hd <;> rw [hd] at h <;> cases h
  rfl

theorem ok_digestOf {v : Value F} : Ok (digestOf v) ↔ v.safe = true := by
  simp [Ok, digestOf_eq_ok]

theorem ok_digest {fs : List (Text × Value F)} :
    Ok (digest fs) ↔ (Value.dict (without [txt "evidence_digest"] fs)).safe = true := ok_digestOf

/-- Reading the canonical text back only sorts the keys. -/
theorem loads_canonicalText {v : Value F} (hs : v.safe = true) (hw : v.wf = true) :
    Json.loads (canonicalText v) = some v.sortKeys :=
  Json.loads_render _ (by rw [Value.safe_sortKeys, hs]) (by rw [Value.wf_sortKeys, hw])

theorem jsonCopy_of_safe {v : Value F} (hs : v.safe = true) (hw : v.wf = true) :
    jsonCopy v = .ok v.sortKeys := by
  rw [jsonCopy, canonicalJson, if_pos hs, ok_bind_ok, loads_canonicalText hs hw]; rfl

theorem jsonCopy_eq_ok {v w : Value F} (hw : v.wf = true) :
    jsonCopy v = .ok w ↔ v.safe = true ∧ w = v.sortKeys := by
  by_cases hs : v.safe = true
  · rw [jsonCopy_of_safe hs hw]; simp [hs, eq_comm]
  · rw [jsonCopy, canonicalJson, if_neg hs]; simp [hs]

theorem canonicalText_sortKeys (v : Value F) : canonicalText v.sortKeys = canonicalText v := by
  rw [canonicalText, Value.sortKeys_sortKeys, canonicalText]

theorem sha_sortKeys (v : Value F) : sha v.sortKeys = sha v := by rw [sha, canonicalText_sortKeys, sha]

theorem sha_encodable (v : Value F) : (sha v).encodable = true := sha256_encodable _

theorem sha_length (v : Value F) : (sha v).length = 64 := Runtime.sha256_length _

/-! ## Canonical texts tell values apart -/

theorem sortKeys_eq_of_canonicalText {v w : Value F} (hv : v.safe = true) (hvw : v.wf = true)
    (hw : w.safe = true) (hww : w.wf = true) (h : canonicalText v = canonicalText w) :
    v.sortKeys = w.sortKeys := by
  have hloads := loads_canonicalText hw hww
  rw [← h, loads_canonicalText hv hvw] at hloads
  exact Option.some.inj hloads

omit [SqliteFloat F] in
/-- Objects that agree up to the order of keys hold the same members. -/
theorem lookup_of_sortKeys_eq {fs gs : List (Text × Value F)} (hfs : (keys fs).Nodup)
    (hgs : (keys gs).Nodup) (h : (Value.dict fs).sortKeys = (Value.dict gs).sortKeys) (k : Text) :
    (lookup fs k).map Value.sortKeys = (lookup gs k).map Value.sortKeys := by
  rw [Value.sortKeys_dict, Value.sortKeys_dict, Value.dict.injEq] at h
  rw [← Value.lookup_sortKeys hfs, ← Value.lookup_sortKeys hgs, h]

/-- SHA-256 has no collision among these texts. -/
def Collisionless (F : Type) [SqliteFloat F] (ts : List Text) : Prop :=
  ∀ s ∈ ts, ∀ t ∈ ts, Runtime.sha256 F (Text.utf8 s) = Runtime.sha256 F (Text.utf8 t) → s = t

end Steward
