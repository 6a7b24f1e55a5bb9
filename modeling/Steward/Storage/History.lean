import Mathlib.Data.List.Induction
import Steward.Storage.Ledger

/-!
# Histories

A `History` is a ledger built record by record: each is well formed, follows the
one before, has its own identity and moves the status along the state machine.
The verifier finds no error in a ledger exactly when it is one.
-/

namespace Steward

open Py Sqlite

variable {F : Type} [SqliteFloat F]

/-- What the `n`-th record does to the status of its Run. -/
inductive Moves (n : Nat) (item : Value F) (a : RunStatus) : RunStatus → Prop where
  | created (hn : n = 1) (type : keyOf item EnvelopeKey.evidenceType = lit "run.created")
      (initial : (keyOf item EnvelopeKey.payload).getIf (txt "initial_status") = lit "created") : Moves n item a a
  | transition {b : RunStatus} (hn : n ≠ 1)
      (type : keyOf item EnvelopeKey.evidenceType = lit "run.state_transition")
      (source : (keyOf item EnvelopeKey.payload).getIf (txt "from_status") = nameValue a)
      (target : (keyOf item EnvelopeKey.payload).getIf (txt "to_status") = nameValue b)
      (allowed : b ∈ allowedTargets a) : Moves n item a b
  | other (hn : n ≠ 1) (type : keyOf item EnvelopeKey.evidenceType ≠ lit "run.state_transition") : Moves n item a a

omit [SqliteFloat F] in
/-- The first record creates the Run. -/
theorem Moves.created_of_first {n : Nat} {item : Value F} {a b : RunStatus} (h : Moves n item a b)
    (hn : n = 1) : keyOf item EnvelopeKey.evidenceType = lit "run.created" := by
  cases h with
  | created _ ht => exact ht
  | transition h => exact absurd hn h
  | other h => exact absurd hn h

/-- The record continues a ledger in state `st`, and leaves it in state `st'`. -/
structure Appends (runId : Text) (st : LedgerScan F) (n : Nat) (name : Text) (item : Value F)
    (st' : LedgerScan F) : Prop where
  shape : RecordShape runId n name item
  previous : (keyOf item EnvelopeKey.previousEvidenceDigest).eq st.previous = true
  digest : ∃ d, recordDigest item = .ok d ∧ keyOf item EnvelopeKey.evidenceDigest = .str d
  freshId : (keyOf item EnvelopeKey.evidenceId).pyStr ∉ st.seenIds
  freshDigest : (keyOf item EnvelopeKey.evidenceDigest).pyStr ∉ st.seenDigests
  moves : Moves n item st.status st'.status
  state : st' = ⟨[], st'.status, keyOf item EnvelopeKey.evidenceDigest,
    (keyOf item EnvelopeKey.evidenceId).pyStr :: st.seenIds,
    (keyOf item EnvelopeKey.evidenceDigest).pyStr :: st.seenDigests⟩

/-- The ledgers of the state machine. -/
inductive History (runId : Text) : List (Text × Document F) → LedgerScan F → Prop where
  | start : History runId [] .start
  | append {files : List (Text × Document F)} {st st' : LedgerScan F} {f : Text × Document F}
      (h : History runId files st) (last : Appends runId st (files.length + 1) f.1 f.2.value st') :
      History runId (files ++ [f]) st'

/-! ## One turn without error -/

theorem chained_eq_true {previous item : Value F} : chained previous item = .ok true ↔
    (keyOf item EnvelopeKey.previousEvidenceDigest).eq previous = true ∧
      ∃ d, recordDigest item = .ok d ∧ keyOf item EnvelopeKey.evidenceDigest = .str d := by
  rw [chained, andThen, ok_bind_ok]
  cases (keyOf item EnvelopeKey.previousEvidenceDigest).eq previous with
  | false => simp
  | true =>
    simp only [if_true, bind_eq_ok, pure_eq_ok, Value.eq_str, true_and]

omit [SqliteFloat F] in
theorem repeated_eq_false {st : LedgerScan F} {item : Value F} {u d : Text}
    (hu : keyOf item EnvelopeKey.evidenceId = .str u) (hd : keyOf item EnvelopeKey.evidenceDigest = .str d) :
    repeated st item = .ok false ↔ u ∉ st.seenIds ∧ d ∉ st.seenDigests := by
  have hmem (t : Text) (ks : List Text) : (Value.str t : Value F).memStrs ks = .ok (decide (t ∈ ks)) := rfl
  rw [repeated, hu, hd, hmem, hmem, ok_bind_ok]
  by_cases h : u ∈ st.seenIds <;> simp [h]

theorem eq_lit {v : Value F} {s : String} : v.eq (lit s) = true ↔ v = lit s := Value.eq_str

section

omit [SqliteFloat F]

theorem messageUnless_eq_nil {b : Bool} {m : Text} : messageUnless b m = [] ↔ b = true := by
  cases b <;> simp [messageUnless]

theorem allowsValue_eq_true {a : RunStatus} {v : Value F} :
    allowsValue a v = true ↔ ∃ b, v = nameValue b ∧ b ∈ allowedTargets a := by
  unfold allowsValue
  cases h : enumOf RunStatus v with
  | ok b =>
    simp only [decide_eq_true_eq]
    refine ⟨fun hb => ⟨b, enumOf_eq_ok.1 h, hb⟩, ?_⟩
    rintro ⟨b', hv, hb'⟩
    rw [enumOf_eq_ok.2 hv] at h
    cases h
    exact hb'
  | error e =>
    refine iff_of_false Bool.false_ne_true ?_
    rintro ⟨b, hv, -⟩
    rw [enumOf_eq_ok.2 hv] at h
    cases h

theorem nextStatus_nameValue (a b : RunStatus) : nextStatus (F := F) a (nameValue b) = .ok b := by
  have hmem : (nameValue b : Value F).memStrs (memberNames RunStatus) = .ok true :=
    memStrs_eq_true.2 ⟨_, mem_memberNames.2 ⟨b, Named.ofName?_name b⟩, rfl⟩
  rw [nextStatus, hmem, ok_bind_ok, if_pos rfl]
  exact enumOf_eq_ok.2 rfl

end

/-- The status part of a turn has no error exactly on the moves. -/
theorem statusStep_eq_ok {n : Nat} {name : Text} {item : Value F} {a b : RunStatus} :
    statusStep n name item a = .ok ([], b) ↔ Moves n item a b := by
  unfold statusStep
  by_cases hn : n = 1
  · rw [if_pos hn, Except.ok.injEq, Prod.mk.injEq, messageUnless_eq_nil, Bool.and_eq_true, eq_lit,
      eq_lit]
    constructor
    · rintro ⟨⟨h1, h2⟩, rfl⟩
      exact .created hn h1 h2
    · rintro (⟨-, h1, h2⟩ | ⟨hn', -⟩ | ⟨hn', -⟩)
      · exact ⟨⟨h1, h2⟩, rfl⟩
      · exact absurd hn hn'
      · exact absurd hn hn'
  · rw [if_neg hn]
    by_cases ht : keyOf item EnvelopeKey.evidenceType = lit "run.state_transition"
    · rw [if_pos (eq_lit.2 ht)]
      simp only [bind_eq_ok, pure_eq_ok, Prod.mk.injEq, List.append_eq_nil_iff, messageUnless_eq_nil,
        allowsValue_eq_true]
      constructor
      · rintro ⟨b', hb', ⟨hs, c, hc, hallowed⟩, rfl⟩
        rw [hc, nextStatus_nameValue] at hb'
        cases hb'
        exact .transition hn ht (Value.eq_str.1 hs) hc hallowed
      · rintro (⟨hn', -⟩ | ⟨-, -, hs, hc, hallowed⟩ | ⟨-, ht'⟩)
        · exact absurd hn' hn
        · exact ⟨b, by rw [hc, nextStatus_nameValue], ⟨Value.eq_str.2 hs, b, hc, hallowed⟩, rfl⟩
        · exact absurd ht ht'
    · rw [if_neg (mt eq_lit.1 ht)]
      constructor
      · intro h
        cases h
        exact .other hn ht
      · rintro (⟨hn', -⟩ | ⟨-, ht', -⟩ | -)
        · exact absurd hn' hn
        · exact absurd ht' ht
        · rfl

/-- A turn ends without errors exactly when there were none and the record continues the ledger. -/
theorem verifyRecord_accepted {runId name : Text} {n : Nat} {item : Value F} {st st' : LedgerScan F} :
    verifyRecord runId st n name item = .ok st' ∧ st'.errors = [] ↔
      st.errors = [] ∧ Appends runId st n name item st' := by
  constructor
  · rintro ⟨h, he⟩
    rw [verifyRecord, bind_eq_ok] at h
    obtain ⟨m, hm, h⟩ := h
    cases m with
    | some m =>
      cases h
      simp at he
    | none =>
      have hs := recordChecks_passed.1 hm
      simp only [bind_eq_ok, py_eq_ok] at h
      obtain ⟨c, hc, r, hr, ⟨es, b⟩, hstep, h⟩ := h
      cases h
      simp only [List.append_eq_nil_iff, messageUnless_eq_nil, Bool.not_eq_true'] at he
      obtain ⟨⟨⟨he, rfl⟩, rfl⟩, rfl⟩ := he
      obtain ⟨hprev, d, hd, hdv⟩ := chained_eq_true.1 hc
      obtain ⟨u, hu, -⟩ := hs.evidenceId
      obtain ⟨hid, hdig⟩ := (repeated_eq_false hu hdv).1 hr
      exact ⟨he, hs, hprev, ⟨d, hd, hdv⟩, by rw [hu]; exact hid, by rw [hdv]; exact hdig,
        statusStep_eq_ok.1 hstep, by rw [he]; rfl⟩
  · rintro ⟨he, h⟩
    obtain ⟨d, hd, hdv⟩ := h.digest
    obtain ⟨u, hu, -⟩ := h.shape.evidenceId
    have hid := h.freshId
    have hdig := h.freshDigest
    rw [hu] at hid
    rw [hdv] at hdig
    rw [h.state]
    refine ⟨?_, rfl⟩
    rw [verifyRecord, recordChecks_passed.2 h.shape]
    simp only [ok_bind_ok, chained_eq_true.2 ⟨h.previous, d, hd, hdv⟩,
      (repeated_eq_false hu hdv).2 ⟨hid, hdig⟩, statusStep_eq_ok.2 h.moves, py_ok]
    rw [he]
    rfl

/-! ## The whole pass -/

theorem verifyFiles_append {runId : Text} {files : List (Text × Document F)} {f : Text × Document F} :
    verifyFiles runId (files ++ [f]) =
      (verifyFiles runId files >>= fun st => verifyRecord runId st (files.length + 1) f.1 f.2.value) := by
  rw [verifyFiles, List.zipIdx_append, List.foldlM_append, Nat.add_comm]
  refine bind_congr fun st => ?_
  rw [List.zipIdx_singleton, List.foldlM_cons]
  simp

/-- The pass ends without errors exactly on the histories. -/
theorem verifyFiles_accepted {runId : Text} {files : List (Text × Document F)} {st : LedgerScan F} :
    verifyFiles runId files = .ok st ∧ st.errors = [] ↔ History runId files st := by
  constructor
  · induction files using List.reverseRecOn generalizing st with
    | nil =>
      rintro ⟨h, -⟩
      cases h
      exact .start
    | append_singleton files f ih =>
      rintro ⟨h, he⟩
      rw [verifyFiles_append, bind_eq_ok] at h
      obtain ⟨st₀, h₀, h⟩ := h
      obtain ⟨he₀, hlast⟩ := verifyRecord_accepted.1 ⟨h, he⟩
      exact .append (ih ⟨h₀, he₀⟩) hlast
  · intro h
    induction h with
    | start => exact ⟨rfl, rfl⟩
    | append h hlast ih =>
      rw [verifyFiles_append, ih.1]
      exact verifyRecord_accepted.2 ⟨ih.2, hlast⟩

/-! ## What a history holds -/

/-- Every file of a history continues a shorter one. -/
theorem History.record {runId : Text} {files : List (Text × Document F)} {st : LedgerScan F}
    (h : History runId files st) {f : Text × Document F} (hf : f ∈ files) :
    ∃ earlier st₀ st₁, earlier.length < files.length ∧ History runId earlier st₀ ∧
      Appends runId st₀ (earlier.length + 1) f.1 f.2.value st₁ := by
  induction h with
  | start => cases hf
  | append h last ih =>
    rw [List.length_append]
    rcases List.mem_append.1 hf with hf | hf
    · obtain ⟨earlier, st₀, st₁, hlt, hrec⟩ := ih hf
      exact ⟨earlier, st₀, st₁, by omega, hrec⟩
    · rw [List.mem_singleton.1 hf]
      exact ⟨_, _, _, Nat.lt_succ_self _, h, last⟩

/-- Every file of a history is a well-formed record of the Run. -/
theorem History.shape {runId : Text} {files : List (Text × Document F)} {st : LedgerScan F}
    (h : History runId files st) {f : Text × Document F} (hf : f ∈ files) :
    ∃ n ≤ files.length, RecordShape runId n f.1 f.2.value := by
  obtain ⟨earlier, _, _, hlt, -, hrec⟩ := h.record hf
  exact ⟨_, hlt, hrec.shape⟩

/-- Every field of a record that carries its digest is strict JSON. -/
theorem Appends.safe {runId name : Text} {n : Nat} {item : Value F} {st st' : LedgerScan F}
    (h : Appends runId st n name item st') (k : EnvelopeKey) : (keyOf item k).safe = true := by
  obtain ⟨d, hd, hdv⟩ := h.digest
  obtain ⟨hs, rfl⟩ := digestOf_eq_ok.1 hd
  by_cases hk : k = .evidenceDigest
  · rw [hk, hdv]
    exact sha_encodable _
  · have hne : Named.name k ∉ ([txt "evidence_digest"] : List Text) := by
      rw [List.mem_singleton]
      exact fun he => hk (Named.name_inj he)
    have hget := Value.safe_get hs (Named.name k)
    rw [Value.get, lookup_without hne] at hget
    rwa [keyOf_eq_fieldOf]

/-- The state keeps the identities and the last digest. -/
structure Remembers (files : List (Text × Document F)) (st : LedgerScan F) : Prop where
  errors : st.errors = []
  ids : ∀ f ∈ files, (keyOf f.2.value EnvelopeKey.evidenceId).pyStr ∈ st.seenIds
  digests : ∀ f ∈ files, (keyOf f.2.value EnvelopeKey.evidenceDigest).pyStr ∈ st.seenDigests
  previous : st.previous = (files.getLast?.map fun f => keyOf f.2.value EnvelopeKey.evidenceDigest).getD .none

theorem History.remembers {runId : Text} {files : List (Text × Document F)} {st : LedgerScan F}
    (h : History runId files st) : Remembers files st := by
  induction h with
  | start => exact ⟨rfl, List.forall_mem_nil _, List.forall_mem_nil _, rfl⟩
  | append h last ih =>
    rw [last.state]
    refine ⟨rfl, fun f hf => ?_, fun f hf => ?_, by simp⟩
    · rcases List.mem_append.1 hf with hf | hf
      · exact List.mem_cons_of_mem _ (ih.ids f hf)
      · rw [List.mem_singleton.1 hf]
        exact List.mem_cons_self
    · rcases List.mem_append.1 hf with hf | hf
      · exact List.mem_cons_of_mem _ (ih.digests f hf)
      · rw [List.mem_singleton.1 hf]
        exact List.mem_cons_self

/-- A record and a later one. -/
structure Apart (runId : Text) (f g : Text × Document F) : Prop where
  number : ∃ m n, m < n ∧ RecordShape runId m f.1 f.2.value ∧ RecordShape runId n g.1 g.2.value
  evidenceId : keyOf f.2.value EnvelopeKey.evidenceId ≠ keyOf g.2.value EnvelopeKey.evidenceId
  evidenceDigest : keyOf f.2.value EnvelopeKey.evidenceDigest ≠ keyOf g.2.value EnvelopeKey.evidenceDigest

/-- No two records of a history share their number, identity or digest. -/
theorem History.pairwise {runId : Text} {files : List (Text × Document F)} {st : LedgerScan F}
    (h : History runId files st) : files.Pairwise (Apart runId) := by
  induction h with
  | start => exact .nil
  | append h last ih =>
    refine List.pairwise_append.2 ⟨ih, List.pairwise_singleton _ _, fun f hf g hg => ?_⟩
    rw [List.mem_singleton.1 hg]
    obtain ⟨m, hm, hshape⟩ := h.shape hf
    refine ⟨⟨m, _, Nat.lt_succ_of_le hm, hshape, last.shape⟩, fun he => ?_, fun he => ?_⟩
    · exact last.freshId (he ▸ h.remembers.ids f hf)
    · exact last.freshDigest (he ▸ h.remembers.digests f hf)

/-- A history begins with a creation. -/
theorem History.created {runId : Text} {files : List (Text × Document F)} {st : LedgerScan F}
    (h : History runId files st) {f : Text × Document F} (hf : files.head? = some f) :
    keyOf f.2.value EnvelopeKey.evidenceType = lit "run.created" := by
  induction h with
  | start => cases hf
  | @append files _ _ g h last ih =>
    cases files with
    | cons f' fs => exact ih (by simpa using hf)
    | nil =>
      cases hf
      exact last.moves.created_of_first rfl

/-! ## Run directories -/

/-- The ledger of a directory is read whole and is a history. -/
structure Intact (runId : Text) (dir : RunDir F) (st : LedgerScan F) : Prop where
  clean : CleanListing dir.listing
  nonempty : documentsIn dir.listing ≠ []
  history : History runId (documentsIn dir.listing) st

/-- Verification returns unless a file cannot be read or a record raises. -/
theorem ok_verifyRun {c : Corpus F} {runId : Text} : Ok (verifyRun c runId) ↔
    ∀ dir, c.dir? runId = some dir → ReadableListing dir.listing ∧
      (CleanListing dir.listing → LedgerTotal runId (documentsIn dir.listing)) := by
  have hscan (loaded : RunFiles F) : Ok (scanLedger runId loaded) ↔
      (loaded.errors = [] → LedgerTotal runId loaded.files) := by
    rw [scanLedger, ok_ite, ok_bind_of_total fun _ => ok_pure _, ok_verifyFiles]
    exact and_iff_left fun _ => ok_pure _
  rw [verifyRun, loadRunFiles]
  cases hdir : c.dir? runId with
  | none =>
    simp only [ok_bind_ok, reduceCtorEq, false_imp_iff, implies_true, iff_true]
    rw [ok_bind_of_total fun _ => ok_pure _, hscan]
    exact fun h => by cases h
  | some dir =>
    simp only [Option.some.injEq, forall_eq']
    rw [← ok_loadListing, ok_bind]
    constructor
    · rintro ⟨loaded, hl, h⟩
      rw [ok_bind_of_total fun _ => ok_pure _, hscan] at h
      refine ⟨⟨loaded, hl⟩, fun hclean => ?_⟩
      obtain ⟨hok, -⟩ := loadListing_eq_ok.2 ⟨hclean, rfl⟩
      rw [hok] at hl
      cases hl
      exact h rfl
    · rintro ⟨⟨loaded, hl⟩, h⟩
      refine ⟨loaded, hl, ?_⟩
      rw [ok_bind_of_total fun _ => ok_pure _, hscan]
      intro he
      obtain ⟨hclean, rfl⟩ := loadListing_eq_ok.1 ⟨hl, he⟩
      exact h hclean

/-- The verifier accepts exactly the intact ledgers. -/
theorem verifyRun_valid {c : Corpus F} {runId : Text} {v : EvidenceVerification}
    (h : verifyRun c runId = .ok v) :
    v.ledgerValid = true ↔ ∃ dir st, c.dir? runId = some dir ∧ Intact runId dir st := by
  rw [verifyRun, bind_eq_ok] at h
  obtain ⟨loaded, hl, h⟩ := h
  rw [bind_eq_ok] at h
  obtain ⟨⟨errors, st⟩, hscan, h⟩ := h
  cases h
  simp only [EvidenceVerification.of, ledgerAccepted, Bool.and_eq_true, decide_eq_true_eq]
  rw [scanLedger] at hscan
  rw [loadRunFiles] at hl
  constructor
  · rintro ⟨hne, rfl⟩
    split_ifs at hscan with he
    · obtain ⟨st', hst', hscan⟩ := bind_eq_ok.1 hscan
      obtain ⟨herr, rfl⟩ := Prod.mk.inj (pure_eq_ok.1 hscan)
      cases hdir : c.dir? runId with
      | none => rw [hdir] at hl; cases hl; cases he
      | some dir =>
        rw [hdir] at hl
        obtain ⟨hclean, rfl⟩ := loadListing_eq_ok.1 ⟨hl, he⟩
        exact ⟨dir, st', rfl, hclean, hne, verifyFiles_accepted.1 ⟨hst', herr⟩⟩
    · exact absurd (Prod.mk.inj (pure_eq_ok.1 hscan)).1 he
  · rintro ⟨dir, st', hdir, hclean, hne, hhist⟩
    rw [hdir] at hl
    have hload := (loadListing_eq_ok.2 ⟨hclean, rfl⟩).1
    obtain rfl := Except.ok.inj (hload.symm.trans hl)
    obtain ⟨hst', he⟩ := verifyFiles_accepted.2 hhist
    rw [if_pos rfl, hst', ok_bind_ok, pure_eq_ok, Prod.mk.injEq] at hscan
    exact ⟨hne, hscan.1.symm.trans he⟩

end Steward
