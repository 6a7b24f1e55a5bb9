import Steward.Replay.Classify

/-!
# Agreement of the classification plan

What the classifier concludes and what the validator re-derives from the plan
are the same, and a complete plan accounts for every Snapshot document of the
corpus exactly once. Only an empty snapshot id may occur twice.
-/

namespace Steward

open Py Sqlite

variable {F : Type} [SqliteFloat F]

/-! ## The documents of a corpus -/

/-- A file of a Run directory: the Run, the name and the document. -/
abbrev RunDocument (F : Type) := Text × Text × Document F

/-- The documents of all Run directories. -/
def corpusDocuments (c : Corpus F) : List (RunDocument F) :=
  c.dirs.flatMap fun r => (documentsIn r.2.listing).map fun f => (r.1, f)

/-- The Snapshot Evidence among them. -/
def snapshotDocuments (c : Corpus F) : List (RunDocument F) :=
  (corpusDocuments c).filter fun d =>
    (keyOf d.2.2.value EnvelopeKey.evidenceType).eq (lit "filesystem.snapshot")

section

omit [SqliteFloat F]

/-- Each Run directory is found under its name. -/
theorem dir?_of_mem_dirs {c : Corpus F} {r : Text × RunDir F} (h : r ∈ c.dirs) : c.dir? r.1 = some r.2 := by
  cases hc : c.runs with
  | none => simp [Corpus.dirs, hc] at h
  | some d =>
    simp only [Corpus.dirs, hc, Option.map_some, Option.getD_some] at h
    rw [Corpus.dir?, hc, Option.bind_some]
    exact Directory.find_eq_some.2 h

theorem dirs_nodup (c : Corpus F) : (keys c.dirs).Nodup := by
  cases hc : c.runs with
  | none => simp [Corpus.dirs, hc, keys]
  | some d => simpa [Corpus.dirs, hc] using d.names_nodup

theorem documentsIn_names (listing : List (Text × Node F)) :
    ((documentsIn listing).map Prod.fst).Sublist (listing.map Prod.fst) := by
  induction listing with
  | nil => exact .slnil
  | cons f fs ih =>
    rw [documentsIn, List.filterMap_cons]
    split
    · exact ih.cons _
    · rename_i b hb
      have hfst : b.1 = f.1 := by
        split at hb
        · split_ifs at hb
          cases hb
          rfl
        · cases hb
      rw [List.map_cons, List.map_cons, hfst]
      exact ih.cons_cons _

/-- No document is listed twice. -/
theorem corpusDocuments_nodup (c : Corpus F) :
    ((corpusDocuments c).map fun d => (d.1, d.2.1)).Nodup := by
  have hdir (r : Text × RunDir F) : ((documentsIn r.2.listing).map Prod.fst).Nodup :=
    r.2.names_nodup.sublist (documentsIn_names _)
  have hmap : (corpusDocuments c).map (fun d => (d.1, d.2.1)) =
      c.dirs.flatMap fun r => ((documentsIn r.2.listing).map Prod.fst).map fun n => (r.1, n) := by
    simp [corpusDocuments, List.map_flatMap, Function.comp_def]
  rw [hmap, List.nodup_flatMap]
  refine ⟨fun r _ => (hdir r).map fun a b h => congrArg Prod.snd h, ?_⟩
  have hnd := dirs_nodup c
  rw [keys, List.Nodup, List.pairwise_map] at hnd
  refine hnd.imp fun hne => ?_
  refine List.disjoint_left.2 ?_
  intro p hp hq
  obtain ⟨m, -, rfl⟩ := List.mem_map.1 hp
  obtain ⟨n, -, he⟩ := List.mem_map.1 hq
  exact hne (congrArg Prod.fst he).symm

end

/-! ## What a valid account says -/

theorem runIntegrity_eq_valid {valid : Bool} {codes : List Text} :
    runIntegrity valid codes = .valid ↔ valid = true := by
  unfold runIntegrity
  split_ifs <;> simp_all

/-- A valid account is the account of an intact ledger. -/
theorem accountRun_valid {c : Corpus F} {runId : Text} {a : RunAccount F} (h : accountRun c runId = .ok a) :
    a.item.runId = runId ∧ a.item.evidenceCount = a.files.length ∧
      (a.item.evidenceIntegrity = .valid → ∃ dir st, c.dir? runId = some dir ∧
        a.files = documentsIn dir.listing ∧ Intact runId dir st) := by
  rw [accountRun] at h
  obtain ⟨loaded, hl, h⟩ := bind_eq_ok.1 h
  obtain ⟨v, hv, h⟩ := bind_eq_ok.1 h
  obtain ⟨conclusion, -, h⟩ := bind_eq_ok.1 h
  obtain ⟨last, -, h⟩ := bind_eq_ok.1 h
  obtain ⟨ids, -, h⟩ := bind_eq_ok.1 h
  obtain ⟨digests, -, h⟩ := bind_eq_ok.1 h
  cases h
  refine ⟨rfl, rfl, fun hvalid => ?_⟩
  have hledger := runIntegrity_eq_valid.1 hvalid
  rw [Bool.and_eq_true, decide_eq_true_eq] at hledger
  obtain ⟨dir, st, hdir, hintact⟩ := (verifyRun_valid hv).1 hledger.1
  rw [loadRunFiles, hdir] at hl
  exact ⟨dir, st, hdir, by rw [(loadListing_eq_ok.1 ⟨hl, hledger.2⟩).2], hintact⟩

/-! ## Snapshot documents -/

/-- The identities a validation reports. -/
theorem validated_identities {evidence : Value F} {r : Validation}
    (h : validateSnapshotEvidence evidence = .ok r) :
    r.evidenceId = str? (keyOf evidence EnvelopeKey.evidenceId) ∧
      (r.valid = true → r.snapshotId = snapshotIdOf (members evidence)) := by
  have hv1 {r : Validation} (h : validateSnapshotEvidenceV1 (members evidence) = .ok r) :
      r.evidenceId = str? (fieldOf (members evidence) EnvelopeKey.evidenceId) ∧
        r.snapshotId = snapshotIdOf (members evidence) := by
    rw [validateSnapshotEvidenceV1] at h
    simp only [bind_eq_ok] at h
    obtain ⟨_, -, _, -, _, -, _, -, _, -, h⟩ := h
    cases h
    exact ⟨rfl, rfl⟩
  have hv2 {r : Validation} (h : validateSnapshotEvidenceV2 (members evidence) = .ok r) :
      r.evidenceId = str? (fieldOf (members evidence) EnvelopeKey.evidenceId) ∧
        r.snapshotId = snapshotIdOf (members evidence) := by
    rw [validateSnapshotEvidenceV2] at h
    simp only [bind_eq_ok] at h
    obtain ⟨_, -, _, -, _, -, _, -, _, -, _, -, _, -, _, -, _, -, _, -, h⟩ := h
    cases h
    exact ⟨rfl, rfl⟩
  rw [validateSnapshotEvidence] at h
  rw [keyOf_eq_fieldOf]
  split at h
  · cases h
    exact ⟨by rw [← keyOf_eq_fieldOf]; rfl, fun hv => by cases hv⟩
  · split_ifs at h
    · exact ⟨(hv1 h).1, fun _ => (hv1 h).2⟩
    · exact ⟨(hv2 h).1, fun _ => (hv2 h).2⟩
    · cases h
      exact ⟨by rw [← keyOf_eq_fieldOf]; rfl, fun hv => by cases hv⟩

/-- The identities of a raw Snapshot, and that an intact one has no codes. -/
structure RawOf (runId name : Text) (document : Value F) (raw : RawSnapshot F) : Prop where
  relative : raw.relative = evidencePath runId name
  runId : raw.runId = (str? (keyOf document EnvelopeKey.runId)).getD runId
  evidenceId : raw.evidenceId = str? (keyOf document EnvelopeKey.evidenceId)
  snapshotId : raw.intrinsicValid = true → raw.snapshotId = snapshotIdOf (members document)
  evidenceDigest : raw.evidenceDigest = str? (keyOf document EnvelopeKey.evidenceDigest)
  entries : raw.entries = elements ((keyOf document EnvelopeKey.payload).getIf (txt "entries"))
  codes : raw.intrinsicValid = true → raw.codes = []

theorem rawSnapshot_of_ok {c : Corpus F} {verify : Value F → Result VerificationStatus} {runId name : Text}
    {document : Value F} {raw : RawSnapshot F} (h : rawSnapshot c verify runId name document = .ok raw) :
    RawOf runId name document raw := by
  rw [rawSnapshot] at h
  obtain ⟨intrinsic, hi, h⟩ := bind_eq_ok.1 h
  obtain ⟨reuse, -, h⟩ := bind_eq_ok.1 h
  cases h
  obtain ⟨heid, hsid⟩ := validated_identities hi
  exact {
    relative := rfl
    runId := rfl
    evidenceId := heid
    snapshotId := fun hv => hsid (Bool.and_eq_true_iff.1 hv).1
    evidenceDigest := rfl
    entries := rfl
    codes := fun hv => of_decide_eq_true (Bool.and_eq_true_iff.1 hv).2 }

theorem rawSnapshots_of_ok {c : Corpus F} {verify : Value F → Result VerificationStatus} {runId : Text}
    {files : List (Text × Document F)} {raws : List (RawSnapshot F)}
    (h : rawSnapshots c verify runId files = .ok raws) :
    List.Forall₂ (fun f raw => RawOf runId f.1 f.2.value raw)
      (files.filter fun f => (keyOf f.2.value EnvelopeKey.evidenceType).eq (lit "filesystem.snapshot")) raws := by
  induction files generalizing raws with
  | nil => cases h; exact .nil
  | cons f fs ih =>
    obtain ⟨name, d⟩ := f
    rw [rawSnapshots] at h
    obtain ⟨b, hb, h⟩ := bind_eq_ok.1 h
    have hkind : b = (keyOf d.value EnvelopeKey.evidenceType).eq (lit "filesystem.snapshot") := by
      obtain ⟨v, hv, hb⟩ := bind_eq_ok.1 hb
      cases hb
      have hd : v = keyOf d.value EnvelopeKey.evidenceType := by
        cases hval : d.value with
        | dict fs => rw [hval] at hv; cases hv; rfl
        | _ => rw [hval] at hv; cases hv
      rw [hd]
    rw [List.filter_cons, ← hkind]
    cases b with
    | true =>
      obtain ⟨raw, hraw, h⟩ := bind_eq_ok.1 h
      obtain ⟨rest, hrest, h⟩ := bind_eq_ok.1 h
      cases h
      exact .cons (rawSnapshot_of_ok hraw) (ih hrest)
    | false => exact ih h

/-! ## Judgements -/

/-- An item is included as it is, or excluded for its lifecycle alone. -/
def JudgedClean (s : ClassifiedSnapshotReplayItem) : Prop :=
  s.replayEligibility = some .eligible ∧ s.semanticConsistency = .consistent ∧ s.reasonCodes = [] ∨
    s.replayEligibility = some .ineligible ∧ s.semanticConsistency = .inconsistent ∧
      s.reasonCodes = [governedReason]

theorem sortedSet_singleton (t : Text) : sortedSet [t] = [t] := by simp [sortedSet]

/-- A classified judgement of a document without codes. -/
theorem judge_clean {raw : RawSnapshot F} {run : Option (RunAccount F)} {j : Judgement}
    (h : judge raw run = .ok j) (hcodes : raw.codes = []) (hj : j.eligibility ≠ none) :
    j.eligibility = some .eligible ∧ j.semantic = .consistent ∧ j.codes = [] ∨
      j.eligibility = some .ineligible ∧ j.semantic = .inconsistent ∧ j.codes = [governedReason] := by
  cases run with
  | none => cases h; exact absurd rfl hj
  | some run =>
    rw [judge] at h
    split_ifs at h
    · cases h; exact absurd rfl hj
    · cases h; exact absurd rfl hj
    · cases h; exact absurd rfl hj
    · unfold judgeCompatibility at h
      simp only [bind_eq_ok] at h
      obtain ⟨expected, -, observed, -, h⟩ := h
      split_ifs at h
      · cases h; exact absurd rfl hj
      · cases h; exact .inl ⟨rfl, rfl, hcodes⟩
      · obtain ⟨legacy, -, h⟩ := bind_eq_ok.1 h
        cases h
        cases legacy with
        | false => exact absurd rfl hj
        | true => exact .inr ⟨rfl, rfl, by rw [hcodes]; rfl⟩

section

omit [SqliteFloat F]

/-- A valid item comes from an intact document that shares no identity. -/
theorem intact_of_valid {raw : RawSnapshot F} {run : Option (RunAccount F)} {codes : List Text}
    (h : snapshotIntegrity raw run codes = .valid) : raw.intrinsicValid = true := by
  unfold snapshotIntegrity at h
  split_ifs at h with hv
  exact (Bool.and_eq_true_iff.1 hv).1

theorem marked_intact {raws : List (RawSnapshot F)} {raw : RawSnapshot F}
    (h : (raw.marked raws).intrinsicValid = true) : raw.intrinsicValid = true ∧
      ((raw.intrinsicValid = true → raw.codes = []) → (raw.marked raws).codes = []) ∧
      ∀ k ∈ identityKeys, sharesIdentity raws k.1 raw = false := by
  rw [RawSnapshot.marked, Bool.and_eq_true, decide_eq_true_eq] at h
  obtain ⟨hv, hshared⟩ := h
  refine ⟨hv, fun hc => ?_, fun k hk => ?_⟩
  · rw [RawSnapshot.marked, hshared, List.append_nil]
    exact hc hv
  · rw [List.map_eq_nil_iff, List.filter_eq_nil_iff] at hshared
    simpa using hshared k hk

/-- Identities that occur once are pairwise different. -/
theorem pairwise_of_unshared {raws : List (RawSnapshot F)} {key : RawSnapshot F → Option Text}
    (h : ∀ raw ∈ raws, sharesIdentity raws key raw = false) :
    raws.Pairwise fun a b => ∀ v ≠ [], key a = some v → key b ≠ some v := by
  have hcount : ∀ v ≠ [], (∃ raw ∈ raws, key raw = some v) → raws.countP (key · = some v) ≤ 1 := by
    rintro v hv ⟨raw, hraw, hkey⟩
    have hs := h raw hraw
    simpa [sharesIdentity, hkey, hv] using hs
  clear h
  induction raws with
  | nil => exact .nil
  | cons a raws ih =>
    refine List.pairwise_cons.2 ⟨fun b hb v hv ha hbv => ?_, ih fun v hv hmem => ?_⟩
    · have hone := hcount v hv ⟨a, List.mem_cons_self, ha⟩
      have hpos : 0 < raws.countP (key · = some v) :=
        List.countP_pos_iff.2 ⟨b, hb, decide_eq_true hbv⟩
      rw [List.countP_cons, if_pos (decide_eq_true ha)] at hone
      omega
    · obtain ⟨raw, hraw, hkey⟩ := hmem
      have hone := hcount v hv ⟨raw, List.mem_cons_of_mem _ hraw, hkey⟩
      rw [List.countP_cons] at hone
      omega

end

/-! ## Agreement -/

/-- The item accounts for the document. -/
structure AccountsFor (s : ClassifiedSnapshotReplayItem) (d : RunDocument F) : Prop where
  path : s.evidenceRelativePath = some (evidencePath d.1 d.2.1)
  run : s.persistentRunId = some d.1
  evidenceId : ∃ u ≠ [], keyOf d.2.2.value EnvelopeKey.evidenceId = .str u ∧ s.evidenceId = some u
  snapshotId : s.snapshotId = snapshotIdOf (members d.2.2.value)

/-- Two items share no Evidence id, no Run and no Snapshot id; an empty name is no identity. -/
structure Distinguished (a b : ClassifiedSnapshotReplayItem) : Prop where
  snapshotId : ∀ t ≠ [], a.snapshotId = some t → b.snapshotId ≠ some t
  run : ∀ t ≠ [], a.persistentRunId = some t → b.persistentRunId ≠ some t
  evidenceId : a.evidenceId ≠ b.evidenceId

/-- The counts of the plan are the sizes of the partitions of the corpus. -/
structure Counted (c : Corpus F) (plan : ClassifiedReplayPlan F) : Prop where
  runs : plan.counts.totalRunCount = c.dirs.length
  evidence : plan.counts.totalEvidenceCount = (corpusDocuments c).length
  snapshots : plan.counts.totalSnapshotCount = (snapshotDocuments c).length
  entries : plan.counts.totalSnapshotEntryCount = (plan.snapshots.map (·.entries.length)).sum
  eligible : plan.counts.eligibleSnapshotCount = plan.snapshots.countP (·.replayEligibility = some .eligible)
  eligibleEntries : plan.counts.eligibleEntryCount =
    ((ofEligibility .eligible plan.snapshots).map (·.entries.length)).sum
  ineligible : plan.counts.ineligibleSnapshotCount =
    plan.snapshots.countP (·.replayEligibility = some .ineligible)
  ineligibleEntries : plan.counts.ineligibleEntryCount =
    ((ofEligibility .ineligible plan.snapshots).map (·.entries.length)).sum
  nonSnapshotRuns : plan.counts.nonSnapshotRunCount =
    c.dirs.countP fun r => (snapshotDocuments c).all fun d => d.1 ≠ r.1
  nonSnapshotEvidence : plan.counts.nonSnapshotEvidenceCount =
    (corpusDocuments c).countP fun e => (snapshotDocuments c).all fun d => d.1 ≠ e.1

/-- What a plan says of its corpus, once it is complete. -/
structure PlanAgrees (c : Corpus F) (plan : ClassifiedReplayPlan F) : Prop where
  documents : ((snapshotDocuments c).map fun d => (d.1, d.2.1)).Nodup
  accounted : ∃ items, items.Perm plan.snapshots ∧ List.Forall₂ AccountsFor items (snapshotDocuments c)
  judged : ∀ s ∈ plan.snapshots, s.evidenceIntegrity = .valid ∧ JudgedClean s
  distinguished : plan.snapshots.Pairwise Distinguished
  counted : Counted c plan

/-- The pieces of a plan that was returned complete. -/
structure PlanOf (c : Corpus F) (verify : Value F → Result VerificationStatus) (plan : ClassifiedReplayPlan F)
    (runs : List (RunAccount F)) (raws : List (List (RawSnapshot F)))
    (snapshots : List ClassifiedSnapshotReplayItem) : Prop where
  accounts : List.Forall₂ (fun id a => accountRun c id = .ok a) (keys c.dirs) runs
  documents : List.Forall₂ (fun a rs => rawSnapshots c verify a.item.runId a.files = .ok rs) runs raws
  items : List.Forall₂ (fun raw s => classifySnapshot runs (raw.marked raws.flatten) = .ok s)
    raws.flatten snapshots
  planRuns : plan.runs = sortedBy RunEvidenceAccountingItem.runId (runs.map RunAccount.item)
  planSnapshots : plan.snapshots = sortedBy ClassifiedSnapshotReplayItem.key snapshots
  counts : plan.counts = planCounts plan.runs plan.snapshots
  sound : plan.Sound

/-- The two judgements of the plan agree; a complete plan is the assembled one. -/
theorem classify_eq_ok {c : Corpus F} {verify : Value F → Result VerificationStatus}
    {plan : ClassifiedReplayPlan F} (h : classifyOperationalEvidence c verify = .ok plan) :
    (plan.classificationComplete = true ↔ validateClassifiedReplayPlan plan = .ok []) ∧
      (plan.classificationComplete = true → ∃ runs raws snapshots, PlanOf c verify plan runs raws snapshots) := by
  rw [classifyOperationalEvidence] at h
  obtain ⟨runs, hruns, h⟩ := bind_eq_ok.1 h
  obtain ⟨raws, hraws, h⟩ := bind_eq_ok.1 h
  obtain ⟨snapshots, hsnapshots, h⟩ := bind_eq_ok.1 h
  obtain ⟨plan₀, hplan₀, h⟩ := bind_eq_ok.1 h
  rw [settlePlan] at h
  obtain ⟨issues, hissues, h⟩ := bind_eq_ok.1 h
  split_ifs at h with hnil
  · cases h
    rw [hnil] at hissues
    have hsound := validate_eq_nil.1 hissues
    refine ⟨iff_of_true hsound.complete hissues, fun _ => ⟨runs, raws, snapshots, ?_⟩⟩
    rw [assemblePlan] at hplan₀
    obtain ⟨d, -, hplan₀⟩ := bind_eq_ok.1 hplan₀
    cases hplan₀
    exact {
      accounts := mapM_eq_ok.1 hruns
      documents := mapM_eq_ok.1 hraws
      items := List.forall₂_map_left_iff.1 (mapM_eq_ok.1 hsnapshots)
      planRuns := rfl
      planSnapshots := rfl
      counts := rfl
      sound := hsound }
  · cases h
    exact ⟨iff_of_false Bool.false_ne_true fun hv => Bool.false_ne_true (validate_eq_nil.1 hv).complete,
      fun hc => absurd hc Bool.false_ne_true⟩

section
variable {c : Corpus F} {verify : Value F → Result VerificationStatus} {plan : ClassifiedReplayPlan F}
  {runs : List (RunAccount F)} {raws : List (List (RawSnapshot F))}
  {snapshots : List ClassifiedSnapshotReplayItem}

theorem PlanOf.snapshots_perm (h : PlanOf c verify plan runs raws snapshots) :
    snapshots.Perm plan.snapshots := h.planSnapshots ▸ sortedBy_perm.symm

theorem PlanOf.runs_perm (h : PlanOf c verify plan runs raws snapshots) :
    (runs.map RunAccount.item).Perm plan.runs := h.planRuns ▸ sortedBy_perm.symm

theorem PlanOf.governed (h : PlanOf c verify plan runs raws snapshots) {s : ClassifiedSnapshotReplayItem}
    (hs : s ∈ snapshots) : Governed s := h.sound.snapshots s (h.snapshots_perm.mem_iff.1 hs)

/-- Every Run directory has an intact ledger, all of it accounted for. -/
theorem PlanOf.ledgers (h : PlanOf c verify plan runs raws snapshots) :
    List.Forall₂ (fun r a => a.item.runId = r.1 ∧ a.files = documentsIn r.2.listing ∧
      a.item.evidenceCount = (documentsIn r.2.listing).length ∧ ∃ st, Intact r.1 r.2 st) c.dirs runs := by
  have hvalid : ∀ a ∈ runs, a.item.evidenceIntegrity = .valid := fun a ha =>
    h.sound.runs _ (h.runs_perm.mem_iff.1 (List.mem_map_of_mem ha))
  have haccounts := List.forall₂_map_left_iff.1 h.accounts
  have hboth := (List.forall₂_and_left _ _).2 ⟨hvalid, haccounts.flip⟩
  have hmem := (List.forall₂_and_left _ _).2 ⟨fun (r : Text × RunDir F) hr => hr, hboth.flip⟩
  refine hmem.imp fun r a ha => ?_
  obtain ⟨hr, hv, ha⟩ := ha
  obtain ⟨hid, hcount, hintact⟩ := accountRun_valid ha
  obtain ⟨dir, st, hdir, hfiles, hdirIntact⟩ := hintact hv
  rw [dir?_of_mem_dirs hr] at hdir
  cases hdir
  exact ⟨hid, hfiles, by rw [hcount, hfiles], st, hdirIntact⟩

theorem snapshotDocuments_eq (c : Corpus F) : snapshotDocuments c = c.dirs.flatMap fun r =>
    ((documentsIn r.2.listing).filter fun f =>
      (keyOf f.2.value EnvelopeKey.evidenceType).eq (lit "filesystem.snapshot")).map fun f => (r.1, f) := by
  rw [snapshotDocuments, corpusDocuments, List.filter_flatMap]
  simp only [List.filter_map]
  rfl

/-- The raw Snapshots are the Snapshot documents, one for one. -/
theorem PlanOf.rawOf (h : PlanOf c verify plan runs raws snapshots) :
    List.Forall₂ (fun d raw => RawOf d.1 d.2.1 d.2.2.value raw ∧ ∃ n, RecordShape d.1 n d.2.1 d.2.2.value)
      (snapshotDocuments c) raws.flatten := by
  rw [snapshotDocuments_eq]
  refine forall₂_flatten ((forall₂_trans h.ledgers h.documents).imp fun r rs hrs => ?_)
  obtain ⟨a, -, ⟨hid, hfiles, -, st, hintact⟩, hraws⟩ := hrs
  have hraw := rawSnapshots_of_ok hraws
  rw [hid, hfiles] at hraw
  rw [List.forall₂_map_left_iff]
  refine ((List.forall₂_and_left _ _).2 ⟨fun f hf => hintact.history.shape (List.mem_of_mem_filter hf), hraw⟩).imp
    fun f raw hf => ⟨hf.2, hf.1.imp fun n hn => hn.2⟩

/-- What an item is made of. -/
structure ItemOf (raws : List (RawSnapshot F)) (raw : RawSnapshot F) (s : ClassifiedSnapshotReplayItem) :
    Prop where
  snapshotId : s.snapshotId = raw.snapshotId
  evidenceId : s.evidenceId = raw.evidenceId
  run : s.persistentRunId = some raw.runId
  path : s.evidenceRelativePath = some raw.relative
  intact : raw.intrinsicValid = true
  unshared : ∀ k ∈ identityKeys, sharesIdentity raws k.1 raw = false
  judged : (raw.intrinsicValid = true → raw.codes = []) → s.evidenceIntegrity = .valid ∧ JudgedClean s

theorem PlanOf.itemOf (h : PlanOf c verify plan runs raws snapshots) :
    List.Forall₂ (fun raw s => ItemOf raws.flatten raw s) raws.flatten snapshots := by
  have hboth := (List.forall₂_and_left _ _).2 ⟨fun s hs => h.governed hs, h.items.flip⟩
  refine hboth.flip.imp fun raw s hs => ?_
  obtain ⟨hgov, hs⟩ := hs
  rw [classifySnapshot] at hs
  obtain ⟨j, hj, hs⟩ := bind_eq_ok.1 hs
  cases hs
  obtain ⟨hintact, hcodes, hunshared⟩ := marked_intact (intact_of_valid hgov.integrity)
  refine ⟨rfl, rfl, rfl, rfl, hintact, hunshared, fun hc => ⟨hgov.integrity, ?_⟩⟩
  rcases judge_clean hj (hcodes hc) hgov.classified with ⟨h1, h2, h3⟩ | ⟨h1, h2, h3⟩
  · exact .inl ⟨h1, h2, by rw [snapshotItem, h3]; rfl⟩
  · exact .inr ⟨h1, h2, by rw [snapshotItem, h3]; exact sortedSet_singleton _⟩

/-- The items account for the Snapshot documents, one for one. -/
theorem PlanOf.accountsFor (h : PlanOf c verify plan runs raws snapshots) :
    List.Forall₂ AccountsFor snapshots (snapshotDocuments c) := by
  refine (forall₂_trans h.rawOf h.itemOf).flip.imp fun s d hs => ?_
  obtain ⟨raw, -, ⟨hraw, n, hshape⟩, hitem⟩ := hs
  obtain ⟨u, hu, hversion⟩ := hshape.evidenceId
  refine ⟨by rw [hitem.path, hraw.relative], ?_, ⟨u, ?_, hu, ?_⟩, ?_⟩
  · rw [hitem.run, hraw.runId, hshape.runId]; rfl
  · rintro rfl
    rw [Runtime.uuidVersion_nil] at hversion
    cases hversion
  · rw [hitem.evidenceId, hraw.evidenceId, hu]; rfl
  · rw [hitem.snapshotId, hraw.snapshotId hitem.intact]

theorem PlanOf.judged (h : PlanOf c verify plan runs raws snapshots) {s : ClassifiedSnapshotReplayItem}
    (hs : s ∈ plan.snapshots) : s.evidenceIntegrity = .valid ∧ JudgedClean s := by
  obtain ⟨d, -, raw, -, ⟨hraw, -⟩, hitem⟩ :=
    forall₂_mem_right (forall₂_trans h.rawOf h.itemOf) (h.snapshots_perm.mem_iff.2 hs)
  exact hitem.judged hraw.codes

/-- An identity that no two raw Snapshots share is shared by no two items. -/
theorem PlanOf.unshared (h : PlanOf c verify plan runs raws snapshots) {key : RawSnapshot F → Option Text}
    {field : ClassifiedSnapshotReplayItem → Option Text}
    (hkey : ∀ raw s, ItemOf raws.flatten raw s →
      key raw = field s ∧ sharesIdentity raws.flatten key raw = false) :
    snapshots.Pairwise fun a b => ∀ v ≠ [], field a = some v → field b ≠ some v := by
  have hraws := pairwise_of_unshared fun raw hraw => by
    obtain ⟨s, -, hs⟩ := forall₂_mem_left h.itemOf hraw
    exact (hkey raw s hs).2
  have hmap : raws.flatten.map key = snapshots.map field :=
    forall₂_map_eq h.itemOf fun raw s hs => (hkey raw s hs).1
  have hpair : (raws.flatten.map key).Pairwise fun a b => ∀ v ≠ [], a = some v → b ≠ some v :=
    List.pairwise_map.2 hraws
  rw [hmap] at hpair
  exact List.pairwise_map.1 hpair

theorem PlanOf.distinguished (h : PlanOf c verify plan runs raws snapshots) :
    plan.snapshots.Pairwise Distinguished := by
  have hsymm : Std.Symm Distinguished := ⟨fun a b hab =>
    ⟨fun t ht hb ha => hab.snapshotId t ht ha hb, fun t ht hb ha => hab.run t ht ha hb, hab.evidenceId.symm⟩⟩
  have hid := h.unshared fun raw s hs => ⟨hs.snapshotId.symm, hs.unshared _ (.head _)⟩
  have hrun := h.unshared fun raw s hs => ⟨hs.run.symm, hs.unshared _ (.tail _ (.head _))⟩
  have hevidence := h.unshared fun raw s hs =>
    ⟨hs.evidenceId.symm, hs.unshared _ (.tail _ (.tail _ (.head _)))⟩
  refine (h.snapshots_perm.pairwise_iff fun hab => hsymm.symm _ _ hab).1 ?_
  refine ((hid.and hrun).and hevidence).imp_of_mem fun ha _ hab => ?_
  obtain ⟨d, -, hd⟩ := forall₂_mem_left h.accountsFor ha
  obtain ⟨u, hu, -, hau⟩ := hd.evidenceId
  exact ⟨hab.1.1, hab.1.2, fun he => hab.2 u hu hau (he ▸ hau)⟩

/-- The sizes of the ledgers, by Run. -/
theorem PlanOf.sizes (h : PlanOf c verify plan runs raws snapshots) :
    (plan.runs.map fun r => (r.runId, r.evidenceCount)).Perm
      (c.dirs.map fun r => (r.1, (documentsIn r.2.listing).length)) := by
  have hmap : c.dirs.map (fun r => (r.1, (documentsIn r.2.listing).length)) =
      runs.map fun a => (a.item.runId, a.item.evidenceCount) :=
    forall₂_map_eq h.ledgers fun r a ha => by rw [ha.1, ha.2.2.1]
  rw [hmap]
  simpa [Function.comp_def] using (h.runs_perm.map fun r => (r.runId, r.evidenceCount)).symm

/-- A Run without Snapshot item is a Run without Snapshot document. -/
theorem PlanOf.owns_iff (h : PlanOf c verify plan runs raws snapshots) (runId : Text) :
    (plan.snapshots.any (·.persistentRunId = some runId)) = true ↔ ∃ d ∈ snapshotDocuments c, d.1 = runId := by
  simp only [List.any_eq_true, decide_eq_true_eq]
  constructor
  · rintro ⟨s, hs, hrun⟩
    obtain ⟨d, hd, hds⟩ := forall₂_mem_left h.accountsFor (h.snapshots_perm.mem_iff.2 hs)
    rw [hds.run] at hrun
    exact ⟨d, hd, Option.some.inj hrun⟩
  · rintro ⟨d, hd, rfl⟩
    obtain ⟨s, hs, hds⟩ := forall₂_mem_right h.accountsFor hd
    exact ⟨s, h.snapshots_perm.mem_iff.1 hs, hds.run⟩

theorem PlanOf.not_owns (h : PlanOf c verify plan runs raws snapshots) (runId : Text) :
    (!plan.snapshots.any (·.persistentRunId = some runId)) =
      (snapshotDocuments c).all fun d => d.1 ≠ runId := by
  rw [Bool.eq_iff_iff, Bool.not_eq_true', Bool.eq_false_iff, Ne, h.owns_iff, List.all_eq_true]
  simp only [not_exists, not_and, decide_eq_true_eq, ne_eq]

omit [SqliteFloat F] in
/-- The documents of the Runs whose name passes a test. -/
theorem countP_documents (c : Corpus F) (p : Text → Bool) : (corpusDocuments c).countP (fun e => p e.1) =
    ((((c.dirs.map fun r => (r.1, (documentsIn r.2.listing).length)).filter fun s => p s.1)).map Prod.snd).sum := by
  rw [corpusDocuments]
  induction c.dirs with
  | nil => rfl
  | cons r rs ih =>
    rw [List.flatMap_cons, List.countP_append, ih, List.map_cons, List.filter_cons, List.countP_map]
    cases hp : p r.1 with
    | true => simp [Function.comp_def, hp]
    | false => simp [Function.comp_def, hp]

/-- The entries of governed items are as many as they say. -/
theorem plannedEntries_eq {items : List ClassifiedSnapshotReplayItem}
    (h : ∀ s ∈ items, s.entryCount = s.entries.length) :
    plannedEntries items = (items.map (·.entries.length)).sum := by
  rw [plannedEntries, List.map_congr_left h]

theorem PlanOf.counted (h : PlanOf c verify plan runs raws snapshots) : Counted c plan := by
  have hentries : ∀ s ∈ plan.snapshots, s.entryCount = s.entries.length := fun s hs =>
    (h.sound.snapshots s hs).entries
  have hpart (e : ReplayEligibility) : plannedEntries (ofEligibility e plan.snapshots) =
      ((ofEligibility e plan.snapshots).map (·.entries.length)).sum :=
    plannedEntries_eq fun s hs => hentries s (List.mem_of_mem_filter hs)
  have hlength := h.sizes.length_eq
  have hsum := (h.sizes.map Prod.snd).sum_nat
  have hdocs := countP_documents c fun _ => true
  have hruns := h.sizes.countP_eq fun s => (snapshotDocuments c).all fun d => d.1 ≠ s.1
  have hrest := ((h.sizes.filter fun s => (snapshotDocuments c).all fun d => d.1 ≠ s.1).map Prod.snd).sum_nat
  rw [← countP_documents c fun n => (snapshotDocuments c).all fun d => d.1 ≠ n, List.filter_map] at hrest
  rw [List.countP_map, List.countP_map] at hruns
  rw [List.length_map, List.length_map] at hlength
  rw [List.filter_true, List.countP_true] at hdocs
  rw [← hdocs, List.map_map] at hsum
  have hsnapshots := h.snapshots_perm.length_eq.symm.trans h.accountsFor.length_eq
  have hnot : (fun r : RunEvidenceAccountingItem F => !plan.snapshots.any (·.persistentRunId = some r.runId)) =
      fun r => (snapshotDocuments c).all fun d => d.1 ≠ r.runId := funext fun r => h.not_owns r.runId
  exact {
    runs := by rw [h.counts, ← hlength]; rfl
    evidence := by rw [h.counts, ← hsum]; rfl
    snapshots := by rw [h.counts, ← hsnapshots]; rfl
    entries := by rw [h.counts, ← plannedEntries_eq hentries]; rfl
    eligible := by rw [h.counts, List.countP_eq_length_filter]; rfl
    eligibleEntries := by rw [h.counts, ← hpart]; rfl
    ineligible := by rw [h.counts, List.countP_eq_length_filter]; rfl
    ineligibleEntries := by rw [h.counts, ← hpart]; rfl
    nonSnapshotRuns := by
      have hcount : plan.counts.nonSnapshotRunCount =
          (plan.runs.filter fun r => !plan.snapshots.any (·.persistentRunId = some r.runId)).length := by
        rw [h.counts]; rfl
      rw [hcount, hnot, ← List.countP_eq_length_filter]
      exact hruns
    nonSnapshotEvidence := by
      have hcount : plan.counts.nonSnapshotEvidenceCount = ((plan.runs.filter fun r =>
          !plan.snapshots.any (·.persistentRunId = some r.runId)).map (·.evidenceCount)).sum := by
        rw [h.counts]; rfl
      rw [hcount, hnot, ← hrest, List.map_map]
      rfl }

/-- A complete plan agrees with its corpus. -/
theorem PlanOf.agrees (h : PlanOf c verify plan runs raws snapshots) : PlanAgrees c plan where
  documents := (corpusDocuments_nodup c).sublist ((List.filter_sublist).map _)
  accounted := ⟨snapshots, h.snapshots_perm, h.accountsFor⟩
  judged := fun _ hs => h.judged hs
  distinguished := h.distinguished
  counted := h.counted

end

end Steward
