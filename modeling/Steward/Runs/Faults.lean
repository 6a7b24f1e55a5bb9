import Mathlib.Data.List.Pairwise
import Steward.Runs.Chain
import Steward.Snapshot.Create
import Steward.Sqlite.Integral

/-!
# Interrupted operations

Runs are created, moved on and given Snapshots by operations that may stop at any
checkpoint. An operation that finds its next number free, or taken by a record of
its own type, never forks a ledger; one that finds it taken by another type does.
-/

namespace Steward

open Py Sqlite

variable {F : Type} [SqliteFloat F]

/-! ## Operations -/

/-- An operation with its inputs. -/
inductive Operation (F : Type) where
  | create (a : Creation F)
  | transition (a : Transition)
  | persist (depth : Nat) (s : Snapshot F) (wf : s.Wf) (stamp : Stamp)

/-- The state an operation leaves, whether it returns or raises. -/
def Operation.run (injector : Option FaultInjector) (w : World F) : Operation F → World F
  | .create a => (createRun injector w a).2
  | .transition a => (transitionRun injector w a).2
  | .persist depth s _ stamp => (Steward.persist injector depth w s stamp).2

/-- The state after a sequence of operations, each with its faults. -/
def World.after (w : World F) (steps : List (Option FaultInjector × Operation F)) : World F :=
  steps.foldl (fun w step => step.2.run step.1 w) w

/-- A file of the Run with the number that follows the index is already the file to be written. -/
def NextClear (c : Corpus F) (run : RunRecord F) (type : Text) : Prop :=
  ∀ r, run.runId = .str r → ∀ dir, c.dir? r = some dir → ∀ (n : Int) t name,
    successor run.lastSequence = .ok (.int n) → filename n t = .ok name → (dir.find name).isSome = true →
      filename n type = .ok name

/-- No other type of record has the number the operation is going to use. -/
def Operation.Clear (w : World F) : Operation F → Prop
  | .create _ => True
  | .transition a => ∀ run, getRun w.index (.str a.runId) = .ok run →
      NextClear w.corpus run (txt "run.state_transition")
  | .persist _ s _ _ => ∀ run, getRun w.index (s.field .runId) = .ok run →
      NextClear w.corpus run (txt "filesystem.snapshot")

/-- Every operation of the sequence is clear in the state it starts from. -/
def AllClear : World F → List (Option FaultInjector × Operation F) → Prop
  | _, [] => True
  | w, step :: steps => step.2.Clear w ∧ AllClear (step.2.run step.1 w) steps

theorem World.after_cons (w : World F) (step : Option FaultInjector × Operation F)
    (steps : List (Option FaultInjector × Operation F)) : w.after (step :: steps) = (step.2.run step.1 w).after steps :=
  rfl

theorem Operation.run_create (injector : Option FaultInjector) (w : World F)
    (a : Creation F) : (Operation.create a).run injector w = (createRun injector w a).2 := rfl

theorem Operation.run_transition (injector : Option FaultInjector) (w : World F)
    (a : Transition) : (Operation.transition a).run injector w = (transitionRun injector w a).2 := rfl

theorem Operation.run_persist (injector : Option FaultInjector) (w : World F)
    (depth : Nat) (s : Snapshot F) (wf : s.Wf) (stamp : Stamp) :
    (Operation.persist depth s wf stamp).run injector w = (Steward.persist injector depth w s stamp).2 := rfl

/-! ## Rows -/

section

omit [SqliteFloat F]

theorem sortKeys_toValue (x : Cell F) : x.toValue.sortKeys = x.toValue := by cases x <;> rfl

/-- The last record of a chain. -/
theorem Chain.inv_append {runId : Text} {files : List (Text × Document F)} {g : Text × Document F}
    {b : RunStatus} {last : Value F} [SqliteFloat F] (h : Chain runId (files ++ [g]) b last) :
    ∃ previous, Recorded runId (files.length + 1) previous g.1 g.2.value := by
  generalize hgs : files ++ [g] = gs at h
  cases h with
  | start => simp at hgs
  | append h hr hm =>
    obtain ⟨rfl, hg⟩ := List.append_inj' hgs rfl
    cases hg
    exact ⟨_, hr⟩

theorem bindable_int (n : Int) : Bindable (.int n : Value F) = int64 n := rfl

theorem bindable_str (t : Text) : Bindable (.str t : Value F) = t.encodable := rfl

end

/-- The Run read from a row, and the records the row knows of. -/
structure ReadAs (row : Row RunColumn F) (run : RunRecord F) (r : Text) (earlier : List (Text × Document F))
    (last : Value F) : Prop where
  runId : run.runId = .str r
  config : run.configDigest.wf = true
  chain : Chain r earlier run.status last
  nonempty : earlier ≠ []
  successor : Steward.successor run.lastSequence = .ok (.int (earlier.length + 1 : Nat))
  digest : run.lastEvidenceDigest = last
  wf : last.wf = true
  sorted : last.sortKeys = last
  status : row .status = .text (Named.name run.status)
  sequence : row .lastSequence = .integer earlier.length
  digestCell : (row .lastEvidenceDigest).toValue = last

/-- What a row that tracks its chain is read as. -/
theorem Tracks.run {row : Row RunColumn F} {r : Text} {files : List (Text × Document F)}
    (h : Tracks row r files) {run : RunRecord F} (hrun : runFromRow row = .ok run) :
    ∃ earlier last, ReadAs row run r earlier last ∧ (files = earlier ∨ ∃ f, files = earlier ++ [f]) := by
  obtain ⟨earlier, status, last, hchain, hne, hfiles, hstatus, hsequence, hlast⟩ := h.position
  rw [runFromRow] at hrun
  obtain ⟨st, hst, hrun⟩ := bind_eq_ok.1 hrun
  obtain ⟨metadata, -, hrun⟩ := bind_eq_ok.1 hrun
  cases hrun
  rw [hstatus, Cell.toValue, enumOf_eq_ok] at hst
  have heq : status = st := Named.name_inj (Value.str.inj hst)
  subst heq
  have hsucc : Steward.successor (.int earlier.length : Value F) = .ok (.int (1 + earlier.length)) := rfl
  exact ⟨earlier, last, {
    runId := by show (row .runId).toValue = _; rw [h.owner]; rfl
    config := wf_toValue _
    chain := hchain
    nonempty := hne
    successor := by
      show Steward.successor (row .lastSequence).toValue = _
      rw [hsequence, Nat.add_comm]
      exact hsucc
    digest := hlast
    wf := by rw [← hlast]; exact wf_toValue _
    sorted := by rw [← hlast]; exact sortKeys_toValue _
    status := hstatus
    sequence := hsequence
    digestCell := hlast }, hfiles⟩

/-- Rows of one Run are one row. -/
theorem RowsTrack.unique {ix : Index F} {ledger : Text → List (Text × Document F)} (h : RowsTrack ix ledger)
    {p q : Row RunColumn F} (hp : p ∈ ix.runs) (hq : q ∈ ix.runs) {r : Text} (hpr : p .runId = .text r)
    (hqr : q .runId = .text r) : p = q := by
  by_contra hne
  have : Std.Symm fun a b : Row RunColumn F => a .runId ≠ b .runId := ⟨fun _ _ h => h.symm⟩
  exact h.apart.forall hp hq hne (hpr.trans hqr.symm)

/-- Before the projection, the row of the Run is one record behind. -/
theorem RowsTrack.lag {ix : Index F} {ledger : Text → List (Text × Document F)} (h : RowsTrack ix ledger)
    {r : Text} {f : Text × Document F} (hsync : ∀ q ∈ ix.runs, q .runId = .text r → Tracks q r (ledger r ++ [f])) :
    RowsTrack ix (Function.update ledger r (ledger r ++ [f])) := by
  refine ⟨fun q hq => ?_, h.apart⟩
  obtain ⟨r', ht⟩ := h.tracks q hq
  by_cases hr : r' = r
  · subst hr
    exact ⟨r', by rw [Function.update_self]; exact hsync q hq ht.owner⟩
  · exact ⟨r', by rw [Function.update_of_ne hr]; exact ht⟩

/-- After the projection it is up to date. -/
theorem RowsTrack.advance {ix ix' : Index F} {ledger : Text → List (Text × Document F)} (h : RowsTrack ix ledger)
    {r d : Text} {f : Text × Document F} {b : RunStatus} (hchain : Chain r (ledger r ++ [f]) b (.str d))
    {sets : RunColumn → Option (Value F)}
    (hupdate : runSchema.update ix.runs sets .runId (.str r) = .ok ix'.runs) (hid : sets .runId = none)
    (hsequence : sets .lastSequence = some (.int ((ledger r).length + 1 : Nat)))
    (hdigest : sets .lastEvidenceDigest = some (.str d))
    (hstatus : ∀ q ∈ ix.runs, q .runId = .text r →
      runSchema.assigned sets q .status = .text (Named.name b)) :
    RowsTrack ix' (Function.update ledger r (ledger r ++ [f])) := by
  obtain ⟨x, hx, hbindable, -, hruns⟩ := runSchema.update_eq_ok.1 hupdate
  obtain rfl : x = .text r := by
    rw [Sqlite.bind] at hx
    split_ifs at hx
    cases hx
    rfl
  have howner (q : Row RunColumn F) : (if runSchema.is .runId (.text r) q then runSchema.assigned sets q else q)
      .runId = q .runId := by
    split_ifs
    · exact runSchema.assigned_none hid q
    · rfl
  have hint := hbindable _ _ hsequence
  have htext := hbindable _ _ hdigest
  rw [bindable_int] at hint
  rw [bindable_str] at htext
  refine ⟨fun q' hq' => ?_, ?_⟩
  · rw [hruns] at hq'
    obtain ⟨q, hq, rfl⟩ := List.mem_map.1 hq'
    obtain ⟨r', ht⟩ := h.tracks q hq
    have his : runSchema.is .runId (.text r) q = true ↔ r' = r := by
      rw [Schema.is, ht.owner]
      exact decide_eq_true_iff
    by_cases hr : r' = r
    · subst hr
      refine ⟨r', ?_⟩
      rw [if_pos (his.2 rfl), Function.update_self]
      have hlength : (ledger r' ++ [f]).length = (ledger r').length + 1 := by simp
      refine ⟨(runSchema.assigned_none hid q).trans ht.owner, ledger r' ++ [f], b, .str d, hchain, by simp,
        .inl rfl, hstatus q hq ht.owner, ?_, ?_⟩
      · rw [runSchema.assigned_some hsequence, hlength]
        exact runSchema.cell_of_stored (stored_int hint)
      · rw [runSchema.assigned_some hdigest, runSchema.cell_str rfl htext]
        rfl
    · refine ⟨r', ?_⟩
      rw [if_neg (mt his.1 hr), Function.update_of_ne hr]
      exact ht
  · rw [hruns, List.pairwise_map]
    refine h.apart.imp fun {p q} hpq => ?_
    rw [howner p, howner q]
    exact hpq

/-! ## The next record of a Run -/

/-- An operation that adds a record to a Run it found keeps the invariant when it is clear. -/
theorem Ledgers.next {w : World F} {ledger : Text → List (Text × Document F)} (h : Ledgers w.corpus ledger)
    (hrows : RowsTrack w.index ledger) {row : Row RunColumn F} (hrow : row ∈ w.index.runs) {run : RunRecord F}
    (hrun : runFromRow row = .ok run) {type : Text} {payload : Value F} {v : Int} {stamp : Stamp}
    (hclear : NextClear w.corpus run type) (hpayload : payload.wf = true) {p : Publication.Plan F}
    (hitem : evidence run type payload v stamp = .ok p.item) (htype : isTypeName (safeType type) = true)
    {b : RunStatus} (hmoves : ∀ n, n ≠ 1 → ∀ f : EnvelopeKey → Value F, f .evidenceType = .str type →
      f .payload = payload → Moves n (.dict (envelope f)) run.status b)
    (sets : List (Text × Value F) → RunColumn → Option (Value F))
    (hproject : ∀ relative ix, p.project relative = .ok ix →
      runSchema.update w.index.runs (sets p.item) .runId run.runId = .ok ix.runs)
    (hid : sets p.item .runId = none)
    (hsequence : sets p.item .lastSequence = some (fieldOf p.item EnvelopeKey.sequence))
    (hdigest : sets p.item .lastEvidenceDigest = some (fieldOf p.item EnvelopeKey.evidenceDigest))
    (hstatus : sets p.item .status = some (nameValue b) ∨ sets p.item .status = none ∧ b = run.status)
    (injector : Option FaultInjector) :
    ∃ ledger', Ledgers (Steward.publish injector w p).2.corpus ledger' ∧
      RowsTrack (Steward.publish injector w p).2.index ledger' := by
  obtain ⟨r, ht⟩ := hrows.tracks row hrow
  obtain ⟨earlier, last, hread, hfiles⟩ := ht.run hrun
  have hr := hread.runId
  obtain ⟨n, d, hn, hitemEq, hsealed⟩ := evidence_eq_ok hitem
  rw [hread.successor] at hn
  cases hn
  set f := evidenceField run type payload v stamp (.int (earlier.length + 1 : Nat)) d with hf
  have hwf : (Value.dict (envelope f)).wf = true := by
    refine wf_record Named.nodup fun k => ?_
    cases k
    case runId => show run.runId.wf = true; rw [hr]; rfl
    case configDigest => exact hread.config
    case previousEvidenceDigest => show run.lastEvidenceDigest.wf = true; rw [hread.digest]; exact hread.wf
    case payload => exact hpayload
    case evidenceDigest => show d.wf = true; rw [show d = .str (sealOf f) from hsealed.digest]; rfl
    all_goals rfl
  obtain ⟨name, hname⟩ : ∃ name, filename (earlier.length + 1 : Nat) type = .ok name :=
    ⟨_, filename_eq_ok.2 ⟨htype, rfl⟩⟩
  refine h.publish hrows hitemEq hsealed hwf hr rfl rfl hname (fun hfree => ?_) injector
  -- a free name means that the index is not behind
  have hsync : ledger r = earlier := by
    rcases hfiles with hfiles | ⟨g, hfiles⟩
    · exact hfiles
    · exfalso
      rw [hfiles] at ht
      obtain ⟨status, last', hchain'⟩ := h.chain r
      rw [hfiles] at hchain'
      obtain ⟨previous, hg⟩ := hchain'.inv_append
      obtain ⟨t, -, hgname⟩ := hg.named
      cases hdir : w.corpus.dir? r with
      | none =>
        rw [h.absent r hdir] at hfiles
        simp at hfiles
      | some dir =>
        have hmem : ((w.corpus.dir? r).bind (·.find g.1)).isSome = true :=
          h.taken.2 ⟨g.2, by rw [hfiles]; exact List.mem_append_right _ List.mem_cons_self⟩
        have hg1 := hmem
        rw [hdir, Option.bind_some] at hg1
        have hsame := hclear r hr dir hdir _ t g.1 hread.successor hgname hg1
        rw [hname] at hsame
        cases hsame
        rw [hfree] at hmem
        cases hmem
  have hlength : earlier.length + 1 ≠ 1 := by
    have := List.length_pos_iff.2 hread.nonempty
    omega
  have hnext := hread.chain.written hsealed hwf hr rfl rfl hname hread.digest hread.sorted
    (hmoves _ hlength f rfl rfl)
  subst hsync
  refine ⟨⟨_, _, hnext⟩, hrows.lag fun q hq hqr => ?_, fun relative ix hix => ?_⟩
  · rw [hrows.unique hq hrow hqr ht.owner]
    exact ⟨ht.owner, _, _, last, hread.chain, hread.nonempty, .inr ⟨_, rfl⟩, hread.status, hread.sequence,
      hread.digestCell⟩
  · refine hrows.advance hnext (hr ▸ hproject _ _ hix) hid ?_ ?_ fun q hq hqr => ?_
    · rw [hsequence, hitemEq, fieldOf_envelope]
      rfl
    · rw [hdigest, hitemEq, fieldOf_envelope, show f .evidenceDigest = .str (sealOf f) from hsealed.digest]
    · rcases hstatus with hs | ⟨hs, rfl⟩
      · rw [runSchema.assigned_some hs]
        exact runSchema.cell_str rfl (Named.encodable b)
      · rw [runSchema.assigned_none hs, hrows.unique hq hrow hqr ht.owner]
        exact hread.status

/-! ## Creating a Run -/

/-- What a plan to create a Run publishes and projects. -/
theorem creationPlan_eq_ok {ix : Index F} {a : Creation F} {p : Publication.Plan F}
    (h : creationPlan ix a = .ok p) : ∃ metadataJson metadata, Json.loads (F := F) metadataJson = some metadata ∧
      evidence (a.run metadata) (txt "run.created") (creationPayload a metadata) 1 a.stamp = .ok p.item ∧
      p.project = creationProjection ix a metadataJson p.item := by
  unfold creationPlan at h
  dsimp only at h
  split at h
  · cases h
  split at h
  · cases h
  split at h
  · cases h
  · rename_i metadataJson _
    split at h
    · cases h
    split at h
    · cases h
    · rename_i metadata hmetadata
      obtain ⟨item, hitem, h⟩ := bind_eq_ok.1 h
      cases h
      exact ⟨metadataJson, metadata, hmetadata, hitem, rfl⟩

theorem runs_of_insertEvidenceRecord {ix ix' : Index F} {vals : EvidenceColumn → Value F}
    (h : insertEvidenceRecord ix vals = .ok ix') : ix'.runs = ix.runs := by
  rw [insertEvidenceRecord] at h
  obtain ⟨records, -, h⟩ := bind_eq_ok.1 h
  obtain ⟨u, -, h⟩ := bind_eq_ok.1 h
  cases h
  rfl

/-- The first file of a chain. -/
theorem Chain.created {runId : Text} {files : List (Text × Document F)} {status : RunStatus} {last : Value F}
    (h : Chain runId files status last) (hne : files ≠ []) :
    ∃ d, (txt "00000001_run.created.json", d) ∈ files := by
  induction h with
  | start => exact absurd rfl hne
  | @append files a b previous f h hr hm ih =>
    by_cases hfiles : files = []
    · subst hfiles
      have htype := hm.created_of_first rfl
      obtain ⟨t, ht, hname⟩ := hr.named
      rw [htype] at ht
      cases ht
      have hfile : filename (0 + 1 : Nat) (txt "run.created") = .ok (txt "00000001_run.created.json") := by
        decide
      exact ⟨f.2, List.mem_singleton.2 (Prod.ext (Except.ok.inj (hfile.symm.trans hname)) rfl)⟩
    · obtain ⟨d, hd⟩ := ih hfiles
      exact ⟨d, List.mem_append_left _ hd⟩

/-- Creating a Run never forks a ledger: its one file name is free only in a new directory. -/
theorem Ledgers.create {w : World F} {ledger : Text → List (Text × Document F)} (h : Ledgers w.corpus ledger)
    (hrows : RowsTrack w.index ledger) (a : Creation F) (injector : Option FaultInjector) :
    ∃ ledger', Ledgers (createRun injector w a).2.corpus ledger' ∧
      RowsTrack (createRun injector w a).2.index ledger' := by
  unfold createRun
  cases hplan : creationPlan w.index a with
  | error e => exact ⟨ledger, h, hrows⟩
  | ok p =>
    obtain ⟨metadataJson, metadata, hmetadata, hitem, hproject⟩ := creationPlan_eq_ok hplan
    obtain ⟨n, d, hn, hitemEq, hsealed⟩ := evidence_eq_ok hitem
    have hone : n = .int (0 + 1 : Nat) := by
      have hsucc : successor (a.run metadata).lastSequence = .ok (.int (0 + 1 : Nat)) := rfl
      rw [hsucc] at hn
      cases hn
      rfl
    subst hone
    set f := evidenceField (a.run metadata) (txt "run.created") (creationPayload a metadata) 1 a.stamp
      (.int (0 + 1 : Nat)) d with hf
    have hwf : (Value.dict (envelope f)).wf = true := by
      refine wf_record Named.nodup fun k => ?_
      cases k
      case payload =>
        have hnames : [txt "run_kind", txt "initial_status", txt "metadata"].Nodup := by decide
        refine Value.wf_dict.2 ⟨hnames, ?_⟩
        simp only [List.forall_mem_cons, List.not_mem_nil, false_imp_iff, implies_true, and_true]
        exact ⟨rfl, rfl, Json.wf_loads hmetadata⟩
      case evidenceDigest => show d.wf = true; rw [show d = .str (sealOf f) from hsealed.digest]; rfl
      all_goals rfl
    have hname : filename (0 + 1 : Nat) (txt "run.created") = .ok (txt "00000001_run.created.json") := by
      decide
    refine h.publish hrows hitemEq hsealed hwf rfl rfl rfl hname (fun hfree => ?_) injector
    have hempty : ledger a.runId = [] := by
      by_contra hne
      obtain ⟨status, last, hchain⟩ := h.chain a.runId
      obtain ⟨d', hd'⟩ := hchain.created hne
      have htaken := h.taken.2 ⟨d', hd'⟩
      rw [hfree] at htaken
      cases htaken
    have hnext := Chain.start.written hsealed hwf rfl rfl rfl hname rfl rfl
      (.created rfl (keyOf_envelope f _) (by rw [keyOf_envelope]; rfl))
    have hother {q : Row RunColumn F} (hq : q ∈ w.index.runs) {r : Text} (ht : Tracks q r (ledger r)) :
        r ≠ a.runId := by
      rintro rfl
      obtain ⟨earlier, _, _, -, hne, hfiles, -⟩ := ht.position
      rw [hempty] at hfiles
      rcases hfiles with hfiles | ⟨g, hfiles⟩
      · exact hne hfiles.symm
      · simp at hfiles
    rw [hempty]
    refine ⟨⟨_, _, hnext⟩, ⟨fun q hq => ?_, hrows.apart⟩, fun relative ix hix => ?_⟩
    · obtain ⟨r, ht⟩ := hrows.tracks q hq
      exact ⟨r, by rw [Function.update_of_ne (hother hq ht)]; exact ht⟩
    · rw [hproject, creationProjection] at hix
      obtain ⟨runs, hruns, hix⟩ := bind_eq_ok.1 hix
      obtain ⟨new, hwrite, -, rfl⟩ := runSchema.insert_eq_ok.1 (sql_eq_ok.1 hruns)
      obtain ⟨hbindable, -, rfl⟩ := runSchema.write_eq_ok.1 hwrite
      have hixruns := runs_of_insertEvidenceRecord hix
      have hid := hbindable .runId
      have hdigest := hbindable .lastEvidenceDigest
      have hdigestField : creationRow a metadataJson p.item .lastEvidenceDigest = .str (sealOf f) := by
        rw [creationRow, hitemEq, fieldOf_envelope, show f .evidenceDigest = .str (sealOf f) from hsealed.digest]
      rw [hdigestField, bindable_str] at hdigest
      have hnew : Tracks (fun c => runSchema.cell c (creationRow a metadataJson p.item c)) a.runId
          ([] ++ [(txt "00000001_run.created.json", Steward.written f hwf)]) := by
        refine ⟨runSchema.cell_str rfl hid, _, .created, _, hnext, by simp, .inl rfl,
          runSchema.cell_str rfl (Named.encodable RunStatus.created), runSchema.cell_of_stored (stored_int rfl), ?_⟩
        show (runSchema.cell .lastEvidenceDigest (creationRow a metadataJson p.item .lastEvidenceDigest)).toValue = _
        rw [hdigestField, runSchema.cell_str rfl hdigest]
        rfl
      refine ⟨fun q hq => ?_, ?_⟩
      · rw [hixruns] at hq
        rcases List.mem_append.1 hq with hq | hq
        · obtain ⟨r, ht⟩ := hrows.tracks q hq
          exact ⟨r, by rw [Function.update_of_ne (hother hq ht)]; exact ht⟩
        · rw [List.mem_singleton.1 hq]
          exact ⟨a.runId, by rw [Function.update_self]; exact hnew⟩
      · rw [hixruns, List.pairwise_append]
        refine ⟨hrows.apart, List.pairwise_singleton _ _, fun q hq q' hq' he => ?_⟩
        obtain ⟨r, ht⟩ := hrows.tracks q hq
        rw [List.mem_singleton.1 hq'] at he
        exact hother hq ht (Cell.text.inj (ht.owner.symm.trans (he.trans hnew.owner)))

/-! ## Moving a Run on -/

theorem findRun_eq_some {ix : Index F} {runId : Value F} {row : Row RunColumn F}
    (h : findRun ix runId = .ok (some row)) :
    row ∈ ix.runs ∧ ∃ x, Sqlite.bind runId = .ok x ∧ runSchema.is .runId x row = true := by
  rw [findRun] at h
  cases hs : sql (runSchema.select ix.runs .runId runId) with
  | error e => rw [hs] at h; cases h
  | ok rows =>
    rw [hs] at h
    have hhead : rows.head? = some row := Except.ok.inj h
    rw [sql_eq_ok, Schema.select] at hs
    obtain ⟨x, hbind, hx⟩ := bind_eq_ok.1 hs
    cases hx
    obtain ⟨hmem, his⟩ := List.mem_filter.1 (List.mem_of_head? hhead)
    exact ⟨hmem, x, hbind, his⟩

/-- The Run is read from a row that matches its id. -/
theorem getRun_eq_ok {ix : Index F} {runId : Value F} {run : RunRecord F} (h : getRun ix runId = .ok run) :
    ∃ row ∈ ix.runs, runFromRow row = .ok run ∧
      ∃ x, Sqlite.bind runId = .ok x ∧ runSchema.is .runId x row = true := by
  rw [getRun] at h
  obtain ⟨o, ho, h⟩ := bind_eq_ok.1 h
  cases o with
  | none => cases h
  | some row =>
    obtain ⟨hrow, hx⟩ := findRun_eq_some ho
    exact ⟨row, hrow, py_eq_ok.1 h, hx⟩

/-- A text id matches the row of its own Run only. -/
theorem Tracks.owner_eq {row : Row RunColumn F} {r runId : Text} {files : List (Text × Document F)}
    (h : Tracks row r files) {x : Cell F} (hx : Sqlite.bind (.str runId) = .ok x)
    (his : runSchema.is .runId x row = true) : r = runId := by
  rw [Sqlite.bind] at hx
  split_ifs at hx
  cases hx
  rw [Schema.is, h.owner] at his
  exact of_decide_eq_true his

/-- What a transition publishes and projects. -/
theorem transitionPlan_eq_ok {ix : Index F} {a : Transition} {current : RunRecord F} {p : Publication.Plan F}
    (h : transitionPlan ix a = .ok (current, some p)) : getRun ix (.str a.runId) = .ok current ∧
      a.target ∈ allowedTargets current.status ∧
      evidence current (txt "run.state_transition") (transitionPayload current.status a.target (strip a.reason)) 1
        a.stamp = .ok p.item ∧ p.project = transitionProjection ix a p.item := by
  unfold transitionPlan at h
  dsimp only at h
  split at h
  · cases h
  · obtain ⟨run, hrun, h⟩ := bind_eq_ok.1 h
    split at h
    · cases h
    · obtain ⟨u, hu, h⟩ := bind_eq_ok.1 h
      obtain ⟨item, hitem, h⟩ := bind_eq_ok.1 h
      cases h
      exact ⟨hrun, validateTransition_eq_ok.1 hu, hitem, rfl⟩

/-- The only row is found by its id. -/
theorem findRun_of_single {ix : Index F} {row : Row RunColumn F} {r : Text} (hruns : ix.runs = [row])
    (hr : row .runId = .text r) (henc : r.encodable = true) : findRun ix (.str r) = .ok (some row) := by
  have hbind : Sqlite.bind (.str r : Value F) = .ok (.text r) := if_pos henc
  have his : runSchema.is .runId (.text r) row = true := by
    rw [Schema.is, hr]
    exact decide_eq_true rfl
  rw [findRun, hruns, Schema.select, hbind, ok_bind_ok, List.filter_cons_of_pos his]
  rfl

/-- A clear transition keeps the invariant. -/
theorem Ledgers.transition {w : World F} {ledger : Text → List (Text × Document F)} (h : Ledgers w.corpus ledger)
    (hrows : RowsTrack w.index ledger) (a : Transition) (hclear : (Operation.transition a).Clear w)
    (injector : Option FaultInjector) :
    ∃ ledger', Ledgers (transitionRun injector w a).2.corpus ledger' ∧
      RowsTrack (transitionRun injector w a).2.index ledger' := by
  unfold transitionRun
  cases hplan : transitionPlan w.index a with
  | error e => exact ⟨ledger, h, hrows⟩
  | ok plan =>
    obtain ⟨current, _ | p⟩ := plan
    · exact ⟨ledger, h, hrows⟩
    · obtain ⟨hcurrent, hallowed, hitem, hproject⟩ := transitionPlan_eq_ok hplan
      obtain ⟨row, hrow, hread, x, hx, his⟩ := getRun_eq_ok hcurrent
      have hpayload : (transitionPayload (F := F) current.status a.target (strip a.reason)).wf = true := by
        have hnames : [txt "from_status", txt "to_status", txt "reason"].Nodup := by decide
        refine Value.wf_dict.2 ⟨hnames, ?_⟩
        simp only [List.forall_mem_cons, List.not_mem_nil, false_imp_iff, implies_true, and_true]
        exact ⟨rfl, rfl, rfl⟩
      refine h.next hrows hrow hread (hclear current hcurrent) hpayload hitem (by decide)
        (b := a.target) (fun n hn f ht hp => ?_) (transitionSets a.target) (fun relative ix hix => ?_)
        rfl rfl rfl (.inl rfl) injector
      · refine .transition hn ((keyOf_envelope f _).trans ht) ?_ ?_ hallowed
        · rw [keyOf_envelope, hp]
          rfl
        · rw [keyOf_envelope, hp]
          rfl
      · obtain ⟨r, ht⟩ := hrows.tracks row hrow
        obtain ⟨_, _, hrunId, -⟩ := ht.run hread
        rw [hrunId.runId, ht.owner_eq hx his]
        rw [hproject, transitionProjection] at hix
        obtain ⟨inserted, hinserted, hix⟩ := bind_eq_ok.1 hix
        obtain ⟨runs, hruns, hix⟩ := bind_eq_ok.1 hix
        cases hix
        rw [← runs_of_insertEvidenceRecord hinserted]
        exact sql_eq_ok.1 hruns

/-! ## Persisting a Snapshot -/

/-- What persisting a Snapshot publishes and projects. -/
theorem persistPlan_eq_ok {w : World F} {depth : Nat} {s : Snapshot F} {stamp : Stamp} {p : Publication.Plan F}
    (h : persistPlan w depth s stamp = .ok p) : ∃ run payload, getRun w.index (s.field .runId) = .ok run ∧
      snapshotPayload s = .ok payload ∧
      evidence run (txt "filesystem.snapshot") payload s.evidenceVersion stamp = .ok p.item ∧
      p.project = persistProjection w.index s run.runId p.item := by
  rw [persistPlan] at h
  obtain ⟨o, ho, h⟩ := bind_eq_ok.1 h
  cases o with
  | none => cases h
  | some row =>
    obtain ⟨run, hrun, h⟩ := bind_eq_ok.1 h
    obtain ⟨payload, hpayload, h⟩ := bind_eq_ok.1 h
    obtain ⟨item, hitem, h⟩ := bind_eq_ok.1 h
    obtain ⟨validation, -, h⟩ := bind_eq_ok.1 h
    split at h
    · cases h
    · obtain ⟨errors, -, h⟩ := bind_eq_ok.1 h
      split at h
      · cases h
      · cases h
        refine ⟨run, payload, ?_, hpayload, hitem, rfl⟩
        rw [getRun, ho]
        exact hrun

theorem runs_of_insertSnapshotIndexRows {ix ix' : Index F} {s : Snapshot F} {id path : Value F}
    (h : insertSnapshotIndexRows ix s id path = .ok ix') : ix'.runs = ix.runs := by
  rw [insertSnapshotIndexRows] at h
  obtain ⟨vals, -, h⟩ := bind_eq_ok.1 h
  obtain ⟨snapshots, -, h⟩ := bind_eq_ok.1 h
  obtain ⟨_, -, h⟩ := bind_eq_ok.1 h
  obtain ⟨_, -, h⟩ := bind_eq_ok.1 h
  obtain ⟨rows, -, h⟩ := bind_eq_ok.1 h
  obtain ⟨entries, -, h⟩ := bind_eq_ok.1 h
  cases h
  rfl

/-- A clear Snapshot keeps the invariant. -/
theorem Ledgers.persist {w : World F} {ledger : Text → List (Text × Document F)} (h : Ledgers w.corpus ledger)
    (hrows : RowsTrack w.index ledger) (depth : Nat) {s : Snapshot F} (hwf : s.Wf) (stamp : Stamp)
    (hclear : (Operation.persist depth s hwf stamp).Clear w) (injector : Option FaultInjector) :
    ∃ ledger', Ledgers (Steward.persist injector depth w s stamp).2.corpus ledger' ∧
      RowsTrack (Steward.persist injector depth w s stamp).2.index ledger' := by
  unfold Steward.persist
  cases hplan : persistPlan w depth s stamp with
  | error e => exact ⟨ledger, h, hrows⟩
  | ok p =>
    obtain ⟨run, payload, hrun, hpayload, hitem, hproject⟩ := persistPlan_eq_ok hplan
    obtain ⟨row, hrow, hread, -⟩ := getRun_eq_ok hrun
    refine h.next hrows hrow hread (hclear run hrun) (wf_snapshotPayload hwf hpayload) hitem (by decide)
      (b := run.status) (fun n hn f ht _ => ?_) persistSets (fun relative ix hix => ?_)
      rfl rfl rfl (.inr ⟨rfl, rfl⟩) injector
    · refine .other hn fun he => ?_
      rw [keyOf_envelope, ht] at he
      exact absurd (Value.str.inj he) (by decide)
    · rw [hproject, persistProjection] at hix
      obtain ⟨inserted, hinserted, hix⟩ := bind_eq_ok.1 hix
      obtain ⟨runs, hruns, hix⟩ := bind_eq_ok.1 hix
      rw [runs_of_insertSnapshotIndexRows hix, ← runs_of_insertEvidenceRecord hinserted]
      exact sql_eq_ok.1 hruns

/-! ## Runs of operations -/

/-- One clear operation keeps the invariant, whatever its faults. -/
theorem Ledgers.step {w : World F} {ledger : Text → List (Text × Document F)} (h : Ledgers w.corpus ledger)
    (hrows : RowsTrack w.index ledger) (op : Operation F) (hclear : op.Clear w) (injector : Option FaultInjector) :
    ∃ ledger', Ledgers (op.run injector w).corpus ledger' ∧ RowsTrack (op.run injector w).index ledger' := by
  cases op with
  | create a => exact h.create hrows a injector
  | transition a => exact h.transition hrows a hclear injector
  | persist depth s wf stamp => exact h.persist hrows depth wf stamp hclear injector

theorem ledgers_empty : Ledgers (World.empty : World F).corpus fun _ => [] where
  absent _ _ := rfl
  present r dir h := by cases h
  chain _ := ⟨.created, .none, .start⟩

theorem rowsTrack_empty : RowsTrack (World.empty : World F).index fun _ => [] :=
  ⟨List.forall_mem_nil _, .nil⟩

/-- Clear operations keep the invariant. -/
theorem Ledgers.after {w : World F} {ledger : Text → List (Text × Document F)} (h : Ledgers w.corpus ledger)
    (hrows : RowsTrack w.index ledger) {steps : List (Option FaultInjector × Operation F)} (hclear : AllClear w steps) :
    ∃ ledger', Ledgers (w.after steps).corpus ledger' ∧ RowsTrack (w.after steps).index ledger' := by
  induction steps generalizing w ledger with
  | nil => exact ⟨ledger, h, hrows⟩
  | cons step steps ih =>
    obtain ⟨hnow, hlater⟩ := hclear
    obtain ⟨ledger', h', hrows'⟩ := h.step hrows step.2 hnow step.1
    exact ih h' hrows' hlater

/-- Two files with one number are no chain. -/
theorem not_unforked {c : Corpus F} {runId m₁ m₂ : Text} {x y : Content F} {dir : RunDir F}
    (hdir : (c.dir? runId) = some dir) {n : Nat} {t₁ t₂ : Text} (h₁ : filename n t₁ = .ok m₁)
    (h₂ : filename n t₂ = .ok m₂) (hne : m₁ ≠ m₂) (hx : dir.find m₁ = some (.file x))
    (hy : dir.find m₂ = some (.file y)) : ¬ Unforked c runId := by
  intro h
  obtain ⟨files, status, last, hchain, hperm⟩ := h dir hdir
  have hmember {name : Text} {node : Node F} (hn : dir.find name = some node) : ∃ d, (name, d) ∈ files := by
    obtain ⟨f, hf, he⟩ := List.mem_map.1 (hperm.mem_iff.1 (Directory.find_eq_some.1 hn))
    cases he
    exact ⟨f.2, hf⟩
  have hnumber {name : Text} {d : Document F} (hd : (name, d) ∈ files) {t : Text}
      (hname : filename n t = .ok name) : keyOf d.value EnvelopeKey.sequence = .int n := by
    obtain ⟨m, previous, -, -, hrec⟩ := hchain.record hd
    obtain ⟨t', -, hname'⟩ := hrec.named
    rw [hrec.sequence, (filename_inj hname' hname).1]
  obtain ⟨d₁, hd₁⟩ := hmember hx
  obtain ⟨d₂, hd₂⟩ := hmember hy
  exact hne (congrArg Prod.fst (hchain.unique hd₁ hd₂ (hnumber hd₁ h₁) (hnumber hd₂ h₂)))

/-! ## Plans that go through -/

/-- An item whose fields are strict JSON is built. -/
theorem evidence_of_safe {run : RunRecord F} {t : Text} {payload n : Value F} {v : Int} {stamp : Stamp}
    (hn : successor run.lastSequence = .ok n)
    (hsafe : ∀ k ∈ EnvelopeKey.unsealed, (evidenceField run t payload v stamp n .none k).safe = true) :
    ∃ item, evidence run t payload v stamp = .ok item := by
  have hdigest : digest (record Named.name EnvelopeKey.unsealed (evidenceField run t payload v stamp n .none)) =
      .ok (sealOf (evidenceField run t payload v stamp n .none)) := by
    rw [digest, without_unsealed]
    exact digestOf_eq_ok.2 ⟨safe_record hsafe, rfl⟩
  rw [evidence, hn]
  simp only [py_ok, ok_bind_ok, hdigest]
  exact ⟨_, rfl⟩

section
variable {w : World F} {p : Publication.Plan F} {f : EnvelopeKey → Value F} {runId type name : Text} {n : Int}
  (hitem : p.item = envelope f) (hf : Sealed f) (hwf : (Value.dict (envelope f)).wf = true)
  (hr : f .runId = .str runId) (hs : f .sequence = .int n) (ht : f .evidenceType = .str type)
  (hn : filename n type = .ok name) (hfree : ((w.corpus.dir? runId).bind (·.find name)).isSome = false)
include hitem hf hr hs ht hn hfree

/-- A free name is written, whatever stops the operation afterwards. -/
theorem publish_writes {i : Option FaultInjector} (hbefore : checkpoint i p.operation .beforeEvidencePublish = .ok ()) :
    (publish i w p).2.corpus = w.corpus.put runId name (.json (written f hwf)) := by
  have hwrite := writeEvidence_envelope hf hwf w.corpus hr hs ht hn
  rw [← hitem, if_neg (by rw [hfree]; exact Bool.false_ne_true)] at hwrite
  unfold publish
  simp only [hbefore, hwrite]
  split <;> rfl

/-- Without faults the projection is committed too. -/
theorem publish_commits {ix : Index F} (hproject : p.project (evidencePath runId name) = .ok ix) :
    publish none w p = (.ok (), ⟨w.corpus.put runId name (.json (written f hwf)), ix⟩) := by
  have hwrite := writeEvidence_envelope hf hwf w.corpus hr hs ht hn
  rw [← hitem, if_neg (by rw [hfree]; exact Bool.false_ne_true)] at hwrite
  have hnone (stage : Stage) : checkpoint none p.operation stage = .ok () := rfl
  unfold publish
  simp only [hnone, hwrite, ok_bind_ok, hproject]
  rfl

end

/-- A fault after the file leaves the index alone. -/
theorem publish_interrupted {w : World F} {p : Publication.Plan F} {i : Option FaultInjector} {e : Exc}
    (hbefore : checkpoint i p.operation .beforeEvidencePublish = .ok ())
    (hafter : checkpoint i p.operation .afterEvidencePublish = .error e) :
    (publish i w p).2.index = w.index := by
  unfold publish
  simp only [hbefore, hafter]
  cases (writeEvidence w.corpus p.item).1 <;> rfl

/-- A coherent Snapshot of a Run in the index is ready to be published. -/
theorem persistPlan_of_coherent {w : World F} (depth : Nat) {s : Snapshot F} {sid r : Text} {stamp : Stamp}
    (hs : CoherentV1 s sid) (hrun : s.field .runId = .str r) {row : Row RunColumn F}
    (hrow : findRun w.index (.str r) = .ok (some row)) {run : RunRecord F} (hread : runFromRow row = .ok run)
    (hid : run.runId = .str r) {item : List (Text × Value F)}
    (hitem : evidence run (txt "filesystem.snapshot") (payloadV1 s) 1 stamp = .ok item) :
    persistPlan w depth s stamp = .ok ⟨txt "snapshot.persist", item,
      persistProjection w.index s run.runId item⟩ := by
  have hversion : s.evidenceVersion = 1 := by rw [Snapshot.evidenceVersion, hs.v1]; rfl
  obtain ⟨n, d, -, hitemEq, hsealed⟩ := evidence_eq_ok hitem
  have haccepts : Accepts (.dict item) := by
    rw [hitemEq]
    refine accepts_iff.2 (.inl ⟨?_, (publishesV1_envelope hsealed rfl rfl ?_).accepted hs⟩)
    · rw [snapshotEvidenceSchemaVersion, fieldOf_envelope]
      rfl
    · show (s.field .runId).sortKeys.eq run.runId = true
      rw [hrun, hid]
      exact Value.eq_str.2 rfl
  obtain ⟨validation, hvalidation, hvalid⟩ := haccepts
  have hreuse : persistReuseErrors w depth s = .ok [] := by
    rw [persistReuseErrors, hs.v1]
    rfl
  rw [persistPlan, hrun, hrow, ok_bind_ok]
  simp only [hread, py_ok, ok_bind_ok, snapshotPayload_v1 hs.v1 hs.wf hs.safe, hversion, hitem, hvalidation, hvalid,
    hreuse]
  rfl

/-! ## A fork -/

section forked

abbrev forkedRun : Text := txt "11111111-1111-4111-8111-111111111111"

abbrev forkedTime : Text := txt "2026-01-01T00:00:00.000000Z"

def forkedStamp : Stamp := ⟨txt "22222222-2222-4222-8222-222222222222", forkedTime⟩

def forkedCreation : Creation Integral :=
  ⟨[], txt "filesystem.snapshot", none, none, forkedRun, forkedTime, forkedStamp⟩

/-- A scan without entries. -/
def forkedScan : Acquisition Integral where
  snapshotId := txt "s"
  runId := .str forkedRun
  started := forkedTime
  completed := forkedTime
  configDigest := []
  scopeIds := []
  budget _ := .none
  entries := []
  isPartial := false

theorem forked_encodable : forkedRun.encodable = true ∧ forkedTime.encodable = true := by decide

theorem forkedScan_writable : forkedScan.Writable where
  snapshotId := (by decide : (txt "s").encodable = true)
  run := ⟨rfl, forked_encodable.1⟩
  started := by rw [forkedScan]; exact forked_encodable.2
  completed := by rw [forkedScan]; exact forked_encodable.2
  configDigest := rfl
  scopeIds := List.forall_mem_nil _
  budget _ := ⟨rfl, rfl⟩
  entries := List.forall_mem_nil _
  ordered := .nil

def forkedSnapshot : Snapshot Integral := forkedScan.created

theorem forkedSnapshot_eq : ∃ t, forkedSnapshot = forkedScan.snapshot t ∧ CoherentV1 forkedSnapshot (txt "s") :=
  forkedScan_writable.created

theorem forkedSnapshot_wf : forkedSnapshot.Wf := by
  obtain ⟨t, -, hc⟩ := forkedSnapshot_eq
  exact hc.wf

/-- The fault strikes between the file and the index. -/
def afterPublication : FaultInjector := fun _ stage => stage = .afterEvidencePublish

def forkedTransition : Transition := ⟨forkedRun, .scanning, txt "start", forkedStamp⟩

/-- A Run is created, its Snapshot is published but not indexed, and the Run is moved on. -/
def forkedSteps : List (Option FaultInjector × Operation Integral) :=
  [(none, .create forkedCreation),
    (some afterPublication, .persist 1 forkedSnapshot forkedSnapshot_wf forkedStamp),
    (none, .transition forkedTransition)]

/-- The state after the creation. -/
def forkedStart : World Integral := (createRun none .empty forkedCreation).2

theorem forkedPlan : ∃ p, creationPlan .empty forkedCreation = .ok p ∧ p.operation = txt "run.create" ∧
    evidence (forkedCreation.run (.dict [])) (txt "run.created") (creationPayload forkedCreation (.dict [])) 1
      forkedStamp = .ok p.item ∧ p.project = creationProjection .empty forkedCreation (txt "\x7b\x7d") p.item := by
  have hitem : ∃ item, evidence (forkedCreation.run (.dict [])) (txt "run.created")
      (creationPayload forkedCreation (.dict [])) 1 forkedStamp = .ok item := by
    refine evidence_of_safe (n := .int 1) rfl fun k _ => ?_
    cases k <;> decide
  obtain ⟨item, hitem⟩ := hitem
  have hjson : dumpsMetadata (F := Integral) none = some (txt "\x7b\x7d") := by decide
  have hloads : Json.loads (F := Integral) (txt "\x7b\x7d") = some (.dict []) := by rfl
  have hkind : isRunKind forkedCreation.runKind = true := by decide
  have hid : canonicalRunId (F := Integral) forkedCreation.runId = true := by decide
  refine ⟨⟨txt "run.create", item, creationProjection .empty forkedCreation (txt "\x7b\x7d") item⟩, ?_, rfl, hitem, rfl⟩
  have hmetadata : forkedCreation.metadata = none := rfl
  rw [creationPlan, hkind, hmetadata, hjson]
  simp only [hid, hloads]
  show (evidence (forkedCreation.run (.dict [])) (txt "run.created") (creationPayload forkedCreation (.dict [])) 1
    forkedStamp >>= _) = _
  rw [hitem]
  rfl

/-- Text is stored as it is. -/
theorem stored_text {C : Type} {sch : Schema C} {c : C} (hc : sch.affinity c = .text) {t : Text}
    (ht : t.encodable = true) :
    Bindable (.str t : Value F) = true ∧ (sch.cell c (.str t : Value F)).isNull = false := by
  rw [sch.cell_str hc ht]
  exact ⟨ht, rfl⟩

section
variable {item : List (Text × Value Integral)} {d relative : Text} (hd : d.encodable = true)
  (hcreated : fieldOf item EnvelopeKey.createdAt = .str forkedTime)
  (hdigest : fieldOf item EnvelopeKey.evidenceDigest = .str d)
include hd hcreated hdigest

/-- The new row of `runs`. -/
theorem forked_run_row : runSchema.insert [] (creationRow forkedCreation (txt "\x7b\x7d") item) =
    .ok [fun c => runSchema.cell c (creationRow forkedCreation (txt "\x7b\x7d") item c)] := by
  have htexts : (txt "filesystem.snapshot").encodable = true ∧ (txt "\x7b\x7d").encodable = true := by decide
  refine runSchema.insert_eq_ok.2 ⟨_, runSchema.write_eq_ok.2 ⟨fun c => ?_, fun c hc => ?_, rfl⟩,
    List.forall_mem_nil _, rfl⟩
  · cases c
    case runId => exact forked_encodable.1
    case runKind => exact htexts.1
    case status => exact Named.encodable RunStatus.created
    case createdAt | updatedAt => rw [creationRow, hcreated]; exact forked_encodable.2
    case metadataJson => exact htexts.2
    case lastEvidenceDigest => rw [creationRow, hdigest]; exact hd
    all_goals rfl
  · cases c
    case runId | lastEvidenceDigest => cases hc
    case runKind => exact (stored_text rfl htexts.1).2
    case status => exact (stored_text rfl (Named.encodable RunStatus.created)).2
    case createdAt | updatedAt => rw [creationRow, hcreated]; exact (stored_text rfl forked_encodable.2).2
    case configDigest => exact (stored_text rfl rfl).2
    case metadataJson => exact (stored_text rfl htexts.2).2
    all_goals rfl

/-- The index of the new Run. -/
theorem forked_projection (hid : fieldOf item EnvelopeKey.evidenceId = .str forkedStamp.evidenceId)
    (htype : fieldOf item EnvelopeKey.evidenceType = lit "run.created") (hrelative : relative.encodable = true) :
    ∃ ix, creationProjection .empty forkedCreation (txt "\x7b\x7d") item relative = .ok ix ∧
      ix.runs = [fun c => runSchema.cell c (creationRow forkedCreation (txt "\x7b\x7d") item c)] := by
  have htexts : forkedStamp.evidenceId.encodable = true ∧ (txt "run.created").encodable = true := by decide
  have hrecord : ∃ rows, evidenceSchema.insert [] (evidenceRow item (.str forkedRun) (.int 1) .none 1 relative) =
      .ok rows := by
    refine ⟨_, evidenceSchema.insert_eq_ok.2 ⟨_, evidenceSchema.write_eq_ok.2 ⟨fun c => ?_, fun c hc => ?_, rfl⟩,
      List.forall_mem_nil _, rfl⟩⟩
    · cases c
      case evidenceId => rw [evidenceRow, hid]; exact htexts.1
      case runId => exact forked_encodable.1
      case evidenceType => rw [evidenceRow, htype]; exact htexts.2
      case createdAt => rw [evidenceRow, hcreated]; exact forked_encodable.2
      case relativePath => exact hrelative
      case evidenceDigest => rw [evidenceRow, hdigest]; exact hd
      all_goals rfl
    · cases c
      case evidenceId | previousEvidenceDigest => cases hc
      case runId => exact (stored_text rfl forked_encodable.1).2
      case evidenceType => rw [evidenceRow, htype]; exact (stored_text rfl htexts.2).2
      case createdAt => rw [evidenceRow, hcreated]; exact (stored_text rfl forked_encodable.2).2
      case relativePath => exact (stored_text rfl hrelative).2
      case evidenceDigest => rw [evidenceRow, hdigest]; exact (stored_text rfl hd).2
      all_goals rfl
  obtain ⟨rows, hrows⟩ := hrecord
  have hreference : requireReference (evidenceSchema.cell .runId (.str forkedRun : Value Integral))
      [runSchema.cell .runId (creationRow forkedCreation (txt "\x7b\x7d") item .runId)] = .ok () := by
    have howner : runSchema.cell .runId (creationRow forkedCreation (txt "\x7b\x7d") item .runId) = .text forkedRun :=
      runSchema.cell_str rfl forked_encodable.1
    rw [howner, evidenceSchema.cell_str rfl forked_encodable.1]
    decide
  rw [creationProjection, show (Index.empty : Index Integral).runs = [] from rfl, forked_run_row hd hcreated hdigest]
  refine ⟨⟨[fun c => runSchema.cell c (creationRow forkedCreation (txt "\x7b\x7d") item c)], rows, [], []⟩,
    bind_eq_ok.2 ⟨_, rfl, ?_⟩, rfl⟩
  rw [insertEvidenceRecord]
  exact bind_eq_ok.2 ⟨rows, sql_eq_ok.2 hrows, bind_eq_ok.2 ⟨(), sql_eq_ok.2 hreference, rfl⟩⟩

end

/-- What the index says of the Run after its creation. -/
structure ForkedStart (w : World Integral) (run : RunRecord Integral) : Prop where
  found : ∃ row, findRun w.index (.str forkedRun) = .ok (some row) ∧ runFromRow row = .ok run
  runId : run.runId = .str forkedRun
  status : run.status = .created
  sequence : run.lastSequence = .int 1
  config : run.configDigest = .str []
  digest : ∃ d, run.lastEvidenceDigest = .str d ∧ d.encodable = true

theorem createRun_of_plan {c : Corpus Integral} {i : Index Integral} {injector : Option FaultInjector}
    {a : Creation Integral} {p : Publication.Plan Integral} (h : creationPlan i a = .ok p) :
    (createRun injector ⟨c, i⟩ a).2 = (publish injector ⟨c, i⟩ p).2 := by rw [createRun, h]

theorem forked_start : (∀ name, name ≠ txt "00000001_run.created.json" →
    ((forkedStart.corpus.dir? forkedRun).bind (·.find name)).isSome = false) ∧ ∃ run, ForkedStart forkedStart run := by
  obtain ⟨p, hplan, -, hitem, hproject⟩ := forkedPlan
  obtain ⟨n, d, hn, hitemEq, hsealed⟩ := evidence_eq_ok hitem
  have hone : n = .int 1 := (Except.ok.inj hn).symm
  subst hone
  set f := evidenceField (forkedCreation.run (.dict [])) (txt "run.created")
    (creationPayload forkedCreation (.dict [])) 1 forkedStamp (.int 1) d with hf
  have hdigest : d = .str (sealOf f) := hsealed.digest
  have hwf : (Value.dict (envelope f)).wf = true := by
    refine wf_record Named.nodup fun k => ?_
    cases k
    case payload =>
      show (creationPayload forkedCreation (.dict [])).wf = true
      decide
    case evidenceDigest => show d.wf = true; rw [hdigest]; rfl
    all_goals rfl
  have hname : filename 1 (txt "run.created") = .ok (txt "00000001_run.created.json") := by decide
  have hpath : (evidencePath forkedRun (txt "00000001_run.created.json")).encodable = true := by decide
  have hfield (k : EnvelopeKey) : fieldOf p.item k = f k := by rw [hitemEq, fieldOf_envelope]
  obtain ⟨ix, hix, hruns⟩ := forked_projection (sha_encodable _)
    (hfield .createdAt) ((hfield .evidenceDigest).trans hdigest) (hfield .evidenceId) (hfield .evidenceType) hpath
  rw [← hproject] at hix
  have hpublish := publish_commits hitemEq hsealed hwf rfl rfl rfl hname (w := World.empty) rfl hix
  have hstart : forkedStart = ⟨(World.empty : World Integral).corpus.put forkedRun (txt "00000001_run.created.json")
      (.json (written f hwf)), ix⟩ := by
    rw [forkedStart, World.empty, createRun_of_plan hplan]
    exact congrArg Prod.snd hpublish
  refine ⟨fun name hne => ?_, ?_⟩
  · rw [hstart, Corpus.dir?_put, if_pos rfl, Option.bind_some, Directory.find_insert_of_ne _ hne]
    rfl
  · set row : Row RunColumn Integral := fun c => runSchema.cell c (creationRow forkedCreation (txt "\x7b\x7d") p.item c)
    have htexts : (txt "filesystem.snapshot").encodable = true ∧ (txt "\x7b\x7d").encodable = true := by decide
    have howner : row .runId = .text forkedRun := runSchema.cell_str rfl forked_encodable.1
    have hstatus : row .status = .text (Named.name RunStatus.created) :=
      runSchema.cell_str rfl (Named.encodable RunStatus.created)
    have hmetadata : row .metadataJson = .text (txt "\x7b\x7d") := runSchema.cell_str rfl htexts.2
    have hlast : row .lastEvidenceDigest = .text (sealOf f) := by
      show runSchema.cell .lastEvidenceDigest (fieldOf p.item EnvelopeKey.evidenceDigest) = _
      rw [hfield, show f .evidenceDigest = .str (sealOf f) from hsealed.digest]
      exact runSchema.cell_str rfl (sha_encodable _)
    have hsequence : row .lastSequence = .integer 1 := runSchema.cell_of_stored (stored_int rfl)
    have hconfig : row .configDigest = .text [] := runSchema.cell_str rfl rfl
    have hread : runFromRow row = .ok ⟨.str forkedRun, (row .runKind).toValue, .created, (row .createdAt).toValue,
        (row .updatedAt).toValue, .str [], .dict [], .int 1, .str (sealOf f), (row .terminal).toValue.truthy⟩ := by
      rw [runFromRow, howner, hstatus, hmetadata, hlast, hsequence, hconfig]
      rfl
    rw [hstart]
    exact ⟨_, ⟨row, findRun_of_single hruns howner forked_encodable.1, hread⟩, rfl, rfl, rfl, rfl, _, rfl,
      sha_encodable _⟩

/-- The Run is ready for any second record. -/
theorem ForkedStart.second {w : World Integral} {run : RunRecord Integral} (h : ForkedStart w run) (type : Text)
    {payload : Value Integral} (ht : type.encodable = true) (hp : payload.safe = true) (hw : payload.wf = true) :
    ∃ item d, evidence run type payload 1 forkedStamp = .ok item ∧
      item = envelope (evidenceField run type payload 1 forkedStamp (.int 2) d) ∧
      Sealed (evidenceField run type payload 1 forkedStamp (.int 2) d) ∧
      (Value.dict (envelope (evidenceField run type payload 1 forkedStamp (.int 2) d))).wf = true := by
  obtain ⟨last, hlast, henc⟩ := h.digest
  have hstamp : forkedStamp.evidenceId.encodable = true ∧ (txt "0.1.0").encodable = true := by decide
  have hsucc : successor run.lastSequence = .ok (.int 2) := by rw [h.sequence]; rfl
  obtain ⟨item, hitem⟩ : ∃ item, evidence run type payload 1 forkedStamp = .ok item := evidence_of_safe hsucc
    fun k hk => by
      cases k
      case evidenceId => exact hstamp.1
      case evidenceType => exact ht
      case runId => rw [evidenceField, h.runId]; exact forked_encodable.1
      case createdAt => exact forked_encodable.2
      case toolVersion => exact hstamp.2
      case configDigest => rw [evidenceField, h.config]; rfl
      case previousEvidenceDigest => rw [evidenceField, hlast]; exact henc
      case payload => exact hp
      all_goals rfl
  obtain ⟨n, d, hn, hitemEq, hsealed⟩ := evidence_eq_ok hitem
  rw [hsucc] at hn
  cases hn
  refine ⟨item, d, hitem, hitemEq, hsealed, wf_record Named.nodup fun k => ?_⟩
  cases k
  case runId => rw [evidenceField, h.runId]; rfl
  case configDigest => rw [evidenceField, h.config]; rfl
  case previousEvidenceDigest => rw [evidenceField, hlast]; rfl
  case payload => exact hw
  case evidenceDigest => rw [show d = .str _ from hsealed.digest]; rfl
  all_goals rfl

/-- The interrupted Snapshot leaves its file and the old index. -/
theorem forked_snapshot : ∃ x, (persist (some afterPublication) 1 forkedStart forkedSnapshot forkedStamp).2 =
    ⟨forkedStart.corpus.put forkedRun (txt "00000002_filesystem.snapshot.json") x, forkedStart.index⟩ := by
  obtain ⟨hfree, run, hstart⟩ := forked_start
  obtain ⟨row, hrow, hread⟩ := hstart.found
  obtain ⟨t, ht, hc⟩ := forkedSnapshot_eq
  have hpayload := wf_snapshotPayload forkedSnapshot_wf (snapshotPayload_v1 hc.v1 hc.wf hc.safe)
  obtain ⟨item, d, hitem, hitemEq, hsealed, hwf⟩ := hstart.second (txt "filesystem.snapshot")
    (by decide) (safe_payloadV1 hc) hpayload
  have hplan := persistPlan_of_coherent 1 hc (by rw [ht]; rfl) hrow hread hstart.runId hitem
  have hname : filename 2 (txt "filesystem.snapshot") = .ok (txt "00000002_filesystem.snapshot.json") := by
    decide
  have hrun : evidenceField run (txt "filesystem.snapshot") (payloadV1 forkedSnapshot) 1 forkedStamp (.int 2) d .runId =
      .str forkedRun := hstart.runId
  rw [persist, hplan]
  have hcorpus := publish_writes (i := some afterPublication) hitemEq hsealed hwf hrun rfl rfl hname
    (hfree _ (by decide)) rfl
    (p := ⟨txt "snapshot.persist", item, persistProjection forkedStart.index forkedSnapshot run.runId item⟩)
  have hindex := publish_interrupted (w := forkedStart) (i := some afterPublication) rfl rfl
    (p := ⟨txt "snapshot.persist", item, persistProjection forkedStart.index forkedSnapshot run.runId item⟩)
  exact ⟨_, congrArg₂ World.mk hcorpus hindex⟩

theorem transitionRun_of_plan {c : Corpus Integral} {i : Index Integral} {injector : Option FaultInjector}
    {a : Transition} {current : RunRecord Integral} {p : Publication.Plan Integral}
    (h : transitionPlan i a = .ok (current, some p)) :
    (transitionRun injector ⟨c, i⟩ a).2 = (publish injector ⟨c, i⟩ p).2 := by rw [transitionRun, h]

/-- The transition then writes a second file with the same number. -/
theorem forked_transition {c : Corpus Integral}
    (hc : ((c.dir? forkedRun).bind (·.find (txt "00000002_run.state_transition.json"))).isSome = false) :
    ∃ x, (transitionRun none ⟨c, forkedStart.index⟩ forkedTransition).2.corpus =
      c.put forkedRun (txt "00000002_run.state_transition.json") x := by
  obtain ⟨-, run, hstart⟩ := forked_start
  obtain ⟨row, hrow, hread⟩ := hstart.found
  have hpayload : (transitionPayload (F := Integral) .created .scanning (txt "start")).safe = true ∧
      (transitionPayload (F := Integral) .created .scanning (txt "start")).wf = true := by decide
  obtain ⟨item, d, hitem, hitemEq, hsealed, hwf⟩ := hstart.second (txt "run.state_transition")
    (by decide) hpayload.1 hpayload.2
  have hplan : transitionPlan forkedStart.index forkedTransition = .ok (run, some ⟨txt "run.transition." ++
      Named.name RunStatus.scanning, item, transitionProjection forkedStart.index forkedTransition item⟩) := by
    have hstrip : strip forkedTransition.reason = txt "start" := by decide
    have hget : getRun forkedStart.index (.str forkedTransition.runId) = .ok run := by
      show getRun forkedStart.index (.str forkedRun) = .ok run
      rw [getRun, hrow]
      exact py_eq_ok.2 hread
    have hallowed : validateTransition run.status forkedTransition.target = .ok () := by
      rw [hstart.status]
      rfl
    have hreason : ¬(txt "start" = [] || 1000 < (txt "start").length) = true := by decide
    have hactive : ¬(run.status = .cancelled && forkedTransition.target = .cancelled) = true := by
      rw [hstart.status]
      decide
    unfold transitionPlan
    dsimp only
    rw [hstrip, if_neg hreason, hget]
    show (if (run.status = .cancelled && forkedTransition.target = .cancelled) = true then _ else _) = _
    rw [if_neg hactive, hallowed, hstart.status]
    show (evidence run (txt "run.state_transition") (transitionPayload .created .scanning (txt "start")) 1
      forkedStamp >>= _) = _
    rw [hitem]
    rfl
  have hname : filename 2 (txt "run.state_transition") = .ok (txt "00000002_run.state_transition.json") := by
    decide
  have hrun : evidenceField run (txt "run.state_transition") (transitionPayload .created .scanning (txt "start")) 1
      forkedStamp (.int 2) d .runId = .str forkedRun := hstart.runId
  rw [transitionRun_of_plan hplan]
  exact ⟨_, publish_writes hitemEq hsealed hwf hrun rfl rfl hname hc rfl⟩

theorem forked_after : World.empty.after forkedSteps = (transitionRun none (persist (some afterPublication) 1
    forkedStart forkedSnapshot forkedStamp).2 forkedTransition).2 := by
  rw [forkedSteps, World.after_cons, World.after_cons, World.after_cons, Operation.run_create,
    Operation.run_persist, Operation.run_transition, World.after, List.foldl_nil, forkedStart]

end forked

/-! ## Ledgers do not fork while operations are clear -/

/-- After clear operations every row has a status that the state machine reaches. -/
theorem row_status_legal {steps : List (Option FaultInjector × Operation F)} (h : AllClear .empty steps) :
    ∀ row ∈ (World.empty.after steps).index.runs, ∃ status path,
      row .status = .text (Named.name status) ∧ LegalPath .created path status := by
  intro row hrow
  obtain ⟨ledger, -, hrows⟩ := ledgers_empty.after rowsTrack_empty h
  obtain ⟨r, hr⟩ := hrows.tracks row hrow
  obtain ⟨earlier, status, last, hchain, -, -, hstatus, -⟩ := hr.position
  obtain ⟨path, hpath⟩ := hchain.legal
  exact ⟨status, path, hstatus, hpath⟩

end Steward
