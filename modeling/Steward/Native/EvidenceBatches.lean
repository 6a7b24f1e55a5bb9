import Mathlib.Data.List.Enum
import Steward.Native.EvidenceSet
import Steward.Sqlite.Integral

/-!
# The batches of an evidence set

Whatever revalidation and inspection do, the calls that follow the continuations
visit the planned candidates once each and in order. The characters of a call
keep to the request or to the floor of 512 for each document. A continuation is
accepted for the request facts and the candidates that it was issued for.
-/

namespace Steward.Native

open Py Sqlite

variable {F σ : Type} [SqliteFloat F]

section Batches

variable {unicode : Unicode} {inspector : Inspector F σ} {request : CollectionRequest F}
  {plan : DocumentPlan}

/-! ## One batch -/

/-- The candidate of an item and its place in the plan. -/
def CollectionItem.place (item : CollectionItem F) : DocumentCandidate × Nat :=
  (item.candidate, item.index)

theorem inspectedItem_place {index : Nat} {candidate : DocumentCandidate}
    {identity : CurrentDocumentIdentity} {page : InspectedPage F} {item : CollectionItem F}
    (h : inspectedItem inspector request index candidate identity page = .ok item) :
    item.place = (candidate, index) := by
  obtain ⟨packet, -, h⟩ := bind_eq_ok.1 h
  obtain ⟨status, -, h⟩ := bind_eq_ok.1 h
  obtain ⟨diagnostics, -, h⟩ := bind_eq_ok.1 h
  rw [← pure_eq_ok.1 h]
  rfl

/-- A candidate has its item, whatever is raised. -/
theorem processCandidate_place (allocated : Int) (index : Nat) (candidate : DocumentCandidate) (env : σ) :
    (processCandidate inspector request allocated index candidate env).1.place = (candidate, index) := by
  unfold processCandidate
  split
  · rfl
  · split
    · rfl
    · split
      · rfl
      · next h => exact inspectedItem_place h

theorem processBatch_places (allocated : Int) (index : Nat) (candidates : List DocumentCandidate) (env : σ) :
    (processBatch inspector request allocated index candidates env).1.map CollectionItem.place =
      candidates.zipIdx index := by
  induction candidates generalizing index env with
  | nil => rfl
  | cons candidate candidates ih =>
    simp only [processBatch, List.map_cons, List.zipIdx_cons, processCandidate_place, ih]

theorem processBatch_length (allocated : Int) (index : Nat) (candidates : List DocumentCandidate) (env : σ) :
    (processBatch inspector request allocated index candidates env).1.length = candidates.length := by
  have h : ((processBatch inspector request allocated index candidates env).1.map
      CollectionItem.place).length = (candidates.zipIdx index).length :=
    congrArg List.length (processBatch_places allocated index candidates env)
  simpa using h

omit [SqliteFloat F] in
/-- Every item has one of the three statuses. -/
theorem countStatus_sum (items : List (CollectionItem F)) :
    countStatus items .complete + countStatus items .noEvidence + countStatus items .failed =
      items.length := by
  induction items with
  | nil => rfl
  | cons item items ih =>
    unfold countStatus at ih ⊢
    cases h : item.status <;> simp [h] <;> omega

/-- The documents of a call share the budget, or the floor. -/
theorem allocatedCharacters_mul_le (characters : Int) (documents : Nat) :
    allocatedCharacters characters documents * documents ≤ max characters (512 * documents) := by
  rcases Nat.eq_zero_or_pos documents with rfl | hpos
  · simp
  · have hmax : max 1 documents = documents := max_eq_right hpos
    have hshare : characters / (documents : Int) * documents ≤ characters :=
      Int.ediv_mul_le _ (by omega)
    unfold allocatedCharacters
    rw [hmax]
    rcases le_total 512 (characters / (documents : Int)) with hle | hle
    · rw [max_eq_right hle]
      exact hshare.trans (le_max_left _ _)
    · rw [max_eq_left hle]
      exact le_max_right _ _

/-- What holds of the result of a call. -/
structure Fair (request : CollectionRequest F) (collection : EvidenceCollection F) : Prop where
  processed : collection.counts.processed = collection.items.length
  batch : collection.items.length ≤ request.batchSize
  statuses : collection.counts.complete + collection.counts.noEvidence + collection.counts.failed =
    collection.counts.processed
  characters : collection.allocatedCharacters * collection.items.length ≤
    max request.evidenceMaxCharacters (512 * collection.items.length)

/-- What a call returns that starts at a place of the plan. -/
structure Batch (request : CollectionRequest F) (plan : DocumentPlan) (requestDigest setDigest : Text)
    (start : Nat) (collection : EvidenceCollection F) : Prop where
  start_eq : collection.start = start
  places : collection.items.map CollectionItem.place =
    ((plan.candidates.drop start).take request.batchSize).zipIdx start
  continuation_eq : collection.continuation =
    if start + request.batchSize < plan.candidates.length then
      some ⟨requestDigest, setDigest, start + request.batchSize⟩ else none
  allocated : collection.allocatedCharacters =
    allocatedCharacters request.evidenceMaxCharacters collection.items.length
  fair : Fair request collection

/-- Once the digests are there and the start is admitted, a call returns its batch. -/
theorem documentEvidenceSet_batch {requestDigest setDigest : Text} {start : Nat}
    {continuation : Value F} (hset : candidateSetDigest F plan = .ok setDigest)
    (hrequest : documentCollectionRequestDigest unicode request plan = .ok requestDigest)
    (hstart : startIndex requestDigest setDigest plan.candidates.length continuation = .ok start)
    (env : σ) :
    ∃ collection env', documentEvidenceSet unicode inspector request plan continuation env =
        (.ok collection, env') ∧ Batch request plan requestDigest setDigest start collection := by
  have htake : (plan.candidates.drop start).take
      (min (start + request.batchSize) plan.candidates.length - start) =
      (plan.candidates.drop start).take request.batchSize := by
    rw [List.take_eq_take_iff, List.length_drop]
    omega
  have hlen : ((plan.candidates.drop start).take request.batchSize).length =
      min (start + request.batchSize) plan.candidates.length - start := by
    rw [List.length_take, List.length_drop]
    omega
  have hnext : (if min (start + request.batchSize) plan.candidates.length < plan.candidates.length then
      some (⟨requestDigest, setDigest, min (start + request.batchSize) plan.candidates.length⟩ :
        CollectionContinuation) else none) =
      if start + request.batchSize < plan.candidates.length then
        some ⟨requestDigest, setDigest, start + request.batchSize⟩ else none := by
    by_cases hlt : start + request.batchSize < plan.candidates.length
    · rw [min_eq_left hlt.le]
    · rw [min_eq_right (not_lt.1 hlt), if_neg (lt_irrefl _), if_neg hlt]
  unfold documentEvidenceSet
  simp only [hset, hrequest, hstart, ok_bind_ok]
  refine ⟨_, _, rfl, rfl, (processBatch_places _ _ _ _).trans (by rw [htake]), hnext, ?_, rfl, ?_,
    countStatus_sum _, ?_⟩
  · rw [processBatch_length, htake, hlen]
  · rw [processBatch_length, htake, List.length_take]
    exact min_le_left _ _
  · rw [processBatch_length, htake, hlen]
    exact allocatedCharacters_mul_le _ _

/-! ## Following the continuations -/

omit [SqliteFloat F] in
/-- A published continuation starts a batch if it carries the digests of the call. -/
theorem startIndex_machineObject (requestDigest setDigest : Text) (planned : Nat)
    (c : CollectionContinuation) :
    startIndex requestDigest setDigest planned (c.machineObject : Value F) =
      if c.requestDigest = requestDigest ∧ c.candidateSetDigest = setDigest ∧ c.nextIndex < planned then
        .ok c.nextIndex else .error (.python .valueError) := by
  have hindex : Value.get (F := F) [(txt "request_digest", .str c.requestDigest),
      (txt "candidate_set_digest", .str c.candidateSetDigest), (txt "next_index", .int c.nextIndex)]
      (txt "next_index") = .int c.nextIndex := rfl
  have hrequest : Value.get (F := F) [(txt "request_digest", .str c.requestDigest),
      (txt "candidate_set_digest", .str c.candidateSetDigest), (txt "next_index", .int c.nextIndex)]
      (txt "request_digest") = .str c.requestDigest := rfl
  have hset : Value.get (F := F) [(txt "request_digest", .str c.requestDigest),
      (txt "candidate_set_digest", .str c.candidateSetDigest), (txt "next_index", .int c.nextIndex)]
      (txt "candidate_set_digest") = .str c.candidateSetDigest := rfl
  unfold CollectionContinuation.machineObject startIndex
  simp only [hindex, hrequest, hset, isStr, decide_eq_true_eq]
  have hbounds : (0 ≤ (c.nextIndex : Int) ∧ (c.nextIndex : Int) < planned) ↔ c.nextIndex < planned := by
    omega
  exact if_congr (and_congr_right' (and_congr_right' hbounds)) rfl rfl

/-- The calls from a place of the plan on visit what is left, in order, and end. -/
theorem follow_batches {requestDigest setDigest : Text} (hset : candidateSetDigest F plan = .ok setDigest)
    (hrequest : documentCollectionRequestDigest unicode request plan = .ok requestDigest)
    {calls start : Nat} {continuation : Value F}
    (hstart : startIndex requestDigest setDigest plan.candidates.length continuation = .ok start)
    (hcalls : plan.candidates.length - start < calls) (env : σ) :
    ∃ collections : List (EvidenceCollection F),
      follow unicode inspector request plan calls continuation env = collections.map .ok ∧
      collections.flatMap (fun c => c.items.map CollectionItem.place) =
        (plan.candidates.drop start).zipIdx start ∧
      (collections.getLast?.map EvidenceCollection.continuation) = some none ∧
      ∀ collection ∈ collections, Fair request collection := by
  induction calls generalizing start continuation env with
  | zero => omega
  | succ calls ih =>
    obtain ⟨collection, env', hcall, hbatch⟩ :
        ∃ collection env', documentEvidenceSet unicode inspector request plan continuation env =
          (.ok collection, env') ∧ Batch request plan requestDigest setDigest start collection :=
      documentEvidenceSet_batch hset hrequest hstart env
    unfold follow
    simp only [hcall]
    have hnext := hbatch.continuation_eq
    by_cases hlt : start + request.batchSize < plan.candidates.length
    · rw [if_pos hlt] at hnext
      have hpos := request.batch_range.1
      have hfewer : plan.candidates.length - (start + request.batchSize) < calls := by omega
      obtain ⟨others, hothers, hplaces, hlast, hfair⟩ :=
        ih ((startIndex_machineObject _ _ _ ⟨requestDigest, setDigest, start + request.batchSize⟩).trans
          (if_pos ⟨rfl, rfl, hlt⟩)) hfewer env'
      refine ⟨collection :: others, by simp only [hnext, hothers, List.map_cons], ?_, ?_, ?_⟩
      · rw [List.flatMap_cons, hplaces, hbatch.places, ← List.drop_drop]
        have hlen : ((plan.candidates.drop start).take request.batchSize).length =
            request.batchSize := by
          rw [List.length_take, List.length_drop]
          omega
        have happend := @List.zipIdx_append _ ((plan.candidates.drop start).take request.batchSize)
          ((plan.candidates.drop start).drop request.batchSize) start
        rw [List.take_append_drop, hlen] at happend
        exact happend.symm
      · cases others with
        | nil => simp at hlast
        | cons other others => simpa using hlast
      · exact List.forall_mem_cons.2 ⟨hbatch.fair, hfair⟩
    · rw [if_neg hlt] at hnext
      refine ⟨[collection], by simp only [hnext, List.map_cons, List.map_nil], ?_, by simp [hnext],
        by simpa using hbatch.fair⟩
      rw [List.flatMap_cons, List.flatMap_nil, List.append_nil, hbatch.places,
        List.take_of_length_le (by rw [List.length_drop]; omega)]

/-! ## What a continuation is bound to -/

section

omit [SqliteFloat F]

/-- Objects with the same keys that agree up to the order of keys agree member by member. -/
theorem map_sortKeys_eq {fs gs : List (Text × Value F)} (hkeys : keys fs = keys gs)
    (hnodup : (keys fs).Nodup) (h : (Value.dict fs).sortKeys = (Value.dict gs).sortKeys) :
    fs.map (fun f => f.2.sortKeys) = gs.map (fun f => f.2.sortKeys) := by
  have hread : ∀ {hs : List (Text × Value F)}, (keys hs).Nodup →
      hs.map (fun f => some f.2.sortKeys) = (keys hs).map fun k => (lookup hs k).map Value.sortKeys := by
    intro hs hnd
    rw [keys, List.map_map]
    refine List.map_congr_left fun f hf => ?_
    simp [lookup_of_mem hnd hf]
  have hsame : fs.map (fun f => some f.2.sortKeys) = gs.map (fun f => some f.2.sortKeys) := by
    rw [hread hnodup, hread (hkeys ▸ hnodup), ← hkeys]
    exact List.map_congr_left fun k _ => lookup_of_sortKeys_eq hnodup (hkeys ▸ hnodup) h k
  refine List.map_injective_iff.2 (Option.some_injective (Value F)) ?_
  simpa [List.map_map, Function.comp_def] using hsame

theorem sortKeys_optionalInt (n : Option Int) : (optionalInt n : Value F).sortKeys = optionalInt n := by
  cases n <;> rfl

theorem sortKeys_optionalStr (t : Option Text) : (optionalStr t : Value F).sortKeys = optionalStr t := by
  cases t <;> rfl

theorem optionalInt_injective : Function.Injective (optionalInt (F := F)) := by
  intro m n h
  cases m <;> cases n <;> simp_all [optionalInt]

theorem optionalStr_injective : Function.Injective (optionalStr (F := F)) := by
  intro s t h
  cases s <;> cases t <;> simp_all [optionalStr]

theorem nodup_historical (h : HistoricalDocumentIdentity) : (keys (h.machineObject (F := F))).Nodup := by
  have hkeys : [txt "snapshot_id", txt "run_id", txt "snapshot_digest", txt "entry_id", txt "scope_id",
      txt "relative_path", txt "size_bytes", txt "mtime_ns", txt "device_id", txt "inode",
      txt "payload_sha256"].Nodup := by decide
  exact hkeys

theorem historical_machineObject_injective {h h' : HistoricalDocumentIdentity}
    (heq : (Value.dict h.machineObject : Value F).sortKeys = (Value.dict h'.machineObject).sortKeys) :
    h = h' := by
  have hkeys : keys (h.machineObject (F := F)) = keys h'.machineObject := rfl
  have hsame := map_sortKeys_eq hkeys (nodup_historical h) heq
  obtain ⟨snapshotId, runId, digest, entryId, scopeId, path, size, mtime, device, inode, payload⟩ := h
  obtain ⟨snapshotId', runId', digest', entryId', scopeId', path', size', mtime', device', inode',
    payload'⟩ := h'
  simp only [HistoricalDocumentIdentity.machineObject, List.map_cons, List.map_nil, Value.sortKeys,
    sortKeys_optionalInt, sortKeys_optionalStr, List.cons.injEq, Value.str.injEq,
    optionalInt_injective.eq_iff, optionalStr_injective.eq_iff, and_true] at hsame
  simpa using hsame

theorem nodup_candidate (c : DocumentCandidate) : (keys (c.machineObject (F := F))).Nodup := by
  cases c with
  | snapshot =>
    have hkeys : [txt "rank", txt "match_kind", txt "source_format", txt "historical"].Nodup := by decide
    exact hkeys
  | current =>
    have hkeys : [txt "rank", txt "match_kind", txt "source_format", txt "scope_id", txt "relative_path",
        txt "discovered_size_bytes", txt "discovered_mtime_ns"].Nodup := by decide
    exact hkeys

/-- The object of a candidate tells it apart from every other. -/
theorem candidate_machineObject_injective {c c' : DocumentCandidate}
    (heq : (Value.dict c.machineObject : Value F).sortKeys = (Value.dict c'.machineObject).sortKeys) :
    c = c' := by
  have hkind := lookup_of_sortKeys_eq (nodup_candidate c) (nodup_candidate c') heq (txt "historical")
  cases c with
  | snapshot rank matchKind sourceFormat historical =>
    cases c' with
    | current => cases hkind
    | snapshot rank' matchKind' sourceFormat' historical' =>
      have hkeys : keys ((DocumentCandidate.snapshot rank matchKind sourceFormat
          historical).machineObject (F := F)) = keys (DocumentCandidate.snapshot rank' matchKind'
          sourceFormat' historical').machineObject := rfl
      have hsame := map_sortKeys_eq hkeys (nodup_candidate _) heq
      simp only [DocumentCandidate.machineObject, List.map_cons, List.map_nil, List.cons.injEq,
        and_true] at hsame
      obtain ⟨hrank, hmatch, hformat, hhistorical⟩ := hsame
      rw [Value.int.inj hrank, Value.str.inj hmatch, Value.str.inj hformat,
        historical_machineObject_injective hhistorical]
  | current rank matchKind sourceFormat scopeId path size mtime =>
    cases c' with
    | snapshot => cases hkind
    | current rank' matchKind' sourceFormat' scopeId' path' size' mtime' =>
      have hkeys : keys ((DocumentCandidate.current rank matchKind sourceFormat scopeId path size
          mtime).machineObject (F := F)) = keys (DocumentCandidate.current rank' matchKind'
          sourceFormat' scopeId' path' size' mtime').machineObject := rfl
      have hsame := map_sortKeys_eq hkeys (nodup_candidate _) heq
      simp only [DocumentCandidate.machineObject, List.map_cons, List.map_nil, Value.sortKeys,
        sortKeys_optionalInt, List.cons.injEq, Value.str.injEq, Value.int.injEq,
        optionalInt_injective.eq_iff, and_true] at hsame
      simpa using hsame

theorem wf_candidateSet (candidates : List DocumentCandidate) :
    (candidateSet candidates : Value F).wf = true := by
  refine Value.wf_list.2 fun v hv => ?_
  obtain ⟨c, -, rfl⟩ := List.mem_map.1 hv
  refine Value.wf_dict.2 ⟨nodup_candidate c, ?_⟩
  have hint : ∀ n : Option Int, (optionalInt n : Value F).wf = true := fun n => by cases n <;> rfl
  have hstr : ∀ t : Option Text, (optionalStr t : Value F).wf = true := fun t => by cases t <;> rfl
  cases c with
  | snapshot rank matchKind sourceFormat historical =>
    have hhistorical : (Value.dict historical.machineObject : Value F).wf = true := by
      refine Value.wf_dict.2 ⟨nodup_historical historical, ?_⟩
      simp only [HistoricalDocumentIdentity.machineObject, List.forall_mem_cons]
      exact ⟨rfl, rfl, rfl, rfl, rfl, rfl, hint _, hint _, hint _, hint _, hstr _, by simp⟩
    simp only [DocumentCandidate.machineObject, List.forall_mem_cons]
    exact ⟨rfl, rfl, rfl, hhistorical, by simp⟩
  | current =>
    simp only [DocumentCandidate.machineObject, List.forall_mem_cons]
    exact ⟨rfl, rfl, rfl, rfl, rfl, hint _, hint _, by simp⟩

end

theorem nodup_requestFacts (request : CollectionRequest F) (plan : DocumentPlan) (query : Text) :
    (keys (requestFacts request plan query)).Nodup := by
  have hkeys : [txt "source_kind", txt "selection_policy", txt "query", txt "content_query",
      txt "extensions", txt "max_documents", txt "batch_size", txt "parser_timeout_seconds",
      txt "evidence_mode", txt "evidence_context_items", txt "evidence_max_characters",
      txt "content_limit", txt "diagnostic_detail"].Nodup := by decide
  exact hkeys

theorem wf_requestFacts (request : CollectionRequest F) (plan : DocumentPlan) (query : Text) :
    (Value.dict (requestFacts request plan query)).wf = true := by
  have hextensions : (Value.list (plan.extensions.map .str) : Value F).wf = true := by
    refine Value.wf_list.2 fun v hv => ?_
    obtain ⟨t, -, rfl⟩ := List.mem_map.1 hv
    rfl
  refine Value.wf_dict.2 ⟨nodup_requestFacts request plan query, ?_⟩
  simp only [requestFacts, List.forall_mem_cons]
  exact ⟨rfl, rfl, rfl, rfl, hextensions, rfl, rfl, rfl, rfl, rfl, rfl, rfl, rfl, by simp⟩

/-- The canonical text of the facts tells the facts apart. -/
theorem requestFacts_eq {request request' : CollectionRequest F} {plan plan' : DocumentPlan}
    {query query' : Text}
    (h : (Value.dict (requestFacts request plan query)).sortKeys =
      (Value.dict (requestFacts request' plan' query')).sortKeys) :
    requestFacts request plan query = requestFacts request' plan' query' := by
  have hkeys : keys (requestFacts request plan query) = keys (requestFacts request' plan' query') := rfl
  have hsame := map_sortKeys_eq hkeys (nodup_requestFacts request plan query) h
  simp only [requestFacts, List.map_cons, List.map_nil, Value.sortKeys_list, List.map_map,
    Function.comp_def] at hsame ⊢
  simp only [Value.sortKeys, List.cons.injEq, Value.list.injEq, and_true] at hsame
  obtain ⟨h1, h2, h3, h4, h5, h6, h7, h8, h9, h10, h11, h12, h13⟩ := hsame
  rw [h1, h2, h3, h4, h5, h6, h7, h8, h9, h10, h11, h12, h13]

/-- Equal digests of collisionless texts are digests of values that agree up to the order of keys. -/
theorem sortKeys_eq_of_digest {v w : Value F} {d : Text} (hv : digestOf v = .ok d)
    (hw : digestOf w = .ok d) (hvw : v.wf = true) (hww : w.wf = true)
    (hsha : Collisionless F [canonicalText v, canonicalText w]) : v.sortKeys = w.sortKeys := by
  obtain ⟨hsafe, hd⟩ := digestOf_eq_ok.1 hv
  obtain ⟨hsafe', hd'⟩ := digestOf_eq_ok.1 hw
  exact sortKeys_eq_of_canonicalText hsafe hvw hsafe' hww
    (hsha _ List.mem_cons_self _ (List.mem_cons_of_mem _ List.mem_cons_self) (hd.symm.trans hd'))

theorem candidates_eq_of_digest {plan plan' : DocumentPlan} {d : Text}
    (h : candidateSetDigest F plan = .ok d) (h' : candidateSetDigest F plan' = .ok d)
    (hsha : Collisionless F [canonicalText (candidateSet plan.candidates : Value F),
      canonicalText (candidateSet plan'.candidates : Value F)]) :
    plan.candidates = plan'.candidates := by
  have hsame := sortKeys_eq_of_digest h h' (wf_candidateSet _) (wf_candidateSet _) hsha
  simp only [candidateSet, Value.sortKeys_list, Value.list.injEq, List.map_map] at hsame
  exact List.map_injective_iff.2 (fun c c' hc => candidate_machineObject_injective hc) hsame

/-- The text that the request digest is a digest of. -/
def hashedRequest (unicode : Unicode) (request : CollectionRequest F) (plan : DocumentPlan) : Text :=
  match normalizeDocumentQuery unicode request.query with
  | .ok query => canonicalText (.dict (requestFacts request plan query))
  | .error _ => []

/-- The two requests give the digest the same facts. -/
def SameRequest (unicode : Unicode) (request request' : CollectionRequest F)
    (plan plan' : DocumentPlan) : Prop :=
  ∃ query, normalizeDocumentQuery unicode request.query = .ok query ∧
    normalizeDocumentQuery unicode request'.query = .ok query ∧
    requestFacts request plan query = requestFacts request' plan' query

theorem sameRequest_of_digest {request request' : CollectionRequest F} {plan plan' : DocumentPlan}
    {d : Text} (h : documentCollectionRequestDigest unicode request plan = .ok d)
    (h' : documentCollectionRequestDigest unicode request' plan' = .ok d)
    (hsha : Collisionless F [hashedRequest unicode request plan, hashedRequest unicode request' plan']) :
    SameRequest unicode request request' plan plan' := by
  obtain ⟨query, hquery, hdigest⟩ := bind_eq_ok.1 h
  obtain ⟨query', hquery', hdigest'⟩ := bind_eq_ok.1 h'
  unfold hashedRequest at hsha
  rw [hquery, hquery'] at hsha
  have hfacts := requestFacts_eq (sortKeys_eq_of_digest hdigest hdigest' (wf_requestFacts _ _ _)
    (wf_requestFacts _ _ _) hsha)
  obtain rfl : query = query' := by
    simp only [requestFacts, List.cons.injEq, Prod.mk.injEq, Value.str.injEq, true_and] at hfacts
    exact hfacts.2.2.1
  exact ⟨query, hquery, hquery', hfacts⟩

/-- A call that returns has both digests and a start, and returns the batch there. -/
theorem documentEvidenceSet_ok {continuation : Value F} {env : σ} {collection : EvidenceCollection F}
    (h : (documentEvidenceSet unicode inspector request plan continuation env).1 = .ok collection) :
    ∃ requestDigest setDigest start,
      documentCollectionRequestDigest unicode request plan = .ok requestDigest ∧
      candidateSetDigest F plan = .ok setDigest ∧
      startIndex requestDigest setDigest plan.candidates.length continuation = .ok start ∧
      Batch request plan requestDigest setDigest start collection := by
  have hrun := h
  unfold documentEvidenceSet at h
  split at h
  · cases h
  · next setDigest requestDigest start hdo =>
    obtain ⟨setDigest', hset, hdo⟩ := bind_eq_ok.1 hdo
    obtain ⟨requestDigest', hrequest, hdo⟩ := bind_eq_ok.1 hdo
    obtain ⟨start', hstart, hdo⟩ := bind_eq_ok.1 hdo
    obtain ⟨rfl, rfl, rfl⟩ : setDigest' = setDigest ∧ requestDigest' = requestDigest ∧
        start' = start := by simpa using hdo
    obtain ⟨collection', env', hcall, hbatch⟩ :
        ∃ collection env', documentEvidenceSet unicode inspector request plan continuation env =
          (.ok collection, env') ∧ Batch request plan requestDigest' setDigest' start' collection :=
      documentEvidenceSet_batch hset hrequest hstart env
    rw [hcall] at hrun
    rw [← Except.ok.inj hrun]
    exact ⟨_, _, _, hrequest, hset, hstart, hbatch⟩

/-- Following the continuations visits every planned candidate once, in order and to the end,
with at most the requested number of candidates and of characters (or the floor of 512 for
each document) in a call; and a continuation is accepted only for the same facts of the
request and the same candidates. -/
theorem documentEvidenceSet_continues (unicode : Unicode) (inspector : Inspector F σ)
    (request : CollectionRequest F) (plan : DocumentPlan) (env : σ) :
    (((¬ Ok (candidateSetDigest F plan) ∨ ¬ Ok (documentCollectionRequestDigest unicode request plan)) ∧
        ∃ e, follow unicode inspector request plan (plan.candidates.length + 1) .none env = [.error e]) ∨
      ∃ collections : List (EvidenceCollection F),
        follow unicode inspector request plan (plan.candidates.length + 1) .none env =
          collections.map .ok ∧
        collections.flatMap (fun c => c.items.map CollectionItem.place) = plan.candidates.zipIdx ∧
        (collections.getLast?.map EvidenceCollection.continuation) = some none ∧
        ∀ collection ∈ collections, Fair request collection) ∧
    ∀ (continuation : Value F) (collection : EvidenceCollection F) (next : CollectionContinuation),
      (documentEvidenceSet unicode inspector request plan continuation env).1 = .ok collection →
      collection.continuation = some next →
      ∀ (inspector' : Inspector F σ) (request' : CollectionRequest F) (plan' : DocumentPlan) (env' : σ),
        Ok (documentEvidenceSet unicode inspector' request' plan' next.machineObject env').1 →
        Collisionless F [hashedRequest unicode request plan, hashedRequest unicode request' plan'] →
        Collisionless F [canonicalText (candidateSet plan.candidates : Value F),
          canonicalText (candidateSet plan'.candidates : Value F)] →
        SameRequest unicode request request' plan plan' ∧ plan.candidates = plan'.candidates := by
  refine ⟨?_, ?_⟩
  · by_cases hdigests : Ok (candidateSetDigest F plan) ∧
        Ok (documentCollectionRequestDigest unicode request plan)
    · obtain ⟨⟨setDigest, hset⟩, requestDigest, hrequest⟩ := hdigests
      have hstart : startIndex requestDigest setDigest plan.candidates.length (.none : Value F) = .ok 0 := rfl
      obtain ⟨collections, hfollow, hplaces, hlast, hfair⟩ :=
        follow_batches hset hrequest hstart (Nat.lt_succ_self _) env
      exact .inr ⟨collections, hfollow, hplaces, hlast, hfair⟩
    · refine .inl ⟨not_and_or.1 hdigests, ?_⟩
      unfold follow
      split
      · next e env' h => exact ⟨e, rfl⟩
      · next collection env' h =>
        obtain ⟨requestDigest, setDigest, -, hrequest, hset, -⟩ :=
          documentEvidenceSet_ok (congrArg Prod.fst h)
        exact absurd ⟨⟨_, hset⟩, _, hrequest⟩ hdigests
  · rintro continuation collection next hcall hnext inspector' request' plan' env' ⟨collection', hcall'⟩
      hrequests hsets
    obtain ⟨requestDigest, setDigest, start, hrequest, hset, -, hbatch⟩ := documentEvidenceSet_ok hcall
    obtain ⟨requestDigest', setDigest', start', hrequest', hset', hstart', -⟩ :=
      documentEvidenceSet_ok hcall'
    rw [hbatch.continuation_eq] at hnext
    split_ifs at hnext
    obtain rfl := Option.some.inj hnext
    rw [startIndex_machineObject] at hstart'
    split_ifs at hstart' with hmatch
    obtain ⟨rfl, rfl, -⟩ := hmatch
    exact ⟨sameRequest_of_digest hrequest hrequest' hrequests, candidates_eq_of_digest hset hset' hsets⟩

end Batches

/-! ## A budget below the floor -/

namespace Floor

def candidate (path : Text) : DocumentCandidate :=
  .current 0 (txt "BASENAME") (txt "PDF") (txt "managed") path (some 1) (some 1)

def plan : DocumentPlan :=
  ⟨txt "CURRENT_SCOPE_DISCOVERY", txt "ONLY_COMPATIBLE", [txt "PDF"],
    [candidate (txt "a.pdf"), candidate (txt "b.pdf")]⟩

/-- 600 characters for two documents. -/
def request : CollectionRequest Integral where
  query := txt "report"
  contentQuery := txt "total"
  maxDocuments := 2
  batchSize := 2
  parserTimeoutSeconds := .whole 45
  evidenceMode := txt "AUTO"
  evidenceContextItems := 2
  evidenceMaxCharacters := 600
  contentLimit := 20
  fullDetail := false
  documents_range := by decide
  batch_range := by decide
  timeout_range := by decide
  timeout_finite := rfl

def unicode : Unicode := ⟨id⟩

def inspector : Inspector Integral Unit :=
  ⟨fun _ env => (.error .admission, env), fun _ _ _ env => (.error .other, env), fun _ => .error .other⟩

end Floor

/-- Each of the two documents is allocated 512 characters, and 600 were requested. -/
theorem floor_exceeds_budget : ∃ collection,
    (documentEvidenceSet Floor.unicode Floor.inspector Floor.request Floor.plan .none ()).1 =
        .ok collection ∧
      Floor.request.evidenceMaxCharacters < collection.allocatedCharacters * collection.items.length := by
  have hquery : normalizeDocumentQuery Floor.unicode Floor.request.query = .ok (txt "report") := by
    decide
  obtain ⟨setDigest, hset⟩ : Ok (candidateSetDigest Integral Floor.plan) :=
    ok_digestOf.2 (by decide +kernel)
  obtain ⟨requestDigest, hdigest⟩ :
      Ok (digestOf (.dict (requestFacts Floor.request Floor.plan (txt "report")))) :=
    ok_digestOf.2 (by decide)
  have hrequest : documentCollectionRequestDigest Floor.unicode Floor.request Floor.plan =
      .ok requestDigest := by
    rw [documentCollectionRequestDigest, hquery]
    exact hdigest
  have hstart : startIndex requestDigest setDigest Floor.plan.candidates.length
      (.none : Value Integral) = .ok 0 := rfl
  obtain ⟨collection, env', hcall, hbatch⟩ :
      ∃ collection env', documentEvidenceSet Floor.unicode Floor.inspector Floor.request Floor.plan
        .none () = (.ok collection, env') ∧
        Batch Floor.request Floor.plan requestDigest setDigest 0 collection :=
    documentEvidenceSet_batch hset hrequest hstart ()
  have hlen : collection.items.length = 2 := by
    have h := congrArg List.length hbatch.places
    rw [List.length_map] at h
    exact h
  refine ⟨collection, by rw [hcall], ?_⟩
  rw [hbatch.allocated, hlen]
  decide

end Steward.Native
