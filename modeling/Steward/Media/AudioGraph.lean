import Steward.Py.Chunks
import Steward.Runs.Coordinator

/-!
# The audio timeline graph

`audio_graph.py`: the nodes of an audio document, with the checks that a node and
the graph make of themselves, and the loop that groups the segments of a
transcript into sentences.
-/

namespace Steward.Media

open Py

inductive GraphFault where
  | valueError (message : Text)
  | typeError
  deriving DecidableEq, Repr

/-- The keys of `_KIND_ORDER`. -/
inductive AudioNodeKind where
  | source
  | speechRegion
  | speakerTurn
  | overlapRegion
  | transcriptSegment
  | sentenceGroup
  | alignedWord
  | approximateWord
  | unalignedWord
  deriving DecidableEq, Repr

def AudioNodeKind.order : AudioNodeKind → Nat
  | .source => 0
  | .speechRegion => 1
  | .speakerTurn => 2
  | .overlapRegion => 3
  | .transcriptSegment => 4
  | .sentenceGroup => 5
  | .alignedWord => 6
  | .approximateWord => 7
  | .unalignedWord => 8

def AudioNodeKind.isWord : AudioNodeKind → Bool
  | .alignedWord | .approximateWord | .unalignedWord => true
  | _ => false

/-! ## Names -/

/-- `f"{n:0{width}d}"` -/
def padTo (width n : Nat) : Text := List.replicate (width - (Text.ofNat n).length) (Text.digit 0) ++ Text.ofNat n

inductive NodeName where
  | source
  | speech (ordinal : Nat)
  | speakerTurn (ordinal : Nat)
  | overlap (ordinal : Nat)
  | segment (ordinal : Nat)
  | word (parent sequence : Nat)
  | sentence (ordinal : Nat)
  deriving DecidableEq, Repr

def NodeName.text : NodeName → Text
  | .source => txt "audio:source"
  | .speech ordinal => txt "audio:speech:" ++ padTo 4 ordinal
  | .speakerTurn ordinal => txt "audio:speaker-turn:" ++ padTo 4 ordinal
  | .overlap ordinal => txt "audio:overlap:" ++ padTo 4 ordinal
  | .segment ordinal => txt "audio:segment:" ++ padTo 4 ordinal
  | .word parent sequence => txt "audio:segment:" ++ padTo 4 parent ++ txt ":word:" ++ padTo 5 sequence
  | .sentence ordinal => txt "audio:sentence:" ++ padTo 4 ordinal

/-! ## Nodes -/

structure AudioGraphNode (F : Type) where
  nodeId : Text
  kind : AudioNodeKind
  role : Text
  startMs : Int
  endMs : Int
  ordinal : Nat
  value : Option Text
  parent : Option Text
  extension : List (Text × Value F)

section
variable {F : Type}

/-- `_primitive` -/
def primitive : Value F → Value F
  | .list _ | .dict _ => .none
  | value => value

/-- `_extension` -/
def extensionOf (values : List (Text × Value F)) : List (Text × Value F) :=
  sortedBy Prod.fst ((values.filter fun entry => !entry.2.isNone).map fun entry => (entry.1, primitive entry.2))

/-- `AudioGraphNode.__post_init__` -/
def AudioGraphNode.check (node : AudioGraphNode F) : Except GraphFault (AudioGraphNode F) :=
  let keys := node.extension.map Prod.fst
  if node.nodeId = [] ∨ node.role = [] then .error (.valueError (txt "audio graph node identity is invalid"))
  else if node.startMs < 0 ∨ node.endMs ≤ node.startMs then
    .error (.valueError (txt "audio graph node range is invalid"))
  else if keys ≠ sortedBy id keys ∨ ¬ keys.Nodup then
    .error (.valueError (txt "audio graph node extension must be unique and sorted"))
  else .ok node

/-- `_node_order` -/
def nodeOrder (node : AudioGraphNode F) : Int ×ₗ Int ×ₗ Nat ×ₗ Nat ×ₗ Text :=
  toLex (node.startMs, toLex (node.endMs, toLex (node.kind.order, toLex (node.ordinal, node.nodeId))))

/-- `_bounded_range` -/
def boundedRange (start stop : Value F) (durationMs : Int) : Option (Int × Int) :=
  match start, stop with
  | .int start, .int stop =>
    let boundedStart := max 0 (min start (durationMs - 1))
    some (boundedStart, max (boundedStart + 1) (min stop durationMs))
  | _, _ => none

/-! ## The graph -/

structure AudioDocumentGraph (F : Type) where
  sourceSha256 : Text
  durationMs : Int
  windowStartMs : Int
  windowEndMs : Int
  nodes : List (AudioGraphNode F)

def sourceIdentity (sha256 : Text) : Bool := sha256.length = 64 && sha256.all fun c => c ∈ txt "0123456789abcdef"

def windowValid (durationMs windowStartMs windowEndMs : Int) : Bool :=
  decide (0 < durationMs ∧ 0 ≤ windowStartMs ∧ windowStartMs < windowEndMs ∧ windowEndMs ≤ durationMs)

/-- `AudioDocumentGraph.__post_init__`; the order of the nodes is compared by their sort keys' order. -/
def AudioDocumentGraph.check (graph : AudioDocumentGraph F) : Except GraphFault (AudioDocumentGraph F) :=
  if ¬ sourceIdentity graph.sourceSha256 = true then
    .error (.valueError (txt "audio graph source identity is invalid"))
  else if ¬ windowValid graph.durationMs graph.windowStartMs graph.windowEndMs = true then
    .error (.valueError (txt "audio graph window is invalid"))
  else if ¬ (graph.nodes.map AudioGraphNode.nodeId).Nodup then
    .error (.valueError (txt "audio graph node IDs are not unique"))
  else if ¬ graph.nodes.Pairwise (fun a b => nodeOrder a ≤ nodeOrder b) then
    .error (.valueError (txt "audio graph nodes are not deterministically ordered"))
  else if ∃ node ∈ graph.nodes, node.endMs > graph.durationMs then
    .error (.valueError (txt "audio graph node is outside the source"))
  else .ok graph

/-! ## The nodes of a request -/

/-- What the graph is built from. The callers hand over a source that they have hashed, a window of it, and the
keywords of the probe; the observations are as the models report them. -/
structure AudioGraphRequest (F : Type) where
  sourceSha256 : Text
  durationMs : Int
  windowStartMs : Int
  windowEndMs : Int
  probe : List (Text × Value F)
  intervals : List (List (Text × Value F))
  segments : List (List (Text × Value F))
  modelId : Value F
  modelIdentitySha256 : Value F
  speakerTurns : List (List (Text × Value F))
  overlapRegions : List (List (Text × Value F))
  diarizationModelIdentitySha256 : Value F
  source_valid : sourceIdentity sourceSha256 = true
  window_valid : windowValid durationMs windowStartMs windowEndMs = true
  probe_keys : (txt "authority" :: probe.map Prod.fst).Nodup

variable (r : AudioGraphRequest F)

def timeline : Option Text := some (txt "audio:timeline")

def sourceNode : AudioGraphNode F where
  nodeId := NodeName.source.text
  kind := .source
  role := txt "METADATA"
  startMs := 0
  endMs := r.durationMs
  ordinal := 0
  value := none
  parent := none
  extension := extensionOf ((txt "authority", .str (txt "OBSERVED")) :: r.probe)

def speechNode (numbered : List (Text × Value F) × Nat) : Option (AudioGraphNode F) :=
  let (interval, ordinal) := numbered
  match Value.get interval (txt "start_ms"), Value.get interval (txt "end_ms") with
  | .int intervalStart, .int intervalEnd =>
    (boundedRange (F := F) (.int (r.windowStartMs + intervalStart)) (.int (r.windowStartMs + intervalEnd))
      r.durationMs).map fun bounds =>
    { nodeId := (NodeName.speech ordinal).text
      kind := .speechRegion
      role := txt "STRUCTURE"
      startMs := bounds.1
      endMs := bounds.2
      ordinal
      value := none
      parent := timeline
      extension := extensionOf [(txt "authority", .str (txt "MODEL_DERIVED")),
        (txt "detector", .str (txt "Silero VAD")), (txt "timestamp_accuracy", .str (txt "MODEL_APPROXIMATE"))] }
  | _, _ => none

def turnNode (numbered : List (Text × Value F) × Nat) : Option (AudioGraphNode F) :=
  let (turn, ordinal) := numbered
  match boundedRange (Value.get turn (txt "start_ms")) (Value.get turn (txt "end_ms")) r.durationMs,
    Value.get turn (txt "speaker_label") with
  | some bounds, .str label => some
    { nodeId := (NodeName.speakerTurn ordinal).text
      kind := .speakerTurn
      role := txt "STRUCTURE"
      startMs := bounds.1
      endMs := bounds.2
      ordinal
      value := some label
      parent := timeline
      extension := extensionOf [(txt "authority", .str (txt "MODEL_DERIVED")),
        (txt "backend", .str (txt "sherpa-onnx-offline-speaker-diarization")),
        (txt "model_identity_sha256", r.diarizationModelIdentitySha256), (txt "speaker_label", .str label),
        (txt "identity_scope", .str (txt "FILE_LOCAL_ANONYMOUS"))] }
  | _, _ => none

/-- The labels, where all of them are text. -/
def labelsOf (speakers : List (Value F)) : Option (List Text) :=
  speakers.mapM fun speaker =>
    match speaker with
    | .str label => some label
    | _ => none

def overlapNode (numbered : List (Text × Value F) × Nat) : Option (AudioGraphNode F) :=
  let (region, ordinal) := numbered
  match boundedRange (Value.get region (txt "start_ms")) (Value.get region (txt "end_ms")) r.durationMs,
    Value.get region (txt "speakers") with
  | some bounds, .list speakers =>
    if speakers.length < 2 then none
    else
      (labelsOf speakers).map fun labels =>
      { nodeId := (NodeName.overlap ordinal).text
        kind := .overlapRegion
        role := txt "STRUCTURE"
        startMs := bounds.1
        endMs := bounds.2
        ordinal
        value := some ([ch ','].intercalate labels)
        parent := timeline
        extension := extensionOf [(txt "authority", .str (txt "MODEL_DERIVED")),
          (txt "backend", .str (txt "sherpa-onnx-offline-speaker-diarization")),
          (txt "model_identity_sha256", r.diarizationModelIdentitySha256),
          (txt "overlap_method", .str (txt "INTERSECTING_DIARIZATION_TURNS")),
          (txt "speaker_count", .int speakers.length)] }
  | _, _ => none

/-- The range and the text of a segment that has both. -/
def segmentContent (segment : List (Text × Value F)) : Option ((Int × Int) × Text) :=
  match Value.get segment (txt "location"), Value.get segment (txt "text_or_value") with
  | .dict location, .str text =>
    (boundedRange (Value.get location (txt "start_ms")) (Value.get location (txt "end_ms")) r.durationMs).map (·, text)
  | _, _ => none

def segmentNode (numbered : List (Text × Value F) × Nat) : Option (AudioGraphNode F) :=
  let (segment, ordinal) := numbered
  let extension := Value.get segment (txt "extension")
  (segmentContent r segment).map fun (bounds, text) =>
  { nodeId := (NodeName.segment ordinal).text
    kind := .transcriptSegment
    role := txt "PARAGRAPH"
    startMs := bounds.1
    endMs := bounds.2
    ordinal
    value := some text
    parent := timeline
    extension := extensionOf [(txt "authority", .str (txt "MODEL_DERIVED")),
      (txt "backend", .str (txt "faster-whisper")),
      (txt "model_id", r.modelId), (txt "model_identity_sha256", r.modelIdentitySha256),
      (txt "timestamp_accuracy", extension.getIf (txt "timestamp_accuracy")),
      (txt "language", extension.getIf (txt "language")), (txt "avg_logprob", extension.getIf (txt "avg_logprob")),
      (txt "no_speech_prob", extension.getIf (txt "no_speech_prob"))] }

/-- `aligned_ordinal`, `unaligned_ordinal` and `word_sequence` -/
structure WordCounters where
  aligned : Nat
  unaligned : Nat
  sequence : Nat
  deriving DecidableEq, Repr

def wordText (word : Value F) : Option Text :=
  match word with
  | .dict fields =>
    match Value.get fields (txt "text") with
    | .str text => some text
    | _ => none
  | _ => none

/-- The node of a word in a segment, and the counters after it. -/
def wordNode (segment : AudioGraphNode F) (counters : WordCounters) (word : Value F) (text : Text) :
    AudioGraphNode F × WordCounters :=
  let field (key : String) := word.getIf (txt key)
  let sequence := counters.sequence + 1
  let node (bounds : Int × Int) (kind : AudioNodeKind) (ordinal : Nat) (status : Text) : AudioGraphNode F :=
    { nodeId := (NodeName.word segment.ordinal sequence).text
      kind
      role := txt "TOKEN"
      startMs := bounds.1
      endMs := bounds.2
      ordinal
      value := some text
      parent := some segment.nodeId
      extension := extensionOf [(txt "authority", .str (txt "MODEL_DERIVED")), (txt "alignment_status", .str status),
        (txt "timestamp_accuracy", match word with
          | .dict fields => (lookup fields (txt "timestamp_accuracy")).getD (.str (txt "MODEL_APPROXIMATE"))
          | _ => .none),
        (txt "probability", field "probability"), (txt "model_id", r.modelId),
        (txt "model_identity_sha256", r.modelIdentitySha256), (txt "alignment_backend", field "alignment_backend"),
        (txt "alignment_model_id", field "alignment_model_id"),
        (txt "alignment_model_revision", field "alignment_model_revision"),
        (txt "alignment_model_identity_sha256", field "alignment_model_identity_sha256"),
        (txt "alignment_reason", field "alignment_reason")] }
  match boundedRange (field "start_ms") (field "end_ms") r.durationMs with
  | none =>
    (node (segment.startMs, segment.endMs) .unalignedWord (counters.unaligned + 1) (txt "UNALIGNED"),
      { counters with unaligned := counters.unaligned + 1, sequence })
  | some bounds =>
    let status :=
      match field "alignment_status" with
      | .str status => status
      | _ => txt "ASR_MODEL_APPROXIMATE"
    let kind := if status = txt "CTC_FORCED_ALIGNED" then .alignedWord else .approximateWord
    (node bounds kind (counters.aligned + 1) status, { counters with aligned := counters.aligned + 1, sequence })

def wordNodes (segment : AudioGraphNode F) : WordCounters → List (Value F) → List (AudioGraphNode F) × WordCounters
  | counters, [] => ([], counters)
  | counters, word :: words =>
    match wordText word with
    | none => wordNodes segment counters words
    | some text =>
      let (node, counters) := wordNode r segment counters word text
      let (nodes, counters) := wordNodes segment counters words
      (node :: nodes, counters)

def wordsOf (segment : List (Text × Value F)) : List (Value F) :=
  match Value.get segment (txt "words") with
  | .list words => words
  | _ => []

/-- The segments of the transcript, each with its words. -/
def transcript : WordCounters → List (List (Text × Value F) × Nat) → List (AudioGraphNode F × List (AudioGraphNode F))
  | _, [] => []
  | counters, numbered :: segments =>
    match segmentNode r numbered with
    | none => transcript counters segments
    | some node =>
      let (words, counters) := wordNodes r node counters (wordsOf numbered.1)
      (node, words) :: transcript counters segments

/-! ## Sentences -/

structure Sentence (F : Type) where
  members : List (AudioGraphNode F)
  ordinal : Nat
  boundary : Text
  nonempty : members ≠ []

structure SentenceLoop (F : Type) where
  group : List (AudioGraphNode F)
  ordinal : Nat
  sentences : List (Sentence F)

/-- A sentence is yielded, and the group is empty again. -/
def SentenceLoop.close (s : SentenceLoop F) (boundary : Text) : SentenceLoop F :=
  if h : s.group ≠ [] then ⟨[], s.ordinal + 1, s.sentences ++ [⟨s.group, s.ordinal + 1, boundary, h⟩]⟩ else s

/-- `(segment.value or "").rstrip().endswith(terminal)` -/
def terminated (segment : AudioGraphNode F) : Bool :=
  match ((segment.value.getD []).reverse.dropWhile isSpace).head? with
  | some last => last ∈ txt ".!?。！？"
  | none => false

/-- `segment.start_ms - group[-1].end_ms > 1_000` -/
def paused (last segment : AudioGraphNode F) : Bool := decide (segment.startMs - last.endMs > 1000)

def sentenceStep (s : SentenceLoop F) (segment : AudioGraphNode F) : SentenceLoop F :=
  let s :=
    match s.group.getLast? with
    | some last => if paused last segment then s.close (txt "PAUSE_GT_1000MS") else s
    | none => s
  let s := { s with group := s.group ++ [segment] }
  if terminated segment then s.close (txt "TERMINAL_PUNCTUATION") else s

/-- `_sentence_nodes` -/
def sentencesOf (segments : List (AudioGraphNode F)) : List (Sentence F) :=
  ((segments.foldl sentenceStep ⟨[], 0, []⟩).close (txt "WINDOW_END")).sentences

/-- `_sentence_group` -/
def sentenceNode (sentence : Sentence F) : AudioGraphNode F :=
  let text := [ch ' '].intercalate ((sentence.members.map fun member => strip (member.value.getD [])).filter (· ≠ []))
  { nodeId := (NodeName.sentence sentence.ordinal).text
    kind := .sentenceGroup
    role := txt "SECTION"
    startMs := (sentence.members.head sentence.nonempty).startMs
    endMs := (sentence.members.getLast sentence.nonempty).endMs
    ordinal := sentence.ordinal
    value := if text = [] then none else some text
    parent := timeline
    extension := extensionOf [(txt "authority", .str (txt "MODEL_DERIVED")),
      (txt "grouping_method", .str (txt "PUNCTUATION_AND_PAUSE")), (txt "boundary_reason", .str sentence.boundary),
      (txt "segment_count", .int sentence.members.length)] }

/-! ## The build -/

/-- The nodes before the sentences. -/
def observedNodes : List (AudioGraphNode F) :=
  sourceNode r :: (r.intervals.zipIdx 1).filterMap (speechNode r) ++ (r.speakerTurns.zipIdx 1).filterMap (turnNode r) ++
    (r.overlapRegions.zipIdx 1).filterMap (overlapNode r) ++
    (transcript r ⟨0, 0, 0⟩ (r.segments.zipIdx 1)).flatMap fun (segment, words) => segment :: words

def transcriptNodes : List (AudioGraphNode F) := (transcript r ⟨0, 0, 0⟩ (r.segments.zipIdx 1)).map Prod.fst

/-- `build_audio_document_graph` -/
def buildAudioDocumentGraph : Except GraphFault (AudioDocumentGraph F) := do
  if (lookup r.probe (txt "authority")).isSome then throw .typeError
  let observed ← (observedNodes r).mapM AudioGraphNode.check
  let sentences ← ((sentencesOf (transcriptNodes r)).map sentenceNode).mapM AudioGraphNode.check
  AudioDocumentGraph.check
    { sourceSha256 := r.sourceSha256
      durationMs := r.durationMs
      windowStartMs := r.windowStartMs
      windowEndMs := r.windowEndMs
      nodes := sortedBy nodeOrder (observed ++ sentences) }

end

end Steward.Media
