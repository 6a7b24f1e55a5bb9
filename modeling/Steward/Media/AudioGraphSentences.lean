import Steward.Media.AudioGraphBuild

/-!
# Sentences of the audio graph

The loop of `_sentence_nodes` splits the segments where one is terminated or a
pause follows it. `buildAudioDocumentGraph_iff`: the build succeeds and covers
its input exactly when in each sentence the first segment starts first and the
last one ends last.
-/

namespace Steward.Media

open Py

section
variable {F : Type}

/-! ## The loop -/

/-- The segment goes on with the sentence of the one before it. -/
def goesOn (last segment : AudioGraphNode F) : Bool := !terminated last && !paused last segment

def openGroup (group : List (AudioGraphNode F)) : List (List (AudioGraphNode F)) := if group = [] then [] else [group]

/-- The loop after some segments. -/
structure SentencesRead (s : SentenceLoop F) (read : List (AudioGraphNode F)) : Prop where
  groups : s.sentences.map Sentence.members ++ openGroup s.group = read.splitBy goesOn
  numbered : s.sentences.map Sentence.ordinal = List.range' 1 s.sentences.length
  ordinal : s.ordinal = s.sentences.length
  closed : s.group = [] → ∀ last ∈ read.getLast?, terminated last = true
  going : ∀ last ∈ s.group.getLast?, terminated last = false

variable {s : SentenceLoop F} {read : List (AudioGraphNode F)}

theorem numbered_close (hnumbered : s.sentences.map Sentence.ordinal = List.range' 1 s.sentences.length)
    (hordinal : s.ordinal = s.sentences.length) (boundary : Text) :
    (s.close boundary).sentences.map Sentence.ordinal = List.range' 1 (s.close boundary).sentences.length ∧
      (s.close boundary).ordinal = (s.close boundary).sentences.length := by
  unfold SentenceLoop.close
  split_ifs
  · dsimp only
    rw [List.map_append, hnumbered, List.length_append, List.length_singleton, List.range'_concat, hordinal]
    refine ⟨?_, rfl⟩
    rw [List.map_singleton, Nat.one_mul, Nat.add_comm]
  · exact ⟨hnumbered, hordinal⟩

theorem groups_close (boundary : Text) : (s.close boundary).sentences.map Sentence.members ++
    openGroup (s.close boundary).group = s.sentences.map Sentence.members ++ openGroup s.group := by
  unfold SentenceLoop.close
  split_ifs with h
  · rw [List.map_append, openGroup, openGroup, if_pos rfl, if_neg h, List.append_nil]
    rfl
  · rfl

theorem group_close (boundary : Text) : (s.close boundary).group = [] := by
  unfold SentenceLoop.close
  split_ifs with h
  · rfl
  · exact not_not.1 h

/-- The state before the segment is appended: its group goes on with it. -/
theorem sentencesRead_append {t : SentenceLoop F} {segment : AudioGraphNode F}
    (hnumbered : t.sentences.map Sentence.ordinal = List.range' 1 t.sentences.length)
    (hordinal : t.ordinal = t.sentences.length)
    (hgroups : t.sentences.map Sentence.members ++ [t.group ++ [segment]] = (read ++ [segment]).splitBy goesOn) :
    SentencesRead
      (if terminated segment then
        SentenceLoop.close { t with group := t.group ++ [segment] } (txt "TERMINAL_PUNCTUATION")
      else { t with group := t.group ++ [segment] }) (read ++ [segment]) := by
  have hopen : openGroup (t.group ++ [segment]) = [t.group ++ [segment]] := if_neg (by simp)
  split_ifs with hterminated
  · obtain ⟨hnumbered', hordinal'⟩ := numbered_close (s := { t with group := t.group ++ [segment] }) hnumbered hordinal
      (txt "TERMINAL_PUNCTUATION")
    refine ⟨?_, hnumbered', hordinal', fun _ last hlast => ?_, fun last hlast => ?_⟩
    · rw [groups_close, hopen]
      exact hgroups
    · rw [List.getLast?_concat] at hlast
      cases hlast
      exact hterminated
    · rw [group_close] at hlast
      cases hlast
  · refine ⟨by rw [hopen]; exact hgroups, hnumbered, hordinal, fun h => absurd h (by simp), fun last hlast => ?_⟩
    rw [List.getLast?_concat] at hlast
    cases hlast
    exact Bool.eq_false_iff.2 hterminated

theorem sentencesRead_step (h : SentencesRead s read) (segment : AudioGraphNode F) :
    SentencesRead (sentenceStep s segment) (read ++ [segment]) := by
  unfold sentenceStep
  dsimp only
  rcases List.eq_nil_or_concat s.group with hgroup | ⟨front, last, hgroup⟩
  · -- No group is open: what was read ends a sentence.
    have hlast : s.group.getLast? = none := by rw [hgroup]; rfl
    rw [hlast]
    have hstep : s.sentences.map Sentence.members ++ [s.group ++ [segment]] = (read ++ [segment]).splitBy goesOn := by
      have hread := h.groups
      rw [hgroup, openGroup, if_pos rfl, List.append_nil] at hread
      rw [List.splitBy_append_cons [] fun last hlast => ?_, ← hread, hgroup]
      · rfl
      · rw [goesOn, h.closed hgroup last hlast]
        rfl
    exact sentencesRead_append h.numbered h.ordinal hstep
  · rw [List.concat_eq_append] at hgroup
    have hread := h.groups
    have hopen : openGroup s.group = [s.group] := if_neg (by rw [hgroup]; simp)
    rw [hopen] at hread
    have hnext := chunkStep_splitBy goesOn read segment
    have hgoing := h.going last (by rw [hgroup]; exact List.getLast?_concat)
    rw [← hread, chunkStep, List.getLast?_concat] at hnext
    dsimp only at hnext
    rw [hgroup, List.getLast?_concat] at hnext ⊢
    dsimp only at hnext ⊢
    by_cases hpaused : paused last segment = true
    · have hfalse : ¬ goesOn last segment = true := by simp [goesOn, hpaused]
      rw [if_neg hfalse] at hnext
      rw [if_pos hpaused]
      obtain ⟨hnumbered, hordinal⟩ := numbered_close h.numbered h.ordinal (txt "PAUSE_GT_1000MS")
      refine sentencesRead_append hnumbered hordinal ?_
      have hclosed := groups_close (s := s) (txt "PAUSE_GT_1000MS")
      rw [hopen, group_close, openGroup, if_pos rfl, List.append_nil] at hclosed
      rw [hclosed, group_close, ← hnext, hgroup]
      rfl
    · have htrue : goesOn last segment = true := by simp [goesOn, hgoing, hpaused]
      rw [if_pos htrue, List.dropLast_concat] at hnext
      rw [if_neg hpaused]
      exact sentencesRead_append h.numbered h.ordinal (by rw [hgroup, hnext])

theorem sentencesRead_foldl (segments : List (AudioGraphNode F)) :
    SentencesRead (segments.foldl sentenceStep ⟨[], 0, []⟩) segments := by
  induction segments using List.reverseRecOn with
  | nil => exact ⟨rfl, rfl, rfl, fun _ _ h => (nomatch h), fun _ h => (nomatch h)⟩
  | append_singleton segments segment ih =>
    rw [List.foldl_concat]
    exact sentencesRead_step ih segment

/-- The sentences are the groups, in order. -/
theorem sentencesOf_spec (segments : List (AudioGraphNode F)) :
    (sentencesOf segments).map Sentence.members = segments.splitBy goesOn ∧
      (sentencesOf segments).map Sentence.ordinal = List.range' 1 (sentencesOf segments).length := by
  have h := sentencesRead_foldl segments
  refine ⟨?_, (numbered_close h.numbered h.ordinal _).1⟩
  have hgroups := groups_close (s := segments.foldl sentenceStep ⟨[], 0, []⟩) (txt "WINDOW_END")
  rw [group_close, openGroup, if_pos rfl, List.append_nil, h.groups] at hgroups
  exact hgroups

/-! ## The transcript -/

variable {r : AudioGraphRequest F}

/-- The nodes of the segments that have a range and a text, in the order of the input. -/
def segmentNodes (r : AudioGraphRequest F) : List (AudioGraphNode F) :=
  (r.segments.zipIdx 1).filterMap (segmentNode r)

theorem transcript_fst (counters : WordCounters) (segments : List (List (Text × Value F) × Nat)) :
    (transcript r counters segments).map Prod.fst = segments.filterMap (segmentNode r) := by
  induction segments generalizing counters with
  | nil => rfl
  | cons segment segments ih =>
    rw [transcript]
    cases hnode : segmentNode r segment with
    | none => rw [List.filterMap_cons_none hnode, ih]
    | some node => rw [List.filterMap_cons_some hnode, List.map_cons, ih]

theorem transcriptNodes_eq : transcriptNodes r = segmentNodes r := transcript_fst _ _

theorem wordNodes_spec {segment : AudioGraphNode F} {ordinal : Nat}
    (hsegment : Built r.durationMs (.segment ordinal) segment) (hordinal : segment.ordinal = ordinal)
    (counters : WordCounters) (words : List (Value F)) :
    (∀ node ∈ (wordNodes r segment counters words).1, node.kind.isWord = true) ∧
      (wordNodes r segment counters words).1.map (fun node => (node.value, node.parent)) =
        (words.filterMap wordText).map fun text => (some text, some segment.nodeId) := by
  induction words generalizing counters with
  | nil => exact ⟨fun _ h => (nomatch h), rfl⟩
  | cons word words ih =>
    rw [wordNodes]
    cases htext : wordText word with
    | none =>
      rw [List.filterMap_cons_none htext]
      exact ih counters
    | some text =>
      obtain ⟨-, hkind, hvalue, hparent, -⟩ := wordNode_built counters word text hsegment hordinal
      obtain ⟨hkinds, hwords⟩ := ih (wordNode r segment counters word text).2
      rw [List.filterMap_cons_some htext]
      dsimp only
      refine ⟨fun node hnode => ?_, ?_⟩
      · rcases List.mem_cons.1 hnode with rfl | hnode
        · exact hkind
        · exact hkinds node hnode
      · rw [List.map_cons, List.map_cons, hwords, hvalue, hparent]

/-- A segment of the input and the texts of its words, in order. -/
def inputWords (r : AudioGraphRequest F) : List (Option Text × Option Text) :=
  (r.segments.zipIdx 1).flatMap fun (segment, ordinal) =>
    if (segmentContent r segment).isSome then
      ((wordsOf segment).filterMap wordText).map fun text => (some text, some (NodeName.segment ordinal).text)
    else []

theorem isSome_segmentNode (segment : List (Text × Value F)) (ordinal : Nat) :
    (segmentNode r (segment, ordinal)).isSome = (segmentContent r segment).isSome := Option.isSome_map

theorem transcript_spec (counters : WordCounters) (segments : List (List (Text × Value F) × Nat)) :
    (∀ entry ∈ transcript r counters segments, entry.1.kind = .transcriptSegment ∧
      ∀ node ∈ entry.2, node.kind.isWord = true) ∧
    ((transcript r counters segments).flatMap Prod.snd).map (fun node => (node.value, node.parent)) =
      segments.flatMap fun (segment, ordinal) =>
        if (segmentContent r segment).isSome then
          ((wordsOf segment).filterMap wordText).map fun text => (some text, some (NodeName.segment ordinal).text)
        else [] := by
  induction segments generalizing counters with
  | nil => exact ⟨fun _ h => (nomatch h), rfl⟩
  | cons numbered segments ih =>
    obtain ⟨segment, ordinal⟩ := numbered
    rw [transcript, List.flatMap_cons]
    have hcontent := isSome_segmentNode (r := r) segment ordinal
    dsimp only
    cases hnode : segmentNode r (segment, ordinal) with
    | none =>
      rw [hnode] at hcontent
      rw [← hcontent]
      exact ih counters
    | some node =>
      rw [hnode] at hcontent
      rw [← hcontent]
      obtain ⟨hbuilt, hkind, hordinal⟩ := segmentNode_built hnode
      obtain ⟨hkinds, hwords⟩ := wordNodes_spec hbuilt hordinal counters (wordsOf segment)
      obtain ⟨hrest, hmap⟩ := ih (wordNodes r node counters (wordsOf segment)).2
      refine ⟨fun entry hentry => ?_, ?_⟩
      · rcases List.mem_cons.1 hentry with rfl | hentry
        · exact ⟨hkind, hkinds⟩
        · exact hrest entry hentry
      · rw [List.flatMap_cons, List.map_append, hmap, hwords, hbuilt.nodeId_eq]
        rfl

/-! ## Nodes by kind -/

theorem filter_observedNodes {p : AudioNodeKind → Bool} (hsource : p .source = false)
    (hspeech : p .speechRegion = false)
    (hturn : p .speakerTurn = false) (hoverlap : p .overlapRegion = false) :
    (observedNodes r).filter (fun node => p node.kind) =
      ((transcript r ⟨0, 0, 0⟩ (r.segments.zipIdx 1)).flatMap fun (segment, words) => segment :: words).filter
        fun node => p node.kind := by
  have hnone {f : List (Text × Value F) × Nat → Option (AudioGraphNode F)} {kind : AudioNodeKind}
      (hkind : p kind = false)
      (hf : ∀ fields ordinal node, f (fields, ordinal) = some node → node.kind = kind)
      (observations : List (List (Text × Value F) × Nat)) :
      (observations.filterMap f).filter (fun node => p node.kind) = [] := by
    refine List.filter_eq_nil_iff.2 fun node hnode => ?_
    obtain ⟨⟨fields, ordinal⟩, -, hsome⟩ := List.mem_filterMap.1 hnode
    rw [hf fields ordinal node hsome, hkind]
    exact Bool.false_ne_true
  have hsources : [sourceNode r].filter (fun node => p node.kind) = [] := by
    refine List.filter_eq_nil_iff.2 fun node hnode => ?_
    rw [List.mem_singleton.1 hnode, show (sourceNode r).kind = .source from rfl, hsource]
    exact Bool.false_ne_true
  unfold observedNodes
  rw [List.cons_append, List.cons_append, List.cons_append, ← List.singleton_append, List.filter_append, hsources,
    List.filter_append, List.filter_append, List.filter_append,
    hnone hspeech fun _ _ _ h => (speechNode_built h).2, hnone hturn fun _ _ _ h => (turnNode_built h).2,
    hnone hoverlap fun _ _ _ h => (overlapNode_built h).2]
  rfl

theorem filter_flatMap_fst {entries : List (AudioGraphNode F × List (AudioGraphNode F))}
    (h : ∀ entry ∈ entries, entry.1.kind = .transcriptSegment ∧ ∀ node ∈ entry.2, node.kind.isWord = true) :
    (entries.flatMap fun (segment, words) => segment :: words).filter (fun node => node.kind = .transcriptSegment) =
        entries.map Prod.fst ∧
      (entries.flatMap fun (segment, words) => segment :: words).filter (fun node => node.kind.isWord) =
        entries.flatMap Prod.snd ∧
      (entries.flatMap fun (segment, words) => segment :: words).filter (fun node => node.kind = .sentenceGroup) =
        [] := by
  induction entries with
  | nil => exact ⟨rfl, rfl, rfl⟩
  | cons entry entries ih =>
    obtain ⟨hsegments, hwords, hsentences⟩ := ih fun e he => h e (List.mem_cons_of_mem _ he)
    obtain ⟨hkind, hkinds⟩ := h entry List.mem_cons_self
    have hother (kind : AudioNodeKind) (hkind : kind.isWord = false) :
        entry.2.filter (fun node => node.kind = kind) = [] :=
      List.filter_eq_nil_iff.2 fun node hnode heq => by
        have hword := hkinds node hnode
        rw [of_decide_eq_true heq, hkind] at hword
        cases hword
    refine ⟨?_, ?_, ?_⟩
    · rw [List.flatMap_cons, List.filter_append, hsegments, List.filter_cons, if_pos (decide_eq_true hkind),
        hother .transcriptSegment rfl]
      rfl
    · rw [List.flatMap_cons, List.filter_append, hwords, List.filter_cons, if_neg (by rw [hkind]; decide),
        List.filter_eq_self.2 hkinds]
      rfl
    · rw [List.flatMap_cons, List.filter_append, hsentences, List.filter_cons, if_neg (by rw [hkind]; decide),
        hother .sentenceGroup rfl]
      rfl

/-! ## The build -/

def sentenceNodes (r : AudioGraphRequest F) : List (AudioGraphNode F) :=
  (sentencesOf (transcriptNodes r)).map sentenceNode

def graphOf (r : AudioGraphRequest F) : AudioDocumentGraph F where
  sourceSha256 := r.sourceSha256
  durationMs := r.durationMs
  windowStartMs := r.windowStartMs
  windowEndMs := r.windowEndMs
  nodes := sortedBy nodeOrder (observedNodes r ++ sentenceNodes r)

theorem segmentNodes_built {node : AudioGraphNode F} (h : node ∈ segmentNodes r) :
    ∃ ordinal, Built r.durationMs (.segment ordinal) node := by
  obtain ⟨⟨segment, ordinal⟩, -, hnode⟩ := List.mem_filterMap.1 h
  exact ⟨ordinal, (segmentNode_built hnode).1⟩

theorem members_of_sentence {sentence : Sentence F} (h : sentence ∈ sentencesOf (transcriptNodes r)) :
    sentence.members ∈ (segmentNodes r).splitBy goesOn ∧ ∀ node ∈ sentence.members, node ∈ segmentNodes r := by
  have hmem : sentence.members ∈ (segmentNodes r).splitBy goesOn := by
    rw [← transcriptNodes_eq, ← (sentencesOf_spec (transcriptNodes r)).1]
    exact List.mem_map_of_mem h
  refine ⟨hmem, fun node hnode => ?_⟩
  rw [← List.flatten_splitBy goesOn (segmentNodes r)]
  exact List.mem_flatten_of_mem hmem hnode

theorem sentenceNode_built {sentence : Sentence F} (h : sentence ∈ sentencesOf (transcriptNodes r))
    (hrange : (sentenceNode sentence).startMs < (sentenceNode sentence).endMs) :
    Built r.durationMs (.sentence sentence.ordinal) (sentenceNode sentence) := by
  have hmembers := (members_of_sentence h).2
  obtain ⟨_, hfirst⟩ := segmentNodes_built (hmembers _ (List.head_mem sentence.nonempty))
  obtain ⟨_, hlast⟩ := segmentNodes_built (hmembers _ (List.getLast_mem sentence.nonempty))
  refine ⟨rfl, List.cons_ne_nil _ _, ⟨hfirst.range.1, hrange, hlast.range.2.2⟩, _, rfl, ?_⟩
  simp only [List.map_cons, List.map_nil]
  decide

theorem namedBy_observedNodes : NamedBy r.durationMs (∀ ordinal, · ≠ .sentence ordinal) (observedNodes r) := by
  have hspeech := namedBy_filterMap (fun _ _ h => NodeName.speech.inj h)
    (fun _ _ _ h => (speechNode_built (r := r) h).1) r.intervals 1
  have hturns := namedBy_filterMap (fun _ _ h => NodeName.speakerTurn.inj h)
    (fun _ _ _ h => (turnNode_built (r := r) h).1) r.speakerTurns 1
  have hoverlaps := namedBy_filterMap (fun _ _ h => NodeName.overlap.inj h)
    (fun _ _ _ h => (overlapNode_built (r := r) h).1) r.overlapRegions 1
  have htranscript := namedBy_transcript (r := r) ⟨0, 0, 0⟩ r.segments 1
  have h := (((NamedBy.singleton sourceNode_built).append hspeech ?_).append hturns ?_).append hoverlaps ?_
    |>.append htranscript ?_
  · refine h.mono ?_
    rintro name ((((rfl | ⟨_, _, rfl⟩) | ⟨_, _, rfl⟩) | ⟨_, _, rfl⟩) | ⟨_, _, rfl⟩ | ⟨_, _, _, _, rfl⟩) _ heq <;>
      cases heq
  · rintro _ rfl ⟨_, _, heq⟩
    cases heq
  · rintro _ (rfl | ⟨_, _, rfl⟩) ⟨_, _, heq⟩ <;> cases heq
  · rintro _ ((rfl | ⟨_, _, rfl⟩) | ⟨_, _, rfl⟩) ⟨_, _, heq⟩ <;> cases heq
  · rintro _ (((rfl | ⟨_, _, rfl⟩) | ⟨_, _, rfl⟩) | ⟨_, _, rfl⟩) (⟨_, _, heq⟩ | ⟨_, _, _, _, heq⟩) <;> cases heq

theorem namedBy_sentenceNodes (h : ∀ node ∈ sentenceNodes r, node.startMs < node.endMs) :
    NamedBy r.durationMs (fun name => ∃ ordinal, name = .sentence ordinal) (sentenceNodes r) := by
  refine ⟨(sentencesOf (transcriptNodes r)).map fun sentence => .sentence sentence.ordinal, ?_, ?_, ?_⟩
  · unfold sentenceNodes
    rw [List.forall₂_map_left_iff, List.forall₂_map_right_iff, List.forall₂_same]
    exact fun sentence hsentence => sentenceNode_built hsentence (h _ (List.mem_map_of_mem hsentence))
  · have hordinals : ((sentencesOf (transcriptNodes r)).map Sentence.ordinal).Nodup := by
      rw [(sentencesOf_spec (transcriptNodes r)).2]
      exact List.nodup_range'
    have hnames := hordinals.map (f := NodeName.sentence) fun _ _ heq => NodeName.sentence.inj heq
    rw [List.map_map] at hnames
    exact hnames
  · intro name hname
    obtain ⟨sentence, -, rfl⟩ := List.mem_map.1 hname
    exact ⟨_, rfl⟩

theorem lookup_authority : (lookup r.probe (txt "authority")).isSome = false := by
  have hfree := (List.nodup_cons.1 r.probe_keys).1
  cases hlookup : lookup r.probe (txt "authority") with
  | none => rfl
  | some value => exact absurd (List.mem_map_of_mem (mem_of_lookup hlookup)) hfree

theorem range_of_check {node node' : AudioGraphNode F} (h : node.check = .ok node') :
    node' = node ∧ node.startMs < node.endMs := by
  unfold AudioGraphNode.check at h
  dsimp only at h
  split_ifs at h with hidentity hrange hextension
  refine ⟨(Except.ok.inj h).symm, ?_⟩
  omega

theorem ranges_of_mapM {xs ys : List (AudioGraphNode F)} (h : xs.mapM AudioGraphNode.check = .ok ys) :
    ys = xs ∧ ∀ node ∈ xs, node.startMs < node.endMs := by
  induction xs generalizing ys with
  | nil => exact ⟨(Except.ok.inj h).symm, fun _ hnode => (nomatch hnode)⟩
  | cons x xs ih =>
    rw [List.mapM_cons] at h
    obtain ⟨y, hy, htail⟩ := bind_eq_ok.1 h
    obtain ⟨rest, hrest, hend⟩ := bind_eq_ok.1 htail
    obtain ⟨rfl, hx⟩ := range_of_check hy
    obtain ⟨rfl, hxs⟩ := ih hrest
    exact ⟨(Except.ok.inj hend).symm, List.forall_mem_cons.2 ⟨hx, hxs⟩⟩

theorem graphOf_perm : (graphOf r).nodes.Perm (observedNodes r ++ sentenceNodes r) := sortedBy_perm

theorem namedBy_nodes (h : ∀ node ∈ sentenceNodes r, node.startMs < node.endMs) :
    NamedBy r.durationMs (fun name => (∀ ordinal, name ≠ .sentence ordinal) ∨ ∃ ordinal, name = .sentence ordinal)
      (observedNodes r ++ sentenceNodes r) :=
  namedBy_observedNodes.append (namedBy_sentenceNodes h) fun _ hname ⟨ordinal, heq⟩ => hname ordinal heq

theorem graphOf_distinct (h : ∀ node ∈ sentenceNodes r, node.startMs < node.endMs) :
    ((graphOf r).nodes.map AudioGraphNode.nodeId).Nodup :=
  (graphOf_perm.map AudioGraphNode.nodeId).nodup_iff.2 (namedBy_nodes h).nodup

theorem graphOf_check (h : ∀ node ∈ sentenceNodes r, node.startMs < node.endMs) :
    (graphOf r).check = .ok (graphOf r) := by
  have hsource : sourceIdentity (graphOf r).sourceSha256 = true := r.source_valid
  have hwindow : windowValid (graphOf r).durationMs (graphOf r).windowStartMs (graphOf r).windowEndMs = true :=
    r.window_valid
  have hsorted : (graphOf r).nodes.Pairwise fun a b => nodeOrder a ≤ nodeOrder b := sortedBy_pairwise
  have hinside : ¬ ∃ node ∈ (graphOf r).nodes, node.endMs > (graphOf r).durationMs := by
    rintro ⟨node, hnode, hgt⟩
    obtain ⟨_, -, hbuilt⟩ := (namedBy_nodes h).built (graphOf_perm.mem_iff.1 hnode)
    exact absurd hbuilt.range.2.2 (not_le.2 hgt)
  unfold AudioDocumentGraph.check
  rw [if_neg (not_not.2 hsource), if_neg (not_not.2 hwindow), if_neg (not_not.2 (graphOf_distinct h)),
    if_neg (not_not.2 hsorted), if_neg hinside]

/-- The graph is unique; it is built if the sentences have a range. -/
theorem buildAudioDocumentGraph_eq_ok {graph : AudioDocumentGraph F} : buildAudioDocumentGraph r = .ok graph ↔
    (∀ node ∈ sentenceNodes r, node.startMs < node.endMs) ∧ graph = graphOf r := by
  have hobserved : (observedNodes r).mapM AudioGraphNode.check = .ok (observedNodes r) :=
    mapM_check_eq fun node hnode => by
      obtain ⟨_, -, hbuilt⟩ := namedBy_observedNodes.built hnode
      exact hbuilt.check_eq
  have hbuild : buildAudioDocumentGraph r = (sentenceNodes r).mapM AudioGraphNode.check >>= fun sentences =>
      AudioDocumentGraph.check { graphOf r with nodes := sortedBy nodeOrder (observedNodes r ++ sentences) } := by
    unfold buildAudioDocumentGraph
    rw [lookup_authority, hobserved]
    rfl
  rw [hbuild]
  constructor
  · intro h
    obtain ⟨sentences, hsentences, h⟩ := bind_eq_ok.1 h
    obtain ⟨rfl, hranges⟩ := ranges_of_mapM hsentences
    exact ⟨hranges, Except.ok.inj (h.symm.trans (graphOf_check hranges))⟩
  · rintro ⟨hranges, rfl⟩
    have hsentences : (sentenceNodes r).mapM AudioGraphNode.check = .ok (sentenceNodes r) :=
      mapM_check_eq fun node hnode => by
        obtain ⟨_, -, hbuilt⟩ := (namedBy_sentenceNodes hranges).built hnode
        exact hbuilt.check_eq
    rw [hsentences]
    exact graphOf_check hranges

/-! ## What the graph covers -/

/-- A run of segments in which the sentence goes on, and which goes on on neither side. -/
def IsSentence (segments run : List (AudioGraphNode F)) : Prop :=
  ∃ before after, segments = before ++ run ++ after ∧ run ≠ [] ∧ (run.IsChain fun a b => goesOn a b = true) ∧
    (∀ a ∈ before.getLast?, ∀ b ∈ run.head?, goesOn a b = false) ∧
    ∀ a ∈ run.getLast?, ∀ b ∈ after.head?, goesOn a b = false

/-- In every sentence the first segment starts first and the last one ends last. -/
def SentencesOrdered (r : AudioGraphRequest F) : Prop :=
  ∀ run, IsSentence (segmentNodes r) run → ∀ first ∈ run.head?, ∀ last ∈ run.getLast?, ∀ node ∈ run,
    first.startMs ≤ node.startMs ∧ node.endMs ≤ last.endMs

/-- Segments and words are each one node; the sentences, by their ordinals and their counts, share out the segments
and hold the ranges of their members. -/
structure AudioGraphCovers (r : AudioGraphRequest F) (graph : AudioDocumentGraph F) : Prop where
  distinct : (graph.nodes.map AudioGraphNode.nodeId).Nodup
  segments : (graph.nodes.filter fun node => node.kind = .transcriptSegment).Perm (segmentNodes r)
  words : ((graph.nodes.filter fun node => node.kind.isWord).map fun node => (node.value, node.parent)).Perm
    (inputWords r)
  sentences : ∃ groups : List (AudioGraphNode F × List (AudioGraphNode F)),
    (groups.map Prod.fst).Perm (graph.nodes.filter fun node => node.kind = .sentenceGroup) ∧
    groups.flatMap Prod.snd = segmentNodes r ∧
    groups.map (fun group => group.1.ordinal) = List.range' 1 groups.length ∧
    (∀ group ∈ groups, lookup group.1.extension (txt "segment_count") = some (.int group.2.length)) ∧
    ∀ group ∈ groups, group.2 ≠ [] ∧ ∀ node ∈ group.2, group.1.startMs ≤ node.startMs ∧ node.endMs ≤ group.1.endMs

theorem sentenceNodes_kind : (sentenceNodes r).filter (fun node => node.kind = .sentenceGroup) = sentenceNodes r ∧
    ∀ p : AudioNodeKind → Bool, p .sentenceGroup = false → (sentenceNodes r).filter (fun node => p node.kind) = [] := by
  have hkind : ∀ node ∈ sentenceNodes r, node.kind = .sentenceGroup := fun node hnode => by
    obtain ⟨sentence, -, rfl⟩ := List.mem_map.1 hnode
    rfl
  refine ⟨List.filter_eq_self.2 fun node hnode => decide_eq_true (hkind node hnode), fun p hp => ?_⟩
  refine List.filter_eq_nil_iff.2 fun node hnode => ?_
  rw [hkind node hnode, hp]
  exact Bool.false_ne_true

theorem filter_nodes (p : AudioNodeKind → Bool) (hsource : p .source = false) (hspeech : p .speechRegion = false)
    (hturn : p .speakerTurn = false) (hoverlap : p .overlapRegion = false) :
    ((graphOf r).nodes.filter fun node => p node.kind).Perm
      (((transcript r ⟨0, 0, 0⟩ (r.segments.zipIdx 1)).flatMap fun (segment, words) => segment :: words).filter
        (fun node => p node.kind) ++ (sentenceNodes r).filter fun node => p node.kind) := by
  have hperm := graphOf_perm (r := r) |>.filter fun node => p node.kind
  rw [List.filter_append, filter_observedNodes hsource hspeech hturn hoverlap] at hperm
  exact hperm

theorem mem_extensionOf {values : List (Text × Value F)} {key : Text} {value : Value F} (h : (key, value) ∈ values)
    (hnone : value.isNone = false) : (key, primitive value) ∈ extensionOf values := by
  unfold extensionOf
  rw [mem_sortedBy]
  exact List.mem_map_of_mem (f := fun entry : Text × Value F => (entry.1, primitive entry.2))
    (List.mem_filter.2 ⟨h, by simp [hnone]⟩)

theorem lookup_segment_count (sentence : Sentence F) :
    lookup (sentenceNode sentence).extension (txt "segment_count") = some (.int sentence.members.length) := by
  unfold sentenceNode
  have hcount : (Value.int (F := F) sentence.members.length).isNone = false := rfl
  refine lookup_of_mem (extensionOf_keys ?_).2 (mem_extensionOf ?_ hcount)
  · simp only [List.map_cons, List.map_nil]
    decide
  · exact List.mem_cons_of_mem _ (List.mem_cons_of_mem _ (List.mem_cons_of_mem _ List.mem_cons_self))

/-- The sentences of the graph with what they group. -/
def sentenceGroups (r : AudioGraphRequest F) : List (AudioGraphNode F × List (AudioGraphNode F)) :=
  (sentencesOf (transcriptNodes r)).map fun sentence => (sentenceNode sentence, sentence.members)

theorem graphOf_covers (hranges : ∀ node ∈ sentenceNodes r, node.startMs < node.endMs) (hordered : SentencesOrdered r) :
    AudioGraphCovers r (graphOf r) := by
  have hkinds := filter_flatMap_fst (transcript_spec (r := r) ⟨0, 0, 0⟩ (r.segments.zipIdx 1)).1
  obtain ⟨hsentences, hothers⟩ := sentenceNodes_kind (r := r)
  refine ⟨graphOf_distinct hranges, ?_, ?_, sentenceGroups r, ?_, ?_, ?_, ?_, ?_⟩
  · have h := filter_nodes (r := r) (fun kind => kind = .transcriptSegment) rfl rfl rfl rfl
    rw [hothers (fun kind => kind = .transcriptSegment) rfl, List.append_nil, hkinds.1, transcript_fst] at h
    exact h
  · have h := filter_nodes (r := r) AudioNodeKind.isWord rfl rfl rfl rfl
    rw [hothers AudioNodeKind.isWord rfl, List.append_nil, hkinds.2.1] at h
    have hmap := h.map fun node => (node.value, node.parent)
    rw [(transcript_spec ⟨0, 0, 0⟩ _).2] at hmap
    exact hmap
  · have h := filter_nodes (r := r) (fun kind => kind = .sentenceGroup) rfl rfl rfl rfl
    rw [hsentences, hkinds.2.2, List.nil_append] at h
    unfold sentenceGroups
    rw [List.map_map]
    exact h.symm
  · unfold sentenceGroups
    rw [List.flatMap_map, List.flatMap_def, (sentencesOf_spec (transcriptNodes r)).1, List.flatten_splitBy,
      transcriptNodes_eq]
  · unfold sentenceGroups
    rw [List.map_map, List.length_map]
    exact (sentencesOf_spec (transcriptNodes r)).2
  · intro group hgroup
    obtain ⟨sentence, -, rfl⟩ := List.mem_map.1 hgroup
    exact lookup_segment_count sentence
  · intro group hgroup
    obtain ⟨sentence, hsentence, rfl⟩ := List.mem_map.1 hgroup
    exact ⟨sentence.nonempty, fun node hnode => hordered _ (mem_splitBy_iff.1 (members_of_sentence hsentence).1) _
      (List.head_mem_head? _) _ (List.getLast_mem_getLast? _) node hnode⟩

theorem ranges_of_ordered (hordered : SentencesOrdered r) : ∀ node ∈ sentenceNodes r, node.startMs < node.endMs := by
  intro node hnode
  obtain ⟨sentence, hsentence, rfl⟩ := List.mem_map.1 hnode
  obtain ⟨hmem, hmembers⟩ := members_of_sentence hsentence
  have hfirst := List.head_mem sentence.nonempty
  obtain ⟨_, hbuilt⟩ := segmentNodes_built (hmembers _ hfirst)
  have hwithin := hordered _ (mem_splitBy_iff.1 hmem) _ (List.head_mem_head? sentence.nonempty) _
    (List.getLast_mem_getLast? sentence.nonempty) _ hfirst
  exact lt_of_lt_of_le hbuilt.range.2.1 hwithin.2

/-- Ordinals and counts leave one way to group. -/
theorem groups_unique {groups : List (AudioGraphNode F × List (AudioGraphNode F))}
    (hperm : (groups.map Prod.fst).Perm (sentenceNodes r)) (hflat : groups.flatMap Prod.snd = segmentNodes r)
    (hnumbered : groups.map (fun group => group.1.ordinal) = List.range' 1 groups.length)
    (hcounts : ∀ group ∈ groups, lookup group.1.extension (txt "segment_count") = some (.int group.2.length)) :
    groups = sentenceGroups r := by
  obtain ⟨hmembers, hordinals⟩ := sentencesOf_spec (transcriptNodes r)
  have hlength : groups.length = (sentencesOf (transcriptNodes r)).length := by
    simpa [sentenceNodes] using hperm.length_eq
  have hleft : (groups.map Prod.fst).map AudioGraphNode.ordinal = List.range' 1 groups.length := by
    rw [List.map_map]
    exact hnumbered
  have hright : (sentenceNodes r).map AudioGraphNode.ordinal = List.range' 1 groups.length := by
    unfold sentenceNodes
    rw [List.map_map, hlength]
    exact hordinals
  have hsorted {nodes : List (AudioGraphNode F)} (h : nodes.map AudioGraphNode.ordinal = List.range' 1 groups.length) :
      nodes.Pairwise fun a b => a.ordinal ≤ b.ordinal := by
    rw [← List.pairwise_map, h]
    exact List.pairwise_le_range'
  have hinj : ∀ a ∈ groups.map Prod.fst, ∀ b ∈ groups.map Prod.fst, a.ordinal = b.ordinal → a = b := fun a ha b hb =>
    List.inj_on_of_nodup_map (by rw [hleft]; exact List.nodup_range') ha hb
  have hfirst : groups.map Prod.fst = sentenceNodes r := by
    rw [← sortedBy_unique (.refl _) (hsorted hleft) hinj]
    exact sortedBy_unique hperm (hsorted hright) hinj
  have hcount : groups.map (fun group => (some (.int group.2.length) : Option (Value F))) =
      (sentencesOf (transcriptNodes r)).map fun sentence => some (.int sentence.members.length) := by
    have hlookup := congrArg (List.map fun node => lookup node.extension (txt "segment_count")) hfirst
    unfold sentenceNodes at hlookup
    rw [List.map_map, List.map_map] at hlookup
    rw [← List.map_congr_left hcounts]
    exact hlookup.trans (List.map_congr_left fun sentence _ => lookup_segment_count sentence)
  have hlengths : (groups.map Prod.snd).map List.length =
      ((sentencesOf (transcriptNodes r)).map Sentence.members).map List.length := by
    have hinjective : Function.Injective fun n : Nat => (some (.int n) : Option (Value F)) := fun m n heq => by
      injection Option.some.inj heq with heq
      exact Int.ofNat.inj heq
    refine List.map_injective_iff.2 hinjective ?_
    rw [List.map_map, List.map_map, List.map_map, List.map_map]
    exact hcount
  have hsecond : groups.map Prod.snd = (sentencesOf (transcriptNodes r)).map Sentence.members := by
    refine List.eq_iff_flatten_eq.2 ⟨?_, hlengths⟩
    rw [hmembers, List.flatten_splitBy, transcriptNodes_eq, ← hflat]
    exact List.flatMap_def.symm
  rw [List.zip_of_prod hfirst hsecond]
  unfold sentenceNodes sentenceGroups
  exact List.zip_map'

theorem ordered_of_covers {graph : AudioDocumentGraph F} (hgraph : graph = graphOf r)
    (hcovers : AudioGraphCovers r graph) : SentencesOrdered r := by
  subst hgraph
  obtain ⟨groups, hperm, hflat, hnumbered, hcounts, hholds⟩ := hcovers.sentences
  obtain ⟨hsentences, -⟩ := sentenceNodes_kind (r := r)
  have hkinds := filter_flatMap_fst (transcript_spec (r := r) ⟨0, 0, 0⟩ (r.segments.zipIdx 1)).1
  have hnodes := filter_nodes (r := r) (fun kind => kind = .sentenceGroup) rfl rfl rfl rfl
  rw [hsentences, hkinds.2.2, List.nil_append] at hnodes
  have hgroups := groups_unique (hperm.trans hnodes) hflat hnumbered hcounts
  intro run hrun first hfirst last hlast node hnode
  have hmem : run ∈ (sentencesOf (transcriptNodes r)).map Sentence.members := by
    rw [(sentencesOf_spec _).1, transcriptNodes_eq]
    exact mem_splitBy_iff.2 hrun
  obtain ⟨sentence, hsentence, rfl⟩ := List.mem_map.1 hmem
  have hhold := (hholds (sentenceNode sentence, sentence.members)
    (by rw [hgroups]; exact List.mem_map_of_mem hsentence)).2 node hnode
  rw [← List.head_of_mem_head? hfirst, ← List.getLast_of_mem_getLast? hlast]
  exact hhold

/-- The build succeeds and covers its input if in every sentence the first segment starts first and the last one ends
last, and only then. -/
theorem buildAudioDocumentGraph_iff (r : AudioGraphRequest F) :
    (∃ graph, buildAudioDocumentGraph r = .ok graph ∧ AudioGraphCovers r graph) ↔ SentencesOrdered r := by
  constructor
  · rintro ⟨graph, hbuild, hcovers⟩
    exact ordered_of_covers (buildAudioDocumentGraph_eq_ok.1 hbuild).2 hcovers
  · intro hordered
    have hranges := ranges_of_ordered hordered
    exact ⟨graphOf r, buildAudioDocumentGraph_eq_ok.2 ⟨hranges, rfl⟩, graphOf_covers hranges hordered⟩

end

/-- A segment of the transcript without words. -/
def plainSegment (startMs endMs : Int) (text : String) : List (Text × Value Unit) :=
  [(txt "location", .dict [(txt "start_ms", .int startMs), (txt "end_ms", .int endMs)]),
    (txt "text_or_value", .str (txt text))]

/-- Two segments, the second of which ends before the first one starts. -/
def disorderedRequest : AudioGraphRequest Unit where
  sourceSha256 := List.replicate 64 (ch '0')
  durationMs := 10000
  windowStartMs := 0
  windowEndMs := 10000
  probe := []
  intervals := []
  segments := [plainSegment 2000 3000 "second", plainSegment 0 1000 "first"]
  modelId := .none
  modelIdentitySha256 := .none
  speakerTurns := []
  overlapRegions := []
  diarizationModelIdentitySha256 := .none
  source_valid := by decide
  window_valid := by decide
  probe_keys := by decide

theorem disorderedRequest_uncovered :
    ¬ ∃ graph, buildAudioDocumentGraph disorderedRequest = .ok graph ∧ AudioGraphCovers disorderedRequest graph := by
  rintro ⟨graph, hbuild, hcovers⟩
  have hordered := ordered_of_covers (buildAudioDocumentGraph_eq_ok.1 hbuild).2 hcovers
  have hsentence : IsSentence (segmentNodes disorderedRequest) (segmentNodes disorderedRequest) :=
    ⟨[], [], (List.append_nil _).symm, List.cons_ne_nil _ _, List.isChain_pair.2 (by decide), nofun, nofun⟩
  have hfirst := (hordered _ hsentence _ rfl _ rfl _ (List.mem_cons_of_mem _ List.mem_cons_self)).1
  exact absurd hfirst (by decide)

end Steward.Media
