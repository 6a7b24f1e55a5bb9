import Steward.Media.AudioGraph

/-!
# What the audio graph holds

The nodes of a request have names of their own and pass their checks; only a
sentence can fail. `buildAudioDocumentGraph_iff` says when none does and when the
sentences hold what they group.
-/

namespace Steward.Media

open Py

/-! ## Names -/

theorem padTo_all (width n : Nat) : ∀ c ∈ padTo width n, Text.isDigit c = true := fun c hc => by
  rcases List.mem_append.1 hc with hc | hc
  · rw [(List.mem_replicate.1 hc).2]
    exact Text.isDigit_digit 0
  · exact Text.ofNat_all n c hc

theorem toNat_padTo (width n : Nat) : Text.toNat (padTo width n) = n := by
  rw [padTo, Text.toNat_replicate_zero, Text.toNat_ofNat]

theorem padTo_ne_nil (width n : Nat) : padTo width n ≠ [] := by
  unfold padTo
  simp [Text.ofNat_ne_nil]

theorem takeWhile_stem {p : CodePoint → Bool} {s t : Text} (hs : ∀ c ∈ s, p c = true)
    (ht : ∀ c ∈ t.head?, p c = false) : (s ++ t).takeWhile p = s := by
  rw [List.takeWhile_append_of_pos hs]
  cases t with
  | nil => simp
  | cons c t => rw [List.takeWhile_cons_of_neg (by simp [ht c rfl]), List.append_nil]

/-- A text without digits, then a number, then what does not begin with a digit. -/
theorem digits_of_append {stem stem' rest rest' : Text} {width width' n n' : Nat}
    (hstem : ∀ c ∈ stem, (!Text.isDigit c) = true) (hstem' : ∀ c ∈ stem', (!Text.isDigit c) = true)
    (hrest : ∀ c ∈ rest.head?, Text.isDigit c = false) (hrest' : ∀ c ∈ rest'.head?, Text.isDigit c = false)
    (h : stem ++ (padTo width n ++ rest) = stem' ++ (padTo width' n' ++ rest')) :
    stem = stem' ∧ n = n' ∧ rest = rest' := by
  have hdigit (width n : Nat) (rest : Text) : ∀ c ∈ (padTo width n ++ rest).head?, (!Text.isDigit c) = false := by
    obtain ⟨c, cs, hcons⟩ := List.exists_cons_of_ne_nil (padTo_ne_nil width n)
    rw [hcons]
    rintro _ ⟨⟩
    rw [padTo_all width n c (hcons ▸ List.mem_cons_self)]
    rfl
  have hstems : stem = stem' := by
    rw [← takeWhile_stem hstem (hdigit width n rest), h, takeWhile_stem hstem' (hdigit width' n' rest')]
  subst hstems
  have hnumbers := List.append_cancel_left h
  have hpads : padTo width n = padTo width' n' := by
    rw [← takeWhile_stem (padTo_all width n) hrest, hnumbers, takeWhile_stem (padTo_all width' n') hrest']
  refine ⟨rfl, ?_, List.append_cancel_left (hpads ▸ hnumbers)⟩
  rw [← toNat_padTo width n, hpads, toNat_padTo]

def NodeName.family : NodeName → Fin 6
  | .source => 0
  | .speech _ => 1
  | .speakerTurn _ => 2
  | .overlap _ => 3
  | .segment _ | .word _ _ => 4
  | .sentence _ => 5

/-- What comes before the number of a name. -/
def stemOf (family : Fin 6) : Text :=
  [txt "audio:source", txt "audio:speech:", txt "audio:speaker-turn:", txt "audio:overlap:", txt "audio:segment:",
    txt "audio:sentence:"].get family

theorem stemOf_injective : Function.Injective stemOf := by
  intro i j
  revert i j
  decide

theorem stemOf_all (family : Fin 6) : ∀ c ∈ stemOf family, (!Text.isDigit c) = true := by
  rw [← List.all_eq_true]
  revert family
  decide

def NodeName.number : NodeName → Nat
  | .source => 0
  | .speech n | .speakerTurn n | .overlap n | .segment n | .word n _ | .sentence n => n

/-- What comes after the number. -/
def NodeName.rest : NodeName → Text
  | .word _ sequence => txt ":word:" ++ padTo 5 sequence
  | _ => []

theorem NodeName.text_eq {a : NodeName} (h : a ≠ .source) :
    a.text = stemOf a.family ++ (padTo 4 a.number ++ a.rest) := by
  cases a with
  | source => exact absurd rfl h
  | word parent sequence => exact (List.append_assoc _ _ _).trans (List.append_assoc _ _ _)
  | _ => exact congrArg _ (List.append_nil _).symm

theorem NodeName.rest_head (a : NodeName) : ∀ c ∈ a.rest.head?, Text.isDigit c = false := by
  cases a with
  | word parent sequence =>
    rintro _ ⟨⟩
    decide
  | _ => nofun

theorem NodeName.eq_of_parts {a b : NodeName} (hfamily : a.family = b.family) (hnumber : a.number = b.number)
    (hrest : a.rest = b.rest) : a = b := by
  cases a with
  | source => cases b <;> first | rfl | simp [family] at hfamily
  | speech ordinal => cases b <;> first | exact congrArg _ hnumber | simp [family] at hfamily
  | speakerTurn ordinal => cases b <;> first | exact congrArg _ hnumber | simp [family] at hfamily
  | overlap ordinal => cases b <;> first | exact congrArg _ hnumber | simp [family] at hfamily
  | sentence ordinal => cases b <;> first | exact congrArg _ hnumber | simp [family] at hfamily
  | segment ordinal =>
    cases b with
    | segment ordinal' => exact congrArg _ hnumber
    | word parent sequence => exact absurd hrest.symm (List.cons_ne_nil _ _)
    | _ => simp [family] at hfamily
  | word parent sequence =>
    cases b with
    | segment ordinal => exact absurd hrest (List.cons_ne_nil _ _)
    | word parent' sequence' =>
      have hword : txt ":word:" ++ (padTo 5 sequence ++ []) = txt ":word:" ++ (padTo 5 sequence' ++ []) := by
        rw [List.append_nil, List.append_nil]
        exact hrest
      have hstem : ∀ c ∈ txt ":word:", (!Text.isDigit c) = true := List.all_eq_true.1 (by decide)
      have hempty : ∀ c ∈ ([] : Text).head?, Text.isDigit c = false := fun c hc => by cases hc
      obtain ⟨-, hsequence, -⟩ := digits_of_append hstem hstem hempty hempty hword
      exact congrArg₂ _ hnumber hsequence
    | _ => simp [family] at hfamily

theorem NodeName.text_ne_source {a : NodeName} (h : a ≠ .source) : a.text ≠ NodeName.source.text := by
  intro heq
  obtain ⟨c, hc⟩ := List.exists_mem_of_ne_nil _ (padTo_ne_nil 4 a.number)
  have hmem : c ∈ NodeName.source.text := by
    rw [← heq, text_eq h]
    exact List.mem_append_right _ (List.mem_append_left _ hc)
  have hdigit := padTo_all 4 a.number c hc
  have hnot := stemOf_all 0 c hmem
  rw [hdigit] at hnot
  cases hnot

theorem NodeName.text_injective : Function.Injective NodeName.text := fun a b h => by
  by_cases ha : a = .source
  · subst ha
    by_contra hb
    exact text_ne_source (Ne.symm hb) h.symm
  · by_cases hb : b = .source
    · exact absurd (hb ▸ h) (text_ne_source ha)
    · rw [text_eq ha, text_eq hb] at h
      obtain ⟨hstem, hnumber, hrest⟩ := digits_of_append (stemOf_all _) (stemOf_all _) a.rest_head b.rest_head h
      exact eq_of_parts (stemOf_injective hstem) hnumber hrest

/-! ## Nodes that pass their check -/

section
variable {F : Type}

theorem boundedRange_spec {start stop : Value F} {durationMs : Int} {bounds : Int × Int} (hd : 0 < durationMs)
    (h : boundedRange start stop durationMs = some bounds) :
    0 ≤ bounds.1 ∧ bounds.1 < bounds.2 ∧ bounds.2 ≤ durationMs := by
  unfold boundedRange at h
  split at h
  · obtain rfl := Option.some.inj h
    dsimp only
    omega
  · cases h

/-- A node under its name, inside the source, with keywords that are told apart. -/
structure Built (durationMs : Int) (name : NodeName) (node : AudioGraphNode F) : Prop where
  nodeId_eq : node.nodeId = name.text
  role_ne : node.role ≠ []
  range : 0 ≤ node.startMs ∧ node.startMs < node.endMs ∧ node.endMs ≤ durationMs
  extension : ∃ values : List (Text × Value F), node.extension = extensionOf values ∧ (values.map Prod.fst).Nodup

theorem extensionOf_keys {values : List (Text × Value F)} (h : (values.map Prod.fst).Nodup) :
    (extensionOf values).map Prod.fst = sortedBy id ((extensionOf values).map Prod.fst) ∧
      ((extensionOf values).map Prod.fst).Nodup := by
  have hsorted : ((extensionOf values).map Prod.fst).Pairwise (· ≤ ·) := by
    rw [List.pairwise_map]
    exact sortedBy_pairwise
  have hnodup : ((extensionOf values).map Prod.fst).Nodup := by
    refine (sortedBy_perm.map Prod.fst).nodup_iff.2 ?_
    rw [List.map_map]
    exact (List.Sublist.map Prod.fst List.filter_sublist).nodup h
  exact ⟨(sortedBy_unique (.refl _) hsorted fun _ _ _ _ => id).symm, hnodup⟩

theorem NodeName.text_ne_nil (name : NodeName) : name.text ≠ [] := by
  cases name <;> exact List.cons_ne_nil _ _

theorem Built.check_eq {durationMs : Int} {name : NodeName} {node : AudioGraphNode F} (h : Built durationMs name node) :
    node.check = .ok node := by
  obtain ⟨values, hvalues, hkeys⟩ := h.extension
  obtain ⟨hsorted, hnodup⟩ := extensionOf_keys hkeys
  have hrange := h.range
  unfold AudioGraphNode.check
  rw [hvalues, if_neg (by rw [h.nodeId_eq]; simp [NodeName.text_ne_nil, h.role_ne]), if_neg (by omega),
    if_neg (by rw [not_or, not_not, not_not]; exact ⟨hsorted, hnodup⟩)]

variable {r : AudioGraphRequest F}

theorem AudioGraphRequest.duration_pos (r : AudioGraphRequest F) : 0 < r.durationMs :=
  (of_decide_eq_true r.window_valid).1

theorem sourceNode_built : Built r.durationMs .source (sourceNode r) where
  nodeId_eq := rfl
  role_ne := List.cons_ne_nil _ _
  range := ⟨le_refl _, r.duration_pos, le_refl _⟩
  extension := ⟨_, rfl, r.probe_keys⟩

theorem speechNode_built {interval : List (Text × Value F)} {ordinal : Nat} {node : AudioGraphNode F}
    (h : speechNode r (interval, ordinal) = some node) :
    Built r.durationMs (.speech ordinal) node ∧ node.kind = .speechRegion := by
  unfold speechNode at h
  dsimp only at h
  split at h
  · obtain ⟨bounds, hbounds, rfl⟩ := Option.map_eq_some_iff.1 h
    refine ⟨⟨rfl, List.cons_ne_nil _ _, boundedRange_spec r.duration_pos hbounds, _, rfl, ?_⟩, rfl⟩
    simp only [List.map_cons, List.map_nil]
    decide
  · cases h

theorem turnNode_built {turn : List (Text × Value F)} {ordinal : Nat} {node : AudioGraphNode F}
    (h : turnNode r (turn, ordinal) = some node) :
    Built r.durationMs (.speakerTurn ordinal) node ∧ node.kind = .speakerTurn := by
  unfold turnNode at h
  dsimp only at h
  split at h
  · rename_i bounds label hbounds _
    obtain rfl := Option.some.inj h
    refine ⟨⟨rfl, List.cons_ne_nil _ _, boundedRange_spec r.duration_pos hbounds, _, rfl, ?_⟩, rfl⟩
    simp only [List.map_cons, List.map_nil]
    decide
  · cases h

theorem overlapNode_built {region : List (Text × Value F)} {ordinal : Nat} {node : AudioGraphNode F}
    (h : overlapNode r (region, ordinal) = some node) :
    Built r.durationMs (.overlap ordinal) node ∧ node.kind = .overlapRegion := by
  unfold overlapNode at h
  dsimp only at h
  split at h
  · rename_i bounds speakers hbounds _
    split_ifs at h
    obtain ⟨labels, -, rfl⟩ := Option.map_eq_some_iff.1 h
    refine ⟨⟨rfl, List.cons_ne_nil _ _, boundedRange_spec r.duration_pos hbounds, _, rfl, ?_⟩, rfl⟩
    simp only [List.map_cons, List.map_nil]
    decide
  · cases h

theorem segmentContent_range {segment : List (Text × Value F)} {range : Int × Int} {text : Text}
    (h : segmentContent r segment = some (range, text)) : 0 ≤ range.1 ∧ range.1 < range.2 ∧ range.2 ≤ r.durationMs := by
  unfold segmentContent at h
  split at h
  · obtain ⟨bounds, hbounds, heq⟩ := Option.map_eq_some_iff.1 h
    obtain ⟨rfl, -⟩ := Prod.mk.inj heq
    exact boundedRange_spec r.duration_pos hbounds
  · cases h

theorem segmentNode_built {segment : List (Text × Value F)} {ordinal : Nat} {node : AudioGraphNode F}
    (h : segmentNode r (segment, ordinal) = some node) :
    Built r.durationMs (.segment ordinal) node ∧ node.kind = .transcriptSegment ∧ node.ordinal = ordinal := by
  unfold segmentNode at h
  obtain ⟨⟨bounds, text⟩, hcontent, rfl⟩ := Option.map_eq_some_iff.1 h
  refine ⟨⟨rfl, List.cons_ne_nil _ _, segmentContent_range hcontent, _, rfl, ?_⟩, rfl, rfl⟩
  simp only [List.map_cons, List.map_nil]
  decide

/-- A word is in the range of its segment or in a range of its own, and the sequence goes on by one. -/
theorem wordNode_built {segment : AudioGraphNode F} {ordinal : Nat} (counters : WordCounters) (word : Value F)
    (text : Text) (hsegment : Built r.durationMs (.segment ordinal) segment) (hordinal : segment.ordinal = ordinal) :
    Built r.durationMs (.word ordinal (counters.sequence + 1)) (wordNode r segment counters word text).1 ∧
      (wordNode r segment counters word text).1.kind.isWord = true ∧
      (wordNode r segment counters word text).1.value = some text ∧
      (wordNode r segment counters word text).1.parent = some segment.nodeId ∧
      (wordNode r segment counters word text).2.sequence = counters.sequence + 1 := by
  subst hordinal
  unfold wordNode
  dsimp only
  split
  · refine ⟨⟨rfl, List.cons_ne_nil _ _, hsegment.range, _, rfl, ?_⟩, rfl, rfl, rfl, rfl⟩
    simp only [List.map_cons, List.map_nil]
    decide
  · rename_i bounds hbounds
    refine ⟨⟨rfl, List.cons_ne_nil _ _, boundedRange_spec r.duration_pos hbounds, _, rfl, ?_⟩, ?_, rfl, rfl, rfl⟩
    · simp only [List.map_cons, List.map_nil]
      decide
    · dsimp only
      split_ifs <;> rfl

/-! ## Names of a list of nodes -/

/-- The nodes have names of their own, of the kind that is said. -/
def NamedBy (durationMs : Int) (P : NodeName → Prop) (nodes : List (AudioGraphNode F)) : Prop :=
  ∃ names, List.Forall₂ (Built durationMs) names nodes ∧ names.Nodup ∧ ∀ name ∈ names, P name

variable {durationMs : Int} {P Q : NodeName → Prop} {xs ys : List (AudioGraphNode F)}

theorem NamedBy.nil : NamedBy durationMs P ([] : List (AudioGraphNode F)) :=
  ⟨[], .nil, .nil, fun _ h => by cases h⟩

theorem NamedBy.singleton {name : NodeName} {node : AudioGraphNode F} (h : Built durationMs name node) :
    NamedBy durationMs (· = name) [node] :=
  ⟨[name], .cons h .nil, List.nodup_singleton _, fun _ h => List.mem_singleton.1 h⟩

theorem NamedBy.mono (h : NamedBy durationMs P xs) (hPQ : ∀ name, P name → Q name) : NamedBy durationMs Q xs := by
  obtain ⟨names, hnames, hnodup, hP⟩ := h
  exact ⟨names, hnames, hnodup, fun name hname => hPQ name (hP name hname)⟩

theorem NamedBy.append (hxs : NamedBy durationMs P xs) (hys : NamedBy durationMs Q ys)
    (hdisjoint : ∀ name, P name → ¬ Q name) : NamedBy durationMs (fun name => P name ∨ Q name) (xs ++ ys) := by
  obtain ⟨names, hnames, hnodup, hP⟩ := hxs
  obtain ⟨names', hnames', hnodup', hQ⟩ := hys
  refine ⟨names ++ names', List.rel_append hnames hnames', List.nodup_append'.2 ⟨hnodup, hnodup', ?_⟩,
    fun name hname => ?_⟩
  · exact fun name hname hname' => hdisjoint name (hP name hname) (hQ name hname')
  · exact (List.mem_append.1 hname).imp (hP name) (hQ name)

theorem NamedBy.built (h : NamedBy durationMs P xs) {node : AudioGraphNode F} (hnode : node ∈ xs) :
    ∃ name, P name ∧ Built durationMs name node := by
  obtain ⟨names, hnames, -, hP⟩ := h
  induction hnames with
  | nil => cases hnode
  | @cons name x names xs hbuilt _ ih =>
    rcases List.mem_cons.1 hnode with rfl | hnode
    · exact ⟨name, hP name List.mem_cons_self, hbuilt⟩
    · exact ih hnode fun name hname => hP name (List.mem_cons_of_mem _ hname)

theorem mapM_check_eq (h : ∀ node ∈ xs, node.check = .ok node) : xs.mapM AudioGraphNode.check = .ok xs := by
  induction xs with
  | nil => rfl
  | cons x xs ih =>
    rw [List.mapM_cons, h x List.mem_cons_self, ih fun node hnode => h node (List.mem_cons_of_mem _ hnode)]
    rfl

theorem NamedBy.nodup (h : NamedBy durationMs P xs) : (xs.map AudioGraphNode.nodeId).Nodup := by
  obtain ⟨names, hnames, hnodup, -⟩ := h
  have heq : xs.map AudioGraphNode.nodeId = names.map NodeName.text := by
    clear hnodup
    induction hnames with
    | nil => rfl
    | cons hbuilt _ ih => rw [List.map_cons, List.map_cons, hbuilt.nodeId_eq, ih]
  rw [heq]
  exact hnodup.map NodeName.text_injective

/-- Numbered observations that are not passed over. -/
theorem namedBy_filterMap {f : List (Text × Value F) × Nat → Option (AudioGraphNode F)} {name : Nat → NodeName}
    (hname : Function.Injective name)
    (hf : ∀ fields ordinal node, f (fields, ordinal) = some node → Built durationMs (name ordinal) node)
    (observations : List (List (Text × Value F))) (start : Nat) :
    NamedBy durationMs (fun n => ∃ ordinal, start ≤ ordinal ∧ n = name ordinal)
      ((observations.zipIdx start).filterMap f) := by
  induction observations generalizing start with
  | nil => exact .nil
  | cons fields observations ih =>
    have hrest := (ih (start + 1)).mono (Q := fun n => ∃ ordinal, start + 1 ≤ ordinal ∧ n = name ordinal) fun _ => id
    rw [List.zipIdx_cons, List.filterMap_cons]
    split
    · exact hrest.mono fun n ⟨ordinal, hle, hn⟩ => ⟨ordinal, Nat.le_of_succ_le hle, hn⟩
    · rename_i node hnode
      refine (NamedBy.append (.singleton (hf _ _ _ hnode)) hrest ?_).mono ?_
      · rintro _ rfl ⟨ordinal, hle, heq⟩
        have := hname heq
        omega
      · rintro n (rfl | ⟨ordinal, hle, hn⟩)
        · exact ⟨start, le_refl _, rfl⟩
        · exact ⟨ordinal, Nat.le_of_succ_le hle, hn⟩

theorem namedBy_wordNodes {segment : AudioGraphNode F} {ordinal : Nat}
    (hsegment : Built r.durationMs (.segment ordinal) segment) (hordinal : segment.ordinal = ordinal)
    (counters : WordCounters) (words : List (Value F)) :
    NamedBy r.durationMs (fun n => ∃ sequence, counters.sequence < sequence ∧
        sequence ≤ (wordNodes r segment counters words).2.sequence ∧ n = .word ordinal sequence)
      (wordNodes r segment counters words).1 ∧
    counters.sequence ≤ (wordNodes r segment counters words).2.sequence := by
  induction words generalizing counters with
  | nil => exact ⟨.nil, le_refl _⟩
  | cons word words ih =>
    rw [wordNodes]
    split
    · exact ih counters
    · rename_i text _
      obtain ⟨hbuilt, -, -, -, hsequence⟩ := wordNode_built counters word text hsegment hordinal
      obtain ⟨hnames, hle⟩ := ih (wordNode r segment counters word text).2
      dsimp only
      rw [hsequence] at hnames hle
      refine ⟨(NamedBy.append (.singleton hbuilt) hnames ?_).mono ?_, by omega⟩
      · rintro _ rfl ⟨sequence, hlt, -, heq⟩
        cases heq
        omega
      · rintro n (rfl | ⟨sequence, hlt, hbound, hn⟩)
        · exact ⟨_, by omega, hle, rfl⟩
        · exact ⟨sequence, by omega, hbound, hn⟩

def transcriptName (start sequence : Nat) (name : NodeName) : Prop :=
  (∃ ordinal, start ≤ ordinal ∧ name = .segment ordinal) ∨
    ∃ ordinal number, start ≤ ordinal ∧ sequence < number ∧ name = .word ordinal number

theorem namedBy_transcript (counters : WordCounters) (segments : List (List (Text × Value F))) (start : Nat) :
    NamedBy r.durationMs (transcriptName start counters.sequence)
      ((transcript r counters (segments.zipIdx start)).flatMap fun (segment, words) => segment :: words) := by
  induction segments generalizing counters start with
  | nil => exact .nil
  | cons segment segments ih =>
    rw [List.zipIdx_cons, transcript]
    split
    · refine (ih counters (start + 1)).mono ?_
      rintro name (⟨ordinal, hle, hn⟩ | ⟨ordinal, number, hle, hlt, hn⟩)
      · exact .inl ⟨ordinal, Nat.le_of_succ_le hle, hn⟩
      · exact .inr ⟨ordinal, number, Nat.le_of_succ_le hle, hlt, hn⟩
    · rename_i node hnode
      obtain ⟨hbuilt, -, hordinal⟩ := segmentNode_built hnode
      obtain ⟨hwords, hle⟩ := namedBy_wordNodes hbuilt hordinal counters (wordsOf segment)
      have hrest := ih (wordNodes r node counters (wordsOf segment)).2 (start + 1)
      have hhead := NamedBy.append (.singleton hbuilt) hwords fun name hname hword => by
        obtain ⟨_, _, _, rfl⟩ := hword
        cases hname
      refine (NamedBy.append hhead hrest ?_).mono ?_
      · rintro _ (rfl | ⟨number, hlt, hbound, rfl⟩) hin
        · rcases hin with ⟨ordinal, hge, heq⟩ | ⟨ordinal, number, hge, -, heq⟩
          · cases heq
            omega
          · cases heq
        · rcases hin with ⟨ordinal, -, heq⟩ | ⟨ordinal, number, -, hgt, heq⟩
          · cases heq
          · cases heq
            omega
      · rintro name ((rfl | ⟨number, hlt, -, rfl⟩) | ⟨ordinal, hge, rfl⟩ | ⟨ordinal, number, hge, hgt, rfl⟩)
        · exact .inl ⟨start, le_refl _, rfl⟩
        · exact .inr ⟨start, number, le_refl _, hlt, rfl⟩
        · exact .inl ⟨ordinal, Nat.le_of_succ_le hge, rfl⟩
        · exact .inr ⟨ordinal, number, Nat.le_of_succ_le hge, by omega, rfl⟩

end

end Steward.Media
