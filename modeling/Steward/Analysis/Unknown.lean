import Steward.Analysis.RelationSpec
import Steward.Sqlite.Integral

/-!
# Unknown is not changed

A change is observed when both sides hold a value and the values differ. Which
of the changes a relation set reports are observed ones depends on where the two
entries of a location miss a value: `Comparable`.
-/

namespace Steward

open Py Sqlite

/-- Both sides hold a value, and the values differ. -/
def Differs {α : Type} (a b : Option α) : Prop := ∃ x ∈ a, ∃ y ∈ b, x ≠ y

/-- One side holds a value, the other none. -/
def OneSided {α : Type} (a b : Option α) : Prop := a.isSome ≠ b.isSome

theorem ne_iff_differs_or_oneSided {α : Type} {a b : Option α} : a ≠ b ↔ Differs a b ∨ OneSided a b := by
  cases a <;> cases b <;> simp [Differs, OneSided]

/-! ## The compared fields -/

def metadataNumbers : List (FilesystemEntry → Option Int) :=
  [(·.mode), (·.uid), (·.gid), (·.sizeBytes), (·.mtimeNs), (·.ctimeNs), (·.linkCount)]

def metadataTexts : List (FilesystemEntry → Option Text) := [(·.errorCode), (·.errorMessage)]

/-- The metadata that is always observed. -/
def metadataFlags (e : FilesystemEntry) : Bool × Bool × Bool × FilesystemObservationStatus × Bool :=
  (e.readable, e.writable, e.executable, e.observationStatus, e.excluded)

/-- A metadata field is observed to differ. -/
def MetadataDiffers (b t : FilesystemEntry) : Prop :=
  (∃ f ∈ metadataNumbers, Differs (f b) (f t)) ∨ (∃ f ∈ metadataTexts, Differs (f b) (f t)) ∨
    metadataFlags b ≠ metadataFlags t

/-- A metadata field is missing on one side. -/
def MetadataOneSided (b t : FilesystemEntry) : Prop :=
  (∃ f ∈ metadataNumbers, OneSided (f b) (f t)) ∨ ∃ f ∈ metadataTexts, OneSided (f b) (f t)

/-- Device, inode or birth time is observed to differ. -/
def HintDiffers (b t : FilesystemEntry) : Prop :=
  Differs b.deviceId t.deviceId ∨ Differs b.inode t.inode ∨ Differs b.birthtimeNs t.birthtimeNs

theorem metadataChanged_iff {b t : FilesystemEntry} :
    metadataChanged b t = true ↔ MetadataDiffers b t ∨ MetadataOneSided b t := by
  have hfields : metadataChanged b t = true ↔ (∃ f ∈ metadataNumbers, f b ≠ f t) ∨
      (∃ f ∈ metadataTexts, f b ≠ f t) ∨ metadataFlags b ≠ metadataFlags t := by
    simp only [metadataChanged, Bool.or_eq_true, decide_eq_true_eq, metadataNumbers, metadataTexts,
      metadataFlags, List.exists_mem_cons_iff, List.not_mem_nil, false_and, exists_false, or_false, ne_eq,
      Prod.mk.injEq, not_and_or]
    grind
  rw [hfields]
  simp only [ne_iff_differs_or_oneSided, and_or_left, exists_or, MetadataDiffers, MetadataOneSided]
  grind

theorem objectHintEqual_eq_false {b t : FilesystemEntry} : objectHintEqual b t = false ↔
    ¬ (hasObjectHint b = true ∧ hasObjectHint t = true) ∨ HintDiffers b t := by
  unfold objectHintEqual hasObjectHint HintDiffers
  cases b.deviceId <;> cases b.inode <;> cases t.deviceId <;> cases t.inode <;>
    cases b.birthtimeNs <;> cases t.birthtimeNs <;> simp [Differs] <;> tauto

/-! ## One location -/

/-- The change a relation reports is one both sides observed. -/
def ObservedChange (reused : Bool) (b t : FilesystemEntry) : RelationKind → Prop
  | .sameLocationObjectHintChanged => HintDiffers b t
  | .sameLocationContentChanged =>
    Differs (successfulPayloadDigest reused b) (successfulPayloadDigest reused t)
  | .sameLocationSymlinkTargetChanged => Differs b.symlinkTargetRaw t.symlinkTargetRaw
  | .sameLocationMetadataChanged => MetadataDiffers b t
  | _ => True

/-- The comparison of the two entries comes to their metadata. -/
def MetadataCompared (reused : Bool) (b t : FilesystemEntry) : Prop :=
  (b.objectType = .symlink → b.symlinkTargetRaw = t.symlinkTargetRaw) ∧
    (b.objectType = .regularFile → objectHintEqual b t = true ∧
      ∃ d, successfulPayloadDigest reused b = some d ∧ successfulPayloadDigest reused t = some d)

/-- Where a value the comparison needs is missing, another one is observed to differ. -/
structure Comparable (reused : Bool) (b t : FilesystemEntry) : Prop where
  target : b.objectType = .symlink → ¬ OneSided b.symlinkTargetRaw t.symlinkTargetRaw
  hint : b.objectType = .regularFile → ¬ (hasObjectHint b = true ∧ hasObjectHint t = true) → HintDiffers b t
  metadata : MetadataCompared reused b t → MetadataOneSided b t → MetadataDiffers b t

/-- Both entries are observed, as objects of one type. -/
def SameObserved (b t : FilesystemEntry) : Prop :=
  b.observationStatus = .observed ∧ t.observationStatus = .observed ∧ b.objectType = t.objectType

section
variable {reused : Bool} {b t : FilesystemEntry}

theorem sameLocationKind_of_not_observed
    (h : ¬ (b.observationStatus = .observed ∧ t.observationStatus = .observed)) :
    sameLocationKind reused b t = none := by
  rw [sameLocationKind, if_pos (not_and_or.1 h)]

theorem observedChange_of_type_changed (h : ¬ SameObserved b t) {kind : RelationKind}
    {certainty : RelationCertainty} (hkind : sameLocationKind reused b t = some (kind, certainty)) :
    ObservedChange reused b t kind := by
  by_cases hobs : b.observationStatus = .observed ∧ t.observationStatus = .observed
  · have htype : b.objectType ≠ t.objectType := fun ht => h ⟨hobs.1, hobs.2, ht⟩
    rw [sameLocationKind, if_neg (by simp [hobs]), if_pos htype] at hkind
    cases hkind
    trivial
  · rw [sameLocationKind_of_not_observed hobs] at hkind
    cases hkind

theorem not_oneSided_of_eq {α : Type} {a b : Option α} (h : a = b) : ¬ OneSided a b := by
  rintro hne
  exact hne (congrArg Option.isSome h)

/-- Equal hints leave no hint missing. -/
theorem hints_of_objectHintEqual (h : objectHintEqual b t = true) :
    hasObjectHint b = true ∧ hasObjectHint t = true := by
  by_contra hmissing
  rw [objectHintEqual_eq_false.2 (.inl hmissing)] at h
  cases h

/-- The one kind reported, and when it is an observed change. -/
theorem reports_iff {k : RelationKind} {c : RelationCertainty}
    (h : sameLocationKind reused b t = some (k, c)) :
    (∀ kind, sameLocationKind reused b t = some (kind, .fact) → ObservedChange reused b t kind) ↔
      (c = .fact → ObservedChange reused b t k) := by
  constructor
  · intro hall hc
    exact hall k (by rw [h, hc])
  · intro hone kind hkind
    rw [h] at hkind
    cases hkind
    exact hone rfl

/-- A location whose entries are of one type reports observed changes exactly when its entries are comparable. -/
theorem observedChange_iff_comparable (h : SameObserved b t) :
    (∀ kind, sameLocationKind reused b t = some (kind, .fact) → ObservedChange reused b t kind) ↔
      Comparable reused b t := by
  have hobs : ¬ (b.observationStatus ≠ .observed ∨ t.observationStatus ≠ .observed) := by
    simp [h.1, h.2.1]
  obtain ⟨k, hk⟩ : ∃ k, sameLocationKind reused b t = k := ⟨_, rfl⟩
  have hkind := hk
  rw [sameLocationKind, if_neg hobs, if_neg (not_not.2 h.2.2)] at hkind
  by_cases hsymlink : b.objectType = .symlink ∧ b.symlinkTargetRaw ≠ t.symlinkTargetRaw
  · rw [if_pos hsymlink] at hkind
    rw [reports_iff (hk.trans hkind.symm)]
    have hor := ne_iff_differs_or_oneSided.1 hsymlink.2
    constructor
    · intro hdiffers
      refine ⟨fun _ hone => ?_, fun hregular => ?_, fun hcompared => absurd (hcompared.1 hsymlink.1) hsymlink.2⟩
      · obtain ⟨x, hx, y, hy, -⟩ := hdiffers rfl
        exact hone (by rw [Option.mem_def.1 hx, Option.mem_def.1 hy]; rfl)
      · rw [hsymlink.1] at hregular
        cases hregular
    · exact fun hcomparable _ => hor.resolve_right (hcomparable.target hsymlink.1)
  rw [if_neg hsymlink] at hkind
  have htarget : b.objectType = .symlink → b.symlinkTargetRaw = t.symlinkTargetRaw := fun hs =>
    not_not.1 fun hne => hsymlink ⟨hs, hne⟩
  by_cases hhint : b.objectType = .regularFile ∧ ¬ objectHintEqual b t = true
  · rw [if_pos hhint] at hkind
    rw [reports_iff (hk.trans hkind.symm)]
    have hor := objectHintEqual_eq_false.1 (Bool.eq_false_iff.2 hhint.2)
    constructor
    · intro hdiffers
      exact ⟨fun hs => not_oneSided_of_eq (htarget hs), fun _ _ => hdiffers rfl,
        fun hcompared => absurd (hcompared.2 hhint.1).1 hhint.2⟩
    · exact fun hcomparable _ => hor.elim (hcomparable.hint hhint.1) id
  rw [if_neg hhint] at hkind
  have hequal : b.objectType = .regularFile → objectHintEqual b t = true := fun hr =>
    not_not.1 fun hne => hhint ⟨hr, hne⟩
  -- from here on only the metadata can be missing
  have hcomparable : Comparable reused b t ↔
      (MetadataCompared reused b t → MetadataOneSided b t → MetadataDiffers b t) :=
    ⟨Comparable.metadata, fun hm => ⟨fun hs => not_oneSided_of_eq (htarget hs),
      fun hr hmissing => absurd (hints_of_objectHintEqual (hequal hr)) hmissing, hm⟩⟩
  rw [hcomparable]
  by_cases hunknown : b.objectType = .regularFile ∧
      ((successfulPayloadDigest reused b).isNone = true ∨ (successfulPayloadDigest reused t).isNone = true)
  · rw [if_pos hunknown] at hkind
    rw [reports_iff (hk.trans hkind.symm)]
    refine iff_of_true (by rintro ⟨⟩) fun hcompared => ?_
    obtain ⟨-, d, hb, ht⟩ := hcompared.2 hunknown.1
    rcases hunknown.2 with hnone | hnone
    · rw [hb] at hnone
      cases hnone
    · rw [ht] at hnone
      cases hnone
  rw [if_neg hunknown] at hkind
  by_cases hcontent : b.objectType = .regularFile ∧
      successfulPayloadDigest reused b ≠ successfulPayloadDigest reused t
  · rw [if_pos hcontent] at hkind
    rw [reports_iff (hk.trans hkind.symm)]
    refine iff_of_true (fun _ => ?_) fun hcompared => ?_
    · refine (ne_iff_differs_or_oneSided.1 hcontent.2).resolve_right fun hone => hunknown ⟨hcontent.1, ?_⟩
      unfold OneSided at hone
      cases hb : successfulPayloadDigest reused b with
      | none => exact .inl rfl
      | some d =>
        cases ht : successfulPayloadDigest reused t with
        | none => exact .inr rfl
        | some d' =>
          rw [hb, ht] at hone
          exact absurd rfl hone
    · obtain ⟨-, d, hb, ht⟩ := hcompared.2 hcontent.1
      exact absurd (hb.trans ht.symm) hcontent.2
  rw [if_neg hcontent] at hkind
  have hcompared : MetadataCompared reused b t := by
    refine ⟨htarget, fun hr => ⟨hequal hr, ?_⟩⟩
    have hpayload : successfulPayloadDigest reused b = successfulPayloadDigest reused t :=
      not_not.1 fun hne => hcontent ⟨hr, hne⟩
    obtain ⟨d, hd⟩ := Option.ne_none_iff_exists'.1 fun hnone : successfulPayloadDigest reused b = none =>
      hunknown ⟨hr, .inl (by rw [hnone]; rfl)⟩
    exact ⟨d, hd, hpayload ▸ hd⟩
  by_cases hmetadata : metadataChanged b t = true
  · rw [if_pos hmetadata] at hkind
    rw [reports_iff (hk.trans hkind.symm)]
    have hor := metadataChanged_iff.1 hmetadata
    exact ⟨fun hd _ _ => hd rfl, fun hm _ => hor.elim id (hm hcompared)⟩
  · rw [if_neg hmetadata] at hkind
    rw [reports_iff (hk.trans hkind.symm)]
    exact iff_of_true (fun _ => trivial) fun _ hone => absurd (metadataChanged_iff.2 (.inr hone)) hmetadata

end

/-! ## The set -/

/-- No fact about a location reports a change that one side did not observe. -/
def UnknownNotChanged (reused : Bool) (base target : FilesystemSnapshot) (set : RelationSet) : Prop :=
  ∀ b ∈ base.entries, ∀ t ∈ target.entries, b.location = t.location → ∀ item ∈ set.relations,
    item.sourceEntries = [reference b] → item.targetEntries = [reference t] → item.certainty = .fact →
      ObservedChange reused b t item.kind

variable {F : Type} [SqliteFloat F]

section
variable {base target : FilesystemSnapshot} {adjacent reused : Bool} {set : RelationSet}

/-- A fact of the set is the relation of one location. -/
theorem fact_of_location (h : computeSnapshotRelations F base target adjacent reused = .ok set)
    {item : RelationItem} (hitem : item ∈ set.relations) (hfact : item.certainty = .fact) :
    ∃ b ∈ base.entries, ∃ t ∈ target.entries, b.location = t.location ∧
      sameLocationKind reused b t = some (item.kind, .fact) ∧
      item.sourceEntries = [reference b] ∧ item.targetEntries = [reference t] := by
  obtain ⟨same, transitions, hparts, hrelations, -⟩ := computeSnapshotRelations_parts h
  rcases List.mem_append.1 (hrelations.mem_iff.1 hitem) with hsame | htransition
  · obtain ⟨b, hb, t, ht, hloc, hok⟩ := hparts.mem_same.1 hsame
    rcases sameLocationRelation_eq_ok.1 hok with ⟨-, hnone⟩ | ⟨kind, certainty, hkind, -, hsome⟩
    · cases hnone
    · cases hsome
      cases show certainty = .fact from hfact
      exact ⟨b, hb, t, ht, hloc, hkind, rfl, rfl⟩
  · obtain ⟨-, hint, -, group?, hok⟩ := hparts.mem_transitions.1 htransition
    cases ((transitionOf_eq_ok (transitionInput_within _ _)).1 hok).2.2 with
    | ambiguous => cases hfact
    | candidate => cases hfact

/-- Every kind a location has is reported. -/
theorem reported_of_location (h : computeSnapshotRelations F base target adjacent reused = .ok set)
    {b t : FilesystemEntry} (hb : b ∈ base.entries) (ht : t ∈ target.entries) (hloc : b.location = t.location)
    {kind : RelationKind} {certainty : RelationCertainty}
    (hkind : sameLocationKind reused b t = some (kind, certainty)) :
    relationItemOf F kind certainty [reference b] [reference t] none ∈ set.relations := by
  obtain ⟨same, transitions, hparts, hrelations, -⟩ := computeSnapshotRelations_parts h
  obtain ⟨common, hcommon, hsame⟩ := hparts.same
  have hpair : (b, t) ∈ common :=
    (mem_sortedByM hcommon).2 ((mem_commonEntries hparts.targetLocated).2 ⟨hb, ht, hloc⟩)
  obtain ⟨out, -, hok⟩ := exists_mapM_of_mem hsame hpair
  rcases sameLocationRelation_eq_ok.1 hok with ⟨hnone, -⟩ | ⟨kind', certainty', hkind', -, rfl⟩
  · rw [hkind] at hnone
    cases hnone
  · rw [hkind, Option.some.injEq, Prod.mk.injEq] at hkind'
    obtain ⟨rfl, rfl⟩ := hkind'
    exact hrelations.mem_iff.2 (List.mem_append_left _ (hparts.mem_same.2 ⟨b, hb, t, ht, hloc, hok⟩))

/-- Unknown is not changed exactly where the entries of every location are comparable. -/
theorem unknown_unchanged_iff (h : computeSnapshotRelations F base target adjacent reused = .ok set) :
    UnknownNotChanged reused base target set ↔ ∀ b ∈ base.entries, ∀ t ∈ target.entries,
      b.location = t.location → SameObserved b t → Comparable reused b t := by
  obtain ⟨same, transitions, hparts, -⟩ := computeSnapshotRelations_parts h
  constructor
  · intro hunknown b hb t ht hloc hobs
    refine (observedChange_iff_comparable hobs).1 fun kind hkind => ?_
    exact hunknown b hb t ht hloc _ (reported_of_location h hb ht hloc hkind) rfl rfl rfl
  · intro hcomparable b hb t ht hloc item hitem hsource htarget hfact
    obtain ⟨b', hb', t', ht', -, hkind, hsource', htarget'⟩ := fact_of_location h hitem hfact
    have hbb : b' = b := hparts.baseLocated.reference_inj hb' hb
      (List.singleton_injective (hsource'.symm.trans hsource))
    have htt : t' = t := hparts.targetLocated.reference_inj ht' ht
      (List.singleton_injective (htarget'.symm.trans htarget))
    rw [hbb, htt] at hkind
    by_cases hobs : SameObserved b t
    · exact (observedChange_iff_comparable hobs).2 (hcomparable b hb t ht hloc hobs) item.kind hkind
    · exact observedChange_of_type_changed hobs hkind

end

/-! ## A link whose target could not be read -/

/-- A symbolic link, with the target `readlink` gave or none. -/
def linkEntry (snapshotId : Text) (symlinkTargetRaw : Option Text) : FilesystemEntry where
  snapshotId
  scopeId := txt "s"
  relativePath := txt "a"
  objectType := .symlink
  deviceId := some 1
  inode := some 10
  mode := some 41471
  uid := some 0
  gid := some 0
  sizeBytes := some 1
  mtimeNs := some 0
  ctimeNs := some 0
  birthtimeNs := none
  linkCount := some 1
  symlinkTargetRaw
  readable := true
  writable := true
  executable := true
  observationStatus := .observed
  errorCode := none
  errorMessage := none
  excluded := false
  v2 := none

def linkBase : FilesystemSnapshot :=
  ⟨txt "b", txt "1", txt "2", [txt "s"], [linkEntry (txt "b") (some (txt "x"))]⟩

/-- The later snapshot, the target read again or not. -/
def linkTarget (symlinkTargetRaw : Option Text) : FilesystemSnapshot :=
  ⟨txt "t", txt "3", txt "4", [txt "s"], [linkEntry (txt "t") symlinkTargetRaw]⟩

theorem link_computed (symlinkTargetRaw : Option Text) :
    Ok (computeSnapshotRelations Integral linkBase (linkTarget symlinkTargetRaw) true true) := by
  have hdistinct : txt "b" ≠ txt "t" := by decide
  have htime : ¬ txt "3" < txt "2" := by decide
  have hbase : (⟨txt "b", txt "s", txt "a"⟩ : SnapshotEntryReference).encodable = true := by decide
  have htarget : (⟨txt "t", txt "s", txt "a"⟩ : SnapshotEntryReference).encodable = true := by decide
  refine ok_computeSnapshotRelations hdistinct htime ⟨?_, List.nodup_singleton _⟩
    ⟨?_, List.nodup_singleton _⟩ ⟨by decide, ?_⟩ ⟨show (txt "t").encodable = true by decide, ?_⟩
  all_goals
    intro e he
    rw [List.mem_singleton.1 he]
  · rfl
  · rfl
  · exact hbase
  · exact htarget

/-- A target read both times is compared. -/
theorem link_unknown_unchanged : ∃ set,
    computeSnapshotRelations Integral linkBase (linkTarget (some (txt "y"))) true true = .ok set ∧
      UnknownNotChanged true linkBase (linkTarget (some (txt "y"))) set := by
  obtain ⟨set, hset⟩ := link_computed (some (txt "y"))
  refine ⟨set, hset, (unknown_unchanged_iff hset).2 fun b hb t ht _ _ => ?_⟩
  rw [List.mem_singleton.1 hb, List.mem_singleton.1 ht]
  refine ⟨fun _ hone => hone rfl, (fun hregular => by cases hregular), fun hcompared => ?_⟩
  exact absurd (hcompared.1 rfl) (by decide)

/-- A target that could not be read is reported as changed. -/
theorem unread_link_reported_changed : ¬ ∀ set,
    computeSnapshotRelations Integral linkBase (linkTarget none) true true = .ok set →
      UnknownNotChanged true linkBase (linkTarget none) set := by
  intro hall
  obtain ⟨set, hset⟩ := link_computed none
  have hkind : sameLocationKind true (linkEntry (txt "b") (some (txt "x"))) (linkEntry (txt "t") none) =
      some (.sameLocationSymlinkTargetChanged, .fact) := rfl
  have hmem := reported_of_location hset List.mem_cons_self List.mem_cons_self rfl hkind
  have hchange := hall set hset _ List.mem_cons_self _ List.mem_cons_self rfl _ hmem rfl rfl rfl
  obtain ⟨-, -, y, hy, -⟩ := hchange
  cases hy

end Steward
