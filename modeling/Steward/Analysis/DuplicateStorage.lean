import Steward.Analysis.DuplicateOrder
import Steward.Analysis.DuplicatePartition

/-!
# Two accounts of allocated storage

The size a group gives to one of its storage units, and the size the summary of
physical storage counts for the same object. They agree exactly on the objects
with one path and on those without any observed allocation:
`accountings_agree_iff`.
-/

namespace Steward

open Py Sqlite

/-- The objects the summary counts, each with the allocation it counts. -/
def unitAccounts (reused : Bool) (es : List FilesystemEntry) : List (ObjectHint × Option Int) :=
  (groupBy objectHint ((observedEntries es).filter hasObjectHint)).map fun g =>
    (g.1, unitAllocation (conflictedHints reused es) g)

/-- An object without contradictions whose paths are all payloads of the group. -/
structure PayloadEqualityGroup.Owns (group : PayloadEqualityGroup) (reused : Bool) (es : List FilesystemEntry)
    (hint : ObjectHint) : Prop where
  observed : hintClass es hint ≠ []
  members : ∀ e ∈ hintClass es hint, payloadKey reused e = some group.key
  conflictFree : hint ∉ conflictedHints reused es

/-- The group has one unit for the object, and the summary counts it with the allocation of that unit. -/
def PayloadEqualityGroup.AgreesOn (group : PayloadEqualityGroup) (reused : Bool) (es : List FilesystemEntry)
    (hint : ObjectHint) : Prop :=
  ∃ unit, group.storageUnits.filter (fun unit => unit.hint = some hint) = [unit] ∧
    (hint, unit.allocatedSizeBytes) ∈ unitAccounts reused es

/-! ## One object -/

theorem length_dedup {xs : List Int} (h : severalValues xs = false) : xs.dedup.length ≤ 1 := by
  rw [severalValues, decide_eq_false_iff_not, not_lt, List.card_toFinset] at h
  exact h

/-- The rules agree where one path or no size is known. -/
theorem singleValue_eq_iff {members : List FilesystemEntry} (hne : members ≠ [])
    (h : severalValues (members.filterMap entryAllocatedSize) = false) :
    singleValue (members.filterMap entryAllocatedSize) =
        (if (members.filterMap entryAllocatedSize).dedup.length = members.length then
          singleValue (members.filterMap entryAllocatedSize) else none) ↔
      members.length = 1 ∨ ∀ e ∈ members, entryAllocatedSize e = none := by
  have hone := length_dedup h
  have hpos := List.length_pos_of_ne_nil hne
  have hnone : (∀ e ∈ members, entryAllocatedSize e = none) ↔ members.filterMap entryAllocatedSize = [] :=
    List.filterMap_eq_nil_iff.symm
  rw [hnone]
  generalize members.filterMap entryAllocatedSize = values at hone ⊢
  unfold singleValue
  match hd : values.dedup with
  | [] =>
    have hnil : values = [] := (List.dedup_eq_nil values).1 hd
    refine iff_of_true ?_ (.inr hnil)
    split_ifs <;> rfl
  | [v] =>
    have hvalues : values ≠ [] := by
      rintro rfl
      cases hd
    show some v = (if 1 = members.length then some v else none) ↔ _
    rw [or_iff_left hvalues]
    split_ifs with hlen
    · exact iff_of_true rfl hlen.symm
    · exact iff_of_false (by rintro ⟨⟩) fun hl => hlen hl.symm
  | a :: b :: rest =>
    rw [hd] at hone
    simp at hone

section
variable {reused : Bool} {es : List FilesystemEntry} {hint : ObjectHint}

theorem severalValues_short {α : Type} [DecidableEq α] {xs : List α} (h : xs.length ≤ 1) :
    severalValues xs = false := by
  rw [severalValues, decide_eq_false_iff_not, not_lt]
  exact (List.toFinset_card_le xs).trans h

/-- Without a contradiction one size at most is observed. -/
theorem severalValues_of_conflictFree (h : hint ∉ conflictedHints reused es) :
    severalValues ((hintClass es hint).filterMap entryAllocatedSize) = false := by
  by_cases hlen : 2 ≤ (hintClass es hint).length
  · have hmem : (hint, hintClass es hint) ∈ aliasedHints es := mem_aliasedHints.2 ⟨hlen, rfl⟩
    by_contra hseveral
    rw [Bool.not_eq_false] at hseveral
    refine h (List.mem_map.2 ⟨_, List.mem_filter.2 ⟨hmem, ?_⟩, rfl⟩)
    have hcode : txt "ALLOCATED_SIZE_CONFLICT" ∈ hintConflictCodes reused (hintClass es hint) :=
      List.mem_filterMap.2 ⟨(true, txt "ALLOCATED_SIZE_CONFLICT"), by rw [hseveral]; simp, rfl⟩
    rw [Bool.not_eq_true', List.isEmpty_eq_false_iff]
    exact List.ne_nil_of_mem hcode
  · refine severalValues_short ((List.length_filterMap_le _ _).trans ?_)
    omega

theorem mem_unitAccounts {allocation : Option Int} : (hint, allocation) ∈ unitAccounts reused es ↔
    hintClass es hint ≠ [] ∧ allocation = unitAllocation (conflictedHints reused es) (hint, hintClass es hint) := by
  have hclass : ((observedEntries es).filter hasObjectHint).filter (fun e => objectHint e = hint) =
      hintClass es hint := by
    rw [hintClass, List.filter_filter]
    refine List.filter_congr fun e _ => ?_
    rw [Bool.eq_iff_iff]
    simp [and_comm]
  rw [unitAccounts, List.mem_map]
  constructor
  · rintro ⟨g, hg, heq⟩
    obtain ⟨hkey, hmembers⟩ := mem_groupBy.1 hg
    obtain ⟨rfl, rfl⟩ := Prod.mk.inj heq
    obtain ⟨e, he, hhint⟩ := List.mem_map.1 hkey
    have hsame : g.2 = hintClass es g.1 := hmembers.trans hclass
    refine ⟨List.ne_nil_of_mem (a := e) ?_, by rw [← hsame]⟩
    rw [← hclass]
    exact List.mem_filter.2 ⟨he, decide_eq_true hhint⟩
  · rintro ⟨hne, rfl⟩
    obtain ⟨e, he⟩ := List.exists_mem_of_ne_nil _ hne
    obtain ⟨hobs, hhas, hhint⟩ := mem_hintClass.1 he
    refine ⟨(hint, hintClass es hint), mem_groupBy.2 ⟨?_, hclass.symm⟩, rfl⟩
    exact List.mem_map.2 ⟨e, List.mem_filter.2 ⟨hobs, hhas⟩, hhint⟩

end

/-! ## The unit of a group -/

section
variable {F : Type} [SqliteFloat F] {s : FilesystemSnapshot} {aliases : List HardLinkAliasSet}
  {conflicted : List ObjectHint} {size : Int}

/-- The allocation of a unit that lists all paths of its object. -/
theorem knownUnit_allocation (h : aliasSets F s.entries = .ok aliases) {hint : ObjectHint}
    {unitMembers : List FilesystemEntry} {unit : StorageUnit} (hm : unitMembers.Perm (hintClass s.entries hint))
    (hok : knownUnit aliases conflicted size hint unitMembers = .ok unit) :
    unit.allocatedSizeBytes = singleValue ((hintClass s.entries hint).filterMap entryAllocatedSize) := by
  rw [← singleValue_perm (hm.filterMap entryAllocatedSize)]
  unfold knownUnit at hok
  cases hset : aliasByHint aliases hint with
  | some set =>
    rw [hset] at hok
    cases hok
    obtain ⟨hmem, hhint⟩ := (aliasByHint_eq_some h).1 hset
    have hperm := mem_aliasSets h hmem
    rw [hhint] at hperm
    exact if_pos (by rw [hperm.length_eq, List.length_map, hm.length_eq])
  | none =>
    rw [hset] at hok
    obtain ⟨references, hreferences, hok⟩ := bind_eq_ok.1 hok
    cases hok
    have hperm : references.Perm (unitMembers.map reference) := sortedByM_perm hreferences
    exact if_pos (by rw [hperm.length_eq, List.length_map])

/-- The unit of an object that lies in the group whole. -/
theorem storageUnits_allocation (h : aliasSets F s.entries = .ok aliases) {members : List FilesystemEntry}
    {units : List StorageUnit} (hok : storageUnits aliases conflicted size members = .ok units)
    {hint : ObjectHint} (hne : hintClass s.entries hint ≠ [])
    (hm : ((members.filter hasObjectHint).filter fun e => objectHint e = hint).Perm (hintClass s.entries hint)) :
    ∃ unit, units.filter (fun unit => unit.hint = some hint) = [unit] ∧
      unit.allocatedSizeBytes = singleValue ((hintClass s.entries hint).filterMap entryAllocatedSize) := by
  obtain ⟨known, hknown, hok⟩ := bind_eq_ok.1 hok
  obtain ⟨unhinted, -, hok⟩ := bind_eq_ok.1 hok
  have hperm := sortedByM_perm hok
  obtain ⟨e, he⟩ := List.exists_mem_of_ne_nil _ hne
  have hin := hm.mem_iff.2 he
  have hgroup : (hint, (members.filter hasObjectHint).filter fun e => objectHint e = hint) ∈ sortedHints members :=
    mem_sortedGroups.2 ⟨List.mem_map.2 ⟨e, List.mem_of_mem_filter hin, of_decide_eq_true (List.mem_filter.1 hin).2⟩,
      List.filter_congr fun _ _ => decide_eq_decide.2 Iff.rfl⟩
  obtain ⟨unit, hunit, hokunit⟩ := exists_mapM_of_mem hknown hgroup
  have hone : known.filter (fun unit => unit.hint = some hint) = [unit] := by
    refine filter_eq_singleton ((List.pairwise_map.1 (nodup_known h hknown)).imp fun {a b} hab ha => ?_) hunit
      (decide_eq_true (knownUnit_eq_ok h hokunit).1)
    exact decide_eq_false fun hb => hab ((of_decide_eq_true ha).trans hb.symm)
  have hnone : (unhinted.map (unknownUnit size)).filter (fun unit => unit.hint = some hint) = [] := by
    refine List.filter_eq_nil_iff.2 fun unit hunit => ?_
    obtain ⟨e, -, rfl⟩ := List.mem_map.1 hunit
    exact fun hc => absurd (of_decide_eq_true hc) (by rintro ⟨⟩)
  refine ⟨unit, ?_, knownUnit_allocation h hm hokunit⟩
  have hfilter := hperm.filter fun unit => unit.hint = some hint
  rw [List.filter_append, hone, hnone, List.append_nil] at hfilter
  exact List.perm_singleton.1 hfilter

end

/-! ## The analysis -/

section
variable {F : Type} [SqliteFloat F] {s : FilesystemSnapshot} {reused : Bool} {result : DuplicateAnalysisResult}

/-- The summary of physical storage of a result. -/
theorem physicalStorage_eq (h : computeSnapshotDuplicateAnalysis F s reused = .ok result) :
    result.physicalStorage = physicalStorageSummary ((unitAccounts reused s.entries).map Prod.snd ++
      List.replicate result.coverage.unknownStorageUnitMembershipCount none) ∧
    result.coverage.knownStorageUnitCount = (unitAccounts reused s.entries).length := by
  obtain ⟨entries, hentries, h⟩ := bind_eq_ok.1 h
  obtain ⟨rfl, -⟩ := locatedEntries_eq_ok.1 hentries
  obtain ⟨aliases, -, h⟩ := bind_eq_ok.1 h
  obtain ⟨byHint, -, h⟩ := bind_eq_ok.1 h
  obtain ⟨bySize, -, h⟩ := bind_eq_ok.1 h
  obtain ⟨groups, -, h⟩ := bind_eq_ok.1 h
  obtain ⟨orderedGroups, -, h⟩ := bind_eq_ok.1 h
  obtain ⟨orderedAliases, -, h⟩ := bind_eq_ok.1 h
  obtain ⟨orderedConflicts, -, h⟩ := bind_eq_ok.1 h
  obtain ⟨bytes, -, h⟩ := bind_eq_ok.1 h
  cases h
  refine ⟨?_, ?_⟩
  · show physicalStorageSummary (unitAllocations _ _) = _
    rw [unitAllocations, unitAccounts, List.map_map]
    rfl
  · show List.length _ = _
    rw [unitAccounts, List.length_map]

theorem physicalCounts_eq (allocations : List (Option Int)) :
    (physicalStorageSummary allocations).allocatedSizeKnownUnitCount +
      (physicalStorageSummary allocations).allocatedSizeUnknownUnitCount = allocations.length := by
  show allocations.countP Option.isSome + allocations.countP Option.isNone = _
  rw [List.length_eq_countP_add_countP (p := Option.isSome)]
  refine congrArg (_ + ·) (List.countP_congr fun a _ => ?_)
  cases a <;> simp

/-- The unit of an object that lies in a group whole. -/
theorem group_unit (h : computeSnapshotDuplicateAnalysis F s reused = .ok result) {group : PayloadEqualityGroup}
    (hgroup : group ∈ result.payloadEqualityGroups) {hint : ObjectHint} (howns : group.Owns reused s.entries hint) :
    ∃ unit, group.storageUnits.filter (fun unit => unit.hint = some hint) = [unit] ∧
      unit.allocatedSizeBytes = singleValue ((hintClass s.entries hint).filterMap entryAllocatedSize) := by
  obtain ⟨hs, aliases, bySize, groups, haliases, hbySize, hgroups, hpg, -, -⟩ :=
    computeSnapshotDuplicateAnalysis_parts h
  obtain ⟨g, hg, hok⟩ := forall₂_mem_right (mapM_eq_ok.1 hgroups) (hpg.mem_iff.1 hgroup)
  obtain ⟨-, -, hclass⟩ := (mem_equalPayloads hs hbySize).1 hg
  obtain ⟨members, hmembers, hok⟩ := bind_eq_ok.1 hok
  obtain ⟨units, hunits, hok⟩ := bind_eq_ok.1 hok
  obtain ⟨memberEntries, -, hok⟩ := bind_eq_ok.1 hok
  obtain ⟨payloadGroupId, -, hok⟩ := bind_eq_ok.1 hok
  cases hok
  have hperm : members.Perm (payloadClass reused s.entries g.1) := hclass ▸ sortedByM_perm hmembers
  refine storageUnits_allocation haliases hunits howns.observed ?_
  -- the members of the object are its whole class
  refine (((hperm.filter _).filter _).trans (List.Perm.of_eq ?_))
  rw [payloadClass, hintClass, observedEntries, regularEntries]
  simp only [List.filter_filter]
  refine List.filter_congr fun e he => ?_
  rw [Bool.eq_iff_iff]
  simp only [Bool.and_eq_true, decide_eq_true_eq, Bool.not_eq_true']
  constructor
  · rintro ⟨hhint, hhas, hkey⟩
    obtain ⟨hobs, hexcl⟩ := observed_of_payloadKey hkey
    exact ⟨⟨hhas, hhint⟩, ⟨hobs, hexcl⟩, regular_of_observed hobs⟩
  · rintro ⟨⟨hhas, hhint⟩, ⟨hobs, hexcl⟩, -⟩
    have hmem : e ∈ hintClass s.entries hint :=
      mem_hintClass.2 ⟨mem_observedEntries.2 ⟨he, hobs, hexcl⟩, hhas, hhint⟩
    exact ⟨hhint, hhas, howns.members e hmem⟩

/-- The counts of units always add up; the allocation of an object is the same in both accounts exactly
when it has one path, or no path with an observed allocation. -/
theorem accountings_agree_iff (h : computeSnapshotDuplicateAnalysis F s reused = .ok result) :
    result.physicalStorage = physicalStorageSummary ((unitAccounts reused s.entries).map Prod.snd ++
      List.replicate result.coverage.unknownStorageUnitMembershipCount none) ∧
    result.physicalStorage.allocatedSizeKnownUnitCount + result.physicalStorage.allocatedSizeUnknownUnitCount =
      result.coverage.knownStorageUnitCount + result.coverage.unknownStorageUnitMembershipCount ∧
    ∀ group ∈ result.payloadEqualityGroups, ∀ hint, group.Owns reused s.entries hint →
      (group.AgreesOn reused s.entries hint ↔
        (hintClass s.entries hint).length = 1 ∨ ∀ e ∈ hintClass s.entries hint, entryAllocatedSize e = none) := by
  obtain ⟨hphysical, hknown⟩ := physicalStorage_eq h
  refine ⟨hphysical, ?_, fun group hgroup hint howns => ?_⟩
  · rw [hphysical, physicalCounts_eq, List.length_append, List.length_map, List.length_replicate, hknown]
  · obtain ⟨unit, hfilter, hallocation⟩ := group_unit h hgroup howns
    have hrule : unitAllocation (conflictedHints reused s.entries) (hint, hintClass s.entries hint) = _ :=
      if_neg howns.conflictFree
    rw [← singleValue_eq_iff howns.observed (severalValues_of_conflictFree howns.conflictFree), ← hrule,
      ← hallocation]
    constructor
    · rintro ⟨unit', hfilter', hmem⟩
      obtain rfl : unit = unit' := by simpa using hfilter.symm.trans hfilter'
      exact (mem_unitAccounts.1 hmem).2
    · intro heq
      exact ⟨unit, hfilter, mem_unitAccounts.2 ⟨howns.observed, heq⟩⟩

end

/-! ## Two paths of one file -/

/-- A path of a file of 4096 allocated bytes. -/
def linkedEntry (relativePath : Text) : FilesystemEntry :=
  { inodeEntry (txt "b") relativePath 10 5 with
    linkCount := some 2
    v2 := some ⟨some 4096, .hashed, some (txt "sha256"), some 1, some (List.replicate 64 (ch 'a')), some 1,
      some .directRead, none, none⟩ }

def linkedBase : FilesystemSnapshot :=
  ⟨txt "b", txt "1", txt "2", [txt "s"], [linkedEntry (txt "a"), linkedEntry (txt "b")]⟩

def linkedReferences : List SnapshotEntryReference := [⟨txt "b", txt "s", txt "a"⟩, ⟨txt "b", txt "s", txt "b"⟩]

def linkedHint : ObjectHint := toLex (1, 10)

def linkedAlias : HardLinkAliasSet :=
  ⟨sha (F := Integral) (.dict (aliasContent 1 10 linkedReferences)), 1, 10, linkedReferences⟩

def linkedUnit : StorageUnit := ⟨some 1, some 10, linkedReferences, true, false, 1, some 4096⟩

def linkedGroup : PayloadEqualityGroup :=
  groupWithoutId [linkedAlias] (knownKey true (linkedEntry (txt "a"))) linkedBase.entries linkedReferences [linkedUnit]

theorem linkedHints : aliasedHints linkedBase.entries = [(linkedHint, linkedBase.entries)] := by decide

theorem linked_aliases : aliasSets Integral linkedBase.entries = .ok [linkedAlias] := by
  have hsafe : (Value.dict (aliasContent 1 10 linkedReferences) : Value Integral).safe = true := by decide
  rw [aliasSets, linkedHints]
  refine mapM_eq_ok.2 (.cons ?_ .nil)
  exact bind_eq_ok.2 ⟨linkedReferences, rfl, bind_eq_ok.2 ⟨_, digestOf_eq_ok.2 ⟨hsafe, rfl⟩, rfl⟩⟩

theorem linked_codes : hintConflictCodes true linkedBase.entries = [] := by decide +kernel

theorem linked_free : conflictedHints true linkedBase.entries = [] := by
  rw [conflictedHints, linkedHints]
  simp [linked_codes]

theorem linkedGroup_safe : (Value.dict (payloadGroupContent linkedGroup) : Value Integral).safe = true := by
  have hid : linkedGroup.aliasSetIds = [linkedAlias.aliasSetId] := rfl
  have hkeys : ((keys (payloadGroupContent (F := Integral) linkedGroup)).all Text.encodable) = true := by decide
  have hids : (Value.list ([linkedAlias.aliasSetId].map .str) : Value Integral).safe = true :=
    Value.safe_list.2 (List.forall_mem_singleton.2 (sha_encodable _))
  refine Value.safe_dict.2 ⟨fun t ht => List.all_eq_true.1 hkeys t ht, ?_⟩
  rw [payloadGroupContent, hid]
  simp only [List.forall_mem_cons, List.not_mem_nil, false_imp_iff, implies_true, and_true]
  exact ⟨by decide, by decide, by decide, by decide, by decide, hids, by decide, by decide, by decide, by decide,
    by decide, by decide, by decide⟩

theorem linkedGroup_computed : payloadGroup Integral [linkedAlias] [] linkedGroup.key linkedBase.entries =
    .ok { linkedGroup with payloadGroupId := sha (F := Integral) (.dict (payloadGroupContent linkedGroup)) } :=
  bind_eq_ok.2 ⟨linkedBase.entries, rfl, bind_eq_ok.2 ⟨linkedGroup.storageUnits, rfl,
    bind_eq_ok.2 ⟨linkedGroup.memberEntries, rfl, bind_eq_ok.2 ⟨_, digestOf_eq_ok.2 ⟨linkedGroup_safe, rfl⟩, rfl⟩⟩⟩⟩

theorem linked_analyzed : ∃ result, computeSnapshotDuplicateAnalysis Integral linkedBase true = .ok result ∧
    ∃ group ∈ result.payloadEqualityGroups, group.key = linkedGroup.key := by
  let id := sha (F := Integral) (.dict (payloadGroupContent linkedGroup))
  let group : PayloadEqualityGroup := { linkedGroup with payloadGroupId := id }
  let coverage := coverageSummary true linkedBase.entries [linkedAlias]
  let physical := physicalStorageSummary (unitAllocations [] (observedEntries linkedBase.entries))
  let content : Value Integral := analysisContent ⟨1, txt "exact_payload_duplicate_storage", 1, txt "b", [group],
    [linkedAlias], coverage, physical, [], []⟩
  have hequal : equalPayloads true linkedBase.entries [] = [(linkedGroup.key, linkedBase.entries)] := by
    decide +kernel
  have hsizes : sizeConflicts true linkedBase.entries = [] := by decide +kernel
  have hbySize : (sizeConflicts true linkedBase.entries).mapM (fun g => sizeConflict g.2) = .ok [] := by
    rw [hsizes]
    rfl
  have hbyHint : (aliasedHints linkedBase.entries).mapM (hintConflicts true) = .ok [[]] := by
    rw [linkedHints]
    refine mapM_eq_ok.2 (.cons (bind_eq_ok.2 ⟨linkedReferences, rfl, ?_⟩) .nil)
    rw [linked_codes]
    rfl
  have hgroups : (equalPayloads true linkedBase.entries []).mapM
      (fun g => payloadGroup Integral [linkedAlias] (conflictedHints true linkedBase.entries) g.1 g.2) =
        .ok [group] := by
    rw [hequal, linked_free]
    exact mapM_eq_ok.2 (.cons linkedGroup_computed .nil)
  have hgroupSafe : (Value.dict ((txt "payload_group_id", .str id) :: payloadGroupContent group) :
      Value Integral).safe = true := safe_identified (by decide) linkedGroup_safe
  have haliasSafe : (Value.dict ((txt "alias_set_id", .str linkedAlias.aliasSetId) ::
      aliasContent 1 10 linkedReferences) : Value Integral).safe = true := safe_identified (by decide) (by decide)
  have hsafe : content.safe = true := by
    refine Value.safe_dict.2 ⟨encodable_analysisKeys, ?_⟩
    simp only [List.forall_mem_cons]
    exact ⟨by decide, by decide, by decide, by decide, by decide,
      Value.safe_list.2 (List.forall_mem_singleton.2 hgroupSafe),
      Value.safe_list.2 (List.forall_mem_singleton.2 haliasSafe), by decide, by decide, by decide, by simp⟩
  have hbytes : canonicalJson content = .ok (canonicalText content) := canonicalJson_eq_ok.2 ⟨hsafe, rfl⟩
  refine ⟨_, bind_eq_ok.2 ⟨linkedBase.entries, rfl, bind_eq_ok.2 ⟨[linkedAlias], linked_aliases,
    bind_eq_ok.2 ⟨[[]], hbyHint, bind_eq_ok.2 ⟨[], hbySize, bind_eq_ok.2 ⟨[group], hgroups,
      bind_eq_ok.2 ⟨[group], rfl, bind_eq_ok.2 ⟨[linkedAlias], rfl, bind_eq_ok.2 ⟨[], rfl,
        bind_eq_ok.2 ⟨canonicalText content, ?_, rfl⟩⟩⟩⟩⟩⟩⟩⟩⟩, group, List.mem_singleton_self _, rfl⟩
  have hphysical : physicalStorageSummary (unitAllocations (conflictedHints true linkedBase.entries)
      (observedEntries linkedBase.entries)) = physical := by rw [linked_free]
  rw [hphysical]
  exact hbytes

theorem linkedClass : hintClass linkedBase.entries linkedHint = linkedBase.entries := by decide

theorem linkedGroup_owns {group : PayloadEqualityGroup} (h : group.key = linkedGroup.key) :
    group.Owns true linkedBase.entries linkedHint where
  observed := by
    rw [linkedClass]
    exact List.cons_ne_nil _ _
  members e he := by
    rw [linkedClass] at he
    rw [h]
    rcases List.mem_cons.1 he with rfl | he
    · rfl
    · rw [List.mem_singleton.1 he]
      rfl
  conflictFree := by
    rw [linked_free]
    exact List.not_mem_nil

/-- Two hard-linked paths of 4096 allocated bytes: known to their group, unknown to the summary. -/
theorem linked_disagree : ∃ result, computeSnapshotDuplicateAnalysis Integral linkedBase true = .ok result ∧
    ∃ group ∈ result.payloadEqualityGroups, group.Owns true linkedBase.entries linkedHint ∧
      (∃ unit ∈ group.storageUnits, unit.hint = some linkedHint ∧ unit.allocatedSizeBytes = some 4096) ∧
      result.physicalStorage.allocatedSizeKnownUnitCount = 0 ∧
      ¬ group.AgreesOn true linkedBase.entries linkedHint := by
  obtain ⟨result, hresult, group, hgroup, hkey⟩ := linked_analyzed
  have howns := linkedGroup_owns hkey
  have hvalue : singleValue ((hintClass linkedBase.entries linkedHint).filterMap entryAllocatedSize) = some 4096 := by
    rw [linkedClass]
    decide
  have haccounts : unitAccounts true linkedBase.entries = [(linkedHint, none)] := by
    have hgroups : groupBy objectHint ((observedEntries linkedBase.entries).filter hasObjectHint) =
        [(linkedHint, linkedBase.entries)] := by decide
    rw [unitAccounts, linked_free, hgroups]
    rfl
  obtain ⟨unit, hfilter, hallocation⟩ := group_unit hresult hgroup howns
  have hunit : unit ∈ group.storageUnits.filter fun unit => unit.hint = some linkedHint := by
    rw [hfilter]
    exact List.mem_singleton_self _
  rw [hvalue] at hallocation
  refine ⟨result, hresult, group, hgroup, howns,
    ⟨unit, List.mem_of_mem_filter hunit, of_decide_eq_true (List.mem_filter.1 hunit).2, hallocation⟩, ?_, ?_⟩
  · rw [(physicalStorage_eq hresult).1, haccounts]
    show List.countP Option.isSome (none :: List.replicate _ none) = 0
    rw [List.countP_cons_of_neg (by simp), List.countP_replicate]
    rfl
  · rintro ⟨unit', hfilter', hmem⟩
    obtain rfl : unit = unit' := by simpa using hfilter.symm.trans hfilter'
    rw [haccounts, hallocation, List.mem_singleton] at hmem
    cases hmem

theorem linked_agree_iff : ∃ result, computeSnapshotDuplicateAnalysis Integral linkedBase true = .ok result ∧
    ∀ group ∈ result.payloadEqualityGroups, ∀ hint, group.Owns true linkedBase.entries hint →
      (group.AgreesOn true linkedBase.entries hint ↔ (hintClass linkedBase.entries hint).length = 1 ∨
        ∀ e ∈ hintClass linkedBase.entries hint, entryAllocatedSize e = none) := by
  obtain ⟨result, hresult, -⟩ := linked_analyzed
  exact ⟨result, hresult, (accountings_agree_iff hresult).2.2⟩

end Steward
