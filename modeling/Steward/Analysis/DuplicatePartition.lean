import Mathlib.Algebra.BigOperators.Group.List.Lemmas
import Steward.Analysis.RelationIdentity
import Steward.Analysis.Duplicates

/-!
# Duplicate groups partition the payloads

The groups of a duplicate analysis are the classes of equal payload keys, and
the storage units of a group split its members by the object they lie in.
-/

namespace Steward

open Py Sqlite

/-! ## Classes -/

/-- The entries of one payload key. -/
def payloadClass (reused : Bool) (es : List FilesystemEntry) (key : PayloadEqualityKey) : List FilesystemEntry :=
  es.filter fun e => payloadKey reused e = some key

/-- The payloads of this algorithm, version and digest all have this size. -/
def SingleSize (reused : Bool) (es : List FilesystemEntry) (key : PayloadEqualityKey) : Prop :=
  ∀ e ∈ es, ∀ k, payloadKey reused e = some k → k.digestKey = key.digestKey → k.size = key.size

/-- The observed regular files of one device and inode. -/
def hintClass (es : List FilesystemEntry) (hint : ObjectHint) : List FilesystemEntry :=
  (observedEntries es).filter fun e => hasObjectHint e ∧ objectHint e = hint

/-- `(algorithm, algorithm_version, digest, logical_size_bytes)` -/
def PayloadEqualityGroup.key (group : PayloadEqualityGroup) : PayloadEqualityKey :=
  toLex (group.algorithm, toLex (group.algorithmVersion, toLex (group.digest, group.logicalSizeBytes)))

theorem PayloadEqualityKey.ext {k l : PayloadEqualityKey} (hd : k.digestKey = l.digestKey)
    (hs : k.size = l.size) : k = l := by
  obtain ⟨a, v, d, s⟩ := k
  obtain ⟨a', v', d', s'⟩ := l
  cases hd
  cases hs
  rfl

section
variable {reused : Bool} {e : FilesystemEntry} {key : PayloadEqualityKey}

theorem observed_of_payloadKey (h : payloadKey reused e = some key) :
    observedRegular e = true ∧ e.excluded = false := by
  unfold payloadKey at h
  cases hv : e.v2 with
  | none => simp [hv] at h
  | some facts =>
    rw [hv] at h
    by_cases hno : ¬ observedRegular e ∨ e.excluded
    · rw [Option.bind_eq_bind, Option.bind_some, if_pos hno] at h
      cases h
    · simpa using hno

theorem regular_of_observed (h : observedRegular e = true) : e.objectType = .regularFile := by
  unfold observedRegular at h
  simp_all

theorem knownKey_of_some (h : payloadKey reused e = some key) : knownKey reused e = key := by
  rw [knownKey, h, Option.getD_some]

theorem mem_observedEntries {es : List FilesystemEntry} :
    e ∈ observedEntries es ↔ e ∈ es ∧ observedRegular e = true ∧ e.excluded = false := by
  simp only [observedEntries, regularEntries, List.mem_filter, Bool.and_eq_true, Bool.not_eq_true',
    decide_eq_true_eq]
  exact ⟨fun h => ⟨h.1.1, h.2⟩, fun h => ⟨⟨h.1, regular_of_observed h.2.1⟩, h.2⟩⟩

theorem mem_analyzableEntries {es : List FilesystemEntry} :
    e ∈ analyzableEntries reused es ↔ e ∈ es ∧ ∃ key, payloadKey reused e = some key := by
  simp only [analyzableEntries, regularEntries, List.mem_filter, Option.isSome_iff_exists, decide_eq_true_eq]
  exact ⟨fun h => ⟨h.1.1, h.2⟩, fun ⟨he, key, hkey⟩ =>
    ⟨⟨he, regular_of_observed (observed_of_payloadKey hkey).1⟩, key, hkey⟩⟩

theorem mem_payloadClass {es : List FilesystemEntry} :
    e ∈ payloadClass reused es key ↔ e ∈ es ∧ payloadKey reused e = some key := by
  simp [payloadClass]

theorem mem_hintClass {es : List FilesystemEntry} {hint : ObjectHint} :
    e ∈ hintClass es hint ↔ e ∈ observedEntries es ∧ hasObjectHint e = true ∧ objectHint e = hint := by
  simp [hintClass]

end

theorem severalValues_eq_true {α : Type} [DecidableEq α] {xs : List α} :
    severalValues xs = true ↔ ∃ a ∈ xs, ∃ b ∈ xs, a ≠ b := by
  simp [severalValues, Finset.one_lt_card]

/-! ## Payload groups -/

section
variable {reused : Bool} {s : FilesystemSnapshot} {bySize : List IntegrityConflict}

/-- The references set aside are those of digests with more than one size. -/
theorem mem_sizeConflictEntries
    (h : (sizeConflicts reused s.entries).mapM (fun g => sizeConflict g.2) = .ok bySize)
    {e : FilesystemEntry} (hs : s.Located) (he : e ∈ s.entries) {key : PayloadEqualityKey}
    (hkey : payloadKey reused e = some key) :
    reference e ∈ bySize.flatMap IntegrityConflict.entries ↔ ¬ SingleSize reused s.entries key := by
  have hmember {c : IntegrityConflict} {g : (Text ×ₗ Int ×ₗ Text) × List FilesystemEntry}
      (hc : sizeConflict g.2 = .ok c) (r : SnapshotEntryReference) :
      r ∈ c.entries ↔ ∃ a ∈ g.2, reference a = r := by
    obtain ⟨rs, hrs, hc⟩ := bind_eq_ok.1 hc
    cases hc
    exact mem_orderedReferences hrs
  rw [List.mem_flatMap]
  constructor
  · rintro ⟨c, hc, hec⟩ hsingle
    obtain ⟨g, hg, hok⟩ := forall₂_mem_right (mapM_eq_ok.1 h) hc
    obtain ⟨hg, hseveral⟩ := List.mem_filter.1 hg
    obtain ⟨a, ha, hae⟩ := (hmember hok _).1 hec
    obtain ⟨haes, hka⟩ := mem_of_mem_sortedGroups hg ha
    obtain ⟨x, hx, y, hy, hxy⟩ := severalValues_eq_true.1 hseveral
    have hobtain {z : Int} (hz : z ∈ g.2.map fun e => (knownKey reused e).size) : z = key.size := by
      obtain ⟨b, hb, rfl⟩ := List.mem_map.1 hz
      obtain ⟨hbes, hkb⟩ := mem_of_mem_sortedGroups hg hb
      obtain ⟨hb, kb, hkb'⟩ := mem_analyzableEntries.1 hbes
      have hsame : a = e := hs.reference_inj (mem_analyzableEntries.1 haes).1 he hae
      rw [hsame, knownKey_of_some hkey] at hka
      rw [knownKey_of_some hkb'] at hkb ⊢
      exact hsingle b hb kb hkb' (hkb.trans hka.symm)
    exact hxy ((hobtain hx).trans (hobtain hy).symm)
  · intro hnot
    simp only [SingleSize, not_forall] at hnot
    obtain ⟨b, hb, kb, hkb, hdigest, hsize⟩ := hnot
    have hemem : e ∈ analyzableEntries reused s.entries := mem_analyzableEntries.2 ⟨he, key, hkey⟩
    have hbmem : b ∈ analyzableEntries reused s.entries := mem_analyzableEntries.2 ⟨hb, kb, hkb⟩
    let members := (analyzableEntries reused s.entries).filter fun x =>
      (knownKey reused x).digestKey = key.digestKey
    have hgroup : (key.digestKey, members) ∈
        sortedGroups (fun x => (knownKey reused x).digestKey) (analyzableEntries reused s.entries) := by
      refine mem_sortedGroups.2 ⟨List.mem_map.2 ⟨e, hemem, by rw [knownKey_of_some hkey]⟩, ?_⟩
      exact List.filter_congr fun x _ => decide_eq_decide.2 Iff.rfl
    have hmem {x : FilesystemEntry} {kx : PayloadEqualityKey} (hx : x ∈ analyzableEntries reused s.entries)
        (hkx : payloadKey reused x = some kx) (hd : kx.digestKey = key.digestKey) : x ∈ members := by
      refine List.mem_filter.2 ⟨hx, ?_⟩
      rw [knownKey_of_some hkx, hd, decide_eq_true_eq]
    have hseveral : severalValues (members.map fun x => (knownKey reused x).size) = true := by
      refine severalValues_eq_true.2 ⟨_, List.mem_map_of_mem (hmem hbmem hkb hdigest), _,
        List.mem_map_of_mem (hmem hemem hkey rfl), ?_⟩
      rwa [knownKey_of_some hkey, knownKey_of_some hkb]
    obtain ⟨c, hc, hok⟩ := exists_mapM_of_mem h (List.mem_filter.2 ⟨hgroup, hseveral⟩)
    exact ⟨c, hc, (hmember hok _).2 ⟨e, hmem hemem hkey rfl, rfl⟩⟩

/-- The groups formed are the classes of two or more payloads of one key and one size. -/
theorem mem_equalPayloads (hs : s.Located)
    (h : (sizeConflicts reused s.entries).mapM (fun g => sizeConflict g.2) = .ok bySize)
    {g : PayloadEqualityKey × List FilesystemEntry} :
    g ∈ equalPayloads reused s.entries (bySize.flatMap IntegrityConflict.entries) ↔
      SingleSize reused s.entries g.1 ∧ 2 ≤ (payloadClass reused s.entries g.1).length ∧
        g.2 = payloadClass reused s.entries g.1 := by
  let kept := (analyzableEntries reused s.entries).filter fun e =>
    reference e ∉ bySize.flatMap IntegrityConflict.entries
  have hmem {e : FilesystemEntry} : e ∈ kept ↔
      e ∈ s.entries ∧ ∃ key, payloadKey reused e = some key ∧ SingleSize reused s.entries key := by
    simp only [kept, List.mem_filter, mem_analyzableEntries, decide_eq_true_eq]
    constructor
    · rintro ⟨⟨he, key, hkey⟩, hfree⟩
      rw [mem_sizeConflictEntries h hs he hkey, not_not] at hfree
      exact ⟨he, key, hkey, hfree⟩
    · rintro ⟨he, key, hkey, hsingle⟩
      rw [mem_sizeConflictEntries h hs he hkey]
      exact ⟨⟨he, key, hkey⟩, not_not.2 hsingle⟩
  have hclass (key : PayloadEqualityKey) (hsingle : SingleSize reused s.entries key) :
      (kept.filter fun e => knownKey reused e = key) = payloadClass reused s.entries key := by
    simp only [kept, analyzableEntries, regularEntries, List.filter_filter, payloadClass]
    refine List.filter_congr fun e he => ?_
    rw [Bool.eq_iff_iff]
    simp only [Bool.and_eq_true, decide_eq_true_eq]
    constructor
    · rintro ⟨hknown, hfree, hsome, hregular⟩
      obtain ⟨k, hk⟩ := Option.isSome_iff_exists.1 hsome
      rw [knownKey_of_some hk] at hknown
      rw [hk, hknown]
    · intro hk
      refine ⟨knownKey_of_some hk, ?_, by rw [hk]; rfl, regular_of_observed (observed_of_payloadKey hk).1⟩
      rw [mem_sizeConflictEntries h hs he hk]
      exact not_not.2 hsingle
  rw [equalPayloads, List.mem_filter, mem_sortedGroups, decide_eq_true_eq]
  constructor
  · rintro ⟨⟨hkey, hmembers⟩, hlen⟩
    obtain ⟨e, he, hek⟩ := List.mem_map.1 hkey
    obtain ⟨-, key, hkey, hsingle⟩ := hmem.1 he
    rw [knownKey_of_some hkey] at hek
    subst hek
    have hsame : g.2 = payloadClass reused s.entries g.1 := by
      rw [← hclass _ hsingle, hmembers]
      exact List.filter_congr fun x _ => decide_eq_decide.2 Iff.rfl
    exact ⟨hsingle, hsame ▸ hlen, hsame⟩
  · rintro ⟨hsingle, hlen, hmembers⟩
    obtain ⟨e, he⟩ := List.exists_mem_of_length_pos (Nat.lt_of_lt_of_le Nat.zero_lt_two hlen)
    obtain ⟨he, hkey⟩ := mem_payloadClass.1 he
    refine ⟨⟨List.mem_map.2 ⟨e, hmem.2 ⟨he, g.1, hkey, hsingle⟩, knownKey_of_some hkey⟩, ?_⟩, hmembers ▸ hlen⟩
    rw [hmembers, ← hclass _ hsingle]
    exact List.filter_congr fun x _ => decide_eq_decide.2 Iff.rfl

end

theorem nodup_equalPayloads {reused : Bool} {es : List FilesystemEntry} {conflicting : List SnapshotEntryReference} :
    ((equalPayloads reused es conflicting).map Prod.fst).Nodup := by
  have hsub : (equalPayloads reused es conflicting).Sublist (sortedGroups (knownKey reused)
      ((analyzableEntries reused es).filter fun e => reference e ∉ conflicting)) := List.filter_sublist
  exact (hsub.map Prod.fst).nodup nodup_sortedGroups

/-! ## Alias sets -/

section
variable {F : Type} [SqliteFloat F] {es : List FilesystemEntry}

theorem nodup_sortedHints : ((sortedHints es).map Prod.fst).Nodup := nodup_sortedGroups

theorem exists_sortedHints {e : FilesystemEntry} (he : e ∈ es.filter hasObjectHint) :
    ∃ g ∈ sortedHints es, e ∈ g.2 := exists_sortedGroups he

theorem aliasSet_eq_ok {hint : ObjectHint} {members : List FilesystemEntry} {set : HardLinkAliasSet}
    (h : aliasSet F hint members = .ok set) :
    toLex (set.deviceId, set.inode) = hint ∧ set.memberEntries.Perm (members.map reference) := by
  obtain ⟨references, hreferences, h⟩ := bind_eq_ok.1 h
  obtain ⟨aliasSetId, -, h⟩ := bind_eq_ok.1 h
  cases h
  exact ⟨rfl, sortedByM_perm hreferences⟩

theorem mem_aliasedHints {g : ObjectHint × List FilesystemEntry} :
    g ∈ aliasedHints es ↔ 2 ≤ (hintClass es g.1).length ∧ g.2 = hintClass es g.1 := by
  have hclass : ((observedEntries es).filter hasObjectHint).filter (fun e => objectHint e = g.1) =
      hintClass es g.1 := by
    rw [hintClass, List.filter_filter]
    refine List.filter_congr fun e _ => ?_
    rw [Bool.eq_iff_iff]
    simp [and_comm]
  have hfilter (p : FilesystemEntry → Bool) (hp : ∀ e, p e = decide (objectHint e = g.1)) :
      ((observedEntries es).filter hasObjectHint).filter p = hintClass es g.1 := by
    rw [← hclass]
    exact List.filter_congr fun e _ => hp e
  rw [aliasedHints, List.mem_filter, sortedHints, mem_sortedGroups, decide_eq_true_eq,
    hfilter _ fun e => decide_eq_decide.2 Iff.rfl]
  constructor
  · rintro ⟨⟨-, hmembers⟩, hlen⟩
    exact ⟨hmembers ▸ hlen, hmembers⟩
  · rintro ⟨hlen, hmembers⟩
    obtain ⟨e, he⟩ := List.exists_mem_of_length_pos (Nat.lt_of_lt_of_le Nat.zero_lt_two hlen)
    obtain ⟨he, hhas, hhint⟩ := mem_hintClass.1 he
    exact ⟨⟨List.mem_map.2 ⟨e, List.mem_filter.2 ⟨he, hhas⟩, hhint⟩, hmembers⟩, hmembers ▸ hlen⟩

/-- An alias set lists the observed regular files of its hint. -/
theorem mem_aliasSets {aliases : List HardLinkAliasSet} (h : aliasSets F es = .ok aliases)
    {set : HardLinkAliasSet} (hset : set ∈ aliases) :
    set.memberEntries.Perm ((hintClass es (toLex (set.deviceId, set.inode))).map reference) := by
  obtain ⟨g, hg, hok⟩ := forall₂_mem_right (mapM_eq_ok.1 h) hset
  obtain ⟨hhint, hperm⟩ := aliasSet_eq_ok hok
  rw [hhint]
  rwa [(mem_aliasedHints.1 hg).2] at hperm

/-- A hint has at most one alias set. -/
theorem nodup_aliases {aliases : List HardLinkAliasSet} (h : aliasSets F es = .ok aliases) :
    (aliases.map fun set => (toLex (set.deviceId, set.inode) : ObjectHint)).Nodup := by
  have hkeys : (aliasedHints es).map Prod.fst =
      aliases.map fun set => (toLex (set.deviceId, set.inode) : ObjectHint) :=
    forall₂_map_eq (mapM_eq_ok.1 h) fun g set hset => (aliasSet_eq_ok hset).1.symm
  have hsub : ((aliasedHints es).map Prod.fst).Sublist ((sortedHints (observedEntries es)).map Prod.fst) :=
    (List.filter_sublist (l := sortedHints (observedEntries es))).map Prod.fst
  rw [← hkeys]
  exact hsub.nodup (nodup_sortedGroups)

theorem aliasByHint_eq_some {aliases : List HardLinkAliasSet} (h : aliasSets F es = .ok aliases)
    {hint : ObjectHint} {set : HardLinkAliasSet} :
    aliasByHint aliases hint = some set ↔ set ∈ aliases ∧ toLex (set.deviceId, set.inode) = hint := by
  unfold aliasByHint
  constructor
  · intro hfind
    exact ⟨List.mem_of_find?_eq_some hfind, by simpa using List.find?_some hfind⟩
  · rintro ⟨hset, hhint⟩
    cases hfind : aliases.find? fun set => toLex (set.deviceId, set.inode) = hint with
    | none => exact absurd (decide_eq_true hhint) (List.find?_eq_none.1 hfind set hset)
    | some found =>
      have hfound : toLex (found.deviceId, found.inode) = hint := by simpa using List.find?_some hfind
      rw [List.inj_on_of_nodup_map (nodup_aliases h) (List.mem_of_find?_eq_some hfind) hset
        (hfound.trans hhint.symm)]

end

/-! ## Storage units -/

/-- The hint of a unit of known membership. -/
def StorageUnit.hint (unit : StorageUnit) : Option ObjectHint :=
  match unit.deviceId, unit.inode with
  | some deviceId, some inode => some (toLex (deviceId, inode))
  | _, _ => none

/-- The unit lists an alias set whole, or members of its group. -/
structure StorageUnit.Lists (unit : StorageUnit) (aliases : List HardLinkAliasSet)
    (memberEntries : List SnapshotEntryReference) : Prop where
  ofAlias : ∀ set ∈ aliases, unit.hint = some (toLex (set.deviceId, set.inode)) →
    unit.memberEntries = set.memberEntries
  ofMembers : (∀ set ∈ aliases, unit.hint ≠ some (toLex (set.deviceId, set.inode))) →
    ∀ r ∈ unit.memberEntries, r ∈ memberEntries
  meets : ∃ r ∈ unit.memberEntries, r ∈ memberEntries

/-- The units split the members. -/
structure Partitions (units : List StorageUnit) (aliases : List HardLinkAliasSet)
    (memberEntries : List SnapshotEntryReference) : Prop where
  nodup : (units.flatMap StorageUnit.memberEntries).Nodup
  covers : ∀ r ∈ memberEntries, ∃ unit ∈ units, r ∈ unit.memberEntries
  lists : ∀ unit ∈ units, unit.Lists aliases memberEntries

theorem Partitions.perm {units units' : List StorageUnit} {aliases aliases' : List HardLinkAliasSet}
    {ms ms' : List SnapshotEntryReference} (h : Partitions units aliases ms) (hu : units.Perm units')
    (ha : aliases.Perm aliases') (hm : ms.Perm ms') : Partitions units' aliases' ms' where
  nodup := (hu.flatMap_right _).nodup_iff.1 h.nodup
  covers r hr := by
    obtain ⟨unit, hunit, hru⟩ := h.covers r (hm.mem_iff.2 hr)
    exact ⟨unit, hu.mem_iff.1 hunit, hru⟩
  lists unit hunit := by
    have hlists := h.lists unit (hu.mem_iff.2 hunit)
    refine ⟨fun set hset => hlists.ofAlias set (ha.mem_iff.2 hset), fun hnone r hr => ?_, ?_⟩
    · exact hm.mem_iff.1 (hlists.ofMembers (fun set hset => hnone set (ha.mem_iff.1 hset)) r hr)
    · obtain ⟨r, hr, hmem⟩ := hlists.meets
      exact ⟨r, hr, hm.mem_iff.1 hmem⟩

section
variable {F : Type} [SqliteFloat F] {s : FilesystemSnapshot} {aliases : List HardLinkAliasSet}
  {conflicted : List ObjectHint} {size : Int} {members : List FilesystemEntry}

/-- What the unit of one hint lists. -/
theorem knownUnit_eq_ok (h : aliasSets F s.entries = .ok aliases) {hint : ObjectHint}
    {unitMembers : List FilesystemEntry} {unit : StorageUnit}
    (hok : knownUnit aliases conflicted size hint unitMembers = .ok unit) :
    unit.hint = some hint ∧ unit.membershipKnown = true ∧
      ((∃ set ∈ aliases, toLex (set.deviceId, set.inode) = hint ∧ unit.memberEntries = set.memberEntries) ∨
        ((∀ set ∈ aliases, toLex (set.deviceId, set.inode) ≠ hint) ∧
          unit.memberEntries.Perm (unitMembers.map reference))) := by
  unfold knownUnit at hok
  cases hset : aliasByHint aliases hint with
  | some set =>
    rw [hset] at hok
    cases hok
    obtain ⟨hmem, hhint⟩ := (aliasByHint_eq_some h).1 hset
    exact ⟨rfl, rfl, .inl ⟨set, hmem, hhint, rfl⟩⟩
  | none =>
    rw [hset] at hok
    obtain ⟨references, hreferences, hok⟩ := bind_eq_ok.1 hok
    cases hok
    refine ⟨rfl, rfl, .inr ⟨fun set hmem hhint => ?_, sortedByM_perm hreferences⟩⟩
    rw [(aliasByHint_eq_some h).2 ⟨hmem, hhint⟩] at hset
    cases hset

theorem nodup_known (h : aliasSets F s.entries = .ok aliases) {known : List StorageUnit}
    (hok : (sortedHints members).mapM (fun g => knownUnit aliases conflicted size g.1 g.2) = .ok known) :
    (known.map StorageUnit.hint).Nodup := by
  have hhints : (sortedHints members).map (fun g => some g.1) = known.map StorageUnit.hint :=
    forall₂_map_eq (mapM_eq_ok.1 hok) fun g unit hunit => (knownUnit_eq_ok h hunit).1.symm
  rw [← hhints]
  have hsome := (@nodup_sortedHints members).map (Option.some_injective _)
  rw [List.map_map] at hsome
  exact hsome

/-- Members of a group: observed regular files of the snapshot. -/
structure GroupMembers (s : FilesystemSnapshot) (members : List FilesystemEntry) : Prop where
  located : s.Located
  nodup : members.Nodup
  observed : ∀ e ∈ members, e ∈ observedEntries s.entries

namespace GroupMembers

variable (hm : GroupMembers s members)
include hm

theorem mem {e : FilesystemEntry} (he : e ∈ members) : e ∈ s.entries :=
  (mem_observedEntries.1 (hm.observed e he)).1

theorem nodup_references {es : List FilesystemEntry} (hes : es.Nodup) (hsub : ∀ e ∈ es, e ∈ s.entries) :
    (es.map reference).Nodup :=
  hes.map_on fun a ha b hb hab => hm.located.reference_inj (hsub a ha) (hsub b hb) hab

/-- The unit of one hint lists distinct references, all to entries of that hint. -/
theorem knownUnit_footprint (h : aliasSets F s.entries = .ok aliases)
    {g : ObjectHint × List FilesystemEntry} (hg : g ∈ sortedHints members) {unit : StorageUnit}
    (hok : knownUnit aliases conflicted size g.1 g.2 = .ok unit) :
    unit.memberEntries.Nodup ∧ (∀ e ∈ g.2, reference e ∈ unit.memberEntries) ∧
      ∀ r ∈ unit.memberEntries, ∃ e ∈ hintClass s.entries g.1, reference e = r := by
  have hgroup {e : FilesystemEntry} (he : e ∈ g.2) : e ∈ members ∧ hasObjectHint e = true ∧ objectHint e = g.1 := by
    obtain ⟨hmem, hhint⟩ := mem_of_mem_sortedGroups hg he
    exact ⟨(List.mem_filter.1 hmem).1, (List.mem_filter.1 hmem).2, hhint⟩
  have hclass {e : FilesystemEntry} (he : e ∈ g.2) : e ∈ hintClass s.entries g.1 :=
    mem_hintClass.2 ⟨hm.observed e (hgroup he).1, (hgroup he).2⟩
  have hsub {e : FilesystemEntry} (he : e ∈ hintClass s.entries g.1) : e ∈ s.entries :=
    (mem_observedEntries.1 (mem_hintClass.1 he).1).1
  obtain ⟨-, -, ⟨set, hset, hhint, hentries⟩ | ⟨-, hperm⟩⟩ := knownUnit_eq_ok h hok
  · have hperm := mem_aliasSets h hset
    rw [hhint] at hperm
    rw [hentries]
    refine ⟨hperm.nodup_iff.2 (hm.nodup_references ?_ fun e he => hsub he), fun e he => ?_, fun r hr => ?_⟩
    · exact ((hm.located.nodup.filter _).filter _).filter _
    · exact hperm.mem_iff.2 (List.mem_map_of_mem (hclass he))
    · exact List.mem_map.1 (hperm.mem_iff.1 hr)
  · refine ⟨hperm.nodup_iff.2 (hm.nodup_references ?_ fun e he => hsub (hclass he)), fun e he => ?_, fun r hr => ?_⟩
    · rw [(mem_sortedGroups.1 hg).2]
      exact (hm.nodup.filter _).filter _
    · exact hperm.mem_iff.2 (List.mem_map_of_mem he)
    · obtain ⟨e, he, rfl⟩ := List.mem_map.1 (hperm.mem_iff.1 hr)
      exact ⟨e, hclass he, rfl⟩

/-- Units of distinct hints share no reference. -/
theorem knownUnits_disjoint (h : aliasSets F s.entries = .ok aliases) {known : List StorageUnit}
    (hok : (sortedHints members).mapM (fun g => knownUnit aliases conflicted size g.1 g.2) = .ok known) :
    known.Pairwise (Function.onFun List.Disjoint StorageUnit.memberEntries) := by
  refine (List.pairwise_map.1 (nodup_known h hok)).imp_of_mem fun {a b} ha hb hab r hra hrb => hab ?_
  obtain ⟨g, hg, hoka⟩ := forall₂_mem_right (mapM_eq_ok.1 hok) ha
  obtain ⟨g', hg', hokb⟩ := forall₂_mem_right (mapM_eq_ok.1 hok) hb
  obtain ⟨e, he, hre⟩ := (hm.knownUnit_footprint h hg hoka).2.2 r hra
  obtain ⟨e', he', hre'⟩ := (hm.knownUnit_footprint h hg' hokb).2.2 r hrb
  obtain ⟨hobs, -, hhint⟩ := mem_hintClass.1 he
  obtain ⟨hobs', -, hhint'⟩ := mem_hintClass.1 he'
  have hsame : e = e' := hm.located.reference_inj (mem_observedEntries.1 hobs).1 (mem_observedEntries.1 hobs').1
    (hre.trans hre'.symm)
  rw [(knownUnit_eq_ok h hoka).1, (knownUnit_eq_ok h hokb).1, ← hhint, ← hhint', hsame]

theorem units_nodup (h : aliasSets F s.entries = .ok aliases) {known : List StorageUnit}
    (hok : (sortedHints members).mapM (fun g => knownUnit aliases conflicted size g.1 g.2) = .ok known)
    {unhinted : List FilesystemEntry} (hu : unhinted.Perm (members.filter fun e => !hasObjectHint e)) :
    ((known ++ unhinted.map (unknownUnit size)).flatMap StorageUnit.memberEntries).Nodup := by
  have hunhinted {e : FilesystemEntry} (he : e ∈ unhinted) : e ∈ members ∧ hasObjectHint e = false := by
    simpa using hu.mem_iff.1 he
  rw [List.nodup_flatMap]
  refine ⟨fun unit hunit => ?_, List.pairwise_append.2 ⟨hm.knownUnits_disjoint h hok, ?_, ?_⟩⟩
  · rcases List.mem_append.1 hunit with hunit | hunit
    · obtain ⟨g, hg, hok⟩ := forall₂_mem_right (mapM_eq_ok.1 hok) hunit
      exact (hm.knownUnit_footprint h hg hok).1
    · obtain ⟨e, -, rfl⟩ := List.mem_map.1 hunit
      exact List.nodup_singleton _
  · have hnodup : (unhinted.map reference).Nodup :=
      hm.nodup_references (hu.nodup_iff.2 (hm.nodup.filter _)) fun e he => hm.mem (hunhinted he).1
    rw [List.pairwise_map]
    refine (List.pairwise_map.1 hnodup).imp fun {a b} hab r hra hrb => hab ?_
    exact (List.mem_singleton.1 hra).symm.trans (List.mem_singleton.1 hrb)
  · intro a ha b hb r hra hrb
    obtain ⟨g, hg, hok⟩ := forall₂_mem_right (mapM_eq_ok.1 hok) ha
    obtain ⟨e, he, hre⟩ := (hm.knownUnit_footprint h hg hok).2.2 r hra
    obtain ⟨e', he', rfl⟩ := List.mem_map.1 hb
    obtain ⟨hobs, hhas, -⟩ := mem_hintClass.1 he
    have hsame : e = e' := hm.located.reference_inj (mem_observedEntries.1 hobs).1 (hm.mem (hunhinted he').1)
      (hre.trans (List.mem_singleton.1 hrb))
    rw [hsame, (hunhinted he').2] at hhas
    cases hhas

theorem storageUnits_partition (h : aliasSets F s.entries = .ok aliases) {units : List StorageUnit}
    (hok : storageUnits aliases conflicted size members = .ok units) :
    Partitions units aliases (members.map reference) := by
  obtain ⟨known, hknown, hok⟩ := bind_eq_ok.1 hok
  obtain ⟨unhinted, hunhinted, hok⟩ := bind_eq_ok.1 hok
  have hu : unhinted.Perm (members.filter fun e => !hasObjectHint e) := sortedByM_perm hunhinted
  refine Partitions.perm ⟨hm.units_nodup h hknown hu, fun r hr => ?_, fun unit hunit => ?_⟩
    (sortedByM_perm hok).symm (.refl _) (.refl _)
  · obtain ⟨e, he, rfl⟩ := List.mem_map.1 hr
    cases hhint : hasObjectHint e with
    | false =>
      have hmem : e ∈ unhinted := hu.mem_iff.2 (List.mem_filter.2 ⟨he, by rw [hhint]; rfl⟩)
      exact ⟨unknownUnit size e, List.mem_append_right _ (List.mem_map_of_mem hmem), List.mem_singleton_self _⟩
    | true =>
      obtain ⟨g, hg, heg⟩ := exists_sortedHints (List.mem_filter.2 ⟨he, hhint⟩)
      obtain ⟨unit, hunit, hokunit⟩ := exists_mapM_of_mem hknown hg
      exact ⟨unit, List.mem_append_left _ hunit, (hm.knownUnit_footprint h hg hokunit).2.1 e heg⟩
  · rcases List.mem_append.1 hunit with hunit | hunit
    · obtain ⟨g, hg, hokunit⟩ := forall₂_mem_right (mapM_eq_ok.1 hknown) hunit
      have hmember {e : FilesystemEntry} (he : e ∈ g.2) : e ∈ members :=
        List.mem_of_mem_filter (mem_of_mem_sortedGroups hg he).1
      have hmeets : ∃ r ∈ unit.memberEntries, r ∈ members.map reference := by
        obtain ⟨e, he, hkey⟩ := List.mem_map.1 (mem_sortedGroups.1 hg).1
        have heg : e ∈ g.2 := by
          rw [(mem_sortedGroups.1 hg).2]
          exact List.mem_filter.2 ⟨he, decide_eq_true hkey⟩
        exact ⟨_, (hm.knownUnit_footprint h hg hokunit).2.1 e heg, List.mem_map_of_mem (hmember heg)⟩
      obtain ⟨hhint, -, ⟨set, hset, hsethint, hentries⟩ | ⟨hnone, hperm⟩⟩ := knownUnit_eq_ok h hokunit
      · refine ⟨fun set' hset' hhint' => ?_, fun hnone => absurd (hhint.trans (by rw [hsethint])) (hnone set hset),
          hmeets⟩
        have hsame : set' = set := List.inj_on_of_nodup_map (nodup_aliases h) hset' hset
          ((Option.some.inj (hhint.symm.trans hhint')).symm.trans hsethint.symm)
        rw [hsame, hentries]
      · refine ⟨fun set hset hhint' => absurd (Option.some.inj (hhint.symm.trans hhint')).symm (hnone set hset),
          fun _ r hr => ?_, hmeets⟩
        obtain ⟨e, he, rfl⟩ := List.mem_map.1 (hperm.mem_iff.1 hr)
        exact List.mem_map_of_mem (hmember he)
    · obtain ⟨e, he, rfl⟩ := List.mem_map.1 hunit
      have hmem : reference e ∈ members.map reference :=
        List.mem_map_of_mem (List.mem_of_mem_filter (hu.mem_iff.1 he))
      refine ⟨fun set _ hhint => (by cases hhint), fun _ r hr => ?_, ⟨_, List.mem_singleton_self _, hmem⟩⟩
      rw [List.mem_singleton.1 hr]
      exact hmem

end GroupMembers

/-! ## The analysis -/

/-- One group: the references of its class, in the units that hold them. -/
theorem payloadGroup_eq_ok {key : PayloadEqualityKey} {entries : List FilesystemEntry} {group : PayloadEqualityGroup}
    (h : aliasSets F s.entries = .ok aliases) (hm : GroupMembers s entries)
    (hok : payloadGroup F aliases conflicted key entries = .ok group) :
    group.key = key ∧ group.memberEntries.Perm (entries.map reference) ∧
      Partitions group.storageUnits aliases group.memberEntries ∧
      group.logicalRedundantBytes = (groupWithoutId aliases key [] [] group.storageUnits).logicalRedundantBytes := by
  obtain ⟨members, hmembers, hok⟩ := bind_eq_ok.1 hok
  obtain ⟨units, hunits, hok⟩ := bind_eq_ok.1 hok
  obtain ⟨memberEntries, hentries, hok⟩ := bind_eq_ok.1 hok
  obtain ⟨payloadGroupId, -, hok⟩ := bind_eq_ok.1 hok
  cases hok
  have hperm : members.Perm entries := sortedByM_perm hmembers
  have hrefs : memberEntries.Perm (members.map reference) := sortedByM_perm hentries
  have hsorted : GroupMembers s members :=
    ⟨hm.located, hperm.nodup_iff.2 hm.nodup, fun e he => hm.observed e (hperm.mem_iff.1 he)⟩
  exact ⟨rfl, hrefs.trans (hperm.map _),
    (hsorted.storageUnits_partition h hunits).perm (.refl _) (.refl _) hrefs.symm, rfl⟩

/-- The units agree on all storage of the group. -/
def PayloadEqualityGroup.Settled (group : PayloadEqualityGroup) : Prop :=
  2 ≤ (conflictFreeUnits group.storageUnits).length ∧
    ∀ unit ∈ group.storageUnits, unit.membershipKnown = true ∧ unit.integrityConflicted = false

theorem redundant_of_settled {key : PayloadEqualityKey} {group : PayloadEqualityGroup} (hkey : group.key = key)
    (h : group.logicalRedundantBytes =
      (groupWithoutId aliases key [] [] group.storageUnits).logicalRedundantBytes) :
    (group.logicalRedundantBytes.isSome ↔ group.Settled) ∧
      ∀ n ∈ group.logicalRedundantBytes, n = group.logicalSizeBytes * (group.storageUnits.length - 1) := by
  have hall : ((group.storageUnits.countP fun unit => !unit.membershipKnown) = 0 ∧
      ¬ group.storageUnits.any StorageUnit.integrityConflicted) ↔
      ∀ unit ∈ group.storageUnits, unit.membershipKnown = true ∧ unit.integrityConflicted = false := by
    rw [List.countP_eq_zero]
    simp only [Bool.not_eq_true', Bool.not_eq_false, List.any_eq_true, not_exists, not_and, Bool.not_eq_true]
    exact ⟨fun hu unit hunit => ⟨hu.1 unit hunit, hu.2 unit hunit⟩,
      fun hu => ⟨fun unit hunit => (hu unit hunit).1, fun unit hunit => (hu unit hunit).2⟩⟩
  have hbytes : group.logicalRedundantBytes = if 2 ≤ (conflictFreeUnits group.storageUnits).length ∧
      (group.storageUnits.countP fun unit => !unit.membershipKnown) = 0 ∧
        ¬ group.storageUnits.any StorageUnit.integrityConflicted then
      some (key.size * ((conflictFreeUnits group.storageUnits).length - 1)) else none := h
  by_cases hsettled : group.Settled
  · have hfree : conflictFreeUnits group.storageUnits = group.storageUnits :=
      List.filter_eq_self.2 fun unit hunit => by simp [hsettled.2 unit hunit]
    rw [if_pos ⟨hsettled.1, hall.2 hsettled.2⟩] at hbytes
    refine ⟨iff_of_true (by rw [hbytes]; rfl) hsettled, fun n hn => ?_⟩
    rw [hbytes, hfree, Option.mem_some_iff] at hn
    rw [← hn, ← hkey]
    rfl
  · rw [if_neg fun hs => hsettled ⟨hs.1, hall.1 hs.2⟩] at hbytes
    rw [hbytes]
    exact ⟨iff_of_false Bool.false_ne_true hsettled, fun n hn => absurd hn (Option.not_mem_none n)⟩

theorem sum_sortedCounts (codes : List Text) :
    ((sortedCounts codes).map PayloadUnknownReasonCount.count).sum = codes.length := by
  have hlen : (codes.dedup.map fun code => codes.count code).sum = codes.length := by
    have hbeq : (List.instBEq : BEq Text) = instBEqOfDecidableEq := lawful_beq_subsingleton _ _
    rw [hbeq]
    exact List.sum_map_count_dedup_eq_length codes
  rw [← hlen, sortedCounts, List.map_map]
  have hperm : (sortedKeys codes).Perm codes.dedup :=
    (List.perm_ext_iff_of_nodup nodup_sortedKeys codes.nodup_dedup).2 fun k => by simp
  exact (hperm.map fun code => codes.count code).sum_eq

/-- The groups, their units and the coverage account for every payload of the snapshot. -/
structure DuplicateAnalysisResult.Exact (result : DuplicateAnalysisResult) (reused : Bool)
    (s : FilesystemSnapshot) : Prop where
  classes : ∀ group ∈ result.payloadEqualityGroups, SingleSize reused s.entries group.key ∧
    2 ≤ (payloadClass reused s.entries group.key).length ∧
      group.memberEntries.Perm ((payloadClass reused s.entries group.key).map reference)
  complete : ∀ key, SingleSize reused s.entries key → 2 ≤ (payloadClass reused s.entries key).length →
    ∃ group ∈ result.payloadEqualityGroups, group.key = key
  disjoint : result.payloadEqualityGroups.Pairwise fun a b => a.memberEntries.Disjoint b.memberEntries
  units : ∀ group ∈ result.payloadEqualityGroups,
    Partitions group.storageUnits result.hardLinkAliasSets group.memberEntries
  aliases : ∀ set ∈ result.hardLinkAliasSets,
    set.memberEntries.Perm ((hintClass s.entries (toLex (set.deviceId, set.inode))).map reference)
  redundant : ∀ group ∈ result.payloadEqualityGroups, group.logicalRedundantBytes.isSome ↔ group.Settled
  redundantBytes : ∀ group ∈ result.payloadEqualityGroups, ∀ n ∈ group.logicalRedundantBytes,
    n = group.logicalSizeBytes * (group.storageUnits.length - 1)
  regular : result.coverage.totalRegularEntryCount = (regularEntries s.entries).length
  analyzable : result.coverage.payloadAnalyzableRegularEntryCount =
    (regularEntries s.entries).countP fun e => (payloadKey reused e).isSome
  covered : result.coverage.payloadAnalyzableRegularEntryCount +
    result.coverage.payloadUnknownRegularEntryCount = result.coverage.totalRegularEntryCount
  reasons : (result.coverage.payloadUnknownReasonCounts.map PayloadUnknownReasonCount.count).sum =
    result.coverage.payloadUnknownRegularEntryCount
  statuses : (result.coverage.payloadStatusCounts.map PayloadUnknownReasonCount.count).sum =
    result.coverage.totalRegularEntryCount

end

variable {F : Type} [SqliteFloat F]

/-- The parts the result is assembled from. -/
theorem computeSnapshotDuplicateAnalysis_parts {s : FilesystemSnapshot} {reused : Bool}
    {result : DuplicateAnalysisResult} (h : computeSnapshotDuplicateAnalysis F s reused = .ok result) :
    s.Located ∧ ∃ aliases bySize groups, aliasSets F s.entries = .ok aliases ∧
      (sizeConflicts reused s.entries).mapM (fun g => sizeConflict g.2) = .ok bySize ∧
      (equalPayloads reused s.entries (bySize.flatMap IntegrityConflict.entries)).mapM
        (fun g => payloadGroup F aliases (conflictedHints reused s.entries) g.1 g.2) = .ok groups ∧
      result.payloadEqualityGroups.Perm groups ∧ result.hardLinkAliasSets.Perm aliases ∧
      result.coverage = coverageSummary reused s.entries aliases := by
  obtain ⟨entries, hentries, h⟩ := bind_eq_ok.1 h
  obtain ⟨rfl, hlocated⟩ := locatedEntries_eq_ok.1 hentries
  obtain ⟨aliases, haliases, h⟩ := bind_eq_ok.1 h
  obtain ⟨byHint, -, h⟩ := bind_eq_ok.1 h
  obtain ⟨bySize, hbySize, h⟩ := bind_eq_ok.1 h
  obtain ⟨groups, hgroups, h⟩ := bind_eq_ok.1 h
  obtain ⟨orderedGroups, hog, h⟩ := bind_eq_ok.1 h
  obtain ⟨orderedAliases, hoa, h⟩ := bind_eq_ok.1 h
  obtain ⟨orderedConflicts, -, h⟩ := bind_eq_ok.1 h
  obtain ⟨bytes, -, h⟩ := bind_eq_ok.1 h
  cases h
  exact ⟨hlocated, aliases, bySize, groups, haliases, hbySize, hgroups, sortedByM_perm hog, sortedByM_perm hoa, rfl⟩

theorem length_unknownEntries {reused : Bool} {es : List FilesystemEntry} :
    (unknownEntries reused es).length = (regularEntries es).length - (analyzableEntries reused es).length := by
  have hsplit : (regularEntries es).length =
      (analyzableEntries reused es).length + (unknownEntries reused es).length := by
    rw [(regularEntries es).length_eq_length_filter_add fun e => (payloadKey reused e).isSome]
    simp only [analyzableEntries, unknownEntries, Option.not_isSome]
  omega

/-- A content under the id that is its digest. -/
theorem safe_identified {k : Text} {fs : List (Text × Value F)} (hk : k.encodable = true)
    (h : (Value.dict fs).safe = true) : (Value.dict ((k, .str (sha (F := F) (.dict fs))) :: fs)).safe = true := by
  obtain ⟨hkeys, hvals⟩ := Value.safe_dict.1 h
  exact Value.safe_dict.2 ⟨List.forall_mem_cons.2 ⟨hk, hkeys⟩, List.forall_mem_cons.2 ⟨sha_encodable _, hvals⟩⟩

theorem encodable_analysisKeys : ∀ k ∈ keys [(txt "domain", .none), (txt "analysis_schema_version", .none),
    (txt "algorithm", .none), (txt "algorithm_version", .none), (txt "snapshot_id", .none),
    (txt "payload_equality_groups", .none), (txt "hard_link_alias_sets", .none), (txt "coverage", .none),
    (txt "physical_storage", .none), (txt "integrity_conflicts", (.none : Value Integral))], k.encodable = true := by
  decide

/-- The units of two files of one payload and two inodes. -/
def inodeGroup : PayloadEqualityGroup :=
  let unit (inode : Int) (r : SnapshotEntryReference) : StorageUnit := ⟨some 1, some inode, [r], true, false, 1, none⟩
  let first : SnapshotEntryReference := ⟨txt "b", txt "s", txt "a"⟩
  let second : SnapshotEntryReference := ⟨txt "b", txt "s", txt "b"⟩
  groupWithoutId [] (knownKey true (inodeEntry (txt "b") (txt "a") 10 5)) (inodeBase 20).entries [first, second]
    [unit 10 first, unit 20 second]

theorem safe_inodeGroup : (Value.dict (payloadGroupContent inodeGroup) : Value Integral).safe = true := by
  decide

theorem inodeGroup_computed : payloadGroup Integral [] [] inodeGroup.key (inodeBase 20).entries =
    .ok { inodeGroup with payloadGroupId := sha (F := Integral) (.dict (payloadGroupContent inodeGroup)) } := by
  exact bind_eq_ok.2 ⟨(inodeBase 20).entries, rfl, bind_eq_ok.2 ⟨inodeGroup.storageUnits, rfl,
    bind_eq_ok.2 ⟨inodeGroup.memberEntries, rfl, bind_eq_ok.2 ⟨_, digestOf_eq_ok.2 ⟨safe_inodeGroup, rfl⟩, rfl⟩⟩⟩⟩

/-- Two files of one payload in two storage units. -/
theorem inode_analyzed : Ok (computeSnapshotDuplicateAnalysis Integral (inodeBase 20) true) := by
  let id := sha (F := Integral) (.dict (payloadGroupContent inodeGroup))
  let group : PayloadEqualityGroup := { inodeGroup with payloadGroupId := id }
  let physical := physicalStorageSummary (unitAllocations [] (observedEntries (inodeBase 20).entries))
  let content : Value Integral := analysisContent ⟨1, txt "exact_payload_duplicate_storage", 1, txt "b", [group], [],
    coverageSummary true (inodeBase 20).entries [], physical, [], []⟩
  have hequal : equalPayloads true (inodeBase 20).entries [] = [(inodeGroup.key, (inodeBase 20).entries)] := by
    decide +kernel
  have hsizes : sizeConflicts true (inodeBase 20).entries = [] := by decide +kernel
  have hbySize : (sizeConflicts true (inodeBase 20).entries).mapM (fun g => sizeConflict g.2) = .ok [] := by
    rw [hsizes]
    rfl
  have hgroups : (equalPayloads true (inodeBase 20).entries []).mapM
      (fun g => payloadGroup Integral [] [] g.1 g.2) = .ok [group] := by
    rw [hequal]
    exact mapM_eq_ok.2 (.cons inodeGroup_computed .nil)
  have hgroupSafe : (Value.dict ((txt "payload_group_id", .str id) :: payloadGroupContent group) :
      Value Integral).safe = true := safe_identified (by decide) safe_inodeGroup
  have hsafe : content.safe = true := by
    have hgroups : (Value.list [Value.dict ((txt "payload_group_id", .str id) :: payloadGroupContent group)] :
        Value Integral).safe = true := Value.safe_list.2 (List.forall_mem_singleton.2 hgroupSafe)
    refine Value.safe_dict.2 ⟨encodable_analysisKeys, ?_⟩
    simp only [List.forall_mem_cons]
    exact ⟨by decide, by decide, by decide, by decide, by decide, hgroups, by decide, by decide,
      by decide, by decide, by simp⟩
  have hbytes : canonicalJson content = .ok (canonicalText content) := canonicalJson_eq_ok.2 ⟨hsafe, rfl⟩
  refine ⟨_, bind_eq_ok.2 ⟨(inodeBase 20).entries, rfl, bind_eq_ok.2 ⟨[], rfl, bind_eq_ok.2 ⟨[], rfl,
    bind_eq_ok.2 ⟨[], hbySize, bind_eq_ok.2 ⟨[group], hgroups, bind_eq_ok.2 ⟨[group], rfl, bind_eq_ok.2 ⟨[], rfl,
      bind_eq_ok.2 ⟨[], rfl, bind_eq_ok.2 ⟨canonicalText content, hbytes, rfl⟩⟩⟩⟩⟩⟩⟩⟩⟩⟩

end Steward
