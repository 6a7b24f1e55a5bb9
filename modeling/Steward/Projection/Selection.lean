import Steward.Projection.Model
import Steward.Py.Selection

/-!
# Selection for the snapshot diagnostic

Candidates of one location are coalesced, ranked by channel and location, and
selected within the budget. Each scope is guaranteed its first candidate, also
where the budget guarantees it more: `selectCandidates_fair_iff`.
-/

namespace Steward.Projection

open Py

/-- `_CHANNEL_BY_REASON` -/
def channelByReason : SelectionReason → Option Nat
  | .metadataFailure | .observationFailure | .accessFailure | .unknownSize | .payloadUnknown | .excluded
  | .unreadable | .nonLocal | .integrityConflict | .reuseProvenance | .ambiguousRelation
  | .userRequestedLocation => some 0
  | .hardLinkRepresentative | .duplicateRepresentative | .relationComponentRepresentative
  | .scopeBoundaryRepresentative | .objectHintBoundaryRepresentative => some 2
  | .logicalByteContributor | .structureAnchor | .diagnosticNeighbor => some 3
  | _ => none

structure SelectionCandidate where
  entry : FilesystemEntry
  reasons : List SelectionReason
  references : List ResultLocalReference
  includeObjectHint : Bool
  deriving DecidableEq

abbrev LocationKey := Text ×ₗ List Byte

namespace SelectionCandidate

/-- `key` -/
def key (c : SelectionCandidate) : Result LocationKey := entrySortKey c.entry

/-- `key[0]` -/
def scope (c : SelectionCandidate) : Text := c.entry.scopeId

/-- `channel` -/
def channel (c : SelectionCandidate) : Nat :=
  ((c.reasons.map fun reason => (channelByReason reason).getD 1).min?).getD 1

/-- The candidate that replaces `current` when `value` has its key. -/
def coalesced (current value : SelectionCandidate) : SelectionCandidate where
  entry := current.entry
  reasons := normalizeReasons (current.reasons ++ value.reasons)
  references := sortedBy ResultLocalReference.sortKey (current.references ++ value.references).dedup
  includeObjectHint := current.includeObjectHint || value.includeObjectHint

/-- `(item.channel, *item.key)` -/
def rankKey (c : SelectionCandidate) : Result (Nat ×ₗ LocationKey) := do
  let key ← c.key
  pure (toLex (c.channel, key))

end SelectionCandidate

/-- One more value of `merged`. -/
def coalesceInto (merged : List (LocationKey × SelectionCandidate)) (value : LocationKey × SelectionCandidate) :
    List (LocationKey × SelectionCandidate) :=
  if value.1 ∈ merged.map Prod.fst then
    merged.map fun m => if m.1 = value.1 then (m.1, m.2.coalesced value.2) else m
  else merged ++ [value]

def keyed (c : SelectionCandidate) : Result (LocationKey × SelectionCandidate) := do
  let key ← c.key
  pure (key, c)

/-- `coalesce_candidates` -/
def coalesceCandidates (values : List SelectionCandidate) : Result (List SelectionCandidate) := do
  let keyedValues ← values.mapM keyed
  pure ((sortedBy Prod.fst (keyedValues.foldl coalesceInto [])).map Prod.snd)

/-- The selection from candidates in rank order. -/
def selectRanked (total perScope : Int) (ordered : List SelectionCandidate) : List SelectionCandidate :=
  if 0 < perScope then
    let scopes := sortedSet (ordered.map SelectionCandidate.scope)
    match guarantee SelectionCandidate.scope total ordered [] scopes with
    | (selected, true) => selected
    | (selected, false) => fill total selected ordered
  else fill total [] ordered

/-- `select_candidates` -/
def selectCandidates (values : List SelectionCandidate) (budget : ProjectionBudget) :
    Result (List SelectionCandidate) :=
  match budget.explicitEntryTotal with
  | .requiresCalibration => .ok []
  | .count total => do
    let candidates ← coalesceCandidates values
    if total = 0 then pure []
    else do
      let ordered ← sortedByM SelectionCandidate.rankKey candidates
      let perScope := match budget.scopeMinimumGuarantee with
        | .count n => n
        | .requiresCalibration => 0
      pure (selectRanked total perScope ordered)

/-- The candidates in rank order. -/
def rankedCandidates (values : List SelectionCandidate) : Result (List SelectionCandidate) := do
  let candidates ← coalesceCandidates values
  sortedByM SelectionCandidate.rankKey candidates

/-! ## Coalescing -/

/-- What the merged candidates keep of the values read so far. -/
structure Merges (values merged : List (LocationKey × SelectionCandidate)) : Prop where
  nodup : (merged.map Prod.fst).Nodup
  keys : ∀ k, k ∈ merged.map Prod.fst ↔ k ∈ values.map Prod.fst
  entries : ∀ m ∈ merged, ∃ v ∈ values, v.1 = m.1 ∧ v.2.entry = m.2.entry

theorem keys_coalesceInto {merged : List (LocationKey × SelectionCandidate)} {value : LocationKey × SelectionCandidate} :
    (coalesceInto merged value).map Prod.fst =
      if value.1 ∈ merged.map Prod.fst then merged.map Prod.fst else merged.map Prod.fst ++ [value.1] := by
  unfold coalesceInto
  split_ifs with h
  · rw [List.map_map]
    refine List.map_congr_left fun m _ => ?_
    show (if m.1 = value.1 then (m.1, m.2.coalesced value.2) else m).1 = m.1
    split_ifs <;> rfl
  · rw [List.map_append]
    rfl

theorem Merges.step {values merged : List (LocationKey × SelectionCandidate)} (h : Merges values merged)
    (value : LocationKey × SelectionCandidate) : Merges (values ++ [value]) (coalesceInto merged value) := by
  refine ⟨?_, fun k => ?_, fun m hm => ?_⟩
  · rw [keys_coalesceInto]
    split_ifs with hmem
    · exact h.nodup
    · exact List.Nodup.append h.nodup (List.nodup_singleton _) (List.disjoint_singleton.2 hmem)
  · rw [keys_coalesceInto, List.map_append, List.mem_append, ← h.keys k]
    split_ifs with hmem
    · refine ⟨.inl, fun hk => hk.elim id fun hk => ?_⟩
      rw [List.map_singleton, List.mem_singleton] at hk
      exact hk ▸ hmem
    · rw [List.mem_append]
      rfl
  · have hold {m' : LocationKey × SelectionCandidate} (hm' : m' ∈ merged) :
        ∃ v ∈ values ++ [value], v.1 = m'.1 ∧ v.2.entry = m'.2.entry := by
      obtain ⟨v, hv, hkey, hentry⟩ := h.entries m' hm'
      exact ⟨v, List.mem_append_left _ hv, hkey, hentry⟩
    unfold coalesceInto at hm
    split_ifs at hm with hmem
    · obtain ⟨m', hm', rfl⟩ := List.mem_map.1 hm
      split_ifs
      · obtain ⟨v, hv, hkey, hentry⟩ := hold hm'
        exact ⟨v, hv, hkey, hentry⟩
      · exact hold hm'
    · rcases List.mem_append.1 hm with hm | hm
      · exact hold hm
      · rw [List.mem_singleton.1 hm]
        exact ⟨value, List.mem_append_right _ (List.mem_singleton_self _), rfl, rfl⟩

/-- After any number of values. -/
theorem merges_foldl (rest : List (LocationKey × SelectionCandidate)) :
    ∀ {values merged : List (LocationKey × SelectionCandidate)}, Merges values merged →
      Merges (values ++ rest) (rest.foldl coalesceInto merged) := by
  induction rest with
  | nil =>
    intro values merged h
    rwa [List.append_nil]
  | cons value rest ih =>
    intro values merged h
    have hstep := ih (h.step value)
    rwa [List.append_assoc] at hstep

/-- One candidate for each key, with the entry of one of its values. -/
structure Coalesced (values candidates : List SelectionCandidate) : Prop where
  once : candidates.Nodup
  keyed : ∀ c ∈ candidates, Ok c.key
  entries : ∀ c ∈ candidates, ∃ v ∈ values, v.entry = c.entry
  covers : ∀ v ∈ values, ∃ c ∈ candidates, c.key = v.key

section
variable {values candidates ordered : List SelectionCandidate}

theorem keyed_eq_ok {c : SelectionCandidate} {m : LocationKey × SelectionCandidate} :
    keyed c = .ok m ↔ c.key = .ok m.1 ∧ m.2 = c := by
  rw [keyed, bind_eq_ok]
  constructor
  · rintro ⟨k, hk, h⟩
    cases h
    exact ⟨hk, rfl⟩
  · rintro ⟨hk, rfl⟩
    exact ⟨m.1, hk, rfl⟩

theorem ok_key {c : SelectionCandidate} : Ok c.key ↔ Ok (pathBytes c.entry.relativePath) :=
  ok_bind_of_total fun _ => ok_pure _

/-- Coalescing returns when every path can be encoded. -/
theorem ok_coalesceCandidates :
    Ok (coalesceCandidates values) ↔ ∀ v ∈ values, Ok (pathBytes v.entry.relativePath) := by
  unfold coalesceCandidates
  rw [ok_bind_of_total fun _ => ok_pure _, ok_mapM]
  refine forall₂_congr fun v _ => ?_
  rw [keyed, ok_bind_of_total fun _ => ok_pure _, ok_key]

theorem coalesced_coalesceCandidates (h : coalesceCandidates values = .ok candidates) :
    Coalesced values candidates := by
  obtain ⟨keyedValues, hkeyed, h⟩ := bind_eq_ok.1 h
  cases h
  have hmatched := mapM_eq_ok.1 hkeyed
  have hmerges := @merges_foldl keyedValues [] []
    ⟨List.nodup_nil, fun _ => Iff.rfl, fun _ h => by cases h⟩
  rw [List.nil_append] at hmerges
  generalize keyedValues.foldl coalesceInto [] = merged at hmerges ⊢
  have hkey {m : LocationKey × SelectionCandidate} (hm : m ∈ merged) : m.2.key = .ok m.1 := by
    obtain ⟨v, hv, hfst, hentry⟩ := hmerges.entries m hm
    obtain ⟨c, -, hc⟩ := forall₂_mem_right hmatched hv
    obtain ⟨hck, hcv⟩ := keyed_eq_ok.1 hc
    rw [SelectionCandidate.key, ← hentry, hcv, ← hfst]
    exact hck
  have hmem {c : SelectionCandidate} : c ∈ (sortedBy Prod.fst merged).map Prod.snd ↔ ∃ m ∈ merged, m.2 = c := by
    rw [List.mem_map]
    exact exists_congr fun m => and_congr_left fun _ => mem_sortedBy
  refine ⟨?_, fun c hc => ?_, fun c hc => ?_, fun v hv => ?_⟩
  · refine (sortedBy_perm.map Prod.snd).nodup_iff.2 ?_
    refine (List.Nodup.of_map Prod.fst hmerges.nodup).map_on fun m hm m' hm' heq => ?_
    have hfst : m.1 = m'.1 := Except.ok.inj ((hkey hm).symm.trans (heq ▸ hkey hm'))
    exact Prod.ext hfst heq
  · obtain ⟨m, hm, rfl⟩ := hmem.1 hc
    exact ⟨m.1, hkey hm⟩
  · obtain ⟨m, hm, rfl⟩ := hmem.1 hc
    obtain ⟨v, hv, -, hentry⟩ := hmerges.entries m hm
    obtain ⟨c, hc, hkc⟩ := forall₂_mem_right hmatched hv
    exact ⟨c, hc, by rw [← (keyed_eq_ok.1 hkc).2, hentry]⟩
  · obtain ⟨kv, hkv, hkeyedv⟩ := forall₂_mem_left hmatched hv
    obtain ⟨m, hm, hfst⟩ := List.mem_map.1 ((hmerges.keys kv.1).2 (List.mem_map_of_mem hkv))
    refine ⟨m.2, hmem.2 ⟨m, hm, rfl⟩, ?_⟩
    rw [hkey hm, hfst, (keyed_eq_ok.1 hkeyedv).1]

theorem scope_eq_of_key_eq {c v : SelectionCandidate} (hok : Ok c.key) (h : c.key = v.key) : c.scope = v.scope := by
  obtain ⟨k, hk⟩ := hok
  obtain ⟨b, -, hb⟩ := bind_eq_ok.1 hk
  obtain ⟨b', -, hb'⟩ := bind_eq_ok.1 (h ▸ hk)
  have heq := Except.ok.inj (hb.trans hb'.symm)
  exact congrArg (fun k : LocationKey => (ofLex k).1) heq

/-- Coalescing keeps the scopes. -/
theorem Coalesced.mem_scopes (h : Coalesced values candidates) {s : Text} :
    (∃ c ∈ candidates, c.scope = s) ↔ ∃ v ∈ values, v.scope = s := by
  constructor
  · rintro ⟨c, hc, rfl⟩
    obtain ⟨v, hv, hentry⟩ := h.entries c hc
    exact ⟨v, hv, congrArg FilesystemEntry.scopeId hentry⟩
  · rintro ⟨v, hv, rfl⟩
    obtain ⟨c, hc, hkey⟩ := h.covers v hv
    exact ⟨c, hc, scope_eq_of_key_eq (h.keyed c hc) hkey⟩

theorem ok_rankKey {c : SelectionCandidate} : Ok c.rankKey ↔ Ok c.key :=
  ok_bind_of_total fun _ => ok_pure _

/-- Whatever coalesces can be ranked. -/
theorem ranked_of_coalesced (h : coalesceCandidates values = .ok candidates) :
    ∃ ordered, sortedByM SelectionCandidate.rankKey candidates = .ok ordered ∧ ordered.Perm candidates := by
  obtain ⟨ordered, hordered⟩ := ok_sortedByM.2 fun c hc => ok_rankKey.2 ((coalesced_coalesceCandidates h).keyed c hc)
  exact ⟨ordered, hordered, sortedByM_perm hordered⟩

end

/-! ## Selecting -/

/-- The scopes of the candidates. -/
def scopesOf (values : List SelectionCandidate) : List Text := sortedSet (values.map SelectionCandidate.scope)

/-- A selection that returns, fair to what its budget promises, made of entries of its values. -/
def FairlySelects (values : List SelectionCandidate) (budget : ProjectionBudget) : Prop :=
  ∃ ordered selected, rankedCandidates values = .ok ordered ∧ selectCandidates values budget = .ok selected ∧
    Fair SelectionCandidate.scope ordered budget.explicitEntryTotal.toNat budget.scopeMinimumGuarantee.toNat selected ∧
    ∀ c ∈ selected, ∃ v ∈ values, v.entry = c.entry

/-- Every path can be encoded, and a candidate that is promised beyond the first of its scope has
fewer such candidates before it than there is room beside the first ones. -/
structure PromisesRankEarly (values : List SelectionCandidate) (budget : ProjectionBudget) : Prop where
  paths : ∀ v ∈ values, Ok (pathBytes v.entry.relativePath)
  early : ∀ ordered, rankedCandidates values = .ok ordered → ∀ c ∈ ordered,
    0 < rankIn SelectionCandidate.scope ordered c →
    rankIn SelectionCandidate.scope ordered c < budget.scopeMinimumGuarantee.toNat →
    ((before ordered c).countP fun d => 0 < rankIn SelectionCandidate.scope ordered d) <
      budget.explicitEntryTotal.toNat - (scopesOf values).length

section
variable {values ordered : List SelectionCandidate} {total share : Nat}

theorem mem_scopesOf {s : Text} : s ∈ scopesOf ordered ↔ ∃ c ∈ ordered, c.scope = s := by
  rw [scopesOf, mem_sortedSet, List.mem_map]

/-- What the guarantee pass selects. -/
def selectedAhead (ordered : List SelectionCandidate) (share : Nat) : List SelectionCandidate :=
  if 0 < share then firsts SelectionCandidate.scope ordered (scopesOf ordered) else []

/-- The loops compute the first candidates and then the next ones by rank. -/
theorem selectRanked_eq (hnd : ordered.Nodup) (htotal : 0 < total) (hroom : share * (scopesOf ordered).length ≤ total) :
    selectRanked total share ordered = ahead ordered (selectedAhead ordered share) total := by
  unfold selectRanked selectedAhead
  by_cases hshare : 0 < share
  · have hscopes : (scopesOf ordered).length ≤ total := (Nat.le_mul_of_pos_left _ hshare).trans hroom
    have hall : ∀ s ∈ scopesOf ordered, ∃ c ∈ ordered, c.scope = s := fun s hs => mem_scopesOf.1 hs
    have hpass := @guarantee_eq _ _ _ _ SelectionCandidate.scope total ordered (scopesOf ordered) [] nodup_sortedSet
      (fun _ h => by cases h) hall htotal (by simpa using hscopes)
    have hlen := length_firsts hall
    rw [if_pos (by omega), if_pos hshare]
    show (match guarantee SelectionCandidate.scope total ordered [] (scopesOf ordered) with
      | (selected, true) => selected
      | (selected, false) => fill total selected ordered) = _
    rw [List.nil_append, List.length_nil, Nat.zero_add] at hpass
    generalize guarantee SelectionCandidate.scope total ordered [] (scopesOf ordered) = pass at hpass
    obtain ⟨selected, full⟩ := pass
    obtain ⟨hselected, hfull⟩ := hpass
    simp only at hselected hfull
    rw [hselected]
    cases full with
    | true =>
      have hzero : total - (firsts SelectionCandidate.scope ordered (scopesOf ordered)).length = 0 := by
        rw [hlen, hfull.1 rfl, Nat.sub_self]
      show _ = _ ++ _
      rw [hzero, List.take_zero, List.append_nil]
    | false =>
      have hne : (scopesOf ordered).length ≠ total := fun h => Bool.false_ne_true (hfull.2 h)
      exact fill_eq hnd (by omega)
  · rw [if_neg (by omega), if_neg hshare]
    exact fill_eq hnd (by simpa using htotal)

theorem fair_selectRanked_iff (hnd : ordered.Nodup) (hroom : share * (scopesOf ordered).length ≤ total) :
    Fair SelectionCandidate.scope ordered total share (ahead ordered (selectedAhead ordered share) total) ↔
      ∀ c ∈ ordered, 0 < rankIn SelectionCandidate.scope ordered c → rankIn SelectionCandidate.scope ordered c < share →
        ((before ordered c).countP fun d => 0 < rankIn SelectionCandidate.scope ordered d) <
          total - (scopesOf ordered).length := by
  unfold selectedAhead
  by_cases hshare : 0 < share
  · rw [if_pos hshare]
    exact fair_firsts_iff hnd nodup_sortedSet (fun s => mem_scopesOf) hshare
      ((Nat.le_mul_of_pos_left _ hshare).trans hroom)
  · have hzero : share = 0 := by omega
    subst hzero
    rw [if_neg hshare]
    refine iff_of_true ?_ fun c _ _ h => absurd h (Nat.not_lt_zero _)
    refine (fair_ahead hnd List.nodup_nil (fun _ h => by cases h) (fun _ h => by cases h) (Nat.zero_le _)).2 fun s => ?_
    rw [Nat.zero_min]
    exact Nat.zero_le _

/-- With no room at all there is nothing to guarantee. -/
theorem ahead_zero (hroom : share * (scopesOf ordered).length ≤ 0) :
    ahead ordered (selectedAhead ordered share) 0 = [] := by
  have hnone : selectedAhead ordered share = [] := by
    unfold selectedAhead
    split_ifs with hshare
    · have hscopes : scopesOf ordered = [] := by
        rcases Nat.mul_eq_zero.1 (Nat.le_zero.1 hroom) with h | h
        · omega
        · exact List.length_eq_zero_iff.1 h
      rw [hscopes]
      rfl
    · rfl
  rw [hnone, ahead, List.nil_append, Nat.zero_sub, List.take_zero]

end

section
variable {values ordered : List SelectionCandidate} {total : Int}

theorem selectRanked_subset (perScope : Int) {c : SelectionCandidate} (h : c ∈ selectRanked total perScope ordered) :
    c ∈ ordered := by
  have hpass := @guarantee_subset _ _ _ _ SelectionCandidate.scope total ordered c
    (sortedSet (ordered.map SelectionCandidate.scope)) []
  unfold selectRanked at h
  split_ifs at h
  · dsimp only at h
    split at h
    all_goals rename_i picked heq
    · rw [heq] at hpass
      exact (hpass h).elim (fun h => absurd h List.not_mem_nil) id
    · rw [heq] at hpass
      refine (fill_subset total h).elim (fun h => (hpass h).elim (fun h => absurd h List.not_mem_nil) id) id
  · exact (fill_subset total h).elim (fun h => absurd h List.not_mem_nil) id

/-- Where paths can be encoded a selection is made, of entries of its values. -/
theorem selectCandidates_of_encodable (budget : ProjectionBudget) (hpaths : ∀ v ∈ values, Ok (pathBytes v.entry.relativePath)) :
    ∃ selected, selectCandidates values budget = .ok selected ∧ ∀ c ∈ selected, ∃ v ∈ values, v.entry = c.entry := by
  unfold selectCandidates
  cases budget.explicitEntryTotal with
  | requiresCalibration => exact ⟨[], rfl, List.forall_mem_nil _⟩
  | count total =>
    obtain ⟨candidates, hcandidates⟩ := ok_coalesceCandidates.2 hpaths
    obtain ⟨ordered, hordered, hperm⟩ := ranked_of_coalesced hcandidates
    dsimp only
    rw [hcandidates, ok_bind_ok]
    split_ifs
    · exact ⟨[], rfl, List.forall_mem_nil _⟩
    · rw [hordered, ok_bind_ok]
      refine ⟨_, rfl, fun c hc => ?_⟩
      exact (coalesced_coalesceCandidates hcandidates).entries c (hperm.mem_iff.1 (selectRanked_subset _ hc))

end

/-- Selection is fair, whatever the guarantee, exactly when the promised candidates rank early
enough: the guarantee pass stops after the first candidate of each scope. -/
theorem selectCandidates_fair_iff (values : List SelectionCandidate) (budget : ProjectionBudget)
    (hbudget : validateBudget false budget = .ok ())
    (hroom : budget.scopeMinimumGuarantee.toNat * (scopesOf values).length ≤ budget.explicitEntryTotal.toNat) :
    FairlySelects values budget ↔ PromisesRankEarly values budget := by
  have htotal : budget.explicitEntryTotal = .count budget.explicitEntryTotal.toNat :=
    eq_count_of_validateBudget hbudget (by simp [ProjectionBudget.values])
  have hshare : budget.scopeMinimumGuarantee = .count budget.scopeMinimumGuarantee.toNat :=
    eq_count_of_validateBudget hbudget (by simp [ProjectionBudget.values])
  generalize hT : budget.explicitEntryTotal.toNat = total at *
  generalize hS : budget.scopeMinimumGuarantee.toNat = share at *
  by_cases hpaths : ∀ v ∈ values, Ok (pathBytes v.entry.relativePath)
  · obtain ⟨candidates, hcandidates⟩ := ok_coalesceCandidates.2 hpaths
    obtain ⟨ordered, hordered, hperm⟩ := ranked_of_coalesced hcandidates
    have hcoalesced := coalesced_coalesceCandidates hcandidates
    have hranked : rankedCandidates values = .ok ordered := by
      rw [rankedCandidates, hcandidates]
      exact hordered
    have hnd : ordered.Nodup := hperm.nodup_iff.2 hcoalesced.once
    have hscopes : scopesOf ordered = scopesOf values := by
      refine sortedSet_congr fun s => ?_
      rw [List.mem_map, List.mem_map, ← hcoalesced.mem_scopes]
      exact exists_congr fun c => and_congr_left fun _ => hperm.mem_iff
    have hselect : selectCandidates values budget = .ok (ahead ordered (selectedAhead ordered share) total) := by
      unfold selectCandidates
      rw [htotal, hshare]
      show (do let candidates ← coalesceCandidates values; _) = _
      rw [hcandidates, ok_bind_ok]
      by_cases hzero : total = 0
      · rw [if_pos (by omega), hzero, ahead_zero (by rw [hscopes]; omega)]
        rfl
      · rw [if_neg (by omega), hordered, ok_bind_ok]
        exact congrArg Except.ok (selectRanked_eq hnd (by omega) (by rwa [hscopes]))
    have hfair := fair_selectRanked_iff hnd (by rwa [hscopes] : share * (scopesOf ordered).length ≤ total)
    rw [hscopes] at hfair
    constructor
    · rintro ⟨ordered', selected, hranked', hselect', hfair', -⟩
      cases hranked.symm.trans hranked'
      cases hselect.symm.trans hselect'
      rw [hT, hS] at hfair'
      refine ⟨hpaths, fun ordered' hranked' => ?_⟩
      cases hranked.symm.trans hranked'
      rw [hT, hS]
      exact hfair.1 hfair'
    · intro h
      have hearly := h.early ordered hranked
      rw [hT, hS] at hearly
      refine ⟨ordered, _, hranked, hselect, ?_, fun c hc => ?_⟩
      · rw [hT, hS]
        exact hfair.2 hearly
      · exact hcoalesced.entries c (hperm.mem_iff.1 ((hfair.2 hearly).subset c hc))
  · refine iff_of_false ?_ fun h => hpaths h.paths
    rintro ⟨ordered, -, hranked, -⟩
    obtain ⟨candidates, hcandidates, -⟩ := bind_eq_ok.1 hranked
    exact hpaths (ok_coalesceCandidates.1 ⟨candidates, hcandidates⟩)

/-- A candidate of a file. -/
def candidateAt (scopeId path : String) (reason : SelectionReason) : SelectionCandidate :=
  ⟨⟨txt "s", txt scopeId, txt path, .regularFile, some 1, some 2, none, none, none, some 3, none, none, none, none,
    none, true, true, false, .observed, none, none, false, none⟩, [reason], [], false⟩

/-- Two anchors of one scope and three files of unknown size of another. -/
def crowded : List SelectionCandidate :=
  [candidateAt "a" "1" .structureAnchor, candidateAt "a" "2" .structureAnchor,
    candidateAt "b" "1" .unknownSize, candidateAt "b" "2" .unknownSize, candidateAt "b" "3" .unknownSize]

/-- Four entries in all, two of them for each scope. -/
def twoEach : ProjectionBudget where
  explicitEntryTotal := .count 4
  hierarchyNodeTotal := .count 8
  trackingItemTotal := .count 0
  relationComponentTotal := .count 2
  duplicateAliasComponentTotal := .count 2
  membersPerComponent := .count 1
  scopeMinimumGuarantee := .count 2
  priorityQuotas := []
  serializedBytesSoft := .count 1000

theorem selectCandidates_fair_crowded : FairlySelects crowded twoEach ↔ PromisesRankEarly crowded twoEach :=
  selectCandidates_fair_iff crowded twoEach (by decide) (by decide)

/-- The scope of the anchors gets one of its two. -/
theorem crowded_unfair : validateBudget false twoEach = .ok () ∧
    twoEach.scopeMinimumGuarantee.toNat * (scopesOf crowded).length ≤ twoEach.explicitEntryTotal.toNat ∧
    ¬ FairlySelects crowded twoEach := by
  refine ⟨by decide, by decide, ?_⟩
  rintro ⟨ordered, selected, hordered, hselected, hfair, -⟩
  have hranked : rankedCandidates crowded = .ok [candidateAt "b" "1" .unknownSize, candidateAt "b" "2" .unknownSize,
      candidateAt "b" "3" .unknownSize, candidateAt "a" "1" .structureAnchor, candidateAt "a" "2" .structureAnchor] := by
    decide
  have hselects : selectCandidates crowded twoEach = .ok [candidateAt "a" "1" .structureAnchor,
      candidateAt "b" "1" .unknownSize, candidateAt "b" "2" .unknownSize, candidateAt "b" "3" .unknownSize] := by
    decide
  cases hranked.symm.trans hordered
  cases hselects.symm.trans hselected
  have hshare := hfair.guaranteed (txt "a")
  revert hshare
  decide

end Steward.Projection
