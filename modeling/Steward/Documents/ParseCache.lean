import Steward.Py.SizedDict

/-!
# The parse cache

`BoundedDocumentParseCache` of `document_execution.py`, at the granularity of its
lock: callers look a key up, compute, insert and release in critical sections of
their own, in any order and at any times. `cacheLaw_of_reaches` says what holds
after every run.
-/

namespace Steward.Documents

open Py

structure CacheEntry (V τ : Type) where
  value : V
  sizeBytes : Int
  expiresAt : τ

/-- The bounds that the constructor accepts. -/
structure CacheBounds (τ : Type) [LinearOrder τ] [Zero τ] where
  maxEntries : Nat
  maxBytes : Int
  ttlSeconds : τ
  entries_pos : 1 ≤ maxEntries
  bytes_pos : 1 ≤ maxBytes
  ttl_pos : 0 < ttlSeconds

/-- The entries with `_total_bytes`, `_inflight` with an event a key, and the events that are made and set.
`computed` records what the computations returned. -/
structure ParseCache (K V τ : Type) where
  stored : SizedDict K (CacheEntry V τ)
  inflight : List (K × Nat)
  created : Nat
  fired : List Nat
  computed : List (K × V)

/-- Where a caller of `get_or_compute` is. -/
inductive Caller (K V τ : Type) where
  | entering (key : K)
  | waiting (key : K) (event : Nat)
  | computing (key : K) (event : Nat)
  | inserting (key : K) (event : Nat) (value : V) (sizeBytes : Int)
  /-- At the `finally`, with the value to return or an exception. -/
  | releasing (key : K) (event : Nat) (value : Option V)
  /-- Returned `(value, "HIT")`, found at this time. -/
  | hit (key : K) (entry : CacheEntry V τ) (now : τ)
  /-- Returned `(value, "MISS")`. -/
  | miss (key : K) (value : V)
  | raised (key : K)

/-- What a caller does next. The clock says any time, the computation returns any value or raises (as
`cacheable` and `size_of` may). -/
inductive CacheAction (V τ : Type) where
  | look (now : τ)
  | wake
  | compute (value : V) (cacheable : Bool) (sizeBytes : Int)
  | fail
  | store (now : τ)
  | release

section
variable {K V τ : Type} [DecidableEq K] [LinearOrder τ] [Zero τ] [Add τ]

/-- `_expire_locked` -/
def ParseCache.expireLocked (cache : ParseCache K V τ) (now : τ) : ParseCache K V τ :=
  let expired := (cache.stored.entries.filter fun entry => entry.2.expiresAt ≤ now).map Prod.fst
  { cache with stored := expired.foldl (SizedDict.pop CacheEntry.sizeBytes) cache.stored }

/-- `_insert_locked`; `none` for the `KeyError` of an empty dictionary. -/
def ParseCache.insertLocked (bounds : CacheBounds τ) (cache : ParseCache K V τ) (key : K) (value : V) (sizeBytes : Int)
    (now : τ) : Option (ParseCache K V τ) :=
  (cache.stored.insert CacheEntry.sizeBytes bounds.maxEntries bounds.maxBytes key
    ⟨value, sizeBytes, now + bounds.ttlSeconds⟩).map fun stored => { cache with stored }

def ParseCache.touch (cache : ParseCache K V τ) (key : K) : ParseCache K V τ :=
  { cache with stored := { cache.stored with entries := moveToEnd cache.stored.entries key } }

/-- `clear` -/
def ParseCache.clear (cache : ParseCache K V τ) : ParseCache K V τ := { cache with stored := ⟨[], 0⟩ }

/-- `get_existing`, what it leaves. -/
def ParseCache.getExisting (cache : ParseCache K V τ) (key : K) (now : τ) : ParseCache K V τ :=
  (cache.expireLocked now).touch key

/-- The first critical section of a turn of the loop. -/
def ParseCache.look (cache : ParseCache K V τ) (key : K) (now : τ) : ParseCache K V τ × Caller K V τ :=
  let cache := cache.expireLocked now
  match dictGet cache.stored.entries key with
  | some entry => (cache.touch key, .hit key entry now)
  | none =>
    match dictGet cache.inflight key with
    | none =>
      ({ cache with inflight := cache.inflight ++ [(key, cache.created)], created := cache.created + 1 },
        .computing key cache.created)
    | some event => (cache, .waiting key event)

/-- The critical section of the `finally`. -/
def ParseCache.release (cache : ParseCache K V τ) (key : K) : ParseCache K V τ :=
  match dictGet cache.inflight key with
  | some completed => { cache with inflight := dictPop cache.inflight key, fired := completed :: cache.fired }
  | none => cache

/-- The value and the exception of a caller that leaves the `finally`. -/
def Caller.leave (key : K) : Option V → Caller K V τ
  | some value => .miss key value
  | none => .raised key

/-- A step of a caller, in `get_or_compute`; `none` where it cannot take the action. -/
def Caller.act (bounds : CacheBounds τ) (cache : ParseCache K V τ) :
    Caller K V τ → CacheAction V τ → Option (ParseCache K V τ × Caller K V τ)
  | .entering key, .look now => some (cache.look key now)
  | .waiting key event, .wake => if event ∈ cache.fired then some (cache, .entering key) else none
  | .computing key event, .compute value cacheable sizeBytes =>
    let cache := { cache with computed := (key, value) :: cache.computed }
    if cacheable ∧ 0 ≤ sizeBytes ∧ sizeBytes ≤ bounds.maxBytes then some (cache, .inserting key event value sizeBytes)
    else some (cache, .releasing key event (some value))
  | .computing key event, .fail => some (cache, .releasing key event none)
  | .inserting key event value sizeBytes, .store now =>
    (cache.insertLocked bounds key value sizeBytes now).map fun cache => (cache, .releasing key event (some value))
  | .releasing key _ value, .release => some (cache.release key, .leave key value)
  | _, _ => none

structure CacheSystem (K V τ : Type) where
  cache : ParseCache K V τ
  callers : List (Caller K V τ)

def CacheSystem.start : CacheSystem K V τ := ⟨⟨⟨[], 0⟩, [], 0, [], []⟩, []⟩

/-- A call begins, a caller acts, or the cache is cleared or read by `get_existing`. -/
inductive CacheStep (bounds : CacheBounds τ) : CacheSystem K V τ → CacheSystem K V τ → Prop where
  | call (s : CacheSystem K V τ) (key : K) : CacheStep bounds s ⟨s.cache, s.callers ++ [.entering key]⟩
  | act {cache cache' : ParseCache K V τ} {caller caller' : Caller K V τ} (before after : List (Caller K V τ))
      (action : CacheAction V τ) (h : caller.act bounds cache action = some (cache', caller')) :
      CacheStep bounds ⟨cache, before ++ caller :: after⟩ ⟨cache', before ++ caller' :: after⟩
  | clear (s : CacheSystem K V τ) : CacheStep bounds s ⟨s.cache.clear, s.callers⟩
  | existing (s : CacheSystem K V τ) (key : K) (now : τ) :
      CacheStep bounds s ⟨s.cache.getExisting key now, s.callers⟩

/-- The states of all runs. -/
def CacheReaches (bounds : CacheBounds τ) : CacheSystem K V τ → Prop :=
  Relation.ReflTransGen (CacheStep bounds) .start

end

/-! ## The entries -/

section
variable {K V τ : Type} [LinearOrder τ] [Zero τ]

/-- The entries are within the bounds, and each holds a value that was computed for its key. -/
structure StoreInvariant (bounds : CacheBounds τ) (computed : List (K × V))
    (stored : SizedDict K (CacheEntry V τ)) : Prop where
  accounted : SizedDict.Accounted CacheEntry.sizeBytes stored
  count : stored.entries.length ≤ bounds.maxEntries
  total : stored.totalBytes ≤ bounds.maxBytes
  provenance : ∀ entry ∈ stored.entries, (entry.1, entry.2.value) ∈ computed

variable {bounds : CacheBounds τ} {cache : ParseCache K V τ} {computed : List (K × V)}
  {stored : SizedDict K (CacheEntry V τ)}

theorem StoreInvariant.empty : StoreInvariant bounds computed (⟨[], 0⟩ : SizedDict K (CacheEntry V τ)) :=
  ⟨SizedDict.accounted_empty, Nat.zero_le _, Int.le_of_lt bounds.bytes_pos, nofun⟩

theorem StoreInvariant.mono (h : StoreInvariant bounds computed stored) {computed' : List (K × V)}
    (hsub : computed ⊆ computed') : StoreInvariant bounds computed' stored :=
  ⟨h.accounted, h.count, h.total, fun entry hentry => hsub (h.provenance entry hentry)⟩

variable [DecidableEq K]

theorem StoreInvariant.pop (h : StoreInvariant bounds computed stored) (key : K) :
    StoreInvariant bounds computed (stored.pop CacheEntry.sizeBytes key) :=
  ⟨h.accounted.pop key, Nat.le_trans (SizedDict.length_pop_le _ _) h.count,
    Int.le_trans (h.accounted.total_le_pop key) h.total,
    fun entry hentry => h.provenance entry (SizedDict.mem_pop.1 hentry).1⟩

theorem StoreInvariant.pops (h : StoreInvariant bounds computed stored) (keys : List K) :
    StoreInvariant bounds computed (keys.foldl (SizedDict.pop CacheEntry.sizeBytes) stored) := by
  induction keys generalizing stored with
  | nil => exact h
  | cons key keys ih => exact ih (h.pop key)

omit [LinearOrder τ] [Zero τ] in
theorem mem_pops {keys : List K} {entry : K × CacheEntry V τ}
    (h : entry ∈ (keys.foldl (SizedDict.pop CacheEntry.sizeBytes) stored).entries) :
    entry ∈ stored.entries ∧ entry.1 ∉ keys := by
  induction keys generalizing stored with
  | nil => exact ⟨h, List.not_mem_nil⟩
  | cons key keys ih =>
    obtain ⟨hpop, hkeys⟩ := ih h
    obtain ⟨hmem, hne⟩ := SizedDict.mem_pop.1 hpop
    exact ⟨hmem, fun hin => (List.mem_cons.1 hin).elim hne hkeys⟩

theorem StoreInvariant.expire (h : StoreInvariant bounds cache.computed cache.stored) (now : τ) :
    StoreInvariant bounds cache.computed (cache.expireLocked now).stored := h.pops _

omit [Zero τ] in
/-- Only entries that live on are left. -/
theorem mem_expireLocked {now : τ} {entry : K × CacheEntry V τ} (h : entry ∈ (cache.expireLocked now).stored.entries) :
    now < entry.2.expiresAt := by
  obtain ⟨hmem, hlive⟩ := mem_pops h
  by_contra hexpired
  exact hlive (List.mem_map.2 ⟨entry, List.mem_filter.2 ⟨hmem, decide_eq_true (not_lt.1 hexpired)⟩, rfl⟩)

theorem StoreInvariant.touch (h : StoreInvariant bounds computed stored) (key : K) :
    StoreInvariant bounds computed { stored with entries := moveToEnd stored.entries key } := by
  have hperm := moveToEnd_perm (k := key) h.accounted.nodup
  refine ⟨⟨(hperm.map Prod.fst).nodup_iff.2 h.accounted.nodup, ?_, fun entry hentry =>
    h.accounted.sizes entry (hperm.mem_iff.1 hentry)⟩, ?_, h.total, fun entry hentry =>
    h.provenance entry (hperm.mem_iff.1 hentry)⟩
  · exact h.accounted.total_eq.trans (hperm.map fun entry => entry.2.sizeBytes).sum_eq.symm
  · exact Nat.le_trans (Nat.le_of_eq hperm.length_eq) h.count

variable [Add τ]

/-- An insertion of what fits succeeds, and the entry is there afterwards. -/
theorem StoreInvariant.insertLocked (h : StoreInvariant bounds cache.computed cache.stored) {key : K} {value : V}
    {sizeBytes : Int} (hvalue : (key, value) ∈ cache.computed) (hsize : 0 ≤ sizeBytes ∧ sizeBytes ≤ bounds.maxBytes)
    (now : τ) : ∃ stored, cache.insertLocked bounds key value sizeBytes now = some { cache with stored } ∧
      StoreInvariant bounds cache.computed stored ∧
      dictGet stored.entries key = some ⟨value, sizeBytes, now + bounds.ttlSeconds⟩ := by
  obtain ⟨stored, hinsert, haccounted, hcount, htotal, hmem, hrest⟩ :=
    h.accounted.insert (k := key) (e := ⟨value, sizeBytes, now + bounds.ttlSeconds⟩) bounds.entries_pos hsize.1 hsize.2
  refine ⟨stored, ?_, ⟨haccounted, hcount, htotal, fun entry hentry => ?_⟩, dictGet_of_mem haccounted.nodup hmem⟩
  · unfold ParseCache.insertLocked
    rw [hinsert]
    rfl
  · rcases hrest entry hentry with rfl | hold
    · exact hvalue
    · exact h.provenance entry hold

end

/-! ## The callers -/

section
variable {K V τ : Type} [LinearOrder τ] [Zero τ] {bounds : CacheBounds τ} {cache cache' : ParseCache K V τ}
  {caller caller' : Caller K V τ}

/-- The key and the event that a caller holds in flight. -/
def Caller.owner : Caller K V τ → Option (K × Nat)
  | .computing key event => some (key, event)
  | .inserting key event _ _ => some (key, event)
  | .releasing key event _ => some (key, event)
  | _ => none

/-- What a caller relies on. -/
def Caller.Holds (bounds : CacheBounds τ) (cache : ParseCache K V τ) : Caller K V τ → Prop
  | .waiting key event => event ∈ cache.fired ∨ (key, event) ∈ cache.inflight
  | .inserting key _ value sizeBytes => (key, value) ∈ cache.computed ∧ 0 ≤ sizeBytes ∧ sizeBytes ≤ bounds.maxBytes
  | .releasing key _ (some value) => (key, value) ∈ cache.computed
  | .hit key entry now => (key, entry.value) ∈ cache.computed ∧ now < entry.expiresAt
  | .miss key value => (key, value) ∈ cache.computed
  | _ => True

/-- Nothing that a caller relies on is lost. -/
structure CacheGrows (cache cache' : ParseCache K V τ) : Prop where
  computed : cache.computed ⊆ cache'.computed
  fired : cache.fired ⊆ cache'.fired
  inflight : ∀ flight ∈ cache.inflight, flight ∈ cache'.inflight ∨ flight.2 ∈ cache'.fired

theorem Caller.Holds.grow (h : caller.Holds bounds cache) (hgrows : CacheGrows cache cache') :
    caller.Holds bounds cache' := by
  cases caller with
  | waiting key event =>
    rcases h with hfired | hflight
    · exact .inl (hgrows.fired hfired)
    · exact (hgrows.inflight _ hflight).symm
  | inserting key event value sizeBytes => exact ⟨hgrows.computed h.1, h.2⟩
  | releasing key event value =>
    cases value with
    | none => trivial
    | some value => exact hgrows.computed h
  | hit key entry now => exact ⟨hgrows.computed h.1, h.2⟩
  | miss key value => exact hgrows.computed h
  | _ => trivial

omit [LinearOrder τ] [Zero τ] in
theorem CacheGrows.of_eq (hcomputed : cache'.computed = cache.computed) (hfired : cache'.fired = cache.fired)
    (hinflight : cache'.inflight = cache.inflight) : CacheGrows cache cache' where
  computed := by rw [hcomputed]; exact List.Subset.refl _
  fired := by rw [hfired]; exact List.Subset.refl _
  inflight flight hflight := .inl (by rw [hinflight]; exact hflight)

variable [DecidableEq K]

/-- How a step changes what is in flight: not at all, by a flight of the caller, or by its end. -/
inductive Flights (inflight : List (K × Nat)) : Option (K × Nat) → Option (K × Nat) → List (K × Nat) → Prop
  | same (owner : Option (K × Nat)) : Flights inflight owner owner inflight
  | starts {key : K} (event : Nat) (h : key ∉ inflight.map Prod.fst) :
      Flights inflight none (some (key, event)) (inflight ++ [(key, event)])
  | ends (key : K) (event : Nat) : Flights inflight (some (key, event)) none (dictPop inflight key)

/-- What a step of a caller keeps. -/
structure Kept (bounds : CacheBounds τ) (cache cache' : ParseCache K V τ) (caller caller' : Caller K V τ) : Prop where
  store : StoreInvariant bounds cache'.computed cache'.stored
  grows : CacheGrows cache cache'
  holds : caller'.Holds bounds cache'
  flights : Flights cache.inflight caller.owner caller'.owner cache'.inflight

theorem look_kept (hstore : StoreInvariant bounds cache.computed cache.stored) (key : K) (now : τ) :
    Kept bounds cache (cache.look key now).1 (.entering key) (cache.look key now).2 := by
  have hexpired := hstore.expire now
  unfold ParseCache.look
  dsimp only
  cases hget : dictGet (cache.expireLocked now).stored.entries key with
  | some entry =>
    have hmem := mem_of_dictGet hget
    dsimp only
    exact ⟨hexpired.touch key, .of_eq rfl rfl rfl, ⟨hexpired.provenance _ hmem, mem_expireLocked hmem⟩, .same none⟩
  | none =>
    dsimp only
    cases hflight : dictGet (cache.expireLocked now).inflight key with
    | none =>
      refine ⟨hexpired, ⟨List.Subset.refl _, List.Subset.refl _, fun flight h => ?_⟩, trivial, ?_⟩
      · exact .inl (List.mem_append_left _ h)
      · exact .starts _ (dictGet_eq_none.1 hflight)
    | some event => exact ⟨hexpired, .of_eq rfl rfl rfl, .inr (mem_of_dictGet hflight), .same none⟩

/-- The event that is set is the one of the caller. -/
theorem release_kept (hstore : StoreInvariant bounds cache.computed cache.stored)
    (hnodup : (cache.inflight.map Prod.fst).Nodup) {key : K} {event : Nat} (hflight : (key, event) ∈ cache.inflight)
    {value : Option V} (hholds : (Caller.releasing key event value : Caller K V τ).Holds bounds cache) :
    Kept bounds cache (cache.release key) (.releasing key event value) (Caller.leave key value) ∧
      event ∈ (cache.release key).fired := by
  have hrelease : cache.release key =
      { cache with inflight := dictPop cache.inflight key, fired := event :: cache.fired } := by
    unfold ParseCache.release
    rw [dictGet_of_mem hnodup hflight]
  rw [hrelease]
  refine ⟨⟨hstore, ⟨List.Subset.refl _, List.subset_cons_self _ _, fun flight h => ?_⟩, ?_, ?_⟩, List.mem_cons_self⟩
  · by_cases hkey : flight.1 = key
    · have hevent : flight.2 = event := eq_of_mem_nodup hnodup (k := key) (hkey ▸ h) hflight
      exact .inr (hevent ▸ List.mem_cons_self)
    · exact .inl (mem_dictPop.2 ⟨h, hkey⟩)
  · cases value with
    | none => trivial
    | some value => exact hholds
  · cases value with
    | none => exact .ends key event
    | some value => exact .ends key event

variable [Add τ]

theorem act_kept {action : CacheAction V τ} (hstore : StoreInvariant bounds cache.computed cache.stored)
    (hnodup : (cache.inflight.map Prod.fst).Nodup) (hholds : caller.Holds bounds cache)
    (howner : ∀ flight ∈ caller.owner, flight ∈ cache.inflight)
    (h : caller.act bounds cache action = some (cache', caller')) : Kept bounds cache cache' caller caller' := by
  cases caller with
  | entering key =>
    cases action with
    | look now =>
      have hlook : cache.look key now = (cache', caller') := Option.some.inj h
      have hkept := look_kept hstore key now
      rw [hlook] at hkept
      exact hkept
    | _ => cases h
  | waiting key event =>
    cases action with
    | wake =>
      rw [Caller.act] at h
      split_ifs at h with hfired
      cases h
      exact ⟨hstore, .of_eq rfl rfl rfl, trivial, .same none⟩
    | _ => cases h
  | computing key event =>
    cases action with
    | compute value cacheable sizeBytes =>
      rw [Caller.act] at h
      have hsub : cache.computed ⊆ (key, value) :: cache.computed := List.subset_cons_self _ _
      have hgrows : CacheGrows cache { cache with computed := (key, value) :: cache.computed } :=
        ⟨hsub, List.Subset.refl _, fun flight hflight => .inl hflight⟩
      split_ifs at h with hfits
      · cases h
        exact ⟨hstore.mono hsub, hgrows, ⟨List.mem_cons_self, hfits.2⟩, .same _⟩
      · cases h
        exact ⟨hstore.mono hsub, hgrows, List.mem_cons_self, .same _⟩
    | fail =>
      cases h
      exact ⟨hstore, .of_eq rfl rfl rfl, trivial, .same _⟩
    | _ => cases h
  | inserting key event value sizeBytes =>
    cases action with
    | store now =>
      obtain ⟨hvalue, hsize⟩ := hholds
      obtain ⟨stored, hinsert, hstored, -⟩ := hstore.insertLocked hvalue hsize now
      rw [Caller.act, hinsert] at h
      cases h
      exact ⟨hstored, .of_eq rfl rfl rfl, hvalue, .same _⟩
    | _ => cases h
  | releasing key event value =>
    cases action with
    | release =>
      cases h
      exact (release_kept hstore hnodup (howner _ rfl) hholds).1
    | _ => cases h
  | hit key entry now => cases action <;> cases h
  | miss key value => cases action <;> cases h
  | raised key => cases action <;> cases h

/-! ## The invariant of the runs -/

/-- The flights are those that callers own, one a key, and every caller has what it relies on. -/
structure CacheInvariant (bounds : CacheBounds τ) (s : CacheSystem K V τ) : Prop where
  store : StoreInvariant bounds s.cache.computed s.cache.stored
  nodup : (s.cache.inflight.map Prod.fst).Nodup
  owners : (s.callers.filterMap Caller.owner).Perm s.cache.inflight
  holds : ∀ caller ∈ s.callers, caller.Holds bounds s.cache

omit [DecidableEq K] [LinearOrder τ] [Zero τ] [Add τ] in
theorem filterMap_owner_split (before after : List (Caller K V τ)) (caller : Caller K V τ) :
    (before ++ caller :: after).filterMap Caller.owner =
      before.filterMap Caller.owner ++ (caller.owner.toList ++ after.filterMap Caller.owner) := by
  rw [List.filterMap_append, List.filterMap_cons]
  cases caller.owner <;> rfl

omit [Add τ] in
/-- The owners of the flights follow a step. -/
theorem Flights.owners {inflight inflight' : List (K × Nat)} {owner owner' : Option (K × Nat)}
    (h : Flights inflight owner owner' inflight') (hnodup : (inflight.map Prod.fst).Nodup)
    {before after : List (K × Nat)}
    (hperm : (before ++ (owner.toList ++ after)).Perm inflight) :
    (inflight'.map Prod.fst).Nodup ∧ (before ++ (owner'.toList ++ after)).Perm inflight' := by
  cases h with
  | same owner => exact ⟨hnodup, hperm⟩
  | @starts key event hfresh =>
    refine ⟨?_, ?_⟩
    · rw [List.map_append, List.map_singleton, List.nodup_append']
      refine ⟨hnodup, List.nodup_singleton _, fun k hk hkey => hfresh ?_⟩
      have heq : k = key := List.mem_singleton.1 hkey
      rw [← heq]
      exact hk
    · have hmiddle : (before ++ ([(key, event)] ++ after)).Perm ((key, event) :: (before ++ after)) := List.perm_middle
      exact hmiddle.trans ((List.Perm.cons _ hperm).trans (List.perm_append_singleton _ _).symm)
  | ends key event =>
    refine ⟨nodup_dictPop hnodup, ?_⟩
    have hmem : (key, event) ∈ inflight := hperm.mem_iff.1 (by simp)
    have hmiddle : (before ++ ([(key, event)] ++ after)).Perm ((key, event) :: (before ++ after)) := List.perm_middle
    exact (List.perm_cons _).1 (hmiddle.symm.trans (hperm.trans (perm_dictPop hnodup hmem)))

theorem CacheInvariant.step {s s' : CacheSystem K V τ} (h : CacheInvariant bounds s) (hstep : CacheStep bounds s s') :
    CacheInvariant bounds s' := by
  cases hstep with
  | call _ key =>
    refine ⟨h.store, h.nodup, ?_, fun caller hcaller => ?_⟩
    · rw [List.filterMap_append, show [Caller.entering key].filterMap Caller.owner = [] from rfl, List.append_nil]
      exact h.owners
    · rcases List.mem_append.1 hcaller with hcaller | hcaller
      · exact h.holds caller hcaller
      · rw [List.mem_singleton.1 hcaller]
        trivial
  | act before after action hact =>
    rename_i cache cache' caller caller'
    have howners := h.owners
    rw [filterMap_owner_split] at howners
    have hkept := act_kept h.store h.nodup (h.holds caller (by simp)) (fun flight hflight =>
      howners.mem_iff.1 (List.mem_append_right _ (List.mem_append_left _ (Option.mem_toList.2 hflight)))) hact
    obtain ⟨hnodup, hperm⟩ := hkept.flights.owners h.nodup howners
    refine ⟨hkept.store, hnodup, by rw [filterMap_owner_split]; exact hperm, fun other hother => ?_⟩
    rcases List.mem_append.1 hother with hbefore | hother
    · exact (h.holds other (List.mem_append_left _ hbefore)).grow hkept.grows
    · rcases List.mem_cons.1 hother with rfl | hafter
      · exact hkept.holds
      · exact (h.holds other (List.mem_append_right _ (List.mem_cons_of_mem _ hafter))).grow hkept.grows
  | clear =>
    exact ⟨.empty, h.nodup, h.owners, fun caller hcaller => (h.holds caller hcaller).grow (.of_eq rfl rfl rfl)⟩
  | existing _ key now =>
    exact ⟨(h.store.expire now).touch key, h.nodup, h.owners, fun caller hcaller =>
      (h.holds caller hcaller).grow (.of_eq rfl rfl rfl)⟩

theorem cacheInvariant_of_reaches {s : CacheSystem K V τ} (h : CacheReaches bounds s) : CacheInvariant bounds s := by
  induction h with
  | refl => exact ⟨.empty, .nil, .nil, nofun⟩
  | tail _ hstep ih => exact ih.step hstep

/-! ## The law -/

def Caller.computes (key : K) : Caller K V τ → Bool
  | .computing key' _ => key' = key
  | _ => false

omit [LinearOrder τ] [Zero τ] [Add τ] in
theorem countP_computes_le (key : K) (callers : List (Caller K V τ)) :
    callers.countP (Caller.computes key) ≤ ((callers.filterMap Caller.owner).map Prod.fst).count key := by
  induction callers with
  | nil => exact Nat.le_refl _
  | cons caller callers ih =>
    rw [List.countP_cons]
    by_cases hcomputes : caller.computes key = true
    · obtain ⟨event, rfl⟩ : ∃ event, caller = .computing key event := by
        cases caller with
        | computing key' event => exact ⟨event, by rw [of_decide_eq_true hcomputes]⟩
        | _ => cases hcomputes
      have howner : (.computing key event : Caller K V τ).owner = some (key, event) := rfl
      rw [if_pos hcomputes, List.filterMap_cons_some howner, List.map_cons, List.count_cons_self]
      exact Nat.succ_le_succ ih
    · rw [if_neg hcomputes, Nat.add_zero]
      refine Nat.le_trans ih (List.Sublist.count_le key (List.Sublist.map Prod.fst ?_))
      exact (List.sublist_cons_self caller callers).filterMap _

/-- What holds of the cache and its callers after every run. -/
structure CacheLaw (bounds : CacheBounds τ) (s : CacheSystem K V τ) : Prop where
  count : s.cache.stored.entries.length ≤ bounds.maxEntries
  total_eq : s.cache.stored.totalBytes = (s.cache.stored.entries.map fun entry => entry.2.sizeBytes).sum
  total_le : s.cache.stored.totalBytes ≤ bounds.maxBytes
  single : ∀ key, s.callers.countP (Caller.computes key) ≤ 1
  /-- An insertion does not fail, and the entry is there afterwards. -/
  inserted : ∀ key event value sizeBytes now, .inserting key event value sizeBytes ∈ s.callers →
    ∃ cache, s.cache.insertLocked bounds key value sizeBytes now = some cache ∧
      dictGet cache.stored.entries key = some ⟨value, sizeBytes, now + bounds.ttlSeconds⟩
  hits : ∀ key entry now, .hit key entry now ∈ s.callers →
    (key, entry.value) ∈ s.cache.computed ∧ now < entry.expiresAt
  misses : ∀ key value, .miss key value ∈ s.callers → (key, value) ∈ s.cache.computed
  /-- The event of a waiter is set, or a caller holds it in flight. -/
  waiters : ∀ key event, .waiting key event ∈ s.callers →
    event ∈ s.cache.fired ∨ ∃ caller ∈ s.callers, caller.owner = some (key, event)
  /-- A computation that has returned or raised sets the event of its waiters as it leaves. -/
  released : ∀ key event value, .releasing key event value ∈ s.callers → event ∈ (s.cache.release key).fired

theorem cacheLaw_of_reaches {s : CacheSystem K V τ} (h : CacheReaches bounds s) : CacheLaw bounds s := by
  have hinv := cacheInvariant_of_reaches h
  have howned : ∀ caller ∈ s.callers, ∀ flight, caller.owner = some flight → flight ∈ s.cache.inflight :=
    fun caller hcaller flight hflight => hinv.owners.mem_iff.1 (List.mem_filterMap.2 ⟨caller, hcaller, hflight⟩)
  refine ⟨hinv.store.count, hinv.store.accounted.total_eq, hinv.store.total, fun key => ?_,
    fun key event value sizeBytes now hcaller => ?_, fun key entry now hcaller => hinv.holds _ hcaller,
    fun key value hcaller => hinv.holds _ hcaller, fun key event hcaller => ?_, fun key event value hcaller => ?_⟩
  · have hkeys : ((s.callers.filterMap Caller.owner).map Prod.fst).Nodup :=
      (hinv.owners.map Prod.fst).nodup_iff.2 hinv.nodup
    exact Nat.le_trans (countP_computes_le key s.callers) (List.nodup_iff_count_le_one.1 hkeys key)
  · obtain ⟨hvalue, hsize⟩ := hinv.holds _ hcaller
    obtain ⟨stored, hinsert, -, hget⟩ := hinv.store.insertLocked hvalue hsize now
    exact ⟨_, hinsert, hget⟩
  · refine (hinv.holds _ hcaller).imp id fun hflight => ?_
    obtain ⟨caller, hmem, howner⟩ := List.mem_filterMap.1 (hinv.owners.mem_iff.2 hflight)
    exact ⟨caller, hmem, howner⟩
  · exact (release_kept hinv.store hinv.nodup (howned _ hcaller _ rfl) (hinv.holds _ hcaller)).2

end

def flightBounds : CacheBounds Int := ⟨2, 10, 5, by decide, by decide, by decide⟩

/-- Two callers of one key, of whom the second waits for the first. -/
def sharedFlight : CacheSystem Nat Nat Int := ⟨⟨⟨[], 0⟩, [(7, 0)], 1, [], []⟩, [.computing 7 0, .waiting 7 0]⟩

theorem sharedFlight_reaches : CacheReaches flightBounds sharedFlight := by
  have hfirst : CacheReaches flightBounds (K := Nat) (V := Nat) ⟨⟨⟨[], 0⟩, [], 0, [], []⟩, [.entering 7]⟩ :=
    .tail .refl (.call _ 7)
  have hsecond := Relation.ReflTransGen.tail hfirst (.call _ 7)
  have howner := Relation.ReflTransGen.tail hsecond (.act [] [.entering 7] (.look 0) rfl)
  exact .tail howner (.act [.computing 7 0] [] (.look 0) rfl)

theorem cacheLaw_sharedFlight : CacheLaw flightBounds sharedFlight := cacheLaw_of_reaches sharedFlight_reaches

end Steward.Documents
