import Mathlib
import Steward.Evidence.Canonical
import Steward.Snapshot.Keys

/-!
# Shared Snapshot computations

`entry_id`, `snapshot_statistics` and the digests of `snapshots.py`, on the raw
documents the validators read.
-/

namespace Steward

open Py Sqlite

variable {F : Type} [SqliteFloat F]

/-- `d.get(k)` for a key of a known record type. -/
def fieldOf {κ : Type} [Named κ] (fs : List (Text × Value F)) (k : κ) : Value F :=
  Value.get fs (Named.name k)

/-- `item[k]` -/
def itemOf {κ : Type} [Named κ] (v : Value F) (k : κ) : Except Py.Error (Value F) :=
  v.item (Named.name k)

/-- A string literal, or an enumeration member's value, as a value. -/
def lit (s : String) : Value F := .str (txt s)

def nameValue {α : Type} [Named α] (a : α) : Value F := .str (Named.name a)

/-- `snapshot_id: str | None` as the value compared with a document field. -/
def optText : Option Text → Value F
  | some s => .str s
  | none => .none

def str? : Value F → Option Text
  | .str s => some s
  | _ => none

def elements : Value F → List (Value F)
  | .list xs => xs
  | _ => []

def members : Value F → List (Text × Value F)
  | .dict fs => fs
  | _ => []

/-! ## Records -/

section record
variable {κ : Type} [Named κ] {ks : List κ} {f : κ → Value F} {k : κ}

section

omit [SqliteFloat F]

theorem fieldOf_record (h : k ∈ ks) : fieldOf (record Named.name ks f) k = f k := by
  rw [fieldOf, Value.get, lookup_record f (fun _ _ _ _ => Named.name_inj) h]; rfl

theorem hasKeys_record {js : List κ} (h : ∀ k, k ∈ js ↔ k ∈ ks) :
    hasKeys (names js) (record Named.name ks f) = true := by
  rw [hasKeys_iff]
  intro t
  simp only [keys_record, names, List.mem_map, h]

theorem without_record [DecidableEq κ] (js : List κ) :
    without (names js) (record Named.name ks f) = record Named.name (ks.filter (· ∉ js)) f := by
  rw [without, record, record, List.filter_map]
  congr 1
  refine List.filter_congr fun k _ => decide_eq_decide.2 (not_congr ?_)
  simp [names]

end

theorem safe_record (h : ∀ k ∈ ks, (f k).safe = true) :
    (Value.dict (record Named.name ks f)).safe = true := by
  rw [Value.safe_dict, keys_record]
  refine ⟨fun t ht => ?_, fun p hp => ?_⟩
  · obtain ⟨k, hk, rfl⟩ := List.mem_map.1 ht
    exact Named.encodable k
  · obtain ⟨k, hk, rfl⟩ := List.mem_map.1 hp
    exact h k hk

end record

/-! ## Entry identity -/

/-- The hashed text of `entry_id`. -/
def entryIdText (snapshotId scopeId relativePath : Text) : Text :=
  snapshotId ++ [ch '\x00'] ++ scopeId ++ [ch '\x00'] ++ relativePath

/-- Frozen deterministic entry identity shared by writer and validator. -/
def entryId (snapshotId scopeId relativePath : Text) : Except Py.Error Text :=
  match (entryIdText snapshotId scopeId relativePath).encode with
  | some bs => .ok (Runtime.sha256 F bs)
  | none => .error .unicodeEncodeError

theorem ok_entryId {a b c : Text} : Ok (entryId (F := F) a b c) ↔
    a.encodable = true ∧ b.encodable = true ∧ c.encodable = true := by
  have h0 : Text.encodable [ch '\x00'] = true := by decide
  have h : (entryIdText a b c).encodable = true ↔
      a.encodable = true ∧ b.encodable = true ∧ c.encodable = true := by
    simp only [entryIdText, Text.encodable_append, h0, and_true, and_assoc]
  rw [entryId, Text.encode]
  split_ifs with hc
  · exact iff_of_true (ok_ok _) (h.1 hc)
  · exact iff_of_false (not_ok_error _) fun hn => hc (h.2 hn)

/-! ## Statistics -/

/-- The values `snapshot_statistics` returns. -/
structure Statistics (F : Type) where
  entryCount : Nat
  observedCount : Nat
  errorCount : Nat
  excludedCount : Value.Num F
  totalRegularFileBytes : Value.Num F
  maxDepthObserved : Nat

/-- The pairs of `snapshot_statistics(entries).items()`. -/
def Statistics.items (s : Statistics F) : List (SnapshotField × Value F) :=
  [(.entryCount, .int s.entryCount), (.observedCount, .int s.observedCount),
    (.errorCount, .int s.errorCount), (.excludedCount, s.excludedCount.toValue),
    (.totalRegularFileBytes, s.totalRegularFileBytes.toValue),
    (.maxDepthObserved, .int s.maxDepthObserved)]

/-- `0 if path == "." else len(path.split("/"))` -/
def depthOf (path : Value F) : Except Py.Error Nat :=
  if path.eq (lit ".") then .ok 0
  else match path with
    | .str s => .ok s.splitLen
    | _ => .error .attributeError

/-- `item["size_bytes"] or 0`, for regular files. -/
def regularSize (item : Value F) : Except Py.Error (Option (Value F)) := do
  let kind ← itemOf item EntryKey.objectType
  if kind.eq (nameValue FilesystemObjectType.regularFile) then
    let size ← itemOf item (EntryKey.field .sizeBytes)
    pure (some (if size.truthy then size else .int 0))
  else pure none

/-- Compute frozen summary values from Entry facts only. -/
def snapshotStatistics (entries : List (Value F)) : Except Py.Error (Statistics F) := do
  let statuses ← entries.mapM (itemOf · EntryKey.observationStatus)
  let observed := statuses.countP (Value.eq · (nameValue FilesystemObservationStatus.observed))
  let excluded ← (← entries.mapM (itemOf · (EntryKey.flag .excluded))) |> Value.sum
  let bytes ← (← entries.mapM regularSize).reduceOption |> Value.sum
  let depths ← entries.mapM fun item => do depthOf (← itemOf item (EntryKey.field .relativePath))
  pure ⟨entries.length, observed, entries.length - observed, excluded, bytes, depths.foldl max 0⟩

/-! ## Digests -/

def snapshotEntriesDigest (entries : List (Value F)) : Result Text := digestOf (.list entries)

/-- The keys left out of the metadata digests. -/
def undigested : List Text :=
  names [SnapshotKey.field .snapshotDigest, .field .evidenceId, .field .evidenceRelativePath, .entries]

def snapshotMetadataDigest (metadata : List (Text × Value F)) : Result Text :=
  digestOf (.dict (without undigested metadata))

/-- `_v2_entry_sort_key` -/
def v2EntrySortKey (item : Value F) : Except Py.Error (Text × List Byte) := do
  let fs ← match item with
    | .dict fs => pure fs
    | _ => throw .attributeError
  let scope := ((lookup fs (Named.name (EntryKey.field .scopeId))).getD (lit "")).pyStr
  let path := ((lookup fs (Named.name (EntryKey.field .relativePath))).getD (lit "")).pyStr
  match path.utf8Escape with
  | some bs => pure (scope, bs)
  | none => throw .unicodeEncodeError

/-- `<=` on the sort keys. -/
def sortKeyLe (a b : Text × List Byte) : Prop := a.1 < b.1 ∨ a.1 = b.1 ∧ a.2 ≤ b.2

instance : DecidableRel sortKeyLe := fun a b =>
  inferInstanceAs (Decidable (a.1 < b.1 ∨ a.1 = b.1 ∧ a.2 ≤ b.2))

/-- Return the frozen scoped-location ordering. -/
def canonicalSnapshotV2Entries (entries : List (Value F)) : Except Py.Error (List (Value F)) := do
  let keyed ← entries.mapM fun item => do pure (← v2EntrySortKey item, item)
  pure ((keyed.insertionSort fun a b => sortKeyLe a.1 b.1).map Prod.snd)

/-- Digest all ordered v2 Entry facts in their separate integrity domain. -/
def snapshotV2EntriesDigest (entries : List (Value F)) : Result Text := do
  let ordered ← py (canonicalSnapshotV2Entries entries)
  digestOf (.dict [(txt "domain", lit "local_steward.snapshot.entries.v2"),
    (txt "snapshot_schema_version", .int 2), (txt "entries", .list ordered)])

/-- Digest v2 Snapshot metadata without repeating Entry/Evidence identity facts. -/
def snapshotV2MetadataDigest (metadata : List (Text × Value F)) : Result Text :=
  digestOf (.dict [(txt "domain", lit "local_steward.snapshot.metadata.v2"),
    (txt "snapshot", .dict (without undigested metadata))])

/-! ## When the statistics are defined -/

def hasKey {κ : Type} [Named κ] (v : Value F) (k : κ) : Bool :=
  match v with
  | .dict fs => (lookup fs (Named.name k)).isSome
  | _ => false

def keyOf {κ : Type} [Named κ] (v : Value F) (k : κ) : Value F := v.getIf (Named.name k)

section

omit [SqliteFloat F]

theorem keyOf_eq_fieldOf {κ : Type} [Named κ] {v : Value F} (k : κ) : keyOf v k = fieldOf (members v) k := by
  cases v <;> rfl

theorem itemOf_eq_ok {κ : Type} [Named κ] {v w : Value F} {k : κ} :
    itemOf v k = .ok w ↔ hasKey v k = true ∧ w = keyOf v k := by
  cases v with
  | dict fs =>
    cases h : lookup fs (Named.name k) <;>
      simp [itemOf, Value.item, hasKey, keyOf, Value.getIf, Value.get, h, eq_comm]
  | _ => exact iff_of_false (by rintro ⟨⟩) (by rintro ⟨⟨⟩, -⟩)

theorem ok_itemOf {κ : Type} [Named κ] {v : Value F} {k : κ} : Ok (itemOf v k) ↔ hasKey v k = true := by
  simp [Ok, itemOf_eq_ok]

end

/-- `object_type == "regular_file"` -/
def isRegularFile (item : Value F) : Bool :=
  (keyOf item EntryKey.objectType).eq (nameValue FilesystemObjectType.regularFile)

/-- An item the statistics can read: the keys are there and the path splits. -/
def Countable (item : Value F) : Bool :=
  hasKey item EntryKey.observationStatus && hasKey item (EntryKey.flag .excluded) &&
    hasKey item EntryKey.objectType &&
    (!isRegularFile item || hasKey item (EntryKey.field .sizeBytes)) &&
    (keyOf item (EntryKey.field .relativePath)).isStr

/-- The size an item contributes. -/
def sizeOf? (item : Value F) : Option (Value F) :=
  if isRegularFile item then
    some (if (keyOf item (EntryKey.field .sizeBytes)).truthy then
      keyOf item (EntryKey.field .sizeBytes) else .int 0)
  else none

def regularSizes (entries : List (Value F)) : List (Value F) := entries.filterMap sizeOf?

def excludedFlags (entries : List (Value F)) : List (Value F) :=
  entries.map (keyOf · (EntryKey.flag .excluded))

def observedCount (entries : List (Value F)) : Nat :=
  entries.countP fun item =>
    (keyOf item EntryKey.observationStatus).eq (nameValue FilesystemObservationStatus.observed)

def pathDepth (path : Value F) : Nat :=
  if path.eq (lit ".") then 0 else ((str? path).getD []).splitLen

def maxDepth (entries : List (Value F)) : Nat :=
  (entries.map fun item => pathDepth (keyOf item (EntryKey.field .relativePath))).foldl max 0

theorem depthOf_eq_ok {path : Value F} {n : Nat} :
    depthOf path = .ok n ↔ path.isStr = true ∧ n = pathDepth path := by
  cases path with
  | str s =>
    rw [depthOf, pathDepth]
    split_ifs <;> simp [Value.isStr, str?, eq_comm]
  | _ =>
    refine iff_of_false ?_ (by rintro ⟨⟨⟩, -⟩)
    unfold depthOf
    rw [if_neg (by simp [lit])]
    rintro ⟨⟩

theorem regularSize_eq_ok {item : Value F} {o : Option (Value F)} :
    regularSize item = .ok o ↔ hasKey item EntryKey.objectType = true ∧
      (isRegularFile item = true → hasKey item (EntryKey.field .sizeBytes) = true) ∧
      o = sizeOf? item := by
  simp only [regularSize, bind_eq_ok, itemOf_eq_ok]
  by_cases hr : isRegularFile item = true
  · have hr' : (keyOf item EntryKey.objectType).eq
        (nameValue FilesystemObjectType.regularFile) = true := hr
    constructor
    · rintro ⟨_, ⟨hk, rfl⟩, h⟩
      rw [if_pos hr', bind_eq_ok] at h
      obtain ⟨w, hw, h⟩ := h
      obtain ⟨hs, rfl⟩ := itemOf_eq_ok.1 hw
      cases h
      exact ⟨hk, fun _ => hs, by rw [sizeOf?, if_pos hr]⟩
    · rintro ⟨hk, hs, rfl⟩
      refine ⟨_, ⟨hk, rfl⟩, ?_⟩
      rw [if_pos hr', sizeOf?, if_pos hr, itemOf_eq_ok.2 ⟨hs hr, rfl⟩]; rfl
  · have hr' : ¬ (keyOf item EntryKey.objectType).eq
        (nameValue FilesystemObjectType.regularFile) = true := hr
    constructor
    · rintro ⟨_, ⟨hk, rfl⟩, h⟩
      rw [if_neg hr'] at h
      cases h
      exact ⟨hk, fun h => absurd h hr, by rw [sizeOf?, if_neg hr]⟩
    · rintro ⟨hk, -, rfl⟩
      exact ⟨_, ⟨hk, rfl⟩, by rw [if_neg hr', sizeOf?, if_neg hr]; rfl⟩

theorem snapshotStatistics_eq_ok {entries : List (Value F)} {s : Statistics F} :
    snapshotStatistics entries = .ok s ↔ (∀ item ∈ entries, Countable item = true) ∧
      ∃ e b, Value.sum (excludedFlags entries) = .ok e ∧ Value.sum (regularSizes entries) = .ok b ∧
        s = ⟨entries.length, observedCount entries, entries.length - observedCount entries, e, b,
          maxDepth entries⟩ := by
  have hitem (k : EntryKey) (xs ys : List (Value F)) : xs.mapM (itemOf · k) = .ok ys ↔
      (∀ x ∈ xs, Ok (itemOf x k)) ∧ ys = xs.map (keyOf · k) :=
    mapM_eq_ok_map fun x y h => (itemOf_eq_ok.1 h).2
  have hsize (xs : List (Value F)) (ys : List (Option (Value F))) : xs.mapM regularSize = .ok ys ↔
      (∀ x ∈ xs, Ok (regularSize x)) ∧ ys = xs.map sizeOf? :=
    mapM_eq_ok_map fun x y h => (regularSize_eq_ok.1 h).2.2
  have hdepth (xs : List (Value F)) (ys : List Nat) :
      xs.mapM (fun item => do depthOf (← itemOf item (EntryKey.field .relativePath))) = .ok ys ↔
        (∀ x ∈ xs, Ok (do depthOf (← itemOf x (EntryKey.field .relativePath)))) ∧
          ys = xs.map fun item => pathDepth (keyOf item (EntryKey.field .relativePath)) :=
    mapM_eq_ok_map fun x y h => by
      obtain ⟨w, hw, h⟩ := bind_eq_ok.1 h
      rw [(depthOf_eq_ok.1 h).2, (itemOf_eq_ok.1 hw).2]
  have hdok (item : Value F) : Ok (do depthOf (← itemOf item (EntryKey.field .relativePath))) ↔
      (keyOf item (EntryKey.field .relativePath)).isStr = true := by
    simp only [Ok, bind_eq_ok, itemOf_eq_ok, depthOf_eq_ok]
    constructor
    · rintro ⟨_, _, ⟨-, rfl⟩, hs, -⟩; exact hs
    · intro hs
      refine ⟨_, _, ⟨?_, rfl⟩, hs, rfl⟩
      cases item with
      | dict fs =>
        cases h : lookup fs (Named.name (EntryKey.field .relativePath)) with
        | none => simp [keyOf, Value.getIf, Value.get, h, Value.isStr] at hs
        | some v => simp [hasKey, h]
      | _ => cases hs
  simp only [snapshotStatistics, bind_eq_ok, hitem, hsize, hdepth]
  constructor
  · rintro ⟨_, ⟨h1, rfl⟩, _, ⟨h2, rfl⟩, e, he, _, ⟨h3, rfl⟩, b, hb, _, ⟨h4, rfl⟩, h⟩
    cases h
    refine ⟨fun item hi => ?_, e, b, he, ?_, ?_⟩
    · obtain ⟨o, ho⟩ := h3 item hi
      obtain ⟨hk, hs, -⟩ := regularSize_eq_ok.1 ho
      simp only [Countable, Bool.and_eq_true, Bool.or_eq_true, Bool.not_eq_true']
      refine ⟨⟨⟨⟨ok_itemOf.1 (h1 item hi), ok_itemOf.1 (h2 item hi)⟩, hk⟩, ?_⟩, (hdok item).1 (h4 item hi)⟩
      cases hr : isRegularFile item with
      | true => exact .inr (hs hr)
      | false => exact .inl rfl
    · rwa [List.reduceOption, List.filterMap_map] at hb
    · simp [observedCount, maxDepth, List.countP_map, Function.comp_def]
  · rintro ⟨hc, e, b, he, hb, rfl⟩
    simp only [Countable, Bool.and_eq_true, Bool.or_eq_true, Bool.not_eq_true'] at hc
    refine ⟨_, ⟨fun i hi => ok_itemOf.2 (hc i hi).1.1.1.1, rfl⟩, _,
      ⟨fun i hi => ok_itemOf.2 (hc i hi).1.1.1.2, rfl⟩, e, he, _,
      ⟨fun i hi => ⟨_, regularSize_eq_ok.2 ⟨(hc i hi).1.1.2, fun hr => ?_, rfl⟩⟩, rfl⟩, b, ?_, _,
      ⟨fun i hi => (hdok i).2 (hc i hi).2, rfl⟩, ?_⟩
    · rcases (hc i hi).1.2 with h | h
      · rw [h] at hr; cases hr
      · exact h
    · rwa [List.reduceOption, List.filterMap_map]
    · simp [observedCount, maxDepth, List.countP_map, Function.comp_def]

/-- `sum` of the values returns. -/
def Summable (vs : List (Value F)) : Prop := Ok (Value.sum vs)

instance (vs : List (Value F)) : Decidable (Summable vs) := inferInstanceAs (Decidable (Ok _))

theorem ok_snapshotStatistics {entries : List (Value F)} : Ok (snapshotStatistics entries) ↔
    (∀ item ∈ entries, Countable item = true) ∧ Summable (excludedFlags entries) ∧
      Summable (regularSizes entries) := by
  simp only [Ok, snapshotStatistics_eq_ok, Summable]
  constructor
  · rintro ⟨_, hc, e, b, he, hb, -⟩; exact ⟨hc, ⟨e, he⟩, ⟨b, hb⟩⟩
  · rintro ⟨hc, ⟨e, he⟩, ⟨b, hb⟩⟩; exact ⟨_, hc, e, b, he, hb, rfl⟩

/-- Integers and booleans add up to an integer. -/
theorem sum_eq_int {vs : List (Value F)} (h : ∀ v ∈ vs, ∃ n, v.num? = some (.int n)) :
    ∃ n, Value.sum vs = .ok (.int n) := by
  have key : ∀ (vs : List (Value F)) (m : Int), (∀ v ∈ vs, ∃ n, v.num? = some (.int n)) →
      ∃ n, vs.foldlM Value.Num.add (.int m) = .ok (.int n) := by
    intro vs
    induction vs with
    | nil => intro m _; exact ⟨m, rfl⟩
    | cons v vs ih =>
      intro m h
      obtain ⟨n, hn⟩ := h v List.mem_cons_self
      have hadd : Value.Num.add (.int m) v = .ok (.int (m + n)) := by simp [Value.Num.add, hn]
      rw [List.foldlM_cons, hadd]
      exact ih (m + n) fun w hw => h w (List.mem_cons_of_mem _ hw)
  exact key vs 0 h

theorem sum_integers {vs : List (Value F)} (h : ∀ v ∈ vs, ∃ n, v.num? = some (.int n)) :
    Summable vs := (sum_eq_int h).imp' _ fun _ h => h

end Steward
