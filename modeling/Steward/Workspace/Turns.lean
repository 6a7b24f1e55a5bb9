import Mathlib.Data.Finset.Card
import Steward.Workspace.TurnState

/-!
# The hooks of one turn

Any number of tool hooks observe their workspace and later, in any order, update
the state file under its lock; stop hooks run between them. The times and the
lists of completed invocations are the model's own, to say what came before what.

Since a stop hook last removed the file, the state holds the tools that
completed invocations have seen: one event each, up to `MAX_EVENTS`.
-/

namespace Steward.Workspace.Hooks

open Py

/-- A tool hook that has observed its workspace and waits for the lock. -/
structure InFlight where
  use : ToolUse
  root : Text
  observed : WorkspaceState
  deriving DecidableEq, Repr

/-- A tool hook whose update was saved, and when. -/
structure Completed where
  use : ToolUse
  observed : WorkspaceState
  time : Nat
  deriving DecidableEq, Repr

def Completed.eventId (c : Completed) : Text := c.use.call.eventId

def Completed.isPre (c : Completed) : Bool := c.use.result.isNone

/-! ## What the state has to say of the completed invocations -/

/-- The number of different tools they saw. -/
def toolCount (log : List Completed) : Nat := (log.map Completed.eventId).toFinset.card

/-- The result of the last post-tool hook of the tool. -/
def latestResult (log : List Completed) (id : Text) : ToolResult :=
  ((log.filter fun c => c.eventId = id).filterMap fun c => c.use.result).getLast?.getD pending

/-- The event of a tool: made by the first invocation, with the latest result. -/
def expectedEvent (log : List Completed) (id : Text) : Option Event :=
  (log.find? fun c => c.eventId = id).map fun c =>
    newEvent c.use.call c.observed.workspaceId (latestResult log id) c.isPre

/-- The first observation of a workspace. -/
def firstObservation (log : List Completed) (workspaceId : Text) : Option WorkspaceState :=
  (log.find? fun c => c.observed.workspaceId = workspaceId).map Completed.observed

/-- The state is what the completed invocations of `log` have made of an empty one,
with the events of `dropped` gone meanwhile. -/
structure Records (log : List Completed) (dropped : List Text) (state : TurnState) : Prop where
  baseline : ∀ id, (lookup state.workspaces id).map WorkspaceRecord.baseline = firstObservation log id
  nodup : (state.events.map Event.eventId).Nodup
  seen : ∀ e ∈ state.events, ∃ c ∈ log, c.eventId = e.eventId
  length : state.events.length = min (toolCount log) maxEvents
  found : ∀ id, id ∉ dropped →
    (state.events.find? fun e => e.eventId = id) = expectedEvent log id
  dropped_eq_nil : toolCount log ≤ maxEvents → dropped = []

/-! ## One update of the events -/

/-- The events before the oldest are dropped. -/
def ToolUse.record (use : ToolUse) (events : List Event) (workspaceId : Text) : List Event :=
  match use.result with
  | none => if hasEvent events use.call.eventId then events
    else events ++ [newEvent use.call workspaceId pending true]
  | some result => if hasEvent events use.call.eventId then recordResult use.call.eventId result events
    else events ++ [newEvent use.call workspaceId result false]

theorem ToolUse.apply_eq (identity : TurnIdentity) (use : ToolUse) (root : Text)
    (observed : WorkspaceState) (file : Option TurnState) :
    use.apply identity root observed file =
      { loadTurnState identity file with
        workspaces := workspaceRecord (loadTurnState identity file).workspaces root observed
        events := truncateEvents
          (use.record (loadTurnState identity file).events observed.workspaceId) } := by
  unfold ToolUse.apply ToolUse.record
  cases use.result <;> rfl

theorem ToolUse.workspaces_apply (identity : TurnIdentity) (use : ToolUse) (root : Text)
    (observed : WorkspaceState) (file : Option TurnState) :
    (use.apply identity root observed file).workspaces =
      workspaceRecord (loadTurnState identity file).workspaces root observed := by
  rw [apply_eq]

theorem ToolUse.events_apply (identity : TurnIdentity) (use : ToolUse) (root : Text)
    (observed : WorkspaceState) (file : Option TurnState) :
    (use.apply identity root observed file).events = truncateEvents
      (use.record (loadTurnState identity file).events observed.workspaceId) := by
  rw [apply_eq]

theorem hasEvent_iff {events : List Event} {id : Text} :
    hasEvent events id = true ↔ id ∈ events.map Event.eventId := by
  simp [hasEvent, List.mem_map]

@[simp] theorem eventId_newEvent (call : ToolCall) (workspaceId : Text) (result : ToolResult)
    (preflight : Bool) : (newEvent call workspaceId result preflight).eventId = call.eventId := rfl

theorem map_eventId_recordResult (id : Text) (result : ToolResult) (events : List Event) :
    (recordResult id result events).map Event.eventId = events.map Event.eventId := by
  induction events with
  | nil => rfl
  | cons e es ih =>
    unfold recordResult
    split_ifs
    · rfl
    · rw [List.map_cons, ih, List.map_cons]

/-- An update adds the tool's id, if it is new. -/
theorem map_eventId_record (use : ToolUse) (events : List Event) (workspaceId : Text) :
    (use.record events workspaceId).map Event.eventId =
      if use.call.eventId ∈ events.map Event.eventId then events.map Event.eventId
      else events.map Event.eventId ++ [use.call.eventId] := by
  unfold ToolUse.record
  simp only [hasEvent_iff]
  cases use.result with
  | none => split_ifs <;> simp
  | some result => split_ifs <;> simp [map_eventId_recordResult]

theorem find_recordResult (id : Text) (result : ToolResult) (events : List Event) (x : Text) :
    ((recordResult id result events).find? fun e => e.eventId = x) =
      (events.find? fun e => e.eventId = x).map fun e =>
        if x = id then { e with result := result } else e := by
  induction events with
  | nil => rfl
  | cons e es ih =>
    unfold recordResult
    by_cases he : e.eventId = id
    · rw [if_pos he]
      by_cases hx : e.eventId = x
      · rw [List.find?_cons_of_pos (by exact decide_eq_true hx),
          List.find?_cons_of_pos (by exact decide_eq_true hx),
          Option.map_some, if_pos (hx.symm.trans he)]
      · have hneg : ¬ decide (e.eventId = x) = true := by simpa using hx
        rw [List.find?_cons_of_neg (by exact hneg), List.find?_cons_of_neg (by exact hneg)]
        have hxid : x ≠ id := fun h => hx (he.trans h.symm)
        simp [hxid]
    · rw [if_neg he]
      by_cases hx : e.eventId = x
      · have hxid : x ≠ id := fun h => he (hx.trans h)
        simp [hx, hxid]
      · simp [hx, ih]

/-- What an invocation makes of the event it finds. -/
def Event.withResult (e : Event) : Option ToolResult → Event
  | some result => { e with result := result }
  | none => e

/-- The event of a tool after an update: the one found, or a new one. -/
theorem find_record (use : ToolUse) (events : List Event) (workspaceId x : Text) :
    ((use.record events workspaceId).find? fun e => e.eventId = x) =
      if use.call.eventId = x then
        some (((events.find? fun e => e.eventId = x).map fun e => e.withResult use.result).getD
          (newEvent use.call workspaceId (use.result.getD pending) use.result.isNone))
      else events.find? fun e => e.eventId = x := by
  have hfind : (events.find? fun e => e.eventId = x).isSome = hasEvent events x := by
    rw [Bool.eq_iff_iff, List.find?_isSome, hasEvent, List.any_eq_true]
  unfold ToolUse.record
  by_cases hx : use.call.eventId = x
  · subst hx
    rw [if_pos rfl]
    cases hh : hasEvent events use.call.eventId with
    | true =>
      rw [hh, Option.isSome_iff_exists] at hfind
      obtain ⟨e, he⟩ := hfind
      cases use.result with
      | none => simp [he, Event.withResult]
      | some result => simp [he, find_recordResult, Event.withResult]
    | false =>
      rw [hh, Option.isSome_eq_false_iff, Option.isNone_iff_eq_none] at hfind
      cases use.result <;> simp [hfind, List.find?_append]
  · rw [if_neg hx]
    cases use.result with
    | none => split_ifs <;> simp [List.find?_append, hx]
    | some result =>
      split_ifs
      · rw [find_recordResult]
        simp [Ne.symm hx]
      · simp [List.find?_append, hx]

/-! ## One more completed invocation -/

theorem toolCount_append (log : List Completed) (c : Completed) :
    toolCount (log ++ [c]) =
      if c.eventId ∈ log.map Completed.eventId then toolCount log else toolCount log + 1 := by
  unfold toolCount
  rw [List.map_append, List.toFinset_append, List.map_singleton]
  split_ifs with h
  · rw [Finset.union_eq_left.2 (by simpa using h)]
  · rw [Finset.card_union_of_disjoint (by simpa using h)]
    simp

theorem latestResult_append (log : List Completed) (c : Completed) (id : Text) :
    latestResult (log ++ [c]) id =
      if c.eventId = id then c.use.result.getD (latestResult log id) else latestResult log id := by
  unfold latestResult
  rw [List.filter_append, List.filterMap_append]
  split_ifs with h
  · cases hr : c.use.result <;> simp [h, hr]
  · simp [h]

theorem latestResult_of_unseen {log : List Completed} {id : Text}
    (h : id ∉ log.map Completed.eventId) : latestResult log id = pending := by
  have hnil : (log.filter fun c => c.eventId = id) = [] := by
    refine List.filter_eq_nil_iff.2 fun c hc hid => h (List.mem_map.2 ⟨c, hc, ?_⟩)
    simpa using hid
  rw [latestResult, hnil]
  rfl

/-- The event expected of a tool after one more invocation. -/
theorem expectedEvent_append (log : List Completed) (c : Completed) (id : Text) :
    expectedEvent (log ++ [c]) id =
      if c.eventId = id then
        some (((expectedEvent log id).map fun e => e.withResult c.use.result).getD
          (newEvent c.use.call c.observed.workspaceId (c.use.result.getD pending) c.isPre))
      else expectedEvent log id := by
  unfold expectedEvent
  rw [latestResult_append, List.find?_append]
  by_cases h : c.eventId = id
  · simp only [h, if_true]
    cases hf : log.find? fun c => c.eventId = id with
    | none =>
      have hunseen : id ∉ log.map Completed.eventId := by
        intro hm
        obtain ⟨d, hd, hid⟩ := List.mem_map.1 hm
        exact absurd hid (by simpa using List.find?_eq_none.1 hf d hd)
      simp [h, latestResult_of_unseen hunseen]
    | some f => cases c.use.result <;> simp [Event.withResult, newEvent]
  · simp [h]

theorem firstObservation_append (log : List Completed) (c : Completed) (id : Text) :
    firstObservation (log ++ [c]) id = (firstObservation log id).or
      (if c.observed.workspaceId = id then some c.observed else none) := by
  unfold firstObservation
  rw [List.find?_append]
  cases log.find? fun c => c.observed.workspaceId = id with
  | some f => rfl
  | none => by_cases h : c.observed.workspaceId = id <;> simp [h]

/-- The events that `truncateEvents` drops. -/
def droppedEvents (events : List Event) : List Text :=
  (events.take (events.length - maxEvents)).map Event.eventId

theorem find_truncateEvents {events : List Event} {id : Text} (h : id ∉ droppedEvents events) :
    ((truncateEvents events).find? fun e => e.eventId = id) =
      events.find? fun e => e.eventId = id := by
  have hnone : ((events.take (events.length - maxEvents)).find? fun e => e.eventId = id) = none := by
    refine List.find?_eq_none.2 fun e he hid => h (List.mem_map.2 ⟨e, he, ?_⟩)
    simpa using hid
  conv_rhs => rw [← List.take_append_drop (events.length - maxEvents) events, List.find?_append,
    hnone, Option.none_or]
  rw [truncateEvents]

theorem length_truncateEvents (events : List Event) :
    (truncateEvents events).length = min events.length maxEvents := by
  rw [truncateEvents, List.length_drop]
  omega

theorem droppedEvents_of_le {events : List Event} (h : events.length ≤ maxEvents) :
    droppedEvents events = [] := by
  rw [droppedEvents, Nat.sub_eq_zero_of_le h, List.take_zero, List.map_nil]

section Append

variable {log : List Completed} {dropped : List Text} {state : TurnState}
  (h : Records log dropped state)
include h

theorem Records.ids_subset :
    (state.events.map Event.eventId).toFinset ⊆ (log.map Completed.eventId).toFinset := by
  intro id hid
  rw [List.mem_toFinset, List.mem_map] at hid ⊢
  obtain ⟨e, he, rfl⟩ := hid
  exact h.seen e he

theorem Records.card_ids : (state.events.map Event.eventId).toFinset.card = state.events.length := by
  rw [List.toFinset_card_of_nodup h.nodup, List.length_map]

/-- While no event was dropped, every tool has one. -/
theorem Records.mem_ids_iff (hle : toolCount log ≤ maxEvents) (id : Text) :
    id ∈ state.events.map Event.eventId ↔ id ∈ log.map Completed.eventId := by
  have hlen := h.length
  have heq := Finset.eq_of_subset_of_card_le h.ids_subset
    (by rw [h.card_ids, ← toolCount]; omega)
  rw [← List.mem_toFinset, heq, List.mem_toFinset]

/-- A tool without an event, though it was seen, means that events were dropped. -/
theorem Records.length_of_dropped {id : Text} (hid : id ∉ state.events.map Event.eventId)
    (hlog : id ∈ log.map Completed.eventId) : maxEvents < toolCount log := by
  by_contra hle
  exact hid ((h.mem_ids_iff (by omega) id).2 hlog)

theorem Records.append_length (c : Completed) :
    (truncateEvents (c.use.record state.events c.observed.workspaceId)).length =
      min (toolCount (log ++ [c])) maxEvents := by
  have hlen := h.length
  have hrecord := congrArg List.length
    (map_eventId_record c.use state.events c.observed.workspaceId)
  rw [List.length_map] at hrecord
  rw [length_truncateEvents, toolCount_append, hrecord]
  by_cases hI : c.eventId ∈ state.events.map Event.eventId
  · have hL : c.eventId ∈ log.map Completed.eventId := by
      simpa using h.ids_subset (List.mem_toFinset.2 hI)
    rw [if_pos (by exact hI), if_pos hL, List.length_map]
    omega
  · rw [if_neg (by exact hI), List.length_append, List.length_map, List.length_singleton]
    split_ifs with hL
    · have := h.length_of_dropped hI hL
      omega
    · omega

theorem Records.append_nodup (c : Completed) :
    ((truncateEvents (c.use.record state.events c.observed.workspaceId)).map Event.eventId).Nodup := by
  refine List.Nodup.sublist ((List.drop_sublist _ _).map _) ?_
  rw [map_eventId_record]
  split_ifs with hI
  · exact h.nodup
  · exact List.nodup_append.2 ⟨h.nodup, List.nodup_singleton _,
      fun id hid _ hc heq => hI (List.mem_singleton.1 hc ▸ heq ▸ hid)⟩

theorem Records.append_seen (c : Completed) :
    ∀ e ∈ truncateEvents (c.use.record state.events c.observed.workspaceId),
      ∃ d ∈ log ++ [c], d.eventId = e.eventId := by
  intro e he
  have hid : e.eventId ∈ (c.use.record state.events c.observed.workspaceId).map Event.eventId :=
    List.mem_map_of_mem (List.mem_of_mem_drop he)
  have hold (h' : e.eventId ∈ state.events.map Event.eventId) :
      ∃ d ∈ log ++ [c], d.eventId = e.eventId := by
    obtain ⟨e', he', heq⟩ := List.mem_map.1 h'
    obtain ⟨d, hd, hde⟩ := h.seen e' he'
    exact ⟨d, List.mem_append_left _ hd, hde.trans heq⟩
  rw [map_eventId_record] at hid
  split_ifs at hid
  · exact hold hid
  · rcases List.mem_append.1 hid with h' | h'
    · exact hold h'
    · exact ⟨c, by simp, (List.mem_singleton.1 h').symm⟩

/-- While the tools are few enough, nothing is dropped. -/
theorem Records.append_fits {c : Completed} (hle : toolCount (log ++ [c]) ≤ maxEvents) :
    toolCount log ≤ maxEvents ∧
      (c.use.record state.events c.observed.workspaceId).length ≤ maxEvents := by
  have hcount := toolCount_append log c
  have hbefore : toolCount log ≤ maxEvents := by split_ifs at hcount <;> omega
  have hlen := h.length
  have hrecord := congrArg List.length
    (map_eventId_record c.use state.events c.observed.workspaceId)
  rw [List.length_map] at hrecord
  refine ⟨hbefore, ?_⟩
  rw [hrecord]
  by_cases hI : c.eventId ∈ state.events.map Event.eventId
  · rw [if_pos (by exact hI), List.length_map]
    omega
  · rw [if_neg fun hL => hI ((h.mem_ids_iff hbefore _).2 hL)] at hcount
    rw [if_neg (by exact hI), List.length_append, List.length_map, List.length_singleton]
    omega

theorem Records.append_found {c : Completed} {id : Text} (hid : id ∉ dropped)
    (hnew : id ∉ droppedEvents (c.use.record state.events c.observed.workspaceId)) :
    ((truncateEvents (c.use.record state.events c.observed.workspaceId)).find? fun e =>
      e.eventId = id) = expectedEvent (log ++ [c]) id := by
  rw [find_truncateEvents hnew, find_record, expectedEvent_append, h.found id hid]
  rfl

/-- One more invocation, one step of the records. -/
theorem Records.append {c : Completed} {root : Text} {next : TurnState}
    (hworkspaces : next.workspaces = workspaceRecord state.workspaces root c.observed)
    (hevents : next.events = truncateEvents (c.use.record state.events c.observed.workspaceId)) :
    Records (log ++ [c])
      (dropped ++ droppedEvents (c.use.record state.events c.observed.workspaceId)) next where
  baseline id := by rw [hworkspaces, baseline_workspaceRecord, h.baseline, firstObservation_append]
  nodup := by rw [hevents]; exact h.append_nodup c
  seen := by rw [hevents]; exact h.append_seen c
  length := by rw [hevents]; exact h.append_length c
  found id hid := by
    rw [List.mem_append, not_or] at hid
    rw [hevents]
    exact h.append_found hid.1 hid.2
  dropped_eq_nil hle := by
    obtain ⟨hbefore, hfits⟩ := h.append_fits hle
    rw [h.dropped_eq_nil hbefore, droppedEvents_of_le hfits, List.nil_append]

end Append

/-- A state with the same events and the same baselines. -/
theorem Records.congr {log : List Completed} {dropped : List Text} {state next : TurnState}
    (h : Records log dropped state)
    (hbaseline : ∀ id, (lookup next.workspaces id).map WorkspaceRecord.baseline =
      (lookup state.workspaces id).map WorkspaceRecord.baseline)
    (hevents : next.events = state.events) : Records log dropped next where
  baseline id := (hbaseline id).trans (h.baseline id)
  nodup := by rw [hevents]; exact h.nodup
  seen := by rw [hevents]; exact h.seen
  length := by rw [hevents]; exact h.length
  found := by rw [hevents]; exact h.found
  dropped_eq_nil := h.dropped_eq_nil

theorem Records.empty (identity : TurnIdentity) : Records [] [] (emptyTurnState identity) where
  baseline _ := rfl
  nodup := List.nodup_nil
  seen e he := by cases he
  length := rfl
  found _ _ := rfl
  dropped_eq_nil _ := rfl

/-! ## Runs -/

/-- The state file and the invocations around it. `recorded` are those completed
since the file was last removed and `dropped` the events the file lost since then,
`past` are the earlier invocations; `started` are the tools that the host has
started, and when. -/
structure System where
  file : Option TurnState
  inFlight : List InFlight
  recorded : List Completed
  dropped : List Text
  past : List Completed
  started : List (Text × Nat)
  clock : Nat
  deriving DecidableEq, Repr

def System.initial : System := ⟨none, [], [], [], [], [], 0⟩

/-- What a stop hook leaves. -/
def System.stopped (s : System) : Stopped → System
  | .untouched => { s with clock := s.clock + 1 }
  | .saved state => { s with file := some state, clock := s.clock + 1 }
  | .removed =>
    { s with
      file := none
      recorded := []
      dropped := []
      past := s.past ++ s.recorded
      clock := s.clock + 1 }

/-- `fits` is whether the state, serialized, is within `MAX_JSON_BYTES`. -/
inductive Step (identity : TurnIdentity) (fits : TurnState → Bool) : System → System → Prop where
  /-- A tool hook observes its workspace, outside the lock. -/
  | observe (s : System) (use : ToolUse) (root : Text) (observed : WorkspaceState)
      (now : observed.taken = s.clock) :
      Step identity fits s
        { s with inFlight := s.inFlight ++ [⟨use, root, observed⟩], clock := s.clock + 1 }
  /-- A tool hook that holds the lock reads, updates and saves the state. -/
  | update (s : System) (before : List InFlight) (p : InFlight) (after : List InFlight)
      (held : s.inFlight = before ++ p :: after)
      (saved : fits (p.use.apply identity p.root p.observed s.file) = true) :
      Step identity fits s
        { s with
          file := some (p.use.apply identity p.root p.observed s.file)
          inFlight := before ++ after
          recorded := s.recorded ++ [⟨p.use, p.observed, s.clock⟩]
          dropped := s.dropped ++ droppedEvents
            (p.use.record (loadTurnState identity s.file).events p.observed.workspaceId)
          clock := s.clock + 1 }
  /-- A tool hook raises, or never gets the lock. -/
  | abandon (s : System) (before : List InFlight) (p : InFlight) (after : List InFlight)
      (held : s.inFlight = before ++ p :: after) :
      Step identity fits s { s with inFlight := before ++ after, clock := s.clock + 1 }
  /-- A stop hook; its observations are made under the lock. -/
  | stop (s : System) (stopHookActive : Bool) (final : Text → Option WorkspaceState)
      (saved : ∀ state, stop identity stopHookActive final s.file = .saved state → fits state = true) :
      Step identity fits s (s.stopped (Hooks.stop identity stopHookActive final s.file))
  /-- The host starts a tool. -/
  | start (s : System) (id : Text) :
      Step identity fits s { s with started := s.started ++ [(id, s.clock)], clock := s.clock + 1 }

def Reaches (identity : TurnIdentity) (fits : TurnState → Bool) : System → Prop :=
  Relation.ReflTransGen (Step identity fits) System.initial

/-- What every reachable system keeps. -/
structure Kept (identity : TurnIdentity) (s : System) : Prop where
  own : ∀ state, s.file = some state → state.identity = identity
  missing : s.file = none → s.recorded = []
  records : Records s.recorded s.dropped (loadTurnState identity s.file)
  flight : ∀ p ∈ s.inFlight, p.observed.taken < s.clock
  times : ∀ c ∈ s.recorded, c.observed.taken < c.time ∧ c.time < s.clock
  ordered : s.recorded.Pairwise fun c d => c.time < d.time

section Run

variable {identity : TurnIdentity} {fits : TurnState → Bool} {s s' : System}

theorem loadTurnState_own {state : TurnState} (h : state.identity = identity) :
    loadTurnState identity (some state) = state := if_pos h

theorem identity_loadTurnState (file : Option TurnState) :
    (loadTurnState identity file).identity = identity := by
  unfold loadTurnState
  split
  · split_ifs with h
    · exact h
    · rfl
  · rfl

theorem Kept.initial : Kept identity System.initial where
  own _ h := by cases h
  missing _ := rfl
  records := Records.empty identity
  flight p hp := by cases hp
  times c hc := by cases hc
  ordered := List.Pairwise.nil

/-- A step that touches neither the file nor the records. -/
theorem Kept.tick (h : Kept identity s) {inFlight : List InFlight} {started : List (Text × Nat)}
    (hflight : ∀ p ∈ inFlight, p.observed.taken < s.clock + 1) :
    Kept identity { s with inFlight := inFlight, started := started, clock := s.clock + 1 } where
  own := h.own
  missing := h.missing
  records := h.records
  flight := hflight
  times c hc := ⟨(h.times c hc).1, Nat.lt_succ_of_lt (h.times c hc).2⟩
  ordered := h.ordered

theorem Kept.flight_succ (h : Kept identity s) :
    ∀ p ∈ s.inFlight, p.observed.taken < s.clock + 1 :=
  fun p hp => Nat.lt_succ_of_lt (h.flight p hp)

theorem Kept.flight_without (h : Kept identity s) {before after : List InFlight} {p : InFlight}
    (held : s.inFlight = before ++ p :: after) :
    ∀ q ∈ before ++ after, q.observed.taken < s.clock + 1 := by
  intro q hq
  refine h.flight_succ q ?_
  rw [held]
  rcases List.mem_append.1 hq with hq | hq
  · exact List.mem_append_left _ hq
  · exact List.mem_append_right _ (List.mem_cons_of_mem _ hq)

theorem Kept.update (h : Kept identity s) {before after : List InFlight} {p : InFlight}
    (held : s.inFlight = before ++ p :: after) :
    Kept identity { s with
      file := some (p.use.apply identity p.root p.observed s.file)
      inFlight := before ++ after
      recorded := s.recorded ++ [⟨p.use, p.observed, s.clock⟩]
      dropped := s.dropped ++ droppedEvents
        (p.use.record (loadTurnState identity s.file).events p.observed.workspaceId)
      clock := s.clock + 1 } := by
  have hid : (p.use.apply identity p.root p.observed s.file).identity = identity := by
    rw [ToolUse.apply_eq]
    exact identity_loadTurnState s.file
  refine ⟨?_, fun hnone => ?_, ?_, h.flight_without held, ?_, ?_⟩
  · intro state hstate
    rw [← Option.some.inj hstate]
    exact hid
  · cases hnone
  · rw [loadTurnState_own hid]
    exact h.records.append (p.use.workspaces_apply identity p.root p.observed s.file)
      (p.use.events_apply identity p.root p.observed s.file)
  · intro c hc
    rcases List.mem_append.1 hc with hc | hc
    · exact ⟨(h.times c hc).1, Nat.lt_succ_of_lt (h.times c hc).2⟩
    · rw [List.mem_singleton.1 hc]
      have hp : p ∈ s.inFlight := by rw [held]; simp
      exact ⟨h.flight p hp, Nat.lt_succ_self _⟩
  · refine List.pairwise_append.2 ⟨h.ordered, List.pairwise_singleton _ _, fun c hc d hd => ?_⟩
    rw [List.mem_singleton.1 hd]
    exact (h.times c hc).2

/-- A stop hook that saves the state only refreshes it. -/
theorem Kept.stop (h : Kept identity s) (stopHookActive : Bool)
    (final : Text → Option WorkspaceState) :
    Kept identity (s.stopped (Hooks.stop identity stopHookActive final s.file)) := by
  cases hfile : s.file with
  | none => exact h.tick h.flight_succ
  | some state =>
    have hid := h.own state hfile
    have hrec : Records s.recorded s.dropped state := by
      have := h.records
      rwa [hfile, loadTurnState_own hid] at this
    rw [Hooks.stop, if_neg (by rw [hid]; exact not_not_intro rfl)]
    simp only
    split_ifs with hdeliver
    · refine ⟨fun st hst => ?_, fun hnone => (by cases hnone), ?_, h.flight_succ,
        fun c hc => ⟨(h.times c hc).1, Nat.lt_succ_of_lt (h.times c hc).2⟩, h.ordered⟩
      · rw [← Option.some.inj hst]
        exact hid
      · simp only [System.stopped]
        rw [loadTurnState_own (by exact hid)]
        exact hrec.congr (baseline_refresh final state.workspaces) rfl
    · exact ⟨fun st hst => (by cases hst), fun _ => rfl, Records.empty identity, h.flight_succ,
        fun c hc => (by cases hc), List.Pairwise.nil⟩

theorem Kept.step (h : Kept identity s) (hstep : Step identity fits s s') : Kept identity s' := by
  cases hstep with
  | observe use root observed now =>
    refine h.tick fun p hp => ?_
    rcases List.mem_append.1 hp with hp | hp
    · exact h.flight_succ p hp
    · rw [List.mem_singleton.1 hp, now]
      exact Nat.lt_succ_self _
  | update before p after held saved => exact h.update held
  | abandon before p after held => exact h.tick (h.flight_without held)
  | stop stopHookActive final saved => exact h.stop stopHookActive final
  | start id => exact h.tick h.flight_succ

theorem Reaches.kept (h : Reaches identity fits s) : Kept identity s := by
  induction h with
  | refl => exact Kept.initial
  | tail _ hstep ih => exact ih.step hstep

/-! ## What the state says of the turn -/

/-- The accounts that the state of a turn gives, of the invocations that completed
since a stop hook last removed the file. -/
structure Accounts (s : System) (state : TurnState) : Prop where
  one : (state.events.map Event.eventId).Nodup
  seen : ∀ e ∈ state.events, ∃ c ∈ s.recorded, c.eventId = e.eventId
  bounded : state.events.length = min (toolCount s.recorded) maxEvents
  /-- The oldest events are dropped, and only for more tools than `MAX_EVENTS`. -/
  dropped : toolCount s.recorded ≤ maxEvents → s.dropped = []
  /-- Every other tool has its event, with the result of its post-tool hook, and it is
  marked as observed before when its pre-tool hook came before every post-tool hook. -/
  event : ∀ c ∈ s.recorded, c.eventId ∉ s.dropped → ∃ e ∈ state.events,
    e.eventId = c.eventId ∧ e.result = latestResult s.recorded c.eventId ∧
      (e.preflightObserved = true ↔ ∃ p ∈ s.recorded, p.eventId = c.eventId ∧ p.isPre = true ∧
        ∀ d ∈ s.recorded, d.eventId = c.eventId → d.isPre = false → p.time < d.time)
  /-- The baseline of a workspace was taken before any tool there started that the
  host started after its pre-tool hook. -/
  baseline : ∀ tool ∈ s.started, ∀ c ∈ s.recorded, c.eventId = tool.1 → c.isPre = true →
    c.time < tool.2 → ∃ w, lookup state.workspaces c.observed.workspaceId = some w ∧
      w.baseline.taken < tool.2

/-- The first member that satisfies `p` comes before every other. -/
theorem eq_or_lt_of_find {log : List Completed} (hlog : log.Pairwise fun c d => c.time < d.time)
    {p : Completed → Bool} {f : Completed} (hf : log.find? p = some f) {c : Completed}
    (hc : c ∈ log) (hp : p c = true) : f = c ∨ f.time < c.time := by
  induction log with
  | nil => cases hc
  | cons d log ih =>
    obtain ⟨hd, hlog⟩ := List.pairwise_cons.1 hlog
    by_cases hpd : p d = true
    · rw [List.find?_cons_of_pos hpd] at hf
      rw [← Option.some.inj hf]
      rcases List.mem_cons.1 hc with rfl | hc
      · exact .inl rfl
      · exact .inr (hd c hc)
    · rw [List.find?_cons_of_neg hpd] at hf
      rcases List.mem_cons.1 hc with rfl | hc
      · exact absurd hp hpd
      · exact ih hlog hf hc

theorem Kept.event (h : Kept identity s) {state : TurnState} (hrec : Records s.recorded s.dropped state)
    {c : Completed} (hc : c ∈ s.recorded) (hkeep : c.eventId ∉ s.dropped) :
    ∃ e ∈ state.events, e.eventId = c.eventId ∧ e.result = latestResult s.recorded c.eventId ∧
      (e.preflightObserved = true ↔ ∃ p ∈ s.recorded, p.eventId = c.eventId ∧ p.isPre = true ∧
        ∀ d ∈ s.recorded, d.eventId = c.eventId → d.isPre = false → p.time < d.time) := by
  obtain ⟨f, hf⟩ := Option.isSome_iff_exists.1
    (List.find?_isSome.2 ⟨c, hc, by simp⟩ :
      (s.recorded.find? fun d => d.eventId = c.eventId).isSome = true)
  have hfmem := List.mem_of_find?_eq_some hf
  have hfid : f.eventId = c.eventId := by simpa using List.find?_some hf
  have hfound := hrec.found c.eventId hkeep
  rw [expectedEvent, hf, Option.map_some] at hfound
  refine ⟨_, List.mem_of_find?_eq_some hfound, hfid, rfl, ?_⟩
  show f.isPre = true ↔ _
  constructor
  · -- the first invocation is the pre-tool hook
    refine fun hpre => ⟨f, hfmem, hfid, hpre, fun d hd hdid hdpost => ?_⟩
    rcases eq_or_lt_of_find h.ordered hf hd (by simpa using hdid) with rfl | hlt
    · rw [hpre] at hdpost
      cases hdpost
    · exact hlt
  · rintro ⟨p, hp, hpid, hpre, hfirst⟩
    by_contra hpost
    have hlt := hfirst f hfmem hfid (Bool.eq_false_iff.2 hpost)
    rcases eq_or_lt_of_find h.ordered hf hp (by simpa using hpid) with rfl | hlt'
    · exact hpost hpre
    · omega

/-- The baseline of a workspace was taken before the first invocation there completed. -/
theorem Kept.baseline (h : Kept identity s) {state : TurnState} (hrec : Records s.recorded s.dropped state)
    {c : Completed} (hc : c ∈ s.recorded) :
    ∃ w, lookup state.workspaces c.observed.workspaceId = some w ∧ w.baseline.taken < c.time := by
  obtain ⟨f, hf⟩ := Option.isSome_iff_exists.1
    (List.find?_isSome.2 ⟨c, hc, by simp⟩ :
      (s.recorded.find? fun d => d.observed.workspaceId = c.observed.workspaceId).isSome = true)
  have hbase := hrec.baseline c.observed.workspaceId
  rw [firstObservation, hf, Option.map_some] at hbase
  obtain ⟨w, hw, hwf⟩ := Option.map_eq_some_iff.1 hbase
  have htaken := (h.times f (List.mem_of_find?_eq_some hf)).1
  refine ⟨w, hw, ?_⟩
  rw [hwf]
  rcases eq_or_lt_of_find h.ordered hf hc (by simp) with rfl | hlt
  · exact htaken
  · omega

/-- In every reachable system the file, if there is one, accounts for what completed
since it was last removed, and there is one if anything did. -/
theorem turn_state_accounts (h : Reaches identity fits s) :
    (s.file = none → s.recorded = []) ∧ ∀ state, s.file = some state → Accounts s state := by
  have hkept := h.kept
  refine ⟨hkept.missing, fun state hfile => ?_⟩
  have hrec : Records s.recorded s.dropped state := by
    have := hkept.records
    rwa [hfile, loadTurnState_own (hkept.own state hfile)] at this
  refine ⟨hrec.nodup, hrec.seen, hrec.length, hrec.dropped_eq_nil,
    fun c hc hkeep => hkept.event hrec hc hkeep, ?_⟩
  rintro ⟨id, time⟩ - c hc - - hlt
  obtain ⟨w, hw, htaken⟩ := hkept.baseline hrec hc
  exact ⟨w, hw, htaken.trans hlt⟩

end Run

/-! ## A tool whose turn is stopped -/

/-- A shell call. -/
def bash : ToolCall := ⟨txt "A", txt "Bash", [], none, txt "UNAVAILABLE"⟩

def passed : ToolResult := ⟨txt "PASS", some 0, none, txt "UNAVAILABLE"⟩

def turn : TurnIdentity := ⟨txt "session", txt "turn", txt "generation"⟩

/-- The workspace as it is at a time; it never changes. -/
def clean (taken : Nat) : WorkspaceState := ⟨txt "W", txt "digest", taken⟩

def preOf (taken : Nat) : InFlight := ⟨⟨bash, none⟩, txt "/w", clean taken⟩

def postOf (taken : Nat) : InFlight := ⟨⟨bash, some passed⟩, txt "/w", clean taken⟩

/-- The tool's two hooks, with its start between them. -/
theorem tool_run : ∃ s state, Reaches turn (fun _ => true) s ∧ s.file = some state ∧
    s.recorded.map (fun c => (c.eventId, c.isPre)) = [(txt "A", true), (txt "A", false)] ∧
    s.started = [(txt "A", 2)] ∧ Accounts s state := by
  have h0 : Reaches turn (fun _ => true) _ :=
    .tail .refl (.observe System.initial ⟨bash, none⟩ (txt "/w") (clean 0) rfl)
  have h1 : Reaches turn (fun _ => true) _ := .tail h0 (.update _ [] (preOf 0) [] rfl rfl)
  have h2 : Reaches turn (fun _ => true) _ := .tail h1 (.start _ (txt "A"))
  have h3 : Reaches turn (fun _ => true) _ :=
    .tail h2 (.observe _ ⟨bash, some passed⟩ (txt "/w") (clean 3) rfl)
  have h4 : Reaches turn (fun _ => true) _ := .tail h3 (.update _ [] (postOf 3) [] rfl rfl)
  exact ⟨_, _, h4, rfl, by decide +kernel, rfl, (turn_state_accounts h4).2 _ rfl⟩

/-- A stop hook comes between the two: it removes the file, so that the tool seen by a
completed invocation has no event, and the post-tool hook makes a new one, not
observed before, over a baseline that is later than the tool's start. -/
theorem stopped_tool_forgotten :
    (∃ s, Reaches turn (fun _ => true) s ∧ s.file = none ∧
      s.past.map (fun c => (c.eventId, c.isPre)) = [(txt "A", true)]) ∧
    ∃ s state e w, Reaches turn (fun _ => true) s ∧ s.file = some state ∧
      (s.past ++ s.recorded).map (fun c => (c.eventId, c.isPre, c.time)) =
        [(txt "A", true, 1), (txt "A", false, 5)] ∧
      s.started = [(txt "A", 2)] ∧ state.events = [e] ∧ e.eventId = txt "A" ∧
      e.preflightObserved = false ∧ lookup state.workspaces (txt "W") = some w ∧
      w.baseline.taken = 4 := by
  have h0 : Reaches turn (fun _ => true) _ :=
    .tail .refl (.observe System.initial ⟨bash, none⟩ (txt "/w") (clean 0) rfl)
  have h1 : Reaches turn (fun _ => true) _ := .tail h0 (.update _ [] (preOf 0) [] rfl rfl)
  have h2 : Reaches turn (fun _ => true) _ := .tail h1 (.start _ (txt "A"))
  have h3 : Reaches turn (fun _ => true) _ :=
    .tail h2 (.stop _ false (fun _ => some (clean 3)) (fun _ _ => rfl))
  have h4 : Reaches turn (fun _ => true) _ :=
    .tail h3 (.observe _ ⟨bash, some passed⟩ (txt "/w") (clean 4) rfl)
  have h5 : Reaches turn (fun _ => true) _ := .tail h4 (.update _ [] (postOf 4) [] rfl rfl)
  exact ⟨⟨_, h3, rfl, by decide +kernel⟩, _, _, _, _, h5, rfl, by decide +kernel, rfl, rfl, rfl, rfl,
    rfl, rfl⟩

end Steward.Workspace.Hooks
