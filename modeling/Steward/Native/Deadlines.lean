import Steward.Native.Operations
import Steward.Py.Threads

/-!
# Calls, deadlines and effects

Any number of `dispatch` calls on one dispatcher. Each runs its operation in a
thread that waits for the operation lock; a deadline answers the call and
abandons the thread, which runs on. A call answered with an error leaves no
effect behind in every run in which no deadline cuts off an operation that
still writes, and none in which a written Run is refused its answer.
-/

namespace Steward.Native

open Py Sqlite

/-! ## Calls -/

inductive Event (F : Type) where
  | wrote (effect : Effect)
  | answered (result : CallToolResult F)

/-- The thread of a call: waiting for a worker or for the lock, under the lock with what is left to
write, or ended. -/
inductive Worker (F : Type) where
  | none
  | pending
  | waiting
  | holding (rest : List Effect) (outcome : Except Raised (OperationResult F))
  | ended (outcome : Except Raised (OperationResult F))

/-- What is left to write under the lock. -/
def Worker.rest {F : Type} : Worker F → List Effect
  | holding rest _ => rest
  | _ => []

/-- Cancellation drops a thread that has no worker yet; any other runs on. -/
def Worker.abandoned {F : Type} : Worker F → Worker F
  | pending => none
  | worker => worker

/-- One call of `dispatch`: its worker thread, and its effects and its answer in their order. -/
structure Call (F : Type) where
  toolName : Text
  arguments : List (Text × Value F)
  attribution : List (Text × Value F)
  worker : Worker F
  log : List (Event F)

namespace Call

variable {F : Type}

def Open (c : Call F) : Prop := ∀ r, .answered r ∉ c.log

def written (c : Call F) : List Effect := c.log.filterMap fun | .wrote e => some e | .answered _ => none

def answers (c : Call F) : List (CallToolResult F) := c.log.filterMap fun | .wrote _ => none | .answered r => some r

/-- The client named the Run when it made the call. -/
def Names (c : Call F) (e : Effect) : Prop :=
  c.toolName = recoveryTool ∧ lookup c.arguments (txt "run_id") = some (.str e.runId)

def record (c : Call F) (event : Event F) : Call F := { c with log := c.log ++ [event] }

def withWorker (c : Call F) (worker : Worker F) : Call F := { c with worker := worker }

end Call

/-- The answer identifies the Run. -/
def CallToolResult.Tells {F : Type} (r : CallToolResult F) (e : Effect) : Prop :=
  ((Value.get r.structuredContent (txt "result")).getIf (txt "created_identity")).getIf (txt "run_id") = .str e.runId

inductive Action (F : Type) [PyFloat F] where
  | start
  | enter (session : Session F)
  | write
  | leave
  | answer
  | expire

section
variable {F : Type} [SqliteFloat F]

/-- `dispatch` up to the thread of the operation. -/
def NativeStewardDispatcher.begin (d : NativeStewardDispatcher F) (toolName : Text) (arguments : Value F)
    (attribution : List (Text × Value F)) : Call F :=
  if toolName ∈ toolNames then
    match arguments with
    | .dict fs =>
      if d.inputAdmitted toolName fs then ⟨toolName, fs, attribution, .pending, []⟩
      else ⟨toolName, fs, attribution, .none, [.answered (d.error toolName .argumentInvalid none attribution)]⟩
    | _ => ⟨toolName, [], attribution, .none, [.answered (d.error toolName .argumentInvalid none attribution)]⟩
  else ⟨toolName, [], attribution, .none, [.answered (d.error toolName .toolNotFound none attribution)]⟩

/-- The operation of a call. -/
def Call.operation (c : Call F) (session : Session F) : Operation (OperationResult F) :=
  Native.operation session c.toolName c.arguments

/-- One action of a call; `free` says that no other thread holds the operation lock. -/
inductive Call.Acts (d : NativeStewardDispatcher F) (free : Prop) : Call F → Action F → Call F → Prop where
  | start {c : Call F} (h : c.worker = .pending) : Acts d free c .start (c.withWorker .waiting)
  | enter {c : Call F} (h : c.worker = .waiting) (hfree : free) (session : Session F) :
      Acts d free c (.enter session)
        (c.withWorker (.holding (c.operation session).written (c.operation session).outcome))
  | write {c : Call F} {e : Effect} {rest : List Effect} {outcome : Except Raised (OperationResult F)}
      (h : c.worker = .holding (e :: rest) outcome) :
      Acts d free c .write ((c.withWorker (.holding rest outcome)).record (.wrote e))
  | leave {c : Call F} {outcome : Except Raised (OperationResult F)} (h : c.worker = .holding [] outcome) :
      Acts d free c .leave (c.withWorker (.ended outcome))
  | answer {c : Call F} {outcome : Except Raised (OperationResult F)} (h : c.worker = .ended outcome)
      (hopen : c.Open) :
      Acts d free c .answer (c.record (.answered (d.answer c.toolName c.attribution outcome)))
  | expire {c : Call F} (h : c.worker ≠ .none) (hopen : c.Open) :
      Acts d free c .expire
        ((c.withWorker c.worker.abandoned).record (.answered (d.caught c.toolName c.attribution .timeout)))

/-- The calls on one dispatcher. -/
def NativeStewardDispatcher.calls (d : NativeStewardDispatcher F) : Threads (Call F) (Action F) where
  Arrives c := ∃ toolName arguments attribution, c = d.begin toolName arguments attribution
  Holds c := ∃ rest outcome, c.worker = .holding rest outcome
  Acts := Call.Acts d

/-- The states of all runs. -/
abbrev NativeStewardDispatcher.Reachable (d : NativeStewardDispatcher F) (s : List (Call F)) : Prop :=
  d.calls.Reaches (fun _ _ => True) s

/-! ## No effect after a failure -/

/-- After an error answer the call writes nothing, and what it wrote the client can identify. -/
structure Call.Silent (c : Call F) : Prop where
  after : ∀ before r rest, c.log = before ++ .answered r :: rest → r.isError = true → ∀ e, .wrote e ∉ rest
  told : ∀ r, .answered r ∈ c.log → r.isError = true → ∀ e, .wrote e ∈ c.log → c.Names e ∨ r.Tells e

/-- The Snapshots a call has published. -/
def Call.snapshots (c : Call F) : List Effect := c.written.filter Effect.isSnapshot

/-- An update answered with its result. -/
def Call.Updated (c : Call F) : Prop := c.toolName = updateTool ∧ ∃ r, .answered r ∈ c.log ∧ r.isError = false

open Classical in
/-- No effect after a reported failure: update and recovery calls are silent after an error, and the
answered calls have published no more Snapshots than there are successful updates. -/
def NoEffectAfterFailure (s : List (Call F)) : Prop :=
  (∀ c ∈ s, c.toolName = updateTool ∨ c.toolName = recoveryTool → c.Silent) ∧
    ((s.filter fun c => ¬ c.Open).flatMap Call.snapshots).length ≤ (s.filter fun c => c.Updated).length

/-- What an action needs to leave no effect behind an error answer: an abandoned thread that gets the lock writes
nothing; no deadline expires on a thread that has something to write or has written a Run the client did not
name; and an operation that has written such a Run returns a result that passes the checks on answers. -/
def Harmless (d : NativeStewardDispatcher F) (c : Call F) : Action F → Prop
  | .enter session => ¬ c.Open → (c.operation session).written = []
  | .expire => c.worker.rest = [] ∧ ∀ e ∈ c.written, c.Names e
  | .answer => (∃ e ∈ c.written, ¬ c.Names e) →
      ∃ result, c.worker = .ended (.ok result) ∧ d.Presents c.toolName c.attribution result
  | .start | .write | .leave => True

variable {d : NativeStewardDispatcher F} {free : Prop} {c c' : Call F} {a : Action F} {s s' : List (Call F)}

/-! ### Logs -/

section
omit [SqliteFloat F]

theorem mem_written {e : Effect} : e ∈ c.written ↔ .wrote e ∈ c.log := by
  rw [Call.written, List.mem_filterMap]
  constructor
  · rintro ⟨event, hmem, hevent⟩
    cases event with
    | wrote => exact Option.some.inj hevent ▸ hmem
    | answered => cases hevent
  · exact fun h => ⟨_, h, rfl⟩

@[simp] theorem written_withWorker (worker : Worker F) : (c.withWorker worker).written = c.written := rfl

@[simp] theorem log_withWorker (worker : Worker F) : (c.withWorker worker).log = c.log := rfl

@[simp] theorem worker_withWorker (worker : Worker F) : (c.withWorker worker).worker = worker := rfl

@[simp] theorem log_record (event : Event F) : (c.record event).log = c.log ++ [event] := rfl

@[simp] theorem worker_record (event : Event F) : (c.record event).worker = c.worker := rfl

@[simp] theorem written_record_wrote (e : Effect) : (c.record (.wrote e)).written = c.written ++ [e] := by
  simp [Call.written]

@[simp] theorem written_record_answered (r : CallToolResult F) : (c.record (.answered r)).written = c.written := by
  simp [Call.written]

@[simp] theorem rest_abandoned (worker : Worker F) : worker.abandoned.rest = worker.rest := by
  cases worker <;> rfl

/-- A call is what made it: its tool and its arguments. -/
theorem Call.Names.congr {e : Effect} (htool : c'.toolName = c.toolName) (harguments : c'.arguments = c.arguments) :
    c'.Names e ↔ c.Names e := by
  rw [Call.Names, Call.Names, htool, harguments]

/-- The last event of a log is the only one of its kind. -/
theorem eq_nil_of_append_singleton {log before rest : List (Event F)} {x y : Event F}
    (h : log ++ [x] = before ++ y :: rest) (hy : y ∉ log) : rest = [] := by
  rcases List.eq_nil_or_concat rest with hnil | ⟨init, last, hlast⟩
  · exact hnil
  · rw [List.concat_eq_append] at hlast
    rw [hlast, ← List.cons_append, ← List.append_assoc] at h
    obtain ⟨hlog, -⟩ := List.append_inj' h rfl
    exact absurd (hlog ▸ by simp) hy

end

/-! ### Every run -/

/-- The effects of a call, written or left to write. -/
def Call.effects (c : Call F) : List Effect := c.written ++ c.worker.rest

/-- What holds of every call in every run. -/
structure Call.Sound (c : Call F) : Prop where
  snapshots : c.effects.countP Effect.isSnapshot ≤ 1
  recovers : c.toolName = recoveryTool → ∀ e ∈ c.effects, c.Names e ∧ e.isSnapshot = false
  reads : c.toolName ≠ updateTool → c.toolName ≠ recoveryTool → c.effects = []
  unwritten : c.worker = .pending ∨ c.worker = .waiting → c.written = []
  ended : ∀ r, .answered r ∈ c.log → r.isError = false → ∃ outcome, c.worker = .ended outcome

omit [SqliteFloat F] in
/-- A call that has neither written nor begun to. -/
theorem Call.Sound.of_idle (hwritten : c.written = []) (hrest : c.worker.rest = [])
    (hended : ∀ r, .answered r ∈ c.log → r.isError = false → ∃ outcome, c.worker = .ended outcome) : c.Sound := by
  have heffects : c.effects = [] := by rw [Call.effects, hwritten, hrest, List.append_nil]
  exact ⟨by simp [heffects], fun _ => by simp [heffects], fun _ _ => heffects, fun _ => hwritten, hended⟩

omit [SqliteFloat F] in
theorem sound_begin (toolName : Text) (arguments : Value F) (attribution : List (Text × Value F)) :
    (d.begin toolName arguments attribution).Sound := by
  have hrejected (name : Text) (fs : List (Text × Value F)) (code : ErrorCode) :
      (⟨name, fs, attribution, .none, [.answered (d.error toolName code none attribution)]⟩ : Call F).Sound := by
    refine .of_idle rfl rfl fun r hr hok => ?_
    obtain rfl := Event.answered.inj (List.mem_singleton.1 hr)
    cases hok
  unfold NativeStewardDispatcher.begin
  split_ifs
  · split
    · split_ifs
      · exact .of_idle rfl rfl (by simp)
      · exact hrejected _ _ _
    · exact hrejected _ _ _
  · exact hrejected _ _ _

theorem kept_acts (h : c.Acts d free a c') : c'.toolName = c.toolName ∧ c'.arguments = c.arguments := by
  cases h <;> exact ⟨rfl, rfl⟩

/-- The effects are decided when the operation gets the lock; no other action adds to them. -/
theorem effects_acts (h : c.Acts d free a c') :
    c'.effects = c.effects ∨ c.worker = .waiting ∧ ∃ session, c'.effects = c.written ++ (c.operation session).written := by
  cases h with
  | start h | leave h => exact .inl (by simp [Call.effects, Worker.rest, h])
  | enter h hfree session => exact .inr ⟨h, session, rfl⟩
  | write h => exact .inl (by simp [Call.effects, Worker.rest, h])
  | answer h hopen => exact .inl (by simp [Call.effects])
  | expire h hopen => exact .inl (by simp [Call.effects])

/-- What every operation writes holds of the effects of the call. -/
theorem Call.Sound.effects_of_acts {P : List Effect → Prop} (hc : c.Sound) (h : c.Acts d free a c')
    (hkept : P c.effects) (hoperation : ∀ session, P (c.operation session).written) : P c'.effects := by
  rcases effects_acts h with heffects | ⟨hwaiting, session, heffects⟩
  · rwa [heffects]
  · rw [heffects, hc.unwritten (.inr hwaiting), List.nil_append]
    exact hoperation session

theorem unwritten_acts (h : c.Acts d free a c') (hc : c.Sound)
    (hidle : c'.worker = .pending ∨ c'.worker = .waiting) : c'.written = [] := by
  cases h with
  | start h => exact hc.unwritten (.inl h)
  | enter | write | leave => rcases hidle with hidle | hidle <;> cases hidle
  | answer h hopen =>
    rw [worker_record, h] at hidle
    rcases hidle with hidle | hidle <;> cases hidle
  | expire h hopen =>
    rw [written_record_answered, written_withWorker]
    refine hc.unwritten ?_
    rw [worker_record, worker_withWorker] at hidle
    cases hworker : c.worker <;> simp_all [Worker.abandoned]

theorem ended_acts (h : c.Acts d free a c') (hc : c.Sound) {r : CallToolResult F} (hr : .answered r ∈ c'.log)
    (hok : r.isError = false) : ∃ outcome, c'.worker = .ended outcome := by
  cases h with
  | start h | enter h | leave h =>
    obtain ⟨outcome, hended⟩ := hc.ended r hr hok
    exact absurd (h.symm.trans hended) (by simp)
  | write h =>
    have hlog : .answered r ∈ c.log := by simpa using hr
    obtain ⟨outcome, hended⟩ := hc.ended r hlog hok
    exact absurd (h.symm.trans hended) (by simp)
  | answer h hopen => exact ⟨_, h⟩
  | expire h hopen =>
    rcases List.mem_append.1 hr with hlog | hlast
    · exact absurd hlog (hopen r)
    · obtain rfl := Event.answered.inj (List.mem_singleton.1 hlast)
      cases hok

theorem sound_acts (h : c.Acts d free a c') (hc : c.Sound) : c'.Sound := by
  obtain ⟨htool, harguments⟩ := kept_acts h
  refine ⟨?_, fun hrecovery => ?_, fun hupdate hrecovery => ?_, unwritten_acts h hc, fun r => ended_acts h hc⟩
  · exact hc.effects_of_acts (P := fun es => es.countP Effect.isSnapshot ≤ 1) h hc.snapshots
      fun session => operation_snapshots
  · rw [htool] at hrecovery
    simp only [Call.Names.congr htool harguments]
    refine hc.effects_of_acts (P := fun es => ∀ e ∈ es, c.Names e ∧ e.isSnapshot = false) h (hc.recovers hrecovery)
      fun session e he => ?_
    rw [Call.operation, operation, hrecovery, if_neg (by decide), if_pos rfl] at he
    obtain ⟨hgiven, hrun⟩ := recovery_written e he
    exact ⟨⟨hrecovery, hgiven⟩, hrun⟩
  · rw [htool] at hupdate hrecovery
    exact hc.effects_of_acts (P := fun es => es = []) h (hc.reads hupdate hrecovery)
      fun session => operation_read hupdate hrecovery

theorem sound_of_reaches {Admits : Call F → Action F → Prop} (h : d.calls.Reaches Admits s) : ∀ c ∈ s, c.Sound := by
  refine h.forall ?_ fun free p a p' _ hacts => sound_acts hacts
  rintro c ⟨toolName, arguments, attribution, rfl⟩
  exact sound_begin toolName arguments attribution

/-! ### Harmless runs -/

/-- What harmless actions keep: a call answered with an error has nothing left to write, has written nothing since,
and the client named the Runs it had written. -/
structure Call.Quiet (c : Call F) : Prop where
  rest : ∀ r, .answered r ∈ c.log → r.isError = true → c.worker.rest = []
  named : ∀ r, .answered r ∈ c.log → r.isError = true → ∀ e ∈ c.written, c.Names e
  after : ∀ before r rest, c.log = before ++ .answered r :: rest → r.isError = true → ∀ e, .wrote e ∉ rest

omit [SqliteFloat F] in
/-- A call that has just been answered. -/
theorem Call.Quiet.of_answered {result : CallToolResult F} (hlog : c'.log = c.log ++ [.answered result])
    (hopen : c.Open)
    (h : result.isError = true → c'.worker.rest = [] ∧ ∀ e ∈ c'.written, c'.Names e) : c'.Quiet := by
  have hlast {r : CallToolResult F} (hr : .answered r ∈ c'.log) : r = result := by
    rw [hlog] at hr
    rcases List.mem_append.1 hr with hr | hr
    · exact absurd hr (hopen r)
    · exact Event.answered.inj (List.mem_singleton.1 hr)
  refine ⟨fun r hr herror => (h (hlast hr ▸ herror)).1, fun r hr herror => (h (hlast hr ▸ herror)).2,
    fun before r rest heq _ e => ?_⟩
  rw [hlog] at heq
  rw [eq_nil_of_append_singleton heq (hopen r)]
  exact List.not_mem_nil

omit [SqliteFloat F] in
theorem quiet_begin (toolName : Text) (arguments : Value F) (attribution : List (Text × Value F)) :
    (d.begin toolName arguments attribution).Quiet := by
  have hrejected (name : Text) (fs : List (Text × Value F)) (code : ErrorCode) :
      (⟨name, fs, attribution, .none, [.answered (d.error toolName code none attribution)]⟩ : Call F).Quiet :=
    .of_answered (c := ⟨name, fs, attribution, .none, []⟩) rfl (fun _ => List.not_mem_nil) fun _ => ⟨rfl, by simp [Call.written]⟩
  unfold NativeStewardDispatcher.begin
  split_ifs
  · split
    · split_ifs
      · exact ⟨by simp, by simp, by simp⟩
      · exact hrejected _ _ _
    · exact hrejected _ _ _
  · exact hrejected _ _ _

theorem quiet_acts (h : c.Acts d free a c') (hharmless : Harmless d c a) (hc : c.Quiet) : c'.Quiet := by
  cases h with
  | start h => exact ⟨fun _ _ _ => rfl, hc.named, hc.after⟩
  | enter h hfree session =>
    refine ⟨fun r hr _ => ?_, hc.named, hc.after⟩
    exact hharmless fun hopen => hopen r hr
  | write h =>
    -- an error answer would have left nothing to write
    have hnone (r : CallToolResult F) (hr : .answered r ∈ c.log) (herror : r.isError = true) : False := by
      have hrest := hc.rest r hr herror
      rw [h] at hrest
      cases hrest
    have hold {r : CallToolResult F} {e : Effect} (hr : .answered r ∈ c.log ++ [.wrote e]) : .answered r ∈ c.log := by
      simpa using hr
    refine ⟨fun r hr herror => ?_, fun r hr herror => ?_, fun before r rest heq herror => ?_⟩
    · exact (hnone r (hold hr) herror).elim
    · exact (hnone r (hold hr) herror).elim
    · have hr : .answered r ∈ ((c.withWorker _).record (.wrote _)).log :=
        heq ▸ List.mem_append_right _ (List.mem_cons_self ..)
      exact (hnone r (hold hr) herror).elim
  | leave h => exact ⟨fun _ _ _ => rfl, hc.named, hc.after⟩
  | answer h hopen =>
    refine .of_answered rfl hopen fun herror => ⟨by simp [h, Worker.rest], ?_⟩
    rw [written_record_answered]
    intro e he
    by_contra hnot
    obtain ⟨result, hworker, hpresents⟩ := hharmless ⟨e, he, hnot⟩
    obtain rfl := Worker.ended.inj (h.symm.trans hworker)
    rcases d.answer_cases c.toolName c.attribution (.ok result) with ⟨-, hok⟩ | ⟨hnot, -⟩
    · exact Bool.false_ne_true (hok.symm.trans herror)
    · exact hnot ⟨result, rfl, hpresents⟩
  | expire h hopen =>
    refine .of_answered rfl hopen fun _ => ⟨?_, ?_⟩
    · rw [worker_record, worker_withWorker, rest_abandoned]
      exact hharmless.1
    · rw [written_record_answered]
      exact hharmless.2

theorem quiet_of_reaches (h : d.calls.Reaches (Harmless d) s) : ∀ c ∈ s, c.Quiet := by
  refine h.forall ?_ fun free p a p' hharmless hacts => quiet_acts hacts hharmless
  rintro c ⟨toolName, arguments, attribution, rfl⟩
  exact quiet_begin toolName arguments attribution

section

omit [SqliteFloat F]

theorem Call.Quiet.silent (hc : c.Quiet) : c.Silent :=
  ⟨hc.after, fun r hr herror e he => .inl (hc.named r hr herror e (mem_written.2 he))⟩

theorem not_open_iff : ¬ c.Open ↔ ∃ r, .answered r ∈ c.log := by simp [Call.Open]

/-- A call that is neither open nor a successful update has published no Snapshot. -/
theorem snapshots_of_not_updated (hs : c.Sound) (hq : c.Quiet) (hopen : ¬ c.Open) (hnot : ¬ c.Updated) :
    c.snapshots = [] := by
  obtain ⟨r, hr⟩ := not_open_iff.1 hopen
  have hrecovery (h : c.toolName = recoveryTool) : c.snapshots = [] :=
    List.filter_eq_nil_iff.2 fun e he => by
      simp [(hs.recovers h e (List.mem_append_left _ he)).2]
  by_cases htool : c.toolName = recoveryTool
  · exact hrecovery htool
  · suffices hwritten : c.written = [] by rw [Call.snapshots, hwritten, List.filter_nil]
    by_cases hupdate : c.toolName = updateTool
    · have herror : r.isError = true := by
        by_contra hok
        exact hnot ⟨hupdate, r, hr, by simpa using hok⟩
      exact List.eq_nil_iff_forall_not_mem.2 fun e he => htool (hq.named r hr herror e he).1
    · exact (List.append_eq_nil_iff.1 (hs.reads hupdate htool)).1

theorem length_snapshots_le (hs : c.Sound) : c.snapshots.length ≤ 1 := by
  rw [Call.snapshots, ← List.countP_eq_length_filter]
  have hbound := hs.snapshots
  rw [Call.effects, List.countP_append] at hbound
  omega

end

open Classical in
omit [SqliteFloat F] in
theorem noEffectAfterFailure_of_quiet (h : ∀ c ∈ s, c.Sound ∧ c.Quiet) : NoEffectAfterFailure s := by
  refine ⟨fun c hc _ => (h c hc).2.silent, ?_⟩
  induction s with
  | nil => simp
  | cons c s ih =>
    obtain ⟨⟨hs, hq⟩, hrest⟩ := List.forall_mem_cons.1 h
    have ih := ih hrest
    by_cases hopen : c.Open
    · rw [List.filter_cons_of_neg (by simpa using hopen)]
      exact ih.trans ((List.sublist_cons_self c s).filter _).length_le
    · rw [List.filter_cons_of_pos (by simpa using hopen), List.flatMap_cons, List.length_append]
      by_cases hupdated : c.Updated
      · rw [List.filter_cons_of_pos (by simpa using hupdated), List.length_cons]
        have := length_snapshots_le hs
        omega
      · rw [List.filter_cons_of_neg (by simpa using hupdated), snapshots_of_not_updated hs hq hopen hupdated]
        simpa using ih

/-! ### Runs with a harmful action -/

section

omit [SqliteFloat F]

/-- An error tells the client no identity. -/
theorem not_tells_error (toolName : Text) (code : ErrorCode) (causeCode : Option Text)
    (attribution : List (Text × Value F)) (e : Effect) : ¬ (d.error toolName code causeCode attribution).Tells e := by
  rw [CallToolResult.Tells, NativeStewardDispatcher.result_error]
  exact fun h => by cases h

/-- Only updates and recoveries have effects. -/
theorem Call.Sound.tool {e : Effect} (hs : c.Sound) (he : e ∈ c.effects) :
    c.toolName = updateTool ∨ c.toolName = recoveryTool := by
  by_contra hnot
  rw [not_or] at hnot
  rw [hs.reads hnot.1 hnot.2] at he
  exact List.not_mem_nil he

/-- An error answer to a call that has written a Run the client did not name. -/
theorem not_silent_of_unnamed {r : CallToolResult F} {e : Effect} (hr : .answered r ∈ c.log)
    (herror : ∃ code causeCode, r = d.error c.toolName code causeCode c.attribution) (he : e ∈ c.written)
    (hnamed : ¬ c.Names e) : ¬ c.Silent := by
  obtain ⟨code, causeCode, rfl⟩ := herror
  intro hsilent
  rcases hsilent.told _ hr rfl e (mem_written.1 he) with h | h
  · exact hnamed h
  · exact not_tells_error _ _ _ _ _ h

end

/-- A thread that can still write after an error answer. -/
theorem exists_write {r : CallToolResult F} {e : Effect} {rest : List Effect}
    {outcome : Except Raised (OperationResult F)} (h : c.worker = .holding (e :: rest) outcome)
    (hr : .answered r ∈ c.log) (herror : r.isError = true) :
    ∃ c', c'.toolName = c.toolName ∧ (∀ free, c.Acts d free .write c') ∧ ¬ c'.Silent := by
  refine ⟨(c.withWorker (.holding rest outcome)).record (.wrote e), rfl, fun _ => .write h, fun hsilent => ?_⟩
  obtain ⟨before, after, hlog⟩ := List.append_of_mem hr
  refine hsilent.after before r (after ++ [.wrote e]) ?_ herror e (by simp)
  rw [log_record, log_withWorker, hlog, List.append_assoc, List.cons_append]

/-- Any sequence of steps. -/
def Continues (d : NativeStewardDispatcher F) : List (Call F) → List (Call F) → Prop :=
  Relation.ReflTransGen fun s s' => ∃ l, d.calls.Step s l s'

/-- A harmful action breaks the silence of its call, or the next write of its thread does. -/
theorem exists_not_silent (hs : c.Sound) (h : c.Acts d free a c') (hharm : ¬ Harmless d c a) :
    (c'.toolName = updateTool ∨ c'.toolName = recoveryTool) ∧
      (¬ c'.Silent ∨ ∃ c'', c''.toolName = c'.toolName ∧ (∀ free, c'.Acts d free .write c'') ∧ ¬ c''.Silent) := by
  cases h with
  | start | write | leave => exact absurd trivial hharm
  | enter h hfree session =>
    obtain ⟨hopen, hwrites⟩ := Classical.not_imp.1 hharm
    obtain ⟨r, hr⟩ := not_open_iff.1 hopen
    have herror : r.isError = true := by
      by_contra hok
      obtain ⟨outcome, hended⟩ := hs.ended r hr (by simpa using hok)
      exact absurd (h.symm.trans hended) (by simp)
    obtain ⟨e, rest, hwritten⟩ := List.exists_cons_of_ne_nil hwrites
    refine ⟨?_, .inr (exists_write (worker_withWorker _ |>.trans (by rw [hwritten])) hr herror)⟩
    by_contra hnot
    rw [not_or] at hnot
    exact hwrites (operation_read hnot.1 hnot.2)
  | @answer outcome h hopen =>
    obtain ⟨⟨e, he, hnamed⟩, hnot⟩ := Classical.not_imp.1 hharm
    refine ⟨hs.tool (List.mem_append_left _ he), .inl ?_⟩
    refine not_silent_of_unnamed (d := d) (e := e) (List.mem_append_right _ (List.mem_singleton_self _)) ?_
      (by rwa [written_record_answered]) hnamed
    rcases d.answer_cases c.toolName c.attribution outcome with ⟨⟨result, rfl, hpresents⟩, -⟩ | ⟨-, herror⟩
    · exact absurd ⟨result, h, hpresents⟩ hnot
    · exact herror
  | expire h hopen =>
    by_cases hrest : c.worker.rest = []
    · obtain ⟨e, he, hnamed⟩ : ∃ e ∈ c.written, ¬ c.Names e := by
        by_contra hall
        exact hharm ⟨hrest, fun e he => by_contra fun hnamed => hall ⟨e, he, hnamed⟩⟩
      refine ⟨hs.tool (List.mem_append_left _ he), .inl ?_⟩
      refine not_silent_of_unnamed (d := d) (e := e) (List.mem_append_right _ (List.mem_singleton_self _))
        (NativeStewardDispatcher.caught_eq_error _) ?_ hnamed
      rwa [written_record_answered]
    · obtain ⟨e, rest, outcome, hholding⟩ : ∃ e rest outcome, c.worker = .holding (e :: rest) outcome := by
        cases hworker : c.worker <;> simp_all [Worker.rest]
        exact List.exists_cons_of_ne_nil hrest
      have he : e ∈ c.effects := List.mem_append_right _ (by simp [hholding, Worker.rest])
      have habandoned : c.worker.abandoned = .holding (e :: rest) outcome := by rw [hholding]; rfl
      exact ⟨hs.tool he, .inr (exists_write habandoned (List.mem_append_right _ (List.mem_singleton_self _)) rfl)⟩

/-- Update and recovery calls that are answered with an error have no effect after that and none on a Run the
client cannot identify, and Snapshots do not outnumber successful updates, in every run of harmless actions; any
other action lets the run continue to a state where a call has such an effect. -/
theorem noEffectAfterFailure_of_harmless (d : NativeStewardDispatcher F) :
    (∀ s, d.calls.Reaches (Harmless d) s → NoEffectAfterFailure s) ∧
    ∀ s c a s', d.Reachable s → d.calls.Step s (some (c, a)) s' → ¬ Harmless d c a →
      ∃ s'', Continues d s' s'' ∧ ¬ NoEffectAfterFailure s'' := by
  refine ⟨fun s h => noEffectAfterFailure_of_quiet fun c hc => ⟨sound_of_reaches h c hc, quiet_of_reaches h c hc⟩, ?_⟩
  intro s c a s' hreach hstep hharm
  cases hstep with
  | @act before after c c' a hacts =>
    have hs := sound_of_reaches hreach c (List.mem_append_right _ (List.mem_cons_self ..))
    obtain ⟨htool, hbroken | ⟨c'', hname, hwrite, hbroken⟩⟩ := exists_not_silent hs hacts hharm
    · refine ⟨_, .refl, fun hsafe => hbroken (hsafe.1 c' ?_ htool)⟩
      exact List.mem_append_right _ (List.mem_cons_self ..)
    · refine ⟨before ++ c'' :: after, .single ⟨_, .act before after (hwrite _)⟩, fun hsafe => hbroken (hsafe.1 c'' ?_ ?_)⟩
      · exact List.mem_append_right _ (List.mem_cons_self ..)
      · rwa [hname]

/-! ### An abandoned update -/

/-- A thread under the lock writes what is left. -/
theorem reaches_writes {Admits : Call F → Action F → Prop} (hwrite : ∀ c, Admits c .write) {es : List Effect}
    {outcome : Except Raised (OperationResult F)} {before after : List (Call F)}
    (h : d.calls.Reaches Admits (before ++ c :: after)) (hworker : c.worker = .holding es outcome) :
    d.calls.Reaches Admits
      (before ++ { c with worker := .holding [] outcome, log := c.log ++ es.map .wrote } :: after) := by
  induction es generalizing c with
  | nil =>
    obtain ⟨toolName, arguments, attribution, worker, log⟩ := c
    simp only at hworker
    rw [List.map_nil, List.append_nil, ← hworker]
    exact h
  | cons e es ih =>
    have hstep := h.step (.act before after (.write hworker)) (hwrite c)
    have hrest := ih hstep rfl
    rwa [log_record, log_withWorker, List.append_assoc, List.singleton_append] at hrest

/-- A waiting thread runs its operation when no other thread holds the lock. -/
theorem reaches_operation {Admits : Call F → Action F → Prop} (hwrite : ∀ c, Admits c .write)
    (hleave : ∀ c, Admits c .leave) (before after : List (Call F)) {session : Session F}
    (henter : Admits c (.enter session)) (h : d.calls.Reaches Admits (before ++ c :: after))
    (hworker : c.worker = .waiting) (hfree : ∀ q ∈ before ++ after, ¬ d.calls.Holds q) :
    d.calls.Reaches Admits (before ++
      { c with worker := .ended (c.operation session).outcome,
               log := c.log ++ (c.operation session).written.map .wrote } :: after) := by
  have hentered := h.step (.act before after (.enter hworker hfree session)) henter
  exact (reaches_writes hwrite hentered rfl).step (.act before after (.leave rfl)) (hleave _)

end

/-- A dispatcher whose validators find no error. -/
def plainDispatcher : NativeStewardDispatcher Integral where
  sessionIdentity := []
  authority _ := []
  maxResultBytes := 524288
  inputAdmitted _ _ := true
  outputAdmitted _ _ := true

/-- An acquisition that succeeds. -/
def plainAcquisition : Acquisition Integral where
  admitted := .ok ()
  runId := txt "bd2e7a82-66f8-4fb2-b9c9-6114f880d4e6"
  snapshotId := txt "0b0c6f0a-52c4-4b8e-9d0c-3e6a1c2d4f5b"
  create := .passed
  scanning := .passed
  observe := .passed
  persist := .passed
  close := .passed
  verify := .passed
  verifying := .passed
  verified := .passed
  publish := .passed
  members := []

/-- A session whose acquisitions succeed. -/
def plainSession : Session Integral where
  read _ _ := .error .other
  resolveUpdateScope _ := .ok (txt "EXACT_ID", txt "s")
  selector _ := .error .other
  acquire _ _ := plainAcquisition
  refreshAdmitted _ _ _ _ _ := .ok ()
  refreshMembers _ _ := []
  recover _ := ⟨.error .other, .created, false, .passed, .passed, .passed, .passed, .passed, ⟨[], none, []⟩⟩

/-- An update whose scan may take longer than the deadline. -/
def acquireArguments : Value Integral :=
  .dict [(txt "action", .str (txt "ACQUIRE")),
    (txt "scope", .dict [(txt "policy", .str (txt "EXACT_ID")), (txt "scope_id", .str (txt "s"))]),
    (txt "max_duration_seconds", .int 600)]

/-- The update call, as it arrives. -/
def acquireCall : Call Integral := plainDispatcher.begin updateTool acquireArguments []

/-- What the operation of the call writes, and its result. -/
def acquired : Operation (OperationResult Integral) := acquireCall.operation plainSession

/-- The call after its deadline, when its operation has run. -/
def abandonedCall : Call Integral :=
  { acquireCall with worker := .ended acquired.outcome,
                     log := .answered (plainDispatcher.caught updateTool [] .timeout) :: acquired.written.map .wrote }

/-- The call when its operation has run in time. -/
def completedCall : Call Integral :=
  { acquireCall with worker := .ended acquired.outcome, log := acquired.written.map .wrote }

/-- The result of the operation. -/
def acquiredResult : OperationResult Integral where
  result := [(txt "acquisition", reportValue ⟨plainAcquisition.runId, some plainAcquisition.snapshotId, []⟩),
    createdIdentity ⟨plainAcquisition.runId, some plainAcquisition.snapshotId, []⟩]
  selection := [.dict [(txt "object_kind", .str (txt "SCOPE")), (txt "policy", .str (txt "EXACT_ID")),
    (txt "scope_id", .str (txt "s"))]]
  images := []

theorem presents_acquired : plainDispatcher.Presents updateTool [] acquiredResult := by
  unfold NativeStewardDispatcher.Presents
  decide +kernel

theorem arrives_acquireCall : plainDispatcher.calls.Arrives acquireCall := ⟨updateTool, acquireArguments, [], rfl⟩

theorem open_completedCall : completedCall.Open := fun r hr => by simp [completedCall] at hr

/-- An update whose deadline expires while it waits for the lock publishes its Snapshot later; the client repeats
the update, and its one successful answer leaves two Snapshots. -/
theorem abandoned_update_publishes : ∃ s, plainDispatcher.Reachable s ∧
    (s.flatMap Call.answers).map (fun r => r.isError) = [true, false] ∧ (s.flatMap Call.snapshots).length = 2 ∧
    ¬ NoEffectAfterFailure s := by
  -- the first update waits for the lock until its deadline, and runs then
  have hpending : plainDispatcher.Reachable [acquireCall] :=
    Threads.Reaches.nil.step (.arrive [] arrives_acquireCall) trivial
  have hwaiting : plainDispatcher.Reachable [acquireCall.withWorker .waiting] :=
    hpending.step (.act [] [] (.start rfl)) trivial
  have hexpired := hwaiting.step (.act [] [] (.expire nofun nofun)) trivial
  have habandoned : plainDispatcher.Reachable [abandonedCall] :=
    reaches_operation (fun _ => trivial) (fun _ => trivial) [] [] trivial hexpired rfl nofun
  -- the client repeats it
  have hrepeated : plainDispatcher.Reachable [abandonedCall, acquireCall] :=
    habandoned.step (.arrive [abandonedCall] arrives_acquireCall) trivial
  have hrestarted : plainDispatcher.Reachable [abandonedCall, acquireCall.withWorker .waiting] :=
    hrepeated.step (.act [abandonedCall] [] (.start rfl)) trivial
  have hfree : ∀ q ∈ [abandonedCall] ++ [], ¬ plainDispatcher.calls.Holds q := by
    rintro q hq ⟨rest, outcome, hholding⟩
    obtain rfl := List.mem_singleton.1 hq
    cases hholding
  have hcompleted : plainDispatcher.Reachable [abandonedCall, completedCall] :=
    reaches_operation (c := acquireCall.withWorker .waiting) (fun _ => trivial) (fun _ => trivial) [abandonedCall] []
      trivial hrestarted rfl hfree
  have hanswered := hcompleted.step (.act [abandonedCall] [] (.answer rfl open_completedCall)) trivial
  have hok : (plainDispatcher.answer updateTool [] (.ok acquiredResult)).isError = false := by
    rcases plainDispatcher.answer_cases updateTool [] (.ok acquiredResult) with ⟨-, hok⟩ | ⟨hnot, -⟩
    · exact hok
    · exact absurd ⟨acquiredResult, rfl, presents_acquired⟩ hnot
  refine ⟨_, hanswered, ?_, by decide, fun hsafe => ?_⟩
  · change [_, (plainDispatcher.answer updateTool [] (.ok acquiredResult)).isError] = _
    rw [hok]
    rfl
  · have hsilent := hsafe.1 abandonedCall (List.mem_cons_self ..) (.inl rfl)
    have hwrote : .wrote (.run plainAcquisition.runId) ∈ acquired.written.map (Event.wrote (F := Integral)) := by
      refine List.mem_map.2 ⟨_, ?_, rfl⟩
      decide
    exact hsilent.after [] _ _ rfl rfl _ hwrote

/-- The update that ends in time, and the abandoned one that gets the lock. -/
theorem noEffectAfterFailure_of_harmless_acquire :
    NoEffectAfterFailure [completedCall.record (.answered (plainDispatcher.answer updateTool [] acquired.outcome))] ∧
    ∃ s, Continues plainDispatcher [{ acquireCall with
      worker := .holding acquired.written acquired.outcome,
      log := [.answered (plainDispatcher.caught updateTool [] .timeout)] }] s ∧ ¬ NoEffectAfterFailure s := by
  obtain ⟨hharmless, hharmful⟩ := noEffectAfterFailure_of_harmless plainDispatcher
  constructor
  · have hwaiting : plainDispatcher.calls.Reaches (Harmless plainDispatcher) [acquireCall.withWorker .waiting] :=
      (Threads.Reaches.nil.step (.arrive [] arrives_acquireCall) trivial).step (.act [] [] (.start rfl)) trivial
    have hcompleted : plainDispatcher.calls.Reaches (Harmless plainDispatcher) [completedCall] :=
      reaches_operation (c := acquireCall.withWorker .waiting) (fun _ => trivial) (fun _ => trivial) [] []
        (fun hopen => absurd nofun hopen) hwaiting rfl nofun
    refine hharmless _ (hcompleted.step (.act [] [] (.answer rfl open_completedCall)) fun _ => ?_)
    exact ⟨acquiredResult, rfl, presents_acquired⟩
  · have hwaiting : plainDispatcher.Reachable [acquireCall.withWorker .waiting] :=
      (Threads.Reaches.nil.step (.arrive [] arrives_acquireCall) trivial).step (.act [] [] (.start rfl)) trivial
    have hexpired := hwaiting.step (.act [] [] (.expire nofun nofun)) trivial
    refine hharmful _ _ _ _ hexpired (.act [] [] (.enter rfl nofun plainSession)) fun hnone => ?_
    have hwrites : acquired.written ≠ [] := by decide
    exact hwrites (hnone fun hopen => hopen _ (List.mem_singleton_self _))

end Steward.Native
