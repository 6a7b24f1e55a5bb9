import Steward.Agent.Runtime
import Steward.Py.Trace

/-!
# The accounts of the agent loop

Whatever the model, the tools and the budget do, every event of a turn is
justified by those before it: the model is asked with exactly one result for
every call of the batches admitted so far, a batch is admitted when all its calls
have passed the preflight, and a call is dispatched once, out of an admitted
batch. The accounts bound the model calls and the dispatched calls, over all the
turns that share them.
-/

namespace Steward.Agent

open Py Sqlite Stateful Act

variable {F σ : Type} [SqliteFloat F]

/-! ## What justifies an event -/

/-- The batches admitted so far. -/
def batches (log : List (Event F)) : List (List (ModelToolCall F)) :=
  log.filterMap fun
    | .admitted calls => some calls
    | _ => none

/-- Successes, and then nothing or one error followed by calls that were not executed. -/
def Shape (dispositions : List Disposition) : Prop :=
  ∃ n rest, dispositions = List.replicate n .success ++ rest ∧
    (rest = [] ∨ ∃ m, rest = .error :: List.replicate m .notExecuted)

/-- The item answers the calls of one batch, each once and in order. -/
def Answers (calls : List (ModelToolCall F)) : ModelConversationItem F → Prop
  | .toolResult message => calls = [message.toolCall] ∧ Shape [message.disposition]
  | .batchResult results _ toolCalls => toolCalls = calls ∧
      results.map ModelToolResultMessage.toolCall = calls ∧
      Shape (results.map ModelToolResultMessage.disposition)
  | .system _ | .user _ => False

/-- The conversation is its opening and one answer for each batch. -/
def Answered (opening : List (ModelConversationItem F)) (admitted : List (List (ModelToolCall F)))
    (messages : List (ModelConversationItem F)) : Prop :=
  ∃ items, messages = opening ++ items ∧ List.Forall₂ Answers admitted items

/-- The call names a registered read-only tool whose schema it satisfies and whose own
preflight returned. -/
def Admissible (host : Host F σ) (registry : ToolRegistry F σ) (call : ModelToolCall F) : Prop :=
  ∃ tool ∈ registry.tools, tool.name = call.name ∧ tool.readOnly = true ∧
    host.validate tool.inputSchema call.arguments = .passes ∧
    ∀ preflight ∈ tool.preflight, ∃ env, (preflight call.arguments env).1 = .ok ()

/-- What has to come before an event of a turn. -/
def Justified (host : Host F σ) (registry : ToolRegistry F σ)
    (opening : List (ModelConversationItem F)) (before : List (Event F)) : Event F → Prop
  | .asked messages | .continued messages => Answered opening (batches before) messages
  | .passed call => Admissible host registry call
  | .admitted calls => 1 ≤ calls.length ∧ ∀ call ∈ calls, .passed call ∈ before
  | .dispatched call => (∃ calls, .admitted calls ∈ before ∧ call ∈ calls) ∧
      ∃ signature, signatureOf call = .ok signature ∧
        ∀ earlier, .dispatched earlier ∈ before → signatureOf earlier ≠ .ok signature

def isAsked : Event F → Bool
  | .asked _ => true
  | _ => false

def isDispatched : Event F → Bool
  | .dispatched _ => true
  | _ => false

/-! ## What every step keeps -/

section Kept

variable {host : Host F σ} {registry : ToolRegistry F σ} {limits : Limits}
  {opening : List (ModelConversationItem F)} {base : Usage}

/-- The accounts cover what happened since they were `base`, and every event is justified. -/
structure Kept (host : Host F σ) (registry : ToolRegistry F σ) (limits : Limits)
    (opening : List (ModelConversationItem F)) (base : Usage) (t : Turn F σ) : Prop where
  reachable : Usage.Reachable F limits t.usage
  asked : base.modelCallsUsed + t.log.countP isAsked ≤ t.usage.modelCallsUsed
  dispatched : base.totalToolCallsUsed + t.log.countP isDispatched ≤ t.usage.totalToolCallsUsed
  signed : ∀ call, .dispatched call ∈ t.log → ∃ s ∈ t.signatures, signatureOf call = .ok s
  justified : Always (Justified host registry opening) t.log

/-- `Kept`, with the signatures and the log as they are. -/
def At (host : Host F σ) (registry : ToolRegistry F σ) (limits : Limits)
    (opening : List (ModelConversationItem F)) (base : Usage) (signatures : List Signature)
    (log : List (Event F)) (t : Turn F σ) : Prop :=
  Kept host registry limits opening base t ∧ t.signatures = signatures ∧ t.log = log

variable {signatures : List Signature} {log : List (Event F)}

theorem triple_inject {α : Type} (f : Injected σ α) :
    Triple (At host registry limits opening base signatures log) (inject f)
      (fun _ => At host registry limits opening base signatures log)
      (fun _ => At host registry limits opening base signatures log) := by
  intro t ht
  have hkept : At host registry limits opening base signatures log { t with env := (f t.env).2 } :=
    ⟨⟨ht.1.reachable, ht.1.asked, ht.1.dispatched, ht.1.signed, ht.1.justified⟩, ht.2⟩
  unfold inject
  split
  · next h => rw [← (Prod.mk.inj h).2]; exact hkept
  · next h => rw [← (Prod.mk.inj h).2]; exact hkept

theorem triple_clock {E : Raised → Turn F σ → Prop} :
    Triple (At host registry limits opening base signatures log) (clock host)
      (fun _ => At host registry limits opening base signatures log) E := fun _ ht =>
  ⟨⟨ht.1.reachable, ht.1.asked, ht.1.dispatched, ht.1.signed, ht.1.justified⟩, ht.2⟩

theorem triple_record {step : σ → Step F σ} {E : Raised → Turn F σ → Prop} :
    Triple (At host registry limits opening base signatures log) (record step)
      (fun _ => At host registry limits opening base signatures log) E :=
  Triple.modify fun _ ht =>
    ⟨⟨ht.1.reachable, ht.1.asked, ht.1.dispatched, ht.1.signed, ht.1.justified⟩, ht.2⟩

/-- An event that is neither a question nor a dispatch is noted. -/
theorem triple_note {e : Event F} {E : Raised → Turn F σ → Prop} (hasked : isAsked e = false)
    (hdispatched : isDispatched e = false) (he : Justified host registry opening log e) :
    Triple (At host registry limits opening base signatures log) (note e : Act F σ Unit)
      (fun _ => At host registry limits opening base signatures (log ++ [e])) E := by
  refine Triple.modify fun t ⟨hkept, hsig, hlog⟩ => ⟨?_, hsig, by simp [hlog]⟩
  subst hlog
  refine ⟨hkept.reachable, ?_, ?_, fun call hcall => ?_, hkept.justified.concat he⟩
  · simpa [hasked] using hkept.asked
  · simpa [hdispatched] using hkept.dispatched
  · rcases List.mem_append.1 hcall with hcall | hcall
    · exact hkept.signed call hcall
    · rw [← List.mem_singleton.1 hcall] at hdispatched
      cases hdispatched

/-- `At` alone, after an exception. -/
def AtLeast (host : Host F σ) (registry : ToolRegistry F σ) (limits : Limits)
    (opening : List (ModelConversationItem F)) (base : Usage) (log : List (Event F))
    (_ : Raised) (t : Turn F σ) : Prop :=
  Kept host registry limits opening base t ∧ batches t.log = batches log

theorem At.atLeast {t : Turn F σ} {e : Raised}
    (h : At host registry limits opening base signatures log t) :
    AtLeast host registry limits opening base log e t := ⟨h.1, by rw [h.2.2]⟩

theorem triple_runPreflight (tool : RuntimeTool F σ) (arguments : List (Text × Value F)) :
    Triple (At host registry limits opening base signatures log) (runPreflight tool arguments)
      (fun _ t => At host registry limits opening base signatures log t ∧
        ∀ preflight ∈ tool.preflight, ∃ env, (preflight arguments env).1 = .ok ())
      (AtLeast host registry limits opening base log) := by
  unfold runPreflight
  cases hp : tool.preflight with
  | none => exact Triple.pure fun t ht => ⟨ht, by simp⟩
  | some preflight =>
    -- what the injected function returned is looked at outside the state
    intro t ht
    have hrule : Triple (At host registry limits opening base signatures log) _ _ _ :=
      triple_inject (preflight arguments)
    have hinject := hrule t ht
    simp only [bind_run, attempt_run]
    cases hr : (inject (preflight arguments) : Act F σ Unit) t with
    | mk r t' =>
      rw [hr] at hinject
      have hfst : (preflight arguments t.env).1 = r := congrArg Prod.fst hr
      cases r with
      | ok u =>
        exact ⟨hinject, fun p hp => ⟨t.env, by rw [← Option.mem_some.1 hp]; exact hfst⟩⟩
      | error e => cases e <;> exact At.atLeast hinject

theorem triple_reservationOf (tool : RuntimeTool F σ) (arguments : List (Text × Value F)) :
    Triple (At host registry limits opening base signatures log) (reservationOf tool arguments)
      (fun _ => At host registry limits opening base signatures log)
      (AtLeast host registry limits opening base log) := by
  unfold reservationOf
  refine Triple.bind (Q := fun _ => At host registry limits opening base signatures log) ?_ fun value => ?_
  · unfold reservationValue
    cases tool.contentReservation with
    | none => exact Triple.pure fun _ ht => ht
    | some reserve =>
      exact (triple_inject _).conseq (fun _ h => h) (fun _ _ h => h) fun _ _ h => h.atLeast
  · cases value with
    | none => exact Triple.raise fun _ ht => ht.atLeast
    | some n =>
      simp only
      split_ifs
      · exact Triple.raise fun _ ht => ht.atLeast
      · exact Triple.pure fun _ ht => ht

omit [SqliteFloat F] in
theorem find_mem {name : Text} {tool : RuntimeTool F σ} (h : registry.find name = some tool) :
    tool ∈ registry.tools ∧ tool.name = name :=
  ⟨List.mem_of_find?_eq_some h, by simpa using List.find?_some h⟩

theorem triple_preflightCall (batch : List Signature) (call : ModelToolCall F) :
    Triple (At host registry limits opening base signatures log)
      (preflightCall host registry batch call)
      (fun checked t =>
        At host registry limits opening base signatures (log ++ [.passed call]) t ∧
          signatureOf call = .ok checked.signature ∧ checked.signature ∉ signatures ∧
          checked.signature ∉ batch)
      (AtLeast host registry limits opening base log) := by
  unfold preflightCall
  refine Triple.bind (Q := fun t' t => At host registry limits opening base signatures log t ∧
    t'.signatures = signatures) (Triple.get fun _ ht => ⟨ht, ht.2.1⟩) fun t' => ?_
  refine Triple.assume fun hsigs => ?_
  refine Triple.bind triple_record fun _ => ?_
  refine Triple.bind (Q := fun signature t =>
    At host registry limits opening base signatures log t ∧ signatureOf call = .ok signature)
    (Triple.lift (fun _ _ h ht => ⟨ht, h⟩) fun _ _ _ ht => ht.atLeast) fun signature => ?_
  refine Triple.assume fun hsig => ?_
  rw [hsigs]
  by_cases hdup : signature ∈ signatures ∨ signature ∈ batch
  · rw [if_pos hdup]
    exact Triple.raise fun _ ht => ht.atLeast
  rw [if_neg hdup]
  cases hfind : registry.find call.name with
  | none => exact Triple.raise fun _ ht => ht.atLeast
  | some tool =>
    by_cases hread : tool.readOnly = false
    · simp only [hread, if_true]
      exact Triple.raise fun _ ht => ht.atLeast
    simp only [if_neg hread]
    cases hvalid : host.validate tool.inputSchema call.arguments with
    | raises e => exact Triple.raise fun _ ht => ht.atLeast
    | fails => exact Triple.raise fun _ ht => ht.atLeast
    | passes =>
      rw [not_or] at hdup
      obtain ⟨hmem, hname⟩ := find_mem hfind
      refine Triple.bind (triple_runPreflight tool call.arguments) fun _ => ?_
      refine Triple.assume fun hpreflight => ?_
      have hadmissible : Admissible host registry call :=
        ⟨tool, hmem, hname, by simpa using hread, hvalid, hpreflight⟩
      refine Triple.bind (triple_reservationOf tool call.arguments) fun reservation => ?_
      refine Triple.bind (triple_note (e := Event.passed call) rfl rfl hadmissible) fun _ => ?_
      exact Triple.pure fun t ht => ⟨ht, hsig, hdup.1, hdup.2⟩

section

omit [SqliteFloat F]

@[simp] theorem batches_append (log log' : List (Event F)) :
    batches (log ++ log') = batches log ++ batches log' := by simp [batches, List.filterMap_append]

@[simp] theorem batches_passed (calls : List (ModelToolCall F)) :
    batches (calls.map Event.passed) = [] := by
  induction calls with
  | nil => rfl
  | cons call calls ih => exact ih

@[simp] theorem batches_admitted (calls : List (ModelToolCall F)) :
    batches [Event.admitted calls] = [calls] := rfl

@[simp] theorem batches_dispatched (call : ModelToolCall F) :
    batches [Event.dispatched call] = [] := rfl

@[simp] theorem batches_asked (messages : List (ModelConversationItem F)) :
    batches [Event.asked messages] = [] := rfl

@[simp] theorem batches_continued (messages : List (ModelConversationItem F)) :
    batches [Event.continued messages] = [] := rfl

end

/-- The calls have signatures of their own, none of them used before. -/
def Fresh (signatures : List Signature) (calls : List (ModelToolCall F)) : Prop :=
  ∃ ss : List Signature, calls.map signatureOf = ss.map .ok ∧ ss.Nodup ∧ ∀ s ∈ ss, s ∉ signatures

theorem triple_preflightCalls (batch : List Signature) (calls : List (ModelToolCall F)) :
    Triple (At host registry limits opening base signatures log)
      (preflightCalls host registry batch calls)
      (fun checked t => At host registry limits opening base signatures (log ++ calls.map .passed) t ∧
        checked.length = calls.length ∧ Fresh (signatures ++ batch) calls)
      (AtLeast host registry limits opening base log) := by
  induction calls generalizing batch log with
  | nil =>
    exact Triple.pure fun t ht => ⟨by simpa using ht, rfl, [], rfl, List.nodup_nil, by simp⟩
  | cons call calls ih =>
    unfold preflightCalls
    refine Triple.bind (triple_preflightCall batch call) fun checked => ?_
    refine Triple.assume fun ⟨hsig, hused, hbatch⟩ => ?_
    have hrest : Triple (At host registry limits opening base signatures (log ++ [.passed call]))
      _ _ _ := ih (batch ++ [checked.signature])
    have hsame : batches (log ++ [Event.passed call]) = batches log := by
      rw [batches_append]
      exact List.append_nil _
    refine Triple.bind (hrest.conseq (fun _ h => h) (fun _ _ h => h)
      fun _ _ h => ⟨h.1, h.2.trans hsame⟩) fun others => Triple.pure ?_
    rintro t ⟨ht, hlen, ss, hss, hnodup, hfresh⟩
    refine ⟨by simpa using ht, by simp [hlen], checked.signature :: ss, by simp [hsig, hss], ?_, ?_⟩
    · exact List.nodup_cons.2 ⟨fun h => hfresh _ h (by simp), hnodup⟩
    · intro s hs
      rcases List.mem_cons.1 hs with rfl | hs
      · simp [hused, hbatch]
      · have := hfresh s hs
        simp only [List.mem_append, not_or] at this ⊢
        exact ⟨this.1, this.2.1⟩

/-- Charging the accounts, when the operation keeps the counts of calls. -/
theorem triple_charge {op : Usage → Except Raised Usage}
    (hop : ∀ u v, op u = .ok v → Usage.Reachable F limits u → Usage.Reachable F limits v ∧
      v.modelCallsUsed = u.modelCallsUsed ∧ v.totalToolCallsUsed = u.totalToolCallsUsed) :
    Triple (At host registry limits opening base signatures log) (charge op)
      (fun _ => At host registry limits opening base signatures log)
      (fun _ => At host registry limits opening base signatures log) := by
  intro t ht
  unfold charge
  cases h : op t.usage with
  | error e => exact ht
  | ok v =>
    obtain ⟨hreach, hmodel, htotal⟩ := hop _ _ h ht.1.reachable
    exact ⟨⟨hreach, hmodel ▸ ht.1.asked, htotal ▸ ht.1.dispatched, ht.1.signed, ht.1.justified⟩, ht.2⟩

theorem triple_preflightBatch (calls : List (ModelToolCall F)) :
    Triple (At host registry limits opening base signatures log)
      (preflightBatch host registry limits calls)
      (fun sources t => At host registry limits opening base signatures
          (log ++ calls.map .passed ++ [.admitted calls]) t ∧
        sources.length = calls.length ∧ Fresh signatures calls)
      (AtLeast host registry limits opening base log) := by
  unfold preflightBatch
  by_cases hsize : ¬ (1 ≤ calls.length ∧ calls.length ≤ 3)
  · rw [if_pos hsize]
    exact Triple.raise fun _ ht => ht.atLeast
  rw [if_neg hsize]
  refine Triple.bind (triple_preflightCalls [] calls) fun checked => ?_
  refine Triple.assume fun ⟨hlen, hfresh⟩ => ?_
  rw [List.append_nil] at hfresh
  have hpassed : ∀ {t : Turn F σ} {e : Raised},
      At host registry limits opening base signatures (log ++ calls.map .passed) t →
      AtLeast host registry limits opening base log e t :=
    fun h => ⟨h.1, by rw [h.2.2, batches_append, batches_passed, List.append_nil]⟩
  refine Triple.bind (Triple.get fun _ ht => ht) fun now => ?_
  simp only
  split_ifs
  · exact Triple.raise fun _ => hpassed
  · exact Triple.raise fun _ => hpassed
  · exact Triple.raise fun _ => hpassed
  · have hcharge : Triple
        (At host registry limits opening base signatures (log ++ calls.map .passed))
        (charge (Usage.reserveContentBatch limits · ((checked.map Checked.reservation).filter (· ≠ 0))))
        _ _ :=
      triple_charge fun u v h hu => ⟨hu.reserve _ h, by rw [(reserveContentBatch_ok h).1],
        by rw [(reserveContentBatch_ok h).1]⟩
    refine Triple.bind (hcharge.conseq (fun _ h => h) (fun _ _ h => h) fun _ _ => hpassed) fun _ => ?_
    have hjust : Justified host registry opening (log ++ calls.map .passed) (.admitted calls) :=
      ⟨(not_not.1 hsize).1, fun call hcall =>
        List.mem_append_right _ (List.mem_map_of_mem hcall)⟩
    refine Triple.bind (triple_note (e := Event.admitted calls) rfl rfl hjust) fun _ => ?_
    exact Triple.pure fun t ht => ⟨ht, by simp [hlen], hfresh⟩

/-! ## The execution of a batch -/

/-- `At`, with a tool call admitted that is not dispatched yet. -/
def Due (host : Host F σ) (registry : ToolRegistry F σ) (limits : Limits)
    (opening : List (ModelConversationItem F)) (base : Usage) (signatures : List Signature)
    (log : List (Event F)) (t : Turn F σ) : Prop :=
  At host registry limits opening base signatures log t ∧
    base.totalToolCallsUsed + log.countP isDispatched < t.usage.totalToolCallsUsed

theorem triple_admitToolCall (source : SourceFamily) :
    Triple (At host registry limits opening base signatures log)
      (charge (Usage.admitToolCall limits · source))
      (fun _ => Due host registry limits opening base signatures log)
      (AtLeast host registry limits opening base log) := by
  intro t ht
  simp only [charge]
  cases h : t.usage.admitToolCall limits source with
  | error e => exact ht.atLeast
  | ok v =>
    obtain ⟨hkept, hsig, rfl⟩ := ht
    obtain ⟨-, htotal, -, hmodel, -, -⟩ := admitToolCall_ok h
    have hcount := hkept.dispatched
    refine ⟨⟨⟨hkept.reachable.tool source h, hmodel ▸ hkept.asked, ?_, hkept.signed,
      hkept.justified⟩, hsig, rfl⟩, ?_⟩
    · show base.totalToolCallsUsed + t.log.countP isDispatched ≤ v.totalToolCallsUsed
      omega
    · show base.totalToolCallsUsed + t.log.countP isDispatched < v.totalToolCallsUsed
      omega

/-- A call is dispatched on the charge that waits for it. -/
theorem triple_noteDispatched {call : ModelToolCall F} {signature : Signature}
    {E : Raised → Turn F σ → Prop} (hmem : signature ∈ signatures)
    (hsig : signatureOf call = .ok signature)
    (hjust : Justified host registry opening log (.dispatched call)) :
    Triple (Due host registry limits opening base signatures log)
      (note (.dispatched call) : Act F σ Unit)
      (fun _ => At host registry limits opening base signatures (log ++ [.dispatched call])) E := by
  refine Triple.modify fun t ⟨⟨hkept, hsigs, hlog⟩, hdue⟩ => ⟨?_, hsigs, by simp [hlog]⟩
  subst hlog hsigs
  refine ⟨hkept.reachable, ?_, ?_, fun other hother => ?_, hkept.justified.concat hjust⟩
  · simpa [isAsked] using hkept.asked
  · simp only [List.countP_append, List.countP_singleton, isDispatched, if_true]
    omega
  · rcases List.mem_append.1 hother with hother | hother
    · exact hkept.signed other hother
    · obtain rfl : other = call := by simpa using hother
      exact ⟨signature, hmem, hsig⟩

theorem triple_dispatch {call : ModelToolCall F} {signature : Signature}
    (hmem : signature ∈ signatures) (hsig : signatureOf call = .ok signature)
    (hjust : Justified host registry opening log (.dispatched call)) :
    Triple (Due host registry limits opening base signatures log) (dispatch host registry call)
      (fun _ => At host registry limits opening base signatures (log ++ [.dispatched call]))
      (AtLeast host registry limits opening base log) := by
  have hweak : ∀ {t : Turn F σ} {e : Raised},
      At host registry limits opening base signatures (log ++ [.dispatched call]) t →
      AtLeast host registry limits opening base log e t :=
    fun h => ⟨h.1, by rw [h.2.2, batches_append, batches_dispatched, List.append_nil]⟩
  unfold dispatch
  refine Triple.bind (triple_noteDispatched hmem hsig hjust) fun _ => ?_
  cases registry.find call.name with
  | none => exact Triple.raise fun _ => hweak
  | some tool =>
    cases hvalid : host.validate tool.inputSchema call.arguments with
    | raises e => simp only [hvalid]; exact Triple.raise fun _ => hweak
    | fails => simp only [hvalid]; exact Triple.raise fun _ => hweak
    | passes =>
      simp only [hvalid]
      refine Triple.bind triple_record fun _ => ?_
      refine Triple.bind ((triple_inject _).attempt _) fun returned => ?_
      cases returned with
      | error e => cases e <;> exact Triple.raise fun _ => hweak
      | ok returned =>
        cases returned with
        | foreign => exact Triple.raise fun _ => hweak
        | record =>
          simp only
          split_ifs
          · exact Triple.raise fun _ => hweak
          · exact Triple.pure fun _ ht => ht

/-- A rule for each state is a rule for all. -/
theorem triple_at {α : Type} {P : Turn F σ → Prop} {x : Act F σ α} {Q : α → Turn F σ → Prop}
    {E : Raised → Turn F σ → Prop}
    (hP : ∀ t, P t → Kept host registry limits opening base t)
    (h : ∀ t, P t → Triple (At host registry limits opening base t.signatures t.log) x Q E) :
    Triple P x Q E := fun t ht => h t ht t ⟨hP t ht, rfl, rfl⟩

theorem triple_executeCall {calls : List (ModelToolCall F)} {call : ModelToolCall F}
    (source : SourceFamily) {signature : Signature} (hadmitted : .admitted calls ∈ log)
    (hcall : call ∈ calls) (hsig : signatureOf call = .ok signature) (hnew : signature ∉ signatures) :
    Triple (At host registry limits opening base signatures log)
      (executeCall host registry limits call source)
      (fun _ => At host registry limits opening base (signatures ++ [signature])
        (log ++ [.dispatched call]))
      (AtLeast host registry limits opening base log) := by
  -- every call dispatched before has a signature of the turn, which this one has not
  refine triple_at (fun _ ht => ht.1) fun t₀ ht₀ => ?_
  have hjust : Justified host registry opening log (.dispatched call) := by
    refine ⟨⟨calls, hadmitted, hcall⟩, signature, hsig, fun earlier hearlier heq => ?_⟩
    obtain ⟨hkept, hsigs, hlog⟩ := ht₀
    obtain ⟨s, hs, hs'⟩ := hkept.signed earlier (hlog ▸ hearlier)
    rw [heq] at hs'
    exact hnew (hsigs ▸ Except.ok.inj hs' ▸ hs)
  rw [ht₀.2.1, ht₀.2.2]
  unfold executeCall
  refine Triple.bind (triple_admitToolCall source) fun _ => ?_
  refine Triple.bind (Q := fun s t => Due host registry limits opening base signatures log t ∧
    s = signature) (Triple.lift (fun s t h ht => ⟨ht, by rw [hsig] at h; exact (Except.ok.inj h).symm⟩)
    fun e t h ht => ht.1.atLeast) fun s => ?_
  refine Triple.assume fun hs => ?_
  rw [hs]
  refine Triple.bind (Q := fun _ => Due host registry limits opening base
    (signatures ++ [signature]) log) (Triple.modify fun t ⟨⟨hkept, hsigs, hlog⟩, hdue⟩ => ?_)
    fun _ => ?_
  · refine ⟨⟨⟨hkept.reachable, hkept.asked, hkept.dispatched, fun call hcall => ?_,
      hkept.justified⟩, by rw [hsigs], hlog⟩, hdue⟩
    obtain ⟨s, hs, heq⟩ := hkept.signed call hcall
    exact ⟨s, List.mem_append_left _ hs, heq⟩
  have hclock : ∀ E : Raised → Turn F σ → Prop, Triple (Due host registry limits opening base
      (signatures ++ [signature]) log) (clock host) (fun _ => Due host registry limits opening base
      (signatures ++ [signature]) log) E := fun E t ht => ⟨triple_clock (E := E) t ht.1, ht.2⟩
  refine Triple.bind (hclock _) fun started => ?_
  refine Triple.bind (triple_dispatch (by simp) hsig hjust) fun dispatched => ?_
  have hweak : ∀ {t : Turn F σ} {e : Raised}, At host registry limits opening base
      (signatures ++ [signature]) (log ++ [.dispatched call]) t →
      AtLeast host registry limits opening base log e t :=
    fun h => ⟨h.1, by rw [h.2.2, batches_append, batches_dispatched, List.append_nil]⟩
  refine Triple.bind triple_clock fun ended => ?_
  refine Triple.bind (Triple.lift (fun _ _ _ ht => ht) fun _ _ _ => hweak) fun result => ?_
  refine Triple.bind (Q := fun _ => At host registry limits opening base
    (signatures ++ [signature]) (log ++ [.dispatched call])) ?_ fun _ => Triple.pure fun _ ht => ht
  refine (triple_charge fun u v h hu => ⟨hu.record result h, ?_, ?_⟩).conseq (fun _ h => h)
    (fun _ _ h => h) fun _ _ => hweak
  · exact (recordResult_ok h).1
  · exact (recordResult_ok h).2.1

theorem Shape.success_cons {dispositions : List Disposition} (h : Shape dispositions) :
    Shape (.success :: dispositions) := by
  obtain ⟨n, rest, rfl, hrest⟩ := h
  exact ⟨n + 1, rest, by rw [List.replicate_succ, List.cons_append], hrest⟩

/-- The new results of a batch answer its calls. -/
def Completed (calls : List (ModelToolCall F)) (results : List (ModelToolResultMessage F)) :
    Executed F → Prop
  | .failed _ _ => True
  | .answered results' _ => ∃ new, results' = results ++ new ∧
      new.map ModelToolResultMessage.toolCall = calls ∧
      Shape (new.map ModelToolResultMessage.disposition)

theorem triple_executeBatch {calls : List (ModelToolCall F)} (hadmitted : .admitted calls ∈ log)
    (pairs : List (ModelToolCall F × SourceFamily)) (hsub : ∀ pair ∈ pairs, pair.1 ∈ calls)
    (hfresh : Fresh signatures (pairs.map Prod.fst)) (results : List (ModelToolResultMessage F))
    (traces : List (ToolTrace F)) :
    Triple (At host registry limits opening base signatures log)
      (executeBatch host registry limits pairs results traces)
      (fun executed t => AtLeast host registry limits opening base log (.other []) t ∧
        Completed (pairs.map Prod.fst) results executed)
      (AtLeast host registry limits opening base log) := by
  induction pairs generalizing signatures log results traces with
  | nil =>
    refine Triple.pure fun t ht => ⟨ht.atLeast, [], by simp, rfl, 0, [], rfl, .inl rfl⟩
  | cons pair rest ih =>
    obtain ⟨call, source⟩ := pair
    obtain ⟨ss, hss, hnodup, hnew⟩ := hfresh
    cases ss with
    | nil => simp at hss
    | cons signature ss =>
    obtain ⟨hsig, hss⟩ := List.cons.inj hss
    unfold executeBatch
    refine Triple.bind ((triple_executeCall source hadmitted (hsub _ List.mem_cons_self) hsig
      (hnew _ List.mem_cons_self)).attempt _) fun returned => ?_
    cases returned with
    | ok result =>
      have hrest : Fresh (signatures ++ [signature]) (rest.map Prod.fst) := by
        refine ⟨ss, hss, (List.nodup_cons.1 hnodup).2, fun s hs => ?_⟩
        have hne : s ≠ signature := fun h => (List.nodup_cons.1 hnodup).1 (h ▸ hs)
        simp [hnew s (List.mem_cons_of_mem _ hs), hne]
      have hsame : batches (log ++ [Event.dispatched call]) = batches log := by
        rw [batches_append, batches_dispatched, List.append_nil]
      refine (ih (List.mem_append_left _ hadmitted)
        (fun pair hpair => hsub pair (List.mem_cons_of_mem _ hpair)) hrest _ _).conseq
        (fun _ h => h) ?_ fun _ _ h => ⟨h.1, h.2.trans hsame⟩
      rintro executed t ⟨⟨hkept, hbatches⟩, hcompleted⟩
      refine ⟨⟨hkept, hbatches.trans hsame⟩, ?_⟩
      cases executed with
      | failed code traces => trivial
      | answered results' traces =>
        obtain ⟨new, rfl, hcalls, hshape⟩ := hcompleted
        exact ⟨⟨call, toolMessage result, none, .success⟩ :: new, by simp, by simp [hcalls],
          hshape.success_cons⟩
    | error e =>
      cases e with
      | other name => exact Triple.raise fun _ ht => ht
      | failure e =>
        by_cases hfatal : e.code ∉ recoverableToolFailures
        · simp only [if_pos hfatal]
          exact Triple.pure fun t ht => ⟨ht, trivial⟩
        · simp only [if_neg hfatal]
          -- the error, and a result for each of the calls that are left
          refine Triple.pure fun t ht => ⟨ht, _, List.append_assoc _ _ _, ?_, 0, _, rfl,
            .inr ⟨rest.length, ?_⟩⟩
          · simp [Function.comp_def]
          · simp [Function.comp_def]

end Kept

end Steward.Agent
