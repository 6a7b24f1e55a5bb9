import Steward.Agent.Accounts

/-!
# The turns of a budget

A round of the loop keeps the accounts whatever it ends in, so a turn does, and
so do the turns that share one budget.
-/

namespace Steward.Agent

open Py Sqlite Stateful Act

variable {F σ : Type} [SqliteFloat F]

/-! ## One round -/

section Rounds

variable {host : Host F σ} {registry : ToolRegistry F σ} {limits : Limits}
  {opening : List (ModelConversationItem F)} {base : Usage} {signatures : List Signature}
  {log : List (Event F)}

/-- `At`, with a model call admitted that is not made yet. -/
def Asking (host : Host F σ) (registry : ToolRegistry F σ) (limits : Limits)
    (opening : List (ModelConversationItem F)) (base : Usage) (signatures : List Signature)
    (log : List (Event F)) (t : Turn F σ) : Prop :=
  At host registry limits opening base signatures log t ∧
    base.modelCallsUsed + log.countP isAsked < t.usage.modelCallsUsed

theorem triple_admitModelCall :
    Triple (At host registry limits opening base signatures log)
      (charge (Usage.admitModelCall limits))
      (fun _ => Asking host registry limits opening base signatures log)
      (AtLeast host registry limits opening base log) := by
  intro t ht
  simp only [charge]
  cases hop : t.usage.admitModelCall limits with
  | error e => exact ht.atLeast
  | ok v =>
    obtain ⟨hkept, hsig, rfl⟩ := ht
    have hcount := hkept.asked
    have hv := (admitModelCall_eq_ok.1 hop).2
    have hmodel : v.modelCallsUsed = t.usage.modelCallsUsed + 1 := by rw [hv]
    have htotal : v.totalToolCallsUsed = t.usage.totalToolCallsUsed := by rw [hv]
    refine ⟨⟨⟨hkept.reachable.model hop, ?_, htotal ▸ hkept.dispatched, hkept.signed,
      hkept.justified⟩, hsig, rfl⟩, ?_⟩
    · show base.modelCallsUsed + t.log.countP isAsked ≤ v.modelCallsUsed
      omega
    · show base.modelCallsUsed + t.log.countP isAsked < v.modelCallsUsed
      omega

/-- The model is asked on the charge that waits for it. -/
theorem triple_noteAsked {messages : List (ModelConversationItem F)}
    {E : Raised → Turn F σ → Prop} (h : Answered opening (batches log) messages) :
    Triple (Asking host registry limits opening base signatures log)
      (note (.asked messages) : Act F σ Unit)
      (fun _ => At host registry limits opening base signatures (log ++ [.asked messages])) E := by
  refine Triple.modify fun t ⟨⟨hkept, hsigs, hlog⟩, hdue⟩ => ⟨?_, hsigs, by simp [hlog]⟩
  subst hlog
  refine ⟨hkept.reachable, ?_, ?_, fun call hcall => ?_, hkept.justified.concat h⟩
  · simp only [List.countP_append, List.countP_singleton, isAsked, if_true]
    omega
  · simpa [isDispatched] using hkept.dispatched
  · exact hkept.signed call (by simpa using hcall)

theorem triple_ask (model : ToolCallingModel F σ) {messages : List (ModelConversationItem F)}
    (h : Answered opening (batches log) messages) :
    Triple (At host registry limits opening base signatures log) (ask registry limits model messages)
      (fun _ => At host registry limits opening base signatures (log ++ [.asked messages]))
      (AtLeast host registry limits opening base log) := by
  unfold ask
  refine Triple.bind triple_admitModelCall fun _ => ?_
  refine Triple.bind (triple_noteAsked h) fun _ => ?_
  refine (triple_inject _).conseq (fun _ h => h) (fun _ _ h => h) fun _ _ h => ⟨h.1, ?_⟩
  rw [h.2.2, batches_append, batches_asked, List.append_nil]

omit [SqliteFloat F] in
/-- The item that a batch adds answers its calls. -/
theorem appendBatchResults_ok {messages messages' : List (ModelConversationItem F)}
    {calls : List (ModelToolCall F)} {results : List (ModelToolResultMessage F)}
    {preamble : Option Text} (hcalls : results.map ModelToolResultMessage.toolCall = calls)
    (hshape : Shape (results.map ModelToolResultMessage.disposition))
    (h : appendBatchResults messages calls results preamble = .ok messages') :
    ∃ item, messages' = messages ++ [item] ∧ Answers calls item := by
  unfold appendBatchResults at h
  split_ifs at h
  split at h
  · next result =>
    exact ⟨_, (Except.ok.inj h).symm, hcalls.symm, hshape⟩
  · simp only at h
    split_ifs at h
    exact ⟨_, (Except.ok.inj h).symm, rfl, hcalls, hshape⟩

omit [SqliteFloat F] in
theorem Answered.concat {admitted : List (List (ModelToolCall F))}
    {messages : List (ModelConversationItem F)} {calls : List (ModelToolCall F)}
    {item : ModelConversationItem F} (h : Answered opening admitted messages)
    (hitem : Answers calls item) : Answered opening (admitted ++ [calls]) (messages ++ [item]) := by
  obtain ⟨items, rfl, hitems⟩ := h
  exact ⟨items ++ [item], List.append_assoc _ _ _, List.rel_append hitems (.cons hitem .nil)⟩

/-- What holds after a round: the accounts are kept, and if the loop goes on then with a
result for every call of the batches admitted. -/
def Round.Good (host : Host F σ) (registry : ToolRegistry F σ) (limits : Limits)
    (opening : List (ModelConversationItem F)) (base : Usage) : Round F → Turn F σ → Prop
  | .done _, t => Kept host registry limits opening base t
  | .again messages _, t => Kept host registry limits opening base t ∧
      Answered opening (batches t.log) messages

theorem triple_round (model : ToolCallingModel F σ) (messages : List (ModelConversationItem F))
    (traces : List (ToolTrace F)) :
    Triple (fun t => Kept host registry limits opening base t ∧
        Answered opening (batches t.log) messages)
      (round host registry limits model messages traces)
      (Round.Good host registry limits opening base)
      (fun _ => Kept host registry limits opening base) := by
  refine triple_at (fun _ ht => ht.1) fun t₀ ⟨_, hanswered⟩ => ?_
  unfold round
  refine Triple.bind ((triple_ask model hanswered).attempt _) fun response => ?_
  match response with
  | .error (.failure e) => exact Triple.pure fun _ ht => ht.1
  | .error (.other name) => exact Triple.pure fun _ ht => ht.1
  | .ok .foreign => exact Triple.pure fun _ ht => ht.1
  | .ok (.turn response) =>
  simp only
  cases response.finalAnswer with
  | some answer => exact Triple.pure fun _ ht => ht.1
  | none =>
  cases response.toolCalls with
  | nil => exact Triple.pure fun _ ht => ht.1
  | cons call calls =>
  refine Triple.bind ((triple_preflightBatch (call :: calls)).attempt _) fun sources => ?_
  match sources with
  | .error (.failure e) => exact Triple.pure fun _ ht => ht.1
  | .error (.other name) => exact Triple.raise fun _ ht => ht.1
  | .ok sources =>
  refine Triple.assume fun ⟨hlen, hfresh⟩ => ?_
  have hpairs : ((call :: calls).zip sources).map Prod.fst = call :: calls :=
    List.map_fst_zip hlen.ge
  refine Triple.bind ((triple_executeBatch (List.mem_append_right _ List.mem_cons_self) _
    (fun pair hpair => (List.of_mem_zip hpair).1) (by rw [hpairs]; exact hfresh) [] traces).conseq
    (fun _ h => h) (fun _ _ h => h) fun _ _ h => h.1) fun executed => ?_
  refine Triple.assume fun hcompleted => ?_
  cases executed with
  | failed code traces => exact Triple.pure fun _ ht => ht.1
  | answered results traces =>
    obtain ⟨new, rfl, hcalls, hshape⟩ := hcompleted
    rw [hpairs] at hcalls
    refine Triple.bind (Q := fun messages' t => Kept host registry limits opening base t ∧
      Answered opening (batches t.log) messages')
      (Triple.lift (fun messages' t h ht => ⟨ht.1, ?_⟩) fun _ _ _ ht => ht.1) fun messages' => ?_
    · obtain ⟨item, rfl, hitem⟩ := appendBatchResults_ok hcalls hshape h
      have hlog := ht.2
      simp only [batches_append, batches_passed, batches_admitted, batches_asked,
        List.append_nil] at hlog
      rw [hlog]
      exact hanswered.concat hitem
    · refine triple_at (fun _ ht => ht.1) fun t ⟨_, hanswered'⟩ => ?_
      refine Triple.bind (triple_note (e := Event.continued messages') rfl rfl hanswered') fun _ => ?_
      refine Triple.pure fun t' ht => ⟨ht.1, ?_⟩
      rw [ht.2.2, batches_append, batches_continued, List.append_nil]
      exact hanswered'

theorem triple_loop (model : ToolCallingModel F σ) (fuel : Nat)
    (messages : List (ModelConversationItem F)) (traces : List (ToolTrace F)) :
    Triple (fun t => Kept host registry limits opening base t ∧
        Answered opening (batches t.log) messages)
      (loop host registry limits model fuel messages traces)
      (fun _ => Kept host registry limits opening base)
      (fun _ => Kept host registry limits opening base) := by
  induction fuel generalizing messages traces with
  | zero => exact Triple.raise fun _ ht => ht.1
  | succ fuel ih =>
    unfold loop
    refine Triple.bind (triple_round model messages traces) fun ended => ?_
    cases ended with
    | done result => exact Triple.pure fun _ ht => ht
    | again messages traces => exact ih messages traces

end Rounds

/-! ## A turn, and turns that share a budget -/

/-- A turn keeps the accounts it starts from, however it ends. -/
theorem run_kept (host : Host F σ) (registry : ToolRegistry F σ) {limits : Limits}
    (model : ToolCallingModel F σ) (request : AgentTurnRequest) {usage : Usage} (env : σ)
    (h : Usage.Reachable F limits usage) :
    Kept host registry limits request.messages usage
      (run host registry limits model request usage env).2 := by
  have hstart : Kept host registry limits request.messages usage
      (⟨usage, env, [], [], []⟩ : Turn F σ) :=
    ⟨h, le_rfl, le_rfl, fun call hcall => by simp at hcall, Always.nil⟩
  have hrun := triple_loop (F := F) model (limits.maxModelCalls + 1) request.messages []
    ⟨usage, env, [], [], []⟩ ⟨hstart, [], (List.append_nil _).symm, .nil⟩
  unfold run
  revert hrun
  split
  · next h => rw [h]; exact id
  · next h => rw [h]; exact id

/-- A turn that is to be run: the runtime, the request and the environment. -/
structure Job (F σ : Type) where
  host : Host F σ
  registry : ToolRegistry F σ
  model : ToolCallingModel F σ
  request : AgentTurnRequest
  env : σ

/-- Turns one after another on one budget. -/
def turns (limits : Limits) : Usage → List (Job F σ) →
    List (Except Raised (AgentTurnResult F) × Turn F σ)
  | _, [] => []
  | usage, job :: jobs =>
    let ended := run job.host job.registry limits job.model job.request usage job.env
    ended :: turns limits ended.2.usage jobs

/-- What the turns leave: accounts that cover everything they did since `usage`. -/
theorem turns_kept (limits : Limits) (jobs : List (Job F σ)) {usage : Usage}
    (h : Usage.Reachable F limits usage) :
    ∃ final : Usage, Usage.Reachable F limits final ∧
      usage.modelCallsUsed + ((turns limits usage jobs).map fun r => r.2.log.countP isAsked).sum ≤
        final.modelCallsUsed ∧
      usage.totalToolCallsUsed +
        ((turns limits usage jobs).map fun r => r.2.log.countP isDispatched).sum ≤
        final.totalToolCallsUsed ∧
      List.Forall₂ (fun job r => Usage.Reachable F limits r.2.usage ∧
        Always (Justified job.host job.registry job.request.messages) r.2.log)
        jobs (turns limits usage jobs) := by
  induction jobs generalizing usage with
  | nil => exact ⟨usage, h, by simp [turns], by simp [turns], .nil⟩
  | cons job jobs ih =>
    have hkept := run_kept job.host job.registry job.model job.request job.env h
    obtain ⟨final, hfinal, hmodel, htotal, hothers⟩ := ih hkept.reachable
    have hasked := hkept.asked
    have hdispatched := hkept.dispatched
    refine ⟨final, hfinal, ?_, ?_, .cons ⟨hkept.reachable, hkept.justified⟩ hothers⟩
    · simp only [turns, List.map_cons, List.sum_cons]
      omega
    · simp only [turns, List.map_cons, List.sum_cons]
      omega

end Steward.Agent
