import Steward.Agent.Lifetime

/-!
# When a turn returns

A turn returns its result unless one of its steps is not clean: the arguments of
a call have no canonical JSON, schema validation or a content reservation raises
something that is no failure, or a dispatcher returns an object whose attributes
cannot be used. Everything else that is raised becomes a failure code.
-/

namespace Steward.Agent

open Py Sqlite Stateful Act

variable {F σ : Type} [SqliteFloat F]

/-! ## Clean steps -/

/-- The environment after the tool's own preflight, if it returns. -/
def afterPreflight (tool : RuntimeTool F σ) (arguments : List (Text × Value F)) (env : σ) : Option σ :=
  match tool.preflight with
  | none => some env
  | some preflight => match preflight arguments env with
    | (.ok (), env') => some env'
    | (.error _, _) => none

/-- The attributes of the result can be added up, or are refused before they are. -/
def Usable (family : SourceFamily) : Returned F → Prop
  | .foreign => False
  | .record _ payload _ items bytes elapsed _ content => elapsed.isSome ∧
      (payload.isSome → (∃ n ∈ content, 0 ≤ n) → bytes.isSome ∧
        (family.filesystem ∨ family = .stewardHistorical → items.isSome))

/-- The dispatcher raised, or its result is of another family, or it is usable. -/
def Settles (family : SourceFamily) : Except Raised (Returned F) → Prop
  | .error _ => True
  | .ok .foreign => False
  | .ok (.record family' payload digest items bytes elapsed status content) =>
      family' = some family → Usable family (.record family' payload digest items bytes elapsed status content)

/-- Nothing at the step raises an exception that is not a failure. -/
def Clean (host : Host F σ) (registry : ToolRegistry F σ) : Step F σ → Prop
  | .examined used call env => (Value.dict call.arguments : Value F).safe = true ∧
      ((∀ s ∈ used, signatureOf call ≠ .ok s) →
        ∀ tool, registry.find call.name = some tool → tool.readOnly = true →
          (∀ name, host.validate tool.inputSchema call.arguments ≠ .raises (.other name)) ∧
          (host.validate tool.inputSchema call.arguments = .passes →
            ∀ env' ∈ afterPreflight tool call.arguments env, ∀ reserve ∈ tool.contentReservation,
              ∀ name, (reserve call.arguments env').1 ≠ .error (.other name)))
  | .invoked call env => ∀ tool, registry.find call.name = some tool →
      Settles tool.sourceFamily (tool.dispatcher call.arguments env).1

section Steps

variable {host : Host F σ} {registry : ToolRegistry F σ} {limits : Limits}

/-- Every step so far was clean. -/
def Sure (host : Host F σ) (registry : ToolRegistry F σ) (t : Turn F σ) : Prop :=
  ∀ step ∈ t.steps, Clean host registry step

/-- Every step so far was clean exactly if `p`, and so many model calls are used. -/
def Pending (host : Host F σ) (registry : ToolRegistry F σ) (p : Prop) (n : Nat) (t : Turn F σ) : Prop :=
  (Sure host registry t ↔ p) ∧ t.usage.modelCallsUsed = n

/-- Every step so far was clean, and so many model calls are used. -/
abbrev Well (host : Host F σ) (registry : ToolRegistry F σ) (n : Nat) : Turn F σ → Prop :=
  Pending host registry True n

/-- What an exception says: a failure comes after clean steps only, any other not. -/
def Blames (host : Host F σ) (registry : ToolRegistry F σ) (n : Nat) : Raised → Turn F σ → Prop
  | .failure _, t => Pending host registry True n t
  | .other _, t => ¬ Sure host registry t

variable {p : Prop} {n : Nat}

theorem Pending.congr {q : Prop} {t : Turn F σ} (h : Pending host registry p n t)
    (hpq : p ↔ q) : Pending host registry q n t := ⟨h.1.trans hpq, h.2⟩

/-- What does not touch the steps and the model calls. -/
theorem Pending.of_eq {t t' : Turn F σ} (h : Pending host registry p n t)
    (hsteps : t'.steps = t.steps) (hused : t'.usage.modelCallsUsed = t.usage.modelCallsUsed) :
    Pending host registry p n t' := by
  refine ⟨?_, hused.trans h.2⟩
  unfold Sure
  rw [hsteps]
  exact h.1

/-- One more step, after clean ones. -/
theorem Pending.step {t : Turn F σ} (h : Well host registry n t) (step : Step F σ) :
    Pending host registry (Clean host registry step) n { t with steps := t.steps ++ [step] } := by
  refine ⟨⟨fun hs => hs step (by simp), fun hstep s hs => ?_⟩, h.2⟩
  rcases List.mem_append.1 hs with hs | hs
  · exact h.1.2 trivial s hs
  · rwa [List.mem_singleton.1 hs]

/-! ## The preflight -/

omit [SqliteFloat F] in
theorem runPreflight_run (tool : RuntimeTool F σ) (arguments : List (Text × Value F)) (t : Turn F σ) :
    (∃ env' ∈ afterPreflight tool arguments t.env,
      runPreflight tool arguments t = (.ok (), { t with env := env' })) ∨
    (afterPreflight tool arguments t.env = none ∧
      ∃ e env', runPreflight tool arguments t = (.error (.failure e), { t with env := env' })) := by
  unfold runPreflight afterPreflight
  cases tool.preflight with
  | none => exact .inl ⟨t.env, rfl, rfl⟩
  | some preflight =>
    simp only [bind_run, attempt_run, inject]
    match hp : preflight arguments t.env with
    | (.ok (), env') => exact .inl ⟨env', rfl, rfl⟩
    | (.error (.failure e), env') => exact .inr ⟨rfl, e, env', rfl⟩
    | (.error (.other name), env') => exact .inr ⟨rfl, _, env', rfl⟩

omit [SqliteFloat F] in
/-- A content reservation returns or fails, or raises what its function raises. -/
theorem reservationOf_run (tool : RuntimeTool F σ) (arguments : List (Text × Value F)) (t : Turn F σ) :
    ((∀ reserve ∈ tool.contentReservation, ∀ name, (reserve arguments t.env).1 ≠ .error (.other name)) ∧
      ∃ r env', reservationOf tool arguments t = (r, { t with env := env' }) ∧
        ∀ name, r ≠ .error (.other name)) ∨
    (∃ reserve ∈ tool.contentReservation, ∃ name, (reserve arguments t.env).1 = .error (.other name) ∧
      ∃ env', reservationOf tool arguments t = (.error (.other name), { t with env := env' })) := by
  have hcheck (tool : RuntimeTool F σ) (hnone : tool.contentReservation = none) (t : Turn F σ) :
      ∃ r, reservationOf tool arguments t = (r, t) ∧ ∀ name, r ≠ .error (.other name) := by
    unfold reservationOf reservationValue
    rw [hnone]
    rcases tool.contentReservationBytes with _ | n
    · exact ⟨_, rfl, fun name h => by simp [fail] at h⟩
    · by_cases hneg : n < 0
      · exact ⟨_, congrFun (if_pos hneg) t, fun name h => by simp [fail] at h⟩
      · exact ⟨_, congrFun (if_neg hneg) t, fun name h => by simp at h⟩
  cases hreserve : tool.contentReservation with
  | none =>
    obtain ⟨r, hr, hne⟩ := hcheck tool hreserve t
    exact .inl ⟨by simp, r, t.env, hr, hne⟩
  | some reserve =>
    unfold reservationOf reservationValue
    simp only [hreserve, bind_run, inject]
    cases hres : (reserve arguments t.env).1 with
    | ok value =>
      obtain ⟨r, hr, hne⟩ := hcheck { tool with contentReservation := none, contentReservationBytes := value } rfl
        { t with env := (reserve arguments t.env).2 }
      refine .inl ⟨fun reserve' h name => ?_, r, _, hr, hne⟩
      rw [← Option.mem_some.1 h, hres]
      simp
    | error e =>
      cases e with
      | failure e =>
        refine .inl ⟨fun reserve' h name => ?_, _, _, rfl, fun name h => by simp at h⟩
        rw [← Option.mem_some.1 h, hres]
        simp
      | other name => exact .inr ⟨reserve, rfl, name, hres, _, rfl⟩

theorem signatureOf_cases (call : ModelToolCall F) :
    ((Value.dict call.arguments : Value F).safe = true ∧ ∃ s, signatureOf call = .ok s) ∨
      ((Value.dict call.arguments : Value F).safe ≠ true ∧
        signatureOf call = .error (.other (txt "EvidenceError"))) := by
  unfold signatureOf
  by_cases hsafe : (Value.dict call.arguments : Value F).safe = true
  · obtain ⟨text, htext⟩ := ok_canonicalJson.2 hsafe
    exact .inl ⟨hsafe, _, by rw [htext]⟩
  · right
    refine ⟨hsafe, ?_⟩
    cases h : canonicalJson (.dict call.arguments : Value F) with
    | ok text => exact absurd (ok_canonicalJson.1 ⟨text, h⟩) hsafe
    | error e => rfl

/-- What the preflight of a call has established. -/
def Ready (host : Host F σ) (registry : ToolRegistry F σ) (call : ModelToolCall F) : Prop :=
  (∃ s, signatureOf call = .ok s) ∧
    ∃ tool, registry.find call.name = some tool ∧
      host.validate tool.inputSchema call.arguments = .passes

theorem Pending.well {t : Turn F σ} (h : Pending host registry p n t) (hp : p) :
    Well host registry n t := h.congr (iff_true_intro hp)

theorem triple_preflightCall_blames (batch : List Signature) (call : ModelToolCall F) :
    Triple (Well host registry n) (preflightCall host registry batch call)
      (fun _ t => Well host registry n t ∧ Ready host registry call) (Blames host registry n) := by
  unfold preflightCall
  refine Triple.bind (Q := fun t' t => Well host registry n t ∧ t' = t)
    (Triple.get fun _ ht => ⟨ht, rfl⟩) fun t' => ?_
  refine Triple.bind (Q := fun _ t => Pending host registry
    (Clean host registry (.examined (t'.signatures ++ batch) call t'.env)) n t ∧ t.env = t'.env)
    (Triple.modify fun t ⟨ht, h⟩ => ?_) fun _ => ?_
  · subst h
    exact ⟨ht.step _, rfl⟩
  rcases signatureOf_cases call with ⟨hsafe, signature, hsig⟩ | ⟨hsafe, hsig⟩
  swap
  · rw [hsig]
    exact Triple.bind (Q := fun _ _ => False) (fun t ht hsure => hsafe (ht.1.1.1 hsure).1)
      fun _ _ h => h.elim
  rw [hsig]
  refine Triple.bind (Q := fun s t => (Pending host registry
    (Clean host registry (.examined (t'.signatures ++ batch) call t'.env)) n t ∧ t.env = t'.env) ∧
    s = signature) (fun t ht => ⟨ht, rfl⟩) fun s => Triple.assume fun hs => ?_
  rw [hs]
  by_cases hdup : signature ∈ t'.signatures ∨ signature ∈ batch
  · rw [if_pos hdup]
    refine Triple.raise fun t ht => ht.1.well ⟨hsafe, fun hused => ?_⟩
    exact absurd hsig (hused signature (List.mem_append.2 hdup))
  rw [if_neg hdup]
  cases hfind : registry.find call.name with
  | none => exact Triple.raise fun t ht => ht.1.well ⟨hsafe, fun _ tool h => by rw [hfind] at h; cases h⟩
  | some tool =>
  -- from here on the step is clean if what the tool's functions raise is
  have hclean : (∀ name, host.validate tool.inputSchema call.arguments ≠ .raises (.other name)) →
      (host.validate tool.inputSchema call.arguments = .passes →
        ∀ env' ∈ afterPreflight tool call.arguments t'.env, ∀ reserve ∈ tool.contentReservation,
          ∀ name, (reserve call.arguments env').1 ≠ .error (.other name)) →
      Clean host registry (.examined (t'.signatures ++ batch) call t'.env) := by
    refine fun hvalidate hreserve => ⟨hsafe, fun _ tool' h _ => ?_⟩
    obtain rfl : tool = tool' := by rw [hfind] at h; exact Option.some.inj h
    exact ⟨hvalidate, hreserve⟩
  by_cases hread : tool.readOnly = false
  · simp only [hread, if_true]
    refine Triple.raise fun t ht => ht.1.well ⟨hsafe, fun _ tool' h h' => ?_⟩
    obtain rfl : tool = tool' := by rw [hfind] at h; exact Option.some.inj h
    rw [hread] at h'
    cases h'
  simp only [if_neg hread]
  cases hvalid : host.validate tool.inputSchema call.arguments with
  | raises e =>
    cases e with
    | failure e =>
      exact Triple.raise fun t ht => ht.1.well (hclean (by rw [hvalid]; simp) (by rw [hvalid]; simp))
    | other name =>
      refine Triple.raise fun t ht hsure => ?_
      obtain ⟨-, hstep⟩ := ht.1.1.1 hsure
      refine (hstep (fun s hs heq => ?_) tool hfind (by simpa using hread)).1 name hvalid
      rw [hsig] at heq
      exact hdup (List.mem_append.1 (Except.ok.inj heq ▸ hs))
  | fails =>
    exact Triple.raise fun t ht => ht.1.well (hclean (by rw [hvalid]; simp) (by rw [hvalid]; simp))
  | passes =>
    have hready : Ready host registry call := ⟨⟨signature, hsig⟩, tool, hfind, hvalid⟩
    simp only
    intro t ⟨ht, henv⟩
    rw [bind_run]
    rcases runPreflight_run tool call.arguments t with ⟨env', hafter, hrun⟩ | ⟨hafter, e, env', hrun⟩
    swap
    · rw [hrun]
      refine (ht.of_eq rfl rfl).well (hclean (by rw [hvalid]; simp) fun _ env'' h => ?_)
      rw [← henv, hafter] at h
      cases h
    rw [hrun]
    simp only
    rw [bind_run]
    rcases reservationOf_run tool call.arguments { t with env := env' } with
      ⟨hfine, r, env'', hr, hne⟩ | ⟨reserve, hmem, name, hraise, env'', hr⟩
    · have hstep : Clean host registry (.examined (t'.signatures ++ batch) call t'.env) := by
        refine hclean (by rw [hvalid]; simp) fun _ e he => ?_
        rw [← henv, hafter] at he
        rw [← Option.some.inj he]
        exact hfine
      rw [hr]
      cases r with
      | ok reservation => exact ⟨(ht.of_eq rfl rfl).well hstep, hready⟩
      | error e =>
        cases e with
        | failure e => exact (ht.of_eq rfl rfl).well hstep
        | other name => exact absurd rfl (hne name)
    · rw [hr]
      refine fun hsure => ?_
      obtain ⟨-, hstep⟩ := ht.1.1 hsure
      refine (hstep (fun s hs heq => ?_) tool hfind (by simpa using hread)).2 hvalid env'
        (by rw [← henv]; exact hafter) reserve hmem name hraise
      rw [hsig] at heq
      exact hdup (List.mem_append.1 (Except.ok.inj heq ▸ hs))

theorem triple_preflightCalls_blames (batch : List Signature) (calls : List (ModelToolCall F)) :
    Triple (Well host registry n) (preflightCalls host registry batch calls)
      (fun checked t => Well host registry n t ∧
        checked.length = calls.length ∧ ∀ call ∈ calls, Ready host registry call)
      (Blames host registry n) := by
  induction calls generalizing batch with
  | nil => exact Triple.pure fun t ht => ⟨ht, rfl, by simp⟩
  | cons call calls ih =>
    unfold preflightCalls
    refine Triple.bind (triple_preflightCall_blames batch call) fun checked => ?_
    refine Triple.assume fun hready => ?_
    refine Triple.bind (ih _) fun others => Triple.pure fun t h => ?_
    obtain ⟨ht, hlen, hothers⟩ := h
    exact ⟨ht, by simp [hlen], List.forall_mem_cons.2 ⟨hready, hothers⟩⟩

/-- Charging the accounts, when the operation fails or keeps the model calls. -/
theorem triple_charge_blames {op : Usage → Except Raised Usage}
    (hok : ∀ u v, op u = .ok v → v.modelCallsUsed = u.modelCallsUsed)
    (herr : ∀ u name, op u ≠ .error (.other name)) :
    Triple (Well host registry n) (charge op) (fun _ => Well host registry n)
      (Blames host registry n) := by
  intro t ht
  unfold charge
  cases h : op t.usage with
  | ok v => exact ht.of_eq rfl (hok _ _ h)
  | error e =>
    cases e with
    | failure e => exact ht
    | other name => exact absurd h (herr _ _)

omit [SqliteFloat F] in
theorem admitToolCall_ne_other (source : SourceFamily) (u : Usage) (name : Text) :
    u.admitToolCall limits source ≠ .error (.other name) := by
  unfold Usage.admitToolCall
  split_ifs <;> simp [fail]

omit [SqliteFloat F] in
theorem reserveContentBatch_ne_other (reservations : List Int) (u : Usage) (name : Text) :
    u.reserveContentBatch limits reservations ≠ .error (.other name) := by
  unfold Usage.reserveContentBatch
  split_ifs <;> simp [fail]

theorem triple_preflightBatch_blames (calls : List (ModelToolCall F)) :
    Triple (Well host registry n) (preflightBatch host registry limits calls)
      (fun sources t => Well host registry n t ∧
        sources.length = calls.length ∧ ∀ call ∈ calls, Ready host registry call)
      (Blames host registry n) := by
  unfold preflightBatch
  by_cases hsize : ¬ (1 ≤ calls.length ∧ calls.length ≤ 3)
  · rw [if_pos hsize]
    exact Triple.raise fun _ ht => ht
  rw [if_neg hsize]
  refine Triple.bind (triple_preflightCalls_blames [] calls) fun checked => ?_
  refine Triple.assume fun ⟨hlen, hready⟩ => ?_
  refine Triple.bind (Triple.get fun _ ht => ht) fun now => ?_
  simp only
  split_ifs
  · exact Triple.raise fun _ ht => ht
  · exact Triple.raise fun _ ht => ht
  · exact Triple.raise fun _ ht => ht
  · refine Triple.bind (triple_charge_blames
      (fun u v h => by rw [(reserveContentBatch_ok h).1]) fun u => reserveContentBatch_ne_other _ u)
      fun _ => ?_
    refine Triple.bind (Q := fun _ => Well host registry n)
      (Triple.modify fun t ht => ht.of_eq rfl rfl) fun _ => ?_
    exact Triple.pure fun t ht => ⟨ht, by simp [hlen], hready⟩

/-! ## The execution of a batch -/

theorem clean_invoked_iff {call : ModelToolCall F} {tool : RuntimeTool F σ} (env : σ)
    (hfind : registry.find call.name = some tool) :
    Clean host registry (.invoked call env) ↔
      Settles tool.sourceFamily (tool.dispatcher call.arguments env).1 := by
  refine ⟨fun h => h tool hfind, fun h tool' hfind' => ?_⟩
  obtain rfl : tool = tool' := by rw [hfind] at hfind'; exact Option.some.inj hfind'
  exact h

/-- A dispatch fails, or returns what can be used exactly if its step was clean. -/
theorem triple_dispatch_blames {call : ModelToolCall F} (hready : Ready host registry call) :
    Triple (Well host registry n) (dispatch host registry call)
      (fun r => Pending host registry (Usable r.1 r.2) n) (Blames host registry n) := by
  obtain ⟨-, tool, hfind, hvalid⟩ := hready
  unfold dispatch
  refine Triple.bind (Q := fun _ => Well host registry n)
    (Triple.modify fun t ht => ht.of_eq rfl rfl) fun _ => ?_
  rw [hfind]
  simp only [hvalid]
  refine Triple.bind (Q := fun _ t => Pending host registry (Clean host registry (.invoked call t.env)) n t)
    (Triple.modify fun t ht => ht.step _) fun _ => ?_
  refine Triple.bind (Q := fun r => Pending host registry (Settles tool.sourceFamily r) n)
    (fun t ht => (ht.congr (clean_invoked_iff _ hfind)).of_eq rfl rfl) fun r => ?_
  match r with
  | .error (.failure e) => exact Triple.raise fun t ht => ht.well trivial
  | .error (.other name) =>
    simp only [toolFailure]
    cases tool.sourceFamily <;> exact Triple.raise fun t ht => ht.well trivial
  | .ok .foreign => exact Triple.raise fun t ht hsure => ht.1.1 hsure
  | .ok (.record family payload digest items bytes elapsed status content) =>
    simp only
    by_cases hfamily : family ≠ some tool.sourceFamily
    · rw [if_pos hfamily]
      exact Triple.raise fun t ht => ht.well fun h => absurd h hfamily
    · rw [if_neg hfamily]
      rw [not_not] at hfamily
      exact Triple.pure fun t ht => ht.congr ⟨fun h => h hfamily, fun h _ => h⟩

/-- The counts that `record_result` adds up are numbers. -/
def Counted (result : RuntimeToolResult F) : Prop :=
  result.serializedBytes.isSome ∧ result.elapsedMs.isSome ∧
    (result.sourceFamily.filesystem ∨ result.sourceFamily = .stewardHistorical →
      result.itemsReturned.isSome)

section

omit [SqliteFloat F]

/-- A new result is made of what can be used, and then it can be counted if that can. -/
theorem newResult_cases (family : SourceFamily) (elapsed : Nat) (returned : Returned F) :
    match newResult family elapsed returned with
    | .ok result => Usable family returned ↔ Counted result
    | .error (.failure _) => Usable family returned
    | .error (.other _) => ¬ Usable family returned := by
  cases returned with
  | foreign => exact id
  | record family' payload digest items bytes reported status content =>
    cases reported with
    | none => exact fun h => by simp [Usable] at h
    | some reported =>
    cases payload with
    | none => exact ⟨rfl, fun h => by simp at h⟩
    | some payload =>
    cases content with
    | none => exact ⟨rfl, fun _ ⟨n, h, _⟩ => by simp at h⟩
    | some content =>
    unfold newResult
    simp only [Usage.operand, ok_bind_ok]
    by_cases hcontent : content < 0
    · rw [if_pos hcontent]
      refine ⟨rfl, fun _ ⟨n, h, hn⟩ => ?_⟩
      rw [Option.mem_some] at h
      omega
    · rw [if_neg hcontent]
      refine ⟨fun h => ?_, fun h => ⟨rfl, fun _ _ => ⟨h.1, h.2.2⟩⟩⟩
      obtain ⟨hbytes, hitems⟩ := h.2 rfl ⟨content, rfl, by omega⟩
      exact ⟨hbytes, rfl, hitems⟩

/-- An operand that is no number makes the sum raise. -/
theorem itemsFor_eq (counts : Bool) (items : Option Int) :
    (∃ value, Usage.itemsFor counts items = .ok value ∧ (counts → items.isSome)) ∨
      (Usage.itemsFor counts items = .error (.other (txt "TypeError")) ∧ counts ∧ items = none) := by
  unfold Usage.itemsFor
  cases counts <;> cases items <;> simp [Usage.operand]

theorem recordResult_cases (u : Usage) (result : RuntimeToolResult F) :
    match u.recordResult limits result with
    | .error (.other _) => ¬ Counted result
    | _ => Counted result := by
  unfold Usage.recordResult
  rcases itemsFor_eq result.sourceFamily.filesystem result.itemsReturned with
    ⟨filesystem, h, hfilesystem⟩ | ⟨h, hcounts, hnone⟩
  swap
  · rw [h]
    exact fun hcounted => by simpa [hnone] using hcounted.2.2 (.inl hcounts)
  rw [h, ok_bind_ok]
  rcases itemsFor_eq (result.sourceFamily = .stewardHistorical) result.itemsReturned with
    ⟨steward, h, hsteward⟩ | ⟨h, hcounts, hnone⟩
  swap
  · rw [h]
    exact fun hcounted => by simpa [hnone] using hcounted.2.2 (.inr (by simpa using hcounts))
  rw [h, ok_bind_ok]
  cases hbytes : result.serializedBytes with
  | none => exact fun hcounted => by simpa [hbytes] using hcounted.1
  | some bytes =>
  cases helapsed : result.elapsedMs with
  | none => exact fun hcounted => by simpa [helapsed] using hcounted.2.1
  | some elapsed =>
  have hcounted : Counted result := by
    refine ⟨by simp [hbytes], by simp [helapsed], ?_⟩
    rintro (hfamily | hfamily)
    · exact hfilesystem hfamily
    · exact hsteward (by simpa using hfamily)
  simp only [Usage.operand, ok_bind_ok]
  split_ifs <;> exact hcounted

end

theorem triple_executeCall_blames {call : ModelToolCall F} (hready : Ready host registry call)
    (source : SourceFamily) :
    Triple (Well host registry n) (executeCall host registry limits call source)
      (fun _ => Well host registry n) (Blames host registry n) := by
  unfold executeCall
  obtain ⟨signature, hsig⟩ := hready.1
  refine Triple.bind (triple_charge_blames (fun u v h => (admitToolCall_ok h).2.2.2.1)
    (admitToolCall_ne_other source)) fun _ => ?_
  rw [hsig]
  refine Triple.bind (Q := fun _ => Well host registry n) (fun t ht => ht) fun _ => ?_
  refine Triple.bind (Q := fun _ => Well host registry n)
    (Triple.modify fun t ht => ht.of_eq rfl rfl) fun _ => ?_
  refine Triple.bind (Q := fun _ => Well host registry n) (fun t ht => ht.of_eq rfl rfl) fun started => ?_
  refine Triple.bind (triple_dispatch_blames hready) fun r => ?_
  refine Triple.bind (Q := fun _ => Pending host registry (Usable r.1 r.2) n)
    (fun t ht => ht.of_eq rfl rfl) fun ended => ?_
  refine Triple.bind (Q := fun result => Pending host registry (Counted result) n) ?_ fun result => ?_
  · have hcases := newResult_cases r.1 ((ended - started) / 1000000) r.2
    refine Triple.lift (fun result t h ht => ?_) fun e t h ht => ?_
    · rw [h] at hcases
      exact ht.congr hcases
    · rw [h] at hcases
      cases e with
      | failure e => exact ht.well hcases
      | other name => exact fun hsure => hcases (ht.1.1 hsure)
  · refine Triple.bind (Q := fun _ => Well host registry n) (fun t ht => ?_)
      fun _ => Triple.pure fun _ ht => ht
    have hcases := @recordResult_cases F limits t.usage result
    simp only [charge]
    cases h : t.usage.recordResult limits result with
    | ok v =>
      rw [h] at hcases
      exact (ht.well hcases).of_eq rfl (recordResult_ok h).1
    | error e =>
      rw [h] at hcases
      cases e with
      | failure e => exact ht.well hcases
      | other name => exact fun hsure => hcases (ht.1.1 hsure)

/-- The calls of the results are those of the batch, if it did not fail. -/
def Executed.calls : Executed F → Option (List (ModelToolCall F))
  | .failed _ _ => none
  | .answered results _ => some (results.map ModelToolResultMessage.toolCall)

theorem triple_executeBatch_blames (pairs : List (ModelToolCall F × SourceFamily))
    (hready : ∀ pair ∈ pairs, Ready host registry pair.1)
    (results : List (ModelToolResultMessage F)) (traces : List (ToolTrace F)) :
    Triple (Well host registry n) (executeBatch host registry limits pairs results traces)
      (fun executed t => Well host registry n t ∧ ∀ calls ∈ executed.calls,
        calls = results.map ModelToolResultMessage.toolCall ++ pairs.map Prod.fst)
      (fun _ t => ¬ Sure host registry t) := by
  induction pairs generalizing results traces with
  | nil => exact Triple.pure fun t ht => ⟨ht, fun calls h => by simpa [Executed.calls] using h.symm⟩
  | cons pair rest ih =>
    obtain ⟨call, source⟩ := pair
    unfold executeBatch
    refine Triple.bind ((triple_executeCall_blames (hready _ List.mem_cons_self) source).attempt _)
      fun returned => ?_
    rcases returned with (e | name) | result
    · simp only
      by_cases hfatal : e.code ∉ recoverableToolFailures
      · simp only [if_pos hfatal]
        exact Triple.pure fun t ht => ⟨ht, fun calls h => by simp [Executed.calls] at h⟩
      · simp only [if_neg hfatal]
        refine Triple.pure fun t ht => ⟨ht, fun calls h => ?_⟩
        rw [← Option.some.inj h]
        simp [Function.comp_def]
    · exact Triple.raise fun _ ht => ht
    · refine (ih (fun pair hpair => hready pair (List.mem_cons_of_mem _ hpair)) _ _).conseq
        (fun _ h => h) (fun executed t h => ⟨h.1, fun calls hcalls => ?_⟩) fun _ _ h => h
      rw [h.2 calls hcalls]
      simp

/-! ## The loop -/

omit [SqliteFloat F] in
/-- The results of a batch whose calls have ids of their own are appended. -/
theorem appendBatchResults_total (messages : List (ModelConversationItem F))
    {calls : List (ModelToolCall F)} {results : List (ModelToolResultMessage F)}
    (preamble : Option Text) (hcalls : results.map ModelToolResultMessage.toolCall = calls)
    (hids : (calls.map ModelToolCall.providerCallId).Nodup) :
    Ok (appendBatchResults messages calls results preamble) := by
  subst hcalls
  unfold appendBatchResults
  rw [if_neg (by simp)]
  split
  · exact ⟨_, rfl⟩
  · have hsame : ¬ (results.map (fun r => r.toolCall.providerCallId) ≠
        (results.map ModelToolResultMessage.toolCall).map ModelToolCall.providerCallId ∨
        ¬ ((results.map ModelToolResultMessage.toolCall).map ModelToolCall.providerCallId).Nodup) := by
      rintro (hne | hdup)
      · exact hne (List.map_map ..).symm
      · exact hdup hids
    simp only
    rw [if_neg hsame]
    exact ⟨_, rfl⟩

theorem triple_ask_blames (model : ToolCallingModel F σ) (messages : List (ModelConversationItem F)) :
    Triple (Well host registry n) (ask registry limits model messages)
      (fun _ t => Well host registry (n + 1) t ∧ n < limits.maxModelCalls)
      (fun _ => Sure host registry) := by
  unfold ask
  refine Triple.bind (Q := fun _ t => Well host registry (n + 1) t ∧ n < limits.maxModelCalls) ?_
    fun _ => Triple.bind (Q := fun _ t => Well host registry (n + 1) t ∧ n < limits.maxModelCalls)
      (Triple.modify fun t ht => ⟨ht.1.of_eq rfl rfl, ht.2⟩) fun _ => ?_
  · intro t ht
    simp only [charge]
    cases h : t.usage.admitModelCall limits with
    | error e => exact ht.1.2 trivial
    | ok v =>
      obtain ⟨hlt, rfl⟩ := admitModelCall_eq_ok.1 h
      exact ⟨⟨ht.1, congrArg (· + 1) ht.2⟩, ht.2 ▸ hlt⟩
  · intro t ht
    have hwell : Well host registry (n + 1)
        { t with env := (model.complete messages registry.descriptors t.env).2 } := ht.1.of_eq rfl rfl
    unfold inject
    cases (model.complete messages registry.descriptors t.env).1 with
    | ok response => exact ⟨hwell, ht.2⟩
    | error e => exact hwell.1.2 trivial

/-- A round ends the turn with an answer or with a failure code, or uses a model call. -/
def Round.Sane (host : Host F σ) (registry : ToolRegistry F σ) (limits : Limits) (n : Nat) :
    Round F → Turn F σ → Prop
  | .done result, t => Sure host registry t ∧ result.finalAnswer.isSome = result.failureCode.isNone
  | .again _ _, t => Well host registry (n + 1) t ∧ n < limits.maxModelCalls

theorem triple_round_blames (model : ToolCallingModel F σ) (messages : List (ModelConversationItem F))
    (traces : List (ToolTrace F)) :
    Triple (Well host registry n) (round host registry limits model messages traces)
      (Round.Sane host registry limits n) (fun _ t => ¬ Sure host registry t) := by
  unfold round
  refine Triple.bind ((triple_ask_blames model messages).attempt _) fun response => ?_
  match response with
  | .error (.failure e) => exact Triple.pure fun _ ht => ⟨ht, rfl⟩
  | .error (.other name) => exact Triple.pure fun _ ht => ⟨ht, rfl⟩
  | .ok .foreign => exact Triple.pure fun _ ht => ⟨ht.1.1.2 trivial, rfl⟩
  | .ok (.turn response) =>
  simp only
  have hids := response.ids_nodup
  cases response.finalAnswer with
  | some answer => exact Triple.pure fun _ ht => ⟨ht.1.1.2 trivial, rfl⟩
  | none =>
  cases hcalls : response.toolCalls with
  | nil => exact Triple.pure fun _ ht => ⟨ht.1.1.2 trivial, rfl⟩
  | cons call calls =>
  rw [hcalls] at hids
  refine Triple.assume fun hlt => ?_
  refine Triple.bind ((triple_preflightBatch_blames (call :: calls)).attempt _) fun sources => ?_
  match sources with
  | .error (.failure e) => exact Triple.pure fun _ ht => ⟨ht.1.2 trivial, rfl⟩
  | .error (.other name) => exact Triple.raise fun _ ht => ht
  | .ok sources =>
  refine Triple.assume fun ⟨hlen, hready⟩ => ?_
  refine Triple.bind (triple_executeBatch_blames _
    (fun pair hpair => hready _ (List.of_mem_zip hpair).1) [] traces) fun executed => ?_
  refine Triple.assume fun hexecuted => ?_
  cases executed with
  | failed code traces => exact Triple.pure fun _ ht => ⟨ht.1.2 trivial, rfl⟩
  | answered results traces =>
    have hresults : results.map ModelToolResultMessage.toolCall = call :: calls := by
      rw [hexecuted _ rfl]
      exact List.map_fst_zip hlen.ge
    obtain ⟨messages', happend⟩ :=
      appendBatchResults_total messages response.assistantPreamble hresults hids
    simp only [happend]
    refine Triple.bind (Q := fun _ => Well host registry (n + 1)) (fun t ht => ht) fun _ => ?_
    refine Triple.bind (Q := fun _ => Well host registry (n + 1))
      (Triple.modify fun t ht => ht.of_eq rfl rfl) fun _ => ?_
    exact Triple.pure fun t ht => ⟨ht, hlt⟩

/-- Every round but the last uses a model call, so the rounds that are left are enough. -/
theorem triple_loop_blames (model : ToolCallingModel F σ) {fuel : Nat} (hfuel : 1 ≤ fuel)
    (hcalls : limits.maxModelCalls < fuel + n) (messages : List (ModelConversationItem F))
    (traces : List (ToolTrace F)) :
    Triple (Well host registry n) (loop host registry limits model fuel messages traces)
      (fun result t => Sure host registry t ∧ result.finalAnswer.isSome = result.failureCode.isNone)
      (fun _ t => ¬ Sure host registry t) := by
  induction fuel generalizing n messages traces with
  | zero => omega
  | succ fuel ih =>
    unfold loop
    refine Triple.bind (triple_round_blames model messages traces) fun ended => ?_
    cases ended with
    | done result => exact Triple.pure fun _ ht => ht
    | again messages traces =>
      refine Triple.assume fun hlt => ?_
      exact ih (by omega) (by omega) messages traces

end Steps

/-- A turn returns, with an answer or with a failure code, exactly if its steps are clean. -/
theorem run_returns (host : Host F σ) (registry : ToolRegistry F σ) (limits : Limits)
    (model : ToolCallingModel F σ) (request : AgentTurnRequest) (usage : Usage) (env : σ) :
    (∃ result, (run host registry limits model request usage env).1 = .ok result ∧
        result.finalAnswer.isSome = result.failureCode.isNone) ↔
      ∀ step ∈ (run host registry limits model request usage env).2.steps,
        Clean host registry step := by
  have hrule : Triple (Well host registry usage.modelCallsUsed)
      (loop host registry limits model (limits.maxModelCalls + 1) request.messages []) _ _ :=
    triple_loop_blames model (Nat.le_add_left 1 limits.maxModelCalls) (by omega) request.messages []
  have hrun := hrule (⟨usage, env, [], [], []⟩ : Turn F σ)
    ⟨iff_true_intro fun step h => by simp at h, rfl⟩
  unfold run
  revert hrun
  split
  · next result t h =>
    rw [h]
    exact fun hrun => iff_of_true ⟨result, rfl, hrun.2⟩ hrun.1
  · next e t h =>
    rw [h]
    exact fun hrun => iff_of_false (fun ⟨result, h, _⟩ => by cases h) hrun

end Steward.Agent
