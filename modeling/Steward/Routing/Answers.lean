import Steward.Routing.Dispatch

/-!
# What the dispatcher answers

Every failure the dispatcher reports is published: its text, envelope and
schema fit for every route. `dispatch_answers_iff` says what is left, a grant
spent on a request that the pack decoder does not admit.
-/

namespace Steward

open Py Sqlite

/-! ## A failure is always published -/

theorem length_utf8_le (t : Text) : (Text.utf8 t).length ≤ 4 * t.length := by
  have hpoint (c : CodePoint) : (Text.utf8Point c).length ≤ 4 := by
    rw [Text.utf8Point]
    split_ifs <;> simp
  induction t with
  | nil => simp [Text.utf8]
  | cons c t ih =>
    have hc := hpoint c
    simp only [Text.utf8, List.flatMap_cons, List.length_append, List.length_cons] at ih ⊢
    omega

theorem length_join_le (sep : Text) {n : Nat} {ts : List Text} (h : ∀ t ∈ ts, t.length ≤ n) :
    (Json.join sep ts).length ≤ ts.length * (n + sep.length) := by
  induction ts with
  | nil => simp [Json.join]
  | cons t ts ih =>
    obtain ⟨ht, hts⟩ := List.forall_mem_cons.1 h
    have hrest := ih hts
    rw [List.length_cons, Nat.succ_mul]
    cases ts with
    | nil =>
      rw [Json.join]
      omega
    | cons u ts =>
      rw [Json.join_cons_cons, List.length_append, List.length_append]
      omega

/-- The parts of a route that a failure publishes. -/
structure Presentable (F : Type) [SqliteFloat F] (route : StewardRouteOutcome) : Prop where
  schemaName : route.schemaName.encodable = true
  operationKind : route.operationKind.encodable = true ∧ route.operationKind.length ≤ 96
  requestDigest : route.requestDigest.encodable = true ∧ route.requestDigest.length ≤ 64
  missingFields : ∀ t ∈ route.missingFields, t.encodable = true ∧ t ≠ [] ∧ t.length ≤ 40
  missingNodup : route.missingFields.Nodup
  missingCount : route.missingFields.length ≤ 4
  grant : (grantValue route.grant : Value F).safe = true

variable {F : Type} [SqliteFloat F] {route : StewardRouteOutcome}

theorem FailureCode.text_admitted (code : FailureCode) :
    code.text.encodable = true ∧ code.text ≠ [] ∧ code.text.length ≤ 64 := by
  have hclass (cls : AgentContextErrorClass) : cls.code.encodable = true ∧ cls.code ≠ [] ∧ cls.code.length ≤ 64 := by
    cases cls <;> exact ⟨by decide, by decide, by decide⟩
  cases code with
  | agentContext cls => exact hclass cls
  | _ => exact ⟨by decide, by decide, by decide⟩

theorem FailureCode.safeMessage_admitted (code : FailureCode) : code.safeMessage.encodable = true ∧
    code.safeMessage ≠ [] ∧ (Json.quote ⟨false, true⟩ code.safeMessage).length ≤ 100 := by
  cases code with
  | agentContext cls =>
    have hsafe : (FailureCode.agentContext cls).safeMessage = txt "The STEWARD operation failed safely." := rfl
    rw [hsafe]
    exact ⟨by decide, by decide, by decide⟩
  | _ => exact ⟨by decide, by decide, by decide⟩

theorem name_decision_admitted (decision : RouteDecision) : (Named.name decision).length ≤ 16 := by
  cases decision <;> decide

theorem codeSpan_encodable {t : Text} (h : t.encodable = true) : (Lines.codeSpan t).encodable = true := by
  rw [Lines.codeSpan]
  exact Text.encodable_cons.2 ⟨by decide, Text.encodable_append.2 ⟨h, by decide⟩⟩

theorem length_codeSpan (t : Text) : (Lines.codeSpan t).length = t.length + 2 := by simp [Lines.codeSpan]

theorem joinLines_encodable {ls : List Text} (h : ∀ l ∈ ls, l.encodable = true) :
    (Lines.joinLines ls).encodable = true := by
  induction ls with
  | nil => rfl
  | cons l ls ih =>
    obtain ⟨hl, hls⟩ := List.forall_mem_cons.1 h
    cases ls with
    | nil => rwa [Lines.joinLines, List.intercalate_singleton]
    | cons m ls =>
      rw [Lines.joinLines, List.intercalate_cons_cons]
      exact Text.encodable_append.2 ⟨Text.encodable_append.2 ⟨hl, by decide⟩, ih hls⟩

/-- The missing fields as the block lists them. -/
theorem missing_admitted (h : Presentable F route) {listed : Text}
    (hlisted : listed = if route.missingFields = [] then txt "None" else Json.join (txt ", ") route.missingFields) :
    listed.encodable = true ∧ listed.length ≤ 168 := by
  rw [hlisted]
  split_ifs
  · exact ⟨by decide, by decide⟩
  · refine ⟨Json.join_encodable (by decide) fun t ht => (h.missingFields t ht).1, ?_⟩
    have hlength := length_join_le (txt ", ") fun t ht => (h.missingFields t ht).2.2
    have hsep : (txt ", ").length = 2 := rfl
    have hcount := h.missingCount
    rw [hsep] at hlength
    omega

theorem failureBlock_admitted (h : Presentable F route) (code : FailureCode) :
    (failureBlock route code).encodable = true ∧ (Text.utf8 (failureBlock route code)).length ≤ maxTextBytes := by
  obtain ⟨hcode, -, hcodeLength⟩ := code.text_admitted
  obtain ⟨hmessage, -, hmessageLength⟩ := code.safeMessage_admitted
  obtain ⟨hlisted, hlistedLength⟩ := missing_admitted h rfl
  constructor
  · rw [failureBlock]
    refine joinLines_encodable ?_
    simp only [List.forall_mem_cons]
    refine ⟨by decide, rfl, ?_, ?_, ?_, ?_, ?_, ?_, by decide, rfl, by simp⟩
    · exact Text.encodable_append.2 ⟨by decide, codeSpan_encodable (Named.encodable _)⟩
    · exact Text.encodable_append.2 ⟨by decide, codeSpan_encodable h.operationKind.1⟩
    · exact Text.encodable_append.2 ⟨by decide, codeSpan_encodable h.requestDigest.1⟩
    · exact Text.encodable_append.2 ⟨by decide, codeSpan_encodable hcode⟩
    · exact Text.encodable_append.2 ⟨by decide, Json.quote_encodable _ hmessage⟩
    · exact Text.encodable_append.2 ⟨by decide, codeSpan_encodable hlisted⟩
  · have hdecision := name_decision_admitted route.decision
    have hoperation := h.operationKind.2
    have hdigest := h.requestDigest.2
    have hlength : (failureBlock route code).length ≤ 1000 := by
      simp only [failureBlock, Lines.joinLines, List.intercalate_cons_cons, List.intercalate_singleton,
        List.length_append, length_codeSpan, List.length_singleton, List.length_nil]
      have h1 : (txt "## STEWARD Deterministic Route Block").length = 36 := rfl
      have h2 : (txt "- Route decision: ").length = 18 := rfl
      have h3 : (txt "- Operation kind: ").length = 18 := rfl
      have h4 : (txt "- Operation identity: ").length = 22 := rfl
      have h5 : (txt "- Error code: ").length = 14 := rfl
      have h6 : (txt "- Safe message: ").length = 16 := rfl
      have h7 : (txt "- Missing fields: ").length = 18 := rfl
      have h8 : (txt "- Business result: `NONE`").length = 25 := rfl
      omega
    have hbytes := length_utf8_le (failureBlock route code)
    rw [maxTextBytes]
    omega

theorem factBlockDigest_of_encodable {block : Text} (h : block.encodable = true) :
    factBlockDigest F block = .ok (Runtime.sha256 F (Text.utf8 block)) := by
  rw [factBlockDigest, encodeStrict, Text.encode, if_pos h, ok_bind_ok]

theorem failurePublication_built {code : FailureCode} {publication : PublicationEnvelope}
    (h : failurePublication F route code = some publication) : publication.Built F := by
  rw [failurePublication] at h
  split_ifs at h
  split at h
  · next hbuilt =>
    obtain rfl := Option.some.inj h
    exact built_of_buildPublicationEnvelope hbuilt
  · cases h

theorem failureText_admitted (h : Presentable F route) (code : FailureCode) :
    (failureText F route code).encodable = true ∧ (Text.utf8 (failureText F route code)).length ≤ maxTextBytes := by
  rw [failureText]
  cases hpublication : failurePublication F route code with
  | none => exact failureBlock_admitted h code
  | some publication =>
    obtain ⟨hencodable, hlength, -⟩ := failurePublication_built hpublication
    exact ⟨hencodable, hlength⟩

theorem safe_strs {ts : List Text} (h : ∀ t ∈ ts, t.encodable = true) :
    (Value.list (ts.map .str) : Value F).safe = true := safe_stringList.2 h

theorem safe_field {k : Text} {v : Value F} (hk : k.encodable = true) (hv : v.safe = true) :
    (k, v).1.encodable = true ∧ (k, v).2.safe = true := ⟨hk, hv⟩

theorem safe_str {t : Text} (h : t.encodable = true) : (Value.str t : Value F).safe = true := h

theorem safe_fields {fs : List (Text × Value F)}
    (h : ∀ f ∈ fs, f.1.encodable = true ∧ f.2.safe = true) : (Value.dict fs).safe = true := by
  refine Value.safe_dict.2 ⟨fun k hk => ?_, fun f hf => (h f hf).2⟩
  obtain ⟨f, hf, rfl⟩ := List.mem_map.1 hk
  exact (h f hf).1

theorem safe_routeOutcome (h : Presentable F route) :
    (Value.dict (routeOutcomeMachineObject route) : Value F).safe = true := by
  refine safe_fields ?_
  simp only [routeOutcomeMachineObject, List.forall_mem_cons]
  exact ⟨⟨by decide, h.schemaName⟩, ⟨by decide, rfl⟩, ⟨by decide, Named.encodable _⟩,
    ⟨by decide, h.operationKind.1⟩, ⟨by decide, h.requestDigest.1⟩,
    ⟨by decide, safe_strs fun t ht => (h.missingFields t ht).1⟩, ⟨by decide, h.grant⟩, by simp⟩

theorem safe_adapterError {code : FailureCode} {causeCode : Option Text} {missingFields : List Text}
    (hcause : ∀ c ∈ causeCode, c.encodable = true) (hmissing : ∀ t ∈ missingFields, t.encodable = true) :
    (adapterErrorValue (some (adapterError code causeCode missingFields)) : Value F).safe = true := by
  refine safe_fields fun f hf => ?_
  rcases List.mem_append.1 hf with hf | hf
  · rcases List.mem_append.1 hf with hf | hf
    · rw [List.mem_cons, List.mem_singleton] at hf
      rcases hf with rfl | rfl
      · exact safe_field (by decide) code.text_admitted.1
      · exact safe_field (by decide) code.safeMessage_admitted.1
    · cases hc : (adapterError code causeCode missingFields).causeCode with
      | none =>
        rw [hc] at hf
        cases hf
      | some cause =>
        rw [hc, List.mem_singleton] at hf
        rw [hf]
        exact safe_field (by decide) (hcause cause (Option.mem_filter_iff.1 hc).1)
  · split_ifs at hf
    · cases hf
    · rw [List.mem_singleton] at hf
      rw [hf]
      exact safe_field (by decide) (safe_strs hmissing)

theorem adapterError_admitted (code : FailureCode) (causeCode : Option Text) {missingFields : List Text}
    (hmissing : ∀ t ∈ missingFields, t ≠ []) (hnodup : missingFields.Nodup) :
    adapterErrorAdmitted (adapterError code causeCode missingFields) = true := by
  have hcause : (causeCode.filter (· ≠ [])).all (· ≠ []) = true :=
    (Option.all_eq_true _ _).2 fun c hc => (Option.mem_filter_iff.1 hc).2
  have hfields : missingFields.all (· ≠ []) = true := List.all_eq_true.2 fun t ht => decide_eq_true (hmissing t ht)
  simp only [adapterErrorAdmitted, adapterError, hcause, hfields, hnodup, decide_true, Bool.and_true]
  exact Bool.and_eq_true_iff.2 ⟨decide_eq_true code.text_admitted.2.1, decide_eq_true code.safeMessage_admitted.2.1⟩

/-- The envelope of a failure that `routed` builds is a strict JSON value. -/
theorem safe_failureEnvelope (h : Presentable F route) {publication : Option PublicationEnvelope}
    (hpublication : ∀ p ∈ publication, p.Built F) {block digest : Text} (hblock : block.encodable = true)
    (hdigest : digest.encodable = true) {error : AdapterError}
    (herror : (adapterErrorValue (some error) : Value F).safe = true) :
    (adapterEnvelopeValue (⟨route, publication, none, [], block, digest, some error⟩ : AdapterEnvelope F)).safe =
      true := by
  have hpublished : (publicationValue publication : Value F).safe = true := by
    cases publication with
    | none => rfl
    | some publication => exact (hpublication publication rfl).safe
  have hstatus : (if some error = none then txt "OK" else txt "ERROR").encodable = true := by
    rw [if_neg (Option.some_ne_none error)]
    decide
  have hencoding : (Value.dict [(txt "scheme", .str exactIntegerEncodingScheme),
      (txt "decimal_string_paths", .list (([] : List Text).map .str))] : Value F).safe = true := by
    refine safe_fields ?_
    simp only [List.forall_mem_cons]
    exact ⟨safe_field (by decide) (safe_str (by decide)), safe_field (by decide) (safe_strs (by simp)), by simp⟩
  refine safe_fields ?_
  simp only [List.forall_mem_cons]
  exact ⟨safe_field (by decide) (safe_str (by decide)), safe_field (by decide) rfl,
    safe_field (by decide) (safe_str (by decide)), safe_field (by decide) (safe_str hstatus),
    safe_field (by decide) (safe_routeOutcome h), safe_field (by decide) hpublished, safe_field (by decide) rfl,
    safe_field (by decide) hencoding, safe_field (by decide) hblock, safe_field (by decide) hdigest,
    safe_field (by decide) herror, by simp⟩

theorem searchEnd_of_pattern {pattern : Text → Bool} {t : Text} (h : pattern t = true) :
    searchEnd pattern t = true := by
  rw [searchEnd, h, Bool.true_or]

theorem digestPattern_sha256 (bytes : List Byte) : digestPattern (Runtime.sha256 F bytes) = true := by
  rw [digestPattern, Runtime.sha256_hex, Bool.and_true]
  exact decide_eq_true (Runtime.sha256_length bytes)

/-- A failure whose cause encodes is published. -/
theorem ok_routedFailure (h : Presentable F route) {maxResultBytes : Nat} {code : FailureCode}
    {causeCode : Option Text} {missingFields : List Text} (hcause : ∀ c ∈ causeCode, c.encodable = true)
    (hmissing : missingFields = [] ∨ missingFields = route.missingFields) :
    Ok (routedFailure (F := F) maxResultBytes route code causeCode missingFields) := by
  obtain ⟨htext, hlength⟩ := failureText_admitted h code
  have hfields : (∀ t ∈ missingFields, t.encodable = true ∧ t ≠ []) ∧ missingFields.Nodup := by
    rcases hmissing with rfl | rfl
    · exact ⟨by simp, List.nodup_nil⟩
    · exact ⟨fun t ht => ⟨(h.missingFields t ht).1, (h.missingFields t ht).2.1⟩, h.missingNodup⟩
  let digest := Runtime.sha256 F (Text.utf8 (failureText F route code))
  let envelope : AdapterEnvelope F := ⟨route, failurePublication F route code, none, [], failureText F route code,
    digest, some (adapterError code causeCode missingFields)⟩
  have hsafe : (adapterEnvelopeValue envelope).safe = true :=
    safe_failureEnvelope h (fun p hp => failurePublication_built (Option.mem_def.1 hp)) htext (sha256_encodable _)
      (safe_adapterError hcause fun t ht => (hfields.1 t ht).1)
  have hadmitted : outputAdmitted envelope = true := by
    have herror := adapterError_admitted code causeCode
      (fun t ht => (hfields.1 t ht).2) hfields.2
    have hdigest : searchEnd digestPattern digest = true := searchEnd_of_pattern (digestPattern_sha256 _)
    simp only [outputAdmitted, envelope, hdigest, Option.all_some, herror]
    rfl
  have hfits : publishable maxResultBytes envelope (failureText F route code) = .ok true := by
    have hshort : decide ((Text.utf8 (failureText F route code)).length > maxTextBytes) = false :=
      decide_eq_false (Nat.not_lt.2 hlength)
    have hpresent : decide (envelope.error = none) = false := decide_eq_false (by simp [envelope])
    rw [publishable, adapterCanonicalJson, if_pos hsafe, ok_bind_ok, encodeStrict, Text.encode, if_pos htext]
    simp only [ok_bind_ok, hshort, hadmitted, hpresent, Bool.not_true, Bool.or_false, Bool.and_false, Bool.not_false]
  rw [routedFailure]
  simp only [factBlockDigest_of_encodable htext, ok_bind_ok]
  exact ⟨_, bind_eq_ok.2 ⟨true, hfits, rfl⟩⟩

/-! ## Routes are presentable -/

/-- The fields that may be missing of a request, in the order they are reported. -/
theorem missingFields_sublist (request : StewardRouteRequest) (operation : OperationKind) :
    ∃ count ∈ [txt "ordered_snapshot_ids_exactly_1", txt "ordered_snapshot_ids_exactly_2"],
      (missingFields request (routeRequirements operation)).Sublist
        [count, txt "scope_id", txt "path_or_prefix", txt "bounds"] := by
  have hoptional (c : Prop) [Decidable c] (t : Text) : (if c then [t] else []).Sublist [t] := by
    split_ifs <;> simp
  have hfields {count : Text} {l : List Text} (hsub : l.Sublist [count]) (c d e : Prop) [Decidable c] [Decidable d]
      [Decidable e] : (l ++ (if c then [txt "scope_id"] else []) ++ (if d then [txt "path_or_prefix"] else []) ++
        if e then [txt "bounds"] else []).Sublist [count, txt "scope_id", txt "path_or_prefix", txt "bounds"] :=
    ((hsub.append (hoptional c _)).append (hoptional d _)).append (hoptional e _)
  cases operation
  case exactSnapshotInspection | exactHistoricalEntryResolution | typedHistoricalFailure
      | historicalCurrentTruthBoundary | boundedStructuralDiagnostic =>
    exact ⟨_, List.mem_cons_self, hfields (hoptional _ (txt "ordered_snapshot_ids_exactly_1")) _ _ _⟩
  case minimalResumableHandoff | boundedChangeReview | orderedHistoricalChangeExplanation =>
    exact ⟨_, List.mem_cons_of_mem _ List.mem_cons_self,
      hfields (hoptional _ (txt "ordered_snapshot_ids_exactly_2")) _ _ _⟩
  all_goals exact ⟨_, List.mem_cons_self, hfields (List.nil_sublist _) _ _ _⟩

/-- Reported fields are distinct short names. -/
theorem missingFields_admitted (request : StewardRouteRequest) (operation : OperationKind) :
    (∀ t ∈ missingFields request (routeRequirements operation), t.encodable = true ∧ t ≠ [] ∧ t.length ≤ 40) ∧
      (missingFields request (routeRequirements operation)).Nodup ∧
      (missingFields request (routeRequirements operation)).length ≤ 4 := by
  obtain ⟨count, hcount, hsub⟩ := missingFields_sublist request operation
  have hnames : ([count, txt "scope_id", txt "path_or_prefix", txt "bounds"].all fun t =>
      t.encodable && t ≠ [] && t.length ≤ 40) = true ∧
      [count, txt "scope_id", txt "path_or_prefix", txt "bounds"].Nodup := by
    rw [List.mem_cons, List.mem_singleton] at hcount
    rcases hcount with rfl | rfl <;> exact ⟨by decide +kernel, by decide +kernel⟩
  refine ⟨fun t ht => ?_, hsub.nodup hnames.2, hsub.length_le⟩
  have h := List.all_eq_true.1 hnames.1 t (hsub.subset ht)
  simp only [Bool.and_eq_true, decide_eq_true_eq] at h
  exact ⟨h.1.1, h.1.2, h.2⟩

theorem name_operation_length (operation : OperationKind) : (Named.name operation).length ≤ 96 := by
  revert operation
  decide

theorem presentable_of_parts {decision : RouteDecision} {operationKind digest : Text} {missing : List Text}
    {grant : Option StewardRouteGrant} (hoperation : operationKind.encodable = true ∧ operationKind.length ≤ 96)
    (hdigest : digest.encodable = true ∧ digest.length ≤ 64)
    (hmissing : (∀ t ∈ missing, t.encodable = true ∧ t ≠ [] ∧ t.length ≤ 40) ∧ missing.Nodup ∧ missing.length ≤ 4)
    (hgrant : (grantValue grant : Value F).safe = true) :
    Presentable F ⟨routeSchemaName, routeSchemaVersion, decision, operationKind, digest, missing, grant⟩ where
  schemaName := by
    show routeSchemaName.encodable = true
    decide
  operationKind := hoperation
  requestDigest := hdigest
  missingFields := hmissing.1
  missingNodup := hmissing.2.1
  missingCount := hmissing.2.2
  grant := hgrant

theorem safe_grantValue {request : StewardRouteRequest} {grant : StewardRouteGrant} (h : Granted F request grant) :
    (grantValue (some grant) : Value F).safe = true := by
  obtain ⟨hsafe, hid⟩ := routeGrantDigest_eq_ok.1 h.digest
  have hgrantId : grant.grantId.encodable = true := by
    rw [hid]
    exact sha256_encodable _
  have hkey : (txt "grant_id").encodable = true := by decide
  obtain ⟨hkeys, hvalues⟩ := Value.safe_dict.1 hsafe
  exact Value.safe_dict.2 ⟨List.forall_mem_cons.2 ⟨hkey, hkeys⟩, List.forall_mem_cons.2 ⟨hgrantId, hvalues⟩⟩

/-- Every route can be presented. -/
theorem presentable_of_route {request : StewardRouteRequest} (h : routeStewardOperation F request = .ok route) :
    Presentable F route := by
  have hroute := h
  obtain ⟨_, hvalid, h⟩ := bind_eq_ok.1 h
  obtain ⟨identity, hidentity, h⟩ := bind_eq_ok.1 h
  have hdigest : identity.encodable = true ∧ identity.length ≤ 64 := by
    rw [(domainDigest_eq_ok.1 hidentity).2]
    exact ⟨sha256_encodable _, (Runtime.sha256_length _).le⟩
  obtain ⟨-, hlength, hpattern⟩ := (validateRouteRequest_eq_ok.1 hvalid).operationKind
  split at h
  · obtain rfl := Except.ok.inj h
    exact presentable_of_parts ⟨encodable_of_operationPattern hpattern, hlength⟩ hdigest
      ⟨by simp, List.nodup_nil, by simp⟩ rfl
  · rename_i operation hname
    have hoperation : (Named.name operation).encodable = true ∧ (Named.name operation).length ≤ 96 :=
      ⟨Named.encodable operation, name_operation_length operation⟩
    simp only at h
    split_ifs at h
    · obtain rfl := Except.ok.inj h
      exact presentable_of_parts hoperation hdigest (missingFields_admitted request operation) rfl
    · obtain ⟨grant, -, h⟩ := bind_eq_ok.1 h
      obtain rfl := Except.ok.inj h
      exact presentable_of_parts hoperation hdigest ⟨by simp, List.nodup_nil, by simp⟩
        (safe_grantValue ⟨_, hroute, rfl⟩)
    · obtain rfl := Except.ok.inj h
      exact presentable_of_parts hoperation hdigest ⟨by simp, List.nodup_nil, by simp⟩ rfl

/-! ## What dispatch answers -/

/-- A cause that does not encode is not published: the canonical form of the envelope raises. -/
theorem not_ok_routedFailure {maxResultBytes : Nat} {code : FailureCode} {cause : Text}
    (h : ¬ cause.encodable = true) :
    ¬ Ok (routedFailure (F := F) maxResultBytes route code (some cause) []) := by
  have hcause : cause ≠ [] := fun heq => h (by rw [heq]; rfl)
  rintro ⟨result, hresult⟩
  rw [routedFailure] at hresult
  obtain ⟨digest, -, hresult⟩ := bind_eq_ok.1 hresult
  obtain ⟨fits, hfits, -⟩ := bind_eq_ok.1 hresult
  obtain ⟨canonical, hcanonical, -⟩ := bind_eq_ok.1 hfits
  rw [adapterCanonicalJson] at hcanonical
  split_ifs at hcanonical with hsafe
  have herror := (Value.safe_dict.1 hsafe).2 (txt "error", adapterErrorValue (some (adapterError code (some cause) [])))
    (by simp)
  have hkept : (adapterError code (some cause) []).causeCode = some cause := by
    simp [adapterError, Option.filter_some, hcause]
  have hmember := (Value.safe_dict.1 herror).2 (txt "cause_code", .str cause) (by simp [hkept])
  exact h hmember

namespace AgentContextRouteDispatcher

variable {Pack : Type} {d : AgentContextRouteDispatcher F Pack} {guard : RouteGrantGuard}
  {request : StewardRouteRequest} {grant : StewardRouteGrant}

theorem ok_argumentFailure : Ok d.argumentFailure := by
  have hroute : Presentable F ⟨routeSchemaName, routeSchemaVersion, .unsupported, txt "INVALID",
      List.replicate 64 (ch '0'), [], none⟩ :=
    presentable_of_parts ⟨by decide, by decide⟩ ⟨by decide, by decide⟩ ⟨by simp, List.nodup_nil, by simp⟩ rfl
  exact ok_routedFailure hroute (by simp) (.inl rfl)

/-- The causes of the errors that preparing a pack raises encode. -/
def CausesEncode (d : AgentContextRouteDispatcher F Pack) (packRequest : AgentContextPackRequest) : Prop :=
  ∀ cls cause, d.prepare packRequest = .error (.agentContext cls (some cause)) → cause.encodable = true

theorem ok_execute_iff (h : Presentable F route) {packRequest : AgentContextPackRequest} :
    Ok (d.execute route packRequest) ↔ d.CausesEncode packRequest := by
  have hfails (code : FailureCode) : Ok (routedFailure (F := F) d.maxResultBytes route code none []) :=
    ok_routedFailure h (by simp) (.inl rfl)
  rw [execute, CausesEncode]
  cases hprepare : d.prepare packRequest with
  | error e =>
    cases e with
    | timeout => exact iff_of_true (hfails _) (by simp)
    | other => exact iff_of_true (hfails _) (by simp)
    | configuration cls =>
      refine iff_of_true (ok_routedFailure h ?_ (.inl rfl)) (by simp)
      have hcode : cls.code.encodable = true := by cases cls <;> decide
      simpa using hcode
    | agentContext cls causeCode =>
      cases causeCode with
      | none => exact iff_of_true (hfails _) (by simp)
      | some cause =>
        by_cases hcause : cause.encodable = true
        · exact iff_of_true (ok_routedFailure h (by simpa using hcause) (.inl rfl)) (by simp [hcause])
        · exact iff_of_false (not_ok_routedFailure hcause) fun hall => hcause (hall cls cause rfl)
  | ok pack =>
    refine iff_of_true ?_ (by simp)
    simp only
    cases d.success route pack with
    | ok result => exact ok_ok result
    | error e => exact hfails _

theorem consume_granted (h : Granted F request grant) :
    guard.consume F request grant = guard.enter grant := by
  rw [RouteGrantGuard.consume, validateRouteGrant_eq_ok.2 h, ok_bind_ok]

/-- A granted route answers unless its fresh grant is spent on a pack request that is not built. -/
theorem ok_granted_iff (h : Granted F request grant) (hpresent : Presentable F route)
    {fs : List (Text × Value F)} {question : Text} (hquestion : lookup fs (txt "question") = some (.str question))
    (hne : question ≠ []) : Ok (d.granted guard request route grant fs).1 ↔ (grant.grantId ∉ guard.consumed →
      d.decoder.Buildable request question ∧ ∀ packRequest,
        d.decoder.packRequest request (.str question : Value F) = .ok packRequest → d.CausesEncode packRequest) := by
  have hitem : Value.item (.dict fs) (txt "question") = .ok (.str question) := by rw [Value.item, hquestion]
  have hbuild := ok_packRequest_iff d.decoder h hne
  rw [granted, consume_granted h, RouteGrantGuard.enter]
  by_cases hfresh : grant.grantId ∈ guard.consumed
  · rw [if_pos hfresh]
    refine iff_of_true ?_ fun hnot => absurd hfresh hnot
    simp only [rejected]
    exact ok_routedFailure hpresent (by simp) (.inl rfl)
  · rw [if_neg hfresh]
    simp only [hitem, py_ok, ok_bind_ok]
    cases hpack : d.decoder.packRequest request (.str question : Value F) with
    | ok packRequest =>
      have hbuildable := hbuild.1 ⟨packRequest, hpack⟩
      simp only [ok_execute_iff hpresent]
      exact ⟨fun hcauses _ => ⟨hbuildable, fun p hp => by rw [← Except.ok.inj hp]; exact hcauses⟩,
        fun hall => (hall hfresh).2 packRequest rfl⟩
    | error e =>
      have hnot : ¬ d.decoder.Buildable request question := fun hb => by
        obtain ⟨packRequest, hok⟩ := hbuild.2 hb
        rw [hpack] at hok
        cases hok
      refine iff_of_false ?_ fun hall => hnot (hall hfresh).1
      rcases packRequest_cases d.decoder h hne with ⟨hb, -⟩ | ⟨-, hraise⟩
      · exact absurd hb hnot
      · rw [hpack] at hraise
        obtain rfl := Except.error.inj hraise
        exact not_ok_error _

/-- A fresh grant whose pack request is not built is spent, and dispatch raises. -/
theorem granted_lost (h : Granted F request grant) {fs : List (Text × Value F)} {question : Text}
    (hquestion : lookup fs (txt "question") = some (.str question)) (hne : question ≠ [])
    (hfresh : grant.grantId ∉ guard.consumed) (hnot : ¬ d.decoder.Buildable request question) :
    d.granted guard request route grant fs = (.error .mcpArgumentError, ⟨guard.consumed ++ [grant.grantId]⟩) := by
  have hitem : Value.item (.dict fs) (txt "question") = .ok (.str question) := by rw [Value.item, hquestion]
  rcases packRequest_cases (F := F) d.decoder h hne with ⟨hb, -⟩ | ⟨-, hraise⟩
  · exact absurd hb hnot
  · rw [granted, consume_granted h, RouteGrantGuard.enter, if_neg hfresh]
    simp only [hitem, py_ok, ok_bind_ok, hraise]
    rfl

/-- Arguments that the input schema admits, with the request and the question they carry. -/
structure Requested (arguments : Value F) (fs : List (Text × Value F)) (request : StewardRouteRequest)
    (question : Text) : Prop where
  arguments : arguments = .dict fs
  admitted : inputAdmitted fs = true
  request : routeRequest fs = .ok request
  question : lookup fs (txt "question") = some (.str question)

theorem question_of_inputAdmitted {fs : List (Text × Value F)} (h : inputAdmitted fs = true) :
    ∃ question, lookup fs (txt "question") = some (.str question) ∧ question ≠ [] := by
  simp only [inputAdmitted, Bool.and_eq_true] at h
  obtain ⟨⟨⟨⟨⟨⟨⟨-, hsome⟩, -⟩, -⟩, -⟩, -⟩, -⟩, hquestion⟩ := h
  obtain ⟨v, hv⟩ := Option.isSome_iff_exists.1 hsome
  rw [propertyAdmitted, hv] at hquestion
  cases v with
  | str t =>
    simp only [stringWithin, Bool.and_eq_true, decide_eq_true_eq] at hquestion
    exact ⟨t, hv, List.length_pos_iff.1 hquestion.1⟩
  | _ => cases hquestion

theorem dispatch_dict {toolName : Text} {fs : List (Text × Value F)} : d.dispatch guard toolName (.dict fs) =
    if toolName ≠ contextToolName then (d.argumentFailure, guard) else d.dispatchFields guard fs := rfl

/-- Dispatching requested arguments is routing their request. -/
theorem dispatch_requested {toolName : Text} (htool : toolName = contextToolName) {arguments : Value F}
    {fs : List (Text × Value F)} {question : Text} (h : Requested arguments fs request question)
    (hroute : routeStewardOperation F request = .ok route) :
    d.dispatch guard toolName arguments = d.routed guard request route fs := by
  have hrouted : AgentContextRouteDispatcher.route fs = .ok (request, route) := by
    rw [AgentContextRouteDispatcher.route, h.request, ok_bind_ok, hroute, ok_bind_ok]
  rw [h.arguments, dispatch_dict, if_neg (not_not.2 htool), dispatchFields, if_neg (not_not.2 h.admitted), hrouted]

theorem routed_granted {fs : List (Text × Value F)} (hroute : routeStewardOperation F request = .ok route)
    (hgrant : route.grant = some grant) :
    d.routed guard request route fs = d.granted guard request route grant fs := by
  obtain ⟨outcome, houtcome, hcontext, -⟩ := granted_iff.1 (⟨route, hroute, hgrant⟩ : Granted F request grant)
  obtain rfl : route = outcome := Except.ok.inj (hroute.symm.trans houtcome)
  rw [routed, hcontext, hgrant]

/-- A route without a grant is answered. -/
theorem ok_routed_of_none {fs : List (Text × Value F)} (hroute : routeStewardOperation F request = .ok route)
    (hgrant : route.grant = none) : Ok (d.routed guard request route fs).1 := by
  have hpresent := presentable_of_route hroute
  rw [routed, hgrant]
  cases route.decision with
  | clarify => exact ok_routedFailure hpresent (by simp) (.inr rfl)
  | _ => exact ok_routedFailure hpresent (by simp) (.inl rfl)

variable (guard) in
/-- Whatever is not a granted request of the one tool is answered. -/
theorem ok_dispatch_or_requested (toolName : Text) (arguments : Value F) :
    Ok (d.dispatch guard toolName arguments).1 ∨ (toolName = contextToolName ∧
      ∃ fs request question route grant, Requested arguments fs request question ∧ question ≠ [] ∧
        routeStewardOperation F request = .ok route ∧ route.grant = some grant) := by
  cases harguments : arguments with
  | dict fs =>
    rw [dispatch_dict]
    by_cases htool : toolName = contextToolName
    swap
    · rw [if_pos htool]
      exact .inl ok_argumentFailure
    rw [if_neg (not_not.2 htool), dispatchFields]
    by_cases hadmitted : inputAdmitted fs = true
    swap
    · rw [if_pos hadmitted]
      exact .inl ok_argumentFailure
    rw [if_neg (not_not.2 hadmitted)]
    cases hrouted : AgentContextRouteDispatcher.route fs with
    | error e => exact .inl ok_argumentFailure
    | ok r =>
      obtain ⟨request, hrequest, hrouted⟩ := bind_eq_ok.1 hrouted
      obtain ⟨route, hroute, hrouted⟩ := bind_eq_ok.1 hrouted
      obtain rfl := Except.ok.inj hrouted
      obtain ⟨question, hquestion, hne⟩ := question_of_inputAdmitted hadmitted
      cases hgrant : route.grant with
      | none => exact .inl (ok_routed_of_none hroute hgrant)
      | some grant =>
        exact .inr ⟨htool, fs, request, question, route, grant, ⟨rfl, hadmitted, hrequest, hquestion⟩, hne, hroute,
          hgrant⟩
  | _ => exact .inl ok_argumentFailure

/-- Dispatch answers unless it spends a fresh grant on a request that the decoder does not admit, or meets a
cause that does not encode; and a granted request is executable exactly when the decoder admits it. -/
theorem dispatch_answers_iff (d : AgentContextRouteDispatcher F Pack) (guard : RouteGrantGuard) (toolName : Text)
    (arguments : Value F) :
    (Ok (d.dispatch guard toolName arguments).1 ↔ ∀ fs request question grant, toolName = contextToolName →
      Requested arguments fs request question → Granted F request grant → grant.grantId ∉ guard.consumed →
        d.decoder.Buildable request question ∧ ∀ packRequest,
          d.decoder.packRequest request (.str question : Value F) = .ok packRequest → d.CausesEncode packRequest) ∧
    ∀ fs request question grant, Requested arguments fs request question → Granted F request grant →
      (Ok (d.decoder.packRequest request (.str question : Value F)) ↔ d.decoder.Buildable request question) := by
  have hne {fs : List (Text × Value F)} {request : StewardRouteRequest} {question : Text}
      (h : Requested arguments fs request question) : question ≠ [] := by
    obtain ⟨other, hother, hne⟩ := question_of_inputAdmitted h.admitted
    rw [h.question] at hother
    exact Value.str.inj (Option.some.inj hother) ▸ hne
  refine ⟨⟨?_, fun hall => ?_⟩, fun fs request question grant hrequested hgranted =>
    ok_packRequest_iff d.decoder hgranted (hne hrequested)⟩
  · intro hok fs request question grant htool hrequested hgranted hfresh
    obtain ⟨route, hroute, hgrant⟩ := hgranted
    rw [dispatch_requested htool hrequested hroute, routed_granted hroute hgrant] at hok
    exact (ok_granted_iff ⟨route, hroute, hgrant⟩ (presentable_of_route hroute) hrequested.question
      (hne hrequested)).1 hok hfresh
  · rcases ok_dispatch_or_requested (d := d) guard toolName arguments with hok |
      ⟨htool, fs, request, question, route, grant, hrequested, hquestion, hroute, hgrant⟩
    · exact hok
    · have hgranted : Granted F request grant := ⟨route, hroute, hgrant⟩
      rw [dispatch_requested htool hrequested hroute, routed_granted hroute hgrant]
      exact (ok_granted_iff hgranted (presentable_of_route hroute) hrequested.question hquestion).2
        (hall fs request question grant htool hrequested hgranted)

/-! ### A path with an empty component -/

/-- A dispatcher whose source is unavailable. -/
def unavailableDispatcher : AgentContextRouteDispatcher Integral Unit where
  decoder := plainDecoder
  maxResultBytes := 393216
  prepare _ := .error .other
  present _ _ := .error (.python .valueError)

/-- A diagnostic of one snapshot below `a//b`. -/
def doubledSlashRequest : StewardRouteRequest := { GuardSystem.diagnosticRequest with pathOrPrefix := some (txt "a//b") }

def doubledSlashArguments : List (Text × Value Integral) :=
  [(txt "operation_kind", .str (txt "BOUNDED_STRUCTURAL_DIAGNOSTIC")),
    (txt "ordered_snapshot_ids", .list [.str (txt "bd2e7a82-66f8-4fb2-b9c9-6114f880d4e6")]),
    (txt "scope_id", .str (txt "s")), (txt "path_or_prefix", .str (txt "a//b")),
    (txt "bounds", .dict [(txt "limit", .int 12)]), (txt "question", .str (txt "q"))]

/-- The schema admits the arguments and routing grants their request; dispatch spends the grant and raises. -/
theorem doubledSlash_lost : ∃ grant, Requested (.dict doubledSlashArguments) doubledSlashArguments
      doubledSlashRequest (txt "q") ∧ Granted Integral doubledSlashRequest grant ∧
    unavailableDispatcher.dispatch ⟨[]⟩ contextToolName (.dict doubledSlashArguments) =
      (.error .mcpArgumentError, ⟨[grant.grantId]⟩) ∧
    ¬ Ok (unavailableDispatcher.decoder.packRequest doubledSlashRequest (.str (txt "q") : Value Integral)) := by
  have hvalid : doubledSlashRequest.Valid := by
    have hok : validateRouteRequest doubledSlashRequest = .ok () := by decide
    exact validateRouteRequest_eq_ok.1 hok
  have hname : Named.ofName? (txt "BOUNDED_STRUCTURAL_DIAGNOSTIC") =
      some OperationKind.boundedStructuralDiagnostic := by decide
  obtain ⟨grant, hgranted⟩ := exists_granted (F := Integral) hvalid hname rfl (by decide)
  obtain ⟨route, hroute, hgrant⟩ := hgranted
  have hadmitted : inputAdmitted doubledSlashArguments = true := by decide
  have hrequest : routeRequest doubledSlashArguments = .ok doubledSlashRequest := by decide
  have hrequested : Requested (.dict doubledSlashArguments) doubledSlashArguments doubledSlashRequest (txt "q") :=
    ⟨rfl, hadmitted, hrequest, rfl⟩
  have hempty : [] ∈ Path.components (txt "a//b") := by decide
  have hnot : ¬ plainDecoder.Buildable doubledSlashRequest (txt "q") := fun h =>
    (h.1 (txt "a//b") rfl).2.1 hempty
  have hne : txt "q" ≠ [] := by decide
  refine ⟨grant, hrequested, ⟨route, hroute, hgrant⟩, ?_, fun hok =>
    hnot ((ok_packRequest_iff plainDecoder ⟨route, hroute, hgrant⟩ hne).1 hok)⟩
  rw [dispatch_requested rfl hrequested hroute, routed_granted hroute hgrant]
  exact granted_lost ⟨route, hroute, hgrant⟩ rfl hne List.not_mem_nil hnot

end AgentContextRouteDispatcher

end Steward
