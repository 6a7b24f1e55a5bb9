import Steward.Routing.Request
import Steward.Sqlite.Integral

/-!
# Single use of route grants

A grant is recomputed from the request it is presented with, and consumed under
the lock of its guard. `GuardSystem` runs any number of `consume` calls side by
side: each validates on its own, and the locked sections are the only steps that
share state.
-/

namespace Steward

open Py Sqlite

variable (F : Type) [SqliteFloat F]

/-! ## The guard -/

/-- Fail closed unless a grant exactly matches one admitted Context request. -/
def validateRouteGrant (request : StewardRouteRequest) (grant : StewardRouteGrant) : Result Unit := do
  let outcome ← routeStewardOperation F request
  if outcome.decision ≠ .context ∨ outcome.grant = none ∨ grant.schemaVersion ≠ routeSchemaVersion ∨
      grant.reusable then .error (.steward .agentRouteGrantError)
  else do
    let grantId ← routeGrantDigest F grant
    if grant.grantId ≠ grantId ∨ some grant ≠ outcome.grant then .error (.steward .agentRouteGrantError)
    else .ok ()

structure RouteGrantGuard where
  consumed : List Text

/-- The locked section of `consume`. -/
def RouteGrantGuard.enter (guard : RouteGrantGuard) (grant : StewardRouteGrant) : Result RouteGrantGuard :=
  if grant.grantId ∈ guard.consumed then .error (.steward .agentRouteGrantReusedError)
  else .ok ⟨guard.consumed ++ [grant.grantId]⟩

def RouteGrantGuard.consume (guard : RouteGrantGuard) (request : StewardRouteRequest)
    (grant : StewardRouteGrant) : Result RouteGrantGuard := do
  validateRouteGrant F request grant
  guard.enter grant

/-- Routing the request issues this grant. -/
def Granted (request : StewardRouteRequest) (grant : StewardRouteGrant) : Prop :=
  ∃ outcome, routeStewardOperation F request = .ok outcome ∧ outcome.grant = some grant

variable {F}

/-- The fields of an issued grant are those of its request. -/
structure StewardRouteGrant.Binds (grant : StewardRouteGrant) (request : StewardRouteRequest) : Prop where
  operationKind : Named.name grant.operationKind = request.operationKind
  orderedSnapshotIds : grant.orderedSnapshotIds = request.orderedSnapshotIds
  scopeId : request.scopeId = some grant.scopeId
  pathOrPrefix : grant.pathOrPrefix = request.pathOrPrefix
  bounds : request.bounds = some grant.bounds

/-- A grant binds one request. -/
theorem StewardRouteGrant.Binds.unique {grant : StewardRouteGrant} {r r' : StewardRouteRequest}
    (h : grant.Binds r) (h' : grant.Binds r') : r = r' := by
  obtain ⟨operation, ids, scope, path, bounds⟩ := r
  obtain ⟨operation', ids', scope', path', bounds'⟩ := r'
  obtain ⟨rfl, rfl, rfl, rfl, rfl⟩ := h
  obtain ⟨hoperation, hids, hscope, hpath, hbounds⟩ := h'
  simp only at hoperation hids hscope hpath hbounds
  rw [hoperation, hids, hscope, hpath, hbounds]

theorem grantForRequest_eq_ok {request : StewardRouteRequest} {operation : OperationKind} {identity : Text}
    {grant : StewardRouteGrant} (h : grantForRequest F request operation identity = .ok grant) :
    grant.schemaVersion = routeSchemaVersion ∧ grant.reusable = false ∧ grant.operationKind = operation ∧
      routeGrantDigest F grant = .ok grant.grantId ∧ grant.orderedSnapshotIds = request.orderedSnapshotIds ∧
      request.scopeId = some grant.scopeId ∧ grant.pathOrPrefix = request.pathOrPrefix ∧
      request.bounds = some grant.bounds := by
  unfold grantForRequest at h
  split at h
  · rename_i scopeId bounds hscope hbounds
    obtain ⟨grantId, hid, h⟩ := bind_eq_ok.1 h
    cases h
    exact ⟨rfl, rfl, rfl, hid, rfl, hscope, rfl, hbounds⟩
  · cases h

/-- What routing says of the request when it issues a grant. -/
theorem granted_iff {request : StewardRouteRequest} {grant : StewardRouteGrant} :
    Granted F request grant ↔ ∃ outcome, routeStewardOperation F request = .ok outcome ∧
      outcome.decision = .context ∧ outcome.grant = some grant ∧ grant.Binds request ∧
      grant.schemaVersion = routeSchemaVersion ∧ grant.reusable = false ∧
      routeGrantDigest F grant = .ok grant.grantId := by
  refine ⟨fun ⟨outcome, hroute, hgrant⟩ => ?_, fun ⟨outcome, hroute, _, hgrant, _⟩ => ⟨outcome, hroute, hgrant⟩⟩
  refine ⟨outcome, hroute, ?_⟩
  obtain ⟨-, -, hroute⟩ := bind_eq_ok.1 hroute
  obtain ⟨identity, -, hroute⟩ := bind_eq_ok.1 hroute
  split at hroute
  · cases hroute
    cases hgrant
  · rename_i operation hname
    simp only at hroute
    split_ifs at hroute
    · cases hroute
      cases hgrant
    · obtain ⟨issued, hissued, hroute⟩ := bind_eq_ok.1 hroute
      cases hroute
      cases hgrant
      obtain ⟨hversion, hreusable, hop, hid, hids, hscope, hpath, hbounds⟩ := grantForRequest_eq_ok hissued
      have hbound : Named.name grant.operationKind = request.operationKind := by
        rw [hop]
        exact Named.ofName?_eq_some.1 hname
      exact ⟨rfl, rfl, ⟨hbound, hids, hscope, hpath, hbounds⟩, hversion, hreusable, hid⟩
    · cases hroute
      cases hgrant

theorem Granted.binds {request : StewardRouteRequest} {grant : StewardRouteGrant} (h : Granted F request grant) :
    grant.Binds request := by
  obtain ⟨-, -, -, -, hbinds, -⟩ := granted_iff.1 h
  exact hbinds

theorem Granted.digest {request : StewardRouteRequest} {grant : StewardRouteGrant} (h : Granted F request grant) :
    routeGrantDigest F grant = .ok grant.grantId := by
  obtain ⟨-, -, -, -, -, -, -, hid⟩ := granted_iff.1 h
  exact hid

/-- A request is issued one grant. -/
theorem Granted.unique {request : StewardRouteRequest} {grant grant' : StewardRouteGrant}
    (h : Granted F request grant) (h' : Granted F request grant') : grant = grant' := by
  obtain ⟨outcome, hroute, hgrant⟩ := h
  obtain ⟨outcome', hroute', hgrant'⟩ := h'
  obtain rfl : outcome = outcome' := Except.ok.inj (hroute.symm.trans hroute')
  exact Option.some.inj (hgrant.symm.trans hgrant')

/-- A valid Context request with nothing missing is granted. -/
theorem exists_granted {request : StewardRouteRequest} (h : request.Valid) {operation : OperationKind}
    (hname : Named.ofName? request.operationKind = some operation)
    (hmissing : missingFields request (routeRequirements operation) = []) (hcontext : operation ∈ contextOperations) :
    ∃ grant, Granted F request grant := by
  obtain ⟨outcome, hroute⟩ := ok_routeStewardOperation (F := F) h
  obtain ⟨-, -, hdecided⟩ := bind_eq_ok.1 hroute
  obtain ⟨identity, -, hdecided⟩ := bind_eq_ok.1 hdecided
  rw [hname] at hdecided
  simp only [hmissing, ne_eq, not_true_eq_false, if_false, if_pos hcontext] at hdecided
  obtain ⟨grant, -, hdecided⟩ := bind_eq_ok.1 hdecided
  cases hdecided
  exact ⟨grant, _, hroute, rfl⟩

theorem validateRouteGrant_eq_ok {request : StewardRouteRequest} {grant : StewardRouteGrant} :
    validateRouteGrant F request grant = .ok () ↔ Granted F request grant := by
  constructor
  · intro h
    obtain ⟨outcome, hroute, h⟩ := bind_eq_ok.1 h
    split_ifs at h
    obtain ⟨grantId, -, h⟩ := bind_eq_ok.1 h
    split_ifs at h with hdiffer
    exact ⟨outcome, hroute, (not_not.1 (not_or.1 hdiffer).2).symm⟩
  · intro h
    obtain ⟨outcome, hroute, hdecision, hgrant, -, hversion, hreusable, hid⟩ := granted_iff.1 h
    have hadmitted : ¬ (outcome.decision ≠ .context ∨ outcome.grant = none ∨
        grant.schemaVersion ≠ routeSchemaVersion ∨ grant.reusable = true) := by
      simp [hdecision, hgrant, hversion, hreusable]
    have hmatch : ¬ (grant.grantId ≠ grant.grantId ∨ some grant ≠ outcome.grant) := by simp [hgrant]
    rw [validateRouteGrant, hroute, ok_bind_ok, if_neg hadmitted, hid, ok_bind_ok, if_neg hmatch]

/-! ## Identities tell requests apart -/

/-- The text a grant identity is a digest of. -/
def hashedGrant (F : Type) [SqliteFloat F] (grant : StewardRouteGrant) : Text :=
  txt "local_steward.agent_route_grant.v1" ++ [0] ++
    canonicalText (F := F) (.dict (routeGrantMachineObject grant))

theorem routeGrantDigest_eq_ok {grant : StewardRouteGrant} {id : Text} :
    routeGrantDigest F grant = .ok id ↔ (Value.dict (routeGrantMachineObject grant) : Value F).safe = true ∧
      id = Runtime.sha256 F (Text.utf8 (hashedGrant F grant)) := domainDigest_eq_ok

section
variable {grant grant' : StewardRouteGrant}

section

omit [SqliteFloat F]

theorem keys_routeGrantMachineObject : (keys (routeGrantMachineObject (F := F) grant)).Nodup := by
  have hkeys : [txt "schema_version", txt "operation_kind", txt "ordered_snapshot_ids", txt "scope_id",
      txt "path_or_prefix", txt "bounds", txt "request_digest", txt "reusable"].Nodup := by decide +kernel
  exact hkeys

theorem keys_boundsValue (bounds : RouteBounds) :
    (keys [(txt "limit", (.int bounds.limit : Value F)), (txt "offset", .int bounds.offset)]).Nodup := by
  have hkeys : [txt "limit", txt "offset"].Nodup := by decide
  exact hkeys

theorem wf_textOrNone (t : Option Text) : (textOrNone t : Value F).wf = true := by cases t <;> rfl

theorem wf_texts (ts : List Text) : (Value.list (ts.map .str) : Value F).wf = true := by
  refine Value.wf_list.2 fun v hv => ?_
  obtain ⟨t, -, rfl⟩ := List.mem_map.1 hv
  rfl

theorem wf_routeGrantMachineObject : (Value.dict (routeGrantMachineObject grant) : Value F).wf = true := by
  have hbounds : (boundsValue grant.bounds : Value F).wf = true :=
    Value.wf_dict.2 ⟨keys_boundsValue _, by simp [Value.wf, Value.everywhere, Value.distinctKeys]⟩
  refine Value.wf_dict.2 ⟨keys_routeGrantMachineObject, ?_⟩
  simp only [routeGrantMachineObject, List.forall_mem_cons]
  exact ⟨rfl, rfl, wf_texts _, rfl, wf_textOrNone _, hbounds, rfl, rfl, by simp⟩

theorem sortKeys_textOrNone_injective : Function.Injective fun t => (textOrNone t : Value F).sortKeys := by
  intro t u h
  cases t <;> cases u <;> simp_all [textOrNone, Value.sortKeys]

theorem sortKeys_texts_injective :
    Function.Injective fun ts : List Text => (Value.list (ts.map .str) : Value F).sortKeys := by
  intro ts us h
  simp only [Value.sortKeys_list, Value.list.injEq, List.map_map] at h
  exact List.map_injective_iff.2 (fun t u htu => Value.str.inj htu) h

theorem sortKeys_boundsValue_injective : Function.Injective fun b => (boundsValue b : Value F).sortKeys := by
  intro a b h
  have hsame := lookup_of_sortKeys_eq (keys_boundsValue a) (keys_boundsValue b) h
  have hlimit : (some (.int a.limit) : Option (Value F)) = some (.int b.limit) := hsame (txt "limit")
  have hoffset : (some (.int a.offset) : Option (Value F)) = some (.int b.offset) := hsame (txt "offset")
  obtain ⟨limit, offset⟩ := a
  rw [show limit = b.limit from Value.int.inj (Option.some.inj hlimit),
    show offset = b.offset from Value.int.inj (Option.some.inj hoffset)]

end

/-- Equal hashed texts bind the same request. -/
theorem binds_of_hashedGrant_eq (hs : (Value.dict (routeGrantMachineObject grant) : Value F).safe = true)
    (hs' : (Value.dict (routeGrantMachineObject grant') : Value F).safe = true)
    (h : hashedGrant F grant = hashedGrant F grant') {request : StewardRouteRequest}
    (hbinds : grant.Binds request) : grant'.Binds request := by
  have htext := List.append_cancel_left h
  have hsame := lookup_of_sortKeys_eq keys_routeGrantMachineObject keys_routeGrantMachineObject
    (sortKeys_eq_of_canonicalText hs wf_routeGrantMachineObject hs' wf_routeGrantMachineObject htext)
  have hkind : (some (.str (Named.name grant.operationKind)) : Option (Value F)) =
    some (.str (Named.name grant'.operationKind)) := hsame (txt "operation_kind")
  have hids : (some (Value.list (grant.orderedSnapshotIds.map .str)).sortKeys : Option (Value F)) =
    some (Value.list (grant'.orderedSnapshotIds.map .str)).sortKeys := hsame (txt "ordered_snapshot_ids")
  have hscope : (some (.str grant.scopeId) : Option (Value F)) = some (.str grant'.scopeId) :=
    hsame (txt "scope_id")
  have hpath : (some (textOrNone grant.pathOrPrefix).sortKeys : Option (Value F)) =
    some (textOrNone grant'.pathOrPrefix).sortKeys := hsame (txt "path_or_prefix")
  have hbounds : (some (boundsValue grant.bounds).sortKeys : Option (Value F)) =
    some (boundsValue grant'.bounds).sortKeys := hsame (txt "bounds")
  have hids' := sortKeys_texts_injective (Option.some.inj hids)
  have hpath' := sortKeys_textOrNone_injective (Option.some.inj hpath)
  have hbounds' := sortKeys_boundsValue_injective (Option.some.inj hbounds)
  have hscope' := Value.str.inj (Option.some.inj hscope)
  have hkind' := Value.str.inj (Option.some.inj hkind)
  exact ⟨hkind' ▸ hbinds.operationKind, hids' ▸ hbinds.orderedSnapshotIds, hscope' ▸ hbinds.scopeId,
    hpath' ▸ hbinds.pathOrPrefix, hbounds' ▸ hbinds.bounds⟩

/-- Issued grants of one identity are issued for one request. -/
theorem request_eq_of_grantId {request request' : StewardRouteRequest} (h : Granted F request grant)
    (h' : Granted F request' grant') (hsha : Collisionless F [hashedGrant F grant, hashedGrant F grant'])
    (hid : grant.grantId = grant'.grantId) : request = request' := by
  obtain ⟨hs, hgid⟩ := routeGrantDigest_eq_ok.1 h.digest
  obtain ⟨hs', hgid'⟩ := routeGrantDigest_eq_ok.1 h'.digest
  have htext : hashedGrant F grant = hashedGrant F grant' :=
    hsha _ List.mem_cons_self _ (List.mem_cons_of_mem _ List.mem_cons_self)
      (hgid.symm.trans (hid.trans hgid'))
  exact (binds_of_hashedGrant_eq hs hs' htext h.binds).unique h'.binds

end

/-! ## Concurrent calls -/

inductive ConsumeStatus where
  | invoked
  | validated
  | accepted
  | rejected (e : Exc)
  deriving DecidableEq

/-- One call of `consume`, and how far it got. -/
structure ConsumeCall where
  request : StewardRouteRequest
  grant : StewardRouteGrant
  status : ConsumeStatus

/-- One guard and every call made on it. -/
structure GuardSystem where
  guard : RouteGrantGuard
  calls : List ConsumeCall

/-- Where validation leaves a call. -/
def validatedStatus : Result Unit → ConsumeStatus
  | .ok _ => .validated
  | .error e => .rejected e

/-- One call is made, validates its grant, or passes through the locked section. -/
inductive GuardSystem.Step (F : Type) [SqliteFloat F] : GuardSystem → GuardSystem → Prop where
  | invoke (guard : RouteGrantGuard) (calls : List ConsumeCall) (request : StewardRouteRequest)
      (grant : StewardRouteGrant) :
      Step F ⟨guard, calls⟩ ⟨guard, calls ++ [⟨request, grant, .invoked⟩]⟩
  | validate (guard : RouteGrantGuard) (before after : List ConsumeCall) (request : StewardRouteRequest)
      (grant : StewardRouteGrant) :
      Step F ⟨guard, before ++ ⟨request, grant, .invoked⟩ :: after⟩
        ⟨guard, before ++ ⟨request, grant, validatedStatus (validateRouteGrant F request grant)⟩ :: after⟩
  | accept {guard guard' : RouteGrantGuard} (before after : List ConsumeCall) (request : StewardRouteRequest)
      {grant : StewardRouteGrant} (h : guard.enter grant = .ok guard') :
      Step F ⟨guard, before ++ ⟨request, grant, .validated⟩ :: after⟩
        ⟨guard', before ++ ⟨request, grant, .accepted⟩ :: after⟩
  | reject {guard : RouteGrantGuard} (before after : List ConsumeCall) (request : StewardRouteRequest)
      {grant : StewardRouteGrant} {e : Exc} (h : guard.enter grant = .error e) :
      Step F ⟨guard, before ++ ⟨request, grant, .validated⟩ :: after⟩
        ⟨guard, before ++ ⟨request, grant, .rejected e⟩ :: after⟩

namespace GuardSystem

def initial : GuardSystem := ⟨⟨[]⟩, []⟩

/-- Some interleaving of calls leads here. -/
def Reachable (F : Type) [SqliteFloat F] (s : GuardSystem) : Prop := Relation.ReflTransGen (Step F) initial s

def accepted (s : GuardSystem) : List ConsumeCall := s.calls.filter fun c => c.status = .accepted

/-- Calls past validation hold issued grants, and the guard knows the accepted ones. -/
structure Invariant (F : Type) [SqliteFloat F] (s : GuardSystem) : Prop where
  granted : ∀ c ∈ s.calls, c.status = .validated ∨ c.status = .accepted → Granted F c.request c.grant
  nodup : s.guard.consumed.Nodup
  consumed : s.guard.consumed.Perm (s.accepted.map fun c => c.grant.grantId)

variable {s s' : GuardSystem}

theorem enter_eq_ok {guard guard' : RouteGrantGuard} {grant : StewardRouteGrant} :
    guard.enter grant = .ok guard' ↔ grant.grantId ∉ guard.consumed ∧
      guard' = ⟨guard.consumed ++ [grant.grantId]⟩ := by
  unfold RouteGrantGuard.enter
  split_ifs with h <;> simp [h, eq_comm]

/-- A step that accepts nothing leaves the accepted calls as they are. -/
theorem accepted_congr {guard : RouteGrantGuard} {before after : List ConsumeCall}
    {request : StewardRouteRequest} {grant : StewardRouteGrant} {status status' : ConsumeStatus}
    (h : status ≠ .accepted) (h' : status' ≠ .accepted) :
    accepted ⟨guard, before ++ ⟨request, grant, status⟩ :: after⟩ =
      accepted ⟨guard, before ++ ⟨request, grant, status'⟩ :: after⟩ := by
  simp [accepted, List.filter_append, h, h']

theorem validatedStatus_ne (x : Result Unit) : validatedStatus x ≠ .accepted := by cases x <;> simp [validatedStatus]

theorem Invariant.step (hs : Invariant F s) (h : Step F s s') : Invariant F s' := by
  obtain ⟨hgranted, hnodup, hconsumed⟩ := hs
  cases h with
  | invoke guard calls request grant =>
    refine ⟨fun c hc hstatus => ?_, hnodup, ?_⟩
    · rcases List.mem_append.1 hc with hc | hc
      · exact hgranted c hc hstatus
      · rw [List.mem_singleton.1 hc] at hstatus
        simp at hstatus
    · simpa [accepted, List.filter_append] using hconsumed
  | validate guard before after request grant =>
    refine ⟨fun c hc hstatus => ?_, hnodup, ?_⟩
    · rcases List.mem_append.1 hc with hc | hc
      · exact hgranted c (List.mem_append_left _ hc) hstatus
      · rcases List.mem_cons.1 hc with rfl | hc
        · cases hvalid : validateRouteGrant F request grant with
          | ok _ => exact validateRouteGrant_eq_ok.1 hvalid
          | error e => simp [hvalid, validatedStatus] at hstatus
        · exact hgranted c (List.mem_append_right _ (List.mem_cons_of_mem _ hc)) hstatus
    · rwa [accepted_congr ConsumeStatus.noConfusion (validatedStatus_ne _)] at hconsumed
  | accept before after request h =>
    rename_i guard guard' grant
    obtain ⟨hfresh, rfl⟩ := enter_eq_ok.1 h
    refine ⟨fun c hc hstatus => ?_, ?_, ?_⟩
    · rcases List.mem_append.1 hc with hc | hc
      · exact hgranted c (List.mem_append_left _ hc) hstatus
      · rcases List.mem_cons.1 hc with rfl | hc
        · exact hgranted ⟨request, grant, .validated⟩ (List.mem_append_right _ List.mem_cons_self) (.inl rfl)
        · exact hgranted c (List.mem_append_right _ (List.mem_cons_of_mem _ hc)) hstatus
    · exact List.nodup_append'.2 ⟨hnodup, List.nodup_singleton _, List.disjoint_singleton.2 hfresh⟩
    · have hbefore : (accepted ⟨guard, before ++ ⟨request, grant, .validated⟩ :: after⟩) =
          before.filter (fun c => c.status = .accepted) ++ after.filter fun c => c.status = .accepted := by
        simp [accepted, List.filter_append]
      have hafter : (accepted ⟨⟨guard.consumed ++ [grant.grantId]⟩, before ++ ⟨request, grant, .accepted⟩ :: after⟩) =
          before.filter (fun c => c.status = .accepted) ++
            ⟨request, grant, .accepted⟩ :: after.filter fun c => c.status = .accepted := by
        simp [accepted, List.filter_append]
      rw [hbefore, List.map_append] at hconsumed
      rw [hafter, List.map_append, List.map_cons]
      exact (List.perm_append_singleton _ _).trans ((hconsumed.cons _).trans List.perm_middle.symm)
  | reject before after request h =>
    rename_i guard grant e
    have hsame : accepted ⟨guard, before ++ ⟨request, grant, .validated⟩ :: after⟩ =
        accepted ⟨guard, before ++ ⟨request, grant, .rejected e⟩ :: after⟩ :=
      accepted_congr (by simp) (by simp)
    refine ⟨fun c hc hstatus => ?_, hnodup, ?_⟩
    · rcases List.mem_append.1 hc with hc | hc
      · exact hgranted c (List.mem_append_left _ hc) hstatus
      · rcases List.mem_cons.1 hc with rfl | hc
        · simp at hstatus
        · exact hgranted c (List.mem_append_right _ (List.mem_cons_of_mem _ hc)) hstatus
    · rwa [hsame] at hconsumed

theorem Reachable.invariant (h : Reachable F s) : Invariant F s := by
  induction h with
  | refl => exact ⟨by simp [initial], List.nodup_nil, .refl _⟩
  | tail _ hstep ih => exact ih.step hstep

/-- Grants are bound to one request each and consumed at most once. -/
structure SingleUse (F : Type) [SqliteFloat F] (s : GuardSystem) : Prop where
  bound : ∀ c ∈ s.accepted, Granted F c.request c.grant ∧ c.grant.Binds c.request ∧
    ∀ request, Granted F request c.grant → request = c.request
  unique : (s.accepted.map ConsumeCall.request).Nodup
  rejected : ∀ s', Step F s s' → s'.accepted = s.accepted → s'.guard.consumed = s.guard.consumed
  fresh : ∀ request grant, Granted F request grant →
    Collisionless F (hashedGrant F grant :: s.accepted.map fun c => hashedGrant F c.grant) →
    (∀ c ∈ s.accepted, c.request ≠ request) →
      s.guard.consume F request grant = .ok ⟨s.guard.consumed ++ [grant.grantId]⟩

/-- Only a step that accepts a call changes the guard. -/
theorem consumed_of_step (h : Step F s s') (hsame : s'.accepted = s.accepted) :
    s'.guard.consumed = s.guard.consumed := by
  cases h with
  | accept before after request h =>
    have hlength := congrArg List.length hsame
    simp [accepted, List.filter_append] at hlength
  | _ => rfl

/-- Every interleaving of calls uses every grant at most once, and only for its request. -/
theorem grants_single_use (h : Reachable F s) : s.SingleUse F := by
  obtain ⟨hgranted, hnodup, hconsumed⟩ := h.invariant
  have haccepted : ∀ c ∈ s.accepted, Granted F c.request c.grant := fun c hc =>
    hgranted c (List.mem_of_mem_filter hc) (.inr (by simpa using (List.mem_filter.1 hc).2))
  refine ⟨fun c hc => ⟨haccepted c hc, (haccepted c hc).binds, fun request hrequest => ?_⟩, ?_,
    fun s' hstep => consumed_of_step hstep, fun request grant hgrant hsha hnone => ?_⟩
  · exact hrequest.binds.unique (haccepted c hc).binds
  · have hids : (s.accepted.map fun c => c.grant.grantId).Nodup := hconsumed.nodup_iff.1 hnodup
    rw [List.Nodup, List.pairwise_map] at hids ⊢
    refine hids.imp_of_mem fun {a b} ha hb hab heq => hab ?_
    rw [(haccepted a ha).unique (heq ▸ haccepted b hb)]
  · have hfresh : grant.grantId ∉ s.guard.consumed := by
      intro hmem
      obtain ⟨c, hc, hid⟩ := List.mem_map.1 (hconsumed.mem_iff.1 hmem)
      have hmem (t : Text) (ht : t ∈ [hashedGrant F c.grant, hashedGrant F grant]) :
          t ∈ hashedGrant F grant :: s.accepted.map fun c => hashedGrant F c.grant := by
        rcases List.mem_cons.1 ht with heq | ht
        · exact List.mem_cons_of_mem _ (List.mem_map.2 ⟨c, hc, heq.symm⟩)
        · exact List.mem_cons.2 (.inl (List.mem_singleton.1 ht))
      have htexts : Collisionless F [hashedGrant F c.grant, hashedGrant F grant] :=
        fun t ht u hu => hsha t (hmem t ht) u (hmem u hu)
      exact hnone c hc (request_eq_of_grantId (haccepted c hc) hgrant htexts hid)
    rw [RouteGrantGuard.consume, validateRouteGrant_eq_ok.2 hgrant, ok_bind_ok]
    exact enter_eq_ok.2 ⟨hfresh, rfl⟩

/-- A diagnostic of one snapshot. -/
def diagnosticRequest : StewardRouteRequest where
  operationKind := txt "BOUNDED_STRUCTURAL_DIAGNOSTIC"
  orderedSnapshotIds := [txt "bd2e7a82-66f8-4fb2-b9c9-6114f880d4e6"]
  scopeId := some (txt "s")
  pathOrPrefix := some (txt "a")
  bounds := some ⟨12, 0⟩

theorem diagnosticRequest_valid : diagnosticRequest.Valid := by
  have hvalid : validateRouteRequest diagnosticRequest = .ok () := by decide +kernel
  exact validateRouteRequest_eq_ok.1 hvalid

theorem diagnosticRequest_granted : ∃ grant, Granted Integral diagnosticRequest grant := by
  have hname : Named.ofName? (txt "BOUNDED_STRUCTURAL_DIAGNOSTIC") =
      some OperationKind.boundedStructuralDiagnostic := by decide +kernel
  exact exists_granted diagnosticRequest_valid hname rfl (by decide)

/-- The grant of a diagnostic, presented twice. -/
theorem diagnostic_single_use : ∃ s : GuardSystem, s.Reachable Integral ∧
    s.calls.map ConsumeCall.status = [.accepted, .rejected (.steward .agentRouteGrantReusedError)] ∧
      s.SingleUse Integral := by
  obtain ⟨grant, hgrant⟩ := diagnosticRequest_granted
  let call (status : ConsumeStatus) : ConsumeCall := ⟨diagnosticRequest, grant, status⟩
  have hvalid : validatedStatus (validateRouteGrant Integral diagnosticRequest grant) = .validated := by
    rw [validateRouteGrant_eq_ok.2 hgrant]
    rfl
  have henter : RouteGrantGuard.enter ⟨[]⟩ grant = .ok ⟨[grant.grantId]⟩ := rfl
  have hreused : RouteGrantGuard.enter ⟨[grant.grantId]⟩ grant =
      .error (.steward .agentRouteGrantReusedError) := if_pos List.mem_cons_self
  have hvalidate (before after : List ConsumeCall) : Step Integral ⟨⟨[]⟩, before ++ call .invoked :: after⟩
      ⟨⟨[]⟩, before ++ call .validated :: after⟩ := by
    have hstep := Step.validate (F := Integral) ⟨[]⟩ before after diagnosticRequest grant
    rwa [hvalid] at hstep
  have hreach : Reachable Integral ⟨⟨[grant.grantId]⟩,
      [call .accepted, call (.rejected (.steward .agentRouteGrantReusedError))]⟩ := by
    have h1 : Step Integral initial ⟨⟨[]⟩, [call .invoked]⟩ := .invoke ⟨[]⟩ [] diagnosticRequest grant
    have h2 : Step Integral ⟨⟨[]⟩, [call .invoked]⟩ ⟨⟨[]⟩, [call .validated]⟩ := hvalidate [] []
    have h3 : Step Integral ⟨⟨[]⟩, [call .validated]⟩ ⟨⟨[]⟩, [call .validated, call .invoked]⟩ :=
      .invoke ⟨[]⟩ [call .validated] diagnosticRequest grant
    have h4 : Step Integral ⟨⟨[]⟩, [call .validated, call .invoked]⟩ ⟨⟨[]⟩, [call .validated, call .validated]⟩ :=
      hvalidate [call .validated] []
    have h5 : Step Integral ⟨⟨[]⟩, [call .validated, call .validated]⟩
        ⟨⟨[grant.grantId]⟩, [call .accepted, call .validated]⟩ := .accept [] [call .validated] diagnosticRequest henter
    have h6 : Step Integral ⟨⟨[grant.grantId]⟩, [call .accepted, call .validated]⟩ ⟨⟨[grant.grantId]⟩,
        [call .accepted, call (.rejected (.steward .agentRouteGrantReusedError))]⟩ :=
      .reject [call .accepted] [] diagnosticRequest hreused
    exact (((((Relation.ReflTransGen.single h1).tail h2).tail h3).tail h4).tail h5).tail h6
  exact ⟨_, hreach, rfl, grants_single_use hreach⟩

end GuardSystem

end Steward
