import Steward.Evidence.Canonical
import Steward.Py.Named
import Steward.Sqlite.Integral

/-!
# Host authority contexts

`agent_authority/service.py`: the host creates a context of admissions for a
session and keeps its machine object in a file; the loader rebuilds the context
from whatever JSON the file holds. `load_reestablishes_iff` says when what it
returns is what the constructor would have admitted.
-/

namespace Steward.Authority

open Py Sqlite

/-! ## The records -/

inductive RiskClass where
  | historicalRead
  | currentContentRead
  | codeWorkspaceRead
  | derivedStateAppend
  | recoveryOrAdmin
  | externalDisclosure
  | userFileMutation
  deriving DecidableEq, Repr

instance : Named RiskClass where
  all := [.historicalRead, .currentContentRead, .codeWorkspaceRead, .derivedStateAppend, .recoveryOrAdmin,
    .externalDisclosure, .userFileMutation]
  name
    | .historicalRead => txt "HISTORICAL_READ"
    | .currentContentRead => txt "CURRENT_CONTENT_READ"
    | .codeWorkspaceRead => txt "CODE_WORKSPACE_READ"
    | .derivedStateAppend => txt "DERIVED_STATE_APPEND"
    | .recoveryOrAdmin => txt "RECOVERY_OR_ADMIN"
    | .externalDisclosure => txt "EXTERNAL_DISCLOSURE"
    | .userFileMutation => txt "USER_FILE_MUTATION"

inductive AuthoritySource where
  | explicitRequest
  | hostApproval
  | inheritedSameTask
  deriving DecidableEq, Repr

instance : Named AuthoritySource where
  all := [.explicitRequest, .hostApproval, .inheritedSameTask]
  name
    | .explicitRequest => txt "EXPLICIT_REQUEST"
    | .hostApproval => txt "HOST_APPROVAL"
    | .inheritedSameTask => txt "INHERITED_SAME_TASK"

/-- A path of objects `α`: texts where the host writes it, any value where it is loaded. -/
structure AuthorityPath (α : Type) where
  scopeId : α
  relativePath : α

structure AuthorityAdmission (α : Type) where
  riskClass : RiskClass
  operations : List α
  scopeIds : List α := []
  snapshotIds : List α := []
  runIds : List α := []
  paths : List (AuthorityPath α) := []
  externalDestinations : List α := []
  userFileIds : List α := []

structure AuthorityContext (F : Type) where
  schemaName : Value F
  schemaVersion : Value F
  authorityDomainDigest : Value F
  taskIdentityDigest : Value F
  source : AuthoritySource
  admissions : List (AuthorityAdmission (Value F))
  contextDigest : Value F

/-- What the code reads of an admitted session. -/
structure Session where
  authorityDomainDigest : Text
  hex : authorityDomainDigest.all isHexDigit = true

def authoritySchemaName : Text := txt "local_steward.authority_context"

def authoritySchemaVersion : Int := 1

inductive Failure where
  | context (message : Text)
  | other (e : Exc)
  deriving DecidableEq

def contextError (message : String) : Failure := .context (txt message)

section

variable {F : Type} {α : Type}

def AuthorityAdmission.map {β : Type} (f : α → β) (a : AuthorityAdmission α) : AuthorityAdmission β where
  riskClass := a.riskClass
  operations := a.operations.map f
  scopeIds := a.scopeIds.map f
  snapshotIds := a.snapshotIds.map f
  runIds := a.runIds.map f
  paths := a.paths.map fun p => ⟨f p.scopeId, f p.relativePath⟩
  externalDestinations := a.externalDestinations.map f
  userFileIds := a.userFileIds.map f

/-! ## The machine object -/

def AuthorityPath.facts (p : AuthorityPath (Value F)) : List (Text × Value F) :=
  [(txt "scope_id", p.scopeId), (txt "relative_path", p.relativePath)]

/-- `_admission_payload` -/
def admissionPayload (a : AuthorityAdmission (Value F)) : List (Text × Value F) :=
  [(txt "risk_class", .str (Named.name a.riskClass)),
    (txt "operations", .list a.operations),
    (txt "scope_ids", .list a.scopeIds),
    (txt "snapshot_ids", .list a.snapshotIds),
    (txt "run_ids", .list a.runIds),
    (txt "paths", .list (a.paths.map fun p => .dict p.facts)),
    (txt "external_destinations", .list a.externalDestinations),
    (txt "user_file_ids", .list a.userFileIds)]

/-- `authority_context_machine_object`, without the digest. -/
def payload (c : AuthorityContext F) : List (Text × Value F) :=
  [(txt "schema_name", c.schemaName),
    (txt "schema_version", c.schemaVersion),
    (txt "authority_domain_digest", c.authorityDomainDigest),
    (txt "task_identity_digest", c.taskIdentityDigest),
    (txt "source", .str (Named.name c.source)),
    (txt "admissions", .list (c.admissions.map fun a => .dict (admissionPayload a)))]

/-- `authority_context_machine_object` -/
def machineObject (c : AuthorityContext F) : List (Text × Value F) :=
  payload c ++ [(txt "context_digest", c.contextDigest)]

/-- What the context digest is a digest of. -/
def digested (c : AuthorityContext F) : Value F :=
  .dict ((txt "domain", .str (txt "local_steward.authority_context.v1")) :: payload c)

end

/-! ## Creating a context -/

section

variable (F : Type) [SqliteFloat F]

/-- `_digest` -/
def digest (v : Value F) : Except Failure Text :=
  match digestOf v with
  | .ok d => .ok d
  | .error e => .error (.other e)

/-- The loop body of `create_authority_context`. -/
def checkAdmission (a : AuthorityAdmission Text) : Except Failure Unit :=
  if a.operations = [] then .error (contextError "authority admission is invalid")
  else if ¬ a.operations.Nodup then .error (contextError "authority operations must be unique")
  else match a.riskClass with
    | .currentContentRead =>
      if a.paths.isEmpty then .error (contextError "current-content authority requires exact paths") else .ok ()
    | .derivedStateAppend =>
      if a.scopeIds.isEmpty then .error (contextError "derived-state authority requires exact Scopes") else .ok ()
    | .recoveryOrAdmin =>
      if a.runIds.isEmpty then .error (contextError "recovery authority requires exact Runs") else .ok ()
    | .externalDisclosure =>
      if a.externalDestinations.isEmpty then .error (contextError "external authority requires exact destinations")
      else .ok ()
    | .userFileMutation =>
      if a.userFileIds.isEmpty then .error (contextError "mutation authority requires exact file identities")
      else .ok ()
    | .historicalRead | .codeWorkspaceRead => .ok ()

/-- The tests on the task identity; a surrogate fails to encode. -/
def checkTask (taskIdentity : Text) : Except Failure Unit :=
  if taskIdentity = [] then .error (contextError "authority task identity is invalid")
  else match Text.encode taskIdentity with
    | none => .error (.other (.python .unicodeEncodeError))
    | some bytes =>
      if bytes.length > 1024 ∨ ∃ c ∈ taskIdentity, c.val < 32 then
        .error (contextError "authority task identity is invalid")
      else .ok ()

def createAuthorityContext (session : Session) (taskIdentity : Text) (source : AuthoritySource)
    (admissions : List (AuthorityAdmission Text)) : Except Failure (AuthorityContext F) := do
  checkTask taskIdentity
  if admissions = [] then .error (contextError "authority source and admissions are required")
  else do
    admissions.forM checkAdmission
    let taskDigest ← digest F (.dict [
      (txt "domain", .str (txt "local_steward.authority_task.v1")),
      (txt "task_identity", .str taskIdentity),
      (txt "authority_domain_digest", .str session.authorityDomainDigest)])
    let context : AuthorityContext F := {
      schemaName := .str authoritySchemaName
      schemaVersion := .int authoritySchemaVersion
      authorityDomainDigest := .str session.authorityDomainDigest
      taskIdentityDigest := .str taskDigest
      source := source
      admissions := admissions.map (AuthorityAdmission.map .str)
      contextDigest := .none }
    let contextDigest ← digest F (digested context)
    .ok { context with contextDigest := .str contextDigest }

end

/-! ## Loading a context -/

section

variable {F : Type}

/-- `except (OSError, UnicodeError, ValueError, TypeError, KeyError, json.JSONDecodeError)` -/
def caught : Py.Error → Bool
  | .osError | .typeError | .keyError => true
  | e => e.isValueError

/-- `tuple(item.get(key, ()))` -/
def optionalItems (item : Value F) (key : Text) : Except Py.Error (List (Value F)) :=
  match item with
  | .dict fs => match lookup fs key with
    | some v => v.iter
    | none => .ok []
  | _ => .error .attributeError

/-- `E(value)` for an enumeration of strings. -/
def member (α : Type) [Named α] (value : Value F) : Except Py.Error α :=
  match value with
  | .str t => match Named.ofName? t with
    | some a => .ok a
    | none => .error .valueError
  | _ => .error .valueError

/-- `AuthorityPath(**entry)` -/
def loadPath (entry : Value F) : Except Py.Error (AuthorityPath (Value F)) :=
  match entry with
  | .dict fs =>
    if hasKeys [txt "scope_id", txt "relative_path"] fs then
      .ok ⟨Value.get fs (txt "scope_id"), Value.get fs (txt "relative_path")⟩
    else .error .typeError
  | _ => .error .typeError

def loadAdmission (item : Value F) : Except Py.Error (AuthorityAdmission (Value F)) := do
  let riskClass ← member RiskClass (← item.item (txt "risk_class"))
  let operations ← (← item.item (txt "operations")).iter
  let scopeIds ← optionalItems item (txt "scope_ids")
  let snapshotIds ← optionalItems item (txt "snapshot_ids")
  let runIds ← optionalItems item (txt "run_ids")
  let paths ← (← optionalItems item (txt "paths")).mapM loadPath
  let externalDestinations ← optionalItems item (txt "external_destinations")
  let userFileIds ← optionalItems item (txt "user_file_ids")
  pure ⟨riskClass, operations, scopeIds, snapshotIds, runIds, paths, externalDestinations, userFileIds⟩

/-- The context that a decoded file spells out, before it is verified. -/
def loadContext (value : Value F) : Except Py.Error (AuthorityContext F) := do
  let admissions ← (← (← value.item (txt "admissions")).iter).mapM loadAdmission
  let schemaName ← value.item (txt "schema_name")
  let schemaVersion ← value.item (txt "schema_version")
  let authorityDomainDigest ← value.item (txt "authority_domain_digest")
  let taskIdentityDigest ← value.item (txt "task_identity_digest")
  let source ← member AuthoritySource (← value.item (txt "source"))
  let contextDigest ← value.item (txt "context_digest")
  pure ⟨schemaName, schemaVersion, authorityDomainDigest, taskIdentityDigest, source, admissions, contextDigest⟩

/-- `hmac.compare_digest`, which compares strings only when both are ASCII. -/
def compareDigest (a b : Value F) : Except Py.Error Bool :=
  match a, b with
  | .str s, .str t =>
    if (s ++ t).all fun c => c.val < 128 then .ok (s = t) else .error .typeError
  | _, _ => .error .typeError

variable [SqliteFloat F]

/-- The context of a file; `none` is a file that cannot be read as text. -/
def readContext (file : Option Text) : Except Py.Error (AuthorityContext F) :=
  match file with
  | none => .error .osError
  | some text => match Json.loads text with
    | none => .error .jsonDecodeError
    | some value => loadContext value

omit [SqliteFloat F] in
/-- `not hmac.compare_digest(a, b)` as a reason to fail verification. -/
def requireSame (a b : Value F) : Except Failure Unit :=
  match compareDigest a b with
  | .error e => .error (.other (.python e))
  | .ok true => .ok ()
  | .ok false => .error (contextError "host authority context failed verification")

/-- The tests of `load_authority_context` on a context it has read. -/
def verify (c : AuthorityContext F) (session : Session) : Except Failure (AuthorityContext F) := do
  let expected ← digest F (digested c)
  if c.schemaName.eq (.str authoritySchemaName) = false ∨ c.schemaVersion.eq (.int authoritySchemaVersion) = false then
    .error (contextError "host authority context failed verification")
  else do
    requireSame c.authorityDomainDigest (.str session.authorityDomainDigest)
    requireSame c.contextDigest (.str expected)
    .ok c

def loadAuthorityContext (file : Option Text) (session : Session) : Except Failure (AuthorityContext F) :=
  match readContext file with
  | .error e => if caught e then .error (contextError "host authority context is unavailable") else .error (.other (.python e))
  | .ok c => verify c session

end

/-! ## What a load should do -/

section

variable {F : Type} {α : Type}

/-- The exact-object list that the risk class requires is not empty. -/
def AuthorityAdmission.NamesObjects (a : AuthorityAdmission α) : Prop :=
  match a.riskClass with
  | .currentContentRead => a.paths ≠ []
  | .derivedStateAppend => a.scopeIds ≠ []
  | .recoveryOrAdmin => a.runIds ≠ []
  | .externalDisclosure => a.externalDestinations ≠ []
  | .userFileMutation => a.userFileIds ≠ []
  | .historicalRead | .codeWorkspaceRead => True

/-- What the constructor asks of one admission. -/
structure AuthorityAdmission.Exact (a : AuthorityAdmission (Value F)) : Prop where
  operations : ∃ ops : List Text, a.operations = ops.map .str ∧ ops ≠ [] ∧ ops.Nodup
  objects : a.NamesObjects

/-- What the constructor asks of the admissions. -/
def Admissible (admissions : List (AuthorityAdmission (Value F))) : Prop :=
  admissions ≠ [] ∧ ∀ a ∈ admissions, a.Exact

variable [SqliteFloat F]

/-- The context belongs to the session, its digest is its own, and its admissions could have been created. -/
structure Established (c : AuthorityContext F) (session : Session) : Prop where
  schemaName : c.schemaName = .str authoritySchemaName
  schemaVersion : c.schemaVersion.eq (.int authoritySchemaVersion) = true
  authorityDomainDigest : c.authorityDomainDigest = .str session.authorityDomainDigest
  contextDigest : c.contextDigest = .str (sha (digested c))
  admissions : Admissible c.admissions

/-- The load raises the error of the context, or establishes one. -/
def Reestablishes (file : Option Text) (session : Session) : Prop :=
  (∃ message, (loadAuthorityContext file session : Except Failure (AuthorityContext F)) = .error (.context message)) ∨
    ∃ c : AuthorityContext F, loadAuthorityContext file session = .ok c ∧ Established c session

def Ascii (v : Value F) : Prop := ∃ t : Text, v = .str t ∧ ∀ c ∈ t, c.val < 128

/-- What the loader takes for granted of a context that a file spells out: canonical JSON, ASCII digests,
and admissions in order once the digest is right. -/
def Sound (c : AuthorityContext F) (session : Session) : Prop :=
  (digested c).safe = true ∧
    (c.schemaName = .str authoritySchemaName → c.schemaVersion.eq (.int authoritySchemaVersion) = true →
      Ascii c.authorityDomainDigest ∧
        (c.authorityDomainDigest = .str session.authorityDomainDigest →
          Ascii c.contextDigest ∧ (c.contextDigest = .str (sha (digested c)) → Admissible c.admissions)))

end

/-! ## Every error of reading a file is caught -/

section

variable {F : Type} {α β : Type}

def Caught (x : Except Py.Error α) : Prop := ∀ e, x = .error e → caught e = true

theorem Caught.bind {x : Except Py.Error α} {f : α → Except Py.Error β} (hx : Caught x)
    (hf : ∀ a, x = .ok a → Caught (f a)) : Caught (x >>= f) := by
  intro e he
  cases hcase : x with
  | error e' =>
    rw [hcase] at he
    cases he
    exact hx _ hcase
  | ok a =>
    rw [hcase] at he
    exact hf a hcase e he

theorem caught_pure (a : α) : Caught (pure a : Except Py.Error α) := by
  intro e he
  cases he

theorem Caught.mapM {f : α → Except Py.Error β} {xs : List α} (h : ∀ x ∈ xs, Caught (f x)) : Caught (xs.mapM f) := by
  induction xs with
  | nil => exact caught_pure _
  | cons x xs ih =>
    rw [List.mapM_cons]
    refine (h x List.mem_cons_self).bind fun y _ => ?_
    exact (ih fun z hz => h z (List.mem_cons_of_mem _ hz)).bind fun _ _ => caught_pure _

theorem caught_item (v : Value F) (key : Text) : Caught (v.item key) := by
  intro e he
  unfold Value.item at he
  split at he
  · split at he <;> cases he
    rfl
  · cases he
    rfl

theorem caught_iter (v : Value F) : Caught v.iter := by
  intro e he
  cases v <;> cases he <;> rfl

theorem caught_member [Named α] (v : Value F) : Caught (member α v) := by
  intro e he
  unfold member at he
  split at he
  · split at he <;> cases he
    rfl
  · cases he
    rfl

theorem caught_optionalItems (fs : List (Text × Value F)) (key : Text) : Caught (optionalItems (.dict fs) key) := by
  intro e he
  simp only [optionalItems] at he
  cases hlookup : lookup fs key with
  | none =>
    rw [hlookup] at he
    cases he
  | some v =>
    rw [hlookup] at he
    exact caught_iter v e he

theorem caught_loadPath (entry : Value F) : Caught (loadPath entry) := by
  intro e he
  unfold loadPath at he
  split at he
  · split_ifs at he
    cases he
    rfl
  · cases he
    rfl

/-- Only an object has a risk class, so the rest of the admission is read from an object. -/
theorem caught_loadAdmission (item : Value F) : Caught (loadAdmission item) := by
  unfold loadAdmission
  refine (caught_item _ _).bind fun risk hrisk => ?_
  cases item with
  | dict fs =>
    refine (caught_member _).bind fun _ _ => (caught_item _ _).bind fun _ _ => (caught_iter _).bind fun _ _ => ?_
    refine (caught_optionalItems _ _).bind fun _ _ => (caught_optionalItems _ _).bind fun _ _ => ?_
    refine (caught_optionalItems _ _).bind fun _ _ => (caught_optionalItems _ _).bind fun _ _ => ?_
    refine (Caught.mapM fun _ _ => caught_loadPath _).bind fun _ _ => ?_
    refine (caught_optionalItems _ _).bind fun _ _ => (caught_optionalItems _ _).bind fun _ _ => caught_pure _
  | _ => cases hrisk

theorem caught_loadContext (value : Value F) : Caught (loadContext value) := by
  unfold loadContext
  refine (caught_item _ _).bind fun _ _ => (caught_iter _).bind fun _ _ => ?_
  refine (Caught.mapM fun _ _ => caught_loadAdmission _).bind fun _ _ => ?_
  refine (caught_item _ _).bind fun _ _ => (caught_item _ _).bind fun _ _ => (caught_item _ _).bind fun _ _ => ?_
  refine (caught_item _ _).bind fun _ _ => (caught_item _ _).bind fun _ _ => (caught_member _).bind fun _ _ => ?_
  exact (caught_item _ _).bind fun _ _ => caught_pure _

variable [SqliteFloat F]

theorem caught_readContext (file : Option Text) : Caught (readContext file : Except Py.Error (AuthorityContext F)) := by
  intro e he
  unfold readContext at he
  split at he
  · cases he
    rfl
  · split at he
    · cases he
      rfl
    · exact caught_loadContext _ _ he

end

/-! ## The verification -/

section

variable {F : Type} [SqliteFloat F] {c : AuthorityContext F} {session : Session}

theorem Session.ascii (session : Session) : ∀ x ∈ session.authorityDomainDigest, x.val < 128 := by
  intro x hx
  have hhex := List.all_eq_true.1 session.hex x hx
  simp only [isHexDigit, Text.isDigit, Bool.or_eq_true, Bool.and_eq_true, decide_eq_true_eq] at hhex
  omega

theorem sha_ascii (v : Value F) : ∀ x ∈ sha v, x.val < 128 := by
  intro x hx
  have hhex := List.all_eq_true.1 (Runtime.sha256_hex (F := F) (Text.utf8 (canonicalText v))) x hx
  simp only [isHexDigit, Text.isDigit, Bool.or_eq_true, Bool.and_eq_true, decide_eq_true_eq] at hhex
  omega

omit [SqliteFloat F] in
/-- Another value than an ASCII string raises, another string fails verification. -/
theorem requireSame_cases {t : Text} (ht : ∀ x ∈ t, x.val < 128) (v : Value F) :
    (v = .str t ∧ Ascii v ∧ requireSame v (.str t) = .ok ()) ∨
      (v ≠ .str t ∧ Ascii v ∧ ∃ message, requireSame v (.str t) = .error (.context message)) ∨
      (¬ Ascii v ∧ requireSame v (.str t) = .error (.other (.python .typeError))) := by
  cases v with
  | str s =>
    by_cases hs : ∀ x ∈ s, x.val < 128
    · have hall : ((s ++ t).all fun c => c.val < 128) = true := by
        rw [List.all_append, Bool.and_eq_true, List.all_eq_true, List.all_eq_true]
        exact ⟨fun x hx => decide_eq_true (hs x hx), fun x hx => decide_eq_true (ht x hx)⟩
      have hcompare : compareDigest (.str s : Value F) (.str t) = .ok (decide (s = t)) := if_pos hall
      by_cases heq : s = t
      · exact .inl ⟨by rw [heq], ⟨s, rfl, hs⟩, by rw [requireSame, hcompare, decide_eq_true heq]⟩
      · refine .inr (.inl ⟨by simpa using heq, ⟨s, rfl, hs⟩, txt "host authority context failed verification", ?_⟩)
        rw [requireSame, hcompare, decide_eq_false heq]
        rfl
    · have hcompare : compareDigest (.str s : Value F) (.str t) = .error .typeError := by
        refine if_neg fun hall => hs fun x hx => ?_
        exact of_decide_eq_true (List.all_eq_true.1 hall x (List.mem_append_left _ hx))
      refine .inr (.inr ⟨?_, by rw [requireSame, hcompare]⟩)
      rintro ⟨s', hs', hascii⟩
      cases hs'
      exact hs hascii
  | _ =>
    refine .inr (.inr ⟨?_, rfl⟩)
    rintro ⟨s, hs, -⟩
    cases hs

theorem digest_of_safe {v : Value F} (h : v.safe = true) : digest F v = .ok (sha v) := by
  rw [digest, digestOf_eq_ok.2 ⟨h, rfl⟩]

theorem verify_of_schema (hsafe : (digested c).safe = true) (hname : c.schemaName = .str authoritySchemaName)
    (hversion : c.schemaVersion.eq (.int authoritySchemaVersion) = true) :
    verify c session = (do
      requireSame c.authorityDomainDigest (.str session.authorityDomainDigest)
      requireSame c.contextDigest (.str (sha (digested c)))
      .ok c) := by
  rw [verify, digest_of_safe hsafe, ok_bind_ok, if_neg (by simp [hname, hversion])]

/-- A context of the session whose digests are in order is returned. -/
theorem verify_eq_ok (hsafe : (digested c).safe = true) (hname : c.schemaName = .str authoritySchemaName)
    (hversion : c.schemaVersion.eq (.int authoritySchemaVersion) = true)
    (hdomain : c.authorityDomainDigest = .str session.authorityDomainDigest)
    (hdigest : c.contextDigest = .str (sha (digested c))) : verify c session = .ok c := by
  have hsame : ∀ {t : Text}, (∀ x ∈ t, x.val < 128) → requireSame (.str t : Value F) (.str t) = .ok () := by
    intro t ht
    rcases requireSame_cases ht (.str t : Value F) with ⟨-, -, h⟩ | ⟨hne, -⟩ | ⟨hascii, -⟩
    · exact h
    · exact absurd rfl hne
    · exact absurd ⟨t, rfl, ht⟩ hascii
  rw [verify_of_schema hsafe hname hversion, hdomain, hdigest, hsame session.ascii, hsame (sha_ascii _)]
  rfl

/-- What the tests make of a context. -/
theorem verify_iff (c : AuthorityContext F) (session : Session) :
    ((∃ message, verify c session = .error (.context message)) ∨
      ∃ c' : AuthorityContext F, verify c session = .ok c' ∧ Established c' session) ↔ Sound c session := by
  by_cases hsafe : (digested c).safe = true
  swap
  · have hdigest : digest F (digested c) = .error (.other (.steward .evidenceError)) := by
      rw [digest, digestOf, canonicalJson, if_neg hsafe]
      rfl
    have hverify : verify c session = .error (.other (.steward .evidenceError)) := by
      rw [verify, hdigest]
      rfl
    rw [hverify]
    exact iff_of_false (by simp) fun h => hsafe h.1
  by_cases hschema : c.schemaName = .str authoritySchemaName ∧
    c.schemaVersion.eq (.int authoritySchemaVersion) = true
  swap
  · have hverify : verify c session = .error (contextError "host authority context failed verification") := by
      rw [verify, digest_of_safe hsafe, ok_bind_ok, if_pos]
      rw [← Bool.not_eq_true, ← Bool.not_eq_true, Value.eq_str]
      exact not_and_or.1 hschema
    rw [hverify]
    exact iff_of_true (.inl ⟨_, rfl⟩) ⟨hsafe, fun hname hversion => absurd ⟨hname, hversion⟩ hschema⟩
  obtain ⟨hname, hversion⟩ := hschema
  have hsound : Sound c session ↔ Ascii c.authorityDomainDigest ∧
      (c.authorityDomainDigest = .str session.authorityDomainDigest →
        Ascii c.contextDigest ∧ (c.contextDigest = .str (sha (digested c)) → Admissible c.admissions)) :=
    ⟨fun h => h.2 hname hversion, fun h => ⟨hsafe, fun _ _ => h⟩⟩
  rw [hsound, verify_of_schema hsafe hname hversion]
  rcases requireSame_cases session.ascii c.authorityDomainDigest with
    ⟨hdomain, hascii, hsame⟩ | ⟨hne, hascii, message, hsame⟩ | ⟨hascii, hsame⟩
  · rcases requireSame_cases (sha_ascii (digested c)) c.contextDigest with
      ⟨hdigest, hascii', hsame'⟩ | ⟨hne', hascii', message, hsame'⟩ | ⟨hascii', hsame'⟩
    · rw [hsame, hsame']
      constructor
      · rintro (⟨message, h⟩ | ⟨c', hc', hestablished⟩)
        · cases h
        · cases hc'
          exact ⟨hascii, fun _ => ⟨hascii', fun _ => hestablished.admissions⟩⟩
      · exact fun h => .inr ⟨c, rfl, hname, hversion, hdomain, hdigest, (h.2 hdomain).2 hdigest⟩
    · rw [hsame, hsame']
      exact iff_of_true (.inl ⟨message, rfl⟩) ⟨hascii, fun _ => ⟨hascii', fun h => absurd h hne'⟩⟩
    · rw [hsame, hsame']
      refine iff_of_false ?_ fun h => hascii' (h.2 hdomain).1
      rintro (⟨message, h⟩ | ⟨c', h, -⟩) <;> cases h
  · rw [hsame]
    exact iff_of_true (.inl ⟨message, rfl⟩) ⟨hascii, fun h => absurd h hne⟩
  · rw [hsame]
    refine iff_of_false ?_ fun h => hascii h.1
    rintro (⟨message, h⟩ | ⟨c', h, -⟩) <;> cases h

theorem load_of_error {file : Option Text} {e : Py.Error}
    (h : (readContext file : Except Py.Error (AuthorityContext F)) = .error e) :
    (loadAuthorityContext file session : Except Failure (AuthorityContext F)) =
      .error (contextError "host authority context is unavailable") := by
  rw [loadAuthorityContext, h]
  exact if_pos (caught_readContext file e h)

theorem load_of_ok {file : Option Text} (h : readContext file = .ok c) :
    loadAuthorityContext file session = verify c session := by
  rw [loadAuthorityContext, h]

theorem reestablishes_iff (file : Option Text) (session : Session) :
    Reestablishes (F := F) file session ↔
      ∀ c : AuthorityContext F, readContext file = .ok c → Sound c session := by
  unfold Reestablishes
  cases hread : (readContext file : Except Py.Error (AuthorityContext F)) with
  | error e =>
    rw [load_of_error hread]
    exact iff_of_true (.inl ⟨_, rfl⟩) fun c hc => by cases hc
  | ok c =>
    rw [load_of_ok hread, verify_iff]
    exact ⟨fun h c' hc' => by cases hc'; exact h, fun h => h c rfl⟩

end

/-! ## Reading a machine object -/

section

variable {F : Type}

theorem loadPath_facts (p : AuthorityPath (Value F)) : loadPath (.dict p.facts) = .ok p := by
  have hkeys : hasKeys [txt "scope_id", txt "relative_path"] p.facts = true := by
    rw [hasKeys_iff]
    exact fun k => Iff.rfl
  rw [loadPath, if_pos hkeys]
  rfl

theorem mapM_map_eq {α β : Type} {f : β → Except Py.Error α} {g : α → β} (h : ∀ a, f (g a) = .ok a) (xs : List α) :
    (xs.map g).mapM f = .ok xs := by
  rw [mapM_eq_ok, List.forall₂_map_left_iff, List.forall₂_same]
  exact fun a _ => h a

theorem loadAdmission_payload (a : AuthorityAdmission (Value F)) : loadAdmission (.dict (admissionPayload a)) = .ok a := by
  have hrisk : member RiskClass (.str (Named.name a.riskClass) : Value F) = .ok a.riskClass := by
    simp [member]
  have hpaths := mapM_map_eq loadPath_facts a.paths
  show (do
    let riskClass ← member RiskClass (Value.str (F := F) (Named.name a.riskClass))
    let paths ← (a.paths.map fun p => Value.dict (AuthorityPath.facts p)).mapM loadPath
    (pure ⟨riskClass, a.operations, a.scopeIds, a.snapshotIds, a.runIds, paths, a.externalDestinations,
      a.userFileIds⟩ : Except Py.Error (AuthorityAdmission (Value F)))) = _
  rw [hrisk, ok_bind_ok, hpaths]
  rfl

/-- The loader reads back whatever context is written. -/
theorem loadContext_machineObject (c : AuthorityContext F) : loadContext (.dict (machineObject c)) = .ok c := by
  have hsource : member AuthoritySource (.str (Named.name c.source) : Value F) = .ok c.source := by
    simp [member]
  have hadmissions := mapM_map_eq loadAdmission_payload c.admissions
  show (do
    let admissions ← (c.admissions.map fun a => Value.dict (admissionPayload a)).mapM loadAdmission
    let source ← member AuthoritySource (Value.str (F := F) (Named.name c.source))
    (pure ⟨c.schemaName, c.schemaVersion, c.authorityDomainDigest, c.taskIdentityDigest, source, admissions,
      c.contextDigest⟩ : Except Py.Error (AuthorityContext F))) = _
  rw [hadmissions, ok_bind_ok, hsource]
  rfl

end

/-! ## Created contexts -/

section

variable {F : Type} [SqliteFloat F] {session : Session}

theorem checkAdmission_eq_ok {a : AuthorityAdmission Text} (h : checkAdmission a = .ok ()) :
    a.operations ≠ [] ∧ a.operations.Nodup ∧ a.NamesObjects := by
  unfold checkAdmission at h
  by_cases hempty : a.operations = []
  · rw [if_pos hempty] at h
    cases h
  by_cases hnodup : a.operations.Nodup
  swap
  · rw [if_neg hempty, if_pos hnodup] at h
    cases h
  rw [if_neg hempty, if_neg (not_not.2 hnodup)] at h
  refine ⟨hempty, hnodup, ?_⟩
  unfold AuthorityAdmission.NamesObjects
  cases hrisk : a.riskClass with
  | historicalRead | codeWorkspaceRead => trivial
  | _ =>
    rw [hrisk] at h
    dsimp only at h ⊢
    split_ifs at h with hobjects
    simpa using hobjects

omit [SqliteFloat F] in
theorem exact_map {a : AuthorityAdmission Text} (h : checkAdmission a = .ok ()) :
    (a.map (Value.str (F := F))).Exact := by
  obtain ⟨hempty, hnodup, hobjects⟩ := checkAdmission_eq_ok h
  refine ⟨⟨a.operations, rfl, hempty, hnodup⟩, ?_⟩
  unfold AuthorityAdmission.NamesObjects at hobjects ⊢
  unfold AuthorityAdmission.map
  dsimp only
  cases hrisk : a.riskClass <;> rw [hrisk] at hobjects <;> simp_all

/-- A context of texts for the session, with its own digest. -/
structure Written (c : AuthorityContext F) (session : Session) : Prop where
  schemaName : c.schemaName = .str authoritySchemaName
  schemaVersion : c.schemaVersion = .int authoritySchemaVersion
  authorityDomainDigest : c.authorityDomainDigest = .str session.authorityDomainDigest
  taskIdentityDigest : ∃ t, c.taskIdentityDigest = .str t
  texts : ∃ admissions : List (AuthorityAdmission Text), c.admissions = admissions.map (AuthorityAdmission.map .str)
  safe : (digested c).safe = true
  contextDigest : c.contextDigest = .str (sha (digested c))

/-- A created context is written for its session, and its admissions are exact. -/
theorem written_of_create {taskIdentity : Text} {source : AuthoritySource} {admissions : List (AuthorityAdmission Text)}
    {c : AuthorityContext F} (h : createAuthorityContext F session taskIdentity source admissions = .ok c) :
    Written c session ∧ Admissible c.admissions := by
  have hdigest : ∀ {v : Value F} {d : Text}, digest F v = .ok d → v.safe = true ∧ d = sha v := by
    intro v d hd
    unfold digest at hd
    cases hof : digestOf v with
    | error e => rw [hof] at hd; cases hd
    | ok d' =>
      rw [hof] at hd
      cases hd
      exact digestOf_eq_ok.1 hof
  unfold createAuthorityContext at h
  obtain ⟨⟨⟩, -, h⟩ := bind_eq_ok.1 h
  split_ifs at h with hempty
  obtain ⟨⟨⟩, hchecks, h⟩ := bind_eq_ok.1 h
  obtain ⟨taskDigest, -, h⟩ := bind_eq_ok.1 h
  obtain ⟨contextDigest, hcontext, h⟩ := bind_eq_ok.1 h
  cases h
  obtain ⟨hsafe, hsha⟩ := hdigest hcontext
  refine ⟨⟨rfl, rfl, rfl, ⟨taskDigest, rfl⟩, ⟨admissions, rfl⟩, hsafe, congrArg Value.str hsha⟩, ?_, ?_⟩
  · simpa using hempty
  · intro a ha
    obtain ⟨a', ha', rfl⟩ := List.mem_map.1 ha
    exact exact_map (forM_eq_ok.1 hchecks a' ha')

omit [SqliteFloat F] in
theorem wf_strs (xs : List Text) : (Value.list (xs.map .str) : Value F).wf = true := by
  refine Value.wf_list.2 fun v hv => ?_
  obtain ⟨t, -, rfl⟩ := List.mem_map.1 hv
  rfl

omit [SqliteFloat F] in
theorem wf_admissionPayload (a : AuthorityAdmission Text) :
    (Value.dict (admissionPayload (a.map (Value.str (F := F))))).wf = true := by
  have hpaths : (Value.list ((a.map (Value.str (F := F))).paths.map fun p => .dict p.facts) : Value F).wf = true := by
    refine Value.wf_list.2 fun v hv => ?_
    obtain ⟨p, hp, rfl⟩ := List.mem_map.1 hv
    obtain ⟨p', -, rfl⟩ := List.mem_map.1 hp
    refine Value.wf_dict.2 ⟨(by decide : [txt "scope_id", txt "relative_path"].Nodup), ?_⟩
    simp only [AuthorityPath.facts, List.forall_mem_cons]
    exact ⟨rfl, rfl, by simp⟩
  refine Value.wf_dict.2 ⟨(by decide : [txt "risk_class", txt "operations", txt "scope_ids", txt "snapshot_ids",
    txt "run_ids", txt "paths", txt "external_destinations", txt "user_file_ids"].Nodup), ?_⟩
  simp only [admissionPayload, List.forall_mem_cons]
  exact ⟨rfl, wf_strs _, wf_strs _, wf_strs _, wf_strs _, hpaths, wf_strs _, wf_strs _, by simp⟩

theorem Written.wf {c : AuthorityContext F} (h : Written c session) : (Value.dict (machineObject c)).wf = true := by
  obtain ⟨admissions, hadmissions⟩ := h.texts
  obtain ⟨t, htask⟩ := h.taskIdentityDigest
  have hlist : (Value.list (c.admissions.map fun a => .dict (admissionPayload a)) : Value F).wf = true := by
    refine Value.wf_list.2 fun w hw => ?_
    rw [hadmissions, List.map_map] at hw
    obtain ⟨a, -, rfl⟩ := List.mem_map.1 hw
    exact wf_admissionPayload a
  refine Value.wf_dict.2 ⟨(by decide : [txt "schema_name", txt "schema_version", txt "authority_domain_digest",
    txt "task_identity_digest", txt "source", txt "admissions", txt "context_digest"].Nodup), ?_⟩
  simp only [machineObject, payload, List.forall_mem_append, List.forall_mem_cons]
  rw [h.schemaName, h.schemaVersion, h.authorityDomainDigest, htask, h.contextDigest]
  exact ⟨⟨rfl, rfl, rfl, rfl, rfl, hlist, by simp⟩, rfl, by simp⟩

theorem Written.safe_machineObject {c : AuthorityContext F} (h : Written c session) :
    (Value.dict (machineObject c)).safe = true := by
  have hsafe := Value.safe_dict.1 h.safe
  refine Value.safe_dict.2 ⟨?_, ?_⟩
  · exact (by decide : ∀ k ∈ [txt "schema_name", txt "schema_version", txt "authority_domain_digest",
      txt "task_identity_digest", txt "source", txt "admissions", txt "context_digest"], k.encodable = true)
  · rw [machineObject, List.forall_mem_append]
    refine ⟨fun f hf => hsafe.2 f (List.mem_cons_of_mem _ hf), ?_⟩
    rw [List.forall_mem_singleton, h.contextDigest]
    exact sha_encodable _

/-- The file of a written context loads as that context. -/
theorem Written.load {c : AuthorityContext F} (h : Written c session) (style : Json.Style) :
    loadAuthorityContext (some (Json.render style (.dict (machineObject c)))) session = .ok c := by
  have hread : readContext (some (Json.render style (.dict (machineObject c)))) = .ok c := by
    rw [readContext, Json.loads_render style h.safe_machineObject h.wf]
    exact loadContext_machineObject c
  rw [load_of_ok hread]
  exact verify_eq_ok h.safe h.schemaName (by rw [h.schemaVersion]; rfl) h.authorityDomainDigest h.contextDigest

end

/-! ## Two files -/

def sampleSession : Session := ⟨List.replicate 64 (ch 'a'), by decide⟩

/-- Authority to search one scope. -/
def searchAdmission : AuthorityAdmission Text :=
  { riskClass := .historicalRead, operations := [txt "SEARCH"], scopeIds := [txt "documents"] }

/-- A context without admissions, but for its digest. -/
def emptyDraft : AuthorityContext Integral where
  schemaName := .str authoritySchemaName
  schemaVersion := .int authoritySchemaVersion
  authorityDomainDigest := .str sampleSession.authorityDomainDigest
  taskIdentityDigest := .str (List.replicate 64 (ch '0'))
  source := .explicitRequest
  admissions := []
  contextDigest := .none

def emptyContext : AuthorityContext Integral := { emptyDraft with contextDigest := .str (sha (digested emptyDraft)) }

end Steward.Authority
