import Steward.Analysis.Entry
import Steward.Py.Sha256
import Steward.Py.Stateful

/-!
# Observing payloads

`payload_hashing.py`: `observe_direct_payloads`, which reads the files of a
scan within its budgets, and `observe_payloads`, which asks for a verified
earlier observation first. The operating system, the clock and the locality
adapter are a `Platform`; every call to it may change the world.
-/

namespace Steward

open Py

/-! ## Policy -/

/-- `Δ`: what a duration may be. -/
structure PayloadHashPolicy (Δ : Type) where
  algorithm : Text
  algorithmVersion : Int
  maxHashFileBytes : Option Int
  maxTotalHashBytes : Option Int
  maxHashDurationSeconds : Δ
  hashChunkSize : Int
  allowNonLocalContent : Bool
  allowVerifiedReuse : Bool

/-- `_positive_int` -/
def positiveInt (n : Option Int) : Bool := n.any (0 < ·)

/-- `chunk & (chunk - 1) == 0` between the two sizes. -/
def chunkSizeAccepted (n : Int) : Bool :=
  positiveInt (some n) && 65536 ≤ n && n ≤ 16777216 && n.toNat &&& (n.toNat - 1) = 0

/-- `validate_payload_hash_policy`; `validDuration`: a finite number of at most a day. -/
def PayloadHashPolicy.accepted {Δ : Type} (validDuration : Δ → Bool) (policy : PayloadHashPolicy Δ) : Bool :=
  policy.algorithm = txt "sha256" && policy.algorithmVersion = 1 && positiveInt policy.maxHashFileBytes &&
    positiveInt policy.maxTotalHashBytes && validDuration policy.maxHashDurationSeconds &&
    chunkSizeAccepted policy.hashChunkSize && !policy.allowNonLocalContent

section
variable {Δ : Type} (policy : PayloadHashPolicy Δ)

/-- `max_file_bytes` -/
def PayloadHashPolicy.maxFile : Int := policy.maxHashFileBytes.getD 0

/-- `max_total_bytes` -/
def PayloadHashPolicy.maxTotal : Int := policy.maxTotalHashBytes.getD 0

end

/-! ## The platform -/

inductive PayloadLocality where
  | localFile | nonLocal | unknown
  deriving DecidableEq

inductive OsErrorKind where
  | fileNotFoundError | permissionError | osError
  deriving DecidableEq

structure OsError where
  kind : OsErrorKind
  errno : Option Nat
  deriving DecidableEq

/-- `_stat_identity`, and whether the mode is that of a regular file. -/
structure FileStat where
  isRegular : Bool
  device : Int
  inode : Int
  size : Nat
  mtimeNs : Int
  ctimeNs : Int
  deriving DecidableEq

def FileStat.identity (st : FileStat) : Int × Int × Nat × Int × Int :=
  (st.device, st.inode, st.size, st.mtimeNs, st.ctimeNs)

/-- The root of a scope, and the relative path joined to it. -/
structure PayloadPath where
  root : Text
  below : Option Text
  deriving DecidableEq

/-- Worlds `W`, descriptors `D`, readings `T` of the clock. -/
structure Platform (W D T Δ : Type) where
  validDuration : Δ → Bool
  monotonic : W → T × W
  /-- `monotonic() - started >= max_duration` -/
  reached : Δ → T → T → Bool
  /-- `hasattr(os, "O_NOFOLLOW")` -/
  noFollow : Bool
  /-- `{errno.ELOOP, errno.ENOENT}` -/
  missingErrnos : List Nat
  /-- `none` when the provider raises. -/
  locality : PayloadPath → W → Option PayloadLocality × W
  openFile : PayloadPath → W → Except OsError D × W
  fstat : D → W → Except OsError FileStat × W
  read : D → Nat → W → Except OsError (List Byte) × W
  lstat : PayloadPath → W → Except OsError FileStat × W
  close : D → W → Except OsError Unit × W
  read_length : ∀ d n w bytes, (read d n w).1 = .ok bytes → bytes.length ≤ n

/-- The world, and `actual_bytes_read`. -/
structure Meter (W : Type) where
  world : W
  bytesRead : Nat

section
variable {W ε α : Type}

/-- A call that may raise. -/
def call (f : W → Except ε α × W) : Stateful (Meter W) ε α := fun s =>
  ((f s.world).1, { s with world := (f s.world).2 })

/-- A call that does not. -/
def ask (f : W → α × W) : Stateful (Meter W) ε α := fun s =>
  (.ok (f s.world).1, { s with world := (f s.world).2 })

end

/-! ## Observations -/

structure ObservedPayload extends PayloadObservation where
  osErrorCode : Option Nat
  deriving DecidableEq

/-- `_failure` -/
def payloadFailure (status : PayloadObservationStatus) (failureCode : Option Text) (osErrorCode : Option Nat) :
    ObservedPayload :=
  ⟨⟨status, none, none, none, none, none, none, failureCode⟩, osErrorCode⟩

/-- `_failure(status)` -/
def refusal (status : PayloadObservationStatus) : ObservedPayload := payloadFailure status none none

/-- `_failure(UNSUPPORTED, failure_code=…)` -/
def unsupported (failureCode : Text) : ObservedPayload := payloadFailure .unsupported (some failureCode) none

/-- `_success` -/
def payloadSuccess {Δ : Type} (policy : PayloadHashPolicy Δ) (digest : Text) (size : Nat) : ObservedPayload :=
  ⟨⟨if size = 0 then .emptyFileHashed else .hashed, some policy.algorithm, some policy.algorithmVersion,
    some digest, some size, some .directRead, none, none⟩, none⟩

/-- `FilesystemEntryV2(…)` of the fields of an entry. -/
structure FilesystemEntryV2 where
  entry : FilesystemEntry
  allocatedSizeBytes : Option Int
  payloadObservation : ObservedPayload

/-- `_v2_entry` -/
def v2Entry (entry : FilesystemEntry) (observation : ObservedPayload) : FilesystemEntryV2 :=
  ⟨entry, none, observation⟩

/-- `_path_for`; the last scope of an id counts. -/
def pathFor (entry : FilesystemEntry) (scopes : List (Text × Text)) : Result PayloadPath :=
  match scopes.reverse.find? fun scope => scope.1 = entry.scopeId with
  | some scope => .ok ⟨scope.2, if entry.relativePath = txt "." then none else some entry.relativePath⟩
  | none => .error (.python .keyError)

/-- `_entry_matches_stat` -/
def entryMatchesStat (entry : FilesystemEntry) (st : FileStat) : Bool :=
  entry.deviceId = some st.device && entry.inode = some st.inode && entry.sizeBytes = some (st.size : Int) &&
    entry.mtimeNs = some st.mtimeNs && entry.ctimeNs = some st.ctimeNs

/-- The size of an observed entry. -/
def observedSize (entry : FilesystemEntry) : Option Int :=
  if entry.observationStatus = .observed then entry.sizeBytes else none

/-! ## The direct reader -/

section
variable {W D T Δ : Type} (P : Platform W D T Δ) (policy : PayloadHashPolicy Δ) (started : T)

/-- How the loop over the chunks ends. -/
inductive ReadEnd where
  | finished (bytes : List Byte)
  | timedOut
  | refused (status : PayloadObservationStatus)

/-- The loop over the chunks; `bytes` went into the hash so far. -/
def readLoop (d : D) (bytes : List Byte) (s : Meter W) : Except OsError ReadEnd × Meter W :=
  let (now, w) := P.monotonic s.world
  if P.reached policy.maxHashDurationSeconds started now then (.ok .timedOut, { s with world := w })
  else match P.read d policy.hashChunkSize.toNat w with
    | (.error e, w) => (.error e, { s with world := w })
    | (.ok chunk, w) =>
      if chunk = [] then (.ok (.finished bytes), { s with world := w })
      else
        let s : Meter W := ⟨w, s.bytesRead + chunk.length⟩
        if policy.maxFile < (bytes ++ chunk).length then (.ok (.refused .fileTooLarge), s)
        else if policy.maxTotal < s.bytesRead then (.ok (.refused .totalByteBudgetExhausted), s)
        else readLoop d (bytes ++ chunk) s
termination_by policy.maxFile.toNat - bytes.length
decreasing_by
  have hpos : 0 < chunk.length := List.length_pos_of_ne_nil ‹chunk ≠ []›
  have hlen : (bytes ++ chunk).length = bytes.length + chunk.length := List.length_append
  omega

/-- `os.lstat`, `None` for a file that is gone. -/
def lstatOrNone (path : PayloadPath) : Stateful (Meter W) OsError (Option FileStat) := fun s =>
  match call (P.lstat path) s with
  | (.ok st, s) => (.ok (some st), s)
  | (.error e, s) => if e.kind = .fileNotFoundError then (.ok none, s) else (.error e, s)

/-- What is done with the open descriptor. -/
def readOpened (entry : FilesystemEntry) (path : PayloadPath) (d : D) :
    Stateful (Meter W) OsError ObservedPayload := do
  let before ← call (P.fstat d)
  let s ← Stateful.get
  if !before.isRegular then pure (refusal .notRegularFile)
  else if !entryMatchesStat entry before then pure (refusal .changedDuringRead)
  else if policy.maxFile < before.size then pure (refusal .fileTooLarge)
  else if policy.maxTotal - s.bytesRead < before.size then pure (refusal .totalByteBudgetExhausted)
  else
    match ← readLoop P policy started d [] with
    | .refused status => pure (refusal status)
    | .timedOut => pure (refusal .timeBudgetExhausted)
    | .finished bytes => do
      let after ← call (P.fstat d)
      let pathAfter ← lstatOrNone P path
      if bytes.length ≠ before.size ∨ before.identity ≠ after.identity ∨
          pathAfter.map FileStat.identity ≠ some before.identity then
        pure (refusal .changedDuringRead)
      else pure (payloadSuccess policy (Sha256.hexdigest bytes) bytes.length)

/-- The `except` clauses. -/
def readFailure (e : OsError) : ObservedPayload :=
  match e.kind with
  | .fileNotFoundError => payloadFailure .notFoundDuringRead none e.errno
  | .permissionError => payloadFailure .permissionDenied none e.errno
  | .osError =>
    if e.errno.any (· ∈ P.missingErrnos) then payloadFailure .notFoundDuringRead none e.errno
    else payloadFailure .ioError none e.errno

/-- The value of a `try` block that handles what is raised. -/
def handled {α : Type} (handle : OsError → α) : Except OsError α → α
  | .ok a => a
  | .error e => handle e

/-- `try: descriptor = opened(path, …); … except OSError: … finally: os.close(descriptor)` -/
def withDescriptor {α : Type} (path : PayloadPath) (body : D → Stateful (Meter W) OsError α) (handle : OsError → α) :
    Stateful (Meter W) Exc α := fun s =>
  match call (P.openFile path) s with
  | (.error e, s) => (.ok (handle e), s)
  | (.ok d, s) =>
    match body d s with
    | (r, s) =>
      match call (P.close d) s with
      | (.error _, s) => (.error (.python .osError), s)
      | (.ok (), s) => (.ok (handled handle r), s)

/-- The budget of time is used up. -/
def timeUp : Stateful (Meter W) Exc Bool := do
  let now ← ask P.monotonic
  pure (P.reached policy.maxHashDurationSeconds started now)

/-- One turn of the loop of `observe_direct_payloads`. -/
def observeDirect (scopes : List (Text × Text)) (entry : FilesystemEntry) :
    Stateful (Meter W) Exc ObservedPayload :=
  if entry.objectType ≠ .regularFile then pure (refusal .notRegularFile)
  else if entry.excluded then pure (unsupported (txt "ENTRY_EXCLUDED"))
  else match observedSize entry with
    | none => pure (unsupported (txt "METADATA_UNAVAILABLE"))
    | some size => do
      if ← timeUp P policy started then pure (refusal .timeBudgetExhausted)
      else do
        let s ← Stateful.get
        if policy.maxFile < size then pure (refusal .fileTooLarge)
        else if policy.maxTotal - s.bytesRead < size then pure (refusal .totalByteBudgetExhausted)
        else do
          let path ← Stateful.lift (pathFor entry scopes)
          match ← ask (P.locality path) with
          | some .nonLocal => pure (refusal .notLocal)
          | some .localFile =>
            if !P.noFollow then pure (unsupported (txt "NO_NOFOLLOW"))
            else withDescriptor P path (readOpened P policy started entry path) (readFailure P)
          | _ => pure (unsupported (txt "LOCALITY_UNKNOWN"))

/-- `validate_payload_hash_policy` -/
def validatePayloadHashPolicy : Stateful (Meter W) Exc Unit :=
  if policy.accepted P.validDuration then pure () else Stateful.raise (.steward .snapshotBudgetError)

/-- `observe_direct_payloads`; the clock and the bytes are shared when a start is given. -/
def observeDirectPayloads (scopes : List (Text × Text)) (shared : Option T) (entries : List FilesystemEntry) :
    Stateful (Meter W) Exc (List FilesystemEntryV2) := do
  validatePayloadHashPolicy P policy
  let started ← match shared with
    | some started => pure started
    | none => do
      let started ← ask P.monotonic
      Stateful.modify fun s => { s with bytesRead := 0 }
      pure started
  let ordered ← Stateful.lift (sortedByM entrySortKey entries)
  Stateful.each (fun entry => v2Entry entry <$> observeDirect P policy started scopes entry) ordered

/-! ## Reuse -/

/-- A verified earlier observation of the entry. -/
abbrev VerifiedReuseResolver (W : Type) := FilesystemEntry → W → Except OsError (Option ObservedPayload) × W

/-- What the probe does with the open descriptor: `some` settles the entry. -/
def probeOpened (resolver : VerifiedReuseResolver W) (entry : FilesystemEntry) (d : D) :
    Stateful (Meter W) OsError (Option ObservedPayload) := do
  let before ← call (P.fstat d)
  if before.isRegular && entryMatchesStat entry before then do
    let candidate ← call (resolver entry)
    let after ← call (P.fstat d)
    let now ← ask P.monotonic
    if P.reached policy.maxHashDurationSeconds started now then pure (some (refusal .timeBudgetExhausted))
    else if before.identity = after.identity then pure candidate
    else pure none
  else pure none

/-- The probe of one entry: `some` when nothing is left to the direct reader. -/
def reuseProbe (scopes : List (Text × Text)) (resolver : VerifiedReuseResolver W) (entry : FilesystemEntry) :
    Stateful (Meter W) Exc (Option ObservedPayload) :=
  if entry.objectType ≠ .regularFile ∨ entry.excluded ∨ observedSize entry = none then pure none
  else do
    if ← timeUp P policy started then pure none
    else do
      let path ← Stateful.lift (pathFor entry scopes)
      match ← ask (P.locality path) with
      | some .localFile =>
        if P.noFollow then withDescriptor P path (probeOpened P policy started resolver entry) fun _ => none
        else pure none
      | some .nonLocal => pure (some (refusal .notLocal))
      | _ => pure (some (unsupported (txt "LOCALITY_UNKNOWN")))

/-- One turn of the loop of `observe_payloads`. -/
def observeOrReuse (scopes : List (Text × Text)) (resolver : VerifiedReuseResolver W) (entry : FilesystemEntry) :
    Stateful (Meter W) Exc (List FilesystemEntryV2) := do
  match ← reuseProbe P policy started scopes resolver entry with
  | some observation => pure [v2Entry entry observation]
  | none => observeDirectPayloads P policy scopes (some started) [entry]

end

/-- `observe_payloads` -/
def observePayloads {W D T Δ : Type} (P : Platform W D T Δ) (policy : PayloadHashPolicy Δ)
    (scopes : List (Text × Text)) (resolver : Option (VerifiedReuseResolver W)) (entries : List FilesystemEntry) :
    Stateful (Meter W) Exc (List FilesystemEntryV2) := do
  validatePayloadHashPolicy P policy
  match if policy.allowVerifiedReuse then resolver else none with
  | none => observeDirectPayloads P policy scopes none entries
  | some resolver => do
    let started ← ask P.monotonic
    Stateful.modify fun s => { s with bytesRead := 0 }
    let ordered ← Stateful.lift (sortedByM entrySortKey entries)
    let parts ← Stateful.each (observeOrReuse P policy started scopes resolver) ordered
    pure parts.flatten

end Steward
