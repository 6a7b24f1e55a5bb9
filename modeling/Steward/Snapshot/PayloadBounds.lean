import Steward.Analysis.Duplicates
import Steward.Snapshot.FieldTests
import Steward.Snapshot.PayloadReader
import Steward.Sqlite.Integral

/-!
# Observed payloads are well formed and bounded

Whatever the platform answers, every entry gets one observation the evidence
test accepts, no hashed file is larger than the policy allows, and the hashed
files together stay in the budget. The reader stops behind the chunk that
exceeds a bound: `observePayloads_bounded`.
-/

namespace Steward

open Py Sqlite

/-! ## Accepted observations -/

/-- The observations `_failure` and `_success` build for an entry. -/
inductive AcceptedPayload (entry : FilesystemEntry) : ObservedPayload → Prop where
  | failed {status : PayloadObservationStatus} (hs : status ≠ .hashed ∧ status ≠ .emptyFileHashed)
      {failureCode : Option Text} (hcode : failureCode ≠ some []) (errno : Option Nat) :
      AcceptedPayload entry (payloadFailure status failureCode errno)
  | hashed {digest : Text} {size : Nat} (regular : entry.objectType = .regularFile)
      (hsize : entry.sizeBytes = some (size : Int)) (length : digest.length = 64)
      (hex : digest.all isHexDigit = true) :
      AcceptedPayload entry ⟨⟨if size = 0 then .emptyFileHashed else .hashed, some (txt "sha256"), some 1,
        some digest, some size, some .directRead, none, none⟩, none⟩

section
variable {F : Type}

/-- A text that may be missing. -/
def payloadText : Option Text → Value F
  | some t => .str t
  | none => .none

/-- The fields of `_json(observation)`. -/
def ObservedPayload.value (o : ObservedPayload) : PayloadKey → Value F
  | .status => nameValue o.status
  | .provenance => (o.provenance.map nameValue).getD .none
  | .field .algorithm => payloadText o.algorithm
  | .field .algorithmVersion => optionalInt o.algorithmVersion
  | .field .digest => payloadText o.digest
  | .field .bytesHashed => optionalInt o.bytesHashed
  | .field .reusedFromSnapshotId => payloadText o.reusedFromSnapshotId
  | .field .failureCode => payloadText o.failureCode
  | .field .osErrorCode => optionalInt (o.osErrorCode.map Int.ofNat)

/-- `_json(observation)` -/
def ObservedPayload.document (o : ObservedPayload) : List (Text × Value F) :=
  record Named.name (Named.all : List PayloadKey) o.value

/-- The document of the entry, as far as the test of its payload reads it. -/
structure Documents (item : List (Text × Value F)) (entry : FilesystemEntry) (o : ObservedPayload) : Prop where
  objectType : fieldOf item EntryKey.objectType = nameValue entry.objectType
  sizeBytes : fieldOf item (EntryKey.field .sizeBytes) = optionalInt entry.sizeBytes
  payload : fieldOf item EntryKey.payloadObservation = .dict o.document

end

section
variable {F : Type} [SqliteFloat F] {entry : FilesystemEntry} {o : ObservedPayload} {item : List (Text × Value F)}

section

omit [SqliteFloat F]

theorem Documents.observationOf_eq (h : Documents item entry o) : observationOf item = some o.document := by
  rw [observationOf, h.payload]
  exact if_pos (hasKeys_record fun _ => Iff.rfl)

theorem fieldOf_document (k : PayloadKey) : fieldOf o.document k = o.value (F := F) k :=
  fieldOf_record (Named.complete k)

theorem isSuccess_document :
    isSuccess (o.document : List (Text × Value F)) = true ↔ o.status = .hashed ∨ o.status = .emptyFileHashed := by
  rw [isSuccess, fieldOf_document]
  simp [ObservedPayload.value, nameValue, successStatuses, names]

theorem isMember_status :
    isMember PayloadObservationStatus (fieldOf (o.document : List (Text × Value F)) PayloadKey.status) = true := by
  rw [fieldOf_document]
  exact isMember_iff.2 ⟨o.status, rfl⟩

end

/-- The test accepts what the reader builds. -/
theorem AcceptedPayload.valid (ho : AcceptedPayload entry o) (h : Documents item entry o) :
    validPayloadObservation item = .ok true := by
  refine (checks_validPayloadObservation item).eq_true.2 ?_
  rw [payloadTotal, payloadValid, h.observationOf_eq]
  simp only [isMember_status, Bool.true_and, Bool.and_eq_true]
  cases ho with
  | @failed status hs failureCode hcode errno =>
    have hnot : isSuccess (payloadFailure status failureCode errno).document (F := F) = false := by
      rw [Bool.eq_false_iff, Ne, isSuccess_document]
      exact fun hc => hc.elim hs.1 hs.2
    have hcodes : payloadCodes (payloadFailure status failureCode errno).document (F := F) = true := by
      rw [payloadCodes, fieldOf_document, fieldOf_document, Bool.and_eq_true]
      constructor
      · cases errno with
        | none => rfl
        | some n => exact decide_eq_true (Int.natCast_nonneg n)
      · cases failureCode with
        | none => rfl
        | some code =>
          cases code with
          | nil => exact absurd rfl hcode
          | cons c code => rfl
    have hblank : payloadBlank (payloadFailure status failureCode errno).document (F := F) = true := by
      simp only [payloadBlank, fieldOf_document]
      rfl
    rw [hnot, hcodes, hblank, fieldOf_document]
    exact ⟨⟨rfl, rfl⟩, rfl, rfl⟩
  | @hashed digest size regular hsize length hex =>
    generalize ho : (⟨⟨if size = 0 then .emptyFileHashed else .hashed, some (txt "sha256"), some 1,
        some digest, some (size : Int), some .directRead, none, none⟩, none⟩ : ObservedPayload) = o at h
    have hsuccess : isSuccess o.document (F := F) = true := by
      rw [isSuccess_document, ← ho]
      by_cases hzero : size = 0 <;> simp [hzero]
    have hhead : payloadHead o.document (F := F) = true := by
      have hdigest : isSha256Hex (.str digest : Value F) = true := by
        rw [isSha256Hex, Bool.and_eq_true, decide_eq_true_eq]
        exact ⟨length, hex⟩
      have hbytes : isNonnegativeInt (.int size : Value F) = true := decide_eq_true (Int.natCast_nonneg size)
      simp only [payloadHead, fieldOf_document, ← ho, ObservedPayload.value, payloadText, optionalInt, hdigest,
        hbytes, Option.map_none, Bool.and_true]
      exact Bool.and_eq_true_iff.2 ⟨Bool.and_eq_true_iff.2 ⟨Bool.and_eq_true_iff.2 ⟨Value.eq_str.2 rfl, rfl⟩, rfl⟩, rfl⟩
    have htail : payloadTail item o.document (F := F) = true := by
      have hbytes : isNonnegativeInt (.int size : Value F) = true := decide_eq_true (Int.natCast_nonneg size)
      have hname {α : Type} [Named α] (a b : α) :
          (nameValue a : Value F).eq (nameValue b) = true ↔ a = b := by
        rw [nameValue, nameValue, Value.eq_str, Value.str.injEq, Named.name_eq_iff]
      have hsame : (nameValue PayloadObservationProvenance.directRead : Value F).eq
          (nameValue PayloadObservationProvenance.directRead) = true := (hname _ _).2 rfl
      have hregular : (nameValue FilesystemObjectType.regularFile : Value F).eq
          (nameValue FilesystemObjectType.regularFile) = true := (hname _ _).2 rfl
      have hint (m n : Int) : (Value.int m : Value F).eq (.int n) = decide (m = n) := rfl
      rw [payloadTail, h.objectType, h.sizeBytes, hsize, regular]
      simp only [fieldOf_document, ← ho, ObservedPayload.value, optionalInt, payloadText, Option.map_some,
        Option.getD_some, hregular, hbytes, hint, hsame, Bool.true_and]
      by_cases hzero : size = 0
      · have hne : (nameValue PayloadObservationStatus.emptyFileHashed : Value F).eq
            (nameValue PayloadObservationStatus.hashed) = false := by
          rw [Bool.eq_false_iff, Ne, hname]
          decide
        simp [hzero, hne, Value.isNone]
      · have hne : (nameValue PayloadObservationStatus.hashed : Value F).eq
            (nameValue PayloadObservationStatus.emptyFileHashed) = false := by
          rw [Bool.eq_false_iff, Ne, hname]
          decide
        simp [hzero, hne, Value.isNone]
    have hcodes : payloadCodes o.document (F := F) = true := by
      rw [payloadCodes, fieldOf_document, fieldOf_document, ← ho]
      rfl
    have hprovenance : fieldOf (o.document (F := F)) PayloadKey.provenance =
        nameValue PayloadObservationProvenance.directRead := by
      rw [fieldOf_document, ← ho]
      rfl
    rw [hsuccess, hcodes, hhead, htail, hprovenance]
    refine ⟨⟨by rw [fieldOf_document]; rfl, rfl⟩, rfl, ?_⟩
    rw [if_pos rfl, Bool.true_and, Bool.and_true]
    exact isMember_iff.2 ⟨.directRead, rfl⟩

end

/-! ## What is read -/

/-- The bytes of a file that was hashed directly. -/
def directBytes (o : ObservedPayload) : Nat :=
  if o.provenance = some .directRead then (o.bytesHashed.getD 0).toNat else 0

/-- What holds of a policy that is accepted. -/
structure PayloadHashPolicy.Sound {Δ : Type} (policy : PayloadHashPolicy Δ) : Prop where
  algorithm : policy.algorithm = txt "sha256"
  algorithmVersion : policy.algorithmVersion = 1
  maxFile : 0 < policy.maxFile
  maxTotal : 0 < policy.maxTotal
  hashChunkSize : 0 < policy.hashChunkSize

theorem PayloadHashPolicy.sound_of_accepted {Δ : Type} {policy : PayloadHashPolicy Δ} {validDuration : Δ → Bool}
    (h : policy.accepted validDuration = true) : policy.Sound := by
  simp only [PayloadHashPolicy.accepted, chunkSizeAccepted, positiveInt, Bool.and_eq_true, decide_eq_true_eq,
    Option.any_some] at h
  obtain ⟨⟨⟨⟨⟨⟨halgorithm, hversion⟩, hfile⟩, htotal⟩, -⟩, ⟨⟨hchunk, -⟩, -⟩, -⟩, -⟩ := h
  have hpos {n : Option Int} (hn : n.any (0 < ·) = true) : 0 < n.getD 0 := by
    cases n with
    | none => cases hn
    | some n => exact of_decide_eq_true hn
  exact ⟨halgorithm, hversion, hpos hfile, hpos htotal, hchunk⟩

/-- From `n` bytes read to `n'`: at most one file, up to the chunk that exceeds a bound. -/
structure Meters {Δ : Type} (policy : PayloadHashPolicy Δ) (n n' : Nat) : Prop where
  grows : n ≤ n'
  file : (n' : Int) ≤ n + policy.maxFile + policy.hashChunkSize
  total : n' = n ∨ (n' : Int) ≤ policy.maxTotal + policy.hashChunkSize

/-- The observation of an entry, and what was read for it. -/
structure Observes {Δ : Type} (policy : PayloadHashPolicy Δ) (entry : FilesystemEntry) (n : Nat)
    (o : ObservedPayload) (n' : Nat) : Prop where
  accepted : AcceptedPayload entry o
  moves : Meters policy n n'
  file : (directBytes o : Int) ≤ policy.maxFile
  counted : n + directBytes o ≤ n'
  total : directBytes o = 0 ∨ (n' : Int) ≤ policy.maxTotal

section
variable {W D T Δ : Type} {P : Platform W D T Δ} {policy : PayloadHashPolicy Δ} {started : T}
  {entry : FilesystemEntry} {n n' : Nat}

theorem Meters.refl (h : policy.Sound) (n : Nat) : Meters policy n n := by
  have hfile := h.maxFile
  have hchunk := h.hashChunkSize
  exact ⟨le_rfl, by omega, .inl rfl⟩

/-- A refusal hashes nothing. -/
theorem Observes.failed (hmoves : Meters policy n n') (h : policy.Sound) {status : PayloadObservationStatus}
    (hs : status ≠ .hashed ∧ status ≠ .emptyFileHashed) {failureCode : Option Text} (hcode : failureCode ≠ some [])
    (errno : Option Nat) : Observes policy entry n (payloadFailure status failureCode errno) n' :=
  ⟨.failed hs hcode errno, hmoves, h.maxFile.le, hmoves.grows, .inl rfl⟩

/-- Where the loop ends: `b` bytes of the file and `n` bytes in all were read before, `n'` in all after. -/
structure LoopEnds (policy : PayloadHashPolicy Δ) (b n : Nat) (r : Except OsError ReadEnd) (n' : Nat) : Prop where
  grows : n ≤ n'
  file : (n' + b : Int) ≤ n + policy.maxFile + policy.hashChunkSize
  total : (n' : Int) ≤ policy.maxTotal + policy.hashChunkSize
  finished : ∀ read, r = .ok (.finished read) →
    read.length + n = b + n' ∧ (read.length : Int) ≤ policy.maxFile ∧ (n' : Int) ≤ policy.maxTotal
  refused : ∀ status, r = .ok (.refused status) → status = .fileTooLarge ∨ status = .totalByteBudgetExhausted

/-- The loop reads on only within both bounds. -/
theorem readLoop_ends (h : policy.Sound) (d : D) (bytes : List Byte) (s : Meter W)
    (hfile : (bytes.length : Int) ≤ policy.maxFile) (htotal : (s.bytesRead : Int) ≤ policy.maxTotal) :
    LoopEnds policy bytes.length s.bytesRead (readLoop P policy started d bytes s).1
      (readLoop P policy started d bytes s).2.bytesRead := by
  have hchunk := h.hashChunkSize
  -- on what the file may still hold
  induction hleft : policy.maxFile.toNat - bytes.length using Nat.strong_induction_on generalizing bytes s with
  | _ left ih =>
    rw [readLoop]
    rcases P.monotonic s.world with ⟨now, w⟩
    dsimp only
    split_ifs
    · exact ⟨le_rfl, by dsimp only; omega, by dsimp only; omega, by simp, by simp⟩
    · rcases hread : P.read d policy.hashChunkSize.toNat w with ⟨e | chunk, w'⟩
      · exact ⟨le_rfl, by dsimp only; omega, by dsimp only; omega, by simp, by simp⟩
      · have hlength := P.read_length d policy.hashChunkSize.toNat w chunk (by rw [hread])
        dsimp only
        have happend : (bytes ++ chunk).length = bytes.length + chunk.length := List.length_append
        split_ifs with hnil hover hexhausted
        · refine ⟨le_rfl, by dsimp only; omega, by dsimp only; omega, ?_, by simp⟩
          rintro read ⟨⟩
          exact ⟨rfl, hfile, htotal⟩
        · exact ⟨Nat.le_add_right _ _, by dsimp only; omega, by dsimp only; omega, by simp, by simp⟩
        · exact ⟨Nat.le_add_right _ _, by dsimp only; omega, by dsimp only; omega, by simp, by simp⟩
        · have hpos : 0 < chunk.length := List.length_pos_of_ne_nil hnil
          obtain ⟨hgrows, hends, hall, hfinished, hrefused⟩ := ih (policy.maxFile.toNat - (bytes ++ chunk).length)
            (by omega) (bytes ++ chunk) ⟨w', s.bytesRead + chunk.length⟩ (by omega) (by dsimp only; omega) rfl
          dsimp only at hgrows hends hfinished
          refine ⟨by omega, by omega, hall, fun read hread => ?_, hrefused⟩
          obtain ⟨hcount, hbounds⟩ := hfinished read hread
          exact ⟨by omega, hbounds⟩

/-! ## One entry -/

/-- From `n` bytes read, with a call of the platform. -/
theorem triple_call {ε α : Type} (f : W → Except ε α × W) : Stateful.Triple (fun s : Meter W => s.bytesRead = n)
    (call f) (fun _ s => s.bytesRead = n) (fun _ s => s.bytesRead = n) := by
  intro s hs
  unfold call
  split <;> (rename_i heq; rw [Prod.mk.injEq] at heq; rw [← heq.2]; exact hs)

theorem triple_ask {ε α : Type} (f : W → α × W) : Stateful.Triple (fun s : Meter W => s.bytesRead = n)
    (ask f : Stateful (Meter W) ε α) (fun _ s => s.bytesRead = n) (fun _ _ => False) := fun _ hs => hs

theorem triple_lstatOrNone (path : PayloadPath) : Stateful.Triple (fun s : Meter W => s.bytesRead = n)
    (lstatOrNone P path) (fun _ s => s.bytesRead = n) (fun _ s => s.bytesRead = n) := by
  intro s hs
  unfold lstatOrNone
  rcases hcall : call (P.lstat path) s with ⟨e | st, s'⟩
  · have hs' := (triple_call (P.lstat path)).error hs hcall
    dsimp only
    split_ifs <;> exact hs'
  · exact (triple_call (P.lstat path)).ok hs hcall

theorem entry_of_matches {st : FileStat} (h : entryMatchesStat entry st = true) :
    entry.sizeBytes = some (st.size : Int) := by
  simp only [entryMatchesStat, Bool.and_eq_true, decide_eq_true_eq] at h
  exact h.1.1.2

/-- What is done with an open descriptor of a regular file. -/
theorem triple_readOpened (h : policy.Sound) (hregular : entry.objectType = .regularFile) (path : PayloadPath)
    (d : D) : Stateful.Triple (fun s : Meter W => s.bytesRead = n) (readOpened P policy started entry path d)
      (fun o s => Observes policy entry n o s.bytesRead) (fun _ s => Meters policy n s.bytesRead) := by
  have hrefused {n' : Nat} (hmoves : Meters policy n n') {status : PayloadObservationStatus}
      (hs : status ≠ .hashed ∧ status ≠ .emptyFileHashed) : Observes policy entry n (refusal status) n' :=
    Observes.failed hmoves h hs (by simp) none
  have hstay (n' : Nat) (hn : n' = n) : Meters policy n n' := hn ▸ Meters.refl h n
  refine Stateful.Triple.bind ((triple_call (P.fstat d)).conseq (fun _ => id) (fun _ _ => id)
    fun _ s hs => hstay _ hs) fun before => ?_
  refine Stateful.Triple.bind (Q := fun s s' => s'.bytesRead = n ∧ s.bytesRead = n)
    (Stateful.Triple.get fun s hs => ⟨hs, hs⟩) fun s => ?_
  refine Stateful.Triple.ite (fun _ => Stateful.Triple.pure fun s' hs => hrefused (hstay _ hs.1) (by decide))
    fun _ => ?_
  refine Stateful.Triple.ite (fun _ => Stateful.Triple.pure fun s' hs => hrefused (hstay _ hs.1) (by decide))
    fun hmatches => ?_
  refine Stateful.Triple.ite (fun _ => Stateful.Triple.pure fun s' hs => hrefused (hstay _ hs.1) (by decide))
    fun hfile => ?_
  refine Stateful.Triple.ite (fun _ => Stateful.Triple.pure fun s' hs => hrefused (hstay _ hs.1) (by decide))
    fun htotal => ?_
  have hsize : entry.sizeBytes = some (before.size : Int) := entry_of_matches (by simpa using hmatches)
  have hmoves {r : Except OsError ReadEnd} {n' : Nat} (hends : LoopEnds policy 0 n r n') : Meters policy n n' :=
    ⟨hends.grows, by simpa using hends.file, .inr hends.total⟩
  refine Stateful.Triple.bind (Q := fun r s' => LoopEnds policy 0 n (.ok r) s'.bytesRead) ?_ fun ended => ?_
  · rintro s' ⟨hs', hs⟩
    have hpos := h.maxFile
    have hends : LoopEnds policy 0 s'.bytesRead (readLoop P policy started d [] s').1
        (readLoop P policy started d [] s').2.bytesRead := readLoop_ends h d [] s' (by simp; omega) (by omega)
    rw [hs'] at hends
    rcases hrun : readLoop P policy started d [] s' with ⟨e | r, s''⟩
    · rw [hrun] at hends
      exact hmoves hends
    · rw [hrun] at hends
      exact hends
  cases ended with
  | timedOut => exact Stateful.Triple.pure fun s' hends => hrefused (hmoves hends) (by decide)
  | refused status =>
    refine Stateful.Triple.pure fun s' hends => hrefused (hmoves hends) ?_
    rcases hends.refused status rfl with rfl | rfl <;> decide
  | finished bytes =>
    intro s' hends
    obtain ⟨hcount, hbytes, htotal⟩ := hends.finished bytes rfl
    refine (Stateful.Triple.bind (Q := fun _ s => s.bytesRead = s'.bytesRead) (E := fun _ s => Meters policy n s.bytesRead)
      ((triple_call (P.fstat d)).conseq (fun _ => id) (fun _ _ => id) fun _ s hs => hs ▸ hmoves hends)
      fun after => ?_) s' rfl
    refine Stateful.Triple.bind (Q := fun _ s => s.bytesRead = s'.bytesRead)
      ((triple_lstatOrNone path).conseq (fun _ => id) (fun _ _ => id) fun _ s hs => hs ▸ hmoves hends)
      fun pathAfter => ?_
    refine Stateful.Triple.ite
      (fun _ => Stateful.Triple.pure fun s hs => hrefused (hs ▸ hmoves hends) (by decide)) fun hsame => ?_
    refine Stateful.Triple.pure fun s hs => ?_
    have hlength : bytes.length = before.size := by
      by_contra hne
      exact hsame (.inl hne)
    have hdirect : directBytes (payloadSuccess policy (Sha256.hexdigest bytes) bytes.length) = bytes.length := rfl
    refine ⟨?_, hs ▸ hmoves hends, by rw [hdirect]; exact hbytes, by rw [hdirect]; omega, .inr (by omega)⟩
    rw [payloadSuccess, h.algorithm, h.algorithmVersion]
    exact .hashed hregular (by rw [hsize, hlength]) (Sha256.hexdigest_length bytes) (Sha256.hexdigest_hex bytes)

/-- Around an open descriptor. -/
theorem triple_withDescriptor {α : Type} {Q : α → Nat → Prop} {path : PayloadPath}
    {body : D → Stateful (Meter W) OsError α} {handle : OsError → α}
    (hbody : ∀ d, Stateful.Triple (fun s : Meter W => s.bytesRead = n) (body d) (fun a s => Q a s.bytesRead)
      (fun e s => Q (handle e) s.bytesRead)) (hopen : ∀ e, Q (handle e) n) :
    Stateful.Triple (fun s : Meter W => s.bytesRead = n) (withDescriptor P path body handle)
      (fun a s => Q a s.bytesRead)
      (fun e s => (e = .python .osError ∧ ∃ d w err, (P.close d w).1 = .error err) ∧ ∃ a, Q a s.bytesRead) := by
  intro s hs
  unfold withDescriptor
  rcases hfile : call (P.openFile path) s with ⟨e | d, s₁⟩
  · have hs₁ := (triple_call (P.openFile path)).error hs hfile
    show Q (handle e) s₁.bytesRead
    rw [hs₁]
    exact hopen e
  · have hs₁ := (triple_call (P.openFile path)).ok hs hfile
    have hdone (r : Except OsError α) (s₂ : Meter W) (hrun : body d s₁ = (r, s₂)) :
        Q (handled handle r) s₂.bytesRead := by
      cases r with
      | ok a => exact (hbody d).ok hs₁ hrun
      | error e => exact (hbody d).error hs₁ hrun
    rcases hrun : body d s₁ with ⟨r, s₂⟩
    have hq := hdone r s₂ hrun
    dsimp only
    rw [hrun]
    dsimp only
    rcases hclose : call (P.close d) s₂ with ⟨e | u, s₃⟩
    · have hs₃ := (triple_call (P.close d)).error rfl hclose
      exact ⟨⟨rfl, d, s₂.world, e, congrArg Prod.fst hclose⟩, _, hs₃ ▸ hq⟩
    · have hs₃ := (triple_call (P.close d)).ok rfl hclose
      show Q _ s₃.bytesRead
      rw [hs₃]
      exact hq

/-- What a call that does not return raised. -/
def Faulted (P : Platform W D T Δ) (scopes : List (Text × Text)) (entries : List FilesystemEntry) (e : Exc) : Prop :=
  (e = .python .keyError ∧ ∃ entry ∈ entries, ∀ scope ∈ scopes, scope.1 ≠ entry.scopeId) ∨
    (e = .python .unicodeEncodeError ∧ ∃ entry ∈ entries, ¬ Ok (pathBytes entry.relativePath)) ∨
    (e = .python .osError ∧ ∃ d w err, (P.close d w).1 = .error err)

theorem Faulted.mono {scopes : List (Text × Text)} {entries entries' : List FilesystemEntry} {e : Exc}
    (h : Faulted P scopes entries e) (hsub : ∀ x ∈ entries, x ∈ entries') : Faulted P scopes entries' e := by
  rcases h with ⟨he, x, hx, hnone⟩ | ⟨he, x, hx, hnot⟩ | hos
  · exact .inl ⟨he, x, hsub x hx, hnone⟩
  · exact .inr (.inl ⟨he, x, hsub x hx, hnot⟩)
  · exact .inr (.inr hos)

theorem sort_faulted {scopes : List (Text × Text)} {entries : List FilesystemEntry} {e : Exc}
    (h : sortedByM entrySortKey entries = .error e) : Faulted P scopes entries e := by
  have hpath {x : FilesystemEntry} {err : Exc} (hx : pathBytes x.relativePath = .error err) :
      err = .python .unicodeEncodeError := by
    unfold pathBytes at hx
    split at hx
    · cases hx
    · exact (Except.error.inj hx).symm
  have hkeys {xs : List FilesystemEntry} (hmap : (xs.mapM fun x => do
      let k ← entrySortKey x
      pure (k, x)) = .error e) : ∃ x ∈ xs, pathBytes x.relativePath = .error e := by
    induction xs with
    | nil => cases hmap
    | cons x xs ih =>
      rw [List.mapM_cons] at hmap
      rcases bind_eq_error.1 hmap with hx | ⟨_, -, hmap⟩
      · rcases bind_eq_error.1 hx with hx | ⟨_, -, hx⟩
        · rcases bind_eq_error.1 hx with hx | ⟨_, -, hx⟩
          · exact ⟨x, List.mem_cons_self, hx⟩
          · cases hx
        · cases hx
      · rcases bind_eq_error.1 hmap with hmap | ⟨_, -, hmap⟩
        · obtain ⟨y, hy, herr⟩ := ih hmap
          exact ⟨y, List.mem_cons_of_mem _ hy, herr⟩
        · cases hmap
  rcases bind_eq_error.1 h with h | ⟨_, -, h⟩
  · obtain ⟨x, hx, herr⟩ := hkeys h
    exact .inr (.inl ⟨hpath herr, x, hx, by rw [herr]; exact not_ok_error e⟩)
  · cases h

theorem pathFor_error {scopes : List (Text × Text)} {e : Exc} (h : pathFor entry scopes = .error e) :
    e = .python .keyError ∧ ∀ scope ∈ scopes, scope.1 ≠ entry.scopeId := by
  unfold pathFor at h
  split at h
  · cases h
  · rename_i hfind
    cases h
    refine ⟨rfl, fun scope hscope => ?_⟩
    simpa using List.find?_eq_none.1 hfind scope (List.mem_reverse.2 hscope)

theorem triple_timeUp : Stateful.Triple (fun s : Meter W => s.bytesRead = n) (timeUp P policy started)
    (fun _ s => s.bytesRead = n) (fun _ _ => False) :=
  Stateful.Triple.bind (triple_ask P.monotonic) fun _ => Stateful.Triple.pure fun _ hs => hs

theorem triple_pathFor {scopes : List (Text × Text)} {entries : List FilesystemEntry} (hmem : entry ∈ entries) :
    Stateful.Triple (fun s : Meter W => s.bytesRead = n) (Stateful.lift (pathFor entry scopes))
      (fun _ s => s.bytesRead = n) (fun e s => Faulted P scopes entries e ∧ s.bytesRead = n) := by
  refine Stateful.Triple.lift (fun _ _ _ hs => hs) fun e s he hs => ⟨?_, hs⟩
  obtain ⟨hkey, hnone⟩ := pathFor_error he
  exact .inl ⟨hkey, entry, hmem, hnone⟩

/-- One turn of the direct reader. -/
theorem triple_observeDirect (h : policy.Sound) {scopes : List (Text × Text)} {entries : List FilesystemEntry}
    (hmem : entry ∈ entries) :
    Stateful.Triple (fun s : Meter W => s.bytesRead = n) (observeDirect P policy started scopes entry)
      (fun o s => Observes policy entry n o s.bytesRead)
      (fun e s => Faulted P scopes entries e ∧ Meters policy n s.bytesRead) := by
  have hfailed {n' : Nat} (hmoves : Meters policy n n') {status : PayloadObservationStatus}
      (hs : status ≠ .hashed ∧ status ≠ .emptyFileHashed) {code : Option Text} (hcode : code ≠ some [])
      (errno : Option Nat) : Observes policy entry n (payloadFailure status code errno) n' :=
    Observes.failed hmoves h hs hcode errno
  have hstay {n' : Nat} (hn : n' = n) : Meters policy n n' := hn ▸ Meters.refl h n
  refine Stateful.Triple.ite
    (fun _ => Stateful.Triple.pure fun s hs => hfailed (hstay hs) (by decide) (by simp) _) fun hregular => ?_
  refine Stateful.Triple.ite
    (fun _ => Stateful.Triple.pure fun s hs => hfailed (hstay hs) (by decide) (by decide) _) fun _ => ?_
  cases observedSize entry with
  | none => exact Stateful.Triple.pure fun s hs => hfailed (hstay hs) (by decide) (by decide) _
  | some size =>
    refine Stateful.Triple.bind (triple_timeUp.conseq (fun _ => id) (fun _ _ => id) fun _ _ hf => hf.elim)
      fun up => ?_
    refine Stateful.Triple.ite
      (fun _ => Stateful.Triple.pure fun s hs => hfailed (hstay hs) (by decide) (by simp) _) fun _ => ?_
    refine Stateful.Triple.bind (Q := fun _ s' => s'.bytesRead = n) (Stateful.Triple.get fun s hs => hs) fun s => ?_
    refine Stateful.Triple.ite
      (fun _ => Stateful.Triple.pure fun s hs => hfailed (hstay hs) (by decide) (by simp) _) fun _ => ?_
    refine Stateful.Triple.ite
      (fun _ => Stateful.Triple.pure fun s hs => hfailed (hstay hs) (by decide) (by simp) _) fun _ => ?_
    refine Stateful.Triple.bind ((triple_pathFor hmem).conseq (fun _ => id) (fun _ _ => id)
      fun _ _ he => ⟨he.1, hstay he.2⟩) fun path => ?_
    refine Stateful.Triple.bind ((triple_ask (P.locality path)).conseq (fun _ => id) (fun _ _ => id)
      fun _ _ hf => hf.elim) fun locality => ?_
    match locality with
    | none => exact Stateful.Triple.pure fun s hs => hfailed (hstay hs) (by decide) (by decide) _
    | some .unknown => exact Stateful.Triple.pure fun s hs => hfailed (hstay hs) (by decide) (by decide) _
    | some .nonLocal => exact Stateful.Triple.pure fun s hs => hfailed (hstay hs) (by decide) (by simp) _
    | some .localFile =>
      refine Stateful.Triple.ite
        (fun _ => Stateful.Triple.pure fun s hs => hfailed (hstay hs) (by decide) (by decide) _) fun _ => ?_
      have hhandle {n' : Nat} (e : OsError) (hmoves : Meters policy n n') :
          Observes policy entry n (readFailure P e) n' := by
        unfold readFailure
        split
        · exact hfailed hmoves (by decide) (by simp) _
        · exact hfailed hmoves (by decide) (by simp) _
        · split_ifs
          · exact hfailed hmoves (by decide) (by simp) _
          · exact hfailed hmoves (by decide) (by simp) _
      refine (triple_withDescriptor (Q := Observes policy entry n)
        (fun d => (triple_readOpened h (not_not.1 hregular) path d).conseq (fun _ => id) (fun _ _ => id)
          fun e s hmoves => hhandle e hmoves) fun e => hhandle e (hstay rfl)).conseq (fun _ => id) (fun _ _ => id)
        fun e s he => ?_
      obtain ⟨hos, o, ho⟩ := he
      exact ⟨.inr (.inr hos), ho.moves⟩

end

/-! ## The whole run -/

section
variable (F : Type) [SqliteFloat F] {W D T Δ : Type}

/-- The bytes of the files hashed directly. -/
def totalHashed (out : List FilesystemEntryV2) : Nat := (out.map fun v => directBytes v.payloadObservation).sum

/-- The observations of some entries, with `n` bytes read for them. -/
structure Budgeted (policy : PayloadHashPolicy Δ) (entries : List FilesystemEntry) (out : List FilesystemEntryV2)
    (n : Nat) : Prop where
  entries : out.map FilesystemEntryV2.entry = entries
  accepted : ∀ v ∈ out, ∀ item : List (Text × Value F), Documents item v.entry v.payloadObservation →
    validPayloadObservation item = .ok true
  file : ∀ v ∈ out, (directBytes v.payloadObservation : Int) ≤ policy.maxFile
  counted : totalHashed out ≤ n
  total : (totalHashed out : Int) ≤ policy.maxTotal
  read : (n : Int) ≤ policy.maxTotal + policy.hashChunkSize

/-- What a resolver answers is an accepted observation of the entry, read for another Snapshot. -/
def Answers (resolver : VerifiedReuseResolver W) : Prop :=
  ∀ entry w o, (resolver entry w).1 = .ok (some o) →
    (∀ item : List (Text × Value F), Documents item entry o → validPayloadObservation item = .ok true) ∧
      o.provenance = some .reusedFromVerifiedSnapshot

variable {F} {P : Platform W D T Δ} {policy : PayloadHashPolicy Δ} {started : T} {scopes : List (Text × Text)}
  {entries seen : List FilesystemEntry} {out : List FilesystemEntryV2} {n n' : Nat}

theorem Budgeted.nil (h : policy.Sound) : Budgeted F policy [] [] 0 := by
  have hfile := h.maxTotal
  have hchunk := h.hashChunkSize
  exact ⟨rfl, by simp, by simp, le_rfl, hfile.le, by simp; omega⟩

theorem Budgeted.reading (h : Budgeted F policy seen out n) (hmoves : Meters policy n n') :
    (n' : Int) ≤ policy.maxTotal + policy.hashChunkSize :=
  hmoves.total.elim (fun heq => heq ▸ h.read) id

/-- One more observation. -/
theorem Budgeted.concat (h : Budgeted F policy seen out n) {entry : FilesystemEntry} {o : ObservedPayload}
    (haccepted : ∀ item : List (Text × Value F), Documents item entry o → validPayloadObservation item = .ok true)
    (hfile : (directBytes o : Int) ≤ policy.maxFile) (hcounted : n + directBytes o ≤ n')
    (htotal : directBytes o = 0 ∨ (n' : Int) ≤ policy.maxTotal)
    (hread : (n' : Int) ≤ policy.maxTotal + policy.hashChunkSize) :
    Budgeted F policy (seen ++ [entry]) (out ++ [v2Entry entry o]) n' := by
  have hsum : totalHashed (out ++ [v2Entry entry o]) = totalHashed out + directBytes o := by
    simp [totalHashed, v2Entry]
  have hall := h.counted
  have hbefore := h.total
  refine ⟨by rw [List.map_append, h.entries]; rfl, fun v hv => ?_, fun v hv => ?_, by omega, ?_, hread⟩
  · rcases List.mem_append.1 hv with hv | hv
    · exact h.accepted v hv
    · rw [List.mem_singleton.1 hv]
      exact haccepted
  · rcases List.mem_append.1 hv with hv | hv
    · exact h.file v hv
    · rw [List.mem_singleton.1 hv]
      exact hfile
  · rcases htotal with hnone | htotal <;> omega

theorem triple_each_direct (h : policy.Sound) :
    Stateful.Triple (fun s : Meter W => Budgeted F policy seen out s.bytesRead)
      (Stateful.each (fun entry => v2Entry entry <$> observeDirect P policy started scopes entry) entries)
      (fun vs s => Budgeted F policy (seen ++ entries) (out ++ vs) s.bytesRead)
      (fun e s => Faulted P scopes entries e ∧ (s.bytesRead : Int) ≤ policy.maxTotal + policy.hashChunkSize) := by
  refine Stateful.Triple.each (I := fun seen out (s : Meter W) => Budgeted F policy seen out s.bytesRead)
    (fun entry hentry seen out => ?_) seen out
  intro s hs
  refine (Stateful.Triple.bind (Q := fun o s' => Observes policy entry s.bytesRead o s'.bytesRead)
    ((triple_observeDirect h hentry).conseq (fun _ => id) (fun _ _ => id) fun e s' he =>
      ⟨he.1, hs.reading he.2⟩) fun o => Stateful.Triple.pure fun s' ho => ?_) s rfl
  exact hs.concat (fun item hitem => ho.accepted.valid hitem) ho.file ho.counted ho.total (hs.reading ho.moves)

/-- A loop over the entries in their order. -/
theorem triple_sorted {α : Type} {f : List FilesystemEntry → Stateful (Meter W) Exc α}
    {Q : List FilesystemEntry → α → Meter W → Prop}
    (hf : ∀ ordered, (∀ x ∈ ordered, x ∈ entries) →
      Stateful.Triple (fun s : Meter W => Budgeted F policy seen out s.bytesRead) (f ordered) (Q ordered)
        (fun e s => Faulted P scopes entries e ∧ (s.bytesRead : Int) ≤ policy.maxTotal + policy.hashChunkSize)) :
    Stateful.Triple (fun s : Meter W => Budgeted F policy seen out s.bytesRead)
      (Stateful.lift (sortedByM entrySortKey entries) >>= f)
      (fun a s => ∃ ordered, sortedByM entrySortKey entries = .ok ordered ∧ Q ordered a s)
      (fun e s => Faulted P scopes entries e ∧ (s.bytesRead : Int) ≤ policy.maxTotal + policy.hashChunkSize) := by
  refine Stateful.Triple.bind (Q := fun ordered (s : Meter W) => sortedByM entrySortKey entries = .ok ordered ∧
    Budgeted F policy seen out s.bytesRead) (Stateful.Triple.lift (fun ordered s hok hs => ⟨hok, hs⟩)
      fun e s he hs => ⟨sort_faulted he, hs.read⟩) fun ordered => ?_
  rintro s ⟨hok, hs⟩
  exact (hf ordered fun x hx => (mem_sortedByM hok).1 hx).conseq (fun _ => id)
    (fun a s ha => ⟨ordered, hok, ha⟩) (fun _ _ => id) s hs

/-- The direct reader on some entries, with a clock and a count of bytes that go on. -/
theorem triple_observeDirectPayloads (h : policy.Sound) (hpolicy : policy.accepted P.validDuration = true) :
    Stateful.Triple (fun s : Meter W => Budgeted F policy seen out s.bytesRead)
      (observeDirectPayloads P policy scopes (some started) entries)
      (fun vs s => ∃ ordered, sortedByM entrySortKey entries = .ok ordered ∧
        Budgeted F policy (seen ++ ordered) (out ++ vs) s.bytesRead)
      (fun e s => Faulted P scopes entries e ∧ (s.bytesRead : Int) ≤ policy.maxTotal + policy.hashChunkSize) := by
  unfold observeDirectPayloads validatePayloadHashPolicy
  rw [if_pos hpolicy]
  refine Stateful.Triple.bind (Q := fun _ (s : Meter W) => Budgeted F policy seen out s.bytesRead)
    (Stateful.Triple.pure fun s hs => hs) fun _ => ?_
  refine Stateful.Triple.bind (Q := fun _ (s : Meter W) => Budgeted F policy seen out s.bytesRead)
    (Stateful.Triple.pure fun s hs => hs) fun now => ?_
  refine triple_sorted fun ordered hsub => ?_
  exact (triple_each_direct h).conseq (fun _ => id) (fun _ _ => id) fun e s he => ⟨he.1.mono hsub, he.2⟩

/-- What the probe may settle an entry with. -/
def Settles (F : Type) [SqliteFloat F] (entry : FilesystemEntry) (r : Option ObservedPayload) : Prop :=
  ∀ o ∈ r, directBytes o = 0 ∧
    ∀ item : List (Text × Value F), Documents item entry o → validPayloadObservation item = .ok true

theorem Settles.none (entry : FilesystemEntry) : Settles F entry none := by simp [Settles]

theorem Settles.failed {entry : FilesystemEntry} {status : PayloadObservationStatus}
    (hs : status ≠ .hashed ∧ status ≠ .emptyFileHashed) {code : Option Text} (hcode : code ≠ some []) :
    Settles F entry (some (payloadFailure status code Option.none)) := by
  intro o ho
  obtain rfl := Option.some.inj (Option.mem_def.1 ho)
  exact ⟨rfl, fun item => (AcceptedPayload.failed hs hcode Option.none).valid⟩

theorem triple_probeOpened {resolver : VerifiedReuseResolver W} (hanswers : Answers F resolver)
    {entry : FilesystemEntry} (d : D) :
    Stateful.Triple (fun s : Meter W => s.bytesRead = n) (probeOpened P policy started resolver entry d)
      (fun r s => s.bytesRead = n ∧ Settles F entry r) (fun _ s => s.bytesRead = n) := by
  refine Stateful.Triple.bind (triple_call (P.fstat d)) fun before => ?_
  refine Stateful.Triple.ite (fun _ => ?_) fun _ => Stateful.Triple.pure fun s hs => ⟨hs, .none entry⟩
  refine Stateful.Triple.bind (Q := fun candidate (s : Meter W) => s.bytesRead = n ∧ Settles F entry candidate)
    (fun s hs => ?_) fun candidate => ?_
  · rcases hcall : call (resolver entry) s with ⟨e | candidate, s'⟩
    · exact (triple_call (resolver entry)).error hs hcall
    · refine ⟨(triple_call (resolver entry)).ok hs hcall, fun o ho => ?_⟩
      obtain rfl := Option.mem_def.1 ho
      obtain ⟨hvalid, hprovenance⟩ := hanswers entry s.world o (congrArg Prod.fst hcall)
      exact ⟨by rw [directBytes, hprovenance]; rfl, hvalid⟩
  refine Stateful.Triple.conseq (Stateful.Triple.assume (φ := Settles F entry candidate) fun hcandidate => ?_)
    (fun _ hs => hs) (fun _ _ => id) fun _ _ => id
  refine Stateful.Triple.bind (triple_call (P.fstat d)) fun after => ?_
  refine Stateful.Triple.bind ((triple_ask P.monotonic).conseq (fun _ => id) (fun _ _ => id)
    fun _ _ hf => hf.elim) fun now => ?_
  refine Stateful.Triple.ite
    (fun _ => Stateful.Triple.pure fun s hs => ⟨hs, .failed (by decide) (by simp)⟩) fun _ => ?_
  exact Stateful.Triple.ite (fun _ => Stateful.Triple.pure fun s hs => ⟨hs, hcandidate⟩)
    fun _ => Stateful.Triple.pure fun s hs => ⟨hs, .none entry⟩

/-- The probe of one entry reads nothing. -/
theorem triple_reuseProbe {resolver : VerifiedReuseResolver W} (hanswers : Answers F resolver)
    {entry : FilesystemEntry} (hmem : entry ∈ entries) :
    Stateful.Triple (fun s : Meter W => s.bytesRead = n) (reuseProbe P policy started scopes resolver entry)
      (fun r s => s.bytesRead = n ∧ Settles F entry r)
      (fun e s => Faulted P scopes entries e ∧ s.bytesRead = n) := by
  refine Stateful.Triple.ite (fun _ => Stateful.Triple.pure fun s hs => ⟨hs, .none entry⟩) fun _ => ?_
  refine Stateful.Triple.bind (triple_timeUp.conseq (fun _ => id) (fun _ _ => id) fun _ _ hf => hf.elim)
    fun up => ?_
  refine Stateful.Triple.ite (fun _ => Stateful.Triple.pure fun s hs => ⟨hs, .none entry⟩) fun _ => ?_
  refine Stateful.Triple.bind (triple_pathFor hmem) fun path => ?_
  refine Stateful.Triple.bind ((triple_ask (P.locality path)).conseq (fun _ => id) (fun _ _ => id)
    fun _ _ hf => hf.elim) fun locality => ?_
  match locality with
  | none => exact Stateful.Triple.pure fun s hs => ⟨hs, .failed (by decide) (by decide)⟩
  | some .unknown => exact Stateful.Triple.pure fun s hs => ⟨hs, .failed (by decide) (by decide)⟩
  | some .nonLocal => exact Stateful.Triple.pure fun s hs => ⟨hs, .failed (by decide) (by simp)⟩
  | some .localFile =>
    refine Stateful.Triple.ite (fun _ => ?_) fun _ => Stateful.Triple.pure fun s hs => ⟨hs, .none entry⟩
    refine (triple_withDescriptor (Q := fun r n' => n' = n ∧ Settles F entry r)
      (fun d => (triple_probeOpened hanswers d).conseq (fun _ => id) (fun _ _ => id)
        fun _ s hs => ⟨hs, .none entry⟩) fun _ => ⟨rfl, .none entry⟩).conseq (fun _ => id) (fun _ _ => id)
      fun e s he => ?_
    obtain ⟨hos, -, hn, -⟩ := he
    exact ⟨.inr (.inr hos), hn⟩

/-- One turn of `observe_payloads`. -/
theorem triple_observeOrReuse (h : policy.Sound) (hpolicy : policy.accepted P.validDuration = true)
    {resolver : VerifiedReuseResolver W} (hanswers : Answers F resolver) {entry : FilesystemEntry}
    (hmem : entry ∈ entries) :
    Stateful.Triple (fun s : Meter W => Budgeted F policy seen out s.bytesRead)
      (observeOrReuse P policy started scopes resolver entry)
      (fun vs s => Budgeted F policy (seen ++ [entry]) (out ++ vs) s.bytesRead)
      (fun e s => Faulted P scopes entries e ∧ (s.bytesRead : Int) ≤ policy.maxTotal + policy.hashChunkSize) := by
  refine Stateful.Triple.bind (Q := fun r (s : Meter W) => Budgeted F policy seen out s.bytesRead ∧ Settles F entry r)
    (fun s hs => ?_) fun r => ?_
  · exact ((triple_reuseProbe hanswers hmem).conseq (fun _ => id) (fun r s' hr => ⟨hr.1.symm ▸ hs, hr.2⟩)
      (fun e s' he => ⟨he.1, he.2.symm ▸ hs.read⟩)) s rfl
  · cases r with
    | some o =>
      refine Stateful.Triple.pure fun s ⟨hs, hsettles⟩ => ?_
      obtain ⟨hnone, hvalid⟩ := hsettles o rfl
      exact hs.concat hvalid (by rw [hnone]; exact h.maxFile.le) (by omega) (.inl hnone) hs.read
    | none =>
      refine (triple_observeDirectPayloads h hpolicy).conseq (fun s hs => hs.1) (fun vs s hvs => ?_)
        fun e s he => ⟨he.1.mono fun x hx => List.mem_singleton.1 hx ▸ hmem, he.2⟩
      obtain ⟨ordered, hok, hvs⟩ := hvs
      rwa [List.perm_singleton.1 (sortedByM_perm hok)] at hvs

/-- The start of a run: the clock is read, and no bytes are. -/
theorem triple_start {α : Type} (h : policy.Sound) {f : T → Stateful (Meter W) Exc α} {Q : α → Meter W → Prop}
    {E : Exc → Meter W → Prop}
    (hf : ∀ started, Stateful.Triple (fun s : Meter W => Budgeted F policy [] [] s.bytesRead) (f started) Q E) :
    Stateful.Triple (fun _ : Meter W => True) (do
      let started ← ask P.monotonic
      Stateful.modify fun s => { s with bytesRead := 0 }
      f started) Q E := by
  refine Stateful.Triple.bind (Q := fun _ (_ : Meter W) => True) (fun _ _ => trivial) fun started => ?_
  exact Stateful.Triple.bind (Stateful.Triple.modify fun s _ => Budgeted.nil h) fun _ => hf started

theorem triple_observePayloads (hpolicy : policy.accepted P.validDuration = true)
    {resolver : Option (VerifiedReuseResolver W)} (hanswers : ∀ r ∈ resolver, Answers F r) :
    Stateful.Triple (fun _ : Meter W => True) (observePayloads P policy scopes resolver entries)
      (fun out s => ∃ ordered, sortedByM entrySortKey entries = .ok ordered ∧
        Budgeted F policy ordered out s.bytesRead)
      (fun e s => Faulted P scopes entries e ∧ (s.bytesRead : Int) ≤ policy.maxTotal + policy.hashChunkSize) := by
  have h := PayloadHashPolicy.sound_of_accepted hpolicy
  have hvalid : validatePayloadHashPolicy P policy = (pure () : Stateful (Meter W) Exc Unit) := if_pos hpolicy
  unfold observePayloads
  rw [hvalid]
  refine Stateful.Triple.bind (Q := fun _ (_ : Meter W) => True) (Stateful.Triple.pure fun _ hs => hs) fun _ => ?_
  have hchosen : ∀ r, (if policy.allowVerifiedReuse then resolver else none) = some r → Answers F r := by
    intro r hr
    split_ifs at hr
    exact hanswers r hr
  cases hreuse : (if policy.allowVerifiedReuse then resolver else none) with
  | none =>
    unfold observeDirectPayloads
    rw [hvalid]
    refine Stateful.Triple.bind (Q := fun _ (_ : Meter W) => True) (Stateful.Triple.pure fun _ hs => hs) fun _ => ?_
    refine triple_start (F := F) h fun started => triple_sorted fun ordered hsub => ?_
    exact (triple_each_direct h).conseq (fun _ => id) (fun _ _ => id) fun e s he => ⟨he.1.mono hsub, he.2⟩
  | some r =>
    refine triple_start (F := F) h fun started => triple_sorted fun ordered hsub => ?_
    refine Stateful.Triple.bind (Stateful.Triple.each
      (I := fun seen parts (s : Meter W) => Budgeted F policy seen parts.flatten s.bytesRead)
      (fun entry hentry seen parts => ?_) [] []) fun parts => Stateful.Triple.pure fun s hs => hs
    refine (triple_observeOrReuse h hpolicy (hchosen r hreuse) (hsub entry hentry)).conseq (fun _ => id)
      (fun vs s hvs => ?_) fun _ _ => id
    rwa [List.flatten_append, List.flatten_singleton]

/-- How a run ends. -/
def BoundedRun (F : Type) [SqliteFloat F] (P : Platform W D T Δ) (policy : PayloadHashPolicy Δ)
    (scopes : List (Text × Text)) (entries : List FilesystemEntry) :
    Except Exc (List FilesystemEntryV2) × Meter W → Prop
  | (.ok out, s) => (out.map FilesystemEntryV2.entry).Perm entries ∧
    sortedByM entrySortKey entries = .ok (out.map FilesystemEntryV2.entry) ∧
    Budgeted F policy (out.map FilesystemEntryV2.entry) out s.bytesRead
  | (.error e, s) => Faulted P scopes entries e ∧
    (s.bytesRead : Int) ≤ policy.maxTotal + policy.hashChunkSize

/-- Every run returns each entry once, in canonical order, with an accepted observation, and within the
budgets; the reader stops behind the chunk that exceeds a bound. -/
theorem observePayloads_bounded (hpolicy : policy.accepted P.validDuration = true)
    {resolver : Option (VerifiedReuseResolver W)} (hanswers : ∀ r ∈ resolver, Answers F r) (s : Meter W) :
    BoundedRun F P policy scopes entries (observePayloads P policy scopes resolver entries s) ∧
    ∀ started entry (t : Meter W), ((observeDirect P policy started scopes entry t).2.bytesRead : Int) ≤
      t.bytesRead + policy.maxFile + policy.hashChunkSize := by
  have h := PayloadHashPolicy.sound_of_accepted hpolicy
  refine ⟨?_, fun started entry t => ?_⟩
  · rcases hrun : observePayloads P policy scopes resolver entries s with ⟨e | out, s'⟩
    · exact (triple_observePayloads hpolicy hanswers).error trivial hrun
    · obtain ⟨ordered, hok, hout⟩ := (triple_observePayloads hpolicy hanswers).ok trivial hrun
      obtain rfl := hout.entries
      exact ⟨sortedByM_perm hok, hok, hout⟩
  · have htriple : Stateful.Triple (fun s : Meter W => s.bytesRead = t.bytesRead)
        (observeDirect P policy started scopes entry)
        (fun o s => Observes policy entry t.bytesRead o s.bytesRead)
        (fun e s => Faulted P scopes [entry] e ∧ Meters policy t.bytesRead s.bytesRead) :=
      triple_observeDirect h (List.mem_singleton_self entry)
    rcases hrun : observeDirect P policy started scopes entry t with ⟨e | o, t'⟩
    · exact (htriple.error rfl hrun).2.file
    · exact (htriple.ok rfl hrun).moves.file

end

/-! ## A file that grows -/

/-- A platform where every file is local, one byte long by its metadata, and holds the chunks of the world. -/
def oneByte : Platform (List (List Byte)) Unit Unit Unit where
  validDuration _ := true
  monotonic w := ((), w)
  reached _ _ _ := false
  noFollow := true
  missingErrnos := []
  locality _ w := (some .localFile, w)
  openFile _ w := (.ok (), w)
  fstat _ w := (.ok ⟨true, 1, 2, 1, 0, 0⟩, w)
  read _ n w := match w with
    | [] => (.ok [], [])
    | chunk :: w => (.ok (chunk.take n), w)
  lstat _ w := (.ok ⟨true, 1, 2, 1, 0, 0⟩, w)
  close _ w := (.ok (), w)
  read_length d n w bytes h := by
    cases w with
    | nil => cases h; exact Nat.zero_le n
    | cons chunk w =>
      cases h
      rw [List.length_take]
      exact Nat.min_le_left _ _

/-- Files of one byte, of one byte in all. -/
def oneBytePolicy : PayloadHashPolicy Unit :=
  ⟨txt "sha256", 1, some 1, some 1, (), 65536, false, false⟩

def oneByteEntry (path : Text) (objectType : FilesystemObjectType) : FilesystemEntry where
  snapshotId := txt "b"
  scopeId := txt "s"
  relativePath := path
  objectType
  deviceId := some 1
  inode := some 2
  mode := some 33188
  uid := some 0
  gid := some 0
  sizeBytes := some 1
  mtimeNs := some 0
  ctimeNs := some 0
  birthtimeNs := none
  linkCount := some 1
  symlinkTargetRaw := none
  readable := true
  writable := true
  executable := false
  observationStatus := .observed
  errorCode := none
  errorMessage := none
  excluded := false
  v2 := none

theorem oneBytePolicy_accepted : oneBytePolicy.accepted oneByte.validDuration = true := by decide

theorem observePayloads_bounded_oneByte :
    BoundedRun Integral oneByte oneBytePolicy [(txt "s", txt "/s")] [oneByteEntry (txt "a") .regularFile]
      (observePayloads oneByte oneBytePolicy [(txt "s", txt "/s")] (some fun _ w => (.ok none, w))
        [oneByteEntry (txt "a") .regularFile] ⟨[[7]], 0⟩) ∧
    ∀ started entry (t : Meter (List (List Byte))),
      ((observeDirect oneByte oneBytePolicy started [(txt "s", txt "/s")] entry t).2.bytesRead : Int) ≤
        t.bytesRead + oneBytePolicy.maxFile + oneBytePolicy.hashChunkSize := by
  refine observePayloads_bounded oneBytePolicy_accepted (fun r hr => ?_) _
  obtain rfl := Option.some.inj (Option.mem_def.1 hr)
  intro entry w o ho
  cases ho

/-- Entries out of order come back sorted; the entry of a scope that is not listed raises; a file that
grows while it is read is read beyond both limits before that is noticed. -/
theorem oneByte_deviates :
    (observePayloads oneByte oneBytePolicy [(txt "s", txt "/s")] none
        [oneByteEntry (txt "b") .directory, oneByteEntry (txt "a") .directory] ⟨[], 0⟩).1.map
        (List.map FilesystemEntryV2.entry) =
      .ok [oneByteEntry (txt "a") .directory, oneByteEntry (txt "b") .directory] ∧
    (observePayloads oneByte oneBytePolicy [] none [oneByteEntry (txt "a") .regularFile] ⟨[], 0⟩).1.map
        (List.map FilesystemEntryV2.entry) = .error (.python .keyError) ∧
    (observePayloads oneByte oneBytePolicy [(txt "s", txt "/s")] none [oneByteEntry (txt "a") .regularFile]
        ⟨[[0, 0]], 0⟩).2.bytesRead = 2 := by
  refine ⟨rfl, rfl, ?_⟩
  with_unfolding_all rfl

end Steward
