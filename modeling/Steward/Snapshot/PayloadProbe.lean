import Steward.Snapshot.PayloadBounds

/-!
# The reuse probe

A resolver that never finds anything should not be noticed. On a platform where
only reads leave a trace, `observePayloads_transparent_iff` says when it is not:
the probe settles an entry the direct reader refuses for its size.
-/

namespace Steward

open Py

/-- The resolver that finds nothing. -/
def missing {W : Type} : VerifiedReuseResolver W := fun _ w => (.ok none, w)

/-- Status and failure code of every entry. -/
def findings (out : List FilesystemEntryV2) : List (PayloadObservationStatus × Option Text) :=
  out.map fun v => (v.payloadObservation.status, v.payloadObservation.failureCode)

section
variable {W D T Δ : Type} (P : Platform W D T Δ) (policy : PayloadHashPolicy Δ) (started : T)
  (scopes : List (Text × Text))

/-- Only reads leave a trace, and descriptors can be closed. -/
structure Platform.Quiet : Prop where
  monotonic : ∀ w, (P.monotonic w).2 = w
  locality : ∀ path w, (P.locality path w).2 = w
  fstat : ∀ d w, (P.fstat d w).2 = w
  unopened : ∀ path w e, (P.openFile path w).1 = .error e → (P.openFile path w).2 = w
  close : ∀ d w, (P.close d w).1 = .ok ()
  reopened : ∀ path w d, (P.openFile path w).1 = .ok d → (P.close d (P.openFile path w).2).2 = w

/-- The clock, read now, has used up the budget. -/
def expired (w : W) : Bool := P.reached policy.maxHashDurationSeconds started (P.monotonic w).1

/-- A regular file of a known size, met in time. -/
structure Observable (entry : FilesystemEntry) (size : Int) (w : W) : Prop where
  regular : entry.objectType = .regularFile
  included : entry.excluded = false
  size : observedSize entry = some size
  inTime : expired P policy started w = false

/-- The file, or what it adds to the bytes read, is too large. -/
def Oversized (size : Int) (n : Nat) : Prop := policy.maxFile < size ∨ policy.maxTotal - n < size

/-- Opened, the file is still the observed one, and the budget is used up by then. -/
def ExpiresOpen (entry : FilesystemEntry) (path : PayloadPath) (w : W) : Prop :=
  P.noFollow = true ∧ ∃ d st, (P.openFile path w).1 = .ok d ∧ (P.fstat d (P.openFile path w).2).1 = .ok st ∧
    st.isRegular = true ∧ entryMatchesStat entry st = true ∧
    expired P policy started (P.openFile path w).2 = true

/-- The probe settles the entry: no path, not known to be local, or out of time with the file open. -/
def ProbeSettled (entry : FilesystemEntry) (w : W) : Prop :=
  match pathFor entry scopes with
  | .error _ => True
  | .ok path => (P.locality path w).1 ≠ some .localFile ∨ ExpiresOpen P policy started entry path w

/-- The probe settles what the direct reader refuses for its size. -/
def ProbeDiffers (v : FilesystemEntry × Meter W) : Prop :=
  ∃ size, Observable P policy started v.1 size v.2.world ∧ Oversized policy size v.2.bytesRead ∧
    ProbeSettled P policy started scopes v.1 v.2.world

/-- The direct reader looks for the path of an entry whose scope is not listed. -/
def Raises (v : FilesystemEntry × Meter W) : Prop :=
  ∃ size, Observable P policy started v.1 size v.2.world ∧ ¬ Oversized policy size v.2.bytesRead ∧
    ¬ Ok (pathFor v.1 scopes)

/-- The entries the direct reader gets to, each with the state before its turn. -/
def visits : List FilesystemEntry → Meter W → List (FilesystemEntry × Meter W)
  | [], _ => []
  | entry :: entries, s => (entry, s) ::
    match observeDirect P policy started scopes entry s with
    | (.ok _, s') => visits entries s'
    | (.error _, _) => []

/-- No entry differs, or the direct reader raises. -/
def Transparent (entries : List FilesystemEntry) (s : Meter W) : Prop :=
  (∃ v ∈ visits P policy started scopes entries s, Raises P policy started scopes v) ∨
    ∀ v ∈ visits P policy started scopes entries s, ¬ ProbeDiffers P policy started scopes v

end

/-! ## What a quiet platform leaves -/

section
variable {W D T Δ ε α : Type} {P : Platform W D T Δ} {policy : PayloadHashPolicy Δ} {started : T}
  {scopes : List (Text × Text)} {entry : FilesystemEntry} {size : Int} {s : Meter W}

theorem ask_quiet {f : W → α × W} (h : ∀ w, (f w).2 = w) (s : Meter W) :
    (ask f : Stateful (Meter W) ε α) s = (.ok (f s.world).1, s) := by
  rw [ask, h]

theorem call_quiet {f : W → Except ε α × W} (h : (f s.world).2 = s.world) :
    call f s = ((f s.world).1, s) := by
  rw [call, h]

theorem timeUp_quiet (h : P.Quiet) (s : Meter W) :
    timeUp P policy started s = (.ok (expired P policy started s.world), s) := by
  rw [timeUp, Stateful.bind_of_ok (ask_quiet h.monotonic s)]
  rfl

/-- What the direct reader does with a file of a listed scope and an accepted size. -/
def readLocal (P : Platform W D T Δ) (policy : PayloadHashPolicy Δ) (started : T) (entry : FilesystemEntry)
    (path : PayloadPath) : Stateful (Meter W) Exc ObservedPayload := do
  match ← ask (P.locality path) with
  | some .nonLocal => pure (refusal .notLocal)
  | some .localFile =>
    if !P.noFollow then pure (unsupported (txt "NO_NOFOLLOW"))
    else withDescriptor P path (readOpened P policy started entry path) (readFailure P)
  | _ => pure (unsupported (txt "LOCALITY_UNKNOWN"))

/-- The direct reader on a file it may read. -/
theorem observeDirect_observable (h : P.Quiet) (ho : Observable P policy started entry size s.world) :
    observeDirect P policy started scopes entry s =
      if policy.maxFile < size then (.ok (refusal .fileTooLarge), s)
      else if policy.maxTotal - s.bytesRead < size then (.ok (refusal .totalByteBudgetExhausted), s)
      else match pathFor entry scopes with
        | .error e => (.error e, s)
        | .ok path => readLocal P policy started entry path s := by
  rw [observeDirect, if_neg (not_not.2 ho.regular), ho.included, ho.size]
  dsimp only
  rw [if_neg Bool.false_ne_true, Stateful.bind_of_ok (timeUp_quiet h s), ho.inTime,
    if_neg Bool.false_ne_true]
  rw [Stateful.bind_of_ok (show Stateful.get s = (.ok s, s) from rfl)]
  by_cases hfile : policy.maxFile < size
  · rw [if_pos hfile, if_pos hfile]
    rfl
  by_cases htotal : policy.maxTotal - s.bytesRead < size
  · rw [if_neg hfile, if_neg hfile, if_pos htotal, if_pos htotal]
    rfl
  rw [if_neg hfile, if_neg hfile, if_neg htotal, if_neg htotal]
  cases pathFor entry scopes <;> rfl

/-- What the probe does with a file of a listed scope. -/
def probeLocal (P : Platform W D T Δ) (policy : PayloadHashPolicy Δ) (started : T) (resolver : VerifiedReuseResolver W)
    (entry : FilesystemEntry) (path : PayloadPath) : Stateful (Meter W) Exc (Option ObservedPayload) := do
  match ← ask (P.locality path) with
  | some .localFile =>
    if P.noFollow then withDescriptor P path (probeOpened P policy started resolver entry) fun _ => none
    else pure none
  | some .nonLocal => pure (some (refusal .notLocal))
  | _ => pure (some (unsupported (txt "LOCALITY_UNKNOWN")))

/-- The probe of a file the direct reader may look at. -/
theorem reuseProbe_observable {resolver : VerifiedReuseResolver W} (h : P.Quiet)
    (ho : Observable P policy started entry size s.world) :
    reuseProbe P policy started scopes resolver entry s = match pathFor entry scopes with
      | .error e => (.error e, s)
      | .ok path => probeLocal P policy started resolver entry path s := by
  have hgoes : ¬ (entry.objectType ≠ .regularFile ∨ entry.excluded = true ∨ observedSize entry = none) := by
    simp [ho.regular, ho.included, ho.size]
  rw [reuseProbe, if_neg hgoes, Stateful.bind_of_ok (timeUp_quiet h s), ho.inTime, if_neg Bool.false_ne_true]
  cases pathFor entry scopes <;> rfl

/-- Any other entry: the probe leaves it to the direct reader, which refuses it. -/
theorem unobservable (resolver : VerifiedReuseResolver W) (h : P.Quiet)
    (hno : ∀ size, ¬ Observable P policy started entry size s.world) :
    (∃ o, observeDirect P policy started scopes entry s = (.ok o, s)) ∧
      reuseProbe P policy started scopes resolver entry s = (.ok none, s) := by
  unfold observeDirect reuseProbe
  by_cases hregular : entry.objectType ≠ .regularFile
  · rw [if_pos hregular, if_pos (.inl hregular)]
    exact ⟨⟨_, rfl⟩, rfl⟩
  rw [if_neg hregular]
  by_cases hexcluded : entry.excluded = true
  · rw [if_pos hexcluded, if_pos (.inr (.inl hexcluded))]
    exact ⟨⟨_, rfl⟩, rfl⟩
  rw [if_neg hexcluded]
  cases hsize : observedSize entry with
  | none => exact ⟨⟨_, rfl⟩, by rw [if_pos (.inr (.inr rfl))]; rfl⟩
  | some size =>
    have hup : expired P policy started s.world = true := by
      by_contra hup
      exact hno size ⟨not_not.1 hregular, by simpa using hexcluded, hsize, by simpa using hup⟩
    have hgoes : ¬ (entry.objectType ≠ .regularFile ∨ entry.excluded = true ∨ some size = none) := by
      simp [hregular, hexcluded]
    dsimp only
    rw [if_neg hgoes, Stateful.bind_of_ok (timeUp_quiet h s), Stateful.bind_of_ok (timeUp_quiet h s), hup]
    exact ⟨⟨_, rfl⟩, rfl⟩

/-! ## An open file -/

section
variable {path : PayloadPath}

/-- A body that leaves the world as opening left it. -/
theorem withDescriptor_quiet (h : P.Quiet) {body : D → Stateful (Meter W) OsError α} {handle : OsError → α} {d : D}
    {r : Except OsError α} (hopen : (P.openFile path s.world).1 = .ok d)
    (hbody : body d ⟨(P.openFile path s.world).2, s.bytesRead⟩ = (r, ⟨(P.openFile path s.world).2, s.bytesRead⟩)) :
    withDescriptor P path body handle s = (.ok (handled handle r), s) := by
  have hcall : call (P.openFile path) s = (.ok d, ⟨(P.openFile path s.world).2, s.bytesRead⟩) := by
    rw [call, hopen]
  have hclose : call (P.close d) (⟨(P.openFile path s.world).2, s.bytesRead⟩ : Meter W) = (.ok (), s) := by
    rw [call]
    dsimp only
    rw [h.close, h.reopened path s.world d hopen]
  simp only [withDescriptor, hcall, hbody, hclose]

theorem withDescriptor_unopened (h : P.Quiet) {body : D → Stateful (Meter W) OsError α} {handle : OsError → α}
    {e : OsError} (hopen : (P.openFile path s.world).1 = .error e) :
    withDescriptor P path body handle s = (.ok (handle e), s) := by
  have hcall : call (P.openFile path) s = (.error e, s) := by
    rw [call, hopen, h.unopened path s.world e hopen]
  simp only [withDescriptor, hcall]

/-- The probe has nothing to compare: it only looks at the clock. -/
theorem probeOpened_missing (h : P.Quiet) (d : D) (s : Meter W) :
    probeOpened P policy started missing entry d s = match (P.fstat d s.world).1 with
      | .error e => (.error e, s)
      | .ok st => (.ok (if (st.isRegular && entryMatchesStat entry st) = true ∧
          expired P policy started s.world = true then some (refusal .timeBudgetExhausted) else none), s) := by
  have hstat : call (P.fstat d) s = ((P.fstat d s.world).1, s) := call_quiet (h.fstat d s.world)
  have hanswer : call (missing entry) s = (.ok none, s) := rfl
  unfold probeOpened
  cases hst : (P.fstat d s.world).1 with
  | error e => rw [Stateful.bind_of_error (hstat.trans (by rw [hst]))]
  | ok st =>
    rw [Stateful.bind_of_ok (hstat.trans (by rw [hst]))]
    by_cases hmatch : (st.isRegular && entryMatchesStat entry st) = true
    · rw [if_pos hmatch, Stateful.bind_of_ok hanswer, Stateful.bind_of_ok (hstat.trans (by rw [hst])),
        Stateful.bind_of_ok (ask_quiet h.monotonic s)]
      by_cases hup : expired P policy started s.world = true
      · rw [if_pos (show P.reached policy.maxHashDurationSeconds started (P.monotonic s.world).1 = true from hup)]
        exact congrArg (fun r => (Except.ok r, s)) (if_pos ⟨hmatch, hup⟩).symm
      · rw [if_neg (show ¬ P.reached policy.maxHashDurationSeconds started (P.monotonic s.world).1 = true from hup),
          if_pos rfl]
        exact congrArg (fun r => (Except.ok r, s)) (if_neg fun hboth => hup hboth.2).symm
    · rw [if_neg hmatch]
      exact congrArg (fun r => (Except.ok r, s)) (if_neg fun hboth => hmatch hboth.1).symm

theorem probeLocal_missing (h : P.Quiet) (hlocal : (P.locality path s.world).1 = some .localFile) :
    (ExpiresOpen P policy started entry path s.world →
      probeLocal P policy started missing entry path s = (.ok (some (refusal .timeBudgetExhausted)), s)) ∧
    (¬ ExpiresOpen P policy started entry path s.world →
      probeLocal P policy started missing entry path s = (.ok none, s)) := by
  have hask := ask_quiet (ε := Exc) (h.locality path) s
  unfold probeLocal
  rw [Stateful.bind_of_ok hask, hlocal]
  dsimp only
  constructor
  · rintro ⟨hflag, d, st, hopen, hst, hregular, hmatch, hup⟩
    rw [if_pos hflag]
    refine withDescriptor_quiet (r := .ok _) h hopen ?_
    rw [probeOpened_missing h, hst]
    dsimp only
    rw [if_pos ⟨by rw [hregular, hmatch]; rfl, hup⟩]
  · intro hno
    by_cases hflag : P.noFollow = true
    · rw [if_pos hflag]
      cases hopen : (P.openFile path s.world).1 with
      | error e => exact withDescriptor_unopened h hopen
      | ok d =>
        cases hst : (P.fstat d (P.openFile path s.world).2).1 with
        | error e =>
          refine withDescriptor_quiet (r := .error e) h hopen ?_
          rw [probeOpened_missing h, hst]
        | ok st =>
          refine withDescriptor_quiet (r := .ok none) h hopen ?_
          rw [probeOpened_missing h, hst]
          dsimp only
          rw [if_neg]
          rintro ⟨hboth, hup⟩
          rw [Bool.and_eq_true] at hboth
          exact hno ⟨hflag, d, st, hopen, hst, hboth.1, hboth.2, hup⟩
    · rw [if_neg hflag]
      rfl

/-- The direct reader on the file that outlives the budget while it is open. -/
theorem readLocal_expires (h : P.Quiet) (hlocal : (P.locality path s.world).1 = some .localFile)
    (hsize : observedSize entry = some size) (hfits : ¬ Oversized policy size s.bytesRead)
    (hexp : ExpiresOpen P policy started entry path s.world) :
    readLocal P policy started entry path s = (.ok (refusal .timeBudgetExhausted), s) := by
  obtain ⟨hflag, d, st, hopen, hst, hregular, hmatch, hup⟩ := hexp
  obtain ⟨hfile, htotal⟩ := not_or.1 hfits
  have hlength : size = (st.size : Int) := by
    unfold observedSize at hsize
    split at hsize
    · exact Option.some.inj (hsize.symm.trans (entry_of_matches hmatch))
    · cases hsize
  subst hlength
  unfold readLocal
  rw [Stateful.bind_of_ok (ask_quiet (ε := Exc) (h.locality path) s), hlocal]
  dsimp only
  rw [if_neg (by simp [hflag])]
  refine withDescriptor_quiet (r := .ok _) h hopen ?_
  have hstat : call (P.fstat d) (⟨(P.openFile path s.world).2, s.bytesRead⟩ : Meter W) =
      (.ok st, ⟨(P.openFile path s.world).2, s.bytesRead⟩) := by
    rw [call_quiet (h.fstat d _), hst]
  have hloop : readLoop P policy started d [] ⟨(P.openFile path s.world).2, s.bytesRead⟩ =
      (.ok .timedOut, ⟨(P.openFile path s.world).2, s.bytesRead⟩) := by
    rw [readLoop]
    dsimp only
    rw [if_pos (show P.reached _ _ _ = true from hup), h.monotonic]
  unfold readOpened
  rw [Stateful.bind_of_ok hstat, Stateful.bind_of_ok (show Stateful.get _ = (.ok _, _) from rfl)]
  rw [if_neg (by simp [hregular]), if_neg (by simp [hmatch]), if_neg hfile, if_neg htotal,
    Stateful.bind_of_ok hloop]
  rfl

/-- A file that is not known to be local: probe and direct reader refuse it with the same words. -/
theorem probeLocal_remote (h : P.Quiet) (resolver : VerifiedReuseResolver W)
    (hlocal : (P.locality path s.world).1 ≠ some .localFile) :
    ∃ o, probeLocal P policy started resolver entry path s = (.ok (some o), s) ∧
      readLocal P policy started entry path s = (.ok o, s) ∧
      (o = refusal .notLocal ∨ o = unsupported (txt "LOCALITY_UNKNOWN")) := by
  unfold probeLocal readLocal
  rw [Stateful.bind_of_ok (ask_quiet (ε := Exc) (h.locality path) s),
    Stateful.bind_of_ok (ask_quiet (ε := Exc) (h.locality path) s)]
  rcases hanswer : (P.locality path s.world).1 with _ | answer
  · exact ⟨_, rfl, rfl, .inr rfl⟩
  · cases answer with
    | localFile => exact absurd hanswer hlocal
    | nonLocal => exact ⟨_, rfl, rfl, .inl rfl⟩
    | unknown => exact ⟨_, rfl, rfl, .inr rfl⟩

/-- A file that is opened is closed, and nothing raises. -/
theorem withDescriptor_returns (h : P.Quiet) (body : D → Stateful (Meter W) OsError α) (handle : OsError → α)
    (s : Meter W) : ∃ a s', withDescriptor P path body handle s = (.ok a, s') := by
  unfold withDescriptor
  rcases call (P.openFile path) s with ⟨e | d, s₁⟩
  · exact ⟨_, _, rfl⟩
  dsimp only
  rcases body d s₁ with ⟨r, s₂⟩
  dsimp only
  have hclose : (call (P.close d) s₂).1 = .ok () := h.close d s₂.world
  rcases hcall : call (P.close d) s₂ with ⟨closed, s₃⟩
  rw [hcall] at hclose
  subst hclose
  exact ⟨_, _, rfl⟩

theorem readLocal_returns (h : P.Quiet) (s : Meter W) :
    ∃ o s', readLocal P policy started entry path s = (.ok o, s') := by
  unfold readLocal
  rw [Stateful.bind_of_ok (ask_quiet (ε := Exc) (h.locality path) s)]
  rcases (P.locality path s.world).1 with _ | answer
  · exact ⟨_, _, rfl⟩
  cases answer with
  | nonLocal => exact ⟨_, _, rfl⟩
  | unknown => exact ⟨_, _, rfl⟩
  | localFile =>
    dsimp only
    split_ifs
    · exact ⟨_, _, rfl⟩
    · exact withDescriptor_returns h _ _ s

end

/-! ## One entry -/

/-- What the probe settles an entry with. -/
def ProbeRefusal (o : ObservedPayload) : Prop :=
  o = refusal .notLocal ∨ o = unsupported (txt "LOCALITY_UNKNOWN") ∨ o = refusal .timeBudgetExhausted

/-- What the direct reader refuses a size with. -/
def SizeRefusal (o : ObservedPayload) : Prop :=
  o = refusal .fileTooLarge ∨ o = refusal .totalByteBudgetExhausted

theorem ProbeRefusal.status_ne {o o' : ObservedPayload} (h : ProbeRefusal o') (ho : SizeRefusal o) :
    o'.status ≠ o.status := by
  rcases h with rfl | rfl | rfl <;> rcases ho with rfl | rfl <;> decide

theorem Observable.size_eq {n : Int} {w : W} (h : Observable P policy started entry size w)
    (h' : Observable P policy started entry n w) : size = n :=
  Option.some.inj (h.size.symm.trans h'.size)

/-- The direct reader raises for want of a scope, or returns. -/
theorem observeDirect_cases (h : P.Quiet) (policy : PayloadHashPolicy Δ) (started : T) (scopes : List (Text × Text))
    (entry : FilesystemEntry) (s : Meter W) :
    (Raises P policy started scopes (entry, s) ∧
        observeDirect P policy started scopes entry s = (.error (.python .keyError), s)) ∨
      (¬ Raises P policy started scopes (entry, s) ∧
        ∃ o s', observeDirect P policy started scopes entry s = (.ok o, s')) := by
  by_cases hobs : ∃ size, Observable P policy started entry size s.world
  · obtain ⟨size, ho⟩ := hobs
    rw [observeDirect_observable h ho]
    by_cases hover : Oversized policy size s.bytesRead
    · refine .inr ⟨fun ⟨n, ho', hfits, _⟩ => hfits (ho.size_eq ho' ▸ hover), ?_⟩
      split_ifs with hfile htotal
      · exact ⟨_, _, rfl⟩
      · exact ⟨_, _, rfl⟩
      · exact absurd hover (not_or.2 ⟨hfile, htotal⟩)
    · rw [if_neg (not_or.1 hover).1, if_neg (not_or.1 hover).2]
      cases hpath : pathFor entry scopes with
      | error e =>
        obtain ⟨rfl, -⟩ := pathFor_error hpath
        exact .inl ⟨⟨size, ho, hover, by rw [hpath]; exact not_ok_error _⟩, rfl⟩
      | ok path =>
        refine .inr ⟨fun ⟨_, _, _, hno⟩ => hno ⟨path, hpath⟩, ?_⟩
        exact readLocal_returns h s
  · refine .inr ⟨fun ⟨size, ho, _⟩ => hobs ⟨size, ho⟩, ?_⟩
    obtain ⟨o, ho⟩ := (unobservable missing h (not_exists.1 hobs)).1
    exact ⟨o, s, ho⟩

theorem observeDirect_oversized (scopes : List (Text × Text)) (h : P.Quiet) (ho : Observable P policy started entry size s.world)
    (hover : Oversized policy size s.bytesRead) :
    ∃ o, SizeRefusal o ∧ observeDirect P policy started scopes entry s = (.ok o, s) := by
  rw [observeDirect_observable h ho]
  by_cases hfile : policy.maxFile < size
  · exact ⟨_, .inl rfl, if_pos hfile⟩
  · rw [if_neg hfile, if_pos (hover.resolve_left hfile)]
    exact ⟨_, .inr rfl, rfl⟩

/-- The loop of `observe_direct_payloads`. -/
abbrev directLoop (P : Platform W D T Δ) (policy : PayloadHashPolicy Δ) (started : T) (scopes : List (Text × Text)) :
    List FilesystemEntry → Stateful (Meter W) Exc (List FilesystemEntryV2) :=
  Stateful.each fun entry => v2Entry entry <$> observeDirect P policy started scopes entry

theorem directLoop_of_ok (entries : List FilesystemEntry) {o : ObservedPayload} {s' : Meter W}
    (h : observeDirect P policy started scopes entry s = (.ok o, s')) :
    directLoop P policy started scopes (entry :: entries) s =
      (List.cons (v2Entry entry o) <$> directLoop P policy started scopes entries : Stateful (Meter W) Exc _) s' :=
  Stateful.each_cons_of_ok (Stateful.map_of_ok h)

theorem directLoop_of_error {entries : List FilesystemEntry} {e : Exc} {s' : Meter W}
    (h : observeDirect P policy started scopes entry s = (.error e, s')) :
    directLoop P policy started scopes (entry :: entries) s = (.error e, s') :=
  Stateful.each_cons_of_error (Stateful.map_of_error h)

theorem sortedByM_singleton (hkey : Ok (entrySortKey entry)) : sortedByM entrySortKey [entry] = .ok [entry] := by
  obtain ⟨ordered, hordered⟩ := ok_sortedByM.2 (List.forall_mem_singleton.2 hkey)
  rw [hordered, List.perm_singleton.1 (sortedByM_perm hordered)]

/-- The direct reader, on one entry. -/
theorem observeDirectPayloads_single (started : T) (scopes : List (Text × Text))
    (hpolicy : policy.accepted P.validDuration = true)
    (hkey : Ok (entrySortKey entry)) (s : Meter W) :
    observeDirectPayloads P policy scopes (some started) [entry] s =
      ((fun o => [v2Entry entry o]) <$> observeDirect P policy started scopes entry : Stateful (Meter W) Exc _) s := by
  have hvalid : validatePayloadHashPolicy P policy s = (.ok (), s) := by
    rw [validatePayloadHashPolicy, if_pos hpolicy]
    rfl
  have hordered : (Stateful.lift (sortedByM entrySortKey [entry]) : Stateful (Meter W) Exc _) s = (.ok [entry], s) := by
    rw [sortedByM_singleton hkey]
    rfl
  unfold observeDirectPayloads
  rw [Stateful.bind_of_ok hvalid]
  dsimp only
  rw [Stateful.bind_of_ok (Stateful.pure_run started s), Stateful.bind_of_ok hordered]
  rcases hdirect : observeDirect P policy started scopes entry s with ⟨e | o, s'⟩
  · exact (directLoop_of_error hdirect).trans (Stateful.map_of_error hdirect).symm
  · exact (directLoop_of_ok _ hdirect).trans
      ((Stateful.map_of_ok rfl).trans (Stateful.map_of_ok (g := fun o => [v2Entry entry o]) hdirect).symm)

theorem probe_settles (h : P.Quiet) (ho : Observable P policy started entry size s.world)
    (hset : ProbeSettled P policy started scopes entry s.world) :
    (∃ e, pathFor entry scopes = .error e ∧ reuseProbe P policy started scopes missing entry s = (.error e, s)) ∨
      ∃ o, ProbeRefusal o ∧ reuseProbe P policy started scopes missing entry s = (.ok (some o), s) ∧
        (¬ Oversized policy size s.bytesRead → observeDirect P policy started scopes entry s = (.ok o, s)) := by
  rw [observeDirect_observable h ho, reuseProbe_observable h ho]
  unfold ProbeSettled at hset
  cases hpath : pathFor entry scopes with
  | error e => exact .inl ⟨e, rfl, rfl⟩
  | ok path =>
    rw [hpath] at hset
    refine .inr ?_
    by_cases hlocal : (P.locality path s.world).1 = some .localFile
    · have hexp := hset.resolve_left (not_not.2 hlocal)
      refine ⟨_, .inr (.inr rfl), (probeLocal_missing h hlocal).1 hexp, fun hfits => ?_⟩
      rw [if_neg (not_or.1 hfits).1, if_neg (not_or.1 hfits).2]
      exact readLocal_expires h hlocal ho.size hfits hexp
    · obtain ⟨o, hprobe, hdirect, hwords⟩ := probeLocal_remote h missing hlocal
      refine ⟨o, hwords.imp_right .inl, hprobe, fun hfits => ?_⟩
      rw [if_neg (not_or.1 hfits).1, if_neg (not_or.1 hfits).2]
      exact hdirect

theorem probe_leaves (h : P.Quiet) (ho : Observable P policy started entry size s.world)
    (hset : ¬ ProbeSettled P policy started scopes entry s.world) :
    reuseProbe P policy started scopes missing entry s = (.ok none, s) := by
  rw [reuseProbe_observable h ho]
  unfold ProbeSettled at hset
  cases hpath : pathFor entry scopes with
  | error e => rw [hpath] at hset; exact absurd trivial hset
  | ok path =>
    rw [hpath] at hset
    obtain ⟨hlocal, hexp⟩ := not_or.1 hset
    exact (probeLocal_missing h (not_not.1 hlocal)).2 hexp

/-- One turn: the same result, or a refusal of the size that the probe forestalls. -/
theorem observeOrReuse_missing (started : T) (scopes : List (Text × Text)) (h : P.Quiet) (hpolicy : policy.accepted P.validDuration = true)
    (hkey : Ok (entrySortKey entry)) (s : Meter W) :
    (¬ ProbeDiffers P policy started scopes (entry, s) ∧
        observeOrReuse P policy started scopes missing entry s =
          ((fun o => [v2Entry entry o]) <$> observeDirect P policy started scopes entry : Stateful (Meter W) Exc _) s) ∨
      (ProbeDiffers P policy started scopes (entry, s) ∧
        ∃ o, SizeRefusal o ∧ observeDirect P policy started scopes entry s = (.ok o, s) ∧
          (observeOrReuse P policy started scopes missing entry s = (.error (.python .keyError), s) ∨
            ∃ o', ProbeRefusal o' ∧
              observeOrReuse P policy started scopes missing entry s = (.ok [v2Entry entry o'], s))) := by
  have hsingle := observeDirectPayloads_single started scopes hpolicy hkey s
  by_cases hobs : ∃ size, Observable P policy started entry size s.world
  · obtain ⟨size, ho⟩ := hobs
    by_cases hset : ProbeSettled P policy started scopes entry s.world
    · by_cases hover : Oversized policy size s.bytesRead
      · obtain ⟨o, hrefusal, hdirect⟩ := observeDirect_oversized scopes h ho hover
        refine .inr ⟨⟨size, ho, hover, hset⟩, o, hrefusal, hdirect, ?_⟩
        rcases probe_settles h ho hset with ⟨e, hpath, hprobe⟩ | ⟨o', hwords, hprobe, -⟩
        · obtain ⟨rfl, -⟩ := pathFor_error hpath
          exact .inl (Stateful.bind_of_error hprobe)
        · exact .inr ⟨o', hwords, Stateful.bind_of_ok hprobe⟩
      · refine .inl ⟨fun ⟨n, ho', hover', _⟩ => hover (ho.size_eq ho' ▸ hover'), ?_⟩
        rcases probe_settles h ho hset with ⟨e, hpath, hprobe⟩ | ⟨o', -, hprobe, hdirect⟩
        · have hraises : observeDirect P policy started scopes entry s = (.error e, s) := by
            rw [observeDirect_observable h ho, if_neg (not_or.1 hover).1, if_neg (not_or.1 hover).2, hpath]
          rw [Stateful.map_of_error hraises]
          exact Stateful.bind_of_error hprobe
        · rw [Stateful.map_of_ok (hdirect hover)]
          exact Stateful.bind_of_ok hprobe
    · refine .inl ⟨fun ⟨_, _, _, hset'⟩ => hset hset', ?_⟩
      rw [← hsingle]
      exact Stateful.bind_of_ok (probe_leaves h ho hset)
  · refine .inl ⟨fun ⟨size, ho, _⟩ => hobs ⟨size, ho⟩, ?_⟩
    rw [← hsingle]
    exact Stateful.bind_of_ok (unobservable missing h (not_exists.1 hobs)).2

/-! ## A run -/

section
variable {entries : List FilesystemEntry}

/-- The loop of `observe_payloads`. -/
abbrev reuseLoop (P : Platform W D T Δ) (policy : PayloadHashPolicy Δ) (started : T) (scopes : List (Text × Text)) :
    List FilesystemEntry → Stateful (Meter W) Exc (List (List FilesystemEntryV2)) :=
  Stateful.each (observeOrReuse P policy started scopes missing)

/-- Where the direct reader raises, both loops raise. -/
theorem loops_raise (h : P.Quiet) (hpolicy : policy.accepted P.validDuration = true)
    (hkeys : ∀ entry ∈ entries, Ok (entrySortKey entry))
    (hraises : ∃ v ∈ visits P policy started scopes entries s, Raises P policy started scopes v) :
    (directLoop P policy started scopes entries s).1 = .error (.python .keyError) ∧
      (reuseLoop P policy started scopes entries s).1 = .error (.python .keyError) := by
  induction entries generalizing s with
  | nil =>
    obtain ⟨v, hv, -⟩ := hraises
    cases hv
  | cons entry entries ih =>
    obtain ⟨v, hv, hraise⟩ := hraises
    rw [visits] at hv
    have hturn := observeOrReuse_missing started scopes h hpolicy
      (hkeys entry List.mem_cons_self) s
    rcases observeDirect_cases h policy started scopes entry s with
      ⟨-, hdirect⟩ | ⟨hno, o, s', hdirect⟩
    · rcases hturn with ⟨-, hreuse⟩ | ⟨-, _, -, heq, -⟩
      · rw [Stateful.map_of_error hdirect] at hreuse
        rw [directLoop_of_error hdirect, reuseLoop, Stateful.each_cons_of_error hreuse]
        exact ⟨rfl, rfl⟩
      · cases congrArg Prod.fst (hdirect.symm.trans heq)
    · rw [hdirect] at hv
      rcases List.mem_cons.1 hv with rfl | hv
      · exact absurd hraise hno
      obtain ⟨hd, hr⟩ := ih (s := s') (fun e he => hkeys e (List.mem_cons_of_mem _ he)) ⟨v, hv, hraise⟩
      rw [directLoop_of_ok _ hdirect, reuseLoop]
      refine ⟨Stateful.map_raises hd, ?_⟩
      rcases hturn with ⟨-, hreuse⟩ | ⟨-, _, -, heq, hreuse | ⟨o', -, hreuse⟩⟩
      · rw [Stateful.map_of_ok hdirect] at hreuse
        rw [Stateful.each_cons_of_ok hreuse]
        exact Stateful.map_raises hr
      · rw [Stateful.each_cons_of_error hreuse]
      · obtain rfl : s' = s := congrArg Prod.snd (hdirect.symm.trans heq)
        rw [Stateful.each_cons_of_ok hreuse]
        exact Stateful.map_raises hr

/-- Where no entry differs, the loops run alike. -/
theorem loops_agree (h : P.Quiet) (hpolicy : policy.accepted P.validDuration = true)
    (hkeys : ∀ entry ∈ entries, Ok (entrySortKey entry))
    (halike : ∀ v ∈ visits P policy started scopes entries s, ¬ ProbeDiffers P policy started scopes v) :
    reuseLoop P policy started scopes entries s =
      (List.map (fun v => [v]) <$> directLoop P policy started scopes entries : Stateful (Meter W) Exc _) s := by
  induction entries generalizing s with
  | nil => rfl
  | cons entry entries ih =>
    rw [visits] at halike
    obtain ⟨-, hreuse⟩ := (observeOrReuse_missing started scopes h hpolicy
      (hkeys entry List.mem_cons_self) s).resolve_right fun hdiffers =>
        halike _ List.mem_cons_self hdiffers.1
    rcases hdirect : observeDirect P policy started scopes entry s with ⟨e | o, s'⟩
    · rw [Stateful.map_of_error hdirect] at hreuse
      rw [reuseLoop, Stateful.each_cons_of_error hreuse, Stateful.map_of_error (directLoop_of_error hdirect)]
    · rw [hdirect] at halike
      rw [Stateful.map_of_ok hdirect] at hreuse
      have hrest := ih (fun e he => hkeys e (List.mem_cons_of_mem _ he))
        (s := s') fun v hv => halike v (List.mem_cons_of_mem _ hv)
      have hdirects := directLoop_of_ok entries hdirect
      rw [reuseLoop, Stateful.each_cons_of_ok hreuse]
      rcases hloop : directLoop P policy started scopes entries s' with ⟨e | vs, s''⟩
      · rw [Stateful.map_of_error hloop] at hrest hdirects
        rw [Stateful.map_of_error hrest, Stateful.map_of_error hdirects]
      · rw [Stateful.map_of_ok hloop] at hrest hdirects
        rw [Stateful.map_of_ok hrest, Stateful.map_of_ok hdirects]
        rfl

/-- Where the direct reader never raises, its loop returns. -/
theorem directLoop_returns (h : P.Quiet)
    (hno : ∀ v ∈ visits P policy started scopes entries s, ¬ Raises P policy started scopes v) :
    ∃ vs s', directLoop P policy started scopes entries s = (.ok vs, s') := by
  induction entries generalizing s with
  | nil => exact ⟨_, _, rfl⟩
  | cons entry entries ih =>
    rw [visits] at hno
    obtain ⟨-, o, s', hdirect⟩ := (observeDirect_cases h policy started scopes entry s).resolve_left fun hraises => hno _ List.mem_cons_self hraises.1
    rw [hdirect] at hno
    obtain ⟨vs, s'', hrest⟩ := ih fun v hv => hno v (List.mem_cons_of_mem _ hv)
    exact ⟨_, _, (directLoop_of_ok _ hdirect).trans (Stateful.map_of_ok hrest)⟩

/-- Where an entry differs, the results do. -/
theorem loops_differ (h : P.Quiet) (hpolicy : policy.accepted P.validDuration = true)
    (hkeys : ∀ entry ∈ entries, Ok (entrySortKey entry))
    (hdiffers : ∃ v ∈ visits P policy started scopes entries s, ProbeDiffers P policy started scopes v)
    {vs : List FilesystemEntryV2} {parts : List (List FilesystemEntryV2)} {s₁ s₂ : Meter W}
    (hdirect : directLoop P policy started scopes entries s = (.ok vs, s₁))
    (hreuse : reuseLoop P policy started scopes entries s = (.ok parts, s₂)) :
    findings parts.flatten ≠ findings vs := by
  induction entries generalizing s vs parts with
  | nil =>
    obtain ⟨v, hv, -⟩ := hdiffers
    cases hv
  | cons entry entries ih =>
    obtain ⟨v, hv, hdiffer⟩ := hdiffers
    rw [visits] at hv
    obtain ⟨w, s', ws, hturn, hrest, rfl⟩ := Stateful.each_cons_eq_ok hdirect
    obtain ⟨w', s'', ws', hturn', hrest', rfl⟩ := Stateful.each_cons_eq_ok hreuse
    rcases hone : observeDirect P policy started scopes entry s with ⟨e | o, s₀⟩
    · cases congrArg Prod.fst ((Stateful.map_of_error hone).symm.trans hturn)
    rw [hone] at hv
    rw [Stateful.map_of_ok hone] at hturn
    obtain ⟨rfl, rfl⟩ : v2Entry entry o = w ∧ s₀ = s' :=
      ⟨Except.ok.inj (congrArg Prod.fst hturn), congrArg Prod.snd hturn⟩
    rcases observeOrReuse_missing started scopes h hpolicy
      (hkeys entry List.mem_cons_self) s with ⟨hsame, hone'⟩ | ⟨-, o₁, hsize, hone₁, hone' | ⟨o', hwords, hone'⟩⟩
    · rw [Stateful.map_of_ok hone, hturn'] at hone'
      obtain ⟨rfl, rfl⟩ : w' = [v2Entry entry o] ∧ s'' = s₀ :=
        ⟨Except.ok.inj (congrArg Prod.fst hone'), congrArg Prod.snd hone'⟩
      rcases List.mem_cons.1 hv with rfl | hv
      · exact absurd hdiffer hsame
      · intro heq
        exact ih (fun e he => hkeys e (List.mem_cons_of_mem _ he)) ⟨v, hv, hdiffer⟩ hrest hrest'
          (List.cons.inj heq).2
    · rw [hturn'] at hone'
      cases congrArg Prod.fst hone'
    · rw [hturn'] at hone'
      obtain rfl : w' = [v2Entry entry o'] := Except.ok.inj (congrArg Prod.fst hone')
      obtain rfl : o = o₁ := Except.ok.inj (congrArg Prod.fst (hone.symm.trans hone₁))
      intro heq
      exact hwords.status_ne hsize (congrArg Prod.fst (List.cons.inj heq).1)

end

/-- Payload observation with a resolver that finds nothing says what it says without one, exactly
when the direct reader raises or no entry it gets to differs. -/
theorem observePayloads_transparent_iff (h : P.Quiet) (policy : PayloadHashPolicy Δ) (scopes : List (Text × Text))
    (entries : List FilesystemEntry) (s : Meter W) :
    findings <$> (observePayloads P policy scopes (some missing) entries s).1 =
        findings <$> (observePayloads P policy scopes none entries s).1 ↔
      (policy.accepted P.validDuration = true → policy.allowVerifiedReuse = true →
        ∀ ordered, sortedByM entrySortKey entries = .ok ordered →
          Transparent P policy (P.monotonic s.world).1 scopes ordered ⟨s.world, 0⟩) := by
  by_cases hpolicy : policy.accepted P.validDuration = true
  swap
  · have hrefuse : validatePayloadHashPolicy P policy s = (.error (.steward .snapshotBudgetError), s) := by
      rw [validatePayloadHashPolicy, if_neg hpolicy]
      rfl
    unfold observePayloads
    rw [Stateful.bind_of_error hrefuse, Stateful.bind_of_error hrefuse]
    exact iff_of_true rfl fun hpolicy' => absurd hpolicy' hpolicy
  have hvalid : validatePayloadHashPolicy P policy s = (.ok (), s) := by
    rw [validatePayloadHashPolicy, if_pos hpolicy]
    rfl
  by_cases hallow : policy.allowVerifiedReuse = true
  swap
  · unfold observePayloads
    rw [Stateful.bind_of_ok hvalid, Stateful.bind_of_ok hvalid, if_neg hallow, if_neg hallow]
    exact iff_of_true rfl fun _ hallow' => absurd hallow' hallow
  have hnow := ask_quiet (ε := Exc) h.monotonic s
  have hreset : (Stateful.modify fun s : Meter W => { s with bytesRead := 0 } : Stateful (Meter W) Exc Unit) s =
      (.ok (), ⟨s.world, 0⟩) := rfl
  set started := (P.monotonic s.world).1
  set s₀ : Meter W := ⟨s.world, 0⟩
  have hwith : observePayloads P policy scopes (some missing) entries s =
      (Stateful.lift (sortedByM entrySortKey entries) >>= fun ordered =>
        List.flatten <$> reuseLoop P policy started scopes ordered : Stateful (Meter W) Exc _) s₀ := by
    unfold observePayloads
    rw [Stateful.bind_of_ok hvalid, if_pos hallow]
    exact (Stateful.bind_of_ok hnow).trans (Stateful.bind_of_ok hreset)
  have hwithout : observePayloads P policy scopes none entries s =
      (Stateful.lift (sortedByM entrySortKey entries) >>= directLoop P policy started scopes :
        Stateful (Meter W) Exc _) s₀ := by
    unfold observePayloads
    rw [Stateful.bind_of_ok hvalid, if_pos hallow]
    unfold observeDirectPayloads
    dsimp only
    rw [Stateful.bind_of_ok hvalid, Stateful.bind_of_ok hnow, Stateful.bind_of_ok hreset]
    exact Stateful.bind_of_ok rfl
  rw [hwith, hwithout]
  cases hsorted : sortedByM entrySortKey entries with
  | error e => exact iff_of_true rfl fun _ _ _ hordered => nomatch hordered
  | ok ordered =>
    have hkeys : ∀ entry ∈ ordered, Ok (entrySortKey entry) := fun entry hentry =>
      ok_sortedByM.1 ⟨ordered, hsorted⟩ entry ((mem_sortedByM hsorted).1 hentry)
    have hlift : (Stateful.lift (Except.ok ordered) : Stateful (Meter W) Exc _) s₀ = (.ok ordered, s₀) := rfl
    rw [Stateful.bind_of_ok hlift, Stateful.bind_of_ok hlift]
    have hgoal : (findings <$> ((List.flatten <$> reuseLoop P policy started scopes ordered :
          Stateful (Meter W) Exc _) s₀).1 = findings <$> (directLoop P policy started scopes ordered s₀).1) ↔
        Transparent P policy started scopes ordered s₀ := by
      by_cases hraises : ∃ v ∈ visits P policy started scopes ordered s₀, Raises P policy started scopes v
      · obtain ⟨hd, hr⟩ := loops_raise h hpolicy hkeys hraises
        rw [Stateful.map_raises hr, hd]
        exact iff_of_true rfl (.inl hraises)
      obtain ⟨vs, s₁, hdirect⟩ := directLoop_returns h fun v hv hraise => hraises ⟨v, hv, hraise⟩
      by_cases hdiffers : ∃ v ∈ visits P policy started scopes ordered s₀, ProbeDiffers P policy started scopes v
      · refine iff_of_false (fun heq => ?_) fun htransparent =>
          htransparent.elim hraises fun hno => hdiffers.elim fun v hv => hno v hv.1 hv.2
        rcases hreuse : reuseLoop P policy started scopes ordered s₀ with ⟨e | parts, s₂⟩
        · rw [Stateful.map_of_error hreuse, hdirect] at heq
          cases heq
        · rw [Stateful.map_of_ok hreuse, hdirect] at heq
          exact loops_differ h hpolicy hkeys hdiffers hdirect hreuse (Except.ok.inj heq)
      · have halike : ∀ v ∈ visits P policy started scopes ordered s₀, ¬ ProbeDiffers P policy started scopes v :=
          fun v hv hdiffer => hdiffers ⟨v, hv, hdiffer⟩
        refine iff_of_true ?_ (.inr halike)
        have hreuse := loops_agree h hpolicy hkeys halike
        rw [Stateful.map_of_ok hdirect] at hreuse
        rw [Stateful.map_of_ok hreuse, hdirect, ← List.flatMap_def, List.flatMap_singleton']
    rw [hgoal]
    constructor
    · rintro htransparent _ _ _ hordered
      cases hordered
      exact htransparent
    · intro hall
      exact hall hpolicy hallow ordered rfl

end

/-! ## A file elsewhere -/

/-- A platform where every file is elsewhere. -/
def remote : Platform Unit Unit Unit Unit where
  validDuration _ := true
  monotonic w := ((), w)
  reached _ _ _ := false
  noFollow := true
  missingErrnos := []
  locality _ w := (some .nonLocal, w)
  openFile _ w := (.error ⟨.fileNotFoundError, none⟩, w)
  fstat _ w := (.error ⟨.osError, none⟩, w)
  read _ _ w := (.error ⟨.osError, none⟩, w)
  lstat _ w := (.error ⟨.fileNotFoundError, none⟩, w)
  close _ w := (.ok (), w)
  read_length _ _ _ _ h := nomatch h

theorem remote_quiet : remote.Quiet where
  monotonic _ := rfl
  locality _ _ := rfl
  fstat _ _ := rfl
  unopened _ _ _ _ := rfl
  close _ _ := rfl
  reopened _ _ _ h := nomatch h

/-- Files of one byte, of one byte in all, or an earlier observation of them. -/
def reusePolicy : PayloadHashPolicy Unit := { oneBytePolicy with allowVerifiedReuse := true }

theorem remote_transparent :
    findings <$> (observePayloads remote reusePolicy [(txt "s", txt "/s")] (some missing)
        [oneByteEntry (txt "a") .regularFile] ⟨(), 0⟩).1 =
      findings <$> (observePayloads remote reusePolicy [(txt "s", txt "/s")] none
        [oneByteEntry (txt "a") .regularFile] ⟨(), 0⟩).1 := by
  refine (observePayloads_transparent_iff remote_quiet _ _ _ _).2 fun _ _ ordered hordered => .inr ?_
  obtain rfl : ordered = [oneByteEntry (txt "a") .regularFile] := (Except.ok.inj hordered).symm
  rintro v hv ⟨size, ho, hover, -⟩
  obtain rfl := List.mem_singleton.1 (show v ∈ [(oneByteEntry (txt "a") .regularFile, (⟨(), 0⟩ : Meter Unit))] from hv)
  obtain rfl : 1 = size := Option.some.inj ho.size
  exact absurd hover (by unfold Oversized; decide)

/-- A file of two bytes elsewhere: too large to the direct reader, not local to the probe. -/
theorem remote_differs : remote.Quiet ∧
    ¬ ∀ (policy : PayloadHashPolicy Unit) (scopes : List (Text × Text)) (entries : List FilesystemEntry)
      (s : Meter Unit), findings <$> (observePayloads remote policy scopes (some missing) entries s).1 =
        findings <$> (observePayloads remote policy scopes none entries s).1 := by
  refine ⟨remote_quiet, fun h => ?_⟩
  have hsame : (Except.ok [(PayloadObservationStatus.notLocal, none)] :
      Result (List (PayloadObservationStatus × Option Text))) = .ok [(.fileTooLarge, none)] :=
    h reusePolicy [(txt "s", txt "/s")] [{ oneByteEntry (txt "a") .regularFile with sizeBytes := some 2 }] ⟨(), 0⟩
  cases hsame

end Steward
