import Steward.Snapshot.Persist
import Steward.Storage.Sealed

/-!
# Chains of records

What the directory of a Run should hold: one file for each number from 1 on, each
record with the digest of the one before, and the status moved along the state
machine. `Ledgers` is the invariant that ties the directories to the rows of `runs`.
-/

namespace Steward

open Py Sqlite

variable {F : Type} [SqliteFloat F]

/-- The record with number `n` after the digest `previous`, under its file name. -/
structure Recorded (runId : Text) (n : Nat) (previous : Value F) (name : Text) (item : Value F) : Prop where
  named : ∃ t, keyOf item EnvelopeKey.evidenceType = .str t ∧ filename n t = .ok name
  runId : keyOf item EnvelopeKey.runId = .str runId
  sequence : keyOf item EnvelopeKey.sequence = .int n
  previous : keyOf item EnvelopeKey.previousEvidenceDigest = previous
  digest : ∃ d, recordDigest item = .ok d ∧ keyOf item EnvelopeKey.evidenceDigest = .str d

/-- The records of a Run with the status and the last digest they lead to. -/
inductive Chain (runId : Text) : List (Text × Document F) → RunStatus → Value F → Prop where
  | start : Chain runId [] .created .none
  | append {files : List (Text × Document F)} {a b : RunStatus} {previous : Value F} {f : Text × Document F}
      (h : Chain runId files a previous) (record : Recorded runId (files.length + 1) previous f.1 f.2.value)
      (moves : Moves (files.length + 1) f.2.value a b) :
      Chain runId (files ++ [f]) b (keyOf f.2.value EnvelopeKey.evidenceDigest)

/-- The directory of the Run holds the files of one chain and nothing else. -/
def Unforked (c : Corpus F) (runId : Text) : Prop :=
  ∀ dir, c.dir? runId = some dir → ∃ files status last, Chain runId files status last ∧
    dir.listing.Perm (files.map fun f => (f.1, .file (.json f.2)))

section
variable {runId : Text} {files : List (Text × Document F)} {status : RunStatus} {last : Value F}
  (h : Chain runId files status last)
include h

/-- Each file is a record of the chain, with a number up to its length. -/
theorem Chain.record {f : Text × Document F} (hf : f ∈ files) :
    ∃ n previous, 0 < n ∧ n ≤ files.length ∧ Recorded runId n previous f.1 f.2.value := by
  induction h with
  | start => cases hf
  | @append files a b previous g h hr hm ih =>
    rw [List.length_append, List.length_singleton]
    rcases List.mem_append.1 hf with hf | hf
    · obtain ⟨n, p, hpos, hn, hrec⟩ := ih hf
      exact ⟨n, p, hpos, by omega, hrec⟩
    · rw [List.mem_singleton.1 hf]
      exact ⟨_, previous, by omega, le_refl _, hr⟩

/-- A number has one file. -/
theorem Chain.unique {f g : Text × Document F} (hf : f ∈ files) (hg : g ∈ files) {n : Nat}
    (hfn : keyOf f.2.value EnvelopeKey.sequence = .int n) (hgn : keyOf g.2.value EnvelopeKey.sequence = .int n) :
    f = g := by
  have hnum {files : List (Text × Document F)} {status : RunStatus} {last : Value F}
      (h : Chain runId files status last) {f : Text × Document F} (hf : f ∈ files)
      (hfn : keyOf f.2.value EnvelopeKey.sequence = .int n) : n ≤ files.length := by
    obtain ⟨m, p, -, hm, hrec⟩ := h.record hf
    rw [hrec.sequence] at hfn
    have hmn := Value.int.inj hfn
    omega
  induction h with
  | start => cases hf
  | @append files a b previous k h hr hm ih =>
    have hk : keyOf k.2.value EnvelopeKey.sequence = .int n → n = files.length + 1 := fun hkn => by
      rw [hr.sequence] at hkn
      have := Value.int.inj hkn
      omega
    rcases List.mem_append.1 hf with hf | hf <;> rcases List.mem_append.1 hg with hg | hg
    · exact ih hf hg
    · rw [List.mem_singleton.1 hg] at hgn
      have h1 := hk hgn
      have h2 := hnum h hf hfn
      omega
    · rw [List.mem_singleton.1 hf] at hfn
      have h1 := hk hfn
      have h2 := hnum h hg hgn
      omega
    · rw [List.mem_singleton.1 hf, List.mem_singleton.1 hg]

/-- The chain is a walk along the state machine. -/
theorem Chain.legal : ∃ path, LegalPath .created path status := by
  induction h with
  | start => exact ⟨[], .nil _⟩
  | append h hr hm ih =>
    obtain ⟨path, hpath⟩ := ih
    cases hm with
    | created => exact ⟨path, hpath⟩
    | transition hn ht hs hc ha => exact ⟨_, hpath.snoc ha⟩
    | other => exact ⟨path, hpath⟩

end

/-- A sealed item, once written, is the next record of its chain. -/
theorem Chain.written {runId : Text} {files : List (Text × Document F)} {a b : RunStatus} {last : Value F}
    (h : Chain runId files a last) {f : EnvelopeKey → Value F} (hf : Sealed f)
    (hwf : (Value.dict (envelope f)).wf = true) {name type : Text} (hr : f .runId = .str runId)
    (hs : f .sequence = .int (files.length + 1 : Nat)) (ht : f .evidenceType = .str type)
    (hn : filename (files.length + 1 : Nat) type = .ok name) (hp : f .previousEvidenceDigest = last)
    (hlast : last.sortKeys = last) (hm : Moves (files.length + 1) (.dict (envelope f)) a b) :
    Chain runId (files ++ [(name, Steward.written f hwf)]) b (.str (sealOf f)) := by
  have hkey {k : EnvelopeKey} {v : Value F} (hk : f k = v) (hv : v.sortKeys = v) :
      keyOf (Steward.written f hwf).value k = v := by rw [keyOf_written, hk, hv]
  have hdigest := hkey hf.digest rfl
  rw [← hdigest]
  exact h.append ⟨⟨type, hkey ht rfl, hn⟩, hkey hr rfl, hkey hs rfl, hkey hp hlast,
    ⟨sealOf f, hf.digest_written hwf, hdigest⟩⟩ (moves_written hwf hm)

/-! ## The index -/

/-- The row says where the chain of its Run stands, or stood one record ago. -/
structure Tracks (row : Row RunColumn F) (runId : Text) (files : List (Text × Document F)) : Prop where
  owner : row .runId = .text runId
  position : ∃ earlier status last, Chain runId earlier status last ∧ earlier ≠ [] ∧
    (files = earlier ∨ ∃ f, files = earlier ++ [f]) ∧ row .status = .text (Named.name status) ∧
    row .lastSequence = .integer earlier.length ∧ (row .lastEvidenceDigest).toValue = last

/-- Every row of `runs` tracks its chain. -/
structure RowsTrack (ix : Index F) (ledger : Text → List (Text × Document F)) : Prop where
  tracks : ∀ row ∈ ix.runs, ∃ r, Tracks row r (ledger r)
  apart : ix.runs.Pairwise fun a b => a .runId ≠ b .runId

/-- The directories hold the chains of `ledger`. -/
structure Ledgers (c : Corpus F) (ledger : Text → List (Text × Document F)) : Prop where
  absent : ∀ r, c.dir? r = none → ledger r = []
  present : ∀ r dir, c.dir? r = some dir → ledger r ≠ [] ∧
    dir.listing.Perm ((ledger r).map fun f => (f.1, .file (.json f.2)))
  chain : ∀ r, ∃ status last, Chain r (ledger r) status last

theorem Ledgers.unforked {c : Corpus F} {ledger : Text → List (Text × Document F)} (h : Ledgers c ledger)
    (runId : Text) : Unforked c runId := by
  intro dir hdir
  obtain ⟨status, last, hchain⟩ := h.chain runId
  exact ⟨_, status, last, hchain, (h.present runId dir hdir).2⟩

section
variable {c : Corpus F} {ledger : Text → List (Text × Document F)} (h : Ledgers c ledger)
include h

/-- A name is taken exactly when it is in the ledger. -/
theorem Ledgers.taken {runId name : Text} :
    ((c.dir? runId).bind (·.find name)).isSome = true ↔ ∃ d, (name, d) ∈ ledger runId := by
  cases hdir : c.dir? runId with
  | none =>
    rw [h.absent runId hdir]
    simp
  | some dir =>
    have hperm := (h.present runId dir hdir).2
    rw [Option.bind_some, Option.isSome_iff_exists]
    simp only [Directory.find_eq_some, hperm.mem_iff, List.mem_map, Prod.mk.injEq]
    constructor
    · rintro ⟨node, ⟨n, d⟩, hf, rfl, rfl⟩
      exact ⟨d, hf⟩
    · rintro ⟨d, hd⟩
      exact ⟨_, (name, d), hd, rfl, rfl⟩

/-- Making a directory that exists changes nothing. -/
theorem Ledgers.mkdir {runId name : Text} (htaken : ((c.dir? runId).bind (·.find name)).isSome = true) :
    Ledgers (c.mkdir runId) ledger := by
  have hsame (r : Text) : (c.mkdir runId).dir? r = c.dir? r := by
    rw [Corpus.dir?_mkdir]
    split_ifs with hr
    · rw [hr]
      cases hdir : c.dir? runId with
      | none => rw [hdir] at htaken; cases htaken
      | some dir => rfl
    · rfl
  exact ⟨fun r hr => h.absent r (hsame r ▸ hr), fun r dir hr => h.present r dir (hsame r ▸ hr), h.chain⟩

/-- A new file continues the chain of its Run. -/
theorem Ledgers.put {runId name : Text} {d : Document F}
    (hfree : ((c.dir? runId).bind (·.find name)).isSome = false)
    (hchain : ∃ status last, Chain runId (ledger runId ++ [(name, d)]) status last) :
    Ledgers (c.put runId name (.json d)) (Function.update ledger runId (ledger runId ++ [(name, d)])) := by
  have hlisting : ((((c.dir? runId).getD .empty).insert name (.file (.json d))).listing).Perm
      ((ledger runId ++ [(name, d)]).map fun f => (f.1, .file (.json f.2))) := by
    have hname : name ∉ keys ((c.dir? runId).getD .empty).listing := by
      cases hdir : c.dir? runId with
      | none => exact List.not_mem_nil
      | some dir =>
        rw [hdir, Option.bind_some, Option.isSome_eq_false_iff, Option.isNone_iff_eq_none] at hfree
        exact Directory.find_eq_none.1 hfree
    have hold : ((c.dir? runId).getD .empty).listing.Perm
        ((ledger runId).map fun f => (f.1, .file (.json f.2))) := by
      cases hdir : c.dir? runId with
      | none => rw [h.absent runId hdir]; exact .refl _
      | some dir => exact (h.present runId dir hdir).2
    rw [List.map_append]
    exact ((Directory.put_perm _ hname).trans (hold.cons _)).trans (List.perm_append_singleton _ _).symm
  refine ⟨fun r hr => ?_, fun r dir hr => ?_, fun r => ?_⟩
  · rw [Corpus.dir?_put] at hr
    split_ifs at hr with hne
    rw [Function.update_of_ne hne]
    exact h.absent r hr
  · rw [Corpus.dir?_put] at hr
    split_ifs at hr with hne
    · cases hr
      subst hne
      rw [Function.update_self]
      exact ⟨by simp, hlisting⟩
    · rw [Function.update_of_ne hne]
      exact h.present r dir hr
  · by_cases hne : r = runId
    · subst hne
      rwa [Function.update_self]
    · rw [Function.update_of_ne hne]
      exact h.chain r

end

/-! ## Publishing -/

/-- An operation keeps the invariant when the file it may write continues the chain and the rows,
before and after its projection, track the longer one. -/
theorem Ledgers.publish {w : World F} {ledger : Text → List (Text × Document F)} (h : Ledgers w.corpus ledger)
    (hrows : RowsTrack w.index ledger) {p : Publication.Plan F} {f : EnvelopeKey → Value F} {runId type name : Text}
    {n : Int} (hitem : p.item = envelope f) (hf : Sealed f) (hwf : (Value.dict (envelope f)).wf = true)
    (hr : f .runId = .str runId) (hs : f .sequence = .int n) (ht : f .evidenceType = .str type)
    (hn : filename n type = .ok name)
    (hnext : ((w.corpus.dir? runId).bind (·.find name)).isSome = false →
      (∃ status last, Chain runId (ledger runId ++ [(name, Steward.written f hwf)]) status last) ∧
      RowsTrack w.index (Function.update ledger runId (ledger runId ++ [(name, Steward.written f hwf)])) ∧
      ∀ relative ix, p.project relative = .ok ix →
        RowsTrack ix (Function.update ledger runId (ledger runId ++ [(name, Steward.written f hwf)])))
    (injector : Option FaultInjector) :
    ∃ ledger', Ledgers (Steward.publish injector w p).2.corpus ledger' ∧
      RowsTrack (Steward.publish injector w p).2.index ledger' := by
  unfold Steward.publish
  cases hbefore : checkpoint injector p.operation .beforeEvidencePublish with
  | error e => exact ⟨ledger, h, hrows⟩
  | ok u =>
    have hwrite := writeEvidence_envelope hf hwf w.corpus hr hs ht hn
    rw [← hitem] at hwrite
    cases htaken : ((w.corpus.dir? runId).bind (·.find name)).isSome with
    | true =>
      rw [if_pos htaken] at hwrite
      simp only [hwrite]
      exact ⟨ledger, h.mkdir htaken, hrows⟩
    | false =>
      obtain ⟨hchain, hold, hnew⟩ := hnext htaken
      rw [if_neg (by rw [htaken]; exact Bool.false_ne_true)] at hwrite
      simp only [hwrite]
      refine ⟨Function.update ledger runId (ledger runId ++ [(name, Steward.written f hwf)]), ?_, ?_⟩
      · split <;> exact h.put htaken hchain
      · split
        · exact hold
        · rename_i ix hix
          simp only [ok_bind_ok, bind_eq_ok] at hix
          obtain ⟨_, -, ix', hix', _, -, hpure⟩ := hix
          cases hpure
          exact hnew _ _ hix'

end Steward
