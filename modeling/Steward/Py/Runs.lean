import Mathlib.Data.List.Pairwise
import Mathlib.Order.Basic

/-!
# Maximal runs of a step function

A function of the integers that is constant between consecutive boundaries is
read cell by cell; cells with one value that meet are joined. What is left are
the maximal intervals on which the function has one value, of those values that
are wanted.
-/

namespace Py

/-- `[start, stop)` and the value there. -/
structure Run (β : Type) where
  start : Int
  stop : Int
  value : β
  deriving DecidableEq, Repr

variable {β : Type} [DecidableEq β]

/-- One more cell, joined to the last run where it meets that and has its value. -/
def joinCell (wanted : β → Bool) (runs : List (Run β)) (cell : Run β) : List (Run β) :=
  if wanted cell.value then
    match runs.getLast? with
    | some last =>
      if last.stop = cell.start ∧ last.value = cell.value then runs.dropLast ++ [{ last with stop := cell.stop }]
      else runs ++ [cell]
    | none => runs ++ [cell]
  else runs

omit [DecidableEq β] in
/-- A wanted value, held on an interval and not just outside it. -/
structure MaximalRun (f : Int → β) (wanted : β → Bool) (run : Run β) : Prop where
  proper : run.start < run.stop
  valued : wanted run.value = true
  constant : ∀ t, run.start ≤ t → t < run.stop → f t = run.value
  before : f (run.start - 1) ≠ run.value
  behind : f run.stop ≠ run.value

/-- A run below `limit`, maximal if it does not reach it. -/
structure RunBelow (f : Int → β) (wanted : β → Bool) (limit : Int) (run : Run β) : Prop where
  proper : run.start < run.stop
  below : run.stop ≤ limit
  valued : wanted run.value = true
  constant : ∀ t, run.start ≤ t → t < run.stop → f t = run.value
  before : f (run.start - 1) ≠ run.value
  behind : run.stop < limit → f run.stop ≠ run.value

/-- The runs of the function below `limit`. -/
structure RunsBelow (f : Int → β) (wanted : β → Bool) (limit : Int) (runs : List (Run β)) : Prop where
  each : ∀ run ∈ runs, RunBelow f wanted limit run
  ordered : runs.Pairwise fun a b => a.stop ≤ b.start
  complete : ∀ t, t < limit → wanted (f t) = true → ∃ run ∈ runs, run.start ≤ t ∧ t < run.stop

section
variable {f : Int → β} {wanted : β → Bool} {limit : Int} {runs : List (Run β)}

omit [DecidableEq β] in
theorem RunBelow.extend {run : Run β} (h : RunBelow f wanted limit run) {limit' : Int} (hle : limit ≤ limit')
    (hne : run.stop = limit → f run.stop ≠ run.value) : RunBelow f wanted limit' run := by
  refine ⟨h.proper, Int.le_trans h.below hle, h.valued, h.constant, h.before, fun _ => ?_⟩
  by_cases hlt : run.stop < limit
  · exact h.behind hlt
  · exact hne (by have := h.below; omega)

omit [DecidableEq β] in
/-- A run that reaches the limit is the last one. -/
theorem RunsBelow.getLast_of_stop (h : RunsBelow f wanted limit runs) {run : Run β} (hrun : run ∈ runs)
    (hstop : run.stop = limit) : runs.getLast? = some run := by
  obtain ⟨pre, post, rfl⟩ := List.append_of_mem hrun
  rcases List.eq_nil_or_concat post with rfl | ⟨post, last, rfl⟩
  · exact List.getLast?_concat
  · obtain ⟨-, hpost, -⟩ := List.pairwise_append.1 h.ordered
    have hafter : run.stop ≤ last.start := List.rel_of_pairwise_cons hpost (by simp)
    have hproper := (h.each last (by simp)).proper
    have hbelow := (h.each last (by simp)).below
    omega

variable {cell : Run β}

section

omit [DecidableEq β]

/-- A cell whose value is not wanted ends the last run. -/
theorem RunsBelow.pass (h : RunsBelow f wanted limit runs) (hstart : cell.start = limit)
    (hproper : cell.start < cell.stop) (hconstant : ∀ t, cell.start ≤ t → t < cell.stop → f t = cell.value)
    (hw : ¬ wanted cell.value = true) : RunsBelow f wanted cell.stop runs := by
  refine ⟨fun run hrun => (h.each run hrun).extend (by omega) fun hstop => ?_, h.ordered, fun t ht hwt => ?_⟩
  · rw [hstop, ← hstart, hconstant cell.start (Int.le_refl _) hproper]
    intro heq
    rw [heq] at hw
    exact hw (h.each run hrun).valued
  · by_cases hlt : t < limit
    · exact h.complete t hlt hwt
    · rw [hconstant t (by omega) ht] at hwt
      exact absurd hwt hw

/-- A cell that meets the last run and has its value goes on with it. -/
theorem RunsBelow.join {front : List (Run β)} {last : Run β} (h : RunsBelow f wanted limit (front ++ [last]))
    (hstart : cell.start = limit) (hproper : cell.start < cell.stop)
    (hconstant : ∀ t, cell.start ≤ t → t < cell.stop → f t = cell.value)
    (hmeet : last.stop = cell.start) (hsame : last.value = cell.value) :
    RunsBelow f wanted cell.stop (front ++ [{ last with stop := cell.stop }]) := by
  have hlast := h.each last (by simp)
  obtain ⟨hfront, -, hbelow⟩ := List.pairwise_append.1 h.ordered
  have hapart : ∀ run ∈ front, run.stop ≤ last.start := fun run hrun =>
    hbelow run hrun last (List.mem_singleton_self last)
  refine ⟨fun run hrun => ?_, ?_, fun t ht hwt => ?_⟩
  · rcases List.mem_append.1 hrun with hrun | hrun
    · refine (h.each run (List.mem_append_left _ hrun)).extend (by omega) fun hstop => ?_
      have hlt := hapart run hrun
      have hlastProper := hlast.proper
      omega
    · rw [List.mem_singleton.1 hrun]
      refine ⟨?_, Int.le_refl _, hlast.valued, fun t hlo hhi => ?_, hlast.before,
        fun hlt => absurd hlt (Int.lt_irrefl _)⟩
      · have hlastProper := hlast.proper
        dsimp only
        omega
      · by_cases hlt : t < last.stop
        · exact hlast.constant t hlo hlt
        · exact (hconstant t (by omega) hhi).trans hsame.symm
  · refine List.pairwise_append.2 ⟨hfront, List.pairwise_singleton _ _, fun a ha b hb => ?_⟩
    rw [List.mem_singleton.1 hb]
    exact hapart a ha
  · have hnew : ({ last with stop := cell.stop } : Run β) ∈ front ++ [{ last with stop := cell.stop }] := by simp
    by_cases hlt : t < limit
    · obtain ⟨run, hrun, hlo, hhi⟩ := h.complete t hlt hwt
      rcases List.mem_append.1 hrun with hrun | hrun
      · exact ⟨run, List.mem_append_left _ hrun, hlo, hhi⟩
      · rw [List.mem_singleton.1 hrun] at hlo
        exact ⟨_, hnew, hlo, ht⟩
    · have hlastProper := hlast.proper
      exact ⟨_, hnew, by dsimp only; omega, ht⟩

/-- Any other cell of a wanted value begins a run. -/
theorem RunsBelow.push (h : RunsBelow f wanted limit runs) (hstart : cell.start = limit)
    (hproper : cell.start < cell.stop) (hconstant : ∀ t, cell.start ≤ t → t < cell.stop → f t = cell.value)
    (hw : wanted cell.value = true)
    (hapart : ∀ last, runs.getLast? = some last → ¬ (last.stop = cell.start ∧ last.value = cell.value)) :
    RunsBelow f wanted cell.stop (runs ++ [cell]) := by
  have hvalue : f limit = cell.value := by
    rw [← hstart]
    exact hconstant cell.start (Int.le_refl _) hproper
  have hnot {run : Run β} (hrun : run ∈ runs) (hstop : run.stop = limit) : run.value ≠ cell.value := fun hsame =>
    hapart run (h.getLast_of_stop hrun hstop) ⟨hstop.trans hstart.symm, hsame⟩
  refine ⟨fun run hrun => ?_, ?_, fun t ht hwt => ?_⟩
  · rcases List.mem_append.1 hrun with hrun | hrun
    · refine (h.each run hrun).extend (by omega) fun hstop => ?_
      rw [hstop, hvalue]
      exact (hnot hrun hstop).symm
    · rw [List.mem_singleton.1 hrun]
      refine ⟨hproper, Int.le_refl _, hw, hconstant, fun hbefore => ?_, fun hlt => absurd hlt (Int.lt_irrefl _)⟩
      -- a run with the value of the cell just before it would have been the last one
      rw [hstart] at hbefore
      obtain ⟨run, hrun, hlo, hhi⟩ := h.complete (limit - 1) (by omega) (by rw [hbefore]; exact hw)
      have hbelow := (h.each run hrun).below
      have hval := (h.each run hrun).constant (limit - 1) hlo hhi
      exact hnot hrun (by omega) (hval.symm.trans hbefore)
  · refine List.pairwise_append.2 ⟨h.ordered, List.pairwise_singleton _ _, fun a ha b hb => ?_⟩
    rw [List.mem_singleton.1 hb, hstart]
    exact (h.each a ha).below
  · by_cases hlt : t < limit
    · obtain ⟨run, hrun, hlo, hhi⟩ := h.complete t hlt hwt
      exact ⟨run, List.mem_append_left _ hrun, hlo, hhi⟩
    · exact ⟨cell, by simp, by omega, ht⟩

end

theorem RunsBelow.step (h : RunsBelow f wanted limit runs) (hstart : cell.start = limit)
    (hproper : cell.start < cell.stop) (hconstant : ∀ t, cell.start ≤ t → t < cell.stop → f t = cell.value) :
    RunsBelow f wanted cell.stop (joinCell wanted runs cell) := by
  unfold joinCell
  by_cases hw : wanted cell.value = true
  · rw [if_pos hw]
    cases hlast : runs.getLast? with
    | none => exact h.push hstart hproper hconstant hw fun last hl => by rw [hlast] at hl; cases hl
    | some last =>
      dsimp only
      split_ifs with hmeet
      · obtain ⟨front, rfl⟩ := List.getLast?_eq_some_iff.1 hlast
        rw [List.dropLast_concat]
        exact h.join hstart hproper hconstant hmeet.1 hmeet.2
      · refine h.push hstart hproper hconstant hw fun last' hl => ?_
        rw [hlast, Option.some.injEq] at hl
        exact hl ▸ hmeet
  · rw [if_neg hw]
    exact h.pass hstart hproper hconstant hw

omit [DecidableEq β] in
/-- Where nothing is wanted at the limit, the runs are the maximal ones. -/
theorem RunsBelow.mem_iff (h : RunsBelow f wanted limit runs) (hend : ∀ t, limit ≤ t → ¬ wanted (f t) = true)
    {run : Run β} : run ∈ runs ↔ MaximalRun f wanted run := by
  constructor
  · intro hrun
    have hr := h.each run hrun
    refine ⟨hr.proper, hr.valued, hr.constant, hr.before, fun hbehind => ?_⟩
    by_cases hlt : run.stop < limit
    · exact hr.behind hlt hbehind
    · exact hend run.stop (by omega) (by rw [hbehind]; exact hr.valued)
  · intro hmax
    have hstart : f run.start = run.value := hmax.constant run.start (Int.le_refl _) hmax.proper
    have hbelow : run.start < limit := by
      by_contra hge
      exact hend run.start (by omega) (by rw [hstart]; exact hmax.valued)
    obtain ⟨other, hother, hlo, hhi⟩ := h.complete run.start hbelow (by rw [hstart]; exact hmax.valued)
    have ho := h.each other hother
    have hvalue : other.value = run.value := (ho.constant run.start hlo hhi).symm.trans hstart
    have hstarts : other.start = run.start := by
      by_contra hne
      exact hmax.before ((ho.constant (run.start - 1) (by omega) (by omega)).trans hvalue)
    have hstops : other.stop = run.stop := by
      rcases Int.lt_trichotomy other.stop run.stop with hlt | heq | hgt
      · by_cases hlimit : other.stop < limit
        · have hin := hmax.constant other.stop (by omega) hlt
          exact absurd (hin.trans hvalue.symm) (ho.behind hlimit)
        · have hin := hmax.constant other.stop (by omega) hlt
          exact absurd (by rw [hin]; exact hmax.valued) (hend other.stop (by omega))
      · exact heq
      · have hin := ho.constant run.stop (by have := hmax.proper; omega) hgt
        exact absurd (hin.trans hvalue) hmax.behind
    have heq : other = run := by
      cases other
      cases run
      simp only [Run.mk.injEq]
      exact ⟨hstarts, hstops, hvalue⟩
    exact heq ▸ hother

/-! ## Cells between boundaries -/

/-- The cells between consecutive boundaries. -/
def cellsOf (valueOf : Int → Int → β) (boundaries : List Int) : List (Run β) :=
  (boundaries.zip boundaries.tail).map fun b => ⟨b.1, b.2, valueOf b.1 b.2⟩

omit [DecidableEq β] in
theorem runsBelow_nil (h : ∀ t, t < limit → ¬ wanted (f t) = true) : RunsBelow f wanted limit [] :=
  ⟨List.forall_mem_nil _, List.Pairwise.nil, fun t ht hw => absurd hw (h t ht)⟩

theorem runsBelow_cells {valueOf : Int → Int → β} : ∀ {boundaries : List Int} {runs : List (Run β)} {limit : Int},
    boundaries.head? = some limit → boundaries.Pairwise (· < ·) →
    (∀ a b, (a, b) ∈ boundaries.zip boundaries.tail → ∀ t, a ≤ t → t < b → f t = valueOf a b) →
    RunsBelow f wanted limit runs →
    ∃ last, boundaries.getLast? = some last ∧
      RunsBelow f wanted last ((cellsOf valueOf boundaries).foldl (joinCell wanted) runs)
  | [], _, _, hhead, _, _, _ => by cases hhead
  | [a], runs, limit, hhead, _, _, h => by
    cases hhead
    exact ⟨a, rfl, h⟩
  | a :: b :: rest, runs, limit, hhead, hsorted, hvalue, h => by
    cases hhead
    obtain ⟨hab, hrest⟩ := List.pairwise_cons.1 hsorted
    have hcell : RunsBelow f wanted (Run.mk a b (valueOf a b)).stop (joinCell wanted runs ⟨a, b, valueOf a b⟩) :=
      h.step rfl (hab b List.mem_cons_self) (hvalue a b (by simp))
    have hnext : (b :: rest).head? = some b := rfl
    obtain ⟨last, hlast, hfold⟩ := runsBelow_cells hnext hrest
      (fun c d hcd => hvalue c d (List.mem_cons_of_mem _ hcd)) hcell
    exact ⟨last, by rw [List.getLast?_cons_cons]; exact hlast, hfold⟩

/-- No boundary lies strictly between consecutive ones. -/
theorem consecutive_boundaries : ∀ {boundaries : List Int}, boundaries.Pairwise (· < ·) → ∀ {a b : Int},
    (a, b) ∈ boundaries.zip boundaries.tail → a < b ∧ ∀ x ∈ boundaries, x ≤ a ∨ b ≤ x
  | [], _, _, _, h => by cases h
  | [c], _, _, _, h => by cases h
  | c :: d :: rest, hsorted, a, b, h => by
    obtain ⟨hc, hrest⟩ := List.pairwise_cons.1 hsorted
    rcases List.mem_cons.1 h with heq | h
    · obtain ⟨rfl, rfl⟩ := Prod.mk.inj heq
      refine ⟨hc _ List.mem_cons_self, fun x hx => ?_⟩
      rcases List.mem_cons.1 hx with rfl | hx
      · exact .inl (Int.le_refl _)
      · rcases List.mem_cons.1 hx with rfl | hx
        · exact .inr (Int.le_refl _)
        · exact .inr (Int.le_of_lt (List.rel_of_pairwise_cons hrest hx))
    · change (a, b) ∈ (d :: rest).zip rest at h
      have ha : a ∈ d :: rest := (List.of_mem_zip h).1
      obtain ⟨hab, hall⟩ := consecutive_boundaries hrest h
      refine ⟨hab, fun x hx => ?_⟩
      rcases List.mem_cons.1 hx with rfl | hx
      · exact .inl (Int.le_of_lt (hc a ha))
      · exact hall x hx

end

end Py
