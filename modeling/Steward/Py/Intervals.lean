import Mathlib.Data.Int.Interval
import Mathlib.Data.Int.Range

/-!
# Coalescing intervals

Intervals in order of their starts are joined where they touch. What is left is
separated, and covers what the intervals covered.
-/

namespace Py

/-- A point that some interval reaches from below. -/
def Covered (ws : List (Int × Int)) (t : Int) : Prop := ∃ w ∈ ws, w.1 < t ∧ t ≤ w.2

instance (ws : List (Int × Int)) (t : Int) : Decidable (Covered ws t) :=
  inferInstanceAs (Decidable (∃ w ∈ ws, w.1 < t ∧ t ≤ w.2))

/-- One more interval: joined to the last one where it begins no later than that ends. -/
def coalesceSpan (spans : List (Int × Int)) (w : Int × Int) : List (Int × Int) :=
  match spans.getLast? with
  | some last => if w.1 ≤ last.2 then spans.dropLast ++ [(last.1, max last.2 w.2)] else spans ++ [w]
  | none => spans ++ [w]

def coalesce (ws : List (Int × Int)) : List (Int × Int) := ws.foldl coalesceSpan []

/-- What holds of the intervals joined so far. -/
structure Coalesces (ws spans : List (Int × Int)) : Prop where
  proper : ∀ s ∈ spans, s.1 < s.2
  separated : spans.Pairwise fun a b => a.2 < b.1
  covered : ∀ t, Covered spans t ↔ Covered ws t
  starts : ∀ s ∈ spans, ∃ w ∈ ws, w.1 = s.1
  stops : ∀ s ∈ spans, ∃ w ∈ ws, w.2 = s.2

theorem covered_append {ws vs : List (Int × Int)} {t : Int} :
    Covered (ws ++ vs) t ↔ Covered ws t ∨ Covered vs t := by
  unfold Covered
  simp only [List.mem_append, or_and_right, exists_or]

theorem covered_singleton {w : Int × Int} {t : Int} : Covered [w] t ↔ w.1 < t ∧ t ≤ w.2 := by
  unfold Covered
  simp

theorem Coalesces.step {ws spans : List (Int × Int)} (h : Coalesces ws spans) {w : Int × Int} (hw : w.1 < w.2)
    (hsorted : ∀ v ∈ ws, v.1 ≤ w.1) : Coalesces (ws ++ [w]) (coalesceSpan spans w) := by
  have holdStart {s : Int × Int} (hs : s ∈ spans) : ∃ v ∈ ws ++ [w], v.1 = s.1 := by
    obtain ⟨v, hv, hvs⟩ := h.starts s hs
    exact ⟨v, List.mem_append_left _ hv, hvs⟩
  have holdStop {s : Int × Int} (hs : s ∈ spans) : ∃ v ∈ ws ++ [w], v.2 = s.2 := by
    obtain ⟨v, hv, hvs⟩ := h.stops s hs
    exact ⟨v, List.mem_append_left _ hv, hvs⟩
  have hnew : w ∈ ws ++ [w] := List.mem_append_right _ (List.mem_singleton_self w)
  have happend (hfar : ∀ s ∈ spans, s.2 < w.1) : Coalesces (ws ++ [w]) (spans ++ [w]) := by
    refine ⟨fun s hs => ?_, ?_, fun t => ?_, fun s hs => ?_, fun s hs => ?_⟩
    · rcases List.mem_append.1 hs with hs | hs
      · exact h.proper s hs
      · rwa [List.mem_singleton.1 hs]
    · refine List.pairwise_append.2 ⟨h.separated, List.pairwise_singleton _ _, fun a ha b hb => ?_⟩
      rw [List.mem_singleton.1 hb]
      exact hfar a ha
    · rw [covered_append, covered_append, h.covered]
    · rcases List.mem_append.1 hs with hs | hs
      · exact holdStart hs
      · exact ⟨w, hnew, by rw [List.mem_singleton.1 hs]⟩
    · rcases List.mem_append.1 hs with hs | hs
      · exact holdStop hs
      · exact ⟨w, hnew, by rw [List.mem_singleton.1 hs]⟩
  unfold coalesceSpan
  rcases List.eq_nil_or_concat spans with rfl | ⟨front, last, rfl⟩
  · exact happend fun s hs => by cases hs
  rw [List.concat_eq_append] at *
  rw [List.getLast?_concat, List.dropLast_concat]
  obtain ⟨hfront, -, hbelow⟩ := List.pairwise_append.1 h.separated
  have hlast : last ∈ front ++ [last] := List.mem_append_right _ (List.mem_singleton_self last)
  dsimp only
  split_ifs with htouch
  · obtain ⟨v, hv, hvl⟩ := h.starts last hlast
    have hle : last.1 ≤ w.1 := hvl ▸ hsorted v hv
    have hlt := h.proper last hlast
    refine ⟨fun s hs => ?_, ?_, fun t => ?_, fun s hs => ?_, fun s hs => ?_⟩
    · rcases List.mem_append.1 hs with hs | hs
      · exact h.proper s (List.mem_append_left _ hs)
      · rw [List.mem_singleton.1 hs]
        dsimp only
        omega
    · refine List.pairwise_append.2 ⟨hfront, List.pairwise_singleton _ _, fun a ha b hb => ?_⟩
      rw [List.mem_singleton.1 hb]
      exact hbelow a ha last (List.mem_singleton_self last)
    · rw [covered_append, covered_append, ← h.covered, covered_append, covered_singleton, covered_singleton,
        covered_singleton, or_assoc]
      refine or_congr_right ?_
      dsimp only
      omega
    · rcases List.mem_append.1 hs with hs | hs
      · exact holdStart (List.mem_append_left _ hs)
      · rw [List.mem_singleton.1 hs]
        obtain ⟨v, hv, hvs⟩ := holdStart hlast
        exact ⟨v, hv, hvs⟩
    · rcases List.mem_append.1 hs with hs | hs
      · exact holdStop (List.mem_append_left _ hs)
      · rw [List.mem_singleton.1 hs]
        dsimp only
        by_cases hmax : last.2 ≤ w.2
        · exact ⟨w, hnew, by omega⟩
        · obtain ⟨v, hv, hvs⟩ := holdStop hlast
          exact ⟨v, hv, by omega⟩
  · refine happend fun s hs => ?_
    rcases List.mem_append.1 hs with hs | hs
    · have hsl := hbelow s hs last (List.mem_singleton_self last)
      have hlt := h.proper last hlast
      omega
    · rw [List.mem_singleton.1 hs]
      omega

/-- Coalescing intervals in order of their starts. -/
theorem coalesces_coalesce {ws : List (Int × Int)} (hproper : ∀ w ∈ ws, w.1 < w.2)
    (hsorted : ws.Pairwise fun a b => a.1 ≤ b.1) : Coalesces ws (coalesce ws) := by
  have hrun : ∀ (rest seen spans : List (Int × Int)), Coalesces seen spans → (∀ w ∈ rest, w.1 < w.2) →
      (seen ++ rest).Pairwise (fun a b => a.1 ≤ b.1) → Coalesces (seen ++ rest) (rest.foldl coalesceSpan spans) := by
    intro rest
    induction rest with
    | nil =>
      intro seen spans h _ _
      rwa [List.append_nil]
    | cons w rest ih =>
      intro seen spans h hp hs
      have hbefore : ∀ v ∈ seen, v.1 ≤ w.1 := fun v hv =>
        (List.pairwise_append.1 hs).2.2 v hv w List.mem_cons_self
      have hsplit : seen ++ w :: rest = (seen ++ [w]) ++ rest := by
        rw [List.append_assoc]
        rfl
      rw [hsplit] at hs ⊢
      exact ih (seen ++ [w]) _ (h.step (hp w List.mem_cons_self) hbefore)
        (fun v hv => hp v (List.mem_cons_of_mem _ hv)) hs
  have hnone : Coalesces [] [] := ⟨List.forall_mem_nil _, List.Pairwise.nil, fun _ => Iff.rfl, List.forall_mem_nil _,
    List.forall_mem_nil _⟩
  exact hrun ws [] [] hnone hproper hsorted

/-! ## Stretches without a gap -/

/-- The points where a stretch that is covered begins. -/
def stretchStarts (ws : List (Int × Int)) : List Int :=
  (ws.map Prod.fst).dedup.filter fun s => ¬ Covered ws s

/-- The first `count` stretches are no longer than `limit`. -/
def ShortStretches (ws : List (Int × Int)) (count : Nat) (limit : Int) : Prop :=
  ∀ a ∈ stretchStarts ws, (stretchStarts ws).countP (fun s => s < a) < count →
    ∀ b, (∀ t, a < t → t ≤ b → Covered ws t) → b - a ≤ limit

section
variable {ws spans : List (Int × Int)}

/-- Two spans that share a point are one. -/
theorem Coalesces.eq_of_meet (h : Coalesces ws spans) {a b : Int × Int} (ha : a ∈ spans) (hb : b ∈ spans)
    (hab : a.1 ≤ b.2) (hba : b.1 ≤ a.2) : a = b := by
  obtain ⟨pre, post, rfl⟩ := List.append_of_mem ha
  obtain ⟨-, hpost, hpre⟩ := List.pairwise_append.1 h.separated
  rcases List.mem_append.1 hb with hb | hb
  · have hapart := hpre b hb a List.mem_cons_self
    omega
  · rcases List.mem_cons.1 hb with rfl | hb
    · rfl
    · have hapart := List.rel_of_pairwise_cons hpost hb
      omega

theorem Coalesces.mem_stretchStarts (h : Coalesces ws spans) (hproper : ∀ w ∈ ws, w.1 < w.2) {s : Int} :
    s ∈ stretchStarts ws ↔ ∃ a ∈ spans, a.1 = s := by
  rw [stretchStarts, List.mem_filter, List.mem_dedup, List.mem_map, decide_eq_true_eq, ← h.covered]
  constructor
  · rintro ⟨⟨w, hw, rfl⟩, hnot⟩
    have hlt := hproper w hw
    obtain ⟨a, ha, hbelow, habove⟩ := (h.covered (w.1 + 1)).2 ⟨w, hw, by omega, by omega⟩
    refine ⟨a, ha, ?_⟩
    by_contra hne
    exact hnot ⟨a, ha, by omega, by omega⟩
  · rintro ⟨a, ha, rfl⟩
    refine ⟨h.starts a ha, ?_⟩
    rintro ⟨b, hb, hbelow, habove⟩
    have hlt := h.proper a ha
    have heq := h.eq_of_meet ha hb habove (by omega)
    rw [heq] at hbelow
    omega

theorem Coalesces.nodup_starts (h : Coalesces ws spans) : (spans.map Prod.fst).Nodup := by
  refine List.Nodup.map_on (fun a ha b hb hab => ?_) ?_
  · have hlta := h.proper a ha
    have hltb := h.proper b hb
    exact h.eq_of_meet ha hb (by omega) (by omega)
  · refine h.separated.imp_of_mem fun {a b} ha hb hab => ?_
    have hltb := h.proper b hb
    rintro rfl
    omega

theorem Coalesces.stretchStarts_perm (h : Coalesces ws spans) (hproper : ∀ w ∈ ws, w.1 < w.2) :
    (stretchStarts ws).Perm (spans.map Prod.fst) := by
  refine (List.perm_ext_iff_of_nodup ((List.nodup_dedup _).filter _) h.nodup_starts).2 fun s => ?_
  rw [List.mem_map]
  exact h.mem_stretchStarts hproper

/-- How many spans begin before one is its place. -/
theorem Coalesces.mem_take (h : Coalesces ws spans) (hproper : ∀ w ∈ ws, w.1 < w.2) {a : Int × Int}
    (ha : a ∈ spans) {n : Nat} : a ∈ spans.take n ↔ (stretchStarts ws).countP (fun s => s < a.1) < n := by
  rw [(h.stretchStarts_perm hproper).countP_eq, List.countP_map]
  have hlt := h.proper a ha
  obtain ⟨pre, post, rfl⟩ := List.append_of_mem ha
  obtain ⟨-, hpost, hpre⟩ := List.pairwise_append.1 h.separated
  have hcount : (pre ++ a :: post).countP ((fun s : Int => decide (s < a.1)) ∘ Prod.fst) = pre.length := by
    rw [List.countP_append, List.countP_eq_length.2, List.countP_eq_zero.2, Nat.add_zero]
    · intro b hb
      rcases List.mem_cons.1 hb with rfl | hb
      · simp
      · have hab := List.rel_of_pairwise_cons hpost hb
        simp only [Function.comp_apply, decide_eq_true_eq]
        omega
    · intro b hb
      have hba := hpre b hb a List.mem_cons_self
      have hltb := h.proper b (List.mem_append_left _ hb)
      simp only [Function.comp_apply, decide_eq_true_eq]
      omega
  rw [hcount]
  constructor
  · intro hmem
    by_contra hlate
    rw [List.take_append_of_le_length (by omega)] at hmem
    have haa := hpre a (List.mem_of_mem_take hmem) a List.mem_cons_self
    omega
  · intro hn
    obtain ⟨m, rfl⟩ : ∃ m, n = pre.length + (m + 1) := ⟨n - pre.length - 1, by omega⟩
    rw [List.take_length_add_append, List.take_succ_cons]
    exact List.mem_append_right _ List.mem_cons_self

/-- A span is as long as the stretch that begins where it does. -/
theorem Coalesces.length_le_iff (h : Coalesces ws spans) {a : Int × Int} (ha : a ∈ spans) {limit : Int} :
    a.2 - a.1 ≤ limit ↔ ∀ b, (∀ t, a.1 < t → t ≤ b → Covered ws t) → b - a.1 ≤ limit := by
  constructor
  · intro hlen b hb
    have hlt := h.proper a ha
    by_contra hlong
    obtain ⟨c, hc, hbelow, habove⟩ := (h.covered (a.2 + 1)).2 (hb (a.2 + 1) (by omega) (by omega))
    have heq := h.eq_of_meet ha hc (by omega) (by omega)
    rw [← heq] at habove
    omega
  · intro hall
    exact hall a.2 fun t hlo hhi => (h.covered t).1 ⟨a, ha, hlo, hhi⟩

/-- The first spans are short exactly when the first stretches are. -/
theorem Coalesces.shortStretches_iff (h : Coalesces ws spans) (hproper : ∀ w ∈ ws, w.1 < w.2) {n : Nat} {limit : Int} :
    (∀ a ∈ spans.take n, a.2 - a.1 ≤ limit) ↔ ShortStretches ws n limit := by
  constructor
  · intro hshort s hs hcount
    obtain ⟨a, ha, rfl⟩ := (h.mem_stretchStarts hproper).1 hs
    exact (h.length_le_iff ha).1 (hshort a ((h.mem_take hproper ha).2 hcount))
  · intro hshort a ha
    have hmem := List.mem_of_mem_take ha
    exact (h.length_le_iff hmem).2
      (hshort a.1 ((h.mem_stretchStarts hproper).2 ⟨a, hmem, rfl⟩) ((h.mem_take hproper hmem).1 ha))

end

/-! ## Measure -/

/-- The points of half-open intervals. -/
def points (ws : List (Int × Int)) : Finset Int := (ws.flatMap fun w => Int.range w.1 w.2).toFinset

theorem mem_points {ws : List (Int × Int)} {t : Int} : t ∈ points ws ↔ ∃ w ∈ ws, w.1 ≤ t ∧ t < w.2 := by
  simp only [points, List.mem_toFinset, List.mem_flatMap, Int.mem_range_iff]

theorem covered_succ {ws : List (Int × Int)} {t : Int} : Covered ws (t + 1) ↔ t ∈ points ws := by
  rw [mem_points]
  refine exists_congr fun w => and_congr_right fun _ => ?_
  omega

/-- Separated spans have as many points as they are long together. -/
theorem card_points : ∀ {spans : List (Int × Int)}, (∀ s ∈ spans, s.1 < s.2) →
    (spans.Pairwise fun a b => a.2 < b.1) → ((points spans).card : Int) = (spans.map fun s => s.2 - s.1).sum
  | [], _, _ => rfl
  | s :: spans, hproper, hseparated => by
    obtain ⟨hs, hrest⟩ := List.pairwise_cons.1 hseparated
    have hsplit : points (s :: spans) = Finset.Ico s.1 s.2 ∪ points spans := by
      ext t
      rw [Finset.mem_union, Finset.mem_Ico, mem_points, mem_points, List.exists_mem_cons_iff]
    have hdisjoint : Disjoint (Finset.Ico s.1 s.2) (points spans) := by
      refine Finset.disjoint_left.2 fun t ht ht' => ?_
      obtain ⟨w, hw, hlo, -⟩ := mem_points.1 ht'
      have hsw := hs w hw
      rw [Finset.mem_Ico] at ht
      omega
    have hlt := hproper s List.mem_cons_self
    rw [hsplit, Finset.card_union_of_disjoint hdisjoint, Nat.cast_add, Int.card_Ico,
      card_points (fun w hw => hproper w (List.mem_cons_of_mem _ hw)) hrest, List.map_cons, List.sum_cons,
      Int.toNat_of_nonneg (by omega)]

/-- Coalesced spans are as long together as the union of the intervals. -/
theorem Coalesces.sum_lengths {ws spans : List (Int × Int)} (h : Coalesces ws spans) :
    (spans.map fun s => s.2 - s.1).sum = ((points ws).card : Int) := by
  have hpoints : points spans = points ws := by
    ext t
    rw [← covered_succ, ← covered_succ, h.covered]
  rw [← card_points h.proper h.separated, hpoints]

end Py
