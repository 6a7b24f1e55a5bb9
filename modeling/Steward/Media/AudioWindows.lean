import Mathlib
import Steward.Py.Error
import Steward.Py.Sampling
import Steward.Py.Path

/-!
# Windows of an audio document

`AudioDocumentWorker` reads a source in windows. Voice activity is kept up to a
limit of speech, and the continuation names the start of the next window. What
the voice-activity model reports of a window is an input.
-/

namespace Steward.Media

open Py

def maxAudioWindowMs : Int := 15 * 60 * 1000
def maxAudioSpeechMs : Int := 12 * 60 * 1000
def maxAudioDecodedPcmBytes : Int := 32 * 1024 * 1024
def audioSampleRate : Nat := 16000
def audioChannels : Int := 1
def audioSampleWidthBytes : Int := 2

/-- `AudioSourceInvalid` -/
structure AudioFault where
  message : Text
  deriving DecidableEq, Repr

/-- `AUDIO_ANALYSIS_MODES` -/
def audioAnalysisModes : List Text :=
  [txt "TRANSCRIPT", txt "ALIGNED_WORDS", txt "SPEAKER_TURNS", txt "ALIGNED_WORDS_AND_SPEAKERS"]

/-- Where the voice-activity model hears speech, in samples. An item of another shape is `none`. -/
abbrev VoiceActivity := List (Option (Nat × Nat))

/-- `round(sample * 1000 / AUDIO_SAMPLE_RATE)` -/
def sampleMs (sample : Nat) : Int := roundedQuotient (sample * 1000) audioSampleRate

/-- The loop of `_speech_intervals`, from the intervals and the speech so far. -/
def speechLoop : List (Int × Int) → Int → VoiceActivity → List (Int × Int) × Int
  | intervals, speechMs, [] => (intervals, speechMs)
  | intervals, speechMs, none :: raw => speechLoop intervals speechMs raw
  | intervals, speechMs, some (start, stop) :: raw =>
    if stop ≤ start then speechLoop intervals speechMs raw
    else
      let startMs := sampleMs start
      let available := maxAudioSpeechMs - speechMs
      if available ≤ 0 then (intervals, speechMs)
      else
        let endMs := if available < sampleMs stop - startMs then startMs + available else sampleMs stop
        let intervals := intervals ++ [(startMs, endMs)]
        let speechMs := speechMs + (endMs - startMs)
        if maxAudioSpeechMs ≤ speechMs then (intervals, speechMs) else speechLoop intervals speechMs raw

def speechIntervals (raw : VoiceActivity) : List (Int × Int) × Int := speechLoop [] 0 raw

/-- The bound that `_decode_window` puts on a window. -/
def decodeWindow (startMs endMs : Int) : Except AudioFault Unit :=
  let durationMs := endMs - startMs
  let decodedBytes := durationMs * audioSampleRate * audioChannels * audioSampleWidthBytes / 1000
  if durationMs ≤ 0 ∨ maxAudioDecodedPcmBytes < decodedBytes then
    .error ⟨txt "decoded audio window exceeds its bound"⟩
  else .ok ()

structure AudioDocumentWorker where
  mode : Text
  startMs : Int
  analysis : Text
  deriving DecidableEq, Repr

structure AudioReading where
  windowStartMs : Int
  windowEndMs : Int
  intervals : List (Int × Int)
  vadSpeechMs : Int
  /-- `AUDIO_SPEECH_LIMIT_REACHED` -/
  speechBoundReached : Bool
  nextStartMs : Option Int
  deriving DecidableEq, Repr

/-- The end of the window, or of the last interval where the limit of speech is reached. -/
def audioNextStart (durationMs startMs endMs : Int) (intervals : List (Int × Int)) (speechMs : Int) : Option Int :=
  let windowNext := if endMs < durationMs then some endMs else none
  match intervals.getLast? with
  | some last => if maxAudioSpeechMs ≤ speechMs then some (min endMs (startMs + last.2)) else windowNext
  | none => windowNext

/-- A call on a source of `durationMs`, in whose window `raw` is heard. -/
def AudioDocumentWorker.call (worker : AudioDocumentWorker) (durationMs : Int) (raw : VoiceActivity) :
    Except AudioFault AudioReading :=
  if worker.mode = txt "PROBE" then
    .ok { windowStartMs := 0, windowEndMs := durationMs, intervals := [], vadSpeechMs := 0,
          speechBoundReached := false, nextStartMs := none }
  else if worker.analysis ∉ audioAnalysisModes then .error ⟨txt "audio analysis mode is invalid"⟩
  else if worker.startMs < 0 ∨ durationMs ≤ worker.startMs then
    .error ⟨txt "audio continuation start is outside the source"⟩
  else do
    let endMs := min durationMs (worker.startMs + maxAudioWindowMs)
    decodeWindow worker.startMs endMs
    let speech := speechIntervals raw
    return { windowStartMs := worker.startMs, windowEndMs := endMs, intervals := speech.1, vadSpeechMs := speech.2,
             speechBoundReached := decide (maxAudioSpeechMs ≤ speech.2)
             nextStartMs := audioNextStart durationMs worker.startMs endMs speech.1 speech.2 }

/-! ## Speech -/

/-- The intervals of speech in milliseconds, before any limit. -/
def spoken (raw : VoiceActivity) : List (Int × Int) :=
  (raw.filterMap fun item => item.bind fun s => if s.2 ≤ s.1 then none else some s).map
    fun s => (sampleMs s.1, sampleMs s.2)

def speechTotal (intervals : List (Int × Int)) : Int := (intervals.map fun w => w.2 - w.1).sum

/-- Increasing intervals inside a window. -/
structure Hears (windowMs : Int) (raw : VoiceActivity) : Prop where
  increasing : (raw.filterMap id).Pairwise fun a b => a.2 ≤ b.1
  inside : ∀ s ∈ raw.filterMap id, s.1 < s.2 ∧ (s.2 : Int) * 1000 ≤ windowMs * audioSampleRate

/-- Increasing intervals of milliseconds inside a window. -/
structure Heard (windowMs : Int) (intervals : List (Int × Int)) : Prop where
  increasing : intervals.Pairwise fun a b => a.2 ≤ b.1
  proper : ∀ w ∈ intervals, 0 ≤ w.1 ∧ w.1 ≤ w.2
  inside : ∀ w ∈ intervals, w.2 ≤ windowMs

theorem sampleMs_mono {a b : Nat} (h : a ≤ b) : sampleMs a ≤ sampleMs b :=
  Int.ofNat_le.2 (roundedQuotient_mono (Nat.mul_le_mul_right 1000 h))

theorem sampleMs_nonneg (a : Nat) : 0 ≤ sampleMs a := Int.natCast_nonneg _

theorem sampleMs_le {a : Nat} {windowMs : Int} (h : (a : Int) * 1000 ≤ windowMs * audioSampleRate) :
    sampleMs a ≤ windowMs := by
  unfold audioSampleRate at h
  obtain ⟨w, rfl⟩ := Int.eq_ofNat_of_zero_le (show 0 ≤ windowMs by omega)
  have hle := @roundedQuotient_mono (a * 1000) (w * audioSampleRate) audioSampleRate (by unfold audioSampleRate; omega)
  rw [roundedQuotient_mul (by decide)] at hle
  exact Int.ofNat_le.2 hle

theorem Hears.spoken_eq {windowMs : Int} {raw : VoiceActivity} (h : Hears windowMs raw) :
    spoken raw = (raw.filterMap id).map fun s => (sampleMs s.1, sampleMs s.2) := by
  unfold spoken
  congr 1
  refine List.filterMap_congr fun item hitem => ?_
  cases item with
  | none => rfl
  | some s =>
    have hlt := (h.inside s (List.mem_filterMap.2 ⟨some s, hitem, rfl⟩)).1
    show (if s.2 ≤ s.1 then none else some s) = some s
    rw [if_neg (by omega)]

/-- What is heard in samples is heard in milliseconds. -/
theorem Hears.heard {windowMs : Int} {raw : VoiceActivity} (h : Hears windowMs raw) :
    Heard windowMs (spoken raw) := by
  rw [h.spoken_eq]
  refine ⟨?_, fun w hw => ?_, fun w hw => ?_⟩
  · rw [List.pairwise_map]
    exact h.increasing.imp fun hab => sampleMs_mono hab
  · obtain ⟨s, hs, rfl⟩ := List.mem_map.1 hw
    exact ⟨sampleMs_nonneg _, sampleMs_mono (Nat.le_of_lt (h.inside s hs).1)⟩
  · obtain ⟨s, hs, rfl⟩ := List.mem_map.1 hw
    exact sampleMs_le (h.inside s hs).2

/-! ## What the loop keeps -/

section
variable {intervals : List (Int × Int)}

theorem speechTotal_append (xs ys : List (Int × Int)) : speechTotal (xs ++ ys) = speechTotal xs + speechTotal ys := by
  unfold speechTotal
  rw [List.map_append, List.sum_append]

theorem speechTotal_cons (w : Int × Int) (xs : List (Int × Int)) :
    speechTotal (w :: xs) = w.2 - w.1 + speechTotal xs := by
  unfold speechTotal
  rw [List.map_cons, List.sum_cons]

theorem speechTotal_nonneg (h : ∀ w ∈ intervals, w.1 ≤ w.2) : 0 ≤ speechTotal intervals := by
  unfold speechTotal
  refine List.sum_nonneg fun x hx => ?_
  obtain ⟨w, hw, rfl⟩ := List.mem_map.1 hx
  have hle := h w hw
  omega

/-- Everything is kept, or the interval in which the limit is reached is cut there. -/
inductive Keeps (before : Int) : List (Int × Int) → List (Int × Int) → Int → Prop
  | all {ws : List (Int × Int)} :
    before + speechTotal ws < maxAudioSpeechMs → Keeps before ws ws (before + speechTotal ws)
  | cut {pre post : List (Int × Int)} {w : Int × Int} :
    before + speechTotal pre < maxAudioSpeechMs → maxAudioSpeechMs ≤ before + speechTotal pre + (w.2 - w.1) →
    Keeps before (pre ++ w :: post) (pre ++ [(w.1, w.1 + (maxAudioSpeechMs - (before + speechTotal pre)))])
      maxAudioSpeechMs

theorem Keeps.cons {before total : Int} {ws kept : List (Int × Int)} {w : Int × Int}
    (h : Keeps (before + (w.2 - w.1)) ws kept total) : Keeps before (w :: ws) (w :: kept) total := by
  cases h with
  | all hlt =>
    have heq : before + (w.2 - w.1) + speechTotal ws = before + speechTotal (w :: ws) := by
      rw [speechTotal_cons]
      omega
    rw [heq] at hlt ⊢
    exact .all hlt
  | @cut pre post v hlt hle =>
    have heq : before + (w.2 - w.1) + speechTotal pre = before + speechTotal (w :: pre) := by
      rw [speechTotal_cons]
      omega
    rw [heq] at hlt hle ⊢
    exact @Keeps.cut before (w :: pre) post v hlt hle

theorem speechLoop_keeps (raw : VoiceActivity) {before : Int} (hbefore : before < maxAudioSpeechMs)
    (hproper : ∀ w ∈ spoken raw, w.1 ≤ w.2) :
    ∃ kept total, speechLoop intervals before raw = (intervals ++ kept, total) ∧ Keeps before (spoken raw) kept total := by
  induction raw generalizing intervals before with
  | nil =>
    refine ⟨[], before + speechTotal [], ?_, .all ?_⟩
    · rw [List.append_nil]
      simp [speechLoop, speechTotal]
    · show before + 0 < maxAudioSpeechMs
      omega
  | cons item raw ih =>
    cases item with
    | none => exact ih hbefore hproper
    | some s =>
      obtain ⟨start, stop⟩ := s
      unfold speechLoop
      by_cases hempty : stop ≤ start
      · have hskip : spoken (some (start, stop) :: raw) = spoken raw := by
          unfold spoken
          rw [List.filterMap_cons]
          simp only [Option.bind_some]
          rw [if_pos hempty]
        rw [if_pos hempty, hskip]
        rw [hskip] at hproper
        exact ih hbefore hproper
      have hcons : spoken (some (start, stop) :: raw) = (sampleMs start, sampleMs stop) :: spoken raw := by
        unfold spoken
        rw [List.filterMap_cons]
        simp only [Option.bind_some]
        rw [if_neg hempty]
        rfl
      rw [hcons] at hproper ⊢
      have hle : sampleMs start ≤ sampleMs stop := hproper _ List.mem_cons_self
      rw [if_neg hempty, if_neg (by omega)]
      by_cases hfull : maxAudioSpeechMs ≤ before + (sampleMs stop - sampleMs start)
      · -- The limit is reached in this interval, whether it is cut or ends there.
        have hend : (if maxAudioSpeechMs - before < sampleMs stop - sampleMs start then
            sampleMs start + (maxAudioSpeechMs - before) else sampleMs stop) =
              sampleMs start + (maxAudioSpeechMs - before) := by
          split_ifs <;> omega
        dsimp only
        rw [hend, if_pos (by omega)]
        refine ⟨[(sampleMs start, sampleMs start + (maxAudioSpeechMs - before))], maxAudioSpeechMs, ?_, ?_⟩
        · congr 1
          omega
        · have hnone : before + speechTotal [] = before := by simp [speechTotal]
          have hcut := @Keeps.cut before [] (spoken raw) (sampleMs start, sampleMs stop) (by rwa [hnone])
            (by rw [hnone]; exact hfull)
          rwa [hnone] at hcut
      · dsimp only
        rw [if_neg (by omega), if_neg (by omega)]
        obtain ⟨kept, total, hloop, hkeeps⟩ := @ih (intervals ++ [(sampleMs start, sampleMs stop)])
          (before + (sampleMs stop - sampleMs start)) (by omega) fun w hw => hproper w (List.mem_cons_of_mem _ hw)
        refine ⟨(sampleMs start, sampleMs stop) :: kept, total, ?_, ?_⟩
        · rw [hloop, List.append_assoc]
          rfl
        · exact hkeeps.cons

end

/-! ## Calls -/

/-- Speech at `t` was kept, in a window that has `t`. -/
def Analysed (raw : VoiceActivity) (reading : AudioReading) (t : Int) : Prop :=
  reading.windowStartMs ≤ t ∧ t < reading.windowEndMs ∧
    ∀ w ∈ spoken raw, w.1 ≤ t - reading.windowStartMs → t - reading.windowStartMs < w.2 →
      ∃ v ∈ reading.intervals, v.1 ≤ t - reading.windowStartMs ∧ t - reading.windowStartMs < v.2

/-- The window ends with the source, and its speech reaches the limit exactly there. -/
def StopsAtEnd (durationMs startMs : Int) (raw : VoiceActivity) : Prop :=
  durationMs ≤ startMs + maxAudioWindowMs ∧ speechTotal (spoken raw) = maxAudioSpeechMs ∧
    ∃ w ∈ spoken raw, w.1 < w.2 ∧ w.2 = durationMs - startMs

theorem Heard.total_le {windowMs : Int} {pre post : List (Int × Int)} {w : Int × Int}
    (h : Heard windowMs (pre ++ w :: post)) : speechTotal pre ≤ w.1 := by
  have hbound : ∀ (xs : List (Int × Int)) (lo hi : Int), xs.Pairwise (fun a b => a.2 ≤ b.1) →
      (∀ v ∈ xs, lo ≤ v.1 ∧ v.2 ≤ hi) → lo ≤ hi → speechTotal xs ≤ hi - lo := by
    intro xs
    induction xs with
    | nil =>
      intro lo hi _ _ hle
      show (0 : Int) ≤ hi - lo
      omega
    | cons x xs ih =>
      intro lo hi hpair hin hle
      have hx := hin x List.mem_cons_self
      rw [List.pairwise_cons] at hpair
      rw [speechTotal_cons]
      have hrest := ih x.2 hi hpair.2 (fun v hv => ⟨hpair.1 v hv, (hin v (List.mem_cons_of_mem _ hv)).2⟩) hx.2
      omega
  obtain ⟨hpre, -, hbefore⟩ := List.pairwise_append.1 h.increasing
  have hw := h.proper w (by simp)
  have htotal := hbound pre 0 w.1 hpre
    (fun v hv => ⟨(h.proper v (List.mem_append_left _ hv)).1, hbefore v hv w List.mem_cons_self⟩) hw.1
  omega

/-- The limit is reached at the end of the window exactly where nothing is spoken after it,
the speech is no more than the limit and some of it ends with the window. -/
theorem Heard.cut_eq_window {windowMs cut : Int} {pre post : List (Int × Int)} {w : Int × Int}
    (h : Heard windowMs (pre ++ w :: post)) (hcut : cut = w.1 + (maxAudioSpeechMs - speechTotal pre))
    (hbelow : speechTotal pre < maxAudioSpeechMs) (hreached : maxAudioSpeechMs ≤ speechTotal pre + (w.2 - w.1)) :
    cut = windowMs ↔
      speechTotal (pre ++ w :: post) = maxAudioSpeechMs ∧ ∃ v ∈ pre ++ w :: post, v.1 < v.2 ∧ v.2 = windowMs := by
  have hw : w ∈ pre ++ w :: post := List.mem_append_right _ List.mem_cons_self
  have hwin := h.inside w hw
  have hsum : speechTotal (pre ++ w :: post) = speechTotal pre + (w.2 - w.1) + speechTotal post := by
    rw [speechTotal_append, speechTotal_cons]
    omega
  have hpostmem {v : Int × Int} (hv : v ∈ post) : v ∈ pre ++ w :: post :=
    List.mem_append_right _ (List.mem_cons_of_mem _ hv)
  have hpost : 0 ≤ speechTotal post := speechTotal_nonneg fun v hv => (h.proper v (hpostmem hv)).2
  obtain ⟨-, hafter, hbefore⟩ := List.pairwise_append.1 h.increasing
  rw [List.pairwise_cons] at hafter
  constructor
  · intro heq
    -- What follows begins where the window ends.
    have hsilent : speechTotal post = 0 := by
      have hzero : ∀ v ∈ post, v.2 - v.1 = 0 := by
        intro v hv
        have hstart := hafter.1 v hv
        have hin := h.inside v (hpostmem hv)
        have hle := (h.proper v (hpostmem hv)).2
        omega
      unfold speechTotal
      rw [List.map_congr_left hzero, List.map_const', List.sum_replicate]
      simp
    refine ⟨by omega, w, hw, by omega, by omega⟩
  · rintro ⟨htotal, v, hv, hlt, hend⟩
    rcases List.mem_append.1 hv with hvpre | hv
    · have hle := hbefore v hvpre w List.mem_cons_self
      omega
    rcases List.mem_cons.1 hv with rfl | hvpost
    · omega
    · have hone : v.2 - v.1 ≤ speechTotal post := by
        obtain ⟨front, back, rfl⟩ := List.append_of_mem hvpost
        have hfront : 0 ≤ speechTotal front := speechTotal_nonneg fun u hu =>
          (h.proper u (hpostmem (List.mem_append_left _ hu))).2
        have hback : 0 ≤ speechTotal back := speechTotal_nonneg fun u hu =>
          (h.proper u (hpostmem (List.mem_append_right _ (List.mem_cons_of_mem _ hu)))).2
        rw [speechTotal_append, speechTotal_cons]
        omega
      omega

section
variable {durationMs : Int} {worker : AudioDocumentWorker} {raw : VoiceActivity} {reading : AudioReading}

theorem decodeWindow_eq_ok {startMs endMs : Int} (hlt : startMs < endMs) (hle : endMs ≤ startMs + maxAudioWindowMs) :
    decodeWindow startMs endMs = .ok () := by
  unfold decodeWindow
  refine if_neg ?_
  unfold maxAudioWindowMs at hle
  unfold audioSampleRate audioChannels audioSampleWidthBytes maxAudioDecodedPcmBytes
  omega

/-- The start of a continuation is accepted exactly inside the source. -/
theorem call_ok_iff (hmode : worker.mode ≠ txt "PROBE") (hanalysis : worker.analysis ∈ audioAnalysisModes) :
    (∃ reading, worker.call durationMs raw = .ok reading) ↔ 0 ≤ worker.startMs ∧ worker.startMs < durationMs := by
  unfold AudioDocumentWorker.call
  rw [if_neg hmode, if_neg (not_not_intro hanalysis)]
  split_ifs with hout
  · constructor
    · rintro ⟨reading, hreading⟩
      cases hreading
    · omega
  · have hwindow : maxAudioWindowMs = 900000 := rfl
    dsimp only
    rw [decodeWindow_eq_ok (by omega) (by omega)]
    exact iff_of_true ⟨_, rfl⟩ (by omega)

/-- The continuation where everything is kept: the end of the window, inside the source. -/
theorem audioNextStart_all {startMs endMs speechMs : Int} {intervals : List (Int × Int)}
    (h : speechMs < maxAudioSpeechMs) :
    audioNextStart durationMs startMs endMs intervals speechMs = if endMs < durationMs then some endMs else none := by
  unfold audioNextStart
  cases intervals.getLast? with
  | none => rfl
  | some last => exact if_neg (by omega)

/-- The continuation where the limit is reached: the end of the last interval. -/
theorem audioNextStart_cut {startMs endMs : Int} {intervals : List (Int × Int)} {last : Int × Int}
    (h : startMs + last.2 ≤ endMs) :
    audioNextStart durationMs startMs endMs (intervals ++ [last]) maxAudioSpeechMs = some (startMs + last.2) := by
  unfold audioNextStart
  rw [List.getLast?_concat]
  dsimp only
  rw [if_pos (Int.le_refl _), min_eq_right h]

/-- What a call reads and where it continues. -/
theorem call_spec (hmode : worker.mode ≠ txt "PROBE") (h : worker.call durationMs raw = .ok reading)
    (hraw : Hears (min durationMs (worker.startMs + maxAudioWindowMs) - worker.startMs) raw) :
    reading.windowStartMs = worker.startMs ∧
      (∀ n, reading.nextStartMs = some n → worker.startMs < n ∧ n ≤ durationMs) ∧
      (reading.nextStartMs = some durationMs ↔ StopsAtEnd durationMs worker.startMs raw) ∧
      ∀ t, worker.startMs ≤ t → t < durationMs →
        Analysed raw reading t ∨ ∃ n, reading.nextStartMs = some n ∧ n ≤ t := by
  unfold AudioDocumentWorker.call at h
  rw [if_neg hmode] at h
  split_ifs at h with hanalysis hout
  dsimp only at h
  obtain ⟨⟨⟩, -, h⟩ := bind_eq_ok.1 h
  cases h
  have heard := hraw.heard
  have hlimit : maxAudioSpeechMs = 720000 := rfl
  have hwindow : maxAudioWindowMs = 900000 := rfl
  obtain ⟨kept, total, hloop, hkeeps⟩ := @speechLoop_keeps [] raw 0 (by omega) fun w hw => (heard.proper w hw).2
  rw [List.nil_append] at hloop
  unfold speechIntervals StopsAtEnd Analysed
  rw [hloop]
  dsimp only
  refine ⟨rfl, ?_⟩
  generalize worker.startMs = start at *
  generalize spoken raw = ws at *
  cases hkeeps with
  | all hlt =>
    rw [Int.zero_add] at hlt ⊢
    rw [audioNextStart_all hlt]
    refine ⟨fun n hn => ?_, ?_, fun t hstart hend => ?_⟩
    · split_ifs at hn
      cases hn
      omega
    · refine iff_of_false ?_ (by omega)
      split_ifs
      · intro heq
        have hend := Option.some_inj.1 heq
        omega
      · rintro ⟨⟩
    · by_cases hin : t < min durationMs (start + maxAudioWindowMs)
      · exact .inl ⟨hstart, hin, fun w hw hlo hhi => ⟨w, hw, hlo, hhi⟩⟩
      · exact .inr ⟨_, if_pos (by omega), by omega⟩
  | @cut pre post w hlt hle =>
    rw [Int.zero_add] at hlt hle ⊢
    have hw : w ∈ pre ++ w :: post := List.mem_append_right _ List.mem_cons_self
    have hwin := heard.inside w hw
    have hpre := heard.total_le
    have hcut := @Heard.cut_eq_window _ _ _ _ _ heard rfl hlt hle
    rw [audioNextStart_cut (show start + (w.1 + (maxAudioSpeechMs - speechTotal pre)) ≤ _ by omega)]
    refine ⟨fun n hn => ?_, ?_, fun t hstart hend => ?_⟩
    · cases hn
      omega
    · rw [Option.some_inj]
      constructor
      · intro heq
        have hlast : min durationMs (start + maxAudioWindowMs) = durationMs := by omega
        rw [hlast] at hcut
        obtain ⟨htotal, hends⟩ := hcut.1 (by dsimp only at heq; omega)
        exact ⟨by omega, htotal, hends⟩
      · rintro ⟨hlast, htotal, hends⟩
        rw [min_eq_left hlast] at hcut
        have heq := hcut.2 ⟨htotal, hends⟩
        dsimp only
        omega
    · by_cases hin : t < start + (w.1 + (maxAudioSpeechMs - speechTotal pre))
      · refine .inl ⟨hstart, by omega, fun v hv hlo hhi => ?_⟩
        obtain ⟨-, hafter, -⟩ := List.pairwise_append.1 heard.increasing
        rcases List.mem_append.1 hv with hv | hv
        · exact ⟨v, List.mem_append_left _ hv, hlo, hhi⟩
        · refine ⟨_, List.mem_append_right _ (List.mem_singleton_self _), ?_, by dsimp only; omega⟩
          rcases List.mem_cons.1 hv with rfl | hv
          · exact hlo
          · have hlate := List.rel_of_pairwise_cons hafter hv
            have hproper := (heard.proper w hw).2
            dsimp only
            omega
      · exact .inr ⟨_, rfl, by dsimp only; omega⟩

end

/-! ## Chains of calls -/

section
variable {mode analysis : Text} {durationMs : Int} {readings : List (VoiceActivity × AudioReading)} {next : Option Int}

variable (mode analysis durationMs) in
/-- The calls that begin at 0 and follow the continuations, each with what it heard, and
the start that is published last. -/
inductive AudioChain : List (VoiceActivity × AudioReading) → Option Int → Prop
  | begin : AudioChain [] (some 0)
  | call {readings : List (VoiceActivity × AudioReading)} {startMs : Int} {raw : VoiceActivity} {reading : AudioReading} :
    AudioChain readings (some startMs) →
    AudioDocumentWorker.call ⟨mode, startMs, analysis⟩ durationMs raw = .ok reading →
    Hears (min durationMs (startMs + maxAudioWindowMs) - startMs) raw →
    AudioChain (readings ++ [(raw, reading)]) reading.nextStartMs

variable (mode analysis durationMs readings next) in
/-- Each published start is accepted, starts increase, and what lies before the next start was analysed. -/
structure AudioChainLaw : Prop where
  accepted : ∀ startMs, next = some startMs →
    ∀ raw, ∃ reading, AudioDocumentWorker.call ⟨mode, startMs, analysis⟩ durationMs raw = .ok reading
  increasing : readings.Pairwise fun a b => a.2.windowStartMs < b.2.windowStartMs
  below : ∀ startMs, next = some startMs → ∀ r ∈ readings, r.2.windowStartMs < startMs
  ends : (readings.length : Int) ≤ durationMs
  covered : ∀ t, 0 ≤ t → t < durationMs →
    (∃ r ∈ readings, Analysed r.1 r.2 t) ∨ ∃ startMs, next = some startMs ∧ startMs ≤ t

variable (durationMs readings next) in
/-- What every chain keeps. -/
structure Advances : Prop where
  increasing : readings.Pairwise fun a b => a.2.windowStartMs < b.2.windowStartMs
  below : ∀ startMs, next = some startMs → ∀ r ∈ readings, r.2.windowStartMs < startMs
  within : ∀ startMs, next = some startMs → readings.length ≤ startMs ∧ startMs ≤ durationMs
  ends : (readings.length : Int) ≤ durationMs
  covered : ∀ t, 0 ≤ t → t < durationMs →
    (∃ r ∈ readings, Analysed r.1 r.2 t) ∨ ∃ startMs, next = some startMs ∧ startMs ≤ t
  last : next = some durationMs ↔ ∃ r ∈ readings, StopsAtEnd durationMs r.2.windowStartMs r.1

theorem AudioChain.advances (hduration : 0 < durationMs) (hmode : mode ≠ txt "PROBE")
    (hanalysis : analysis ∈ audioAnalysisModes) (h : AudioChain mode analysis durationMs readings next) :
    Advances durationMs readings next := by
  induction h with
  | begin =>
    refine ⟨List.Pairwise.nil, fun _ _ r hr => ?_, fun startMs hstart => ?_, ?_, fun t ht _ => ?_, ?_⟩
    · cases hr
    · cases hstart
      exact ⟨Int.le_refl _, Int.le_of_lt hduration⟩
    · show (0 : Int) ≤ durationMs
      omega
    · exact .inr ⟨0, rfl, ht⟩
    · refine iff_of_false (fun heq => ?_) (fun ⟨r, hr, _⟩ => by cases hr)
      have hzero := Option.some_inj.1 heq
      omega
  | @call readings startMs raw reading _ hcall hraw ih =>
    obtain ⟨hlo, hhi⟩ := (@call_ok_iff durationMs ⟨mode, startMs, analysis⟩ raw hmode hanalysis).1 ⟨reading, hcall⟩
    obtain ⟨hstart, hnext, hstops, hcovers⟩ := call_spec hmode hcall hraw
    dsimp only at hlo hhi hstart hnext hstops hcovers
    obtain ⟨hlen, -⟩ := ih.within startMs rfl
    have hbelow := ih.below startMs rfl
    have hlength : ((readings ++ [(raw, reading)]).length : Int) = readings.length + 1 := by simp
    refine ⟨?_, fun n hn r hr => ?_, fun n hn => ?_, by omega, fun t ht htd => ?_, ?_⟩
    · refine List.pairwise_append.2 ⟨ih.increasing, List.pairwise_singleton _ _, fun a ha b hb => ?_⟩
      rw [List.mem_singleton.1 hb, hstart]
      exact hbelow a ha
    · have hlt := (hnext n hn).1
      rcases List.mem_append.1 hr with hr | hr
      · have hr := hbelow r hr
        omega
      · rw [List.mem_singleton.1 hr]
        dsimp only
        omega
    · have hn := hnext n hn
      omega
    · by_cases hbefore : t < startMs
      · rcases ih.covered t ht htd with ⟨r, hr, hanalysed⟩ | ⟨s, hs, hle⟩
        · exact .inl ⟨r, List.mem_append_left _ hr, hanalysed⟩
        · have hs := Option.some_inj.1 hs
          omega
      · rcases hcovers t (by omega) htd with hanalysed | hlater
        · exact .inl ⟨(raw, reading), List.mem_append_right _ (List.mem_singleton_self _), hanalysed⟩
        · exact .inr hlater
    · rw [hstops]
      constructor
      · intro hstop
        refine ⟨(raw, reading), List.mem_append_right _ (List.mem_singleton_self _), ?_⟩
        rwa [hstart]
      · rintro ⟨r, hr, hstop⟩
        rcases List.mem_append.1 hr with hr | hr
        · -- An earlier window that stopped at the end leaves no call to make.
          have heq := Option.some_inj.1 (ih.last.2 ⟨r, hr, hstop⟩)
          omega
        · rw [List.mem_singleton.1 hr, hstart] at hstop
          exact hstop

/-- A chain keeps its law exactly where no window reaches the limit of speech at the end of the source. -/
theorem audioChain_lawful_iff (hduration : 0 < durationMs) (hmode : mode ≠ txt "PROBE")
    (hanalysis : analysis ∈ audioAnalysisModes) (h : AudioChain mode analysis durationMs readings next) :
    AudioChainLaw mode analysis durationMs readings next ↔
      ∀ r ∈ readings, ¬ StopsAtEnd durationMs r.2.windowStartMs r.1 := by
  have hadv := h.advances hduration hmode hanalysis
  have haccepts : ∀ (startMs : Int) (raw : VoiceActivity),
      (∃ reading, AudioDocumentWorker.call ⟨mode, startMs, analysis⟩ durationMs raw = .ok reading) ↔
        0 ≤ startMs ∧ startMs < durationMs :=
    fun startMs raw => @call_ok_iff durationMs ⟨mode, startMs, analysis⟩ raw hmode hanalysis
  constructor
  · intro hlaw r hr hstop
    have hlast := hadv.last.2 ⟨r, hr, hstop⟩
    have hinside := (haccepts durationMs []).1 (hlaw.accepted durationMs hlast [])
    omega
  · intro hnone
    refine ⟨fun startMs hstart raw => (haccepts startMs raw).2 ?_, hadv.increasing, hadv.below, hadv.ends, hadv.covered⟩
    have hwithin := hadv.within startMs hstart
    have hne : startMs ≠ durationMs := by
      rintro rfl
      obtain ⟨r, hr, hstop⟩ := hadv.last.1 hstart
      exact hnone r hr hstop
    omega

end

/-- Twelve minutes of speech from the start of a window. -/
def twelveMinutes : VoiceActivity := [some (0, 11520000)]

theorem hears_twelveMinutes {windowMs : Int} (h : 720000 ≤ windowMs) : Hears windowMs twelveMinutes := by
  refine ⟨List.pairwise_singleton _ _, fun s hs => ?_⟩
  have hs : s = (0, 11520000) := List.mem_singleton.1 hs
  subst hs
  unfold audioSampleRate
  refine ⟨by decide, ?_⟩
  dsimp only
  omega

/-- The reading of the first window, in a source of `durationMs` that is no longer than a window. -/
def twelveMinutesReading (durationMs : Int) : AudioReading :=
  { windowStartMs := 0, windowEndMs := durationMs, intervals := [(0, 720000)], vadSpeechMs := 720000,
    speechBoundReached := true, nextStartMs := some 720000 }

/-- In a source of fourteen minutes the chain continues where the speech was cut. -/
theorem audioChain_fourteenMinutes :
    AudioChainLaw (txt "TRANSCRIBE") (txt "TRANSCRIPT") 840000 [(twelveMinutes, twelveMinutesReading 840000)] (some 720000) := by
  have hchain : AudioChain (txt "TRANSCRIBE") (txt "TRANSCRIPT") 840000 [(twelveMinutes, twelveMinutesReading 840000)]
      (some 720000) :=
    @AudioChain.call _ _ _ [] 0 twelveMinutes (twelveMinutesReading 840000) .begin (by decide)
      (hears_twelveMinutes (by decide))
  refine (audioChain_lawful_iff (by decide) (by decide) (by decide) hchain).2 fun r hr hstop => ?_
  rw [List.mem_singleton.1 hr] at hstop
  obtain ⟨-, -, w, hw, -, hend⟩ := hstop
  have hw : w = (0, 720000) := List.mem_singleton.1 hw
  subst hw
  exact absurd hend (by decide)

/-- In a source of twelve minutes the published start is the end of the source, and the next
call refuses it. -/
theorem audioChain_twelveMinutes :
    AudioChain (txt "TRANSCRIBE") (txt "TRANSCRIPT") 720000 [(twelveMinutes, twelveMinutesReading 720000)] (some 720000) ∧
      AudioDocumentWorker.call ⟨txt "TRANSCRIBE", 720000, txt "TRANSCRIPT"⟩ 720000 [] =
        .error ⟨txt "audio continuation start is outside the source"⟩ ∧
      ¬ AudioChainLaw (txt "TRANSCRIBE") (txt "TRANSCRIPT") 720000 [(twelveMinutes, twelveMinutesReading 720000)]
        (some 720000) := by
  have hrefused : AudioDocumentWorker.call ⟨txt "TRANSCRIBE", 720000, txt "TRANSCRIPT"⟩ 720000 [] =
      .error ⟨txt "audio continuation start is outside the source"⟩ := by decide
  refine ⟨@AudioChain.call _ _ _ [] 0 twelveMinutes (twelveMinutesReading 720000) .begin (by decide)
    (hears_twelveMinutes (by decide)), hrefused, fun hlaw => ?_⟩
  obtain ⟨reading, hok⟩ := hlaw.accepted 720000 rfl []
  rw [hrefused] at hok
  cases hok

end Steward.Media
