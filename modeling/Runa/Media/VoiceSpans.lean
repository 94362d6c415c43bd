import Mathlib.Algebra.Order.Floor.Div
import Runa.Packing.Spans

/-!
# Which spans of a recording hold speech

`energy_vad` of `runa-media/src/asr.rs`.  Whether a frame is loud is left open.
The runs of loud frames are padded and merged; `Scanned` is what the loop over
the frames keeps.
-/

namespace Runa.Media.VoiceSpans

open Runa.Packing.Spans

/-! ## The function -/

/-- Samples per 30 ms frame. -/
def frameSize (sampleRate : Nat) : Nat :=
  max (max sampleRate 1 * 30 / 1000) 1

/-- Samples per 150 ms. -/
def padSize (sampleRate : Nat) : Nat :=
  max sampleRate 1 * 150 / 1000

/-- Samples per 300 ms. -/
def mergeSize (sampleRate : Nat) : Nat :=
  max sampleRate 1 * 300 / 1000

def frameCount (length sampleRate : Nat) : Nat :=
  length ⌈/⌉ frameSize sampleRate

variable (speech : Nat → Bool)

/-- The first quiet frame from a frame on. -/
def runEnd (frames i : Nat) : Nat :=
  if i < frames ∧ speech i = true then runEnd frames (i + 1) else i
termination_by frames - i

theorem le_runEnd (frames i : Nat) : i ≤ runEnd speech frames i := by
  fun_induction runEnd speech frames i with
  | case1 i _ induction => exact Nat.le_trans (Nat.le_succ i) induction
  | case2 i _ => exact Nat.le_refl i

/-- A run of loud frames, padded. -/
def runSpan (length sampleRate first last : Nat) : Span where
  start := first * frameSize sampleRate - padSize sampleRate
  stop :=
    min (min (last * frameSize sampleRate) length + padSize sampleRate) length

@[simp]
theorem runSpan_start (length sampleRate first last : Nat) :
    (runSpan length sampleRate first last).start =
      first * frameSize sampleRate - padSize sampleRate :=
  rfl

@[simp]
theorem runSpan_stop (length sampleRate first last : Nat) :
    (runSpan length sampleRate first last).stop =
      min (min (last * frameSize sampleRate) length + padSize sampleRate)
        length :=
  rfl

/-- The loop over the frames; the newest span is first. -/
def collect (length sampleRate i : Nat) (spans : List Span) : List Span :=
  let frames := frameCount length sampleRate
  if i < frames then
    if speech i = true then
      let last := runEnd speech frames (i + 1)
      collect length sampleRate last
        (push (mergeSize sampleRate) spans
          (runSpan length sampleRate i last))
    else
      collect length sampleRate (i + 1) spans
  else
    spans
termination_by frameCount length sampleRate - i
decreasing_by
  · have more := le_runEnd speech (frameCount length sampleRate) (i + 1)
    omega
  · omega

/-- Energy VAD: 30 ms frames, merge gaps shorter than 300 ms, pad 150 ms. -/
def energyVad {Sample : Type} (samples : List Sample) (sampleRate : Nat) :
    List Span :=
  if samples.isEmpty then []
  else
    let spans := (collect speech samples.length sampleRate 0 []).reverse
    if spans.isEmpty then [{ start := 0, stop := samples.length }]
    else spans

/-! ## Frames -/

theorem runEnd_le {frames i : Nat} (within : i ≤ frames) :
    runEnd speech frames i ≤ frames := by
  fun_induction runEnd speech frames i with
  | case1 i loud induction => exact induction loud.1
  | case2 i _ => exact within

/-- Every frame of a run is loud. -/
theorem loud_of_lt_runEnd {frames i frame : Nat} (start : i ≤ frame)
    (before : frame < runEnd speech frames i) : speech frame = true := by
  fun_induction runEnd speech frames i with
  | case1 i loud induction =>
      rcases Nat.eq_or_lt_of_le start with rfl | later
      · exact loud.2
      · exact induction later before
  | case2 i _ => omega

theorem frameSize_pos (sampleRate : Nat) : 0 < frameSize sampleRate :=
  Nat.lt_of_lt_of_le Nat.one_pos (Nat.le_max_right _ _)

/-- The frames are those that begin inside the recording. -/
theorem lt_frameCount {length sampleRate frame : Nat} :
    frame < frameCount length sampleRate ↔
      frame * frameSize sampleRate < length := by
  rw [frameCount, ← not_le, ceilDiv_le_iff_le_mul (frameSize_pos _), not_le,
    Nat.mul_comm]

/-! ## The loop -/

variable (length sampleRate : Nat)

/-- Where a frame ends. -/
def frameStop (frame : Nat) : Nat :=
  min ((frame + 1) * frameSize sampleRate) length

/-- A start with a loud frame at most a pad behind it. -/
def Starts (start : Nat) : Prop :=
  ∃ frame, frame < frameCount length sampleRate ∧ speech frame = true ∧
    start = frame * frameSize sampleRate - padSize sampleRate

/-- A stop with a loud frame at most a pad in front of it. -/
def Stops (stop : Nat) : Prop :=
  ∃ frame, frame < frameCount length sampleRate ∧ speech frame = true ∧
    stop = min (frameStop length sampleRate frame + padSize sampleRate) length

/-- What the spans of the first frames are. -/
structure Scanned (i : Nat) (spans : List Span) : Prop where
  apart : Apart (mergeSize sampleRate) spans
  nonempty : ∀ span ∈ spans, span.start < span.stop
  ends :
    ∀ span ∈ spans,
      Starts speech length sampleRate span.start ∧
        Stops speech length sampleRate span.stop
  covers :
    ∀ frame < i, frame < frameCount length sampleRate →
      speech frame = true →
        ∃ span ∈ spans,
          span.Covers (frame * frameSize sampleRate)
            (frameStop length sampleRate frame)
  newest :
    ∀ last ∈ spans.head?,
      last.start ≤ i * frameSize sampleRate - padSize sampleRate ∧
        last.stop ≤
          min (min (i * frameSize sampleRate) length + padSize sampleRate)
            length

variable {speech length sampleRate} {i : Nat} {spans : List Span}

theorem scanned_nil : Scanned speech length sampleRate 0 [] where
  apart := List.Pairwise.nil
  nonempty := nofun
  ends := nofun
  covers := nofun
  newest := nofun

/-- A quiet frame changes nothing. -/
theorem Scanned.quiet (scanned : Scanned speech length sampleRate i spans)
    (quiet : speech i = false) :
    Scanned speech length sampleRate (i + 1) spans where
  apart := scanned.apart
  nonempty := scanned.nonempty
  ends := scanned.ends
  covers frame before inside loud := by
    rcases Nat.lt_succ_iff_lt_or_eq.mp before with before | rfl
    · exact scanned.covers frame before inside loud
    · rw [quiet] at loud
      cases loud
  newest last first := by
    have wider :
        i * frameSize sampleRate ≤ (i + 1) * frameSize sampleRate :=
      Nat.mul_le_mul_right _ (Nat.le_succ i)
    have before := scanned.newest last first
    omega

/-- A run of loud frames becomes a span, or the end of one. -/
theorem Scanned.run {last : Nat}
    (scanned : Scanned speech length sampleRate i spans)
    (inside : i < frameCount length sampleRate)
    (more : i < last) (within : last ≤ frameCount length sampleRate)
    (loud : ∀ frame, i ≤ frame → frame < last → speech frame = true) :
    Scanned speech length sampleRate last
      (push (mergeSize sampleRate) spans
        (runSpan length sampleRate i last)) := by
  have begins := lt_frameCount.mp inside
  have size := frameSize_pos sampleRate
  have grows :
      i * frameSize sampleRate + frameSize sampleRate ≤
        last * frameSize sampleRate := by
    rw [← Nat.succ_mul]
    exact Nat.mul_le_mul_right _ more
  have behind : Behind spans (runSpan length sampleRate i last) := by
    intro other first
    have before := scanned.newest other first
    rw [runSpan_start, runSpan_stop]
    omega
  constructor
  · exact push_apart behind scanned.apart
  · refine push_nonempty behind scanned.nonempty ?_
    rw [runSpan_start, runSpan_stop]
    omega
  · refine push_ends scanned.ends ⟨?_, ?_⟩
    · exact ⟨i, inside, loud i le_rfl more, rfl⟩
    · refine ⟨last - 1, by omega, loud _ (by omega) (by omega), ?_⟩
      rw [frameStop, Nat.sub_add_cancel (by omega)]
      rfl
  · intro frame before inside loud
    apply push_covers behind
    rcases Nat.lt_or_ge frame i with early | late
    · exact Or.inl (scanned.covers frame early inside loud)
    · have first : i * frameSize sampleRate ≤ frame * frameSize sampleRate :=
        Nat.mul_le_mul_right _ late
      have final :
          (frame + 1) * frameSize sampleRate ≤
            last * frameSize sampleRate :=
        Nat.mul_le_mul_right _ before
      refine Or.inr ⟨?_, ?_⟩
      · rw [runSpan_start]
        omega
      · rw [runSpan_stop, frameStop]
        omega
  · intro newest first
    rcases head_push behind with ⟨head, same, starts, stops⟩
    rw [same] at first
    cases first
    rw [runSpan_start] at starts
    rw [stops, runSpan_stop]
    exact ⟨by omega, le_rfl⟩

/-- The loop keeps what it began with. -/
theorem scanned_collect (scanned : Scanned speech length sampleRate i spans)
    (within : i ≤ frameCount length sampleRate) :
    Scanned speech length sampleRate (frameCount length sampleRate)
      (collect speech length sampleRate i spans) := by
  fun_induction collect speech length sampleRate i spans with
  | case1 i spans frames inside loud last induction =>
      have more := le_runEnd speech frames (i + 1)
      have stops := runEnd_le speech (Nat.succ_le_of_lt inside)
      refine induction (scanned.run inside more stops ?_) stops
      intro frame start before
      rcases Nat.eq_or_lt_of_le start with rfl | later
      · exact loud
      · exact loud_of_lt_runEnd speech later before
  | case2 i spans frames inside quiet induction =>
      exact
        induction (scanned.quiet (Bool.eq_false_iff.mpr quiet))
          (Nat.succ_le_of_lt inside)
  | case3 i spans frames outside =>
      have last : i = frameCount length sampleRate :=
        Nat.le_antisymm within (Nat.le_of_not_lt outside)
      rw [← last]
      exact scanned

/-! ## The spans -/

theorem Starts.near {start : Nat}
    (starts : Starts speech length sampleRate start) :
    ∃ frame, frame < frameCount length sampleRate ∧ speech frame = true ∧
      start ≤ frame * frameSize sampleRate ∧
      frame * frameSize sampleRate ≤ start + padSize sampleRate := by
  rcases starts with ⟨frame, inside, loud, rfl⟩
  exact ⟨frame, inside, loud, by omega, by omega⟩

theorem Stops.near {stop : Nat}
    (stops : Stops speech length sampleRate stop) :
    ∃ frame, frame < frameCount length sampleRate ∧ speech frame = true ∧
      frameStop length sampleRate frame ≤ stop ∧
      stop ≤ frameStop length sampleRate frame + padSize sampleRate := by
  rcases stops with ⟨frame, inside, loud, rfl⟩
  have within : frameStop length sampleRate frame ≤ length :=
    Nat.min_le_right _ _
  exact ⟨frame, inside, loud, by omega, by omega⟩

theorem Stops.within {stop : Nat}
    (stops : Stops speech length sampleRate stop) : stop ≤ length := by
  rcases stops with ⟨_, _, _, rfl⟩
  exact Nat.min_le_right _ _

/-- Without a span there was no loud frame. -/
theorem Scanned.silent {frames : Nat}
    (scanned : Scanned speech length sampleRate frames []) :
    ∀ frame < frames, frame < frameCount length sampleRate →
      speech frame = false := by
  intro frame before inside
  rw [← Bool.not_eq_true]
  intro loud
  rcases scanned.covers frame before inside loud with ⟨_, member, _⟩
  exact absurd member List.not_mem_nil

/--
The spans of a recording: increasing, apart from each other, and around all
that is loud; the whole recording where nothing is.
-/
theorem energyVad_spans {Sample : Type} (samples : List Sample)
    (nonempty : samples ≠ []) (sampleRate : Nat) (speech : Nat → Bool) :
    energyVad speech samples sampleRate ≠ [] ∧
      (∀ span ∈ energyVad speech samples sampleRate,
        span.start < span.stop ∧ span.stop ≤ samples.length) ∧
      (energyVad speech samples sampleRate).Pairwise
        (fun earlier later =>
          earlier.stop + mergeSize sampleRate < later.start) ∧
      (∀ frame < frameCount samples.length sampleRate,
        speech frame = true →
          ∀ place, frame * frameSize sampleRate ≤ place →
            place < frameStop samples.length sampleRate frame →
              ∃! span, span ∈ energyVad speech samples sampleRate ∧
                span.start ≤ place ∧ place < span.stop) ∧
      ((∃ frame < frameCount samples.length sampleRate,
          speech frame = true) →
        ∀ span ∈ energyVad speech samples sampleRate,
          (∃ frame < frameCount samples.length sampleRate,
            speech frame = true ∧
              span.start ≤ frame * frameSize sampleRate ∧
              frame * frameSize sampleRate ≤
                span.start + padSize sampleRate) ∧
          ∃ frame < frameCount samples.length sampleRate,
            speech frame = true ∧
              frameStop samples.length sampleRate frame ≤ span.stop ∧
              span.stop ≤
                frameStop samples.length sampleRate frame +
                  padSize sampleRate) ∧
      ((∀ frame < frameCount samples.length sampleRate,
          speech frame = false) →
        energyVad speech samples sampleRate =
          [{ start := 0, stop := samples.length }]) := by
  have positive := List.length_pos_of_ne_nil nonempty
  have scanned : Scanned speech samples.length sampleRate
      (frameCount samples.length sampleRate)
      (collect speech samples.length sampleRate 0 []) :=
    scanned_collect scanned_nil (Nat.zero_le _)
  have whole : energyVad speech samples sampleRate =
      if (collect speech samples.length sampleRate 0 []).reverse.isEmpty then
        [{ start := 0, stop := samples.length }]
      else (collect speech samples.length sampleRate 0 []).reverse :=
    if_neg (by rwa [List.isEmpty_iff])
  rw [whole]
  generalize collect speech samples.length sampleRate 0 [] = spans
    at scanned
  cases spans with
  | nil =>
      -- Nothing was loud, and the whole recording is kept.
      have silent := scanned.silent
      rw [List.reverse_nil, List.isEmpty_nil, if_pos rfl]
      refine
        ⟨List.cons_ne_nil _ _,
          List.forall_mem_singleton.mpr ⟨positive, le_rfl⟩,
          List.pairwise_singleton _ _, ?_, ?_, fun _ => rfl⟩
      · intro frame inside loud
        rw [silent frame inside inside] at loud
        cases loud
      · rintro ⟨frame, inside, loud⟩
        rw [silent frame inside inside] at loud
        cases loud
  | cons newest earlier =>
      have some : (newest :: earlier).reverse ≠ [] := by
        rw [Ne, List.reverse_eq_nil_iff]
        exact List.cons_ne_nil _ _
      rw [if_neg (by rwa [List.isEmpty_iff])]
      refine ⟨some, ?_, ?_, ?_, ?_, ?_⟩
      · intro span member
        rw [List.mem_reverse] at member
        exact
          ⟨scanned.nonempty span member, (scanned.ends span member).2.within⟩
      · exact List.pairwise_reverse.mpr scanned.apart
      · intro frame inside loud place first last
        rcases scanned.covers frame inside inside loud with
          ⟨span, member, starts, stops⟩
        refine
          ⟨span, ⟨List.mem_reverse.mpr member, starts.trans first,
            last.trans_le stops⟩, ?_⟩
        rintro other ⟨there, around⟩
        exact
          scanned.apart.unique (List.mem_reverse.mp there) member around
            ⟨starts.trans first, last.trans_le stops⟩
      · intro _ span member
        rw [List.mem_reverse] at member
        exact
          ⟨(scanned.ends span member).1.near,
            (scanned.ends span member).2.near⟩
      · intro quiet
        rcases (scanned.ends newest List.mem_cons_self).1 with
          ⟨frame, inside, loud, -⟩
        rw [quiet frame inside] at loud
        cases loud

/-- Three quiet samples are kept. -/
theorem energyVad_quiet :
    energyVad (fun _ => false) [0, 0, 0] 16000 =
      [{ start := 0, stop := 3 }] :=
  (energyVad_spans [0, 0, 0] (List.cons_ne_nil _ _) 16000
    fun _ => false).2.2.2.2.2 fun _ _ => rfl

end Runa.Media.VoiceSpans
