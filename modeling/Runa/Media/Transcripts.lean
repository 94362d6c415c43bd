import Runa.Fallible.Steps
import Runa.Media.VoiceSpans
import Runa.Stream.Words

/-!
# Transcripts of a recording

The embedding of `AsrEngine::transcribe` of `runa-media/src/asr.rs`.  The
speech model is a parameter, with its times in hundredths of a second as
numbers that are not negative.  A recording of at least a twentieth of a second
has no span that is too short to be heard (`span_long`), so that all that is
loud is transcribed, in order (`transcribe_whole`).
-/

namespace Runa.Media.Transcripts

open Runa.Fallible.Steps
open Runa.Media.VoiceSpans
open Runa.Packing.Spans
open Runa.Stream.Lines (isWhitespace trim)
open Runa.Stream.Utf8
open Runa.Stream.Words

/-! ## The function -/

def targetSampleRate : Nat := 16000

inductive WhisperKind where
  | base
  | largeV3Turbo

def WhisperKind.fileName : WhisperKind → Text
  | .base => "ggml-base.bin".toList
  | .largeV3Turbo => "ggml-large-v3-turbo.bin".toList

structure AsrOptions where
  language : Option Text
  nThreads : UInt32
  vad : Bool

structure AsrSegment where
  startMs : Nat
  endMs : Nat
  text : Text
deriving DecidableEq

structure Transcript where
  text : Text
  language : Option Text
  segments : List AsrSegment
  model : Text
deriving DecidableEq

inductive AsrError where
  | whisper (error : Text)
deriving DecidableEq

/-- What is set of the parameters of a call. -/
structure FullParams where
  nThreads : Int32
  language : Text
  vadModel : Option Text

structure WhisperSegment where
  startTimestamp : Nat
  endTimestamp : Nat
  text : Except Text Text

/-- What a call leaves: the language, and the segments that there are. -/
structure Heard where
  language : Option Text
  segments : List (Option WhisperSegment)

structure Whisper (State Sample : Type) where
  createState : Except Text State
  full : State → FullParams → List Sample → Except Text (Heard × State)

structure AsrEngine (State Sample : Type) where
  whisper : Whisper State Sample
  kind : WhisperKind
  vadPath : Option Text

section

variable {State Sample : Type} (engine : AsrEngine State Sample)
  (options : AsrOptions) (speech : Nat → Bool) (samples : List Sample)

def fullParams : FullParams where
  nThreads := options.nThreads.toInt32
  language := options.language.getD "auto".toList
  vadModel := if options.vad then engine.vadPath else none

def chunks : List Span :=
  if options.vad then energyVad speech samples targetSampleRate
  else [{ start := 0, stop := samples.length }]

/-- The samples of a span. -/
def pcmOf (span : Span) : List Sample :=
  (samples.take span.stop).drop span.start

/-- Where a span begins, in hundredths of a second. -/
def offsetCs (span : Span) : Nat :=
  span.start * 100 / targetSampleRate

/-- One turn of the loop over the segments of a call. -/
def addSegment (offset : Nat) (all : List AsrSegment) :
    Option WhisperSegment → Except AsrError (List AsrSegment)
  | none => .ok all
  | some segment => do
    let text ← segment.text.mapError AsrError.whisper
    let text := trim text
    if text.isEmpty then return all
    else
      return all ++ [⟨(offset + segment.startTimestamp) * 10,
        (offset + segment.endTimestamp) * 10, text⟩]

/-- One turn of the loop over the spans. -/
def hearSpan (state : State × Option Text × List AsrSegment) (span : Span) :
    Except AsrError (State × Option Text × List AsrSegment) :=
  if (pcmOf samples span).length < targetSampleRate / 20 then .ok state
  else do
    let (heard, next) ←
      (engine.whisper.full state.1 (fullParams engine options)
        (pcmOf samples span)).mapError AsrError.whisper
    let all ← heard.segments.foldlM (addSegment (offsetCs span)) state.2.2
    return (next, state.2.1.or heard.language, all)

def textOf (segments : List AsrSegment) : Text :=
  joined ' ' (splitWhitespace (joined ' ' (segments.map AsrSegment.text)))

def modelName : Text :=
  "whisper:".toList ++ engine.kind.fileName

def transcribe : Except AsrError Transcript :=
  if samples.isEmpty then
    .ok ⟨[], none, [], modelName engine⟩
  else do
    let state ← engine.whisper.createState.mapError AsrError.whisper
    let (_, language, all) ←
      (chunks options speech samples).foldlM (hearSpan engine options samples)
        (state, none, [])
    return ⟨textOf all, language, all, modelName engine⟩

end

/-! ## Spans are long enough -/

section

variable {speech : Nat → Bool} {length : Nat} {spans : List Span} {span : Span}

/-- The frame that a span begins with is in it. -/
theorem start_covered
    (scanned : Scanned speech length targetSampleRate
      (frameCount length targetSampleRate) spans) (member : span ∈ spans) :
    ∃ frame, frame * 480 < length ∧ span.start = frame * 480 - 2400 ∧
      frame * 480 < span.stop := by
  have size : frameSize targetSampleRate = 480 := rfl
  have pad : padSize targetSampleRate = 2400 := rfl
  have gap : mergeSize targetSampleRate = 4800 := rfl
  rcases (scanned.ends span member).1 with ⟨frame, inside, loud, start⟩
  rcases scanned.covers frame inside inside loud with
    ⟨other, there, begins, ends⟩
  have early := lt_frameCount.mp inside
  have positive := scanned.nonempty span member
  rw [size] at early begins
  rw [frameStop, size] at ends
  rw [size, pad] at start
  refine ⟨frame, early, start, ?_⟩
  -- another span would be further away than a pad
  rcases scanned.apart.either member there with same | before | behind
  · rw [same]
    omega
  · omega
  · omega

/-- No span of a recording of a twentieth of a second is too short. -/
theorem span_long
    (scanned : Scanned speech length targetSampleRate
      (frameCount length targetSampleRate) spans)
    (long : targetSampleRate / 20 ≤ length) (member : span ∈ spans) :
    targetSampleRate / 20 ≤ span.stop - span.start := by
  have least : targetSampleRate / 20 = 800 := rfl
  have pad : padSize targetSampleRate = 2400 := rfl
  rcases start_covered scanned member with ⟨frame, early, start, inside⟩
  rcases (scanned.ends span member).2 with ⟨last, _, _, stop⟩
  rw [pad] at stop
  rw [least] at long ⊢
  omega

/-- What the spans of a recording are that is long enough. -/
structure Cuts (speech : Nat → Bool) (length : Nat) (vad : Bool)
    (spans : List Span) : Prop where
  within : ∀ span ∈ spans, span.stop ≤ length
  long : ∀ span ∈ spans, targetSampleRate / 20 ≤ span.stop - span.start
  apart : spans.Pairwise fun earlier later => earlier.stop ≤ later.start
  covers : ∀ frame < frameCount length targetSampleRate,
    speech frame = true →
      ∃ span ∈ spans, span.Covers (frame * frameSize targetSampleRate)
        (frameStop length targetSampleRate frame)

theorem cuts_whole (vad : Bool) (long : targetSampleRate / 20 ≤ length) :
    Cuts speech length vad [{ start := 0, stop := length }] where
  within := List.forall_mem_singleton.mpr (Nat.le_refl length)
  long := List.forall_mem_singleton.mpr long
  apart := List.pairwise_singleton _ _
  covers _ _ _ :=
    ⟨_, List.mem_singleton_self _, Nat.zero_le _, Nat.min_le_right _ _⟩

theorem cuts_chunks {Sample : Type} (options : AsrOptions)
    (speech : Nat → Bool) {samples : List Sample}
    (long : targetSampleRate / 20 ≤ samples.length) :
    Cuts speech samples.length options.vad
      (chunks options speech samples) := by
  unfold chunks
  split_ifs with vad
  · have some : ¬ samples.isEmpty = true := by
      rw [List.isEmpty_iff]
      rintro rfl
      exact absurd long (Nat.not_le.mpr (Nat.succ_pos 799))
    have scanned : Scanned speech samples.length targetSampleRate
        (frameCount samples.length targetSampleRate)
        (collect speech samples.length targetSampleRate 0 []) :=
      scanned_collect scanned_nil (Nat.zero_le _)
    rw [energyVad, if_neg some]
    dsimp only
    split_ifs with none
    · exact cuts_whole _ long
    · constructor
      · intro span member
        rw [List.mem_reverse] at member
        exact (scanned.ends span member).2.within
      · intro span member
        rw [List.mem_reverse] at member
        exact span_long scanned long member
      · rw [List.pairwise_reverse]
        exact scanned.apart.imp fun far =>
          Nat.le_of_lt (Nat.lt_of_le_of_lt (Nat.le_add_right _ _) far)
      · intro frame inside loud
        rcases scanned.covers frame inside inside loud with
          ⟨span, member, covers⟩
        exact ⟨span, List.mem_reverse.mpr member, covers⟩
  · exact cuts_whole _ long

end

/-! ## What is heard -/

/-- The segment that is kept of one that was heard. -/
def kept (offset : Nat) (segment : WhisperSegment) : List AsrSegment :=
  match segment.text with
  | .error _ => []
  | .ok text =>
    if (trim text).isEmpty then []
    else
      [⟨(offset + segment.startTimestamp) * 10,
        (offset + segment.endTimestamp) * 10, trim text⟩]

/-- The segments that there are. -/
def Heard.present (heard : Heard) : List WhisperSegment :=
  heard.segments.flatMap Option.toList

/-- The segments of a span, placed in the recording. -/
def placed (entry : Span × Heard) : List AsrSegment :=
  entry.2.present.flatMap (kept (offsetCs entry.1))

section

variable {State Sample : Type} {engine : AsrEngine State Sample}
  {options : AsrOptions} {speech : Nat → Bool} {samples : List Sample}
  {span : Span} {all next : List AsrSegment} {offset : Nat}

/-- The model heard the samples of a span. -/
def Hears (engine : AsrEngine State Sample) (options : AsrOptions)
    (samples : List Sample) (span : Span) (heard : Heard) : Prop :=
  ∃ state next, engine.whisper.full state (fullParams engine options)
    (pcmOf samples span) = .ok (heard, next)

theorem addSegment_spec {segment : Option WhisperSegment}
    (added : addSegment offset all segment = .ok next) :
    next = all ++ segment.toList.flatMap (kept offset) := by
  cases segment with
  | none =>
      cases added
      exact (List.append_nil _).symm
  | some segment =>
      rcases bind_eq_ok.mp added with ⟨text, written, added⟩
      rw [mapError_eq_ok] at written
      rw [Option.toList_some, List.flatMap_singleton, kept, written]
      dsimp only at added ⊢
      split_ifs at added ⊢
      · cases added
        exact (List.append_nil _).symm
      · cases added
        rfl

theorem addSegments_spec {segments : List (Option WhisperSegment)}
    (added : segments.foldlM (addSegment offset) all = .ok next) :
    next = all ++
      (segments.flatMap Option.toList).flatMap (kept offset) := by
  refine foldlM_run
    (fun front next => next = all ++
      (front.flatMap Option.toList).flatMap (kept offset))
    ?_ (List.append_nil _).symm added
  rintro front segment middle next before step
  rw [addSegment_spec step, before, List.flatMap_append,
    List.flatMap_append, List.flatMap_singleton, List.append_assoc]

/-- A span that is long enough is heard. -/
theorem hearSpan_spec {state after : State × Option Text × List AsrSegment}
    (long : targetSampleRate / 20 ≤ (pcmOf samples span).length)
    (heard : hearSpan engine options samples state span = .ok after) :
    ∃ found, Hears engine options samples span found ∧
      after.2.1 = state.2.1.or found.language ∧
        after.2.2 = state.2.2 ++ placed (span, found) := by
  rw [hearSpan, if_neg (Nat.not_lt.mpr long)] at heard
  rcases bind_eq_ok.mp heard with ⟨⟨found, next⟩, called, heard⟩
  rcases bind_eq_ok.mp heard with ⟨all, added, heard⟩
  rw [mapError_eq_ok] at called
  cases heard
  exact ⟨found, ⟨state.1, next, called⟩, rfl, addSegments_spec added⟩

/-- All spans are heard, one after the other. -/
theorem hearSpans_spec {spans : List Span}
    {state after : State × Option Text × List AsrSegment}
    (long : ∀ span ∈ spans,
      targetSampleRate / 20 ≤ (pcmOf samples span).length)
    (ran : spans.foldlM (hearSpan engine options samples) state =
      .ok after) :
    ∃ heards, List.Forall₂ (Hears engine options samples) spans heards ∧
      after.2.1 = state.2.1.or (heards.findSome? Heard.language) ∧
        after.2.2 = state.2.2 ++ (spans.zip heards).flatMap placed := by
  induction spans generalizing state with
  | nil =>
      cases ran
      exact ⟨[], .nil, by simp, (List.append_nil _).symm⟩
  | cons span spans induction =>
      rw [List.foldlM_cons, bind_eq_ok] at ran
      rcases ran with ⟨middle, step, ran⟩
      rcases List.forall_mem_cons.mp long with ⟨here, long⟩
      rcases hearSpan_spec here step with ⟨found, hears, language, all⟩
      rcases induction long ran with ⟨heards, rest, languages, segments⟩
      refine ⟨found :: heards, .cons hears rest, ?_, ?_⟩
      · rw [languages, language, List.findSome?_cons]
        cases state.2.1 <;> cases found.language <;> rfl
      · rw [segments, all, List.zip_cons_cons, List.flatMap_cons,
          List.append_assoc]

/-! ## Where segments are -/

/-- The model's segments are inside of what it hears, and in order. -/
def Timely (whisper : Whisper State Sample) : Prop :=
  ∀ state params pcm heard next,
    whisper.full state params pcm = .ok (heard, next) →
      heard.present.Pairwise
          (fun earlier later =>
            earlier.endTimestamp ≤ later.startTimestamp) ∧
        ∀ segment ∈ heard.present,
          segment.startTimestamp ≤ segment.endTimestamp ∧
            segment.endTimestamp * (targetSampleRate / 100) ≤ pcm.length

theorem mem_kept {segment : WhisperSegment} {placed : AsrSegment}
    (member : placed ∈ kept offset segment) :
    placed.startMs = (offset + segment.startTimestamp) * 10 ∧
      placed.endMs = (offset + segment.endTimestamp) * 10 := by
  unfold kept at member
  split at member
  · cases member
  · split_ifs at member
    · cases member
    · rw [List.mem_singleton] at member
      rw [member]
      exact ⟨rfl, rfl⟩

theorem kept_pairwise (segment : WhisperSegment) :
    (kept offset segment).Pairwise fun earlier later =>
      earlier.endMs ≤ later.startMs := by
  unfold kept
  split
  · exact .nil
  · split_ifs
    · exact .nil
    · exact List.pairwise_singleton _ _

theorem pcmOf_length (within : span.stop ≤ samples.length) :
    (pcmOf samples span).length = span.stop - span.start := by
  rw [pcmOf, List.length_drop, List.length_take, Nat.min_eq_left within]

/-- The segments of a span are in order and inside of it. -/
theorem placed_inside {heard : Heard} (timely : Timely engine.whisper)
    (begins : span.start ≤ span.stop) (within : span.stop ≤ samples.length)
    (hears : Hears engine options samples span heard) :
    (placed (span, heard)).Pairwise
        (fun earlier later => earlier.endMs ≤ later.startMs) ∧
      ∀ segment ∈ placed (span, heard),
        span.start / 160 * 10 ≤ segment.startMs ∧
          segment.startMs ≤ segment.endMs ∧
            segment.endMs ≤ span.stop / 160 * 10 := by
  rcases hears with ⟨state, next, called⟩
  rcases timely _ _ _ _ _ called with ⟨ordered, inside⟩
  rw [pcmOf_length within] at inside
  have start : offsetCs span = span.start / 160 := by
    rw [offsetCs, targetSampleRate]
    omega
  have least : targetSampleRate / 100 = 160 := rfl
  rw [least] at inside
  constructor
  · refine List.pairwise_flatMap.mpr ⟨fun segment _ => kept_pairwise segment,
      ordered.imp ?_⟩
    intro earlier later before one first other second
    have ends := (mem_kept first).2
    have begins := (mem_kept second).1
    omega
  · intro segment member
    rcases List.mem_flatMap.mp member with ⟨source, listed, made⟩
    rcases mem_kept made with ⟨starts, ends⟩
    have bounds := inside source listed
    dsimp only at starts ends
    omega

/-- So are the segments of spans that are apart. -/
theorem placed_zip {spans : List Span} {heards : List Heard}
    {speech : Nat → Bool} {vad : Bool} (timely : Timely engine.whisper)
    (cuts : Cuts speech samples.length vad spans)
    (hears : List.Forall₂ (Hears engine options samples) spans heards) :
    ((spans.zip heards).flatMap placed).Pairwise
        (fun earlier later => earlier.endMs ≤ later.startMs) ∧
      ∀ segment ∈ (spans.zip heards).flatMap placed,
        segment.startMs ≤ segment.endMs ∧
          segment.endMs * 16 ≤ samples.length := by
  have inside : ∀ entry ∈ spans.zip heards,
      (placed entry).Pairwise
          (fun earlier later => earlier.endMs ≤ later.startMs) ∧
        ∀ segment ∈ placed entry,
          entry.1.start / 160 * 10 ≤ segment.startMs ∧
            segment.startMs ≤ segment.endMs ∧
              segment.endMs ≤ entry.1.stop / 160 * 10 := by
    intro entry member
    have span := (List.of_mem_zip member).1
    have enough := cuts.long entry.1 span
    rw [show targetSampleRate / 20 = 800 from rfl] at enough
    exact placed_inside timely (by omega) (cuts.within entry.1 span)
      (List.forall₂_zip hears member)
  constructor
  · refine List.pairwise_flatMap.mpr
      ⟨fun entry member => (inside entry member).1, ?_⟩
    have apart := cuts.apart
    rw [← List.map_fst_zip hears.length_eq.le, List.pairwise_map] at apart
    refine apart.imp_of_mem ?_
    intro earlier later first second far one inOne other inOther
    have ends := ((inside earlier first).2 one inOne).2.2
    have starts := ((inside later second).2 other inOther).1
    have order : earlier.1.stop / 160 ≤ later.1.start / 160 :=
      Nat.div_le_div_right far
    omega
  · intro segment member
    rcases List.mem_flatMap.mp member with ⟨entry, listed, made⟩
    have within := cuts.within entry.1 (List.of_mem_zip listed).1
    have bounds := (inside entry listed).2 segment made
    omega

end

/-- All that is loud is transcribed, in order and inside of the recording. -/
structure Transcribes {State Sample : Type} (engine : AsrEngine State Sample)
    (options : AsrOptions) (speech : Nat → Bool) (samples : List Sample)
    (transcript : Transcript) : Prop where
  heard : ∃ heards,
    List.Forall₂ (Hears engine options samples)
        (chunks options speech samples) heards ∧
      transcript.language = heards.findSome? Heard.language ∧
        transcript.segments =
          ((chunks options speech samples).zip heards).flatMap placed
  covers : ∀ frame < frameCount samples.length targetSampleRate,
    speech frame = true →
      ∃ span ∈ chunks options speech samples,
        span.Covers (frame * frameSize targetSampleRate)
          (frameStop samples.length targetSampleRate frame)
  ordered : transcript.segments.Pairwise fun earlier later =>
    earlier.endMs ≤ later.startMs
  inside : ∀ segment ∈ transcript.segments,
    segment.startMs ≤ segment.endMs ∧ segment.endMs * 16 ≤ samples.length
  words : splitWhitespace transcript.text =
    transcript.segments.flatMap fun segment => splitWhitespace segment.text

/-- A recording of at least a twentieth of a second is transcribed whole. -/
theorem transcribe_whole {State Sample : Type}
    (engine : AsrEngine State Sample) (timely : Timely engine.whisper)
    (options : AsrOptions) (speech : Nat → Bool) (samples : List Sample)
    (long : targetSampleRate / 20 ≤ samples.length)
    {transcript : Transcript}
    (made : transcribe engine options speech samples = .ok transcript) :
    Transcribes engine options speech samples transcript := by
  have cuts := cuts_chunks options speech long
  have some : ¬ samples.isEmpty = true := by
    rw [List.isEmpty_iff]
    rintro rfl
    exact absurd long (Nat.not_le.mpr (Nat.succ_pos 799))
  rw [transcribe, if_neg some] at made
  rcases bind_eq_ok.mp made with ⟨state, created, made⟩
  rcases bind_eq_ok.mp made with ⟨⟨last, language, all⟩, ran, made⟩
  cases made
  have enough : ∀ span ∈ chunks options speech samples,
      targetSampleRate / 20 ≤ (pcmOf samples span).length := by
    intro span member
    rw [pcmOf_length (cuts.within span member)]
    exact cuts.long span member
  rcases hearSpans_spec enough ran with ⟨heards, hears, languages, segments⟩
  rw [Option.none_or] at languages
  rw [List.nil_append] at segments
  dsimp only at languages segments
  rcases placed_zip timely cuts hears with ⟨ordered, inside⟩
  rw [← segments] at ordered inside
  constructor
  · exact ⟨heards, hears, languages, segments⟩
  · exact cuts.covers
  · exact ordered
  · exact inside
  · show splitWhitespace (textOf all) = all.flatMap _
    rw [textOf, splitWhitespace_joined
      fun word member => word_of_mem_splitWhitespace member,
      splitWhitespace_joined_texts, List.flatMap_map]

/-! ## A model that hears one word -/

/-- It takes as long as what is heard. -/
def oneWord : AsrEngine Unit Unit where
  whisper :=
    { createState := .ok ()
      full := fun _ _ pcm =>
        .ok (⟨some "en".toList,
          [some ⟨0, pcm.length / 160, .ok " hi".toList⟩]⟩, ()) }
  kind := .base
  vadPath := none

theorem oneWord_timely : Timely oneWord.whisper := by
  rintro state params pcm heard next ⟨⟩
  constructor
  · exact List.pairwise_singleton _ _
  · intro segment member
    rw [Heard.present, List.flatMap_singleton, Option.toList_some,
      List.mem_singleton] at member
    rw [member]
    exact ⟨Nat.zero_le _, Nat.div_mul_le_self _ _⟩

/-- A tenth of a second without speech. -/
theorem transcribe_whole_quiet :
    ∃ transcript,
      transcribe oneWord ⟨none, 4, true⟩ (fun _ => false)
          (List.replicate 1600 ()) = .ok transcript ∧
        Transcribes oneWord ⟨none, 4, true⟩ (fun _ => false)
          (List.replicate 1600 ()) transcript := by
  have made : transcribe oneWord ⟨none, 4, true⟩ (fun _ => false)
      (List.replicate 1600 ()) =
        .ok ⟨"hi".toList, some "en".toList, [⟨0, 100, "hi".toList⟩],
          "whisper:ggml-base.bin".toList⟩ := by
    decide +kernel
  exact ⟨_, made, transcribe_whole oneWord oneWord_timely ⟨none, 4, true⟩
    (fun _ => false) (List.replicate 1600 ())
    (by rw [List.length_replicate]; decide) made⟩

end Runa.Media.Transcripts
