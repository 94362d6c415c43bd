import Runa.Engine.Generate
import Runa.Json.Codec

/-!
# The events of a mistral.rs stream

The embedding of `EventFold` and of the iterator `MistralGeneration` of
`runa-engine/src/mistral.rs`.  A stream is the list of its items.  A summary at
its end repeats what its chunks carried: it is told once exactly if the chunks
carry text, or no reasoning.
-/

namespace Runa.Engine.MistralEvents

open Runa.Engine.Generate (GenEvent StopReason Usage)
open Runa.Json.Codec (hexDigit)
open Runa.Stream.Utf8

/-! ## Responses of mistral.rs -/

structure MistralUsage where
  promptTokens : Nat
  completionTokens : Nat
deriving DecidableEq, Repr

structure CalledFunction where
  name : Text
  arguments : Text
deriving DecidableEq, Repr

structure Delta where
  content : Option Text
  reasoningContent : Option Text
  toolCalls : Option (List CalledFunction)
deriving DecidableEq, Repr

structure ChunkChoice where
  finishReason : Option Text
  delta : Delta
deriving DecidableEq, Repr

structure Chunk where
  choices : List ChunkChoice
  usage : Option MistralUsage
deriving DecidableEq, Repr

structure ResponseMessage where
  content : Option Text
  reasoningContent : Option Text
deriving DecidableEq, Repr

structure Choice where
  finishReason : Text
  message : ResponseMessage
deriving DecidableEq, Repr

structure Completion where
  choices : List Choice
  usage : MistralUsage
deriving DecidableEq, Repr

inductive Response where
  | chunk (chunk : Chunk)
  | done (completion : Completion)
  | modelError (message : Text)
  | internalError (error : Text)
  | validationError (error : Text)
  | completionDone
  | completionChunk
  | completionModelError
  | imageGeneration
  | speech
  | raw
  | embeddings
deriving DecidableEq, Repr

def responseKind : Response → Text
  | .chunk _ => "chunk".toList
  | .done _ => "done".toList
  | .modelError _ => "model-error".toList
  | .internalError _ => "internal-error".toList
  | .validationError _ => "validation-error".toList
  | .completionDone | .completionChunk | .completionModelError =>
    "completion".toList
  | .imageGeneration => "image-generation".toList
  | .speech => "speech".toList
  | .raw => "raw".toList
  | .embeddings => "embeddings".toList

/-- `length` exhausted `max_len`, everything else ends the turn like a ggml
EOS. -/
def mapStop (reason : Text) : StopReason :=
  if reason = "length".toList then .maxTokens else .eos

/-- The counts of a `u32`, as large as they get there. -/
def mapUsage (usage : MistralUsage) : Usage where
  promptTokens := min usage.promptTokens (2 ^ 32 - 1)
  generatedTokens := min usage.completionTokens (2 ^ 32 - 1)
  reasoningTokens := 0

def quoteChar (char : Char) : Text :=
  if char = '"' then ['\\', '"']
  else if char = '\\' then ['\\', '\\']
  else if char = '\n' then ['\\', 'n']
  else if char = '\r' then ['\\', 'r']
  else if char = '\t' then ['\\', 't']
  else if char.toNat < 0x20 then
    ['\\', 'u', '0', '0', hexDigit (char.toNat / 16),
      hexDigit (char.toNat % 16)]
  else [char]

/-- Minimal JSON string quoting for volunteered tool calls surfaced as
text. -/
def quote (text : Text) : Text :=
  '"' :: text.flatMap quoteChar ++ ['"']

def callText (call : CalledFunction) : Text :=
  "\x7b\"name\":".toList ++ quote call.name ++ ",\"arguments\":".toList ++
    quote call.arguments ++ "\x7d".toList

/-! ## The fold -/

/-- Accumulates stream items into events. -/
structure EventFold where
  ready : List GenEvent
  usage : Option Usage
  stop : Option StopReason
  showReasoning : Bool
  finished : Bool
  emittedText : Bool
deriving DecidableEq, Repr

namespace EventFold

def new (showReasoning : Bool) : EventFold :=
  ⟨[], none, none, showReasoning, false, false⟩

def push (fold : EventFold) (event : GenEvent) : EventFold :=
  { fold with ready := fold.ready ++ [event] }

def close (fold : EventFold) : EventFold :=
  if fold.finished then fold
  else
    { fold with
      ready := fold.ready ++
        [.usage (fold.usage.getD ⟨0, 0, 0⟩), .done (fold.stop.getD .eos)]
      usage := none
      stop := none
      finished := true }

/-- Text that is not empty is queued. -/
def say (fold : EventFold) (content : Option Text) : EventFold :=
  match content.filter (· ≠ []) with
  | none => fold
  | some text => { fold with emittedText := true }.push (.text text)

/-- Reasoning that is not empty is queued where it is shown. -/
def think (fold : EventFold) (reasoning : Option Text) : EventFold :=
  if fold.showReasoning then
    match reasoning.filter (· ≠ []) with
    | none => fold
    | some text => fold.push (.reasoning text)
  else fold

/-- Volunteered calls are surfaced as text. -/
def sayCall (fold : EventFold) (call : CalledFunction) : EventFold :=
  { fold with emittedText := true }.push (.text (callText call))

def noteUsage (fold : EventFold) : Option MistralUsage → EventFold
  | none => fold
  | some usage => { fold with usage := some (mapUsage usage) }

def noteStop (fold : EventFold) : Option Text → EventFold
  | none => fold
  | some reason => { fold with stop := some (mapStop reason) }

def absorbChunk (fold : EventFold) (chunk : Chunk) : EventFold :=
  let fold := fold.noteUsage chunk.usage
  match chunk.choices.head? with
  | none => fold
  | some choice =>
    let fold := (((fold.noteStop choice.finishReason).say
      choice.delta.content).think choice.delta.reasoningContent)
    (choice.delta.toolCalls.getD []).foldl sayCall fold

def absorbDone (fold : EventFold) (completion : Completion) : EventFold :=
  let fold := fold.noteUsage (some completion.usage)
  match completion.choices.head? with
  | none => fold
  | some choice =>
    let fold := fold.noteStop (some choice.finishReason)
    if fold.emittedText then fold
    else
      (fold.say choice.message.content).think choice.message.reasoningContent

/-- Fold one stream item, `none` where the stream is exhausted. -/
def step (fold : EventFold) : Option Response → Except Text EventFold
  | none => .ok fold.close
  | some (.chunk chunk) =>
    let absorbed := fold.absorbChunk chunk
    if (chunk.choices.head?.bind ChunkChoice.finishReason).isSome then
      .ok absorbed.close
    else .ok absorbed
  | some (.done completion) => .ok (fold.absorbDone completion).close
  | some (.modelError message) =>
    .error ("mistral.rs model error: ".toList ++ message)
  | some (.internalError error) =>
    .error ("mistral.rs error: ".toList ++ error)
  | some (.validationError error) =>
    .error ("mistral.rs rejected the request: ".toList ++ error)
  | some other =>
    .error ("mistral.rs returned an unexpected response: ".toList ++
      responseKind other)

end EventFold

/-! ## The iterator -/

/-- What one turn of the loop in `next` does: it returns, or goes on. -/
inductive Turn where
  | returns (item : Option (Except Text GenEvent)) (fold : EventFold)
      (stream : List Response)
  | goesOn (fold : EventFold) (stream : List Response)

def turn (fold : EventFold) (stream : List Response) : Turn :=
  match fold.ready with
  | event :: ready => .returns (some (.ok event)) { fold with ready } stream
  | [] =>
    if fold.finished then .returns none fold stream
    else
      match fold.step stream.head? with
      | .ok fold => .goesOn fold stream.tail
      | .error error => .returns (some (.error error)) fold stream.tail

/-- The items that are popped until there is none, and the fold behind
them. -/
inductive Yields : EventFold → List Response →
    List (Except Text GenEvent) → EventFold → Prop
  | stop {fold final : EventFold} {stream rest : List Response} :
      turn fold stream = .returns none final rest → Yields fold stream [] final
  | item {fold later final : EventFold} {stream rest : List Response}
      {item : Except Text GenEvent} {items : List (Except Text GenEvent)} :
      turn fold stream = .returns (some item) later rest →
        Yields later rest items final →
          Yields fold stream (item :: items) final
  | again {fold later final : EventFold} {stream rest : List Response}
      {items : List (Except Text GenEvent)} :
      turn fold stream = .goesOn later rest →
        Yields later rest items final → Yields fold stream items final

/-- A stream yields one list of items. -/
theorem Yields.unique {fold final other : EventFold} {stream : List Response}
    {items others : List (Except Text GenEvent)}
    (yields : Yields fold stream items final)
    (also : Yields fold stream others other) :
    items = others ∧ final = other := by
  induction yields generalizing others other with
  | stop one =>
      cases also with
      | stop two =>
          rw [one] at two
          cases two
          exact ⟨rfl, rfl⟩
      | item two _ =>
          rw [one] at two
          cases two
      | again two _ =>
          rw [one] at two
          cases two
  | item one _ induction =>
      cases also with
      | stop two =>
          rw [one] at two
          cases two
      | item two later =>
          rw [one] at two
          cases two
          rcases induction later with ⟨rfl, rfl⟩
          exact ⟨rfl, rfl⟩
      | again two _ =>
          rw [one] at two
          cases two
  | again one _ induction =>
      cases also with
      | stop two =>
          rw [one] at two
          cases two
      | item two _ =>
          rw [one] at two
          cases two
      | again two later =>
          rw [one] at two
          cases two
          exact induction later

/-- What is ready comes first. -/
theorem yields_ready {fold final : EventFold} {stream : List Response}
    {items : List (Except Text GenEvent)}
    (yields : Yields { fold with ready := [] } stream items final) :
    Yields fold stream (fold.ready.map .ok ++ items) final := by
  rcases fold with ⟨ready, usage, stop, showReasoning, finished, emitted⟩
  induction ready with
  | nil => exact yields
  | cons event ready induction => exact .item rfl (induction yields)

/-! ## What chunks and summaries carry -/

/-- The delta of the choice that is read. -/
def Chunk.delta (chunk : Chunk) : Option Delta :=
  chunk.choices.head?.map ChunkChoice.delta

def Chunk.content (chunk : Chunk) : Text :=
  (chunk.delta.bind Delta.content).getD []

def Chunk.thought (chunk : Chunk) : Text :=
  (chunk.delta.bind Delta.reasoningContent).getD []

/-- Neither a tool call nor a finish reason. -/
structure Chunk.Plain (chunk : Chunk) : Prop where
  running : chunk.choices.head?.bind ChunkChoice.finishReason = none
  quiet : (chunk.delta.bind Delta.toolCalls).getD [] = []

/-- The message of the choice that is read. -/
def Completion.message (completion : Completion) : Option ResponseMessage :=
  completion.choices.head?.map Choice.message

def Completion.content (completion : Completion) : Text :=
  (completion.message.bind ResponseMessage.content).getD []

def Completion.thought (completion : Completion) : Text :=
  (completion.message.bind ResponseMessage.reasoningContent).getD []

/-- The text of events, put together. -/
def textOf (events : List GenEvent) : Text :=
  events.flatMap fun
    | .text body => body
    | _ => []

/-- The reasoning of events, put together. -/
def thoughtOf (events : List GenEvent) : Text :=
  events.flatMap fun
    | .reasoning body => body
    | _ => []

/-- Text or reasoning. -/
def Spoken : GenEvent → Prop
  | .text _ | .reasoning _ => True
  | _ => False

/-- The events for a text and a reasoning that are shown. -/
def spoken (content thought : Text) : List GenEvent :=
  (if content = [] then [] else [.text content]) ++
    if thought = [] then [] else [.reasoning thought]

/-- The counts of a summary, and the end. -/
def ending (completion : Completion) (reason : StopReason) : List GenEvent :=
  [.usage (mapUsage completion.usage), .done reason]

theorem textOf_append (events others : List GenEvent) :
    textOf (events ++ others) = textOf events ++ textOf others :=
  List.flatMap_append

theorem thoughtOf_append (events others : List GenEvent) :
    thoughtOf (events ++ others) = thoughtOf events ++ thoughtOf others :=
  List.flatMap_append

theorem textOf_spoken (content thought : Text) :
    textOf (spoken content thought) = content := by
  by_cases content = [] <;> by_cases thought = [] <;>
    simp [spoken, textOf, *]

theorem thoughtOf_spoken (content thought : Text) :
    thoughtOf (spoken content thought) = thought := by
  by_cases content = [] <;> by_cases thought = [] <;>
    simp [spoken, thoughtOf, *]

theorem spoken_spoken {content thought : Text} {event : GenEvent}
    (member : event ∈ spoken content thought) : Spoken event := by
  rcases List.mem_append.mp member with text | reasoning
  · split at text
    · cases text
    · rw [List.mem_singleton.mp text]
      exact trivial
  · split at reasoning
    · cases reasoning
    · rw [List.mem_singleton.mp reasoning]
      exact trivial

/-! ## One item -/

namespace EventFold

variable {fold : EventFold}

theorem say_eq (content : Option Text) :
    fold.say content =
      { fold with
        ready := fold.ready ++
          if content.getD [] = [] then [] else [.text (content.getD [])]
        emittedText :=
          fold.emittedText || decide (content.getD [] ≠ []) } := by
  cases content with
  | none => simp [say]
  | some text => by_cases empty : text = [] <;>
      simp [say, push, empty, Option.filter]

theorem think_eq (shows : fold.showReasoning = true)
    (reasoning : Option Text) :
    fold.think reasoning =
      { fold with
        ready := fold.ready ++
          if reasoning.getD [] = [] then []
          else [.reasoning (reasoning.getD [])] } := by
  rw [think, if_pos shows]
  cases reasoning with
  | none => simp
  | some text => by_cases empty : text = [] <;>
      simp [push, empty, Option.filter]

/-- A text and a reasoning are queued one behind the other. -/
theorem think_say (shows : fold.showReasoning = true)
    (content thought : Option Text) :
    (fold.say content).think thought =
      { fold with
        ready := fold.ready ++ spoken (content.getD []) (thought.getD [])
        emittedText :=
          fold.emittedText || decide (content.getD [] ≠ []) } := by
  rw [say_eq, think_eq (by exact shows), spoken, ← List.append_assoc]

theorem noteUsage_eq (usage : Option MistralUsage) :
    fold.noteUsage usage =
      { fold with usage := (usage.map mapUsage).or fold.usage } := by
  cases usage with
  | none => rfl
  | some usage => rfl

/-- A chunk queues what its delta carries. -/
theorem absorbChunk_eq (shows : fold.showReasoning = true) {chunk : Chunk}
    (plain : chunk.Plain) :
    fold.absorbChunk chunk =
      { fold with
        ready := fold.ready ++ spoken chunk.content chunk.thought
        usage := (chunk.usage.map mapUsage).or fold.usage
        emittedText :=
          fold.emittedText || decide (chunk.content ≠ []) } := by
  rcases plain with ⟨running, quiet⟩
  rw [absorbChunk, noteUsage_eq]
  cases first : chunk.choices.head? with
  | none =>
      have content : chunk.content = [] := by
        rw [Chunk.content, Chunk.delta, first]
        rfl
      have thought : chunk.thought = [] := by
        rw [Chunk.thought, Chunk.delta, first]
        rfl
      simp [content, thought, spoken]
  | some choice =>
      rw [first, Option.bind_some] at running
      rw [Chunk.delta, first, Option.map_some, Option.bind_some] at quiet
      have content : chunk.content = choice.delta.content.getD [] := by
        rw [Chunk.content, Chunk.delta, first]
        rfl
      have thought :
          chunk.thought = choice.delta.reasoningContent.getD [] := by
        rw [Chunk.thought, Chunk.delta, first]
        rfl
      dsimp only
      rw [running, noteStop, quiet, List.foldl_nil, think_say (by exact shows),
        content, thought]

/-- A summary queues its message where no text was queued before. -/
theorem absorbDone_close (shows : fold.showReasoning = true)
    (going : fold.finished = false) (completion : Completion) :
    ∃ reason, (fold.absorbDone completion).close =
      { fold with
        ready := fold.ready ++
          (if fold.emittedText then []
            else spoken completion.content completion.thought) ++
              ending completion reason
        usage := none
        stop := none
        finished := true
        emittedText :=
          fold.emittedText || decide (completion.content ≠ []) } := by
  rw [absorbDone, noteUsage_eq]
  cases first : completion.choices.head? with
  | none =>
      have content : completion.content = [] := by
        rw [Completion.content, Completion.message, first]
        rfl
      have thought : completion.thought = [] := by
        rw [Completion.thought, Completion.message, first]
        rfl
      refine ⟨fold.stop.getD .eos, ?_⟩
      simp [close, going, content, thought, spoken, ending]
  | some choice =>
      have content :
          completion.content = choice.message.content.getD [] := by
        rw [Completion.content, Completion.message, first]
        rfl
      have thought :
          completion.thought = choice.message.reasoningContent.getD [] := by
        rw [Completion.thought, Completion.message, first]
        rfl
      refine ⟨mapStop choice.finishReason, ?_⟩
      dsimp only [noteStop]
      rw [content, thought]
      cases emitted : fold.emittedText with
      | true => simp [close, going, ending]
      | false =>
          rw [if_neg Bool.false_ne_true, if_neg Bool.false_ne_true,
            think_say (by exact shows)]
          simp [close, going, ending]

end EventFold

/-! ## A whole stream -/

/-- A fold that shows reasoning and has to read on. -/
structure Waiting (fold : EventFold) : Prop where
  empty : fold.ready = []
  shows : fold.showReasoning = true
  going : fold.finished = false

theorem Waiting.turn_eq {fold later : EventFold} (waiting : Waiting fold)
    {item : Response} {stream : List Response}
    (stepped : fold.step (some item) = .ok later) :
    turn fold (item :: stream) = .goesOn later stream := by
  rw [turn, waiting.empty]
  dsimp only
  rw [waiting.going, if_neg Bool.false_ne_true, List.head?_cons, stepped]
  rfl

/-- After a chunk its events are ready, and the fold reads on behind them. -/
theorem Waiting.chunk {fold : EventFold} (waiting : Waiting fold)
    {chunk : Chunk} (plain : chunk.Plain) :
    ∃ after, Waiting after ∧
      after.emittedText =
        (fold.emittedText || decide (chunk.content ≠ [])) ∧
      ∀ stream items final, Yields after stream items final →
        Yields fold (.chunk chunk :: stream)
          ((spoken chunk.content chunk.thought).map .ok ++ items) final := by
  have stepped : fold.step (some (.chunk chunk)) =
      .ok (fold.absorbChunk chunk) := by
    rw [EventFold.step, plain.running]
    rfl
  have absorbed := fold.absorbChunk_eq waiting.shows plain
  rw [waiting.empty, List.nil_append] at absorbed
  refine ⟨{ fold.absorbChunk chunk with ready := [] }, ?_, ?_, ?_⟩
  · rw [absorbed]
    exact ⟨rfl, waiting.shows, waiting.going⟩
  · rw [absorbed]
  · intro stream items final yields
    apply Yields.again (waiting.turn_eq stepped)
    have ready := yields_ready yields
    rwa [congrArg EventFold.ready absorbed] at ready

/-- The events of chunks, one chunk after the other. -/
def spokenBy (chunks : List Chunk) : List GenEvent :=
  chunks.flatMap fun chunk => spoken chunk.content chunk.thought

theorem Waiting.chunks {fold : EventFold} (waiting : Waiting fold)
    {chunks : List Chunk} (plain : ∀ chunk ∈ chunks, chunk.Plain) :
    ∃ after, Waiting after ∧
      after.emittedText =
        (fold.emittedText || decide (chunks.flatMap Chunk.content ≠ [])) ∧
      ∀ stream items final, Yields after stream items final →
        Yields fold (chunks.map .chunk ++ stream)
          ((spokenBy chunks).map .ok ++ items) final := by
  induction chunks generalizing fold with
  | nil => exact ⟨fold, waiting, by simp, fun _ _ _ yields => yields⟩
  | cons chunk chunks induction =>
      rcases List.forall_mem_cons.mp plain with ⟨here, rest⟩
      rcases waiting.chunk here with ⟨middle, reads, emitted, front⟩
      rcases induction reads rest with ⟨after, waits, emitted', back⟩
      refine ⟨after, waits, ?_, ?_⟩
      · rw [emitted', emitted, List.flatMap_cons]
        by_cases chunk.content = [] <;> simp [*]
      · intro stream items final yields
        rw [spokenBy, List.flatMap_cons, List.map_append, List.append_assoc]
        exact front _ _ _ (back _ _ _ yields)

/-- A summary ends the stream: its message where no text came before, the
usage, and the end. -/
theorem Waiting.done {fold : EventFold} (waiting : Waiting fold)
    (completion : Completion) (stream : List Response) :
    ∃ reason final, final.finished = true ∧
      Yields fold (.done completion :: stream)
        (((if fold.emittedText then []
          else spoken completion.content completion.thought) ++
            ending completion reason).map .ok)
        final := by
  rcases fold.absorbDone_close waiting.shows waiting.going completion with
    ⟨reason, closed⟩
  rw [waiting.empty, List.nil_append] at closed
  refine ⟨reason, { (fold.absorbDone completion).close with ready := [] },
    ?_, ?_⟩
  · rw [closed]
  · apply Yields.again (waiting.turn_eq rfl)
    have stops : turn { (fold.absorbDone completion).close with ready := [] }
        stream = .returns none
          { (fold.absorbDone completion).close with ready := [] } stream := by
      rw [closed]
      rfl
    have ready := yields_ready (.stop stops)
    rwa [congrArg EventFold.ready closed, List.append_nil] at ready

/-! ## What is told -/

/-- A summary of chunks, or one that is alone. -/
def Sums (completion : Completion) (chunks : List Chunk) : Prop :=
  chunks = [] ∨
    completion.content = chunks.flatMap Chunk.content ∧
      completion.thought = chunks.flatMap Chunk.thought

/-- The stream tells the message of its summary once: text and reasoning, the
counts, the end, and no more. -/
def Retold (chunks : List Chunk) (completion : Completion)
    (stream : List Response) : Prop :=
  ∃ told reason final,
    Yields (.new true) (chunks.map .chunk ++ .done completion :: stream)
      ((told ++ ending completion reason).map .ok) final ∧
    final.finished = true ∧
    (∀ event ∈ told, Spoken event) ∧
    textOf told = completion.content ∧
    thoughtOf told = completion.thought

theorem textOf_spokenBy (chunks : List Chunk) :
    textOf (spokenBy chunks) = chunks.flatMap Chunk.content := by
  induction chunks with
  | nil => rfl
  | cons chunk chunks induction =>
      rw [spokenBy, List.flatMap_cons, textOf_append, textOf_spoken,
        List.flatMap_cons, ← induction]
      rfl

theorem thoughtOf_spokenBy (chunks : List Chunk) :
    thoughtOf (spokenBy chunks) = chunks.flatMap Chunk.thought := by
  induction chunks with
  | nil => rfl
  | cons chunk chunks induction =>
      rw [spokenBy, List.flatMap_cons, thoughtOf_append, thoughtOf_spoken,
        List.flatMap_cons, ← induction]
      rfl

theorem spokenBy_spoken {chunks : List Chunk} {event : GenEvent}
    (member : event ∈ spokenBy chunks) : Spoken event := by
  rcases List.mem_flatMap.mp member with ⟨chunk, -, member⟩
  exact spoken_spoken member

/-- The events of chunks with a summary behind them. -/
theorem yields_stream {chunks : List Chunk}
    (plain : ∀ chunk ∈ chunks, chunk.Plain) (completion : Completion)
    (stream : List Response) :
    ∃ reason final, final.finished = true ∧
      Yields (.new true) (chunks.map .chunk ++ .done completion :: stream)
        ((spokenBy chunks ++
          (if chunks.flatMap Chunk.content = [] then
            spoken completion.content completion.thought else []) ++
          ending completion reason).map .ok) final := by
  have waiting : Waiting (.new true) := ⟨rfl, rfl, rfl⟩
  rcases waiting.chunks plain with ⟨after, waits, emitted, front⟩
  rcases waits.done completion stream with ⟨reason, final, finished, back⟩
  refine ⟨reason, final, finished, ?_⟩
  have whole := front _ _ _ back
  rw [emitted] at whole
  by_cases silent : chunks.flatMap Chunk.content = []
  · rw [if_pos silent]
    simpa [silent, EventFold.new] using whole
  · rw [if_neg silent]
    simpa [silent, EventFold.new] using whole

/-- Two lists of spoken events in front of an ending are one list. -/
theorem told_unique {told others : List GenEvent} {completion : Completion}
    {reason other : StopReason}
    (same : told ++ ending completion reason =
      others ++ ending completion other) :
    told = others :=
  (List.append_inj' same rfl).1

/-- Reasoning without text is told again by the summary. -/
theorem Retold.heard {chunks : List Chunk}
    (plain : ∀ chunk ∈ chunks, chunk.Plain) {completion : Completion}
    {stream : List Response} (retold : Retold chunks completion stream) :
    chunks.flatMap Chunk.content ≠ [] ∨
      chunks.flatMap Chunk.thought = [] := by
  rcases retold with ⟨told, reason, final, yields, -, -, -, thought⟩
  rcases yields_stream plain completion stream with
    ⟨reason', final', -, yields'⟩
  have same := (yields.unique yields').1
  have told' := told_unique (List.map_injective_iff.mpr
    (fun _ _ => Except.ok.inj) same)
  by_cases silent : chunks.flatMap Chunk.content = []
  · right
    rw [told', if_pos silent, thoughtOf_append, thoughtOf_spokenBy,
      thoughtOf_spoken] at thought
    exact List.append_left_eq_self.mp thought
  · exact Or.inl silent

/-- A stream of chunks with their summary is told once exactly if the chunks
carry text, or no reasoning. -/
theorem retold_iff (chunks : List Chunk)
    (plain : ∀ chunk ∈ chunks, chunk.Plain) (completion : Completion)
    (sums : Sums completion chunks) (stream : List Response) :
    Retold chunks completion stream ↔
      chunks.flatMap Chunk.content ≠ [] ∨
        chunks.flatMap Chunk.thought = [] := by
  constructor
  · exact Retold.heard plain
  · intro heard
    rcases yields_stream plain completion stream with
      ⟨reason, final, finished, yields⟩
    refine ⟨_, reason, final, yields, finished, ?_, ?_, ?_⟩
    · intro event member
      rcases List.mem_append.mp member with member | member
      · exact spokenBy_spoken member
      · split at member
        · exact spoken_spoken member
        · cases member
    · rw [textOf_append, textOf_spokenBy]
      by_cases silent : chunks.flatMap Chunk.content = []
      · rw [if_pos silent, textOf_spoken, silent, List.nil_append]
      · rcases sums with rfl | ⟨content, -⟩
        · exact absurd rfl silent
        · rw [if_neg silent, content]
          exact List.append_nil _
    · rw [thoughtOf_append, thoughtOf_spokenBy]
      by_cases silent : chunks.flatMap Chunk.content = []
      · rw [if_pos silent, thoughtOf_spoken,
          heard.resolve_left (not_not.mpr silent), List.nil_append]
      · rcases sums with rfl | ⟨-, thought⟩
        · exact absurd rfl silent
        · rw [if_neg silent, thought]
          exact List.append_nil _

/-! A word that is thought and said, and one that is only thought. -/

def thinking (content thought : Text) : Chunk where
  choices := [⟨none, some content, some thought, none⟩]
  usage := none

def summary (content thought : Text) : Completion where
  choices := [⟨"stop".toList, some content, some thought⟩]
  usage := ⟨13, 7⟩

theorem plain_thinking (content thought : Text) :
    (thinking content thought).Plain :=
  ⟨rfl, rfl⟩

theorem sums_thinking (content thought : Text) :
    Sums (summary content thought) [thinking content thought] :=
  Or.inr ⟨(List.append_nil content).symm, (List.append_nil thought).symm⟩

theorem retold_said :
    Retold [thinking ['H', 'i'] ['h', 'm']] (summary ['H', 'i'] ['h', 'm'])
      [] := by
  apply (retold_iff _ ?_ _ (sums_thinking _ _) _).mpr
  · exact Or.inl (List.cons_ne_nil _ _)
  · rintro chunk (_ | ⟨_, ⟨⟩⟩)
    exact plain_thinking _ _

/-- The chunk is told, and the summary after it. -/
theorem not_retold_thought :
    (thinking [] ['h', 'm']).Plain ∧
      Sums (summary [] ['h', 'm']) [thinking [] ['h', 'm']] ∧
      ¬ Retold [thinking [] ['h', 'm']] (summary [] ['h', 'm']) [] := by
  refine ⟨plain_thinking _ _, sums_thinking _ _, ?_⟩
  intro retold
  rcases retold.heard (by
    rintro chunk (_ | ⟨_, ⟨⟩⟩)
    exact plain_thinking _ _) with text | thought
  · exact text rfl
  · cases thought

end Runa.Engine.MistralEvents
