import Runa.App.Replies
import Runa.Cloud.Streams

/-!
# The client on the stream of the server

What `parse_sse` of the client makes of the text `anthropic_stream_chunks`
sends.  Text, thinking and the end come through.  The server starts a call
with an empty input and has the prompt tokens in `message_start` only, and
the client takes an input at the start for the front of the arguments and
reads the counters of `message_delta` only.
-/

namespace Runa.App.ClientReads

open Runa.Stream.Utf8
open Runa.Stream.Lines
open Runa.Engine.Generate
open Runa.Json
open Runa.Store
open Runa.App.Serve
open Runa.App.EventStream
open Runa.App.Replies
open Runa.Cloud.Anthropic hiding blockEvents
open Runa.Cloud.Streams
  (Step Piece Sends Idle Stops Readable Transcript stepBlocks ownPieces
    ownBlock ownBlock_start ownBlock_steps SseTools.calls find_steps
    ascending_steps reasoningOf textOf eventLines plain_strings
    readable_obj readable_step transcript_events parseSse_steps said_events
    reasoningOf_append textOf_append reasoningOf_toolUse said told foldl_delta deltaEvents
    Piece.thinking Piece.body)

/-! ## The steps of the server -/

/-- The steps of a block under an index. -/
def blockPieces (block : EventStream.Block) : List Piece :=
  .start block.head.value ::
    block.pieces.map fun piece =>
      .delta (deltaValue block.head.kind piece)

/-- The steps of blocks which follow each other from an index on. -/
def blockSteps : Nat → List EventStream.Block → List Step
  | _, [] => []
  | index, block :: later =>
    (blockPieces block).map (Step.mk index) ++ blockSteps (index + 1) later

/-- The data of an event. -/
def eventValue (event : Event) : Value :=
  match event.data with
  | .json value => value
  | .raw _ => .null

theorem idle_blockStop (index : Nat) :
    Idle (eventValue (blockStop index)) := by
  simp [Idle, eventValue, blockStop, sse, Value.type]

theorem idle_messageStart (id model : Text) (tokens : Nat) :
    Idle (eventValue (Serve.messageStart id model tokens)) := by
  simp [Idle, eventValue, Serve.messageStart, sse, Value.type]

theorem sends_append {values values' : List Value}
    {steps steps' : List Step} (sends : Sends values steps)
    (sends' : Sends values' steps') :
    Sends (values ++ values') (steps ++ steps') := by
  induction sends with
  | nil => exact sends'
  | idle idle _ ih => exact Sends.idle idle ih
  | step named _ ih => exact Sends.step named ih

theorem begin_values (index : Nat) (block : EventStream.Block) :
    (block.begin index).map eventValue =
      ((blockPieces block).map (Step.mk index)).map Step.value := by
  rw [Block.begin, blockPieces, List.map_cons, List.map_cons,
    List.map_cons, List.map_map, List.map_map, List.map_map]
  rfl

theorem sends_blocks (index : Nat) (blocks : List EventStream.Block) :
    Sends ((blockEvents index blocks).map eventValue)
      (blockSteps index blocks) := by
  induction blocks generalizing index with
  | nil => exact Sends.nil
  | cons block later ih =>
      rw [blockEvents, blockSteps, List.map_append, begin_values,
        List.map_cons]
      exact sends_append (Runa.Cloud.Streams.sends_values _)
        (Sends.idle (idle_blockStop index) (ih _))

/-! ## The text of the stream -/

/-- An event with a name on one line, and data that reads back. -/
def Printable (event : Event) : Prop :=
  ∃ name value, event = sse name value ∧ OneLine name.toList ∧
    Readable value

theorem plain_head (head : Head) : Plain 126 head.value := by
  cases head with
  | thinking => exact plain_strings (by simp [Value.str])
  | text => exact plain_strings (by simp [Value.str])
  | toolUse id name =>
      have empty : Plain 125 (.obj []) := Value.plain_obj (by simp)
      apply Value.plain_obj
      simp only [List.forall_mem_cons]
      exact ⟨Plain.string _, Plain.string _, Plain.string _, empty,
        by simp⟩

theorem plain_delta (kind : BlockKind) (piece : Text) :
    Plain 126 (deltaValue kind piece) := by
  cases kind <;> exact plain_strings (by simp [Value.str])

theorem printable_start {index : Nat} (fits : index < 2 ^ 64)
    (head : Head) : Printable (blockStart index head.value) :=
  ⟨_, Step.value ⟨index, .start head.value⟩, rfl,
    ⟨by decide, by decide⟩, readable_step fits (plain_head head)⟩

theorem printable_delta {index : Nat} (fits : index < 2 ^ 64)
    (kind : BlockKind) (piece : Text) :
    Printable (blockDelta index (deltaValue kind piece)) :=
  ⟨_, Step.value ⟨index, .delta (deltaValue kind piece)⟩, rfl,
    ⟨by decide, by decide⟩, readable_step fits (plain_delta kind piece)⟩

theorem printable_stop {index : Nat} (fits : index < 2 ^ 64) :
    Printable (blockStop index) := by
  refine ⟨_, _, rfl, ⟨by decide, by decide⟩, readable_obj ?_⟩
  simp only [List.forall_mem_cons]
  exact ⟨Plain.string _, Plain.nat fits, nofun⟩

theorem printable_blocks (blocks : List EventStream.Block) (index : Nat)
    (fits : index + blocks.length ≤ 2 ^ 64) :
    ∀ event ∈ EventStream.blockEvents index blocks, Printable event := by
  induction blocks generalizing index with
  | nil => exact nofun
  | cons block later ih =>
      rw [List.length_cons] at fits
      have here : index < 2 ^ 64 := by omega
      intro event member
      rw [EventStream.blockEvents, Block.begin, List.mem_append,
        List.mem_cons, List.mem_cons] at member
      rcases member with (rfl | added) | rfl | rest
      · exact printable_start here _
      · rcases List.mem_map.mp added with ⟨piece, _, rfl⟩
        exact printable_delta here _ piece
      · exact printable_stop here
      · exact ih (index + 1) (by omega) event rest

theorem printable_messageStart (id model : Text) {tokens : Nat}
    (fits : tokens < 2 ^ 64) :
    Printable (Serve.messageStart id model tokens) := by
  refine ⟨_, _, rfl, ⟨by decide, by decide⟩, readable_obj ?_⟩
  simp only [List.forall_mem_cons]
  refine ⟨Plain.string _, Value.plain_obj ?_, nofun⟩
  simp only [List.forall_mem_cons]
  refine ⟨Plain.string _, Plain.string _, Plain.string _, Plain.string _,
    Plain.array nofun, Plain.null, Value.plain_obj ?_, nofun⟩
  simp only [List.forall_mem_cons]
  exact ⟨Plain.nat fits, Plain.nat (by decide), nofun⟩

theorem printable_messageDelta (stop : String) {tokens : Nat}
    (fits : tokens < 2 ^ 64) :
    Printable (Serve.messageDelta stop tokens) := by
  refine ⟨_, _, rfl, ⟨by decide, by decide⟩, readable_obj ?_⟩
  simp only [List.forall_mem_cons]
  refine ⟨Plain.string _, plain_strings (by simp [Value.str]),
    Value.plain_obj ?_, nofun⟩
  simp only [List.forall_mem_cons]
  exact ⟨Plain.nat fits, nofun⟩

theorem printable_messageStop : Printable Serve.messageStop := by
  refine ⟨_, _, rfl, ⟨by decide, by decide⟩, readable_obj ?_⟩
  simp only [List.forall_mem_cons]
  exact ⟨Plain.string _, nofun⟩

/-- The text of printable events is a transcript of their data. -/
theorem transcript_sseBody {serde : Serde} (lawful : serde.Lawful)
    {events : List Event} (printable : ∀ event ∈ events, Printable event) :
    Transcript serde (sseBody serde events) (events.map eventValue) := by
  have whole := transcript_events lawful
    (events.map fun event =>
      ((event.name.getD "").toList, eventValue event))
    (fun pair member => by
      rcases List.mem_map.mp member with ⟨event, listed, rfl⟩
      obtain ⟨name, value, rfl, one, -⟩ := printable event listed
      exact one)
    (fun pair member => by
      rcases List.mem_map.mp member with ⟨event, listed, rfl⟩
      obtain ⟨name, value, rfl, -, readable⟩ := printable event listed
      exact readable)
  rw [List.map_map, List.flatMap_map] at whole
  have lines :
      (events.flatMap fun event =>
          eventLines serde
            ((event.name.getD "").toList, eventValue event)) =
        events.flatMap (Event.lines serde) := by
    apply List.flatMap_congr
    intro event listed
    obtain ⟨name, value, rfl, -, -⟩ := printable event listed
    rfl
  rw [lines] at whole
  exact whole

/-! ## The blocks of the client -/

/-- What the client has of a block of the server. -/
def clientBlock (serde : Serde) (block : EventStream.Block) : SseBlock :=
  (block.pieces.map (deltaValue block.head.kind)).foldl SseBlock.delta
    (SseBlock.ofStart serde block.head.value)

theorem ownPieces_append (before after : List Step) (index : Nat) :
    ownPieces (before ++ after) index =
      ownPieces before index ++ ownPieces after index := by
  simp [ownPieces]

theorem ownPieces_mk (pieces : List Piece) (at_ index : Nat) :
    ownPieces (pieces.map (Step.mk at_)) index =
      if at_ = index then pieces else [] := by
  induction pieces with
  | nil => simp [ownPieces]
  | cons piece later ih =>
      rw [ownPieces] at ih
      by_cases here : at_ = index <;> simp_all [ownPieces]

theorem ownPieces_before (blocks : List EventStream.Block)
    {first index : Nat} (before : index < first) :
    ownPieces (blockSteps first blocks) index = [] := by
  induction blocks generalizing first with
  | nil => rfl
  | cons block later ih =>
      rw [blockSteps, ownPieces_append, ownPieces_mk,
        if_neg (by omega), ih (by omega)]
      rfl

theorem ownPieces_blockSteps (blocks : List EventStream.Block)
    (first offset : Nat) :
    ownPieces (blockSteps first blocks) (first + offset) =
      (blocks[offset]?.map blockPieces).getD [] := by
  induction blocks generalizing first offset with
  | nil => rfl
  | cons block later ih =>
      rw [blockSteps, ownPieces_append, ownPieces_mk]
      cases offset with
      | zero =>
          rw [if_pos (Nat.add_zero first).symm,
            ownPieces_before later (by omega), List.append_nil]
          rfl
      | succ offset =>
          rw [if_neg (by omega), List.nil_append,
            List.getElem?_cons_succ, ← ih (first + 1) offset]
          congr 1
          omega

theorem values_blockSteps (serde : Serde)
    (blocks : List EventStream.Block) :
    ((blockSteps 0 blocks).foldl (stepBlocks serde) []).map Prod.snd =
      blocks.map (clientBlock serde) := by
  apply (ascending_steps serde _ List.Pairwise.nil).values
  intro index
  have own := ownPieces_blockSteps blocks 0 index
  rw [Nat.zero_add] at own
  rw [find_steps, ownBlock_steps, own, List.getElem?_map]
  cases blocks[index]? with
  | none => rfl
  | some block =>
      have start := ownBlock_start serde block.head.value
        (block.pieces.map (deltaValue block.head.kind))
      rw [List.map_map] at start
      exact start

theorem said_deltaValue (kind : BlockKind) (piece : Text) :
    said "thinking_delta" "thinking" (deltaValue kind piece) =
        (if kind = .thinking then piece else []) ∧
      said "text_delta" "text" (deltaValue kind piece) =
        (if kind = .text then piece else []) ∧
      said "input_json_delta" "partial_json" (deltaValue kind piece) =
        if kind = .toolUse then piece else [] := by
  cases kind <;> simp [said, deltaValue, Value.type, strField]

/-- The steps say what the blocks say. -/
theorem said_blockSteps (blocks : List EventStream.Block) (first : Nat) :
    ((blockSteps first blocks).flatMap fun step => step.piece.thinking) =
        spoken .thinking blocks ∧
      ((blockSteps first blocks).flatMap fun step => step.piece.body) =
        spoken .text blocks := by
  induction blocks generalizing first with
  | nil => exact ⟨rfl, rfl⟩
  | cons block later ih =>
      obtain ⟨thinking, text⟩ := ih (first + 1)
      constructor
      · rw [blockSteps, List.flatMap_append, thinking]
        by_cases kind : block.head.kind = .thinking <;>
          simp [spoken, blockPieces, List.flatMap_map, Piece.thinking,
            said_deltaValue, kind, List.flatMap_id']
      · rw [blockSteps, List.flatMap_append, text]
        by_cases kind : block.head.kind = .text <;>
          simp [spoken, blockPieces, List.flatMap_map, Piece.body,
            said_deltaValue, kind, List.flatMap_id']

theorem told_json (pieces : List Text) :
    told "input_json_delta" "partial_json"
        (pieces.map (deltaValue .toolUse)) = pieces.flatten := by
  rw [told, List.flatMap_map]
  simp [said_deltaValue, List.flatMap_id']

/-- The call of the client has the empty input of the start in front of its
arguments. -/
theorem call_clientBlock {serde : Serde} (lawful : serde.Lawful)
    (block : EventStream.Block) :
    (clientBlock serde block).call serde =
      block.call.map fun call =>
        ⟨call.id, call.name,
          serde.print
            (match serde.parse ("{}".toList ++ call.arguments) with
            | .ok input => input
            | .error _ => .obj [])⟩ := by
  rcases block with ⟨head, pieces, carries⟩
  cases head with
  | thinking =>
      simp [clientBlock, foldl_delta, Head.value, SseBlock.ofStart,
        Value.type, SseBlock.call, Block.call]
  | text =>
      simp [clientBlock, foldl_delta, Head.value, SseBlock.ofStart,
        Value.type, SseBlock.call, Block.call]
  | toolUse id name =>
      have printed : serde.print (.obj []) = ['{', '}'] :=
        lawful.print_empty
      have json := told_json pieces
      rw [clientBlock, foldl_delta]
      simp only [Head.kind, json]
      simp [SseBlock.ofStart, Head.value, Value.type, SseBlock.call,
        Block.call, strField, printed]
      rfl

/-! ## What the client reads -/

def callsOf (events : List AnthropicEvent) : List ToolCall :=
  events.flatMap fun
    | .toolUse calls _ => calls
    | _ => []

def usagesOf (events : List AnthropicEvent) : List (Nat × Nat) :=
  events.filterMap fun
    | .usage inputTokens outputTokens => some (inputTokens, outputTokens)
    | _ => none

def donesOf (events : List AnthropicEvent) : List Text :=
  events.filterMap fun
    | .done stopReason => some stopReason
    | _ => none

/-- One generation: at most one event with tool calls, whose arguments are
objects, one with the counters, which are `u32`, and one that ends it. -/
structure Sendable (serde : Serde) (events : List GenEvent) : Prop where
  oneCalls : (callLists events).length ≤ 1
  objects : ∀ call ∈ toolCalls events,
    ∃ members, serde.parse call.arguments = .ok (.object members)
  oneUsage : (usages events).length = 1
  counters : ∀ usage ∈ usages events,
    usage.promptTokens < 2 ^ 32 ∧ usage.generatedTokens < 2 ^ 32
  oneStop : (stops events).length = 1

/-- The stream of the server as text. -/
def anthropicBody (serde : Serde) (millis : Nat) (model : Text)
    (events : List GenEvent) : Text :=
  sseBody serde (anthropicStreamChunks serde millis model events)

/-- A call with what its arguments read as. -/
def readCall (serde : Serde) (call : ToolCall) :
    Text × Text × Option Value :=
  (call.id, call.name, (serde.parse call.arguments).toOption)

/-- The client reads back what the events say. -/
structure ReadsBack (serde : Serde) (events : List GenEvent)
    (sse : List AnthropicEvent) : Prop where
  reasoning : reasoningOf sse = reasonings events
  text : textOf sse = texts events
  calls :
    (callsOf sse).map (readCall serde) =
      (toolCalls events).map (readCall serde)
  usage :
    usagesOf sse =
      (usages events).map fun usage =>
        (usage.promptTokens, usage.generatedTokens)
  stop : donesOf sse = [(anthropicStop (toolCalls events)).toList]

theorem length_blocks (index : Nat) (blocks : List EventStream.Block) :
    blocks.length ≤ (EventStream.blockEvents index blocks).length := by
  induction blocks generalizing index with
  | nil => exact Nat.zero_le _
  | cons block later ih =>
      have rest := ih (index + 1)
      rw [EventStream.blockEvents]
      simp only [List.length_append, List.length_cons]
      omega

/-- The empty input of a start and arguments do not read together. -/
theorem calls_blocks {serde : Serde} (lawful : serde.Lawful)
    {events : List GenEvent} (sendable : Sendable serde events)
    {blocks : List EventStream.Block} (carried : Carry blocks events) :
    (blocks.map (clientBlock serde)).filterMap (SseBlock.call serde) =
      (toolCalls events).map fun call =>
        ⟨call.id, call.name, "{}".toList⟩ := by
  have each :
      (blocks.map (clientBlock serde)).filterMap (SseBlock.call serde) =
        (toolCalls events).map fun call =>
          ⟨call.id, call.name,
            serde.print
              (match serde.parse ("{}".toList ++ call.arguments) with
              | .ok input => input
              | .error _ => .obj [])⟩ := by
    rw [← carried.calls, List.filterMap_map, List.map_filterMap]
    apply List.filterMap_congr
    intro block _
    exact call_clientBlock lawful block
  rw [each]
  apply List.map_congr_left
  intro call member
  obtain ⟨members, read⟩ := sendable.objects call member
  obtain ⟨error, trails⟩ := lawful.trailing _ _ read
  rw [trails]
  exact congrArg _ lawful.print_empty

theorem printable_stream {serde : Serde} (millis : Nat) (model : Text)
    {events : List GenEvent} (sendable : Sendable serde events)
    (small :
      (anthropicStreamChunks serde millis model events).length ≤ 2 ^ 64) :
    ∀ event ∈ anthropicStreamChunks serde millis model events,
      Printable event := by
  obtain ⟨blocks, stream, -⟩ :=
    anthropicStreamChunks_eq serde millis model events
  obtain ⟨usage, only⟩ := List.length_eq_one_iff.mp sendable.oneUsage
  have counts : tokenCounts events =
      (usage.promptTokens, usage.generatedTokens) := by
    rw [tokenCounts_eq, only]
    rfl
  obtain ⟨prompt, generated⟩ := sendable.counters usage (by
    rw [only]
    exact List.mem_singleton_self _)
  have few := length_blocks 0 blocks
  rw [stream] at small ⊢
  simp only [List.length_cons, List.length_append] at small
  rw [counts]
  intro event member
  rcases List.mem_cons.mp member with rfl | member
  · exact printable_messageStart _ _ (by omega)
  · rcases List.mem_append.mp member with block | last
    · exact printable_blocks blocks 0 (by omega) event block
    · rcases List.mem_cons.mp last with rfl | final
      · exact printable_messageDelta _ (by omega)
      · rw [List.mem_singleton.mp final]
        exact printable_messageStop

@[simp]
theorem callsOf_append (before after : List AnthropicEvent) :
    callsOf (before ++ after) = callsOf before ++ callsOf after := by
  simp [callsOf]

@[simp]
theorem usagesOf_append (before after : List AnthropicEvent) :
    usagesOf (before ++ after) = usagesOf before ++ usagesOf after := by
  simp [usagesOf]

@[simp]
theorem donesOf_append (before after : List AnthropicEvent) :
    donesOf (before ++ after) = donesOf before ++ donesOf after := by
  simp [donesOf]

theorem said_toolUse (calls : List ToolCall) (content : List Value) :
    callsOf (toolUseEvent calls content) = calls ∧
      usagesOf (toolUseEvent calls content) = [] ∧
      donesOf (toolUseEvent calls content) = [] := by
  rw [toolUseEvent]
  cases calls with
  | nil => exact ⟨rfl, rfl, rfl⟩
  | cons call later => simp [callsOf, usagesOf, donesOf]

/-- Steps only speak. -/
theorem steps_speak (steps : List Step) :
    ∀ event ∈ steps.flatMap Step.events,
      ∃ body, event = .reasoning body ∨ event = .text body := by
  have piece : ∀ (kind : Text → AnthropicEvent) (body : Option Text),
      ∀ event ∈ pieceEvent kind body, ∃ body, event = kind body := by
    intro kind body event member
    rcases body with _ | _ | ⟨char, more⟩
    · cases member
    · cases member
    · exact ⟨_, List.mem_singleton.mp member⟩
  intro event member
  rcases List.mem_flatMap.mp member with ⟨⟨index, block | delta⟩, _, sent⟩
  · cases sent
  · change event ∈ deltaEvents delta at sent
    rw [deltaEvents] at sent
    split at sent
    · obtain ⟨body, same⟩ := piece _ _ event sent
      exact ⟨body, Or.inl same⟩
    · obtain ⟨body, same⟩ := piece _ _ event sent
      exact ⟨body, Or.inr same⟩
    · cases sent

theorem speech_only {events : List AnthropicEvent}
    (speak : ∀ event ∈ events,
      ∃ body, event = .reasoning body ∨ event = .text body) :
    callsOf events = [] ∧ usagesOf events = [] ∧ donesOf events = [] := by
  refine ⟨?_, ?_, ?_⟩
  · apply List.flatMap_eq_nil_iff.mpr
    intro event member
    obtain ⟨body, rfl | rfl⟩ := speak event member <;> rfl
  · apply List.filterMap_eq_nil_iff.mpr
    intro event member
    obtain ⟨body, rfl | rfl⟩ := speak event member <;> rfl
  · apply List.filterMap_eq_nil_iff.mpr
    intro event member
    obtain ⟨body, rfl | rfl⟩ := speak event member <;> rfl

/-- A reply by its parts. -/
theorem said_reply {spoken : List AnthropicEvent}
    (speak : ∀ event ∈ spoken,
      ∃ body, event = .reasoning body ∨ event = .text body)
    (tokens : Nat) (calls : List ToolCall) (content : List Value)
    (stop : Text) :
    let sse :=
      spoken ++ [.usage 0 tokens] ++ toolUseEvent calls content ++
        [.done stop]
    reasoningOf sse = reasoningOf spoken ∧ textOf sse = textOf spoken ∧
      callsOf sse = calls ∧ usagesOf sse = [(0, tokens)] ∧
      donesOf sse = [stop] := by
  obtain ⟨noCalls, noUsage, noEnd⟩ := speech_only speak
  have usage :
      reasoningOf [.usage 0 tokens] = [] ∧ textOf [.usage 0 tokens] = [] ∧
        callsOf [.usage 0 tokens] = [] ∧
        usagesOf [.usage 0 tokens] = [(0, tokens)] ∧
        donesOf [.usage 0 tokens] = [] :=
    ⟨rfl, rfl, rfl, rfl, rfl⟩
  have ended :
      reasoningOf [.done stop] = [] ∧ textOf [.done stop] = [] ∧
        callsOf [.done stop] = [] ∧ usagesOf [.done stop] = [] ∧
        donesOf [.done stop] = [stop] :=
    ⟨rfl, rfl, rfl, rfl, rfl⟩
  simp only [reasoningOf_append, textOf_append, callsOf_append,
    usagesOf_append, donesOf_append, reasoningOf_toolUse, said_toolUse,
    usage, ended, noCalls, noUsage, noEnd, List.append_nil,
    List.nil_append, and_self]

theorem stops_messageDelta (stop : String) (tokens : Nat) :
    Stops stop.toList (eventValue (Serve.messageDelta stop tokens)) := by
  constructor <;>
    simp [eventValue, Serve.messageDelta, sse, Value.type]

/-- The `message_delta` of the server has the output tokens only. -/
theorem usage_messageDelta (stop : String) {tokens : Nat}
    (fits : tokens < 2 ^ 32) :
    ((eventValue (Serve.messageDelta stop tokens)).get "usage").map
        usageEvent =
      some (.usage 0 tokens) := by
  simpa [eventValue, Serve.messageDelta, sse, usageEvent, u32Field]
    using fits

theorem anthropicStop_ne (calls : List ToolCall) :
    (anthropicStop calls).toList ≠ "refusal".toList := by
  rw [anthropicStop]
  split <;> decide

/-- The text, the thinking and the end come through, but no arguments and no
prompt tokens. -/
theorem client_reads {serde : Serde} (lawful : serde.Lawful)
    (millis : Nat) (model : Text) {events : List GenEvent}
    (sendable : Sendable serde events)
    (small :
      (anthropicStreamChunks serde millis model events).length ≤ 2 ^ 64) :
    ∃ sse,
      parseSse serde (anthropicBody serde millis model events) = .ok sse ∧
        reasoningOf sse = reasonings events ∧
        textOf sse = texts events ∧
        callsOf sse = (toolCalls events).map (fun call =>
          ⟨call.id, call.name, "{}".toList⟩) ∧
        usagesOf sse =
          (usages events).map (fun usage => (0, usage.generatedTokens)) ∧
        donesOf sse = [(anthropicStop (toolCalls events)).toList] := by
  obtain ⟨blocks, stream, carried⟩ :=
    anthropicStreamChunks_eq serde millis model events
  have transcript :=
    transcript_sseBody lawful
      (printable_stream millis model sendable small)
  obtain ⟨usage, only⟩ := List.length_eq_one_iff.mp sendable.oneUsage
  obtain ⟨-, generated⟩ := sendable.counters usage (by
    rw [only]
    exact List.mem_singleton_self _)
  have counts : tokenCounts events =
      (usage.promptTokens, usage.generatedTokens) := by
    rw [tokenCounts_eq, only]
    rfl
  rw [stream, collect_calls sendable.oneCalls, counts, List.map_cons,
    List.map_append, ← List.cons_append] at transcript
  have sends :
      Sends
        (eventValue
            (Serve.messageStart (messageId millis) model
              usage.promptTokens) ::
          (EventStream.blockEvents 0 blocks).map eventValue)
        (blockSteps 0 blocks) :=
    Sends.idle (idle_messageStart _ _ _) (sends_blocks 0 blocks)
  have read :=
    parseSse_steps sends
      (stops_messageDelta (anthropicStop (toolCalls events))
        usage.generatedTokens)
      (anthropicStop_ne _)
      (by simp [eventValue, Serve.messageStop, sse, Value.type])
      transcript
  rw [anthropicBody, stream, collect_calls sendable.oneCalls, counts]
  have usageSent :=
    usage_messageDelta (anthropicStop (toolCalls events)) generated
  rw [usageSent] at read
  obtain ⟨thinking, text⟩ := said_blockSteps blocks 0
  rw [SseTools.calls, values_blockSteps,
    calls_blocks lawful sendable carried, Option.toList_some] at read
  obtain ⟨reasoning, body, calls, usages, ended⟩ :=
    said_reply (steps_speak (blockSteps 0 blocks)) usage.generatedTokens
      ((toolCalls events).map fun call =>
        ⟨call.id, call.name, "{}".toList⟩)
      ((blocks.map (clientBlock serde)).flatMap (SseBlock.content serde))
      (anthropicStop (toolCalls events)).toList
  refine ⟨_, read, ?_, ?_, calls, ?_, ended⟩
  · rw [reasoning, (said_events _).1, thinking, carried.thinking]
  · rw [body, (said_events _).2, text, carried.text]
  · rw [usages, only]
    rfl

/-- The prompt had no tokens and no call has any argument. -/
def NothingLost (serde : Serde) (events : List GenEvent) : Prop :=
  (∀ usage ∈ usages events, usage.promptTokens = 0) ∧
    ∀ call ∈ toolCalls events,
      serde.parse call.arguments = .ok (.object [])

/-- The empty object reads as itself. -/
theorem parse_empty {serde : Serde} (lawful : serde.Lawful) :
    serde.parse "{}".toList = .ok (.object []) := by
  rw [← lawful.print_empty]
  exact lawful.parse_print _ (Plain.object List.Pairwise.nil nofun)

/-- What the client has of the calls is right if they have no arguments. -/
theorem calls_readBack {serde : Serde} (lawful : serde.Lawful)
    (calls : List ToolCall) :
    ((calls.map fun call =>
        (⟨call.id, call.name, "{}".toList⟩ : ToolCall)).map
          (readCall serde) =
        calls.map (readCall serde)) ↔
      ∀ call ∈ calls, serde.parse call.arguments = .ok (.object []) := by
  rw [List.map_map, List.map_inj_left]
  apply forall₂_congr
  intro call _
  show (call.id, call.name, (serde.parse "{}".toList).toOption) =
    (call.id, call.name, (serde.parse call.arguments).toOption) ↔ _
  rw [parse_empty lawful]
  cases serde.parse call.arguments with
  | error error => simp [Except.toOption]
  | ok input => simp [Except.toOption, eq_comm]

/-- What the client has of the counters is right if the prompt had no
tokens. -/
theorem usages_readBack (usages : List Usage) :
    (usages.map (fun usage => (0, usage.generatedTokens)) =
        usages.map fun usage =>
          (usage.promptTokens, usage.generatedTokens)) ↔
      ∀ usage ∈ usages, usage.promptTokens = 0 := by
  rw [List.map_inj_left]
  apply forall₂_congr
  intro usage _
  rw [Prod.mk.injEq, and_iff_left rfl]
  exact eq_comm

/--
The client reads back the stream of the server exactly if the prompt had no
tokens and no call has any argument.
-/
theorem readsBack_iff {serde : Serde} (lawful : serde.Lawful)
    (millis : Nat) (model : Text) {events : List GenEvent}
    (sendable : Sendable serde events)
    (small :
      (anthropicStreamChunks serde millis model events).length ≤ 2 ^ 64) :
    (∃ sse,
        parseSse serde (anthropicBody serde millis model events) =
            .ok sse ∧
          ReadsBack serde events sse) ↔
      NothingLost serde events := by
  obtain ⟨sse, read, reasoning, text, calls, usages, stop⟩ :=
    client_reads lawful millis model sendable small
  constructor
  · rintro ⟨sse', read', back⟩
    have same : sse' = sse := Except.ok.inj (read'.symm.trans read)
    subst same
    have callsBack := back.calls
    have usagesBack := back.usage
    rw [calls, calls_readBack lawful] at callsBack
    rw [usages, usages_readBack] at usagesBack
    exact ⟨usagesBack, callsBack⟩
  · rintro ⟨noPrompt, noArguments⟩
    refine ⟨sse, read, reasoning, text, ?_, ?_, stop⟩
    · rw [calls]
      exact (calls_readBack lawful _).mpr noArguments
    · rw [usages]
      exact (usages_readBack _).mpr noPrompt

/-- A call with one argument, after a prompt of three tokens. -/
def callEvents : List GenEvent :=
  [.text "ok".toList,
    .toolCalls [⟨"c".toList, "f".toList, "\x7b\"a\":1\x7d".toList⟩],
    .usage ⟨3, 1, 0⟩, .done .eos]

theorem sendable_call : Sendable Codec.serde callEvents where
  oneCalls := by decide
  objects := by
    intro call member
    cases List.mem_singleton.mp member
    refine ⟨[(['a'], .nat 1)], ?_⟩
    have printed :
        Codec.print (.object [(['a'], .nat 1)]) = "\x7b\"a\":1\x7d".toList := by
      decide +kernel
    show Codec.parse "\x7b\"a\":1\x7d".toList = _
    rw [← printed]
    apply Codec.parse_print
    apply Plain.object (List.pairwise_singleton _ _)
    intro entry listed
    rw [List.mem_singleton.mp listed]
    exact Plain.nat (by decide)
  oneUsage := rfl
  counters := by decide
  oneStop := rfl

theorem small_call (model : Text) :
    (anthropicStreamChunks Codec.serde 0 model callEvents).length ≤
      2 ^ 64 := by
  have length :
      (anthropicStreamChunks Codec.serde 0 model callEvents).length = 9 :=
    rfl
  rw [length]
  decide

theorem readsBack_call :
    (∃ sse,
        parseSse Codec.serde
            (anthropicBody Codec.serde 0 "m".toList callEvents) =
            .ok sse ∧
          ReadsBack Codec.serde callEvents sse) ↔
      NothingLost Codec.serde callEvents :=
  readsBack_iff Codec.lawful 0 "m".toList sendable_call (small_call _)

/-- The client reports a prompt without tokens and a call without
arguments. -/
theorem call_lost :
    ¬ ∃ sse,
        parseSse Codec.serde
            (anthropicBody Codec.serde 0 "m".toList callEvents) =
            .ok sse ∧
          ReadsBack Codec.serde callEvents sse := by
  obtain ⟨sse, read, -, -, -, usages, -⟩ :=
    client_reads Codec.lawful 0 "m".toList sendable_call (small_call _)
  rintro ⟨sse', read', back⟩
  have same : sse' = sse := Except.ok.inj (read'.symm.trans read)
  have reported := back.usage
  rw [same, usages] at reported
  exact absurd reported (by decide)

end Runa.App.ClientReads
