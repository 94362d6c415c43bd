import Runa.Engine.Generate
import Runa.Json.Value
import Runa.Stream.Lines

/-!
# Replies of the server

The embedding of the four functions of `runa/src/serve.rs` which turn the
events of a finished generation into a reply: `stream_chunks` and
`non_stream_body` for the OpenAI route, `anthropic_stream_chunks` and
`anthropic_message_body` for the Anthropic one.  The time of the call is a
parameter.
-/

namespace Runa.App.Serve

open Runa.Stream.Utf8
open Runa.Stream.Lines (unlines)
open Runa.Engine.Generate
open Runa.Json

/-! ## Server-sent events -/

/-- What `Event::data` is given: a printed value, or a fixed text. -/
inductive Payload where
  | json (value : Value)
  | raw (text : Text)

/-- `axum::response::sse::Event` with the two fields the server sets. -/
structure Event where
  name : Option String
  data : Payload

def Payload.text (serde : Serde) : Payload → Text
  | .json value => serde.print value
  | .raw text => text

/-- The lines an event is sent as; no payload of the server has more than one
line. -/
def Event.lines (serde : Serde) (event : Event) : List Text :=
  (event.name.map fun name => "event: ".toList ++ name.toList).toList ++
    ["data: ".toList ++ event.data.text serde, []]

/-- The body of a streamed response. -/
def sseBody (serde : Serde) (events : List Event) : Text :=
  unlines (events.flatMap (Event.lines serde))

/-! ## The OpenAI route -/

/-- `completion_id`, at a time in milliseconds since 1970 -/
def completionId (millis : Nat) : Text :=
  "chatcmpl-".toList ++ (toString millis).toList

/-- One entry of `openai_tool_calls`. -/
def openaiToolCall (indexed : Bool) (position : Nat) (call : ToolCall) :
    Value :=
  let value :=
    Value.obj
      [("id", .string call.id), ("type", .str "function"),
        ("function",
          .obj
            [("name", .string call.name),
              ("arguments", .string call.arguments)])]
  if indexed then value.set "index" (.nat position) else value

/-- OpenAI `tool_calls` entries; `index` is only set on stream deltas. -/
def openaiToolCalls (calls : List ToolCall) (indexed : Bool) : Value :=
  .array (calls.mapIdx (openaiToolCall indexed))

def hasToolCalls (events : List GenEvent) : Bool :=
  events.any fun
    | .toolCalls calls => !calls.isEmpty
    | _ => false

/-- The `delta` of an event, if `stream_chunks` sends one for it. -/
def chunkDelta : GenEvent → Option Value
  | .text body =>
    if body.isEmpty then none else some (.obj [("content", .string body)])
  | .reasoning body =>
    if body.isEmpty then none
    else some (.obj [("reasoning_content", .string body)])
  | .toolCalls calls =>
    if calls.isEmpty then none
    else some (.obj [("tool_calls", openaiToolCalls calls true)])
  | _ => none

/-- A `chat.completion.chunk`. -/
def chunk (id model : Text) (delta finish : Value) : Event where
  name := none
  data :=
    .json (.obj
      [("id", .string id), ("object", .str "chat.completion.chunk"),
        ("model", .string model),
        ("choices",
          .array
            [.obj
              [("index", .nat 0), ("delta", delta),
                ("finish_reason", finish)]])])

def streamChunks (millis : Nat) (model : Text) (events : List GenEvent) :
    List Event :=
  let id := completionId millis
  let finish :=
    if hasToolCalls events then Value.str "tool_calls" else .str "stop"
  (events.filterMap chunkDelta).map (fun delta => chunk id model delta .null)
    ++ [chunk id model (.obj []) finish, ⟨none, .raw "[DONE]".toList⟩]

/-- What the two whole replies collect over the events. -/
structure Collected where
  text : Text
  thinking : Text
  calls : List ToolCall
  usage : Option Usage

/-- One turn of the loops of `non_stream_body` and of
`anthropic_message_body`, which are the same. -/
def Collected.step (found : Collected) : GenEvent → Collected
  | .text body => { found with text := found.text ++ body }
  | .reasoning body => { found with thinking := found.thinking ++ body }
  | .toolCalls calls => { found with calls := calls }
  | .usage usage => { found with usage := some usage }
  | .done _ => found

def collect (events : List GenEvent) : Collected :=
  events.foldl Collected.step ⟨[], [], [], none⟩

/-- The `message` of `non_stream_body`. -/
def openaiMessage (found : Collected) : Value :=
  let message :=
    Value.obj [("role", .str "assistant"), ("content", .string found.text)]
  let message :=
    if found.thinking.isEmpty then message
    else message.set "reasoning_content" (.string found.thinking)
  if found.calls.isEmpty then message
  else
    let message :=
      message.set "tool_calls" (openaiToolCalls found.calls false)
    if found.text.isEmpty then message.set "content" .null else message

/-- The `usage` of `non_stream_body`. -/
def openaiUsage (usage : Usage) : Value :=
  .obj
    [("prompt_tokens", .nat usage.promptTokens),
      ("completion_tokens", .nat usage.generatedTokens),
      ("total_tokens",
        .nat ((usage.promptTokens + usage.generatedTokens) % 2 ^ 32)),
      ("completion_tokens_details",
        .obj [("reasoning_tokens", .nat usage.reasoningTokens.toNat)])]

def nonStreamBody (millis : Nat) (model : Text) (events : List GenEvent) :
    Value :=
  let found := collect events
  .obj
    [("id", .string (completionId millis)),
      ("object", .str "chat.completion"), ("model", .string model),
      ("choices",
        .array
          [.obj
            [("index", .nat 0), ("message", openaiMessage found),
              ("finish_reason",
                if found.calls.isEmpty then .str "stop"
                else .str "tool_calls")]]),
      ("usage", (found.usage.map openaiUsage).getD .null)]

/-! ## The Anthropic route -/

/-- The `id` of both replies: the digits of `completion_id`. -/
def messageId (millis : Nat) : Text :=
  "msg-".toList ++ (toString millis).toList

def anthropicStop (calls : List ToolCall) : String :=
  if calls.isEmpty then "end_turn" else "tool_use"

/-- Anthropic `tool_use` block; arguments that are not JSON become `{}`. -/
def toolUseBlock (serde : Serde) (call : ToolCall) : Value :=
  .obj
    [("type", .str "tool_use"), ("id", .string call.id),
      ("name", .string call.name),
      ("input",
        match serde.parse call.arguments with
        | .ok input => input
        | .error _ => .obj [])]

/-- The `content` of `anthropic_message_body`. -/
def anthropicContent (serde : Serde) (found : Collected) : List Value :=
  (if found.thinking.isEmpty then []
    else
      [.obj
        [("type", .str "thinking"), ("thinking", .string found.thinking)]])
    ++ (if !found.text.isEmpty || found.calls.isEmpty then
        [.obj [("type", .str "text"), ("text", .string found.text)]]
      else [])
    ++ found.calls.map (toolUseBlock serde)

def anthropicMessageBody (serde : Serde) (millis : Nat) (model : Text)
    (events : List GenEvent) : Value :=
  let found := collect events
  .obj
    [("id", .string (messageId millis)), ("type", .str "message"),
      ("role", .str "assistant"), ("model", .string model),
      ("content", .array (anthropicContent serde found)),
      ("stop_reason", .str (anthropicStop found.calls)),
      ("usage",
        match found.usage with
        | some usage =>
          .obj
            [("input_tokens", .nat usage.promptTokens),
              ("output_tokens", .nat usage.generatedTokens)]
        | none => .null)]

/-- `sse`: the data is named by its own type. -/
def sse (name : String) (data : Value) : Event :=
  ⟨some name, .json data⟩

/-- The kind of the block that is open. -/
inductive BlockKind where
  | thinking
  | text
  | toolUse
deriving DecidableEq, Repr

/-- The variables of the loop of `anthropic_stream_chunks`.  A reply has
fewer than `2^32` tokens and so the `u32` index stays in its range. -/
structure Stream where
  out : List Event
  idx : Nat
  opened : Option BlockKind
  calls : List ToolCall

def blockStart (idx : Nat) (block : Value) : Event :=
  sse "content_block_start"
    (.obj
      [("type", .str "content_block_start"), ("index", .nat idx),
        ("content_block", block)])

def blockDelta (idx : Nat) (delta : Value) : Event :=
  sse "content_block_delta"
    (.obj
      [("type", .str "content_block_delta"), ("index", .nat idx),
        ("delta", delta)])

def blockStop (idx : Nat) : Event :=
  sse "content_block_stop"
    (.obj [("type", .str "content_block_stop"), ("index", .nat idx)])

/-- The closure `stop`: close the block that is open, if one is. -/
def Stream.stop (stream : Stream) : Stream :=
  match stream.opened with
  | some _ =>
    { stream with
      out := stream.out ++ [blockStop stream.idx]
      idx := stream.idx + 1
      opened := none }
  | none => stream

/-- The inner loop: a tool call is a block of its own, with the arguments in
one `input_json_delta`. -/
def Stream.toolCall (serde : Serde) (stream : Stream) (call : ToolCall) :
    Stream :=
  Stream.stop
    { stream with
      out := stream.out ++
        [blockStart stream.idx
            ((toolUseBlock serde call).set "input" (.obj [])),
          blockDelta stream.idx
            (.obj
              [("type", .str "input_json_delta"),
                ("partial_json", .string call.arguments)])]
      opened := some .toolUse }

/-- A delta of a thinking or text block, which is opened first unless it is
the one that is open. -/
def Stream.piece (stream : Stream) (kind : BlockKind) (block delta : Value) :
    Stream :=
  let ready :=
    if stream.opened = some kind then stream
    else
      let closed := stream.stop
      { closed with
        out := closed.out ++ [blockStart closed.idx block]
        opened := some kind }
  { ready with out := ready.out ++ [blockDelta ready.idx delta] }

/-- One turn of the loop of `anthropic_stream_chunks`. -/
def Stream.step (serde : Serde) (stream : Stream) : GenEvent → Stream
  | .reasoning body =>
    if body.isEmpty then stream
    else
      stream.piece .thinking
        (.obj [("type", .str "thinking"), ("thinking", .str "")])
        (.obj
          [("type", .str "thinking_delta"), ("thinking", .string body)])
  | .text body =>
    if body.isEmpty then stream
    else
      stream.piece .text (.obj [("type", .str "text"), ("text", .str "")])
        (.obj [("type", .str "text_delta"), ("text", .string body)])
  | .toolCalls calls =>
    calls.foldl (Stream.toolCall serde) ({ stream with calls }).stop
  | _ => stream

/-- The counters of the first `Usage`, zero if there is none. -/
def tokenCounts (events : List GenEvent) : Nat × Nat :=
  (events.findSome? fun
    | .usage usage => some (usage.promptTokens, usage.generatedTokens)
    | _ => none).getD (0, 0)

def messageStart (id model : Text) (inputTokens : Nat) : Event :=
  sse "message_start"
    (.obj
      [("type", .str "message_start"),
        ("message",
          .obj
            [("id", .string id), ("type", .str "message"),
              ("role", .str "assistant"), ("model", .string model),
              ("content", .array []), ("stop_reason", .null),
              ("usage",
                .obj
                  [("input_tokens", .nat inputTokens),
                    ("output_tokens", .nat 0)])])])

def messageDelta (stop : String) (outputTokens : Nat) : Event :=
  sse "message_delta"
    (.obj
      [("type", .str "message_delta"),
        ("delta", .obj [("stop_reason", .str stop)]),
        ("usage", .obj [("output_tokens", .nat outputTokens)])])

def messageStop : Event :=
  sse "message_stop" (.obj [("type", .str "message_stop")])

def anthropicStreamChunks (serde : Serde) (millis : Nat) (model : Text)
    (events : List GenEvent) : List Event :=
  let counts := tokenCounts events
  let start := messageStart (messageId millis) model counts.1
  let stream :=
    (events.foldl (Stream.step serde) ⟨[start], 0, none, []⟩).stop
  stream.out ++ [messageDelta (anthropicStop stream.calls) counts.2,
    messageStop]

end Runa.App.Serve
