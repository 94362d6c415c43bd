import Runa.Engine.Generate
import Runa.Json.Value
import Runa.Stream.Lines

/-!
# The Anthropic client

The embedding of the two readers of `runa-cloud/src/anthropic.rs`:
`parse_message` for a whole reply and `parse_sse` for a streamed one, which
rebuilds the content blocks from their deltas.
-/

namespace Runa.Cloud.Anthropic

open Runa.Stream.Utf8
open Runa.Stream.Lines
open Runa.Engine.Generate (ToolCall)
open Runa.Json
open Runa.Store

inductive AnthropicEvent where
  | reasoning (body : Text)
  | text (body : Text)
  /-- The calls, and the content blocks of the whole reply. -/
  | toolUse (calls : List ToolCall) (content : Value)
  | usage (inputTokens outputTokens : Nat)
  | done (stopReason : Text)
  | refusal (message : Text)

/-- A counter of the reply as a `u32`, zero if it is not there. -/
def u32Field (value : Value) (key : String) : Nat :=
  ((value.get key).bind Value.asU64).getD 0 % 2 ^ 32

def usageEvent (usage : Value) : AnthropicEvent :=
  .usage (u32Field usage "input_tokens") (u32Field usage "output_tokens")

/-- A string member, empty if it is not there. -/
def strField (value : Value) (key : String) : Text :=
  ((value.get key).bind Value.asStr).getD []

/-- A piece of text as an event, unless it is empty. -/
def pieceEvent (event : Text → AnthropicEvent) (piece : Option Text) :
    List AnthropicEvent :=
  match piece with
  | some [] => []
  | some (char :: more) => [event (char :: more)]
  | none => []

/-! ## A whole reply -/

/-- What `parse_message` sends for a block right away. -/
def blockEvents (block : Value) : List AnthropicEvent :=
  match block.type with
  | some "thinking" =>
    pieceEvent .reasoning ((block.get "thinking").bind Value.asStr)
  | some "text" => pieceEvent .text ((block.get "text").bind Value.asStr)
  | _ => []

/-- The call of a block, if it is one. -/
def blockCall (serde : Serde) (block : Value) : Option ToolCall :=
  match block.type with
  | some "tool_use" =>
    some
      { id := strField block "id"
        name := strField block "name"
        arguments :=
          match block.get "input" with
          | some input => serde.print input
          | none => "{}".toList }
  | _ => none

/-- The event with all calls, if there are any. -/
def toolUseEvent (calls : List ToolCall) (content : List Value) :
    List AnthropicEvent :=
  if calls.isEmpty then [] else [.toolUse calls (.array content)]

/-- The first text of some events. -/
def firstText (events : List AnthropicEvent) : Option Text :=
  events.findSome? fun
    | .text body => some body
    | _ => none

def parseMessage (serde : Serde) (text : Text) :
    Except Text (List AnthropicEvent) := do
  let value ← serde.parse text
  let content :=
    match (value.get "content").bind Value.asArray with
    | some blocks =>
      blocks.flatMap blockEvents ++
        toolUseEvent (blocks.filterMap (blockCall serde)) blocks
    | none => []
  let usage := ((value.get "usage").map usageEvent).toList
  let out := content ++ usage
  let stop :=
    ((value.get "stop_reason").bind Value.asStr).getD "end_turn".toList
  let out :=
    if stop = "refusal".toList then
      out ++ [.refusal ((firstText out).getD [])]
    else out
  return out ++ [.done stop]

/-! ## The blocks of a stream -/

structure SseBlock where
  kind : String
  id : Text
  name : Text
  text : Text
  signature : Text
  json : Text

structure SseTools where
  blocks : List (Nat × SseBlock)
  flushed : Bool

/-- The block that `start` makes of the one announced. -/
def SseBlock.ofStart (serde : Serde) (block : Value) : SseBlock :=
  let kind := block.type.getD ""
  if kind = "tool_use" then
    -- Some servers inline the whole input up front.
    let json := ((block.get "input").map serde.print).getD []
    { kind, id := strField block "id", name := strField block "name"
      text := [], signature := []
      json := if json = "null".toList then [] else json }
  else { kind, id := [], name := [], text := [], signature := [], json := [] }

/-- `SseTools::start` -/
def SseTools.start (serde : Serde) (tools : SseTools) (index : Nat)
    (block : Value) : SseTools :=
  { tools with
    blocks :=
      Ordered.put index (SseBlock.ofStart serde block) tools.blocks }

/-- What a delta does to its block. -/
def SseBlock.delta (block : SseBlock) (delta : Value) : SseBlock :=
  match delta.type with
  | some "input_json_delta" =>
    { block with json := block.json ++ strField delta "partial_json" }
  | some "thinking_delta" =>
    { block with text := block.text ++ strField delta "thinking" }
  | some "signature_delta" =>
    { block with signature := block.signature ++ strField delta "signature" }
  | some "text_delta" =>
    { block with text := block.text ++ strField delta "text" }
  | _ => block

/-- `SseTools::delta` -/
def SseTools.delta (tools : SseTools) (index : Nat) (delta : Value) :
    SseTools :=
  match Ordered.find index tools.blocks with
  | none => tools
  | some block =>
    { tools with
      blocks := Ordered.put index (block.delta delta) tools.blocks }

/-- The input of a call; what does not read is `{}`. -/
def SseBlock.input (serde : Serde) (block : SseBlock) : Value :=
  match serde.parse block.json with
  | .ok input => input
  | .error _ => .obj []

/-- The content blocks `flush` makes of a block. -/
def SseBlock.content (serde : Serde) (block : SseBlock) : List Value :=
  match block.kind with
  | "tool_use" =>
    [.obj
      [("type", .str "tool_use"), ("id", .string block.id),
        ("name", .string block.name), ("input", block.input serde)]]
  | "thinking" =>
    let value :=
      Value.obj
        [("type", .str "thinking"), ("thinking", .string block.text)]
    if block.signature.isEmpty then [value]
    else [value.set "signature" (.string block.signature)]
  | "text" =>
    if block.text.isEmpty then []
    else [.obj [("type", .str "text"), ("text", .string block.text)]]
  | _ => []

/-- The call `flush` makes of a block. -/
def SseBlock.call (serde : Serde) (block : SseBlock) : Option ToolCall :=
  match block.kind with
  | "tool_use" =>
    some ⟨block.id, block.name, serde.print (block.input serde)⟩
  | _ => none

/-- `SseTools::flush`: all blocks in the order of their indices, once. -/
def SseTools.flush (serde : Serde) (tools : SseTools) :
    List AnthropicEvent × SseTools :=
  if tools.flushed || tools.blocks.isEmpty then ([], tools)
  else
    let blocks := tools.blocks.map Prod.snd
    (toolUseEvent (blocks.filterMap (SseBlock.call serde))
        (blocks.flatMap (SseBlock.content serde)),
      { tools with flushed := true })

/-! ## A streamed reply -/

/-- What was sent so far, and the blocks. -/
structure SseState where
  out : List AnthropicEvent
  tools : SseTools

def isDone : AnthropicEvent → Bool
  | .done _ => true
  | _ => false

/-- A `content_block_delta`.  Fragments of a call and of a signature do not
get into the text. -/
def SseState.blockDelta (state : SseState) (index : Option Nat)
    (delta : Value) : SseState :=
  let tools :=
    match index with
    | some index => state.tools.delta index delta
    | none => state.tools
  let silent :=
    index.isSome &&
      (delta.type = some "input_json_delta" ||
        delta.type = some "signature_delta")
  let events :=
    if silent then []
    else
      match delta.type with
      | some "thinking_delta" =>
        pieceEvent .reasoning ((delta.get "thinking").bind Value.asStr)
      | some "text_delta" =>
        pieceEvent .text ((delta.get "text").bind Value.asStr)
      | _ => []
  ⟨state.out ++ events, tools⟩

/-- A `message_delta`: the counters, and the calls ahead of the end. -/
def SseState.messageDelta (serde : Serde) (state : SseState)
    (value : Value) : SseState :=
  let out := state.out ++ ((value.get "usage").map usageEvent).toList
  match ((value.get "delta").bind (·.get "stop_reason")).bind
      Value.asStr with
  | none => { state with out }
  | some stop =>
    let out := if stop = "refusal".toList then out ++ [.refusal []] else out
    let (calls, tools) := state.tools.flush serde
    ⟨out ++ calls ++ [.done stop], tools⟩

/-- `push_sse_event`, once the data is read. -/
def SseState.value (serde : Serde) (state : SseState) (value : Value) :
    SseState :=
  let index := (value.get "index").bind Value.asU64
  match value.type with
  | some "content_block_start" =>
    match index, value.get "content_block" with
    | some index, some block =>
      { state with tools := state.tools.start serde index block }
    | _, _ => state
  | some "content_block_delta" =>
    match value.get "delta" with
    | some delta => state.blockDelta index delta
    | none => state
  | some "message_delta" => state.messageDelta serde value
  | some "message_stop" =>
    if state.out.any isDone then state
    else { state with out := state.out ++ [.done "end_turn".toList] }
  | _ => state

def pushSseEvent (serde : Serde) (data : Text) (state : SseState) :
    Except Text SseState :=
  if trim data = [] ∨ trim data = "[DONE]".toList then .ok state
  else do
    let value ← serde.parse data
    return state.value serde value

/-- The rest of a `data:` line. -/
def dataField : Text → Option Text
  | 'd' :: 'a' :: 't' :: 'a' :: ':' :: rest => some rest
  | _ => none

/-- One turn of the loop over the lines. -/
def sseLine (serde : Serde) (held : Text × SseState) (line : Text) :
    Except Text (Text × SseState) :=
  match dataField line with
  | some rest =>
    .ok
      ((if held.1.isEmpty then held.1 else held.1 ++ ['\n']) ++
          trimStart rest,
        held.2)
  | none =>
    if line.isEmpty && !held.1.isEmpty then do
      let state ← pushSseEvent serde held.1 held.2
      return ([], state)
    else .ok held

def parseSse (serde : Serde) (text : Text) :
    Except Text (List AnthropicEvent) := do
  let (data, state) ←
    (lines text).foldlM (sseLine serde) ([], ⟨[], ⟨[], false⟩⟩)
  let state ←
    if data.isEmpty then pure state else pushSseEvent serde data state
  -- A transcript cut before `message_delta` still yields its calls.
  return state.out ++ (state.tools.flush serde).1

end Runa.Cloud.Anthropic
