import Runa.App.Chat
import Runa.Cloud.Anthropic
import Runa.Cloud.AnthropicBody

/-!
# Runs against a cloud model

The embedding of the two conversations of `run_cloud` of `runa/src/cloud.rs`,
with `Reply`, `drain_openai` and `drain_anthropic`, around the tool loop of
`mcp.rs`, and of the messages of `runa-cloud/src/openai.rs`.  The OpenAI
client and the HTTP side of the Anthropic client, with its retries, are
parameters, which may answer by all that they were sent so far.  A run
remembers what it sent, which the program does not record.
-/

namespace Runa.App.CloudRun

open Runa.App.Chat (McpHub callWith toolLoop)
open Runa.Cloud.Anthropic
open Runa.Cloud.AnthropicBody
open Runa.Core.Think
open Runa.Engine.Generate (ToolCall)
open Runa.Json
open Runa.Stream.Utf8

/-! ## Messages -/

inductive AudioFormat where
  | wav
  | mp3
deriving DecidableEq

structure AudioInput where
  dataB64 : Text
  format : AudioFormat
deriving DecidableEq

/-- One turn sent to the cloud model. -/
structure ChatMessage where
  role : Text
  content : Text
  images : List Text
  audio : List AudioInput
  toolCalls : List ToolCall
  toolCallId : Option Text
deriving DecidableEq

def ChatMessage.user (content : Text) (audio : List AudioInput) :
    ChatMessage where
  role := "user".toList
  content := content
  images := []
  audio := audio
  toolCalls := []
  toolCallId := none

structure ChatRequest where
  model : Text
  messages : List ChatMessage
  think : ThinkConfig
  maxTokens : Option UInt32
  jsonSchema : Option Value
  tools : Option Value

inductive CloudEvent where
  | reasoning (body : Text)
  | text (body : Text)
  | toolCalls (calls : List ToolCall)
  | usage (promptTokens completionTokens : UInt32)
deriving DecidableEq

/-! ## The reply of a run -/

/-- Answer text, reasoning and token counts summed over tool rounds. -/
structure Reply where
  text : Text
  reasoning : Text
  inputTokens : UInt32
  outputTokens : UInt32
deriving DecidableEq

def Reply.default : Reply where
  text := []
  reasoning := []
  inputTokens := 0
  outputTokens := 0

def Reply.addText (reply : Reply) (text : Text) : Reply :=
  { reply with
    text :=
      if reply.text ≠ [] ∧ text ≠ [] then reply.text ++ '\n' :: text
      else reply.text ++ text }

/-! ## OpenAI -/

/-- One event of a round, for its text, its calls and the reply. -/
def openaiEvent (state : Text × List ToolCall × Reply) :
    CloudEvent → Text × List ToolCall × Reply
  | .text body => (state.1 ++ body, state.2)
  | .reasoning body =>
      (state.1, state.2.1,
        { state.2.2 with reasoning := state.2.2.reasoning ++ body })
  | .toolCalls calls => (state.1, calls, state.2.2)
  | .usage promptTokens completionTokens =>
      (state.1, state.2.1,
        { state.2.2 with
          inputTokens := state.2.2.inputTokens + promptTokens
          outputTokens := state.2.2.outputTokens + completionTokens })

/-- One round's answer text and tool calls; the rest goes to the reply. -/
def drainOpenai (events : List CloudEvent) (reply : Reply) :
    Text × List ToolCall × Reply :=
  events.foldl openaiEvent ([], [], reply)

/-- A run, with what it has sent. -/
structure OpenAiRun where
  request : ChatRequest
  reply : Reply
  sent : List ChatRequest

def toolMessage (result : ToolCall × Text) : ChatMessage where
  role := "tool".toList
  content := result.2
  images := []
  audio := []
  toolCalls := []
  toolCallId := some result.1.id

def callsMessage (text : Text) (calls : List ToolCall) : ChatMessage where
  role := "assistant".toList
  content := text
  images := []
  audio := []
  toolCalls := calls
  toolCallId := none

def ChatRequest.push (request : ChatRequest)
    (messages : List ChatMessage) : ChatRequest :=
  { request with messages := request.messages ++ messages }

/-- A round of the tool loop. -/
def openaiStep
    (complete : List ChatRequest → Except Text (List CloudEvent))
    (run : OpenAiRun) (results : List (ToolCall × Text)) :
    Except Text (List ToolCall) × OpenAiRun :=
  let request := run.request.push (results.map toolMessage)
  let sent := run.sent ++ [request]
  match complete sent with
  | .error error => (.error error, { run with request, sent })
  | .ok events =>
      let drained := drainOpenai events run.reply
      (.ok drained.2.1,
        { request :=
            if drained.2.1.isEmpty then request
            else request.push [callsMessage drained.1 drained.2.1]
          reply := drained.2.2.addText drained.1
          sent := sent })

/-- The conversation of a run, from its first request. -/
def runOpenai
    (complete : List ChatRequest → Except Text (List CloudEvent))
    (hub : Option McpHub) (maxToolRounds : Nat) (request : ChatRequest) :
    Except Text Unit × OpenAiRun :=
  toolLoop maxToolRounds (callWith hub) (openaiStep complete)
    ⟨request, .default, []⟩

/-! ## Anthropic -/

/-- What a round of the Anthropic conversation comes to. -/
structure Drained where
  text : Text
  toolUse : Option (List ToolCall × Value)
  reply : Reply

def anthropicEvent (state : Drained) :
    AnthropicEvent → Except Text Drained
  | .text body => .ok { state with text := state.text ++ body }
  | .reasoning body =>
      .ok { state with
        reply :=
          { state.reply with
            reasoning := state.reply.reasoning ++ body } }
  | .toolUse calls content =>
      .ok { state with toolUse := some (calls, content) }
  | .usage inputTokens outputTokens =>
      .ok { state with
        reply :=
          { state.reply with
            inputTokens := state.reply.inputTokens + .ofNat inputTokens
            outputTokens :=
              state.reply.outputTokens + .ofNat outputTokens } }
  | .refusal message => .error ("refusal: ".toList ++ message)
  | .done _ => .ok state

def drainAnthropic (events : List AnthropicEvent) (reply : Reply) :
    Except Text Drained :=
  events.foldlM anthropicEvent ⟨[], none, reply⟩

/-- Name of the forced tool that carries structured output. -/
def answerTool : Text := "answer".toList

structure AnthropicRun where
  request : AnthropicRequest
  reply : Reply
  sent : List AnthropicRequest

def AnthropicRequest.push (request : AnthropicRequest)
    (turns : List ChatTurn) : AnthropicRequest :=
  { request with messages := request.messages ++ turns }

/-- `AnthropicClient::generate` without streaming: the body of each request
is posted. -/
def generate (serde : Serde) (post : List Value → Except Text Text)
    (sent : List AnthropicRequest) :
    Except Text (List AnthropicEvent) := do
  parseMessage serde (← post (sent.map buildBody))

def resultTurn (results : List (ToolCall × Text)) : ChatTurn :=
  .toolResults (results.map fun result => (result.1.id, result.2))

def blocksTurn (content : Value) : ChatTurn where
  role := "assistant".toList
  text := []
  blocks := some content

/-- A round of the tool loop, structured or not. -/
def anthropicStep (serde : Serde) (post : List Value → Except Text Text)
    (structured : Bool) (run : AnthropicRun)
    (results : List (ToolCall × Text)) :
    Except Text (List ToolCall) × AnthropicRun :=
  let request :=
    if results.isEmpty then run.request
    else AnthropicRequest.push run.request [resultTurn results]
  let sent := run.sent ++ [request]
  match do drainAnthropic (← generate serde post sent) run.reply with
  | .error error => (.error error, { run with request, sent })
  | .ok drained =>
      let reply := drained.reply.addText drained.text
      match drained.toolUse with
      | none => (.ok [], { request, reply, sent })
      | some (calls, content) =>
          if structured then
            let answer := calls.find? fun call => call.name = answerTool
            (.ok [],
              { request
                reply :=
                  reply.addText
                    ((answer.map ToolCall.arguments).getD [])
                sent })
          else
            (.ok calls,
              { request := AnthropicRequest.push request [blocksTurn content]
                reply
                sent })

def runAnthropic (serde : Serde) (post : List Value → Except Text Text)
    (structured : Bool) (hub : Option McpHub) (maxToolRounds : Nat)
    (request : AnthropicRequest) : Except Text Unit × AnthropicRun :=
  toolLoop maxToolRounds (callWith hub) (anthropicStep serde post structured)
    ⟨request, .default, []⟩

/-- The first request of a run without a schema. -/
def firstRequest (model prompt : Text) (think : ThinkConfig)
    (maxTokens : UInt32) (tools : List Value) : AnthropicRequest where
  model := model
  system := none
  messages := [.ofText "user".toList prompt]
  think := think
  maxTokens := maxTokens
  images := []
  pdfs := []
  stream := false
  tools := tools
  toolChoice := none

/-- The first request of a run with a schema: one tool, and it is forced. -/
def structuredRequest (model prompt : Text) (think : ThinkConfig)
    (maxTokens : UInt32) (schema : Value) : AnthropicRequest :=
  { firstRequest model prompt { think with mode := .off } maxTokens
      [.obj [("name", .string answerTool),
        ("description", .str "Reply with the answer in this shape."),
        ("input_schema", schema)]] with
    toolChoice :=
      some (.obj [("type", .str "tool"), ("name", .string answerTool)]) }

end Runa.App.CloudRun
