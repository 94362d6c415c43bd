import Runa.Bytes.Lossy
import Runa.Engine.Requests

/-!
# The daemon protocol

The embedding of `runa/src/daemon_proto.rs`, of `serve_conn` and
`serve_request` of `runa/src/daemon.rs`, and of `drain_daemon` and
`drain_local` of `runa/src/main.rs`.  Client and daemon exchange one JSON
value a line over a socket that carries bytes.  `serde_json` is a parameter,
the `Codec`; so is what the daemon asks of its memory manager and its pool.
-/

namespace Runa.App.DaemonProto

open Runa.Bytes.Lossy (fromUtf8Lossy)
open Runa.Core.Think
open Runa.Engine.Generate
open Runa.Engine.Requests
open Runa.Engine.Sampling
open Runa.Stream.Lines (trim)
open Runa.Stream.Utf8

/-! ## Requests on the wire -/

def protocolVersion : UInt32 := 1

/-- One function call, mirroring `ToolCall`. -/
structure ProtoToolCall where
  id : Text
  name : Text
  arguments : Text
deriving DecidableEq, Repr

def ProtoToolCall.ofToolCall (call : ToolCall) : ProtoToolCall where
  id := call.id
  name := call.name
  arguments := call.arguments

def ProtoToolCall.toToolCall (call : ProtoToolCall) : ToolCall where
  id := call.id
  name := call.name
  arguments := call.arguments

/-- One chat message, mirroring `ChatMessage`. -/
structure ProtoMessage where
  role : Text
  content : Text
  toolCalls : List ProtoToolCall
  toolCallId : Option Text
deriving DecidableEq, Repr

def ProtoMessage.ofMessage (message : ChatMessage) : ProtoMessage where
  role := message.role
  content := message.content
  toolCalls := message.toolCalls.map .ofToolCall
  toolCallId := message.toolCallId

def ProtoMessage.toMessage (message : ProtoMessage) : ChatMessage where
  role := message.role
  content := message.content
  toolCalls := message.toolCalls.map ProtoToolCall.toToolCall
  toolCallId := message.toolCallId

/-- Sampling parameters, mirroring `SamplingConfig`. -/
structure ProtoSampling where
  temperature : Rat
  topK : Int
  topP : Rat
  minP : Rat
  repeatPenalty : Rat
  repeatLastN : Int
  seed : UInt32
deriving DecidableEq, Repr

def ProtoSampling.ofConfig (config : SamplingConfig) : ProtoSampling where
  temperature := config.temperature
  topK := config.topK
  topP := config.topP
  minP := config.minP
  repeatPenalty := config.repeatPenalty
  repeatLastN := config.repeatLastN
  seed := config.seed

def ProtoSampling.toConfig (config : ProtoSampling) : SamplingConfig where
  temperature := config.temperature
  topK := config.topK
  topP := config.topP
  minP := config.minP
  repeatPenalty := config.repeatPenalty
  repeatLastN := config.repeatLastN
  seed := config.seed
  kernelSampler := false

/-- Thinking mode, mirroring `ThinkMode`. -/
inductive ProtoThinkMode where
  | off
  | on
  | budget (tokens grace : UInt32)
  | effort (value : Text)
deriving DecidableEq, Repr

def ProtoThinkMode.fromMode : ThinkMode → ProtoThinkMode
  | .off => .off
  | .on => .on
  | .budget tokens grace => .budget tokens grace
  | .effort value => .effort value.name

def ProtoThinkMode.intoMode : ProtoThinkMode → Except Text ThinkMode
  | .off => .ok .off
  | .on => .ok .on
  | .budget tokens grace => .ok (.budget tokens grace)
  | .effort value => (Effort.parse value).map .effort

/-- Thinking config, mirroring `ThinkConfig`. -/
structure ProtoThink where
  mode : ProtoThinkMode
  «show» : Bool
deriving DecidableEq, Repr

def ProtoThink.ofConfig (think : ThinkConfig) : ProtoThink where
  mode := .fromMode think.mode
  «show» := think.show

def ProtoThink.intoConfig (think : ProtoThink) : Except Text ThinkConfig :=
  think.mode.intoMode.map fun mode => ⟨mode, think.show⟩

/-- Serializable subset of `GenerateRequest` (no media, no speculation). -/
structure ProtoGenerateRequest where
  messages : List ProtoMessage
  sampling : ProtoSampling
  maxTokens : UInt32
  stop : List Text
  addGenerationPrompt : Bool
  think : ProtoThink
  jsonSchema : Option Text
  grammar : Option Text
  tools : Option Text
  toolChoice : Option Text
deriving DecidableEq, Repr

def ProtoGenerateRequest.fromGenerate (request : GenerateRequest) :
    ProtoGenerateRequest where
  messages := request.messages.map .ofMessage
  sampling := .ofConfig request.sampling
  maxTokens := request.maxTokens
  stop := request.stop
  addGenerationPrompt := request.addGenerationPrompt
  think := .ofConfig request.think
  jsonSchema := request.jsonSchema
  grammar := request.grammar
  tools := request.tools
  toolChoice := request.toolChoice

def ProtoGenerateRequest.intoGenerate (request : ProtoGenerateRequest) :
    Except Text GenerateRequest :=
  request.think.intoConfig.map fun think =>
    { messages := request.messages.map ProtoMessage.toMessage
      sampling := request.sampling.toConfig
      maxTokens := request.maxTokens
      stop := request.stop
      addGenerationPrompt := request.addGenerationPrompt
      think := think
      audioPcm := none
      images := []
      speculative := .default
      jsonSchema := request.jsonSchema
      grammar := request.grammar
      tools := request.tools
      toolChoice := request.toolChoice }

/-- One client → daemon line: which model to generate with plus what. -/
structure DaemonRequest where
  v : UInt32
  model : Text
  request : ProtoGenerateRequest
deriving DecidableEq, Repr

def DaemonRequest.new (model : Text) (request : GenerateRequest) :
    DaemonRequest where
  v := protocolVersion
  model := model
  request := .fromGenerate request

/-! ## Events on the wire -/

/-- One daemon → client line.  The stream ends at `done` or `error`. -/
inductive DaemonEvent where
  | text (body : Text)
  | reasoning (body : Text)
  | toolCalls (calls : List ProtoToolCall)
  | usage (counted : Usage)
  | done (stop : Text)
  | error (message : Text)
deriving DecidableEq, Repr

def stopName : StopReason → Text
  | .eos => "eos".toList
  | .maxTokens => "max_tokens".toList
  | .stopString matched => "stop:".toList ++ matched

/-- Parse a `stop:` line back (client side). -/
def parseStop (text : Text) : StopReason :=
  if text = "eos".toList then .eos
  else if text = "max_tokens".toList then .maxTokens
  else if "stop:".toList.isPrefixOf text then
    .stopString (text.drop "stop:".toList.length)
  else .maxTokens

/-- Map one engine event; empty pieces are dropped. -/
def DaemonEvent.fromGenEvent : GenEvent → Option DaemonEvent
  | .text body => if body.isEmpty then none else some (.text body)
  | .reasoning body => if body.isEmpty then none else some (.reasoning body)
  | .toolCalls calls =>
    if calls.isEmpty then none
    else some (.toolCalls (calls.map .ofToolCall))
  | .usage counted => some (.usage counted)
  | .done reason => some (.done (stopName reason))

/-- Terminal line: `done` stops, `error` fails the request. -/
def DaemonEvent.isTerminal : DaemonEvent → Bool
  | .done _ => true
  | .error _ => true
  | _ => false

/-! ## Lines -/

/-- `encode_line` and `decode_line` at the two types of a line. -/
structure Codec where
  encodeRequest : DaemonRequest → Except Text Text
  decodeRequest : Text → Except Text DaemonRequest
  encodeEvent : DaemonEvent → Except Text Text
  decodeEvent : Text → Except Text DaemonEvent

/-- `str::as_bytes` -/
def bytesOf (text : Text) : List UInt8 :=
  Runa.Bytes.Lossy.encode text

/-- The text that has these bytes, if there is one. -/
def textOf (bytes : List UInt8) : Option Text :=
  let text := fromUtf8Lossy bytes
  if bytesOf text = bytes then some text else none

/-- The bytes up to each line feed, and those behind the last one. -/
def rawLines (line : List UInt8) : List UInt8 → List (List UInt8)
  | [] => if line.isEmpty then [] else [line]
  | byte :: rest =>
    if byte = 10 then (line ++ [byte]) :: rawLines [] rest
    else rawLines (line ++ [byte]) rest

/-- `read_line` until the end of the file; no text where the bytes of a line
are no UTF-8. -/
def readLines (bytes : List UInt8) : List (Option Text) :=
  (rawLines [] bytes).map textOf

/-- The line feed and the carriage returns at the end are popped. -/
def popReturns (line : Text) : Text :=
  line.rdropWhile fun char => char = '\n' || char = '\r'

/-- `write_line` -/
def lineBytes (line : Text) : List UInt8 :=
  bytesOf (line ++ ['\n'])

/-! ## The daemon -/

/-- What a request asks of the memory manager and of the pool. -/
structure Daemon (State : Type) where
  /-- `touch` and `on_heavy` -/
  touched : State → State
  resolveOrInsert : State → Text → Except Text Text × State
  generate : State → Text → GenerateRequest →
    Except Text (List GenEvent) × State

section

variable {State : Type} (codec : Codec) (daemon : Daemon State)

def badRequest (error : Text) : DaemonEvent :=
  .error ("bad request: ".toList ++ error)

def wrongVersion (v : UInt32) : DaemonEvent :=
  .error
    ("protocol v".toList ++ (toString v).toList ++ " != daemon v".toList ++
      (toString protocolVersion).toList ++ "; upgrade runa".toList)

/-- The events of a finished generation, with a stop behind them if there is
none. -/
def served (events : List GenEvent) : List DaemonEvent :=
  let out := events.filterMap DaemonEvent.fromGenEvent
  if out.any DaemonEvent.isTerminal then out
  else out ++ [.done "max_tokens".toList]

/-- One NDJSON request line → the full event stream (always terminal). -/
def serveRequest (state : State) (line : Text) : List DaemonEvent × State :=
  match codec.decodeRequest line with
  | .error error => ([badRequest error], state)
  | .ok request =>
    if request.v ≠ protocolVersion then ([wrongVersion request.v], state)
    else
      match request.request.intoGenerate with
      | .error error => ([badRequest error], state)
      | .ok generate =>
        match daemon.resolveOrInsert (daemon.touched state)
            request.model with
        | (.error error, state) => ([.error error], state)
        | (.ok id, state) =>
          match daemon.generate state id generate with
          | (.ok events, state) => (served events, state)
          | (.error error, state) => ([.error error], state)

/-- The lines that are written up to the first terminal one, and the error
that ends the connection before that. -/
def writeEvents : List DaemonEvent → List Text × Option Text
  | [] => ([], none)
  | event :: later =>
    match codec.encodeEvent event with
    | .error error => ([], some error)
    | .ok line =>
      if event.isTerminal then ([line], none)
      else
        let (lines, failed) := writeEvents later
        (line :: lines, failed)

/-- The loop of `serve_conn` over what the client sends. -/
def serveLines : State → List (Option Text) → List Text × Option Text
  | _, [] => ([], none)
  | _, none :: _ => ([], some "stream did not contain valid UTF-8".toList)
  | state, some raw :: later =>
    let line := popReturns raw
    if (trim line).isEmpty then serveLines state later
    else
      let (events, state) := serveRequest codec daemon state line
      match writeEvents codec events with
      | (lines, some error) => (lines, some error)
      | (lines, none) =>
        let (more, failed) := serveLines state later
        (lines ++ more, failed)

/-- What a connection sends back, and the error that ends it. -/
def serveConn (state : State) (sent : List UInt8) :
    List UInt8 × Option Text :=
  let (lines, failed) := serveLines codec daemon state (readLines sent)
  (lines.flatMap lineBytes, failed)

end

/-! ## The client -/

/-- The events up to the first terminal one. -/
def collect (codec : Codec) :
    List (Option Text) → Except Text (List DaemonEvent)
  | [] => .error "daemon closed the connection".toList
  | none :: _ =>
    .error "daemon read: stream did not contain valid UTF-8".toList
  | some raw :: later =>
    match codec.decodeEvent (trim raw) with
    | .error error => .error error
    | .ok event =>
      if event.isTerminal then .ok [event]
      else (collect codec later).map (event :: ·)

/-- Send one request over a connection, collect events until `done`. -/
def requestSync (codec : Codec) (connection : List UInt8 → List UInt8)
    (request : DaemonRequest) : Except Text (List DaemonEvent) :=
  match codec.encodeRequest request with
  | .error error => .error error
  | .ok line => collect codec (readLines (connection (lineBytes line)))

/-- One local generation, drained. -/
structure LocalTurn where
  text : Text
  calls : List ToolCall
  usage : Option Usage
  reason : StopReason
deriving DecidableEq, Repr

def LocalTurn.empty : LocalTurn where
  text := []
  calls := []
  usage := none
  reason := .maxTokens

/-- One event of the daemon; an `error` fails the turn. -/
def LocalTurn.receive (turn : LocalTurn) : DaemonEvent →
    Except Text LocalTurn
  | .text body => .ok { turn with text := turn.text ++ body }
  | .reasoning _ => .ok turn
  | .toolCalls calls =>
    .ok { turn with calls := calls.map ProtoToolCall.toToolCall }
  | .usage counted => .ok { turn with usage := some counted }
  | .done stop => .ok { turn with reason := parseStop stop }
  | .error message => .error message

def drainDaemon (events : List DaemonEvent) : Except Text LocalTurn :=
  events.foldlM LocalTurn.receive .empty

/-- One event of the engine. -/
def LocalTurn.take (turn : LocalTurn) : GenEvent → LocalTurn
  | .text piece => { turn with text := turn.text ++ piece }
  | .reasoning _ => turn
  | .usage counted => { turn with usage := some counted }
  | .toolCalls calls => { turn with calls := calls }
  | .done reason => { turn with reason := reason }

/-- Drain a generation; its first failure fails the turn. -/
def drainLocal (stream : List (Except Text GenEvent)) :
    Except Text LocalTurn :=
  stream.foldlM
    (fun turn event => event.map fun event => turn.take event) .empty

end Runa.App.DaemonProto
