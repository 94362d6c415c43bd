import Runa.App.DaemonProto

/-!
# Chat turns

The embedding of a chat turn of `runa/src/main.rs` as it is written twice, in
`chat_turn` for the line editor and in `tui_turn` for the full screen, with
the history it reads and records, and of `tool_loop` of `runa/src/mcp.rs`.
The engine, the daemon and the MCP servers are parameters.  What is drawn or
printed while a turn goes on is left out, but for the errors that end it.
-/

namespace Runa.App.Chat

open Runa.App.DaemonProto
open Runa.Core.Think
open Runa.Engine.Generate
open Runa.Engine.Requests
open Runa.Stream.Lines (trim)
open Runa.Stream.Utf8

/-! ## Tools -/

/-- The MCP servers of a session. -/
structure McpHub where
  toolsJson : Text
  call : ToolCall → Text

/-- `call` for `toolLoop`, with or without a hub. -/
def callWith (hub : Option McpHub) (call : ToolCall) : Text :=
  match hub with
  | some hub => hub.call call
  | none => "error: no MCP server offers ".toList ++ call.name

def noAnswer (maxRounds : Nat) : Text :=
  "no answer after ".toList ++ (toString maxRounds).toList ++
    " tool rounds (raise --max-tool-rounds)".toList

section

variable {State : Type} (maxRounds : Nat) (call : ToolCall → Text)
  (step : State → List (ToolCall × Text) →
    Except Text (List ToolCall) × State)

/-- The rounds that are left of `toolLoop`. -/
def toolRounds : Nat → List (ToolCall × Text) → State →
    Except Text Unit × State
  | 0, _, state => (.error (noAnswer maxRounds), state)
  | left + 1, results, state =>
    match step state results with
    | (.error error, state) => (.error error, state)
    | (.ok calls, state) =>
      if calls.isEmpty then (.ok (), state)
      else toolRounds left (calls.map fun made => (made, call made)) state

/-- Drive `step` until it answers without tool calls.  `step` receives the
previous round's calls with their outputs. -/
def toolLoop (state : State) : Except Text Unit × State :=
  toolRounds maxRounds call step (maxRounds + 1) [] state

end

/-- Answer the previous round's calls with `tool` messages. -/
def pushToolResults (messages : List ChatMessage)
    (results : List (ToolCall × Text)) : List ChatMessage :=
  messages ++ results.map fun (call, out) =>
    { role := "tool".toList
      content := out
      toolCalls := []
      toolCallId := some call.id }

/-- An `assistant` message. -/
def assistant (content : Text) (calls : List ToolCall) : ChatMessage where
  role := "assistant".toList
  content := content
  toolCalls := calls
  toolCallId := none

/-- Record the assistant turn that made tool calls; returns the calls. -/
def pushToolCalls (messages : List ChatMessage) (turn : LocalTurn) :
    List ChatMessage × List ToolCall :=
  (if turn.calls.isEmpty then messages
    else messages ++ [assistant turn.text turn.calls],
    turn.calls)

/-! ## History -/

/-- Rough token estimate for history trimming. -/
def estimateHistoryTokens (messages : List ChatMessage) : Nat :=
  (messages.map fun message => byteLen message.content / 4 + 4).sum

/-- `count_history_tokens` of a loaded model; no number where a text cannot
be tokenized. -/
def countHistoryTokens (tokens : Text → Option Nat)
    (messages : List ChatMessage) : Nat :=
  (messages.map fun message =>
    (tokens message.content).getD (byteLen message.content / 4) + 4).sum

/-- Which messages go at once: those in front of the next `user` message. -/
def cutLength (history : List ChatMessage) : Nat :=
  max 1
    (match (history.drop 1).findIdx? fun message =>
        message.role = "user".toList with
      | some index => index + 1
      | none => history.length - 1)

/-- The loop of `trimHistoryWith`, with what was dropped so far; every round
drops a message. -/
def trimFrom (budget : Nat) (count : List ChatMessage → Nat) :
    Nat → List ChatMessage → Nat → List ChatMessage × Nat
  | 0, history, dropped => (history, dropped)
  | left + 1, history, dropped =>
    if 1 < history.length ∧ budget < count history then
      trimFrom budget count left (history.drop (cutLength history))
        (dropped + cutLength history)
    else (history, dropped)

/-- Drop oldest turns while `count` exceeds `budget`; also how many messages
were dropped. -/
def trimHistoryWith (history : List ChatMessage) (budget : Nat)
    (count : List ChatMessage → Nat) : List ChatMessage × Nat :=
  trimFrom budget count history.length history 0

/-- A loaded model, by its tokenizer where it shows one. -/
inductive LocalEngine where
  | gguf (tokens : Text → Option Nat)
  | mistral

/-- Chat-time engine; `daemon none` has every turn served by the daemon. -/
inductive ChatEngine where
  | managed (engine : LocalEngine)
  | daemon (loaded : Option (Text → Option Nat))

/-- History size for this turn. -/
def historyTokens : ChatEngine → List ChatMessage → Nat
  | .managed (.gguf tokens) => countHistoryTokens tokens
  | .managed .mistral => estimateHistoryTokens
  | .daemon (some tokens) => countHistoryTokens tokens
  | .daemon none => estimateHistoryTokens

/-! ## Sessions -/

/-- The session, with the fields that a turn reads or writes. -/
structure Session where
  path : Text
  ctx : UInt32
  history : List ChatMessage
  think : ThinkConfig
  lastUsage : Option Usage
  hub : Option McpHub
  maxToolRounds : UInt32

/-- About three quarters of the context. -/
def budget (session : Session) : Nat :=
  session.ctx.toNat * 3 / 4

/-- The history with new user input, trimmed; also how many messages that
dropped. -/
def trimmed (session : Session) (input : Text) (engine : ChatEngine) :
    List ChatMessage × Nat :=
  trimHistoryWith (session.history ++ [.user input]) (budget session)
    (historyTokens engine)

/-- Start the next turn's messages; they become the history. -/
def turnMessages (session : Session) (input : Text) (engine : ChatEngine) :
    List ChatMessage × Session :=
  let messages := (trimmed session input engine).1
  (messages, { session with history := messages })

/-- The final answer as a message, unless it is blank. -/
def answerMessage (answer : Text) : List ChatMessage :=
  if (trim answer).isEmpty then [] else [assistant answer []]

/-- Record a finished turn. -/
def commitHistory (session : Session) (sent : List ChatMessage)
    (answer : Text) : Session :=
  { session with history := sent ++ answerMessage answer }

/-! ## Turns -/

/-- What a turn finds outside: whether the environment asks for the kernel
sampler, what the engine makes of the request of each round, and what the
daemon makes of one. -/
structure Outside where
  kernelSampler : Bool
  generate : Nat → GenerateRequest →
    Except Text (List (Except Text GenEvent))
  daemonGenerate : Text → GenerateRequest → Except Text (List DaemonEvent)

def turnRequest (outside : Outside) (session : Session)
    (messages : List ChatMessage) : GenerateRequest :=
  { GenerateRequest.default outside.kernelSampler with
    messages := messages
    maxTokens := 512
    think := session.think
    tools := session.hub.map McpHub.toolsJson }

/-- What the closure of a turn writes to, and how many requests it made. -/
structure Turning where
  request : GenerateRequest
  usage : Option Usage
  answer : Text
  rounds : Nat

def Turning.withMessages (turning : Turning) (messages : List ChatMessage) :
    Turning :=
  { turning with request := { turning.request with messages := messages } }

/-- The request of a round is made. -/
def Turning.ask (turning : Turning) (outside : Outside)
    (results : List (ToolCall × Text)) :
    Except Text (List (Except Text GenEvent)) × Turning :=
  let asked := turning.withMessages
    (pushToolResults turning.request.messages results)
  (outside.generate turning.rounds asked.request,
    { asked with rounds := turning.rounds + 1 })

/-- One round of `chatTurn`. -/
def chatStep (outside : Outside) (turning : Turning)
    (results : List (ToolCall × Text)) :
    Except Text (List ToolCall) × Turning :=
  let (reply, turning) := turning.ask outside results
  match reply.bind drainLocal with
  | .error error => (.error error, turning)
  | .ok turn =>
    let (messages, calls) := pushToolCalls turning.request.messages turn
    let turning := turning.withMessages messages
    (.ok calls,
      { turning with
        usage := turn.usage.or turning.usage
        answer := turn.text })

/-- The events of one round of `tuiTurn`. -/
def tuiEvents : Turning → List ToolCall → List (Except Text GenEvent) →
    Except Text (List ToolCall) × Turning
  | turning, calls, [] => (.ok calls, turning)
  | turning, _, .error error :: _ => (.error error, turning)
  | turning, calls, .ok event :: later =>
    match event with
    | .text piece =>
      tuiEvents { turning with answer := turning.answer ++ piece } calls
        later
    | .reasoning _ => tuiEvents turning calls later
    | .usage counted =>
      tuiEvents { turning with usage := some counted } calls later
    | .toolCalls made => tuiEvents turning made later
    | .done _ => tuiEvents turning calls later

/-- One round of `tuiTurn`. -/
def tuiStep (outside : Outside) (turning : Turning)
    (results : List (ToolCall × Text)) :
    Except Text (List ToolCall) × Turning :=
  let (reply, turning) := turning.ask outside results
  match reply with
  | .error error => (.error error, turning)
  | .ok stream =>
    match tuiEvents turning [] stream with
    | (.error error, turning) => (.error error, turning)
    | (.ok calls, turning) =>
      (.ok calls,
        if calls.isEmpty then turning
        else
          turning.withMessages
            (turning.request.messages ++ [assistant [] calls]))

/-- A turn with a model of its own, by its rounds; the errors are those that
are shown. -/
def localTurn
    (step : Turning → List (ToolCall × Text) →
      Except Text (List ToolCall) × Turning)
    (session : Session) (request : GenerateRequest) : Session × List Text :=
  let (done, turning) :=
    toolLoop session.maxToolRounds.toNat (callWith session.hub) step
      ⟨request, none, [], 0⟩
  let session :=
    { session with lastUsage := turning.usage.or session.lastUsage }
  match done with
  | .ok () =>
    (commitHistory session turning.request.messages turning.answer, [])
  | .error error => (session, [error])

def daemonHint (error : Text) : Text :=
  "daemon: ".toList ++ error ++
    "\n(hint: restart `runa daemon`, or chat with --no-daemon)".toList

/-- One turn of the line editor. -/
def chatTurn (outside : Outside) (engine : ChatEngine) (input : Text)
    (session : Session) : Session × List Text :=
  let (messages, session) := turnMessages session input engine
  let request := turnRequest outside session messages
  match engine with
  | .managed _ => localTurn (chatStep outside) session request
  | .daemon none =>
    match outside.daemonGenerate session.path request with
    | .error error => (session, [daemonHint error])
    | .ok events =>
      match drainDaemon events with
      | .error error => (session, [error])
      | .ok turn =>
        let session := commitHistory session request.messages turn.text
        ({ session with lastUsage := turn.usage }, [])
  | .daemon (some _) => localTurn (chatStep outside) session request

/-- What one event of the daemon does to the screen's turn: its counters, the
answer, and the errors that are shown. -/
def tuiReceive (shown : Option Usage × Text × List Text) :
    DaemonEvent → Option Usage × Text × List Text
  | .text body => (shown.1, shown.2.1 ++ body, shown.2.2)
  | .reasoning _ => shown
  | .toolCalls _ => shown
  | .usage counted => (some counted, shown.2)
  | .done _ => shown
  | .error message => (shown.1, shown.2.1, shown.2.2 ++ [message])

/-- One turn of the full screen. -/
def tuiTurn (outside : Outside) (engine : ChatEngine) (input : Text)
    (session : Session) : Session × List Text :=
  let (messages, session) := turnMessages session input engine
  let request := turnRequest outside session messages
  match engine with
  | .managed _ => localTurn (tuiStep outside) session request
  | .daemon none =>
    match outside.daemonGenerate session.path request with
    | .error error => (session, ["daemon: ".toList ++ error])
    | .ok events =>
      let (usage, answer, errors) :=
        events.foldl tuiReceive (none, [], [])
      let session :=
        { session with lastUsage := usage.or session.lastUsage }
      (commitHistory session request.messages answer, errors)
  | .daemon (some _) => localTurn (tuiStep outside) session request

end Runa.App.Chat
