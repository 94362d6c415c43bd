import Runa.App.ChatSetup
import Runa.Core.ThinkText

/-!
# Slash commands

The embedding of the two loops of a chat in `runa/src/main.rs`, for the line
editor and for the full screen, with the commands that each has:
`chat_command` and `execute_tui_slash` (with `parse_slash` of
`runa/src/tui.rs`).  The file system, the models and the daemon are what an
input finds around it; they may be others at the next input.  The prompt
cache that a reload attaches, which cannot fail there, and the status bar are
left out.
-/

namespace Runa.App.Commands

open Runa.App.Chat
open Runa.App.ChatSetup
open Runa.App.Config (message resolveThreads)
open Runa.App.Loading
open Runa.App.Pool (BackendKind Path)
open Runa.Core.Think
open Runa.Core.ThinkText
open Runa.Engine.Generate
open Runa.Engine.Placements
open Runa.Stream.Lines (trim)
open Runa.Stream.Utf8
open Runa.Stream.Words

/-! ## What commands work on -/

inductive Mode where
  | cpu
  | gpu
  | hybrid
deriving DecidableEq, Repr

def Mode.parse (text : Text) : Option Mode :=
  if text = "cpu".toList then some .cpu
  else if text = "gpu".toList then some .gpu
  else if text = "hybrid".toList then some .hybrid
  else none

/-- `Placement::from_mode` -/
def Mode.placement : Mode → Placement
  | .cpu => .cpu
  | .gpu => .gpu
  | .hybrid => .hybridMoe

def readMode (text : Text) : Except Text Mode :=
  match Mode.parse text with
  | some mode => .ok mode
  | none =>
    .error (message [text, ": --mode must be cpu | gpu | hybrid".toList])

/-- The placements of the modes are those that a chat begins with. -/
theorem parseMode_eq (text : Text) :
    parseMode text = (readMode text).map Mode.placement := by
  unfold parseMode readMode Mode.parse
  split_ifs <;> rfl

/-- A session with the fields that only a reload reads, the engine, and the
path and the mode as the loop keeps them beside the session. -/
structure Chatting where
  session : Session
  backend : BackendKind
  sessionMode : Mode
  threads : Option Int
  loras : List LoraSpec
  rpcServers : List Text
  engine : ChatEngine
  path : Path
  mode : Mode

/-- `cmd_chat` up to its loop, with what a reload needs. -/
def openChat (machine : ChatMachine) (args : ChatArgs) :
    Except Text Chatting := do
  let (engine, session) ← cmdChat machine args
  let backend ← chatBackend args
  let rpcServers ← args.rpc.mapM parseRpcList
  let mode ← readMode args.mode
  let loras ← resolveLoras machine.std args.lora (args.model.getD [])
    machine.files
  let threads ← resolveThreads args.threads machine.env machine.files
  return {
    session := session
    backend := backend
    sessionMode := mode
    threads := threads
    loras := loras
    rpcServers := rpcServers.getD []
    engine := engine
    path := session.path
    mode := mode }

/-- What an input finds around it. -/
structure Around where
  machine : ChatMachine
  /-- `reset_context` of a loaded model -/
  resetContext : Except Text Unit
  /-- `format_usage` -/
  formatUsage : Usage → Text
  outside : Outside

/-- What an input leaves and shows, and whether the session ends. -/
structure Done where
  chat : Chatting
  shown : List Text
  result : Except Text Bool

section

variable (around : Around) (chat : Chatting)

/-- `Session::placement` -/
def placement : Placement :=
  { chat.sessionMode.placement with rpcServers := chat.rpcServers }

def loadConfig : LoadConfig :=
  { LoadConfig.default with
    nCtx := chat.session.ctx
    loras := chat.loras
    threads := chat.threads }

/-- `LocalEngine::load` -/
def loadEngine (kind : BackendKind) : Except Text LocalEngine := do
  around.machine.load kind chat.path (placement chat) (loadConfig chat)
  return if kind = .mistral then .mistral
    else .gguf (around.machine.tokens chat.path)

def reload : Except Text ChatEngine := do
  let kind ← resolveRequested around.machine.view around.machine.mistralrs
    chat.backend chat.path
  let fresh ← loadEngine around chat kind
  return .managed fresh

def reloadLocal : Except Text ChatEngine := do
  around.machine.load .gguf chat.path (placement chat) (loadConfig chat)
  return .daemon (some (around.machine.tokens chat.path))

/-- A session goes on with a fresh engine, or ends; what is shown before and
behind the load. -/
def reloaded (fresh : Except Text ChatEngine) (before behind : List Text) :
    Done :=
  match fresh with
  | .ok engine =>
    ⟨{ chat with engine := engine }, before ++ behind, .ok false⟩
  | .error error => ⟨chat, before, .error error⟩

def withMode (mode : Mode) : Chatting :=
  { chat with mode := mode, sessionMode := mode }

def withModel (path : Path) : Chatting :=
  { chat with
    path := path
    session := { chat.session with path := path, history := [] } }

def withThink (think : ThinkConfig) : Chatting :=
  { chat with session := { chat.session with think := think } }

def cleared : Chatting :=
  { chat with session := { chat.session with history := [] } }

/-- What `/reset` asks of the engine. -/
def resetEngine : Except Text Unit :=
  match chat.engine with
  | .managed .mistral => .ok ()
  | .managed (.gguf _) => around.resetContext
  | .daemon none => .ok ()
  | .daemon (some _) => around.resetContext

/-- The setting that the arguments of `/think` ask for. -/
def rethink (args : Text) : Except Text ThinkConfig := do
  let overrides ← ThinkOverrides.fromSlashArgs around.machine.std.quoted args
  chat.session.think.apply overrides

def shownThink (think : ThinkConfig) : Text :=
  "think: ".toList ++ ThinkConfig.display think

def shownUsage : Text :=
  match chat.session.lastUsage with
  | some usage => around.formatUsage usage
  | none => "(no turn yet)".toList

def unknown (name : Text) : Text :=
  message ["unknown command /".toList, name,
    " — /help lists commands".toList]

def modeUsage : Text := "usage: /mode <cpu|gpu|hybrid>".toList

def modelUsage : Text := "usage: /model <local-path>".toList

def clearedNote : List Text :=
  if chat.session.history.isEmpty then []
  else ["(history cleared: new model)".toList]

def slashHelp : List Text :=
  ["/mode <cpu|gpu|hybrid>  reload with a placement".toList,
    "/model <path>           load another local model".toList,
    ("/think [on|off|budget N|effort L|show|hide]  thinking " ++
      "(P3.1)").toList,
    "/reset                  clear KV cache + history".toList,
    "/usage                  show last turn counters".toList,
    "/quit                   leave".toList]

/-! ## The line editor -/

/-- `/mode` of the line editor -/
def commandMode (raw : Text) : Done :=
  match chat.engine with
  | .managed .mistral =>
    ⟨chat, [("(the mistral backend manages devices itself; " ++
      "mode is gguf-only)").toList], .ok false⟩
  | .managed (.gguf _) =>
    match readMode raw with
    | .error error => ⟨chat, [], .error error⟩
    | .ok mode =>
      reloaded (withMode chat mode) (reload around (withMode chat mode)) [] []
  | .daemon loaded =>
    match readMode raw with
    | .error error => ⟨chat, [], .error error⟩
    | .ok mode =>
      match loaded with
      | some _ =>
        reloaded (withMode chat mode)
          (reloadLocal around (withMode chat mode)) [] []
      | none =>
        ⟨withMode chat mode,
          [message [("/mode is owned by `runa daemon` in this session; " ++
            "restart the daemon with --mode ").toList, raw,
            " to change it".toList]],
          .ok false⟩

/-- `/model` of the line editor -/
def commandModel (raw : Text) : Done :=
  match around.machine.resolveModel raw with
  | .error error => ⟨chat, [], .error error⟩
  | .ok path =>
    let moved := withModel chat path
    match chat.engine with
    | .managed _ =>
      reloaded moved (reload around moved) (clearedNote chat) []
    | .daemon (some _) =>
      reloaded moved (reloadLocal around moved) (clearedNote chat) []
    | .daemon none =>
      ⟨moved, clearedNote chat ++
        [message ["model: ".toList, path,
          " (daemon loads on next turn)".toList]],
        .ok false⟩

/-- `/think` of the line editor -/
def commandThink (rest : Text) : Done :=
  if rest.isEmpty then
    ⟨chat, [shownThink chat.session.think], .ok false⟩
  else
    match rethink around chat rest with
    | .error error => ⟨chat, [], .error error⟩
    | .ok think => ⟨withThink chat think, [shownThink think], .ok false⟩

/-- `/reset` of either front end -/
def commandReset : Done :=
  match resetEngine around chat with
  | .error error => ⟨chat, [], .error error⟩
  | .ok () => ⟨cleared chat, ["(context cleared)".toList], .ok false⟩

def chatCommand (input : Text) : Done :=
  let parts := splitWhitespace (input.drop 1)
  let name := parts.headD []
  if name = "quit".toList ∨ name = "exit".toList ∨ name = "q".toList then
    ⟨chat, [], .ok true⟩
  else if name = "help".toList then
    ⟨chat, slashHelp ++
      ["end a line with \\ to continue it (multi-line paste)".toList],
      .ok false⟩
  else if name = "mode".toList then
    match parts.tail with
    | raw :: _ => commandMode around chat raw
    | [] => ⟨chat, [], .error modeUsage⟩
  else if name = "model".toList then
    match parts.tail with
    | raw :: _ => commandModel around chat raw
    | [] => ⟨chat, [], .error modelUsage⟩
  else if name = "think".toList then
    commandThink around chat (joined ' ' parts.tail)
  else if name = "reset".toList then commandReset around chat
  else if name = "usage".toList then
    ⟨chat, [shownUsage around chat], .ok false⟩
  else ⟨chat, [unknown name], .ok false⟩

/-- What is typed, when a line does not go on. -/
def editorInput (input : Text) : Done :=
  if trim input = [] then ⟨chat, [], .ok false⟩
  else if input.head? = some '/' then chatCommand around chat input
  else
    let (session, errors) :=
      chatTurn around.outside chat.engine input chat.session
    ⟨{ chat with session := session }, errors, .ok false⟩

end

/-- How a session stands after some inputs. -/
inductive Ending where
  | open
  | quit
  | failed (error : Text)
deriving DecidableEq

structure Outcome where
  chat : Chatting
  shown : List Text
  ending : Ending

/-- A session goes on behind an input unless that ends it. -/
def Done.next (done : Done) (rest : Chatting → Outcome) : Outcome :=
  match done.result with
  | .error error => ⟨done.chat, done.shown, .failed error⟩
  | .ok true => ⟨done.chat, done.shown, .quit⟩
  | .ok false =>
    { rest done.chat with shown := done.shown ++ (rest done.chat).shown }

/-- The loop of the line editor; a line that ends with `\` goes on with the
next one. -/
def editorLoop : List (Around × Text) → Text → Chatting → Outcome
  | [], _, chat => ⟨chat, [], .open⟩
  | (around, line) :: lines, pending, chat =>
    if line.getLast? = some '\\' then
      editorLoop lines (pending ++ line.dropLast ++ ['\n']) chat
    else
      (editorInput around chat (pending ++ line)).next
        (editorLoop lines [])

/-! ## The full screen -/

/-- A parsed `/` line. -/
inductive SlashCmd where
  | quit
  | help
  | mode (raw : Text)
  | model (raw : Text)
  | think (rest : Text)
  | reset
  | usage
  | unknown (message : Text)
deriving DecidableEq

/-- No command for ordinary input. -/
def parseSlash (line : Text) : Option SlashCmd :=
  if line.head? ≠ some '/' then none
  else
    let parts := splitWhitespace (line.drop 1)
    let name := parts.headD []
    some
      (if name = "quit".toList ∨ name = "exit".toList ∨ name = "q".toList
        then .quit
      else if name = "help".toList then .help
      else if name = "mode".toList then
        match parts.tail with
        | raw :: _ => .mode raw
        | [] => .unknown modeUsage
      else if name = "model".toList then
        match parts.tail with
        | raw :: _ => .model raw
        | [] => .unknown modelUsage
      else if name = "think".toList then .think (joined ' ' parts.tail)
      else if name = "reset".toList then .reset
      else if name = "usage".toList then .usage
      else .unknown (Commands.unknown name))

section

variable (around : Around) (chat : Chatting)

def screenMode (raw : Text) : Done :=
  match readMode raw with
  | .error error => ⟨chat, [error], .ok false⟩
  | .ok mode =>
    let shown := [message ["mode: ".toList, raw]]
    match chat.engine with
    | .managed .mistral =>
      ⟨chat, [("the mistral backend manages devices itself; " ++
        "mode is gguf-only").toList], .ok false⟩
    | .managed (.gguf _) =>
      reloaded (withMode chat mode) (reload around (withMode chat mode))
        [] shown
    | .daemon (some _) =>
      reloaded (withMode chat mode)
        (reloadLocal around (withMode chat mode)) [] shown
    | .daemon none =>
      ⟨withMode chat mode,
        [("/mode is owned by `runa daemon`; " ++
          "restart it with --mode to change").toList], .ok false⟩

def screenModel (raw : Text) : Done :=
  match around.machine.resolveModel raw with
  | .error error => ⟨chat, [error], .ok false⟩
  | .ok path =>
    let moved := withModel chat path
    let shown := [message ["model: ".toList, path]]
    match chat.engine with
    | .managed _ =>
      reloaded moved (reload around moved) (clearedNote chat) shown
    | .daemon (some _) =>
      reloaded moved (reloadLocal around moved) (clearedNote chat) shown
    | .daemon none => ⟨moved, clearedNote chat ++ shown, .ok false⟩

def screenThink (rest : Text) : Done :=
  if rest.isEmpty then
    ⟨chat, [shownThink chat.session.think], .ok false⟩
  else
    match rethink around chat rest with
    | .error error => ⟨chat, [error], .ok false⟩
    | .ok think => ⟨withThink chat think, [shownThink think], .ok false⟩

def executeTuiSlash : SlashCmd → Done
  | .quit => ⟨chat, [], .ok true⟩
  | .help =>
    ⟨chat, slashHelp ++ [("Enter sends · Shift+Enter breaks the line · " ++
      "Ctrl+R toggles reasoning").toList], .ok false⟩
  | .mode raw => screenMode around chat raw
  | .model raw => screenModel around chat raw
  | .think rest => screenThink around chat rest
  | .reset => commandReset around chat
  | .usage => ⟨chat, [shownUsage around chat], .ok false⟩
  | .unknown message => ⟨chat, [message], .ok false⟩

/-- The lines of the input box have nothing but blanks. -/
def isInputEmpty (input : Text) : Bool :=
  (input.splitOn '\n').all fun line => (trim line).isEmpty

/-- What is in the input box when `Enter` is pressed. -/
def screenInput (input : Text) : Done :=
  if isInputEmpty input then ⟨chat, [], .ok false⟩
  else
    match parseSlash input with
    | some command => executeTuiSlash around chat command
    | none =>
      let (session, errors) :=
        tuiTurn around.outside chat.engine input chat.session
      ⟨{ chat with session := session }, errors, .ok false⟩

end

/-- The loop of the full screen. -/
def screenLoop : List (Around × Text) → Chatting → Outcome
  | [], chat => ⟨chat, [], .open⟩
  | (around, input) :: inputs, chat =>
    (screenInput around chat input).next (screenLoop inputs)

end Runa.App.Commands
