import Runa.App.Chat
import Runa.App.RunPaths
import Runa.Fallible.Steps

/-!
# Setting up a chat

The embedding of the start of `cmd_chat` of `runa/src/main.rs`: the choice of
the engine, and the session with its hub of tools.  The choice between the
daemon and a local model looks at the flags; the servers of the hub come from
the flags and from the files.  `cmdChat_spec` says what is set up.
-/

namespace Runa.App.ChatSetup

open Runa.App.Chat
open Runa.App.Config
open Runa.App.Loading
open Runa.App.Pool
open Runa.App.RunPaths
open Runa.Engine.Placements
open Runa.Fallible.Steps
open Runa.Stream.Utf8

/-- The flags of `runa chat` that are looked at before the first turn. -/
structure ChatArgs where
  model : Option Text
  backend : Text
  mode : Text
  ctx : UInt32
  threads : Option Int
  maxLoadPercent : Option Nat
  lora : List Text
  think : Option Text
  thinkBudget : Option UInt32
  effort : Option Text
  showReasoning : Bool
  noShowReasoning : Bool
  noDaemon : Bool
  rpc : Option Text
  mcp : List Text
  maxToolRounds : UInt32

/-- What a chat finds around it, besides what a run does. -/
structure ChatMachine extends Machine where
  /-- A daemon takes a connection. -/
  daemonAvailable : Bool
  /-- The tokenizer of a model that is loaded. -/
  tokens : Path → Text → Option Nat
  /-- A call to the hub of some servers. -/
  callTool : List McpServer → Engine.Generate.ToolCall → Text

/-- `parse_mode` -/
def parseMode (mode : Text) : Except Text Placement :=
  if mode = "cpu".toList then .ok .cpu
  else if mode = "gpu".toList then .ok .gpu
  else if mode = "hybrid".toList then .ok .hybridMoe
  else
    .error (message [mode, ": --mode must be cpu | gpu | hybrid".toList])

section

variable (machine : ChatMachine) (args : ChatArgs)

def chatBackend : Except Text BackendKind :=
  match parseBackend args.backend with
  | some kind => .ok kind
  | none =>
    .error (message
      [args.backend, ": --backend must be gguf | mistral | auto".toList])

def chatModel : Except Text Path :=
  match args.model with
  | some model => machine.resolveModel model
  | none =>
    .error ("chat needs a model path or alias (local file, hf: ref, or " ++
      "[models] alias)").toList

/-- `mcp::start`: a hub for the servers of the files and of the flags, if
there are any. -/
def startHub : Except Text (Option McpHub) := do
  let configured ← loadMcpServers machine.files
  let flagged ← args.mcp.mapM machine.mcpFromFlag
  if configured ++ flagged = [] then .ok none
  else
    (machine.toMachine.startHub (configured ++ flagged)).map fun tools =>
      some ⟨tools, machine.callTool (configured ++ flagged)⟩

/-- The flags that need the other backend. -/
def rejectChatFlags (rpcServers : List Text) (loras : List LoraSpec)
    (threads : Option Int) : Except Text Unit :=
  refuse
    [(!loras.isEmpty, "--lora needs the gguf backend"),
      (threads.isSome, "--threads needs the gguf backend"),
      (args.maxLoadPercent.isSome,
        "--max-load-percent needs the gguf backend"),
      (!rpcServers.isEmpty, "--rpc needs the gguf backend"),
      (!args.mcp.isEmpty, "--mcp tools need the gguf backend")]

/-- A managed local backend. -/
def chatManaged (path : Path) (placement : Placement)
    (rpcServers : List Text) (loras : List LoraSpec)
    (threads : Option Int) : Except Text ChatEngine := do
  rejectChatFlags args rpcServers loras threads
  let configured ← loadMcpServers machine.files
  if configured ≠ [] then
    .error "--mcp tools need the gguf backend".toList
  else
    machine.load .mistral path placement
      { LoadConfig.default with nCtx := args.ctx, loras := loras }
    return .managed .mistral

/-- The daemon is chosen by the flags, and if it is there. -/
def daemonFirst (rpcServers : List Text) : Bool :=
  !args.noDaemon && rpcServers.isEmpty && args.mcp.isEmpty &&
    machine.daemonAvailable

/-- The daemon, or a local load. -/
def chatGguf (path : Path) (placement : Placement)
    (rpcServers : List Text) (loras : List LoraSpec)
    (threads : Option Int) : Except Text ChatEngine :=
  if daemonFirst machine args rpcServers then .ok (.daemon none)
  else do
    machine.load .gguf path { placement with rpcServers := rpcServers }
      { LoadConfig.default with
        nCtx := args.ctx
        loras := loras
        threads := threads }
    return .daemon (some (machine.tokens path))

/-- The engine of a chat, by the backend of its model. -/
def chatEngine (kind : BackendKind) (path : Path) (placement : Placement)
    (rpcServers : List Text) (loras : List LoraSpec)
    (threads : Option Int) : Except Text ChatEngine :=
  if kind = .mistral then
    chatManaged machine args path placement rpcServers loras threads
  else chatGguf machine args path placement rpcServers loras threads

/-- The engine and the session that the first turn finds. -/
def cmdChat : Except Text (ChatEngine × Session) := do
  let requested ← chatBackend args
  let rpcServers ← args.rpc.mapM parseRpcList
  let rpcServers := rpcServers.getD []
  let placement ← parseMode args.mode
  let path ← chatModel machine args
  let kind ← resolveRequested machine.view machine.mistralrs requested path
  let loras ← resolveLoras machine.std args.lora (args.model.getD [])
    machine.files
  let threads ← resolveThreads args.threads machine.env machine.files
  let _ ← resolveMaxLoadPercent args.maxLoadPercent machine.env
    machine.files
  let engine ← chatEngine machine args kind path placement rpcServers loras
    threads
  let think ← machine.cliThink args.think args.thinkBudget args.effort
    args.showReasoning args.noShowReasoning
  let hub ← startHub machine args
  return (engine,
    { path := path
      ctx := args.ctx
      history := []
      think := think
      lastUsage := none
      hub := hub
      maxToolRounds := args.maxToolRounds })

end

/-! ## What is set up -/

section

variable {machine : ChatMachine} {args : ChatArgs}

/-- The daemon has the turns: the model is one for it, no flag asks for
anything else, and it is there. -/
def ServedByDaemon (machine : ChatMachine) (args : ChatArgs) : Prop :=
  args.noDaemon = false ∧ args.rpc = none ∧ args.mcp = [] ∧
    machine.daemonAvailable = true ∧
      ∃ requested path, chatBackend args = .ok requested ∧
        chatModel machine args = .ok path ∧
          resolveRequested machine.view machine.mistralrs requested path ≠
            .ok .mistral

theorem listed_ne_nil {flag : String} {text : Text} {parts : List Text}
    (made : listed flag text = .ok parts) : parts ≠ [] := by
  unfold listed at made
  dsimp only at made
  split_ifs at made with empty
  cases made
  exact empty

/-- A list of servers that is given is not empty. -/
theorem rpcServers_eq_nil_iff {rpc : Option Text}
    {given : Option (List Text)} (made : rpc.mapM parseRpcList = .ok given) :
    given.getD [] = [] ↔ rpc = none := by
  cases rpc with
  | none =>
      cases made
      exact iff_of_true rfl rfl
  | some text =>
      rw [Option.mapM_some] at made
      cases parsed : parseRpcList text with
      | error error =>
          rw [parsed] at made
          cases made
      | ok servers =>
          rw [parsed] at made
          cases made
          apply iff_of_false
          · exact listed_ne_nil parsed
          · intro absent
            cases absent

/-- There is a hub unless there are no servers. -/
theorem startHub_spec {hub : Option McpHub}
    (started : startHub machine args = .ok hub) :
    hub = none ↔
      loadMcpServers machine.files = .ok [] ∧ args.mcp = [] := by
  unfold startHub at started
  obtain ⟨configured, loaded, started⟩ := bind_eq_ok.mp started
  obtain ⟨flagged, parsed, started⟩ := bind_eq_ok.mp started
  have flags : flagged = [] ↔ args.mcp = [] := by
    cases specs_eq : args.mcp with
    | nil =>
        rw [specs_eq] at parsed
        cases parsed
        exact iff_of_true rfl rfl
    | cons spec specs =>
        rw [specs_eq, List.mapM_cons] at parsed
        obtain ⟨server, -, parsed⟩ := bind_eq_ok.mp parsed
        obtain ⟨servers, -, parsed⟩ := bind_eq_ok.mp parsed
        cases parsed
        exact iff_of_false (List.cons_ne_nil _ _) (List.cons_ne_nil _ _)
  rw [loaded, Except.ok.injEq, ← flags, ← List.append_eq_nil_iff]
  split_ifs at started with none
  · cases started
    exact iff_of_true rfl none
  · apply iff_of_false _ none
    rintro rfl
    cases hosted : machine.toMachine.startHub (configured ++ flagged) with
    | error error =>
        rw [hosted] at started
        cases started
    | ok tools =>
        rw [hosted] at started
        cases started

theorem chatGguf_spec {path : Path} {placement : Placement}
    {rpcServers : List Text} {loras : List LoraSpec}
    {threads : Option Int} {engine : ChatEngine}
    (chosen : chatGguf machine args path placement rpcServers loras threads =
      .ok engine) :
    engine = .daemon none ↔ daemonFirst machine args rpcServers = true := by
  unfold chatGguf at chosen
  split_ifs at chosen with first
  · cases chosen
    exact iff_of_true rfl first
  · obtain ⟨⟨⟩, -, chosen⟩ := bind_eq_ok.mp chosen
    cases chosen
    apply iff_of_false _ first
    intro same
    cases same

theorem chatManaged_spec {path : Path} {placement : Placement}
    {rpcServers : List Text} {loras : List LoraSpec}
    {threads : Option Int} {engine : ChatEngine}
    (chosen : chatManaged machine args path placement rpcServers loras
      threads = .ok engine) :
    engine ≠ .daemon none := by
  unfold chatManaged at chosen
  obtain ⟨⟨⟩, -, chosen⟩ := bind_eq_ok.mp chosen
  obtain ⟨configured, -, chosen⟩ := bind_eq_ok.mp chosen
  split_ifs at chosen
  obtain ⟨⟨⟩, -, chosen⟩ := bind_eq_ok.mp chosen
  cases chosen
  intro same
  cases same

/-- The engine is chosen by the flags, the hub by the servers. -/
theorem cmdChat_spec {engine : ChatEngine} {session : Session}
    (setup : cmdChat machine args = .ok (engine, session)) :
    (engine = .daemon none ↔ ServedByDaemon machine args) ∧
      (session.hub = none ↔
        loadMcpServers machine.files = .ok [] ∧ args.mcp = []) := by
  unfold cmdChat at setup
  obtain ⟨requested, backend, setup⟩ := bind_eq_ok.mp setup
  obtain ⟨rpcServers, rpc, setup⟩ := bind_eq_ok.mp setup
  obtain ⟨placement, mode, setup⟩ := bind_eq_ok.mp setup
  obtain ⟨path, model, setup⟩ := bind_eq_ok.mp setup
  obtain ⟨kind, resolved, setup⟩ := bind_eq_ok.mp setup
  obtain ⟨loras, -, setup⟩ := bind_eq_ok.mp setup
  obtain ⟨threads, -, setup⟩ := bind_eq_ok.mp setup
  obtain ⟨limit, -, setup⟩ := bind_eq_ok.mp setup
  obtain ⟨chosen, engines, setup⟩ := bind_eq_ok.mp setup
  obtain ⟨think, -, setup⟩ := bind_eq_ok.mp setup
  obtain ⟨hub, started, setup⟩ := bind_eq_ok.mp setup
  cases setup
  refine ⟨?_, startHub_spec started⟩
  have kinds : (∃ requested path, chatBackend args = .ok requested ∧
      chatModel machine args = .ok path ∧
        resolveRequested machine.view machine.mistralrs requested path ≠
          .ok .mistral) ↔ kind ≠ .mistral := by
    rw [backend, model]
    constructor
    · rintro ⟨_, _, ⟨⟩, ⟨⟩, other⟩ rfl
      exact other resolved
    · intro other
      refine ⟨requested, path, rfl, rfl, ?_⟩
      rw [resolved, ne_eq, Except.ok.injEq]
      exact other
  unfold ServedByDaemon
  unfold chatEngine at engines
  rw [kinds]
  by_cases mistral : kind = .mistral
  · rw [if_pos mistral] at engines
    apply iff_of_false (chatManaged_spec engines)
    rintro ⟨-, -, -, -, other⟩
    exact other mistral
  · rw [if_neg mistral] at engines
    rw [chatGguf_spec engines, daemonFirst, ← rpcServers_eq_nil_iff rpc]
    simp only [Bool.and_eq_true, Bool.not_eq_true', List.isEmpty_iff,
      ne_eq, mistral, not_false_eq_true, and_true, and_assoc]

end

end Runa.App.ChatSetup
