import Runa.App.DaemonWire
import Runa.App.Loading

/-!
# The two paths of a run

The embedding of `cmd_run`, `cmd_run_mistral`, `daemon_compatible_run` and
`try_daemon_run` of `runa/src/main.rs`, up to the first generation, and of the
daemon at the other end: `resolve_or_insert` and `generate` of
`runa/src/pool.rs`.  What a run reads from its surroundings (files, standard
input, media, the servers of its tools, the planner and the loader) is the
`Machine`.  A daemon keeps with every engine what it was loaded with.
-/

namespace Runa.App.RunPaths

open Runa.App.Config
open Runa.App.DaemonProto
open Runa.App.DaemonWire
open Runa.App.Loading
open Runa.App.Pool
open Runa.Core.Think
open Runa.Engine.Generate
open Runa.Engine.Placements
open Runa.Engine.Requests
open Runa.Engine.Sampling
open Runa.Stream.Lines (trim)
open Runa.Stream.Utf8

/-! ## Arguments -/

/-- The flags of `runa run`. -/
structure RunArgs where
  model : Text
  backend : Text
  prompt : Option Text
  mode : Text
  ctx : UInt32
  maxTokens : UInt32
  temperature : Rat
  seed : UInt32
  threads : Option Int
  maxLoadPercent : Option Nat
  onUnfit : Option Text
  nCpuMoe : Option Nat
  promptCache : Option Path
  noPromptCache : Bool
  kv : Option Text
  kvK : Option Text
  kvV : Option Text
  think : Option Text
  thinkBudget : Option UInt32
  effort : Option Text
  showReasoning : Bool
  noShowReasoning : Bool
  device : Option Text
  tensorSplit : Option Text
  mainGpu : Option Int
  rpc : Option Text
  audio : Option Path
  mmproj : Option Path
  audioRoute : Option Text
  image : List Path
  video : Option Path
  ngram : Bool
  draft : Option Path
  lora : List Text
  jsonSchema : Option Text
  grammar : Option Path
  noDaemon : Bool
  mcp : List Text

/-- The flags at their defaults. -/
def RunArgs.of (model prompt : Text) : RunArgs where
  model := model
  backend := "auto".toList
  prompt := some prompt
  mode := "auto".toList
  ctx := 8192
  maxTokens := 512
  temperature := 4 / 5
  seed := 42
  threads := none
  maxLoadPercent := none
  onUnfit := none
  nCpuMoe := none
  promptCache := none
  noPromptCache := false
  kv := none
  kvK := none
  kvV := none
  think := none
  thinkBudget := none
  effort := none
  showReasoning := false
  noShowReasoning := false
  device := none
  tensorSplit := none
  mainGpu := none
  rpc := none
  audio := none
  mmproj := none
  audioRoute := none
  image := []
  video := none
  ngram := false
  draft := none
  lora := []
  jsonSchema := none
  grammar := none
  noDaemon := false
  mcp := []

/-- `run` requests the daemon can serve. -/
def daemonCompatibleRun (args : RunArgs) : Bool :=
  args.audio.isNone &&
    args.image.isEmpty &&
    args.video.isNone &&
    args.mcp.isEmpty &&
    !args.ngram &&
    args.draft.isNone &&
    args.promptCache.isNone &&
    args.device.isNone &&
    args.tensorSplit.isNone &&
    args.mainGpu.isNone &&
    args.rpc.isNone &&
    args.nCpuMoe.isNone &&
    args.threads.isNone &&
    args.maxLoadPercent.isNone &&
    args.kv.isNone &&
    args.kvK.isNone &&
    args.kvV.isNone

inductive Provider where
  | openAi
  | anthropic
deriving DecidableEq

structure CloudRef where
  provider : Provider
  model : Text
deriving DecidableEq

/-- The model behind the name of a provider. -/
def cloudModel (provider : Provider) (scheme : String) (text : Text) :
    Option CloudRef :=
  if scheme.toList.isPrefixOf text ∧ text.drop scheme.length ≠ [] then
    some ⟨provider, text.drop scheme.length⟩
  else none

/-- `openai:<model>` or `anthropic:<model>` -/
def parseCloudRef (text : Text) : Option CloudRef :=
  (cloudModel .openAi "openai:" text).or
    (cloudModel .anthropic "anthropic:" text)

/-! ## The surroundings of a run -/

inductive AutoPlacement where
  | here (placement : Placement)
  | cloud (cloud : CloudRef)

/-- What the planner is asked. -/
structure PlanRequest where
  path : Path
  ctx : UInt32
  onUnfit : OnUnfit
  kvType : Text
  mmproj : Option Path
  draft : Option Path
  loras : List LoraSpec

/-- What a run finds around it. -/
structure Machine where
  std : Std
  view : View
  /-- the binary was built with `mistralrs` -/
  mistralrs : Bool
  env : Env
  disk : Text → File
  cliThink : Option Text → Option UInt32 → Option Text → Bool → Bool →
    Except Text ThinkConfig
  readPrompt : Option Text → Except Text Text
  readJsonSchema : Text → Except Text Text
  readGrammar : Path → Except Text Text
  mcpFromFlag : Text → Except Text McpServer
  /-- `McpHub::start`, as the tools that are offered -/
  startHub : List McpServer → Except Text Text
  /-- `resolve_model` -/
  resolveModel : Text → Except Text Path
  autoPlacement : PlanRequest → Except Text AutoPlacement
  siblingMmproj : Path → Option Path
  fileBytes : Path → Nat
  preflightGrow : Path → UInt32 → Text → Nat → Option Nat →
    Except Text Unit
  load : BackendKind → Path → Placement → LoadConfig → Except Text Unit
  /-- `PromptCache::open` -/
  openPromptCache : Path → Except Text Unit
  foldAudioTranscript : Text → Path → Except Text Text
  decodeAudio : Path → Except Text (List Rat)
  supportsNativeAudio : Path → Option Path → Bool
  sampleVideo : Path → Except Text (List VisionFrame)

namespace Machine

variable (machine : Machine)

def files : List Source :=
  sources machine.env machine.disk

/-- `SamplingConfig::default` -/
def sampling : SamplingConfig :=
  SamplingConfig.defaults (machine.env "RUNA_KERNEL_SAMPLER" == some ['1'])

/-- `GenerateRequest::default` -/
def request : GenerateRequest :=
  GenerateRequest.default
    (machine.env "RUNA_KERNEL_SAMPLER" == some ['1'])

/-- `mcp::start`: the tools of the servers of the files and of the flags, if
there are any. -/
def startTools (flags : List Text) : Except Text (Option Text) := do
  let configured ← loadMcpServers machine.files
  let flagged ← flags.mapM machine.mcpFromFlag
  if configured ++ flagged = [] then .ok none
  else (machine.startHub (configured ++ flagged)).map some

end Machine

/-! ## Before the paths part -/

/-- What both paths are given. -/
structure Prepared where
  requested : BackendKind
  threads : Option Int
  think : ThinkConfig
  prompt : Text
  audioPref : AudioRoutePref
  jsonSchema : Option Text
  grammar : Option Text

section

variable (machine : Machine) (args : RunArgs)

def requestedBackend : Except Text BackendKind :=
  match parseBackend args.backend with
  | some kind => .ok kind
  | none =>
    .error (message
      [args.backend, ": --backend must be gguf | mistral | auto".toList])

def prepare : Except Text Prepared := do
  let requested ← requestedBackend args
  let threads ← resolveThreads args.threads machine.env machine.files
  let _ ← resolveMaxLoadPercent args.maxLoadPercent machine.env
    machine.files
  let think ← machine.cliThink args.think args.thinkBudget args.effort
    args.showReasoning args.noShowReasoning
  let prompt ← machine.readPrompt args.prompt
  let audioPref ← resolveAudioRoute args.audioRoute machine.env
    machine.files
  let jsonSchema ← args.jsonSchema.mapM machine.readJsonSchema
  let grammar ← args.grammar.mapM machine.readGrammar
  return {
    requested := requested
    threads := threads
    think := think
    prompt := prompt
    audioPref := audioPref
    jsonSchema := jsonSchema
    grammar := grammar }

/-! ## Through the daemon -/

/-- The request that `try_daemon_run` sends. -/
def daemonRequest (prepared : Prepared) : GenerateRequest :=
  { machine.request with
    messages := [.user prepared.prompt]
    sampling :=
      { machine.sampling with
        temperature := args.temperature
        seed := args.seed }
    maxTokens := args.maxTokens
    think := prepared.think
    jsonSchema := prepared.jsonSchema
    grammar := prepared.grammar }

/-- Nothing if no daemon listens, or what it serves. -/
def tryDaemonRun (codec : Codec)
    (dialled : Option (List UInt8 → List UInt8)) (prepared : Prepared) :
    Option (Except Text LocalTurn) :=
  match machine.resolveModel args.model, dialled with
  | .ok path, some connection =>
    match requestSync codec connection
        (.new path (daemonRequest machine args prepared)) with
    | .ok events => some (drainDaemon events)
    | .error _ => none
  | _, _ => none

/-! ## In the process -/

inductive AudioPlan where
  | native
  | transcribe
deriving DecidableEq

/-- `select_audio_route` for a local backend -/
def selectAudioRoute (pref : AudioRoutePref) (hasAudioMmproj : Bool) :
    Except Text AudioPlan :=
  match pref with
  | .asr => .ok .transcribe
  | .auto => .ok (if hasAudioMmproj then .native else .transcribe)
  | .native =>
    if hasAudioMmproj then .ok .native
    else
      .error ("audio.route=native needs an audio mmproj (--mmproj or " ++
        "sibling *mmproj*.gguf)").toList

/-- What is loaded and asked in the process. -/
structure Built where
  kind : BackendKind
  path : Path
  placement : Placement
  config : LoadConfig
  request : GenerateRequest

/-- What a run comes to in its own process: a request of a cloud model, with
the prompt and the tools, or one of an engine. -/
inductive Outcome where
  | cloud (cloud : CloudRef) (prompt : Text) (tools : Option Text)
  | engine (built : Built)

def cloudRun (prepared : Prepared) (tools : Option Text)
    (cloud : CloudRef) : Except Text Outcome :=
  if prepared.grammar.isSome then
    .error ("--grammar is local-only; use --json-schema with cloud " ++
      "models").toList
  else .ok (.cloud cloud prepared.prompt tools)

/-- The first of the refusals that applies. -/
def refuse : List (Bool × String) → Except Text Unit
  | [] => .ok ()
  | (true, error) :: _ => .error error.toList
  | (false, _) :: later => refuse later

def rejectMistralFlags : Except Text Unit :=
  refuse
    [(args.onUnfit.isSome,
        "--on-unfit needs the gguf backend (fit is GGUF-only)"),
      (args.nCpuMoe.isSome, "--n-cpu-moe needs the gguf backend"),
      (args.promptCache.isSome, "--prompt-cache needs the gguf backend"),
      (args.kv.isSome || args.kvK.isSome || args.kvV.isSome,
        "--kv/--kv-k/--kv-v need the gguf backend"),
      (args.threads.isSome, "--threads needs the gguf backend"),
      (args.maxLoadPercent.isSome,
        "--max-load-percent needs the gguf backend"),
      (args.device.isSome || args.tensorSplit.isSome ||
          args.mainGpu.isSome,
        "--device/--tensor-split/--main-gpu need the gguf backend"),
      (args.rpc.isSome,
        "--rpc needs the gguf backend (and no RPC backend in this build, " ++
          "P9.3)"),
      (args.audio.isSome || args.mmproj.isSome || !args.image.isEmpty ||
          args.video.isSome,
        "--audio/--mmproj/--image/--video need the gguf backend " ++
          "(native mtmd)"),
      (args.ngram || args.draft.isSome,
        "--ngram/--draft need the gguf backend"),
      (!args.lora.isEmpty, "--lora needs the gguf backend"),
      (args.jsonSchema.isSome || args.grammar.isSome,
        "--json-schema/--grammar need the gguf backend"),
      (!args.mcp.isEmpty, "--mcp tools need the gguf backend")]

def cmdRunMistral (prepared : Prepared) (path : Path) :
    Except Text Outcome := do
  rejectMistralFlags args
  let servers ← loadMcpServers machine.files
  if servers ≠ [] then
    .error ("--mcp tools need the gguf backend (config enables " ++
      "servers)").toList
  else
    let config := { LoadConfig.default with nCtx := args.ctx }
    machine.load .mistral path .cpu config
    return .engine {
      kind := .mistral
      path := path
      placement := .cpu
      config := config
      request :=
        { machine.request with
          messages := [.user prepared.prompt]
          sampling :=
            { machine.sampling with
              temperature := args.temperature
              seed := args.seed }
          maxTokens := args.maxTokens
          think := prepared.think } }

def checkDraft : Except Text Unit :=
  match args.draft with
  | none => .ok ()
  | some draft =>
    if machine.view.isFile draft then .ok ()
    else .error ("draft model not found: ".toList ++ draft)

/-- The placement of the mode, or the planner's. -/
def placed (path : Path) (onUnfit : OnUnfit) (kvType : Text)
    (loras : List LoraSpec) : Except Text AutoPlacement :=
  match parseModeChoice args.mode with
  | .error error => .error error
  | .ok (some placement) => .ok (.here placement)
  | .ok none =>
    machine.autoPlacement
      ⟨path, args.ctx, onUnfit, kvType, args.mmproj, args.draft, loras⟩

/-- A placement with a flag that is given. -/
def withFlag {α β : Type} (flag : Option α) (parse : α → Except Text β)
    (update : Placement → β → Placement) (placement : Placement) :
    Except Text Placement :=
  match flag with
  | none => .ok placement
  | some given => (parse given).map (update placement)

def shaped (placement : Placement) : Except Text Placement := do
  let placement ← withFlag args.nCpuMoe .ok
    (fun placement n => { placement with cpuPatterns := cpuMoePatterns n })
    placement
  let placement ← withFlag args.device parseDeviceList
    (fun placement devices => { placement with devices := devices })
    placement
  let placement ← withFlag args.tensorSplit (parseTensorSplit machine.std)
    (fun placement split => { placement with tensorSplit := split })
    placement
  let placement ← withFlag args.mainGpu .ok
    (fun placement gpu => { placement with mainGpu := gpu }) placement
  withFlag args.rpc parseRpcList
    (fun placement servers => { placement with rpcServers := servers })
    placement

/-- How the audio is fed, if there is any. -/
def audioPlan (prepared : Prepared) (path : Path) :
    Except Text (Option (Path × AudioPlan)) :=
  match args.audio with
  | none => .ok none
  | some audio =>
    (selectAudioRoute prepared.audioPref
      (args.mmproj.or (machine.siblingMmproj path)).isSome).map
        fun plan => some (audio, plan)

/-- The projector: the one that is given, or a sibling for the media. -/
def projector (path : Path) (plan : Option (Path × AudioPlan)) :
    Option Path :=
  args.mmproj.or
    (if plan.map Prod.snd = some .native ∨ args.image ≠ [] ∨
        args.video.isSome then
      machine.siblingMmproj path
    else none)

/-- The prompt, with the transcript of the audio behind it. -/
def transcribed (prompt : Text) :
    Option (Path × AudioPlan) → Except Text Text
  | some (audio, .transcribe) => machine.foldAudioTranscript prompt audio
  | _ => .ok prompt

/-- The samples of the audio with the prompt, once the model is loaded. -/
def audioPcm (prepared : Prepared) (path : Path) (mmproj : Option Path)
    (prompt : Text) :
    Option (Path × AudioPlan) → Except Text (Option (List Rat) × Text)
  | some (audio, .native) =>
    if machine.supportsNativeAudio path mmproj then
      (machine.decodeAudio audio).map fun samples => (some samples, prompt)
    else if prepared.audioPref = .auto then
      (machine.foldAudioTranscript prompt audio).map fun prompt =>
        (none, prompt)
    else
      .error ("loaded mmproj has no native audio; use --audio-route asr " ++
        "or auto").toList
  | _ => .ok (none, prompt)

def collectVisionFrames : Except Text (List VisionFrame) :=
  let stills := args.image.map fun path => ⟨none, .path path⟩
  match args.video with
  | none => .ok stills
  | some video =>
    (machine.sampleVideo video).map fun frames => stills ++ frames

/-- `attach_prompt_cache`: only a directory that is given has to open. -/
def attachPromptCache : Except Text Unit :=
  if args.noPromptCache || (machine.env "RUNA_NO_PROMPT_CACHE").isSome then
    .ok ()
  else
    match args.promptCache with
    | none => .ok ()
    | some dir =>
      match machine.openPromptCache dir with
      | .ok () => .ok ()
      | .error error => .error ("prompt-cache: ".toList ++ error)

/-- A run of a GGUF model, once it has a placement. -/
def runPlaced (prepared : Prepared) (tools : Option Text) (path : Path)
    (kv : Option KvKind × Option KvKind) (loras : List LoraSpec)
    (placement : Placement) : Except Text Outcome := do
  let placement ← shaped machine args placement
  let plan ← audioPlan machine args prepared path
  let mmproj := projector machine args path plan
  let prompt ← transcribed machine prepared.prompt plan
  let config : LoadConfig :=
    { nCtx := args.ctx
      threads := prepared.threads
      kvK := kv.1
      kvV := kv.2
      mmproj := mmproj
      loras := loras }
  machine.preflightGrow path args.ctx (plannerKvType kv.1 kv.2)
    ((args.draft.map machine.fileBytes).getD 0 +
      (loras.map fun spec => machine.fileBytes spec.path).sum)
    args.maxLoadPercent
  machine.load .gguf path placement config
  attachPromptCache machine args
  let heard ← audioPcm machine prepared path mmproj prompt plan
  let images ← collectVisionFrames machine args
  return .engine {
    kind := .gguf
    path := path
    placement := placement
    config := config
    request :=
      { machine.request with
        messages := [.user heard.2]
        sampling :=
          { machine.sampling with
            temperature := args.temperature
            seed := args.seed }
        maxTokens := args.maxTokens
        stop := []
        addGenerationPrompt := true
        think := prepared.think
        audioPcm := heard.1
        images := images
        speculative :=
          { ngram := args.ngram || args.draft.isSome
            draftN := 4
            draft := args.draft }
        jsonSchema := prepared.jsonSchema
        grammar := prepared.grammar
        tools := tools } }

/-- A run of a GGUF model. -/
def runGguf (prepared : Prepared) (tools : Option Text) (path : Path) :
    Except Text Outcome := do
  checkDraft machine args
  let loras ← resolveLoras machine.std args.lora args.model machine.files
  let onUnfit ← resolveOnUnfit args.onUnfit machine.env machine.files
  let kv ← resolveKv machine.std args.kv args.kvK args.kvV
  match ← placed machine args path onUnfit (plannerKvType kv.1 kv.2)
      loras with
  | .cloud cloud => cloudRun prepared tools cloud
  | .here placement =>
    runPlaced machine args prepared tools path kv loras placement

/-- A run in its own process. -/
def runHere (prepared : Prepared) : Except Text Outcome := do
  let tools ← machine.startTools args.mcp
  match parseCloudRef args.model with
  | some cloud =>
    if prepared.requested ≠ .auto then
      .error ("--backend is local-only; it does not apply to cloud " ++
        "models").toList
    else if args.image ≠ [] ∨ args.video.isSome then
      .error ("cloud --image/--video: native mtmd is local-only; send " ++
        "images through the API adapters (P4.7) or run a local VL " ++
        "model").toList
    else cloudRun prepared tools cloud
  | none =>
    let path ← machine.resolveModel args.model
    let kind ← resolveRequested machine.view machine.mistralrs
      prepared.requested path
    if kind = .mistral then cmdRunMistral machine args prepared path
    else runGguf machine args prepared tools path

/-- The turn of a daemon, or the run in the process. -/
def cmdRun (codec : Codec) (dialled : Option (List UInt8 → List UInt8)) :
    Except Text (LocalTurn ⊕ Outcome) := do
  let prepared ← prepare machine args
  if (parseCloudRef args.model).isNone && !args.noDaemon &&
      daemonCompatibleRun args then
    match tryDaemonRun machine args codec dialled prepared with
    | some outcome => outcome.map .inl
    | none => (runHere machine args prepared).map .inr
  else (runHere machine args prepared).map .inr

end

end Runa.App.RunPaths
