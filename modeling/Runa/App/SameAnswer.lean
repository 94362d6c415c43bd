import Runa.App.PoolDaemon
import Runa.Fallible.Steps

/-!
# The same answer

A run that a daemon serves asks its engine what the same run would ask in its
own process exactly if the options that the gate does not look at make no
difference: the backend, the adapters, the projector, the servers of the
configuration, the kernel sampler, and the file that the daemon finds under
the path.
-/

namespace Runa.App.SameAnswer

open Runa.App.Config
open Runa.App.DaemonProto
open Runa.App.DaemonWire
open Runa.App.Loading
open Runa.App.Pool
open Runa.App.PoolDaemon
open Runa.App.RunPaths
open Runa.Engine.Generate
open Runa.Engine.Placements
open Runa.Engine.Requests
open Runa.Engine.Sampling
open Runa.Fallible.Steps
open Runa.Stream.Lines (trim)
open Runa.Stream.Utf8 (Text)

/-! ## Backends -/

section

variable {view other : View} {path file : Path} {kind requested : BackendKind}

theorem not_isMistralDir (gguf : isGgufFile view path = true) :
    isMistralDir view path = false := by
  rw [isGgufFile, Bool.and_eq_true, View.isFile, decide_eq_true_eq] at gguf
  rw [isMistralDir, View.isDir, gguf.1]
  rfl

theorem detectBackend_iff :
    detectBackend view path = .ok kind ↔
      kind = .gguf ∧ isGgufFile view path = true ∨
        kind = .mistral ∧ isMistralDir view path = true := by
  rw [detectBackend]
  split_ifs with gguf mistral missing directory
  · simp [gguf, not_isMistralDir gguf, eq_comm]
  · simp [gguf, mistral, eq_comm]
  all_goals simp [gguf, mistral]

theorem checkBackend_iff :
    checkBackend view path requested = .ok kind ↔
      requested = kind ∧ detectBackend view path = .ok kind := by
  rw [detectBackend_iff]
  constructor
  · intro checked
    cases requested with
    | auto => cases checked
    | gguf =>
        rw [checkBackend] at checked
        split_ifs at checked with gguf
        cases checked
        exact ⟨rfl, Or.inl ⟨rfl, gguf⟩⟩
    | mistral =>
        rw [checkBackend] at checked
        split_ifs at checked with mistral
        cases checked
        exact ⟨rfl, Or.inr ⟨rfl, mistral⟩⟩
  · rintro ⟨rfl, ⟨rfl, there⟩ | ⟨rfl, there⟩⟩
    · exact if_pos there
    · exact if_pos there

theorem resolveBackend_iff :
    resolveBackend view path requested = .ok kind ↔
      detectBackend view path = .ok kind ∧
        (requested = .auto ∨ requested = kind) := by
  cases requested with
  | auto =>
      show detectBackend view path >>= checkBackend view path = .ok kind ↔ _
      rw [bind_eq_ok]
      constructor
      · rintro ⟨found, -, checked⟩
        exact ⟨(checkBackend_iff.mp checked).2, Or.inl rfl⟩
      · rintro ⟨detected, -⟩
        exact ⟨kind, detected, checkBackend_iff.mpr ⟨rfl, detected⟩⟩
  | gguf =>
      show checkBackend view path .gguf = .ok kind ↔ _
      rw [checkBackend_iff]
      constructor
      · rintro ⟨same, detected⟩
        exact ⟨detected, Or.inr same⟩
      · rintro ⟨detected, auto | same⟩
        · cases auto
        · exact ⟨same, detected⟩
  | mistral =>
      show checkBackend view path .mistral = .ok kind ↔ _
      rw [checkBackend_iff]
      constructor
      · rintro ⟨same, detected⟩
        exact ⟨detected, Or.inr same⟩
      · rintro ⟨detected, auto | same⟩
        · cases auto
        · exact ⟨same, detected⟩

theorem ensureBackendAvailable_ok {mistralrs : Bool}
    {found : BackendKind}
    (available : ensureBackendAvailable mistralrs found = .ok kind) :
    found = kind := by
  cases found with
  | mistral =>
      rw [ensureBackendAvailable] at available
      split_ifs at available
      exact Except.ok.inj available
  | gguf => exact Except.ok.inj available
  | auto => exact Except.ok.inj available

theorem resolveRequested_iff {mistralrs : Bool} :
    resolveRequested view mistralrs requested path = .ok kind ↔
      (detectBackend view path = .ok kind ∧
        ensureBackendAvailable mistralrs kind = .ok kind) ∧
        (requested = .auto ∨ requested = kind) := by
  show resolveBackend view path requested >>=
    ensureBackendAvailable mistralrs = .ok kind ↔ _
  rw [bind_eq_ok]
  constructor
  · rintro ⟨found, resolved, available⟩
    obtain rfl := ensureBackendAvailable_ok available
    obtain ⟨detected, asked⟩ := resolveBackend_iff.mp resolved
    exact ⟨⟨detected, available⟩, asked⟩
  · rintro ⟨⟨detected, available⟩, asked⟩
    exact ⟨kind, resolveBackend_iff.mpr ⟨detected, asked⟩, available⟩

/-- The kind is one of the file, whatever the directory. -/
theorem detectBackend_located (entry : other.entry = view.entry)
    (same : other.located file = view.located path) :
    detectBackend other file = .ok kind ↔
      detectBackend view path = .ok kind := by
  have gguf : isGgufFile other file = isGgufFile view path := by
    rw [isGgufFile, isGgufFile, View.isFile, View.isFile, entry, same]
  have mistral : isMistralDir other file = isMistralDir view path := by
    rw [isMistralDir, isMistralDir, View.isDir, View.isDir, entry, same]
  rw [detectBackend_iff, detectBackend_iff, gguf, mistral]

end

/-! ## What the gate looks at -/

/-- None of the options that the gate refuses. -/
structure Plain (args : RunArgs) : Prop where
  audio : args.audio = none
  image : args.image = []
  video : args.video = none
  mcp : args.mcp = []
  ngram : args.ngram = false
  draft : args.draft = none
  promptCache : args.promptCache = none
  device : args.device = none
  tensorSplit : args.tensorSplit = none
  mainGpu : args.mainGpu = none
  rpc : args.rpc = none
  nCpuMoe : args.nCpuMoe = none
  threads : args.threads = none
  maxLoadPercent : args.maxLoadPercent = none
  kv : args.kv = none
  kvK : args.kvK = none
  kvV : args.kvV = none

section

variable {machine : Machine} {args : RunArgs} {prepared : Prepared}
  {path : Path} {tools : Option Text} {built : Built}

theorem plain_of_compatible (accepted : daemonCompatibleRun args = true) :
    Plain args := by
  simp only [daemonCompatibleRun, Bool.and_eq_true, Option.isNone_iff_eq_none,
    List.isEmpty_iff, Bool.not_eq_true'] at accepted
  obtain ⟨⟨⟨⟨⟨⟨⟨⟨⟨⟨⟨⟨⟨⟨⟨⟨audio, image⟩, video⟩, mcp⟩, ngram⟩, draft⟩,
    promptCache⟩, device⟩, tensorSplit⟩, mainGpu⟩, rpc⟩, nCpuMoe⟩, threads⟩,
    maxLoadPercent⟩, kv⟩, kvK⟩, kvV⟩ := accepted
  exact ⟨audio, image, video, mcp, ngram, draft, promptCache, device,
    tensorSplit, mainGpu, rpc, nCpuMoe, threads, maxLoadPercent, kv, kvK,
    kvV⟩

/-- What both paths are given comes from the flags. -/
theorem of_prepare (prepares : prepare machine args = .ok prepared) :
    parseBackend args.backend = some prepared.requested ∧
      (args.jsonSchema = none → prepared.jsonSchema = none) ∧
        (args.grammar = none → prepared.grammar = none) := by
  unfold prepare at prepares
  simp only [bind_eq_ok] at prepares
  obtain ⟨requested, backend, threads, -, load, -, think, -, prompt, -,
    audio, -, schema, readSchema, grammar, readGrammar, made⟩ := prepares
  cases made
  refine ⟨?_, ?_, ?_⟩
  · rw [requestedBackend] at backend
    split at backend
    · next kind parsed =>
        cases backend
        exact parsed
    · cases backend
  · intro none
    rw [none] at readSchema
    cases readSchema
    rfl
  · intro none
    rw [none] at readGrammar
    cases readGrammar
    rfl

/-! ## The run in the process -/

/-- What a plain run of a GGUF model asks. -/
def ggufSettings (machine : Machine) (args : RunArgs)
    (prepared : Prepared) (path : Path) (tools : Option Text)
    (loras : List LoraSpec) : Settings where
  kind := .gguf
  path := machine.view.located path
  kvK := none
  kvV := none
  mmproj := args.mmproj
  loras := loras
  request := { daemonRequest machine args prepared with tools := tools }

/-- What a plain run of a mistral directory asks. -/
def mistralSettings (machine : Machine) (args : RunArgs)
    (prepared : Prepared) (path : Path) : Settings where
  kind := .mistral
  path := machine.view.located path
  kvK := none
  kvV := none
  mmproj := none
  loras := []
  request := daemonRequest machine args prepared

/-- The configuration of a plain run of a GGUF model. -/
def plainConfig (args : RunArgs) (prepared : Prepared)
    (loras : List LoraSpec) : LoadConfig where
  nCtx := args.ctx
  threads := prepared.threads
  kvK := none
  kvV := none
  mmproj := args.mmproj
  loras := loras

/-- What a plain run loads and asks. -/
def ggufBuilt (machine : Machine) (args : RunArgs) (prepared : Prepared)
    (tools : Option Text) (path : Path) (loras : List LoraSpec)
    (placement : Placement) : Built where
  kind := .gguf
  path := path
  placement := placement
  config := plainConfig args prepared loras
  request := { daemonRequest machine args prepared with tools := tools }

def mistralBuilt (machine : Machine) (args : RunArgs)
    (prepared : Prepared) (path : Path) : Built where
  kind := .mistral
  path := path
  placement := .cpu
  config := { LoadConfig.default with nCtx := args.ctx }
  request :=
    { daemonRequest machine args prepared with
      jsonSchema := none
      grammar := none }

/-- The context, the mode and the placement can be had in the process. -/
structure Owned (machine : Machine) (args : RunArgs) (prepared : Prepared)
    (path : Path) : Prop where
  gguf : detectBackend machine.view path = .ok .gguf →
    ∀ loras,
      resolveLoras machine.std args.lora args.model machine.files =
          .ok loras →
        ∃ onUnfit placement,
          resolveOnUnfit args.onUnfit machine.env machine.files =
              .ok onUnfit ∧
            placed machine args path onUnfit "f16".toList loras =
                .ok (.here placement) ∧
              machine.preflightGrow path args.ctx "f16".toList
                  (loras.map fun spec => machine.fileBytes spec.path).sum
                  none = .ok () ∧
                machine.load .gguf path placement
                  (plainConfig args prepared loras) = .ok ()
  mistral : detectBackend machine.view path = .ok .mistral →
    machine.load .mistral path .cpu
      { LoadConfig.default with nCtx := args.ctx } = .ok ()

theorem attachPromptCache_plain (plain : Plain args) :
    attachPromptCache machine args = .ok () := by
  rw [attachPromptCache, plain.promptCache]
  split_ifs
  · rfl
  · rfl

/-- Without the options of the gate, all that a run does is load. -/
theorem runPlaced_iff (plain : Plain args) (loras : List LoraSpec)
    (placement : Placement) :
    runPlaced machine args prepared tools path (none, none) loras
        placement = .ok (.engine built) ↔
      machine.preflightGrow path args.ctx "f16".toList
          (loras.map fun spec => machine.fileBytes spec.path).sum none =
          .ok () ∧
        machine.load .gguf path placement
            (plainConfig args prepared loras) = .ok () ∧
          built = ggufBuilt machine args prepared tools path loras
            placement := by
  have projected : projector machine args path none = args.mmproj := by
    rw [projector, plain.image, plain.video]
    exact Option.or_none
  have shape : shaped machine args placement = .ok placement := by
    rw [shaped, plain.nCpuMoe, plain.device, plain.tensorSplit,
      plain.mainGpu, plain.rpc]
    rfl
  have planned : audioPlan machine args prepared path = .ok none := by
    rw [audioPlan, plain.audio]
  have frames : collectVisionFrames machine args = .ok [] := by
    rw [collectVisionFrames, plain.image, plain.video]
    rfl
  rw [runPlaced, shape, planned, frames, attachPromptCache_plain plain,
    plain.draft, plain.ngram, plain.maxLoadPercent]
  change (machine.preflightGrow path args.ctx _ (0 + _) none >>= fun _ =>
    machine.load .gguf path placement
      { plainConfig args prepared loras with
        mmproj := projector machine args path none } >>= fun _ =>
      Except.ok (Outcome.engine
        { ggufBuilt machine args prepared tools path loras placement with
          config :=
            { plainConfig args prepared loras with
              mmproj := projector machine args path none } })) = _ ↔ _
  rw [projected, Nat.zero_add, bind_eq_ok]
  constructor
  · rintro ⟨⟨⟩, grows, runs⟩
    obtain ⟨⟨⟩, loads, made⟩ := bind_eq_ok.mp runs
    cases made
    exact ⟨grows, loads, rfl⟩
  · rintro ⟨grows, loads, rfl⟩
    exact ⟨(), grows, bind_eq_ok.mpr ⟨(), loads, rfl⟩⟩

theorem checkDraft_plain (plain : Plain args) :
    checkDraft machine args = .ok () := by
  rw [checkDraft, plain.draft]

theorem resolveKv_plain (plain : Plain args) :
    resolveKv machine.std args.kv args.kvK args.kvV = .ok (none, none) := by
  rw [plain.kv, plain.kvK, plain.kvV]
  rfl

/-- What a run of a GGUF model asks of an engine, it asks with the adapters
of the flags and of the files. -/
theorem settings_of_runGguf (plain : Plain args)
    (runs : runGguf machine args prepared tools path =
      .ok (.engine built)) :
    ∃ loras,
      resolveLoras machine.std args.lora args.model machine.files =
          .ok loras ∧
        Built.settings machine.view built =
          ggufSettings machine args prepared path tools loras := by
  simp only [runGguf, checkDraft_plain plain, resolveKv_plain plain,
    bind_eq_ok] at runs
  obtain ⟨-, -, loras, adapters, onUnfit, -, kv, ⟨⟩, where', -, runs⟩ := runs
  use loras, adapters
  cases where' with
  | cloud cloud =>
      change cloudRun prepared tools cloud = _ at runs
      rw [cloudRun] at runs
      split_ifs at runs
      cases runs
  | here placement =>
      obtain ⟨-, -, rfl⟩ := (runPlaced_iff plain loras placement).mp runs
      rfl

theorem exists_runGguf (plain : Plain args)
    (owned : Owned machine args prepared path)
    (detected : detectBackend machine.view path = .ok .gguf)
    {loras : List LoraSpec}
    (adapters : resolveLoras machine.std args.lora args.model
      machine.files = .ok loras) :
    ∃ built,
      runGguf machine args prepared tools path = .ok (.engine built) ∧
        Built.settings machine.view built =
          ggufSettings machine args prepared path tools loras := by
  obtain ⟨onUnfit, placement, chosen, fits, grows, loads⟩ :=
    owned.gguf detected loras adapters
  use ggufBuilt machine args prepared tools path loras placement
  constructor
  · simp only [runGguf, checkDraft_plain plain, resolveKv_plain plain,
      bind_eq_ok]
    exact ⟨(), trivial, loras, adapters, onUnfit, chosen, _, rfl, _, fits,
      (runPlaced_iff plain loras placement).mpr ⟨grows, loads, rfl⟩⟩
  · rfl

theorem rejects_iff (plain : Plain args) :
    rejectMistralFlags args = .ok () ↔
      args.onUnfit = none ∧ args.mmproj = none ∧ args.lora = [] ∧
        args.jsonSchema = none ∧ args.grammar = none := by
  rw [rejectMistralFlags, plain.nCpuMoe, plain.promptCache, plain.kv,
    plain.kvK, plain.kvV, plain.threads, plain.maxLoadPercent,
    plain.device, plain.tensorSplit, plain.mainGpu, plain.rpc, plain.audio,
    plain.image, plain.video, plain.ngram, plain.draft, plain.mcp]
  cases args.onUnfit with
  | some text => simp [refuse]
  | none =>
      cases args.mmproj with
      | some path => simp [refuse]
      | none =>
          cases args.lora with
          | cons spec specs => simp [refuse]
          | nil =>
              cases args.jsonSchema with
              | some schema => simp [refuse]
              | none =>
                  cases args.grammar with
                  | some grammar => simp [refuse]
                  | none => simp [refuse]

theorem cmdRunMistral_iff :
    cmdRunMistral machine args prepared path = .ok (.engine built) ↔
      rejectMistralFlags args = .ok () ∧
        loadMcpServers machine.files = .ok [] ∧
          machine.load .mistral path .cpu
              { LoadConfig.default with nCtx := args.ctx } = .ok () ∧
            built = mistralBuilt machine args prepared path := by
  rw [cmdRunMistral, bind_eq_ok]
  constructor
  · rintro ⟨⟨⟩, allowed, runs⟩
    obtain ⟨servers, configured, runs⟩ := bind_eq_ok.mp runs
    by_cases empty : servers = []
    · rw [if_neg (not_not.mpr empty)] at runs
      rw [empty] at configured
      obtain ⟨⟨⟩, loads, made⟩ := bind_eq_ok.mp runs
      refine ⟨allowed, configured, loads, ?_⟩
      cases made
      rfl
    · rw [if_pos empty] at runs
      cases runs
  · rintro ⟨allowed, configured, loads, rfl⟩
    refine ⟨(), allowed, bind_eq_ok.mpr ⟨[], configured, ?_⟩⟩
    rw [if_neg (not_not.mpr rfl)]
    exact bind_eq_ok.mpr ⟨(), loads, rfl⟩

/-- Nothing that the wire carries is lost to a mistral directory. -/
theorem mistralBuilt_settings (plain : Plain args)
    (prepares : prepare machine args = .ok prepared)
    (allowed : rejectMistralFlags args = .ok ()) :
    Built.settings machine.view (mistralBuilt machine args prepared path) =
      mistralSettings machine args prepared path := by
  obtain ⟨-, schema, grammar⟩ := of_prepare prepares
  obtain ⟨-, -, -, noSchema, noGrammar⟩ := (rejects_iff plain).mp allowed
  rw [mistralSettings, daemonRequest, schema noSchema, grammar noGrammar]
  rfl

/-- No tools are offered exactly if the files name no server. -/
theorem startTools_iff :
    machine.startTools [] = .ok none ↔
      loadMcpServers machine.files = .ok [] := by
  rw [Machine.startTools, bind_eq_ok]
  constructor
  · rintro ⟨servers, configured, starts⟩
    change (if servers ++ [] = [] then Except.ok none
      else (machine.startHub (servers ++ [])).map some) = _ at starts
    rw [List.append_nil] at starts
    split_ifs at starts with empty
    · rwa [empty] at configured
    · cases hub : machine.startHub servers with
      | error error =>
          rw [hub] at starts
          cases starts
      | ok tools =>
          rw [hub] at starts
          cases starts
  · intro configured
    exact ⟨[], configured, rfl⟩

/-- A plain run of a local model loads it by its kind. -/
theorem runHere_local (plain : Plain args)
    (here : parseCloudRef args.model = none)
    (resolved : machine.resolveModel args.model = .ok path)
    (starts : machine.startTools [] = .ok tools) {kind : BackendKind}
    (requested : resolveRequested machine.view machine.mistralrs
      prepared.requested path = .ok kind) :
    runHere machine args prepared =
      if kind = .mistral then cmdRunMistral machine args prepared path
      else runGguf machine args prepared tools path := by
  rw [runHere, plain.mcp, starts, here, resolved]
  show (resolveRequested machine.view machine.mistralrs
    prepared.requested path >>= _) = _
  rw [requested]
  rfl

/-- What a plain run of a local model asks. -/
theorem settings_of_runHere (plain : Plain args)
    (prepares : prepare machine args = .ok prepared)
    (here : parseCloudRef args.model = none)
    (resolved : machine.resolveModel args.model = .ok path)
    (runs : runHere machine args prepared = .ok (.engine built)) :
    ∃ kind,
      resolveRequested machine.view machine.mistralrs prepared.requested
          path = .ok kind ∧
        ((kind = .mistral ∧ rejectMistralFlags args = .ok () ∧
            loadMcpServers machine.files = .ok [] ∧
              Built.settings machine.view built =
                mistralSettings machine args prepared path) ∨
          kind ≠ .mistral ∧ ∃ tools loras,
            machine.startTools [] = .ok tools ∧
              resolveLoras machine.std args.lora args.model
                  machine.files = .ok loras ∧
                Built.settings machine.view built =
                  ggufSettings machine args prepared path tools loras) := by
  rw [runHere, plain.mcp, bind_eq_ok] at runs
  obtain ⟨tools, starts, runs⟩ := runs
  rw [here] at runs
  obtain ⟨found, same, runs⟩ := bind_eq_ok.mp runs
  rw [resolved] at same
  cases same
  obtain ⟨kind, requested, runs⟩ := bind_eq_ok.mp runs
  use kind, requested
  by_cases mistral : kind = .mistral
  · rw [if_pos mistral] at runs
    obtain ⟨allowed, configured, -, rfl⟩ := cmdRunMistral_iff.mp runs
    exact Or.inl ⟨mistral, allowed, configured,
      mistralBuilt_settings plain prepares allowed⟩
  · rw [if_neg mistral] at runs
    obtain ⟨loras, adapters, same⟩ := settings_of_runGguf plain runs
    exact Or.inr ⟨mistral, tools, loras, starts, adapters, same⟩

end

/-! ## What reaches the daemon's engine -/

/-- What the lines that a client sends leave of the daemon. -/
def servedAfter {State : Type} (codec : Codec) (daemon : Daemon State)
    (state : State) (sent : List UInt8) : State :=
  (requestLines (readLines sent)).foldl
    (fun state line => (serveRequest codec daemon state line).2) state

/-- A request as it is behind the wire. -/
def offKernel (request : GenerateRequest) : GenerateRequest :=
  { request with
    sampling := { request.sampling with kernelSampler := false } }

section

variable {machine : Machine} {host : DaemonHost} {args : RunArgs}
  {prepared : Prepared} {path : Path} {served : Served machine host}
  {answer : Settings → Except Text (List GenEvent)} {codec : Codec}
  {request : GenerateRequest} {asked : Settings} {id : Text}

theorem intoGenerate_daemonRequest :
    (ProtoGenerateRequest.fromGenerate
        (daemonRequest machine args prepared)).intoGenerate =
      .ok (offKernel (daemonRequest machine args prepared)) :=
  @intoGenerate_fromGenerate
    (offKernel (daemonRequest machine args prepared)) ⟨rfl, rfl, rfl, rfl⟩

theorem servedAfter_line {State : Type} {daemon : Daemon State}
    {state : State} {line : Text} (framed : Framed line) :
    servedAfter codec daemon state (lineBytes line) =
      (serveRequest codec daemon state line).2 := by
  have one := readLines_written
    (List.forall_mem_singleton.mpr framed.noFeed)
  rw [List.flatMap_singleton, List.map_singleton] at one
  rw [servedAfter, one, requestLines, readable, readable,
    framed.popReturns_fed, List.filter_cons, framed.trim_ne_nil]
  rfl

/-- A name that is resolved stands for its file, and nothing is asked. -/
theorem resolveOrInsert_spec (model : Text) :
    (served.resolveOrInsert model).2.asked = served.asked ∧
      (served.resolveOrInsert model).2.loras = served.loras ∧
        (served.resolveOrInsert model).2.ctx = served.ctx ∧
          ∀ id, (served.resolveOrInsert model).1 = .ok id →
            (served.resolveOrInsert model).2.pool.specs.lookup id =
                served.fileOf model := by
  unfold Served.resolveOrInsert Served.fileOf
  cases resolved : resolveId served.pool model with
  | ok found =>
      refine ⟨rfl, rfl, rfl, ?_⟩
      rintro id ⟨⟩
      rfl
  | error error =>
      dsimp only
      split_ifs with there
      · refine ⟨rfl, rfl, rfl, ?_⟩
        intro id inserted
        exact lookup_of_insertSpec inserted
      · refine ⟨rfl, rfl, rfl, ?_⟩
        intro id failed
        cases failed

/-- An engine is asked with the model of its id. -/
theorem generate_spec
    (reached : (served.generate answer id request).2.asked =
      served.asked ++ [asked]) :
    ∃ setup, served.pool.specs.lookup id = some setup.path ∧
      Loadable machine host served.loras setup ∧
        asked = .of (daemonView machine host) setup.kind setup.path
          (daemonConfig served.ctx served.loras) request := by
  have silent : served.asked ≠ served.asked ++ [asked] := by
    intro same
    exact List.cons_ne_nil _ _ (List.self_eq_append_right.mp same)
  unfold Served.generate at reached
  cases ensured : (served.ensureEngine id).1 with
  | error error =>
      rw [← Prod.mk.eta (p := served.ensureEngine id), ensured] at reached
      exact absurd reached silent
  | ok thread =>
      rw [← Prod.mk.eta (p := served.ensureEngine id), ensured] at reached
      dsimp only at reached
      split_ifs at reached with alive
      · have same := List.append_cancel_left reached
        rw [List.singleton_inj] at same
        obtain ⟨known, ready⟩ :=
          (served.loaded.ensureEngine id).2 thread ensured
        exact ⟨host.setup thread, known, ready, same.symm⟩
      · exact absurd reached silent

/-- What reaches an engine of the daemon. -/
theorem asked_of_reached
    {line : Text}
    (carries : Carries codec
      (.new path (daemonRequest machine args prepared)))
    (printed : codec.encodeRequest
      (.new path (daemonRequest machine args prepared)) = .ok line)
    (reached : (servedAfter codec (poolDaemon answer) served
      (lineBytes line)).asked = served.asked ++ [asked]) :
    ∃ setup, served.fileOf path = some setup.path ∧
      Loadable machine host served.loras setup ∧
        asked = .of (daemonView machine host) setup.kind setup.path
          (daemonConfig served.ctx served.loras)
          (offKernel (daemonRequest machine args prepared)) := by
  obtain ⟨same, prints, framed, decoded⟩ := carries
  rw [printed] at prints
  cases prints
  rw [servedAfter_line framed] at reached
  have silent : served.asked ≠ served.asked ++ [asked] := by
    intro same
    exact List.cons_ne_nil _ _ (List.self_eq_append_right.mp same)
  obtain ⟨unasked, adapters, ctx, found⟩ :=
    @resolveOrInsert_spec machine host served path
  simp only [serveRequest, decoded, DaemonRequest.new, ne_eq,
    not_true_eq_false, if_false, intoGenerate_daemonRequest] at reached
  rw [show (poolDaemon answer).touched served = served from rfl] at reached
  cases resolved : (poolDaemon answer).resolveOrInsert served path with
  | mk result next =>
      have step : served.resolveOrInsert path = (result, next) := resolved
      rw [step] at unasked adapters ctx found
      rw [resolved] at reached
      cases result with
      | error error =>
          rw [show next.asked = served.asked from unasked] at reached
          exact absurd reached silent
      | ok id =>
          have asks : (next.generate answer id
              (offKernel (daemonRequest machine args prepared))).2.asked =
                next.asked ++ [asked] := by
            rw [show next.asked = served.asked from unasked, ← reached]
            cases ran : (poolDaemon answer).generate next id
                (offKernel (daemonRequest machine args prepared)) with
            | mk result last =>
                have run : next.generate answer id _ = (result, last) := ran
                rw [run]
                cases result with
                | error error => simp only [ran]
                | ok events => simp only [ran]
          obtain ⟨setup, known, ready, same⟩ := generate_spec asks
          rw [show next.loras = served.loras from adapters] at ready same
          rw [show next.ctx = served.ctx from ctx] at same
          exact ⟨setup, (found id rfl).symm.trans known, ready, same⟩

end

/-! ## The law -/

/-- The run would ask the same of an engine of its own. -/
def Same (machine : Machine) (args : RunArgs) (prepared : Prepared)
    (asked : Settings) : Prop :=
  ∃ built, runHere machine args prepared = .ok (.engine built) ∧
    Built.settings machine.view built = asked

/-- The options that the gate does not look at make no difference. -/
structure Covered {machine : Machine} {host : DaemonHost}
    (served : Served machine host) (args : RunArgs) (path : Path) :
    Prop where
  /-- The daemon finds the file of the run under the text of its path. -/
  file : (served.fileOf path).map (daemonView machine host).located =
    some (machine.view.located path)
  backend : parseBackend args.backend = some .auto ∨
    ∃ kind, parseBackend args.backend = some kind ∧
      detectBackend machine.view path = .ok kind
  kernel : machine.env "RUNA_KERNEL_SAMPLER" ≠ some ['1']
  servers : loadMcpServers machine.files = .ok []
  projector : args.mmproj = none
  /-- The adapters of the flags and the files are the daemon's. -/
  adapters : detectBackend machine.view path = .ok .gguf →
    resolveLoras machine.std args.lora args.model machine.files =
      .ok served.loras
  flags : detectBackend machine.view path = .ok .mistral →
    args.onUnfit = none ∧ args.lora = [] ∧ args.jsonSchema = none ∧
      args.grammar = none

section

variable {machine : Machine} {host : DaemonHost} {args : RunArgs}
  {prepared : Prepared} {path : Path} {served : Served machine host}
  {answer : Settings → Except Text (List GenEvent)} {codec : Codec}
  {asked : Settings} {setup : Setup} {line : Text}

theorem offKernel_iff :
    offKernel (daemonRequest machine args prepared) =
        daemonRequest machine args prepared ↔
      machine.env "RUNA_KERNEL_SAMPLER" ≠ some ['1'] := by
  constructor
  · intro same set
    have off := congrArg (·.sampling.kernelSampler) same
    change false = (machine.env "RUNA_KERNEL_SAMPLER" == some ['1']) at off
    rw [set] at off
    cases off
  · intro unset
    have off : (machine.env "RUNA_KERNEL_SAMPLER" == some ['1']) = false :=
      beq_eq_false_iff_ne.mpr unset
    rw [offKernel, daemonRequest, Machine.sampling, off]
    rfl

/-- With the tools of a run, too, the request is the one of the daemon. -/
theorem withTools_iff {tools : Option Text} :
    ({ daemonRequest machine args prepared with tools := tools } :
        GenerateRequest) =
          offKernel (daemonRequest machine args prepared) ↔
      tools = none ∧
        machine.env "RUNA_KERNEL_SAMPLER" ≠ some ['1'] := by
  constructor
  · intro same
    have plain : tools = none := congrArg GenerateRequest.tools same
    rw [plain] at same
    exact ⟨plain, offKernel_iff.mp same.symm⟩
  · rintro ⟨rfl, unset⟩
    exact (offKernel_iff.mpr unset).symm

theorem covered_of_same (plain : Plain args)
    (prepares : prepare machine args = .ok prepared)
    (here : parseCloudRef args.model = none)
    (resolved : machine.resolveModel args.model = .ok path)
    (known : served.fileOf path = some setup.path)
    (same : Same machine args prepared
      (.of (daemonView machine host) setup.kind setup.path
        (daemonConfig served.ctx served.loras)
        (offKernel (daemonRequest machine args prepared)))) :
    Covered served args path := by
  obtain ⟨built, runs, same⟩ := same
  obtain ⟨kind, requested, asks⟩ :=
    settings_of_runHere plain prepares here resolved runs
  obtain ⟨⟨detected, -⟩, given⟩ := resolveRequested_iff.mp requested
  obtain ⟨parsed, -⟩ := of_prepare prepares
  have backend : parseBackend args.backend = some .auto ∨
      ∃ kind, parseBackend args.backend = some kind ∧
        detectBackend machine.view path = .ok kind := by
    rw [parsed]
    rcases given with auto | this
    · exact Or.inl (congrArg some auto)
    · exact Or.inr ⟨kind, congrArg some this, detected⟩
  rcases asks with
    ⟨rfl, allowed, configured, settings⟩ |
      ⟨gguf, tools, loras, starts, adapters, settings⟩
  · rw [settings] at same
    obtain ⟨onUnfit, projector, lora, schema, grammar⟩ :=
      (rejects_iff plain).mp allowed
    have file := congrArg Settings.path same
    have request := congrArg Settings.request same
    constructor
    · rw [known]
      exact congrArg some file.symm
    · exact backend
    · exact offKernel_iff.mp request.symm
    · exact configured
    · exact projector
    · intro gguf
      rw [detected] at gguf
      cases gguf
    · exact fun _ => ⟨onUnfit, lora, schema, grammar⟩
  · rw [settings] at same
    have file := congrArg Settings.path same
    have request := congrArg Settings.request same
    obtain ⟨rfl, kernel⟩ := withTools_iff.mp request
    constructor
    · rw [known]
      exact congrArg some file.symm
    · exact backend
    · exact kernel
    · exact startTools_iff.mp starts
    · exact congrArg Settings.mmproj same
    · intro _
      rw [adapters]
      exact congrArg Except.ok (congrArg Settings.loras same)
    · intro mistral
      rw [detected] at mistral
      exact absurd (Except.ok.inj mistral) gguf

theorem same_of_covered (plain : Plain args)
    (prepares : prepare machine args = .ok prepared)
    (here : parseCloudRef args.model = none)
    (resolved : machine.resolveModel args.model = .ok path)
    (owned : Owned machine args prepared path)
    (known : served.fileOf path = some setup.path)
    (ready : Loadable machine host served.loras setup)
    (covered : Covered served args path) :
    Same machine args prepared
      (.of (daemonView machine host) setup.kind setup.path
        (daemonConfig served.ctx served.loras)
        (offKernel (daemonRequest machine args prepared))) := by
  have file : (daemonView machine host).located setup.path =
      machine.view.located path := by
    have same := covered.file
    rw [known] at same
    exact Option.some.inj same
  obtain ⟨⟨found, available⟩, -⟩ := resolveRequested_iff.mp ready.detected
  have detected : detectBackend machine.view path = .ok setup.kind :=
    (@detectBackend_located machine.view (daemonView machine host) path
      setup.path _ rfl file).mp found
  obtain ⟨parsed, -⟩ := of_prepare prepares
  have requested : resolveRequested machine.view machine.mistralrs
      prepared.requested path = .ok setup.kind := by
    apply resolveRequested_iff.mpr
    use ⟨detected, available⟩
    rcases covered.backend with auto | ⟨kind, this, same⟩
    · rw [parsed] at auto
      exact Or.inl (Option.some.inj auto)
    · rw [parsed] at this
      rw [detected] at same
      exact Or.inr ((Option.some.inj this).trans
        (Except.ok.inj same).symm)
  have starts := startTools_iff.mpr covered.servers
  have sent : offKernel (daemonRequest machine args prepared) =
      daemonRequest machine args prepared :=
    offKernel_iff.mpr covered.kernel
  have runs := runHere_local plain here resolved starts requested
  rcases setup with ⟨found, kind⟩
  rcases detectBackend_iff.mp detected with ⟨rfl, -⟩ | ⟨rfl, -⟩
  · obtain ⟨built, built', settings⟩ :=
      exists_runGguf plain owned detected (covered.adapters detected)
    refine ⟨built, runs.trans built', settings.trans ?_⟩
    rw [ggufSettings, covered.projector, Settings.of, file, sent]
    rfl
  · obtain ⟨onUnfit, lora, schema, grammar⟩ := covered.flags detected
    have allowed := (rejects_iff plain).mpr
      ⟨onUnfit, covered.projector, lora, schema, grammar⟩
    refine ⟨mistralBuilt machine args prepared path, runs.trans ?_, ?_⟩
    · exact cmdRunMistral_iff.mpr
        ⟨allowed, covered.servers, owned.mistral detected, rfl⟩
    · rw [mistralBuilt_settings plain prepares allowed, mistralSettings,
        Settings.of, file, sent, ready.plain rfl]
      rfl

/-- A run that a daemon serves asks its engine what it would ask its own,
exactly if the options that the gate does not look at make no difference. -/
theorem same_iff (prepares : prepare machine args = .ok prepared)
    (here : parseCloudRef args.model = none)
    (accepted : daemonCompatibleRun args = true)
    (resolved : machine.resolveModel args.model = .ok path)
    (owned : Owned machine args prepared path)
    (carries : Carries codec
      (.new path (daemonRequest machine args prepared)))
    (printed : codec.encodeRequest
      (.new path (daemonRequest machine args prepared)) = .ok line)
    (reached : (servedAfter codec (poolDaemon answer) served
      (lineBytes line)).asked = served.asked ++ [asked]) :
    Same machine args prepared asked ↔ Covered served args path := by
  have plain := plain_of_compatible accepted
  obtain ⟨setup, known, ready, rfl⟩ :=
    asked_of_reached carries printed reached
  constructor
  · exact covered_of_same plain prepares here resolved known
  · exact same_of_covered plain prepares here resolved owned known ready

end

/-! ## A run with an adapter -/

def qwen : Path := "/m/qwen.gguf".toList

def runLine : Text :=
  ("\x7b\"v\":1,\"model\":\"/m/qwen.gguf\"," ++
    "\"request\":\x7b\"messages\":[" ++
    "\x7b\"role\":\"user\",\"content\":\"hi\",\"tool_calls\":[]," ++
    "\"tool_call_id\":null\x7d],\"sampling\":\x7b\"temperature\":0.8," ++
    "\"top_k\":40,\"top_p\":0.95,\"min_p\":0.05," ++
    "\"repeat_penalty\":1.0,\"repeat_last_n\":64,\"seed\":42\x7d," ++
    "\"max_tokens\":512,\"stop\":[],\"add_generation_prompt\":true," ++
    "\"think\":\x7b\"mode\":\x7b\"kind\":\"off\"\x7d,\"show\":false\x7d," ++
    "\"json_schema\":null,\"grammar\":null,\"tools\":null," ++
    "\"tool_choice\":null\x7d\x7d").toList

/-- `serde_json` on the request of the run. -/
def runCodec : Codec where
  encodeRequest request :=
    if request = .new qwen helloRequest then .ok runLine
    else .error "another request".toList
  decodeRequest line :=
    if line = runLine then .ok (.new qwen helloRequest)
    else .error "another line".toList
  encodeEvent := helloCodec.encodeEvent
  decodeEvent := helloCodec.decodeEvent

/-- A machine with one model and one adapter, and nothing configured. -/
def desk : Machine where
  std :=
    { quoted := fun text => text
      parseF32 := fun _ => none }
  view :=
    { cwd := "/m".toList
      entry := fun path =>
        if path = qwen ∨ path = "/m/a.gguf".toList then some .file
        else none }
  mistralrs := false
  env _ := none
  disk _ := .missing
  cliThink _ _ _ _ _ := .ok .default
  readPrompt prompt := .ok (prompt.getD [])
  readJsonSchema := .ok
  readGrammar := .ok
  mcpFromFlag _ := .error []
  startHub _ := .ok []
  resolveModel := .ok
  autoPlacement _ := .ok (.here .cpu)
  siblingMmproj _ := none
  fileBytes _ := 0
  preflightGrow _ _ _ _ _ := .ok ()
  load _ _ _ _ := .ok ()
  openPromptCache _ := .ok ()
  foldAudioTranscript prompt _ := .ok prompt
  decodeAudio _ := .ok []
  supportsNativeAudio _ _ := false
  sampleVideo _ := .ok []

/-- A daemon that can load the model. -/
def deskDaemon : DaemonHost where
  cwd := "/".toList
  fitCheckNoFit _ := .ok ()
  placementFor _ := .ok .cpu
  spawnEngine path kind _ :=
    if path = qwen ∧ kind = .gguf then .ok 0 else .error []
  now := 0
  alive _ := true
  setup _ := ⟨qwen, .gguf⟩
  spawned := by
    intro path kind placement thread spawned
    split_ifs at spawned with same
    rw [same.1, same.2]

/-- The daemon before its first request. -/
def idle : Served desk deskDaemon where
  pool :=
    { specs := ∅
      order := []
      engines := ∅
      lru := []
      maxLoaded := 1
      backend := .auto
      loras := []
      lastUsed := ∅
      idleTimeout := none }
  ctx := 8192
  loras := []
  asked := []
  loaded :=
    { auto := rfl
      adapters := rfl
      engines := fun id thread running => by cases running }

def silentAnswer (_ : Settings) : Except Text (List GenEvent) :=
  .ok [.done .eos]

def runArgs (lora : List Text) : RunArgs :=
  { RunArgs.of qwen "hi".toList with lora := lora }

def runPrepared : Prepared where
  requested := .auto
  threads := none
  think := .default
  prompt := "hi".toList
  audioPref := .auto
  jsonSchema := none
  grammar := none

/-- What the engine of the daemon is asked. -/
def runAsked : Settings where
  kind := .gguf
  path := qwen
  kvK := none
  kvV := none
  mmproj := none
  loras := []
  request := helloRequest

theorem prepare_run (lora : List Text) :
    prepare desk (runArgs lora) = .ok runPrepared := by
  rfl

theorem daemonRequest_run (lora : List Text) :
    daemonRequest desk (runArgs lora) runPrepared = helloRequest := by
  rfl

theorem printed_run (lora : List Text) :
    runCodec.encodeRequest
      (.new qwen (daemonRequest desk (runArgs lora) runPrepared)) =
        .ok runLine := by
  rw [daemonRequest_run]
  exact if_pos rfl

theorem runLine_framed : Framed runLine := by
  unfold runLine
  simp only [String.toList_append]
  simp only [String.reduceToList]
  exact framed_of_all (by decide +kernel) (by decide +kernel)

theorem runCodec_carries :
    Carries runCodec (.new qwen helloRequest) := by
  use runLine
  constructor
  · simp only [runCodec, if_true]
  constructor
  · exact runLine_framed
  · simp only [runCodec, if_true]

theorem reached_run :
    (servedAfter runCodec (poolDaemon silentAnswer) idle
      (lineBytes runLine)).asked = idle.asked ++ [runAsked] := by
  obtain ⟨line, printed, framed, decoded⟩ := runCodec_carries
  have same : line = runLine := by
    simp only [runCodec, if_true] at printed
    exact (Except.ok.inj printed).symm
  rw [same] at framed decoded
  rw [servedAfter_line framed, serveRequest, decoded]
  decide +kernel

theorem owned_run (lora : List Text) :
    Owned desk (runArgs lora) runPrepared qwen := by
  constructor
  · intro _ loras _
    exact ⟨.error, .cpu, rfl, rfl, rfl, rfl⟩
  · exact fun _ => rfl

theorem compatible_run (lora : List Text) :
    daemonCompatibleRun (runArgs lora) = true := by
  rfl

def oneLora : List Text :=
  ["/m/a.gguf".toList]

/-- The texts of the run, as the program reads them. -/
theorem texts_run :
    isGgufFile desk.view qwen = true ∧ parseCloudRef qwen = none ∧
      parseBackend (runArgs []).backend = some .auto ∧
        (idle.fileOf qwen).map (daemonView desk deskDaemon).located =
            some (desk.view.located qwen) ∧
          resolveLoras desk.std oneLora qwen desk.files =
            .ok [⟨"/m/a.gguf".toList, 1⟩] := by
  decide +kernel

theorem detect_run : detectBackend desk.view qwen = .ok .gguf :=
  detectBackend_iff.mpr (Or.inl ⟨rfl, texts_run.1⟩)

theorem covered_run : Covered idle (runArgs []) qwen := by
  rcases texts_run with ⟨-, -, auto, file, -⟩
  constructor
  · exact file
  · exact Or.inl auto
  · exact fun set => by cases set
  · rfl
  · rfl
  · exact fun _ => rfl
  · intro mistral
    rw [detect_run] at mistral
    cases mistral

/-- A run without options is served as it is. -/
theorem same_run : Same desk (runArgs []) runPrepared runAsked :=
  (same_iff (prepare_run []) texts_run.2.1 (compatible_run []) rfl
    (owned_run []) runCodec_carries
    (printed_run []) reached_run).mpr covered_run

/-- A run with an adapter is served without it. -/
theorem not_same_lora :
    daemonCompatibleRun (runArgs oneLora) = true ∧
      prepare desk (runArgs oneLora) = .ok runPrepared ∧
        (servedAfter runCodec (poolDaemon silentAnswer) idle
            (lineBytes runLine)).asked = idle.asked ++ [runAsked] ∧
          (∃ built,
            runHere desk (runArgs oneLora) runPrepared =
                .ok (.engine built) ∧
              built.config.loras = [⟨"/m/a.gguf".toList, 1⟩]) ∧
            ¬ Same desk (runArgs oneLora) runPrepared runAsked := by
  rcases texts_run with ⟨-, here, -, -, adapter⟩
  have plain : Plain (runArgs oneLora) :=
    plain_of_compatible (compatible_run oneLora)
  have requested : resolveRequested desk.view desk.mistralrs
      runPrepared.requested qwen = .ok .gguf :=
    resolveRequested_iff.mpr ⟨⟨detect_run, rfl⟩, Or.inl rfl⟩
  have runs : runHere desk (runArgs oneLora) runPrepared =
      runGguf desk (runArgs oneLora) runPrepared none qwen :=
    runHere_local plain here rfl (startTools_iff.mpr rfl) requested
  refine ⟨compatible_run oneLora, prepare_run oneLora, reached_run, ?_, ?_⟩
  · obtain ⟨built, made, settings⟩ :=
      exists_runGguf plain (owned_run oneLora) detect_run adapter
    exact ⟨built, runs.trans made, congrArg Settings.loras settings⟩
  · rintro ⟨built, made, settings⟩
    rw [runs] at made
    obtain ⟨loras, adapters, asks⟩ := settings_of_runGguf plain made
    have none := congrArg Settings.loras (asks.symm.trans settings)
    change loras = [] at none
    rw [none] at adapters
    cases adapter.symm.trans adapters

end Runa.App.SameAnswer
