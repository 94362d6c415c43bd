import Runa.Core.Reason
import Runa.Core.Think
import Runa.Engine.Sampling
import Runa.Engine.StopFilter

/-!
# Streaming generation

The embedding of `Generation` of `runa-engine/src/generate.rs`: the state of
one generation, the prefill and decode steps, and the iterator.  llama.cpp is
a parameter, the `Backend`; everything it may do to a generation goes through
the fields of that structure.

Three things are left out because nothing modelled reads them: the clock
times and the speeds computed from them, the write of the prompt into the
prompt cache, and the texts of the backend's own errors.  Two things are
added which the program does not have, as history variables: `history`, the
tokens committed so far with where each came from, and `fed`, the chunks the
reasoning parser was given.
-/

namespace Runa.Engine.Generate

open Runa.Stream.Utf8
open Runa.Core.Reason
open Runa.Core.Think
open Runa.Engine.Ngram
open Runa.Engine.Sampling
open Runa.Engine.StopFilter

/-! ## The backend -/

/-- One entry of a batch. -/
structure BatchItem where
  token : Token
  position : Int
  logits : Bool
deriving DecidableEq, Repr

/--
What the engine uses of llama.cpp.  `decode`, `tokenToPiece` and
`strToToken` have no value where the call fails.
-/
structure Backend (Context Sampler Decoder Logit : Type) where
  nBatch : Nat
  nCtx : UInt32
  chatTemplate : Option Text
  tokenEos : Token
  decode : Context → List BatchItem → Option Context
  /-- `get_logits_ith` -/
  logits : Context → Int → List Logit
  /-- The write of `add_close_bias` into a row of logits. -/
  bump : Context → Int → Token → Context
  /-- `clear_kv_cache_seq`, from a position on -/
  clearFrom : Context → Int → Context
  clearKv : Context → Context
  /-- `LlamaSampler::chain_simple` -/
  chain : List Stage → Sampler
  /-- `sample` also accepts the token it returns. -/
  sample : Sampler → Context → Int → Token × Sampler
  accept : Sampler → Token → Sampler
  /-- The draw of the kernel sampler at a positive temperature. -/
  draw : SamplingConfig → List Logit → UInt32 → Token × UInt32
  newDecoder : Decoder
  tokenToPiece : Decoder → Token → Option (Text × Decoder)
  /-- Tokenize without a leading BOS. -/
  strToToken : Text → Option (List Token)

/-! ## Requests, events and states -/

structure ToolCall where
  id : Text
  name : Text
  arguments : Text
deriving DecidableEq, Repr

/-- Token counters for one generation. -/
structure Usage where
  promptTokens : Nat
  generatedTokens : Nat
  reasoningTokens : UInt32
deriving DecidableEq, Repr

/-- Why generation stopped. -/
inductive StopReason where
  | eos
  | maxTokens
  | stopString (matched : Text)
deriving DecidableEq, Repr

/-- Stream items. -/
inductive GenEvent where
  | text (body : Text)
  | reasoning (body : Text)
  | toolCalls (calls : List ToolCall)
  | usage (usage : Usage)
  | done (reason : StopReason)
deriving DecidableEq, Repr

/-- Why `next` returns an error, or never returns. -/
inductive Failure where
  | decode
  | tokenize
  | emptyClose (close : Text)
  | panic
deriving DecidableEq, Repr

/-- Where a committed token came from. -/
inductive Origin where
  | sampled
  | forced
  | drafted
deriving DecidableEq, Repr

/--
A committed token, its text, and the parser after it was committed;
`crossed` says that the parser read a tag on the way there.
-/
structure Commit where
  token : Token
  origin : Origin
  piece : Text
  inReason : Bool
  holding : Bool
  crossed : Bool
deriving DecidableEq, Repr

/--
Whether the parser reads a tag when it is given a text: what it passes on
and holds back then falls short of what it had.
-/
def crosses (parser : ReasoningParser) (text : Text) : Bool :=
  match parser.push text with
  | none => false
  | some (next, pieces) =>
      decide
        ((pieces.flatMap ReasonPiece.body).length + next.buf.length <
          parser.buf.length + text.length)

/-- The arguments of `start_generation`. -/
structure Request where
  promptTokens : List Token
  maxTokens : Nat
  stop : List Text
  sampling : SamplingConfig
  ignoreEos : Bool
  useCache : Bool
  think : ThinkConfig
  prefilled : Option Int
  ngram : Bool
  draftN : Nat

variable {Context Sampler Decoder Logit : Type}

/-- The state of one generation. -/
structure Generation (Context Sampler Decoder : Type) where
  context : Context
  promptTokens : List Token
  sampler : Option Sampler
  sampling : SamplingConfig
  kernelSeed : UInt32
  maxTokens : Nat
  stop : List Text
  prefillChunk : Nat
  pending : Text
  generated : Nat
  nPast : Int
  decoder : Decoder
  lastIdx : Int
  terminal : List GenEvent
  cacheHit : Bool
  ignoreEos : Bool
  reason : ReasoningParser
  showReasoning : Bool
  ready : List GenEvent
  budget : Option BudgetClock
  reasonCounter : BudgetClock
  reasoningTokens : UInt32
  closeTokens : List Token
  inject : List Token
  injected : Bool
  ngram : Option (NgramCache × List Token)
  draftN : Nat
  toolReply : Option (Text → Text × List ToolCall)
  raw : Text
  history : List Commit
  fed : List Text

/-! ## Starting -/

/-- Logits index of the last prompt token after a full prefill. -/
def lastPrefillIdx (tokens batch : Nat) : Int :=
  let size := max batch 1
  if tokens = 0 then 0
  else
    let rem := tokens % size
    let chunk := if rem = 0 then min size tokens else rem
    (chunk : Int) - 1

variable (backend : Backend Context Sampler Decoder Logit)

/-- The reasoning family of the model's own chat template. -/
def Backend.family : ReasonFamily :=
  match backend.chatTemplate with
  | some template => .fromTemplate template
  | none => .auto

/-- `restored` is the context `try_restore_prompt` leaves on a cache hit. -/
def startGeneration
    (context : Context) (restored : Option Context) (request : Request) :
    Generation Context Sampler Decoder :=
  let hit := if request.useCache then restored else none
  let cacheHit := request.prefilled.isSome || hit.isSome
  let length := request.promptTokens.length
  { context :=
      if request.prefilled.isSome then context
      else hit.getD (backend.clearKv context)
    promptTokens := request.promptTokens
    sampler := some (backend.chain request.sampling.build)
    sampling := request.sampling
    kernelSeed := request.sampling.seed
    maxTokens := request.maxTokens
    stop := request.stop
    prefillChunk := 0
    pending := []
    generated := 0
    nPast := request.prefilled.getD (if cacheHit then length else 0)
    decoder := backend.newDecoder
    lastIdx :=
      if request.prefilled.isSome then -1
      else if cacheHit then lastPrefillIdx length backend.nBatch
      else 0
    terminal := []
    cacheHit := cacheHit
    ignoreEos := request.ignoreEos
    reason := .new backend.family
    showReasoning := request.think.show
    ready := []
    budget :=
      BudgetClock.fromThink request.think
        (saturatingSub backend.nCtx (UInt32.ofNat length))
    reasonCounter := .new 4294967295 0
    reasoningTokens := 0
    closeTokens := []
    inject := []
    injected := false
    ngram :=
      if request.ngram && decide (request.sampling.temperature ≤ 0) then
        some (NgramCache.new.ingest request.promptTokens,
          request.promptTokens)
      else
        none
    draftN := request.draftN
    toolReply := none
    raw := []
    history := []
    fed := [] }

/-- Put a grammar in front of the sampler chain. -/
def Generation.constrain
    (generation : Generation Context Sampler Decoder)
    (constrained : Sampler) : Generation Context Sampler Decoder :=
  { generation with
    sampler := some constrained
    sampling := { generation.sampling with kernelSampler := false }
    ngram := none }

/-- A generation as `generate` hands it out. -/
def generate
    (context : Context) (restored : Option Context) (request : Request)
    (constrained : Option Sampler)
    (toolReply : Option (Text → Text × List ToolCall)) :
    Generation Context Sampler Decoder :=
  let started := startGeneration backend context restored request
  { constrained.elim started started.constrain with
    toolReply := toolReply }

/-! ## Queues -/

/-- The events a piece becomes. -/
def Generation.enqueuePiece
    (generation : Generation Context Sampler Decoder) :
    ReasonPiece → Generation Context Sampler Decoder
  | .text body =>
      if !body.isEmpty && generation.toolReply.isNone then
        { generation with ready := generation.ready ++ [.text body] }
      else
        generation
  | .reasoning body =>
      if !body.isEmpty && generation.showReasoning then
        { generation with ready := generation.ready ++ [.reasoning body] }
      else
        generation

def Generation.enqueueParsed
    (generation : Generation Context Sampler Decoder) (text : Text) :
    Except Failure (Generation Context Sampler Decoder) :=
  if text.isEmpty then
    .ok generation
  else
    match generation.reason.push text with
    | none => .error .panic
    | some (reason, pieces) =>
        .ok
          (pieces.foldl Generation.enqueuePiece
            { generation with
              raw :=
                if generation.toolReply.isSome then generation.raw ++ text
                else generation.raw
              reason := reason
              fed := generation.fed ++ [text] })

/-- The parser's held text goes out as it is. -/
def Generation.flushReason
    (generation : Generation Context Sampler Decoder) :
    Generation Context Sampler Decoder :=
  let (reason, pieces) := generation.reason.flush
  pieces.foldl Generation.enqueuePiece
    { generation with reason := reason }

/-- With a tool parser the whole reply is parsed once, at the end. -/
def Generation.replyTools
    (generation : Generation Context Sampler Decoder) :
    Generation Context Sampler Decoder :=
  match generation.toolReply with
  | none => generation
  | some parse =>
      let (text, calls) := parse generation.raw
      { generation with
        toolReply := none
        raw := []
        ready :=
          generation.ready ++
            (if text.isEmpty then [] else [.text text]) ++
            (if calls.isEmpty then [] else [.toolCalls calls]) }

/-- Move what is ready in front of Usage and Done; the sampler is dropped. -/
def Generation.close
    (generation : Generation Context Sampler Decoder)
    (reason : StopReason) : Generation Context Sampler Decoder :=
  { generation with
    ready := []
    terminal :=
      generation.ready ++ generation.terminal ++
        [.usage
            { promptTokens := generation.promptTokens.length
              generatedTokens := generation.generated
              reasoningTokens := generation.reasoningTokens },
          .done reason]
    sampler := none }

def Generation.queueTerminal
    (generation : Generation Context Sampler Decoder)
    (reason : StopReason) :
    Except Failure (Generation Context Sampler Decoder) := do
  let parsed ←
    { generation with pending := [] }.enqueueParsed generation.pending
  return (parsed.flushReason.replyTools.close reason)

/-! ## The budget -/

def Generation.refreshCloseTokens
    (generation : Generation Context Sampler Decoder) :
    Generation Context Sampler Decoder :=
  if !generation.closeTokens.isEmpty then
    generation
  else
    match generation.reason.closeTag.bind backend.strToToken with
    | some tokens => { generation with closeTokens := tokens }
    | none => generation

def Generation.observeBudget
    (generation : Generation Context Sampler Decoder) :
    Generation Context Sampler Decoder :=
  let refreshed := generation.refreshCloseTokens backend
  let inReason := refreshed.reason.inReason
  let holding := refreshed.reason.holdingPartial
  let counter := refreshed.reasonCounter.observe inReason holding
  { refreshed with
    budget :=
      refreshed.budget.map fun clock => clock.observe inReason holding
    reasonCounter := counter
    reasoningTokens :=
      saturatingAdd refreshed.reasoningTokens
        (saturatingSub counter.counted
          refreshed.reasonCounter.counted) }

/-- The queue of the message and the close tag, filled once. -/
def Generation.fillInject
    (generation : Generation Context Sampler Decoder) :
    Except Failure (Generation Context Sampler Decoder) :=
  if generation.injected then
    .ok generation
  else
    let refreshed := generation.refreshCloseTokens backend
    match refreshed.reason.closeTag with
    | none => .ok refreshed
    | some close =>
        match backend.strToToken close with
        | none => .error .tokenize
        | some tokens =>
            if tokens.isEmpty then
              .error (.emptyClose close)
            else
              .ok
                { refreshed with
                  inject :=
                    (backend.strToToken budgetMessage).getD [] ++ tokens
                  injected := true }

/-- What the budget asks of the next step. -/
def Generation.forceKind
    (generation : Generation Context Sampler Decoder) : ForceKind :=
  match generation.budget with
  | some clock =>
      clock.kind generation.reason.inReason
        generation.reason.holdingPartial
  | none => .sample

/-! ## Choosing a token -/

/-- Raise the logit of a token, if the row has it. -/
def addCloseBias (context : Context) (idx : Int) (token : Token) :
    Context :=
  if 0 ≤ token ∧ token < (backend.logits context idx).length then
    backend.bump context idx token
  else
    context

/-- The context to sample from, biased towards the close tag or not. -/
def Generation.biased
    (generation : Generation Context Sampler Decoder)
    (kind : ForceKind) : Context :=
  match kind, generation.closeTokens.head? with
  | .bias, some token =>
      addCloseBias backend generation.context generation.lastIdx token
  | _, _ => generation.context

variable [LinearOrder Logit] [OrderBot Logit]

/-- The branch of `decode_step` that samples. -/
def Generation.sampleNext
    (generation : Generation Context Sampler Decoder)
    (kind : ForceKind) :
    Except Failure (Token × Generation Context Sampler Decoder) :=
  let context := generation.biased backend kind
  if generation.sampling.kernelSampler then
    let (token, seed) :=
      sampleToken backend.draw generation.sampling
        (backend.logits context generation.lastIdx) generation.kernelSeed
    .ok (token, { generation with context := context, kernelSeed := seed })
  else
    match generation.sampler with
    | none => .error .panic
    | some sampler =>
        let (token, next) :=
          backend.sample sampler context generation.lastIdx
        .ok
          (token, { generation with context := context, sampler := some next })

/-- Take a token from the queue where the budget forces one, or sample. -/
def Generation.chooseToken
    (generation : Generation Context Sampler Decoder) :
    Except Failure
      (Token × Origin × Generation Context Sampler Decoder) := do
  let kind := generation.forceKind
  if kind = .force then
    let filled ← generation.fillInject backend
    match filled.inject with
    | token :: rest =>
        return (token, .forced,
          { filled with
            inject := rest
            sampler :=
              filled.sampler.map fun sampler =>
                backend.accept sampler token })
    | [] =>
        let (token, next) ← filled.sampleNext backend kind
        return (token, .sampled, next)
  else
    let (token, next) ← generation.sampleNext backend kind
    return (token, .sampled, next)

/-! ## Committing tokens -/

/-- The n-gram drafts behind a token. -/
def Generation.drafts
    (generation : Generation Context Sampler Decoder) (token : Token) :
    List Token :=
  match generation.ngram with
  | none => []
  | some (cache, hist) =>
      let room := generation.maxTokens - (generation.generated + 1)
      let cap := backend.nBatch - 1
      cache.draft (hist ++ [token]) (min (min room generation.draftN) cap)

/-- The drafts which are the arg max behind their predecessor. -/
def verify (context : Context) : Nat → List Token → List Token
  | _, [] => []
  | index, draft :: drafts =>
      if argmaxI32 (backend.logits context index) = draft then
        draft :: verify context (index + 1) drafts
      else
        []

/-- Decode a token with its drafts, and take back the rejected ones. -/
def Generation.decodeDrafts
    (generation : Generation Context Sampler Decoder) (token : Token) :
    Except Failure
      (List Token × Generation Context Sampler Decoder) :=
  let drafts := generation.drafts backend token
  let batch :=
    (token :: drafts).zipIdx.map fun (item, index) =>
      { token := item
        position := generation.nPast + index
        logits := true : BatchItem }
  match backend.decode generation.context batch with
  | none => .error .decode
  | some context =>
      let verified := verify backend context 0 drafts
      let accepted := verified.length + 1
      .ok
        (verified,
          { generation with
            context :=
              if accepted < drafts.length + 1 then
                backend.clearFrom context (generation.nPast + accepted)
              else
                context
            nPast := generation.nPast + accepted
            lastIdx := (accepted : Int) - 1 })

/-- Count a token, learn it, and let the sampler accept a draft. -/
def Generation.countToken
    (generation : Generation Context Sampler Decoder)
    (first token : Token) (decoder : Decoder) :
    Generation Context Sampler Decoder :=
  { generation with
    decoder := decoder
    generated := generation.generated + 1
    ngram :=
      generation.ngram.map fun (cache, hist) =>
        (cache.learn hist token, hist ++ [token])
    sampler :=
      if token ≠ first then
        generation.sampler.map fun sampler => backend.accept sampler token
      else
        generation.sampler }

/-- Add a committed token to the history. -/
def Generation.record
    (generation : Generation Context Sampler Decoder)
    (token : Token) (origin : Origin) (piece : Text) (crossed : Bool) :
    Generation Context Sampler Decoder :=
  { generation with
    history :=
      { token := token
        origin := origin
        piece := piece
        inReason := generation.reason.inReason
        holding := generation.reason.holdingPartial
        crossed := crossed } ::
          generation.history }

/-- Whether the loop over the accepted tokens goes on. -/
inductive Progress (State : Type) where
  | more (state : State)
  | ended (state : State)

/-- One pass of the loop over the accepted tokens. -/
def Generation.commitOne
    (generation : Generation Context Sampler Decoder)
    (first token : Token) (origin : Origin) :
    Except Failure (Progress (Generation Context Sampler Decoder)) := do
  if token = backend.tokenEos ∧ generation.ignoreEos = false then
    return .ended (← generation.queueTerminal .eos)
  else if generation.maxTokens ≤ generation.generated then
    return .ended (← generation.queueTerminal .maxTokens)
  else
    match backend.tokenToPiece generation.decoder token with
    | none => .error .decode
    | some (piece, decoder) =>
        let counted := generation.countToken backend first token decoder
        match splitEmit (generation.pending ++ piece) generation.stop with
        | none => .error .panic
        | some (.emit emit keep) =>
            let parsed ← { counted with pending := keep }.enqueueParsed emit
            return .more
              ((parsed.observeBudget backend).record token origin piece
                (crosses generation.reason emit))
        | some (.stop before matched) =>
            let closed ←
              { counted with pending := before }.queueTerminal
                (.stopString matched)
            return .ended
              (closed.record token origin piece
                (crosses generation.reason before))

/-- The loop over the accepted tokens. -/
def Generation.commitLoop (first : Token) :
    List (Token × Origin) → Generation Context Sampler Decoder →
      Except Failure (Generation Context Sampler Decoder)
  | [], generation => .ok generation
  | (token, origin) :: rest, generation => do
      match ← generation.commitOne backend first token origin with
      | .more next => Generation.commitLoop first rest next
      | .ended final => return final

def Generation.commitTokens
    (generation : Generation Context Sampler Decoder)
    (token : Token) (origin : Origin) :
    Except Failure (Generation Context Sampler Decoder) := do
  let (verified, decoded) ← generation.decodeDrafts backend token
  Generation.commitLoop backend token
    ((token, origin) :: verified.map fun draft => (draft, .drafted))
    decoded

def Generation.decodeStep
    (generation : Generation Context Sampler Decoder) :
    Except Failure (Generation Context Sampler Decoder) := do
  if generation.maxTokens ≤ generation.generated then
    generation.queueTerminal .maxTokens
  else
    let (token, origin, chosen) ← generation.chooseToken backend
    if token = backend.tokenEos ∧ generation.ignoreEos = false then
      chosen.queueTerminal .eos
    else
      chosen.commitTokens backend token origin

/-! ## Prefill -/

def Backend.batchSize : Nat :=
  max backend.nBatch 1

def Generation.prefillDone
    (generation : Generation Context Sampler Decoder) : Bool :=
  generation.cacheHit ||
    decide (generation.promptTokens.length ≤
      generation.prefillChunk * backend.batchSize)

/-- Decode one prompt chunk. -/
def Generation.prefillStep
    (generation : Generation Context Sampler Decoder) :
    Except Failure (Generation Context Sampler Decoder) :=
  let size := backend.batchSize
  let start := generation.prefillChunk * size
  let stop := min (start + size) generation.promptTokens.length
  let chunk := (generation.promptTokens.drop start).take (stop - start)
  let batch :=
    chunk.zipIdx.map fun (item, index) =>
      { token := item
        position := generation.nPast + index
        logits := decide (index + 1 = stop - start) : BatchItem }
  match backend.decode generation.context batch with
  | none => .error .decode
  | some context =>
      .ok
        { generation with
          context := context
          nPast := generation.nPast + (stop - start : Nat)
          lastIdx := ((stop - start : Nat) : Int) - 1
          prefillChunk := generation.prefillChunk + 1 }

/-! ## The iterator -/

/-- One pass through the loop of `next`. -/
inductive Tick (State : Type) where
  | yield (event : GenEvent) (state : State)
  | again (state : State)
  | finished
  | failed (failure : Failure)

def Generation.tick
    (generation : Generation Context Sampler Decoder) :
    Tick (Generation Context Sampler Decoder) :=
  match generation.ready, generation.terminal, generation.sampler with
  | event :: rest, _, _ => .yield event { generation with ready := rest }
  | [], event :: rest, _ =>
      .yield event { generation with terminal := rest }
  | [], [], none => .finished
  | [], [], some _ =>
      if !generation.prefillDone backend then
        match generation.prefillStep backend with
        | .ok next => .again next
        | .error failure => .failed failure
      else
        match generation.decodeStep backend with
        | .ok next => .again next
        | .error failure => .failed failure

/-- What a call of `next` returns. -/
inductive Item where
  | none
  | ok (event : GenEvent)
  | error (failure : Failure)
deriving DecidableEq, Repr

/--
`next`; no value when the fuel runs out.  What a failed step leaves behind is
not followed: callers stop at the first error.
-/
def Generation.next :
    Nat → Generation Context Sampler Decoder →
      Option (Item × Generation Context Sampler Decoder)
  | 0, _ => none
  | fuel + 1, generation =>
      match generation.tick backend with
      | .yield event after => some (.ok event, after)
      | .finished => some (.none, generation)
      | .failed failure => some (.error failure, generation)
      | .again after => Generation.next fuel after

end Runa.Engine.Generate
