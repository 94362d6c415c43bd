import Runa.Engine.Generate
import Mathlib.Order.Nat

/-!
# Runs of a generation

What the steps of a generation do, said once: the queues and the parser
(`Parsed.enqueueParsed`, `Parsed.queueTerminal`), the choice of a token
(`chooseToken_frame`), and the commit of one (`commitOne_cases`).  On top of
that stand the runs of the iterator and the rule by which an invariant is
carried along them (`Invariant.run`).
-/

namespace Runa.Engine.Generate

open Runa.Stream
open Runa.Stream.Utf8
open Runa.Core.Reason
open Runa.Core.Think
open Runa.Engine.Ngram
open Runa.Engine.Sampling
open Runa.Engine.StopFilter

variable {Context Sampler Decoder Logit : Type}

/-! ## The queues -/

/-- The events of a piece: answers are held for a tool parser. -/
def eventsOf (answers reasoning : Bool) : ReasonPiece → List GenEvent
  | .text body =>
      if !body.isEmpty && answers then [.text body] else []
  | .reasoning body =>
      if !body.isEmpty && reasoning then [.reasoning body] else []

/-- The events a generation makes of pieces. -/
def Generation.eventsOf
    (generation : Generation Context Sampler Decoder)
    (pieces : List ReasonPiece) : List GenEvent :=
  pieces.flatMap
    (Generate.eventsOf generation.toolReply.isNone
      generation.showReasoning)

theorem enqueuePiece_eq
    (generation : Generation Context Sampler Decoder)
    (piece : ReasonPiece) :
    generation.enqueuePiece piece =
      { generation with
        ready := generation.ready ++ generation.eventsOf [piece] } := by
  cases piece with
  | text body =>
      by_cases kept : (!body.isEmpty && generation.toolReply.isNone) = true
      · simp [Generation.enqueuePiece, Generation.eventsOf, eventsOf, kept]
      · simp [Generation.enqueuePiece, Generation.eventsOf, eventsOf, kept]
  | reasoning body =>
      by_cases kept : (!body.isEmpty && generation.showReasoning) = true
      · simp [Generation.enqueuePiece, Generation.eventsOf, eventsOf, kept]
      · simp [Generation.enqueuePiece, Generation.eventsOf, eventsOf, kept]

theorem foldl_enqueuePiece
    (pieces : List ReasonPiece)
    (generation : Generation Context Sampler Decoder) :
    pieces.foldl Generation.enqueuePiece generation =
      { generation with
        ready := generation.ready ++ generation.eventsOf pieces } := by
  induction pieces generalizing generation with
  | nil => simp [Generation.eventsOf]
  | cons piece pieces induction =>
      rw [List.foldl_cons, induction, enqueuePiece_eq]
      simp [Generation.eventsOf]

/-- The chunk the parser is given; an empty text is none. -/
def chunkOf (text : Text) : List Text :=
  if text.isEmpty then [] else [text]

@[simp]
theorem chunkOf_flatten (text : Text) : (chunkOf text).flatten = text := by
  cases text <;> simp [chunkOf]

/-- The parser has read `fed`, logged `log` and stands at `state`. -/
structure Parsed
    (family : ReasonFamily)
    (generation : Generation Context Sampler Decoder)
    (log : List (Splitter.Entry Char Mode)) (state : Mode × Text) :
    Prop where
  feeds :
    (splitter family).FeedsAll (.unlocked, []) generation.fed log state
  reason : generation.reason = .ofState family state

/-- A generation after the parser has read one more text. -/
def Generation.readOn
    (generation : Generation Context Sampler Decoder)
    (family : ReasonFamily) (text : Text)
    (more : List (Splitter.Entry Char Mode)) (state : Mode × Text) :
    Generation Context Sampler Decoder :=
  { generation with
    raw :=
      if generation.toolReply.isSome then generation.raw ++ text
      else generation.raw
    reason := .ofState family state
    fed := generation.fed ++ chunkOf text
    ready :=
      generation.ready ++
        generation.eventsOf (Runa.Core.Reason.pieces more) }

/-- What the parser makes of a text is queued. -/
theorem enqueueParsed_eq
    {family : ReasonFamily}
    {generation : Generation Context Sampler Decoder}
    {state next : Mode × Text} {text : Text}
    {more : List (Splitter.Entry Char Mode)}
    (reason : generation.reason = .ofState family state)
    (feeds : (splitter family).Feeds state text more next) :
    generation.enqueueParsed text =
      .ok (generation.readOn family text more next) := by
  cases text with
  | nil =>
      cases feeds with
      | empty =>
          simp [Generation.enqueueParsed, Generation.readOn, chunkOf,
            ← reason, Generation.eventsOf, Runa.Core.Reason.pieces]
      | chunk nonempty _ => exact (nonempty rfl).elim
  | cons char text =>
      simp only [Generation.enqueueParsed, reason, push_of_feeds feeds,
        List.isEmpty_cons, Bool.false_eq_true, if_false,
        foldl_enqueuePiece]
      rfl

theorem Parsed.readOn
    {family : ReasonFamily}
    {generation : Generation Context Sampler Decoder}
    {log more : List (Splitter.Entry Char Mode)}
    {state next : Mode × Text} {text : Text}
    (parsed : Parsed family generation log state)
    (feeds : (splitter family).Feeds state text more next) :
    Parsed family (generation.readOn family text more next)
      (log ++ more) next := by
  refine ⟨?_, rfl⟩
  cases text with
  | nil =>
      cases feeds with
      | empty => simpa [Generation.readOn, chunkOf] using parsed.feeds
      | chunk nonempty _ => exact (nonempty rfl).elim
  | cons char text => exact parsed.feeds.snoc feeds

/-- Whatever the parser has read, it can read any text. -/
theorem Parsed.enqueueParsed
    {family : ReasonFamily}
    {generation : Generation Context Sampler Decoder}
    {log : List (Splitter.Entry Char Mode)} {state : Mode × Text}
    (parsed : Parsed family generation log state) (text : Text) :
    ∃ more next,
      generation.enqueueParsed text =
          .ok (generation.readOn family text more next) ∧
        Parsed family (generation.readOn family text more next)
          (log ++ more) next := by
  obtain ⟨more, next, feeds⟩ :=
    Splitter.feeds_exists (splitter family) state text
  exact
    ⟨more, next, enqueueParsed_eq parsed.reason feeds,
      parsed.readOn feeds⟩

/-- The events of a tool parser that is given the whole reply. -/
def Generation.toolEvents
    (generation : Generation Context Sampler Decoder) (reply : Text) :
    List GenEvent :=
  match generation.toolReply with
  | none => []
  | some parse =>
      (if (parse reply).1.isEmpty then [] else [.text (parse reply).1]) ++
        if (parse reply).2.isEmpty then []
        else [.toolCalls (parse reply).2]

/-- What a generation reports of its tokens. -/
def Generation.usage
    (generation : Generation Context Sampler Decoder) : Usage where
  promptTokens := generation.promptTokens.length
  generatedTokens := generation.generated
  reasoningTokens := generation.reasoningTokens

/-- A generation whose pending and held text has gone out at the end. -/
def Generation.closeOn
    (generation : Generation Context Sampler Decoder)
    (family : ReasonFamily)
    (more : List (Splitter.Entry Char Mode)) (state : Mode × Text)
    (reason : StopReason) : Generation Context Sampler Decoder :=
  { generation with
    pending := []
    raw := if generation.toolReply.isSome then [] else generation.raw
    reason := .ofState family (state.1, [])
    fed := generation.fed ++ chunkOf generation.pending
    toolReply := none
    ready := []
    terminal :=
      generation.ready ++
        generation.eventsOf
          (Runa.Core.Reason.pieces
            (more ++ Splitter.pieceOf state.1 state.2)) ++
        generation.toolEvents (generation.raw ++ generation.pending) ++
        generation.terminal ++ [.usage generation.usage, .done reason]
    sampler := none }

/-- What is pending goes through the parser, and what it holds goes out. -/
theorem queueTerminal_eq
    {family : ReasonFamily}
    {generation : Generation Context Sampler Decoder}
    {state next : Mode × Text} {pending : Text}
    {more : List (Splitter.Entry Char Mode)}
    (parser : generation.reason = .ofState family state)
    (withheld : generation.pending = pending)
    (feeds : (splitter family).Feeds state pending more next)
    (reason : StopReason) :
    generation.queueTerminal reason =
      .ok (generation.closeOn family more next reason) := by
  rw [← withheld] at feeds
  have read :
      Generation.enqueueParsed { generation with pending := [] }
          generation.pending =
        .ok
          (Generation.readOn { generation with pending := [] } family
            generation.pending more next) :=
    enqueueParsed_eq parser feeds
  have flushed :
      (Generation.readOn { generation with pending := [] } family
          generation.pending more next).flushReason =
        { Generation.readOn { generation with pending := [] } family
            generation.pending more next with
          reason := .ofState family (next.1, [])
          ready :=
            generation.ready ++
              generation.eventsOf
                (Runa.Core.Reason.pieces
                  (more ++ Splitter.pieceOf next.1 next.2)) } := by
    simp only [Generation.flushReason, Generation.readOn, flush_eq,
      foldl_enqueuePiece, pieces_append, Generation.eventsOf,
      List.flatMap_append, List.append_assoc]
  have queued :
      generation.queueTerminal reason =
        .ok
          ((Generation.readOn { generation with pending := [] } family
            generation.pending more next).flushReason.replyTools.close
              reason) := by
    rw [Generation.queueTerminal, read]
    rfl
  rw [queued, flushed, Except.ok.injEq]
  cases tools : generation.toolReply with
  | none =>
      simp only [Generation.replyTools, Generation.readOn, tools,
        Generation.close, Generation.closeOn, Generation.toolEvents,
        Option.isSome_none, Bool.false_eq_true, if_false,
        List.append_nil, Generation.usage]
  | some parse =>
      simp only [Generation.replyTools, Generation.readOn, tools,
        Generation.close, Generation.closeOn, Generation.toolEvents,
        Option.isSome_some, if_true, List.append_assoc,
        Generation.usage]

/-- `queue_terminal` always succeeds and loses no text. -/
theorem Parsed.queueTerminal
    {family : ReasonFamily}
    {generation : Generation Context Sampler Decoder}
    {log : List (Splitter.Entry Char Mode)} {state : Mode × Text}
    (parsed : Parsed family generation log state)
    (reason : StopReason) :
    ∃ more next,
      generation.queueTerminal reason =
          .ok (generation.closeOn family more next reason) ∧
        (splitter family).FeedsAll (.unlocked, [])
          (generation.fed ++ chunkOf generation.pending)
          (log ++ more) next := by
  obtain ⟨more, next, feeds⟩ :=
    Splitter.feeds_exists (splitter family) state generation.pending
  exact
    ⟨more, next, queueTerminal_eq parsed.reason rfl feeds reason,
      (parsed.readOn feeds).feeds⟩

/-! ## The commit of a token -/

section Commit

variable (backend : Backend Context Sampler Decoder Logit)

/-- The close tokens after they were refreshed. -/
def Backend.refreshed
    (tokens : List Token) (reason : ReasoningParser) : List Token :=
  if !tokens.isEmpty then tokens
  else (reason.closeTag.bind backend.strToToken).getD tokens

theorem refreshCloseTokens_eq
    (generation : Generation Context Sampler Decoder) :
    generation.refreshCloseTokens backend =
      { generation with
        closeTokens :=
          backend.refreshed generation.closeTokens generation.reason } := by
  unfold Generation.refreshCloseTokens Backend.refreshed
  split_ifs
  · rfl
  · cases generation.reason.closeTag.bind backend.strToToken with
    | none => rfl
    | some tokens => rfl

/-- Counting a token keeps the sampler. -/
theorem countToken_alive
    (generation : Generation Context Sampler Decoder)
    (first token : Token) (decoder : Decoder) :
    (generation.countToken backend first token decoder).sampler.isSome =
      generation.sampler.isSome := by
  simp only [Generation.countToken]
  split_ifs
  · simp
  · rfl

/-- A generation after a token has been committed and the text goes on. -/
def Generation.advance
    (generation : Generation Context Sampler Decoder)
    (family : ReasonFamily) (first token : Token) (origin : Origin)
    (piece : Text) (decoder : Decoder) (emit keep : Text)
    (more : List (Splitter.Entry Char Mode)) (state : Mode × Text) :
    Generation Context Sampler Decoder :=
  (Generation.observeBudget backend
    (Generation.readOn
      { generation.countToken backend first token decoder with
        pending := keep }
      family emit more state)).record token origin piece
        (crosses generation.reason emit)

/-- What observing changes. -/
theorem observeBudget_eq
    (generation : Generation Context Sampler Decoder) :
    generation.observeBudget backend =
      { generation with
        closeTokens :=
          backend.refreshed generation.closeTokens generation.reason
        budget :=
          generation.budget.map fun clock =>
            clock.observe generation.reason.inReason
              generation.reason.holdingPartial
        reasonCounter :=
          generation.reasonCounter.observe generation.reason.inReason
            generation.reason.holdingPartial
        reasoningTokens :=
          saturatingAdd generation.reasoningTokens
            (saturatingSub
              (generation.reasonCounter.observe
                generation.reason.inReason
                generation.reason.holdingPartial).counted
              generation.reasonCounter.counted) } := by
  rw [Generation.observeBudget, refreshCloseTokens_eq]

/-- The fields of a generation that went on with a token. -/
structure Advanced
    (family : ReasonFamily) (first token : Token) (origin : Origin)
    (piece emit keep : Text)
    (more : List (Splitter.Entry Char Mode)) (state : Mode × Text)
    (before after : Generation Context Sampler Decoder) : Prop where
  eq :
    ∃ decoder tokens counter count raw,
      after =
        { before.countToken backend first token decoder with
          pending := keep
          raw := raw
          reason := .ofState family state
          fed := before.fed ++ chunkOf emit
          ready :=
            before.ready ++
              before.eventsOf (Runa.Core.Reason.pieces more)
          closeTokens := tokens
          budget :=
            before.budget.map fun clock =>
              clock.observe state.1.reasons (!state.2.isEmpty)
          reasonCounter := counter
          reasoningTokens := count
          history :=
            { token := token
              origin := origin
              piece := piece
              inReason := state.1.reasons
              holding := !state.2.isEmpty
              crossed := crosses before.reason emit } ::
                before.history }

theorem advance_advanced
    (generation : Generation Context Sampler Decoder)
    (family : ReasonFamily) (first token : Token) (origin : Origin)
    (piece : Text) (decoder : Decoder) (emit keep : Text)
    (more : List (Splitter.Entry Char Mode)) (state : Mode × Text) :
    Advanced backend family first token origin piece emit keep more state
      generation
      (generation.advance backend family first token origin piece decoder
        emit keep more state) := by
  rw [Generation.advance, observeBudget_eq]
  obtain ⟨mode, held⟩ := state
  cases mode <;> exact ⟨⟨decoder, _, _, _, _, rfl⟩⟩

/-- A generation that a stop string ended, with the token that completed it. -/
def Generation.stopOn
    (generation : Generation Context Sampler Decoder)
    (family : ReasonFamily) (first token : Token) (origin : Origin)
    (piece : Text) (decoder : Decoder) (before matched : Text)
    (more : List (Splitter.Entry Char Mode)) (state : Mode × Text) :
    Generation Context Sampler Decoder :=
  (Generation.closeOn
    { generation.countToken backend first token decoder with
      pending := before }
    family more state (.stopString matched)).record token origin piece
      (crosses generation.reason before)

/-- The ways a pass of the loop over the accepted tokens can end. -/
inductive Outcome
    (family : ReasonFamily)
    (generation : Generation Context Sampler Decoder)
    (log : List (Splitter.Entry Char Mode))
    (first token : Token) (origin : Origin) :
    Progress (Generation Context Sampler Decoder) → Prop where
  | closed
      {more : List (Splitter.Entry Char Mode)} {next : Mode × Text}
      {reason : StopReason}
      (guard :
        reason = .eos ∧ token = backend.tokenEos ∧
            generation.ignoreEos = false ∨
          reason = .maxTokens ∧
            generation.maxTokens ≤ generation.generated)
      (feeds :
        (splitter family).FeedsAll (.unlocked, [])
          (generation.fed ++ chunkOf generation.pending)
          (log ++ more) next) :
      Outcome family generation log first token origin
        (.ended (generation.closeOn family more next reason))
  | advanced
      {piece : Text} {decoder : Decoder} {emit keep : Text}
      {more : List (Splitter.Entry Char Mode)} {next : Mode × Text}
      (going : ¬ (token = backend.tokenEos ∧ generation.ignoreEos = false))
      (room : generation.generated < generation.maxTokens)
      (decoded :
        backend.tokenToPiece generation.decoder token =
          some (piece, decoder))
      (split :
        splitEmit (generation.pending ++ piece) generation.stop =
          some (.emit emit keep))
      (parsed :
        Parsed family
          (generation.advance backend family first token origin piece
            decoder emit keep more next) (log ++ more) next) :
      Outcome family generation log first token origin
        (.more
          (generation.advance backend family first token origin piece
            decoder emit keep more next))
  | stopped
      {piece : Text} {decoder : Decoder} {before matched : Text}
      {more : List (Splitter.Entry Char Mode)} {next : Mode × Text}
      (going : ¬ (token = backend.tokenEos ∧ generation.ignoreEos = false))
      (room : generation.generated < generation.maxTokens)
      (decoded :
        backend.tokenToPiece generation.decoder token =
          some (piece, decoder))
      (split :
        splitEmit (generation.pending ++ piece) generation.stop =
          some (.stop before matched))
      (feeds :
        (splitter family).FeedsAll (.unlocked, [])
          (generation.fed ++ chunkOf before) (log ++ more) next) :
      Outcome family generation log first token origin
        (.ended
          (generation.stopOn backend family first token origin piece
            decoder before matched more next))

/-- The failures of a pass of the loop over the accepted tokens. -/
inductive CommitFails
    (generation : Generation Context Sampler Decoder) (token : Token) :
    Failure → Prop where
  | piece
      (failed : backend.tokenToPiece generation.decoder token = none) :
      CommitFails generation token .decode
  | slice {piece : Text} {decoder : Decoder}
      (decoded :
        backend.tokenToPiece generation.decoder token =
          some (piece, decoder))
      (stuck :
        splitEmit (generation.pending ++ piece) generation.stop = none) :
      CommitFails generation token .panic

/-- Everything a pass of the loop over the accepted tokens can do. -/
theorem Parsed.commitOne
    {family : ReasonFamily}
    {generation : Generation Context Sampler Decoder}
    {log : List (Splitter.Entry Char Mode)} {state : Mode × Text}
    (parsed : Parsed family generation log state)
    (first token : Token) (origin : Origin) :
    (∃ progress,
        generation.commitOne backend first token origin = .ok progress ∧
          Outcome backend family generation log first token origin
            progress) ∨
      ∃ failure,
        generation.commitOne backend first token origin = .error failure ∧
          ¬ (token = backend.tokenEos ∧ generation.ignoreEos = false) ∧
          generation.generated < generation.maxTokens ∧
          CommitFails backend generation token failure := by
  by_cases eos :
      token = backend.tokenEos ∧ generation.ignoreEos = false
  · obtain ⟨more, next, queued, feeds⟩ := parsed.queueTerminal .eos
    refine Or.inl ⟨_, ?_, .closed (Or.inl ⟨rfl, eos⟩) feeds⟩
    rw [Generation.commitOne, if_pos eos, queued]
    rfl
  by_cases full : generation.maxTokens ≤ generation.generated
  · obtain ⟨more, next, queued, feeds⟩ := parsed.queueTerminal .maxTokens
    refine Or.inl ⟨_, ?_, .closed (Or.inr ⟨rfl, full⟩) feeds⟩
    rw [Generation.commitOne, if_neg eos, if_pos full, queued]
    rfl
  have room : generation.generated < generation.maxTokens := by omega
  cases decoded : backend.tokenToPiece generation.decoder token with
  | none =>
      refine Or.inr ⟨.decode, ?_, eos, room, .piece decoded⟩
      rw [Generation.commitOne, if_neg eos, if_neg full, decoded]
  | some result =>
      obtain ⟨piece, decoder⟩ := result
      cases split :
          splitEmit (generation.pending ++ piece) generation.stop with
      | none =>
          refine Or.inr ⟨.panic, ?_, eos, room, .slice decoded split⟩
          rw [Generation.commitOne, if_neg eos, if_neg full, decoded]
          simp only [split]
      | some outcome =>
          left
          cases outcome with
          | emit emit keep =>
              have counted :
                  Parsed family
                    { generation.countToken backend first token decoder
                      with pending := keep } log state :=
                ⟨parsed.feeds, parsed.reason⟩
              obtain ⟨more, next, read, after⟩ :=
                counted.enqueueParsed emit
              refine
                ⟨.more
                  (generation.advance backend family first token origin
                    piece decoder emit keep more next), ?_,
                  .advanced eos room decoded split ?_⟩
              · rw [Generation.commitOne, if_neg eos, if_neg full, decoded]
                simp only [split]
                rw [read]
                rfl
              · rw [Generation.advance, observeBudget_eq]
                exact ⟨after.feeds, rfl⟩
          | stop before matched =>
              have counted :
                  Parsed family
                    { generation.countToken backend first token decoder
                      with pending := before } log state :=
                ⟨parsed.feeds, parsed.reason⟩
              obtain ⟨more, next, queued, feeds⟩ :=
                counted.queueTerminal (.stopString matched)
              refine ⟨_, ?_, .stopped eos room decoded split feeds⟩
              rw [Generation.commitOne, if_neg eos, if_neg full, decoded]
              simp only [split]
              rw [queued]
              rfl

end Commit

/-! ## Frames -/

section Frames

variable (backend : Backend Context Sampler Decoder Logit)

/-- The tokens of the message and of a close tag. -/
def Backend.injection (closing : List Token) : List Token :=
  (backend.strToToken budgetMessage).getD [] ++ closing

/-- The queue is kept, or stays as it is for want of a tag, or is filled. -/
theorem fillInject_cases
    {generation filled : Generation Context Sampler Decoder}
    (fill : generation.fillInject backend = .ok filled) :
    generation.injected = true ∧ filled = generation ∨
      generation.injected = false ∧ ∃ tokens,
        generation.reason.closeTag = none ∧
            filled = { generation with closeTokens := tokens } ∨
          ∃ close closing,
            generation.reason.closeTag = some close ∧
              backend.strToToken close = some closing ∧
              closing ≠ [] ∧
              filled =
                { generation with
                  closeTokens := tokens
                  inject := backend.injection closing
                  injected := true } := by
  cases already : generation.injected with
  | true =>
      simp only [Generation.fillInject, already, if_true] at fill
      cases fill
      exact Or.inl ⟨rfl, rfl⟩
  | false =>
      refine
        Or.inr
          ⟨rfl, backend.refreshed generation.closeTokens generation.reason,
            ?_⟩
      simp only [Generation.fillInject, already, Bool.false_eq_true,
        if_false, refreshCloseTokens_eq] at fill
      cases known : generation.reason.closeTag with
      | none =>
          simp only [known] at fill
          cases fill
          exact Or.inl ⟨rfl, rfl⟩
      | some close =>
          simp only [known] at fill
          cases tokenized : backend.strToToken close with
          | none =>
              simp only [tokenized] at fill
              cases fill
          | some closing =>
              simp only [tokenized] at fill
              split_ifs at fill with empty
              cases fill
              exact
                Or.inr
                  ⟨close, closing, rfl, tokenized, by simpa using empty,
                    rfl⟩

theorem fillInject_frame
    {generation filled : Generation Context Sampler Decoder}
    (fill : generation.fillInject backend = .ok filled) :
    ∃ tokens queue flag,
      filled =
        { generation with
          closeTokens := tokens, inject := queue, injected := flag } := by
  rcases fillInject_cases backend fill with
    ⟨-, rfl⟩ | ⟨-, tokens, ⟨-, rfl⟩ | ⟨_, closing, -, -, -, rfl⟩⟩
  · exact ⟨filled.closeTokens, filled.inject, filled.injected, rfl⟩
  · exact ⟨tokens, generation.inject, generation.injected, rfl⟩
  · exact ⟨tokens, backend.injection closing, true, rfl⟩

variable [LinearOrder Logit]

theorem sampleNext_frame
    {generation next : Generation Context Sampler Decoder}
    {kind : ForceKind} {token : Token}
    (sampled : generation.sampleNext backend kind = .ok (token, next)) :
    ∃ context seed sampler,
      next =
          { generation with
            context := context, kernelSeed := seed, sampler := sampler } ∧
        (generation.sampler.isSome → sampler.isSome) := by
  simp only [Generation.sampleNext] at sampled
  split_ifs at sampled with kernel
  · cases sampled
    exact ⟨_, _, generation.sampler, rfl, id⟩
  · cases alive : generation.sampler with
    | none =>
        simp only [alive] at sampled
        cases sampled
    | some sampler =>
        simp only [alive] at sampled
        cases sampled
        exact ⟨_, generation.kernelSeed, some _, rfl, fun _ => rfl⟩

/-- Choosing a token touches neither the text nor the budget. -/
theorem chooseToken_frame
    {generation chosen : Generation Context Sampler Decoder}
    {token : Token} {origin : Origin}
    (choice : generation.chooseToken backend = .ok (token, origin, chosen)) :
    ∃ context seed sampler tokens queue flag,
      chosen =
          { generation with
            context := context, kernelSeed := seed, sampler := sampler,
            closeTokens := tokens, inject := queue, injected := flag } ∧
        (generation.sampler.isSome → sampler.isSome) := by
  unfold Generation.chooseToken at choice
  by_cases force : generation.forceKind = .force
  · simp only [force, if_true] at choice
    cases fill : generation.fillInject backend with
    | error failure =>
        rw [fill] at choice
        cases choice
    | ok filled =>
        rw [fill] at choice
        obtain ⟨tokens, queue, flag, rfl⟩ := fillInject_frame backend fill
        cases queue with
        | cons head rest =>
            cases choice
            exact
              ⟨generation.context, generation.kernelSeed,
                generation.sampler.map fun sampler =>
                  backend.accept sampler token,
                tokens, rest, flag, rfl, by simp⟩
        | nil =>
            cases sampled :
                Generation.sampleNext backend
                  { generation with
                    closeTokens := tokens, inject := [],
                    injected := flag } .force with
            | error failure =>
                simp only [Bind.bind, Except.bind, sampled] at choice
                cases choice
            | ok result =>
                simp only [Bind.bind, Except.bind, sampled] at choice
                cases choice
                obtain ⟨context, seed, sampler, equal, alive⟩ :=
                  sampleNext_frame backend sampled
                exact
                  ⟨context, seed, sampler, tokens, [], flag, equal, alive⟩
  · simp only [force, if_false] at choice
    cases sampled :
        generation.sampleNext backend generation.forceKind with
    | error failure =>
        rw [sampled] at choice
        cases choice
    | ok result =>
        rw [sampled] at choice
        cases choice
        obtain ⟨context, seed, sampler, equal, alive⟩ :=
          sampleNext_frame backend sampled
        exact
          ⟨context, seed, sampler, generation.closeTokens,
            generation.inject, generation.injected, equal, alive⟩

variable [OrderBot Logit]

theorem decodeDrafts_frame
    {generation decoded : Generation Context Sampler Decoder}
    {token : Token} {verified : List Token}
    (drafted :
      generation.decodeDrafts backend token = .ok (verified, decoded)) :
    ∃ context past index,
      decoded =
        { generation with
          context := context, nPast := past, lastIdx := index } := by
  simp only [Generation.decodeDrafts] at drafted
  split at drafted
  · cases drafted
  · cases drafted
    exact ⟨_, _, _, rfl⟩

/-- Choosing and decoding change only what they are for. -/
theorem decoded_frame
    {generation chosen decoded : Generation Context Sampler Decoder}
    {token : Token} {origin : Origin} {verified : List Token}
    (choice : generation.chooseToken backend = .ok (token, origin, chosen))
    (drafted :
      chosen.decodeDrafts backend token = .ok (verified, decoded)) :
    ∃ context seed sampler tokens past index,
      decoded =
          { generation with
            context := context, kernelSeed := seed, sampler := sampler,
            closeTokens := tokens, inject := chosen.inject,
            injected := chosen.injected, nPast := past,
            lastIdx := index } ∧
        (generation.sampler.isSome → sampler.isSome) := by
  obtain ⟨_, seed, sampler, tokens, _, _, rfl, kept⟩ :=
    chooseToken_frame backend choice
  obtain ⟨context, past, index, rfl⟩ := decodeDrafts_frame backend drafted
  exact ⟨context, seed, sampler, tokens, past, index, rfl, kept⟩

/-- Without a cache there is nothing to verify. -/
theorem decodeDrafts_single
    {generation next : Generation Context Sampler Decoder}
    {token : Token} {verified : List Token}
    (alone : generation.ngram = none)
    (drafted :
      generation.decodeDrafts backend token = .ok (verified, next)) :
    verified = [] := by
  have none : generation.drafts backend token = [] := by
    rw [Generation.drafts, alone]
  simp only [Generation.decodeDrafts, none, verify] at drafted
  split at drafted
  · cases drafted
  · cases drafted
    rfl

omit [LinearOrder Logit] [OrderBot Logit] in
theorem prefillStep_frame
    {generation next : Generation Context Sampler Decoder}
    (step : generation.prefillStep backend = .ok next) :
    ∃ context past index,
      next =
        { generation with
          context := context, nPast := past, lastIdx := index,
          prefillChunk := generation.prefillChunk + 1 } := by
  simp only [Generation.prefillStep] at step
  split at step
  · cases step
  · cases step
    exact ⟨_, _, _, rfl⟩

end Frames

/-! ## Runs -/

section Runs

variable [LinearOrder Logit] [OrderBot Logit]
variable (backend : Backend Context Sampler Decoder Logit)

/-- The iterator goes from one state to another and yields these events. -/
inductive Run :
    Generation Context Sampler Decoder → List GenEvent →
      Generation Context Sampler Decoder → Prop where
  | refl (generation : Generation Context Sampler Decoder) :
      Run generation [] generation
  | yield
      {generation middle final : Generation Context Sampler Decoder}
      {event : GenEvent} {events : List GenEvent}
      (ticked : generation.tick backend = .yield event middle)
      (rest : Run middle events final) :
      Run generation (event :: events) final
  | again
      {generation middle final : Generation Context Sampler Decoder}
      {events : List GenEvent}
      (ticked : generation.tick backend = .again middle)
      (rest : Run middle events final) :
      Run generation events final

variable {backend}

theorem Run.append
    {first middle last : Generation Context Sampler Decoder}
    {left right : List GenEvent}
    (before : Run backend first left middle)
    (after : Run backend middle right last) :
    Run backend first (left ++ right) last := by
  induction before with
  | refl => exact after
  | yield ticked _ induction => exact .yield ticked (induction after)
  | again ticked _ induction => exact .again ticked (induction after)

/-- The next pass of the loop of `next` is a decode step. -/
structure Decoding
    (backend : Backend Context Sampler Decoder Logit)
    (generation : Generation Context Sampler Decoder) : Prop where
  drained : generation.ready = []
  unqueued : generation.terminal = []
  alive : generation.sampler.isSome
  prefilled : generation.prefillDone backend = true

instance
    (backend : Backend Context Sampler Decoder Logit)
    (generation : Generation Context Sampler Decoder) :
    Decidable (Decoding backend generation) :=
  decidable_of_iff
    (generation.ready = [] ∧ generation.terminal = [] ∧
      generation.sampler.isSome ∧ generation.prefillDone backend = true)
    ⟨fun ⟨drained, unqueued, alive, prefilled⟩ =>
        ⟨drained, unqueued, alive, prefilled⟩,
      fun ⟨drained, unqueued, alive, prefilled⟩ =>
        ⟨drained, unqueued, alive, prefilled⟩⟩

/-- What a pass of the loop of `next` does, case by case. -/
inductive Ticking
    (backend : Backend Context Sampler Decoder Logit)
    (generation : Generation Context Sampler Decoder) :
    Tick (Generation Context Sampler Decoder) → Prop where
  | ready {event : GenEvent} {rest : List GenEvent}
      (queued : generation.ready = event :: rest) :
      Ticking backend generation
        (.yield event { generation with ready := rest })
  | terminal {event : GenEvent} {rest : List GenEvent}
      (drained : generation.ready = [])
      (queued : generation.terminal = event :: rest) :
      Ticking backend generation
        (.yield event { generation with terminal := rest })
  | finished
      (drained : generation.ready = [])
      (unqueued : generation.terminal = [])
      (dropped : generation.sampler = none) :
      Ticking backend generation .finished
  | prefilling {next : Generation Context Sampler Decoder}
      (alive : generation.sampler.isSome)
      (notDone : generation.prefillDone backend = false)
      (step : generation.prefillStep backend = .ok next) :
      Ticking backend generation (.again next)
  | unfilled {failure : Failure}
      (alive : generation.sampler.isSome)
      (step : generation.prefillStep backend = .error failure) :
      Ticking backend generation (.failed failure)
  | decoding {next : Generation Context Sampler Decoder}
      (decoding : Decoding backend generation)
      (step : generation.decodeStep backend = .ok next) :
      Ticking backend generation (.again next)
  | undecoded {failure : Failure}
      (decoding : Decoding backend generation)
      (step : generation.decodeStep backend = .error failure) :
      Ticking backend generation (.failed failure)

theorem tick_ticking
    (backend : Backend Context Sampler Decoder Logit)
    (generation : Generation Context Sampler Decoder) :
    Ticking backend generation (generation.tick backend) := by
  unfold Generation.tick
  split
  next event rest queued => exact .ready queued
  next event rest _ drained queued => exact .terminal drained queued
  next drained unqueued dropped =>
      exact .finished drained unqueued dropped
  next sampler drained unqueued kept =>
      have alive : generation.sampler.isSome := by rw [kept]; rfl
      cases done : generation.prefillDone backend with
      | false =>
          cases step : generation.prefillStep backend with
          | ok next => exact .prefilling alive done step
          | error failure => exact .unfilled alive step
      | true =>
          have decoding : Decoding backend generation :=
            ⟨drained, unqueued, alive, done⟩
          cases step : generation.decodeStep backend with
          | ok next => exact .decoding decoding step
          | error failure => exact .undecoded decoding step

/-- A pass of the loop that neither yields nor ends takes a step. -/
theorem tick_again
    {generation next : Generation Context Sampler Decoder}
    (ticked : generation.tick backend = .again next) :
    generation.sampler.isSome ∧
        generation.prefillDone backend = false ∧
        generation.prefillStep backend = .ok next ∨
      Decoding backend generation ∧
        generation.decodeStep backend = .ok next := by
  have view := tick_ticking backend generation
  rw [ticked] at view
  cases view with
  | prefilling alive notDone step => exact Or.inl ⟨alive, notDone, step⟩
  | decoding decoding step => exact Or.inr ⟨decoding, step⟩

/-- A pass that fails is a step that fails. -/
theorem tick_failed
    {generation : Generation Context Sampler Decoder} {failure : Failure}
    (ticked : generation.tick backend = .failed failure) :
    generation.prefillStep backend = .error failure ∨
      Decoding backend generation ∧
        generation.decodeStep backend = .error failure := by
  have view := tick_ticking backend generation
  rw [ticked] at view
  cases view with
  | unfilled _ step => exact Or.inl step
  | undecoded decoding step => exact Or.inr ⟨decoding, step⟩

/-- A pass that yields takes the event from the front of a queue. -/
theorem tick_yield
    {generation next : Generation Context Sampler Decoder}
    {event : GenEvent}
    (ticked : generation.tick backend = .yield event next) :
    (∃ rest, generation.ready = event :: rest ∧
        next = { generation with ready := rest }) ∨
      ∃ rest, generation.ready = [] ∧
        generation.terminal = event :: rest ∧
        next = { generation with terminal := rest } := by
  have view := tick_ticking backend generation
  rw [ticked] at view
  cases view with
  | ready queued => exact Or.inl ⟨_, queued, rfl⟩
  | terminal drained queued => exact Or.inr ⟨_, drained, queued, rfl⟩

/-- The iterator is over when nothing is queued and the sampler is gone. -/
theorem tick_finished_iff
    (generation : Generation Context Sampler Decoder) :
    generation.tick backend = .finished ↔
      generation.ready = [] ∧ generation.terminal = [] ∧
        generation.sampler = none := by
  constructor
  · intro ticked
    have view := tick_ticking backend generation
    rw [ticked] at view
    cases view with
    | finished drained unqueued dropped =>
        exact ⟨drained, unqueued, dropped⟩
  · rintro ⟨drained, unqueued, dropped⟩
    simp only [Generation.tick, drained, unqueued, dropped]

theorem tick_prefilling_ok
    {generation next : Generation Context Sampler Decoder}
    (drained : generation.ready = []) (unqueued : generation.terminal = [])
    (alive : generation.sampler.isSome)
    (notDone : generation.prefillDone backend = false)
    (step : generation.prefillStep backend = .ok next) :
    generation.tick backend = .again next := by
  obtain ⟨sampler, alive⟩ := Option.isSome_iff_exists.mp alive
  simp only [Generation.tick, drained, unqueued, alive, notDone,
    Bool.not_false, if_true, step]

theorem tick_decoding_ok
    {generation next : Generation Context Sampler Decoder}
    (decoding : Decoding backend generation)
    (step : generation.decodeStep backend = .ok next) :
    generation.tick backend = .again next := by
  obtain ⟨drained, unqueued, alive, prefilled⟩ := decoding
  obtain ⟨sampler, alive⟩ := Option.isSome_iff_exists.mp alive
  simp only [Generation.tick, drained, unqueued, alive, prefilled,
    Bool.not_true, Bool.false_eq_true, if_false, step]

theorem tick_decoding_error
    {generation : Generation Context Sampler Decoder} {failure : Failure}
    (decoding : Decoding backend generation)
    (step : generation.decodeStep backend = .error failure) :
    generation.tick backend = .failed failure := by
  obtain ⟨drained, unqueued, alive, prefilled⟩ := decoding
  obtain ⟨sampler, alive⟩ := Option.isSome_iff_exists.mp alive
  simp only [Generation.tick, drained, unqueued, alive, prefilled,
    Bool.not_true, Bool.false_eq_true, if_false, step]

variable (backend)

/-- A run whose decode steps are all good. -/
inductive RunWhere
    (good :
      Generation Context Sampler Decoder →
        Generation Context Sampler Decoder → Prop) :
    Generation Context Sampler Decoder → List GenEvent →
      Generation Context Sampler Decoder → Prop where
  | refl (generation : Generation Context Sampler Decoder) :
      RunWhere good generation [] generation
  | yield
      {generation middle final : Generation Context Sampler Decoder}
      {event : GenEvent} {events : List GenEvent}
      (ticked : generation.tick backend = .yield event middle)
      (rest : RunWhere good middle events final) :
      RunWhere good generation (event :: events) final
  | again
      {generation middle final : Generation Context Sampler Decoder}
      {events : List GenEvent}
      (ticked : generation.tick backend = .again middle)
      (fair : Decoding backend generation → good generation middle)
      (rest : RunWhere good middle events final) :
      RunWhere good generation events final

variable
  {good :
    Generation Context Sampler Decoder →
      Generation Context Sampler Decoder → Prop}

/--
`Keep` holds while the generation goes on and `Final` once its last event is
queued, both after the events yielded so far; the decode steps are good.
-/
structure Invariant
    (good :
      Generation Context Sampler Decoder →
        Generation Context Sampler Decoder → Prop)
    (Keep Final :
      List GenEvent → Generation Context Sampler Decoder → Prop) :
    Prop where
  alive :
    ∀ {past : List GenEvent}
      {generation : Generation Context Sampler Decoder},
      Keep past generation →
        generation.sampler.isSome ∧ generation.terminal = []
  gone :
    ∀ {past : List GenEvent}
      {generation : Generation Context Sampler Decoder},
      Final past generation →
        generation.sampler = none ∧ generation.ready = []
  ready :
    ∀ {past rest : List GenEvent} {event : GenEvent}
      {generation : Generation Context Sampler Decoder},
      Keep past generation → generation.ready = event :: rest →
        Keep (past ++ [event]) { generation with ready := rest }
  terminal :
    ∀ {past rest : List GenEvent} {event : GenEvent}
      {generation : Generation Context Sampler Decoder},
      Final past generation → generation.terminal = event :: rest →
        Final (past ++ [event]) { generation with terminal := rest }
  prefill :
    ∀ {past : List GenEvent}
      {generation next : Generation Context Sampler Decoder},
      Keep past generation → generation.prefillDone backend = false →
        generation.prefillStep backend = .ok next → Keep past next
  decode :
    ∀ {past : List GenEvent}
      {generation next : Generation Context Sampler Decoder},
      Keep past generation → generation.decodeStep backend = .ok next →
        good generation next → Keep past next ∨ Final past next

variable {backend}
variable
  {Keep Final :
    List GenEvent → Generation Context Sampler Decoder → Prop}

theorem RunWhere.run
    {generation final : Generation Context Sampler Decoder}
    {events : List GenEvent}
    (run : RunWhere backend good generation events final) :
    Run backend generation events final := by
  induction run with
  | refl => exact .refl _
  | yield ticked _ induction => exact .yield ticked induction
  | again ticked _ _ induction => exact .again ticked induction

/--
So many passes of the loop of `next`, with the events they yield; no value
where a decode step is not good.
-/
def Generation.ticks
    (backend : Backend Context Sampler Decoder Logit)
    (good :
      Generation Context Sampler Decoder →
        Generation Context Sampler Decoder → Bool) :
    Nat → Generation Context Sampler Decoder →
      Option (List GenEvent × Generation Context Sampler Decoder)
  | 0, generation => some ([], generation)
  | count + 1, generation =>
      match generation.tick backend with
      | .yield event next =>
          (Generation.ticks backend good count next).map fun result =>
            (event :: result.1, result.2)
      | .again next =>
          if Decoding backend generation → good generation next = true then
            Generation.ticks backend good count next
          else
            none
      | _ => none

/-- Passes that are counted are a run. -/
theorem runWhere_of_ticks
    {good :
      Generation Context Sampler Decoder →
        Generation Context Sampler Decoder → Bool}
    {count : Nat} {events : List GenEvent}
    {generation final : Generation Context Sampler Decoder}
    (ticked : generation.ticks backend good count = some (events, final)) :
    RunWhere backend (fun before after => good before after = true)
      generation events final := by
  induction count generalizing generation events with
  | zero =>
      cases ticked
      exact .refl _
  | succ count induction =>
      rw [Generation.ticks] at ticked
      cases step : generation.tick backend with
      | yield event next =>
          simp only [step] at ticked
          obtain ⟨⟨rest, last⟩, tail, equal⟩ :=
            Option.map_eq_some_iff.mp ticked
          cases equal
          exact .yield step (induction tail)
      | again next =>
          simp only [step] at ticked
          split_ifs at ticked with fair
          exact .again step fair (induction ticked)
      | finished => simp [step] at ticked
      | failed failure => simp [step] at ticked

/-- A state with a property, reached in so many passes. -/
theorem exists_runWhere_of_ticks
    (backend : Backend Context Sampler Decoder Logit)
    (good :
      Generation Context Sampler Decoder →
        Generation Context Sampler Decoder → Bool)
    (generation : Generation Context Sampler Decoder) (count : Nat)
    (check : Generation Context Sampler Decoder → Bool)
    (ticked :
      (generation.ticks backend good count).any
        (fun result => check result.2) = true) :
    ∃ events later,
      RunWhere backend (fun before after => good before after = true)
          generation events later ∧
        check later = true := by
  obtain ⟨⟨events, later⟩, reached, checked⟩ :=
    (Option.any_eq_true _ _).mp ticked
  exact ⟨events, later, runWhere_of_ticks reached, checked⟩

theorem exists_run_of_ticks
    (backend : Backend Context Sampler Decoder Logit)
    (generation : Generation Context Sampler Decoder) (count : Nat)
    (check : Generation Context Sampler Decoder → Bool)
    (ticked :
      (generation.ticks backend (fun _ _ => true) count).any
        (fun result => check result.2) = true) :
    ∃ events later,
      Run backend generation events later ∧ check later = true := by
  obtain ⟨events, later, run, checked⟩ :=
    exists_runWhere_of_ticks backend _ generation count check ticked
  exact ⟨events, later, run.run, checked⟩

/-- Any run will do where nothing is asked of its steps. -/
theorem Run.always
    {generation final : Generation Context Sampler Decoder}
    {events : List GenEvent}
    (run : Run backend generation events final) :
    RunWhere backend (fun _ _ => True) generation events final := by
  induction run with
  | refl => exact .refl _
  | yield ticked _ induction => exact .yield ticked induction
  | again ticked _ induction =>
      exact .again ticked (fun _ => trivial) induction

/-- Once the last event is queued, a run only yields the queue. -/
theorem Invariant.run_final
    (invariant : Invariant backend good Keep Final)
    {generation final : Generation Context Sampler Decoder}
    {past events : List GenEvent}
    (run : RunWhere backend good generation events final)
    (holds : Final past generation) :
    Final (past ++ events) final := by
  induction run generalizing past with
  | refl => simpa using holds
  | yield ticked _ induction =>
      rcases tick_yield ticked with
        ⟨rest, ready, -⟩ | ⟨rest, -, terminal, rfl⟩
      · rw [(invariant.gone holds).2] at ready
        cases ready
      · simpa using induction (invariant.terminal holds terminal)
  | again ticked _ _ _ =>
      have alive : _ = true :=
        (tick_again ticked).elim And.left fun decodes => decodes.1.alive
      rw [(invariant.gone holds).1] at alive
      cases alive

/-- An invariant holds along every run. -/
theorem Invariant.run
    (invariant : Invariant backend good Keep Final)
    {generation final : Generation Context Sampler Decoder}
    {past events : List GenEvent}
    (run : RunWhere backend good generation events final)
    (holds : Keep past generation) :
    Keep (past ++ events) final ∨ Final (past ++ events) final := by
  induction run generalizing past with
  | refl => exact Or.inl (by simpa using holds)
  | yield ticked _ induction =>
      rcases tick_yield ticked with
        ⟨rest, ready, rfl⟩ | ⟨rest, -, terminal, -⟩
      · simpa using induction (invariant.ready holds ready)
      · rw [(invariant.alive holds).2] at terminal
        cases terminal
  | again ticked fair rest induction =>
      rcases tick_again ticked with ⟨-, unfilled, step⟩ | ⟨decoding, step⟩
      · exact induction (invariant.prefill holds unfilled step)
      · rcases invariant.decode holds step (fair decoding) with
          keeps | ends
        · exact induction keeps
        · exact Or.inr (invariant.run_final rest ends)

/-- An invariant that holds before any event holds along every run. -/
theorem Invariant.run_start
    (invariant : Invariant backend good Keep Final)
    {generation final : Generation Context Sampler Decoder}
    {events : List GenEvent}
    (run : RunWhere backend good generation events final)
    (holds : Keep [] generation) :
    Keep events final ∨ Final events final := by
  simpa using invariant.run run holds

/-! ## Calls of `next` -/

variable (backend)

/-- A call of `next` returns an item and leaves a state. -/
def Next
    (generation : Generation Context Sampler Decoder) (item : Item)
    (after : Generation Context Sampler Decoder) : Prop :=
  ∃ fuel, generation.next backend fuel = some (item, after)

/-- Calls of `next` return these events, and the call behind them none. -/
inductive Streams :
    Generation Context Sampler Decoder → List GenEvent →
      Generation Context Sampler Decoder → Prop where
  | none {generation final : Generation Context Sampler Decoder}
      (last : Next backend generation .none final) :
      Streams generation [] final
  | item
      {generation middle final : Generation Context Sampler Decoder}
      {event : GenEvent} {events : List GenEvent}
      (first : Next backend generation (.ok event) middle)
      (rest : Streams middle events final) :
      Streams generation (event :: events) final

variable {backend}

theorem next_of_again
    {generation middle after : Generation Context Sampler Decoder}
    {item : Item}
    (ticked : generation.tick backend = .again middle)
    (called : Next backend middle item after) :
    Next backend generation item after := by
  obtain ⟨fuel, called⟩ := called
  refine ⟨fuel + 1, ?_⟩
  rw [Generation.next, ticked]
  exact called

theorem next_of_finished
    {generation : Generation Context Sampler Decoder}
    (finished : generation.tick backend = .finished) :
    Next backend generation .none generation := by
  refine ⟨1, ?_⟩
  rw [Generation.next, finished]

/-- A run to the end is what the calls of `next` return. -/
theorem Run.streams
    {generation final : Generation Context Sampler Decoder}
    {events : List GenEvent}
    (run : Run backend generation events final)
    (finished : final.tick backend = .finished) :
    Streams backend generation events final := by
  induction run with
  | refl => exact .none (next_of_finished finished)
  | yield ticked _ induction =>
      refine .item ⟨1, ?_⟩ (induction finished)
      rw [Generation.next, ticked]
  | again ticked _ induction =>
      cases induction finished with
      | none last => exact .none (next_of_again ticked last)
      | item first rest => exact .item (next_of_again ticked first) rest

/-- More fuel does not change what a call of `next` returns. -/
theorem next_unique
    {generation : Generation Context Sampler Decoder}
    {fuel other : Nat}
    {result result' : Item × Generation Context Sampler Decoder}
    (called : generation.next backend fuel = some result)
    (called' : generation.next backend other = some result') :
    result = result' := by
  induction fuel generalizing generation other with
  | zero => cases called
  | succ fuel induction =>
      cases other with
      | zero => cases called'
      | succ other =>
          rw [Generation.next] at called called'
          cases ticked : generation.tick backend with
          | again middle =>
              simp only [ticked] at called called'
              exact induction called called'
          | yield event middle =>
              simp only [ticked] at called called'
              rw [← Option.some.inj called, ← Option.some.inj called']
          | finished =>
              simp only [ticked] at called called'
              rw [← Option.some.inj called, ← Option.some.inj called']
          | failed failure =>
              simp only [ticked] at called called'
              rw [← Option.some.inj called, ← Option.some.inj called']

/-- A call of `next` that fails is no part of a stream. -/
theorem not_streams_of_error
    {generation final after : Generation Context Sampler Decoder}
    {fuel : Nat} {failure : Failure} {events : List GenEvent}
    (called :
      generation.next backend fuel = some (.error failure, after)) :
    ¬ Streams backend generation events final := by
  intro streams
  cases streams with
  | none last =>
      obtain ⟨other, last⟩ := last
      cases next_unique called last
  | item first =>
      obtain ⟨other, first⟩ := first
      cases next_unique called first

theorem next_again_iff
    {generation middle after : Generation Context Sampler Decoder}
    {item : Item}
    (ticked : generation.tick backend = .again middle) :
    Next backend generation item after ↔ Next backend middle item after := by
  refine ⟨?_, next_of_again ticked⟩
  rintro ⟨fuel, called⟩
  cases fuel with
  | zero => cases called
  | succ fuel =>
      rw [Generation.next, ticked] at called
      exact ⟨fuel, called⟩

/-- A run into a failure is no part of a stream. -/
theorem Run.not_streams
    {generation later final : Generation Context Sampler Decoder}
    {before events : List GenEvent} {failure : Failure}
    (run : Run backend generation before later)
    (failed : later.tick backend = .failed failure) :
    ¬ Streams backend generation events final := by
  induction run generalizing events with
  | @refl later =>
      have called :
          later.next backend 1 = some (.error failure, later) := by
        rw [Generation.next, failed]
      exact not_streams_of_error called
  | @yield generation middle _ event _ ticked _ induction =>
      have called :
          generation.next backend 1 = some (.ok event, middle) := by
        rw [Generation.next, ticked]
      intro streams
      cases streams with
      | none last =>
          obtain ⟨fuel, last⟩ := last
          cases next_unique called last
      | item first rest =>
          obtain ⟨fuel, first⟩ := first
          cases next_unique called first
          exact induction failed rest
  | again ticked _ induction =>
      intro streams
      cases streams with
      | none last =>
          exact induction failed (.none ((next_again_iff ticked).mp last))
      | item first rest =>
          exact induction failed
            (.item ((next_again_iff ticked).mp first) rest)

/-- The events that are ready come first. -/
theorem run_ready (generation : Generation Context Sampler Decoder) :
    Run backend generation generation.ready
      { generation with ready := [] } := by
  cases generation with
  | mk context prompt sampler sampling seed limit stop chunk pending
      generated past decoder idx terminal hit ignore reason shown ready
      budget counter count close inject injected ngram draft tool raw
      history fed =>
      induction ready with
      | nil => exact .refl _
      | cons event ready induction => exact .yield rfl induction

/-- The queued events come next, and then nothing any more. -/
theorem run_terminal
    {generation : Generation Context Sampler Decoder}
    (drained : generation.ready = []) :
    Run backend generation generation.terminal
      { generation with terminal := [] } := by
  cases generation with
  | mk context prompt sampler sampling seed limit stop chunk pending
      generated past decoder idx terminal hit ignore reason shown ready
      budget counter count close inject injected ngram draft tool raw
      history fed =>
      cases drained
      induction terminal with
      | nil => exact .refl _
      | cons event terminal induction => exact .yield rfl induction

/-! ## One decode step -/

/-- A property of the state the loop goes on with, or of the last one. -/
def Progress.Holds {State : Type} (keep final : State → Prop) :
    Progress State → Prop
  | .more state => keep state
  | .ended state => final state

variable (family : ReasonFamily)
variable {keep final : Generation Context Sampler Decoder → Prop}

omit [LinearOrder Logit] [OrderBot Logit] in
/-- The first pass of the loop, and what it goes on with or ends with. -/
theorem commitLoop_cons
    {generation next : Generation Context Sampler Decoder}
    {log : List (Splitter.Entry Char Mode)} {state : Mode × Text}
    {first token : Token} {origin : Origin} {items : List (Token × Origin)}
    (known : Parsed family generation log state)
    (loop :
      Generation.commitLoop backend first ((token, origin) :: items)
        generation = .ok next) :
    ∃ progress,
      Outcome backend family generation log first token origin progress ∧
        progress.Holds
          (fun after =>
            Generation.commitLoop backend first items after = .ok next)
          (fun after => after = next) := by
  rw [Generation.commitLoop] at loop
  rcases known.commitOne backend first token origin with
    ⟨progress, committed, outcome⟩ | ⟨failure, failed, -⟩
  · refine ⟨progress, outcome, ?_⟩
    rw [committed] at loop
    cases progress with
    | more after => exact loop
    | ended after =>
        cases loop
        exact rfl
  · rw [failed] at loop
    cases loop

omit [LinearOrder Logit] [OrderBot Logit] in
/-- What the pass of each token keeps, the loop over the tokens keeps. -/
theorem commitLoop_items
    (parsed :
      ∀ {generation : Generation Context Sampler Decoder},
        keep generation → ∃ log state, Parsed family generation log state)
    {first : Token} {items : List (Token × Origin)}
    (commit :
      ∀ item ∈ items,
        ∀ {generation : Generation Context Sampler Decoder}
          {log state progress},
          keep generation → Parsed family generation log state →
            Outcome backend family generation log first item.1 item.2
                progress →
              progress.Holds keep final)
    {generation next : Generation Context Sampler Decoder}
    (holds : keep generation)
    (loop :
      Generation.commitLoop backend first items generation = .ok next) :
    keep next ∨ final next := by
  induction items generalizing generation with
  | nil =>
      cases loop
      exact Or.inl holds
  | cons item items induction =>
      obtain ⟨here, there⟩ := List.forall_mem_cons.mp commit
      obtain ⟨log, state, known⟩ := parsed holds
      obtain ⟨progress, outcome, rest⟩ := commitLoop_cons family known loop
      have kept := here holds known outcome
      cases progress with
      | more after => exact induction there kept rest
      | ended after =>
          cases rest
          exact Or.inr kept

omit [LinearOrder Logit] [OrderBot Logit] in
/-- What each pass keeps, the loop over the accepted tokens keeps. -/
theorem commitLoop_rule
    (parsed :
      ∀ {generation : Generation Context Sampler Decoder},
        keep generation → ∃ log state, Parsed family generation log state)
    (commit :
      ∀ {generation : Generation Context Sampler Decoder}
        {log state progress} (first token : Token) (origin : Origin),
        keep generation → Parsed family generation log state →
          Outcome backend family generation log first token origin
              progress →
            progress.Holds keep final)
    {first : Token} {items : List (Token × Origin)}
    {generation next : Generation Context Sampler Decoder}
    (holds : keep generation)
    (loop :
      Generation.commitLoop backend first items generation = .ok next) :
    keep next ∨ final next :=
  commitLoop_items family parsed
    (fun _ _ {_ _ _ _} holds known outcome =>
      commit _ _ _ holds known outcome)
    holds loop

variable (backend)

/-- The ways through a decode step. -/
inductive Stepping (generation : Generation Context Sampler Decoder) :
    Except Failure (Generation Context Sampler Decoder) → Prop where
  | full
      (full : generation.maxTokens ≤ generation.generated) :
      Stepping generation (generation.queueTerminal .maxTokens)
  | unchosen {failure : Failure}
      (room : generation.generated < generation.maxTokens)
      (choice : generation.chooseToken backend = .error failure) :
      Stepping generation (.error failure)
  | eos {token : Token} {origin : Origin}
      {chosen : Generation Context Sampler Decoder}
      (room : generation.generated < generation.maxTokens)
      (choice :
        generation.chooseToken backend = .ok (token, origin, chosen))
      (eos : token = backend.tokenEos ∧ generation.ignoreEos = false) :
      Stepping generation (chosen.queueTerminal .eos)
  | undecoded {token : Token} {origin : Origin}
      {chosen : Generation Context Sampler Decoder} {failure : Failure}
      (room : generation.generated < generation.maxTokens)
      (choice :
        generation.chooseToken backend = .ok (token, origin, chosen))
      (going : ¬ (token = backend.tokenEos ∧ generation.ignoreEos = false))
      (drafted : chosen.decodeDrafts backend token = .error failure) :
      Stepping generation (.error failure)
  | commits {token : Token} {origin : Origin}
      {chosen decoded : Generation Context Sampler Decoder}
      {verified : List Token}
      (room : generation.generated < generation.maxTokens)
      (choice :
        generation.chooseToken backend = .ok (token, origin, chosen))
      (going : ¬ (token = backend.tokenEos ∧ generation.ignoreEos = false))
      (drafted :
        chosen.decodeDrafts backend token = .ok (verified, decoded)) :
      Stepping generation
        (Generation.commitLoop backend token
          ((token, origin) :: verified.map fun draft => (draft, .drafted))
          decoded)

/-- An EOS that is chosen ends the generation. -/
theorem decodeStep_eos
    {generation chosen : Generation Context Sampler Decoder}
    {token : Token} {origin : Origin}
    (choice :
      generation.chooseToken backend = .ok (token, origin, chosen))
    (room : generation.generated < generation.maxTokens)
    (eos : token = backend.tokenEos ∧ generation.ignoreEos = false) :
    generation.decodeStep backend = chosen.queueTerminal .eos := by
  rw [Generation.decodeStep, if_neg (Nat.not_le.mpr room), choice]
  simp only [Bind.bind, Except.bind, if_pos eos]

/-- Any other token is committed with its drafts. -/
theorem decodeStep_commit
    {generation chosen : Generation Context Sampler Decoder}
    {token : Token} {origin : Origin}
    (choice :
      generation.chooseToken backend = .ok (token, origin, chosen))
    (room : generation.generated < generation.maxTokens)
    (going :
      ¬ (token = backend.tokenEos ∧ generation.ignoreEos = false)) :
    generation.decodeStep backend =
      chosen.commitTokens backend token origin := by
  rw [Generation.decodeStep, if_neg (Nat.not_le.mpr room), choice]
  simp only [Bind.bind, Except.bind, if_neg going]

theorem decodeStep_stepping
    (generation : Generation Context Sampler Decoder) :
    Stepping backend generation (generation.decodeStep backend) := by
  by_cases full : generation.maxTokens ≤ generation.generated
  · rw [Generation.decodeStep, if_pos full]
    exact .full full
  have room : generation.generated < generation.maxTokens := by omega
  cases choice : generation.chooseToken backend with
  | error failure =>
      rw [Generation.decodeStep, if_neg full, choice]
      exact .unchosen room choice
  | ok result =>
      obtain ⟨token, origin, chosen⟩ := result
      by_cases eos :
          token = backend.tokenEos ∧ generation.ignoreEos = false
      · rw [decodeStep_eos backend choice room eos]
        exact .eos room choice eos
      rw [decodeStep_commit backend choice room eos,
        Generation.commitTokens]
      cases drafted : chosen.decodeDrafts backend token with
      | error failure => exact .undecoded room choice eos drafted
      | ok result =>
          obtain ⟨verified, decoded⟩ := result
          exact .commits room choice eos drafted

variable {backend}

omit [OrderBot Logit] in
/-- Choosing keeps the parser. -/
theorem Parsed.choose
    {family : ReasonFamily}
    {generation chosen : Generation Context Sampler Decoder}
    {log : List (Splitter.Entry Char Mode)} {state : Mode × Text}
    {token : Token} {origin : Origin}
    (parsed : Parsed family generation log state)
    (choice : generation.chooseToken backend = .ok (token, origin, chosen)) :
    Parsed family chosen log state := by
  obtain ⟨_, _, _, _, _, _, rfl, -⟩ := chooseToken_frame backend choice
  exact ⟨parsed.feeds, parsed.reason⟩

/-- Decoding keeps the parser. -/
theorem Parsed.decode
    {family : ReasonFamily}
    {generation decoded : Generation Context Sampler Decoder}
    {log : List (Splitter.Entry Char Mode)} {state : Mode × Text}
    {token : Token} {verified : List Token}
    (parsed : Parsed family generation log state)
    (drafted :
      generation.decodeDrafts backend token = .ok (verified, decoded)) :
    Parsed family decoded log state := by
  obtain ⟨_, _, _, rfl⟩ := decodeDrafts_frame backend drafted
  exact ⟨parsed.feeds, parsed.reason⟩

/-- What choosing, decoding and committing keep, a decode step keeps. -/
theorem decodeStep_rule
    (parsed :
      ∀ {generation : Generation Context Sampler Decoder},
        keep generation → ∃ log state, Parsed family generation log state)
    (choose :
      ∀ {generation chosen : Generation Context Sampler Decoder}
        {token : Token} {origin : Origin},
        keep generation →
          generation.chooseToken backend = .ok (token, origin, chosen) →
            keep chosen)
    (decoded :
      ∀ {generation next : Generation Context Sampler Decoder}
        {token : Token} {verified : List Token},
        keep generation →
          generation.decodeDrafts backend token = .ok (verified, next) →
            keep next)
    (commit :
      ∀ {generation : Generation Context Sampler Decoder}
        {log state progress} (first token : Token) (origin : Origin),
        keep generation → Parsed family generation log state →
          Outcome backend family generation log first token origin
              progress →
            progress.Holds keep final)
    {generation next : Generation Context Sampler Decoder}
    (holds : keep generation)
    (step : generation.decodeStep backend = .ok next) :
    keep next ∨ final next := by
  have view := decodeStep_stepping backend generation
  generalize generation.decodeStep backend = result at view step
  cases view with
  | full full =>
      obtain ⟨log, state, known⟩ := parsed holds
      obtain ⟨more, after, queued, feeds⟩ := known.queueTerminal .maxTokens
      rw [queued] at step
      cases step
      exact Or.inr
        (commit backend.tokenEos backend.tokenEos .sampled holds known
          (.closed (Or.inr ⟨rfl, full⟩) feeds))
  | unchosen => cases step
  | @eos token origin chosen _ choice eos =>
      have chosenHolds := choose holds choice
      have sameEos : chosen.ignoreEos = generation.ignoreEos := by
        obtain ⟨_, _, _, _, _, _, rfl, -⟩ :=
          chooseToken_frame backend choice
        rfl
      obtain ⟨log, state, known⟩ := parsed chosenHolds
      obtain ⟨more, after, queued, feeds⟩ := known.queueTerminal .eos
      rw [queued] at step
      cases step
      exact Or.inr
        (commit token token origin chosenHolds known
          (.closed (Or.inl ⟨rfl, eos.1, sameEos.trans eos.2⟩) feeds))
  | undecoded => cases step
  | commits _ choice _ drafted =>
      exact commitLoop_rule family parsed commit
        (decoded (choose holds choice) drafted) step

/-! ## The parser along a run -/

/-- The generation goes on, and the parser has read what it was fed. -/
structure Reading (generation : Generation Context Sampler Decoder) :
    Prop where
  parsed : ∃ log state, Parsed family generation log state
  alive : generation.sampler.isSome
  unqueued : generation.terminal = []

/-- The last event is queued. -/
structure Over (generation : Generation Context Sampler Decoder) :
    Prop where
  dropped : generation.sampler = none
  drained : generation.ready = []

section

variable {family} {generation : Generation Context Sampler Decoder}

omit [OrderBot Logit] in
theorem Reading.choose (reading : Reading family generation)
    {chosen : Generation Context Sampler Decoder} {token : Token}
    {origin : Origin}
    (choice :
      generation.chooseToken backend = .ok (token, origin, chosen)) :
    Reading family chosen := by
  rcases reading with ⟨⟨log, state, parsed⟩, alive, unqueued⟩
  have known := parsed.choose choice
  rcases chooseToken_frame backend choice with
    ⟨_, _, sampler, _, _, _, rfl, kept⟩
  exact ⟨⟨log, state, known⟩, kept alive, unqueued⟩

theorem Reading.decode (reading : Reading family generation)
    {after : Generation Context Sampler Decoder} {token : Token}
    {verified : List Token}
    (drafted :
      generation.decodeDrafts backend token = .ok (verified, after)) :
    Reading family after := by
  rcases reading with ⟨⟨log, state, parsed⟩, alive, unqueued⟩
  have known := parsed.decode drafted
  rcases decodeDrafts_frame backend drafted with ⟨_, _, _, rfl⟩
  exact ⟨⟨log, state, known⟩, alive, unqueued⟩

omit [LinearOrder Logit] [OrderBot Logit] in
/-- A token is committed, or the generation ends. -/
theorem Reading.commit (reading : Reading family generation)
    {log : List (Splitter.Entry Char Mode)} {first token : Token}
    {origin : Origin}
    {progress : Progress (Generation Context Sampler Decoder)}
    (outcome :
      Outcome backend family generation log first token origin progress) :
    progress.Holds (Reading family) Over := by
  cases outcome with
  | closed => exact ⟨rfl, rfl⟩
  | stopped => exact ⟨rfl, rfl⟩
  | @advanced piece decoder emit keep more next _ _ _ _ after =>
      rcases (advance_advanced backend generation family first token origin
        piece decoder emit keep more next).eq with
        ⟨counted, _, _, _, _, equal⟩
      rw [equal] at after
      simp only [Progress.Holds, equal]
      constructor
      · exact ⟨_, _, after⟩
      · exact (countToken_alive backend generation first token
          counted).trans reading.alive
      · exact reading.unqueued

end

variable (backend)

theorem reading_invariant :
    Invariant backend (fun _ _ => True)
      (fun _ (generation : Generation Context Sampler Decoder) =>
        Reading family generation)
      (fun _ generation => Over generation) where
  alive reading := ⟨reading.alive, reading.unqueued⟩
  gone gone := ⟨gone.dropped, gone.drained⟩
  ready := by
    rintro past rest event generation
      ⟨⟨log, state, parsed⟩, alive, unqueued⟩ -
    exact ⟨⟨log, state, parsed.feeds, parsed.reason⟩, alive, unqueued⟩
  terminal := by
    rintro past rest event generation ⟨dropped, drained⟩ -
    exact ⟨dropped, drained⟩
  prefill := by
    rintro past generation next
      ⟨⟨log, state, parsed⟩, alive, unqueued⟩ - step
    obtain ⟨context, position, index, rfl⟩ :=
      prefillStep_frame backend step
    exact ⟨⟨log, state, parsed.feeds, parsed.reason⟩, alive, unqueued⟩
  decode := by
    intro past generation next reading step _
    refine decodeStep_rule family ?_ ?_ ?_ ?_ reading step
    · intro generation reading
      exact reading.parsed
    · intro generation chosen token origin reading choice
      exact reading.choose choice
    · intro generation after token verified reading drafted
      exact reading.decode drafted
    · intro generation log state progress first token origin reading _ outcome
      exact reading.commit outcome

omit [LinearOrder Logit] [OrderBot Logit] in
/-- The parser of a new generation has read nothing. -/
theorem parsed_start
    (context : Context) (restored : Option Context) (request : Request)
    (constrained : Option Sampler)
    (toolReply : Option (Text → Text × List ToolCall)) :
    Parsed backend.family
      (generate backend context restored request constrained toolReply) []
      (.unlocked, []) := by
  cases constrained with
  | none => exact ⟨.nil _, rfl⟩
  | some sampler => exact ⟨.nil _, rfl⟩

omit [LinearOrder Logit] [OrderBot Logit] in
theorem reading_start
    (context : Context) (restored : Option Context) (request : Request)
    (constrained : Option Sampler)
    (toolReply : Option (Text → Text × List ToolCall)) :
    Reading backend.family
      (generate backend context restored request constrained
        toolReply) := by
  have parsed :=
    parsed_start backend context restored request constrained toolReply
  cases constrained with
  | none => exact ⟨⟨_, _, parsed⟩, rfl, rfl⟩
  | some sampler => exact ⟨⟨_, _, parsed⟩, rfl, rfl⟩

end Runs

/-! ## Backends for concrete runs -/

/-- No call of the backend fails, and no text is without tokens. -/
structure Backend.Total
    (backend : Backend Context Sampler Decoder Logit) : Prop where
  decode : ∀ context batch, backend.decode context batch ≠ none
  piece : ∀ decoder token, backend.tokenToPiece decoder token ≠ none
  tokens :
    ∀ text, ∃ token rest, backend.strToToken text = some (token :: rest)

/--
A backend whose sampler reads its choices from a script and then chooses
EOS, which is 0.  `vocabulary` gives the texts of tokens and `codes` the
tokens of texts.
-/
def scripted
    (template : Text) (vocabulary : List (Token × Text))
    (codes : List (Text × List Token)) (script : List Token) :
    Backend Unit (List Token) Unit Nat where
  nBatch := 8
  nCtx := 64
  chatTemplate := some template
  tokenEos := 0
  decode _ _ := some ()
  logits _ _ := []
  bump _ _ _ := ()
  clearFrom _ _ := ()
  clearKv _ := ()
  chain _ := script
  sample rest _ _ := (rest.headD 0, rest.tail)
  accept rest _ := rest
  draw _ _ seed := (0, seed)
  newDecoder := ()
  tokenToPiece _ token := some ((vocabulary.lookup token).getD [], ())
  strToToken text :=
    match codes.lookup text with
    | some (token :: rest) => some (token :: rest)
    | _ => some [1]

theorem scripted_total
    (template : Text) (vocabulary : List (Token × Text))
    (codes : List (Text × List Token)) (script : List Token) :
    (scripted template vocabulary codes script).Total where
  decode _ _ := Option.some_ne_none _
  piece _ _ := Option.some_ne_none _
  tokens text := by
    simp only [scripted]
    split
    · exact ⟨_, _, rfl⟩
    · exact ⟨_, _, rfl⟩

/-- A request without a budget, for concrete runs. -/
def plainRequest (stop : List Text) : Request where
  promptTokens := [1]
  maxTokens := 16
  stop := stop
  sampling :=
    { temperature := 0
      topK := 40
      topP := 1
      minP := 0
      repeatPenalty := 1
      repeatLastN := 64
      seed := 42
      kernelSampler := false }
  ignoreEos := false
  useCache := false
  think := { mode := .on, «show» := true }
  prefilled := none
  ngram := false
  draftN := 0

end Runa.Engine.Generate
