import Runa.Engine.GenerateStream

/-!
# Speculation against one token at a time

A generation that drafts decodes several tokens in one batch; one that does
not decodes them one by one.  Both are runs of the same embedding, and this
module relates them: a generation that does not draft shadows one that does,
several of its steps to one of the other's.

Drafts are verified against the raw logits, while the sampler sees penalised
ones, and a draft that equals the first token of its batch is not shown to
the sampler.  So the two agree as long as neither shows, which is
`Undisturbed`.
-/

namespace Runa.Engine.Generate

open Runa.Stream
open Runa.Stream.Utf8
open Runa.Core.Reason
open Runa.Core.Think
open Runa.Engine.Ngram
open Runa.Engine.Sampling
open Runa.Engine.StopFilter

variable {Context Sampler Decoder Logit : Type}

/-! ## Greedy decoding -/

/-- Each item of a batch sits at the next free position. -/
def Contiguous (start : Int) (batch : List BatchItem) : Prop :=
  ∀ index item, batch[index]? = some item →
    item.position = start + (index : Nat)

/--
What greedy decoding relies on in llama.cpp.  A context stands for the tokens
in its cells, and the logits are a function of them; a greedy chain stands for
the tokens it was shown, and chooses the arg max of the penalised logits.
-/
structure Greedy [LinearOrder Logit] [OrderBot Logit]
    (backend : Backend Context Sampler Decoder Logit) where
  cells : Context → List Token
  model : List Token → List Logit
  penalise : Int → Rat → List Token → List Logit → List Logit
  /-- A chain with these penalties that was shown these tokens. -/
  Shown : Sampler → Int → Rat → List Token → Prop
  decode :
    ∀ context batch, batch ≠ [] → batch.length ≤ backend.batchSize →
      Contiguous (cells context).length batch →
        ∃ next,
          backend.decode context batch = some next ∧
            cells next = cells context ++ batch.map BatchItem.token ∧
            ∀ index item, batch[index]? = some item →
              item.logits = true →
                backend.logits next (index : Nat) =
                  model
                    (cells context ++
                      (batch.take (index + 1)).map BatchItem.token)
  cells_clearFrom :
    ∀ context (count : Nat),
      cells (backend.clearFrom context count) =
        (cells context).take count
  cells_clearKv : ∀ context, cells (backend.clearKv context) = []
  logits_clearFrom :
    ∀ context (count : Nat) index,
      backend.logits (backend.clearFrom context count) index =
        backend.logits context index
  shown_chain :
    ∀ lastN repeated,
      Shown (backend.chain [.penalties lastN repeated 0 0, .greedy]) lastN
        repeated []
  shown_accept :
    ∀ {sampler lastN repeated tokens} token,
      Shown sampler lastN repeated tokens →
        Shown (backend.accept sampler token) lastN repeated
          (tokens ++ [token])
  shown_sample :
    ∀ {sampler lastN repeated tokens} context index,
      Shown sampler lastN repeated tokens →
        ∃ next,
          backend.sample sampler context index =
              (argmaxI32
                (penalise lastN repeated tokens
                  (backend.logits context index)), next) ∧
            Shown next lastN repeated
              (tokens ++
                [argmaxI32
                  (penalise lastN repeated tokens
                    (backend.logits context index))])

section Greedy

variable [LinearOrder Logit] [OrderBot Logit]
variable {backend : Backend Context Sampler Decoder Logit}

/-- The token greedy decoding chooses behind these tokens. -/
def Greedy.choice
    (greedy : Greedy backend) (sampling : SamplingConfig)
    (tokens : List Token) (row : List Logit) : Token :=
  if sampling.kernelSampler then
    argmaxI32 row
  else
    argmaxI32
      (greedy.penalise sampling.repeatLastN sampling.repeatPenalty tokens
        row)

/-- Each token is the choice behind the cells and the tokens before it. -/
def Greedy.Follows
    (greedy : Greedy backend) (sampling : SamplingConfig) :
    List Token → List Token → List Logit → List Token → Prop
  | _, _, _, [] => True
  | cells, tokens, row, token :: rest =>
      greedy.choice sampling tokens row = token ∧
        greedy.Follows sampling (cells ++ [token]) (tokens ++ [token])
          (greedy.model (cells ++ [token])) rest

/-- The tokens of a history, oldest first. -/
def committed (history : List Commit) : List Token :=
  (history.map Commit.token).reverse

/-- Each token is the arg max of the raw logits behind those before it. -/
def Greedy.Raw (greedy : Greedy backend) :
    List Token → List Token → Prop
  | _, [] => True
  | cells, token :: rest =>
      argmaxI32 (greedy.model cells) = token ∧
        greedy.Raw (cells ++ [token]) rest

/--
Neither shortcut of a decode step shows.  The tokens the sampler was shown
lead to the choice that the committed tokens lead to, and drafts which are
the raw arg max are the penalised one too.
-/
structure Greedy.Undisturbed
    (greedy : Greedy backend)
    (generation : Generation Context Sampler Decoder) : Prop where
  shown :
    ∀ sampler tokens,
      generation.sampler = some sampler →
        greedy.Shown sampler generation.sampling.repeatLastN
            generation.sampling.repeatPenalty tokens →
          greedy.choice generation.sampling tokens
              (backend.logits generation.context generation.lastIdx) =
            greedy.choice generation.sampling
              (committed generation.history)
              (backend.logits generation.context generation.lastIdx)
  drafts :
    ∀ token accepted,
      token =
          greedy.choice generation.sampling
            (committed generation.history)
            (backend.logits generation.context generation.lastIdx) →
        accepted <+: generation.drafts backend token →
          greedy.Raw (greedy.cells generation.context ++ [token])
              accepted →
            greedy.Follows generation.sampling
              (greedy.cells generation.context ++ [token])
              (committed generation.history ++ [token])
              (greedy.model
                (greedy.cells generation.context ++ [token]))
              accepted

/-- The arg max of every row is the choice. -/
def Greedy.Inert
    (greedy : Greedy backend) (sampling : SamplingConfig) : Prop :=
  ∀ tokens row, greedy.choice sampling tokens row = argmaxI32 row

theorem Greedy.Inert.follows
    {greedy : Greedy backend} {sampling : SamplingConfig}
    (inert : greedy.Inert sampling) {cells accepted : List Token}
    (raw : greedy.Raw cells accepted) (tokens : List Token) :
    greedy.Follows sampling cells tokens (greedy.model cells)
      accepted := by
  induction accepted generalizing cells tokens with
  | nil => trivial
  | cons token rest induction =>
      obtain ⟨here, behind⟩ := raw
      exact ⟨(inert tokens _).trans here, induction behind _⟩

/-- Where penalties change nothing, no shortcut shows. -/
theorem Greedy.Inert.undisturbed
    {greedy : Greedy backend}
    {generation : Generation Context Sampler Decoder}
    (inert : greedy.Inert generation.sampling) :
    greedy.Undisturbed generation where
  shown _ tokens _ _ :=
    (inert tokens _).trans (inert (committed generation.history) _).symm
  drafts _ _ _ _ raw := inert.follows raw _

end Greedy

/-! ## What a pass depends on -/

/-- What a pass of the loop over the accepted tokens will do. -/
inductive Plan (Decoder : Type) where
  | close (more : List (Splitter.Entry Char Mode)) (state : Mode × Text)
      (reason : StopReason)
  | advance (piece : Text) (decoder : Decoder) (emit keep : Text)
      (more : List (Splitter.Entry Char Mode)) (state : Mode × Text)
  | stop (piece : Text) (decoder : Decoder) (before matched : Text)
      (more : List (Splitter.Entry Char Mode)) (state : Mode × Text)
  | fail (failure : Failure)

section Plans

variable (backend : Backend Context Sampler Decoder Logit)

/-- A pass that does as planned. -/
def Plan.carryOut
    (plan : Plan Decoder) (family : ReasonFamily)
    (first token : Token) (origin : Origin)
    (generation : Generation Context Sampler Decoder) :
    Except Failure (Progress (Generation Context Sampler Decoder)) :=
  match plan with
  | .close more state reason =>
      .ok (.ended (generation.closeOn family more state reason))
  | .advance piece decoder emit keep more state =>
      .ok
        (.more
          (generation.advance backend family first token origin piece
            decoder emit keep more state))
  | .stop piece decoder before matched more state =>
      .ok
        (.ended
          (generation.stopOn backend family first token origin piece
            decoder before matched more state))
  | .fail failure => .error failure

/-- Two generations that have come as far with their text. -/
structure AsFar (left right : Generation Context Sampler Decoder) :
    Prop where
  reason : right.reason = left.reason
  pending : right.pending = left.pending
  stop : right.stop = left.stop
  decoder : right.decoder = left.decoder
  ignoreEos : right.ignoreEos = left.ignoreEos
  generated : right.generated = left.generated
  maxTokens : right.maxTokens = left.maxTokens

/-- What a pass does depends on the text alone. -/
theorem commitOne_planned
    {family : ReasonFamily} {state : Mode × Text}
    {generation : Generation Context Sampler Decoder}
    (parser : generation.reason = .ofState family state) (token : Token) :
    ∃ plan : Plan Decoder,
      ∀ other, AsFar generation other → ∀ first origin,
        other.commitOne backend first token origin =
          plan.carryOut backend family first token origin other := by
  have same {other : Generation Context Sampler Decoder}
      (far : AsFar generation other) :
      other.reason = .ofState family state :=
    far.reason.trans parser
  by_cases eos :
      token = backend.tokenEos ∧ generation.ignoreEos = false
  · obtain ⟨more, next, feeds⟩ :=
      Splitter.feeds_exists (splitter family) state generation.pending
    refine ⟨.close more next .eos, fun other far first origin => ?_⟩
    rw [← far.ignoreEos] at eos
    rw [Generation.commitOne, if_pos eos,
      queueTerminal_eq (same far) far.pending feeds]
    rfl
  by_cases full : generation.maxTokens ≤ generation.generated
  · obtain ⟨more, next, feeds⟩ :=
      Splitter.feeds_exists (splitter family) state generation.pending
    refine ⟨.close more next .maxTokens, fun other far first origin => ?_⟩
    rw [← far.ignoreEos] at eos
    rw [← far.maxTokens, ← far.generated] at full
    rw [Generation.commitOne, if_neg eos, if_pos full,
      queueTerminal_eq (same far) far.pending feeds]
    rfl
  have goes {other : Generation Context Sampler Decoder}
      (far : AsFar generation other) :
      ¬ (token = backend.tokenEos ∧ other.ignoreEos = false) ∧
        ¬ other.maxTokens ≤ other.generated := by
    rw [far.ignoreEos, far.maxTokens, far.generated]
    exact ⟨eos, full⟩
  cases decoded : backend.tokenToPiece generation.decoder token with
  | none =>
      refine ⟨.fail .decode, fun other far first origin => ?_⟩
      rw [Generation.commitOne, if_neg (goes far).1, if_neg (goes far).2,
        far.decoder, decoded]
      rfl
  | some result =>
      obtain ⟨piece, decoder⟩ := result
      cases split :
          splitEmit (generation.pending ++ piece) generation.stop with
      | none =>
          refine ⟨.fail .panic, fun other far first origin => ?_⟩
          rw [Generation.commitOne, if_neg (goes far).1,
            if_neg (goes far).2, far.decoder, decoded]
          simp only [far.pending, far.stop, split]
          rfl
      | some outcome =>
          cases outcome with
          | emit emit keep =>
              obtain ⟨more, next, feeds⟩ :=
                Splitter.feeds_exists (splitter family) state emit
              refine
                ⟨.advance piece decoder emit keep more next,
                  fun other far first origin => ?_⟩
              have parser := same far
              have read :
                  Generation.enqueueParsed
                      { other.countToken backend first token decoder with
                        pending := keep } emit =
                    .ok
                      (Generation.readOn
                        { other.countToken backend first token decoder
                          with pending := keep } family emit more next) :=
                enqueueParsed_eq parser feeds
              rw [Generation.commitOne, if_neg (goes far).1,
                if_neg (goes far).2, far.decoder, decoded]
              simp only [far.pending, far.stop, split]
              rw [read]
              rfl
          | stop before matched =>
              obtain ⟨more, next, feeds⟩ :=
                Splitter.feeds_exists (splitter family) state before
              refine
                ⟨.stop piece decoder before matched more next,
                  fun other far first origin => ?_⟩
              have parser := same far
              have queued :
                  Generation.queueTerminal
                      { other.countToken backend first token decoder with
                        pending := before } (.stopString matched) =
                    .ok
                      (Generation.closeOn
                        { other.countToken backend first token decoder
                          with pending := before } family more next
                        (.stopString matched)) := by
                refine queueTerminal_eq ?_ rfl feeds _
                exact parser
              rw [Generation.commitOne, if_neg (goes far).1,
                if_neg (goes far).2, far.decoder, decoded]
              simp only [far.pending, far.stop, split]
              rw [queued]
              rfl

/-! ## Shadows -/

variable {backend}

/-- The same generation with its own context, sampler and queue. -/
def Generation.shadow
    (generation : Generation Context Sampler Decoder)
    (context : Context) (sampler : Option Sampler) (past index : Int)
    (ready : List GenEvent) (history : List Commit) :
    Generation Context Sampler Decoder :=
  { generation with
    context := context
    sampler := sampler
    nPast := past
    lastIdx := index
    ready := ready
    ngram := none
    history := history }

theorem shadow_asFar
    (generation : Generation Context Sampler Decoder)
    (context : Context) (sampler : Option Sampler) (past index : Int)
    (ready : List GenEvent) (history : List Commit) :
    AsFar generation
      (generation.shadow context sampler past index ready history) :=
  ⟨rfl, rfl, rfl, rfl, rfl, rfl, rfl⟩

/-- The shadow of an advance is an advance of the shadow. -/
theorem shadow_advance
    (backend : Backend Context Sampler Decoder Logit)
    (generation : Generation Context Sampler Decoder)
    (context : Context) (sampler : Option Sampler) (past index : Int)
    (ready : List GenEvent) (history : List Commit)
    (family : ReasonFamily) (first token : Token) (origin : Origin)
    (piece : Text) (decoder : Decoder) (emit keep : Text)
    (more : List (Splitter.Entry Char Mode)) (state : Mode × Text) :
    ∃ commit : Commit,
      commit.token = token ∧
        (generation.shadow context sampler past index ready
            history).advance backend family token token .sampled piece
            decoder emit keep more state =
          (generation.advance backend family first token origin piece
            decoder emit keep more state).shadow context sampler past
              index
              (ready ++
                generation.eventsOf (Runa.Core.Reason.pieces more))
              (commit :: history) := by
  refine
    ⟨{ token := token
       origin := .sampled
       piece := piece
       inReason := (ReasoningParser.ofState family state).inReason
       holding := (ReasoningParser.ofState family state).holdingPartial
       crossed := crosses generation.reason emit }, rfl, ?_⟩
  simp only [Generation.advance, observeBudget_eq, Generation.shadow,
    Generation.countToken, Generation.record, Generation.readOn,
    ne_eq, not_true, if_false]
  rfl

end Plans


/-! ## The steps of greedy decoding -/

section Steps

/-- Tokens at the positions from `start` on. -/
def batchOf (start : Int) (flag : Nat → Bool) (tokens : List Token) :
    List BatchItem :=
  tokens.zipIdx.map fun (item, index) =>
    { token := item
      position := start + index
      logits := flag index }

theorem batchOf_tokens
    (start : Int) (flag : Nat → Bool) (tokens : List Token) :
    (batchOf start flag tokens).map BatchItem.token = tokens := by
  rw [batchOf, List.map_map]
  exact List.zipIdx_map_fst 0 tokens

theorem batchOf_getElem?
    (start : Int) (flag : Nat → Bool) (tokens : List Token)
    (index : Nat) :
    (batchOf start flag tokens)[index]? =
      tokens[index]?.map fun item =>
        { token := item
          position := start + index
          logits := flag index } := by
  rw [batchOf, List.getElem?_map, List.getElem?_zipIdx, Option.map_map,
    Nat.zero_add]
  rfl

variable [LinearOrder Logit] [OrderBot Logit]
variable {backend : Backend Context Sampler Decoder Logit}
variable (greedy : Greedy backend)

/-- Decoding tokens behind the cells. -/
theorem Greedy.decode_batchOf
    (context : Context) (flag : Nat → Bool) {tokens : List Token}
    (nonempty : tokens ≠ []) (fits : tokens.length ≤ backend.batchSize) :
    ∃ next,
      backend.decode context
          (batchOf (greedy.cells context).length flag tokens) =
        some next ∧
        greedy.cells next = greedy.cells context ++ tokens ∧
        ∀ index, index < tokens.length → flag index = true →
          backend.logits next index =
            greedy.model
              (greedy.cells context ++ tokens.take (index + 1)) := by
  obtain ⟨next, decoded, cells, rows⟩ :=
    greedy.decode context
      (batchOf (greedy.cells context).length flag tokens)
      (by simpa [batchOf] using nonempty) (by simpa [batchOf] using fits)
      (by
        intro index item found
        rw [batchOf_getElem?, Option.map_eq_some_iff] at found
        obtain ⟨token, -, rfl⟩ := found
        rfl)
  refine ⟨next, decoded, ?_, ?_⟩
  · rw [cells, batchOf_tokens]
  · intro index bound wanted
    have found :
        (batchOf (greedy.cells context).length flag tokens)[index]? =
          some
            { token := tokens[index]
              position := (greedy.cells context).length + index
              logits := flag index } := by
      rw [batchOf_getElem?, List.getElem?_eq_getElem bound]
      rfl
    rw [rows index _ found wanted, List.map_take, batchOf_tokens]

omit [OrderBot Logit] in
theorem forceKind_unlimited
    {generation : Generation Context Sampler Decoder}
    (unlimited : generation.budget = none) :
    generation.forceKind = .sample := by
  rw [Generation.forceKind, unlimited]

/-- Without a budget or a temperature, the choice is greedy. -/
theorem Greedy.chooseToken_eq
    {generation : Generation Context Sampler Decoder}
    {sampler : Sampler} {tokens : List Token}
    (cold : generation.sampling.temperature ≤ 0)
    (unlimited : generation.budget = none)
    (alive : generation.sampler = some sampler)
    (shown :
      greedy.Shown sampler generation.sampling.repeatLastN
        generation.sampling.repeatPenalty tokens) :
    ∃ next shownNext,
      generation.chooseToken backend =
          .ok
            (greedy.choice generation.sampling tokens
                (backend.logits generation.context generation.lastIdx),
              .sampled, { generation with sampler := some next }) ∧
        greedy.Shown next generation.sampling.repeatLastN
          generation.sampling.repeatPenalty shownNext ∧
        (generation.sampling.kernelSampler = false →
          shownNext =
            tokens ++
              [greedy.choice generation.sampling tokens
                (backend.logits generation.context
                  generation.lastIdx)]) := by
  have kind := forceKind_unlimited unlimited
  have place : generation.biased backend .sample = generation.context := rfl
  cases kernel : generation.sampling.kernelSampler with
  | true =>
      refine ⟨sampler, tokens, ?_, shown, fun impossible => ?_⟩
      · simp only [Generation.chooseToken, kind, reduceCtorEq, if_false,
          Generation.sampleNext, place, kernel, if_true,
          sampleToken_greedy backend.draw cold, Greedy.choice, ← alive]
        rfl
      · cases impossible
  | false =>
      obtain ⟨next, sampled, shownNext⟩ :=
        greedy.shown_sample generation.context generation.lastIdx shown
      refine ⟨next, _, ?_, shownNext, fun _ => ?_⟩
      · simp only [Generation.chooseToken, kind, reduceCtorEq, if_false,
          Generation.sampleNext, place, kernel, Bool.false_eq_true,
          alive, sampled, Greedy.choice]
        rfl
      · simp only [Greedy.choice, kernel, Bool.false_eq_true, if_false]

end Steps

section Drafts

variable [LinearOrder Logit] [OrderBot Logit]
variable {backend : Backend Context Sampler Decoder Logit}

theorem verify_prefix_drafts
    (backend : Backend Context Sampler Decoder Logit)
    (context : Context) (index : Nat) (drafts : List Token) :
    verify backend context index drafts <+: drafts := by
  induction drafts generalizing index with
  | nil => exact List.prefix_rfl
  | cons draft drafts induction =>
      rw [verify]
      split_ifs
      · exact List.cons_prefix_cons.mpr ⟨rfl, induction (index + 1)⟩
      · exact List.nil_prefix

omit [LinearOrder Logit] [OrderBot Logit] in
theorem drafts_length_le
    (backend : Backend Context Sampler Decoder Logit)
    (generation : Generation Context Sampler Decoder) (token : Token) :
    (generation.drafts backend token).length ≤ backend.nBatch - 1 ∧
      (generation.drafts backend token).length ≤
        generation.maxTokens - (generation.generated + 1) := by
  unfold Generation.drafts
  split
  next => exact ⟨Nat.zero_le _, Nat.zero_le _⟩
  next cache hist _ =>
      have bound :=
        cache.draft_length_le (hist ++ [token])
          (min
            (min
              (generation.maxTokens - (generation.generated + 1))
              generation.draftN)
            (backend.nBatch - 1))
      dsimp only
      omega

variable (greedy : Greedy backend)

/-- Accepted drafts are the raw arg max behind those before them. -/
theorem Greedy.raw_verify
    {context : Context} {index : Nat} {drafts cells : List Token}
    (rows :
      ∀ offset, offset < drafts.length →
        backend.logits context ((index + offset : Nat) : Int) =
          greedy.model (cells ++ drafts.take offset)) :
    greedy.Raw cells (verify backend context index drafts) := by
  induction drafts generalizing index cells with
  | nil => trivial
  | cons draft drafts induction =>
      have here := rows 0 (Nat.succ_pos _)
      rw [Nat.add_zero, List.take_zero, List.append_nil] at here
      rw [verify]
      split_ifs with accepted
      · refine ⟨by rw [← here, accepted], ?_⟩
        refine induction fun offset bound => ?_
        have row := rows (offset + 1) (Nat.succ_lt_succ bound)
        rw [List.take_succ_cons] at row
        rw [List.append_assoc, List.singleton_append, ← row]
        congr 2
        omega
      · trivial

/-- What the decoding of a token with its drafts leaves behind. -/
theorem Greedy.decodeDrafts_eq
    {generation : Generation Context Sampler Decoder}
    (aligned :
      generation.nPast = (greedy.cells generation.context).length)
    (token : Token) :
    ∃ verified context,
      generation.decodeDrafts backend token =
          .ok
            (verified,
              { generation with
                context := context
                nPast := generation.nPast + (verified.length + 1 : Nat)
                lastIdx := verified.length }) ∧
        verified.length ≤
          generation.maxTokens - (generation.generated + 1) ∧
        greedy.cells context =
          greedy.cells generation.context ++ token :: verified ∧
        backend.logits context verified.length =
          greedy.model
            (greedy.cells generation.context ++ token :: verified) ∧
        verified <+: generation.drafts backend token ∧
        greedy.Raw (greedy.cells generation.context ++ [token])
          verified := by
  obtain ⟨small, room⟩ :=
    drafts_length_le backend generation token
  generalize listed : generation.drafts backend token = drafts
    at small room ⊢
  have fits : (token :: drafts).length ≤ backend.batchSize := by
    rw [List.length_cons, Backend.batchSize]
    omega
  obtain ⟨context, decoded, cells, rows⟩ :=
    greedy.decode_batchOf generation.context (fun _ => true)
      (List.cons_ne_nil token drafts) fits
  rw [← aligned] at decoded
  have kept := verify_prefix_drafts backend context 0 drafts
  have raw :
      greedy.Raw (greedy.cells generation.context ++ [token])
        (verify backend context 0 drafts) := by
    refine greedy.raw_verify fun offset bound => ?_
    have row := rows offset (by rw [List.length_cons]; omega) rfl
    rw [List.take_succ_cons] at row
    simpa using row
  generalize checked : verify backend context 0 drafts = verified
    at kept raw
  have taken :
      (token :: drafts).take (verified.length + 1) = token :: verified := by
    rw [List.take_succ_cons, ← List.prefix_iff_eq_take.mp kept]
  have shorter := kept.length_le
  have row :=
    rows verified.length (by rw [List.length_cons]; omega) rfl
  rw [taken] at row
  have place :
      generation.nPast + ((verified.length + 1 : Nat) : Int) =
        (((greedy.cells generation.context).length +
          (verified.length + 1) : Nat) : Int) := by
    rw [aligned]
    omega
  have decodes :
      generation.decodeDrafts backend token =
        .ok
          (verified,
            { generation with
              context :=
                if verified.length + 1 < drafts.length + 1 then
                  backend.clearFrom context
                    (generation.nPast + (verified.length + 1 : Nat))
                else
                  context
              nPast := generation.nPast + (verified.length + 1 : Nat)
              lastIdx := verified.length }) := by
    simp only [batchOf] at decoded
    simp only [Generation.decodeDrafts, listed, decoded, checked]
    rw [Nat.cast_succ, add_sub_cancel_right]
  refine
    ⟨verified, _, decodes, shorter.trans room, ?_, ?_, kept, raw⟩
  · split_ifs
    · rw [place, greedy.cells_clearFrom, cells, List.take_length_add_append,
        taken]
    · rw [cells, ← taken, List.take_of_length_le]
      rw [List.length_cons]
      omega
  · split_ifs
    · rw [place, greedy.logits_clearFrom, row]
    · exact row

end Drafts

/-! ## Greedy generations -/

/-- The prompt tokens the next prefill step decodes. -/
def Generation.chunk
    (backend : Backend Context Sampler Decoder Logit)
    (generation : Generation Context Sampler Decoder) : List Token :=
  let start := generation.prefillChunk * backend.batchSize
  let stop :=
    min (start + backend.batchSize) generation.promptTokens.length
  (generation.promptTokens.drop start).take (stop - start)

section Greedily

variable [LinearOrder Logit] [OrderBot Logit]
variable {backend : Backend Context Sampler Decoder Logit}
variable (greedy : Greedy backend)

/-- A prefill step decodes the next chunk of the prompt. -/
theorem Greedy.prefillStep_eq
    {generation : Generation Context Sampler Decoder}
    (aligned :
      generation.nPast = (greedy.cells generation.context).length)
    (notDone : generation.prefillDone backend = false) :
    ∃ context,
      generation.prefillStep backend =
          .ok
            { generation with
              context := context
              nPast :=
                generation.nPast + (generation.chunk backend).length
              lastIdx := ((generation.chunk backend).length : Int) - 1
              prefillChunk := generation.prefillChunk + 1 } ∧
        greedy.cells context =
          greedy.cells generation.context ++ generation.chunk backend ∧
        backend.logits context
            (((generation.chunk backend).length : Int) - 1) =
          greedy.model
            (greedy.cells generation.context ++
              generation.chunk backend) := by
  have size : 0 < backend.batchSize := by
    rw [Backend.batchSize]
    omega
  simp only [Generation.prefillDone, Bool.or_eq_false_iff,
    decide_eq_false_iff_not, not_le] at notDone
  have left := notDone.2
  have length :
      (generation.chunk backend).length =
        min
            (generation.prefillChunk * backend.batchSize +
              backend.batchSize)
            generation.promptTokens.length -
          generation.prefillChunk * backend.batchSize := by
    simp only [Generation.chunk, List.length_take, List.length_drop]
    omega
  have nonempty : generation.chunk backend ≠ [] := by
    refine List.ne_nil_of_length_pos ?_
    omega
  obtain ⟨context, decoded, cells, rows⟩ :=
    greedy.decode_batchOf generation.context
      (fun index =>
        decide (index + 1 = (generation.chunk backend).length))
      nonempty (by omega)
  have positive := List.length_pos_of_ne_nil nonempty
  have row :=
    rows ((generation.chunk backend).length - 1) (by omega)
      (by rw [decide_eq_true_eq]; omega)
  rw [Nat.sub_add_cancel positive, List.take_length] at row
  refine ⟨context, ?_, cells, ?_⟩
  · rw [← aligned] at decoded
    simp only [batchOf, length] at decoded
    simp only [Generation.chunk] at decoded
    simp only [Generation.prefillStep, decoded, length]
  · rw [← row]
    congr 1
    omega

/--
A generation that decodes greedily: no temperature, no budget, and a context
that ends where the next token goes.
-/
structure Greedily
    (family : ReasonFamily)
    (generation : Generation Context Sampler Decoder) : Prop where
  reading : Reading family generation
  cold : generation.sampling.temperature ≤ 0
  unlimited : generation.budget = none
  aligned : generation.nPast = (greedy.cells generation.context).length
  bounded : generation.generated ≤ generation.maxTokens
  shown :
    ∃ sampler tokens,
      generation.sampler = some sampler ∧
        greedy.Shown sampler generation.sampling.repeatLastN
          generation.sampling.repeatPenalty tokens

variable {greedy} {family : ReasonFamily}
variable {generation next : Generation Context Sampler Decoder}

theorem Greedily.ready
    (greedily : Greedily greedy family generation)
    (rest : List GenEvent) :
    Greedily greedy family { generation with ready := rest } := by
  obtain ⟨⟨⟨log, state, feeds, reason⟩, alive, unqueued⟩, cold, unlimited,
    aligned, bounded, shown⟩ := greedily
  exact
    ⟨⟨⟨log, state, feeds, reason⟩, alive, unqueued⟩, cold, unlimited,
      aligned, bounded, shown⟩

theorem Greedily.prefill
    (greedily : Greedily greedy family generation)
    (notDone : generation.prefillDone backend = false)
    (step : generation.prefillStep backend = .ok next) :
    Greedily greedy family next := by
  obtain ⟨context, prefilled, cells, -⟩ :=
    greedy.prefillStep_eq greedily.aligned notDone
  rw [prefilled] at step
  cases step
  obtain ⟨⟨⟨log, state, feeds, reason⟩, alive, unqueued⟩, cold, unlimited,
    aligned, bounded, shown⟩ := greedily
  refine
    ⟨⟨⟨log, state, feeds, reason⟩, alive, unqueued⟩, cold, unlimited, ?_,
      bounded, shown⟩
  simp only [cells, List.length_append, Nat.cast_add, aligned]

theorem Greedily.choose
    (greedily : Greedily greedy family generation)
    {token : Token} {origin : Origin}
    (choice : generation.chooseToken backend = .ok (token, origin, next)) :
    Greedily greedy family next := by
  obtain ⟨sampler, tokens, alive, shown⟩ := greedily.shown
  obtain ⟨after, tokens', chosen, shownNext, -⟩ :=
    greedy.chooseToken_eq greedily.cold greedily.unlimited alive shown
  rw [chosen] at choice
  cases choice
  obtain ⟨⟨⟨log, state, feeds, reason⟩, -, unqueued⟩, cold, unlimited,
    aligned, bounded, -⟩ := greedily
  exact
    ⟨⟨⟨log, state, feeds, reason⟩, rfl, unqueued⟩, cold, unlimited,
      aligned, bounded, after, tokens', rfl, shownNext⟩

theorem Greedily.decode
    (greedily : Greedily greedy family generation)
    {token : Token} {verified : List Token}
    (drafted :
      generation.decodeDrafts backend token = .ok (verified, next)) :
    Greedily greedy family next := by
  obtain ⟨verified', context, decoded, -, cells, -, -, -⟩ :=
    greedy.decodeDrafts_eq greedily.aligned token
  rw [decoded] at drafted
  cases drafted
  obtain ⟨⟨⟨log, state, feeds, reason⟩, alive, unqueued⟩, cold, unlimited,
    aligned, bounded, shown⟩ := greedily
  refine
    ⟨⟨⟨log, state, feeds, reason⟩, alive, unqueued⟩, cold, unlimited, ?_,
      bounded, shown⟩
  simp only [cells, List.length_append, List.length_cons, Nat.cast_add,
    aligned]

/-- The sampler is shown a token or not. -/
theorem Greedy.shown_countToken
    (greedy : Greedy backend)
    {sampler : Sampler} {tokens : List Token} {lastN : Int}
    {repeated : Rat}
    (alive : generation.sampler = some sampler)
    (shown : greedy.Shown sampler lastN repeated tokens)
    (first token : Token) (decoder : Decoder) :
    ∃ after tokens',
      (generation.countToken backend first token decoder).sampler =
          some after ∧
        greedy.Shown after lastN repeated tokens' := by
  simp only [Generation.countToken, alive]
  split_ifs
  · exact ⟨_, _, rfl, greedy.shown_accept token shown⟩
  · exact ⟨_, _, rfl, shown⟩

theorem Greedily.commit
    (greedily : Greedily greedy family generation)
    {log : List (Splitter.Entry Char Mode)}
    {progress : Progress (Generation Context Sampler Decoder)}
    {first token : Token} {origin : Origin}
    (outcome :
      Outcome backend family generation log first token origin
        progress) :
    progress.Holds (Greedily greedy family) Over := by
  cases outcome with
  | closed => exact ⟨rfl, rfl⟩
  | stopped => exact ⟨rfl, rfl⟩
  | @advanced piece decoder emit keep more state _ room _ _ parsed =>
      obtain ⟨counted, _, _, _, _, equal⟩ :=
        (advance_advanced backend generation family first token origin
          piece decoder emit keep more state).eq
      rw [equal] at parsed
      simp only [Progress.Holds, equal]
      obtain ⟨sampler, tokens, alive, shown⟩ := greedily.shown
      obtain ⟨after, tokens', counts, shownNext⟩ :=
        greedy.shown_countToken alive shown first token counted
      have lives :
          (generation.countToken backend first token
            counted).sampler.isSome := by
        rw [counts]
        rfl
      exact
        ⟨⟨⟨_, _, parsed⟩, lives, greedily.reading.unqueued⟩,
          greedily.cold, by simp [greedily.unlimited], greedily.aligned,
          room, after, tokens', counts, shownNext⟩

variable (greedy family)

/-- A greedy generation with this configuration. -/
def GreedilyBy
    (config : SamplingConfig)
    (generation : Generation Context Sampler Decoder) : Prop :=
  Greedily greedy family generation ∧ generation.sampling = config

/-- A greedy generation stays one, with the same configuration. -/
theorem greedily_invariant (config : SamplingConfig) :
    Invariant backend (fun _ _ => True)
      (fun _ generation =>
        GreedilyBy greedy family config generation)
      (fun _ generation => Over generation) where
  alive keeps := ⟨keeps.1.reading.alive, keeps.1.reading.unqueued⟩
  gone gone := ⟨gone.dropped, gone.drained⟩
  ready := by
    rintro past rest event generation ⟨greedily, same⟩ -
    exact ⟨greedily.ready rest, same⟩
  terminal := by
    rintro past rest event generation ⟨dropped, drained⟩ -
    exact ⟨dropped, drained⟩
  prefill := by
    rintro past generation next ⟨greedily, same⟩ notDone step
    refine ⟨greedily.prefill notDone step, ?_⟩
    obtain ⟨_, _, _, rfl⟩ := prefillStep_frame backend step
    exact same
  decode := by
    intro past generation next keeps step _
    refine decodeStep_rule family ?_ ?_ ?_ ?_ keeps step
    · rintro generation ⟨greedily, -⟩
      exact greedily.reading.parsed
    · rintro generation chosen token origin ⟨greedily, same⟩ choice
      refine ⟨greedily.choose choice, ?_⟩
      obtain ⟨_, _, _, _, _, _, rfl, -⟩ :=
        chooseToken_frame backend choice
      exact same
    · rintro generation after token verified ⟨greedily, same⟩ drafted
      refine ⟨greedily.decode drafted, ?_⟩
      obtain ⟨_, _, _, rfl⟩ := decodeDrafts_frame backend drafted
      exact same
    · rintro generation log state progress first token origin
        ⟨greedily, same⟩ _ outcome
      have kept := greedily.commit outcome
      cases outcome with
      | closed => exact kept
      | stopped => exact kept
      | @advanced piece decoder emit keep more next _ _ _ _ _ =>
          refine ⟨kept, ?_⟩
          obtain ⟨_, _, _, _, _, equal⟩ :=
            (advance_advanced backend generation family first token
              origin piece decoder emit keep more next).eq
          rw [equal]
          exact same

variable {greedy family}

/-- The configuration does not change while the generation goes on. -/
theorem Greedily.run_sampling
    (greedily : Greedily greedy family generation)
    {events : List GenEvent}
    (run : Run backend generation events next)
    (decoding : Decoding backend next) :
    next.sampling = generation.sampling := by
  have invariant := greedily_invariant greedy family generation.sampling
  rcases invariant.run_start run.always ⟨greedily, rfl⟩ with
    ⟨-, same⟩ | ⟨dropped, -⟩
  · exact same
  · have alive := decoding.alive
    rw [dropped] at alive
    cases alive

end Greedily

/-! ## A shadow keeps up -/

section Shadowed

variable [LinearOrder Logit] [OrderBot Logit]
variable {backend : Backend Context Sampler Decoder Logit}
variable (greedy : Greedy backend) (family : ReasonFamily)

/-- The sampler was shown every committed token, if it is used at all. -/
def Greedy.Told
    (generation : Generation Context Sampler Decoder) : Prop :=
  generation.sampling.kernelSampler = false →
    ∃ sampler,
      generation.sampler = some sampler ∧
        greedy.Shown sampler generation.sampling.repeatLastN
          generation.sampling.repeatPenalty (committed generation.history)

/--
`slow` has come as far as `fast` with one token at a time, and its events are
all out.
-/
structure Shadowed (fast slow : Generation Context Sampler Decoder) :
    Prop where
  batched : Greedily greedy family fast
  single : Greedily greedy family slow
  frame :
    ∃ context sampler past index history,
      slow = fast.shadow context sampler past index [] history
  tokens :
    slow.history.map Commit.token = fast.history.map Commit.token
  told : greedy.Told slow

variable {greedy family}

/-- A generation that was told everything makes the greedy choice. -/
theorem Greedily.chooses
    {generation : Generation Context Sampler Decoder}
    (greedily : Greedily greedy family generation)
    (told : greedy.Told generation) {token : Token}
    (choice :
      greedy.choice generation.sampling (committed generation.history)
        (backend.logits generation.context generation.lastIdx) = token) :
    ∃ next,
      generation.chooseToken backend =
          .ok (token, .sampled, { generation with sampler := some next }) ∧
        (generation.sampling.kernelSampler = false →
          greedy.Shown next generation.sampling.repeatLastN
            generation.sampling.repeatPenalty
            (committed generation.history ++ [token])) := by
  cases kernel : generation.sampling.kernelSampler with
  | true =>
      obtain ⟨sampler, tokens, alive, shown⟩ := greedily.shown
      obtain ⟨next, -, chosen, -, -⟩ :=
        greedy.chooseToken_eq greedily.cold greedily.unlimited alive shown
      refine ⟨next, ?_, fun impossible => by cases impossible⟩
      simp only [Greedy.choice, kernel, if_true] at choice chosen
      rw [chosen, choice]
  | false =>
      obtain ⟨sampler, alive, shown⟩ := told kernel
      obtain ⟨next, tokens, chosen, shownNext, all⟩ :=
        greedy.chooseToken_eq greedily.cold greedily.unlimited alive shown
      rw [choice] at chosen all
      exact ⟨next, chosen, fun _ => all kernel ▸ shownNext⟩

/-- What a loop over one token leaves behind. -/
def Progress.state {State : Type} : Progress State → State
  | .more state => state
  | .ended state => state

omit [LinearOrder Logit] [OrderBot Logit] in
theorem commitLoop_singleton
    (first token : Token) (origin : Origin)
    (generation : Generation Context Sampler Decoder) :
    Generation.commitLoop backend first [(token, origin)] generation =
      (generation.commitOne backend first token origin).map
        Progress.state := by
  rw [Generation.commitLoop]
  cases generation.commitOne backend first token origin with
  | error failure => rfl
  | ok progress =>
      cases progress with
      | more next => rfl
      | ended final => rfl

/-- A decode step without drafts. -/
theorem Greedily.decodeStep_alone
    {generation : Generation Context Sampler Decoder}
    (greedily : Greedily greedy family generation)
    (alone : generation.ngram = none)
    (room : generation.generated < generation.maxTokens)
    {token : Token} {next : Sampler}
    (chosen :
      generation.chooseToken backend =
        .ok (token, .sampled, { generation with sampler := some next }))
    (going :
      ¬ (token = backend.tokenEos ∧ generation.ignoreEos = false)) :
    ∃ context,
      generation.decodeStep backend =
          (Generation.commitOne backend
            { generation with
              sampler := some next
              context := context
              nPast := generation.nPast + 1
              lastIdx := 0 } token token .sampled).map Progress.state ∧
        greedy.cells context =
          greedy.cells generation.context ++ [token] ∧
        backend.logits context 0 =
          greedy.model (greedy.cells generation.context ++ [token]) ∧
        Greedily greedy family
          { generation with
            sampler := some next
            context := context
            nPast := generation.nPast + 1
            lastIdx := 0 } := by
  have after := greedily.choose chosen
  obtain ⟨verified, context, decoded, -, cells, row, -, -⟩ :=
    greedy.decodeDrafts_eq after.aligned token
  have none : verified = [] := by
    refine decodeDrafts_single backend ?_ decoded
    exact alone
  subst none
  refine ⟨context, ?_, cells, row, after.decode decoded⟩
  rw [decodeStep_commit backend chosen room going,
    Generation.commitTokens, decoded]
  exact commitLoop_singleton token token .sampled _

end Shadowed

section Passes

variable [LinearOrder Logit] [OrderBot Logit]
variable {backend : Backend Context Sampler Decoder Logit}
variable (greedy : Greedy backend) (family : ReasonFamily)

/-- What committing tokens keeps. -/
structure Kept
    (before after : Generation Context Sampler Decoder) (count : Nat) :
    Prop where
  context : after.context = before.context
  index : after.lastIdx = before.lastIdx
  prompt : after.promptTokens = before.promptTokens
  chunk : after.prefillChunk = before.prefillChunk
  hit : after.cacheHit = before.cacheHit
  sampling : after.sampling = before.sampling
  limit : after.maxTokens = before.maxTokens
  counted : after.generated = before.generated + count

/-- Both go on, behind the same tokens and the same events. -/
structure GoesOn
    (fast slow : Generation Context Sampler Decoder)
    (tokens : List Token) (events : List GenEvent)
    (after behind : Generation Context Sampler Decoder) : Prop where
  shadowed : Shadowed greedy family after behind
  ready : after.ready = fast.ready ++ events
  kept : Kept fast after tokens.length
  cells :
    greedy.cells behind.context = greedy.cells slow.context ++ tokens
  history :
    committed behind.history = committed slow.history ++ tokens
  row :
    tokens = [] ∧
        backend.logits behind.context behind.lastIdx =
          backend.logits slow.context slow.lastIdx ∨
      backend.logits behind.context behind.lastIdx =
        greedy.model (greedy.cells behind.context)

/-- Both have ended, behind the same tokens and with the same events. -/
structure BothEnd
    (fast : Generation Context Sampler Decoder) (events : List GenEvent)
    (after behind : Generation Context Sampler Decoder) : Prop where
  fastOver : Over after
  slowOver : Over behind
  terminal : after.terminal = fast.ready ++ events ++ behind.terminal
  tokens :
    behind.history.map Commit.token = after.history.map Commit.token

variable {greedy family}
variable {fast slow : Generation Context Sampler Decoder}

/-- The slow generation is about to decode when the fast one is. -/
theorem Shadowed.decoding
    (shadowed : Shadowed greedy family fast slow)
    (prefilled : fast.prefillDone backend = true) :
    Decoding backend slow := by
  have alive := shadowed.single.reading.alive
  have unqueued := shadowed.single.reading.unqueued
  obtain ⟨context, sampler, past, index, history, rfl⟩ := shadowed.frame
  exact ⟨rfl, unqueued, alive, prefilled⟩

theorem Shadowed.sampling
    (shadowed : Shadowed greedy family fast slow) :
    slow.sampling = fast.sampling := by
  obtain ⟨context, sampler, past, index, history, rfl⟩ := shadowed.frame
  rfl

theorem Shadowed.same_committed
    (shadowed : Shadowed greedy family fast slow) :
    committed slow.history = committed fast.history := by
  rw [committed, shadowed.tokens, committed]

omit [LinearOrder Logit] [OrderBot Logit] in
/-- Closing both queues the same events behind those that are ready. -/
theorem closeOn_terminal
    (generation : Generation Context Sampler Decoder)
    (context : Context) (sampler : Option Sampler) (past index : Int)
    (history : List Commit) (family : ReasonFamily)
    (more : List (Splitter.Entry Char Mode)) (state : Mode × Text)
    (reason : StopReason) :
    (generation.closeOn family more state reason).terminal =
      generation.ready ++
        ((generation.shadow context sampler past index [] history).closeOn
          family more state reason).terminal := by
  simp only [Generation.closeOn, Generation.shadow, List.append_assoc,
    List.nil_append]
  rfl

omit [LinearOrder Logit] [OrderBot Logit] in
theorem stopOn_terminal
    (generation : Generation Context Sampler Decoder)
    (context : Context) (sampler : Option Sampler) (past index : Int)
    (history : List Commit) (family : ReasonFamily)
    (first token : Token) (origin : Origin) (piece : Text)
    (decoder : Decoder) (before matched : Text)
    (more : List (Splitter.Entry Char Mode)) (state : Mode × Text) :
    (generation.stopOn backend family first token origin piece decoder
        before matched more state).terminal =
      generation.ready ++
        ((generation.shadow context sampler past index [] history).stopOn
          backend family token token .sampled piece decoder before matched
          more state).terminal := by
  simp only [Generation.stopOn, Generation.record, Generation.countToken,
    Generation.closeOn, Generation.shadow, List.append_assoc,
    List.nil_append]
  rfl

theorem Greedily.commitOne
    {generation : Generation Context Sampler Decoder}
    (greedily : Greedily greedy family generation)
    {first token : Token} {origin : Origin}
    {progress : Progress (Generation Context Sampler Decoder)}
    (committed :
      generation.commitOne backend first token origin = .ok progress) :
    progress.Holds (Greedily greedy family) Over := by
  obtain ⟨log, state, parsed⟩ := greedily.reading.parsed
  rcases parsed.commitOne backend first token origin with
    ⟨other, committed', outcome⟩ | ⟨failure, failed, -⟩
  · rw [committed] at committed'
    cases committed'
    exact greedily.commit outcome
  · rw [committed] at failed
    cases failed

/-- What one token of the fast generation is to the slow one. -/
def PassMatched
    (greedy : Greedy backend) (family : ReasonFamily)
    (fast slow : Generation Context Sampler Decoder) (token : Token) :
    Except Failure (Progress (Generation Context Sampler Decoder)) → Prop
  | .ok (.more after) =>
      ∃ events behind, Run backend slow events behind ∧
        GoesOn greedy family fast slow [token] events after behind
  | .ok (.ended after) =>
      ∃ behind, Run backend slow [] behind ∧ BothEnd fast [] after behind
  | .error failure => slow.tick backend = .failed failure

/-- Where the choice is EOS, both end. -/
theorem Shadowed.pass_eos
    (shadowed : Shadowed greedy family fast slow)
    (prefilled : fast.prefillDone backend = true)
    (room : fast.generated < fast.maxTokens)
    {token : Token}
    (choice :
      greedy.choice slow.sampling (committed slow.history)
        (backend.logits slow.context slow.lastIdx) = token)
    (eos : token = backend.tokenEos ∧ fast.ignoreEos = false) :
    ∃ after behind,
      fast.queueTerminal .eos = .ok after ∧
        Run backend slow [] behind ∧ BothEnd fast [] after behind := by
  have decoding := shadowed.decoding prefilled
  obtain ⟨next, chosen, -⟩ := shadowed.single.chooses shadowed.told choice
  obtain ⟨log, state, parsed⟩ := shadowed.batched.reading.parsed
  obtain ⟨more, final, feeds⟩ :=
    Splitter.feeds_exists (splitter family) state fast.pending
  have tokens := shadowed.tokens
  obtain ⟨context, sampler, past, index, history, rfl⟩ := shadowed.frame
  have ends :
      (fast.shadow context sampler past index [] history).decodeStep
          backend =
        .ok
          ((fast.shadow context (some next) past index [] history).closeOn
            family more final .eos) := by
    have queued :
        (fast.shadow context (some next) past index []
            history).queueTerminal .eos =
          .ok
            ((fast.shadow context (some next) past index []
              history).closeOn family more final .eos) := by
      refine queueTerminal_eq ?_ ?_ feeds _
      · exact parsed.reason
      · rfl
    exact (decodeStep_eos backend chosen room eos).trans queued
  refine
    ⟨_, _, queueTerminal_eq parsed.reason rfl feeds _,
      .again (tick_decoding_ok decoding ends) (.refl _),
      ⟨rfl, rfl⟩, ⟨rfl, rfl⟩, ?_, tokens⟩
  rw [List.append_nil]
  exact
    closeOn_terminal fast context (some next) past index history family
      more final .eos

theorem committed_cons (commit : Commit) (history : List Commit) :
    committed (commit :: history) =
      committed history ++ [commit.token] := by
  simp [committed]

omit [LinearOrder Logit] [OrderBot Logit] in
/-- What an advance does to the fields that matter here. -/
theorem advance_fields
    (backend : Backend Context Sampler Decoder Logit)
    (generation : Generation Context Sampler Decoder)
    (family : ReasonFamily) (first token : Token) (origin : Origin)
    (piece : Text) (decoder : Decoder) (emit keep : Text)
    (more : List (Splitter.Entry Char Mode)) (state : Mode × Text) :
    ∃ commit : Commit,
      commit.token = token ∧
        (generation.advance backend family first token origin piece
              decoder emit keep more state).history =
            commit :: generation.history ∧
        (generation.advance backend family first token origin piece
              decoder emit keep more state).ready =
            generation.ready ++
              generation.eventsOf (Runa.Core.Reason.pieces more) ∧
        Kept generation
          (generation.advance backend family first token origin piece
            decoder emit keep more state) 1 := by
  rw [Generation.advance, observeBudget_eq]
  exact ⟨_, rfl, rfl, rfl, rfl, rfl, rfl, rfl, rfl, rfl, rfl, rfl⟩

/-- The slow generation makes of a token what the fast one makes of it. -/
theorem Shadowed.pass
    (shadowed : Shadowed greedy family fast slow)
    (prefilled : fast.prefillDone backend = true)
    (room : fast.generated < fast.maxTokens)
    {token : Token}
    (choice :
      greedy.choice slow.sampling (committed slow.history)
        (backend.logits slow.context slow.lastIdx) = token)
    (going : ¬ (token = backend.tokenEos ∧ fast.ignoreEos = false))
    (first : Token) (origin : Origin) :
    PassMatched greedy family fast slow token
      (fast.commitOne backend first token origin) := by
  have decoding := shadowed.decoding prefilled
  have batched := shadowed.batched
  have single := shadowed.single
  have tokens := shadowed.tokens
  obtain ⟨next, chosen, shown⟩ := single.chooses shadowed.told choice
  obtain ⟨log, state, parsed⟩ := batched.reading.parsed
  obtain ⟨plan, planned⟩ := commitOne_planned backend parsed.reason token
  obtain ⟨context, sampler, past, index, history, rfl⟩ := shadowed.frame
  obtain ⟨context', step, cells, row, decoded⟩ :=
    single.decodeStep_alone rfl room chosen going
  have slowPass :=
    planned _
      (shadow_asFar fast context' (some next) (past + 1) 0 [] history)
      token .sampled
  have fastPass := planned fast ⟨rfl, rfl, rfl, rfl, rfl, rfl, rfl⟩ first origin
  have slowStep :
      (fast.shadow context sampler past index [] history).decodeStep
          backend =
        (plan.carryOut backend family token token .sampled
          (fast.shadow context' (some next) (past + 1) 0 []
            history)).map Progress.state := by
    rw [← slowPass]
    exact step
  rw [fastPass]
  cases plan with
  | close more final reason =>
      refine
        ⟨_, .again (tick_decoding_ok decoding slowStep) (.refl _),
          ⟨rfl, rfl⟩, ⟨rfl, rfl⟩, ?_, tokens⟩
      rw [List.append_nil]
      exact
        closeOn_terminal fast context' (some next) (past + 1) 0 history
          family more final reason
  | stop piece decoder before matched more final =>
      refine
        ⟨_, .again (tick_decoding_ok decoding slowStep) (.refl _),
          ⟨rfl, rfl⟩, ⟨rfl, rfl⟩, ?_, ?_⟩
      · rw [List.append_nil]
        exact
          stopOn_terminal fast context' (some next) (past + 1) 0 history
            family first token origin piece decoder before matched more
            final
      · exact congrArg (token :: ·) tokens
  | fail failure => exact tick_decoding_error decoding slowStep
  | advance piece decoder emit keep more final =>
      have fastNext := batched.commitOne fastPass
      have slowNext := Greedily.commitOne decoded slowPass
      obtain ⟨commit, named, mirrored⟩ :=
        shadow_advance backend fast context' (some next) (past + 1) 0 []
          history family first token origin piece decoder emit keep more
          final
      simp only [Plan.carryOut, Except.map, Progress.state,
        mirrored] at slowStep
      simp only [Progress.Holds, mirrored] at slowNext
      obtain ⟨other, same, recorded, queued, kept⟩ :=
        advance_fields backend fast family first token origin piece
          decoder emit keep more final
      refine
        ⟨_, _,
          .again (tick_decoding_ok decoding slowStep) (run_ready _), ?_⟩
      exact
        { shadowed :=
            { batched := fastNext
              single := slowNext.ready []
              frame := ⟨context', some next, past + 1, 0, _, rfl⟩
              tokens := by
                rw [recorded]
                change
                  commit.token :: history.map Commit.token =
                    other.token :: fast.history.map Commit.token
                rw [named, same]
                exact congrArg (token :: ·) tokens
              told := by
                intro chain
                refine ⟨next, rfl, ?_⟩
                change
                  greedy.Shown next _ _ (committed (commit :: history))
                rw [committed_cons, named]
                change
                  (fast.advance backend family first token origin piece
                    decoder emit keep more
                    final).sampling.kernelSampler = false at chain
                change
                  greedy.Shown next
                    (fast.advance backend family first token origin piece
                      decoder emit keep more final).sampling.repeatLastN
                    (fast.advance backend family first token origin piece
                      decoder emit keep more final).sampling.repeatPenalty
                    _
                rw [kept.sampling] at chain ⊢
                exact shown chain }
          ready := queued
          kept := kept
          cells := cells
          history := by
            change committed (commit :: history) = _
            rw [committed_cons, named]
            rfl
          row := by
            right
            change
              backend.logits context' 0 =
                greedy.model (greedy.cells context')
            rw [row, cells] }

/-- What a batch of the fast generation is to the slow one. -/
def Matched
    (greedy : Greedy backend) (family : ReasonFamily)
    (fast slow : Generation Context Sampler Decoder)
    (tokens : List Token) :
    Except Failure (Generation Context Sampler Decoder) → Prop
  | .ok after =>
      ∃ events behind, Run backend slow events behind ∧
        (GoesOn greedy family fast slow tokens events after behind ∨
          BothEnd fast events after behind)
  | .error failure =>
      ∃ events behind, Run backend slow events behind ∧
        behind.tick backend = .failed failure

omit [LinearOrder Logit] [OrderBot Logit] in
theorem Kept.trans
    {first second third : Generation Context Sampler Decoder}
    {count more : Nat}
    (before : Kept first second count)
    (after : Kept second third more) :
    Kept first third (count + more) where
  context := after.context.trans before.context
  index := after.index.trans before.index
  prompt := after.prompt.trans before.prompt
  chunk := after.chunk.trans before.chunk
  hit := after.hit.trans before.hit
  sampling := after.sampling.trans before.sampling
  limit := after.limit.trans before.limit
  counted := by
    rw [after.counted, before.counted]
    omega

omit [LinearOrder Logit] [OrderBot Logit] in
theorem Kept.prefilled
    {before after : Generation Context Sampler Decoder} {count : Nat}
    (kept : Kept before after count) :
    after.prefillDone backend = before.prefillDone backend := by
  rw [Generation.prefillDone, Generation.prefillDone, kept.hit,
    kept.prompt, kept.chunk]

/-- A batch behind a token. -/
theorem GoesOn.matched
    {after behind : Generation Context Sampler Decoder} {token : Token}
    {events : List GenEvent} {tokens : List Token}
    {result : Except Failure (Generation Context Sampler Decoder)}
    (goes : GoesOn greedy family fast slow [token] events after behind)
    (run : Run backend slow events behind)
    (tail : Matched greedy family after behind tokens result) :
    Matched greedy family fast slow (token :: tokens) result := by
  cases result with
  | error failure =>
      obtain ⟨more, last, onward, failed⟩ := tail
      exact ⟨events ++ more, last, run.append onward, failed⟩
  | ok final =>
      obtain ⟨more, last, onward, further | ends⟩ := tail
      · refine ⟨events ++ more, last, run.append onward, Or.inl ?_⟩
        exact
          { shadowed := further.shadowed
            ready := by
              rw [further.ready, goes.ready, List.append_assoc]
            kept := by
              have kept := goes.kept.trans further.kept
              rwa [List.length_cons, Nat.add_comm]
            cells := by
              rw [further.cells, goes.cells, List.append_assoc]
              rfl
            history := by
              rw [further.history, goes.history, List.append_assoc]
              rfl
            row := by
              right
              rcases further.row with ⟨none, same⟩ | row
              · have here := goes.row.resolve_left (by simp)
                rw [same, here, further.cells, none, List.append_nil]
              · exact row }
      · refine ⟨events ++ more, last, run.append onward, Or.inr ?_⟩
        exact
          { fastOver := ends.fastOver
            slowOver := ends.slowOver
            terminal := by
              rw [ends.terminal, goes.ready]
              simp only [List.append_assoc]
            tokens := ends.tokens }

/-- The slow generation keeps up with the loop over accepted tokens. -/
theorem Shadowed.loop
    (shadowed : Shadowed greedy family fast slow)
    (prefilled : fast.prefillDone backend = true)
    {items : List (Token × Origin)}
    (follows :
      greedy.Follows slow.sampling (greedy.cells slow.context)
        (committed slow.history)
        (backend.logits slow.context slow.lastIdx) (items.map Prod.fst))
    (room : fast.generated + items.length ≤ fast.maxTokens)
    (first : Token) :
    Matched greedy family fast slow (items.map Prod.fst)
      (Generation.commitLoop backend first items fast) := by
  induction items generalizing fast slow with
  | nil =>
      refine ⟨[], slow, .refl _, Or.inl ?_⟩
      exact
        { shadowed := shadowed
          ready := (List.append_nil _).symm
          kept := ⟨rfl, rfl, rfl, rfl, rfl, rfl, rfl, rfl⟩
          cells := (List.append_nil _).symm
          history := (List.append_nil _).symm
          row := Or.inl ⟨rfl, rfl⟩ }
  | cons item items induction =>
      obtain ⟨token, origin⟩ := item
      obtain ⟨choice, rest⟩ := follows
      rw [List.length_cons] at room
      have here : fast.generated < fast.maxTokens := by omega
      rw [Generation.commitLoop]
      by_cases eos : token = backend.tokenEos ∧ fast.ignoreEos = false
      · obtain ⟨after, behind, queued, run, ends⟩ :=
          shadowed.pass_eos prefilled here choice eos
        rw [Generation.commitOne, if_pos eos, queued]
        exact ⟨[], behind, run, Or.inr ends⟩
      have pass := shadowed.pass prefilled here choice eos first origin
      cases committed : fast.commitOne backend first token origin with
      | error failure =>
          rw [committed] at pass
          exact ⟨[], slow, .refl _, pass⟩
      | ok progress =>
          rw [committed] at pass
          cases progress with
          | ended after =>
              obtain ⟨behind, run, ends⟩ := pass
              exact ⟨[], behind, run, Or.inr ends⟩
          | more after =>
              obtain ⟨events, behind, run, goes⟩ := pass
              have row := goes.row.resolve_left (by simp)
              have sampling : behind.sampling = slow.sampling := by
                rw [goes.shadowed.sampling, goes.kept.sampling,
                  shadowed.sampling]
              refine goes.matched run (induction goes.shadowed ?_ ?_ ?_)
              · rw [goes.kept.prefilled]
                exact prefilled
              · rw [row, goes.cells, goes.history, sampling]
                exact rest
              · rw [goes.kept.counted, goes.kept.limit]
                simp only [List.length_singleton]
                omega

end Passes

/-! ## Side by side -/

section Mirrors

variable [LinearOrder Logit] [OrderBot Logit]
variable {backend : Backend Context Sampler Decoder Logit}
variable (greedy : Greedy backend) (family : ReasonFamily)

/-- Both have yielded the same events and stand behind the same tokens. -/
structure Mirrors (fast slow : Generation Context Sampler Decoder) :
    Prop where
  shadowed : Shadowed greedy family fast slow
  drained : fast.ready = []
  cells : greedy.cells slow.context = greedy.cells fast.context
  row :
    backend.logits slow.context slow.lastIdx =
      backend.logits fast.context fast.lastIdx

variable {greedy family}
variable {fast slow : Generation Context Sampler Decoder}

/-- Both make the same choice where the fast one is faithful. -/
theorem Mirrors.choice
    (mirrors : Mirrors greedy family fast slow) {token : Token}
    (choice :
      greedy.choice fast.sampling (committed fast.history)
        (backend.logits fast.context fast.lastIdx) = token) :
    greedy.choice slow.sampling (committed slow.history)
      (backend.logits slow.context slow.lastIdx) = token := by
  rw [mirrors.shadowed.sampling, mirrors.shadowed.same_committed,
    mirrors.row]
  exact choice

theorem Mirrors.prefill
    (mirrors : Mirrors greedy family fast slow)
    (notDone : fast.prefillDone backend = false) :
    ∃ after behind,
      fast.tick backend = .again after ∧
        slow.tick backend = .again behind ∧
        fast.prefillStep backend = .ok after ∧
        Mirrors greedy family after behind := by
  obtain ⟨shadowed, drained, sameCells, -⟩ := mirrors
  have batched := shadowed.batched
  have single := shadowed.single
  have tokens := shadowed.tokens
  have told := shadowed.told
  obtain ⟨context, fastStep, fastCells, fastRow⟩ :=
    greedy.prefillStep_eq batched.aligned notDone
  obtain ⟨place, sampler, past, index, history, rfl⟩ := shadowed.frame
  obtain ⟨context', slowStep, slowCells, slowRow⟩ :=
    greedy.prefillStep_eq single.aligned notDone
  refine
    ⟨_, _,
      tick_prefilling_ok drained batched.reading.unqueued
        batched.reading.alive notDone fastStep,
      tick_prefilling_ok rfl single.reading.unqueued single.reading.alive
        notDone slowStep,
      fastStep, ?_, drained, ?_, ?_⟩
  · exact
      ⟨batched.prefill notDone fastStep, single.prefill notDone slowStep,
        ⟨context', sampler, _, _, history, rfl⟩, tokens, told⟩
  · change greedy.cells context' = greedy.cells context
    rw [fastCells, slowCells, sameCells]
    rfl
  · refine slowRow.trans (Eq.trans ?_ fastRow.symm)
    rw [sameCells]
    rfl

/-- Where there is no room for a token, both end. -/
theorem Mirrors.full
    (mirrors : Mirrors greedy family fast slow)
    (prefilled : fast.prefillDone backend = true)
    (full : fast.maxTokens ≤ fast.generated) :
    ∃ after behind,
      fast.decodeStep backend = .ok after ∧
        Run backend slow [] behind ∧ BothEnd fast [] after behind := by
  have shadowed := mirrors.shadowed
  have decoding := shadowed.decoding prefilled
  have tokens := shadowed.tokens
  obtain ⟨log, state, parsed⟩ := shadowed.batched.reading.parsed
  obtain ⟨more, final, feeds⟩ :=
    Splitter.feeds_exists (splitter family) state fast.pending
  obtain ⟨context, sampler, past, index, history, rfl⟩ := shadowed.frame
  have fastEnds :
      fast.decodeStep backend =
        .ok (fast.closeOn family more final .maxTokens) := by
    rw [Generation.decodeStep, if_pos full]
    exact queueTerminal_eq parsed.reason rfl feeds _
  have slowEnds :
      (fast.shadow context sampler past index [] history).decodeStep
          backend =
        .ok
          ((fast.shadow context sampler past index [] history).closeOn
            family more final .maxTokens) := by
    rw [Generation.decodeStep]
    refine (if_pos full).trans (queueTerminal_eq ?_ ?_ feeds _)
    · exact parsed.reason
    · rfl
  refine
    ⟨_, _, fastEnds,
      .again (tick_decoding_ok decoding slowEnds) (.refl _), ⟨rfl, rfl⟩,
      ⟨rfl, rfl⟩, ?_, tokens⟩
  rw [List.append_nil]
  exact
    closeOn_terminal fast context sampler past index history family more
      final .maxTokens

/-- What a decode step of the fast generation is to the slow one. -/
def StepMatched
    (greedy : Greedy backend) (family : ReasonFamily)
    (fast slow : Generation Context Sampler Decoder) :
    Except Failure (Generation Context Sampler Decoder) → Prop
  | .ok after =>
      ∃ events behind, Run backend slow events behind ∧
        (after.ready = events ∧
            Mirrors greedy family { after with ready := [] } behind ∨
          BothEnd fast events after behind)
  | .error failure =>
      ∃ events behind, Run backend slow events behind ∧
        behind.tick backend = .failed failure

/-- The sampler does not matter once the generation ends. -/
theorem Reading.queueTerminal_sampler
    {generation : Generation Context Sampler Decoder}
    (reading : Reading family generation) (sampler : Option Sampler)
    (reason : StopReason) :
    Generation.queueTerminal { generation with sampler := sampler }
        reason =
      generation.queueTerminal reason := by
  obtain ⟨log, state, parsed⟩ := reading.parsed
  obtain ⟨more, final, feeds⟩ :=
    Splitter.feeds_exists (splitter family) state generation.pending
  rw [queueTerminal_eq parsed.reason rfl feeds]
  refine queueTerminal_eq ?_ ?_ feeds reason
  · exact parsed.reason
  · rfl

/-- Behind the batch both stand behind the same tokens again. -/
theorem Mirrors.settle
    (mirrors : Mirrors greedy family fast slow)
    {token : Token} {verified : List Token} {context : Context}
    {sampler : Option Sampler} {past : Int}
    (cells :
      greedy.cells context =
        greedy.cells fast.context ++ token :: verified)
    (row :
      backend.logits context verified.length =
        greedy.model (greedy.cells fast.context ++ token :: verified))
    {result : Except Failure (Generation Context Sampler Decoder)}
    (matched :
      Matched greedy family
        { fast with
          sampler := sampler
          context := context
          nPast := past
          lastIdx := verified.length }
        slow (token :: verified) result) :
    StepMatched greedy family fast slow result := by
  cases result with
  | error failure => exact matched
  | ok after =>
      obtain ⟨events, behind, run, goes | ends⟩ := matched
      · refine ⟨events, behind, run, Or.inl ⟨?_, ?_⟩⟩
        · rw [goes.ready]
          change fast.ready ++ events = events
          rw [mirrors.drained, List.nil_append]
        · have shadowed := goes.shadowed
          refine ⟨?_, rfl, ?_, ?_⟩
          · exact
              ⟨shadowed.batched.ready [], shadowed.single, shadowed.frame,
                shadowed.tokens, shadowed.told⟩
          · change greedy.cells behind.context = greedy.cells after.context
            rw [goes.cells, goes.kept.context]
            change
              greedy.cells slow.context ++ token :: verified =
                greedy.cells context
            rw [mirrors.cells, cells]
          · change
              backend.logits behind.context behind.lastIdx =
                backend.logits after.context after.lastIdx
            rw [goes.row.resolve_left (by simp), goes.cells,
              goes.kept.context, goes.kept.index, mirrors.cells]
            exact row.symm
      · exact
          ⟨events, behind, run,
            Or.inr
              ⟨ends.fastOver, ends.slowOver, ends.terminal, ends.tokens⟩⟩

/-- An undisturbed decode step is several steps of the slow generation. -/
theorem Mirrors.decode
    (mirrors : Mirrors greedy family fast slow)
    (prefilled : fast.prefillDone backend = true)
    (undisturbed : greedy.Undisturbed fast) :
    StepMatched greedy family fast slow (fast.decodeStep backend) := by
  have shadowed := mirrors.shadowed
  have batched := shadowed.batched
  by_cases full : fast.maxTokens ≤ fast.generated
  · obtain ⟨after, behind, step, run, ends⟩ := mirrors.full prefilled full
    rw [step]
    exact ⟨[], behind, run, Or.inr ends⟩
  have room : fast.generated < fast.maxTokens := by omega
  obtain ⟨sampler, tokens, alive, shown⟩ := batched.shown
  obtain ⟨next, -, chosen, -, -⟩ :=
    greedy.chooseToken_eq batched.cold batched.unlimited alive shown
  have choice := (undisturbed.shown sampler tokens alive shown).symm
  generalize
    greedy.choice fast.sampling tokens
      (backend.logits fast.context fast.lastIdx) = token at chosen choice
  have slowChoice := mirrors.choice choice
  by_cases eos : token = backend.tokenEos ∧ fast.ignoreEos = false
  · obtain ⟨after, behind, queued, run, ends⟩ :=
      shadowed.pass_eos prefilled room slowChoice eos
    rw [decodeStep_eos backend chosen room eos,
      batched.reading.queueTerminal_sampler, queued]
    exact ⟨[], behind, run, Or.inr ends⟩
  obtain ⟨verified, context, decoded, few, cells, row, drafted, raw⟩ :=
    greedy.decodeDrafts_eq (batched.choose chosen).aligned token
  have follows :=
    undisturbed.drafts token verified choice.symm drafted raw
  have batch := (batched.choose chosen).decode decoded
  rw [decodeStep_commit backend chosen room eos, Generation.commitTokens,
    decoded]
  generalize listed :
      ((token, Origin.sampled) ::
        verified.map fun draft => (draft, Origin.drafted)) = items
  have tokens : items.map Prod.fst = token :: verified := by
    simp [← listed, Function.comp_def]
  have matched :
      Matched greedy family
        { fast with
          sampler := some next
          context := context
          nPast := fast.nPast + (verified.length + 1 : Nat)
          lastIdx := verified.length }
        slow (items.map Prod.fst)
        (Generation.commitLoop backend token items
          { fast with
            sampler := some next
            context := context
            nPast := fast.nPast + (verified.length + 1 : Nat)
            lastIdx := verified.length }) := by
    refine
      Shadowed.loop
        ⟨batch, shadowed.single, shadowed.frame, shadowed.tokens,
          shadowed.told⟩
        prefilled ?_ ?_ token
    · rw [tokens]
      refine ⟨slowChoice, ?_⟩
      rw [shadowed.sampling, mirrors.cells, shadowed.same_committed]
      exact follows
    · have count := congrArg List.length tokens
      rw [List.length_map, List.length_cons] at count
      rw [count]
      change fast.generated + (verified.length + 1) ≤ fast.maxTokens
      change
        verified.length ≤ fast.maxTokens - (fast.generated + 1) at few
      omega
  rw [tokens] at matched
  have settled := mirrors.settle cells row matched
  rw [← listed] at settled
  exact settled

end Mirrors

/-! ## The same output -/

section Output

variable [LinearOrder Logit] [OrderBot Logit]
variable (backend : Backend Context Sampler Decoder Logit)

/--
Whatever one generation yields and commits up to its end, the other yields
and commits.
-/
def SameOutput (left right : Generation Context Sampler Decoder) : Prop :=
  ∀ events tokens,
    (∃ final,
        Streams backend left events final ∧
          committed final.history = tokens) ↔
      ∃ final,
        Streams backend right events final ∧
          committed final.history = tokens

/-- Both run to the same end, or both into the same failure. -/
def Agree (left right : Generation Context Sampler Decoder) : Prop :=
  (∃ events leftEnd rightEnd,
      Run backend left events leftEnd ∧
        leftEnd.tick backend = .finished ∧
        Run backend right events rightEnd ∧
        rightEnd.tick backend = .finished ∧
        committed rightEnd.history = committed leftEnd.history) ∨
    ∃ failure before leftLast after rightLast,
      Run backend left before leftLast ∧
        leftLast.tick backend = .failed failure ∧
        Run backend right after rightLast ∧
        rightLast.tick backend = .failed failure

variable {backend}
variable {left right : Generation Context Sampler Decoder}

/-- Behind the same events, generations that agree still agree. -/
theorem Agree.behind
    {events : List GenEvent}
    {later behind : Generation Context Sampler Decoder}
    (agree : Agree backend later behind)
    (leftRun : Run backend left events later)
    (rightRun : Run backend right events behind) :
    Agree backend left right := by
  rcases agree with
    ⟨more, leftEnd, rightEnd, leftMore, leftOver, rightMore, rightOver,
      same⟩ |
    ⟨failure, before, leftLast, after, rightLast, leftMore, leftFails,
      rightMore, rightFails⟩
  · exact Or.inl
      ⟨events ++ more, leftEnd, rightEnd, leftRun.append leftMore,
        leftOver, rightRun.append rightMore, rightOver, same⟩
  · exact Or.inr
      ⟨failure, events ++ before, leftLast, events ++ after, rightLast,
        leftRun.append leftMore, leftFails, rightRun.append rightMore,
        rightFails⟩

/-- What the calls of `next` return is determined. -/
theorem streams_unique
    {events events' : List GenEvent}
    {final final' : Generation Context Sampler Decoder}
    (streams : Streams backend left events final)
    (streams' : Streams backend left events' final') :
    events = events' ∧ final = final' := by
  induction streams generalizing events' final' with
  | none last =>
      obtain ⟨fuel, last⟩ := last
      cases streams' with
      | none last' =>
          obtain ⟨fuel', last'⟩ := last'
          cases next_unique last last'
          exact ⟨rfl, rfl⟩
      | item first' rest' =>
          obtain ⟨fuel', first'⟩ := first'
          cases next_unique last first'
  | item first rest induction =>
      obtain ⟨fuel, first⟩ := first
      cases streams' with
      | none last' =>
          obtain ⟨fuel', last'⟩ := last'
          cases next_unique first last'
      | item first' rest' =>
          obtain ⟨fuel', first'⟩ := first'
          cases next_unique first first'
          obtain ⟨rfl, rfl⟩ := induction rest'
          exact ⟨rfl, rfl⟩

theorem Agree.sameOutput (agree : Agree backend left right) :
    SameOutput backend left right := by
  intro events tokens
  rcases agree with
    ⟨all, leftEnd, rightEnd, leftRun, leftOver, rightRun, rightOver,
      same⟩ |
    ⟨failure, before, leftLast, after, rightLast, leftRun, leftFails,
      rightRun, rightFails⟩
  · constructor
    · rintro ⟨final, streams, rfl⟩
      obtain ⟨rfl, rfl⟩ :=
        streams_unique streams (leftRun.streams leftOver)
      exact ⟨rightEnd, rightRun.streams rightOver, same⟩
    · rintro ⟨final, streams, rfl⟩
      obtain ⟨rfl, rfl⟩ :=
        streams_unique streams (rightRun.streams rightOver)
      exact ⟨leftEnd, leftRun.streams leftOver, same.symm⟩
  · constructor
    · rintro ⟨final, streams, -⟩
      exact (leftRun.not_streams leftFails streams).elim
    · rintro ⟨final, streams, -⟩
      exact (rightRun.not_streams rightFails streams).elim

variable {greedy : Greedy backend} {family : ReasonFamily}
variable {fast slow : Generation Context Sampler Decoder}

/-- Generations that have both ended yield the same events. -/
theorem BothEnd.agree
    {events : List GenEvent}
    {after behind : Generation Context Sampler Decoder}
    (ends : BothEnd fast events after behind) (drained : fast.ready = [])
    (fastRun : Run backend fast [] after)
    (slowRun : Run backend slow events behind) :
    Agree backend fast slow := by
  obtain ⟨⟨dropped, emptied⟩, ⟨dropped', emptied'⟩, terminal, tokens⟩ :=
    ends
  rw [drained, List.nil_append] at terminal
  have fastEnd :
      Run backend after after.terminal { after with terminal := [] } :=
    run_terminal emptied
  have slowEnd := slowRun.append (run_terminal emptied')
  rw [terminal] at fastEnd
  refine
    Or.inl
      ⟨_, _, _, fastRun.append fastEnd, (tick_finished_iff _).mpr ?_,
        slowEnd, (tick_finished_iff _).mpr ?_, ?_⟩
  · exact ⟨emptied, rfl, dropped⟩
  · exact ⟨emptied', rfl, dropped'⟩
  · rw [committed, committed, tokens]

/-- Generations side by side agree if no step is disturbed. -/
theorem Mirrors.agree
    (mirrors : Mirrors greedy family fast slow)
    (undisturbed :
      ∀ events later, Run backend fast events later →
        Decoding backend later → greedy.Undisturbed later) :
    Agree backend fast slow := by
  induction measured : fast.remaining backend using
    Nat.strong_induction_on generalizing fast slow with
  | _ size induction =>
      have batched := mirrors.shadowed.batched
      cases prefilled : fast.prefillDone backend with
      | false =>
          obtain ⟨after, behind, ticked, ticked', step, mirrors'⟩ :=
            mirrors.prefill prefilled
          have nearer :=
            (prefillStep_remaining backend prefilled step).trans_eq
              measured
          have agree :=
            induction _ nearer mirrors'
              (fun events later run =>
                undisturbed events later (.again ticked run))
              rfl
          exact agree.behind (.again ticked (.refl _))
            (.again ticked' (.refl _))
      | true =>
          have decoding : Decoding backend fast :=
            ⟨mirrors.drained, batched.reading.unqueued,
              batched.reading.alive, prefilled⟩
          have matched :=
            mirrors.decode prefilled (undisturbed [] fast (.refl _) decoding)
          cases step : fast.decodeStep backend with
          | error failure =>
              rw [step] at matched
              obtain ⟨events, behind, run, failed⟩ := matched
              exact Or.inr
                ⟨failure, [], fast, events, behind, .refl _,
                  tick_decoding_error decoding step, run, failed⟩
          | ok after =>
              rw [step] at matched
              have ticked := tick_decoding_ok decoding step
              obtain ⟨events, behind, run, ⟨queued, mirrors'⟩ | ends⟩ :=
                matched
              · have fastRun : Run backend fast events
                    { after with ready := [] } := by
                  rw [← queued]
                  exact .again ticked (run_ready after)
                have nearer :
                    Generation.remaining backend
                        { after with ready := [] } < size := by
                  obtain ⟨log, state, parsed⟩ := batched.reading.parsed
                  have later := mirrors'.shadowed.batched
                  rcases decodeStep_progress backend parsed step with
                    beyond | dropped
                  · exact
                      (beyond.remaining backend decoding.alive
                        later.bounded).trans_eq measured
                  · have alive := later.reading.alive
                    change after.sampler.isSome = true at alive
                    rw [dropped] at alive
                    cases alive
                have agree :=
                  induction _ nearer mirrors'
                    (fun more later onward =>
                      undisturbed _ later (fastRun.append onward))
                    rfl
                exact agree.behind fastRun run
              · exact ends.agree mirrors.drained
                  (.again ticked (.refl _)) run

end Output

/-! ## Drafting leaves greedy output unchanged, or not -/

section Start

variable [LinearOrder Logit] [OrderBot Logit]
variable {backend : Backend Context Sampler Decoder Logit}

/--
A context with a prefilled prompt ends where its caller says, and one that is
restored holds the prompt.
-/
structure Greedy.Prepared
    (greedy : Greedy backend) (context : Context)
    (restored : Option Context) (request : Request) : Prop where
  restored :
    ∀ cached, restored = some cached →
      greedy.cells cached = request.promptTokens
  prefilled :
    ∀ past, request.prefilled = some past →
      past = (greedy.cells context).length

variable {greedy : Greedy backend} {context : Context}
variable {restored : Option Context} {request : Request}

theorem Greedy.Prepared.drafting
    (prepared : greedy.Prepared context restored request)
    (ngram : Bool) :
    greedy.Prepared context restored { request with ngram := ngram } :=
  ⟨prepared.restored, prepared.prefilled⟩

/-- A new generation starts behind the cells of its context. -/
theorem Greedy.Prepared.aligned
    (prepared : greedy.Prepared context restored request)
    (toolReply : Option (Text → Text × List ToolCall)) :
    (generate backend context restored request none toolReply).nPast =
      (greedy.cells
        (generate backend context restored request none
          toolReply).context).length := by
  simp only [generate, startGeneration, Option.elim_none]
  cases given : request.prefilled with
  | some past =>
      simp only [Option.isSome_some, if_true, Option.getD_some]
      exact prepared.prefilled past given
  | none =>
      simp only [Option.isSome_none, Bool.false_or, Bool.false_eq_true,
        if_false, Option.getD_none]
      cases hit : (if request.useCache then restored else none) with
      | none => simp [greedy.cells_clearKv]
      | some cached =>
          have found : restored = some cached := by
            split_ifs at hit
            exact hit
          simp [prepared.restored cached found]

theorem shown_build
    (greedy : Greedy backend) {sampling : SamplingConfig}
    (cold : sampling.temperature ≤ 0) :
    greedy.Shown (backend.chain sampling.build) sampling.repeatLastN
      sampling.repeatPenalty [] := by
  rw [SamplingConfig.build, if_pos cold]
  exact greedy.shown_chain _ _

theorem greedily_start
    (prepared : greedy.Prepared context restored request)
    (cold : request.sampling.temperature ≤ 0)
    (unlimited :
      ∀ remaining, request.think.reasoningBudget remaining = none)
    (toolReply : Option (Text → Text × List ToolCall)) :
    Greedily greedy backend.family
      (generate backend context restored request none toolReply) where
  reading :=
    reading_start backend context restored request none toolReply
  cold := cold
  unlimited := by
    simp only [generate, startGeneration, Option.elim_none,
      BudgetClock.fromThink, unlimited, Option.map_none]
  aligned := prepared.aligned toolReply
  bounded := Nat.zero_le _
  shown := ⟨_, [], rfl, shown_build greedy cold⟩

/-- A generation that drafts starts side by side with one that does not. -/
theorem mirrors_start
    (prepared : greedy.Prepared context restored request)
    (cold : request.sampling.temperature ≤ 0)
    (unlimited :
      ∀ remaining, request.think.reasoningBudget remaining = none)
    (toolReply : Option (Text → Text × List ToolCall)) :
    Mirrors greedy backend.family
      (generate backend context restored { request with ngram := true }
        none toolReply)
      (generate backend context restored { request with ngram := false }
        none toolReply) where
  shadowed :=
    { batched :=
        greedily_start (prepared.drafting true) cold unlimited toolReply
      single :=
        greedily_start (prepared.drafting false) cold unlimited toolReply
      frame := ⟨_, _, _, _, _, rfl⟩
      tokens := rfl
      told := fun _ => ⟨_, rfl, shown_build greedy cold⟩ }
  drained := rfl
  cells := rfl
  row := rfl

/-- No step is disturbed where penalties change nothing. -/
theorem Greedy.Inert.undisturbed_run
    (inert : greedy.Inert request.sampling)
    (prepared : greedy.Prepared context restored request)
    (cold : request.sampling.temperature ≤ 0)
    (unlimited :
      ∀ remaining, request.think.reasoningBudget remaining = none)
    (toolReply : Option (Text → Text × List ToolCall))
    {events : List GenEvent}
    {later : Generation Context Sampler Decoder}
    (run :
      Run backend
        (generate backend context restored request none toolReply) events
        later)
    (decoding : Decoding backend later) :
    greedy.Undisturbed later := by
  have start := greedily_start prepared cold unlimited toolReply
  refine Greedy.Inert.undisturbed ?_
  rw [start.run_sampling run decoding]
  exact inert

/-- Drafting never shows under the kernel sampler. -/
theorem speculation_kernel
    (greedy : Greedy backend)
    (toolReply : Option (Text → Text × List ToolCall))
    (prepared : greedy.Prepared context restored request)
    (cold : request.sampling.temperature ≤ 0)
    (unlimited :
      ∀ remaining, request.think.reasoningBudget remaining = none)
    (kernel : request.sampling.kernelSampler = true) :
    SameOutput backend
      (generate backend context restored { request with ngram := true }
        none toolReply)
      (generate backend context restored { request with ngram := false }
        none toolReply) := by
  have inert : greedy.Inert request.sampling := by
    intro tokens row
    rw [Greedy.choice, if_pos kernel]
  have mirrors := mirrors_start prepared cold unlimited toolReply
  refine (mirrors.agree fun events later run decoding => ?_).sameOutput
  refine
    Greedy.Inert.undisturbed_run ?_ (prepared.drafting true) cold
      unlimited toolReply run decoding
  exact inert

end Start

/-! ## A greedy backend for concrete runs -/

/-- Repetition penalties: logits of recent tokens are divided. -/
def dividePenalty
    (lastN : Int) (repeated : Rat) (tokens : List Token)
    (row : List Nat) : List Nat :=
  if repeated = 1 then row
  else
    row.zipIdx.map fun (logit, token) =>
      if (token : Int) ∈ tokens.drop (tokens.length - lastN.toNat) then
        ((logit : Rat) / repeated).floor.toNat
      else
        logit

/-- A backend whose logits are a function of the tokens in its cells. -/
def tabled
    (model : List Token → List Nat) (vocabulary : List (Token × Text)) :
    Backend (List Token × List (List Nat)) (Int × Rat × List Token) Unit
      Nat where
  nBatch := 8
  nCtx := 64
  chatTemplate := none
  tokenEos := 0
  decode context batch :=
    some
      (context.1 ++ batch.map BatchItem.token,
        (List.range batch.length).map fun index =>
          model
            (context.1 ++ (batch.take (index + 1)).map BatchItem.token))
  logits context index := context.2.getD index.toNat []
  bump context _ _ := context
  clearFrom context position :=
    (context.1.take position.toNat, context.2)
  clearKv _ := ([], [])
  chain stages :=
    match stages with
    | .penalties lastN repeated _ _ :: _ => (lastN, repeated, [])
    | _ => (0, 1, [])
  sample := fun (lastN, repeated, tokens) context index =>
    let token :=
      argmaxI32
        (dividePenalty lastN repeated tokens
          (context.2.getD index.toNat []))
    (token, lastN, repeated, tokens ++ [token])
  accept := fun (lastN, repeated, tokens) token =>
    (lastN, repeated, tokens ++ [token])
  draw _ _ seed := (0, seed)
  newDecoder := ()
  tokenToPiece _ token := some ((vocabulary.lookup token).getD [], ())
  strToToken _ := some [1]

/-- Nothing comes any more, and these tokens were committed. -/
def Generation.settled
    (tokens : List Token)
    (generation : Generation Context Sampler Decoder) : Bool :=
  generation.ready.isEmpty && generation.terminal.isEmpty &&
    generation.sampler.isNone &&
    decide (committed generation.history = tokens)

/-- A greedy request for concrete runs. -/
def repeatRequest (penalty : Rat) : Request :=
  { plainRequest [] with
    promptTokens := [1, 2, 3, 3, 1, 2]
    sampling :=
      { (plainRequest []).sampling with repeatPenalty := penalty }
    draftN := 4 }

/-- Token 3 is best up to the eighth token, then EOS. -/
def thrice : Backend (List Token × List (List Nat))
    (Int × Rat × List Token) Unit Nat :=
  tabled
    (fun cells =>
      if cells.length < 8 then [0, 0, 0, 10, 8] else [10, 0, 0, 0, 0])
    [(3, ['a']), (4, ['b'])]

end Runa.Engine.Generate
