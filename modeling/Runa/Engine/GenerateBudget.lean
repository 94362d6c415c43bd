import Runa.Core.ReasonLaws
import Runa.Engine.GenerateRun

/-!
# The reasoning budget along a run

Once the budget of a think block is spent, `decode_step` no longer samples: it
takes the tokens of the budget message and of the close tag from a queue.
This module says when that works.  Three things can go wrong, and each main
result is stated with the exact branch on which it does: the queue is filled
once per generation and not once per block, a tag that is half read puts the
forcing off again, and the clock does not see the text that is withheld for
stop strings.
-/

namespace Runa.Engine.Generate

open Runa.Stream
open Runa.Stream.Occurrence
open Runa.Stream.Utf8
open Runa.Core.Reason
open Runa.Core.Think
open Runa.Engine.Ngram
open Runa.Engine.Sampling
open Runa.Engine.StopFilter

variable {Context Sampler Decoder Logit : Type}

/-! ## Where the injection starts -/

/--
The text of the current block: what the parser passed on since its last tag,
what it holds, and what is withheld for stop strings.
-/
def BlockText
    (family : ReasonFamily)
    (generation : Generation Context Sampler Decoder) (text : Text) :
    Prop :=
  ∃ log state, Parsed family generation log state ∧
    text =
      Splitter.sinceTag log ++ generation.reason.buf ++ generation.pending

theorem Parsed.blockText_iff
    {family : ReasonFamily}
    {generation : Generation Context Sampler Decoder}
    {log : List (Splitter.Entry Char Mode)} {state : Mode × Text}
    (parsed : Parsed family generation log state) (text : Text) :
    BlockText family generation text ↔
      text =
        Splitter.sinceTag log ++ generation.reason.buf ++
          generation.pending := by
  constructor
  · rintro ⟨log', state', parsed', rfl⟩
    obtain ⟨rfl, -⟩ := parsed.feeds.unique parsed'.feeds
    rfl
  · rintro rfl
    exact ⟨log, state, parsed, rfl⟩

/-- Inside a block there is a close tag, and it is the tag watched for. -/
theorem Parsed.inside
    {family : ReasonFamily}
    {generation : Generation Context Sampler Decoder}
    {log : List (Splitter.Entry Char Mode)} {state : Mode × Text}
    (parsed : Parsed family generation log state)
    (inside : generation.reason.inReason = true) :
    ∃ close,
      generation.reason.closeTag = some close ∧
        HeldTail [close]
          (Splitter.sinceTag log ++ generation.reason.buf)
          generation.reason.buf := by
  obtain ⟨feeds, reason⟩ := parsed
  have standing :=
    feeds.standing (Splitter.standing_start (splitter family) .unlocked)
  obtain ⟨mode, held⟩ := state
  rw [reason] at inside ⊢
  cases mode with
  | unlocked => cases inside
  | outside row => cases inside
  | inside row => exact ⟨row.closing, rfl, standing.held⟩

/-- The next step takes the first token from the queue. -/
structure InjectionStarts
    [LinearOrder Logit] [OrderBot Logit]
    (backend : Backend Context Sampler Decoder Logit)
    (generation : Generation Context Sampler Decoder) : Prop where
  decoding : Decoding backend generation
  forces : generation.forceKind = .force
  first : generation.injected = false

theorem forceKind_inReason
    {generation : Generation Context Sampler Decoder}
    (forces : generation.forceKind = .force) :
    generation.reason.inReason = true ∧
      generation.reason.holdingPartial = false := by
  unfold Generation.forceKind at forces
  split at forces
  · unfold BudgetClock.kind at forces
    split_ifs at forces with idle spent
    rw [Bool.or_eq_true, not_or] at idle
    rw [Bool.and_eq_true] at spent
    exact ⟨by simpa using idle.2, by simpa using spent.2⟩
  · cases forces

section Starts

variable [LinearOrder Logit] [OrderBot Logit]
variable {backend : Backend Context Sampler Decoder Logit}
variable {generation : Generation Context Sampler Decoder}

instance : Decidable (InjectionStarts backend generation) :=
  decidable_of_iff
    (Decoding backend generation ∧ generation.forceKind = .force ∧
      generation.injected = false)
    ⟨fun ⟨decoding, forces, first⟩ => ⟨decoding, forces, first⟩,
      fun ⟨decoding, forces, first⟩ => ⟨decoding, forces, first⟩⟩

/-- Only the text withheld for stop strings can end inside the close tag. -/
theorem InjectionStarts.endsInside_iff
    (starts : InjectionStarts backend generation)
    {family : ReasonFamily} (reading : Reading family generation) :
    ∃ close text,
      generation.reason.closeTag = some close ∧
        (∀ other, BlockText family generation other ↔ other = text) ∧
        (EndsInside [close] text ↔
          EndsInside [close] generation.pending) := by
  obtain ⟨log, state, parsed⟩ := reading.parsed
  obtain ⟨inside, free⟩ := forceKind_inReason starts.forces
  obtain ⟨close, known, held⟩ := parsed.inside inside
  have empty : generation.reason.buf = [] := by
    simpa [ReasoningParser.holdingPartial] using free
  refine ⟨close, _, known, parsed.blockText_iff, ?_⟩
  rw [empty, List.append_nil] at held ⊢
  exact held.endsInside_append_iff generation.pending

variable (backend)
variable (context : Context) (restored : Option Context)
variable (request : Request) (constrained : Option Sampler)
variable (toolReply : Option (Text → Text × List ToolCall))

/-- Where a decode step can still come, the parser has kept up. -/
theorem Run.reading
    {events : List GenEvent}
    {later : Generation Context Sampler Decoder}
    (run :
      Run backend
        (generate backend context restored request constrained toolReply)
        events later)
    (decoding : Decoding backend later) :
    Reading backend.family later := by
  have start :=
    reading_start backend context restored request constrained toolReply
  rcases
      (reading_invariant backend backend.family).run_start run.always
        start with
    reading | gone
  · exact reading
  · have alive := decoding.alive
    rw [gone.dropped] at alive
    cases alive

/--
Where the injection starts, the text of the block does not end inside the
close tag exactly when the text withheld for stop strings does not.
-/
theorem injection_starts_clean_iff
    {events : List GenEvent}
    {later : Generation Context Sampler Decoder}
    (run :
      Run backend
        (generate backend context restored request constrained toolReply)
        events later)
    (starts : InjectionStarts backend later) :
    ∃ close text,
      later.reason.closeTag = some close ∧
        (∀ other, BlockText backend.family later other ↔ other = text) ∧
        (¬ EndsInside [close] text ↔
          ¬ EndsInside [close] later.pending) := by
  obtain ⟨close, text, known, unique, same⟩ :=
    starts.endsInside_iff
      (run.reading backend context restored request constrained toolReply
        starts.decoding)
  exact ⟨close, text, known, unique, not_congr same⟩

end Starts

/-- A request with a budget and no grace, for concrete runs. -/
def budgetRequest (tokens : UInt32) (stop : List Text) : Request :=
  { plainRequest stop with
    think := { mode := .budget tokens 0, «show» := true } }

/-- A stop string that begins like a close tag hides half of the tag. -/
theorem injection_starts_inside_tag :
    let backend :=
      scripted "<think>".toList
        [(1, "<think>".toList), (2, "a".toList), (3, "</".toList)] []
        [1, 2, 3]
    ¬ ∀ events later close text,
      Run backend
          (generate backend () none (budgetRequest 2 ["</s>".toList]) none
            none)
          events later →
        InjectionStarts backend later →
          later.reason.closeTag = some close →
            BlockText backend.family later text →
              ¬ EndsInside [close] text := by
  intro backend claim
  obtain ⟨events, later, run, checked⟩ :=
    exists_run_of_ticks backend
      (generate backend () none (budgetRequest 2 ["</s>".toList]) none
        none) 5
      (fun later =>
        decide
          (InjectionStarts backend later ∧
            later.reason.closeTag = some "</think>".toList ∧
            later.pending = "</".toList))
      (by decide +kernel)
  obtain ⟨starts, closes, withheld⟩ := of_decide_eq_true checked
  obtain ⟨close, text, known, unique, same⟩ :=
    starts.endsInside_iff
      (run.reading backend () none _ none none starts.decoding)
  refine claim events later close text run starts known
    ((unique text).mpr rfl) (same.mpr ?_)
  rw [closes] at known
  cases known
  rw [withheld]
  exact ⟨"</".toList, by decide, List.suffix_rfl⟩

/-- Without stop strings nothing is withheld. -/
theorem injection_starts_clean :
    let backend :=
      scripted "<think>".toList
        [(1, "<think>".toList), (2, "a".toList), (3, "b".toList)] []
        [1, 2, 3]
    ∃ events later close text,
      Run backend
          (generate backend () none (budgetRequest 2 []) none none)
          events later ∧
        InjectionStarts backend later ∧
        later.reason.closeTag = some close ∧
        BlockText backend.family later text ∧
        ¬ EndsInside [close] text := by
  intro backend
  obtain ⟨events, later, run, checked⟩ :=
    exists_run_of_ticks backend
      (generate backend () none (budgetRequest 2 []) none none) 6
      (fun later =>
        decide (InjectionStarts backend later ∧ later.pending = []))
      (by decide +kernel)
  obtain ⟨starts, withheld⟩ := of_decide_eq_true checked
  obtain ⟨close, text, known, unique, clean⟩ :=
    injection_starts_clean_iff backend () none _ none none run starts
  refine
    ⟨events, later, close, text, run, starts, known,
      (unique text).mpr rfl, clean.mpr ?_⟩
  rw [withheld]
  rintro ⟨tail, isPartial, suffix⟩
  exact isPartial.1 (List.suffix_nil.mp suffix)

/-! ## Steps that commit one token -/

/-- A step that ended the generation and committed nothing. -/
structure Ended (generation next : Generation Context Sampler Decoder) :
    Prop where
  gone : Over next
  history : next.history = generation.history
  locked :
    ∀ close, generation.reason.closeTag = some close →
      next.reason.closeTag = some close

/-- A step of a generation without drafts that committed a token. -/
structure Committed
    [LinearOrder Logit] [OrderBot Logit]
    (backend : Backend Context Sampler Decoder Logit)
    (family : ReasonFamily)
    (generation : Generation Context Sampler Decoder) (commit : Commit)
    (next : Generation Context Sampler Decoder) : Prop where
  chosen :
    ∃ chosen,
      generation.chooseToken backend =
          .ok (commit.token, commit.origin, chosen) ∧
        next.inject = chosen.inject ∧ next.injected = chosen.injected
  history : next.history = commit :: generation.history
  locked :
    ∀ close, generation.reason.closeTag = some close →
      next.reason.closeTag = some close
  onward :
    Over next ∨
      Reading family next ∧ next.ngram = none ∧
        next.reason.inReason = commit.inReason ∧
        next.budget =
          generation.budget.map fun clock =>
            clock.observe commit.inReason commit.holding

section Single

variable {family : ReasonFamily}
variable {generation next : Generation Context Sampler Decoder}
variable {log : List (Splitter.Entry Char Mode)} {state : Mode × Text}

theorem ofState_closeTag (family : ReasonFamily) (state : Mode × Text) :
    (ReasoningParser.ofState family state).closeTag =
      state.1.row?.map TagPair.closing := by
  obtain ⟨mode, held⟩ := state
  cases mode <;> rfl

/-- However the parser reads on, its close tag stays. -/
theorem Parsed.closeTag_stays
    (parsed : Parsed family generation log state)
    {fed : List Text} {more : List (Splitter.Entry Char Mode)}
    {after : Mode × Text}
    (feeds :
      (splitter family).FeedsAll (.unlocked, []) fed (log ++ more) after)
    {close : Text} (known : generation.reason.closeTag = some close)
    (held : Text) :
    (ReasoningParser.ofState family (after.1, held)).closeTag =
      some close := by
  rw [parsed.reason, ofState_closeTag, Option.map_eq_some_iff] at known
  obtain ⟨row, locked, rfl⟩ := known
  have walk := parsed.feeds.walk.of_append feeds.walk
  rw [ofState_closeTag, walk_keeps_row walk locked]
  rfl

variable [LinearOrder Logit] [OrderBot Logit]
variable {backend : Backend Context Sampler Decoder Logit}

/-- Without drafts a step commits one token, or ends the generation. -/
theorem Reading.decodeStep_single
    (reading : Reading family generation)
    (alone : generation.ngram = none)
    (step : generation.decodeStep backend = .ok next) :
    Ended generation next ∨
      ∃ commit, Committed backend family generation commit next := by
  obtain ⟨log, state, parsed⟩ := reading.parsed
  have view := decodeStep_stepping backend generation
  generalize generation.decodeStep backend = result at view step
  cases view with
  | full =>
      obtain ⟨more, after, queued, feeds⟩ :=
        parsed.queueTerminal .maxTokens
      rw [queued] at step
      cases step
      exact
        Or.inl
          ⟨⟨rfl, rfl⟩, rfl,
            fun close tag => parsed.closeTag_stays feeds tag []⟩
  | unchosen => cases step
  | eos _ choice =>
      have known := parsed.choose choice
      obtain ⟨more, after, queued, feeds⟩ := known.queueTerminal .eos
      rw [queued] at step
      cases step
      obtain ⟨_, _, _, _, _, _, rfl, -⟩ := chooseToken_frame backend choice
      exact
        Or.inl
          ⟨⟨rfl, rfl⟩, rfl,
            fun close tag => known.closeTag_stays feeds tag []⟩
  | undecoded => cases step
  | @commits token origin chosen decoded verified _ choice _ drafted =>
      have known := (parsed.choose choice).decode drafted
      have undrafted : chosen.ngram = none := by
        obtain ⟨_, _, _, _, _, _, rfl, -⟩ :=
          chooseToken_frame backend choice
        exact alone
      obtain rfl := decodeDrafts_single backend undrafted drafted
      obtain ⟨context, seed, sampler, tokens, past, index, framed, alive⟩ :=
        decoded_frame backend choice drafted
      have tagged : decoded.reason = generation.reason := by rw [framed]
      have recorded : decoded.history = generation.history := by
        rw [framed]
      have queued : decoded.inject = chosen.inject := by rw [framed]
      have flagged : decoded.injected = chosen.injected := by rw [framed]
      rw [List.map_nil, Generation.commitLoop] at step
      rcases known.commitOne backend token token origin with
        ⟨progress, committed, outcome⟩ | ⟨failure, failed, -⟩
      · rw [committed] at step
        cases outcome with
        | closed _ feeds =>
            cases step
            exact
              Or.inl
                ⟨⟨rfl, rfl⟩, recorded,
                  fun close tag =>
                    known.closeTag_stays feeds (tagged ▸ tag) []⟩
        | @stopped piece decoder before matched more after _ _ _ _ feeds =>
            cases step
            let parser := ReasoningParser.ofState family (after.1, [])
            let commit : Commit :=
              { token := token
                origin := origin
                piece := piece
                inReason := parser.inReason
                holding := parser.holdingPartial
                crossed := crosses decoded.reason before }
            exact
              Or.inr
                ⟨commit,
                  { chosen := ⟨chosen, choice, queued, flagged⟩
                    history := congrArg (commit :: ·) recorded
                    locked := fun close tag =>
                      known.closeTag_stays feeds (tagged ▸ tag) []
                    onward := Or.inl ⟨rfl, rfl⟩ }⟩
        | @advanced piece decoder emit keep more after _ _ _ _ later =>
            cases step
            have feeds := later.feeds
            obtain ⟨counted, _, _, _, _, equal⟩ :=
              (advance_advanced backend decoded family token token origin
                piece decoder emit keep more after).eq
            rw [equal] at later ⊢
            have lives :
                (decoded.countToken backend token token
                  counted).sampler.isSome := by
              rw [countToken_alive, framed]
              exact alive reading.alive
            have unqueued : decoded.terminal = [] := by
              rw [framed]
              exact reading.unqueued
            have budgeted : decoded.budget = generation.budget := by
              rw [framed]
            have single : decoded.ngram = none := by
              rw [framed]
              exact alone
            let commit : Commit :=
              { token := token
                origin := origin
                piece := piece
                inReason := after.1.reasons
                holding := !after.2.isEmpty
                crossed := crosses decoded.reason emit }
            exact
              Or.inr
                ⟨commit,
                  { chosen := ⟨chosen, choice, queued, flagged⟩
                    history := congrArg (commit :: ·) recorded
                    locked := fun close tag =>
                      known.closeTag_stays feeds (tagged ▸ tag) after.2
                    onward :=
                      Or.inr
                        ⟨⟨⟨_, _, later⟩, lives, unqueued⟩,
                          by simp [Generation.countToken, single],
                          ofState_inReason family after,
                          by rw [← budgeted]⟩ }⟩
      · rw [failed] at step
        cases step

end Single

/-! ## Where a token comes from -/

section Choice

variable [LinearOrder Logit]
variable {backend : Backend Context Sampler Decoder Logit}
variable {generation chosen : Generation Context Sampler Decoder}
variable {token : Token} {origin : Origin}

/-- The queue a token is taken from: the one there is, or a new one. -/
def Queued
    (backend : Backend Context Sampler Decoder Logit)
    (generation : Generation Context Sampler Decoder)
    (items : List Token) : Prop :=
  generation.injected = true ∧ items = generation.inject ∨
    generation.injected = false ∧ ∃ close closing,
      generation.reason.closeTag = some close ∧
        backend.strToToken close = some closing ∧
        items = backend.injection closing

/-- A token is taken from the queue, or sampled where that cannot help. -/
theorem chooseToken_queue
    (closes :
      generation.forceKind = .force →
        generation.reason.closeTag.isSome)
    (choice : generation.chooseToken backend = .ok (token, origin, chosen)) :
    origin = .forced ∧ generation.forceKind = .force ∧
        chosen.injected = true ∧
        Queued backend generation (token :: chosen.inject) ∨
      origin = .sampled ∧ chosen.inject = generation.inject ∧
        chosen.injected = generation.injected ∧
        (generation.forceKind = .force →
          generation.injected = true ∧ generation.inject = []) := by
  unfold Generation.chooseToken at choice
  by_cases force : generation.forceKind = .force
  · simp only [force, if_true] at choice
    cases fill : generation.fillInject backend with
    | error failure =>
        rw [fill] at choice
        cases choice
    | ok filled =>
        rw [fill] at choice
        have source :
            filled.injected = true ∧
              Queued backend generation filled.inject ∧
              (filled.inject = [] →
                generation.injected = true ∧ generation.inject = []) := by
          rcases fillInject_cases backend fill with
            ⟨already, rfl⟩ |
              ⟨unfilled, tokens, ⟨unknown, -⟩ |
                ⟨close, closing, known, tokenized, nonempty, rfl⟩⟩
          · exact
              ⟨already, Or.inl ⟨already, rfl⟩,
                fun empty => ⟨already, empty⟩⟩
          · rw [unknown] at closes
            cases closes force
          · refine
              ⟨rfl,
                Or.inr ⟨unfilled, close, closing, known, tokenized, rfl⟩,
                fun empty => ?_⟩
            exact (nonempty (List.append_eq_nil_iff.mp empty).2).elim
        obtain ⟨flag, queue, unhelpful⟩ := source
        cases items : filled.inject with
        | cons head rest =>
            simp only [Bind.bind, Except.bind, items] at choice
            cases choice
            rw [items] at queue
            exact Or.inl ⟨rfl, force, flag, queue⟩
        | nil =>
            obtain ⟨already, empty⟩ := unhelpful items
            cases sampled : filled.sampleNext backend .force with
            | error failure =>
                simp only [Bind.bind, Except.bind, items, sampled]
                  at choice
                cases choice
            | ok result =>
                simp only [Bind.bind, Except.bind, items, sampled]
                  at choice
                cases choice
                obtain ⟨context, seed, sampler, equal, -⟩ :=
                  sampleNext_frame backend sampled
                right
                rw [equal]
                exact
                  ⟨rfl, items.trans empty.symm, flag.trans already.symm,
                    fun _ => ⟨already, empty⟩⟩
  · simp only [force, if_false] at choice
    cases sampled :
        generation.sampleNext backend generation.forceKind with
    | error failure =>
        rw [sampled] at choice
        cases choice
    | ok result =>
        rw [sampled] at choice
        cases choice
        obtain ⟨context, seed, sampler, equal, -⟩ :=
          sampleNext_frame backend sampled
        right
        rw [equal]
        exact ⟨rfl, rfl, rfl, fun forced => (force forced).elim⟩

end Choice

/-! ## Blocks in the history -/

section Crosses

variable {family : ReasonFamily}

/-- Pieces fall short of the text of a log by its tags. -/
theorem pieces_short_iff
    {mode final : Mode} {log : List (Splitter.Entry Char Mode)}
    (walk : (splitter family).Walk mode log final) :
    ((pieces log).flatMap ReasonPiece.body).length ≤
        (Splitter.spelling messageMarker log).length ∧
      (((pieces log).flatMap ReasonPiece.body).length <
          (Splitter.spelling messageMarker log).length ↔
        ∃ word target marked, .tag word target marked ∈ log) := by
  induction walk with
  | nil => simp [pieces]
  | @piece mode final body log _ _ induction =>
      have same : (asPiece mode body).body = body := by
        unfold asPiece
        split <;> rfl
      obtain ⟨bound, short⟩ := induction
      have spelled :
          Splitter.spelling messageMarker
              (.piece mode body :: log : List (Splitter.Entry Char Mode)) =
            body ++ Splitter.spelling messageMarker log := rfl
      have listed :
          (pieces (.piece mode body :: log)).flatMap ReasonPiece.body =
            body ++ (pieces log).flatMap ReasonPiece.body := by
        change (asPiece mode body).body ++ _ = _
        rw [same]
        rfl
      simp only [spelled, listed, List.length_append,
        Nat.add_le_add_iff_left, Nat.add_lt_add_iff_left, List.mem_cons,
        reduceCtorEq, false_or]
      exact ⟨bound, short⟩
  | @tag mode target final word marked log member _ induction =>
      have nonempty : 0 < word.length :=
        List.length_pos_of_ne_nil
          ((splitter family).guarded mode _ member).ne_nil
      have bound := induction.1
      simp only [pieces_tag, Splitter.spelling_tag, List.length_append]
      refine ⟨by omega, fun _ => ?_, fun _ => by omega⟩
      exact ⟨word, target, marked, List.mem_cons_self⟩

/-- `crosses` says whether the parser reads a tag. -/
theorem crosses_iff
    {start final : Mode × Text} {text : Text}
    {log : List (Splitter.Entry Char Mode)}
    (feeds : (splitter family).Feeds start text log final) :
    crosses (.ofState family start) text = true ↔
      ∃ word target marked, .tag word target marked ∈ log := by
  have conserved := congrArg List.length feeds.spelling
  rw [List.length_append, List.length_append] at conserved
  rw [← (pieces_short_iff feeds.walk).2]
  simp only [crosses, push_of_feeds feeds, ofState_buf,
    decide_eq_true_eq]
  have marker : (splitter family).marker = messageMarker := rfl
  rw [marker] at conserved
  omega

end Crosses

/-- Whether the parser stands in a block behind the newest token. -/
def inBlock : List Commit → Bool
  | [] => false
  | commit :: _ => commit.inReason

/-- The token left the parser in the block in which it found it. -/
def Commit.stays (commit : Commit) : Bool :=
  commit.inReason && !commit.crossed

/-- The tokens of the current block behind the one that opened it. -/
def bodyTokens : List Commit → Nat
  | [] => 0
  | commit :: before =>
      if inBlock before && commit.stays then bodyTokens before + 1 else 0

/--
At some point in the current block its tokens had reached the limit and the
parser held no partial tag.
-/
def spent (limit : Nat) : List Commit → Bool
  | [] => false
  | commit :: before =>
      commit.inReason &&
        (spent limit before && !commit.crossed ||
          decide (limit ≤ bodyTokens (commit :: before)) &&
            !commit.holding)

/-- In every block, every token behind a spent budget is forced. -/
def Obeyed (limit : Nat) : List Commit → Prop
  | [] => True
  | commit :: before =>
      (spent limit before = true → commit.origin = .forced) ∧
        Obeyed limit before

instance decidableObeyed (limit : Nat) : DecidablePred (Obeyed limit)
  | [] => isTrue trivial
  | _ :: before =>
      have := decidableObeyed limit before
      inferInstanceAs (Decidable (_ ∧ _))

/-- Whether a token of the current block was forced. -/
def forcedInBlock : List Commit → Bool
  | [] => false
  | commit :: before =>
      commit.stays &&
        (decide (commit.origin = .forced) || forcedInBlock before)

theorem forcedInBlock_inBlock
    {history : List Commit} (forced : forcedInBlock history = true) :
    inBlock history = true := by
  cases history with
  | nil => cases forced
  | cons commit before =>
      simp only [forcedInBlock, Commit.stays, Bool.and_eq_true] at forced
      exact forced.1.1

theorem spent_body
    {limit : Nat} {history : List Commit}
    (isSpent : spent limit history = true) :
    inBlock history = true ∧ limit ≤ bodyTokens history := by
  induction history with
  | nil => cases isSpent
  | cons commit before induction =>
      simp only [spent, Bool.and_eq_true, Bool.or_eq_true,
        decide_eq_true_eq] at isSpent
      obtain ⟨inReason, ⟨earlier, stays⟩ | ⟨enough, -⟩⟩ := isSpent
      · obtain ⟨inside, enough⟩ := induction earlier
        refine ⟨inReason, ?_⟩
        simp only [bodyTokens, inside, Commit.stays, inReason, stays,
          Bool.and_self, if_true]
        omega
      · exact ⟨inReason, enough⟩

theorem Obeyed.of_suffix
    {limit : Nat} {history earlier : List Commit}
    (obeyed : Obeyed limit history) (suffix : earlier <:+ history) :
    Obeyed limit earlier := by
  induction history with
  | nil =>
      rw [List.suffix_nil.mp suffix]
      trivial
  | cons commit before induction =>
      rcases List.suffix_cons_iff.mp suffix with rfl | inner
      · exact obeyed
      · exact induction obeyed.2 inner

/-! ## The clock along a run -/

/-- The clock has followed the tokens of a generation without drafts. -/
structure Budgeted
    (family : ReasonFamily) (limit : Nat)
    (generation : Generation Context Sampler Decoder) : Prop where
  reading : Reading family generation
  alone : generation.ngram = none
  block : inBlock generation.history = generation.reason.inReason
  clock :
    ∃ clock body,
      generation.budget = some clock ∧ clock.budget.toNat = limit ∧
        clock.Counts generation.reason.inReason body ∧
        bodyTokens generation.history ≤ body ∧
        (forcedInBlock generation.history = true →
          clock.budget ≤ clock.counted)

section Clock

variable {family : ReasonFamily} {limit : Nat}
variable {generation next chosen : Generation Context Sampler Decoder}
variable {token : Token} {origin : Origin} {commit : Commit}

/-- Where the clock forces, there is a close tag to force. -/
theorem Reading.closes
    (reading : Reading family generation)
    (force : generation.forceKind = .force) :
    generation.reason.closeTag.isSome := by
  obtain ⟨log, state, parsed⟩ := reading.parsed
  obtain ⟨close, known, -⟩ :=
    parsed.inside (forceKind_inReason force).1
  rw [known]
  rfl

theorem Budgeted.forceKind_iff
    (budgeted : Budgeted family limit generation)
    (isSpent : spent limit generation.history = true) :
    generation.forceKind = .force ↔
      generation.reason.holdingPartial = false := by
  obtain ⟨inside, enough⟩ := spent_body isSpent
  obtain ⟨clock, body, running, cap, counts, bound, -⟩ := budgeted.clock
  have force := counts.kind_force_iff generation.reason.holdingPartial
  rw [budgeted.block] at inside
  rw [inside] at counts force
  have gone := counts.spent (by omega)
  rw [Generation.forceKind, running]
  simp only [inside, force, true_and]
  exact ⟨And.right, fun free => ⟨gone, free⟩⟩

/-- In a block with a forced token the clock forces on. -/
theorem Budgeted.forceKind_of_forced
    (budgeted : Budgeted family limit generation)
    (forced : forcedInBlock generation.history = true)
    (free : generation.reason.holdingPartial = false) :
    generation.forceKind = .force := by
  obtain ⟨clock, body, running, -, counts, -, gone⟩ := budgeted.clock
  have inside := forcedInBlock_inBlock forced
  rw [budgeted.block] at inside
  have force := counts.kind_force_iff generation.reason.holdingPartial
  rw [Generation.forceKind, running]
  exact force.mpr ⟨inside, gone forced, free⟩

/-- Where the clock forces, the budget is spent. -/
theorem Budgeted.over_of_force
    (budgeted : Budgeted family limit generation)
    (force : generation.forceKind = .force)
    {clock : BudgetClock} (running : generation.budget = some clock) :
    clock.budget ≤ clock.counted := by
  obtain ⟨other, body, running', -, counts, -⟩ := budgeted.clock
  cases running.symm.trans running'
  rw [Generation.forceKind, running] at force
  exact ((counts.kind_force_iff _).mp force).2.1

theorem Budgeted.ready
    (budgeted : Budgeted family limit generation)
    (rest : List GenEvent) :
    Budgeted family limit { generation with ready := rest } := by
  obtain ⟨⟨⟨log, state, feeds, reason⟩, alive, unqueued⟩, alone, block,
    clock⟩ := budgeted
  exact
    ⟨⟨⟨log, state, feeds, reason⟩, alive, unqueued⟩, alone, block, clock⟩

theorem Budgeted.prefill
    (budgeted : Budgeted family limit generation)
    {backend : Backend Context Sampler Decoder Logit}
    (step : generation.prefillStep backend = .ok next) :
    Budgeted family limit next := by
  obtain ⟨context, past, index, rfl⟩ := prefillStep_frame backend step
  obtain ⟨⟨⟨log, state, feeds, reason⟩, alive, unqueued⟩, alone, block,
    clock⟩ := budgeted
  exact
    ⟨⟨⟨log, state, feeds, reason⟩, alive, unqueued⟩, alone, block, clock⟩

section Choose

variable [LinearOrder Logit]
variable {backend : Backend Context Sampler Decoder Logit}

/-- When a token of a spent block is forced. -/
theorem Budgeted.forced_iff
    (budgeted : Budgeted family limit generation)
    (isSpent : spent limit generation.history = true)
    (choice : generation.chooseToken backend = .ok (token, origin, chosen)) :
    origin = .forced ↔
      generation.reason.holdingPartial = false ∧
        (generation.injected = true → generation.inject ≠ []) := by
  have force := budgeted.forceKind_iff isSpent
  rcases chooseToken_queue budgeted.reading.closes choice with
    ⟨rfl, forces, -, queue⟩ | ⟨rfl, -, -, unhelpful⟩
  · refine ⟨fun _ => ⟨force.mp forces, ?_⟩, fun _ => rfl⟩
    intro filled empty
    rcases queue with ⟨-, items⟩ | ⟨unfilled, -⟩
    · rw [empty] at items
      cases items
    · rw [filled] at unfilled
      cases unfilled
  · simp only [reduceCtorEq, false_iff, not_and]
    intro free
    obtain ⟨filled, empty⟩ := unhelpful (force.mpr free)
    exact fun helps => helps filled empty

end Choose

variable [LinearOrder Logit] [OrderBot Logit]
variable {backend : Backend Context Sampler Decoder Logit}

/-- Tokens are forced only behind a spent budget. -/
theorem Budgeted.over_of_committed
    (budgeted : Budgeted family limit generation)
    (committed : Committed backend family generation commit next)
    {clock : BudgetClock} (running : generation.budget = some clock)
    (forced : forcedInBlock next.history = true) :
    generation.reason.inReason = true ∧ commit.inReason = true ∧
      clock.budget ≤ clock.counted := by
  rw [committed.history] at forced
  simp only [forcedInBlock, Commit.stays, Bool.and_eq_true,
    Bool.or_eq_true, decide_eq_true_eq] at forced
  obtain ⟨⟨inReason, -⟩, here | earlier⟩ := forced
  · obtain ⟨chosen, choice, -, -⟩ := committed.chosen
    rcases chooseToken_queue budgeted.reading.closes choice with
      ⟨-, force, -, -⟩ | ⟨sampled, -⟩
    · exact
        ⟨(forceKind_inReason force).1, inReason,
          budgeted.over_of_force force running⟩
    · rw [here] at sampled
      cases sampled
  · obtain ⟨other, body, running', -, -, -, gone⟩ := budgeted.clock
    cases running.symm.trans running'
    exact
      ⟨budgeted.block ▸ forcedInBlock_inBlock earlier, inReason,
        gone earlier⟩

/-- The clock follows the token a step commits. -/
theorem Budgeted.committed
    (budgeted : Budgeted family limit generation)
    (committed : Committed backend family generation commit next) :
    Budgeted family limit next ∨ Over next := by
  rcases committed.onward with
    gone | ⟨reading, alone, inReason, observed⟩
  · exact Or.inr gone
  obtain ⟨clock, body, running, cap, counts, bound, -⟩ := budgeted.clock
  rw [running] at observed
  left
  refine
    { reading := reading
      alone := alone
      block := by rw [committed.history, inReason]; rfl
      clock :=
        ⟨clock.observe commit.inReason commit.holding,
          nextBody generation.reason.inReason commit.inReason body,
          observed, by simpa using cap, ?_, ?_, ?_⟩ }
  · rw [inReason]
    exact counts.observe commit.inReason commit.holding
  · rw [committed.history]
    simp only [bodyTokens, nextBody, budgeted.block, Commit.stays]
    split_ifs with stays goes
    · omega
    · simp only [Bool.and_eq_true] at stays goes
      exact (goes ⟨stays.1, stays.2.1⟩).elim
    · omega
    · omega
  · intro forced
    obtain ⟨was, goes, gone⟩ :=
      budgeted.over_of_committed committed running forced
    rw [was] at counts
    rw [goes]
    exact counts.spent_observe gone commit.holding

end Clock

section Rule

variable [LinearOrder Logit] [OrderBot Logit]
variable (backend : Backend Context Sampler Decoder Logit)
variable (family : ReasonFamily) (limit : Nat)
variable
  {good :
    Generation Context Sampler Decoder →
      Generation Context Sampler Decoder → Prop}
variable {Keep Final : Generation Context Sampler Decoder → Prop}

/--
What the token of every good step keeps is kept along a run, with the clock.
Of the state, `Keep` may read the history, the queue and the parser.
-/
theorem budgeted_invariant
    (frame :
      ∀ {generation other : Generation Context Sampler Decoder},
        Keep generation → other.history = generation.history →
          other.inject = generation.inject →
            other.injected = generation.injected →
              other.reason = generation.reason → Keep other)
    (frameFinal :
      ∀ {generation other : Generation Context Sampler Decoder},
        Final generation → other.history = generation.history →
          other.reason = generation.reason → Final other)
    (settle :
      ∀ {generation : Generation Context Sampler Decoder},
        Keep generation → Final generation)
    (ends :
      ∀ {generation next : Generation Context Sampler Decoder},
        Ended generation next → Final generation → Final next)
    (commits :
      ∀ {generation next : Generation Context Sampler Decoder}
        {commit : Commit},
        Budgeted family limit generation → Keep generation →
          Committed backend family generation commit next →
            good generation next → Keep next) :
    Invariant backend good
      (fun _ generation =>
        Budgeted family limit generation ∧ Keep generation)
      (fun _ generation => Over generation ∧ Final generation) where
  alive holds := ⟨holds.1.reading.alive, holds.1.reading.unqueued⟩
  gone holds := ⟨holds.1.dropped, holds.1.drained⟩
  ready := by
    rintro past rest event generation ⟨budgeted, keep⟩ -
    exact ⟨budgeted.ready rest, frame keep rfl rfl rfl rfl⟩
  terminal := by
    rintro past rest event generation ⟨⟨dropped, drained⟩, final⟩ -
    exact ⟨⟨dropped, drained⟩, frameFinal final rfl rfl⟩
  prefill := by
    rintro past generation next ⟨budgeted, keep⟩ - step
    refine ⟨budgeted.prefill step, ?_⟩
    obtain ⟨context, past, index, rfl⟩ := prefillStep_frame backend step
    exact frame keep rfl rfl rfl rfl
  decode := by
    rintro past generation next ⟨budgeted, keep⟩ step fair
    rcases budgeted.reading.decodeStep_single budgeted.alone step with
      ended | ⟨commit, committed⟩
    · exact Or.inr ⟨ended.gone, ends ended (settle keep)⟩
    · have kept := commits budgeted keep committed fair
      rcases budgeted.committed committed with after | gone
      · exact Or.inl ⟨after, kept⟩
      · exact Or.inr ⟨gone, settle kept⟩

end Rule

/-! ## The budget is obeyed -/

/--
A step that commits a token of a spent block: no tag is half read, and the
queue is yet to be filled or not yet used up.
-/
def Enforceable (limit : Nat)
    (generation next : Generation Context Sampler Decoder) : Prop :=
  next.history ≠ generation.history →
    spent limit generation.history = true →
      generation.reason.holdingPartial = false ∧
        (generation.injected = true → generation.inject ≠ [])

section Obeyed

variable [LinearOrder Logit] [OrderBot Logit]
variable {backend : Backend Context Sampler Decoder Logit}
variable {family : ReasonFamily} {limit : Nat}
variable {generation later next : Generation Context Sampler Decoder}
variable {events : List GenEvent} {commit : Commit}

/-- A step obeys the budget exactly when it could enforce it. -/
theorem Budgeted.obeyed_iff
    (budgeted : Budgeted family limit generation)
    (committed : Committed backend family generation commit next)
    (obeyed : Obeyed limit generation.history) :
    Obeyed limit next.history ↔ Enforceable limit generation next := by
  obtain ⟨chosen, choice, -, -⟩ := committed.chosen
  have grows : next.history ≠ generation.history := by
    rw [committed.history]
    exact List.cons_ne_self _ _
  rw [committed.history, Obeyed, Enforceable]
  constructor
  · rintro ⟨forced, -⟩ - isSpent
    exact (budgeted.forced_iff isSpent choice).mp (forced isSpent)
  · intro enforceable
    refine ⟨fun isSpent => ?_, obeyed⟩
    exact
      (budgeted.forced_iff isSpent choice).mpr (enforceable grows isSpent)

/-- The history only grows. -/
theorem Budgeted.history_suffix
    (budgeted : Budgeted family limit generation)
    (run : Run backend generation events later) :
    generation.history <:+ later.history := by
  have grows :
      Invariant backend (fun _ _ => True)
        (fun _ other =>
          Budgeted family limit other ∧
            generation.history <:+ other.history)
        (fun _ other => Over other ∧ generation.history <:+ other.history) := by
    refine budgeted_invariant backend family limit ?_ ?_ id ?_ ?_
    · intro first other suffix same _ _ _
      rwa [same]
    · intro first other suffix same _
      rwa [same]
    · intro first other ended suffix
      rwa [ended.history]
    · intro first other commit _ suffix committed _
      rw [committed.history]
      exact suffix.trans (List.suffix_cons _ _)
  rcases grows.run_start run.always ⟨budgeted, List.suffix_rfl⟩ with
    keeps | ends
  · exact keeps.2
  · exact ends.2

/-- A run of steps that could enforce the budget obeys it. -/
theorem Budgeted.obeyed_of_runWhere
    (budgeted : Budgeted family limit generation)
    (obeyed : Obeyed limit generation.history)
    (run :
      RunWhere backend (Enforceable limit) generation events later) :
    Obeyed limit later.history := by
  have keeps :
      Invariant backend (Enforceable limit)
        (fun _ other =>
          Budgeted family limit other ∧ Obeyed limit other.history)
        (fun _ other => Over other ∧ Obeyed limit other.history) := by
    refine budgeted_invariant backend family limit ?_ ?_ id ?_ ?_
    · intro first other kept same _ _ _
      rwa [same]
    · intro first other kept same _
      rwa [same]
    · intro first other ended kept
      rwa [ended.history]
    · intro first other commit counts kept committed fair
      exact (counts.obeyed_iff committed kept).mpr fair
  rcases keeps.run_start run ⟨budgeted, obeyed⟩ with kept | ends
  · exact kept.2
  · exact ends.2

/-- Once the last event is queued no step is taken any more. -/
theorem Over.run
    {good :
      Generation Context Sampler Decoder →
        Generation Context Sampler Decoder → Prop}
    (gone : Over generation)
    (run : Run backend generation events later) :
    RunWhere backend good generation events later ∧
      later.history = generation.history := by
  induction run with
  | refl => exact ⟨.refl _, rfl⟩
  | yield ticked _ induction =>
      rcases tick_yield ticked with
        ⟨rest, ready, -⟩ | ⟨rest, -, -, rfl⟩
      · rw [gone.drained] at ready
        cases ready
      · obtain ⟨tail, same⟩ := induction ⟨gone.dropped, gone.drained⟩
        exact ⟨.yield ticked tail, same⟩
  | again ticked _ _ =>
      have alive : _ = true :=
        (tick_again ticked).elim And.left fun decodes => decodes.1.alive
      rw [gone.dropped] at alive
      cases alive

/-- A run that obeys the budget could enforce it at every step. -/
theorem Budgeted.runWhere_of_obeyed
    (budgeted : Budgeted family limit generation)
    (run : Run backend generation events later)
    (obeyed : Obeyed limit later.history) :
    RunWhere backend (Enforceable limit) generation events later := by
  induction run with
  | refl => exact .refl _
  | yield ticked _ induction =>
      rcases tick_yield ticked with
        ⟨rest, -, rfl⟩ | ⟨rest, -, terminal, -⟩
      · exact .yield ticked (induction (budgeted.ready rest) obeyed)
      · rw [budgeted.reading.unqueued] at terminal
        cases terminal
  | @again generation next later events ticked rest induction =>
      rcases tick_again ticked with ⟨-, unfilled, step⟩ | ⟨-, step⟩
      · refine
          .again ticked (fun decoding => ?_)
            (induction (budgeted.prefill step) obeyed)
        rw [decoding.prefilled] at unfilled
        cases unfilled
      rcases budgeted.reading.decodeStep_single budgeted.alone step with
        ended | ⟨commit, committed⟩
      · exact
          .again ticked (fun _ grows => (grows ended.history).elim)
            (ended.gone.run rest).1
      have enforced (after : next.history <:+ later.history) :
          Enforceable limit generation next := by
        have here := obeyed.of_suffix after
        refine (budgeted.obeyed_iff committed ?_).mp here
        rw [committed.history] at here
        exact here.2
      rcases budgeted.committed committed with counts | gone
      · exact
          .again ticked (fun _ => enforced (counts.history_suffix rest))
            (induction counts obeyed)
      · obtain ⟨tail, same⟩ := gone.run rest
        exact
          .again ticked (fun _ => enforced (same ▸ List.suffix_rfl)) tail

variable (backend)
variable (context : Context) (restored : Option Context)
variable (request : Request) (constrained : Option Sampler)
variable (toolReply : Option (Text → Text × List ToolCall))

omit [LinearOrder Logit] [OrderBot Logit] in
theorem budgeted_start
    {clock : BudgetClock}
    (running :
      (generate backend context restored request constrained
        toolReply).budget = some clock)
    (alone :
      (generate backend context restored request constrained
        toolReply).ngram = none) :
    Budgeted backend.family clock.budget.toNat
      (generate backend context restored request constrained
        toolReply) := by
  have reading :=
    reading_start backend context restored request constrained toolReply
  have fresh :
      (generate backend context restored request constrained
            toolReply).history = [] ∧
        (generate backend context restored request constrained
            toolReply).reason.inReason = false ∧
        (generate backend context restored request constrained
            toolReply).budget =
          BudgetClock.fromThink request.think
            (saturatingSub backend.nCtx
              (UInt32.ofNat request.promptTokens.length)) := by
    cases constrained with
    | none => exact ⟨rfl, rfl, rfl⟩
    | some sampler => exact ⟨rfl, rfl, rfl⟩
  obtain ⟨history, outside, made⟩ := fresh
  have counts : clock.Counts false 0 := by
    rw [made, BudgetClock.fromThink, Option.map_eq_some_iff] at running
    obtain ⟨budget, -, rfl⟩ := running
    exact BudgetClock.counts_new _ _
  refine
    ⟨reading, alone, by rw [history, outside]; rfl, clock, 0, running, rfl,
      by rw [outside]; exact counts, by rw [history]; rfl, ?_⟩
  rw [history]
  intro forced
  cases forced

/--
Without drafts, the budget is obeyed in every block exactly along the runs
whose every step into a spent block could enforce it.
-/
theorem budget_obeyed_iff
    {clock : BudgetClock}
    (running :
      (generate backend context restored request constrained
        toolReply).budget = some clock)
    (alone :
      (generate backend context restored request constrained
        toolReply).ngram = none)
    (run :
      Run backend
        (generate backend context restored request constrained toolReply)
        events later) :
    Obeyed clock.budget.toNat later.history ↔
      RunWhere backend (Enforceable clock.budget.toNat)
        (generate backend context restored request constrained toolReply)
        events later := by
  have budgeted :=
    budgeted_start backend context restored request constrained toolReply
      running alone
  refine
    ⟨budgeted.runWhere_of_obeyed run, budgeted.obeyed_of_runWhere ?_⟩
  cases constrained with
  | none => trivial
  | some sampler => trivial

end Obeyed

/-- A second block has no queue left, and goes on as it likes. -/
theorem budget_disobeyed :
    let backend :=
      scripted "<think>".toList
        [(1, "<think>".toList), (2, "a".toList), (3, "b".toList),
          (10, "Answer now.".toList), (11, "</think>".toList)]
        [(budgetMessage, [10]), ("</think>".toList, [11])]
        [1, 2, 1, 2, 3]
    ¬ ∀ events later,
      Run backend
          (generate backend () none (budgetRequest 1 []) none none)
          events later →
        Obeyed 1 later.history := by
  intro backend claim
  obtain ⟨events, later, run, checked⟩ :=
    exists_run_of_ticks backend
      (generate backend () none (budgetRequest 1 []) none none) 12
      (fun later => decide (¬ Obeyed 1 later.history))
      (by decide +kernel)
  exact of_decide_eq_true checked (claim events later run)

/-- One block, closed by the queue when its budget is spent. -/
theorem budget_obeyed_once :
    let backend :=
      scripted "<think>".toList
        [(1, "<think>".toList), (2, "a".toList), (3, "b".toList),
          (10, "Answer now.".toList), (11, "</think>".toList)]
        [(budgetMessage, [10]), ("</think>".toList, [11])] [1, 2, 3]
    let start := generate backend () none (budgetRequest 1 []) none none
    ∃ events later,
      RunWhere backend (Enforceable 1) start events later ∧
        later.history.map (fun commit => (commit.token, commit.origin)) =
          [(3, .sampled), (11, .forced), (10, .forced), (2, .sampled),
            (1, .sampled)] := by
  intro backend start
  obtain ⟨events, later, run, checked⟩ :=
    exists_run_of_ticks backend start 11
      (fun later =>
        decide
          (Obeyed 1 later.history ∧
            later.history.map
                (fun commit => (commit.token, commit.origin)) =
              [(3, .sampled), (11, .forced), (10, .forced), (2, .sampled),
                (1, .sampled)]))
      (by decide +kernel)
  obtain ⟨obeyed, tokens⟩ := of_decide_eq_true checked
  have running : start.budget = some (.new 1 0) := by decide +kernel
  have iff :=
    budget_obeyed_iff backend () none (budgetRequest 1 []) none none
      running rfl run
  exact ⟨events, later, iff.mp obeyed, tokens⟩

/-! ## The injection is not interrupted -/

/--
From the first forced token of a block on, the tokens are those of the
message and of the close tag, all of them forced, as far as they go.
-/
def Uninterrupted
    (backend : Backend Context Sampler Decoder Logit)
    (generation : Generation Context Sampler Decoder) : Prop :=
  ∀ after commit before,
    generation.history = after ++ commit :: before →
      commit.origin = .forced → forcedInBlock before = false →
        ∃ close closing,
          generation.reason.closeTag = some close ∧
            backend.strToToken close = some closing ∧
            let made :=
              (after ++ [commit]).reverse.map fun item =>
                (item.token, item.origin)
            let wanted :=
              (backend.injection closing).map fun token =>
                (token, Origin.forced)
            made <+: wanted ∨ wanted <+: made

/--
A step that commits a token while the queue is not empty: the block whose
tokens are forced goes on, and no tag is half read.
-/
def Unhindered (generation next : Generation Context Sampler Decoder) :
    Prop :=
  next.history ≠ generation.history → generation.inject ≠ [] →
    forcedInBlock generation.history = true ∧
      generation.reason.holdingPartial = false

/--
The tokens of the queue so far, `queued`, lie next to each other in the
history, and what is left of the queue follows them.
-/
structure Injection
    (backend : Backend Context Sampler Decoder Logit)
    (generation : Generation Context Sampler Decoder)
    (closing : List Token) (after queued before : List Commit) :
    Prop where
  tag :
    ∃ close, generation.reason.closeTag = some close ∧
      backend.strToToken close = some closing
  history : generation.history = after ++ (queued ++ before)
  tokens :
    queued.reverse.map Commit.token ++ generation.inject =
      backend.injection closing
  forced : ∀ commit ∈ queued, commit.origin = .forced
  unforcedAfter : ∀ commit ∈ after, commit.origin ≠ .forced
  unforcedBefore : ∀ commit ∈ before, commit.origin ≠ .forced
  newest : after = [] ∨ generation.inject = []
  stays : ∀ commit ∈ queued.tail, commit.stays = true

/-- The queue is yet to be filled, or its tokens are in the history. -/
structure Injecting
    (backend : Backend Context Sampler Decoder Logit)
    (generation : Generation Context Sampler Decoder) : Prop where
  idle :
    generation.injected = false →
      generation.inject = [] ∧
        ∀ commit ∈ generation.history, commit.origin ≠ .forced
  busy :
    generation.injected = true → ∃ closing after queued before,
      Injection backend generation closing after queued before

section Injecting

variable {backend : Backend Context Sampler Decoder Logit}
variable {generation next : Generation Context Sampler Decoder}
variable {closing : List Token} {after queued before : List Commit}

/-- An item of two joined lists lies in one of them. -/
theorem split_append
    {Item : Type} {front back left right : List Item} {item : Item}
    (equal : front ++ item :: back = left ++ right) :
    (∃ rest, left = front ++ item :: rest ∧ back = rest ++ right) ∨
      ∃ rest, front = left ++ rest ∧ right = rest ++ item :: back := by
  rcases List.append_eq_append_iff.mp equal with
    ⟨rest, outer, inner⟩ | ⟨rest, outer, inner⟩
  · rcases List.cons_eq_append_iff.mp inner with
      ⟨rfl, found⟩ | ⟨tail, rfl, behind⟩
    · exact Or.inr ⟨[], by simp [outer], found⟩
    · exact Or.inl ⟨tail, outer, behind⟩
  · exact Or.inr ⟨rest, outer, inner⟩

/-- A forced token is one of the queue. -/
theorem Injection.mem_queued
    (injection :
      Injection backend generation closing after queued before)
    {front back : List Commit} {commit : Commit}
    (split : generation.history = front ++ commit :: back)
    (forced : commit.origin = .forced) :
    ∃ left right,
      queued = left ++ commit :: right ∧ front = after ++ left ∧
        back = right ++ before := by
  rcases split_append (split.symm.trans injection.history) with
    ⟨rest, inAfter, -⟩ | ⟨left, outer, inner⟩
  · refine (injection.unforcedAfter commit ?_ forced).elim
    simp [inAfter]
  rcases split_append inner.symm with
    ⟨right, inQueued, behind⟩ | ⟨rest, -, inBefore⟩
  · exact ⟨left, right, inQueued, outer, behind⟩
  · refine (injection.unforcedBefore commit ?_ forced).elim
    simp [inBefore]

/-- The first forced token of a block is the first of the queue. -/
theorem Injection.first
    (injection :
      Injection backend generation closing after queued before)
    {left right : List Commit} {commit : Commit}
    (split : queued = left ++ commit :: right)
    (first : forcedInBlock (right ++ before) = false) :
    right = [] := by
  cases right with
  | nil => rfl
  | cons item right =>
      have inTail : item ∈ queued.tail := by
        rw [split]
        cases left <;> simp
      have inQueued : item ∈ queued := List.mem_of_mem_tail inTail
      simp [forcedInBlock, injection.stays item inTail,
        injection.forced item inQueued] at first

/-- The tokens of the queue are not interrupted. -/
theorem Injecting.uninterrupted
    (injecting : Injecting backend generation) :
    Uninterrupted backend generation := by
  intro front commit back split forced first
  cases filled : generation.injected with
  | false =>
      refine ((injecting.idle filled).2 commit ?_ forced).elim
      simp [split]
  | true =>
      obtain ⟨closing, after, queued, before, injection⟩ :=
        injecting.busy filled
      obtain ⟨left, right, inQueued, rfl, rfl⟩ :=
        injection.mem_queued split forced
      obtain rfl := injection.first inQueued first
      obtain ⟨close, known, tokenized⟩ := injection.tag
      refine ⟨close, closing, known, tokenized, ?_⟩
      have queue :
          queued.map (fun item => (item.token, item.origin)) =
            queued.map fun item => (item.token, Origin.forced) := by
        refine List.map_congr_left fun item member => ?_
        rw [injection.forced item member]
      have made :
          (after ++ left ++ [commit]).reverse.map
              (fun item => (item.token, item.origin)) =
            (queued.reverse.map fun item =>
                (item.token, Origin.forced)) ++
              after.reverse.map fun item =>
                (item.token, item.origin) := by
        rw [List.append_assoc, ← inQueued, List.reverse_append,
          List.map_append, List.map_reverse, queue, ← List.map_reverse]
      have wanted :
          ((backend.injection closing).map fun token =>
              (token, Origin.forced)) =
            (queued.reverse.map fun item =>
                (item.token, Origin.forced)) ++
              generation.inject.map fun token =>
                (token, Origin.forced) := by
        rw [← injection.tokens, List.map_append, List.map_map]
        rfl
      rw [made, wanted]
      rcases injection.newest with none | empty
      · left
        simp [none]
      · right
        simp [empty]

theorem Injection.congr
    (injection :
      Injection backend generation closing after queued before)
    (history : next.history = generation.history)
    (inject : next.inject = generation.inject)
    (reason : next.reason = generation.reason) :
    Injection backend next closing after queued before where
  tag := by
    rw [reason]
    exact injection.tag
  history := history.trans injection.history
  tokens := by
    rw [inject]
    exact injection.tokens
  forced := injection.forced
  unforcedAfter := injection.unforcedAfter
  unforcedBefore := injection.unforcedBefore
  newest := by
    rw [inject]
    exact injection.newest
  stays := injection.stays

theorem Injecting.congr
    (injecting : Injecting backend generation)
    (history : next.history = generation.history)
    (inject : next.inject = generation.inject)
    (injected : next.injected = generation.injected)
    (reason : next.reason = generation.reason) :
    Injecting backend next where
  idle unfilled := by
    rw [history, inject]
    exact injecting.idle (injected ▸ unfilled)
  busy filled := by
    obtain ⟨closing, after, queued, before, injection⟩ :=
      injecting.busy (injected ▸ filled)
    exact
      ⟨closing, after, queued, before,
        injection.congr history inject reason⟩

variable [LinearOrder Logit] [OrderBot Logit]
variable {family : ReasonFamily} {limit : Nat} {commit : Commit}

/-- A new queue, with its first token in the history. -/
theorem Injecting.fill
    (injecting : Injecting backend generation)
    (committed : Committed backend family generation commit next)
    (forced : commit.origin = .forced)
    (unfilled : generation.injected = false)
    {close : Text} (known : generation.reason.closeTag = some close)
    (tokenized : backend.strToToken close = some closing)
    (queue : commit.token :: next.inject = backend.injection closing) :
    Injection backend next closing [] [commit] generation.history where
  tag := ⟨close, committed.locked close known, tokenized⟩
  history := committed.history
  tokens := queue
  forced := by simpa using forced
  unforcedAfter := by simp
  unforcedBefore := (injecting.idle unfilled).2
  newest := Or.inl rfl
  stays := by simp

/-- One more token of the queue, in the block that goes on. -/
theorem Injection.force
    (injection :
      Injection backend generation closing after queued before)
    (committed : Committed backend family generation commit next)
    (forced : commit.origin = .forced)
    (queue : commit.token :: next.inject = generation.inject)
    (goes : forcedInBlock generation.history = true) :
    Injection backend next closing [] (commit :: queued) before := by
  have newest : after = [] := by
    refine injection.newest.resolve_right ?_
    rw [← queue]
    exact List.cons_ne_nil _ _
  have history := injection.history
  rw [newest, List.nil_append] at history
  obtain ⟨close, known, tokenized⟩ := injection.tag
  exact
    { tag := ⟨close, committed.locked close known, tokenized⟩
      history := by
        rw [committed.history, history]
        rfl
      tokens := by
        rw [← injection.tokens, ← queue]
        simp
      forced := by
        intro item member
        rcases List.mem_cons.mp member with rfl | member
        · exact forced
        · exact injection.forced item member
      unforcedAfter := by simp
      unforcedBefore := injection.unforcedBefore
      newest := Or.inl rfl
      stays := by
        intro item member
        rw [history] at goes
        cases queued with
        | nil => cases member
        | cons head rest =>
            rcases List.mem_cons.mp member with rfl | member
            · simp only [List.cons_append, forcedInBlock,
                Bool.and_eq_true] at goes
              exact goes.1
            · exact injection.stays item member }

/-- A token behind the last one of the queue. -/
theorem Injection.sample
    (injection :
      Injection backend generation closing after queued before)
    (committed : Committed backend family generation commit next)
    (unforced : commit.origin ≠ .forced)
    (queue : next.inject = generation.inject)
    (empty : generation.inject = []) :
    Injection backend next closing (commit :: after) queued before := by
  obtain ⟨close, known, tokenized⟩ := injection.tag
  exact
    { tag := ⟨close, committed.locked close known, tokenized⟩
      history := by
        rw [committed.history, injection.history]
        rfl
      tokens := by
        rw [queue]
        exact injection.tokens
      forced := injection.forced
      unforcedAfter := by
        intro item member
        rcases List.mem_cons.mp member with rfl | member
        · exact unforced
        · exact injection.unforcedAfter item member
      unforcedBefore := injection.unforcedBefore
      newest := Or.inr (queue.trans empty)
      stays := injection.stays }

/-- A step that is not hindered does not interrupt the queue. -/
theorem Injecting.committed
    (injecting : Injecting backend generation)
    (budgeted : Budgeted family limit generation)
    (committed : Committed backend family generation commit next)
    (unhindered : Unhindered generation next) :
    Injecting backend next := by
  obtain ⟨chosen, choice, inject, injected⟩ := committed.chosen
  have grows : next.history ≠ generation.history := by
    rw [committed.history]
    exact List.cons_ne_self _ _
  rcases chooseToken_queue budgeted.reading.closes choice with
    ⟨forced, -, filled, ⟨already, queue⟩ |
      ⟨unfilled, close, closing, known, tokenized, queue⟩⟩ |
      ⟨sampled, same, flag, unhelpful⟩
  · rw [← inject] at queue
    have goes :=
      unhindered grows (by rw [← queue]; exact List.cons_ne_nil _ _)
    obtain ⟨closing, after, queued, before, injection⟩ :=
      injecting.busy already
    refine ⟨fun unfilled => ?_, fun _ => ?_⟩
    · rw [injected, filled] at unfilled
      cases unfilled
    · exact ⟨_, _, _, _, injection.force committed forced queue goes.1⟩
  · rw [← inject] at queue
    refine ⟨fun unfilled => ?_, fun _ => ?_⟩
    · rw [injected, filled] at unfilled
      cases unfilled
    · exact
        ⟨_, _, _, _,
          injecting.fill committed forced unfilled known tokenized queue⟩
  · have unforced : commit.origin ≠ .forced := by
      rw [sampled]
      decide
    rw [← inject] at same
    rw [← injected] at flag
    refine ⟨fun unfilled => ?_, fun filled => ?_⟩
    · obtain ⟨empty, idle⟩ := injecting.idle (flag ▸ unfilled)
      refine ⟨same.trans empty, ?_⟩
      rw [committed.history]
      intro item member
      rcases List.mem_cons.mp member with rfl | member
      · exact unforced
      · exact idle item member
    · obtain ⟨closing, after, queued, before, injection⟩ :=
        injecting.busy (flag ▸ filled)
      refine
        ⟨_, _, _, _, injection.sample committed unforced same ?_⟩
      by_contra left
      obtain ⟨goes, free⟩ := unhindered grows left
      exact
        left (unhelpful (budgeted.forceKind_of_forced goes free)).2

end Injecting

section Uninterrupted

variable [LinearOrder Logit] [OrderBot Logit]
variable (backend : Backend Context Sampler Decoder Logit)
variable (context : Context) (restored : Option Context)
variable (request : Request) (constrained : Option Sampler)
variable (toolReply : Option (Text → Text × List ToolCall))

/--
Along a run without drafts whose steps are not hindered, the tokens from the
first forced one of a block on are the message and the close tag.
-/
theorem injection_uninterrupted
    {clock : BudgetClock}
    (running :
      (generate backend context restored request constrained
        toolReply).budget = some clock)
    (alone :
      (generate backend context restored request constrained
        toolReply).ngram = none)
    {events : List GenEvent}
    {later : Generation Context Sampler Decoder}
    (run :
      RunWhere backend Unhindered
        (generate backend context restored request constrained toolReply)
        events later) :
    Uninterrupted backend later := by
  have budgeted :=
    budgeted_start backend context restored request constrained toolReply
      running alone
  have start :
      Injecting backend
        (generate backend context restored request constrained
          toolReply) := by
    cases constrained with
    | none =>
        refine ⟨fun _ => ⟨rfl, ?_⟩, fun filled => by cases filled⟩
        exact List.forall_mem_nil _
    | some sampler =>
        refine ⟨fun _ => ⟨rfl, ?_⟩, fun filled => by cases filled⟩
        exact List.forall_mem_nil _
  have keeps :
      Invariant backend Unhindered
        (fun _ other =>
          Budgeted backend.family clock.budget.toNat other ∧
            Injecting backend other)
        (fun _ other => Over other ∧ Uninterrupted backend other) := by
    refine
      budgeted_invariant backend backend.family clock.budget.toNat
        Injecting.congr ?_ Injecting.uninterrupted ?_ ?_
    · intro first other kept history reason front commit back split
      rw [reason]
      exact kept front commit back (history ▸ split)
    · intro first other ended kept front commit back split forced opens
      obtain ⟨close, closing, known, rest⟩ :=
        kept front commit back (ended.history ▸ split) forced opens
      exact ⟨close, closing, ended.locked close known, rest⟩
    · intro first other commit counts kept committed unhindered
      exact kept.committed counts committed unhindered
  rcases keeps.run_start run ⟨budgeted, start⟩ with kept | ends
  · exact kept.2.uninterrupted
  · exact ends.2

end Uninterrupted

instance
    (generation next : Generation Context Sampler Decoder) :
    Decidable (Unhindered generation next) :=
  inferInstanceAs (Decidable (_ → _ → _ ∧ _))

/-- A close tag of two tokens is half read after the first of them. -/
theorem injection_interrupted :
    let backend :=
      scripted "<think>".toList
        [(1, "<think>".toList), (2, "a".toList), (3, "b".toList),
          (10, "Answer now.".toList), (11, "</".toList),
          (12, "think>".toList)]
        [(budgetMessage, [10]), ("</think>".toList, [11, 12])] [1, 2, 3]
    ¬ ∀ events later,
      Run backend
          (generate backend () none (budgetRequest 1 []) none none)
          events later →
        Uninterrupted backend later := by
  intro backend claim
  let opened : List Commit :=
    [⟨2, .sampled, "a".toList, true, false, false⟩,
      ⟨1, .sampled, "<think>".toList, true, false, true⟩]
  let first : Commit :=
    ⟨10, .forced, "Answer now.".toList, true, false, false⟩
  let made : List Commit :=
    [⟨3, .sampled, "b".toList, true, false, false⟩,
      ⟨11, .forced, "</".toList, true, true, false⟩]
  obtain ⟨events, later, run, checked⟩ :=
    exists_run_of_ticks backend
      (generate backend () none (budgetRequest 1 []) none none) 8
      (fun later =>
        decide
          (later.history = made ++ first :: opened ∧
            later.reason.closeTag = some "</think>".toList))
      (by decide +kernel)
  obtain ⟨history, closes⟩ := of_decide_eq_true checked
  obtain ⟨close, closing, known, tokenized, comparable⟩ :=
    claim events later run made first opened history rfl (by decide)
  have codes :
      backend.strToToken "</think>".toList = some [11, 12] := by
    decide
  cases closes.symm.trans known
  cases codes.symm.trans tokenized
  revert comparable
  decide

/-- A close tag of one token follows the message. -/
theorem injection_uninterrupted_once :
    let backend :=
      scripted "<think>".toList
        [(1, "<think>".toList), (2, "a".toList), (3, "b".toList),
          (10, "Answer now.".toList), (11, "</think>".toList)]
        [(budgetMessage, [10]), ("</think>".toList, [11])] [1, 2, 3]
    ∃ events later,
      RunWhere backend Unhindered
          (generate backend () none (budgetRequest 1 []) none none)
          events later ∧
        later.history.map Commit.token = [3, 11, 10, 2, 1] ∧
        Uninterrupted backend later := by
  intro backend
  have running :
      (generate backend () none (budgetRequest 1 []) none none).budget =
        some (.new 1 0) := by
    decide +kernel
  obtain ⟨events, later, run, checked⟩ :=
    exists_runWhere_of_ticks backend
      (fun before after => decide (Unhindered before after))
      (generate backend () none (budgetRequest 1 []) none none) 11
      (fun later =>
        decide (later.history.map Commit.token = [3, 11, 10, 2, 1]))
      (by decide +kernel)
  simp only [decide_eq_true_eq] at run
  exact
    ⟨events, later, run, of_decide_eq_true checked,
      injection_uninterrupted backend () none (budgetRequest 1 []) none
        none running rfl run⟩

end Runa.Engine.Generate
