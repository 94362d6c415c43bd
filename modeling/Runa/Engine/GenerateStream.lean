import Runa.Core.ReasonLaws
import Runa.Engine.GenerateRun

/-!
# The event stream of a generation

A generation without a tool parser that shows its reasoning yields answer and
reasoning events, then its usage, then why it stopped, and nothing more.  The
events account for the text of every committed token, up to the stop string
if one ended the text.  This holds of every run in which the stop filter can
scan the texts it is given and no call of the backend fails
(`stream_complete`); without the former the program stops inside `split_emit`
(`stream_panics`).
-/

namespace Runa.Engine.Generate

open Runa.Stream
open Runa.Stream.Occurrence
open Runa.Stream.Utf8
open Runa.Core.Reason
open Runa.Core.Think
open Runa.Engine.Ngram
open Runa.Engine.Sampling
open Runa.Engine.StopFilter

variable {Context Sampler Decoder Logit : Type}

/-! ## The text of the committed tokens -/

/-- The text of the committed tokens, the newest one last. -/
def historyText (history : List Commit) : Text :=
  history.reverse.flatMap Commit.piece

@[simp]
theorem historyText_nil : historyText [] = [] := rfl

@[simp]
theorem historyText_cons (commit : Commit) (history : List Commit) :
    historyText (commit :: history) =
      historyText history ++ commit.piece := by
  simp [historyText]

/--
How the emitted text is cut out of the whole text: at the first stop string
if one ended the generation, and nowhere otherwise.
-/
def Cut
    (stops : List Text) (reason : StopReason) (whole emitted : Text) :
    Prop :=
  match reason with
  | .stopString matched =>
      matched ∈ live stops ∧ emitted <+: whole ∧
        find matched whole = some emitted.length ∧
        ∀ stop ∈ live stops, ∀ offset,
          find stop whole = some offset → emitted.length ≤ offset
  | _ => emitted = whole

/-- Between two tokens the pending text is the end that may become a stop. -/
structure Withheld
    (stops : List Text) (emitted pending whole : Text) : Prop where
  joined : emitted ++ pending = whole
  absent : ∀ stop ∈ live stops, find stop whole = none
  held : HeldTail (live stops) whole pending

section Filter

variable {stops : List Text} {emitted pending whole : Text}

/-- Searching the whole text is searching the pending text. -/
theorem Withheld.find_shift
    (withheld : Withheld stops emitted pending whole)
    {stop : Text} (member : stop ∈ live stops) (piece : Text) :
    find stop (whole ++ piece) =
      (find stop (pending ++ piece)).map (· + emitted.length) := by
  obtain ⟨rfl, absent, held⟩ := withheld
  rw [List.append_assoc]
  exact find_append_hold held member (absent stop member) piece

/-- The filter keeps withholding as the text goes on. -/
theorem Withheld.emit
    (withheld : Withheld stops emitted pending whole)
    {piece emit keep : Text}
    (split : splitEmit (pending ++ piece) stops = some (.emit emit keep)) :
    Withheld stops (emitted ++ emit) keep (whole ++ piece) := by
  obtain ⟨absent, parts, held⟩ := splitEmit_eq_emit split
  refine ⟨?_, ?_, withheld.held.append held⟩
  · rw [List.append_assoc, parts, ← List.append_assoc, withheld.joined]
  · intro stop member
    rw [withheld.find_shift member, absent stop member]
    rfl

/-- The filter stops at the first stop string of the whole text. -/
theorem Withheld.stop
    (withheld : Withheld stops emitted pending whole)
    {piece before matched : Text}
    (split :
      splitEmit (pending ++ piece) stops = some (.stop before matched)) :
    Cut stops (.stopString matched) (whole ++ piece)
      (emitted ++ before) := by
  obtain ⟨offset, rfl, member, found, least⟩ := splitEmit_eq_stop split
  have bound := ((find_eq_some_iff _ _ _).mp found).1
  have length :
      (emitted ++ (pending ++ piece).take offset).length =
        offset + emitted.length := by
    rw [List.length_append, List.length_take]
    omega
  refine ⟨member, ?_, ?_, ?_⟩
  · refine ⟨(pending ++ piece).drop offset, ?_⟩
    rw [List.append_assoc, List.take_append_drop, ← List.append_assoc,
      withheld.joined]
  · rw [length, withheld.find_shift member, found]
    rfl
  · intro stop stopMember other otherFound
    rw [withheld.find_shift stopMember,
      Option.map_eq_some_iff] at otherFound
    obtain ⟨inner, innerFound, rfl⟩ := otherFound
    have := least stop stopMember inner innerFound
    rw [length]
    omega

theorem withheld_start (stops : List Text) :
    Withheld stops [] [] [] := by
  refine ⟨rfl, ?_, List.suffix_rfl, Or.inl rfl, ?_⟩
  · intro stop member
    have nonempty : stop ≠ [] := by
      simpa using (List.mem_filter.mp member).2
    simp [find, nonempty]
  · intro tail isPartial suffix
    exact (isPartial.1 (List.suffix_nil.mp suffix)).elim

end Filter

/-! ## The invariant of the stream -/

/-- The events of pieces where nothing is hidden. -/
def shownEvents (pieces : List ReasonPiece) : List GenEvent :=
  pieces.flatMap (eventsOf true true)

@[simp]
theorem shownEvents_append (left right : List ReasonPiece) :
    shownEvents (left ++ right) = shownEvents left ++ shownEvents right :=
  List.flatMap_append

/-- While the generation goes on, nothing is lost between its queues. -/
structure Flowing
    (family : ReasonFamily) (stops : List Text) (limit : Nat)
    (past : List GenEvent)
    (generation : Generation Context Sampler Decoder) : Prop where
  streamed :
    ∃ log state,
      Parsed family generation log state ∧
        past ++ generation.ready =
          shownEvents (pieces log)
  alive : generation.sampler.isSome
  unqueued : generation.terminal = []
  stop : generation.stop = stops
  maxTokens : generation.maxTokens = limit
  plain : generation.toolReply = none
  shown : generation.showReasoning = true
  counted : generation.generated = generation.history.length
  bounded : generation.generated ≤ limit
  withheld :
    Withheld stops generation.fed.flatten generation.pending
      (historyText generation.history)

/-- Once the last event is queued, the queue is all that is missing. -/
structure Settling
    (family : ReasonFamily) (stops : List Text) (limit : Nat)
    (past : List GenEvent)
    (generation : Generation Context Sampler Decoder) : Prop where
  dropped : generation.sampler = none
  drained : generation.ready = []
  streamed :
    ∃ log state reason usage,
      (splitter family).FeedsAll (.unlocked, []) generation.fed log
          state ∧
        past ++ generation.terminal =
          shownEvents
              (pieces (log ++ Splitter.pieceOf state.1 state.2)) ++
            [.usage usage, .done reason] ∧
        usage.generatedTokens = generation.history.length ∧
        Cut stops reason (historyText generation.history)
          generation.fed.flatten
  bounded : generation.history.length ≤ limit

section Stream

variable {family : ReasonFamily} {stops : List Text} {limit : Nat}
variable {past : List GenEvent}
variable {generation : Generation Context Sampler Decoder}

theorem Flowing.eventsOf_eq
    (flowing : Flowing family stops limit past generation)
    (pieces : List ReasonPiece) :
    generation.eventsOf pieces = shownEvents pieces := by
  rw [Generation.eventsOf, flowing.plain, flowing.shown]
  rfl

/-- Ending at EOS or at the limit passes everything on. -/
theorem Flowing.closeOn
    (flowing : Flowing family stops limit past generation)
    {log more : List (Splitter.Entry Char Mode)} {next : Mode × Text}
    {reason : StopReason}
    (whole : ∀ matched, reason ≠ .stopString matched)
    (ready :
      past ++ generation.ready = shownEvents (pieces log))
    (feeds :
      (splitter family).FeedsAll (.unlocked, [])
        (generation.fed ++ chunkOf generation.pending)
        (log ++ more) next) :
    Settling family stops limit past
      (generation.closeOn family more next reason) := by
  refine
    { dropped := rfl
      drained := rfl
      streamed :=
        ⟨log ++ more, next, reason, generation.usage, feeds, ?_,
          flowing.counted, ?_⟩
      bounded := flowing.counted ▸ flowing.bounded }
  · have tools :
        generation.toolEvents (generation.raw ++ generation.pending) =
          [] := by
      rw [Generation.toolEvents, flowing.plain]
    simp only [Generation.closeOn, flowing.eventsOf_eq, flowing.unqueued,
      tools, List.append_nil]
    rw [← List.append_assoc, ← List.append_assoc, ready,
      ← shownEvents_append, ← pieces_append, List.append_assoc log]
  · have joined := flowing.withheld.joined
    have emitted :
        (generation.fed ++ chunkOf generation.pending).flatten =
          historyText generation.history := by
      rw [List.flatten_append, chunkOf_flatten, joined]
    cases reason with
    | eos => exact emitted
    | maxTokens => exact emitted
    | stopString matched => exact (whole matched rfl).elim

/-- Committing a token and going on keeps the stream. -/
theorem Flowing.advance
    (backend : Backend Context Sampler Decoder Logit)
    (flowing : Flowing family stops limit past generation)
    {log more : List (Splitter.Entry Char Mode)} {next : Mode × Text}
    {first token : Token} {origin : Origin} {decoder : Decoder}
    {piece emit keep : Text}
    (ready :
      past ++ generation.ready = shownEvents (pieces log))
    (room : generation.generated < generation.maxTokens)
    (split :
      splitEmit (generation.pending ++ piece) generation.stop =
        some (.emit emit keep))
    (parsed :
      Parsed family
        (generation.advance backend family first token origin piece
          decoder emit keep more next) (log ++ more) next) :
    Flowing family stops limit past
      (generation.advance backend family first token origin piece decoder
        emit keep more next) := by
  have alive :
      (generation.countToken backend first token decoder).sampler.isSome :=
    (countToken_alive backend generation first token decoder).trans
      flowing.alive
  have withheld := flowing.withheld.emit (flowing.stop ▸ split)
  have events := flowing.eventsOf_eq (pieces more)
  have bounded := flowing.maxTokens ▸ room
  have counted := flowing.counted
  obtain ⟨decoder', tokens, counter, count, raw, equal⟩ :=
    (advance_advanced backend generation family first token origin piece
      decoder emit keep more next).eq
  rw [equal] at parsed ⊢
  exact
    { streamed := by
        refine ⟨log ++ more, next, parsed, ?_⟩
        change past ++ (generation.ready ++ _) = _
        rw [events, ← List.append_assoc, ready, pieces_append,
          shownEvents_append]
      alive := alive
      unqueued := flowing.unqueued
      stop := flowing.stop
      maxTokens := flowing.maxTokens
      plain := flowing.plain
      shown := flowing.shown
      counted := by
        change generation.generated + 1 = generation.history.length + 1
        rw [counted]
      bounded := bounded
      withheld := by
        change
          Withheld stops (generation.fed ++ chunkOf emit).flatten keep
            (historyText (_ :: generation.history))
        rw [List.flatten_append, chunkOf_flatten, historyText_cons]
        exact withheld }

/-- A stop string ends the stream in front of it. -/
theorem Flowing.stopOn
    (backend : Backend Context Sampler Decoder Logit)
    (flowing : Flowing family stops limit past generation)
    {log more : List (Splitter.Entry Char Mode)} {next : Mode × Text}
    {first token : Token} {origin : Origin} {decoder : Decoder}
    {piece before matched : Text}
    (ready :
      past ++ generation.ready = shownEvents (pieces log))
    (room : generation.generated < generation.maxTokens)
    (split :
      splitEmit (generation.pending ++ piece) generation.stop =
        some (.stop before matched))
    (feeds :
      (splitter family).FeedsAll (.unlocked, [])
        (generation.fed ++ chunkOf before) (log ++ more) next) :
    Settling family stops limit past
      (generation.stopOn backend family first token origin piece decoder
        before matched more next) := by
  have cut := flowing.withheld.stop (flowing.stop ▸ split)
  have bounded := flowing.maxTokens ▸ room
  have counted := flowing.counted
  refine
    { dropped := rfl
      drained := rfl
      streamed :=
        ⟨log ++ more, next, .stopString matched,
          (generation.countToken backend first token decoder).usage,
          feeds, ?_, ?_, ?_⟩
      bounded := ?_ }
  · have tools (reply : Text) : generation.toolEvents reply = [] := by
      rw [Generation.toolEvents, flowing.plain]
    change
      past ++
          (generation.ready ++
            generation.eventsOf
              (pieces (more ++ Splitter.pieceOf next.1 next.2)) ++
            generation.toolEvents (generation.raw ++ before) ++
            generation.terminal ++ _) = _
    rw [flowing.eventsOf_eq, flowing.unqueued, tools, List.append_nil,
      List.append_nil, ← List.append_assoc, ← List.append_assoc, ready,
      ← shownEvents_append, ← pieces_append, List.append_assoc log]
    rfl
  · change generation.generated + 1 = generation.history.length + 1
    rw [counted]
  · change
      Cut stops _ (historyText (_ :: generation.history))
        (generation.fed ++ chunkOf before).flatten
    rw [List.flatten_append, chunkOf_flatten, historyText_cons]
    exact cut
  · change generation.history.length + 1 ≤ limit
    omega

variable [LinearOrder Logit] [OrderBot Logit]

/-- Nothing is lost on any way through a generation. -/
theorem flowing_invariant
    (backend : Backend Context Sampler Decoder Logit)
    (family : ReasonFamily) (stops : List Text) (limit : Nat) :
    Invariant backend (fun _ _ => True) (Flowing family stops limit)
      (Settling family stops limit) where
  alive flowing := ⟨flowing.alive, flowing.unqueued⟩
  gone settling := ⟨settling.dropped, settling.drained⟩
  ready := by
    intro past rest event generation flowing ready
    obtain ⟨⟨log, state, ⟨feeds, reason⟩, events⟩, alive, unqueued, stop,
      maxTokens, plain, shown, counted, bounded, withheld⟩ := flowing
    rw [ready] at events
    exact
      ⟨⟨log, state, ⟨feeds, reason⟩, by simpa using events⟩, alive,
        unqueued, stop, maxTokens, plain, shown, counted, bounded,
        withheld⟩
  terminal := by
    intro past rest event generation settling terminal
    obtain ⟨dropped, drained,
      ⟨log, state, reason, usage, feeds, events, total, cut⟩,
      bounded⟩ := settling
    rw [terminal] at events
    exact
      ⟨dropped, drained,
        ⟨log, state, reason, usage, feeds, by simpa using events, total,
          cut⟩,
        bounded⟩
  prefill := by
    intro past generation next flowing _ step
    obtain ⟨context, position, index, rfl⟩ :=
      prefillStep_frame backend step
    obtain ⟨⟨log, state, ⟨feeds, reason⟩, events⟩, alive, unqueued, stop,
      maxTokens, plain, shown, counted, bounded, withheld⟩ := flowing
    exact
      ⟨⟨log, state, ⟨feeds, reason⟩, events⟩, alive, unqueued, stop,
        maxTokens, plain, shown, counted, bounded, withheld⟩
  decode := by
    intro past generation next flowing step _
    refine decodeStep_rule family ?_ ?_ ?_ ?_ flowing step
    · intro generation flowing
      obtain ⟨log, state, parsed, -⟩ := flowing.streamed
      exact ⟨log, state, parsed⟩
    · intro generation chosen token origin flowing choice
      obtain ⟨_, _, sampler, _, _, _, rfl, kept⟩ :=
        chooseToken_frame backend choice
      obtain ⟨⟨log, state, ⟨feeds, reason⟩, events⟩, alive, unqueued,
        stop, maxTokens, plain, shown, counted, bounded,
        withheld⟩ := flowing
      exact
        ⟨⟨log, state, ⟨feeds, reason⟩, events⟩, kept alive, unqueued,
          stop, maxTokens, plain, shown, counted, bounded, withheld⟩
    · intro generation after token verified flowing drafted
      obtain ⟨_, _, _, rfl⟩ := decodeDrafts_frame backend drafted
      obtain ⟨⟨log, state, ⟨feeds, reason⟩, events⟩, alive, unqueued,
        stop, maxTokens, plain, shown, counted, bounded,
        withheld⟩ := flowing
      exact
        ⟨⟨log, state, ⟨feeds, reason⟩, events⟩, alive, unqueued, stop,
          maxTokens, plain, shown, counted, bounded, withheld⟩
    · intro generation log state progress first token origin flowing
        parsed outcome
      obtain ⟨log', state', parsed', ready⟩ := flowing.streamed
      obtain ⟨rfl, -⟩ := parsed.feeds.unique parsed'.feeds
      cases outcome with
      | closed guard feeds =>
          refine flowing.closeOn ?_ ready feeds
          rintro matched rfl
          rcases guard with ⟨impossible, -⟩ | ⟨impossible, -⟩
          · cases impossible
          · cases impossible
      | advanced _ room _ split parsed =>
          exact flowing.advance backend ready room split parsed
      | stopped _ room _ split feeds =>
          exact flowing.stopOn backend ready room split feeds

end Stream

/-! ## The texts the stop filter is given -/

section Scanned

variable (backend : Backend Context Sampler Decoder Logit)

/-- The texts given to `split_emit` by the loop over accepted tokens. -/
def scannedLoop (first : Token) :
    List (Token × Origin) → Generation Context Sampler Decoder →
      List Text
  | [], _ => []
  | (token, origin) :: rest, generation =>
      if token = backend.tokenEos ∧ generation.ignoreEos = false ∨
          generation.maxTokens ≤ generation.generated then
        []
      else
        match backend.tokenToPiece generation.decoder token with
        | none => []
        | some (piece, _) =>
            (generation.pending ++ piece) ::
              match generation.commitOne backend first token origin with
              | .ok (.more next) => scannedLoop first rest next
              | _ => []

variable [LinearOrder Logit] [OrderBot Logit]

/-- The texts given to `split_emit` by a decode step. -/
def Generation.scanned
    (generation : Generation Context Sampler Decoder) : List Text :=
  if generation.maxTokens ≤ generation.generated then
    []
  else
    match generation.chooseToken backend with
    | .error _ => []
    | .ok (token, origin, chosen) =>
        if token = backend.tokenEos ∧ generation.ignoreEos = false then
          []
        else
          match chosen.decodeDrafts backend token with
          | .error _ => []
          | .ok (verified, decoded) =>
              scannedLoop backend token
                ((token, origin) ::
                  verified.map fun draft => (draft, .drafted))
                decoded

variable {backend} {family : ReasonFamily}

omit [LinearOrder Logit] [OrderBot Logit] in
/-- The loop panics only on a text the filter cannot scan. -/
theorem commitLoop_panic
    {first : Token} {items : List (Token × Origin)}
    {generation : Generation Context Sampler Decoder}
    {log : List (Splitter.Entry Char Mode)} {state : Mode × Text}
    (parsed : Parsed family generation log state)
    (panics :
      Generation.commitLoop backend first items generation =
        .error .panic) :
    ∃ text ∈ scannedLoop backend first items generation,
      ¬ Scannable generation.stop text := by
  induction items generalizing generation log state with
  | nil => cases panics
  | cons item items induction =>
      obtain ⟨token, origin⟩ := item
      rw [Generation.commitLoop] at panics
      rcases parsed.commitOne backend first token origin with
        ⟨progress, committed, outcome⟩ |
          ⟨failure, failed, going, room, fails⟩
      · rw [committed] at panics
        cases outcome with
        | closed => cases panics
        | stopped => cases panics
        | advanced going room decoded _ after =>
            obtain ⟨text, member, stuck⟩ := induction after panics
            refine ⟨text, ?_, ?_⟩
            · rw [scannedLoop, if_neg (by simp [going, room]), decoded]
              simp only [committed]
              exact List.mem_cons_of_mem _ member
            · obtain ⟨_, _, _, _, _, equal⟩ :=
                (advance_advanced backend _ _ _ _ _ _ _ _ _ _ _).eq
              rw [equal] at stuck
              exact stuck
      · rw [failed] at panics
        cases panics
        cases fails with
        | @slice piece _ decoded stuck =>
            refine ⟨generation.pending ++ piece, ?_, ?_⟩
            · rw [scannedLoop, if_neg (by simp [going, room]), decoded]
              exact List.mem_cons_self
            · rw [← splitEmit_ne_none_iff, not_not]
              exact stuck

omit [LinearOrder Logit] [OrderBot Logit] in
/-- The loop panics on every text the filter cannot scan. -/
theorem commitLoop_stuck
    {first : Token} {items : List (Token × Origin)}
    {generation : Generation Context Sampler Decoder}
    {log : List (Splitter.Entry Char Mode)} {state : Mode × Text}
    (parsed : Parsed family generation log state)
    {text : Text}
    (member : text ∈ scannedLoop backend first items generation)
    (stuck : ¬ Scannable generation.stop text) :
    Generation.commitLoop backend first items generation =
      .error .panic := by
  induction items generalizing generation log state with
  | nil => cases member
  | cons item items induction =>
      obtain ⟨token, origin⟩ := item
      rw [scannedLoop] at member
      rw [Generation.commitLoop]
      rcases parsed.commitOne backend first token origin with
        ⟨progress, committed, outcome⟩ |
          ⟨failure, failed, going, room, fails⟩
      · simp only [committed] at member
        rw [committed]
        cases outcome with
        | closed guard =>
            rw [if_pos (guard.imp And.right And.right)] at member
            cases member
        | stopped going room decoded split =>
            rw [if_neg (by simp [going, room]), decoded] at member
            cases List.mem_singleton.mp member
            rw [← splitEmit_ne_none_iff, not_not, split] at stuck
            cases stuck
        | advanced going room decoded split after =>
            rw [if_neg (by simp [going, room]), decoded] at member
            rcases List.mem_cons.mp member with rfl | later
            · rw [← splitEmit_ne_none_iff, not_not, split] at stuck
              cases stuck
            · refine induction after later ?_
              obtain ⟨_, _, _, _, _, equal⟩ :=
                (advance_advanced backend _ _ _ _ _ _ _ _ _ _ _).eq
              rw [equal]
              exact stuck
      · simp only [failed] at member
        rw [failed]
        cases fails with
        | slice => rfl
        | piece undecoded =>
            rw [undecoded, ite_self] at member
            cases member

omit [LinearOrder Logit] [OrderBot Logit] in
theorem fillInject_not_panic
    (generation : Generation Context Sampler Decoder) :
    generation.fillInject backend ≠ .error .panic := by
  intro panics
  simp only [Generation.fillInject] at panics
  split_ifs at panics
  split at panics
  · cases panics
  · split at panics
    · cases panics
    · split_ifs at panics
      cases panics

omit [OrderBot Logit] in
/-- With a sampler, sampling always gives a token. -/
theorem sampleNext_ok
    (backend : Backend Context Sampler Decoder Logit)
    (generation : Generation Context Sampler Decoder)
    (alive : generation.sampler.isSome) (kind : ForceKind) :
    ∃ token next,
      generation.sampleNext backend kind = .ok (token, next) := by
  obtain ⟨sampler, alive⟩ := Option.isSome_iff_exists.mp alive
  simp only [Generation.sampleNext, alive]
  split_ifs
  · exact ⟨_, _, rfl⟩
  · exact ⟨_, _, rfl⟩

omit [OrderBot Logit] in
theorem chooseToken_not_panic
    {generation : Generation Context Sampler Decoder}
    (alive : generation.sampler.isSome) :
    generation.chooseToken backend ≠ .error .panic := by
  intro panics
  rw [Generation.chooseToken] at panics
  by_cases force : generation.forceKind = .force
  · simp only [force, if_true] at panics
    cases fill : generation.fillInject backend with
    | error failure =>
        rw [fill] at panics
        cases panics
        exact fillInject_not_panic generation fill
    | ok filled =>
        rw [fill] at panics
        obtain ⟨tokens, queue, flag, rfl⟩ := fillInject_frame backend fill
        cases queue with
        | cons token rest => cases panics
        | nil =>
            obtain ⟨token, next, sampled⟩ :=
              sampleNext_ok backend
                { generation with
                  closeTokens := tokens, inject := [], injected := flag }
                alive .force
            simp only [Bind.bind, Except.bind, sampled] at panics
            cases panics
  · obtain ⟨token, next, sampled⟩ :=
      sampleNext_ok backend generation alive generation.forceKind
    simp only [force, if_false, Bind.bind, Except.bind, sampled] at panics
    cases panics

/-- A decode step panics only on a text the filter cannot scan. -/
theorem decodeStep_panic
    {generation : Generation Context Sampler Decoder}
    {log : List (Splitter.Entry Char Mode)} {state : Mode × Text}
    (parsed : Parsed family generation log state)
    (alive : generation.sampler.isSome)
    (panics : generation.decodeStep backend = .error .panic) :
    ∃ text ∈ generation.scanned backend,
      ¬ Scannable generation.stop text := by
  have view := decodeStep_stepping backend generation
  generalize generation.decodeStep backend = result at view panics
  cases view with
  | full =>
      obtain ⟨more, next, queued, -⟩ := parsed.queueTerminal .maxTokens
      rw [queued] at panics
      cases panics
  | unchosen _ choice =>
      cases panics
      exact (chooseToken_not_panic alive choice).elim
  | eos _ choice =>
      obtain ⟨more, next, queued, -⟩ :=
        (parsed.choose choice).queueTerminal .eos
      rw [queued] at panics
      cases panics
  | undecoded _ _ _ drafted =>
      cases panics
      simp only [Generation.decodeDrafts] at drafted
      split at drafted
      · cases drafted
      · cases drafted
  | @commits token origin chosen decoded verified room choice going
      drafted =>
      have sameStop : decoded.stop = generation.stop := by
        obtain ⟨_, _, _, _, _, _, rfl, -⟩ :=
          decoded_frame backend choice drafted
        rfl
      obtain ⟨text, member, stuck⟩ :=
        commitLoop_panic ((parsed.choose choice).decode drafted) panics
      refine ⟨text, ?_, sameStop ▸ stuck⟩
      rw [Generation.scanned, if_neg (by omega), choice]
      simp only [if_neg going, drafted]
      exact member

/-- A decode step panics on every text the filter cannot scan. -/
theorem decodeStep_stuck
    {generation : Generation Context Sampler Decoder}
    {log : List (Splitter.Entry Char Mode)} {state : Mode × Text}
    (parsed : Parsed family generation log state)
    {text : Text} (member : text ∈ generation.scanned backend)
    (stuck : ¬ Scannable generation.stop text) :
    generation.decodeStep backend = .error .panic := by
  rw [Generation.scanned] at member
  have view := decodeStep_stepping backend generation
  generalize generation.decodeStep backend = result at view ⊢
  cases view with
  | full full =>
      rw [if_pos full] at member
      cases member
  | unchosen room choice =>
      rw [if_neg (by omega), choice] at member
      cases member
  | eos room choice eos =>
      rw [if_neg (by omega), choice] at member
      simp only [if_pos eos] at member
      cases member
  | undecoded room choice going drafted =>
      rw [if_neg (by omega), choice] at member
      simp only [if_neg going, drafted] at member
      cases member
  | @commits token origin chosen decoded verified room choice going
      drafted =>
      rw [if_neg (by omega), choice] at member
      simp only [if_neg going, drafted] at member
      refine commitLoop_stuck ((parsed.choose choice).decode drafted)
        member ?_
      obtain ⟨_, _, _, _, _, _, rfl, -⟩ :=
        decoded_frame backend choice drafted
      exact stuck

end Scanned

/-! ## Every generation ends -/

section Ends

variable {family : ReasonFamily}

/-- Steps a generation can still take. -/
def Generation.remaining
    (backend : Backend Context Sampler Decoder Logit)
    (generation : Generation Context Sampler Decoder) : Nat :=
  generation.promptTokens.length -
      generation.prefillChunk * backend.batchSize +
    (generation.maxTokens - generation.generated) +
    if generation.sampler.isSome then 1 else 0

/-- What no step takes back. -/
structure Onward
    (before after : Generation Context Sampler Decoder) : Prop where
  prompt : after.promptTokens = before.promptTokens
  chunk : after.prefillChunk = before.prefillChunk
  limit : after.maxTokens = before.maxTokens
  generated : before.generated ≤ after.generated

/-- The generation has gone on from `start` and committed a token. -/
structure Beyond
    (family : ReasonFamily)
    (start later : Generation Context Sampler Decoder) : Prop where
  parsed : ∃ log state, Parsed family later log state
  onward : Onward start later
  committed : start.generated < later.generated

theorem Onward.advance
    (backend : Backend Context Sampler Decoder Logit)
    {start generation : Generation Context Sampler Decoder}
    (onward : Onward start generation)
    {first token : Token} {origin : Origin} {piece : Text}
    {decoder : Decoder} {emit keep : Text}
    {log more : List (Splitter.Entry Char Mode)} {next : Mode × Text}
    (parsed :
      Parsed family
        (generation.advance backend family first token origin piece
          decoder emit keep more next) log next) :
    Beyond family start
      (generation.advance backend family first token origin piece decoder
        emit keep more next) := by
  obtain ⟨_, _, _, _, _, equal⟩ :=
    (advance_advanced backend generation family first token origin piece
      decoder emit keep more next).eq
  rw [equal] at parsed ⊢
  exact
    ⟨⟨log, next, parsed⟩,
      ⟨onward.prompt, onward.chunk, onward.limit,
        Nat.le_succ_of_le onward.generated⟩,
      Nat.lt_succ_of_le onward.generated⟩

/-- Going on from a state that has gone on. -/
theorem Beyond.commit
    (backend : Backend Context Sampler Decoder Logit)
    {start generation : Generation Context Sampler Decoder}
    {log : List (Splitter.Entry Char Mode)} {state : Mode × Text}
    {progress : Progress (Generation Context Sampler Decoder)}
    (first token : Token) (origin : Origin)
    (beyond : Beyond family start generation)
    (_ : Parsed family generation log state)
    (outcome :
      Outcome backend family generation log first token origin
        progress) :
    progress.Holds (Beyond family start)
      (fun later => later.sampler = none) := by
  cases outcome with
  | closed => rfl
  | stopped => rfl
  | advanced _ _ _ _ after => exact beyond.onward.advance backend after

/-- The loop over accepted tokens commits one or ends the generation. -/
theorem commitLoop_progress
    (backend : Backend Context Sampler Decoder Logit)
    {first token : Token} {origin : Origin}
    {items : List (Token × Origin)}
    {start generation next : Generation Context Sampler Decoder}
    {log : List (Splitter.Entry Char Mode)} {state : Mode × Text}
    (onward : Onward start generation)
    (parsed : Parsed family generation log state)
    (loop :
      Generation.commitLoop backend first ((token, origin) :: items)
        generation = .ok next) :
    Beyond family start next ∨ next.sampler = none := by
  rw [Generation.commitLoop] at loop
  rcases parsed.commitOne backend first token origin with
    ⟨progress, committed, outcome⟩ | ⟨failure, failed, -⟩
  · rw [committed] at loop
    cases outcome with
    | closed =>
        cases loop
        exact Or.inr rfl
    | stopped =>
        cases loop
        exact Or.inr rfl
    | advanced _ _ _ _ after =>
        exact commitLoop_rule family Beyond.parsed (Beyond.commit backend)
          (onward.advance backend after) loop
  · rw [failed] at loop
    cases loop

variable [LinearOrder Logit] [OrderBot Logit]

/-- A decode step commits a token or ends the generation. -/
theorem decodeStep_progress
    (backend : Backend Context Sampler Decoder Logit)
    {generation next : Generation Context Sampler Decoder}
    {log : List (Splitter.Entry Char Mode)} {state : Mode × Text}
    (parsed : Parsed family generation log state)
    (step : generation.decodeStep backend = .ok next) :
    Beyond family generation next ∨ next.sampler = none := by
  have view := decodeStep_stepping backend generation
  generalize generation.decodeStep backend = result at view step
  cases view with
  | full =>
      obtain ⟨more, after, queued, -⟩ := parsed.queueTerminal .maxTokens
      rw [queued] at step
      cases step
      exact Or.inr rfl
  | unchosen => cases step
  | eos _ choice =>
      obtain ⟨more, after, queued, -⟩ :=
        (parsed.choose choice).queueTerminal .eos
      rw [queued] at step
      cases step
      exact Or.inr rfl
  | undecoded => cases step
  | @commits _ _ _ decoded _ _ choice _ drafted =>
      have onward : Onward generation decoded := by
        obtain ⟨_, _, _, _, _, _, rfl, -⟩ :=
          decoded_frame backend choice drafted
        exact ⟨rfl, rfl, rfl, le_rfl⟩
      exact commitLoop_progress backend onward
        ((parsed.choose choice).decode drafted) step

omit [LinearOrder Logit] [OrderBot Logit] in
/-- A prefill step brings the end nearer. -/
theorem prefillStep_remaining
    (backend : Backend Context Sampler Decoder Logit)
    {generation next : Generation Context Sampler Decoder}
    (notDone : generation.prefillDone backend = false)
    (step : generation.prefillStep backend = .ok next) :
    next.remaining backend < generation.remaining backend := by
  obtain ⟨_, _, _, rfl⟩ := prefillStep_frame backend step
  have size : 0 < backend.batchSize := by
    rw [Backend.batchSize]
    omega
  simp only [Generation.prefillDone, Bool.or_eq_false_iff,
    decide_eq_false_iff_not] at notDone
  have more := notDone.2
  simp only [Generation.remaining, Nat.succ_mul]
  omega

omit [LinearOrder Logit] [OrderBot Logit] in
/-- A committed token brings the end nearer. -/
theorem Beyond.remaining
    (backend : Backend Context Sampler Decoder Logit)
    {start later : Generation Context Sampler Decoder}
    (beyond : Beyond family start later)
    (alive : start.sampler.isSome)
    (bounded : later.generated ≤ later.maxTokens) :
    later.remaining backend < start.remaining backend := by
  obtain ⟨-, ⟨prompt, chunk, limit, -⟩, committed⟩ := beyond
  simp only [Generation.remaining, prompt, chunk, limit, alive, if_true]
  rw [limit] at bounded
  split_ifs <;> omega

/-- A generation none of whose steps fails runs to its end. -/
theorem Flowing.finishes
    (backend : Backend Context Sampler Decoder Logit)
    {stops : List Text} {limit : Nat} {past : List GenEvent}
    {generation : Generation Context Sampler Decoder}
    (flowing : Flowing family stops limit past generation)
    (calm :
      ∀ events later failure, Run backend generation events later →
        later.tick backend ≠ .failed failure) :
    ∃ events final,
      Run backend generation events final ∧
        final.tick backend = .finished ∧
        Settling family stops limit (past ++ events) final := by
  have invariant := flowing_invariant backend family stops limit
  induction measured : generation.remaining backend using
    Nat.strong_induction_on generalizing past generation with
  | _ size induction =>
      let drained := { generation with ready := [] }
      have drain : Run backend generation generation.ready drained :=
        run_ready generation
      have drainedFlowing :
          Flowing family stops limit (past ++ generation.ready) drained := by
        rcases invariant.run drain.always flowing with keeps | ends
        · exact keeps
        · have alive := flowing.alive
          have dropped : generation.sampler = none := ends.dropped
          rw [dropped] at alive
          cases alive
      have continues :
          ∀ next, drained.tick backend = .again next →
            Flowing family stops limit (past ++ generation.ready) next →
              next.remaining backend < size →
                ∃ events final,
                  Run backend generation events final ∧
                    final.tick backend = .finished ∧
                    Settling family stops limit (past ++ events)
                      final := by
        intro next ticked nextFlowing nearer
        obtain ⟨events, final, run, finished, settling⟩ :=
          induction _ nearer nextFlowing
            (fun events later failure run =>
              calm _ later failure (drain.append (.again ticked run))) rfl
        exact
          ⟨generation.ready ++ events, final,
            drain.append (.again ticked run), finished,
            by simpa using settling⟩
      cases ticked : drained.tick backend with
      | yield event next =>
          rcases tick_yield ticked with
            ⟨rest, ready, -⟩ | ⟨rest, -, terminal, -⟩
          · cases ready
          · rw [drainedFlowing.unqueued] at terminal
            cases terminal
      | finished =>
          have alive := drainedFlowing.alive
          rw [((tick_finished_iff drained).mp ticked).2.2] at alive
          cases alive
      | failed failure => exact (calm _ _ failure drain ticked).elim
      | again next =>
          rcases tick_again ticked with
            ⟨-, notDone, step⟩ | ⟨decoding, step⟩
          · refine continues next ticked
              (invariant.prefill drainedFlowing notDone step) ?_
            exact
              (prefillStep_remaining backend notDone step).trans_eq measured
          · obtain ⟨log, state, parsed, -⟩ := drainedFlowing.streamed
            rcases invariant.decode drainedFlowing step trivial with
              keeps | ends
            · refine continues next ticked keeps ?_
              rcases decodeStep_progress backend parsed step with
                beyond | dropped
              · have bounded : next.generated ≤ next.maxTokens := by
                  rw [keeps.maxTokens]
                  exact keeps.bounded
                exact
                  (beyond.remaining backend decoding.alive
                    bounded).trans_eq
                    measured
              · have nextAlive := keeps.alive
                rw [dropped] at nextAlive
                cases nextAlive
            · have queue : Run backend next next.terminal _ :=
                run_terminal ends.drained
              refine
                ⟨generation.ready ++ next.terminal, _,
                  drain.append (.again ticked queue),
                  (tick_finished_iff _).mpr
                    ⟨ends.drained, rfl, ends.dropped⟩, ?_⟩
              have final := invariant.run_final queue.always ends
              simpa using final

end Ends

/-! ## The stream -/

section Told

variable [LinearOrder Logit] [OrderBot Logit]
variable (backend : Backend Context Sampler Decoder Logit)

def pieceEvent : ReasonPiece → GenEvent
  | .text body => .text body
  | .reasoning body => .reasoning body

theorem shownEvents_eq
    {pieces : List ReasonPiece}
    (kept : pieces.filter (fun piece => !piece.isEmpty) = pieces) :
    shownEvents pieces = pieces.map pieceEvent := by
  have nonempty := List.filter_eq_self.mp kept
  clear kept
  induction pieces with
  | nil => rfl
  | cons piece pieces induction =>
      have rest :=
        induction fun other member =>
          nonempty other (List.mem_cons_of_mem _ member)
      have here := nonempty piece List.mem_cons_self
      rw [List.map_cons, ← rest]
      cases piece with
      | text body =>
          have notEmpty : (!body.isEmpty) = true := here
          simp [shownEvents, eventsOf, pieceEvent, notEmpty]
      | reasoning body =>
          have notEmpty : (!body.isEmpty) = true := here
          simp [shownEvents, eventsOf, pieceEvent, notEmpty]

omit [LinearOrder Logit] [OrderBot Logit] in
/-- A generation that `generate` hands out has nothing behind it. -/
theorem flowing_start
    (context : Context) (restored : Option Context) (request : Request)
    (constrained : Option Sampler)
    (shown : request.think.show = true) :
    Flowing backend.family request.stop request.maxTokens []
      (generate backend context restored request constrained none) := by
  have parsed :=
    parsed_start backend context restored request constrained none
  cases constrained with
  | none =>
      exact
        ⟨⟨[], _, parsed, rfl⟩, rfl, rfl, rfl, rfl, rfl, shown, rfl,
          Nat.zero_le _, withheld_start _⟩
  | some sampler =>
      exact
        ⟨⟨[], _, parsed, rfl⟩, rfl, rfl, rfl, rfl, rfl, shown, rfl,
          Nat.zero_le _, withheld_start _⟩

omit [LinearOrder Logit] [OrderBot Logit] in
/-- Prefilling does not panic. -/
theorem prefillStep_not_panic
    (generation : Generation Context Sampler Decoder) :
    generation.prefillStep backend ≠ .error .panic := by
  intro step
  simp only [Generation.prefillStep] at step
  split at step
  · cases step
  · cases step

/-- Once the last event is queued, no step is taken. -/
theorem Settling.not_failed
    {family : ReasonFamily} {stops : List Text} {limit : Nat}
    {past : List GenEvent}
    {generation : Generation Context Sampler Decoder}
    (settling : Settling family stops limit past generation)
    (calm :
      ∀ failure, generation.tick backend = .failed failure →
        failure = .panic)
    (failure : Failure) :
    generation.tick backend ≠ .failed failure := by
  intro ticked
  obtain rfl := calm failure ticked
  rcases tick_failed ticked with step | ⟨decoding, -⟩
  · exact prefillStep_not_panic backend generation step
  · have alive := decoding.alive
    rw [settling.dropped] at alive
    cases alive

/-- A step of a flowing generation panics only inside `split_emit`. -/
theorem Flowing.not_failed
    {family : ReasonFamily} {stops : List Text} {limit : Nat}
    {past : List GenEvent}
    {generation : Generation Context Sampler Decoder}
    (flowing : Flowing family stops limit past generation)
    (calm :
      ∀ failure, generation.tick backend = .failed failure →
        failure = .panic)
    (scannable :
      Decoding backend generation →
        ∀ text ∈ generation.scanned backend, Scannable stops text)
    (failure : Failure) :
    generation.tick backend ≠ .failed failure := by
  intro ticked
  obtain rfl := calm failure ticked
  rcases tick_failed ticked with step | ⟨decoding, step⟩
  · exact prefillStep_not_panic backend generation step
  · obtain ⟨log, state, parsed, -⟩ := flowing.streamed
    obtain ⟨text, member, stuck⟩ :=
      decodeStep_panic parsed flowing.alive step
    rw [flowing.stop] at stuck
    exact stuck (scannable decoding text member)

/--
Calls of `next` return answer and reasoning events, one usage, one reason,
and then none for ever.  The usage counts the committed tokens, of which
there are at most `limit`.  The events, with the delimiters the parser
consumed put back, spell the text of these tokens up to the stop string.
-/
def Complete
    (family : ReasonFamily) (stops : List Text) (limit : Nat)
    (start : Generation Context Sampler Decoder) : Prop :=
  ∃ events usage reason final,
    Streams backend start (events ++ [.usage usage, .done reason])
        final ∧
      Next backend final .none final ∧
      usage.generatedTokens = final.history.length ∧
      final.history.length ≤ limit ∧
      ∃ parser ledger text,
        parser.family = family ∧
          Accounts parser ledger text ∧
          events = (emitted ledger).map pieceEvent ∧
          Cut stops reason (historyText final.history) text

/-- A run to the end is complete. -/
theorem Settling.complete
    {family : ReasonFamily} {stops : List Text} {limit : Nat}
    {start final : Generation Context Sampler Decoder}
    {told : List GenEvent}
    (settling : Settling family stops limit told final)
    (run : Run backend start told final)
    (finished : final.tick backend = .finished) :
    Complete backend family stops limit start := by
  obtain ⟨-, terminal, -⟩ := (tick_finished_iff final).mp finished
  obtain ⟨log, state, reason, usage, feeds, events, total, cut⟩ :=
    settling.streamed
  rw [terminal, List.append_nil] at events
  have walk := feeds.walk.append (Splitter.walk_pieceOf state.1 state.2)
  have spelled := feeds.spelling
  have accounts := accounts_of_walk walk state.2
  rw [Splitter.spelling_append, Splitter.spelling_pieceOf] at accounts
  rw [List.nil_append] at spelled
  refine
    ⟨(pieces (log ++ Splitter.pieceOf state.1 state.2)).map pieceEvent,
      usage, reason, final, ?_, next_of_finished finished, total,
      settling.bounded, _, _, final.fed.flatten, ?_, spelled ▸ accounts,
      ?_, cut⟩
  · rw [← shownEvents_eq (pieces_nonempty walk), ← events]
    exact run.streams finished
  · obtain ⟨mode, held⟩ := state
    cases mode <;> rfl
  · rw [emitted_toLedger]

/--
A generation no backend call of which fails has a complete stream exactly
when the stop filter can scan every text that it is given.
-/
theorem stream_complete_iff
    (context : Context) (restored : Option Context) (request : Request)
    (constrained : Option Sampler)
    (shown : request.think.show = true)
    (calm :
      ∀ events later failure,
        Run backend
            (generate backend context restored request constrained none)
            events later →
          later.tick backend = .failed failure → failure = .panic) :
    Complete backend backend.family request.stop request.maxTokens
        (generate backend context restored request constrained none) ↔
      ∀ events later,
        Run backend
            (generate backend context restored request constrained none)
            events later →
          Decoding backend later →
            ∀ text ∈ later.scanned backend,
              Scannable request.stop text := by
  have start :=
    flowing_start backend context restored request constrained shown
  have invariant :=
    flowing_invariant backend backend.family request.stop
      request.maxTokens
  constructor
  · rintro ⟨events, usage, reason, final, streams, -⟩ before later run
      decoding text member
    rcases invariant.run run.always start with keeps | ends
    · by_contra stuck
      obtain ⟨log, state, parsed, -⟩ := keeps.streamed
      have step := decodeStep_stuck parsed member (keeps.stop ▸ stuck)
      exact run.not_streams (tick_decoding_error decoding step) streams
    · have alive := decoding.alive
      rw [ends.dropped] at alive
      cases alive
  · intro scannable
    have never :
        ∀ events later failure,
          Run backend
              (generate backend context restored request constrained none)
              events later →
            later.tick backend ≠ .failed failure := by
      intro events later failure run
      rcases invariant.run run.always start with keeps | ends
      · exact keeps.not_failed backend
          (fun failure => calm events later failure run)
          (scannable events later run) failure
      · exact ends.not_failed backend
          (fun failure => calm events later failure run) failure
    obtain ⟨told, final, run, finished, settling⟩ :=
      start.finishes backend never
    exact settling.complete backend run finished

/-- A multi-byte character at the end of the text stops the program. -/
theorem stream_panics :
    let backend := scripted [] [(2, "é".toList)] [] [2]
    let start :=
      generate backend () none (plainRequest ["</s>".toList]) none none
    backend.Total ∧ start.showReasoning = true ∧
      ¬ Complete backend backend.family ["</s>".toList] 16 start := by
  refine ⟨scripted_total _ _ _ _, rfl, ?_⟩
  rintro ⟨events, usage, reason, final, streams, -⟩
  have fails :
      ((generate (scripted [] [(2, "é".toList)] [] [2]) () none
          (plainRequest ["</s>".toList]) none none).next
        (scripted [] [(2, "é".toList)] [] [2]) 2).map Prod.fst =
        some (.error .panic) := by
    decide +kernel
  obtain ⟨⟨item, after⟩, called, isError⟩ :=
    Option.map_eq_some_iff.mp fails
  cases isError
  exact not_streams_of_error called streams

/-! ## Backends whose calls do not fail -/

variable {backend}
variable {family : ReasonFamily}
variable {generation : Generation Context Sampler Decoder}
variable {failure : Failure}

omit [LinearOrder Logit] [OrderBot Logit] in
theorem Backend.Total.fillInject_ok
    (total : backend.Total)
    (generation : Generation Context Sampler Decoder) :
    ∃ filled, generation.fillInject backend = .ok filled := by
  simp only [Generation.fillInject]
  split_ifs
  · exact ⟨_, rfl⟩
  · split
    next => exact ⟨_, rfl⟩
    next close _ =>
      obtain ⟨token, rest, tokenized⟩ := total.tokens close
      simp only [tokenized, List.isEmpty_cons, Bool.false_eq_true,
        if_false]
      exact ⟨_, rfl⟩

omit [OrderBot Logit] in
theorem Backend.Total.chooseToken_ok
    (total : backend.Total) (alive : generation.sampler.isSome) :
    ∃ token origin chosen,
      generation.chooseToken backend = .ok (token, origin, chosen) := by
  rw [Generation.chooseToken]
  by_cases force : generation.forceKind = .force
  · obtain ⟨filled, fill⟩ := total.fillInject_ok generation
    simp only [force, if_true, fill]
    obtain ⟨tokens, queue, flag, rfl⟩ := fillInject_frame backend fill
    cases queue with
    | cons token rest => exact ⟨_, _, _, rfl⟩
    | nil =>
        obtain ⟨token, next, sampled⟩ :=
          sampleNext_ok backend
            { generation with
              closeTokens := tokens, inject := [], injected := flag }
            alive .force
        simp only [Bind.bind, Except.bind, sampled]
        exact ⟨_, _, _, rfl⟩
  · obtain ⟨token, next, sampled⟩ :=
      sampleNext_ok backend generation alive generation.forceKind
    simp only [force, if_false, Bind.bind, Except.bind, sampled]
    exact ⟨_, _, _, rfl⟩

omit [LinearOrder Logit] [OrderBot Logit] in
theorem Backend.Total.commitLoop_panic
    (total : backend.Total)
    {first : Token} {items : List (Token × Origin)}
    {log : List (Splitter.Entry Char Mode)} {state : Mode × Text}
    (parsed : Parsed family generation log state)
    (loop :
      Generation.commitLoop backend first items generation =
        .error failure) :
    failure = .panic := by
  induction items generalizing generation log state with
  | nil => cases loop
  | cons item items induction =>
      obtain ⟨token, origin⟩ := item
      rw [Generation.commitLoop] at loop
      rcases parsed.commitOne backend first token origin with
        ⟨progress, committed, outcome⟩ | ⟨other, failed, -, -, fails⟩
      · rw [committed] at loop
        cases outcome with
        | closed => cases loop
        | stopped => cases loop
        | advanced _ _ _ _ after => exact induction after loop
      · rw [failed] at loop
        cases loop
        cases fails with
        | slice => rfl
        | piece undecoded => exact (total.piece _ _ undecoded).elim

/-- With a total backend only `split_emit` can fail. -/
theorem Backend.Total.decodeStep_panic
    (total : backend.Total)
    {log : List (Splitter.Entry Char Mode)} {state : Mode × Text}
    (parsed : Parsed family generation log state)
    (alive : generation.sampler.isSome)
    (step : generation.decodeStep backend = .error failure) :
    failure = .panic := by
  have view := decodeStep_stepping backend generation
  generalize generation.decodeStep backend = result at view step
  cases view with
  | full =>
      obtain ⟨more, next, queued, -⟩ := parsed.queueTerminal .maxTokens
      rw [queued] at step
      cases step
  | unchosen _ choice =>
      obtain ⟨token, origin, chosen, chosenOk⟩ :=
        total.chooseToken_ok alive
      rw [choice] at chosenOk
      cases chosenOk
  | eos _ choice =>
      obtain ⟨more, next, queued, -⟩ :=
        (parsed.choose choice).queueTerminal .eos
      rw [queued] at step
      cases step
  | @undecoded token _ chosen _ _ _ _ drafted =>
      simp only [Generation.decodeDrafts] at drafted
      split at drafted
      next failed => exact (total.decode _ _ failed).elim
      next => cases drafted
  | commits _ choice _ drafted =>
      exact total.commitLoop_panic
        ((parsed.choose choice).decode drafted) step

theorem Backend.Total.calm
    (total : backend.Total)
    {context : Context} {restored : Option Context} {request : Request}
    {constrained : Option Sampler} (shown : request.think.show = true)
    (events : List GenEvent)
    (later : Generation Context Sampler Decoder) (failure : Failure)
    (run :
      Run backend
        (generate backend context restored request constrained none)
        events later)
    (ticked : later.tick backend = .failed failure) :
    failure = .panic := by
  rcases tick_failed ticked with step | ⟨decoding, step⟩
  · simp only [Generation.prefillStep] at step
    split at step
    next failed => exact (total.decode _ _ failed).elim
    next => cases step
  · have start :=
      flowing_start backend context restored request constrained shown
    rcases (flowing_invariant backend _ _ _).run run.always start with
      keeps | ends
    · obtain ⟨log, state, parsed, -⟩ := keeps.streamed
      exact total.decodeStep_panic parsed decoding.alive step
    · have alive := decoding.alive
      rw [ends.dropped] at alive
      cases alive

end Told

/-- The text of two tokens, up to a stop string in the second. -/
theorem stream_complete_hash :
    let backend :=
      scripted [] [(2, "a<think>".toList), (3, "b#c".toList)] [] [2, 3]
    Complete backend backend.family ["#".toList] 16
      (generate backend () none (plainRequest ["#".toList]) none none) := by
  refine
    (stream_complete_iff _ () none (plainRequest ["#".toList]) none rfl
      ((scripted_total _ _ _ _).calm rfl)).mpr ?_
  intro events later _ _ text _
  exact scannable_of_byte (by decide) text

end Runa.Engine.Generate
