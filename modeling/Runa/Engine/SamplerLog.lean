import Runa.Engine.Speculation

/-!
# What the sampler accepts

A backend whose sampler also keeps a log of the tokens it accepted, by a choice
of its own or from `accept`.  Along every run the log is the tokens that were
committed, without the drafts that repeat the token their batch began with:
the loop over a batch takes such a draft for that token (`logs_iff`).
-/

namespace Runa.Engine.SamplerLog

open Runa.Stream
open Runa.Stream.Utf8
open Runa.Core.Reason
open Runa.Core.Think
open Runa.Engine.Ngram
open Runa.Engine.Sampling
open Runa.Engine.Generate

variable {Context Sampler Decoder Logit : Type}

/-! ## The log -/

/-- The sampler keeps what it accepted, the newest first. -/
def logged (backend : Backend Context Sampler Decoder Logit) :
    Backend Context (Sampler × List Token) Decoder Logit where
  nBatch := backend.nBatch
  nCtx := backend.nCtx
  chatTemplate := backend.chatTemplate
  tokenEos := backend.tokenEos
  decode := backend.decode
  logits := backend.logits
  bump := backend.bump
  clearFrom := backend.clearFrom
  clearKv := backend.clearKv
  chain stages := (backend.chain stages, [])
  sample sampler context index :=
    let (token, next) := backend.sample sampler.1 context index
    (token, next, token :: sampler.2)
  accept sampler token := (backend.accept sampler.1 token, token :: sampler.2)
  draw := backend.draw
  newDecoder := backend.newDecoder
  tokenToPiece := backend.tokenToPiece
  strToToken := backend.strToToken

/-- The token that began the newest batch. -/
def batchToken : List Commit → Option Token
  | [] => none
  | commit :: earlier =>
    if commit.origin = .drafted then batchToken earlier
    else some commit.token

/-- A draft with the token that its batch began with. -/
def Repeats (commit : Commit) (earlier : List Commit) : Prop :=
  commit.origin = .drafted ∧ batchToken earlier = some commit.token

instance (commit : Commit) (earlier : List Commit) :
    Decidable (Repeats commit earlier) :=
  inferInstanceAs (Decidable (_ ∧ _))

/-- The tokens without the drafts that repeat. -/
def accepted : List Commit → List Token
  | [] => []
  | commit :: earlier =>
    if Repeats commit earlier then accepted earlier
    else commit.token :: accepted earlier

/-- No draft repeats the token that its batch began with. -/
def Apart : List Commit → Prop
  | [] => True
  | commit :: earlier => ¬ Repeats commit earlier ∧ Apart earlier

def apart : List Commit → Bool
  | [] => true
  | commit :: earlier => !decide (Repeats commit earlier) && apart earlier

theorem apart_eq_true {history : List Commit} :
    apart history = true ↔ Apart history := by
  induction history with
  | nil => exact iff_of_true rfl trivial
  | cons commit earlier induction =>
      rw [apart, Apart, Bool.and_eq_true, induction, Bool.not_eq_true',
        decide_eq_false_iff_not]

theorem length_accepted_le (history : List Commit) :
    (accepted history).length ≤ history.length := by
  induction history with
  | nil => exact le_rfl
  | cons commit earlier induction =>
      rw [accepted]
      split
      · exact induction.trans (Nat.le_succ _)
      · exact Nat.succ_le_succ induction

/-- All tokens are accepted where no draft repeats. -/
theorem accepted_eq_iff {history : List Commit} :
    accepted history = history.map Commit.token ↔ Apart history := by
  induction history with
  | nil => exact iff_of_true rfl trivial
  | cons commit earlier induction =>
      rw [accepted, Apart, List.map_cons]
      split
      case isTrue repeats =>
        apply iff_of_false
        · intro same
          have short := length_accepted_le earlier
          have size := congrArg List.length same
          rw [List.length_cons, List.length_map] at size
          omega
        · exact fun apart => apart.1 repeats
      case isFalse apart =>
        rw [List.cons.injEq, induction]
        exact ⟨fun same => ⟨apart, same.2⟩, fun rest => ⟨rfl, rest.2⟩⟩

/-- The sampler has accepted these tokens. -/
def Log (tokens : List Token)
    (generation : Generation Context (Sampler × List Token) Decoder) :
    Prop :=
  ∃ sampler, generation.sampler = some (sampler, tokens)

/-! ## Choosing -/

section

variable [LinearOrder Logit] [OrderBot Logit]
  {backend : Backend Context Sampler Decoder Logit}
  {generation : Generation Context (Sampler × List Token) Decoder}
  {tokens : List Token}

omit [OrderBot Logit] in
/-- Sampling accepts the token it returns. -/
theorem sampleNext_log
    {next : Generation Context (Sampler × List Token) Decoder}
    {kind : ForceKind} {token : Token}
    (off : generation.sampling.kernelSampler = false)
    (log : Log tokens generation)
    (sampled :
      generation.sampleNext (logged backend) kind = .ok (token, next)) :
    Log (token :: tokens) next := by
  rcases log with ⟨sampler, alive⟩
  simp only [Generation.sampleNext, off, Bool.false_eq_true, if_false,
    alive] at sampled
  cases sampled
  exact ⟨_, rfl⟩

omit [OrderBot Logit] in
/-- The token that is chosen is accepted, whether it is forced or sampled. -/
theorem chooseToken_log
    {chosen : Generation Context (Sampler × List Token) Decoder}
    {token : Token} {origin : Origin}
    (off : generation.sampling.kernelSampler = false)
    (log : Log tokens generation)
    (choice :
      generation.chooseToken (logged backend) =
        .ok (token, origin, chosen)) :
    Log (token :: tokens) chosen ∧ origin ≠ .drafted := by
  unfold Generation.chooseToken at choice
  by_cases force : generation.forceKind = .force
  · simp only [force, if_true] at choice
    cases fill : generation.fillInject (logged backend) with
    | error failure =>
        rw [fill] at choice
        cases choice
    | ok filled =>
        rw [fill] at choice
        rcases fillInject_frame (logged backend) fill with
          ⟨close, queue, flag, rfl⟩
        cases queue with
        | cons head rest =>
            cases choice
            rcases log with ⟨sampler, alive⟩
            refine ⟨⟨backend.accept sampler token, ?_⟩, by decide⟩
            change generation.sampler.map _ = _
            rw [alive]
            rfl
        | nil =>
            cases sampled :
                Generation.sampleNext (logged backend)
                  { generation with
                    closeTokens := close, inject := [],
                    injected := flag } .force with
            | error failure =>
                simp only [Bind.bind, Except.bind, sampled] at choice
                cases choice
            | ok result =>
                simp only [Bind.bind, Except.bind, sampled] at choice
                cases choice
                refine ⟨sampleNext_log ?_ ?_ sampled, by decide⟩
                · exact off
                · exact log
  · simp only [force, if_false] at choice
    cases sampled :
        generation.sampleNext (logged backend) generation.forceKind with
    | error failure =>
        rw [sampled] at choice
        cases choice
    | ok result =>
        rw [sampled] at choice
        cases choice
        exact ⟨sampleNext_log off log sampled, by decide⟩

/-! ## Committing -/

variable (family : ReasonFamily)

/-- The generation goes on, and these tokens were accepted. -/
structure Accepting (tokens : List Token)
    (generation : Generation Context (Sampler × List Token) Decoder) :
    Prop where
  reading : Reading family generation
  off : generation.sampling.kernelSampler = false
  log : Log tokens generation

variable {family}

omit [LinearOrder Logit] [OrderBot Logit] in
/-- A token of the batch is accepted unless it is the first one. -/
theorem Accepting.commit
    (accepting : Accepting family tokens generation)
    {log : List (Splitter.Entry Char Mode)} {first token : Token} {origin : Origin}
    {progress : Progress (Generation Context (Sampler × List Token) Decoder)}
    (outcome :
      Outcome (logged backend) family generation log first token origin
        progress) :
    progress.Holds
      (fun next =>
        Accepting family
            (if token ≠ first then token :: tokens else tokens) next ∧
          ∃ commit : Commit, next.history = commit :: generation.history ∧
            commit.token = token ∧ commit.origin = origin)
      Over := by
  have read := accepting.reading.commit outcome
  cases outcome with
  | closed => exact read
  | stopped => exact read
  | @advanced piece decoder emit keep more next _ _ _ _ _ =>
      rcases (advance_advanced (logged backend) generation family first
        token origin piece decoder emit keep more next).eq with
        ⟨counted, _, _, _, _, equal⟩
      simp only [Progress.Holds, equal] at read ⊢
      refine ⟨⟨read, accepting.off, ?_⟩, _, rfl, rfl, rfl⟩
      rcases accepting.log with ⟨sampler, alive⟩
      rw [Log]
      change ∃ _, (if token ≠ first then generation.sampler.map _
        else generation.sampler) = _
      by_cases more : token ≠ first
      · rw [if_pos more, if_pos more, alive]
        exact ⟨backend.accept sampler token, rfl⟩
      · rw [if_neg more, if_neg more, alive]
        exact ⟨sampler, rfl⟩

/-- Within a batch: its first token is committed. -/
structure InBatch (family : ReasonFamily) (first : Token)
    (generation : Generation Context (Sampler × List Token) Decoder) :
    Prop where
  accepting : Accepting family (accepted generation.history) generation
  begun : batchToken generation.history = some first

omit [LinearOrder Logit] [OrderBot Logit] in
/-- A draft that is committed is accepted unless it repeats. -/
theorem InBatch.commit {first draft : Token}
    (batch : InBatch family first generation)
    {log : List (Splitter.Entry Char Mode)}
    {progress : Progress (Generation Context (Sampler × List Token) Decoder)}
    (outcome :
      Outcome (logged backend) family generation log first draft .drafted
        progress) :
    progress.Holds (InBatch family first) Over := by
  have committed := batch.accepting.commit outcome
  cases progress with
  | ended final => exact committed
  | more next =>
      rcases committed with ⟨accepting, commit, history, rfl, drafted⟩
      constructor
      · rw [history, accepted]
        by_cases repeats : commit.token = first
        · rw [if_pos ⟨drafted, batch.begun.trans (congrArg some repeats.symm)⟩]
          rw [if_neg (not_not.mpr repeats)] at accepting
          exact accepting
        · have apart : ¬ Repeats commit generation.history := fun both =>
            repeats (Option.some.inj (both.2.symm.trans batch.begun))
          rw [if_neg apart]
          rw [if_pos repeats] at accepting
          exact accepting
      · rw [history, batchToken, if_pos drafted]
        exact batch.begun

omit [LinearOrder Logit] [OrderBot Logit] in
/-- A batch is accepted but for the drafts that repeat its first token. -/
theorem commitLoop_batch {first : Token} {origin : Origin}
    {drafts : List Token}
    {next : Generation Context (Sampler × List Token) Decoder}
    (accepting :
      Accepting family (first :: accepted generation.history) generation)
    (chosen : origin ≠ .drafted)
    (loop :
      Generation.commitLoop (logged backend) first
        ((first, origin) :: drafts.map fun draft => (draft, .drafted))
        generation = .ok next) :
    Accepting family (accepted next.history) next ∨ Over next := by
  rcases accepting.reading.parsed with ⟨log, state, known⟩
  rcases commitLoop_cons family known loop with ⟨progress, outcome, rest⟩
  have committed := accepting.commit outcome
  cases progress with
  | ended final =>
      cases rest
      exact Or.inr committed
  | more middle =>
      rcases committed with ⟨begun, commit, history, rfl, rfl⟩
      have batch : InBatch family commit.token middle := by
        constructor
        · have apart : ¬ Repeats commit generation.history :=
            fun both => chosen both.1
          rw [history, accepted, if_neg apart]
          rw [if_neg (not_not.mpr rfl)] at begun
          exact begun
        · rw [history, batchToken, if_neg chosen]
      have run : InBatch family commit.token next ∨ Over next := by
        refine commitLoop_items family
          (fun batch => batch.accepting.reading.parsed) ?_ batch rest
        intro item member generation log state progress batch _ outcome
        rcases List.mem_map.mp member with ⟨draft, -, rfl⟩
        exact batch.commit outcome
      exact run.imp_left InBatch.accepting

/-! ## Runs -/

omit [LinearOrder Logit] [OrderBot Logit] in
/-- The last event is queued behind what the parser has read. -/
theorem over_of_queueTerminal
    {log : List (Splitter.Entry Char Mode)} {state : Mode × Text}
    (known : Parsed family generation log state) (reason : StopReason)
    {next : Generation Context (Sampler × List Token) Decoder}
    (queued : generation.queueTerminal reason = .ok next) : Over next := by
  rcases known.queueTerminal reason with ⟨more, after, closed, -⟩
  rw [closed] at queued
  cases queued
  exact ⟨rfl, rfl⟩

/-- Before its first token is committed, a batch has it accepted. -/
theorem Accepting.decoded
    (accepting : Accepting family (accepted generation.history) generation)
    {chosen decoded : Generation Context (Sampler × List Token) Decoder}
    {token : Token} {origin : Origin} {verified : List Token}
    (choice :
      generation.chooseToken (logged backend) = .ok (token, origin, chosen))
    (drafted :
      chosen.decodeDrafts (logged backend) token =
        .ok (verified, decoded)) :
    Accepting family (token :: accepted decoded.history) decoded := by
  rcases chooseToken_log accepting.off accepting.log choice with ⟨log, -⟩
  have read := (accepting.reading.choose choice).decode drafted
  rcases chooseToken_frame (logged backend) choice with
    ⟨_, _, sampler, _, _, _, rfl, -⟩
  rcases decodeDrafts_frame (logged backend) drafted with ⟨_, _, _, rfl⟩
  exact ⟨read, accepting.off, log⟩

/-- A decode step keeps the log. -/
theorem decodeStep_log
    {next : Generation Context (Sampler × List Token) Decoder}
    (accepting : Accepting family (accepted generation.history) generation)
    (step : generation.decodeStep (logged backend) = .ok next) :
    Accepting family (accepted next.history) next ∨ Over next := by
  rcases accepting.reading.parsed with ⟨log, state, parsed⟩
  have view := decodeStep_stepping (logged backend) generation
  generalize generation.decodeStep (logged backend) = result at view step
  cases view with
  | full => exact Or.inr (over_of_queueTerminal parsed _ step)
  | unchosen => cases step
  | eos _ choice =>
      exact Or.inr (over_of_queueTerminal (parsed.choose choice) _ step)
  | undecoded => cases step
  | commits _ choice _ drafted =>
      exact commitLoop_batch (accepting.decoded choice drafted)
        (chooseToken_log accepting.off accepting.log choice).2 step

theorem accepting_invariant (family : ReasonFamily)
    (backend : Backend Context Sampler Decoder Logit) :
    Invariant (logged backend) (fun _ _ => True)
      (fun _ (generation : Generation Context (Sampler × List Token) Decoder)
        => Accepting family (accepted generation.history) generation)
      (fun _ generation => Over generation) where
  alive accepting :=
    ⟨accepting.reading.alive, accepting.reading.unqueued⟩
  gone ended := ⟨ended.dropped, ended.drained⟩
  ready := by
    rintro past rest event generation
      ⟨⟨⟨log, state, parsed⟩, alive, unqueued⟩, off, kept⟩ -
    exact ⟨⟨⟨log, state, parsed.feeds, parsed.reason⟩, alive, unqueued⟩,
      off, kept⟩
  terminal := by
    rintro past rest event generation ⟨dropped, drained⟩ -
    exact ⟨dropped, drained⟩
  prefill := by
    rintro past generation next
      ⟨⟨⟨log, state, parsed⟩, alive, unqueued⟩, off, kept⟩ - step
    rcases prefillStep_frame (logged backend) step with
      ⟨context, position, index, rfl⟩
    exact ⟨⟨⟨log, state, parsed.feeds, parsed.reason⟩, alive, unqueued⟩,
      off, kept⟩
  decode accepting step _ := decodeStep_log accepting step

end

section

variable [LinearOrder Logit] [OrderBot Logit]
  (backend : Backend Context Sampler Decoder Logit)
  (context : Context) (restored : Option Context) (request : Request)
  (constrained : Option Sampler)
  (toolReply : Option (Text → Text × List ToolCall))

/-- A generation that keeps a log of what its sampler accepts. -/
def generateLogged : Generation Context (Sampler × List Token) Decoder :=
  generate (logged backend) context restored request
    (constrained.map fun sampler => (sampler, [])) toolReply

omit [LinearOrder Logit] [OrderBot Logit] in
/-- Nothing is accepted before the first step. -/
theorem accepting_start
    (off : (generateLogged backend context restored request constrained
      toolReply).sampling.kernelSampler = false) :
    Accepting backend.family []
      (generateLogged backend context restored request constrained
        toolReply) where
  reading := reading_start (logged backend) context restored request _ _
  off := off
  log := by
    cases constrained with
    | none => exact ⟨_, rfl⟩
    | some sampler => exact ⟨_, rfl⟩

/-- While the generation goes on, the sampler has accepted what is committed
exactly if no draft repeats the token that its batch began with. -/
theorem logs_iff
    (off : (generateLogged backend context restored request constrained
      toolReply).sampling.kernelSampler = false)
    {events : List GenEvent}
    {later : Generation Context (Sampler × List Token) Decoder}
    {sampler : Sampler} {log : List Token}
    (run :
      Run (logged backend)
        (generateLogged backend context restored request constrained
          toolReply)
        events later)
    (alive : later.sampler = some (sampler, log)) :
    log = later.history.map Commit.token ↔ Apart later.history := by
  have start := accepting_start backend context restored request constrained
    toolReply off
  have history : (generateLogged backend context restored request constrained
      toolReply).history = [] := by
    cases constrained with
    | none => rfl
    | some sampler => rfl
  have begun : Accepting backend.family
      (accepted (generateLogged backend context restored request constrained
        toolReply).history)
      (generateLogged backend context restored request constrained
        toolReply) := by
    rw [history]
    exact start
  rcases (accepting_invariant backend.family backend).run_start run.always
    begun with accepting | ended
  · rcases accepting.log with ⟨other, kept⟩
    rw [alive] at kept
    cases kept
    exact accepted_eq_iff
  · rw [ended.dropped] at alive
    cases alive

end

/-! ## Concrete runs -/

/-- Token 1 is best behind 2, and 2 behind anything else. -/
def alternating : Backend (List Token × List (List Nat))
    (Int × Rat × List Token) Unit Nat :=
  tabled
    (fun cells => if cells.getLast? = some 2 then [0, 9, 0] else [0, 0, 9])
    [(1, ['a']), (2, ['b'])]

/-- A token with another one as its draft. -/
theorem logs_alternating :
    ∃ events later sampler log,
      Run (logged alternating)
          (generateLogged alternating ([], []) none
            { repeatRequest 1 with
              promptTokens := [1, 2, 1, 2], draftN := 1, ngram := true }
            none none)
          events later ∧
        later.sampler = some (sampler, log) ∧
        later.history.map Commit.origin = [.drafted, .sampled] ∧
        log = later.history.map Commit.token := by
  rcases exists_run_of_ticks (logged alternating)
    (generateLogged alternating ([], []) none
      { repeatRequest 1 with
        promptTokens := [1, 2, 1, 2], draftN := 1, ngram := true }
      none none) 2
    (fun later =>
      later.sampler.isSome &&
        decide (later.history.map Commit.origin = [.drafted, .sampled]) &&
        apart later.history)
    (by decide +kernel) with
    ⟨events, later, run, checked⟩
  rw [Bool.and_eq_true, Bool.and_eq_true, decide_eq_true_eq,
    apart_eq_true] at checked
  rcases checked with ⟨⟨alive, origins⟩, distinct⟩
  rcases Option.isSome_iff_exists.mp alive with ⟨⟨sampler, log⟩, alive⟩
  refine ⟨events, later, sampler, log, run, alive, origins, ?_⟩
  exact (logs_iff alternating ([], []) none _ none none rfl run alive).mpr
    distinct

/-- A token with itself as its draft: the sampler accepts it once. -/
theorem not_logs_thrice :
    ∃ events later sampler,
      Run (logged thrice)
          (generateLogged thrice ([], []) none
            { repeatRequest 1 with ngram := true } none none)
          events later ∧
        later.sampler = some (sampler, [3]) ∧
        later.history.map Commit.token = [3, 3] := by
  rcases exists_run_of_ticks (logged thrice)
    (generateLogged thrice ([], []) none
      { repeatRequest 1 with ngram := true } none none) 2
    (fun later =>
      decide (later.sampler.map Prod.snd = some [3]) &&
        decide (later.history.map Commit.token = [3, 3]))
    (by decide +kernel) with
    ⟨events, later, run, checked⟩
  rw [Bool.and_eq_true, decide_eq_true_eq, decide_eq_true_eq] at checked
  rcases checked with ⟨accepted, tokens⟩
  rcases Option.map_eq_some_iff.mp accepted with ⟨⟨sampler, log⟩, alive, rfl⟩
  exact ⟨events, later, sampler, run, alive, tokens⟩

end Runa.Engine.SamplerLog
