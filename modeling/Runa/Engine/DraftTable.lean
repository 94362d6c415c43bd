import Runa.Engine.SamplerLog
import Runa.Recall.Continuations

/-!
# The table that drafts come from

A generation that drafts keeps a table of trigrams.  Along every run the table
holds what last followed each trigram in the prompt and the tokens committed
since, and every draft that is committed is what last followed the three
tokens in front of it before its batch began (`drafts_recall`).
-/

namespace Runa.Engine.DraftTable

open Runa.Stream
open Runa.Stream.Utf8
open Runa.Core.Reason
open Runa.Core.Think
open Runa.Engine.Ngram
open Runa.Engine.Sampling
open Runa.Engine.Generate
open Runa.Recall.Continuations

/-! ## The table -/

abbrev Trigram := Token × Token × Token

/-- A trigram as a window. -/
def window (trigram : Trigram) : List Token :=
  [trigram.1, trigram.2.1, trigram.2.2]

/-- The table holds what last followed each trigram. -/
def Indexes (cache : NgramCache) (hist : List Token) : Prop :=
  ∀ trigram next, cache.map.lookup trigram = some next ↔
    LastFollows hist (window trigram) next

theorem lastTrigram_eq_some_iff {hist : List Token} {trigram : Trigram} :
    lastTrigram hist = some trigram ↔ window trigram <:+ hist := by
  rcases trigram with ⟨first, second, third⟩
  rw [← List.reverse_prefix]
  unfold lastTrigram window
  rcases hist.reverse with _ | ⟨a, _ | ⟨b, _ | ⟨c, rest⟩⟩⟩
  · simp
  · simp
  · simp
  · simp only [Option.some.injEq, Prod.mk.injEq, List.reverse_cons,
      List.reverse_nil, List.nil_append, List.cons_append,
      List.cons_prefix_cons, List.nil_prefix, and_true]
    constructor
    · rintro ⟨rfl, rfl, rfl⟩
      exact ⟨rfl, rfl, rfl⟩
    · rintro ⟨rfl, rfl, rfl⟩
      exact ⟨rfl, rfl, rfl⟩

variable {cache : NgramCache} {hist : List Token} {token next : Token}

/-- A token that is learnt behind a history keeps the table. -/
theorem Indexes.learn (indexes : Indexes cache hist) (token : Token) :
    Indexes (cache.learn hist token) (hist ++ [token]) := by
  intro trigram next
  unfold NgramCache.learn
  cases last : lastTrigram hist with
  | none =>
      have ends : ¬ window trigram <:+ hist := by
        rw [← lastTrigram_eq_some_iff, last]
        rintro ⟨⟩
      rw [lastFollows_concat_of_not ends]
      exact indexes trigram next
  | some newest =>
      simp only [NgramCache.insert, List.lookup_cons]
      by_cases same : trigram = newest
      · subst same
        rw [beq_self_eq_true]
        have ends := lastTrigram_eq_some_iff.mp last
        rw [lastFollows_concat_suffix ends]
        simp [eq_comm]
      · have ends : ¬ window trigram <:+ hist := by
          rw [← lastTrigram_eq_some_iff, last]
          intro equal
          exact same (Option.some.inj equal).symm
        rw [lastFollows_concat_of_not ends, beq_eq_false_iff_ne.mpr same]
        exact indexes trigram next

theorem indexes_new : Indexes .new [] := by
  intro trigram next
  exact iff_of_false (by rintro ⟨⟩) not_lastFollows_nil

/-- A trigram at the end does not change with the beginning. -/
theorem lastTrigram_cons (token : Token) {hist : List Token}
    (long : 3 ≤ hist.length) :
    lastTrigram (token :: hist) = lastTrigram hist := by
  unfold lastTrigram
  rw [← List.length_reverse] at long
  rw [List.reverse_cons]
  generalize hist.reverse = back at long ⊢
  rcases back with _ | ⟨a, _ | ⟨b, _ | ⟨c, rest⟩⟩⟩
  · simp at long
  · simp at long
  · simp at long
  · rfl

/-- The prompt is indexed as if its tokens were learnt one by one. -/
theorem ingest_concat (cache : NgramCache) (hist : List Token)
    (token : Token) :
    cache.ingest (hist ++ [token]) =
      (cache.ingest hist).learn hist token := by
  induction cache, hist using NgramCache.ingest.induct with
  | case1 cache first second third fourth rest ih =>
      have same : lastTrigram (first :: second :: third :: fourth :: rest) =
          lastTrigram (second :: third :: fourth :: rest) :=
        lastTrigram_cons first (by simp)
      rw [List.cons_append, List.cons_append, List.cons_append,
        List.cons_append, NgramCache.ingest, NgramCache.ingest,
        NgramCache.learn, same]
      exact ih
  | case2 hist cache short =>
      rcases hist with _ | ⟨a, _ | ⟨b, _ | ⟨c, _ | ⟨d, rest⟩⟩⟩⟩
      · rfl
      · rfl
      · rfl
      · rfl
      · exact (short a b c d rest rfl).elim

theorem indexes_ingest (hist : List Token) :
    Indexes (NgramCache.new.ingest hist) hist := by
  induction hist using List.reverseRecOn with
  | nil => exact indexes_new
  | append_singleton hist token ih =>
      rw [ingest_concat]
      exact ih.learn token

/-! ## Drafts -/

/-- The token is what last followed the three tokens at the end. -/
def Recalled (base hist : List Token) (token : Token) : Prop :=
  ∃ trigram, window trigram <:+ hist ∧
    LastFollows base (window trigram) token

/-- Each draft is recalled behind those before it, all from one table. -/
def Foretold (base : List Token) : List Token → List Token → Prop
  | _, [] => True
  | hist, draft :: drafts =>
    Recalled base hist draft ∧ Foretold base (hist ++ [draft]) drafts

theorem Indexes.foretold {base : List Token} (indexes : Indexes cache base)
    (hist : List Token) (room : Nat) :
    Foretold base hist (cache.draft hist room) := by
  induction room generalizing hist with
  | zero =>
      rw [NgramCache.draft]
      trivial
  | succ room induction =>
      rw [NgramCache.draft]
      split
      next next found =>
        rcases Option.bind_eq_some_iff.mp found with ⟨trigram, last, known⟩
        constructor
        · exact ⟨trigram, lastTrigram_eq_some_iff.mp last,
            (indexes trigram next).mp known⟩
        · exact induction _
      next => trivial

/-- The drafts that pass the check are the first ones. -/
theorem Foretold.take {base hist drafts verified : List Token}
    (foretold : Foretold base hist drafts)
    (kept : verified <+: drafts) : Foretold base hist verified := by
  induction verified generalizing hist drafts with
  | nil => trivial
  | cons draft verified induction =>
      rcases kept with ⟨rejected, rfl⟩
      exact ⟨foretold.1, induction foretold.2 ⟨rejected, rfl⟩⟩

/-- The commits in front of the newest batch. -/
def beforeBatch : List Commit → List Commit
  | [] => []
  | commit :: earlier =>
    if commit.origin = .drafted then beforeBatch earlier else earlier

/-- A draft is recalled from the tokens in front of its batch. -/
def Faithful (prompt : List Token) (commit : Commit)
    (earlier : List Commit) : Prop :=
  commit.origin = .drafted →
    Recalled (prompt ++ committed (beforeBatch earlier))
      (prompt ++ committed earlier) commit.token

/-- Every draft in a history is recalled. -/
def Recalls (prompt : List Token) : List Commit → Prop
  | [] => True
  | commit :: earlier =>
    Faithful prompt commit earlier ∧ Recalls prompt earlier

/-! ## Committing -/

section

variable {Context Sampler Decoder Logit : Type}
  [LinearOrder Logit] [OrderBot Logit]
  {backend : Backend Context Sampler Decoder Logit}
  {family : ReasonFamily} {prompt : List Token}
  {generation : Generation Context Sampler Decoder}

/-- The table of a generation that has one keeps up with its history. -/
def Current (prompt : List Token)
    (generation : Generation Context Sampler Decoder) : Prop :=
  ∀ cache hist, generation.ngram = some (cache, hist) →
    hist = prompt ++ committed generation.history ∧ Indexes cache hist

/-- The generation goes on, and its drafts were recalled. -/
structure Drafting (family : ReasonFamily) (prompt : List Token)
    (generation : Generation Context Sampler Decoder) : Prop where
  reading : Reading family generation
  current : Current prompt generation
  recalls : Recalls prompt generation.history

/-- The generation is over, and its drafts were recalled. -/
structure Drafted (prompt : List Token)
    (generation : Generation Context Sampler Decoder) : Prop where
  ended : Over generation
  recalls : Recalls prompt generation.history

omit [LinearOrder Logit] [OrderBot Logit] in
/-- A token that is committed is learnt. -/
theorem Drafting.commit (drafting : Drafting family prompt generation)
    {log : List (Splitter.Entry Char Mode)} {first token : Token}
    {origin : Origin}
    (faithful : origin = .drafted →
      Recalled (prompt ++ committed (beforeBatch generation.history))
        (prompt ++ committed generation.history) token)
    {progress : Progress (Generation Context Sampler Decoder)}
    (outcome :
      Outcome backend family generation log first token origin progress) :
    progress.Holds
      (fun next =>
        Drafting family prompt next ∧
          ∃ commit : Commit, next.history = commit :: generation.history ∧
            commit.token = token ∧ commit.origin = origin)
      (Drafted prompt) := by
  have read := drafting.reading.commit outcome
  cases outcome with
  | closed => exact ⟨read, drafting.recalls⟩
  | stopped => exact ⟨read, faithful, drafting.recalls⟩
  | @advanced piece decoder emit keep more next _ _ _ _ _ =>
      rcases (advance_advanced backend generation family first token origin
        piece decoder emit keep more next).eq with
        ⟨counted, _, _, _, _, equal⟩
      simp only [Progress.Holds, equal] at read ⊢
      refine ⟨⟨read, ?_, faithful, drafting.recalls⟩, _, rfl, rfl, rfl⟩
      intro cache hist kept
      rcases Option.map_eq_some_iff.mp kept with
        ⟨⟨before, past⟩, known, same⟩
      rcases drafting.current _ _ known with ⟨rfl, indexes⟩
      cases same
      rw [committed_cons]
      exact ⟨List.append_assoc _ _ _, indexes.learn token⟩

omit [LinearOrder Logit] [OrderBot Logit] in
/-- Within a batch the drafts that are left stay recalled. -/
theorem commitLoop_drafts {first : Token} {drafts : List Token}
    {next : Generation Context Sampler Decoder}
    (drafting : Drafting family prompt generation)
    (foretold :
      Foretold (prompt ++ committed (beforeBatch generation.history))
        (prompt ++ committed generation.history) drafts)
    (loop :
      Generation.commitLoop backend first
        (drafts.map fun draft => (draft, .drafted)) generation =
          .ok next) :
    Drafting family prompt next ∨ Drafted prompt next := by
  induction drafts generalizing generation with
  | nil =>
      cases loop
      exact Or.inl drafting
  | cons draft drafts induction =>
      rcases drafting.reading.parsed with ⟨log, state, known⟩
      rcases commitLoop_cons family known loop with
        ⟨progress, outcome, rest⟩
      have kept := drafting.commit (fun _ => foretold.1) outcome
      cases progress with
      | ended final =>
          cases rest
          exact Or.inr kept
      | more middle =>
          rcases kept with ⟨going, commit, history, rfl, drafted⟩
          refine induction going ?_ rest
          rw [history, beforeBatch, if_pos drafted, committed_cons,
            ← List.append_assoc]
          exact foretold.2

omit [LinearOrder Logit] [OrderBot Logit] in
/-- A batch is a token of its own with drafts that are recalled. -/
theorem commitLoop_batch {first : Token} {origin : Origin}
    {drafts : List Token} {next : Generation Context Sampler Decoder}
    (drafting : Drafting family prompt generation)
    (chosen : origin ≠ .drafted)
    (foretold :
      Foretold (prompt ++ committed generation.history)
        (prompt ++ committed generation.history ++ [first]) drafts)
    (loop :
      Generation.commitLoop backend first
        ((first, origin) :: drafts.map fun draft => (draft, .drafted))
        generation = .ok next) :
    Drafting family prompt next ∨ Drafted prompt next := by
  rcases drafting.reading.parsed with ⟨log, state, known⟩
  rcases commitLoop_cons family known loop with ⟨progress, outcome, rest⟩
  have kept :=
    drafting.commit (fun drafted => (chosen drafted).elim) outcome
  cases progress with
  | ended final =>
      cases rest
      exact Or.inr kept
  | more middle =>
      rcases kept with ⟨going, commit, history, rfl, rfl⟩
      refine commitLoop_drafts going ?_ rest
      rw [history, beforeBatch, if_neg chosen, committed_cons,
        ← List.append_assoc]
      exact foretold

/-! ## Runs -/

omit [LinearOrder Logit] [OrderBot Logit] in
/-- The drafts of a table that is current are recalled. -/
theorem Current.drafts (current : Current prompt generation)
    (backend : Backend Context Sampler Decoder Logit) (token : Token) :
    Foretold (prompt ++ committed generation.history)
      (prompt ++ committed generation.history ++ [token])
      (generation.drafts backend token) := by
  unfold Generation.drafts
  cases kept : generation.ngram with
  | none => trivial
  | some table =>
      rcases table with ⟨cache, hist⟩
      rcases current cache hist kept with ⟨rfl, indexes⟩
      exact indexes.foretold _ _

/-- The drafts that are verified are among those of the table. -/
theorem decodeDrafts_verified {token : Token} {verified : List Token}
    {decoded : Generation Context Sampler Decoder}
    (drafted :
      generation.decodeDrafts backend token = .ok (verified, decoded)) :
    verified <+: generation.drafts backend token := by
  simp only [Generation.decodeDrafts] at drafted
  split at drafted
  · cases drafted
  · cases drafted
    exact verify_prefix_drafts backend _ _ _

omit [OrderBot Logit] in
/-- A token that is chosen is no draft. -/
theorem chooseToken_origin {token : Token} {origin : Origin}
    {chosen : Generation Context Sampler Decoder}
    (choice :
      generation.chooseToken backend = .ok (token, origin, chosen)) :
    origin ≠ .drafted := by
  unfold Generation.chooseToken at choice
  by_cases force : generation.forceKind = .force
  · simp only [force, if_true] at choice
    cases fill : generation.fillInject backend with
    | error failure =>
        rw [fill] at choice
        cases choice
    | ok filled =>
        simp only [fill, Bind.bind, Except.bind] at choice
        split at choice
        · cases choice
          rintro ⟨⟩
        · split at choice
          · cases choice
          · cases choice
            rintro ⟨⟩
  · simp only [force, if_false] at choice
    cases sampled : generation.sampleNext backend generation.forceKind with
    | error failure =>
        rw [sampled] at choice
        cases choice
    | ok result =>
        rw [sampled] at choice
        cases choice
        rintro ⟨⟩

/-- The last event is queued, and no token is committed. -/
theorem Drafting.queueTerminal (drafting : Drafting family prompt generation)
    (reason : StopReason) {next : Generation Context Sampler Decoder}
    (queued : generation.queueTerminal reason = .ok next) :
    Drafted prompt next := by
  rcases drafting.reading.parsed with ⟨log, state, known⟩
  rcases known.queueTerminal reason with ⟨more, after, closed, -⟩
  rw [closed] at queued
  cases queued
  exact ⟨⟨rfl, rfl⟩, drafting.recalls⟩

omit [OrderBot Logit] in
theorem Drafting.choose (drafting : Drafting family prompt generation)
    {token : Token} {origin : Origin}
    {chosen : Generation Context Sampler Decoder}
    (choice :
      generation.chooseToken backend = .ok (token, origin, chosen)) :
    Drafting family prompt chosen := by
  have read := drafting.reading.choose choice
  rcases chooseToken_frame backend choice with
    ⟨_, _, sampler, _, _, _, rfl, -⟩
  exact ⟨read, drafting.current, drafting.recalls⟩

/-- A decode step keeps the table and commits drafts that it recalls. -/
theorem decodeStep_drafting {next : Generation Context Sampler Decoder}
    (drafting : Drafting family prompt generation)
    (step : generation.decodeStep backend = .ok next) :
    Drafting family prompt next ∨ Drafted prompt next := by
  have view := decodeStep_stepping backend generation
  generalize generation.decodeStep backend = result at view step
  cases view with
  | full => exact Or.inr (drafting.queueTerminal _ step)
  | unchosen => cases step
  | eos _ choice =>
      exact Or.inr ((drafting.choose choice).queueTerminal _ step)
  | undecoded => cases step
  | @commits token origin chosen decoded verified _ choice _ drafted =>
      have ready := drafting.choose choice
      have foretold := (ready.current.drafts backend token).take
        (decodeDrafts_verified drafted)
      have read := ready.reading.decode drafted
      rcases decodeDrafts_frame backend drafted with ⟨_, _, _, rfl⟩
      refine commitLoop_batch ⟨read, ready.current, ready.recalls⟩
        (chooseToken_origin choice) ?_ step
      exact foretold

theorem drafting_invariant
    (backend : Backend Context Sampler Decoder Logit)
    (family : ReasonFamily) (prompt : List Token) :
    Invariant backend (fun _ _ => True)
      (fun _ (generation : Generation Context Sampler Decoder) =>
        Drafting family prompt generation)
      (fun _ generation => Drafted prompt generation) where
  alive drafting := ⟨drafting.reading.alive, drafting.reading.unqueued⟩
  gone drafted := ⟨drafted.ended.dropped, drafted.ended.drained⟩
  ready := by
    rintro past rest event generation
      ⟨⟨⟨log, state, parsed⟩, alive, unqueued⟩, current, recalls⟩ -
    exact ⟨⟨⟨log, state, parsed.feeds, parsed.reason⟩, alive, unqueued⟩,
      current, recalls⟩
  terminal := by
    rintro past rest event generation ⟨⟨dropped, drained⟩, recalls⟩ -
    exact ⟨⟨dropped, drained⟩, recalls⟩
  prefill := by
    rintro past generation next
      ⟨⟨⟨log, state, parsed⟩, alive, unqueued⟩, current, recalls⟩ - step
    rcases prefillStep_frame backend step with
      ⟨context, position, index, rfl⟩
    exact ⟨⟨⟨log, state, parsed.feeds, parsed.reason⟩, alive, unqueued⟩,
      current, recalls⟩
  decode drafting step _ := decodeStep_drafting drafting step

end

section

variable {Context Sampler Decoder Logit : Type}
  [LinearOrder Logit] [OrderBot Logit]
  (backend : Backend Context Sampler Decoder Logit)
  (context : Context) (restored : Option Context) (request : Request)
  (constrained : Option Sampler)
  (toolReply : Option (Text → Text × List ToolCall))

omit [LinearOrder Logit] [OrderBot Logit] in
/-- At first the table holds the prompt. -/
theorem drafting_start :
    Drafting backend.family request.promptTokens
      (generate backend context restored request constrained
        toolReply) where
  reading :=
    reading_start backend context restored request constrained toolReply
  current := by
    intro cache hist kept
    cases constrained with
    | some sampler => cases kept
    | none =>
        change (if _ then _ else none) = _ at kept
        split at kept
        · cases kept
          exact ⟨(List.append_nil _).symm, indexes_ingest _⟩
        · cases kept
  recalls := by
    cases constrained with
    | some sampler => trivial
    | none => trivial

/-- Along every run the table is what last followed each trigram of the prompt
and the tokens committed, and every draft is what last followed the three
tokens in front of it before its batch began. -/
theorem drafts_recall {events : List GenEvent}
    {later : Generation Context Sampler Decoder}
    (run :
      Run backend
        (generate backend context restored request constrained toolReply)
        events later) :
    Recalls request.promptTokens later.history ∧
      (later.sampler.isSome → Current request.promptTokens later) := by
  have start :=
    drafting_start backend context restored request constrained toolReply
  rcases (drafting_invariant backend backend.family
    request.promptTokens).run_start run.always start with going | ended
  · exact ⟨going.recalls, fun _ => going.current⟩
  · refine ⟨ended.recalls, fun alive => ?_⟩
    rw [ended.ended.dropped] at alive
    cases alive

end

/-- Behind 1 2 1 the prompt has 2. -/
theorem drafts_recall_alternating :
    ∃ events later,
      Run SamplerLog.alternating
          (generate SamplerLog.alternating ([], []) none
            { repeatRequest 1 with
              promptTokens := [1, 2, 1, 2], draftN := 1, ngram := true }
            none none)
          events later ∧
        later.history.map Commit.token = [2, 1] ∧
        later.history.map Commit.origin = [.drafted, .sampled] ∧
        Recalls [1, 2, 1, 2] later.history := by
  rcases exists_run_of_ticks SamplerLog.alternating
    (generate SamplerLog.alternating ([], []) none
      { repeatRequest 1 with
        promptTokens := [1, 2, 1, 2], draftN := 1, ngram := true }
      none none) 2
    (fun later =>
      decide (later.history.map Commit.token = [2, 1]) &&
        decide (later.history.map Commit.origin = [.drafted, .sampled]))
    (by decide +kernel) with
    ⟨events, later, run, checked⟩
  rw [Bool.and_eq_true, decide_eq_true_eq, decide_eq_true_eq] at checked
  rcases checked with ⟨tokens, origins⟩
  refine ⟨events, later, run, tokens, origins, ?_⟩
  exact (drafts_recall SamplerLog.alternating ([], []) none
    { repeatRequest 1 with
      promptTokens := [1, 2, 1, 2], draftN := 1, ngram := true }
    none none run).1

end Runa.Engine.DraftTable
