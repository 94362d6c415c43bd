import Runa.Engine.GenerateRun

/-!
# The prefill of a prompt

`prefill_step` until `prefill_done`.  The batches are the prompt cut into
pieces of the batch size; the run is these batches decoded in turn, and it ends
where a restored prompt begins (`prefill_eq`).
-/

namespace Runa.Engine.Prefill

open Runa.Stream.Utf8
open Runa.Engine.Ngram
open Runa.Engine.Sampling
open Runa.Engine.Generate

variable {Context Sampler Decoder Logit : Type}
variable (backend : Backend Context Sampler Decoder Logit)

theorem batchSize_pos : 0 < backend.batchSize :=
  Nat.lt_of_lt_of_le Nat.one_pos (Nat.le_max_right _ _)

/-! ## One step -/

/-- The items that the next step decodes. -/
def nextBatch (generation : Generation Context Sampler Decoder) :
    List BatchItem :=
  let size := backend.batchSize
  let start := generation.prefillChunk * size
  let stop := min (start + size) generation.promptTokens.length
  ((generation.promptTokens.drop start).take (stop - start)).zipIdx.map
    fun (item, index) =>
      { token := item
        position := generation.nPast + index
        logits := decide (index + 1 = stop - start) }

/-- A generation after a prompt chunk. -/
def advance (generation : Generation Context Sampler Decoder)
    (context : Context) : Generation Context Sampler Decoder :=
  { generation with
    context := context
    nPast := generation.nPast + (nextBatch backend generation).length
    lastIdx := ((nextBatch backend generation).length : Int) - 1
    prefillChunk := generation.prefillChunk + 1 }

theorem length_nextBatch
    (generation : Generation Context Sampler Decoder) :
    (nextBatch backend generation).length =
      min backend.batchSize
        (generation.promptTokens.length -
          generation.prefillChunk * backend.batchSize) := by
  simp only [nextBatch, List.length_map, List.length_zipIdx, List.length_take,
    List.length_drop]
  omega

theorem prefillStep_eq (generation : Generation Context Sampler Decoder) :
    generation.prefillStep backend =
      (backend.decode generation.context (nextBatch backend generation)).elim
        (.error .decode) fun context =>
          .ok (advance backend generation context) := by
  have length := length_nextBatch backend generation
  have same :
      min (generation.prefillChunk * backend.batchSize + backend.batchSize)
            generation.promptTokens.length -
          generation.prefillChunk * backend.batchSize =
        (nextBatch backend generation).length := by
    omega
  cases decoded :
      backend.decode generation.context (nextBatch backend generation) with
  | none =>
      rw [nextBatch] at decoded
      simp only [Generation.prefillStep, decoded, Option.elim_none]
  | some context =>
      rw [nextBatch] at decoded
      simp only [Generation.prefillStep, decoded]
      rw [Option.elim_some, advance, same]

theorem prefillDone_eq_false
    {generation : Generation Context Sampler Decoder} :
    generation.prefillDone backend = false ↔
      generation.cacheHit = false ∧
        generation.prefillChunk * backend.batchSize <
          generation.promptTokens.length := by
  rw [Generation.prefillDone, Bool.or_eq_false_iff,
    decide_eq_false_iff_not, not_le]

/-! ## The whole prefill -/

/-- `prefill_step` until `prefill_done`. -/
def prefill (generation : Generation Context Sampler Decoder) :
    Except Failure (Generation Context Sampler Decoder) :=
  if _more : generation.prefillDone backend = false then
    match _step : generation.prefillStep backend with
    | .ok next => prefill next
    | .error failure => .error failure
  else
    .ok generation
termination_by
  generation.promptTokens.length -
    generation.prefillChunk * backend.batchSize
decreasing_by
  rcases prefillStep_frame backend _step with ⟨_, _, _, rfl⟩
  have ahead := ((prefillDone_eq_false backend).mp _more).2
  have size := batchSize_pos backend
  simp only [Nat.succ_mul]
  omega

theorem prefill_of_done
    {generation : Generation Context Sampler Decoder}
    (done : generation.prefillDone backend = true) :
    prefill backend generation = .ok generation := by
  rw [prefill, dif_neg (by simp [done])]

theorem prefill_of_more
    {generation : Generation Context Sampler Decoder}
    (more : generation.prefillDone backend = false) :
    prefill backend generation =
      (backend.decode generation.context (nextBatch backend generation)).elim
        (.error .decode) fun context =>
          prefill backend (advance backend generation context) := by
  have step := prefillStep_eq backend generation
  rw [prefill, dif_pos more]
  cases decoded :
      backend.decode generation.context (nextBatch backend generation) with
  | none =>
      rw [decoded] at step
      split
      · next eq => rw [step] at eq; cases eq
      · next eq => rw [step] at eq; cases eq; rfl
  | some context =>
      rw [decoded] at step
      split
      · next eq => rw [step] at eq; cases eq; rfl
      · next eq => rw [step] at eq; cases eq

/-- A token with the position it is decoded at. -/
def place (item : BatchItem) : Token × Int :=
  (item.token, item.position)

/-- Tokens in turn, from a position on. -/
def placed (tokens : List Token) (start : Nat) : List (Token × Int) :=
  (tokens.zipIdx start).map fun (token, index) => (token, (index : Int))

theorem placed_append (front back : List Token) (start : Nat) :
    placed (front ++ back) start =
      placed front start ++ placed back (start + front.length) := by
  simp only [placed, List.zipIdx_append, List.map_append]

/-- A batch is the next piece of the prompt, at its own place. -/
theorem place_nextBatch
    {generation : Generation Context Sampler Decoder}
    (past :
      generation.nPast =
        (generation.prefillChunk * backend.batchSize : Nat)) :
    (nextBatch backend generation).map place =
      placed
        ((generation.promptTokens.drop
          (generation.prefillChunk * backend.batchSize)).take
            (nextBatch backend generation).length)
        (generation.prefillChunk * backend.batchSize) := by
  have length := length_nextBatch backend generation
  have same :
      min (generation.prefillChunk * backend.batchSize + backend.batchSize)
            generation.promptTokens.length -
          generation.prefillChunk * backend.batchSize =
        (nextBatch backend generation).length := by
    omega
  apply List.ext_getElem
  · simp only [placed, List.length_map, List.length_zipIdx, List.length_take,
      List.length_drop]
    omega
  · intro index small _
    simp only [nextBatch, placed, place, List.getElem_map, List.getElem_zipIdx,
      List.getElem_take, past]
    push_cast
    rw [zero_add]

/-- The logits index of the last chunk. -/
theorem lastPrefillIdx_eq {tokens chunks : Nat}
    (more : chunks * backend.batchSize < tokens)
    (last : tokens ≤ (chunks + 1) * backend.batchSize) :
    lastPrefillIdx tokens backend.nBatch =
      ((tokens - chunks * backend.batchSize : Nat) : Int) - 1 := by
  have positive := batchSize_pos backend
  rw [lastPrefillIdx, if_neg (by omega)]
  change
    (((if tokens % backend.batchSize = 0 then
        min backend.batchSize tokens
      else tokens % backend.batchSize) : Nat) : Int) - 1 = _
  have rest :
      tokens % backend.batchSize =
        (tokens - chunks * backend.batchSize) % backend.batchSize := by
    conv_lhs =>
      rw [← Nat.sub_add_cancel more.le, Nat.add_mul_mod_self_right]
  rw [Nat.succ_mul] at last
  rw [rest]
  rcases Nat.lt_or_ge (tokens - chunks * backend.batchSize)
    backend.batchSize with part | whole
  · rw [Nat.mod_eq_of_lt part, if_neg (by omega)]
  · have full :
        tokens - chunks * backend.batchSize = backend.batchSize := by
      omega
    rw [full, Nat.mod_self, if_pos rfl, min_eq_left (by omega)]

/-- A generation whose prompt is decoded. -/
def filled (generation : Generation Context Sampler Decoder)
    (context : Context) (chunks : Nat) :
    Generation Context Sampler Decoder :=
  { generation with
    context := context
    nPast := generation.promptTokens.length
    lastIdx :=
      lastPrefillIdx generation.promptTokens.length backend.nBatch
    prefillChunk := chunks }

section

variable {backend}
variable {generation : Generation Context Sampler Decoder}

/-- A chunk behind which there is more of the prompt is full. -/
theorem length_nextBatch_of_lt
    (between :
      (generation.prefillChunk + 1) * backend.batchSize <
        generation.promptTokens.length) :
    (nextBatch backend generation).length = backend.batchSize := by
  have length := length_nextBatch backend generation
  rw [Nat.succ_mul] at between
  omega

theorem length_nextBatch_of_le
    (last :
      generation.promptTokens.length ≤
        (generation.prefillChunk + 1) * backend.batchSize) :
    (nextBatch backend generation).length =
      generation.promptTokens.length -
        generation.prefillChunk * backend.batchSize := by
  have length := length_nextBatch backend generation
  rw [Nat.succ_mul] at last
  omega

/-- A chunk is not empty while there is more of the prompt. -/
theorem nextBatch_bounds (more : generation.prefillDone backend = false) :
    nextBatch backend generation ≠ [] ∧
      (nextBatch backend generation).length ≤ backend.batchSize := by
  have positive := batchSize_pos backend
  have ahead := ((prefillDone_eq_false backend).mp more).2
  have length := length_nextBatch backend generation
  constructor
  · apply List.ne_nil_of_length_pos
    omega
  · omega

/-- Behind a full chunk the prompt goes on where the chunk ends. -/
theorem place_full_cons
    (past :
      generation.nPast =
        (generation.prefillChunk * backend.batchSize : Nat))
    (between :
      (generation.prefillChunk + 1) * backend.batchSize <
        generation.promptTokens.length)
    {batches : List (List BatchItem)}
    (rest :
      batches.flatten.map place =
        placed
          (generation.promptTokens.drop
            ((generation.prefillChunk + 1) * backend.batchSize))
          ((generation.prefillChunk + 1) * backend.batchSize)) :
    (nextBatch backend generation :: batches).flatten.map place =
      placed
        (generation.promptTokens.drop
          (generation.prefillChunk * backend.batchSize))
        (generation.prefillChunk * backend.batchSize) := by
  have full := length_nextBatch_of_lt between
  rw [List.flatten_cons, List.map_append, rest,
    place_nextBatch backend past, full]
  rw [Nat.succ_mul] at between ⊢
  rw [← List.drop_drop]
  conv_rhs =>
    rw [← List.take_append_drop backend.batchSize
      (generation.promptTokens.drop _), placed_append]
  rw [List.length_take, List.length_drop, min_eq_left (by omega)]

/-- The last chunk ends the prefill. -/
theorem prefill_last (more : generation.prefillDone backend = false)
    (past :
      generation.nPast =
        (generation.prefillChunk * backend.batchSize : Nat))
    (last :
      generation.promptTokens.length ≤
        (generation.prefillChunk + 1) * backend.batchSize) :
    prefill backend generation =
      (backend.decode generation.context (nextBatch backend generation)).elim
        (.error .decode) fun context =>
          .ok
            (filled backend generation context
              (generation.prefillChunk + 1)) := by
  have ahead := ((prefillDone_eq_false backend).mp more).2
  have length := length_nextBatch_of_le last
  have whole :
      (generation.prefillChunk * backend.batchSize : Nat) +
          ((generation.promptTokens.length -
            generation.prefillChunk * backend.batchSize : Nat) : Int) =
        generation.promptTokens.length := by
    omega
  have reached : ∀ context,
      advance backend generation context =
        filled backend generation context (generation.prefillChunk + 1) := by
    intro context
    rw [advance, length, past, whole, ← lastPrefillIdx_eq backend ahead last]
    rfl
  rw [prefill_of_more backend more]
  cases backend.decode generation.context (nextBatch backend generation) with
  | none => rfl
  | some context =>
      have done :
          (advance backend generation context).prefillDone backend =
            true := by
        rw [← Bool.not_eq_false, prefillDone_eq_false]
        exact fun more => absurd more.2 (Nat.not_lt.mpr last)
      change prefill backend (advance backend generation context) = _
      rw [prefill_of_done backend done, reached]
      rfl

/-- A full chunk leaves a generation that is not done, at its own place. -/
theorem advance_full (more : generation.prefillDone backend = false)
    (past :
      generation.nPast =
        (generation.prefillChunk * backend.batchSize : Nat))
    (between :
      (generation.prefillChunk + 1) * backend.batchSize <
        generation.promptTokens.length) (context : Context) :
    (advance backend generation context).prefillDone backend = false ∧
      (advance backend generation context).nPast =
        ((advance backend generation context).prefillChunk *
          backend.batchSize : Nat) := by
  constructor
  · exact (prefillDone_eq_false backend).mpr
      ⟨((prefillDone_eq_false backend).mp more).1, between⟩
  · rw [advance, length_nextBatch_of_lt between, past, Nat.succ_mul,
      Nat.cast_add]

end

/-- From any chunk on, the rest of the prompt is decoded once and in turn. -/
theorem prefill_batches
    (generation : Generation Context Sampler Decoder)
    (more : generation.prefillDone backend = false)
    (past :
      generation.nPast =
        (generation.prefillChunk * backend.batchSize : Nat)) :
    ∃ batches : List (List BatchItem),
      (∀ batch ∈ batches,
        batch ≠ [] ∧ batch.length ≤ backend.batchSize) ∧
      batches.flatten.map place =
        placed
          (generation.promptTokens.drop
            (generation.prefillChunk * backend.batchSize))
          (generation.prefillChunk * backend.batchSize) ∧
      prefill backend generation =
        (batches.foldlM backend.decode generation.context).elim
          (.error .decode) fun context =>
            .ok
              (filled backend generation context
                (generation.prefillChunk + batches.length)) := by
  have positive := batchSize_pos backend
  have ahead := ((prefillDone_eq_false backend).mp more).2
  have bounds := nextBatch_bounds more
  rcases Nat.lt_or_ge ((generation.prefillChunk + 1) * backend.batchSize)
    generation.promptTokens.length with between | last
  · -- A full chunk, with more of the prompt behind it.
    have step := prefill_of_more backend more
    cases decoded :
        backend.decode generation.context (nextBatch backend generation) with
    | none =>
        rcases advance_full more past between generation.context with
          ⟨later, onward⟩
        rcases prefill_batches _ later onward with
          ⟨batches, small, covered, -⟩
        refine ⟨nextBatch backend generation :: batches,
          List.forall_mem_cons.mpr ⟨bounds, small⟩,
          place_full_cons past between covered, ?_⟩
        rw [step, List.foldlM_cons, decoded]
        rfl
    | some context =>
        rcases advance_full more past between context with ⟨later, onward⟩
        rcases prefill_batches _ later onward with
          ⟨batches, small, covered, run⟩
        refine ⟨nextBatch backend generation :: batches,
          List.forall_mem_cons.mpr ⟨bounds, small⟩,
          place_full_cons past between covered, ?_⟩
        rw [step, List.foldlM_cons, decoded]
        change prefill backend (advance backend generation context) = _
        rw [run, List.length_cons, Nat.add_comm batches.length,
          ← Nat.add_assoc]
        rfl
  · -- The last chunk.
    refine ⟨[nextBatch backend generation], ?_, ?_, ?_⟩
    · exact List.forall_mem_singleton.mpr bounds
    · rw [List.flatten_singleton, place_nextBatch backend past,
        List.take_of_length_le]
      rw [List.length_drop, length_nextBatch_of_le last]
    · rw [prefill_last more past last, List.foldlM_cons]
      cases backend.decode generation.context
          (nextBatch backend generation) with
      | none => rfl
      | some context => rfl
termination_by
  generation.promptTokens.length -
    generation.prefillChunk * backend.batchSize
decreasing_by
  all_goals
    simp only [advance, Nat.succ_mul]
    omega

/-- Where a prefill ends, and where a restored prompt begins. -/
structure AtPromptEnd
    (generation : Generation Context Sampler Decoder) : Prop where
  done : generation.prefillDone backend = true
  past : generation.nPast = generation.promptTokens.length
  index :
    generation.lastIdx =
      lastPrefillIdx generation.promptTokens.length backend.nBatch

theorem length_flatten_le {batches : List (List BatchItem)} {size : Nat}
    (small : ∀ batch ∈ batches, batch.length ≤ size) :
    batches.flatten.length ≤ batches.length * size := by
  induction batches with
  | nil => exact Nat.zero_le _
  | cons batch rest induction =>
      have first := small batch List.mem_cons_self
      have others :=
        induction fun batch member =>
          small batch (List.mem_cons_of_mem _ member)
      rw [List.flatten_cons, List.length_append, List.length_cons,
        Nat.succ_mul]
      omega

/-- Enough batches were decoded. -/
theorem filled_atPromptEnd
    {generation : Generation Context Sampler Decoder}
    {batches : List (List BatchItem)}
    (small : ∀ batch ∈ batches, batch.length ≤ backend.batchSize)
    (covered :
      batches.flatten.map place = placed generation.promptTokens 0)
    (context : Context) :
    AtPromptEnd backend
      (filled backend generation context batches.length) where
  done := by
    have length := congrArg List.length covered
    rw [List.length_map, placed, List.length_map, List.length_zipIdx]
      at length
    have enough := length_flatten_le small
    rw [length] at enough
    simp only [filled, Generation.prefillDone, Bool.or_eq_true]
    exact Or.inr (decide_eq_true enough)
  past := rfl
  index := rfl

section Starting

variable (context : Context) (restored : Option Context) (request : Request)
  (constrained : Option Sampler)
  (toolReply : Option (Text → Text × List ToolCall))

theorem generate_promptTokens :
    (generate backend context restored request constrained
      toolReply).promptTokens = request.promptTokens := by
  cases constrained <;> rfl

theorem generate_prefillChunk :
    (generate backend context restored request constrained
      toolReply).prefillChunk = 0 := by
  cases constrained <;> rfl

theorem generate_cacheHit :
    (generate backend context restored request constrained
        toolReply).cacheHit =
      (request.prefilled.isSome ||
        (if request.useCache then restored else none).isSome) := by
  cases constrained <;> rfl

variable {context restored request constrained toolReply}

/-- Without a cached prompt the prefill begins on a cleared context. -/
theorem generate_fresh
    (fresh :
      (generate backend context restored request constrained
        toolReply).cacheHit = false) :
    request.prefilled = none ∧
      (generate backend context restored request constrained
        toolReply).nPast = 0 ∧
      (generate backend context restored request constrained
        toolReply).context = backend.clearKv context := by
  rw [generate_cacheHit, Bool.or_eq_false_iff, Option.isSome_eq_false_iff,
    Option.isNone_iff_eq_none, Option.isSome_eq_false_iff,
    Option.isNone_iff_eq_none] at fresh
  rcases fresh with ⟨alone, missed⟩
  refine ⟨alone, ?_⟩
  cases constrained <;>
    simp [generate, startGeneration, Generation.constrain, alone, missed]

/-- A restored prompt is at its end. -/
theorem generate_restored
    (alone : request.prefilled = none) (cached : Context) :
    AtPromptEnd backend
      (generate backend context (some cached)
        { request with useCache := true } constrained toolReply) where
  done := by
    rw [Generation.prefillDone, generate_cacheHit]
    simp
  past := by
    cases constrained <;>
      simp [generate, startGeneration, Generation.constrain, alone]
  index := by
    cases constrained <;>
      simp [generate, startGeneration, Generation.constrain, alone]

end Starting

/--
A fresh generation prefills its prompt in pieces of the batch size, which is
one where `n_batch` is zero, and ends where a restored one begins.
-/
theorem prefill_prompt
    (context : Context) (restored : Option Context) (request : Request)
    (constrained : Option Sampler)
    (toolReply : Option (Text → Text × List ToolCall))
    (nonempty : request.promptTokens ≠ [])
    (fresh :
      (generate backend context restored request constrained
        toolReply).cacheHit = false) :
    ∃ batches : List (List BatchItem),
      (∀ batch ∈ batches,
        batch ≠ [] ∧ batch.length ≤ max backend.nBatch 1) ∧
      batches.flatten.map place = placed request.promptTokens 0 ∧
      prefill backend
          (generate backend context restored request constrained
            toolReply) =
        (batches.foldlM backend.decode (backend.clearKv context)).elim
          (.error .decode) (fun decoded =>
            .ok
              (filled backend
                (generate backend context restored request constrained
                  toolReply)
                decoded batches.length)) ∧
      (∀ decoded,
        AtPromptEnd backend
          (filled backend
            (generate backend context restored request constrained
              toolReply)
            decoded batches.length)) ∧
      ∀ other cached,
        AtPromptEnd backend
          (generate backend other (some cached)
            { request with useCache := true } constrained toolReply) := by
  rcases generate_fresh backend fresh with ⟨alone, past, cleared⟩
  have tokens :=
    generate_promptTokens backend context restored request constrained
      toolReply
  have chunk :=
    generate_prefillChunk backend context restored request constrained
      toolReply
  have more :
      (generate backend context restored request constrained
        toolReply).prefillDone backend = false := by
    rw [prefillDone_eq_false, chunk, tokens, Nat.zero_mul]
    exact ⟨fresh, List.length_pos_of_ne_nil nonempty⟩
  rcases prefill_batches backend _ more
    (by rw [past, chunk, Nat.zero_mul]; rfl) with
    ⟨batches, small, covered, run⟩
  rw [chunk, Nat.zero_mul, List.drop_zero] at covered
  refine ⟨batches, small, ?_, ?_, ?_, ?_⟩
  · rw [covered, tokens]
  · rw [run, cleared, chunk, Nat.zero_add]
  · exact
      filled_atPromptEnd backend (fun batch member => (small batch member).2)
        covered
  · exact fun other cached => generate_restored backend alone cached

/-! ## Concrete prompts -/

/-- A backend that keeps the batches it decodes. -/
def keeping (batch : Nat) :
    Backend (List (List BatchItem)) Unit Unit Nat where
  nBatch := batch
  nCtx := 64
  chatTemplate := none
  tokenEos := 0
  decode batches next := some (batches ++ [next])
  logits _ _ := []
  bump batches _ _ := batches
  clearFrom batches _ := batches
  clearKv _ := []
  chain _ := ()
  sample _ _ _ := (0, ())
  accept _ _ := ()
  draw _ _ seed := (0, seed)
  newDecoder := ()
  tokenToPiece _ _ := some ([], ())
  strToToken _ := none

/-- Without an `n_batch` the batches have one token. -/
theorem prefill_unbatched :
    ∃ final,
      prefill (keeping 0)
          (generate (keeping 0) [] none (plainRequest []) none none) =
        .ok final ∧
        ∃ batch ∈ final.context, (keeping 0).nBatch < batch.length := by
  refine
    ⟨advance (keeping 0)
      (generate (keeping 0) [] none (plainRequest []) none none)
      [[{ token := 1, position := 0, logits := true }]], ?_,
      [{ token := 1, position := 0, logits := true }],
      List.mem_singleton_self _, Nat.one_pos⟩
  rw [prefill_of_more _ (by decide)]
  exact prefill_of_done _ (by decide)

/-- Three tokens in batches of two. -/
theorem prefill_pairs :
    ∃ batches : List (List BatchItem),
      batches.flatten.map place = [(5, 0), (6, 1), (7, 2)] ∧
        ∀ batch ∈ batches, batch.length ≤ 2 := by
  rcases prefill_prompt (keeping 2) [] none
    { plainRequest [] with promptTokens := [5, 6, 7] } none none
    (List.cons_ne_nil _ _) (by decide) with ⟨batches, small, covered, -⟩
  exact ⟨batches, covered, fun batch member => (small batch member).2⟩

end Runa.Engine.Prefill
