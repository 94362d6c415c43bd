import Runa.Cloud.Anthropic
import Runa.Json.Codec

/-!
# Streamed and whole replies of the Anthropic client

The transcript of a stream as the values of its data lines, the steps these
values are for the blocks, and what `parse_sse` makes of them when the steps
of several blocks are mixed.  It is what `parse_message` makes of the whole
reply.
-/

namespace Runa.Cloud.Streams

open Runa.Stream.Utf8
open Runa.Stream.Lines
open Runa.Engine.Generate (ToolCall)
open Runa.Json
open Runa.Store
open Runa.Cloud.Anthropic

/-! ## Transcripts -/

/-- One event of a stream: the lines before its data, such as its name, and
the data, which is the text of an object. -/
structure SseFrame where
  fields : List Text
  pad : Text
  data : Text
  others : ∀ field ∈ fields, field ≠ [] ∧ dataField field = none
  blank : Blank pad
  object : ∃ more, data = '{' :: more

def SseFrame.lines (frame : SseFrame) : List Text :=
  frame.fields ++ ["data:".toList ++ (frame.pad ++ frame.data), []]

/-- A text is the transcript of some values. -/
def Transcript (serde : Serde) (text : Text) (values : List Value) : Prop :=
  ∃ frames : List SseFrame,
    lines text = frames.flatMap SseFrame.lines ∧
      List.Forall₂ (fun frame value => serde.parse frame.data = .ok value)
        frames values

theorem SseFrame.trimStart_data (frame : SseFrame) :
    trimStart (frame.pad ++ frame.data) = frame.data := by
  obtain ⟨more, data⟩ := frame.object
  rw [trimStart_blank frame.blank, data, trimStart_cons (by decide)]

theorem push_frame {serde : Serde} {frame : SseFrame} {value : Value}
    (read : serde.parse frame.data = .ok value) (state : SseState) :
    pushSseEvent serde frame.data state = .ok (state.value serde value) := by
  obtain ⟨more, data⟩ := frame.object
  rw [pushSseEvent, if_neg, read]
  · rfl
  · rw [data, trim_cons (by decide)]
    rintro (none | done)
    · cases none
    · cases done

/-- Lines without data do nothing before the data. -/
theorem foldlM_fields {serde : Serde} {fields : List Text}
    (others : ∀ field ∈ fields, field ≠ [] ∧ dataField field = none)
    (state : SseState) :
    fields.foldlM (sseLine serde) ([], state) = .ok ([], state) := by
  induction fields with
  | nil => rfl
  | cons field later ih =>
      obtain ⟨some, other⟩ := others field List.mem_cons_self
      have here : sseLine serde ([], state) field = .ok ([], state) := by
        rw [sseLine, other]
        cases field with
        | nil => exact absurd rfl some
        | cons char more => rfl
      rw [List.foldlM_cons, here]
      exact ih fun field member =>
        others field (List.mem_cons_of_mem _ member)

theorem foldlM_frame {serde : Serde} {frame : SseFrame} {value : Value}
    (read : serde.parse frame.data = .ok value) (state : SseState) :
    frame.lines.foldlM (sseLine serde) ([], state) =
      .ok ([], state.value serde value) := by
  have data :
      sseLine serde ([], state)
          ("data:".toList ++ (frame.pad ++ frame.data)) =
        .ok (frame.data, state) := by
    show Except.ok ([] ++ trimStart (frame.pad ++ frame.data), state) = _
    rw [frame.trimStart_data, List.nil_append]
  have ended :
      sseLine serde (frame.data, state) [] =
        .ok ([], state.value serde value) := by
    obtain ⟨more, same⟩ := frame.object
    have pushed := push_frame read state
    rw [same] at pushed ⊢
    show (do
      let state ← pushSseEvent serde _ state
      return (([] : Text), state)) = _
    rw [pushed]
    rfl
  rw [SseFrame.lines, List.foldlM_append, foldlM_fields frame.others]
  simp only [bind, Except.bind, List.foldlM_cons, data, ended]
  rfl

/-- A transcript is read value by value. -/
theorem parseSse_transcript {serde : Serde} {text : Text}
    {values : List Value} (transcript : Transcript serde text values) :
    parseSse serde text =
      .ok
        (let state :=
          values.foldl (SseState.value serde) ⟨[], ⟨[], false⟩⟩
        state.out ++ (state.tools.flush serde).1) := by
  obtain ⟨frames, taken, reads⟩ := transcript
  have run : ∀ state : SseState,
      (frames.flatMap SseFrame.lines).foldlM (sseLine serde)
          ([], state) =
        .ok ([], values.foldl (SseState.value serde) state) := by
    clear taken
    induction reads with
    | nil => exact fun state => rfl
    | cons read _ ih =>
        intro state
        rw [List.flatMap_cons, List.foldlM_append, foldlM_frame read]
        exact ih _
  rw [parseSse, taken, run]
  rfl

/-! ## Steps -/

/-- What an event does to its block. -/
inductive Piece where
  | start (block : Value)
  | delta (delta : Value)

structure Step where
  index : Nat
  piece : Piece

/-- The value of the event that is a step. -/
def Step.IsValue (step : Step) (value : Value) : Prop :=
  (value.get "index").bind Value.asU64 = some step.index ∧
    match step.piece with
    | .start block =>
      value.type = some "content_block_start" ∧
        value.get "content_block" = some block
    | .delta delta =>
      value.type = some "content_block_delta" ∧
        value.get "delta" = some delta

/-- An event that does nothing to any block and does not end the message,
such as `message_start`, `content_block_stop` and `ping`. -/
def Idle (value : Value) : Prop :=
  value.type ∉
    [some "content_block_start", some "content_block_delta",
      some "message_delta", some "message_stop"]

/-- The values of a stream which are steps, with others among them. -/
inductive Sends : List Value → List Step → Prop
  | nil : Sends [] []
  | idle {value : Value} {values : List Value} {steps : List Step}
      (idle : Idle value) (sends : Sends values steps) :
      Sends (value :: values) steps
  | step {value : Value} {values : List Value} {step : Step}
      {steps : List Step} (named : step.IsValue value)
      (sends : Sends values steps) :
      Sends (value :: values) (step :: steps)

/-- What a delta says right away. -/
def deltaEvents (delta : Value) : List AnthropicEvent :=
  match delta.type with
  | some "thinking_delta" =>
    pieceEvent .reasoning ((delta.get "thinking").bind Value.asStr)
  | some "text_delta" =>
    pieceEvent .text ((delta.get "text").bind Value.asStr)
  | _ => []

def Step.events (step : Step) : List AnthropicEvent :=
  match step.piece with
  | .start _ => []
  | .delta delta => deltaEvents delta

/-- A step, for the blocks. -/
def stepBlocks (serde : Serde) (blocks : List (Nat × SseBlock))
    (step : Step) : List (Nat × SseBlock) :=
  match step.piece with
  | .start block =>
    Ordered.put step.index (SseBlock.ofStart serde block) blocks
  | .delta delta =>
    match Ordered.find step.index blocks with
    | none => blocks
    | some block => Ordered.put step.index (block.delta delta) blocks

/-- A step, for its own block. -/
def stepOwn (serde : Serde) (held : Option SseBlock) (step : Step) :
    Option SseBlock :=
  match step.piece with
  | .start block => some (SseBlock.ofStart serde block)
  | .delta delta => held.map fun block => block.delta delta

/-- The value of a step does the step. -/
theorem value_step {serde : Serde} {step : Step} {value : Value}
    (named : step.IsValue value) (state : SseState) :
    state.value serde value =
      ⟨state.out ++ step.events,
        { state.tools with
          blocks := stepBlocks serde state.tools.blocks step }⟩ := by
  rcases step with ⟨index, block | delta⟩
  · obtain ⟨at_, typed, held⟩ := named
    simp [SseState.value, typed, at_, held, SseTools.start, Step.events,
      stepBlocks]
  · obtain ⟨at_, typed, held⟩ := named
    have tools :
        state.tools.delta index delta =
          { state.tools with
            blocks :=
              stepBlocks serde state.tools.blocks
                ⟨index, .delta delta⟩ } := by
      rw [SseTools.delta, stepBlocks]
      cases Ordered.find index state.tools.blocks <;> rfl
    have events :
        (if delta.type = some "input_json_delta" ∨
            delta.type = some "signature_delta" then []
          else deltaEvents delta) = deltaEvents delta := by
      split
      · next silent =>
          rcases silent with silent | silent <;>
            simp [deltaEvents, silent]
      · rfl
    rw [SseState.value, typed, held, at_]
    simp only [SseState.blockDelta, tools]
    congr 2
    simp only [Option.isSome_some, Bool.true_and, Bool.or_eq_true,
      decide_eq_true_eq]
    exact events

theorem value_idle {value : Value} (idle : Idle value) (serde : Serde)
    (state : SseState) : state.value serde value = state := by
  simp only [Idle, List.mem_cons, List.not_mem_nil, or_false, not_or]
    at idle
  obtain ⟨noStart, noDelta, noEnd, noStop⟩ := idle
  rw [SseState.value]
  split
  · next typed => exact absurd typed noStart
  · next typed => exact absurd typed noDelta
  · next typed => exact absurd typed noEnd
  · next typed => exact absurd typed noStop
  · rfl

/-- All steps of a stream. -/
theorem foldl_sends {serde : Serde} {values : List Value}
    {steps : List Step} (sends : Sends values steps) (state : SseState) :
    values.foldl (SseState.value serde) state =
      ⟨state.out ++ steps.flatMap Step.events,
        { state.tools with
          blocks :=
            steps.foldl (stepBlocks serde) state.tools.blocks }⟩ := by
  induction sends generalizing state with
  | nil => simp
  | idle idle _ ih => rw [List.foldl_cons, value_idle idle, ih]
  | step named _ ih =>
      rw [List.foldl_cons, value_step named, ih, List.flatMap_cons,
        List.append_assoc, List.foldl_cons]

/-- However the steps are mixed, each block is what its own steps make. -/
theorem find_steps (serde : Serde) (steps : List Step) (index : Nat) :
    Ordered.find index (steps.foldl (stepBlocks serde) []) =
      (steps.filter fun step => step.index = index).foldl (stepOwn serde)
        none := by
  apply Ordered.find_foldl
  · intro map step
    rcases step with ⟨at_, block | delta⟩
    · exact Ordered.find_put_self _ _ _
    · show Ordered.find at_ (match Ordered.find at_ map with
        | none => map
        | some block => Ordered.put at_ (block.delta delta) map) = _
      cases held : Ordered.find at_ map with
      | none => exact held
      | some block => exact Ordered.find_put_self _ _ _
  · intro map step asked apart
    rcases step with ⟨at_, block | delta⟩
    · exact Ordered.find_put_of_ne apart _ _
    · show Ordered.find asked (match Ordered.find at_ map with
        | none => map
        | some block => Ordered.put at_ (block.delta delta) map) = _
      cases held : Ordered.find at_ map with
      | none => rfl
      | some block => exact Ordered.find_put_of_ne apart _ _

theorem ascending_steps (serde : Serde) (steps : List Step)
    {blocks : List (Nat × SseBlock)}
    (ascending : Ordered.Ascending blocks) :
    Ordered.Ascending (steps.foldl (stepBlocks serde) blocks) := by
  induction steps generalizing blocks with
  | nil => exact ascending
  | cons step later ih =>
      apply ih
      rw [stepBlocks]
      split
      · exact ascending.put _ _
      · split
        · exact ascending
        · exact ascending.put _ _

/-! ## The end of a stream -/

/-- The `message_delta` with the stop reason. -/
def Stops (stop : Text) (value : Value) : Prop :=
  value.type = some "message_delta" ∧
    ((value.get "delta").bind (·.get "stop_reason")).bind Value.asStr =
      some stop

/-- The calls of the blocks that were sent. -/
def SseTools.calls (serde : Serde) (tools : SseTools) :
    List AnthropicEvent :=
  toolUseEvent
    ((tools.blocks.map Prod.snd).filterMap (SseBlock.call serde))
    ((tools.blocks.map Prod.snd).flatMap (SseBlock.content serde))

/-- The first `flush` sends the calls. -/
theorem flush_calls (serde : Serde) (blocks : List (Nat × SseBlock)) :
    (SseTools.flush serde ⟨blocks, false⟩).1 =
      SseTools.calls serde ⟨blocks, false⟩ := by
  cases blocks <;> rfl

/-- A second `flush` sends nothing. -/
theorem flush_again (serde : Serde) (tools : SseTools) :
    ((tools.flush serde).2.flush serde).1 = [] := by
  rcases tools with ⟨blocks, flushed⟩
  cases blocks <;> cases flushed <;> rfl

/-- A stream of steps, the `message_delta` and the `message_stop`: the calls
come right before the end, once. -/
theorem parseSse_steps {serde : Serde} {text : Text} {values : List Value}
    {steps : List Step} {stop : Text} {last final : Value}
    (sends : Sends values steps) (stops : Stops stop last)
    (noRefusal : stop ≠ "refusal".toList)
    (ends : final.type = some "message_stop")
    (transcript : Transcript serde text (values ++ [last, final])) :
    parseSse serde text =
      .ok
        (steps.flatMap Step.events ++
          ((last.get "usage").map usageEvent).toList ++
          SseTools.calls serde
            ⟨steps.foldl (stepBlocks serde) [], false⟩ ++
          [.done stop]) := by
  obtain ⟨typed, reason⟩ := stops
  rw [parseSse_transcript transcript, List.foldl_append,
    foldl_sends sends]
  generalize steps.foldl (stepBlocks serde) [] = blocks
  have first :
      (⟨[] ++ steps.flatMap Step.events, ⟨blocks, false⟩⟩ :
          SseState).value serde last =
        ⟨steps.flatMap Step.events ++
            ((last.get "usage").map usageEvent).toList ++
            SseTools.calls serde ⟨blocks, false⟩ ++ [.done stop],
          (SseTools.flush serde ⟨blocks, false⟩).2⟩ := by
    rw [SseState.value, typed]
    simp only [SseState.messageDelta, reason, if_neg noRefusal,
      flush_calls, List.nil_append]
  have second : ∀ (out : List AnthropicEvent) (tools : SseTools),
      (⟨out ++ [.done stop], tools⟩ : SseState).value serde final =
        ⟨out ++ [.done stop], tools⟩ := by
    intro out tools
    have ended : (out ++ [AnthropicEvent.done stop]).any isDone = true := by
      simp [isDone]
    rw [SseState.value, ends]
    simp [ended]
  rw [List.foldl_cons, List.foldl_cons, List.foldl_nil, first, second]
  simp only [flush_again, List.append_nil]

/-! ## Messages -/

/--
A content block: thinking with its signature, which is empty if there is
none, a text that is not empty, or a call whose input is an object.
-/
inductive Block where
  | thinking (body signature : Text)
  | text (body : Text) (notEmpty : body ≠ [])
  | toolUse (id name : Text) (input : List (Text × Value))

/-- The block as the whole reply has it. -/
def Block.value : Block → Value
  | .thinking body signature =>
    let value :=
      Value.obj [("type", .str "thinking"), ("thinking", .string body)]
    if signature.isEmpty then value
    else value.set "signature" (.string signature)
  | .text body _ => .obj [("type", .str "text"), ("text", .string body)]
  | .toolUse id name input =>
    .obj
      [("type", .str "tool_use"), ("id", .string id),
        ("name", .string name), ("input", .object input)]

def Block.call (serde : Serde) : Block → Option ToolCall
  | .toolUse id name input =>
    some ⟨id, name, serde.print (.object input)⟩
  | _ => none

def Block.thinkingText : Block → Text
  | .thinking body _ => body
  | _ => []

def Block.bodyText : Block → Text
  | .text body _ => body
  | _ => []

/-- What a delta says in a field, if it is of that type. -/
def said (type field : String) (delta : Value) : Text :=
  if delta.type = some type then strField delta field else []

/-- What the deltas of one type say in a field. -/
def told (type field : String) (deltas : List Value) : Text :=
  deltas.flatMap (said type field)

/-- A block as its own events make it: a start without an input, and deltas
of its kind which split its texts. -/
inductive Streamed (serde : Serde) : Block → List Piece → Prop
  | thinking {start : Value} {deltas : List Value}
      (announced : start.type = some "thinking")
      (kinds : ∀ delta ∈ deltas,
        delta.type = some "thinking_delta" ∨
          delta.type = some "signature_delta") :
      Streamed serde
        (.thinking (told "thinking_delta" "thinking" deltas)
          (told "signature_delta" "signature" deltas))
        (.start start :: deltas.map .delta)
  | text {start : Value} {deltas : List Value}
      (announced : start.type = some "text")
      (kinds : ∀ delta ∈ deltas, delta.type = some "text_delta")
      (notEmpty : told "text_delta" "text" deltas ≠ []) :
      Streamed serde (.text (told "text_delta" "text" deltas) notEmpty)
        (.start start :: deltas.map .delta)
  | toolUse {start : Value} {deltas : List Value} {id name : Text}
      {input : List (Text × Value)}
      (announced : start.type = some "tool_use")
      (identified : start.get "id" = some (.string id))
      (named : start.get "name" = some (.string name))
      (noInput : start.get "input" = none)
      (kinds : ∀ delta ∈ deltas, delta.type = some "input_json_delta")
      (serialised :
        serde.parse (told "input_json_delta" "partial_json" deltas) =
          .ok (.object input)) :
      Streamed serde (.toolUse id name input)
        (.start start :: deltas.map .delta)

/-- The pieces of one block, in their order. -/
def ownPieces (steps : List Step) (index : Nat) : List Piece :=
  (steps.filter fun step => step.index = index).map Step.piece

/-- The steps of a whole message, those of different blocks mixed. -/
structure Interleaves (serde : Serde) (blocks : List Block)
    (steps : List Step) : Prop where
  inside : ∀ step ∈ steps, step.index < blocks.length
  streams : ∀ index block, blocks[index]? = some block →
    Streamed serde block (ownPieces steps index)

/-- The whole message. -/
structure Tells (blocks : List Block) (stop : Text) (message : Value) :
    Prop where
  content :
    message.get "content" = some (.array (blocks.map Block.value))
  stop : message.get "stop_reason" = some (.string stop)

/-! ## One block -/

def ownBlock (serde : Serde) (pieces : List Piece) : Option SseBlock :=
  pieces.foldl
    (fun held piece => stepOwn serde held ⟨0, piece⟩) none

theorem ownBlock_start (serde : Serde) (start : Value)
    (deltas : List Value) :
    ownBlock serde (.start start :: deltas.map .delta) =
      some (deltas.foldl SseBlock.delta (SseBlock.ofStart serde start)) := by
  rw [ownBlock, List.foldl_cons, List.foldl_map]
  show deltas.foldl _ (some _) = _
  generalize SseBlock.ofStart serde start = block
  induction deltas generalizing block with
  | nil => rfl
  | cons delta later ih => exact ih _

theorem told_nil {type field : String} {deltas : List Value}
    (other : ∀ delta ∈ deltas, delta.type ≠ some type) :
    told type field deltas = [] := by
  apply List.flatMap_eq_nil_iff.mpr
  intro delta member
  exact if_neg (other delta member)

/-- What deltas do to a block, field by field. -/
theorem foldl_delta (deltas : List Value) (block : SseBlock) :
    deltas.foldl SseBlock.delta block =
      { block with
        json :=
          block.json ++ told "input_json_delta" "partial_json" deltas
        signature :=
          block.signature ++ told "signature_delta" "signature" deltas
        text :=
          block.text ++ deltas.flatMap fun delta =>
            said "thinking_delta" "thinking" delta ++
              said "text_delta" "text" delta } := by
  induction deltas generalizing block with
  | nil => simp [told]
  | cons delta later ih =>
      rw [List.foldl_cons, ih, SseBlock.delta]
      split <;> simp_all [told, said]

/-- A block of a stream is rebuilt as the whole reply has it. -/
theorem rebuilt {serde : Serde} {block : Block} {pieces : List Piece}
    (streams : Streamed serde block pieces) :
    ∃ held, ownBlock serde pieces = some held ∧
      held.content serde = [block.value] ∧
      held.call serde = block.call serde := by
  cases streams with
  | @thinking start deltas announced kinds =>
      refine ⟨_, ownBlock_start serde start deltas, ?_⟩
      have text :
          (deltas.flatMap fun delta =>
            said "thinking_delta" "thinking" delta ++
              said "text_delta" "text" delta) =
            told "thinking_delta" "thinking" deltas := by
        apply List.flatMap_congr
        intro delta member
        rcases kinds delta member with kind | kind <;> simp [said, kind]
      rw [foldl_delta, text]
      cases signed :
        (told "signature_delta" "signature" deltas).isEmpty <;>
        simp_all [SseBlock.ofStart, SseBlock.content, SseBlock.call,
          Block.value, Block.call]
  | @text start deltas announced kinds notEmpty =>
      refine ⟨_, ownBlock_start serde start deltas, ?_⟩
      have text :
          (deltas.flatMap fun delta =>
            said "thinking_delta" "thinking" delta ++
              said "text_delta" "text" delta) =
            told "text_delta" "text" deltas := by
        apply List.flatMap_congr
        intro delta member
        simp [said, kinds delta member]
      rw [foldl_delta, text]
      simp [SseBlock.ofStart, announced, SseBlock.content, SseBlock.call,
        Block.value, Block.call, notEmpty]
  | @toolUse start deltas id name input announced identified named noInput
      kinds serialised =>
      refine ⟨_, ownBlock_start serde start deltas, ?_⟩
      rw [foldl_delta]
      simp [SseBlock.ofStart, announced, identified, named, noInput,
        strField, SseBlock.content, SseBlock.call, SseBlock.input,
        serialised, Block.value, Block.call]

/-! ## All blocks -/

/-- A list of what the positions of another list stand for. -/
theorem exists_forall₂ {α β : Type} (related : α → β → Prop)
    (list : List β) (at_ : Nat → Option α)
    (inside : ∀ index item, list[index]? = some item →
      ∃ found, at_ index = some found ∧ related found item)
    (outside : ∀ index, list.length ≤ index → at_ index = none) :
    ∃ found : List α, List.Forall₂ related found list ∧
      ∀ index, at_ index = found[index]? := by
  induction list generalizing at_ with
  | nil =>
      exact ⟨[], List.Forall₂.nil, fun index =>
        outside index (Nat.zero_le _)⟩
  | cons item later ih =>
      obtain ⟨first, here, fits⟩ := inside 0 item rfl
      obtain ⟨found, all, there⟩ :=
        ih (fun index => at_ (index + 1))
          (fun index item listed => inside (index + 1) item listed)
          (fun index beyond => outside (index + 1)
            (Nat.succ_le_succ beyond))
      refine ⟨first :: found, List.Forall₂.cons fits all, ?_⟩
      intro index
      cases index with
      | zero => exact here
      | succ index => exact there index

theorem ownBlock_steps (serde : Serde) (steps : List Step) (index : Nat) :
    (steps.filter fun step => step.index = index).foldl (stepOwn serde)
        none =
      ownBlock serde (ownPieces steps index) := by
  rw [ownBlock, ownPieces, List.foldl_map]
  rfl

/-- The calls and the blocks are those of the whole reply. -/
theorem calls_interleaves {serde : Serde} {blocks : List Block}
    {steps : List Step} (interleaves : Interleaves serde blocks steps) :
    SseTools.calls serde ⟨steps.foldl (stepBlocks serde) [], false⟩ =
      toolUseEvent (blocks.filterMap (Block.call serde))
        (blocks.map Block.value) := by
  obtain ⟨helds, all, found⟩ :=
    exists_forall₂
      (fun (held : SseBlock) block =>
        held.content serde = [Block.value block] ∧
          held.call serde = block.call serde)
      blocks (fun index => ownBlock serde (ownPieces steps index))
      (fun index block listed =>
        rebuilt (interleaves.streams index block listed))
      (by
        intro index beyond
        have none : ownPieces steps index = [] := by
          rw [ownPieces, List.map_eq_nil_iff, List.filter_eq_nil_iff]
          intro step member
          have inside := interleaves.inside step member
          simp only [decide_eq_true_eq]
          omega
        rw [none]
        rfl)
  have values :
      (steps.foldl (stepBlocks serde) []).map Prod.snd = helds := by
    apply (ascending_steps serde steps List.Pairwise.nil).values
    intro index
    rw [find_steps, ownBlock_steps]
    exact found index
  rw [SseTools.calls, values]
  clear found values interleaves
  have both :
      helds.filterMap (SseBlock.call serde) =
          blocks.filterMap (Block.call serde) ∧
        helds.flatMap (SseBlock.content serde) =
          blocks.map Block.value := by
    induction all with
    | nil => exact ⟨rfl, rfl⟩
    | cons fits _ ih =>
        constructor
        · rw [List.filterMap_cons, List.filterMap_cons, fits.2, ih.1]
        · rw [List.flatMap_cons, fits.1, ih.2]
          rfl
  rw [both.1, both.2]

/-! ## What was said -/

def reasoningOf (events : List AnthropicEvent) : Text :=
  events.flatMap fun
    | .reasoning body => body
    | _ => []

def textOf (events : List AnthropicEvent) : Text :=
  events.flatMap fun
    | .text body => body
    | _ => []

/-- Text, reasoning or counters, and not a call nor an end. -/
def isSaid : AnthropicEvent → Bool
  | .reasoning _ => true
  | .text _ => true
  | .usage _ _ => true
  | _ => false

def isToolUse : AnthropicEvent → Bool
  | .toolUse _ _ => true
  | _ => false

def Piece.thinking : Piece → Text
  | .start _ => []
  | .delta value => said "thinking_delta" "thinking" value

def Piece.body : Piece → Text
  | .start _ => []
  | .delta value => said "text_delta" "text" value

/-- The steps of one block after those of the one before. -/
def InBlockOrder (steps : List Step) : Prop :=
  steps.Pairwise fun one other => one.index ≤ other.index

/-- A part of the pieces, block by block. -/
def byBlock (count : Nat) (steps : List Step) (part : Piece → Text) :
    Text :=
  (List.range count).flatMap fun index =>
    (ownPieces steps index).flatMap part

@[simp]
theorem reasoningOf_append (before after : List AnthropicEvent) :
    reasoningOf (before ++ after) =
      reasoningOf before ++ reasoningOf after := by
  simp [reasoningOf]

@[simp]
theorem textOf_append (before after : List AnthropicEvent) :
    textOf (before ++ after) = textOf before ++ textOf after := by
  simp [textOf]

@[simp]
theorem reasoningOf_piece (piece : Option Text) :
    reasoningOf (pieceEvent .reasoning piece) = piece.getD [] ∧
      textOf (pieceEvent .reasoning piece) = [] := by
  rcases piece with _ | _ | ⟨char, more⟩ <;>
    simp [pieceEvent, reasoningOf, textOf]

@[simp]
theorem textOf_piece (piece : Option Text) :
    reasoningOf (pieceEvent .text piece) = [] ∧
      textOf (pieceEvent .text piece) = piece.getD [] := by
  rcases piece with _ | _ | ⟨char, more⟩ <;>
    simp [pieceEvent, reasoningOf, textOf]

/-- An event says what its delta says. -/
theorem said_step (step : Step) :
    reasoningOf step.events = step.piece.thinking ∧
      textOf step.events = step.piece.body := by
  rcases step with ⟨index, block | delta⟩
  · exact ⟨rfl, rfl⟩
  · show reasoningOf (deltaEvents delta) = said _ _ delta ∧
      textOf (deltaEvents delta) = said _ _ delta
    rw [deltaEvents]
    split
    · next kind => simp [said, kind, strField]
    · next kind => simp [said, kind, strField]
    · next noThinking noText =>
        exact ⟨(if_neg noThinking).symm, (if_neg noText).symm⟩

theorem said_events (steps : List Step) :
    reasoningOf (steps.flatMap Step.events) =
        steps.flatMap (fun step => step.piece.thinking) ∧
      textOf (steps.flatMap Step.events) =
        steps.flatMap fun step => step.piece.body := by
  induction steps with
  | nil => exact ⟨rfl, rfl⟩
  | cons step later ih =>
      simp [said_step step, ih]

theorem streamed_said {serde : Serde} {block : Block}
    {pieces : List Piece} (streams : Streamed serde block pieces) :
    pieces.flatMap Piece.thinking = block.thinkingText ∧
      pieces.flatMap Piece.body = block.bodyText := by
  have parts : ∀ (start : Value) (deltas : List Value),
      (Piece.start start :: deltas.map .delta).flatMap Piece.thinking =
          told "thinking_delta" "thinking" deltas ∧
        (Piece.start start :: deltas.map .delta).flatMap Piece.body =
          told "text_delta" "text" deltas := by
    intro start deltas
    rw [List.flatMap_cons, List.flatMap_cons, List.flatMap_map,
      List.flatMap_map]
    exact ⟨rfl, rfl⟩
  cases streams with
  | @thinking start deltas announced kinds =>
      rw [(parts start deltas).1, (parts start deltas).2]
      refine ⟨rfl, told_nil ?_⟩
      intro delta member
      rcases kinds delta member with kind | kind <;> simp [kind]
  | @text start deltas announced kinds notEmpty =>
      rw [(parts start deltas).1, (parts start deltas).2]
      refine ⟨told_nil ?_, rfl⟩
      intro delta member
      simp [kinds delta member]
  | @toolUse start deltas id name input announced identified named noInput
      kinds serialised =>
      rw [(parts start deltas).1, (parts start deltas).2]
      constructor
      · apply told_nil
        intro delta member
        simp [kinds delta member]
      · apply told_nil
        intro delta member
        simp [kinds delta member]

/-- Steps in block order with the last block split off. -/
theorem ordered_split {steps : List Step} (ordered : InBlockOrder steps)
    {last : Nat} (inside : ∀ step ∈ steps, step.index < last + 1) :
    steps =
      (steps.filter fun step => step.index < last) ++
        steps.filter fun step => step.index = last := by
  induction steps with
  | nil => rfl
  | cons step later ih =>
      obtain ⟨above, tail⟩ := List.pairwise_cons.mp ordered
      have rest := ih tail fun other member =>
        inside other (List.mem_cons_of_mem _ member)
      by_cases before : step.index < last
      · rw [List.filter_cons_of_pos (by simpa using before),
          List.filter_cons_of_neg (by simp; omega), List.cons_append,
          ← rest]
      · have here := inside step List.mem_cons_self
        have none :
            (later.filter fun step => step.index < last) = [] := by
          rw [List.filter_eq_nil_iff]
          intro other member
          have order := above other member
          simp only [decide_eq_true_eq]
          omega
        rw [none, List.nil_append] at rest
        rw [List.filter_cons_of_neg (by simpa using before),
          List.filter_cons_of_pos (by simp; omega), none,
          List.nil_append, ← rest]

/-- Steps in block order are read block by block. -/
theorem byBlock_eq (steps : List Step) (ordered : InBlockOrder steps)
    {count : Nat} (inside : ∀ step ∈ steps, step.index < count)
    (part : Piece → Text) :
    byBlock count steps part =
      steps.flatMap fun step => part step.piece := by
  induction count generalizing steps with
  | zero =>
      cases steps with
      | nil => rfl
      | cons step later =>
          exact absurd (inside step List.mem_cons_self) (Nat.not_lt_zero _)
  | succ last ih =>
      have fewer :=
        ih (steps.filter fun step => step.index < last)
          (ordered.filter _) (by
            intro step member
            simpa using (List.mem_filter.mp member).2)
      have same :
          byBlock last (steps.filter fun step => step.index < last) part =
            byBlock last steps part := by
        apply List.flatMap_congr
        intro index member
        have below := List.mem_range.mp member
        rw [ownPieces, ownPieces, List.filter_filter]
        congr 2
        apply List.filter_congr
        intro step _
        by_cases here : step.index = index <;> simp [here, below]
      rw [byBlock, List.range_succ, List.flatMap_append, ← byBlock,
        ← same, fewer]
      conv_rhs => rw [ordered_split ordered inside]
      rw [List.flatMap_append, List.flatMap_singleton, ownPieces,
        List.flatMap_map]

/-- A list by its positions. -/
theorem flatMap_range {α : Type} {list : List α} {one : α → Text}
    {at_ : Nat → Text}
    (same : ∀ index item, list[index]? = some item →
      at_ index = one item) :
    (List.range list.length).flatMap at_ = list.flatMap one := by
  induction list generalizing at_ with
  | nil => rfl
  | cons item later ih =>
      rw [List.length_cons, List.range_succ_eq_map, List.flatMap_cons,
        List.flatMap_map, same 0 item rfl, List.flatMap_cons]
      congr 1
      exact ih fun index item listed => same (index + 1) item listed

theorem byBlock_interleaves {serde : Serde} {blocks : List Block}
    {steps : List Step} (interleaves : Interleaves serde blocks steps) :
    byBlock blocks.length steps Piece.thinking =
        blocks.flatMap Block.thinkingText ∧
      byBlock blocks.length steps Piece.body =
        blocks.flatMap Block.bodyText := by
  constructor
  · apply flatMap_range
    intro index block listed
    exact (streamed_said (interleaves.streams index block listed)).1
  · apply flatMap_range
    intro index block listed
    exact (streamed_said (interleaves.streams index block listed)).2

/-! ## The whole reply -/

theorem blockEvents_value (block : Block) :
    reasoningOf (blockEvents block.value) = block.thinkingText ∧
      textOf (blockEvents block.value) = block.bodyText := by
  cases block with
  | thinking body signature =>
      cases unsigned : signature.isEmpty <;>
        simp [blockEvents, Block.value, unsigned, Value.type,
          Block.thinkingText, Block.bodyText]
  | text body notEmpty =>
      simp [blockEvents, Block.value, Value.type, Block.thinkingText,
        Block.bodyText]
  | toolUse id name input =>
      simp [blockEvents, Block.value, Value.type, Block.thinkingText,
        Block.bodyText, reasoningOf, textOf]

theorem blockCall_value (serde : Serde) (block : Block) :
    blockCall serde block.value = block.call serde := by
  cases block with
  | thinking body signature =>
      cases unsigned : signature.isEmpty <;>
        simp [blockCall, Block.value, unsigned, Value.type, Block.call]
  | text body notEmpty =>
      simp [blockCall, Block.value, Value.type, Block.call]
  | toolUse id name input =>
      simp [blockCall, Block.value, Value.type, Block.call, strField]

theorem said_piece {event : Text → AnthropicEvent}
    (all : ∀ body, isSaid (event body) = true) (body : Option Text) :
    (pieceEvent event body).all isSaid := by
  rcases body with _ | _ | ⟨char, more⟩ <;> simp [pieceEvent, all]

theorem said_blockEvents (block : Value) :
    (blockEvents block).all isSaid := by
  rw [blockEvents]
  split
  · exact said_piece (fun _ => rfl) _
  · exact said_piece (fun _ => rfl) _
  · rfl

theorem said_stepEvents (step : Step) : step.events.all isSaid := by
  rcases step with ⟨index, block | delta⟩
  · rfl
  · show (deltaEvents delta).all isSaid
    rw [deltaEvents]
    split
    · exact said_piece (fun _ => rfl) _
    · exact said_piece (fun _ => rfl) _
    · rfl


theorem parseMessage_tells {serde : Serde} {blocks : List Block}
    {stop whole : Text} {message : Value}
    (tells : Tells blocks stop message)
    (noRefusal : stop ≠ "refusal".toList)
    (read : serde.parse whole = .ok message) :
    parseMessage serde whole =
      .ok
        (blocks.flatMap (fun block => blockEvents block.value) ++
          toolUseEvent (blocks.filterMap (Block.call serde))
            (blocks.map Block.value) ++
          ((message.get "usage").map usageEvent).toList ++
          [.done stop]) := by
  have calls :
      (blocks.map Block.value).filterMap (blockCall serde) =
        blocks.filterMap (Block.call serde) := by
    rw [List.filterMap_map]
    apply List.filterMap_congr
    intro block _
    exact blockCall_value serde block
  rw [parseMessage, read]
  show Except.ok _ = _
  simp only [tells.content, tells.stop, Option.bind_some, Value.asArray,
    Value.asStr, Option.getD_some, if_neg noRefusal, calls,
    List.flatMap_map]

/-- What the two readers have in common for one message. -/
structure Alike (serde : Serde) (blocks : List Block) (steps : List Step)
    (stop : Text) (sse message : List AnthropicEvent) : Prop where
  /-- The stream says its deltas in their order. -/
  streamReasoning :
    reasoningOf sse = steps.flatMap fun step => step.piece.thinking
  streamText : textOf sse = steps.flatMap fun step => step.piece.body
  /-- The whole reply says the same deltas, block by block. -/
  reasoning :
    reasoningOf message = byBlock blocks.length steps Piece.thinking
  text : textOf message = byBlock blocks.length steps Piece.body
  /-- Which is the same if the blocks follow each other. -/
  ordered : InBlockOrder steps →
    reasoningOf sse = reasoningOf message ∧ textOf sse = textOf message
  /-- One event with all calls and the content blocks, or none if there are
  no calls, right before the end. -/
  placed : ∃ before,
    sse =
        before ++
          toolUseEvent (blocks.filterMap (Block.call serde))
            (blocks.map Block.value) ++ [.done stop] ∧
      before.all isSaid
  sameCalls : message.filter isToolUse = sse.filter isToolUse
  oneEnd : sse.filter isDone = [.done stop]
  sameEnd : message.filter isDone = [.done stop]

@[simp]
theorem reasoningOf_done (stop : Text) :
    reasoningOf [.done stop] = [] ∧ textOf [.done stop] = [] :=
  ⟨rfl, rfl⟩

@[simp]
theorem reasoningOf_toolUse (calls : List ToolCall)
    (content : List Value) :
    reasoningOf (toolUseEvent calls content) = [] ∧
      textOf (toolUseEvent calls content) = [] := by
  rw [toolUseEvent]
  split <;> exact ⟨rfl, rfl⟩

theorem filter_toolUse (calls : List ToolCall) (content : List Value) :
    (toolUseEvent calls content).filter isToolUse =
        toolUseEvent calls content ∧
      (toolUseEvent calls content).filter isDone = [] := by
  rw [toolUseEvent]
  split <;> exact ⟨rfl, rfl⟩

@[simp]
theorem reasoningOf_usage (usage : Option Value) :
    reasoningOf (usage.map usageEvent).toList = [] ∧
      textOf (usage.map usageEvent).toList = [] := by
  cases usage <;> exact ⟨rfl, rfl⟩

/-- What only speaks has no calls and no end. -/
theorem filter_said {events : List AnthropicEvent}
    (said : events.all isSaid) :
    events.filter isToolUse = [] ∧ events.filter isDone = [] := by
  rw [List.all_eq_true] at said
  constructor
  · rw [List.filter_eq_nil_iff]
    intro event member
    have here := said event member
    cases event <;> simp_all [isSaid, isToolUse]
  · rw [List.filter_eq_nil_iff]
    intro event member
    have here := said event member
    cases event <;> simp_all [isSaid, isDone]

theorem said_usage (usage : Option Value) :
    (usage.map usageEvent).toList.all isSaid := by
  cases usage <;> rfl

theorem said_blocks (blocks : List Block) :
    reasoningOf (blocks.flatMap fun block => blockEvents block.value) =
        blocks.flatMap Block.thinkingText ∧
      textOf (blocks.flatMap fun block => blockEvents block.value) =
        blocks.flatMap Block.bodyText := by
  induction blocks with
  | nil => exact ⟨rfl, rfl⟩
  | cons block later ih => simp [blockEvents_value block, ih]

/-- A reply ends with its reason, and only speaks before its calls and
between them and the end. -/
theorem filter_reply {before : List AnthropicEvent}
    (between : List AnthropicEvent) (said : before.all isSaid) (said' : between.all isSaid)
    (calls : List ToolCall) (content : List Value) (stop : Text) :
    (before ++ toolUseEvent calls content ++ between ++
          [AnthropicEvent.done stop]).filter isToolUse =
        toolUseEvent calls content ∧
      (before ++ toolUseEvent calls content ++ between ++
          [AnthropicEvent.done stop]).filter isDone = [.done stop] := by
  constructor
  · rw [List.filter_append, List.filter_append, List.filter_append,
      (filter_said said).1, (filter_said said').1,
      (filter_toolUse calls content).1, List.nil_append, List.append_nil]
    exact List.append_nil _
  · rw [List.filter_append, List.filter_append, List.filter_append,
      (filter_said said).2, (filter_said said').2,
      (filter_toolUse calls content).2, List.nil_append, List.append_nil,
      List.nil_append]
    rfl

/--
A message that is streamed, with the deltas of its blocks mixed in any way,
is read as it is read whole.
-/
theorem streamed_like_whole {serde : Serde} {blocks : List Block}
    {stop whole text : Text} {message last final : Value}
    {steps : List Step} {values : List Value}
    (tells : Tells blocks stop message)
    (noRefusal : stop ≠ "refusal".toList)
    (read : serde.parse whole = .ok message)
    (interleaves : Interleaves serde blocks steps)
    (sends : Sends values steps) (stops : Stops stop last)
    (ends : final.type = some "message_stop")
    (transcript : Transcript serde text (values ++ [last, final])) :
    ∃ sse events,
      parseSse serde text = .ok sse ∧
        parseMessage serde whole = .ok events ∧
        Alike serde blocks steps stop sse events := by
  have sse := parseSse_steps sends stops noRefusal ends transcript
  rw [calls_interleaves interleaves] at sse
  refine ⟨_, _, sse, parseMessage_tells tells noRefusal read, ?_⟩
  obtain ⟨thinking, body⟩ := byBlock_interleaves interleaves
  have stepsSaid : (steps.flatMap Step.events ++
      ((last.get "usage").map usageEvent).toList).all isSaid := by
    rw [List.all_append, said_usage, Bool.and_true, List.all_flatMap,
      List.all_eq_true]
    exact fun step _ => said_stepEvents step
  have blocksSaid :
      (blocks.flatMap fun block => blockEvents block.value).all
        isSaid := by
    rw [List.all_flatMap, List.all_eq_true]
    exact fun block _ => said_blockEvents block.value
  have streamed :=
    filter_reply [] stepsSaid rfl
      (blocks.filterMap (Block.call serde)) (blocks.map Block.value) stop
  have message :=
    filter_reply _ blocksSaid (said_usage (message.get "usage"))
      (blocks.filterMap (Block.call serde)) (blocks.map Block.value) stop
  rw [List.append_nil] at streamed
  constructor
  · simp [said_events]
  · simp [said_events]
  · simp [said_blocks, thinking]
  · simp [said_blocks, body]
  · intro ordered
    have order := byBlock_eq steps ordered interleaves.inside
    constructor
    · simp [said_events, said_blocks, ← thinking, order]
    · simp [said_events, said_blocks, ← body, order]
  · exact ⟨_, rfl, stepsSaid⟩
  · rw [message.1, streamed.1]
  · exact streamed.2
  · exact message.2

/-! ## Transcripts of printed values -/

/-- The lines of an event with a name and a value for its data. -/
def eventLines (serde : Serde) (event : Text × Value) : List Text :=
  ["event: ".toList ++ event.1, "data: ".toList ++ serde.print event.2, []]

/-- An object the printer and the reader agree on. -/
def Readable (value : Value) : Prop :=
  Plain 127 value ∧ ∃ members, value = .object members

theorem oneLine_visible {line : Text}
    (visible : ∀ char ∈ line, ' ' ≤ char) : OneLine line :=
  ⟨fun member => absurd (visible _ member) (by decide),
    fun member => absurd (visible _ member) (by decide)⟩

/-- The frame of a printed event. -/
theorem exists_frame {serde : Serde} (lawful : serde.Lawful)
    (name : Text) {value : Value} (readable : Readable value) :
    ∃ frame : SseFrame, frame.lines = eventLines serde (name, value) ∧
      serde.parse frame.data = .ok value := by
  obtain ⟨plain, members, same⟩ := readable
  refine ⟨
    { fields := ["event: ".toList ++ name]
      pad := [' ']
      data := serde.print value
      others := ?_
      blank := ?_
      object := ?_ }, rfl, lawful.parse_print value plain⟩
  · intro field member
    rw [List.mem_singleton.mp member]
    exact ⟨nofun, rfl⟩
  · intro char member
    rw [List.mem_singleton.mp member]
    decide
  · rw [same]
    exact lawful.print_object members

theorem oneLine_eventLines {serde : Serde} (lawful : serde.Lawful)
    {event : Text × Value} (name : OneLine event.1) :
    ∀ line ∈ eventLines serde event, OneLine line := by
  intro line listed
  have data := oneLine_visible (lawful.print_visible event.2)
  simp only [eventLines, List.mem_cons, List.not_mem_nil, or_false]
    at listed
  rcases listed with rfl | rfl | rfl
  · exact ⟨by simpa using name.1, by simpa using name.2⟩
  · exact ⟨by simpa using data.1, by simpa using data.2⟩
  · exact ⟨List.not_mem_nil, List.not_mem_nil⟩

/-- Printed events are a transcript of their values. -/
theorem transcript_events {serde : Serde} (lawful : serde.Lawful)
    (events : List (Text × Value))
    (names : ∀ event ∈ events, OneLine event.1)
    (readable : ∀ event ∈ events, Readable event.2) :
    Transcript serde (unlines (events.flatMap (eventLines serde)))
      (events.map Prod.snd) := by
  rw [Transcript, lines_unlines]
  · induction events with
    | nil => exact ⟨[], rfl, List.Forall₂.nil⟩
    | cons event later ih =>
        obtain ⟨frame, taken, read⟩ :=
          exists_frame lawful event.1 (readable event List.mem_cons_self)
        obtain ⟨frames, rest, reads⟩ :=
          ih (fun other member =>
              names other (List.mem_cons_of_mem _ member))
            (fun other member =>
              readable other (List.mem_cons_of_mem _ member))
        refine ⟨frame :: frames, ?_, List.Forall₂.cons read reads⟩
        rw [List.flatMap_cons, List.flatMap_cons, rest, taken]
  · intro line member
    rcases List.mem_flatMap.mp member with ⟨event, listed, inside⟩
    exact oneLine_eventLines lawful (names event listed) line inside

theorem plain_strings {depth : Nat} {members : List (String × Value)}
    (strings : ∀ member ∈ members, ∃ text, member.2 = .string text) :
    Plain (depth + 1) (.obj members) := by
  apply Value.plain_obj
  intro member listed
  obtain ⟨text, same⟩ := strings member listed
  rw [same]
  exact Plain.string text

theorem readable_obj {members : List (String × Value)}
    (plain : ∀ member ∈ members, Plain 126 member.2) :
    Readable (.obj members) :=
  ⟨Value.plain_obj plain, _, rfl⟩

/-- A step as an event has it. -/
def Step.value (step : Step) : Value :=
  match step.piece with
  | .start block =>
    .obj
      [("type", .str "content_block_start"), ("index", .nat step.index),
        ("content_block", block)]
  | .delta delta =>
    .obj
      [("type", .str "content_block_delta"), ("index", .nat step.index),
        ("delta", delta)]

def Piece.content : Piece → Value
  | .start block => block
  | .delta value => value

theorem Step.isValue_value (step : Step) : step.IsValue step.value := by
  rcases step with ⟨index, block | delta⟩ <;>
    simp [Step.IsValue, Step.value, Value.type]

theorem sends_values (steps : List Step) :
    Sends (steps.map Step.value) steps := by
  induction steps with
  | nil => exact Sends.nil
  | cons step later ih => exact Sends.step step.isValue_value ih

theorem readable_step {step : Step} (fits : step.index < 2 ^ 64)
    (plain : Plain 126 step.piece.content) : Readable step.value := by
  rcases step with ⟨index, block | delta⟩
  · apply readable_obj
    simp only [List.forall_mem_cons]
    exact ⟨Plain.string _, Plain.nat fits, plain, nofun⟩
  · apply readable_obj
    simp only [List.forall_mem_cons]
    exact ⟨Plain.string _, Plain.nat fits, plain, nofun⟩

/-! ## A small message -/

def smallBlocks : List Block :=
  [.thinking "hm".toList "s".toList, .toolUse "c".toList "f".toList []]

def smallMessage : Value :=
  .obj
    [("content", .array (smallBlocks.map Block.value)),
      ("stop_reason", .str "tool_use")]

def smallStart : Value :=
  .obj
    [("type", .str "tool_use"), ("id", .str "c"), ("name", .str "f")]

def smallThinking : List Value :=
  [.obj [("type", .str "thinking_delta"), ("thinking", .str "hm")],
    .obj [("type", .str "signature_delta"), ("signature", .str "s")]]

def smallInput : List Value :=
  [.obj [("type", .str "input_json_delta"), ("partial_json", .str "\x7b")],
    .obj [("type", .str "input_json_delta"), ("partial_json", .str "\x7d")]]

/-- The deltas of the two blocks are mixed. -/
def smallSteps : List Step :=
  [⟨0, .start (.obj [("type", .str "thinking")])⟩,
    ⟨1, .start smallStart⟩] ++
    (smallThinking.zip smallInput).flatMap fun pair =>
      [⟨0, .delta pair.1⟩, ⟨1, .delta pair.2⟩]

def smallLast : Value :=
  .obj
    [("type", .str "message_delta"),
      ("delta", .obj [("stop_reason", .str "tool_use")])]

def smallFinal : Value :=
  .obj [("type", .str "message_stop")]

def smallText : Text :=
  unlines
    (((smallSteps.map Step.value ++ [smallLast, smallFinal]).map
      fun value => ("e".toList, value)).flatMap (eventLines Codec.serde))

theorem readable_small :
    ∀ value ∈ smallSteps.map Step.value ++ [smallLast, smallFinal],
      Readable value := by
  rw [List.forall_mem_append]
  constructor
  · have steps : ∀ step ∈ smallSteps,
        step.index < 2 ^ 64 ∧ Plain 126 step.piece.content := by
      simp only [smallSteps, smallThinking, smallInput, List.zip_cons_cons,
        List.flatMap_cons, List.cons_append, List.nil_append,
        List.forall_mem_cons]
      refine ⟨⟨by decide, ?_⟩, ⟨by decide, ?_⟩, ⟨by decide, ?_⟩,
        ⟨by decide, ?_⟩, ⟨by decide, ?_⟩, ⟨by decide, ?_⟩, nofun⟩ <;>
        exact plain_strings (by simp [Value.str])
    intro value member
    rcases List.mem_map.mp member with ⟨step, listed, same⟩
    rw [← same]
    exact readable_step (steps step listed).1 (steps step listed).2
  · simp only [List.forall_mem_cons]
    refine ⟨readable_obj ?_, readable_obj ?_, nofun⟩
    · simp only [List.forall_mem_cons]
      exact ⟨Plain.string _, plain_strings (by simp [Value.str]), nofun⟩
    · simp only [List.forall_mem_cons]
      exact ⟨Plain.string _, nofun⟩

/-- Events that all have one name. -/
theorem transcript_values {serde : Serde} (lawful : serde.Lawful)
    {name : Text} (one : OneLine name) {values : List Value}
    (readable : ∀ value ∈ values, Readable value) :
    Transcript serde
      (unlines
        ((values.map fun value => (name, value)).flatMap
          (eventLines serde)))
      values := by
  have whole := transcript_events lawful
    (values.map fun value => (name, value))
    (fun event member => by
      rcases List.mem_map.mp member with ⟨value, _, same⟩
      rw [← same]
      exact one)
    (fun event member => by
      rcases List.mem_map.mp member with ⟨value, listed, same⟩
      rw [← same]
      exact readable value listed)
  have back : (values.map fun value => (name, value)).map Prod.snd =
      values := by
    rw [List.map_map]
    exact List.map_id _
  rw [back] at whole
  exact whole

theorem transcript_small :
    Transcript Codec.serde smallText
      (smallSteps.map Step.value ++ [smallLast, smallFinal]) :=
  transcript_values Codec.lawful ⟨by decide, by decide⟩ readable_small

theorem interleaves_small :
    Interleaves Codec.serde smallBlocks smallSteps := by
  constructor
  · decide
  · intro index block listed
    rcases index with _ | _ | index
    · cases listed
      have streamed :
          Streamed Codec.serde
            (.thinking (told "thinking_delta" "thinking" smallThinking)
              (told "signature_delta" "signature" smallThinking))
            (.start (.obj [("type", .str "thinking")]) ::
              smallThinking.map .delta) :=
        Streamed.thinking (by simp [Value.type])
          (by simp [smallThinking, Value.type])
      have thought :
          told "thinking_delta" "thinking" smallThinking =
            "hm".toList := by
        simp [told, said, smallThinking, Value.type, strField]
      have signed :
          told "signature_delta" "signature" smallThinking =
            "s".toList := by
        simp [told, said, smallThinking, Value.type, strField]
      rw [thought, signed] at streamed
      exact streamed
    · cases listed
      have input :
          told "input_json_delta" "partial_json" smallInput =
            "{}".toList := by
        simp [told, said, smallInput, Value.type, strField]
      show Streamed Codec.serde _
        (.start smallStart :: smallInput.map .delta)
      exact Streamed.toolUse (by simp [smallStart, Value.type])
        (by simp [smallStart, Value.str])
        (by simp [smallStart, Value.str]) (by simp [smallStart])
        (by simp [smallInput, Value.type])
        (by
          rw [input]
          exact Codec.parse_print (.object [])
            (Plain.object List.Pairwise.nil nofun))
    · cases listed

theorem tells_small :
    Tells smallBlocks "tool_use".toList smallMessage := by
  constructor <;> simp [smallMessage, Value.str]

theorem read_small :
    Codec.serde.parse (Codec.print smallMessage) = .ok smallMessage := by
  apply Codec.parse_print
  apply Value.plain_obj
  simp only [List.forall_mem_cons]
  refine ⟨Plain.array ?_, Plain.string _, nofun⟩
  simp only [smallBlocks, List.map_cons, List.forall_mem_cons]
  refine ⟨?_, Value.plain_obj ?_, nofun⟩
  · simp only [Block.value, Value.set_obj]
    exact plain_strings (by simp [Value.str])
  · simp only [List.forall_mem_cons]
    exact ⟨Plain.string _, Plain.string _, Plain.string _,
      Plain.object List.Pairwise.nil nofun, nofun⟩

theorem stops_small : Stops "tool_use".toList smallLast := by
  constructor <;> simp [smallLast, Value.type]

theorem ends_small : smallFinal.type = some "message_stop" := by
  simp [smallFinal, Value.type]

theorem streamed_like_whole_small :
    ∃ sse events,
      parseSse Codec.serde smallText = .ok sse ∧
        parseMessage Codec.serde (Codec.print smallMessage) = .ok events ∧
        Alike Codec.serde smallBlocks smallSteps "tool_use".toList sse
          events :=
  streamed_like_whole tells_small (by decide) read_small
    interleaves_small (sends_values smallSteps) stops_small ends_small
    transcript_small

end Runa.Cloud.Streams
