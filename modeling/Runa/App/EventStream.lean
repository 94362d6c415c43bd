import Runa.App.Serve

/-!
# The Anthropic event stream

The event stream as a client sees it: frames which open a content block, add
to it and close it again.  A list of blocks says how its frames follow each
other, and the loop of `anthropic_stream_chunks` is shown to send the frames
of the blocks it has closed and the first frames of the one it has open.
-/

namespace Runa.App.EventStream

open Runa.Stream.Utf8
open Runa.Engine.Generate
open Runa.Json
open Runa.App.Serve

/-! ## Frames -/

/-- What the start of a block announces. -/
inductive Head where
  | thinking
  | text
  | toolUse (id name : Text)
deriving DecidableEq, Repr

def Head.kind : Head → BlockKind
  | .thinking => .thinking
  | .text => .text
  | .toolUse _ _ => .toolUse

/-- An event of the stream, read. -/
inductive Frame where
  | messageStart
  | start (index : Nat) (head : Head)
  | delta (index : Nat) (kind : BlockKind) (piece : Text)
  | stop (index : Nat)
  | messageDelta (stopReason : Text) (outputTokens : Nat)
  | messageStop
deriving DecidableEq, Repr

def readHead (block : Value) : Option Head :=
  match block.type with
  | some "thinking" => some .thinking
  | some "text" => some .text
  | some "tool_use" => do
    let id ← (← block.get "id").asStr
    let name ← (← block.get "name").asStr
    return .toolUse id name
  | _ => none

def readDelta (delta : Value) : Option (BlockKind × Text) :=
  match delta.type with
  | some "thinking_delta" => do
    return (.thinking, ← (← delta.get "thinking").asStr)
  | some "text_delta" => do
    return (.text, ← (← delta.get "text").asStr)
  | some "input_json_delta" => do
    return (.toolUse, ← (← delta.get "partial_json").asStr)
  | _ => none

def readData (data : Value) : Option Frame :=
  match data.type with
  | some "message_start" => some .messageStart
  | some "content_block_start" => do
    let index ← (← data.get "index").asU64
    return .start index (← readHead (← data.get "content_block"))
  | some "content_block_delta" => do
    let index ← (← data.get "index").asU64
    let (kind, piece) ← readDelta (← data.get "delta")
    return .delta index kind piece
  | some "content_block_stop" => do
    return .stop (← (← data.get "index").asU64)
  | some "message_delta" => do
    let stop ← (← (← data.get "delta").get "stop_reason").asStr
    let tokens ← (← (← data.get "usage").get "output_tokens").asU64
    return .messageDelta stop tokens
  | some "message_stop" => some .messageStop
  | _ => none

/-- An event is read only if it is named by the type of its data. -/
def Frame.read (event : Event) : Option Frame :=
  match event.data with
  | .json data => if data.type = event.name then readData data else none
  | .raw _ => none

theorem read_messageStart (id model : Text) (tokens : Nat) :
    Frame.read (Serve.messageStart id model tokens) =
      some .messageStart := by
  simp [Frame.read, Serve.messageStart, sse, Value.type, readData]

theorem read_blockStart (index : Nat) {block : Value} {head : Head}
    (announced : readHead block = some head) :
    Frame.read (blockStart index block) = some (.start index head) := by
  simp [Frame.read, blockStart, sse, Value.type, readData, announced]

theorem read_blockDelta (index : Nat) {delta : Value} {kind : BlockKind}
    {piece : Text} (added : readDelta delta = some (kind, piece)) :
    Frame.read (blockDelta index delta) =
      some (.delta index kind piece) := by
  simp [Frame.read, blockDelta, sse, Value.type, readData, added]

theorem read_blockStop (index : Nat) :
    Frame.read (blockStop index) = some (.stop index) := by
  simp [Frame.read, blockStop, sse, Value.type, readData]

theorem read_messageDelta (stop : String) (tokens : Nat) :
    Frame.read (Serve.messageDelta stop tokens) =
      some (.messageDelta stop.toList tokens) := by
  simp [Frame.read, Serve.messageDelta, sse, Value.type, readData]

theorem read_messageStop :
    Frame.read Serve.messageStop = some .messageStop := by
  simp [Frame.read, Serve.messageStop, sse, Value.type, readData]

/-! ## Blocks -/

/-- A content block with the pieces it is sent in. -/
structure Block where
  head : Head
  pieces : List Text
  carries : pieces ≠ []

/-- A block with its first piece. -/
def Block.begun (head : Head) (piece : Text) : Block :=
  ⟨head, [piece], List.cons_ne_nil _ _⟩

/-- A block with one piece more. -/
def Block.grown (block : Block) (piece : Text) : Block :=
  ⟨block.head, block.pieces ++ [piece],
    List.append_ne_nil_of_right_ne_nil _ (List.cons_ne_nil _ _)⟩

/-- The frames of a block that is not closed. -/
def Block.opening (index : Nat) (block : Block) : List Frame :=
  .start index block.head ::
    block.pieces.map (Frame.delta index block.head.kind)

/-- The frames of blocks which follow each other from an index on. -/
def blockFrames : Nat → List Block → List Frame
  | _, [] => []
  | index, block :: later =>
    block.opening index ++ .stop index :: blockFrames (index + 1) later

/-- The text of the blocks of one kind. -/
def spoken (kind : BlockKind) (blocks : List Block) : Text :=
  (blocks.filter fun block => block.head.kind = kind).flatMap fun block =>
    block.pieces.flatten

/-- The call a block is for, with the arguments its pieces make. -/
def Block.call (block : Block) : Option ToolCall :=
  match block.head with
  | .toolUse id name => some ⟨id, name, block.pieces.flatten⟩
  | _ => none

@[simp]
theorem spoken_append (kind : BlockKind) (before after : List Block) :
    spoken kind (before ++ after) =
      spoken kind before ++ spoken kind after := by
  simp [spoken]

/-! ## The events of the blocks -/

/-- What the server announces a block with. -/
def Head.value : Head → Value
  | .thinking => .obj [("type", .str "thinking"), ("thinking", .str "")]
  | .text => .obj [("type", .str "text"), ("text", .str "")]
  | .toolUse id name =>
    .obj
      [("type", .str "tool_use"), ("id", .string id),
        ("name", .string name), ("input", .obj [])]

/-- The delta for a piece of a block. -/
def deltaValue (kind : BlockKind) (piece : Text) : Value :=
  match kind with
  | .thinking =>
    .obj [("type", .str "thinking_delta"), ("thinking", .string piece)]
  | .text => .obj [("type", .str "text_delta"), ("text", .string piece)]
  | .toolUse =>
    .obj
      [("type", .str "input_json_delta"), ("partial_json", .string piece)]

/-- The events of a block that is not closed. -/
def Block.begin (index : Nat) (block : Block) : List Event :=
  blockStart index block.head.value ::
    block.pieces.map fun piece =>
      blockDelta index (deltaValue block.head.kind piece)

/-- The events of blocks which follow each other from an index on. -/
def blockEvents : Nat → List Block → List Event
  | _, [] => []
  | index, block :: later =>
    block.begin index ++ blockStop index :: blockEvents (index + 1) later

theorem blockEvents_append (index : Nat) (before after : List Block) :
    blockEvents index (before ++ after) =
      blockEvents index before ++
        blockEvents (index + before.length) after := by
  induction before generalizing index with
  | nil => rfl
  | cons block later ih =>
      rw [List.cons_append, blockEvents, blockEvents, ih,
        List.length_cons, Nat.add_right_comm, Nat.add_assoc]
      simp

theorem readHead_value (head : Head) : readHead head.value = some head := by
  cases head <;> simp [readHead, Head.value, Value.type]

theorem readDelta_value (kind : BlockKind) (piece : Text) :
    readDelta (deltaValue kind piece) = some (kind, piece) := by
  cases kind <;> simp [readDelta, deltaValue, Value.type]

/-- The events of the blocks read as their frames. -/
theorem read_blockEvents (index : Nat) (blocks : List Block) :
    (blockEvents index blocks).map Frame.read =
      (blockFrames index blocks).map some := by
  induction blocks generalizing index with
  | nil => rfl
  | cons block later ih =>
      have pieces :
          (block.pieces.map fun piece =>
              blockDelta index (deltaValue block.head.kind piece)).map
              Frame.read =
            (block.pieces.map (Frame.delta index block.head.kind)).map
              some := by
        rw [List.map_map, List.map_map]
        apply List.map_congr_left
        intro piece _
        exact read_blockDelta index (readDelta_value _ piece)
      rw [blockEvents, blockFrames, Block.begin, Block.opening,
        List.map_append, List.map_append, List.map_cons, List.map_cons,
        List.map_cons, List.map_cons, pieces, ih, read_blockStop,
        read_blockStart index (readHead_value _)]

/-! ## What the events say -/

def texts (events : List GenEvent) : Text :=
  events.flatMap fun
    | .text body => body
    | _ => []

def reasonings (events : List GenEvent) : Text :=
  events.flatMap fun
    | .reasoning body => body
    | _ => []

def toolCalls (events : List GenEvent) : List ToolCall :=
  events.flatMap fun
    | .toolCalls calls => calls
    | _ => []

/-- The blocks carry what the events say. -/
structure Carry (blocks : List Block) (events : List GenEvent) : Prop where
  thinking : spoken .thinking blocks = reasonings events
  text : spoken .text blocks = texts events
  calls : blocks.filterMap Block.call = toolCalls events

/-! ## The loop -/

/-- The stream has sent some blocks in full, and of the one that is open all
but the end. -/
structure Sent (start : Event) (stream : Stream) (closed : List Block)
    (opened : Option Block) : Prop where
  events :
    stream.out =
      start :: (blockEvents 0 closed ++
        (opened.map (Block.begin closed.length)).getD [])
  index : stream.idx = closed.length
  kind : stream.opened = opened.map fun block => block.head.kind

variable {first : Event} {stream : Stream} {closed : List Block}
  {opened : Option Block}

theorem Sent.stop (sent : Sent first stream closed opened) :
    Sent first stream.stop (closed ++ opened.toList) none := by
  cases opened with
  | none =>
      have shut : stream.opened = none := sent.kind
      rw [Stream.stop, shut, Option.toList_none, List.append_nil]
      exact sent
  | some block =>
      have ajar : stream.opened = some block.head.kind := sent.kind
      rw [Stream.stop, ajar]
      constructor
      · show stream.out ++ [blockStop stream.idx] = _
        rw [sent.events, blockEvents_append, sent.index]
        simp [blockEvents]
      · show stream.idx + 1 = _
        rw [sent.index]
        simp
      · rfl

theorem Sent.start (sent : Sent first stream closed none) (head : Head)
    (piece : Text) :
    Sent first
      { stream with
        out := stream.out ++
          [blockStart stream.idx head.value,
            blockDelta stream.idx (deltaValue head.kind piece)]
        opened := some head.kind }
      closed (some (.begun head piece)) := by
  constructor
  · show stream.out ++ [_, _] = _
    rw [sent.events, sent.index]
    simp [Block.begin, Block.begun]
  · exact sent.index
  · rfl

theorem Sent.grow {block : Block}
    (sent : Sent first stream closed (some block)) (piece : Text) :
    Sent first
      { stream with
        out := stream.out ++
          [blockDelta stream.idx (deltaValue block.head.kind piece)] }
      closed (some (block.grown piece)) := by
  constructor
  · show stream.out ++ [_] = _
    rw [sent.events, sent.index]
    simp [Block.begin, Block.grown]
  · exact sent.index
  · exact sent.kind

/-- A piece ends up in the block that is open or in a new one, and in both
cases behind all that was said before. -/
theorem Sent.piece (sent : Sent first stream closed opened) {head : Head}
    (body : Text) (noTool : head.kind ≠ .toolUse) :
    ∃ closed' opened',
      Sent first
          (stream.piece head.kind head.value (deltaValue head.kind body))
          closed' opened' ∧
        (∀ kind,
          spoken kind (closed' ++ opened'.toList) =
            spoken kind (closed ++ opened.toList) ++
              if head.kind = kind then body else []) ∧
        (closed' ++ opened'.toList).filterMap Block.call =
          (closed ++ opened.toList).filterMap Block.call := by
  by_cases fits : stream.opened = some head.kind
  · rcases opened with _ | held
    · rw [sent.kind] at fits
      cases fits
    · have sameKind : held.head.kind = head.kind := by
        rw [sent.kind] at fits
        exact Option.some.inj fits
      refine ⟨closed, some (held.grown body), ?_, ?_, ?_⟩
      · rw [Stream.piece, if_pos fits, ← sameKind]
        exact sent.grow body
      · intro kind
        by_cases asked : head.kind = kind <;>
          simp [spoken, Block.grown, sameKind, asked]
      · cases kindOf : held.head <;> rw [kindOf] at sameKind
        · simp [Block.call, Block.grown, kindOf]
        · simp [Block.call, Block.grown, kindOf]
        · exact absurd sameKind.symm noTool
  · refine ⟨closed ++ opened.toList, some (.begun head body), ?_, ?_, ?_⟩
    · rw [Stream.piece, if_neg fits]
      have begun := sent.stop.start head body
      rw [List.append_cons] at begun
      exact begun
    · intro kind
      by_cases asked : head.kind = kind <;>
        simp [spoken, Block.begun, asked]
    · cases head with
      | thinking => simp [Block.call, Block.begun]
      | text => simp [Block.call, Block.begun]
      | toolUse id name => exact absurd rfl noTool

/-- The block of a tool call. -/
def toolBlock (call : ToolCall) : Block :=
  .begun (.toolUse call.id call.name) call.arguments

/-- The input of a call is left out of the start of its block. -/
theorem toolUseBlock_head (serde : Serde) (call : ToolCall) :
    (toolUseBlock serde call).set "input" (.obj []) =
      (Head.toolUse call.id call.name).value := by
  rw [toolUseBlock, Value.set_obj, Head.value]
  exact Value.obj_last
    [("type", .str "tool_use"), ("id", .string call.id),
      ("name", .string call.name)] "input" _ _

theorem Sent.toolCalls (serde : Serde)
    (sent : Sent first stream closed none) (calls : List ToolCall) :
    Sent first (calls.foldl (Stream.toolCall serde) stream)
      (closed ++ calls.map toolBlock) none := by
  induction calls generalizing stream closed with
  | nil => simpa using sent
  | cons call later ih =>
      have done :=
        (sent.start (.toolUse call.id call.name) call.arguments).stop
      rw [List.foldl_cons, List.map_cons, List.append_cons,
        Stream.toolCall, toolUseBlock_head]
      exact ih done

theorem spoken_toolBlocks {kind : BlockKind} (noTool : kind ≠ .toolUse)
    (calls : List ToolCall) :
    spoken kind (calls.map toolBlock) = [] := by
  simp [spoken, toolBlock, Block.begun, Head.kind, noTool.symm]

theorem calls_toolBlocks (calls : List ToolCall) :
    (calls.map toolBlock).filterMap Block.call = calls := by
  rw [List.filterMap_map]
  convert List.filterMap_some using 1
  apply List.filterMap_congr
  intro call _
  simp [Block.call, toolBlock, Block.begun]

/-- What one event adds to the stream. -/
theorem Sent.step (serde : Serde) (sent : Sent first stream closed opened)
    {events : List GenEvent}
    (carried : Carry (closed ++ opened.toList) events) (event : GenEvent) :
    ∃ closed' opened',
      Sent first (stream.step serde event) closed' opened' ∧
        Carry (closed' ++ opened'.toList) (events ++ [event]) := by
  cases event with
  | text body =>
      by_cases empty : body.isEmpty
      · refine ⟨closed, opened, ?_, ?_⟩
        · rw [Stream.step, if_pos empty]
          exact sent
        · rw [List.isEmpty_iff] at empty
          constructor <;>
            simp [carried.thinking, carried.text, carried.calls, empty,
              reasonings, texts, EventStream.toolCalls]
      · obtain ⟨closed', opened', sent', said, calls⟩ :=
          sent.piece body (show Head.text.kind ≠ .toolUse by decide)
        refine ⟨closed', opened', ?_, ?_⟩
        · rw [Stream.step, if_neg empty]
          exact sent'
        · constructor
          · simp [said, carried.thinking, reasonings, Head.kind]
          · simp [said, carried.text, texts, Head.kind]
          · rw [calls, carried.calls]
            simp [EventStream.toolCalls]
  | reasoning body =>
      by_cases empty : body.isEmpty
      · refine ⟨closed, opened, ?_, ?_⟩
        · rw [Stream.step, if_pos empty]
          exact sent
        · rw [List.isEmpty_iff] at empty
          constructor <;>
            simp [carried.thinking, carried.text, carried.calls, empty,
              reasonings, texts, EventStream.toolCalls]
      · obtain ⟨closed', opened', sent', said, calls⟩ :=
          sent.piece body (show Head.thinking.kind ≠ .toolUse by decide)
        refine ⟨closed', opened', ?_, ?_⟩
        · rw [Stream.step, if_neg empty]
          exact sent'
        · constructor
          · simp [said, carried.thinking, reasonings, Head.kind]
          · simp [said, carried.text, texts, Head.kind]
          · rw [calls, carried.calls]
            simp [EventStream.toolCalls]
  | toolCalls calls =>
      have ready : Sent first { stream with calls } closed opened :=
        ⟨sent.events, sent.index, sent.kind⟩
      refine ⟨_, none, ready.stop.toolCalls serde calls, ?_⟩
      rw [Option.toList_none, List.append_nil]
      constructor
      · rw [spoken_append, carried.thinking,
          spoken_toolBlocks (by decide)]
        simp [reasonings]
      · rw [spoken_append, carried.text, spoken_toolBlocks (by decide)]
        simp [texts]
      · rw [List.filterMap_append, carried.calls, calls_toolBlocks]
        simp [EventStream.toolCalls]
  | usage usage =>
      refine ⟨closed, opened, sent, ?_⟩
      constructor <;>
        simp [carried.thinking, carried.text, carried.calls, reasonings,
          texts, EventStream.toolCalls]
  | done reason =>
      refine ⟨closed, opened, sent, ?_⟩
      constructor <;>
        simp [carried.thinking, carried.text, carried.calls, reasonings,
          texts, EventStream.toolCalls]

/-- The loop, from the stream with only the `message_start` on. -/
theorem sent_loop (serde : Serde) (start : Event)
    (events : List GenEvent) :
    ∃ closed opened,
      Sent start
          (events.foldl (Stream.step serde) ⟨[start], 0, none, []⟩) closed
          opened ∧
        Carry (closed ++ opened.toList) events := by
  induction events using List.reverseRecOn with
  | nil => exact ⟨[], none, ⟨rfl, rfl, rfl⟩, rfl, rfl, rfl⟩
  | append_singleton before event ih =>
      obtain ⟨closed, opened, sent, carried⟩ := ih
      rw [List.foldl_append]
      exact sent.step serde carried event

@[simp]
theorem calls_stop (stream : Stream) : stream.stop.calls = stream.calls := by
  rw [Stream.stop]
  split <;> rfl

theorem calls_toolCall (serde : Serde) (stream : Stream) (call : ToolCall) :
    (stream.toolCall serde call).calls = stream.calls :=
  calls_stop _

theorem calls_piece (stream : Stream) (kind : BlockKind)
    (block delta : Value) :
    (stream.piece kind block delta).calls = stream.calls := by
  rw [Stream.piece]
  split
  · rfl
  · exact calls_stop stream

/-- The calls the loop holds are those of the last event with any. -/
theorem calls_step {serde : Serde} {stream : Stream} {found : Collected}
    (same : stream.calls = found.calls) (event : GenEvent) :
    (stream.step serde event).calls = (found.step event).calls := by
  cases event with
  | text body =>
      rw [Stream.step, Collected.step]
      split
      · exact same
      · rw [calls_piece, same]
  | reasoning body =>
      rw [Stream.step, Collected.step]
      split
      · exact same
      · rw [calls_piece, same]
  | toolCalls calls =>
      rw [Stream.step, Collected.step]
      apply List.foldlRecOn (motive := fun after =>
        Stream.calls after = calls)
      · exact calls_stop _
      · intro after held call _
        rw [calls_toolCall, held]
  | usage usage => exact same
  | done reason => exact same

theorem calls_loop (serde : Serde) (start : Event)
    (events : List GenEvent) :
    (events.foldl (Stream.step serde) ⟨[start], 0, none, []⟩).calls =
      (collect events).calls := by
  induction events using List.reverseRecOn with
  | nil => rfl
  | append_singleton before event ih =>
      rw [collect, List.foldl_append, List.foldl_append]
      exact calls_step ih event

/-- The whole stream. -/
theorem anthropicStreamChunks_eq (serde : Serde) (millis : Nat)
    (model : Text) (events : List GenEvent) :
    ∃ blocks,
      anthropicStreamChunks serde millis model events =
          Serve.messageStart (messageId millis) model
            (tokenCounts events).1 :: (blockEvents 0 blocks ++
            [Serve.messageDelta (anthropicStop (collect events).calls)
              (tokenCounts events).2,
            Serve.messageStop]) ∧
        Carry blocks events := by
  obtain ⟨closed, opened, sent, carried⟩ :=
    sent_loop serde
      (Serve.messageStart (messageId millis) model (tokenCounts events).1)
      events
  refine ⟨closed ++ opened.toList, ?_, carried⟩
  rw [anthropicStreamChunks, sent.stop.events, calls_stop, calls_loop]
  simp

/-- The whole stream, in frames. -/
theorem frames_stream (serde : Serde) (millis : Nat) (model : Text)
    (events : List GenEvent) :
    ∃ blocks,
      (anthropicStreamChunks serde millis model events).map Frame.read =
          (.messageStart :: (blockFrames 0 blocks ++
            [.messageDelta
              (anthropicStop (collect events).calls).toList
              (tokenCounts events).2,
            .messageStop])).map some ∧
        Carry blocks events := by
  obtain ⟨blocks, whole, carried⟩ :=
    anthropicStreamChunks_eq serde millis model events
  refine ⟨blocks, ?_, carried⟩
  rw [whole, List.map_cons, List.map_append, read_blockEvents,
    read_messageStart, List.map_cons, read_messageDelta]
  simp [read_messageStop]

/--
The stream is a `message_start`, the frames of some blocks from index 0 on,
one `message_delta` and a `message_stop`; its thinking, text and argument
deltas make what the events say.
-/
theorem anthropicStreamChunks_wellFormed (serde : Serde) (millis : Nat)
    (model : Text) (events : List GenEvent) :
    ∃ blocks stopReason outputTokens,
      (anthropicStreamChunks serde millis model events).map Frame.read =
          (.messageStart :: (blockFrames 0 blocks ++
            [.messageDelta stopReason outputTokens, .messageStop])).map
            some ∧
        spoken .thinking blocks = reasonings events ∧
        spoken .text blocks = texts events ∧
        blocks.filterMap Block.call = toolCalls events := by
  obtain ⟨blocks, frames, carried⟩ :=
    frames_stream serde millis model events
  exact ⟨blocks, _, _, frames, carried.thinking, carried.text,
    carried.calls⟩

end Runa.App.EventStream
