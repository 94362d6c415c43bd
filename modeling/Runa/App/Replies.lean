import Runa.App.EventStream
import Runa.Json.Codec

/-!
# Streamed and whole replies

What a client ends up with: of a stream by adding up the deltas, of a whole
reply by reading its fields.  The two agree on both routes for every list of
events the engine can produce.
-/

namespace Runa.App.Replies

open Runa.Stream.Utf8
open Runa.Engine.Generate
open Runa.Json
open Runa.Store
open Runa.App.Serve
open Runa.App.EventStream

/-! ## The lists the engine produces -/

/-- The call lists of the events, one for each event with calls. -/
def callLists (events : List GenEvent) : List (List ToolCall) :=
  events.filterMap fun
    | .toolCalls calls => some calls
    | _ => none

def usages (events : List GenEvent) : List Usage :=
  events.filterMap fun
    | .usage usage => some usage
    | _ => none

def stops (events : List GenEvent) : List StopReason :=
  events.filterMap fun
    | .done reason => some reason
    | _ => none

/-- One generation: at most one event with tool calls, which are some calls
with JSON for arguments, one with the counters and one that ends it. -/
structure Answer (serde : Serde) (events : List GenEvent) : Prop where
  oneCalls : (callLists events).length ≤ 1
  called : ∀ calls ∈ callLists events, calls ≠ []
  valid : ∀ call ∈ toolCalls events,
    ∃ input, serde.parse call.arguments = .ok input
  oneUsage : (usages events).length = 1
  oneStop : (stops events).length = 1

theorem toolCalls_eq (events : List GenEvent) :
    toolCalls events = (callLists events).flatten := by
  induction events with
  | nil => rfl
  | cons event later ih =>
      cases event <;>
        simpa [toolCalls, callLists] using ih

theorem collect_eq (events : List GenEvent) :
    collect events =
      ⟨texts events, reasonings events, (callLists events).getLast?.getD [],
        (usages events).getLast?⟩ := by
  induction events using List.reverseRecOn with
  | nil => rfl
  | append_singleton before event ih =>
      rw [collect] at ih
      rw [collect, List.foldl_append, ih]
      cases event <;>
        simp [Collected.step, texts, reasonings, callLists, usages]

theorem collect_text (events : List GenEvent) :
    (collect events).text = texts events := by
  rw [collect_eq]

theorem collect_thinking (events : List GenEvent) :
    (collect events).thinking = reasonings events := by
  rw [collect_eq]

/-- The counters of the stream are those of the first event with any. -/
theorem tokenCounts_eq (events : List GenEvent) :
    tokenCounts events =
      ((usages events).head?.map fun usage =>
        (usage.promptTokens, usage.generatedTokens)).getD (0, 0) := by
  induction events with
  | nil => rfl
  | cons event later ih =>
      rw [tokenCounts] at ih ⊢
      cases event <;> simp [usages] at ih ⊢ <;> exact ih

/-- The call lists of at most one event. -/
theorem collect_calls {events : List GenEvent}
    (few : (callLists events).length ≤ 1) :
    (collect events).calls = toolCalls events := by
  rw [collect_eq, toolCalls_eq]
  rcases lists : callLists events with _ | ⟨calls, _ | ⟨more, rest⟩⟩
  · rfl
  · simp
  · rw [lists] at few
    exact absurd few (by simp)

theorem Answer.calls {serde : Serde} {events : List GenEvent}
    (answer : Answer serde events) :
    (collect events).calls = toolCalls events :=
  collect_calls answer.oneCalls

theorem Answer.usage {serde : Serde} {events : List GenEvent}
    (answer : Answer serde events) :
    ∃ usage, (collect events).usage = some usage ∧
      (tokenCounts events).2 = usage.generatedTokens := by
  obtain ⟨usage, only⟩ := List.length_eq_one_iff.mp answer.oneUsage
  refine ⟨usage, ?_, ?_⟩
  · rw [collect_eq, only]
    rfl
  · rw [tokenCounts_eq, only]
    rfl

/-! ## The OpenAI route -/

/-- What a client of the OpenAI route ends up with; content that is null is
taken for empty. -/
structure OpenaiReply where
  content : Text
  reasoning : Option Text
  calls : List ToolCall
  finish : Option Text
deriving DecidableEq

/-- What it has before the end, the calls under their index. -/
structure OpenaiPartial where
  content : Text
  reasoning : Option Text
  calls : List (Nat × ToolCall)
  finish : Option Text

def asCall (entry : Value) : Option ToolCall := do
  let function ← entry.get "function"
  let id ← (← entry.get "id").asStr
  let name ← (← function.get "name").asStr
  let arguments ← (← function.get "arguments").asStr
  return ⟨id, name, arguments⟩

/-- A piece of a call goes to the call with its index. -/
def addCall (calls : List (Nat × ToolCall)) (entry : Value) :
    List (Nat × ToolCall) :=
  match (entry.get "index").bind Value.asU64, asCall entry with
  | some index, some piece =>
    match Ordered.find index calls with
    | some held =>
      Ordered.put index
        { held with arguments := held.arguments ++ piece.arguments } calls
    | none => Ordered.put index piece calls
  | _, _ => calls

/-- A piece of text behind what there is, if there is any. -/
def addText (held : Option Text) (piece : Text) : Option Text :=
  some (held.getD [] ++ piece)

def OpenaiPartial.delta (reply : OpenaiPartial) (delta : Value) :
    OpenaiPartial where
  content :=
    reply.content ++ ((delta.get "content").bind Value.asStr).getD []
  reasoning :=
    match (delta.get "reasoning_content").bind Value.asStr with
    | some piece => addText reply.reasoning piece
    | none => reply.reasoning
  calls :=
    (((delta.get "tool_calls").bind Value.asArray).getD []).foldl addCall
      reply.calls
  finish := reply.finish

def OpenaiPartial.event (reply : OpenaiPartial) (event : Event) :
    OpenaiPartial :=
  match event.data with
  | .raw _ => reply
  | .json data =>
    match (data.get "choices").bind (Value.item 0) with
    | none => reply
    | some choice =>
      let added := reply.delta ((choice.get "delta").getD .null)
      match (choice.get "finish_reason").bind Value.asStr with
      | some finish => { added with finish := some finish }
      | none => added

/-- The deltas of a stream, added up. -/
def accumulateOpenai (stream : List Event) : OpenaiReply :=
  let reply := stream.foldl OpenaiPartial.event ⟨[], none, [], none⟩
  ⟨reply.content, reply.reasoning, reply.calls.map Prod.snd, reply.finish⟩

/-- The fields of a whole reply. -/
def readOpenai (body : Value) : OpenaiReply :=
  let choice := ((body.get "choices").bind (Value.item 0)).getD .null
  let message := (choice.get "message").getD .null
  { content := ((message.get "content").bind Value.asStr).getD []
    reasoning := (message.get "reasoning_content").bind Value.asStr
    calls :=
      (((message.get "tool_calls").bind Value.asArray).getD []).filterMap
        asCall
    finish := (choice.get "finish_reason").bind Value.asStr }

theorem asCall_openaiToolCall (indexed : Bool) (index : Nat)
    (call : ToolCall) :
    asCall (openaiToolCall indexed index call) = some call := by
  cases indexed <;> simp [asCall, openaiToolCall]

theorem addCall_openaiToolCall {index : Nat}
    {calls : List (Nat × ToolCall)}
    (below : ∀ entry ∈ calls, entry.1 < index) (call : ToolCall) :
    addCall calls (openaiToolCall true index call) =
      calls ++ [(index, call)] := by
  have named :
      ((openaiToolCall true index call).get "index").bind Value.asU64 =
        some index := by
    simp [openaiToolCall]
  have fresh : Ordered.find index calls = none :=
    Ordered.find_eq_none fun entry member => ne_of_gt (below entry member)
  rw [addCall, named, asCall_openaiToolCall]
  simp only [fresh]
  exact Ordered.put_above below call

/-- The entries of one `tool_calls` delta, from an index on. -/
theorem addCalls (calls : List ToolCall) (index : Nat)
    (held : List (Nat × ToolCall))
    (below : ∀ entry ∈ held, entry.1 < index) :
    ((calls.mapIdx fun position =>
        openaiToolCall true (index + position)).foldl addCall held).map
        Prod.snd =
      held.map Prod.snd ++ calls := by
  induction calls generalizing index held with
  | nil => simp
  | cons call later ih =>
      rw [List.mapIdx_cons, List.foldl_cons, Nat.add_zero,
        addCall_openaiToolCall below]
      have next := ih (index + 1) (held ++ [(index, call)]) (by
        intro entry member
        rcases List.mem_append.mp member with old | new
        · exact Nat.lt_succ_of_lt (below entry old)
        · rw [List.mem_singleton.mp new]
          exact Nat.lt_succ_self _)
      have shift : ∀ position,
          index + 1 + position = index + (position + 1) := by
        omega
      simp only [shift] at next
      rw [next]
      simp

/-- A chunk is its delta, and its finish reason if it has one. -/
theorem event_chunk (reply : OpenaiPartial) (id model : Text)
    (delta finish : Value) :
    reply.event (chunk id model delta finish) =
      match finish.asStr with
      | some reason => { reply.delta delta with finish := some reason }
      | none => reply.delta delta := by
  simp [OpenaiPartial.event, chunk, Value.item]

/-- What an event adds. -/
def OpenaiPartial.say (reply : OpenaiPartial) :
    GenEvent → OpenaiPartial
  | .text body => { reply with content := reply.content ++ body }
  | .reasoning body =>
    if body.isEmpty then reply
    else { reply with reasoning := addText reply.reasoning body }
  | .toolCalls calls =>
    { reply with
      calls :=
        (calls.mapIdx (openaiToolCall true)).foldl addCall reply.calls }
  | _ => reply

theorem delta_empty (reply : OpenaiPartial) :
    reply.delta (.obj []) = reply := by
  simp [OpenaiPartial.delta]

/-- The delta of an event adds what the event adds. -/
theorem delta_say (reply : OpenaiPartial) (event : GenEvent) :
    (chunkDelta event).elim reply reply.delta = reply.say event := by
  cases event with
  | text body =>
      cases body with
      | nil => simp [chunkDelta, OpenaiPartial.say]
      | cons char more =>
          simp [chunkDelta, OpenaiPartial.say, OpenaiPartial.delta]
  | reasoning body =>
      cases body with
      | nil => simp [chunkDelta, OpenaiPartial.say]
      | cons char more =>
          simp [chunkDelta, OpenaiPartial.say, OpenaiPartial.delta]
  | toolCalls calls =>
      cases calls with
      | nil => simp [chunkDelta, OpenaiPartial.say]
      | cons call more =>
          simp [chunkDelta, OpenaiPartial.say, OpenaiPartial.delta,
            openaiToolCalls, Value.asArray]
  | usage usage => rfl
  | done reason => rfl

theorem foldl_chunks (id model : Text) (events : List GenEvent)
    (reply : OpenaiPartial) :
    ((events.filterMap chunkDelta).map fun delta =>
        chunk id model delta .null).foldl OpenaiPartial.event reply =
      events.foldl OpenaiPartial.say reply := by
  induction events generalizing reply with
  | nil => rfl
  | cons event later ih =>
      rw [List.foldl_cons, ← delta_say]
      cases sends : chunkDelta event with
      | none =>
          rw [List.filterMap_cons_none sends]
          exact ih reply
      | some delta =>
          rw [List.filterMap_cons_some sends, List.map_cons,
            List.foldl_cons, event_chunk]
          exact ih _

/-- A text which is left out if it is empty. -/
def shown (text : Text) : Option Text :=
  if text.isEmpty then none else some text

theorem addText_shown (held piece : Text) :
    addText (shown held) piece = some (held ++ piece) := by
  cases held <;> rfl

theorem shown_append_cons (held : Text) (char : Char) (more : Text) :
    shown (held ++ char :: more) = some (held ++ char :: more) := by
  simp [shown]

theorem foldl_say (events : List GenEvent) :
    events.foldl OpenaiPartial.say ⟨[], none, [], none⟩ =
      ⟨texts events,
        shown (reasonings events),
        (callLists events).foldl
          (fun held calls =>
            (calls.mapIdx (openaiToolCall true)).foldl addCall held) [],
        none⟩ := by
  induction events using List.reverseRecOn with
  | nil => rfl
  | append_singleton before event ih =>
      rw [List.foldl_append, ih]
      cases event with
      | reasoning body =>
          cases body with
          | nil => simp [OpenaiPartial.say, texts, reasonings, callLists]
          | cons char more =>
              have longer :
                  reasonings (before ++ [.reasoning (char :: more)]) =
                    reasonings before ++ char :: more := by
                simp [reasonings]
              simp [OpenaiPartial.say, addText_shown, longer,
                shown_append_cons, texts, callLists]
      | text body =>
          simp [OpenaiPartial.say, texts, reasonings, callLists]
      | toolCalls calls =>
          simp [OpenaiPartial.say, texts, reasonings, callLists]
      | usage usage =>
          simp [OpenaiPartial.say, texts, reasonings, callLists]
      | done reason =>
          simp [OpenaiPartial.say, texts, reasonings, callLists]

/-- The `finish_reason` of a reply with these calls. -/
def finishReason (calls : List ToolCall) : Text :=
  if calls.isEmpty then "stop".toList else "tool_calls".toList

theorem hasToolCalls_eq (events : List GenEvent) :
    hasToolCalls events =
      (callLists events).any fun calls => !calls.isEmpty := by
  induction events with
  | nil => rfl
  | cons event later ih =>
      rw [hasToolCalls] at ih ⊢
      rw [List.any_cons, ih]
      cases event <;> simp [callLists]

theorem Answer.finish {serde : Serde} {events : List GenEvent}
    (answer : Answer serde events) :
    hasToolCalls events = !(toolCalls events).isEmpty := by
  have few := answer.oneCalls
  rw [hasToolCalls_eq, toolCalls_eq]
  rcases lists : callLists events with _ | ⟨calls, _ | ⟨more, rest⟩⟩
  · rfl
  · simp
  · rw [lists] at few
    exact absurd few (by simp)

theorem accumulate_streamChunks {serde : Serde} (millis : Nat)
    (model : Text) {events : List GenEvent}
    (answer : Answer serde events) :
    accumulateOpenai (streamChunks millis model events) =
      ⟨texts events, shown (reasonings events), toolCalls events,
        some (finishReason (toolCalls events))⟩ := by
  have calls :
      ((callLists events).foldl
        (fun held calls =>
          (calls.mapIdx (openaiToolCall true)).foldl addCall held)
        []).map Prod.snd = toolCalls events := by
    have few := answer.oneCalls
    rw [toolCalls_eq]
    rcases lists : callLists events with _ | ⟨calls, _ | ⟨more, rest⟩⟩
    · rfl
    · have added := addCalls calls 0 [] nofun
      simp only [Nat.zero_add] at added
      simpa using added
    · rw [lists] at few
      exact absurd few (by simp)
  rw [accumulateOpenai, streamChunks, List.foldl_append, foldl_chunks,
    foldl_say]
  generalize List.foldl _ [] (callLists events) = folded at calls ⊢
  rw [List.foldl_cons, event_chunk, delta_empty, answer.finish]
  cases none : (toolCalls events).isEmpty <;>
    simp [OpenaiPartial.event, finishReason, none, calls]

theorem asCall_openaiToolCalls (calls : List ToolCall) :
    (calls.mapIdx (openaiToolCall false)).filterMap asCall = calls := by
  rw [List.mapIdx_eq_zipIdx_map, List.filterMap_map]
  have each :
      (asCall ∘ fun entry : ToolCall × Nat =>
        openaiToolCall false entry.2 entry.1) = some ∘ Prod.fst := by
    funext entry
    exact asCall_openaiToolCall false entry.2 entry.1
  rw [each, List.filterMap_eq_map, List.zipIdx_map_fst]

/-- The message has what was collected in its fields. -/
theorem read_openaiMessage (found : Collected) :
    (((openaiMessage found).get "content").bind Value.asStr).getD [] =
        found.text ∧
      ((openaiMessage found).get "reasoning_content").bind Value.asStr =
        shown found.thinking ∧
      ((((openaiMessage found).get "tool_calls").bind
        Value.asArray).getD []).filterMap asCall = found.calls := by
  have calls := asCall_openaiToolCalls found.calls
  cases noCalls : found.calls.isEmpty <;>
    cases noText : found.text.isEmpty <;>
    cases noThinking : found.thinking.isEmpty <;>
    simp_all [openaiMessage, shown, openaiToolCalls, Value.asArray,
      Value.asStr]

theorem read_nonStreamBody {serde : Serde} (millis : Nat) (model : Text)
    {events : List GenEvent} (answer : Answer serde events) :
    readOpenai (nonStreamBody millis model events) =
      ⟨texts events, shown (reasonings events), toolCalls events,
        some (finishReason (toolCalls events))⟩ := by
  obtain ⟨content, reasoning, calls⟩ :=
    read_openaiMessage (collect events)
  rw [collect_text] at content
  rw [collect_thinking] at reasoning
  rw [answer.calls] at calls
  rw [nonStreamBody]
  simp only [answer.calls]
  cases none : (toolCalls events).isEmpty <;>
    simp [readOpenai, Value.item, content, reasoning, calls, finishReason,
      none]

/-! ## The Anthropic route -/

/-- What a client of the Anthropic route ends up with; a call is its id, its
name and its input, if that is JSON. -/
structure AnthropicReply where
  thinking : Text
  text : Text
  toolUses : List (Text × Text × Option Value)
  stopReason : Option Text
  outputTokens : Option Nat

/-- What it has before the end, the blocks under their index. -/
structure AnthropicPartial where
  blocks : List (Nat × Head × Text)
  stopReason : Option Text
  outputTokens : Option Nat

def AnthropicPartial.frame (reply : AnthropicPartial) :
    Frame → AnthropicPartial
  | .start index head =>
    { reply with blocks := Ordered.put index (head, []) reply.blocks }
  | .delta index kind piece =>
    match Ordered.find index reply.blocks with
    | some (head, held) =>
      if head.kind = kind then
        { reply with
          blocks := Ordered.put index (head, held ++ piece) reply.blocks }
      else reply
    | none => reply
  | .messageDelta stopReason outputTokens =>
    { reply with
      stopReason := some stopReason, outputTokens := some outputTokens }
  | _ => reply

/-- The text of the blocks of one kind, by their index. -/
def AnthropicPartial.spoken (reply : AnthropicPartial)
    (kind : BlockKind) : Text :=
  (reply.blocks.map Prod.snd).flatMap fun block =>
    if block.1.kind = kind then block.2 else []

/-- The blocks of a stream, added up; the arguments of a call are read when
they are whole. -/
def accumulateAnthropic (serde : Serde) (stream : List Event) :
    AnthropicReply :=
  let reply :=
    (stream.filterMap Frame.read).foldl AnthropicPartial.frame
      ⟨[], none, none⟩
  { thinking := reply.spoken .thinking
    text := reply.spoken .text
    toolUses := (reply.blocks.map Prod.snd).filterMap fun block =>
      match block.1 with
      | .toolUse id name => some (id, name, (serde.parse block.2).toOption)
      | _ => none
    stopReason := reply.stopReason
    outputTokens := reply.outputTokens }

/-- The texts of the content blocks of one type. -/
def contentText (type : String) (content : List Value) : Text :=
  content.flatMap fun block =>
    if block.type = some type then
      ((block.get type).bind Value.asStr).getD []
    else []

def asToolUse (block : Value) : Option (Text × Text × Option Value) :=
  if block.type = some "tool_use" then do
    let id ← (← block.get "id").asStr
    let name ← (← block.get "name").asStr
    return (id, name, block.get "input")
  else none

/-- The fields of a whole reply. -/
def readAnthropic (body : Value) : AnthropicReply :=
  let content := ((body.get "content").bind Value.asArray).getD []
  { thinking := contentText "thinking" content
    text := contentText "text" content
    toolUses := content.filterMap asToolUse
    stopReason := (body.get "stop_reason").bind Value.asStr
    outputTokens :=
      ((body.get "usage").bind fun usage =>
        usage.get "output_tokens").bind Value.asU64 }

/-- The block with the highest index takes its pieces in order. -/
theorem foldl_pieces (pieces : List Text) {index : Nat} {head : Head}
    (held : Text) {before : List (Nat × Head × Text)}
    (below : ∀ entry ∈ before, entry.1 < index) :
    (pieces.map (Frame.delta index head.kind)).foldl
        AnthropicPartial.frame
        ⟨before ++ [(index, head, held)], none, none⟩ =
      ⟨before ++ [(index, head, held ++ pieces.flatten)], none,
        none⟩ := by
  induction pieces generalizing held with
  | nil => simp
  | cons piece later ih =>
      rw [List.map_cons, List.foldl_cons, AnthropicPartial.frame,
        Ordered.find_last below]
      simp only [if_pos, Ordered.put_last below]
      rw [ih, List.flatten_cons, List.append_assoc]

/-- The blocks of a stream end up under their indices. -/
theorem foldl_blockFrames (blocks : List Block) (index : Nat)
    (before : List (Nat × Head × Text))
    (below : ∀ entry ∈ before, entry.1 < index) :
    ∃ after,
      (blockFrames index blocks).foldl AnthropicPartial.frame
          ⟨before, none, none⟩ = ⟨after, none, none⟩ ∧
        after.map Prod.snd =
          before.map Prod.snd ++ blocks.map fun block =>
            (block.head, block.pieces.flatten) := by
  induction blocks generalizing index before with
  | nil => exact ⟨before, rfl, by simp⟩
  | cons block later ih =>
      obtain ⟨after, folded, blocks⟩ :=
        ih (index + 1)
          (before ++ [(index, block.head, block.pieces.flatten)]) (by
          intro entry member
          rcases List.mem_append.mp member with old | new
          · exact Nat.lt_succ_of_lt (below entry old)
          · rw [List.mem_singleton.mp new]
            exact Nat.lt_succ_self _)
      refine ⟨after, ?_, ?_⟩
      · rw [blockFrames, Block.opening, List.cons_append, List.foldl_cons,
          AnthropicPartial.frame, Ordered.put_above below,
          List.foldl_append, foldl_pieces _ _ below, List.nil_append,
          List.foldl_cons]
        exact folded
      · rw [blocks]
        simp

theorem spoken_eq (kind : BlockKind) (blocks : List Block) :
    (blocks.map fun block => (block.head, block.pieces.flatten)).flatMap
        (fun block => if block.1.kind = kind then block.2 else []) =
      spoken kind blocks := by
  induction blocks with
  | nil => rfl
  | cons block later ih =>
      rw [spoken] at ih ⊢
      by_cases asked : block.head.kind = kind <;> simp [asked, ih]

theorem calls_eq (serde : Serde) (blocks : List Block) :
    (blocks.map fun block => (block.head, block.pieces.flatten)).filterMap
        (fun block =>
          match block.1 with
          | .toolUse id name =>
            some (id, name, (serde.parse block.2).toOption)
          | _ => none) =
      (blocks.filterMap Block.call).map fun call =>
        (call.id, call.name, (serde.parse call.arguments).toOption) := by
  induction blocks with
  | nil => rfl
  | cons block later ih =>
      cases called : block.head <;> simp [Block.call, called, ih]

theorem accumulate_anthropicStreamChunks (serde : Serde) (millis : Nat)
    (model : Text) (events : List GenEvent) :
    accumulateAnthropic serde
        (anthropicStreamChunks serde millis model events) =
      ⟨reasonings events, texts events,
        (toolCalls events).map fun call =>
          (call.id, call.name, (serde.parse call.arguments).toOption),
        some (anthropicStop (collect events).calls).toList,
        some (tokenCounts events).2⟩ := by
  obtain ⟨blocks, frames, carried⟩ :=
    frames_stream serde millis model events
  obtain ⟨after, folded, held⟩ :=
    foldl_blockFrames blocks 0 [] nofun
  have read :
      (anthropicStreamChunks serde millis model events).filterMap
          Frame.read =
        ((anthropicStreamChunks serde millis model events).map
          Frame.read).filterMap id := by
    rw [List.filterMap_map, Function.id_comp]
  rw [accumulateAnthropic, read, frames, List.filterMap_map,
    Function.id_comp, List.filterMap_some, List.foldl_cons,
    List.foldl_append]
  simp only [AnthropicPartial.frame, folded, List.foldl_cons,
    List.foldl_nil, AnthropicPartial.spoken, held, List.map_nil,
    List.nil_append, spoken_eq, calls_eq, carried.thinking, carried.text,
    carried.calls]

theorem type_toolUseBlock (serde : Serde) (call : ToolCall) :
    (toolUseBlock serde call).type = some "tool_use" := by
  simp [toolUseBlock, Value.type]

theorem contentText_calls (serde : Serde) (type : String)
    (other : type ≠ "tool_use") (calls : List ToolCall) :
    contentText type (calls.map (toolUseBlock serde)) = [] := by
  simp [contentText, type_toolUseBlock, other.symm]

theorem asToolUse_toolUseBlock {serde : Serde} {call : ToolCall}
    {input : Value} (valid : serde.parse call.arguments = .ok input) :
    asToolUse (toolUseBlock serde call) =
      some (call.id, call.name,
        (serde.parse call.arguments).toOption) := by
  rw [asToolUse, if_pos (type_toolUseBlock serde call)]
  simp [toolUseBlock, valid, Except.toOption]

/-- The fields of the content blocks, in their order. -/
theorem read_anthropicContent {serde : Serde} (found : Collected)
    (valid : ∀ call ∈ found.calls,
      ∃ input, serde.parse call.arguments = .ok input) :
    contentText "thinking" (anthropicContent serde found) =
        found.thinking ∧
      contentText "text" (anthropicContent serde found) = found.text ∧
      (anthropicContent serde found).filterMap asToolUse =
        found.calls.map fun call =>
          (call.id, call.name,
            (serde.parse call.arguments).toOption) := by
  have calls :
      (found.calls.map (toolUseBlock serde)).filterMap asToolUse =
        found.calls.map fun call =>
          (call.id, call.name,
            (serde.parse call.arguments).toOption) := by
    rw [List.filterMap_map, ← List.filterMap_eq_map]
    apply List.filterMap_congr
    intro call member
    obtain ⟨input, read⟩ := valid call member
    exact asToolUse_toolUseBlock read
  have thinkings :=
    contentText_calls serde "thinking" (by decide) found.calls
  have texts :=
    contentText_calls serde "text" (by decide) found.calls
  refine ⟨?_, ?_, ?_⟩
  · rw [contentText] at thinkings ⊢
    rw [anthropicContent, List.flatMap_append, List.flatMap_append,
      thinkings]
    cases silent : found.thinking.isEmpty <;>
      cases shown : !found.text.isEmpty || found.calls.isEmpty <;>
      simp_all [Value.type]
  · rw [contentText] at texts ⊢
    rw [anthropicContent, List.flatMap_append, List.flatMap_append, texts]
    cases silent : found.thinking.isEmpty <;>
      cases shown : !found.text.isEmpty || found.calls.isEmpty <;>
      simp_all [Value.type]
  · rw [anthropicContent, List.filterMap_append, List.filterMap_append,
      calls]
    cases silent : found.thinking.isEmpty <;>
      cases shown : !found.text.isEmpty || found.calls.isEmpty <;>
      simp_all [Value.type, asToolUse]

theorem read_anthropicMessageBody {serde : Serde} (millis : Nat)
    (model : Text) {events : List GenEvent}
    (answer : Answer serde events) :
    readAnthropic (anthropicMessageBody serde millis model events) =
      ⟨reasonings events, texts events,
        (toolCalls events).map fun call =>
          (call.id, call.name, (serde.parse call.arguments).toOption),
        some (anthropicStop (collect events).calls).toList,
        some (tokenCounts events).2⟩ := by
  obtain ⟨thinking, text, calls⟩ :=
    read_anthropicContent (collect events) (by
      rw [answer.calls]
      exact answer.valid)
  obtain ⟨usage, counted, tokens⟩ := answer.usage
  rw [answer.calls] at calls
  rw [collect_thinking] at thinking
  rw [collect_text] at text
  simp [readAnthropic, anthropicMessageBody, Value.asArray, counted,
    tokens, thinking, text, calls]

/--
A stream says what the whole reply says: on the OpenAI route the content, the
reasoning, the calls and the finish reason, on the Anthropic route the
thinking, the text, the calls with their inputs, the stop reason and the
number of tokens.
-/
theorem replies_agree {serde : Serde} (millis millis' : Nat) (model : Text)
    {events : List GenEvent} (answer : Answer serde events) :
    accumulateOpenai (streamChunks millis model events) =
        readOpenai (nonStreamBody millis' model events) ∧
      accumulateAnthropic serde
          (anthropicStreamChunks serde millis model events) =
        readAnthropic
          (anthropicMessageBody serde millis' model events) := by
  constructor
  · rw [accumulate_streamChunks millis model answer,
      read_nonStreamBody millis' model answer]
  · rw [accumulate_anthropicStreamChunks,
      read_anthropicMessageBody millis' model answer]

/-- Thinking, an empty piece, text and one call. -/
def smallEvents : List GenEvent :=
  [.reasoning "hm".toList, .text [], .text "ok".toList,
    .toolCalls [⟨"c1".toList, "f".toList, "{}".toList⟩],
    .usage ⟨3, 4, 1⟩, .done .eos]

theorem answer_small : Answer Codec.serde smallEvents where
  oneCalls := by decide
  called := by decide
  valid := by
    intro call member
    cases List.mem_singleton.mp member
    exact ⟨_, Codec.parse_print (.object [])
      (Plain.object List.Pairwise.nil nofun)⟩
  oneUsage := rfl
  oneStop := rfl

theorem replies_agree_small :
    accumulateOpenai (streamChunks 0 "m".toList smallEvents) =
        readOpenai (nonStreamBody 1 "m".toList smallEvents) ∧
      accumulateAnthropic Codec.serde
          (anthropicStreamChunks Codec.serde 0 "m".toList smallEvents) =
        readAnthropic
          (anthropicMessageBody Codec.serde 1 "m".toList smallEvents) :=
  replies_agree 0 1 "m".toList answer_small

end Runa.App.Replies
