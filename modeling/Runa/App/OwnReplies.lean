import Runa.App.Messages
import Runa.App.Replies

/-!
# The server's own replies

A client puts the reply of the server back into the history of its next
request.  The embedding of how an `IncomingMessage` of `runa/src/serve.rs` is
read from JSON, and of the two ways back: the message of the OpenAI route is
understood, and the content of the Anthropic route if and only if it has no
thinking in it.
-/

namespace Runa.App.OwnReplies

open Runa.App.EventStream (texts reasonings toolCalls)
open Runa.App.Messages
open Runa.App.Replies
  (callLists collect_calls collect_text collect_thinking smallEvents)
open Runa.App.Serve
open Runa.Engine.Generate
open Runa.Engine.Requests
open Runa.Fallible.Steps
open Runa.Json
open Runa.Store
open Runa.Stream.Utf8

/-! ## Reading messages -/

/-- A field that need not be there; a null is not there. -/
def optional {α : Type} (read : Value → Option α) :
    Option Value → Option (Option α)
  | none => some none
  | some .null => some none
  | some value => (read value).map some

def readImageUrl (value : Value) : Option ImageUrlPart := do
  let url ← (value.get "url").bind Value.asStr
  return ⟨url⟩

def readInputAudio (value : Value) : Option InputAudioPart := do
  let data ← (value.get "data").bind Value.asStr
  let format ← optional Value.asStr (value.get "format")
  return ⟨data, format⟩

def isContent (key : Text) : Bool :=
  "content".toList = key

mutual

def readContent : Value → Option IncomingContent
  | .string body => some (.text body)
  | .array items => (readParts items).map .parts
  | _ => none

def readParts : List Value → Option (List ContentPart)
  | [] => some []
  | item :: items => do
    let part ← readPart item
    let parts ← readParts items
    return part :: parts

def readPart : Value → Option ContentPart
  | .object members => do
    let value := Value.object members
    let kind ← optional Value.asStr (value.get "type")
    let text ← optional Value.asStr (value.get "text")
    let imageUrl ← optional readImageUrl (value.get "image_url")
    let inputAudio ← optional readInputAudio (value.get "input_audio")
    let id ← optional Value.asStr (value.get "id")
    let name ← optional Value.asStr (value.get "name")
    let input ← optional some (value.get "input")
    let toolUseId ← optional Value.asStr (value.get "tool_use_id")
    let content ← readContentField members
    return {
      kind := kind
      text := text
      imageUrl := imageUrl
      inputAudio := inputAudio
      id := id
      name := name
      input := input
      toolUseId := toolUseId
      content := content }
  | _ => none

/-- The field `content` of a part. -/
def readContentField :
    List (Text × Value) → Option (Option IncomingContent)
  | [] => some none
  | (key, value) :: members =>
    if isContent key then
      match value with
      | .null => some none
      | value => (readContent value).map some
    else readContentField members

end

def readFunction (value : Value) : Option IncomingFunction := do
  let name ← (value.get "name").bind Value.asStr
  let arguments ← optional some (value.get "arguments")
  return ⟨name, arguments⟩

def readToolCall (value : Value) : Option IncomingToolCall := do
  let id ← optional Value.asStr (value.get "id")
  let function ← (value.get "function").bind readFunction
  return ⟨id, function⟩

/-- `#[serde(default)]` on a list -/
def readToolCalls : Option Value → Option (List IncomingToolCall)
  | none => some []
  | some value => do
    let items ← value.asArray
    items.mapM readToolCall

def readMessage (value : Value) : Option IncomingMessage := do
  let role ← (value.get "role").bind Value.asStr
  let content ← optional readContent (value.get "content")
  let toolCalls ← readToolCalls (value.get "tool_calls")
  let toolCallId ← optional Value.asStr (value.get "tool_call_id")
  return ⟨role, content, toolCalls, toolCallId⟩

/-! ## What a client puts back -/

/-- The message of a whole reply of the OpenAI route. -/
def openaiTurn (body : Value) : Option Value :=
  ((body.get "choices").bind (Value.item 0)).bind (Value.get "message")

/-- A turn with the content of a whole reply of the Anthropic route. -/
def anthropicTurn (body : Value) : Option Value :=
  (body.get "content").map fun content =>
    .obj [("role", .str "assistant"), ("content", content)]

/-- One text is JSON that the other prints as, if it is not the other. -/
def JsonEqual (serde : Serde) (old new : Text) : Prop :=
  new = old ∨
    ∃ value, serde.parse old = .ok value ∧ serde.print value = new

/-- Arguments without floats read back as the value they were. -/
theorem JsonEqual.parse {serde : Serde} (lawful : serde.Lawful)
    {old new : Text} (equal : JsonEqual serde old new)
    (plain : ∀ value, serde.parse old = .ok value → Plain 127 value) :
    serde.parse new = serde.parse old := by
  rcases equal with rfl | ⟨value, read, rfl⟩
  · rfl
  · rw [lawful.parse_print value (plain value read), read]

structure SameCall (serde : Serde) (old new : ToolCall) : Prop where
  id : old.id = new.id
  name : old.name = new.name
  arguments : JsonEqual serde old.arguments new.arguments

/-- The turn of an assistant. -/
def assistant (text : Text) (calls : List ToolCall) : ChatMessage where
  role := "assistant".toList
  content := text
  toolCalls := calls
  toolCallId := none

/-- A message of any history becomes one turn with what the events say. -/
def Understood {Pcm : Type} (media : Media Pcm) (serde : Serde)
    (events : List GenEvent) (turn : Option Value) : Prop :=
  ∃ value message calls, turn = some value ∧
    readMessage value = some message ∧
      List.Forall₂ (SameCall serde) (toolCalls events) calls ∧
        ∀ before after body,
          messagesFromBody media serde (before ++ after) = .ok body →
            messagesFromBody media serde (before ++ message :: after) =
              .ok { body with
                messages :=
                  before.flatMap (IncomingMessage.said serde) ++
                    assistant (texts events) calls ::
                      after.flatMap (IncomingMessage.said serde) }

/-! ## Messages without media -/

section

variable {Pcm : Type} {media : Media Pcm} {serde : Serde}
  {message : IncomingMessage} {parts : List ContentPart}

/-- A text, or a call with a name. -/
def Quiet (part : ContentPart) : Prop :=
  part.partKind = .text ∨ part.partKind = .toolUse ∧ part.name.isSome

theorem contentPart_quiet {part : ContentPart} (quiet : Quiet part)
    (state : Text × Seen Pcm) :
    contentPart media state part =
      .ok (state.1 ++ partText part, state.2) := by
  unfold contentPart partText
  rcases quiet with text | ⟨use, -⟩
  · rw [text]
    rfl
  · rw [use]
    exact congrArg Except.ok (Prod.ext (List.append_nil _).symm rfl)

theorem blockPart_quiet {part : ContentPart} (quiet : Quiet part)
    (state : List ChatMessage × List ToolCall) :
    blockPart media serde state part =
      .ok (state.1, state.2 ++ (useOf serde part).toList) := by
  unfold blockPart useOf
  rcases quiet with text | ⟨use, named⟩
  · rw [text]
    exact congrArg Except.ok (Prod.ext rfl (List.append_nil _).symm)
  · rw [use]
    obtain ⟨name, same⟩ := Option.isSome_iff_exists.mp named
    rw [same]
    rfl

theorem contentText_quiet {content : Option IncomingContent}
    (quiet : ∀ part ∈ partsOf content, Quiet part) (seen : Seen Pcm) :
    contentText media content seen = .ok (textOf content, seen) := by
  rcases content with _ | ⟨body⟩ | ⟨parts⟩
  · rfl
  · rfl
  · apply foldlM_eq_ok (fun front =>
      (front.flatMap partText, seen))
    intro front part member
    rw [contentPart_quiet (quiet part member), List.flatMap_append,
      List.flatMap_singleton]

theorem blocks_quiet (quiet : ∀ part ∈ parts, Quiet part)
    (out : List ChatMessage) (calls : List ToolCall) :
    parts.foldlM (blockPart media serde) (out, calls) =
      .ok (out, calls ++ parts.filterMap (useOf serde)) := by
  have start : (out, calls) = (out, calls ++ [].filterMap (useOf serde)) :=
    Prod.ext rfl (List.append_nil calls).symm
  rw [start]
  apply foldlM_eq_ok (fun front =>
    (out, calls ++ front.filterMap (useOf serde)))
  intro front part member
  rw [blockPart_quiet (quiet part member), filterMap_concat,
    List.append_assoc]

/-- A quiet message of an assistant is its turn. -/
theorem bodyMessage_quiet
    (quiet : ∀ part ∈ partsOf message.content, Quiet part)
    (role : message.role = "assistant".toList)
    (state : List ChatMessage × Seen Pcm) :
    bodyMessage media serde state message =
      .ok (state.1 ++ [message.chat serde], state.2) := by
  unfold bodyMessage
  rw [contentText_quiet quiet]
  simp only [bind, Except.bind]
  rw [blocks_quiet quiet]
  exact if_pos (Or.inr (Or.inl role))

/-! ## Histories -/

theorem blockPart_frame (out : List ChatMessage)
    (state : List ChatMessage × List ToolCall) (part : ContentPart) :
    blockPart media serde (out ++ state.1, state.2) part =
      (blockPart media serde state part).map fun next =>
        (out ++ next.1, next.2) := by
  unfold blockPart
  cases part.partKind with
  | toolUse =>
      cases part.name with
      | none => rfl
      | some name => rfl
  | toolResult =>
      cases read : contentText media part.content ⟨[], none⟩ with
      | error error => rfl
      | ok text =>
          simp only [bind, Except.bind, List.append_assoc]
          rfl
  | _ => rfl

/-- The turns so far are carried along. -/
theorem bodyMessage_frame (out : List ChatMessage)
    (state : List ChatMessage × Seen Pcm) (message : IncomingMessage) :
    bodyMessage media serde (out ++ state.1, state.2) message =
      (bodyMessage media serde state message).map fun next =>
        (out ++ next.1, next.2) := by
  unfold bodyMessage
  cases contentText media message.content state.2 with
  | error error => rfl
  | ok read =>
      simp only [bind, Except.bind]
      have blocks := fun calls : List ToolCall =>
        @foldlM_map _ _ _ (blockPart media serde)
          (partsOf message.content) (state.1, calls)
          (fun next => (out ++ next.1, next.2)) (blockPart_frame out)
      dsimp only at blocks
      rw [blocks]
      cases (partsOf message.content).foldlM (blockPart media serde)
          (state.1, message.toolCalls.map (IncomingToolCall.call serde)) with
      | error error => rfl
      | ok next =>
          simp only [Except.map]
          split_ifs with speaks
          · simp only [List.append_assoc]
            rfl
          · rfl

/-- The messages behind a new turn become what they were. -/
theorem rest_frame {messages : List IncomingMessage}
    {out out' : List ChatMessage} {seen seen' : Seen Pcm}
    (ran : messages.foldlM (bodyMessage media serde) (out, seen) =
      .ok (out', seen')) (turn : ChatMessage) :
    messages.foldlM (bodyMessage media serde) (out ++ [turn], seen) =
      .ok (out ++ turn :: messages.flatMap (IncomingMessage.said serde),
        seen') := by
  have frame := fun front : List ChatMessage =>
    @foldlM_map _ _ _ (bodyMessage media serde) messages ([], seen)
      (fun next => (front ++ next.1, next.2)) (bodyMessage_frame front)
  have here := frame out
  have there := frame (out ++ [turn])
  dsimp only at here there
  rw [List.append_nil] at here there
  rw [here] at ran
  cases fresh : messages.foldlM (bodyMessage media serde) ([], seen) with
  | error error =>
      rw [fresh] at ran
      cases ran
  | ok next =>
      rw [fresh] at ran there
      have said := (bodyMessages_spec fresh).1
      rw [List.nil_append] at said
      rw [there]
      simp only [Except.map, Except.ok.injEq, Prod.mk.injEq] at ran ⊢
      refine ⟨?_, ran.2⟩
      rw [said, List.append_assoc]
      rfl

/-- A quiet message adds one turn to a history. -/
theorem history_quiet
    (quiet : ∀ part ∈ partsOf message.content, Quiet part)
    (role : message.role = "assistant".toList)
    {before after : List IncomingMessage} {body : ParsedBody Pcm}
    (accepted : messagesFromBody media serde (before ++ after) = .ok body) :
    messagesFromBody media serde (before ++ message :: after) =
      .ok { body with
        messages :=
          before.flatMap (IncomingMessage.said serde) ++
            message.chat serde ::
              after.flatMap (IncomingMessage.said serde) } := by
  unfold messagesFromBody at accepted ⊢
  rw [List.foldlM_append] at accepted ⊢
  obtain ⟨⟨out, seen⟩, ran, accepted⟩ := bind_eq_ok.mp accepted
  obtain ⟨⟨front, middle⟩, first, second⟩ := bind_eq_ok.mp ran
  have said := (bodyMessages_spec first).1
  rw [List.nil_append] at said
  dsimp only at accepted said
  rw [first]
  simp only [bind, Except.bind, List.foldlM_cons]
  rw [bodyMessage_quiet quiet role]
  simp only
  rw [rest_frame second, ← said]
  dsimp only
  split_ifs at accepted ⊢ with mixed unsupported
  cases accepted
  rfl

end

/-! ## Reading a reply -/

section

variable {serde : Serde} {found : Collected}

theorem isContent_iff {key : Text} :
    isContent key = true ↔ "content".toList = key :=
  decide_eq_true_iff

theorem readContentField_eq (members : List (Text × Value)) :
    readContentField members =
      optional readContent (Ordered.find "content".toList members) := by
  induction members with
  | nil =>
      rw [readContentField, Ordered.find]
      rfl
  | cons member members induction =>
      obtain ⟨key, value⟩ := member
      have field : readContentField ((key, value) :: members) =
          if isContent key then optional readContent (some value)
          else readContentField members := by
        cases value <;> rw [readContentField]
        all_goals first | rfl | (intro null; cases null)
      rw [field, induction, Ordered.find]
      by_cases same : "content".toList = key
      · rw [if_pos same, if_pos (isContent_iff.mpr same)]
      · rw [if_neg same, if_neg (mt isContent_iff.mp same)]

/-- A part whose fields are in an object literal. -/
theorem readPart_obj (members : List (String × Value)) :
    readPart (.obj members) = (do
      let value := Value.obj members
      let kind ← optional Value.asStr (value.get "type")
      let text ← optional Value.asStr (value.get "text")
      let imageUrl ← optional readImageUrl (value.get "image_url")
      let inputAudio ← optional readInputAudio (value.get "input_audio")
      let id ← optional Value.asStr (value.get "id")
      let name ← optional Value.asStr (value.get "name")
      let input ← optional some (value.get "input")
      let toolUseId ← optional Value.asStr (value.get "tool_use_id")
      let content ← optional readContent (value.get "content")
      return ⟨kind, text, imageUrl, inputAudio, id, name, input, toolUseId,
        content⟩) := by
  rw [Value.obj, Value.ofMembers, readPart, readContentField_eq]
  rfl

def thinkingPart : ContentPart :=
  .bare "thinking"

def textPart (text : Text) : ContentPart :=
  { ContentPart.bare "text" with text := some text }

def usePart (serde : Serde) (call : ToolCall) : ContentPart :=
  { ContentPart.bare "tool_use" with
    id := some call.id
    name := some call.name
    input := (serde.parse call.arguments).toOption }

theorem readPart_thinking (text : Text) :
    readPart (.obj [("type", .str "thinking"),
      ("thinking", .string text)]) = some thinkingPart := by
  rw [readPart_obj]
  simp [optional]
  rfl

theorem readPart_text (text : Text) :
    readPart (.obj [("type", .str "text"), ("text", .string text)]) =
      some (textPart text) := by
  rw [readPart_obj]
  simp [optional]
  rfl

theorem readPart_use {call : ToolCall} {members : List (Text × Value)}
    (object : serde.parse call.arguments = .ok (.object members)) :
    readPart (toolUseBlock serde call) = some (usePart serde call) := by
  rw [toolUseBlock, object, readPart_obj]
  rw [usePart, object]
  simp [optional]
  rfl

theorem readParts_append (items items' : List Value) :
    readParts (items ++ items') = (do
      let parts ← readParts items
      let parts' ← readParts items'
      return parts ++ parts') := by
  induction items with
  | nil =>
      rw [List.nil_append, readParts]
      cases readParts items' <;> rfl
  | cons item items induction =>
      rw [List.cons_append, readParts, readParts, induction]
      cases readPart item with
      | none => rfl
      | some part =>
          cases readParts items with
          | none => rfl
          | some parts =>
              cases readParts items' <;> rfl

theorem readParts_uses {calls : List ToolCall}
    (objects : ∀ call ∈ calls, ∃ members,
      serde.parse call.arguments = .ok (.object members)) :
    readParts (calls.map (toolUseBlock serde)) =
      some (calls.map (usePart serde)) := by
  induction calls with
  | nil =>
      rw [List.map_nil, readParts]
      rfl
  | cons call calls induction =>
      obtain ⟨⟨members, object⟩, others⟩ := List.forall_mem_cons.mp objects
      rw [List.map_cons, readParts, readPart_use object, induction others]
      rfl

/-- The parts of the content of a whole reply. -/
def replyParts (serde : Serde) (found : Collected) : List ContentPart :=
  (if found.thinking.isEmpty then [] else [thinkingPart]) ++
    (if !found.text.isEmpty || found.calls.isEmpty then
      [textPart found.text]
    else []) ++
      found.calls.map (usePart serde)

theorem readParts_reply
    (objects : ∀ call ∈ found.calls, ∃ members,
      serde.parse call.arguments = .ok (.object members)) :
    readParts (anthropicContent serde found) =
      some (replyParts serde found) := by
  have thinking : readParts
      (if found.thinking.isEmpty then []
        else [.obj [("type", .str "thinking"),
          ("thinking", .string found.thinking)]]) =
      some (if found.thinking.isEmpty then [] else [thinkingPart]) := by
    split_ifs
    · rw [readParts]
    · rw [readParts, readPart_thinking, readParts]
      rfl
  have text : readParts
      (if !found.text.isEmpty || found.calls.isEmpty then
        [.obj [("type", .str "text"), ("text", .string found.text)]]
      else []) =
      some (if !found.text.isEmpty || found.calls.isEmpty then
        [textPart found.text] else []) := by
    split_ifs
    · rw [readParts, readPart_text, readParts]
      rfl
    · rw [readParts]
  rw [anthropicContent, readParts_append, readParts_append, thinking, text,
    readParts_uses objects]
  rfl

/-- The message of a client of the Anthropic route. -/
def anthropicMessage (serde : Serde) (found : Collected) :
    IncomingMessage where
  role := "assistant".toList
  content := some (.parts (replyParts serde found))
  toolCalls := []
  toolCallId := none

theorem readMessage_anthropic
    (objects : ∀ call ∈ found.calls, ∃ members,
      serde.parse call.arguments = .ok (.object members)) :
    readMessage (.obj [("role", .str "assistant"),
      ("content", .array (anthropicContent serde found))]) =
      some (anthropicMessage serde found) := by
  have content : optional readContent
      (some (.array (anthropicContent serde found))) =
        some (some (.parts (replyParts serde found))) := by
    rw [optional, readContent, readParts_reply objects]
    · rfl
    · intro null
      cases null
  rw [readMessage]
  simp only [Value.get_obj]
  change (do
    let content ← optional readContent
      (some (.array (anthropicContent serde found)))
    return (⟨"assistant".toList, content, [], none⟩ : IncomingMessage)) = _
  rw [content]
  rfl

/-! ## The OpenAI route -/

/-- The message of a client of the OpenAI route. -/
def openaiIncoming (found : Collected) : IncomingMessage where
  role := "assistant".toList
  content :=
    if !found.calls.isEmpty && found.text.isEmpty then none
    else some (.text found.text)
  toolCalls := found.calls.map fun call =>
    ⟨some call.id, ⟨call.name, some (.string call.arguments)⟩⟩
  toolCallId := none

theorem readToolCall_openai (position : Nat) (call : ToolCall) :
    readToolCall (openaiToolCall false position call) =
      some ⟨some call.id, ⟨call.name, some (.string call.arguments)⟩⟩ := by
  simp [readToolCall, readFunction, openaiToolCall, optional]

theorem readToolCalls_openai (calls : List ToolCall) :
    readToolCalls (some (openaiToolCalls calls false)) =
      some (calls.map fun call =>
        ⟨some call.id, ⟨call.name, some (.string call.arguments)⟩⟩) := by
  have plain : calls.mapIdx (openaiToolCall false) =
      calls.map (openaiToolCall false 0) := by
    apply List.ext_getElem
    · rw [List.length_mapIdx, List.length_map]
    · intro i within within'
      rw [List.getElem_mapIdx, List.getElem_map]
      rfl
  show (calls.mapIdx (openaiToolCall false)).mapM readToolCall = _
  rw [plain]
  clear plain
  induction calls with
  | nil => rfl
  | cons call calls induction =>
      rw [List.map_cons, List.mapM_cons, readToolCall_openai, induction]
      rfl

/-- The fields of the message that are read. -/
theorem fields_openaiMessage (found : Collected) :
    (openaiMessage found).get "role" = some (.str "assistant") ∧
      (openaiMessage found).get "content" =
        some (if !found.calls.isEmpty && found.text.isEmpty then .null
          else .string found.text) ∧
        (openaiMessage found).get "tool_calls" =
          (if found.calls.isEmpty then none
            else some (openaiToolCalls found.calls false)) ∧
          (openaiMessage found).get "tool_call_id" = none := by
  cases noCalls : found.calls.isEmpty <;>
    cases noText : found.text.isEmpty <;>
    cases noThinking : found.thinking.isEmpty <;>
    simp [openaiMessage, noCalls, noText, noThinking]

theorem readMessage_openai (found : Collected) :
    readMessage (openaiMessage found) = some (openaiIncoming found) := by
  obtain ⟨role, content, calls, id⟩ := fields_openaiMessage found
  have shown : optional readContent
      ((openaiMessage found).get "content") =
        some (openaiIncoming found).content := by
    rw [content]
    show optional readContent _ = some (if _ then none else some _)
    by_cases empty : (!found.calls.isEmpty && found.text.isEmpty) = true
    · rw [if_pos empty, if_pos empty]
      rfl
    · rw [if_neg empty, if_neg empty, optional, readContent]
      · rfl
      · intro null
        cases null
  have called : readToolCalls ((openaiMessage found).get "tool_calls") =
      some (openaiIncoming found).toolCalls := by
    rw [calls]
    show readToolCalls _ = some (found.calls.map _)
    by_cases quiet : found.calls.isEmpty = true
    · rw [if_pos quiet, List.isEmpty_iff.mp quiet]
      rfl
    · rw [if_neg quiet]
      exact readToolCalls_openai found.calls
  rw [readMessage, role, shown, called, id]
  rfl

/-! ## Turns of replies -/

theorem chat_openai (serde : Serde) (found : Collected) :
    (openaiIncoming found).chat serde =
      assistant found.text found.calls := by
  have text : textOf (openaiIncoming found).content = found.text := by
    show textOf (if _ then none else some _) = found.text
    by_cases empty : (!found.calls.isEmpty && found.text.isEmpty) = true
    · rw [if_pos empty]
      rw [Bool.and_eq_true] at empty
      exact (List.isEmpty_iff.mp empty.2).symm
    · rw [if_neg empty]
      rfl
  have none : partsOf (openaiIncoming found).content = [] := by
    show partsOf (if _ then none else some _) = []
    split_ifs <;> rfl
  have calls : (openaiIncoming found).calls serde = found.calls := by
    rw [IncomingMessage.calls, none, List.filterMap_nil, List.append_nil]
    show (found.calls.map _).map _ = found.calls
    rw [List.map_map]
    exact List.map_id' found.calls
  rw [IncomingMessage.chat, text, calls]
  rfl

/-- A call with its arguments as they are printed. -/
def printed (serde : Serde) (call : ToolCall) : ToolCall :=
  { call with
    arguments := argumentsText serde (serde.parse call.arguments).toOption }

theorem quiet_usePart (call : ToolCall) : Quiet (usePart serde call) :=
  Or.inr ⟨rfl, rfl⟩

theorem quiet_textPart (text : Text) : Quiet (textPart text) :=
  Or.inl rfl

theorem partText_usePart (call : ToolCall) :
    partText (usePart serde call) = [] :=
  rfl

theorem replyParts_silent (silent : found.thinking = []) :
    replyParts serde found =
      (if !found.text.isEmpty || found.calls.isEmpty then
        [textPart found.text]
      else []) ++ found.calls.map (usePart serde) := by
  rw [replyParts, silent]
  rfl

theorem quiet_anthropic (silent : found.thinking = []) :
    ∀ part ∈ partsOf (anthropicMessage serde found).content, Quiet part := by
  intro part member
  change part ∈ replyParts serde found at member
  rw [replyParts_silent silent] at member
  rcases List.mem_append.mp member with text | use
  · split_ifs at text
    · rw [List.mem_singleton.mp text]
      exact quiet_textPart found.text
    · cases text
  · obtain ⟨call, -, rfl⟩ := List.mem_map.mp use
    exact quiet_usePart call

theorem chat_anthropic (silent : found.thinking = []) :
    (anthropicMessage serde found).chat serde =
      assistant found.text (found.calls.map (printed serde)) := by
  have uses : (found.calls.map (usePart serde)).flatMap partText = [] := by
    rw [List.flatMap_eq_nil_iff]
    intro part member
    obtain ⟨call, -, rfl⟩ := List.mem_map.mp member
    exact partText_usePart call
  have calls : (found.calls.map (usePart serde)).filterMap (useOf serde) =
      found.calls.map (printed serde) := by
    rw [List.filterMap_map, ← List.filterMap_eq_map]
    rfl
  have text : textOf (anthropicMessage serde found).content =
      found.text := by
    show (replyParts serde found).flatMap partText = found.text
    rw [replyParts_silent silent, List.flatMap_append, uses,
      List.append_nil]
    split_ifs with shown
    · exact List.append_nil found.text
    · rw [Bool.not_eq_true, Bool.or_eq_false_iff] at shown
      have empty := shown.1
      rw [Bool.not_eq_false'] at empty
      exact (List.isEmpty_iff.mp empty).symm
  have called : (anthropicMessage serde found).calls serde =
      found.calls.map (printed serde) := by
    show [].map _ ++ (replyParts serde found).filterMap _ = _
    rw [List.map_nil, List.nil_append, replyParts_silent silent,
      List.filterMap_append, calls]
    split_ifs <;> rfl
  rw [IncomingMessage.chat, text, called]
  rfl

theorem sameCall_printed {call : ToolCall}
    (object : ∃ members,
      serde.parse call.arguments = .ok (.object members)) :
    SameCall serde call (printed serde call) := by
  obtain ⟨members, object⟩ := object
  refine ⟨rfl, rfl, Or.inr ⟨.object members, object, ?_⟩⟩
  rw [printed, object]
  rfl

theorem partKind_thinking :
    thinkingPart.partKind = .other "thinking".toList := by
  decide

theorem contentPart_thinking {Pcm : Type} (media : Media Pcm)
    (state : Text × Seen Pcm) :
    contentPart media state thinkingPart =
      .error ("unsupported content part type: ".toList ++
        "thinking".toList) := by
  rw [contentPart, partKind_thinking]

/-- A body with thinking is refused. -/
theorem refused_anthropic {Pcm : Type} (media : Media Pcm)
    (thinking : found.thinking ≠ []) :
    ∃ error, messagesFromBody media serde [anthropicMessage serde found] =
      .error error := by
  have shown : found.thinking.isEmpty = false := by
    rwa [List.isEmpty_eq_false_iff]
  have first : ∃ rest, replyParts serde found = thinkingPart :: rest := by
    rw [replyParts, shown]
    exact ⟨_, rfl⟩
  obtain ⟨rest, parts⟩ := first
  have refused : contentText media (anthropicMessage serde found).content
      ⟨[], none⟩ = .error ("unsupported content part type: ".toList ++
        "thinking".toList) := by
    show (replyParts serde found).foldlM (contentPart media) _ = _
    rw [parts, List.foldlM_cons, contentPart_thinking]
    rfl
  refine ⟨"unsupported content part type: ".toList ++ "thinking".toList, ?_⟩
  rw [messagesFromBody, List.foldlM_cons, bodyMessage, refused]
  rfl

end

/-! ## Both routes -/

inductive Route where
  | openai
  | anthropic

/-- What a client of a route puts back for the reply to some events. -/
def Route.turn (serde : Serde) (millis : Nat) (model : Text)
    (events : List GenEvent) : Route → Option Value
  | .openai => openaiTurn (nonStreamBody millis model events)
  | .anthropic =>
    anthropicTurn (anthropicMessageBody serde millis model events)

section

variable {Pcm : Type} {media : Media Pcm} {serde : Serde}
  {events : List GenEvent}

theorem turn_openai (millis : Nat) (model : Text) :
    Route.turn serde millis model events .openai =
      some (openaiMessage (collect events)) := by
  rw [Route.turn, openaiTurn, nonStreamBody]
  simp [Value.item]

theorem turn_anthropic (millis : Nat) (model : Text) :
    Route.turn serde millis model events .anthropic =
      some (.obj [("role", .str "assistant"),
        ("content", .array (anthropicContent serde (collect events)))]) := by
  rw [Route.turn, anthropicTurn, anthropicMessageBody]
  simp

theorem understood_openai (one : (callLists events).length ≤ 1)
    (millis : Nat) (model : Text) :
    Understood media serde events
      (Route.turn serde millis model events .openai) := by
  refine ⟨_, openaiIncoming (collect events), toolCalls events,
    turn_openai millis model, readMessage_openai _, ?_, ?_⟩
  · exact List.forall₂_same.mpr fun call _ => ⟨rfl, rfl, Or.inl rfl⟩
  · intro before after body accepted
    have none : partsOf (openaiIncoming (collect events)).content = [] := by
      show partsOf (if _ then none else some _) = []
      split_ifs <;> rfl
    rw [history_quiet (by rw [none]; exact List.forall_mem_nil _) rfl
      accepted, chat_openai, collect_text, collect_calls one]

theorem understood_anthropic (one : (callLists events).length ≤ 1)
    (objects : ∀ call ∈ toolCalls events, ∃ members,
      serde.parse call.arguments = .ok (.object members))
    (silent : reasonings events = []) (millis : Nat) (model : Text) :
    Understood media serde events
      (Route.turn serde millis model events .anthropic) := by
  rw [← collect_calls one] at objects
  rw [← collect_thinking] at silent
  refine ⟨_, anthropicMessage serde (collect events),
    (collect events).calls.map (printed serde),
    turn_anthropic millis model, readMessage_anthropic objects, ?_, ?_⟩
  · rw [← collect_calls one, List.forall₂_map_right_iff]
    exact List.forall₂_same.mpr fun call member =>
      sameCall_printed (objects call member)
  · intro before after body accepted
    rw [history_quiet (quiet_anthropic silent) rfl accepted,
      chat_anthropic silent, collect_text]

/-- A turn that is refused by itself is not understood. -/
theorem not_understood_anthropic (one : (callLists events).length ≤ 1)
    (objects : ∀ call ∈ toolCalls events, ∃ members,
      serde.parse call.arguments = .ok (.object members))
    (thinking : reasonings events ≠ []) (millis : Nat) (model : Text) :
    ¬ Understood media serde events
      (Route.turn serde millis model events .anthropic) := by
  rw [← collect_calls one] at objects
  rw [← collect_thinking] at thinking
  rintro ⟨value, message, calls, turn, read, -, accepted⟩
  rw [turn_anthropic, Option.some.injEq] at turn
  rw [← turn, readMessage_anthropic objects, Option.some.injEq] at read
  have alone := accepted [] [] ⟨[], [], none⟩ rfl
  rw [← read] at alone
  obtain ⟨error, refused⟩ := @refused_anthropic serde _ _ media thinking
  rw [List.nil_append, refused] at alone
  cases alone

end

/-- A reply is understood if and only if it is one of the OpenAI route or
has no reasoning. -/
theorem understood_iff {Pcm : Type} (media : Media Pcm) (serde : Serde)
    (millis : Nat) (model : Text) (events : List GenEvent)
    (one : (callLists events).length ≤ 1)
    (objects : ∀ call ∈ toolCalls events, ∃ members,
      serde.parse call.arguments = .ok (.object members))
    (route : Route) :
    Understood media serde events (route.turn serde millis model events) ↔
      (route = .anthropic → reasonings events = []) := by
  cases route with
  | openai =>
      apply iff_of_true (understood_openai one millis model)
      intro other
      cases other
  | anthropic =>
      constructor
      · intro understood _
        by_contra thinking
        exact not_understood_anthropic one objects thinking millis model
          understood
      · intro silent
        exact understood_anthropic one objects (silent rfl) millis model

theorem objects_small : ∀ call ∈ toolCalls smallEvents,
    ∃ members, Codec.serde.parse call.arguments = .ok (.object members) := by
  intro call member
  cases List.mem_singleton.mp member
  exact ⟨[], Codec.parse_print (.object [])
    (Plain.object List.Pairwise.nil (List.forall_mem_nil _))⟩

theorem understood_small :
    Understood easyMedia Codec.serde smallEvents
        (Route.anthropic.turn Codec.serde 0 "m".toList smallEvents) ↔
      (Route.anthropic = .anthropic → reasonings smallEvents = []) :=
  understood_iff easyMedia Codec.serde 0 "m".toList smallEvents
    (by decide) objects_small .anthropic

/-- The content that the Anthropic route sends is refused. -/
theorem thinking_refused :
    (callLists smallEvents).length ≤ 1 ∧
      (∀ call ∈ toolCalls smallEvents, ∃ members,
        Codec.serde.parse call.arguments = .ok (.object members)) ∧
        ¬ Understood easyMedia Codec.serde smallEvents
          (Route.anthropic.turn Codec.serde 0 "m".toList smallEvents) :=
  ⟨by decide, objects_small,
    not_understood_anthropic (by decide) objects_small
      (List.cons_ne_nil _ _) 0 "m".toList⟩

end Runa.App.OwnReplies
