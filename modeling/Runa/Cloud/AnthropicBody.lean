import Mathlib.Data.List.Perm.Basic
import Runa.Core.Think
import Runa.Json.Value

/-!
# The request of the Anthropic client

The embedding of `build_body` of `runa-cloud/src/anthropic.rs`.  Images and
documents are sent with the last turn if it is a user turn, and then in the
place of its blocks.  A tool conversation ends in user turns that have blocks
and no text; `keepsTurns_iff` says when a request keeps all of its turns and
all of its attachments.
-/

namespace Runa.Cloud.AnthropicBody

open Runa.Core.Think
open Runa.Json
open Runa.Stream.Utf8

structure ImageBlock where
  mediaType : Text
  data : Text

structure PdfBlock where
  data : Text

/-- One user or assistant turn. -/
structure ChatTurn where
  role : Text
  text : Text
  /-- Raw content blocks sent instead of the text. -/
  blocks : Option Value

/-- `ChatTurn::text` -/
def ChatTurn.ofText (role text : Text) : ChatTurn where
  role := role
  text := text
  blocks := none

def toolResult (result : Text × Text) : Value :=
  .obj [("type", .str "tool_result"), ("tool_use_id", .string result.1),
    ("content", .string result.2)]

/-- A user turn answering tool calls. -/
def ChatTurn.toolResults (results : List (Text × Text)) : ChatTurn where
  role := "user".toList
  text := []
  blocks := some (.array (results.map toolResult))

structure AnthropicRequest where
  model : Text
  system : Option Text
  messages : List ChatTurn
  think : ThinkConfig
  maxTokens : UInt32
  images : List ImageBlock
  pdfs : List PdfBlock
  stream : Bool
  tools : List Value
  toolChoice : Option Value

/-- The marks of the models that think adaptively. -/
def adaptiveMarks : List String :=
  ["claude-5", "opus-5", "sonnet-5", "haiku-5", "4-6", "4.6", "4-7", "4.7"]

def adaptiveModel (model : Text) : Bool :=
  adaptiveMarks.any fun mark =>
    decide (mark.toList <:+: model.map Char.toLower)

def thinkingBody (model : Text) (think : ThinkConfig) : Option Value :=
  if think.mode = .off then none
  else if adaptiveModel model then
    some (.obj [("type", .str "adaptive")])
  else
    some (.obj [("type", .str "enabled"),
      ("budget_tokens",
        .nat ((think.reasoningBudget 8192).getD 1024).toNat)])

def effortName (think : ThinkConfig) : Option String :=
  match think.mode with
  | .effort .low => some "low"
  | .effort .medium => some "medium"
  | .effort .high => some "high"
  | .effort .max => some "high"
  | _ => none

def ImageBlock.part (image : ImageBlock) : Value :=
  .obj [("type", .str "image"),
    ("source", .obj [("type", .str "base64"),
      ("media_type", .string image.mediaType),
      ("data", .string image.data)])]

def PdfBlock.part (pdf : PdfBlock) : Value :=
  .obj [("type", .str "document"),
    ("source", .obj [("type", .str "base64"),
      ("media_type", .str "application/pdf"),
      ("data", .string pdf.data)])]

/-- All image and document blocks of a request. -/
def AnthropicRequest.userContent (request : AnthropicRequest) :
    List Value :=
  request.images.map ImageBlock.part ++ request.pdfs.map PdfBlock.part

def textPart (text : Text) : Value :=
  .obj [("type", .str "text"), ("text", .string text)]

/-- A text as blocks; no text is no block. -/
def textParts (text : Text) : List Value :=
  if text = [] then [] else [textPart text]

/-- The content of a turn by itself. -/
def ChatTurn.content (turn : ChatTurn) : Value :=
  turn.blocks.getD (.string turn.text)

def message (role : Text) (content : Value) : Value :=
  .obj [("role", .string role), ("content", content)]

/-- The message of the turn at a place of the conversation. -/
def AnthropicRequest.message (request : AnthropicRequest) (i : Nat)
    (turn : ChatTurn) : Value :=
  if turn.role = "user".toList ∧ i + 1 = request.messages.length ∧
      request.userContent ≠ [] then
    AnthropicBody.message "user".toList
      (.array (request.userContent ++ textParts turn.text))
  else AnthropicBody.message turn.role turn.content

/-- `if let Some(value) = member { body[key] = value }` -/
def setSome (body : Value) (key : String) (member : Option Value) : Value :=
  match member with
  | none => body
  | some member => body.set key member

def systemBlocks (text : Text) : Value :=
  .array [.obj [("type", .str "text"), ("text", .string text),
    ("cache_control", .obj [("type", .str "ephemeral")])]]

def buildBody (request : AnthropicRequest) : Value :=
  let body : Value := .obj
    [("model", .string request.model),
      ("max_tokens", .nat request.maxTokens.toNat),
      ("messages", .array (request.messages.mapIdx request.message)),
      ("stream", .bool request.stream)]
  let body := setSome body "system" (request.system.map systemBlocks)
  let body := setSome body "thinking"
    (thinkingBody request.model request.think)
  let body := setSome body "output_config"
    ((effortName request.think).map fun effort =>
      .obj [("effort", .str effort)])
  let body := setSome body "display"
    (if request.think.show then some (.str "thinking") else none)
  let body := setSome body "tools"
    (if request.tools.isEmpty then none else some (.array request.tools))
  setSome body "tool_choice" request.toolChoice

/-! ## What is asked of the body -/

/-- The blocks that a content stands for. -/
def partsOf : Value → List Value
  | .array parts => parts
  | .string text => textParts text
  | other => [other]

/-- The entry of a turn, with some blocks besides its own. -/
structure Entry (turn : ChatTurn) (extras : List Value) (entry : Value) :
    Prop where
  role : entry.get "role" = some (.string turn.role)
  content : ∃ content, entry.get "content" = some content ∧
    (partsOf content).Perm (extras ++ partsOf turn.content)

/-- One entry a turn, and the blocks that the entries have besides. -/
inductive Entries : List ChatTurn → List Value → List Value → Prop where
  | nil : Entries [] [] []
  | cons {turn : ChatTurn} {extras : List Value} {entry : Value}
      {turns : List ChatTurn} {entries attached : List Value}
      (first : Entry turn extras entry)
      (rest : Entries turns entries attached) :
      Entries (turn :: turns) (entry :: entries) (extras ++ attached)

def ChatTurn.IsUser (turn : ChatTurn) : Prop :=
  turn.role = "user".toList

/-- Every turn has its entry, and every attachment is in one of them. -/
def KeepsTurns (request : AnthropicRequest) (body : Value) : Prop :=
  ∃ entries attached,
    body.get "messages" = some (.array entries) ∧
      Entries request.messages entries attached ∧
        ((∃ turn ∈ request.messages, turn.IsUser) →
          attached.Perm request.userContent) ∧
          ((¬ ∃ turn ∈ request.messages, turn.IsUser) → attached = [])

/-- The blocks of a turn are not more than its text. -/
def ChatTurn.Plain (turn : ChatTurn) : Prop :=
  ∀ blocks ∈ turn.blocks, partsOf blocks = textParts turn.text

/-- Attachments have a last turn that can take them. -/
def Attachable (request : AnthropicRequest) : Prop :=
  request.userContent = [] ∨
    (∀ turn ∈ request.messages, ¬ turn.IsUser) ∨
      ∃ turns turn, request.messages = turns ++ [turn] ∧
        turn.IsUser ∧ turn.Plain

/-! ## The messages of a body -/

section

variable {request : AnthropicRequest} {turn : ChatTurn}
  {turns turns' : List ChatTurn}
  {entries entries' attached attached' extras : List Value} {entry : Value}

theorem get_setSome {key other : String} (apart : key ≠ other)
    (body : Value) (member : Option Value) :
    (setSome body other member).get key = body.get key := by
  cases member with
  | none => rfl
  | some member => exact Value.get_set_of_ne apart body member

theorem get_messages (request : AnthropicRequest) :
    (buildBody request).get "messages" =
      some (.array (request.messages.mapIdx request.message)) := by
  unfold buildBody
  rw [get_setSome (by decide), get_setSome (by decide),
    get_setSome (by decide), get_setSome (by decide),
    get_setSome (by decide), get_setSome (by decide), Value.get_obj]
  rfl

@[simp]
theorem get_role_message (role : Text) (content : Value) :
    (message role content).get "role" = some (.string role) := by
  rw [message, Value.get_obj]
  rfl

@[simp]
theorem get_content_message (role : Text) (content : Value) :
    (message role content).get "content" = some content := by
  rw [message, Value.get_obj]
  rfl

theorem entry_message {content : Value} (turn : ChatTurn)
    (parts : (partsOf content).Perm (extras ++ partsOf turn.content)) :
    Entry turn extras (message turn.role content) :=
  ⟨get_role_message _ _, content, get_content_message _ _, parts⟩

/-- The blocks that the entry of a turn has besides its own. -/
theorem Entry.parts {role : Text} {content : Value}
    (kept : Entry turn extras (message role content)) :
    (partsOf content).Perm (extras ++ partsOf turn.content) := by
  obtain ⟨found, same, parts⟩ := kept.content
  rw [get_content_message, Option.some.injEq] at same
  rwa [same]

/-! ## Turns by themselves -/

/-- The messages of turns that take no attachments. -/
def plainMessages (turns : List ChatTurn) : List Value :=
  turns.map fun turn => message turn.role turn.content

theorem entries_plain (turns : List ChatTurn) :
    Entries turns (plainMessages turns) [] := by
  induction turns with
  | nil => exact Entries.nil
  | cons turn turns induction =>
      have first : Entry turn [] (message turn.role turn.content) :=
        entry_message turn (List.Perm.refl _)
      exact Entries.cons first induction

theorem Entries.append (front : Entries turns entries attached)
    (back : Entries turns' entries' attached') :
    Entries (turns ++ turns') (entries ++ entries')
      (attached ++ attached') := by
  induction front with
  | nil => exact back
  | cons first rest induction =>
      rw [List.append_assoc]
      exact Entries.cons first induction

/-- Turns by themselves have nothing besides, up to the first other one. -/
theorem Entries.of_plain
    (kept : Entries (turns ++ turns') (plainMessages turns ++ entries')
      attached) :
    Entries turns' entries' attached := by
  induction turns generalizing attached with
  | nil => exact kept
  | cons turn turns induction =>
      cases kept with
      | cons first rest =>
          rename_i extras others
          have count := first.parts.length_eq
          rw [List.length_append] at count
          have none : extras = [] := by
            apply List.eq_nil_of_length_eq_zero
            omega
          rw [none]
          exact induction rest

theorem attached_plain
    (kept : Entries turns (plainMessages turns) attached) :
    attached = [] := by
  rw [← List.append_nil (plainMessages turns)] at kept
  cases (show Entries (turns ++ []) _ attached by
    rwa [List.append_nil]).of_plain
  rfl

/-! ## The last turn -/

/-- The message of a turn that takes no attachments. -/
theorem message_plain {i : Nat}
    (alone : turn.IsUser → i + 1 = request.messages.length →
      request.userContent = []) :
    request.message i turn = message turn.role turn.content := by
  rw [AnthropicRequest.message, if_neg]
  rintro ⟨user, last, some⟩
  exact some (alone user last)

/-- Only the last turn can take attachments. -/
theorem messages_concat (split : request.messages = turns ++ [turn]) :
    request.messages.mapIdx request.message =
      plainMessages turns ++ [request.message turns.length turn] := by
  rw [split, List.mapIdx_concat]
  congr 1
  rw [plainMessages]
  apply List.ext_getElem
  · rw [List.length_mapIdx, List.length_map]
  · intro i within within'
    rw [List.length_mapIdx] at within
    rw [List.getElem_mapIdx, List.getElem_map]
    apply message_plain
    intro user last
    rw [split, List.length_append, List.length_singleton] at last
    omega

theorem messages_plain
    (alone : ∀ turns turn, request.messages = turns ++ [turn] →
      turn.IsUser → request.userContent = []) :
    request.messages.mapIdx request.message =
      plainMessages request.messages := by
  rcases List.eq_nil_or_concat request.messages with none | ⟨turns, turn, split⟩
  · rw [none]
    rfl
  · rw [List.concat_eq_append] at split
    rw [messages_concat split,
      message_plain fun user _ => alone turns turn split user, split,
      plainMessages, plainMessages, List.map_append]
    rfl

/-- What the entry of the last user turn has besides its text. -/
theorem entry_last (user : turn.IsUser)
    (last : request.messages.length = turns.length + 1)
    (some : request.userContent ≠ []) :
    request.message turns.length turn =
      message turn.role
        (.array (request.userContent ++ textParts turn.text)) := by
  rw [AnthropicRequest.message, if_pos ⟨user, last.symm, some⟩, user]

theorem parts_content (turn : ChatTurn) :
    partsOf turn.content = textParts turn.text ↔ turn.Plain := by
  rw [ChatTurn.content, ChatTurn.Plain]
  cases turn.blocks with
  | none => exact ⟨fun _ _ member => (by cases member), fun _ => rfl⟩
  | some blocks =>
      constructor
      · rintro same _ ⟨⟩
        exact same
      · intro plain
        exact plain blocks rfl

/-- At most one block stands for a text. -/
theorem eq_of_perm_textParts {parts : List Value} {text : Text}
    (same : parts.Perm (textParts text)) : parts = textParts text := by
  unfold textParts at same ⊢
  split_ifs at same ⊢ with none
  · exact List.perm_nil.mp same
  · exact List.perm_singleton.mp same

/-! ## Requests that keep their turns -/

theorem keepsTurns_of_alone
    (alone : ∀ turns turn, request.messages = turns ++ [turn] →
      turn.IsUser → request.userContent = [])
    (heard : (∃ turn ∈ request.messages, turn.IsUser) →
      request.userContent = []) :
    KeepsTurns request (buildBody request) := by
  refine ⟨plainMessages request.messages, [], ?_, entries_plain _, ?_, ?_⟩
  · rw [get_messages, messages_plain alone]
  · intro user
    rw [heard user]
  · intro silent
    rfl

theorem keepsTurns_of_last (split : request.messages = turns ++ [turn])
    (user : turn.IsUser) (plain : turn.Plain)
    (some : request.userContent ≠ []) :
    KeepsTurns request (buildBody request) := by
  have last : request.messages.length = turns.length + 1 := by
    rw [split, List.length_append, List.length_singleton]
  have entry : Entry turn request.userContent
      (request.message turns.length turn) := by
    rw [entry_last user last some]
    apply entry_message
    rw [(parts_content turn).mpr plain]
    exact List.Perm.refl _
  refine ⟨plainMessages turns ++ [request.message turns.length turn],
    [] ++ (request.userContent ++ []), ?_, ?_, ?_, ?_⟩
  · rw [get_messages, messages_concat split]
  · rw [split]
    exact (entries_plain turns).append (Entries.cons entry Entries.nil)
  · intro heard
    rw [List.nil_append, List.append_nil]
  · intro silent
    apply (silent ⟨turn, ?_, user⟩).elim
    rw [split]
    exact List.mem_append_right _ List.mem_cons_self

/-- A last user turn gives up its blocks. -/
theorem plain_of_kept (split : request.messages = turns ++ [turn])
    (user : turn.IsUser) (some : request.userContent ≠ [])
    (kept : Entries request.messages
      (request.messages.mapIdx request.message) attached)
    (all : attached.Perm request.userContent) : turn.Plain := by
  have last : request.messages.length = turns.length + 1 := by
    rw [split, List.length_append, List.length_singleton]
  rw [messages_concat split, split, entry_last user last some] at kept
  cases kept.of_plain with
  | cons first rest =>
      cases rest
      rw [List.append_nil] at all
      rw [← parts_content]
      apply eq_of_perm_textParts
      have moved := first.parts.trans (all.append_right _)
      exact ((List.perm_append_left_iff _).mp moved).symm

end

/-- A request keeps its turns and attachments if and only if it has no
attachments, no user turn, or a last turn that is a user turn and has no
blocks besides its text. -/
theorem keepsTurns_iff (request : AnthropicRequest) :
    KeepsTurns request (buildBody request) ↔ Attachable request := by
  unfold Attachable
  by_cases none : request.userContent = []
  · apply iff_of_true _ (Or.inl none)
    exact keepsTurns_of_alone (fun _ _ _ _ => none) fun _ => none
  by_cases heard : ∃ turn ∈ request.messages, turn.IsUser
  · constructor
    · rintro ⟨entries, attached, body, kept, all, -⟩
      rw [get_messages, Option.some.injEq, Value.array.injEq] at body
      rw [← body] at kept
      refine Or.inr (Or.inr ?_)
      by_cases ends : ∃ turns turn, request.messages = turns ++ [turn] ∧
          turn.IsUser
      · obtain ⟨turns, turn, split, user⟩ := ends
        exact ⟨turns, turn, split, user,
          plain_of_kept split user none kept (all heard)⟩
      · push Not at ends
        rw [messages_plain fun turns turn split user =>
          (ends turns turn split user).elim] at kept
        have lost := all heard
        rw [attached_plain kept] at lost
        exact (none (List.nil_perm.mp lost)).elim
    · rintro (empty | silent | ⟨turns, turn, split, user, plain⟩)
      · exact (none empty).elim
      · obtain ⟨turn, member, user⟩ := heard
        exact (silent turn member user).elim
      · exact keepsTurns_of_last split user plain none
  · have silent : ∀ turn ∈ request.messages, ¬ turn.IsUser :=
      fun turn member user => heard ⟨turn, member, user⟩
    apply iff_of_true _ (Or.inr (Or.inl silent))
    apply keepsTurns_of_alone
    · intro turns turn split user
      apply (silent turn ?_ user).elim
      rw [split]
      exact List.mem_append_right _ List.mem_cons_self
    · intro user
      exact (heard user).elim

/-! ## Tool conversations -/

/-- A prompt, and rounds of calls and their results. -/
def conversation (prompt : Text)
    (rounds : List (Value × List (Text × Text))) : List ChatTurn :=
  .ofText "user".toList prompt :: rounds.flatMap fun round =>
    [{ role := "assistant".toList, text := [], blocks := some round.1 },
      .toolResults round.2]

theorem isUser_ofText (prompt : Text) :
    (ChatTurn.ofText "user".toList prompt).IsUser :=
  rfl

/-- The results of tools are in blocks. -/
theorem plain_toolResults_iff (results : List (Text × Text)) :
    (ChatTurn.toolResults results).Plain ↔ results = [] := by
  constructor
  · intro plain
    exact List.map_eq_nil_iff.mp (plain _ rfl)
  · rintro rfl _ ⟨⟩
    rfl

/-- A conversation with attachments keeps them in its first request only. -/
theorem attachable_conversation (request : AnthropicRequest)
    (prompt : Text) (rounds : List (Value × List (Text × Text)))
    (answered : ∀ round ∈ rounds, round.2 ≠ [])
    (messages : request.messages = conversation prompt rounds) :
    Attachable request ↔ request.userContent = [] ∨ rounds = [] := by
  unfold Attachable
  apply or_congr_right
  constructor
  · rintro (silent | ⟨turns, turn, split, user, plain⟩)
    · rw [messages] at silent
      exact (silent _ List.mem_cons_self (isUser_ofText prompt)).elim
    · rcases List.eq_nil_or_concat rounds with none | ⟨front, round, ends⟩
      · exact none
      · rw [List.concat_eq_append] at ends
        have last : (turns ++ [turn]).getLast? =
            some (ChatTurn.toolResults round.2) := by
          rw [← split, messages, ends, conversation, List.flatMap_append,
            ← List.cons_append]
          exact List.getLast?_append_of_ne_nil _ (List.cons_ne_nil _ _)
        rw [List.getLast?_concat, Option.some.injEq] at last
        rw [last, plain_toolResults_iff] at plain
        apply (answered round _ plain).elim
        rw [ends]
        exact List.mem_append_right _ List.mem_cons_self
  · rintro rfl
    refine Or.inr ⟨[], .ofText "user".toList prompt, messages,
      isUser_ofText prompt, ?_⟩
    rintro _ ⟨⟩

/-- A picture, a call and its result. -/
def weather : AnthropicRequest where
  model := "claude-sonnet-5".toList
  system := none
  messages := conversation "hi".toList
    [(.array [], [("tu1".toList, "sunny".toList)])]
  think := ThinkConfig.default
  maxTokens := 64
  images := [⟨"image/png".toList, "aaa".toList⟩]
  pdfs := []
  stream := false
  tools := []
  toolChoice := none

/-- The result of the tool is not in the request. -/
theorem weather_loses_result : ¬ KeepsTurns weather (buildBody weather) := by
  rintro ⟨entries, attached, body, kept, all, -⟩
  rw [get_messages, Option.some.injEq, Value.array.injEq] at body
  rw [← body] at kept
  have heard : ∃ turn ∈ weather.messages, turn.IsUser :=
    ⟨_, List.mem_cons_self, isUser_ofText _⟩
  have split : weather.messages =
      [.ofText "user".toList "hi".toList,
        { role := "assistant".toList, text := [],
          blocks := some (.array []) }] ++
        [.toolResults [("tu1".toList, "sunny".toList)]] :=
    rfl
  have some : weather.userContent ≠ [] := List.cons_ne_nil _ _
  have plain := plain_of_kept split rfl some kept (all heard)
  exact List.cons_ne_nil _ _ ((plain_toolResults_iff _).mp plain)

end Runa.Cloud.AnthropicBody
