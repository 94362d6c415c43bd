import Runa.App.Messages
import Runa.Core.Think

/-!
# The two routes of the server

The embedding of how `chat_completions` and `anthropic_messages` of
`runa/src/serve.rs` make a generation request of a body, with
`think_from_request`, `think_from_anthropic`, `engine_tools`,
`anthropic_tools` and `schema_from_response_format`.  An error is the text of
a bad request.  `MessagesBody.inOpenai` writes a body of the second route the
way the first one wants it, and `messagesRequest_iff` says that the engine is
asked the same.
-/

namespace Runa.App.Dialects

open Runa.App.Messages
open Runa.Core.Think
open Runa.Engine.Generate (ToolCall)
open Runa.Engine.Requests
open Runa.Engine.Sampling (SamplingConfig)
open Runa.Fallible.Steps
open Runa.Json
open Runa.Stream.Utf8

/-! ## Bodies -/

structure JsonSchemaBody where
  schema : Option Value

structure ResponseFormatBody where
  kind : Text
  jsonSchema : Option JsonSchemaBody

structure ChatCompletionBody where
  model : Option Text
  messages : List IncomingMessage
  stream : Option Bool
  maxTokens : Option UInt32
  maxCompletionTokens : Option UInt32
  temperature : Option Rat
  reasoningEffort : Option Text
  reasoningBudgetTokens : Option UInt32
  responseFormat : Option ResponseFormatBody
  tools : Option (List Value)
  toolChoice : Option Value

structure AnthropicTool where
  name : Text
  description : Option Text
  inputSchema : Value

structure AnthropicToolChoice where
  kind : Text
  name : Option Text

structure ThinkingBody where
  kind : Option Text
  budgetTokens : Option UInt32

structure MessagesBody where
  model : Option Text
  messages : List IncomingMessage
  stream : Option Bool
  maxTokens : Option UInt32
  temperature : Option Rat
  system : Option IncomingContent
  thinking : Option ThinkingBody
  tools : Option (List AnthropicTool)
  toolChoice : Option AnthropicToolChoice

/-- What a route asks of the model pool. -/
structure Asked where
  request : GenerateRequest
  modelId : Text
  stream : Bool

/-- What the routes use of other parts. -/
structure Surface where
  media : Media (List Rat)
  serde : Serde
  /-- the debug form of a text -/
  quoted : Text → Text
  schemaToGrammar : Text → Except Text Text
  /-- the switch of the environment -/
  kernelSampler : Bool
  defaultId : Text

/-! ## Thinking -/

/-- The overlay of `think_from_request`. -/
def requestLayer (reasoningEffort : Option Text)
    (reasoningBudgetTokens : Option UInt32) : Except Text ThinkOverrides :=
  let shown := { ThinkOverrides.default with «show» := some true }
  match reasoningBudgetTokens, reasoningEffort with
  | some tokens, _ =>
    if tokens = 0 then .ok { shown with think := some false }
    else .ok { shown with budget := some tokens }
  | none, some word =>
    (Effort.parse word).map fun effort => { shown with effort := some effort }
  | none, none => .ok { shown with think := some true }

def thinkFromRequest (reasoningEffort : Option Text)
    (reasoningBudgetTokens : Option UInt32) : Except Text ThinkConfig := do
  let layer ← requestLayer reasoningEffort reasoningBudgetTokens
  ThinkConfig.default.apply layer

def thinkFromAnthropic : Option ThinkingBody → Except Text ThinkConfig
  | none => thinkFromRequest none none
  | some body =>
    if body.kind = some "disabled".toList then thinkFromRequest none (some 0)
    else if body.kind = some "enabled".toList then
      thinkFromRequest none (body.budgetTokens.or (some 1024))
    else if body.kind = some "adaptive".toList then
      thinkFromRequest (some "high".toList) none
    else thinkFromRequest none body.budgetTokens

/-! ## Tools -/

/-- `value[key]`, where a missing member is `null`. -/
def member (key : String) (value : Value) : Value :=
  (value.get key).getD .null

/-- `value["function"]["name"]` as a string -/
def functionName (value : Value) : Option Text :=
  (member "name" (member "function" value)).asStr

section

variable (surface : Surface)

/-- The tools as text, with a choice, unless there are none. -/
def offered (tools : List Value) (choice : Option Text) :
    Option Text × Option Text :=
  if tools.isEmpty then (none, none)
  else (some (surface.serde.print (.array tools)), choice)

def engineTools (tools : List Value) (choice : Option Value) :
    Except Text (Option Text × Option Text) :=
  match choice with
  | none => .ok (offered surface tools none)
  | some (.string word) =>
    if word = "none".toList then .ok (none, none)
    else if word = "auto".toList ∨ word = "required".toList then
      .ok (offered surface tools (some word))
    else .error ("unsupported tool_choice ".toList ++ surface.quoted word)
  | some value =>
    match functionName value with
    | none => .error "tool_choice object needs function.name".toList
    | some name =>
      let named := tools.filter fun tool => functionName tool = some name
      if named.isEmpty then
        .error ("tool_choice names unknown tool ".toList ++
          surface.quoted name)
      else .ok (offered surface named (some "required".toList))

def AnthropicTool.openai (tool : AnthropicTool) : Value :=
  .obj [("type", .str "function"),
    ("function", .obj [("name", .string tool.name),
      ("description", .string (tool.description.getD [])),
      ("parameters", tool.inputSchema)])]

def textOrNull : Option Text → Value
  | some text => .string text
  | none => .null

/-- The object that names a function. -/
def namedFunction (name : Option Text) : Value :=
  .obj [("type", .str "function"),
    ("function", .obj [("name", textOrNull name)])]

/-- The choice in the shape of `engine_tools` -/
def openaiChoice (choice : AnthropicToolChoice) : Except Text Value :=
  if choice.kind = "auto".toList then .ok (.str "auto")
  else if choice.kind = "any".toList then .ok (.str "required")
  else if choice.kind = "none".toList then .ok (.str "none")
  else if choice.kind = "tool".toList then .ok (namedFunction choice.name)
  else
    .error ("unsupported tool_choice type ".toList ++
      surface.quoted choice.kind)

def anthropicTools (tools : List AnthropicTool) :
    Option AnthropicToolChoice → Except Text (Option Text × Option Text)
  | none => engineTools surface (tools.map AnthropicTool.openai) none
  | some choice => do
    let choice ← openaiChoice surface choice
    engineTools surface (tools.map AnthropicTool.openai) (some choice)

/-! ## Response formats -/

def schemaFromResponseFormat (format : Option ResponseFormatBody) :
    Except Text (Option Text) := do
  match format with
  | none => return none
  | some format =>
    if format.kind = "text".toList then return none
    else
      let schema ←
        if format.kind = "json_object".toList then
          .ok (.obj [("type", .str "object")])
        else if format.kind = "json_schema".toList then
          match format.jsonSchema.bind JsonSchemaBody.schema with
          | some schema => .ok schema
          | none =>
            .error
              ("response_format json_schema needs " ++
                "json_schema.schema").toList
        else
          .error ("unsupported response_format type ".toList ++
            surface.quoted format.kind)
      let text := surface.serde.print schema
      let _ ← surface.schemaToGrammar text
      return some text

/-! ## The routes -/

def frame (path : Text) : VisionFrame where
  tSec := none
  source := .path path

def sampled (temperature : Option Rat) : SamplingConfig :=
  { SamplingConfig.defaults surface.kernelSampler with
    temperature := temperature.getD (4 / 5) }

/-- `body.model`, unless it is empty -/
def chosenId (model : Option Text) : Text :=
  (model.filter fun id => !id.isEmpty).getD surface.defaultId

/-- `chat_completions` up to the pool -/
def chatRequest (body : ChatCompletionBody) : Except Text Asked := do
  let think ←
    thinkFromRequest body.reasoningEffort body.reasoningBudgetTokens
  let read ← messagesFromBody surface.media surface.serde body.messages
  if read.messages.isEmpty then
    .error "messages must be non-empty".toList
  else
    let maxTokens :=
      (body.maxCompletionTokens.or body.maxTokens).getD 512
    let jsonSchema ← schemaFromResponseFormat surface body.responseFormat
    let (tools, toolChoice) ←
      engineTools surface (body.tools.getD []) body.toolChoice
    let request :=
      { GenerateRequest.default surface.kernelSampler with
        messages := read.messages
        sampling := sampled surface body.temperature
        maxTokens := maxTokens
        think := think
        audioPcm := read.audioPcm
        images := read.images.map frame
        jsonSchema := jsonSchema
        tools := tools
        toolChoice := toolChoice }
    return ⟨request, chosenId surface body.model, body.stream.getD false⟩

def systemTurn (text : Text) : ChatMessage where
  role := "system".toList
  content := text
  toolCalls := []
  toolCallId := none

/-- The message of `body.system` -/
def openingOf (system : Option IncomingContent) :
    Except Text (List ChatMessage) :=
  match system with
  | none => .ok []
  | some content =>
    (contentText surface.media (some content) ⟨[], none⟩).map fun read =>
      if read.1.isEmpty then [] else [systemTurn read.1]

/-- `anthropic_messages` up to the pool -/
def messagesRequest (body : MessagesBody) : Except Text Asked := do
  let think ← thinkFromAnthropic body.thinking
  let opening ← openingOf surface body.system
  let read ← messagesFromBody surface.media surface.serde body.messages
  let messages := opening ++ read.messages
  if messages.isEmpty then
    .error "messages must be non-empty".toList
  else if !read.images.isEmpty || read.audioPcm.isSome then
    .error
      ("multimodal content on /v1/messages is not supported; " ++
        "use /v1/chat/completions").toList
  else
    let maxTokens := body.maxTokens.getD 512
    let (tools, toolChoice) ←
      anthropicTools surface (body.tools.getD []) body.toolChoice
    let request :=
      { GenerateRequest.default surface.kernelSampler with
        messages := messages
        sampling := sampled surface body.temperature
        maxTokens := maxTokens
        think := think
        tools := tools
        toolChoice := toolChoice }
    return ⟨request, chosenId surface body.model, body.stream.getD false⟩

end

/-! ## From one route to the other -/

/-- The message of a `tool_result` block, written as one of its own. -/
def resultMessage (part : ContentPart) : Option IncomingMessage :=
  if part.partKind = .toolResult then
    some
      { role := "tool".toList
        content := some (.text (textOf part.content))
        toolCalls := []
        toolCallId := part.toolUseId }
  else none

/-- The call of a `tool_use` block, written as an entry of `tool_calls`. -/
def useCall (part : ContentPart) : Option IncomingToolCall :=
  if part.partKind = .toolUse then
    some
      { id := part.id
        function := ⟨part.name.getD [], part.input⟩ }
  else none

/-- A message without blocks. -/
def plain (message : IncomingMessage) : IncomingMessage where
  role := message.role
  content := some (.text (textOf message.content))
  toolCalls :=
    message.toolCalls ++ (partsOf message.content).filterMap useCall
  toolCallId := message.toolCallId

/-- The results first, then the message itself. -/
def inline (message : IncomingMessage) : List IncomingMessage :=
  (partsOf message.content).filterMap resultMessage ++ [plain message]

def systemMessage (content : IncomingContent) : IncomingMessage where
  role := "system".toList
  content := some (.text (textOf (some content)))
  toolCalls := []
  toolCallId := none

def ThinkingBody.effort (body : ThinkingBody) : Option Text :=
  if body.kind = some "adaptive".toList then some "high".toList else none

/-- No budget stands with an effort, and disabled is a budget of nothing. -/
def ThinkingBody.budget (body : ThinkingBody) : Option UInt32 :=
  if body.kind = some "adaptive".toList then none
  else if body.kind = some "disabled".toList then some 0
  else if body.kind = some "enabled".toList then
    some (body.budgetTokens.getD 1024)
  else body.budgetTokens

def AnthropicToolChoice.inOpenai (choice : AnthropicToolChoice) : Value :=
  if choice.kind = "tool".toList then namedFunction choice.name
  else if choice.kind = "any".toList then .str "required"
  else .string choice.kind

/-- The body that the first route wants. -/
def MessagesBody.inOpenai (body : MessagesBody) : ChatCompletionBody where
  model := body.model
  messages :=
    body.system.toList.map systemMessage ++ body.messages.flatMap inline
  stream := body.stream
  maxTokens := body.maxTokens
  maxCompletionTokens := none
  temperature := body.temperature
  reasoningEffort := body.thinking.bind ThinkingBody.effort
  reasoningBudgetTokens := body.thinking.bind ThinkingBody.budget
  responseFormat := none
  tools := body.tools.map fun tools => tools.map AnthropicTool.openai
  toolChoice := body.toolChoice.map AnthropicToolChoice.inOpenai

def choiceKinds : List Text :=
  ["auto".toList, "any".toList, "none".toList, "tool".toList]

/-- Contents that can be read, messages without media, a known choice. -/
structure MessagesBody.Readable (surface : Surface) (body : MessagesBody) :
    Prop where
  system : ∃ read,
    contentText surface.media body.system ⟨[], none⟩ = .ok read
  messages : ∃ turns,
    messagesFromBody surface.media surface.serde body.messages =
      .ok ⟨turns, [], none⟩
  choice : ∀ choice, body.toolChoice = some choice →
    choice.kind ∈ choiceKinds

section

variable {surface : Surface} {serde : Serde} {message : IncomingMessage}

/-! ## Messages without blocks -/

theorem useOf_eq (part : ContentPart) :
    useOf serde part =
      (useCall part).map (IncomingToolCall.call serde) := by
  unfold useOf useCall
  split_ifs with use
  · rfl
  · rfl

theorem plain_calls (message : IncomingMessage) :
    (plain message).calls serde = message.calls serde := by
  have uses : useOf serde =
      fun part => (useCall part).map (IncomingToolCall.call serde) :=
    funext useOf_eq
  show (message.toolCalls ++ _).map _ ++ [] = _
  rw [List.append_nil, List.map_append, IncomingMessage.calls, uses,
    List.map_filterMap]

theorem plain_said (message : IncomingMessage) :
    (plain message).said serde =
      if message.Speaks serde then [message.chat serde] else [] := by
  have speaks : (plain message).Speaks serde ↔ message.Speaks serde := by
    unfold IncomingMessage.Speaks
    rw [plain_calls]
    rfl
  have chat : (plain message).chat serde = message.chat serde := by
    unfold IncomingMessage.chat
    rw [plain_calls]
    rfl
  unfold IncomingMessage.said
  rw [chat]
  simp only [speaks]
  rfl

/-- A result written as a message is said as the block is. -/
theorem resultMessage_said (part : ContentPart) :
    (resultMessage part).toList.flatMap (IncomingMessage.said serde) =
      (resultOf part).toList := by
  unfold resultMessage resultOf
  split_ifs with result
  · show (_ ++ if _ then _ else _) ++ [] = _
    rw [if_pos (show IncomingMessage.Speaks serde _ from
      Or.inr (Or.inr (Or.inl rfl)))]
    rfl
  · rfl

theorem results_said (parts : List ContentPart) :
    (parts.filterMap resultMessage).flatMap (IncomingMessage.said serde) =
      parts.filterMap resultOf := by
  rw [List.filterMap_eq_flatMap_toList, List.filterMap_eq_flatMap_toList,
    List.flatMap_assoc]
  exact List.flatMap_congr fun part _ => resultMessage_said part

/-- What was in blocks is said one after the other. -/
theorem inline_said (message : IncomingMessage) :
    (inline message).flatMap (IncomingMessage.said serde) =
      message.said serde := by
  rw [inline, List.flatMap_append, results_said, List.flatMap_singleton,
    plain_said, IncomingMessage.said]

theorem inlines_said (messages : List IncomingMessage) :
    (messages.flatMap inline).flatMap (IncomingMessage.said serde) =
      messages.flatMap (IncomingMessage.said serde) := by
  rw [List.flatMap_assoc]
  exact List.flatMap_congr fun message _ => inline_said message

/-- The content is a text. -/
def Verbal (message : IncomingMessage) : Prop :=
  ∃ text, message.content = some (.text text)

theorem inline_verbal {turn : IncomingMessage}
    (listed : turn ∈ inline message) : Verbal turn := by
  rcases List.mem_append.mp listed with result | own
  · rcases List.mem_filterMap.mp result with ⟨part, _, made⟩
    unfold resultMessage at made
    split_ifs at made with block
    cases made
    exact ⟨_, rfl⟩
  · rw [List.mem_singleton] at own
    rw [own]
    exact ⟨_, rfl⟩

theorem bodyMessage_verbal {media : Media (List Rat)}
    (verbal : Verbal message) (out : List ChatMessage) :
    bodyMessage media serde (out, ⟨[], none⟩) message =
      .ok (out ++ message.said serde, ⟨[], none⟩) := by
  rcases message with ⟨role, content, toolCalls, toolCallId⟩
  rcases verbal with ⟨text, rfl⟩
  have calls : IncomingMessage.calls serde
      ⟨role, some (.text text), toolCalls, toolCallId⟩ =
        toolCalls.map (IncomingToolCall.call serde) :=
    List.append_nil _
  have same : IncomingMessage.Speaks serde
      ⟨role, some (.text text), toolCalls, toolCallId⟩ ↔
        text ≠ [] ∨ role = "assistant".toList ∨ role = "tool".toList ∨
          toolCalls.map (IncomingToolCall.call serde) ≠ [] := by
    unfold IncomingMessage.Speaks
    rw [calls]
    exact Iff.rfl
  by_cases speaks : IncomingMessage.Speaks serde
      ⟨role, some (.text text), toolCalls, toolCallId⟩
  · rw [IncomingMessage.said, if_pos speaks, IncomingMessage.chat, calls]
    exact if_pos (same.mp speaks)
  · rw [IncomingMessage.said, if_neg speaks]
    show _ = Except.ok (out ++ [], _)
    rw [List.append_nil]
    exact if_neg (mt same.mpr speaks)

/-- A body of texts is accepted, and nothing of it is lost. -/
theorem messagesFromBody_verbal {media : Media (List Rat)}
    {messages : List IncomingMessage}
    (verbal : ∀ message ∈ messages, Verbal message) :
    messagesFromBody media serde messages =
      .ok ⟨messages.flatMap (IncomingMessage.said serde), [], none⟩ := by
  have ran : messages.foldlM (bodyMessage media serde) ([], ⟨[], none⟩) =
      .ok (messages.flatMap (IncomingMessage.said serde), ⟨[], none⟩) := by
    let soFar : List IncomingMessage →
        List ChatMessage × Seen (List Rat) := fun front =>
      (front.flatMap (IncomingMessage.said serde), ⟨[], none⟩)
    show messages.foldlM _ (soFar []) = Except.ok (soFar messages)
    apply foldlM_eq_ok
    intro front message listed
    show bodyMessage media serde (_, ⟨[], none⟩) message = Except.ok (_, _)
    rw [bodyMessage_verbal (verbal message listed), List.flatMap_append,
      List.flatMap_singleton]
  rw [messagesFromBody, ran]
  rfl

/-! ## The parts of a request -/

theorem systemMessage_said (content : IncomingContent) :
    (systemMessage content).said serde =
      if (textOf (some content)).isEmpty then []
      else [systemTurn (textOf (some content))] := by
  have speaks : (systemMessage content).Speaks serde ↔
      textOf (some content) ≠ [] := by
    show textOf (some content) ≠ [] ∨ "system".toList = _ ∨
      "system".toList = _ ∨ [] ≠ [] ↔ _
    simp
  rw [IncomingMessage.said]
  simp only [speaks, List.isEmpty_iff, ite_not]
  rfl

/-- A system prompt that can be read is said as a message. -/
theorem openingOf_iff {system : Option IncomingContent}
    {opening : List ChatMessage} :
    openingOf surface system = .ok opening ↔
      (∃ read, contentText surface.media system ⟨[], none⟩ = .ok read) ∧
        opening = (system.toList.map systemMessage).flatMap
          (IncomingMessage.said surface.serde) := by
  cases system with
  | none =>
      constructor
      · intro made
        cases made
        exact ⟨⟨_, rfl⟩, rfl⟩
      · rintro ⟨-, rfl⟩
        rfl
  | some content =>
      rw [Option.toList_some, List.map_singleton, List.flatMap_singleton,
        systemMessage_said]
      show Except.map _ (contentText _ _ _) = _ ↔ _
      cases parsed : contentText surface.media (some content) ⟨[], none⟩ with
      | error error =>
          constructor
          · intro made
            cases made
          · rintro ⟨⟨_, ⟨⟩⟩, _⟩
      | ok read =>
          rcases read with ⟨text, seen⟩
          rw [← (contentText_spec parsed).1]
          constructor
          · intro made
            cases made
            exact ⟨⟨_, rfl⟩, rfl⟩
          · rintro ⟨-, rfl⟩
            rfl

theorem thinkFromAnthropic_eq (thinking : Option ThinkingBody) :
    thinkFromAnthropic thinking =
      thinkFromRequest (thinking.bind ThinkingBody.effort)
        (thinking.bind ThinkingBody.budget) := by
  cases thinking with
  | none => rfl
  | some body =>
      rcases body with ⟨kind, tokens⟩
      show (if _ then _ else _) = thinkFromRequest (if _ then _ else _)
        (if _ then _ else _)
      by_cases disabled : kind = some "disabled".toList
      · simp [disabled]
      · by_cases enabled : kind = some "enabled".toList
        · cases tokens <;> simp [enabled]
        · by_cases adaptive : kind = some "adaptive".toList
          · simp [adaptive]
          · simp only [disabled, enabled, adaptive, if_false]

theorem openaiChoice_iff {choice : AnthropicToolChoice} {value : Value} :
    openaiChoice surface choice = .ok value ↔
      choice.kind ∈ choiceKinds ∧ value = choice.inOpenai := by
  unfold openaiChoice AnthropicToolChoice.inOpenai choiceKinds
  by_cases auto : choice.kind = "auto".toList
  · simp [auto, Value.str, eq_comm]
  · by_cases any : choice.kind = "any".toList
    · simp [any, eq_comm]
    · by_cases none : choice.kind = "none".toList
      · simp [none, Value.str, eq_comm]
      · by_cases tool : choice.kind = "tool".toList
        · simp [tool, eq_comm]
        · rw [if_neg auto, if_neg any, if_neg none, if_neg tool]
          apply iff_of_false
          · intro made
            cases made
          · rintro ⟨listed, -⟩
            simp only [List.mem_cons, auto, any, none, tool,
              List.not_mem_nil, or_false] at listed

/-- Tools and a choice mean what they mean in the other shape. -/
theorem anthropicTools_iff {tools : List AnthropicTool}
    {choice : Option AnthropicToolChoice}
    {found : Option Text × Option Text} :
    anthropicTools surface tools choice = .ok found ↔
      (∀ chosen, choice = some chosen → chosen.kind ∈ choiceKinds) ∧
        engineTools surface (tools.map AnthropicTool.openai)
          (choice.map AnthropicToolChoice.inOpenai) = .ok found := by
  cases choice with
  | none =>
      constructor
      · intro made
        exact ⟨fun chosen listed => (by cases listed), made⟩
      · exact fun both => both.2
  | some choice =>
      unfold anthropicTools
      rw [bind_eq_ok]
      constructor
      · rintro ⟨value, chosen, made⟩
        obtain ⟨listed, rfl⟩ := openaiChoice_iff.mp chosen
        constructor
        · rintro other ⟨⟩
          exact listed
        · exact made
      · rintro ⟨listed, made⟩
        exact ⟨_, openaiChoice_iff.mpr ⟨listed _ rfl, rfl⟩, made⟩

/-! ## Whole requests -/

variable {body : MessagesBody} {request : Asked}

theorem inOpenai_verbal (body : MessagesBody) :
    ∀ message ∈ body.inOpenai.messages, Verbal message := by
  intro message listed
  rcases List.mem_append.mp listed with system | turn
  · rcases List.mem_map.mp system with ⟨content, _, rfl⟩
    exact ⟨_, rfl⟩
  · rcases List.mem_flatMap.mp turn with ⟨source, _, own⟩
    exact inline_verbal own

/-- The messages that a body says. -/
def MessagesBody.turns (serde : Serde) (body : MessagesBody) :
    List ChatMessage :=
  body.inOpenai.messages.flatMap (IncomingMessage.said serde)

/-- The request once everything is read. -/
def MessagesBody.asked (surface : Surface) (body : MessagesBody)
    (think : ThinkConfig) (tools : Option Text × Option Text) : Asked where
  request :=
    { GenerateRequest.default surface.kernelSampler with
      messages := body.turns surface.serde
      sampling := sampled surface body.temperature
      maxTokens := body.maxTokens.getD 512
      think := think
      tools := tools.1
      toolChoice := tools.2 }
  modelId := chosenId surface body.model
  stream := body.stream.getD false

/-- What has to go well on the first route. -/
structure Accepted (surface : Surface) (body : MessagesBody) (request : Asked)
    (think : ThinkConfig) (tools : Option Text × Option Text) : Prop where
  thinks : thinkFromAnthropic body.thinking = .ok think
  speaks : body.turns surface.serde ≠ []
  offers :
    engineTools surface (body.inOpenai.tools.getD []) body.inOpenai.toolChoice =
      .ok tools
  request : request = body.asked surface think tools

theorem chatRequest_inOpenai :
    chatRequest surface body.inOpenai = .ok request ↔
      ∃ think tools, Accepted surface body request think tools := by
  unfold chatRequest
  rw [messagesFromBody_verbal (inOpenai_verbal body), bind_eq_ok]
  constructor
  · rintro ⟨think, thinks, made⟩
    change (if List.isEmpty _ then _ else _) = _ at made
    split_ifs at made with empty
    obtain ⟨schema, plain, made⟩ := bind_eq_ok.mp made
    obtain ⟨tools, offers, made⟩ := bind_eq_ok.mp made
    cases plain
    cases made
    refine ⟨think, tools, ?_, ?_, offers, rfl⟩
    · rw [thinkFromAnthropic_eq]
      exact thinks
    · exact fun none => empty (List.isEmpty_iff.mpr none)
  · rintro ⟨think, tools, accepted⟩
    refine ⟨think, ?_, ?_⟩
    · exact (thinkFromAnthropic_eq body.thinking).symm.trans accepted.thinks
    · show (if (body.turns surface.serde).isEmpty then _ else _) = _
      rw [if_neg (mt List.isEmpty_iff.mp accepted.speaks)]
      refine bind_eq_ok.mpr ⟨none, rfl, ?_⟩
      exact bind_eq_ok.mpr ⟨tools, accepted.offers, accepted.request ▸ rfl⟩

theorem turns_eq (body : MessagesBody) :
    body.turns serde =
      (body.system.toList.map systemMessage).flatMap
          (IncomingMessage.said serde) ++
        body.messages.flatMap (IncomingMessage.said serde) := by
  unfold MessagesBody.turns MessagesBody.inOpenai
  rw [List.flatMap_append, inlines_said]

end

/-- The engine is asked for a body of the second route what it is asked for
the same body written for the first, as long as it can be read. -/
theorem messagesRequest_iff (surface : Surface) (body : MessagesBody)
    (asked : Asked) :
    messagesRequest surface body = .ok asked ↔
      body.Readable surface ∧
        chatRequest surface body.inOpenai = .ok asked := by
  have tools : (body.tools.getD []).map AnthropicTool.openai =
      body.inOpenai.tools.getD [] := by
    unfold MessagesBody.inOpenai
    cases body.tools with
    | none => rfl
    | some tools => rfl
  rw [chatRequest_inOpenai]
  unfold messagesRequest
  rw [bind_eq_ok]
  constructor
  · rintro ⟨think, thinks, made⟩
    obtain ⟨opening, opened, made⟩ := bind_eq_ok.mp made
    obtain ⟨⟨turns, images, audio⟩, parsed, made⟩ := bind_eq_ok.mp made
    obtain ⟨system, rfl⟩ := openingOf_iff.mp opened
    dsimp only at made
    split_ifs at made with empty heard
    obtain ⟨offered, offers, made⟩ := bind_eq_ok.mp made
    rw [anthropicTools_iff, tools] at offers
    simp only [Bool.or_eq_true, Bool.not_eq_true', List.isEmpty_eq_false_iff,
      ne_eq, Option.isSome_iff_ne_none, not_or, not_not] at heard
    obtain ⟨rfl, rfl⟩ := heard
    have said := (messagesFromBody_spec parsed).1
    dsimp only at said
    rw [said, ← turns_eq] at empty made
    refine ⟨⟨system, ⟨turns, parsed⟩, offers.1⟩, think, offered, thinks, ?_,
      offers.2, ?_⟩
    · exact fun none => empty (List.isEmpty_iff.mpr none)
    · cases made
      rfl
  · rintro ⟨⟨system, ⟨turns, parsed⟩, known⟩, think, offered, accepted⟩
    have said := (messagesFromBody_spec parsed).1
    dsimp only at said
    refine ⟨think, accepted.thinks, ?_⟩
    refine bind_eq_ok.mpr ⟨_, openingOf_iff.mpr ⟨system, rfl⟩, ?_⟩
    refine bind_eq_ok.mpr ⟨_, parsed, ?_⟩
    dsimp only
    rw [said, ← turns_eq,
      if_neg (mt List.isEmpty_iff.mp accepted.speaks)]
    refine bind_eq_ok.mpr ⟨offered, ?_, accepted.request ▸ rfl⟩
    rw [anthropicTools_iff, tools]
    exact ⟨known, accepted.offers⟩

end Runa.App.Dialects
