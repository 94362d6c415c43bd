import Runa.App.CloudRun
import Runa.Rounds.Dialogues
import Mathlib.Data.UInt

/-!
# What a cloud model is told

Every round of `run_cloud` sends the conversation again, longer by what the
model said and by what its calls gave.  `openai_conversation` and
`anthropic_conversation` say what each request holds, for any model, any tool
hub and any limit, and what the run makes of the replies.
-/

namespace Runa.App.CloudRun

open Runa.App.Chat (McpHub callWith noAnswer toolLoop toolRounds)
open Runa.Cloud.Anthropic
open Runa.Cloud.AnthropicBody
open Runa.Core.Think
open Runa.Engine.Generate (ToolCall)
open Runa.Json
open Runa.Rounds.Dialogues
open Runa.Stream.Utf8

/-- The calls of a round with what the hub gave for each. -/
def outputs (hub : Option McpHub) (calls : List ToolCall) :
    List (ToolCall × Text) :=
  calls.map fun made => (made, callWith hub made)

/-! ## Tool loops as dialogues -/

section

variable {σ α β γ : Type}

/-- What a step of a tool loop does: it asks, and it takes in the reply. -/
structure Converses
    (step : σ → List (ToolCall × Text) → Except Text (List ToolCall) × σ)
    (hub : Option McpHub) (answer : List α → Except Text β)
    (calls : β → List ToolCall) (next : α → β → α)
    (asks : σ → List (ToolCall × Text) → α) (sent : σ → List α)
    (gathered : σ → γ) (gather : γ → β → γ) : Prop where
  sends : ∀ state results,
    sent (step state results).2 = sent state ++ [asks state results]
  fails : ∀ state results error,
    answer (sent state ++ [asks state results]) = .error error →
      (step state results).1 = .error error ∧
        gathered (step state results).2 = gathered state
  goes : ∀ state results reply,
    answer (sent state ++ [asks state results]) = .ok reply →
      (step state results).1 = .ok (calls reply) ∧
        gathered (step state results).2 = gather (gathered state) reply
  follows : ∀ state results reply,
    answer (sent state ++ [asks state results]) = .ok reply →
      calls reply ≠ [] →
        asks (step state results).2 (outputs hub (calls reply)) =
          next (asks state results) reply

/-- The result of a loop whose dialogue ends so. -/
def outcome (maxToolRounds : Nat) : Ending Text → Except Text Unit
  | .answered => .ok ()
  | .failed error => .error error
  | .exhausted => .error (noAnswer maxToolRounds)

/-- What a conversation holds: its requests, and the replies to them. -/
structure Conversation (answer : List α → Except Text β)
    (calls : β → List ToolCall) (request : List β → α)
    (maxToolRounds : Nat) (sent : List α) (replies : List β)
    (result : Except Text Unit) : Prop where
  few : sent.length ≤ maxToolRounds + 1
  carries : ∀ (i : Nat) (asked : α), sent[i]? = some asked →
    asked = request (replies.take i)
  heard : ∀ (i : Nat) (reply : β), replies[i]? = some reply →
    answer (sent.take (i + 1)) = .ok reply
  more : ∀ (i : Nat) (reply : β), replies[i]? = some reply →
    i + 1 < sent.length → calls reply ≠ []
  done : result = .ok () ↔
    ∃ last, replies.getLast? = some last ∧ calls last = []
  fails : ∀ error, result = .error error →
    answer sent = .error error ∨
      (error = noAnswer maxToolRounds ∧
        sent.length = maxToolRounds + 1 ∧
          replies.length = maxToolRounds + 1)

variable
  {step : σ → List (ToolCall × Text) → Except Text (List ToolCall) × σ}
  {hub : Option McpHub} {answer : List α → Except Text β}
  {calls : β → List ToolCall} {next : α → β → α}
  {asks : σ → List (ToolCall × Text) → α} {sent : σ → List α}
  {gathered : σ → γ} {gather : γ → β → γ}

/-- The rounds of a loop are the dialogue of its step. -/
theorem Converses.toolRounds
    (converses : Converses step hub answer calls next asks sent gathered
      gather)
    (maxToolRounds left : Nat) (results : List (ToolCall × Text))
    (state : σ) :
    let loop := Chat.toolRounds maxToolRounds (callWith hub) step left
      results state
    let dialogue := talk answer (fun reply => !(calls reply).isEmpty) next
      left (sent state) (asks state results)
    loop.1 = outcome maxToolRounds dialogue.ending ∧
      sent loop.2 = sent state ++ dialogue.asked ∧
        gathered loop.2 = dialogue.replies.foldl gather (gathered state) := by
  induction left generalizing results state with
  | zero => exact ⟨rfl, (List.append_nil _).symm, rfl⟩
  | succ left ih =>
      have sends := converses.sends state results
      simp only [Chat.toolRounds, talk]
      cases told : answer (sent state ++ [asks state results]) with
      | error error =>
          rcases converses.fails state results error told with ⟨same, kept⟩
          generalize step state results = after at sends same kept ⊢
          rcases after with ⟨reply, later⟩
          cases same
          exact ⟨rfl, sends, kept⟩
      | ok reply =>
          rcases converses.goes state results reply told with ⟨same, kept⟩
          have follows := converses.follows state results reply told
          generalize step state results = after
            at sends same kept follows ⊢
          rcases after with ⟨made, later⟩
          cases same
          by_cases silent : calls reply = []
          · simp only [silent, List.isEmpty_nil, Bool.not_true,
              Bool.false_eq_true, if_true, if_false]
            exact ⟨rfl, sends, kept⟩
          · have speaks : (calls reply).isEmpty = false :=
              List.isEmpty_eq_false_iff.mpr silent
            have rest := ih (outputs hub (calls reply)) later
            simp only at sends kept
            rw [sends, kept, follows silent] at rest
            rcases rest with ⟨result, asked, took⟩
            rw [List.append_assoc] at asked
            simp only [speaks, Bool.not_false, Bool.false_eq_true, if_true,
              if_false]
            exact ⟨result, asked, took⟩

/-- A loop holds the conversation of its step. -/
theorem Converses.conversation
    (converses : Converses step hub answer calls next asks sent gathered
      gather)
    (maxToolRounds : Nat) (state : σ) (silent : sent state = []) :
    let loop := toolLoop maxToolRounds (callWith hub) step state
    ∃ replies : List β,
      Conversation answer calls
          (fun replies => replies.foldl next (asks state [])) maxToolRounds
          (sent loop.2) replies loop.1 ∧
        gathered loop.2 = replies.foldl gather (gathered state) := by
  intro loop
  have same := converses.toolRounds maxToolRounds (maxToolRounds + 1) []
    state
  rw [silent] at same
  have faithful := faithful_talk answer
    (fun reply => !(calls reply).isEmpty) next (maxToolRounds + 1) []
    (asks state [])
  have carries := fun i asked =>
    @getElem?_asked α β Text answer (fun reply => !(calls reply).isEmpty)
      next (maxToolRounds + 1) [] (asks state []) i asked
  generalize talk answer (fun reply => !(calls reply).isEmpty) next
    (maxToolRounds + 1) [] (asks state []) = dialogue
    at same faithful carries
  rcases same with ⟨result, asked, took⟩
  rw [List.nil_append] at asked
  have speaks : ∀ reply, (!(calls reply).isEmpty) = true →
      calls reply ≠ [] := by
    intro reply more none
    rw [none] at more
    cases more
  refine ⟨dialogue.replies, ?_, took⟩
  change Conversation answer calls _ maxToolRounds
    (sent (Chat.toolRounds _ _ step _ _ state).2) _
      (Chat.toolRounds _ _ step _ _ state).1
  rw [asked, result]
  refine
    { few := faithful.bounded
      carries := carries
      heard := faithful.heard
      more := fun i reply found short =>
        speaks reply (faithful.more i reply found short)
      done := ?_
      fails := ?_ }
  · have ends := faithful.ends
    cases ending : dialogue.ending with
    | answered =>
        rw [ending] at ends
        rcases ends with ⟨-, last, found, stops⟩
        refine ⟨fun _ => ⟨last, found, ?_⟩, fun _ => rfl⟩
        simpa using stops
    | failed error =>
        rw [ending] at ends
        refine ⟨fun bad => (by cases bad), ?_⟩
        rintro ⟨last, found, none⟩
        rw [List.getLast?_eq_getElem?] at found
        have short := (List.getElem?_eq_some_iff.mp found).1
        refine (speaks last (faithful.more _ last found ?_) none).elim
        omega
    | exhausted =>
        rw [ending] at ends
        refine ⟨fun bad => (by cases bad), ?_⟩
        rintro ⟨last, found, none⟩
        have more := ends.2.2 last (List.mem_of_getLast? found)
        exact (speaks last more none).elim
  · intro error bad
    have ends := faithful.ends
    cases ending : dialogue.ending with
    | answered =>
        rw [ending] at bad
        cases bad
    | failed other =>
        rw [ending] at bad ends
        cases bad
        exact Or.inl ends.2
    | exhausted =>
        rw [ending] at bad ends
        cases bad
        exact Or.inr ⟨rfl, ends.1, ends.2.1⟩

end

/-! ## What a run makes of its replies -/

/-- The texts of the rounds, one to a line. -/
def joined (texts : List Text) : Text :=
  ['\n'].intercalate (texts.filter (· ≠ []))

theorem intercalate_concat {mark : Text} {parts : List Text}
    (some : parts ≠ []) (last : Text) :
    mark.intercalate (parts ++ [last]) =
      mark.intercalate parts ++ (mark ++ last) := by
  induction parts with
  | nil => exact (some rfl).elim
  | cons part parts ih =>
      cases parts with
      | nil => simp
      | cons other parts =>
          rw [List.cons_append, List.intercalate_cons_of_ne_nil (by simp),
            ih (List.cons_ne_nil _ _),
            List.intercalate_cons_of_ne_nil (List.cons_ne_nil _ _)]
          simp only [List.append_assoc]

theorem intercalate_ne_nil {mark : Text} {parts : List Text}
    (some : parts ≠ []) (full : ∀ part ∈ parts, part ≠ []) :
    mark.intercalate parts ≠ [] := by
  cases parts with
  | nil => exact (some rfl).elim
  | cons part parts =>
      have first := full part List.mem_cons_self
      cases parts with
      | nil => rwa [List.intercalate_singleton]
      | cons other parts =>
          rw [List.intercalate_cons_cons]
          simp [first]

theorem joined_concat (texts : List Text) (text : Text) :
    joined (texts ++ [text]) =
      if joined texts ≠ [] ∧ text ≠ [] then joined texts ++ '\n' :: text
      else joined texts ++ text := by
  unfold joined
  rw [List.filter_append]
  by_cases empty : text = []
  · simp [empty]
  · have alone : [text].filter (· ≠ []) = [text] := by simp [empty]
    have full : ∀ part ∈ texts.filter (· ≠ []), part ≠ [] := by simp
    rw [alone]
    by_cases none : texts.filter (· ≠ []) = []
    · rw [none]
      simp
    · rw [intercalate_concat none,
        if_pos ⟨intercalate_ne_nil none full, empty⟩]
      rfl

/-- The reply to which some rounds come. -/
structure Round where
  text : Text
  reasoning : Text
  inputTokens : UInt32
  outputTokens : UInt32

def Reply.ofRounds (rounds : List Round) : Reply where
  text := joined (rounds.map Round.text)
  reasoning := rounds.flatMap Round.reasoning
  inputTokens := (rounds.map Round.inputTokens).sum
  outputTokens := (rounds.map Round.outputTokens).sum

def Reply.add (reply : Reply) (round : Round) : Reply :=
  Reply.addText
    { text := reply.text
      reasoning := reply.reasoning ++ round.reasoning
      inputTokens := reply.inputTokens + round.inputTokens
      outputTokens := reply.outputTokens + round.outputTokens }
    round.text

theorem addText_nil (reply : Reply) : reply.addText [] = reply := by
  simp [Reply.addText]

theorem add_ofRounds (rounds : List Round) (round : Round) :
    (Reply.ofRounds rounds).add round = .ofRounds (rounds ++ [round]) := by
  have tokens (counts : List UInt32) (count : UInt32) :
      (counts ++ [count]).sum = counts.sum + count := by
    rw [List.sum_append, List.sum_singleton]
  unfold Reply.add Reply.addText Reply.ofRounds
  simp only [List.map_append, List.map_cons, List.map_nil, joined_concat,
    List.flatMap_append, List.flatMap_singleton, tokens]

theorem foldl_add (rounds : List Round) :
    rounds.foldl Reply.add .default = .ofRounds rounds := by
  induction rounds using List.reverseRecOn with
  | nil => rfl
  | append_singleton rounds round ih =>
      rw [List.foldl_append, ih]
      exact add_ofRounds rounds round

/-! ## OpenAI -/

def CloudEvent.textBody : CloudEvent → Text
  | .text body => body
  | _ => []

def CloudEvent.reasoningBody : CloudEvent → Text
  | .reasoning body => body
  | _ => []

def CloudEvent.counts : CloudEvent → UInt32 × UInt32
  | .usage promptTokens completionTokens => (promptTokens, completionTokens)
  | _ => (0, 0)

/-- The calls of a round: the last ones that the client reports. -/
def eventCalls (events : List CloudEvent) : List ToolCall :=
  (events.reverse.findSome? fun
    | .toolCalls calls => some calls
    | _ => none).getD []

/-- A round of the OpenAI conversation. -/
def eventRound (events : List CloudEvent) : Round where
  text := events.flatMap CloudEvent.textBody
  reasoning := events.flatMap CloudEvent.reasoningBody
  inputTokens := (events.map fun event => event.counts.1).sum
  outputTokens := (events.map fun event => event.counts.2).sum

theorem drainOpenai_eq (events : List CloudEvent) (reply : Reply) :
    drainOpenai events reply =
      ((eventRound events).text, eventCalls events,
        { reply with
          reasoning := reply.reasoning ++ (eventRound events).reasoning
          inputTokens := reply.inputTokens + (eventRound events).inputTokens
          outputTokens :=
            reply.outputTokens + (eventRound events).outputTokens }) := by
  induction events using List.reverseRecOn with
  | nil => simp [drainOpenai, eventRound, eventCalls]
  | append_singleton events event ih =>
      unfold drainOpenai at ih ⊢
      rw [List.foldl_append, ih]
      cases event <;>
        simp [openaiEvent, eventRound, eventCalls, CloudEvent.textBody,
          CloudEvent.reasoningBody, CloudEvent.counts, UInt32.add_assoc]

theorem push_push (request : ChatRequest) (front back : List ChatMessage) :
    (request.push front).push back = request.push (front ++ back) := by
  rw [ChatRequest.push, ChatRequest.push, ChatRequest.push,
    List.append_assoc]

/-- What a round with calls adds to the conversation: the turn of the model,
and a message for each call. -/
def openaiTurns (hub : Option McpHub) (events : List CloudEvent) :
    List ChatMessage :=
  callsMessage (eventRound events).text (eventCalls events) ::
    (outputs hub (eventCalls events)).map toolMessage

theorem converses_openai
    (complete : List ChatRequest → Except Text (List CloudEvent))
    (hub : Option McpHub) :
    Converses (openaiStep complete) hub complete eventCalls
      (fun request events => request.push (openaiTurns hub events))
      (fun run results => run.request.push (results.map toolMessage))
      OpenAiRun.sent OpenAiRun.reply
      (fun reply events => reply.add (eventRound events)) := by
  constructor
  · intro run results
    unfold openaiStep
    simp only
    split <;> rfl
  · intro run results error bad
    simp [openaiStep, bad]
  · intro run results events told
    simp [openaiStep, told, drainOpenai_eq, Reply.add]
  · intro run results events told some
    unfold openaiStep
    simp only [told, drainOpenai_eq,
      List.isEmpty_eq_false_iff.mpr some, Bool.false_eq_true, if_false]
    rw [push_push]
    rfl

/-- The whole conversation of a run against OpenAI, and its reply. -/
theorem openai_conversation
    (complete : List ChatRequest → Except Text (List CloudEvent))
    (hub : Option McpHub) (maxToolRounds : Nat) (request : ChatRequest) :
    let run := runOpenai complete hub maxToolRounds request
    ∃ replies : List (List CloudEvent),
      Conversation complete eventCalls
          (fun replies => request.push (replies.flatMap (openaiTurns hub)))
          maxToolRounds run.2.sent replies run.1 ∧
        run.2.reply = .ofRounds (replies.map eventRound) := by
  rcases (converses_openai complete hub).conversation maxToolRounds
    ⟨request, .default, []⟩ rfl with ⟨replies, conversation, took⟩
  refine ⟨replies, ?_, ?_⟩
  · have same : ∀ replies : List (List CloudEvent),
        replies.foldl
            (fun request events => request.push (openaiTurns hub events))
            (request.push []) =
          request.push (replies.flatMap (openaiTurns hub)) := by
      intro replies
      induction replies using List.reverseRecOn with
      | nil => rfl
      | append_singleton replies events ih =>
          rw [List.foldl_append, ih, List.flatMap_append,
            List.flatMap_singleton, ← push_push]
          rfl
    simp only [List.map_nil, same] at conversation
    exact conversation
  · rw [← foldl_add, List.foldl_map]
    exact took

/-! ## Anthropic -/

def refusal : AnthropicEvent → Option Text
  | .refusal message => some message
  | _ => none

def toolUse : AnthropicEvent → Option (List ToolCall × Value)
  | .toolUse calls content => some (calls, content)
  | _ => none

def textBody : AnthropicEvent → Text
  | .text body => body
  | _ => []

def reasoningBody : AnthropicEvent → Text
  | .reasoning body => body
  | _ => []

def counts : AnthropicEvent → UInt32 × UInt32
  | .usage inputTokens outputTokens =>
      (.ofNat inputTokens, .ofNat outputTokens)
  | _ => (0, 0)

/-- A round of the Anthropic conversation, by its events. -/
def messageRound (events : List AnthropicEvent) : Round where
  text := events.flatMap textBody
  reasoning := events.flatMap reasoningBody
  inputTokens := (events.map fun event => (counts event).1).sum
  outputTokens := (events.map fun event => (counts event).2).sum

/-- A refusal ends a round, and the last use of tools counts. -/
theorem drainAnthropic_eq (events : List AnthropicEvent) (reply : Reply) :
    drainAnthropic events reply =
      match events.findSome? refusal with
      | some message => .error ("refusal: ".toList ++ message)
      | none =>
          .ok
            { text := (messageRound events).text
              toolUse := events.reverse.findSome? toolUse
              reply :=
                { reply with
                  reasoning :=
                    reply.reasoning ++ (messageRound events).reasoning
                  inputTokens :=
                    reply.inputTokens + (messageRound events).inputTokens
                  outputTokens :=
                    reply.outputTokens +
                      (messageRound events).outputTokens } } := by
  induction events using List.reverseRecOn with
  | nil =>
      simp [drainAnthropic, messageRound]
      rfl
  | append_singleton events event ih =>
      unfold drainAnthropic at ih ⊢
      rw [List.foldlM_append, List.findSome?_append, List.reverse_append, ih]
      cases events.findSome? refusal with
      | some message => rfl
      | none =>
          simp only [List.foldlM_cons, List.foldlM_nil, bind_pure]
          show anthropicEvent _ event = _
          cases event <;>
            simp [anthropicEvent, messageRound, refusal, textBody,
              reasoningBody, counts, UInt32.add_assoc] <;>
            rfl

section

variable (serde : Serde) (post : List Value → Except Text Text)

/-- The content blocks of a reply. -/
def replyBlocks (reply : Text) : List Value :=
  match serde.parse reply with
  | .ok value => ((value.get "content").bind Value.asArray).getD []
  | .error _ => []

def replyCalls (reply : Text) : List ToolCall :=
  (replyBlocks serde reply).filterMap (blockCall serde)

def blockText (block : Value) : Text :=
  match block.type with
  | some "text" => strField block "text"
  | _ => []

def blockThinking (block : Value) : Text :=
  match block.type with
  | some "thinking" => strField block "thinking"
  | _ => []

/-- A counter of a reply, zero if it has no usage. -/
def replyCount (reply : Text) (key : String) : UInt32 :=
  match serde.parse reply with
  | .ok value =>
      match value.get "usage" with
      | some usage => .ofNat (u32Field usage key)
      | none => 0
  | .error _ => 0

/-- A round of the Anthropic conversation, by the text of the reply. -/
def replyRound (reply : Text) : Round where
  text := (replyBlocks serde reply).flatMap blockText
  reasoning := (replyBlocks serde reply).flatMap blockThinking
  inputTokens := replyCount serde reply "input_tokens"
  outputTokens := replyCount serde reply "output_tokens"

/-- The use of tools of a reply, if it has calls. -/
def replyUse (reply : Text) : Option (List ToolCall × Value) :=
  if (replyCalls serde reply).isEmpty then none
  else some (replyCalls serde reply, .array (replyBlocks serde reply))

/-- The reply to the last of some requests, unless it is no reply. -/
def answered (sent : List AnthropicRequest) : Except Text Text := do
  let reply ← post (sent.map buildBody)
  let events ← parseMessage serde reply
  let _ ← drainAnthropic events .default
  return reply

end

section

variable {serde : Serde} {post : List Value → Except Text Text}

theorem pieceEvent_cases (event : Text → AnthropicEvent)
    (piece : Option Text) :
    (pieceEvent event piece = [] ∧ piece.getD [] = []) ∨
      pieceEvent event piece = [event (piece.getD [])] := by
  rcases piece with _ | _ | ⟨char, more⟩
  · exact Or.inl ⟨rfl, rfl⟩
  · exact Or.inl ⟨rfl, rfl⟩
  · exact Or.inr rfl

/-- The events of a block are its text or its thinking, or there are none. -/
theorem blockEvents_cases (block : Value) :
    (blockEvents block = [] ∧ blockText block = [] ∧
        blockThinking block = []) ∨
      (blockEvents block = [.text (blockText block)] ∧
        blockThinking block = []) ∨
      (blockEvents block = [.reasoning (blockThinking block)] ∧
        blockText block = []) := by
  unfold blockEvents blockText blockThinking strField
  split
  · rename_i kind
    simp only [kind]
    rcases pieceEvent_cases .reasoning
        ((block.get "thinking").bind Value.asStr) with ⟨none, empty⟩ | some
    · exact Or.inl ⟨none, by simp, empty⟩
    · exact Or.inr (Or.inr ⟨some, by simp⟩)
  · rename_i kind
    simp only [kind]
    rcases pieceEvent_cases .text
        ((block.get "text").bind Value.asStr) with ⟨none, empty⟩ | some
    · exact Or.inl ⟨none, empty, by simp⟩
    · exact Or.inr (Or.inl ⟨some, by simp⟩)
  · rename_i thinking text
    left
    simp

/-- A round's events behind another's. -/
def Round.append (front back : Round) : Round where
  text := front.text ++ back.text
  reasoning := front.reasoning ++ back.reasoning
  inputTokens := front.inputTokens + back.inputTokens
  outputTokens := front.outputTokens + back.outputTokens

theorem messageRound_append (front back : List AnthropicEvent) :
    messageRound (front ++ back) =
      (messageRound front).append (messageRound back) := by
  simp [messageRound, Round.append]

/-- Blocks tell of text and of thinking, and of nothing else. -/
theorem messageRound_blocks (blocks : List Value) :
    messageRound (blocks.flatMap blockEvents) =
      ⟨blocks.flatMap blockText, blocks.flatMap blockThinking, 0, 0⟩ := by
  induction blocks with
  | nil => rfl
  | cons block blocks ih =>
      rw [List.flatMap_cons, messageRound_append, ih]
      rcases blockEvents_cases block with
        ⟨events, text, thinking⟩ | ⟨events, thinking⟩ | ⟨events, text⟩
      · rw [events, List.flatMap_cons, List.flatMap_cons, text, thinking]
        rfl
      · rw [events, List.flatMap_cons, List.flatMap_cons, thinking]
        simp [messageRound, Round.append, textBody, reasoningBody, counts]
      · rw [events, List.flatMap_cons, List.flatMap_cons, text]
        simp [messageRound, Round.append, textBody, reasoningBody, counts]

theorem toolUse_blocks (blocks : List Value) :
    ∀ event ∈ blocks.flatMap blockEvents, toolUse event = none := by
  intro event member
  rcases List.mem_flatMap.mp member with ⟨block, -, told⟩
  rcases blockEvents_cases block with
    ⟨events, -⟩ | ⟨events, -⟩ | ⟨events, -⟩ <;>
    rw [events] at told
  · cases told
  · cases List.mem_singleton.mp told
    rfl
  · cases List.mem_singleton.mp told
    rfl

/-- A reply ends with events that tell of no text and no calls. -/
theorem end_events (out : List AnthropicEvent) (stop message : Text) :
    ∃ rest,
      (if stop = "refusal".toList then out ++ [.refusal message]
        else out) ++ [.done stop] = out ++ rest ∧
        messageRound rest = ⟨[], [], 0, 0⟩ ∧
          ∀ event ∈ rest, toolUse event = none := by
  split_ifs
  · refine ⟨[.refusal message, .done stop], ?_, rfl, ?_⟩
    · rw [List.append_assoc]
      rfl
    · simp [toolUse]
  · refine ⟨[.done stop], rfl, rfl, ?_⟩
    simp [toolUse]

/-- The events of a reply: those of its blocks, one for its calls, one for
its usage, and some that tell of neither. -/
theorem parseMessage_events {reply : Text} {events : List AnthropicEvent}
    (parsed : parseMessage serde reply = .ok events) :
    ∃ value rest, serde.parse reply = .ok value ∧
      events =
        (replyBlocks serde reply).flatMap blockEvents ++
          toolUseEvent (replyCalls serde reply) (replyBlocks serde reply) ++
          ((value.get "usage").map usageEvent).toList ++ rest ∧
        messageRound rest = ⟨[], [], 0, 0⟩ ∧
          ∀ event ∈ rest, toolUse event = none := by
  simp only [parseMessage, bind, Except.bind, pure, Except.pure] at parsed
  unfold replyCalls replyBlocks
  cases read : serde.parse reply with
  | error error =>
      rw [read] at parsed
      cases parsed
  | ok value =>
      rw [read] at parsed
      cases held : (value.get "content").bind Value.asArray with
      | none =>
          simp only [held, Except.ok.injEq] at parsed
          subst parsed
          rcases end_events _ _ _ with ⟨rest, same, silent⟩
          rw [same]
          refine ⟨value, rest, rfl, ?_, silent⟩
          simp only [held]
          rfl
      | some blocks =>
          simp only [held, Except.ok.injEq] at parsed
          subst parsed
          rcases end_events _ _ _ with ⟨rest, same, silent⟩
          rw [same]
          refine ⟨value, rest, rfl, ?_, silent⟩
          simp only [held]
          rfl

theorem parsed_round {reply : Text} {events : List AnthropicEvent}
    (parsed : parseMessage serde reply = .ok events) :
    messageRound events = replyRound serde reply ∧
      events.reverse.findSome? toolUse = replyUse serde reply := by
  rcases parseMessage_events parsed with
    ⟨value, rest, read, rfl, silent, useless⟩
  constructor
  · simp only [messageRound_append, messageRound_blocks, silent]
    unfold replyRound replyCount toolUseEvent
    simp only [read]
    cases value.get "usage" <;> split_ifs <;>
      simp [Round.append, messageRound, textBody, reasoningBody, counts,
        usageEvent]
  · have ended : rest.reverse.findSome? toolUse = none := by
      rw [List.findSome?_eq_none_iff]
      intro event member
      exact useless event (List.mem_reverse.mp member)
    have begun :
        ((replyBlocks serde reply).flatMap blockEvents).reverse.findSome?
          toolUse = none := by
      rw [List.findSome?_eq_none_iff]
      intro event member
      exact toolUse_blocks _ event (List.mem_reverse.mp member)
    simp only [List.reverse_append, List.findSome?_append, ended, begun]
    unfold replyUse toolUseEvent
    cases value.get "usage" <;> split_ifs <;> rfl

/-- A round by the reply to it. -/
theorem drained_eq (sent : List AnthropicRequest) (reply : Reply) :
    (do drainAnthropic (← generate serde post sent) reply) =
      match answered serde post sent with
      | .error error => .error error
      | .ok text =>
          .ok
            { text := (replyRound serde text).text
              toolUse := replyUse serde text
              reply :=
                { reply with
                  reasoning :=
                    reply.reasoning ++ (replyRound serde text).reasoning
                  inputTokens :=
                    reply.inputTokens + (replyRound serde text).inputTokens
                  outputTokens :=
                    reply.outputTokens +
                      (replyRound serde text).outputTokens } } := by
  simp only [generate, answered, bind, Except.bind]
  cases post (sent.map buildBody) with
  | error error => rfl
  | ok text =>
      simp only
      cases parsed : parseMessage serde text with
      | error error => rfl
      | ok events =>
          rcases parsed_round parsed with ⟨round, uses⟩
          simp only [drainAnthropic_eq, round, uses]
          cases events.findSome? refusal with
          | some message => rfl
          | none => rfl

/-- What a round with calls adds to the conversation: the blocks of the
reply, and what each call gave. -/
def anthropicTurns (serde : Serde) (hub : Option McpHub) (reply : Text) :
    List ChatTurn :=
  [blocksTurn (.array (replyBlocks serde reply)),
    resultTurn (outputs hub (replyCalls serde reply))]

/-- What a round asks, behind the results of the calls in front of it. -/
def asksAnthropic (run : AnthropicRun) (results : List (ToolCall × Text)) :
    AnthropicRequest :=
  if results.isEmpty then run.request
  else AnthropicRequest.push run.request [resultTurn results]

/-- A round without structured output, by the reply to it. -/
theorem anthropicStep_eq (run : AnthropicRun)
    (results : List (ToolCall × Text)) :
    anthropicStep serde post false run results =
      let request := asksAnthropic run results
      let sent := run.sent ++ [request]
      match answered serde post sent with
      | .error error => (.error error, { run with request, sent })
      | .ok text =>
          (.ok (replyCalls serde text),
            { request :=
                if (replyCalls serde text).isEmpty then request
                else
                  AnthropicRequest.push request
                    [blocksTurn (.array (replyBlocks serde text))]
              reply := run.reply.add (replyRound serde text)
              sent := sent }) := by
  simp only [anthropicStep, drained_eq, asksAnthropic]
  generalize (if results.isEmpty then run.request
    else AnthropicRequest.push run.request [resultTurn results]) = request
  cases answered serde post (run.sent ++ [request]) with
  | error error => rfl
  | ok text =>
      simp only [replyUse]
      cases calls : replyCalls serde text with
      | nil => rfl
      | cons call calls => rfl

theorem converses_anthropic (hub : Option McpHub) :
    Converses (anthropicStep serde post false) hub (answered serde post)
      (replyCalls serde)
      (fun request reply =>
        AnthropicRequest.push request (anthropicTurns serde hub reply))
      asksAnthropic AnthropicRun.sent AnthropicRun.reply
      (fun reply text => reply.add (replyRound serde text)) := by
  constructor
  · intro run results
    simp only [anthropicStep_eq]
    split <;> rfl
  · intro run results error bad
    simp [anthropicStep_eq, bad]
  · intro run results text told
    simp [anthropicStep_eq, told]
  · intro run results text told some
    have outs : (outputs hub (replyCalls serde text)).isEmpty = false := by
      simpa [outputs] using some
    simp only [anthropicStep_eq, told, List.isEmpty_eq_false_iff.mpr some,
      Bool.false_eq_true, if_false]
    rw [asksAnthropic, outs]
    simp [AnthropicRequest.push, anthropicTurns]

/-- A request without attachments carries its turns as they are. -/
theorem messages_alone (request : AnthropicRequest)
    (alone : request.userContent = []) :
    (buildBody request).get "messages" =
      some (.array (plainMessages request.messages)) := by
  rw [get_messages, messages_plain fun _ _ _ _ => alone]

theorem messages_push (model prompt : Text) (think : ThinkConfig)
    (maxTokens : UInt32) (tools : List Value) (turns : List ChatTurn) :
    (buildBody (AnthropicRequest.push
        (firstRequest model prompt think maxTokens tools) turns)).get
        "messages" =
      some (.array (message "user".toList (.string prompt) ::
        plainMessages turns)) :=
  messages_alone _ rfl

/-- The messages of a round with calls: the content of the reply as it came,
and a result for each call, under its id. -/
def roundMessages (serde : Serde) (hub : Option McpHub) (reply : Text) :
    List Value :=
  [message "assistant".toList (.array (replyBlocks serde reply)),
    message "user".toList
      (.array ((outputs hub (replyCalls serde reply)).map fun result =>
        toolResult (result.1.id, result.2)))]

theorem content_blocksTurn (blocks : Value) :
    (blocksTurn blocks).content = blocks := rfl

theorem content_resultTurn (results : List (ToolCall × Text)) :
    (resultTurn results).content =
      .array (results.map fun result =>
        toolResult (result.1.id, result.2)) := by
  show Value.array
    ((results.map fun result => (result.1.id, result.2)).map toolResult) = _
  rw [List.map_map]
  rfl

theorem plainMessages_turns (hub : Option McpHub) (replies : List Text) :
    plainMessages (replies.flatMap (anthropicTurns serde hub)) =
      replies.flatMap (roundMessages serde hub) := by
  have turn (reply : Text) :
      plainMessages (anthropicTurns serde hub reply) =
        roundMessages serde hub reply := by
    unfold plainMessages anthropicTurns roundMessages
    rw [List.map_cons, List.map_cons, List.map_nil, content_blocksTurn,
      content_resultTurn]
    rfl
  induction replies with
  | nil => rfl
  | cons reply replies ih =>
      rw [List.flatMap_cons, List.flatMap_cons, ← ih, ← turn, plainMessages,
        List.map_append]
      rfl

/-- The whole conversation of a run against Anthropic, and its reply. -/
theorem anthropic_conversation (serde : Serde)
    (post : List Value → Except Text Text) (hub : Option McpHub)
    (maxToolRounds : Nat) (model prompt : Text) (think : ThinkConfig)
    (maxTokens : UInt32) (tools : List Value) :
    let first := firstRequest model prompt think maxTokens tools
    let run := runAnthropic serde post false hub maxToolRounds first
    ∃ replies : List Text,
      Conversation (answered serde post) (replyCalls serde)
          (fun replies =>
            AnthropicRequest.push first
              (replies.flatMap (anthropicTurns serde hub)))
          maxToolRounds run.2.sent replies run.1 ∧
        (∀ (i : Nat) (asked : AnthropicRequest),
          run.2.sent[i]? = some asked →
            (buildBody asked).get "messages" =
              some (.array (message "user".toList (.string prompt) ::
                (replies.take i).flatMap (roundMessages serde hub)))) ∧
        run.2.reply = .ofRounds (replies.map (replyRound serde)) := by
  intro first run
  have converses : Converses (anthropicStep serde post false) hub _ _ _ _ _
      _ _ := converses_anthropic hub
  rcases converses.conversation maxToolRounds ⟨first, .default, []⟩ rfl with
    ⟨replies, conversation, took⟩
  have same : ∀ replies : List Text,
      replies.foldl
          (fun request reply =>
            AnthropicRequest.push request (anthropicTurns serde hub reply))
          (asksAnthropic ⟨first, .default, []⟩ []) =
        AnthropicRequest.push first
          (replies.flatMap (anthropicTurns serde hub)) := by
    intro replies
    induction replies using List.reverseRecOn with
    | nil => rfl
    | append_singleton replies reply ih =>
        rw [List.foldl_append, ih, List.flatMap_append,
          List.flatMap_singleton]
        simp [AnthropicRequest.push]
  simp only [same] at conversation
  refine ⟨replies, conversation, ?_, ?_⟩
  · intro i asked found
    rw [conversation.carries i asked found, messages_push,
      plainMessages_turns]
  · rw [← foldl_add, List.foldl_map]
    exact took

/-- With a schema there is one request, and no call is ever executed. -/
theorem structured_once (serde : Serde)
    (post : List Value → Except Text Text) (hub : Option McpHub)
    (maxToolRounds : Nat) (model prompt : Text) (think : ThinkConfig)
    (maxTokens : UInt32) (schema : Value) :
    let first := structuredRequest model prompt think maxTokens schema
    let run := runAnthropic serde post true hub maxToolRounds first
    run.2.sent = [first] ∧
      match answered serde post [first] with
      | .error error => run.1 = .error error
      | .ok text =>
          run.1 = .ok () ∧
            run.2.reply =
              ((Reply.default.add (replyRound serde text)).addText
                ((((replyCalls serde text).find? fun call =>
                  call.name = answerTool).map ToolCall.arguments).getD
                    [])) := by
  intro first run
  have step : run = toolLoop maxToolRounds (callWith hub)
      (anthropicStep serde post true) ⟨first, .default, []⟩ := rfl
  simp only [toolLoop, Chat.toolRounds, anthropicStep, drained_eq,
    List.isEmpty_nil, if_true, List.nil_append] at step
  rw [step]
  cases answered serde post [first] with
  | error error => exact ⟨rfl, rfl⟩
  | ok text =>
      simp only [replyUse]
      cases calls : replyCalls serde text with
      | nil =>
          exact ⟨rfl, rfl, (addText_nil _).symm⟩
      | cons call calls => exact ⟨rfl, rfl, rfl⟩

end

end Runa.App.CloudRun
