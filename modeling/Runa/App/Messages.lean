import Runa.App.Pool
import Runa.Engine.Requests
import Runa.Fallible.Steps
import Runa.Json.Codec

/-!
# Messages of a request

The embedding of `messages_from_body` and `content_text` of
`runa/src/serve.rs`, which turn the messages of a request body into chat
messages, images and audio.  The decoding of an image and of an audio part is
a parameter.  `heard_iff` says which accepted bodies reach the model whole.
-/

namespace Runa.App.Messages

open Runa.App.Pool (Path)
open Runa.Engine.Generate (ToolCall)
open Runa.Engine.Requests
open Runa.Fallible.Steps
open Runa.Json
open Runa.Stream.Utf8

/-! ## Incoming messages -/

structure ImageUrlPart where
  url : Text

structure InputAudioPart where
  data : Text
  format : Option Text

/-- A text, or parts. -/
inductive Content (Part : Type) where
  | text (body : Text)
  | parts (parts : List Part)

structure ContentPart where
  kind : Option Text
  text : Option Text
  imageUrl : Option ImageUrlPart
  inputAudio : Option InputAudioPart
  id : Option Text
  name : Option Text
  input : Option Value
  toolUseId : Option Text
  /-- The output of the call that a result answers. -/
  content : Option (Content ContentPart)

abbrev IncomingContent := Content ContentPart

structure IncomingFunction where
  name : Text
  arguments : Option Value

structure IncomingToolCall where
  id : Option Text
  function : IncomingFunction

structure IncomingMessage where
  role : Text
  content : Option IncomingContent
  toolCalls : List IncomingToolCall
  toolCallId : Option Text

/-- The kinds of parts that are told apart. -/
inductive PartKind where
  | text
  | imageUrl
  | inputAudio
  | toolUse
  | toolResult
  | other (kind : Text)
deriving DecidableEq

/-- A part without a kind is a text. -/
def ContentPart.partKind (part : ContentPart) : PartKind :=
  match part.kind with
  | none => .text
  | some kind =>
    if kind = "text".toList then .text
    else if kind = "image_url".toList then .imageUrl
    else if kind = "input_audio".toList then .inputAudio
    else if kind = "tool_use".toList then .toolUse
    else if kind = "tool_result".toList then .toolResult
    else .other kind

/-! ## Reading them -/

/-- What the server does with media. -/
structure Media (Pcm : Type) where
  imageUrlToPath : Text → Except Text Path
  decodeInputAudio : InputAudioPart → Except Text Pcm
  /-- the feature of the build -/
  mtmd : Bool

/-- The media so far. -/
structure Seen (Pcm : Type) where
  images : List Path
  audioPcm : Option Pcm

structure ParsedBody (Pcm : Type) where
  messages : List ChatMessage
  images : List Path
  audioPcm : Option Pcm

section

variable {Pcm : Type} (media : Media Pcm) (serde : Serde)

/-- One turn of the loop of `content_text`. -/
def contentPart (state : Text × Seen Pcm) (part : ContentPart) :
    Except Text (Text × Seen Pcm) :=
  match part.partKind with
  | .text => .ok (state.1 ++ part.text.getD [], state.2)
  | .imageUrl =>
    match part.imageUrl with
    | none => .error "image_url part missing image_url field".toList
    | some image => do
      let path ← media.imageUrlToPath image.url
      return (state.1, { state.2 with images := state.2.images ++ [path] })
  | .inputAudio =>
    match part.inputAudio with
    | none => .error "input_audio part missing input_audio field".toList
    | some audio => do
      let pcm ← media.decodeInputAudio audio
      if state.2.audioPcm.isSome then
        .error "only one input_audio part per request".toList
      else return (state.1, { state.2 with audioPcm := some pcm })
  | .toolUse => .ok state
  | .toolResult => .ok state
  | .other kind =>
    .error ("unsupported content part type: ".toList ++ kind)

def contentText (content : Option IncomingContent) (seen : Seen Pcm) :
    Except Text (Text × Seen Pcm) :=
  match content with
  | some (.text body) => .ok (body, seen)
  | some (.parts parts) => parts.foldlM (contentPart media) ([], seen)
  | none => .ok ([], seen)

/-- Arguments as JSON text, whatever shape the client sent. -/
def argumentsText : Option Value → Text
  | some (.string text) => text
  | some value => serde.print value
  | none => "{}".toList

def IncomingToolCall.call (call : IncomingToolCall) : ToolCall where
  id := call.id.getD []
  name := call.function.name
  arguments := argumentsText serde call.function.arguments

/-- One turn of the loop over the calls and results of a message. -/
def blockPart (state : List ChatMessage × List ToolCall)
    (part : ContentPart) :
    Except Text (List ChatMessage × List ToolCall) :=
  match part.partKind with
  | .toolUse =>
    match part.name with
    | none => .error "tool_use block needs a name".toList
    | some name =>
      .ok (state.1, state.2 ++
        [{ id := part.id.getD []
           name := name
           arguments := argumentsText serde part.input }])
  | .toolResult => do
    let (content, _) ← contentText media part.content ⟨[], none⟩
    return (state.1 ++
      [{ role := "tool".toList
         content := content
         toolCalls := []
         toolCallId := part.toolUseId }], state.2)
  | _ => .ok state

def partsOf : Option IncomingContent → List ContentPart
  | some (.parts parts) => parts
  | _ => []

/-- One turn of the loop of `messages_from_body`. -/
def bodyMessage (state : List ChatMessage × Seen Pcm)
    (message : IncomingMessage) :
    Except Text (List ChatMessage × Seen Pcm) := do
  let (text, seen) ← contentText media message.content state.2
  let toolCalls := message.toolCalls.map (IncomingToolCall.call serde)
  let (out, toolCalls) ←
    (partsOf message.content).foldlM (blockPart media serde)
      (state.1, toolCalls)
  if text ≠ [] ∨ message.role = "assistant".toList ∨
      message.role = "tool".toList ∨ toolCalls ≠ [] then
    return (out ++
      [{ role := message.role
         content := text
         toolCalls := toolCalls
         toolCallId := message.toolCallId }], seen)
  else return (out, seen)

def messagesFromBody (messages : List IncomingMessage) :
    Except Text (ParsedBody Pcm) := do
  let (out, seen) ←
    messages.foldlM (bodyMessage media serde) ([], ⟨[], none⟩)
  if seen.images ≠ [] ∧ seen.audioPcm.isSome then
    .error "cannot mix image and audio in one request".toList
  else if seen.images ≠ [] ∧ media.mtmd = false then
    .error ("image_url / vision content requires rebuilding runa with ".toList
      ++ "--features mtmd".toList)
  else return ⟨out, seen.images, seen.audioPcm⟩

end

/-! ## What is asked of a body -/

def partText (part : ContentPart) : Text :=
  if part.partKind = .text then part.text.getD [] else []

/-- The text, or the texts of the parts one after the other. -/
def textOf : Option IncomingContent → Text
  | some (.text body) => body
  | some (.parts parts) => parts.flatMap partText
  | none => []

/-- The message of a `tool_result` block. -/
def resultOf (part : ContentPart) : Option ChatMessage :=
  if part.partKind = .toolResult then
    some
      { role := "tool".toList
        content := textOf part.content
        toolCalls := []
        toolCallId := part.toolUseId }
  else none

/-- The call of a `tool_use` block. -/
def useOf (serde : Serde) (part : ContentPart) : Option ToolCall :=
  if part.partKind = .toolUse then
    some
      { id := part.id.getD []
        name := part.name.getD []
        arguments := argumentsText serde part.input }
  else none

section

variable (serde : Serde) (message : IncomingMessage)

/-- The entries of `tool_calls`, then the blocks. -/
def IncomingMessage.calls : List ToolCall :=
  message.toolCalls.map (IncomingToolCall.call serde) ++
    (partsOf message.content).filterMap (useOf serde)

def IncomingMessage.chat : ChatMessage where
  role := message.role
  content := textOf message.content
  toolCalls := message.calls serde
  toolCallId := message.toolCallId

def IncomingMessage.hasMedia : Bool :=
  (partsOf message.content).any fun part =>
    part.partKind = .imageUrl || part.partKind = .inputAudio

/-- The message has a text, a call, or the role of a reply. -/
def IncomingMessage.Speaks : Prop :=
  textOf message.content ≠ [] ∨ message.role = "assistant".toList ∨
    message.role = "tool".toList ∨ message.calls serde ≠ []

instance : Decidable (message.Speaks serde) := by
  unfold IncomingMessage.Speaks
  infer_instance

/-- The chat messages that a message has to become. -/
def IncomingMessage.turns : List ChatMessage :=
  (partsOf message.content).filterMap resultOf ++
    if message.Speaks serde ∨ message.hasMedia = true then
      [message.chat serde]
    else []

end

/-! Parts of a kind, also those inside of results. -/

mutual

def ContentPart.inside (kind : PartKind) : ContentPart → List ContentPart
  | ⟨name, text, imageUrl, inputAudio, id, tool, input, use, content⟩ =>
    let part : ContentPart :=
      ⟨name, text, imageUrl, inputAudio, id, tool, input, use, content⟩
    if part.partKind = kind then [part]
    else if part.partKind = .toolResult then insideContent kind content
    else []

def insideContent (kind : PartKind) :
    Option (Content ContentPart) → List ContentPart
  | none => []
  | some content => insideSome kind content

def insideSome (kind : PartKind) : Content ContentPart → List ContentPart
  | .text _ => []
  | .parts parts => insideParts kind parts

def insideParts (kind : PartKind) : List ContentPart → List ContentPart
  | [] => []
  | part :: parts => part.inside kind ++ insideParts kind parts

end

section

variable {Pcm : Type} (media : Media Pcm) (serde : Serde)

/-- The image of a part. -/
def Shows (part : ContentPart) (path : Path) : Prop :=
  ∃ image, part.imageUrl = some image ∧
    media.imageUrlToPath image.url = .ok path

/-- The samples of a part. -/
def Plays (part : ContentPart) (pcm : Pcm) : Prop :=
  ∃ audio, part.inputAudio = some audio ∧
    media.decodeInputAudio audio = .ok pcm

/-- Every turn of a body is there, and every picture and sound. -/
structure Heard (messages : List IncomingMessage) (body : ParsedBody Pcm) :
    Prop where
  turns : body.messages = messages.flatMap (IncomingMessage.turns serde)
  images : ∃ parts,
    parts.Perm (messages.flatMap fun message =>
      insideContent .imageUrl message.content) ∧
      List.Forall₂ (Shows media) parts body.images
  audio : ∃ parts,
    parts.Perm (messages.flatMap fun message =>
      insideContent .inputAudio message.content) ∧
      List.Forall₂ (Plays media) parts body.audioPcm.toList

end

/-- No results have media inside, and media have words with them. -/
def Worded (serde : Serde) (message : IncomingMessage) : Prop :=
  (message.hasMedia = true → message.Speaks serde) ∧
    ∀ part ∈ partsOf message.content, part.partKind = .toolResult →
      insideContent .imageUrl part.content = [] ∧
        insideContent .inputAudio part.content = []

/-! ## What an accepted body becomes -/

def ofKind (kind : PartKind) (parts : List ContentPart) :
    List ContentPart :=
  parts.filter fun part => part.partKind = kind

/-- The chat messages that a message becomes. -/
def IncomingMessage.said (serde : Serde) (message : IncomingMessage) :
    List ChatMessage :=
  (partsOf message.content).filterMap resultOf ++
    if message.Speaks serde then [message.chat serde] else []

section

variable {Pcm : Type} {media : Media Pcm} {serde : Serde}
  {parts parts' : List ContentPart} {part : ContentPart}
  {message : IncomingMessage} {messages : List IncomingMessage}
  {kind : PartKind} {body : ParsedBody Pcm}

/-- The media of some parts are put behind those that were seen. -/
structure Gained (media : Media Pcm) (parts : List ContentPart)
    (seen seen' : Seen Pcm) : Prop where
  images : ∃ paths, seen'.images = seen.images ++ paths ∧
    List.Forall₂ (Shows media) (ofKind .imageUrl parts) paths
  audio : ∃ pcms, seen'.audioPcm.toList = seen.audioPcm.toList ++ pcms ∧
    List.Forall₂ (Plays media) (ofKind .inputAudio parts) pcms

variable {seen seen' seen'' : Seen Pcm}

theorem Gained.of_silent (image : ofKind .imageUrl parts = [])
    (sound : ofKind .inputAudio parts = []) :
    Gained media parts seen seen := by
  constructor
  · rw [image]
    exact ⟨[], (List.append_nil _).symm, List.Forall₂.nil⟩
  · rw [sound]
    exact ⟨[], (List.append_nil _).symm, List.Forall₂.nil⟩

theorem Gained.trans (first : Gained media parts seen seen')
    (second : Gained media parts' seen' seen'') :
    Gained media (parts ++ parts') seen seen'' := by
  obtain ⟨paths, images, shown⟩ := first.images
  obtain ⟨paths', images', shown'⟩ := second.images
  obtain ⟨pcms, audio, played⟩ := first.audio
  obtain ⟨pcms', audio', played'⟩ := second.audio
  constructor
  · refine ⟨paths ++ paths', ?_, ?_⟩
    · rw [images', images, List.append_assoc]
    · rw [ofKind, List.filter_append]
      exact List.rel_append shown shown'
  · refine ⟨pcms ++ pcms', ?_, ?_⟩
    · rw [audio', audio, List.append_assoc]
    · rw [ofKind, List.filter_append]
      exact List.rel_append played played'

theorem ofKind_self (same : part.partKind = kind) :
    ofKind kind [part] = [part] := by
  simp [ofKind, same]

theorem ofKind_other (apart : part.partKind ≠ kind) :
    ofKind kind [part] = [] := by
  simp [ofKind, apart]

/-- A part adds its text and its media. -/
theorem contentPart_spec {state next : Text × Seen Pcm}
    (read : contentPart media state part = .ok next) :
    next.1 = state.1 ++ partText part ∧
      Gained media [part] state.2 next.2 := by
  unfold contentPart at read
  unfold partText
  cases kind : part.partKind with
  | text =>
      rw [kind] at read
      cases read
      exact ⟨rfl, Gained.of_silent (ofKind_other (by simp [kind]))
        (ofKind_other (by simp [kind]))⟩
  | imageUrl =>
      rw [kind] at read
      cases found : part.imageUrl with
      | none =>
          rw [found] at read
          cases read
      | some image =>
          rw [found] at read
          obtain ⟨path, located, made⟩ := bind_eq_ok.mp read
          cases made
          refine ⟨(List.append_nil _).symm, ⟨[path], rfl, ?_⟩, [], ?_, ?_⟩
          · rw [ofKind_self kind]
            exact List.Forall₂.cons ⟨image, found, located⟩ .nil
          · exact (List.append_nil _).symm
          · rw [ofKind_other (by simp [kind])]
            exact List.Forall₂.nil
  | inputAudio =>
      rw [kind] at read
      cases found : part.inputAudio with
      | none =>
          rw [found] at read
          cases read
      | some audio =>
          rw [found] at read
          obtain ⟨pcm, decoded, made⟩ := bind_eq_ok.mp read
          split_ifs at made with second
          rw [Bool.not_eq_true, Option.isSome_eq_false_iff,
            Option.isNone_iff_eq_none] at second
          cases made
          refine ⟨(List.append_nil _).symm, ⟨[], ?_, ?_⟩, [pcm], ?_, ?_⟩
          · exact (List.append_nil _).symm
          · rw [ofKind_other (by simp [kind])]
            exact List.Forall₂.nil
          · rw [second]
            rfl
          · rw [ofKind_self kind]
            exact List.Forall₂.cons ⟨audio, found, decoded⟩ .nil
  | toolUse =>
      rw [kind] at read
      cases read
      exact ⟨(List.append_nil _).symm,
        Gained.of_silent (ofKind_other (by simp [kind]))
          (ofKind_other (by simp [kind]))⟩
  | toolResult =>
      rw [kind] at read
      cases read
      exact ⟨(List.append_nil _).symm,
        Gained.of_silent (ofKind_other (by simp [kind]))
          (ofKind_other (by simp [kind]))⟩
  | other name =>
      rw [kind] at read
      cases read

theorem contentText_spec {content : Option IncomingContent} {text : Text}
    (read : contentText media content seen = .ok (text, seen')) :
    text = textOf content ∧ Gained media (partsOf content) seen seen' := by
  cases content with
  | none =>
      cases read
      exact ⟨rfl, Gained.of_silent rfl rfl⟩
  | some content =>
      cases content with
      | text body =>
          cases read
          exact ⟨rfl, Gained.of_silent rfl rfl⟩
      | parts parts =>
          refine foldlM_run
            (fun front state => state.1 = front.flatMap partText ∧
              Gained media front seen state.2)
            ?_ ⟨rfl, Gained.of_silent rfl rfl⟩ read
          rintro front part state next ⟨text, gained⟩ step
          obtain ⟨added, more⟩ := contentPart_spec step
          constructor
          · rw [added, text, List.flatMap_append, List.flatMap_singleton]
          · exact gained.trans more

/-- A block adds its result or its call. -/
theorem blockPart_spec {state next : List ChatMessage × List ToolCall}
    (read : blockPart media serde state part = .ok next) :
    next.1 = state.1 ++ (resultOf part).toList ∧
      next.2 = state.2 ++ (useOf serde part).toList := by
  unfold blockPart at read
  unfold resultOf useOf
  cases kind : part.partKind with
  | toolUse =>
      rw [kind] at read
      cases named : part.name with
      | none =>
          rw [named] at read
          cases read
      | some name =>
          rw [named] at read
          cases read
          exact ⟨(List.append_nil _).symm, rfl⟩
  | toolResult =>
      rw [kind] at read
      obtain ⟨⟨content, found⟩, inner, made⟩ := bind_eq_ok.mp read
      cases made
      rw [(contentText_spec inner).1]
      exact ⟨rfl, (List.append_nil _).symm⟩
  | _ =>
      rw [kind] at read
      cases read
      exact ⟨(List.append_nil _).symm, (List.append_nil _).symm⟩

theorem filterMap_concat {α β : Type} (f : α → Option β) (items : List α)
    (item : α) :
    (items ++ [item]).filterMap f = items.filterMap f ++ (f item).toList := by
  rw [List.filterMap_append, List.filterMap_cons, List.filterMap_nil]
  cases f item with
  | none => rfl
  | some value => rfl

theorem blocks_spec {out out' : List ChatMessage}
    {calls calls' : List ToolCall}
    (read : parts.foldlM (blockPart media serde) (out, calls) =
      .ok (out', calls')) :
    out' = out ++ parts.filterMap resultOf ∧
      calls' = calls ++ parts.filterMap (useOf serde) := by
  refine foldlM_run
    (fun front state => state.1 = out ++ front.filterMap resultOf ∧
      state.2 = calls ++ front.filterMap (useOf serde))
    ?_ ⟨(List.append_nil _).symm, (List.append_nil _).symm⟩ read
  rintro front part state next ⟨results, uses⟩ step
  obtain ⟨result, use⟩ := blockPart_spec step
  constructor
  · rw [result, results, filterMap_concat, List.append_assoc]
  · rw [use, uses, filterMap_concat, List.append_assoc]

/-- A message adds its results, and itself if it speaks. -/
theorem bodyMessage_spec {state next : List ChatMessage × Seen Pcm}
    (read : bodyMessage media serde state message = .ok next) :
    next.1 = state.1 ++ message.said serde ∧
      Gained media (partsOf message.content) state.2 next.2 := by
  unfold bodyMessage at read
  obtain ⟨⟨text, seen⟩, content, read⟩ := bind_eq_ok.mp read
  obtain ⟨⟨out, calls⟩, blocks, read⟩ := bind_eq_ok.mp read
  obtain ⟨rfl, gained⟩ := contentText_spec content
  obtain ⟨rfl, rfl⟩ := blocks_spec blocks
  dsimp only at read
  split_ifs at read with speaks
  · cases read
    refine ⟨?_, gained⟩
    rw [IncomingMessage.said, if_pos (show message.Speaks serde from speaks),
      List.append_assoc]
    rfl
  · cases read
    refine ⟨?_, gained⟩
    rw [IncomingMessage.said,
      if_neg (show ¬ message.Speaks serde from speaks), List.append_nil]

theorem bodyMessages_spec {state next : List ChatMessage × Seen Pcm}
    (ran : messages.foldlM (bodyMessage media serde) state = .ok next) :
    next.1 = state.1 ++ messages.flatMap (IncomingMessage.said serde) ∧
      Gained media (messages.flatMap fun message => partsOf message.content)
        state.2 next.2 := by
  refine foldlM_run
    (fun front next =>
      next.1 = state.1 ++ front.flatMap (IncomingMessage.said serde) ∧
        Gained media
          (front.flatMap fun message => partsOf message.content)
          state.2 next.2)
    ?_ ⟨(List.append_nil _).symm, Gained.of_silent rfl rfl⟩ ran
  rintro front message middle next ⟨said, gained⟩ step
  obtain ⟨more, media⟩ := bodyMessage_spec step
  constructor
  · rw [more, said, List.flatMap_append, List.flatMap_singleton,
      List.append_assoc]
  · rw [List.flatMap_append, List.flatMap_singleton]
    exact gained.trans media

theorem messagesFromBody_spec
    (read : messagesFromBody media serde messages = .ok body) :
    body.messages = messages.flatMap (IncomingMessage.said serde) ∧
      Gained media (messages.flatMap fun message => partsOf message.content)
        ⟨[], none⟩ ⟨body.images, body.audioPcm⟩ := by
  unfold messagesFromBody at read
  obtain ⟨⟨out, seen⟩, ran, read⟩ := bind_eq_ok.mp read
  dsimp only at read
  split_ifs at read with mixed unsupported
  cases read
  exact bodyMessages_spec ran

/-! ## Turns and media that are lost -/

theorem said_eq_turns_iff :
    message.said serde = message.turns serde ↔
      (message.hasMedia = true → message.Speaks serde) := by
  unfold IncomingMessage.said IncomingMessage.turns
  rw [List.append_right_inj]
  by_cases speaks : message.Speaks serde
  · rw [if_pos speaks, if_pos (Or.inl speaks)]
    exact iff_of_true rfl fun _ => speaks
  · rw [if_neg speaks]
    by_cases shown : message.hasMedia = true
    · rw [if_pos (Or.inr shown)]
      exact iff_of_false (List.cons_ne_nil _ _).symm
        fun worded => speaks (worded shown)
    · rw [if_neg (by rintro (yes | yes) <;> contradiction)]
      exact iff_of_true rfl fun yes => absurd yes shown

/-- A message becomes no more than it has to. -/
theorem length_said_le (serde : Serde) (message : IncomingMessage) :
    (message.said serde).length ≤ (message.turns serde).length := by
  unfold IncomingMessage.said IncomingMessage.turns
  rw [List.length_append, List.length_append]
  by_cases speaks : message.Speaks serde
  · rw [if_pos speaks, if_pos (Or.inl speaks)]
  · rw [if_neg speaks]
    exact Nat.add_le_add_left (Nat.zero_le _) _

/-- Lists that are not longer, item by item, and are not shorter in all are
of one length item by item. -/
theorem eq_of_flatMap_eq {α β : Type} {items : List α} {f g : α → List β}
    (shorter : ∀ item, (f item).length ≤ (g item).length)
    (same : items.flatMap f = items.flatMap g) :
    ∀ item ∈ items, f item = g item := by
  induction items with
  | nil =>
      intro item member
      cases member
  | cons first items induction =>
      rw [List.flatMap_cons, List.flatMap_cons] at same
      have rest : (items.flatMap f).length ≤ (items.flatMap g).length := by
        clear induction same
        induction items with
        | nil => exact Nat.le_refl 0
        | cons item items induction =>
            rw [List.flatMap_cons, List.flatMap_cons, List.length_append,
              List.length_append]
            exact Nat.add_le_add (shorter item) induction
      have lengths := congrArg List.length same
      rw [List.length_append, List.length_append] at lengths
      have here := shorter first
      obtain ⟨equal, others⟩ := List.append_inj same (by omega)
      intro item member
      rcases List.mem_cons.mp member with rfl | later
      · exact equal
      · exact induction others item later

theorem turns_kept_iff :
    messages.flatMap (IncomingMessage.said serde) =
        messages.flatMap (IncomingMessage.turns serde) ↔
      ∀ message ∈ messages,
        message.hasMedia = true → message.Speaks serde := by
  constructor
  · intro same message member
    rw [← said_eq_turns_iff]
    exact eq_of_flatMap_eq (length_said_le serde) same message member
  · intro worded
    apply List.flatMap_congr
    intro message member
    exact said_eq_turns_iff.mpr (worded message member)

/-- The parts of a kind inside of results. -/
def nested (kind : PartKind) (part : ContentPart) : List ContentPart :=
  if part.partKind = .toolResult then insideContent kind part.content
  else []

theorem insideContent_eq (kind : PartKind)
    (content : Option IncomingContent) :
    insideContent kind content = insideParts kind (partsOf content) := by
  rcases content with _ | ⟨text⟩ | ⟨parts⟩
  · rw [insideContent, partsOf, insideParts]
    rintro parts ⟨⟩
  · rw [insideContent, insideSome, partsOf, insideParts]
    rintro parts ⟨⟩
  · rw [insideContent, insideSome, partsOf]

theorem inside_ite (kind : PartKind) (part : ContentPart) :
    part.inside kind =
      if part.partKind = kind then [part] else nested kind part := by
  cases part
  rw [ContentPart.inside]
  rfl

theorem inside_eq (media : kind ≠ .toolResult) (part : ContentPart) :
    part.inside kind = ofKind kind [part] ++ nested kind part := by
  rw [inside_ite]
  by_cases same : part.partKind = kind
  · rw [if_pos same, ofKind_self same, nested, if_neg (same ▸ media),
      List.append_nil]
  · rw [if_neg same, ofKind_other same, List.nil_append]

/-- The parts themselves, and those inside of the results among them. -/
theorem insideParts_perm (media : kind ≠ .toolResult)
    (parts : List ContentPart) :
    (insideParts kind parts).Perm
      (ofKind kind parts ++ parts.flatMap (nested kind)) := by
  induction parts with
  | nil =>
      rw [insideParts]
      exact List.Perm.refl _
  | cons part parts induction =>
      have front : ofKind kind (part :: parts) =
          ofKind kind [part] ++ ofKind kind parts := by
        rw [ofKind, ofKind, ofKind, ← List.filter_append]
        rfl
      rw [insideParts, inside_eq media, front, List.flatMap_cons,
        List.append_assoc, List.append_assoc]
      apply List.Perm.append_left
      exact (induction.append_left _).trans
        (List.perm_append_comm_assoc _ _ _)

theorem insideParts_append (kind : PartKind)
    (parts parts' : List ContentPart) :
    insideParts kind (parts ++ parts') =
      insideParts kind parts ++ insideParts kind parts' := by
  induction parts with
  | nil => rw [insideParts, List.nil_append, List.nil_append]
  | cons part parts induction =>
      rw [List.cons_append, insideParts, insideParts, induction,
        List.append_assoc]

theorem flatMap_insideContent (kind : PartKind)
    (messages : List IncomingMessage) :
    (messages.flatMap fun message => insideContent kind message.content) =
      insideParts kind
        (messages.flatMap fun message => partsOf message.content) := by
  induction messages with
  | nil =>
      rw [List.flatMap_nil, List.flatMap_nil, insideParts]
  | cons message messages induction =>
      rw [List.flatMap_cons, List.flatMap_cons, insideParts_append,
        insideContent_eq, induction]

/-- The media that were read are all media if results have none. -/
theorem media_kept_iff {α : Type} {Read : ContentPart → α → Prop}
    {found : List α} (media : kind ≠ .toolResult)
    (read : List.Forall₂ Read (ofKind kind parts) found) :
    (∃ all, all.Perm (insideParts kind parts) ∧
        List.Forall₂ Read all found) ↔
      ∀ part ∈ parts, nested kind part = [] := by
  rw [← List.flatMap_eq_nil_iff]
  have split := insideParts_perm media parts
  constructor
  · rintro ⟨all, perm, found⟩
    have lengths := (perm.trans split).length_eq
    rw [List.length_append, found.length_eq, read.length_eq] at lengths
    apply List.eq_nil_of_length_eq_zero
    omega
  · intro none
    rw [none, List.append_nil] at split
    exact ⟨_, split.symm, read⟩

theorem nested_eq_nil_iff :
    nested kind part = [] ↔
      (part.partKind = .toolResult →
        insideContent kind part.content = []) := by
  unfold nested
  split_ifs with result
  · exact (true_imp_iff).symm.trans (by simp only [result, true_imp_iff])
  · exact iff_of_true rfl fun same => absurd same result

end

/-- An accepted body reaches the model whole if and only if every message with
media has words or the role of a reply, and no result has media inside. -/
theorem heard_iff {Pcm : Type} (media : Media Pcm) (serde : Serde)
    (messages : List IncomingMessage) (body : ParsedBody Pcm)
    (accepted : messagesFromBody media serde messages = .ok body) :
    Heard media serde messages body ↔
      ∀ message ∈ messages, Worded serde message := by
  obtain ⟨said, gained⟩ := messagesFromBody_spec accepted
  obtain ⟨paths, images, shown⟩ := gained.images
  obtain ⟨pcms, audio, played⟩ := gained.audio
  rw [List.nil_append] at images
  rw [Option.toList_none, List.nil_append] at audio
  dsimp only at images audio
  rw [← images] at shown
  rw [← audio] at played
  have pictures := media_kept_iff (by decide) shown
  have sounds := media_kept_iff (by decide) played
  rw [← flatMap_insideContent] at pictures sounds
  constructor
  · intro heard message member
    have turns := heard.turns
    rw [said, turns_kept_iff] at turns
    refine ⟨turns message member, ?_⟩
    intro part inside result
    have listed : part ∈ messages.flatMap fun message =>
        partsOf message.content :=
      List.mem_flatMap.mpr ⟨message, member, inside⟩
    exact ⟨nested_eq_nil_iff.mp (pictures.mp heard.images part listed)
        result,
      nested_eq_nil_iff.mp (sounds.mp heard.audio part listed) result⟩
  · intro worded
    constructor
    · rw [said, turns_kept_iff]
      intro message member
      exact (worded message member).1
    · apply pictures.mpr
      intro part listed
      obtain ⟨message, member, inside⟩ := List.mem_flatMap.mp listed
      exact nested_eq_nil_iff.mpr fun result =>
        ((worded message member).2 part inside result).1
    · apply sounds.mpr
      intro part listed
      obtain ⟨message, member, inside⟩ := List.mem_flatMap.mp listed
      exact nested_eq_nil_iff.mpr fun result =>
        ((worded message member).2 part inside result).2

/-- A part of a kind, with nothing else in it. -/
def ContentPart.bare (kind : String) : ContentPart where
  kind := some kind.toList
  text := none
  imageUrl := none
  inputAudio := none
  id := none
  name := none
  input := none
  toolUseId := none
  content := none

/-- A server that finds every picture and decodes every sound. -/
def easyMedia : Media Unit where
  imageUrlToPath url := .ok url
  decodeInputAudio _ := .ok ()
  mtmd := true

def picture : IncomingMessage where
  role := "user".toList
  content := some (.parts
    [{ ContentPart.bare "image_url" with
        imageUrl := some ⟨"cat.png".toList⟩ }])
  toolCalls := []
  toolCallId := none

def greeting : IncomingMessage where
  role := "user".toList
  content := some (.text "hi".toList)
  toolCalls := []
  toolCallId := none

theorem heard_greeting :
    ∃ body, messagesFromBody easyMedia Codec.serde [greeting] = .ok body ∧
      (Heard easyMedia Codec.serde [greeting] body ↔
        ∀ message ∈ [greeting], Worded Codec.serde message) :=
  ⟨_, rfl, heard_iff easyMedia Codec.serde [greeting] _ rfl⟩

/-- A picture without words is not a turn. -/
theorem picture_lost :
    ∃ body, messagesFromBody easyMedia Codec.serde [picture] = .ok body ∧
      ¬ Heard easyMedia Codec.serde [picture] body := by
  refine ⟨_, rfl, ?_⟩
  intro heard
  exact List.cons_ne_nil _ _ heard.turns.symm

end Runa.App.Messages
