import Runa.App.Chat

/-!
# What a chat turn leaves in the history

The two ways to write a turn differ in the text of a message that makes tool
calls, in the answer they gather, and in what they do with an error of the
daemon.  They leave the same history exactly where none of this shows.  A
turn that fails leaves its own messages behind, whichever way it is written.
-/

namespace Runa.App.ChatHistory

open Runa.App.Chat
open Runa.App.DaemonProto
open Runa.Engine.Generate
open Runa.Engine.Requests
open Runa.Stream.Lines (trim)
open Runa.Stream.Utf8

/-! ## What the engine says -/

/-- One reply of the engine: a stream, or none. -/
abbrev Reply := Except Text (List (Except Text GenEvent))

/-- A turn for which the replies are given in advance. -/
def given (kernelSampler : Bool) (replies : Nat → Reply)
    (received : Except Text (List DaemonEvent)) : Outside where
  kernelSampler := kernelSampler
  generate round _ := replies round
  daemonGenerate _ _ := received

/-- The rounds that make calls, and the one that answers, unless the turn
fails. -/
def answered (replies : Nat → Reply) :
    Nat → Nat → Option (List LocalTurn × LocalTurn)
  | 0, _ => none
  | left + 1, round =>
    match (replies round).bind drainLocal with
    | .error _ => none
    | .ok turn =>
      if turn.calls.isEmpty then some ([], turn)
      else
        (answered replies left (round + 1)).map fun (asking, last) =>
          (turn :: asking, last)

/-- The text among the events of the daemon. -/
def said (received : List DaemonEvent) : Text :=
  received.flatMap fun
    | .text body => body
    | _ => []

/-- The errors among the events of the daemon. -/
def errorsOf (received : List DaemonEvent) : List Text :=
  received.filterMap fun
    | .error message => some message
    | _ => none

/-! ## One round -/

/-- What a round leaves: the message that makes calls, and the answer. -/
def told (content : Text → Text) (gather : Text → Text → Text)
    (turning : Turning) (turn : LocalTurn) : Turning :=
  let messages :=
    if turn.calls.isEmpty then turning.request.messages
    else
      turning.request.messages ++
        [assistant (content turn.text) turn.calls]
  { turning.withMessages messages with
    usage := turn.usage.or turning.usage
    answer := gather turning.answer turn.text }

/-- A way to write a round, by the text of a message that makes calls and by
how the answer is gathered. -/
structure Writes (outside : Outside)
    (step : Turning → List (ToolCall × Text) →
      Except Text (List ToolCall) × Turning)
    (content : Text → Text) (gather : Text → Text → Text) : Prop where
  fails : ∀ turning results error,
    (turning.ask outside results).1.bind drainLocal = .error error →
      (step turning results).1 = .error error
  makes : ∀ turning results turn,
    (turning.ask outside results).1.bind drainLocal = .ok turn →
      step turning results =
        (.ok turn.calls,
          told content gather (turning.ask outside results).2 turn)

theorem chatStep_writes (outside : Outside) :
    Writes outside (chatStep outside) id fun _ text => text := by
  constructor
  · intro turning results error failed
    simp only [chatStep, failed]
  · intro turning results turn ok
    simp only [chatStep, ok, told, pushToolCalls, id_eq]
    rfl

/-- What the screen's turn has taken of a stream so far. -/
def heard (turning : Turning) (turn : LocalTurn) : Turning :=
  { turning with
    usage := turn.usage.or turning.usage
    answer := turning.answer ++ turn.text }

theorem tuiEvents_heard (turning : Turning)
    (stream : List (Except Text GenEvent)) (turn : LocalTurn) :
    (∀ drained,
      stream.foldlM
          (fun turn event => event.map fun event => turn.take event)
          turn = .ok drained →
        tuiEvents (heard turning turn) turn.calls stream =
          (.ok drained.calls, heard turning drained)) ∧
    (∀ error,
      stream.foldlM
          (fun turn event => event.map fun event => turn.take event)
          turn = .error error →
        (tuiEvents (heard turning turn) turn.calls stream).1 =
          .error error) := by
  induction stream generalizing turn with
  | nil =>
      constructor
      · intro drained same
        cases same
        rfl
      · intro error same
        cases same
  | cons first later ih =>
      cases first with
      | error error =>
          constructor
          · intro drained same
            cases same
          · intro other same
            cases same
            rfl
      | ok event =>
          have next : tuiEvents (heard turning turn) turn.calls
                (.ok event :: later) =
              tuiEvents (heard turning (turn.take event))
                (turn.take event).calls later := by
            cases event with
            | text piece =>
                rw [tuiEvents, heard, heard, LocalTurn.take]
                simp only [List.append_assoc]
            | reasoning piece => rfl
            | usage counted => rfl
            | toolCalls made => rfl
            | done reason => rfl
          rw [next]
          exact ih (turn.take event)

@[simp]
theorem heard_empty (turning : Turning) : heard turning .empty = turning := by
  rw [heard, LocalTurn.empty, List.append_nil, Option.none_or]

theorem tuiStep_writes (outside : Outside) :
    Writes outside (tuiStep outside) (fun _ => []) (· ++ ·) := by
  constructor
  · intro turning results error failed
    rw [tuiStep]
    generalize turning.ask outside results = both at failed ⊢
    obtain ⟨reply, asked⟩ := both
    cases reply with
    | error error =>
        cases failed
        rfl
    | ok stream =>
        have ends := (tuiEvents_heard asked stream .empty).2 error failed
        rw [heard_empty] at ends
        change (tuiEvents asked [] stream).1 = .error error at ends
        dsimp only
        generalize tuiEvents asked [] stream = heard at ends ⊢
        obtain ⟨done, after⟩ := heard
        cases ends
        rfl
  · intro turning results turn ok
    rw [tuiStep]
    generalize turning.ask outside results = both at ok ⊢
    obtain ⟨reply, asked⟩ := both
    cases reply with
    | error error => cases ok
    | ok stream =>
        have ends := (tuiEvents_heard asked stream .empty).1 turn ok
        rw [heard_empty] at ends
        change tuiEvents asked [] stream = _ at ends
        dsimp only
        rw [ends, told]
        cases empty : turn.calls.isEmpty with
        | true => simp only [empty, if_true, heard, Turning.withMessages]
        | false =>
            simp only [empty, Bool.false_eq_true, if_false, heard,
              Turning.withMessages]

/-! ## All rounds -/

section

variable {kernelSampler : Bool} {replies : Nat → Reply}
  {received : Except Text (List DaemonEvent)}
  {step : Turning → List (ToolCall × Text) →
    Except Text (List ToolCall) × Turning}
  {content : Text → Text} {gather : Text → Text → Text}

/-- The messages of a round that makes calls, with what the calls give. -/
def exchange (content : Text → Text) (call : ToolCall → Text)
    (turn : LocalTurn) : List ChatMessage :=
  pushToolResults [assistant (content turn.text) turn.calls]
    (turn.calls.map fun made => (made, call made))

theorem pushToolResults_append (front messages : List ChatMessage)
    (results : List (ToolCall × Text)) :
    pushToolResults (front ++ messages) results =
      front ++ pushToolResults messages results := by
  rw [pushToolResults, pushToolResults, List.append_assoc]

/-- The rounds of a turn are those of the replies. -/
theorem toolRounds_eq
    (writes : Writes (given kernelSampler replies received) step content
      gather)
    (maxRounds : Nat) (call : ToolCall → Text) (left : Nat)
    (results : List (ToolCall × Text)) (turning : Turning) :
    match answered replies left turning.rounds with
    | none => ∃ error,
        (toolRounds maxRounds call step left results turning).1 =
          .error error
    | some (asking, last) =>
        ∃ after, toolRounds maxRounds call step left results turning =
            (.ok (), after) ∧
          after.request.messages =
              pushToolResults turning.request.messages results ++
                asking.flatMap (exchange content call) ∧
            after.answer =
              gather
                (asking.foldl (fun text turn => gather text turn.text)
                  turning.answer)
                last.text := by
  induction left generalizing results turning with
  | zero => exact ⟨_, rfl⟩
  | succ left ih =>
      rw [answered, toolRounds]
      cases reply : (replies turning.rounds).bind drainLocal with
      | error error =>
          have failed := writes.fails turning results error reply
          generalize step turning results = both at failed ⊢
          obtain ⟨done, after⟩ := both
          cases failed
          exact ⟨error, rfl⟩
      | ok turn =>
          rw [writes.makes turning results turn reply]
          dsimp only
          cases empty : turn.calls.isEmpty with
          | true =>
              refine ⟨_, rfl, ?_, rfl⟩
              rw [List.flatMap_nil, List.append_nil]
              simp only [told, empty, if_true, Turning.withMessages,
                Turning.ask]
          | false =>
              have rest := ih
                (turn.calls.map fun made => (made, call made))
                (told content gather
                  (turning.ask (given kernelSampler replies received)
                    results).2 turn)
              have round :
                  (told content gather
                    (turning.ask (given kernelSampler replies received)
                      results).2 turn).rounds = turning.rounds + 1 := rfl
              have messages :
                  (told content gather
                    (turning.ask (given kernelSampler replies received)
                      results).2 turn).request.messages =
                    pushToolResults turning.request.messages results ++
                      [assistant (content turn.text) turn.calls] := by
                simp only [told, empty, Bool.false_eq_true, if_false,
                  Turning.withMessages, Turning.ask]
              rw [round] at rest
              rw [messages, pushToolResults_append] at rest
              simp only [Bool.false_eq_true, if_false]
              cases more : answered replies left (turning.rounds + 1) with
              | none =>
                  rw [more] at rest
                  exact rest
              | some found =>
                  rw [more] at rest
                  obtain ⟨after, done, sent, answer⟩ := rest
                  refine ⟨after, done, ?_, answer⟩
                  rw [sent, List.flatMap_cons, ← List.append_assoc]
                  rfl

end

/-! ## Whole turns -/

section

variable {kernelSampler : Bool} {replies : Nat → Reply}
  {received : Except Text (List DaemonEvent)}
  {step : Turning → List (ToolCall × Text) →
    Except Text (List ToolCall) × Turning}
  {content : Text → Text} {gather : Text → Text → Text}

/-- The rounds of a session's turn. -/
def answeredIn (replies : Nat → Reply) (session : Session) :
    Option (List LocalTurn × LocalTurn) :=
  answered replies (session.maxToolRounds.toNat + 1) 0

/-- A turn leaves the messages it sent, with those of its rounds and the
answer behind them unless it fails. -/
theorem localTurn_history
    (writes : Writes (given kernelSampler replies received) step content
      gather)
    (session : Session) (request : GenerateRequest)
    (sent : session.history = request.messages) :
    (localTurn step session request).1.history =
      request.messages ++
        match answeredIn replies session with
        | none => []
        | some (asking, last) =>
            asking.flatMap (exchange content (callWith session.hub)) ++
              answerMessage
                (gather
                  (asking.foldl (fun text turn => gather text turn.text)
                    [])
                  last.text) := by
  have rounds := toolRounds_eq writes session.maxToolRounds.toNat
    (callWith session.hub) (session.maxToolRounds.toNat + 1) []
    ⟨request, none, [], 0⟩
  rw [localTurn, toolLoop, answeredIn]
  dsimp only at rounds
  cases found : answered replies (session.maxToolRounds.toNat + 1) 0 with
  | none =>
      rw [found] at rounds
      obtain ⟨error, failed⟩ := rounds
      generalize toolRounds session.maxToolRounds.toNat
        (callWith session.hub) step (session.maxToolRounds.toNat + 1) []
          ⟨request, none, [], 0⟩ = both at failed ⊢
      obtain ⟨done, after⟩ := both
      cases failed
      rw [List.append_nil]
      exact sent
  | some parts =>
      rw [found] at rounds
      obtain ⟨after, done, messages, answer⟩ := rounds
      rw [done]
      dsimp only
      rw [commitHistory, messages, answer, pushToolResults, List.map_nil,
        List.append_nil, List.append_assoc]

end

/-! ## Turns of the daemon -/

/-- The line editor drains what is said, or fails at the first error. -/
theorem foldlM_receive_said (received : List DaemonEvent)
    (turn : LocalTurn) :
    match errorsOf received with
    | [] => ∃ drained,
        received.foldlM LocalTurn.receive turn = .ok drained ∧
          drained.text = turn.text ++ said received
    | error :: _ =>
        received.foldlM LocalTurn.receive turn = .error error := by
  induction received generalizing turn with
  | nil => exact ⟨turn, rfl, (List.append_nil _).symm⟩
  | cons event later ih =>
      cases event with
      | error message => rfl
      | text body =>
          have rest := ih { turn with text := turn.text ++ body }
          have same : errorsOf (.text body :: later) = errorsOf later :=
            rfl
          rw [same]
          cases errors : errorsOf later with
          | nil =>
              rw [errors] at rest
              obtain ⟨drained, ok, text⟩ := rest
              refine ⟨drained, ok, ?_⟩
              rw [text, List.append_assoc]
              rfl
          | cons error more =>
              rw [errors] at rest
              exact rest
      | reasoning body => exact ih turn
      | toolCalls calls => exact ih _
      | usage counted => exact ih _
      | done stop => exact ih _

/-- The screen gathers what is said, and shows every error. -/
theorem foldl_tuiReceive (received : List DaemonEvent)
    (shown : Option Usage × Text × List Text) :
    (received.foldl tuiReceive shown).2 =
      (shown.2.1 ++ said received, shown.2.2 ++ errorsOf received) := by
  induction received generalizing shown with
  | nil => simp [said, errorsOf]
  | cons event later ih =>
      rw [List.foldl_cons, ih]
      cases event with
      | text body => simp [tuiReceive, said, errorsOf]
      | reasoning body => simp [tuiReceive, said, errorsOf]
      | toolCalls calls => simp [tuiReceive, said, errorsOf]
      | usage counted => simp [tuiReceive, said, errorsOf]
      | done stop => simp [tuiReceive, said, errorsOf]
      | error message => simp [tuiReceive, said, errorsOf]

/-- What the daemon makes of the request of a turn. -/
def daemonReply (outside : Outside) (input : Text) (session : Session) :
    Except Text (List DaemonEvent) :=
  let (messages, session) := turnMessages session input (.daemon none)
  outside.daemonGenerate session.path (turnRequest outside session messages)

section

variable {outside : Outside} {input : Text} {session : Session}

theorem chatTurn_unreached {error : Text}
    (unreached : daemonReply outside input session = .error error) :
    chatTurn outside (.daemon none) input session =
      ((turnMessages session input (.daemon none)).2,
        [daemonHint error]) := by
  unfold daemonReply at unreached
  unfold chatTurn
  dsimp only at unreached ⊢
  rw [unreached]

theorem tuiTurn_unreached {error : Text}
    (unreached : daemonReply outside input session = .error error) :
    tuiTurn outside (.daemon none) input session =
      ((turnMessages session input (.daemon none)).2,
        ["daemon: ".toList ++ error]) := by
  unfold daemonReply at unreached
  unfold tuiTurn
  dsimp only at unreached ⊢
  rw [unreached]

/-- The line editor records what is said unless there is an error. -/
theorem chatTurn_reached {events : List DaemonEvent}
    (reached : daemonReply outside input session = .ok events) :
    (chatTurn outside (.daemon none) input session).1.history =
        (trimmed session input (.daemon none)).1 ++
          (if errorsOf events = [] then answerMessage (said events)
            else []) ∧
      (chatTurn outside (.daemon none) input session).2 =
        (errorsOf events).take 1 := by
  unfold daemonReply at reached
  unfold chatTurn
  dsimp only at reached ⊢
  rw [reached]
  have editor := foldlM_receive_said events .empty
  cases errors : errorsOf events with
  | nil =>
      rw [errors] at editor
      obtain ⟨turn, drained, text⟩ := editor
      have whole : turn.text = said events := text
      simp only [drainDaemon, drained, if_true, List.take_nil, and_true,
        commitHistory, whole]
      rfl
  | cons error more =>
      rw [errors] at editor
      simp only [drainDaemon, editor, reduceCtorEq, if_false,
        List.append_nil, List.take_succ_cons, List.take_zero, and_true]
      rfl

/-- The screen records what is said. -/
theorem tuiTurn_reached {events : List DaemonEvent}
    (reached : daemonReply outside input session = .ok events) :
    (tuiTurn outside (.daemon none) input session).1.history =
        (trimmed session input (.daemon none)).1 ++
          answerMessage (said events) ∧
      (tuiTurn outside (.daemon none) input session).2 =
        errorsOf events := by
  unfold daemonReply at reached
  unfold tuiTurn
  dsimp only at reached ⊢
  rw [reached]
  have screen := foldl_tuiReceive events (none, [], [])
  constructor
  · exact congrArg
      (fun shown => (trimmed session input (.daemon none)).1 ++
        answerMessage shown.1) screen
  · exact congrArg Prod.snd screen

end

/-! ## One history -/

theorem exchange_eq (content : Text → Text) (call : ToolCall → Text)
    (turn : LocalTurn) :
    exchange content call turn =
      assistant (content turn.text) turn.calls ::
        pushToolResults []
          (turn.calls.map fun made => (made, call made)) := rfl

theorem assistant_eq_iff {content other : Text} (calls : List ToolCall) :
    assistant content calls = assistant other calls ↔ content = other :=
  ⟨fun same => congrArg ChatMessage.content same,
    fun same => congrArg (assistant · calls) same⟩

theorem exchanges_append_eq_iff (call : ToolCall → Text)
    (asking : List LocalTurn) (answer other : List ChatMessage) :
    asking.flatMap (exchange id call) ++ answer =
        asking.flatMap (exchange (fun _ => []) call) ++ other ↔
      (∀ turn ∈ asking, turn.text = []) ∧ answer = other := by
  induction asking with
  | nil => simp
  | cons turn later ih =>
      rw [List.flatMap_cons, List.flatMap_cons, List.append_assoc,
        List.append_assoc, exchange_eq, exchange_eq, List.cons_append,
        List.cons_append, List.cons_eq_cons, List.append_right_inj, ih,
        List.forall_mem_cons, and_assoc]
      apply and_congr_left
      intro _
      exact assistant_eq_iff turn.calls

theorem foldl_gather_silent {asking : List LocalTurn}
    (silent : ∀ turn ∈ asking, turn.text = []) :
    asking.foldl (fun text turn => text ++ turn.text) [] = [] := by
  induction asking with
  | nil => rfl
  | cons turn later ih =>
      obtain ⟨here, there⟩ := List.forall_mem_cons.mp silent
      rw [List.foldl_cons, here]
      exact ih there

/-- No round that makes calls says anything, if the turn is answered. -/
def SilentCalls (replies : Nat → Reply) (session : Session) : Prop :=
  ∀ asking last, answeredIn replies session = some (asking, last) →
    ∀ turn ∈ asking, turn.text = []

/-- Nothing but blanks is said where an error is among the events. -/
def SilentErrors (received : Except Text (List DaemonEvent)) : Prop :=
  ∀ events, received = .ok events → errorsOf events ≠ [] →
    trim (said events) = []

section

variable (kernelSampler : Bool) (replies : Nat → Reply)
  (received : Except Text (List DaemonEvent)) (input : Text)
  (session : Session)

theorem localTurn_history_eq_iff (request : GenerateRequest)
    (sent : session.history = request.messages) :
    (localTurn (chatStep (given kernelSampler replies received)) session
        request).1.history =
      (localTurn (tuiStep (given kernelSampler replies received)) session
        request).1.history ↔
    SilentCalls replies session := by
  rw [localTurn_history (chatStep_writes _) session request sent,
    localTurn_history (tuiStep_writes _) session request sent,
    List.append_right_inj, SilentCalls]
  cases answeredIn replies session with
  | none => simp
  | some found =>
      obtain ⟨asking, last⟩ := found
      dsimp only
      rw [exchanges_append_eq_iff]
      constructor
      · intro both other final same
        cases same
        exact both.1
      · intro silent
        have quiet := silent asking last rfl
        rw [foldl_gather_silent quiet]
        exact ⟨quiet, rfl⟩

theorem answerMessage_eq_nil_iff {answer : Text} :
    answerMessage answer = [] ↔ trim answer = [] := by
  rw [answerMessage]
  split
  · next blank => simp [List.isEmpty_iff.mp blank]
  · next visible => simpa using visible

/-- The two turns of the daemon. -/
theorem daemonTurn_history_eq_iff :
    (chatTurn (given kernelSampler replies received) (.daemon none) input
        session).1.history =
      (tuiTurn (given kernelSampler replies received) (.daemon none) input
        session).1.history ↔
    SilentErrors received := by
  rw [SilentErrors]
  cases received with
  | error error =>
      rw [chatTurn_unreached rfl, tuiTurn_unreached rfl]
      constructor
      · intro _ events same
        cases same
      · exact fun _ => rfl
  | ok events =>
      rw [(chatTurn_reached rfl).1, (tuiTurn_reached rfl).1,
        List.append_right_inj]
      split
      · next none =>
          constructor
          · intro _ others same some
            cases same
            exact absurd none some
          · exact fun _ => rfl
      · next some =>
          rw [eq_comm, answerMessage_eq_nil_iff]
          constructor
          · intro blank others same _
            cases same
            exact blank
          · exact fun silent => silent events rfl some

/-- When the two ways to write a turn leave the same history. -/
def Alike (replies : Nat → Reply)
    (received : Except Text (List DaemonEvent)) (session : Session) :
    ChatEngine → Prop
  | .daemon none => SilentErrors received
  | .managed _ => SilentCalls replies session
  | .daemon (some _) => SilentCalls replies session

/-- Line editor and screen leave the same history exactly if no round that
makes calls says anything, unless the turn fails, or, with the daemon, if
nothing is said where there is an error. -/
theorem sameHistory_iff (engine : ChatEngine) :
    (chatTurn (given kernelSampler replies received) engine input
        session).1.history =
      (tuiTurn (given kernelSampler replies received) engine input
        session).1.history ↔
    Alike replies received session engine := by
  cases engine with
  | managed local' =>
      exact localTurn_history_eq_iff kernelSampler replies received _ _ rfl
  | daemon loaded =>
      cases loaded with
      | none =>
          exact daemonTurn_history_eq_iff kernelSampler replies received
            input session
      | some tokens =>
          exact localTurn_history_eq_iff kernelSampler replies received _ _
            rfl

end

/-! ## A turn with a remark in front of a call -/

def clock : ToolCall where
  id := "t1".toList
  name := "clock".toList
  arguments := "\x7b\x7d".toList

/-- First a remark with a call, then the answer. -/
def remarkReplies : Nat → Reply
  | 0 => .ok [.ok (.text "Let me see.".toList), .ok (.toolCalls [clock]),
      .ok (.done .eos)]
  | _ => .ok [.ok (.text "Noon.".toList), .ok (.done .eos)]

def freshSession : Session where
  path := "qwen.gguf".toList
  ctx := 4096
  history := []
  think := .default
  lastUsage := none
  hub := some ⟨"[]".toList, fun _ => "12:00".toList⟩
  maxToolRounds := 8

/-- The screen keeps the remark in its answer and not with its call. -/
theorem remark_history :
    (chatTurn (given false remarkReplies (.ok [])) (.managed .mistral)
        "What time is it?".toList freshSession).1.history ≠
      (tuiTurn (given false remarkReplies (.ok [])) (.managed .mistral)
        "What time is it?".toList freshSession).1.history := by
  decide +kernel

end Runa.App.ChatHistory
