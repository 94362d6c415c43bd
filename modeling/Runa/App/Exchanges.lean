import Runa.App.OneSession
import Runa.App.TrimmedHistory

/-!
# Whole exchanges

In the history of a chat every call of a tool has its result, right behind
the message that makes the calls and in their order, and there is no other
message of a tool.  Turns that trim the history, fail or give up keep that,
at either front end, and no engine is ever asked about other messages
(`session_exchanges`).
-/

namespace Runa.App.Exchanges

open Runa.App.Chat
open Runa.App.ChatSetup
open Runa.App.Commands
open Runa.App.DaemonProto
open Runa.App.FailedTurns
open Runa.App.OneSession
open Runa.App.ToolTurns (Moves chatArgs chatDesk)
open Runa.App.TrimmedHistory
open Runa.Engine.Generate
open Runa.Engine.Requests
open Runa.Fallible.Steps
open Runa.Stream.Utf8

/-! ## Conversations -/

/-- Messages that call no tools, and rounds of calls with their results. -/
inductive Whole : List ChatMessage → Prop
  | nil : Whole []
  | plain {front : List ChatMessage} (whole : Whole front)
      (message : ChatMessage) (other : ¬ IsTool message)
      (silent : message.toolCalls = []) : Whole (front ++ [message])
  | round {front : List ChatMessage} (whole : Whole front) (content : Text)
      (results : List (ToolCall × Text)) (some : results ≠ []) :
      Whole (pushToolResults
        (front ++ [assistant content (results.map Prod.fst)]) results)

theorem Whole.concat_user {history : List ChatMessage}
    (whole : Whole history) (input : Text) :
    Whole (history ++ [ChatMessage.user input]) :=
  whole.plain _ (not_isTool_user input) rfl

theorem Whole.answered {sent : List ChatMessage} (whole : Whole sent)
    (answer : Text) : Whole (sent ++ answerMessage answer) := by
  unfold answerMessage
  split_ifs
  · rw [List.append_nil]
    exact whole
  · refine whole.plain _ ?_ rfl
    show ¬ "assistant".toList = "tool".toList
    decide

theorem not_isUser_round {content : Text}
    {results : List (ToolCall × Text)} {message : ChatMessage}
    (listed : message ∈ pushToolResults
      [assistant content (results.map Prod.fst)] results) :
    ¬ IsUser message := by
  rcases List.mem_append.mp listed with own | result
  · rw [List.mem_singleton] at own
    rw [own]
    show ¬ "assistant".toList = "user".toList
    decide
  · rcases List.mem_map.mp result with ⟨⟨call, out⟩, _, rfl⟩
    show ¬ "tool".toList = "user".toList
    decide

/-- What begins with a message of the user is cut between two rounds. -/
theorem Whole.of_opens {messages : List ChatMessage}
    (whole : Whole messages) :
    ∀ {front kept : List ChatMessage}, messages = front ++ kept →
      Opens kept → Whole kept := by
  induction whole with
  | nil =>
      rintro front kept split ⟨user, rest, rfl, -⟩
      exact absurd split.symm (by simp)
  | @plain before whole message other silent induction =>
      rintro front kept split opens
      rcases List.eq_nil_or_concat kept with rfl | ⟨kept, last, rfl⟩
      · exact .nil
      · rw [List.concat_eq_append, ← List.append_assoc] at split
        rcases List.append_inj' split rfl with ⟨rfl, same⟩
        cases same
        rw [List.concat_eq_append] at opens ⊢
        cases kept with
        | nil => exact Whole.nil.plain message other silent
        | cons user rest =>
            rcases opens with ⟨_, _, begins, isUser⟩
            cases begins
            exact (induction rfl ⟨user, rest, rfl, isUser⟩).plain message
              other silent
  | @round before whole content results some induction =>
      rintro front kept split ⟨user, rest, rfl, isUser⟩
      have block : pushToolResults
          (before ++ [assistant content (results.map Prod.fst)]) results =
            before ++ pushToolResults
              [assistant content (results.map Prod.fst)] results :=
        List.append_assoc _ _ _
      rw [block] at split
      rcases List.append_eq_append_iff.mp split with
        ⟨part, rfl, same⟩ | ⟨part, rfl, same⟩
      · have inside : user ∈ pushToolResults
            [assistant content (results.map Prod.fst)] results := by
          rw [same]
          exact List.mem_append_right part List.mem_cons_self
        exact absurd isUser (not_isUser_round inside)
      · cases part with
        | nil =>
            have inside : user ∈ pushToolResults
                [assistant content (results.map Prod.fst)] results := by
              rw [← List.nil_append (pushToolResults _ _), ← same]
              exact List.mem_cons_self
            exact absurd isUser (not_isUser_round inside)
        | cons first part =>
            cases same
            have kept := (induction rfl ⟨user, part, rfl, isUser⟩).round
              content results some
            rw [pushToolResults, List.append_assoc] at kept
            exact kept

/-- Trimming drops whole rounds. -/
theorem whole_trimmed {session : Session} (whole : Whole session.history)
    (input : Text) (engine : ChatEngine) :
    Whole (trimmed session input engine).1 := by
  have keeps : KeepsMost (session.history ++ [ChatMessage.user input])
      (budget session) (historyTokens engine)
      (trimmed session input engine).1 :=
    reached_refl.keepsMost (Nat.le_refl _) 0
  rcases keeps.suffix with ⟨front, split⟩
  rcases keeps.begins with all | opens | alone
  · rw [all]
    exact whole.concat_user input
  · exact (whole.concat_user input).of_opens split.symm opens
  · rcases List.length_eq_one_iff.mp alone with ⟨last, single⟩
    have same := keeps.last
    rw [single, List.getLast?_singleton, List.getLast?_concat,
      Option.some.injEq] at same
    rw [single, same]
    exact Whole.nil.concat_user input

/-! ## One turn -/

/-- Two engines and daemons that answer alike what is asked of them about
whole exchanges. -/
structure Agrees (outside outside' : Outside) : Prop where
  kernelSampler : outside.kernelSampler = outside'.kernelSampler
  generate : ∀ round request, Whole request.messages →
    outside.generate round request = outside'.generate round request
  daemonGenerate : ∀ path request, Whole request.messages →
    outside.daemonGenerate path request =
      outside'.daemonGenerate path request

/-- The messages of a turn with the results of its last round. -/
def Turning.Ready (turning : Turning) (results : List (ToolCall × Text)) :
    Prop :=
  Whole (pushToolResults turning.request.messages results)

/-- Two ways to make a round: alike where the messages are whole, and then
the messages gain one with the calls, if there are calls. -/
structure Rounds (step step' : Turning → List (ToolCall × Text) →
    Except Text (List ToolCall) × Turning) : Prop where
  same : ∀ {turning results}, Turning.Ready turning results →
    step turning results = step' turning results
  adds : ∀ {turning results calls next},
    step turning results = (.ok calls, next) →
      ∃ content, next.request.messages =
        pushToolResults turning.request.messages results ++
          if calls.isEmpty then [] else [assistant content calls]

section

variable {step step' : Turning → List (ToolCall × Text) →
  Except Text (List ToolCall) × Turning} {turning : Turning}
  {results : List (ToolCall × Text)} {outside outside' : Outside}

theorem ready_calls {front : List ChatMessage} (whole : Whole front)
    (content : Text) {calls : List ToolCall} (some : calls ≠ [])
    (call : ToolCall → Text)
    (messages : turning.request.messages = front ++ [assistant content calls]) :
    Turning.Ready turning (calls.map fun made => (made, call made)) := by
  have names : (calls.map fun made => (made, call made)).map Prod.fst =
      calls := by
    rw [List.map_map]
    exact List.map_id calls
  have made := whole.round content
    (calls.map fun made => (made, call made)) (by simpa using some)
  rw [names, ← messages] at made
  exact made

/-- The rounds of a turn: alike for both, and whole at the end. -/
theorem Rounds.run (rounds : Rounds step step') (maxRounds : Nat)
    (call : ToolCall → Text) (left : Nat)
    (ready : Turning.Ready turning results) :
    toolRounds maxRounds call step left results turning =
        toolRounds maxRounds call step' left results turning ∧
      ((toolRounds maxRounds call step left results turning).1 = .ok () →
        Whole (toolRounds maxRounds call step left results
          turning).2.request.messages) := by
  induction left generalizing turning results with
  | zero =>
      refine ⟨rfl, ?_⟩
      rintro ⟨⟩
  | succ left induction =>
      rw [toolRounds, toolRounds, ← rounds.same ready]
      rcases made : step turning results with ⟨reply, next⟩
      cases reply with
      | error error =>
          refine ⟨rfl, ?_⟩
          rintro ⟨⟩
      | ok calls =>
          rcases rounds.adds made with ⟨content, messages⟩
          cases calls with
          | nil =>
              refine ⟨rfl, fun _ => ?_⟩
              show Whole next.request.messages
              rw [messages, List.isEmpty_nil, if_pos rfl, List.append_nil]
              exact ready
          | cons first later =>
              exact induction (ready_calls ready content
                (List.cons_ne_nil _ _) call messages)

theorem ask_agrees (agrees : Agrees outside outside')
    (ready : Turning.Ready turning results) :
    turning.ask outside results = turning.ask outside' results := by
  have same := agrees.generate turning.rounds
    (turning.withMessages
      (pushToolResults turning.request.messages results)).request ready
  rw [Turning.ask, Turning.ask, same]

theorem chat_rounds (agrees : Agrees outside outside') :
    Rounds (chatStep outside) (chatStep outside') := by
  constructor
  · intro turning results ready
    rw [chatStep, chatStep, ask_agrees agrees ready]
  · intro turning results calls next made
    rw [chatStep] at made
    rcases asked : turning.ask outside results with ⟨reply, after⟩
    have messages : after.request.messages =
        pushToolResults turning.request.messages results := by
      cases asked
      rfl
    rw [asked] at made
    dsimp only at made
    cases turned : reply.bind drainLocal with
    | error error =>
        rw [turned] at made
        cases made
    | ok turn =>
        rw [turned] at made
        cases made
        refine ⟨turn.text, ?_⟩
        rw [← messages]
        show (if _ then _ else _) = _ ++ if turn.calls.isEmpty then _ else _
        split_ifs with none
        · rw [List.append_nil]
        · rfl

/-- Events leave the request of a round. -/
theorem tuiEvents_request (turning : Turning) (calls : List ToolCall)
    (events : List (Except Text GenEvent)) :
    (tuiEvents turning calls events).2.request = turning.request := by
  induction events generalizing turning calls with
  | nil => rfl
  | cons event events induction =>
      rcases event with error | event
      · rfl
      · cases event with
        | text piece => exact induction _ _
        | reasoning piece => exact induction _ _
        | usage counted => exact induction _ _
        | toolCalls made => exact induction _ _
        | done reason => exact induction _ _

theorem tui_rounds (agrees : Agrees outside outside') :
    Rounds (tuiStep outside) (tuiStep outside') := by
  constructor
  · intro turning results ready
    rw [tuiStep, tuiStep, ask_agrees agrees ready]
  · intro turning results calls next made
    rw [tuiStep] at made
    rcases asked : turning.ask outside results with ⟨reply, after⟩
    have messages : after.request.messages =
        pushToolResults turning.request.messages results := by
      cases asked
      rfl
    rw [asked] at made
    dsimp only at made
    cases reply with
    | error error => cases made
    | ok stream =>
        have same := tuiEvents_request after [] stream
        rcases ran : tuiEvents after [] stream with ⟨reply, ended⟩
        rw [ran] at same
        dsimp only at made
        rw [ran] at made
        cases reply with
        | error error => cases made
        | ok made' =>
            cases made
            refine ⟨[], ?_⟩
            rw [← messages, ← same]
            split_ifs with none
            · rw [List.append_nil]
            · rfl

end

/-! ## Turns and sessions -/

section

variable {outside outside' : Outside} {session : Session} {input : Text}
  {engine : ChatEngine}

theorem localTurn_agrees
    {step step' : Turning → List (ToolCall × Text) →
      Except Text (List ToolCall) × Turning}
    (rounds : Rounds step step') {request : GenerateRequest}
    (asked : Whole request.messages) (whole : Whole session.history) :
    localTurn step session request = localTurn step' session request ∧
      Whole (localTurn step session request).1.history := by
  have ready : Turning.Ready ⟨request, none, [], 0⟩ [] := by
    rw [Turning.Ready, pushToolResults, List.map_nil, List.append_nil]
    exact asked
  have run := rounds.run session.maxToolRounds.toNat (callWith session.hub)
    (session.maxToolRounds.toNat + 1) ready
  rw [localTurn, localTurn, toolLoop, toolLoop, ← run.1]
  refine ⟨rfl, ?_⟩
  rcases made : toolRounds session.maxToolRounds.toNat
    (callWith session.hub) step (session.maxToolRounds.toNat + 1) []
    ⟨request, none, [], 0⟩ with ⟨done, turning⟩
  rw [made] at run
  cases done with
  | error error => exact whole
  | ok done =>
      exact (run.2 rfl).answered turning.answer

/-- A turn over whole exchanges asks about nothing else and leaves them. -/
theorem takeTurn_agrees (agrees : Agrees outside outside')
    (whole : Whole session.history) (frontend : Frontend) :
    takeTurn frontend outside engine input session =
        takeTurn frontend outside' engine input session ∧
      Whole (takeTurn frontend outside engine input session).1.history := by
  have kept := whole_trimmed whole input engine
  have request : ∀ messages, turnRequest outside
      { session with history := messages } messages =
        turnRequest outside' { session with history := messages }
          messages := by
    intro messages
    rw [turnRequest, turnRequest, agrees.kernelSampler]
  cases frontend with
  | editor =>
      rw [takeTurn, chatTurn, chatTurn, turnMessages]
      generalize (trimmed session input engine).1 = messages at kept
      dsimp only
      rw [← request messages]
      have asked : Whole (turnRequest outside
          { session with history := messages } messages).messages := kept
      generalize turnRequest outside { session with history := messages }
        messages = sent at asked
      rcases engine with engine | ⟨_ | tokens⟩
      · exact localTurn_agrees (chat_rounds agrees) asked kept
      · dsimp only
        rw [agrees.daemonGenerate session.path sent asked]
        refine ⟨rfl, ?_⟩
        cases outside'.daemonGenerate session.path sent with
        | error error => exact kept
        | ok events =>
            dsimp only
            cases drainDaemon events with
            | error error => exact kept
            | ok turn => exact asked.answered turn.text
      · exact localTurn_agrees (chat_rounds agrees) asked kept
  | screen =>
      rw [takeTurn, tuiTurn, tuiTurn, turnMessages]
      generalize (trimmed session input engine).1 = messages at kept
      dsimp only
      rw [← request messages]
      have asked : Whole (turnRequest outside
          { session with history := messages } messages).messages := kept
      generalize turnRequest outside { session with history := messages }
        messages = sent at asked
      rcases engine with engine | ⟨_ | tokens⟩
      · exact localTurn_agrees (tui_rounds agrees) asked kept
      · dsimp only
        rw [agrees.daemonGenerate session.path sent asked]
        refine ⟨rfl, ?_⟩
        cases outside'.daemonGenerate session.path sent with
        | error error => exact kept
        | ok events => exact asked.answered _
      · exact localTurn_agrees (tui_rounds agrees) asked kept

theorem Agrees.refl (outside : Outside) : Agrees outside outside :=
  ⟨rfl, fun _ _ _ => rfl, fun _ _ _ => rfl⟩

/-- A turn or a command keeps exchanges whole. -/
theorem whole_moves {before after : ChatEngine × Session}
    (moves : Moves before after) (whole : Whole before.2.history) :
    Whole after.2.history := by
  cases moves with
  | turn frontend outside input engine session =>
      exact (takeTurn_agrees (Agrees.refl outside) whole frontend).2
  | mode reloads session => exact whole
  | model reloads path session => exact .nil
  | think engine think session => exact whole
  | reset engine session => exact .nil

theorem whole_reached {start after : ChatEngine × Session}
    (reached : ToolTurns.Reached start after) (whole : Whole start.2.history) :
    Whole after.2.history := by
  induction reached with
  | refl => exact whole
  | tail _ moves induction => exact whole_moves moves induction

end

section

variable {around : Around} {chat : Chatting} {seen : List ChatMachine}
  {start : ChatEngine × Session} {change : Outside → Outside}

/-- The same input with another engine or daemon. -/
def swapped (change : Outside → Outside) (entry : Around × Text) :
    Around × Text :=
  ({ entry.1 with outside := change entry.1.outside }, entry.2)

theorem editorInput_agrees
    (agrees : ∀ outside, Agrees outside (change outside))
    (whole : Whole chat.session.history) (input : Text) :
    editorInput { around with outside := change around.outside } chat input =
      editorInput around chat input := by
  have turn : chatTurn around.outside chat.engine input chat.session =
      chatTurn (change around.outside) chat.engine input chat.session :=
    (takeTurn_agrees (agrees around.outside) whole .editor).1
  rw [editorInput, editorInput]
  dsimp only
  rw [turn]
  rfl

theorem screenInput_agrees
    (agrees : ∀ outside, Agrees outside (change outside))
    (whole : Whole chat.session.history) (input : Text) :
    screenInput { around with outside := change around.outside } chat input =
      screenInput around chat input := by
  have turn : tuiTurn around.outside chat.engine input chat.session =
      tuiTurn (change around.outside) chat.engine input chat.session :=
    (takeTurn_agrees (agrees around.outside) whole .screen).1
  rw [screenInput, screenInput]
  dsimp only
  rw [turn]
  rfl

theorem editorLoop_agrees
    (agrees : ∀ outside, Agrees outside (change outside))
    (begins : Whole start.2.history) {lines : List (Around × Text)}
    (members : ∀ entry ∈ lines, entry.1.machine ∈ seen)
    (coherent : Coherent seen start chat) (pending : Text) :
    editorLoop (lines.map (swapped change)) pending chat =
      editorLoop lines pending chat := by
  induction lines generalizing chat pending with
  | nil => rfl
  | cons entry lines induction =>
      rcases entry with ⟨around, line⟩
      rcases List.forall_mem_cons.mp members with ⟨here, members⟩
      have whole := whole_reached coherent.reached begins
      rw [List.map_cons, swapped, editorLoop, editorLoop]
      split
      · exact induction members coherent _
      · rw [editorInput_agrees agrees whole]
        apply next_congr
        intro goes
        exact induction members
          (editorInput_keeps here coherent _ false goes) []

theorem screenLoop_agrees
    (agrees : ∀ outside, Agrees outside (change outside))
    (begins : Whole start.2.history) {inputs : List (Around × Text)}
    (members : ∀ entry ∈ inputs, entry.1.machine ∈ seen)
    (coherent : Coherent seen start chat) :
    screenLoop (inputs.map (swapped change)) chat =
      screenLoop inputs chat := by
  induction inputs generalizing chat with
  | nil => rfl
  | cons entry inputs induction =>
      rcases entry with ⟨around, input⟩
      rcases List.forall_mem_cons.mp members with ⟨here, members⟩
      have whole := whole_reached coherent.reached begins
      rw [List.map_cons, swapped, screenLoop, screenLoop,
        screenInput_agrees agrees whole]
      apply next_congr
      intro goes
      exact induction members
        (screenInput_keeps here coherent input false goes)

end

/-- A chat begins without a history. -/
theorem openChat_history {machine : ChatMachine} {args : ChatArgs}
    {chat : Chatting} (opened : openChat machine args = .ok chat) :
    chat.session.history = [] := by
  unfold openChat at opened
  rcases bind_eq_ok.mp opened with ⟨⟨engine, session⟩, setup, opened⟩
  rcases bind_eq_ok.mp opened with ⟨_, _, opened⟩
  rcases bind_eq_ok.mp opened with ⟨_, _, opened⟩
  rcases bind_eq_ok.mp opened with ⟨_, _, opened⟩
  rcases bind_eq_ok.mp opened with ⟨_, _, opened⟩
  rcases bind_eq_ok.mp opened with ⟨_, _, opened⟩
  cases opened
  unfold cmdChat at setup
  rcases bind_eq_ok.mp setup with ⟨_, _, setup⟩
  rcases bind_eq_ok.mp setup with ⟨_, _, setup⟩
  rcases bind_eq_ok.mp setup with ⟨_, _, setup⟩
  rcases bind_eq_ok.mp setup with ⟨_, _, setup⟩
  rcases bind_eq_ok.mp setup with ⟨_, _, setup⟩
  rcases bind_eq_ok.mp setup with ⟨_, _, setup⟩
  rcases bind_eq_ok.mp setup with ⟨_, _, setup⟩
  rcases bind_eq_ok.mp setup with ⟨_, _, setup⟩
  rcases bind_eq_ok.mp setup with ⟨_, _, setup⟩
  rcases bind_eq_ok.mp setup with ⟨_, _, setup⟩
  rcases bind_eq_ok.mp setup with ⟨_, _, setup⟩
  cases setup
  rfl

/-- A session that goes on has whole exchanges in its history, and what an
engine or a daemon would answer to other messages changes nothing. -/
structure Proper (loop : List (Around × Text) → Outcome)
    (inputs : List (Around × Text)) : Prop where
  history : (∀ error, (loop inputs).ending ≠ .failed error) →
    Whole (loop inputs).chat.session.history
  asked : ∀ change : Outside → Outside,
    (∀ outside, Agrees outside (change outside)) →
      loop (inputs.map (swapped change)) = loop inputs

/-- Whatever is typed at either front end, the engine and the daemon are asked
about whole exchanges only. -/
theorem session_exchanges {machine : ChatMachine} {args : ChatArgs}
    {chat : Chatting} (opened : openChat machine args = .ok chat)
    (inputs : List (Around × Text)) :
    Proper (fun inputs => editorLoop inputs [] chat) inputs ∧
      Proper (fun inputs => screenLoop inputs chat) inputs := by
  have begins : Whole (chat.engine, chat.session).2.history := by
    rw [openChat_history opened]
    exact .nil
  have first := openChat_coherent opened
  have coherent : Coherent
      (machine :: inputs.map fun entry => entry.1.machine)
      (chat.engine, chat.session) chat :=
    { first with
      loaded := first.loaded.mono (List.cons_subset_cons machine
        (List.nil_subset _)) }
  have members : ∀ entry ∈ inputs, entry.1.machine ∈
      machine :: inputs.map fun entry => entry.1.machine :=
    fun entry member => List.mem_cons_of_mem _ (List.mem_map_of_mem member)
  constructor
  · constructor
    · intro fine
      have sound : Coherent _ _ (editorLoop inputs [] chat).chat :=
        editorLoop_sound members coherent [] fine
      exact whole_reached sound.reached begins
    · intro change agrees
      exact editorLoop_agrees agrees begins members coherent []
  · constructor
    · intro fine
      have sound : Coherent _ _ (screenLoop inputs chat).chat :=
        screenLoop_sound members coherent fine
      exact whole_reached sound.reached begins
    · intro change agrees
      exact screenLoop_agrees agrees begins members coherent

theorem session_exchanges_desk :
    openChat chatDesk chatArgs = .ok deskChat ∧
      Proper (fun inputs => editorLoop inputs [] deskChat) deskInputs ∧
        Proper (fun inputs => screenLoop inputs deskChat) deskInputs :=
  have opened : openChat chatDesk chatArgs = .ok deskChat := rfl
  ⟨opened, session_exchanges opened deskInputs⟩

end Runa.App.Exchanges
