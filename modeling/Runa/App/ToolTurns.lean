import Mathlib.Logic.Relation
import Runa.App.ChatSetup
import Runa.App.FailedTurns
import Runa.App.SameAnswer

/-!
# Tool calls of a chat

The calls in a reply of the engine are made, and their results are in the
next request of the turn.  A turn that the daemon serves is one request, on
the assumption that there is no hub then; but the daemon is chosen by the
flags alone, and the servers of the files make a hub.  `heeded_iff` says when
no call is dropped.
-/

namespace Runa.App.ToolTurns

open Runa.App.Chat
open Runa.App.ChatHistory
open Runa.App.ChatSetup
open Runa.App.Config (loadMcpServers)
open Runa.App.DaemonProto
open Runa.App.FailedTurns
open Runa.Core.Think
open Runa.Engine.Generate
open Runa.Engine.Requests
open Runa.Stream.Lines (trim)
open Runa.Stream.Utf8

/-! ## What is asked and answered in a turn -/

/-- A request, with the calls of its reply. -/
structure Exchange where
  request : GenerateRequest
  calls : List ToolCall

/-- The calls of a stream, by its events. -/
def callEvents (stream : List (Except Text GenEvent)) :
    List (List ToolCall) :=
  stream.filterMap fun
    | .ok (.toolCalls calls) => some calls
    | _ => none

def replyCalls : Reply → List ToolCall
  | .error _ => []
  | .ok stream => (callEvents stream).flatten

def daemonCalls (events : List DaemonEvent) : List ToolCall :=
  events.flatMap fun
    | .toolCalls calls => calls.map ProtoToolCall.toToolCall
    | _ => []

abbrev Step :=
  Turning → List (ToolCall × Text) → Except Text (List ToolCall) × Turning

/-- A step that notes what it asks and what it is answered. -/
def watched (outside : Outside) (step : Step)
    (state : Turning × List Exchange) (results : List (ToolCall × Text)) :
    Except Text (List ToolCall) × (Turning × List Exchange) :=
  let asked := state.1.ask outside results
  let next := step state.1 results
  (next.1, next.2,
    state.2 ++ [⟨asked.2.request, replyCalls asked.1⟩])

/-- The step of a front end. -/
def stepOf : Frontend → Outside → Step
  | .editor => chatStep
  | .screen => tuiStep

def localLog (outside : Outside) (step : Step) (session : Session)
    (request : GenerateRequest) : List Exchange :=
  (toolLoop session.maxToolRounds.toNat (callWith session.hub)
    (watched outside step) (⟨request, none, [], 0⟩, [])).2.2

/-- All requests of a turn, with the calls of their replies. -/
def turnLog (frontend : Frontend) (outside : Outside) (engine : ChatEngine)
    (input : Text) (session : Session) : List Exchange :=
  let (messages, session) := turnMessages session input engine
  let request := turnRequest outside session messages
  match engine with
  | .managed _ => localLog outside (stepOf frontend outside) session request
  | .daemon none =>
    match outside.daemonGenerate session.path request with
    | .error _ => [⟨request, []⟩]
    | .ok events => [⟨request, daemonCalls events⟩]
  | .daemon (some _) =>
    localLog outside (stepOf frontend outside) session request

/-- The calls are made, and the next request has their results. -/
def Answers (call : ToolCall → Text) (exchange next : Exchange) : Prop :=
  ∃ content, next.request.messages =
    pushToolResults
      (exchange.request.messages ++ [assistant content exchange.calls])
      (exchange.calls.map fun made => (made, call made))

/-- Calls of a reply to a request with tools are answered in the turn, or the
turn ends with an error and leaves no answer. -/
def Heeded (frontend : Frontend) (outside : Outside) (engine : ChatEngine)
    (input : Text) (session : Session) : Prop :=
  ∀ front exchange back,
    turnLog frontend outside engine input session =
        front ++ exchange :: back →
      exchange.request.tools ≠ none → exchange.calls ≠ [] →
        (∃ next rest, back = next :: rest ∧
            Answers (callWith session.hub) exchange next) ∨
          Fails frontend outside engine input session ∧
            (takeTurn frontend outside engine input session).1.history =
              (trimmed session input engine).1

/-- A reply of the engine has its calls in one event. -/
def Single (outside : Outside) : Prop :=
  ∀ round request stream, outside.generate round request = .ok stream →
    (callEvents stream).length ≤ 1

/-- The daemon's reply makes no calls, or fails before anything is said. -/
def Minded (frontend : Frontend) (outside : Outside) (input : Text)
    (session : Session) : Prop :=
  ∀ events, daemonReply outside input session = .ok events →
    daemonCalls events = [] ∨
      errorsOf events ≠ [] ∧
        (frontend = .screen → answerMessage (said events) = [])

/-! ## Rounds -/

section

variable {outside : Outside} {step : Step} {maxRounds : Nat}
  {call : ToolCall → Text}

/-- Watching does not change a turn. -/
theorem toolRounds_watched (left : Nat) (results : List (ToolCall × Text))
    (turning : Turning) (log : List Exchange) :
    (toolRounds maxRounds call (watched outside step) left results
        (turning, log)).1 =
        (toolRounds maxRounds call step left results turning).1 ∧
      (toolRounds maxRounds call (watched outside step) left results
          (turning, log)).2.1 =
        (toolRounds maxRounds call step left results turning).2 := by
  induction left generalizing results turning log with
  | zero => exact ⟨rfl, rfl⟩
  | succ left induction =>
      rw [toolRounds, toolRounds, watched]
      dsimp only
      generalize step turning results = next
      obtain ⟨made, turning⟩ := next
      cases made with
      | error error => exact ⟨rfl, rfl⟩
      | ok calls =>
          dsimp only
          split_ifs
          · exact ⟨rfl, rfl⟩
          · exact induction _ turning _

/-- The exchanges of the rounds that are left, by the messages that the first
of them asks with. -/
inductive Chained (call : ToolCall → Text) (failed : Prop) :
    List ChatMessage → List Exchange → Prop where
  | stopped {messages : List ChatMessage} (fails : failed) :
      Chained call failed messages []
  | last {messages : List ChatMessage} {exchange : Exchange}
      (asked : exchange.request.messages = messages)
      (ends : exchange.calls = [] ∨ failed) :
      Chained call failed messages [exchange]
  | asks {messages : List ChatMessage} {exchange : Exchange}
      {rest : List Exchange} (content : Text)
      (asked : exchange.request.messages = messages)
      (later : Chained call failed
        (pushToolResults
          (messages ++ [assistant content exchange.calls])
          (exchange.calls.map fun made => (made, call made)))
        rest) :
      Chained call failed messages (exchange :: rest)

theorem Chained.heeded {failed : Prop} {messages : List ChatMessage}
    {log : List Exchange} (chained : Chained call failed messages log)
    {front back : List Exchange} {exchange : Exchange}
    (found : log = front ++ exchange :: back)
    (calls : exchange.calls ≠ []) :
    (∃ next rest, back = next :: rest ∧ Answers call exchange next) ∨
      failed := by
  induction chained generalizing front with
  | stopped fails => exact Or.inr fails
  | last asked ends =>
      rcases ends with silent | fails
      · cases front with
        | nil =>
            cases found
            exact (calls silent).elim
        | cons first front =>
            rw [List.cons_append, List.cons.injEq] at found
            exact (List.append_ne_nil_of_right_ne_nil _
              (List.cons_ne_nil _ _) found.2.symm).elim
      · exact Or.inr fails
  | asks content asked later induction =>
      cases front with
      | cons first front =>
          rw [List.cons_append, List.cons.injEq] at found
          exact induction found.2
      | nil =>
          rw [List.nil_append, List.cons.injEq] at found
          obtain ⟨rfl, rfl⟩ := found
          rw [← asked] at later
          cases later with
          | stopped fails => exact Or.inr fails
          | last answered ends => exact Or.inl ⟨_, _, rfl, _, answered⟩
          | asks _ answered more => exact Or.inl ⟨_, _, rfl, _, answered⟩

theorem calls_of_drain {stream : List (Except Text GenEvent)}
    {turn drained : LocalTurn}
    (drains : stream.foldlM
      (fun turn event => event.map fun event => turn.take event) turn =
        .ok drained) :
    drained.calls = (callEvents stream).getLast?.getD turn.calls := by
  induction stream generalizing turn with
  | nil =>
      cases drains
      rfl
  | cons event stream induction =>
      cases event with
      | error error => cases drains
      | ok event =>
          have rest := induction drains
          cases event with
          | toolCalls calls =>
              show drained.calls =
                (calls :: callEvents stream).getLast?.getD turn.calls
              rw [List.getLast?_cons]
              exact rest
          | _ => exact rest

/-- The calls of a reply that is drained are those of its one event. -/
theorem calls_of_reply {reply : Reply} {turn : LocalTurn}
    (single : ∀ stream, reply = .ok stream →
      (callEvents stream).length ≤ 1)
    (drains : reply.bind drainLocal = .ok turn) :
    turn.calls = replyCalls reply := by
  cases reply with
  | error error => cases drains
  | ok stream =>
      rw [calls_of_drain drains, replyCalls]
      have few := single stream rfl
      generalize callEvents stream = events at few ⊢
      rcases events with _ | ⟨calls, _ | ⟨more, later⟩⟩
      · rfl
      · exact (List.append_nil calls).symm
      · rw [List.length_cons, List.length_cons] at few
        omega

/-- The rounds of a turn are chained by their calls. -/
theorem chained_rounds {content : Text → Text} {gather : Text → Text → Text}
    (writes : Writes outside step content gather) (single : Single outside)
    (left : Nat) (results : List (ToolCall × Text)) (turning : Turning)
    (log : List Exchange) :
    ∃ new,
      (toolRounds maxRounds call (watched outside step) left results
          (turning, log)).2.2 = log ++ new ∧
        Chained call
          ((toolRounds maxRounds call step left results turning).1 ≠ .ok ())
          (pushToolResults turning.request.messages results) new := by
  induction left generalizing results turning log with
  | zero =>
      refine ⟨[], (List.append_nil log).symm, Chained.stopped ?_⟩
      intro done
      cases done
  | succ left induction =>
      have sent : (turning.ask outside results).2.request.messages =
          pushToolResults turning.request.messages results :=
        rfl
      rw [toolRounds, toolRounds, watched, ← sent]
      dsimp only
      cases reply : (turning.ask outside results).1.bind drainLocal with
      | error error =>
          have failed := writes.fails turning results error reply
          generalize step turning results = next at failed ⊢
          obtain ⟨made, after⟩ := next
          cases failed
          refine ⟨_, rfl, Chained.last rfl (Or.inr ?_)⟩
          intro done
          cases done
      | ok turn =>
          have calls : turn.calls =
              replyCalls (turning.ask outside results).1 :=
            calls_of_reply (single _ _) reply
          rw [writes.makes turning results turn reply]
          dsimp only
          cases empty : turn.calls.isEmpty with
          | true =>
              refine ⟨_, rfl, Chained.last rfl (Or.inl ?_)⟩
              rw [← calls]
              exact List.isEmpty_iff.mp empty
          | false =>
              obtain ⟨new, more, chained⟩ := induction
                (turn.calls.map fun made => (made, call made))
                (told content gather (turning.ask outside results).2 turn)
                (log ++ [⟨(turning.ask outside results).2.request,
                  replyCalls (turning.ask outside results).1⟩])
              have messages :
                  (told content gather (turning.ask outside results).2
                    turn).request.messages =
                    (turning.ask outside results).2.request.messages ++
                      [assistant (content turn.text)
                        (replyCalls (turning.ask outside results).1)] := by
                simp only [told, empty, calls.symm, Bool.false_eq_true,
                  if_false, Turning.withMessages]
              rw [messages, calls] at chained
              simp only [Bool.false_eq_true, if_false]
              refine ⟨⟨(turning.ask outside results).2.request,
                replyCalls (turning.ask outside results).1⟩ :: new, ?_,
                Chained.asks (content turn.text) rfl ?_⟩
              · rw [calls] at more ⊢
                rw [more, List.append_assoc]
                rfl
              · rw [calls]
                exact chained

end

/-! ## Turns -/

section

variable {frontend : Frontend} {outside : Outside} {input : Text}
  {session : Session}

theorem stepOf_writes (frontend : Frontend) (outside : Outside) :
    ∃ content gather,
      Writes outside (stepOf frontend outside) content gather := by
  cases frontend with
  | editor => exact ⟨_, _, chatStep_writes outside⟩
  | screen => exact ⟨_, _, tuiStep_writes outside⟩

/-- A local turn heeds the calls, or fails. -/
theorem local_heeded (single : Single outside) (session : Session)
    (request : GenerateRequest) {front back : List Exchange}
    {exchange : Exchange}
    (found : localLog outside (stepOf frontend outside) session request =
      front ++ exchange :: back)
    (calls : exchange.calls ≠ []) :
    (∃ next rest, back = next :: rest ∧
        Answers (callWith session.hub) exchange next) ∨
      (localTurn (stepOf frontend outside) session request).2 ≠ [] := by
  obtain ⟨content, gather, writes⟩ := stepOf_writes frontend outside
  obtain ⟨new, log, chained⟩ := @chained_rounds outside
    (stepOf frontend outside) session.maxToolRounds.toNat
    (callWith session.hub) content gather writes single
    (session.maxToolRounds.toNat + 1) [] ⟨request, none, [], 0⟩ []
  rw [localLog, toolLoop, log, List.nil_append] at found
  refine (chained.heeded found calls).imp_right ?_
  intro fails
  rw [localTurn, toolLoop]
  generalize toolRounds session.maxToolRounds.toNat (callWith session.hub)
    (stepOf frontend outside) (session.maxToolRounds.toNat + 1) []
    ⟨request, none, [], 0⟩ = both at fails ⊢
  obtain ⟨done, after⟩ := both
  cases done with
  | ok done => exact (fails rfl).elim
  | error error => exact List.cons_ne_nil _ _

theorem takeTurn_local {engine : ChatEngine} (here : engine ≠ .daemon none)
    (frontend : Frontend) (outside : Outside) (input : Text)
    (session : Session) :
    takeTurn frontend outside engine input session =
        localTurn (stepOf frontend outside)
          (turnMessages session input engine).2
          (turnRequest outside (turnMessages session input engine).2
            (turnMessages session input engine).1) ∧
      turnLog frontend outside engine input session =
        localLog outside (stepOf frontend outside)
          (turnMessages session input engine).2
          (turnRequest outside (turnMessages session input engine).2
            (turnMessages session input engine).1) := by
  cases engine with
  | managed engine => cases frontend <;> exact ⟨rfl, rfl⟩
  | daemon loaded =>
      cases loaded with
      | none => exact (here rfl).elim
      | some tokens => cases frontend <;> exact ⟨rfl, rfl⟩

theorem heeded_local (single : Single outside) {engine : ChatEngine}
    (here : engine ≠ .daemon none) :
    Heeded frontend outside engine input session := by
  intro front exchange back found _ calls
  obtain ⟨turn, log⟩ :=
    takeTurn_local here frontend outside input session
  rw [log] at found
  refine (local_heeded single _ _ found calls).imp_right ?_
  intro fails
  rw [Fails, turn]
  exact ⟨fails, localTurn_failed fails⟩

/-- A turn of the daemon is one exchange. -/
theorem turnLog_daemon :
    ∃ exchange,
      turnLog frontend outside (.daemon none) input session = [exchange] ∧
        exchange.request.tools = session.hub.map McpHub.toolsJson ∧
          exchange.calls =
            match daemonReply outside input session with
            | .error _ => []
            | .ok events => daemonCalls events := by
  unfold turnLog daemonReply
  dsimp only
  cases outside.daemonGenerate _ _ with
  | error error => exact ⟨_, rfl, rfl, rfl⟩
  | ok events => exact ⟨_, rfl, rfl, rfl⟩

/-- Which turns of the daemon fail and leave no answer. -/
theorem fails_daemon_iff {events : List DaemonEvent}
    (reached : daemonReply outside input session = .ok events) :
    Fails frontend outside (.daemon none) input session ∧
        (takeTurn frontend outside (.daemon none) input session).1.history =
          (trimmed session input (.daemon none)).1 ↔
      errorsOf events ≠ [] ∧
        (frontend = .screen → answerMessage (said events) = []) := by
  cases frontend with
  | editor =>
      obtain ⟨history, errors⟩ := chatTurn_reached reached
      rw [Fails, takeTurn, errors, history]
      have other : Frontend.editor ≠ .screen := by
        intro same
        cases same
      cases shown : errorsOf events with
      | nil => simp
      | cons error more => simp [other]
  | screen =>
      obtain ⟨history, errors⟩ := tuiTurn_reached reached
      rw [Fails, takeTurn, errors, history, List.append_right_eq_self]
      simp only [true_imp_iff]

/-- A turn of the daemon drops its calls unless there is no hub. -/
theorem heeded_daemon_iff :
    Heeded frontend outside (.daemon none) input session ↔
      (session.hub ≠ none → Minded frontend outside input session) := by
  obtain ⟨exchange, log, tools, calls⟩ := @turnLog_daemon frontend outside
    input session
  have offered : exchange.request.tools ≠ none ↔ session.hub ≠ none := by
    rw [tools, ne_eq, Option.map_eq_none_iff]
  constructor
  · intro heeded hub events reached
    rw [reached] at calls
    by_cases silent : daemonCalls events = []
    · exact Or.inl silent
    · have only := heeded [] exchange [] log (offered.mpr hub)
        fun none => silent (calls.symm.trans none)
      rcases only with ⟨next, rest, none, -⟩ | failed
      · cases none
      · exact Or.inr ((fails_daemon_iff reached).mp failed)
  · intro minded front other back found asked made
    rw [log] at found
    have same : exchange = other := by
      cases front with
      | nil => exact (List.cons.inj found).1
      | cons first front =>
          exact (List.append_ne_nil_of_right_ne_nil _
            (List.cons_ne_nil _ _) (List.cons.inj found).2.symm).elim
    subst same
    cases reply : daemonReply outside input session with
    | error error =>
        rw [reply] at calls
        exact (made calls).elim
    | ok events =>
        rw [reply] at calls
        have failed := (minded (offered.mp asked) events reply).resolve_left
          fun none => made (calls.trans none)
        exact Or.inr ((fails_daemon_iff reply).mpr failed)

/-! ## Sessions -/

/-- What a reload makes of an engine. -/
inductive Reloads : ChatEngine → ChatEngine → Prop where
  | kept (engine : ChatEngine) : Reloads engine engine
  | managed (engine engine' : LocalEngine) :
      Reloads (.managed engine) (.managed engine')
  | loaded (tokens tokens' : Text → Option Nat) :
      Reloads (.daemon (some tokens)) (.daemon (some tokens'))

/-- A turn, or a command of a chat. -/
inductive Moves : ChatEngine × Session → ChatEngine × Session → Prop where
  | turn (frontend : Frontend) (outside : Outside) (input : Text)
      (engine : ChatEngine) (session : Session) :
      Moves (engine, session)
        (engine, (takeTurn frontend outside engine input session).1)
  | mode {engine engine' : ChatEngine} (reloads : Reloads engine engine')
      (session : Session) : Moves (engine, session) (engine', session)
  | model {engine engine' : ChatEngine} (reloads : Reloads engine engine')
      (path : Text) (session : Session) :
      Moves (engine, session)
        (engine', { session with path := path, history := [] })
  | think (engine : ChatEngine) (think : ThinkConfig) (session : Session) :
      Moves (engine, session) (engine, { session with think := think })
  | reset (engine : ChatEngine) (session : Session) :
      Moves (engine, session) (engine, { session with history := [] })

abbrev Reached :=
  Relation.ReflTransGen Moves

theorem Reloads.daemon {engine engine' : ChatEngine}
    (reloads : Reloads engine engine') :
    engine' = .daemon none ↔ engine = .daemon none := by
  cases reloads with
  | kept => exact Iff.rfl
  | managed => exact iff_of_false (by rintro ⟨⟩) (by rintro ⟨⟩)
  | loaded => exact iff_of_false (by rintro ⟨⟩) (by rintro ⟨⟩)

theorem localTurn_hub (step : Step) (request : GenerateRequest) :
    (localTurn step session request).1.hub = session.hub := by
  rw [localTurn]
  generalize toolLoop session.maxToolRounds.toNat (callWith session.hub) step
    ⟨request, none, [], 0⟩ = both
  obtain ⟨done, after⟩ := both
  cases done <;> rfl

/-- A turn keeps the hub. -/
theorem takeTurn_hub (engine : ChatEngine) :
    (takeTurn frontend outside engine input session).1.hub =
      session.hub := by
  by_cases daemon : engine = .daemon none
  · subst daemon
    cases frontend with
    | editor =>
        unfold takeTurn chatTurn
        dsimp only
        cases outside.daemonGenerate _ _ with
        | error error => rfl
        | ok events =>
            dsimp only
            cases drainDaemon events <;> rfl
    | screen =>
        unfold takeTurn tuiTurn
        dsimp only
        cases outside.daemonGenerate _ _ with
        | error error => rfl
        | ok events => rfl
  · rw [(takeTurn_local daemon frontend outside input session).1,
      localTurn_hub]
    rfl

/-- A chat keeps its hub, and whether the daemon has its turns. -/
theorem reached_keeps {start current : ChatEngine × Session}
    (reached : Reached start current) :
    current.2.hub = start.2.hub ∧
      (current.1 = .daemon none ↔ start.1 = .daemon none) := by
  induction reached with
  | refl => exact ⟨rfl, Iff.rfl⟩
  | tail _ moves induction =>
      obtain ⟨hub, daemon⟩ := induction
      cases moves with
      | turn frontend outside input engine session =>
          exact ⟨(takeTurn_hub engine).trans hub, daemon⟩
      | mode reloads session =>
          exact ⟨hub, reloads.daemon.trans daemon⟩
      | model reloads path session =>
          exact ⟨hub, reloads.daemon.trans daemon⟩
      | think engine think session => exact ⟨hub, daemon⟩
      | reset engine session => exact ⟨hub, daemon⟩

end

/-- No call is dropped in any turn of a chat if and only if, where the daemon
has its turns and the files have servers of tools, the daemon's replies make
no calls or fail before anything is said. -/
theorem heeded_iff (machine : ChatMachine) (args : ChatArgs)
    (start : ChatEngine × Session) (setup : cmdChat machine args = .ok start)
    (engine : ChatEngine) (session : Session)
    (reached : Reached start (engine, session)) (frontend : Frontend)
    (outside : Outside) (single : Single outside) (input : Text) :
    Heeded frontend outside engine input session ↔
      (ServedByDaemon machine args →
        loadMcpServers machine.files ≠ .ok [] →
          Minded frontend outside input session) := by
  obtain ⟨daemon, hub⟩ := cmdChat_spec setup
  obtain ⟨kept, same⟩ := reached_keeps reached
  dsimp only at kept same
  rw [← kept] at hub
  rw [← same] at daemon
  by_cases served : engine = .daemon none
  · have flags := (daemon.mp served).2.2.1
    rw [served, heeded_daemon_iff, ne_eq, hub]
    simp only [daemon.mp served, flags, and_true, true_imp_iff, ne_eq]
  · apply iff_of_true (heeded_local single served)
    intro serves
    exact (served (daemon.mpr serves)).elim

/-! A desk with a daemon, and with a server of tools in its file. -/

def toolFile : Config.Toml :=
  .table [("mcp".toList, .table [("servers".toList,
    .table [("w".toList,
      .table [("command".toList, .string "w".toList)])])])]

def chatDesk : ChatMachine where
  toMachine := { SameAnswer.desk with disk := fun _ => .toml toolFile }
  daemonAvailable := true
  tokens _ _ := none
  callTool _ _ := "sunny".toList

def chatArgs : ChatArgs where
  model := some SameAnswer.qwen
  backend := "auto".toList
  mode := "cpu".toList
  ctx := 8192
  threads := none
  maxLoadPercent := none
  lora := []
  think := none
  thinkBudget := none
  effort := none
  showReasoning := false
  noShowReasoning := false
  noDaemon := false
  rpc := none
  mcp := []
  maxToolRounds := 8

/-- The session of the desk, with the hub of the server. -/
def chatSession : Session where
  path := SameAnswer.qwen
  ctx := 8192
  history := []
  think := .default
  lastUsage := none
  hub := some ⟨[], fun _ => "sunny".toList⟩
  maxToolRounds := 8

theorem cmdChat_desk :
    cmdChat chatDesk chatArgs = .ok (.daemon none, chatSession) := by
  rfl

/-- A daemon whose model asks for the weather. -/
def weatherAsked : Outside where
  kernelSampler := false
  generate _ _ := .error []
  daemonGenerate _ _ :=
    .ok [.toolCalls [⟨"c1".toList, "w".toList, "{}".toList⟩]]

theorem single_weather : Single weatherAsked := by
  intro round request stream made
  cases made

theorem heeded_desk :
    Heeded .editor weatherAsked (.daemon none) "hi".toList chatSession ↔
      (ServedByDaemon chatDesk chatArgs →
        loadMcpServers chatDesk.files ≠ .ok [] →
          Minded .editor weatherAsked "hi".toList chatSession) :=
  heeded_iff chatDesk chatArgs _ cmdChat_desk _ _
    Relation.ReflTransGen.refl .editor weatherAsked single_weather _

/-- The call of the daemon's model is dropped at the desk. -/
theorem weather_dropped :
    cmdChat chatDesk chatArgs = .ok (.daemon none, chatSession) ∧
      Single weatherAsked ∧
        ¬ Heeded .editor weatherAsked (.daemon none) "hi".toList
          chatSession := by
  refine ⟨cmdChat_desk, single_weather, ?_⟩
  rw [heeded_daemon_iff]
  intro minded
  have hub : chatSession.hub ≠ none := by
    intro absent
    cases absent
  rcases minded hub _ rfl with silent | ⟨failed, -⟩
  · exact List.cons_ne_nil _ _ silent
  · exact failed rfl

end Runa.App.ToolTurns
