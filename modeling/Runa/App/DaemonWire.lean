import Runa.App.DaemonProto

/-!
# The daemon wire

A request that the daemon can serve reaches its engine as it was, the turn
that the client drains from the wire is the turn that the daemon's engine
made, and every request line is answered up to one terminal event.
-/

namespace Runa.App.DaemonWire

open Runa.App.DaemonProto
open Runa.Bytes.Lossy (byte_toNat char_range fromUtf8Lossy_encode)
open Runa.Core.Think
open Runa.Engine.Generate
open Runa.Engine.Requests
open Runa.Engine.Sampling
open Runa.Stream.Lines
open Runa.Stream.Utf8 (Text)

/-! ## Requests -/

/-- A request without media, speculation or the kernel sampler. -/
structure Textual (request : GenerateRequest) : Prop where
  audio : request.audioPcm = none
  images : request.images = []
  speculative : request.speculative = .default
  kernel : request.sampling.kernelSampler = false

@[simp]
theorem toToolCall_ofToolCall (call : ToolCall) :
    (ProtoToolCall.ofToolCall call).toToolCall = call := rfl

@[simp]
theorem toToolCall_ofToolCalls (calls : List ToolCall) :
    (calls.map ProtoToolCall.ofToolCall).map ProtoToolCall.toToolCall =
      calls := by
  rw [List.map_map]
  exact List.map_id calls

@[simp]
theorem toMessage_ofMessage (message : ChatMessage) :
    (ProtoMessage.ofMessage message).toMessage = message := by
  rw [ProtoMessage.toMessage, ProtoMessage.ofMessage,
    toToolCall_ofToolCalls]

theorem toConfig_ofConfig {config : SamplingConfig}
    (chain : config.kernelSampler = false) :
    (ProtoSampling.ofConfig config).toConfig = config := by
  rw [ProtoSampling.toConfig, ProtoSampling.ofConfig, ← chain]

theorem intoMode_fromMode (mode : ThinkMode) :
    (ProtoThinkMode.fromMode mode).intoMode = .ok mode := by
  cases mode with
  | off => rfl
  | on => rfl
  | budget tokens grace => rfl
  | effort value =>
      rw [ProtoThinkMode.fromMode, ProtoThinkMode.intoMode,
        Effort.parse_name]
      rfl

theorem intoConfig_ofConfig (think : ThinkConfig) :
    (ProtoThink.ofConfig think).intoConfig = .ok think := by
  rw [ProtoThink.intoConfig, ProtoThink.ofConfig, intoMode_fromMode]
  rfl

theorem intoGenerate_fromGenerate {request : GenerateRequest}
    (textual : Textual request) :
    (ProtoGenerateRequest.fromGenerate request).intoGenerate =
      .ok request := by
  have messages :
      (request.messages.map ProtoMessage.ofMessage).map
        ProtoMessage.toMessage = request.messages := by
    rw [List.map_map]
    exact (List.map_congr_left fun message _ =>
      toMessage_ofMessage message).trans (List.map_id _)
  rw [ProtoGenerateRequest.intoGenerate, ProtoGenerateRequest.fromGenerate,
    intoConfig_ofConfig, messages, toConfig_ofConfig textual.kernel,
    ← textual.audio, ← textual.images, ← textual.speculative]
  rfl

/-! ## Lines -/

/-- A text from its opening brace to its closing one, without a control
character. -/
structure Framed (line : Text) : Prop where
  braces : ∃ inner, line = '\x7b' :: (inner ++ ['\x7d'])
  visible : ∀ char ∈ line, ' ' ≤ char

/-- The request is printed on a line that reads back as it. -/
def Carries (codec : Codec) (request : DaemonRequest) : Prop :=
  ∃ line, codec.encodeRequest request = .ok line ∧ Framed line ∧
    codec.decodeRequest line = .ok request

/-- The event is printed on a line that reads back as it. -/
def CarriesEvent (codec : Codec) (event : DaemonEvent) : Prop :=
  ∃ line, codec.encodeEvent event = .ok line ∧ Framed line ∧
    codec.decodeEvent line = .ok event

theorem Framed.noFeed {line : Text} (framed : Framed line) :
    '\n' ∉ line := by
  intro member
  exact absurd (framed.visible _ member) (by decide)

theorem Framed.trim_eq {line : Text} (framed : Framed line) :
    trim line = line := by
  obtain ⟨inner, rfl⟩ := framed.braces
  rw [trim_cons (by decide), trimEnd, List.rdropWhile_concat_neg _ _ _
    (by decide)]

theorem Framed.trim_fed {line : Text} (framed : Framed line) :
    trim (line ++ ['\n']) = line := by
  have blank : Blank ['\n'] := List.forall_mem_singleton.mpr rfl
  rw [trim_append_blank line blank, framed.trim_eq]

theorem Framed.popReturns_fed {line : Text} (framed : Framed line) :
    popReturns (line ++ ['\n']) = line := by
  obtain ⟨inner, rfl⟩ := framed.braces
  rw [popReturns, List.rdropWhile_concat_pos _ _ _ (by decide),
    ← List.cons_append, List.rdropWhile_concat_neg _ _ _ (by decide)]

theorem Framed.trim_ne_nil {line : Text} (framed : Framed line) :
    (trim line).isEmpty = false := by
  rw [framed.trim_eq]
  obtain ⟨inner, rfl⟩ := framed.braces
  rfl

/-! ## Bytes -/

theorem textOf_bytesOf (text : Text) : textOf (bytesOf text) = some text := by
  rw [textOf]
  simp only [bytesOf, fromUtf8Lossy_encode, if_true]

theorem bytesOf_append (one other : Text) :
    bytesOf (one ++ other) = bytesOf one ++ bytesOf other :=
  List.flatMap_append

theorem feed_ne_ofNat {n : Nat} (small : n < 256) (apart : n ≠ 10) :
    ¬ 10 = UInt8.ofNat n := by
  intro same
  have value := congrArg UInt8.toNat same
  rw [byte_toNat small] at value
  exact apart value.symm

/-- Every byte of a longer encoding is above those of ASCII. -/
theorem feed_notMem_encodeChar {char : Char} (apart : '\n' ≠ char) :
    10 ∉ String.utf8EncodeChar char := by
  have range := char_range char
  have code : char.val.toNat ≠ 10 := by
    intro same
    apply apart
    rw [← Char.ofNat_toNat char]
    exact congrArg Char.ofNat same.symm
  rw [String.utf8EncodeChar]
  split_ifs with one two three
  · exact List.not_mem_cons_of_ne_of_not_mem
      (feed_ne_ofNat (by omega) code) List.not_mem_nil
  all_goals
    simp only [List.mem_cons, List.not_mem_nil, or_false, not_or]
  · exact ⟨feed_ne_ofNat (by omega) (by omega),
      feed_ne_ofNat (by omega) (by omega)⟩
  · exact ⟨feed_ne_ofNat (by omega) (by omega),
      feed_ne_ofNat (by omega) (by omega),
      feed_ne_ofNat (by omega) (by omega)⟩
  · exact ⟨feed_ne_ofNat (by omega) (by omega),
      feed_ne_ofNat (by omega) (by omega),
      feed_ne_ofNat (by omega) (by omega),
      feed_ne_ofNat (by omega) (by omega)⟩

/-- Only a line feed has its byte. -/
theorem feed_notMem_bytesOf {text : Text} (one : '\n' ∉ text) :
    10 ∉ bytesOf text := by
  intro member
  obtain ⟨char, within, feed⟩ := List.mem_flatMap.mp member
  exact feed_notMem_encodeChar (fun same => one (same ▸ within)) feed

theorem rawLines_append {front : List UInt8} (one : 10 ∉ front)
    (line rest : List UInt8) :
    rawLines line (front ++ 10 :: rest) =
      (line ++ front ++ [10]) :: rawLines [] rest := by
  induction front generalizing line with
  | nil =>
      rw [List.nil_append, List.append_nil, rawLines, if_pos rfl]
  | cons byte later ih =>
      obtain ⟨here, there⟩ := List.ne_and_not_mem_of_not_mem_cons one
      rw [List.cons_append, rawLines, if_neg (Ne.symm here), ih there,
        List.append_assoc line, List.singleton_append]

/-- Lines that are written are the lines that are read. -/
theorem readLines_written {lines : List Text}
    (one : ∀ line ∈ lines, '\n' ∉ line) :
    readLines (lines.flatMap lineBytes) =
      lines.map fun line => some (line ++ ['\n']) := by
  induction lines with
  | nil => rfl
  | cons line later ih =>
      obtain ⟨here, there⟩ := List.forall_mem_cons.mp one
      have bytes : lineBytes line = bytesOf line ++ [10] := by
        rw [lineBytes, bytesOf_append]
        rfl
      rw [List.flatMap_cons, readLines, bytes, List.append_assoc,
        List.singleton_append, rawLines_append (feed_notMem_bytesOf here),
        List.nil_append, ← bytes, List.map_cons, List.map_cons]
      congr 1
      · exact textOf_bytesOf _
      · exact ih there

/-! ## Answers -/

/-- The last event is terminal, and no other. -/
def Closed (events : List DaemonEvent) : Prop :=
  ∃ front last, events = front ++ [last] ∧ last.isTerminal = true ∧
    ∀ event ∈ front, event.isTerminal = false

theorem Closed.cons {events : List DaemonEvent} (closed : Closed events)
    {event : DaemonEvent} (open' : event.isTerminal = false) :
    Closed (event :: events) := by
  obtain ⟨front, last, rfl, terminal, others⟩ := closed
  exact ⟨event :: front, last, rfl, terminal,
    List.forall_mem_cons.mpr ⟨open', others⟩⟩

theorem closed_singleton {event : DaemonEvent}
    (terminal : event.isTerminal = true) : Closed [event] :=
  ⟨[], event, rfl, terminal, List.forall_mem_nil _⟩

/-- The events up to the first terminal one. -/
def upToTerminal : List DaemonEvent → List DaemonEvent
  | [] => []
  | event :: later =>
    if event.isTerminal then [event] else event :: upToTerminal later

theorem upToTerminal_begins (events : List DaemonEvent) :
    upToTerminal events <+: events := by
  induction events with
  | nil => exact List.prefix_rfl
  | cons event later ih =>
      rw [upToTerminal]
      split
      · exact List.prefix_append [event] later
      · exact (List.prefix_cons_inj event).mpr ih

theorem closed_upToTerminal {events : List DaemonEvent}
    (ends : events.any DaemonEvent.isTerminal = true) :
    Closed (upToTerminal events) := by
  induction events with
  | nil => cases ends
  | cons event later ih =>
      rw [upToTerminal]
      cases terminal : event.isTerminal with
      | true => exact closed_singleton terminal
      | false =>
          rw [List.any_cons, terminal, Bool.false_or] at ends
          exact (ih ends).cons terminal

/-- What is written for some events is what they are printed as, up to the
first terminal one. -/
theorem writeEvents_eq {codec : Codec} {events : List DaemonEvent}
    (encodes : ∀ event ∈ events,
      ∃ line, codec.encodeEvent event = .ok line) :
    ∃ lines, writeEvents codec events = (lines, none) ∧
      (upToTerminal events).mapM codec.encodeEvent = .ok lines := by
  induction events with
  | nil => exact ⟨[], rfl, rfl⟩
  | cons event later ih =>
      obtain ⟨⟨line, here⟩, there⟩ := List.forall_mem_cons.mp encodes
      obtain ⟨lines, written, printed⟩ := ih there
      rw [writeEvents, here, upToTerminal]
      cases terminal : event.isTerminal with
      | true =>
          use [line], rfl
          simp only [if_true, List.mapM_cons, List.mapM_nil, here]
          rfl
      | false =>
          use line :: lines
          simp only [written, Bool.false_eq_true, if_false, true_and,
            List.mapM_cons, here, printed]
          rfl

section

variable {State : Type} {codec : Codec} {daemon : Daemon State}

/-- Every request is answered with a terminal event. -/
theorem serveRequest_ends (state : State) (line : Text) :
    (serveRequest codec daemon state line).1.any DaemonEvent.isTerminal =
      true := by
  rw [serveRequest]
  cases codec.decodeRequest line with
  | error error => rfl
  | ok request =>
      dsimp only
      split
      · rfl
      · cases request.request.intoGenerate with
        | error error => rfl
        | ok generate =>
            dsimp only
            split
            · rfl
            · split
              · rw [served]
                split
                · next ends => exact ends
                · rw [List.any_append]
                  exact Bool.or_true _
              · rfl

/-- The lines of a connection up to one that is no UTF-8. -/
def readable : List (Option Text) → List Text
  | [] => []
  | none :: _ => []
  | some raw :: later => popReturns raw :: readable later

/-- The request lines of what a client sends. -/
def requestLines (lines : List (Option Text)) : List Text :=
  (readable lines).filter fun line => !(trim line).isEmpty

/-- An answer to a request line. -/
structure AnswerTo (codec : Codec) (daemon : Daemon State) (line : Text)
    (answer : List DaemonEvent) : Prop where
  closed : Closed answer
  begins : ∃ state, answer <+: (serveRequest codec daemon state line).1

theorem serveLines_answers
    (encodes : ∀ event, ∃ line, codec.encodeEvent event = .ok line)
    (lines : List (Option Text)) (state : State) :
    ∃ answers,
      List.Forall₂ (AnswerTo codec daemon) (requestLines lines) answers ∧
        answers.flatten.mapM codec.encodeEvent =
          .ok (serveLines codec daemon state lines).1 := by
  induction lines generalizing state with
  | nil => exact ⟨[], .nil, rfl⟩
  | cons raw later ih =>
      cases raw with
      | none => exact ⟨[], .nil, rfl⟩
      | some raw =>
          rw [requestLines, readable, List.filter_cons, serveLines]
          cases blank : (trim (popReturns raw)).isEmpty with
          | true => exact ih state
          | false =>
              have ends :
                  (serveRequest codec daemon state
                    (popReturns raw)).1.any DaemonEvent.isTerminal =
                      true :=
                serveRequest_ends state (popReturns raw)
              obtain ⟨written, wrote, printed⟩ :=
                writeEvents_eq fun event
                  (_ : event ∈
                    (serveRequest codec daemon state
                      (popReturns raw)).1) => encodes event
              obtain ⟨answers, each, rest⟩ :=
                ih (serveRequest codec daemon state (popReturns raw)).2
              refine ⟨_ :: answers,
                .cons ⟨closed_upToTerminal ends, state,
                  upToTerminal_begins _⟩ each, ?_⟩
              simp only [Bool.false_eq_true, if_false, wrote]
              rw [List.flatten_cons, List.mapM_append, printed, rest]
              rfl

end

/-! ## Turns -/

/-- What is written for a closed answer is read back as it. -/
theorem collect_written {codec : Codec} {events : List DaemonEvent}
    (closed : Closed events)
    (carried : ∀ event ∈ events, CarriesEvent codec event) :
    ∃ lines, writeEvents codec events = (lines, none) ∧
      collect codec (readLines (lines.flatMap lineBytes)) = .ok events := by
  obtain ⟨front, last, rfl, terminal, others⟩ := closed
  have framed : ∃ lines,
      writeEvents codec (front ++ [last]) = (lines, none) ∧
        (∀ line ∈ lines, '\n' ∉ line) ∧
          collect codec (lines.map fun line => some (line ++ ['\n'])) =
            .ok (front ++ [last]) := by
    induction front with
    | nil =>
        obtain ⟨line, printed, framed, back⟩ :=
          carried last List.mem_cons_self
        use [line]
        rw [List.nil_append, writeEvents, printed]
        simp only [terminal, if_true, true_and, List.forall_mem_singleton]
        use framed.noFeed
        rw [List.map_singleton, collect, framed.trim_fed, back]
        simp only [terminal, if_true]
    | cons event later ih =>
        obtain ⟨here, there⟩ := List.forall_mem_cons.mp others
        obtain ⟨first, rest⟩ := List.forall_mem_cons.mp carried
        obtain ⟨line, printed, framed, back⟩ := first
        obtain ⟨lines, written, single, read⟩ := ih rest there
        use line :: lines
        rw [List.cons_append, writeEvents, printed]
        simp only [here, Bool.false_eq_true, if_false, written, true_and]
        use List.forall_mem_cons.mpr ⟨framed.noFeed, single⟩
        rw [List.map_cons, collect, framed.trim_fed, back]
        simp only [here, Bool.false_eq_true, if_false, read]
        rfl
  obtain ⟨lines, written, single, read⟩ := framed
  use lines, written
  rw [readLines_written single]
  exact read

/-- One generation: it stops once, at its end. -/
structure Finished (events : List GenEvent) : Prop where
  ends : ∃ front reason, events = front ++ [.done reason] ∧
    ∀ other, .done other ∉ front
  calls : events.Pairwise fun earlier later =>
    ∀ calls, earlier = .toolCalls calls → later = .toolCalls [] →
      calls = []

theorem isTerminal_fromGenEvent {event : GenEvent} {sent : DaemonEvent}
    (mapped : DaemonEvent.fromGenEvent event = some sent)
    (open' : ∀ reason, event ≠ .done reason) :
    sent.isTerminal = false := by
  cases event with
  | done reason => exact absurd rfl (open' reason)
  | usage counted =>
      cases mapped
      rfl
  | text body =>
      rw [DaemonEvent.fromGenEvent] at mapped
      split at mapped
      · cases mapped
      · cases mapped
        rfl
  | reasoning body =>
      rw [DaemonEvent.fromGenEvent] at mapped
      split at mapped
      · cases mapped
      · cases mapped
        rfl
  | toolCalls calls =>
      rw [DaemonEvent.fromGenEvent] at mapped
      split at mapped
      · cases mapped
      · cases mapped
        rfl

/-- The events of a finished generation make a closed answer. -/
theorem Finished.closed {events : List GenEvent}
    (finished : Finished events) :
    Closed (events.filterMap DaemonEvent.fromGenEvent) := by
  obtain ⟨front, reason, rfl, others⟩ := finished.ends
  rw [List.filterMap_append]
  refine ⟨_, .done (stopName reason), rfl, rfl, ?_⟩
  intro sent member
  obtain ⟨event, within, mapped⟩ := List.mem_filterMap.mp member
  apply isTerminal_fromGenEvent mapped
  intro other same
  exact others other (same ▸ within)

theorem Finished.served {events : List GenEvent}
    (finished : Finished events) :
    served events = events.filterMap DaemonEvent.fromGenEvent := by
  obtain ⟨front, last, closed, terminal, -⟩ := finished.closed
  rw [DaemonProto.served, closed, List.any_append, List.any_cons, terminal,
    Bool.true_or, Bool.or_true]
  rfl

theorem parseStop_stopName (reason : StopReason) :
    parseStop (stopName reason) = reason := by
  cases reason with
  | eos => decide +kernel
  | maxTokens => decide +kernel
  | stopString matched => rfl

/-- An event on the wire does to the turn what the event itself does; only
an empty call list is lost, which matters where there are calls. -/
theorem receive_fromGenEvent (turn : LocalTurn) (event : GenEvent)
    (calls : event = .toolCalls [] → turn.calls = []) :
    (DaemonEvent.fromGenEvent event).toList.foldlM LocalTurn.receive turn =
      Except.ok (turn.take event) := by
  cases event with
  | text body =>
      cases body with
      | nil => simp [DaemonEvent.fromGenEvent, LocalTurn.take]; rfl
      | cons char rest => rfl
  | reasoning body =>
      cases body with
      | nil => rfl
      | cons char rest => rfl
  | toolCalls list =>
      cases list with
      | nil =>
          have same : turn.take (.toolCalls []) = turn := by
            rw [LocalTurn.take, ← calls rfl]
          rw [same]
          rfl
      | cons call more =>
          have back := toToolCall_ofToolCalls (call :: more)
          show Except.ok
            { turn with
              calls := ((call :: more).map ProtoToolCall.ofToolCall).map
                ProtoToolCall.toToolCall } = _
          rw [back]
          rfl
  | usage counted => rfl
  | done reason =>
      show Except.ok { turn with reason := parseStop (stopName reason) } = _
      rw [parseStop_stopName]
      rfl

/-- The empty call list does not come behind calls. -/
theorem calls_take {turn : LocalTurn} {event : GenEvent}
    {later : List GenEvent}
    (before : turn.calls ≠ [] → .toolCalls [] ∉ event :: later)
    (calls : ∀ other ∈ later, ∀ calls, event = .toolCalls calls →
      other = .toolCalls [] → calls = [])
    (some : (turn.take event).calls ≠ []) : .toolCalls [] ∉ later := by
  intro member
  cases event with
  | toolCalls list => exact some (calls _ member list rfl rfl)
  | text body => exact before some (List.mem_cons_of_mem _ member)
  | reasoning body => exact before some (List.mem_cons_of_mem _ member)
  | usage counted => exact before some (List.mem_cons_of_mem _ member)
  | done reason => exact before some (List.mem_cons_of_mem _ member)

theorem foldlM_receive {events : List GenEvent} (turn : LocalTurn)
    (before : turn.calls ≠ [] → .toolCalls [] ∉ events)
    (calls : events.Pairwise fun earlier later =>
      ∀ calls, earlier = .toolCalls calls → later = .toolCalls [] →
        calls = []) :
    (events.filterMap DaemonEvent.fromGenEvent).foldlM LocalTurn.receive
        turn =
      .ok (events.foldl LocalTurn.take turn) := by
  induction events generalizing turn with
  | nil => rfl
  | cons event later ih =>
      obtain ⟨here, there⟩ := List.pairwise_cons.mp calls
      have step := receive_fromGenEvent turn event fun empty => by
        by_contra some
        exact before some (empty ▸ List.mem_cons_self)
      have rest := ih (turn.take event) (calls_take before here) there
      have split :
          (event :: later).filterMap DaemonEvent.fromGenEvent =
            (DaemonEvent.fromGenEvent event).toList ++
              later.filterMap DaemonEvent.fromGenEvent := by
        rw [List.filterMap_cons]
        cases DaemonEvent.fromGenEvent event with
        | none => rfl
        | some sent => rfl
      rw [split, List.foldlM_append, step]
      exact rest

theorem drainLocal_ok (events : List GenEvent) :
    drainLocal (events.map .ok) =
      .ok (events.foldl LocalTurn.take .empty) := by
  rw [drainLocal]
  generalize LocalTurn.empty = turn
  induction events generalizing turn with
  | nil => rfl
  | cons event later ih => exact ih (turn.take event)

/-- A finished generation is drained alike on both ends. -/
theorem Finished.drained {events : List GenEvent}
    (finished : Finished events) :
    drainDaemon (events.filterMap DaemonEvent.fromGenEvent) =
      drainLocal (events.map .ok) := by
  rw [drainLocal_ok, drainDaemon]
  exact foldlM_receive .empty (fun some => absurd rfl some) finished.calls

/-! ## The wire -/

section

variable {State : Type} {codec : Codec} {daemon : Daemon State}
  {model id : Text} {request : GenerateRequest} {state next last : State}
  {events : List GenEvent}

/-- What the daemon sends back for one request of a client. -/
def connection (codec : Codec) (daemon : Daemon State) (state : State)
    (sent : List UInt8) : List UInt8 :=
  (serveConn codec daemon state sent).1

theorem serveRequest_eq {line : Text}
    (decoded : codec.decodeRequest line = .ok (.new model request))
    (textual : Textual request)
    (resolved : daemon.resolveOrInsert (daemon.touched state) model =
      (.ok id, next))
    (generated : daemon.generate next id request = (.ok events, last)) :
    serveRequest codec daemon state line = (served events, last) := by
  have back := intoGenerate_fromGenerate textual
  simp only [serveRequest, decoded, DaemonRequest.new, ne_eq,
    not_true_eq_false, if_false, back, resolved, generated]

/-- The client reads what the daemon sends for its request. -/
theorem requestSync_eq (carries : Carries codec (.new model request))
    (textual : Textual request)
    (resolved : daemon.resolveOrInsert (daemon.touched state) model =
      (.ok id, next))
    (generated : daemon.generate next id request = (.ok events, last))
    (closed : Closed (served events))
    (carried : ∀ event ∈ served events, CarriesEvent codec event) :
    requestSync codec (connection codec daemon state) (.new model request) =
      .ok (served events) := by
  obtain ⟨line, printed, framed, decoded⟩ := carries
  obtain ⟨lines, written, read⟩ := collect_written closed carried
  have sent : readLines (lineBytes line) = [some (line ++ ['\n'])] := by
    have one := readLines_written
      (List.forall_mem_singleton.mpr framed.noFeed)
    rw [List.flatMap_singleton, List.map_singleton] at one
    exact one
  rw [requestSync, printed]
  simp only [connection, serveConn, sent, serveLines, framed.popReturns_fed,
    framed.trim_ne_nil, Bool.false_eq_true, if_false,
    serveRequest_eq decoded textual resolved generated, written,
    List.append_nil]
  exact read

end

/-- What is said of the wire. -/
structure WireKeeps (codec : Codec) : Prop where
  /-- A request that the daemon can serve is decoded as it was. -/
  requests : ∀ model request, Textual request →
    Carries codec (.new model request) →
      ∃ line decoded,
        codec.encodeRequest (.new model request) = .ok line ∧
          requestLines (readLines (lineBytes line)) = [line] ∧
            codec.decodeRequest line = .ok decoded ∧
              decoded.request.intoGenerate = .ok request
  /-- The client drains the turn that the events of the engine make. -/
  turns : ∀ (State : Type) (daemon : Daemon State) state next last model id
      request events,
    Textual request → Carries codec (.new model request) →
      daemon.resolveOrInsert (daemon.touched state) model =
          (.ok id, next) →
        daemon.generate next id request = (.ok events, last) →
          Finished events →
            (∀ event ∈ events.filterMap DaemonEvent.fromGenEvent,
              CarriesEvent codec event) →
              (requestSync codec (connection codec daemon state)
                  (.new model request)).bind drainDaemon =
                drainLocal (events.map .ok)
  /-- Every request line is answered, and the last event of an answer is the
  only terminal one. -/
  answers : ∀ (State : Type) (daemon : Daemon State) state sent,
    ∃ answers written,
      List.Forall₂ (AnswerTo codec daemon) (requestLines (readLines sent))
          answers ∧
        answers.flatten.mapM codec.encodeEvent = .ok written ∧
          connection codec daemon state sent = written.flatMap lineBytes

theorem wireKeeps {codec : Codec}
    (encodes : ∀ event, ∃ line, codec.encodeEvent event = .ok line) :
    WireKeeps codec := by
  constructor
  · intro model request textual carries
    obtain ⟨line, printed, framed, decoded⟩ := carries
    refine ⟨line, _, printed, ?_, decoded,
      intoGenerate_fromGenerate textual⟩
    have one := readLines_written
      (List.forall_mem_singleton.mpr framed.noFeed)
    rw [List.flatMap_singleton, List.map_singleton] at one
    rw [one, requestLines, readable, readable, framed.popReturns_fed,
      List.filter_cons, framed.trim_ne_nil]
    rfl
  · intro State daemon state next last model id request events textual
      carries resolved generated finished carried
    have closed := finished.closed
    rw [← finished.served] at closed carried
    rw [requestSync_eq carries textual resolved generated closed carried,
      finished.served]
    exact finished.drained
  · intro State daemon state sent
    obtain ⟨answers, each, printed⟩ :=
      serveLines_answers encodes (readLines sent) state
    exact ⟨answers, _, each, printed, rfl⟩

/-! ## A short exchange -/

def helloRequest : GenerateRequest :=
  { GenerateRequest.default false with messages := [.user "hi".toList] }

def helloLine : Text :=
  ("\x7b\"v\":1,\"model\":\"qwen\",\"request\":\x7b\"messages\":[" ++
    "\x7b\"role\":\"user\",\"content\":\"hi\",\"tool_calls\":[]," ++
    "\"tool_call_id\":null\x7d],\"sampling\":\x7b\"temperature\":0.8," ++
    "\"top_k\":40,\"top_p\":0.95,\"min_p\":0.05," ++
    "\"repeat_penalty\":1.0,\"repeat_last_n\":64,\"seed\":42\x7d," ++
    "\"max_tokens\":512,\"stop\":[],\"add_generation_prompt\":true," ++
    "\"think\":\x7b\"mode\":\x7b\"kind\":\"off\"\x7d,\"show\":false\x7d," ++
    "\"json_schema\":null,\"grammar\":null,\"tools\":null," ++
    "\"tool_choice\":null\x7d\x7d").toList

def clockCall : ToolCall where
  id := "t1".toList
  name := "clock".toList
  arguments := "\x7b\x7d".toList

/-- The events of the exchange, with their lines. -/
def eventLines : List (DaemonEvent × Text) :=
  [(.text "hello".toList,
      "\x7b\"type\":\"text\",\"text\":\"hello\"\x7d".toList),
    (.toolCalls [.ofToolCall clockCall],
      ("\x7b\"type\":\"tool_calls\",\"calls\":[\x7b\"id\":\"t1\"," ++
        "\"name\":\"clock\",\"arguments\":\"\x7b\x7d\"\x7d]\x7d").toList),
    (.done "eos".toList,
      "\x7b\"type\":\"done\",\"stop\":\"eos\"\x7d".toList)]

/-- `serde_json` on the lines of the exchange. -/
def helloCodec : Codec where
  encodeRequest request :=
    if request = .new "qwen".toList helloRequest then .ok helloLine
    else .error "another request".toList
  decodeRequest line :=
    if line = helloLine then .ok (.new "qwen".toList helloRequest)
    else .error "another line".toList
  encodeEvent event :=
    match eventLines.find? fun entry => entry.1 = event with
    | some entry => .ok entry.2
    | none => .ok "null".toList
  decodeEvent line :=
    match eventLines.find? fun entry => entry.2 = line with
    | some entry => .ok entry.1
    | none => .error "another line".toList

/-- A daemon with one model, which always answers alike. -/
def fixedDaemon (events : List GenEvent) : Daemon Unit where
  touched := id
  resolveOrInsert _ model := (.ok model, ())
  generate _ _ _ := (.ok events, ())

theorem helloCodec_encodes (event : DaemonEvent) :
    ∃ line, helloCodec.encodeEvent event = .ok line := by
  rw [helloCodec]
  dsimp only
  split
  · exact ⟨_, rfl⟩
  · exact ⟨_, rfl⟩

theorem framed_of_all {line : Text}
    (braces : line = '\x7b' :: (line.tail.dropLast ++ ['\x7d']))
    (visible : line.all (' ' ≤ ·) = true) : Framed line := by
  constructor
  · exact ⟨_, braces⟩
  · intro char member
    exact of_decide_eq_true (List.all_eq_true.mp visible char member)

theorem helloLine_framed : Framed helloLine := by
  unfold helloLine
  simp only [String.toList_append]
  simp only [String.reduceToList]
  exact framed_of_all (by decide +kernel) (by decide +kernel)

theorem helloCodec_carries :
    Carries helloCodec (.new "qwen".toList helloRequest) := by
  use helloLine
  constructor
  · simp only [helloCodec, if_true]
  constructor
  · exact helloLine_framed
  · simp only [helloCodec, if_true]

theorem helloCodec_carriesEvent {entry : DaemonEvent × Text}
    (member : entry ∈ eventLines) : CarriesEvent helloCodec entry.1 := by
  use entry.2
  simp only [eventLines, List.mem_cons, List.not_mem_nil, or_false]
    at member
  rcases member with rfl | rfl | rfl
  all_goals
    exact ⟨by decide +kernel,
      framed_of_all (by decide +kernel) (by decide +kernel),
      by decide +kernel⟩

theorem textual_hello : Textual helloRequest :=
  ⟨rfl, rfl, rfl, rfl⟩

theorem finished_hello :
    Finished [.text "hello".toList, .text [], .done .eos] := by
  constructor
  · refine ⟨[.text "hello".toList, .text []], .eos, rfl, ?_⟩
    intro other member
    simp at member
  · simp

/-- A greeting is drained from the wire, with the empty piece dropped. -/
theorem wireKeeps_hello :
    (requestSync helloCodec
        (connection helloCodec
          (fixedDaemon [.text "hello".toList, .text [], .done .eos]) ())
        (.new "qwen".toList helloRequest)).bind drainDaemon =
      drainLocal
        ([.text "hello".toList, .text [], .done .eos].map .ok) := by
  apply (wireKeeps helloCodec_encodes).turns Unit _ () () () "qwen".toList
    "qwen".toList helloRequest _ textual_hello helloCodec_carries rfl rfl
    finished_hello
  have mapped :
      ([.text "hello".toList, .text [], .done .eos] :
          List GenEvent).filterMap DaemonEvent.fromGenEvent =
        [.text "hello".toList, .done "eos".toList] := by
    decide +kernel
  rw [mapped]
  intro event member
  rcases List.mem_pair.mp member with rfl | rfl
  · exact helloCodec_carriesEvent List.mem_cons_self
  · exact helloCodec_carriesEvent
      (List.mem_cons_of_mem _
        (List.mem_cons_of_mem _ List.mem_cons_self))

/-- An empty call list behind calls takes them back in a local turn, and is
dropped on the wire; a line that is no UTF-8 is not answered. -/
theorem wire_drops :
    (requestSync helloCodec
        (connection helloCodec
          (fixedDaemon [.toolCalls [clockCall], .toolCalls [], .done .eos])
          ())
        (.new "qwen".toList helloRequest)).bind drainDaemon ≠
      drainLocal
        ([.toolCalls [clockCall], .toolCalls [], .done .eos].map .ok) ∧
    serveConn helloCodec (fixedDaemon []) () [0xFF, 10] =
      ([], some "stream did not contain valid UTF-8".toList) := by
  have answered :
      served [.toolCalls [clockCall], .toolCalls [], .done .eos] =
        [.toolCalls [.ofToolCall clockCall], .done "eos".toList] := by
    decide +kernel
  have exchanged :
      requestSync helloCodec
          (connection helloCodec
            (fixedDaemon
              [.toolCalls [clockCall], .toolCalls [], .done .eos]) ())
          (.new "qwen".toList helloRequest) =
        .ok (served
          [.toolCalls [clockCall], .toolCalls [], .done .eos]) := by
    apply requestSync_eq helloCodec_carries textual_hello rfl rfl
    · rw [answered]
      exact (closed_singleton rfl).cons rfl
    · rw [answered]
      intro event member
      rcases List.mem_pair.mp member with rfl | rfl
      · exact helloCodec_carriesEvent
          (List.mem_cons_of_mem _ List.mem_cons_self)
      · exact helloCodec_carriesEvent
          (List.mem_cons_of_mem _
            (List.mem_cons_of_mem _ List.mem_cons_self))
  constructor
  · rw [exchanged, answered]
    decide +kernel
  · decide +kernel

end Runa.App.DaemonWire
