import Runa.App.Commands
import Runa.App.FailedTurns
import Runa.App.ToolTurns

/-!
# One session at either front end

What is typed makes the same session of the line editor and of the full
screen, up to the first command that is refused: it ends the editor, and on
the screen it is shown and changes nothing (`one_session`).  While a session
goes on, its engine is the one of its path, and who serves it stays the same
(`session_coherent`).
-/

namespace Runa.App.OneSession

open Runa.App.Chat
open Runa.App.ChatSetup
open Runa.App.Commands
open Runa.App.FailedTurns
open Runa.App.Loading
open Runa.App.Pool (BackendKind Path)
open Runa.App.RunPaths (refuse)
open Runa.App.SameAnswer
open Runa.App.ToolTurns
open Runa.Core.Think
open Runa.Engine.Generate
open Runa.Engine.Placements
open Runa.Engine.Requests
open Runa.Fallible.Steps
open Runa.Stream.Lines
open Runa.Stream.Utf8
open Runa.Stream.Words

variable {around : Around} {chat : Chatting} {input : Text}

/-! ## One input -/

/-- The screen shows an error, and the session is what it was. -/
def refusal (chat : Chatting) (error : Text) : Done :=
  ⟨chat, [error], .ok false⟩

/-- The editor and the screen do the same, or the screen refuses what the
editor fails at. -/
inductive Matches (chat : Chatting) : Done → Done → Prop
  | same {editor screen : Done} (chats : editor.chat = screen.chat)
      (results : editor.result = screen.result) : Matches chat editor screen
  | refused {editor : Done} {error : Text} (kept : editor.chat = chat)
      (fails : editor.result = .error error) :
      Matches chat editor (refusal chat error)

theorem Matches.refl (chat : Chatting) (done : Done) :
    Matches chat done done :=
  .same rfl rfl

/-- It does not matter what is shown with a reload. -/
theorem reloaded_matches (start chat : Chatting)
    (fresh : Except Text ChatEngine) (before behind note : List Text) :
    Matches start (reloaded chat fresh before behind)
      (reloaded chat fresh before note) := by
  cases fresh with
  | error error => exact .refl _ _
  | ok engine => exact .same rfl rfl

theorem mode_matches (around : Around) (chat : Chatting) (raw : Text) :
    Matches chat (commandMode around chat raw)
      (screenMode around chat raw) := by
  rw [commandMode, screenMode]
  cases chat.engine with
  | managed engine =>
      cases engine with
      | mistral =>
          cases readMode raw with
          | error error => exact .same rfl rfl
          | ok mode => exact .same rfl rfl
      | gguf tokens =>
          cases readMode raw with
          | error error => exact .refused rfl rfl
          | ok mode => exact reloaded_matches _ _ _ _ _ _
  | daemon loaded =>
      cases readMode raw with
      | error error => exact .refused rfl rfl
      | ok mode =>
          cases loaded with
          | none => exact .same rfl rfl
          | some tokens => exact reloaded_matches _ _ _ _ _ _

theorem model_matches (around : Around) (chat : Chatting) (raw : Text) :
    Matches chat (commandModel around chat raw)
      (screenModel around chat raw) := by
  rw [commandModel, screenModel]
  cases around.machine.resolveModel raw with
  | error error => exact .refused rfl rfl
  | ok path =>
      cases chat.engine with
      | managed engine => exact reloaded_matches _ _ _ _ _ _
      | daemon loaded =>
          cases loaded with
          | none => exact .same rfl rfl
          | some tokens => exact reloaded_matches _ _ _ _ _ _

theorem think_matches (around : Around) (chat : Chatting) (rest : Text) :
    Matches chat (commandThink around chat rest)
      (screenThink around chat rest) := by
  rw [commandThink, screenThink]
  split
  · exact .refl _ _
  · cases rethink around chat rest with
    | error error => exact .refused rfl rfl
    | ok think => exact .refl _ _

/-- A command is taken for the same by both. -/
theorem command_matches {command : SlashCmd}
    (parsed : parseSlash input = some command) :
    Matches chat (chatCommand around chat input)
      (executeTuiSlash around chat command) := by
  unfold parseSlash at parsed
  split at parsed
  · cases parsed
  · rw [Option.some.injEq] at parsed
    rw [← parsed, chatCommand]
    split_ifs
    · exact .refl _ _
    · exact .same rfl rfl
    · cases (splitWhitespace (input.drop 1)).tail with
      | nil => exact .refused rfl rfl
      | cons raw rest => exact mode_matches _ _ _
    · cases (splitWhitespace (input.drop 1)).tail with
      | nil => exact .refused rfl rfl
      | cons raw rest => exact model_matches _ _ _
    · exact think_matches _ _ _
    · exact .refl _ _
    · exact .refl _ _
    · exact .refl _ _

theorem trim_eq_nil_iff {text : Text} : trim text = [] ↔ Blank text := by
  rw [trim, trimEnd, trimStart, List.rdropWhile_eq_nil_iff]
  constructor
  · intro behind char member
    rw [← List.takeWhile_append_dropWhile (p := isWhitespace) (l := text)]
      at member
    rcases List.mem_append.mp member with front | back
    · exact List.mem_takeWhile_imp front
    · exact behind char back
  · intro blank char member
    exact blank char ((List.dropWhile_sublist _).subset member)

theorem blank_joined_iff {parts : List Text} :
    Blank (joined '\n' parts) ↔ ∀ part ∈ parts, Blank part := by
  induction parts with
  | nil => exact iff_of_true (fun _ none => by cases none) (by simp)
  | cons part rest induction =>
      cases rest with
      | nil => simp [Blank]
      | cons next later =>
          rw [joined_cons_cons, List.forall_mem_cons, ← induction]
          have between : isWhitespace '\n' = true := rfl
          simp only [Blank, List.mem_append, List.mem_cons, or_imp,
            forall_and, forall_eq, between, true_and]

/-- A text of blank lines is blank. -/
theorem isInputEmpty_iff : isInputEmpty input = true ↔ trim input = [] := by
  have whole : joined '\n' (input.splitOn '\n') = input :=
    List.intercalate_splitOn '\n'
  rw [trim_eq_nil_iff, isInputEmpty, List.all_eq_true]
  conv_rhs => rw [← whole, blank_joined_iff]
  simp only [List.isEmpty_iff, trim_eq_nil_iff]

/-- A turn leaves the same session at either front end. -/
def SameTurn (around : Around) (chat : Chatting) (input : Text) : Prop :=
  (chatTurn around.outside chat.engine input chat.session).1 =
    (tuiTurn around.outside chat.engine input chat.session).1

/-- An input is taken for the same by both, if a turn is. -/
theorem input_matches
    (turn : input.head? ≠ some '/' → SameTurn around chat input) :
    Matches chat (editorInput around chat input)
      (screenInput around chat input) := by
  rw [editorInput, screenInput]
  by_cases blank : trim input = []
  · rw [if_pos blank, if_pos (isInputEmpty_iff.mpr blank)]
    exact .refl _ _
  · rw [if_neg blank, if_neg (isInputEmpty_iff.not.mpr blank)]
    by_cases slash : input.head? = some '/'
    · rw [if_pos slash]
      cases parsed : parseSlash input with
      | none =>
          rw [parseSlash, if_neg (not_not.mpr slash)] at parsed
          cases parsed
      | some command => exact command_matches parsed
    · rw [if_neg slash]
      have none : parseSlash input = none := if_pos slash
      rw [none]
      have left := turn slash
      rw [SameTurn] at left
      refine .same ?_ rfl
      dsimp only
      rw [left]

/-! ## What is typed -/

/-- The lines of a text as the editor has them typed. -/
def continued : List Text → List Text
  | [] => []
  | [line] => [line]
  | line :: next :: lines => (line ++ ['\\']) :: continued (next :: lines)

/-- The same input at the editor, line by line. -/
def typed (entry : Around × Text) : List (Around × Text) :=
  (continued (entry.2.splitOn '\n')).map fun line => (entry.1, line)

theorem editorLoop_continued (around : Around)
    (rest : List (Around × Text)) (chat : Chatting) {lines : List Text}
    (some : lines ≠ [])
    (last : (joined '\n' lines).getLast? ≠ Option.some '\\')
    (pending : Text) :
    editorLoop
        ((continued lines).map (fun line => (around, line)) ++ rest)
        pending chat =
      (editorInput around chat (pending ++ joined '\n' lines)).next
        (editorLoop rest []) := by
  induction lines generalizing pending with
  | nil => exact absurd rfl some
  | cons line lines induction =>
      cases lines with
      | nil =>
          rw [joined_singleton] at last ⊢
          rw [continued, List.map_singleton, List.singleton_append,
            editorLoop, if_neg last]
      | cons next later =>
          have more := List.cons_ne_nil next later
          have ends : (joined '\n' (next :: later)).getLast? ≠
              Option.some '\\' := by
            intro bad
            rw [joined_cons_cons, List.getLast?_append,
              List.getLast?_cons, bad] at last
            exact last rfl
          rw [continued, List.map_cons, List.cons_append, editorLoop,
            if_pos (by simp), List.dropLast_concat,
            induction more ends, joined_cons_cons]
          simp

/-- A text that is typed line by line is taken as a whole. -/
theorem editorLoop_typed {entry : Around × Text}
    (last : entry.2.getLast? ≠ some '\\') (rest : List (Around × Text))
    (chat : Chatting) :
    editorLoop (typed entry ++ rest) [] chat =
      (editorInput entry.1 chat entry.2).next (editorLoop rest []) := by
  have whole : joined '\n' (entry.2.splitOn '\n') = entry.2 :=
    List.intercalate_splitOn '\n'
  have lines : entry.2.splitOn '\n' ≠ [] := List.splitOn_ne_nil _ _
  rw [← whole] at last
  rw [typed, editorLoop_continued entry.1 rest chat lines last,
    List.nil_append, whole]

/-! ## Whole sessions -/

/-- The turns of a session on the screen would be the same at the editor. -/
def SameTurns : List (Around × Text) → Chatting → Prop
  | [], _ => True
  | (around, input) :: inputs, chat =>
    (input.head? ≠ some '/' → SameTurn around chat input) ∧
      SameTurns inputs (screenInput around chat input).chat

/-- The editor stopped at an input that the screen only refuses. -/
def StoppedAt (editor : Outcome) (inputs : List (Around × Text))
    (chat : Chatting) : Prop :=
  ∃ front around input back error,
    inputs = front ++ (around, input) :: back ∧
      editor.ending = .failed error ∧
      (screenLoop front chat).ending = .open ∧
      editor.chat = (screenLoop front chat).chat ∧
      screenInput around editor.chat input = refusal editor.chat error

theorem StoppedAt.cons {editor : Outcome} {inputs : List (Around × Text)}
    {done : Done} (goes : done.result = .ok false)
    (same : done = screenInput around chat input)
    (stopped : StoppedAt editor inputs done.chat) (shown : List Text) :
    StoppedAt { editor with shown := shown } ((around, input) :: inputs)
      chat := by
  rcases stopped with
    ⟨front, there, other, back, error, rfl, fails, going, kept, refused⟩
  refine ⟨(around, input) :: front, there, other, back, error, rfl, fails,
    ?_, ?_, refused⟩
  · rw [screenLoop, ← same, Done.next, goes]
    exact going
  · rw [screenLoop, ← same, Done.next, goes]
    exact kept

/-- The same inputs make the same session at both front ends, unless the
editor stops at a command that the screen refuses. -/
theorem one_session {inputs : List (Around × Text)}
    (typable : ∀ entry ∈ inputs, entry.2.getLast? ≠ some '\\')
    (turns : SameTurns inputs chat) :
    ((editorLoop (inputs.flatMap typed) [] chat).chat =
          (screenLoop inputs chat).chat ∧
        (editorLoop (inputs.flatMap typed) [] chat).ending =
          (screenLoop inputs chat).ending) ∨
      StoppedAt (editorLoop (inputs.flatMap typed) [] chat) inputs chat := by
  induction inputs generalizing chat with
  | nil => exact Or.inl ⟨rfl, rfl⟩
  | cons entry inputs induction =>
      rcases entry with ⟨around, input⟩
      rcases List.forall_mem_cons.mp typable with ⟨here, typable⟩
      rcases turns with ⟨turn, turns⟩
      have step := input_matches turn
      rw [List.flatMap_cons, editorLoop_typed here, screenLoop]
      generalize done : screenInput around chat input = screen at step turns ⊢
      generalize editorInput around chat input = editor at step ⊢
      cases step with
      | @refused error kept fails =>
          right
          refine ⟨[], around, input, inputs, error, rfl, ?_, rfl, ?_, ?_⟩
          · rw [Done.next, fails]
          · rw [Done.next, fails]
            exact kept
          · rw [Done.next, fails]
            dsimp only
            rw [kept]
            exact done
      | same chats results =>
          rw [Done.next, Done.next, results, chats]
          cases result : screen.result with
          | error error => exact Or.inl ⟨rfl, rfl⟩
          | ok ends =>
              cases ends with
              | true => exact Or.inl ⟨rfl, rfl⟩
              | false =>
                  rcases induction typable turns with same | stopped
                  · exact Or.inl same
                  · exact Or.inr (stopped.cons result done.symm _)

/-! ## What a session keeps -/

/-- Who serves a session. -/
inductive Owner where
  | managed
  | loaded
  | daemon
deriving DecidableEq

def owner : ChatEngine → Owner
  | .managed _ => .managed
  | .daemon (some _) => .loaded
  | .daemon none => .daemon

/-- A model was loaded with the settings that the session has. -/
def LoadedAs (seen : List ChatMachine) (chat : Chatting) (kind : BackendKind) :
    Option (Text → Option Nat) → Prop
  | none =>
    ∃ machine ∈ seen,
      machine.load kind chat.path (placement chat) (loadConfig chat) =
        .ok ()
  | some tokens =>
    ∃ machine ∈ seen,
      machine.load kind chat.path (placement chat) (loadConfig chat) =
          .ok () ∧
        tokens = machine.tokens chat.path

/-- The engine is one for the session. -/
def Loaded (seen : List ChatMachine) (chat : Chatting) : Prop :=
  match chat.engine with
  | .managed .mistral => LoadedAs seen chat .mistral none
  | .managed (.gguf tokens) => LoadedAs seen chat .gguf (some tokens)
  | .daemon (some tokens) => LoadedAs seen chat .gguf (some tokens)
  | .daemon none => True

/-- A session that goes on from its start: the copies agree, and the engine
is one for the session. -/
structure Coherent (seen : List ChatMachine) (start : ChatEngine × Session)
    (chat : Chatting) : Prop where
  path : chat.path = chat.session.path
  mode : chat.mode = chat.sessionMode
  owner : owner chat.engine = owner start.1
  reached : Reached start (chat.engine, chat.session)
  loaded : Loaded seen chat

/-- A session that goes on is coherent. -/
def Keeps (seen : List ChatMachine) (start : ChatEngine × Session)
    (done : Done) : Prop :=
  ∀ ends, done.result = .ok ends → Coherent seen start done.chat

variable {seen : List ChatMachine} {start : ChatEngine × Session}

theorem Coherent.keeps (coherent : Coherent seen start chat)
    (shown : List Text) (result : Except Text Bool) :
    Keeps seen start ⟨chat, shown, result⟩ :=
  fun _ _ => coherent

theorem keeps_error (chat : Chatting) (shown : List Text) (error : Text) :
    Keeps seen start ⟨chat, shown, .error error⟩ := by
  rintro ends ⟨⟩

/-- An engine is reloaded by one of its kind. -/
theorem reloads_of_owner {engine fresh : ChatEngine}
    (same : owner fresh = owner engine) : Reloads engine fresh := by
  rcases engine with old | _ | old
  · rcases fresh with new | _ | new
    · exact .managed old new
    · cases same
    · cases same
  · rcases fresh with new | _ | new
    · cases same
    · exact .kept _
    · cases same
  · rcases fresh with new | _ | new
    · cases same
    · cases same
    · exact .loaded old new

/-- A session that moves on with a fresh engine is coherent. -/
theorem reloaded_keeps {fresh : Except Text ChatEngine}
    (path : chat.path = chat.session.path)
    (mode : chat.mode = chat.sessionMode)
    (moves : ∀ engine, owner engine = owner start.1 →
      Reached start (engine, chat.session))
    (made : ∀ engine, fresh = .ok engine →
      owner engine = owner start.1 ∧
        Loaded seen { chat with engine := engine })
    (before behind : List Text) :
    Keeps seen start (reloaded chat fresh before behind) := by
  cases fresh with
  | error error => exact keeps_error chat before error
  | ok engine =>
      rcases made engine rfl with ⟨same, loaded⟩
      exact fun _ _ => ⟨path, mode, same, moves engine same, loaded⟩

/-- A change of the mode, with a reload of the engine or without one. -/
theorem Coherent.moveMode (coherent : Coherent seen start chat)
    {engine : ChatEngine}
    (same : OneSession.owner engine = OneSession.owner start.1) :
    Reached start (engine, chat.session) :=
  coherent.reached.tail
    (.mode (reloads_of_owner (same.trans coherent.owner.symm)) _)

theorem Coherent.moveModel (coherent : Coherent seen start chat)
    {engine : ChatEngine}
    (same : OneSession.owner engine = OneSession.owner start.1)
    (path : Path) :
    Reached start (engine, (withModel chat path).session) :=
  coherent.reached.tail
    (.model (reloads_of_owner (same.trans coherent.owner.symm)) path _)

/-- A reload makes an engine for the session. -/
theorem reload_made (member : around.machine ∈ seen) {engine : ChatEngine}
    (made : reload around chat = .ok engine) :
    owner engine = .managed ∧
      Loaded seen { chat with engine := engine } := by
  unfold reload loadEngine at made
  rcases bind_eq_ok.mp made with ⟨kind, resolved, made⟩
  rcases bind_eq_ok.mp made with ⟨model, fresh, made⟩
  rcases bind_eq_ok.mp fresh with ⟨⟨⟩, loaded, fresh⟩
  cases made
  cases fresh
  refine ⟨rfl, ?_⟩
  by_cases mistral : kind = .mistral
  · rw [mistral] at loaded
    simp only [Loaded, mistral, if_true]
    exact ⟨around.machine, member, loaded⟩
  · have gguf : kind = .gguf := by
      have found := (resolveRequested_iff.mp resolved).1.1
      rcases detectBackend_iff.mp found with ⟨gguf, -⟩ | ⟨same, -⟩
      · exact gguf
      · exact (mistral same).elim
    rw [gguf] at loaded
    simp only [Loaded, mistral, if_false]
    exact ⟨around.machine, member, loaded, rfl⟩

theorem reloadLocal_made (member : around.machine ∈ seen) {engine : ChatEngine}
    (made : reloadLocal around chat = .ok engine) :
    owner engine = .loaded ∧
      Loaded seen { chat with engine := engine } := by
  unfold reloadLocal at made
  rcases bind_eq_ok.mp made with ⟨⟨⟩, loaded, made⟩
  cases made
  exact ⟨rfl, around.machine, member, loaded, rfl⟩

theorem mode_keeps (member : around.machine ∈ seen)
    (coherent : Coherent seen start chat) (raw : Text) :
    Keeps seen start (commandMode around chat raw) := by
  have same := coherent.owner
  rw [commandMode]
  cases serves : chat.engine with
  | managed engine =>
      rw [serves] at same
      cases engine with
      | mistral => exact coherent.keeps _ _
      | gguf tokens =>
          cases readMode raw with
          | error error => exact coherent.keeps _ _
          | ok mode =>
              refine reloaded_keeps ?_ ?_ ?_ ?_ _ _
              · exact coherent.path
              · rfl
              · exact fun engine => coherent.moveMode
              · intro engine made
                rw [← same]
                exact reload_made member made
  | daemon loaded =>
      rw [serves] at same
      cases readMode raw with
      | error error => exact coherent.keeps _ _
      | ok mode =>
          cases loaded with
          | none =>
              intro _ _
              refine ⟨coherent.path, rfl, coherent.owner,
                coherent.moveMode coherent.owner, ?_⟩
              simp only [Loaded, withMode, serves]
          | some tokens =>
              refine reloaded_keeps ?_ ?_ ?_ ?_ _ _
              · exact coherent.path
              · rfl
              · exact fun engine => coherent.moveMode
              · intro engine made
                rw [← same]
                exact reloadLocal_made member made

theorem model_keeps (member : around.machine ∈ seen)
    (coherent : Coherent seen start chat) (raw : Text) :
    Keeps seen start (commandModel around chat raw) := by
  have same := coherent.owner
  rw [commandModel]
  cases around.machine.resolveModel raw with
  | error error => exact coherent.keeps _ _
  | ok path =>
      cases serves : chat.engine with
      | managed engine =>
          rw [serves] at same
          refine reloaded_keeps ?_ ?_ ?_ ?_ _ _
          · rfl
          · exact coherent.mode
          · exact fun engine same => coherent.moveModel same path
          · intro engine made
            rw [← same]
            exact reload_made member made
      | daemon loaded =>
          rw [serves] at same
          cases loaded with
          | none =>
              intro _ _
              refine ⟨rfl, coherent.mode, coherent.owner,
                coherent.moveModel coherent.owner path, ?_⟩
              simp only [Loaded, withModel, serves]
          | some tokens =>
              refine reloaded_keeps ?_ ?_ ?_ ?_ _ _
              · rfl
              · exact coherent.mode
              · exact fun engine same => coherent.moveModel same path
              · intro engine made
                rw [← same]
                exact reloadLocal_made member made

theorem think_keeps (coherent : Coherent seen start chat) (rest : Text) :
    Keeps seen start (commandThink around chat rest) := by
  rw [commandThink]
  split
  · exact coherent.keeps _ _
  · cases rethink around chat rest with
    | error error => exact coherent.keeps _ _
    | ok think =>
        intro _ _
        exact ⟨coherent.path, coherent.mode, coherent.owner,
          coherent.reached.tail (.think _ think _), coherent.loaded⟩

theorem reset_keeps (coherent : Coherent seen start chat) :
    Keeps seen start (commandReset around chat) := by
  rw [commandReset]
  cases resetEngine around chat with
  | error error => exact coherent.keeps _ _
  | ok done =>
      intro _ _
      exact ⟨coherent.path, coherent.mode, coherent.owner,
        coherent.reached.tail (.reset _ _), coherent.loaded⟩

theorem command_keeps (member : around.machine ∈ seen)
    (coherent : Coherent seen start chat) :
    Keeps seen start (chatCommand around chat input) := by
  rw [chatCommand]
  split_ifs
  · exact coherent.keeps _ _
  · exact coherent.keeps _ _
  · cases (splitWhitespace (input.drop 1)).tail with
    | nil => exact coherent.keeps _ _
    | cons raw rest => exact mode_keeps member coherent raw
  · cases (splitWhitespace (input.drop 1)).tail with
    | nil => exact coherent.keeps _ _
    | cons raw rest => exact model_keeps member coherent raw
  · exact think_keeps coherent _
  · exact reset_keeps coherent
  · exact coherent.keeps _ _
  · exact coherent.keeps _ _

/-- What a turn does not touch. -/
theorem localTurn_frame
    (step : Turning → List (ToolCall × Text) →
      Except Text (List ToolCall) × Turning)
    (session : Session) (request : GenerateRequest) :
    (localTurn step session request).1.path = session.path ∧
      (localTurn step session request).1.ctx = session.ctx := by
  rw [localTurn]
  generalize toolLoop session.maxToolRounds.toNat (callWith session.hub) step
    ⟨request, none, [], 0⟩ = both
  rcases both with ⟨done, turning⟩
  cases done with
  | error error => exact ⟨rfl, rfl⟩
  | ok done => exact ⟨rfl, rfl⟩

theorem takeTurn_frame (frontend : Frontend) (outside : Outside)
    (engine : ChatEngine) (input : Text) (session : Session) :
    (takeTurn frontend outside engine input session).1.path =
        session.path ∧
      (takeTurn frontend outside engine input session).1.ctx =
        session.ctx := by
  cases frontend with
  | editor =>
      rw [takeTurn, chatTurn]
      cases engine with
      | managed engine => exact localTurn_frame _ _ _
      | daemon loaded =>
          cases loaded with
          | some tokens => exact localTurn_frame _ _ _
          | none =>
              dsimp only
              split
              · exact ⟨rfl, rfl⟩
              · split
                · exact ⟨rfl, rfl⟩
                · exact ⟨rfl, rfl⟩
  | screen =>
      rw [takeTurn, tuiTurn]
      cases engine with
      | managed engine => exact localTurn_frame _ _ _
      | daemon loaded =>
          cases loaded with
          | some tokens => exact localTurn_frame _ _ _
          | none =>
              dsimp only
              split
              · exact ⟨rfl, rfl⟩
              · exact ⟨rfl, rfl⟩

/-- A turn at either front end keeps a session coherent. -/
theorem Coherent.turn (coherent : Coherent seen start chat)
    (frontend : Frontend) (outside : Outside) (input : Text) :
    Coherent seen start
      { chat with
        session :=
          (takeTurn frontend outside chat.engine input chat.session).1 } := by
  have moves := Moves.turn frontend outside input chat.engine chat.session
  rcases takeTurn_frame frontend outside chat.engine input chat.session with
    ⟨path, ctx⟩
  generalize (takeTurn frontend outside chat.engine input chat.session).1 =
    session at moves path ctx ⊢
  refine ⟨coherent.path.trans path.symm, coherent.mode, coherent.owner,
    coherent.reached.tail moves, ?_⟩
  have loaded := coherent.loaded
  simp only [Loaded, LoadedAs, loadConfig, placement, ctx] at loaded ⊢
  exact loaded

theorem editorInput_keeps (member : around.machine ∈ seen)
    (coherent : Coherent seen start chat) (input : Text) :
    Keeps seen start (editorInput around chat input) := by
  rw [editorInput]
  split_ifs
  · exact coherent.keeps _ _
  · exact command_keeps member coherent
  · intro _ _
    exact coherent.turn .editor around.outside input

theorem screenInput_keeps (member : around.machine ∈ seen)
    (coherent : Coherent seen start chat) (input : Text) :
    Keeps seen start (screenInput around chat input) := by
  rw [screenInput]
  split
  · exact coherent.keeps _ _
  · cases parsed : parseSlash input with
    | none =>
        intro _ _
        exact coherent.turn .screen around.outside input
    | some command =>
        have kept : Keeps seen start (chatCommand around chat input) :=
          command_keeps member coherent
        have step : Matches chat (chatCommand around chat input)
            (executeTuiSlash around chat command) := command_matches parsed
        generalize chatCommand around chat input = editor at kept step
        dsimp only
        generalize executeTuiSlash around chat command = screen at step ⊢
        cases step with
        | same chats results =>
            intro ends goes
            rw [← chats]
            exact kept ends (results.trans goes)
        | refused => exact coherent.keeps _ _

/-- What a session goes on with matters only if it goes on. -/
theorem next_congr {done : Done} {rest rest' : Chatting → Outcome}
    (same : done.result = .ok false → rest done.chat = rest' done.chat) :
    done.next rest = done.next rest' := by
  rcases done with ⟨after, shown, result⟩
  rcases result with error | quits
  · rfl
  · cases quits with
    | true => rfl
    | false =>
        show (⟨_, _, _⟩ : Outcome) = ⟨_, _, _⟩
        rw [show rest after = rest' after from same rfl]

/-- A session that did not fail is coherent. -/
def Sound (seen : List ChatMachine) (start : ChatEngine × Session)
    (outcome : Outcome) : Prop :=
  (∀ error, outcome.ending ≠ .failed error) →
    Coherent seen start outcome.chat

theorem Keeps.next {done : Done} (kept : Keeps seen start done)
    {rest : Chatting → Outcome}
    (run : Coherent seen start done.chat →
      Sound seen start (rest done.chat)) :
    Sound seen start (done.next rest) := by
  rw [Done.next]
  cases result : done.result with
  | error error => exact fun fine => (fine error rfl).elim
  | ok ends =>
      cases ends with
      | true => exact fun _ => kept true result
      | false => exact run (kept false result)

theorem editorLoop_sound {lines : List (Around × Text)}
    (members : ∀ entry ∈ lines, entry.1.machine ∈ seen)
    (coherent : Coherent seen start chat) (pending : Text) :
    Sound seen start (editorLoop lines pending chat) := by
  induction lines generalizing chat pending with
  | nil => exact fun _ => coherent
  | cons entry lines induction =>
      rcases entry with ⟨around, line⟩
      rcases List.forall_mem_cons.mp members with ⟨here, members⟩
      rw [editorLoop]
      split
      · exact induction members coherent _
      · exact (editorInput_keeps here coherent _).next fun kept =>
          induction members kept []

theorem screenLoop_sound {inputs : List (Around × Text)}
    (members : ∀ entry ∈ inputs, entry.1.machine ∈ seen)
    (coherent : Coherent seen start chat) :
    Sound seen start (screenLoop inputs chat) := by
  induction inputs generalizing chat with
  | nil => exact fun _ => coherent
  | cons entry inputs induction =>
      rcases entry with ⟨around, input⟩
      rcases List.forall_mem_cons.mp members with ⟨here, members⟩
      exact (screenInput_keeps here coherent input).next fun kept =>
        induction members kept

/-! ## From its beginning -/

theorem refuse_ok {flags : List (Bool × String)}
    (accepted : refuse flags = .ok ()) :
    ∀ flag ∈ flags, flag.1 = false := by
  induction flags with
  | nil => simp
  | cons flag flags induction =>
      rcases flag with ⟨given, error⟩
      cases given with
      | true => cases accepted
      | false => exact List.forall_mem_cons.mpr ⟨rfl, induction accepted⟩

/-- A managed model is loaded without what its flags are refused for. -/
theorem chatManaged_made {machine : ChatMachine} {args : ChatArgs}
    {path : Path} {placed : Placement} {rpcServers : List Text}
    {loras : List LoraSpec} {threads : Option Int} {engine : ChatEngine}
    (made : chatManaged machine args path placed rpcServers loras threads =
      .ok engine) :
    (engine = .managed .mistral ∧ threads = none ∧ rpcServers = []) ∧
      machine.load .mistral path placed
        { LoadConfig.default with nCtx := args.ctx, loras := loras } =
          .ok () := by
  unfold chatManaged at made
  rcases bind_eq_ok.mp made with ⟨⟨⟩, accepted, made⟩
  rcases bind_eq_ok.mp made with ⟨configured, -, made⟩
  split_ifs at made
  rcases bind_eq_ok.mp made with ⟨⟨⟩, loaded, made⟩
  cases made
  have flags := refuse_ok accepted
  simp only [List.forall_mem_cons] at flags
  refine ⟨⟨rfl, ?_, ?_⟩, loaded⟩
  · exact Option.not_isSome_iff_eq_none.mp (by simpa using flags.2.1)
  · simpa using flags.2.2.2.1

/-- A model of its own is loaded with the servers and the threads. -/
theorem chatGguf_made {machine : ChatMachine} {args : ChatArgs}
    {path : Path} {placed : Placement} {rpcServers : List Text}
    {loras : List LoraSpec} {threads : Option Int} {engine : ChatEngine}
    (made : chatGguf machine args path placed rpcServers loras threads =
      .ok engine) :
    engine = .daemon none ∨
      engine = .daemon (some (machine.tokens path)) ∧
        machine.load .gguf path { placed with rpcServers := rpcServers }
          { LoadConfig.default with
            nCtx := args.ctx
            loras := loras
            threads := threads } = .ok () := by
  unfold chatGguf at made
  split_ifs at made
  · cases made
    exact Or.inl rfl
  · rcases bind_eq_ok.mp made with ⟨⟨⟩, loaded, made⟩
    cases made
    exact Or.inr ⟨rfl, loaded⟩

theorem Mode.placement_rpcServers (mode : Mode) :
    { mode.placement with rpcServers := [] } = mode.placement := by
  cases mode <;> rfl

/-- A chat begins with an engine for its session. -/
theorem openChat_coherent {machine : ChatMachine} {args : ChatArgs}
    (opened : openChat machine args = .ok chat) :
    Coherent [machine] (chat.engine, chat.session) chat := by
  unfold openChat at opened
  rcases bind_eq_ok.mp opened with ⟨⟨engine, session⟩, setup, opened⟩
  rcases bind_eq_ok.mp opened with ⟨backend, backends, opened⟩
  rcases bind_eq_ok.mp opened with ⟨rpcServers, servers, opened⟩
  rcases bind_eq_ok.mp opened with ⟨mode, modes, opened⟩
  rcases bind_eq_ok.mp opened with ⟨loras, adapters, opened⟩
  rcases bind_eq_ok.mp opened with ⟨threads, counts, opened⟩
  cases opened
  have placed : parseMode args.mode = .ok mode.placement := by
    rw [parseMode_eq, modes]
    rfl
  unfold cmdChat at setup
  rw [backends, servers, placed, adapters, counts] at setup
  rcases bind_eq_ok.mp setup with ⟨_, ⟨⟩, setup⟩
  rcases bind_eq_ok.mp setup with ⟨_, ⟨⟩, setup⟩
  rcases bind_eq_ok.mp setup with ⟨_, ⟨⟩, setup⟩
  rcases bind_eq_ok.mp setup with ⟨path, -, setup⟩
  rcases bind_eq_ok.mp setup with ⟨kind, resolved, setup⟩
  rcases bind_eq_ok.mp setup with ⟨_, ⟨⟩, setup⟩
  rcases bind_eq_ok.mp setup with ⟨_, ⟨⟩, setup⟩
  rcases bind_eq_ok.mp setup with ⟨limit, -, setup⟩
  rcases bind_eq_ok.mp setup with ⟨chosen, engines, setup⟩
  rcases bind_eq_ok.mp setup with ⟨think, -, setup⟩
  rcases bind_eq_ok.mp setup with ⟨hub, -, setup⟩
  cases setup
  refine ⟨rfl, rfl, rfl, .refl, ?_⟩
  unfold chatEngine at engines
  split_ifs at engines with mistral
  · rcases chatManaged_made engines with ⟨⟨rfl, rfl, none⟩, loaded⟩
    refine ⟨machine, List.mem_singleton_self _, ?_⟩
    simp only [placement, loadConfig, none, Mode.placement_rpcServers]
    exact loaded
  · rcases chatGguf_made engines with rfl | ⟨rfl, loaded⟩
    · trivial
    · exact ⟨machine, List.mem_singleton_self _, loaded, rfl⟩

theorem LoadedAs.mono {more : List ChatMachine} {kind : BackendKind}
    {tokens : Option (Text → Option Nat)}
    (loaded : LoadedAs seen chat kind tokens) (incl : seen ⊆ more) :
    LoadedAs more chat kind tokens := by
  cases tokens with
  | none =>
      rcases loaded with ⟨machine, member, loaded⟩
      exact ⟨machine, incl member, loaded⟩
  | some tokens =>
      rcases loaded with ⟨machine, member, loaded⟩
      exact ⟨machine, incl member, loaded⟩

theorem Loaded.mono {more : List ChatMachine} (loaded : Loaded seen chat)
    (incl : seen ⊆ more) : Loaded more chat := by
  rw [Loaded] at loaded ⊢
  cases serves : chat.engine with
  | managed engine =>
      rw [serves] at loaded
      cases engine with
      | mistral => exact loaded.mono incl
      | gguf tokens => exact loaded.mono incl
  | daemon own =>
      rw [serves] at loaded
      cases own with
      | none => trivial
      | some tokens => exact loaded.mono incl

/-- Whatever is typed, a session that goes on has the engine that was loaded
for its path, its mode and its settings, and the one who serves it is the one
who served it first; its inputs are turns and commands. -/
theorem session_coherent {machine : ChatMachine} {args : ChatArgs}
    (opened : openChat machine args = .ok chat)
    (inputs : List (Around × Text)) :
    Sound (machine :: inputs.map fun entry => entry.1.machine)
        (chat.engine, chat.session) (editorLoop inputs [] chat) ∧
      Sound (machine :: inputs.map fun entry => entry.1.machine)
        (chat.engine, chat.session) (screenLoop inputs chat) := by
  have begins := openChat_coherent opened
  have first : Coherent
      (machine :: inputs.map fun entry => entry.1.machine)
      (chat.engine, chat.session) chat :=
    { begins with
      loaded := begins.loaded.mono (List.cons_subset_cons machine
        (List.nil_subset _)) }
  have members : ∀ entry ∈ inputs, entry.1.machine ∈
      machine :: inputs.map fun entry => entry.1.machine :=
    fun entry member =>
      List.mem_cons_of_mem _ (List.mem_map_of_mem member)
  exact ⟨editorLoop_sound members first [], screenLoop_sound members first⟩

/-! ## A desk with a daemon -/

def deskAround : Around where
  machine := chatDesk
  resetContext := .ok ()
  formatUsage _ := []
  outside := weatherAsked

def deskChat : Chatting where
  session := chatSession
  backend := .auto
  sessionMode := .cpu
  threads := none
  loras := []
  rpcServers := []
  engine := .daemon none
  path := SameAnswer.qwen
  mode := .cpu

/-- Two lines, a mode that there is not, and the end. -/
def deskInputs : List (Around × Text) :=
  [(deskAround, "hi\nyou".toList), (deskAround, "/mode warm".toList),
    (deskAround, "/quit".toList)]

/-- The editor stops at the mode, which the screen refuses. -/
theorem one_session_desk :
    StoppedAt (editorLoop (deskInputs.flatMap typed) [] deskChat) deskInputs
      deskChat := by
  have same : SameTurns deskInputs deskChat := by
    refine ⟨fun _ => rfl, ?_, ?_, trivial⟩
    · intro slash
      exact (slash rfl).elim
    · intro slash
      exact (slash rfl).elim
  refine (one_session (by simp [deskInputs]) same).resolve_left ?_
  rintro ⟨-, ending⟩
  revert ending
  decide +kernel

theorem session_coherent_desk :
    openChat chatDesk chatArgs = .ok deskChat ∧
      Sound (chatDesk :: deskInputs.map fun entry => entry.1.machine)
          (deskChat.engine, deskChat.session)
          (editorLoop deskInputs [] deskChat) ∧
        Sound (chatDesk :: deskInputs.map fun entry => entry.1.machine)
          (deskChat.engine, deskChat.session)
          (screenLoop deskInputs deskChat) :=
  have opened : openChat chatDesk chatArgs = .ok deskChat := rfl
  ⟨opened, session_coherent opened deskInputs⟩

end Runa.App.OneSession
