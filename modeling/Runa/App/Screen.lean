import Runa.App.OneSession

/-!
# Keys of the full screen

The embedding of `ChatTui` and `on_key` of `runa/src/tui.rs` and of the event
loop of `run_tui`.  The text area is a parameter: what is proved holds for
any way of editing a text.  The transcript, the status bar and how they are
drawn are left out.  `run_follows` says that a run over any events is the loop
over the texts that were sent.
-/

namespace Runa.App.Screen

open Runa.App.Chat
open Runa.App.Commands
open Runa.App.OneSession
open Runa.Stream.Lines (Blank trim)
open Runa.Stream.Utf8
open Runa.Stream.Words

/-! ## Keys and events -/

inductive KeyCode where
  | char (char : Char)
  | enter
  | esc
  | up
  | down
  | pageUp
  | pageDown
  | other (code : Nat)
deriving DecidableEq

structure KeyEvent where
  code : KeyCode
  control : Bool
  shift : Bool
  alt : Bool
  /-- other modifiers, the kind and the state, which the text area reads -/
  rest : Nat

inductive Event where
  | key (key : KeyEvent)
  | paste (text : Text)
  | other

/-- What is used of a text area. -/
structure TextArea (Area : Type) where
  /-- `fresh_input` -/
  fresh : Area
  lines : Area → List Text
  /-- the row of the cursor -/
  row : Area → Nat
  insertNewline : Area → Area
  insertStr : Area → Text → Area
  input : Area → KeyEvent → Area

def scrollPage : Nat := 10

/-- `usize::MAX` -/
def scrollMax : Nat := 2 ^ 64 - 1

structure ChatTui (Area : Type) where
  input : Area
  /-- Submitted texts, oldest first. -/
  history : List Text
  /-- The history entry on screen while browsing, if any. -/
  browsing : Option Nat
  showReasoning : Bool
  /-- Lines scrolled up from the bottom of the transcript. -/
  scroll : Nat
  /-- A first `Ctrl+C` arms; the second quits. -/
  ctrlCArmed : Bool

inductive KeyAction where
  | nothing
  | submit (text : Text)
  | slash (command : SlashCmd)
  | quit

section

variable {Area : Type} (area : TextArea Area)

def ChatTui.new : ChatTui Area where
  input := area.fresh
  history := []
  browsing := none
  showReasoning := false
  scroll := 0
  ctrlCArmed := false

variable (tui : ChatTui Area)

def inputText : Text :=
  joined '\n' (area.lines tui.input)

/-- `is_input_empty` -/
def isBoxEmpty : Bool :=
  (area.lines tui.input).all fun line => (trim line).isEmpty

/-- What `submit_text` leaves. -/
def submitText : ChatTui Area :=
  { tui with
    history := tui.history ++ [inputText area tui]
    browsing := none
    input := area.fresh
    scroll := 0 }

def browse (index : Option Nat) : ChatTui Area :=
  let text := (index.bind fun index => tui.history[index]?).getD []
  { tui with
    browsing := index
    input := area.insertStr area.fresh text }

/-- The keys that are left to the text area. -/
def edit (key : KeyEvent) : ChatTui Area :=
  { tui with input := area.input tui.input key }

/-- `on_key` behind its first lines, which are about `Ctrl`. -/
def onPlainKey (key : KeyEvent) : ChatTui Area × KeyAction :=
  match key.code with
  | .pageUp =>
    ({ tui with scroll := min (tui.scroll + scrollPage) scrollMax },
      .nothing)
  | .pageDown => ({ tui with scroll := tui.scroll - scrollPage }, .nothing)
  | .esc =>
    if isBoxEmpty area tui then (tui, .nothing)
    else ({ tui with input := area.fresh }, .nothing)
  | .enter =>
    if key.shift || key.alt then
      ({ tui with input := area.insertNewline tui.input }, .nothing)
    else if isBoxEmpty area tui then (tui, .nothing)
    else
      let text := inputText area tui
      match parseSlash text with
      | some command => (submitText area tui, .slash command)
      | none => (submitText area tui, .submit text)
  | .up =>
    if area.row tui.input = 0 ∧ tui.history ≠ [] then
      let last := tui.history.length - 1
      let index := (tui.browsing.map fun index => index - 1).getD last
      (browse area tui (some index), .nothing)
    else (edit area tui key, .nothing)
  | .down =>
    if tui.browsing.isSome ∧
        area.row tui.input + 1 = (area.lines tui.input).length then
      let next := tui.browsing.bind fun index =>
        if index + 1 < tui.history.length then some (index + 1) else none
      (browse area tui next, .nothing)
    else (edit area tui key, .nothing)
  | _ => (edit area tui key, .nothing)

def KeyEvent.ctrl (key : KeyEvent) (char : Char) : Bool :=
  key.control && key.code = .char char

def onKey (key : KeyEvent) : ChatTui Area × KeyAction :=
  if key.ctrl 'c' then
    if tui.ctrlCArmed then (tui, .quit)
    else ({ tui with ctrlCArmed := true }, .nothing)
  else
    let tui := { tui with ctrlCArmed := false }
    if key.ctrl 'd' then (tui, .quit)
    else if key.ctrl 'r' then
      ({ tui with showReasoning := !tui.showReasoning }, .nothing)
    else onPlainKey area tui key

end

/-! ## The loop -/

section

variable {Area : Type} (area : TextArea Area)

/-- The texts that the keys send, until a key quits. -/
def sent : List (Around × Event) → ChatTui Area → List (Around × Text)
  | [], _ => []
  | (around, .key key) :: events, tui =>
    match onKey area tui key with
    | (next, .nothing) => sent events next
    | (next, .submit _) => (around, inputText area tui) :: sent events next
    | (next, .slash _) => (around, inputText area tui) :: sent events next
    | (_, .quit) => []
  | (_, .paste text) :: events, tui =>
    sent events { tui with input := area.insertStr tui.input text }
  | (_, .other) :: events, tui => sent events tui

end

def keysOf (events : List (Around × Event)) : List KeyEvent :=
  events.filterMap fun entry =>
    match entry.2 with
    | .key key => some key
    | _ => none

/-- Two keys one right behind the other, or one, that quit. -/
def Leaves (keys : List KeyEvent) : Prop :=
  (∃ key ∈ keys, key.ctrl 'd' = true) ∨
    ∃ first second, [first, second] <:+: keys ∧
      first.ctrl 'c' = true ∧ second.ctrl 'c' = true

section

variable {Area : Type} {area : TextArea Area} {tui : ChatTui Area}
  {key : KeyEvent} {around : Around} {chat : Chatting}

/-- The entry on screen is one of the history. -/
def ChatTui.Browses (tui : ChatTui Area) : Prop :=
  ∀ index, tui.browsing = some index → index < tui.history.length

/-- How a text is sent. -/
inductive Sends (text : Text) : KeyAction → Prop
  | submits (plain : parseSlash text = none) : Sends text (.submit text)
  | commands (command : SlashCmd) (slash : parseSlash text = some command) :
      Sends text (.slash command)

/-- What a key that has nothing to do with `Ctrl` can do. -/
inductive Plain (area : TextArea Area) (tui : ChatTui Area) :
    ChatTui Area × KeyAction → Prop
  | edits (next : ChatTui Area) (armed : next.ctrlCArmed = tui.ctrlCArmed)
      (history : next.history = tui.history)
      (browses : tui.Browses → next.Browses) : Plain area tui (next, .nothing)
  | sends (action : KeyAction) (words : isBoxEmpty area tui = false)
      (text : Sends (inputText area tui) action) :
      Plain area tui (submitText area tui, action)

theorem Plain.inserts (input : Area) :
    Plain area tui ({ tui with input := input }, .nothing) :=
  .edits _ rfl rfl id

theorem Sends.sent {events : List (Around × Event)} {next : ChatTui Area}
    {action : KeyAction} (text : Sends (inputText area tui) action)
    (made : onKey area tui key = (next, action)) :
    Screen.sent area ((around, .key key) :: events) tui =
      (around, inputText area tui) :: Screen.sent area events next := by
  cases text with
  | submits plain => rw [Screen.sent, made]
  | commands command slash => rw [Screen.sent, made]

/-- A run ends as the loop over its texts does, or at a key that quits. -/
structure Closes (leaves : Prop) (run screen : Outcome) : Prop where
  chat : run.chat = screen.chat
  shown : run.shown = screen.shown
  ended : screen.ending ≠ .open → run.ending = screen.ending
  left : screen.ending = .open → leaves → run.ending = .quit
  stays : screen.ending = .open → ¬ leaves → run.ending = .open

theorem Closes.next {leaves : Prop} {run screen : Chatting → Outcome}
    (rest : ∀ chat, Closes leaves (run chat) (screen chat)) (done : Done) :
    Closes leaves (done.next run) (done.next screen) := by
  rcases done with ⟨after, shown, result⟩
  rcases result with error | ends
  · exact ⟨rfl, rfl, fun _ => rfl, by rintro ⟨⟩, by rintro ⟨⟩⟩
  · cases ends with
    | true => exact ⟨rfl, rfl, fun _ => rfl, by rintro ⟨⟩, by rintro ⟨⟩⟩
    | false =>
        have later := rest after
        refine ⟨later.chat, ?_, later.ended, later.left, later.stays⟩
        show shown ++ _ = shown ++ _
        rw [later.shown]

variable {events : List (Around × Event)} {next : ChatTui Area}
  {action : KeyAction}

/-- The history gained the inputs that the session needs. -/
def Recorded (inputs : List (Around × Text)) (chat : Chatting)
    (before : List Text) (tui : ChatTui Area) : Prop :=
  tui.Browses ∧ ∃ used, used <+: inputs ∧
    tui.history = before ++ used.map Prod.snd ∧
      screenLoop used chat = screenLoop inputs chat

theorem Recorded.nothing (browses : tui.Browses) :
    Recorded [] chat tui.history tui :=
  ⟨browses, [], List.nil_prefix, (List.append_nil _).symm, rfl⟩

variable {inputs : List (Around × Text)} {before : List Text} {input : Text}

/-- A session that an input ends needs no other. -/
theorem Recorded.stops (browses : tui.Browses)
    (history : tui.history = before ++ [input])
    (ends : (screenInput around chat input).result ≠ .ok false) :
    Recorded ((around, input) :: inputs) chat before tui := by
  refine ⟨browses, [(around, input)], ⟨inputs, rfl⟩, history, ?_⟩
  rw [screenLoop, screenLoop]
  exact next_congr fun goes => (ends goes).elim

theorem Recorded.goes
    (rest : Recorded inputs (screenInput around chat input).chat
      (before ++ [input]) tui) :
    Recorded ((around, input) :: inputs) chat before tui := by
  rcases rest with ⟨browses, used, front, history, same⟩
  refine ⟨browses, (around, input) :: used, ?_, ?_, ?_⟩
  · exact List.cons_prefix_cons.mpr ⟨rfl, front⟩
  · rw [history, List.append_assoc]
    rfl
  · rw [screenLoop, screenLoop]
    exact next_congr fun _ => same

end

/-- A run from a new screen: the session is the one that the texts of the
history make, and quits at a command or at the keys for it. -/
structure Follows {Area : Type} (area : TextArea Area)
    (events : List (Around × Event)) (chat : Chatting)
    (run : ChatTui Area × Outcome) : Prop where
  session : ∃ used, used <+: sent area events (.new area) ∧
    run.1.history = used.map Prod.snd ∧
      screenLoop used chat = screenLoop (sent area events (.new area)) chat ∧
        Closes (Leaves (keysOf events)) run.2 (screenLoop used chat)
  spoken : ∀ text ∈ run.1.history, ¬ Blank text
  browses : run.1.Browses

end Runa.App.Screen
